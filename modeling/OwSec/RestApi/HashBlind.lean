import OwSec.Kit.Relational
import OwSec.RestApi.SubMfa
import OwSec.Storage.Recode

/-!
# Handlers that do not look at password hashes

Two runs of one request, on stores that differ in password hashes at most: the shared part of a
request lets both of them through or neither, for callers that differ in the hashes at most.
-/

namespace OwSec

open SecurityObjects Kit

namespace RestApi

variable (svc : Service)

/-- What the methods see when the caller has other password columns. -/
def Context.rehash (c : Context) (hash : String) (hashes : List String) : Context :=
  { c with userInfo := { c.userInfo with userinfo := c.userInfo.userinfo.rehash hash hashes } }

/-- What the methods see differs in the hashes of the caller at most. -/
def Context.SameButPasswords (c d : Context) : Prop := ∃ hash hashes, d = c.rehash hash hashes

/-- From stores that differ in password hashes at most, the two end in the same way, in such stores
again. -/
abbrev SameRuns {α : Type} (V : α → α → Prop) (c d : Handling α) : Prop :=
  Command.Related Storage.SameButPasswords V c d

/-- They end in the same way, with the same value. -/
abbrev SameReply {α : Type} (c d : Handling α) : Prop := SameRuns Eq c d

namespace SameRuns

/-! ## The stores -/

/-- Reading what is not a population. -/
theorem reads {α : Type} {f : Storage → α}
    (h : ∀ s user sub, f { s with user, sub } = f s) :
    SameReply (Command.reads f : Handling α) (Command.reads f) := by
  refine Command.Related.reads fun s t hst ↦ ?_
  obtain ⟨user, sub, rfl, -, -⟩ := hst.exists_eq
  exact (h s user sub).symm

/-- Working on what is not a population. -/
theorem act {α : Type} {f : Storage → α × Storage}
    (h : ∀ s user sub, f { s with user, sub } = ((f s).1, { (f s).2 with user, sub })) :
    SameReply (Command.act f : Handling α) (Command.act f) := by
  refine Command.Related.act fun s t hst ↦ ?_
  obtain ⟨user, sub, rfl, huser, hsub⟩ := hst.exists_eq
  have hself : f s = ((f s).1, { (f s).2 with user := s.user, sub := s.sub }) := h s s.user s.sub
  have hfuser : (f s).2.user = s.user := by rw [hself]
  have hfsub : (f s).2.sub = s.sub := by rw [hself]
  rw [← hfuser] at huser
  rw [← hfsub] at hsub
  rw [h s user sub]
  exact ⟨rfl, .of_parts huser hsub⟩

/-- Writing what is not a population. -/
theorem write {f : Storage → Storage}
    (h : ∀ s user sub, f { s with user, sub } = { f s with user, sub }) :
    SameRuns (fun _ _ ↦ True) (Command.write f : Handling PUnit) (Command.write f) := by
  refine Command.Related.write fun s t hst ↦ ?_
  obtain ⟨user, sub, rfl, huser, hsub⟩ := hst.exists_eq
  have hself : f s = { f s with user := s.user, sub := s.sub } := h s s.user s.sub
  have hfuser : (f s).user = s.user := by rw [hself]
  have hfsub : (f s).sub = s.sub := by rw [hself]
  rw [← hfuser] at huser
  rw [← hfsub] at hsub
  rw [h s user sub]
  exact .of_parts huser hsub

/-- Working on a population. -/
theorem onPopulation {α : Type} {V : α → α → Prop} {f g : Population → α × Population}
    (isSub : Bool)
    (hfg : ∀ p q : Population, p.SameButPasswords q →
      V (f p).1 (g q).1 ∧ (f p).2.SameButPasswords (g q).2) :
    SameRuns V (Command.act fun s : Storage ↦ s.onPopulation isSub f : Handling α)
      (Command.act fun s : Storage ↦ s.onPopulation isSub g) :=
  Command.Related.act fun _ _ hst ↦ hst.onPopulation isSub hfg

theorem getUserById (isSub : Bool) (id : String) :
    SameRuns (Option.Rel UserInfo.SameButPasswords)
      (Command.act fun s : Storage ↦ s.onPopulation isSub fun p ↦ p.getUserById svc id)
      (Command.act fun s : Storage ↦ s.onPopulation isSub fun p ↦ p.getUserById svc id) :=
  onPopulation isSub fun _ _ h ↦ h.getUserById id

theorem getUserByEmail (isSub : Bool) (email : String) :
    SameRuns (Option.Rel UserInfo.SameButPasswords) (UserHandler.getUserByEmail svc isSub email)
      (UserHandler.getUserByEmail svc isSub email) :=
  onPopulation isSub fun _ _ h ↦ h.getUserByEmail email

theorem updateUserInfo (isSub : Bool) (id : String) {u v : UserInfo} (h : u.SameButPasswords v) :
    SameReply
      (Command.act fun s : Storage ↦ s.onPopulation isSub fun p ↦ p.updateUserInfo svc id u)
      (Command.act fun s : Storage ↦ s.onPopulation isSub fun p ↦ p.updateUserInfo svc id v) :=
  onPopulation isSub fun _ _ hpq ↦ hpq.updateUserInfo id h

theorem createUser (isSub : Bool) (m : Moment) (u : UserInfo) :
    SameReply
      (Command.act fun s : Storage ↦ s.onPopulation isSub fun p ↦ p.createUser svc m u)
      (Command.act fun s : Storage ↦ s.onPopulation isSub fun p ↦ p.createUser svc m u) :=
  onPopulation isSub fun _ _ h ↦ h.createUser m u

/-- Storing a link, of the one record or of the other. -/
theorem createAction (a : ActionLink) :
    SameRuns (fun _ _ ↦ True) (Command.write fun s : Storage ↦ s.createAction a : Handling PUnit)
      (Command.write fun s : Storage ↦ s.createAction a) := by
  refine write fun s user sub ↦ ?_
  unfold Storage.createAction
  rcases s.actionLinks.insert a with _ | links <;> rfl

theorem totpCompleteValidation (now : ℕ) (userId : String) (subscriber : Bool) :
    SameReply (Command.act fun s : Storage ↦ s.totpCompleteValidation now userId subscriber)
      (Command.act fun s : Storage ↦ s.totpCompleteValidation now userId subscriber) := by
  refine act fun s user sub ↦ ?_
  unfold Storage.totpCompleteValidation
  simp only
  split
  · split <;> rfl
  · rfl

theorem smsStartValidation (gateway : SmsGateway) (now : ℕ) (number userName : String) :
    SameReply
      (Command.act fun s : Storage ↦ s.smsStartValidation svc gateway now number userName)
      (Command.act fun s : Storage ↦ s.smsStartValidation svc gateway now number userName) := by
  refine act fun s user sub ↦ ?_
  unfold Storage.smsStartValidation
  split <;> rfl

theorem smsCompleteValidation (number code userName : String) :
    SameReply (Command.act fun s : Storage ↦ s.smsCompleteValidation svc number code userName)
      (Command.act fun s : Storage ↦ s.smsCompleteValidation svc number code userName) := by
  refine act fun s user sub ↦ ?_
  unfold Storage.smsCompleteValidation
  split <;> rfl

/-- Writing the users. -/
theorem writeUser {f : Population → Population}
    (hf : ∀ p q : Population, p.SameButPasswords q → (f p).SameButPasswords (f q)) :
    SameRuns (fun _ _ ↦ True)
      (Command.write fun s : Storage ↦ { s with user := f s.user } : Handling PUnit)
      (Command.write fun s : Storage ↦ { s with user := f s.user }) :=
  Command.Related.write fun _ _ hst ↦ hst.setPopulation false (hf _ _ (hst.population false))

/-- Writing the subscribers. -/
theorem writeSub {f : Population → Population}
    (hf : ∀ p q : Population, p.SameButPasswords q → (f p).SameButPasswords (f q)) :
    SameRuns (fun _ _ ↦ True)
      (Command.write fun s : Storage ↦ { s with sub := f s.sub } : Handling PUnit)
      (Command.write fun s : Storage ↦ { s with sub := f s.sub }) :=
  Command.Related.write fun _ _ hst ↦ hst.setPopulation true (hf _ _ (hst.population true))

/-- Storing a link for a record that is marked as waiting. -/
theorem verifyEmailWith (action : LinkActions) (userAction : Bool) (now : ℕ) (linkId : String)
    {u v : UserInfo} (h : u.SameButPasswords v) :
    SameRuns UserInfo.SameButPasswords
      (Command.act fun s : Storage ↦ s.verifyEmailWith action userAction now linkId u)
      (Command.act fun s : Storage ↦ s.verifyEmailWith action userAction now linkId v) := by
  obtain ⟨hash, hashes, rfl⟩ := h.exists_eq
  intro s t hst
  obtain ⟨-, hstate⟩ := createAction
    { action := action.toNat
      userId := u.id
      id := linkId
      created := now
      expires := now + 24 * 60 * 60
      userAction := userAction } s t hst
  exact ⟨.ok rfl, hstate⟩

/-- The check of a token. -/
theorem checkToken (isSub : Bool) (now : ℕ) (token : String) :
    SameRuns (fun r r' ↦ Recoding.blank.check r = Recoding.blank.check r')
      (Command.act fun s : Storage ↦ s.onPopulation isSub fun p ↦ p.checkToken svc now token)
      (Command.act fun s : Storage ↦ s.onPopulation isSub fun p ↦ p.checkToken svc now token) :=
  onPopulation isSub fun _ _ h ↦ h.of_recode Recoding.blank.check
    (f := fun p ↦ p.checkToken svc now token) fun p ↦ p.checkToken_recode svc .blank now token

/-- Listing accounts: the records differ in password hashes at most. -/
theorem getUsers (isSub : Bool) (offset howMany : ℕ) (whereClause : String) :
    SameRuns (fun r r' ↦ r.1 = r'.1 ∧ r.2.map sanitize = r'.2.map sanitize)
      (Command.reads fun s : Storage ↦
        (s.population isSub).getUsers svc offset howMany whereClause)
      (Command.reads fun s : Storage ↦
        (s.population isSub).getUsers svc offset howMany whereClause) := by
  refine Command.Related.reads fun s t hst ↦ ?_
  have hs := (s.population isSub).getUsers_recode svc .blank offset howMany whereClause
  have ht := (t.population isSub).getUsers_recode svc .blank offset howMany whereClause
  rw [← hst.population isSub, hs] at ht
  obtain ⟨hfound, husers⟩ := Prod.mk.inj ht
  refine ⟨hfound, ?_⟩
  have hsanitize := congrArg (List.map sanitize) husers
  rw [List.map_map, List.map_map] at hsanitize
  exact hsanitize

end SameRuns

/-! ## The shared part of a request -/

/-- Users that differ in password hashes at most, with the same token. -/
def SameUser (a b : UserInfoAndPolicy) : Prop :=
  Recoding.blank.info a = Recoding.blank.info b

theorem SameUser.userinfo {a b : UserInfoAndPolicy} (h : SameUser a b) :
    a.userinfo.SameButPasswords b.userinfo := congrArg UserInfoAndPolicy.userinfo h

theorem SameUser.exists_eq {a b : UserInfoAndPolicy} (h : SameUser a b) :
    ∃ hash hashes, b = { a with userinfo := a.userinfo.rehash hash hashes } := by
  have hblank : Recoding.blank.info a = Recoding.blank.info b := h
  exact ⟨b.userinfo.currentPassword, b.userinfo.lastPasswords,
    (congrArg (fun w : UserInfoAndPolicy ↦
      ({ w with
        userinfo := w.userinfo.rehash b.userinfo.currentPassword b.userinfo.lastPasswords } :
        UserInfoAndPolicy)) hblank).symm⟩

/-- The same user, or none. -/
theorem SameUser.option {o o' : Option UserInfoAndPolicy}
    (h : o.map Recoding.blank.info = o'.map Recoding.blank.info) : Option.Rel SameUser o o' := by
  rcases o with _ | ui <;> rcases o' with _ | ui'
  · exact .none
  · cases h
  · cases h
  · exact .some (Option.some.inj h)

/-- Results of the authentication step that differ in the caller's password hashes at most. -/
structure AuthResult.Same (a b : AuthResult) : Prop where
  granted : Option.Rel (fun x y ↦ SameUser x.1 y.1 ∧ x.2 = y.2) a.granted b.granted
  expired : a.expired = b.expired
  contacted : a.contacted = b.contacted

theorem AuthResult.Same.refusal {a b : AuthResult} (h : a.Same b) : a.refusal = b.refusal := by
  unfold AuthResult.refusal
  rw [h.expired, h.contacted]

/-- What a check reports of two such stores. -/
theorem AuthResult.Same.of_check {r r' : CheckResult}
    (h : Recoding.blank.check r = Recoding.blank.check r') :
    AuthResult.Same
      { granted := r.uinfo.map fun ui ↦ (ui, ui.userinfo.email), expired := r.expired }
      { granted := r'.uinfo.map fun ui ↦ (ui, ui.userinfo.email), expired := r'.expired } := by
  obtain ⟨uinfo, expired⟩ := r
  obtain ⟨uinfo', expired'⟩ := r'
  obtain ⟨huinfo, rfl⟩ : uinfo.map Recoding.blank.info = uinfo'.map Recoding.blank.info ∧
      expired = expired' := CheckResult.mk.inj h
  refine ⟨?_, rfl, rfl⟩
  cases SameUser.option huinfo with
  | none => exact .none
  | some hui =>
    obtain ⟨hash, hashes, rfl⟩ := hui.exists_eq
    exact .some ⟨hui, rfl⟩

/-- The check of a credential. -/
theorem isAuthorized_same (now : ℕ) (subOnly : Bool) (credential : Credential) {s t : Storage}
    (h : s.SameButPasswords t) :
    (isAuthorized svc now subOnly credential s).1.Same
        (isAuthorized svc now subOnly credential t).1 ∧
      (isAuthorized svc now subOnly credential s).2.SameButPasswords
        (isAuthorized svc now subOnly credential t).2 := by
  cases credential with
  | service name key =>
    refine ⟨⟨?_, rfl, rfl⟩, h⟩
    simp only [isAuthorized]
    split
    · exact .some ⟨rfl, rfl⟩
    · exact .none
  | apiKey key =>
    obtain ⟨hcheck, hstate⟩ := h.of_recode Recoding.blank.check
      (f := fun s ↦ s.isValidApiKey svc now key) fun s ↦ s.isValidApiKey_recode svc .blank now key
    exact ⟨.of_check hcheck, hstate⟩
  | bearer token =>
    obtain ⟨hcheck, hstate⟩ := h.of_recode Recoding.blank.check
      (f := fun s ↦ s.authServiceIsAuthorized svc now token subOnly) fun s ↦
        s.authServiceIsAuthorized_recode svc .blank now token subOnly
    exact ⟨.of_check hcheck, hstate⟩

section

variable (h : Handler) (m : Moment) (rateExceeded : Bool) (r : Request)

/-- The authentication step. -/
theorem authenticate_same {s t : Storage} (hst : s.SameButPasswords t) :
    (authenticate svc h m r s).1.Same (authenticate svc h m r t).1 ∧
      (authenticate svc h m r s).2.SameButPasswords (authenticate svc h m r t).2 := by
  unfold authenticate
  split
  · exact isAuthorized_same svc m.now h.subOnlyService _ hst
  · exact ⟨⟨.some ⟨rfl, rfl⟩, rfl, rfl⟩, hst⟩

/-- A request is let through from both stores or from neither. -/
theorem acceptRequest_same :
    SameRuns (fun c d ↦ c.SameButPasswords d ∧ c.request = r ∧ c.internal = h.internal)
      (acceptRequest svc h m rateExceeded r) (acceptRequest svc h m rateExceeded r) := by
  refine .bind (.ensure rfl _) fun _ _ _ ↦ ?_
  refine .bind (.ensure rfl _) fun _ _ _ ↦ ?_
  refine .bind (.ensure rfl _) fun _ _ _ ↦ ?_
  refine .bind (.ensure rfl _) fun _ _ _ ↦ ?_
  refine .bind (.act fun _ _ ↦ authenticate_same svc h m r) fun a b hab ↦ ?_
  rw [hab.refusal]
  refine .bind (.orStop hab.granted _) fun x y hxy ↦ ?_
  refine .bind_eq (.orStop_eq _ _) fun q ↦ ?_
  obtain ⟨caller, requester⟩ := x
  obtain ⟨_, _⟩ := y
  obtain ⟨huser, rfl⟩ := hxy
  obtain ⟨hash, hashes, rfl⟩ := huser.exists_eq
  exact .pure ⟨⟨hash, hashes, rfl⟩, rfl, rfl⟩

/-- The method that is called is the same one. -/
theorem dispatch_same {h : Handler} {c d : Context} (hcd : c.SameButPasswords d)
    (hget : SameReply (h.doGet c) (h.doGet d)) (hpost : SameReply (h.doPost c) (h.doPost d))
    (hput : c.request.method = .PUT → SameReply (h.doPut c) (h.doPut d))
    (hdelete : SameReply (h.doDelete c) (h.doDelete d)) :
    SameReply (dispatch h c) (dispatch h d) := by
  obtain ⟨hash, hashes, rfl⟩ := hcd
  unfold dispatch
  rw [show (c.rehash hash hashes).request = c.request from rfl]
  split
  · exact hget
  · exact hpost
  · exact hdelete
  · rename_i hmethod
    exact hput hmethod
  · exact .pure rfl

/-- The answers are the same, however the runs end. -/
theorem answer_same {c d : Handling Response} (hcd : SameReply c d) {s t : Storage}
    (hst : s.SameButPasswords t) :
    (answer c s).1 = (answer d t).1 ∧ (answer c s).2.SameButPasswords (answer d t).2 := by
  obtain ⟨hvalue, hstate⟩ := hcd s t hst
  unfold answer
  generalize c s = x at hvalue hstate ⊢
  generalize d t = y at hvalue hstate ⊢
  obtain ⟨_ | reply, s'⟩ := x <;> obtain ⟨_ | reply', t'⟩ := y
  · cases hvalue
    exact ⟨rfl, hstate⟩
  · cases hvalue
  · cases hvalue
  · cases hvalue with
    | ok hreply => exact ⟨hreply, hstate⟩

/-- A request is answered in the same way from both stores if its method is. -/
theorem handleRequest_same
    (hmethod : ∀ c d : Context, c.SameButPasswords d → c.request = r → c.internal = h.internal →
      SameReply (dispatch h c) (dispatch h d)) {s t : Storage} (hst : s.SameButPasswords t) :
    (handleRequest svc h m rateExceeded r s).1 = (handleRequest svc h m rateExceeded r t).1 ∧
      (handleRequest svc h m rateExceeded r s).2.SameButPasswords
        (handleRequest svc h m rateExceeded r t).2 := by
  have hrun : SameReply (acceptRequest svc h m rateExceeded r >>= dispatch h)
      (acceptRequest svc h m rateExceeded r >>= dispatch h) :=
    (acceptRequest_same svc h m rateExceeded r).bind fun c d hcd ↦ hmethod c d hcd.1 hcd.2.1 hcd.2.2
  exact answer_same hrun hst

end

end RestApi

end OwSec
