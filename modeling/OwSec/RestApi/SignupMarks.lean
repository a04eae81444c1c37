import OwSec.Kit.Maintained
import OwSec.RestApi.RecordRequests

/-!
# Which subscribers have signed up

The field `signingUp` of a subscriber names the operator and the sign-up that the record comes
from.  It is written when the record is created: by the sign-up handler, where it is never
empty, or by the subscriber handler, which takes it from the body.  No update touches it.

A set of identifiers tells the two kinds of subscribers apart.  `Storage.Marked` says that the
records of the subscribers fit such a set, and that the links of sign-ups are for the others;
the requests of the users, of the subscribers and of sign-ups maintain it.
-/

namespace OwSec

open SecurityObjects Kit

/-- The record is empty in `signingUp` exactly if it is one of these. -/
def Fits (blank : Set String) (u : UserInfo) : Prop := u.signingUp = "" ↔ u.id ∈ blank

/-- A record of the same subscriber, who has come the same way. -/
structure SameSignup (u v : UserInfo) : Prop where
  id : v.id = u.id
  signingUp : v.signingUp = u.signingUp

namespace SameSignup

variable {u v w : UserInfo}

theorem refl (u : UserInfo) : SameSignup u u := ⟨rfl, rfl⟩

theorem trans (h : SameSignup u v) (h' : SameSignup v w) : SameSignup u w :=
  ⟨h'.id.trans h.id, h'.signingUp.trans h.signingUp⟩

theorem fits {blank : Set String} (h : SameSignup u v) (hu : Fits blank u) : Fits blank v := by
  unfold Fits
  rw [h.id, h.signingUp]
  exact hu

end SameSignup

/-! ## The records -/

namespace Population

variable (svc : Service) {blank : Set String} {p q : Population}

/-- The cache files each record under its own identifier. -/
def Keyed (p : Population) : Prop := ∀ k u, p.cacheById.lookup k = some u → u.id = k

/-- Dropping records from the cache leaves the others where they are. -/
theorem Keyed.evicts (h : p.Keyed) (hq : Cache.Evicts p.cacheById q.cacheById) : q.Keyed :=
  fun k u hu ↦ h k u (hq k u hu)

theorem Keyed.updateCache (h : p.Keyed) (u : UserInfo) : (p.updateCache svc u).Keyed := by
  intro k v hv
  change (p.cacheById.insert u.id u : Cache String UserInfo).lookup k = some v at hv
  rw [Cache.lookup_insert_eq] at hv
  split at hv
  · rename_i hk
    cases hv
    exact hk.symm
  · exact h k v hv

theorem Keyed.getUserById (h : p.Keyed) (id : String) : (p.getUserById svc id).2.Keyed := by
  unfold Population.getUserById getRecordById
  split
  · exact h
  · split
    · exact h.updateCache svc _
    · exact h

/-- What is found by identifier carries it. -/
theorem Keyed.id_of_getUserById (h : p.Keyed) {id : String} {u : UserInfo}
    (hu : (p.getUserById svc id).1 = some u) : u.id = id := by
  unfold Population.getUserById getRecordById at hu
  split at hu
  · rename_i v hv
    exact Option.some.inj hu ▸ h id v hv
  · split at hu
    · rename_i v hv
      exact Option.some.inj hu ▸ Table.key_of_find? hv
    · cases hu

theorem Keyed.getUserByEmail (h : p.Keyed) (email : String) :
    (p.getUserByEmail svc email).2.Keyed := by
  unfold Population.getUserByEmail getRecordByEMail
  split
  · exact h
  · split
    · exact h.updateCache svc _
    · exact h

theorem Keyed.updateUserInfo (h : p.Keyed) (id : String) (u : UserInfo) :
    (p.updateUserInfo svc id u).2.Keyed := by
  unfold Population.updateUserInfo updateRecord
  split
  · exact Keyed.updateCache svc h u
  · exact h

theorem Keyed.createRecord (h : p.Keyed) (u : UserInfo) : (p.createRecord u).2.Keyed := by
  unfold Population.createRecord
  split <;> exact h

theorem Keyed.createUser (h : p.Keyed) (m : Moment) (u : UserInfo) :
    (p.createUser svc m u).2.Keyed := by
  have hlookup : (p.getRecordByEMail svc (toLower u.email)).2.Keyed := h.getUserByEmail svc _
  rcases createUser_cases svc (p := p) m u with heq | ⟨users, -, heq⟩
  · rw [heq]
    exact hlookup
  · rw [heq]
    exact hlookup

theorem Keyed.checkToken (h : p.Keyed) (now : ℕ) (token : String) :
    (p.checkToken svc now token).2.Keyed := by
  unfold Population.checkToken
  split
  · exact h
  · rename_i t tokens hl
    have hp : ({ p with tokens } : Population).Keyed := h
    simp only
    split
    · exact hp
    · have hlookup := hp.getUserById svc t.userName
      split <;>
      · rename_i hu
        rw [hu] at hlookup
        exact hlookup

/-- Whoever is found by address is in the cache afterwards. -/
theorem Keyed.cached_of_getUserByEmail (h : p.Keyed) {email : String} {u : UserInfo}
    (hu : (p.getUserByEmail svc email).1 = some u) :
    (p.getUserByEmail svc email).2.cacheById.lookup u.id = some u := by
  unfold Population.getUserByEmail getRecordByEMail getFromCacheByEMail at hu ⊢
  cases hid : p.cacheByEMail.lookup email with
  | none =>
    simp only [hid] at hu ⊢
    cases hrow : p.users.select (·.email == email) with
    | none =>
      rw [hrow] at hu
      cases hu
    | some v =>
      rw [hrow] at hu
      obtain rfl := Option.some.inj hu
      exact AList.lookup_insert _
  | some id =>
    simp only [hid] at hu ⊢
    cases hcached : p.cacheById.lookup id with
    | none =>
      simp only [hcached] at hu ⊢
      cases hrow : p.users.select (·.email == email) with
      | none =>
        rw [hrow] at hu
        cases hu
      | some v =>
        rw [hrow] at hu
        obtain rfl := Option.some.inj hu
        exact AList.lookup_insert _
    | some v =>
      simp only [hcached] at hu ⊢
      obtain rfl := Option.some.inj hu
      rw [h id v hcached]
      exact hcached

/-- Writing the record that is in the cache leaves it there. -/
theorem cached_updateUserInfo {u : UserInfo} (h : p.cacheById.lookup u.id = some u) :
    (p.updateUserInfo svc u.id u).2.cacheById.lookup u.id = some u := by
  unfold updateUserInfo updateRecord
  split
  · exact AList.lookup_insert _
  · exact h

/-- What is in the cache is found. -/
theorem getUserById_of_cached {k : String} {u : UserInfo} (h : p.cacheById.lookup k = some u) :
    (p.getUserById svc k).1 = some u := by
  unfold getUserById getRecordById getFromCacheById
  rw [h]

/-- The records fit the set. -/
structure Marked (blank : Set String) (p : Population) : Prop where
  records : p.All (Fits blank)
  keyed : p.Keyed

namespace Marked

theorem congr (h : p.Marked blank) (hu : q.users = p.users) (hc : q.cacheById = p.cacheById) :
    q.Marked blank :=
  ⟨h.records.congr hu hc, h.keyed.evicts fun k u hk ↦ by rwa [hc] at hk⟩

theorem getUserById (h : p.Marked blank) (id : String) :
    (p.getUserById svc id).2.Marked blank :=
  ⟨h.records.subset (records_getUserById svc id), h.keyed.getUserById svc id⟩

theorem getUserByEmail (h : p.Marked blank) (email : String) :
    (p.getUserByEmail svc email).2.Marked blank :=
  ⟨h.records.subset (records_getUserByEmail svc email), h.keyed.getUserByEmail svc email⟩

theorem updateUserInfo (h : p.Marked blank) (id : String) {u : UserInfo} (hu : Fits blank u) :
    (p.updateUserInfo svc id u).2.Marked blank :=
  ⟨h.records.insert (records_updateUserInfo svc id u) hu, h.keyed.updateUserInfo svc id u⟩

theorem createRecord (h : p.Marked blank) {u : UserInfo} (hu : Fits blank u) :
    (p.createRecord u).2.Marked blank :=
  ⟨h.records.insert (records_createRecord u) hu, h.keyed.createRecord u⟩

theorem createUser (h : p.Marked blank) {m : Moment} {u : UserInfo}
    (hu : Fits blank (newRecord svc m u)) : (p.createUser svc m u).2.Marked blank :=
  ⟨h.records.insert (records_createUser svc m u) hu, h.keyed.createUser svc m u⟩

theorem deleteUser (h : p.Marked blank) (id : String) : (p.deleteUser id).Marked blank :=
  ⟨h.records.subset (records_deleteUser id), h.keyed.evicts (Cache.Evicts.erase _ id)⟩

theorem checkToken (h : p.Marked blank) (now : ℕ) (token : String) :
    (p.checkToken svc now token).2.Marked blank :=
  ⟨h.records.checkToken now token, h.keyed.checkToken svc now token⟩

end Marked

/-- A new record keeps what it is created with in `signingUp`. -/
theorem newRecord_signingUp (m : Moment) (u : UserInfo) :
    (newRecord svc m u).signingUp = u.signingUp := by
  unfold newRecord
  simp only
  split <;> rfl

end Population

/-! ## The records and the links -/

variable {svc : Service} {blank : Set String} {s s' : Storage}

/-- The links of sign-ups are for subscribers who have signed up. -/
def SignedUp (blank : Set String) (i : ActionLink) : Prop :=
  i.action = LinkActions.SUB_SIGNUP.toNat → i.userId ∉ blank

/-- The records of the subscribers fit the set, and so do the links. -/
structure Storage.Marked (blank : Set String) (s : Storage) : Prop where
  sub : s.sub.Marked blank
  links : ∀ i ∈ s.actionLinks.rows, SignedUp blank i

namespace Storage.Marked

theorem congr (h : s.Marked blank) (hs : s'.sub = s.sub)
    (hl : s'.actionLinks = s.actionLinks) : s'.Marked blank :=
  ⟨hs ▸ h.sub, hl ▸ h.links⟩

/-- The users play no part. -/
theorem setUser (h : s.Marked blank) (p : Population) : (s.setPopulation false p).Marked blank :=
  h.congr rfl rfl

theorem setSub (h : s.Marked blank) {p : Population} (hp : p.Marked blank) :
    (s.setPopulation true p).Marked blank :=
  ⟨hp, h.links⟩

/-- Looking at one population leaves the marks where it leaves those of the subscribers. -/
theorem onPopulation (h : s.Marked blank) {α : Type} {f : Population → α × Population}
    (hf : s.sub.Marked blank → (f s.sub).2.Marked blank) (isSub : Bool) :
    (s.onPopulation isSub f).2.Marked blank := by
  cases isSub with
  | false => exact h.setUser _
  | true => exact h.setSub (hf h.sub)

theorem createAction (h : s.Marked blank) {a : ActionLink} (ha : SignedUp blank a) :
    (s.createAction a).Marked blank := by
  unfold Storage.createAction
  split
  · rename_i actionLinks hins
    refine ⟨h.sub, fun i hi ↦ ?_⟩
    rcases Table.mem_rows_of_insert hins hi with rfl | hi
    · exact ha
    · exact h.links i hi
  · exact h

variable (svc) in
theorem authenticate (hs : s.Marked blank) (h : RestApi.Handler) (m : Moment)
    (r : RestApi.Request) : (RestApi.authenticate svc h m r s).2.Marked blank := by
  refine RestApi.authenticate_rule svc hs (fun id ↦ ?_) (fun s' id k hs' ↦ ?_) fun token ↦ ?_
  · exact hs.congr rfl rfl
  · unfold updateApiKey
    split <;> exact hs'.congr rfl rfl
  · exact hs.onPopulation (fun hp ↦ hp.checkToken svc m.now token) h.subOnlyService

end Storage.Marked

namespace RestApi

open Command (Maintains)

/-! ## Primitive operations -/

/-- What is done to the users maintains the marks. -/
theorem maintains_users {α : Type} (f : Population → α × Population) :
    Maintains (Storage.Marked blank) (fun _ ↦ True)
      (Command.act fun s : Storage ↦ s.onPopulation false f : Handling α) :=
  .act fun _ hs ↦ ⟨trivial, hs.setUser _⟩

/-- What is done to the subscribers maintains the marks if it does so there. -/
theorem maintains_subs {α : Type} {f : Population → α × Population} {V : α → Prop}
    (hf : ∀ p : Population, p.Marked blank → V (f p).1 ∧ (f p).2.Marked blank) :
    Maintains (Storage.Marked blank) V
      (Command.act fun s : Storage ↦ s.onPopulation true f : Handling α) :=
  .act fun s hs ↦ ⟨(hf s.sub hs.sub).1, hs.setSub (hf s.sub hs.sub).2⟩

/-- A record of a subscriber that was looked up fits. -/
def FoundFits (blank : Set String) (o : Option UserInfo) : Prop := ∀ u, o = some u → Fits blank u

theorem maintains_getUserByEmail (email : String) :
    Maintains (Storage.Marked blank) (FoundFits blank)
      (UserHandler.getUserByEmail svc true email) :=
  maintains_subs fun _ hp ↦
    ⟨fun u hu ↦ hp.records u (Population.getUserByEmail_mem svc hu), hp.getUserByEmail svc email⟩

theorem maintains_getUserById (id : String) :
    Maintains (Storage.Marked blank) (FoundFits blank) (SubUserHandler.getUserById svc id) :=
  maintains_subs fun _ hp ↦
    ⟨fun u hu ↦ hp.records u (Population.getUserById_mem svc hu), hp.getUserById svc id⟩

theorem maintains_updateUserInfo (id : String) {u : UserInfo} (hu : Fits blank u) :
    Maintains (Storage.Marked blank) (fun _ ↦ True) (SubUserHandler.updateUserInfo svc id u) :=
  maintains_subs fun _ hp ↦ ⟨trivial, hp.updateUserInfo svc id hu⟩

/-- A subscriber is created with what the body has in `signingUp`. -/
theorem maintains_createUser {m : Moment} {u : UserInfo}
    (hu : u.signingUp = "" ↔ m.uuid ∈ blank) :
    Maintains (Storage.Marked blank) (FoundFits blank) (SubUserHandler.createUser svc m u) := by
  have hnew : Fits blank (Population.newRecord svc m u) := by
    unfold Fits
    rw [Population.newRecord_signingUp, (Population.newRecord_fields svc m u).1]
    exact hu
  refine maintains_subs fun _ hp ↦ ⟨fun new hcreated ↦ ?_, hp.createUser svc hnew⟩
  exact Population.createUser_some svc hcreated ▸ hnew

theorem maintains_createAction {a : ActionLink} (ha : SignedUp blank a) :
    Maintains (Storage.Marked blank) (fun _ ↦ True)
      (Command.write fun s : Storage ↦ s.createAction a : Handling PUnit) :=
  .write fun _ hs ↦ hs.createAction ha

/-- The mail that verifies an address comes with a link of another kind. -/
theorem maintains_verify {action : LinkActions}
    (haction : action.toNat ≠ LinkActions.SUB_SIGNUP.toNat)
    (userAction : Bool) (m : Moment) (u : UserInfo) :
    Maintains (Storage.Marked blank) (SameSignup u)
      (Command.act fun s : Storage ↦
        s.verifyEmailWith action userAction m.now m.uuid' u : Handling UserInfo) :=
  .act fun _ hs ↦ ⟨⟨rfl, rfl⟩, hs.createAction fun hsame ↦ absurd hsame haction⟩

/-- What leaves the subscribers and the links maintains the marks. -/
theorem maintains_write {f : Storage → Storage} (hs : ∀ s, (f s).sub = s.sub)
    (hl : ∀ s, (f s).actionLinks = s.actionLinks) :
    Maintains (Storage.Marked blank) (fun _ ↦ True) (Command.write f : Handling PUnit) :=
  .write fun s hmarked ↦ hmarked.congr (hs s) (hl s)

/-- A change of the second factor stays with the record. -/
theorem maintains_applyMfaChange (m : Moment) (caller newUser : UserInfo) (has : Bool)
    (existing : UserInfo) :
    Maintains (Storage.Marked blank) (SameSignup existing)
      (UserHandler.applyMfaChange svc m caller newUser has existing) := by
  unfold UserHandler.applyMfaChange
  refine .ite (fun _ ↦ .pure (.refl existing)) fun _ ↦ ?_
  refine .ite (fun _ ↦ ?_) fun _ ↦ .pure ⟨rfl, rfl⟩
  refine .bind (.ensure _ _) fun _ _ ↦ ?_
  refine .bind (.ensure _ _) fun _ _ ↦ ?_
  refine .bind (.ensure _ _) fun _ _ ↦ ?_
  refine .ite (fun _ ↦ ?_) fun _ ↦ .ite (fun _ ↦ ?_) fun _ ↦ .pure ⟨rfl, rfl⟩
  · cases newUser.userTypeProprietaryInfo.mobiles with
    | nil => exact .stop _
    | cons first rest =>
      refine .bind (.reads _) fun _ _ ↦ ?_
      refine .bind (.ensure _ _) fun _ _ ↦ ?_
      exact .pure ⟨rfl, rfl⟩
  · refine .ite (fun _ ↦ ?_) fun _ ↦
      .bind (V := fun _ ↦ True) (.pure trivial) fun _ _ ↦ .pure ⟨rfl, rfl⟩
    refine .bind (V := fun _ ↦ True) (.act fun s hs ↦ ⟨trivial, ?_⟩) fun _ _ ↦ ?_
    · obtain ⟨totp, heq⟩ := s.totpCompleteValidation_snd m.now caller.id false
      rw [heq]
      exact hs.congr rfl rfl
    · refine .bind (.orStop _ _) fun _ _ ↦ ?_
      exact .pure ⟨rfl, rfl⟩

/-! ## Users -/

namespace UserHandler

variable (blank) (c : Context)

/-- A lookup that is followed by an answer. -/
theorem maintains_lookup (isSub : Bool) (email : String) :
    Maintains (Storage.Marked blank) (fun _ ↦ True) (getUserByEmail svc isSub email) := by
  cases isSub with
  | false => exact maintains_users _
  | true => exact (maintains_getUserByEmail email).mono fun _ _ ↦ trivial

theorem maintains_doGet : Maintains (Storage.Marked blank) (fun _ ↦ True) (doGet svc c) := by
  refine .bind (.ensure _ _) fun _ _ ↦ ?_
  refine .bind (.ensure _ _) fun _ _ ↦ ?_
  refine .ite_bind (fun _ ↦ maintains_lookup blank false _) (fun _ ↦ maintains_users _)
    fun _ _ ↦ ?_
  refine .bind (.orStop _ _) fun _ _ ↦ ?_
  refine .bind (.ensure _ _) fun _ _ ↦ ?_
  exact .pure trivial

theorem maintains_doDelete :
    Maintains (Storage.Marked blank) (fun _ ↦ True) (doDelete svc c) := by
  refine .bind (.ensure _ _) fun _ _ ↦ ?_
  refine .bind (maintains_users _) fun _ _ ↦ ?_
  refine .bind (.orStop _ _) fun _ _ ↦ ?_
  refine .bind (.ensure _ _) fun _ _ ↦ ?_
  refine .bind (maintains_write (fun _ ↦ rfl) fun _ ↦ rfl) fun _ _ ↦ ?_
  refine .bind (maintains_write (fun _ ↦ rfl) fun _ ↦ rfl) fun _ _ ↦ ?_
  refine .bind (maintains_write (fun _ ↦ rfl) fun _ ↦ rfl) fun _ _ ↦ ?_
  refine .bind (maintains_write (fun _ ↦ rfl) fun _ ↦ rfl) fun _ _ ↦ ?_
  refine .bind (maintains_write (fun _ ↦ rfl) fun _ ↦ rfl) fun _ _ ↦ ?_
  refine .bind (maintains_write (fun _ ↦ rfl) fun _ ↦ rfl) fun _ _ ↦ ?_
  exact .pure trivial

/-- Reading the record once more for the answer. -/
theorem maintains_show (isSub : Bool) (email : String) :
    let show_ : Handling Response := do
      let user ← getUserByEmail svc isSub email
      let user ← Command.orStop user .notFound
      return .user (sanitize user)
    Maintains (Storage.Marked blank) (fun _ ↦ True) show_ := by
  refine .bind (maintains_lookup blank isSub email) fun _ _ ↦ ?_
  refine .bind (.orStop _ _) fun _ _ ↦ ?_
  exact .pure trivial

theorem maintains_doPost : Maintains (Storage.Marked blank) (fun _ ↦ True) (doPost svc c) := by
  refine .bind (.ensure _ _) fun _ _ ↦ ?_
  refine .bind (.orStop _ _) fun _ _ ↦ ?_
  refine .bind (.ensure _ _) fun _ _ ↦ ?_
  refine .bind (.ensure _ _) fun _ _ ↦ ?_
  refine .bind (.ensure _ _) fun _ _ ↦ ?_
  refine .bind (maintains_lookup blank true _) fun _ _ ↦ ?_
  refine .bind (.ensure _ _) fun _ _ ↦ ?_
  refine .bind (.ensure _ _) fun _ _ ↦ ?_
  refine .bind (maintains_users _) fun _ _ ↦ ?_
  refine .bind (.orStop _ _) fun newUser _ ↦ ?_
  refine .ite (fun _ ↦ ?_) fun _ ↦ maintains_show blank false _
  refine .bind (maintains_verify (by decide) true c.moment newUser) fun _ _ ↦ ?_
  refine .bind (maintains_users _) fun _ _ ↦ ?_
  exact maintains_show blank false _

theorem maintains_buildUpdatedUserResponse (id : String) (missing : Response) :
    Maintains (Storage.Marked blank) (fun _ ↦ True)
      (buildUpdatedUserResponse svc id missing) := by
  refine .bind (maintains_users _) fun _ _ ↦ ?_
  refine .bind (.orStop _ _) fun _ _ ↦ ?_
  exact .pure trivial

theorem maintains_updateFromBody (id : String) (existing : UserInfo) :
    Maintains (Storage.Marked blank) (fun _ ↦ True) (updateFromBody svc c id existing) := by
  refine .bind (.orStop _ _) fun newUser _ ↦ ?_
  refine .bind (.lift _) fun _ _ ↦ ?_
  refine .bind (.ensure _ _) fun _ _ ↦ ?_
  refine .bind (.ensure _ _) fun _ _ ↦ ?_
  refine .bind (.lift _) fun u _ ↦ ?_
  refine .ite_bind (fun _ ↦ maintains_verify (by decide) true c.moment u)
    (fun _ ↦ .pure (.refl u)) fun v _ ↦ ?_
  refine .bind (maintains_applyMfaChange c.moment c.caller newUser _ v) fun _ _ ↦ ?_
  refine .bind (maintains_users _) fun _ _ ↦ ?_
  refine .bind (.ensure _ _) fun _ _ ↦ ?_
  exact maintains_buildUpdatedUserResponse blank id .notFound

theorem maintains_doPut : Maintains (Storage.Marked blank) (fun _ ↦ True) (doPut svc c) := by
  refine .bind (.ensure _ _) fun _ _ ↦ ?_
  refine .bind (maintains_users _) fun _ _ ↦ ?_
  refine .bind (.orStop _ _) fun existing _ ↦ ?_
  refine .bind (.ensure _ _) fun _ _ ↦ ?_
  refine .ite (fun _ ↦ ?_) fun _ ↦ .ite (fun _ ↦ ?_) fun _ ↦
    maintains_updateFromBody blank c _ existing
  · refine .bind (.ensure _ _) fun _ _ ↦ ?_
    refine .bind (maintains_users _) fun _ _ ↦ ?_
    refine .bind (.ensure _ _) fun _ _ ↦ ?_
    exact maintains_buildUpdatedUserResponse blank _ _
  · refine .bind (maintains_createAction ?_) fun _ _ ↦ .pure trivial
    rintro (hsame : LinkActions.FORGOT_PASSWORD.toNat = LinkActions.SUB_SIGNUP.toNat)
    exact absurd hsame (by decide)

/-- A request about users maintains the marks. -/
theorem maintains_dispatch (internal : Bool) :
    Maintains (Storage.Marked blank) (fun _ ↦ True) (dispatch (userHandler svc internal) c) := by
  unfold dispatch
  cases c.request.method with
  | GET => exact maintains_doGet blank c
  | POST => exact maintains_doPost blank c
  | PUT => exact maintains_doPut blank c
  | DELETE => exact maintains_doDelete blank c
  | OPTIONS | other => exact .pure trivial

end UserHandler

/-! ## Subscribers -/

/-- The subscriber that a request creates from its body fits the set. -/
def CreatesFitting (svc : Service) (blank : Set String) (c : Context) : Prop :=
  ∀ body, UserInfo.fromJson svc.json c.request.body.parsed = some body →
    (body.signingUp = "" ↔ c.moment.uuid ∈ blank)

namespace SubUserHandler

variable {c : Context} {existing u : UserInfo}

/-- The body changes neither the subscriber nor the sign-up. -/
theorem sameSignup_of_applyBody {m : Moment} {caller : UserInfo} {id : String} {raw : JsonObject}
    (h : applyBody svc m caller id raw existing = .ok u) : SameSignup existing u := by
  unfold applyBody at h
  simp only [Command.except_bind_eq_ok] at h
  obtain ⟨v, hv, w, hw, x, hx, hu⟩ := h
  have hfields : SameSignup existing v := by
    unfold applyFields at hv
    simp only [Command.except_bind_eq_ok] at hv
    obtain ⟨_, -, _, -, _, -, _, -, _, -, _, -, _, -, _, -, hv⟩ := hv
    cases hv
    exact ⟨rfl, rfl⟩
  have hrole : SameSignup v w := by
    rcases role_of_applyRoleChange hw with rfl | ⟨role, -, rfl⟩
    · exact .refl w
    · exact ⟨rfl, rfl⟩
  have hnotes : SameSignup w x := by
    unfold UserHandler.appendNotes at hx
    split at hx
    · cases hx
      exact .refl w
    · obtain ⟨text, -, hx⟩ := Command.except_bind_eq_ok.mp hx
      cases hx
      exact ⟨rfl, rfl⟩
  have hpassword : SameSignup x u := by
    rw [applyPasswordChange_eq] at hu
    rcases password_of_changePassword hu with rfl | ⟨password, -, happlied⟩
    · exact .refl u
    · rw [setPassword_applied svc happlied]
      exact ⟨rfl, rfl⟩
  exact ((hfields.trans hrole).trans hnotes).trans hpassword

theorem maintains_doGet : Maintains (Storage.Marked blank) (fun _ ↦ True) (doGet svc c) := by
  refine .bind (.ensure _ _) fun _ _ ↦ ?_
  refine .ite_bind (fun _ ↦ maintains_getUserByEmail _) (fun _ ↦ maintains_getUserById _)
    fun _ _ ↦ ?_
  refine .bind (.orStop _ _) fun _ _ ↦ ?_
  exact .pure trivial

/-- Writing the subscribers. -/
theorem maintains_writeSub {f : Population → Population}
    (hf : ∀ p : Population, p.Marked blank → (f p).Marked blank) :
    Maintains (Storage.Marked blank) (fun _ ↦ True)
      (Command.write fun s : Storage ↦ { s with sub := f s.sub } : Handling PUnit) :=
  .write fun _ hs ↦ hs.setSub (hf _ hs.sub)

theorem maintains_doDelete :
    Maintains (Storage.Marked blank) (fun _ ↦ True) (doDelete svc c) := by
  refine .bind (.ensure _ _) fun _ _ ↦ ?_
  refine .bind (maintains_getUserById _) fun _ _ ↦ ?_
  refine .bind (.orStop _ _) fun _ _ ↦ ?_
  refine .bind (.ensure _ _) fun _ _ ↦ ?_
  refine .bind (.ensure _ _) fun _ _ ↦ ?_
  refine .bind (maintains_writeSub (f := fun p ↦ p.deleteUser _) fun _ hp ↦ hp.deleteUser _)
    fun _ _ ↦ ?_
  refine .bind (maintains_writeSub (f := fun p ↦ p.deleteUserFromCache svc _)
    fun _ hp ↦ hp.congr rfl rfl) fun _ _ ↦ ?_
  refine .bind (maintains_writeSub
    (f := fun p ↦ { p with tokens := p.tokens.revokeAllTokens svc _ })
    fun _ hp ↦ hp.congr rfl rfl) fun _ _ ↦ ?_
  refine .bind (maintains_write (fun _ ↦ rfl) fun _ ↦ rfl) fun _ _ ↦ ?_
  refine .bind (maintains_write (fun _ ↦ rfl) fun _ ↦ rfl) fun _ _ ↦ ?_
  exact .pure trivial

theorem maintains_reportCreated (hu : Fits blank u) :
    Maintains (Storage.Marked blank) (fun _ ↦ True) (reportCreated svc c u) := by
  refine .ite (fun _ ↦ ?_) fun _ ↦ UserHandler.maintains_show blank true _
  refine .bind (maintains_verify (by decide) false c.moment u) fun v hv ↦ ?_
  refine .bind (maintains_updateUserInfo _ (hv.fits hu)) fun _ _ ↦ ?_
  exact UserHandler.maintains_show blank true _

/-- A new subscriber comes with what the body has in `signingUp`. -/
theorem maintains_doPost (hnew : CreatesFitting svc blank c) :
    Maintains (Storage.Marked blank) (fun _ ↦ True) (doPost svc c) := by
  refine .bind (.ensure _ _) fun _ _ ↦ ?_
  refine .bind (.orStop _ _) fun body hbody ↦ ?_
  refine .bind (.ensure _ _) fun _ _ ↦ ?_
  refine .bind (maintains_getUserByEmail _) fun _ _ ↦ ?_
  refine .bind (.ensure _ _) fun _ _ ↦ ?_
  refine .bind (.ensure _ _) fun _ _ ↦ ?_
  refine .bind (.ensure _ _) fun _ _ ↦ ?_
  refine .bind (.ensure _ _) fun _ _ ↦ ?_
  refine .bind (maintains_createUser (hnew body hbody)) fun created hcreated ↦ ?_
  refine .bind (.orStop _ _) fun new hsome ↦ ?_
  exact maintains_reportCreated (hcreated new hsome)

theorem maintains_editFromBody (id : String) (existing : UserInfo) :
    Maintains (Storage.Marked blank) (SameSignup existing) (editFromBody svc c id existing) := by
  refine .bind (.orStop _ _) fun newUser _ ↦ ?_
  refine .bind (.lift _) fun _ _ ↦ ?_
  refine .bind (.ensure _ _) fun _ _ ↦ ?_
  refine .bind (.lift _) fun u hu ↦ ?_
  have hbody : SameSignup existing u := sameSignup_of_applyBody hu
  refine .ite_bind (fun _ ↦ maintains_verify (by decide) false c.moment u)
    (fun _ ↦ .pure (.refl u)) fun v hv ↦ ?_
  exact (maintains_applyMfaChange c.moment c.caller newUser _ v).mono
    fun w hw ↦ (hbody.trans hv).trans hw

theorem maintains_modify (id : String) (hfits : Fits blank existing) :
    Maintains (Storage.Marked blank) (fun _ ↦ True) (modify svc c id existing) := by
  refine .ite (fun _ ↦ ?_) fun _ ↦ .ite (fun _ ↦ ?_) fun _ ↦ ?_
  · -- the second factor is reset
    have hreset : ∀ v, SameSignup existing v →
        Maintains (Storage.Marked blank) (fun _ ↦ True) (updateUserInfo svc id v) :=
      fun v hv ↦ maintains_updateUserInfo id (hv.fits hfits)
    refine .bind (.ensure _ _) fun _ _ ↦ ?_
    refine .bind (hreset _ ⟨rfl, rfl⟩) fun _ _ ↦ ?_
    refine .bind (maintains_getUserByEmail _) fun _ _ ↦ ?_
    exact .pure trivial
  · -- a link to choose a password is sent
    refine .bind (maintains_createAction ?_) fun _ _ ↦ .pure trivial
    rintro (hsame : LinkActions.SUB_FORGOT_PASSWORD.toNat = LinkActions.SUB_SIGNUP.toNat)
    exact absurd hsame (by decide)
  · refine .bind (maintains_editFromBody id existing) fun u hu ↦ ?_
    refine .bind (maintains_updateUserInfo id (hu.fits hfits)) fun _ _ ↦ ?_
    refine .bind (.ensure _ _) fun _ _ ↦ ?_
    refine .bind (maintains_getUserById id) fun _ _ ↦ ?_
    exact .pure trivial

theorem maintains_doPut : Maintains (Storage.Marked blank) (fun _ ↦ True) (doPut svc c) := by
  refine .bind (.ensure _ _) fun _ _ ↦ ?_
  refine .bind (maintains_getUserById _) fun o ho ↦ ?_
  refine .bind (.orStop _ _) fun existing hexisting ↦ ?_
  refine .bind (.ensure _ _) fun _ _ ↦ ?_
  exact maintains_modify _ (ho existing hexisting)

/-- A request about subscribers maintains the marks if what it creates fits them. -/
theorem maintains_dispatch (internal : Bool)
    (hnew : c.request.method = .POST → CreatesFitting svc blank c) :
    Maintains (Storage.Marked blank) (fun _ ↦ True)
      (dispatch (subuserHandler svc internal) c) := by
  unfold dispatch
  cases hm : c.request.method with
  | GET => exact maintains_doGet
  | POST => exact maintains_doPost (hnew hm)
  | PUT => exact maintains_doPut
  | DELETE => exact maintains_doDelete
  | OPTIONS | other => exact .pure trivial

end SubUserHandler

/-! ## Sign-ups -/

namespace SignupHandler

variable {c : Context}

/-- The sign-up passes the checks of its handler, and finds a subscriber who waits for the mail
and has not signed up. -/
structure FindsBlank (svc : Service) (c : Context) (s : Storage) : Prop where
  signupUUID : c.request.getParameter "signupUUID" ≠ ""
  owner : c.request.getParameter "owner" ≠ ""
  operatorName : c.request.getParameter "operatorName" ≠ ""
  email : c.request.getParameter "email" ≠ ""
  address : validEMailAddress (c.request.getParameter "email") = true
  found : ∃ u, (s.sub.getUserByEmail svc (c.request.getParameter "email")).1 = some u ∧
    u.waitingForEmailCheck = true ∧ u.signingUp = ""

/-- Whoever signs up has a sign-up to show. -/
theorem newSub_signingUp (m : Moment) (userName owner operatorName signupUUID : String) :
    (newSub m userName owner operatorName signupUUID).signingUp ≠ "" := by
  intro hempty
  have hlength := congrArg String.length hempty
  simp [newSub, String.length_append] at hlength

theorem fits_newSub {m : Moment} (huuid : m.uuid ∉ blank)
    (userName owner operatorName signupUUID : String) :
    Fits blank (newSub m userName owner operatorName signupUUID) :=
  iff_of_false (newSub_signingUp m userName owner operatorName signupUUID) huuid

/-- The link is for the subscriber. -/
theorem signedUp_newLink {m : Moment} {u : UserInfo} (hu : u.id ∉ blank) :
    SignedUp blank (newLink m u) := fun _ ↦ hu

/-- A sign-up maintains the marks unless it finds somebody who has not signed up. -/
theorem marked_doPost (h : s.Marked blank) (huuid : c.moment.uuid ∉ blank)
    (hfinds : ¬ FindsBlank svc c s) :
    Command.wp (doPost svc c) (fun _ s' ↦ s'.Marked blank) (fun _ s' ↦ s'.Marked blank) s := by
  unfold doPost UserHandler.getUserByEmail
  simp only [Command.wp_bind, Command.wp_ensure, Command.wp_act]
  refine ⟨fun hcomplete ↦ ⟨fun haddress ↦ ?_, fun _ ↦ h⟩, fun _ ↦ h⟩
  have h₁ : (s.onPopulation true fun p ↦
      p.getUserByEmail svc (c.request.getParameter "email")).2.Marked blank :=
    h.setSub (h.sub.getUserByEmail svc _)
  have hvalue : (s.onPopulation true fun p ↦
      p.getUserByEmail svc (c.request.getParameter "email")).1 =
      (s.sub.getUserByEmail svc (c.request.getParameter "email")).1 := rfl
  rw [hvalue]
  generalize (s.onPopulation true fun p ↦
    p.getUserByEmail svc (c.request.getParameter "email")).2 = s₁ at h₁
  cases hfound : (s.sub.getUserByEmail svc (c.request.getParameter "email")).1 with
  | none =>
    -- the first time: the record is created
    have hnew := fits_newSub huuid (c.request.getParameter "email")
      (c.request.getParameter "owner") (c.request.getParameter "operatorName")
      (c.request.getParameter "signupUUID")
    simp only [Command.wp_bind, Command.wp_pure]
    exact Storage.Marked.createAction (h₁.setSub (h₁.sub.createRecord hnew))
      (signedUp_newLink huuid)
  | some u =>
    have hfits : Fits blank u := h.sub.records u (Population.getUserByEmail_mem svc hfound)
    unfold resendTo
    simp only [Command.wp_bind, Command.wp_ensure, Command.wp_ite, Command.wp_pure]
    refine ⟨fun hwaiting ↦ ?_, fun _ ↦ h₁⟩
    have hmarked : u.id ∉ blank := by
      intro hblank
      simp only [Bool.not_eq_true', Bool.or_eq_false_iff, String.isEmpty_eq_false_iff] at hcomplete
      exact hfinds ⟨hcomplete.1.1.2, hcomplete.1.2, hcomplete.2, hcomplete.1.1.1, haddress,
        u, hfound, hwaiting, hfits.mpr hblank⟩
    refine ⟨fun _ ↦ ?_, fun _ ↦ h₁.createAction (signedUp_newLink hmarked)⟩
    exact Storage.Marked.createAction (h₁.setSub (h₁.sub.updateUserInfo svc u.id hfits))
      (signedUp_newLink hmarked)

/-- The last lines of a sign-up, where the subscriber is in the cache: the link is stored, and it
is for somebody who can be found. -/
theorem link_createAction {u : UserInfo} (hcached : s.sub.cacheById.lookup u.id = some u)
    (hfree : s.getActionLink c.moment.uuid' = none) :
    newLink c.moment u ∈ (s.createAction (newLink c.moment u)).actionLinks.rows ∧
      ((s.createAction (newLink c.moment u)).sub.getUserById svc u.id).1 = some u := by
  obtain ⟨actionLinks, hins⟩ := Table.insert_isSome (r := newLink c.moment u) hfree
  have hcreate : s.createAction (newLink c.moment u) = { s with actionLinks } := by
    unfold Storage.createAction
    rw [hins]
  rw [hcreate]
  refine ⟨?_, Population.getUserById_of_cached svc hcached⟩
  rw [Table.rows_of_insert hins]
  exact List.mem_append_right _ List.mem_cons_self

/-- The link of the sign-up is stored, and it is for somebody who has not signed up. -/
def LeavesBlank (svc : Service) (m : Moment) (s : Storage) : Prop :=
  ∃ u, u.signingUp = "" ∧ newLink m u ∈ s.actionLinks.rows ∧ (s.sub.getUserById svc u.id).1 = some u

/-- A sign-up that finds somebody who has not signed up makes a link for that subscriber. -/
theorem leavesBlank_of_findsBlank (hkeyed : s.sub.Keyed)
    (hfree : s.getActionLink c.moment.uuid' = none) (h : FindsBlank svc c s) :
    Command.wp (doPost svc c) (fun _ s' ↦ LeavesBlank svc c.moment s')
      (fun _ s' ↦ LeavesBlank svc c.moment s') s := by
  obtain ⟨u, hfound, hwaiting, hempty⟩ := h.found
  have hcached := hkeyed.cached_of_getUserByEmail svc hfound
  unfold doPost UserHandler.getUserByEmail
  simp only [Command.wp_bind, Command.wp_ensure, Command.wp_act]
  refine ⟨fun _ ↦ ⟨fun _ ↦ ?_, fun hnot ↦ ?_⟩, fun hnot ↦ ?_⟩
  · have hvalue : (s.onPopulation true fun p ↦
        p.getUserByEmail svc (c.request.getParameter "email")).1 = some u := hfound
    rw [hvalue]
    unfold resendTo
    simp only [Command.wp_bind, Command.wp_ensure, Command.wp_ite, Command.wp_pure]
    refine ⟨fun _ ↦ ⟨fun _ ↦ ?_, fun _ ↦ ⟨u, hempty, link_createAction hcached hfree⟩⟩,
      fun hnot ↦ ?_⟩
    · exact ⟨u, hempty, link_createAction (s := Storage.setPopulation _ true _)
        (Population.cached_updateUserInfo svc hcached) hfree⟩
    · rw [hwaiting] at hnot
      cases hnot
  · rw [h.address] at hnot
    cases hnot
  · simp [h.email, h.signupUUID, h.owner, h.operatorName] at hnot

theorem marked_dispatch (internal : Bool) (h : s.Marked blank)
    (huuid : c.moment.uuid ∉ blank)
    (hfinds : c.request.method = .POST → ¬ FindsBlank svc c s) :
    Command.wp (dispatch (signupHandler svc internal) c) (fun _ s' ↦ s'.Marked blank)
      (fun _ s' ↦ s'.Marked blank) s := by
  unfold dispatch
  cases hm : c.request.method with
  | POST => exact marked_doPost h huuid (hfinds hm)
  | GET | PUT | DELETE | OPTIONS | other => exact h

end SignupHandler

end RestApi

end OwSec
