import OwSec.RestApi.ActionLinkEffects
import OwSec.RestApi.OAuth2
import OwSec.RestApi.RecordRules
import OwSec.RestApi.Signup
import OwSec.RestApi.SubMfa
import OwSec.RestApi.Totp

/-!
# The requests that write records

Users and subscribers are written by the two handlers that serve them, by a sign-up, by the
choice of a second factor, by a login with a new password, and by the end point behind the
links that are sent by mail; the enrolment handlers write the secrets that end up in records.
For each of them: it keeps an invariant of records that its edits keep.
-/

namespace OwSec

open SecurityObjects Kit ACLProcessor

variable {svc : Service} {I : RecordInvariant}

/-- Without a new password that the rule allows, a login sets none. -/
theorem Population.authorizeWith_of_not_allowed {rule : String → Bool} {m : Moment}
    {p : Population} {userName password newPassword : String}
    (h : ¬ (newPassword ≠ "" ∧ rule newPassword = true)) :
    (∃ result, p.authorizeWith svc rule m userName password newPassword =
        (result, (p.getUserByEmail svc (toLower userName)).2)) ∨
      ∃ user q, p.getUserByEmail svc (toLower userName) = (some user, q) ∧
        p.authorizeWith svc rule m userName password newPassword =
          q.completeAuthorize svc m (toLower userName) user := by
  unfold Population.authorizeWith
  simp only
  split
  · rename_i q hl
    exact .inl ⟨_, by rw [hl]⟩
  · rename_i user q hl
    have hq : (p.getUserByEmail svc (toLower userName)).2 = q := by rw [hl]
    rw [hq]
    split
    · exact .inl ⟨_, rfl⟩
    split
    · exact .inl ⟨_, rfl⟩
    split
    · exact .inl ⟨_, rfl⟩
    split
    · exact .inl ⟨_, rfl⟩
    split
    · exact .inl ⟨_, rfl⟩
    split
    · -- a new password that is neither empty nor against the rule
      rename_i hchange hrule hnew
      exfalso
      refine h ⟨?_, ?_⟩
      · intro hempty
        subst hempty
        simp at hchange hnew
        simp [hnew] at hchange
      · by_contra hnot
        simp [hnot] at hrule
        subst hrule
        simp at hchange hnew
        simp [hnew] at hchange
    · exact .inr ⟨user, q, hl, rfl⟩

namespace Storage

variable {s : Storage} {isSub : Bool}

/-- What leaves the table and the cache of a population keeps the invariant. -/
theorem Satisfies.setTokens (h : s.Satisfies I) {p : Population}
    (hu : p.users = (s.population isSub).users)
    (hc : p.cacheById = (s.population isSub).cacheById) : (s.setPopulation isSub p).Satisfies I :=
  h.setPopulation ((h.records isSub).congr hu hc)

/-- The time of the last login does not matter. -/
theorem record_setLastLogin (u : UserInfo) (now : ℕ) (h : I.record isSub u) :
    I.record isSub { u with lastLogin := now } := I.insensitive isSub u _ rfl h

/-- Deleting a record keeps the invariant. -/
theorem Satisfies.deleteUser (h : s.Satisfies I) (isSub : Bool) (id : String) :
    (s.setPopulation isSub ((s.population isSub).deleteUser id)).Satisfies I :=
  h.setPopulation ((h.records isSub).subset (Population.records_deleteUser id))

/-- Setting columns of a link keeps the invariant. -/
theorem Satisfies.modifyAction (h : s.Satisfies I) (id : String) (f : ActionLink → ActionLink) :
    (s.modifyAction id f).Satisfies I := by
  unfold Storage.modifyAction
  split
  · split
    · exact h.congr rfl rfl rfl
    · exact h
  · exact h

/-- Announcing API keys as removed keeps the invariant. -/
theorem Satisfies.removeAllApiKeys (h : s.Satisfies I) (id : String) :
    (s.removeAllApiKeys svc id).Satisfies I := h.congr rfl rfl rfl

/-- A login keeps the invariant where a new password does. -/
theorem Satisfies.authorizeWith (h : s.Satisfies I) {m : Moment} {rule : String → Bool}
    {userName password newPassword : String}
    (hpassword : RestApi.KeptByPassword svc I isSub m.salt fun p ↦
      p = newPassword ∧ p ≠ "" ∧ rule p = true) :
    (s.onPopulation isSub fun p ↦
      p.authorizeWith svc rule m userName password newPassword).2.Satisfies I := by
  suffices hall' : ((s.population isSub).authorizeWith svc rule m userName password
      newPassword).2.All (I.record isSub) from h.setPopulation hall'
  have hlogin : ∀ u now, I.record isSub u → I.record isSub { u with lastLogin := now } :=
    record_setLastLogin
  generalize hp : s.population isSub = p
  have hall : p.All (I.record isSub) := hp ▸ h.records isSub
  -- what the lookup leaves, and what it finds
  have hlookup := hall.subset (Population.records_getUserByEmail svc (toLower userName))
  have hfound (u : UserInfo) (hu : (p.getUserByEmail svc (toLower userName)).1 = some u) :
      I.record isSub u := hall u (Population.getUserByEmail_mem svc hu)
  by_cases hallowed : newPassword ≠ "" ∧ rule newPassword = true
  · have houtcome := Population.authorizeWith_outcome svc rule m p userName password newPassword
    generalize p.authorizeWith svc rule m userName password newPassword = result at houtcome ⊢
    cases houtcome with
    | refused => exact hlookup
    | completed hl =>
      rw [hl] at hlookup
      exact hlookup.completeAuthorize hlogin m _ _
    | @changed user user' q hl hset written hwritten =>
      rw [hl] at hlookup hfound
      have huser' : I.record isSub user' :=
        hpassword user user' newPassword (hfound user rfl) ⟨rfl, hallowed⟩ hset
      have hrecord : I.record isSub written := I.insensitive isSub user' _ (hwritten ▸ rfl) huser'
      have hupdated := hlookup.insert (Population.records_updateUserInfo svc written.id written)
        hrecord
      exact hupdated.completeAuthorize hlogin m _ _
  · rcases Population.authorizeWith_of_not_allowed hallowed with
      ⟨result, heq⟩ | ⟨user, q, hl, heq⟩
    · rw [heq]
      exact hlookup
    · rw [heq]
      rw [hl] at hlookup
      exact hlookup.completeAuthorize hlogin m _ _

/-- A refresh of a token keeps the invariant. -/
theorem Satisfies.refreshTokenFor (h : s.Satisfies I) (svc : Service) (isSub : Bool) (m : Moment)
    (callToken refreshToken : String) :
    (s.onPopulation isSub fun p ↦
      p.refreshTokenFor svc m callToken refreshToken).2.Satisfies I := by
  suffices hsame : ((s.population isSub).refreshTokenFor svc m callToken refreshToken).2.users =
        (s.population isSub).users ∧
      ((s.population isSub).refreshTokenFor svc m callToken refreshToken).2.cacheById =
        (s.population isSub).cacheById from h.setTokens hsame.1 hsame.2
  unfold Population.refreshTokenFor
  split
  · exact ⟨rfl, rfl⟩
  · split
    · exact ⟨rfl, rfl⟩
    · simp only
      split <;> exact ⟨rfl, rfl⟩

end Storage

namespace RestApi

variable {s : Storage}

/-! ## Links -/

/-- A reset sets nothing of the core besides the password. -/
theorem LinkContext.core_resetRecord (x : LinkContext) (link : ActionLink) (u : UserInfo) :
    coreOf (x.resetRecord link u) = coreOf u := by
  unfold LinkContext.resetRecord
  split <;> rfl

/-- The updates behind links keep the invariant where the passwords that they set do: the reset
asks the rule of the users, whoever the link is for. -/
theorem kept_of_updates {x : LinkContext} {req : LinkRequest} {link : ActionLink}
    {userAction : Bool} {u u' : UserInfo} (hup : Updates x s req link userAction u u')
    (hreset : ∀ isSub, KeptByPassword x.svc I isSub x.moment.salt (validatePassword x.svc · = true))
    (hsignup : KeptByPassword x.svc I true x.moment.salt (validateSubPassword x.svc · = true))
    (hu : I.record (!userAction) u) : I.record (!userAction) u' := by
  cases hup with
  | @reset r form _ _ u₁ _ _ _ _ _ _ hrule _ _ hset =>
    exact I.insensitive _ u₁ _ (x.core_resetRecord link u₁) (hreset _ _ _ _ hu hrule hset)
  | @signup r form _ _ u₁ _ _ _ _ _ hrule _ _ hset =>
    exact I.insensitive _ u₁ _ rfl (hsignup _ _ _ hu hrule hset)
  | verify => exact I.insensitive _ u _ rfl hu

/-- A request to the end point behind the links keeps the invariant where its updates do. -/
theorem LinkContext.satisfies_handle (x : LinkContext) (h : s.Satisfies I) (req : LinkRequest)
    (hkept : ∀ link userAction u u', Updates x s req link userAction u u' →
      I.record (!userAction) u → I.record (!userAction) u') : (x.handle s req).2.Satisfies I := by
  have hlooked {s' : Storage} (hl : Looked s s') : s'.Satisfies I :=
    ⟨fun isSub ↦ (h.records isSub).subset (hl.records isSub), hl.totp ▸ h.enrolments⟩
  rcases x.handle_effect (s := s) req with ⟨link, userAction, u, u', hup, heq⟩ | hnot
  · rw [heq]
    have hu : I.record (!userAction) u :=
      h.records (!userAction) u (Population.getUserById_mem x.svc hup.found)
    have hfound := hlooked (x.looked_findUser s userAction link.userId)
    have hwritten := hfound.setPopulation ((hfound.records (!userAction)).insert
      (Population.records_updateUserInfo x.svc link.userId u') (hkept _ _ _ _ hup hu))
    exact hwritten.modifyAction _ _
  · generalize (x.handle s req).2 = s' at hnot ⊢
    cases hnot with
    | looked hl => exact hlooked hl
    | cancelled => exact h.modifyAction _ _

/-! ## Logins -/

/-- A login request keeps the invariant where the new password that it may set does. -/
theorem LoginContext.satisfies_doPostWith (x : LoginContext) (isSub : Bool) {r : Request}
    {challenges : MFAChallengeCache} (h : s.Satisfies I)
    (hpassword : ∀ userId password newPassword,
      LoginRequest.of x.svc.json r = .passwordLogin userId password newPassword →
      KeptByPassword x.svc I isSub x.moment.salt fun p ↦
        p = newPassword ∧ p ≠ "" ∧ Storage.passwordRule x.svc isSub p = true) :
    (x.doPostWith isSub r { storage := s, challenges }).2.storage.Satisfies I := by
  refine x.doPostWith_rule isSub h (fun callToken refreshToken ↦ ?_) (fun userId ↦ ?_)
    (fun s' link hs' ↦ hs'.createAction link) fun userId password newPassword hkind ↦ ?_
  · exact h.refreshTokenFor x.svc isSub x.moment callToken refreshToken
  · exact h.getUserByEmail isSub userId
  · exact h.authorizeWith (hpassword userId password newPassword hkind)

/-! ## Users and subscribers -/

/-- The update of a user from the body passes everything up to the second factor. -/
structure UserHandler.PassesEdits (svc : Service) (c : Context) (asked found : UserInfo) :
    Prop where
  parsed : UserInfo.fromJson svc.json c.request.body.parsed = some asked
  payload : UserHandler.validateUpdatePayload svc.json (c.request.body.parsed.getD []) = .ok true
  fields : (!(UserHandler.isSelfServiceCaller c.caller &&
    !UserHandler.hasOnlyAllowedSelfServiceFields (c.request.body.parsed.getD []))) = true
  edits : ∃ u, UserHandler.applyBody svc c.moment c.caller (c.request.body.parsed.getD []) found =
    .ok u

/-- The request reaches the second factor of the user that is found. -/
structure UserHandler.ReachesMfa (svc : Service) (c : Context) (s : Storage)
    (asked found : UserInfo) : Prop where
  target : c.request.getBinding "id" ≠ ""
  lookup : (s.user.getUserById svc (c.request.getBinding "id")).1 = some found
  allowed : canModifyUserRecord c.caller found = true
  fromBody : c.request.getParameter "resetMFA" ≠ "true" ∧
    c.request.getParameter "forgotPassword" ≠ "true"
  passes : UserHandler.PassesEdits svc c asked found

/-- The update of a subscriber from the body passes everything up to the second factor. -/
structure SubUserHandler.PassesEdits (svc : Service) (c : Context) (id : String)
    (asked found : UserInfo) : Prop where
  parsed : UserInfo.fromJson svc.json c.request.body.parsed = some asked
  role : ∃ role, UserHandler.requestedRole svc.json (c.request.body.parsed.getD []) = .ok role ∧
    (role != some .UNKNOWN && role != some .SUBSCRIBER) = true
  edits : ∃ u, SubUserHandler.applyBody svc c.moment c.caller id
    (c.request.body.parsed.getD []) found = .ok u

/-- The request reaches the second factor of the subscriber that is found. -/
structure SubUserHandler.ReachesMfa (svc : Service) (c : Context) (s : Storage)
    (asked found : UserInfo) : Prop where
  target : c.request.getBinding "id" ≠ ""
  lookup : (s.sub.getUserById svc (c.request.getBinding "id")).1 = some found
  allowed : (c.internal || can c.caller found .MODIFY) = true
  fromBody : c.request.getBoolParameter "resetMFA" = false ∧
    c.request.getBoolParameter "forgotPassword" = false ∧
    c.request.getBoolParameter "resetPassword" = false
  passes : SubUserHandler.PassesEdits svc c (c.request.getBinding "id") asked found

/-- The request reaches the second factor of the record that is found, in either population. -/
def ReachesMfa (svc : Service) : Bool → Context → Storage → UserInfo → UserInfo → Prop
  | false => UserHandler.ReachesMfa svc
  | true => SubUserHandler.ReachesMfa svc

/-- What an update in a population can write satisfies the invariant. -/
structure KeptByUpdate (svc : Service) (I : RecordInvariant) (isSub : Bool) (c : Context)
    (s : Storage) : Prop where
  password : KeptByPassword svc I isSub c.moment.salt
    (AllowedPassword svc isSub (c.request.body.parsed.getD []))
  mfa : ∀ asked found, ReachesMfa svc isSub c s asked found →
    KeptByMfa I isSub c.moment.now c.caller asked.userTypeProprietaryInfo found
  reset : KeptByReset I isSub

namespace UserHandler

variable {c : Context}

theorem keeps_buildUpdatedUserResponse {id : String} {missing : Response} (h : s.Satisfies I) :
    Keeps I (buildUpdatedUserResponse svc id missing) s := by
  unfold Keeps buildUpdatedUserResponse
  simp only [Command.wp_bind, Command.wp_orStop, Command.wp_pure]
  exact wp_lookupById h fun _ _ _ _ h' ↦ ⟨fun _ _ ↦ h', fun _ ↦ h'⟩

theorem keeps_doGet (h : s.Satisfies I) : Keeps I (doGet svc c) s := by
  unfold Keeps doGet
  simp only [Command.wp_bind, Command.wp_ensure, Command.wp_orStop, Command.wp_pure,
    Command.wp_ite]
  refine ⟨fun _ ↦ ⟨fun _ ↦ ⟨fun _ ↦ ?_, fun _ ↦ ?_⟩, fun _ ↦ h⟩, fun _ ↦ h⟩
  · exact wp_lookupByEmail h fun _ _ _ h₁ ↦
      ⟨fun _ _ ↦ ⟨fun _ ↦ h₁, fun _ ↦ h₁⟩, fun _ ↦ h₁⟩
  · exact wp_lookupById h fun _ _ _ _ h₁ ↦ ⟨fun _ _ ↦ ⟨fun _ ↦ h₁, fun _ ↦ h₁⟩, fun _ ↦ h₁⟩

theorem keeps_doDelete (h : s.Satisfies I) : Keeps I (doDelete svc c) s := by
  unfold Keeps doDelete
  simp only [Command.wp_bind, Command.wp_ensure, Command.wp_orStop, Command.wp_pure,
    Command.wp_write]
  refine ⟨fun _ ↦ wp_lookupById h fun _ _ _ _ h₁ ↦ ⟨fun _ _ ↦ ⟨fun _ ↦ ?_, fun _ ↦ h₁⟩,
    fun _ ↦ h₁⟩, fun _ ↦ h⟩
  have hdeleted := h₁.deleteUser false (c.request.getBinding "id")
  refine Storage.Satisfies.removeAllApiKeys ?_ _
  refine ⟨fun isSub ↦ ?_, hdeleted.enrolments⟩
  cases isSub
  · exact (hdeleted.records false).congr rfl rfl
  · exact hdeleted.records true

/-- The record that `DoPost` hands to `CreateUser` for a body. -/
def recordFor (c : Context) (body : UserInfo) : UserInfo :=
  { body with
    createdBy := c.caller.id
    owner := if c.caller.userRole == .ROOT then c.request.getParameter "entity" else c.caller.owner
    email := toLower body.email
    name := if body.name.isEmpty then toLower body.email else body.name
    userTypeProprietaryInfo :=
      { mobiles := [], mfa := { enabled := false, method := "" }, authenticatorSecret := "" }
    validated := true }

/-- The creation from the body passes all its checks. -/
structure Creates (svc : Service) (c : Context) (s : Storage) (body : UserInfo) : Prop where
  id : c.request.getBinding "id" = "0"
  parsed : UserInfo.fromJson svc.json c.request.body.parsed = some body
  userRole : body.userRole ≠ .UNKNOWN
  allowed : canCreateUserRecord c.caller (recordFor c body) = true
  email : validEMailAddress (toLower body.email) = true
  rule : body.currentPassword = "" ∨ Storage.passwordRule svc false body.currentPassword = true
  noSubscriber : (s.sub.getUserByEmail svc (toLower body.email)).1 = none
  free : (s.user.getUserByEmail svc (toLower body.email)).1 = none
  fresh : s.user.users.find? c.moment.uuid = none

theorem keeps_doPost (h : s.Satisfies I)
    (hcreation : ∀ body, Creates svc c s body → KeptByCreation svc I false c.moment body) :
    Keeps I (doPost svc c) s := by
  have h₁ (email : String) :
      (s.onPopulation true fun p ↦ p.getUserByEmail svc email).2.Satisfies I :=
    h.getUserByEmail true email
  unfold Keeps doPost getUserByEmail
  simp only [Command.wp_bind, Command.wp_ensure, Command.wp_orStop, Command.wp_pure,
    Command.wp_ite, Command.wp_act]
  refine ⟨fun hid ↦ ⟨fun body hbody ↦ ⟨fun hrole ↦ ⟨fun hallowed ↦ ⟨fun hvalid ↦
    ⟨fun hfree ↦ ⟨fun hrule ↦ ?_, fun _ ↦ h₁ _⟩, fun _ ↦ h₁ _⟩, fun _ ↦ h⟩, fun _ ↦ h⟩, fun _ ↦ h⟩,
    fun _ ↦ h⟩, fun _ ↦ h⟩
  refine wp_createRecord (u := recordFor c body) (h₁ _) (fun hempty hfresh ↦ ?_)
    fun o s₂ ho h₂ ↦ ⟨fun new hsome ↦ ?_, fun _ ↦ h₂⟩
  · refine hcreation body ⟨by simpa using hid, hbody, by simpa using hrole, ?_, hvalid,
      by simpa [Storage.passwordRule] using hrule, Option.isNone_iff_eq_none.mp hfree, ?_, hfresh⟩ _
      ⟨rfl, rfl, rfl, rfl⟩
    · rw [← hallowed]
      exact canCreateUserRecord_congr rfl
    · change (s.user.getUserByEmail svc (toLower (toLower body.email))).1 = none at hempty
      rw [toLower_toLower] at hempty
      exact hempty
  · have hrecord : I.record false new := ho new hsome
    refine ⟨fun _ ↦ wp_verify h₂ fun s₃ h₃ ↦ ?_, fun _ ↦ ?_⟩
    · refine wp_writeRecord h₃ (I.insensitive false new _ rfl hrecord) fun _ s₄ h₄ ↦ ?_
      exact ⟨fun _ _ ↦ h₄.getUserByEmail false _, fun _ ↦ h₄.getUserByEmail false _⟩
    · exact ⟨fun _ _ ↦ h₂.getUserByEmail false _, fun _ ↦ h₂.getUserByEmail false _⟩

/-- The update from the body. -/
theorem keeps_updateFromBody {id : String} {found : UserInfo} (h : s.Satisfies I)
    (hfound : I.record false found)
    (hrole : KeptByRole I false (roleAsked svc.json (c.request.body.parsed.getD [])))
    (hpassword : KeptByPassword svc I false c.moment.salt
      (AllowedPassword svc false (c.request.body.parsed.getD [])))
    (hmfa : ∀ asked, PassesEdits svc c asked found →
      KeptByMfa I false c.moment.now c.caller asked.userTypeProprietaryInfo found) :
    Keeps I (updateFromBody svc c id found) s := by
  unfold Keeps updateFromBody
  simp only [Command.wp_bind, Command.wp_ensure, Command.wp_orStop, Command.wp_lift]
  refine ⟨fun asked hasked ↦ ⟨fun valid hpayload ↦ ⟨fun hvalid ↦ ⟨fun hfields ↦
    ⟨fun u hu ↦ ?_, fun _ _ ↦ h⟩, fun _ ↦ h⟩, fun _ ↦ h⟩, fun _ _ ↦ h⟩, fun _ ↦ h⟩
  subst hvalid
  obtain ⟨v, w, x, hprofile, hset, hnotes, hlast⟩ := edits_of_applyBody hu
  have hedited := kept_of_edits hrole hpassword hprofile hset hnotes hlast hfound
  have hsame := sameFactor_of_edits hprofile hset hnotes hlast
  -- the last part, from the change of the second factor on
  have hrest (u' : UserInfo) (hcore : coreOf u' = coreOf u) {s' : Storage} (h' : s'.Satisfies I) :
      Command.wp (applyMfaChange svc c.moment c.caller asked
        (JsonObject.has (c.request.body.parsed.getD []) "userTypeProprietaryInfo") u')
        (fun w ↦ Command.wp (updateUserInfo svc id { w with modified := c.moment.now })
          (fun updated s' ↦
            (updated = true → Keeps I (buildUpdatedUserResponse svc id .notFound) s') ∧
              (updated = false → s'.Satisfies I))
          fun _ s' ↦ s'.Satisfies I) (fun _ s' ↦ s'.Satisfies I) s' := by
    refine wp_mfaChange false found h' (fun w s₂ h₂ hw ↦ ?_) fun _ _ h₂ ↦ h₂
    have hw' := hw (I.insensitive _ _ _ hcore hedited) (hsame.trans (.of_core hcore))
      (hmfa asked ⟨hasked, hpayload, hfields, u, hu⟩)
    refine wp_writeRecord h₂ (I.insensitive false w _ rfl hw')
      fun _ s₃ h₃ ↦ ⟨fun _ ↦ ?_, fun _ ↦ h₃⟩
    exact keeps_buildUpdatedUserResponse h₃
  simp only [Command.wp_ite, Command.wp_bind, Command.wp_pure, Command.wp_ensure]
  refine ⟨fun _ ↦ wp_verify h fun s₁ h₁ ↦ ?_, fun _ ↦ hrest u rfl h⟩
  exact hrest { u with waitingForEmailCheck := true, validated := false } rfl h₁

theorem keeps_doPut (h : s.Satisfies I)
    (hrole : KeptByRole I false (roleAsked svc.json (c.request.body.parsed.getD [])))
    (hupdate : KeptByUpdate svc I false c s) : Keeps I (doPut svc c) s := by
  unfold Keeps doPut
  simp only [Command.wp_bind, Command.wp_ensure, Command.wp_orStop, Command.wp_ite]
  refine ⟨fun hid ↦ wp_lookupById h fun o s₁ ho hrecord h₁ ↦ ?_, fun _ ↦ h⟩
  refine ⟨fun found hfound ↦ ⟨fun hallowed ↦ ⟨fun _ ↦ ⟨fun _ ↦ ?_, fun _ ↦ h₁⟩,
    fun hreset ↦ ⟨fun _ ↦ ?_, fun hforgot ↦ ?_⟩⟩, fun _ ↦ h₁⟩, fun _ ↦ h₁⟩
  · -- resetMFA
    unfold handleResetMFA
    simp only [Command.wp_bind, Command.wp_ensure]
    have hreset := hupdate.reset found (hrecord found hfound)
    refine wp_writeRecord h₁ (I.insensitive false (withoutMfa found) _ rfl hreset) fun _ s₂ h₂ ↦ ?_
    exact ⟨fun _ ↦ keeps_buildUpdatedUserResponse h₂, fun _ ↦ h₂⟩
  · -- forgotPassword
    exact h₁.createAction _
  · -- the update from the body
    refine keeps_updateFromBody h₁ (hrecord found hfound) hrole hupdate.password
      fun asked hpasses ↦ hupdate.mfa asked found ⟨by simpa using hid, ho ▸ hfound, hallowed, ?_,
        hpasses⟩
    exact ⟨by simpa using hreset, by simpa using hforgot⟩

/-- A request to the user handler keeps the invariant where its edits do. -/
theorem keeps_dispatch (internal : Bool) (h : s.Satisfies I)
    (hcreation : c.request.method = .POST → ∀ body, Creates svc c s body →
      KeptByCreation svc I false c.moment body)
    (hrole : c.request.method = .PUT →
      KeptByRole I false (roleAsked svc.json (c.request.body.parsed.getD [])))
    (hupdate : c.request.method = .PUT → KeptByUpdate svc I false c s) :
    Keeps I (dispatch (userHandler svc internal) c) s := by
  unfold dispatch
  cases hm : c.request.method with
  | GET => exact keeps_doGet h
  | POST => exact keeps_doPost h (hcreation hm)
  | PUT => exact keeps_doPut h (hrole hm) (hupdate hm)
  | DELETE => exact keeps_doDelete h
  | OPTIONS | other => exact h

end UserHandler

namespace SubUserHandler

variable {c : Context}

theorem keeps_doGet (h : s.Satisfies I) : Keeps I (doGet svc c) s := by
  unfold Keeps doGet
  simp only [Command.wp_bind, Command.wp_ensure, Command.wp_orStop, Command.wp_pure,
    Command.wp_ite]
  refine ⟨fun _ ↦ ⟨fun _ ↦ ?_, fun _ ↦ ?_⟩, fun _ ↦ h⟩
  · exact wp_lookupByEmail h fun _ _ _ h₁ ↦ ⟨fun _ _ ↦ h₁, fun _ ↦ h₁⟩
  · exact wp_lookupById h fun _ _ _ _ h₁ ↦ ⟨fun _ _ ↦ h₁, fun _ ↦ h₁⟩

theorem keeps_doDelete (h : s.Satisfies I) : Keeps I (doDelete svc c) s := by
  unfold Keeps doDelete
  simp only [Command.wp_bind, Command.wp_ensure, Command.wp_orStop, Command.wp_pure,
    Command.wp_write]
  refine ⟨fun _ ↦ wp_lookupById h fun _ _ _ _ h₁ ↦ ⟨fun _ _ ↦ ⟨fun _ ↦ ⟨fun _ ↦ ?_, fun _ ↦ h₁⟩,
    fun _ ↦ h₁⟩, fun _ ↦ h₁⟩, fun _ ↦ h⟩
  have hdeleted := h₁.deleteUser true (c.request.getBinding "id")
  refine ⟨fun isSub ↦ ?_, hdeleted.enrolments⟩
  cases isSub
  · exact hdeleted.records false
  · exact (hdeleted.records true).congr rfl rfl

theorem keeps_reportCreated {new : UserInfo} (h : s.Satisfies I) (hnew : I.record true new) :
    Keeps I (reportCreated svc c new) s := by
  unfold Keeps reportCreated
  simp only [Command.wp_bind, Command.wp_orStop, Command.wp_pure, Command.wp_ite]
  refine ⟨fun _ ↦ wp_verify h fun s₁ h₁ ↦ ?_, fun _ ↦ ?_⟩
  · refine wp_writeRecord h₁ (I.insensitive true new _ rfl hnew) fun _ s₂ h₂ ↦ ?_
    exact wp_lookupByEmail h₂ fun _ _ _ h₃ ↦ ⟨fun _ _ ↦ h₃, fun _ ↦ h₃⟩
  · exact wp_lookupByEmail h fun _ _ _ h₁ ↦ ⟨fun _ _ ↦ h₁, fun _ ↦ h₁⟩

/-- The creation from the body passes all its checks. -/
structure Creates (svc : Service) (c : Context) (s : Storage) (body : UserInfo) : Prop where
  id : c.request.getBinding "id" = "0"
  parsed : UserInfo.fromJson svc.json c.request.body.parsed = some body
  userRole : body.userRole = .SUBSCRIBER
  allowed : (c.internal || can c.caller { body with email := toLower body.email } .CREATE) = true
  email : validEMailAddress (toLower body.email) = true
  rule : body.currentPassword = "" ∨ Storage.passwordRule svc true body.currentPassword = true
  free : (s.sub.getUserByEmail svc (toLower body.email)).1 = none
  fresh : s.sub.users.find? c.moment.uuid = none

theorem keeps_doPost (h : s.Satisfies I)
    (hcreation : ∀ body, Creates svc c s body → KeptByCreation svc I true c.moment body) :
    Keeps I (doPost svc c) s := by
  have h₁ (email : String) :
      (s.onPopulation true fun p ↦ p.getUserByEmail svc email).2.Satisfies I :=
    h.getUserByEmail true email
  unfold Keeps doPost UserHandler.getUserByEmail
  simp only [Command.wp_bind, Command.wp_ensure, Command.wp_orStop, Command.wp_act]
  refine ⟨fun hid ↦ ⟨fun body hbody ↦ ⟨fun hrole ↦ ⟨fun hfree ↦ ⟨fun hallowed ↦ ⟨fun hvalid ↦
    ⟨fun hrule ↦ ?_, fun _ ↦ h₁ _⟩, fun _ ↦ h₁ _⟩, fun _ ↦ h₁ _⟩, fun _ ↦ h₁ _⟩, fun _ ↦ h⟩,
    fun _ ↦ h⟩, fun _ ↦ h⟩
  refine wp_createRecord (h₁ _) (fun _ hfresh ↦ ?_)
    fun o s₂ ho h₂ ↦ ⟨fun new hsome ↦ ?_, fun _ ↦ h₂⟩
  · refine hcreation body ⟨by simpa using hid, hbody, by simpa using hrole, hallowed, hvalid,
      by simpa [Storage.passwordRule] using hrule, Option.isNone_iff_eq_none.mp hfree, ?_⟩ _ ⟨rfl, rfl, rfl, rfl⟩
    rw [← Population.getUserByEmail_users svc (p := s.sub) (toLower body.email)]
    exact hfresh
  · exact keeps_reportCreated h₂ (ho new hsome)

/-- The edits of an update: they leave the stores alone but for a link and an enrolment, and the
record that comes out satisfies the invariant where the edits keep it. -/
theorem wp_editFromBody {id : String} {found : UserInfo} (h : s.Satisfies I)
    {Q : UserInfo → Storage → Prop} {E : Response → Storage → Prop}
    (hQ : ∀ u s', s'.Satisfies I → (I.record true found →
      KeptByRole I true (UserHandler.roleAsked svc.json (c.request.body.parsed.getD [])) →
      KeptByPassword svc I true c.moment.salt
        (AllowedPassword svc true (c.request.body.parsed.getD [])) →
      (∀ asked, PassesEdits svc c id asked found →
        KeptByMfa I true c.moment.now c.caller asked.userTypeProprietaryInfo found) →
      I.record true u) → Q u s')
    (hE : ∀ e s', s'.Satisfies I → E e s') :
    Command.wp (editFromBody svc c id found) Q E s := by
  unfold editFromBody
  simp only [Command.wp_bind, Command.wp_ensure, Command.wp_orStop, Command.wp_lift]
  refine ⟨fun asked hasked ↦ ⟨fun role hrequested ↦ ⟨fun hvalid ↦ ⟨fun u hu ↦ ?_,
    fun _ _ ↦ hE _ _ h⟩, fun _ ↦ hE _ _ h⟩, fun _ _ ↦ hE _ _ h⟩, fun _ ↦ hE _ _ h⟩
  obtain ⟨v, w, x, hprofile, hset, hnotes, hlast⟩ := edits_of_applyBody hu
  have hsame := sameFactor_of_edits hprofile hset hnotes hlast
  have hrest (u' : UserInfo) (hcore : coreOf u' = coreOf u) {s' : Storage} (h' : s'.Satisfies I) :
      Command.wp (UserHandler.applyMfaChange svc c.moment c.caller asked
        (JsonObject.has (c.request.body.parsed.getD []) "userTypeProprietaryInfo") u') Q E s' := by
    refine wp_mfaChange true found h' (fun w s₂ h₂ hw ↦ hQ _ _ h₂ ?_) hE
    intro hfound hrole hpassword hmfa
    have hedited := kept_of_edits hrole hpassword hprofile hset hnotes hlast hfound
    exact hw (I.insensitive _ _ _ hcore hedited) (hsame.trans (.of_core hcore))
      (hmfa asked ⟨hasked, ⟨role, hrequested, hvalid⟩, u, hu⟩)
  simp only [Command.wp_ite, Command.wp_bind, Command.wp_pure]
  refine ⟨fun _ ↦ wp_verify h fun s₁ h₁ ↦ ?_, fun _ ↦ hrest u rfl h⟩
  exact hrest { u with waitingForEmailCheck := true, validated := false } rfl h₁

/-- The update from the body; the role matters only where the edits pass. -/
theorem keeps_updateFromBody {id : String} {found : UserInfo} (h : s.Satisfies I)
    (hfound : I.record true found)
    (hrole : Command.Ends (editFromBody svc c id found) s →
      KeptByRole I true (UserHandler.roleAsked svc.json (c.request.body.parsed.getD [])))
    (hpassword : KeptByPassword svc I true c.moment.salt
      (AllowedPassword svc true (c.request.body.parsed.getD [])))
    (hmfa : ∀ asked, PassesEdits svc c id asked found →
      KeptByMfa I true c.moment.now c.caller asked.userTypeProprietaryInfo found) :
    Keeps I (updateFromBody svc c id found) s := by
  have hrest (u : UserInfo) (hu : I.record true u) {s' : Storage} (h' : s'.Satisfies I) :
      Keeps I (do
        let updated ← updateUserInfo svc id u
        Command.ensure updated (.badRequest Errors.RecordNotUpdated)
        let user ← getUserById svc id
        return Response.user (sanitize (user.getD {}))) s' := by
    unfold Keeps
    simp only [Command.wp_bind, Command.wp_ensure, Command.wp_pure]
    refine wp_writeRecord h' hu fun _ s₁ h₁ ↦ ⟨fun _ ↦ ?_, fun _ ↦ h₁⟩
    exact wp_lookupById h₁ fun _ _ _ _ h₂ ↦ h₂
  unfold Keeps updateFromBody
  rw [Command.wp_bind]
  by_cases hends : Command.Ends (editFromBody svc c id found) s
  · exact wp_editFromBody h (fun u s₁ h₁ hu ↦
      hrest u (hu hfound (hrole hends) hpassword hmfa) h₁) fun _ _ h₁ ↦ h₁
  · -- the edits stop with an answer, and nothing is written
    have hkeeps : Keeps I (editFromBody svc c id found) s :=
      wp_editFromBody h (fun _ _ h₁ _ ↦ h₁) fun _ _ h₁ ↦ h₁
    unfold Keeps Command.wp at hkeeps
    unfold Command.wp
    unfold Command.Ends at hends
    rcases hrun : editFromBody svc c id found s with ⟨e | u, s₁⟩
    · rw [hrun] at hkeeps
      exact hkeeps
    · rw [hrun] at hends
      exact absurd rfl hends

/-- The update from the body passes all its checks for the record that is found. -/
structure PassesChecks (svc : Service) (c : Context) (s : Storage) (found : UserInfo) : Prop where
  target : c.request.getBinding "id" ≠ ""
  lookup : (s.sub.getUserById svc (c.request.getBinding "id")).1 = some found
  allowed : (c.internal || can c.caller found .MODIFY) = true
  fromBody : c.request.getBoolParameter "resetMFA" = false ∧
    c.request.getBoolParameter "forgotPassword" = false ∧
    c.request.getBoolParameter "resetPassword" = false
  edits : Command.Ends (editFromBody svc c (c.request.getBinding "id") found)
    (s.onPopulation true fun p ↦ p.getUserById svc (c.request.getBinding "id")).2

/-- An update; the role matters only where it reaches the edits and they pass. -/
theorem keeps_doPut (h : s.Satisfies I)
    (hrole : ∀ found, PassesChecks svc c s found →
      KeptByRole I true (UserHandler.roleAsked svc.json (c.request.body.parsed.getD [])))
    (hupdate : KeptByUpdate svc I true c s) : Keeps I (doPut svc c) s := by
  have h₁ : (s.onPopulation true fun p ↦
      p.getUserById svc (c.request.getBinding "id")).2.Satisfies I := h.getUserById _
  unfold Keeps doPut getUserById
  simp only [Command.wp_bind, Command.wp_ensure, Command.wp_orStop, Command.wp_act]
  refine ⟨fun hid ↦ ⟨fun found hfound ↦ ⟨fun hallowed ↦ ?_, fun _ ↦ h₁⟩, fun _ ↦ h₁⟩, fun _ ↦ h⟩
  have hrecord : I.record true found := h.records true found (Population.getUserById_mem svc hfound)
  unfold modify
  simp only [Command.wp_ite]
  refine ⟨fun _ ↦ ?_, fun hreset ↦ ⟨fun _ ↦ h₁.createAction _, fun hforgot ↦ ?_⟩⟩
  · -- resetMFA
    unfold handleResetMFA
    simp only [Command.wp_bind, Command.wp_ensure, Command.wp_pure]
    have hreset := hupdate.reset found hrecord
    refine ⟨fun _ ↦ wp_writeRecord h₁ (I.insensitive true (withoutMfa found) _ rfl hreset)
      fun _ s₂ h₂ ↦ ?_, fun _ ↦ h₁⟩
    exact wp_lookupByEmail h₂ fun _ _ _ h₃ ↦ h₃
  · -- the update from the body
    rw [Bool.not_eq_true] at hreset hforgot
    rw [Bool.or_eq_false_iff] at hforgot
    have htarget : c.request.getBinding "id" ≠ "" := by simpa using hid
    exact keeps_updateFromBody h₁ hrecord
      (fun hends ↦ hrole found ⟨htarget, hfound, hallowed, ⟨hreset, hforgot⟩, hends⟩)
      hupdate.password fun asked hpasses ↦
        hupdate.mfa asked found ⟨htarget, hfound, hallowed, ⟨hreset, hforgot⟩, hpasses⟩

/-- A request to the subscriber handler keeps the invariant where its edits do. -/
theorem keeps_dispatch (internal : Bool) (h : s.Satisfies I)
    (hcreation : c.request.method = .POST → ∀ body, Creates svc c s body →
      KeptByCreation svc I true c.moment body)
    (hrole : c.request.method = .PUT → ∀ found, PassesChecks svc c s found →
      KeptByRole I true (UserHandler.roleAsked svc.json (c.request.body.parsed.getD [])))
    (hupdate : c.request.method = .PUT → KeptByUpdate svc I true c s) :
    Keeps I (dispatch (subuserHandler svc internal) c) s := by
  unfold dispatch
  cases hm : c.request.method with
  | GET => exact keeps_doGet h
  | POST => exact keeps_doPost h (hcreation hm)
  | PUT => exact keeps_doPut h (hrole hm) (hupdate hm)
  | DELETE => exact keeps_doDelete h
  | OPTIONS | other => exact h

end SubUserHandler

/-! ## The second factor, and signing up -/

namespace SubMfaHandler

variable {c : Context} {gateway : SmsGateway}

/-- What a subscriber can do to the own second factor keeps the invariant; without a record the
default one is edited. -/
structure KeptByChoice (I : RecordInvariant) : Prop where
  default : I.record true {}
  disabled : ∀ u, I.record true u → I.record true (disabled u)
  byEmail : ∀ u, I.record true u → I.record true (byEmail u)
  bySms : ∀ u number, I.record true u → I.record true (bySms number u)

theorem wp_editOwn {edit : UserInfo → UserInfo} {Q : PUnit → Storage → Prop}
    {E : Response → Storage → Prop} (h : s.Satisfies I) (hdefault : I.record true {})
    (hedit : ∀ u, I.record true u → I.record true (edit u))
    (hQ : ∀ s', s'.Satisfies I → Q ⟨⟩ s') : Command.wp (editOwn svc c edit) Q E s := by
  unfold editOwn
  simp only [Command.wp_bind, Command.wp_pure]
  refine wp_lookupById h fun o s₁ _ ho h₁ ↦ ?_
  have hrecord : I.record true (o.getD {}) := by
    cases o with
    | none => exact hdefault
    | some u => exact ho u rfl
  exact wp_writeRecord h₁ (hedit _ hrecord) fun _ s₂ h₂ ↦ hQ s₂ h₂

theorem keeps_doGet (h : s.Satisfies I) : Keeps I (doGet svc c) s := by
  unfold Keeps doGet configOf
  simp only [Command.wp_bind, Command.wp_orStop, Command.wp_pure, Command.wp_ite]
  refine wp_lookupById h fun _ s₁ _ _ h₁ ↦ ⟨fun u _ ↦ ⟨fun _ ↦ ⟨fun _ ↦ ⟨fun _ _ ↦ h₁,
    fun _ ↦ h₁⟩, fun _ ↦ ⟨fun _ ↦ h₁, fun _ ↦ h₁⟩⟩, fun _ ↦ h₁⟩, fun _ ↦ h₁⟩

/-- Validating a number does not touch the records. -/
theorem satisfies_smsStartValidation (h : s.Satisfies I) (now : ℕ) (number userName : String) :
    (s.smsStartValidation svc gateway now number userName).2.Satisfies I := by
  unfold Storage.smsStartValidation
  split
  · exact h.congr rfl rfl rfl
  · exact h

theorem satisfies_smsCompleteValidation (h : s.Satisfies I) (number code userName : String) :
    (s.smsCompleteValidation svc number code userName).2.Satisfies I := by
  unfold Storage.smsCompleteValidation
  split
  · exact h.congr rfl rfl rfl
  · exact h

theorem keeps_putSms {mfc : SubMfaConfig} (h : s.Satisfies I) (hchoice : KeptByChoice I) :
    Keeps I (putSms svc gateway c mfc) s := by
  unfold Keeps putSms
  simp only [Command.wp_bind, Command.wp_ite, Command.wp_ensure, Command.wp_act, Command.wp_pure]
  refine ⟨fun _ ↦ ⟨fun _ ↦ ⟨fun _ ↦ satisfies_smsStartValidation h _ _ _, fun _ ↦ h⟩, fun _ ↦ h⟩,
    fun _ ↦ ⟨fun _ ↦ ⟨fun _ ↦ ⟨fun _ ↦ ⟨fun _ ↦ ?_, fun _ ↦ h⟩, fun _ ↦ h⟩, fun _ ↦ h⟩,
    fun _ ↦ h⟩⟩
  have h₁ : (s.smsCompleteValidation svc mfc.sms (c.request.getParameter "challengeCode")
      c.caller.email).2.Satisfies I := satisfies_smsCompleteValidation h _ _ _
  refine ⟨fun _ ↦ ?_, fun _ ↦ h₁⟩
  exact wp_editOwn h₁ hchoice.default (fun u ↦ hchoice.bySms u mfc.sms) fun _ h₂ ↦ h₂

theorem keeps_doPut (h : s.Satisfies I) (hchoice : KeptByChoice I) :
    Keeps I (doPut svc gateway c) s := by
  unfold Keeps doPut
  simp only [Command.wp_bind, Command.wp_orStop, Command.wp_ite, Command.wp_pure]
  refine ⟨fun mfc _ ↦ ⟨fun _ ↦ ?_, fun _ ↦ ⟨fun _ ↦ ?_, fun _ ↦ ⟨fun _ ↦ ?_, fun _ ↦ h⟩⟩⟩,
    fun _ ↦ h⟩
  · exact wp_editOwn h hchoice.default hchoice.disabled fun _ h₁ ↦ h₁
  · exact wp_editOwn h hchoice.default hchoice.byEmail fun _ h₁ ↦ h₁
  · exact keeps_putSms h hchoice

/-- A request of a subscriber about the second factor keeps the invariant where its choices do. -/
theorem keeps_dispatch (internal : Bool) (h : s.Satisfies I)
    (hchoice : c.request.method = .PUT → KeptByChoice I) :
    Keeps I (dispatch (submfaHandler svc gateway internal) c) s := by
  unfold dispatch
  cases hm : c.request.method with
  | GET => exact keeps_doGet h
  | PUT => exact keeps_doPut h (hchoice hm)
  | POST | DELETE | OPTIONS | other => exact h

end SubMfaHandler

namespace SignupHandler

variable {c : Context}

/-- Signing up keeps the invariant where the new record satisfies it. -/
theorem keeps_doPost (h : s.Satisfies I)
    (hnew : ∀ userName owner operatorName signupUUID,
      I.record true (newSub c.moment userName owner operatorName signupUUID)) :
    Keeps I (doPost svc c) s := by
  unfold Keeps doPost
  simp only [Command.wp_bind, Command.wp_ensure]
  refine ⟨fun _ ↦ ⟨fun _ ↦ wp_lookupByEmail h fun o s₁ ho h₁ ↦ ?_, fun _ ↦ h⟩, fun _ ↦ h⟩
  cases o with
  | none =>
    simp only [Command.wp_bind, Command.wp_pure]
    exact (h₁.setPopulation ((h₁.records true).insert (Population.records_createRecord _)
      (hnew _ _ _ _))).createAction _
  | some u =>
    unfold resendTo
    simp only [Command.wp_bind, Command.wp_ensure, Command.wp_ite, Command.wp_pure]
    refine ⟨fun _ ↦ ⟨fun _ ↦ ?_, fun _ ↦ h₁.createAction _⟩, fun _ ↦ h₁⟩
    exact wp_writeRecord h₁ (ho u rfl) fun _ s₂ h₂ ↦ h₂.createAction _

theorem keeps_dispatch (internal : Bool) (h : s.Satisfies I)
    (hnew : ∀ userName owner operatorName signupUUID,
      I.record true (newSub c.moment userName owner operatorName signupUUID)) :
    Keeps I (dispatch (signupHandler svc internal) c) s := by
  unfold dispatch
  cases c.request.method with
  | POST => exact keeps_doPost h hnew
  | GET | PUT | DELETE | OPTIONS | other => exact h

end SignupHandler

/-! ## Enrolments -/

namespace TotpHandlers

variable {c : Context} {source : TotpSource} {subscriber : Bool}

/-- The enrolments of a caller keep their invariant. -/
structure KeptByEnrolment (I : RecordInvariant) (source : TotpSource) (subscriber : Bool)
    (now : ℕ) (caller : UserInfo) : Prop where
  start : I.enrolment caller.id
    { subscriber, start := now, done := 0, verifications := 0
      secret := source.generateSecret 20
      qrCode := source.lib.generateQRCode (source.lib.toBase32 (source.generateSecret 20))
        caller.email
      lastCode := "" }
  firstCode : ∀ e code, I.enrolment caller.id e → e.subscriber = subscriber →
    I.enrolment caller.id { e with verifications := e.verifications + 1, lastCode := code }
  secondCode : ∀ e, I.enrolment caller.id e → e.subscriber = subscriber →
    I.enrolment caller.id { e with done := now }

/-- Replacing an enrolment by one that satisfies the invariant keeps it. -/
theorem satisfies_insert (h : s.Satisfies I) {id : String} {e : TotpEntry}
    (he : I.enrolment id e) : ({ s with totp := s.totp.insert id e } : Storage).Satisfies I := by
  refine ⟨fun isSub ↦ ?_, fun k e' hk ↦ ?_⟩
  · cases isSub
    · exact h.records false
    · exact h.records true
  · change (s.totp.insert id e : Cache String TotpEntry).lookup k = some e' at hk
    rw [Cache.lookup_insert_eq] at hk
    split at hk
    · rename_i heq
      subst heq
      exact Option.some.inj hk ▸ he
    · exact h.enrolments k e' hk

theorem keeps_doGet (h : s.Satisfies I)
    (hkept : KeptByEnrolment I source subscriber c.moment.now c.caller) :
    Keeps I (doGet source subscriber c) s := by
  unfold Keeps doGet
  simp only [Command.wp_bind, Command.wp_act, Command.wp_pure]
  have hinsert := satisfies_insert h hkept.start
  unfold Storage.totpStartValidation
  simp only
  split
  · split
    · split
      · exact hinsert
      · exact h
    · exact hinsert
  · exact hinsert

theorem keeps_doPut (h : s.Satisfies I)
    (hkept : KeptByEnrolment I source subscriber c.moment.now c.caller) :
    Keeps I (doPut source subscriber c) s := by
  unfold Keeps doPut
  simp only [Command.wp_bind, Command.wp_act, Command.wp_orStop]
  refine ⟨fun nextIndex _ ↦ ?_, fun _ ↦ h⟩
  have hcases := s.totpContinueValidation_cases source.lib c.moment.now c.caller subscriber
    (c.request.getParameter "value") nextIndex
  generalize s.totpContinueValidation source.lib c.moment.now c.caller subscriber
    (c.request.getParameter "value") nextIndex = result at hcases ⊢
  cases hcases with
  | first e hlookup hsubscriber =>
    exact satisfies_insert h (hkept.firstCode e _ (h.enrolments _ _ hlookup) hsubscriber)
  | second e hlookup hsubscriber =>
    exact satisfies_insert h (hkept.secondCode e (h.enrolments _ _ hlookup) hsubscriber)
  | refused => exact h

/-- A request of the enrolment handler of the users keeps the invariant where enrolments do. -/
theorem keeps_dispatch_totp (internal : Bool) (h : s.Satisfies I)
    (hkept : KeptByEnrolment I source false c.moment.now c.caller) :
    Keeps I (dispatch (totpHandler source internal) c) s := by
  unfold dispatch
  cases c.request.method with
  | GET => exact keeps_doGet h hkept
  | PUT => exact keeps_doPut h hkept
  | POST | DELETE | OPTIONS | other => exact h

/-- The same for the enrolment handler of the subscribers. -/
theorem keeps_dispatch_subtotp (internal : Bool) (h : s.Satisfies I)
    (hkept : KeptByEnrolment I source true c.moment.now c.caller) :
    Keeps I (dispatch (subtotpHandler source internal) c) s := by
  unfold dispatch
  cases c.request.method with
  | GET => exact keeps_doGet h hkept
  | PUT => exact keeps_doPut h hkept
  | POST | DELETE | OPTIONS | other => exact h

end TotpHandlers

/-! ## All of them -/

/-- The end points that read and write records and enrolments. -/
inductive EndPoint
  | user | subuser | signup | submfa | totp | subtotp
  deriving DecidableEq

/-- What a request finds around it. -/
structure Surroundings where
  moment : Moment
  rateExceeded : Bool
  gateway : SmsGateway
  source : TotpSource

/-- Surroundings for examples: every text message arrives, and every secret is the same. -/
def Surroundings.sample (now : ℕ) (suffix : String) : Surroundings where
  moment := .sample now suffix
  rateExceeded := false
  gateway := { challenge := "123456", send := fun _ _ ↦ true }
  source := { lib := .sample, random := fun i ↦ '0'.toNat + (i + 1) % 10 }

namespace EndPoint

variable (svc I) (env : Surroundings)

/-- The handler of an end point, on the public or on the internal router. -/
def handler (internal : Bool) : EndPoint → Handler
  | .user => userHandler svc internal
  | .subuser => subuserHandler svc internal
  | .signup => signupHandler svc internal
  | .submfa => submfaHandler svc env.gateway internal
  | .totp => totpHandler env.source internal
  | .subtotp => subtotpHandler env.source internal

/-- The edits that a request can make keep the invariant. -/
def Kept (c : Context) (s : Storage) : EndPoint → Prop
  | .user =>
    (c.request.method = .POST → ∀ body, UserHandler.Creates svc c s body →
        KeptByCreation svc I false c.moment body) ∧
      (c.request.method = .PUT →
        KeptByRole I false (UserHandler.roleAsked svc.json (c.request.body.parsed.getD [])) ∧
          KeptByUpdate svc I false c s)
  | .subuser =>
    (c.request.method = .POST → ∀ body, SubUserHandler.Creates svc c s body →
        KeptByCreation svc I true c.moment body) ∧
      (c.request.method = .PUT →
        (∀ found, SubUserHandler.PassesChecks svc c s found →
          KeptByRole I true (UserHandler.roleAsked svc.json (c.request.body.parsed.getD []))) ∧
          KeptByUpdate svc I true c s)
  | .signup => ∀ userName owner operatorName signupUUID,
      I.record true (SignupHandler.newSub c.moment userName owner operatorName signupUUID)
  | .submfa => c.request.method = .PUT → SubMfaHandler.KeptByChoice I
  | .totp => TotpHandlers.KeptByEnrolment I env.source false c.moment.now c.caller
  | .subtotp => TotpHandlers.KeptByEnrolment I env.source true c.moment.now c.caller

variable {svc I env}

/-- A method of an end point keeps an invariant that its edits keep. -/
theorem keeps_dispatch {c : Context} (internal : Bool) (e : EndPoint) (h : s.Satisfies I)
    (hkept : e.Kept svc I env c s) : Keeps I (dispatch (e.handler svc env internal) c) s := by
  cases e with
  | user =>
    exact UserHandler.keeps_dispatch internal h hkept.1 (fun hm ↦ (hkept.2 hm).1)
      fun hm ↦ (hkept.2 hm).2
  | subuser =>
    exact SubUserHandler.keeps_dispatch internal h hkept.1 (fun hm ↦ (hkept.2 hm).1)
      fun hm ↦ (hkept.2 hm).2
  | signup => exact SignupHandler.keeps_dispatch internal h hkept
  | submfa => exact SubMfaHandler.keeps_dispatch internal h hkept
  | totp => exact TotpHandlers.keeps_dispatch_totp internal h hkept
  | subtotp => exact TotpHandlers.keeps_dispatch_subtotp internal h hkept

end EndPoint

/-- A request to one of the end points, a login, or a request behind a link. -/
inductive RecordRequest
  | rest (e : EndPoint) (internal : Bool) (env : Surroundings) (r : Request)
  | login (isSub : Bool) (x : LoginContext) (challenges : MFAChallengeCache) (r : Request)
  | link (x : LinkContext) (req : LinkRequest)

namespace RecordRequest

variable (svc I)

/-- What the request leaves. -/
def run (s : Storage) : RecordRequest → Storage
  | .rest e internal env r =>
    (handleRequest svc (e.handler svc env internal) env.moment env.rateExceeded r s).2
  | .login isSub x challenges r =>
    (({ x with svc } : LoginContext).doPostWith isSub r { storage := s, challenges }).2.storage
  | .link x req => (({ x with svc } : LinkContext).handle s req).2

/-- A request over REST is let through with this context, in the storage that the
authentication leaves. -/
structure Admits (s : Storage) (e : EndPoint) (internal : Bool) (env : Surroundings) (r : Request)
    (c : Context) : Prop where
  acceptable : Acceptable (e.handler svc env internal) env.rateExceeded r
  granted : (authenticate svc (e.handler svc env internal) env.moment r s).1.granted =
    some (c.userInfo, c.requester)
  request : c.request = r
  router : c.internal = (e.handler svc env internal).internal
  moment : c.moment = env.moment

/-- Every edit that the request can make keeps the invariant. -/
def Kept (s : Storage) : RecordRequest → Prop
  | .rest e internal env r => ∀ c, Admits svc s e internal env r c →
      e.Kept svc I env c (authenticate svc (e.handler svc env internal) env.moment r s).2
  | .login isSub x _ r => ∀ userId password newPassword,
      LoginRequest.of svc.json r = .passwordLogin userId password newPassword →
      KeptByPassword svc I isSub x.moment.salt fun p ↦
        p = newPassword ∧ p ≠ "" ∧ Storage.passwordRule svc isSub p = true
  | .link x req => ∀ link userAction u u', Updates { x with svc } s req link userAction u u' →
      I.record (!userAction) u → I.record (!userAction) u'

variable {svc I}

/-- A request keeps an invariant that its edits keep. -/
theorem satisfies_run {q : RecordRequest} (h : s.Satisfies I) (hkept : q.Kept svc I s) :
    (q.run svc s).Satisfies I := by
  cases q with
  | rest e internal env r =>
    have hauth : (authenticate svc (e.handler svc env internal) env.moment r s).2.Satisfies I :=
      h.authenticate _ _ _
    refine handleRequest_rule svc _ env.moment env.rateExceeded r (P := fun _ s' ↦ s'.Satisfies I)
      (fun c hacceptable hgranted hrequest hrouter hmoment ↦ ?_) ?_
    · exact EndPoint.keeps_dispatch internal e hauth
        (hkept c ⟨hacceptable, hgranted, hrequest, hrouter, hmoment⟩)
    · rintro _ s' - (rfl | rfl)
      · exact h
      · exact hauth
  | login isSub x challenges r =>
    exact LoginContext.satisfies_doPostWith { x with svc } isSub h hkept
  | link x req => exact LinkContext.satisfies_handle { x with svc } h req hkept

end RecordRequest

end RestApi

/-- What happens between requests: no record appears but with the core of one that was there,
and no enrolment. -/
structure Storage.NoNews (s s' : Storage) : Prop where
  records : ∀ isSub, ∀ v ∈ (s'.population isSub).records,
    ∃ u ∈ (s.population isSub).records, coreOf v = coreOf u
  totp : Cache.Evicts s.totp s'.totp

/-- What happens between requests keeps an invariant. -/
theorem Storage.Satisfies.noNews {s s' : Storage} (h : s.Satisfies I)
    (hno : Storage.NoNews s s') : s'.Satisfies I where
  records isSub v hv := by
    obtain ⟨u, hu, hcore⟩ := hno.records isSub v hv
    exact I.insensitive isSub u v hcore (h.records isSub u hu)
  enrolments id e he := h.enrolments id e (hno.totp _ _ he)

end OwSec
