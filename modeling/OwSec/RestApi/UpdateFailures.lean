import OwSec.RestApi.SessionFrame
import OwSec.Storage.Failures

/-!
# Updates of records when the database fails

The last thing that can go wrong with an update of a record is the statement that writes it.
The functions of this file are those of the two handlers with the call of the database that
fails during that statement as an argument; without a failure they are the functions of the
handlers.

Both handlers first make the record to be written, `editRecord`, and that is where an update
leaves traces outside the table of its record: a link for the verification of the address, and
the session of an authenticator that is used up.  `wp_editRecord` says exactly which, and what
the second factor of the record is then.
-/

namespace OwSec

open SecurityObjects Kit ACLProcessor

namespace RestApi

variable (svc : Service) (failure : Option DbCall)

/-- `UpdateUserInfo` of `UserDB` or of `SubDB`. -/
def updateUserInfoUnder (isSub : Bool) (id : String) (u : UserInfo) : Handling Bool :=
  Command.act fun s ↦ s.onPopulation isSub fun p ↦ p.updateRecordUnder svc { write := failure } id u

theorem updateUserInfoUnder_false (id : String) (u : UserInfo) :
    updateUserInfoUnder svc none false id u = UserHandler.updateUserInfo svc id u := by
  funext s
  unfold updateUserInfoUnder UserHandler.updateUserInfo
  simp only [Population.updateRecordUnder_none]
  rfl

theorem updateUserInfoUnder_true (id : String) (u : UserInfo) :
    updateUserInfoUnder svc none true id u = SubUserHandler.updateUserInfo svc id u := by
  funext s
  unfold updateUserInfoUnder SubUserHandler.updateUserInfo
  simp only [Population.updateRecordUnder_none]
  rfl

/-! ## The two handlers -/

namespace UserHandler

/-- `DoPut` from the parsing of the body to the update of the row: the record to store. -/
def editFromBody (c : Context) (existing : UserInfo) : Handling UserInfo := do
  let newUser ← Command.orStop (UserInfo.fromJson svc.json c.request.body.parsed)
    (.badRequest Errors.InvalidJSONDocument)
  let raw := c.request.body.parsed.getD []
  let valid ← Command.lift (validateUpdatePayload svc.json raw)
  Command.ensure valid (.badRequest Errors.InvalidUserRole)
  Command.ensure (!(isSelfServiceCaller c.caller && !hasOnlyAllowedSelfServiceFields raw))
    (.unAuthorized Errors.ACCESS_DENIED)
  let existing ← Command.lift (applyBody svc c.moment c.caller raw existing)
  let existing ←
    if c.request.getParameter "email_verification" == "true" then verifyEmail c.moment existing
    else pure existing
  let existing ← applyMfaChange svc c.moment c.caller newUser (raw.has "userTypeProprietaryInfo")
    existing
  return { existing with modified := c.moment.now }

/-- `HandleResetMFA`. -/
def handleResetMFAUnder (c : Context) (id : String) (existing : UserInfo) : Handling Response := do
  let existing :=
    { existing with
      userTypeProprietaryInfo :=
        { existing.userTypeProprietaryInfo with
          mfa := { enabled := false, method := "" }
          mobiles := [] }
      modified := c.moment.now
      notes := existing.notes ++
        [{ created := c.moment.now, createdBy := c.caller.email,
           note := "MFA Reset by " ++ c.caller.email }] }
  let updated ← updateUserInfoUnder svc failure false id existing
  Command.ensure updated (.badRequest Errors.RecordNotUpdated)
  buildUpdatedUserResponse svc id (.badRequest Errors.RecordNotUpdated)

/-- The last part of `DoPut`: the update from the body. -/
def updateFromBodyUnder (c : Context) (id : String) (existing : UserInfo) :
    Handling Response := do
  let existing ← editFromBody svc c existing
  let updated ← updateUserInfoUnder svc failure false id existing
  Command.ensure updated (.badRequest Errors.RecordNotUpdated)
  buildUpdatedUserResponse svc id .notFound

/-- `RESTAPI_user_handler::DoPut`. -/
def doPutUnder (c : Context) : Handling Response := do
  let id := c.request.getBinding "id"
  Command.ensure (!id.isEmpty) (.badRequest Errors.MissingUserID)
  let existing ← getUserById svc id
  let existing ← Command.orStop existing .notFound
  Command.ensure (canModifyUserRecord c.caller existing) (.unAuthorized Errors.ACCESS_DENIED)
  if c.request.getParameter "resetMFA" == "true" then
    Command.ensure (canResetUserMFA c.caller existing) (.unAuthorized Errors.ACCESS_DENIED)
    handleResetMFAUnder svc failure c id existing
  else if c.request.getParameter "forgotPassword" == "true" then
    handleForgotPassword c existing
  else
    updateFromBodyUnder svc failure c id existing

theorem updateFromBodyUnder_none (c : Context) (id : String) (existing : UserInfo) :
    updateFromBodyUnder svc none c id existing = updateFromBody svc c id existing := by
  unfold updateFromBodyUnder editFromBody updateFromBody
  by_cases hverify : c.request.getParameter "email_verification" == "true"
  · simp only [Command.bind_assoc, Command.pure_bind, updateUserInfoUnder_false, hverify, if_true]
  · simp only [Command.bind_assoc, Command.pure_bind, updateUserInfoUnder_false, hverify, if_false,
      Bool.false_eq_true]

theorem doPutUnder_none (c : Context) : doPutUnder svc none c = doPut svc c := by
  have hreset (id : String) (existing : UserInfo) :
      handleResetMFAUnder svc none c id existing = handleResetMFA svc c id existing := by
    unfold handleResetMFAUnder handleResetMFA
    simp only [updateUserInfoUnder_false]
  unfold doPutUnder doPut
  simp only [updateFromBodyUnder_none, hreset]

end UserHandler

namespace SubUserHandler

/-- The `resetMFA` branch of `DoPut`: the outcome of the update is not looked at. -/
def handleResetMFAUnder (c : Context) (id : String) (existing : UserInfo) : Handling Response := do
  Command.ensure (canResetMFA c.caller id existing) (.unAuthorized Errors.ACCESS_DENIED)
  let existing :=
    { existing with
      userTypeProprietaryInfo :=
        { existing.userTypeProprietaryInfo with
          mfa := { enabled := false, method := "" }
          mobiles := [] }
      modified := c.moment.now
      notes := existing.notes ++
        [{ created := c.moment.now, createdBy := c.caller.email,
           note := "MFA Reset by " ++ c.caller.email }] }
  let _ ← updateUserInfoUnder svc failure true id existing
  let user ← UserHandler.getUserByEmail svc true c.caller.email
  return .user (sanitize (user.getD {}))

/-- The rest of `DoPut`: the update from the body. -/
def updateFromBodyUnder (c : Context) (id : String) (existing : UserInfo) :
    Handling Response := do
  let existing ← editFromBody svc c id existing
  let updated ← updateUserInfoUnder svc failure true id existing
  Command.ensure updated (.badRequest Errors.RecordNotUpdated)
  let user ← getUserById svc id
  return .user (sanitize (user.getD {}))

/-- `RESTAPI_subuser_handler::DoPut`. -/
def doPutUnder (c : Context) : Handling Response := do
  let id := c.request.getBinding "id"
  Command.ensure (!id.isEmpty) (.badRequest Errors.MissingUserID)
  let existing ← getUserById svc id
  let existing ← Command.orStop existing .notFound
  Command.ensure (c.internal || can c.caller existing .MODIFY)
    (.unAuthorized Errors.ACCESS_DENIED)
  if c.request.getBoolParameter "resetMFA" then handleResetMFAUnder svc failure c id existing
  else if c.request.getBoolParameter "forgotPassword" ||
      c.request.getBoolParameter "resetPassword" then
    handleForgotPassword c existing
  else updateFromBodyUnder svc failure c id existing

theorem handleResetMFAUnder_none (c : Context) (id : String) (existing : UserInfo) :
    handleResetMFAUnder svc none c id existing = handleResetMFA svc c id existing := by
  unfold handleResetMFAUnder handleResetMFA
  simp only [updateUserInfoUnder_true]

theorem updateFromBodyUnder_none (c : Context) (id : String) (existing : UserInfo) :
    updateFromBodyUnder svc none c id existing = updateFromBody svc c id existing := by
  unfold updateFromBodyUnder updateFromBody
  simp only [updateUserInfoUnder_true]

theorem doPutUnder_none (c : Context) : doPutUnder svc none c = doPut svc c := by
  unfold doPutUnder doPut modify
  simp only [handleResetMFAUnder_none, updateFromBodyUnder_none]

end SubUserHandler

/-- `DoPut` of the handler of a population. -/
def doPutUnder : Bool → Context → Handling Response
  | false => UserHandler.doPutUnder svc failure
  | true => SubUserHandler.doPutUnder svc failure

/-- The handler of the records of a population. -/
def recordHandlerUnder (isSub internal : Bool) : Handler :=
  match isSub with
  | false => { userHandler svc internal with doPut := UserHandler.doPutUnder svc failure }
  | true => { subuserHandler svc internal with doPut := SubUserHandler.doPutUnder svc failure }

/-- Without a failure it is the handler. -/
theorem recordHandlerUnder_none (internal : Bool) :
    recordHandlerUnder svc none false internal = userHandler svc internal ∧
      recordHandlerUnder svc none true internal = subuserHandler svc internal := by
  have huser : UserHandler.doPutUnder svc none = UserHandler.doPut svc :=
    funext (UserHandler.doPutUnder_none svc)
  have hsub : SubUserHandler.doPutUnder svc none = SubUserHandler.doPut svc :=
    funext (SubUserHandler.doPutUnder_none svc)
  unfold recordHandlerUnder
  rw [huser, hsub]
  exact ⟨rfl, rfl⟩

/-! ## The traces of making a record -/

section Edits

variable {svc : Service} {s : Storage} {c : Context} {isSub : Bool} {asked found existing : UserInfo}

/-- The body asks for a second factor with this method. -/
structure AsksFor (c : Context) (asked : UserInfo) (method : String) : Prop where
  present : (c.request.body.parsed.getD []).has "userTypeProprietaryInfo" = true
  enabled : asked.userTypeProprietaryInfo.mfa.enabled = true
  method : asked.userTypeProprietaryInfo.mfa.method = method

/-- The caller has finished the enrolment of an authenticator, and it can be taken over. -/
def HasSession (c : Context) (s : Storage) : Prop :=
  ∃ e, s.totp.lookup c.caller.id = some e ∧ Ripe c.moment.now false e

/-- The second factor that the body asks for is refused. -/
inductive RefusesMfa (svc : Service) (c : Context) (s : Storage) (asked found : UserInfo) : Prop
  | unknown {method : String} (h : AsksFor c asked method)
    (hunknown : UserHandler.validateMethod method = false)
  | smsOff (h : AsksFor c asked "sms") (hoff : svc.smsEnabled = false)
  | mailOff (h : AsksFor c asked "email") (hoff : svc.mailEnabled = false)
  | noNumber (h : AsksFor c asked "sms")
    (hnumber : ∀ first rest, asked.userTypeProprietaryInfo.mobiles = first :: rest →
      s.smsIsNumberValid svc first.number c.caller.email = false)
  | noSession (h : AsksFor c asked "authenticator")
    (hsecret : found.userTypeProprietaryInfo.authenticatorSecret = "") (hnone : ¬ HasSession c s)

/-- The second factor that the body asks for uses the session of the caller up. -/
structure UsesSession (c : Context) (s : Storage) (asked found : UserInfo) : Prop where
  asks : AsksFor c asked "authenticator"
  secret : found.userTypeProprietaryInfo.authenticatorSecret = ""
  session : HasSession c s

/-- The second factor of the record that is found, after a change that is let through. -/
inductive Chooses (svc : Service) (c : Context) (s : Storage) (asked found : UserInfo) :
    UserLoginLoginExtensions → Prop
  | kept (h : ∀ method, ¬ AsksFor c asked method) :
    Chooses svc c s asked found found.userTypeProprietaryInfo
  | off (h : ∀ method, ¬ AsksFor c asked method) :
    Chooses svc c s asked found
      { mobiles := [], mfa := { found.userTypeProprietaryInfo.mfa with enabled := false } }
  | email (h : AsksFor c asked "email") :
    Chooses svc c s asked found { mobiles := [], mfa := { enabled := true, method := "email" } }
  | sms {first : MobilePhoneNumber} {rest : List MobilePhoneNumber} (h : AsksFor c asked "sms")
    (hmobiles : asked.userTypeProprietaryInfo.mobiles = first :: rest)
    (hvalid : s.smsIsNumberValid svc first.number c.caller.email = true) :
    Chooses svc c s asked found
      { mobiles := { first with verified := true } :: rest
        mfa := { enabled := true, method := "sms" } }
  | oldSecret (h : AsksFor c asked "authenticator")
    (hset : found.userTypeProprietaryInfo.authenticatorSecret ≠ "") :
    Chooses svc c s asked found
      { mobiles := [], mfa := { enabled := true, method := "authenticator" }
        authenticatorSecret := found.userTypeProprietaryInfo.authenticatorSecret }
  | newSecret {e : TotpEntry} (h : AsksFor c asked "authenticator")
    (hempty : found.userTypeProprietaryInfo.authenticatorSecret = "")
    (hlookup : s.totp.lookup c.caller.id = some e) (hripe : Ripe c.moment.now false e) :
    Chooses svc c s asked found
      { mobiles := [], mfa := { enabled := true, method := "authenticator" }
        authenticatorSecret := e.secret }

/-- A session is used up where there is one. -/
theorem totpCompleteValidation_of_session (h : HasSession c s) : ∃ e,
    s.totp.lookup c.caller.id = some e ∧ Ripe c.moment.now false e ∧
      s.totpCompleteValidation c.moment.now c.caller.id false =
        (some e.secret, { s with totp := s.totp.erase c.caller.id }) := by
  obtain ⟨e, he, hripe⟩ := h
  exact ⟨e, he, hripe, hripe.completeValidation he⟩

theorem totpCompleteValidation_of_none (h : ¬ HasSession c s) :
    s.totpCompleteValidation c.moment.now c.caller.id false = (none, s) :=
  (ripe_or_completeValidation _ _ _ _).resolve_left h

theorem RefusesMfa.asks (h : RefusesMfa svc c s asked found) : ∃ method, AsksFor c asked method := by
  cases h with
  | unknown h | smsOff h | mailOff h | noNumber h | noSession h => exact ⟨_, h⟩

/-- Every method has one thing that it is refused for. -/
theorem not_refusesMfa
    (hknown : UserHandler.validateMethod asked.userTypeProprietaryInfo.mfa.method = true)
    (hsms : asked.userTypeProprietaryInfo.mfa.method = "sms" → svc.smsEnabled = true ∧
      ∃ first rest, asked.userTypeProprietaryInfo.mobiles = first :: rest ∧
        s.smsIsNumberValid svc first.number c.caller.email = true)
    (hmail : asked.userTypeProprietaryInfo.mfa.method = "email" → svc.mailEnabled = true)
    (htotp : asked.userTypeProprietaryInfo.mfa.method = "authenticator" →
      found.userTypeProprietaryInfo.authenticatorSecret ≠ "" ∨ HasSession c s) :
    ¬ RefusesMfa svc c s asked found := by
  intro h
  cases h with
  | unknown h hunknown => exact absurd (hunknown.symm.trans (h.method ▸ hknown)) Bool.noConfusion
  | smsOff h hoff => exact absurd (hoff.symm.trans (hsms h.method).1) Bool.noConfusion
  | mailOff h hoff => exact absurd (hoff.symm.trans (hmail h.method)) Bool.noConfusion
  | noNumber h hnumber =>
    obtain ⟨-, first, rest, hmobiles, hvalid⟩ := hsms h.method
    exact absurd ((hnumber first rest hmobiles).symm.trans hvalid) Bool.noConfusion
  | noSession h hsecret hnone => exact (htotp h.method).elim (fun hset ↦ hset hsecret) hnone

/-- A second factor for which a session is used is not refused. -/
theorem UsesSession.not_refusesMfa (h : UsesSession c s asked found) :
    ¬ RefusesMfa svc c s asked found := by
  have hother {method : String} (hne : "authenticator" ≠ method) {P : Prop}
      (hmethod : asked.userTypeProprietaryInfo.mfa.method = method) : P :=
    absurd (h.asks.method.symm.trans hmethod) hne
  refine RestApi.not_refusesMfa ?_ (hother (by decide)) (hother (by decide)) fun _ ↦ .inr h.session
  rw [h.asks.method]
  rfl

/-- How a change of the second factor ends, and what it leaves. -/
theorem wp_applyMfaChange_cases {Q : UserInfo → Storage → Prop} {E : Response → Storage → Prop}
    (hsame : SameFactor found existing)
    (hrefused : RefusesMfa svc c s asked found → ∀ e, e.refused = true → E e s)
    (hkept : ¬ RefusesMfa svc c s asked found → ¬ UsesSession c s asked found → ∀ u,
      u.id = existing.id → Chooses svc c s asked found u.userTypeProprietaryInfo → Q u s)
    (hused : UsesSession c s asked found → ∀ u, u.id = existing.id →
      Chooses svc c s asked found u.userTypeProprietaryInfo →
        Q u { s with totp := s.totp.erase c.caller.id }) :
    Command.wp (UserHandler.applyMfaChange svc c.moment c.caller asked
      ((c.request.body.parsed.getD []).has "userTypeProprietaryInfo") existing) Q E s := by
  -- without a request for a second factor there is nothing to refuse
  have hquiet (hnot : ∀ method, ¬ AsksFor c asked method) (u : UserInfo)
      (hid : u.id = existing.id)
      (hu : Chooses svc c s asked found u.userTypeProprietaryInfo) : Q u s := by
    refine hkept (fun h ↦ ?_) (fun h ↦ hnot _ h.asks) u hid hu
    obtain ⟨method, hasks⟩ := h.asks
    exact hnot method hasks
  unfold UserHandler.applyMfaChange
  simp only [Command.wp_bind, Command.wp_ensure, Command.wp_pure, Command.wp_ite]
  refine ⟨fun habsent ↦ ?_, fun hpresent ↦ ⟨fun henabled ↦ ?_, fun hdisabled ↦ ?_⟩⟩
  · have hnot (method : String) : ¬ AsksFor c asked method := fun h ↦ by
      rw [h.present] at habsent
      cases habsent
    exact hquiet hnot _ rfl (hsame.factor ▸ .kept hnot)
  rotate_left
  · have hnot (method : String) : ¬ AsksFor c asked method := fun h ↦ hdisabled h.enabled
    exact hquiet hnot _ rfl (hsame.factor ▸ .off hnot)
  have hasks {method : String} (hmethod : asked.userTypeProprietaryInfo.mfa.method = method) :
      AsksFor c asked method := ⟨by simpa using hpresent, henabled, hmethod⟩
  refine ⟨fun hknown ↦ ⟨fun hsmsOn ↦ ⟨fun hmailOn ↦ ⟨fun hsms ↦ ?_, fun hnotSms ↦ ⟨fun htotp ↦ ?_,
    fun hnotTotp ↦ ?_⟩⟩, fun hmailOff ↦ ?_⟩, fun hsmsOff ↦ ?_⟩, fun hunknown ↦ ?_⟩
  · -- text messages
    have hmethod := beq_iff_eq.mp hsms
    have hnotUsed : ¬ UsesSession c s asked found := fun h ↦ by
      have hclash := hmethod.symm.trans h.asks.method
      exact absurd hclash (by decide)
    generalize hmobiles : asked.userTypeProprietaryInfo.mobiles = mobiles
    rcases mobiles with _ | ⟨first, rest⟩
    · refine hrefused (.noNumber (hasks hmethod) fun _ _ h ↦ ?_) _ rfl
      rw [hmobiles] at h
      cases h
    · simp only [Command.wp_bind, Command.wp_ensure, Command.wp_pure, Command.wp_reads]
      refine ⟨fun hvalid ↦ hkept (not_refusesMfa hknown (fun _ ↦ ⟨?_, first, rest, hmobiles, hvalid⟩)
        (fun hmail ↦ ?_) fun htotp ↦ ?_) hnotUsed _ rfl
          (hmethod ▸ .sms (hasks hmethod) hmobiles hvalid), fun hinvalid ↦ ?_⟩
      · simpa [hmethod] using hsmsOn
      · exact absurd (hmethod.symm.trans hmail) (by decide)
      · exact absurd (hmethod.symm.trans htotp) (by decide)
      · refine hrefused (.noNumber (hasks hmethod) fun first' rest' h ↦ ?_) _ rfl
        obtain ⟨rfl, rfl⟩ := List.cons.inj (hmobiles.symm.trans h)
        exact hinvalid
  · -- an authenticator: a finished enrolment, or the secret from before
    have hmethod := beq_iff_eq.mp htotp
    have hother {method : String} (hne : "authenticator" ≠ method) {P : Prop}
        (h : asked.userTypeProprietaryInfo.mfa.method = method) : P :=
      absurd (hmethod.symm.trans h) hne
    refine ⟨fun hempty ↦ ?_, fun hset ↦ ?_⟩
    · have hnoSecret : found.userTypeProprietaryInfo.authenticatorSecret = "" := by
        rw [← hsame.factor]
        simpa using hempty
      simp only [Command.wp_act, Command.wp_orStop]
      by_cases hsession : HasSession c s
      · obtain ⟨e, he, hripe, hcomplete⟩ := totpCompleteValidation_of_session hsession
        rw [hcomplete]
        refine ⟨fun secret hsecret ↦ ?_, fun h ↦ by cases h⟩
        obtain rfl := Option.some.inj hsecret
        exact hused ⟨hasks hmethod, hnoSecret, hsession⟩ _ rfl
          (hmethod ▸ .newSecret (hasks hmethod) hnoSecret he hripe)
      · rw [totpCompleteValidation_of_none hsession]
        exact ⟨fun _ h ↦ (by cases h),
          fun _ ↦ hrefused (.noSession (hasks hmethod) hnoSecret hsession) _ rfl⟩
    · have hsecret : found.userTypeProprietaryInfo.authenticatorSecret ≠ "" := by
        rw [← hsame.factor]
        simpa using hset
      exact hkept (not_refusesMfa hknown (hother (by decide)) (hother (by decide))
        fun _ ↦ .inl hsecret) (fun h ↦ hsecret h.secret) _ rfl
          (hmethod ▸ hsame.factor ▸ .oldSecret (hasks hmethod) hsecret)
  · -- the e-mail is the only method left
    have hmethod : asked.userTypeProprietaryInfo.mfa.method = "email" :=
      eq_email_of_validateMethod hknown (mt beq_iff_eq.mpr hnotSms) (mt beq_iff_eq.mpr hnotTotp)
    refine hkept (not_refusesMfa hknown (fun h ↦ absurd (beq_iff_eq.mpr h) hnotSms) (fun h ↦ ?_)
      fun h ↦ absurd (beq_iff_eq.mpr h) hnotTotp)
      (fun h ↦ hnotTotp (beq_iff_eq.mpr h.asks.method)) _ rfl (hmethod ▸ .email (hasks hmethod))
    simpa [h] using hmailOn
  · simp only [Bool.not_eq_false', Bool.and_eq_true, beq_iff_eq, Bool.not_eq_true'] at hmailOff
    exact hrefused (.mailOff (hasks hmailOff.1) hmailOff.2) _ rfl
  · simp only [Bool.not_eq_false', Bool.and_eq_true, beq_iff_eq, Bool.not_eq_true'] at hsmsOff
    exact hrefused (.smsOff (hasks hsmsOff.1) hsmsOff.2) _ rfl
  · exact hrefused (.unknown (hasks rfl) hunknown) _ rfl

/-- The update from the body passes everything up to the second factor. -/
def PassesEdits (svc : Service) : Bool → Context → UserInfo → UserInfo → Prop
  | false, c, asked, found => UserHandler.PassesEdits svc c asked found
  | true, c, asked, found => SubUserHandler.PassesEdits svc c (c.request.getBinding "id") asked found

/-- The record that an update from the body makes of the one that is found. -/
def editRecord (svc : Service) (c : Context) (found : UserInfo) : Bool → Handling UserInfo
  | false => UserHandler.editFromBody svc c found
  | true => SubUserHandler.editFromBody svc c (c.request.getBinding "id") found

/-- The link of an update that asks for a verification of the address. -/
def verificationLink (m : Moment) (id : String) (isSub : Bool) : ActionLink where
  action := (if isSub then LinkActions.SUB_VERIFY_EMAIL else LinkActions.VERIFY_EMAIL).toNat
  userId := id
  id := m.uuid'
  created := m.now
  expires := m.now + 24 * 60 * 60
  userAction := !isSub

/-- The stores with that link, where it is asked for. -/
def linked (c : Context) (id : String) (isSub : Bool) (s : Storage) : Storage :=
  if c.request.getParameter "email_verification" == "true" then
    s.createAction (verificationLink c.moment id isSub)
  else s

theorem linked_totp (c : Context) (id : String) (isSub : Bool) (s : Storage) :
    (linked c id isSub s).totp = s.totp := by
  unfold linked
  split
  · exact Storage.totp_createAction _
  · rfl

theorem linked_sms (c : Context) (id : String) (isSub : Bool) (s : Storage) :
    (linked c id isSub s).sms = s.sms := by
  unfold linked Storage.createAction
  split
  · split <;> rfl
  · rfl

/-- Whether the second factor is refused is a matter of the sessions and of the numbers. -/
theorem HasSession.congr {s' : Storage} (htotp : s'.totp = s.totp) :
    HasSession c s' ↔ HasSession c s := by
  unfold HasSession
  rw [htotp]

theorem smsIsNumberValid_congr {s' : Storage} (hsms : s'.sms = s.sms) (number userName : String) :
    s'.smsIsNumberValid svc number userName = s.smsIsNumberValid svc number userName := by
  unfold Storage.smsIsNumberValid
  rw [hsms]

theorem RefusesMfa.congr {s' : Storage} (htotp : s'.totp = s.totp) (hsms : s'.sms = s.sms)
    (h : RefusesMfa svc c s asked found) : RefusesMfa svc c s' asked found := by
  have hnumber (number userName : String) :
      s'.smsIsNumberValid svc number userName = s.smsIsNumberValid svc number userName :=
    smsIsNumberValid_congr hsms number userName
  cases h with
  | unknown h hunknown => exact .unknown h hunknown
  | smsOff h hoff => exact .smsOff h hoff
  | mailOff h hoff => exact .mailOff h hoff
  | noNumber h hall =>
    exact .noNumber h fun first rest hfirst ↦ (hnumber _ _).trans (hall first rest hfirst)
  | noSession h hsecret hnone => exact .noSession h hsecret (mt (HasSession.congr htotp).mp hnone)

/-- So is what it becomes. -/
theorem Chooses.congr {s' : Storage} (htotp : s'.totp = s.totp) (hsms : s'.sms = s.sms)
    {e : UserLoginLoginExtensions} (h : Chooses svc c s asked found e) :
    Chooses svc c s' asked found e := by
  cases h with
  | kept h => exact .kept h
  | off h => exact .off h
  | email h => exact .email h
  | sms h hmobiles hvalid =>
    exact .sms h hmobiles ((smsIsNumberValid_congr hsms _ _).trans hvalid)
  | oldSecret h hset => exact .oldSecret h hset
  | newSecret h hempty hlookup hripe => exact .newSecret h hempty (htotp ▸ hlookup) hripe

/-- How the record is made, and what that leaves. -/
theorem wp_editRecord {Q : UserInfo → Storage → Prop} {E : Response → Storage → Prop}
    (hstops : (∀ asked, ¬ PassesEdits svc isSub c asked found) → ∀ e, E e s)
    (hrefused : ∀ asked, PassesEdits svc isSub c asked found →
      RefusesMfa svc c s asked found → ∀ e, e.refused = true → E e (linked c found.id isSub s))
    (hkept : ∀ asked, PassesEdits svc isSub c asked found → ¬ RefusesMfa svc c s asked found →
      ¬ UsesSession c s asked found → ∀ u, u.id = found.id →
        Chooses svc c s asked found u.userTypeProprietaryInfo →
          Q u (linked c found.id isSub s))
    (hused : ∀ asked, PassesEdits svc isSub c asked found → UsesSession c s asked found →
      ∀ u, u.id = found.id → Chooses svc c s asked found u.userTypeProprietaryInfo →
        Q u { linked c found.id isSub s with totp := s.totp.erase c.caller.id }) :
    Command.wp (editRecord svc c found isSub) Q E s := by
  have htotp := linked_totp c found.id isSub s
  have hsms := linked_sms c found.id isSub s
  -- from the second factor on
  have hmfa {asked : UserInfo} (hpasses : PassesEdits svc isSub c asked found) (v : UserInfo)
      (hsame : SameFactor found v) (f : UserInfo → UserInfo) (hf : ∀ w, SameFactor w (f w)) :
      Command.wp (UserHandler.applyMfaChange svc c.moment c.caller asked
        ((c.request.body.parsed.getD []).has "userTypeProprietaryInfo") v)
        (fun w s' ↦ Q (f w) s') E (linked c found.id isSub s) := by
    -- the record is the one that is found, with the second factor that is chosen
    have hid {w : UserInfo} (hw : w.id = v.id) : (f w).id = found.id :=
      (hf w).id.trans (hw.trans hsame.id)
    have hchosen {w : UserInfo} (h : Chooses svc c (linked c found.id isSub s) asked found
        w.userTypeProprietaryInfo) :
        Chooses svc c s asked found (f w).userTypeProprietaryInfo :=
      (hf w).factor ▸ h.congr htotp.symm hsms.symm
    refine wp_applyMfaChange_cases hsame (fun h ↦ hrefused asked hpasses (h.congr htotp.symm hsms.symm))
      (fun h h' w hw hfactor ↦ hkept asked hpasses (mt (RefusesMfa.congr htotp hsms) h)
        (fun hu ↦ h' ?_) _ (hid hw) (hchosen hfactor)) (fun h w hw hfactor ↦ ?_)
    · exact ⟨hu.asks, hu.secret, (HasSession.congr htotp).mpr hu.session⟩
    · have hq := hused asked hpasses ⟨h.asks, h.secret, (HasSession.congr htotp).mp h.session⟩ (f w)
        (hid hw) (hchosen hfactor)
      rw [htotp]
      exact hq
  have hlink (v : UserInfo) (hid : v.id = found.id) : linked c found.id isSub s =
      if c.request.getParameter "email_verification" == "true" then
        s.createAction (verificationLink c.moment v.id isSub) else s := by
    rw [hid]
    rfl
  -- from the verification of the address on
  have hverified {asked : UserInfo} (hpasses : PassesEdits svc isSub c asked found) (u : UserInfo)
      (hsame : SameFactor found u) (f : UserInfo → UserInfo) (hf : ∀ w, SameFactor w (f w)) :
      ((c.request.getParameter "email_verification" == "true") = true →
        Command.wp (UserHandler.applyMfaChange svc c.moment c.caller asked
          ((c.request.body.parsed.getD []).has "userTypeProprietaryInfo")
          { u with waitingForEmailCheck := true, validated := false })
          (fun w s' ↦ Q (f w) s') E (s.createAction (verificationLink c.moment u.id isSub))) ∧
      (¬ (c.request.getParameter "email_verification" == "true") = true →
        Command.wp (UserHandler.applyMfaChange svc c.moment c.caller asked
          ((c.request.body.parsed.getD []).has "userTypeProprietaryInfo") u)
          (fun w s' ↦ Q (f w) s') E s) := by
    have hrest (v : UserInfo) (hsame : SameFactor found v) := hmfa hpasses v hsame f hf
    rw [hlink u hsame.id] at hrest
    refine ⟨fun hverify ↦ ?_, fun hverify ↦ ?_⟩
    · rw [if_pos hverify] at hrest
      exact hrest { u with waitingForEmailCheck := true, validated := false } ⟨hsame.id, hsame.factor⟩
    · rw [if_neg hverify] at hrest
      exact hrest u hsame
  cases isSub with
  | false =>
    unfold editRecord UserHandler.editFromBody
    simp only [Command.wp_bind, Command.wp_ensure, Command.wp_orStop, Command.wp_lift,
      Command.wp_ite, Command.wp_pure]
    refine ⟨fun asked hasked ↦ ⟨fun valid hpayload ↦ ⟨fun hvalid ↦ ⟨fun hfields ↦ ⟨fun u hu ↦ ?_,
      fun e he ↦ hstops (fun _ h ↦ ?_) e⟩, fun hfields ↦ hstops (fun _ h ↦ ?_) _⟩,
      fun hinvalid ↦ hstops (fun _ h ↦ ?_) _⟩, fun e he ↦ hstops (fun _ h ↦ ?_) e⟩,
      fun hnone ↦ hstops (fun _ h ↦ ?_) _⟩
    · subst hvalid
      obtain ⟨v, w, x, hv, hw, hx, hlast⟩ := UserHandler.edits_of_applyBody hu
      have hsame : SameFactor found u := sameFactor_of_edits hv hw hx hlast
      have hpasses : PassesEdits svc false c asked found := ⟨hasked, hpayload, hfields, u, hu⟩
      exact hverified hpasses u hsame (fun w ↦ { w with modified := c.moment.now })
        fun _ ↦ ⟨rfl, rfl⟩
    · obtain ⟨u, hu⟩ := UserHandler.PassesEdits.edits h
      rw [he] at hu
      cases hu
    · exact absurd (hfields.symm.trans (UserHandler.PassesEdits.fields h)) Bool.noConfusion
    · rw [UserHandler.PassesEdits.payload h] at hpayload
      cases hpayload
      cases hinvalid
    · rw [UserHandler.PassesEdits.payload h] at he
      cases he
    · rw [UserHandler.PassesEdits.parsed h] at hnone
      cases hnone
  | true =>
    unfold editRecord SubUserHandler.editFromBody
    simp only [Command.wp_bind, Command.wp_ensure, Command.wp_orStop, Command.wp_lift,
      Command.wp_ite, Command.wp_pure]
    refine ⟨fun asked hasked ↦ ⟨fun role hrole ↦ ⟨fun hvalid ↦ ⟨fun u hu ↦ ?_,
      fun e he ↦ hstops (fun _ h ↦ ?_) e⟩, fun hinvalid ↦ hstops (fun _ h ↦ ?_) _⟩,
      fun e he ↦ hstops (fun _ h ↦ ?_) e⟩, fun hnone ↦ hstops (fun _ h ↦ ?_) _⟩
    · obtain ⟨v, w, x, hv, hw, hx, hlast⟩ := SubUserHandler.edits_of_applyBody hu
      have hsame : SameFactor found u := sameFactor_of_edits hv hw hx hlast
      have hpasses : PassesEdits svc true c asked found := ⟨hasked, ⟨role, hrole, hvalid⟩, u, hu⟩
      exact hverified hpasses u hsame (fun w ↦ w) .refl
    · obtain ⟨u, hu⟩ := SubUserHandler.PassesEdits.edits h
      rw [he] at hu
      cases hu
    · obtain ⟨role', hrole', hvalid⟩ := SubUserHandler.PassesEdits.role h
      rw [hrole] at hrole'
      cases hrole'
      exact absurd (hinvalid.symm.trans hvalid) Bool.noConfusion
    · obtain ⟨role', hrole', -⟩ := SubUserHandler.PassesEdits.role h
      rw [he] at hrole'
      cases hrole'
    · rw [SubUserHandler.PassesEdits.parsed h] at hnone
      cases hnone

end Edits

end RestApi

end OwSec
