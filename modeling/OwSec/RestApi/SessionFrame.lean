import OwSec.RestApi.RecordRequests

/-!
# Whose session a request touches

The sessions in which authenticators are enrolled are kept by the identifier of the caller.  The
two end points of the enrolment work on the session of the caller, the updates of records may
take it over, and no other operation looks at the sessions at all.  So whatever a request does,
the sessions of everybody but its caller are left alone.

The phone numbers that are being validated lie beside the sessions, and of these requests only
the choice of a second factor by a subscriber touches them.
-/

namespace OwSec

open SecurityObjects Kit RestApi

variable {svc : Service} {s : Storage}

/-! ## The operations of the storage -/

namespace Storage

@[simp] theorem totp_setPopulation (isSub : Bool) (p : Population) :
    (s.setPopulation isSub p).totp = s.totp := by
  cases isSub <;> rfl

@[simp] theorem totp_onPopulation {α : Type} (isSub : Bool) (f : Population → α × Population) :
    (s.onPopulation isSub f).2.totp = s.totp := totp_setPopulation _ _

@[simp] theorem totp_createAction (a : ActionLink) : (s.createAction a).totp = s.totp := by
  unfold createAction
  split <;> rfl

@[simp] theorem totp_modifyAction (id : String) (f : ActionLink → ActionLink) :
    (s.modifyAction id f).totp = s.totp := by
  unfold modifyAction
  split
  · split <;> rfl
  · rfl

@[simp] theorem totp_removeAllApiKeys (id : String) : (s.removeAllApiKeys svc id).totp = s.totp :=
  rfl

@[simp] theorem totp_verifyEmailWith (action : LinkActions) (userAction : Bool) (now : ℕ)
    (linkId : String) (u : UserInfo) :
    (verifyEmailWith action userAction now linkId s u).2.totp = s.totp := totp_createAction _

@[simp] theorem totp_smsStartValidation (gateway : SmsGateway) (now : ℕ)
    (number userName : String) :
    (s.smsStartValidation svc gateway now number userName).2.totp = s.totp := by
  unfold smsStartValidation
  split <;> rfl

@[simp] theorem totp_smsCompleteValidation (number code userName : String) :
    (s.smsCompleteValidation svc number code userName).2.totp = s.totp := by
  unfold smsCompleteValidation
  split <;> rfl

@[simp] theorem sms_setPopulation (isSub : Bool) (p : Population) :
    (s.setPopulation isSub p).sms = s.sms := by
  cases isSub <;> rfl

@[simp] theorem sms_onPopulation {α : Type} (isSub : Bool) (f : Population → α × Population) :
    (s.onPopulation isSub f).2.sms = s.sms := sms_setPopulation _ _

@[simp] theorem sms_createAction (a : ActionLink) : (s.createAction a).sms = s.sms := by
  unfold createAction
  split <;> rfl

@[simp] theorem sms_modifyAction (id : String) (f : ActionLink → ActionLink) :
    (s.modifyAction id f).sms = s.sms := by
  unfold modifyAction
  split
  · split <;> rfl
  · rfl

@[simp] theorem sms_removeAllApiKeys (id : String) : (s.removeAllApiKeys svc id).sms = s.sms :=
  rfl

@[simp] theorem sms_verifyEmailWith (action : LinkActions) (userAction : Bool) (now : ℕ)
    (linkId : String) (u : UserInfo) :
    (verifyEmailWith action userAction now linkId s u).2.sms = s.sms := sms_createAction _

theorem sms_totpStartValidation (lib : TotpLibrary) (now : ℕ) (secret : String) (u : UserInfo)
    (subscriber reset : Bool) :
    (s.totpStartValidation lib now secret u subscriber reset).2.sms = s.sms := by
  unfold totpStartValidation
  repeat' split
  all_goals rfl

/-- The authentication of a request does not look at what lies beside the tables. -/
theorem aside_authenticate (h : Handler) (m : Moment) (r : Request) :
    (authenticate svc h m r s).2.totp = s.totp ∧ (authenticate svc h m r s).2.sms = s.sms := by
  refine authenticate_rule svc (P := fun s' ↦ s'.totp = s.totp ∧ s'.sms = s.sms) ⟨rfl, rfl⟩
    (fun id ↦ ?_) (fun s' id k hsame ↦ ?_) fun token ↦ ?_
  · exact ⟨rfl, rfl⟩
  · unfold updateApiKey
    split <;> exact hsame
  · exact ⟨totp_setPopulation _ _, sms_setPopulation _ _⟩

@[simp] theorem totp_authenticate (h : Handler) (m : Moment) (r : Request) :
    (authenticate svc h m r s).2.totp = s.totp := (aside_authenticate h m r).1

@[simp] theorem sms_authenticate (h : Handler) (m : Moment) (r : Request) :
    (authenticate svc h m r s).2.sms = s.sms := (aside_authenticate h m r).2

end Storage

namespace RestApi

/-- The sessions of others are as before. -/
def Elsewhere (id : String) (t t' : Cache String TotpEntry) : Prop :=
  ∀ k, k ≠ id → t'.lookup k = t.lookup k

@[simp] theorem Elsewhere.refl (id : String) (t : Cache String TotpEntry) : Elsewhere id t t :=
  fun _ _ ↦ rfl

theorem Elsewhere.insert (id : String) (t : Cache String TotpEntry) (e : TotpEntry) :
    Elsewhere id t (t.insert id e) := by
  intro k hk
  rw [Cache.lookup_insert_eq, if_neg hk]

theorem Elsewhere.erase (id : String) (t : Cache String TotpEntry) :
    Elsewhere id t (t.erase id) := by
  intro k hk
  rw [Cache.lookup_erase_eq, if_neg hk]

/-- Whatever the command does to the sessions `t`, it does to that of `id`, and it does nothing
to the numbers `m`. -/
abbrev Leaves (id : String) (t : Cache String TotpEntry) (m : List SMSValidationCacheEntry)
    {α : Type} (d : Handling α) (s : Storage) : Prop :=
  Command.wp d (fun _ s' ↦ Elsewhere id t s'.totp ∧ s'.sms = m)
    (fun _ s' ↦ Elsewhere id t s'.totp ∧ s'.sms = m) s

variable {c : Context} {id k : String} {existing : UserInfo}

/-! ## Users -/

namespace UserHandler

theorem leaves_doGet : Leaves id s.totp s.sms (doGet svc c) s := by
  simp [doGet, getUserByEmail, getUserById]

theorem leaves_doDelete : Leaves id s.totp s.sms (doDelete svc c) s := by
  simp [doDelete, getUserById]

theorem leaves_doPost : Leaves id s.totp s.sms (doPost svc c) s := by
  simp [doPost, getUserByEmail, createUser, verifyEmail, Storage.verifyEmail, updateUserInfo]

theorem leaves_handleResetMFA (c : Context) (k : String) (existing : UserInfo) :
    Leaves id s.totp s.sms (handleResetMFA svc c k existing) s := by
  simp [handleResetMFA, updateUserInfo, buildUpdatedUserResponse, getUserById]

/-- A change of the second factor takes over the session of the caller at most. -/
theorem leaves_applyMfaChange {m : Moment} {caller newUser : UserInfo} {has : Bool} :
    Leaves caller.id s.totp s.sms (applyMfaChange svc m caller newUser has existing) s := by
  have htake : Elsewhere caller.id s.totp
        (s.totpCompleteValidation m.now caller.id false).2.totp ∧
      (s.totpCompleteValidation m.now caller.id false).2.sms = s.sms := by
    rcases ripe_or_completeValidation m.now s caller.id false with ⟨e, he, hripe⟩ | hnone
    · rw [hripe.completeValidation he]
      exact ⟨.erase _ _, rfl⟩
    · rw [hnone]
      exact ⟨.refl _ _, rfl⟩
  unfold applyMfaChange
  simp only [Command.wp_bind, Command.wp_ensure, Command.wp_pure, Command.wp_ite, Command.wp_act,
    Command.wp_orStop, Elsewhere.refl, implies_true, and_true, true_and]
  refine fun _ _ _ _ _ ↦ ⟨fun _ ↦ ?_, fun _ _ _ ↦ ⟨fun _ _ ↦ htake, fun _ ↦ htake⟩⟩
  rcases newUser.userTypeProprietaryInfo.mobiles with _ | ⟨first, rest⟩
  · exact ⟨.refl _ _, rfl⟩
  · simp

theorem leaves_updateFromBody (c : Context) (k : String) (existing : UserInfo) :
    Leaves c.caller.id s.totp s.sms (updateFromBody svc c k existing) s := by
  have hmfa {asked u : UserInfo} {has : Bool} {s' : Storage} (htotp : s'.totp = s.totp)
      (hsms : s'.sms = s.sms) :
      Leaves c.caller.id s.totp s.sms (applyMfaChange svc c.moment c.caller asked has u) s' := by
    rw [← htotp, ← hsms]
    exact leaves_applyMfaChange
  unfold Leaves updateFromBody
  simp only [Command.wp_bind, Command.wp_ensure, Command.wp_orStop, Command.wp_lift,
    Elsewhere.refl, implies_true, and_true]
  intro asked _ _ _ _ _ u _
  simp only [Command.wp_ite, Command.wp_bind, Command.wp_pure, Command.wp_ensure, verifyEmail,
    Storage.verifyEmail, Command.wp_act]
  refine ⟨fun _ ↦ Command.wp_mono
      (hmfa (Storage.totp_createAction _) (Storage.sms_createAction _)) ?_ fun _ _ h ↦ h,
    fun _ ↦ Command.wp_mono (hmfa rfl rfl) ?_ fun _ _ h ↦ h⟩
  all_goals
    intro w s₁ h₁
    simp [updateUserInfo, buildUpdatedUserResponse, getUserById, h₁]

theorem leaves_doPut : Leaves c.caller.id s.totp s.sms (doPut svc c) s := by
  have hreset {found : UserInfo} {s' : Storage} (htotp : s'.totp = s.totp)
      (hsms : s'.sms = s.sms) : Leaves c.caller.id s.totp s.sms
        (handleResetMFA svc c (c.request.getBinding "id") found) s' := by
    rw [← htotp, ← hsms]
    exact leaves_handleResetMFA c _ found
  have hbody {found : UserInfo} {s' : Storage} (htotp : s'.totp = s.totp)
      (hsms : s'.sms = s.sms) : Leaves c.caller.id s.totp s.sms
        (updateFromBody svc c (c.request.getBinding "id") found) s' := by
    rw [← htotp, ← hsms]
    exact leaves_updateFromBody c _ found
  simp [doPut, getUserById, handleForgotPassword, hreset, hbody]

end UserHandler

/-! ## Subscribers -/

namespace SubUserHandler

theorem leaves_doGet : Leaves id s.totp s.sms (doGet svc c) s := by
  simp [doGet, UserHandler.getUserByEmail, getUserById]

theorem leaves_doDelete : Leaves id s.totp s.sms (doDelete svc c) s := by
  simp [doDelete, getUserById]

theorem leaves_doPost : Leaves id s.totp s.sms (doPost svc c) s := by
  simp [doPost, UserHandler.getUserByEmail, createUser, reportCreated, verifySubEmail,
    Storage.verifySubEmail, updateUserInfo]

theorem leaves_updateFromBody (c : Context) (k : String) (existing : UserInfo) :
    Leaves c.caller.id s.totp s.sms (updateFromBody svc c k existing) s := by
  have hmfa {asked u : UserInfo} {has : Bool} {s' : Storage} (htotp : s'.totp = s.totp)
      (hsms : s'.sms = s.sms) : Leaves c.caller.id s.totp s.sms
        (UserHandler.applyMfaChange svc c.moment c.caller asked has u) s' := by
    rw [← htotp, ← hsms]
    exact UserHandler.leaves_applyMfaChange
  unfold Leaves updateFromBody editFromBody
  simp only [Command.wp_bind, Command.wp_ensure, Command.wp_orStop, Command.wp_lift,
    Elsewhere.refl, implies_true, and_true]
  intro asked _ _ _ _ u _
  simp only [Command.wp_ite, Command.wp_bind, Command.wp_pure, verifySubEmail,
    Storage.verifySubEmail, Command.wp_act]
  refine ⟨fun _ ↦ Command.wp_mono
      (hmfa (Storage.totp_createAction _) (Storage.sms_createAction _)) ?_ fun _ _ h ↦ h,
    fun _ ↦ Command.wp_mono (hmfa rfl rfl) ?_ fun _ _ h ↦ h⟩
  all_goals
    intro w s₁ h₁
    simp [updateUserInfo, getUserById, h₁]

theorem leaves_doPut : Leaves c.caller.id s.totp s.sms (doPut svc c) s := by
  have hbody {found : UserInfo} {s' : Storage} (htotp : s'.totp = s.totp)
      (hsms : s'.sms = s.sms) : Leaves c.caller.id s.totp s.sms
        (updateFromBody svc c (c.request.getBinding "id") found) s' := by
    rw [← htotp, ← hsms]
    exact leaves_updateFromBody c _ found
  simp [doPut, modify, getUserById, handleForgotPassword, handleResetMFA,
    UserHandler.getUserByEmail, updateUserInfo, hbody]

end SubUserHandler

/-! ## The other end points -/

theorem SignupHandler.leaves_doPost : Leaves id s.totp s.sms (doPost svc c) s := by
  simp only [doPost, UserHandler.getUserByEmail, Command.wp_bind, Command.wp_ensure,
    Command.wp_act, Elsewhere.refl, implies_true, and_true]
  intro _ _
  split
  · simp [resendTo, SubUserHandler.updateUserInfo]
  · simp [createRecord]

theorem SubMfaHandler.leaves_doGet : Leaves id s.totp s.sms (doGet svc c) s := by
  simp [doGet, configOf, SubUserHandler.getUserById]

/-- The choice of a subscriber may validate a number, and touches no session. -/
theorem SubMfaHandler.elsewhere_doPut {gateway : SmsGateway} :
    Command.wp (doPut svc gateway c) (fun _ s' ↦ Elsewhere id s.totp s'.totp)
      (fun _ s' ↦ Elsewhere id s.totp s'.totp) s := by
  simp [doPut, putSms, editOwn, SubUserHandler.getUserById, SubUserHandler.updateUserInfo]

namespace TotpHandlers

variable {source : TotpSource} {subscriber : Bool}

theorem leaves_doGet : Leaves c.caller.id s.totp s.sms (doGet source subscriber c) s := by
  simp only [doGet, Command.wp_bind, Command.wp_act, Command.wp_pure,
    Storage.totpStartValidation_totp]
  refine ⟨?_, Storage.sms_totpStartValidation _ _ _ _ _ _⟩
  split
  · exact .insert _ _ _
  · exact .refl _ _

theorem leaves_doPut : Leaves c.caller.id s.totp s.sms (doPut source subscriber c) s := by
  simp only [doPut, Command.wp_bind, Command.wp_act, Command.wp_orStop, Elsewhere.refl,
    implies_true, and_true]
  intro nextIndex _
  have hcases := s.totpContinueValidation_cases source.lib c.moment.now c.caller subscriber
    (c.request.getParameter "value") nextIndex
  generalize s.totpContinueValidation source.lib c.moment.now c.caller subscriber
    (c.request.getParameter "value") nextIndex = result at hcases ⊢
  cases hcases with
  | first e => exact ⟨.insert _ _ _, rfl⟩
  | second e => exact ⟨.insert _ _ _, rfl⟩
  | refused => exact ⟨.refl _ _, rfl⟩

end TotpHandlers

/-- A method of an end point touches the session of the caller alone, and numbers only where a
subscriber chooses a second factor. -/
theorem EndPoint.leaves_dispatch {env : Surroundings} (internal : Bool) (e : EndPoint)
    {N : List SMSValidationCacheEntry → Prop} (hsame : N s.sms)
    (hany : e = .submfa → ∀ m, N m) :
    Command.wp (dispatch (e.handler svc env internal) c)
      (fun _ s' ↦ Elsewhere c.caller.id s.totp s'.totp ∧ N s'.sms)
      (fun _ s' ↦ Elsewhere c.caller.id s.totp s'.totp ∧ N s'.sms) s := by
  have hquiet {d : Handling Response} (h : Leaves c.caller.id s.totp s.sms d s) : Command.wp d
      (fun _ s' ↦ Elsewhere c.caller.id s.totp s'.totp ∧ N s'.sms)
      (fun _ s' ↦ Elsewhere c.caller.id s.totp s'.totp ∧ N s'.sms) s :=
    Command.wp_mono h (fun _ _ h ↦ ⟨h.1, h.2 ▸ hsame⟩) fun _ _ h ↦ ⟨h.1, h.2 ▸ hsame⟩
  have hother (a : Response) : Leaves c.caller.id s.totp s.sms (pure a) s := ⟨.refl _ _, rfl⟩
  cases e <;> cases hm : c.request.method <;> unfold dispatch <;> simp only [hm]
  case user.GET => exact hquiet UserHandler.leaves_doGet
  case user.POST => exact hquiet UserHandler.leaves_doPost
  case user.PUT => exact hquiet UserHandler.leaves_doPut
  case user.DELETE => exact hquiet UserHandler.leaves_doDelete
  case subuser.GET => exact hquiet SubUserHandler.leaves_doGet
  case subuser.POST => exact hquiet SubUserHandler.leaves_doPost
  case subuser.PUT => exact hquiet SubUserHandler.leaves_doPut
  case subuser.DELETE => exact hquiet SubUserHandler.leaves_doDelete
  case signup.POST => exact hquiet SignupHandler.leaves_doPost
  case submfa.GET => exact hquiet SubMfaHandler.leaves_doGet
  case submfa.PUT =>
    exact Command.wp_mono SubMfaHandler.elsewhere_doPut (fun _ s' h ↦ ⟨h, hany rfl s'.sms⟩)
      fun _ s' h ↦ ⟨h, hany rfl s'.sms⟩
  case totp.GET | subtotp.GET => exact hquiet TotpHandlers.leaves_doGet
  case totp.PUT | subtotp.PUT => exact hquiet TotpHandlers.leaves_doPut
  all_goals exact hquiet (hother _)

/-- A request behind a link touches no session and no number. -/
theorem LinkContext.aside_handle (x : LinkContext) (req : LinkRequest) :
    (x.handle s req).2.totp = s.totp ∧ (x.handle s req).2.sms = s.sms := by
  rcases x.handle_effect (s := s) req with ⟨link, userAction, u, u', -, heq⟩ | h
  · have hlooked := x.looked_findUser s userAction link.userId
    rw [heq]
    unfold updatedStorage Storage.completeAction LinkContext.updateUser
    rw [Storage.totp_modifyAction, Storage.totp_onPopulation, Storage.sms_modifyAction,
      Storage.sms_onPopulation]
    exact ⟨hlooked.totp, hlooked.sms⟩
  · generalize (x.handle s req).2 = s' at h ⊢
    cases h with
    | looked h => exact ⟨h.totp, h.sms⟩
    | cancelled => exact ⟨Storage.totp_modifyAction _ _, Storage.sms_modifyAction _ _⟩

/-- A login touches no session and no number. -/
theorem LoginContext.aside_doPostWith (x : LoginContext) (isSub : Bool) (r : Request)
    (state : LoginState) :
    (x.doPostWith isSub r state).2.storage.totp = state.storage.totp ∧
      (x.doPostWith isSub r state).2.storage.sms = state.storage.sms := by
  refine x.doPostWith_rule isSub
    (P := fun s ↦ s.totp = state.storage.totp ∧ s.sms = state.storage.sms) ⟨rfl, rfl⟩
    (fun callToken refreshToken ↦ ?_) (fun userId ↦ ?_) (fun s link hsame ↦ ?_)
    fun userId password newPassword _ ↦ ?_
  · exact ⟨Storage.totp_onPopulation _ _, Storage.sms_onPopulation _ _⟩
  · exact ⟨Storage.totp_onPopulation _ _, Storage.sms_onPopulation _ _⟩
  · rw [Storage.totp_createAction, Storage.sms_createAction]
    exact hsame
  · exact ⟨Storage.totp_onPopulation _ _, Storage.sms_onPopulation _ _⟩

/-- The caller of a request over REST, if it is let through. -/
def RecordRequest.callerId (svc : Service) (s : Storage) : RecordRequest → Option String
  | .rest e internal env r =>
    (authenticate svc (e.handler svc env internal) env.moment r s).1.granted.map fun g ↦
      g.1.userinfo.id
  | _ => none

/-- Nobody touches the session of somebody else. -/
theorem RecordRequest.session_kept {q : RecordRequest} {id : String}
    (h : q.callerId svc s ≠ some id) : (q.run svc s).totp.lookup id = s.totp.lookup id := by
  cases q with
  | rest e internal env r =>
    refine handleRequest_rule svc _ env.moment env.rateExceeded r
      (P := fun _ s' ↦ s'.totp.lookup id = s.totp.lookup id) (fun c _ hgranted _ _ _ ↦ ?_) ?_
    · have hne : id ≠ c.caller.id := by
        rintro rfl
        exact h (congrArg (Option.map fun g : UserInfoAndPolicy × String ↦ g.1.userinfo.id)
          hgranted)
      have htotp : (authenticate svc (e.handler svc env internal) env.moment r s).2.totp =
          s.totp := Storage.totp_authenticate _ _ _
      refine Command.wp_mono
        (EndPoint.leaves_dispatch internal e (N := fun _ ↦ True) trivial fun _ _ ↦ trivial) ?_ ?_
      all_goals
        rintro _ s' ⟨hs', -⟩
        rw [hs' id hne, htotp]
    · rintro _ s' - (rfl | rfl)
      · rfl
      · rw [Storage.totp_authenticate]
  | login isSub x challenges r =>
    exact congrArg (AList.lookup id) (LoginContext.aside_doPostWith { x with svc } isSub r _).1
  | link x req => exact congrArg (AList.lookup id) (LinkContext.aside_handle { x with svc } req).1

/-- Only where a subscriber chooses a second factor is a number touched. -/
theorem RecordRequest.numbers_kept {q : RecordRequest}
    (h : ∀ internal env r, q ≠ .rest .submfa internal env r) : (q.run svc s).sms = s.sms := by
  cases q with
  | rest e internal env r =>
    refine handleRequest_rule svc _ env.moment env.rateExceeded r (P := fun _ s' ↦ s'.sms = s.sms)
      (fun c _ _ _ _ _ ↦ ?_) ?_
    · have hsms : (authenticate svc (e.handler svc env internal) env.moment r s).2.sms = s.sms :=
        Storage.sms_authenticate _ _ _
      refine Command.wp_mono (EndPoint.leaves_dispatch internal e (N := fun m ↦ m = s.sms) hsms ?_)
        (fun _ _ h' ↦ h'.2) fun _ _ h' ↦ h'.2
      rintro rfl
      exact absurd rfl (h internal env r)
    · rintro _ s' - (rfl | rfl)
      · rfl
      · rw [Storage.sms_authenticate]
  | login isSub x challenges r => exact (LoginContext.aside_doPostWith { x with svc } isSub r _).2
  | link x req => exact (LinkContext.aside_handle { x with svc } req).2

end RestApi

end OwSec
