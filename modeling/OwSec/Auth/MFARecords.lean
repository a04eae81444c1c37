import OwSec.Kit.Run
import OwSec.RestApi.RecordRequests

/-!
# Records with a second factor

The second factor of a record is a switch, a method, a list of numbers and a secret, and four
writers set them one by one: the updates of the two handlers, the reset, and the choice of a
subscriber.  Whatever the bodies of the requests, an enabled second factor comes with what its
method needs: a verified first number for text messages, a secret for an authenticator.

Two readers rely on it.  The handler of the second factor reads the first number without a look
at the length of the list, and a challenge by text message goes to the first number.
-/

namespace OwSec

open SecurityObjects Kit RestApi

namespace MFARecords

variable (svc : Service)

/-- An enabled second factor has a known method and what that method needs. -/
structure WellFormed (info : UserLoginLoginExtensions) : Prop where
  method : info.mfa.enabled = true → info.mfa.method ∈ ["sms", "email", "authenticator"]
  number : info.mfa.enabled = true → info.mfa.method = "sms" →
    ∃ first rest, info.mobiles = first :: rest ∧ first.verified = true
  secret : info.mfa.enabled = true → info.mfa.method = "authenticator" →
    info.authenticatorSecret ≠ ""

/-- `SendChallenge` with the read of the first number as in the source: it fails where the list
is empty. -/
def sendChallenge? (services : Messaging) (uInfo : UserInfoAndPolicy) (method challenge : String) :
    Option Bool :=
  if method == MFAMETHODS.SMS && services.smsEnabled &&
      !uInfo.userinfo.userTypeProprietaryInfo.mobiles.isEmpty then
    uInfo.userinfo.userTypeProprietaryInfo.mobiles.head?.map fun first ↦
      services.sendSMS first.number ("This is your login code: " ++ challenge ++
        " Please enter this in your login screen.")
  else some (services.sendChallenge uInfo method challenge)

/-! ## Runs -/

/-- What happens in one step. -/
inductive Event
  | request (q : RecordRequest)
  /-- Anything else: it brings no new record and no new enrolment. -/
  | elsewhere

/-- One step. -/
inductive Step : Storage → Event → Storage → Prop
  | request {s : Storage} (q : RecordRequest) : Step s (.request q) (q.run svc s)
  | elsewhere {s s' : Storage} (h : s.NoNews s') : Step s .elsewhere s'

/-- Runs start with the second factor off everywhere, and without enrolments. -/
def system : System Storage Event where
  init s := (∀ isSub, ∀ u ∈ (s.population isSub).records,
    u.userTypeProprietaryInfo.mfa.enabled = false) ∧ s.totp = ∅
  step := Step svc

/-! ## The invariant -/

/-- A second factor that is off needs nothing. -/
theorem WellFormed.of_disabled {info : UserLoginLoginExtensions} (h : info.mfa.enabled = false) :
    WellFormed info := by
  constructor
  all_goals
    intro henabled
    rw [h] at henabled
    cases henabled

/-- The e-mail needs nothing. -/
theorem WellFormed.of_email {info : UserLoginLoginExtensions} (h : info.mfa.method = "email") :
    WellFormed info where
  method _ := by simp [h]
  number _ hsms := absurd (h.symm.trans hsms) (by decide)
  secret _ htotp := absurd (h.symm.trans htotp) (by decide)

/-- Text messages need a verified first number. -/
theorem WellFormed.of_sms {info : UserLoginLoginExtensions} (h : info.mfa.method = "sms")
    {first : MobilePhoneNumber} {rest : List MobilePhoneNumber}
    (hmobiles : info.mobiles = first :: rest) (hverified : first.verified = true) :
    WellFormed info where
  method _ := by simp [h]
  number _ _ := ⟨first, rest, hmobiles, hverified⟩
  secret _ htotp := absurd (h.symm.trans htotp) (by decide)

/-- An authenticator needs a secret. -/
theorem WellFormed.of_authenticator {info : UserLoginLoginExtensions}
    (h : info.mfa.method = "authenticator") (hsecret : info.authenticatorSecret ≠ "") :
    WellFormed info where
  method _ := by simp [h]
  number _ hsms := absurd (h.symm.trans hsms) (by decide)
  secret _ _ := hsecret

/-- Records are well formed, and enrolments have secrets. -/
def invariant : RecordInvariant where
  record _ u := WellFormed u.userTypeProprietaryInfo
  enrolment _ e := e.secret ≠ ""
  insensitive _ u v hcore h := by
    rw [show v.userTypeProprietaryInfo = u.userTypeProprietaryInfo from
      congrArg RecordCore.userTypeProprietaryInfo hcore]
    exact h

variable {svc} {s s' : Storage}

theorem keptByPassword (isSub : Bool) (salt : String) (allowed : String → Prop) :
    KeptByPassword svc invariant isSub salt allowed := by
  intro u v password hu _ hset
  rw [setPassword_applied svc hset]
  exact hu

/-- Each way to change the second factor sets what its method needs. -/
theorem keptByMfa (isSub : Bool) (now : ℕ) (caller : UserInfo) (asked : UserLoginLoginExtensions)
    (found : UserInfo) : KeptByMfa invariant isSub now caller asked found where
  off _ _ _ := .of_disabled rfl
  email _ _ _ := .of_email rfl
  sms _ _ _ _ _ := .of_sms rfl rfl rfl
  oldSecret _ _ _ hold := .of_authenticator rfl hold
  newSecret _ _ _ _ _ _ _ henrolment _ := .of_authenticator rfl henrolment

theorem keptByUpdate (isSub : Bool) (c : Context) (s : Storage) :
    KeptByUpdate svc invariant isSub c s where
  password := keptByPassword isSub _ _
  mfa _ found _ := keptByMfa isSub _ _ _ found
  reset _ _ := .of_disabled rfl

/-- A record is created without a second factor. -/
theorem keptByCreation (isSub : Bool) (m : Moment) (body : UserInfo) :
    KeptByCreation svc invariant isSub m body := by
  intro new hnew
  refine .of_disabled ?_
  rw [Population.newRecord_factor, hnew.noMfa]

/-- The choices of a subscriber. -/
theorem keptByChoice : SubMfaHandler.KeptByChoice invariant where
  default := .of_disabled rfl
  disabled _ _ := .of_disabled rfl
  byEmail _ _ := .of_email rfl
  bySms _ _ _ := .of_sms rfl rfl rfl

/-- Enrolments have secrets from the start. -/
theorem keptByEnrolment (source : TotpSource) (subscriber : Bool) (now : ℕ) (caller : UserInfo) :
    TotpHandlers.KeptByEnrolment invariant source subscriber now caller where
  start := source.generateSecret_ne_empty (by decide)
  firstCode _ _ he _ := he
  secondCode _ he _ := he

/-- Every request makes only edits that keep the invariant. -/
theorem kept (q : RecordRequest) (s : Storage) : q.Kept svc invariant s := by
  cases q with
  | rest e internal env r =>
    intro c _
    cases e with
    | user =>
      exact ⟨fun _ body _ ↦ keptByCreation false _ body, fun _ ↦ ⟨fun _ _ hu _ ↦ hu, keptByUpdate false _ _⟩⟩
    | subuser =>
      exact ⟨fun _ body _ ↦ keptByCreation true _ body,
        fun _ ↦ ⟨fun _ _ _ _ hu _ ↦ hu, keptByUpdate true _ _⟩⟩
    | signup => exact fun _ _ _ _ ↦ .of_disabled rfl
    | submfa => exact fun _ ↦ keptByChoice
    | totp => exact keptByEnrolment _ false _ _
    | subtotp => exact keptByEnrolment _ true _ _
  | login isSub x _ _ => exact fun _ _ _ _ ↦ keptByPassword isSub _ _
  | link x _ =>
    exact fun _ _ _ _ hup hu ↦ kept_of_updates hup (fun isSub ↦ keptByPassword isSub _ _)
      (keptByPassword true _ _) hu

/-- A step keeps the invariant. -/
theorem satisfies_step {e : Event} (h : s.Satisfies invariant) (hs : Step svc s e s') :
    s'.Satisfies invariant := by
  cases hs with
  | request q => exact RecordRequest.satisfies_run h (kept q s)
  | elsewhere hno => exact h.noNews hno

/-- The invariant holds in every reachable state. -/
theorem satisfies_reachable (h : (system svc).Reachable s) : s.Satisfies invariant := by
  refine h.invariant (I := fun s ↦ s.Satisfies invariant) (fun s₀ hs ↦ ?_)
    fun _ _ _ hi hs ↦ satisfies_step hi hs
  obtain ⟨hoff, htotp⟩ := hs
  refine ⟨fun isSub u hu ↦ .of_disabled (hoff isSub u hu), fun id e he ↦ ?_⟩
  rw [htotp] at he
  cases he

/-! ## The two readers -/

/-- What the handler of the second factor reads is there. -/
theorem doGet_ne_uncaught (h : s.Satisfies invariant) (c : Context) :
    (answer (SubMfaHandler.doGet svc c) s).1 ≠ .uncaught := by
  refine answer_of_wp (P := fun r _ ↦ r ≠ .uncaught) ?_
  unfold SubMfaHandler.doGet SubMfaHandler.configOf
  simp only [Command.wp_bind, Command.wp_orStop, Command.wp_pure, Command.wp_ite]
  refine wp_lookupById h fun o s₁ _ ho _ ↦ ⟨fun u hu ↦ ?_, fun _ ↦ by simp⟩
  refine ⟨fun henabled ↦ ⟨fun hsms ↦ ⟨by simp, fun hnone ↦ ?_⟩, by simp⟩, by simp⟩
  obtain ⟨first, rest, hmobiles, -⟩ := (ho u hu).number henabled (by simpa using hsms)
  rw [hmobiles] at hnone
  cases hnone

/-- What a challenge reads is there. -/
theorem sendChallenge?_eq (services : Messaging) (uInfo : UserInfoAndPolicy)
    (method challenge : String) :
    sendChallenge? services uInfo method challenge =
      some (services.sendChallenge uInfo method challenge) := by
  unfold sendChallenge?
  split
  · rename_i hsms
    unfold Messaging.sendChallenge
    rw [if_pos hsms]
    rcases hmobiles : uInfo.userinfo.userTypeProprietaryInfo.mobiles with _ | ⟨first, rest⟩
    · simp [hmobiles] at hsms
    · rfl
  · rfl

end MFARecords

open MFARecords

/-- In every run that starts with the second factor off everywhere, each record of the two tables
has what its second factor needs; so the handler of the second factor and a challenge find the
number that they read. -/
theorem MFARecords.wellFormed_of_reachable {svc : Service} {s : Storage}
    (h : (system svc).Reachable s) :
    (∀ isSub, ∀ u ∈ (s.population isSub).users.rows, WellFormed u.userTypeProprietaryInfo) ∧
      (∀ h m r c, (answer (SubMfaHandler.doGet svc c) (authenticate svc h m r s).2).1 ≠ .uncaught) ∧
      ∀ services uInfo method challenge, sendChallenge? services uInfo method challenge =
        some (services.sendChallenge uInfo method challenge) := by
  have hsatisfies := satisfies_reachable h
  exact ⟨fun isSub u hu ↦ hsatisfies.records isSub u (.inl hu),
    fun h m r c ↦ doGet_ne_uncaught (hsatisfies.authenticate h m r) c, sendChallenge?_eq⟩

/-! ## A subscriber who chooses text messages

The number is validated with the code that was sent to it. -/

namespace MFARecords

/-- A service with text messages. -/
def sampleService : Service := { Service.sample with smsEnabled := true }

/-- A subscriber with a token. -/
def sampleSubscriber : Storage where
  sub :=
    { users := { rows := [{ id := "sub-1", email := "sub@example.com", userRole := .SUBSCRIBER }]
                 nodup := List.nodup_singleton _ }
      tokens :=
        { rows := { rows := [{ token := "token-sub", userName := "sub-1", expires := 3600 }]
                    nodup := List.nodup_singleton _ } } }

/-- The request of the subscriber for text messages to a number. -/
def sampleChoice (parameters : List (String × String)) : RecordRequest :=
  .rest .submfa false (.sample 100 "a")
    { method := .PUT
      bearer := some "token-sub"
      parameters := parameters
      body := .object [("type", .str "sms"), ("sms", .str "5551234")] }

/-- The storage after the number was validated. -/
def sampleValidated : Storage :=
  (sampleChoice [("completeValidation", "true"), ("challengeCode", "123456")]).run sampleService
    ((sampleChoice [("startValidation", "true")]).run sampleService sampleSubscriber)

theorem init_sampleSubscriber : (system sampleService).init sampleSubscriber := by
  refine ⟨fun isSub u hu ↦ ?_, rfl⟩
  cases isSub with
  | false =>
    rcases hu with hu | ⟨k, hu⟩
    · cases hu
    · cases hu
  | true =>
    rcases hu with hu | ⟨k, hu⟩
    · rw [List.mem_singleton.mp hu]
    · cases hu

theorem reachable_sampleValidated : (system sampleService).Reachable sampleValidated :=
  have hstarted := (System.Reachable.init init_sampleSubscriber).step (Step.request
    (sampleChoice [("startValidation", "true")]))
  hstarted.step (Step.request _)

/-- The subscriber has text messages as second factor, to a verified number. -/
theorem wellFormed_of_reachable_sample :
    (sampleValidated.sub.users.rows.map fun u ↦ u.userTypeProprietaryInfo.mfa.enabled) = [true] ∧
      (∀ isSub, ∀ u ∈ (sampleValidated.population isSub).users.rows,
        WellFormed u.userTypeProprietaryInfo) ∧
      (∀ h m r c, (answer (SubMfaHandler.doGet sampleService c)
        (authenticate sampleService h m r sampleValidated).2).1 ≠ .uncaught) ∧
      ∀ services uInfo method challenge, sendChallenge? services uInfo method challenge =
        some (services.sendChallenge uInfo method challenge) :=
  ⟨by decide, wellFormed_of_reachable reachable_sampleValidated⟩

end MFARecords

end OwSec
