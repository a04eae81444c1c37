import OwSec.Kit.Run
import OwSec.RestApi.SubMfa

/-!
# The validation of phone numbers

`SMSSender` sends a code to a number and keeps an entry, completes the entry when the code
comes back, and is asked whether a number is valid.  Only `StartValidation` clears away
entries that are older than five minutes, `IsNumberValid` looks at the first entry of the
number and the user alone, and `CompleteValidation` marks the first one that has the code.

The theorem is about every run of these calls.  The answers are those of a service that
remembers each entry and its age exactly when the list of entries does not mislead: an
expired entry is not taken for a live one, and no unfinished entry stands before a finished
one.
-/

namespace OwSec

open Kit

/-! ## Entries -/

/-- What identifies an entry of the validation cache. -/
structure SmsTicket where
  number : String
  code : String
  userName : String
  created : ℕ
  deriving DecidableEq

namespace SMSValidationCacheEntry

/-- The ticket of an entry. -/
def ticket (e : SMSValidationCacheEntry) : SmsTicket where
  number := e.number
  code := e.code
  userName := e.userName
  created := e.created

/-- The entry is about a number and a user. -/
def isFor (number userName : String) (e : SMSValidationCacheEntry) : Bool :=
  e.number == number && e.userName == userName

/-- The entry has a code, a number and a user. -/
def fits (number code userName : String) (e : SMSValidationCacheEntry) : Bool :=
  e.code == code && e.number == number && e.userName == userName

end SMSValidationCacheEntry

namespace Storage

variable {number code userName : String} {sms : List SMSValidationCacheEntry}

open SMSValidationCacheEntry (fits)

/-- Without an entry that fits, nothing is marked. -/
theorem validateFirst_none (h : sms.find? (fits number code userName) = none) :
    validateFirst number code userName sms = (false, sms) := by
  induction sms with
  | nil => rfl
  | cons i rest ih =>
    have hi : ¬ fits number code userName i = true :=
      List.find?_eq_none.mp h i List.mem_cons_self
    rw [List.find?_cons_of_neg hi] at h
    simp only [validateFirst, ih h]
    exact if_neg hi

/-- The first entry that fits is marked, where it stands. -/
theorem validateFirst_some {e : SMSValidationCacheEntry}
    (h : sms.find? (fits number code userName) = some e) :
    ∃ before after, sms = before ++ e :: after ∧
      (∀ i ∈ before, i.fits number code userName = false) ∧
      validateFirst number code userName sms =
        (true, before ++ { e with validated := true } :: after) := by
  induction sms with
  | nil => cases h
  | cons i rest ih =>
    by_cases hi : (i.code == code && i.number == number && i.userName == userName) = true
    · have hfits : fits number code userName i = true := hi
      rw [List.find?_cons_of_pos hfits] at h
      obtain rfl := Option.some.inj h
      refine ⟨[], rest, rfl, by simp, ?_⟩
      simp only [validateFirst, hi, if_true]
      rfl
    · have hfits : ¬ fits number code userName i = true := hi
      rw [List.find?_cons_of_neg hfits] at h
      obtain ⟨before, after, hsplit, hbefore, hmark⟩ := ih h
      refine ⟨i :: before, after, by rw [hsplit]; rfl, ?_, ?_⟩
      · rintro j (_ | ⟨_, hj⟩)
        · exact Bool.eq_false_iff.mpr hfits
        · exact hbefore j hj
      · simp only [validateFirst, hmark]
        rw [if_neg hi]
        rfl

end Storage

/-- The entry is at most five minutes old. -/
def SmsTicket.Live (now : ℕ) (t : SmsTicket) : Prop := now ≤ t.created + 300

instance (now : ℕ) (t : SmsTicket) : Decidable (t.Live now) :=
  inferInstanceAs (Decidable (_ ≤ _))

open SMSValidationCacheEntry (isFor fits)

/-! ## Runs -/

/-- What is worth remembering of a call. -/
inductive SmsCall
  /-- `StartValidation` made an entry. -/
  | started (t : SmsTicket)
  /-- `CompleteValidation` marked an entry. -/
  | completed (t : SmsTicket)
  deriving DecidableEq

/-- The service with the calls so far, the latest first. -/
structure SmsValidations where
  storage : Storage := {}
  clock : ℕ := 0
  history : List SmsCall := []

/-- What happens in one step. -/
inductive SmsEvent
  | start (gateway : SmsGateway) (now : ℕ) (number userName : String)
  | complete (now : ℕ) (number code userName : String)
  | ask (now : ℕ) (number userName : String)
  /-- Whatever leaves the validations alone. -/
  | elsewhere

namespace SmsValidations

variable (svc : Service)

/-- `StartValidation`. -/
def start (s : SmsValidations) (gateway : SmsGateway) (now : ℕ) (number userName : String) :
    SmsValidations where
  storage := (s.storage.smsStartValidation svc gateway now number userName).2
  clock := now
  history := .started
    { number := number, code := gateway.challenge, userName := userName, created := now } ::
      s.history

/-- `CompleteValidation`. -/
def complete (s : SmsValidations) (now : ℕ) (number code userName : String) :
    SmsValidations where
  storage := (s.storage.smsCompleteValidation svc number code userName).2
  clock := now
  history :=
    match s.storage.sms.find? (fits number code userName) with
    | some e => .completed e.ticket :: s.history
    | none => s.history

/-- The clock has not gone back. -/
def Ticks (s : SmsValidations) (now : ℕ) : Prop := s.clock ≤ now ∧ now < 2 ^ 64

instance (s : SmsValidations) (now : ℕ) : Decidable (s.Ticks now) :=
  inferInstanceAs (Decidable (_ ∧ _))

/-- One step. -/
inductive Step : SmsValidations → SmsEvent → SmsValidations → Prop
  | start {s : SmsValidations} {now : ℕ} (gateway : SmsGateway) (number userName : String)
    (h : s.Ticks now) :
    Step s (.start gateway now number userName) (s.start svc gateway now number userName)
  | complete {s : SmsValidations} {now : ℕ} (number code userName : String) (h : s.Ticks now) :
    Step s (.complete now number code userName) (s.complete svc now number code userName)
  /-- `IsNumberValid` changes nothing. -/
  | ask {s : SmsValidations} {now : ℕ} (number userName : String) (h : s.Ticks now) :
    Step s (.ask now number userName) { s with clock := now }
  | elsewhere {s : SmsValidations} {storage : Storage} (h : storage.sms = s.storage.sms) :
    Step s .elsewhere { s with storage }

/-- No number is being validated. -/
def AtStart (s : SmsValidations) : Prop := s.storage.sms = [] ∧ s.history = []

/-- The calls as a transition system. -/
def system : System SmsValidations SmsEvent where
  init := AtStart
  step := Step svc

/-! ## The law -/

/-- An entry of the number and the user that is not older than five minutes was completed
with its own code. -/
def Validated (s : SmsValidations) (now : ℕ) (number userName : String) : Prop :=
  ∃ t, .completed t ∈ s.history ∧ t.number = number ∧ t.userName = userName ∧ t.Live now

/-- An entry with the code was made for the number and the user not more than five minutes
ago. -/
def Issued (s : SmsValidations) (now : ℕ) (number code userName : String) : Prop :=
  ∃ t, .started t ∈ s.history ∧ t.number = number ∧ t.code = code ∧ t.userName = userName ∧
    t.Live now

/-- What the calls answer: a number is valid if it was validated and not for longer, a code
completes if it was issued and not long ago, and what was completed is valid. -/
structure AnswersLaw (s : SmsValidations) (now : ℕ) (number code userName : String) :
    Prop where
  valid : s.storage.smsIsNumberValid svc number userName = true ↔
    s.Validated now number userName
  completes : (s.storage.smsCompleteValidation svc number code userName).1 = true ↔
    s.Issued now number code userName
  follows : (s.storage.smsCompleteValidation svc number code userName).1 = true →
    (s.complete svc now number code userName).storage.smsIsNumberValid svc number userName = true

section Misleads

variable (now : ℕ) (number code userName : String) (sms : List SMSValidationCacheEntry)

/-- The first entry of the number and the user was completed, and each that was has
expired. -/
def Stale : Prop :=
  ∃ first, sms.find? (isFor number userName) = some first ∧ first.validated = true ∧
    ∀ e ∈ sms, e.isFor number userName = true → e.validated = true → ¬ e.ticket.Live now

/-- An unfinished entry stands before one that was completed and has not expired. -/
def Shadowed : Prop :=
  ∃ first e, sms.find? (isFor number userName) = some first ∧ first.validated = false ∧
    e ∈ sms ∧ e.isFor number userName = true ∧ e.validated = true ∧ e.ticket.Live now

/-- There are entries with the code, and each of them has expired. -/
def Late : Prop :=
  ∃ e ∈ sms, e.fits number code userName = true ∧
    ∀ e ∈ sms, e.fits number code userName = true → ¬ e.ticket.Live now

/-- An unfinished entry with another code stands before those with the code. -/
def Behind : Prop :=
  ∃ first e, sms.find? (isFor number userName) = some first ∧ first.validated = false ∧
    first.code ≠ code ∧ e ∈ sms ∧ e.fits number code userName = true

/-- How a list of entries can mislead the calls. -/
def Misleads : Prop :=
  Stale now number userName sms ∨ Shadowed now number userName sms ∨
    Late now number code userName sms ∨ Behind number code userName sms

end Misleads

/-! ## The invariant -/

/-- The entries and the history fit together. -/
structure Exact (s : SmsValidations) : Prop where
  before : ∀ e ∈ s.storage.sms, e.created ≤ s.clock
  started : ∀ e ∈ s.storage.sms, .started e.ticket ∈ s.history
  kept : ∀ t, .started t ∈ s.history → t.Live s.clock → ∃ e ∈ s.storage.sms, e.ticket = t
  validated : ∀ e ∈ s.storage.sms, e.validated = true → .completed e.ticket ∈ s.history
  completed : ∀ t, .completed t ∈ s.history → t.Live s.clock →
    ∃ e ∈ s.storage.sms, e.ticket = t ∧ e.validated = true

section Steps

variable {svc} {s s' : SmsValidations}

/-- Making an entry clears away what has expired. -/
theorem sms_start (hsms : svc.smsEnabled = true) (s : SmsValidations) (gateway : SmsGateway)
    (now : ℕ) (number userName : String) :
    (s.start svc gateway now number userName).storage.sms =
      s.storage.sms.filter (fun i ↦ !decide (300 < u64 (now + 2 ^ 64 - i.created))) ++
        [{ number := number, code := gateway.challenge, userName := userName, created := now
           validated := false }] := by
  simp only [start, Storage.smsStartValidation, if_pos hsms]
  rfl

/-- Completing an entry answers and marks what the loop does. -/
theorem smsCompleteValidation_eq (hsms : svc.smsEnabled = true) (storage : Storage)
    (number code userName : String) :
    storage.smsCompleteValidation svc number code userName =
      ((Storage.validateFirst number code userName storage.sms).1,
        { storage with sms := (Storage.validateFirst number code userName storage.sms).2 }) := by
  simp only [Storage.smsCompleteValidation, if_pos hsms]

/-- An entry that has not expired is not cleared away. -/
theorem kept_of_live {now : ℕ} {e : SMSValidationCacheEntry} (hbefore : e.created ≤ now)
    (hfits : now < 2 ^ 64) (hlive : e.ticket.Live now) :
    (!decide (300 < u64 (now + 2 ^ 64 - e.created))) = true := by
  have hage : ¬ 300 < u64 (now + 2 ^ 64 - e.created) := by
    have hlive' : now ≤ e.created + 300 := hlive
    rw [u64_age hbefore hfits]
    omega
  simp only [hage, decide_false, Bool.not_false]

theorem Exact.start (hs : Exact s) (hsms : svc.smsEnabled = true) {now : ℕ} (hnow : s.Ticks now)
    (gateway : SmsGateway) (number userName : String) :
    Exact (s.start svc gateway now number userName) := by
  have hlist := sms_start hsms s gateway now number userName
  -- an entry is new or has been there
  have hmem : ∀ e ∈ (s.start svc gateway now number userName).storage.sms,
      e ∈ s.storage.sms ∨
        e = ⟨number, gateway.challenge, userName, now, false⟩ := by
    intro e he
    rw [hlist, List.mem_append, List.mem_singleton] at he
    exact he.imp_left fun h ↦ (List.mem_filter.mp h).1
  -- what has not expired is still there
  have hstays : ∀ e ∈ s.storage.sms, e.ticket.Live now →
      e ∈ (s.start svc gateway now number userName).storage.sms := by
    intro e he hlive
    rw [hlist]
    have hbefore := (hs.before e he).trans hnow.1
    exact List.mem_append_left _ (List.mem_filter.mpr ⟨he, kept_of_live hbefore hnow.2 hlive⟩)
  have hlater : ∀ t : SmsTicket, t.Live now → t.Live s.clock := fun t h ↦ hnow.1.trans h
  constructor
  case before =>
    intro e he
    rcases hmem e he with hold | rfl
    · exact (hs.before e hold).trans hnow.1
    · exact le_rfl
  case started =>
    intro e he
    rcases hmem e he with hold | rfl
    · exact List.mem_cons_of_mem _ (hs.started e hold)
    · exact List.mem_cons_self
  case kept =>
    intro t ht hlive
    rcases List.mem_cons.mp ht with hnew | hold
    · cases hnew
      exact ⟨_, hlist ▸ List.mem_append_right _ List.mem_cons_self, rfl⟩
    · obtain ⟨e, he, rfl⟩ := hs.kept t hold (hlater t hlive)
      exact ⟨e, hstays e he hlive, rfl⟩
  case validated =>
    intro e he hvalidated
    rcases hmem e he with hold | rfl
    · exact List.mem_cons_of_mem _ (hs.validated e hold hvalidated)
    · cases hvalidated
  case completed =>
    intro t ht hlive
    rcases List.mem_cons.mp ht with hnew | hold
    · cases hnew
    · obtain ⟨e, he, rfl, hvalidated⟩ := hs.completed t hold (hlater t hlive)
      exact ⟨e, hstays e he hlive, rfl, hvalidated⟩

/-- Nothing happens to the entries. -/
theorem Exact.unchanged (hs : Exact s) (hclock : s.clock ≤ s'.clock)
    (hsms : s'.storage.sms = s.storage.sms) (hhistory : s'.history = s.history) : Exact s' where
  before e he := (hs.before e (hsms ▸ he)).trans hclock
  started e he := hhistory ▸ hs.started e (hsms ▸ he)
  kept t ht hlive := hsms ▸ hs.kept t (hhistory ▸ ht) (hclock.trans hlive)
  validated e he hvalidated := hhistory ▸ hs.validated e (hsms ▸ he) hvalidated
  completed t ht hlive := hsms ▸ hs.completed t (hhistory ▸ ht) (hclock.trans hlive)

theorem Exact.complete (hs : Exact s) (hsms : svc.smsEnabled = true) {now : ℕ}
    (hnow : s.Ticks now) (number code userName : String) :
    Exact (s.complete svc now number code userName) := by
  have hlist : (s.complete svc now number code userName).storage.sms =
      (Storage.validateFirst number code userName s.storage.sms).2 :=
    congrArg (fun r ↦ r.2.sms) (smsCompleteValidation_eq hsms s.storage number code userName)
  rcases hfind : s.storage.sms.find? (fits number code userName) with _ | e
  · -- nothing fits
    rw [Storage.validateFirst_none hfind] at hlist
    refine hs.unchanged hnow.1 hlist ?_
    unfold SmsValidations.complete
    rw [hfind]
  · have hhistory : (s.complete svc now number code userName).history =
        .completed e.ticket :: s.history := by
      unfold SmsValidations.complete
      rw [hfind]
    obtain ⟨before, after, hsplit, -, hmark⟩ := Storage.validateFirst_some hfind
    rw [hmark] at hlist
    have he : e ∈ s.storage.sms := hsplit ▸ List.mem_append_right _ List.mem_cons_self
    -- an entry is the marked one or has been there
    have hmem : ∀ x ∈ (s.complete svc now number code userName).storage.sms,
        x ∈ s.storage.sms ∨ x = { e with validated := true } := by
      intro x hx
      rw [hlist, List.mem_append, List.mem_cons] at hx
      rw [hsplit, List.mem_append, List.mem_cons]
      tauto
    -- each entry is still there, and finished if it was
    have hstays : ∀ x ∈ s.storage.sms,
        ∃ x' ∈ (s.complete svc now number code userName).storage.sms,
          x'.ticket = x.ticket ∧ (x.validated = true → x'.validated = true) := by
      intro x hx
      rw [hsplit, List.mem_append, List.mem_cons] at hx
      rw [hlist]
      rcases hx with hx | rfl | hx
      · exact ⟨x, List.mem_append_left _ hx, rfl, id⟩
      · exact ⟨_, List.mem_append_right _ List.mem_cons_self, rfl, fun _ ↦ rfl⟩
      · exact ⟨x, List.mem_append_right _ (List.mem_cons_of_mem _ hx), rfl, id⟩
    constructor
    case before =>
      intro x hx
      rcases hmem x hx with hold | rfl
      · exact (hs.before x hold).trans hnow.1
      · exact (hs.before e he).trans hnow.1
    case started =>
      intro x hx
      rw [hhistory]
      rcases hmem x hx with hold | rfl
      · exact List.mem_cons_of_mem _ (hs.started x hold)
      · exact List.mem_cons_of_mem _ (hs.started e he)
    case kept =>
      intro t ht hlive
      rw [hhistory] at ht
      rcases List.mem_cons.mp ht with hnew | hold
      · cases hnew
      · obtain ⟨x, hx, rfl⟩ := hs.kept t hold (hnow.1.trans hlive)
        obtain ⟨x', hx', hticket, -⟩ := hstays x hx
        exact ⟨x', hx', hticket⟩
    case validated =>
      intro x hx hvalidated
      rw [hhistory]
      rcases hmem x hx with hold | rfl
      · exact List.mem_cons_of_mem _ (hs.validated x hold hvalidated)
      · exact List.mem_cons_self
    case completed =>
      intro t ht hlive
      rw [hhistory] at ht
      rcases List.mem_cons.mp ht with hnew | hold
      · cases hnew
        refine ⟨{ e with validated := true }, ?_, rfl, rfl⟩
        exact hlist ▸ List.mem_append_right _ List.mem_cons_self
      · obtain ⟨x, hx, rfl, hvalidated⟩ := hs.completed t hold (hnow.1.trans hlive)
        obtain ⟨x', hx', hticket, hdone⟩ := hstays x hx
        exact ⟨x', hx', hticket, hdone hvalidated⟩

theorem Exact.atStart (h : AtStart s) : Exact s := by
  obtain ⟨hsms, hhistory⟩ := h
  constructor <;> simp [hsms, hhistory]

/-- One step keeps the invariant. -/
theorem Exact.step (hsms : svc.smsEnabled = true) {event : SmsEvent} (hs : Exact s)
    (h : Step svc s event s') : Exact s' := by
  cases h with
  | start gateway number userName hnow => exact hs.start hsms hnow gateway number userName
  | complete number code userName hnow => exact hs.complete hsms hnow number code userName
  | ask number userName hnow => exact hs.unchanged hnow.1 rfl rfl
  | elsewhere hsame => exact hs.unchanged le_rfl hsame rfl

end Steps

section Answers

variable {svc} {s : SmsValidations} {now : ℕ} {number code userName : String}

/-- What the history says of a number can be read off the entries. -/
theorem Exact.validated_iff (hs : Exact s) (hnow : s.clock ≤ now) :
    s.Validated now number userName ↔
      ∃ e ∈ s.storage.sms, e.isFor number userName = true ∧ e.validated = true ∧
        e.ticket.Live now := by
  constructor
  · rintro ⟨t, ht, hnumber, huser, hlive⟩
    obtain ⟨e, he, rfl, hvalidated⟩ := hs.completed t ht (hnow.trans hlive)
    have hfor : e.isFor number userName = true := by
      rw [isFor, Bool.and_eq_true, beq_iff_eq, beq_iff_eq]
      exact ⟨hnumber, huser⟩
    exact ⟨e, he, hfor, hvalidated, hlive⟩
  · rintro ⟨e, he, hfor, hvalidated, hlive⟩
    rw [isFor, Bool.and_eq_true, beq_iff_eq, beq_iff_eq] at hfor
    exact ⟨e.ticket, hs.validated e he hvalidated, hfor.1, hfor.2, hlive⟩

/-- What the history says of a code can be read off the entries. -/
theorem Exact.issued_iff (hs : Exact s) (hnow : s.clock ≤ now) :
    s.Issued now number code userName ↔
      ∃ e ∈ s.storage.sms, e.fits number code userName = true ∧ e.ticket.Live now := by
  constructor
  · rintro ⟨t, ht, hnumber, hcode, huser, hlive⟩
    obtain ⟨e, he, rfl⟩ := hs.kept t ht (hnow.trans hlive)
    have hfits : e.fits number code userName = true := by
      rw [fits, Bool.and_eq_true, Bool.and_eq_true, beq_iff_eq, beq_iff_eq, beq_iff_eq]
      exact ⟨⟨hcode, hnumber⟩, huser⟩
    exact ⟨e, he, hfits, hlive⟩
  · rintro ⟨e, he, hfits, hlive⟩
    rw [fits, Bool.and_eq_true, Bool.and_eq_true, beq_iff_eq, beq_iff_eq, beq_iff_eq] at hfits
    exact ⟨e.ticket, hs.started e he, hfits.1.2, hfits.1.1, hfits.2, hlive⟩

/-- `IsNumberValid` tells whether the first entry was completed. -/
theorem isNumberValid_iff (hsms : svc.smsEnabled = true) (storage : Storage) :
    storage.smsIsNumberValid svc number userName = true ↔
      ∃ first, storage.sms.find? (isFor number userName) = some first ∧
        first.validated = true := by
  have hdef : storage.smsIsNumberValid svc number userName =
      match storage.sms.find? (isFor number userName) with
      | some i => i.validated
      | none => false := if_pos hsms
  rw [hdef]
  rcases storage.sms.find? (isFor number userName) with _ | first
  · simp
  · simp

/-- `CompleteValidation` finds an entry if one fits. -/
theorem completeValidation_iff (hsms : svc.smsEnabled = true) (storage : Storage) :
    (storage.smsCompleteValidation svc number code userName).1 = true ↔
      ∃ e ∈ storage.sms, e.fits number code userName = true := by
  rw [smsCompleteValidation_eq hsms]
  rcases hfind : storage.sms.find? (fits number code userName) with _ | e
  · rw [Storage.validateFirst_none hfind]
    have hnone := List.find?_eq_none.mp hfind
    constructor
    · rintro ⟨⟩
    · rintro ⟨e, he, hfits⟩
      exact absurd hfits (hnone e he)
  · obtain ⟨before, after, hsplit, -, hmark⟩ := Storage.validateFirst_some hfind
    rw [hmark]
    exact ⟨fun _ ↦ ⟨e, List.mem_of_find?_eq_some hfind, List.find?_some hfind⟩, fun _ ↦ rfl⟩

/-- An entry that fits is one of its number and user. -/
theorem isFor_of_fits {e : SMSValidationCacheEntry} (h : e.fits number code userName = true) :
    e.isFor number userName = true ∧ e.code = code := by
  simp only [fits, isFor, Bool.and_eq_true, beq_iff_eq] at h ⊢
  exact ⟨⟨h.1.2, h.2⟩, h.1.1⟩

/-- The first entry decides unless it is stale or shadows another one. -/
theorem Exact.valid_iff (hs : Exact s) (hnow : s.clock ≤ now) (hsms : svc.smsEnabled = true) :
    (s.storage.smsIsNumberValid svc number userName = true ↔
        s.Validated now number userName) ↔
      ¬ Stale now number userName s.storage.sms ∧
        ¬ Shadowed now number userName s.storage.sms := by
  rw [isNumberValid_iff hsms, hs.validated_iff hnow]
  constructor
  · intro h
    constructor
    · rintro ⟨first, hfirst, hvalidated, hexpired⟩
      obtain ⟨e, he, hfor, hdone, hlive⟩ := h.mp ⟨first, hfirst, hvalidated⟩
      exact hexpired e he hfor hdone hlive
    · rintro ⟨first, e, hfirst, hvalidated, he, hfor, hdone, hlive⟩
      obtain ⟨first', hfirst', hvalidated'⟩ := h.mpr ⟨e, he, hfor, hdone, hlive⟩
      obtain rfl := Option.some.inj (hfirst.symm.trans hfirst')
      exact Bool.false_ne_true (hvalidated.symm.trans hvalidated')
  · rintro ⟨hstale, hshadowed⟩
    constructor
    · rintro ⟨first, hfirst, hvalidated⟩
      by_contra hnone
      refine hstale ⟨first, hfirst, hvalidated, fun e he hfor hdone hlive ↦ ?_⟩
      exact hnone ⟨e, he, hfor, hdone, hlive⟩
    · rintro ⟨e, he, hfor, hdone, hlive⟩
      rcases hfirst : s.storage.sms.find? (isFor number userName) with _ | first
      · exact absurd hfor (List.find?_eq_none.mp hfirst e he)
      · refine ⟨first, rfl, ?_⟩
        by_contra hvalidated
        exact hshadowed
          ⟨first, e, hfirst, Bool.eq_false_iff.mpr hvalidated, he, hfor, hdone, hlive⟩

/-- A code completes an entry that is alive unless each one that fits has expired. -/
theorem Exact.completion_iff (hs : Exact s) (hnow : s.clock ≤ now)
    (hsms : svc.smsEnabled = true) :
    ((s.storage.smsCompleteValidation svc number code userName).1 = true ↔
        s.Issued now number code userName) ↔
      ¬ Late now number code userName s.storage.sms := by
  rw [completeValidation_iff hsms, hs.issued_iff hnow]
  constructor
  · rintro h ⟨e, he, hfits, hexpired⟩
    obtain ⟨e', he', hfits', hlive⟩ := h.mp ⟨e, he, hfits⟩
    exact hexpired e' he' hfits' hlive
  · intro hlate
    constructor
    · rintro ⟨e, he, hfits⟩
      by_contra hnone
      exact hlate ⟨e, he, hfits, fun e' he' hfits' hlive ↦ hnone ⟨e', he', hfits', hlive⟩⟩
    · rintro ⟨e, he, hfits, -⟩
      exact ⟨e, he, hfits⟩

/-- After an entry is marked, the first entry of its number and user is as before, or it is
the marked one. -/
theorem find?_marked {before after : List SMSValidationCacheEntry} {e : SMSValidationCacheEntry}
    (hfor : e.isFor number userName = true) :
    (before ++ { e with validated := true } :: after).find? (isFor number userName) =
      match before.find? (isFor number userName) with
      | some first => some first
      | none => some { e with validated := true } := by
  have hmarked : isFor number userName { e with validated := true } = true := hfor
  rw [List.find?_append, List.find?_cons_of_pos hmarked]
  rcases before.find? (isFor number userName) with _ | first
  · rfl
  · rfl

/-- What was completed is valid unless another entry stands before it. -/
theorem follows_iff (hsms : svc.smsEnabled = true) (s : SmsValidations) (now : ℕ) :
    ((s.storage.smsCompleteValidation svc number code userName).1 = true →
        (s.complete svc now number code userName).storage.smsIsNumberValid svc number
          userName = true) ↔
      ¬ Behind number code userName s.storage.sms := by
  have hlist : (s.complete svc now number code userName).storage.sms =
      (Storage.validateFirst number code userName s.storage.sms).2 :=
    congrArg (fun r ↦ r.2.sms) (smsCompleteValidation_eq hsms s.storage number code userName)
  rw [completeValidation_iff hsms, isNumberValid_iff hsms]
  rcases hfind : s.storage.sms.find? (fits number code userName) with _ | e
  · -- nothing fits
    have hnone := List.find?_eq_none.mp hfind
    constructor
    · rintro - ⟨first, e, -, -, -, he, hfits⟩
      exact hnone e he hfits
    · rintro - ⟨e, he, hfits⟩
      exact absurd hfits (hnone e he)
  · obtain ⟨before, after, hsplit, hbefore, hmark⟩ := Storage.validateFirst_some hfind
    have he : e ∈ s.storage.sms := List.mem_of_find?_eq_some hfind
    have hfits : e.fits number code userName = true := List.find?_some hfind
    obtain ⟨hfor, hcode⟩ := isFor_of_fits hfits
    have hfirst : s.storage.sms.find? (isFor number userName) =
        match before.find? (isFor number userName) with
        | some first => some first
        | none => some e := by
      rw [hsplit, List.find?_append, List.find?_cons_of_pos hfor]
      rcases before.find? (isFor number userName) with _ | first
      · rfl
      · rfl
    rw [hlist, hmark, find?_marked hfor, Behind, hfirst]
    rcases hfront : before.find? (isFor number userName) with _ | front
    · -- the marked entry is the first one
      constructor
      · rintro - ⟨first, -, hsame, -, hne, -, -⟩
        obtain rfl := Option.some.inj hsame
        exact hne hcode
      · exact fun _ _ ↦ ⟨_, rfl, rfl⟩
    · -- an entry before it has another code
      have hne : front.code ≠ code := by
        intro hsame
        have hnot := hbefore front (List.mem_of_find?_eq_some hfront)
        have hfrontFor : front.isFor number userName = true := List.find?_some hfront
        simp only [isFor, fits, Bool.and_eq_true, beq_iff_eq, Bool.eq_false_iff, ne_eq]
          at hfrontFor hnot
        exact hnot ⟨⟨hsame, hfrontFor.1⟩, hfrontFor.2⟩
      constructor
      · rintro hvalid ⟨first, -, hsame, hvalidated, -, -, -⟩
        obtain rfl := Option.some.inj hsame
        obtain ⟨first', hsame', hvalidated'⟩ := hvalid ⟨e, he, hfits⟩
        obtain rfl := Option.some.inj hsame'
        exact Bool.false_ne_true (hvalidated.symm.trans hvalidated')
      · intro hnot _
        refine ⟨front, rfl, ?_⟩
        by_contra hvalidated
        exact hnot ⟨front, e, rfl, Bool.eq_false_iff.mpr hvalidated, hne, he, hfits⟩

end Answers

variable {svc} in
/-- In every run the calls answer as the law says exactly when the entries do not mislead
them. -/
theorem answersLaw_iff (hsms : svc.smsEnabled = true) {s : SmsValidations}
    (h : (system svc).Reachable s) {now : ℕ} (hnow : s.Ticks now)
    (number code userName : String) :
    AnswersLaw svc s now number code userName ↔
      ¬ Misleads now number code userName s.storage.sms := by
  have hs : Exact s :=
    h.invariant (fun _ h₀ ↦ .atStart h₀) (fun _ _ _ hs hstep ↦ hs.step hsms hstep)
  rw [Misleads, not_or, not_or, not_or, ← and_assoc, ← hs.valid_iff hnow.1 hsms,
    ← hs.completion_iff hnow.1 hsms, ← follows_iff hsms s now]
  constructor
  · exact fun hlaw ↦ ⟨hlaw.valid, hlaw.completes, hlaw.follows⟩
  · exact fun ⟨hvalid, hcompletes, hfollows⟩ ↦ ⟨hvalid, hcompletes, hfollows⟩

/-! ## Two runs -/

/-- A service that can send messages. -/
def sampleSender : Service := { Service.sample with smsEnabled := true }

/-- A gateway that draws a code. -/
def sampleGateway (challenge : String) : SmsGateway where
  challenge := challenge
  send _ _ := true

/-- A user asks for a code and sends it back. -/
def sampleCompleted : SmsValidations :=
  (({} : SmsValidations).start sampleSender (sampleGateway "111111") 100 "+15550100"
    "jo@example.com").complete sampleSender 110 "+15550100" "111111" "jo@example.com"

theorem atStart_empty : AtStart {} := ⟨rfl, rfl⟩

theorem reachable_sampleCompleted : (system sampleSender).Reachable sampleCompleted :=
  ((System.Reachable.init atStart_empty).step (Step.start _ _ _ (by decide))).step
    (Step.complete _ _ _ (by decide))

/-- The statement for that run. -/
theorem answersLaw_iff_sample :
    AnswersLaw sampleSender sampleCompleted 120 "+15550100" "111111" "jo@example.com" ↔
      ¬ Misleads 120 "+15550100" "111111" "jo@example.com" sampleCompleted.storage.sms :=
  answersLaw_iff rfl reachable_sampleCompleted (by decide) _ _ _

/-- A user asks for a second code. -/
def sampleTwice : SmsValidations :=
  (({} : SmsValidations).start sampleSender (sampleGateway "111111") 100 "+15550100"
    "jo@example.com").start sampleSender (sampleGateway "222222") 110 "+15550100"
    "jo@example.com"

/-- The second code completes, and the number is not valid. -/
theorem completed_number_not_valid : ¬ ∀ (s : SmsValidations) (now : ℕ)
    (number code userName : String), (system sampleSender).Reachable s → s.Ticks now →
      AnswersLaw sampleSender s now number code userName := by
  intro hall
  have hreachable : (system sampleSender).Reachable sampleTwice :=
    ((System.Reachable.init atStart_empty).step (Step.start _ _ _ (by decide))).step
      (Step.start _ _ _ (by decide))
  have hlaw := hall sampleTwice 120 "+15550100" "222222" "jo@example.com" hreachable (by decide)
  exact absurd (hlaw.follows (by decide)) (by decide)

end SmsValidations

end OwSec
