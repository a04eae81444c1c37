import OwSec.Framework.Numerals
import OwSec.RestApi.Handler

/-!
# Reading query parameters

The typed accessors of `RESTAPIHandler` for query parameters, on decoded parameters: any names,
any values, any repeats.  Each of them looks for the first parameter of the name.  What a value
denotes as a number is decided by `is_number`, which all but one of the accessors ask; the
conversion itself is that of the C++ library, which raises an exception of its own where the
number does not fit, and which `HasParameter` for numbers calls on any text.

`handleRequest` catches the exceptions of the library Poco only.
-/

namespace OwSec

open SecurityObjects Kit

namespace RestApi

/-- An exception that leaves an accessor. -/
inductive Thrown
  | poco
  | invalidArgument
  | outOfRange
  deriving DecidableEq, Repr

/-- `catch (const Poco::Exception &E)` in `handleRequest`. -/
def Thrown.caught : Thrown → Bool
  | .poco => true
  | _ => false

/-- `std::stoull` on any text: a negative number wraps. -/
def stoullAny (s : String) : Except Thrown ℕ :=
  match numeralOf s with
  | none => .error .invalidArgument
  | some (negative, n) =>
    if n < 2 ^ 64 then .ok (if negative then u64 (2 ^ 64 - n) else n) else .error .outOfRange

namespace Request

variable (r : Request)

/-- `HasParameter(Name, Value)` for texts: the answer, and what is in `Value` afterwards. -/
def hasParameter (name value : String) : Bool × String :=
  match r.parameter? name with
  | some text => (true, text)
  | none => (false, value)

/-- `HasParameter(Name, Value)` for numbers. -/
def hasNumberParameter (name : String) (value : ℕ) : Except Thrown (Bool × ℕ) :=
  match r.parameter? name with
  | some text => (stoullAny text).map fun n ↦ (true, n)
  | none => .ok (false, value)

/-- The number that a text denotes. -/
def numeral? (text : String) : Option ℕ :=
  if isNumber text then some (digitsValue text.toList) else none

/-- The truth value that a text denotes. -/
def boolean? (text : String) : Option Bool :=
  if text == "true" || text == "false" then some (text == "true") else none

/-- The number that the first parameter of a name denotes. -/
def number? (name : String) : Option ℕ := (r.parameter? name).bind numeral?

end Request

/-- A use of an accessor, and the reading of the query block. -/
inductive Accessor
  /-- `GetParameter(Name, Default)` for numbers. -/
  | number (name : String) (default : ℕ)
  /-- `GetBoolParameter(Name, Default)`. -/
  | bool (name : String) (default : Bool)
  /-- `GetParameter(Name, Default)` for texts. -/
  | text (name default : String)
  /-- `HasParameter(Name, Value)` for texts, with what is in `Value` before. -/
  | hasText (name value : String)
  /-- `HasParameter(Name, Value)` for numbers. -/
  | hasNumber (name : String) (value : ℕ)
  /-- `ParseParameters`. -/
  | queryBlock

/-- What accessors return. -/
inductive Accessed
  | number (n : ℕ)
  | bool (b : Bool)
  | text (s : String)
  | hasText (found : Bool) (value : String)
  | hasNumber (found : Bool) (value : ℕ)
  | queryBlock (q : QueryBlock)
  deriving DecidableEq, Repr

namespace Accessor

variable (r : Request)

/-- What the code does: a failing `GetParameter` fails for a number that does not fit. -/
def run : Accessor → Except Thrown Accessed
  | .number name default =>
    match r.getNumberParameter name default with
    | some n => .ok (.number n)
    | none => .error .outOfRange
  | .bool name default => .ok (.bool (r.getBoolParameter name default))
  | .text name default => .ok (.text (r.getParameter name default))
  | .hasText name value =>
    .ok (.hasText (r.hasParameter name value).1 (r.hasParameter name value).2)
  | .hasNumber name value =>
    (r.hasNumberParameter name value).map fun found ↦ .hasNumber found.1 found.2
  | .queryBlock =>
    match initQueryBlock r with
    | some q => .ok (.queryBlock q)
    | none => .error .outOfRange

/-- What the first parameter of the name denotes, or the default. -/
def denoted : Accessor → Accessed
  | .number name default => .number ((r.number? name).getD default)
  | .bool name default => .bool (((r.parameter? name).bind Request.boolean?).getD default)
  | .text name default => .text ((r.parameter? name).getD default)
  | .hasText name value => .hasText (r.parameter? name).isSome ((r.parameter? name).getD value)
  | .hasNumber name value => .hasNumber (r.number? name).isSome ((r.number? name).getD value)
  | .queryBlock =>
    .queryBlock {
      startDate := (r.number? "startDate").getD 0
      endDate := (r.number? "endDate").getD 0
      offset := (r.number? "offset").getD 0
      limit := (r.number? "limit").getD 100
      logType := (r.number? "logType").getD 0
      serialNumber := (r.parameter? "serialNumber").getD ""
      filter := (r.parameter? "filter").getD ""
      select := tokenize ',' ((r.parameter? "select").getD "")
      lifetime := ((r.parameter? "lifetime").bind Request.boolean?).getD false
      lastOnly := ((r.parameter? "lastOnly").bind Request.boolean?).getD false
      newest := ((r.parameter? "newest").bind Request.boolean?).getD false
      countOnly := ((r.parameter? "countOnly").bind Request.boolean?).getD false
      additionalInfo := ((r.parameter? "withExtendedInfo").bind Request.boolean?).getD false }

/-- The accessor returns what is denoted, or raises an exception that is answered. -/
def Lawful (a : Accessor) : Prop :=
  match a.run r with
  | .ok accessed => accessed = a.denoted r
  | .error thrown => thrown.caught = true

/-- The first parameter of the name, if it is a number, fits into 64 bits. -/
def NumberFits (name : String) : Prop := ∀ n, r.number? name = some n → n < 2 ^ 64

/-- Where an accessor may be used. -/
def Safe : Accessor → Prop
  | .number name _ => NumberFits r name
  | .hasNumber name _ => NumberFits r name ∧ ((r.parameter? name).isSome → (r.number? name).isSome)
  | .queryBlock => ∀ name ∈ ["startDate", "endDate", "offset", "limit", "logType"], NumberFits r name
  | _ => True

/-! ## The accessors one by one -/

section Lawful

variable {r : Request} {name : String}

theorem numberFits_of_none (h : r.number? name = none) : NumberFits r name := by
  intro n hn
  rw [h] at hn
  cases hn

theorem getNumberParameter_of_fits (h : NumberFits r name) (default : ℕ) :
    r.getNumberParameter name default = some ((r.number? name).getD default) := by
  unfold NumberFits at h
  unfold Request.getNumberParameter
  unfold Request.number? at h ⊢
  rcases hvalue : r.parameter? name with _ | text
  · rfl
  · rw [hvalue, Option.bind_some] at h
    simp only [Option.bind_some, Request.numeral?] at h ⊢
    by_cases hnumber : Request.isNumber text = true
    · rw [if_pos hnumber] at h
      rw [if_pos hnumber, if_pos hnumber]
      exact if_pos (h _ rfl)
    · rw [if_neg hnumber, if_neg hnumber]
      rfl

theorem getNumberParameter_of_not_fits (h : ¬ NumberFits r name) (default : ℕ) :
    r.getNumberParameter name default = none := by
  unfold NumberFits at h
  push Not at h
  obtain ⟨n, hn, hlarge⟩ := h
  obtain ⟨text, hvalue, hnumeral⟩ := Option.bind_eq_some_iff.mp hn
  unfold Request.numeral? at hnumeral
  split at hnumeral
  · rename_i hnumber
    cases hnumeral
    unfold Request.getNumberParameter
    rw [hvalue]
    simp only
    rw [if_pos hnumber]
    exact if_neg (Nat.not_lt.mpr hlarge)
  · cases hnumeral

theorem getBoolParameter_eq (default : Bool) :
    r.getBoolParameter name default =
      ((r.parameter? name).bind Request.boolean?).getD default := by
  unfold Request.getBoolParameter
  rcases r.parameter? name with _ | text
  · rfl
  · simp only [Option.bind_some, Request.boolean?]
    split <;> rfl

/-- A text of digits is read as the number it stands for. -/
theorem stoullAny_of_isNumber {text : String} (h : Request.isNumber text = true) :
    stoullAny text =
      if digitsValue text.toList < 2 ^ 64 then .ok (digitsValue text.toList)
      else .error .outOfRange := by
  simp only [Request.isNumber, Bool.and_eq_true, Bool.not_eq_true', List.all_eq_true] at h
  have hne : text ≠ "" := by
    rintro rfl
    cases h.1
  simp only [stoullAny, numeralOf_of_digits hne h.2, Bool.false_eq_true, if_false]

/-- The texts and the truth values of the query block never fail; its numbers fail one by one. -/
theorem initQueryBlock_of_fits
    (h : ∀ name ∈ ["startDate", "endDate", "offset", "limit", "logType"], NumberFits r name) :
    (initQueryBlock r).map Accessed.queryBlock = some (Accessor.queryBlock.denoted r) := by
  simp only [List.forall_mem_cons] at h
  obtain ⟨hstart, hend, hoffset, hlimit, hlog, -⟩ := h
  simp only [initQueryBlock, getNumberParameter_of_fits hstart, getNumberParameter_of_fits hend,
    getNumberParameter_of_fits hoffset, getNumberParameter_of_fits hlimit,
    getNumberParameter_of_fits hlog, Option.bind_eq_bind, Option.bind_some, Option.pure_def,
    Option.map_some, denoted, getBoolParameter_eq, Request.getParameter]

theorem numberFits_of_getNumberParameter {default n : ℕ}
    (h : r.getNumberParameter name default = some n) : NumberFits r name := by
  by_contra hlarge
  rw [getNumberParameter_of_not_fits hlarge] at h
  cases h

theorem initQueryBlock_of_not_fits
    (h : ¬ ∀ name ∈ ["startDate", "endDate", "offset", "limit", "logType"], NumberFits r name) :
    initQueryBlock r = none := by
  rcases hq : initQueryBlock r with _ | q
  · rfl
  refine absurd ?_ h
  simp only [initQueryBlock, Option.bind_eq_bind, Option.bind_eq_some_iff] at hq
  obtain ⟨_, hstart, _, hend, _, hoffset, _, hlimit, _, hlog, -⟩ := hq
  simp only [List.forall_mem_cons]
  exact ⟨numberFits_of_getNumberParameter hstart, numberFits_of_getNumberParameter hend,
    numberFits_of_getNumberParameter hoffset, numberFits_of_getNumberParameter hlimit,
    numberFits_of_getNumberParameter hlog, fun _ hmem ↦ absurd hmem List.not_mem_nil⟩

/-! ## All accessors -/

theorem lawful_number_iff (default : ℕ) :
    (Accessor.number name default).Lawful r ↔ NumberFits r name := by
  unfold Lawful run
  by_cases hfits : NumberFits r name
  · simp only [getNumberParameter_of_fits hfits, denoted, hfits]
  · simp only [getNumberParameter_of_not_fits hfits, hfits, Thrown.caught, Bool.false_eq_true]

theorem lawful_queryBlock_iff : Accessor.queryBlock.Lawful r ↔ Accessor.queryBlock.Safe r := by
  unfold Lawful run Safe
  by_cases hfits : ∀ name ∈ ["startDate", "endDate", "offset", "limit", "logType"], NumberFits r name
  · have hq := initQueryBlock_of_fits hfits
    obtain ⟨q, hblock, hdenoted⟩ := Option.map_eq_some_iff.mp hq
    simp only [hblock, hdenoted, true_iff]
    exact hfits
  · simp only [initQueryBlock_of_not_fits hfits, Thrown.caught, Bool.false_eq_true, false_iff]
    exact hfits

theorem not_lawful_of_error {a : Accessor} {thrown : Thrown} (h : a.run r = .error thrown)
    (hescapes : thrown.caught = false) : ¬ a.Lawful r := by
  unfold Lawful
  rw [h]
  exact Bool.eq_false_iff.mp hescapes

theorem not_caught_of_stoullAny {text : String} {thrown : Thrown}
    (h : stoullAny text = .error thrown) : thrown.caught = false := by
  unfold stoullAny at h
  split at h
  · cases h
    rfl
  · split at h
    · cases h
    · cases h
      rfl

theorem number?_of_some {text : String} (hvalue : r.parameter? name = some text) :
    r.number? name = Request.numeral? text := by
  rw [Request.number?, hvalue, Option.bind_some]

theorem lawful_hasNumber_of_none (hvalue : r.parameter? name = none) (value : ℕ) :
    (Accessor.hasNumber name value).Lawful r := by
  have hnone : r.number? name = none := by
    rw [Request.number?, hvalue, Option.bind_none]
  simp only [Lawful, run, Request.hasNumberParameter, hvalue, Except.map, denoted, hnone,
    Option.isSome_none, Option.getD_none]

theorem run_hasNumber_of_some {text : String} (hvalue : r.parameter? name = some text)
    (value : ℕ) :
    (Accessor.hasNumber name value).run r = (stoullAny text).map (Accessed.hasNumber true) := by
  simp only [run, Request.hasNumberParameter, hvalue]
  cases stoullAny text <;> rfl

/-- The conversion is not guarded here, so a text that is no number is read all the same: it
fails, or some number is found in it. -/
theorem lawful_hasNumber_iff (value : ℕ) :
    (Accessor.hasNumber name value).Lawful r ↔ (Accessor.hasNumber name value).Safe r := by
  rcases hvalue : r.parameter? name with _ | text
  · refine iff_of_true (lawful_hasNumber_of_none hvalue value) ⟨numberFits_of_none ?_, ?_⟩
    · rw [Request.number?, hvalue, Option.bind_none]
    · intro h
      rw [hvalue] at h
      cases h
  · have hnumber := number?_of_some hvalue
    simp only [Lawful, Safe, NumberFits, run_hasNumber_of_some hvalue, denoted, hvalue, hnumber,
      Request.numeral?, Option.isSome_some, true_imp_iff]
    by_cases hdigits : Request.isNumber text = true
    · rw [stoullAny_of_isNumber hdigits, if_pos hdigits]
      by_cases hfits : digitsValue text.toList < 2 ^ 64
      · rw [if_pos hfits]
        refine iff_of_true rfl ⟨?_, rfl⟩
        intro n hn
        cases hn
        exact hfits
      · rw [if_neg hfits]
        exact iff_of_false Bool.false_ne_true fun h ↦ hfits (h.1 _ rfl)
    · rw [if_neg hdigits]
      refine iff_of_false ?_ fun h ↦ Bool.false_ne_true h.2
      rcases hread : stoullAny text with thrown | n
      · exact Bool.eq_false_iff.mp (not_caught_of_stoullAny hread)
      · simp [Except.map]

/-- Every accessor, on every list of parameters. -/
theorem lawful_iff_safe (r : Request) (a : Accessor) : a.Lawful r ↔ a.Safe r := by
  cases a with
  | number name default => exact lawful_number_iff default
  | bool name default =>
    refine iff_of_true ?_ trivial
    simp only [Lawful, run, denoted, getBoolParameter_eq]
  | text name default => exact iff_of_true rfl trivial
  | hasText name value =>
    refine iff_of_true ?_ trivial
    simp only [Lawful, run, denoted, Request.hasParameter]
    cases r.parameter? name <;> rfl
  | hasNumber name value => exact lawful_hasNumber_iff value
  | queryBlock => exact lawful_queryBlock_iff

/-- A number above 64 bits in the query block, and one for `HasParameter`, which takes a word for
a number besides. -/
theorem numbers_escape :
    Accessor.queryBlock.run { parameters := [("limit", "18446744073709551616")] } =
      .error .outOfRange ∧
    (Accessor.number "limit" 100).run { parameters := [("limit", "18446744073709551616")] } =
      .error .outOfRange ∧
    (Accessor.hasNumber "limit" 100).run { parameters := [("limit", "all")] } =
      .error .invalidArgument ∧
    ¬ ∀ (r : Request) (a : Accessor), a.Lawful r := by
  have hnumber :
      (Accessor.hasNumber "limit" 100).run { parameters := [("limit", "all")] } =
        .error .invalidArgument := by
    decide
  exact ⟨by decide, by decide, hnumber, fun h ↦ not_lawful_of_error hnumber rfl (h _ _)⟩

end Lawful

end Accessor

/-! ## The query block in `handleRequest` -/

section QueryBlock

variable {svc : Service} {h : Handler} {m : Moment} {rateExceeded : Bool} {r : Request}
variable {s s' : Storage} {c : Context}

/-- A method that runs sees the query block that the parameters denote. -/
theorem queryBlock_of_accepted (hacc : acceptRequest svc h m rateExceeded r s = (.ok c, s')) :
    Accessor.queryBlock.Safe r ∧
      Accessor.queryBlock.denoted r = .queryBlock c.queryBlock := by
  obtain ⟨_, _, _, _, _, _, hq⟩ := acceptRequest_eq_ok_iff svc h m rateExceeded r |>.mp hacc
  by_cases hfits : Accessor.queryBlock.Safe r
  · have hdenoted := Accessor.initQueryBlock_of_fits hfits
    rw [hq, Option.map_some] at hdenoted
    exact ⟨hfits, (Option.some.inj hdenoted).symm⟩
  · rw [Accessor.initQueryBlock_of_not_fits hfits] at hq
    cases hq

/-- Where the query block fails, the exception leaves `handleRequest`, for any caller and before
any method. -/
theorem handleRequest_of_unsafe (hbody : r.body.wellFormed = true)
    (hrate : (!(h.rateLimited && rateExceeded)) = true) (hmethod : r.method ≠ .OPTIONS)
    (hlisted : h.methods.contains r.method = true)
    (hgranted : (authenticate svc h m r s).1.granted.isSome = true)
    (hlarge : ¬ Accessor.queryBlock.Safe r) :
    (handleRequest svc h m rateExceeded r s).1 = .uncaught := by
  have hwp : Command.wp (acceptRequest svc h m rateExceeded r >>= dispatch h)
      (fun answer _ ↦ answer = .uncaught) (fun answer _ ↦ answer = .uncaught) s := by
    rw [Command.wp_bind]
    simp only [acceptRequest, Command.wp_bind, Command.wp_ensure, Command.wp_act,
      Command.wp_orStop, Command.wp_pure]
    refine ⟨fun _ ↦ ⟨fun _ ↦ ⟨fun _ ↦ ⟨fun _ ↦ ⟨fun _ _ ↦ ⟨fun q hq ↦ ?_, fun _ ↦ trivial⟩, ?_⟩,
      ?_⟩, ?_⟩, ?_⟩, ?_⟩
    · rw [Accessor.initQueryBlock_of_not_fits hlarge] at hq
      cases hq
    · intro hnone
      rw [hnone] at hgranted
      cases hgranted
    · intro hunlisted
      rw [hlisted] at hunlisted
      cases hunlisted
    · intro hoptions
      exact absurd (by simpa using hoptions) hmethod
    · intro hlimited
      rw [hrate] at hlimited
      cases hlimited
    · intro hmalformed
      rw [hbody] at hmalformed
      cases hmalformed
  exact answer_of_wp hwp

end QueryBlock

end RestApi

end OwSec
