import Mathlib.Data.Prod.Lex
import Mathlib.Order.Lattice
import OwSec.Framework.Numerals

/-!
# Times of a day

`ParseTime` and `CompareTime` (`framework/utils.cpp`).  A time is written as hours, minutes and
seconds, of which the last ones may be missing, and times are ordered by their hours first and by
their seconds last.
-/

namespace OwSec

/-- `Poco::StringTokenizer` with one separator and `TOK_TRIM`: a text that is blank behind the last
separator, but not empty, is no token. -/
def tokenizeTrimmed (separator : Char) (s : String) : List String :=
  let tokens := tokenize separator s
  let last := tokens.getLast?.getD ""
  (if last ≠ "" ∧ trim last = "" then tokens.dropLast else tokens).map trim

/-- Hours, minutes and seconds. -/
structure TimeOfDay where
  hours : ℤ
  minutes : ℤ
  seconds : ℤ
  deriving DecidableEq, Repr

/-- `ParseTime`: whether the text is accepted, and the parts. -/
def parseTime (time : String) : Bool × TimeOfDay :=
  match tokenizeTrimmed ':' time with
  | [hours] => (true, ⟨atoi hours, 0, 0⟩)
  | [hours, minutes] => (true, ⟨atoi hours, atoi minutes, 0⟩)
  | [hours, minutes, seconds] => (true, ⟨atoi hours, atoi minutes, atoi seconds⟩)
  | _ => (false, ⟨0, 0, 0⟩)

/-- `CompareTime`. -/
def compareTime (h₁ h₂ m₁ m₂ s₁ s₂ : ℤ) : Bool :=
  if h₁ < h₂ then true
  else if h₁ > h₂ then false
  else if m₁ < m₂ then true
  else if m₂ > m₁ then false
  else if s₁ ≤ s₂ then true
  else false

namespace TimeOfDay

/-- The parts in the order of their weight. -/
def key (t : TimeOfDay) : ℤ ×ₗ ℤ ×ₗ ℤ := toLex (t.hours, toLex (t.minutes, t.seconds))

theorem key_injective : Function.Injective key := by
  rintro ⟨h, m, s⟩ ⟨h', m', s'⟩ heq
  cases heq
  rfl

/-- The order of times. -/
instance : LinearOrder TimeOfDay := LinearOrder.lift' key key_injective

theorem le_iff (a b : TimeOfDay) :
    a ≤ b ↔ a.hours < b.hours ∨ a.hours = b.hours ∧
      (a.minutes < b.minutes ∨ a.minutes = b.minutes ∧ a.seconds ≤ b.seconds) := by
  have hkey : a ≤ b ↔ a.key ≤ b.key := .rfl
  rw [hkey, key, key, Prod.Lex.toLex_le_toLex, Prod.Lex.toLex_le_toLex]

/-- `CompareTime`, applied to the parts of two times. -/
def compare (a b : TimeOfDay) : Bool :=
  compareTime a.hours b.hours a.minutes b.minutes a.seconds b.seconds

/-- `CompareTime` looks at the seconds when the minutes of the first time are greater, too. -/
theorem compare_eq_true_iff (a b : TimeOfDay) :
    a.compare b = true ↔
      a ≤ b ∨ a.hours = b.hours ∧ b.minutes < a.minutes ∧ a.seconds ≤ b.seconds := by
  rw [le_iff, compare, compareTime]
  -- where the minutes of the first time are greater, the code asks again whether they are less
  split_ifs with hlt hgt hminutes hseconds
  · exact iff_of_true rfl (.inl (.inl hlt))
  · exact iff_of_false not_false (by omega)
  · exact iff_of_true rfl (by omega)
  · exact iff_of_true rfl (by omega)
  · exact iff_of_false not_false (by omega)

end TimeOfDay

/-- Times are compared as they are ordered, unless their hours are the same and the first one has
more minutes and no more seconds. -/
theorem compare_parseTime_iff (time₁ time₂ : String) :
    ((parseTime time₁).2.compare (parseTime time₂).2 = true ↔
        (parseTime time₁).2 ≤ (parseTime time₂).2) ↔
      ¬ ((parseTime time₁).2.hours = (parseTime time₂).2.hours ∧
        (parseTime time₂).2.minutes < (parseTime time₁).2.minutes ∧
        (parseTime time₁).2.seconds ≤ (parseTime time₂).2.seconds) := by
  generalize (parseTime time₁).2 = a, (parseTime time₂).2 = b
  rw [TimeOfDay.compare_eq_true_iff, TimeOfDay.le_iff]
  constructor
  · intro h hslip
    omega
  · intro h
    rw [or_iff_left h]

/-- Two times with the same hours, of which the first one is later; and three times that are not
ordered at all. -/
theorem compare_sameHours :
    parseTime "10:30:00" = (true, ⟨10, 30, 0⟩) ∧ parseTime " 10 : 15" = (true, ⟨10, 15, 0⟩) ∧
      TimeOfDay.compare ⟨10, 30, 0⟩ ⟨10, 15, 0⟩ = true ∧
      ¬ (⟨10, 30, 0⟩ : TimeOfDay) ≤ ⟨10, 15, 0⟩ ∧
      TimeOfDay.compare ⟨10, 1, 5⟩ ⟨10, 0, 7⟩ = true ∧
      TimeOfDay.compare ⟨10, 0, 7⟩ ⟨10, 1, 3⟩ = true ∧
      TimeOfDay.compare ⟨10, 1, 5⟩ ⟨10, 1, 3⟩ = false := by
  decide

end OwSec
