import Mathlib.Algebra.Group.Int.Defs
import Mathlib.Algebra.Group.Nat.Defs
import Mathlib.Data.List.DropRight
import Mathlib.Data.List.TakeWhile
import OwSec.Text

/-!
# Numbers at the start of a text

The readers of the C library for numbers in the base ten.  They pass over white space, take a sign
and as many digits as there are, and leave the rest of the text alone, so white space around a
number makes no difference.
-/

namespace OwSec

/-- The number that decimal digits stand for. -/
def digitsValue (cs : List Char) : ℕ := cs.foldl (fun n c ↦ 10 * n + (c.toNat - '0'.toNat)) 0

/-- Whether a minus sign comes first, and the digits after the sign. -/
def signedDigits (cs : List Char) : Bool × List Char :=
  match cs with
  | '-' :: cs => (true, cs.takeWhile Char.isDigit)
  | '+' :: cs => (false, cs.takeWhile Char.isDigit)
  | cs => (false, cs.takeWhile Char.isDigit)

/-- The sign and the magnitude of the number at the start of a text, if there is one. -/
def numeralOf (s : String) : Option (Bool × ℕ) :=
  let (negative, digits) := signedDigits (s.toList.dropWhile isSpace)
  if digits.isEmpty then none else some (negative, digitsValue digits)

/-- `strtol` in the base ten: `none` where it reads nothing.  What does not fit becomes the closest
number that does. -/
def strtol (s : String) : Option ℤ :=
  (numeralOf s).map fun n ↦
    max (-(2 ^ 63)) (min (2 ^ 63 - 1) (if n.1 then -(n.2 : ℤ) else n.2))

/-- `atoi`: the lower half of what `strtol` reads. -/
def atoi (s : String) : ℤ := ((strtol s).getD 0).bmod (2 ^ 32)

theorem isSpace_of_isDigit {c : Char} (h : c.isDigit = true) : isSpace c = false := by
  have hlower : 48 ≤ c.val.toNat := by
    simp only [Char.isDigit, Bool.and_eq_true, decide_eq_true_eq] at h
    exact UInt32.le_iff_toNat_le.mp h.1
  have hne (d : Char) (hd : d.val.toNat < 48) : (c == d) = false := by
    rw [beq_eq_false_iff_ne]
    rintro rfl
    omega
  have hval (n : UInt32) (hn : n.toNat < 48) : (c.val == n) = false := by
    rw [beq_eq_false_iff_ne]
    rintro rfl
    omega
  simp [isSpace, hne ' ', hne '\t', hne '\n', hne '\r', hval 11, hval 12]

theorem signedDigits_of_digits {cs : List Char} (h : ∀ c ∈ cs, c.isDigit = true) :
    signedDigits cs = (false, cs) := by
  have htake : cs.takeWhile Char.isDigit = cs := List.takeWhile_eq_self_iff.mpr h
  unfold signedDigits
  split
  · exact absurd (h _ List.mem_cons_self) (by decide)
  · exact absurd (h _ List.mem_cons_self) (by decide)
  · rw [htake]

/-- A text of digits is read as the number it stands for. -/
theorem numeralOf_of_digits {s : String} (hne : s ≠ "") (h : ∀ c ∈ s.toList, c.isDigit = true) :
    numeralOf s = some (false, digitsValue s.toList) := by
  have hspaces : s.toList.dropWhile isSpace = s.toList := by
    rcases hchars : s.toList with _ | ⟨c, cs⟩
    · rfl
    · have hc := isSpace_of_isDigit (h c (hchars ▸ List.mem_cons_self))
      exact List.dropWhile_cons_of_neg (by rw [hc]; exact Bool.false_ne_true)
  have hnil : s.toList.isEmpty = false := by
    rw [List.isEmpty_eq_false_iff]
    exact fun hnil ↦ hne (String.toList_eq_nil_iff.mp hnil)
  simp only [numeralOf, hspaces, signedDigits_of_digits h, hnil, Bool.false_eq_true, if_false]

theorem takeWhile_isDigit_append {spaces : List Char} (h : ∀ c ∈ spaces, isSpace c = true)
    (cs : List Char) :
    (cs ++ spaces).takeWhile Char.isDigit = cs.takeWhile Char.isDigit := by
  have hspaces : spaces.takeWhile Char.isDigit = [] := by
    rcases spaces with _ | ⟨c, spaces⟩
    · rfl
    · refine List.takeWhile_cons_of_neg fun hdigit ↦ ?_
      have hspace := h c List.mem_cons_self
      rw [isSpace_of_isDigit hdigit] at hspace
      cases hspace
  rw [List.takeWhile_append, hspaces, List.append_nil]
  split
  · rename_i hlength
    exact ((List.takeWhile_sublist Char.isDigit).eq_of_length hlength).symm
  · rfl

theorem signedDigits_cons {c : Char} {cs : List Char} (hminus : c ≠ '-') (hplus : c ≠ '+') :
    signedDigits (c :: cs) = (false, (c :: cs).takeWhile Char.isDigit) := by
  unfold signedDigits
  split
  · rename_i heq
    cases heq
    exact absurd rfl hminus
  · rename_i heq
    cases heq
    exact absurd rfl hplus
  · rfl

/-- White space behind a number is passed over. -/
theorem signedDigits_append {cs spaces : List Char} (h : ∀ c ∈ spaces, isSpace c = true)
    (hne : cs ≠ []) : signedDigits (cs ++ spaces) = signedDigits cs := by
  rcases cs with _ | ⟨c, cs⟩
  · exact absurd rfl hne
  · have htail := takeWhile_isDigit_append h cs
    have hall := takeWhile_isDigit_append h (c :: cs)
    rw [List.cons_append] at hall ⊢
    by_cases hminus : c = '-'
    · subst hminus
      simp only [signedDigits, htail]
    by_cases hplus : c = '+'
    · subst hplus
      simp only [signedDigits, htail]
    · rw [signedDigits_cons hminus hplus, signedDigits_cons hminus hplus, hall]

/-- The readers do not see white space around a number. -/
theorem numeralOf_trim (s : String) : numeralOf (trim s) = numeralOf s := by
  generalize hcs : s.toList.dropWhile isSpace = cs
  have htrim : (trim s).toList = cs.rdropWhile isSpace := by
    rw [trim, String.toList_ofList, hcs]
    rfl
  have hsplit : cs.rdropWhile isSpace ++ cs.rtakeWhile isSpace = cs :=
    List.rdropWhile_append_rtakeWhile
  have hspaces : ∀ c ∈ cs.rtakeWhile isSpace, isSpace c = true := fun _ ↦ List.mem_rtakeWhile_imp
  have hself : cs.dropWhile isSpace = cs := by
    rw [← hcs]
    exact List.dropWhile_idempotent _ _
  have hdigits :
      signedDigits ((cs.rdropWhile isSpace).dropWhile isSpace) = signedDigits cs := by
    by_cases hnil : cs.rdropWhile isSpace = []
    · have hcs : cs = [] := by
        rw [← hself]
        exact List.dropWhile_eq_nil_iff.mpr (List.rdropWhile_eq_nil_iff.mp hnil)
      rw [hnil, hcs]
      rfl
    · have hhead : (cs.rdropWhile isSpace).dropWhile isSpace = cs.rdropWhile isSpace := by
        rw [List.dropWhile_eq_self_iff] at hself ⊢
        intro hlength
        have hcs : 0 < cs.length := by
          rw [← hsplit, List.length_append]
          omega
        have hget : (cs.rdropWhile isSpace)[0] = cs[0] :=
          (List.rdropWhile_prefix isSpace cs).getElem hlength
        rw [hget]
        exact hself hcs
      rw [hhead, ← signedDigits_append hspaces hnil, hsplit]
  simp only [numeralOf, htrim, hcs, hdigits]

end OwSec
