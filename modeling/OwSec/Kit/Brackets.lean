import Mathlib.Data.List.Basic
import Mathlib.Data.List.Count
import Mathlib.Data.Nat.Notation

/-!
# Balanced brackets

Lists in which every opening bracket has its closing one, as a grammar.
-/

namespace Kit

universe u

variable {α : Type u} {l r : α} {s t : List α}

/-- The brackets `l` and `r` of a list are balanced. -/
inductive Balanced (l r : α) : List α → Prop
  | nil : Balanced l r []
  | other {a : α} (hl : a ≠ l) (hr : a ≠ r) : Balanced l r [a]
  | wrap {s : List α} (h : Balanced l r s) : Balanced l r (l :: (s ++ [r]))
  | append {s t : List α} (hs : Balanced l r s) (ht : Balanced l r t) : Balanced l r (s ++ t)

namespace Balanced

/-- A list without brackets. -/
theorem of_notMem (hl : l ∉ s) (hr : r ∉ s) : Balanced l r s := by
  induction s with
  | nil => exact nil
  | cons a s ih =>
    obtain ⟨hal, hl⟩ := List.ne_and_not_mem_of_not_mem_cons hl
    obtain ⟨har, hr⟩ := List.ne_and_not_mem_of_not_mem_cons hr
    exact (other hal.symm har.symm).append (ih hl hr)

/-- Balanced lists with a separator between them. -/
theorem intercalate {separator : List α} (hsep : Balanced l r separator) {ss : List (List α)}
    (h : ∀ s ∈ ss, Balanced l r s) : Balanced l r (separator.intercalate ss) := by
  induction ss with
  | nil => exact nil
  | cons s ss ih =>
    obtain ⟨hs, hss⟩ := List.forall_mem_cons.mp h
    rcases ss with _ | ⟨t, ss⟩
    · simpa using hs
    · rw [List.intercalate_cons_cons]
      exact (hs.append hsep).append (ih hss)

/-- There are as many closing brackets as opening ones. -/
theorem count_eq [DecidableEq α] (hne : l ≠ r) (h : Balanced l r s) : s.count l = s.count r := by
  induction h with
  | nil => rfl
  | other hl hr =>
    rw [List.count_eq_zero.mpr (by simpa using hl.symm), List.count_eq_zero.mpr (by simpa using hr.symm)]
  | wrap _ ih => simp [ih, hne, hne.symm]
  | append _ _ hs ht => rw [List.count_append, List.count_append, hs, ht]

end Balanced

end Kit
