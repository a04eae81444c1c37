import Mathlib.Data.List.Basic
import Mathlib.Data.List.Nodup
import Mathlib.Data.Nat.Notation

/-!
# Backlogs

Work that waits in the order in which it came, and rounds that take a fixed number from the
front.  Work may also be withdrawn anywhere in the line.  Whatever waits has an upper bound
on the rounds it can miss: its place in the line, divided by the size of a round.
-/

namespace Kit

universe u

variable {α : Type u} {n rounds : ℕ} {l l' : List α}

/-- What may happen to a line of which a round takes `n` from the front; the number counts
the rounds. -/
inductive Moves (n : ℕ) : List α → ℕ → List α → Prop
  /-- Something new goes to the end. -/
  | arrive {l : List α} (a : α) (ha : a ∉ l) : Moves n l 0 (l ++ [a])
  /-- Some of the line is withdrawn. -/
  | withdraw {l l' : List α} (h : l'.Sublist l) : Moves n l 0 l'
  /-- A round takes from the front. -/
  | serve {l : List α} : Moves n l 1 (l.drop n)

/-! ## Places in a line -/

section Places

variable [DecidableEq α]

/-- Without the first few, a line without repetition is what comes after them. -/
theorem filter_notMem_take (h : l.Nodup) (n : ℕ) : l.filter (· ∉ l.take n) = l.drop n := by
  have hdisjoint : ∀ a ∈ l.drop n, a ∉ l.take n := fun a ha hb ↦
    List.disjoint_take_drop h (Nat.le_refl n) hb ha
  calc l.filter (· ∉ l.take n)
      = (l.take n ++ l.drop n).filter (· ∉ l.take n) := by rw [List.take_append_drop]
    _ = (l.take n).filter (· ∉ l.take n) ++ (l.drop n).filter (· ∉ l.take n) :=
        List.filter_append _ _
    _ = l.drop n := by
        rw [List.filter_eq_nil_iff.mpr (by simp), List.nil_append,
          List.filter_eq_self.mpr (by simpa using hdisjoint)]

/-- What comes after the first few has that many places before it. -/
theorem idxOf_drop (h : l.Nodup) {a : α} (ha : a ∈ l.drop n) :
    n + (l.drop n).idxOf a = l.idxOf a := by
  have hnot : a ∉ l.take n := fun hb ↦ List.disjoint_take_drop h (Nat.le_refl n) hb ha
  have hlength : (l.take n).length = n := by
    have hpos := List.length_pos_of_mem ha
    rw [List.length_drop] at hpos
    rw [List.length_take]
    omega
  calc n + (l.drop n).idxOf a
      = (l.take n).length + (l.drop n).idxOf a := by rw [hlength]
    _ = (l.take n ++ l.drop n).idxOf a := (List.idxOf_append_of_notMem hnot).symm
    _ = l.idxOf a := by rw [List.take_append_drop]

/-- Withdrawals never move anything back. -/
theorem idxOf_le_of_sublist (h : l'.Sublist l) (hl : l.Nodup) {a : α} (ha : a ∈ l') :
    l'.idxOf a ≤ l.idxOf a := by
  induction h with
  | slnil => exact Nat.le_refl _
  | @cons l₁ l₂ b hsub ih =>
    obtain ⟨hb, hl₂⟩ := List.nodup_cons.mp hl
    have hne : b ≠ a := fun heq ↦ hb (heq ▸ hsub.subset ha)
    rw [List.idxOf_cons_ne _ hne]
    exact Nat.le_succ_of_le (ih hl₂ ha)
  | @cons_cons l₁ l₂ b _ ih =>
    by_cases hb : b = a
    · rw [List.idxOf_cons_eq _ hb]
      exact Nat.zero_le _
    · rw [List.idxOf_cons_ne _ hb, List.idxOf_cons_ne _ hb]
      exact Nat.succ_le_succ
        (ih (List.nodup_cons.mp hl).2 ((List.mem_cons.mp ha).resolve_left (Ne.symm hb)))

/-- What goes on waiting moves up by the size of a round with each round. -/
theorem Moves.idxOf_le (h : Moves n l rounds l') (hl : l.Nodup) {a : α} (ha : a ∈ l)
    (ha' : a ∈ l') : n * rounds + l'.idxOf a ≤ l.idxOf a := by
  cases h with
  | arrive b hb =>
    have hsame : (l ++ [b]).idxOf a = l.idxOf a := List.idxOf_append_of_mem ha
    exact Nat.le_of_eq (by rw [hsame, Nat.mul_zero, Nat.zero_add])
  | withdraw hsub =>
    rw [Nat.mul_zero, Nat.zero_add]
    exact idxOf_le_of_sublist hsub hl ha'
  | serve =>
    rw [Nat.mul_one]
    exact Nat.le_of_eq (idxOf_drop hl ha')

end Places

end Kit
