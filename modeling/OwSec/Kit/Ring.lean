import Mathlib.Data.List.Basic
import Mathlib.Data.Nat.ModEq

/-!
# Lists in a ring of cells

A list is kept in cells of which the first follows the last.  Positions are numbers, and each
stands for the cell that it leaves as a remainder, so a position that goes up wraps by itself.
A list has a place for one more element at its end as long as it is shorter than the ring.
-/

namespace Kit.Ring

universe u

variable {α : Type u} {cells : List α} {q q' : List α} {r : ℕ}

/-- The cells from a position on hold the list. -/
def Holds (cells : List α) : ℕ → List α → Prop
  | _, [] => True
  | r, a :: q => cells[r % cells.length]? = some a ∧ Holds cells (r + 1) q

/-- Only the cell of the position matters. -/
theorem holds_congr {r' : ℕ} (h : r ≡ r' [MOD cells.length]) (q : List α) :
    Holds cells r q ↔ Holds cells r' q := by
  induction q generalizing r r' with
  | nil => exact Iff.rfl
  | cons a q ih =>
    have hcell : r % cells.length = r' % cells.length := h
    simp only [Holds, hcell, ih (h.add_right 1)]

/-- What comes behind a list is held behind it. -/
theorem holds_append (cells : List α) (r : ℕ) (q q' : List α) :
    Holds cells r (q ++ q') ↔ Holds cells r q ∧ Holds cells (r + q.length) q' := by
  induction q generalizing r with
  | nil => simp [Holds]
  | cons a q ih =>
    have hplace : r + (q.length + 1) = r + 1 + q.length := by omega
    simp only [List.cons_append, Holds, List.length_cons, ih, hplace, and_assoc]

/-- A list does not notice that another cell is written. -/
theorem Holds.set {k : ℕ} (a : α) (hk : ∀ i < q.length, (r + i) % cells.length ≠ k)
    (h : Holds cells r q) : Holds (cells.set k a) r q := by
  induction q generalizing r with
  | nil => trivial
  | cons b q ih =>
    obtain ⟨hcell, hrest⟩ := h
    have hne : k ≠ r % cells.length := (hk 0 (Nat.succ_pos _)).symm
    refine ⟨?_, ih (fun i hi ↦ ?_) hrest⟩
    · rw [List.length_set, List.getElem?_set_ne hne, hcell]
    · have hsucc := hk (i + 1) (Nat.succ_lt_succ hi)
      rwa [Nat.add_assoc, Nat.add_comm 1 i]

/-- Places of a ring that are less than a round apart are different cells. -/
theorem mod_ne_mod {n i k : ℕ} (r : ℕ) (hi : i < k) (hk : k < n) : (r + i) % n ≠ (r + k) % n := by
  intro h
  have hmod : i ≡ k [MOD n] := Nat.ModEq.add_left_cancel' r h
  exact Nat.ne_of_lt hi (hmod.eq_of_lt_of_lt (Nat.lt_trans hi hk) hk)

/-- One more element is written to the cell behind the list, if there is one. -/
theorem Holds.push (h : Holds cells r q) (hroom : q.length < cells.length) (a : α) :
    Holds (cells.set ((r + q.length) % cells.length) a) r (q ++ [a]) := by
  have hlt : (r + q.length) % cells.length < cells.length := Nat.mod_lt _ (by omega)
  refine (holds_append _ r q [a]).mpr ⟨h.set a fun i hi ↦ mod_ne_mod r hi hroom, ?_, trivial⟩
  rw [List.length_set, List.getElem?_set_self hlt]

/-- The position behind a position, as it is counted: back to zero at the end. -/
theorem succ_eq_mod {n : ℕ} (hr : r < n) : (if r + 1 = n then 0 else r + 1) = (r + 1) % n := by
  split
  · rename_i hend
    rw [hend, Nat.mod_self]
  · rw [Nat.mod_eq_of_lt (by omega)]

end Kit.Ring
