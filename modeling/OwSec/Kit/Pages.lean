import Mathlib.Data.List.Basic
import Mathlib.Data.Nat.Find
import Mathlib.Data.Nat.Notation

/-!
# Pages of a list

A list that is read in pages of one size.  The pages, taken one after the other, are the list, and
the first empty page is where it ends.
-/

namespace Kit

universe u

variable {α : Type u}

/-- A page of a list, counted from zero. -/
def page (l : List α) (size k : ℕ) : List α := (l.drop (k * size)).take size

/-- So many pages are the beginning of the list. -/
theorem flatMap_page (l : List α) (size K : ℕ) :
    (List.range K).flatMap (page l size) = l.take (K * size) := by
  induction K with
  | zero => simp
  | succ K ih =>
    rw [List.range_succ, List.flatMap_append, ih, Nat.succ_mul, List.take_add]
    simp [page]

/-- The pages behind the end are empty, and no other ones. -/
theorem page_eq_nil_iff {l : List α} {size k : ℕ} (hsize : 0 < size) :
    page l size k = [] ↔ l.length ≤ k * size := by
  rw [page, List.take_eq_nil_iff, List.drop_eq_nil_iff]
  exact or_iff_right (Nat.ne_of_gt hsize)

/-- Fetching page after page, up to the first empty one, gives a list. -/
def Collects (fetch : ℕ → List α) (l : List α) : Prop :=
  ∃ K, (∀ k < K, fetch k ≠ []) ∧ fetch K = [] ∧ (List.range K).flatMap fetch = l

/-- What is fetched does not depend on anything else. -/
theorem Collects.unique {fetch : ℕ → List α} {l l' : List α} (h : Collects fetch l)
    (h' : Collects fetch l') : l = l' := by
  obtain ⟨K, hfull, hempty, rfl⟩ := h
  obtain ⟨K', hfull', hempty', rfl⟩ := h'
  rcases Nat.lt_trichotomy K K' with hlt | rfl | hgt
  · exact absurd hempty (hfull' K hlt)
  · rfl
  · exact absurd hempty' (hfull K' hgt)

/-- The pages of a list are fetched as the list. -/
theorem collects_page (l : List α) {size : ℕ} (hsize : 0 < size) : Collects (page l size) l := by
  have hends : ∃ k, l.length ≤ k * size := ⟨l.length, Nat.le_mul_of_pos_right _ hsize⟩
  refine ⟨Nat.find hends, fun k hk ↦ ?_, (page_eq_nil_iff hsize).mpr (Nat.find_spec hends), ?_⟩
  · rw [ne_eq, page_eq_nil_iff hsize]
    exact Nat.find_min hends hk
  · rw [flatMap_page, List.take_of_length_le (Nat.find_spec hends)]

end Kit
