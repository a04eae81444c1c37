import Mathlib.Data.List.Sort
import Mathlib.Order.Bounds.Basic

/-!
# Maps in the order of their keys

A finite map that is visited in the order of its keys: entries whose keys increase strictly, so no
key occurs twice.  A search through the entries for a value of a kind finds the one with the least
key.
-/

namespace Kit

universe u v

/-- Entries with strictly increasing keys. -/
structure OrderedMap (κ : Type u) (α : Type v) [LinearOrder κ] where
  entries : List (κ × α)
  sorted : entries.Pairwise fun e e' ↦ e.1 < e'.1

namespace OrderedMap

variable {κ : Type u} {α : Type v} [LinearOrder κ]

instance : Membership (κ × α) (OrderedMap κ α) := ⟨fun m e ↦ e ∈ m.entries⟩

theorem mem_def {m : OrderedMap κ α} {e : κ × α} : e ∈ m ↔ e ∈ m.entries := Iff.rfl

/-- The map without entries. -/
def empty : OrderedMap κ α := ⟨[], List.Pairwise.nil⟩

instance : Inhabited (OrderedMap κ α) := ⟨empty⟩

/-- `m.erase(key)`. -/
def erase (m : OrderedMap κ α) (key : κ) : OrderedMap κ α where
  entries := m.entries.filter fun e ↦ e.1 ≠ key
  sorted := m.sorted.filter _

/-- `m[key] = value`. -/
def assign (m : OrderedMap κ α) (key : κ) (value : α) : OrderedMap κ α where
  entries := m.entries.filter (fun e ↦ e.1 < key) ++ (key, value) ::
    m.entries.filter (fun e ↦ key < e.1)
  sorted := by
    refine List.pairwise_append.mpr ⟨m.sorted.filter _, List.pairwise_cons.mpr ⟨?_,
      m.sorted.filter _⟩, ?_⟩
    · intro e he
      simpa using (List.mem_filter.mp he).2
    · intro e he e' he'
      have hlt : e.1 < key := by simpa using (List.mem_filter.mp he).2
      rcases List.mem_cons.mp he' with rfl | he'
      · exact hlt
      · exact hlt.trans (by simpa using (List.mem_filter.mp he').2)

@[simp] theorem not_mem_empty (e : κ × α) : e ∉ (empty : OrderedMap κ α) := List.not_mem_nil

@[simp] theorem mem_erase {m : OrderedMap κ α} {key : κ} {e : κ × α} :
    e ∈ m.erase key ↔ e ∈ m ∧ e.1 ≠ key := by
  simp [mem_def, erase]

@[simp] theorem mem_assign {m : OrderedMap κ α} {key : κ} {value : α} {e : κ × α} :
    e ∈ m.assign key value ↔ e = (key, value) ∨ e ∈ m ∧ e.1 ≠ key := by
  simp only [mem_def, assign, List.mem_append, List.mem_filter, List.mem_cons,
    decide_eq_true_eq]
  constructor
  · rintro (⟨he, hlt⟩ | rfl | ⟨he, hlt⟩)
    · exact .inr ⟨he, hlt.ne⟩
    · exact .inl rfl
    · exact .inr ⟨he, hlt.ne'⟩
  · rintro (rfl | ⟨he, hne⟩)
    · exact .inr (.inl rfl)
    · rcases lt_or_gt_of_ne hne with hlt | hlt
      · exact .inl ⟨he, hlt⟩
      · exact .inr (.inr ⟨he, hlt⟩)

/-- A key has one value. -/
theorem eq_of_mem {m : OrderedMap κ α} {key : κ} {a b : α} (ha : (key, a) ∈ m)
    (hb : (key, b) ∈ m) : a = b := by
  obtain ⟨entries, hsorted⟩ := m
  rw [mem_def] at ha hb
  induction hsorted with
  | nil => cases ha
  | cons hlt _ ih =>
    rcases List.mem_cons.mp ha with rfl | ha'
    · rcases List.mem_cons.mp hb with heq | hb'
      · exact (congrArg Prod.snd heq).symm
      · exact absurd (hlt _ hb') (lt_irrefl key)
    · rcases List.mem_cons.mp hb with rfl | hb'
      · exact absurd (hlt _ ha') (lt_irrefl key)
      · exact ih ha' hb'

/-- The first entry, in the order of the keys, whose value is of a kind. -/
def first? (m : OrderedMap κ α) (p : α → Bool) : Option (κ × α) := m.entries.find? fun e ↦ p e.2

theorem first?_eq_none_iff {m : OrderedMap κ α} {p : α → Bool} :
    m.first? p = none ↔ ∀ e ∈ m, p e.2 = false := by
  simp [first?, mem_def]

/-- The search finds the entry of the least key. -/
theorem first?_eq_some_iff {m : OrderedMap κ α} {p : α → Bool} {e : κ × α} :
    m.first? p = some e ↔ e ∈ m ∧ p e.2 ∧ ∀ e' ∈ m, p e'.2 → e.1 ≤ e'.1 := by
  obtain ⟨entries, hsorted⟩ := m
  simp only [first?, mem_def]
  induction hsorted with
  | nil => simp
  | @cons x entries hlt _ ih =>
    by_cases hx : p x.2 = true
    · rw [List.find?_cons_of_pos (by simpa using hx), Option.some.injEq]
      constructor
      · rintro rfl
        refine ⟨List.mem_cons_self, hx, fun e' he' _ ↦ ?_⟩
        rcases List.mem_cons.mp he' with rfl | he'
        · exact le_rfl
        · exact (hlt e' he').le
      · rintro ⟨he, -, hleast⟩
        rcases List.mem_cons.mp he with rfl | he
        · rfl
        · exact absurd (hleast x List.mem_cons_self hx) (not_le.mpr (hlt e he))
    · rw [List.find?_cons_of_neg (by simpa using hx), ih]
      constructor
      · rintro ⟨he, hp, hleast⟩
        refine ⟨List.mem_cons_of_mem x he, hp, fun e' he' hp' ↦ ?_⟩
        rcases List.mem_cons.mp he' with rfl | he'
        · exact absurd hp' hx
        · exact hleast e' he' hp'
      · rintro ⟨he, hp, hleast⟩
        rcases List.mem_cons.mp he with rfl | he
        · exact absurd hp hx
        · exact ⟨he, hp, fun e' he' ↦ hleast e' (List.mem_cons_of_mem x he')⟩

end OrderedMap

end Kit
