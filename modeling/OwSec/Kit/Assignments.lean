import Mathlib.Data.List.Nodup
import OwSec.Kit.Cache

/-!
# Assignments in order

A list of pairs that are assigned to a map one after the other: of several pairs with the same key
the last one counts.  `lastValue` is what they come to under a key.  A map that is written out as
the list of its pairs, in any order, is read back in this way.
-/

namespace Kit

universe u v

variable {κ : Type u} {ν : Type v} [DecidableEq κ]

/-- The value that the last pair with the key has. -/
def lastValue (es : List (κ × ν)) (k : κ) : Option ν := es.reverse.lookup k

@[simp] theorem lastValue_nil (k : κ) : lastValue ([] : List (κ × ν)) k = none := rfl

/-- What comes later counts. -/
theorem lastValue_append (es es' : List (κ × ν)) (k : κ) :
    lastValue (es ++ es') k = (lastValue es' k).or (lastValue es k) := by
  unfold lastValue
  rw [List.reverse_append, List.lookup_append]

theorem lastValue_cons (e : κ × ν) (es : List (κ × ν)) (k : κ) :
    lastValue (e :: es) k = (lastValue es k).or (if k = e.1 then some e.2 else none) := by
  rw [← List.singleton_append, lastValue_append]
  congr 1
  unfold lastValue
  rw [List.reverse_singleton, List.lookup_cons, List.lookup_nil]
  by_cases hk : k = e.1
  · rw [if_pos hk, hk, beq_self_eq_true]
  · rw [if_neg hk, beq_eq_false_iff_ne.mpr hk]

/-- A value that counts is one of those assigned. -/
theorem mem_of_lastValue {es : List (κ × ν)} {k : κ} {v : ν} (h : lastValue es k = some v) :
    (k, v) ∈ es := by
  obtain ⟨l, l', hes, -⟩ := List.lookup_eq_some_iff.mp h
  rw [← List.mem_reverse, hes]
  exact List.mem_append.mpr (.inr List.mem_cons_self)

/-- A key that is assigned has a value. -/
theorem exists_lastValue {es : List (κ × ν)} {k : κ} {v : ν} (h : (k, v) ∈ es) :
    ∃ v', lastValue es k = some v' := by
  induction es with
  | nil => cases h
  | cons e es ih =>
    rw [lastValue_cons]
    rcases List.mem_cons.mp h with rfl | h
    · rcases lastValue es k with _ | v'
      · exact ⟨v, by simp⟩
      · exact ⟨v', rfl⟩
    · obtain ⟨v', hv'⟩ := ih h
      exact ⟨v', by rw [hv']; rfl⟩

/-- Where no key is assigned twice, each pair counts. -/
theorem lastValue_eq_some_iff {es : List (κ × ν)} (hnodup : (es.map Prod.fst).Nodup) {k : κ}
    {v : ν} : lastValue es k = some v ↔ (k, v) ∈ es := by
  constructor
  · exact mem_of_lastValue
  · intro hmem
    obtain ⟨v', hv'⟩ := exists_lastValue hmem
    have heq : (k, v') = (k, v) :=
      List.inj_on_of_nodup_map hnodup (mem_of_lastValue hv') hmem rfl
    rw [hv', (Prod.mk.inj heq).2]

namespace Cache

/-- The pairs are assigned to the map. -/
def assign (c : Cache κ ν) (es : List (κ × ν)) : Cache κ ν :=
  es.foldl (fun c e ↦ c.insert e.1 e.2) c

/-- A key has the last value that was assigned to it, or the one it had. -/
theorem lookup_assign (c : Cache κ ν) (es : List (κ × ν)) (k : κ) :
    (c.assign es).lookup k = (lastValue es k).or (c.lookup k) := by
  induction es generalizing c with
  | nil => rfl
  | cons e es ih =>
    have hassign : c.assign (e :: es) = Cache.assign (c.insert e.1 e.2) es := rfl
    rw [hassign, ih, lookup_insert_eq, lastValue_cons, Option.or_assoc]
    by_cases hk : k = e.1 <;> simp [hk]

/-- The pairs of the map. -/
def pairs (c : Cache κ ν) : List (κ × ν) := c.entries.map fun e ↦ (e.1, e.2)

theorem mem_pairs {c : Cache κ ν} {k : κ} {v : ν} : (k, v) ∈ c.pairs ↔ c.lookup k = some v := by
  rw [← Option.mem_def, AList.mem_lookup_iff]
  unfold pairs
  rw [List.mem_map]
  constructor
  · rintro ⟨⟨k', v'⟩, hmem, heq⟩
    cases heq
    exact hmem
  · intro hmem
    exact ⟨⟨k, v⟩, hmem, rfl⟩

omit [DecidableEq κ] in
theorem nodup_pairs (c : Cache κ ν) : (c.pairs.map Prod.fst).Nodup := by
  have hkeys := c.nodupKeys
  unfold pairs
  rw [List.map_map]
  exact hkeys

/-- The pairs of the map, in any order, come to the map. -/
theorem lastValue_of_perm {c : Cache κ ν} {es : List (κ × ν)} (h : es.Perm c.pairs) (k : κ) :
    lastValue es k = c.lookup k := by
  have hnodup : (es.map Prod.fst).Nodup := (h.map Prod.fst).nodup_iff.mpr c.nodup_pairs
  ext v
  rw [lastValue_eq_some_iff hnodup, h.mem_iff, mem_pairs]

end Cache

end Kit
