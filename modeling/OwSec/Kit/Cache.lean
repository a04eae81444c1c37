import Mathlib.Data.List.AList
import Mathlib.Data.Option.Basic

/-!
# Bounded caches

A cache that may drop any entry at any moment.  What an expiring, least-recently-used
cache keeps depends on its capacity, on the clock and on the whole history of lookups;
everything a client can rely on is that a lookup returns the last value stored under the
key or nothing.  So a cache is an association list (`AList`, from Mathlib) and eviction
is a relation, `Evicts`, that a system may take at any point.

A cache in front of a store is *coherent* when each entry is related to what the store
holds for its key.  `Agrees` states this for an arbitrary relation, since a cache can lag
behind its store in fields the client does not read.
-/

namespace Kit

universe u v w

/-- A cache from keys to values. -/
abbrev Cache (κ : Type u) (ν : Type v) := AList fun _ : κ ↦ ν

namespace Cache

variable {κ : Type u} {ν : Type v} {ρ : Type w} [DecidableEq κ]

/-- The keys of the entries whose value satisfies `p`: what a walk over the cache collects. -/
def keysWhere (c : Cache κ ν) (p : ν → Bool) : List κ :=
  (c.entries.filter fun e ↦ p e.2).map Sigma.fst

/-- Remove several keys, one after the other. -/
def removeAll (c : Cache κ ν) (ks : List κ) : Cache κ ν := ks.foldl (fun c k ↦ c.erase k) c

/-- `c'` is `c` after some of its entries were dropped. -/
def Evicts (c c' : Cache κ ν) : Prop := ∀ k v, c'.lookup k = some v → c.lookup k = some v

/-- Every entry of the cache is related to what `store` holds under the same key. -/
def Agrees (R : ν → ρ → Prop) (c : Cache κ ν) (store : κ → Option ρ) : Prop :=
  ∀ k v, c.lookup k = some v → ∃ r, store k = some r ∧ R v r

/-! ## Lookups after an operation -/

/-- What an insert leaves under every key. -/
theorem lookup_insert_eq (c : Cache κ ν) (k j : κ) (v : ν) :
    (c.insert k v).lookup j = if j = k then some v else c.lookup j := by
  by_cases h : j = k
  · subst h
    simp
  · rw [if_neg h, AList.lookup_insert_ne h]

/-- What an erase leaves under every key. -/
theorem lookup_erase_eq (c : Cache κ ν) (k j : κ) :
    (c.erase k).lookup j = if j = k then none else c.lookup j := by
  by_cases h : j = k
  · subst h
    simp
  · rw [if_neg h, AList.lookup_erase_ne h]

/-- What removing several keys leaves under every key. -/
theorem lookup_removeAll (c : Cache κ ν) (ks : List κ) (j : κ) :
    (c.removeAll ks).lookup j = if j ∈ ks then none else c.lookup j := by
  induction ks generalizing c with
  | nil => simp [removeAll]
  | cons k ks ih =>
    have h : c.removeAll (k :: ks) = removeAll (c.erase k) ks := rfl
    rw [h, ih, lookup_erase_eq]
    by_cases hjk : j = k <;> by_cases hj : j ∈ ks <;> simp [hjk, hj]

/-- A key is collected exactly when its entry satisfies the condition. -/
theorem mem_keysWhere (c : Cache κ ν) (p : ν → Bool) (k : κ) :
    k ∈ c.keysWhere p ↔ ∃ v, c.lookup k = some v ∧ p v := by
  simp only [keysWhere, List.mem_map, List.mem_filter]
  constructor
  · rintro ⟨⟨k', v⟩, ⟨hmem, hp⟩, rfl⟩
    exact ⟨v, AList.mem_lookup_iff.mpr hmem, hp⟩
  · rintro ⟨v, hv, hp⟩
    exact ⟨⟨k, v⟩, ⟨AList.mem_lookup_iff.mp hv, hp⟩, rfl⟩

/-- Removing every key whose value satisfies `p` leaves the others. -/
theorem lookup_removeAll_keysWhere (c : Cache κ ν) (p : ν → Bool) (k : κ) :
    (c.removeAll (c.keysWhere p)).lookup k = (c.lookup k).filter fun v ↦ !p v := by
  rw [lookup_removeAll]
  cases h : c.lookup k with
  | none => simp
  | some v =>
    by_cases hp : p v
    · have : k ∈ c.keysWhere p := (mem_keysWhere c p k).mpr ⟨v, h, hp⟩
      simp [this, Option.filter, hp]
    · have : k ∉ c.keysWhere p := by
        intro hk
        obtain ⟨v', hv', hp'⟩ := (mem_keysWhere c p k).mp hk
        rw [h] at hv'
        cases hv'
        exact hp hp'
      simp [this, Option.filter, hp]

/-! ## Eviction -/

/-- Dropping nothing is an eviction. -/
theorem Evicts.refl (c : Cache κ ν) : Evicts c c := fun _ _ h ↦ h

/-- What is not cached is not cached after an eviction. -/
theorem Evicts.lookup_eq_none {c c' : Cache κ ν} (h : Evicts c c') {k : κ}
    (hk : c.lookup k = none) : c'.lookup k = none := by
  rcases hv : c'.lookup k with _ | v
  · rfl
  · rw [h k v hv] at hk
    cases hk

/-- Erasing a key is an eviction. -/
theorem Evicts.erase (c : Cache κ ν) (k : κ) : Evicts c (c.erase k) := by
  intro j v h
  rw [lookup_erase_eq] at h
  by_cases hj : j = k
  · simp [hj] at h
  · simpa [hj] using h

/-- Removing several keys is an eviction. -/
theorem Evicts.removeAll (c : Cache κ ν) (ks : List κ) : Evicts c (c.removeAll ks) := by
  intro j v h
  rw [lookup_removeAll] at h
  by_cases hj : j ∈ ks
  · simp [hj] at h
  · simpa [hj] using h

/-! ## Agreement with a store -/

section Agrees

variable {R : ν → ρ → Prop} {c c' : Cache κ ν} {store store' : κ → Option ρ}

/-- Storing a value that is related to the store's keeps the agreement. -/
theorem Agrees.insert (h : Agrees R c store) {k : κ} {v : ν} {r : ρ} (hs : store k = some r)
    (hv : R v r) : Agrees R (c.insert k v : Cache κ ν) store := by
  intro j w hj
  rw [lookup_insert_eq] at hj
  by_cases hjk : j = k
  · subst hjk
    obtain rfl : v = w := by simpa using hj
    exact ⟨r, hs, hv⟩
  · exact h j w (by simpa [hjk] using hj)

end Agrees

end Cache

end Kit
