import Mathlib.Data.List.Nodup
import Mathlib.Data.Option.Basic

/-!
# Tables with a primary key

A relational table as far as single-table statements can see it: a list of rows, no two
of which share the value of the key column.  The key is a projection of the row, so a
row cannot be filed under a key it does not carry, and uniqueness is a field of the
structure, so no statement below can produce a table that breaks it.

The statements are the ones an object-relational layer issues: `insert`, `update … where
key = …`, `delete … where …`, and `select … limit 1`.  `insert` and `update` answer
`none` where a database raises a constraint violation.  Each statement comes with one
lemma saying what `find?` sees afterwards; nothing else about it is needed later.
-/

namespace Kit

universe u v

/-- Rows of type `ρ` identified by `key`. -/
structure Table (κ : Type u) (ρ : Type v) (key : ρ → κ) where
  /-- The rows, in storage order. -/
  rows : List ρ
  /-- No two rows share a key. -/
  nodup : (rows.map key).Nodup

namespace Table

variable {κ : Type u} {ρ : Type v} {key : ρ → κ}

/-- The table without rows. -/
def empty : Table κ ρ key := ⟨[], List.nodup_nil⟩

instance : Inhabited (Table κ ρ key) := ⟨empty⟩

/-- Tables with the same rows are equal. -/
@[ext] theorem ext {s t : Table κ ρ key} (h : s.rows = t.rows) : s = t := by
  cases s
  cases t
  cases h
  rfl

/-- `select … where p limit 1`: the first row, in storage order, that satisfies `p`. -/
def select (t : Table κ ρ key) (p : ρ → Bool) : Option ρ := t.rows.find? p

/-- `delete … where p`. -/
def deleteWhere (t : Table κ ρ key) (p : ρ → Bool) : Table κ ρ key where
  rows := t.rows.filter fun r ↦ !p r
  nodup := t.nodup.sublist (List.Sublist.map key List.filter_sublist)

/-- `update … set …` by a function that leaves the key column alone. -/
def modifyWhere (t : Table κ ρ key) (p : ρ → Bool) (f : ρ → ρ) (hf : ∀ r, key (f r) = key r) :
    Table κ ρ key where
  rows := t.rows.map fun r ↦ if p r then f r else r
  nodup := by
    have h : (key ∘ fun r ↦ if p r then f r else r) = key := by
      funext r
      by_cases hp : p r <;> simp [hp, hf]
    rw [List.map_map, h]
    exact t.nodup

variable [DecidableEq κ]

/-- The row whose key is `k`. -/
def find? (t : Table κ ρ key) (k : κ) : Option ρ := t.select fun r ↦ key r = k

/-- `delete … where key = k`. -/
def delete (t : Table κ ρ key) (k : κ) : Table κ ρ key := t.deleteWhere fun r ↦ key r = k

/-! ## Reading -/

/-- A row is in the table exactly when it is found under its own key. -/
theorem mem_rows_iff (t : Table κ ρ key) {r : ρ} : r ∈ t.rows ↔ t.find? (key r) = some r := by
  constructor
  · intro h
    cases hf : t.find? (key r) with
    | none =>
      have := List.find?_eq_none.mp hf r h
      simp at this
    | some r' =>
      have hk : key r' = key r := by simpa using List.find?_some hf
      have hr : r' ∈ t.rows := List.mem_of_find?_eq_some hf
      rw [List.inj_on_of_nodup_map t.nodup hr h hk]
  · exact List.mem_of_find?_eq_some

/-- What `find?` returns is a row with that key. -/
theorem find?_eq_some_iff (t : Table κ ρ key) {k : κ} {r : ρ} :
    t.find? k = some r ↔ r ∈ t.rows ∧ key r = k := by
  constructor
  · intro h
    exact ⟨List.mem_of_find?_eq_some h, by simpa using List.find?_some h⟩
  · rintro ⟨h, rfl⟩
    exact t.mem_rows_iff.mp h

/-- The row found under `k` carries the key `k`. -/
theorem key_of_find? {t : Table κ ρ key} {k : κ} {r : ρ} (h : t.find? k = some r) : key r = k :=
  (t.find?_eq_some_iff.mp h).2

/-- Nothing is found under `k` exactly when no row carries it. -/
theorem find?_eq_none_iff (t : Table κ ρ key) {k : κ} :
    t.find? k = none ↔ ∀ r ∈ t.rows, key r ≠ k := by
  simp [find?, select]

/-- A selected row is a row of the table and satisfies the condition. -/
theorem select_eq_some {t : Table κ ρ key} {p : ρ → Bool} {r : ρ} (h : t.select p = some r) :
    t.find? (key r) = some r ∧ p r :=
  ⟨t.mem_rows_iff.mp (List.mem_of_find?_eq_some h), List.find?_some h⟩

/-- Selecting finds something when a row satisfies the condition. -/
theorem select_isSome {t : Table κ ρ key} {p : ρ → Bool} {k : κ} {r : ρ}
    (h : t.find? k = some r) (hp : p r) : ∃ r', t.select p = some r' := by
  rw [← Option.isSome_iff_exists]
  exact List.find?_isSome.mpr ⟨r, (t.find?_eq_some_iff.mp h).1, hp⟩

/-! ## Deleting -/

/-- After a delete, a key finds what it found before unless that row was deleted. -/
theorem find?_deleteWhere (t : Table κ ρ key) (p : ρ → Bool) (k : κ) :
    (t.deleteWhere p).find? k = (t.find? k).filter fun r ↦ !p r := by
  ext r
  simp only [find?_eq_some_iff, deleteWhere, List.mem_filter, Option.filter_eq_some_iff]
  tauto

/-- Deleting by key removes that key and no other. -/
theorem find?_delete (t : Table κ ρ key) (k j : κ) :
    (t.delete k).find? j = if j = k then none else t.find? j := by
  rw [delete, find?_deleteWhere]
  cases h : t.find? j with
  | none => simp
  | some r =>
    have hr : key r = j := key_of_find? h
    by_cases hj : j = k <;> simp [Option.filter, hr, hj]

/-! ## Updating -/

/-- An update that leaves keys alone changes the rows it selects in place. -/
theorem find?_modifyWhere (t : Table κ ρ key) (p : ρ → Bool) (f : ρ → ρ)
    (hf : ∀ r, key (f r) = key r) (k : κ) :
    (t.modifyWhere p f hf).find? k = (t.find? k).map fun r ↦ if p r then f r else r := by
  have h : (fun r ↦ decide (key r = k)) ∘ (fun r ↦ if p r then f r else r)
      = fun r ↦ decide (key r = k) := by
    funext r
    by_cases hp : p r <;> simp [hp, hf]
  simp only [find?, select, modifyWhere, List.find?_map, h]

/-- `update … set (all columns) = r where key = k`.  Without such a row nothing happens;
a new key that belongs to another row violates the primary key. -/
def update (t : Table κ ρ key) (k : κ) (r : ρ) : Option (Table κ ρ key) :=
  match t.find? k with
  | none => some t
  | some _ =>
    if h : key r = k ∨ t.find? (key r) = none then
      some
        { rows := t.rows.map fun r' ↦ if key r' = k then r else r'
          nodup := by
            have hg : key ∘ (fun r' ↦ if key r' = k then r else r')
                = (fun j ↦ if j = k then key r else j) ∘ key := by
              funext r'
              by_cases hk : key r' = k <;> simp [hk]
            rw [List.map_map, hg, ← List.map_map]
            refine t.nodup.map_on fun i hi j hj hij ↦ ?_
            have fresh : ∀ x ∈ t.rows.map key, x ≠ k → x ≠ key r := by
              rintro x hx hxk rfl
              obtain ⟨r', hr', hkr⟩ := List.mem_map.mp hx
              rcases h with h | h
              · exact hxk h
              · exact t.find?_eq_none_iff.mp h r' hr' hkr
            by_cases hik : i = k <;> by_cases hjk : j = k
            · rw [hik, hjk]
            · simp only [hik, hjk, if_true, if_false] at hij
              exact absurd hij.symm (fresh j hj hjk)
            · simp only [hik, hjk, if_true, if_false] at hij
              exact absurd hij (fresh i hi hik)
            · simpa [hik, hjk] using hij }
    else none

/-- Without a row under `k` an update succeeds and changes nothing. -/
theorem update_of_find?_eq_none {t : Table κ ρ key} {k : κ} (r : ρ) (h : t.find? k = none) :
    t.update k r = some t := by
  simp [update, h]

/-- An update that keeps the key always succeeds. -/
theorem update_isSome (t : Table κ ρ key) {k : κ} {r : ρ} (hr : key r = k) :
    ∃ t', t.update k r = some t' := by
  unfold update
  split
  · exact ⟨t, rfl⟩
  · exact ⟨_, dif_pos (Or.inl hr)⟩

/-- An update replaces the row that has the key, where it stands. -/
theorem rows_update {t t' : Table κ ρ key} {k : κ} {r : ρ} (h : t.update k r = some t') :
    t'.rows = t.rows.map fun r' ↦ if key r' = k then r else r' := by
  unfold update at h
  split at h
  · rename_i hnone
    cases h
    have hnot := t.find?_eq_none_iff.mp hnone
    calc t.rows = t.rows.map id := (List.map_id _).symm
      _ = t.rows.map fun r' ↦ if key r' = k then r else r' :=
        List.map_congr_left fun r' hr' ↦ (if_neg (hnot r' hr')).symm
  · split at h
    · cases h
      rfl
    · cases h

/-- What an update leaves in place of a row. -/
theorem find?_update_row {t t' : Table κ ρ key} {k : κ} {r r₀ : ρ}
    (h : t.update k r = some t') (hk : t.find? k = some r₀) (j : κ) :
    t'.find? j = if j = key r then some r else if j = k then none else t.find? j := by
  obtain ⟨hmem, hkey⟩ := t.find?_eq_some_iff.mp hk
  by_cases hj : j = key r
  · rw [if_pos hj, find?_eq_some_iff, rows_update h]
    exact ⟨List.mem_map.mpr ⟨r₀, hmem, if_pos hkey⟩, hj.symm⟩
  have hother {x : ρ} (hx : key x = j) : x ∈ t'.rows ↔ x ∈ t.rows ∧ j ≠ k := by
    rw [rows_update h, List.mem_map]
    constructor
    · rintro ⟨y, hy, rfl⟩
      by_cases hyk : key y = k
      · rw [if_pos hyk] at hx
        exact absurd hx.symm hj
      · rw [if_neg hyk] at hx ⊢
        exact ⟨hy, hx ▸ hyk⟩
    · rintro ⟨hmem, hne⟩
      exact ⟨x, hmem, if_neg (hx ▸ hne)⟩
  rw [if_neg hj]
  ext x
  rw [find?_eq_some_iff, and_congr_left hother]
  by_cases hjk : j = k
  · simp [hjk]
  · rw [if_neg hjk, find?_eq_some_iff]
    simp [hjk]

/-- After an update that keeps the key, that key finds the new row if it found one before. -/
theorem find?_update {t t' : Table κ ρ key} {k : κ} {r : ρ} (h : t.update k r = some t')
    (hr : key r = k) (j : κ) :
    t'.find? j = if j = k then (t.find? k).map (fun _ ↦ r) else t.find? j := by
  rcases hk : t.find? k with _ | r₀
  · rw [update_of_find?_eq_none r hk, Option.some.injEq] at h
    by_cases hj : j = k <;> simp [hj, hk, ← h]
  · rw [find?_update_row h hk, hr]
    by_cases hj : j = k <;> simp [hj]

/-- An update brings no key but that of its row. -/
theorem find?_update_eq_none {t t' : Table κ ρ key} {k j : κ} {r : ρ}
    (h : t.update k r = some t') (hj : j ≠ key r) (hnone : t.find? j = none) :
    t'.find? j = none := by
  rcases hk : t.find? k with _ | r₀
  · rw [update_of_find?_eq_none r hk, Option.some.injEq] at h
    rw [← h]
    exact hnone
  · rw [find?_update_row h hk, if_neg hj, hnone]
    exact ite_self none

/-- The update of a row fails exactly when the new key is that of another row. -/
theorem update_eq_none_iff {t : Table κ ρ key} {k : κ} {r r₀ : ρ} (hk : t.find? k = some r₀) :
    t.update k r = none ↔ ¬ (key r = k ∨ t.find? (key r) = none) := by
  unfold update
  simp only [hk]
  split
  · rename_i hfree
    simp [hfree]
  · rename_i htaken
    simp [htaken]

/-- An update that leaves a column of its row leaves that column of the table. -/
theorem map_rows_update {α : Type*} {t t' : Table κ ρ key} {k : κ} {r : ρ} (f : ρ → α)
    (h : t.update k r = some t') (hf : ∀ r₀, t.find? k = some r₀ → f r = f r₀) :
    t'.rows.map f = t.rows.map f := by
  unfold update at h
  split at h
  · cases h
    rfl
  · rename_i r₀ hr₀
    split at h
    · cases h
      rw [List.map_map]
      refine List.map_congr_left fun x hx ↦ ?_
      by_cases hk : key x = k
      · have hx₀ : t.find? k = some x := t.find?_eq_some_iff.mpr ⟨hx, hk⟩
        simp only [Function.comp_apply, hk, if_true]
        exact hf x hx₀
      · simp only [Function.comp_apply, hk, if_false]
    · cases h

/-! ## Inserting -/

/-- `insert into …`; a key that is already taken violates the primary key. -/
def insert (t : Table κ ρ key) (r : ρ) : Option (Table κ ρ key) :=
  if h : t.find? (key r) = none then
    some
      { rows := t.rows ++ [r]
        nodup := by
          rw [List.map_append, List.map_singleton]
          refine t.nodup.append (List.nodup_singleton _) ?_
          intro k hk hr
          obtain ⟨r', hr', rfl⟩ := List.mem_map.mp hk
          exact t.find?_eq_none_iff.mp h r' hr' (List.mem_singleton.mp hr) }
  else none

/-- A successful insert used a free key. -/
theorem find?_of_insert {t t' : Table κ ρ key} {r : ρ} (h : t.insert r = some t') :
    t.find? (key r) = none := by
  by_contra hn
  simp [insert, hn] at h

/-- After a successful insert, the new key finds the new row. -/
theorem find?_insert {t t' : Table κ ρ key} {r : ρ} (h : t.insert r = some t') (k : κ) :
    t'.find? k = if k = key r then some r else t.find? k := by
  have hn : t.find? (key r) = none := find?_of_insert h
  rw [insert, dif_pos hn] at h
  cases h
  simp only [find?, select] at hn ⊢
  by_cases hk : k = key r
  · subst hk
    simp [hn]
  · have hr : ¬ key r = k := fun h ↦ hk h.symm
    simp [hk, hr, Option.or_none]

/-- A new row comes last. -/
theorem rows_of_insert {t t' : Table κ ρ key} {r : ρ} (h : t.insert r = some t') :
    t'.rows = t.rows ++ [r] := by
  rw [insert, dif_pos (find?_of_insert h)] at h
  rw [← Option.some.inj h]

/-- The rows after an insert are the new row and those from before. -/
theorem mem_rows_of_insert {t t' : Table κ ρ key} {r x : ρ} (h : t.insert r = some t')
    (hx : x ∈ t'.rows) : x = r ∨ x ∈ t.rows := by
  rw [rows_of_insert h] at hx
  rcases List.mem_append.mp hx with hx | hx
  · exact .inr hx
  · exact .inl (List.mem_singleton.mp hx)

/-- A free key can be inserted. -/
theorem insert_isSome {t : Table κ ρ key} {r : ρ} (h : t.find? (key r) = none) :
    ∃ t', t.insert r = some t' := ⟨_, dif_pos h⟩

/-- The keys are still different with one more row exactly when its key is free. -/
theorem nodup_concat_iff (t : Table κ ρ key) (r : ρ) :
    ((t.rows ++ [r]).map key).Nodup ↔ t.find? (key r) = none := by
  constructor
  · intro hnodup
    rw [t.find?_eq_none_iff]
    intro r' hr' hkey
    rw [List.map_append, List.nodup_append'] at hnodup
    exact hnodup.2.2 (List.mem_map_of_mem hr') (by simp [hkey])
  · intro hfree
    obtain ⟨t', ht'⟩ := insert_isSome hfree
    rw [← rows_of_insert ht']
    exact t'.nodup

/-- The keys are still different after a replacement exactly when the update succeeds. -/
theorem nodup_replace_iff (t : Table κ ρ key) (k : κ) (r : ρ) :
    ((t.rows.map fun r' ↦ if key r' = k then r else r').map key).Nodup ↔
      ∃ t', t.update k r = some t' := by
  constructor
  · intro hnodup
    rw [← Option.isSome_iff_exists, ← Option.ne_none_iff_isSome]
    intro hnone
    rcases hk : t.find? k with _ | r₀
    · rw [update_of_find?_eq_none r hk] at hnone
      cases hnone
    · -- the row and the one that has the new key already would have the same key
      obtain ⟨hkey, htaken⟩ := not_or.mp ((update_eq_none_iff hk).mp hnone)
      obtain ⟨r₁, hr₁⟩ := Option.ne_none_iff_exists'.mp htaken
      obtain ⟨hmem₀, hkey₀⟩ := t.find?_eq_some_iff.mp hk
      obtain ⟨hmem₁, hkey₁⟩ := t.find?_eq_some_iff.mp hr₁
      rw [List.map_map] at hnodup
      have hne₁ : key r₁ ≠ k := fun heq ↦ hkey (hkey₁.symm.trans heq)
      have hsame := List.inj_on_of_nodup_map hnodup hmem₀ hmem₁ (by simp [hkey₀, hkey₁, hkey])
      exact hne₁ (hsame ▸ hkey₀)
  · rintro ⟨t', ht'⟩
    rw [← rows_update ht']
    exact t'.nodup

/-! ## Rows in another order -/

/-- Tables with the same rows, maybe in another order. -/
def Same (s t : Table κ ρ key) : Prop := s.rows.Perm t.rows

section Same

variable {s t : Table κ ρ key}

omit [DecidableEq κ] in
/-- At most one row satisfies the condition, so its place does not matter. -/
theorem Same.select_eq (h : s.Same t) {p : ρ → Bool}
    (hone : ∀ r ∈ t.rows, ∀ r' ∈ t.rows, p r → p r' → r = r') : s.select p = t.select p := by
  rcases hs : s.select p with _ | r <;> rcases ht : t.select p with _ | r'
  · rfl
  · have hmem := h.mem_iff.mpr (List.mem_of_find?_eq_some ht)
    exact absurd (List.find?_some ht) (List.find?_eq_none.mp hs r' hmem)
  · have hmem := h.mem_iff.mp (List.mem_of_find?_eq_some hs)
    exact absurd (List.find?_some hs) (List.find?_eq_none.mp ht r hmem)
  · have hmem := h.mem_iff.mp (List.mem_of_find?_eq_some hs)
    exact congrArg some (hone r hmem r' (List.mem_of_find?_eq_some ht) (List.find?_some hs)
      (List.find?_some ht))

theorem Same.find?_eq (h : s.Same t) (k : κ) : s.find? k = t.find? k := by
  ext r
  rw [find?_eq_some_iff, find?_eq_some_iff, h.mem_iff]

theorem Same.insert (h : s.Same t) (r : ρ) : Option.Rel Same (s.insert r) (t.insert r) := by
  have hfind := h.find?_eq (key r)
  rcases hs : s.insert r with _ | s' <;> rcases ht : t.insert r with _ | t'
  · exact .none
  · obtain ⟨s', hs'⟩ := insert_isSome (hfind.trans (find?_of_insert ht))
    rw [hs] at hs'
    cases hs'
  · obtain ⟨t', ht'⟩ := insert_isSome (hfind.symm.trans (find?_of_insert hs))
    rw [ht] at ht'
    cases ht'
  · refine .some ?_
    rw [Same, rows_of_insert hs, rows_of_insert ht]
    exact h.append_right [r]

theorem Same.update (h : s.Same t) (k : κ) (r : ρ) :
    Option.Rel Same (s.update k r) (t.update k r) := by
  have hrows := h.map fun r' ↦ if key r' = k then r else r'
  have hiff := (hrows.map key).nodup_iff
  rw [nodup_replace_iff, nodup_replace_iff] at hiff
  rcases hs : s.update k r with _ | s' <;> rcases ht : t.update k r with _ | t'
  · exact .none
  · obtain ⟨s', hs'⟩ := hiff.mpr ⟨t', ht⟩
    rw [hs] at hs'
    cases hs'
  · obtain ⟨t', ht'⟩ := hiff.mp ⟨s', hs⟩
    rw [ht] at ht'
    cases ht'
  · refine .some ?_
    rw [Same, rows_update hs, rows_update ht]
    exact hrows

theorem Same.delete (h : s.Same t) (k : κ) : (s.delete k).Same (t.delete k) := h.filter _

end Same

end Table

end Kit
