import OwSec.Kit.Cache
import OwSec.Kit.Sql
import OwSec.Kit.Table

/-!
# Stores under a map of what they hold

A function on the rows of a table that leaves the keys alone, and a function on the values of a
cache, act on the whole store.  Each operation of a store commutes with such a map when it is given
the mapped argument, so whoever sees a store through the map sees the operations too.  A query
commutes with it when no column of the schema sees what the map changes.
-/

namespace Kit

universe u v

namespace Table

variable {κ : Type u} {ρ : Type v} {key : ρ → κ} {f : ρ → ρ}

/-- Change every row by a function that leaves its key alone. -/
def mapRows (t : Table κ ρ key) (f : ρ → ρ) (hf : ∀ r, key (f r) = key r) : Table κ ρ key where
  rows := t.rows.map f
  nodup := by
    have hkeys : key ∘ f = key := funext hf
    rw [List.map_map, hkeys]
    exact t.nodup

section

variable (t : Table κ ρ key) (hf : ∀ r, key (f r) = key r)

/-- A change that a second one overwrites. -/
theorem mapRows_mapRows_eq {g : ρ → ρ} (hg : ∀ r, key (g r) = key r) (hfg : ∀ r, g (f r) = g r) :
    (t.mapRows f hf).mapRows g hg = t.mapRows g hg := by
  ext1
  show (t.rows.map f).map g = t.rows.map g
  rw [List.map_map]
  exact List.map_congr_left fun r _ ↦ hfg r

theorem select_mapRows {p : ρ → Bool} (hp : ∀ r, p (f r) = p r) :
    (t.mapRows f hf).select p = (t.select p).map f := by
  have hcomp : p ∘ f = p := funext hp
  unfold select mapRows
  rw [List.find?_map, hcomp]

theorem deleteWhere_mapRows {p : ρ → Bool} (hp : ∀ r, p (f r) = p r) :
    (t.mapRows f hf).deleteWhere p = (t.deleteWhere p).mapRows f hf := by
  ext1
  have hcomp : (fun r ↦ !p r) ∘ f = fun r ↦ !p r := funext fun r ↦ congrArg Bool.not (hp r)
  show (t.rows.map f).filter _ = (t.rows.filter _).map f
  rw [List.filter_map, hcomp]

variable [DecidableEq κ]

theorem find?_mapRows (k : κ) : (t.mapRows f hf).find? k = (t.find? k).map f :=
  t.select_mapRows hf fun r ↦ by rw [hf]

theorem insert_mapRows (r : ρ) :
    (t.mapRows f hf).insert (f r) = (t.insert r).map fun t ↦ t.mapRows f hf := by
  unfold insert
  by_cases hfree : t.find? (key r) = none
  · have hfree' : (t.mapRows f hf).find? (key (f r)) = none := by
      rw [hf, find?_mapRows, hfree]
      rfl
    rw [dif_pos hfree, dif_pos hfree', Option.map_some]
    congr 1
    ext1
    show t.rows.map f ++ [r].map f = (t.rows ++ [r]).map f
    exact List.map_append.symm
  · have htaken : (t.mapRows f hf).find? (key (f r)) ≠ none := by
      rw [hf, find?_mapRows]
      simpa using hfree
    rw [dif_neg hfree, dif_neg htaken, Option.map_none]

theorem update_mapRows (k : κ) (r : ρ) :
    (t.mapRows f hf).update k (f r) = (t.update k r).map fun t ↦ t.mapRows f hf := by
  unfold update
  rw [find?_mapRows]
  rcases t.find? k with _ | old
  · rfl
  · have hcond : (key (f r) = k ∨ (t.mapRows f hf).find? (key (f r)) = none) ↔
        (key r = k ∨ t.find? (key r) = none) := by
      rw [hf, find?_mapRows, Option.map_eq_none_iff]
    by_cases hkey : key r = k ∨ t.find? (key r) = none
    · simp only [Option.map_some, dif_pos (hcond.mpr hkey), dif_pos hkey]
      congr 1
      ext1
      show (t.rows.map f).map _ = (t.rows.map _).map f
      rw [List.map_map, List.map_map]
      refine List.map_congr_left fun r' _ ↦ ?_
      simp only [Function.comp_apply, hf]
      split <;> rfl
    · simp only [Option.map_some, dif_neg (mt hcond.mp hkey), dif_neg hkey, Option.map_none]

theorem delete_mapRows (k : κ) : (t.mapRows f hf).delete k = (t.delete k).mapRows f hf :=
  t.deleteWhere_mapRows hf fun r ↦ by rw [hf]

end

end Table

namespace Cache

variable {κ : Type u} {ν : Type v}

/-- Change every value. -/
def mapValues (c : Cache κ ν) (f : ν → ν) : Cache κ ν where
  entries := c.entries.map (Sigma.map id fun _ ↦ f)
  nodupKeys := List.NodupKeys.map₂ (fun _ ↦ f) c.entries c.nodupKeys

variable [DecidableEq κ] (c : Cache κ ν) (f : ν → ν)

omit [DecidableEq κ] in
/-- A change that a second one overwrites. -/
theorem mapValues_mapValues_eq {g : ν → ν} (hfg : ∀ v, g (f v) = g v) :
    (c.mapValues f).mapValues g = c.mapValues g := by
  ext1
  simp only [mapValues, List.map_map]
  refine List.map_congr_left fun e _ ↦ ?_
  exact congrArg (Sigma.mk e.1) (hfg e.2)

theorem lookup_mapValues (k : κ) : (c.mapValues f).lookup k = (c.lookup k).map f :=
  List.dlookup_map₂ (l := c.entries) (f := fun _ ↦ f) k

theorem erase_mapValues (k : κ) : (c.mapValues f).erase k = mapValues (c.erase k) f := by
  ext1
  exact List.eraseP_map

theorem insert_mapValues (k : κ) (v : ν) :
    (c.mapValues f).insert k (f v) = mapValues (c.insert k v) f := by
  have herase : (mapValues c f).entries.kerase k = (mapValues (c.erase k) f).entries :=
    congrArg AList.entries (c.erase_mapValues f k)
  ext1
  rw [AList.entries_insert, herase]
  rfl

end Cache

namespace Sql

variable {ρ : Type u} {f : ρ → ρ} (d : Dialect) {schema : Schema ρ}

/-- No column of the schema sees what `f` changes. -/
def Schema.Ignores (schema : Schema ρ) (f : ρ → ρ) : Prop := ∀ c ∈ schema, ∀ r, c.2 (f r) = c.2 r

theorem Schema.Ignores.column (h : schema.Ignores f) {name : List Char} {g : ρ → String}
    (hg : schema.column name = some g) (r : ρ) : g (f r) = g r := by
  obtain ⟨c, hc, rfl⟩ := Option.map_eq_some_iff.mp hg
  exact h c (List.mem_of_find?_eq_some hc) r

theorem Schema.Ignores.operand (h : schema.Ignores f) {o : Operand} {g : ρ → String}
    (hg : o.eval d schema = some g) (r : ρ) : g (f r) = g r := by
  cases o with
  | text t =>
    cases hg
    rfl
  | column name => exact h.column hg r
  | call function name =>
    simp only [Operand.eval] at hg
    split at hg
    · obtain ⟨g', hg', rfl⟩ := Option.map_eq_some_iff.mp hg
      exact congrArg d.lower (h.column hg' r)
    · cases hg

theorem Schema.Ignores.comparison (h : schema.Ignores f) {c : Comparison} {p : ρ → Bool}
    (hp : c.eval d schema = some p) (r : ρ) : p (f r) = p r := by
  cases c with
  | equal left right =>
    simp only [Comparison.eval, Option.bind_eq_bind, Option.bind_eq_some_iff] at hp
    obtain ⟨l, hl, r', hr, hp⟩ := hp
    cases hp
    simp only [h.operand d hl r, h.operand d hr r]
  | like left right =>
    simp only [Comparison.eval, Option.bind_eq_bind, Option.bind_eq_some_iff] at hp
    obtain ⟨l, hl, r', hr, hp⟩ := hp
    cases hp
    simp only [h.operand d hl r, h.operand d hr r]

theorem Schema.Ignores.branch (h : schema.Ignores f) {cs : List Comparison} {ps : List (ρ → Bool)}
    (hps : evalBranch d schema cs = some ps) (r : ρ) :
    (ps.all fun p ↦ p (f r)) = ps.all fun p ↦ p r := by
  induction cs generalizing ps with
  | nil =>
    cases hps
    rfl
  | cons c cs ih =>
    simp only [evalBranch, List.mapM_cons, Option.bind_eq_bind, Option.bind_eq_some_iff] at hps
    obtain ⟨p, hp, rest, hrest, hps⟩ := hps
    cases hps
    rw [List.all_cons, List.all_cons, h.comparison d hp, ih hrest]

theorem Schema.Ignores.branches (h : schema.Ignores f) {css : List (List Comparison)}
    {pss : List (List (ρ → Bool))} (hpss : css.mapM (evalBranch d schema) = some pss) (r : ρ) :
    (pss.any fun ps ↦ ps.all fun p ↦ p (f r)) = pss.any fun ps ↦ ps.all fun p ↦ p r := by
  induction css generalizing pss with
  | nil =>
    cases hpss
    rfl
  | cons cs css ih =>
    simp only [List.mapM_cons, Option.bind_eq_bind, Option.bind_eq_some_iff] at hpss
    obtain ⟨ps, hps, rest, hrest, hpss⟩ := hpss
    cases hpss
    rw [List.any_cons, List.any_cons, h.branch d hps, ih hrest]

/-- A condition does not see it either. -/
theorem Schema.Ignores.condition (h : schema.Ignores f) {text : List Char} {p : ρ → Bool}
    (hp : condition d schema text = some p) (r : ρ) : p (f r) = p r := by
  obtain ⟨css, -, hp⟩ := Option.bind_eq_some_iff.mp hp
  obtain ⟨pss, hpss, rfl⟩ := Option.map_eq_some_iff.mp hp
  exact h.branches d hpss r

/-- Keeping mapped rows by a condition. -/
theorem filter_map_of_ignores {p : ρ → Bool} (hp : ∀ r, p (f r) = p r) (rows : List ρ) :
    (rows.map f).filter p = (rows.filter p).map f := by
  have hcomp : p ∘ f = p := funext hp
  rw [List.filter_map, hcomp]

/-- Selecting from mapped rows. -/
theorem Schema.Ignores.select_map (h : schema.Ignores f) (text : List Char) (offset limit : ℕ)
    (rows : List ρ) :
    select d schema text offset limit (rows.map f) =
      (select d schema text offset limit rows).map (List.map f) := by
  unfold select
  split
  · have hmap (p : ρ → Bool) (hp : ∀ r, p (f r) = p r) :
        (((rows.map f).filter p).drop offset).take limit =
          (((rows.filter p).drop offset).take limit).map f := by
      rw [filter_map_of_ignores hp, ← List.map_drop, ← List.map_take]
    split
    · exact congrArg some (hmap _ fun _ ↦ rfl)
    · rcases hcond : Sql.condition d schema text with _ | p
      · rfl
      · exact congrArg some (hmap p (h.condition d hcond))
  · rfl

end Sql

end Kit
