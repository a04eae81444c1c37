import OwSec.Kit.Pages
import OwSec.Storage.UserDB

/-!
# Visiting the records of a table

`DB::Iterate` (`framework/orm.h`) fetches the records that match a condition in batches and calls
a function on each of them, until the function refuses one.  The table does not change while it
runs.  `GetRecords` fails where there is no row, which is how the loop finds the end of a table
whose last batch is full.
-/

namespace OwSec

open Kit

universe u v

section Iterate

variable {ρ : Type u} {σ : Type v}

/-- `std::function<bool(const RecordType &)>`, with the state that it works on. -/
abbrev Callback (ρ : Type u) (σ : Type v) := ρ → σ → Bool × σ

/-- `DB::GetRecords`: `none` where no row was extracted. -/
def getRecords (rows : List ρ) (whereClause : ρ → Bool) (offset howMany : ℕ) : Option (List ρ) :=
  let records := ((rows.filter whereClause).drop offset).take howMany
  if records.isEmpty then none else some records

/-- The loop over the records of a batch; `false` is the `return` in it. -/
def visitBatch (F : Callback ρ σ) : List ρ → σ → Bool × σ
  | [], s => (true, s)
  | r :: records, s =>
    match F r s with
    | (true, s) => visitBatch F records s
    | (false, s) => (false, s)

/-- `Batch`. -/
def batchSize : ℕ := 50

/-- The loop of `DB::Iterate` from an offset on.  Running out of fuel is `none`; an offset is no
larger than a table, so that it does not wrap. -/
def iterateFrom (F : Callback ρ σ) (rows : List ρ) (whereClause : ρ → Bool) :
    ℕ → ℕ → σ → Option (Bool × σ)
  | 0, _, _ => none
  | fuel + 1, offset, s =>
    match getRecords rows whereClause offset batchSize with
    | some records =>
      match visitBatch F records s with
      | (false, s) => some (true, s)
      | (true, s) =>
        if records.length < batchSize then some (true, s)
        else iterateFrom F rows whereClause fuel (offset + batchSize) s
    | none => some (true, s)

/-- `DB::Iterate`: its answer, and the state of the function afterwards. -/
def iterate (F : Callback ρ σ) (rows : List ρ) (whereClause : ρ → Bool) (fuel : ℕ) (s : σ) :
    Option (Bool × σ) :=
  iterateFrom F rows whereClause fuel 0 s

/-- The function is called on the records of a list, each one once and in order, up to and including
the first one that it refuses. -/
inductive Visits (F : Callback ρ σ) : List ρ → σ → List ρ → σ → Prop
  | nil (s : σ) : Visits F [] s [] s
  | refused {r : ρ} {s s' : σ} (records : List ρ) (h : F r s = (false, s')) :
    Visits F (r :: records) s [r] s'
  | accepted {r : ρ} {s s' s'' : σ} {records called : List ρ} (h : F r s = (true, s'))
    (hrest : Visits F records s' called s'') : Visits F (r :: records) s (r :: called) s''

/-- A function that keeps the list of its calls besides. -/
def Callback.logged (F : Callback ρ σ) : Callback ρ (σ × List ρ) := fun r s ↦
  ((F r s.1).1, (F r s.1).2, s.2 ++ [r])

/-! ## One batch after the other -/

variable {F : Callback ρ σ}

/-- Visiting a list is visiting its first part, and the rest unless a record was refused. -/
theorem visitBatch_append (records more : List ρ) (s : σ) :
    visitBatch F (records ++ more) s =
      match visitBatch F records s with
      | (true, s) => visitBatch F more s
      | (false, s) => (false, s) := by
  induction records generalizing s with
  | nil => rfl
  | cons r records ih =>
    rw [List.cons_append, visitBatch, visitBatch]
    rcases F r s with ⟨_ | _, s'⟩
    · rfl
    · exact ih s'

theorem drop_eq_page_append (records : List ρ) (k : ℕ) :
    records.drop (k * batchSize) =
      page records batchSize k ++ records.drop ((k + 1) * batchSize) := by
  rw [page, Nat.succ_mul, ← List.drop_drop, List.take_append_drop]

/-- After so many full batches the loop visits what is left, by induction on the batches to come. -/
theorem iterateFrom_eq (rows : List ρ) (whereClause : ρ → Bool) {fuel k : ℕ} (s : σ)
    (hfull : k * batchSize ≤ (rows.filter whereClause).length)
    (hfuel : (rows.filter whereClause).length < (k + fuel) * batchSize) :
    iterateFrom F rows whereClause fuel (k * batchSize) s =
      some (true, (visitBatch F ((rows.filter whereClause).drop (k * batchSize)) s).2) := by
  induction fuel generalizing k s with
  | zero => exact absurd hfuel (Nat.not_lt.mpr hfull)
  | succ fuel ih =>
    have hget : getRecords rows whereClause (k * batchSize) batchSize =
        if (page (rows.filter whereClause) batchSize k).isEmpty then none
        else some (page (rows.filter whereClause) batchSize k) := rfl
    have hlength : (page (rows.filter whereClause) batchSize k).length =
        min batchSize ((rows.filter whereClause).length - k * batchSize) := by
      rw [page, List.length_take, List.length_drop]
    rw [drop_eq_page_append, visitBatch_append, iterateFrom, hget]
    generalize hpage : page (rows.filter whereClause) batchSize k = records at hlength
    rcases records with _ | ⟨r, records⟩
    · have hend : (rows.filter whereClause).drop ((k + 1) * batchSize) = [] := by
        refine List.drop_of_length_le ?_
        rw [List.length_nil] at hlength
        simp only [batchSize] at hlength ⊢
        omega
      rw [hend]
      rfl
    · simp only [List.isEmpty_cons, Bool.false_eq_true, if_false]
      rcases visitBatch F (r :: records) s with ⟨_ | _, s'⟩
      · rfl
      · dsimp only
        split
        · rename_i hshort
          have hend : (rows.filter whereClause).drop ((k + 1) * batchSize) = [] := by
            refine List.drop_of_length_le ?_
            rw [hlength] at hshort
            simp only [batchSize] at hshort ⊢
            omega
          rw [hend]
          rfl
        · rename_i hnot
          have hnext : k * batchSize + batchSize = (k + 1) * batchSize := by rw [Nat.succ_mul]
          rw [hnext]
          refine ih s' ?_ ?_
          · rw [hlength] at hnot
            simp only [batchSize] at hnot ⊢
            omega
          · simp only [batchSize] at hfuel ⊢
            omega

/-- The loop visits all that match. -/
theorem iterate_eq (rows : List ρ) (whereClause : ρ → Bool) {fuel : ℕ} (s : σ)
    (hfuel : (rows.filter whereClause).length / batchSize < fuel) :
    iterate F rows whereClause fuel s =
      some (true, (visitBatch F (rows.filter whereClause) s).2) := by
  have hfuel' : (rows.filter whereClause).length < (0 + fuel) * batchSize := by
    simp only [batchSize] at hfuel ⊢
    omega
  have hrun := iterateFrom_eq (F := F) rows whereClause s (by simp) hfuel'
  rwa [Nat.zero_mul] at hrun

/-- The log of a visit is the list of the calls. -/
theorem exists_visits (records : List ρ) (s : σ) (log : List ρ) :
    ∃ called, Visits F records s called (visitBatch F records s).2 ∧
      (visitBatch F.logged records (s, log)).2 =
        ((visitBatch F records s).2, log ++ called) := by
  induction records generalizing s log with
  | nil => exact ⟨[], .nil s, by simp [visitBatch]⟩
  | cons r records ih =>
    have hlogged : F.logged r (s, log) = ((F r s).1, (F r s).2, log ++ [r]) := rfl
    rw [visitBatch, visitBatch, hlogged]
    rcases hr : F r s with ⟨_ | _, s'⟩
    · exact ⟨[r], .refused records hr, rfl⟩
    · obtain ⟨called, hvisits, hlog⟩ := ih s' (log ++ [r])
      refine ⟨r :: called, .accepted hr hvisits, ?_⟩
      dsimp only
      rw [hlog, List.append_assoc]
      rfl

/-- For every number of records that match, the loop ends, with the answer `true`, and its calls
are the visit of these records. -/
theorem iterate_visits (F : Callback ρ σ) (rows : List ρ) (whereClause : ρ → Bool) (s : σ) :
    ∃ called s', Visits F (rows.filter whereClause) s called s' ∧
      ∀ fuel > (rows.filter whereClause).length / batchSize,
        iterate F rows whereClause fuel s = some (true, s') ∧
          iterate F.logged rows whereClause fuel (s, []) = some (true, s', called) := by
  obtain ⟨called, hvisits, hlog⟩ := exists_visits (F := F) (rows.filter whereClause) s []
  refine ⟨called, _, hvisits, fun fuel hfuel ↦ ⟨iterate_eq rows whereClause s hfuel, ?_⟩⟩
  rw [iterate_eq rows whereClause (s, []) hfuel, hlog, List.nil_append]

/-- The calls of a visit are the beginning of the list. -/
theorem Visits.called_isPrefix {F : Callback ρ σ} {records called : List ρ} {s s' : σ}
    (h : Visits F records s called s') : called <+: records := by
  induction h with
  | nil => exact List.nil_prefix
  | @refused r _ _ records _ => exact ⟨records, rfl⟩
  | accepted _ _ ih => exact List.cons_prefix_cons.mpr ⟨rfl, ih⟩

/-- A function that accepts every record is called on all of them. -/
theorem Visits.called_eq {F : Callback ρ σ} {records called : List ρ} {s s' : σ}
    (h : Visits F records s called s') (haccepts : ∀ r s, (F r s).1 = true) :
    called = records := by
  induction h with
  | nil => rfl
  | @refused r s _ records hr =>
    have htrue := haccepts r s
    rw [hr] at htrue
    cases htrue
  | accepted _ _ ih => rw [ih]

end Iterate

/-! ## The user table -/

/-- `GetUsers` extracts the rows of `GetRecords`. -/
theorem Population.getUsers_eq_getRecords (svc : Service) (p : Population) {clause : String}
    {condition : SecurityObjects.UserInfo → Bool} {offset howMany : ℕ} (hclause : clause ≠ "")
    (hcondition : Sql.condition svc.dialect userColumns clause.toList = some condition)
    (hoffset : offset < 2 ^ 63) (hhowMany : howMany < 2 ^ 63) :
    p.getUsers svc offset howMany clause =
      ((getRecords p.users.rows condition offset howMany).isSome,
        (getRecords p.users.rows condition offset howMany).getD []) := by
  have hempty : clause.toList.isEmpty = false := by
    simpa using hclause
  simp only [getUsers, Sql.select, hoffset, hhowMany, and_self, if_true, hempty,
    Bool.false_eq_true, if_false, hcondition, Option.map_some, getRecords]
  cases ((p.users.rows.filter condition).drop offset).take howMany <;> rfl

end OwSec
