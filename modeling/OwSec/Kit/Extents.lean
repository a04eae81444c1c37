import Mathlib.Data.List.Nodup
import OwSec.Kit.Queries

/-!
# What statements do

The rows that are stored in a table, and what each of the statements of `OwSec.Kit.Queries` does to
them.  A statement that fails leaves no state: what becomes of the rows then is a matter of the
transaction around it.
-/

namespace Kit.Sql

universe u v

/-- A table with its rows.  The values of a unique column are different in all rows. -/
structure Extent where
  name : List Char
  columns : List (List Char)
  unique : List (List Char)
  rows : List (List Value)

/-- What a statement answers. -/
inductive Answer
  | rows (rs : List (List Value))
  | count (n : ℕ)
  | done
  deriving DecidableEq, Repr

/-- The value of a column in a row. -/
def cell (columns : List (List Char)) (row : List Value) (name : List Char) : Option Value :=
  (columns.zip row).lookup name

/-- The kinds of values. -/
inductive Kind
  | int
  | text
  | bool
  | blob
  deriving DecidableEq, Repr

def Value.kind : Value → Kind
  | .int _ => .int
  | .text _ => .text
  | .bool _ => .bool
  | .blob _ => .blob

/-- Values of one kind are the same to the engine only if they are equal. -/
structure Engine.Exact (E : Engine) : Prop where
  eq : ∀ {v w : Value}, v.kind = w.kind → E.compare .eq v w = some (decide (v = w))

/-- Values of one kind are ordered. -/
structure Engine.Ordered (E : Engine) : Prop extends E.Exact where
  gt : ∀ {v w : Value}, v.kind = w.kind → E.compare .gt v w = E.compare .lt w v
  total : ∀ {v w : Value}, v.kind = w.kind → v ≠ w →
    E.compare .lt v w = some true ∨ E.compare .lt w v = some true
  asymm : ∀ {v w : Value}, v.kind = w.kind → E.compare .lt v w = some true →
    E.compare .lt w v ≠ some true
  trans : ∀ {v w x : Value}, v.kind = w.kind → w.kind = x.kind → E.compare .lt v w = some true →
    E.compare .lt w x = some true → E.compare .lt v x = some true

/-- The elements that satisfy a condition, where it is an error if it is one for any of them. -/
def filterAll {α : Type u} (p : α → Option Bool) : List α → Option (List α)
  | [] => some []
  | a :: l => (p a).bind fun b ↦ (filterAll p l).map fun rest ↦ if b then a :: rest else rest

/-- Whether two values are the same to the engine. -/
def Engine.same (E : Engine) : Option Value → Option Value → Bool
  | some v, some w => E.compare .eq v w = some true
  | _, _ => false

/-- Whether a row may stand before another one. -/
def Engine.before (E : Engine) (columns : List (List Char)) :
    List Entry → List Value → List Value → Bool
  | [], _, _ => true
  | e :: entries, r, r' =>
    match cell columns r e.column, cell columns r' e.column with
    | some v, some w =>
      if E.compare .eq v w = some true then before E columns entries r r'
      else E.compare (match e.direction with | .asc => .lt | .desc => .gt) v w = some true
    | _, _ => true

/-- The rows of a range; the numbers are signed 64-bit integers. -/
def ranged {α : Type u} : Option Range → List α → Option (List α)
  | none, l => some l
  | some r, l =>
    if r.offset < 2 ^ 63 ∧ r.limit < 2 ^ 63 then some ((l.drop r.offset).take r.limit) else none

namespace Extent

variable (E : Engine) (ps : List Value) (R : Extent)

/-- The values of the unique columns are different. -/
def Distinct (rows : List (List Value)) : Prop :=
  ∀ c ∈ R.unique, rows.Pairwise fun r r' ↦
    E.same (cell R.columns r c) (cell R.columns r' c) = false

instance (rows : List (List Value)) : Decidable (R.Distinct E rows) :=
  inferInstanceAs (Decidable (∀ c ∈ R.unique, List.Pairwise _ _))

/-- Whether a row satisfies a condition. -/
def satisfies (condition : Option Expression) (row : List Value) : Option Bool :=
  match condition with
  | some e => e.holds E ps (cell R.columns row)
  | none => some true

/-- A row with new values. -/
def assign (settings : List (List Char × Expression)) (row : List Value) : Option (List Value) :=
  R.columns.mapM fun c ↦
    match settings.lookup c with
    | some e => e.eval E ps (cell R.columns row)
    | none => cell R.columns row c

/-- The same table with other rows. -/
def withRows (rows : List (List Value)) : Extent := { R with rows := rows }

end Extent

/-- A statement is executed; `none` is an error.  Rows come in the order of the list as far as no
other order is asked for, and a database may list them in any. -/
def Query.run (E : Engine) (ps : List Value) (R : Extent) : Query → Option (Answer × Extent)
  | .insert table columns values =>
    if table = R.name then
      (values.mapM (Expression.eval E ps fun _ ↦ none)).bind fun vs ↦
        if vs.length = columns.length then
          (R.columns.mapM (cell columns vs)).bind fun row ↦
            if R.Distinct E (R.rows ++ [row]) then some (.done, R.withRows (R.rows ++ [row]))
            else none
        else none
    else none
  | .select columns table condition order range =>
    if table = R.name then
      (filterAll (R.satisfies E ps condition) R.rows).bind fun rows ↦
        (ranged range (rows.mergeSort (E.before R.columns order))).bind fun rows ↦
          (rows.mapM fun row ↦ columns.mapM (cell R.columns row)).map fun rs ↦ (.rows rs, R)
    else none
  | .count table condition =>
    if table = R.name then
      (filterAll (R.satisfies E ps condition) R.rows).map fun rows ↦ (.count rows.length, R)
    else none
  | .update table settings condition =>
    if table = R.name ∧ settings.all fun s ↦ R.columns.contains s.1 then
      (R.rows.mapM fun row ↦ (R.satisfies E ps condition row).bind fun b ↦
          if b then R.assign E ps settings row else some row).bind fun rows ↦
        if R.Distinct E rows then some (.done, R.withRows rows) else none
    else none
  | .delete table condition =>
    if table = R.name then
      (filterAll (fun row ↦ (R.satisfies E ps condition row).map not) R.rows).map fun rows ↦
        (.done, R.withRows rows)
    else none

/-! ## Rows -/

theorem mapM_eq_some {α : Type u} {β : Type v} {f : α → Option β} {g : α → β} {l : List α}
    (h : ∀ a ∈ l, f a = some (g a)) : l.mapM f = some (l.map g) := by
  induction l with
  | nil => rfl
  | cons a l ih =>
    obtain ⟨ha, hl⟩ := List.forall_mem_cons.mp h
    rw [List.mapM_cons, ha, ih hl]
    rfl

theorem mapM_congr {α : Type u} {β : Type v} {f g : α → Option β} {l : List α}
    (h : ∀ a ∈ l, f a = g a) : l.mapM f = l.mapM g := by
  induction l with
  | nil => rfl
  | cons a l ih =>
    obtain ⟨ha, hl⟩ := List.forall_mem_cons.mp h
    rw [List.mapM_cons, List.mapM_cons, ha, ih hl]

theorem filterAll_eq_some {α : Type u} {p : α → Option Bool} {f : α → Bool} {l : List α}
    (h : ∀ a ∈ l, p a = some (f a)) : filterAll p l = some (l.filter f) := by
  induction l with
  | nil => rfl
  | cons a l ih =>
    obtain ⟨ha, hl⟩ := List.forall_mem_cons.mp h
    rw [filterAll, ha, Option.bind_some, ih hl, Option.map_some, List.filter_cons]

theorem cell_cons_self (c : List Char) (columns : List (List Char)) (v : Value)
    (row : List Value) : cell (c :: columns) (v :: row) c = some v := by
  simp [cell]

theorem cell_cons_of_ne {c name : List Char} (h : name ≠ c) (columns : List (List Char)) (v : Value)
    (row : List Value) : cell (c :: columns) (v :: row) name = cell columns row name := by
  rw [cell, List.zip_cons_cons, List.lookup_cons, beq_false_of_ne h]
  rfl

/-- There is a value in each column. -/
theorem exists_cell {columns : List (List Char)} {row : List Value}
    (hlength : row.length = columns.length) {name : List Char} (hname : name ∈ columns) :
    ∃ v, cell columns row name = some v := by
  induction columns generalizing row with
  | nil => cases hname
  | cons c columns ih =>
    obtain ⟨v, row, rfl⟩ := List.exists_cons_of_length_eq_add_one hlength
    by_cases hc : name = c
    · subst hc
      exact ⟨v, cell_cons_self _ _ _ _⟩
    · obtain ⟨w, hw⟩ := ih (Nat.succ.inj hlength) ((List.mem_cons.mp hname).resolve_left hc)
      exact ⟨w, (cell_cons_of_ne hc _ _ _).trans hw⟩

/-- The kind of the value in a column. -/
theorem kind_cell (columns : List (List Char)) (row : List Value) (name : List Char) :
    (cell columns row name).map Value.kind = (columns.zip (row.map Value.kind)).lookup name := by
  induction columns generalizing row with
  | nil => rfl
  | cons c columns ih =>
    rcases row with _ | ⟨v, row⟩
    · rfl
    · by_cases hc : name = c
      · subst hc
        rw [cell_cons_self]
        simp
      · rw [cell_cons_of_ne hc, ih, List.map_cons, List.zip_cons_cons, List.lookup_cons,
          beq_false_of_ne hc]

/-- The columns of a row, one after the other, are the row. -/
theorem mapM_cell {columns : List (List Char)} (hnodup : columns.Nodup) {row : List Value}
    (hlength : row.length = columns.length) : columns.mapM (cell columns row) = some row := by
  induction columns generalizing row with
  | nil =>
    obtain rfl := List.eq_nil_of_length_eq_zero hlength
    rfl
  | cons c columns ih =>
    obtain ⟨hc, hcolumns⟩ := List.nodup_cons.mp hnodup
    obtain ⟨v, row, rfl⟩ := List.exists_cons_of_length_eq_add_one hlength
    have htail : columns.mapM (cell (c :: columns) (v :: row)) = columns.mapM (cell columns row) :=
      mapM_congr fun _ hname ↦ cell_cons_of_ne (ne_of_mem_of_not_mem hname hc) columns v row
    rw [List.mapM_cons, cell_cons_self, htail, ih hcolumns (Nat.succ.inj hlength)]
    rfl

theorem mem_of_mem_ranged {α : Type u} {r : Option Range} {l l' : List α}
    (h : ranged r l = some l') {a : α} (ha : a ∈ l') : a ∈ l := by
  rcases r with _ | r
  · rwa [Option.some.inj h]
  · obtain ⟨-, h⟩ := Option.ite_none_right_eq_some.mp h
    rw [← Option.some.inj h] at ha
    exact List.mem_of_mem_drop (List.mem_of_mem_take ha)

/-- An order that does not ask for anything. -/
theorem mergeSort_unordered (E : Engine) (columns : List (List Char)) (rows : List (List Value)) :
    rows.mergeSort (E.before columns []) = rows :=
  List.mergeSort_of_pairwise (List.pairwise_of_forall fun _ _ ↦ rfl)

/-! ## Orders -/

section Orders

variable {E : Engine} (hE : E.Ordered) {columns : List (List Char)} {r r' r'' : List Value}

/-- Rows of the same kinds have the same cells, and these are of the same kinds. -/
theorem cells_cases (columns : List (List Char)) (h : r.map Value.kind = r'.map Value.kind)
    (name : List Char) :
    cell columns r name = none ∧ cell columns r' name = none ∨
      ∃ v w, cell columns r name = some v ∧ cell columns r' name = some w ∧ v.kind = w.kind := by
  have hkind : (cell columns r name).map Value.kind = (cell columns r' name).map Value.kind := by
    rw [kind_cell, kind_cell, h]
  rcases hr : cell columns r name with _ | v <;> rcases hr' : cell columns r' name with _ | w
  · exact .inl ⟨rfl, rfl⟩
  · simp [hr, hr'] at hkind
  · simp [hr, hr'] at hkind
  · refine .inr ⟨v, w, rfl, rfl, ?_⟩
    simpa [hr, hr'] using hkind

/-- The comparison by which a value stands in front of another one. -/
def Direction.before (E : Engine) : Direction → Value → Value → Prop
  | .asc, v, w => E.compare .lt v w = some true
  | .desc, v, w => E.compare .lt w v = some true

include hE

/-- Rows are compared by the first entry, and by the others if its values are equal. -/
theorem before_cons_iff {e : Entry} (entries : List Entry) {v w : Value}
    (hv : cell columns r e.column = some v) (hw : cell columns r' e.column = some w)
    (hkind : v.kind = w.kind) :
    E.before columns (e :: entries) r r' = true ↔
      if v = w then E.before columns entries r r' = true else e.direction.before E v w := by
  simp only [Engine.before, hv, hw, hE.eq hkind, Option.some.injEq, decide_eq_true_eq]
  by_cases hvw : v = w
  · rw [if_pos hvw, if_pos hvw]
  · rw [if_neg hvw, if_neg hvw]
    cases e.direction with
    | asc => simp [Direction.before]
    | desc => simp [Direction.before, hE.gt hkind]

/-- Of two rows one may stand before the other. -/
theorem before_total (entries : List Entry) (h : r.map Value.kind = r'.map Value.kind) :
    E.before columns entries r r' = true ∨ E.before columns entries r' r = true := by
  induction entries with
  | nil => exact .inl rfl
  | cons e entries ih =>
    rcases cells_cases columns h e.column with ⟨hr, hr'⟩ | ⟨v, w, hv, hw, hkind⟩
    · exact .inl (by simp [Engine.before, hr])
    · rw [before_cons_iff hE entries hv hw hkind, before_cons_iff hE entries hw hv hkind.symm]
      by_cases hvw : v = w
      · rwa [if_pos hvw, if_pos hvw.symm]
      · rw [if_neg hvw, if_neg (Ne.symm hvw)]
        cases e.direction with
        | asc => exact hE.total hkind hvw
        | desc => exact (hE.total hkind hvw).symm

/-- Rows that may stand before each other have the same values in the columns of the order. -/
theorem cell_eq_of_before {entries : List Entry} (h : r.map Value.kind = r'.map Value.kind)
    (hcells : ∀ e ∈ entries, cell columns r e.column ≠ none)
    (hlt : E.before columns entries r r' = true) (hlt' : E.before columns entries r' r = true)
    {e : Entry} (he : e ∈ entries) : cell columns r e.column = cell columns r' e.column := by
  induction entries with
  | nil => cases he
  | cons d entries ih =>
    rcases cells_cases columns h d.column with ⟨hr, hr'⟩ | ⟨v, w, hv, hw, hkind⟩
    · exact absurd hr (hcells d List.mem_cons_self)
    · rw [before_cons_iff hE entries hv hw hkind] at hlt
      rw [before_cons_iff hE entries hw hv hkind.symm] at hlt'
      by_cases hvw : v = w
      · rw [if_pos hvw] at hlt
        rw [if_pos hvw.symm] at hlt'
        rcases List.mem_cons.mp he with rfl | he
        · rw [hv, hw, hvw]
        · exact ih (fun e he ↦ hcells e (List.mem_cons_of_mem d he)) hlt hlt' he
      · rw [if_neg hvw] at hlt
        rw [if_neg (Ne.symm hvw)] at hlt'
        cases hdirection : d.direction <;> rw [hdirection] at hlt hlt'
        · exact absurd hlt' (hE.asymm hkind hlt)
        · exact absurd hlt (hE.asymm hkind hlt')

/-- Rows that stand before others stand before what these stand before. -/
theorem before_trans (entries : List Entry) (h : r.map Value.kind = r'.map Value.kind)
    (h' : r'.map Value.kind = r''.map Value.kind) (hlt : E.before columns entries r r' = true)
    (hlt' : E.before columns entries r' r'' = true) : E.before columns entries r r'' = true := by
  induction entries with
  | nil => rfl
  | cons e entries ih =>
    rcases cells_cases columns h e.column with ⟨hr, hr'⟩ | ⟨v, w, hv, hw, hkind⟩
    · simp [Engine.before, hr]
    · rcases cells_cases columns h' e.column with ⟨hr', -⟩ | ⟨w', x, hw', hx, hkind'⟩
      · rw [hw] at hr'
        cases hr'
      · obtain rfl := Option.some.inj (hw.symm.trans hw')
        rw [before_cons_iff hE entries hv hw hkind] at hlt
        rw [before_cons_iff hE entries hw hx hkind'] at hlt'
        rw [before_cons_iff hE entries hv hx (hkind.trans hkind')]
        by_cases hvw : v = w
        · subst hvw
          rw [if_pos rfl] at hlt
          split_ifs at hlt' ⊢ with hvx
          · exact ih hlt hlt'
          · exact hlt'
        · rw [if_neg hvw] at hlt
          by_cases hwx : w = x
          · subst hwx
            rwa [if_neg hvw]
          · rw [if_neg hwx] at hlt'
            have hvx : v ≠ x := by
              rintro rfl
              cases hdirection : e.direction <;> rw [hdirection] at hlt hlt'
              · exact hE.asymm hkind hlt hlt'
              · exact hE.asymm hkind' hlt hlt'
            rw [if_neg hvx]
            cases hdirection : e.direction <;> rw [hdirection] at hlt hlt'
            · exact hE.trans hkind hkind' hlt hlt'
            · exact hE.trans hkind'.symm hkind.symm hlt' hlt

end Orders

/-! ## Parameters for all columns -/

/-- A parameter for each of the columns, `k` of which stand before. -/
def parameters (columns : List (List Char)) (k : ℕ) : List Expression :=
  (columns.zipIdx k).map fun c ↦ .parameter c.2

/-- Each column is set to a parameter. -/
def settings (columns : List (List Char)) (k : ℕ) : List (List Char × Expression) :=
  (columns.zipIdx k).map fun c ↦ (c.1, .parameter c.2)

section Parameters

variable {E : Engine} {columns : List (List Char)} {ps new : List Value} {k : ℕ}
  {row : List Char → Option Value}

/-- The values of the parameters from a place on. -/
def BoundFrom (ps new : List Value) (k : ℕ) : Prop := ∀ j < new.length, ps[k + j]? = new[j]?

theorem BoundFrom.head {v : Value} (h : BoundFrom ps (v :: new) k) : ps[k]? = some v := by
  simpa using h 0 (by simp)

theorem BoundFrom.tail {v : Value} (h : BoundFrom ps (v :: new) k) :
    BoundFrom ps new (k + 1) := by
  intro j hj
  have hnext := h (j + 1) (by simpa using hj)
  simpa [Nat.add_assoc, Nat.add_comm 1 j] using hnext

/-- The parameters at the beginning. -/
theorem boundFrom_append (new rest : List Value) : BoundFrom (new ++ rest) new 0 := by
  intro j hj
  rw [Nat.zero_add, List.getElem?_append_left hj]

/-- The values of the parameters. -/
theorem mapM_parameters (hlength : new.length = columns.length) (h : BoundFrom ps new k) :
    (parameters columns k).mapM (Expression.eval E ps row) = some new := by
  induction columns generalizing new k with
  | nil =>
    obtain rfl := List.eq_nil_of_length_eq_zero hlength
    rfl
  | cons c columns ih =>
    obtain ⟨v, new, rfl⟩ := List.exists_cons_of_length_eq_add_one hlength
    have hrest := ih (Nat.succ.inj hlength) h.tail
    have hhead : Expression.eval E ps row (.parameter k) = some v := h.head
    rw [parameters] at hrest ⊢
    rw [List.zipIdx_cons, List.map_cons, List.mapM_cons, hhead, hrest]
    rfl

/-- What a column is set to. -/
theorem exists_lookup_settings (E : Engine) (row : List Char → Option Value)
    (hlength : new.length = columns.length) (h : BoundFrom ps new k) {name : List Char}
    (hname : name ∈ columns) :
    ∃ e, (settings columns k).lookup name = some e ∧ e.eval E ps row = cell columns new name := by
  induction columns generalizing new k with
  | nil => cases hname
  | cons c columns ih =>
    obtain ⟨v, new, rfl⟩ := List.exists_cons_of_length_eq_add_one hlength
    have hcons : settings (c :: columns) k = (c, .parameter k) :: settings columns (k + 1) := rfl
    rw [hcons]
    by_cases hc : name = c
    · subst hc
      exact ⟨.parameter k, List.lookup_cons_self, h.head.trans (cell_cons_self _ _ _ _).symm⟩
    · have htail := (List.mem_cons.mp hname).resolve_left hc
      obtain ⟨e, he, heval⟩ := ih (Nat.succ.inj hlength) h.tail htail
      refine ⟨e, ?_, heval.trans (cell_cons_of_ne hc _ _ _).symm⟩
      rw [List.lookup_cons, beq_false_of_ne hc]
      exact he

end Parameters

/-! ## The statements for whole rows -/

section Run

variable {E : Engine} {R : Extent} {new : List Value}

/-- All columns of a row are set. -/
theorem Extent.assign_settings (hnodup : R.columns.Nodup) (hlength : new.length = R.columns.length)
    (rest row : List Value) : R.assign E (new ++ rest) (settings R.columns 0) row = some new := by
  rw [← mapM_cell hnodup hlength, Extent.assign]
  refine mapM_congr fun c hc ↦ ?_
  obtain ⟨e, he, heval⟩ := exists_lookup_settings E (cell R.columns row) hlength
    (boundFrom_append new rest) hc
  simp only [he, heval]

/-- A row is inserted unless it repeats a unique value. -/
theorem run_insert (hnodup : R.columns.Nodup) (hlength : new.length = R.columns.length) :
    (Query.insert R.name R.columns (parameters R.columns 0)).run E new R =
      if R.Distinct E (R.rows ++ [new]) then some (.done, R.withRows (R.rows ++ [new]))
      else none := by
  have hbound : BoundFrom new new 0 := by simpa using boundFrom_append new []
  rw [Query.run, if_pos rfl, mapM_parameters hlength hbound, Option.bind_some, if_pos hlength,
    mapM_cell hnodup hlength, Option.bind_some]

/-- The rows that satisfy the condition become the new row. -/
theorem run_update (hnodup : R.columns.Nodup) (hlength : new.length = R.columns.length)
    {rest : List Value} {condition : Option Expression} {p : List Value → Bool}
    (hp : ∀ row ∈ R.rows, R.satisfies E (new ++ rest) condition row = some (p row)) :
    (Query.update R.name (settings R.columns 0) condition).run E (new ++ rest) R =
      if R.Distinct E (R.rows.map fun row ↦ if p row then new else row) then
        some (.done, R.withRows (R.rows.map fun row ↦ if p row then new else row))
      else none := by
  have hcolumns : (settings R.columns 0).all fun s ↦ R.columns.contains s.1 := by
    refine List.all_eq_true.mpr fun s hs ↦ List.contains_iff_mem.mpr ?_
    obtain ⟨c, hc, rfl⟩ := List.mem_map.mp hs
    exact List.fst_mem_of_mem_zipIdx hc
  have hrows : (R.rows.mapM fun row ↦ (R.satisfies E (new ++ rest) condition row).bind fun b ↦
      if b then R.assign E (new ++ rest) (settings R.columns 0) row else some row)
      = some (R.rows.map fun row ↦ if p row then new else row) := by
    refine mapM_eq_some fun row hrow ↦ ?_
    rw [hp row hrow, Option.bind_some, Extent.assign_settings hnodup hlength]
    cases p row <;> rfl
  rw [Query.run, if_pos ⟨rfl, hcolumns⟩, hrows, Option.bind_some]

/-- The rows that satisfy the condition are deleted. -/
theorem run_delete {ps : List Value} {condition : Option Expression} {p : List Value → Bool}
    (hp : ∀ row ∈ R.rows, R.satisfies E ps condition row = some (p row)) :
    (Query.delete R.name condition).run E ps R =
      some (.done, R.withRows (R.rows.filter fun row ↦ !p row)) := by
  have hrows : filterAll (fun row ↦ (R.satisfies E ps condition row).map not) R.rows
      = some (R.rows.filter fun row ↦ !p row) :=
    filterAll_eq_some fun row hrow ↦ by rw [hp row hrow, Option.map_some]
  rw [Query.run, if_pos rfl, hrows, Option.map_some]

/-- The rows that satisfy the condition are counted. -/
theorem run_count {ps : List Value} {condition : Option Expression} {p : List Value → Bool}
    (hp : ∀ row ∈ R.rows, R.satisfies E ps condition row = some (p row)) :
    (Query.count R.name condition).run E ps R = some (.count (R.rows.filter p).length, R) := by
  rw [Query.run, if_pos rfl, filterAll_eq_some hp, Option.map_some]

/-- The rows that satisfy the condition are selected: they are ordered, and those of the range are
given with all their columns. -/
theorem run_select (hnodup : R.columns.Nodup)
    (hlength : ∀ row ∈ R.rows, row.length = R.columns.length) {ps : List Value}
    {condition : Option Expression} {p : List Value → Bool}
    (hp : ∀ row ∈ R.rows, R.satisfies E ps condition row = some (p row)) (order : List Entry)
    (range : Option Range) :
    (Query.select R.columns R.name condition order range).run E ps R =
      (ranged range ((R.rows.filter p).mergeSort (E.before R.columns order))).map fun rs ↦
        (.rows rs, R) := by
  rw [Query.run, if_pos rfl, filterAll_eq_some hp, Option.bind_some]
  rcases hrange : ranged range ((R.rows.filter p).mergeSort (E.before R.columns order)) with _ | rs
  · rfl
  · have hmem : ∀ row ∈ rs, row ∈ R.rows := fun row hrow ↦ by
      have hsorted := mem_of_mem_ranged hrange hrow
      rw [List.mem_mergeSort] at hsorted
      exact List.mem_of_mem_filter hsorted
    have hcells : (rs.mapM fun row ↦ R.columns.mapM (cell R.columns row)) = some (rs.map id) :=
      mapM_eq_some fun row hrow ↦ mapM_cell hnodup (hlength row (hmem row hrow))
    rw [Option.bind_some, hcells, List.map_id, Option.map_some]

end Run

end Kit.Sql
