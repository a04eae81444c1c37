import Mathlib.Data.List.Perm.Basic
import OwSec.Framework.ORMRecords
import OwSec.Kit.Simulation
import OwSec.Kit.Table

/-!
# Records in a table

`CreateRecord`, `GetRecord`, `UpdateRecord`, `DeleteRecord` and `ReplaceRecord` of
`framework/orm.h` with the statements that they issue and the cache that they may have, and a
database that executes the statements.

What they do is what the operations of `OwSec.Kit.Table` do behind the same cache, over any
requests: the texts are read as the statements that are meant whatever the database, and the
statements do to the rows what the operations do to the records.  The values of the records are
bound to the statements and do not become part of their texts.

A cache may answer with what no row has: `UpdateRecord` caches its record although no row matched.
So the table is not what is seen through a cache, and both are in the state.  Between two calls the
cache may change, and the database may keep its rows in another order.
-/

namespace OwSec.ORM

open Kit Sql

/-- `Convert` in both directions: the tuples of a table have fixed types.  A tuple is what is bound,
and what is extracted again; the type of a column does not change it. -/
structure RecordTuple (fields : List Field) (ρ : Type) where
  kinds : List Kind
  toTuple : ρ → List Value
  ofTuple : List Value → Option ρ
  /-- The records that are the same after a conversion there and back. -/
  Kept : ρ → Prop
  /-- The assertion on the number of fields. -/
  length_kinds : kinds.length = fields.length
  map_kind : ∀ r, (toTuple r).map Value.kind = kinds
  ofTuple_toTuple : ∀ r, Kept r → ofTuple (toTuple r) = some r

namespace RecordTuple

variable {fields : List Field} {ρ : Type} (c : RecordTuple fields ρ)

/-- The value of a column of a record. -/
def column (w : List Char) (r : ρ) : Option Value := cell (columns fields) (c.toTuple r) w

/-- The kind of a column. -/
def kindOf (w : List Char) : Option Kind := ((columns fields).zip c.kinds).lookup w

theorem length_toTuple (r : ρ) : (c.toTuple r).length = (columns fields).length := by
  rw [← List.length_map Value.kind, c.map_kind, c.length_kinds, columns, List.length_map]

theorem kind_column (w : List Char) (r : ρ) :
    (c.column w r).map Value.kind = c.kindOf w := by
  rw [column, kind_cell, c.map_kind, kindOf]

end RecordTuple

/-- The columns with unique values. -/
def uniqueColumns (fields : List Field) : List (List Char) :=
  columns (fields.filter Field.index)

/-- The table of a `DB`, with its rows. -/
def extent (tableName : String) (fields : List Field) (rows : List (List Value)) : Extent where
  name := nameChars tableName
  columns := columns fields
  unique := uniqueColumns fields
  rows := rows

/-! ## The cache of a table -/

/-- `DBCache`: its functions, on its state.  The values that are looked up are texts in each
instance. -/
structure DBCache (ρ σ : Type) where
  /-- `Create`. -/
  create : ρ → σ → σ
  /-- `GetFromCache`, of a field and a value. -/
  getFromCache : String → String → σ → Option ρ × σ
  /-- `UpdateCache`. -/
  updateCache : ρ → σ → σ
  /-- `Delete`, of a field and a value. -/
  delete : String → String → σ → σ

namespace DBCache

variable {ρ σ τ : Type} (Cache_ : Option (DBCache ρ σ))

/-- What is done to the cache where there is one. -/
def touched (f : DBCache ρ σ → σ → σ) (s : σ) : σ :=
  match Cache_ with
  | some cache => f cache s
  | none => s

/-- A function that changes the rows: the cache is touched behind the statement, unless that threw
an exception. -/
def changed (f : DBCache ρ σ → σ → σ) (s : σ) : Bool × τ → Bool × τ × σ
  | (true, t) => (true, t, touched Cache_ f s)
  | (false, t) => (false, t, s)

/-- A function that looks a record up: the cache is asked first, and it is told what the rows
have. -/
def through (fieldName v : String) (x : τ × σ) (selected : Option ρ) : Option ρ × τ × σ :=
  let (cached, s) :=
    match Cache_ with
    | some cache => cache.getFromCache fieldName v x.2
    | none => (none, x.2)
  match cached, selected with
  | some r, _ => (some r, x.1, s)
  | none, some r => (some r, x.1, touched Cache_ (·.updateCache r) s)
  | none, none => (none, x.1, s)

theorem changed_rows (f : DBCache ρ σ → σ → σ) (s : σ) (y : Bool × τ) :
    (changed Cache_ f s y).2.1 = y.2 := by
  obtain ⟨_ | _, t⟩ := y <;> rfl

theorem through_rows (fieldName v : String) (x : τ × σ) (selected : Option ρ) :
    (through Cache_ fieldName v x selected).2.1 = x.1 := by
  unfold through
  simp only
  split <;> rfl

variable {Cache_} {fieldName v : String} {x : τ × σ} {s : σ} {selected : Option ρ}

/-- What the cache has is found. -/
theorem through_hit {cache : DBCache ρ σ} {r : ρ}
    (h : cache.getFromCache fieldName v x.2 = (some r, s)) :
    through (some cache) fieldName v x selected = (some r, x.1, s) := by
  unfold through
  simp only [h]

/-- What the cache has not is found in the rows. -/
theorem through_miss {cache : DBCache ρ σ}
    (h : cache.getFromCache fieldName v x.2 = (none, s)) :
    through (some cache) fieldName v x selected =
      (selected, x.1, selected.elim s fun r ↦ cache.updateCache r s) := by
  unfold through
  simp only [h]
  cases selected <;> rfl

end DBCache

/-! ## The functions -/

namespace DB

variable {fields : List Field} {ρ : Type} (E : Engine) (c : RecordTuple fields ρ) (db : DB)

/-- A statement with its parameters. -/
def execute (statement : Option String) (ps : List Value) (R : Extent) : Option (Answer × Extent) :=
  statement.bind fun text ↦
    (parseQuery db.type_.quoting db.type_.grammar text.toList).bind fun query ↦ query.run E ps R

/-- A statement that changes the rows; after an exception they are what they were. -/
def change (statement : Option String) (ps : List Value) (R : Extent) : Bool × Extent :=
  match db.execute E statement ps R with
  | some (_, R') => (true, R')
  | none => (false, R)

section Records

variable {σ : Type} (Cache_ : Option (DBCache ρ σ))

/-- `CreateRecord`. -/
def createRecord (r : ρ) (x : Extent × σ) : Bool × Extent × σ :=
  DBCache.changed Cache_ (·.create r) x.2
    (db.change E db.createRecordStatement (c.toTuple r) x.1)

/-- The statement of `GetRecord`. -/
def selectRecord (fieldName v : String) (R : Extent) : Option ρ :=
  match db.execute E (db.getRecordByStatement fieldName) [.text v] R with
  | some (.rows (row :: _), _) => c.ofTuple row
  | _ => none

/-- `GetRecord`. -/
def getRecord (fieldName v : String) (x : Extent × σ) : Option ρ × Extent × σ :=
  DBCache.through Cache_ fieldName v x (db.selectRecord E c fieldName v x.1)

/-- `UpdateRecord`. -/
def updateRecord (fieldName v : String) (r : ρ) (x : Extent × σ) : Bool × Extent × σ :=
  DBCache.changed Cache_ (·.updateCache r) x.2
    (db.change E (db.updateRecordStatement fieldName) (c.toTuple r ++ [.text v]) x.1)

/-- `DeleteRecord`. -/
def deleteRecord (fieldName v : String) (x : Extent × σ) : Bool × Extent × σ :=
  DBCache.changed Cache_ (·.delete fieldName v) x.2
    (db.change E (db.deleteRecordStatement fieldName) [.text v] x.1)

/-- `ReplaceRecord`, with `Exists`. -/
def replaceRecord (fieldName v : String) (r : ρ) (x : Extent × σ) : Bool × Extent × σ :=
  match db.getRecord E c Cache_ fieldName v x with
  | (some _, x) => db.updateRecord E c Cache_ fieldName v r x
  | (none, x) => db.createRecord E c Cache_ r x

end Records

end DB

/-! ## A table with a cache -/

/-- The records of a table, and the state of its cache. -/
abbrev CachedTable {ρ : Type} (key : ρ → String) (σ : Type) := Table String ρ key × σ

/-- Whether an operation on a table succeeds, and the table after it. -/
def attempted {ρ : Type} {key : ρ → String} (t : Table String ρ key)
    (t' : Option (Table String ρ key)) : Bool × Table String ρ key :=
  (t'.isSome, t'.getD t)

namespace CachedTable

variable {fields : List Field} {ρ σ : Type} {key : ρ → String} (c : RecordTuple fields ρ)
  (Cache_ : Option (DBCache ρ σ)) (keyName : String)

/-- A record is inserted. -/
def createRecord (r : ρ) (x : CachedTable key σ) : Bool × CachedTable key σ :=
  DBCache.changed Cache_ (·.create r) x.2 (attempted x.1 (x.1.insert r))

/-- A record is looked up by any field. -/
def getRecord (fieldName v : String) (x : CachedTable key σ) : Option ρ × CachedTable key σ :=
  DBCache.through Cache_ fieldName v x
    (x.1.select fun r ↦ c.column (nameChars fieldName) r = some (.text v))

/-- The record of a key is replaced. -/
def updateRecord (k : String) (r : ρ) (x : CachedTable key σ) : Bool × CachedTable key σ :=
  DBCache.changed Cache_ (·.updateCache r) x.2 (attempted x.1 (x.1.update k r))

/-- The record of a key is deleted. -/
def deleteRecord (k : String) (x : CachedTable key σ) : Bool × CachedTable key σ :=
  DBCache.changed Cache_ (·.delete keyName k) x.2 (attempted x.1 (some (x.1.delete k)))

/-- The record of a key is replaced if there is one, else the record is inserted. -/
def replaceRecord (k : String) (r : ρ) (x : CachedTable key σ) : Bool × CachedTable key σ :=
  match getRecord c Cache_ keyName k x with
  | (some _, x) => updateRecord Cache_ k r x
  | (none, x) => createRecord Cache_ r x

end CachedTable

/-! ## One statement -/

variable {type : DBType} {tableName : String} {fields : List Field} {indexes : List Index} {db : DB}
  {ρ : Type} {E : Engine} {c : RecordTuple fields ρ}

/-- What a statement does is what it means. -/
theorem Means.execute_eq {statement : Option String} {query : Query}
    (h : Means type statement query) (htype : db.type_ = type) (ps : List Value) (R : Extent) :
    db.execute E statement ps R = query.run E ps R := by
  obtain ⟨text, rfl, hparse⟩ := h
  rw [DB.execute, Option.bind_some, htype, hparse, Option.bind_some]

/-- A statement that succeeds. -/
theorem Means.change_eq_true {statement : Option String} {query : Query}
    (h : Means type statement query) (htype : db.type_ = type) {ps : List Value} {R R' : Extent}
    {a : Answer} (hrun : query.run E ps R = some (a, R')) :
    db.change E statement ps R = (true, R') := by
  rw [DB.change, h.execute_eq htype, hrun]

/-- A statement that fails. -/
theorem Means.change_eq_false {statement : Option String} {query : Query}
    (h : Means type statement query) (htype : db.type_ = type) {ps : List Value} {R : Extent}
    (hrun : query.run E ps R = none) : db.change E statement ps R = (false, R) := by
  rw [DB.change, h.execute_eq htype, hrun]

theorem type_of_new (hdb : DB.new type tableName fields indexes = some db) : db.type_ = type := by
  obtain ⟨-, hdb⟩ := Option.ite_none_right_eq_some.mp hdb
  exact congrArg DB.type_ (Option.some.inj hdb).symm

/-- The rows of records. -/
def stored (tableName : String) (c : RecordTuple fields ρ) (rs : List ρ) : Extent :=
  extent tableName fields (rs.map c.toTuple)

/-- What holds of the tuples of records holds of the rows. -/
theorem forall_mem_stored {P : List Value → Prop} (h : ∀ r, P (c.toTuple r)) (rs : List ρ) :
    ∀ row ∈ (stored tableName c rs).rows, P row := by
  have hall : ∀ row ∈ rs.map c.toTuple, P row := by
    rw [List.forall_mem_map]
    exact fun r _ ↦ h r
  exact hall

/-- A condition on one column. -/
theorem satisfies_equals (hexact : E.Exact) {w : List Char} (hw : w ∈ columns fields) {v : Value}
    (hkind : c.kindOf w = some v.kind) {ps : List Value} {k : ℕ} (hv : ps[k]? = some v)
    (rs : List ρ) :
    ∀ row ∈ (stored tableName c rs).rows,
      (stored tableName c rs).satisfies E ps (some (equals w k)) row
        = some (decide (cell (columns fields) row w = some v)) := by
  refine forall_mem_stored (fun r ↦ ?_) rs
  obtain ⟨x, hx⟩ := exists_cell (c.length_toTuple r) hw
  have hsame : x.kind = v.kind := by
    have hcolumn := c.kind_column w r
    rw [RecordTuple.column, hx, hkind] at hcolumn
    exact Option.some.inj hcolumn
  have hl : (Expression.column w).eval E ps (cell (columns fields) (c.toTuple r)) = some x := hx
  have hr : (Expression.parameter k).eval E ps (cell (columns fields) (c.toTuple r)) = some v := hv
  have hholds := Expression.holds_compare (c := .eq) hl hr
  rw [hexact.eq hsame] at hholds
  rw [hx]
  simpa [Extent.satisfies, stored, extent, equals] using hholds

/-! ## The operations -/

/-- The key of a table: a text column, and the only one whose values are unique. -/
structure Keyed (type : DBType) (tableName : String) (fields : List Field) (indexes : List Index)
    (db : DB) (c : RecordTuple fields ρ) (keyName : String) (key : ρ → String) : Prop where
  tabular : Tabular tableName fields
  made : DB.new type tableName fields indexes = some db
  valid : DB.validFieldName db.fieldNames_ keyName = true
  unique : uniqueColumns fields = [nameChars keyName]
  column_key : ∀ r, c.column (nameChars keyName) r = some (.text (key r))
  kindOf_key : c.kindOf (nameChars keyName) = some .text

namespace Keyed

variable {keyName : String} {key : ρ → String}
  (h : Keyed type tableName fields indexes db c keyName key)

include h

/-- The rows have different keys. -/
theorem distinct_iff (hexact : E.Exact) (rs rs' : List ρ) :
    (stored tableName c rs).Distinct E (rs'.map c.toTuple) ↔ (rs'.map key).Nodup := by
  have hcell (r : ρ) : cell (columns fields) (c.toTuple r) (nameChars keyName)
      = some (.text (key r)) := h.column_key r
  have hsame (r r' : ρ) : E.same (some (.text (key r))) (some (.text (key r'))) = false ↔
      key r ≠ key r' := by
    have heq : E.compare .eq (.text (key r)) (.text (key r')) = _ := hexact.eq rfl
    simp [Engine.same, heq]
  simp only [Extent.Distinct, stored, extent, h.unique, List.mem_singleton, forall_eq,
    List.pairwise_map, hcell, hsame, List.Nodup]

/-- The rows of a key. -/
theorem cell_key (k : String) (r : ρ) :
    decide (cell (columns fields) (c.toTuple r) (nameChars keyName) = some (.text k))
      = decide (key r = k) := by
  have hcell : cell (columns fields) (c.toTuple r) (nameChars keyName) = some (.text (key r)) :=
    h.column_key r
  simp [hcell]

/-- A condition on the key. -/
theorem satisfies_key (hexact : E.Exact) (k : String) {ps : List Value} {n : ℕ}
    (hv : ps[n]? = some (.text k)) (rs : List ρ) :
    ∀ row ∈ (stored tableName c rs).rows,
      (stored tableName c rs).satisfies E ps (some (equals (nameChars keyName) n)) row
        = some (decide (cell (columns fields) row (nameChars keyName) = some (.text k))) :=
  satisfies_equals hexact (h.tabular.asks h.made h.valid).mem h.kindOf_key hv rs

/-- The statement of `CreateRecord` inserts the record. -/
theorem change_createRecord (hexact : E.Exact) (t : Table String ρ key) (r : ρ) :
    db.change E db.createRecordStatement (c.toTuple r) (stored tableName c t.rows) =
      (attempted t (t.insert r)).map id fun t ↦ stored tableName c t.rows := by
  have hmeans := h.tabular.means_createRecord h.made
  have htype := type_of_new h.made
  have hrows : (stored tableName c t.rows).rows ++ [c.toTuple r]
      = (t.rows ++ [r]).map c.toTuple := by
    simp [stored, extent]
  have hrun : (Query.insert (nameChars tableName) (columns fields)
      (parameters (columns fields) 0)).run E (c.toTuple r) (stored tableName c t.rows) = _ :=
    run_insert h.tabular.nodup (c.length_toTuple r)
  have hdistinct := (h.distinct_iff hexact t.rows (t.rows ++ [r])).trans (t.nodup_concat_iff r)
  rw [← hrows] at hdistinct
  rcases hinsert : t.insert r with _ | t'
  · have htaken : t.find? (key r) ≠ none := fun hfree ↦ by
      obtain ⟨t', ht'⟩ := Table.insert_isSome hfree
      rw [hinsert] at ht'
      cases ht'
    rw [if_neg (mt hdistinct.mp htaken)] at hrun
    exact hmeans.change_eq_false htype hrun
  · rw [if_pos (hdistinct.mpr (Table.find?_of_insert hinsert)), hrows,
      ← Table.rows_of_insert hinsert] at hrun
    exact hmeans.change_eq_true htype hrun

/-- The statement of `UpdateRecord` replaces the record of the key. -/
theorem change_updateRecord (hexact : E.Exact) (t : Table String ρ key) (k : String) (r : ρ) :
    db.change E (db.updateRecordStatement keyName) (c.toTuple r ++ [.text k])
        (stored tableName c t.rows) =
      (attempted t (t.update k r)).map id fun t ↦ stored tableName c t.rows := by
  have hmeans := h.tabular.means_updateRecord h.made h.valid
  have htype := type_of_new h.made
  have hlength : (c.toTuple r).length = fields.length := by
    rw [c.length_toTuple, columns, List.length_map]
  have hkey : (c.toTuple r ++ [Value.text k])[fields.length]? = some (.text k) := by
    rw [← hlength, List.getElem?_concat_length]
  have hrows : ((stored tableName c t.rows).rows.map fun row ↦
        if decide (cell (columns fields) row (nameChars keyName) = some (.text k)) then c.toTuple r
        else row)
      = (t.rows.map fun r' ↦ if key r' = k then r else r').map c.toTuple := by
    have hmap (r' : ρ) : (if decide (cell (columns fields) (c.toTuple r') (nameChars keyName)
          = some (.text k)) then c.toTuple r else c.toTuple r')
        = c.toTuple (if key r' = k then r else r') := by
      rw [h.cell_key, apply_ite c.toTuple]
      simp only [decide_eq_true_eq]
    simp only [stored, extent, List.map_map, Function.comp_def, hmap]
  have hrun : (Query.update (nameChars tableName) (settings (columns fields) 0)
      (some (equals (nameChars keyName) fields.length))).run E (c.toTuple r ++ [.text k])
        (stored tableName c t.rows) = _ :=
    run_update h.tabular.nodup (c.length_toTuple r) (h.satisfies_key hexact k hkey t.rows)
  rw [hrows] at hrun
  have hdistinct := (h.distinct_iff hexact t.rows _).trans (t.nodup_replace_iff k r)
  rcases hupdate : t.update k r with _ | t'
  · have hfails : ¬ ∃ t', t.update k r = some t' := by simp [hupdate]
    rw [if_neg (mt hdistinct.mp hfails)] at hrun
    exact hmeans.change_eq_false htype hrun
  · rw [if_pos (hdistinct.mpr ⟨t', hupdate⟩), ← Table.rows_update hupdate] at hrun
    exact hmeans.change_eq_true htype hrun

/-- The statement of `DeleteRecord` deletes the record of the key. -/
theorem change_deleteRecord (hexact : E.Exact) (t : Table String ρ key) (k : String) :
    db.change E (db.deleteRecordStatement keyName) [.text k] (stored tableName c t.rows) =
      (attempted t (some (t.delete k))).map id fun t ↦ stored tableName c t.rows := by
  have hmeans := h.tabular.means_deleteRecord h.made h.valid
  have hrows : ((stored tableName c t.rows).rows.filter fun row ↦
        !decide (cell (columns fields) row (nameChars keyName) = some (.text k)))
      = (t.delete k).rows.map c.toTuple := by
    simp only [stored, extent, List.filter_map, Function.comp_def, h.cell_key]
    rfl
  have hrun : (Query.delete (nameChars tableName) (some (equals (nameChars keyName) 0))).run E
      [.text k] (stored tableName c t.rows) = _ := run_delete (h.satisfies_key hexact k rfl t.rows)
  rw [hrows] at hrun
  exact hmeans.change_eq_true (type_of_new h.made) hrun

/-- The statement of `GetRecord` finds the first record with the value. -/
theorem selectRecord_eq (hexact : E.Exact) {t : Table String ρ key} (ht : ∀ r ∈ t.rows, c.Kept r)
    {fieldName : String} (hvalid : DB.validFieldName db.fieldNames_ fieldName = true)
    (hkind : c.kindOf (nameChars fieldName) = some .text) (v : String) :
    db.selectRecord E c fieldName v (stored tableName c t.rows)
      = t.select fun r ↦ c.column (nameChars fieldName) r = some (.text v) := by
  have hmeans := h.tabular.means_getRecord h.made hvalid
  have hmem := (h.tabular.asks h.made hvalid).mem
  have hfirst : [Value.text v][0]? = some (.text v) := rfl
  have hp : ∀ row ∈ (stored tableName c t.rows).rows, _ :=
    satisfies_equals hexact hmem hkind hfirst t.rows
  have hlengths : ∀ row ∈ (stored tableName c t.rows).rows,
      row.length = (columns fields).length := forall_mem_stored c.length_toTuple t.rows
  have hrun : (Query.select (columns fields) (nameChars tableName)
      (some (equals (nameChars fieldName) 0)) [] (some ⟨0, 1⟩)).run E [.text v]
        (stored tableName c t.rows) = _ := run_select h.tabular.nodup hlengths hp [] _
  have hrows : (stored tableName c t.rows).rows.filter
        (fun row ↦ decide (cell (columns fields) row (nameChars fieldName) = some (.text v)))
      = (t.rows.filter fun r ↦ c.column (nameChars fieldName) r = some (.text v)).map
          c.toTuple := by
    simp only [stored, extent, List.filter_map, Function.comp_def]
    rfl
  rw [hrows, mergeSort_unordered, ranged, if_pos ⟨by decide, by decide⟩] at hrun
  rw [DB.selectRecord, hmeans.execute_eq (type_of_new h.made), hrun, Table.select,
    ← List.head?_filter]
  rcases hfound : t.rows.filter fun r ↦ c.column (nameChars fieldName) r = some (.text v) with
    _ | ⟨r, rs⟩
  · rfl
  · have hr : r ∈ t.rows := List.mem_of_mem_filter (hfound ▸ List.mem_cons_self)
    exact c.ofTuple_toTuple r (ht r hr)

end Keyed

/-! ## Any requests -/

/-- What is asked of a table, and what may happen between two calls. -/
inductive Request (ρ σ : Type)
  | create (r : ρ)
  | get (fieldName v : String)
  | update (k : String) (r : ρ)
  | delete (k : String)
  | replace (k : String) (r : ρ)
  /-- The cache changes, by itself or with another table, and the rows are kept in another order. -/
  | meanwhile (f : σ → σ) (order : List (List Value) → List (List Value))

/-- What is answered: whether it succeeded, or the record. -/
inductive Reply (ρ : Type)
  | done (b : Bool)
  | found (r : Option ρ)

section Answers

variable {σ : Type} {key : ρ → String}

/-- The answer of the functions, and the rows and the cache after it. -/
def DB.answer (E : Engine) (c : RecordTuple fields ρ) (db : DB) (Cache_ : Option (DBCache ρ σ))
    (keyName : String) (x : Extent × σ) : Request ρ σ → Reply ρ × Extent × σ
  | .create r => (db.createRecord E c Cache_ r x).map .done id
  | .get fieldName v => (db.getRecord E c Cache_ fieldName v x).map .found id
  | .update k r => (db.updateRecord E c Cache_ keyName k r x).map .done id
  | .delete k => (db.deleteRecord E Cache_ keyName k x).map .done id
  | .replace k r => (db.replaceRecord E c Cache_ keyName k r x).map .done id
  | .meanwhile f order => (.done true, { x.1 with rows := order x.1.rows }, f x.2)

/-- The answer of the operations on a table, and the table after it. -/
def CachedTable.answer (c : RecordTuple fields ρ) (Cache_ : Option (DBCache ρ σ))
    (keyName : String) (x : CachedTable key σ) : Request ρ σ → Reply ρ × CachedTable key σ
  | .create r => (createRecord Cache_ r x).map .done id
  | .get fieldName v => (getRecord c Cache_ fieldName v x).map .found id
  | .update k r => (updateRecord Cache_ k r x).map .done id
  | .delete k => (deleteRecord Cache_ keyName k x).map .done id
  | .replace k r => (replaceRecord c Cache_ keyName k r x).map .done id
  | .meanwhile f _ => (.done true, x.1, f x.2)

/-- The operations on a table. -/
def tableSpec (c : RecordTuple fields ρ) (Cache_ : Option (DBCache ρ σ)) (keyName : String)
    (key : ρ → String) : Spec (CachedTable key σ) (Request ρ σ) (Reply ρ) where
  reply x q := (x.answer c Cache_ keyName q).1
  next x q := (x.answer c Cache_ keyName q).2

/-- A field can be asked for if it is one, of a text, and no two records have the value; records are
kept. -/
def Request.Legal (c : RecordTuple fields ρ) (db : DB) (x : CachedTable key σ) :
    Request ρ σ → Prop
  | .create r | .update _ r | .replace _ r => c.Kept r
  | .get fieldName v =>
    DB.validFieldName db.fieldNames_ fieldName = true ∧
      c.kindOf (nameChars fieldName) = some .text ∧
      ∀ r ∈ x.1.rows, ∀ r' ∈ x.1.rows, c.column (nameChars fieldName) r = some (.text v) →
        c.column (nameChars fieldName) r' = some (.text v) → r = r'
  | .delete _ => True
  | .meanwhile _ order => ∀ rows, (order rows).Perm rows

/-- The rows are those of the records of a table, in some order. -/
def Holds (tableName : String) (c : RecordTuple fields ρ) (R : Extent) (t : Table String ρ key) :
    Prop :=
  ∃ t₀ : Table String ρ key, t₀.Same t ∧ R = stored tableName c t₀.rows

/-- A database with the rows of a table, and with the same cache. -/
structure Mirrors (tableName : String) (c : RecordTuple fields ρ) (x : Extent × σ)
    (y : CachedTable key σ) : Prop where
  rows : Holds tableName c x.1 y.1
  cache : x.2 = y.2

/-- The same answers, and mirrored states after them. -/
structure Agrees {β : Type} (tableName : String) (c : RecordTuple fields ρ) (a : β × Extent × σ)
    (b : β × CachedTable key σ) : Prop where
  answer : a.1 = b.1
  mirrors : Mirrors tableName c a.2 b.2

/-- The rows may be kept in another order. -/
theorem Holds.reorder {R : Extent} {t : Table String ρ key} (h : Holds tableName c R t)
    {order : List (List Value) → List (List Value)} (horder : ∀ rows, (order rows).Perm rows) :
    Holds tableName c { R with rows := order R.rows } t := by
  obtain ⟨t₀, hsame, rfl⟩ := h
  have hperm : (order (t₀.rows.map c.toTuple)).Perm (t₀.rows.map c.toTuple) := horder _
  have hcomp := List.eq_map_comp_perm c.toTuple
  obtain ⟨rs, hrs, hrows⟩ := Eq.mpr (congrFun (congrFun hcomp (order _)) t₀.rows) hperm
  have hnodup : (rs.map key).Nodup := (hrows.map key).nodup_iff.mpr t₀.nodup
  refine ⟨⟨rs, hnodup⟩, hrows.trans hsame, ?_⟩
  change extent tableName fields (order (t₀.rows.map c.toTuple)) = extent tableName fields _
  rw [hrs]

/-- A statement changes the rows as the table. -/
theorem holds_attempted {t t₀ : Table String ρ key}
    {t' t₀' : Option (Table String ρ key)} {y : Bool × Extent} (hsame : t₀.Same t)
    (hy : y = (attempted t₀ t₀').map id fun t ↦ stored tableName c t.rows)
    (h : Option.Rel Table.Same t₀' t') :
    y.1 = (attempted t t').1 ∧ Holds tableName c y.2 (attempted t t').2 := by
  subst hy
  cases h with
  | none => exact ⟨rfl, t₀, hsame, rfl⟩
  | some h => exact ⟨rfl, _, h, rfl⟩

variable {Cache_ : Option (DBCache ρ σ)}

/-- The cache is touched alike. -/
theorem agrees_changed {f : DBCache ρ σ → σ → σ} {s : σ} {y : Bool × Extent}
    {z : Bool × Table String ρ key} (h : y.1 = z.1 ∧ Holds tableName c y.2 z.2) :
    Agrees tableName c (DBCache.changed Cache_ f s y) (DBCache.changed Cache_ f s z) := by
  obtain ⟨done, R⟩ := y
  obtain ⟨done', t⟩ := z
  obtain ⟨rfl, hrows⟩ := h
  cases done
  · exact ⟨rfl, hrows, rfl⟩
  · exact ⟨rfl, hrows, rfl⟩

/-- The cache is asked alike. -/
theorem agrees_through {x : Extent × σ} {y : CachedTable key σ} (h : Mirrors tableName c x y)
    (fieldName v : String) (selected : Option ρ) :
    Agrees tableName c (DBCache.through Cache_ fieldName v x selected)
      (DBCache.through Cache_ fieldName v y selected) := by
  obtain ⟨R, s⟩ := x
  obtain ⟨hrows, rfl⟩ := h
  unfold DBCache.through
  generalize (match Cache_ with
    | some cache => cache.getFromCache fieldName v y.2
    | none => (none, y.2)) = asked
  obtain ⟨cached, s⟩ := asked
  rcases cached with _ | r
  · rcases selected with _ | r
    · exact ⟨rfl, hrows, rfl⟩
    · exact ⟨rfl, hrows, rfl⟩
  · exact ⟨rfl, hrows, rfl⟩

/-- A form of answers keeps the agreement. -/
theorem Agrees.map {β γ : Type} {a : β × Extent × σ} {b : β × CachedTable key σ}
    (h : Agrees tableName c a b) (f : β → γ) : Agrees tableName c (a.map f id) (b.map f id) :=
  ⟨congrArg f h.answer, h.mirrors⟩

namespace CachedTable

variable {y : CachedTable key σ}

/-- A lookup leaves the rows. -/
theorem getRecord_rows (c : RecordTuple fields ρ) (Cache_ : Option (DBCache ρ σ))
    (fieldName v : String) (y : CachedTable key σ) : (y.getRecord c Cache_ fieldName v).2.1 = y.1 :=
  DBCache.through_rows Cache_ fieldName v y _

/-- The insertion of a kept record leaves kept records. -/
theorem kept_createRecord (hkept : ∀ r ∈ y.1.rows, c.Kept r) {r : ρ} (hr : c.Kept r) :
    ∀ r' ∈ (y.createRecord Cache_ r).2.1.rows, c.Kept r' := by
  rw [createRecord, DBCache.changed_rows]
  rcases ht' : y.1.insert r with _ | t'
  · exact hkept
  · intro r' hr'
    rcases Table.mem_rows_of_insert ht' hr' with rfl | hr'
    · exact hr
    · exact hkept r' hr'

/-- So does the update with one. -/
theorem kept_updateRecord (hkept : ∀ r ∈ y.1.rows, c.Kept r) {k : String} {r : ρ}
    (hr : c.Kept r) : ∀ r' ∈ (y.updateRecord Cache_ k r).2.1.rows, c.Kept r' := by
  rw [updateRecord, DBCache.changed_rows]
  rcases ht' : y.1.update k r with _ | t'
  · exact hkept
  · intro r' hr'
    rw [attempted, Option.getD_some, Table.rows_update ht'] at hr'
    obtain ⟨r₀, hr₀, rfl⟩ := List.mem_map.mp hr'
    split
    · exact hr
    · exact hkept r₀ hr₀

/-- And so does a deletion. -/
theorem kept_deleteRecord (hkept : ∀ r ∈ y.1.rows, c.Kept r) {keyName k : String} :
    ∀ r ∈ (y.deleteRecord Cache_ keyName k).2.1.rows, c.Kept r := by
  have hrows : (y.deleteRecord Cache_ keyName k).2.1 = y.1.delete k := by
    rw [deleteRecord, DBCache.changed_rows]
    rfl
  exact fun r hr ↦ hkept r (List.mem_of_mem_filter (hrows ▸ hr))

end CachedTable

end Answers

namespace Keyed

variable {σ : Type} {Cache_ : Option (DBCache ρ σ)} {keyName : String} {key : ρ → String}
  {x : Extent × σ} {y : CachedTable key σ}
  (h : Keyed type tableName fields indexes db c keyName key)

include h

/-- `CreateRecord` inserts the record. -/
theorem createRecord_agrees (hexact : E.Exact) (hxy : Mirrors tableName c x y) (r : ρ) :
    Agrees tableName c (db.createRecord E c Cache_ r x) (y.createRecord Cache_ r) := by
  obtain ⟨t₀, hsame, hx⟩ := hxy.rows
  have hchange := h.change_createRecord hexact t₀ r
  rw [DB.createRecord, CachedTable.createRecord, hxy.cache, hx]
  exact agrees_changed (holds_attempted hsame hchange (hsame.insert r))

/-- `UpdateRecord` replaces the record of the key. -/
theorem updateRecord_agrees (hexact : E.Exact) (hxy : Mirrors tableName c x y) (k : String)
    (r : ρ) :
    Agrees tableName c (db.updateRecord E c Cache_ keyName k r x) (y.updateRecord Cache_ k r) := by
  obtain ⟨t₀, hsame, hx⟩ := hxy.rows
  have hchange := h.change_updateRecord hexact t₀ k r
  rw [DB.updateRecord, CachedTable.updateRecord, hxy.cache, hx]
  exact agrees_changed (holds_attempted hsame hchange (hsame.update k r))

/-- `DeleteRecord` deletes the record of the key. -/
theorem deleteRecord_agrees (hexact : E.Exact) (hxy : Mirrors tableName c x y) (k : String) :
    Agrees tableName c (db.deleteRecord E Cache_ keyName k x)
      (y.deleteRecord Cache_ keyName k) := by
  obtain ⟨t₀, hsame, hx⟩ := hxy.rows
  have hchange := h.change_deleteRecord hexact t₀ k
  rw [DB.deleteRecord, CachedTable.deleteRecord, hxy.cache, hx]
  exact agrees_changed (holds_attempted hsame hchange (.some (hsame.delete k)))

/-- `GetRecord` finds what the cache has, else the record with the value. -/
theorem getRecord_agrees (hexact : E.Exact) (hxy : Mirrors tableName c x y)
    (hkept : ∀ r ∈ y.1.rows, c.Kept r) {fieldName v : String}
    (hq : (Request.get fieldName v : Request ρ σ).Legal c db y) :
    Agrees tableName c (db.getRecord E c Cache_ fieldName v x)
      (y.getRecord c Cache_ fieldName v) := by
  obtain ⟨hvalid, hkind, hone⟩ := hq
  have hselect : db.selectRecord E c fieldName v x.1 =
      y.1.select fun r ↦ c.column (nameChars fieldName) r = some (.text v) := by
    obtain ⟨t₀, hsame, hx⟩ := hxy.rows
    have hkept₀ : ∀ r ∈ t₀.rows, c.Kept r := fun r hr ↦ hkept r (hsame.mem_iff.mp hr)
    rw [hx, h.selectRecord_eq hexact hkept₀ hvalid hkind]
    exact hsame.select_eq fun r hr r' hr' hv hv' ↦
      hone r hr r' hr' (of_decide_eq_true hv) (of_decide_eq_true hv')
  rw [DB.getRecord, hselect]
  exact agrees_through hxy fieldName v _

/-- The key can be asked for. -/
theorem legal_key (k : String) : (Request.get keyName k : Request ρ σ).Legal c db y := by
  refine ⟨h.valid, h.kindOf_key, fun r hr r' hr' hk hk' ↦ ?_⟩
  rw [h.column_key, Option.some.injEq, Value.text.injEq] at hk hk'
  exact List.inj_on_of_nodup_map y.1.nodup hr hr' (hk.trans hk'.symm)

/-- `ReplaceRecord` replaces the record of the key, or inserts it. -/
theorem replaceRecord_agrees (hexact : E.Exact) (hxy : Mirrors tableName c x y)
    (hkept : ∀ r ∈ y.1.rows, c.Kept r) (k : String) (r : ρ) :
    Agrees tableName c (db.replaceRecord E c Cache_ keyName k r x)
      (y.replaceRecord c Cache_ keyName k r) := by
  have hget : Agrees tableName c (db.getRecord E c Cache_ keyName k x) _ :=
    h.getRecord_agrees hexact hxy hkept (h.legal_key k)
  rw [DB.replaceRecord, CachedTable.replaceRecord]
  generalize db.getRecord E c Cache_ keyName k x = a at hget ⊢
  generalize y.getRecord c Cache_ keyName k = b at hget ⊢
  obtain ⟨found, x'⟩ := a
  obtain ⟨found', y'⟩ := b
  obtain ⟨hfound, hxy'⟩ := hget
  cases (hfound : found = found')
  cases found with
  | some _ => exact h.updateRecord_agrees hexact hxy' k r
  | none => exact h.createRecord_agrees hexact hxy' r

/-- One request. -/
theorem answer_agrees (hexact : E.Exact) (hxy : Mirrors tableName c x y)
    (hkept : ∀ r ∈ y.1.rows, c.Kept r) {q : Request ρ σ} (hq : q.Legal c db y) :
    Agrees tableName c (db.answer E c Cache_ keyName x q) (y.answer c Cache_ keyName q) := by
  cases q with
  | create r => exact (h.createRecord_agrees hexact hxy r).map Reply.done
  | get fieldName v => exact (h.getRecord_agrees hexact hxy hkept hq).map Reply.found
  | update k r => exact (h.updateRecord_agrees hexact hxy k r).map Reply.done
  | delete k => exact (h.deleteRecord_agrees hexact hxy k).map Reply.done
  | replace k r => exact (h.replaceRecord_agrees hexact hxy hkept k r).map Reply.done
  | meanwhile f order => exact ⟨rfl, hxy.rows.reorder hq, congrArg f hxy.cache⟩

omit h in
/-- A request leaves kept records in the table. -/
theorem kept_answer (hkept : ∀ r ∈ y.1.rows, c.Kept r) {q : Request ρ σ} (hq : q.Legal c db y) :
    ∀ r ∈ (y.answer c Cache_ keyName q).2.1.rows, c.Kept r := by
  cases q with
  | create r => exact CachedTable.kept_createRecord hkept hq
  | get fieldName v =>
    have hrows := CachedTable.getRecord_rows c Cache_ fieldName v y
    exact fun r hr ↦ hkept r (hrows ▸ hr)
  | update k r => exact CachedTable.kept_updateRecord hkept hq
  | delete k => exact CachedTable.kept_deleteRecord hkept
  | replace k r =>
    have hrows := CachedTable.getRecord_rows c Cache_ keyName k y
    change ∀ r' ∈ (y.replaceRecord c Cache_ keyName k r).2.1.rows, c.Kept r'
    rw [CachedTable.replaceRecord]
    rcases hget : y.getRecord c Cache_ keyName k with ⟨_ | r₀, y'⟩
    · rw [hget] at hrows
      exact CachedTable.kept_createRecord (fun r hr ↦ hkept r (hrows ▸ hr)) hq
    · rw [hget] at hrows
      exact CachedTable.kept_updateRecord (fun r hr ↦ hkept r (hrows ▸ hr)) hq
  | meanwhile f order => exact hkept

/-- The statements follow the operations. -/
theorem simulates (hexact : E.Exact) :
    (tableSpec c Cache_ keyName key).Simulates (fun x q ↦ some (db.answer E c Cache_ keyName x q))
      (fun y q ↦ q.Legal c db y) (fun _ _ ↦ True)
      fun x y ↦ Mirrors tableName c x y ∧ ∀ r ∈ y.1.rows, c.Kept r where
  right := by
    rintro x y q ⟨hxy, hkept⟩ hq -
    have hagrees : Agrees tableName c (db.answer E c Cache_ keyName x q) _ :=
      h.answer_agrees hexact hxy hkept hq
    obtain ⟨hanswer, hmirrors⟩ := hagrees
    exact ⟨_, congrArg some (Prod.ext hanswer rfl), hmirrors, kept_answer hkept hq⟩
  wrong := fun _ _ hnot ↦ absurd trivial hnot

/-- Whatever the database and the cache, the functions answer any requests as the operations on a
table behind that cache do. -/
theorem answers_eq_replies (hexact : E.Exact) (hkept : ∀ r ∈ y.1.rows, c.Kept r)
    {qs : List (Request ρ σ)}
    (hqs : System.Allowed (fun y q ↦ q.Legal c db y) (tableSpec c Cache_ keyName key).next y qs) :
    Spec.answers (fun x q ↦ some (db.answer E c Cache_ keyName x q))
        (stored tableName c y.1.rows, y.2) qs
      = some ((tableSpec c Cache_ keyName key).replies y qs) := by
  have hmirrors : Mirrors tableName c (stored tableName c y.1.rows, y.2) y :=
    ⟨⟨y.1, .refl _, rfl⟩, rfl⟩
  exact ((h.simulates hexact).answers_eq_iff ⟨hmirrors, hkept⟩ hqs).mpr
    (.of_forall _ (fun _ _ _ ↦ trivial) y)

end Keyed

end OwSec.ORM
