import Mathlib.Data.String.Basic
import OwSec.Kit.OrderedMap
import OwSec.Kit.Schema
import OwSec.Text

/-!
# Tables

The class `DB` of `framework/orm.h` builds its statements out of texts that the constructor makes
from the fields and the indexes.  `Create` issues them.

For SQLite and PostgreSQL there is a statement for each index.  For MySQL the indexes belong into
the definition of the table, but `Create` has closed the bracket by then.
-/

namespace OwSec.ORM

open Kit Sql

/-- `DBType`. -/
inductive DBType
  | sqlite
  | pgsql
  | mysql
  deriving DecidableEq, Repr

/-- The literals of a database, as it is installed. -/
def DBType.quoting : DBType → Quoting
  | .sqlite | .pgsql => .standard
  | .mysql => .escapes

/-- `FieldType`. -/
inductive FieldType
  | int
  | bigint
  | text
  | varchar
  | blob
  | boolean
  | real
  deriving DecidableEq, Repr

/-- `Indextype`. -/
inductive Indextype
  | asc
  | desc
  deriving DecidableEq, Repr

/-- `Field`. -/
structure Field where
  name : String
  type : FieldType
  size : ℤ := 0
  index : Bool := false

/-- `Field(N, S, I)`: the type depends on the size. -/
def Field.ofSize (name : String) (size : ℤ) (index : Bool := false) : Field where
  name := name
  type := if 0 < size ∧ size < 255 then .varchar else .text
  size := size
  index := index

/-- `IndexEntry`. -/
structure IndexEntry where
  fieldName : String
  type : Indextype

/-- `Index`. -/
structure Index where
  name : String
  entries : List IndexEntry

/-- `FieldTypeToChar`. -/
def fieldTypeToChar (type : DBType) (t : FieldType) (size : ℤ) : String :=
  match t with
  | .int => "INT"
  | .bigint => "BIGINT"
  | .text => "TEXT"
  | .boolean => "BOOLEAN"
  | .varchar => if size ≠ 0 then "VARCHAR(" ++ toString size ++ ")" else "TEXT"
  | .blob =>
    match type with
    | .mysql => "LONGBLOB"
    | .pgsql => "BYTEA"
    | .sqlite => "BLOB"
  | .real => "REAL"

/-- What a loop makes that puts a separator in front of every element but the first. -/
def joined (separator : String) : List String → String
  | [] => ""
  | [s] => s
  | s :: t :: rest => s ++ separator ++ joined separator (t :: rest)

/-- `DB`, with what the constructor prepares. -/
structure DB where
  tableName_ : String
  type_ : DBType
  fieldNames_ : OrderedMap String ℕ
  createFields_ : String
  selectFields_ : String
  updateFields_ : String
  selectList_ : String
  indexCreation_ : List String

namespace DB

/-- `ValidFieldName`. -/
def validFieldName (fieldNames : OrderedMap String ℕ) (fieldName : String) : Bool :=
  fieldNames.entries.any fun e ↦ e.1 == toLower fieldName

/-- `FieldNames_`: the place of each field. -/
def placeFields (fields : List Field) : OrderedMap String ℕ :=
  (fields.zipIdx).foldl (fun names f ↦ names.assign (toLower f.1.name) f.2) .empty

/-- The definition of a field. -/
def createField (type : DBType) (i : Field) : String :=
  toLower i.name ++ " " ++ fieldTypeToChar type i.type i.size ++
    (if i.index then " unique primary key" else "")

/-- The statement for an index of SQLite and PostgreSQL. -/
def createIndex (tableName : String) (j : Index) : String :=
  "CREATE INDEX IF NOT EXISTS " ++ j.name ++ " ON " ++ tableName ++ " (" ++
    joined " , " (j.entries.map fun k ↦
      toLower k.fieldName ++ " " ++ (if k.type = .asc then "ASC" else "DESC")) ++ " )"

/-- The definition of an index of MySQL. -/
def indexDefinition (j : Index) : String :=
  " INDEX " ++ j.name ++ " ( " ++
    joined " ," (j.entries.map fun k ↦
      toLower k.fieldName ++ (if k.type = .asc then " ASC" else " DESC")) ++ " ) "

/-- `IndexCreation_`. -/
def indexCreation (tableName : String) (type : DBType) (indexes : List Index) : List String :=
  if indexes.isEmpty then []
  else
    match type with
    | .sqlite | .pgsql => indexes.map (createIndex tableName)
    | .mysql => [joined ", " (indexes.map indexDefinition)]

/-- The constructor of `DB`; `none` is an assertion that fails. -/
def new (type : DBType) (tableName : String) (fields : List Field) (indexes : List Index) :
    Option DB :=
  if indexes.all fun j ↦ j.entries.all fun k ↦ validFieldName (placeFields fields) k.fieldName then
    some
      { tableName_ := tableName
        type_ := type
        fieldNames_ := placeFields fields
        createFields_ := joined ", " (fields.map (createField type))
        selectFields_ := joined ", " (fields.map fun i ↦ toLower i.name)
        updateFields_ := joined ", " (fields.map fun i ↦ toLower i.name ++ "=?")
        selectList_ := (if fields.isEmpty then "" else "(") ++
          joined ", " (fields.map fun _ ↦ "?") ++ ")"
        indexCreation_ := indexCreation tableName type indexes }
  else none

/-- `Create`: the statements, of which each is issued after the one before it has succeeded. -/
def create (db : DB) : List String :=
  match db.type_ with
  | .mysql =>
    match db.indexCreation_ with
    | [] => ["create table if not exists " ++ db.tableName_ ++ " ( " ++ db.createFields_ ++ " )"]
    | lines :: _ =>
      ["create table if not exists " ++ db.tableName_ ++ " ( " ++ db.createFields_ ++ " ), " ++
        lines ++ " )"]
  | .sqlite | .pgsql =>
    ("create table if not exists " ++ db.tableName_ ++ " ( " ++ db.createFields_ ++ " )") ::
      db.indexCreation_

end DB

/-! ## What the statements should be -/

/-- A name that needs no quoting. -/
def IsName (name : String) : Prop := name ≠ "" ∧ name.toList.all isWordChar = true

instance : DecidablePred IsName := fun _ ↦ inferInstanceAs (Decidable (_ ∧ _))

/-- A name as it is lexed. -/
def nameChars (name : String) : List Char := name.toList.map Char.toLower

/-- A number as it is lexed. -/
def sizeTokens : ℤ → List Token
  | .ofNat n => [closeWord (Nat.toDigits 10 n)]
  | .negSucc n => [.symbol '-', closeWord (Nat.toDigits 10 (n + 1))]

/-- The type of a field. -/
def typeTokens (type : DBType) (t : FieldType) (size : ℤ) : List Token :=
  match t with
  | .int => [keyword "int"]
  | .bigint => [keyword "bigint"]
  | .text => [keyword "text"]
  | .boolean => [keyword "boolean"]
  | .varchar => if size ≠ 0 then keyword "varchar" :: bracketed (sizeTokens size)
    else [keyword "text"]
  | .blob =>
    match type with
    | .mysql => [keyword "longblob"]
    | .pgsql => [keyword "bytea"]
    | .sqlite => [keyword "blob"]
  | .real => [keyword "real"]

/-- The column of a field. -/
def Field.definition (type : DBType) (i : Field) : Definition :=
  .column (nameChars i.name) (typeTokens type i.type i.size) i.index

/-- The direction of an entry. -/
def Indextype.direction : Indextype → Direction
  | .asc => .asc
  | .desc => .desc

/-- The entries of an index. -/
def Index.columns (j : Index) : List Entry :=
  j.entries.map fun k ↦ ⟨nameChars k.fieldName, k.type.direction⟩

/-- The statements that define a table with its indexes. -/
def schema (type : DBType) (tableName : String) (fields : List Field) (indexes : List Index) :
    List Statement :=
  match type with
  | .sqlite | .pgsql =>
    .createTable (nameChars tableName) (fields.map (Field.definition type)) ::
      indexes.map fun j ↦ .createIndex (nameChars j.name) (nameChars tableName) j.columns
  | .mysql =>
    [.createTable (nameChars tableName)
      (fields.map (Field.definition type) ++
        indexes.map fun j ↦ .index (nameChars j.name) j.columns)]

/-- Texts that are lexed as statements. -/
def Issues (type : DBType) (texts : List String) (statements : List Statement) : Prop :=
  texts.map (fun s ↦ type.quoting.tokens s.toList) = statements.map (fun s ↦ some s.tokens)

/-! ## Lexing the texts -/

variable {q : Quoting}

theorem toList_joined (separator : String) (ss : List String) :
    (joined separator ss).toList = separator.toList.intercalate (ss.map String.toList) := by
  induction ss using joined.induct with
  | case1 => rfl
  | case2 s => simp [joined]
  | case3 s t rest ih =>
    rw [joined, String.toList_append, String.toList_append, ih, List.map_cons, List.map_cons,
      List.map_cons, List.intercalate_cons_cons]

/-- Names are lexed without regard to case. -/
@[simp] theorem nameChars_toLower (name : String) : nameChars (toLower name) = nameChars name := by
  have hchars (s : String) : nameChars s = (toLower s).toList := String.toList_ofList.symm
  rw [hchars, hchars, toLower_toLower]

theorem IsName.toLower {name : String} (h : IsName name) : IsName (toLower name) := by
  refine ⟨fun hempty ↦ h.1 ?_, ?_⟩
  · have hnil := congrArg String.toList hempty
    simpa [OwSec.toLower] using hnil
  · rw [OwSec.toLower, String.toList_ofList, List.all_map, List.all_eq_true]
    intro c hc
    exact isWordChar_toLower (List.all_eq_true.mp h.2 c hc)

/-- A name is one word. -/
theorem IsName.lexed {name : String} (h : IsName name) :
    Lexed q name.toList [.word (nameChars name)] :=
  lexed_word (fun hnil ↦ h.1 (String.toList_eq_nil_iff.mp hnil)) h.2

/-- The name of a field is written in lower case. -/
theorem IsName.lexed_toLower {name : String} (h : IsName name) :
    Lexed q (OwSec.toLower name).toList [.word (nameChars name)] := by
  rw [← nameChars_toLower]
  exact h.toLower.lexed

/-- The digits of a number are one word. -/
theorem lexed_digits (n : ℕ) : Lexed q (Nat.toDigits 10 n) [closeWord (Nat.toDigits 10 n)] := by
  refine lexed_word Nat.toDigits_ne_nil (List.all_eq_true.mpr fun c hc ↦ ?_)
  have hdigit : c.isDigit = true := Nat.isDigit_of_mem_toDigits (by decide) (by decide) hc
  simp [isWordChar, Char.isAlphanum, hdigit]

theorem toList_ofNat (n : ℕ) : (toString (Int.ofNat n)).toList = Nat.toDigits 10 n :=
  Nat.toList_repr

theorem toList_negSucc (n : ℕ) :
    (toString (Int.negSucc n)).toList = '-' :: Nat.toDigits 10 (n + 1) := by
  rw [← Nat.toList_repr]
  exact String.toList_append

/-- A number, with its sign. -/
theorem lexed_size (size : ℤ) : Lexed q (toString size).toList (sizeTokens size) := by
  cases size with
  | ofNat n =>
    rw [toList_ofNat]
    exact lexed_digits n
  | negSucc n =>
    have hminus : Separates ['-'] [.symbol '-'] := by decide
    rw [toList_negSucc]
    exact Lexed.nil.glue (lexed_digits (n + 1)) hminus

/-- The type of a field. -/
theorem lexed_fieldTypeToChar (type : DBType) (t : FieldType) (size : ℤ) :
    Lexed q (fieldTypeToChar type t size).toList (typeTokens type t size) := by
  have htext : Lexed q "TEXT".toList [keyword "text"] := lexed_word (by decide) (by decide)
  cases t with
  | int => exact lexed_word (w := "INT".toList) (by decide) (by decide)
  | bigint => exact lexed_word (w := "BIGINT".toList) (by decide) (by decide)
  | text => exact htext
  | boolean => exact lexed_word (w := "BOOLEAN".toList) (by decide) (by decide)
  | real => exact lexed_word (w := "REAL".toList) (by decide) (by decide)
  | blob =>
    cases type with
    | sqlite => exact lexed_word (w := "BLOB".toList) (by decide) (by decide)
    | pgsql => exact lexed_word (w := "BYTEA".toList) (by decide) (by decide)
    | mysql => exact lexed_word (w := "LONGBLOB".toList) (by decide) (by decide)
  | varchar =>
    simp only [fieldTypeToChar, typeTokens]
    split
    · have hname : Lexed q "VARCHAR".toList [keyword "varchar"] :=
        lexed_word (by decide) (by decide)
      have h := (hname.glue (lexed_size size) separates_opening).glue .nil separates_closing
      simpa [bracketed] using h
    · exact htext

/-- The definition of a field. -/
theorem lexed_createField {type : DBType} {i : Field} (h : IsName i.name) :
    Lexed q (DB.createField type i).toList (i.definition type).tokens := by
  have hcolumn := h.lexed_toLower.glue (lexed_fieldTypeToChar (q := q) type i.type i.size)
    separates_blank
  unfold DB.createField Field.definition Definition.tokens
  cases hindex : i.index with
  | false => simpa using hcolumn
  | true =>
    have hkey : Lexed q "unique primary key".toList
        [keyword "unique", keyword "primary", keyword "key"] :=
      .of_any (by cases q <;> decide) (by cases q <;> decide)
    have hall := hcolumn.glue hkey separates_blank
    simpa using hall

/-- The commas between pieces. -/
theorem lexed_joined {ι : Type} {separator : String} (hsep : Separates separator.toList [.symbol ','])
    {text : ι → String} {ts : ι → List Token} {l : List ι}
    (h : ∀ i ∈ l, Lexed q (text i).toList (ts i)) :
    Lexed q (joined separator (l.map text)).toList (commas (l.map ts)) := by
  have hall := Lexed.intercalate hsep h
  rw [toList_joined, List.map_map]
  exact hall

/-- The fields of a table. -/
theorem lexed_createFields {t : DBType} {fields : List Field} (h : ∀ i ∈ fields, IsName i.name) :
    Lexed q (joined ", " (fields.map (DB.createField t))).toList
      (commas (fields.map fun i ↦ (i.definition t).tokens)) :=
  lexed_joined (by decide) fun i hi ↦ lexed_createField (h i hi)

/-- An entry of an index, with its direction behind a blank. -/
theorem lexed_entry {k : IndexEntry} (h : IsName (toLower k.fieldName)) :
    Lexed q (toLower k.fieldName ++ " " ++ (if k.type = .asc then "ASC" else "DESC")).toList
      (Entry.tokens ⟨nameChars k.fieldName, k.type.direction⟩) := by
  have hname := h.lexed (q := q)
  rw [nameChars_toLower] at hname
  cases htype : k.type with
  | asc =>
    have hasc : Lexed q "ASC".toList [keyword "asc"] := lexed_word (by decide) (by decide)
    simpa [Entry.tokens, Indextype.direction, Direction.token] using
      hname.glue hasc separates_blank
  | desc =>
    have hdesc : Lexed q "DESC".toList [keyword "desc"] := lexed_word (by decide) (by decide)
    simpa [Entry.tokens, Indextype.direction, Direction.token] using
      hname.glue hdesc separates_blank

/-- The names of an index are names. -/
structure Index.Named (j : Index) : Prop where
  name : IsName j.name
  entries : ∀ k ∈ j.entries, IsName (toLower k.fieldName)

/-- The entries of an index. -/
theorem Index.Named.lexed_entries {j : Index} (h : j.Named) {s : String}
    (hsep : Separates s.toList [.symbol ',']) :
    Lexed q (joined s (j.entries.map fun k ↦
      toLower k.fieldName ++ " " ++ (if k.type = .asc then "ASC" else "DESC"))).toList
      (commas (j.columns.map Entry.tokens)) := by
  have hall := lexed_joined (q := q) hsep fun k hk ↦ lexed_entry (h.entries k hk)
  rw [Index.columns, List.map_map]
  exact hall

/-- The statement for an index of SQLite and PostgreSQL, around its entries. -/
theorem lexed_createIndex {name tableName entries : String} {ts : List Token} (hname : IsName name)
    (htable : IsName tableName) (hentries : Lexed q entries.toList ts) :
    Lexed q ("CREATE INDEX IF NOT EXISTS " ++ name ++ " ON " ++ tableName ++ " (" ++ entries ++
        " )").toList
      ([keyword "create", keyword "index", keyword "if", keyword "not", keyword "exists",
        .word (nameChars name), keyword "on", .word (nameChars tableName)] ++ bracketed ts) := by
  have hhead : Lexed q "CREATE INDEX IF NOT EXISTS".toList [keyword "create", keyword "index",
      keyword "if", keyword "not", keyword "exists"] :=
    .of_any (by cases q <;> decide) (by cases q <;> decide)
  have hon : Lexed q "ON".toList [keyword "on"] := lexed_word (by decide) (by decide)
  have hopen : Separates [' ', '('] [opening] := by decide
  have hnames := ((hhead.glue hname.lexed separates_blank).glue hon separates_blank).glue
    htable.lexed separates_blank
  have hall := (hnames.glue hentries hopen).glue .nil separates_blank_closing
  simpa [bracketed] using hall

/-- The statement for an index of SQLite and PostgreSQL. -/
theorem Index.Named.lexed_createIndex {j : Index} (h : j.Named) {tableName : String}
    (htable : IsName tableName) :
    Lexed q (DB.createIndex tableName j).toList
      (Statement.createIndex (nameChars j.name) (nameChars tableName) j.columns).tokens :=
  ORM.lexed_createIndex h.name htable (h.lexed_entries (s := " , ") (by decide))

/-- The definition of an index of MySQL. -/
theorem Index.Named.lexed_indexDefinition {j : Index} (h : j.Named) :
    Lexed q (DB.indexDefinition j).toList
      (Definition.index (nameChars j.name) j.columns).tokens := by
  have hhead : Lexed q "INDEX".toList [keyword "index"] := lexed_word (by decide) (by decide)
  have hclose : Separates [' ', ')', ' '] [closing] := by decide
  have hspace (k : IndexEntry) : toLower k.fieldName ++ (if k.type = .asc then " ASC" else " DESC")
      = toLower k.fieldName ++ " " ++ (if k.type = .asc then "ASC" else "DESC") := by
    cases k.type <;> rw [String.append_assoc] <;> rfl
  have hcomma : Separates " ,".toList [.symbol ','] := by decide
  have hname := (Lexed.nil.glue hhead separates_blank).glue h.name.lexed separates_blank
  have hall := (hname.glue (h.lexed_entries hcomma) separates_opening_blanks).glue .nil hclose
  simp only [DB.indexDefinition, hspace]
  simpa [Definition.tokens, bracketed] using hall

/-! ## The law -/

/-- The fields of a table are found by their names in lower case, and nothing else is. -/
theorem exists_mem_placeFields (fields : List Field) (name : String) :
    (∃ n, (name, n) ∈ DB.placeFields fields) ↔ ∃ i ∈ fields, toLower i.name = name := by
  have hfold (l : List (Field × ℕ)) (m : OrderedMap String ℕ) :
      (∃ n, (name, n) ∈ l.foldl (fun names f ↦ names.assign (toLower f.1.name) f.2) m) ↔
        (∃ f ∈ l, toLower f.1.name = name) ∨ ∃ n, (name, n) ∈ m := by
    induction l generalizing m with
    | nil => simp
    | cons f l ih =>
      rw [List.foldl_cons, ih]
      by_cases hname : toLower f.1.name = name
      · simp [hname]
      · simp [hname, Ne.symm hname]
  have hfst : (fields.zipIdx).map Prod.fst = fields := List.zipIdx_map_fst 0 fields
  have hfields : (∃ i ∈ fields, toLower i.name = name) ↔
      ∃ i ∈ (fields.zipIdx).map Prod.fst, toLower i.name = name := by rw [hfst]
  rw [DB.placeFields, hfold, hfields]
  constructor
  · rintro (⟨f, hf, hname⟩ | ⟨n, hn⟩)
    · exact ⟨f.1, List.mem_map_of_mem hf, hname⟩
    · exact absurd hn (OrderedMap.not_mem_empty _)
  · rintro ⟨i, hi, hname⟩
    obtain ⟨f, hf, rfl⟩ := List.mem_map.mp hi
    exact .inl ⟨f, hf, hname⟩

/-- Names that may be looked up. -/
theorem validFieldName_iff (fields : List Field) (fieldName : String) :
    DB.validFieldName (DB.placeFields fields) fieldName = true ↔
      ∃ i ∈ fields, toLower i.name = toLower fieldName := by
  rw [← exists_mem_placeFields]
  simp only [DB.validFieldName, List.any_eq_true, beq_iff_eq, OrderedMap.mem_def]
  exact ⟨fun ⟨e, he, hname⟩ ↦ ⟨e.2, hname ▸ he⟩, fun ⟨n, hn⟩ ↦ ⟨_, hn, rfl⟩⟩

/-- A table whose names are names, with indexes over its fields. -/
structure Proper (tableName : String) (fields : List Field) (indexes : List Index) : Prop where
  table : IsName tableName
  ofField : ∀ i ∈ fields, IsName i.name
  ofIndex : ∀ j ∈ indexes, IsName j.name
  overFields : ∀ j ∈ indexes, ∀ k ∈ j.entries, ∃ i ∈ fields, toLower i.name = toLower k.fieldName

namespace Proper

variable {tableName : String} {fields : List Field} {indexes : List Index}

/-- The names of the indexes are names. -/
theorem named (h : Proper tableName fields indexes) {j : Index} (hj : j ∈ indexes) : j.Named where
  name := h.ofIndex j hj
  entries k hk := by
    obtain ⟨i, hi, hname⟩ := h.overFields j hj k hk
    rw [← hname]
    exact (h.ofField i hi).toLower

/-- No assertion fails. -/
theorem exists_new (h : Proper tableName fields indexes) (type : DBType) :
    ∃ db, DB.new type tableName fields indexes = some db ∧ db.type_ = type ∧
      db.tableName_ = tableName ∧ db.createFields_ = joined ", " (fields.map (DB.createField type)) ∧
      db.indexCreation_ = DB.indexCreation tableName type indexes := by
  refine ⟨_, if_pos ?_, rfl, rfl, rfl, rfl⟩
  rw [List.all_eq_true]
  intro j hj
  rw [List.all_eq_true]
  intro k hk
  exact (validFieldName_iff fields k.fieldName).mpr (h.overFields j hj k hk)

/-- The statement for a table up to its last field. -/
theorem lexed_fields (h : Proper tableName fields indexes) (type : DBType) :
    Lexed q ("create table if not exists " ++ tableName ++ " ( " ++
        joined ", " (fields.map (DB.createField type))).toList
      ([keyword "create", keyword "table", keyword "if", keyword "not", keyword "exists",
        .word (nameChars tableName), opening] ++
          commas (fields.map fun i ↦ (i.definition type).tokens)) := by
  have hhead : Lexed q "create table if not exists".toList [keyword "create", keyword "table",
      keyword "if", keyword "not", keyword "exists"] :=
    .of_any (by cases q <;> decide) (by cases q <;> decide)
  have hfields := lexed_createFields (q := q) (t := type) h.ofField
  have hall := (hhead.glue h.table.lexed separates_blank).glue hfields separates_opening_blanks
  simpa using hall

/-- The statement for a table without indexes. -/
theorem lexed_createTable (h : Proper tableName fields indexes) (type : DBType) :
    Lexed q ("create table if not exists " ++ tableName ++ " ( " ++
        joined ", " (fields.map (DB.createField type)) ++ " )").toList
      (Statement.createTable (nameChars tableName) (fields.map (Field.definition type))).tokens := by
  have hall := (h.lexed_fields (q := q) type).glue .nil separates_blank_closing
  simpa [Statement.tokens, bracketed, Function.comp_def] using hall

/-- The statement for a table of MySQL with indexes: the bracket is closed in front of them, and
once more behind them. -/
theorem lexed_createTable_indexes (h : Proper tableName fields indexes) :
    Lexed q ("create table if not exists " ++ tableName ++ " ( " ++
        joined ", " (fields.map (DB.createField .mysql)) ++ " ), " ++
        joined ", " (indexes.map DB.indexDefinition) ++ " )").toList
      ([keyword "create", keyword "table", keyword "if", keyword "not", keyword "exists",
          .word (nameChars tableName)] ++
        bracketed (commas (fields.map fun i ↦ (i.definition .mysql).tokens)) ++
        .symbol ',' :: commas (indexes.map fun j ↦
          (Definition.index (nameChars j.name) j.columns).tokens) ++ [closing]) := by
  have hcomma : Separates " ), ".toList [closing, .symbol ','] := by decide
  have hindexes : Lexed q (joined ", " (indexes.map DB.indexDefinition)).toList
      (commas (indexes.map fun j ↦ (Definition.index (nameChars j.name) j.columns).tokens)) :=
    lexed_joined (by decide) fun j hj ↦ (h.named hj).lexed_indexDefinition
  have hall := ((h.lexed_fields (q := q) .mysql).glue hindexes hcomma).glue .nil
    separates_blank_closing
  simpa [bracketed] using hall

/-- The statements for the indexes of SQLite and PostgreSQL. -/
theorem map_createIndex (h : Proper tableName fields indexes) :
    indexes.map (fun j ↦ q.tokens (DB.createIndex tableName j).toList)
      = indexes.map fun j ↦ some
          (Statement.createIndex (nameChars j.name) (nameChars tableName) j.columns).tokens :=
  List.map_congr_left fun _ hj ↦ ((h.named hj).lexed_createIndex h.table).tokens_eq

/-- The tokens of all statements together with those of the table. -/
theorem issues_indexes (h : Proper tableName fields indexes) {type : DBType}
    (hmysql : type ≠ .mysql) {db : DB} (htype : db.type_ = type) (hname : db.tableName_ = tableName)
    (hfields : db.createFields_ = joined ", " (fields.map (DB.createField type)))
    (hindexes : db.indexCreation_ = DB.indexCreation tableName type indexes) :
    Issues type db.create (schema type tableName fields indexes) := by
  have htable := (h.lexed_createTable (q := type.quoting) type).tokens_eq
  have hlines : db.indexCreation_ = indexes.map (DB.createIndex tableName) := by
    rw [hindexes]
    rcases indexes with _ | ⟨j, indexes⟩
    · rfl
    · cases type with
      | sqlite => rfl
      | pgsql => rfl
      | mysql => exact absurd rfl hmysql
  have hmap := h.map_createIndex (q := type.quoting)
  cases type with
  | mysql => exact absurd rfl hmysql
  | sqlite =>
    simp only [Issues, DB.create, schema, htype, hname, hfields, hlines, List.map_cons, htable,
      List.map_map, Function.comp_def, hmap]
  | pgsql =>
    simp only [Issues, DB.create, schema, htype, hname, hfields, hlines, List.map_cons, htable,
      List.map_map, Function.comp_def, hmap]

/-- Behind the definition of a table of MySQL there is one bracket too many. -/
theorem not_matched_createTable_indexes (name : List Char) {fs is : List Token} (hfs : Matched fs)
    (his : Matched is) :
    ¬ Matched ([keyword "create", keyword "table", keyword "if", keyword "not", keyword "exists",
      .word name] ++ bracketed fs ++ .symbol ',' :: is ++ [closing]) := by
  intro h
  have hwords : Matched [keyword "create", keyword "table", keyword "if", keyword "not",
      keyword "exists", .word name] := matched_of_words (by simp [keyword])
  have hne : opening ≠ closing := by decide
  have hcount := h.count_eq hne
  have hcomma : (Token.symbol ',' == opening) = false ∧ (Token.symbol ',' == closing) = false := by
    decide
  simp only [bracketed, List.count_append, List.count_cons, List.count_nil, hwords.count_eq hne,
    hfs.count_eq hne, his.count_eq hne, hcomma, beq_self_eq_true, beq_false_of_ne hne,
    beq_false_of_ne hne.symm, if_true, Bool.false_eq_true, if_false] at hcount
  omega

end Proper

/-- The types are balanced. -/
theorem matched_typeTokens (type : DBType) (t : FieldType) (size : ℤ) :
    Matched (typeTokens type t size) := by
  cases t with
  | varchar =>
    simp only [typeTokens]
    split
    · have hname : Matched [keyword "varchar"] := matched_of_words (by simp [keyword])
      have hdigits (n : ℕ) : Matched [closeWord (Nat.toDigits 10 n)] :=
        matched_of_words (by simp [closeWord])
      refine hname.append (.wrap ?_)
      cases size with
      | ofNat n => exact hdigits n
      | negSucc n => exact (Balanced.other (by decide) (by decide)).append (hdigits (n + 1))
    · exact matched_of_words (by simp [keyword])
  | blob => cases type <;> exact matched_of_words (by simp [typeTokens, keyword])
  | _ => exact matched_of_words (by simp [typeTokens, keyword])

/-- The brackets of the statements that define a table are balanced. -/
theorem matched_schema (type : DBType) (tableName : String) (fields : List Field)
    (indexes : List Index) : ∀ s ∈ schema type tableName fields indexes, Matched s.tokens := by
  have hfield (i : Field) : (i.definition type).TypeMatched :=
    matched_typeTokens type i.type i.size
  intro s hs
  refine Statement.matched ?_
  rintro name definitions rfl d hd
  cases type with
  | mysql =>
    obtain ⟨-, rfl⟩ := Statement.createTable.inj (List.mem_singleton.mp hs)
    rcases List.mem_append.mp hd with hd | hd
    · obtain ⟨i, -, rfl⟩ := List.mem_map.mp hd
      exact hfield i
    · obtain ⟨j, -, rfl⟩ := List.mem_map.mp hd
      trivial
  | _ =>
    rcases List.mem_cons.mp hs with heq | hs
    · obtain ⟨-, rfl⟩ := Statement.createTable.inj heq
      obtain ⟨i, -, rfl⟩ := List.mem_map.mp hd
      exact hfield i
    · obtain ⟨j, -, heq⟩ := List.mem_map.mp hs
      cases heq

/-- What is issued for a table of MySQL with indexes is no statement. -/
theorem not_issues_mysql {tableName : String} {fields : List Field} {indexes : List Index}
    (h : Proper tableName fields indexes) (hne : indexes ≠ []) {db : DB} (htype : db.type_ = .mysql)
    (hname : db.tableName_ = tableName)
    (hfields : db.createFields_ = joined ", " (fields.map (DB.createField .mysql)))
    (hindexes : db.indexCreation_ = DB.indexCreation tableName .mysql indexes) :
    ¬ Issues .mysql db.create (schema .mysql tableName fields indexes) := by
  intro hissues
  have htable := (h.lexed_createTable_indexes (q := DBType.mysql.quoting)).tokens_eq
  have hlines : db.indexCreation_ = [joined ", " (indexes.map DB.indexDefinition)] := by
    rw [hindexes, DB.indexCreation, if_neg (by simpa using hne)]
  have hcreate : db.create = ["create table if not exists " ++ tableName ++ " ( " ++
      joined ", " (fields.map (DB.createField .mysql)) ++ " ), " ++
      joined ", " (indexes.map DB.indexDefinition) ++ " )"] := by
    simp only [DB.create, htype, hname, hfields, hlines]
  rw [Issues, hcreate] at hissues
  have htokens := Option.some.inj (htable.symm.trans (List.cons.inj hissues).1)
  have hmatched := matched_schema .mysql tableName fields indexes _ List.mem_cons_self
  rw [← htokens] at hmatched
  refine Proper.not_matched_createTable_indexes _ (matched_commas ?_) (matched_commas ?_) hmatched
  · rw [List.forall_mem_map]
    exact fun i _ ↦ Definition.matched (matched_typeTokens .mysql i.type i.size)
  · rw [List.forall_mem_map]
    exact fun k _ ↦ Definition.matched trivial

/-- The statements that are issued for a table define it with its indexes, except for a table of
MySQL with indexes. -/
theorem create_issues_iff {tableName : String} {fields : List Field} {indexes : List Index}
    (h : Proper tableName fields indexes) (type : DBType) :
    (∀ s ∈ schema type tableName fields indexes, Matched s.tokens) ∧
      ∃ db, DB.new type tableName fields indexes = some db ∧
        (Issues type db.create (schema type tableName fields indexes) ↔
          ¬ (type = .mysql ∧ indexes ≠ [])) := by
  refine ⟨matched_schema type tableName fields indexes, ?_⟩
  obtain ⟨db, hnew, htype, hname, hfields, hindexes⟩ := h.exists_new type
  refine ⟨db, hnew, ?_⟩
  by_cases hmysql : type = .mysql
  · subst hmysql
    by_cases hempty : indexes = []
    · subst hempty
      have htable := (h.lexed_createTable (q := DBType.mysql.quoting) .mysql).tokens_eq
      have hlines : db.indexCreation_ = [] := hindexes
      have hissues : Issues .mysql db.create (schema .mysql tableName fields []) := by
        simp only [Issues, DB.create, schema, htype, hname, hfields, hlines, List.map_cons, htable,
          List.map_nil, List.append_nil]
      exact iff_of_true hissues (by simp)
    · exact iff_of_false (not_issues_mysql h hempty htype hname hfields hindexes) (by simp [hempty])
  · exact iff_of_true (h.issues_indexes hmysql htype hname hfields hindexes) fun hboth ↦
      hmysql hboth.1

/-- `ApiKeyDB_Fields`. -/
def apiKeyDB_Fields : List Field :=
  [.ofSize "id" 36 true, ⟨"userUuid", .text, 0, false⟩, ⟨"name", .text, 0, false⟩,
    ⟨"description", .text, 0, false⟩, ⟨"apiKey", .text, 0, false⟩, ⟨"salt", .text, 0, false⟩,
    ⟨"created", .bigint, 0, false⟩, ⟨"expiresOn", .bigint, 0, false⟩, ⟨"rights", .text, 0, false⟩,
    ⟨"lastUse", .bigint, 0, false⟩]

/-- `MakeIndices` of the same table. -/
def makeIndices (shortname : String) : List Index :=
  [⟨shortname ++ "_username_index", [⟨"userUuid", .asc⟩]⟩,
    ⟨shortname ++ "_apikey_index", [⟨"apiKey", .asc⟩]⟩]

/-- The table of API keys. -/
theorem proper_apiKeys : Proper "ApiKeys" apiKeyDB_Fields (makeIndices "api") where
  table := by decide
  ofField := by decide
  ofIndex := by decide
  overFields := by
    have huser : ∃ i ∈ apiKeyDB_Fields, toLower i.name = toLower "userUuid" :=
      ⟨⟨"userUuid", .text, 0, false⟩, by simp [apiKeyDB_Fields], rfl⟩
    have hkey : ∃ i ∈ apiKeyDB_Fields, toLower i.name = toLower "apiKey" :=
      ⟨⟨"apiKey", .text, 0, false⟩, by simp [apiKeyDB_Fields], rfl⟩
    simp only [makeIndices, List.forall_mem_cons]
    exact ⟨⟨huser, by simp⟩, ⟨hkey, by simp⟩, by simp⟩

/-- The table of API keys is defined with its indexes in SQLite. -/
theorem create_issues_apiKeys :
    ∃ db, DB.new .sqlite "ApiKeys" apiKeyDB_Fields (makeIndices "api") = some db ∧
      Issues .sqlite db.create (schema .sqlite "ApiKeys" apiKeyDB_Fields (makeIndices "api")) := by
  obtain ⟨-, db, hnew, hissues⟩ := create_issues_iff proper_apiKeys .sqlite
  exact ⟨db, hnew, hissues.mpr (by simp)⟩

/-- In MySQL the bracket of the table is closed in front of the index. -/
theorem create_mysql_index :
    ∃ db, DB.new .mysql "t" [⟨"id", .text, 0, true⟩] [⟨"ix", [⟨"id", .asc⟩]⟩] = some db ∧
      db.create = ["create table if not exists t ( id TEXT unique primary key ),  " ++
        "INDEX ix ( id ASC )  )"] ∧
      ¬ Issues .mysql db.create
        (schema .mysql "t" [⟨"id", .text, 0, true⟩] [⟨"ix", [⟨"id", .asc⟩]⟩]) := by
  have hproper : Proper "t" [⟨"id", .text, 0, true⟩] [⟨"ix", [⟨"id", .asc⟩]⟩] :=
    ⟨by decide, by decide, by decide, by simp⟩
  obtain ⟨db, hnew, htype, hname, hfields, hindexes⟩ := hproper.exists_new .mysql
  refine ⟨db, hnew, ?_, not_issues_mysql hproper (by simp) htype hname hfields hindexes⟩
  simp only [DB.create, htype, hname, hfields, hindexes]
  decide

end OwSec.ORM
