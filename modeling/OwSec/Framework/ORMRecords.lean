import OwSec.Framework.ORMStatements
import OwSec.Kit.Extents

/-!
# Statements on records

The statements that `framework/orm.h` issues for records, and what a database reads them as.

A record is bound to a statement as a tuple, and a placeholder stands for each of its fields.
`Writes` follows a text, from the text that is put together to the items that the parser gets: the
placeholders are numbered for PostgreSQL, the text is cut into tokens, and each placeholder is the
place of a parameter.
-/

namespace OwSec.ORM

open Kit Sql

/-- How a database has statements written. -/
def DBType.grammar : DBType → Grammar
  | .sqlite | .mysql => ⟨.marks, true⟩
  | .pgsql => ⟨.numbers, false⟩

namespace DB

variable (db : DB)

/-- The statement of `CreateRecord`. -/
def createRecordStatement : Option String :=
  db.convertParams
    ("insert into  " ++ db.tableName_ ++ " ( " ++ db.selectFields_ ++ " ) values " ++
      db.selectList_)

/-- The statement of `GetRecord` with a field; `none` is an assertion that fails. -/
def getRecordByStatement (fieldName : String) : Option String :=
  if validFieldName db.fieldNames_ fieldName then
    db.convertParams
      ("select " ++ db.selectFields_ ++ " from " ++ db.tableName_ ++ " where " ++ fieldName ++
        "=?" ++ " limit 1")
  else none

/-- The statement of `UpdateRecord`. -/
def updateRecordStatement (fieldName : String) : Option String :=
  if validFieldName db.fieldNames_ fieldName then
    db.convertParams
      ("update " ++ db.tableName_ ++ " set " ++ db.updateFields_ ++ " where " ++ fieldName ++ "=?")
  else none

/-- The statement of `DeleteRecord`. -/
def deleteRecordStatement (fieldName : String) : Option String :=
  if validFieldName db.fieldNames_ fieldName then
    db.convertParams ("delete from " ++ db.tableName_ ++ " where " ++ fieldName ++ "=?")
  else none

/-- The statement of `DeleteRecords`. -/
def deleteRecordsStatement (whereClause : String) : Option String :=
  if whereClause.isEmpty then none
  else some ("delete from " ++ db.tableName_ ++ " where " ++ whereClause)

/-- `ComputeRange`. -/
def computeRange (offset howMany : ℕ) : String :=
  match db.type_ with
  | .sqlite => " LIMIT " ++ toString offset ++ ", " ++ toString howMany ++ " "
  | .pgsql | .mysql => " LIMIT " ++ toString howMany ++ " OFFSET " ++ toString offset ++ " "

/-- The statement of `GetRecords`. -/
def getRecordsStatement (offset howMany : ℕ) (whereClause orderBy : String) : String :=
  "select " ++ db.selectFields_ ++ " from " ++ db.tableName_ ++
    (if whereClause.isEmpty then "" else " where " ++ whereClause) ++ orderBy ++
      db.computeRange offset howMany

/-- The statement of `Count`. -/
def countStatement (whereClause : String) : String :=
  "SELECT COUNT(*) FROM " ++ db.tableName_ ++ " " ++
    (if whereClause.isEmpty then "" else " where " ++ whereClause)

end DB

/-! ## Placeholders in texts -/

/-- A text as a database gets it, with `k` placeholders before. -/
def placed (type : DBType) (k : ℕ) (s : List Char) : List Char :=
  if type = .pgsql then allNumbered (k + 1) s else s

theorem allNumbered_append (k : ℕ) (a b : List Char) :
    allNumbered k (a ++ b) = allNumbered k a ++ allNumbered (k + a.count '?') b := by
  induction a generalizing k with
  | nil => rfl
  | cons c a ih =>
    rw [List.cons_append, allNumbered, allNumbered]
    by_cases hc : c = '?'
    · subst hc
      have hcount : k + List.count '?' ('?' :: a) = k + 1 + a.count '?' := by
        rw [List.count_cons_self]
        omega
      rw [if_pos rfl, if_pos rfl, ih, hcount, List.cons_append, List.append_assoc]
    · rw [if_neg hc, if_neg hc, ih, List.count_cons_of_ne hc, List.cons_append]

theorem placed_append (type : DBType) (k : ℕ) (a b : List Char) :
    placed type k (a ++ b) = placed type k a ++ placed type (k + a.count '?') b := by
  unfold placed
  split
  · rw [allNumbered_append, Nat.add_right_comm]
  · rfl

/-- A text without question marks stays as it is. -/
theorem placed_of_notMem (type : DBType) (k : ℕ) {a : List Char} (h : '?' ∉ a) :
    placed type k a = a := by
  have hnumbered (k : ℕ) : allNumbered k a = a := by
    induction a with
    | nil => rfl
    | cons c a ih =>
      obtain ⟨hc, ha⟩ := List.ne_and_not_mem_of_not_mem_cons h
      rw [allNumbered, if_neg (Ne.symm hc), ih ha]
  unfold placed
  split
  · exact hnumbered _
  · rfl

/-- `ConvertParams`, as long as there are numbers for the placeholders. -/
theorem convertParams_eq (db : DB) {s : String} (h : s.toList.count '?' < 2 ^ 31 - 1) :
    db.convertParams s = some (String.ofList (placed db.type_ 0 s.toList)) := by
  unfold DB.convertParams placed
  by_cases hpgsql : db.type_ = .pgsql
  · rw [if_neg (not_not.mpr hpgsql), if_pos hpgsql, convertLoop_eq (by omega),
      if_pos (by omega), String.empty_append]
  · rw [if_pos hpgsql, if_neg hpgsql, String.ofList_toList]

/-! ## Items of texts -/

/-- A token that is no part of a placeholder. -/
def Plain (t : Token) : Prop := t ≠ .symbol '?' ∧ t ≠ .symbol '$'

instance : DecidablePred Plain := fun _ ↦ inferInstanceAs (Decidable (_ ∧ _))

/-- The items of a text, with `k` placeholders before it and `k'` before its end. -/
structure Writes (type : DBType) (k : ℕ) (a : List Char) (is : List Item) (k' : ℕ) : Prop where
  count_eq : k + a.count '?' = k'
  exists_tokens : ∃ ts, Lexed type.quoting (placed type k a) ts ∧
    Itemized type.grammar.placeholders k ts is k'

/-- Digits have no case. -/
theorem closeWord_toDigits (n : ℕ) :
    closeWord (Nat.toDigits 10 n) = .word (Nat.toDigits 10 n) := by
  have hdigit (c : Char) (hc : c ∈ Nat.toDigits 10 n) : c.toLower = c := by
    have hdigit : c.isDigit = true := Nat.isDigit_of_mem_toDigits (by decide) (by decide) hc
    refine dif_neg fun hupper ↦ ?_
    have hlow : 65 ≤ c.val.toNat := UInt32.le_iff_toNat_le.mp hupper.1
    simp only [Char.isDigit, Bool.and_eq_true, decide_eq_true_eq, UInt32.le_iff_toNat_le] at hdigit
    have hhigh : c.val.toNat ≤ 57 := hdigit.2
    omega
  rw [closeWord, List.map_congr_left hdigit, List.map_id']

namespace Writes

variable {type : DBType} {k k' k'' : ℕ} {a b : List Char} {is js : List Item}

theorem nil : Writes type k [] [] k := by
  refine ⟨rfl, [], ?_, .nil⟩
  rw [placed_of_notMem type k List.not_mem_nil]
  exact .nil

/-- Text without placeholders. -/
theorem plain {ts : List Token} (h : Lexed type.quoting a ts) (hmark : '?' ∉ a)
    (hts : ∀ t ∈ ts, Plain t) : Writes type k a (ts.map .token) k := by
  refine ⟨?_, ts, ?_, .tokens hts⟩
  · rw [List.count_eq_zero.mpr hmark, Nat.add_zero]
  · rw [placed_of_notMem type k hmark]
    exact h

/-- A placeholder. -/
theorem placeholder : Writes type k ['?'] [.parameter k] (k + 1) := by
  refine ⟨rfl, type.grammar.placeholders.tokens k, ?_, .placeholder _ k⟩
  have hmark : Separates ['?'] [.symbol '?'] := by decide
  have hdollar : Separates ['$'] [.symbol '$'] := by decide
  cases type with
  | sqlite => exact Lexed.nil.glue .nil hmark
  | mysql => exact Lexed.nil.glue .nil hmark
  | pgsql =>
    have hnumber := Lexed.nil.glue (q := DBType.pgsql.quoting) (lexed_digits (k + 1)) hdollar
    rw [closeWord_toDigits] at hnumber
    simpa [placed, allNumbered, DBType.grammar, Placeholders.tokens] using hnumber

/-- Two texts with delimiters between them. -/
theorem glue (ha : Writes type k a is k') (hb : Writes type k' b js k'') {glue : List Char}
    {gs : List Token} (hglue : Separates glue gs) (hmark : '?' ∉ glue) (hgs : ∀ t ∈ gs, Plain t) :
    Writes type k (a ++ glue ++ b) (is ++ gs.map .token ++ js) k'' := by
  obtain ⟨hcount, ts, hts, his⟩ := ha
  obtain ⟨hcount', us, hus, hjs⟩ := hb
  have hzero : glue.count '?' = 0 := List.count_eq_zero.mpr hmark
  refine ⟨?_, ts ++ gs ++ us, ?_, (his.append (.tokens hgs)).append hjs⟩
  · rw [List.count_append, List.count_append, hzero]
    omega
  · rw [placed_append, placed_append, placed_of_notMem type _ hmark, List.count_append, hzero,
      Nat.add_zero, hcount]
    exact hts.glue hus hglue

/-- A list of texts with a placeholder in each of them. -/
theorem list {ι : Type} {text : ι → List Char} {is : ι × ℕ → List Item} {glue : List Char}
    (hglue : Separates glue [.symbol ',']) (hmark : '?' ∉ glue) {l : List ι}
    (h : ∀ i ∈ l, ∀ k, Writes type k (text i) (is (i, k)) (k + 1)) :
    Writes type k (glue.intercalate (l.map text)) (commaItems ((l.zipIdx k).map is))
      (k + l.length) := by
  induction l generalizing k with
  | nil => exact .nil
  | cons i l ih =>
    obtain ⟨hi, hl⟩ := List.forall_mem_cons.mp h
    rcases l with _ | ⟨j, l⟩
    · simpa [commaItems] using hi k
    · have hrest := (hi k).glue (ih (k := k + 1) hl) hglue hmark (by decide)
      have hplaces : ((i :: j :: l).zipIdx k).map is
          = is (i, k) :: ((j :: l).zipIdx (k + 1)).map is := rfl
      have hlength : k + (i :: j :: l).length = k + 1 + (j :: l).length := by
        rw [List.length_cons]
        omega
      rw [hplaces, commaItems_cons _ (by simp), hlength]
      simpa using hrest

/-- A list of texts without placeholders. -/
theorem plainList {ι : Type} {text : ι → List Char} {is : ι → List Item} {glue : List Char}
    (hglue : Separates glue [.symbol ',']) (hmark : '?' ∉ glue) {l : List ι}
    (h : ∀ i ∈ l, Writes type k (text i) (is i) k) :
    Writes type k (glue.intercalate (l.map text)) (commaItems (l.map is)) k := by
  induction l with
  | nil => exact .nil
  | cons i l ih =>
    obtain ⟨hi, hl⟩ := List.forall_mem_cons.mp h
    rcases l with _ | ⟨j, l⟩
    · simpa [commaItems] using hi
    · have hrest := hi.glue (ih hl) hglue hmark (by decide)
      have hcons : (i :: j :: l).map is = is i :: (j :: l).map is := rfl
      rw [hcons, commaItems_cons _ (by simp)]
      simpa using hrest

/-- Text of words. -/
theorem words {ws : List (List Char)} (h : Lexed type.quoting a (ws.map .word))
    (hmark : '?' ∉ a) : Writes type k a (ws.map fun w ↦ .token (.word w)) k := by
  have hplain : ∀ t ∈ ws.map Token.word, Plain t := by
    intro t ht
    obtain ⟨w, -, rfl⟩ := List.mem_map.mp ht
    exact ⟨by simp, by simp⟩
  simpa [Function.comp_def] using plain h hmark hplain

/-- A name. -/
theorem name {s : String} (h : IsName s) :
    Writes type k s.toList [.token (.word (nameChars s))] k :=
  have hmark : '?' ∉ s.toList := fun hmem ↦
    isWordChar_ne (List.all_eq_true.mp h.2 '?' hmem) (by decide) rfl
  have hlexed : Lexed type.quoting s.toList ([nameChars s].map .word) := h.lexed
  words hlexed hmark

/-- The statement that a text is. -/
theorem parseQuery_eq (h : Writes type 0 a is k') :
    parseQuery type.quoting type.grammar (placed type 0 a) = queryAt type.grammar.pairs is := by
  obtain ⟨-, ts, hts, his⟩ := h
  rw [parseQuery, hts.tokens_eq, Option.bind_some, his.items_eq]

end Writes

/-- The statement that a database reads a text as. -/
def Means (type : DBType) (statement : Option String) (query : Query) : Prop :=
  ∃ text, statement = some text ∧
    parseQuery type.quoting type.grammar text.toList = some query

/-- What a text means whose placeholders are converted. -/
theorem Writes.means {type : DBType} {s : String} {is : List Item} {k' : ℕ} {db : DB}
    (h : Writes type 0 s.toList is k') (hfew : k' < 2 ^ 31 - 1) (htype : db.type_ = type)
    {query : Query} (hquery : queryAt type.grammar.pairs is = some query) :
    Means type (db.convertParams s) query := by
  have hcount : s.toList.count '?' = k' := by simpa using h.count_eq
  refine ⟨_, convertParams_eq db (hcount ▸ hfew), ?_⟩
  rw [String.toList_ofList, htype, h.parseQuery_eq, hquery]

/-! ## Conditions on one field -/

/-- A field is equal to a parameter. -/
def equals (w : List Char) (k : ℕ) : Expression :=
  .binary (.compare .eq) (.column w) (.parameter k)

theorem derives_equals {w : List Char} (hw : IsIdentifier w) (k : ℕ) :
    Derives 4 [.token (.word w), .token (.symbol '='), .parameter k] (equals w k) := by
  have hcolumn : Derives 1 [.token (.word w)] (.column w) :=
    (Derives.word hw.wordExpression_eq).ascend
  have hparameter : Derives 1 [.parameter k] (.parameter k) := (Derives.parameter k).ascend
  have hcompare := Derives.binary (o := .compare .eq) hcolumn hparameter
  exact hcompare.mono (by decide)

/-- The tokens of a condition on one field. -/
theorem conditionAt_equals {w : List Char} (hw : IsIdentifier w) (k : ℕ) {rest : List Item}
    (hrest : Stops 4 rest) :
    conditionAt (.token (keyword "where") :: .token (.word w) :: .token (.symbol '=') ::
      .parameter k :: rest) = some (some (equals w k), rest) :=
  conditionAt_some (derives_equals hw k) hrest

theorem stops_limit (rest : List Item) : Stops 4 (.token (keyword "limit") :: rest) :=
  stops_word (by decide) (by decide) (by decide) 4 rest

theorem stops_where (rest : List Item) : Stops 4 (.token (keyword "where") :: rest) :=
  stops_word (by decide) (by decide) (by decide) 4 rest

/-! ## Names -/

/-- What is a word character in lower case is one. -/
theorem isWordChar_of_toLower {c : Char} (h : isWordChar c.toLower = true) :
    isWordChar c = true := by
  by_cases hupper : c.isUpper = true
  · have hletter : c.isAlphanum = ((c.isUpper || c.isLower) || c.isDigit) := rfl
    simp [isWordChar, hletter, hupper]
  · have hsame : c.toLower = c := by
      exact dif_neg fun hbounds ↦ hupper (decide_eq_true hbounds)
    rwa [hsame] at h

/-- A name can be told from its lower case. -/
theorem IsName.of_toLower {name : String} (h : IsName (OwSec.toLower name)) : IsName name := by
  obtain ⟨hne, hall⟩ := h
  rw [OwSec.toLower, String.toList_ofList, List.all_map, List.all_eq_true] at hall
  refine ⟨?_, List.all_eq_true.mpr fun c hc ↦ isWordChar_of_toLower (hall c hc)⟩
  rintro rfl
  exact hne rfl

/-- The columns of a table. -/
def columns (fields : List Field) : List (List Char) := fields.map fun i ↦ nameChars i.name

/-- A field that can be asked for. -/
structure Asks (fields : List Field) (fieldName : String) : Prop where
  name : IsName fieldName
  mem : nameChars fieldName ∈ columns fields
  identifier : IsIdentifier (nameChars fieldName)

/-- A table whose names are told from keywords and from each other. -/
structure Tabular (tableName : String) (fields : List Field) : Prop where
  table : IsName tableName
  identifier : IsIdentifier (nameChars tableName)
  ofField : ∀ i ∈ fields, IsName i.name
  identifiers : ∀ i ∈ fields, IsIdentifier (nameChars i.name)
  nonempty : fields ≠ []
  nodup : (columns fields).Nodup
  /-- There are numbers for the placeholders. -/
  few : fields.length + 1 < 2 ^ 31 - 1

namespace Tabular

variable {type : DBType} {tableName : String} {fields : List Field} {indexes : List Index} {db : DB}
  {k : ℕ}

theorem columns_nonempty (h : Tabular tableName fields) : columns fields ≠ [] := by
  simpa [columns] using h.nonempty

theorem columns_free (h : Tabular tableName fields) : ∀ w ∈ columns fields, w ∉ reserved := by
  rw [columns, List.forall_mem_map]
  exact fun i hi ↦ (h.identifiers i hi).1

/-- The list of the fields. -/
theorem writes_selectFields (h : Tabular tableName fields) :
    Writes type k (joined ", " (fields.map fun i ↦ OwSec.toLower i.name)).toList
      (commaItems ((columns fields).map fun w ↦ [.token (.word w)])) k := by
  rw [toList_joined, columns, List.map_map, List.map_map]
  refine Writes.plainList (by decide) (by decide) fun i hi ↦ ?_
  have hname : Writes type k (OwSec.toLower i.name).toList
      [.token (.word (nameChars (OwSec.toLower i.name)))] k := .name (h.ofField i hi).toLower
  rwa [nameChars_toLower] at hname

/-- A field that is compared with a parameter. -/
theorem writes_field {fieldName : String} (hname : IsName fieldName) :
    Writes type k (fieldName.toList ++ ['=', '?'])
      [.token (.word (nameChars fieldName)), .token (.symbol '='), .parameter k] (k + 1) := by
  have hsep : Separates ['='] [.symbol '='] := by decide
  have hleft : Writes type k fieldName.toList [.token (.word (nameChars fieldName))] k :=
    .name hname
  simpa using hleft.glue .placeholder hsep (by decide) (by decide)

/-! ## The texts of the statements -/

/-- A placeholder for each field. -/
theorem writes_placeholders :
    Writes type k (joined ", " (fields.map fun _ ↦ "?")).toList
      (commaItems (((columns fields).zipIdx k).map fun c ↦ [.parameter c.2]))
      (k + fields.length) := by
  have hitems : ((columns fields).zipIdx k).map (fun c ↦ [Item.parameter c.2])
      = (fields.zipIdx k).map fun c ↦ [.parameter c.2] := by
    rw [columns, List.zipIdx_map, List.map_map]
    rfl
  have htexts : (fields.map fun _ ↦ "?").map String.toList = fields.map fun _ ↦ ['?'] := by simp
  rw [toList_joined, htexts, hitems]
  exact Writes.list (by decide) (by decide) fun _ _ _ ↦ .placeholder

/-- Each field with a placeholder. -/
theorem writes_updateFields (h : Tabular tableName fields) :
    Writes type k (joined ", " (fields.map fun i ↦ OwSec.toLower i.name ++ "=?")).toList
      (commaItems (((columns fields).zipIdx k).map fun c ↦
        [.token (.word c.1), .token (.symbol '='), .parameter c.2])) (k + fields.length) := by
  have hitems : ((columns fields).zipIdx k).map
        (fun c ↦ [Item.token (.word c.1), .token (.symbol '='), .parameter c.2])
      = (fields.zipIdx k).map fun c ↦ [.token (.word (nameChars c.1.name)), .token (.symbol '='),
          .parameter c.2] := by
    rw [columns, List.zipIdx_map, List.map_map]
    rfl
  have htexts : (fields.map fun i ↦ OwSec.toLower i.name ++ "=?").map String.toList
      = fields.map fun i ↦ (OwSec.toLower i.name).toList ++ ['=', '?'] := by simp
  rw [toList_joined, htexts, hitems]
  refine Writes.list (by decide) (by decide) fun i hi k ↦ ?_
  have hname : Writes type k _ _ _ := writes_field (h.ofField i hi).toLower
  rwa [nameChars_toLower] at hname

/-- The statement of `CreateRecord`. -/
theorem writes_createRecord (h : Tabular tableName fields) :
    Writes type 0 ("insert into  " ++ tableName ++ " ( " ++
        joined ", " (fields.map fun i ↦ OwSec.toLower i.name) ++ " ) values " ++
          ("(" ++ joined ", " (fields.map fun _ ↦ "?") ++ ")")).toList
      (.token (keyword "insert") :: .token (keyword "into") ::
        .token (.word (nameChars tableName)) :: .token opening ::
          (commaItems ((columns fields).map fun w ↦ [.token (.word w)]) ++ .token closing ::
            .token (keyword "values") :: .token opening ::
              (commaItems (((columns fields).zipIdx 0).map fun c ↦ [.parameter c.2]) ++
                [.token closing]))) fields.length := by
  have hinto : Lexed type.quoting "insert into".toList
      (["insert".toList, "into".toList].map .word) :=
    .of_any (by cases type <;> decide) (by cases type <;> decide)
  have hvalues : Lexed type.quoting "values".toList (["values".toList].map .word) :=
    lexed_word (by decide) (by decide)
  have hblanks : Separates [' ', ' '] [] := by decide
  have hclose : Separates [' ', ')', ' '] [closing] := by decide
  have hopen : Separates [' ', '('] [opening] := by decide
  have htable : Writes type 0 _ _ 0 :=
    (Writes.words hinto (by decide)).glue (.name h.table) hblanks (by decide) (by decide)
  have hfields : Writes type 0 _ _ 0 :=
    htable.glue h.writes_selectFields separates_opening_blanks (by decide) (by decide)
  have hlist : Writes type 0 _ _ (0 + fields.length) :=
    (hfields.glue (.words hvalues (by decide)) hclose (by decide) (by decide)).glue
      writes_placeholders hopen (by decide) (by decide)
  have hall := hlist.glue .nil separates_closing (by decide) (by decide)
  simpa [keyword] using hall

/-- The statement of `GetRecord`. -/
theorem writes_getRecord (h : Tabular tableName fields) {fieldName : String}
    (hname : IsName fieldName) :
    Writes type 0 ("select " ++ joined ", " (fields.map fun i ↦ OwSec.toLower i.name) ++ " from " ++
        tableName ++ " where " ++ fieldName ++ "=?" ++ " limit 1").toList
      (.token (keyword "select") :: (commaItems ((columns fields).map fun w ↦ [.token (.word w)]) ++
        .token (keyword "from") :: .token (.word (nameChars tableName)) ::
          .token (keyword "where") :: .token (.word (nameChars fieldName)) ::
            .token (.symbol '=') :: .parameter 0 :: .token (keyword "limit") ::
              [.token (.word (Nat.toDigits 10 1))])) 1 := by
  have hselect : Lexed type.quoting "select".toList (["select".toList].map .word) :=
    lexed_word (by decide) (by decide)
  have hfrom : Lexed type.quoting "from".toList (["from".toList].map .word) :=
    lexed_word (by decide) (by decide)
  have hwhere : Lexed type.quoting "where".toList (["where".toList].map .word) :=
    lexed_word (by decide) (by decide)
  have hlimit : Lexed type.quoting "limit 1".toList (["limit".toList, ['1']].map .word) :=
    .of_any (by cases type <;> decide) (by cases type <;> decide)
  have hfields : Writes type 0 _ _ 0 := (Writes.words hselect (by decide)).glue h.writes_selectFields
    separates_blank (by decide) (by decide)
  have htable : Writes type 0 _ _ 0 :=
    (hfields.glue (.words hfrom (by decide)) separates_blank (by decide) (by decide)).glue
      (.name h.table) separates_blank (by decide) (by decide)
  have hcondition : Writes type 0 _ _ (0 + 1) :=
    (htable.glue (.words hwhere (by decide)) separates_blank (by decide) (by decide)).glue
      (writes_field hname) separates_blank (by decide) (by decide)
  have hall := hcondition.glue (.words hlimit (by decide)) separates_blank (by decide) (by decide)
  have hone : Nat.toDigits 10 1 = ['1'] := by decide
  simpa [keyword, hone] using hall

/-- The statement of `UpdateRecord`. -/
theorem writes_updateRecord (h : Tabular tableName fields) {fieldName : String}
    (hname : IsName fieldName) :
    Writes type 0 ("update " ++ tableName ++ " set " ++
        joined ", " (fields.map fun i ↦ OwSec.toLower i.name ++ "=?") ++ " where " ++ fieldName ++
          "=?").toList
      (.token (keyword "update") :: .token (.word (nameChars tableName)) ::
        .token (keyword "set") :: (commaItems (((columns fields).zipIdx 0).map fun c ↦
          [.token (.word c.1), .token (.symbol '='), .parameter c.2]) ++
            .token (keyword "where") :: .token (.word (nameChars fieldName)) ::
              .token (.symbol '=') :: [.parameter fields.length])) (fields.length + 1) := by
  have hupdate : Lexed type.quoting "update".toList (["update".toList].map .word) :=
    lexed_word (by decide) (by decide)
  have hset : Lexed type.quoting "set".toList (["set".toList].map .word) :=
    lexed_word (by decide) (by decide)
  have hwhere : Lexed type.quoting "where".toList (["where".toList].map .word) :=
    lexed_word (by decide) (by decide)
  have htable : Writes type 0 _ _ 0 := (Writes.words hupdate (by decide)).glue (.name h.table)
    separates_blank (by decide) (by decide)
  have hfields : Writes type 0 _ _ (0 + fields.length) :=
    (htable.glue (.words hset (by decide)) separates_blank (by decide) (by decide)).glue
      h.writes_updateFields separates_blank (by decide) (by decide)
  have hall := (hfields.glue (.words hwhere (by decide)) separates_blank (by decide)
    (by decide)).glue (writes_field hname) separates_blank (by decide) (by decide)
  simpa [keyword] using hall

/-- The statement of `DeleteRecord`. -/
theorem writes_deleteRecord (h : Tabular tableName fields) {fieldName : String}
    (hname : IsName fieldName) :
    Writes type 0 ("delete from " ++ tableName ++ " where " ++ fieldName ++ "=?").toList
      (.token (keyword "delete") :: .token (keyword "from") ::
        .token (.word (nameChars tableName)) :: .token (keyword "where") ::
          .token (.word (nameChars fieldName)) :: .token (.symbol '=') :: [.parameter 0]) 1 := by
  have hdelete : Lexed type.quoting "delete from".toList
      (["delete".toList, "from".toList].map .word) :=
    .of_any (by cases type <;> decide) (by cases type <;> decide)
  have hwhere : Lexed type.quoting "where".toList (["where".toList].map .word) :=
    lexed_word (by decide) (by decide)
  have htable : Writes type 0 _ _ 0 := (Writes.words hdelete (by decide)).glue (.name h.table)
    separates_blank (by decide) (by decide)
  have hall := (htable.glue (.words hwhere (by decide)) separates_blank (by decide)
    (by decide)).glue (writes_field hname) separates_blank (by decide) (by decide)
  simpa [keyword] using hall

/-! ## The statements -/

/-- A name that a field has as well, but for case. -/
theorem asks_of_mem (h : Tabular tableName fields) {i : Field} (hi : i ∈ fields)
    {fieldName : String} (hname : OwSec.toLower i.name = OwSec.toLower fieldName) :
    Asks fields fieldName := by
  have hlower : IsName (OwSec.toLower fieldName) := hname ▸ (h.ofField i hi).toLower
  have hchars : nameChars i.name = nameChars fieldName := by
    rw [← nameChars_toLower, hname, nameChars_toLower]
  exact ⟨hlower.of_toLower, List.mem_map.mpr ⟨i, hi, hchars⟩, hchars ▸ h.identifiers i hi⟩

/-- The assertion in front of the statements. -/
theorem asks (h : Tabular tableName fields)
    (hdb : DB.new type tableName fields indexes = some db) {fieldName : String}
    (hvalid : DB.validFieldName db.fieldNames_ fieldName = true) : Asks fields fieldName := by
  rw [fieldNames_of_new hdb, validFieldName_iff] at hvalid
  obtain ⟨i, hi, hname⟩ := hvalid
  exact h.asks_of_mem hi hname

/-- What `CreateRecord` issues. -/
theorem means_createRecord (h : Tabular tableName fields)
    (hdb : DB.new type tableName fields indexes = some db) :
    Means type db.createRecordStatement
      (.insert (nameChars tableName) (columns fields) (parameters (columns fields) 0)) := by
  obtain ⟨-, hdb⟩ := Option.ite_none_right_eq_some.mp hdb
  obtain rfl := Option.some.inj hdb
  have hempty : fields.isEmpty = false := by simpa using h.nonempty
  have hne : (columns fields).zipIdx 0 ≠ [] := by simpa using h.columns_nonempty
  have hfew := h.few
  simp only [DB.createRecordStatement, hempty, Bool.false_eq_true, if_false]
  exact h.writes_createRecord.means (by omega) rfl
    (queryAt_insert _ h.identifier.1 h.columns_nonempty h.columns_free hne fun c _ ↦
      (Derives.parameter c.2).mono (by decide))

/-- What `GetRecord` issues. -/
theorem means_getRecord (h : Tabular tableName fields)
    (hdb : DB.new type tableName fields indexes = some db) {fieldName : String}
    (hvalid : DB.validFieldName db.fieldNames_ fieldName = true) :
    Means type (db.getRecordByStatement fieldName)
      (.select (columns fields) (nameChars tableName) (some (equals (nameChars fieldName) 0)) []
        (some ⟨0, 1⟩)) := by
  have hasks := h.asks hdb hvalid
  obtain ⟨-, hdb⟩ := Option.ite_none_right_eq_some.mp hdb
  obtain rfl := Option.some.inj hdb
  rw [DB.getRecordByStatement, if_pos hvalid]
  exact (h.writes_getRecord hasks.name).means (by omega) rfl
    (queryAt_select _ h.identifier.1 h.columns_nonempty h.columns_free
      (conditionAt_equals hasks.identifier 0 (stops_limit _))
      (orderAt_none (skip_of_ne (by decide) _)) (rangeAt_limit _ 1))

/-- What `UpdateRecord` issues. -/
theorem means_updateRecord (h : Tabular tableName fields)
    (hdb : DB.new type tableName fields indexes = some db) {fieldName : String}
    (hvalid : DB.validFieldName db.fieldNames_ fieldName = true) :
    Means type (db.updateRecordStatement fieldName)
      (.update (nameChars tableName) (settings (columns fields) 0)
        (some (equals (nameChars fieldName) fields.length))) := by
  have hasks := h.asks hdb hvalid
  obtain ⟨-, hdb⟩ := Option.ite_none_right_eq_some.mp hdb
  obtain rfl := Option.some.inj hdb
  have hne : (columns fields).zipIdx 0 ≠ [] := by simpa using h.columns_nonempty
  have hnames : ∀ c ∈ (columns fields).zipIdx 0, c.1 ∉ reserved := fun c hc ↦
    h.columns_free c.1 (List.fst_mem_of_mem_zipIdx hc)
  rw [DB.updateRecordStatement, if_pos hvalid]
  exact (h.writes_updateRecord hasks.name).means h.few rfl
    (queryAt_update _ h.identifier.1 hne hnames (fun c _ ↦ (Derives.parameter c.2).mono (by decide))
      (stops_where _) (skip_of_ne (by decide) _)
      (conditionAt_equals hasks.identifier fields.length (stops_nil 4)))

/-- What `DeleteRecord` issues. -/
theorem means_deleteRecord (h : Tabular tableName fields)
    (hdb : DB.new type tableName fields indexes = some db) {fieldName : String}
    (hvalid : DB.validFieldName db.fieldNames_ fieldName = true) :
    Means type (db.deleteRecordStatement fieldName)
      (.delete (nameChars tableName) (some (equals (nameChars fieldName) 0))) := by
  have hasks := h.asks hdb hvalid
  obtain ⟨-, hdb⟩ := Option.ite_none_right_eq_some.mp hdb
  obtain rfl := Option.some.inj hdb
  rw [DB.deleteRecordStatement, if_pos hvalid]
  exact (h.writes_deleteRecord hasks.name).means (by omega) rfl
    (queryAt_delete _ h.identifier.1 (conditionAt_equals hasks.identifier 0 (stops_nil 4)))

end Tabular

end OwSec.ORM
