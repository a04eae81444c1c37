import Mathlib.Data.List.Lex
import Mathlib.Data.List.Perm.Subperm
import OwSec.Framework.ORMRefinement
import OwSec.Kit.Pages

/-!
# Selections

`GetRecords`, `Count` and `DeleteRecords` of `framework/orm.h`: a condition is put into the text of
the statement, and so are an order and the numbers of a page.

`Where` says what a text means as a condition, and `Ordering` which entries a text orders by.  A
statement with such texts is read as it is meant on every database, although the databases do not
agree on how a page is written.

A database need not read the rows in the same order for each statement.  A statement over rows in
another order is the same statement over another list of records.
-/

namespace OwSec.ORM

open Kit Sql

/-! ## Texts without placeholders -/

/-- The tokens of a text without placeholders. -/
structure Spells (type : DBType) (a : List Char) (ts : List Token) : Prop where
  lexed : Lexed type.quoting a ts
  plain : ∀ t ∈ ts, Plain t

namespace Spells

variable {type : DBType} {a b : List Char} {ts us : List Token}

theorem nil : Spells type [] [] := ⟨.nil, by simp⟩

/-- Text of words. -/
theorem words (ws : List (List Char)) (h : Lexed type.quoting a (ws.map .word)) :
    Spells type a (ws.map .word) := by
  refine ⟨h, fun t ht ↦ ?_⟩
  obtain ⟨w, -, rfl⟩ := List.mem_map.mp ht
  exact ⟨by simp, by simp⟩

/-- A word. -/
theorem word {w : List Char} (hne : w ≠ []) (hword : w.all isWordChar = true) :
    Spells type w [.word (w.map Char.toLower)] :=
  words [w.map Char.toLower] (lexed_word hne hword)

/-- A name. -/
theorem name {s : String} (h : IsName s) : Spells type s.toList [.word (nameChars s)] := by
  have hlexed : Lexed type.quoting s.toList ([nameChars s].map .word) := h.lexed
  exact words _ hlexed

/-- Digits. -/
theorem digits (n : ℕ) : Spells type (Nat.toDigits 10 n) [.word (Nat.toDigits 10 n)] := by
  have hlexed : Lexed type.quoting (Nat.toDigits 10 n) [closeWord (Nat.toDigits 10 n)] :=
    lexed_digits n
  rw [closeWord_toDigits] at hlexed
  exact words [Nat.toDigits 10 n] hlexed

/-- Two texts with delimiters between them. -/
theorem glue (ha : Spells type a ts) (hb : Spells type b us) {glue : List Char} {gs : List Token}
    (hglue : Separates glue gs) (hgs : ∀ t ∈ gs, Plain t) :
    Spells type (a ++ glue ++ b) (ts ++ gs ++ us) where
  lexed := ha.lexed.glue hb.lexed hglue
  plain := by
    rw [List.forall_mem_append, List.forall_mem_append]
    exact ⟨⟨ha.plain, hgs⟩, hb.plain⟩

/-- Two texts with a blank between them. -/
theorem blank (ha : Spells type a ts) (hb : Spells type b us) :
    Spells type (a ++ ' ' :: b) (ts ++ us) := by
  simpa using ha.glue hb separates_blank (by simp)

/-- Texts with commas between them. -/
theorem list {ι : Type} {text : ι → String} {ts : ι → List Token} (glue : String)
    (hglue : Separates glue.toList [.symbol ',']) {l : List ι}
    (h : ∀ i ∈ l, Spells type (text i).toList (ts i)) :
    Spells type (joined glue (l.map text)).toList (commas (l.map ts)) := by
  refine ⟨lexed_joined hglue fun i hi ↦ (h i hi).lexed, ?_⟩
  induction l with
  | nil => simp [commas]
  | cons i l ih =>
    obtain ⟨hi, hl⟩ := List.forall_mem_cons.mp h
    rcases l with _ | ⟨j, l⟩
    · simpa [commas] using hi.plain
    · have hcons : commas ((i :: j :: l).map ts)
          = ts i ++ .symbol ',' :: commas ((j :: l).map ts) := by simp [commas]
      rw [hcons, List.forall_mem_append, List.forall_mem_cons]
      exact ⟨hi.plain, by decide, ih hl⟩

/-- The statement that a text is. -/
theorem parseQuery_eq (h : Spells type a ts) :
    parseQuery type.quoting type.grammar a = queryAt type.grammar.pairs (ts.map .token) := by
  have hitems : Itemized type.grammar.placeholders 0 ts (ts.map .token) 0 := .tokens h.plain
  rw [parseQuery, h.lexed.tokens_eq, Option.bind_some, hitems.items_eq]

end Spells

theorem map_commas {ι : Type} (ts : ι → List Token) (l : List ι) :
    (commas (l.map ts)).map Item.token = commaItems (l.map fun i ↦ (ts i).map .token) := by
  induction l with
  | nil => rfl
  | cons i l ih =>
    rcases l with _ | ⟨j, l⟩
    · simp [commas, commaItems]
    · have hcons : commas ((i :: j :: l).map ts)
          = ts i ++ .symbol ',' :: commas ((j :: l).map ts) := by simp [commas]
      have hitems : commaItems ((i :: j :: l).map fun i ↦ (ts i).map .token)
          = (ts i).map .token ++ .token (.symbol ',') ::
              commaItems ((j :: l).map fun i ↦ (ts i).map .token) :=
        commaItems_cons _ (List.cons_ne_nil _ _)
      rw [hcons, List.map_append, List.map_cons, ih, hitems]

/-! ## Conditions -/

/-- A text that a database reads as an expression. -/
def IsExpression (type : DBType) (text : String) (e : Expression) : Prop :=
  ∃ ts, Spells type text.toList ts ∧ Derives 4 (ts.map .token) e

theorem IsExpression.isEmpty_eq {type : DBType} {text : String} {e : Expression}
    (h : IsExpression type text e) : text.isEmpty = false := by
  obtain ⟨ts, hts, he⟩ := h
  rw [Bool.eq_false_iff, ne_eq, String.isEmpty_iff]
  rintro rfl
  have hnil : some ts = some [] := by rw [← hts.lexed.tokens_eq]; rfl
  have hpos := he.length_pos
  rw [Option.some.inj hnil] at hpos
  cases hpos

/-! ## Parts of conditions -/

section Parts

variable {type : DBType}

/-- A comparison. -/
theorem derives_compare (c : Comparator) {ls rs : List Item} {l r : Expression}
    (hl : Derives 1 ls l) (hr : Derives 1 rs r) :
    Derives 2 (ls ++ c.tokens.map Item.token ++ rs) (.binary (.compare c) l r) :=
  .binary (o := .compare c) hl hr

/-- A column. -/
theorem derives_column {w : List Char} (hw : IsIdentifier w) :
    Derives 1 [.token (.word w)] (.column w) := (Derives.word hw.wordExpression_eq).ascend

/-- A text. -/
theorem derives_text (t : List Char) :
    Derives 1 [.token (.literal t)] (.value (.text (String.ofList t))) := (Derives.text t).ascend

/-- A number. -/
theorem derives_number (n : ℕ) :
    Derives 1 [.token (.word (Nat.toDigits 10 n))] (.value (.int n)) := by
  have hword : wordExpression (Nat.toDigits 10 n) = some (.value (.int n)) := by
    have htrue : Nat.toDigits 10 n ≠ "true".toList := fun heq ↦ by
      have hnumeral := numeral_toDigits n
      rw [heq] at hnumeral
      cases hnumeral
    have hfalse : Nat.toDigits 10 n ≠ "false".toList := fun heq ↦ by
      have hnumeral := numeral_toDigits n
      rw [heq] at hnumeral
      cases hnumeral
    rw [wordExpression, if_neg htrue, if_neg hfalse, numeral_toDigits]
  exact (Derives.word hword).ascend

/-- Text that ends with a number. -/
theorem spells_number {front : String} {ts : List Token} (hfront : Spells type front.toList ts)
    (n : ℕ) : Spells type (front ++ " " ++ toString n).toList (ts ++ [.word (Nat.toDigits 10 n)]) := by
  simpa using hfront.blank (.digits n)

/-- Text that ends with a value between quotes. -/
theorem spells_value {front : String} {ts : List Token} (hfront : Spells type front.toList ts)
    (hquote : quote ∉ front.toList) (hne : front ≠ "") {v : String} (hv : quote ∉ v.toList)
    (hkeeps : type.quoting.Keeps v.toList) (hts : ∀ t ∈ ts, ∀ u, t ≠ .literal u) :
    Spells type (front ++ "'" ++ v ++ "'").toList (ts ++ [.literal v.toList]) := by
  have hembeds := Embeds.literal hfront.lexed hquote (by simpa using hne) v.toList
  have htext : (front ++ "'" ++ v ++ "'").toList = front.toList ++ quoted v.toList := by
    simp [quoted, escape_of_notMem hv, quote]
  refine ⟨htext ▸ hembeds.lexed fun u hu ↦ ?_, ?_⟩
  · rcases List.mem_append.mp hu with hu | hu
    · exact absurd rfl (hts _ hu u)
    · rw [Token.literal.inj (List.mem_singleton.mp hu)]
      exact hkeeps
  · rw [List.forall_mem_append, List.forall_mem_singleton]
    exact ⟨hfront.plain, by simp [Plain]⟩

/-- A blank behind an expression. -/
theorem IsExpression.blank {text : String} {e : Expression} (h : IsExpression type text e) :
    IsExpression type (text ++ " ") e := by
  obtain ⟨ts, hts, he⟩ := h
  exact ⟨ts, by simpa using hts.blank .nil, he⟩

/-- A comparison with a number. -/
theorem isExpression_number {front spaced : String} (hspaced : spaced = front ++ " ")
    {ts : List Token} (c : Comparator) (hfront : Spells type front.toList (ts ++ c.tokens))
    {l : Expression} (hl : Derives 1 (ts.map .token) l) (n : ℕ) :
    IsExpression type (spaced ++ toString n) (.binary (.compare c) l (.value (.int n))) := by
  subst hspaced
  refine ⟨_, spells_number hfront n, ?_⟩
  have hderives := (derives_compare c hl (derives_number n)).mono (show 2 ≤ 4 by decide)
  simpa using hderives

/-- A comparison with a value between quotes. -/
theorem isExpression_value {front opened : String} (hopened : opened = front ++ "'")
    {w : List Char} (hfront : Spells type front.toList [.word w, .symbol '='])
    (hquote : quote ∉ front.toList) (hne : front ≠ "") (hw : IsIdentifier w) {v : String}
    (hv : quote ∉ v.toList) (hkeeps : type.quoting.Keeps v.toList) :
    IsExpression type (opened ++ v ++ "' ")
      (.binary (.compare .eq) (.column w) (.value (.text v))) := by
  subst hopened
  have hderives := (derives_compare .eq (derives_column hw) (derives_text v.toList)).mono
    (show 2 ≤ 4 by decide)
  rw [String.ofList_toList] at hderives
  have hvalue : IsExpression type (front ++ "'" ++ v ++ "'") _ :=
    ⟨_, spells_value hfront hquote hne hv hkeeps (by simp), hderives⟩
  have hend : "' " = "'" ++ " " := by decide
  rw [hend, ← String.append_assoc]
  exact hvalue.blank

end Parts

/-! ## Conditions in statements -/

/-- What a text means as a condition: the empty text is none. -/
inductive Where (type : DBType) : String → Option Expression → Prop
  | empty : Where type "" none
  | expression {text : String} {e : Expression} (h : IsExpression type text e) :
      Where type text (some e)

/-- What stands behind a condition. -/
def EndsCondition (rest : List Item) : Prop :=
  Stops 4 rest ∧ skip (keyword "where") rest = none

/-- A condition in a statement, behind other text. -/
theorem Where.exists_tokens {type : DBType} {text : String} {condition : Option Expression}
    (h : Where type text condition) {front : List Char} {ts : List Token}
    (hfront : Spells type front ts) :
    ∃ ws, Spells type (front ++ (if text.isEmpty then "" else " where " ++ text).toList) (ts ++ ws) ∧
      ∀ rest, EndsCondition rest →
        conditionAt (ws.map .token ++ rest) = some (condition, rest) := by
  cases h with
  | empty => exact ⟨[], by simpa using hfront, fun rest hrest ↦ conditionAt_none hrest.2⟩
  | expression h =>
    have hempty := h.isEmpty_eq
    obtain ⟨us, hus, he⟩ := h
    have hwhere : Spells type "where".toList [keyword "where"] := .word (by decide) (by decide)
    refine ⟨keyword "where" :: us, ?_, fun rest hrest ↦ conditionAt_some he hrest.1⟩
    rw [hempty]
    simpa using (hfront.blank hwhere).blank hus

/-! ## Orders -/

/-- What is ordered by. -/
def OrderEntry.entry (e : OrderEntry) : Entry := ⟨nameChars e.column, e.direction.direction⟩

/-- A text that orders by fields of a table; the empty text by none. -/
inductive Ordering (fields : List Field) : String → List OrderEntry → Prop
  | unordered : Ordering fields "" []
  | ordered {entries : List OrderEntry} (hne : entries ≠ [])
      (hasked : ∀ e ∈ entries, ∃ item, e.AskedBy fields item) :
      Ordering fields (" ORDER BY " ++ joined " , " (entries.map OrderEntry.sql)) entries

/-- The entries of an order are asked for. -/
theorem forall_asked {fields : List Field} {items : List String} {entries : List OrderEntry}
    (h : List.Forall₂ (fun item e ↦ e.AskedBy fields item) items entries) :
    ∀ e ∈ entries, ∃ item, e.AskedBy fields item := by
  induction h with
  | nil => simp
  | cons he _ ih => exact List.forall_mem_cons.mpr ⟨⟨_, he⟩, ih⟩

/-- What stands behind an order. -/
def EndsOrder (rest : List Item) : Prop :=
  EndsCondition rest ∧ skip (keyword "order") rest = none ∧ skip (.symbol ',') rest = none

/-- An order in a statement, behind other text. -/
theorem Ordering.exists_tokens {tableName : String} {fields : List Field} {orderBy : String}
    {entries : List OrderEntry} (h : Ordering fields orderBy entries)
    (htable : Tabular tableName fields) {type : DBType} {front : List Char} {ts : List Token}
    (hfront : Spells type front ts) :
    ∃ os, Spells type (front ++ orderBy.toList) (ts ++ os) ∧
      ∀ rest, EndsOrder rest → EndsCondition (os.map .token ++ rest) ∧
        orderAt (os.map .token ++ rest) = some (entries.map OrderEntry.entry, rest) := by
  cases h with
  | unordered =>
    exact ⟨[], by simpa using hfront, fun rest hrest ↦ ⟨hrest.1, orderAt_none hrest.2.1⟩⟩
  | ordered hne hasked =>
    have hfield {e : OrderEntry} (he : e ∈ entries) : Asks fields e.column := by
      obtain ⟨item, hitem⟩ := hasked e he
      obtain ⟨i, hi, hname⟩ := hitem.field
      exact htable.asks_of_mem hi hname
    have hentry : ∀ e ∈ entries, Spells type e.sql.toList e.entry.tokens := by
      intro e he
      obtain ⟨column, direction⟩ := e
      have hname : Spells type column.toList [.word (nameChars column)] := .name (hfield he).name
      cases direction with
      | asc =>
        have hasc : Spells type "ASC".toList [keyword "asc"] := .word (by decide) (by decide)
        simpa [OrderEntry.sql, OrderEntry.entry, Entry.tokens, Indextype.direction,
          Direction.token] using hname.blank hasc
      | desc =>
        have hdesc : Spells type "DESC".toList [keyword "desc"] := .word (by decide) (by decide)
        simpa [OrderEntry.sql, OrderEntry.entry, Entry.tokens, Indextype.direction,
          Direction.token] using hname.blank hdesc
    have horder : Spells type "ORDER".toList [keyword "order"] := .word (by decide) (by decide)
    have hby : Spells type "BY".toList [keyword "by"] := .word (by decide) (by decide)
    have hlist : Spells type _ _ := .list " , " (by decide) hentry
    have htext := ((hfront.blank horder).blank hby).blank hlist
    refine ⟨keyword "order" :: keyword "by" :: commas (entries.map fun e ↦ e.entry.tokens), ?_, ?_⟩
    · simpa using htext
    · intro rest hrest
      refine ⟨⟨stops_word (by decide) (by decide) (by decide) 4 _, skip_of_ne (by decide) _⟩, ?_⟩
      have hfree : ∀ e ∈ entries.map OrderEntry.entry, e.column ∉ reserved := by
        rw [List.forall_mem_map]
        exact fun e he ↦ (hfield he).identifier.1
      have horderAt := orderAt_some (by simpa using hne) hfree hrest.2.2
      rw [List.map_map] at horderAt
      rw [List.map_cons, List.map_cons, map_commas]
      exact horderAt

/-! ## Pages -/

/-- The range of a page in a statement, behind other text. -/
theorem exists_tokens_range {type : DBType} {db : DB} (htype : db.type_ = type)
    (offset howMany : ℕ) {front : List Char} {ts : List Token} (hfront : Spells type front ts) :
    ∃ rs, Spells type (front ++ (db.computeRange offset howMany).toList) (ts ++ rs) ∧
      EndsOrder (rs.map .token) ∧
        rangeAt type.grammar.pairs (rs.map .token) = some (some ⟨offset, howMany⟩, []) := by
  have hlimit : Spells type "LIMIT".toList [keyword "limit"] := .word (by decide) (by decide)
  have hoffset : Spells type "OFFSET".toList [keyword "offset"] := .word (by decide) (by decide)
  have hends (rest : List Item) : EndsOrder (.token (keyword "limit") :: rest) :=
    ⟨⟨stops_limit rest, skip_of_ne (by decide) rest⟩, skip_of_ne (by decide) rest,
      skip_of_ne (by decide) rest⟩
  have hword := hfront.blank hlimit
  have hnumbers := ((((hword.blank (.digits howMany)).blank hoffset).blank
    (.digits offset)).blank .nil)
  unfold DB.computeRange
  rw [htype]
  cases type with
  | sqlite =>
    have hcomma : Separates [',', ' '] [.symbol ','] := by decide
    have hpair := (((hword.blank (.digits offset)).glue (.digits howMany) hcomma
      (by decide)).blank .nil)
    refine ⟨[keyword "limit", .word (Nat.toDigits 10 offset), .symbol ',',
      .word (Nat.toDigits 10 howMany)], ?_, hends _, rangeAt_pair howMany offset⟩
    simpa using hpair
  | pgsql =>
    refine ⟨[keyword "limit", .word (Nat.toDigits 10 howMany), keyword "offset",
      .word (Nat.toDigits 10 offset)], ?_, hends _, rangeAt_offset _ howMany offset⟩
    simpa using hnumbers
  | mysql =>
    refine ⟨[keyword "limit", .word (Nat.toDigits 10 howMany), keyword "offset",
      .word (Nat.toDigits 10 offset)], ?_, hends _, rangeAt_offset _ howMany offset⟩
    simpa using hnumbers

/-! ## The statements -/

section Statements

variable {type : DBType} {tableName : String} {fields : List Field} {indexes : List Index} {db : DB}
  {text orderBy : String} {condition : Option Expression} {entries : List OrderEntry}

theorem endsCondition_nil : EndsCondition [] := ⟨stops_nil 4, skip_nil _⟩

/-- The fields of a table. -/
theorem Tabular.spells_selectFields (h : Tabular tableName fields) :
    Spells type (joined ", " (fields.map fun i ↦ OwSec.toLower i.name)).toList
      (commas ((columns fields).map fun w ↦ [.word w])) := by
  rw [columns, List.map_map]
  refine .list _ (by decide) fun i hi ↦ ?_
  have hname : Spells type (OwSec.toLower i.name).toList
      [.word (nameChars (OwSec.toLower i.name))] := .name (h.ofField i hi).toLower
  rwa [nameChars_toLower] at hname

/-- What `GetRecords` issues. -/
theorem Tabular.means_getRecords (h : Tabular tableName fields)
    (hdb : DB.new type tableName fields indexes = some db) (hwhere : Where type text condition)
    (horder : Ordering fields orderBy entries) (offset howMany : ℕ) :
    Means type (some (db.getRecordsStatement offset howMany text orderBy))
      (.select (columns fields) (nameChars tableName) condition (entries.map OrderEntry.entry)
        (some ⟨offset, howMany⟩)) := by
  have htype := type_of_new hdb
  obtain ⟨-, hdb⟩ := Option.ite_none_right_eq_some.mp hdb
  obtain rfl := Option.some.inj hdb
  have hselect : Spells type "select".toList [keyword "select"] := .word (by decide) (by decide)
  have hfrom : Spells type "from".toList [keyword "from"] := .word (by decide) (by decide)
  have hfront := ((hselect.blank h.spells_selectFields).blank hfrom).blank (.name h.table)
  obtain ⟨ws, hws, hcondition⟩ := hwhere.exists_tokens hfront
  obtain ⟨os, hos, hentries⟩ := horder.exists_tokens h hws
  obtain ⟨rs, hrs, hends, hrange⟩ := exists_tokens_range htype offset howMany hos
  obtain ⟨hendsCondition, horderAt⟩ := hentries _ hends
  have hquery := queryAt_select type.grammar.pairs h.identifier.1 h.columns_nonempty h.columns_free
    (hcondition _ hendsCondition) horderAt hrange
  have hcolumns : (commas ((columns fields).map fun w ↦ [.word w])).map Item.token
      = commaItems ((columns fields).map fun w ↦ [.token (.word w)]) := map_commas _ _
  have hparse := hrs.parseQuery_eq
  refine ⟨_, rfl, ?_⟩
  rw [← hquery, ← hcolumns]
  simpa [DB.getRecordsStatement] using hparse

/-- What `Count` issues. -/
theorem Tabular.means_count (h : Tabular tableName fields)
    (hdb : DB.new type tableName fields indexes = some db) (hwhere : Where type text condition) :
    Means type (some (db.countStatement text)) (.count (nameChars tableName) condition) := by
  obtain ⟨-, hdb⟩ := Option.ite_none_right_eq_some.mp hdb
  obtain rfl := Option.some.inj hdb
  have hselect : Lexed type.quoting "SELECT COUNT(*) FROM".toList
      [keyword "select", keyword "count", opening, .symbol '*', closing, keyword "from"] :=
    .of_any (by cases type <;> decide) (by cases type <;> decide)
  have hplain : ∀ t ∈ [keyword "select", keyword "count", opening, .symbol '*', closing,
      keyword "from"], Plain t := by decide
  have hspells : Spells type "SELECT COUNT(*) FROM".toList _ := ⟨hselect, hplain⟩
  have hfront := (hspells.blank (.name h.table)).blank .nil
  obtain ⟨ws, hws, hcondition⟩ := hwhere.exists_tokens hfront
  have hquery := queryAt_count type.grammar.pairs h.identifier.1
    (hcondition _ endsCondition_nil)
  have hparse := hws.parseQuery_eq
  refine ⟨_, rfl, ?_⟩
  unfold DB.countStatement
  rw [← hquery]
  simpa using hparse

/-- What `DeleteRecords` issues. -/
theorem Tabular.means_deleteRecords (h : Tabular tableName fields)
    (hdb : DB.new type tableName fields indexes = some db) {e : Expression}
    (hwhere : IsExpression type text e) :
    Means type (db.deleteRecordsStatement text) (.delete (nameChars tableName) (some e)) := by
  obtain ⟨-, hdb⟩ := Option.ite_none_right_eq_some.mp hdb
  obtain rfl := Option.some.inj hdb
  have hempty := hwhere.isEmpty_eq
  have hdelete : Spells type "delete".toList [keyword "delete"] := .word (by decide) (by decide)
  have hfrom : Spells type "from".toList [keyword "from"] := .word (by decide) (by decide)
  have hfront := (hdelete.blank hfrom).blank (.name h.table)
  obtain ⟨ws, hws, hcondition⟩ := (Where.expression hwhere).exists_tokens hfront
  have hquery := queryAt_delete type.grammar.pairs h.identifier.1
    (hcondition _ endsCondition_nil)
  rw [DB.deleteRecordsStatement, hempty, if_neg Bool.false_ne_true]
  have hparse := hws.parseQuery_eq
  refine ⟨_, rfl, ?_⟩
  rw [← hquery]
  simpa [hempty] using hparse

end Statements

/-! ## The records of a selection -/

section Functions

variable {fields : List Field} {ρ : Type} (E : Engine) (c : RecordTuple fields ρ) (db : DB)

/-- The loop of `GetRecords`: whether it comes to its end, and the records. -/
def RecordTuple.convertAll : List (List Value) → Bool × List ρ
  | [] => (true, [])
  | row :: rows =>
    match c.ofTuple row with
    | some r => ((convertAll rows).1, r :: (convertAll rows).2)
    | none => (false, [])

/-- `GetRecords`: whether rows were extracted, and the records. -/
def DB.getRecords (offset howMany : ℕ) (whereClause orderBy : String) (R : Extent) :
    Bool × List ρ :=
  match db.execute E (some (db.getRecordsStatement offset howMany whereClause orderBy)) [] R with
  | some (.rows (row :: rows), _) => c.convertAll (row :: rows)
  | _ => (false, [])

/-- `Count`: after an exception it is zero. -/
def DB.count (whereClause : String) (R : Extent) : ℕ :=
  match db.execute E (some (db.countStatement whereClause)) [] R with
  | some (.count n, _) => n
  | _ => 0

/-- `DeleteRecords`. -/
def DB.deleteRecords (whereClause : String) (R : Extent) : Bool × Extent :=
  db.change E (db.deleteRecordsStatement whereClause) [] R

/-- Whether a condition holds of a record. -/
def RecordTuple.satisfies (condition : Option Expression) (r : ρ) : Option Bool :=
  match condition with
  | some e => e.holds E [] fun w ↦ c.column w r
  | none => some true

/-- A text selects the records of which `p` is true. -/
def Selects (type : DBType) (text : String) (rs : List ρ) (p : ρ → Bool) : Prop :=
  ∃ condition, Where type text condition ∧ ∀ r ∈ rs, c.satisfies E condition r = some (p r)

/-- Whether a record may stand before another one. -/
def RecordTuple.before (entries : List OrderEntry) (r r' : ρ) : Bool :=
  E.before (columns fields) (entries.map OrderEntry.entry) (c.toTuple r) (c.toTuple r')

/-- Which of two records stands first is said by the entries. -/
def RecordTuple.TellsApart (entries : List OrderEntry) (rs : List ρ) : Prop :=
  ∀ r ∈ rs, ∀ r' ∈ rs, c.before E entries r r' = true → c.before E entries r' r = true → r = r'

/-- The records that are selected, in their order. -/
def RecordTuple.ordered (entries : List OrderEntry) (p : ρ → Bool) (rs : List ρ) : List ρ :=
  (rs.filter p).mergeSort (c.before E entries)

end Functions

/-! ## A concrete engine -/

/-- The numbers by which the values of a kind are ordered. -/
def code : Value → List ℤ
  | .int n => [n]
  | .text s => s.toList.map fun c ↦ c.toNat
  | .bool b => [if b then 1 else 0]
  | .blob bytes => bytes.map fun b ↦ b.toNat

/-- Values of one kind have different numbers. -/
theorem code_inj {v w : Value} (hkind : v.kind = w.kind) (h : code v = code w) : v = w := by
  cases v <;> cases w <;> try cases hkind
  case int.int m n => exact congrArg Value.int (List.singleton_inj.mp h)
  case text.text s t =>
    have hinjective : Function.Injective fun c : Char ↦ (c.toNat : ℤ) := fun c d hcd ↦
      Char.toNat_inj.mp (Int.ofNat_inj.mp hcd)
    exact congrArg Value.text (String.toList_inj.mp (List.map_injective_iff.mpr hinjective h))
  case bool.bool a b => cases a <;> cases b <;> first | rfl | cases h
  case blob.blob a b =>
    have hinjective : Function.Injective fun b : UInt8 ↦ (b.toNat : ℤ) := fun b c hbc ↦
      UInt8.toNat_inj.mp (Int.ofNat_inj.mp hbc)
    exact congrArg Value.blob (List.map_injective_iff.mpr hinjective h)

/-- An engine that orders values by their numbers, with functions on texts. -/
def sampleEngine (d : Dialect) : Engine where
  compare
    | .eq, v, w => some (decide (v = w))
    | .lt, v, w => some (decide (code v < code w))
    | .gt, v, w => some (decide (code w < code v))
    | .le, v, w => some (decide (code v ≤ code w))
    | .like, .text s, .text t => some (d.like s t)
    | _, _, _ => none
  call
    | function, .text s => if function = "lower".toList then some (.text (d.lower s)) else none
    | _, _ => none

theorem ordered_sampleEngine (d : Dialect) : (sampleEngine d).Ordered where
  eq _ := rfl
  gt _ := rfl
  total hkind hne := by
    simpa [sampleEngine] using lt_or_gt_of_ne (mt (code_inj hkind) hne)
  asymm _ hlt := by
    simp only [sampleEngine, Option.some.injEq, decide_eq_true_eq, ne_eq] at hlt ⊢
    exact lt_asymm hlt
  trans _ _ hlt hlt' := by
    simp only [sampleEngine, Option.some.injEq, decide_eq_true_eq] at hlt hlt' ⊢
    exact lt_trans hlt hlt'

section Selections

variable {type : DBType} {tableName : String} {fields : List Field} {indexes : List Index} {db : DB}
  {text orderBy : String} {entries : List OrderEntry} {ρ : Type} {E : Engine}
  {c : RecordTuple fields ρ} {rs : List ρ} {p : ρ → Bool}

/-- Without an order the records stay as they are stored. -/
theorem RecordTuple.ordered_nil (p : ρ → Bool) (rs : List ρ) :
    c.ordered E [] p rs = rs.filter p :=
  List.mergeSort_of_pairwise (List.pairwise_of_forall fun _ _ ↦ rfl)

/-- Kept records are converted. -/
theorem RecordTuple.convertAll_eq (h : ∀ r ∈ rs, c.Kept r) :
    c.convertAll (rs.map c.toTuple) = (true, rs) := by
  induction rs with
  | nil => rfl
  | cons r rs ih =>
    obtain ⟨hr, hrs⟩ := List.forall_mem_cons.mp h
    rw [List.map_cons, convertAll, c.ofTuple_toTuple r hr, ih hrs]

/-- What is true of the records is true of the rows. -/
theorem Selects.exists_rows (h : Selects E c type text rs p) (tableName : String) :
    ∃ (condition : Option Expression) (q : List Value → Bool), Where type text condition ∧
      (∀ row ∈ (stored tableName c rs).rows,
        (stored tableName c rs).satisfies E [] condition row = some (q row)) ∧
      ∀ r ∈ rs, q (c.toTuple r) = p r := by
  obtain ⟨condition, hwhere, hall⟩ := h
  have hsatisfies (r : ρ) : (stored tableName c rs).satisfies E [] condition (c.toTuple r)
      = c.satisfies E condition r := by cases condition <;> rfl
  refine ⟨condition, fun row ↦ ((stored tableName c rs).satisfies E [] condition row).getD false,
    hwhere, ?_, fun r hr ↦ ?_⟩
  · rw [stored, extent, List.forall_mem_map]
    intro r hr
    have hr : (stored tableName c rs).satisfies E [] condition (c.toTuple r) = some (p r) :=
      (hsatisfies r).trans (hall r hr)
    exact hr.trans (congrArg some (congrArg (Option.getD · false) hr).symm)
  · change ((stored tableName c rs).satisfies E [] condition (c.toTuple r)).getD false = p r
    rw [hsatisfies, hall r hr, Option.getD_some]

/-- The rows that are selected are the rows of the records. -/
theorem filter_rows {q : List Value → Bool} (h : ∀ r ∈ rs, q (c.toTuple r) = p r) :
    (stored tableName c rs).rows.filter q = (rs.filter p).map c.toTuple := by
  have hrows : (rs.map c.toTuple).filter q = (rs.filter (q ∘ c.toTuple)).map c.toTuple :=
    List.filter_map
  exact hrows.trans (congrArg _ (List.filter_congr h))

namespace Tabular

/-- `Count` counts the records that are selected. -/
theorem count_eq (h : Tabular tableName fields)
    (hdb : DB.new type tableName fields indexes = some db) (hs : Selects E c type text rs p) :
    db.count E text (stored tableName c rs) = (rs.filter p).length := by
  obtain ⟨condition, q, hwhere, hq, hqp⟩ := hs.exists_rows tableName
  have hrun : (Query.count (nameChars tableName) condition).run E [] (stored tableName c rs) = _ :=
    run_count hq
  rw [filter_rows hqp, List.length_map] at hrun
  rw [DB.count, (h.means_count hdb hwhere).execute_eq (type_of_new hdb), hrun]

/-- `DeleteRecords` deletes the records that are selected. -/
theorem deleteRecords_eq (h : Tabular tableName fields)
    (hdb : DB.new type tableName fields indexes = some db) (hne : text ≠ "")
    (hs : Selects E c type text rs p) :
    db.deleteRecords E text (stored tableName c rs)
      = (true, stored tableName c (rs.filter fun r ↦ !p r)) := by
  obtain ⟨condition, q, hwhere, hq, hqp⟩ := hs.exists_rows tableName
  cases hwhere with
  | empty => exact absurd rfl hne
  | @expression _ e he =>
    have hrun : (Query.delete (nameChars tableName) (some e)).run E [] (stored tableName c rs) = _ :=
      run_delete hq
    have hnot : ∀ r ∈ rs, (!q (c.toTuple r)) = !p r := fun r hr ↦ by rw [hqp r hr]
    rw [filter_rows hnot] at hrun
    exact (h.means_deleteRecords hdb he).change_eq_true (type_of_new hdb) hrun

/-- `GetRecords` gives a page of the records that are selected, in their order. -/
theorem getRecords_eq (h : Tabular tableName fields)
    (hdb : DB.new type tableName fields indexes = some db) (hkept : ∀ r ∈ rs, c.Kept r)
    (hs : Selects E c type text rs p) (horder : Ordering fields orderBy entries)
    (offset howMany : ℕ) :
    db.getRecords E c offset howMany text orderBy (stored tableName c rs) =
      if offset < 2 ^ 63 ∧ howMany < 2 ^ 63 then
        (!(((c.ordered E entries p rs).drop offset).take howMany).isEmpty,
          ((c.ordered E entries p rs).drop offset).take howMany)
      else (false, []) := by
  obtain ⟨condition, q, hwhere, hq, hqp⟩ := hs.exists_rows tableName
  have hlengths : ∀ row ∈ (stored tableName c rs).rows,
      row.length = (columns fields).length := forall_mem_stored c.length_toTuple rs
  have hrun : (Query.select (columns fields) (nameChars tableName) condition
      (entries.map OrderEntry.entry) (some ⟨offset, howMany⟩)).run E []
        (stored tableName c rs) = _ := run_select h.nodup hlengths hq _ _
  have hsorted : ((rs.filter p).map c.toTuple).mergeSort
      (E.before (stored tableName c rs).columns (entries.map OrderEntry.entry))
        = (c.ordered E entries p rs).map c.toTuple :=
    (List.map_mergeSort (f := c.toTuple) fun _ _ _ _ ↦ rfl).symm
  rw [filter_rows hqp, hsorted, ranged] at hrun
  rw [DB.getRecords, (h.means_getRecords hdb hwhere horder offset howMany).execute_eq
    (type_of_new hdb), hrun]
  by_cases hrange : offset < 2 ^ 63 ∧ howMany < 2 ^ 63
  · rw [if_pos hrange, if_pos hrange, ← List.map_drop, ← List.map_take]
    have hpage : ∀ r ∈ ((c.ordered E entries p rs).drop offset).take howMany, c.Kept r := by
      intro r hr
      have hmem : r ∈ c.ordered E entries p rs := List.mem_of_mem_drop (List.mem_of_mem_take hr)
      rw [RecordTuple.ordered, List.mem_mergeSort] at hmem
      exact hkept r (List.mem_of_mem_filter hmem)
    have hconvert := RecordTuple.convertAll_eq hpage
    generalize ((c.ordered E entries p rs).drop offset).take howMany = page at hconvert ⊢
    rcases page with _ | ⟨r, page⟩
    · rfl
    · exact hconvert
  · rw [if_neg hrange, if_neg hrange]
    rfl

/-- Without an order the page is one of the records as they are stored. -/
theorem getRecords_unordered (h : Tabular tableName fields)
    (hdb : DB.new type tableName fields indexes = some db) (hkept : ∀ r ∈ rs, c.Kept r)
    (hs : Selects E c type text rs p) (offset howMany : ℕ) :
    db.getRecords E c offset howMany text "" (stored tableName c rs) =
      if offset < 2 ^ 63 ∧ howMany < 2 ^ 63 then
        (!(((rs.filter p).drop offset).take howMany).isEmpty,
          ((rs.filter p).drop offset).take howMany)
      else (false, []) := by
  rw [h.getRecords_eq hdb hkept hs .unordered, RecordTuple.ordered_nil]

end Tabular

/-- Of two elements of a list without repetitions only one stands first. -/
theorem not_sublist_swap {α : Type} {l : List α} (hnodup : l.Nodup) {a b : α}
    (h : [a, b].Sublist l) : ¬ [b, a].Sublist l := by
  induction l with
  | nil => cases h
  | cons x l ih =>
    obtain ⟨hx, hl⟩ := List.nodup_cons.mp hnodup
    intro h'
    rcases List.cons_sublist_cons'.mp h with htail | ⟨rfl, hb⟩
    · rcases List.cons_sublist_cons'.mp h' with htail' | ⟨rfl, -⟩
      · exact ih hl htail htail'
      · exact hx (htail.subset (List.mem_cons_of_mem a List.mem_cons_self))
    · rcases List.cons_sublist_cons'.mp h' with htail' | ⟨rfl, -⟩
      · exact hx (htail'.subset (List.mem_cons_of_mem b List.mem_cons_self))
      · exact hx (hb.subset List.mem_cons_self)

/-- Records may stand before what these may stand before. -/
theorem RecordTuple.before_trans (hE : E.Ordered) (entries : List OrderEntry) (r r' r'' : ρ)
    (h : c.before E entries r r' = true) (h' : c.before E entries r' r'' = true) :
    c.before E entries r r'' = true :=
  Sql.before_trans hE _ ((c.map_kind r).trans (c.map_kind r').symm)
    ((c.map_kind r').trans (c.map_kind r'').symm) h h'

/-- Of two records one may stand before the other. -/
theorem RecordTuple.before_total (hE : E.Ordered) (entries : List OrderEntry) (r r' : ρ) :
    (c.before E entries r r' || c.before E entries r' r) = true := by
  rw [Bool.or_eq_true]
  exact Sql.before_total hE _ ((c.map_kind r).trans (c.map_kind r').symm)

/-- The records that are selected are in their order. -/
theorem RecordTuple.pairwise_ordered (hE : E.Ordered) (entries : List OrderEntry) (p : ρ → Bool)
    (rs : List ρ) :
    (c.ordered E entries p rs).Pairwise fun r r' ↦ c.before E entries r r' = true :=
  List.pairwise_mergeSort (c.before_trans hE entries) (c.before_total hE entries) _

theorem RecordTuple.ordered_perm (entries : List OrderEntry) (p : ρ → Bool) (rs : List ρ) :
    (c.ordered E entries p rs).Perm (rs.filter p) := List.mergeSort_perm _ _

/-- An order with the field of a unique key tells records apart. -/
theorem RecordTuple.tellsApart_of_key (hE : E.Ordered) {key : ρ → String} {keyName : String}
    (hcolumn : ∀ r, c.column (nameChars keyName) r = some (.text (key r)))
    (hnodup : (rs.map key).Nodup) (hfields : ∀ e ∈ entries, nameChars e.column ∈ columns fields)
    (hkey : ∃ e ∈ entries, nameChars e.column = nameChars keyName) :
    c.TellsApart E entries rs := by
  intro r hr r' hr' hlt hlt'
  have hcells : ∀ e ∈ entries.map OrderEntry.entry,
      cell (columns fields) (c.toTuple r) e.column ≠ none := by
    rw [List.forall_mem_map]
    intro e he
    obtain ⟨v, hv⟩ := exists_cell (c.length_toTuple r) (hfields e he)
    exact Option.ne_none_iff_exists'.mpr ⟨v, hv⟩
  obtain ⟨e, he, hname⟩ := hkey
  have hcell : cell (columns fields) (c.toTuple r) (nameChars e.column)
      = cell (columns fields) (c.toTuple r') (nameChars e.column) :=
    cell_eq_of_before hE ((c.map_kind r).trans (c.map_kind r').symm) hcells hlt hlt'
      (List.mem_map_of_mem he)
  have hsame : c.column (nameChars keyName) r = c.column (nameChars keyName) r' := hname ▸ hcell
  rw [hcolumn, hcolumn, Option.some.injEq, Value.text.injEq] at hsame
  exact List.inj_on_of_nodup_map hnodup hr hr' hsame

/-- In whatever order the rows are read, records that are told apart come out the same. -/
theorem RecordTuple.TellsApart.ordered_eq (h : c.TellsApart E entries (rs.filter p))
    (hE : E.Ordered) {rs' : List ρ} (hperm : rs'.Perm rs) :
    c.ordered E entries p rs' = c.ordered E entries p rs := by
  have hperm : (c.ordered E entries p rs').Perm (rs.filter p) :=
    (RecordTuple.ordered_perm entries p rs').trans (hperm.filter p)
  have hperm' := RecordTuple.ordered_perm (c := c) (E := E) entries p rs
  have hpairwise (rs : List ρ) := RecordTuple.pairwise_ordered (c := c) hE entries p rs
  refine List.Perm.eq_of_pairwise (fun r r' hr hr' ↦ ?_) (hpairwise rs') (hpairwise rs)
    (hperm.trans hperm'.symm)
  exact h r (hperm.mem_iff.mp hr) r' (hperm'.mem_iff.mp hr')

/-- Each order that the entries allow is that of some reading of the rows. -/
theorem RecordTuple.exists_reading (rs : List ρ) {l : List ρ} (hperm : l.Perm (rs.filter p))
    (hpairwise : l.Pairwise fun r r' ↦ c.before E entries r r' = true) :
    ∃ rs' : List ρ, rs'.Perm rs ∧ c.ordered E entries p rs' = l := by
  refine ⟨l ++ rs.filter fun r ↦ !p r, ?_, ?_⟩
  · exact (hperm.append_right _).trans (List.filter_append_perm p rs)
  · have hselected : l.filter p = l :=
      List.filter_eq_self.mpr fun r hr ↦ (List.mem_filter.mp (hperm.mem_iff.mp hr)).2
    have hothers : (rs.filter fun r ↦ !p r).filter p = [] := by simp
    rw [RecordTuple.ordered, List.filter_append, hselected, hothers, List.append_nil]
    exact List.mergeSort_of_pairwise hpairwise

/-- If the rows come out the same in whatever order they are read, they are told apart. -/
theorem RecordTuple.tellsApart_of_ordered_eq (hE : E.Ordered) (hnodup : rs.Nodup)
    (h : ∀ rs' : List ρ, rs'.Perm rs → c.ordered E entries p rs' = c.ordered E entries p rs) :
    c.TellsApart E entries (rs.filter p) := by
  intro r hr r' hr' hlt hlt'
  by_contra hne
  -- each of the two stands first if it is read first
  have hfirst {r r' : ρ} (hne : r ≠ r') (hr : r ∈ rs.filter p) (hr' : r' ∈ rs.filter p)
      (hlt : c.before E entries r r' = true) : [r, r'].Sublist (c.ordered E entries p rs) := by
    have hsubperm : [r, r'].Subperm rs := by
      refine List.subperm_of_subset (by simpa using hne) ?_
      simpa using ⟨List.mem_of_mem_filter hr, List.mem_of_mem_filter hr'⟩
    obtain ⟨rs', hperm, hsublist⟩ := List.subperm_iff.mp hsubperm
    have hselected := hsublist.filter p
    rw [List.filter_eq_self.mpr (by simpa using
      ⟨(List.mem_filter.mp hr).2, (List.mem_filter.mp hr').2⟩)] at hselected
    rw [← h rs' hperm]
    exact List.pair_sublist_mergeSort (c.before_trans hE entries) (c.before_total hE entries) hlt
      hselected
  have hordered : (c.ordered E entries p rs).Nodup :=
    (RecordTuple.ordered_perm entries p rs).nodup_iff.mpr (hnodup.filter p)
  exact not_sublist_swap hordered (hfirst hne hr hr' hlt) (hfirst (Ne.symm hne) hr' hr hlt')

/-- Which records are selected does not depend on their order. -/
theorem Selects.perm (h : Selects E c type text rs p) {rs' : List ρ} (hperm : rs'.Perm rs) :
    Selects E c type text rs' p := by
  obtain ⟨condition, hwhere, hall⟩ := h
  exact ⟨condition, hwhere, fun r hr ↦ hall r (hperm.mem_iff.mp hr)⟩

/-- The pages are those of the list of all records that are selected. -/
theorem Tabular.getRecords_page (h : Tabular tableName fields)
    (hdb : DB.new type tableName fields indexes = some db) (hkept : ∀ r ∈ rs, c.Kept r)
    (hs : Selects E c type text rs p) (horder : Ordering fields orderBy entries)
    (hlength : rs.length < 2 ^ 63) {size : ℕ} (hsize : size < 2 ^ 63) (k : ℕ) :
    db.getRecords E c (k * size) size text orderBy (stored tableName c rs)
      = (!(page (c.ordered E entries p rs) size k).isEmpty,
          page (c.ordered E entries p rs) size k) := by
  rw [h.getRecords_eq hdb hkept hs horder]
  by_cases hoffset : k * size < 2 ^ 63
  · rw [if_pos ⟨hoffset, hsize⟩]
    rfl
  · have hordered : (c.ordered E entries p rs).length ≤ rs.length := by
      rw [RecordTuple.ordered, List.length_mergeSort]
      exact List.length_filter_le _ _
    have hpage : page (c.ordered E entries p rs) size k = [] := by
      rw [page, List.drop_eq_nil_of_le (by omega), List.take_nil]
    rw [if_neg fun hboth ↦ hoffset hboth.1, hpage]
    rfl

/-- An order that is asked for is refused, because an item is no field with a direction, or the
records that are selected have an order like this, `Count` is how many there are, and the pages of
`GetRecords` are together this order, each record on one of them, in whatever order the database
reads the rows for each page, exactly if the entries tell the records apart. -/
theorem pages_ordered (h : Tabular tableName fields)
    (hdb : DB.new type tableName fields indexes = some db) (hE : E.Ordered)
    (hkept : ∀ r ∈ rs, c.Kept r) (hs : Selects E c type text rs p) (hnodup : rs.Nodup)
    (hlength : rs.length < 2 ^ 63) {size : ℕ} (hpos : 0 < size) (hsize : size < 2 ^ 63)
    (orderByList : String) :
    (db.prepareOrderBy orderByList "" = (false, "") ∧
        ∃ item ∈ tokenize ',' orderByList, ∀ e : OrderEntry, ¬ e.AskedBy fields item) ∨
      ∃ orderBy entries l, db.prepareOrderBy orderByList "" = (true, orderBy) ∧
        (orderByList = "" ∧ entries = [] ∨
          List.Forall₂ (fun item e ↦ e.AskedBy fields item) (tokenize ',' orderByList) entries) ∧
        l.Perm (rs.filter p) ∧ l.Pairwise (fun r r' ↦ c.before E entries r r' = true) ∧
        (∀ scan : List ρ, scan.Perm rs →
          db.count E text (stored tableName c scan) = l.length) ∧
        ((∀ scans : ℕ → List ρ, (∀ k, (scans k).Perm rs) →
            Collects (fun k ↦ (db.getRecords E c (k * size) size text orderBy
              (stored tableName c (scans k))).2) l) ↔
          c.TellsApart E entries (rs.filter p)) := by
  have hpage {orderBy : String} {entries : List OrderEntry}
      (horder : Ordering fields orderBy entries) {scan : List ρ} (hscan : scan.Perm rs) (k : ℕ) :
      (db.getRecords E c (k * size) size text orderBy (stored tableName c scan)).2
        = page (c.ordered E entries p scan) size k := by
    have hkept : ∀ r ∈ scan, c.Kept r := fun r hr ↦ hkept r (hscan.mem_iff.mp hr)
    rw [h.getRecords_page hdb hkept (hs.perm hscan) horder (hscan.length_eq ▸ hlength) hsize]
  have hpages {orderBy : String} {entries : List OrderEntry}
      (horder : Ordering fields orderBy entries) :
      (∀ scans : ℕ → List ρ, (∀ k, (scans k).Perm rs) →
          Collects (fun k ↦ (db.getRecords E c (k * size) size text orderBy
            (stored tableName c (scans k))).2) (c.ordered E entries p rs)) ↔
        c.TellsApart E entries (rs.filter p) := by
    constructor
    · intro hcollects
      refine RecordTuple.tellsApart_of_ordered_eq hE hnodup fun rs' hperm ↦ ?_
      have hall := hcollects (fun _ ↦ rs') fun _ ↦ hperm
      simp only [hpage horder hperm] at hall
      exact (collects_page _ hpos).unique hall
    · intro happart scans hscans
      have hall (k : ℕ) := hpage horder (hscans k) k
      simp only [happart.ordered_eq hE (hscans _)] at hall
      simp only [hall]
      exact collects_page _ hpos
  have hcount (entries : List OrderEntry) (scan : List ρ) (hscan : scan.Perm rs) :
      db.count E text (stored tableName c scan) = (c.ordered E entries p rs).length := by
    rw [h.count_eq hdb (hs.perm hscan), (hscan.filter p).length_eq,
      (RecordTuple.ordered_perm entries p rs).length_eq]
  have houtcome := prepareOrderBy_outcome hdb orderByList ""
  generalize db.prepareOrderBy orderByList "" = result at houtcome
  cases houtcome with
  | unordered hempty =>
    exact .inr ⟨"", [], _, rfl, .inl ⟨hempty, rfl⟩, RecordTuple.ordered_perm [] p rs,
      RecordTuple.pairwise_ordered hE [] p rs, hcount [], hpages .unordered⟩
  | @ordered entries hne hasked =>
    exact .inr ⟨_, entries, _, rfl, .inr hasked, RecordTuple.ordered_perm entries p rs,
      RecordTuple.pairwise_ordered hE entries p rs, hcount entries,
      hpages (.ordered hne (forall_asked hasked))⟩
  | refused hitem hrefused => exact .inl ⟨rfl, _, hitem, hrefused⟩

end Selections

/-- The only field of a table of names. -/
def nameFields : List Field := [⟨"name", .text, 0, false⟩]

/-- Names as records. -/
def nameTuple : RecordTuple nameFields String where
  kinds := [.text]
  toTuple name := [.text name]
  ofTuple
    | [.text name] => some name
    | _ => none
  Kept _ := True
  length_kinds := rfl
  map_kind _ := rfl
  ofTuple_toTuple _ _ := rfl

/-- The names of a table, on pages of one name, in whatever order the table is read for each. -/
theorem pages_ordered_names :
    ∃ db orderBy entries l, DB.new .pgsql "users" nameFields [] = some db ∧
      db.prepareOrderBy "Name:d" "" = (true, orderBy) ∧
      ("Name:d" = "" ∧ entries = [] ∨
        List.Forall₂ (fun item e ↦ e.AskedBy nameFields item) (tokenize ',' "Name:d") entries) ∧
      l.Perm (["ann", "bob"].filter fun _ ↦ true) ∧
      l.Pairwise (fun r r' ↦
        nameTuple.before (sampleEngine ⟨toLower, fun s t ↦ s == t⟩) entries r r' = true) ∧
      (∀ scan : List String, scan.Perm ["ann", "bob"] →
        db.count (sampleEngine ⟨toLower, fun s t ↦ s == t⟩) "" (stored "users" nameTuple scan)
          = l.length) ∧
      ∀ scans : ℕ → List String, (∀ k, (scans k).Perm ["ann", "bob"]) →
        Collects (fun k ↦ (db.getRecords (sampleEngine ⟨toLower, fun s t ↦ s == t⟩) nameTuple
          (k * 1) 1 "" orderBy (stored "users" nameTuple (scans k))).2) l := by
  obtain ⟨db, hdb⟩ : ∃ db, DB.new .pgsql "users" nameFields [] = some db := ⟨_, rfl⟩
  have htable : Tabular "users" nameFields :=
    ⟨by decide, by decide, by decide, by decide, by decide, by decide, by decide⟩
  have hE := ordered_sampleEngine ⟨toLower, fun s t ↦ s == t⟩
  have hs : Selects (sampleEngine ⟨toLower, fun s t ↦ s == t⟩) nameTuple .pgsql "" ["ann", "bob"]
      fun _ ↦ true := ⟨none, .empty, fun _ _ ↦ rfl⟩
  have haccepted : (db.prepareOrderBy "Name:d" "").1 = true := by
    cases hdb
    decide
  rcases pages_ordered htable hdb hE (fun _ _ ↦ trivial) hs (by decide) (by decide) one_pos
    (by decide) "Name:d" with ⟨hrefused, -⟩ | ⟨orderBy, entries, l, ho, ha, hl, hp, hcount, hpages⟩
  · rw [hrefused] at haccepted
    cases haccepted
  · refine ⟨db, orderBy, entries, l, hdb, ho, ha, hl, hp, hcount, hpages.mpr ?_⟩
    have hasked := ha.resolve_left fun hempty ↦ absurd hempty.1 (by decide)
    have hfields : ∀ e ∈ entries, nameChars e.column ∈ columns nameFields := by
      intro e he
      obtain ⟨item, hitem⟩ := forall_asked hasked e he
      obtain ⟨i, hi, hname⟩ := hitem.field
      exact (htable.asks_of_mem hi hname).mem
    have hcolumn : ∀ r, nameTuple.column (nameChars "name") r = some (.text (id r)) := fun _ ↦ rfl
    refine RecordTuple.tellsApart_of_key hE hcolumn (by decide) hfields ?_
    cases hasked with
    | @cons _ e _ entries _ _ =>
      exact ⟨e, List.mem_cons_self, List.mem_singleton.mp (hfields e List.mem_cons_self)⟩

end OwSec.ORM
