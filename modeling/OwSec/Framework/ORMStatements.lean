import OwSec.Framework.ORMConditions

/-!
# Placeholders and orders

The texts that `framework/orm.h` makes from other texts: `ConvertParams` numbers the placeholders of
a statement for PostgreSQL, and `PrepareOrderBy` makes the end of a statement from the order that
a client asks for.
-/

namespace OwSec.ORM

open Kit Sql

/-- `Idx++`; `none` is an overflow of `int`. -/
def increment (idx : ℕ) : Option ℕ := if idx < 2 ^ 31 - 1 then some (idx + 1) else none

/-- The loop of `ConvertParams`. -/
def convertLoop (idx : ℕ) (r : String) : List Char → Option String
  | [] => some r
  | i :: s =>
    if i = '?' then (increment idx).bind fun idx' ↦ convertLoop idx' (r ++ "$" ++ toString idx) s
    else convertLoop idx (r.push i) s

/-- `ConvertParams`. -/
def DB.convertParams (db : DB) (s : String) : Option String :=
  if db.type_ ≠ .pgsql then some s else convertLoop 1 "" s.toList

/-- The statement of `GetRecord` with a condition. -/
def DB.getRecordStatement (db : DB) (whereClause : String) : Option String :=
  db.convertParams
    ("select " ++ db.selectFields_ ++ " from " ++ db.tableName_ ++ " where " ++ whereClause ++
      " limit 1")

/-- The loop of `PrepareOrderBy`; `none` is a refusal. -/
def DB.orderItems (db : DB) (itemList : String) : List String → Option String
  | [] => some itemList
  | i :: items =>
    match tokenize ':' i with
    | [name, direction] =>
      if direction ≠ "a" ∧ direction ≠ "d" then none
      else if validFieldName db.fieldNames_ name then
        db.orderItems
          ((if itemList.isEmpty then itemList else itemList ++ " , ") ++
            (name ++ if direction = "a" then " ASC" else " DESC")) items
      else none
    | _ => none

/-- `PrepareOrderBy`: whether the order is accepted, and `OrderByString`. -/
def DB.prepareOrderBy (db : DB) (orderByList orderByString : String) : Bool × String :=
  match db.orderItems "" (tokenize ',' orderByList) with
  | some itemList =>
    (true, if itemList.isEmpty then orderByString else " ORDER BY " ++ itemList)
  | none => (false, orderByString)

/-! ## Placeholders -/

/-- Whether the lexer is inside a literal. -/
def inside : Reading → Bool
  | .plain (.literal _) | .escaped _ => true
  | _ => false

/-- The placeholders are the question marks outside of literals, and they are numbered in their
order. -/
def numbered : Reading → ℕ → List Char → List Char
  | _, _, [] => []
  | r, k, c :: cs =>
    let r' := (Quoting.standard.advance r c).2
    if c = '?' ∧ inside r = false then '$' :: (Nat.toDigits 10 k ++ numbered r' (k + 1) cs)
    else c :: numbered r' k cs

/-- Every question mark is a placeholder. -/
def allNumbered : ℕ → List Char → List Char
  | _, [] => []
  | k, c :: cs =>
    if c = '?' then '$' :: (Nat.toDigits 10 k ++ allNumbered (k + 1) cs) else c :: allNumbered k cs

/-- The loop numbers all question marks, as long as there are numbers. -/
theorem convertLoop_eq {idx : ℕ} (hidx : idx ≤ 2 ^ 31 - 1) (r : String) (s : List Char) :
    convertLoop idx r s =
      if idx + s.count '?' ≤ 2 ^ 31 - 1 then some (r ++ String.ofList (allNumbered idx s))
      else none := by
  induction s generalizing idx r with
  | nil => simpa [convertLoop, allNumbered] using hidx
  | cons c s ih =>
    rw [convertLoop, allNumbered]
    by_cases hc : c = '?'
    · rw [if_pos hc, if_pos hc, hc, List.count_cons_self, increment]
      by_cases hnext : idx < 2 ^ 31 - 1
      · have hroom : idx + (s.count '?' + 1) ≤ 2 ^ 31 - 1 ↔
            idx + 1 + s.count '?' ≤ 2 ^ 31 - 1 := by omega
        have htext : r ++ "$" ++ toString idx ++ String.ofList (allNumbered (idx + 1) s) =
            r ++ String.ofList ('$' :: (Nat.toDigits 10 idx ++ allNumbered (idx + 1) s)) := by
          refine String.ext ?_
          simp [String.toList_ofList]
        simp only [hroom]
        rw [if_pos hnext, Option.bind_some, ih hnext, htext]
      · rw [if_neg hnext, if_neg (by omega), Option.bind_none]
    · have htext : r.push c ++ String.ofList (allNumbered idx s) =
          r ++ String.ofList (c :: allNumbered idx s) := by
        refine String.ext ?_
        simp [String.toList_ofList]
      rw [if_neg hc, if_neg hc, List.count_cons_of_ne hc, ih hidx, htext]

/-- No question mark is inside a literal. -/
def NoneInside (r : Reading) (s : List Char) : Prop :=
  ∀ a b, s = a ++ '?' :: b → inside (Quoting.standard.scan r a).2 = false

/-- The first character decides, or the others do. -/
theorem noneInside_cons {r : Reading} {c : Char} {s : List Char} :
    NoneInside r (c :: s) ↔
      (c = '?' → inside r = false) ∧ NoneInside (Quoting.standard.advance r c).2 s := by
  constructor
  · intro h
    refine ⟨fun hc ↦ h [] s (hc ▸ rfl), fun a b hs ↦ ?_⟩
    subst hs
    exact h (c :: a) b rfl
  · rintro ⟨hc, h⟩ a b hs
    rcases a with _ | ⟨d, a⟩
    · exact hc (List.cons.inj hs).1
    · obtain ⟨rfl, htail⟩ := List.cons.inj hs
      exact h a b htail

/-- All question marks are numbered as the placeholders are when none is inside a literal. -/
theorem allNumbered_eq_iff (r : Reading) (k : ℕ) (s : List Char) :
    allNumbered k s = numbered r k s ↔ NoneInside r s := by
  induction s generalizing r k with
  | nil => exact iff_of_true rfl fun a b hs ↦ by simp at hs
  | cons c s ih =>
    rw [noneInside_cons, allNumbered, numbered]
    by_cases hc : c = '?'
    · by_cases hr : inside r = false
      · simp [hc, hr, ih]
      · have hne : '$' ≠ '?' := by decide
        simp [hc, hr, hne]
    · simp [hc, ih]

/-- A statement as PostgreSQL should get it. -/
def renumbered (s : String) : String :=
  String.ofList (numbered (.plain .between) 1 s.toList)

/-- Exactly the placeholders are numbered when no question mark is inside a literal, and there are
numbers for all of them. -/
theorem convertParams_eq_iff {db : DB} (hpgsql : db.type_ = .pgsql) (s : String) :
    db.convertParams s = some (renumbered s) ↔
      NoneInside (.plain .between) s.toList ∧ s.toList.count '?' < 2 ^ 31 - 1 := by
  have hroom : 1 + s.toList.count '?' ≤ 2 ^ 31 - 1 ↔ s.toList.count '?' < 2 ^ 31 - 1 := by omega
  have hloop := convertLoop_eq (show 1 ≤ 2 ^ 31 - 1 by omega) "" s.toList
  rw [DB.convertParams, if_neg (not_not.mpr hpgsql), hloop, ← allNumbered_eq_iff _ 1]
  simp only [hroom]
  by_cases hcount : s.toList.count '?' < 2 ^ 31 - 1
  · have htext : some ("" ++ String.ofList (allNumbered 1 s.toList)) = some (renumbered s) ↔
        allNumbered 1 s.toList = numbered (.plain .between) 1 s.toList := by
      rw [Option.some.injEq, String.empty_append, renumbered, String.ofList_inj]
    rw [if_pos hcount, htext, and_iff_left hcount]
  · rw [if_neg hcount]
    exact iff_of_false (by simp) fun h ↦ hcount h.2

/-- A statement for a table with one column. -/
theorem convertParams_users :
    ∃ db, DB.new .pgsql "users" [⟨"name", .text, 0, false⟩] [] = some db ∧
      (db.convertParams "select name from users where name=?"
          = some (renumbered "select name from users where name=?") ↔
        NoneInside (.plain .between) "select name from users where name=?".toList ∧
          "select name from users where name=?".toList.count '?' < 2 ^ 31 - 1) :=
  ⟨_, rfl, convertParams_eq_iff rfl _⟩

/-- A name with a question mark. -/
theorem getRecordStatement_question :
    ((DB.new .pgsql "users" [⟨"name", .text, 0, false⟩] []).bind fun db ↦
        (db.opField "name" .eq (.text "who?")).bind db.getRecordStatement)
      = some "select name from users where (name='who$1') limit 1" ∧
      renumbered "select name from users where (name='who?') limit 1"
        = "select name from users where (name='who?') limit 1" := by
  decide

/-! ## Orders -/

/-- A column and the direction in which it is ordered. -/
structure OrderEntry where
  column : String
  direction : Indextype

/-- What is asked for. -/
def OrderEntry.request (e : OrderEntry) : String :=
  e.column ++ ":" ++ (match e.direction with | .asc => "a" | .desc => "d")

/-- What is put into the statement. -/
def OrderEntry.sql (e : OrderEntry) : String :=
  e.column ++ (match e.direction with | .asc => " ASC" | .desc => " DESC")

/-- An item asks for a field of the table, with a direction. -/
structure OrderEntry.AskedBy (fields : List Field) (item : String) (e : OrderEntry) : Prop where
  item_eq : item = e.request
  field : ∃ i ∈ fields, toLower i.name = toLower e.column
  unparted : ':' ∉ e.column.toList

/-- The separator in front of an element but the first. -/
theorem joined_append (separator s t : String) (rest : List String) :
    joined separator ((s ++ separator ++ t) :: rest) = joined separator (s :: t :: rest) := by
  cases rest with
  | nil => rfl
  | cons u rest => simp [joined, String.append_assoc]

theorem OrderEntry.sql_ne_empty (e : OrderEntry) : e.sql ≠ "" := by
  obtain ⟨column, direction⟩ := e
  cases direction <;> simp [OrderEntry.sql]

/-- Entries make a text. -/
theorem joined_sql_ne_empty {entries : List OrderEntry} (hne : entries ≠ []) :
    joined " , " (entries.map OrderEntry.sql) ≠ "" := by
  obtain ⟨e, entries, rfl⟩ := List.exists_cons_of_ne_nil hne
  rcases entries with _ | ⟨e', entries⟩
  · exact e.sql_ne_empty
  · simp [joined]

variable {type : DBType} {tableName : String} {fields : List Field} {indexes : List Index} {db : DB}

/-- The fields of a table. -/
theorem fieldNames_of_new (hdb : DB.new type tableName fields indexes = some db) :
    db.fieldNames_ = DB.placeFields fields := by
  obtain ⟨-, hdb⟩ := Option.ite_none_right_eq_some.mp hdb
  exact congrArg DB.fieldNames_ (Option.some.inj hdb).symm

/-- An item that is asked for is put behind the others. -/
theorem orderItems_askedBy (hdb : DB.new type tableName fields indexes = some db) {item : String}
    {e : OrderEntry} (he : e.AskedBy fields item) (itemList : String) (items : List String) :
    db.orderItems itemList (item :: items) =
      db.orderItems ((if itemList.isEmpty then itemList else itemList ++ " , ") ++ e.sql) items := by
  have hvalid : DB.validFieldName db.fieldNames_ e.column = true := by
    rw [fieldNames_of_new hdb]
    exact (validFieldName_iff fields e.column).mpr he.field
  obtain ⟨column, direction⟩ := e
  cases direction with
  | asc =>
    have ha : ':' ∉ "a".toList := by decide
    have htokens : tokenize ':' item = [column, "a"] := by
      rw [he.item_eq]
      exact tokenize_append he.unparted ha
    simp [DB.orderItems, htokens, hvalid, OrderEntry.sql]
  | desc =>
    have hd : ':' ∉ "d".toList := by decide
    have htokens : tokenize ':' item = [column, "d"] := by
      rw [he.item_eq]
      exact tokenize_append he.unparted hd
    simp [DB.orderItems, htokens, hvalid, OrderEntry.sql]

/-- Any other item is refused. -/
theorem orderItems_refused (hdb : DB.new type tableName fields indexes = some db) {item : String}
    (hitem : ∀ e : OrderEntry, ¬ e.AskedBy fields item) (itemList : String)
    (items : List String) : db.orderItems itemList (item :: items) = none := by
  rw [DB.orderItems]
  split
  · next name direction htokens =>
    obtain ⟨hunparted, -, hname⟩ := tokenize_eq_pair htokens
    by_cases hdirection : direction ≠ "a" ∧ direction ≠ "d"
    · rw [if_pos hdirection]
    · have hfield : DB.validFieldName db.fieldNames_ name = false := by
        rw [fieldNames_of_new hdb, ← Bool.not_eq_true, validFieldName_iff]
        intro hfield
        by_cases ha : direction = "a"
        · subst ha
          exact hitem ⟨name, .asc⟩ ⟨hname, hfield, hunparted⟩
        · obtain rfl : direction = "d" := by tauto
          exact hitem ⟨name, .desc⟩ ⟨hname, hfield, hunparted⟩
      rw [if_neg hdirection, hfield, if_neg Bool.false_ne_true]
  · rfl

/-- What the loop makes of the items: nothing, or an entry for each of them. -/
theorem orderItems_cases (hdb : DB.new type tableName fields indexes = some db)
    (itemList : String) (items : List String) :
    (∃ entries : List OrderEntry,
        List.Forall₂ (fun item e ↦ e.AskedBy fields item) items entries ∧
        db.orderItems itemList items = some (joined " , "
          ((if itemList.isEmpty then [] else [itemList]) ++ entries.map OrderEntry.sql))) ∨
      (∃ item ∈ items, ∀ e : OrderEntry, ¬ e.AskedBy fields item) ∧
        db.orderItems itemList items = none := by
  induction items generalizing itemList with
  | nil =>
    refine .inl ⟨[], .nil, ?_⟩
    by_cases hempty : itemList.isEmpty
    · simp [DB.orderItems, joined, String.isEmpty_iff.mp hempty]
    · simp [DB.orderItems, joined, hempty]
  | cons item items ih =>
    by_cases hitem : ∃ e : OrderEntry, e.AskedBy fields item
    · obtain ⟨e, he⟩ := hitem
      rw [orderItems_askedBy hdb he]
      rcases ih ((if itemList.isEmpty then itemList else itemList ++ " , ") ++ e.sql) with
        ⟨entries, hentries, hloop⟩ | ⟨⟨bad, hbad, hrefused⟩, hloop⟩
      · refine .inl ⟨e :: entries, .cons he hentries, ?_⟩
        have hne : ((if itemList.isEmpty then itemList else itemList ++ " , ") ++ e.sql).isEmpty
            = false := by simp [e.sql_ne_empty]
        rw [hloop, hne, List.map_cons]
        by_cases hempty : itemList.isEmpty = true
        · simp [String.isEmpty_iff.mp hempty]
        · simp only [hempty, Bool.false_eq_true, if_false, List.singleton_append]
          rw [joined_append]
      · exact .inr ⟨⟨bad, List.mem_cons_of_mem item hbad, hrefused⟩, hloop⟩
    · push Not at hitem
      exact .inr ⟨⟨item, List.mem_cons_self, hitem⟩, orderItems_refused hdb hitem _ _⟩

/-- What may come of an order, with `OrderByString` before and behind. -/
inductive OrderOutcome (fields : List Field) (orderByList orderByString : String) :
    Bool × String → Prop
  /-- There is nothing to order by. -/
  | unordered (hempty : orderByList = "") :
      OrderOutcome fields orderByList orderByString (true, orderByString)
  /-- Each item asks for an entry, and these are all that is in the text. -/
  | ordered {entries : List OrderEntry} (hne : entries ≠ [])
      (hasked : List.Forall₂ (fun item e ↦ e.AskedBy fields item) (tokenize ',' orderByList)
        entries) :
      OrderOutcome fields orderByList orderByString
        (true, " ORDER BY " ++ joined " , " (entries.map OrderEntry.sql))
  /-- An item does not ask for an entry. -/
  | refused {item : String} (hitem : item ∈ tokenize ',' orderByList)
      (hrefused : ∀ e : OrderEntry, ¬ e.AskedBy fields item) :
      OrderOutcome fields orderByList orderByString (false, orderByString)

/-- An order becomes the entries that are asked for, or it is refused as a whole. -/
theorem prepareOrderBy_outcome (hdb : DB.new type tableName fields indexes = some db)
    (orderByList orderByString : String) :
    OrderOutcome fields orderByList orderByString
      (db.prepareOrderBy orderByList orderByString) := by
  by_cases hempty : orderByList = ""
  · subst hempty
    exact .unordered rfl
  · rcases orderItems_cases hdb "" (tokenize ',' orderByList) with
      ⟨entries, hentries, hloop⟩ | ⟨⟨item, hitem, hrefused⟩, hloop⟩
    · have hne : entries ≠ [] := by
        rintro rfl
        exact tokenize_ne_nil ',' hempty (List.forall₂_nil_right_iff.mp hentries)
      have htext := joined_sql_ne_empty hne
      have hresult : db.prepareOrderBy orderByList orderByString =
          (true, " ORDER BY " ++ joined " , " (entries.map OrderEntry.sql)) := by
        simp [DB.prepareOrderBy, hloop, htext]
      rw [hresult]
      exact .ordered hne hentries
    · have hresult : db.prepareOrderBy orderByList orderByString = (false, orderByString) := by
        rw [DB.prepareOrderBy, hloop]
      rw [hresult]
      exact .refused hitem hrefused

/-- An order with a field and something else. -/
theorem prepareOrderBy_users :
    ∃ db, DB.new .sqlite "users" [⟨"name", .text, 0, false⟩, ⟨"email", .text, 0, false⟩] []
        = some db ∧
      OrderOutcome [⟨"name", .text, 0, false⟩, ⟨"email", .text, 0, false⟩] "Name:a,password:d" ""
        (db.prepareOrderBy "Name:a,password:d" "") := by
  obtain ⟨db, hdb⟩ : ∃ db, DB.new .sqlite "users"
      [⟨"name", .text, 0, false⟩, ⟨"email", .text, 0, false⟩] [] = some db := ⟨_, rfl⟩
  exact ⟨db, hdb, prepareOrderBy_outcome hdb "Name:a,password:d" ""⟩

example (db : DB)
    (hdb : DB.new .sqlite "users" [⟨"name", .text, 0, false⟩, ⟨"email", .text, 0, false⟩] []
      = some db) :
    db.prepareOrderBy "Name:a,email:d" "" = (true, " ORDER BY Name ASC , email DESC") := by
  cases hdb
  decide

end OwSec.ORM
