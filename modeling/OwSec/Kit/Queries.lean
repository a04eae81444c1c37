import OwSec.Kit.Expressions

/-!
# Statements on the rows of a table

The statements that insert, select, count, update and delete rows: their syntax trees, and a
parser.

The parser reads a statement piece by piece.  `Parses p good is a` says that `p` reads `a` from the
items `is`, whenever what stands behind them is good, and for each piece there is one rule about the
items that it is written with.
-/

namespace Kit.Sql

universe u

/-- The part of the selected rows that is wanted. -/
structure Range where
  offset : ℕ
  limit : ℕ
  deriving DecidableEq, Repr

/-- The statements. -/
inductive Query
  | insert (table : List Char) (columns : List (List Char)) (values : List Expression)
  | select (columns : List (List Char)) (table : List Char) (condition : Option Expression)
      (order : List Entry) (range : Option Range)
  | count (table : List Char) (condition : Option Expression)
  | update (table : List Char) (settings : List (List Char × Expression))
      (condition : Option Expression)
  | delete (table : List Char) (condition : Option Expression)
  deriving DecidableEq, Repr

/-- How a database has statements written. -/
structure Grammar where
  placeholders : Placeholders
  /-- Whether an offset can stand in front of the limit, with a comma. -/
  pairs : Bool
  deriving DecidableEq, Repr

/-! ## Reading -/

/-- A given token. -/
def skip (t : Token) : List Item → Option (List Item)
  | .token t' :: rest => if t' = t then some rest else none
  | _ => none

/-- The name of a table or a column. -/
def nameAt : List Item → Option (List Char × List Item)
  | .token (.word w) :: rest => if reserved.contains w then none else some (w, rest)
  | _ => none

/-- A list with commas, which has at least one element. -/
def listAt {α : Type u} (p : List Item → Option (α × List Item)) :
    ℕ → List Item → Option (List α × List Item)
  | 0, _ => none
  | fuel + 1, is =>
    (p is).bind fun a ↦
      match skip (.symbol ',') a.2 with
      | some rest => (listAt p fuel rest).map fun as ↦ (a.1 :: as.1, as.2)
      | none => some ([a.1], a.2)

/-- A column and its new value. -/
def settingAt (is : List Item) : Option ((List Char × Expression) × List Item) :=
  (nameAt is).bind fun name ↦ (skip (.symbol '=') name.2).bind fun is ↦
    (parseExpression is).map fun e ↦ ((name.1, e.1), e.2)

/-- A column by which rows are ordered. -/
def entryAt (is : List Item) : Option (Entry × List Item) :=
  (nameAt is).bind fun name ↦
    match skip (keyword "asc") name.2, skip (keyword "desc") name.2 with
    | some rest, _ => some (⟨name.1, .asc⟩, rest)
    | none, some rest => some (⟨name.1, .desc⟩, rest)
    | none, none => none

/-- A number. -/
def numberAt : List Item → Option (ℕ × List Item)
  | .token (.word w) :: rest => (numeral w).map (·, rest)
  | _ => none

/-- The condition, if there is one. -/
def conditionAt (is : List Item) : Option (Option Expression × List Item) :=
  match skip (keyword "where") is with
  | some rest => (parseExpression rest).map fun e ↦ (some e.1, e.2)
  | none => some (none, is)

/-- The order, if there is one. -/
def orderAt (is : List Item) : Option (List Entry × List Item) :=
  match skip (keyword "order") is with
  | some rest => (skip (keyword "by") rest).bind fun rest ↦ listAt entryAt rest.length rest
  | none => some ([], is)

/-- The range, if there is one. -/
def rangeAt (pairs : Bool) (is : List Item) : Option (Option Range × List Item) :=
  match skip (keyword "limit") is with
  | none => some (none, is)
  | some rest =>
    (numberAt rest).bind fun n ↦
      match skip (keyword "offset") n.2, skip (.symbol ',') n.2 with
      | some rest, _ => (numberAt rest).map fun m ↦ (some ⟨m.1, n.1⟩, m.2)
      | none, some rest =>
        if pairs then (numberAt rest).map fun m ↦ (some ⟨n.1, m.1⟩, m.2) else none
      | none, none => some (some ⟨0, n.1⟩, n.2)

/-- The end of the statement. -/
def ended {α : Type u} (a : α × List Item) : Option α := if a.2 = [] then some a.1 else none

/-- Behind `insert`. -/
def insertAt (is : List Item) : Option Query := do
  let is ← skip (keyword "into") is
  let (table, is) ← nameAt is
  let is ← skip opening is
  let (columns, is) ← listAt nameAt is.length is
  let is ← skip closing is
  let is ← skip (keyword "values") is
  let is ← skip opening is
  let (values, is) ← listAt parseExpression is.length is
  let is ← skip closing is
  ended (.insert table columns values, is)

/-- Behind `select count`. -/
def countAt (is : List Item) : Option Query := do
  let is ← skip opening is
  let is ← skip (.symbol '*') is
  let is ← skip closing is
  let is ← skip (keyword "from") is
  let (table, is) ← nameAt is
  let (condition, is) ← conditionAt is
  ended (.count table condition, is)

/-- Behind `select`. -/
def selectAt (pairs : Bool) (is : List Item) : Option Query := do
  let (columns, is) ← listAt nameAt is.length is
  let is ← skip (keyword "from") is
  let (table, is) ← nameAt is
  let (condition, is) ← conditionAt is
  let (order, is) ← orderAt is
  let (range, is) ← rangeAt pairs is
  ended (.select columns table condition order range, is)

/-- Behind `update`. -/
def updateAt (is : List Item) : Option Query := do
  let (table, is) ← nameAt is
  let is ← skip (keyword "set") is
  let (settings, is) ← listAt settingAt is.length is
  let (condition, is) ← conditionAt is
  ended (.update table settings condition, is)

/-- Behind `delete`. -/
def deleteAt (is : List Item) : Option Query := do
  let is ← skip (keyword "from") is
  let (table, is) ← nameAt is
  let (condition, is) ← conditionAt is
  ended (.delete table condition, is)

/-- The statement that items are. -/
def queryAt (pairs : Bool) : List Item → Option Query
  | .token (.word w) :: .token (.word w') :: .token (.symbol '(') :: is =>
    if w = "select".toList ∧ w' = "count".toList then countAt (.token opening :: is) else none
  | .token (.word w) :: is =>
    if w = "insert".toList then insertAt is
    else if w = "select".toList then selectAt pairs is
    else if w = "update".toList then updateAt is
    else if w = "delete".toList then deleteAt is
    else none
  | _ => none

/-- The statement that a text is. -/
def parseQuery (q : Quoting) (g : Grammar) (text : List Char) : Option Query :=
  (q.tokens text).bind fun ts ↦ queryAt g.pairs (items g.placeholders 0 ts)

/-! ## Placeholders -/

/-- The tokens of the place of a parameter. -/
def Placeholders.tokens : Placeholders → ℕ → List Token
  | .marks, _ => [.symbol '?']
  | .numbers, k => [.symbol '$', .word (Nat.toDigits 10 (k + 1))]

/-- Tokens between which there are `k' - k` parameters, with `k` before. -/
def Itemized (g : Placeholders) (k : ℕ) (ts : List Token) (is : List Item) (k' : ℕ) : Prop :=
  ∀ us, items g k (ts ++ us) = is ++ items g k' us

namespace Itemized

variable {g : Placeholders} {k k' k'' : ℕ} {ts us : List Token} {is js : List Item}

theorem items_eq (h : Itemized g k ts is k') : items g k ts = is := by
  have hend : items g k' [] = [] := by cases g <;> rfl
  simpa [hend] using h []

theorem nil : Itemized g k [] [] k := fun _ ↦ rfl

theorem append (h : Itemized g k ts is k') (h' : Itemized g k' us js k'') :
    Itemized g k (ts ++ us) (is ++ js) k'' := by
  intro vs
  rw [List.append_assoc, h, h', List.append_assoc]

/-- A token that is no part of a placeholder. -/
theorem token {t : Token} (hmark : t ≠ .symbol '?') (hdollar : t ≠ .symbol '$') :
    Itemized g k [t] [.token t] k := by
  intro us
  cases g with
  | marks => simp [items, hmark]
  | numbers =>
    rw [List.singleton_append, items]
    · rfl
    · exact fun w ts heq _ ↦ hdollar heq

/-- Tokens that are no part of a placeholder. -/
theorem tokens (h : ∀ t ∈ ts, t ≠ .symbol '?' ∧ t ≠ .symbol '$') :
    Itemized g k ts (ts.map .token) k := by
  induction ts with
  | nil => exact nil
  | cons t ts ih =>
    obtain ⟨ht, hts⟩ := List.forall_mem_cons.mp h
    exact (token ht.1 ht.2).append (ih hts)

/-- The place of a parameter. -/
theorem placeholder (g : Placeholders) (k : ℕ) :
    Itemized g k (g.tokens k) [.parameter k] (k + 1) := by
  intro us
  cases g with
  | marks => rfl
  | numbers =>
    have hnumeral : numeral (Nat.toDigits 10 (k + 1)) = some (k + 1) := numeral_toDigits (k + 1)
    simp only [Placeholders.tokens, List.cons_append, List.nil_append]
    rw [items, hnumeral]

end Itemized

/-! ## The rules of the parser -/

/-- `a` is read from `is`, whenever what stands behind is good. -/
def Parses {α : Type u} (p : List Item → Option (α × List Item)) (good : List Item → Prop)
    (is : List Item) (a : α) : Prop :=
  ∀ rest, good rest → p (is ++ rest) = some (a, rest)

@[simp] theorem skip_cons (t : Token) (rest : List Item) : skip t (.token t :: rest) = some rest :=
  if_pos rfl

theorem skip_of_ne {t t' : Token} (h : t' ≠ t) (rest : List Item) :
    skip t (.token t' :: rest) = none := if_neg h

@[simp] theorem skip_nil (t : Token) : skip t [] = none := rfl

theorem nameAt_cons {w : List Char} (hw : w ∉ reserved) (rest : List Item) :
    nameAt (.token (.word w) :: rest) = some (w, rest) :=
  if_neg (by rwa [List.contains_iff_mem])

theorem numberAt_cons (n : ℕ) (rest : List Item) :
    numberAt (.token (.word (Nat.toDigits 10 n)) :: rest) = some (n, rest) := by
  rw [numberAt, numeral_toDigits, Option.map_some]

/-- A name. -/
theorem parses_name {w : List Char} (hw : w ∉ reserved) (good : List Item → Prop) :
    Parses nameAt good [.token (.word w)] w := fun rest _ ↦ nameAt_cons hw rest

/-- An expression. -/
theorem Derives.parses {is : List Item} {e : Expression} (h : Derives 4 is e) :
    Parses parseExpression (Stops 4) is e := fun _ hrest ↦ h.parseExpression_eq hrest

/-- A column and its new value. -/
theorem parses_setting {w : List Char} (hw : w ∉ reserved) {is : List Item} {e : Expression}
    (h : Derives 4 is e) :
    Parses settingAt (Stops 4) (.token (.word w) :: .token (.symbol '=') :: is) (w, e) := by
  intro rest hrest
  simp only [settingAt, List.cons_append, nameAt_cons hw, Option.bind_some, skip_cons,
    h.parses rest hrest, Option.map_some]

/-- An entry of an order. -/
theorem parses_entry {e : Entry} (he : e.column ∉ reserved) (good : List Item → Prop) :
    Parses entryAt good (e.tokens.map .token) e := by
  intro rest _
  obtain ⟨w, direction⟩ := e
  have hname := nameAt_cons he (.token direction.token :: rest)
  have hne : keyword "desc" ≠ keyword "asc" := by decide
  cases direction with
  | asc =>
    simp only [entryAt, Entry.tokens, Direction.token, List.map_cons, List.map_nil,
      List.cons_append, List.nil_append] at hname ⊢
    simp only [hname, Option.bind_some, skip_cons]
  | desc =>
    simp only [entryAt, Entry.tokens, Direction.token, List.map_cons, List.map_nil,
      List.cons_append, List.nil_append] at hname ⊢
    simp only [hname, Option.bind_some, skip_cons, skip_of_ne hne]

/-- Items with commas between them. -/
def commaItems (iss : List (List Item)) : List Item := [.token (.symbol ',')].intercalate iss

theorem commaItems_cons (is : List Item) {iss : List (List Item)} (hne : iss ≠ []) :
    commaItems (is :: iss) = is ++ .token (.symbol ',') :: commaItems iss := by
  obtain ⟨js, iss, rfl⟩ := List.exists_cons_of_ne_nil hne
  simp [commaItems]

/-- There are at least as many items as elements. -/
theorem length_le_commaItems {iss : List (List Item)} (h : ∀ is ∈ iss, is ≠ []) :
    iss.length ≤ (commaItems iss).length := by
  induction iss with
  | nil => exact Nat.zero_le _
  | cons is iss ih =>
    obtain ⟨his, hiss⟩ := List.forall_mem_cons.mp h
    have hpos := List.length_pos_of_ne_nil his
    rcases iss with _ | ⟨js, iss⟩
    · simpa [commaItems] using Nat.one_le_iff_ne_zero.mpr (Nat.ne_of_gt hpos)
    · rw [commaItems_cons is (List.cons_ne_nil js iss)]
      have hrest := ih hiss
      simp only [List.length_append, List.length_cons] at hrest ⊢
      omega

/-- A list of elements that are read one after the other. -/
theorem listAt_eq {α ι : Type*} {p : List Item → Option (α × List Item)} {good : List Item → Prop}
    (hcomma : ∀ rest, good (.token (.symbol ',') :: rest)) {is : ι → List Item} {a : ι → α}
    {l : List ι} (hne : l ≠ []) (h : ∀ i ∈ l, Parses p good (is i) (a i)) {rest : List Item}
    (hrest : good rest) (hend : skip (.symbol ',') rest = none) {fuel : ℕ}
    (hfuel : l.length ≤ fuel) :
    listAt p fuel (commaItems (l.map is) ++ rest) = some (l.map a, rest) := by
  induction l generalizing fuel with
  | nil => exact absurd rfl hne
  | cons i l ih =>
    obtain ⟨hi, hl⟩ := List.forall_mem_cons.mp h
    rw [List.length_cons] at hfuel
    obtain ⟨fuel, rfl⟩ := Nat.exists_eq_add_one.mpr (Nat.lt_of_lt_of_le (Nat.succ_pos _) hfuel)
    rcases l with _ | ⟨j, l⟩
    · have hlast := hi rest hrest
      simp only [commaItems, List.map_cons, List.map_nil, List.intercalate_singleton]
      rw [listAt, hlast, Option.bind_some, hend]
    · have hne' : j :: l ≠ [] := List.cons_ne_nil j l
      have hmore := ih hne' hl (Nat.le_of_succ_le_succ hfuel)
      have hfirst := hi _ (hcomma (commaItems ((j :: l).map is) ++ rest))
      rw [List.map_cons, commaItems_cons _ (by simp), List.append_assoc, List.cons_append, listAt,
        hfirst, Option.bind_some]
      simp only [skip_cons]
      rw [hmore]
      rfl

/-- A list of elements, with as much fuel as there are items. -/
theorem listAt_length_eq {α ι : Type*} (p : List Item → Option (α × List Item))
    (good : List Item → Prop) (hcomma : ∀ rest, good (.token (.symbol ',') :: rest))
    {is : ι → List Item} {a : ι → α} {l : List ι} (hne : l ≠ [])
    (h : ∀ i ∈ l, Parses p good (is i) (a i)) (hpos : ∀ i ∈ l, is i ≠ []) {rest : List Item}
    (hrest : good rest) (hend : skip (.symbol ',') rest = none) :
    listAt p (commaItems (l.map is) ++ rest).length (commaItems (l.map is) ++ rest)
      = some (l.map a, rest) := by
  refine listAt_eq hcomma hne h hrest hend ?_
  have hlength : (l.map is).length ≤ _ := length_le_commaItems (by simpa using hpos)
  rw [List.length_map] at hlength
  rw [List.length_append]
  omega

/-! ## The rules of the statements -/

theorem conditionAt_some {is rest : List Item} {e : Expression} (h : Derives 4 is e)
    (hrest : Stops 4 rest) :
    conditionAt (.token (keyword "where") :: (is ++ rest)) = some (some e, rest) := by
  simp only [conditionAt, skip_cons, h.parses rest hrest, Option.map_some]

theorem conditionAt_none {rest : List Item} (h : skip (keyword "where") rest = none) :
    conditionAt rest = some (none, rest) := by
  simp only [conditionAt, h]

theorem orderAt_some {entries : List Entry} (hne : entries ≠ [])
    (h : ∀ e ∈ entries, e.column ∉ reserved) {rest : List Item}
    (hend : skip (.symbol ',') rest = none) :
    orderAt (.token (keyword "order") :: .token (keyword "by") ::
      (commaItems (entries.map fun e ↦ e.tokens.map .token) ++ rest)) = some (entries, rest) := by
  have hlist := listAt_length_eq entryAt (fun _ ↦ True) (fun _ ↦ trivial) hne
    (fun e he ↦ parses_entry (h e he) _) (by simp [Entry.tokens]) trivial hend
  simp only [orderAt, skip_cons, Option.bind_some, hlist, List.map_id']

theorem orderAt_none {rest : List Item} (h : skip (keyword "order") rest = none) :
    orderAt rest = some ([], rest) := by
  simp only [orderAt, h]

theorem rangeAt_offset (pairs : Bool) (limit offset : ℕ) :
    rangeAt pairs [.token (keyword "limit"), .token (.word (Nat.toDigits 10 limit)),
      .token (keyword "offset"), .token (.word (Nat.toDigits 10 offset))]
      = some (some ⟨offset, limit⟩, []) := by
  simp only [rangeAt, skip_cons, numberAt_cons, Option.bind_some, Option.map_some]

theorem rangeAt_pair (limit offset : ℕ) :
    rangeAt true [.token (keyword "limit"), .token (.word (Nat.toDigits 10 offset)),
      .token (.symbol ','), .token (.word (Nat.toDigits 10 limit))]
      = some (some ⟨offset, limit⟩, []) := by
  have hoffset : skip (keyword "offset")
      [.token (.symbol ','), .token (.word (Nat.toDigits 10 limit))] = none :=
    skip_of_ne (by decide) _
  simp only [rangeAt, skip_cons, numberAt_cons, Option.bind_some, hoffset, if_true, Option.map_some]

theorem rangeAt_limit (pairs : Bool) (limit : ℕ) :
    rangeAt pairs [.token (keyword "limit"), .token (.word (Nat.toDigits 10 limit))]
      = some (some ⟨0, limit⟩, []) := by
  simp only [rangeAt, skip_cons, numberAt_cons, Option.bind_some, skip_nil]

variable (pairs : Bool) {table : List Char}

/-- What begins with a name. -/
theorem stops_word {w : List Char} (hlike : Token.word w ≠ .like) (hand : Token.word w ≠ .and)
    (hor : Token.word w ≠ .or) (level : ℕ) (rest : List Item) :
    Stops level (.token (.word w) :: rest) := by
  refine stops_cons (by simp [opening]) ?_ level
  simp only [readOperator, hlike, hand, hor, if_false]

/-- A list of expressions in front of a bracket. -/
theorem listAt_expressions {ι : Type*} {l : List ι} (hne : l ≠ []) {is : ι → List Item}
    {e : ι → Expression} (h : ∀ i ∈ l, Derives 4 (is i) (e i)) (rest : List Item) :
    listAt parseExpression (commaItems (l.map is) ++ .token closing :: rest).length
        (commaItems (l.map is) ++ .token closing :: rest)
      = some (l.map e, .token closing :: rest) :=
  listAt_length_eq _ (Stops 4) (fun _ ↦ stops_cons (by decide) rfl 4) hne
    (fun i hi ↦ (h i hi).parses)
    (fun i hi ↦ List.ne_nil_of_length_pos (h i hi).length_pos) (stops_closing 4 rest)
    (skip_of_ne (by decide) rest)

/-- A list of names. -/
theorem listAt_names {names : List (List Char)} (hne : names ≠ [])
    (h : ∀ w ∈ names, w ∉ reserved) {rest : List Item} (hend : skip (.symbol ',') rest = none) :
    listAt nameAt (commaItems (names.map fun w ↦ [.token (.word w)]) ++ rest).length
        (commaItems (names.map fun w ↦ [.token (.word w)]) ++ rest) = some (names, rest) := by
  have hlist := listAt_length_eq nameAt (fun _ ↦ True) (fun _ ↦ trivial) hne
    (fun w hw ↦ parses_name (h w hw) _) (by simp) trivial hend
  rw [hlist, List.map_id']

/-- `insert`. -/
theorem queryAt_insert (htable : table ∉ reserved) {columns : List (List Char)}
    (hne : columns ≠ []) (hcolumns : ∀ w ∈ columns, w ∉ reserved) {ι : Type*} {l : List ι}
    (hl : l ≠ []) {is : ι → List Item} {e : ι → Expression} (h : ∀ i ∈ l, Derives 4 (is i) (e i)) :
    queryAt pairs (.token (keyword "insert") :: .token (keyword "into") :: .token (.word table) ::
        .token opening :: (commaItems (columns.map fun w ↦ [.token (.word w)]) ++
          .token closing :: .token (keyword "values") :: .token opening ::
            (commaItems (l.map is) ++ [.token closing])))
      = some (.insert table columns (l.map e)) := by
  change insertAt (.token (keyword "into") :: _) = _
  rw [insertAt]
  simp only [skip_cons, Option.bind_eq_bind, Option.bind_some, nameAt_cons htable]
  rw [listAt_names hne hcolumns (skip_of_ne (by decide) _)]
  simp only [skip_cons, Option.bind_some]
  rw [listAt_expressions hl h]
  simp only [skip_cons, Option.bind_some]
  rfl

/-- `select count(*)`. -/
theorem queryAt_count (htable : table ∉ reserved) {cs : List Item} {condition : Option Expression}
    (hcondition : conditionAt cs = some (condition, [])) :
    queryAt pairs (.token (keyword "select") :: .token (keyword "count") :: .token opening ::
        .token (.symbol '*') :: .token closing :: .token (keyword "from") ::
          .token (.word table) :: cs)
      = some (.count table condition) := by
  change countAt _ = _
  rw [countAt]
  simp only [skip_cons, Option.bind_eq_bind, Option.bind_some, nameAt_cons htable, hcondition]
  rfl

/-- `select`. -/
theorem queryAt_select (htable : table ∉ reserved) {columns : List (List Char)}
    (hne : columns ≠ []) (hcolumns : ∀ w ∈ columns, w ∉ reserved) {cs os rs : List Item}
    {condition : Option Expression} {order : List Entry} {range : Option Range}
    (hcondition : conditionAt cs = some (condition, os)) (horder : orderAt os = some (order, rs))
    (hrange : rangeAt pairs rs = some (range, [])) :
    queryAt pairs (.token (keyword "select") ::
        (commaItems (columns.map fun w ↦ [.token (.word w)]) ++
          .token (keyword "from") :: .token (.word table) :: cs))
      = some (.select columns table condition order range) := by
  have hselect : queryAt pairs (.token (keyword "select") ::
        (commaItems (columns.map fun w ↦ [.token (.word w)]) ++
          .token (keyword "from") :: .token (.word table) :: cs))
      = selectAt pairs (commaItems (columns.map fun w ↦ [.token (.word w)]) ++
          .token (keyword "from") :: .token (.word table) :: cs) := by
    obtain ⟨w, ws, rfl⟩ := List.exists_cons_of_ne_nil hne
    rcases ws with _ | ⟨w', ws⟩ <;> rfl
  rw [hselect, selectAt]
  simp only [Option.bind_eq_bind]
  rw [listAt_names hne hcolumns (skip_of_ne (by decide) _)]
  simp only [skip_cons, Option.bind_some, nameAt_cons htable, hcondition, horder, hrange]
  rfl

/-- `update`. -/
theorem queryAt_update (htable : table ∉ reserved) {ι : Type*} {l : List ι} (hl : l ≠ [])
    {w : ι → List Char} (hw : ∀ i ∈ l, w i ∉ reserved) {is : ι → List Item} {e : ι → Expression}
    (h : ∀ i ∈ l, Derives 4 (is i) (e i)) {cs : List Item} {condition : Option Expression}
    (hstops : Stops 4 cs) (hend : skip (.symbol ',') cs = none)
    (hcondition : conditionAt cs = some (condition, [])) :
    queryAt pairs (.token (keyword "update") :: .token (.word table) :: .token (keyword "set") ::
        (commaItems (l.map fun i ↦ .token (.word (w i)) :: .token (.symbol '=') :: is i) ++ cs))
      = some (.update table (l.map fun i ↦ (w i, e i)) condition) := by
  have hlist := listAt_length_eq settingAt (Stops 4) (fun _ ↦ stops_cons (by decide) rfl 4) hl
    (fun i hi ↦ parses_setting (hw i hi) (h i hi)) (by simp) hstops hend
  change updateAt _ = _
  rw [updateAt]
  simp only [skip_cons, Option.bind_eq_bind, Option.bind_some, nameAt_cons htable, hlist,
    hcondition]
  rfl

/-- `delete`. -/
theorem queryAt_delete (htable : table ∉ reserved) {cs : List Item} {condition : Option Expression}
    (hcondition : conditionAt cs = some (condition, [])) :
    queryAt pairs (.token (keyword "delete") :: .token (keyword "from") :: .token (.word table) ::
        cs) = some (.delete table condition) := by
  change deleteAt (.token (keyword "from") :: _) = _
  rw [deleteAt]
  simp only [skip_cons, Option.bind_eq_bind, Option.bind_some, nameAt_cons htable, hcondition]
  rfl

end Kit.Sql
