import OwSec.Framework.ORMConditions
import OwSec.RestApi.SubUsers

/-!
# Values in conditions

A value becomes part of an SQL text in the comparisons of `orm.h` and in the conditions of the
users handlers.  `IsCondition` lists these texts with the tokens that are meant, and
`isCondition_tokens_iff` says when a database reads the one as the other: there is one way of
writing values, and there are two ways of reading literals.
-/

namespace OwSec

open Kit Sql

namespace ORM

variable {q : Quoting}

/-! ## Comparisons -/

/-- The tokens of a comparison. -/
def SqlComparison.tokens : SqlComparison → List Token
  | .eq => [.symbol '=']
  | .neq => [.symbol '!', .symbol '=']
  | .lt => [.symbol '<']
  | .lte => [.symbol '<', .symbol '=']
  | .gt => [.symbol '>']
  | .gte => [.symbol '>', .symbol '=']

/-- A value as it is written. -/
def Operand.sql : Operand → String
  | .bool v => if v then "true" else "false"
  | .int v => toString v
  | .text v => "'" ++ escape v ++ "'"

/-- The tokens of a value. -/
def Operand.tokens : Operand → List Token
  | .bool v => [keyword (if v then "true" else "false")]
  | .int v => sizeTokens v
  | .text v => [.literal v.toList]

/-- Whether a value stands for no condition. -/
def Operand.isEmpty : Operand → Bool
  | .text v => v.isEmpty
  | _ => false

/-- The tokens of a field with its value. -/
def argTokens (a : String × Operand) : List Token :=
  .word (nameChars a.1) :: .symbol '=' :: a.2.tokens

/-- Conditions that all have to hold. -/
def conjunction (tss : List (List Token)) : List Token := [Token.and].intercalate tss

/-- A condition in front of others. -/
theorem conjunction_cons (ts : List Token) {tss : List (List Token)} (hne : tss ≠ []) :
    conjunction (ts :: tss) = ts ++ .and :: conjunction tss := by
  obtain ⟨us, tss, rfl⟩ := List.exists_cons_of_ne_nil hne
  simp [conjunction]

/-- A condition behind others. -/
theorem conjunction_concat {tss : List (List Token)} (hne : tss ≠ []) (ts : List Token) :
    conjunction (tss ++ [ts]) = conjunction tss ++ .and :: ts := by
  induction tss with
  | nil => exact absurd rfl hne
  | cons us tss ih =>
    rcases tss with _ | ⟨vs, tss⟩
    · simp [conjunction]
    · rw [List.cons_append, conjunction_cons us (by simp), ih (List.cons_ne_nil vs tss),
        conjunction_cons us (List.cons_ne_nil vs tss)]
      simp

/-- The characters of a literal. -/
theorem toList_quoted (v : String) : ("'" ++ escape v ++ "'").toList = quoted v.toList := by
  simp [quoted, RestApi.UsersHandler.toList_escape, quote]

theorem IsName.quote_notMem {name : String} (h : IsName name) : quote ∉ name.toList :=
  fun hmem ↦ isWordChar_ne (List.all_eq_true.mp h.2 quote hmem) (by decide) rfl

/-- A field and a comparison. -/
theorem IsName.lexed_comparison {f : String} (h : IsName f) (o : SqlComparison) :
    Lexed q (f.toList ++ (sqlComps o).toList) (.word (nameChars f) :: o.tokens) := by
  have hcomps : Separates (sqlComps o).toList o.tokens := by cases o <;> decide
  have hfield : Lexed q _ _ := h.lexed.glue .nil hcomps
  simpa using hfield

theorem IsName.quote_notMem_comparison {f : String} (h : IsName f) (o : SqlComparison) :
    quote ∉ f.toList ++ (sqlComps o).toList := by
  have hcomps : quote ∉ (sqlComps o).toList := by cases o <;> decide
  simp [hcomps, h.quote_notMem]

/-- `OP` for a text. -/
theorem embeds_opField {db : DB} {f : String} {o : SqlComparison} {v result : String}
    (hf : IsName f) (h : db.opField f o (.text v) = some result) :
    Embeds q result.toList
      (bracketed (.word (nameChars f) :: (o.tokens ++ [.literal v.toList]))) := by
  obtain ⟨-, hresult⟩ := Option.ite_none_right_eq_some.mp h
  obtain rfl := Option.some.inj hresult
  have hquote : quote ∉ ['('] ++ (f.toList ++ (sqlComps o).toList) :=
    List.not_mem_append (by decide) (hf.quote_notMem_comparison o)
  have hfront : Embeds q _ _ := .literal (Lexed.nil.glue (hf.lexed_comparison o) separates_opening) hquote
    (by simp) v.toList
  have hback : Embeds q [')'] [closing] := .code (Lexed.nil.glue .nil separates_closing) (by decide)
    (by simp)
  have hall := hfront.append hback (opens_cons (by decide) _)
  rw [← toList_quoted] at hall
  simpa [bracketed] using hall

/-- A number has no quotes. -/
theorem quote_notMem_toString (v : ℤ) : quote ∉ (toString v).toList := by
  have hdigits (n : ℕ) : quote ∉ Nat.toDigits 10 n := by
    intro hmem
    have hdigit : quote.isDigit = true := Nat.isDigit_of_mem_toDigits (by decide) (by decide) hmem
    revert hdigit
    decide
  cases v with
  | ofNat n =>
    rw [toList_ofNat]
    exact hdigits n
  | negSucc n =>
    rw [toList_negSucc]
    exact List.not_mem_cons_of_ne_of_not_mem (by decide) (hdigits (n + 1))

/-- A value behind the name of its field. -/
theorem embeds_sql {a : List Char} {ts : List Token} (h : Lexed q a ts) (hquote : quote ∉ a)
    (v : Operand) : Embeds q (a ++ ['='] ++ v.sql.toList) (ts ++ [.symbol '='] ++ v.tokens) := by
  have heq : Separates ['='] [.symbol '='] := by decide
  have hfront : quote ∉ a ++ ['='] := List.not_mem_append hquote (by decide)
  cases v with
  | bool v =>
    have hword : Lexed q (Operand.bool v).sql.toList (Operand.bool v).tokens := by
      cases v <;> exact lexed_word (by decide) (by decide)
    have hvalue : quote ∉ (Operand.bool v).sql.toList := by cases v <;> decide
    exact .code (h.glue hword heq) (List.not_mem_append hfront hvalue)
      (by simp)
  | int v =>
    exact .code (h.glue (lexed_size v) heq)
      (List.not_mem_append hfront (quote_notMem_toString v)) (by simp)
  | text v =>
    rw [Operand.sql, toList_quoted]
    have hlexed : Lexed q (a ++ ['=']) (ts ++ [.symbol '=']) := by simpa using h.glue .nil heq
    exact .literal hlexed hfront (by simp) v.toList

/-- A field with its value is at the beginning, or behind other conditions. -/
theorem embeds_arg {f : String} (hf : IsName f) (v : Operand) {result : String}
    {tss : List (List Token)} (h : Embeds q result.toList (conjunction tss))
    (hresult : result = "" ↔ tss = []) :
    Embeds q (result ++ (if result.isEmpty then "" else " and ") ++ f ++ "=" ++ v.sql).toList
      (conjunction (tss ++ [argTokens (f, v)])) := by
  by_cases htss : tss = []
  · obtain rfl := htss
    obtain rfl := hresult.mpr rfl
    have hfirst := embeds_sql (q := q) hf.lexed hf.quote_notMem v
    simpa [conjunction, argTokens] using hfirst
  · have hempty : result.isEmpty = false := by simpa [hresult] using htss
    have hand : Lexed q ['a', 'n', 'd'] [.and] := lexed_word (by decide) (by decide)
    have hfield : Lexed q ([' ', 'a', 'n', 'd', ' '] ++ f.toList) [.and, .word (nameChars f)] := by
      simpa using (Lexed.nil.glue hand separates_blank).glue hf.lexed separates_blank
    have hquote : quote ∉ [' ', 'a', 'n', 'd', ' '] ++ f.toList :=
      List.not_mem_append (by decide) hf.quote_notMem
    have hnext := h.append (embeds_sql hfield hquote v) (opens_cons (by decide) _)
    rw [conjunction_concat htss, hempty]
    simpa [argTokens] using hnext

/-- The conditions that are put behind others. -/
theorem embeds_whereAnd_ {args : List (String × Operand)} (hargs : ∀ a ∈ args, IsName a.1)
    {result : String} {tss : List (List Token)} (h : Embeds q result.toList (conjunction tss))
    (hresult : result = "" ↔ tss = []) :
    Embeds q (whereAnd_ result args).toList
      (conjunction (tss ++ (args.filter fun a ↦ !a.2.isEmpty).map argTokens)) := by
  induction args generalizing result tss with
  | nil => simpa [whereAnd_] using h
  | cons a args ih =>
    obtain ⟨hf, hrest⟩ := List.forall_mem_cons.mp hargs
    obtain ⟨f, v⟩ := a
    by_cases hv : v.isEmpty = true
    · cases v with
      | text v =>
        have hskip : whereAnd_ result ((f, .text v) :: args) = whereAnd_ result args := if_pos hv
        rw [hskip, List.filter_cons_of_neg (by simp [hv])]
        exact ih hrest h hresult
      | bool v => cases hv
      | int v => cases hv
    · have hput : whereAnd_ result ((f, v) :: args) = whereAnd_
          (result ++ (if result.isEmpty then "" else " and ") ++ f ++ "=" ++ v.sql) args := by
        cases v with
        | text v => exact (if_neg hv).trans (by simp only [Operand.sql, String.append_assoc])
        | bool v => rfl
        | int v => rfl
      have hstep := ih hrest (embeds_arg hf v h hresult) (by simp)
      rw [hput, List.filter_cons_of_pos (by simp [hv]), List.map_cons]
      simpa using hstep

/-- `WHERE_AND`. -/
theorem embeds_whereAnd {args : List (String × Operand)} (hargs : ∀ a ∈ args, IsName a.1) :
    Embeds q (whereAnd args).toList
      (conjunction ((args.filter fun a ↦ !a.2.isEmpty).map argTokens)) := by
  have hnone : Embeds q "".toList (conjunction []) := .nil
  exact embeds_whereAnd_ hargs hnone (by simp)

end ORM

namespace RestApi

open ORM

variable {q : Quoting}

/-! ## The users handlers -/

/-- The tokens of `Lower(column) like('%value%')`. -/
def searchTokens (column value : String) : List Token :=
  [keyword "lower", opening, keyword column, closing, .like, opening,
    .literal ('%' :: (toLower value).toList ++ ['%']), closing]

/-- The tokens of the conditions that the search parameters ask for. -/
def queryTokens (nameSearch emailSearch : String) : List (List Token) :=
  (if nameSearch.isEmpty then [] else [searchTokens "name" nameSearch]) ++
    if emailSearch.isEmpty then [] else [searchTokens "email" emailSearch]

/-- The tokens of `column='value'`. -/
def equalTokens (column value : String) : List Token :=
  [keyword column, .symbol '=', .literal value.toList]

/-- A search, behind fixed text. -/
theorem embeds_search {front : String} {ts : List Token} (h : Lexed q front.toList ts)
    (hquote : quote ∉ front.toList) (hne : front ≠ "") (value : String) :
    Embeds q (front ++ "'%" ++ escape value ++ "%') ").toList
      (ts ++ [.literal ('%' :: value.toList ++ ['%']), closing]) := by
  have hfront : Embeds q _ _ := .literal h hquote (by simpa using hne) ('%' :: value.toList ++ ['%'])
  have hback : Embeds q [')', ' '] [closing] :=
    .code (Lexed.nil.glue .nil (by decide : Separates [')', ' '] [closing])) (by decide) (by simp)
  have hall := hfront.append hback (opens_cons (by decide) _)
  simpa [quoted, UsersHandler.toList_escape, Sql.escape, quote] using hall

/-- A comparison with a text, and what may stand behind it. -/
theorem embeds_equal {front column : String} (h : Lexed q front.toList [keyword column, .symbol '='])
    (hquote : quote ∉ front.toList) (hne : front ≠ "") (value : String) :
    Embeds q (front ++ "'" ++ escape value ++ "'").toList (equalTokens column value) := by
  have hvalue := Embeds.literal h hquote (by simpa using hne) value.toList
  rw [← toList_quoted] at hvalue
  simpa [equalTokens] using hvalue

/-- A blank behind other text. -/
theorem embeds_blank {a : List Char} {ts : List Token} (h : Embeds q a ts) :
    Embeds q (a ++ [' ']) ts := by
  have hblank : Embeds q [' '] [] :=
    .code (Lexed.nil.glue .nil separates_blank) (by decide) (by simp)
  simpa using h.append hblank (opens_cons (by decide) _)

/-- Two conditions that both have to hold. -/
theorem embeds_and {a b : List Char} {ts us : List Token} (ha : Embeds q a ts) (hb : Embeds q b us)
    (hopens : Opens b) : Embeds q (a ++ " and ".toList ++ b) (ts ++ .and :: us) := by
  have hlexed : Lexed q " and ".toList [.and] := by cases q <;> exact .of_any (by decide) (by decide)
  have hand : Embeds q " and ".toList [.and] := .code hlexed (by decide) (by decide)
  simpa using (ha.append hand (opens_cons (by decide) _)).append hb hopens

/-- The condition for the search parameters. -/
theorem embeds_baseQuery (nameSearch emailSearch : String) :
    Embeds q (UsersHandler.baseQuery nameSearch emailSearch).toList
      (conjunction (queryTokens nameSearch emailSearch)) := by
  have hname : Lexed q " Lower(name) like(".toList
      [keyword "lower", opening, keyword "name", closing, .like, opening] := by
    cases q <;> exact .of_any (by decide) (by decide)
  have hemail : Lexed q " Lower(email) like(".toList
      [keyword "lower", opening, keyword "email", closing, .like, opening] := by
    cases q <;> exact .of_any (by decide) (by decide)
  have hand : Lexed q " and Lower(email) like(".toList
      [.and, keyword "lower", opening, keyword "email", closing, .like, opening] := by
    cases q <;> exact .of_any (by decide) (by decide)
  have hnames := embeds_search hname (by decide) (by decide) (toLower nameSearch)
  have hemails := embeds_search hemail (by decide) (by decide) (toLower emailSearch)
  have hands := embeds_search hand (by decide) (by decide) (toLower emailSearch)
  have hopens : Opens (" and Lower(email) like(" ++ "'%" ++ escape (toLower emailSearch) ++
      "%') ").toList := by
    have hblank : isDelimiter ' ' = true := by decide
    simp [Opens, hblank]
  unfold UsersHandler.baseQuery queryTokens
  by_cases hn : nameSearch.isEmpty
  · by_cases he : emailSearch.isEmpty
    · simpa [hn, he, conjunction] using Embeds.nil
    · simpa [hn, he, conjunction, searchTokens] using hemails
  · by_cases he : emailSearch.isEmpty
    · simpa [hn, he, conjunction, searchTokens] using hnames
    · have hboth := hnames.append hands hopens
      simpa [hn, he, conjunction, searchTokens] using hboth

/-- The condition begins with a blank. -/
theorem opens_baseQuery (nameSearch emailSearch : String) :
    Opens (UsersHandler.baseQuery nameSearch emailSearch).toList := by
  have hblank : isDelimiter ' ' = true := by decide
  unfold UsersHandler.baseQuery
  by_cases hn : nameSearch.isEmpty <;> by_cases he : emailSearch.isEmpty <;>
    simp [Opens, hn, he, hblank]

/-- A condition in front of the one for the search parameters. -/
theorem embeds_and_baseQuery {a : List Char} {ts : List Token} (ha : Embeds q a ts)
    {nameSearch emailSearch : String} (h : UsersHandler.baseQuery nameSearch emailSearch ≠ "") :
    Embeds q (a ++ " and ".toList ++ (UsersHandler.baseQuery nameSearch emailSearch).toList)
      (conjunction (ts :: queryTokens nameSearch emailSearch)) := by
  have hall := embeds_and ha (embeds_baseQuery nameSearch emailSearch) (opens_baseQuery _ _)
  have hne : queryTokens nameSearch emailSearch ≠ [] := by
    intro hnone
    refine h ?_
    obtain ⟨hname, hemail⟩ := List.append_eq_nil_iff.mp hnone
    simp_all [UsersHandler.baseQuery]
  rw [conjunction_cons ts hne]
  exact hall

/-- Without search parameters there is no condition for them. -/
theorem queryTokens_eq_nil {nameSearch emailSearch : String}
    (h : UsersHandler.baseQuery nameSearch emailSearch = "") :
    queryTokens nameSearch emailSearch = [] := by
  unfold UsersHandler.baseQuery at h
  unfold queryTokens
  by_cases hn : nameSearch.isEmpty <;> by_cases he : emailSearch.isEmpty <;> simp_all

/-- The condition of an `ADMIN`. -/
theorem embeds_scopedQuery (caller : SecurityObjects.UserInfo) (nameSearch emailSearch : String) :
    Embeds q (UsersHandler.scopedQuery caller
        (UsersHandler.baseQuery nameSearch emailSearch)).toList
      (conjunction (equalTokens "createdby" caller.id :: queryTokens nameSearch emailSearch)) := by
  have hcolumn : Lexed q " createdby=".toList [keyword "createdby", .symbol '='] := by
    cases q <;> exact .of_any (by decide) (by decide)
  have hscope := embeds_blank (embeds_equal hcolumn (by decide) (by decide) caller.id)
  unfold UsersHandler.scopedQuery
  by_cases hquery : UsersHandler.baseQuery nameSearch emailSearch = ""
  · rw [queryTokens_eq_nil hquery]
    simpa [hquery, conjunction] using hscope
  · have hall := embeds_and_baseQuery hscope hquery
    simpa [hquery] using hall

/-- A valid identifier has no quotes. -/
theorem escape_of_validUUID {uuid : String} (h : validUUID uuid = true) : escape uuid = uuid := by
  simp only [validUUID, Bool.and_eq_true, List.all_eq_true] at h
  obtain ⟨⟨-, hall⟩, -⟩ := h
  have hkeep : ∀ s : List Char, (∀ c ∈ s, c ≠ quote) → Sql.escape s = s := by
    intro s hs
    induction s with
    | nil => rfl
    | cons c s ih =>
      obtain ⟨hc, hs⟩ := List.forall_mem_cons.mp hs
      rw [escape_cons_of_ne hc, ih hs]
  have hne : ∀ c ∈ uuid.toList, c ≠ quote := by
    rintro c hc rfl
    have hhex := hall quote hc
    revert hhex
    decide
  rw [escape, hkeep _ hne, String.ofList_toList]

/-- The condition for an operator. -/
theorem embeds_whereClause {r : Request} {clause : String}
    (h : SubUsersHandler.whereClause r = some clause) :
    Embeds q clause.toList (conjunction (equalTokens "owner" (r.getParameter "operatorId") ::
      queryTokens (r.getParameter "nameSearch") (r.getParameter "emailSearch"))) := by
  have hcolumn : Lexed q " owner=".toList [keyword "owner", .symbol '='] := by
    cases q <;> exact .of_any (by decide) (by decide)
  obtain ⟨hvalid, hclause⟩ := Option.ite_none_right_eq_some.mp h
  obtain rfl := Option.some.inj hclause
  have howner := embeds_equal (q := q) hcolumn (by decide) (by decide) (r.getParameter "operatorId")
  rw [escape_of_validUUID (Bool.and_eq_true _ _ ▸ hvalid).2] at howner
  split
  · next hquery =>
    rw [queryTokens_eq_nil (by simpa using hquery)]
    have hall := embeds_blank howner
    simpa [conjunction] using hall
  · next hquery =>
    have hall := embeds_and_baseQuery howner (by simpa using hquery)
    simpa using hall

/-! ## How the conditions are read -/

/-- The texts that values become part of, with the tokens that are meant.  The names of columns
need no quoting. -/
inductive IsCondition : String → List Token → Prop
  /-- `OP` with a field, a comparison and a text. -/
  | op {db : DB} {f : String} {o : SqlComparison} {v result : String} (hf : IsName f)
      (h : db.opField f o (.text v) = some result) :
      IsCondition result (bracketed (.word (nameChars f) :: (o.tokens ++ [.literal v.toList])))
  /-- `WHERE_AND` with fields and their values. -/
  | whereAnd {args : List (String × ORM.Operand)} (hargs : ∀ a ∈ args, IsName a.1) :
      IsCondition (whereAnd args)
        (conjunction ((args.filter fun a ↦ !a.2.isEmpty).map argTokens))
  /-- The users handler, for a caller who sees everybody. -/
  | users (nameSearch emailSearch : String) :
      IsCondition (UsersHandler.baseQuery nameSearch emailSearch)
        (conjunction (queryTokens nameSearch emailSearch))
  /-- The users handler, for an `ADMIN`. -/
  | admin (caller : SecurityObjects.UserInfo) (nameSearch emailSearch : String) :
      IsCondition
        (UsersHandler.scopedQuery caller (UsersHandler.baseQuery nameSearch emailSearch))
        (conjunction (equalTokens "createdby" caller.id :: queryTokens nameSearch emailSearch))
  /-- The subscribers handler, for an operator. -/
  | subUsers {r : Request} {clause : String} (h : SubUsersHandler.whereClause r = some clause) :
      IsCondition clause
        (conjunction (equalTokens "owner" (r.getParameter "operatorId") ::
          queryTokens (r.getParameter "nameSearch") (r.getParameter "emailSearch")))

/-- A database reads each value as one literal, and nothing else in its place, when its literals
keep the values, and only then. -/
theorem isCondition_tokens_iff (type : DBType) {text : String} {ts : List Token}
    (h : IsCondition text ts) :
    type.quoting.tokens text.toList = some ts ↔
      ∀ v, .literal v ∈ ts → type.quoting.Keeps v := by
  refine Embeds.tokens_eq_iff ?_
  cases h with
  | op hf h => exact embeds_opField hf h
  | whereAnd hargs => exact embeds_whereAnd hargs
  | users nameSearch emailSearch => exact embeds_baseQuery nameSearch emailSearch
  | admin caller nameSearch emailSearch => exact embeds_scopedQuery caller nameSearch emailSearch
  | subUsers h => exact embeds_whereClause h

/-- A value with a quote, which MySQL keeps. -/
theorem isCondition_quote :
    DBType.mysql.quoting.tokens (whereAnd [("name", .text (String.ofList ['O', quote, 'N']))]).toList
      = some (conjunction [argTokens ("name", .text (String.ofList ['O', quote, 'N']))]) := by
  refine (isCondition_tokens_iff .mysql (.whereAnd (by simp; decide))).mpr ?_
  intro v hv
  change .literal v ∈ conjunction [argTokens ("name", .text (String.ofList ['O', quote, 'N']))] at hv
  obtain rfl : v = ['O', quote, 'N'] := by simpa [conjunction, argTokens, ORM.Operand.tokens] using hv
  simp [DBType.quoting, Quoting.Keeps, PatternEscapes]
  decide

/-- A backslash at the end of a value is in front of the quote that should end the literal. -/
theorem whereAnd_backslash :
    whereAnd [("name", .text (String.ofList [backslash]))] =
        String.ofList ("name=".toList ++ [quote, backslash, quote]) ∧
      DBType.mysql.quoting.tokens ("name=".toList ++ [quote, backslash, quote]) = none := by
  decide

end RestApi

end OwSec
