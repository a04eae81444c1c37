import OwSec.RestApi.QueryLiterals
import OwSec.Storage.Conditions

/-!
# Listings

What the users handlers list and count, from the conditions that they make of a request to the
rows.  The text of a condition goes through `GetRecords` and `Count` of `framework/orm.h`, and is
read by a database as any statement is; the users that come back are those of the stores.
-/

namespace OwSec.RestApi

open SecurityObjects Kit Sql ORM UsersHandler

/-! ## Conjunctions -/

section Tests

variable {E : Engine} {fields : List Field} {ρ : Type} {c : RecordTuple fields ρ}

/-- Tokens of a comparison, and the records of which it is true. -/
structure IsTest (E : Engine) (c : RecordTuple fields ρ) (ts : List Sql.Token) (p : ρ → Bool) :
    Prop where
  plain : ∀ t ∈ ts, ORM.Plain t
  exists_expression : ∃ e, Derives 2 (ts.map .token) e ∧
    ∀ r, c.satisfies E (some e) r = some (p r)

/-- Tests that all have to be passed. -/
theorem exists_conjunction {tests : List (List Sql.Token × (ρ → Bool))} (hne : tests ≠ [])
    (h : ∀ test ∈ tests, IsTest E c test.1 test.2) :
    (∀ t ∈ conjunction (tests.map Prod.fst), ORM.Plain t) ∧
      ∃ e, Derives 3 ((conjunction (tests.map Prod.fst)).map .token) e ∧
        ∀ r, c.satisfies E (some e) r = some (tests.all fun test ↦ test.2 r) := by
  induction tests with
  | nil => exact absurd rfl hne
  | cons test tests ih =>
    obtain ⟨htest, htests⟩ := List.forall_mem_cons.mp h
    obtain ⟨l, hl, hlp⟩ := htest.exists_expression
    rcases tests with _ | ⟨test', tests⟩
    · refine ⟨by simpa [conjunction] using htest.plain, l, ?_, fun r ↦ ?_⟩
      · simpa [conjunction] using hl.ascend
      · simpa using hlp r
    · obtain ⟨hplain, e, he, hep⟩ := ih (List.cons_ne_nil _ _) htests
      have hcons : conjunction ((test :: test' :: tests).map Prod.fst)
          = test.1 ++ .and :: conjunction ((test' :: tests).map Prod.fst) :=
        conjunction_cons _ (List.cons_ne_nil _ _)
      have hboth : Derives 3 _ _ := .binary (o := .and) hl he
      refine ⟨?_, .binary .and l e, ?_, fun r ↦ ?_⟩
      · rw [hcons, List.forall_mem_append, List.forall_mem_cons]
        exact ⟨htest.plain, by decide, hplain⟩
      · rw [hcons]
        simpa [Operator.tokens] using hboth
      · exact Expression.holds_and (hlp r) (hep r)

/-- A text of such tests selects the records that pass them. -/
theorem selects_conjunction {type : DBType} {tests : List (List Sql.Token × (ρ → Bool))}
    (h : ∀ test ∈ tests, IsTest E c test.1 test.2) {text : String}
    (htext : Embeds type.quoting text.toList (conjunction (tests.map Prod.fst)))
    (hempty : tests = [] → text = "")
    (hkeeps : ∀ v, .literal v ∈ conjunction (tests.map Prod.fst) → type.quoting.Keeps v)
    (rs : List ρ) :
    Selects E c type text rs fun r ↦ tests.all fun test ↦ test.2 r := by
  by_cases hne : tests = []
  · rw [hempty hne, hne]
    exact ⟨none, .empty, fun _ _ ↦ rfl⟩
  · obtain ⟨hplain, e, he, hep⟩ := exists_conjunction hne h
    exact ⟨some e, .expression ⟨_, ⟨htext.lexed hkeeps, hplain⟩, he.ascend⟩, fun r _ ↦ hep r⟩

end Tests

/-! ## The conditions of the handlers -/

/-- An engine has the functions of a dialect. -/
structure Speaks (E : Engine) (d : Dialect) : Prop where
  lower : ∀ s, E.call "lower".toList (.text s) = some (.text (d.lower s))
  like : ∀ s t, E.compare .like (.text s) (.text t) = some (d.like s t)

section Handlers

variable {E : Engine} {svc : Service} {c : RecordTuple RecordClass.user.fields UserInfo}

/-- The columns that the conditions name. -/
structure Columns (c : RecordTuple RecordClass.user.fields UserInfo) : Prop where
  name : ∀ u, c.column "name".toList u = some (.text u.name)
  email : ∀ u, c.column "email".toList u = some (.text u.email)
  createdBy : ∀ u, c.column "createdby".toList u = some (.text u.createdBy)
  owner : ∀ u, c.column "owner".toList u = some (.text u.owner)

/-- A search. -/
theorem isTest_search (hspeaks : Speaks E svc.dialect) {column : String}
    (hcolumn : IsIdentifier column.toList) {field : UserInfo → String}
    (hfield : ∀ u, c.column column.toList u = some (.text (field u))) (value : String) :
    IsTest E c (searchTokens column value)
      fun u ↦
        svc.dialect.like (svc.dialect.lower (field u)) ("%" ++ toLower value ++ "%") := by
  have hpattern : String.ofList ('%' :: (toLower value).toList ++ ['%'])
      = "%" ++ toLower value ++ "%" := by
    rw [← String.toList_inj]
    simp
  have hlower : "lower".toList ∉ reserved := by decide
  have hcall : Derives 1 _ _ := (Derives.call hlower
    ((derives_column hcolumn).mono (by decide))).ascend
  have htext : Derives 1 _ _ := (Derives.enclosed
    ((derives_text ('%' :: (toLower value).toList ++ ['%'])).mono (by decide))).ascend
  refine ⟨by simp [searchTokens, ORM.Plain, keyword, opening, closing, Sql.Token.like], _,
    derives_compare .like hcall htext, fun u ↦ ?_⟩
  have hleft : (Expression.call "lower".toList (.column column.toList)).eval E []
      (c.column · u)
        = some (.text (svc.dialect.lower (field u))) := by
    have hcolumn : (Expression.column column.toList).eval E []
        (c.column · u)
          = some (.text (field u)) := hfield u
    rw [Expression.eval, hcolumn, Option.bind_some, hspeaks.lower]
  have hright : (Expression.value (.text (String.ofList
      ('%' :: (toLower value).toList ++ ['%'])))).eval E []
        (c.column · u)
          = some (.text ("%" ++ toLower value ++ "%")) := by
    rw [hpattern]
    rfl
  exact (Expression.holds_compare hleft hright).trans (hspeaks.like _ _)

/-- A comparison with a value. -/
theorem isTest_equal (hexact : E.Exact) {column : String} (hcolumn : IsIdentifier column.toList)
    {field : UserInfo → String}
    (hfield : ∀ u, c.column column.toList u = some (.text (field u))) (value : String) :
    IsTest E c (equalTokens column value)
      fun u ↦ field u == value := by
  have hderives := derives_compare .eq (derives_column hcolumn) (derives_text value.toList)
  rw [String.ofList_toList] at hderives
  exact ⟨by simp [equalTokens, ORM.Plain, keyword], _, hderives, fun u ↦
    StoreCondition.satisfies_text hexact (hfield u) value⟩

/-- The tests that the search parameters ask for. -/
def searchTests (svc : Service) (nameSearch emailSearch : String) :
    List (List Sql.Token × (UserInfo → Bool)) :=
  (if nameSearch.isEmpty then []
    else [(searchTokens "name" nameSearch, fun u ↦
      svc.dialect.like (svc.dialect.lower u.name) ("%" ++ toLower nameSearch ++ "%"))]) ++
  if emailSearch.isEmpty then []
    else [(searchTokens "email" emailSearch, fun u ↦
      svc.dialect.like (svc.dialect.lower u.email) ("%" ++ toLower emailSearch ++ "%"))]

theorem map_fst_searchTests (svc : Service) (nameSearch emailSearch : String) :
    (searchTests svc nameSearch emailSearch).map Prod.fst = queryTokens nameSearch emailSearch := by
  unfold searchTests queryTokens
  by_cases hn : nameSearch.isEmpty <;> by_cases he : emailSearch.isEmpty <;> simp [hn, he]

theorem all_searchTests (nameSearch emailSearch : String) (u : UserInfo) :
    (searchTests svc nameSearch emailSearch).all (fun test ↦ test.2 u)
      = matchesSearch svc nameSearch emailSearch u := by
  unfold searchTests matchesSearch
  by_cases hn : nameSearch.isEmpty <;> by_cases he : emailSearch.isEmpty <;> simp [hn, he]

/-- The searches are tests. -/
theorem isTest_of_mem (hspeaks : Speaks E svc.dialect) (hc : Columns c)
    {nameSearch emailSearch : String} :
    ∀ test ∈ searchTests svc nameSearch emailSearch,
      IsTest E c test.1 test.2 := by
  have hname : IsTest E c
      (searchTokens "name" nameSearch) fun u ↦
        svc.dialect.like (svc.dialect.lower u.name) ("%" ++ toLower nameSearch ++ "%") :=
    isTest_search hspeaks (by decide) hc.name nameSearch
  have hemail : IsTest E c
      (searchTokens "email" emailSearch) fun u ↦
        svc.dialect.like (svc.dialect.lower u.email) ("%" ++ toLower emailSearch ++ "%") :=
    isTest_search hspeaks (by decide) hc.email emailSearch
  unfold searchTests
  by_cases hn : nameSearch.isEmpty <;> by_cases he : emailSearch.isEmpty <;>
    simp [hn, he, hname, hemail]

/-- The text of the operator's condition is one comparison, whatever the value is. -/
theorem reads_owner (value : String) :
    Sql.Reads (" owner='" ++ escape value ++ "' ").toList
      [.equal (.column "owner".toList) (.text value.toList)] := by
  have hbefore : Sql.scan .between " owner='".toList =
      ([.word "owner".toList, .symbol '='], .literal []) := by decide
  have hafter (t : List Char) :
      Sql.scan (.literal t) "' ".toList = ([.literal (t ++ [])], .between) := by
    rw [List.append_nil]
    rfl
  rw [String.toList_append, String.toList_append, toList_escape]
  refine ⟨_, Sql.scan_quoted hbefore hafter _, ?_⟩
  rw [List.nil_append, List.append_nil]
  exact .one rfl (by simp [Sql.Token.and]) (by simp [Sql.Token.or])

/-- The condition of an operator selects the operator's subscribers that match the search. -/
theorem condition_whereClause (svc : Service) {r : Request} {clause : String}
    (h : SubUsersHandler.whereClause r = some clause) :
    Sql.condition svc.dialect Population.userColumns clause.toList =
      some fun u ↦ u.owner == r.getParameter "operatorId" &&
        matchesSearch svc (r.getParameter "nameSearch") (r.getParameter "emailSearch") u := by
  obtain ⟨hvalid, hclause⟩ := Option.ite_none_right_eq_some.mp h
  have howner := reads_owner (r.getParameter "operatorId")
  rw [escape_of_validUUID (Bool.and_eq_true _ _ ▸ hvalid).2] at howner
  have hreads : Sql.Reads clause.toList
      (.equal (.column "owner".toList) (.text (r.getParameter "operatorId").toList) ::
        searchComparisons (r.getParameter "nameSearch") (r.getParameter "emailSearch")) := by
    by_cases hq : baseQuery (r.getParameter "nameSearch") (r.getParameter "emailSearch") = ""
    · have hnone : searchComparisons (r.getParameter "nameSearch") (r.getParameter "emailSearch")
          = [] := by
        unfold baseQuery at hq
        unfold searchComparisons
        by_cases hn : (r.getParameter "nameSearch").isEmpty <;>
          by_cases he : (r.getParameter "emailSearch").isEmpty <;> simp_all
      rw [hnone, ← Option.some.inj hclause]
      simpa [hq] using howner
    · have hand : Sql.scan .between "and ".toList = ([.and], .between) := by decide
      have hboth := howner.and (reads_baseQuery hq) hand
      rw [← Option.some.inj hclause]
      simpa [hq] using hboth
  obtain ⟨ps, hps, hall⟩ := evalBranch_searchComparisons svc (r.getParameter "nameSearch")
    (r.getParameter "emailSearch")
  have heval : Sql.evalBranch svc.dialect Population.userColumns
      (.equal (.column "owner".toList) (.text (r.getParameter "operatorId").toList) ::
        searchComparisons (r.getParameter "nameSearch") (r.getParameter "emailSearch"))
      = some ((fun u ↦ u.owner == r.getParameter "operatorId") :: ps) := by
    rw [Sql.evalBranch, List.mapM_cons]
    unfold Sql.evalBranch at hps
    rw [hps]
    have hcolumn : Sql.Schema.column Population.userColumns "owner".toList =
        some UserInfo.owner := rfl
    simp [-String.reduceToList, Sql.Comparison.eval, Sql.Operand.eval, hcolumn]
  rw [hreads.condition_eq svc.dialect Population.userColumns heval]
  refine congrArg some (funext fun u ↦ ?_)
  rw [List.all_cons, hall]

/-- The conditions that the handlers make of a request, with the tokens that are meant and the
users that are listed. -/
inductive Lists (svc : Service) : String → List Sql.Token → (UserInfo → Bool) → Prop
  /-- The users handler, for a caller who sees everybody. -/
  | users (nameSearch emailSearch : String) :
    Lists svc (baseQuery nameSearch emailSearch) (conjunction (queryTokens nameSearch emailSearch))
      (matchesSearch svc nameSearch emailSearch)
  /-- The users handler, for an `ADMIN`. -/
  | admin (caller : UserInfo) (nameSearch emailSearch : String) :
    Lists svc (scopedQuery caller (baseQuery nameSearch emailSearch))
      (conjunction (equalTokens "createdby" caller.id :: queryTokens nameSearch emailSearch))
      fun u ↦ u.createdBy == caller.id && matchesSearch svc nameSearch emailSearch u
  /-- The subscribers handler, for an operator. -/
  | subUsers {r : Request} {clause : String} (h : SubUsersHandler.whereClause r = some clause) :
    Lists svc clause (conjunction (equalTokens "owner" (r.getParameter "operatorId") ::
        queryTokens (r.getParameter "nameSearch") (r.getParameter "emailSearch")))
      fun u ↦ u.owner == r.getParameter "operatorId" &&
        matchesSearch svc (r.getParameter "nameSearch") (r.getParameter "emailSearch") u

variable {text : String} {ts : List Sql.Token} {p : UserInfo → Bool}

/-- A comparison in front of a search selects the users that pass both. -/
theorem selects_scoped (hexact : E.Exact) (hspeaks : Speaks E svc.dialect) (hc : Columns c) {type : DBType}
    {column : String} (hcolumn : IsIdentifier column.toList) {field : UserInfo → String}
    (hfield : ∀ u, c.column column.toList u = some (.text (field u)))
    (value nameSearch emailSearch : String)
    (htext : Embeds type.quoting text.toList
      (conjunction (equalTokens column value :: queryTokens nameSearch emailSearch)))
    (hkeeps : ∀ v, .literal v ∈ conjunction (equalTokens column value ::
      queryTokens nameSearch emailSearch) → type.quoting.Keeps v) (rs : List UserInfo) :
    Selects E c type text rs
      fun u ↦ field u == value && matchesSearch svc nameSearch emailSearch u := by
  have htests : ∀ test ∈ (equalTokens column value, fun u ↦ field u == value) ::
      searchTests svc nameSearch emailSearch,
        IsTest E c test.1 test.2 :=
    List.forall_mem_cons.mpr ⟨isTest_equal hexact hcolumn hfield value, isTest_of_mem hspeaks hc⟩
  have htokens : ((equalTokens column value, fun u ↦ field u == value) ::
      searchTests svc nameSearch emailSearch).map Prod.fst
        = equalTokens column value :: queryTokens nameSearch emailSearch := by
    rw [List.map_cons, map_fst_searchTests]
  have hs := selects_conjunction htests (htokens ▸ htext) (by simp) (htokens ▸ hkeeps) rs
  simpa only [List.all_cons, all_searchTests] using hs

/-- The text of a condition selects the users that are listed. -/
theorem Lists.selects (hexact : E.Exact) (hspeaks : Speaks E svc.dialect) (hc : Columns c)
    (h : Lists svc text ts p)
    {type : DBType} (hkeeps : ∀ v, .literal v ∈ ts → type.quoting.Keeps v) (rs : List UserInfo) :
    Selects E c type text rs p := by
  cases h with
  | users nameSearch emailSearch =>
    have htokens := map_fst_searchTests svc nameSearch emailSearch
    have htext : Embeds type.quoting (baseQuery nameSearch emailSearch).toList _ :=
      embeds_baseQuery nameSearch emailSearch
    have hempty (hnone : searchTests svc nameSearch emailSearch = []) :
        baseQuery nameSearch emailSearch = "" := by
      unfold searchTests at hnone
      unfold baseQuery
      by_cases hn : nameSearch.isEmpty <;> by_cases he : emailSearch.isEmpty <;> simp_all
    rw [← htokens] at htext hkeeps
    have hs := selects_conjunction (isTest_of_mem hspeaks hc) htext hempty hkeeps rs
    simpa only [all_searchTests] using hs
  | admin caller nameSearch emailSearch =>
    exact selects_scoped hexact hspeaks hc (by decide) hc.createdBy _ _ _
      (embeds_scopedQuery caller nameSearch emailSearch) hkeeps rs
  | subUsers h =>
    exact selects_scoped hexact hspeaks hc (by decide) hc.owner _ _ _ (embeds_whereClause h)
      hkeeps rs

/-- The condition of the stores. -/
theorem Lists.condition (h : Lists svc text ts p) :
    text = "" ∧ (∀ u, p u = true) ∨
      text ≠ "" ∧ Sql.condition svc.dialect Population.userColumns text.toList = some p := by
  cases h with
  | users nameSearch emailSearch =>
    by_cases hq : baseQuery nameSearch emailSearch = ""
    · refine .inl ⟨hq, fun u ↦ ?_⟩
      unfold baseQuery at hq
      unfold matchesSearch
      by_cases hn : nameSearch.isEmpty <;> by_cases he : emailSearch.isEmpty <;> simp_all
    · exact .inr ⟨hq, condition_baseQuery svc hq⟩
  | admin caller nameSearch emailSearch =>
    refine .inr ⟨?_, condition_scopedQuery svc caller nameSearch emailSearch⟩
    unfold scopedQuery
    split <;> simp
  | subUsers h =>
    refine .inr ⟨?_, condition_whereClause svc h⟩
    obtain ⟨-, hclause⟩ := Option.ite_none_right_eq_some.mp h
    rw [← Option.some.inj hclause]
    split <;> simp

/-- The users that the stores get. -/
theorem Lists.getUsers_eq (h : Lists svc text ts p) (q : Population) (offset howMany : ℕ) :
    q.getUsers svc offset howMany text =
      if offset < 2 ^ 63 ∧ howMany < 2 ^ 63 then
        (!(((q.users.rows.filter p).drop offset).take howMany).isEmpty,
          ((q.users.rows.filter p).drop offset).take howMany)
      else (false, []) := by
  rw [Population.getUsers, Sql.select]
  by_cases hrange : offset < 2 ^ 63 ∧ howMany < 2 ^ 63
  · rw [if_pos hrange, if_pos hrange]
    rcases h.condition with ⟨rfl, hp⟩ | ⟨hne, hcondition⟩
    · obtain rfl : p = fun _ ↦ true := funext hp
      rfl
    · have hempty : text.toList.isEmpty = false := by simpa using hne
      rw [hempty, if_neg Bool.false_ne_true, hcondition]
      rfl
  · rw [if_neg hrange, if_neg hrange]

/-- The users that the stores count. -/
theorem Lists.count_eq (h : Lists svc text ts p) (q : Population) :
    q.count svc text = (q.users.rows.filter p).length := by
  rw [Population.count]
  rcases h.condition with ⟨rfl, hp⟩ | ⟨hne, hcondition⟩
  · obtain rfl : p = fun _ ↦ true := funext hp
    simp
  · have hempty : text.isEmpty = false := by simpa using hne
    rw [hempty, if_neg Bool.false_ne_true, hcondition]

end Handlers

/-- On every database, the users that the statements of a listing get and count are those of the
stores, whatever is searched for, as long as the values of the condition are kept. -/
theorem listing_eq {E : Engine} (hexact : E.Exact) {svc : Service} (hspeaks : Speaks E svc.dialect)
    {lib : JsonLibrary} {condense : Json → String} (hlib : lib.Converts)
    (hempty : lib.parse "[]" = some (.arr [])) (type : DBType) (isSub : Bool) :
    ∃ db, (StoreTable.users isSub).new type = some db ∧
      ∀ text ts p, Lists svc text ts p → (∀ v, .literal v ∈ ts → type.quoting.Keeps v) →
        ∀ q : Population, (∀ u ∈ q.users.rows, RecordClass.Kept lib condense .user u) →
          (∀ offset howMany,
            db.getRecords E (RecordClass.user.tuple lib condense hlib hempty) offset howMany text ""
                (stored (StoreTable.users isSub).tableName
                  (RecordClass.user.tuple lib condense hlib hempty) q.users.rows)
              = q.getUsers svc offset howMany text) ∧
          db.count E text (stored (StoreTable.users isSub).tableName
              (RecordClass.user.tuple lib condense hlib hempty) q.users.rows)
            = q.count svc text := by
  obtain ⟨db, hdb⟩ := (StoreTable.users isSub).exists_new type
  refine ⟨db, hdb, fun text ts p h hkeeps q hkept ↦ ?_⟩
  have hc : Columns (RecordClass.user.tuple lib condense hlib hempty) :=
    ⟨fun _ ↦ rfl, fun _ ↦ rfl, fun _ ↦ rfl, fun _ ↦ rfl⟩
  have hs : Selects E (RecordClass.user.tuple lib condense hlib hempty) type text q.users.rows p :=
    h.selects hexact hspeaks hc hkeeps q.users.rows
  have htable := (StoreTable.users isSub).tabular
  refine ⟨fun offset howMany ↦ ?_, ?_⟩
  · exact (htable.getRecords_unordered hdb hkept hs offset howMany).trans
      (h.getUsers_eq q offset howMany).symm
  · exact (htable.count_eq hdb hs).trans (h.count_eq q).symm

/-- The engine of the sample service. -/
theorem speaks_sampleStoreEngine : Speaks sampleStoreEngine Service.sample.dialect where
  lower _ := by simp [sampleStoreEngine, sampleEngine]
  like _ _ := rfl

/-- The columns of the sample user can be read again. -/
theorem readsBack_sampleUser :
    ∀ j ∈ (StoredRecord.user StoredRecord.sampleUser).printed,
      StoredRecord.sampleLibrary.ReadsBack StoredRecord.sampleCondense j := by
  have hprinted : (StoredRecord.user StoredRecord.sampleUser).printed =
      [.obj StoredRecord.sampleUser.userTypeProprietaryInfo.toJson,
        .arr (StoredRecord.sampleUser.notes.map fun n ↦ .obj n.toJson),
        .arr (StoredRecord.sampleUser.lastPasswords.map .str)] := rfl
  rw [hprinted, List.forall_mem_cons, List.forall_mem_cons, List.forall_mem_singleton]
  refine ⟨⟨by decide, _, ?_, .refl _⟩, ⟨by decide, _, ?_, .refl _⟩, ⟨by decide, _, ?_, .refl _⟩⟩
  · rfl
  · rfl
  · rfl

/-- A user with a quote in the name. -/
def sampleNamed : Population where
  users := ⟨[{ StoredRecord.sampleUser with name := String.ofList ['O', quote, 'N'] }],
    List.nodup_singleton _⟩

/-- A search for the name in MySQL. -/
theorem listing_eq_sample :
    ∃ db, (StoreTable.users false).new .mysql = some db ∧
      db.getRecords sampleStoreEngine (sampleTuple .user) 0 10
          (baseQuery (String.ofList ['O', quote, 'N']) "") ""
          (stored "Users" (sampleTuple .user) sampleNamed.users.rows)
        = sampleNamed.getUsers Service.sample 0 10 (baseQuery (String.ofList ['O', quote, 'N']) "")
      := by
  have hexact := (ordered_sampleEngine Service.sample.dialect).toExact
  obtain ⟨db, hdb, hlisting⟩ := @listing_eq sampleStoreEngine hexact Service.sample
    speaks_sampleStoreEngine _ StoredRecord.sampleCondense StoredRecord.converts_sampleLibrary rfl
    .mysql false
  have hkept : ∀ u ∈ sampleNamed.users.rows,
      RecordClass.Kept StoredRecord.sampleLibrary StoredRecord.sampleCondense .user u := by
    refine List.forall_mem_singleton.mpr ⟨?_, ?_⟩
    · intro n hn
      rw [List.mem_singleton.mp hn]
      change 1700000000 < 2 ^ 64
      decide
    · have hprinted : (StoredRecord.user
          { StoredRecord.sampleUser with name := String.ofList ['O', quote, 'N'] }).printed =
          (StoredRecord.user StoredRecord.sampleUser).printed := rfl
      rw [hprinted]
      exact readsBack_sampleUser
  have hkeeps : ∀ v, .literal v ∈ conjunction (queryTokens (String.ofList ['O', quote, 'N']) "") →
      DBType.mysql.quoting.Keeps v := by
    intro v hv
    have htoken : Token.literal v = .literal ['%', 'o', quote, 'n', '%'] := by
      have htokens : conjunction (queryTokens (String.ofList ['O', quote, 'N']) "") =
          [keyword "lower", opening, keyword "name", closing, .like, opening,
            .literal ['%', 'o', quote, 'n', '%'], closing] := by decide
      rw [htokens] at hv
      simpa [keyword, opening, closing, Token.like] using hv
    obtain rfl := Token.literal.inj htoken
    simp [DBType.quoting, Quoting.Keeps, PatternEscapes]
    decide
  exact ⟨db, hdb, (hlisting _ _ _ (.users _ _) hkeeps sampleNamed hkept).1 0 10⟩

end OwSec.RestApi
