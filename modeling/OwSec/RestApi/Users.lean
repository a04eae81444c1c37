import OwSec.RestApi.User

/-!
# The users handler

`/api/v1/users` (`RESTAPI_users_handler.cpp`): listing users.  The caller is the one who
signed in on the public router, and on the internal router the user whose token a service
passes on.  What an `ADMIN` sees is narrowed in two ways: a list is asked for with an SQL
condition that is built as text from the search parameters, and selected records are
checked one by one.

The second half of the file shows that the text always means what it is meant to mean.
-/

namespace OwSec

open SecurityObjects Kit ACLProcessor

namespace RestApi

variable (svc : Service)

namespace UsersHandler

/-- `IsAdminUserCaller`. -/
def isAdminUserCaller (user : UserInfo) : Bool :=
  user.userRole == .ROOT || user.userRole == .ADMIN

/-- The condition for the search parameters. -/
def baseQuery (nameSearch emailSearch : String) : String :=
  let query :=
    if nameSearch.isEmpty then ""
    else " Lower(name) like('%" ++ escape (toLower nameSearch) ++ "%') "
  if emailSearch.isEmpty then query
  else
    query ++
      if query.isEmpty then " Lower(email) like('%" ++ escape (toLower emailSearch) ++ "%') "
      else " and Lower(email) like('%" ++ escape (toLower emailSearch) ++ "%') "

/-- The condition narrowed to what the caller created. -/
def scopedQuery (caller : UserInfo) (query : String) : String :=
  let scope := " createdby='" ++ escape caller.id ++ "' "
  if query.isEmpty then scope else scope ++ " and " ++ query

/-- Who the request is made for on the internal router: the owner of the bearer token. -/
def delegatedUser (c : Context) : Handling UserInfo := do
  Command.ensure c.request.internalName.isSome (.unAuthorized Errors.ACCESS_DENIED)
  let userToken := c.request.bearer.getD ""
  Command.ensure (!userToken.isEmpty) (.unAuthorized Errors.INVALID_TOKEN)
  let result ← Command.act fun s : Storage ↦ s.isValidToken svc c.moment.now userToken
  Command.ensure (!result.expired) (.unAuthorized Errors.EXPIRED_TOKEN)
  let info ← Command.orStop result.uinfo (.unAuthorized Errors.INVALID_TOKEN)
  return info.userinfo

/-- Whose rights decide about the request. -/
def effectiveUserInfo (c : Context) : Handling UserInfo := do
  let user ← if c.internal then delegatedUser svc c else pure c.caller
  Command.ensure (isAdminUserCaller user) (.unAuthorized Errors.ACCESS_DENIED)
  return user

/-- The loop over `SelectedRecords()`. -/
def selectedUsers (caller : UserInfo) : List String → Handling (List UserInfo)
  | [] => pure []
  | i :: rest => do
    let user ← UserHandler.getUserById svc i
    let users ← selectedUsers caller rest
    match user with
    | some u => return if canReadUserRecord caller u then sanitize u :: users else users
    | none => return users

/-- `RESTAPI_users_handler::DoGet`. -/
def doGet (c : Context) : Handling Response := do
  let idOnly := c.request.getParameter "idOnly" "false" == "true"
  let query := baseQuery (c.request.getParameter "nameSearch") (c.request.getParameter "emailSearch")
  let user ← effectiveUserInfo svc c
  let query := if user.userRole == .ADMIN then scopedQuery user query else query
  if c.queryBlock.select.isEmpty then
    let found ← Command.reads fun s : Storage ↦
      s.user.getUsers svc c.queryBlock.offset c.queryBlock.limit query
    let users := found.2.map sanitize
    return if found.1 && idOnly then .userIds (users.map UserInfo.id) else .users users
  else
    return .users (← selectedUsers svc user c.queryBlock.select)

end UsersHandler

/-- `RESTAPI_users_handler`, on the public or on the internal router. -/
def usersHandler (internal : Bool) : Handler where
  methods := [.GET, .OPTIONS]
  internal := internal
  doGet := UsersHandler.doGet svc

namespace UsersHandler

/-! ## What the conditions mean -/

/-- `Lower(column) like('%value%')`. -/
def searchComparison (column value : List Char) : Sql.Comparison :=
  .like (.call "lower".toList column) (.text ('%' :: value ++ ['%']))

/-- The comparisons that the search parameters ask for. -/
def searchComparisons (nameSearch emailSearch : String) : List Sql.Comparison :=
  (if nameSearch.isEmpty then []
    else [searchComparison "name".toList (toLower nameSearch).toList]) ++
  if emailSearch.isEmpty then []
    else [searchComparison "email".toList (toLower emailSearch).toList]

theorem toList_escape (s : String) : (escape s).toList = Sql.escape s.toList :=
  String.toList_ofList

/-- A search text is one comparison, whatever is searched for. -/
private theorem reads_search (before : String) {column : List Char}
    (hcolumn : column = "name".toList ∨ column = "email".toList)
    (hbefore : Sql.scan .between before.toList =
      ([.word "lower".toList, .symbol '(', .word column, .symbol ')', .like, .symbol '('],
        .literal ['%'])) (value : String) :
    Sql.Reads (before ++ escape value ++ "%') ").toList [searchComparison column value.toList] := by
  have hafter (t : List Char) :
      Sql.scan (.literal t) "%') ".toList = ([.literal (t ++ ['%']), .symbol ')'], .between) := rfl
  rw [String.toList_append, String.toList_append, toList_escape]
  refine ⟨_, Sql.scan_quoted hbefore hafter _, ?_⟩
  rcases hcolumn with rfl | rfl
  · exact .one rfl (by simp [Sql.Token.and, Sql.Token.like]) (by simp [Sql.Token.or, Sql.Token.like])
  · exact .one rfl (by simp [Sql.Token.and, Sql.Token.like]) (by simp [Sql.Token.or, Sql.Token.like])

/-- The text of the creator's condition is one comparison, whatever the identifier is. -/
theorem reads_scope (id : String) :
    Sql.Reads (" createdby='" ++ escape id ++ "' ").toList
      [.equal (.column "createdby".toList) (.text id.toList)] := by
  have hbefore : Sql.scan .between " createdby='".toList =
      ([.word "createdby".toList, .symbol '='], .literal []) := by decide
  have hafter (t : List Char) :
      Sql.scan (.literal t) "' ".toList = ([.literal (t ++ [])], .between) := by
    rw [List.append_nil]
    rfl
  rw [String.toList_append, String.toList_append, toList_escape]
  refine ⟨_, Sql.scan_quoted hbefore hafter _, ?_⟩
  rw [List.nil_append, List.append_nil]
  exact .one rfl (by simp [Sql.Token.and]) (by simp [Sql.Token.or])

/-- The glue between two conditions. -/
private theorem scan_and : Sql.scan .between " and ".toList = ([.and], .between) := by decide

/-- The text for the search parameters is the conjunction of their comparisons. -/
theorem reads_baseQuery {nameSearch emailSearch : String}
    (h : baseQuery nameSearch emailSearch ≠ "") :
    Sql.Reads (baseQuery nameSearch emailSearch).toList
      (searchComparisons nameSearch emailSearch) := by
  have hname := reads_search " Lower(name) like('%" (.inl rfl) (by decide)
    (toLower nameSearch)
  have hemail := reads_search " Lower(email) like('%" (.inr rfl) (by decide)
    (toLower emailSearch)
  have hemail' := reads_search "Lower(email) like('%" (.inr rfl) (by decide)
    (toLower emailSearch)
  unfold baseQuery searchComparisons at *
  by_cases hn : nameSearch.isEmpty
  · by_cases he : emailSearch.isEmpty
    · simp [hn, he] at h
    · simpa [hn, he] using hemail
  · by_cases he : emailSearch.isEmpty
    · simpa [hn, he] using hname
    · have hboth := hname.and hemail' scan_and
      simpa [hn, he] using hboth

/-- The narrowed text is the conjunction of the creator's condition with the others. -/
theorem reads_scopedQuery (caller : UserInfo) (nameSearch emailSearch : String) :
    Sql.Reads (scopedQuery caller (baseQuery nameSearch emailSearch)).toList
      (.equal (.column "createdby".toList) (.text caller.id.toList) ::
        searchComparisons nameSearch emailSearch) := by
  have hscope := reads_scope caller.id
  unfold scopedQuery
  by_cases hq : baseQuery nameSearch emailSearch = ""
  · have hnone : searchComparisons nameSearch emailSearch = [] := by
      unfold baseQuery at hq
      unfold searchComparisons
      by_cases hn : nameSearch.isEmpty <;> by_cases he : emailSearch.isEmpty <;> simp_all
    rw [hnone]
    simpa [hq] using hscope
  · have hboth := hscope.and (reads_baseQuery hq) scan_and
    simpa [hq] using hboth

/-- Whether a record matches the search parameters. -/
def matchesSearch (nameSearch emailSearch : String) (u : UserInfo) : Bool :=
  (nameSearch.isEmpty ||
    svc.dialect.like (svc.dialect.lower u.name) ("%" ++ toLower nameSearch ++ "%")) &&
  (emailSearch.isEmpty ||
    svc.dialect.like (svc.dialect.lower u.email) ("%" ++ toLower emailSearch ++ "%"))

/-- The conditions that the comparisons stand for. -/
theorem evalBranch_searchComparisons (nameSearch emailSearch : String) :
    ∃ ps, Sql.evalBranch svc.dialect Population.userColumns (searchComparisons nameSearch emailSearch) =
        some ps ∧ ∀ u, (ps.all fun p ↦ p u) = matchesSearch svc nameSearch emailSearch u := by
  have hpattern (value : String) :
      String.ofList ('%' :: value.toList ++ ['%']) = "%" ++ value ++ "%" := by
    rw [← String.toList_inj]
    simp
  have heval (column : List Char) (field : UserInfo → String) (value : String)
      (hcolumn : Sql.Schema.column Population.userColumns column = some field) :
      (searchComparison column value.toList).eval svc.dialect Population.userColumns =
        some fun u ↦ svc.dialect.like (svc.dialect.lower (field u)) ("%" ++ value ++ "%") := by
    rw [← hpattern]
    simp [searchComparison, Sql.Comparison.eval, Sql.Operand.eval, hcolumn]
  have hname := heval "name".toList UserInfo.name (toLower nameSearch)
    (by simp [Sql.Schema.column, Population.userColumns])
  have hemail := heval "email".toList UserInfo.email (toLower emailSearch)
    (by simp [Sql.Schema.column, Population.userColumns])
  unfold searchComparisons matchesSearch Sql.evalBranch
  by_cases hn : nameSearch.isEmpty <;> by_cases he : emailSearch.isEmpty <;>
    simp [-String.reduceToList, hn, he, hname, hemail]

/-- Without a narrowing, the text selects the records that match the search. -/
theorem condition_baseQuery {nameSearch emailSearch : String}
    (h : baseQuery nameSearch emailSearch ≠ "") :
    Sql.condition svc.dialect Population.userColumns (baseQuery nameSearch emailSearch).toList =
      some (matchesSearch svc nameSearch emailSearch) := by
  obtain ⟨ps, hps, hall⟩ := evalBranch_searchComparisons svc nameSearch emailSearch
  rw [(reads_baseQuery h).condition_eq svc.dialect Population.userColumns hps]
  exact congrArg some (funext hall)

/-- The narrowed text selects exactly the records that the caller created and that match
the search, whatever the search texts contain. -/
theorem condition_scopedQuery (caller : UserInfo) (nameSearch emailSearch : String) :
    Sql.condition svc.dialect Population.userColumns
        (scopedQuery caller (baseQuery nameSearch emailSearch)).toList =
      some fun u ↦ u.createdBy == caller.id && matchesSearch svc nameSearch emailSearch u := by
  obtain ⟨ps, hps, hall⟩ := evalBranch_searchComparisons svc nameSearch emailSearch
  have hscoped : Sql.evalBranch svc.dialect Population.userColumns
      (.equal (.column "createdby".toList) (.text caller.id.toList) ::
        searchComparisons nameSearch emailSearch) =
      some ((fun u ↦ u.createdBy == caller.id) :: ps) := by
    rw [Sql.evalBranch, List.mapM_cons]
    unfold Sql.evalBranch at hps
    rw [hps]
    have hcolumn : Sql.Schema.column Population.userColumns "createdby".toList =
        some UserInfo.createdBy := rfl
    simp [-String.reduceToList, Sql.Comparison.eval, Sql.Operand.eval, hcolumn]
  rw [(reads_scopedQuery caller nameSearch emailSearch).condition_eq svc.dialect
    Population.userColumns hscoped]
  refine congrArg some (funext fun u ↦ ?_)
  rw [List.all_cons, hall]

end UsersHandler

end RestApi

end OwSec
