import OwSec.RestApi.SubUser
import OwSec.RestApi.Users

/-!
# The subscribers handler

`/api/v1/subusers` (`RESTAPI_subusers_handler.cpp`): counting and listing subscribers.  The search
parameters count for an operator only: without a valid operator everybody is listed, and a count
is the count of the users.  Nothing is asked about the caller.
-/

namespace OwSec

open SecurityObjects Kit

namespace RestApi

/-- `std::isxdigit`. -/
def isHexDigit (c : Char) : Bool :=
  c.isDigit || ('a' ≤ c && c ≤ 'f') || ('A' ≤ c && c ≤ 'F')

/-- `Utils::ValidUUID`. -/
def validUUID (uuid : String) : Bool :=
  decide (uuid.utf8ByteSize ≤ 36) && uuid.toList.all (fun c ↦ c == '-' || isHexDigit c) &&
    uuid.toList.contains '-'

variable (svc : Service)

namespace SubUsersHandler

/-- The condition for an operator, where there is a valid one. -/
def whereClause (r : Request) : Option String :=
  let operatorId := r.getParameter "operatorId"
  let baseQuery :=
    UsersHandler.baseQuery (r.getParameter "nameSearch") (r.getParameter "emailSearch")
  if !operatorId.isEmpty && validUUID operatorId then
    some <|
      if baseQuery.isEmpty then " owner='" ++ operatorId ++ "' "
      else " owner='" ++ operatorId ++ "' and " ++ baseQuery
  else none

/-- The loop over `SelectedRecords()`. -/
def selectedUsers : List String → Handling (List UserInfo)
  | [] => pure []
  | i :: rest => do
    let user ← SubUserHandler.getUserById svc i
    let users ← selectedUsers rest
    return user.toList.map sanitize ++ users

/-- `RESTAPI_subusers_handler::DoGet`. -/
def doGet (c : Context) : Handling Response := do
  let idOnly := c.request.getBoolParameter "idOnly"
  if c.queryBlock.countOnly then
    return .count (← Command.reads fun s : Storage ↦
      match whereClause c.request with
      | some clause => s.sub.count svc clause
      | none => s.user.count svc "")
  else if c.queryBlock.select.isEmpty then
    let found ← Command.reads fun s : Storage ↦
      s.sub.getUsers svc c.queryBlock.offset c.queryBlock.limit ((whereClause c.request).getD "")
    let users := found.2.map sanitize
    return if idOnly then .userIds (users.map UserInfo.id) else .users users
  else
    return .users (← selectedUsers svc c.queryBlock.select)

end SubUsersHandler

/-- `RESTAPI_subusers_handler`, on the public or on the internal router. -/
def subusersHandler (internal : Bool) : Handler where
  methods := [.GET, .OPTIONS]
  internal := internal
  doGet := SubUsersHandler.doGet svc

end RestApi

end OwSec
