import OwSec.RestApi.User

/-!
# The subscriber handler

`/api/v1/subuser/{id}` (`RESTAPI_subuser_handler.cpp`): reading, deleting, creating and
updating one subscriber.  The handler is on the public and on the internal router with the
same methods, and on the internal router it leaves the table of operations out.  Its
update is written in one function; the parts that edit the record in memory are named here
after the helpers of the user handler that they correspond to.
-/

namespace OwSec

open SecurityObjects Kit ACLProcessor

namespace RestApi

variable (svc : Service)

namespace SubUserHandler

open UserHandler (orThrow assignIfPresent assignBoolIfPresent requestedRole appendNotes
  getUserByEmail applyMfaChange)

/-! ## Reading and writing the stores -/

/-- `SubDB().GetUserById`. -/
def getUserById (id : String) : Handling (Option UserInfo) :=
  Command.act fun s ↦ s.onPopulation true fun p ↦ p.getUserById svc id

/-- `SubDB().UpdateUserInfo`. -/
def updateUserInfo (id : String) (u : UserInfo) : Handling Bool :=
  Command.act fun s ↦ s.onPopulation true fun p ↦ p.updateUserInfo svc id u

/-- `SubDB().CreateUser`. -/
def createUser (m : Moment) (u : UserInfo) : Handling (Option UserInfo) :=
  Command.act fun s ↦ s.onPopulation true fun p ↦ p.createUser svc m u

/-- `AuthService::VerifySubEmail`. -/
def verifySubEmail (m : Moment) (u : UserInfo) : Handling UserInfo :=
  Command.act fun s ↦ s.verifySubEmail m.now m.uuid' u

/-! ## Editing a record -/

/-- The fields of `DoPut` that are assigned as they are. -/
def applyFields (raw : JsonObject) (existing : UserInfo) : Except Response UserInfo := do
  let name ← assignIfPresent svc.json raw "name" existing.name
  let description ← assignIfPresent svc.json raw "description" existing.description
  let owner ← assignIfPresent svc.json raw "owner" existing.owner
  let location ← assignIfPresent svc.json raw "location" existing.location
  let locale ← assignIfPresent svc.json raw "locale" existing.locale
  let changePassword ← assignBoolIfPresent svc.json raw "changePassword" existing.changePassword
  let suspended ← assignBoolIfPresent svc.json raw "suspended" existing.suspended
  let blackListed ← assignBoolIfPresent svc.json raw "blackListed" existing.blackListed
  return { existing with
    name, description, owner, location, locale, changePassword, suspended, blackListed }

/-- The role change of `DoPut`: only `ROOT` makes a `ROOT`, and nobody changes themselves. -/
def applyRoleChange (caller : UserInfo) (id : String) (raw : JsonObject) (existing : UserInfo) :
    Except Response UserInfo := do
  match ← requestedRole svc.json raw with
  | none => return existing
  | some newRole =>
    if newRole != existing.userRole then
      if caller.userRole != .ROOT && newRole == .ROOT then
        .error (.unAuthorized Errors.ACCESS_DENIED)
      else if id == caller.id then .error (.unAuthorized Errors.ACCESS_DENIED)
      else return { existing with userRole := newRole }
    else return existing

/-- The password change of `DoPut`: the rule is that of the subscribers. -/
def applyPasswordChange (salt : String) (raw : JsonObject) (existing : UserInfo) :
    Except Response UserInfo :=
  match raw.get? "currentPassword" with
  | none => .ok existing
  | some j => do
    let password ← orThrow (svc.json.varToString j)
    if validateSubPassword svc password then
      match setPassword svc salt password existing with
      | .applied user => return user
      | .refused => .error (.badRequest Errors.PasswordRejected)
      | .exception => .error .internalError
    else .error (.badRequest Errors.InvalidPassword)

/-- The edits of `DoPut` that look at nothing but the body. -/
def applyBody (m : Moment) (caller : UserInfo) (id : String) (raw : JsonObject)
    (existing : UserInfo) : Except Response UserInfo := do
  let existing ← applyFields svc raw existing
  let existing ← applyRoleChange svc caller id raw existing
  let existing ← appendNotes svc.json m.now caller raw existing
  applyPasswordChange svc m.salt raw existing

/-- `DoPut` from the parsing of the body to the update of the row: the record to store. -/
def editFromBody (c : Context) (id : String) (existing : UserInfo) : Handling UserInfo := do
  let newUser ← Command.orStop (UserInfo.fromJson svc.json c.request.body.parsed)
    (.badRequest Errors.InvalidJSONDocument)
  let raw := c.request.body.parsed.getD []
  let role ← Command.lift (requestedRole svc.json raw)
  -- `SUBSCRIBER` is refused like an unknown role
  Command.ensure (role != some .UNKNOWN && role != some .SUBSCRIBER)
    (.badRequest Errors.InvalidUserRole)
  let existing ← Command.lift (applyBody svc c.moment c.caller id raw existing)
  let existing ←
    if c.request.getParameter "email_verification" == "true" then verifySubEmail c.moment existing
    else pure existing
  applyMfaChange svc c.moment c.caller newUser (raw.has "userTypeProprietaryInfo") existing

/-- Who may reset the second factor of a subscriber. -/
def canResetMFA (caller : UserInfo) (id : String) (existing : UserInfo) : Bool :=
  caller.userRole == .ROOT || (caller.userRole == .ADMIN && existing.userRole != .ROOT) ||
    caller.id == id

/-- The `resetMFA` branch of `DoPut`: the reply is about the caller, found or not. -/
def handleResetMFA (c : Context) (id : String) (existing : UserInfo) : Handling Response := do
  Command.ensure (canResetMFA c.caller id existing) (.unAuthorized Errors.ACCESS_DENIED)
  let existing :=
    { existing with
      userTypeProprietaryInfo :=
        { existing.userTypeProprietaryInfo with
          mfa := { enabled := false, method := "" }
          mobiles := [] }
      modified := c.moment.now
      notes := existing.notes ++
        [{ created := c.moment.now, createdBy := c.caller.email,
           note := "MFA Reset by " ++ c.caller.email }] }
  let _ ← updateUserInfo svc id existing
  let user ← getUserByEmail svc true c.caller.email
  return .user (sanitize (user.getD {}))

/-- The `forgotPassword` branch of `DoPut`: the changed record is not stored. -/
def handleForgotPassword (c : Context) (existing : UserInfo) : Handling Response := do
  Command.write fun s ↦ s.createAction
    { action := LinkActions.SUB_FORGOT_PASSWORD.toNat
      id := c.moment.uuid'
      userId := existing.id
      created := c.moment.now
      expires := c.moment.now + 24 * 60 * 60
      userAction := false }
  return .ok

/-- The rest of `DoPut`: the update from the body. -/
def updateFromBody (c : Context) (id : String) (existing : UserInfo) : Handling Response := do
  let existing ← editFromBody svc c id existing
  let updated ← updateUserInfo svc id existing
  Command.ensure updated (.badRequest Errors.RecordNotUpdated)
  let user ← getUserById svc id
  return .user (sanitize (user.getD {}))

/-! ## The four methods -/

/-- `RESTAPI_subuser_handler::DoGet`. -/
def doGet (c : Context) : Handling Response := do
  let id := c.request.getBinding "id"
  Command.ensure (!id.isEmpty) (.badRequest Errors.MissingUserID)
  let id := toLower id
  let user ←
    if c.request.parameter? "byEmail" == some "true" then getUserByEmail svc true id
    else getUserById svc id
  let user ← Command.orStop user .notFound
  return .user (sanitize user)

/-- `RESTAPI_subuser_handler::DoDelete`. -/
def doDelete (c : Context) : Handling Response := do
  let id := c.request.getBinding "id"
  Command.ensure (!id.isEmpty) (.badRequest Errors.MissingUserID)
  let target ← getUserById svc id
  let target ← Command.orStop target .notFound
  Command.ensure (target.userRole == .SUBSCRIBER) (.badRequest Errors.InvalidUserRole)
  Command.ensure (c.internal || can c.caller target .DELETE) (.unAuthorized Errors.ACCESS_DENIED)
  Command.write fun s ↦ { s with sub := s.sub.deleteUser id }
  Command.write fun s ↦ { s with sub := s.sub.deleteUserFromCache svc id }
  -- the tokens are revoked by the e-mail address
  Command.write fun s ↦
    { s with sub := { s.sub with tokens := s.sub.tokens.revokeAllTokens svc target.email } }
  Command.write fun s ↦ { s with subPreferences := s.subPreferences.delete id }
  Command.write fun s ↦ { s with subAvatars := s.subAvatars.delete id }
  return .ok

/-- The defaults of `DoPost`: a name, and no second factor. -/
def completeNewUser (newUser : UserInfo) : UserInfo :=
  { newUser with
    name := if newUser.name.isEmpty then newUser.email else newUser.name
    userTypeProprietaryInfo :=
      { mobiles := [], mfa := { enabled := false, method := "" }, authenticatorSecret := "" } }

/-- `DoPost` after the creation. -/
def reportCreated (c : Context) (newUser : UserInfo) : Handling Response := do
  if c.request.getParameter "email_verification" == "true" then
    let newUser ← verifySubEmail c.moment newUser
    let _ ← updateUserInfo svc newUser.id newUser
  let user ← getUserByEmail svc true newUser.email
  let user ← Command.orStop user .notFound
  return .user (sanitize user)

/-- `RESTAPI_subuser_handler::DoPost`. -/
def doPost (c : Context) : Handling Response := do
  let id := c.request.getBinding "id"
  Command.ensure (id == "0") (.badRequest Errors.IdMustBe0)
  let newUser ← Command.orStop (UserInfo.fromJson svc.json c.request.body.parsed)
    (.badRequest Errors.InvalidJSONDocument)
  Command.ensure (newUser.userRole == .SUBSCRIBER) (.badRequest Errors.InvalidUserRole)
  let newUser := { newUser with email := toLower newUser.email }
  let existing ← getUserByEmail svc true newUser.email
  Command.ensure existing.isNone (.badRequest Errors.UserAlreadyExists)
  Command.ensure (c.internal || can c.caller newUser .CREATE) (.unAuthorized Errors.ACCESS_DENIED)
  Command.ensure (validEMailAddress newUser.email) (.badRequest Errors.InvalidEmailAddress)
  Command.ensure
    (newUser.currentPassword.isEmpty || validateSubPassword svc newUser.currentPassword)
    (.badRequest Errors.InvalidPassword)
  let created ← createUser svc c.moment (completeNewUser newUser)
  let newUser ← Command.orStop created (.badRequest Errors.RecordNotCreated)
  reportCreated svc c newUser

/-- `RESTAPI_subuser_handler::DoPut` after the access check. -/
def modify (c : Context) (id : String) (existing : UserInfo) : Handling Response :=
  if c.request.getBoolParameter "resetMFA" then handleResetMFA svc c id existing
  else if c.request.getBoolParameter "forgotPassword" ||
      c.request.getBoolParameter "resetPassword" then
    handleForgotPassword c existing
  else updateFromBody svc c id existing

/-- `RESTAPI_subuser_handler::DoPut`. -/
def doPut (c : Context) : Handling Response := do
  let id := c.request.getBinding "id"
  Command.ensure (!id.isEmpty) (.badRequest Errors.MissingUserID)
  let existing ← getUserById svc id
  let existing ← Command.orStop existing .notFound
  Command.ensure (c.internal || can c.caller existing .MODIFY)
    (.unAuthorized Errors.ACCESS_DENIED)
  modify svc c id existing

end SubUserHandler

/-- `RESTAPI_subuser_handler`, on the public or on the internal router. -/
def subuserHandler (internal : Bool) : Handler where
  methods := [.POST, .GET, .PUT, .DELETE, .OPTIONS]
  internal := internal
  doGet := SubUserHandler.doGet svc
  doPost := SubUserHandler.doPost svc
  doPut := SubUserHandler.doPut svc
  doDelete := SubUserHandler.doDelete svc

end RestApi

end OwSec
