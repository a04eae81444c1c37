import OwSec.ACLProcessor
import OwSec.RestApi.Handler

/-!
# The user handler

`/api/v1/user/{id}` (`RESTAPI_user_handler.cpp`): reading, deleting, creating and updating
one user.  The helper functions keep the names of the source.  A helper that only edits
the record in memory is a function of the record; where the JSON library raises an
exception inside it, the request ends with the answer to a library exception.

Sending the verification e-mail and the text message is not modelled, and neither is the
log.
-/

namespace OwSec

open SecurityObjects Kit ACLProcessor

namespace RestApi

/-! ## Editing a record -/

namespace UserHandler

variable (lib : JsonLibrary)

/-- The value of a conversion, or the answer to the exception it raises. -/
def orThrow {α : Type} (o : Option α) : Except Response α :=
  match o with
  | some a => .ok a
  | none => .error .internalError

/-- `AssignIfPresent` for texts. -/
def assignIfPresent (raw : JsonObject) (field value : String) : Except Response String :=
  match raw.get? field with
  | some j => orThrow (lib.varToString j)
  | none => .ok value

/-- `AssignIfPresent` for Booleans. -/
def assignBoolIfPresent (raw : JsonObject) (field : String) (value : Bool) : Except Response Bool :=
  match raw.get? field with
  | some j => do return (← orThrow (lib.varToString j)) == "true"
  | none => .ok value

/-- `IsSelfServiceCaller`. -/
def isSelfServiceCaller (user : UserInfo) : Bool :=
  user.userRole != .ROOT && user.userRole != .ADMIN

/-- `IsAllowedSelfServiceField`. -/
def isAllowedSelfServiceField (field : String) : Bool :=
  ["name", "description", "location", "locale", "changePassword", "currentPassword",
    "userTypeProprietaryInfo"].contains field

/-- `HasOnlyAllowedSelfServiceFields`. -/
def hasOnlyAllowedSelfServiceFields (raw : JsonObject) : Bool :=
  raw.all fun entry ↦ isAllowedSelfServiceField entry.1

/-- The role that the body names, if it names one. -/
def requestedRole (raw : JsonObject) : Except Response (Option UserRole) :=
  match raw.get? "userRole" with
  | some j => do return some (userTypeFromString (← orThrow (lib.varToString j)))
  | none => .ok none

/-- `ValidateUpdatePayload`. -/
def validateUpdatePayload (raw : JsonObject) : Except Response Bool := do
  return (← requestedRole lib raw) != some .UNKNOWN

/-- `ApplyOwnerUpdate`. -/
def applyOwnerUpdate (caller : UserInfo) (raw : JsonObject) (existing : UserInfo) :
    Except Response UserInfo :=
  if raw.has "owner" && caller.userRole == .ROOT && existing.owner.isEmpty then do
    return { existing with owner := ← assignIfPresent lib raw "owner" existing.owner }
  else .ok existing

/-- `ApplyProfileFields`. -/
def applyProfileFields (raw : JsonObject) (existing : UserInfo) : Except Response UserInfo := do
  let name ← assignIfPresent lib raw "name" existing.name
  let description ← assignIfPresent lib raw "description" existing.description
  let location ← assignIfPresent lib raw "location" existing.location
  let locale ← assignIfPresent lib raw "locale" existing.locale
  let changePassword ← assignBoolIfPresent lib raw "changePassword" existing.changePassword
  return { existing with name, description, location, locale, changePassword }

/-- `ApplyAdminStatusFields`. -/
def applyAdminStatusFields (raw : JsonObject) (existing : UserInfo) : Except Response UserInfo := do
  let suspended ← assignBoolIfPresent lib raw "suspended" existing.suspended
  let blackListed ← assignBoolIfPresent lib raw "blackListed" existing.blackListed
  return { existing with suspended, blackListed }

/-- `ApplyRoleChange`. -/
def applyRoleChange (caller existing : UserInfo) (raw : JsonObject) : Except Response UserInfo := do
  match ← requestedRole lib raw with
  | none => return existing
  | some newRole =>
    if newRole != existing.userRole then
      if canChangeUserRole caller existing newRole then
        return { existing with userRole := newRole }
      else .error (.unAuthorized Errors.ACCESS_DENIED)
    else return existing

/-- `AppendNotes`. -/
def appendNotes (now : ℕ) (caller : UserInfo) (raw : JsonObject) (existing : UserInfo) :
    Except Response UserInfo :=
  match raw.get? "notes" with
  | none => .ok existing
  | some j => do
    let notes := NoteInfo.toObjectArray lib (← orThrow (lib.varToString j))
    return { existing with
      notes := existing.notes ++ notes.map fun i ↦
        { created := now, createdBy := caller.email, note := i.note } }

end UserHandler

variable (svc : Service)

namespace UserHandler

/-- `ApplyPasswordChange`, with the answers to its two failures. -/
def applyPasswordChange (salt : String) (raw : JsonObject) (existing : UserInfo) :
    Except Response UserInfo :=
  match raw.get? "currentPassword" with
  | none => .ok existing
  | some j => do
    let password ← orThrow (svc.json.varToString j)
    if validatePassword svc password then
      match setPassword svc salt password existing with
      | .applied user => return user
      | .refused => .error (.badRequest Errors.PasswordRejected)
      | .exception => .error .internalError
    else .error (.badRequest Errors.InvalidPassword)

/-- The edits of `DoPut` that look at nothing but the body: from `ApplyOwnerUpdate` to
`ApplyPasswordChange`. -/
def applyBody (m : Moment) (caller : UserInfo) (raw : JsonObject) (existing : UserInfo) :
    Except Response UserInfo := do
  let existing ← applyOwnerUpdate svc.json caller raw existing
  let existing ← applyProfileFields svc.json raw existing
  let existing ← applyAdminStatusFields svc.json raw existing
  let existing ← applyRoleChange svc.json caller existing raw
  let existing ← appendNotes svc.json m.now caller raw existing
  applyPasswordChange svc m.salt raw existing

/-! ## Reading and writing the stores -/

/-- `UserDB().GetUserById`. -/
def getUserById (id : String) : Handling (Option UserInfo) :=
  Command.act fun s ↦ s.onPopulation false fun p ↦ p.getUserById svc id

/-- `UserDB().GetUserByEmail`, or that of `SubDB`. -/
def getUserByEmail (isSub : Bool) (email : String) : Handling (Option UserInfo) :=
  Command.act fun s ↦ s.onPopulation isSub fun p ↦ p.getUserByEmail svc email

/-- `UserDB().UpdateUserInfo`. -/
def updateUserInfo (id : String) (u : UserInfo) : Handling Bool :=
  Command.act fun s ↦ s.onPopulation false fun p ↦ p.updateUserInfo svc id u

/-- `UserDB().CreateUser`. -/
def createUser (m : Moment) (u : UserInfo) : Handling (Option UserInfo) :=
  Command.act fun s ↦ s.onPopulation false fun p ↦ p.createUser svc m u

/-- `AuthService::VerifyEmail`. -/
def verifyEmail (m : Moment) (u : UserInfo) : Handling UserInfo :=
  Command.act fun s ↦ s.verifyEmail m.now m.uuid' u

/-- `BuildUpdatedUserResponse`, and the same lines of `HandleResetMFA`. -/
def buildUpdatedUserResponse (id : String) (missing : Response) : Handling Response := do
  let user ← getUserById svc id
  let user ← Command.orStop user missing
  return .user (sanitize user)

/-- `HandleResetMFA`. -/
def handleResetMFA (c : Context) (id : String) (existing : UserInfo) : Handling Response := do
  let existing :=
    { existing with
      userTypeProprietaryInfo :=
        { existing.userTypeProprietaryInfo with
          mfa := { enabled := false, method := "" }
          mobiles := [] }
      modified := c.moment.now
      notes := existing.notes ++
        [{ created := c.moment.now, createdBy := c.caller.email,
           note := "MFA Reset by " ++ c.caller.email }] }
  let updated ← updateUserInfo svc id existing
  Command.ensure updated (.badRequest Errors.RecordNotUpdated)
  buildUpdatedUserResponse svc id (.badRequest Errors.RecordNotUpdated)

/-- `HandleForgotPassword`: the changed record is not stored. -/
def handleForgotPassword (c : Context) (existing : UserInfo) : Handling Response := do
  Command.write fun s ↦ s.createAction
    { action := LinkActions.FORGOT_PASSWORD.toNat
      id := c.moment.uuid'
      userId := existing.id
      created := c.moment.now
      expires := c.moment.now + 24 * 60 * 60
      userAction := true }
  return .ok

/-- `MFAMETHODS::Validate`. -/
def validateMethod (method : String) : Bool := ["sms", "email", "authenticator"].contains method

/-- `ApplyMfaChange`, with the answers to its failures. -/
def applyMfaChange (m : Moment) (caller newUser : UserInfo) (hasMfaUpdate : Bool)
    (existing : UserInfo) : Handling UserInfo :=
  let new := newUser.userTypeProprietaryInfo
  let old := existing.userTypeProprietaryInfo
  if !hasMfaUpdate then pure existing
  else if new.mfa.enabled then do
    Command.ensure (validateMethod new.mfa.method) (.badRequest Errors.BadMFAMethod)
    Command.ensure (!(new.mfa.method == "sms" && !svc.smsEnabled))
      (.badRequest Errors.SMSMFANotEnabled)
    Command.ensure (!(new.mfa.method == "email" && !svc.mailEnabled))
      (.badRequest Errors.EMailMFANotEnabled)
    let mfa : MfaAuthInfo := { enabled := true, method := new.mfa.method }
    if new.mfa.method == "sms" then
      match new.mobiles with
      | [] => Command.stop (.badRequest Errors.NeedMobileNumber)
      | first :: rest =>
        let valid ← Command.reads fun s : Storage ↦ s.smsIsNumberValid svc first.number caller.email
        Command.ensure valid (.badRequest Errors.NeedMobileNumber)
        return { existing with
          userTypeProprietaryInfo :=
            { mobiles := { first with verified := true } :: rest, mfa, authenticatorSecret := "" } }
    else if new.mfa.method == "authenticator" then
      let secret ←
        if old.authenticatorSecret.isEmpty then do
          let secret ← Command.act fun s : Storage ↦
            s.totpCompleteValidation m.now caller.id false
          Command.orStop secret (.badRequest Errors.AuthenticatorVerificationIncomplete)
        else pure old.authenticatorSecret
      return { existing with
        userTypeProprietaryInfo := { mobiles := [], mfa, authenticatorSecret := secret } }
    else
      return { existing with
        userTypeProprietaryInfo := { mobiles := [], mfa, authenticatorSecret := "" } }
  else
    pure { existing with
      userTypeProprietaryInfo :=
        { mobiles := [], mfa := { old.mfa with enabled := false }, authenticatorSecret := "" } }

/-- `IsOwprovRequester`. -/
def isOwprovRequester (requester : String) : Bool :=
  !requester.isEmpty &&
    svc.provisioningEndPoints.any fun e ↦ requester == e.1 || requester == e.2

/-! ## The four methods -/

/-- `RESTAPI_user_handler::DoGet`. -/
def doGet (c : Context) : Handling Response := do
  let id := c.request.getBinding "id"
  Command.ensure (!id.isEmpty) (.badRequest Errors.MissingUserID)
  Command.ensure (!(c.internal && !isOwprovRequester svc c.requester))
    (.unAuthorized Errors.ACCESS_DENIED)
  let id := toLower id
  let user ←
    if c.request.parameter? "byEmail" == some "true" then getUserByEmail svc false id
    else getUserById svc id
  let user ← Command.orStop user .notFound
  Command.ensure (!(!c.internal && !canReadUserRecord c.caller user))
    (.unAuthorized Errors.ACCESS_DENIED)
  return .user (sanitize user)

/-- `RESTAPI_user_handler::DoDelete`. -/
def doDelete (c : Context) : Handling Response := do
  let id := c.request.getBinding "id"
  Command.ensure (!id.isEmpty) (.badRequest Errors.MissingUserID)
  let user ← getUserById svc id
  let user ← Command.orStop user .notFound
  Command.ensure (canDeleteUserRecord c.caller user) (.unAuthorized Errors.ACCESS_DENIED)
  Command.write fun s ↦ { s with user := s.user.deleteUser id }
  Command.write fun s ↦ { s with user := s.user.deleteUserFromCache svc id }
  Command.write fun s ↦ { s with avatars := s.avatars.delete id }
  Command.write fun s ↦ { s with preferences := s.preferences.delete id }
  Command.write fun s ↦
    { s with user := { s.user with tokens := s.user.tokens.revokeAllTokens svc id } }
  Command.write fun s ↦ s.removeAllApiKeys svc id
  return .ok

/-- `RESTAPI_user_handler::DoPost`. -/
def doPost (c : Context) : Handling Response := do
  let id := c.request.getBinding "id"
  Command.ensure (id == "0") (.badRequest Errors.IdMustBe0)
  let newUser ← Command.orStop (UserInfo.fromJson svc.json c.request.body.parsed)
    (.badRequest Errors.InvalidJSONDocument)
  Command.ensure (newUser.userRole != .UNKNOWN) (.badRequest Errors.InvalidUserRole)
  let newUser :=
    { newUser with
      createdBy := c.caller.id
      owner :=
        if c.caller.userRole == .ROOT then c.request.getParameter "entity" else c.caller.owner }
  Command.ensure (canCreateUserRecord c.caller newUser) (.unAuthorized Errors.ACCESS_DENIED)
  let newUser := { newUser with email := toLower newUser.email }
  Command.ensure (validEMailAddress newUser.email) (.badRequest Errors.InvalidEmailAddress)
  -- the e-mail is looked up among the subscribers
  let existing ← getUserByEmail svc true newUser.email
  Command.ensure existing.isNone (.badRequest Errors.UserAlreadyExists)
  Command.ensure (newUser.currentPassword.isEmpty || validatePassword svc newUser.currentPassword)
    (.badRequest Errors.InvalidPassword)
  let newUser :=
    { newUser with
      name := if newUser.name.isEmpty then newUser.email else newUser.name
      userTypeProprietaryInfo :=
        { mobiles := [], mfa := { enabled := false, method := "" }, authenticatorSecret := "" }
      validated := true }
  let created ← createUser svc c.moment newUser
  let newUser ← Command.orStop created (.badRequest Errors.RecordNotCreated)
  if c.request.getParameter "email_verification" == "true" then
    let newUser ← verifyEmail c.moment newUser
    let _ ← updateUserInfo svc newUser.id newUser
  let user ← getUserByEmail svc false newUser.email
  let user ← Command.orStop user .notFound
  return .user (sanitize user)

/-- The last part of `DoPut`: the update from the body. -/
def updateFromBody (c : Context) (id : String) (existing : UserInfo) : Handling Response := do
  let newUser ← Command.orStop (UserInfo.fromJson svc.json c.request.body.parsed)
    (.badRequest Errors.InvalidJSONDocument)
  let raw := c.request.body.parsed.getD []
  let valid ← Command.lift (validateUpdatePayload svc.json raw)
  Command.ensure valid (.badRequest Errors.InvalidUserRole)
  Command.ensure (!(isSelfServiceCaller c.caller && !hasOnlyAllowedSelfServiceFields raw))
    (.unAuthorized Errors.ACCESS_DENIED)
  let existing ← Command.lift (applyBody svc c.moment c.caller raw existing)
  let existing ←
    if c.request.getParameter "email_verification" == "true" then verifyEmail c.moment existing
    else pure existing
  let existing ← applyMfaChange svc c.moment c.caller newUser (raw.has "userTypeProprietaryInfo")
    existing
  let updated ← updateUserInfo svc id { existing with modified := c.moment.now }
  Command.ensure updated (.badRequest Errors.RecordNotUpdated)
  buildUpdatedUserResponse svc id .notFound

/-- `RESTAPI_user_handler::DoPut`. -/
def doPut (c : Context) : Handling Response := do
  let id := c.request.getBinding "id"
  Command.ensure (!id.isEmpty) (.badRequest Errors.MissingUserID)
  let existing ← getUserById svc id
  let existing ← Command.orStop existing .notFound
  Command.ensure (canModifyUserRecord c.caller existing) (.unAuthorized Errors.ACCESS_DENIED)
  if c.request.getParameter "resetMFA" == "true" then
    Command.ensure (canResetUserMFA c.caller existing) (.unAuthorized Errors.ACCESS_DENIED)
    handleResetMFA svc c id existing
  else if c.request.getParameter "forgotPassword" == "true" then
    handleForgotPassword c existing
  else
    updateFromBody svc c id existing

end UserHandler

/-- `RESTAPI_user_handler`, on the public or on the internal router. -/
def userHandler (internal : Bool) : Handler where
  methods := if internal then [.GET, .OPTIONS] else [.POST, .GET, .PUT, .DELETE, .OPTIONS]
  internal := internal
  doGet := UserHandler.doGet svc
  doPost := UserHandler.doPost svc
  doPut := UserHandler.doPut svc
  doDelete := UserHandler.doDelete svc

end RestApi

end OwSec
