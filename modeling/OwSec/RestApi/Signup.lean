import OwSec.RestApi.SubUser

/-!
# The sign-up handler

`/api/v1/signup` (`RESTAPI_signup_handler.cpp`): the provisioning service signs a
subscriber up.  The handler asks for no credential.  The address is looked up as it was
given, and the record is written past `CreateUser`, so nothing of it is normalised.
-/

namespace OwSec

open SecurityObjects Kit

namespace RestApi

variable (svc : Service)

namespace SignupHandler

/-- The record of a subscriber that signs up for the first time. -/
def newSub (m : Moment) (userName owner operatorName signupUUID : String) : UserInfo :=
  { signingUp := operatorName ++ ":" ++ signupUUID
    waitingForEmailCheck := true
    name := userName
    modified := m.now
    creationDate := m.now
    id := m.uuid
    email := userName
    userRole := .SUBSCRIBER
    changePassword := true
    owner := owner }

/-- `SubDB().CreateRecord`: the result is not looked at. -/
def createRecord (u : UserInfo) : Handling PUnit :=
  Command.write fun s ↦ { s with sub := (s.sub.createRecord u).2 }

/-- The link with which a subscriber completes the sign-up. -/
def newLink (m : Moment) (u : UserInfo) : ActionLink :=
  { action := LinkActions.SUB_SIGNUP.toNat
    id := m.uuid'
    userId := u.id
    created := m.now
    expires := m.now + 60 * 60
    userAction := false }

/-- The subscriber that is already there, when the sign-up is asked for again. -/
def resendTo (resend : Bool) (existing : UserInfo) : Handling UserInfo := do
  Command.ensure existing.waitingForEmailCheck (.badRequest Errors.SignupAlreadySigned)
  if resend then
    let _ ← SubUserHandler.updateUserInfo svc existing.id existing
    return existing
  else return existing

/-- `RESTAPI_signup_handler::DoPost`: the record is returned as it is. -/
def doPost (c : Context) : Handling Response := do
  let userName := c.request.getParameter "email"
  let signupUUID := c.request.getParameter "signupUUID"
  let owner := c.request.getParameter "owner"
  let operatorName := c.request.getParameter "operatorName"
  Command.ensure
    (!(userName.isEmpty || signupUUID.isEmpty || owner.isEmpty || operatorName.isEmpty))
    (.badRequest Errors.MissingOrInvalidParameters)
  Command.ensure (validEMailAddress userName) (.badRequest Errors.InvalidEmailAddress)
  let existing ← UserHandler.getUserByEmail svc true userName
  let user ←
    match existing with
    | some u => resendTo svc (c.request.getBoolParameter "resend") u
    | none => do
      let u := newSub c.moment userName owner operatorName signupUUID
      createRecord u
      pure u
  Command.write fun s ↦ s.createAction (newLink c.moment user)
  return .user user

end SignupHandler

/-- `RESTAPI_signup_handler`, on the public or on the internal router. -/
def signupHandler (internal : Bool) : Handler where
  methods := [.POST, .OPTIONS, .PUT]
  internal := internal
  alwaysAuthorize := false
  rateLimited := true
  doGet _ := pure .nothing
  doPost := SignupHandler.doPost svc

end RestApi

end OwSec
