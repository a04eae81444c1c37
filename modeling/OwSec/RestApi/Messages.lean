import OwSec.RestApi.SubMfa

/-!
# Sending messages

`/api/v1/sms` and `/api/v1/email` (`RESTAPI_sms_handler.cpp`, `RESTAPI_email_handler.cpp`): a
caller validates a phone number, or has a message sent.  A body that is not there is read through
a null pointer, which raises an exception of the library.
-/

namespace OwSec

open SecurityObjects Kit

namespace RestApi

variable (svc : Service)

/-- `Obj->get(Field).toString()`. -/
def textOf (o : JsonObject) (field : String) : Handling String :=
  Command.lift (UserHandler.orThrow ((o.get? field).bind svc.json.varToString))

namespace SmsHandler

variable (gateway : SmsGateway)

/-- The last part of `DoPost`: an administrator, or a service, has a text sent. -/
def send (c : Context) : Handling Response := do
  Command.ensure
    (c.internal || c.caller.userRole == .ROOT || c.caller.userRole == .PARTNER ||
      c.caller.userRole == .ADMIN)
    (.unAuthorized Errors.ACCESS_DENIED)
  let o ← Command.orStop c.request.body.parsed .internalError
  if o.has "to" && o.has "text" then do
    let phoneNumber ← textOf svc o "to"
    let text ← textOf svc o "text"
    return if gateway.send phoneNumber text then .ok
      else .serverError Errors.SMSCouldNotBeSentRetry
  else return .badRequest Errors.MissingOrInvalidParameters

/-- `DoPost` from `completeValidation` on. -/
def completeOrSend (c : Context) : Handling Response :=
  match c.request.parameter? "completeValidation" == some "true",
    c.request.parameter? "validationCode" with
  | true, some code => do
    let o ← Command.orStop c.request.body.parsed .internalError
    if o.has "to" then do
      let number ← textOf svc o "to"
      let valid ← Command.act fun s : Storage ↦
        s.smsCompleteValidation svc number code c.caller.email
      return if valid then .ok else .badRequest Errors.SMSCouldNotValidate
    else send svc gateway c
  | _, _ => send svc gateway c

/-- `RESTAPI_sms_handler::DoPost`. -/
def doPost (c : Context) : Handling Response := do
  Command.ensure svc.smsEnabled (.badRequest Errors.SMSMFANotEnabled)
  if c.request.parameter? "validateNumber" == some "true" then do
    let o ← Command.orStop c.request.body.parsed .internalError
    if o.has "to" then do
      let number ← textOf svc o "to"
      let sent ← Command.act fun s : Storage ↦
        s.smsStartValidation svc gateway c.moment.now number c.caller.email
      return if sent then .ok else .badRequest Errors.SMSCouldNotBeSentRetry
    else completeOrSend svc gateway c
  else completeOrSend svc gateway c

end SmsHandler

/-- `RESTAPI_sms_handler`, on the public or on the internal router. -/
def smsHandler (gateway : SmsGateway) (internal : Bool) : Handler where
  methods := [.POST, .OPTIONS]
  internal := internal
  doGet _ := pure .nothing
  doPost := SmsHandler.doPost svc gateway

namespace EmailHandler

/-- `Obj->isArray("recipients")`, with the entries. -/
def recipients (o : JsonObject) : Option (List Json) :=
  match o.get? "recipients" with
  | some (.arr items) => some items
  | _ => none

/-- `RESTAPI_email_handler::DoPost`: the message is queued, which does not fail. -/
def doPost (c : Context) : Handling Response := do
  let o ← Command.orStop c.request.body.parsed .internalError
  match o.has "subject" && o.has "from" && o.has "text", recipients o with
  | true, some items => do
    let _ ← Command.lift (UserHandler.orThrow (items.head?.bind svc.json.varToString))
    let _ ← textOf svc o "subject"
    let _ ← textOf svc o "text"
    let _ ← textOf svc o "from"
    return .ok
  | _, _ => return .badRequest Errors.MissingOrInvalidParameters

end EmailHandler

/-- `RESTAPI_email_handler`, on the public or on the internal router. -/
def emailHandler (internal : Bool) : Handler where
  methods := [.POST, .OPTIONS]
  internal := internal
  doGet _ := pure .nothing
  doPost := EmailHandler.doPost svc

end RestApi

end OwSec
