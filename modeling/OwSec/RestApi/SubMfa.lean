import OwSec.RestApi.SubUser

/-!
# The second factor of a subscriber

`/api/v1/submfa` (`RESTAPI_submfa_handler.cpp`), where subscribers see and choose their own
second factor, and the validation of phone numbers behind it (`SMSSender.cpp`).  The
handler edits the record that it finds under the identifier of the caller; where it finds
none it goes on with an empty one.
-/

namespace OwSec

open SecurityObjects Kit

/-! ## `SMSSender` -/

/-- What the validation of a number gets from outside. -/
structure SmsGateway where
  /-- `MFAServer::MakeChallenge()`. -/
  challenge : String
  /-- `ProviderImpl_->Send(Number, Message)`. -/
  send : String → String → Bool

namespace Storage

variable (svc : Service)

/-- `SMSSender::CleanCache`. -/
def smsCleanCache (now : ℕ) (s : Storage) : Storage :=
  { s with sms := s.sms.filter fun i ↦ !decide (300 < u64 (now + 2 ^ 64 - i.created)) }

/-- `SMSSender::StartValidation`. -/
def smsStartValidation (gateway : SmsGateway) (now : ℕ) (s : Storage) (number userName : String) :
    Bool × Storage :=
  if svc.smsEnabled then
    let s := s.smsCleanCache now
    let e : SMSValidationCacheEntry :=
      { number, code := gateway.challenge, userName, created := now, validated := false }
    (gateway.send number ("Please enter the following code on your login screen: " ++
        gateway.challenge),
      { s with sms := s.sms ++ [e] })
  else (false, s)

/-- The loop of `SMSSender::CompleteValidation`: the first entry that fits is validated. -/
def validateFirst (number code userName : String) :
    List SMSValidationCacheEntry → Bool × List SMSValidationCacheEntry
  | [] => (false, [])
  | i :: rest =>
    if i.code == code && i.number == number && i.userName == userName then
      (true, { i with validated := true } :: rest)
    else
      let (found, rest) := validateFirst number code userName rest
      (found, i :: rest)

/-- `SMSSender::CompleteValidation`. -/
def smsCompleteValidation (s : Storage) (number code userName : String) : Bool × Storage :=
  if svc.smsEnabled then
    let (found, sms) := validateFirst number code userName s.sms
    (found, { s with sms })
  else (false, s)

end Storage

namespace RestApi

variable (svc : Service) (gateway : SmsGateway)

namespace SubMfaHandler

open SubUserHandler (getUserById updateUserInfo)

/-- What the caller is shown of the record.  The first number is read without a look at the
length of the list. -/
def configOf (user : UserInfo) : Handling SubMfaConfig :=
  let info := user.userTypeProprietaryInfo
  if info.mfa.enabled then
    if info.mfa.method == "sms" then do
      let first ← Command.orStop info.mobiles.head? .uncaught
      return { id := user.id, type := "sms", sms := first.number }
    else if info.mfa.method == "email" then
      return { id := user.id, type := "email", email := user.email }
    else return { id := user.id }
  else return { id := user.id, type := "disabled" }

/-- `RESTAPI_submfa_handler::DoGet`. -/
def doGet (c : Context) : Handling Response := do
  let user ← getUserById svc c.caller.id
  let user ← Command.orStop user .notFound
  return .mfaConfig (← configOf user)

/-- The record without its second factor. -/
def disabled (user : UserInfo) : UserInfo :=
  { user with
    userTypeProprietaryInfo :=
      { user.userTypeProprietaryInfo with
        mfa := { user.userTypeProprietaryInfo.mfa with enabled := false } } }

/-- The record with the e-mail as second factor. -/
def byEmail (user : UserInfo) : UserInfo :=
  { user with
    userTypeProprietaryInfo :=
      { user.userTypeProprietaryInfo with mfa := { enabled := true, method := "email" } } }

/-- The record with a validated number as second factor. -/
def bySms (number : String) (user : UserInfo) : UserInfo :=
  { user with
    userTypeProprietaryInfo :=
      { user.userTypeProprietaryInfo with
        mfa := { enabled := true, method := "sms" }
        mobiles := [{ number, primary := true, verified := true }] } }

/-- The edit of the caller's record; without one the default record is edited. -/
def editOwn (c : Context) (edit : UserInfo → UserInfo) : Handling PUnit := do
  let user ← getUserById svc c.caller.id
  let _ ← updateUserInfo svc c.caller.id (edit (user.getD {}))

/-- The `sms` branch of `DoPut`. -/
def putSms (c : Context) (mfc : SubMfaConfig) : Handling Response := do
  if c.request.getBoolParameter "startValidation" then
    Command.ensure (!mfc.sms.isEmpty) (.badRequest Errors.SMSMissingPhoneNumber)
    Command.ensure svc.smsEnabled (.badRequest Errors.SMSMFANotEnabled)
    let sent ← Command.act fun s : Storage ↦
      s.smsStartValidation svc gateway c.moment.now mfc.sms c.caller.email
    return if sent then .ok else .serverError Errors.SMSTryLater
  else if c.request.getBoolParameter "completeValidation" then
    Command.ensure svc.smsEnabled (.badRequest Errors.SMSMFANotEnabled)
    let challengeCode := c.request.getParameter "challengeCode"
    Command.ensure (!challengeCode.isEmpty) (.badRequest Errors.SMSMissingChallenge)
    Command.ensure (!mfc.sms.isEmpty) (.badRequest Errors.SMSMissingPhoneNumber)
    let valid ← Command.act fun s : Storage ↦
      s.smsCompleteValidation svc mfc.sms challengeCode c.caller.email
    Command.ensure valid (.serverError Errors.SMSTryLater)
    editOwn svc c (bySms mfc.sms)
    return .mfaConfig
      { id := c.moment.uuid, type := "sms", sms := mfc.sms, email := c.caller.email }
  else return .badRequest Errors.MissingOrInvalidParameters

/-- `RESTAPI_submfa_handler::DoPut`. -/
def doPut (c : Context) : Handling Response := do
  let mfc ← Command.orStop (SubMfaConfig.fromJson svc.json c.request.body.parsed)
    (.badRequest Errors.InvalidJSONDocument)
  if mfc.type == "disabled" then
    editOwn svc c disabled
    return .mfaConfig mfc
  else if mfc.type == "email" then
    editOwn svc c byEmail
    return .mfaConfig
      { id := c.moment.uuid, type := "email", sms := mfc.sms, email := c.caller.email }
  else if mfc.type == "sms" then putSms svc gateway c mfc
  else return .badRequest Errors.MissingOrInvalidParameters

end SubMfaHandler

/-- `RESTAPI_submfa_handler`, on the public or on the internal router. -/
def submfaHandler (internal : Bool) : Handler where
  methods := [.PUT, .GET, .OPTIONS]
  internal := internal
  subOnlyService := true
  doGet := SubMfaHandler.doGet svc
  doPut := SubMfaHandler.doPut svc gateway

end RestApi

end OwSec
