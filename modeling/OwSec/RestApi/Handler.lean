import OwSec.AuthService
import OwSec.Kit.Command

/-!
# Request handlers

The part of a REST request that every handler shares (`framework/RESTAPI_Handler.h`): the
order of the checks before a handler's own code runs, the choice among the three ways of
authenticating a request, and the accessors for bindings and query parameters.

A handler is a structure with the arguments of its constructor and its four methods.  The
methods are commands: each failed check stops with the answer it sends.  A library
exception inside a method is answered by `handleRequest` with an internal error; an
exception of the C++ library is not caught there, and the request gets no answer.
-/

namespace OwSec

open SecurityObjects Kit

namespace RestApi

/-- The HTTP methods a handler can list, and any other. -/
inductive Method
  | GET | POST | PUT | DELETE | OPTIONS
  | other (name : String)
  deriving DecidableEq, Repr

/-- `RESTAPI::Errors::msg`. -/
structure Msg where
  errNum : ℕ
  errTxt : String
  deriving DecidableEq, Repr

namespace Errors

def PASSWORD_CHANGE_REQUIRED : Msg := ⟨1, "Password change required"⟩
def INVALID_CREDENTIALS : Msg := ⟨2, "Invalid credentials."⟩
def PASSWORD_ALREADY_USED : Msg := ⟨3, "Password already used."⟩
def USERNAME_PENDING_VERIFICATION : Msg := ⟨4, "Username pending verification."⟩
def PASSWORD_INVALID : Msg := ⟨5, "Password is invalid"⟩
def ACCESS_DENIED : Msg := ⟨7, "Access denied."⟩
def INVALID_TOKEN : Msg := ⟨8, "Invalid token."⟩
def EXPIRED_TOKEN : Msg := ⟨9, "Expired token."⟩
def RATE_LIMIT_EXCEEDED : Msg := ⟨10, "Rate limit exceeded."⟩
def BAD_MFA_TRANSACTION : Msg := ⟨11, "Bad MFA transaction."⟩
def MFA_FAILURE : Msg := ⟨12, "MFA failure."⟩
def SECURITY_SERVICE_UNREACHABLE : Msg :=
  ⟨13, "Security service is unreachable, try again later."⟩
def CANNOT_REFRESH_TOKEN : Msg := ⟨14, "Cannot refresh token."⟩
def ACCOUNT_SUSPENDED : Msg := ⟨15, "Account has been suspended."⟩
def InternalError : Msg := ⟨1002, "Internal error. Please try later."⟩
def InvalidJSONDocument : Msg := ⟨1003, "Invalid JSON document."⟩
def UnsupportedHTTPMethod : Msg := ⟨1004, "Unsupported HTTP Method"⟩
def RecordNotCreated : Msg := ⟨1011, "Record could not be created."⟩
def RecordNotUpdated : Msg := ⟨1012, "Record could not be updated."⟩
def MissingOrInvalidParameters : Msg := ⟨1018, "Invalid or missing parameters."⟩
def InvalidCommand : Msg := ⟨1031, "Invalid command."⟩
def MissingUserID : Msg := ⟨1037, "Missing user ID."⟩
def IdMustBe0 : Msg := ⟨1038, "To create a user, you must set the ID to 0"⟩
def InvalidUserRole : Msg := ⟨1039, "Invalid userRole."⟩
def InvalidEmailAddress : Msg := ⟨1040, "Invalid email address."⟩
def PasswordRejected : Msg := ⟨1041, "Password was rejected. This maybe an old password."⟩
def NeedMobileNumber : Msg := ⟨1044, "You must provide at least one validated phone number."⟩
def BadMFAMethod : Msg := ⟨1045, "MFA only supports sms or email."⟩
def InvalidPassword : Msg := ⟨1047, "Password does not conform to basic password rules."⟩
def UnrecognizedRequest : Msg := ⟨1050, "Ill-formed request. Please consult documentation."⟩
def AuthenticatorVerificationIncomplete : Msg :=
  ⟨1055, "Authenticator validation is not complete."⟩
def SMSCouldNotBeSentRetry : Msg :=
  ⟨1056, "SMS could not be sent to validate device, try later or change the phone number."⟩
def SMSCouldNotValidate : Msg := ⟨1057, "Code and number could not be validated"⟩
def UserAlreadyExists : Msg := ⟨1061, "Username already exists."⟩
def NotImplemented : Msg := ⟨1062, "Function not implemented."⟩
def SMSMFANotEnabled : Msg := ⟨1084, "SMS is not enabled in the security service."⟩
def EMailMFANotEnabled : Msg := ⟨1085, "email is not enabled in the security service."⟩
def TOTInvalidCode : Msg := ⟨1086, "Invalid code."⟩
def TOTInvalidIndex : Msg := ⟨1087, "Invalid index."⟩
def TOTRepeatedCode : Msg := ⟨1088, "Code is repeated. Must be new code."⟩
def TOTInvalidProtocol : Msg := ⟨1089, "Invalid protocol sequence."⟩
def TOTNoSession : Msg := ⟨1090, "No validation session present."⟩
def SignupAlreadySigned : Msg := ⟨1091, "User already signed up."⟩
def SMSMissingPhoneNumber : Msg := ⟨1094, "Missing phone number"⟩
def SMSTryLater : Msg := ⟨1095, "SMS could not be sent. Verify the number or try again later."⟩
def SMSMissingChallenge : Msg := ⟨1096, "Missing 'challengeCode'"⟩
def ApiKeyNameAlreadyExists : Msg := ⟨1147, "API Key name must be unique."⟩
def TooManyApiKeys : Msg := ⟨1148, "Too many API Keys have already been created."⟩
def UserMustExist : Msg := ⟨1149, "User must exist."⟩
def ApiKeyDoesNotExist : Msg := ⟨1150, "API Key does not exist."⟩

end Errors

/-- What a handler answers. -/
inductive Response
  /-- `BadRequest`, status 400. -/
  | badRequest (e : Msg)
  /-- `UnAuthorized`, status 403. -/
  | unAuthorized (e : Msg)
  /-- `NotFound`, status 404. -/
  | notFound
  /-- `OK`, status 200 without an object. -/
  | ok
  /-- `ProcessOptions`. -/
  | options
  /-- `ReturnObject` of a user record. -/
  | user (u : UserInfo)
  /-- `ReturnObject` of a list of user records. -/
  | users (us : List UserInfo)
  /-- `ReturnObject` of a list of user identifiers. -/
  | userIds (ids : List String)
  /-- `ReturnObject` of one stored secret. -/
  | secret (key value : String)
  /-- `ReturnObject` of all stored secrets. -/
  | secrets (entries : List (String × String))
  /-- `ReturnObject` of the known secret keys with their descriptions. -/
  | knownKeys (entries : List (String × String))
  /-- `ReturnObject` of an API key. -/
  | apiKey (key : ApiKeyEntry)
  /-- `ReturnObject` of a list of API keys. -/
  | apiKeys (keys : List ApiKeyEntry)
  /-- `InternalError`, status 500. -/
  | serverError (e : Msg)
  /-- `ReturnObject` of the second factor of a subscriber. -/
  | mfaConfig (config : SubMfaConfig)
  /-- `SendFileContent`. -/
  | file (content mediaType name : String)
  /-- How far the enrolment of an authenticator has come. -/
  | totpProgress (nextIndex : ℕ) (moreCodes : Bool)
  /-- `ReturnObject` of a user with their token, and of an expiry where there is one. -/
  | userAndPolicy (info : UserInfoAndPolicy) (expiresOn : Option ℕ)
  /-- `ReturnCountOnly`. -/
  | count (n : ℕ)
  /-- `ReturnStatus`: a status without content. -/
  | status (code : ℕ)
  /-- How an upload of a picture went. -/
  | avatarUpload (avatarId : String) (errorCode : ℕ) (errorText : Option String)
  /-- `SendFileContent` of a picture. -/
  | avatar (content : List UInt8) (mediaType name : String)
  /-- `ReturnObject` of preferences. -/
  | preferences (p : Preferences)
  /-- What the process knows without its stores: a file, or the text of an object. -/
  | external (content : String)
  /-- `ReturnRawJSON` of configuration parameters. -/
  | parameters (entries : List (String × String))
  /-- The method is empty: nothing is sent. -/
  | nothing
  /-- An exception that `handleRequest` does not catch. -/
  | uncaught
  deriving DecidableEq, Repr

/-- The answer of a request that was turned away: an error, or an answer that no method of a
handler chose. -/
def Response.refused : Response → Bool
  | .badRequest _ | .unAuthorized _ | .notFound | .options | .nothing | .uncaught => true
  | _ => false

/-- The answer to a library exception inside a handler. -/
def Response.internalError : Response := .badRequest Errors.InternalError

/-- The answers with which `handleRequest` turns a request away before a method runs. -/
inductive Response.TurnedAway : Response → Prop
  | malformed : TurnedAway .internalError
  | unauthorized (e : Msg) : TurnedAway (.unAuthorized e)
  | options : TurnedAway .options
  | notListed : TurnedAway (.badRequest Errors.UnsupportedHTTPMethod)
  | uncaught : TurnedAway .uncaught

theorem Response.TurnedAway.refused {r : Response} (h : r.TurnedAway) : r.refused = true := by
  cases h <;> rfl

/-- The body of a request, as `handleRequest` parses it. -/
inductive Body
  /-- No JSON body: `ParsedBody_` is a null pointer. -/
  | absent
  | object (o : JsonObject)
  /-- A JSON body that is not an object. -/
  | malformed

/-- The parsed body, or a null pointer. -/
def Body.parsed : Body → Option JsonObject
  | .object o => some o
  | _ => none

/-- The JSON parser accepts the body and it is an object, or there is none. -/
def Body.wellFormed : Body → Bool
  | .malformed => false
  | _ => true

/-- A request, after routing. -/
structure Request where
  method : Method := .GET
  /-- Header `X-INTERNAL-NAME`. -/
  internalName : Option String := none
  /-- Header `X-API-KEY`. -/
  apiKey : Option String := none
  /-- The bearer token of the `Authorization` header, if it carries one. -/
  bearer : Option String := none
  /-- `Bindings_`: the path parameters, by lower-case name. -/
  bindings : List (String × String) := []
  /-- The decoded query parameters. -/
  parameters : List (String × String) := []
  body : Body := .absent

namespace Request

/-- The first query parameter of a name. -/
def parameter? (r : Request) (name : String) : Option String :=
  (r.parameters.find? fun p ↦ p.1 = name).map Prod.snd

/-- `GetParameter(Name, Default)` for texts. -/
def getParameter (r : Request) (name : String) (default : String := "") : String :=
  (r.parameter? name).getD default

/-- `is_number`. -/
def isNumber (s : String) : Bool := !s.isEmpty && s.toList.all Char.isDigit

/-- `std::stoull` on decimal digits: `none` when the value does not fit. -/
def stoull (s : String) : Option ℕ :=
  let n := s.toList.foldl (fun n c ↦ 10 * n + (c.toNat - '0'.toNat)) 0
  if n < 2 ^ 64 then some n else none

/-- `GetParameter(Name, Default)` for numbers: `none` is the exception of `std::stoull`. -/
def getNumberParameter (r : Request) (name : String) (default : ℕ) : Option ℕ :=
  match r.parameter? name with
  | some value => if isNumber value then stoull value else some default
  | none => some default

/-- `GetBoolParameter`. -/
def getBoolParameter (r : Request) (name : String) (default : Bool := false) : Bool :=
  match r.parameter? name with
  | some value => if value == "true" || value == "false" then value == "true" else default
  | none => default

/-- `GetBinding`. -/
def getBinding (r : Request) (name : String) (default : String := "") : String :=
  ((r.bindings.find? fun b ↦ b.1 = toLower name).map Prod.snd).getD default

end Request

/-- `QueryBlock`. -/
structure QueryBlock where
  startDate : ℕ
  endDate : ℕ
  offset : ℕ
  limit : ℕ
  logType : ℕ
  serialNumber : String
  filter : String
  select : List String
  lifetime : Bool
  lastOnly : Bool
  newest : Bool
  countOnly : Bool
  additionalInfo : Bool
  deriving DecidableEq, Repr

/-- `InitQueryBlock`: `none` is an exception of `std::stoull`. -/
def initQueryBlock (r : Request) : Option QueryBlock := do
  let startDate ← r.getNumberParameter "startDate" 0
  let endDate ← r.getNumberParameter "endDate" 0
  let offset ← r.getNumberParameter "offset" 0
  let limit ← r.getNumberParameter "limit" 100
  let logType ← r.getNumberParameter "logType" 0
  return {
    startDate, endDate, offset, limit, logType
    serialNumber := r.getParameter "serialNumber"
    filter := r.getParameter "filter"
    select := tokenize ',' (r.getParameter "select")
    lifetime := r.getBoolParameter "lifetime"
    lastOnly := r.getBoolParameter "lastOnly"
    newest := r.getBoolParameter "newest"
    countOnly := r.getBoolParameter "countOnly"
    additionalInfo := r.getBoolParameter "withExtendedInfo" }

/-- What the methods of a handler see of the request and of the caller. -/
structure Context where
  request : Request
  /-- `Internal_`. -/
  internal : Bool
  moment : Moment
  /-- `UserInfo_`. -/
  userInfo : UserInfoAndPolicy := {}
  /-- `REST_Requester_`. -/
  requester : String := ""
  /-- `QB_`. -/
  queryBlock : QueryBlock

/-- `UserInfo_.userinfo`. -/
def Context.caller (c : Context) : UserInfo := c.userInfo.userinfo

/-- What runs inside a handler. -/
abbrev Handling := Command Storage Response

/-- A handler: what its constructor fixes, and its methods. -/
structure Handler where
  methods : List Method
  internal : Bool := false
  alwaysAuthorize : Bool := true
  rateLimited : Bool := false
  subOnlyService : Bool := false
  doGet : Context → Handling Response
  doPost : Context → Handling Response := fun _ ↦ pure .nothing
  doPut : Context → Handling Response := fun _ ↦ pure .nothing
  doDelete : Context → Handling Response := fun _ ↦ pure .nothing

/-! ## Authentication -/

/-- The credential on which a request is judged. -/
inductive Credential
  /-- A service, by its name and the key that services share. -/
  | service (name : String) (apiKey : Option String)
  /-- An API key of a user. -/
  | apiKey (key : String)
  /-- A bearer token, or none at all. -/
  | bearer (token : Option String)
  deriving DecidableEq, Repr

/-- Which credential `RESTAPIHandler::IsAuthorized` looks at. -/
def credentialOf (internal : Bool) (r : Request) : Credential :=
  if internal then
    match r.internalName with
    | some name => .service name r.apiKey
    | none => .bearer r.bearer
  else
    match r.apiKey with
    | some key => .apiKey key
    | none => .bearer r.bearer

/-- What `RESTAPIHandler::IsAuthorized` leaves behind. -/
structure AuthResult where
  /-- The answer `true`, with `UserInfo_` and `REST_Requester_`. -/
  granted : Option (UserInfoAndPolicy × String) := none
  expired : Bool := false
  contacted : Bool := false
  deriving DecidableEq, Repr

/-- `MicroService::IsValidAPIKEY`. -/
def isValidAPIKEY (svc : Service) (apiKey : Option String) : Bool := apiKey == some svc.myHash

/-- `RESTAPIHandler::IsAuthorized`: services are known by the shared key, users by an API
key or by a token. -/
def isAuthorized (svc : Service) (now : ℕ) (subOnly : Bool) (credential : Credential)
    (s : Storage) : AuthResult × Storage :=
  match credential with
  | .service name key =>
    ({ granted := if isValidAPIKEY svc key then some ({}, name) else none, contacted := true }, s)
  | .apiKey key =>
    let (r, s) := s.isValidApiKey svc now key
    ({ granted := r.uinfo.map fun ui ↦ (ui, ui.userinfo.email), expired := r.expired }, s)
  | .bearer token =>
    let (r, s) := s.authServiceIsAuthorized svc now token subOnly
    ({ granted := r.uinfo.map fun ui ↦ (ui, ui.userinfo.email), expired := r.expired }, s)

/-- The answer to a request that is not authorised. -/
def AuthResult.refusal (r : AuthResult) : Response :=
  .unAuthorized <|
    if r.expired then Errors.EXPIRED_TOKEN
    else if r.contacted then Errors.INVALID_TOKEN
    else Errors.SECURITY_SERVICE_UNREACHABLE

/-! ## `handleRequest` -/

/-- The authentication step of `handleRequest`; without it the caller is nobody. -/
def authenticate (svc : Service) (h : Handler) (m : Moment) (r : Request) (s : Storage) :
    AuthResult × Storage :=
  if h.alwaysAuthorize then
    isAuthorized svc m.now h.subOnlyService (credentialOf h.internal r) s
  else ({ granted := some ({}, "") }, s)

/-- `handleRequest` up to the point where one of the handler's methods is called. -/
def acceptRequest (svc : Service) (h : Handler) (m : Moment) (rateExceeded : Bool) (r : Request) :
    Handling Context := do
  Command.ensure r.body.wellFormed .internalError
  Command.ensure (!(h.rateLimited && rateExceeded)) (.unAuthorized Errors.RATE_LIMIT_EXCEEDED)
  Command.ensure (r.method != .OPTIONS) .options
  Command.ensure (h.methods.contains r.method) (.badRequest Errors.UnsupportedHTTPMethod)
  let result ← Command.act (authenticate svc h m r)
  let caller ← Command.orStop result.granted result.refusal
  let queryBlock ← Command.orStop (initQueryBlock r) .uncaught
  return {
    request := r
    internal := h.internal
    moment := m
    userInfo := caller.1
    requester := caller.2
    queryBlock }

/-- Call the method for the request. -/
def dispatch (h : Handler) (c : Context) : Handling Response :=
  match c.request.method with
  | .GET => h.doGet c
  | .POST => h.doPost c
  | .DELETE => h.doDelete c
  | .PUT => h.doPut c
  | _ => pure (.badRequest Errors.UnsupportedHTTPMethod)

/-- The answer of a command, whether it stopped or not. -/
def answer (c : Handling Response) (s : Storage) : Response × Storage :=
  match c s with
  | (.ok r, s) => (r, s)
  | (.error r, s) => (r, s)

/-- `RESTAPIHandler::handleRequest`. -/
def handleRequest (svc : Service) (h : Handler) (m : Moment) (rateExceeded : Bool)
    (r : Request) : Storage → Response × Storage :=
  answer (acceptRequest svc h m rateExceeded r >>= dispatch h)

/-! ## What the shared part guarantees -/

section Accept

variable (svc : Service) (h : Handler) (m : Moment) (rateExceeded : Bool) (r : Request)
variable {s s' : Storage} {c : Context}

/-- The checks of `handleRequest` that look at the request alone. -/
structure Acceptable : Prop where
  wellFormed : r.body.wellFormed = true
  rate : (!(h.rateLimited && rateExceeded)) = true
  notOptions : r.method ≠ .OPTIONS
  listed : h.methods.contains r.method = true
  parameters : ∃ q, initQueryBlock r = some q

/-- A method runs exactly when the request passes its own checks and is authenticated; the
authentication is all that has touched the storage by then. -/
theorem acceptRequest_eq_ok_iff :
    acceptRequest svc h m rateExceeded r s = (.ok c, s') ↔
      Acceptable h rateExceeded r ∧
      (authenticate svc h m r s).1.granted = some (c.userInfo, c.requester) ∧
      (authenticate svc h m r s).2 = s' ∧ c.request = r ∧ c.internal = h.internal ∧
      c.moment = m ∧ initQueryBlock r = some c.queryBlock := by
  simp only [acceptRequest, Command.bind_eq_ok, Command.ensure_eq_ok, Command.act_eq_ok,
    Command.orStop_eq_ok, Command.pure_eq_ok]
  constructor
  · rintro ⟨_, _, ⟨hbody, rfl⟩, _, _, ⟨hrate, rfl⟩, _, _, ⟨hopt, rfl⟩, _, _, ⟨hlisted, rfl⟩,
      result, s₁, hauth, caller, _, ⟨hgranted, rfl⟩, q, _, ⟨hq, rfl⟩, rfl, rfl⟩
    refine ⟨⟨hbody, hrate, by simpa using hopt, hlisted, q, hq⟩, ?_, ?_, rfl, rfl,
      rfl, hq⟩
    · rw [hauth]
      exact hgranted
    · rw [hauth]
  · rintro ⟨⟨hbody, hrate, hopt, hlisted, _⟩, hgranted, hs, hr, hi, hm, hq⟩
    refine ⟨⟨⟩, s, ⟨hbody, rfl⟩, ⟨⟩, s, ⟨hrate, rfl⟩, ⟨⟩, s,
      ⟨by simpa using hopt, rfl⟩, ⟨⟩, s, ⟨hlisted, rfl⟩, _, _, rfl, _, _, ⟨hgranted, rfl⟩, _, _,
      ⟨hq, rfl⟩, ?_, hs⟩
    cases c
    simp only at hr hi hm
    subst hr hi hm
    rfl

/-- A request that is let through reaches a method, with the query block that it has. -/
theorem exists_acceptRequest (hacceptable : Acceptable h rateExceeded r)
    (hgranted : (authenticate svc h m r s).1.granted = some (c.userInfo, c.requester))
    (hrequest : c.request = r) (hinternal : c.internal = h.internal) (hmoment : c.moment = m) :
    ∃ q, acceptRequest svc h m rateExceeded r s =
      (.ok { c with queryBlock := q }, (authenticate svc h m r s).2) := by
  obtain ⟨q, hq⟩ := hacceptable.parameters
  exact ⟨q, (acceptRequest_eq_ok_iff svc h m rateExceeded r).mpr
    ⟨hacceptable, hgranted, rfl, hrequest, hinternal, hmoment, hq⟩⟩

/-- The same as a rule: either the request is turned away before a method runs, or the method
starts in the state that the authentication left. -/
theorem wp_acceptRequest_turnedAway {Q : Context → Storage → Prop} {E : Response → Storage → Prop}
    (hQ : ∀ c : Context, Acceptable h rateExceeded r →
      (authenticate svc h m r s).1.granted = some (c.userInfo, c.requester) → c.request = r →
      c.internal = h.internal → c.moment = m → Q c (authenticate svc h m r s).2)
    (hE : ∀ e s', e.TurnedAway → s' = s ∨ s' = (authenticate svc h m r s).2 → E e s') :
    Command.wp (acceptRequest svc h m rateExceeded r) Q E s := by
  simp only [acceptRequest, Command.wp_bind, Command.wp_ensure, Command.wp_act, Command.wp_orStop,
    Command.wp_pure]
  refine ⟨fun hbody ↦ ⟨fun hrate ↦ ⟨fun hoptions ↦ ⟨fun hlisted ↦ ⟨fun caller hgranted ↦
    ⟨fun q hq ↦ ?_, fun _ ↦ hE _ _ .uncaught (.inr rfl)⟩,
      fun _ ↦ hE _ _ (.unauthorized _) (.inr rfl)⟩,
    fun _ ↦ hE _ _ .notListed (.inl rfl)⟩, fun _ ↦ hE _ _ .options (.inl rfl)⟩,
    fun _ ↦ hE _ _ (.unauthorized _) (.inl rfl)⟩, fun _ ↦ hE _ _ .malformed (.inl rfl)⟩
  exact hQ _ ⟨hbody, hrate, by simpa using hoptions, hlisted, q, hq⟩ hgranted rfl rfl rfl

/-- The rule without the list of the answers. -/
theorem wp_acceptRequest {Q : Context → Storage → Prop} {E : Response → Storage → Prop}
    (hQ : ∀ c : Context, Acceptable h rateExceeded r →
      (authenticate svc h m r s).1.granted = some (c.userInfo, c.requester) → c.request = r →
      c.internal = h.internal → c.moment = m → Q c (authenticate svc h m r s).2)
    (hE : ∀ e s', e.refused = true → s' = s ∨ s' = (authenticate svc h m r s).2 → E e s') :
    Command.wp (acceptRequest svc h m rateExceeded r) Q E s :=
  wp_acceptRequest_turnedAway svc h m rateExceeded r hQ fun e s' he ↦ hE e s' he.refused

/-- What holds however a command ends holds of its answer. -/
theorem answer_of_wp {P : Response → Storage → Prop} {d : Handling Response}
    (hwp : Command.wp d P P s) : P (answer d s).1 (answer d s).2 := by
  unfold answer
  unfold Command.wp at hwp
  rcases hrun : d s with ⟨_ | a, s'⟩
  · simpa only [hrun] using hwp
  · simpa only [hrun] using hwp

/-- What holds however a request is turned away and whatever its method does holds of the
whole request. -/
theorem handleRequest_rule {P : Response → Storage → Prop}
    (hmethod : ∀ c : Context, Acceptable h rateExceeded r →
      (authenticate svc h m r s).1.granted = some (c.userInfo, c.requester) → c.request = r →
      c.internal = h.internal → c.moment = m →
      Command.wp (dispatch h c) P P (authenticate svc h m r s).2)
    (hrefused : ∀ e s', e.refused = true → s' = s ∨ s' = (authenticate svc h m r s).2 → P e s') :
    P (handleRequest svc h m rateExceeded r s).1 (handleRequest svc h m rateExceeded r s).2 := by
  have hwp : Command.wp (acceptRequest svc h m rateExceeded r >>= dispatch h) P P s := by
    rw [Command.wp_bind]
    exact wp_acceptRequest svc h m rateExceeded r hmethod hrefused
  exact answer_of_wp hwp

/-- What holds of the answers that turn a request away and whatever its method does holds of the
answer to the whole request. -/
theorem handleRequest_answer_rule {P : Response → Prop}
    (hmethod : ∀ c : Context, Acceptable h rateExceeded r →
      (authenticate svc h m r s).1.granted = some (c.userInfo, c.requester) → c.request = r →
      c.internal = h.internal → c.moment = m →
      Command.wp (dispatch h c) (fun r _ ↦ P r) (fun r _ ↦ P r) (authenticate svc h m r s).2)
    (hrefused : ∀ e, e.TurnedAway → P e) : P (handleRequest svc h m rateExceeded r s).1 := by
  have hwp : Command.wp (acceptRequest svc h m rateExceeded r >>= dispatch h) (fun r _ ↦ P r)
      (fun r _ ↦ P r) s := by
    rw [Command.wp_bind]
    exact wp_acceptRequest_turnedAway svc h m rateExceeded r hmethod fun e _ he _ ↦ hrefused e he
  exact answer_of_wp hwp

/-- A request that is turned away ends there. -/
theorem handleRequest_of_error {e : Response}
    (hacc : acceptRequest svc h m rateExceeded r s = (.error e, s')) :
    handleRequest svc h m rateExceeded r s = (e, s') := by
  have hbind : (acceptRequest svc h m rateExceeded r >>= dispatch h) s = (.error e, s') := by
    show Command.andThen _ _ s = _
    unfold Command.andThen
    rw [hacc]
  unfold handleRequest answer
  rw [hbind]

/-- A request that is let through is answered by its method. -/
theorem handleRequest_of_ok (hacc : acceptRequest svc h m rateExceeded r s = (.ok c, s')) :
    handleRequest svc h m rateExceeded r s = answer (dispatch h c) s' := by
  have hbind : (acceptRequest svc h m rateExceeded r >>= dispatch h) s = dispatch h c s' := by
    show Command.andThen _ _ s = _
    unfold Command.andThen
    rw [hacc]
  unfold handleRequest answer
  rw [hbind]

end Accept

end RestApi

end OwSec
