import OwSec.RestApi.Handler

/-!
# The validation handlers

`/api/v1/validateToken`, `/api/v1/validateSubToken` and `/api/v1/validateApiKey`
(`RESTAPI_validate_token_handler.cpp`, `RESTAPI_validate_sub_token_handler.cpp` and
`RESTAPI_validate_apikey.cpp`), with which another service asks whose token or key it was shown.
The tokens are tried one after the other; of the keys only the first one counts.  All three answer
with the record as it is stored.
-/

namespace OwSec

open SecurityObjects Kit

namespace RestApi

namespace Request

/-- The values of the query parameters of a name, in the order of the query. -/
def parameterValues (r : Request) (name : String) : List String :=
  (r.parameters.filter fun p ↦ p.1 = name).map Prod.snd

end Request

variable (svc : Service)

namespace ValidateTokenHandlers

/-- `IsValidToken` or `IsValidSubToken`. -/
def isValidToken (isSub : Bool) (now : ℕ) (token : String) : Handling CheckResult :=
  Command.act fun s : Storage ↦
    match isSub with
    | false => s.isValidToken svc now token
    | true => s.isValidSubToken svc now token

/-- The loop over the parameters. -/
def firstValid (isSub : Bool) (now : ℕ) : List String → Handling Response
  | [] => pure .notFound
  | token :: rest => do
    let result ← isValidToken svc isSub now token
    match result.uinfo with
    | some secObj => return .userAndPolicy secObj none
    | none => firstValid isSub now rest

/-- The body shared by `RESTAPI_validate_token_handler::DoGet` and
`RESTAPI_validate_sub_token_handler::DoGet`. -/
def doGet (isSub : Bool) (c : Context) : Handling Response :=
  firstValid svc isSub c.moment.now (c.request.parameterValues "token")

end ValidateTokenHandlers

/-- `RESTAPI_validate_token_handler`, on the public or on the internal router. -/
def validateTokenHandler (internal : Bool) : Handler where
  methods := [.GET, .OPTIONS]
  internal := internal
  doGet := ValidateTokenHandlers.doGet svc false

/-- `RESTAPI_validate_sub_token_handler`, on the public or on the internal router. -/
def validateSubTokenHandler (internal : Bool) : Handler where
  methods := [.GET, .OPTIONS]
  internal := internal
  doGet := ValidateTokenHandlers.doGet svc true

namespace ValidateApiKeyHandler

/-- The key as `IsValidApiKey` finds it: where it expires, and whether a suspended owner is what
makes it invalid. -/
def keyStatus (now : ℕ) (s : Storage) (apiKey : String) : ℕ × Bool :=
  match s.getApiKey apiKey with
  | none => (0, false)
  | some entry =>
    if entry.expiresOn < now then (entry.expiresOn, false)
    else
      match (s.user.getUserById svc entry.userUuid).1 with
      | none => (entry.expiresOn, false)
      | some user => (entry.expiresOn, user.suspended)

/-- `RESTAPI_validate_apikey::DoGet`. -/
def doGet (c : Context) : Handling Response :=
  match c.request.parameterValues "apikey" with
  | [] => pure .notFound
  | apiKey :: _ => do
    let status ← Command.reads fun s ↦ keyStatus svc c.moment.now s apiKey
    let result ← Command.act fun s : Storage ↦ s.isValidApiKey svc c.moment.now apiKey
    match result.uinfo with
    | some secObj => return .userAndPolicy secObj (some status.1)
    | none =>
      return .unAuthorized (if status.2 then Errors.ACCOUNT_SUSPENDED else Errors.ACCESS_DENIED)

end ValidateApiKeyHandler

/-- `RESTAPI_validate_apikey`, on the public or on the internal router. -/
def validateApiKeyHandler (internal : Bool) : Handler where
  methods := [.GET, .OPTIONS]
  internal := internal
  doGet := ValidateApiKeyHandler.doGet svc

end RestApi

end OwSec
