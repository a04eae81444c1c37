import OwSec.RestApi.OAuth2

/-!
# The end points of a session

`/api/v1/oauth2` and `/api/v1/suboauth2` as a whole: who am I (`DoGet`), log me out (`DoDelete`)
and everything that a POST does, behind the checks that every handler has.  The handlers ask for no
credential before a method runs; `DoGet` asks for one itself.
-/

namespace OwSec

open SecurityObjects Kit

namespace RestApi

variable (svc : Service)

namespace SessionHandlers

/-- The body shared by `RESTAPI_oauth2_handler::DoGet` and `RESTAPI_suboauth2_handler::DoGet`. -/
def doGet (isSub : Bool) (c : Context) : Handling Response := do
  let result ← Command.act fun s : Storage ↦
    isAuthorized svc c.moment.now isSub (credentialOf c.internal c.request) s
  let caller ← Command.orStop result.granted
    (.unAuthorized (if result.expired then Errors.EXPIRED_TOKEN else Errors.INVALID_TOKEN))
  if c.request.getBoolParameter "me" then return .user (sanitize caller.1.userinfo)
  else return .badRequest Errors.UnrecognizedRequest

/-- The body shared by `RESTAPI_oauth2_handler::DoDelete` and
`RESTAPI_suboauth2_handler::DoDelete`. -/
def doDelete (isSub : Bool) (c : Context) : Handling Response := do
  let token := c.request.getBinding "token"
  let sessionToken ← Command.orStop c.request.bearer
    (.badRequest Errors.MissingOrInvalidParameters)
  Command.ensure (!(token.isEmpty || token != sessionToken))
    (.badRequest Errors.MissingOrInvalidParameters)
  Command.write fun s : Storage ↦
    match isSub with
    | false => s.logout svc c.moment.now token
    | true => s.subLogout svc c.moment.now token
  return .status 204

end SessionHandlers

/-- The handler of a session, but for its POST, which works on more than the stores: the requests
of `RESTAPI_oauth2_handler` are counted, those of `RESTAPI_suboauth2_handler` are not. -/
def sessionHandler (isSub internal : Bool) : Handler where
  methods := [.POST, .DELETE, .GET, .OPTIONS]
  internal := internal
  alwaysAuthorize := false
  rateLimited := !isSub
  doGet := SessionHandlers.doGet svc isSub
  doDelete := SessionHandlers.doDelete svc isSub

/-- A request to the end point of a session. -/
def LoginContext.handleSession (x : LoginContext) (isSub internal rateExceeded : Bool)
    (r : Request) (s : LoginState) : LoginAnswer × LoginState :=
  let h := sessionHandler x.svc isSub internal
  match acceptRequest x.svc h x.moment rateExceeded r s.storage with
  | (.error e, storage) => (.response e, { s with storage })
  | (.ok c, storage) =>
    match r.method with
    | .POST => x.doPostWith isSub r { s with storage }
    | _ =>
      let (reply, storage) := answer (dispatch h c) storage
      (.response reply, { s with storage })

end RestApi

end OwSec
