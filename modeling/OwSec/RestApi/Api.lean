import OwSec.RestApi.ActionLinks
import OwSec.RestApi.ApiKey
import OwSec.RestApi.Messages
import OwSec.RestApi.Process
import OwSec.RestApi.Profile
import OwSec.RestApi.Session
import OwSec.RestApi.Signup
import OwSec.RestApi.SubUsers
import OwSec.RestApi.SystemSecret
import OwSec.RestApi.Totp
import OwSec.RestApi.Users
import OwSec.RestApi.Validate

/-!
# The routers

Everything that `RESTAPI_ExtRouter` and `RESTAPI_IntRouter` (`RESTAPI/RESTAPI_routers.cpp`) hand a
request to.  Most handlers work on the stores alone; the two end points of a session also keep the
open challenges, and the end point of the links answers with pages.  How a path selects its handler
is left out: a request comes with the handler that its path selects.
-/

namespace OwSec

open SecurityObjects

namespace RestApi

/-- The handlers that work on the stores alone, with the part of the form for a picture. -/
inductive Route
  | user | users
  | systemCommand | systemConfiguration | assetServer | systemEndpoints
  | avatar (part : AvatarPart) | subavatar (part : AvatarPart)
  | email | sms
  | preferences | subpreferences
  | subuser | subusers | submfa
  | totp | subtotp
  | signup
  | validateSubToken | validateToken | validateApiKey
  | webSocketServer | apiKey | systemSecret
  /-- No handler has this path. -/
  | unknown

/-- What the handlers find around them. -/
structure Installation where
  svc : Service
  process : Process
  gateway : SmsGateway
  source : TotpSource
  /-- `openwifi.avatar.maxsize`. -/
  avatarMaxSize : ℕ

/-- `RESTAPI_UnknownRequestHandler`: it has no methods. -/
def unknownRequestHandler (internal : Bool) : Handler where
  methods := []
  internal := internal
  doGet _ := pure .nothing

/-- The handler that a router builds; the web socket and the API keys are on the public router
only. -/
def router (x : Installation) (internal : Bool) : Route → Handler
  | .user => userHandler x.svc internal
  | .users => usersHandler x.svc internal
  | .systemCommand => systemCommandHandler x.process x.svc.json internal
  | .systemConfiguration => systemConfigurationHandler x.process internal
  | .assetServer => assetServer x.process internal
  | .systemEndpoints => systemEndpointsHandler x.process internal
  | .avatar part => avatarHandler x.svc false x.avatarMaxSize part internal
  | .subavatar part => avatarHandler x.svc true x.avatarMaxSize part internal
  | .email => emailHandler x.svc internal
  | .sms => smsHandler x.svc x.gateway internal
  | .preferences => preferencesHandler x.svc false internal
  | .subpreferences => preferencesHandler x.svc true internal
  | .subuser => subuserHandler x.svc internal
  | .subusers => subusersHandler x.svc internal
  | .submfa => submfaHandler x.svc x.gateway internal
  | .totp => totpHandler x.source internal
  | .subtotp => subtotpHandler x.source internal
  | .signup => signupHandler x.svc internal
  | .validateSubToken => validateSubTokenHandler x.svc internal
  | .validateToken => validateTokenHandler x.svc internal
  | .validateApiKey => validateApiKeyHandler x.svc internal
  | .webSocketServer => if internal then unknownRequestHandler true else webSocketServer
  | .apiKey => if internal then unknownRequestHandler true else apiKeyHandler x.svc
  | .systemSecret => systemSecretHandler internal
  | .unknown => unknownRequestHandler internal

/-- What a request finds of its own. -/
structure Arrival where
  /-- It came to the internal router. -/
  internal : Bool
  rateExceeded : Bool
  moment : Moment

/-- A request to one of the routers. -/
inductive ApiRequest
  | rest (e : Route) (a : Arrival) (r : Request)
  /-- `RESTAPI_oauth2_handler`, or `RESTAPI_suboauth2_handler`. -/
  | session (isSub : Bool) (x : LoginContext) (internal rateExceeded : Bool) (r : Request)
  /-- `RESTAPI_action_links`. -/
  | link (x : LinkContext) (q : LinkRequest)

/-- What is sent back. -/
inductive ApiReply
  | answer (a : LoginAnswer)
  | page (p : LinkReply)
  deriving DecidableEq

variable (x : Installation)

/-- A request is served by its handler. -/
def serve : ApiRequest → LoginState → ApiReply × LoginState
  | .rest e a r, s =>
    let (reply, storage) :=
      handleRequest x.svc (router x a.internal e) a.moment a.rateExceeded r s.storage
    (.answer (.response reply), { s with storage })
  | .session isSub y internal rateExceeded r, s =>
    let (a, s) := y.handleSession isSub internal rateExceeded r s
    (.answer a, s)
  | .link y q, s =>
    let (p, storage) := y.handle s.storage q
    (.page p, { s with storage })

end RestApi

end OwSec
