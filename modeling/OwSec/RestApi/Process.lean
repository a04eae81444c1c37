import OwSec.RestApi.Handler

/-!
# The end points of the process

The handlers that answer from what the process knows without its stores: the files of the asset
directory (`RESTAPI_asset_server.cpp`), the services on the bus
(`RESTAPI_system_endpoints_handler.cpp`), the logging subsystems
(`framework/RESTAPI_SystemCommand.h`), the configuration (`framework/RESTAPI_SystemConfiguration.h`)
and the web socket (`framework/RESTAPI_WebSocketServer.h`).  What they find there is given from
outside; which of it is sent, and to whom, is theirs.
-/

namespace OwSec

open SecurityObjects Kit

namespace RestApi

/-- What the process knows without its stores. -/
structure Process where
  /-- The file of the asset directory that a request names. -/
  asset : Request → Option String
  /-- `MicroServiceGetServices()`, as an object. -/
  endpoints : String
  /-- What the commands of a GET ask for: versions, resources, the extra configuration. -/
  info : String → String
  /-- What the commands of a POST ask for: levels and names of the logging subsystems. -/
  logging : String → String
  /-- Whether the array of subsystems of `setloglevel` can be read. -/
  readableSubsystems : List Json → Bool
  /-- `MicroServiceConfigGetString(Entry, "")`. -/
  config : String → String

variable (process : Process)

/-- `RESTAPI_asset_server`. -/
def assetServer (internal : Bool) : Handler where
  methods := [.POST, .GET, .PUT, .DELETE, .OPTIONS]
  internal := internal
  alwaysAuthorize := false
  doGet c := do
    let content ← Command.orStop (process.asset c.request) .notFound
    return .external content

/-- `RESTAPI_system_endpoints_handler`. -/
def systemEndpointsHandler (internal : Bool) : Handler where
  methods := [.GET, .OPTIONS]
  internal := internal
  doGet _ := pure (.external process.endpoints)

namespace SystemCommandHandler

/-- `RESTAPI_system_command::DoGet`. -/
def doGet (c : Context) : Handling Response :=
  match c.request.parameter? "command" with
  | some arg =>
    if ["info", "extraConfiguration", "resources"].contains arg then
      pure (.external (process.info arg))
    else pure (.badRequest Errors.InvalidCommand)
  | none => pure (.badRequest Errors.InvalidCommand)

/-- `Obj->isArray("subsystems")`, with the entries. -/
def subsystems (o : JsonObject) : Option (List Json) :=
  match o.get? "subsystems" with
  | some (.arr items) => some items
  | _ => none

/-- What `DoPost` does for each command. -/
def perform (o : JsonObject) (command : String) : Response :=
  if command == "setloglevel" then
    match subsystems o with
    | some items => if process.readableSubsystems items then .ok else .internalError
    | none => .badRequest Errors.MissingOrInvalidParameters
  else if ["getloglevels", "getloglevelnames", "getsubsystemnames"].contains command then
    .external (process.logging command)
  else if command == "reload" then .ok
  else .badRequest Errors.MissingOrInvalidParameters

/-- `RESTAPI_system_command::DoPost`. -/
def doPost (json : JsonLibrary) (c : Context) : Handling Response := do
  let o ← Command.orStop c.request.body.parsed .internalError
  match o.get? "command" with
  | some j => do
    let command ← Command.orStop (json.varToString j) .internalError
    return perform process o (toLower command)
  | none => return .badRequest Errors.InvalidCommand

end SystemCommandHandler

/-- `RESTAPI_system_command`, on the public or on the internal router. -/
def systemCommandHandler (json : JsonLibrary) (internal : Bool) : Handler where
  methods := [.POST, .GET, .OPTIONS]
  internal := internal
  doGet := SystemCommandHandler.doGet process
  doPost := SystemCommandHandler.doPost process json

namespace SystemConfigurationHandler

/-- `RESTAPI_system_configuration::DoGet`: the entries that are asked for, each with its value. -/
def doGet (c : Context) : Handling Response := do
  let entries := c.request.getParameter "entries"
  Command.ensure (!entries.isEmpty) (.badRequest Errors.MissingOrInvalidParameters)
  return .parameters
    (((tokenize ',' entries).map trim).map fun entry ↦ (entry, process.config entry))

/-- The body shared by `DoPut` and `DoDelete`. -/
def refuse (c : Context) : Handling Response := do
  Command.ensure (c.caller.userRole == .ROOT) (.unAuthorized Errors.ACCESS_DENIED)
  return .badRequest Errors.NotImplemented

end SystemConfigurationHandler

/-- `RESTAPI_system_configuration`, on the public or on the internal router. -/
def systemConfigurationHandler (internal : Bool) : Handler where
  methods := [.PUT, .GET, .DELETE, .OPTIONS]
  internal := internal
  doGet := SystemConfigurationHandler.doGet process
  doPut := SystemConfigurationHandler.refuse
  doDelete := SystemConfigurationHandler.refuse

/-- `RESTAPI_webSocketServer`, which only the public router has: the connection is handed over, and
no reply is written. -/
def webSocketServer : Handler where
  methods := [.GET, .OPTIONS]
  alwaysAuthorize := false
  doGet _ := pure .nothing

end RestApi

end OwSec
