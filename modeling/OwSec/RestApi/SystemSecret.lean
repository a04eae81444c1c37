import OwSec.RestApi.Handler

/-!
# The secret handler

`/api/v1/systemSecret/{secret}` (`RESTAPI_systemSecret_handler.cpp`): the secrets that the
services share, such as the keys of map and location services.
-/

namespace OwSec

open SecurityObjects Kit

namespace RestApi

namespace SystemSecretHandler

/-- The keys that the service documents. -/
def knownKeys : List (String × String) :=
  [("google.maps.apikey", "A Google Key specific for the Google MAPS API."),
    ("iptocountry.ipinfo.token", "IPInfo.io service token."),
    ("iptocountry.ipdata.apikey", "IPData.co API Key."),
    ("iptocountry.ip2location.apikey", "IP2Location.com API Key")]

/-- `SecretStore::Store`: a map, so the entries come in the order of their keys. -/
def store (s : Storage) : List (String × String) :=
  (s.secrets.entries.map fun e ↦ (e.1, e.2)).mergeSort fun a b ↦ decide (a.1 ≤ b.1)

/-- `RESTAPI_systemSecret_handler::DoGet`. -/
def doGet (c : Context) : Handling Response := do
  Command.ensure (c.internal || c.caller.userRole == .ROOT) (.unAuthorized Errors.ACCESS_DENIED)
  if c.request.getBoolParameter "all" then
    return .secrets (← Command.reads store)
  else if c.request.getBoolParameter "dictionary" then
    return .knownKeys knownKeys
  else do
    let key := c.request.getBinding "secret"
    Command.ensure (!key.isEmpty) (.badRequest Errors.MissingOrInvalidParameters)
    let value ← Command.reads fun s : Storage ↦ s.secrets.lookup key
    let value ← Command.orStop value .notFound
    return .secret key value

/-- `RESTAPI_systemSecret_handler::DoDelete`. -/
def doDelete (c : Context) : Handling Response := do
  Command.ensure (c.caller.userRole == .ROOT) (.unAuthorized Errors.ACCESS_DENIED)
  let key := c.request.getBinding "secret"
  Command.ensure (!key.isEmpty) (.badRequest Errors.MissingOrInvalidParameters)
  Command.write fun s ↦ { s with secrets := s.secrets.erase key }
  return .ok

/-- The value of `DoPut` that stands for none. -/
def noValue : String := "_______no_value_____"

/-- `RESTAPI_systemSecret_handler::DoPut`. -/
def doPut (c : Context) : Handling Response := do
  Command.ensure (c.caller.userRole == .ROOT) (.unAuthorized Errors.ACCESS_DENIED)
  let key := c.request.getBinding "secret"
  let value := c.request.getParameter "value" noValue
  Command.ensure (!(key.isEmpty || value == noValue))
    (.badRequest Errors.MissingOrInvalidParameters)
  Command.write fun s ↦ { s with secrets := s.secrets.insert key value }
  return .secret key value

end SystemSecretHandler

/-- `RESTAPI_systemSecret_handler`, on the public or on the internal router. -/
def systemSecretHandler (internal : Bool) : Handler where
  methods := [.GET, .PUT, .DELETE, .OPTIONS]
  internal := internal
  doGet := SystemSecretHandler.doGet
  doPut := SystemSecretHandler.doPut
  doDelete := SystemSecretHandler.doDelete

end RestApi

end OwSec
