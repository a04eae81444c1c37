import OwSec.RestApi.User

/-!
# The API key handler

`/api/v1/apiKey/{uuid}` (`RESTAPI_apiKey_handler.cpp`): reading, creating, describing and deleting
the API keys of a user.  Users manage their own keys and `ROOT` everybody's.  The value of a key is
a hash of the second in which it is created, of the user who asks for it, and of the token of that
user's session; neither the owner nor the name of the key is part of it.

The selection of a user's keys is taken by its meaning, not as a text.
-/

namespace OwSec

open SecurityObjects Kit

namespace Storage

/-- `GetRecords(0, 500, …, " userUuid='…' ")`. -/
def apiKeysOf (s : Storage) (userUuid : String) : List ApiKeyEntry :=
  (s.apiKeys.rows.filter (·.userUuid == userUuid)).take 500

/-- `ApiKeyDB::CreateRecord`. -/
def createApiKey (s : Storage) (r : ApiKeyEntry) : Bool × Storage :=
  match s.apiKeys.insert r with
  | some apiKeys => (true, { s with apiKeys })
  | none => (false, s)

end Storage

namespace RestApi

/-- `Utils::IsAlphaNumeric`. -/
def isAlphaNumeric (s : String) : Bool := s.toList.all Char.isAlphanum

namespace ApiKeyHandler

variable (svc : Service)

/-- `Utils::ComputeHash` of a salt, a caller and the caller's access token: the digest of one after
the other. -/
def computeApiKey (salt callerId accessToken : String) : String :=
  svc.computeHash (salt ++ callerId ++ accessToken)

/-- `Sanitize`. -/
def sanitize (k : ApiKeyEntry) : ApiKeyEntry := { k with salt := "" }

/-- The user whose keys the request is about, who is the caller unless the caller is `ROOT`. -/
def targetUser (c : Context) : Handling String := do
  let userUuid := c.request.getBinding "uuid"
  Command.ensure (!userUuid.isEmpty) (.badRequest Errors.MissingOrInvalidParameters)
  Command.ensure (userUuid == c.caller.id || c.caller.userRole == .ROOT)
    (.unAuthorized Errors.ACCESS_DENIED)
  return userUuid

/-- Another user than the caller must exist. -/
def mustExist (c : Context) (userUuid : String) (e : Response) : Handling PUnit :=
  if userUuid == c.caller.id then pure ⟨⟩
  else do
    let user ← Command.act fun s : Storage ↦
      s.onPopulation false fun p ↦ p.getUserById svc userUuid
    Command.ensure user.isSome e

/-- `RESTAPI_apiKey_handler::DoGet`. -/
def doGet (c : Context) : Handling Response := do
  let userUuid ← targetUser c
  let keys ← Command.reads fun s : Storage ↦ s.apiKeysOf userUuid
  Command.ensure (!keys.isEmpty) .notFound
  return .apiKeys (keys.map sanitize)

/-- `RESTAPI_apiKey_handler::DoDelete`. -/
def doDelete (c : Context) : Handling Response := do
  let userUuid ← targetUser c
  mustExist svc c userUuid .notFound
  let keyId := c.request.getParameter "keyUuid"
  Command.ensure (!keyId.isEmpty) (.badRequest Errors.MissingOrInvalidParameters)
  let key ← Command.reads fun s : Storage ↦ s.apiKeys.find? keyId
  let key ← Command.orStop key .notFound
  Command.ensure (key.userUuid == userUuid) (.badRequest Errors.MissingOrInvalidParameters)
  Command.write fun s ↦
    { s with
      posted := removeTokenSystemWide svc s.posted key.apiKey
      apiKeys := s.apiKeys.delete keyId }
  return .ok

/-- What `DoPost` keeps of the key in the body. -/
def requestedKey (userUuid : String) (k : ApiKeyEntry) : ApiKeyEntry :=
  { k with lastUse := 0, name := toLower k.name, userUuid }

/-- What `DoPost` adds to it. -/
def newKey (c : Context) (k : ApiKeyEntry) : ApiKeyEntry :=
  let salt := toString c.moment.now
  { k with
    id := c.moment.uuid
    salt := salt
    apiKey := computeApiKey svc salt c.caller.id c.userInfo.webtoken.accessToken
    created := c.moment.now }

/-- `RESTAPI_apiKey_handler::DoPost`. -/
def doPost (c : Context) : Handling Response := do
  let userUuid ← targetUser c
  mustExist svc c userUuid (.badRequest Errors.UserMustExist)
  let key ← Command.orStop (ApiKeyEntry.fromJson svc.json c.request.body.parsed)
    (.badRequest Errors.InvalidJSONDocument)
  Command.ensure (isAlphaNumeric key.name && !key.name.isEmpty)
    (.badRequest Errors.MissingOrInvalidParameters)
  let key := requestedKey userUuid key
  Command.ensure (!decide (key.expiresOn < c.moment.now))
    (.badRequest Errors.MissingOrInvalidParameters)
  let existing ← Command.reads fun s : Storage ↦ s.apiKeysOf userUuid
  Command.ensure (!existing.any (·.name == key.name))
    (.badRequest Errors.ApiKeyNameAlreadyExists)
  Command.ensure (!decide (10 ≤ existing.length)) (.badRequest Errors.TooManyApiKeys)
  let key := newKey svc c key
  let created ← Command.act fun s : Storage ↦ s.createApiKey key
  Command.ensure created (.badRequest Errors.RecordNotCreated)
  return .apiKey key

/-- `RESTAPI_apiKey_handler::DoPut`: the description alone can be changed. -/
def doPut (c : Context) : Handling Response := do
  let userUuid ← targetUser c
  let key ← Command.orStop (ApiKeyEntry.fromJson svc.json c.request.body.parsed)
    (.badRequest Errors.InvalidJSONDocument)
  let existing ← Command.reads fun s : Storage ↦ s.apiKeys.find? key.id
  let existing ← Command.orStop existing (.badRequest Errors.ApiKeyDoesNotExist)
  Command.ensure (existing.userUuid == userUuid) (.badRequest Errors.MissingUserID)
  let description ← Command.lift <|
    UserHandler.assignIfPresent svc.json (c.request.body.parsed.getD []) "description"
      existing.description
  let existing := { existing with description }
  let updated ← Command.act fun s : Storage ↦
    ((s.apiKeys.update existing.id existing).isSome, s.updateApiKey existing.id existing)
  Command.ensure updated (.badRequest Errors.RecordNotUpdated)
  return .apiKey existing

end ApiKeyHandler

/-- `RESTAPI_apiKey_handler`, which only the public router has. -/
def apiKeyHandler (svc : Service) : Handler where
  methods := [.GET, .PUT, .POST, .DELETE, .OPTIONS]
  doGet := ApiKeyHandler.doGet
  doPost := ApiKeyHandler.doPost svc
  doPut := ApiKeyHandler.doPut svc
  doDelete := ApiKeyHandler.doDelete svc

end RestApi

end OwSec
