import OwSec.Auth.PeerRevocation

/-!
# What a peer asks the security service

The two questions that another service asks (`framework/AuthClient.cpp`): is this token
valid, and is this API key valid.  Each is answered from a cache where it can be, and else
by a request to the security service.  A function that may make the request gets the reply
as an argument and says whether it looked at it.

The functions report through reference parameters; those that a call does not assign keep
the value that the caller gave them.
-/

namespace OwSec

open SecurityObjects Kit

namespace AuthClient

/-! ## Replies -/

/-- What a request to the security service brings back. -/
inductive Reply
  /-- The status, and the object in the body where the status is `HTTP_OK`. -/
  | status (code : ℕ) (response : JsonObject := [])
  /-- An exception, in the request or while its reply is read. -/
  | exception

/-- `HTTP_OK`. -/
def HTTP_OK : ℕ := 200

/-- `HTTP_GATEWAY_TIMEOUT`: also the status of a request that could not be made. -/
def HTTP_GATEWAY_TIMEOUT : ℕ := 504

variable (lib : JsonLibrary)

/-- The user and the token in the reply to a `validateToken` or `validateSubToken` request. -/
def Reply.tokenInformation : Reply → Option UserInfoAndPolicy
  | .status code response =>
    if code == HTTP_OK && response.has "tokenInfo" && response.has "userInfo" then
      some (UserInfoAndPolicy.fromJson lib response {})
    else none
  | .exception => none

/-- The user and the expiry in the reply to a `validateApiKey` request. -/
def Reply.apiKeyInformation : Reply → Option (UserInfoAndPolicy × ℕ)
  | .status code response =>
    if code == HTTP_OK && response.has "tokenInfo" && response.has "userInfo" then
      match (response.get? "expiresOn").bind lib.varToUInt64 with
      | some expiresOn => some (UserInfoAndPolicy.fromJson lib response {}, expiresOn)
      -- the field is missing, or is not a number
      | none => none
    else none
  | .exception => none

/-! ## Tokens -/

/-- The end point that the flag selects. -/
def validateEndPoint (isSub : Bool) : String :=
  if isSub then "/api/v1/validateSubToken" else "/api/v1/validateToken"

/-- What a call has done: whether it asked the security service, and its answer. -/
structure Outcome where
  requested : Bool
  accepted : Bool
  deriving DecidableEq, Repr

/-- `AuthClient::IsAuthorized`.  The flag only selects the end point of a request, so a call
that is answered from the cache does not look at it. -/
def isAuthorizedWith (now : ℕ) (c : TokenCache) (token : String) (reply : Reply) :
    Outcome × TokenCache :=
  match isAuthorized now c token with
  | (.accepted, c) => ({ requested := false, accepted := true }, c)
  | (.expired, c) => ({ requested := false, accepted := false }, c)
  | (.unknown, c) =>
    let (accepted, c) := retrieveTokenInformation now c token (reply.tokenInformation lib)
    ({ requested := true, accepted }, c)

/-! ## API keys -/

/-- `ApiKeyCacheEntry`. -/
structure ApiKeyCacheEntry where
  userInfo : UserInfoAndPolicy
  expiresOn : ℕ
  deriving DecidableEq, Repr

/-- `AuthClient::ApiKeyCache_`. -/
abbrev ApiKeyCache := Cache String ApiKeyCacheEntry

/-- The reference parameters of a call. -/
structure Report where
  uInfo : UserInfoAndPolicy := {}
  expired : Bool := false
  contacted : Bool := false
  deriving DecidableEq, Repr

/-- `AuthClient::RetrieveApiKeyInformation`, once the security service has replied. -/
def retrieveApiKeyInformation (c : ApiKeyCache) (report : Report) (sessionToken : String)
    (reply : Reply) : Bool × Report × ApiKeyCache :=
  match reply with
  | .exception => (false, { report with expired := false }, c)
  | .status code response =>
    if code == HTTP_GATEWAY_TIMEOUT then (false, { report with contacted := false }, c)
    else
      let report := { report with contacted := true }
      if code == HTTP_OK then
        if response.has "tokenInfo" && response.has "userInfo" && response.has "expiresOn" then
          let uInfo := UserInfoAndPolicy.fromJson lib response {}
          let report := { report with uInfo, expired := false }
          match (response.get? "expiresOn").bind lib.varToUInt64 with
          | some expiresOn =>
            (true, report, c.insert sessionToken { userInfo := uInfo, expiresOn })
          -- the conversion raises an exception
          | none => (false, report, c)
        else (false, report, c)
      else (false, { report with expired := false }, c)

/-- `AuthClient::IsValidApiKey`: an entry is used once its time is over, and dropped before. -/
def isValidApiKey (now : ℕ) (c : ApiKeyCache) (report : Report) (sessionToken : String)
    (reply : Reply) : Outcome × Report × ApiKeyCache :=
  match c.lookup sessionToken with
  | some user =>
    if user.expiresOn < now then
      ({ requested := false, accepted := true },
        { report with expired := false, uInfo := user.userInfo }, c)
    else
      let (accepted, report, c) :=
        retrieveApiKeyInformation lib (c.erase sessionToken) report sessionToken reply
      ({ requested := true, accepted }, report, c)
  | none =>
    let (accepted, report, c) := retrieveApiKeyInformation lib c report sessionToken reply
    ({ requested := true, accepted }, report, c)

/-! ## What a call leaves -/

/-- A reply is accepted exactly when it names a user and an expiry, and is then cached. -/
theorem retrieveApiKeyInformation_eq (c : ApiKeyCache) (report : Report) (token : String)
    (reply : Reply) :
    (retrieveApiKeyInformation lib c report token reply).1 =
        (reply.apiKeyInformation lib).isSome ∧
      (retrieveApiKeyInformation lib c report token reply).2.2 =
        match reply.apiKeyInformation lib with
        | some (userInfo, expiresOn) => c.insert token { userInfo, expiresOn }
        | none => c := by
  unfold retrieveApiKeyInformation Reply.apiKeyInformation
  cases reply with
  | exception => exact ⟨rfl, rfl⟩
  | status code response =>
    -- a member that is read is present
    have hhas {n : ℕ} (h : (response.get? "expiresOn").bind lib.varToUInt64 = some n) :
        response.has "expiresOn" = true := by
      obtain ⟨j, hj, -⟩ := Option.bind_eq_some_iff.mp h
      obtain ⟨m, hm, -⟩ := Option.map_eq_some_iff.mp hj
      exact List.any_eq_true.mpr ⟨m, List.mem_of_find?_eq_some hm, by simpa using List.find?_some hm⟩
    by_cases htimeout : code = HTTP_GATEWAY_TIMEOUT
    · subst htimeout
      exact ⟨rfl, rfl⟩
    by_cases hok : code = HTTP_OK
    · subst hok
      by_cases hfields : response.has "tokenInfo" = true ∧ response.has "userInfo" = true
      · rcases hread : (response.get? "expiresOn").bind lib.varToUInt64 with _ | n
        · by_cases hexpires : response.has "expiresOn" = true
          · simp [HTTP_GATEWAY_TIMEOUT, HTTP_OK, hfields, hexpires, hread]
          · simp [HTTP_GATEWAY_TIMEOUT, HTTP_OK, hfields, hexpires, hread]
        · simp [HTTP_GATEWAY_TIMEOUT, HTTP_OK, hfields, hhas hread, hread]
      · have hrefused : (response.has "tokenInfo" && response.has "userInfo") = false := by
          simpa using hfields
        simp [HTTP_GATEWAY_TIMEOUT, HTTP_OK, hrefused]
    · simp [htimeout, hok]

end AuthClient

end OwSec
