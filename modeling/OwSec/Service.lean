import OwSec.Json
import OwSec.Kit.Sql

/-!
# The service and its surroundings

`Service` collects what does not change while the service runs: the configuration read at
start-up, and the libraries whose code is not in the repository.  `Moment` collects what
the outside world supplies to one operation: the clock, and the values that are drawn
afresh (identifiers, tokens, salts).  Nothing is assumed about either; where a result needs
fresh values it says so.
-/

namespace OwSec

/-- The configuration of a running service and the external libraries it calls. -/
structure Service where
  /-- The JSON library. -/
  json : JsonLibrary
  /-- `Utils::ToHex(SHA2_.digest())` of a text. -/
  sha2Hex : String → String
  /-- `Utils::ComputeHash` of a token. -/
  computeHash : String → String
  /-- `authentication.validation.expression`. -/
  passwordValidation : String → Bool
  /-- `subscriber.validation.expression`. -/
  subPasswordValidation : String → Bool
  /-- `authentication.token.ageing`. -/
  tokenAging : ℕ
  /-- `authentication.refresh_token.lifespan`. -/
  refreshTokenLifeSpan : ℕ
  /-- `authentication.oldpasswords`. -/
  howManyOldPassword : ℕ
  /-- `KafkaManager()->Enabled()`. -/
  kafkaEnabled : Bool
  /-- `MicroServiceID()`. -/
  microServiceId : ℕ
  /-- `MyHash_`: the key with which services address each other. -/
  myHash : String
  /-- `SMSSender()->Enabled()`. -/
  smsEnabled : Bool
  /-- `SMTPMailerService()->Enabled()`. -/
  mailEnabled : Bool
  /-- Private and public end points of the provisioning services. -/
  provisioningEndPoints : List (String × String)
  /-- The database engine, one in which a doubled quote is the only escape in a literal. -/
  dialect : Kit.Sql.Dialect

/-- What the surroundings supply to one operation. -/
structure Moment where
  /-- `OpenWifi::Now()`. -/
  now : ℕ
  /-- `MicroServiceCreateUUID()`, first call. -/
  uuid : String
  /-- `MicroServiceCreateUUID()`, second call. -/
  uuid' : String
  /-- `GetMeSomeSalt()`. -/
  salt : String
  /-- `GenerateTokenHMAC`: a new access token. -/
  accessToken : String
  /-- `GenerateTokenHMAC`: a new id token. -/
  idToken : String
  /-- `GenerateTokenHMAC`: a new refresh token. -/
  refreshToken : String

/-- A `remove-token` message on the service bus. -/
structure BusMessage where
  event : String
  id : ℕ
  token : String
  deriving DecidableEq, Repr

/-- The event that tells the other services to forget a token. -/
def removeTokenEvent (svc : Service) (token : String) : BusMessage :=
  { event := "remove-token", id := svc.microServiceId, token := token }

/-- `AuthService::RemoveTokenSystemWide`: post the event when the bus is enabled. -/
def removeTokenSystemWide (svc : Service) (posted : List BusMessage) (token : String) :
    List BusMessage :=
  if svc.kafkaEnabled then posted ++ [removeTokenEvent svc token] else posted

/-- Posting for several tokens, one after the other. -/
theorem foldl_removeTokenSystemWide (svc : Service) (posted : List BusMessage)
    (tokens : List String) :
    tokens.foldl (removeTokenSystemWide svc) posted =
      posted ++ if svc.kafkaEnabled then tokens.map (removeTokenEvent svc) else [] := by
  induction tokens generalizing posted with
  | nil => simp
  | cons t ts ih =>
    rw [List.foldl_cons, ih]
    by_cases hk : svc.kafkaEnabled <;> simp [removeTokenSystemWide, hk]

/-- Two events are the same only for the same token. -/
theorem removeTokenEvent_injective (svc : Service) : (removeTokenEvent svc).Injective :=
  fun _ _ h ↦ congrArg BusMessage.token h

/-! ## A concrete service

Conversions and hashes that can be evaluated, on which examples run.  The hash is the text
itself between brackets, which is injective. -/

/-- Conversions of scalar values. -/
def JsonLibrary.sample : JsonLibrary where
  varToString
    | .bool b => some (if b then "true" else "false")
    | .int n => some (toString n)
    | .real text => some text
    | .str s => some s
    | _ => none
  varToUInt64
    | .int n => if 0 ≤ n then some n.toNat else none
    | _ => none
  parse _ := none

/-- A service with the bus enabled that issues tokens for an hour. -/
def Service.sample : Service where
  json := .sample
  sha2Hex s := "<" ++ s ++ ">"
  computeHash s := "<" ++ s ++ ">"
  passwordValidation s := 8 ≤ s.length
  subPasswordValidation s := 8 ≤ s.length
  tokenAging := 3600
  refreshTokenLifeSpan := 7200
  howManyOldPassword := 5
  kafkaEnabled := true
  microServiceId := 7
  myHash := "my-hash"
  smsEnabled := false
  mailEnabled := false
  provisioningEndPoints := [("https://prov:16005", "https://prov:16005")]
  dialect :=
    { lower := toLower
      like := fun text pattern ↦
        Kit.Sql.matchesPattern (toLower pattern).toList (toLower text).toList }

/-- A moment whose fresh values carry a common suffix. -/
def Moment.sample (now : ℕ) (suffix : String) : Moment where
  now := now
  uuid := "uuid-" ++ suffix
  uuid' := "link-" ++ suffix
  salt := "salt-" ++ suffix
  accessToken := "token-" ++ suffix
  idToken := "id-" ++ suffix
  refreshToken := "refresh-" ++ suffix

end OwSec
