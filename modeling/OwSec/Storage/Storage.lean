import OwSec.Storage.UserDB

/-!
# The storage service

Everything the service remembers: the two populations, and the tables and in-memory stores
that belong to neither or to both (`StorageService.h`, `TotpCache.h`, `SMSSender.h`,
`SecretStore.h`).  The tables of this file have no cache in front of them.
-/

namespace OwSec

open SecurityObjects Kit

/-- `Preferences`. -/
structure Preferences where
  id : String := ""
  modified : ℕ := 0
  data : List (String × String) := []
  deriving DecidableEq, Repr

/-- `Avatar`. -/
structure Avatar where
  id : String
  type : String
  created : ℕ
  name : String
  avatar : List UInt8

/-- `TotpCache::Entry`: an enrolment of an authenticator in progress. -/
structure TotpEntry where
  subscriber : Bool
  start : ℕ
  done : ℕ
  verifications : ℕ
  secret : String
  qrCode : String
  lastCode : String
  deriving DecidableEq

/-- `SMSValidationCacheEntry`. -/
structure SMSValidationCacheEntry where
  number : String
  code : String
  userName : String
  created : ℕ
  validated : Bool
  deriving DecidableEq

/-- The state of the service. -/
structure Storage where
  /-- `UserDB`, `UserTokenDB` and `LoginDB`. -/
  user : Population := {}
  /-- `SubDB`, `SubTokenDB` and `SubLoginDB`. -/
  sub : Population := {}
  /-- `ActionLinksDB`. -/
  actionLinks : Table String ActionLink ActionLink.id := .empty
  /-- `ApiKeyDB`. -/
  apiKeys : Table String ApiKeyEntry ApiKeyEntry.id := .empty
  /-- `PreferencesDB`. -/
  preferences : Table String Preferences Preferences.id := .empty
  /-- `SubPreferencesDB`. -/
  subPreferences : Table String Preferences Preferences.id := .empty
  /-- `AvatarDB`. -/
  avatars : Table String Avatar Avatar.id := .empty
  /-- `SubAvatarDB`. -/
  subAvatars : Table String Avatar Avatar.id := .empty
  /-- `TotpCache::Cache_`, by user identifier. -/
  totp : Cache String TotpEntry := ∅
  /-- `SMSSender::Cache_`. -/
  sms : List SMSValidationCacheEntry := []
  /-- `SecretStore`. -/
  secrets : Cache String String := ∅
  /-- Messages posted on behalf of API keys. -/
  posted : List BusMessage := []

instance : Inhabited Storage := ⟨{}⟩

namespace Storage

variable (svc : Service)

/-- The population that the `Sub` flag selects. -/
def population (s : Storage) : Bool → Population
  | false => s.user
  | true => s.sub

/-- Replace the population that the `Sub` flag selects. -/
def setPopulation (s : Storage) (isSub : Bool) (p : Population) : Storage :=
  match isSub with
  | false => { s with user := p }
  | true => { s with sub := p }

@[simp] theorem population_setPopulation (s : Storage) (isSub : Bool) (p : Population) :
    (s.setPopulation isSub p).population isSub = p := by
  cases isSub <;> rfl

/-- Replacing one population leaves the other. -/
theorem population_setPopulation_ne (s : Storage) {isSub isSub' : Bool} (p : Population)
    (h : isSub' ≠ isSub) : (s.setPopulation isSub p).population isSub' = s.population isSub' := by
  cases isSub <;> cases isSub' <;> first | rfl | exact absurd rfl h

/-! ## `ActionLinkDB` -/

/-- `ActionLinkDB::CreateAction`. -/
def createAction (s : Storage) (a : ActionLink) : Storage :=
  match s.actionLinks.insert a with
  | some actionLinks => { s with actionLinks }
  | none => s

/-- Storing a link leaves both populations alone. -/
@[simp] theorem population_createAction (s : Storage) (a : ActionLink) (isSub : Bool) :
    (s.createAction a).population isSub = s.population isSub := by
  unfold createAction
  split
  · cases isSub <;> rfl
  · rfl

/-! ## `ApiKeyDB` -/

/-- `GetRecord("apiKey", …)`. -/
def getApiKey (s : Storage) (apiKey : String) : Option ApiKeyEntry :=
  s.apiKeys.select (·.apiKey == apiKey)

/-- `UpdateRecord("id", …)`. -/
def updateApiKey (s : Storage) (id : String) (r : ApiKeyEntry) : Storage :=
  match s.apiKeys.update id r with
  | some apiKeys => { s with apiKeys }
  | none => s

/-- `ApiKeyDB::RemoveAllApiKeys`: the keys are announced as removed tokens. -/
def removeAllApiKeys (s : Storage) (userUuid : String) : Storage :=
  let keys := (s.apiKeys.rows.filter (·.userUuid == userUuid)).take 500
  { s with posted := (keys.map (·.apiKey)).foldl (removeTokenSystemWide svc) s.posted }

/-! ## `SpecialUserHelpers` -/

/-- What the configuration says about the default user. -/
structure DefaultUser where
  /-- `authentication.default.username`. -/
  username : String
  /-- `authentication.default.password`: a hash. -/
  password : String

/-- `NewDefaultUseridStockUUID`. -/
def newDefaultUseridStockUUID : String := "11111111-0000-0000-6666-999999999999"

/-- The default user as `CreateUser` stores it, with the password hashed already. -/
def DefaultUser.record (cfg : DefaultUser) (now : ℕ) : UserInfo where
  id := newDefaultUseridStockUUID
  name := "Default User"
  description := "Default user should be deleted."
  email := toLower cfg.username
  validated := true
  creationDate := now
  changePassword := true
  userRole := .ROOT
  currentPassword := cfg.password
  lastPasswords := [cfg.password]
  modified := now

/-- `InitializeDefaultUser`; the flag `defaultusercreated` is kept outside the database. -/
def initializeDefaultUser (cfg : DefaultUser) (now : ℕ) (created : Bool) (s : Storage) :
    Bool × Storage :=
  match s.user.getUserById svc newDefaultUseridStockUUID with
  | (some _, p) => (created, { s with user := p })
  | (none, p) =>
    if created then (created, { s with user := p })
    else
      match p.getRecordByEMail svc (toLower cfg.username) with
      | (some _, p) => (true, { s with user := p })
      | (none, p) => (true, { s with user := (p.createRecord (cfg.record now)).2 })

/-! ## `TotpCache` and `SMSSender` -/

/-- `TotpCache::CompleteValidation`: a finished enrolment is handed out once. -/
def totpCompleteValidation (now : ℕ) (s : Storage) (userId : String) (subscriber : Bool) :
    Option String × Storage :=
  match s.totp.lookup userId with
  | some e =>
    if subscriber == e.subscriber && u64 (now + 2 ^ 64 - e.start) < 15 * 60 && e.done != 0 then
      (some e.secret, { s with totp := s.totp.erase userId })
    else (none, s)
  | none => (none, s)

/-- Handing out an enrolment touches the store of enrolments alone. -/
theorem totpCompleteValidation_snd (now : ℕ) (s : Storage) (userId : String) (subscriber : Bool) :
    ∃ totp, (s.totpCompleteValidation now userId subscriber).2 = { s with totp } := by
  unfold totpCompleteValidation
  split
  · split
    · exact ⟨_, rfl⟩
    · exact ⟨s.totp, rfl⟩
  · exact ⟨s.totp, rfl⟩

/-- `SMSSender::IsNumberValid`: the first entry for the number and the user decides. -/
def smsIsNumberValid (s : Storage) (number userName : String) : Bool :=
  if svc.smsEnabled then
    match s.sms.find? fun i ↦ i.number == number && i.userName == userName with
    | some i => i.validated
    | none => false
  else false

end Storage

end OwSec
