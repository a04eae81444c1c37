import OwSec.Framework.JsonFields
import OwSec.RestApi.Profile

/-!
# Records on the wire

`to_json` and `from_json` of the records that the services exchange, in
`RESTObjects/RESTAPI_SecurityObjects.cpp`.  Each record is written field by field and read field by
field, in two functions that are kept apart by hand.  `members` is what `to_json` sets, in the order
of the source, and `readers` what `from_json` reads; where the readers are in `OwSec.Json` already,
they are those.

A record should be read as it was written.  Two fields of a session token and one of an API key are
not.
-/

namespace OwSec

open SecurityObjects Kit

namespace SecurityObjects

/-! ## `to_json` -/

/-- What `NoteInfo::to_json` sets. -/
def NoteInfo.members (n : NoteInfo) : JsonObject :=
  [("created", .int n.created), ("createdBy", .str n.createdBy), ("note", .str n.note)]

def NoteInfo.toJson (n : NoteInfo) : JsonObject := .ofMembers n.members

/-- What `MobilePhoneNumber::to_json` sets. -/
def MobilePhoneNumber.members (m : MobilePhoneNumber) : JsonObject :=
  [("number", .str m.number), ("verified", .bool m.verified), ("primary", .bool m.primary)]

def MobilePhoneNumber.toJson (m : MobilePhoneNumber) : JsonObject := .ofMembers m.members

/-- What `MfaAuthInfo::to_json` sets. -/
def MfaAuthInfo.members (m : MfaAuthInfo) : JsonObject :=
  [("enabled", .bool m.enabled), ("method", .str m.method)]

def MfaAuthInfo.toJson (m : MfaAuthInfo) : JsonObject := .ofMembers m.members

/-- What `UserLoginLoginExtensions::to_json` sets. -/
def UserLoginLoginExtensions.members (e : UserLoginLoginExtensions) : JsonObject :=
  [("mobiles", .ofRecords MobilePhoneNumber.toJson e.mobiles), ("mfa", .obj e.mfa.toJson),
    ("authenticatorSecret", .str e.authenticatorSecret)]

def UserLoginLoginExtensions.toJson (e : UserLoginLoginExtensions) : JsonObject :=
  .ofMembers e.members

/-- What `UserInfo::to_json` sets. -/
def UserInfo.members (u : UserInfo) : JsonObject :=
  [ ("id", .str u.id),
    ("name", .str u.name),
    ("description", .str u.description),
    ("avatar", .str u.avatar),
    ("email", .str u.email),
    ("validated", .bool u.validated),
    ("validationEmail", .str u.validationEmail),
    ("validationDate", .int u.validationDate),
    ("creationDate", .int u.creationDate),
    ("validationURI", .str u.validationURI),
    ("changePassword", .bool u.changePassword),
    ("lastLogin", .int u.lastLogin),
    ("currentLoginURI", .str u.currentLoginURI),
    ("lastPasswordChange", .int u.lastPasswordChange),
    ("lastEmailCheck", .int u.lastEmailCheck),
    ("waitingForEmailCheck", .bool u.waitingForEmailCheck),
    ("locale", .str u.locale),
    ("notes", .ofRecords NoteInfo.toJson u.notes),
    ("location", .str u.location),
    ("owner", .str u.owner),
    ("createdBy", .str u.createdBy),
    ("suspended", .bool u.suspended),
    ("blackListed", .bool u.blackListed),
    ("userRole", .str (userTypeToString u.userRole)),
    ("userTypeProprietaryInfo", .obj u.userTypeProprietaryInfo.toJson),
    ("securityPolicy", .str u.securityPolicy),
    ("securityPolicyChange", .int u.securityPolicyChange),
    ("currentPassword", .str u.currentPassword),
    ("lastPasswords", .ofStrings u.lastPasswords),
    ("oauthType", .str u.oauthType),
    ("oauthUserInfo", .str u.oauthUserInfo),
    ("modified", .int u.modified),
    ("signingUp", .str u.signingUp) ]

def UserInfo.toJson (u : UserInfo) : JsonObject := .ofMembers u.members

/-- What `AclTemplate::to_json` sets. -/
def AclTemplate.members (a : AclTemplate) : JsonObject :=
  [("Read", .bool a.read), ("ReadWrite", .bool a.readWrite),
    ("ReadWriteCreate", .bool a.readWriteCreate), ("Delete", .bool a.delete),
    ("PortalLogin", .bool a.portalLogin)]

def AclTemplate.toJson (a : AclTemplate) : JsonObject := .ofMembers a.members

/-- What `WebToken::to_json` sets: the error code twice, and no id token. -/
def WebToken.members (t : WebToken) : JsonObject :=
  [ ("access_token", .str t.accessToken),
    ("refresh_token", .str t.refreshToken),
    ("token_type", .str t.tokenType),
    ("expires_in", .int t.expiresIn),
    ("idle_timeout", .int t.idleTimeout),
    ("created", .int t.created),
    ("username", .str t.username),
    ("userMustChangePassword", .bool t.userMustChangePassword),
    ("errorCode", .int t.errorCode),
    ("aclTemplate", .obj t.aclTemplate.toJson),
    ("errorCode", .int t.errorCode),
    ("lastRefresh", .int t.lastRefresh) ]

def WebToken.toJson (t : WebToken) : JsonObject := .ofMembers t.members

/-- What `UserInfoAndPolicy::to_json` sets. -/
def UserInfoAndPolicy.members (u : UserInfoAndPolicy) : JsonObject :=
  [("tokenInfo", .obj u.webtoken.toJson), ("userInfo", .obj u.userinfo.toJson)]

def UserInfoAndPolicy.toJson (u : UserInfoAndPolicy) : JsonObject := .ofMembers u.members

/-- What `ActionLink::to_json` sets. -/
def ActionLink.members (a : ActionLink) : JsonObject :=
  [ ("id", .str a.id),
    ("action", .int a.action),
    ("userId", .str a.userId),
    ("actionTemplate", .str a.actionTemplate),
    ("variables", .ofPairs a.variables),
    ("locale", .str a.locale),
    ("message", .str a.message),
    ("sent", .int a.sent),
    ("created", .int a.created),
    ("expires", .int a.expires),
    ("completed", .int a.completed),
    ("canceled", .int a.canceled),
    ("userAction", .bool a.userAction) ]

def ActionLink.toJson (a : ActionLink) : JsonObject := .ofMembers a.members

/-- What `ApiKeyAccessRight::to_json` sets. -/
def ApiKeyAccessRight.members (r : ApiKeyAccessRight) : JsonObject :=
  [("service", .str r.service), ("access", .str r.access)]

def ApiKeyAccessRight.toJson (r : ApiKeyAccessRight) : JsonObject := .ofMembers r.members

/-- What `ApiKeyAccessRightList::to_json` sets. -/
def ApiKeyAccessRight.listMembers (acls : List ApiKeyAccessRight) : JsonObject :=
  [("acls", .ofRecords ApiKeyAccessRight.toJson acls)]

def ApiKeyAccessRight.listToJson (acls : List ApiKeyAccessRight) : JsonObject :=
  .ofMembers (listMembers acls)

/-- What `ApiKeyEntry::to_json` sets: the time of creation is not among it. -/
def ApiKeyEntry.members (k : ApiKeyEntry) : JsonObject :=
  [ ("id", .str k.id),
    ("userUuid", .str k.userUuid),
    ("name", .str k.name),
    ("apiKey", .str k.apiKey),
    ("salt", .str k.salt),
    ("description", .str k.description),
    ("expiresOn", .int k.expiresOn),
    ("rights", .obj (ApiKeyAccessRight.listToJson k.rights)),
    ("lastUse", .int k.lastUse) ]

def ApiKeyEntry.toJson (k : ApiKeyEntry) : JsonObject := .ofMembers k.members

end SecurityObjects

/-- What `Preferences::to_json` sets. -/
def Preferences.members (p : Preferences) : JsonObject :=
  [("id", .str p.id), ("modified", .int p.modified), ("data", .ofPairs p.data)]

def Preferences.toJson (p : Preferences) : JsonObject := .ofMembers p.members

/-! ## `from_json`

The readers of a record, and what `from_json` returns: the records of `OwSec.Json` are read inside
other records, where nobody looks at that. -/

/-- `from_json` on a fresh record: `none` is the result `false`. -/
def readRecord {α : Type} (fields : List (α → Bool × α)) (fresh : α) : Option α :=
  match readFields fields fresh with
  | (true, a) => some a
  | (false, _) => none

namespace SecurityObjects

variable (lib : JsonLibrary) (o : JsonObject)

/-- The fields of `NoteInfo::from_json`. -/
def NoteInfo.readers : List (NoteInfo → Bool × NoteInfo) :=
  [ readField (uint64FromJson lib o "created") (·.created) ({ · with created := · }),
    readField (stringFromJson lib o "createdBy") (·.createdBy) ({ · with createdBy := · }),
    readField (stringFromJson lib o "note") (·.note) ({ · with note := · }) ]

theorem NoteInfo.fromJson_eq (n : NoteInfo) :
    NoteInfo.fromJson lib o n = (readFields (NoteInfo.readers lib o) n).2 := rfl

/-- The fields of `MobilePhoneNumber::from_json`. -/
def MobilePhoneNumber.readers : List (MobilePhoneNumber → Bool × MobilePhoneNumber) :=
  [ readField (stringFromJson lib o "number") (·.number) ({ · with number := · }),
    readField (boolFromJson lib o "verified") (·.verified) ({ · with verified := · }),
    readField (boolFromJson lib o "primary") (·.primary) ({ · with primary := · }) ]

theorem MobilePhoneNumber.fromJson_eq (m : MobilePhoneNumber) :
    MobilePhoneNumber.fromJson lib o m = (readFields (MobilePhoneNumber.readers lib o) m).2 := rfl

/-- The fields of `MfaAuthInfo::from_json`. -/
def MfaAuthInfo.readers : List (MfaAuthInfo → Bool × MfaAuthInfo) :=
  [ readField (boolFromJson lib o "enabled") (·.enabled) ({ · with enabled := · }),
    readField (stringFromJson lib o "method") (·.method) ({ · with method := · }) ]

theorem MfaAuthInfo.fromJson_eq (m : MfaAuthInfo) :
    MfaAuthInfo.fromJson lib o m = (readFields (MfaAuthInfo.readers lib o) m).2 := rfl

/-- The fields of `UserLoginLoginExtensions::from_json`. -/
def UserLoginLoginExtensions.readers :
    List (UserLoginLoginExtensions → Bool × UserLoginLoginExtensions) :=
  [ readField (vecFromJson (MobilePhoneNumber.fromJson lib · {}) o "mobiles")
      (·.mobiles) ({ · with mobiles := · }),
    readField (objectFromJson (MfaAuthInfo.fromJson lib) o "mfa") (·.mfa) ({ · with mfa := · }),
    readField (stringFromJson lib o "authenticatorSecret")
      (·.authenticatorSecret) ({ · with authenticatorSecret := · }) ]

theorem UserLoginLoginExtensions.fromJson_eq (e : UserLoginLoginExtensions) :
    UserLoginLoginExtensions.fromJson lib o e =
      (readFields (UserLoginLoginExtensions.readers lib o) e).2 := rfl

/-- The fields of `AclTemplate::from_json`. -/
def AclTemplate.readers : List (AclTemplate → Bool × AclTemplate) :=
  [ readField (boolFromJson lib o "Read") (·.read) ({ · with read := · }),
    readField (boolFromJson lib o "ReadWrite") (·.readWrite) ({ · with readWrite := · }),
    readField (boolFromJson lib o "ReadWriteCreate")
      (·.readWriteCreate) ({ · with readWriteCreate := · }),
    readField (boolFromJson lib o "Delete") (·.delete) ({ · with delete := · }),
    readField (boolFromJson lib o "PortalLogin") (·.portalLogin) ({ · with portalLogin := · }) ]

theorem AclTemplate.fromJson_eq (a : AclTemplate) :
    AclTemplate.fromJson lib o a = (readFields (AclTemplate.readers lib o) a).2 := rfl

/-- The fields of `WebToken::from_json`. -/
def WebToken.readers : List (WebToken → Bool × WebToken) :=
  [ readField (objectFromJson (AclTemplate.fromJson lib) o "aclTemplate")
      (·.aclTemplate) ({ · with aclTemplate := · }),
    readField (stringFromJson lib o "access_token") (·.accessToken) ({ · with accessToken := · }),
    readField (stringFromJson lib o "refresh_token")
      (·.refreshToken) ({ · with refreshToken := · }),
    readField (stringFromJson lib o "token_type") (·.tokenType) ({ · with tokenType := · }),
    readField (uint64FromJson lib o "expires_in") (·.expiresIn) ({ · with expiresIn := · }),
    readField (uint64FromJson lib o "idle_timeout") (·.idleTimeout) ({ · with idleTimeout := · }),
    readField (uint64FromJson lib o "created") (·.created) ({ · with created := · }),
    readField (stringFromJson lib o "username") (·.username) ({ · with username := · }),
    readField (boolFromJson lib o "userMustChangePassword")
      (·.userMustChangePassword) ({ · with userMustChangePassword := · }),
    readField (uint64FromJson lib o "lastRefresh") (·.lastRefresh) ({ · with lastRefresh := · }) ]

theorem WebToken.fromJson_eq (t : WebToken) :
    WebToken.fromJson lib o t = (readFields (WebToken.readers lib o) t).2 := rfl

/-- The fields of `UserInfoAndPolicy::from_json`. -/
def UserInfoAndPolicy.readers : List (UserInfoAndPolicy → Bool × UserInfoAndPolicy) :=
  [ readField (objectFromJson (WebToken.fromJson lib) o "tokenInfo")
      (·.webtoken) ({ · with webtoken := · }),
    readField (objectFromJson (fun o u ↦ (readFields (UserInfo.readers lib o) u).2) o "userInfo")
      (·.userinfo) ({ · with userinfo := · }) ]

theorem UserInfoAndPolicy.fromJson_eq (u : UserInfoAndPolicy) :
    UserInfoAndPolicy.fromJson lib o u = (readFields (UserInfoAndPolicy.readers lib o) u).2 := rfl

/-- The fields of `ActionLink::from_json`. -/
def ActionLink.readers : List (ActionLink → Bool × ActionLink) :=
  [ readField (stringFromJson lib o "id") (·.id) ({ · with id := · }),
    readField (uint64FromJson lib o "action") (·.action) ({ · with action := · }),
    readField (stringFromJson lib o "userId") (·.userId) ({ · with userId := · }),
    readField (stringFromJson lib o "actionTemplate")
      (·.actionTemplate) ({ · with actionTemplate := · }),
    readField (pairsFromJson lib o "variables") (·.variables) ({ · with «variables» := · }),
    readField (stringFromJson lib o "locale") (·.locale) ({ · with locale := · }),
    readField (stringFromJson lib o "message") (·.message) ({ · with message := · }),
    readField (uint64FromJson lib o "sent") (·.sent) ({ · with sent := · }),
    readField (uint64FromJson lib o "created") (·.created) ({ · with created := · }),
    readField (uint64FromJson lib o "expires") (·.expires) ({ · with expires := · }),
    readField (uint64FromJson lib o "completed") (·.completed) ({ · with completed := · }),
    readField (uint64FromJson lib o "canceled") (·.canceled) ({ · with canceled := · }),
    readField (boolFromJson lib o "userAction") (·.userAction) ({ · with userAction := · }) ]

/-- The fields of `ApiKeyAccessRight::from_json`. -/
def ApiKeyAccessRight.readers : List (ApiKeyAccessRight → Bool × ApiKeyAccessRight) :=
  [ readField (stringFromJson lib o "service") (·.service) ({ · with service := · }),
    readField (stringFromJson lib o "access") (·.access) ({ · with access := · }) ]

theorem ApiKeyAccessRight.fromJson_eq (r : ApiKeyAccessRight) :
    ApiKeyAccessRight.fromJson lib o r = (readFields (ApiKeyAccessRight.readers lib o) r).2 := rfl

end SecurityObjects

/-- The fields of `Preferences::from_json`. -/
def Preferences.readers (lib : JsonLibrary) (o : JsonObject) :
    List (Preferences → Bool × Preferences) :=
  [ readField (stringFromJson lib o "id") (·.id) ({ · with id := · }),
    readField (uint64FromJson lib o "modified") (·.modified) ({ · with modified := · }),
    readField (pairsFromJson lib o "data") (·.data) ({ · with data := · }) ]

theorem Preferences.fromJson_eq (lib : JsonLibrary) (o : JsonObject) :
    Preferences.fromJson lib (some o) = readRecord (Preferences.readers lib o) {} := by
  unfold Preferences.fromJson readRecord Preferences.readers pairsFromJson pairFromJson
  generalize hdata : o.get? "data" = data
  rcases data with _ | j
  · simp only [hdata]
    rcases readFields _ _ with ⟨_ | _, p⟩ <;> rfl
  · cases j <;> simp only [hdata] <;> rcases readFields _ _ with ⟨_ | _, p⟩ <;> rfl

end OwSec
