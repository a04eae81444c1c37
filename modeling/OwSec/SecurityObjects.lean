import OwSec.Text

/-!
# Security objects

The records the service stores and exchanges, field by field in the source's order and
with the source's defaults (`RESTObjects/RESTAPI_SecurityObjects.h`).  A `uint64_t` is a
natural number; arithmetic that can wrap says so through `u64`.  An enumeration is an
inductive type, and the strings that stand for its members are read by the source's own
conversion functions.

Rows of the database carry some of these fields as text.  The conversion between a record
and its row is a separate concern: a table holds the records themselves.
-/

namespace OwSec

namespace SecurityObjects

/-- `USER_ROLE`, in the order of the source. -/
inductive UserRole
  | UNKNOWN | ROOT | ADMIN | SUBSCRIBER | CSR | SYSTEM | INSTALLER | NOC | ACCOUNTING | PARTNER
  deriving DecidableEq, Repr

open UserRole in
/-- `UserTypeFromString`: the comparison ignores case, anything else is `UNKNOWN`. -/
def userTypeFromString (s : String) : UserRole :=
  if icompareEq s "root" then ROOT
  else if icompareEq s "admin" then ADMIN
  else if icompareEq s "subscriber" then SUBSCRIBER
  else if icompareEq s "partner" then PARTNER
  else if icompareEq s "csr" then CSR
  else if icompareEq s "system" then SYSTEM
  else if icompareEq s "installer" then INSTALLER
  else if icompareEq s "noc" then NOC
  else if icompareEq s "accounting" then ACCOUNTING
  else UNKNOWN

/-- `UserTypeToString`. -/
def userTypeToString : UserRole → String
  | .ROOT => "root"
  | .ADMIN => "admin"
  | .SUBSCRIBER => "subscriber"
  | .PARTNER => "partner"
  | .CSR => "csr"
  | .SYSTEM => "system"
  | .INSTALLER => "installer"
  | .NOC => "noc"
  | .ACCOUNTING => "accounting"
  | .UNKNOWN => "unknown"

/-- A role survives being stored as text, so a table may hold the role itself. -/
@[simp] theorem userTypeFromString_userTypeToString (r : UserRole) :
    userTypeFromString (userTypeToString r) = r := by
  cases r <;> decide

/-- `AclTemplate`. -/
structure AclTemplate where
  read : Bool := true
  readWrite : Bool := true
  readWriteCreate : Bool := true
  delete : Bool := true
  portalLogin : Bool := true
  deriving DecidableEq, Repr

/-- `WebToken`: what a client is told about its session. -/
structure WebToken where
  accessToken : String := ""
  refreshToken : String := ""
  idToken : String := ""
  tokenType : String := ""
  username : String := ""
  userMustChangePassword : Bool := false
  errorCode : ℕ := 0
  expiresIn : ℕ := 0
  idleTimeout : ℕ := 0
  aclTemplate : AclTemplate := {}
  created : ℕ := 0
  lastRefresh : ℕ := 0
  deriving DecidableEq, Repr

/-- `NoteInfo`. -/
structure NoteInfo where
  created : ℕ := 0
  createdBy : String := ""
  note : String := ""
  deriving DecidableEq, Repr

/-- `MobilePhoneNumber`. -/
structure MobilePhoneNumber where
  number : String := ""
  verified : Bool := false
  primary : Bool := false
  deriving DecidableEq, Repr

/-- `MfaAuthInfo`. -/
structure MfaAuthInfo where
  enabled : Bool := false
  method : String := ""
  deriving DecidableEq, Repr

/-- `UserLoginLoginExtensions`. -/
structure UserLoginLoginExtensions where
  mobiles : List MobilePhoneNumber := []
  mfa : MfaAuthInfo := {}
  authenticatorSecret : String := ""
  deriving DecidableEq, Repr

/-- `UserInfo`: a user or a subscriber. -/
structure UserInfo where
  id : String := ""
  name : String := ""
  description : String := ""
  avatar : String := ""
  email : String := ""
  validated : Bool := false
  validationEmail : String := ""
  validationDate : ℕ := 0
  creationDate : ℕ := 0
  validationURI : String := ""
  changePassword : Bool := false
  lastLogin : ℕ := 0
  currentLoginURI : String := ""
  lastPasswordChange : ℕ := 0
  lastEmailCheck : ℕ := 0
  waitingForEmailCheck : Bool := false
  locale : String := ""
  notes : List NoteInfo := []
  location : String := ""
  owner : String := ""
  createdBy : String := ""
  suspended : Bool := false
  blackListed : Bool := false
  userRole : UserRole := .UNKNOWN
  userTypeProprietaryInfo : UserLoginLoginExtensions := {}
  securityPolicy : String := ""
  securityPolicyChange : ℕ := 0
  currentPassword : String := ""
  lastPasswords : List String := []
  oauthType : String := ""
  oauthUserInfo : String := ""
  modified : ℕ := 0
  signingUp : String := ""
  deriving DecidableEq, Repr, Inhabited

/-- `UserInfoAndPolicy`. -/
structure UserInfoAndPolicy where
  webtoken : WebToken := {}
  userinfo : UserInfo := {}
  deriving DecidableEq, Repr

/-- `SubMfaConfig`. -/
structure SubMfaConfig where
  id : String := ""
  type : String := ""
  sms : String := ""
  email : String := ""
  deriving DecidableEq, Repr

/-- `Token`: a row of the `Tokens` or `SubTokens` table. -/
structure Token where
  token : String := ""
  refreshToken : String := ""
  tokenType : String := ""
  userName : String := ""
  created : ℕ := 0
  expires : ℕ := 0
  idleTimeout : ℕ := 0
  revocationDate : ℕ := 0
  lastRefresh : ℕ := 0
  deriving DecidableEq, Repr, Inhabited

/-- `LinkActions`, numbered from one as in the source. -/
inductive LinkActions
  | FORGOT_PASSWORD | VERIFY_EMAIL | SUB_FORGOT_PASSWORD | SUB_VERIFY_EMAIL | SUB_SIGNUP
  | EMAIL_INVITATION
  deriving DecidableEq, Repr

/-- The number under which an action is stored. -/
def LinkActions.toNat : LinkActions → ℕ
  | .FORGOT_PASSWORD => 1
  | .VERIFY_EMAIL => 2
  | .SUB_FORGOT_PASSWORD => 3
  | .SUB_VERIFY_EMAIL => 4
  | .SUB_SIGNUP => 5
  | .EMAIL_INVITATION => 6

/-- `ActionLink`: a row of the `Actions` table. -/
structure ActionLink where
  id : String := ""
  action : ℕ := 0
  userId : String := ""
  actionTemplate : String := ""
  «variables» : List (String × String) := []
  locale : String := ""
  message : String := ""
  sent : ℕ := 0
  created : ℕ := 0
  expires : ℕ := 0
  completed : ℕ := 0
  canceled : ℕ := 0
  userAction : Bool := true
  deriving DecidableEq, Repr

/-- `ApiKeyAccessRight`. -/
structure ApiKeyAccessRight where
  service : String := ""
  access : String := ""
  deriving DecidableEq, Repr

/-- `ApiKeyEntry`: a row of the `ApiKeys` table. -/
structure ApiKeyEntry where
  id : String := ""
  userUuid : String := ""
  name : String := ""
  description : String := ""
  apiKey : String := ""
  salt : String := ""
  created : ℕ := 0
  expiresOn : ℕ := 0
  rights : List ApiKeyAccessRight := []
  lastUse : ℕ := 0
  deriving DecidableEq, Repr

/-- `Sanitize`: what every response removes from a user record. -/
def sanitize (u : UserInfo) : UserInfo :=
  { u with currentPassword := "", lastPasswords := [], oauthType := "" }

end SecurityObjects

end OwSec
