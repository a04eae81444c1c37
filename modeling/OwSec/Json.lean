import OwSec.SecurityObjects

/-!
# Reading records from JSON

The service reads request bodies through a JSON library: values of a dynamic type that is
converted to text or to an integer on demand, each conversion raising an exception where
the value does not fit.  The library is not part of the repository, so its conversions
and its parser are the fields of `JsonLibrary`, and everything downstream holds for each
such library.

What the repository decides is modelled as written: which fields are read, in which
order, what an absent or `null` field does, and that a nested object or list swallows the
exception raised while reading it and keeps what was read until then.
-/

namespace OwSec

/-- A parsed JSON value. -/
inductive Json where
  | null
  | bool (b : Bool)
  | int (n : Int)
  | real (text : String)
  | str (s : String)
  | arr (items : List Json)
  | obj (fields : List (String × Json))

/-- A parsed JSON object: its members. -/
abbrev JsonObject := List (String × Json)

/-- The JSON library: conversions and parser; `none` is a raised exception. -/
structure JsonLibrary where
  /-- `Var::toString`. -/
  varToString : Json → Option String
  /-- Conversion of a `Var` to `uint64_t`. -/
  varToUInt64 : Json → Option ℕ
  /-- `Parser::parse`. -/
  parse : String → Option Json

namespace JsonObject

/-- `Obj->get(Field)`, where the member exists. -/
def get? (o : JsonObject) (field : String) : Option Json :=
  (o.find? fun m ↦ m.1 = field).map Prod.snd

/-- `Obj->has(Field)`. -/
def has (o : JsonObject) (field : String) : Bool := o.any fun m ↦ m.1 = field

end JsonObject

/-! ## `field_from_json`

A reader gets the present value of a field and gives the value after reading, together
with whether the reading ended without an exception. -/

section Fields

variable (lib : JsonLibrary) {α β : Type}

/-- A scalar field: absent and `null` keep the value, anything else is converted. -/
def fieldFromJson (convert : Json → Option α) (o : JsonObject) (field : String) (value : α) :
    Bool × α :=
  match o.get? field with
  | none => (true, value)
  | some .null => (true, value)
  | some j =>
    match convert j with
    | some value' => (true, value')
    | none => (false, value)

/-- A text field. -/
def stringFromJson := fieldFromJson lib.varToString

/-- A `uint64_t` field. -/
def uint64FromJson := fieldFromJson lib.varToUInt64

/-- A Boolean field: true exactly when its text is `true`. -/
def boolFromJson := fieldFromJson fun j ↦ (lib.varToString j).map (· == "true")

/-- A role field, read through `UserTypeFromString`. -/
def roleFromJson :=
  fieldFromJson fun j ↦ (lib.varToString j).map SecurityObjects.userTypeFromString

/-- The elements of an array up to the first one that cannot be read. -/
def elementsFromJson (convert : Json → Option α) : List Json → Bool × List α
  | [] => (true, [])
  | j :: rest =>
    match convert j with
    | none => (false, [])
    | some item =>
      let (ok, items) := elementsFromJson convert rest
      (ok, item :: items)

/-- A list of texts: an array replaces the value, anything else keeps it. -/
def stringVecFromJson (o : JsonObject) (field : String) (value : List String) :
    Bool × List String :=
  match o.get? field with
  | some (.arr items) => elementsFromJson lib.varToString items
  | _ => (true, value)

/-- `extract<Object::Ptr>()` followed by `from_json` on a fresh element. -/
def elementFromJson (fromJson : JsonObject → α) : Json → Option α
  | .obj o => some (fromJson o)
  | _ => none

/-- A list of objects: the elements of an array are appended to the value. -/
def vecFromJson (fromJson : JsonObject → α) (o : JsonObject) (field : String)
    (value : List α) : Bool × List α :=
  match o.get? field with
  | some (.arr items) =>
    let (ok, read) := elementsFromJson (elementFromJson fromJson) items
    (ok, value ++ read)
  | _ => (true, value)

/-- A nested object: only an object is read, and its own exceptions stay inside. -/
def objectFromJson (fromJson : JsonObject → α → α) (o : JsonObject) (field : String)
    (value : α) : Bool × α :=
  match o.get? field with
  | some (.obj inner) => (true, fromJson inner value)
  | _ => (true, value)

/-- Read one field of a record. -/
def readField (reader : β → Bool × β) (get : α → β) (set : α → β → α) (a : α) : Bool × α :=
  let (ok, b) := reader (get a)
  (ok, set a b)

/-- Read a record field by field; the first exception stops the reading, and what was
assigned before it stays. -/
def readFields (fields : List (α → Bool × α)) (a : α) : Bool × α :=
  match fields with
  | [] => (true, a)
  | field :: rest =>
    match field a with
    | (true, a') => readFields rest a'
    | (false, a') => (false, a')

end Fields

/-! ## `from_json` of the records -/

namespace SecurityObjects

variable (lib : JsonLibrary)

/-- `NoteInfo::from_json`. -/
def NoteInfo.fromJson (o : JsonObject) (n : NoteInfo) : NoteInfo :=
  (readFields
    [ readField (uint64FromJson lib o "created") (·.created) ({ · with created := · }),
      readField (stringFromJson lib o "createdBy") (·.createdBy) ({ · with createdBy := · }),
      readField (stringFromJson lib o "note") (·.note) ({ · with note := · }) ] n).2

/-- `MobilePhoneNumber::from_json`. -/
def MobilePhoneNumber.fromJson (o : JsonObject) (m : MobilePhoneNumber) : MobilePhoneNumber :=
  (readFields
    [ readField (stringFromJson lib o "number") (·.number) ({ · with number := · }),
      readField (boolFromJson lib o "verified") (·.verified) ({ · with verified := · }),
      readField (boolFromJson lib o "primary") (·.primary) ({ · with primary := · }) ] m).2

/-- `MfaAuthInfo::from_json`. -/
def MfaAuthInfo.fromJson (o : JsonObject) (m : MfaAuthInfo) : MfaAuthInfo :=
  (readFields
    [ readField (boolFromJson lib o "enabled") (·.enabled) ({ · with enabled := · }),
      readField (stringFromJson lib o "method") (·.method) ({ · with method := · }) ] m).2

/-- `UserLoginLoginExtensions::from_json`. -/
def UserLoginLoginExtensions.fromJson (o : JsonObject) (e : UserLoginLoginExtensions) :
    UserLoginLoginExtensions :=
  (readFields
    [ readField (vecFromJson (MobilePhoneNumber.fromJson lib · {}) o "mobiles")
        (·.mobiles) ({ · with mobiles := · }),
      readField (objectFromJson (MfaAuthInfo.fromJson lib) o "mfa") (·.mfa) ({ · with mfa := · }),
      readField (stringFromJson lib o "authenticatorSecret")
        (·.authenticatorSecret) ({ · with authenticatorSecret := · }) ] e).2

/-- The fields of `UserInfo::from_json`, in the order in which they are read. -/
def UserInfo.readers (o : JsonObject) : List (UserInfo → Bool × UserInfo) :=
  [ readField (stringFromJson lib o "id") (·.id) ({ · with id := · }),
    readField (stringFromJson lib o "name") (·.name) ({ · with name := · }),
    readField (stringFromJson lib o "description") (·.description) ({ · with description := · }),
    readField (stringFromJson lib o "avatar") (·.avatar) ({ · with avatar := · }),
    readField (stringFromJson lib o "email") (·.email) ({ · with email := · }),
    readField (stringFromJson lib o "validationEmail")
      (·.validationEmail) ({ · with validationEmail := · }),
    readField (stringFromJson lib o "validationURI")
      (·.validationURI) ({ · with validationURI := · }),
    readField (stringFromJson lib o "currentLoginURI")
      (·.currentLoginURI) ({ · with currentLoginURI := · }),
    readField (stringFromJson lib o "locale") (·.locale) ({ · with locale := · }),
    readField (vecFromJson (NoteInfo.fromJson lib · {}) o "notes")
      (·.notes) ({ · with notes := · }),
    readField (stringFromJson lib o "location") (·.location) ({ · with location := · }),
    readField (stringFromJson lib o "owner") (·.owner) ({ · with owner := · }),
    readField (stringFromJson lib o "createdBy") (·.createdBy) ({ · with createdBy := · }),
    readField (roleFromJson lib o "userRole") (·.userRole) ({ · with userRole := · }),
    readField (stringFromJson lib o "securityPolicy")
      (·.securityPolicy) ({ · with securityPolicy := · }),
    readField (objectFromJson (UserLoginLoginExtensions.fromJson lib) o "userTypeProprietaryInfo")
      (·.userTypeProprietaryInfo) ({ · with userTypeProprietaryInfo := · }),
    readField (uint64FromJson lib o "validationDate")
      (·.validationDate) ({ · with validationDate := · }),
    readField (uint64FromJson lib o "creationDate")
      (·.creationDate) ({ · with creationDate := · }),
    readField (uint64FromJson lib o "lastLogin") (·.lastLogin) ({ · with lastLogin := · }),
    readField (uint64FromJson lib o "lastPasswordChange")
      (·.lastPasswordChange) ({ · with lastPasswordChange := · }),
    readField (uint64FromJson lib o "lastEmailCheck")
      (·.lastEmailCheck) ({ · with lastEmailCheck := · }),
    readField (uint64FromJson lib o "securityPolicyChange")
      (·.securityPolicyChange) ({ · with securityPolicyChange := · }),
    readField (boolFromJson lib o "validated") (·.validated) ({ · with validated := · }),
    readField (boolFromJson lib o "changePassword")
      (·.changePassword) ({ · with changePassword := · }),
    readField (boolFromJson lib o "waitingForEmailCheck")
      (·.waitingForEmailCheck) ({ · with waitingForEmailCheck := · }),
    readField (boolFromJson lib o "suspended") (·.suspended) ({ · with suspended := · }),
    readField (boolFromJson lib o "blackListed") (·.blackListed) ({ · with blackListed := · }),
    readField (stringFromJson lib o "currentPassword")
      (·.currentPassword) ({ · with currentPassword := · }),
    readField (stringVecFromJson lib o "lastPasswords")
      (·.lastPasswords) ({ · with lastPasswords := · }),
    readField (stringFromJson lib o "oauthType") (·.oauthType) ({ · with oauthType := · }),
    readField (stringFromJson lib o "oauthUserInfo")
      (·.oauthUserInfo) ({ · with oauthUserInfo := · }),
    readField (uint64FromJson lib o "modified") (·.modified) ({ · with modified := · }),
    readField (stringFromJson lib o "signingUp") (·.signingUp) ({ · with signingUp := · }) ]

/-- `UserInfo::from_json` on a fresh record: `none` is the result `false`, which a missing
body (a null pointer) gives too. -/
def UserInfo.fromJson (body : Option JsonObject) : Option UserInfo :=
  match body with
  | none => none
  | some o =>
    match readFields (UserInfo.readers lib o) {} with
    | (true, u) => some u
    | (false, _) => none

/-- `SubMfaConfig::from_json` on a fresh record. -/
def SubMfaConfig.fromJson (body : Option JsonObject) : Option SubMfaConfig :=
  match body with
  | none => none
  | some o =>
    match readFields
      [ readField (stringFromJson lib o "id") (·.id) ({ · with id := · }),
        readField (stringFromJson lib o "type") (·.type) ({ · with type := · }),
        readField (stringFromJson lib o "sms") (·.sms) ({ · with sms := · }),
        readField (stringFromJson lib o "email") (·.email) ({ · with email := · }) ]
      ({} : SubMfaConfig) with
    | (true, c) => some c
    | (false, _) => none

/-- `AclTemplate::from_json`. -/
def AclTemplate.fromJson (o : JsonObject) (a : AclTemplate) : AclTemplate :=
  (readFields
    [ readField (boolFromJson lib o "Read") (·.read) ({ · with read := · }),
      readField (boolFromJson lib o "ReadWrite") (·.readWrite) ({ · with readWrite := · }),
      readField (boolFromJson lib o "ReadWriteCreate")
        (·.readWriteCreate) ({ · with readWriteCreate := · }),
      readField (boolFromJson lib o "Delete") (·.delete) ({ · with delete := · }),
      readField (boolFromJson lib o "PortalLogin")
        (·.portalLogin) ({ · with portalLogin := · }) ] a).2

/-- `WebToken::from_json`; the error code and the id token are not read. -/
def WebToken.fromJson (o : JsonObject) (t : WebToken) : WebToken :=
  (readFields
    [ readField (objectFromJson (AclTemplate.fromJson lib) o "aclTemplate")
        (·.aclTemplate) ({ · with aclTemplate := · }),
      readField (stringFromJson lib o "access_token")
        (·.accessToken) ({ · with accessToken := · }),
      readField (stringFromJson lib o "refresh_token")
        (·.refreshToken) ({ · with refreshToken := · }),
      readField (stringFromJson lib o "token_type") (·.tokenType) ({ · with tokenType := · }),
      readField (uint64FromJson lib o "expires_in") (·.expiresIn) ({ · with expiresIn := · }),
      readField (uint64FromJson lib o "idle_timeout")
        (·.idleTimeout) ({ · with idleTimeout := · }),
      readField (uint64FromJson lib o "created") (·.created) ({ · with created := · }),
      readField (stringFromJson lib o "username") (·.username) ({ · with username := · }),
      readField (boolFromJson lib o "userMustChangePassword")
        (·.userMustChangePassword) ({ · with userMustChangePassword := · }),
      readField (uint64FromJson lib o "lastRefresh")
        (·.lastRefresh) ({ · with lastRefresh := · }) ] t).2

/-- `UserInfoAndPolicy::from_json`; what could not be read of a part keeps its value. -/
def UserInfoAndPolicy.fromJson (o : JsonObject) (u : UserInfoAndPolicy) : UserInfoAndPolicy :=
  (readFields
    [ readField (objectFromJson (WebToken.fromJson lib) o "tokenInfo")
        (·.webtoken) ({ · with webtoken := · }),
      readField (objectFromJson (fun o u ↦ (readFields (UserInfo.readers lib o) u).2) o "userInfo")
        (·.userinfo) ({ · with userinfo := · }) ] u).2

/-- `ApiKeyAccessRight::from_json`. -/
def ApiKeyAccessRight.fromJson (o : JsonObject) (r : ApiKeyAccessRight) : ApiKeyAccessRight :=
  (readFields
    [ readField (stringFromJson lib o "service") (·.service) ({ · with service := · }),
      readField (stringFromJson lib o "access") (·.access) ({ · with access := · }) ] r).2

/-- `ApiKeyAccessRightList::from_json`. -/
def ApiKeyAccessRight.listFromJson (o : JsonObject) (acls : List ApiKeyAccessRight) :
    List ApiKeyAccessRight :=
  (vecFromJson (ApiKeyAccessRight.fromJson lib · {}) o "acls" acls).2

/-- The fields of `ApiKeyEntry::from_json`, in the order in which they are read. -/
def ApiKeyEntry.readers (o : JsonObject) : List (ApiKeyEntry → Bool × ApiKeyEntry) :=
  [ readField (stringFromJson lib o "id") (·.id) ({ · with id := · }),
    readField (stringFromJson lib o "userUuid") (·.userUuid) ({ · with userUuid := · }),
    readField (stringFromJson lib o "name") (·.name) ({ · with name := · }),
    readField (stringFromJson lib o "apiKey") (·.apiKey) ({ · with apiKey := · }),
    readField (stringFromJson lib o "salt") (·.salt) ({ · with salt := · }),
    readField (stringFromJson lib o "description") (·.description) ({ · with description := · }),
    readField (uint64FromJson lib o "expiresOn") (·.expiresOn) ({ · with expiresOn := · }),
    readField (objectFromJson (ApiKeyAccessRight.listFromJson lib) o "rights")
      (·.rights) ({ · with rights := · }),
    readField (uint64FromJson lib o "lastUse") (·.lastUse) ({ · with lastUse := · }) ]

/-- `ApiKeyEntry::from_json` on a fresh record. -/
def ApiKeyEntry.fromJson (body : Option JsonObject) : Option ApiKeyEntry :=
  match body with
  | none => none
  | some o =>
    match readFields (ApiKeyEntry.readers lib o) {} with
    | (true, k) => some k
    | (false, _) => none

/-- `RESTAPI_utils::to_object_array<NoteInfo>`: text that is not an array gives no notes,
and an element that is not an object ends the reading. -/
def NoteInfo.toObjectArray (text : String) : List NoteInfo :=
  if text.isEmpty then []
  else
    match lib.parse text with
    | some (.arr items) =>
      (elementsFromJson (elementFromJson (NoteInfo.fromJson lib · {})) items).2
    | _ => []

end SecurityObjects

/-! ## What reading a record keeps -/

section Reading

variable {α β : Type}

/-- What each reader keeps is kept by reading them all. -/
theorem readFields_keeps {P : α → Prop} {fields : List (α → Bool × α)}
    (h : ∀ field ∈ fields, ∀ a, P a → P (field a).2) {a : α} (ha : P a) :
    P (readFields fields a).2 := by
  induction fields generalizing a with
  | nil => exact ha
  | cons field rest ih =>
    have hfield : P (field a).2 := h field List.mem_cons_self a ha
    unfold readFields
    split
    · rename_i a' hread
      rw [hread] at hfield
      exact ih (fun f hf ↦ h f (List.mem_cons_of_mem _ hf)) hfield
    · rename_i a' hread
      rw [hread] at hfield
      exact hfield

theorem readField_snd (reader : β → Bool × β) (get : α → β) (set : α → β → α) (a : α) :
    (readField reader get set a).2 = set a (reader (get a)).2 := rfl

/-- A member that is not there is not found. -/
theorem JsonObject.get?_of_not_has {o : JsonObject} {field : String} (h : o.has field = false) :
    o.get? field = none := by
  unfold has at h
  unfold get?
  rw [Option.map_eq_none_iff, List.find?_eq_none]
  exact List.any_eq_false.mp h

/-- A body without a second factor gives a record without one. -/
theorem SecurityObjects.UserInfo.fromJson_factor {lib : JsonLibrary} {body : Option JsonObject}
    {u : UserInfo} (h : UserInfo.fromJson lib body = some u)
    (hnone : (body.getD []).has "userTypeProprietaryInfo" = false) :
    u.userTypeProprietaryInfo = {} := by
  rcases body with _ | o
  · cases h
  rw [Option.getD_some] at hnone
  have hkeeps : (readFields (UserInfo.readers lib o) {}).2.userTypeProprietaryInfo = {} := by
    refine readFields_keeps (P := fun u : UserInfo ↦ u.userTypeProprietaryInfo = {}) ?_ rfl
    unfold UserInfo.readers
    simp only [List.forall_mem_cons, readField_snd, objectFromJson,
      JsonObject.get?_of_not_has hnone]
    simp
  unfold UserInfo.fromJson at h
  simp only at h
  split at h
  · rename_i v hread
    rw [hread] at hkeeps
    exact Option.some.inj h ▸ hkeeps
  · cases h

end Reading

end OwSec
