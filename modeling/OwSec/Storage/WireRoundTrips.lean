import OwSec.Storage.WireRecords

/-!
# Records are read as they were written

One lemma for each record: `from_json` on a fresh record, of an object that agrees with what
`to_json` wrote, reads every field it looks for, and what it does not look for keeps the value of
the fresh record.

The law for all of them together, and where it fails: the error code and the id token of a session
token, and the time at which an API key was created, are not carried.
-/

namespace OwSec

open SecurityObjects Kit

namespace SecurityObjects

/-! ## Numbers of 64 bits -/

/-- The numbers of a note fit into `uint64_t`. -/
def NoteInfo.Fits (n : NoteInfo) : Prop := n.created < 2 ^ 64

/-- The numbers of a user record do. -/
structure UserInfo.Fits (u : UserInfo) : Prop where
  validationDate : u.validationDate < 2 ^ 64
  creationDate : u.creationDate < 2 ^ 64
  lastLogin : u.lastLogin < 2 ^ 64
  lastPasswordChange : u.lastPasswordChange < 2 ^ 64
  lastEmailCheck : u.lastEmailCheck < 2 ^ 64
  notes : ∀ n ∈ u.notes, n.Fits
  securityPolicyChange : u.securityPolicyChange < 2 ^ 64
  modified : u.modified < 2 ^ 64

/-- Those of a session token that are read. -/
structure WebToken.Fits (t : WebToken) : Prop where
  expiresIn : t.expiresIn < 2 ^ 64
  idleTimeout : t.idleTimeout < 2 ^ 64
  created : t.created < 2 ^ 64
  lastRefresh : t.lastRefresh < 2 ^ 64

/-- Those of a session token and of its user. -/
structure UserInfoAndPolicy.Fits (u : UserInfoAndPolicy) : Prop where
  webtoken : u.webtoken.Fits
  userinfo : u.userinfo.Fits

/-- Those of an action link. -/
structure ActionLink.Fits (a : ActionLink) : Prop where
  action : a.action < 2 ^ 64
  sent : a.sent < 2 ^ 64
  created : a.created < 2 ^ 64
  expires : a.expires < 2 ^ 64
  completed : a.completed < 2 ^ 64
  canceled : a.canceled < 2 ^ 64

/-- Those of an API key that are read. -/
structure ApiKeyEntry.Fits (k : ApiKeyEntry) : Prop where
  expiresOn : k.expiresOn < 2 ^ 64
  lastUse : k.lastUse < 2 ^ 64

end SecurityObjects

/-- Those of a set of preferences. -/
def Preferences.Fits (p : Preferences) : Prop := p.modified < 2 ^ 64

/-! ## Each record -/

section Reading

variable {lib : JsonLibrary} {o : JsonObject}

namespace SecurityObjects

theorem NoteInfo.readFields_of_agrees (hlib : lib.Converts) {n : NoteInfo} (hn : n.Fits)
    (h : (Json.obj n.toJson).Agrees (.obj o)) :
    readFields (NoteInfo.readers lib o) {} = (true, n) := by
  have hholds := JsonObject.holds_of_agrees
    (JsonObject.consistent_of_names ["created", "createdBy", "note"] rfl (by decide)) h
  simp only [members, List.forall_mem_cons] at hholds
  obtain ⟨hcreated, hcreatedBy, hnote, -⟩ := hholds
  simp only [readers, readFields, readField, uint64FromJson_of_holds hlib hn hcreated,
    stringFromJson_of_holds hlib hcreatedBy, stringFromJson_of_holds hlib hnote]

theorem NoteInfo.fromJson_of_agrees (hlib : lib.Converts) {n : NoteInfo} (hn : n.Fits)
    (h : (Json.obj n.toJson).Agrees (.obj o)) : NoteInfo.fromJson lib o {} = n := by
  rw [NoteInfo.fromJson_eq, readFields_of_agrees hlib hn h]

theorem MobilePhoneNumber.readFields_of_agrees (hlib : lib.Converts) {m : MobilePhoneNumber}
    (h : (Json.obj m.toJson).Agrees (.obj o)) :
    readFields (MobilePhoneNumber.readers lib o) {} = (true, m) := by
  have hholds := JsonObject.holds_of_agrees
    (JsonObject.consistent_of_names ["number", "verified", "primary"] rfl (by decide)) h
  simp only [members, List.forall_mem_cons] at hholds
  obtain ⟨hnumber, hverified, hprimary, -⟩ := hholds
  simp only [readers, readFields, readField, stringFromJson_of_holds hlib hnumber,
    boolFromJson_of_holds hlib hverified, boolFromJson_of_holds hlib hprimary]

theorem MfaAuthInfo.readFields_of_agrees (hlib : lib.Converts) {m : MfaAuthInfo}
    (h : (Json.obj m.toJson).Agrees (.obj o)) :
    readFields (MfaAuthInfo.readers lib o) {} = (true, m) := by
  have hholds := JsonObject.holds_of_agrees
    (JsonObject.consistent_of_names ["enabled", "method"] rfl (by decide)) h
  simp only [members, List.forall_mem_cons] at hholds
  obtain ⟨henabled, hmethod, -⟩ := hholds
  simp only [readers, readFields, readField, boolFromJson_of_holds hlib henabled,
    stringFromJson_of_holds hlib hmethod]

theorem UserLoginLoginExtensions.readFields_of_agrees (hlib : lib.Converts)
    {e : UserLoginLoginExtensions} (h : (Json.obj e.toJson).Agrees (.obj o)) :
    readFields (UserLoginLoginExtensions.readers lib o) {} = (true, e) := by
  have hholds := JsonObject.holds_of_agrees
    (JsonObject.consistent_of_names ["mobiles", "mfa", "authenticatorSecret"] rfl (by decide)) h
  simp only [members, List.forall_mem_cons] at hholds
  obtain ⟨hmobiles, hmfa, hsecret, -⟩ := hholds
  have hmobile : ∀ m ∈ e.mobiles, ∀ o', (Json.obj m.toJson).Agrees (.obj o') →
      MobilePhoneNumber.fromJson lib o' {} = m := by
    intro m _ o' hm
    rw [MobilePhoneNumber.fromJson_eq, MobilePhoneNumber.readFields_of_agrees hlib hm]
  have hinfo : ∀ inner, (Json.obj e.mfa.toJson).Agrees (.obj inner) →
      MfaAuthInfo.fromJson lib inner {} = e.mfa := by
    intro inner hinner
    rw [MfaAuthInfo.fromJson_eq, MfaAuthInfo.readFields_of_agrees hlib hinner]
  simp only [readers, readFields, readField, List.nil_append,
    vecFromJson_of_holds hmobiles hmobile, objectFromJson_of_holds hmfa hinfo,
    stringFromJson_of_holds hlib hsecret]

theorem UserInfo.readFields_of_agrees (hlib : lib.Converts) {u : UserInfo} (hu : u.Fits)
    (h : (Json.obj u.toJson).Agrees (.obj o)) :
    readFields (UserInfo.readers lib o) {} = (true, u) := by
  have hholds := JsonObject.holds_of_agrees
    (JsonObject.consistent_of_names ["id", "name", "description", "avatar", "email", "validated",
      "validationEmail", "validationDate", "creationDate", "validationURI", "changePassword",
      "lastLogin", "currentLoginURI", "lastPasswordChange", "lastEmailCheck",
      "waitingForEmailCheck", "locale", "notes", "location", "owner", "createdBy", "suspended",
      "blackListed", "userRole", "userTypeProprietaryInfo", "securityPolicy",
      "securityPolicyChange", "currentPassword", "lastPasswords", "oauthType", "oauthUserInfo",
      "modified", "signingUp"] rfl (by decide)) h
  simp only [members, List.forall_mem_cons] at hholds
  obtain ⟨hid, hname, hdescription, havatar, hemail, hvalidated, hvalidationEmail,
    hvalidationDate, hcreationDate, hvalidationURI, hchangePassword, hlastLogin,
    hcurrentLoginURI, hlastPasswordChange, hlastEmailCheck, hwaitingForEmailCheck, hlocale,
    hnotes, hlocation, howner, hcreatedBy, hsuspended, hblackListed, huserRole, hinfo,
    hsecurityPolicy, hsecurityPolicyChange, hcurrentPassword, hlastPasswords, hoauthType,
    hoauthUserInfo, hmodified, hsigningUp, -⟩ := hholds
  have hread : ∀ inner, (Json.obj u.userTypeProprietaryInfo.toJson).Agrees (.obj inner) →
      UserLoginLoginExtensions.fromJson lib inner {} = u.userTypeProprietaryInfo := by
    intro inner hinner
    rw [UserLoginLoginExtensions.fromJson_eq,
      UserLoginLoginExtensions.readFields_of_agrees hlib hinner]
  have hnote : ∀ n ∈ u.notes, ∀ o', (Json.obj n.toJson).Agrees (.obj o') →
      NoteInfo.fromJson lib o' {} = n :=
    fun n hn o' ↦ NoteInfo.fromJson_of_agrees hlib (hu.notes n hn)
  simp only [readers, readFields, readField, List.nil_append, stringFromJson_of_holds hlib hid,
    stringFromJson_of_holds hlib hname, stringFromJson_of_holds hlib hdescription,
    stringFromJson_of_holds hlib havatar, stringFromJson_of_holds hlib hemail,
    stringFromJson_of_holds hlib hvalidationEmail, stringFromJson_of_holds hlib hvalidationURI,
    stringFromJson_of_holds hlib hcurrentLoginURI, stringFromJson_of_holds hlib hlocale,
    vecFromJson_of_holds hnotes hnote, stringFromJson_of_holds hlib hlocation,
    stringFromJson_of_holds hlib howner, stringFromJson_of_holds hlib hcreatedBy,
    roleFromJson_of_holds hlib huserRole, stringFromJson_of_holds hlib hsecurityPolicy,
    objectFromJson_of_holds hinfo hread,
    uint64FromJson_of_holds hlib hu.validationDate hvalidationDate,
    uint64FromJson_of_holds hlib hu.creationDate hcreationDate,
    uint64FromJson_of_holds hlib hu.lastLogin hlastLogin,
    uint64FromJson_of_holds hlib hu.lastPasswordChange hlastPasswordChange,
    uint64FromJson_of_holds hlib hu.lastEmailCheck hlastEmailCheck,
    uint64FromJson_of_holds hlib hu.securityPolicyChange hsecurityPolicyChange,
    boolFromJson_of_holds hlib hvalidated, boolFromJson_of_holds hlib hchangePassword,
    boolFromJson_of_holds hlib hwaitingForEmailCheck, boolFromJson_of_holds hlib hsuspended,
    boolFromJson_of_holds hlib hblackListed, stringFromJson_of_holds hlib hcurrentPassword,
    stringVecFromJson_of_holds hlib hlastPasswords, stringFromJson_of_holds hlib hoauthType,
    stringFromJson_of_holds hlib hoauthUserInfo,
    uint64FromJson_of_holds hlib hu.modified hmodified, stringFromJson_of_holds hlib hsigningUp]

theorem AclTemplate.readFields_of_agrees (hlib : lib.Converts) {a : AclTemplate}
    (h : (Json.obj a.toJson).Agrees (.obj o)) :
    readFields (AclTemplate.readers lib o) {} = (true, a) := by
  have hholds := JsonObject.holds_of_agrees (JsonObject.consistent_of_names
    ["Read", "ReadWrite", "ReadWriteCreate", "Delete", "PortalLogin"] rfl (by decide)) h
  simp only [members, List.forall_mem_cons] at hholds
  obtain ⟨hread, hreadWrite, hreadWriteCreate, hdelete, hportalLogin, -⟩ := hholds
  simp only [readers, readFields, readField, boolFromJson_of_holds hlib hread,
    boolFromJson_of_holds hlib hreadWrite, boolFromJson_of_holds hlib hreadWriteCreate,
    boolFromJson_of_holds hlib hdelete, boolFromJson_of_holds hlib hportalLogin]

/-- What is carried of a session token: the id token is not written, and the error code is not
read. -/
def WebToken.carried (t : WebToken) : WebToken := { t with idToken := "", errorCode := 0 }

theorem WebToken.readFields_of_agrees (hlib : lib.Converts) {t : WebToken} (ht : t.Fits)
    (h : (Json.obj t.toJson).Agrees (.obj o)) :
    readFields (WebToken.readers lib o) {} = (true, t.carried) := by
  have hconsistent : JsonObject.Consistent t.members := by
    -- without the error code that is set before the access rights
    have hnames : JsonObject.Consistent (t.members.eraseIdx 8) :=
      JsonObject.consistent_of_names ["access_token", "refresh_token", "token_type", "expires_in",
        "idle_timeout", "created", "username", "userMustChangePassword", "aclTemplate",
        "errorCode", "lastRefresh"] rfl (by decide)
    exact hnames.of_subset (by simp [members])
  have hholds := JsonObject.holds_of_agrees hconsistent h
  simp only [members, List.forall_mem_cons] at hholds
  obtain ⟨haccessToken, hrefreshToken, htokenType, hexpiresIn, hidleTimeout, hcreated, husername,
    huserMustChangePassword, -, haclTemplate, -, hlastRefresh, -⟩ := hholds
  have hacl : ∀ inner, (Json.obj t.aclTemplate.toJson).Agrees (.obj inner) →
      AclTemplate.fromJson lib inner {} = t.aclTemplate := by
    intro inner hinner
    rw [AclTemplate.fromJson_eq, AclTemplate.readFields_of_agrees hlib hinner]
  simp only [readers, readFields, readField, objectFromJson_of_holds haclTemplate hacl,
    stringFromJson_of_holds hlib haccessToken, stringFromJson_of_holds hlib hrefreshToken,
    stringFromJson_of_holds hlib htokenType,
    uint64FromJson_of_holds hlib ht.expiresIn hexpiresIn,
    uint64FromJson_of_holds hlib ht.idleTimeout hidleTimeout,
    uint64FromJson_of_holds hlib ht.created hcreated, stringFromJson_of_holds hlib husername,
    boolFromJson_of_holds hlib huserMustChangePassword,
    uint64FromJson_of_holds hlib ht.lastRefresh hlastRefresh]
  rfl

theorem UserInfoAndPolicy.readFields_of_agrees (hlib : lib.Converts) {u : UserInfoAndPolicy}
    (hu : u.Fits) (h : (Json.obj u.toJson).Agrees (.obj o)) :
    readFields (UserInfoAndPolicy.readers lib o) {} =
      (true, { u with webtoken := u.webtoken.carried }) := by
  have hholds := JsonObject.holds_of_agrees
    (JsonObject.consistent_of_names ["tokenInfo", "userInfo"] rfl (by decide)) h
  simp only [members, List.forall_mem_cons] at hholds
  obtain ⟨htokenInfo, huserInfo, -⟩ := hholds
  have htoken : ∀ inner, (Json.obj u.webtoken.toJson).Agrees (.obj inner) →
      WebToken.fromJson lib inner {} = u.webtoken.carried := by
    intro inner hinner
    rw [WebToken.fromJson_eq, WebToken.readFields_of_agrees hlib hu.webtoken hinner]
  have huser : ∀ inner, (Json.obj u.userinfo.toJson).Agrees (.obj inner) →
      (readFields (UserInfo.readers lib inner) {}).2 = u.userinfo := by
    intro inner hinner
    rw [UserInfo.readFields_of_agrees hlib hu.userinfo hinner]
  have huserRead : objectFromJson (fun o u ↦ (readFields (UserInfo.readers lib o) u).2) o
      "userInfo" {} = (true, u.userinfo) := objectFromJson_of_holds huserInfo huser
  simp only [readers, readFields, readField, objectFromJson_of_holds htokenInfo htoken, huserRead]

theorem ActionLink.readFields_of_agrees (hlib : lib.Converts) {a : ActionLink} (ha : a.Fits)
    (h : (Json.obj a.toJson).Agrees (.obj o)) :
    readFields (ActionLink.readers lib o) {} = (true, a) := by
  have hholds := JsonObject.holds_of_agrees
    (JsonObject.consistent_of_names ["id", "action", "userId", "actionTemplate", "variables",
      "locale", "message", "sent", "created", "expires", "completed", "canceled", "userAction"]
      rfl (by decide)) h
  simp only [members, List.forall_mem_cons] at hholds
  obtain ⟨hid, haction, huserId, hactionTemplate, hvariables, hlocale, hmessage, hsent, hcreated,
    hexpires, hcompleted, hcanceled, huserAction, -⟩ := hholds
  simp only [readers, readFields, readField, List.nil_append, stringFromJson_of_holds hlib hid,
    uint64FromJson_of_holds hlib ha.action haction, stringFromJson_of_holds hlib huserId,
    stringFromJson_of_holds hlib hactionTemplate, pairsFromJson_of_holds hlib hvariables,
    stringFromJson_of_holds hlib hlocale, stringFromJson_of_holds hlib hmessage,
    uint64FromJson_of_holds hlib ha.sent hsent, uint64FromJson_of_holds hlib ha.created hcreated,
    uint64FromJson_of_holds hlib ha.expires hexpires,
    uint64FromJson_of_holds hlib ha.completed hcompleted,
    uint64FromJson_of_holds hlib ha.canceled hcanceled, boolFromJson_of_holds hlib huserAction]

theorem ApiKeyAccessRight.readFields_of_agrees (hlib : lib.Converts) {r : ApiKeyAccessRight}
    (h : (Json.obj r.toJson).Agrees (.obj o)) :
    readFields (ApiKeyAccessRight.readers lib o) {} = (true, r) := by
  have hholds := JsonObject.holds_of_agrees
    (JsonObject.consistent_of_names ["service", "access"] rfl (by decide)) h
  simp only [members, List.forall_mem_cons] at hholds
  obtain ⟨hservice, haccess, -⟩ := hholds
  simp only [readers, readFields, readField, stringFromJson_of_holds hlib hservice,
    stringFromJson_of_holds hlib haccess]

theorem ApiKeyAccessRight.fromJson_of_agrees (hlib : lib.Converts) {r : ApiKeyAccessRight}
    (h : (Json.obj r.toJson).Agrees (.obj o)) : ApiKeyAccessRight.fromJson lib o {} = r := by
  rw [ApiKeyAccessRight.fromJson_eq, readFields_of_agrees hlib h]

theorem ApiKeyAccessRight.listFromJson_of_agrees (hlib : lib.Converts)
    {acls : List ApiKeyAccessRight} (h : (Json.obj (listToJson acls)).Agrees (.obj o)) :
    ApiKeyAccessRight.listFromJson lib o [] = acls := by
  have hholds := JsonObject.holds_of_agrees
    (JsonObject.consistent_of_names ["acls"] rfl (List.nodup_singleton _)) h
  simp only [listMembers, List.forall_mem_cons] at hholds
  obtain ⟨hacls, -⟩ := hholds
  have hread : ∀ r ∈ acls, ∀ o', (Json.obj r.toJson).Agrees (.obj o') →
      ApiKeyAccessRight.fromJson lib o' {} = r := fun r _ o' ↦ fromJson_of_agrees hlib
  unfold listFromJson
  rw [vecFromJson_of_holds hacls hread, List.nil_append]

/-- The time of creation is the one that the fresh record has. -/
theorem ApiKeyEntry.readFields_of_agrees (hlib : lib.Converts) {k : ApiKeyEntry} (hk : k.Fits)
    (memory : ℕ) (h : (Json.obj k.toJson).Agrees (.obj o)) :
    readFields (ApiKeyEntry.readers lib o) { created := memory } =
      (true, { k with created := memory }) := by
  have hholds := JsonObject.holds_of_agrees
    (JsonObject.consistent_of_names ["id", "userUuid", "name", "apiKey", "salt", "description",
      "expiresOn", "rights", "lastUse"] rfl (by decide)) h
  simp only [members, List.forall_mem_cons] at hholds
  obtain ⟨hid, huserUuid, hname, hapiKey, hsalt, hdescription, hexpiresOn, hrights, hlastUse, -⟩ :=
    hholds
  have hlist : ∀ inner, (Json.obj (ApiKeyAccessRight.listToJson k.rights)).Agrees (.obj inner) →
      ApiKeyAccessRight.listFromJson lib inner [] = k.rights :=
    fun inner ↦ ApiKeyAccessRight.listFromJson_of_agrees hlib
  simp only [readers, readFields, readField, stringFromJson_of_holds hlib hid,
    stringFromJson_of_holds hlib huserUuid, stringFromJson_of_holds hlib hname,
    stringFromJson_of_holds hlib hapiKey, stringFromJson_of_holds hlib hsalt,
    stringFromJson_of_holds hlib hdescription,
    uint64FromJson_of_holds hlib hk.expiresOn hexpiresOn,
    objectFromJson_of_holds hrights hlist, uint64FromJson_of_holds hlib hk.lastUse hlastUse]

end SecurityObjects

theorem Preferences.readFields_of_agrees (hlib : lib.Converts) {p : Preferences} (hp : p.Fits)
    (h : (Json.obj p.toJson).Agrees (.obj o)) :
    readFields (Preferences.readers lib o) {} = (true, p) := by
  have hholds := JsonObject.holds_of_agrees
    (JsonObject.consistent_of_names ["id", "modified", "data"] rfl (by decide)) h
  simp only [members, List.forall_mem_cons] at hholds
  obtain ⟨hid, hmodified, hdata, -⟩ := hholds
  simp only [readers, readFields, readField, List.nil_append, stringFromJson_of_holds hlib hid,
    uint64FromJson_of_holds hlib hp hmodified, pairsFromJson_of_holds hlib hdata]

end Reading

/-! ## The law -/

/-- A record that is sent or stored.  What reads an API key declares it without a value for the time
of creation: `memory` is what stands there. -/
inductive WireValue
  | webToken (t : WebToken)
  | aclTemplate (a : AclTemplate)
  | userInfo (u : UserInfo)
  | userInfoAndPolicy (u : UserInfoAndPolicy)
  | noteInfo (n : NoteInfo)
  | mobilePhoneNumber (m : MobilePhoneNumber)
  | mfaAuthInfo (m : MfaAuthInfo)
  | userLoginLoginExtensions (e : UserLoginLoginExtensions)
  | actionLink (a : ActionLink)
  | preferences (p : Preferences)
  | apiKeyEntry (k : ApiKeyEntry) (memory : ℕ)
  deriving DecidableEq

namespace WireValue

/-- `to_json`. -/
def toJson : WireValue → JsonObject
  | .webToken t => t.toJson
  | .aclTemplate a => a.toJson
  | .userInfo u => u.toJson
  | .userInfoAndPolicy u => u.toJson
  | .noteInfo n => n.toJson
  | .mobilePhoneNumber m => m.toJson
  | .mfaAuthInfo m => m.toJson
  | .userLoginLoginExtensions e => e.toJson
  | .actionLink a => a.toJson
  | .preferences p => p.toJson
  | .apiKeyEntry k _ => k.toJson

/-- `from_json` on a fresh record of the same type; `none` is the result `false`. -/
def readBack (lib : JsonLibrary) (o : JsonObject) : WireValue → Option WireValue
  | .webToken _ => (readRecord (WebToken.readers lib o) {}).map .webToken
  | .aclTemplate _ => (readRecord (AclTemplate.readers lib o) {}).map .aclTemplate
  | .userInfo _ => (UserInfo.fromJson lib (some o)).map .userInfo
  | .userInfoAndPolicy _ =>
    (readRecord (UserInfoAndPolicy.readers lib o) {}).map .userInfoAndPolicy
  | .noteInfo _ => (readRecord (NoteInfo.readers lib o) {}).map .noteInfo
  | .mobilePhoneNumber _ =>
    (readRecord (MobilePhoneNumber.readers lib o) {}).map .mobilePhoneNumber
  | .mfaAuthInfo _ => (readRecord (MfaAuthInfo.readers lib o) {}).map .mfaAuthInfo
  | .userLoginLoginExtensions _ =>
    (readRecord (UserLoginLoginExtensions.readers lib o) {}).map .userLoginLoginExtensions
  | .actionLink _ => (readRecord (ActionLink.readers lib o) {}).map .actionLink
  | .preferences _ => (Preferences.fromJson lib (some o)).map .preferences
  | .apiKeyEntry _ memory =>
    (readRecord (ApiKeyEntry.readers lib o) { created := memory }).map (.apiKeyEntry · memory)

/-- The numbers fit into `uint64_t`. -/
def Fits : WireValue → Prop
  | .webToken t => t.Fits
  | .userInfo u => u.Fits
  | .userInfoAndPolicy u => u.Fits
  | .noteInfo n => n.Fits
  | .actionLink a => a.Fits
  | .preferences p => p.Fits
  | .apiKeyEntry k _ => k.Fits
  | .aclTemplate _ | .mobilePhoneNumber _ | .mfaAuthInfo _ | .userLoginLoginExtensions _ => True

/-- What is received. -/
def received : WireValue → WireValue
  | .webToken t => .webToken t.carried
  | .userInfoAndPolicy u => .userInfoAndPolicy { u with webtoken := u.webtoken.carried }
  | .apiKeyEntry k memory => .apiKeyEntry { k with created := memory } memory
  | v => v

/-- No field has a value that is not carried: a session token has no id token and the error code
`0`, and an API key the time of creation that the fresh record has. -/
def Carried : WireValue → Prop
  | .webToken t => t.idToken = "" ∧ t.errorCode = 0
  | .userInfoAndPolicy u => u.webtoken.idToken = "" ∧ u.webtoken.errorCode = 0
  | .apiKeyEntry k memory => k.created = memory
  | .aclTemplate _ | .userInfo _ | .noteInfo _ | .mobilePhoneNumber _ | .mfaAuthInfo _
  | .userLoginLoginExtensions _ | .actionLink _ | .preferences _ => True

/-- The record is read, and is the one that was written, from every object that agrees with what was
written. -/
def RoundTrips (lib : JsonLibrary) (v : WireValue) : Prop :=
  ∀ o, (Json.obj v.toJson).Agrees (.obj o) → v.readBack lib o = some v

variable {lib : JsonLibrary} {v : WireValue}

/-- Reading never fails. -/
theorem readBack_of_agrees (hlib : lib.Converts) (hv : v.Fits) {o : JsonObject}
    (h : (Json.obj v.toJson).Agrees (.obj o)) : v.readBack lib o = some v.received := by
  unfold readBack
  cases v with
  | webToken t => simp only [readRecord, t.readFields_of_agrees hlib hv h]; rfl
  | aclTemplate a => simp only [readRecord, a.readFields_of_agrees hlib h]; rfl
  | userInfo u => simp only [UserInfo.fromJson, u.readFields_of_agrees hlib hv h]; rfl
  | userInfoAndPolicy u => simp only [readRecord, u.readFields_of_agrees hlib hv h]; rfl
  | noteInfo n => simp only [readRecord, n.readFields_of_agrees hlib hv h]; rfl
  | mobilePhoneNumber m => simp only [readRecord, m.readFields_of_agrees hlib h]; rfl
  | mfaAuthInfo m => simp only [readRecord, m.readFields_of_agrees hlib h]; rfl
  | userLoginLoginExtensions e => simp only [readRecord, e.readFields_of_agrees hlib h]; rfl
  | actionLink a => simp only [readRecord, a.readFields_of_agrees hlib hv h]; rfl
  | preferences p =>
    rw [Preferences.fromJson_eq]
    simp only [readRecord, p.readFields_of_agrees hlib hv h]
    rfl
  | apiKeyEntry k memory => simp only [readRecord, k.readFields_of_agrees hlib hv memory h]; rfl

theorem carried_eq_iff {t : WebToken} : t.carried = t ↔ t.idToken = "" ∧ t.errorCode = 0 := by
  cases t
  simp [WebToken.carried, eq_comm]

/-- What is received is what was sent where every field is carried. -/
theorem received_eq_iff : v.received = v ↔ v.Carried := by
  cases v with
  | webToken t =>
    show webToken t.carried = webToken t ↔ _
    rw [webToken.injEq]
    exact carried_eq_iff
  | userInfoAndPolicy u =>
    obtain ⟨t, user⟩ := u
    show userInfoAndPolicy ⟨t.carried, user⟩ = userInfoAndPolicy ⟨t, user⟩ ↔ _
    rw [userInfoAndPolicy.injEq, UserInfoAndPolicy.mk.injEq, and_iff_left rfl]
    exact carried_eq_iff
  | apiKeyEntry k memory =>
    cases k
    simp [received, Carried, eq_comm]
  | aclTemplate a => exact iff_of_true rfl trivial
  | userInfo u => exact iff_of_true rfl trivial
  | noteInfo n => exact iff_of_true rfl trivial
  | mobilePhoneNumber m => exact iff_of_true rfl trivial
  | mfaAuthInfo m => exact iff_of_true rfl trivial
  | userLoginLoginExtensions e => exact iff_of_true rfl trivial
  | actionLink a => exact iff_of_true rfl trivial
  | preferences p => exact iff_of_true rfl trivial

/-- What was written itself is among the objects that may be read. -/
theorem RoundTrips.received_eq (h : v.RoundTrips lib) (hlib : lib.Converts) (hv : v.Fits) :
    v.received = v := by
  have hagrees := Json.Agrees.refl (.obj v.toJson)
  have hreceived := readBack_of_agrees hlib hv hagrees
  rw [h _ hagrees] at hreceived
  exact (Option.some.inj hreceived).symm

/-- A record is read as it was written exactly where it has no value in a field that is not
carried. -/
theorem roundTrips_iff (hlib : lib.Converts) (hv : v.Fits) : v.RoundTrips lib ↔ v.Carried := by
  rw [← received_eq_iff]
  constructor
  · intro h
    exact h.received_eq hlib hv
  · intro h o ho
    rw [readBack_of_agrees hlib hv ho, h]

/-- A user and a session, as another service is told of them. -/
def sample : WireValue :=
  .userInfoAndPolicy
    { webtoken :=
        { accessToken := "a9b3", refreshToken := "77e0", tokenType := "Bearer"
          username := "tip@example.com", expiresIn := 2592000, idleTimeout := 604800
          aclTemplate := { read := true, readWrite := true }
          created := 1700000000, lastRefresh := 1700000600 }
      userinfo :=
        { id := "u1", email := "tip@example.com", userRole := .ADMIN
          notes := [{ created := 1700000000, createdBy := "root", note := "one \"quoted\" word" }]
          userTypeProprietaryInfo :=
            { mobiles := [{ number := "+16045551234", verified := true, primary := true }]
              mfa := { enabled := true, method := "sms" } }
          lastPasswords := ["", "c0ffee"], modified := 1700000600 } }

theorem roundTrips_iff_sample : sample.RoundTrips .sample := by
  have hfits : sample.Fits := show UserInfoAndPolicy.Fits _ from
    { webtoken := ⟨by decide, by decide, by decide, by decide⟩
      userinfo :=
        { validationDate := by decide
          creationDate := by decide
          lastLogin := by decide
          lastPasswordChange := by decide
          lastEmailCheck := by decide
          notes := fun n hn ↦ by
            rw [List.mem_singleton.mp hn]
            show 1700000000 < 2 ^ 64
            decide
          securityPolicyChange := by decide
          modified := by decide } }
  exact (roundTrips_iff JsonLibrary.converts_sample hfits).mpr ⟨rfl, rfl⟩

/-- The id token of a session, an error code, and the time at which an API key was created. -/
theorem fields_not_carried :
    ¬ (webToken { accessToken := "a9b3", idToken := "5c11" }).RoundTrips .sample ∧
      ¬ (webToken { accessToken := "a9b3", errorCode := 1 }).RoundTrips .sample ∧
      ¬ (apiKeyEntry { name := "monitor", created := 1700000000 } 0).RoundTrips .sample := by
  have htoken (idToken : String) (errorCode : ℕ) :
      (webToken { accessToken := "a9b3", idToken, errorCode }).Fits := by
    constructor <;> exact Nat.two_pow_pos 64
  have hkey : (apiKeyEntry { name := "monitor", created := 1700000000 } 0).Fits := by
    constructor <;> exact Nat.two_pow_pos 64
  refine ⟨?_, ?_, ?_⟩
  · intro h
    exact absurd (h.received_eq JsonLibrary.converts_sample (htoken _ _)) (by decide)
  · intro h
    exact absurd (h.received_eq JsonLibrary.converts_sample (htoken _ _)) (by decide)
  · intro h
    exact absurd (h.received_eq JsonLibrary.converts_sample hkey) (by decide)

end WireValue

end OwSec
