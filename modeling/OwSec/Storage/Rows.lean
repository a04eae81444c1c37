import OwSec.Framework.JsonColumns
import OwSec.Storage.WireRoundTrips

/-!
# Rows of the tables

`Convert`, in both directions, of the tables `storage/orm_*.cpp`.  A row is a tuple, and what stands
at which place is known to the two functions alone; lists and nested records are printed into text
columns, and a role is the text of its name.

A record that is converted to a row and back is the same record.
-/

namespace OwSec

open SecurityObjects RESTAPI_utils

/-! ## The tuples -/

/-- `UserInfoRecordTuple`. -/
structure UserInfoRecordTuple where
  t0 : String
  t1 : String
  t2 : String
  t3 : String
  t4 : String
  t5 : Bool
  t6 : String
  t7 : ℕ
  t8 : ℕ
  t9 : String
  t10 : Bool
  t11 : ℕ
  t12 : String
  t13 : ℕ
  t14 : ℕ
  t15 : Bool
  t16 : String
  t17 : String
  t18 : String
  t19 : String
  t20 : String
  t21 : Bool
  t22 : Bool
  t23 : String
  t24 : String
  t25 : String
  t26 : ℕ
  t27 : String
  t28 : String
  t29 : String
  t30 : String
  t31 : ℕ
  t32 : String

/-- `TokenRecordTuple`. -/
structure TokenRecordTuple where
  t0 : String
  t1 : String
  t2 : String
  t3 : String
  t4 : ℕ
  t5 : ℕ
  t6 : ℕ
  t7 : ℕ
  t8 : ℕ

/-- `ActionLinkRecordTuple`. -/
structure ActionLinkRecordTuple where
  t0 : String
  t1 : ℕ
  t2 : String
  t3 : String
  t4 : String
  t5 : String
  t6 : String
  t7 : ℕ
  t8 : ℕ
  t9 : ℕ
  t10 : ℕ
  t11 : ℕ
  t12 : Bool

/-- `ApiKeyRecordTuple`. -/
structure ApiKeyRecordTuple where
  t0 : String
  t1 : String
  t2 : String
  t3 : String
  t4 : String
  t5 : String
  t6 : ℕ
  t7 : ℕ
  t8 : String
  t9 : ℕ

/-- `PreferencesRecordTuple`. -/
structure PreferencesRecordTuple where
  t0 : String
  t1 : ℕ
  t2 : String

/-- `LoginInfoRecordTuple`. -/
structure LoginInfoRecordTuple where
  t0 : String
  t1 : String
  t2 : String
  t3 : ℕ
  t4 : ℕ

/-! ## `Convert`, to a row -/

section Writing

variable (condense : Json → String)


/-- `Convert`, of `orm_users.cpp`. -/
def UserInfoRecordTuple.ofUserInfo (u : UserInfo) : UserInfoRecordTuple where
  t0 := u.id
  t1 := u.name
  t2 := u.description
  t3 := u.avatar
  t4 := u.email
  t5 := u.validated
  t6 := u.validationEmail
  t7 := u.validationDate
  t8 := u.creationDate
  t9 := u.validationURI
  t10 := u.changePassword
  t11 := u.lastLogin
  t12 := u.currentLoginURI
  t13 := u.lastPasswordChange
  t14 := u.lastEmailCheck
  t15 := u.waitingForEmailCheck
  t16 := u.locale
  t17 := listToString condense (fun n : NoteInfo ↦ .obj n.toJson) u.notes
  t18 := u.location
  t19 := u.owner
  t20 := u.createdBy
  t21 := u.suspended
  t22 := u.blackListed
  t23 := userTypeToString u.userRole
  t24 := condense (.obj u.userTypeProprietaryInfo.toJson)
  t25 := u.securityPolicy
  t26 := u.securityPolicyChange
  t27 := u.currentPassword
  t28 := listToString condense .str u.lastPasswords
  t29 := u.oauthType
  t30 := u.oauthUserInfo
  t31 := u.modified
  t32 := u.signingUp

/-- `Convert`, of `orm_tokens.cpp`. -/
def TokenRecordTuple.ofToken (t : Token) : TokenRecordTuple where
  t0 := t.token
  t1 := t.refreshToken
  t2 := t.tokenType
  t3 := t.userName
  t4 := t.created
  t5 := t.expires
  t6 := t.idleTimeout
  t7 := t.revocationDate
  t8 := t.lastRefresh

/-- `Convert`, of `orm_actionLinks.cpp`. -/
def ActionLinkRecordTuple.ofActionLink (a : ActionLink) : ActionLinkRecordTuple where
  t0 := a.id
  t1 := a.action
  t2 := a.userId
  t3 := a.actionTemplate
  t4 := listToString condense pairInColumn a.variables
  t5 := a.locale
  t6 := a.message
  t7 := a.sent
  t8 := a.created
  t9 := a.expires
  t10 := a.completed
  t11 := a.canceled
  t12 := a.userAction

/-- `Convert`, of `orm_apikeys.cpp`. -/
def ApiKeyRecordTuple.ofApiKeyEntry (k : ApiKeyEntry) : ApiKeyRecordTuple where
  t0 := k.id
  t1 := k.userUuid
  t2 := k.name
  t3 := k.description
  t4 := k.apiKey
  t5 := k.salt
  t6 := k.created
  t7 := k.expiresOn
  t8 := listToString condense (fun r : ApiKeyAccessRight ↦ .obj r.toJson) k.rights
  t9 := k.lastUse

/-- `Convert`, of `orm_preferences.cpp`. -/
def PreferencesRecordTuple.ofPreferences (p : Preferences) : PreferencesRecordTuple where
  t0 := p.id
  t1 := p.modified
  t2 := listToString condense pairInColumn p.data

/-- `Convert`, of `orm_logins.cpp`. -/
def LoginInfoRecordTuple.ofLoginRecordInfo (l : LoginRecordInfo) : LoginInfoRecordTuple where
  t0 := l.sessionId
  t1 := l.userId
  t2 := l.email
  t3 := l.login
  t4 := l.logout

end Writing

/-! ## `Convert`, from a row -/

section Reading

variable (lib : JsonLibrary)

/-- `Convert`, of `orm_users.cpp`: `none` is an exception, which only the nested record raises. -/
def UserInfoRecordTuple.toUserInfo (t : UserInfoRecordTuple) : Option UserInfo := do
  let userTypeProprietaryInfo ← toObject lib (UserLoginLoginExtensions.fromJson lib) {} t.t24
  return {
    id := t.t0
    name := t.t1
    description := t.t2
    avatar := t.t3
    email := t.t4
    validated := t.t5
    validationEmail := t.t6
    validationDate := t.t7
    creationDate := t.t8
    validationURI := t.t9
    changePassword := t.t10
    lastLogin := t.t11
    currentLoginURI := t.t12
    lastPasswordChange := t.t13
    lastEmailCheck := t.t14
    waitingForEmailCheck := t.t15
    locale := t.t16
    notes := toObjectArray lib (NoteInfo.fromJson lib · {}) t.t17
    location := t.t18
    owner := t.t19
    createdBy := t.t20
    suspended := t.t21
    blackListed := t.t22
    userRole := userTypeFromString t.t23
    userTypeProprietaryInfo
    securityPolicy := t.t25
    securityPolicyChange := t.t26
    currentPassword := t.t27
    lastPasswords := toStringArray lib t.t28
    oauthType := t.t29
    oauthUserInfo := t.t30
    modified := t.t31
    signingUp := t.t32 }

/-- `Convert`, of `orm_tokens.cpp`. -/
def TokenRecordTuple.toToken (t : TokenRecordTuple) : Token where
  token := t.t0
  refreshToken := t.t1
  tokenType := t.t2
  userName := t.t3
  created := t.t4
  expires := t.t5
  idleTimeout := t.t6
  revocationDate := t.t7
  lastRefresh := t.t8

/-- `Convert`, of `orm_actionLinks.cpp`. -/
def ActionLinkRecordTuple.toActionLink (t : ActionLinkRecordTuple) : ActionLink where
  id := t.t0
  action := t.t1
  userId := t.t2
  actionTemplate := t.t3
  «variables» := toStringPairArray lib t.t4
  locale := t.t5
  message := t.t6
  sent := t.t7
  created := t.t8
  expires := t.t9
  completed := t.t10
  canceled := t.t11
  userAction := t.t12

/-- `Convert`, of `orm_apikeys.cpp`. -/
def ApiKeyRecordTuple.toApiKeyEntry (t : ApiKeyRecordTuple) : ApiKeyEntry where
  id := t.t0
  userUuid := t.t1
  name := t.t2
  description := t.t3
  apiKey := t.t4
  salt := t.t5
  created := t.t6
  expiresOn := t.t7
  rights := toObjectArray lib (ApiKeyAccessRight.fromJson lib · {}) t.t8
  lastUse := t.t9

/-- `Convert`, of `orm_preferences.cpp`. -/
def PreferencesRecordTuple.toPreferences (t : PreferencesRecordTuple) : Preferences where
  id := t.t0
  modified := t.t1
  data := toStringPairArray lib t.t2

/-- `Convert`, of `orm_logins.cpp`. -/
def LoginInfoRecordTuple.toLoginRecordInfo (t : LoginInfoRecordTuple) : LoginRecordInfo where
  sessionId := t.t0
  userId := t.t1
  email := t.t2
  login := t.t3
  logout := t.t4

end Reading

/-! ## There and back -/

/-- A record that a table keeps. -/
inductive StoredRecord
  | user (u : UserInfo)
  | token (t : Token)
  | actionLink (a : ActionLink)
  | apiKey (k : ApiKeyEntry)
  | preferences (p : Preferences)
  | login (l : LoginRecordInfo)

/-- A row, of the table that keeps the record. -/
inductive Row
  | user (t : UserInfoRecordTuple)
  | token (t : TokenRecordTuple)
  | actionLink (t : ActionLinkRecordTuple)
  | apiKey (t : ApiKeyRecordTuple)
  | preferences (t : PreferencesRecordTuple)
  | login (t : LoginInfoRecordTuple)

/-- `Convert`, from a row; `none` is an exception. -/
def Row.toRecord (lib : JsonLibrary) : Row → Option StoredRecord
  | .user t => (t.toUserInfo lib).map .user
  | .token t => some (.token t.toToken)
  | .actionLink t => some (.actionLink (t.toActionLink lib))
  | .apiKey t => some (.apiKey (t.toApiKeyEntry lib))
  | .preferences t => some (.preferences (t.toPreferences lib))
  | .login t => some (.login t.toLoginRecordInfo)

namespace StoredRecord

/-- `Convert`, to a row. -/
def toRow (condense : Json → String) : StoredRecord → Row
  | .user u => .user (.ofUserInfo condense u)
  | .token t => .token (.ofToken t)
  | .actionLink a => .actionLink (.ofActionLink condense a)
  | .apiKey k => .apiKey (.ofApiKeyEntry condense k)
  | .preferences p => .preferences (.ofPreferences condense p)
  | .login l => .login (.ofLoginRecordInfo l)

/-- The values that are printed into the columns of the row. -/
def printed : StoredRecord → List Json
  | .user u =>
    .obj u.userTypeProprietaryInfo.toJson ::
      (printedList (fun n : NoteInfo ↦ .obj n.toJson) u.notes ++ printedList .str u.lastPasswords)
  | .actionLink a => printedList pairInColumn a.variables
  | .apiKey k => printedList (fun r : ApiKeyAccessRight ↦ .obj r.toJson) k.rights
  | .preferences p => printedList pairInColumn p.data
  | .token _ | .login _ => []

/-- The numbers that are printed fit into `uint64_t`. -/
def Fits : StoredRecord → Prop
  | .user u => ∀ n ∈ u.notes, n.Fits
  | .token _ | .actionLink _ | .apiKey _ | .preferences _ | .login _ => True

variable {lib : JsonLibrary} {condense : Json → String}

theorem toUserInfo_ofUserInfo (hlib : lib.Converts) (hempty : lib.parse "[]" = some (.arr []))
    {u : UserInfo} (hu : (user u).Fits)
    (hprinted : ∀ j ∈ (user u).printed, lib.ReadsBack condense j) :
    (UserInfoRecordTuple.ofUserInfo condense u).toUserInfo lib = some u := by
  simp only [printed, List.forall_mem_cons, List.forall_mem_append] at hprinted
  obtain ⟨hinfo, hnotes, hpasswords⟩ := hprinted
  have hreadInfo : toObject lib (UserLoginLoginExtensions.fromJson lib) {}
      (condense (.obj u.userTypeProprietaryInfo.toJson)) = some u.userTypeProprietaryInfo := by
    refine toObject_condense hinfo fun o' ho' ↦ ?_
    rw [UserLoginLoginExtensions.fromJson_eq,
      UserLoginLoginExtensions.readFields_of_agrees hlib ho']
  have hreadNotes : toObjectArray lib (NoteInfo.fromJson lib · {})
      (listToString condense (fun n : NoteInfo ↦ .obj n.toJson) u.notes) = u.notes :=
    toObjectArray_listToString hempty hnotes fun n hn o' ↦ NoteInfo.fromJson_of_agrees hlib (hu n hn)
  have hreadPasswords : toStringArray lib (listToString condense .str u.lastPasswords) =
      u.lastPasswords := toStringArray_listToString hlib hempty hpasswords
  unfold UserInfoRecordTuple.toUserInfo UserInfoRecordTuple.ofUserInfo
  simp only [hreadInfo, hreadNotes, hreadPasswords, userTypeFromString_userTypeToString]
  rfl

/-- A record that is converted to a row and back is the same record. -/
theorem toRecord_toRow (hlib : lib.Converts) (hempty : lib.parse "[]" = some (.arr []))
    {r : StoredRecord} (hr : r.Fits) (hprinted : ∀ j ∈ r.printed, lib.ReadsBack condense j) :
    (r.toRow condense).toRecord lib = some r := by
  cases r with
  | user u =>
    show ((UserInfoRecordTuple.ofUserInfo condense u).toUserInfo lib).map user = _
    rw [toUserInfo_ofUserInfo hlib hempty hr hprinted, Option.map_some]
  | token t => rfl
  | actionLink a =>
    have hread : (ActionLinkRecordTuple.ofActionLink condense a).toActionLink lib = a := by
      unfold ActionLinkRecordTuple.toActionLink ActionLinkRecordTuple.ofActionLink
      simp only [toStringPairArray_listToString hlib hempty hprinted]
    exact congrArg (some ∘ actionLink) hread
  | apiKey k =>
    have hrights : toObjectArray lib (ApiKeyAccessRight.fromJson lib · {})
        (listToString condense (fun r : ApiKeyAccessRight ↦ .obj r.toJson) k.rights) = k.rights :=
      toObjectArray_listToString hempty hprinted
        fun r _ o' ↦ ApiKeyAccessRight.fromJson_of_agrees hlib
    have hread : (ApiKeyRecordTuple.ofApiKeyEntry condense k).toApiKeyEntry lib = k := by
      unfold ApiKeyRecordTuple.toApiKeyEntry ApiKeyRecordTuple.ofApiKeyEntry
      simp only [hrights]
    exact congrArg (some ∘ apiKey) hread
  | preferences p =>
    have hread : (PreferencesRecordTuple.ofPreferences condense p).toPreferences lib = p := by
      unfold PreferencesRecordTuple.toPreferences PreferencesRecordTuple.ofPreferences
      simp only [toStringPairArray_listToString hlib hempty hprinted]
    exact congrArg (some ∘ preferences) hread
  | login l => rfl

/-- A user with a note, a mobile number and old passwords. -/
def sampleUser : UserInfo :=
  { id := "u1", email := "tip@example.com", userRole := .ADMIN
    notes := [{ created := 1700000000, createdBy := "root", note := "one \"quoted\" word" }]
    userTypeProprietaryInfo :=
      { mobiles := [{ number := "+16045551234", verified := true, primary := true }]
        mfa := { enabled := true, method := "sms" } }
    lastPasswords := ["", "c0ffee"], modified := 1700000600 }

def sampleNotes : String :=
  "[\x7b\"created\":1700000000,\"createdBy\":\"root\",\"note\":\"one \\\"quoted\\\" word\"\x7d]"

def sampleInfo : String :=
  "\x7b\"authenticatorSecret\":\"\",\"mfa\":\x7b\"enabled\":true,\"method\":\"sms\"\x7d," ++
    "\"mobiles\":[\x7b\"number\":\"+16045551234\",\"primary\":true,\"verified\":true\x7d]\x7d"

def samplePasswords : String := "[\"\",\"c0ffee\"]"

/-- The texts of the three columns, by what they hold. -/
def sampleCondense : Json → String
  | .obj _ => sampleInfo
  | .arr (.obj _ :: _) => sampleNotes
  | _ => samplePasswords

/-- A library that knows these texts. -/
def sampleLibrary : JsonLibrary :=
  { JsonLibrary.sample with
    parse := fun text ↦
      if text = "[]" then some (.arr [])
      else if text = sampleInfo then some (.obj sampleUser.userTypeProprietaryInfo.toJson)
      else if text = sampleNotes then
        some (.arr (sampleUser.notes.map fun n ↦ .obj n.toJson))
      else if text = samplePasswords then some (.arr (sampleUser.lastPasswords.map .str))
      else none }

theorem toRecord_toRow_sample :
    ((user sampleUser).toRow sampleCondense).toRecord sampleLibrary = some (user sampleUser) := by
  have hlib : sampleLibrary.Converts :=
    ⟨JsonLibrary.converts_sample.str, JsonLibrary.converts_sample.bool,
      JsonLibrary.converts_sample.uint64⟩
  have hfits : (user sampleUser).Fits := by
    intro n hn
    rw [List.mem_singleton.mp hn]
    show 1700000000 < 2 ^ 64
    decide
  refine toRecord_toRow hlib rfl hfits ?_
  have hprinted : (user sampleUser).printed =
      [.obj sampleUser.userTypeProprietaryInfo.toJson,
        .arr (sampleUser.notes.map fun n ↦ .obj n.toJson),
        .arr (sampleUser.lastPasswords.map .str)] := rfl
  rw [hprinted, List.forall_mem_cons, List.forall_mem_cons, List.forall_mem_singleton]
  refine ⟨⟨by decide, _, ?_, .refl _⟩, ⟨by decide, _, ?_, .refl _⟩, ⟨by decide, _, ?_, .refl _⟩⟩
  · rfl
  · rfl
  · rfl

end StoredRecord

end OwSec
