import OwSec.Framework.ORMSelections
import OwSec.Storage.Rows

/-!
# The tables of the storage service

The fields, the indexes, the tuples and the caches of the tables that `StorageService::Start`
creates, and what follows for them from `OwSec.Framework.ORMRefinement`: on every database, the
functions of a table answer as the operations on that table and its cache do, which for the users
and the tokens are those of the stores.
-/

namespace Kit.Sql.Value

/-- A text. -/
def text? : Value → Option String
  | .text s => some s
  | _ => none

/-- A number that is not negative. -/
def nat? : Value → Option ℕ
  | .int (.ofNat n) => some n
  | _ => none

/-- A truth value. -/
def bool? : Value → Option Bool
  | .bool b => some b
  | _ => none

/-- Bytes. -/
def blob? : Value → Option (List UInt8)
  | .blob bytes => some bytes
  | _ => none

end Kit.Sql.Value

namespace OwSec

open SecurityObjects Kit Sql ORM

/-! ## The elements of tuples -/

namespace UserInfoRecordTuple

/-- The elements of the tuple. -/
def values (t : UserInfoRecordTuple) : List Value :=
  [.text t.t0, .text t.t1, .text t.t2, .text t.t3, .text t.t4, .bool t.t5, .text t.t6,
    .int t.t7, .int t.t8, .text t.t9, .bool t.t10, .int t.t11, .text t.t12, .int t.t13,
    .int t.t14, .bool t.t15, .text t.t16, .text t.t17, .text t.t18, .text t.t19, .text t.t20,
    .bool t.t21, .bool t.t22, .text t.t23, .text t.t24, .text t.t25, .int t.t26, .text t.t27,
    .text t.t28, .text t.t29, .text t.t30, .int t.t31, .text t.t32]

/-- The tuple of some elements, if they are of its types. -/
def ofValues : List Value → Option UserInfoRecordTuple
  | v0 :: v1 :: v2 :: v3 :: v4 :: v5 :: v6 :: v7 :: v8 :: v9 :: v10 :: v11 :: v12 :: v13 ::
      v14 :: v15 :: v16 :: v17 :: v18 :: v19 :: v20 :: v21 :: v22 :: v23 :: v24 :: v25 :: v26 ::
      v27 :: v28 :: v29 :: v30 :: v31 :: v32 :: [] => do
    return {
      t0 := ← v0.text?, t1 := ← v1.text?, t2 := ← v2.text?, t3 := ← v3.text?, t4 := ← v4.text?,
      t5 := ← v5.bool?, t6 := ← v6.text?, t7 := ← v7.nat?, t8 := ← v8.nat?, t9 := ← v9.text?,
      t10 := ← v10.bool?, t11 := ← v11.nat?, t12 := ← v12.text?, t13 := ← v13.nat?,
      t14 := ← v14.nat?, t15 := ← v15.bool?, t16 := ← v16.text?, t17 := ← v17.text?,
      t18 := ← v18.text?, t19 := ← v19.text?, t20 := ← v20.text?, t21 := ← v21.bool?,
      t22 := ← v22.bool?, t23 := ← v23.text?, t24 := ← v24.text?, t25 := ← v25.text?,
      t26 := ← v26.nat?, t27 := ← v27.text?, t28 := ← v28.text?, t29 := ← v29.text?,
      t30 := ← v30.text?, t31 := ← v31.nat?, t32 := ← v32.text? }
  | _ => none

theorem ofValues_values (t : UserInfoRecordTuple) : ofValues t.values = some t := rfl

end UserInfoRecordTuple

namespace TokenRecordTuple

/-- The elements of the tuple. -/
def values (t : TokenRecordTuple) : List Value :=
  [.text t.t0, .text t.t1, .text t.t2, .text t.t3, .int t.t4, .int t.t5, .int t.t6, .int t.t7,
    .int t.t8]

/-- The tuple of some elements, if they are of its types. -/
def ofValues : List Value → Option TokenRecordTuple
  | [v0, v1, v2, v3, v4, v5, v6, v7, v8] => do
    return {
      t0 := ← v0.text?, t1 := ← v1.text?, t2 := ← v2.text?, t3 := ← v3.text?, t4 := ← v4.nat?,
      t5 := ← v5.nat?, t6 := ← v6.nat?, t7 := ← v7.nat?, t8 := ← v8.nat? }
  | _ => none

theorem ofValues_values (t : TokenRecordTuple) : ofValues t.values = some t := rfl

end TokenRecordTuple

namespace ActionLinkRecordTuple

/-- The elements of the tuple. -/
def values (t : ActionLinkRecordTuple) : List Value :=
  [.text t.t0, .int t.t1, .text t.t2, .text t.t3, .text t.t4, .text t.t5, .text t.t6, .int t.t7,
    .int t.t8, .int t.t9, .int t.t10, .int t.t11, .bool t.t12]

/-- The tuple of some elements, if they are of its types. -/
def ofValues : List Value → Option ActionLinkRecordTuple
  | [v0, v1, v2, v3, v4, v5, v6, v7, v8, v9, v10, v11, v12] => do
    return {
      t0 := ← v0.text?, t1 := ← v1.nat?, t2 := ← v2.text?, t3 := ← v3.text?, t4 := ← v4.text?,
      t5 := ← v5.text?, t6 := ← v6.text?, t7 := ← v7.nat?, t8 := ← v8.nat?, t9 := ← v9.nat?,
      t10 := ← v10.nat?, t11 := ← v11.nat?, t12 := ← v12.bool? }
  | _ => none

theorem ofValues_values (t : ActionLinkRecordTuple) : ofValues t.values = some t := rfl

end ActionLinkRecordTuple

namespace ApiKeyRecordTuple

/-- The elements of the tuple. -/
def values (t : ApiKeyRecordTuple) : List Value :=
  [.text t.t0, .text t.t1, .text t.t2, .text t.t3, .text t.t4, .text t.t5, .int t.t6, .int t.t7,
    .text t.t8, .int t.t9]

/-- The tuple of some elements, if they are of its types. -/
def ofValues : List Value → Option ApiKeyRecordTuple
  | [v0, v1, v2, v3, v4, v5, v6, v7, v8, v9] => do
    return {
      t0 := ← v0.text?, t1 := ← v1.text?, t2 := ← v2.text?, t3 := ← v3.text?, t4 := ← v4.text?,
      t5 := ← v5.text?, t6 := ← v6.nat?, t7 := ← v7.nat?, t8 := ← v8.text?, t9 := ← v9.nat? }
  | _ => none

theorem ofValues_values (t : ApiKeyRecordTuple) : ofValues t.values = some t := rfl

end ApiKeyRecordTuple

namespace PreferencesRecordTuple

/-- The elements of the tuple. -/
def values (t : PreferencesRecordTuple) : List Value :=
  [.text t.t0, .int t.t1, .text t.t2]

/-- The tuple of some elements, if they are of its types. -/
def ofValues : List Value → Option PreferencesRecordTuple
  | [v0, v1, v2] => do
    return {
      t0 := ← v0.text?, t1 := ← v1.nat?, t2 := ← v2.text? }
  | _ => none

theorem ofValues_values (t : PreferencesRecordTuple) : ofValues t.values = some t := rfl

end PreferencesRecordTuple

namespace LoginInfoRecordTuple

/-- The elements of the tuple. -/
def values (t : LoginInfoRecordTuple) : List Value :=
  [.text t.t0, .text t.t1, .text t.t2, .int t.t3, .int t.t4]

/-- The tuple of some elements, if they are of its types. -/
def ofValues : List Value → Option LoginInfoRecordTuple
  | [v0, v1, v2, v3, v4] => do
    return {
      t0 := ← v0.text?, t1 := ← v1.text?, t2 := ← v2.text?, t3 := ← v3.nat?, t4 := ← v4.nat? }
  | _ => none

theorem ofValues_values (t : LoginInfoRecordTuple) : ofValues t.values = some t := rfl

end LoginInfoRecordTuple

/-! ## The classes of tables -/

/-- The classes that derive from `ORM::DB`, by their records. -/
inductive RecordClass
  | user
  | token
  | actionLink
  | apiKey
  | preferences
  | login
  | avatar
  deriving DecidableEq, Repr

namespace RecordClass

/-- The record of a table. -/
def Record : RecordClass → Type
  | .user => UserInfo
  | .token => SecurityObjects.Token
  | .actionLink => ActionLink
  | .apiKey => ApiKeyEntry
  | .preferences => Preferences
  | .login => LoginRecordInfo
  | .avatar => Avatar

/-- `BaseUserDB_Fields` and the like. -/
def fields : RecordClass → List Field
  | .user =>
    [.ofSize "id" 36 true, ⟨"name", .text, 0, false⟩, ⟨"description", .text, 0, false⟩,
      ⟨"avatar", .text, 0, false⟩, ⟨"email", .text, 0, false⟩, ⟨"validated", .boolean, 0, false⟩,
      ⟨"validationEmail", .text, 0, false⟩, ⟨"validationDate", .bigint, 0, false⟩,
      ⟨"creationDate", .bigint, 0, false⟩, ⟨"validationURI", .text, 0, false⟩,
      ⟨"changePassword", .boolean, 0, false⟩, ⟨"lastLogin", .bigint, 0, false⟩,
      ⟨"currentLoginURI", .text, 0, false⟩, ⟨"lastPasswordChange", .bigint, 0, false⟩,
      ⟨"lastEmailCheck", .bigint, 0, false⟩, ⟨"waitingForEmailCheck", .boolean, 0, false⟩,
      ⟨"locale", .text, 0, false⟩, ⟨"notes", .text, 0, false⟩, ⟨"location", .text, 0, false⟩,
      ⟨"owner", .text, 0, false⟩, ⟨"createdBy", .text, 0, false⟩,
      ⟨"suspended", .boolean, 0, false⟩, ⟨"blackListed", .boolean, 0, false⟩,
      ⟨"userRole", .text, 0, false⟩, ⟨"userTypeProprietaryInfo", .text, 0, false⟩,
      ⟨"securityPolicy", .text, 0, false⟩, ⟨"securityPolicyChange", .bigint, 0, false⟩,
      ⟨"currentPassword", .text, 0, false⟩, ⟨"lastPasswords", .text, 0, false⟩,
      ⟨"oauthType", .text, 0, false⟩, ⟨"oauthUserInfo", .text, 0, false⟩,
      ⟨"modified", .text, 0, false⟩, ⟨"signingUp", .text, 0, false⟩]
  | .token =>
    [⟨"token", .text, 0, true⟩, ⟨"refreshToken", .text, 0, false⟩, ⟨"tokenType", .text, 0, false⟩,
      ⟨"userName", .text, 0, false⟩, ⟨"created", .bigint, 0, false⟩,
      ⟨"expires", .bigint, 0, false⟩, ⟨"idleTimeOut", .bigint, 0, false⟩,
      ⟨"revocationDate", .bigint, 0, false⟩, ⟨"lastRefresh", .bigint, 0, false⟩]
  | .actionLink =>
    [.ofSize "id" 36 true, ⟨"action", .bigint, 0, false⟩, ⟨"userId", .text, 0, false⟩,
      ⟨"actionTemplate", .text, 0, false⟩, ⟨"variables", .text, 0, false⟩,
      ⟨"locale", .text, 0, false⟩, ⟨"message", .text, 0, false⟩, ⟨"sent", .bigint, 0, false⟩,
      ⟨"created", .bigint, 0, false⟩, ⟨"expires", .bigint, 0, false⟩,
      ⟨"completed", .bigint, 0, false⟩, ⟨"canceled", .bigint, 0, false⟩,
      ⟨"userAction", .boolean, 0, false⟩]
  | .apiKey => apiKeyDB_Fields
  | .preferences =>
    [.ofSize "id" 36 true, ⟨"modified", .bigint, 0, false⟩, ⟨"data", .text, 0, false⟩]
  | .login =>
    [.ofSize "session" 64 true, ⟨"userId", .text, 0, false⟩, ⟨"email", .text, 0, false⟩,
      ⟨"login", .bigint, 0, false⟩, ⟨"logout", .bigint, 0, false⟩]
  | .avatar =>
    [.ofSize "id" 36 true, ⟨"type", .text, 0, false⟩, ⟨"created", .bigint, 0, false⟩,
      ⟨"name", .text, 0, false⟩, ⟨"avatar", .blob, 0, false⟩]

/-- `MakeIndices`, of each class. -/
def indexes (shortname : String) : RecordClass → List Index
  | .user =>
    [⟨shortname ++ "_user_email_index", [⟨"email", .asc⟩]⟩,
      ⟨shortname ++ "_user_name_index", [⟨"name", .asc⟩]⟩,
      ⟨shortname ++ "_user_createdby_index", [⟨"createdBy", .asc⟩]⟩]
  | .token =>
    [⟨shortname ++ "_user_id_index", [⟨"userName", .asc⟩]⟩,
      ⟨shortname ++ "_refresh_index", [⟨"refreshToken", .asc⟩]⟩]
  | .apiKey => makeIndices shortname
  | .login => [⟨shortname ++ "_userid_index", [⟨"userId", .asc⟩]⟩]
  | .actionLink | .preferences | .avatar => []

/-- The field by which records are told from each other. -/
def keyName : RecordClass → String
  | .token => "token"
  | .login => "session"
  | .user | .actionLink | .apiKey | .preferences | .avatar => "id"

/-- The value of that field. -/
def key : (s : RecordClass) → s.Record → String
  | .user => UserInfo.id
  | .token => SecurityObjects.Token.token
  | .actionLink => ActionLink.id
  | .apiKey => ApiKeyEntry.id
  | .preferences => Preferences.id
  | .login => LoginRecordInfo.sessionId
  | .avatar => Avatar.id

/-- The types of the tuple. -/
def kinds : RecordClass → List Kind
  | .user =>
    [.text, .text, .text, .text, .text, .bool, .text, .int, .int, .text, .bool, .int, .text, .int,
      .int, .bool, .text, .text, .text, .text, .text, .bool, .bool, .text, .text, .text, .int,
      .text, .text, .text, .text, .int, .text]
  | .token => [.text, .text, .text, .text, .int, .int, .int, .int, .int]
  | .actionLink =>
    [.text, .int, .text, .text, .text, .text, .text, .int, .int, .int, .int, .int, .bool]
  | .apiKey => [.text, .text, .text, .text, .text, .text, .int, .int, .text, .int]
  | .preferences => [.text, .int, .text]
  | .login => [.text, .text, .text, .int, .int]
  | .avatar => [.text, .text, .int, .text, .blob]

section Tuples

variable (lib : JsonLibrary) (condense : Json → String)

/-- `Convert`, to the elements of a tuple. -/
def toTuple : (s : RecordClass) → s.Record → List Value
  | .user => fun u ↦ (UserInfoRecordTuple.ofUserInfo condense u).values
  | .token => fun t ↦ (TokenRecordTuple.ofToken t).values
  | .actionLink => fun a ↦ (ActionLinkRecordTuple.ofActionLink condense a).values
  | .apiKey => fun k ↦ (ApiKeyRecordTuple.ofApiKeyEntry condense k).values
  | .preferences => fun p ↦ (PreferencesRecordTuple.ofPreferences condense p).values
  | .login => fun l ↦ (LoginInfoRecordTuple.ofLoginRecordInfo l).values
  | .avatar => fun a ↦ [.text a.id, .text a.type, .int a.created, .text a.name, .blob a.avatar]

/-- The elements of an avatar's tuple. -/
def avatarOfValues : List Value → Option Avatar
  | [v0, v1, v2, v3, v4] => do
    return {
      id := ← v0.text?, type := ← v1.text?, created := ← v2.nat?, name := ← v3.text?,
      avatar := ← v4.blob? }
  | _ => none

/-- `Convert`, from the elements of a tuple. -/
def ofTuple : (s : RecordClass) → List Value → Option s.Record
  | .user => fun vs ↦ (UserInfoRecordTuple.ofValues vs).bind (·.toUserInfo lib)
  | .token => fun vs ↦ (TokenRecordTuple.ofValues vs).map (·.toToken)
  | .actionLink => fun vs ↦ (ActionLinkRecordTuple.ofValues vs).map (·.toActionLink lib)
  | .apiKey => fun vs ↦ (ApiKeyRecordTuple.ofValues vs).map (·.toApiKeyEntry lib)
  | .preferences => fun vs ↦ (PreferencesRecordTuple.ofValues vs).map (·.toPreferences lib)
  | .login => fun vs ↦ (LoginInfoRecordTuple.ofValues vs).map (·.toLoginRecordInfo)
  | .avatar => avatarOfValues

/-- What is printed into the columns of a record can be read again. -/
def Prints (r : StoredRecord) : Prop := r.Fits ∧ ∀ j ∈ r.printed, lib.ReadsBack condense j

/-- The records that are the same when they are loaded. -/
def Kept : (s : RecordClass) → s.Record → Prop
  | .user => fun u ↦ Prints lib condense (.user u)
  | .actionLink => fun a ↦ Prints lib condense (.actionLink a)
  | .apiKey => fun k ↦ Prints lib condense (.apiKey k)
  | .preferences => fun p ↦ Prints lib condense (.preferences p)
  | .token | .login | .avatar => fun _ ↦ True

variable {lib condense}

theorem ofTuple_toTuple (hlib : lib.Converts) (hempty : lib.parse "[]" = some (.arr []))
    {s : RecordClass} {r : s.Record} (hr : Kept lib condense s r) :
    ofTuple lib s (toTuple condense s r) = some r := by
  have hread {r : StoredRecord} (hr : Prints lib condense r) :
      (r.toRow condense).toRecord lib = some r :=
    StoredRecord.toRecord_toRow hlib hempty hr.1 hr.2
  cases s with
  | user => exact StoredRecord.toUserInfo_ofUserInfo hlib hempty hr.1 hr.2
  | token => rfl
  | actionLink => exact congrArg some (StoredRecord.actionLink.inj (Option.some.inj (hread hr)))
  | apiKey => exact congrArg some (StoredRecord.apiKey.inj (Option.some.inj (hread hr)))
  | preferences => exact congrArg some (StoredRecord.preferences.inj (Option.some.inj (hread hr)))
  | login => rfl
  | avatar => rfl

end Tuples

/-- `Convert`, of each class. -/
def tuple (lib : JsonLibrary) (condense : Json → String) (hlib : lib.Converts)
    (hempty : lib.parse "[]" = some (.arr [])) (s : RecordClass) : RecordTuple s.fields s.Record where
  kinds := s.kinds
  toTuple := toTuple condense s
  ofTuple := ofTuple lib s
  Kept := Kept lib condense s
  length_kinds := by cases s <;> rfl
  map_kind := by cases s <;> exact fun _ ↦ rfl
  ofTuple_toTuple _ hr := ofTuple_toTuple hlib hempty hr

end RecordClass

/-! ## The tables -/

/-- The tables that `StorageService::Start` makes. -/
inductive StoreTable
  /-- `UserDB` and `SubDB`. -/
  | users (isSub : Bool)
  /-- `UserTokenDB` and `SubTokenDB`. -/
  | tokens (isSub : Bool)
  /-- `PreferencesDB` and `SubPreferencesDB`. -/
  | preferences (isSub : Bool)
  /-- `ActionLinksDB`. -/
  | actionLinks
  /-- `AvatarDB` and `SubAvatarDB`. -/
  | avatars (isSub : Bool)
  /-- `LoginDB` and `SubLoginDB`. -/
  | logins (isSub : Bool)
  /-- `ApiKeyDB`. -/
  | apiKeys
  deriving DecidableEq, Repr

namespace StoreTable

/-- The class of the table. -/
def recordClass : StoreTable → RecordClass
  | .users _ => .user
  | .tokens _ => .token
  | .preferences _ => .preferences
  | .actionLinks => .actionLink
  | .avatars _ => .avatar
  | .logins _ => .login
  | .apiKeys => .apiKey

/-- The name of the table. -/
def tableName : StoreTable → String
  | .users isSub => if isSub then "Subscribers" else "Users"
  | .tokens isSub => if isSub then "SubTokens" else "Tokens"
  | .preferences isSub => if isSub then "SubPreferences" else "Preferences"
  | .actionLinks => "Actions"
  | .avatars isSub => if isSub then "SubAvatars" else "Avatars2"
  | .logins isSub => if isSub then "SubLogins" else "Logins"
  | .apiKeys => "ApiKeys"

/-- The prefix of its indexes. -/
def shortname : StoreTable → String
  | .users isSub => if isSub then "sub" else "usr"
  | .tokens isSub => if isSub then "stk" else "tok"
  | .preferences isSub => if isSub then "prs" else "pre"
  | .actionLinks => "act"
  | .avatars isSub => if isSub then "avs" else "ava"
  | .logins isSub => if isSub then "lis" else "lin"
  | .apiKeys => "api"

/-- The constructor of the table's class. -/
def new (type : DBType) (t : StoreTable) : Option DB :=
  DB.new type t.tableName t.recordClass.fields (t.recordClass.indexes t.shortname)

/-- The names of the fields are told from keywords and from each other. -/
theorem ofField (s : RecordClass) :
    (∀ i ∈ s.fields, IsName i.name) ∧ (∀ i ∈ s.fields, IsIdentifier (nameChars i.name)) ∧
      (columns s.fields).Nodup := by
  cases s <;> decide

theorem tabular (t : StoreTable) : Tabular t.tableName t.recordClass.fields := by
  have htable : IsName t.tableName ∧ IsIdentifier (nameChars t.tableName) := by
    rcases t with (_ | _) | (_ | _) | (_ | _) | _ | (_ | _) | (_ | _) | _ <;> decide
  obtain ⟨hname, hidentifiers, hnodup⟩ := ofField t.recordClass
  refine ⟨htable.1, htable.2, hname, hidentifiers, ?_, hnodup, ?_⟩
  · cases t.recordClass <;> exact List.cons_ne_nil _ _
  · cases t.recordClass <;> decide

/-- The indexes are over fields. -/
theorem exists_new (type : DBType) (t : StoreTable) : ∃ db, t.new type = some db := by
  have hvalid : (t.recordClass.indexes t.shortname).all (fun j ↦ j.entries.all fun k ↦
      DB.validFieldName (DB.placeFields t.recordClass.fields) k.fieldName) = true := by
    cases t.recordClass <;> rfl
  rw [new, DB.new, if_pos hvalid]
  exact ⟨_, rfl⟩

section Keys

variable {lib : JsonLibrary} {condense : Json → String} {hlib : lib.Converts}
  {hempty : lib.parse "[]" = some (.arr [])}

/-- The tables are keyed. -/
theorem keyed {t : StoreTable} {type : DBType} {db : DB} (hdb : t.new type = some db) :
    Keyed type t.tableName t.recordClass.fields (t.recordClass.indexes t.shortname) db
      (t.recordClass.tuple lib condense hlib hempty) t.recordClass.keyName t.recordClass.key where
  tabular := t.tabular
  made := hdb
  valid := by
    obtain ⟨-, hdb⟩ := Option.ite_none_right_eq_some.mp hdb
    rw [← Option.some.inj hdb]
    cases t.recordClass <;> rfl
  unique := by cases t.recordClass <;> rfl
  column_key := by cases t.recordClass <;> exact fun _ ↦ rfl
  kindOf_key := by cases t.recordClass <;> rfl

end Keys

end StoreTable

/-! ## The caches -/

section Caches

variable (svc : Service)

/-- `TokenCache`. -/
def tokenCache : DBCache SecurityObjects.Token Population where
  create _ p := p
  getFromCache fieldName v p :=
    (if fieldName = "token" then p.tokens.getFromCache v else none, p)
  updateCache r p := { p with tokens := p.tokens.updateCache r }
  delete fieldName v p :=
    if fieldName = "token" then { p with tokens := p.tokens.cacheDelete svc v }
    else if fieldName = "userName" then { p with tokens := p.tokens.cacheDeleteUserName svc v }
    else p

/-- `UserCache`. -/
def userCache : DBCache UserInfo Population where
  create _ p := p
  getFromCache fieldName v p :=
    (if fieldName = "id" then p.getFromCacheById v
      else if fieldName = "email" then p.getFromCacheByEMail v
      else none, p)
  updateCache r p := p.updateCache svc r
  delete fieldName v p :=
    if fieldName = "id" then p.cacheDelete v
    else if fieldName = "email" then
      match p.cacheByEMail.lookup v with
      | some id =>
        { p with
          cacheById := p.cacheById.erase id
          cacheByEMail := p.cacheByEMail.erase v }
      | none => p
    else p

/-- The caches that `StorageService::Start` makes. -/
def StoreTable.cache : (t : StoreTable) → Option (DBCache t.recordClass.Record Population)
  | .users _ => some (userCache svc)
  | .tokens _ => some (tokenCache svc)
  | .preferences _ | .actionLinks | .avatars _ | .logins _ | .apiKeys => none

/-- Users with their rows. -/
def Population.ofUsers (x : CachedTable UserInfo.id Population) : Population :=
  { x.2 with users := x.1 }

/-- Tokens with their rows. -/
def TokenStore.ofTokens (x : CachedTable SecurityObjects.Token.token Population) : TokenStore :=
  { x.2.tokens with rows := x.1 }

variable {lib : JsonLibrary} {condense : Json → String} {hlib : lib.Converts}
  {hempty : lib.parse "[]" = some (.arr [])}

/-- A record is looked up by the value of a text column. -/
theorem getRecord_text {fields : List Field} {ρ σ : Type} {key : ρ → String}
    {c : RecordTuple fields ρ} {fieldName : String} {f : ρ → String}
    (hf : ∀ r, c.column (nameChars fieldName) r = some (.text (f r)))
    (Cache_ : Option (DBCache ρ σ)) (v : String) (t : Table String ρ key) (s : σ) :
    CachedTable.getRecord c Cache_ fieldName v (t, s)
      = DBCache.through Cache_ fieldName v (t, s) (t.select fun r ↦ f r = v) := by
  have hcolumn (r : ρ) : decide (c.column (nameChars fieldName) r = some (.text v))
      = decide (f r = v) := by
    simp only [hf, Option.some.injEq, Value.text.injEq]
  simp only [CachedTable.getRecord, hcolumn]

/-! What the stores do is what is done to their tables and caches. -/

namespace Population

variable {fields : List Field} {c : RecordTuple fields UserInfo} (p : Population)

/-- `GetRecord("id", …)`, of a tuple with the identifier in its column. -/
theorem getRecordById_eq (hid : ∀ r, c.column (nameChars "id") r = some (.text r.id))
    (userId : String) :
    p.getRecordById svc userId =
      (CachedTable.getRecord c (some (userCache svc)) "id" userId (p.users, p)).map id ofUsers := by
  have hfind : (p.users.select fun r ↦ r.id = userId) = p.users.find? userId := rfl
  rw [getRecord_text hid, hfind]
  unfold getRecordById
  rcases hcached : p.getFromCacheById userId with _ | r
  · rw [DBCache.through_miss (congrArg (·, p) hcached)]
    rcases p.users.find? userId with _ | r <;> rfl
  · rw [DBCache.through_hit (congrArg (·, p) hcached)]
    rfl

/-- `GetRecord("email", …)`. -/
theorem getRecordByEMail_eq (hemail : ∀ r, c.column (nameChars "email") r = some (.text r.email))
    (email : String) :
    p.getRecordByEMail svc email =
      (CachedTable.getRecord c (some (userCache svc)) "email" email (p.users, p)).map id
        ofUsers := by
  have hselect : (p.users.select fun r ↦ r.email = email) = p.users.select (·.email == email) := rfl
  rw [getRecord_text hemail, hselect]
  unfold getRecordByEMail
  rcases hcached : p.getFromCacheByEMail email with _ | r
  · rw [DBCache.through_miss (congrArg (·, p) hcached)]
    rcases p.users.select (·.email == email) with _ | r <;> rfl
  · rw [DBCache.through_hit (congrArg (·, p) hcached)]
    rfl

/-- `CreateRecord`. -/
theorem createRecord_eq (r : UserInfo) :
    p.createRecord r =
      (CachedTable.createRecord (some (userCache svc)) r (p.users, p)).map id ofUsers := by
  unfold createRecord CachedTable.createRecord
  rcases p.users.insert r with _ | users <;> rfl

/-- `UpdateRecord("id", …)`. -/
theorem updateRecord_eq (userId : String) (r : UserInfo) :
    p.updateRecord svc userId r =
      (CachedTable.updateRecord (some (userCache svc)) userId r (p.users, p)).map id ofUsers := by
  unfold updateRecord CachedTable.updateRecord
  rcases p.users.update userId r with _ | users <;> rfl

/-- `DeleteRecord("id", …)`. -/
theorem deleteRecord_eq (userId : String) :
    (true, p.deleteRecord userId) =
      (CachedTable.deleteRecord (some (userCache svc)) "id" userId (p.users, p)).map id ofUsers :=
  rfl

end Population

namespace TokenStore

variable {fields : List Field} {c : RecordTuple fields SecurityObjects.Token} (p : Population)

/-- `GetRecord("token", …)`, of a tuple with the token in its column. -/
theorem getRecord_eq (htoken : ∀ r, c.column (nameChars "token") r = some (.text r.token))
    (token : String) :
    p.tokens.getRecord token =
      (CachedTable.getRecord c (some (tokenCache svc)) "token" token (p.tokens.rows, p)).map
        id ofTokens := by
  have hfind : (p.tokens.rows.select fun r ↦ r.token = token) = p.tokens.rows.find? token := rfl
  rw [getRecord_text htoken, hfind]
  unfold getRecord
  rcases hcached : p.tokens.getFromCache token with _ | r
  · rw [DBCache.through_miss (congrArg (·, p) hcached)]
    rcases p.tokens.rows.find? token with _ | r <;> rfl
  · rw [DBCache.through_hit (congrArg (·, p) hcached)]
    rfl

/-- `CreateRecord`. -/
theorem createRecord_eq (r : SecurityObjects.Token) :
    p.tokens.createRecord r =
      (CachedTable.createRecord (some (tokenCache svc)) r (p.tokens.rows, p)).map id
        ofTokens := by
  unfold createRecord CachedTable.createRecord
  rcases p.tokens.rows.insert r with _ | rows <;> rfl

/-- `UpdateRecord("token", …)`. -/
theorem updateRecord_eq (token : String) (r : SecurityObjects.Token) :
    p.tokens.updateRecord token r =
      (CachedTable.updateRecord (some (tokenCache svc)) token r (p.tokens.rows, p)).map id
        ofTokens := by
  unfold updateRecord CachedTable.updateRecord
  rcases p.tokens.rows.update token r with _ | rows <;> rfl

/-- `DeleteRecord("token", …)`. -/
theorem deleteRecord_eq (token : String) :
    (true, p.tokens.deleteRecord svc token) =
      (CachedTable.deleteRecord (some (tokenCache svc)) "token" token (p.tokens.rows, p)).map
        id ofTokens := rfl

end TokenStore

end Caches

/-- On every database, the functions of a table answer any requests as the operations on the table
and its cache do. -/
theorem tables_answer (svc : Service) {E : Engine} (hexact : E.Exact) {lib : JsonLibrary}
    {condense : Json → String} (hlib : lib.Converts) (hempty : lib.parse "[]" = some (.arr []))
    (type : DBType) (t : StoreTable) :
    ∃ db, t.new type = some db ∧
      ∀ x : CachedTable t.recordClass.key Population,
        (∀ r ∈ x.1.rows, t.recordClass.Kept lib condense r) →
        ∀ qs : List (ORM.Request t.recordClass.Record Population),
          System.Allowed
              (fun x q ↦ q.Legal (t.recordClass.tuple lib condense hlib hempty) db x)
              (tableSpec (t.recordClass.tuple lib condense hlib hempty) (t.cache svc)
                t.recordClass.keyName t.recordClass.key).next x qs →
          Spec.answers (fun x q ↦ some (db.answer E (t.recordClass.tuple lib condense hlib hempty)
                (t.cache svc) t.recordClass.keyName x q))
              (stored t.tableName (t.recordClass.tuple lib condense hlib hempty) x.1.rows, x.2) qs
            = some ((tableSpec (t.recordClass.tuple lib condense hlib hempty) (t.cache svc)
                t.recordClass.keyName t.recordClass.key).replies x qs) := by
  obtain ⟨db, hdb⟩ := t.exists_new type
  have hkeyed : Keyed type t.tableName t.recordClass.fields (t.recordClass.indexes t.shortname) db
      (t.recordClass.tuple lib condense hlib hempty) t.recordClass.keyName t.recordClass.key :=
    StoreTable.keyed hdb
  exact ⟨db, hdb, fun x hkept qs hqs ↦ hkeyed.answers_eq_replies hexact hkept hqs⟩

/-- An engine whose functions on texts are those of the sample service. -/
def sampleStoreEngine : Engine := sampleEngine Service.sample.dialect

theorem StoredRecord.converts_sampleLibrary : StoredRecord.sampleLibrary.Converts :=
  ⟨JsonLibrary.converts_sample.str, JsonLibrary.converts_sample.bool,
    JsonLibrary.converts_sample.uint64⟩

/-- Records with the library that knows some texts. -/
def sampleTuple (s : RecordClass) : RecordTuple s.fields s.Record :=
  s.tuple StoredRecord.sampleLibrary StoredRecord.sampleCondense
    StoredRecord.converts_sampleLibrary rfl

/-- A token without a row. -/
def sampleGhost : SecurityObjects.Token := { token := "ghost", userName := "jo" }

/-- A token that is updated without a row is found as long as the cache has it. -/
theorem tables_answer_ghost :
    ∃ db, (StoreTable.tokens false).new .pgsql = some db ∧
      Spec.answers
          (fun x q ↦ some (db.answer sampleStoreEngine (sampleTuple .token)
            (some (tokenCache .sample)) "token" x q))
          (stored "Tokens" (sampleTuple .token) [], {})
          [.update "ghost" sampleGhost, .get "token" "ghost", .get "userName" "jo",
            .meanwhile (fun p ↦ { p with tokens := {} }) List.reverse, .get "token" "ghost"]
        = some [.done true, .found (some sampleGhost), .found none, .done true, .found none] := by
  have hexact := (ordered_sampleEngine Service.sample.dialect).toExact
  obtain ⟨db, hdb, hrun⟩ := @tables_answer .sample sampleStoreEngine hexact _
    StoredRecord.sampleCondense StoredRecord.converts_sampleLibrary rfl .pgsql (.tokens false)
  have hvalid {fieldName : String}
      (h : DB.validFieldName (DB.placeFields RecordClass.token.fields) fieldName = true) :
      DB.validFieldName db.fieldNames_ fieldName = true := by
    rw [fieldNames_of_new hdb]
    exact h
  have hnone (P : SecurityObjects.Token → Prop) : ∀ r ∈ [], P r := by simp
  refine ⟨db, hdb, (hrun (.empty, {}) (by simp [Table.empty]) _ ?_).trans rfl⟩
  exact ⟨trivial, ⟨hvalid rfl, rfl, hnone _⟩, ⟨hvalid rfl, rfl, hnone _⟩, List.reverse_perm,
    ⟨hvalid rfl, rfl, hnone _⟩, trivial⟩

end OwSec
