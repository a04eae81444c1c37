import OwSec.RestApi.SubUser

/-!
# Pictures and preferences

What users and subscribers keep with the service besides their record: `/api/v1/avatar/{id}` and
`/api/v1/subavatar/{id}` (`RESTAPI_avatar_handler.cpp`, `RESTAPI_subavatar_handler.cpp`),
`/api/v1/preferences` and `/api/v1/subpreferences` (`RESTAPI_preferences.cpp`,
`RESTAPI_subpreferences.cpp`).  The two of a pair have the same bodies over different tables; none
of them asks whether the caller is a user or a subscriber.
-/

namespace OwSec

open SecurityObjects Kit

/-- The part of a form that `AvatarPartHandler` receives. -/
structure AvatarPart where
  name : String
  contentType : String
  content : List UInt8

namespace Storage

/-- `AvatarDB`, or `SubAvatarDB`. -/
def avatarDB (s : Storage) : Bool → Table String Avatar Avatar.id
  | false => s.avatars
  | true => s.subAvatars

/-- Replace the table of pictures. -/
def setAvatarDB (s : Storage) (isSub : Bool) (t : Table String Avatar Avatar.id) : Storage :=
  match isSub with
  | false => { s with avatars := t }
  | true => { s with subAvatars := t }

/-- `PreferencesDB`, or `SubPreferencesDB`. -/
def preferencesDB (s : Storage) : Bool → Table String Preferences Preferences.id
  | false => s.preferences
  | true => s.subPreferences

/-- Replace the table of preferences. -/
def setPreferencesDB (s : Storage) (isSub : Bool) (t : Table String Preferences Preferences.id) :
    Storage :=
  match isSub with
  | false => { s with preferences := t }
  | true => { s with subPreferences := t }

/-- `ReplaceRecord`: update the row, or create it where there is none. -/
def replaceRecord {ρ : Type} {key : ρ → String} (t : Table String ρ key) (r : ρ) :
    Table String ρ key :=
  match t.find? (key r) with
  | some _ => (t.update (key r) r).getD t
  | none => (t.insert r).getD t

end Storage

/-- `Preferences::from_json` on a fresh record. -/
def Preferences.fromJson (lib : JsonLibrary) (body : Option JsonObject) : Option Preferences :=
  match body with
  | none => none
  | some o =>
    let pair (o : JsonObject) : Option (String × String) := do
      let tag ← ((o.get? "tag").map lib.varToString).getD (some "")
      let value ← ((o.get? "value").map lib.varToString).getD (some "")
      return (tag, value)
    let pairs (o : JsonObject) (field : String) (value : List (String × String)) :=
      match o.get? field with
      | some (.arr items) =>
        let (ok, read) := elementsFromJson (fun j ↦ (elementFromJson pair j).join) items
        (ok, value ++ read)
      | _ => (true, value)
    match readFields
      [ readField (stringFromJson lib o "id") (·.id) ({ · with id := · }),
        readField (uint64FromJson lib o "modified") (·.modified) ({ · with modified := · }),
        readField (pairs o "data") (·.data) ({ · with data := · }) ]
      ({} : Preferences) with
    | (true, p) => some p
    | (false, _) => none

namespace RestApi

variable (svc : Service) (isSub : Bool)

namespace AvatarHandlers

/-- `UserDB().SetAvatar` or `SubDB().SetAvatar`: the result is not looked at. -/
def setAvatar (now : ℕ) (id value : String) : Handling PUnit :=
  Command.write fun s ↦ (s.onPopulation isSub fun p ↦ p.setAvatar svc now id value).2

/-- The body shared by the two `DoPost`; `maxSize` is `openwifi.avatar.maxsize`. -/
def doPost (maxSize : ℕ) (part : AvatarPart) (c : Context) : Handling Response := do
  let id := c.caller.id
  if !part.name.isEmpty && decide (part.content.length < maxSize) then
    Command.write fun s : Storage ↦ s.setAvatarDB isSub <| Storage.replaceRecord (s.avatarDB isSub)
      { id, type := part.contentType, created := c.moment.now, name := part.name
        avatar := part.content }
    setAvatar svc isSub c.moment.now id "1"
    return .avatarUpload id 0 none
  else return .avatarUpload id 13 (some "Avatar upload could not complete.")

/-- The body shared by the two `DoGet`. -/
def doGet (c : Context) : Handling Response := do
  let id := c.request.getBinding "id"
  Command.ensure (!id.isEmpty) .notFound
  let a ← Command.reads fun s : Storage ↦ (s.avatarDB isSub).find? id
  let a ← Command.orStop a .notFound
  return .avatar a.avatar a.type a.name

/-- The body shared by the two `DoDelete`. -/
def doDelete (c : Context) : Handling Response := do
  let id := c.request.getBinding "id"
  Command.ensure (c.caller.userRole == .ROOT || id == c.caller.id)
    (.unAuthorized Errors.ACCESS_DENIED)
  Command.write fun s : Storage ↦ s.setAvatarDB isSub ((s.avatarDB isSub).delete id)
  setAvatar svc isSub c.moment.now id ""
  return .ok

end AvatarHandlers

/-- `RESTAPI_avatar_handler` or `RESTAPI_subavatar_handler`, on the public or on the internal
router, for a request with the given part. -/
def avatarHandler (maxSize : ℕ) (part : AvatarPart) (internal : Bool) : Handler where
  methods := [.GET, .POST, .DELETE, .OPTIONS]
  internal := internal
  doGet := AvatarHandlers.doGet isSub
  doPost := AvatarHandlers.doPost svc isSub maxSize part
  doDelete := AvatarHandlers.doDelete svc isSub

namespace PreferencesHandlers

/-- The body shared by the two `DoGet`: without a row the answer is the default. -/
def doGet (c : Context) : Handling Response := do
  let p ← Command.reads fun s : Storage ↦ (s.preferencesDB isSub).find? c.caller.id
  return .preferences (p.getD {})

/-- The body shared by the two `DoPut`. -/
def doPut (c : Context) : Handling Response := do
  let p ← Command.orStop (Preferences.fromJson svc.json c.request.body.parsed)
    (.badRequest Errors.InvalidJSONDocument)
  let p := { p with id := c.caller.id, modified := c.moment.now }
  Command.write fun s : Storage ↦
    s.setPreferencesDB isSub (Storage.replaceRecord (s.preferencesDB isSub) p)
  return .preferences p

end PreferencesHandlers

/-- `RESTAPI_preferences` or `RESTAPI_subpreferences`, on the public or on the internal router. -/
def preferencesHandler (internal : Bool) : Handler where
  methods := [.GET, .PUT, .OPTIONS]
  internal := internal
  doGet := PreferencesHandlers.doGet isSub
  doPut := PreferencesHandlers.doPut svc isSub

end RestApi

end OwSec
