import OwSec.Passwords
import OwSec.Storage.TokenDB

/-!
# The user store

`BaseUserDB` and its `UserCache` (`storage/orm_users.cpp`, over `framework/orm.h`).  There
is one for the users and one for the subscribers.  Filling the user cache purges the
cached tokens of that user from the matching token store, so a user store cannot be
described without its token store; together they are a `Population`.

The cache has two levels: an e-mail address leads to an identifier, and the identifier to
a record.  The levels are evicted separately.
-/

namespace OwSec

open SecurityObjects Kit

/-- `ORM::Escape`. -/
def escape (s : String) : String := String.ofList (Sql.escape s.toList)

/-- `LoginRecordInfo`: a row of the `Logins` (or `SubLogins`) table. -/
structure LoginRecordInfo where
  sessionId : String := ""
  userId : String := ""
  email : String := ""
  login : ℕ := 0
  logout : ℕ := 0
  deriving DecidableEq, Repr

/-- The users, or the subscribers, with their tokens and their audit trail. -/
structure Population where
  /-- The rows of `Users` (or `Subscribers`), by `id`. -/
  users : Table String UserInfo UserInfo.id := .empty
  /-- `CacheById_`. -/
  cacheById : Cache String UserInfo := ∅
  /-- `CacheByEMail_`. -/
  cacheByEMail : Cache String String := ∅
  /-- `UserTokenDB` (or `SubTokenDB`). -/
  tokens : TokenStore := {}
  /-- The rows of `Logins` (or `SubLogins`), by `session`. -/
  logins : Table String LoginRecordInfo LoginRecordInfo.sessionId := .empty

instance : Inhabited Population := ⟨{}⟩

namespace Population

variable (svc : Service)

/-! ## `UserCache` -/

/-- `UserCache::UpdateCache`: both levels are filled, and the user's cached tokens are
dropped and announced. -/
def updateCache (p : Population) (r : UserInfo) : Population :=
  { p with
    cacheById := p.cacheById.insert r.id r
    cacheByEMail := p.cacheByEMail.insert r.email r.id
    tokens := p.tokens.cacheDeleteUserName svc r.id }

/-- `UserCache::GetFromCache("id", …)`. -/
def getFromCacheById (p : Population) (id : String) : Option UserInfo := p.cacheById.lookup id

/-- `UserCache::GetFromCache("email", …)`: both levels must have an entry. -/
def getFromCacheByEMail (p : Population) (email : String) : Option UserInfo :=
  match p.cacheByEMail.lookup email with
  | some id => p.cacheById.lookup id
  | none => none

/-- `UserCache::Delete("id", …)`: the e-mail entry can only be found through the record. -/
def cacheDelete (p : Population) (id : String) : Population :=
  { p with
    cacheByEMail :=
      match p.cacheById.lookup id with
      | some r => p.cacheByEMail.erase r.email
      | none => p.cacheByEMail
    cacheById := p.cacheById.erase id }

/-! ## `ORM::DB` at the user table -/

/-- `GetRecord("id", …)`. -/
def getRecordById (p : Population) (id : String) : Option UserInfo × Population :=
  match p.getFromCacheById id with
  | some r => (some r, p)
  | none =>
    match p.users.find? id with
    | some r => (some r, p.updateCache svc r)
    | none => (none, p)

/-- `GetRecord("email", …)`. -/
def getRecordByEMail (p : Population) (email : String) : Option UserInfo × Population :=
  match p.getFromCacheByEMail email with
  | some r => (some r, p)
  | none =>
    match p.users.select (·.email == email) with
    | some r => (some r, p.updateCache svc r)
    | none => (none, p)

/-- `CreateRecord`; `UserCache::Create` does nothing. -/
def createRecord (p : Population) (r : UserInfo) : Bool × Population :=
  match p.users.insert r with
  | some users => (true, { p with users })
  | none => (false, p)

/-- `UpdateRecord("id", …)`: the cache receives the new record even if no row had the
identifier. -/
def updateRecord (p : Population) (id : String) (r : UserInfo) : Bool × Population :=
  match p.users.update id r with
  | some users => (true, { p with users }.updateCache svc r)
  | none => (false, p)

/-- `DeleteRecord("id", …)`. -/
def deleteRecord (p : Population) (id : String) : Population :=
  { p with users := p.users.delete id }.cacheDelete id

/-! ## `BaseUserDB` -/

/-- `GetUserById`. -/
def getUserById := getRecordById svc

/-- `GetUserByEmail`. -/
def getUserByEmail := getRecordByEMail svc

/-- The record that `CreateUser` stores: a fresh identifier, the creation times, and the
hash of the password if there is one. -/
def newRecord (m : Moment) (newUser : UserInfo) : UserInfo :=
  let newUser :=
    { newUser with
      email := toLower newUser.email
      id := m.uuid
      modified := m.now
      creationDate := m.now }
  if newUser.currentPassword.isEmpty then newUser
  else
    let hash := computeNewPasswordHash svc m.salt newUser.email newUser.currentPassword
    { newUser with
      currentPassword := hash
      lastPasswords := [hash]
      lastPasswordChange := m.now
      validated := true }

/-- `CreateUser`, with `PasswordHashedAlready` false: `some` is the record that was stored. -/
def createUser (m : Moment) (p : Population) (newUser : UserInfo) :
    Option UserInfo × Population :=
  match p.getRecordByEMail svc (toLower newUser.email) with
  | (some _, p) => (none, p)
  | (none, p) =>
    match p.createRecord (newRecord svc m newUser) with
    | (true, p) => (some (newRecord svc m newUser), p)
    | (false, p) => (none, p)

/-- `UpdateUserInfo`. -/
def updateUserInfo := updateRecord svc

/-- `DeleteUser`. -/
def deleteUser (p : Population) (id : String) : Population := p.deleteRecord id

/-- `SetLastLogin`: the table alone is written, the cached record keeps the old value. -/
def setLastLogin (now : ℕ) (p : Population) (id : String) : Population :=
  { p with
    users := p.users.modifyWhere (·.id == id) ({ · with lastLogin := now }) fun _ ↦ rfl }

/-- `SetAvatar`: the avatar field is `0` or the time of the upload. -/
def setAvatar (now : ℕ) (p : Population) (id value : String) : Bool × Population :=
  match p.getRecordById svc id with
  | (some user, p) =>
    p.updateRecord svc id { user with avatar := if value.isEmpty then "0" else toString now }
  | (none, p) => (false, p)

/-- `AuthService::DeleteUserFromCache` and `DeleteSubUserFromCache`. -/
def deleteUserFromCache (p : Population) (id : String) : Population :=
  { p with tokens := p.tokens.cacheDeleteUserName svc id }

/-- The columns that conditions on the user table name. -/
def userColumns : Sql.Schema UserInfo :=
  [("name".toList, UserInfo.name), ("email".toList, UserInfo.email),
    ("createdby".toList, UserInfo.createdBy), ("owner".toList, UserInfo.owner)]

/-- `GetUsers`: whether any row was extracted, and the rows.  The cache plays no part. -/
def getUsers (p : Population) (offset howMany : ℕ) (whereClause : String) : Bool × List UserInfo :=
  match Sql.select svc.dialect userColumns whereClause.toList offset howMany p.users.rows with
  | some users => (!users.isEmpty, users)
  | none => (false, [])

/-- `Count`: an error of the engine counts as no row. -/
def count (p : Population) (whereClause : String) : ℕ :=
  if whereClause.isEmpty then p.users.rows.length
  else
    match Sql.condition svc.dialect userColumns whereClause.toList with
    | some condition => (p.users.rows.filter condition).length
    | none => 0

/-! ## `LoginDB` -/

/-- `LoginDB::AddLogin`. -/
def addLogin (now : ℕ) (p : Population) (userId email token : String) : Population :=
  let r : LoginRecordInfo :=
    { sessionId := svc.computeHash token, userId := userId, email := email, login := now }
  match p.logins.insert r with
  | some logins => { p with logins }
  | none => p

/-- `LoginDB::AddLogout`. -/
def addLogout (now : ℕ) (p : Population) (token : String) : Population :=
  let session := svc.computeHash token
  match p.logins.find? session with
  | none => p
  | some r =>
    match p.logins.update session { r with logout := now } with
    | some logins => { p with logins }
    | none => p

/-- The audit trail does not touch the tokens. -/
@[simp] theorem addLogout_tokens (now : ℕ) (p : Population) (token : String) :
    (p.addLogout svc now token).tokens = p.tokens := by
  unfold addLogout
  simp only
  split
  · rfl
  · split <;> rfl

end Population

end OwSec
