import OwSec.AuthService
import OwSec.Kit.Mapped

/-!
# Stores with other password hashes

A `Recoding` rewrites the two password columns of a record.  Applied to every row and to every
cached record it gives a store that answers every question in the same way, with the records
rewritten: no key, no condition and no decision of the stores looks at these columns.

Two stores that differ in password hashes alone become the same store when the hashes are blanked,
and each operation takes two such stores to two such stores.
-/

namespace OwSec

open SecurityObjects Kit

/-- A way to rewrite the password columns. -/
structure Recoding where
  currentPassword : String → String
  lastPasswords : List String → List String

namespace Recoding

variable (k : Recoding)

/-- A record with its password columns rewritten. -/
def record (u : UserInfo) : UserInfo :=
  { u with
    currentPassword := k.currentPassword u.currentPassword
    lastPasswords := k.lastPasswords u.lastPasswords }

theorem record_id (u : UserInfo) : (k.record u).id = u.id := rfl

/-- The user of a token or of a key, likewise. -/
def info (ui : UserInfoAndPolicy) : UserInfoAndPolicy :=
  { ui with userinfo := k.record ui.userinfo }

/-- What a check reports, likewise. -/
def check (r : CheckResult) : CheckResult := { r with uinfo := r.uinfo.map k.info }

/-- Forget the hashes. -/
def blank : Recoding where
  currentPassword _ := ""
  lastPasswords _ := []

/-- Make every current hash another one. -/
def marked : Recoding where
  currentPassword hash := hash ++ "!"
  lastPasswords hashes := hashes

theorem blank_record_record (u : UserInfo) : blank.record (k.record u) = blank.record u := rfl

/-- No record is marked already. -/
theorem marked_record_ne (u : UserInfo) : marked.record u ≠ u := by
  intro h
  have hlength := congrArg String.length (congrArg UserInfo.currentPassword h)
  simp [marked, record] at hlength

/-- The columns that conditions name are not password columns. -/
theorem ignores : Population.userColumns.Ignores k.record := by
  intro c hc u
  simp only [Population.userColumns, List.mem_cons, List.not_mem_nil, or_false] at hc
  rcases hc with rfl | rfl | rfl | rfl <;> rfl

end Recoding

/-! ## A population -/

namespace Population

variable (svc : Service) (k : Recoding) (p : Population)

/-- Rewrite the rows and the cached records. -/
def recode : Population :=
  { p with
    users := p.users.mapRows k.record k.record_id
    cacheById := p.cacheById.mapValues k.record }

theorem updateCache_recode (u : UserInfo) :
    (p.recode k).updateCache svc (k.record u) = (p.updateCache svc u).recode k := by
  unfold updateCache recode
  simp only [← Cache.insert_mapValues]
  rfl

theorem getFromCacheById_recode (id : String) :
    (p.recode k).getFromCacheById id = (p.getFromCacheById id).map k.record :=
  p.cacheById.lookup_mapValues k.record id

theorem getFromCacheByEMail_recode (email : String) :
    (p.recode k).getFromCacheByEMail email = (p.getFromCacheByEMail email).map k.record := by
  unfold getFromCacheByEMail
  rw [show (p.recode k).cacheByEMail = p.cacheByEMail from rfl]
  rcases p.cacheByEMail.lookup email with _ | id
  · rfl
  · exact p.cacheById.lookup_mapValues k.record id

theorem getRecordById_recode (id : String) :
    (p.recode k).getRecordById svc id =
      ((p.getRecordById svc id).1.map k.record, (p.getRecordById svc id).2.recode k) := by
  have hcache := p.getFromCacheById_recode k id
  have hrow : (p.recode k).users.find? id = (p.users.find? id).map k.record :=
    p.users.find?_mapRows k.record_id id
  unfold getRecordById
  rw [hcache, hrow]
  rcases p.getFromCacheById id with _ | u
  · rcases p.users.find? id with _ | u
    · rfl
    · simp only [Option.map_none, Option.map_some, updateCache_recode]
  · rfl

theorem getRecordByEMail_recode (email : String) :
    (p.recode k).getRecordByEMail svc email =
      ((p.getRecordByEMail svc email).1.map k.record, (p.getRecordByEMail svc email).2.recode k) := by
  have hcache := p.getFromCacheByEMail_recode k email
  have hrow : (p.recode k).users.select (·.email == email) =
      (p.users.select (·.email == email)).map k.record :=
    p.users.select_mapRows k.record_id fun _ ↦ rfl
  unfold getRecordByEMail
  rw [hcache, hrow]
  rcases p.getFromCacheByEMail email with _ | u
  · rcases p.users.select (·.email == email) with _ | u
    · rfl
    · simp only [Option.map_none, Option.map_some, updateCache_recode]
  · rfl

theorem createRecord_recode (u : UserInfo) :
    (p.recode k).createRecord (k.record u) =
      ((p.createRecord u).1, (p.createRecord u).2.recode k) := by
  have hinsert : (p.recode k).users.insert (k.record u) =
      (p.users.insert u).map fun t ↦ t.mapRows k.record k.record_id := p.users.insert_mapRows k.record_id u
  unfold createRecord
  rw [hinsert]
  rcases p.users.insert u with _ | users <;> rfl

theorem updateRecord_recode (id : String) (u : UserInfo) :
    (p.recode k).updateRecord svc id (k.record u) =
      ((p.updateRecord svc id u).1, (p.updateRecord svc id u).2.recode k) := by
  have hupdate : (p.recode k).users.update id (k.record u) =
      (p.users.update id u).map fun t ↦ t.mapRows k.record k.record_id :=
    p.users.update_mapRows k.record_id id u
  unfold updateRecord
  rw [hupdate]
  rcases p.users.update id u with _ | users
  · rfl
  · exact congrArg (Prod.mk true) (updateCache_recode svc k { p with users } u)

theorem deleteRecord_recode (id : String) :
    (p.recode k).deleteRecord id = (p.deleteRecord id).recode k := by
  have hdelete : (p.recode k).users.delete id = (p.users.delete id).mapRows k.record k.record_id :=
    p.users.delete_mapRows k.record_id id
  have herase : (p.recode k).cacheById.erase id =
      Cache.mapValues (p.cacheById.erase id) k.record := p.cacheById.erase_mapValues k.record id
  have hlookup : (p.recode k).cacheById.lookup id = (p.cacheById.lookup id).map k.record :=
    p.cacheById.lookup_mapValues k.record id
  unfold deleteRecord cacheDelete
  simp only [hdelete, herase, hlookup]
  unfold recode
  rcases p.cacheById.lookup id with _ | u <;> rfl

theorem setAvatar_recode (now : ℕ) (id value : String) :
    (p.recode k).setAvatar svc now id value =
      ((p.setAvatar svc now id value).1, (p.setAvatar svc now id value).2.recode k) := by
  unfold setAvatar
  rw [getRecordById_recode]
  rcases p.getRecordById svc id with ⟨_ | u, q⟩
  · rfl
  · exact updateRecord_recode svc k q id
      { u with avatar := if value.isEmpty then "0" else toString now }

theorem getUsers_recode (offset howMany : ℕ) (whereClause : String) :
    (p.recode k).getUsers svc offset howMany whereClause =
      ((p.getUsers svc offset howMany whereClause).1,
        (p.getUsers svc offset howMany whereClause).2.map k.record) := by
  have hselect := k.ignores.select_map svc.dialect whereClause.toList offset howMany p.users.rows
  unfold getUsers
  rw [show (p.recode k).users.rows = p.users.rows.map k.record from rfl, hselect]
  rcases Sql.select svc.dialect userColumns whereClause.toList offset howMany p.users.rows with
    _ | users
  · rfl
  · simp

theorem count_recode (whereClause : String) :
    (p.recode k).count svc whereClause = p.count svc whereClause := by
  unfold count
  rw [show (p.recode k).users.rows = p.users.rows.map k.record from rfl]
  split
  · exact List.length_map _
  · split
    · rename_i condition hcondition
      have hignores := k.ignores.condition svc.dialect hcondition
      rw [Sql.filter_map_of_ignores hignores, List.length_map]
    · rfl

theorem checkToken_recode (now : ℕ) (token : String) :
    (p.recode k).checkToken svc now token =
      (k.check (p.checkToken svc now token).1, (p.checkToken svc now token).2.recode k) := by
  unfold checkToken
  rw [show (p.recode k).tokens = p.tokens from rfl]
  rcases p.tokens.getRecord token with ⟨_ | t, tokens⟩
  · rfl
  · simp only
    split
    · rfl
    · have hlookup := getRecordById_recode svc k { p with tokens } t.userName
      unfold getUserById
      rw [show ({ p.recode k with tokens } : Population) =
        ({ p with tokens } : Population).recode k from rfl, hlookup]
      rcases ({ p with tokens } : Population).getRecordById svc t.userName with ⟨_ | u, q⟩ <;> rfl

theorem refreshTokenFor_recode (m : Moment) (callToken refreshToken : String) :
    (p.recode k).refreshTokenFor svc m callToken refreshToken =
      ((p.refreshTokenFor svc m callToken refreshToken).1,
        (p.refreshTokenFor svc m callToken refreshToken).2.recode k) := by
  unfold refreshTokenFor
  rw [show (p.recode k).tokens = p.tokens from rfl]
  split
  · rfl
  · rcases p.tokens.getRecord callToken with ⟨_ | t, tokens⟩
    · rfl
    · simp only
      split <;> rfl

theorem logoutOf_recode (now : ℕ) (token : String) :
    (p.recode k).logoutOf svc now token = (p.logoutOf svc now token).recode k := by
  unfold logoutOf addLogout
  simp only
  rw [show (p.recode k).logins = p.logins from rfl]
  rcases p.logins.find? (svc.computeHash token) with _ | r
  · rfl
  · simp only
    rcases p.logins.update (svc.computeHash token) { r with logout := now } with _ | logins <;> rfl

end Population

/-! ## The storage service -/

namespace Storage

variable (svc : Service) (k : Recoding) (s : Storage)

/-- Rewrite both populations. -/
def recode : Storage := { s with user := s.user.recode k, sub := s.sub.recode k }

theorem population_recode (isSub : Bool) :
    (s.recode k).population isSub = (s.population isSub).recode k := by
  cases isSub <;> rfl

theorem setPopulation_recode (isSub : Bool) (p : Population) :
    (s.recode k).setPopulation isSub (p.recode k) = (s.setPopulation isSub p).recode k := by
  cases isSub <;> rfl

theorem onPopulation_recode {α : Type} {f f' : Population → α × Population} {v : α → α}
    (isSub : Bool) (h : ∀ p, f' (p.recode k) = (v (f p).1, (f p).2.recode k)) :
    (s.recode k).onPopulation isSub f' =
      (v (s.onPopulation isSub f).1, (s.onPopulation isSub f).2.recode k) := by
  unfold onPopulation
  rw [population_recode, h]
  exact congrArg (Prod.mk _) (s.setPopulation_recode k isSub _)

theorem isValidToken_recode (now : ℕ) (token : String) (isSub : Bool) :
    ((s.recode k).onPopulation isSub fun p ↦ p.checkToken svc now token) =
      (k.check (s.onPopulation isSub fun p ↦ p.checkToken svc now token).1,
        (s.onPopulation isSub fun p ↦ p.checkToken svc now token).2.recode k) :=
  s.onPopulation_recode k isSub fun p ↦ p.checkToken_recode svc k now token

theorem authServiceIsAuthorized_recode (now : ℕ) (bearer : Option String) (isSub : Bool) :
    (s.recode k).authServiceIsAuthorized svc now bearer isSub =
      (k.check (s.authServiceIsAuthorized svc now bearer isSub).1,
        (s.authServiceIsAuthorized svc now bearer isSub).2.recode k) := by
  rcases bearer with _ | token
  · cases isSub <;> rfl
  · cases isSub
    · unfold authServiceIsAuthorized isAuthorized
      simp only
      split
      · rfl
      · exact s.isValidToken_recode svc k now token false
    · unfold authServiceIsAuthorized isSubAuthorized
      simp only
      split
      · rfl
      · exact s.isValidToken_recode svc k now token true

theorem updateApiKey_recode (id : String) (r : ApiKeyEntry) :
    (s.recode k).updateApiKey id r = (s.updateApiKey id r).recode k := by
  unfold updateApiKey
  rw [show (s.recode k).apiKeys = s.apiKeys from rfl]
  split <;> rfl

theorem isValidApiKey_recode (now : ℕ) (apiKey : String) :
    (s.recode k).isValidApiKey svc now apiKey =
      (k.check (s.isValidApiKey svc now apiKey).1,
        (s.isValidApiKey svc now apiKey).2.recode k) := by
  unfold isValidApiKey
  rw [show (s.recode k).getApiKey apiKey = s.getApiKey apiKey from rfl]
  rcases s.getApiKey apiKey with _ | entry
  · rfl
  · simp only
    split
    · rfl
    · have hlookup : ((s.recode k).onPopulation false fun p ↦ p.getRecordById svc entry.userUuid) =
          ((s.onPopulation false fun p ↦ p.getRecordById svc entry.userUuid).1.map k.record,
            (s.onPopulation false fun p ↦ p.getRecordById svc entry.userUuid).2.recode k) :=
        s.onPopulation_recode k false fun p ↦ p.getRecordById_recode svc k entry.userUuid
      unfold Population.getUserById
      rw [hlookup]
      rcases s.onPopulation false fun p ↦ p.getRecordById svc entry.userUuid with ⟨_ | user, s'⟩
      · rfl
      · simp only [Option.map_some]
        rw [show (k.record user).suspended = user.suspended from rfl]
        split
        · rfl
        · exact congrArg (Prod.mk _) (s'.updateApiKey_recode k entry.id { entry with lastUse := now })

end Storage

/-! ## The same but for the hashes -/

/-- The record with other password columns. -/
def SecurityObjects.UserInfo.rehash (u : UserInfo) (hash : String) (hashes : List String) :
    UserInfo :=
  { u with currentPassword := hash, lastPasswords := hashes }

/-- The records differ in the password columns at most. -/
def SecurityObjects.UserInfo.SameButPasswords (u v : UserInfo) : Prop :=
  Recoding.blank.record u = Recoding.blank.record v

/-- The populations differ in the password columns of records at most. -/
def Population.SameButPasswords (p q : Population) : Prop :=
  p.recode .blank = q.recode .blank

/-- The stores differ in the password columns of users and subscribers at most. -/
def Storage.SameButPasswords (s t : Storage) : Prop := s.recode .blank = t.recode .blank

namespace SecurityObjects.UserInfo.SameButPasswords

variable {u v : UserInfo}

theorem refl (u : UserInfo) : u.SameButPasswords u := rfl

theorem exists_eq (h : u.SameButPasswords v) : ∃ hash hashes, v = u.rehash hash hashes := by
  have hblank : Recoding.blank.record u = Recoding.blank.record v := h
  exact ⟨v.currentPassword, v.lastPasswords,
    (congrArg (fun w : UserInfo ↦ w.rehash v.currentPassword v.lastPasswords) hblank).symm⟩

theorem rehash (u : UserInfo) (hash : String) (hashes : List String) :
    u.SameButPasswords (u.rehash hash hashes) := rfl

/-- What a caller is shown of the two records is the same. -/
theorem sanitize_eq (h : u.SameButPasswords v) : sanitize u = sanitize v := by
  show sanitize (Recoding.blank.record u) = sanitize (Recoding.blank.record v)
  exact congrArg sanitize h

/-- The same record, or none, is found. -/
theorem option {o o' : Option UserInfo}
    (h : o.map Recoding.blank.record = o'.map Recoding.blank.record) :
    Option.Rel SameButPasswords o o' := by
  rcases o with _ | u <;> rcases o' with _ | v
  · exact .none
  · cases h
  · cases h
  · exact .some (Option.some.inj h)

/-- The record that is found, or the default one. -/
theorem getD {o o' : Option UserInfo} (h : Option.Rel SameButPasswords o o') :
    (o.getD {}).SameButPasswords (o'.getD {}) := by
  cases h with
  | some huv => exact huv
  | none => exact refl _

end SecurityObjects.UserInfo.SameButPasswords

namespace Population.SameButPasswords

variable {svc : Service} {p q : Population}

/-- An operation that respects blanking takes such populations to such populations. -/
theorem of_recode {α : Type} (v : α → α) {f : Population → α × Population}
    (hf : ∀ p, f (p.recode .blank) = (v (f p).1, (f p).2.recode .blank))
    (h : p.SameButPasswords q) : v (f p).1 = v (f q).1 ∧ (f p).2.SameButPasswords (f q).2 :=
  Prod.mk.inj ((hf p).symm.trans ((congrArg f h).trans (hf q)))

theorem getUserById (h : p.SameButPasswords q) (id : String) :
    Option.Rel UserInfo.SameButPasswords (p.getUserById svc id).1 (q.getUserById svc id).1 ∧
      (p.getUserById svc id).2.SameButPasswords (q.getUserById svc id).2 := by
  obtain ⟨hvalue, hstate⟩ := h.of_recode (Option.map Recoding.blank.record)
    (f := fun p ↦ p.getRecordById svc id) fun p ↦ p.getRecordById_recode svc .blank id
  exact ⟨UserInfo.SameButPasswords.option hvalue, hstate⟩

theorem getUserByEmail (h : p.SameButPasswords q) (email : String) :
    Option.Rel UserInfo.SameButPasswords (p.getUserByEmail svc email).1
        (q.getUserByEmail svc email).1 ∧
      (p.getUserByEmail svc email).2.SameButPasswords (q.getUserByEmail svc email).2 := by
  obtain ⟨hvalue, hstate⟩ := h.of_recode (Option.map Recoding.blank.record)
    (f := fun p ↦ p.getRecordByEMail svc email) fun p ↦ p.getRecordByEMail_recode svc .blank email
  exact ⟨UserInfo.SameButPasswords.option hvalue, hstate⟩

theorem updateUserInfo (h : p.SameButPasswords q) (id : String) {u v : UserInfo}
    (huv : u.SameButPasswords v) :
    (p.updateUserInfo svc id u).1 = (q.updateUserInfo svc id v).1 ∧
      (p.updateUserInfo svc id u).2.SameButPasswords (q.updateUserInfo svc id v).2 := by
  have hp := p.updateRecord_recode svc .blank id u
  have hq := q.updateRecord_recode svc .blank id v
  rw [← huv, ← h, hp] at hq
  exact Prod.mk.inj hq

theorem createRecord (h : p.SameButPasswords q) {u v : UserInfo} (huv : u.SameButPasswords v) :
    (p.createRecord u).1 = (q.createRecord v).1 ∧
      (p.createRecord u).2.SameButPasswords (q.createRecord v).2 := by
  have hp := p.createRecord_recode .blank u
  have hq := q.createRecord_recode .blank v
  rw [← huv, ← h, hp] at hq
  exact Prod.mk.inj hq

theorem createUser (h : p.SameButPasswords q) (m : Moment) (u : UserInfo) :
    (p.createUser svc m u).1 = (q.createUser svc m u).1 ∧
      (p.createUser svc m u).2.SameButPasswords (q.createUser svc m u).2 := by
  obtain ⟨hvalue, hstate⟩ : Option.Rel UserInfo.SameButPasswords
        (p.getRecordByEMail svc (toLower u.email)).1 (q.getRecordByEMail svc (toLower u.email)).1 ∧
      (p.getRecordByEMail svc (toLower u.email)).2.SameButPasswords
        (q.getRecordByEMail svc (toLower u.email)).2 := h.getUserByEmail (toLower u.email)
  unfold Population.createUser
  generalize p.getRecordByEMail svc (toLower u.email) = x at hvalue hstate ⊢
  generalize q.getRecordByEMail svc (toLower u.email) = y at hvalue hstate ⊢
  obtain ⟨o, p'⟩ := x
  obtain ⟨o', q'⟩ := y
  cases hvalue with
  | some _ => exact ⟨rfl, hstate⟩
  | none =>
    obtain ⟨hcreated, hstate⟩ := Population.SameButPasswords.createRecord hstate
      (UserInfo.SameButPasswords.refl (newRecord svc m u))
    simp only
    generalize p'.createRecord (newRecord svc m u) = x at hcreated hstate ⊢
    generalize q'.createRecord (newRecord svc m u) = y at hcreated hstate ⊢
    obtain ⟨created, p''⟩ := x
    obtain ⟨created', q''⟩ := y
    obtain rfl : created = created' := hcreated
    cases created <;> exact ⟨rfl, hstate⟩

theorem deleteUser (h : p.SameButPasswords q) (id : String) :
    (p.deleteUser id).SameButPasswords (q.deleteUser id) := by
  have hp := p.deleteRecord_recode .blank id
  have hq := q.deleteRecord_recode .blank id
  exact hp.symm.trans ((congrArg (deleteRecord · id) h).trans hq)

/-- The tokens are the same, and can be exchanged for the same. -/
theorem setTokens (h : p.SameButPasswords q) (f : TokenStore → TokenStore) :
    ({ p with tokens := f p.tokens } : Population).SameButPasswords
      { q with tokens := f q.tokens } :=
  congrArg (fun r : Population ↦ ({ r with tokens := f r.tokens } : Population)) h

theorem deleteUserFromCache (h : p.SameButPasswords q) (id : String) :
    (p.deleteUserFromCache svc id).SameButPasswords (q.deleteUserFromCache svc id) :=
  h.setTokens fun tokens ↦ tokens.cacheDeleteUserName svc id

theorem revokeAllTokens (h : p.SameButPasswords q) (id : String) :
    ({ p with tokens := p.tokens.revokeAllTokens svc id } : Population).SameButPasswords
      { q with tokens := q.tokens.revokeAllTokens svc id } :=
  h.setTokens fun tokens ↦ tokens.revokeAllTokens svc id

theorem setAvatar (h : p.SameButPasswords q) (now : ℕ) (id value : String) :
    (p.setAvatar svc now id value).2.SameButPasswords (q.setAvatar svc now id value).2 :=
  (h.of_recode (fun updated ↦ updated) (f := fun p ↦ p.setAvatar svc now id value) fun p ↦
    p.setAvatar_recode svc .blank now id value).2

theorem logoutOf (h : p.SameButPasswords q) (now : ℕ) (token : String) :
    (p.logoutOf svc now token).SameButPasswords (q.logoutOf svc now token) := by
  have hp := p.logoutOf_recode svc .blank now token
  have hq := q.logoutOf_recode svc .blank now token
  rw [← h, hp] at hq
  exact hq

theorem count (h : p.SameButPasswords q) (whereClause : String) :
    p.count svc whereClause = q.count svc whereClause := by
  have hp := p.count_recode svc .blank whereClause
  have hq := q.count_recode svc .blank whereClause
  rw [← h, hp] at hq
  exact hq

end Population.SameButPasswords

namespace Storage.SameButPasswords

variable {svc : Service} {s t : Storage}

/-- Rewriting hashes gives such a store. -/
theorem recode (s : Storage) (k : Recoding) : s.SameButPasswords (s.recode k) := by
  have hp (p : Population) : (p.recode k).recode .blank = p.recode .blank := by
    have hrows := p.users.mapRows_mapRows_eq k.record_id Recoding.blank.record_id
      k.blank_record_record
    have hcache := Cache.mapValues_mapValues_eq p.cacheById k.record k.blank_record_record
    exact congrArg₂ (fun users cacheById ↦ ({ p with users, cacheById } : Population)) hrows hcache
  exact (congrArg₂ (fun user sub ↦ ({ s with user, sub } : Storage)) (hp s.user) (hp s.sub)).symm

theorem population (h : s.SameButPasswords t) (isSub : Bool) :
    (s.population isSub).SameButPasswords (t.population isSub) := by
  cases isSub
  · exact congrArg Storage.user h
  · exact congrArg Storage.sub h

/-- Only the populations differ. -/
theorem eq (h : s.SameButPasswords t) : t = { s with user := t.user, sub := t.sub } := by
  have hblank : s.recode .blank = t.recode .blank := h
  exact (congrArg (fun r : Storage ↦ ({ r with user := t.user, sub := t.sub } : Storage)) hblank).symm

/-- Two such stores, taken apart. -/
theorem exists_eq (h : s.SameButPasswords t) :
    ∃ user sub, t = { s with user, sub } ∧ s.user.SameButPasswords user ∧
      s.sub.SameButPasswords sub :=
  ⟨t.user, t.sub, h.eq, h.population false, h.population true⟩

theorem of_parts {user sub : Population} (huser : s.user.SameButPasswords user)
    (hsub : s.sub.SameButPasswords sub) : s.SameButPasswords { s with user, sub } := by
  show ({ s with user := s.user.recode .blank, sub := s.sub.recode .blank } : Storage) =
    { s with user := user.recode .blank, sub := sub.recode .blank }
  rw [show s.user.recode .blank = user.recode .blank from huser,
    show s.sub.recode .blank = sub.recode .blank from hsub]

theorem setPopulation (h : s.SameButPasswords t) (isSub : Bool) {p q : Population}
    (hpq : p.SameButPasswords q) :
    (s.setPopulation isSub p).SameButPasswords (t.setPopulation isSub q) := by
  have hs := s.setPopulation_recode .blank isSub p
  have ht := t.setPopulation_recode .blank isSub q
  rw [← hpq, ← h] at ht
  exact hs.symm.trans ht

/-- What respects the difference of populations respects that of stores. -/
theorem onPopulation {α : Type} {V : α → α → Prop} {f g : Population → α × Population}
    (h : s.SameButPasswords t) (isSub : Bool)
    (hfg : ∀ p q : Population, p.SameButPasswords q →
      V (f p).1 (g q).1 ∧ (f p).2.SameButPasswords (g q).2) :
    V (s.onPopulation isSub f).1 (t.onPopulation isSub g).1 ∧
      (s.onPopulation isSub f).2.SameButPasswords (t.onPopulation isSub g).2 := by
  obtain ⟨hvalue, hstate⟩ := hfg _ _ (h.population isSub)
  exact ⟨hvalue, h.setPopulation isSub hstate⟩

/-- An operation that respects blanking takes such stores to such stores. -/
theorem of_recode {α : Type} (v : α → α) {f : Storage → α × Storage}
    (hf : ∀ s, f (s.recode .blank) = (v (f s).1, (f s).2.recode .blank))
    (h : s.SameButPasswords t) : v (f s).1 = v (f t).1 ∧ (f s).2.SameButPasswords (f t).2 :=
  Prod.mk.inj ((hf s).symm.trans ((congrArg f h).trans (hf t)))

end Storage.SameButPasswords

end OwSec
