import OwSec.Auth.AuditTrail
import OwSec.Auth.PasswordVerification

/-!
# A login from end to end

`Authorize` and `AuthorizeSub` look the address up, make their checks one after the other and, if
all of them pass, store the new password if there is one, note the time and file a token.  The
record that they check and write back comes from the cache, so it can be behind its row in the
time of the last login, which is written past the cache.

The law says which check decides, that a refused login changes no table, and what a successful
one leaves behind.
-/

namespace OwSec

open SecurityObjects Kit

namespace Population

/-! ## Addresses in the cache -/

/-- A cached address leads to no row, or to a row with that address, which `SetPassword` may have
put into lower case since. -/
def Addressed (p : Population) : Prop :=
  ∀ e id u, p.cacheByEMail.lookup e = some id → p.users.find? id = some u →
    u.email = e ∨ u.email = toLower e

/-- The row that a lookup by address finds, if there is one. -/
structure Finds (p : Population) (e : String) (found : Option UserInfo) : Prop where
  none : found = none → ∀ u ∈ p.users.rows, u.email ≠ e
  some : ∀ c, found = some c → ∃ u, p.users.find? u.id = some u ∧ u.email = e ∧ SameButLogin c u

variable (svc : Service) {p : Population}

/-- A lookup by an address in lower case finds a row with that address, up to the last login. -/
theorem finds_getUserByEmail (hc : p.Coherent) (ha : p.Addressed) {e : String}
    (he : toLower e = e) : p.Finds e (p.getUserByEmail svc e).1 := by
  constructor
  · intro hnone u hu hemail
    obtain ⟨c, hfound⟩ := getUserByEmail_isSome svc (p.users.mem_rows_iff.mp hu)
    rw [hemail, hnone] at hfound
    cases hfound
  · intro c hfound
    obtain ⟨u, hrow, hsame⟩ := hc.of_getRecordByEMail svc hfound
    refine ⟨u, hsame.id_eq ▸ hrow, ?_, hsame⟩
    have hemail : c.email = u.email := hsame.eq UserInfo.email fun _ _ ↦ rfl
    unfold getUserByEmail getRecordByEMail getFromCacheByEMail at hfound
    split at hfound
    · rename_i r hcached
      obtain rfl : r = c := Option.some.inj hfound
      split at hcached
      · rename_i id haddress
        obtain ⟨row, hrow', hsame'⟩ := hc id r hcached
        have hid : r.id = id := hsame'.id_eq.trans (Table.key_of_find? hrow')
        rw [← hid] at haddress
        rcases ha e r.id u haddress hrow with h | h
        · exact h
        · exact h.trans he
      · cases hcached
    · split at hfound
      · rename_i r hselected
        obtain rfl : r = c := Option.some.inj hfound
        have haddress := (Table.select_eq_some hselected).2
        rw [← hemail]
        exact beq_iff_eq.mp haddress
      · cases hfound

end Population

/-! ## Addresses over runs

Records keep their addresses, up to the case: nothing that a run does to the store makes a cached
address lead astray, unless a record is updated with another address or created under an
identifier that an address already leads to. -/

namespace Population

variable {svc : Service} {p q : Population}

theorem Addressed.of_empty (h : p.cacheByEMail = ∅) : p.Addressed := by
  intro e id u haddress _
  rw [h] at haddress
  simp at haddress

/-- Dropping cached addresses, and changes that keep the addresses of the rows. -/
theorem Addressed.mono (h : p.Addressed) (hcache : Cache.Evicts p.cacheByEMail q.cacheByEMail)
    (hrows : ∀ id u, q.users.find? id = some u →
      ∃ r, p.users.find? id = some r ∧ (u.email = r.email ∨ u.email = toLower r.email)) :
    q.Addressed := by
  intro e id u haddress hrow
  obtain ⟨r, hr, hemail⟩ := hrows id u hrow
  rcases h e id r (hcache e id haddress) hr with h | h
  · rw [← h]
    exact hemail
  · rw [h, toLower_toLower] at hemail
    exact .inr (or_self_iff.mp hemail)

/-- The rows and the cached addresses are the same. -/
theorem Addressed.congr (h : p.Addressed) (hrows : q.users = p.users)
    (hcache : q.cacheByEMail = p.cacheByEMail) : q.Addressed :=
  h.mono (hcache ▸ Cache.Evicts.refl _) fun _ u hu ↦ ⟨u, hrows ▸ hu, .inl rfl⟩

/-- Caching a row. -/
theorem Addressed.updateCache (h : p.Addressed) {r : UserInfo} (hr : p.users.find? r.id = some r) :
    (p.updateCache svc r).Addressed := by
  intro e id u haddress hrow
  change (p.cacheByEMail.insert r.email r.id).lookup e = some id at haddress
  rw [Cache.lookup_insert_eq] at haddress
  split at haddress
  · rename_i he
    obtain rfl : r.id = id := Option.some.inj haddress
    obtain rfl : r = u := Option.some.inj (hr.symm.trans hrow)
    exact .inl he.symm
  · exact h e id u haddress hrow

theorem Addressed.getUserById (h : p.Addressed) (id : String) :
    (p.getUserById svc id).2.Addressed := by
  unfold Population.getUserById getRecordById
  split
  · exact h
  · split
    · rename_i r hr
      exact h.updateCache (Table.key_of_find? hr ▸ hr)
    · exact h

theorem Addressed.getUserByEmail (h : p.Addressed) (email : String) :
    (p.getUserByEmail svc email).2.Addressed := by
  unfold Population.getUserByEmail getRecordByEMail
  split
  · exact h
  · split
    · rename_i r hr
      exact h.updateCache (Table.select_eq_some hr).1
    · exact h

/-- An update keeps the address, or puts it into lower case. -/
theorem Addressed.updateUserInfo (h : p.Addressed) {u r : UserInfo}
    (hr : p.users.find? u.id = some r) (hemail : u.email = r.email ∨ u.email = toLower r.email) :
    (p.updateUserInfo svc u.id u).2.Addressed := by
  obtain ⟨users, hup, heq⟩ := updateUserInfo_eq svc (p := p) u
  have hfind := find?_updateUserInfo svc (p := p) u
  rw [heq] at hfind ⊢
  have hupdated : ({ p with users } : Population).Addressed := by
    refine h.mono (Cache.Evicts.refl _) fun id v hv ↦ ?_
    have hv' := (hfind id).symm.trans hv
    split at hv'
    · rename_i hid
      rw [hr, Option.map_some, Option.some.injEq] at hv'
      subst hid hv'
      exact ⟨r, hr, hemail⟩
    · exact ⟨v, hv', .inl rfl⟩
  refine hupdated.updateCache ?_
  have hu := hfind u.id
  rw [if_pos rfl, hr] at hu
  exact hu

theorem Addressed.setLastLogin (h : p.Addressed) (now : ℕ) (id : String) :
    (p.setLastLogin now id).Addressed := by
  refine h.mono (Cache.Evicts.refl _) fun k u hu ↦ ?_
  rw [find?_setLastLogin, Option.map_eq_some_iff] at hu
  obtain ⟨r, hr, rfl⟩ := hu
  refine ⟨r, hr, .inl ?_⟩
  split <;> rfl

theorem Addressed.completeAuthorize (h : p.Addressed) (m : Moment) (userName : String)
    (user : UserInfo) : (p.completeAuthorize svc m userName user).2.Addressed := by
  have htwice := (h.setLastLogin m.now user.id).setLastLogin m.now user.id
  unfold Population.completeAuthorize createTokenFor
  refine htwice.congr ?_ ?_
  · simp only [addLogin_users]
  · simp only [addLogin]
    split <;> rfl

/-- A login keeps the addresses. -/
theorem Addressed.authorizeWith (h : p.Addressed) (hc : p.Coherent) (rule : String → Bool)
    (m : Moment) (userName password newPassword : String) :
    (p.authorizeWith svc rule m userName password newPassword).2.Addressed := by
  have hget : (p.getUserByEmail svc (toLower userName)).2.Addressed := h.getUserByEmail _
  have husers := getUserByEmail_users svc (p := p) (toLower userName)
  have houtcome := authorizeWith_outcome svc rule m p userName password newPassword
  generalize p.authorizeWith svc rule m userName password newPassword = result at houtcome ⊢
  cases houtcome with
  | refused hreason => exact hget
  | completed hlookup =>
    rw [hlookup] at hget
    exact hget.completeAuthorize m _ _
  | changed hlookup hset hwritten =>
    obtain ⟨r, hr, hsame⟩ := hc.of_getRecordByEMail svc (congrArg Prod.fst hlookup)
    have hemail := hsame.eq UserInfo.email fun _ _ ↦ rfl
    rw [hlookup] at hget husers
    refine (hget.updateUserInfo (r := r) ?_ (.inr ?_)).completeAuthorize m _ _
    · rw [hwritten, setPassword_applied svc hset]
      exact husers ▸ hr
    · rw [hwritten, setPassword_applied svc hset, ← hemail]

/-- A lookup caches an address of a row at most. -/
theorem cacheByEMail_getRecordByEMail {email e id : String}
    (h : (p.getRecordByEMail svc email).2.cacheByEMail.lookup e = some id) :
    p.cacheByEMail.lookup e = some id ∨ ∃ r, p.users.find? id = some r := by
  unfold getRecordByEMail at h
  split at h
  · exact .inl h
  · split at h
    · rename_i r hr
      change (p.cacheByEMail.insert r.email r.id).lookup e = some id at h
      rw [Cache.lookup_insert_eq] at h
      split at h
      · obtain rfl := Option.some.inj h
        exact .inr ⟨r, (Table.select_eq_some hr).1⟩
      · exact .inl h
    · exact .inl h

theorem Addressed.createUser (h : p.Addressed) {m : Moment} {u : UserInfo}
    (hfresh : ∀ e, p.cacheByEMail.lookup e ≠ some m.uuid) :
    (p.createUser svc m u).2.Addressed := by
  have hlook : (p.getRecordByEMail svc (toLower u.email)).2.Addressed := h.getUserByEmail _
  rcases createUser_cases svc (p := p) m u with hc | ⟨users, hins, hc⟩
  · rw [hc]
    exact hlook
  · rw [hc]
    intro e id v haddress hrow
    change (p.getRecordByEMail svc (toLower u.email)).2.cacheByEMail.lookup e = some id at haddress
    rw [Table.find?_insert hins id] at hrow
    split at hrow
    · rename_i hnew
      have hfree := Table.find?_of_insert hins
      rw [← hnew] at hfree
      rcases cacheByEMail_getRecordByEMail haddress with hcached | ⟨r, hr⟩
      · rw [hnew, (newRecord_fields svc m u).1] at hcached
        exact absurd hcached (hfresh e)
      · rw [hfree] at hr
        cases hr
    · refine hlook e id v haddress ?_
      rw [getRecordByEMail_users]
      exact hrow

theorem Addressed.deleteUser (h : p.Addressed) (id : String) : (p.deleteUser id).Addressed := by
  refine h.mono ?_ fun k u hu ↦ ?_
  · show Cache.Evicts p.cacheByEMail (p.cacheDelete id).cacheByEMail
    unfold cacheDelete
    simp only
    split
    · exact Cache.Evicts.erase _ _
    · exact Cache.Evicts.refl _
  · rw [find?_deleteUser] at hu
    split at hu
    · cases hu
    · exact ⟨u, hu, .inl rfl⟩

theorem Addressed.setAvatar (h : p.Addressed) (hc : p.Coherent) (now : ℕ) (id value : String) :
    (p.setAvatar svc now id value).2.Addressed := by
  have hget : (p.getUserById svc id).2.Addressed := h.getUserById id
  have hfound (u : UserInfo) (hu : (p.getUserById svc id).1 = some u) := hc.of_getUserById svc hu
  have husers := getUserById_users svc (p := p) id
  unfold Population.setAvatar
  unfold Population.getUserById at hget hfound husers
  rcases hl : p.getRecordById svc id with ⟨_ | u, q⟩
  · simpa only [hl] using hget
  · simp only [hl] at hget hfound husers ⊢
    obtain ⟨r, hr, hur⟩ := hfound u rfl
    have hid : u.id = id := hur.id_eq.trans (Table.key_of_find? hr)
    have hemail : u.email = r.email := hur.eq UserInfo.email fun _ _ ↦ rfl
    subst hid
    exact hget.updateUserInfo (u := { u with avatar := if value.isEmpty then "0" else toString now })
      (husers ▸ hr) (.inl hemail)

theorem Addressed.checkToken (h : p.Addressed) (now : ℕ) (token : String) :
    (p.checkToken svc now token).2.Addressed := by
  unfold Population.checkToken
  rcases p.tokens.getRecord token with ⟨_ | t, tokens⟩
  · exact h
  · simp only
    split
    · exact h
    · have hget : (({ p with tokens } : Population).getUserById svc t.userName).2.Addressed :=
        Addressed.getUserById (p := { p with tokens }) h t.userName
      rcases hl : ({ p with tokens } : Population).getUserById svc t.userName with ⟨_ | u, q⟩
      · simpa only [hl] using hget
      · simpa only [hl] using hget

theorem Addressed.refreshTokenFor (h : p.Addressed) (m : Moment) (callToken refreshToken : String) :
    (p.refreshTokenFor svc m callToken refreshToken).2.Addressed := by
  unfold Population.refreshTokenFor
  split
  · exact h
  · rcases p.tokens.getRecord callToken with ⟨_ | t, tokens⟩
    · exact h
    · simp only
      split <;> exact h

theorem Addressed.logoutOf (h : p.Addressed) (now : ℕ) (token : String) :
    (p.logoutOf svc now token).Addressed := by
  unfold Population.logoutOf addLogout
  simp only
  split
  · exact h
  · split <;> exact h

/-- Nothing moves an address to another record. -/
def KeepsAddresses (p : Population) : PopulationOp → Prop
  | .createUser m _ => ∀ e, p.cacheByEMail.lookup e ≠ some m.uuid
  | .updateUserInfo user => ∀ r, p.users.find? user.id = some r →
    user.email = r.email ∨ user.email = toLower r.email
  | _ => True

/-- Every operation that does so keeps the cached addresses in order. -/
theorem Addressed.apply (h : p.Addressed) (hc : p.Coherent) (rule : String → Bool)
    {op : PopulationOp} (he : op.Enabled p) (hop : p.KeepsAddresses op) :
    (op.apply svc rule p).Addressed := by
  cases op with
  | login m userName password newPassword => exact h.authorizeWith hc rule m _ _ _
  | refresh m callToken refreshToken => exact h.refreshTokenFor m callToken refreshToken
  | logout now token => exact h.logoutOf now token
  | checkToken now token => exact h.checkToken now token
  | createUser m newUser => exact h.createUser hop
  | updateUserInfo user =>
    obtain ⟨r, hr⟩ := he
    exact h.updateUserInfo hr (hop r hr)
  | deleteUser id => exact h.deleteUser id
  | setAvatar now id value => exact h.setAvatar hc now id value
  | setLastLogin now id => exact h.setLastLogin now id
  | getUserById id => exact h.getUserById id
  | getUserByEmail email => exact h.getUserByEmail email
  | addToken | revokeToken | revokeAllTokens | cleanExpiredTokens | deleteUserFromCache => exact h

end Population

/-- The step moves no address to another record. -/
def Storage.KeepsAddresses (s : Storage) : Event → Prop
  | .on isSub op => (s.population isSub).KeepsAddresses op
  | _ => True

/-- Both populations have their addresses in order. -/
def Storage.Addressed (s : Storage) : Prop := ∀ isSub, (s.population isSub).Addressed

theorem Storage.Addressed.setPopulation {s : Storage} (h : s.Addressed) {isSub : Bool}
    {p : Population} (hp : p.Addressed) : (s.setPopulation isSub p).Addressed := by
  intro b
  by_cases hb : b = isSub
  · subst hb
    rw [population_setPopulation]
    exact hp
  · rw [population_setPopulation_ne s p hb]
    exact h b

theorem Storage.Addressed.isValidApiKey {svc : Service} {s : Storage} (h : s.Addressed) (now : ℕ)
    (apiKey : String) : (s.isValidApiKey svc now apiKey).2.Addressed := by
  unfold Storage.isValidApiKey onPopulation
  split
  · exact h
  · rename_i entry _
    split
    · exact h
    · have hget : ((s.population false).getUserById svc entry.userUuid).2.Addressed :=
        (h false).getUserById entry.userUuid
      rcases hl : (s.population false).getUserById svc entry.userUuid with ⟨_ | u, q⟩
      · simp only [hl] at hget ⊢
        exact h.setPopulation hget
      · simp only [hl] at hget ⊢
        split
        · exact h.setPopulation hget
        · intro b
          rw [updateApiKey_population]
          exact h.setPopulation hget b

/-- Over a run that moves no address to another record, the caches stay in order. -/
theorem Storage.caches_of_run {svc : Service} {s : Storage}
    (h : ((Storage.system svc).restrict Storage.KeepsAddresses).Reachable s) (isSub : Bool) :
    (s.population isSub).Coherent ∧ (s.population isSub).Addressed := by
  suffices hboth : s.Coherent ∧ s.Addressed from ⟨hboth.1 isSub, hboth.2 isSub⟩
  refine h.invariant (I := fun s ↦ s.Coherent ∧ s.Addressed)
    (fun s₀ hs ↦ ⟨fun b ↦ .of_empty (hs b).1, fun b ↦ .of_empty (hs b).2.1⟩) ?_
  rintro s event s' ⟨hc, ha⟩ ⟨hstep, hkeeps⟩
  refine ⟨hc.step svc hstep, ?_⟩
  cases hstep with
  | on isSub op he => exact ha.setPopulation ((ha isSub).apply (hc isSub) _ he hkeeps)
  | checkApiKey now apiKey => exact ha.isValidApiKey now apiKey
  | evict he =>
    intro b
    refine (ha b).mono (he b).byEMail fun id u hu ↦ ⟨u, ?_, .inl rfl⟩
    rw [← (he b).users]
    exact hu
  | elsewhere hu hs =>
    intro b
    cases b
    · rw [show s'.population false = s.population false from hu]
      exact ha false
    · rw [show s'.population true = s.population true from hs]
      exact ha true

/-! ## The law -/

section Law

variable (svc : Service) (rule : String → Bool)

/-- `SetPassword` refuses the password. -/
def refusesPassword (salt newPassword : String) (user : UserInfo) : Bool :=
  match setPassword svc salt newPassword user with
  | .refused => true
  | _ => false

/-- The checks of a login in their order, each with the reason for which it fails. -/
def loginChecks (salt password newPassword : String) (user : UserInfo) :
    List (Bool × UnauthorizedReason) :=
  [(user.suspended, .ACCOUNT_SUSPENDED),
    (user.waitingForEmailCheck, .USERNAME_PENDING_VERIFICATION),
    (!validatePasswordHash svc user.email password user.currentPassword, .INVALID_CREDENTIALS),
    (user.changePassword && newPassword.isEmpty, .PASSWORD_CHANGE_REQUIRED),
    (!newPassword.isEmpty && !rule newPassword, .PASSWORD_INVALID),
    (!newPassword.isEmpty && refusesPassword svc salt newPassword user, .PASSWORD_ALREADY_USED)]

/-- The reason of the first check that fails. -/
def firstFailing (checks : List (Bool × UnauthorizedReason)) : UnauthorizedReason :=
  ((checks.find? Prod.fst).map Prod.snd).getD .SUCCESS

/-- The tables of the populations are the same. -/
def SameTables (p q : Population) : Prop :=
  q.users = p.users ∧ q.tokens.rows = p.tokens.rows ∧ q.logins = p.logins

/-- The records differ in what a login writes at most. -/
def LoginWrites (u v : UserInfo) : Prop :=
  v = { u with
    currentPassword := v.currentPassword
    lastPasswords := v.lastPasswords
    changePassword := v.changePassword
    modified := v.modified
    lastPasswordChange := v.lastPasswordChange
    lastLogin := v.lastLogin }

/-- What a successful login leaves in the tables. -/
structure LoggedIn (p : Population) (user : UserInfo) (effective : String) (q : Population) :
    Prop where
  /-- There is one more token, of this user. -/
  token : ∃ t : Token, t.userName = user.id ∧ p.tokens.rows.find? t.token = none ∧
    ∀ k, q.tokens.rows.find? k = if k = t.token then some t else p.tokens.rows.find? k
  /-- The record verifies the password that is in force, and no other. -/
  record : ∃ v, q.users.find? user.id = some v ∧ LoginWrites user v ∧
    ∀ x, validatePasswordHash svc v.email x v.currentPassword = true ↔ x = effective
  /-- The other records are as before. -/
  others : ∀ id ≠ user.id, q.users.find? id = p.users.find? id

/-- The result of a login is that of its first failing check, a refusal changes no table, and a
success leaves what it should. -/
structure LoginLaw (m : Moment) (p : Population) (userName password newPassword : String)
    (result : LoginResult) (q : Population) : Prop where
  unknown : (∀ u ∈ p.users.rows, u.email ≠ toLower userName) →
    result.reason = some .INVALID_CREDENTIALS
  known : (∃ u ∈ p.users.rows, u.email = toLower userName) →
    ∃ user, p.users.find? user.id = some user ∧ user.email = toLower userName ∧
      result.reason =
        some (firstFailing (loginChecks svc rule m.salt password newPassword user)) ∧
      (result.reason = some .SUCCESS →
        LoggedIn svc p user (if newPassword.isEmpty then password else newPassword) q)
  refused : result.reason ≠ some .SUCCESS → SameTables p q

/-- What is assumed of the surroundings and of the store. -/
structure LoginPremises (m : Moment) (p : Population) : Prop where
  hashes : HashesApart svc
  /-- The salt is made of digits. -/
  salt : ∃ length, IsSalt length m.salt
  bound : 1 ≤ svc.howManyOldPassword
  /-- The new token can be inserted. -/
  fresh : p.tokens.rows.find? m.accessToken = none
  /-- The service wrote the histories: it writes no empty entry. -/
  histories : ∀ u ∈ p.users.rows, ∀ entry ∈ u.lastPasswords, entry ≠ ""
  trimmed : ∀ u ∈ p.users.rows, Trimmed u.email
  /-- The caches are those of the tables. -/
  coherent : p.Coherent
  addressed : p.Addressed

end Law

section Proof

variable {svc : Service} {rule : String → Bool} {m : Moment} {p q : Population}
  {userName password newPassword : String} {user : UserInfo}

/-- The time of the last login plays no part in the reuse check. -/
theorem refusesPassword_lastLogin (salt : String) (n : ℕ) :
    refusesPassword svc salt newPassword { user with lastLogin := n } =
      refusesPassword svc salt newPassword user := by
  unfold refusesPassword setPassword
  simp only
  rcases passwordAlreadyUsed svc user.lastPasswords (toLower user.email) newPassword
    user.lastPasswords with _ | _ | _ <;> rfl

/-- A refusal for the right reason. -/
theorem LoginLaw.refusal (hrow : p.users.find? user.id = some user)
    (hemail : user.email = toLower userName) (htables : SameTables p q) {r : UnauthorizedReason}
    (hr : r ≠ .SUCCESS)
    (hfirst : firstFailing (loginChecks svc rule m.salt password newPassword user) = r)
    (ui : UserInfoAndPolicy) :
    LoginLaw svc rule m p userName password newPassword { reason := some r, uinfo := ui } q where
  unknown h := absurd hemail (h user (p.users.mem_rows_iff.mpr hrow))
  known _ := ⟨user, hrow, hemail, by rw [hfirst], fun h ↦ absurd (Option.some.inj h) hr⟩
  refused _ := htables

/-- A success. -/
theorem LoginLaw.success (hrow : p.users.find? user.id = some user)
    (hemail : user.email = toLower userName)
    (hfirst : firstFailing (loginChecks svc rule m.salt password newPassword user) = .SUCCESS)
    {result : LoginResult} (hresult : result.reason = some .SUCCESS)
    (h : LoggedIn svc p user (if newPassword.isEmpty then password else newPassword) q) :
    LoginLaw svc rule m p userName password newPassword result q where
  unknown h := absurd hemail (h user (p.users.mem_rows_iff.mpr hrow))
  known _ := ⟨user, hrow, hemail, by rw [hfirst, hresult], fun _ ↦ h⟩
  refused hne := absurd hresult hne

theorem sameTables_getUserByEmail (email : String) :
    SameTables p (p.getUserByEmail svc email).2 :=
  ⟨p.getUserByEmail_users svc email, (p.tokensKept_getUserByEmail svc email).rows,
    p.getUserByEmail_logins svc email⟩

/-- The end of a login writes the time of the login into the row. -/
theorem find?_completeAuthorize (id : String) :
    (p.completeAuthorize svc m userName user).2.users.find? id =
      (p.users.find? id).map fun u ↦ if u.id == user.id then { u with lastLogin := m.now } else u := by
  have htwice : (p.completeAuthorize svc m userName user).2.users =
      ((p.setLastLogin m.now user.id).setLastLogin m.now user.id).users := by
    unfold Population.completeAuthorize Population.createTokenFor
    simp only [Population.addLogin_users]
  rw [htwice, Population.find?_setLastLogin, Population.find?_setLastLogin, Option.map_map]
  congr 1
  funext u
  by_cases hu : u.id == user.id
  · simp only [Function.comp_apply, if_pos hu]
  · simp only [Function.comp_apply, if_neg hu]

/-- What a login leaves, once the record is in order. -/
theorem loggedIn_completeAuthorize {effective : String} {written v : UserInfo}
    (hrows : q.tokens.rows = p.tokens.rows) (hfresh : p.tokens.rows.find? m.accessToken = none)
    (hid : written.id = user.id) (hrow : q.users.find? user.id = some v) (hv : LoginWrites user v)
    (hothers : ∀ id ≠ user.id, q.users.find? id = p.users.find? id)
    (hverifies : ∀ x, validatePasswordHash svc v.email x v.currentPassword = true ↔ x = effective) :
    LoggedIn svc p user effective (q.completeAuthorize svc m userName written).2 where
  token := by
    let t : Token :=
      { token := m.accessToken
        refreshToken := m.refreshToken
        tokenType := "Bearer"
        userName := written.id
        created := m.now
        expires := svc.tokenAging
        idleTimeout := 5 * 60
        revocationDate := 0 }
    refine ⟨t, hid, hfresh, fun k ↦ ?_⟩
    rw [(q.completeAuthorize_tokens svc m userName written).2,
      Population.find?_addToken _ _ _ _ _ (hrows ▸ hfresh), hrows]
  record := by
    have hkey : (v.id == user.id) = true := by
      rw [hv]
      exact beq_self_eq_true _
    refine ⟨{ v with lastLogin := m.now }, ?_, ?_, hverifies⟩
    · rw [find?_completeAuthorize, hrow, hid, Option.map_some, if_pos hkey]
    · unfold LoginWrites at hv ⊢
      rw [hv]
  others id hne := by
    rw [find?_completeAuthorize, hothers id hne]
    rcases hfound : p.users.find? id with _ | u
    · rfl
    · have hkey : u.id = id := Table.key_of_find? hfound
      simp [hkey, hid, hne]

/-- What a login leaves that writes the record back first. -/
theorem loggedIn_updated {effective : String} {stored : UserInfo}
    (hfresh : p.tokens.rows.find? m.accessToken = none) (htables : SameTables p q)
    (hrow : p.users.find? user.id = some user) (hid : stored.id = user.id)
    (hwrites : LoginWrites user stored)
    (hverifies : ∀ x,
      validatePasswordHash svc stored.email x stored.currentPassword = true ↔ x = effective) :
    LoggedIn svc p user effective
      ((q.updateUserInfo svc stored.id stored).2.completeAuthorize svc m userName stored).2 := by
  refine loggedIn_completeAuthorize ?_ hfresh hid ?_ hwrites (fun id hne ↦ ?_) hverifies
  · rw [(Population.tokensKept_updateUserInfo svc _ _).rows, htables.2.1]
  · rw [Population.find?_updateUserInfo, htables.1, if_pos hid.symm, hid, hrow]
    rfl
  · rw [Population.find?_updateUserInfo, htables.1, if_neg fun heq ↦ hne (heq.trans hid)]

/-- A login with a new password is refused by the reuse check or stores the password. -/
theorem loginLaw_authorizeNewPassword (h : LoginPremises svc m p) (htables : SameTables p q)
    (hrow : p.users.find? user.id = some user) (hemail : user.email = toLower userName) (n : ℕ)
    (hnew : newPassword.isEmpty = false)
    (hchecks : firstFailing (loginChecks svc rule m.salt password newPassword user) =
      if refusesPassword svc m.salt newPassword user then .PASSWORD_ALREADY_USED else .SUCCESS) :
    LoginLaw svc rule m p userName password newPassword
      (q.authorizeNewPassword svc m (toLower userName) newPassword { user with lastLogin := n }).1
      (q.authorizeNewPassword svc m (toLower userName) newPassword
        { user with lastLogin := n }).2 := by
  have hmem : user ∈ p.users.rows := p.users.mem_rows_iff.mpr hrow
  have hset : setPassword svc m.salt newPassword { user with lastLogin := n } ≠ .exception :=
    setPassword_ne_exception svc m.salt newPassword (h.histories user hmem)
  rw [← refusesPassword_lastLogin m.salt n] at hchecks
  unfold Population.authorizeNewPassword
  unfold refusesPassword at hchecks
  rcases hresult : setPassword svc m.salt newPassword { user with lastLogin := n } with
    written | _ | _
  · rw [hresult] at hchecks
    have happlied := setPassword_applied svc hresult
    obtain ⟨-, -, hcurrent, -⟩ := PasswordHistory.setPassword_history hresult
    have hlower : toLower user.email = user.email := by rw [hemail, toLower_toLower]
    obtain ⟨length, hsalt⟩ := h.salt
    have hwrites : LoginWrites user
        { written with lastPasswordChange := m.now, changePassword := false, modified := m.now } := by
      rw [happlied]
      simp only [hlower]
      rfl
    have hid : written.id = user.id := by rw [happlied]
    refine .success hrow hemail hchecks (Population.completeAuthorize_tokens svc m _ _).1 ?_
    rw [hnew]
    refine loggedIn_updated h.fresh htables hrow hid hwrites fun x ↦ ?_
    show validatePasswordHash svc written.email x written.currentPassword = true ↔ _
    rw [hcurrent]
    refine validatePasswordHash_computed h.hashes hsalt.notMem ?_ newPassword x
    rw [happlied]
  · rw [hresult] at hchecks
    exact .refusal hrow hemail htables (by simp) hchecks _
  · exact absurd hresult hset

/-- A login does what its checks say. -/
theorem loginLaw_authorizeWith (h : LoginPremises svc m p) (userName password newPassword : String) :
    LoginLaw svc rule m p userName password newPassword
      (p.authorizeWith svc rule m userName password newPassword).1
      (p.authorizeWith svc rule m userName password newPassword).2 := by
  have hfinds := p.finds_getUserByEmail svc h.coherent h.addressed (toLower_toLower userName)
  have htables : SameTables p (p.getUserByEmail svc (toLower userName)).2 :=
    sameTables_getUserByEmail (toLower userName)
  unfold Population.authorizeWith
  simp only
  generalize p.getUserByEmail svc (toLower userName) = found at hfinds htables ⊢
  obtain ⟨_ | c, q⟩ := found
  · exact ⟨fun _ ↦ rfl, fun ⟨u, hu, hemail⟩ ↦ absurd hemail (hfinds.none rfl u hu), fun _ ↦ htables⟩
  · obtain ⟨user, hrow, hemail, hsame⟩ := hfinds.some c rfl
    obtain ⟨n, rfl⟩ : ∃ n, c = { user with lastLogin := n } := ⟨_, hsame⟩
    have hname : validatePasswordHash svc (toLower userName) password user.currentPassword =
        validatePasswordHash svc user.email password user.currentPassword := by rw [hemail]
    simp only [hname]
    split
    · rename_i hsuspended
      exact .refusal hrow hemail htables (by simp) (by simp [firstFailing, loginChecks, hsuspended]) _
    rename_i hsuspended
    split
    · rename_i hwaiting
      exact .refusal hrow hemail htables (by simp)
        (by simp [firstFailing, loginChecks, hsuspended, hwaiting]) _
    rename_i hwaiting
    split
    · rename_i hwrong
      exact .refusal hrow hemail htables (by simp)
        (by simp [firstFailing, loginChecks, hsuspended, hwaiting, hwrong]) _
    rename_i hright
    split
    · rename_i hrequired
      exact .refusal hrow hemail htables (by simp)
        (by simp [firstFailing, loginChecks, hsuspended, hwaiting, hright, hrequired]) _
    rename_i hallowed
    split
    · rename_i hrule
      exact .refusal hrow hemail htables (by simp)
        (by simp [firstFailing, loginChecks, hsuspended, hwaiting, hright, hallowed, hrule]) _
    rename_i hrule
    have hchecks : firstFailing (loginChecks svc rule m.salt password newPassword user) =
        if !newPassword.isEmpty && refusesPassword svc m.salt newPassword user then
          .PASSWORD_ALREADY_USED
        else .SUCCESS := by
      unfold firstFailing loginChecks
      simp only [List.find?_cons, hsuspended, hwaiting, hright, hallowed, hrule]
      cases !newPassword.isEmpty && refusesPassword svc m.salt newPassword user <;> rfl
    split
    · rename_i hchange
      have hnew : newPassword.isEmpty = false := by
        cases hempty : newPassword.isEmpty with
        | false => rfl
        | true =>
          rw [hempty] at hchange hallowed
          simp only [Bool.not_true, Bool.or_false] at hchange
          simp [hchange] at hallowed
      rw [hnew, Bool.not_false, Bool.true_and] at hchecks
      exact loginLaw_authorizeNewPassword h htables hrow hemail n hnew hchecks
    · rename_i hkept
      have hempty : newPassword.isEmpty = true := by
        simp only [Bool.or_eq_true, not_or, Bool.not_eq_true] at hkept
        simpa using hkept.2
      rw [hempty] at hchecks
      refine .success hrow hemail hchecks (Population.completeAuthorize_tokens svc m _ _).1 ?_
      rw [hempty]
      refine loggedIn_completeAuthorize (v := user) htables.2.1 h.fresh rfl ?_ rfl
        (fun id _ ↦ by rw [htables.1]) fun x ↦ ?_
      · rw [htables.1, hrow]
      refine validatePasswordHash_unique h.hashes ?_ x
      simpa using hright

end Proof

/-! ## The entry points -/

/-- `Authorize` for the users, `AuthorizeSub` for the subscribers. -/
def Storage.authorizeOn (svc : Service) (isSub : Bool) (m : Moment) (s : Storage)
    (userName password newPassword : String) : LoginResult × Storage :=
  match isSub with
  | false => s.authorize svc m userName password newPassword
  | true => s.authorizeSub svc m userName password newPassword

/-- A login of either kind does what its checks say to the population that it is for, and nothing
to the rest of the store. -/
theorem authorize_law (svc : Service) (m : Moment) (isSub : Bool) (s : Storage)
    (h : LoginPremises svc m (s.population isSub)) (userName password newPassword : String) :
    ∃ q, (s.authorizeOn svc isSub m userName password newPassword).2 = s.setPopulation isSub q ∧
      LoginLaw svc (Storage.passwordRule svc isSub) m (s.population isSub) userName password
        newPassword (s.authorizeOn svc isSub m userName password newPassword).1 q := by
  cases isSub
  · exact ⟨_, rfl, loginLaw_authorizeWith h userName password newPassword⟩
  · exact ⟨_, rfl, loginLaw_authorizeWith h userName password newPassword⟩

/-! ## One user -/

/-- A store with one user. -/
def sampleLoginStore : Storage where
  user := { users := ⟨[sampleHistory], by simp⟩ }

/-- The surroundings of a login. -/
def sampleLoginMoment : Moment := { Moment.sample 200 "a" with salt := "0000000002" }

theorem loginPremises_sample :
    LoginPremises sampleHashing sampleLoginMoment (sampleLoginStore.population false) where
  hashes := hashesApart_sample
  salt := ⟨10, isSalt_sample.2⟩
  bound := by decide
  fresh := rfl
  histories u hu entry hentry := by
    obtain rfl := List.mem_singleton.mp hu
    rw [List.mem_singleton.mp hentry]
    exact PasswordHistory.computeNewPasswordHash_ne_empty _ _ _
  trimmed u hu := by
    obtain rfl := List.mem_singleton.mp hu
    rfl
  coherent := .of_empty rfl
  addressed := .of_empty rfl

/-- The user logs in with a new password. -/
theorem authorize_law_sample :
    ∃ q, (sampleLoginStore.authorizeOn sampleHashing false sampleLoginMoment "Jo@example.com"
        "Secret-1" "Secret-2").2 = sampleLoginStore.setPopulation false q ∧
      LoginLaw sampleHashing (Storage.passwordRule sampleHashing false) sampleLoginMoment
        (sampleLoginStore.population false) "Jo@example.com" "Secret-1" "Secret-2"
        (sampleLoginStore.authorizeOn sampleHashing false sampleLoginMoment "Jo@example.com"
          "Secret-1" "Secret-2").1 q :=
  authorize_law sampleHashing sampleLoginMoment false sampleLoginStore loginPremises_sample
    "Jo@example.com" "Secret-1" "Secret-2"

end OwSec
