import Mathlib.Data.Option.Defs
import OwSec.AuthService

/-!
# The user cache against the user table

Every lookup of a user goes through a cache that is filled on a miss, overwritten on an
update and emptied on a delete, while `SetLastLogin` writes the table alone.  So a cached
record is the row with that identifier except for the time of the last login, and that is
the invariant `Population.Coherent`.

The second half of the file says, for each operation of the user store, what it does to
the table, and that it keeps the invariant.  Whatever the token half of a population does
is invisible here.
-/

namespace OwSec

open SecurityObjects Kit

/-! ## The invariant -/

/-- Two records that differ at most in the time of the last login. -/
def SameButLogin (c r : UserInfo) : Prop := c = { r with lastLogin := c.lastLogin }

theorem SameButLogin.refl (r : UserInfo) : SameButLogin r r := rfl

/-- Setting the time of the last login on the row keeps the relation. -/
theorem SameButLogin.setLastLogin {c r : UserInfo} (h : SameButLogin c r) (now : ℕ) :
    SameButLogin c { r with lastLogin := now } := h

/-- A field that is not the time of the last login is the same in both. -/
theorem SameButLogin.eq {α : Sort*} {c r : UserInfo} (h : SameButLogin c r) (f : UserInfo → α)
    (hf : ∀ u n, f { u with lastLogin := n } = f u) : f c = f r := by
  rw [h]
  exact hf r c.lastLogin

theorem SameButLogin.id_eq {c r : UserInfo} (h : SameButLogin c r) : c.id = r.id :=
  h.eq UserInfo.id fun _ _ ↦ rfl

namespace Population

variable (svc : Service) {p : Population}

/-- Each cached record is the row with that identifier, up to the last login. -/
def Coherent (p : Population) : Prop :=
  Cache.Agrees SameButLogin p.cacheById p.users.find?

/-- A population whose cache is empty is coherent. -/
theorem Coherent.of_empty (h : p.cacheById = ∅) : p.Coherent := by
  intro k v hk
  rw [h] at hk
  simp at hk

/-- Coherence only looks at the table and the record cache. -/
theorem Coherent.congr {q : Population} (h : p.Coherent) (hu : q.users = p.users)
    (hc : q.cacheById = p.cacheById) : q.Coherent := by
  intro k v hk
  rw [hc] at hk
  rw [hu]
  exact h k v hk

/-- Dropping cached records keeps coherence. -/
theorem Coherent.evicts {q : Population} (h : p.Coherent) (hu : q.users = p.users)
    (hc : Cache.Evicts p.cacheById q.cacheById) : q.Coherent := by
  intro k v hk
  rw [hu]
  exact h k v (hc k v hk)

/-- Caching a record of the table keeps coherence. -/
theorem Coherent.updateCache (h : p.Coherent) {u : UserInfo} (hu : p.users.find? u.id = some u) :
    (p.updateCache svc u).Coherent :=
  Cache.Agrees.insert h hu (SameButLogin.refl u)

/-! ## Lookups -/

@[simp] theorem getUserById_users (id : String) : (p.getUserById svc id).2.users = p.users := by
  unfold getUserById getRecordById
  split
  · rfl
  · split <;> rfl

/-- Looking a user up leaves the token table alone. -/
theorem getUserById_rows (id : String) :
    (p.getUserById svc id).2.tokens.rows = p.tokens.rows := by
  unfold getUserById getRecordById
  split
  · rfl
  · split <;> rfl

/-- Looking a user up at most drops cached tokens. -/
theorem getUserById_evicts (id : String) :
    Cache.Evicts p.tokens.cache (p.getUserById svc id).2.tokens.cache := by
  unfold getUserById getRecordById
  split
  · exact Cache.Evicts.refl _
  · split
    · exact Cache.Evicts.removeAll _ _
    · exact Cache.Evicts.refl _

@[simp] theorem getRecordByEMail_users (email : String) :
    (p.getRecordByEMail svc email).2.users = p.users := by
  unfold getRecordByEMail
  split
  · rfl
  · split <;> rfl

@[simp] theorem getUserByEmail_users (email : String) :
    (p.getUserByEmail svc email).2.users = p.users := getRecordByEMail_users svc email

/-- A lookup by identifier finds the row, up to the last login, or finds nothing where
there is no row. -/
theorem Coherent.getUserById_rel (h : p.Coherent) (id : String) :
    Option.Rel SameButLogin (p.getUserById svc id).1 (p.users.find? id) := by
  unfold getUserById getRecordById getFromCacheById
  split
  · rename_i u hu
    obtain ⟨r, hr, hur⟩ := h id u hu
    rw [hr]
    exact .some hur
  · split
    · rename_i r hr
      rw [hr]
      exact .some (SameButLogin.refl r)
    · rename_i hr
      rw [hr]
      exact .none

/-- The record a lookup by identifier finds is the row, up to the last login. -/
theorem Coherent.of_getUserById (h : p.Coherent) {id : String} {u : UserInfo}
    (hu : (p.getUserById svc id).1 = some u) :
    ∃ r, p.users.find? id = some r ∧ SameButLogin u r := by
  have hrel := h.getUserById_rel svc id
  rw [hu] at hrel
  generalize p.users.find? id = o at hrel ⊢
  cases hrel with
  | some hur => exact ⟨_, rfl, hur⟩

/-- A lookup by identifier keeps coherence. -/
theorem Coherent.getUserById (h : p.Coherent) (id : String) :
    (p.getUserById svc id).2.Coherent := by
  unfold Population.getUserById getRecordById
  split
  · exact h
  · split
    · rename_i r hr
      refine h.updateCache svc ?_
      rw [Table.key_of_find? hr]
      exact hr
    · exact h

/-- The record a lookup by e-mail finds is the row with its identifier, up to the last
login. -/
theorem Coherent.of_getRecordByEMail (h : p.Coherent) {email : String} {u : UserInfo}
    (hu : (p.getRecordByEMail svc email).1 = some u) :
    ∃ r, p.users.find? u.id = some r ∧ SameButLogin u r := by
  unfold Population.getRecordByEMail getFromCacheByEMail at hu
  split at hu
  · rename_i r hr
    obtain rfl : r = u := by simpa using hu
    split at hr
    · rename_i id _
      obtain ⟨row, hrow, hsame⟩ := h id r hr
      have hid : r.id = id := hsame.id_eq.trans (Table.key_of_find? hrow)
      exact ⟨row, hid ▸ hrow, hsame⟩
    · cases hr
  · split at hu
    · rename_i r hr
      obtain rfl : r = u := by simpa using hu
      exact ⟨r, (Table.select_eq_some hr).1, SameButLogin.refl r⟩
    · cases hu

/-- A lookup by e-mail keeps coherence. -/
theorem Coherent.getRecordByEMail (h : p.Coherent) (email : String) :
    (p.getRecordByEMail svc email).2.Coherent := by
  unfold Population.getRecordByEMail
  split
  · exact h
  · split
    · rename_i r hr
      exact h.updateCache svc (Table.select_eq_some hr).1
    · exact h

theorem Coherent.getUserByEmail (h : p.Coherent) (email : String) :
    (p.getUserByEmail svc email).2.Coherent := h.getRecordByEMail svc email

/-! ## Creating -/

/-- The new record carries the fresh identifier and the lower-cased address, and the other
fields that access decisions look at are the request's. -/
theorem newRecord_fields (m : Moment) (u : UserInfo) :
    (newRecord svc m u).id = m.uuid ∧ (newRecord svc m u).email = toLower u.email ∧
      (newRecord svc m u).createdBy = u.createdBy ∧
      (newRecord svc m u).userRole = u.userRole ∧ (newRecord svc m u).owner = u.owner := by
  unfold newRecord
  simp only
  split <;> exact ⟨rfl, rfl, rfl, rfl, rfl⟩

/-- Creating a user looks the address up and then, at most, inserts the new record. -/
theorem createUser_cases (m : Moment) (u : UserInfo) :
    p.createUser svc m u = (none, (p.getRecordByEMail svc (toLower u.email)).2) ∨
      ∃ users, p.users.insert (newRecord svc m u) = some users ∧
        p.createUser svc m u = (some (newRecord svc m u),
          { (p.getRecordByEMail svc (toLower u.email)).2 with users }) := by
  have hu := getRecordByEMail_users svc (p := p) (toLower u.email)
  unfold createUser createRecord
  rcases hl : p.getRecordByEMail svc (toLower u.email) with ⟨_ | found, q⟩
  · simp only [hl] at hu ⊢
    rw [← hu]
    rcases hins : q.users.insert (newRecord svc m u) with _ | users
    · exact Or.inl rfl
    · exact Or.inr ⟨users, rfl, rfl⟩
  · exact Or.inl rfl

/-- What is created is the new record. -/
theorem createUser_some {m : Moment} {u new : UserInfo}
    (h : (p.createUser svc m u).1 = some new) : new = newRecord svc m u := by
  rcases createUser_cases svc (p := p) m u with hc | ⟨users, _, hc⟩
  · rw [hc] at h
    cases h
  · rw [hc] at h
    exact (Option.some.inj h).symm

/-- A record is only stored under an identifier that no row has, and nothing else in the
table changes. -/
theorem find?_createUser_some {m : Moment} {u new : UserInfo}
    (h : (p.createUser svc m u).1 = some new) :
    p.users.find? new.id = none ∧
      ∀ k, (p.createUser svc m u).2.users.find? k =
        if k = new.id then some new else p.users.find? k := by
  obtain rfl := createUser_some svc h
  rcases createUser_cases svc (p := p) m u with hc | ⟨users, hins, hc⟩
  · rw [hc] at h
    cases h
  · rw [hc]
    exact ⟨Table.find?_of_insert hins, Table.find?_insert hins⟩

/-- A failed creation leaves the table alone. -/
theorem createUser_none_users {m : Moment} {u : UserInfo}
    (h : (p.createUser svc m u).1 = none) : (p.createUser svc m u).2.users = p.users := by
  rcases createUser_cases svc (p := p) m u with hc | ⟨users, _, hc⟩
  · rw [hc]
    exact getRecordByEMail_users svc _
  · rw [hc] at h
    cases h

/-- A user is created exactly when the address is not found and the identifier is free. -/
theorem createUser_isSome_iff {m : Moment} {u : UserInfo} :
    (p.createUser svc m u).1.isSome = true ↔
      (p.getUserByEmail svc (toLower u.email)).1 = none ∧ p.users.find? m.uuid = none := by
  have hid : (newRecord svc m u).id = m.uuid := (newRecord_fields svc m u).1
  have hu := getRecordByEMail_users svc (p := p) (toLower u.email)
  unfold createUser createRecord getUserByEmail
  rcases hl : p.getRecordByEMail svc (toLower u.email) with ⟨_ | found, q⟩
  · simp only [hl] at hu ⊢
    rcases hins : q.users.insert (newRecord svc m u) with _ | users
    · simp only [Option.isSome_none, Bool.false_eq_true, true_and, false_iff]
      intro hfree
      rw [← hu, ← hid] at hfree
      obtain ⟨users, hsome⟩ := Table.insert_isSome hfree
      rw [hins] at hsome
      cases hsome
    · have hfree := Table.find?_of_insert hins
      rw [hid, hu] at hfree
      simp [hfree]
  · simp

/-- A row is found by its address, or another record is. -/
theorem getUserByEmail_isSome {k : String} {r : UserInfo} (hr : p.users.find? k = some r) :
    ∃ u, (p.getUserByEmail svc r.email).1 = some u := by
  unfold getUserByEmail getRecordByEMail
  split
  · exact ⟨_, rfl⟩
  · obtain ⟨r', hr'⟩ := Table.select_isSome (p := (·.email == r.email)) hr (by simp)
    rw [hr']
    exact ⟨r', rfl⟩

/-- Creating a user keeps coherence: the new identifier is in no cache entry. -/
theorem Coherent.createUser (h : p.Coherent) (m : Moment) (u : UserInfo) :
    (p.createUser svc m u).2.Coherent := by
  have hlook := h.getRecordByEMail svc (toLower u.email)
  rcases createUser_cases svc (p := p) m u with hc | ⟨users, hins, hc⟩
  · rw [hc]
    exact hlook
  · rw [hc]
    intro k v hk
    obtain ⟨r, hr, hv⟩ := hlook k v hk
    rw [getRecordByEMail_users] at hr
    refine ⟨r, ?_, hv⟩
    rw [Table.find?_insert hins k, if_neg ?_]
    · exact hr
    · rintro rfl
      rw [Table.find?_of_insert hins] at hr
      cases hr

/-! ## Updating and deleting -/

/-- Updating a record in place writes the row and then the cache. -/
theorem updateUserInfo_eq (u : UserInfo) :
    ∃ users, p.users.update u.id u = some users ∧
      p.updateUserInfo svc u.id u = (true, { p with users }.updateCache svc u) := by
  obtain ⟨users, hup⟩ := p.users.update_isSome (k := u.id) (r := u) rfl
  refine ⟨users, hup, ?_⟩
  unfold updateUserInfo updateRecord
  rw [hup]

/-- A record that was written is found. -/
theorem getUserById_updateUserInfo (u : UserInfo) :
    (p.updateUserInfo svc u.id u).2.getUserById svc u.id =
      (some u, (p.updateUserInfo svc u.id u).2) := by
  obtain ⟨users, -, heq⟩ := updateUserInfo_eq svc (p := p) u
  have hhit : ({ p with users }.updateCache svc u).cacheById.lookup u.id = some u := by
    show (p.cacheById.insert u.id u : Cache String UserInfo).lookup u.id = some u
    rw [Cache.lookup_insert_eq, if_pos rfl]
  rw [heq]
  unfold Population.getUserById Population.getRecordById Population.getFromCacheById
  rw [hhit]

/-- What an update in place leaves in the table. -/
theorem find?_updateUserInfo (u : UserInfo) (k : String) :
    (p.updateUserInfo svc u.id u).2.users.find? k =
      if k = u.id then (p.users.find? u.id).map (fun _ ↦ u) else p.users.find? k := by
  obtain ⟨users, hup, heq⟩ := updateUserInfo_eq svc (p := p) u
  rw [heq]
  exact Table.find?_update hup rfl k

/-- Updating a record that has a row keeps coherence. -/
theorem Coherent.updateUserInfo (h : p.Coherent) {u r : UserInfo}
    (hr : p.users.find? u.id = some r) : (p.updateUserInfo svc u.id u).2.Coherent := by
  intro k v hk
  rw [find?_updateUserInfo, hr]
  obtain ⟨users, _, heq⟩ := updateUserInfo_eq svc (p := p) u
  rw [heq] at hk
  change (p.cacheById.insert u.id u).lookup k = some v at hk
  rw [Cache.lookup_insert_eq] at hk
  by_cases hku : k = u.id
  · rw [if_pos hku] at hk ⊢
    exact ⟨u, rfl, Option.some.inj hk ▸ SameButLogin.refl u⟩
  · rw [if_neg hku] at hk ⊢
    exact h k v hk

/-- What a deletion leaves in the table. -/
theorem find?_deleteUser (id k : String) :
    (p.deleteUser id).users.find? k = if k = id then none else p.users.find? k :=
  Table.find?_delete p.users id k

/-- Deleting a user keeps coherence: the record leaves the cache with the row. -/
theorem Coherent.deleteUser (h : p.Coherent) (id : String) : (p.deleteUser id).Coherent := by
  intro k v hk
  change (p.cacheById.erase id).lookup k = some v at hk
  rw [Cache.lookup_erase_eq] at hk
  rw [find?_deleteUser]
  by_cases hki : k = id
  · rw [if_pos hki] at hk
    cases hk
  · rw [if_neg hki] at hk ⊢
    exact h k v hk

/-- What recording a login leaves in the table. -/
theorem find?_setLastLogin (now : ℕ) (id k : String) :
    (p.setLastLogin now id).users.find? k =
      (p.users.find? k).map fun u ↦ if u.id == id then { u with lastLogin := now } else u :=
  Table.find?_modifyWhere p.users (·.id == id) ({ · with lastLogin := now }) (fun _ ↦ rfl) k

/-- Recording a login keeps coherence: the cached record lags behind in that field only. -/
theorem Coherent.setLastLogin (h : p.Coherent) (now : ℕ) (id : String) :
    (p.setLastLogin now id).Coherent := by
  intro k v hk
  obtain ⟨r, hr, hv⟩ := h k v hk
  rw [find?_setLastLogin, hr]
  refine ⟨_, rfl, ?_⟩
  by_cases hid : r.id == id
  · simpa [hid] using hv.setLastLogin now
  · simpa [hid] using hv

/-- Setting an avatar keeps coherence. -/
theorem Coherent.setAvatar (h : p.Coherent) (now : ℕ) (id value : String) :
    (p.setAvatar svc now id value).2.Coherent := by
  have hget := h.getUserById svc id
  have hfound (u : UserInfo) (hu : (p.getUserById svc id).1 = some u) :=
    h.of_getUserById svc hu
  have husers := getUserById_users svc (p := p) id
  unfold Population.setAvatar
  unfold Population.getUserById at hget hfound husers
  rcases hl : p.getRecordById svc id with ⟨_ | u, q⟩
  · simpa only [hl] using hget
  · simp only [hl] at hget hfound husers ⊢
    obtain ⟨r, hr, hur⟩ := hfound u rfl
    have hid : u.id = id := hur.id_eq.trans (Table.key_of_find? hr)
    subst hid
    exact hget.updateUserInfo svc
      (u := { u with avatar := if value.isEmpty then "0" else toString now }) (husers ▸ hr)

/-! ## The authentication service -/

/-- A change of the token half keeps coherence. -/
theorem Coherent.withTokens (h : p.Coherent) (tokens : TokenStore) :
    ({ p with tokens } : Population).Coherent := h

@[simp] theorem addLogin_users (now : ℕ) (userId email token : String) :
    (p.addLogin svc now userId email token).users = p.users := by
  unfold addLogin
  simp only
  split <;> rfl

theorem Coherent.addLogin (h : p.Coherent) (now : ℕ) (userId email token : String) :
    (p.addLogin svc now userId email token).Coherent := by
  refine h.congr (addLogin_users svc now userId email token) ?_
  unfold Population.addLogin
  simp only
  split <;> rfl

@[simp] theorem addLogout_users (now : ℕ) (token : String) :
    (p.addLogout svc now token).users = p.users := by
  unfold addLogout
  simp only
  split
  · rfl
  · split <;> rfl

theorem Coherent.addLogout (h : p.Coherent) (now : ℕ) (token : String) :
    (p.addLogout svc now token).Coherent := by
  refine h.congr (addLogout_users svc now token) ?_
  unfold Population.addLogout
  simp only
  split
  · rfl
  · split <;> rfl

/-- What checking a token answers, in terms of the record that is found for it and of the
row of its owner. -/
theorem Coherent.checkToken_fst (h : p.Coherent) (now : ℕ) (token : String) :
    ∃ o : String → Option UserInfo,
      (∀ id, Option.Rel SameButLogin (o id) (p.users.find? id)) ∧
      (p.checkToken svc now token).1 =
        match p.tokens.resolve token with
        | none => {}
        | some t =>
          if t.revocationDate = 0 then
            { uinfo := (o t.userName).map fun u ↦
                { webtoken := TokenStore.webTokenOf t, userinfo := u }
              expired := decide (u64 (t.created + t.expires) < now) }
          else {} := by
  refine ⟨fun id ↦ (({ p with tokens := (p.tokens.getRecord token).2 } : Population).getUserById
    svc id).1, fun id ↦ (h.withTokens _).getUserById_rel svc id, ?_⟩
  have hfst := p.tokens.getRecord_fst token
  unfold Population.checkToken
  rcases hl : p.tokens.getRecord token with ⟨o, tokens⟩
  rw [hl] at hfst
  subst hfst
  cases p.tokens.resolve token with
  | none => rfl
  | some t =>
    simp only [bne_iff_ne, ne_eq, ite_not]
    by_cases hrev : t.revocationDate = 0
    · rw [if_pos hrev, if_pos hrev]
      rcases ({ p with tokens } : Population).getUserById svc t.userName with ⟨_ | u, q⟩ <;> rfl
    · rw [if_neg hrev, if_neg hrev]

/-- A token is accepted exactly when its record is not revoked and its owner has a row.
Its life time plays no part in the answer. -/
theorem Coherent.checkToken_accepts_iff (h : p.Coherent) (now : ℕ) (token : String) :
    (p.checkToken svc now token).1.uinfo.isSome ↔
      ∃ t, p.tokens.resolve token = some t ∧ t.revocationDate = 0 ∧
        (p.users.find? t.userName).isSome := by
  obtain ⟨o, ho, heq⟩ := h.checkToken_fst svc now token
  rw [heq]
  cases p.tokens.resolve token with
  | none => simp
  | some t =>
    have hsome : (o t.userName).isSome = (p.users.find? t.userName).isSome := by
      have hrel := ho t.userName
      generalize o t.userName = a at hrel ⊢
      generalize p.users.find? t.userName = b at hrel ⊢
      cases hrel <;> rfl
    by_cases hrev : t.revocationDate = 0 <;> simp [hrev, hsome]

/-- The user whom a check of a token reports is the row of that identifier, up to the last
login. -/
theorem Coherent.of_checkToken (h : p.Coherent) {now : ℕ} {token : String}
    {ui : UserInfoAndPolicy} (hui : (p.checkToken svc now token).1.uinfo = some ui) :
    ∃ row, p.users.find? ui.userinfo.id = some row ∧ SameButLogin ui.userinfo row := by
  obtain ⟨o, ho, heq⟩ := h.checkToken_fst svc now token
  rw [heq] at hui
  split at hui
  · cases hui
  · rename_i t _
    split at hui
    · obtain ⟨u, hu, rfl⟩ := Option.map_eq_some_iff.mp hui
      have hrel := ho t.userName
      rw [hu] at hrel
      rcases hrow : p.users.find? t.userName with _ | row
      · rw [hrow] at hrel
        cases hrel
      · rw [hrow] at hrel
        cases hrel with
        | some hsame =>
          have hid : u.id = t.userName := hsame.id_eq.trans (Table.key_of_find? hrow)
          exact ⟨row, hid ▸ hrow, hsame⟩
    · cases hui

/-- Checking a token keeps coherence. -/
theorem Coherent.checkToken (h : p.Coherent) (now : ℕ) (token : String) :
    (p.checkToken svc now token).2.Coherent := by
  unfold Population.checkToken
  rcases p.tokens.getRecord token with ⟨_ | t, tokens⟩
  · exact h.withTokens tokens
  · have hget := (h.withTokens tokens).getUserById svc t.userName
    simp only
    split
    · exact h.withTokens tokens
    · rcases hl : ({ p with tokens } : Population).getUserById svc t.userName with ⟨_ | u, q⟩
      · simpa only [hl] using hget
      · simpa only [hl] using hget

/-- Checking a token leaves the table alone. -/
@[simp] theorem checkToken_users (now : ℕ) (token : String) :
    (p.checkToken svc now token).2.users = p.users := by
  unfold Population.checkToken
  rcases p.tokens.getRecord token with ⟨_ | t, tokens⟩
  · rfl
  · simp only
    have husers := getUserById_users svc (p := { p with tokens }) t.userName
    split
    · rfl
    · rcases hl : ({ p with tokens } : Population).getUserById svc t.userName with ⟨_ | u, q⟩
      · simpa only [hl] using husers
      · simpa only [hl] using husers

/-- Issuing a token keeps coherence. -/
theorem Coherent.createTokenFor (h : p.Coherent) (m : Moment) (userName : String)
    (ui : UserInfoAndPolicy) : (p.createTokenFor svc m userName ui).2.Coherent :=
  Coherent.addLogin svc ((h.setLastLogin m.now ui.userinfo.id).withTokens _) m.now _ _ _

/-- The end of a login keeps coherence. -/
theorem Coherent.completeAuthorize (h : p.Coherent) (m : Moment) (userName : String)
    (user : UserInfo) : (p.completeAuthorize svc m userName user).2.Coherent :=
  (h.setLastLogin m.now user.id).createTokenFor svc m userName _

/-- A login keeps coherence, whatever its outcome. -/
theorem Coherent.authorizeWith (h : p.Coherent) (rule : String → Bool) (m : Moment)
    (userName password newPassword : String) :
    (p.authorizeWith svc rule m userName password newPassword).2.Coherent := by
  have hget := h.getUserByEmail svc (toLower userName)
  have husers := getUserByEmail_users svc (p := p) (toLower userName)
  have houtcome := authorizeWith_outcome svc rule m p userName password newPassword
  generalize p.authorizeWith svc rule m userName password newPassword = result at houtcome ⊢
  cases houtcome with
  | refused hreason => exact hget
  | completed hlookup =>
    rw [hlookup] at hget
    exact hget.completeAuthorize svc m _ _
  | changed hlookup hset hwritten =>
    -- the record that is written back is the one that was just looked up, so it has a row
    obtain ⟨r, hr, -⟩ := h.of_getRecordByEMail svc (congrArg Prod.fst hlookup)
    rw [hlookup] at hget husers
    refine (hget.updateUserInfo svc (r := r) ?_).completeAuthorize svc m _ _
    rw [hwritten, setPassword_applied svc hset]
    exact husers ▸ hr

/-- Refreshing a token keeps coherence. -/
theorem Coherent.refreshTokenFor (h : p.Coherent) (m : Moment) (callToken refresh : String) :
    (p.refreshTokenFor svc m callToken refresh).2.Coherent := by
  unfold Population.refreshTokenFor
  split
  · exact h
  · rcases p.tokens.getRecord callToken with ⟨_ | t, tokens⟩
    · exact h.withTokens tokens
    · simp only
      split
      · exact h.withTokens _
      · exact h.withTokens tokens

/-- Logging out keeps coherence. -/
theorem Coherent.logoutOf (h : p.Coherent) (now : ℕ) (token : String) :
    (p.logoutOf svc now token).Coherent :=
  Coherent.addLogout svc (h.withTokens _) now token

end Population

end OwSec
