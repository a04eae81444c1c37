import OwSec.Storage.Coherence

/-!
# Caches that agree with their tables

`Population.Exact` is what the caches of a population should be: each cached user and each
cached token is the row of its key, and a cached address leads to a row with that address
or to no row at all.  What a lookup answers from a cache is then what the table holds.

The file goes through the operations of the two stores and says which of them keep this.
Most do, whatever their arguments.  Three need a premise, because they write the table past
the cache or write the cache past the table: recording a login, purging expired tokens, and
updating a record under an identifier.
-/

namespace OwSec

open SecurityObjects Kit

/-- Each cached token is the row of its key. -/
def TokenStore.Exact (s : TokenStore) : Prop :=
  ∀ k t, s.cache.lookup k = some t → s.rows.find? k = some t

/-- The caches agree with the tables. -/
structure Population.Exact (p : Population) : Prop where
  users : ∀ id u, p.cacheById.lookup id = some u → p.users.find? id = some u
  emails : ∀ e id u, p.cacheByEMail.lookup e = some id → p.users.find? id = some u → u.email = e
  tokens : p.tokens.Exact

/-! ## The token store -/

namespace TokenStore

variable (svc : Service) {s : TokenStore}

/-- An empty cache agrees with any table. -/
theorem Exact.of_empty (h : s.cache = ∅) : s.Exact := by
  intro k t ht
  rw [h] at ht
  simp at ht

/-- Dropping cached tokens keeps the agreement. -/
theorem Exact.evicts {s' : TokenStore} (h : s.Exact) (hr : s'.rows = s.rows)
    (hc : Cache.Evicts s.cache s'.cache) : s'.Exact := by
  intro k t ht
  rw [hr]
  exact h k t (hc k t ht)

/-- Caching a row keeps the agreement, and caching anything else breaks it. -/
theorem Exact.updateCache_iff (h : s.Exact) (t : Token) :
    (s.updateCache t).Exact ↔ s.rows.find? t.token = some t := by
  constructor
  · exact fun h' ↦ h' t.token t (by simp [updateCache])
  · intro ht k r hr
    change (s.cache.insert t.token t).lookup k = some r at hr
    rw [Cache.lookup_insert_eq] at hr
    split at hr
    · rename_i hk
      obtain rfl := Option.some.inj hr
      exact hk ▸ ht
    · exact h k r hr

/-- What a lookup finds is the row. -/
theorem Exact.resolve_eq (h : s.Exact) (k : String) : s.resolve k = s.rows.find? k := by
  unfold resolve getFromCache
  rcases hc : s.cache.lookup k with _ | t
  · rfl
  · exact (h k t hc).symm

theorem Exact.getRecord (h : s.Exact) (k : String) : (s.getRecord k).2.Exact := by
  unfold TokenStore.getRecord
  split
  · exact h
  · split
    · rename_i r hr
      refine (h.updateCache_iff r).mpr ?_
      rw [Table.key_of_find? hr]
      exact hr
    · exact h

theorem Exact.cacheDelete (h : s.Exact) (k : String) : (s.cacheDelete svc k).Exact :=
  h.evicts rfl (Cache.Evicts.erase _ _)

theorem Exact.cacheDeleteUserName (h : s.Exact) (userName : String) :
    (s.cacheDeleteUserName svc userName).Exact :=
  h.evicts rfl (Cache.Evicts.removeAll _ _)

theorem Exact.addToken (h : s.Exact) (now : ℕ) (userId token refreshToken : String)
    (expires timeOut : ℕ) :
    (s.addToken now userId token refreshToken expires timeOut).2.Exact := by
  unfold TokenStore.addToken createRecord
  split
  · rename_i rows hins
    intro k t ht
    rw [Table.find?_insert hins, if_neg ?_]
    · exact h k t ht
    · rintro rfl
      exact absurd ((Table.find?_of_insert hins).symm.trans (h _ t ht)) (by simp)
  · exact h

/-- Deleting a row takes its cached copy along. -/
theorem Exact.deleteRecord (h : s.Exact) (token : String) : (s.deleteRecord svc token).Exact := by
  intro k t ht
  change (s.cache.erase token).lookup k = some t at ht
  show (s.rows.delete token).find? k = some t
  rw [Cache.lookup_erase_eq] at ht
  rw [Table.find?_delete]
  split at ht
  · cases ht
  · rename_i hk
    rw [if_neg hk]
    exact h k t ht

/-- The purge keeps the agreement when no cached token is due. -/
theorem Exact.cleanExpiredTokens (h : s.Exact) (now : ℕ)
    (hdue : ∀ k t, s.cache.lookup k = some t → now < t.created + t.expires) :
    (s.cleanExpiredTokens now).Exact := by
  intro k t ht
  change s.cache.lookup k = some t at ht
  show (s.rows.deleteWhere _).find? k = some t
  rw [Table.find?_deleteWhere, h k t ht]
  have hlive : ¬ t.created + t.expires ≤ now := by
    have := hdue k t ht
    omega
  simp [Option.filter, hlive]

/-- Revoking by the owner takes the cached copies of the rows along. -/
theorem Exact.revokeAllTokens (h : s.Exact) (userId : String) :
    (s.revokeAllTokens svc userId).Exact := by
  intro k t ht
  change (Cache.removeAll s.cache _).lookup k = some t at ht
  show (s.rows.deleteWhere _).find? k = some t
  rw [Cache.lookup_removeAll_keysWhere] at ht
  obtain ⟨ht, howner⟩ := Option.filter_eq_some_iff.mp ht
  rw [Table.find?_deleteWhere, h k t ht]
  simpa [Option.filter] using howner

/-- The record that a refresh stores. -/
def refreshed (now : ℕ) (newToken newRefreshToken : String) (lastRefresh : ℕ) (t : Token) : Token :=
  { t with
    token := newToken
    refreshToken := newRefreshToken
    lastRefresh := lastRefresh
    created := now }

/-- A refresh of a token that has a row, when the row can be renamed: the old token is gone
and the new one has the refreshed row. -/
theorem Exact.refreshToken (h : s.Exact) (now : ℕ) (oldToken newToken newRefreshToken : String)
    (lastRefresh : ℕ) (hfree : newToken = oldToken ∨ s.rows.find? newToken = none) :
    (s.refreshToken svc now oldToken newToken newRefreshToken lastRefresh).2.Exact ∧
    (s.refreshToken svc now oldToken newToken newRefreshToken lastRefresh).1 =
      (s.rows.find? oldToken).isSome ∧
    ∀ t, s.rows.find? oldToken = some t → ∀ k,
      (s.refreshToken svc now oldToken newToken newRefreshToken lastRefresh).2.rows.find? k =
        if k = newToken then some (refreshed now newToken newRefreshToken lastRefresh t)
        else if k = oldToken then none else s.rows.find? k := by
  have hget := h.getRecord oldToken
  have hrows := s.getRecord_rows oldToken
  have hfst := s.getRecord_fst oldToken
  rw [h.resolve_eq] at hfst
  unfold TokenStore.refreshToken
  rcases hl : s.getRecord oldToken with ⟨_ | t, s₁⟩
  · simp only [hl] at hget hrows hfst ⊢
    refine ⟨hget, by rw [← hfst]; rfl, fun t ht ↦ ?_⟩
    rw [ht] at hfst
    cases hfst
  · simp only [hl] at hget hrows hfst ⊢
    have hrow : s₁.rows.find? oldToken = some t := by rw [hrows, ← hfst]
    have htoken : t.token = oldToken := Table.key_of_find? hrow
    -- the update of the row goes through
    obtain ⟨rows, hup⟩ := Option.ne_none_iff_exists'.mp fun hnone ↦
      (Table.update_eq_none_iff (r := refreshed now newToken newRefreshToken lastRefresh t)
        hrow).mp hnone (hrows ▸ hfree)
    have hfind (k : String) : rows.find? k =
        if k = newToken then some (refreshed now newToken newRefreshToken lastRefresh t)
        else if k = oldToken then none else s₁.rows.find? k := Table.find?_update_row hup hrow k
    unfold updateRecord
    change s₁.rows.update oldToken { t with
      token := newToken
      refreshToken := newRefreshToken
      lastRefresh := lastRefresh
      created := now } = some rows at hup
    rw [hup]
    refine ⟨?_, by rw [← hfst]; rfl, ?_⟩
    · intro k r hr
      change (((s₁.cache.insert newToken _).erase oldToken).insert newToken _).lookup k = some r at hr
      show rows.find? k = some r
      rw [hfind]
      rw [Cache.lookup_insert_eq, Cache.lookup_erase_eq, Cache.lookup_insert_eq] at hr
      by_cases hnew : k = newToken
      · rw [if_pos hnew] at hr ⊢
        exact hr
      · rw [if_neg hnew] at hr ⊢
        by_cases hold : k = oldToken
        · rw [if_pos hold] at hr
          cases hr
        · rw [if_neg hold] at hr ⊢
          rw [if_neg hnew] at hr
          exact hget k r hr
    · intro t' ht' k
      obtain rfl := Option.some.inj (hfst.trans ht')
      exact (hfind k).trans (by rw [hrows])

end TokenStore

/-! ## The user store -/

namespace Population

variable (svc : Service) {p : Population}

/-- Empty caches agree with any tables. -/
theorem Exact.of_empty (hi : p.cacheById = ∅) (he : p.cacheByEMail = ∅)
    (ht : p.tokens.cache = ∅) : p.Exact where
  users id u hu := by
    rw [hi] at hu
    simp at hu
  emails e id u h := by
    rw [he] at h
    simp at h
  tokens := TokenStore.Exact.of_empty ht

/-- Dropping cache entries keeps the agreement. -/
theorem Exact.evicts {q : Population} (h : p.Exact) (hu : q.users = p.users)
    (hi : Cache.Evicts p.cacheById q.cacheById)
    (he : Cache.Evicts p.cacheByEMail q.cacheByEMail) (ht : q.tokens.Exact) : q.Exact where
  users id u hl := by
    rw [hu]
    exact h.users id u (hi id u hl)
  emails e id u hl := by
    rw [hu]
    exact h.emails e id u (he e id hl)
  tokens := ht

/-- A change of the token store alone. -/
theorem Exact.withTokens (h : p.Exact) {tokens : TokenStore} (ht : tokens.Exact) :
    ({ p with tokens } : Population).Exact := ⟨h.users, h.emails, ht⟩

/-- Caching a row keeps the agreement, and caching anything else breaks it. -/
theorem Exact.updateCache_iff (h : p.Exact) (u : UserInfo) :
    (p.updateCache svc u).Exact ↔ p.users.find? u.id = some u := by
  constructor
  · exact fun h' ↦ h'.users u.id u (by simp [updateCache])
  · intro hu
    refine ⟨fun id v hv ↦ ?_, fun e id v he hv ↦ ?_, h.tokens.cacheDeleteUserName svc u.id⟩
    · change (p.cacheById.insert u.id u).lookup id = some v at hv
      rw [Cache.lookup_insert_eq] at hv
      split at hv
      · rename_i hid
        obtain rfl := Option.some.inj hv
        exact hid ▸ hu
      · exact h.users id v hv
    · change (p.cacheByEMail.insert u.email u.id).lookup e = some id at he
      change p.users.find? id = some v at hv
      rw [Cache.lookup_insert_eq] at he
      split at he
      · rename_i hemail
        obtain rfl := Option.some.inj he
        obtain rfl := Option.some.inj (hu.symm.trans hv)
        exact hemail.symm
      · exact h.emails e id v he hv

/-- What a lookup by identifier finds is the row. -/
theorem Exact.getUserById_fst (h : p.Exact) (id : String) :
    (p.getUserById svc id).1 = p.users.find? id := by
  unfold getUserById getRecordById getFromCacheById
  split
  · rename_i u hu
    exact (h.users id u hu).symm
  · split
    · rename_i r hr
      exact hr.symm
    · rename_i hr
      exact hr.symm

theorem Exact.getUserById (h : p.Exact) (id : String) : (p.getUserById svc id).2.Exact := by
  unfold Population.getUserById getRecordById
  split
  · exact h
  · split
    · rename_i r hr
      refine (h.updateCache_iff svc r).mpr ?_
      rw [Table.key_of_find? hr]
      exact hr
    · exact h

theorem Exact.getRecordByEMail (h : p.Exact) (email : String) :
    (p.getRecordByEMail svc email).2.Exact := by
  unfold Population.getRecordByEMail
  split
  · exact h
  · split
    · rename_i r hr
      exact (h.updateCache_iff svc r).mpr (Table.select_eq_some hr).1
    · exact h

/-- Creating a user keeps the agreement when no cached address leads to the new identifier
already. -/
theorem Exact.createUser (h : p.Exact) {m : Moment} {u : UserInfo}
    (hstale : ∀ e, p.cacheByEMail.lookup e = some m.uuid → e = toLower u.email) :
    (p.createUser svc m u).2.Exact := by
  rcases createUser_cases svc (p := p) m u with hc | ⟨users, hins, hc⟩
  · rw [hc]
    exact h.getRecordByEMail svc _
  · have hlook := h.getRecordByEMail svc (toLower u.email)
    obtain ⟨hid, hemail, -⟩ := newRecord_fields svc m u
    have hfree := Table.find?_of_insert hins
    have hsome : (p.createUser svc m u).1.isSome = true := by rw [hc]; rfl
    -- the lookup of the address found nothing, so it cached nothing
    have hemails : (p.getRecordByEMail svc (toLower u.email)).2.cacheByEMail = p.cacheByEMail := by
      have hnone := ((createUser_isSome_iff svc).mp hsome).1
      unfold Population.getUserByEmail Population.getRecordByEMail at hnone
      unfold Population.getRecordByEMail
      split at hnone
      · cases hnone
      · split at hnone
        · cases hnone
        · rfl
    rw [hc]
    refine ⟨fun id v hv ↦ ?_, fun e id v he hv ↦ ?_, hlook.tokens⟩
    · show users.find? id = some v
      have hrow := hlook.users id v hv
      rw [getRecordByEMail_users] at hrow
      rw [Table.find?_insert hins, if_neg ?_]
      · exact hrow
      · rintro rfl
        rw [hfree] at hrow
        cases hrow
    · change users.find? id = some v at hv
      change (p.getRecordByEMail svc (toLower u.email)).2.cacheByEMail.lookup e = some id at he
      rw [hemails] at he
      rw [Table.find?_insert hins] at hv
      split at hv
      · rename_i hnew
        obtain rfl := Option.some.inj hv
        rw [hemail, hstale e (by rw [he, hnew, hid])]
      · exact h.emails e id v he hv

/-- Deleting a row takes its cached copy along. -/
theorem Exact.deleteUser (h : p.Exact) (id : String) : (p.deleteUser id).Exact := by
  refine ⟨fun k u hu ↦ ?_, fun e k u he hu ↦ ?_, h.tokens⟩
  · change (p.cacheById.erase id).lookup k = some u at hu
    rw [Cache.lookup_erase_eq] at hu
    rw [find?_deleteUser]
    split at hu
    · cases hu
    · rename_i hk
      rw [if_neg hk]
      exact h.users k u hu
  · rw [find?_deleteUser] at hu
    split at hu
    · cases hu
    · refine h.emails e k u ?_ hu
      have hevicts : Cache.Evicts p.cacheByEMail (p.cacheDelete id).cacheByEMail := by
        unfold cacheDelete
        simp only
        split
        · exact Cache.Evicts.erase _ _
        · exact Cache.Evicts.refl _
      exact hevicts e k he

/-- Recording a login keeps the agreement when the user is not cached, or is cached with the
same time already. -/
theorem Exact.setLastLogin (h : p.Exact) {now : ℕ} {id : String}
    (hcached : ∀ u, p.cacheById.lookup id = some u → u.lastLogin = now) :
    (p.setLastLogin now id).Exact := by
  refine ⟨fun k u hu ↦ ?_, fun e k u he hu ↦ ?_, h.tokens⟩
  · change p.cacheById.lookup k = some u at hu
    have hrow := h.users k u hu
    rw [find?_setLastLogin, hrow, Option.map_some, Option.some.injEq]
    split
    · rename_i hid
      have hk : k = id := (Table.key_of_find? hrow).symm.trans (beq_iff_eq.mp hid)
      rw [← hcached u (hk ▸ hu)]
    · rfl
  · rw [find?_setLastLogin] at hu
    obtain ⟨r, hr, rfl⟩ := Option.map_eq_some_iff.mp hu
    have hemail := h.emails e k r he hr
    split <;> exact hemail

/-- What an update under an identifier may find in the caches for them to agree afterwards:
there is a row to replace, or the record is a row already; a record that changes its
identifier leaves no cached copy behind; and no other address leads to it. -/
structure Updatable (p : Population) (id : String) (u : UserInfo) : Prop where
  row : (∃ r, p.users.find? id = some r) ∨ p.users.find? u.id = some u
  renamed : u.id = id ∨ p.cacheById.lookup id = none
  address : ∀ e, p.cacheByEMail.lookup e = some u.id → e = u.email

/-- Updating a record keeps the agreement. -/
theorem Exact.updateUserInfo (h : p.Exact) {id : String} {u : UserInfo} (hu : p.Updatable id u) :
    (p.updateUserInfo svc id u).2.Exact := by
  unfold Population.updateUserInfo updateRecord
  split
  · rename_i users hupdate
    -- what the table holds afterwards
    have hfind (k : String) : users.find? k =
        if k = u.id then some u else if k = id then none else p.users.find? k := by
      rcases hr : p.users.find? id with _ | r
      · rw [Table.update_of_find?_eq_none u hr] at hupdate
        obtain rfl := Option.some.inj hupdate
        have hrow : p.users.find? u.id = some u := by
          rcases hu.row with ⟨r, hr'⟩ | hrow
          · rw [hr] at hr'
            cases hr'
          · exact hrow
        by_cases hk : k = u.id
        · rw [if_pos hk, hk, hrow]
        · by_cases hkid : k = id
          · rw [if_neg hk, if_pos hkid, hkid, hr]
          · rw [if_neg hk, if_neg hkid]
      · exact Table.find?_update_row hupdate hr k
    refine ⟨fun k v hv ↦ ?_, fun e k v he hv ↦ ?_, h.tokens.cacheDeleteUserName svc u.id⟩
    · change (p.cacheById.insert u.id u).lookup k = some v at hv
      show users.find? k = some v
      rw [Cache.lookup_insert_eq] at hv
      rw [hfind]
      split at hv
      · rename_i hk
        rw [if_pos hk]
        exact hv
      · rename_i hk
        rw [if_neg hk, if_neg ?_]
        · exact h.users k v hv
        · rintro rfl
          rcases hu.renamed with hid | hnone
          · exact hk hid.symm
          · rw [hnone] at hv
            cases hv
    · change (p.cacheByEMail.insert u.email u.id).lookup e = some k at he
      change users.find? k = some v at hv
      rw [Cache.lookup_insert_eq] at he
      rw [hfind] at hv
      split at he
      · rename_i hemail
        obtain rfl := Option.some.inj he
        rw [if_pos rfl] at hv
        obtain rfl := Option.some.inj hv
        exact hemail.symm
      · split at hv
        · rename_i hk
          obtain rfl := Option.some.inj hv
          exact (hu.address e (hk ▸ he)).symm
        · split at hv
          · cases hv
          · exact h.emails e k v he hv
  · exact h

/-- Setting an avatar keeps the agreement: the record is the row that was just looked up. -/
theorem Exact.setAvatar (h : p.Exact) (now : ℕ) (id value : String) :
    (p.setAvatar svc now id value).2.Exact := by
  have hget := h.getUserById svc id
  have hfst := h.getUserById_fst svc id
  have husers := getUserById_users svc (p := p) id
  unfold Population.setAvatar
  unfold Population.getUserById at hget hfst husers
  rcases hl : p.getRecordById svc id with ⟨_ | u, q⟩
  · simpa only [hl] using hget
  · simp only [hl] at hget hfst husers ⊢
    have hrow : q.users.find? id = some u := husers ▸ hfst.symm
    have hid : u.id = id := Table.key_of_find? hrow
    refine hget.updateUserInfo svc ⟨.inl ⟨u, hrow⟩, .inl hid, fun e he ↦ ?_⟩
    exact (hget.emails e id u (hid ▸ he) hrow).symm

end Population

end OwSec
