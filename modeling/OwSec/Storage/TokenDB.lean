import OwSec.Kit.Cache
import OwSec.Kit.Table
import OwSec.Service

/-!
# The token store

`BaseTokenDB` and its `TokenCache` (`storage/orm_tokens.cpp`, over the record functions of
`framework/orm.h`).  One store serves the users and one the subscribers; both are the same
code, so both are this structure.

A lookup asks the cache first and fills it from the table on a miss; a delete or an update
of a row also touches the cache.  Deletions by a condition (`CleanExpiredTokens`, the
table half of `RevokeAllTokens`) go to the table alone.  Eviction is not an operation of
this file: a system that uses the store may evict between any two operations.
-/

namespace OwSec

open SecurityObjects Kit

/-- The `Tokens` (or `SubTokens`) table, its cache, and what the cache has posted. -/
structure TokenStore where
  /-- The rows of the table, by `token`. -/
  rows : Table String Token Token.token := .empty
  /-- `CacheByToken_`. -/
  cache : Cache String Token := ∅
  /-- The `remove-token` messages posted so far. -/
  posted : List BusMessage := []

instance : Inhabited TokenStore := ⟨{}⟩

namespace TokenStore

variable (svc : Service)

/-! ## `TokenCache` -/

/-- `TokenCache::UpdateCache`. -/
def updateCache (s : TokenStore) (r : Token) : TokenStore :=
  { s with cache := s.cache.insert r.token r }

/-- `TokenCache::GetFromCache("token", …)`. -/
def getFromCache (s : TokenStore) (token : String) : Option Token := s.cache.lookup token

/-- `TokenCache::Delete("token", …)`: the event is posted whether or not the token is
cached. -/
def cacheDelete (s : TokenStore) (token : String) : TokenStore :=
  { s with posted := removeTokenSystemWide svc s.posted token, cache := s.cache.erase token }

/-- `TokenCache::Delete("userName", …)`: only the tokens found in the cache are announced
and removed. -/
def cacheDeleteUserName (s : TokenStore) (userName : String) : TokenStore :=
  let tokenToRemove := Cache.keysWhere s.cache (·.userName == userName)
  { s with
    posted := tokenToRemove.foldl (removeTokenSystemWide svc) s.posted
    cache := Cache.removeAll s.cache tokenToRemove }

/-! ## `ORM::DB` at the token table -/

/-- `GetRecord("token", …)`. -/
def getRecord (s : TokenStore) (token : String) : Option Token × TokenStore :=
  match s.getFromCache token with
  | some r => (some r, s)
  | none =>
    match s.rows.find? token with
    | some r => (some r, s.updateCache r)
    | none => (none, s)

/-- `CreateRecord`; `TokenCache::Create` does nothing. -/
def createRecord (s : TokenStore) (r : Token) : Bool × TokenStore :=
  match s.rows.insert r with
  | some rows => (true, { s with rows })
  | none => (false, s)

/-- `UpdateRecord("token", …)`: the cache receives the new record even if no row had the
old token; a clash with another row's token fails. -/
def updateRecord (s : TokenStore) (token : String) (r : Token) : Bool × TokenStore :=
  match s.rows.update token r with
  | some rows => (true, { s with rows }.updateCache r)
  | none => (false, s)

/-- `DeleteRecord("token", …)`. -/
def deleteRecord (s : TokenStore) (token : String) : TokenStore :=
  { s with rows := s.rows.delete token }.cacheDelete svc token

/-! ## `BaseTokenDB` -/

/-- What `GetToken` copies from a row into a `WebToken`. -/
def webTokenOf (t : Token) (wt : WebToken := {}) : WebToken :=
  { wt with
    accessToken := t.token
    refreshToken := t.refreshToken
    tokenType := t.tokenType
    username := t.userName
    created := t.created
    expiresIn := t.expires
    idleTimeout := t.idleTimeout
    lastRefresh := t.lastRefresh }

/-- `AddToken`: the creation time is read inside, the type is fixed. -/
def addToken (now : ℕ) (s : TokenStore) (userId token refreshToken : String)
    (expires timeOut : ℕ) : Bool × TokenStore :=
  s.createRecord
    { token := token
      refreshToken := refreshToken
      tokenType := "Bearer"
      userName := userId
      created := now
      expires := expires
      idleTimeout := timeOut
      revocationDate := 0 }

/-- `RefreshToken`: the result of the update of the row is not looked at. -/
def refreshToken (now : ℕ) (s : TokenStore) (oldToken newToken newRefreshToken : String)
    (lastRefresh : ℕ) : Bool × TokenStore :=
  match s.getRecord oldToken with
  | (some t, s) =>
    let t' : Token :=
      { t with
        token := newToken
        refreshToken := newRefreshToken
        lastRefresh := lastRefresh
        created := now }
    let s := (s.updateRecord oldToken t').2
    let s := s.cacheDelete svc oldToken
    (true, s.updateCache t')
  | (none, s) => (false, s)

/-- `RevokeToken`. -/
def revokeToken (s : TokenStore) (token : String) : TokenStore := s.deleteRecord svc token

/-- `CleanExpiredTokens`: the sum is computed by the database. -/
def cleanExpiredTokens (now : ℕ) (s : TokenStore) : TokenStore :=
  { s with rows := s.rows.deleteWhere fun t ↦ t.created + t.expires ≤ now }

/-- `RevokeAllTokens`.  The identifier is pasted into the condition between quotes; it is
a UUID or an e-mail address, and neither can contain a quote. -/
def revokeAllTokens (s : TokenStore) (userId : String) : TokenStore :=
  { s with rows := s.rows.deleteWhere fun t ↦ t.userName == userId }.cacheDeleteUserName svc userId

/-! ## What the operations leave behind -/

/-- The record that a lookup finds: the cached one, else the row. -/
def resolve (s : TokenStore) (token : String) : Option Token :=
  (s.getFromCache token).or (s.rows.find? token)

@[simp] theorem getRecord_fst (s : TokenStore) (token : String) :
    (s.getRecord token).1 = s.resolve token := by
  unfold getRecord resolve
  cases s.getFromCache token with
  | some r => rfl
  | none => cases s.rows.find? token <;> rfl

/-- A lookup leaves the table alone. -/
@[simp] theorem getRecord_rows (s : TokenStore) (token : String) :
    (s.getRecord token).2.rows = s.rows := by
  unfold getRecord
  split
  · rfl
  · split <;> rfl

/-- Looking a token up does not change what lookups find. -/
@[simp] theorem resolve_getRecord_snd (s : TokenStore) (token k : String) :
    (s.getRecord token).2.resolve k = s.resolve k := by
  unfold getRecord resolve getFromCache
  rcases hcache : s.cache.lookup token with _ | r
  · rcases hrow : s.rows.find? token with _ | r
    · rfl
    · have htoken : r.token = token := Table.key_of_find? hrow
      simp only [updateCache]
      by_cases hk : k = token
      · subst hk
        rw [htoken, AList.lookup_insert, hcache, hrow]
        rfl
      · rw [htoken, AList.lookup_insert_ne hk]
  · rfl

/-- A lookup caches no other token. -/
theorem lookup_getRecord_eq_none {s : TokenStore} {token k : String} (hne : k ≠ token)
    (h : s.cache.lookup k = none) : (s.getRecord token).2.cache.lookup k = none := by
  unfold getRecord
  split
  · exact h
  · split
    · rename_i row hrow
      have hkey : row.token = token := Table.key_of_find? hrow
      show (s.cache.insert row.token row).lookup k = none
      rw [Cache.lookup_insert_eq, if_neg (hkey ▸ hne)]
      exact h
    · exact h

/-- A lookup that finds nothing leaves the store. -/
theorem getRecord_of_none {s : TokenStore} {token : String} (h : (s.getRecord token).1 = none) :
    (s.getRecord token).2 = s := by
  unfold getRecord at h ⊢
  split at h
  · cases h
  · split at h
    · cases h
    · rfl

section Refreshed

variable {store : TokenStore} {now lastRefresh : ℕ}
  {token oldToken newToken newRefreshToken : String}

/-- A refresh adds no row but that of the new token. -/
theorem find?_refreshToken_eq_none (hne : token ≠ newToken)
    (h : store.rows.find? token = none) :
    (store.refreshToken svc now oldToken newToken newRefreshToken lastRefresh).2.rows.find? token =
      none := by
  have hrows := store.getRecord_rows oldToken
  unfold refreshToken
  rcases hget : store.getRecord oldToken with ⟨_ | row, found⟩
  · rw [hget] at hrows
    exact hrows ▸ h
  · rw [hget] at hrows
    simp only [updateRecord]
    split
    · rename_i rows hupdate
      refine Table.find?_update_eq_none hupdate hne ?_
      exact hrows ▸ h
    · exact hrows ▸ h

/-- It caches no other one. -/
theorem lookup_refreshToken_eq_none (hne : token ≠ newToken)
    (h : store.cache.lookup token = none) :
    (store.refreshToken svc now oldToken newToken newRefreshToken lastRefresh).2.cache.lookup
      token = none := by
  unfold refreshToken
  rcases hfound : store.getRecord oldToken with ⟨_ | row, found⟩
  · have hsame : (store.getRecord oldToken).2 = store := getRecord_of_none (by rw [hfound])
    rw [hfound] at hsame
    exact hsame ▸ h
  · -- the lookup of the old token may cache it, and then it is erased
    have hget (hold : token ≠ oldToken) : found.cache.lookup token = none := by
      have hget := lookup_getRecord_eq_none hold h
      rwa [hfound] at hget
    have hrest (cache : Cache String Token)
        (hcache : token ≠ oldToken → cache.lookup token = none) :
        ((cache.erase oldToken).insert newToken
          { row with
            token := newToken
            refreshToken := newRefreshToken
            lastRefresh := lastRefresh
            created := now }).lookup token = none := by
      rw [Cache.lookup_insert_eq, if_neg hne, Cache.lookup_erase_eq]
      split
      · rfl
      · rename_i hold
        exact hcache hold
    simp only [updateRecord]
    split
    · refine hrest _ fun hold ↦ ?_
      show (found.cache.insert newToken _).lookup token = none
      rw [Cache.lookup_insert_eq, if_neg hne]
      exact hget hold
    · exact hrest _ hget

/-- A refresh takes the row of the old token. -/
theorem find?_refreshToken_oldToken {row : Token}
    (hrow : store.rows.find? oldToken = some row) (hfree : store.rows.find? newToken = none) :
    (store.refreshToken svc now oldToken newToken newRefreshToken lastRefresh).2.rows.find?
      oldToken = none := by
  have hrows := store.getRecord_rows oldToken
  have hne : oldToken ≠ newToken := by
    rintro rfl
    rw [hrow] at hfree
    cases hfree
  have hsome : (store.getRecord oldToken).1 ≠ none := by
    rw [getRecord_fst]
    unfold resolve
    rw [hrow]
    cases store.getFromCache oldToken <;> simp
  unfold refreshToken
  rcases hget : store.getRecord oldToken with ⟨_ | old, found⟩
  · rw [hget] at hsome
    exact absurd rfl hsome
  · rw [hget] at hrows
    simp only [updateRecord]
    rw [← hrows] at hrow hfree
    obtain ⟨rows, hupdate⟩ := Option.ne_none_iff_exists'.mp fun hnone ↦
      (Table.update_eq_none_iff (r := { old with
        token := newToken
        refreshToken := newRefreshToken
        lastRefresh := lastRefresh
        created := now }) hrow).mp hnone (.inr hfree)
    rw [hupdate]
    show rows.find? oldToken = none
    rw [Table.find?_update_row hupdate hrow, if_neg hne, if_pos rfl]

end Refreshed

end TokenStore

end OwSec
