import OwSec.Storage.Runs

/-!
# The broadcast of revocations

When a user changes, or all of a user's tokens are revoked, the other services are told
through the bus to forget the user's tokens.  The events are produced by
`TokenCache::Delete("userName", …)`, which walks over the local token cache: a token of
the user is announced if it is in the cache at that moment, under an entry of that user,
and a row of the table that the cache does not hold is not announced.
-/

namespace OwSec

open SecurityObjects Kit

variable (svc : Service)

/-! ## What the walk over the cache announces -/

namespace TokenStore

/-- The token is cached, under an entry of the user. -/
def CachedFor (s : TokenStore) (userId token : String) : Prop :=
  ∃ c, s.cache.lookup token = some c ∧ c.userName = userId

/-- The events that the walk posts are those of the tokens it collects. -/
theorem cacheDeleteUserName_posted (s : TokenStore) (userId : String) :
    (s.cacheDeleteUserName svc userId).posted = s.posted ++
      if svc.kafkaEnabled then
        (Cache.keysWhere s.cache (·.userName == userId)).map (removeTokenEvent svc)
      else [] :=
  foldl_removeTokenSystemWide svc s.posted _

/-- The walk collects the tokens that are cached for the user. -/
theorem mem_collected_iff (s : TokenStore) (userId token : String) :
    token ∈ Cache.keysWhere s.cache (·.userName == userId) ↔ s.CachedFor userId token := by
  rw [Cache.mem_keysWhere]
  refine exists_congr fun c ↦ and_congr_right fun _ ↦ ?_
  exact beq_iff_eq

/-- After the walk no token is cached for the user, whether announced or not. -/
theorem not_cachedFor_cacheDeleteUserName (s : TokenStore) (userId token : String) :
    ¬ (s.cacheDeleteUserName svc userId).CachedFor userId token := by
  rintro ⟨c, hc, huser⟩
  change (Cache.removeAll s.cache (Cache.keysWhere s.cache (·.userName == userId))).lookup token
    = some c at hc
  rw [Cache.lookup_removeAll_keysWhere, Option.filter_eq_some_iff] at hc
  obtain ⟨-, hne⟩ := hc
  rw [huser] at hne
  simp at hne

end TokenStore

/-! ## The two operations that must broadcast -/

/-- An operation after which no service may go on serving the old state of a user. -/
inductive Revocation
  /-- `UpdateUserInfo`, of a record that its caller has just looked up. -/
  | updateUserInfo (user : UserInfo)
  /-- `RevokeAllTokens`. -/
  | revokeAllTokens (userId : String)

namespace Revocation

/-- The operation among those of the service. -/
def op : Revocation → PopulationOp
  | updateUserInfo user => .updateUserInfo user
  | revokeAllTokens userId => .revokeAllTokens userId

/-- The user whose tokens are to be announced. -/
def userId : Revocation → String
  | updateUserInfo user => user.id
  | revokeAllTokens userId => userId

/-- The operation posts the event of the token. -/
def Announces (rule : String → Bool) (p : Population) (r : Revocation) (token : String) : Prop :=
  ∃ events, (r.op.apply svc rule p).tokens.posted = p.tokens.posted ++ events ∧
    removeTokenEvent svc token ∈ events

/-- Either operation posts what the walk over the cache posts. -/
theorem apply_posted (rule : String → Bool) {p : Population} (r : Revocation)
    (he : r.op.Enabled p) :
    (r.op.apply svc rule p).tokens.posted =
      (p.tokens.cacheDeleteUserName svc r.userId).posted := by
  cases r with
  | updateUserInfo user =>
    obtain ⟨row, hrow⟩ := he
    obtain ⟨users, -, heq⟩ := p.updateUserInfo_eq svc user
    show (p.updateUserInfo svc user.id user).2.tokens.posted = _
    rw [heq]
    rfl
  | revokeAllTokens userId => rfl

/-- A token is announced exactly when it is cached for the user. -/
theorem announces_iff (hk : svc.kafkaEnabled = true) (rule : String → Bool) {p : Population}
    (r : Revocation) (he : r.op.Enabled p) (token : String) :
    r.Announces svc rule p token ↔ p.tokens.CachedFor r.userId token := by
  have hposted := p.tokens.cacheDeleteUserName_posted svc r.userId
  rw [if_pos hk, ← r.apply_posted svc rule he] at hposted
  have hcollected : r.Announces svc rule p token ↔ removeTokenEvent svc token ∈
      (Cache.keysWhere p.tokens.cache (·.userName == r.userId)).map (removeTokenEvent svc) := by
    constructor
    · rintro ⟨events, hevents, hmem⟩
      rw [hposted] at hevents
      rw [List.append_cancel_left hevents]
      exact hmem
    · intro hmem
      exact ⟨_, hposted, hmem⟩
  rw [hcollected, List.mem_map_of_injective (removeTokenEvent_injective svc)]
  exact p.tokens.mem_collected_iff r.userId token

end Revocation

/-- In every state, whatever the history of the cache, updating a user or revoking the
user's tokens announces every row of the token table that belongs to the user exactly when
each of these rows has its token in the cache under an entry of the user. -/
theorem revocation_announces_every_row_iff (hk : svc.kafkaEnabled = true) (s : Storage)
    (isSub : Bool) (r : Revocation) (he : r.op.Enabled (s.population isSub)) :
    (∀ t ∈ (s.population isSub).tokens.rows.rows, t.userName = r.userId →
        r.Announces svc (Storage.passwordRule svc isSub) (s.population isSub) t.token) ↔
      ∀ t ∈ (s.population isSub).tokens.rows.rows, t.userName = r.userId →
        (s.population isSub).tokens.CachedFor r.userId t.token := by
  refine forall_congr' fun t ↦ forall_congr' fun _ ↦ forall_congr' fun _ ↦ ?_
  exact r.announces_iff svc hk _ he t.token

/-- The statement for an update of the account that has just logged in. -/
theorem revocation_announces_every_row_iff_sample :
    Service.sample.kafkaEnabled = true ∧
      (Storage.system .sample).Reachable (Storage.sampleLoggedIn false) ∧
      ((∀ t ∈ ((Storage.sampleLoggedIn false).population false).tokens.rows.rows,
          t.userName = "uuid-a" →
          (Revocation.updateUserInfo { Storage.sampleUser with id := "uuid-a" }).Announces .sample
            (Storage.passwordRule .sample false) ((Storage.sampleLoggedIn false).population false)
            t.token) ↔
        ∀ t ∈ ((Storage.sampleLoggedIn false).population false).tokens.rows.rows,
          t.userName = "uuid-a" →
          ((Storage.sampleLoggedIn false).population false).tokens.CachedFor "uuid-a" t.token) :=
  ⟨rfl, Storage.reachable_sampleLoggedIn false,
    revocation_announces_every_row_iff .sample rfl (Storage.sampleLoggedIn false) false
      (.updateUserInfo { Storage.sampleUser with id := "uuid-a" })
      (Storage.find?_sampleLoggedIn false)⟩

/-- A token that was issued and not looked up since is in the table and not in the cache;
when its owner's record is updated, or all its owner's tokens are revoked, nothing is
posted for it. -/
theorem issued_token_not_announced :
    Service.sample.kafkaEnabled = true ∧
      (Storage.system .sample).Reachable (Storage.sampleLoggedIn false) ∧
      ∃ t ∈ ((Storage.sampleLoggedIn false).population false).tokens.rows.rows,
        t.userName = "uuid-a" ∧
        ¬ (Revocation.updateUserInfo { Storage.sampleUser with id := "uuid-a" }).Announces .sample
          (Storage.passwordRule .sample false) ((Storage.sampleLoggedIn false).population false)
          t.token ∧
        ¬ (Revocation.revokeAllTokens "uuid-a").Announces .sample
          (Storage.passwordRule .sample false) ((Storage.sampleLoggedIn false).population false)
          t.token := by
  have huncached (c : Token) :
      ((Storage.sampleLoggedIn false).population false).tokens.cache.lookup "token-b" ≠ some c := by
    have : ((Storage.sampleLoggedIn false).population false).tokens.cache.lookup "token-b" = none :=
      by decide
    rw [this]
    exact Option.some_ne_none c |>.symm
  refine ⟨rfl, Storage.reachable_sampleLoggedIn false,
    { token := "token-b", refreshToken := "refresh-b", tokenType := "Bearer",
      userName := "uuid-a", created := 100, expires := 3600, idleTimeout := 300 },
    by decide, rfl, ?_, ?_⟩
  · intro hannounced
    obtain ⟨c, hc, -⟩ := (Revocation.announces_iff .sample rfl _
      (.updateUserInfo { Storage.sampleUser with id := "uuid-a" })
      (Storage.find?_sampleLoggedIn false) "token-b").mp hannounced
    exact huncached c hc
  · intro hannounced
    obtain ⟨c, hc, -⟩ := (Revocation.announces_iff .sample rfl _ (.revokeAllTokens "uuid-a")
      trivial "token-b").mp hannounced
    exact huncached c hc

end OwSec
