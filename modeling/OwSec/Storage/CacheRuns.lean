import OwSec.Storage.Exact
import OwSec.Storage.Runs

/-!
# What lookups answer over a run

The operations of the user store and of the token store, one after the other and each of
them successful, with evictions in between.  As long as no operation leaves a cached record
behind that its table no longer has, every lookup answers from the caches what the tables
hold.  The operations that can leave one behind are `SetLastLogin` and
`CleanExpiredTokens`, which write the tables past the caches, and `UpdateUserInfo`, which
writes the caches whether or not there is a row.
-/

namespace OwSec

open SecurityObjects Kit

/-- An operation on the stores of one population. -/
inductive StoreOp
  | createUser (m : Moment) (newUser : UserInfo)
  | updateUserInfo (id : String) (user : UserInfo)
  | deleteUser (id : String)
  | setAvatar (now : ℕ) (id value : String)
  | setLastLogin (now : ℕ) (id : String)
  | addToken (now : ℕ) (userId token refreshToken : String) (expires timeOut : ℕ)
  | refreshToken (now : ℕ) (oldToken newToken newRefreshToken : String) (lastRefresh : ℕ)
  | revokeToken (token : String)
  | revokeAllTokens (userId : String)
  | cleanExpiredTokens (now : ℕ)
  | getUserById (id : String)
  | getUserByEmail (email : String)
  | getToken (token : String)

namespace StoreOp

variable (svc : Service)

/-- What an operation does. -/
def apply (p : Population) : StoreOp → Population
  | .createUser m newUser => (p.createUser svc m newUser).2
  | .updateUserInfo id user => (p.updateUserInfo svc id user).2
  | .deleteUser id => p.deleteUser id
  | .setAvatar now id value => (p.setAvatar svc now id value).2
  | .setLastLogin now id => p.setLastLogin now id
  | .addToken now userId token refresh expires timeOut =>
    { p with tokens := (p.tokens.addToken now userId token refresh expires timeOut).2 }
  | .refreshToken now oldToken newToken newRefreshToken lastRefresh =>
    { p with
      tokens := (p.tokens.refreshToken svc now oldToken newToken newRefreshToken lastRefresh).2 }
  | .revokeToken token => { p with tokens := p.tokens.revokeToken svc token }
  | .revokeAllTokens userId => { p with tokens := p.tokens.revokeAllTokens svc userId }
  | .cleanExpiredTokens now => { p with tokens := p.tokens.cleanExpiredTokens now }
  | .getUserById id => (p.getUserById svc id).2
  | .getUserByEmail email => (p.getUserByEmail svc email).2
  | .getToken token => { p with tokens := (p.tokens.getRecord token).2 }

/-- The operation answers `true`, and no statement that it sends to the database is refused. -/
def Successful (p : Population) : StoreOp → Prop
  | .createUser m newUser => (p.createUser svc m newUser).1.isSome = true
  | .updateUserInfo id user => (p.updateUserInfo svc id user).1 = true
  | .setAvatar now id value => (p.setAvatar svc now id value).1 = true
  | .addToken now userId token refresh expires timeOut =>
    (p.tokens.addToken now userId token refresh expires timeOut).1 = true
  | .refreshToken now oldToken newToken newRefreshToken lastRefresh =>
    (p.tokens.refreshToken svc now oldToken newToken newRefreshToken lastRefresh).1 = true ∧
      (newToken = oldToken ∨ p.tokens.rows.find? newToken = none)
  | _ => True

/-- The operation leaves no cached record behind. -/
def Safe (p : Population) : StoreOp → Prop
  | .createUser m newUser =>
    ∀ e, p.cacheByEMail.lookup e = some m.uuid → e = toLower newUser.email
  | .updateUserInfo id user => p.Updatable id user
  | .setLastLogin now id => ∀ u, p.cacheById.lookup id = some u → u.lastLogin = now
  | .cleanExpiredTokens now =>
    ∀ k t, p.tokens.cache.lookup k = some t → now < t.created + t.expires
  | _ => True

end StoreOp

/-- One step of the stores: an operation succeeds, or the caches drop entries. -/
inductive StoreStep (svc : Service) : Population → Option StoreOp → Population → Prop
  | op {p : Population} (op : StoreOp) (h : op.Successful svc p) :
    StoreStep svc p (some op) (op.apply svc p)
  | evict {p q : Population} (h : p.Evicts q) : StoreStep svc p none q

/-- The stores as a transition system; the caches are empty at first. -/
def storeSystem (svc : Service) : System Population (Option StoreOp) where
  init p := p.cacheById = ∅ ∧ p.cacheByEMail = ∅ ∧ p.tokens.cache = ∅
  step := StoreStep svc

/-- The step is an eviction, or an operation that leaves no cached record behind. -/
def SafeStep (p : Population) : Option StoreOp → Prop
  | some op => op.Safe p
  | none => True

/-- Every record that a lookup answers from a cache is the row that the table holds now, with
the identifier, the address or the token that the lookup is about. -/
structure LookupsFaithful (p : Population) : Prop where
  byId : ∀ id u, p.getFromCacheById id = some u → p.users.find? id = some u
  byEMail : ∀ e u, p.getFromCacheByEMail e = some u → p.users.find? u.id = some u ∧ u.email = e
  byToken : ∀ t r, p.tokens.getFromCache t = some r → p.tokens.rows.find? t = some r

section Runs

variable {svc : Service} {p q : Population}

/-- Caches that agree with their tables answer what the tables hold. -/
theorem Population.Exact.lookupsFaithful (h : p.Exact) : LookupsFaithful p := by
  refine ⟨h.users, fun e u hu ↦ ?_, h.tokens⟩
  unfold Population.getFromCacheByEMail at hu
  split at hu
  · rename_i id hid
    have hrow := h.users id u hu
    obtain rfl : u.id = id := Table.key_of_find? hrow
    exact ⟨hrow, h.emails e u.id u hid hrow⟩
  · cases hu

/-- A successful operation that leaves no cached record behind keeps the caches in agreement. -/
theorem Population.Exact.apply (h : p.Exact) {op : StoreOp} (hop : op.Successful svc p)
    (hsafe : StoreOp.Safe p op) : (op.apply svc p).Exact := by
  cases op with
  | createUser m newUser => exact h.createUser svc hsafe
  | updateUserInfo id user => exact h.updateUserInfo svc hsafe
  | deleteUser id => exact h.deleteUser id
  | setAvatar now id value => exact h.setAvatar svc now id value
  | setLastLogin now id => exact h.setLastLogin hsafe
  | addToken now userId token refreshToken expires timeOut =>
    exact h.withTokens (h.tokens.addToken now userId token refreshToken expires timeOut)
  | refreshToken now oldToken newToken newRefreshToken lastRefresh =>
    exact h.withTokens (h.tokens.refreshToken svc _ _ _ _ _ hop.2).1
  | revokeToken token => exact h.withTokens (h.tokens.deleteRecord svc token)
  | revokeAllTokens userId => exact h.withTokens (h.tokens.revokeAllTokens svc userId)
  | cleanExpiredTokens now => exact h.withTokens (h.tokens.cleanExpiredTokens now hsafe)
  | getUserById id => exact h.getUserById svc id
  | getUserByEmail email => exact h.getRecordByEMail svc email
  | getToken token => exact h.withTokens (h.tokens.getRecord token)

/-- A step that leaves no cached record behind keeps the caches in agreement. -/
theorem Population.Exact.step {op : Option StoreOp} (h : p.Exact) (hstep : StoreStep svc p op q)
    (hsafe : SafeStep p op) : q.Exact := by
  cases hstep with
  | op o ho => exact h.apply ho hsafe
  | evict he =>
    exact h.evicts he.users he.byId he.byEMail (h.tokens.evicts he.rows he.byToken)

/-- Over any run of successful operations and evictions that leaves no cached record behind,
every lookup answers from the caches what the tables hold. -/
theorem lookups_faithful_of_run (h : ((storeSystem svc).restrict SafeStep).Reachable p) :
    LookupsFaithful p := by
  have hexact : p.Exact := by
    refine h.invariant (fun p hp ↦ ?_) fun p op q hp hstep ↦ hp.step hstep.1 hstep.2
    obtain ⟨hid, hemail, htoken⟩ := hp
    exact Population.Exact.of_empty hid hemail htoken
  exact hexact.lookupsFaithful

end Runs

/-! ## A login that the cache does not see -/

/-- A subscriber is created and looked up. -/
def sampleLookup : List StoreOp :=
  [.createUser (.sample 100 "a") { email := "jo@example.com" }, .getUserById "uuid-a"]

/-- The stores after some operations. -/
def StoreOp.applyAll (svc : Service) (p : Population) (ops : List StoreOp) : Population :=
  ops.foldl (fun p op ↦ op.apply svc p) p

/-- The created user is cached, and the caches agree with the tables. -/
theorem lookups_faithful_of_run_sample :
    LookupsFaithful (StoreOp.applyAll .sample {} sampleLookup) := by
  have hstart : ((storeSystem .sample).restrict SafeStep).Reachable {} :=
    .init ⟨rfl, rfl, rfl⟩
  have hcreated : ((storeSystem .sample).restrict SafeStep).Reachable
      (StoreOp.applyAll .sample {} [.createUser (.sample 100 "a") { email := "jo@example.com" }]) := by
    refine hstart.step ⟨.op (.createUser (.sample 100 "a") { email := "jo@example.com" }) ?_, ?_⟩
    · show (Population.createUser _ _ _ _).1.isSome = true
      decide
    · intro e he
      simp at he
  exact lookups_faithful_of_run (hcreated.step ⟨.op (.getUserById "uuid-a") trivial, trivial⟩)

/-- Recording a login leaves the cached record behind. -/
theorem cached_user_misses_login :
    (storeSystem .sample).Reachable
      (StoreOp.applyAll .sample {} (sampleLookup ++ [.setLastLogin 200 "uuid-a"])) ∧
    ¬ LookupsFaithful
      (StoreOp.applyAll .sample {} (sampleLookup ++ [.setLastLogin 200 "uuid-a"])) := by
  constructor
  · have hstart : (storeSystem .sample).Reachable {} := .init ⟨rfl, rfl, rfl⟩
    have hcreated := hstart.step (StoreStep.op
      (.createUser (.sample 100 "a") { email := "jo@example.com" })
      (by show (Population.createUser _ _ _ _).1.isSome = true; decide))
    have hcached := hcreated.step (StoreStep.op (.getUserById "uuid-a") trivial)
    exact hcached.step (StoreStep.op (.setLastLogin 200 "uuid-a") trivial)
  · intro h
    have hcached : ∃ u, (StoreOp.applyAll .sample {}
        (sampleLookup ++ [.setLastLogin 200 "uuid-a"])).getFromCacheById "uuid-a" = some u ∧
          u.lastLogin = 0 := ⟨_, rfl, rfl⟩
    obtain ⟨u, hu, hzero⟩ := hcached
    have hrow : ((StoreOp.applyAll .sample {}
        (sampleLookup ++ [.setLastLogin 200 "uuid-a"])).users.find? "uuid-a").map
          UserInfo.lastLogin = some 200 := by decide
    rw [h.byId _ u hu, Option.map_some, hzero] at hrow
    exact absurd hrow (by decide)

end OwSec
