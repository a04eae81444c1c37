import OwSec.Kit.Run
import OwSec.Storage.Coherence

/-!
# Runs of the service

What the service does to its stores over time, one operation after the other: logins,
refreshes, logouts and token checks, the periodic purge, the operations of the user store
that the handlers issue, and eviction from the caches at any point.  Every operation
carries its own clock and its own fresh values, so any amount of time may pass between two
operations and nothing is assumed about what is drawn afresh.

The one premise of an operation is that of `UpdateUserInfo`: each of its callers has just
looked the record up, or created it, so the record has a row.
-/

namespace OwSec

open SecurityObjects Kit

/-- An operation on one population. -/
inductive PopulationOp
  /-- `Authorize` or `AuthorizeSub`. -/
  | login (m : Moment) (userName password newPassword : String)
  /-- `RefreshUserToken` or `RefreshSubToken`. -/
  | refresh (m : Moment) (callToken refreshToken : String)
  /-- `Logout` or `SubLogout`. -/
  | logout (now : ℕ) (token : String)
  /-- `IsAuthorized`, `IsValidToken` and their subscriber variants. -/
  | checkToken (now : ℕ) (token : String)
  | addToken (now : ℕ) (userId token refreshToken : String) (expires timeOut : ℕ)
  | revokeToken (token : String)
  | revokeAllTokens (userId : String)
  | cleanExpiredTokens (now : ℕ)
  | createUser (m : Moment) (newUser : UserInfo)
  | updateUserInfo (user : UserInfo)
  | deleteUser (id : String)
  | deleteUserFromCache (id : String)
  | setAvatar (now : ℕ) (id value : String)
  | setLastLogin (now : ℕ) (id : String)
  | getUserById (id : String)
  | getUserByEmail (email : String)

namespace PopulationOp

variable (svc : Service)

/-- When an operation is issued. -/
def Enabled (p : Population) : PopulationOp → Prop
  | .updateUserInfo user => ∃ r, p.users.find? user.id = some r
  | _ => True

/-- What an operation does; `rule` is the password rule of the population. -/
def apply (rule : String → Bool) (p : Population) : PopulationOp → Population
  | .login m userName password newPassword =>
    (p.authorizeWith svc rule m userName password newPassword).2
  | .refresh m callToken refreshToken => (p.refreshTokenFor svc m callToken refreshToken).2
  | .logout now token => p.logoutOf svc now token
  | .checkToken now token => (p.checkToken svc now token).2
  | .addToken now userId token refreshToken expires timeOut =>
    { p with tokens := (p.tokens.addToken now userId token refreshToken expires timeOut).2 }
  | .revokeToken token => { p with tokens := p.tokens.revokeToken svc token }
  | .revokeAllTokens userId => { p with tokens := p.tokens.revokeAllTokens svc userId }
  | .cleanExpiredTokens now => { p with tokens := p.tokens.cleanExpiredTokens now }
  | .createUser m newUser => (p.createUser svc m newUser).2
  | .updateUserInfo user => (p.updateUserInfo svc user.id user).2
  | .deleteUser id => p.deleteUser id
  | .deleteUserFromCache id => p.deleteUserFromCache svc id
  | .setAvatar now id value => (p.setAvatar svc now id value).2
  | .setLastLogin now id => p.setLastLogin now id
  | .getUserById id => (p.getUserById svc id).2
  | .getUserByEmail email => (p.getUserByEmail svc email).2

/-- Every operation keeps the user cache coherent. -/
theorem coherent_apply (rule : String → Bool) {p : Population} (h : p.Coherent)
    (op : PopulationOp) (he : op.Enabled p) : (op.apply svc rule p).Coherent := by
  cases op with
  | login m userName password newPassword =>
    exact h.authorizeWith svc rule m userName password newPassword
  | refresh m callToken refreshToken => exact h.refreshTokenFor svc m callToken refreshToken
  | logout now token => exact h.logoutOf svc now token
  | checkToken now token => exact h.checkToken svc now token
  | createUser m newUser => exact h.createUser svc m newUser
  | updateUserInfo user =>
    obtain ⟨r, hr⟩ := he
    exact h.updateUserInfo svc hr
  | deleteUser id => exact h.deleteUser id
  | setAvatar now id value => exact h.setAvatar svc now id value
  | setLastLogin now id => exact h.setLastLogin now id
  | getUserById id => exact h.getUserById svc id
  | getUserByEmail email => exact h.getUserByEmail svc email
  | addToken | revokeToken | revokeAllTokens | cleanExpiredTokens | deleteUserFromCache =>
    exact h.withTokens _

end PopulationOp

/-- A population after some cache entries were dropped. -/
structure Population.Evicts (p q : Population) : Prop where
  users : q.users = p.users
  logins : q.logins = p.logins
  rows : q.tokens.rows = p.tokens.rows
  posted : q.tokens.posted = p.tokens.posted
  byId : Cache.Evicts p.cacheById q.cacheById
  byEMail : Cache.Evicts p.cacheByEMail q.cacheByEMail
  byToken : Cache.Evicts p.tokens.cache q.tokens.cache

/-- What happens in one step of the service. -/
inductive Event
  /-- An operation on the users (`false`) or the subscribers (`true`). -/
  | on (isSub : Bool) (op : PopulationOp)
  /-- `IsValidApiKey`. -/
  | checkApiKey (now : ℕ) (apiKey : String)
  /-- Caches drop entries. -/
  | evict
  /-- The tables and stores outside the two populations change. -/
  | elsewhere

namespace Storage

variable (svc : Service)

/-- The password rule of a population. -/
def passwordRule : Bool → String → Bool
  | false => validatePassword svc
  | true => validateSubPassword svc

/-- One step of the service. -/
inductive Step : Storage → Event → Storage → Prop
  | on {s : Storage} (isSub : Bool) (op : PopulationOp) (h : op.Enabled (s.population isSub)) :
    Step s (.on isSub op)
      (s.setPopulation isSub (op.apply svc (passwordRule svc isSub) (s.population isSub)))
  | checkApiKey {s : Storage} (now : ℕ) (apiKey : String) :
    Step s (.checkApiKey now apiKey) (s.isValidApiKey svc now apiKey).2
  | evict {s s' : Storage} (h : ∀ isSub, (s.population isSub).Evicts (s'.population isSub)) :
    Step s .evict s'
  | elsewhere {s s' : Storage} (hu : s'.user = s.user) (hs : s'.sub = s.sub) :
    Step s .elsewhere s'

/-- A service that has just started: the tables hold what they hold, the caches are empty. -/
def AtStart (s : Storage) : Prop :=
  ∀ isSub, (s.population isSub).cacheById = ∅ ∧ (s.population isSub).cacheByEMail = ∅ ∧
    (s.population isSub).tokens.cache = ∅

/-- The service as a transition system. -/
def system : System Storage Event where
  init := AtStart
  step := Step svc

/-- Both user caches are coherent. -/
def Coherent (s : Storage) : Prop := ∀ isSub, (s.population isSub).Coherent

/-- Replacing a population by a coherent one keeps coherence. -/
theorem Coherent.setPopulation {s : Storage} (h : s.Coherent) {isSub : Bool} {p : Population}
    (hp : p.Coherent) : (s.setPopulation isSub p).Coherent := by
  intro b
  by_cases hb : b = isSub
  · subst hb
    rw [population_setPopulation]
    exact hp
  · rw [population_setPopulation_ne s p hb]
    exact h b

@[simp] theorem updateApiKey_population (s : Storage) (id : String) (r : ApiKeyEntry)
    (isSub : Bool) : (s.updateApiKey id r).population isSub = s.population isSub := by
  unfold updateApiKey
  split
  · cases isSub <;> rfl
  · rfl

/-- Checking an API key keeps coherence. -/
theorem Coherent.isValidApiKey {s : Storage} (h : s.Coherent) (now : ℕ) (apiKey : String) :
    (s.isValidApiKey svc now apiKey).2.Coherent := by
  unfold Storage.isValidApiKey onPopulation
  split
  · exact h
  · rename_i entry _
    split
    · exact h
    · have hget := (h false).getUserById svc entry.userUuid
      rcases hl : (s.population false).getUserById svc entry.userUuid with ⟨_ | u, q⟩
      · simp only [hl] at hget ⊢
        exact h.setPopulation hget
      · simp only [hl] at hget ⊢
        split
        · exact h.setPopulation hget
        · intro b
          rw [updateApiKey_population]
          exact h.setPopulation hget b

/-- A step keeps coherence. -/
theorem Coherent.step {s s' : Storage} {e : Event} (h : s.Coherent) (hs : Step svc s e s') :
    s'.Coherent := by
  cases hs with
  | on isSub op he => exact h.setPopulation (op.coherent_apply svc _ (h isSub) he)
  | checkApiKey now apiKey => exact h.isValidApiKey svc now apiKey
  | evict he => exact fun b ↦ (h b).evicts (he b).users (he b).byId
  | elsewhere hu hs =>
    intro b
    cases b
    · exact (h false).congr (congrArg Population.users hu) (congrArg Population.cacheById hu)
    · exact (h true).congr (congrArg Population.users hs) (congrArg Population.cacheById hs)

/-- In every reachable state the user caches are coherent. -/
theorem coherent_of_reachable {s : Storage} (h : (system svc).Reachable s) : s.Coherent :=
  h.invariant (fun _ hs b ↦ Population.Coherent.of_empty (hs b).1) fun _ _ _ hi hs ↦ hi.step svc hs

/-- An operation that is issued in a reachable state leads to a reachable state. -/
theorem reachable_on {s : Storage} (h : (system svc).Reachable s) (isSub : Bool)
    (op : PopulationOp) (he : op.Enabled (s.population isSub)) :
    (system svc).Reachable
      (s.setPopulation isSub (op.apply svc (passwordRule svc isSub) (s.population isSub))) :=
  h.step (Step.on isSub op he)

/-- A service without users has just started. -/
theorem atStart_empty : AtStart {} := by
  intro isSub
  cases isSub <;> exact ⟨rfl, rfl, rfl⟩

/-! ## A short run

An account is created at time 100 and logs in; its token is valid for an hour. -/

/-- The account of the run. -/
def sampleUser : UserInfo :=
  { email := "jo@example.com", userRole := .ADMIN, currentPassword := "Secret-1" }

/-- The service after the account was created. -/
def sampleCreated (isSub : Bool) : Storage :=
  ({} : Storage).setPopulation isSub
    ((PopulationOp.createUser (.sample 100 "a") sampleUser).apply .sample
      (passwordRule .sample isSub) (({} : Storage).population isSub))

/-- The service after the account logged in. -/
def sampleLoggedIn (isSub : Bool) : Storage :=
  (sampleCreated isSub).setPopulation isSub
    ((PopulationOp.login (.sample 100 "b") "jo@example.com" "Secret-1" "").apply .sample
      (passwordRule .sample isSub) ((sampleCreated isSub).population isSub))

theorem reachable_sampleCreated (isSub : Bool) :
    (system .sample).Reachable (sampleCreated isSub) :=
  reachable_on .sample (.init atStart_empty) isSub (.createUser (.sample 100 "a") sampleUser) trivial

theorem reachable_sampleLoggedIn (isSub : Bool) :
    (system .sample).Reachable (sampleLoggedIn isSub) :=
  reachable_on .sample (reachable_sampleCreated isSub) isSub
    (.login (.sample 100 "b") "jo@example.com" "Secret-1" "") trivial

/-- The token that the login issued. -/
theorem resolve_sampleLoggedIn (isSub : Bool) :
    ((sampleLoggedIn isSub).population isSub).tokens.resolve "token-b" =
      some { token := "token-b", refreshToken := "refresh-b", tokenType := "Bearer",
             userName := "uuid-a", created := 100, expires := 3600, idleTimeout := 300 } := by
  cases isSub <;> decide

/-- The account has a row. -/
theorem find?_sampleLoggedIn (isSub : Bool) :
    ∃ u, ((sampleLoggedIn isSub).population isSub).users.find? "uuid-a" = some u := by
  cases isSub <;> exact Option.isSome_iff_exists.mp (by decide)

end Storage

end OwSec
