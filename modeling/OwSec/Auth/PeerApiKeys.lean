import OwSec.Auth.AuthClient
import OwSec.Kit.Run

/-!
# API keys at a peer

A peer checks API keys with `AuthClient::IsValidApiKey`, one call after the other, while
its clock moves on, its cache drops entries and `remove-token` events arrive.  A call is
*lawful* when it accepts a key only on a positive last answer whose time is not over, and
when it does not ask the security service about a key that it has cached and whose time is
not over.

The comparison of the times in the cached part is the wrong way round: an entry is used
when its time is over and dropped while it is not.  So a call that finds its key in the
cache is never lawful, and a call that does not find it always is.
-/

namespace OwSec

open SecurityObjects Kit

namespace PeerApiKeys

open AuthClient (Reply ApiKeyCache ApiKeyCacheEntry Report Outcome)

/-- The security service, as `validateApiKey` shows it: the reply for each key at each
time. -/
structure ApiKeyService (lib : JsonLibrary) where
  reply : String → ℕ → Reply
  /-- A key is not confirmed once its time is over. -/
  unexpired : ∀ key now u expiresOn,
    (reply key now).apiKeyInformation lib = some (u, expiresOn) → now ≤ expiresOn
  /-- Until then the answer stays. -/
  fixed : ∀ key now now' u expiresOn,
    (reply key now).apiKeyInformation lib = some (u, expiresOn) → now ≤ now' → now' ≤ expiresOn →
      (reply key now').apiKeyInformation lib = some (u, expiresOn)

/-- What is remembered of a call. -/
structure Call where
  key : String
  now : ℕ
  /-- The entry that the cache had for the key. -/
  cached : Option ApiKeyCacheEntry
  outcome : Outcome
  /-- What the last reply for the key said, where it was positive. -/
  lastAnswer : Option (UserInfoAndPolicy × ℕ)
  deriving DecidableEq

/-- What a call has to be like. -/
structure Call.Lawful (c : Call) : Prop where
  /-- The key was confirmed last, and its time is not over. -/
  confirmed : c.outcome.accepted = true → ∃ u expiresOn,
    c.lastAnswer = some (u, expiresOn) ∧ c.now ≤ expiresOn
  /-- A cached key whose time is not over is not asked about. -/
  fromCache : ∀ e, c.cached = some e → c.now ≤ e.expiresOn → c.outcome.requested = false

/-- A peer, with a history of its calls. -/
structure State where
  cache : ApiKeyCache := ∅
  clock : ℕ := 0
  lastAnswer : String → Option (UserInfoAndPolicy × ℕ) := fun _ ↦ none
  calls : List Call := []

/-- What happens at the peer. -/
inductive Label
  /-- `IsValidApiKey`; `failed` is what a request that does not reach the security service
  brings back. -/
  | call (key : String) (now : ℕ) (failed : Option Reply)
  /-- `RemovedCachedToken`. -/
  | removed (key : String)
  /-- The cache drops entries. -/
  | evict

variable {lib : JsonLibrary} (service : ApiKeyService lib)

/-- What a request for a key brings back. -/
def replyTo (key : String) (now : ℕ) (failed : Option Reply) : Reply :=
  failed.getD (service.reply key now)

/-- What a call does, given what a request would bring back. -/
def State.call (lib : JsonLibrary) (s : State) (key : String) (now : ℕ) (reply : Reply) : State :=
  let (outcome, _, cache) := AuthClient.isValidApiKey lib now s.cache {} key reply
  let lastAnswer :=
    if outcome.requested then Function.update s.lastAnswer key (reply.apiKeyInformation lib)
    else s.lastAnswer
  { cache
    clock := now
    lastAnswer
    calls :=
      { key, now, cached := s.cache.lookup key, outcome, lastAnswer := lastAnswer key } :: s.calls }

/-- One step: the clock does not go back, and a failed request confirms nothing. -/
inductive Step : State → Label → State → Prop
  | call {s : State} {key : String} {now : ℕ} {failed : Option Reply} (hclock : s.clock ≤ now)
    (hfailed : ∀ r, failed = some r → r.apiKeyInformation lib = none) :
    Step s (.call key now failed) (s.call lib key now (replyTo service key now failed))
  | removed {s : State} {key : String} :
    Step s (.removed key) { s with cache := s.cache.erase key }
  | evict {s : State} {cache : ApiKeyCache} (h : Cache.Evicts s.cache cache) :
    Step s .evict { s with cache }

/-- A peer that starts with an empty cache. -/
def system : System State Label where
  init s := s = {}
  step := Step service

/-! ## One call -/

section Calls

variable {service} {s : State} {key : String} {now : ℕ} {reply : Reply}

/-- A call asks unless it finds an entry whose time is over. -/
theorem requested_isValidApiKey (c : ApiKeyCache) (report : Report) :
    (AuthClient.isValidApiKey lib now c report key reply).1.requested = true ↔
      ∀ e, c.lookup key = some e → now ≤ e.expiresOn := by
  unfold AuthClient.isValidApiKey
  split
  · rename_i e he
    split
    · rename_i hover
      simp only [he, Option.some.injEq, forall_eq', Bool.false_eq_true, false_iff, not_le]
      exact hover
    · rename_i htime
      simp only [he, Option.some.injEq, forall_eq', true_iff]
      exact Nat.le_of_not_lt htime
  · rename_i he
    simp [he]

/-- A call that asks answers what the reply says, and caches it under its key alone. -/
theorem isValidApiKey_of_requested {c : ApiKeyCache} {report : Report}
    (h : (AuthClient.isValidApiKey lib now c report key reply).1.requested = true) :
    (AuthClient.isValidApiKey lib now c report key reply).1.accepted =
        (reply.apiKeyInformation lib).isSome ∧
      ∀ k, (AuthClient.isValidApiKey lib now c report key reply).2.2.lookup k =
        if k = key then
          (reply.apiKeyInformation lib).map fun a ↦ { userInfo := a.1, expiresOn := a.2 }
        else c.lookup k := by
  -- what is left of the cache once the request is made
  have hcached (c₀ : ApiKeyCache) (h₀ : ∀ k, c₀.lookup k = if k = key then none else c.lookup k) :
      (AuthClient.retrieveApiKeyInformation lib c₀ report key reply).1 =
          (reply.apiKeyInformation lib).isSome ∧
        ∀ k, (AuthClient.retrieveApiKeyInformation lib c₀ report key reply).2.2.lookup k =
          if k = key then
            (reply.apiKeyInformation lib).map fun a ↦ { userInfo := a.1, expiresOn := a.2 }
          else c.lookup k := by
    obtain ⟨haccepted, hcache⟩ := AuthClient.retrieveApiKeyInformation_eq lib c₀ report
      key reply
    refine ⟨haccepted, fun k ↦ ?_⟩
    rw [hcache]
    rcases reply.apiKeyInformation lib with _ | ⟨u, expiresOn⟩
    · exact h₀ k
    · by_cases hk : k = key
      · rw [if_pos hk, hk, AList.lookup_insert]
        rfl
      · rw [if_neg hk, AList.lookup_insert_ne hk, h₀, if_neg hk]
  unfold AuthClient.isValidApiKey at h ⊢
  split
  · rename_i e he
    split
    · rename_i hover
      simp [he, hover] at h
    · exact hcached (c.erase key) fun k ↦ Cache.lookup_erase_eq c key k
  · rename_i hnone
    refine hcached c fun k ↦ ?_
    by_cases hk : k = key
    · rw [if_pos hk, hk, hnone]
    · rw [if_neg hk]

/-- A call that does not ask has found an entry whose time is over, accepts the key, and
leaves the cache alone. -/
theorem isValidApiKey_of_not_requested {c : ApiKeyCache} {report : Report}
    (h : (AuthClient.isValidApiKey lib now c report key reply).1.requested = false) :
    (AuthClient.isValidApiKey lib now c report key reply).1.accepted = true ∧
      (AuthClient.isValidApiKey lib now c report key reply).2.2 = c ∧
        ∃ e, c.lookup key = some e ∧ e.expiresOn < now := by
  unfold AuthClient.isValidApiKey at h ⊢
  split at h
  · rename_i e he
    split at h
    · rename_i hover
      simp only [he, hover, if_true, true_and]
      exact ⟨e, rfl, hover⟩
    · cases h
  · cases h

end Calls

/-! ## Runs -/

section Runs

variable {service}

/-- Every entry of the cache is what the last reply for its key said. -/
def State.Recorded (s : State) : Prop :=
  ∀ key e, s.cache.lookup key = some e → s.lastAnswer key = some (e.userInfo, e.expiresOn)

/-- A call keeps the record. -/
theorem State.Recorded.call {s : State} (h : s.Recorded) (key : String) (now : ℕ)
    (reply : Reply) : (s.call lib key now reply).Recorded := by
  intro k e he
  rcases hreq : (AuthClient.isValidApiKey lib now s.cache {} key reply).1.requested with _ | _
  · obtain ⟨-, hcache, -⟩ := isValidApiKey_of_not_requested hreq
    simp only [State.call, hreq, Bool.false_eq_true, if_false] at he ⊢
    rw [hcache] at he
    exact h k e he
  · obtain ⟨-, hcache⟩ := isValidApiKey_of_requested hreq
    simp only [State.call, hreq, if_true] at he ⊢
    rw [hcache] at he
    by_cases hk : k = key
    · subst hk
      rw [if_pos rfl] at he
      obtain ⟨a, ha, rfl⟩ := Option.map_eq_some_iff.mp he
      rw [Function.update_self, ha]
    · rw [if_neg hk] at he
      rw [Function.update_of_ne hk]
      exact h k e he

/-- A step keeps the record. -/
theorem State.Recorded.step {s s' : State} {l : Label} (h : s.Recorded)
    (hstep : Step service s l s') : s'.Recorded := by
  cases hstep with
  | call _ _ => exact h.call _ _ _
  | removed => exact fun k e he ↦ h k e (Cache.Evicts.erase _ _ _ _ he)
  | evict hev => exact fun k e he ↦ h k e (hev _ _ he)

/-- A call is lawful exactly when it does not find its key in the cache. -/
theorem lawful_call_iff {s : State} (h : s.Recorded) {key : String} {now : ℕ}
    {failed : Option Reply}
    (hfailed : ∀ r, failed = some r → r.apiKeyInformation lib = none) (c : Call)
    (hc : (s.call lib key now (replyTo service key now failed)).calls = c :: s.calls) :
    c.Lawful ↔ c.cached = none := by
  rcases hreq : (AuthClient.isValidApiKey lib now s.cache {} key
    (replyTo service key now failed)).1.requested with _ | _
  · -- the entry is used though its time is over
    obtain ⟨haccepted, -, e, he, hover⟩ := isValidApiKey_of_not_requested hreq
    simp only [State.call, hreq, Bool.false_eq_true, if_false, List.cons.injEq, and_true] at hc
    subst hc
    simp only [he, reduceCtorEq, iff_false]
    rintro ⟨hconfirmed, -⟩
    obtain ⟨u, expiresOn, hlast, htime⟩ := hconfirmed haccepted
    rw [h key e he] at hlast
    cases hlast
    exact Nat.not_lt.mpr htime hover
  · have htime := (requested_isValidApiKey s.cache {}).mp hreq
    obtain ⟨haccepted, -⟩ := isValidApiKey_of_requested hreq
    simp only [State.call, hreq, if_true, Function.update_self, List.cons.injEq, and_true] at hc
    subst hc
    constructor
    · -- an entry whose time is not over is not used
      rintro ⟨-, hfrom⟩
      rcases he : s.cache.lookup key with _ | e
      · rfl
      · exact absurd (hfrom e he (htime e he)) (by simp [hreq])
    · intro hnone
      refine ⟨fun hacc ↦ ?_, fun e he ↦ ?_⟩
      · rw [haccepted] at hacc
        obtain ⟨⟨u, expiresOn⟩, hreply⟩ := Option.isSome_iff_exists.mp hacc
        refine ⟨u, expiresOn, hreply, ?_⟩
        rcases hf : failed with _ | r
        · rw [hf] at hreply
          exact service.unexpired key now u expiresOn hreply
        · rw [hf] at hreply
          exact absurd (hfailed r hf) (by rw [show r.apiKeyInformation lib = _ from hreply]; simp)
      · rw [hnone] at he
        cases he

/-- In every run, the calls that are lawful are those that do not find their key in the
cache; so all of them are exactly when no call finds its key there. -/
theorem lawful_iff {s : State} (h : (system service).Reachable s) :
    (∀ c ∈ s.calls, c.Lawful) ↔ ∀ c ∈ s.calls, c.cached = none := by
  have hinv : s.Recorded ∧ ∀ c ∈ s.calls, (c.Lawful ↔ c.cached = none) := by
    refine System.Reachable.invariant
      (I := fun s ↦ s.Recorded ∧ ∀ c ∈ s.calls, (c.Lawful ↔ c.cached = none)) ?_ ?_ h
    · rintro s rfl
      exact ⟨fun k e he ↦ by simp at he, fun c hc ↦ by cases hc⟩
    · rintro s l s' ⟨hrec, hcalls⟩ hstep
      refine ⟨hrec.step hstep, ?_⟩
      cases hstep with
      | call hclock hfailed =>
        intro c hc
        rcases List.mem_cons.mp hc with rfl | hc
        · exact lawful_call_iff hrec hfailed _ rfl
        · exact hcalls c hc
      | removed => exact hcalls
      | evict hev => exact hcalls
  exact forall₂_congr hinv.2

end Runs

/-! ## A key that outlives its time -/

/-- The reply that confirms a key until the time 100. -/
def sampleReply : Reply :=
  .status 200 [("tokenInfo", .obj []), ("userInfo", .obj []), ("expiresOn", .int 100)]

/-- A security service that confirms every key until the time 100. -/
def sampleService : ApiKeyService .sample where
  reply _ now := if now ≤ 100 then sampleReply else .status 403
  unexpired key now u expiresOn h := by
    by_cases hnow : now ≤ 100
    · rw [if_pos hnow] at h
      cases h
      exact hnow
    · rw [if_neg hnow] at h
      cases h
  fixed key now now' u expiresOn h hle hle' := by
    by_cases hnow : now ≤ 100
    · rw [if_pos hnow] at h
      cases h
      have hnow' : now' ≤ 100 := hle'
      rw [if_pos hnow']
      rfl
    · rw [if_neg hnow] at h
      cases h

/-- The key is confirmed at the time 50, and asked for again when its time is over. -/
def sampleCalls : State :=
  ((({} : State).call .sample "key" 50 sampleReply).call
    .sample "key" 101 (.status 403))

theorem reachable_sampleCalls : (system sampleService).Reachable sampleCalls := by
  have hfirst : Step sampleService {} (.call "key" 50 none)
      (({} : State).call .sample "key" 50 sampleReply) :=
    Step.call (Nat.zero_le 50) (fun _ h ↦ by cases h)
  have hsecond : Step sampleService (({} : State).call .sample "key" 50 sampleReply)
      (.call "key" 101 none) sampleCalls :=
    Step.call (show 50 ≤ 101 by decide) (fun _ h ↦ by cases h)
  exact (System.Reachable.init (S := system sampleService) rfl).step hfirst |>.step hsecond

/-- The equivalence in the state after the two calls. -/
theorem lawful_iff_sample :
    (∀ c ∈ sampleCalls.calls, c.Lawful) ↔ ∀ c ∈ sampleCalls.calls, c.cached = none :=
  lawful_iff reachable_sampleCalls

/-- The second call accepts the key, which has expired, without a request. -/
theorem expired_key_accepted : (system sampleService).Reachable sampleCalls ∧
    ∃ c ∈ sampleCalls.calls, c.now = 101 ∧ c.cached.map (·.expiresOn) = some 100 ∧
      c.outcome = { requested := false, accepted := true } ∧ ¬ c.Lawful := by
  refine ⟨reachable_sampleCalls, _, List.mem_cons_self, rfl, rfl, rfl, ?_⟩
  rintro ⟨hconfirmed, -⟩
  obtain ⟨u, expiresOn, hlast, htime⟩ := hconfirmed rfl
  cases hlast
  exact absurd htime (by decide)

end PeerApiKeys

end OwSec
