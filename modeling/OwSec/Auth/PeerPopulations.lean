import OwSec.Auth.AuthClient
import OwSec.Kit.Run

/-!
# Users and subscribers at a peer

The security service keeps the tokens of users and of subscribers apart, and has one end
point for each.  A peer asks one or the other with the flag of `AuthClient::IsAuthorized`,
but keeps what it has learnt of both under the token alone.  So a call answers for the
population of the call that filled the entry it finds, which need not be its own.
-/

namespace OwSec

open SecurityObjects Kit

namespace PeerPopulations

open AuthClient (Reply TokenCache Outcome validateEndPoint)

/-- The security service, as its two end points show it. -/
structure TokenService (lib : JsonLibrary) where
  /-- The tokens it holds as user tokens (`false`) and as subscriber tokens (`true`). -/
  holds : Bool → String → Prop
  disjoint : ∀ token, ¬ (holds false token ∧ holds true token)
  /-- The replies that a request for a token may bring back from an end point. -/
  replies : String → String → Reply → Prop
  /-- An end point confirms the tokens of its own population. -/
  sound : ∀ isSub token r u, replies (validateEndPoint isSub) token r →
    r.tokenInformation lib = some u → holds isSub token

/-- What is remembered of a call. -/
structure Call where
  token : String
  isSub : Bool
  /-- The flag of the call that filled the entry from which this one was answered. -/
  answeredFor : Option Bool
  outcome : Outcome
  deriving DecidableEq

/-- A peer, with a history: the flag under which each token was cached, and the calls. -/
structure State where
  cache : TokenCache := ∅
  filledFor : String → Bool := fun _ ↦ false
  calls : List Call := []

/-- What happens at the peer. -/
inductive Label
  /-- `IsAuthorized`, and what a request would bring back. -/
  | call (token : String) (isSub : Bool) (now : ℕ) (reply : Reply)
  /-- `RemovedCachedToken`. -/
  | removed (token : String)
  /-- The cache drops entries. -/
  | evict

/-- What a call does, given what a request would bring back. -/
def State.call (lib : JsonLibrary) (s : State) (token : String) (isSub : Bool) (now : ℕ)
    (reply : Reply) : State :=
  let (outcome, cache) := AuthClient.isAuthorizedWith lib now s.cache token reply
  { cache
    filledFor :=
      if outcome.requested && outcome.accepted then Function.update s.filledFor token isSub
      else s.filledFor
    calls :=
      { token, isSub, outcome
        answeredFor :=
          if outcome.accepted && !outcome.requested then some (s.filledFor token) else none } ::
        s.calls }

variable {lib : JsonLibrary} (service : TokenService lib)

/-- A call that succeeds does so for a token of the population it asks about. -/
def Call.Right (c : Call) : Prop := c.outcome.accepted = true → service.holds c.isSub c.token

/-- One step: what a request brings back comes from the end point that the flag selects. -/
inductive Step : State → Label → State → Prop
  | call {s : State} {token : String} {isSub : Bool} {now : ℕ} {reply : Reply}
    (hreply : service.replies (validateEndPoint isSub) token reply) :
    Step s (.call token isSub now reply) (s.call lib token isSub now reply)
  | removed {s : State} {token : String} :
    Step s (.removed token) { s with cache := AuthClient.removedCachedToken s.cache token }
  | evict {s : State} {cache : TokenCache} (h : Cache.Evicts s.cache cache) :
    Step s .evict { s with cache }

/-- A peer that starts with an empty cache. -/
def system : System State Label where
  init s := s = {}
  step := Step service

/-! ## One call -/

/-- The ways in which a call can end: answered from an entry, refused for an expired one, or
asked, and then accepted or not. -/
theorem isAuthorizedWith_cases (lib : JsonLibrary) (now : ℕ) (c : TokenCache) (token : String)
    (reply : Reply) :
    (c.lookup token ≠ none ∧
      AuthClient.isAuthorizedWith lib now c token reply = (⟨false, true⟩, c)) ∨
    AuthClient.isAuthorizedWith lib now c token reply = (⟨false, false⟩, c.erase token) ∨
    AuthClient.isAuthorizedWith lib now c token reply = (⟨true, false⟩, c) ∨
    ∃ u, reply.tokenInformation lib = some u ∧
      AuthClient.isAuthorizedWith lib now c token reply = (⟨true, true⟩, c.insert token u) := by
  unfold AuthClient.isAuthorizedWith AuthClient.isAuthorized
  rcases hc : c.lookup token with _ | u
  · right
    right
    simp only [AuthClient.retrieveTokenInformation]
    rcases hr : reply.tokenInformation lib with _ | u
    · exact .inl rfl
    · by_cases htime : AuthClient.isTokenExpired now u.webtoken = true
      · simp [htime]
      · simp [htime]
  · by_cases htime : AuthClient.isTokenExpired now u.webtoken = true
    · simp [htime]
    · simp [htime]

/-! ## Runs -/

section Runs

variable {service}

/-- A cached token is one of the population under whose flag it was cached. -/
def State.Sound (service : TokenService lib) (s : State) : Prop :=
  ∀ token, s.cache.lookup token ≠ none → service.holds (s.filledFor token) token

/-- A call keeps what is known of the cached tokens, and is right exactly when it was not
answered for the other population. -/
theorem State.Sound.call {s : State} (h : s.Sound service) {token : String} {isSub : Bool}
    {now : ℕ} {reply : Reply} (hreply : service.replies (validateEndPoint isSub) token reply) :
    (s.call lib token isSub now reply).Sound service ∧
      ∀ c, (s.call lib token isSub now reply).calls = c :: s.calls →
        (c.Right service ↔ ∀ b, c.answeredFor = some b → b = c.isSub) := by
  rcases isAuthorizedWith_cases lib now s.cache token reply with
    ⟨hcached, hcall⟩ | hcall | hcall | ⟨u, hu, hcall⟩
  · simp only [State.call, hcall]
    refine ⟨fun t ht ↦ h t ht, ?_⟩
    rintro c hc
    obtain ⟨rfl, -⟩ := List.cons.inj hc
    have hholds := h token hcached
    simp only [Call.Right, Bool.not_false, Bool.and_self, if_true, Option.some.injEq,
      forall_eq', true_imp_iff]
    constructor
    · -- the populations have no token in common
      intro hright
      by_contra hne
      rcases hb : s.filledFor token with _ | _ <;> rcases isSub with _ | _ <;>
        simp only [hb, not_true_eq_false, Bool.true_eq_false, Bool.false_eq_true] at hne hholds
      · exact service.disjoint token ⟨hholds, hright⟩
      · exact service.disjoint token ⟨hright, hholds⟩
    · rintro rfl
      exact hholds
  · simp only [State.call, hcall]
    refine ⟨fun t ht ↦ h t fun hnone ↦ ht ?_, ?_⟩
    · exact (Cache.Evicts.erase s.cache token).lookup_eq_none hnone
    · rintro c hc
      obtain ⟨rfl, -⟩ := List.cons.inj hc
      simp [Call.Right]
  · simp only [State.call, hcall]
    refine ⟨fun t ht ↦ h t ht, ?_⟩
    rintro c hc
    obtain ⟨rfl, -⟩ := List.cons.inj hc
    simp [Call.Right]
  · have hholds : service.holds isSub token := service.sound isSub token reply u hreply hu
    simp only [State.call, hcall, Bool.and_self, if_true]
    refine ⟨fun t ht ↦ ?_, ?_⟩
    · by_cases htoken : t = token
      · subst htoken
        simpa using hholds
      · have hcached : s.cache.lookup t ≠ none := by
          rw [← AList.lookup_insert_ne htoken]
          exact ht
        have hfilled : Function.update s.filledFor token isSub t = s.filledFor t :=
          Function.update_of_ne htoken _ _
        show service.holds (Function.update s.filledFor token isSub t) t
        rw [hfilled]
        exact h t hcached
    · rintro c hc
      obtain ⟨rfl, -⟩ := List.cons.inj hc
      simp [Call.Right, hholds]

/-- In every run, all calls are right exactly when none is answered from an entry that a call
with the other flag has filled. -/
theorem right_iff {s : State} (h : (system service).Reachable s) :
    (∀ c ∈ s.calls, c.Right service) ↔
      ∀ c ∈ s.calls, ∀ b, c.answeredFor = some b → b = c.isSub := by
  have hinv : s.Sound service ∧ ∀ c ∈ s.calls,
      (c.Right service ↔ ∀ b, c.answeredFor = some b → b = c.isSub) := by
    refine System.Reachable.invariant (I := fun s ↦ s.Sound service ∧ ∀ c ∈ s.calls,
      (c.Right service ↔ ∀ b, c.answeredFor = some b → b = c.isSub)) ?_ ?_ h
    · rintro s rfl
      exact ⟨fun token ht ↦ absurd rfl ht, fun c hc ↦ by cases hc⟩
    · rintro s l s' ⟨hsound, hcalls⟩ hstep
      cases hstep with
      | call hreply =>
        obtain ⟨hsound', hcall⟩ := hsound.call hreply
        refine ⟨hsound', fun c hc ↦ ?_⟩
        rcases List.mem_cons.mp hc with rfl | hc
        · exact hcall _ rfl
        · exact hcalls c hc
      | removed =>
        refine ⟨fun t ht ↦ hsound t fun hnone ↦ ht ?_, hcalls⟩
        exact (Cache.Evicts.erase s.cache _).lookup_eq_none hnone
      | evict hev =>
        exact ⟨fun t ht ↦ hsound t fun hnone ↦ ht (hev.lookup_eq_none hnone), hcalls⟩
  exact forall₂_congr hinv.2

end Runs

/-! ## A user token at a subscriber's end point -/

/-- The reply that confirms a token which lives for an hour from the time 0. -/
def sampleReply : Reply :=
  .status 200 [("tokenInfo", .obj [("expires_in", .int 3600)]), ("userInfo", .obj [])]

/-- A security service with one user token and no subscriber tokens. -/
def sampleService : TokenService .sample where
  holds isSub token := isSub = false ∧ token = "user-token"
  disjoint token h := by cases h.2.1
  replies endPoint token r :=
    r = if endPoint = "/api/v1/validateToken" ∧ token = "user-token" then sampleReply
      else .status 404
  sound isSub token r u hr hu := by
    subst hr
    split at hu
    · rename_i h
      refine ⟨?_, h.2⟩
      rcases isSub with _ | _
      · rfl
      · exact absurd h.1 (by decide)
    · cases hu

/-- The user token is checked as one, and then as a subscriber token. -/
def sampleCalls : State :=
  (({} : State).call .sample "user-token" false 100 sampleReply).call
    .sample "user-token" true 200 (.status 404)

theorem reachable_sampleCalls : (system sampleService).Reachable sampleCalls := by
  have hfirst : Step sampleService {} (.call "user-token" false 100 sampleReply)
      (({} : State).call .sample "user-token" false 100 sampleReply) := Step.call rfl
  have hsecond : Step sampleService (({} : State).call .sample "user-token" false 100 sampleReply)
      (.call "user-token" true 200 (.status 404)) sampleCalls := Step.call rfl
  exact (System.Reachable.init (S := system sampleService) rfl).step hfirst |>.step hsecond

/-- The equivalence in the state after the two calls. -/
theorem right_iff_sample :
    (∀ c ∈ sampleCalls.calls, c.Right sampleService) ↔
      ∀ c ∈ sampleCalls.calls, ∀ b, c.answeredFor = some b → b = c.isSub :=
  right_iff reachable_sampleCalls

/-- The user token passes for a subscriber token. -/
theorem user_token_accepted_for_subscriber : (system sampleService).Reachable sampleCalls ∧
    ∃ c ∈ sampleCalls.calls, c.token = "user-token" ∧ c.isSub = true ∧
      c.outcome = { requested := false, accepted := true } ∧ ¬ c.Right sampleService := by
  refine ⟨reachable_sampleCalls, _, List.mem_cons_self, rfl, rfl, by decide, ?_⟩
  intro hright
  exact absurd (hright (by decide)).1 (by decide)

end PeerPopulations

end OwSec
