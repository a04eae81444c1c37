import OwSec.Auth.LogoutRace

/-!
# Revocation across services

The other services do not read the token table.  Each keeps a cache of the tokens it has
had validated (`framework/AuthClient.cpp`) and asks the security service about the others;
a `remove-token` event from the bus makes it forget a token.  Here the security service,
with its requests in progress, runs beside any number of such peers.  Requests, replies
and events are delivered in any order and with any delay.

A logout or a revocation posts the event of its token before the deletion of the row is
committed, a revocation of all tokens and a refresh after it, and replies and events do not
wait for each other.  So a peer may hear the event first and learn afterwards, from a reply
that was on its way or from a check that was still answered, that the token is valid.

The removals are requests of the security service that move step by step.  Whatever else takes
rows from the table, such as the revocation of all tokens of a user and the replacement of a
token by a refresh, is a step of the rest of the security service, and the tokens of these rows
are deleted as well.
-/

namespace OwSec

open SecurityObjects Kit

/-! ## The token cache of a peer -/

namespace AuthClient

/-- `AuthClient::Cache_`. -/
abbrev TokenCache := Cache String UserInfoAndPolicy

/-- `AuthClient::IsTokenExpired`. -/
def isTokenExpired (now : ℕ) (t : WebToken) : Bool := decide (u64 (t.expiresIn + t.created) < now)

/-- What `IsAuthorized` can tell from the cache alone. -/
inductive Verdict
  | accepted
  | expired
  /-- `RetrieveTokenInformation` has to ask the security service. -/
  | unknown
  deriving DecidableEq

/-- The cached part of `AuthClient::IsAuthorized`. -/
def isAuthorized (now : ℕ) (c : TokenCache) (token : String) : Verdict × TokenCache :=
  match c.lookup token with
  | some u =>
    if isTokenExpired now u.webtoken then (.expired, c.erase token) else (.accepted, c)
  | none => (.unknown, c)

/-- The rest of `AuthClient::RetrieveTokenInformation`, once the security service has
replied: `HTTP_OK` with the user and the token, or another status. -/
def retrieveTokenInformation (now : ℕ) (c : TokenCache) (token : String)
    (reply : Option UserInfoAndPolicy) : Bool × TokenCache :=
  match reply with
  | some u => if isTokenExpired now u.webtoken then (false, c) else (true, c.insert token u)
  | none => (false, c)

/-- `AuthClient::RemovedCachedToken`. -/
def removedCachedToken (c : TokenCache) (token : String) : TokenCache := c.erase token

variable {now : ℕ} {c : TokenCache}

/-- Asking the cache adds nothing to it. -/
theorem isAuthorized_evicts (token : String) :
    Cache.Evicts c (isAuthorized now c token).2 := by
  unfold isAuthorized
  split
  · split
    · exact Cache.Evicts.erase c token
    · exact Cache.Evicts.refl c
  · exact Cache.Evicts.refl c

/-- Only a cached token is accepted from the cache. -/
theorem isAuthorized_ne_accepted {token : String} (h : c.lookup token = none) :
    (isAuthorized now c token).1 ≠ .accepted := by
  unfold isAuthorized
  rw [h]
  exact Verdict.noConfusion

/-- A reply caches its own token, and only if it is positive. -/
theorem retrieveTokenInformation_lookup {token t : String} {reply : Option UserInfoAndPolicy}
    (h : c.lookup t = none) (hreply : token = t → reply = none) :
    (retrieveTokenInformation now c token reply).2.lookup t = none := by
  unfold retrieveTokenInformation
  split
  · split
    · exact h
    · have hne : t ≠ token := by
        rintro rfl
        cases hreply rfl
      rw [Cache.lookup_insert_eq, if_neg hne]
      exact h
  · exact h

end AuthClient

/-! ## The services together -/

namespace PeerRevocation

variable (svc : Service)

/-- A reply to a `validateToken` request. -/
structure Reply where
  peer : ℕ
  token : String
  uinfo : Option UserInfoAndPolicy
  deriving DecidableEq

/-- The security service, the peers by number, and the messages between them; the events
in flight are those that the token store has posted. -/
structure State where
  service : TokenRace.State
  peers : ℕ → AuthClient.TokenCache := fun _ ↦ ∅
  /-- Requests in flight: the peer and the token. -/
  requests : List (ℕ × String) := []
  /-- The peer on whose behalf the security service makes a check. -/
  serving : ℕ → Option ℕ := fun _ ↦ none
  /-- Replies in flight. -/
  replies : List Reply := []
  /-- History: the peers that have processed the event of a token. -/
  heard : List (ℕ × String) := []
  /-- History: the tokens whose rows the rest of the security service has taken. -/
  deleted : List String := []

/-- What happens next. -/
inductive Action
  | service (a : TokenRace.Action)
  /-- `AuthClient::IsAuthorized` is called at a peer. -/
  | ask (k : ℕ) (token : String) (now : ℕ)
  /-- The security service takes a request up: `validateToken` calls `IsValidToken`. -/
  | serve (k : ℕ) (token : String) (i : ℕ)
  /-- The security service replies with what the check has returned. -/
  | reply (i : ℕ)
  /-- A reply reaches its peer. -/
  | receive (r : Reply) (now : ℕ)
  /-- An event reaches a peer. -/
  | hear (k : ℕ) (e : BusMessage)

namespace State

/-- The action can be taken. -/
def enabled (s : State) : Action → Bool
  | .service a => s.service.enabled a
  | .ask .. => true
  | .serve k token i =>
    s.requests.contains (k, token) && s.service.enabled (.beginCheck i true token)
  | .reply i =>
    match s.serving i, s.service.checks i with
    | some _, some c => match c.phase with | .answered _ => true | _ => false
    | _, _ => false
  | .receive r _ => s.replies.contains r
  | .hear _ e => s.service.population.tokens.posted.contains e

/-- The state after the action. -/
def apply (s : State) : Action → State
  | .service a => { s with service := s.service.apply svc a }
  | .ask k token now =>
    let (verdict, cache) := AuthClient.isAuthorized now (s.peers k) token
    { s with
      peers := Function.update s.peers k cache
      requests := if verdict = .unknown then (k, token) :: s.requests else s.requests }
  | .serve k token i =>
    { s with
      requests := s.requests.erase (k, token)
      service := s.service.apply svc (.beginCheck i true token)
      serving := Function.update s.serving i (some k) }
  | .reply i =>
    match s.serving i, s.service.checks i with
    | some k, some c =>
      match c.phase with
      | .answered uinfo =>
        { s with
          serving := Function.update s.serving i none
          replies := { peer := k, token := c.token, uinfo } :: s.replies }
      | _ => s
    | _, _ => s
  | .receive r now =>
    { s with
      replies := s.replies.erase r
      peers := Function.update s.peers r.peer
        (AuthClient.retrieveTokenInformation now (s.peers r.peer) r.token r.uinfo).2 }
  | .hear k e =>
    { s with
      peers := Function.update s.peers k (AuthClient.removedCachedToken (s.peers k) e.token)
      heard := (k, e.token) :: s.heard }

/-- The peer and the token for which a call of `IsAuthorized` returns `true` in the step. -/
def grants (s : State) : Action → Option (ℕ × String)
  | .ask k token now =>
    if (AuthClient.isAuthorized now (s.peers k) token).1 = .accepted then some (k, token) else none
  | .receive r now =>
    if (AuthClient.retrieveTokenInformation now (s.peers r.peer) r.token r.uinfo).1 then
      some (r.peer, r.token)
    else none
  | _ => none

/-- The security service has deleted the token: a removal has committed, or the row was taken
by another step. -/
def Deleted (s : State) (token : String) : Prop :=
  token ∈ s.deleted ∨ ∃ j r, s.service.removals j = some r ∧ r.token = token ∧
    (r.phase = .committed ∨ r.phase = .returned)

end State

/-- The tokens whose rows are in the one table and no longer in the other. -/
def lost (p q : Population) : List String :=
  (p.tokens.rows.rows.map Token.token).filter fun token ↦ (q.tokens.rows.find? token).isNone

namespace State

/-- The rest of the security service brings no token back: none that is being removed, none
whose row it has taken before, and none whose row it takes now. -/
structure NoRevival (s : State) (p : Population) : Prop where
  removing : s.service.NoRevival p
  row : ∀ token ∈ s.deleted, s.service.population.tokens.rows.find? token = none →
    p.tokens.rows.find? token = none
  entry : ∀ token, token ∈ s.deleted ∨ token ∈ lost s.service.population p →
    s.service.population.tokens.cache.lookup token = none → p.tokens.cache.lookup token = none

/-- The state after the rest of the security service has made this of the population. -/
def elsewhere (s : State) (p : Population) : State :=
  { s with
    service := { s.service with population := p }
    deleted := lost s.service.population p ++ s.deleted }

end State

/-- What happens in one step. -/
inductive Label
  | own (a : Action)
  /-- The rest of the security service. -/
  | elsewhere (p : Population)
  /-- A peer's cache drops entries. -/
  | evict

/-- One step. -/
inductive Step : State → Label → State → Prop
  | own {s : State} (a : Action) (h : s.enabled a = true) : Step s (.own a) (s.apply svc a)
  | elsewhere {s : State} (p : Population) (h : s.NoRevival p) :
    Step s (.elsewhere p) (s.elsewhere p)
  | evict {s : State} (k : ℕ) (c : AuthClient.TokenCache) (h : Cache.Evicts (s.peers k) c) :
    Step s .evict { s with peers := Function.update s.peers k c }

/-- The services; at first nothing is in progress or in flight and the peers' caches are
empty. -/
def system : System State Label where
  init s := ∃ p, s = { service := { population := p } }
  step := Step svc

/-- A list of actions that are enabled and meet a condition is a run of the restricted
system. -/
theorem reachable_of_allowed (ok : State → Label → Prop) (p : Population) (as : List Action)
    (h : System.Allowed (fun s a ↦ s.enabled a = true ∧ ok s (.own a)) (State.apply svc)
      { service := { population := p } } as) :
    ((system svc).restrict ok).Reachable
      (as.foldl (State.apply svc) { service := { population := p } }) := by
  have hinit : ((system svc).restrict ok).init { service := { population := p } } := ⟨p, rfl⟩
  have hstep (s : State) (a : Action) (h : s.enabled a = true ∧ ok s (.own a)) :
      ((system svc).restrict ok).step s (.own a) (s.apply svc a) := ⟨.own a h.1, h.2⟩
  exact (System.Reachable.init hinit).run (System.Run.of_allowed hstep _ as h)

/-! ## Deleted and heard, with nothing left over -/

/-- Nothing that could still make the token valid at the peer: neither in the cache of the
security service, nor in a check that is about to cache its row, nor in an answer to the
peer from the record to the wire. -/
structure State.Settled (s : State) (k : ℕ) (token : String) : Prop where
  entry : s.service.population.tokens.cache.lookup token = none
  unselected : ∀ i c row, s.service.checks i = some c → c.token = token → c.phase ≠ .selected row
  unfound : ∀ i c row, s.serving i = some k → s.service.checks i = some c → c.token = token →
    c.phase ≠ .found row
  unanswered : ∀ i c uinfo, s.serving i = some k → s.service.checks i = some c →
    c.token = token → c.phase ≠ .answered (some uinfo)
  unreplied : ∀ r ∈ s.replies, r.peer = k → r.token = token → r.uinfo = none

/-- Nothing is left over of the token for the peers that have processed its event. -/
def State.SettledWhereHeard (s : State) (token : String) : Prop :=
  ∀ k, (k, token) ∈ s.heard → s.Settled k token ∧ (s.peers k).lookup token = none

/-- The condition on a step: when the deletion of a token, by whichever step, and the processing
of its event by a peer come together, nothing is left over of the token for that peer. -/
def SettlesInTime (s : State) : Label → Prop
  | .own (.hear k e) => s.Deleted e.token → s.Settled k e.token
  | .own (.service (.removal j _)) =>
    ∀ r, s.service.removals j = some r → r.phase = .invalidated → s.SettledWhereHeard r.token
  | .elsewhere p => ∀ token ∈ lost s.service.population p, s.SettledWhereHeard token
  | _ => True

/-- The token is gone for the peer. -/
structure State.Gone (s : State) (k : ℕ) (token : String) : Prop where
  settled : s.Settled k token
  row : s.service.population.tokens.rows.find? token = none
  uncached : (s.peers k).lookup token = none

/-- The security service has forgotten a token that is gone. -/
theorem State.Gone.forgotten {s : State} {k : ℕ} {token : String} (h : s.Gone k token) :
    s.service.Forgotten token := ⟨h.row, h.settled.entry, h.settled.unselected⟩

/-- An action of the security service, whichever, keeps what is gone. -/
theorem State.Gone.service {s : State} {k : ℕ} {token : String} (h : s.Gone k token)
    (hsound : s.service.Sound) (a : TokenRace.Action) :
    (s.apply svc (.service a)).Gone k token := by
  have hforgotten := h.forgotten.apply svc hsound a
  refine ⟨⟨hforgotten.entry, hforgotten.unselected, ?_, ?_, h.settled.unreplied⟩, hforgotten.row,
    h.uncached⟩
  · intro i c row hk hc htoken hphase
    rcases TokenRace.State.checks_apply svc hc with hc | ⟨locks, token, -, rfl⟩ | ⟨c₀, -, hc₀, rfl⟩
    · exact h.settled.unfound i c row hk hc htoken hphase
    · cases hphase
    · subst htoken
      rcases CheckPhase.of_advance_found svc hphase with hentry | hsel
      · rw [h.settled.entry] at hentry
        cases hentry
      · exact h.settled.unselected i c₀ row hc₀ rfl hsel
  · intro i c uinfo hk hc htoken hphase
    rcases TokenRace.State.checks_apply svc hc with hc | ⟨locks, token, -, rfl⟩ | ⟨c₀, -, hc₀, rfl⟩
    · exact h.settled.unanswered i c uinfo hk hc htoken hphase
    · cases hphase
    · rcases CheckPhase.of_advance_answered svc hphase with ⟨r, hfound⟩ | hanswered
      · exact h.settled.unfound i c₀ r hk hc₀ htoken hfound
      · exact h.settled.unanswered i c₀ uinfo hk hc₀ htoken hanswered

/-- The rest of the security service keeps what is gone, if it does not bring it back. -/
theorem State.Gone.elsewhere {s : State} {k : ℕ} {token : String} (h : s.Gone k token)
    {p : Population} (hrow : p.tokens.rows.find? token = none)
    (hentry : p.tokens.cache.lookup token = none) : (s.elsewhere p).Gone k token :=
  ⟨⟨hentry, h.settled.unselected, h.settled.unfound, h.settled.unanswered, h.settled.unreplied⟩,
    hrow, h.uncached⟩

/-- A check that has just begun is neither found nor answered, so taking up a request keeps
what is gone. -/
theorem State.Gone.serve {s : State} {k k' i : ℕ} {token token' : String} (h : s.Gone k token)
    (hsound : s.service.Sound) : (s.apply svc (.serve k' token' i)).Gone k token := by
  have hservice := h.service svc hsound (.beginCheck i true token')
  have hbegun (c : TokenRace.Check)
      (hc : (s.service.apply svc (.beginCheck i true token')).checks i = some c) :
      c.phase = .started := by
    simp only [TokenRace.State.apply, Function.update_self, Option.some.injEq] at hc
    rw [← hc]
  refine ⟨⟨hservice.settled.entry, hservice.settled.unselected, ?_, ?_,
    hservice.settled.unreplied⟩, hservice.row, hservice.uncached⟩
  · intro i' c row hk hc htoken hphase
    by_cases hi : i' = i
    · subst hi
      rw [hbegun c hc] at hphase
      cases hphase
    · refine hservice.settled.unfound i' c row ?_ hc htoken hphase
      simpa [State.apply, hi] using hk
  · intro i' c uinfo hk hc htoken hphase
    by_cases hi : i' = i
    · subst hi
      rw [hbegun c hc] at hphase
      cases hphase
    · refine hservice.settled.unanswered i' c uinfo ?_ hc htoken hphase
      simpa [State.apply, hi] using hk

/-- A reply touches nothing but what is on its way to the peers. -/
theorem State.apply_reply (s : State) (i : ℕ) :
    ∃ serving replies, s.apply svc (.reply i) = { s with serving, replies } := by
  simp only [State.apply]
  split
  · split
    · exact ⟨_, _, rfl⟩
    · exact ⟨_, _, rfl⟩
  · exact ⟨_, _, rfl⟩

/-- The reply to a peer for which the token is gone is negative. -/
theorem State.Gone.reply {s : State} {k i : ℕ} {token : String} (h : s.Gone k token) :
    (s.apply svc (.reply i)).Gone k token := by
  simp only [State.apply]
  split
  · rename_i k' c hk hc
    split
    · rename_i uinfo hphase
      refine ⟨⟨h.settled.entry, h.settled.unselected, ?_, ?_, ?_⟩, h.row, h.uncached⟩
      · intro i' c' row hk' hc'
        refine h.settled.unfound i' c' row ?_ hc'
        by_cases hi : i' = i <;> simp_all
      · intro i' c' u hk' hc'
        refine h.settled.unanswered i' c' u ?_ hc'
        by_cases hi : i' = i <;> simp_all
      · intro r hr hpeer htoken
        rcases List.mem_cons.mp hr with rfl | hr
        · rcases huinfo : uinfo with _ | u
          · rfl
          · rw [huinfo] at hphase
            obtain rfl : k' = k := hpeer
            exact absurd hphase (h.settled.unanswered i c u hk hc htoken)
        · exact h.settled.unreplied r hr hpeer htoken
    · exact h
  · exact h

/-- A change of the peers' caches that leaves the token uncached keeps what is gone. -/
theorem State.Gone.peers {s : State} {k : ℕ} {token : String} (h : s.Gone k token)
    {peers : ℕ → AuthClient.TokenCache} (hp : (peers k).lookup token = none)
    {requests heard : List (ℕ × String)} :
    ({ s with peers, requests, heard } : State).Gone k token :=
  ⟨⟨h.settled.entry, h.settled.unselected, h.settled.unfound, h.settled.unanswered,
    h.settled.unreplied⟩, h.row, hp⟩

/-- A cache that replaces another at one peer and holds no more than it leaves the token
uncached. -/
theorem lookup_update_eq_none {peers : ℕ → AuthClient.TokenCache} {k k' : ℕ} {token : String}
    {c : AuthClient.TokenCache} (h : (peers k).lookup token = none)
    (hc : k = k' → c.lookup token = none) :
    (Function.update peers k' c k).lookup token = none := by
  by_cases hk : k = k'
  · subst hk
    rw [Function.update_self]
    exact hc rfl
  · rw [Function.update_of_ne hk]
    exact h

/-- So does a cache that drops entries at one peer. -/
theorem lookup_update_of_evicts {peers : ℕ → AuthClient.TokenCache} {k k' : ℕ} {token : String}
    {c : AuthClient.TokenCache} (h : (peers k).lookup token = none)
    (hc : Cache.Evicts (peers k') c) : (Function.update peers k' c k).lookup token = none := by
  refine lookup_update_eq_none h ?_
  rintro rfl
  exact hc.lookup_eq_none h

/-- Every step keeps what is gone of a deleted token. -/
theorem State.Gone.step {s s' : State} {l : Label} {k : ℕ} {token : String} (h : s.Gone k token)
    (hsound : s.service.Sound) (hdel : s.Deleted token) (hs : Step svc s l s') :
    s'.Gone k token := by
  cases hs with
  | own a he =>
    cases a with
    | service a => exact h.service svc hsound a
    | ask k' token' now =>
      exact h.peers (lookup_update_of_evicts h.uncached (AuthClient.isAuthorized_evicts token'))
    | serve k' token' i => exact h.serve svc hsound
    | reply i => exact h.reply svc
    | receive r now =>
      have hmem : r ∈ s.replies := List.contains_iff_mem.mp he
      refine ⟨⟨h.settled.entry, h.settled.unselected, h.settled.unfound, h.settled.unanswered,
        fun r' hr' ↦ h.settled.unreplied r' (List.mem_of_mem_erase hr')⟩, h.row, ?_⟩
      refine lookup_update_eq_none h.uncached fun hk ↦ ?_
      subst hk
      exact AuthClient.retrieveTokenInformation_lookup h.uncached
        fun ht ↦ h.settled.unreplied r hmem rfl ht
    | hear k' e =>
      exact h.peers (lookup_update_of_evicts h.uncached (Cache.Evicts.erase (s.peers k') e.token))
  | elsewhere p hp =>
    rcases hdel with hdel | ⟨j, r, hr, htoken, -⟩
    · exact h.elsewhere (hp.row token hdel h.row) (hp.entry token (.inl hdel) h.settled.entry)
    · obtain ⟨hrow, hentry⟩ := hp.removing token ⟨j, r, hr, htoken⟩
      exact h.elsewhere (hrow h.row) (hentry h.settled.entry)
  | evict k' c hc =>
    exact h.peers (lookup_update_of_evicts h.uncached hc)

/-! ## Runs that settle in time -/

/-- What runs keep in which every deletion settles in time: the row of a deleted token is gone,
and once a peer has processed its event the token is gone for that peer. -/
structure State.Timely (s : State) : Prop where
  sound : s.service.Sound
  row : ∀ token ∈ s.deleted, s.service.population.tokens.rows.find? token = none
  gone : ∀ k token, (k, token) ∈ s.heard → s.Deleted token → s.Gone k token

/-- A row that is lost was in the table, and it is not any more. -/
theorem mem_lost_iff {p q : Population} {token : String} :
    token ∈ lost p q ↔
      (∃ row, p.tokens.rows.find? token = some row) ∧ q.tokens.rows.find? token = none := by
  have hrow : (∃ row ∈ p.tokens.rows.rows, row.token = token) ↔
      ∃ row, p.tokens.rows.find? token = some row := by
    simp only [Table.find?_eq_some_iff]
  rw [lost, List.mem_filter, List.mem_map, Option.isNone_iff_eq_none, hrow]

/-- Where the table stays as it is, nothing is lost. -/
theorem notMem_lost_of_rows {p q : Population} (h : q.tokens.rows = p.tokens.rows)
    (token : String) : token ∉ lost p q := by
  intro hlost
  obtain ⟨⟨row, hrow⟩, hnone⟩ := mem_lost_iff.mp hlost
  rw [h, hrow] at hnone
  cases hnone

/-- What is lost by a deletion is its own row. -/
theorem eq_of_mem_lost_delete {p q : Population} {token k : String}
    (hq : q.tokens.rows = p.tokens.rows.delete k) (h : token ∈ lost p q) : token = k := by
  obtain ⟨⟨row, hrow⟩, hnone⟩ := mem_lost_iff.mp h
  by_contra hne
  rw [hq, Table.find?_delete, if_neg hne, hrow] at hnone
  cases hnone

/-- The row of a deleted token is gone. -/
theorem State.Deleted.row {s : State} {token : String} (h : s.Deleted token)
    (hsound : s.service.Sound)
    (hrow : ∀ token ∈ s.deleted, s.service.population.tokens.rows.find? token = none) :
    s.service.population.tokens.rows.find? token = none := by
  rcases h with h | ⟨j, r, hr, rfl, hphase⟩
  · exact hrow token h
  · exact hsound.gone j r hr hphase

/-- The requests that the security service knows stay sound in every step. -/
theorem State.sound_step {s s' : State} {l : Label} (h : s.service.Sound)
    (hs : Step svc s l s') : s'.service.Sound := by
  cases hs with
  | own a he =>
    cases a with
    | service a => exact h.step svc (.own a he)
    | serve k token i => exact h.step svc (.own _ (Bool.and_eq_true_iff.mp he).2)
    | reply i =>
      obtain ⟨serving, replies, heq⟩ := s.apply_reply svc i
      rw [heq]
      exact h
    | ask | receive | hear => exact h
  | elsewhere p hp => exact h.step svc (.elsewhere p hp.removing)
  | evict => exact h

/-- A token that an action of the security service deletes was deleted before, or its
removal commits now. -/
theorem State.deleted_of_service {s : State} {a : TokenRace.Action} {token : String}
    (h : (s.apply svc (.service a)).Deleted token) :
    s.Deleted token ∨ ∃ j now r, a = .removal j now ∧ s.service.removals j = some r ∧
      r.token = token ∧ r.phase = .invalidated := by
  rcases h with h | ⟨j, r, hr, rfl, hphase⟩
  · exact .inl (.inl h)
  rcases TokenRace.State.removals_apply svc hr with hr | ⟨_, _, -, rfl⟩ | ⟨now, r₀, rfl, hr₀, rfl⟩
  · exact .inl (.inr ⟨j, r, hr, rfl, hphase⟩)
  · rcases hphase with hphase | hphase <;> cases hphase
  · rcases r₀.phase.of_advance_committed_or_returned svc r₀.isLogout now r₀.token hphase
      with hnow | hbefore
    · exact .inr ⟨j, now, r₀, rfl, hr₀, rfl, hnow⟩
    · exact .inl (.inr ⟨j, r₀, hr₀, rfl, hbefore⟩)

/-- Whatever takes the row of a token from the table, the token is deleted by it. -/
theorem State.deleted_of_lost {s s' : State} {l : Label} (hs : Step svc s l s') {token : String}
    (h : token ∈ lost s.service.population s'.service.population) : s'.Deleted token := by
  have hsame {p : Population} (hp : p.tokens.rows = s.service.population.tokens.rows)
      (h : token ∈ lost s.service.population p) : s'.Deleted token :=
    absurd h (notMem_lost_of_rows hp token)
  cases hs with
  | own a he =>
    cases a with
    | service a =>
      rcases s.service.population_apply svc a with
        heq | ⟨i, c, rfl, -, heq⟩ | ⟨j, now, r, rfl, hr, heq⟩
      · exact hsame (congrArg (·.tokens.rows) heq) h
      · exact hsame ((congrArg (·.tokens.rows) heq).trans
          (CheckPhase.advance_moves svc c.token c.phase).rows) h
      · by_cases hphase : r.phase = .invalidated
        · -- the removal commits, and the row that is lost is that of its token
          have hrows : (s.service.apply svc (.removal j now)).population.tokens.rows =
              s.service.population.tokens.rows.delete r.token := by
            rw [heq, hphase]
            rfl
          refine .inr ⟨j, { r with phase := .committed }, ?_, (eq_of_mem_lost_delete hrows h).symm,
            .inl rfl⟩
          simp only [State.apply, TokenRace.State.apply, hr, hphase, Function.update_self]
          rfl
        · exact hsame ((congrArg (·.tokens.rows) heq).trans
            (r.phase.advance_rows svc _ now r.token hphase)) h
    | serve k token i => exact hsame rfl h
    | reply i =>
      obtain ⟨serving, replies, heq⟩ := s.apply_reply svc i
      rw [heq] at h
      exact absurd h (notMem_lost_of_rows rfl token)
    | ask | receive | hear => exact hsame rfl h
  | elsewhere p hp => exact .inl (List.mem_append_left _ h)
  | evict => exact hsame rfl h

/-! ### Revocations of all tokens, and refreshes -/

/-- A revocation of all tokens of a user is a step of the rest of the security service. -/
theorem State.noRevival_revokeAllTokens (s : State) (userId : String) :
    s.NoRevival { s.service.population with
      tokens := s.service.population.tokens.revokeAllTokens svc userId } := by
  have hrow (token : String) (h : s.service.population.tokens.rows.find? token = none) :
      (s.service.population.tokens.revokeAllTokens svc userId).rows.find? token = none := by
    show (s.service.population.tokens.rows.deleteWhere _).find? token = none
    rw [Table.find?_deleteWhere, h]
    rfl
  have hentry (token : String) (h : s.service.population.tokens.cache.lookup token = none) :
      (s.service.population.tokens.revokeAllTokens svc userId).cache.lookup token = none :=
    (Cache.Evicts.removeAll _ _).lookup_eq_none h
  exact ⟨fun token _ ↦ ⟨hrow token, hentry token⟩, fun token _ ↦ hrow token,
    fun token _ ↦ hentry token⟩

/-- It deletes every token of the user that has a row. -/
theorem mem_lost_revokeAllTokens {p : Population} {token userId : String} {row : Token}
    (hrow : p.tokens.rows.find? token = some row) (howner : row.userName = userId) :
    token ∈ lost p { p with tokens := p.tokens.revokeAllTokens svc userId } := by
  refine mem_lost_iff.mpr ⟨⟨row, hrow⟩, ?_⟩
  show (p.tokens.rows.deleteWhere _).find? token = none
  rw [Table.find?_deleteWhere, hrow]
  simp [howner]

/-- A refresh with a fresh token is a step of the rest of the security service. -/
theorem State.noRevival_refreshToken (s : State) (now lastRefresh : ℕ)
    {oldToken newToken newRefreshToken : String} (hremoving : ¬ s.service.Removing newToken)
    (hdeleted : newToken ∉ s.deleted)
    (hfree : s.service.population.tokens.rows.find? newToken = none) :
    s.NoRevival { s.service.population with
      tokens := (s.service.population.tokens.refreshToken svc now oldToken newToken newRefreshToken
        lastRefresh).2 } := by
  refine ⟨fun token hr ↦ ?_, fun token hd ↦ ?_, fun token hd ↦ ?_⟩
  · have hne : token ≠ newToken := by
      rintro rfl
      exact hremoving hr
    exact ⟨TokenStore.find?_refreshToken_eq_none svc hne,
      TokenStore.lookup_refreshToken_eq_none svc hne⟩
  · refine TokenStore.find?_refreshToken_eq_none svc ?_
    rintro rfl
    exact hdeleted hd
  · refine TokenStore.lookup_refreshToken_eq_none svc ?_
    rintro rfl
    rcases hd with hd | hd
    · exact hdeleted hd
    · obtain ⟨⟨row, hrow⟩, -⟩ := mem_lost_iff.mp hd
      rw [hrow] at hfree
      cases hfree

/-- It deletes the old token. -/
theorem mem_lost_refreshToken {p : Population} {now lastRefresh : ℕ}
    {oldToken newToken newRefreshToken : String} {row : Token}
    (hrow : p.tokens.rows.find? oldToken = some row)
    (hfree : p.tokens.rows.find? newToken = none) :
    oldToken ∈ lost p { p with
      tokens := (p.tokens.refreshToken svc now oldToken newToken newRefreshToken
        lastRefresh).2 } :=
  mem_lost_iff.mpr ⟨⟨row, hrow⟩, TokenStore.find?_refreshToken_oldToken svc hrow hfree⟩

/-- No step brings back the row of a token that the rest of the security service has taken. -/
theorem State.row_step {s s' : State} {l : Label}
    (h : ∀ token ∈ s.deleted, s.service.population.tokens.rows.find? token = none)
    (hs : Step svc s l s') :
    ∀ token ∈ s'.deleted, s'.service.population.tokens.rows.find? token = none := by
  cases hs with
  | own a he =>
    cases a with
    | service a => exact fun token ht ↦ TokenRace.State.find?_apply_eq_none svc a (h token ht)
    | serve k token i => exact h
    | reply i =>
      obtain ⟨serving, replies, heq⟩ := s.apply_reply svc i
      rw [heq]
      exact h
    | ask | receive | hear => exact h
  | elsewhere p hp =>
    intro token ht
    rcases List.mem_append.mp ht with hlost | hold
    · exact (mem_lost_iff.mp hlost).2
    · exact hp.row token hold (h token hold)
  | evict => exact h

/-- A step that settles in time, if it has to, keeps the invariant. -/
theorem State.Timely.step {s s' : State} {l : Label} (h : s.Timely) (hs : Step svc s l s')
    (hl : SettlesInTime s l) : s'.Timely := by
  have hsound := State.sound_step svc h.sound hs
  have hkeep (k : ℕ) (token : String) (hheard : (k, token) ∈ s.heard) (hdel : s.Deleted token) :
      s'.Gone k token := (h.gone k token hheard hdel).step svc h.sound hdel hs
  have hrow := State.row_step svc h.row hs
  refine ⟨hsound, hrow, fun k token hheard hdel ↦ ?_⟩
  cases hs with
  | own a he =>
    cases a with
    | service a =>
      rcases State.deleted_of_service svc hdel with hdel' | ⟨j, now, r, rfl, hr, rfl, hphase⟩
      · exact hkeep k token hheard hdel'
      · -- the deletion commits after the peer has processed the event
        obtain ⟨hsettled, huncached⟩ := hl r hr hphase k hheard
        obtain ⟨hchecks, hcache⟩ := TokenRace.State.apply_commit svc now hr hphase
        refine ⟨⟨hcache ▸ hsettled.entry, ?_, ?_, ?_, hsettled.unreplied⟩, ?_, huncached⟩
        · exact fun i c row hc ↦ hsettled.unselected i c row (hchecks ▸ hc)
        · exact fun i c row hk hc ↦ hsettled.unfound i c row hk (hchecks ▸ hc)
        · exact fun i c uinfo hk hc ↦ hsettled.unanswered i c uinfo hk (hchecks ▸ hc)
        · exact hdel.row hsound hrow
    | hear k' e =>
      rcases List.mem_cons.mp hheard with heq | hheard
      · -- the peer processes the event of a token that is deleted already
        obtain ⟨rfl, rfl⟩ := Prod.mk.inj heq
        have hdel : s.Deleted e.token := hdel
        refine ⟨⟨(hl hdel).entry, (hl hdel).unselected, (hl hdel).unfound, (hl hdel).unanswered,
          (hl hdel).unreplied⟩, hdel.row h.sound h.row, ?_⟩
        simp [State.apply, AuthClient.removedCachedToken]
      · exact hkeep k token hheard hdel
    | serve k' token' i => exact hkeep k token hheard hdel
    | reply i =>
      obtain ⟨serving, replies, heq⟩ := s.apply_reply svc i
      rw [heq] at hheard hdel
      exact hkeep k token hheard hdel
    | ask | receive => exact hkeep k token hheard hdel
  | elsewhere p hp =>
    by_cases hbefore : s.Deleted token
    · exact hkeep k token hheard hbefore
    · -- the row is taken after the peer has processed the event
      have hlost : token ∈ lost s.service.population p := by
        rcases hdel with hdel | hdel
        · exact (List.mem_append.mp hdel).resolve_right fun hold ↦ hbefore (.inl hold)
        · exact absurd (.inr hdel) hbefore
      obtain ⟨hsettled, huncached⟩ := hl token hlost k hheard
      exact ⟨⟨hp.entry token (.inr hlost) hsettled.entry, hsettled.unselected, hsettled.unfound,
        hsettled.unanswered, hsettled.unreplied⟩, (mem_lost_iff.mp hlost).2, huncached⟩
  | evict => exact hkeep k token hheard hdel

/-- At first nothing was deleted. -/
theorem State.Timely.init {s : State} (h : (system svc).init s) : s.Timely := by
  obtain ⟨p, rfl⟩ := h
  refine ⟨⟨?_, ?_⟩, ?_, ?_⟩ <;> intro _ <;> simp

/-- No step makes a call of `IsAuthorized` return `true` for a token that is gone for the
peer. -/
theorem State.Gone.grants_ne {s : State} {k : ℕ} {token : String} (h : s.Gone k token)
    {a : Action} (he : s.enabled a = true) : s.grants a ≠ some (k, token) := by
  cases a with
  | ask k' token' now =>
    intro hg
    simp only [State.grants, Option.ite_none_right_eq_some, Option.some.injEq,
      Prod.mk.injEq] at hg
    obtain ⟨haccepted, rfl, rfl⟩ := hg
    exact AuthClient.isAuthorized_ne_accepted h.uncached haccepted
  | receive r now =>
    intro hg
    simp only [State.grants, Option.ite_none_right_eq_some, Option.some.injEq,
      Prod.mk.injEq] at hg
    obtain ⟨haccepted, rfl, rfl⟩ := hg
    have hnone := h.settled.unreplied r (List.contains_iff_mem.mp he) rfl rfl
    rw [hnone] at haccepted
    cases haccepted
  | service | serve | reply | hear => exact Option.some_ne_none _ |>.symm

/-- In every run whose deletions settle in time, once the security service has deleted a
token and a peer has processed its event, `IsAuthorized` of that peer never again returns
`true` for the token. -/
theorem deleted_token_never_granted {s : State}
    (hs : ((system svc).restrict SettlesInTime).Reachable s) {k : ℕ} {token : String}
    (hdel : s.Deleted token) (hheard : (k, token) ∈ s.heard) {a : Action}
    (he : s.enabled a = true) : s.grants a ≠ some (k, token) := by
  have hinit (s₀ : State) (h₀ : ((system svc).restrict SettlesInTime).init s₀) : s₀.Timely :=
    State.Timely.init svc h₀
  have htimely : s.Timely :=
    hs.invariant hinit fun _ _ _ h ⟨hstep, hl⟩ ↦ h.step svc hstep hl
  exact (htimely.gone k token hheard hdel).grants_ne he

/-! ### Four runs

All start after the login of the short run, whose token is `token-b`. -/

/-- The state after a list of actions. -/
def sampleRun (as : List Action) : State :=
  as.foldl (State.apply .sample) { service := { population := TokenRace.samplePopulation } }

/-- The token is logged out, and then a peer processes the event. -/
def sampleSettled : List Action :=
  [.service (.beginRemoval 0 true "token-b"), .service (.removal 0 200),
    .service (.removal 0 200), .service (.removal 0 200), .service (.removal 0 200),
    .hear 0 (removeTokenEvent .sample "token-b")]

/-- The positive reply to the request of a peer. -/
def sampleReply : Reply :=
  { peer := 0, token := "token-b"
    uinfo := (TokenRace.samplePopulation.checkToken .sample 200 "token-b").1.uinfo }

/-- The token is logged out, and between the invalidation of the cache entry and the commit
a check of the security service selects the row and caches it again.  After all that the
peer processes the event, asks about the token and gets its reply. -/
def sampleRevived : List Action :=
  [.service (.beginRemoval 0 true "token-b"), .service (.removal 0 200),
    .service (.removal 0 200), .service (.beginCheck 1 false "token-b"), .service (.check 1),
    .service (.check 1), .service (.check 1), .service (.removal 0 200),
    .service (.removal 0 200), .hear 0 (removeTokenEvent .sample "token-b"),
    .ask 0 "token-b" 200, .serve 0 "token-b" 0, .service (.check 0), .service (.check 0),
    .reply 0, .receive sampleReply 201]

/-- A peer asks about the token and the security service replies. -/
def sampleReplied : List Action :=
  [.ask 0 "token-b" 200, .serve 0 "token-b" 0, .service (.check 0), .service (.check 0),
    .service (.check 0), .service (.check 0), .reply 0]

/-- Before the reply arrives, the token is logged out and the peer processes the event. -/
def sampleLateReply : List Action :=
  sampleReplied ++ [.service (.beginRemoval 0 true "token-b"), .service (.removal 0 200),
    .service (.removal 0 200), .service (.removal 0 200), .service (.removal 0 200),
    .hear 0 (removeTokenEvent .sample "token-b"), .receive sampleReply 201]

/-- Before the reply arrives, the token is refreshed. -/
def sampleRefreshed : State :=
  let s := sampleRun sampleReplied
  s.elsewhere { s.service.population with
    tokens := (s.service.population.tokens.refreshToken .sample 200 "token-b" "token-c" "refresh-c"
      200).2 }

/-- The peer processes the event of the token that was refreshed, and then gets the reply. -/
def sampleHeard : State :=
  (sampleRefreshed.apply .sample (.hear 0 (removeTokenEvent .sample "token-b"))).apply .sample
    (.receive sampleReply 201)

/-- The statement for a call after the event was processed. -/
theorem deleted_token_never_granted_sample :
    ((system .sample).restrict SettlesInTime).Reachable (sampleRun sampleSettled) ∧
      (sampleRun sampleSettled).Deleted "token-b" ∧
      (0, "token-b") ∈ (sampleRun sampleSettled).heard ∧
      (sampleRun sampleSettled).grants (.ask 0 "token-b" 300) ≠ some (0, "token-b") := by
  have hreach := reachable_of_allowed .sample SettlesInTime TokenRace.samplePopulation
    sampleSettled (by
      refine ⟨⟨rfl, trivial⟩, ⟨rfl, ?_⟩, ⟨rfl, ?_⟩, ⟨rfl, ?_⟩, ⟨rfl, ?_⟩, ⟨by decide, ?_⟩, trivial⟩
      iterate 4 exact fun _ _ _ k hk ↦ absurd hk List.not_mem_nil
      intro _
      refine ⟨by decide, ?_, ?_, ?_, ?_⟩
      · rintro i c row ⟨⟩
      · rintro i c row ⟨⟩
      · rintro i c uinfo ⟨⟩
      · exact fun r hr ↦ absurd hr List.not_mem_nil)
  have hdel : (sampleRun sampleSettled).Deleted "token-b" :=
    .inr ⟨0, _, rfl, rfl, .inr rfl⟩
  have hheard : (0, "token-b") ∈ (sampleRun sampleSettled).heard := List.mem_cons_self
  exact ⟨hreach, hdel, hheard, deleted_token_never_granted .sample hreach hdel hheard rfl⟩

/-- A list of enabled actions is a run. -/
theorem reachable_sampleRun (as : List Action)
    (h : System.Allowed (fun s a ↦ s.enabled a = true ∧ True) (State.apply .sample)
      { service := { population := TokenRace.samplePopulation } } as) :
    (system .sample).Reachable (sampleRun as) :=
  (reachable_of_allowed .sample (fun _ _ ↦ True) TokenRace.samplePopulation as h).of_restrict

/-- In the run in which the entry is cached again, the peer has processed the event of the
deleted token and goes on accepting the token. -/
theorem deleted_token_granted_by_peer :
    (system .sample).Reachable (sampleRun sampleRevived) ∧
      (sampleRun sampleRevived).Deleted "token-b" ∧
      (0, "token-b") ∈ (sampleRun sampleRevived).heard ∧
      (sampleRun sampleRevived).grants (.ask 0 "token-b" 300) = some (0, "token-b") :=
  ⟨reachable_sampleRun sampleRevived (by decide), .inr ⟨0, _, rfl, rfl, .inr rfl⟩, by decide,
    by decide⟩

/-- So it does after the late reply. -/
theorem deleted_token_granted_after_late_reply :
    (system .sample).Reachable (sampleRun sampleLateReply) ∧
      (sampleRun sampleLateReply).Deleted "token-b" ∧
      (0, "token-b") ∈ (sampleRun sampleLateReply).heard ∧
      (sampleRun sampleLateReply).grants (.ask 0 "token-b" 300) = some (0, "token-b") :=
  ⟨reachable_sampleRun sampleLateReply (by decide), .inr ⟨0, _, rfl, rfl, .inr rfl⟩, by decide,
    by decide⟩

/-- And so it does when the token was replaced by a refresh. -/
theorem replaced_token_granted_after_late_reply :
    (system .sample).Reachable sampleHeard ∧ sampleHeard.Deleted "token-b" ∧
      (0, "token-b") ∈ sampleHeard.heard ∧
      sampleHeard.grants (.ask 0 "token-b" 300) = some (0, "token-b") := by
  have hreplied : (system .sample).Reachable (sampleRun sampleReplied) :=
    reachable_sampleRun sampleReplied (by decide)
  have hrefreshed : (system .sample).Reachable sampleRefreshed := by
    refine hreplied.step (.elsewhere _ ((sampleRun sampleReplied).noRevival_refreshToken .sample 200
      200 ?_ List.not_mem_nil (by decide)))
    rintro ⟨j, r, ⟨⟩, -⟩
  have hheard : (system .sample).Reachable sampleHeard :=
    (hrefreshed.step (.own _ (by decide))).step (.own _ (by decide))
  exact ⟨hheard, .inl (by decide), by decide, by decide⟩

end PeerRevocation

end OwSec
