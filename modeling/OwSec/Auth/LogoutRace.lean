import OwSec.Auth.TokenSteps

/-!
# Logging out among concurrent requests

Any number of checks and removals of tokens in progress at once, their steps interleaved
in any order, while the rest of the service goes on.

`IsValidToken` and `IsValidSubToken` hold `AuthService::Mutex_` from start to end, and so
do `Logout` and `SubLogout`; `IsAuthorized` and `IsSubAuthorized` do not take it, and
neither does `RevokeToken`.  So a removal may overtake a check that has selected the row
and not yet cached it, and the cache then keeps the record of a token that is gone.  When
no removal returns in that situation, a removed token stays removed.
-/

namespace OwSec

open SecurityObjects Kit

namespace TokenRace

variable (svc : Service)

/-! ## Requests in progress -/

/-- A holder of `AuthService::Mutex_`. -/
inductive Holder
  | check (i : ℕ)
  | removal (j : ℕ)
  deriving DecidableEq

/-- A check of a token. -/
structure Check where
  token : String
  /-- `IsValidToken` or `IsValidSubToken`, which hold the mutex. -/
  locks : Bool
  /-- History: a removal of the token had returned before the check started. -/
  afterRemoval : Bool
  phase : CheckPhase := .started
  deriving DecidableEq

/-- The check has returned `true`. -/
def Check.accepts (c : Check) : Bool :=
  match c.phase with
  | .answered (some _) => true
  | _ => false

/-- A removal of a token. -/
structure Removal where
  token : String
  /-- `Logout` or `SubLogout`, which hold the mutex; otherwise `RevokeToken`. -/
  isLogout : Bool
  phase : RemovalPhase := .started
  deriving DecidableEq

/-- The shared state, and the requests by number. -/
structure State where
  population : Population
  mutex : Option Holder := none
  checks : ℕ → Option Check := fun _ ↦ none
  removals : ℕ → Option Removal := fun _ ↦ none
  /-- History: the tokens of which a removal has returned. -/
  removed : List String := []

/-- What a request does next. -/
inductive Action
  | beginCheck (i : ℕ) (locks : Bool) (token : String)
  | check (i : ℕ)
  | beginRemoval (j : ℕ) (isLogout : Bool) (token : String)
  | removal (j now : ℕ)

namespace State

/-- The action can be taken: numbers are used once, and the mutex is waited for. -/
def enabled (s : State) : Action → Bool
  | .beginCheck i locks _ => (s.checks i).isNone && (!locks || s.mutex.isNone)
  | .check i =>
    match s.checks i with
    | some c => match c.phase with | .answered _ => false | _ => true
    | none => false
  | .beginRemoval j isLogout _ => (s.removals j).isNone && (!isLogout || s.mutex.isNone)
  | .removal j _ =>
    match s.removals j with
    | some r => r.phase != .returned
    | none => false

/-- The mutex after a request that holds it has moved. -/
def release (s : State) (holds ended : Bool) : Option Holder :=
  if holds && ended then none else s.mutex

/-- The state after the action. -/
def apply (s : State) : Action → State
  | .beginCheck i locks token =>
    { s with
      checks := Function.update s.checks i
        (some { token, locks, afterRemoval := s.removed.contains token })
      mutex := if locks then some (.check i) else s.mutex }
  | .check i =>
    match s.checks i with
    | some c =>
      let (phase, population) := c.phase.advance svc s.population c.token
      { s with
        population
        checks := Function.update s.checks i (some { c with phase })
        mutex := s.release c.locks (match phase with | .answered _ => true | _ => false) }
    | none => s
  | .beginRemoval j isLogout token =>
    { s with
      removals := Function.update s.removals j (some { token, isLogout })
      mutex := if isLogout then some (.removal j) else s.mutex }
  | .removal j now =>
    match s.removals j with
    | some r =>
      let (phase, population) := r.phase.advance svc r.isLogout now s.population r.token
      { s with
        population
        removals := Function.update s.removals j (some { r with phase })
        mutex := s.release r.isLogout (phase == .returned)
        removed := if phase = .returned then r.token :: s.removed else s.removed }
    | none => s

/-- A removal of the token has started. -/
def Removing (s : State) (token : String) : Prop :=
  ∃ j r, s.removals j = some r ∧ r.token = token

/-- The rest of the service does not bring a token back: token values are fresh, so once a
token is being removed, what the table or the cache has lost of it stays lost. -/
def NoRevival (s : State) (p : Population) : Prop :=
  ∀ token, s.Removing token →
    (s.population.tokens.rows.find? token = none → p.tokens.rows.find? token = none) ∧
    (s.population.tokens.cache.lookup token = none → p.tokens.cache.lookup token = none)

end State

/-- What happens in one step. -/
inductive Label
  | own (a : Action)
  | elsewhere

/-- One step: an action of a request, or anything else the service does to the population. -/
inductive Step : State → Label → State → Prop
  | own {s : State} (a : Action) (h : s.enabled a = true) : Step s (.own a) (s.apply svc a)
  | elsewhere {s : State} (p : Population) (h : s.NoRevival p) :
    Step s .elsewhere { s with population := p }

/-- The service with its concurrent requests; at first there are none. -/
def system : System State Label where
  init s := ∃ p, s = { population := p }
  step := Step svc

/-- A list of actions that are enabled and meet a condition is a run of the restricted
system. -/
theorem reachable_of_allowed (ok : State → Label → Prop) (p : Population) (as : List Action)
    (h : System.Allowed (fun s a ↦ s.enabled a = true ∧ ok s (.own a)) (State.apply svc)
      { population := p } as) :
    ((system svc).restrict ok).Reachable (as.foldl (State.apply svc) { population := p }) := by
  have hinit : ((system svc).restrict ok).init { population := p } := ⟨p, rfl⟩
  have hstep (s : State) (a : Action) (h : s.enabled a = true ∧ ok s (.own a)) :
      ((system svc).restrict ok).step s (.own a) (s.apply svc a) := ⟨.own a h.1, h.2⟩
  exact (System.Reachable.init hinit).run (System.Run.of_allowed hstep _ as h)

/-! ## What an action does to the requests -/

section Actions

variable {s : State} {a : Action}

/-- A check after an action was there before, has just begun, or has moved. -/
theorem State.checks_apply {i : ℕ} {c : Check} (h : (s.apply svc a).checks i = some c) :
    s.checks i = some c ∨
      (∃ locks token, a = .beginCheck i locks token ∧
        c = { token, locks, afterRemoval := s.removed.contains token }) ∨
      ∃ c₀, a = .check i ∧ s.checks i = some c₀ ∧
        c = { c₀ with phase := (c₀.phase.advance svc s.population c₀.token).1 } := by
  cases a with
  | beginCheck i' locks token =>
    by_cases hi : i = i'
    · subst hi
      right; left
      refine ⟨locks, token, rfl, ?_⟩
      simpa [apply, eq_comm] using h
    · left
      simpa [apply, hi] using h
  | check i' =>
    simp only [apply] at h
    rcases hc : s.checks i' with _ | c₀
    · rw [hc] at h
      exact .inl h
    · rw [hc] at h
      by_cases hi : i = i'
      · subst hi
        right; right
        refine ⟨c₀, rfl, hc, ?_⟩
        simpa [eq_comm] using h
      · left
        simpa [hi] using h
  | beginRemoval => exact .inl h
  | removal j now =>
    left
    simp only [apply] at h
    split at h <;> exact h

/-- A removal after an action was there before, has just begun, or has moved. -/
theorem State.removals_apply {j : ℕ} {r : Removal} (h : (s.apply svc a).removals j = some r) :
    s.removals j = some r ∨
      (∃ isLogout token, a = .beginRemoval j isLogout token ∧ r = { token, isLogout }) ∨
      ∃ now r₀, a = .removal j now ∧ s.removals j = some r₀ ∧
        r = { r₀ with phase := (r₀.phase.advance svc r₀.isLogout now s.population r₀.token).1 } := by
  cases a with
  | beginCheck => exact .inl h
  | check i =>
    left
    simp only [apply] at h
    split at h <;> exact h
  | beginRemoval j' isLogout token =>
    by_cases hj : j = j'
    · subst hj
      right; left
      refine ⟨isLogout, token, rfl, ?_⟩
      simpa [apply, eq_comm] using h
    · left
      simpa [apply, hj] using h
  | removal j' now =>
    simp only [apply] at h
    rcases hr : s.removals j' with _ | r₀
    · rw [hr] at h
      exact .inl h
    · rw [hr] at h
      by_cases hj : j = j'
      · subst hj
        right; right
        refine ⟨now, r₀, rfl, hr, ?_⟩
        simpa [eq_comm] using h
      · left
        simpa [hj] using h

/-- An action changes the population only through the request that moves. -/
theorem State.population_apply (s : State) (a : Action) :
    (s.apply svc a).population = s.population ∨
      (∃ i c, a = .check i ∧ s.checks i = some c ∧
        (s.apply svc a).population = (c.phase.advance svc s.population c.token).2) ∨
      ∃ j now r, a = .removal j now ∧ s.removals j = some r ∧
        (s.apply svc a).population =
          (r.phase.advance svc r.isLogout now s.population r.token).2 := by
  cases a with
  | beginCheck => exact .inl rfl
  | check i =>
    rcases hc : s.checks i with _ | c
    · left
      simp only [apply, hc]
    · right; left
      refine ⟨i, c, rfl, hc, ?_⟩
      simp only [apply, hc]
  | beginRemoval => exact .inl rfl
  | removal j now =>
    rcases hr : s.removals j with _ | r
    · left
      simp only [apply, hr]
    · right; right
      refine ⟨j, now, r, rfl, hr, ?_⟩
      simp only [apply, hr]

/-- The removed tokens after an action are those from before, and the token of a removal
that has just returned. -/
theorem State.mem_removed_apply {token : String} (h : token ∈ (s.apply svc a).removed) :
    token ∈ s.removed ∨
      ∃ j now r, a = .removal j now ∧ s.removals j = some r ∧ r.token = token ∧
        (r.phase = .committed ∨ r.phase = .returned) := by
  cases a with
  | beginCheck | beginRemoval => exact .inl h
  | check i =>
    left
    simp only [apply] at h
    split at h <;> exact h
  | removal j now =>
    simp only [apply] at h
    rcases hr : s.removals j with _ | r
    · rw [hr] at h
      exact .inl h
    · rw [hr] at h
      simp only at h
      split at h
      · rename_i hphase
        rcases List.mem_cons.mp h with rfl | h
        · right
          refine ⟨j, now, r, rfl, hr, rfl, ?_⟩
          exact r.phase.of_advance_returned svc r.isLogout now r.token hphase
        · exact .inl h
      · exact .inl h

/-- Committing a deletion touches neither the checks nor the cache. -/
theorem State.apply_commit {j : ℕ} {r : Removal} (now : ℕ) (hr : s.removals j = some r)
    (hphase : r.phase = .invalidated) :
    (s.apply svc (.removal j now)).checks = s.checks ∧
      (s.apply svc (.removal j now)).population.tokens.cache = s.population.tokens.cache := by
  simp only [State.apply, hr, hphase, RemovalPhase.advance, and_self]

/-- A token that is being removed goes on being removed. -/
theorem State.Removing.apply {token : String} (h : s.Removing token) (he : s.enabled a = true) :
    (s.apply svc a).Removing token := by
  obtain ⟨j, r, hr, rfl⟩ := h
  cases a with
  | beginCheck => exact ⟨j, r, hr, rfl⟩
  | check i =>
    refine ⟨j, r, ?_, rfl⟩
    simp only [State.apply]
    split <;> exact hr
  | beginRemoval j' isLogout token =>
    refine ⟨j, r, ?_, rfl⟩
    have hne : j ≠ j' := by
      rintro rfl
      simp [enabled, hr] at he
    simpa [State.apply, hne] using hr
  | removal j' now =>
    by_cases hj : j = j'
    · subst hj
      refine ⟨j, { r with
        phase := (r.phase.advance svc r.isLogout now s.population r.token).1 }, ?_, rfl⟩
      simp only [State.apply, hr, Function.update_self]
    · refine ⟨j, r, ?_, rfl⟩
      simp only [State.apply]
      split
      · simpa [hj] using hr
      · exact hr

end Actions

/-! ## What every run keeps -/

/-- What the requests in progress know: a selected row is the row of the token, and once a
removal has committed the row is gone for good. -/
structure State.Sound (s : State) : Prop where
  keyed : ∀ i c row, s.checks i = some c → c.phase = .selected row → row.token = c.token
  gone : ∀ j r, s.removals j = some r → r.phase = .committed ∨ r.phase = .returned →
    s.population.tokens.rows.find? r.token = none

/-- An action brings no row back. -/
theorem State.find?_apply_eq_none {s : State} (a : Action) {token : String}
    (hnone : s.population.tokens.rows.find? token = none) :
    (s.apply svc a).population.tokens.rows.find? token = none := by
  rcases s.population_apply svc a with h | ⟨i, c, -, -, h⟩ | ⟨j, now, r, -, -, h⟩
  · rw [h]
    exact hnone
  · rw [h, (CheckPhase.advance_moves svc c.token c.phase).rows]
    exact hnone
  · rw [h]
    exact r.phase.advance_find?_eq_none svc r.isLogout now r.token hnone

/-- An action brings a token into the cache only from a check that has selected its row. -/
theorem State.lookup_apply_eq_none {s : State} (a : Action) {token : String}
    (hnone : s.population.tokens.cache.lookup token = none)
    (hsel : ∀ i c row, s.checks i = some c → c.phase = .selected row → row.token ≠ token) :
    (s.apply svc a).population.tokens.cache.lookup token = none := by
  rcases s.population_apply svc a with h | ⟨i, c, -, hc, h⟩ | ⟨j, now, r, -, -, h⟩
  · rw [h]
    exact hnone
  · rw [h]
    exact (CheckPhase.advance_moves svc c.token c.phase).lookup_eq_none svc hnone
      fun row hrow ↦ hsel i c row hc hrow
  · rw [h]
    exact r.phase.advance_lookup_eq_none svc r.isLogout now r.token hnone

/-- Every step keeps what the requests know. -/
theorem State.Sound.step {s s' : State} {l : Label} (h : s.Sound) (hs : Step svc s l s') :
    s'.Sound := by
  cases hs with
  | own a he =>
    constructor
    · intro i c row hc hphase
      rcases checks_apply svc hc with hc | ⟨locks, token, -, rfl⟩ | ⟨c₀, -, -, rfl⟩
      · exact h.keyed i c row hc hphase
      · cases hphase
      · exact Table.key_of_find? (CheckPhase.find?_of_advance_selected svc hphase)
    · intro j r hr hphase
      rcases removals_apply svc hr with hr | ⟨isLogout, token, -, rfl⟩ | ⟨now, r₀, rfl, hr₀, rfl⟩
      · exact find?_apply_eq_none svc a (h.gone j r hr hphase)
      · rcases hphase with hphase | hphase <;> cases hphase
      · rcases hphase with hphase | hphase
        · have hpop : (s.apply svc (.removal j now)).population =
              (r₀.phase.advance svc r₀.isLogout now s.population r₀.token).2 := by
            simp only [State.apply, hr₀]
          rw [hpop]
          exact r₀.phase.find?_of_advance_committed svc r₀.isLogout now r₀.token hphase
        · exact find?_apply_eq_none svc _
            (h.gone j r₀ hr₀ (r₀.phase.of_advance_returned svc r₀.isLogout now r₀.token hphase))
  | elsewhere p hp =>
    refine ⟨h.keyed, fun j r hr hphase ↦ ?_⟩
    exact (hp r.token ⟨j, r, hr, rfl⟩).1 (h.gone j r hr hphase)

/-- Nothing is left of a token: no row, no cache entry, and no check that is about to make
one. -/
structure State.Forgotten (s : State) (token : String) : Prop where
  row : s.population.tokens.rows.find? token = none
  entry : s.population.tokens.cache.lookup token = none
  unselected : ∀ i c row, s.checks i = some c → c.token = token → c.phase ≠ .selected row

/-- No action brings a token back of which nothing is left. -/
theorem State.Forgotten.apply {s : State} {token : String} (h : s.Forgotten token)
    (hsound : s.Sound) (a : Action) : (s.apply svc a).Forgotten token := by
  refine ⟨find?_apply_eq_none svc a h.row, lookup_apply_eq_none svc a h.entry ?_, ?_⟩
  · intro i c row hc hphase hrow
    exact h.unselected i c row hc ((hsound.keyed i c row hc hphase).symm.trans hrow) hphase
  · intro i c row hc htoken hphase
    rcases checks_apply svc hc with hc | ⟨locks, token, -, rfl⟩ | ⟨c₀, -, -, rfl⟩
    · exact h.unselected i c row hc htoken hphase
    · cases hphase
    · have hrow := CheckPhase.find?_of_advance_selected svc hphase
      have htoken : c₀.token = token := htoken
      rw [htoken, h.row] at hrow
      cases hrow

/-- A token that is being removed and of which nothing is left does not come back. -/
theorem State.Forgotten.step {s s' : State} {l : Label} {token : String} (h : s.Forgotten token)
    (hsound : s.Sound) (hr : s.Removing token) (hs : Step svc s l s') : s'.Forgotten token := by
  cases hs with
  | own a he => exact h.apply svc hsound a
  | elsewhere p hp =>
    exact ⟨(hp token hr).1 h.row, (hp token hr).2 h.entry, h.unselected⟩

/-! ## Removals that return when nothing is left -/

/-- The condition on a step: a removal that returns leaves neither a cache entry of its
token nor a check that has selected the row and not yet cached it. -/
def ReturnsClean (s : State) : Label → Prop
  | .own (.removal j _) =>
    ∀ r, s.removals j = some r → r.phase = .committed →
      s.population.tokens.cache.lookup r.token = none ∧
      ∀ i c row, s.checks i = some c → c.token = r.token → c.phase ≠ .selected row
  | _ => True

/-- A check that cannot succeed any more. -/
def CheckPhase.Hopeless : CheckPhase → Prop
  | .started | .missed | .answered none => True
  | _ => False

/-- What runs keep in which every removal returns clean. -/
structure State.Clean (s : State) : Prop where
  sound : s.Sound
  forgotten : ∀ token ∈ s.removed, s.Removing token ∧ s.Forgotten token
  late : ∀ i c, s.checks i = some c → c.afterRemoval = true →
    c.token ∈ s.removed ∧ CheckPhase.Hopeless c.phase

/-- A check of a token of which nothing is left stays hopeless. -/
theorem CheckPhase.Hopeless.move {p q : Population} {token : String} {a b : CheckPhase}
    (h : CheckPhase.Hopeless a) (hm : CheckPhase.Moves svc p token a b q)
    (hrow : p.tokens.rows.find? token = none) (hentry : p.tokens.cache.lookup token = none) :
    CheckPhase.Hopeless b := by
  cases hm with
  | hit hhit =>
    rw [hentry] at hhit
    cases hhit
  | select hsel =>
    rw [hrow] at hsel
    cases hsel
  | miss | absent => trivial
  | fill | revoked | answer => cases h
  | done => exact h

/-- The tokens that were removed stay so under an action. -/
theorem State.removed_apply {s : State} (a : Action) {token : String} (h : token ∈ s.removed) :
    token ∈ (s.apply svc a).removed := by
  cases a with
  | beginCheck | beginRemoval => exact h
  | check i =>
    simp only [apply]
    split <;> exact h
  | removal j now =>
    simp only [apply]
    split
    · simp only
      split
      · exact List.mem_cons_of_mem _ h
      · exact h
    · exact h

/-- A step whose removal, if any, returns clean keeps all of this. -/
theorem State.Clean.step {s s' : State} {l : Label} (h : s.Clean) (hs : Step svc s l s')
    (hl : ReturnsClean s l) : s'.Clean := by
  have hsound := h.sound.step svc hs
  cases hs with
  | own a he =>
    refine ⟨hsound, ?_, ?_⟩
    · intro token hmem
      rcases mem_removed_apply svc hmem with hmem | ⟨j, now, r, rfl, hr, rfl, hphase⟩
      · obtain ⟨hremoving, hforgotten⟩ := h.forgotten token hmem
        exact ⟨hremoving.apply svc he, hforgotten.step svc h.sound hremoving (.own a he)⟩
      · have hremoving : s.Removing r.token := ⟨j, r, hr, rfl⟩
        have hcommitted : r.phase = .committed := by
          rcases hphase with hphase | hphase
          · exact hphase
          · simp [enabled, hr, hphase] at he
        obtain ⟨hentry, hsel⟩ := hl r hr hcommitted
        have hforgotten : s.Forgotten r.token :=
          ⟨h.sound.gone j r hr (.inl hcommitted), hentry, hsel⟩
        exact ⟨hremoving.apply svc he, hforgotten.step svc h.sound hremoving (.own _ he)⟩
    · intro i c hc hafter
      rcases checks_apply svc hc with hc | ⟨locks, token, rfl, rfl⟩ | ⟨c₀, rfl, hc₀, rfl⟩
      · obtain ⟨hmem, hhopeless⟩ := h.late i c hc hafter
        exact ⟨removed_apply svc a hmem, hhopeless⟩
      · exact ⟨removed_apply svc _ (List.contains_iff_mem.mp hafter), trivial⟩
      · obtain ⟨hmem, hhopeless⟩ := h.late i c₀ hc₀ hafter
        obtain ⟨-, hforgotten⟩ := h.forgotten c₀.token hmem
        exact ⟨removed_apply svc _ hmem, hhopeless.move svc
          (CheckPhase.advance_moves svc c₀.token c₀.phase) hforgotten.row hforgotten.entry⟩
  | elsewhere p hp =>
    refine ⟨hsound, fun token hmem ↦ ?_, h.late⟩
    obtain ⟨hremoving, hforgotten⟩ := h.forgotten token hmem
    exact ⟨hremoving, hforgotten.step svc h.sound hremoving (.elsewhere p hp)⟩

/-- Without requests in progress there is nothing to keep. -/
theorem State.Clean.init {s : State} (h : (system svc).init s) : s.Clean := by
  obtain ⟨p, rfl⟩ := h
  refine ⟨⟨?_, ?_⟩, ?_, ?_⟩ <;> intro _ <;> simp

/-- Under every interleaving in which every removal returns without leaving a cache entry
of its token or a check that is about to make one, no check that starts after a removal of
its token has returned succeeds. -/
theorem removed_token_never_accepted {s : State}
    (hs : ((system svc).restrict ReturnsClean).Reachable s) {i : ℕ} {c : Check}
    (hc : s.checks i = some c) (hafter : c.afterRemoval = true) : c.accepts = false := by
  have hinit (s₀ : State) (h₀ : ((system svc).restrict ReturnsClean).init s₀) : s₀.Clean :=
    State.Clean.init svc h₀
  have hclean : s.Clean :=
    hs.invariant hinit fun _ _ _ h ⟨hstep, hl⟩ ↦ h.step svc hstep hl
  obtain ⟨-, hhopeless⟩ := hclean.late i c hc hafter
  unfold Check.accepts
  split
  · rename_i hphase
    rw [hphase] at hhopeless
    cases hhopeless
  · rfl

/-! ### Two runs

Both start after the login of the short run, whose token is `token-b`. -/

/-- The population after the login. -/
def samplePopulation : Population := (Storage.sampleLoggedIn false).population false

/-- A logout from start to end, and then a check. -/
def sampleLogoutThenCheck : List Action :=
  [.beginRemoval 0 true "token-b", .removal 0 200, .removal 0 200, .removal 0 200, .removal 0 200,
    .beginCheck 0 false "token-b", .check 0, .check 0]

/-- A check that selects the row before the logout commits and caches it after the logout
has invalidated the entry, and a second check once the logout has returned. -/
def sampleOvertaken : List Action :=
  [.beginCheck 0 false "token-b", .check 0, .check 0,
    .beginRemoval 0 true "token-b", .removal 0 200, .removal 0 200,
    .check 0, .removal 0 200, .removal 0 200,
    .beginCheck 1 false "token-b", .check 1, .check 1]

/-- The statement for the check that follows the uninterrupted logout. -/
theorem removed_token_never_accepted_sample :
    ∃ s c, ((system .sample).restrict ReturnsClean).Reachable s ∧ s.checks 0 = some c ∧
      c.afterRemoval = true ∧ c.accepts = false := by
  have hreach := reachable_of_allowed .sample ReturnsClean samplePopulation sampleLogoutThenCheck (by
    refine ⟨⟨rfl, trivial⟩, ⟨rfl, ?_⟩, ⟨rfl, ?_⟩, ⟨rfl, ?_⟩, ⟨rfl, ?_⟩, ⟨rfl, trivial⟩,
      ⟨rfl, trivial⟩, ⟨rfl, trivial⟩, trivial⟩
    · rintro r ⟨⟩ ⟨⟩
    · rintro r ⟨⟩ ⟨⟩
    · rintro r ⟨⟩ ⟨⟩
    · rintro r ⟨⟩ -
      exact ⟨by decide, by rintro i c row ⟨⟩⟩)
  obtain ⟨c, hc, hafter⟩ : ∃ c, (sampleLogoutThenCheck.foldl (State.apply .sample)
      { population := samplePopulation }).checks 0 = some c ∧ c.afterRemoval = true :=
    (Option.any_eq_true _ _).mp (by decide)
  exact ⟨_, c, hreach, hc, hafter, removed_token_never_accepted .sample hreach hc hafter⟩

/-- In the other run the token is accepted by a check that starts after the logout of the
token has returned. -/
theorem token_accepted_after_logout :
    ∃ s c, (system .sample).Reachable s ∧ s.checks 1 = some c ∧ c.token = "token-b" ∧
      c.afterRemoval = true ∧ c.accepts = true := by
  have hreach := reachable_of_allowed .sample (fun _ _ ↦ True) samplePopulation sampleOvertaken
    (by decide)
  obtain ⟨c, hc, h⟩ : ∃ c, (sampleOvertaken.foldl (State.apply .sample)
      { population := samplePopulation }).checks 1 = some c ∧
        (c.token == "token-b" && c.afterRemoval && c.accepts) = true :=
    (Option.any_eq_true _ _).mp (by decide)
  simp only [Bool.and_eq_true, beq_iff_eq] at h
  exact ⟨_, c, hreach.of_restrict, hc, h.1.1, h.1.2, h.2⟩

end TokenRace

end OwSec
