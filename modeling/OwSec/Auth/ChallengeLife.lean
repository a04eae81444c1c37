import OwSec.Auth.MFAServer

/-!
# The life of a challenge

Runs of starts, resends and completions over one cache of challenges, with a clock and with
identifiers that are drawn afresh.  The history keeps every challenge that was stored and, for
each completion, what was presented and what was stored under the identifier at that moment.

`ChallengeLaw` is what completions should obey: at most one succeeds for each challenge, with
its answer and within five minutes, and a failed one changes nothing.  Only starting another
challenge drops old ones, so the law holds exactly in the runs in which no completion has the
right answer too late.
-/

namespace OwSec

open SecurityObjects Kit

/-- A call of `CompleteMFAChallenge`. -/
structure CompletionAttempt where
  now : ℕ
  /-- The identifier and the answer that were presented, where they are texts. -/
  uuid : Option String
  answer : Option String
  /-- The challenge that was stored under the identifier. -/
  found : Option MFACacheEntry
  result : Completion

/-- The challenges with their history. -/
structure Challenges where
  cache : MFAChallengeCache := ∅
  clock : ℕ := 0
  /-- The challenges that were stored, with their identifiers. -/
  started : List (String × MFACacheEntry) := []
  attempts : List CompletionAttempt := []

/-- What happens in one step. -/
inductive ChallengeEvent
  | start (services : Messaging) (m : Moment) (random : ℕ) (uInfo : UserInfoAndPolicy)
  | resend (services : Messaging) (now : ℕ) (uuid : String)
  | complete (now : ℕ) (o : JsonObject)

namespace CompletionAttempt

/-- The identifier of the challenge that the attempt completed. -/
def spent (a : CompletionAttempt) : Option String :=
  match a.result with
  | .completed _ => a.uuid
  | _ => none

/-- The right answer to a challenge that is more than five minutes old. -/
def LateRight (lib : TotpLibrary) (a : CompletionAttempt) : Prop :=
  ∃ hint answer, a.found = some hint ∧ a.answer = some answer ∧
    hint.accepts lib answer a.now = true ∧ hint.created + 300 < a.now

end CompletionAttempt

namespace Challenges

variable (lib : TotpLibrary) (json : JsonLibrary)

/-- `StartMFAChallenge`. -/
def start (s : Challenges) (services : Messaging) (m : Moment) (random : ℕ)
    (uInfo : UserInfoAndPolicy) : Challenges :=
  { s with
    cache := (s.cache.startMFAChallenge services m random uInfo).2.2
    clock := m.now
    started :=
      if services.methodEnabled uInfo.userinfo.userTypeProprietaryInfo.mfa.method then
        (m.uuid, MFAChallengeCache.newEntry m.now random uInfo) :: s.started
      else s.started }

/-- The record of a call of `CompleteMFAChallenge`. -/
def attempt (s : Challenges) (now : ℕ) (o : JsonObject) : CompletionAttempt where
  now := now
  uuid := MFAChallengeCache.field json o "uuid"
  answer := MFAChallengeCache.field json o "answer"
  found := (MFAChallengeCache.field json o "uuid").bind s.cache.lookup
  result := (s.cache.completeMFAChallenge lib json now o).1

/-- `CompleteMFAChallenge`. -/
def complete (s : Challenges) (now : ℕ) (o : JsonObject) : Challenges :=
  { s with
    cache := (s.cache.completeMFAChallenge lib json now o).2
    clock := now
    attempts := s.attempt lib json now o :: s.attempts }

/-- One step. -/
inductive Step : Challenges → ChallengeEvent → Challenges → Prop
  | start {s : Challenges} (services : Messaging) (m : Moment) (random : ℕ)
    (uInfo : UserInfoAndPolicy) (hclock : s.clock ≤ m.now ∧ m.now < 2 ^ 64)
    (hfresh : m.uuid ∉ s.started.map Prod.fst) :
    Step s (.start services m random uInfo) (s.start services m random uInfo)
  | resend {s : Challenges} (services : Messaging) (now : ℕ) (uuid : String)
    (hclock : s.clock ≤ now ∧ now < 2 ^ 64) :
    Step s (.resend services now uuid) { s with clock := now }
  | complete {s : Challenges} (now : ℕ) (o : JsonObject) (hclock : s.clock ≤ now ∧ now < 2 ^ 64) :
    Step s (.complete now o) (s.complete lib json now o)

/-- No challenge has been started. -/
def AtStart (s : Challenges) : Prop := s.cache = ∅ ∧ s.started = [] ∧ s.attempts = []

/-- The calls as a transition system. -/
def system : System Challenges ChallengeEvent where
  init := AtStart
  step := Step lib json

/-- What the completions of a run should obey. -/
structure ChallengeLaw (s : Challenges) : Prop where
  /-- Each challenge is completed at most once. -/
  once : (s.attempts.filterMap CompletionAttempt.spent).Nodup
  /-- A completion answers the user of the challenge, to its answer and in time. -/
  answered : ∀ a ∈ s.attempts, ∀ uInfo, a.result = .completed uInfo →
    ∃ uuid hint answer, a.uuid = some uuid ∧ (uuid, hint) ∈ s.started ∧ hint.uInfo = uInfo ∧
      a.answer = some answer ∧ hint.accepts lib answer a.now = true ∧ a.now ≤ hint.created + 300
  /-- A failed completion leaves the cache unchanged. -/
  unchanged : ∀ now o, (∀ uInfo, (s.cache.completeMFAChallenge lib json now o).1 ≠ .completed uInfo) →
    (s.cache.completeMFAChallenge lib json now o).2 = s.cache

/-! ## The invariant -/

/-- What is known about an attempt of the history. -/
structure Recorded (s : Challenges) (a : CompletionAttempt) : Prop where
  found : ∀ hint, a.found = some hint → ∃ uuid, a.uuid = some uuid ∧ (uuid, hint) ∈ s.started
  result : ∀ uInfo, a.result = .completed uInfo ↔ ∃ hint answer, a.found = some hint ∧
    a.answer = some answer ∧ hint.accepts lib answer a.now = true ∧ hint.uInfo = uInfo
  gone : ∀ uuid, a.spent = some uuid → s.cache.lookup uuid = none ∧ uuid ∈ s.started.map Prod.fst

/-- The cache and the history fit together. -/
structure Sound (s : Challenges) : Prop where
  stored : ∀ uuid hint, s.cache.lookup uuid = some hint → (uuid, hint) ∈ s.started
  distinct : (s.started.map Prod.fst).Nodup
  once : (s.attempts.filterMap CompletionAttempt.spent).Nodup
  attempts : ∀ a ∈ s.attempts, Recorded lib s a

section Steps

variable {lib json} {s s' : Challenges}

/-- What is known about an attempt stays known when challenges are added under new identifiers
and others are dropped. -/
theorem Recorded.mono {a : CompletionAttempt} (h : Recorded lib s a)
    (hstarted : s.started ⊆ s'.started)
    (hcache : ∀ uuid ∈ s.started.map Prod.fst, s.cache.lookup uuid = none →
      s'.cache.lookup uuid = none) : Recorded lib s' a where
  found hint hf := by
    obtain ⟨uuid, huuid, hmem⟩ := h.found hint hf
    exact ⟨uuid, huuid, hstarted hmem⟩
  result := h.result
  gone uuid hspent := by
    obtain ⟨hnone, hmem⟩ := h.gone uuid hspent
    exact ⟨hcache uuid hmem hnone, List.map_subset _ hstarted hmem⟩

theorem Sound.start (hs : Sound lib s) (services : Messaging) (m : Moment) (random : ℕ)
    (uInfo : UserInfoAndPolicy) (hfresh : m.uuid ∉ s.started.map Prod.fst) :
    Sound lib (s.start services m random uInfo) := by
  have hcache := MFAChallengeCache.startMFAChallenge_cache services m random s.cache uInfo
  have hevicts := MFAChallengeCache.evicts_cleanCache m.now s.cache
  unfold Challenges.start
  by_cases hmethod : services.methodEnabled uInfo.userinfo.userTypeProprietaryInfo.mfa.method = true
  · simp only [hcache, hmethod, if_true]
    have hlookup (uuid : String) (hne : uuid ≠ m.uuid) :
        AList.lookup uuid (AList.insert m.uuid
          (MFAChallengeCache.newEntry m.now random uInfo) (s.cache.cleanCache m.now)) =
            (s.cache.cleanCache m.now).lookup uuid := AList.lookup_insert_ne hne
    constructor
    case stored =>
      intro uuid hint hl
      by_cases huuid : uuid = m.uuid
      · subst huuid
        rw [AList.lookup_insert] at hl
        obtain rfl := Option.some.inj hl
        exact List.mem_cons_self
      · rw [hlookup uuid huuid] at hl
        exact List.mem_cons_of_mem _ (hs.stored uuid hint (hevicts uuid hint hl))
    case distinct => exact List.nodup_cons.mpr ⟨hfresh, hs.distinct⟩
    case once => exact hs.once
    case attempts =>
      refine fun a ha ↦ (hs.attempts a ha).mono (List.subset_cons_self _ _) fun uuid hmem hnone ↦ ?_
      have hne : uuid ≠ m.uuid := by
        rintro rfl
        exact hfresh hmem
      exact (hlookup uuid hne).trans (hevicts.lookup_eq_none hnone)
  · simp only [hcache, hmethod]
    constructor
    case stored => exact fun uuid hint hl ↦ hs.stored uuid hint (hevicts uuid hint hl)
    case distinct => exact hs.distinct
    case once => exact hs.once
    case attempts =>
      exact fun a ha ↦ (hs.attempts a ha).mono (List.Subset.refl _)
        fun _ _ hnone ↦ hevicts.lookup_eq_none hnone

/-- The record of a completion says when it succeeded. -/
theorem attempt_completed_iff (s : Challenges) (now : ℕ) (o : JsonObject)
    (uInfo : UserInfoAndPolicy) :
    (s.attempt lib json now o).result = .completed uInfo ↔
      ∃ hint answer, (s.attempt lib json now o).found = some hint ∧
        (s.attempt lib json now o).answer = some answer ∧
        hint.accepts lib answer now = true ∧ hint.uInfo = uInfo := by
  refine (MFAChallengeCache.completeMFAChallenge_completed_iff lib json).trans ?_
  constructor
  · rintro ⟨uuid, hint, answer, huuid, hlookup, hanswer, haccepts, hinfo⟩
    exact ⟨hint, answer, Option.bind_eq_some_iff.mpr ⟨uuid, huuid, hlookup⟩, hanswer, haccepts, hinfo⟩
  · rintro ⟨hint, answer, hfound, hanswer, haccepts, hinfo⟩
    obtain ⟨uuid, huuid, hlookup⟩ := Option.bind_eq_some_iff.mp hfound
    exact ⟨uuid, hint, answer, huuid, hlookup, hanswer, haccepts, hinfo⟩

theorem Sound.complete (hs : Sound lib s) (now : ℕ) (o : JsonObject) :
    Sound lib (s.complete lib json now o) := by
  have hcases := MFAChallengeCache.completeMFAChallenge_cache lib json now s.cache o
  -- a completion drops at most a challenge
  have hevicts : Cache.Evicts s.cache (s.cache.completeMFAChallenge lib json now o).2 := by
    rcases hcases with ⟨-, hsame⟩ | ⟨-, uuid, -, -, herase⟩
    · rw [hsame]
      exact Cache.Evicts.refl _
    · rw [herase]
      exact Cache.Evicts.erase _ _
  have hmono (a : CompletionAttempt) (ha : a ∈ s.attempts) :
      Recorded lib (s.complete lib json now o) a :=
    (hs.attempts a ha).mono (List.Subset.refl _) fun _ _ hnone ↦ hevicts.lookup_eq_none hnone
  -- what the new attempt spends was stored, and is gone
  have hspent (uuid : String) (h : (s.attempt lib json now o).spent = some uuid) :
      (∃ hint, s.cache.lookup uuid = some hint) ∧
        (s.cache.completeMFAChallenge lib json now o).2.lookup uuid = none := by
    rcases hresult : (s.attempt lib json now o).result with uInfo | _ | _
    · have huuid : (s.attempt lib json now o).uuid = some uuid := by
        unfold CompletionAttempt.spent at h
        rw [hresult] at h
        exact h
      obtain ⟨hint, answer, hfound, -⟩ := (attempt_completed_iff s now o uInfo).mp hresult
      obtain ⟨uuid', huuid', hlookup⟩ := Option.bind_eq_some_iff.mp hfound
      obtain rfl := Option.some.inj (huuid.symm.trans huuid')
      refine ⟨⟨hint, hlookup⟩, ?_⟩
      rcases hcases with ⟨hnot, -⟩ | ⟨-, uuid'', -, huuid'', herase⟩
      · exact absurd hresult (hnot uInfo)
      · obtain rfl := Option.some.inj (huuid.symm.trans huuid'')
        rw [herase, Cache.lookup_erase_eq, if_pos rfl]
    all_goals
      unfold CompletionAttempt.spent at h
      rw [hresult] at h
      cases h
  constructor
  case stored => exact fun uuid hint hl ↦ hs.stored uuid hint (hevicts uuid hint hl)
  case distinct => exact hs.distinct
  case once =>
    show ((s.attempt lib json now o :: s.attempts).filterMap CompletionAttempt.spent).Nodup
    rw [List.filterMap_cons]
    rcases hnew : (s.attempt lib json now o).spent with _ | uuid
    · exact hs.once
    · refine List.nodup_cons.mpr ⟨fun hmem ↦ ?_, hs.once⟩
      obtain ⟨a, ha, hold⟩ := List.mem_filterMap.mp hmem
      obtain ⟨⟨hint, hlookup⟩, -⟩ := hspent uuid hnew
      rw [((hs.attempts a ha).gone uuid hold).1] at hlookup
      cases hlookup
  case attempts =>
    intro a ha
    rcases List.mem_cons.mp ha with rfl | ha
    · constructor
      case found =>
        intro hint hfound
        obtain ⟨uuid, huuid, hlookup⟩ := Option.bind_eq_some_iff.mp hfound
        exact ⟨uuid, huuid, hs.stored uuid hint hlookup⟩
      case result => exact attempt_completed_iff s now o
      case gone =>
        intro uuid hnew
        obtain ⟨⟨hint, hlookup⟩, hgone⟩ := hspent uuid hnew
        exact ⟨hgone, List.mem_map_of_mem (hs.stored uuid hint hlookup)⟩
    · exact hmono a ha

theorem Sound.atStart (h : AtStart s) : Sound lib s := by
  obtain ⟨hcache, hstarted, hattempts⟩ := h
  constructor
  case stored =>
    intro uuid hint hl
    rw [hcache] at hl
    simp at hl
  case distinct => simp [hstarted]
  case once => simp [hattempts]
  case attempts => simp [hattempts]

/-- One step keeps the invariant. -/
theorem Sound.step {e : ChallengeEvent} (hs : Sound lib s) (h : Step lib json s e s') :
    Sound lib s' := by
  cases h with
  | start services m random uInfo _ hfresh => exact hs.start services m random uInfo hfresh
  | resend => exact ⟨hs.stored, hs.distinct, hs.once,
      fun a ha ↦ (hs.attempts a ha).mono (List.Subset.refl _) fun _ _ hnone ↦ hnone⟩
  | complete now o => exact hs.complete now o

/-- Every run keeps the invariant. -/
theorem Sound.reachable (h : (system lib json).Reachable s) : Sound lib s :=
  h.invariant (fun _ h₀ ↦ .atStart h₀) (fun _ _ _ hs hstep ↦ hs.step hstep)

end Steps

/-- In every run, the completions obey the law exactly when none of them gives the right answer
to a challenge that is more than five minutes old. -/
theorem challengeLaw_iff {s : Challenges} (h : (system lib json).Reachable s) :
    ChallengeLaw lib json s ↔ ∀ a ∈ s.attempts, ¬ a.LateRight lib := by
  have hs := Sound.reachable h
  constructor
  · rintro hlaw a ha ⟨hint, answer, hfound, hanswer, haccepts, hlate⟩
    have hresult := ((hs.attempts a ha).result hint.uInfo).mpr
      ⟨hint, answer, hfound, hanswer, haccepts, rfl⟩
    obtain ⟨uuid, hint', _, huuid, hmem', -, -, -, hintime⟩ := hlaw.answered a ha _ hresult
    obtain ⟨uuid', huuid', hmem⟩ := (hs.attempts a ha).found hint hfound
    obtain rfl := Option.some.inj (huuid.symm.trans huuid')
    -- the challenge of an identifier is unique
    have hsame := List.inj_on_of_nodup_map hs.distinct hmem hmem' rfl
    obtain rfl : hint = hint' := congrArg Prod.snd hsame
    omega
  · intro hearly
    constructor
    case once => exact hs.once
    case answered =>
      intro a ha uInfo hresult
      obtain ⟨hint, answer, hfound, hanswer, haccepts, hinfo⟩ :=
        ((hs.attempts a ha).result uInfo).mp hresult
      obtain ⟨uuid, huuid, hmem⟩ := (hs.attempts a ha).found hint hfound
      refine ⟨uuid, hint, answer, huuid, hmem, hinfo, hanswer, haccepts, ?_⟩
      by_contra hlate
      exact hearly a ha ⟨hint, answer, hfound, hanswer, haccepts, Nat.lt_of_not_le hlate⟩
    case unchanged =>
      intro now o hfailed
      rcases MFAChallengeCache.completeMFAChallenge_cache lib json now s.cache o with
        ⟨-, hsame⟩ | ⟨uInfo, -, hcompleted, -⟩
      · exact hsame
      · exact absurd hcompleted (hfailed uInfo)

/-! ## A challenge that is completed late

A challenge is started for a user with a telephone, and nothing else happens until it is
completed. -/

/-- Messages go out. -/
def sampleServices : Messaging where
  smsEnabled := true
  mailEnabled := true
  sendSMS _ _ := true
  sendEmailChallengeCode _ _ := true

/-- The user of the challenge, as the login left it. -/
def sampleLogin : UserInfoAndPolicy where
  webtoken := { accessToken := "token-a", username := "uuid-a" }
  userinfo :=
    { id := "uuid-a", email := "jo@example.com",
      userTypeProprietaryInfo :=
        { mobiles := [{ number := "+15550100", verified := true }]
          mfa := { enabled := true, method := "sms" } } }

/-- The cache after the start at 1700000000 and a completion at `now`. -/
def sampleCompletion (now : ℕ) : Challenges :=
  (({} : Challenges).start sampleServices (.sample 1700000000 "m") 482913 sampleLogin).complete
    .sample .sample now [("uuid", .str "uuid-m"), ("answer", .str "482913")]

theorem atStart_empty : AtStart {} := ⟨rfl, rfl, rfl⟩

theorem reachable_sampleCompletion (now : ℕ) (hnow : 1700000000 ≤ now ∧ now < 2 ^ 64) :
    (system .sample .sample).Reachable (sampleCompletion now) :=
  ((System.Reachable.init atStart_empty).step
    (Step.start sampleServices (.sample 1700000000 "m") 482913 sampleLogin (by decide)
      (by decide))).step (Step.complete now _ hnow)

/-- The statement for a completion after ten seconds, which succeeds. -/
theorem challengeLaw_iff_sample :
    (ChallengeLaw .sample .sample (sampleCompletion 1700000010) ↔
      ∀ a ∈ (sampleCompletion 1700000010).attempts, ¬ a.LateRight .sample) ∧
    (sampleCompletion 1700000010).attempts.filterMap CompletionAttempt.spent = ["uuid-m"] :=
  ⟨challengeLaw_iff .sample .sample (reachable_sampleCompletion 1700000010 (by decide)), by decide⟩

/-- After an hour the answer is still accepted. -/
theorem challenge_completed_after_an_hour :
    ∃ s, (system .sample .sample).Reachable s ∧ ¬ ChallengeLaw .sample .sample s ∧
      ∃ a ∈ s.attempts, a.result = .completed sampleLogin ∧
        ∃ hint, a.found = some hint ∧ a.now = hint.created + 3600 := by
  have hresult : (sampleCompletion 1700003600).attempts.map CompletionAttempt.result =
      [.completed sampleLogin] := by decide
  refine ⟨_, reachable_sampleCompletion 1700003600 (by decide), fun hlaw ↦ ?_,
    _, List.mem_cons_self, List.cons.inj hresult |>.1, _, rfl, rfl⟩
  obtain ⟨_, hint, _, -, hmem, -, -, -, hintime⟩ :=
    hlaw.answered _ List.mem_cons_self sampleLogin (List.cons.inj hresult).1
  obtain rfl : hint = MFAChallengeCache.newEntry 1700000000 482913 sampleLogin :=
    congrArg Prod.snd (List.mem_singleton.mp hmem)
  exact absurd hintime (by decide)

end Challenges

end OwSec
