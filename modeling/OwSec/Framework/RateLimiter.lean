import Mathlib.Data.Int.Notation
import Mathlib.Data.List.Count
import OwSec.Kit.Cache
import OwSec.Kit.Run

/-!
# The rate limiter

`RESTAPI_RateLimiter::IsRateLimited` (`framework/RESTAPI_RateLimiter.h`) counts the calls of a
client to a path in windows of a fixed length.  A window is not aligned to the clock: the first
call after the last window is over starts the next one.

So a period of time that is as long as a window can meet two of them, and no more: it has twice as
many admitted calls as a window may have, at most.  A client is refused for the calls of one window
only, which is a period itself.
-/

namespace OwSec

open Kit

/-- `RESTAPI_RateLimiter::ClientCacheEntry`.  `Count` is an `int`, and `Profile.count_le` says when
it does not leave its range. -/
structure ClientCacheEntry where
  start : ℤ := 0
  count : ℤ := 0

/-- An entry of the cache, with the time at which it was added or updated last. -/
structure HeldEntry where
  entry : ClientCacheEntry
  stored : ℤ

/-- What does not change while the limiter runs. -/
structure RateLimiter where
  /-- `str_hash`. -/
  strHash : String → ℕ
  /-- How long `Poco::ExpireLRUCache` keeps an entry that is not stored again. -/
  expiry : ℤ

/-- A call of `IsRateLimited`. -/
structure RateCall where
  /-- `uri.getPath() + R.clientAddress().host().toString()`. -/
  client : String
  now : ℤ
  period : ℤ
  maxCalls : ℤ

namespace RateLimiter

variable (l : RateLimiter)

/-- `Cache_.get`: an entry that has expired is not found. -/
def get (now : ℤ) (cache : Cache ℕ HeldEntry) (h : ℕ) : Option ClientCacheEntry :=
  (cache.lookup h).bind fun held ↦
    if l.expiry ≤ now - held.stored then none else some held.entry

/-- `Cache_.add` and `Cache_.update`. -/
def store (now : ℤ) (cache : Cache ℕ HeldEntry) (h : ℕ) (e : ClientCacheEntry) :
    Cache ℕ HeldEntry :=
  cache.insert h { entry := e, stored := now }

/-- `RESTAPI_RateLimiter::IsRateLimited`. -/
def isRateLimited (c : RateCall) (cache : Cache ℕ HeldEntry) : Bool × Cache ℕ HeldEntry :=
  let h := l.strHash c.client
  match l.get c.now cache h with
  | none => (false, store c.now cache h { start := c.now, count := 1 })
  | some e =>
    if c.now - e.start < c.period then
      let e := { e with count := e.count + 1 }
      (decide (c.maxCalls < e.count), store c.now cache h e)
    else (false, store c.now cache h { start := c.now, count := 1 })

/-! ## Runs -/

/-- A call and its answer. -/
structure Answered where
  call : RateCall
  limited : Bool

/-- The limiter with the calls so far, the latest first. -/
structure State where
  cache : Cache ℕ HeldEntry := ∅
  history : List Answered := []

/-- A call is answered. -/
def State.answer (s : State) (c : RateCall) : State where
  cache := (l.isRateLimited c s.cache).2
  history := ⟨c, (l.isRateLimited c s.cache).1⟩ :: s.history

/-- The calls of one client to one path are told from other calls by their hash, and all of them
are limited in the same way. -/
structure Profile where
  client : String
  period : ℤ
  maxCalls : ℤ
  period_pos : 0 < period
  maxCalls_pos : 1 ≤ maxCalls

/-- A call that may come next: the clock does not go back, and the call is one of the client, or
has another hash. -/
structure Profile.Allows (p : Profile) (s : State) (c : RateCall) : Prop where
  clock : ∀ a ∈ s.history, a.call.now ≤ c.now
  limits : c.client = p.client → c.period = p.period ∧ c.maxCalls = p.maxCalls
  apart : l.strHash c.client = l.strHash p.client → c.client = p.client

/-- The limiter as a transition system: one call after the other. -/
def system (p : Profile) : System State RateCall where
  init s := s = {}
  step s c s' := p.Allows l s c ∧ s' = s.answer l c

/-! ## The law -/

namespace Profile

variable (p : Profile)

/-- A call of the client in the period that begins at `x`. -/
def calledIn (x : ℤ) (a : Answered) : Bool :=
  a.call.client == p.client && decide (x ≤ a.call.now) && decide (a.call.now < x + p.period)

/-- Such a call that was admitted. -/
def admittedIn (x : ℤ) (a : Answered) : Bool := p.calledIn x a && !a.limited

/-- What the limiter promises about any period of time that is as long as a window. -/
structure RateLaw (history : List Answered) : Prop where
  /-- No more than twice the calls of a window are admitted. -/
  admitted : ∀ x, (history.countP (p.admittedIn x) : ℤ) ≤ 2 * p.maxCalls
  /-- A client that never makes more calls than a window may have is not refused. -/
  served : (∀ x, (history.countP (p.calledIn x) : ℤ) ≤ p.maxCalls) →
    ∀ a ∈ history, a.call.client = p.client → a.limited = false

/-! ## The window -/

/-- A call of the client. -/
def isOwn (a : Answered) : Bool := a.call.client == p.client

/-- A call of the client that was admitted. -/
def isAdmitted (a : Answered) : Bool := p.isOwn a && !a.limited

/-- The calls since the entry was started anew, and those before. -/
structure Window (history : List Answered) (e : ClientCacheEntry) (recent older : List Answered) :
    Prop where
  split : history = recent ++ older
  inside : ∀ a ∈ recent, p.isOwn a → e.start ≤ a.call.now ∧ a.call.now < e.start + p.period
  earlier : ∀ a ∈ older, p.isOwn a → a.call.now ≤ e.start
  count : e.count = recent.countP p.isOwn
  admits : (recent.countP p.isAdmitted : ℤ) ≤ p.maxCalls
  /-- Of the calls before, the admitted ones that a period can have in common with the window. -/
  before : (older.countP fun a ↦ p.isAdmitted a && decide (e.start - p.period < a.call.now) : ℤ) ≤
    p.maxCalls

variable {p}

/-- A period that meets the window has the admitted calls of the window and of the one before it,
at most. -/
theorem Window.admitted_le {history recent older : List Answered} {e : ClientCacheEntry}
    (w : p.Window history e recent older) {x : ℤ} (hx : e.start - p.period < x) :
    (history.countP (p.admittedIn x) : ℤ) ≤ 2 * p.maxCalls := by
  have hrecent : recent.countP (p.admittedIn x) ≤ recent.countP p.isAdmitted := by
    refine List.countP_mono_left fun a _ ha ↦ ?_
    simp only [admittedIn, calledIn, Bool.and_eq_true] at ha
    exact Bool.and_eq_true_iff.mpr ⟨ha.1.1.1, ha.2⟩
  have holder : older.countP (p.admittedIn x) ≤
      older.countP fun a ↦ p.isAdmitted a && decide (e.start - p.period < a.call.now) := by
    refine List.countP_mono_left fun a _ ha ↦ ?_
    simp only [admittedIn, calledIn, Bool.and_eq_true, decide_eq_true_eq] at ha
    have hlate : e.start - p.period < a.call.now := Int.lt_of_lt_of_le hx ha.1.1.2
    exact Bool.and_eq_true_iff.mpr
      ⟨Bool.and_eq_true_iff.mpr ⟨ha.1.1.1, ha.2⟩, decide_eq_true hlate⟩
  have hadmits := w.admits
  have hbefore := w.before
  rw [w.split, List.countP_append]
  push_cast
  omega

/-- All the calls of a window are in the period that begins with it. -/
theorem Window.count_le {history recent older : List Answered} {e : ClientCacheEntry}
    (w : p.Window history e recent older) :
    e.count ≤ (history.countP (p.calledIn e.start) : ℤ) := by
  have hwindow : recent.countP p.isOwn ≤ history.countP (p.calledIn e.start) := by
    rw [w.split, List.countP_append]
    refine Nat.le_trans (List.countP_mono_left fun b hb hown ↦ ?_) (Nat.le_add_right _ _)
    obtain ⟨hfrom, hto⟩ := w.inside b hb hown
    exact Bool.and_eq_true_iff.mpr
      ⟨Bool.and_eq_true_iff.mpr ⟨hown, decide_eq_true hfrom⟩, decide_eq_true hto⟩
  rw [w.count]
  omega

/-- The window goes on with a call, of the client or of another one. -/
theorem Window.extend {history recent older : List Answered} {e : ClientCacheEntry}
    (w : p.Window history e recent older) {a : Answered} {count : ℤ}
    (hinside : p.isOwn a → e.start ≤ a.call.now ∧ a.call.now < e.start + p.period)
    (hcount : count = e.count + if p.isOwn a then 1 else 0)
    (hadmitted : p.isAdmitted a → count ≤ p.maxCalls) :
    p.Window (a :: history) { e with count } (a :: recent) older where
  split := by rw [w.split, List.cons_append]
  inside := by
    intro b hb hown
    rcases List.mem_cons.mp hb with rfl | hb
    · exact hinside hown
    · exact w.inside b hb hown
  earlier := w.earlier
  count := by
    rw [List.countP_cons, hcount, w.count]
    split <;> simp
  admits := by
    have hle : recent.countP p.isAdmitted ≤ recent.countP p.isOwn :=
      List.countP_mono_left fun b _ hb ↦ (Bool.and_eq_true_iff.mp hb).1
    have hadmits := w.admits
    have hwcount := w.count
    rw [List.countP_cons]
    by_cases ha : p.isAdmitted a = true
    · have hbound := hadmitted ha
      have hown : p.isOwn a = true := (Bool.and_eq_true_iff.mp ha).1
      rw [if_pos hown] at hcount
      rw [if_pos ha]
      push_cast
      omega
    · rw [if_neg ha]
      simpa using hadmits
  before := w.before

/-- A window begins after the one before it is over. -/
theorem Window.renew {history : List Answered} {a : Answered}
    (hown : p.isOwn a = true) (hclock : ∀ b ∈ history, b.call.now ≤ a.call.now)
    (hbefore : (history.countP fun b ↦
      p.isAdmitted b && decide (a.call.now - p.period < b.call.now) : ℤ) ≤ p.maxCalls) :
    p.Window (a :: history) { start := a.call.now, count := 1 } [a] history where
  split := rfl
  inside := by
    intro b hb _
    obtain rfl := List.mem_singleton.mp hb
    exact ⟨Int.le_refl _, Int.lt_add_of_pos_right _ p.period_pos⟩
  earlier := fun b hb _ ↦ hclock b hb
  count := by rw [List.countP_cons_of_pos hown, List.countP_nil]; rfl
  admits := by
    have hle : [a].countP p.isAdmitted ≤ 1 := List.countP_le_length
    have hmax := p.maxCalls_pos
    omega
  before := hbefore

/-- Once a window is over, a period that ends later has its admitted calls only. -/
theorem Window.before_of_over {history recent older : List Answered} {e : ClientCacheEntry}
    (w : p.Window history e recent older) {now : ℤ} (hover : e.start + p.period ≤ now) :
    (history.countP fun b ↦
      p.isAdmitted b && decide (now - p.period < b.call.now) : ℤ) ≤ p.maxCalls := by
  have hrecent : (recent.countP fun b ↦ p.isAdmitted b && decide (now - p.period < b.call.now)) ≤
      recent.countP p.isAdmitted :=
    List.countP_mono_left fun b _ hb ↦ (Bool.and_eq_true_iff.mp hb).1
  have holder : (older.countP fun b ↦
      p.isAdmitted b && decide (now - p.period < b.call.now)) = 0 := by
    rw [List.countP_eq_zero]
    intro b hb hlate
    simp only [Bool.and_eq_true, decide_eq_true_eq] at hlate
    have hearlier := w.earlier b hb (Bool.and_eq_true_iff.mp hlate.1).1
    omega
  have hadmits := w.admits
  rw [w.split, List.countP_append, holder]
  push_cast
  omega

/-! ## The invariant -/

/-- What the cache knows of the client, and what it has promised. -/
structure Sound (l : RateLimiter) (p : Profile) (s : State) : Prop where
  law : ∀ x, (s.history.countP (p.admittedIn x) : ℤ) ≤ 2 * p.maxCalls
  /-- A refusal is for the calls of a period that are too many. -/
  refusal : ∀ a ∈ s.history, a.call.client = p.client → a.limited = true →
    ∃ x, p.maxCalls < (s.history.countP (p.calledIn x) : ℤ)
  unknown : s.cache.lookup (l.strHash p.client) = none → ∀ a ∈ s.history, p.isOwn a = false
  known : ∀ held, s.cache.lookup (l.strHash p.client) = some held →
    held.entry.start ≤ held.stored ∧ (∃ a ∈ s.history, a.call.now = held.stored) ∧
      ∃ recent older, p.Window s.history held.entry recent older

variable {l : RateLimiter} {s : State} {c : RateCall}

/-- The calls of a period only get more. -/
theorem countP_le_cons (q : Answered → Bool) (a : Answered) (history : List Answered) :
    history.countP q ≤ (a :: history).countP q := (List.sublist_cons_self a history).countP_le

/-- The calls of others change nothing for the client. -/
theorem Sound.other (hs : Sound l p s) (hc : p.Allows l s c) (hclient : c.client ≠ p.client) :
    Sound l p (s.answer l c) := by
  have hhash : l.strHash p.client ≠ l.strHash c.client := fun h ↦ hclient (hc.apart h.symm)
  have hlookup : (s.answer l c).cache.lookup (l.strHash p.client) =
      s.cache.lookup (l.strHash p.client) := by
    unfold State.answer isRateLimited store
    simp only
    split
    · exact AList.lookup_insert_ne hhash
    · split <;> exact AList.lookup_insert_ne hhash
  generalize hlimited : (l.isRateLimited c s.cache).1 = limited
  have hhistory : (s.answer l c).history = ⟨c, limited⟩ :: s.history := by
    rw [State.answer, hlimited]
  have hown : p.isOwn ⟨c, limited⟩ = false := beq_eq_false_iff_ne.mpr hclient
  constructor
  case law =>
    intro x
    have hnot : ¬ p.admittedIn x ⟨c, limited⟩ = true := by
      simp [admittedIn, calledIn, hclient]
    rw [hhistory, List.countP_cons_of_neg hnot]
    exact hs.law x
  case refusal =>
    intro a ha haclient halimited
    rw [hhistory] at ha ⊢
    rcases List.mem_cons.mp ha with rfl | ha
    · exact absurd haclient hclient
    · obtain ⟨x, hx⟩ := hs.refusal a ha haclient halimited
      exact ⟨x, Int.lt_of_lt_of_le hx (Int.ofNat_le.mpr (countP_le_cons _ _ _))⟩
  case unknown =>
    intro hnone a ha
    rw [hhistory] at ha
    rcases List.mem_cons.mp ha with rfl | ha
    · exact hown
    · exact hs.unknown (hlookup ▸ hnone) a ha
  case known =>
    intro held hheld
    obtain ⟨hstart, ⟨a, ha, hstored⟩, recent, older, w⟩ := hs.known held (hlookup ▸ hheld)
    rw [hhistory]
    refine ⟨hstart, ⟨a, List.mem_cons_of_mem _ ha, hstored⟩, ⟨c, limited⟩ :: recent, older, ?_⟩
    have hadmitted : p.isAdmitted ⟨c, limited⟩ = false := by rw [isAdmitted, hown, Bool.false_and]
    refine w.extend (fun h ↦ ?_) ?_ fun h ↦ ?_
    · rw [hown] at h
      cases h
    · rw [hown]
      simp
    · rw [hadmitted] at h
      cases h

/-- A call of the client leaves its entry in the cache; the rest follows from the window. -/
theorem Sound.own (hs : Sound l p s) (hclient : c.client = p.client)
    {e : ClientCacheEntry} {limited : Bool} {recent older : List Answered}
    (hanswer : l.isRateLimited c s.cache =
      (limited, store c.now s.cache (l.strHash c.client) e))
    (w : p.Window (⟨c, limited⟩ :: s.history) e recent older) (hstart : e.start ≤ c.now)
    (hlimited : limited = true → p.maxCalls < e.count) : Sound l p (s.answer l c) := by
  have hhistory : (s.answer l c).history = ⟨c, limited⟩ :: s.history := by
    rw [State.answer, hanswer]
  have hlookup : (s.answer l c).cache.lookup (l.strHash p.client) = some ⟨e, c.now⟩ := by
    rw [State.answer, hanswer, ← hclient]
    exact AList.lookup_insert s.cache
  constructor
  case law =>
    intro x
    rw [hhistory]
    by_cases hx : e.start - p.period < x
    · exact w.admitted_le hx
    · -- the period is over before the call
      have hnot : ¬ p.admittedIn x ⟨c, limited⟩ = true := by
        simp only [admittedIn, calledIn, Bool.and_eq_true, decide_eq_true_eq]
        omega
      rw [List.countP_cons_of_neg hnot]
      exact hs.law x
  case refusal =>
    intro a ha haclient halimited
    rw [hhistory] at ha ⊢
    rcases List.mem_cons.mp ha with rfl | ha
    · exact ⟨e.start, Int.lt_of_lt_of_le (hlimited halimited) w.count_le⟩
    · obtain ⟨x, hx⟩ := hs.refusal a ha haclient halimited
      exact ⟨x, Int.lt_of_lt_of_le hx (Int.ofNat_le.mpr (countP_le_cons _ _ _))⟩
  case unknown =>
    intro hnone
    rw [hlookup] at hnone
    cases hnone
  case known =>
    intro held hheld
    rw [hlookup] at hheld
    obtain rfl := Option.some.inj hheld
    rw [hhistory]
    exact ⟨hstart, ⟨_, List.mem_cons_self, rfl⟩, recent, older, w⟩

/-- A call of the client that starts a window. -/
theorem Sound.begin (hs : Sound l p s) (hc : p.Allows l s c) (hclient : c.client = p.client)
    (hanswer : l.isRateLimited c s.cache =
      (false, store c.now s.cache (l.strHash c.client) { start := c.now, count := 1 }))
    (hbefore : (s.history.countP fun b ↦
      p.isAdmitted b && decide (c.now - p.period < b.call.now) : ℤ) ≤ p.maxCalls) :
    Sound l p (s.answer l c) :=
  hs.own hclient hanswer
    (Window.renew (a := ⟨c, false⟩) (beq_iff_eq.mpr hclient) hc.clock hbefore) (Int.le_refl _) nofun

/-- One call after the other keeps the invariant, as long as the cache keeps an entry for the
length of a window. -/
theorem Sound.step (hexpiry : p.period ≤ l.expiry) (hs : Sound l p s) (hc : p.Allows l s c) :
    Sound l p (s.answer l c) := by
  by_cases hclient : c.client = p.client
  · obtain ⟨hperiod, hmaxCalls⟩ := hc.limits hclient
    rcases hheld : s.cache.lookup (l.strHash p.client) with _ | held
    · -- the client has never called
      have hget : l.get c.now s.cache (l.strHash c.client) = none := by
        rw [get, hclient, hheld]
        rfl
      refine hs.begin hc hclient (by rw [isRateLimited, hget]) ?_
      rw [List.countP_eq_zero.mpr fun b hb hadmitted ↦ ?_]
      · have hmax := p.maxCalls_pos
        omega
      · have hown := hs.unknown hheld b hb
        simp [isAdmitted, hown] at hadmitted
    · obtain ⟨hstart, ⟨a, ha, hstored⟩, recent, older, w⟩ := hs.known held hheld
      have hclock : held.stored ≤ c.now := hstored ▸ hc.clock a ha
      by_cases hexpired : l.expiry ≤ c.now - held.stored
      · -- the entry has expired, so the window is over
        have hget : l.get c.now s.cache (l.strHash c.client) = none := by
          rw [get, hclient, hheld]
          exact if_pos hexpired
        exact hs.begin hc hclient (by rw [isRateLimited, hget]) (w.before_of_over (by omega))
      · have hget : l.get c.now s.cache (l.strHash c.client) = some held.entry := by
          rw [get, hclient, hheld]
          exact if_neg hexpired
        have hfrom : held.entry.start ≤ c.now := Int.le_trans hstart hclock
        by_cases hinside : c.now - held.entry.start < c.period
        · have hanswer : l.isRateLimited c s.cache =
              (decide (c.maxCalls < held.entry.count + 1), store c.now s.cache (l.strHash c.client)
                { held.entry with count := held.entry.count + 1 }) := by
            rw [isRateLimited, hget]
            exact if_pos hinside
          have hown (limited : Bool) : p.isOwn ⟨c, limited⟩ = true := beq_iff_eq.mpr hclient
          have hwindow : p.Window (⟨c, decide (c.maxCalls < held.entry.count + 1)⟩ :: s.history)
              { held.entry with count := held.entry.count + 1 }
              (⟨c, decide (c.maxCalls < held.entry.count + 1)⟩ :: recent) older := by
            refine w.extend (fun _ ↦ ⟨hfrom, ?_⟩) ?_ fun hadmitted ↦ ?_
            · show c.now < held.entry.start + p.period
              rw [← hperiod]
              omega
            · rw [hown]
              rfl
            · have hnot := (Bool.and_eq_true_iff.mp hadmitted).2
              rw [Bool.not_eq_true', decide_eq_false_iff_not, Int.not_lt] at hnot
              rw [← hmaxCalls]
              exact hnot
          refine hs.own hclient hanswer hwindow hfrom fun hlimited ↦ ?_
          rw [← hmaxCalls]
          exact of_decide_eq_true hlimited
        · exact hs.begin hc hclient (by rw [isRateLimited, hget]; exact if_neg hinside)
            (w.before_of_over (by omega))
  · exact hs.other hc hclient

theorem Sound.init : Sound l p {} where
  law x := by
    have hmax := p.maxCalls_pos
    simp only [List.countP_nil]
    omega
  refusal := nofun
  unknown := nofun
  known := nofun

theorem Sound.of_reachable (hexpiry : p.period ≤ l.expiry) (h : (l.system p).Reachable s) :
    Sound l p s := by
  refine h.invariant (I := Sound l p) ?_ ?_
  · rintro _ rfl
    exact .init
  · rintro s c _ hs ⟨hc, rfl⟩
    exact hs.step hexpiry hc

/-- As long as no period has more calls than an `int` can count, the count of the client is one. -/
theorem count_le (hexpiry : p.period ≤ l.expiry) (h : (l.system p).Reachable s)
    (hfew : ∀ x, (s.history.countP (p.calledIn x) : ℤ) ≤ 2147483647) {held : HeldEntry}
    (hheld : s.cache.lookup (l.strHash p.client) = some held) : held.entry.count ≤ 2147483647 := by
  obtain ⟨-, -, recent, older, w⟩ := (Sound.of_reachable hexpiry h).known held hheld
  exact Int.le_trans w.count_le (hfew held.entry.start)

/-- Whatever calls are made, and however they are spread over time, a period as long as a window
has at most twice the calls of a window, and only a client that makes more calls than a window may
have is refused. -/
theorem rateLaw (hexpiry : p.period ≤ l.expiry) (h : (l.system p).Reachable s) :
    p.RateLaw s.history := by
  have hs := Sound.of_reachable hexpiry h
  constructor
  case admitted => exact hs.law
  case served =>
    intro hfew a ha hclient
    by_contra hlimited
    obtain ⟨x, hx⟩ := hs.refusal a ha hclient (Bool.of_not_eq_false hlimited)
    exact Int.not_lt.mpr (hfew x) hx

/-! ## A login, and another one -/

/-- Ten calls a second, for a client that logs in; the cache keeps an entry for ten minutes. -/
def sampleLogins : Profile where
  client := "/api/v1/oauth210.0.0.1"
  period := 1000
  maxCalls := 10
  period_pos := by decide
  maxCalls_pos := by decide

/-- A limiter whose hash is the length of the text. -/
def sampleLimiter : RateLimiter where
  strHash := String.length
  expiry := 600000

/-- A login at the given time. -/
def sampleCall (now : ℤ) : RateCall where
  client := sampleLogins.client
  now := now
  period := 1000
  maxCalls := 10

/-- The limiter after two logins. -/
def sampleAnswered : State :=
  (State.answer sampleLimiter {} (sampleCall 500)).answer sampleLimiter (sampleCall 1500)

theorem rateLaw_sample : sampleLogins.RateLaw sampleAnswered.history := by
  have hstart : (sampleLimiter.system sampleLogins).Reachable {} := .init rfl
  have hfirst : sampleLogins.Allows sampleLimiter {} (sampleCall 500) :=
    ⟨nofun, fun _ ↦ ⟨rfl, rfl⟩, fun _ ↦ rfl⟩
  have hsecond : sampleLogins.Allows sampleLimiter (State.answer sampleLimiter {} (sampleCall 500))
      (sampleCall 1500) :=
    ⟨by decide, fun _ ↦ ⟨rfl, rfl⟩, fun _ ↦ rfl⟩
  exact rateLaw (by decide) ((hstart.step ⟨hfirst, rfl⟩).step ⟨hsecond, rfl⟩)

end Profile

end RateLimiter

end OwSec
