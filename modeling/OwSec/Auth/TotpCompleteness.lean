import OwSec.Auth.TotpCache

/-!
# An enrolment that is started can be finished

A user who is shown a picture scans its secret, shows a first code of it, shows a second
one, and is handed the secret.  Other users enrol at the same time; the user makes no other
call.  `TotpCache::StartValidation` always answers with a picture, but it may be the
picture of a session that began long ago or that has taken a first code already, and then
the calls that follow are refused.

The theorem is about every reachable cache, every user and either flag: the enrolment goes
through exactly when `StartValidation` began a new session, or found one without a code
that is still young enough when the secret is asked for.
-/

namespace OwSec

open SecurityObjects Kit

/-- The event is a call for the user. -/
def EnrolmentEvent.Concerns (userId : String) : EnrolmentEvent → Prop
  | .start _ _ user .. | .continueWith _ user .. | .complete _ user _ => user.id = userId
  | .elsewhere => False

namespace Storage

variable {lib : TotpLibrary} {s : Storage} {user : UserInfo} {e : TotpEntry}
  {subscriber reset : Bool}

/-! ## One call -/

/-- A session that is found is handed out as it is. -/
theorem totpStartValidation_found (hlookup : s.totp.lookup user.id = some e)
    (h : s.totpGenerates user.id subscriber reset = false) (now : ℕ) (secret : String) :
    (s.totpStartValidation lib now secret user subscriber reset).1 = e.qrCode := by
  unfold totpGenerates at h
  rw [hlookup] at h
  simp only [Bool.or_eq_false_iff, bne_eq_false_iff_eq] at h
  obtain ⟨hsubscriber, hreset⟩ := h
  unfold totpStartValidation
  rw [hlookup]
  simp [hsubscriber, hreset]

/-- A session that is not found is new. -/
theorem totpStartValidation_drawn (h : s.totpGenerates user.id subscriber reset = true)
    (now : ℕ) (secret : String) :
    (s.totpStartValidation lib now secret user subscriber reset).1 =
      lib.generateQRCode (lib.toBase32 secret) user.email := by
  unfold totpStartValidation
  unfold totpGenerates at h
  generalize s.totp.lookup user.id = found at h ⊢
  cases found with
  | none => rfl
  | some hint =>
    by_cases hsubscriber : hint.subscriber = subscriber
    · have hreset : reset = true := by simpa [hsubscriber] using h
      simp [hsubscriber, hreset]
    · simp [hsubscriber]

/-- The first valid code of a young session is taken. -/
theorem totpContinueValidation_first {now : ℕ} {code : String}
    (hlookup : s.totp.lookup user.id = some e) (hsubscriber : e.subscriber = subscriber)
    (hage : u64 (now + 2 ^ 64 - e.start) < 15 * 60) (hverifications : e.verifications = 0)
    (hvalid : lib.validateCode e.secret code now = true) :
    s.totpContinueValidation lib now user subscriber code 1 =
      (.accepted 2 true,
        { s with
          totp := s.totp.insert user.id
            { e with verifications := e.verifications + 1, lastCode := code } }) := by
  subst hsubscriber
  unfold totpContinueValidation
  rw [hlookup]
  simp only [BEq.rfl, hage, hverifications, hvalid, decide_true, Bool.and_self, if_true]

/-- Another valid code of a young session is taken after the first one. -/
theorem totpContinueValidation_second {now : ℕ} {code : String}
    (hlookup : s.totp.lookup user.id = some e) (hsubscriber : e.subscriber = subscriber)
    (hage : u64 (now + 2 ^ 64 - e.start) < 15 * 60) (hverifications : e.verifications = 1)
    (hcode : code ≠ e.lastCode) (hvalid : lib.validateCode e.secret code now = true) :
    s.totpContinueValidation lib now user subscriber code 2 =
      (.accepted 2 false, { s with totp := s.totp.insert user.id { e with done := now } }) := by
  subst hsubscriber
  unfold totpContinueValidation
  rw [hlookup]
  have hdiffers : (code != e.lastCode) = true := bne_iff_ne.mpr hcode
  simp only [BEq.rfl, hage, hverifications, hdiffers, hvalid, decide_true, Bool.and_self,
    if_true]
  rfl

/-- A session takes a first code once. -/
theorem verifications_of_accepted {now : ℕ} {code : String} {moreCodes : Bool} {nextIndex : ℕ}
    (hlookup : s.totp.lookup user.id = some e)
    (h : (s.totpContinueValidation lib now user subscriber code 1).1 =
      .accepted nextIndex moreCodes) : e.verifications = 0 := by
  have hcases := totpContinueValidation_cases lib now s user subscriber code 1
  generalize s.totpContinueValidation lib now user subscriber code 1 = r at hcases h
  cases hcases with
  | first found hfound _ _ hverifications =>
    exact Option.some.inj (hlookup.symm.trans hfound) ▸ hverifications
  | second _ _ _ hindex => cases hindex
  | refused => cases h

/-- Showing a code leaves the session there, and it began when it did. -/
theorem totpContinueValidation_start (lib : TotpLibrary) (now : ℕ) (subscriber : Bool)
    (code : String) (nextIndex : ℕ) (hlookup : s.totp.lookup user.id = some e) :
    ∃ e', (s.totpContinueValidation lib now user subscriber code nextIndex).2.totp.lookup
      user.id = some e' ∧ e'.start = e.start := by
  have hcases := totpContinueValidation_cases lib now s user subscriber code nextIndex
  generalize s.totpContinueValidation lib now user subscriber code nextIndex = r at hcases
  cases hcases with
  | first found hfound =>
    obtain rfl := Option.some.inj (hlookup.symm.trans hfound)
    exact ⟨_, AList.lookup_insert s.totp, rfl⟩
  | second found hfound =>
    obtain rfl := Option.some.inj (hlookup.symm.trans hfound)
    exact ⟨_, AList.lookup_insert s.totp, rfl⟩
  | refused => exact ⟨e, hlookup, rfl⟩

/-- The secret of a young session that is done is handed out. -/
theorem totpCompleteValidation_done {now : ℕ} {userId : String}
    (hlookup : s.totp.lookup userId = some e) (hsubscriber : e.subscriber = subscriber)
    (hage : u64 (now + 2 ^ 64 - e.start) < 15 * 60) (hdone : e.done ≠ 0) :
    (s.totpCompleteValidation now userId subscriber).1 = some e.secret := by
  subst hsubscriber
  unfold totpCompleteValidation
  rw [hlookup]
  have hfinished : (e.done != 0) = true := bne_iff_ne.mpr hdone
  simp only [BEq.rfl, hage, hfinished, decide_true, Bool.and_self, if_true]

end Storage

namespace Enrolments

variable (lib : TotpLibrary)

/-! ## Waiting for the next call -/

/-- Time passes without a call for the user. -/
def Waits (userId : String) : Enrolments → Enrolments → Prop :=
  ((system lib).restrict fun _ event ↦ ¬ event.Concerns userId).Run

variable {lib}

/-- Calls for others leave the session of a user alone. -/
theorem Waits.lookup {userId : String} {s s' : Enrolments} (h : Waits lib userId s s') :
    s'.storage.totp.lookup userId = s.storage.totp.lookup userId ∧ s.clock ≤ s'.clock := by
  refine h.invariant
    (I := fun t ↦ t.storage.totp.lookup userId = s.storage.totp.lookup userId ∧
      s.clock ≤ t.clock)
    ?_ ⟨rfl, le_rfl⟩
  rintro t event t' ⟨hsame, hclock⟩ ⟨hstep, hother⟩
  cases hstep with
  | @start now secret user subscriber reset hnow =>
    refine ⟨?_, hclock.trans hnow.2.1⟩
    have hne : userId ≠ user.id := fun heq ↦ hother heq.symm
    change (t.storage.totpStartValidation lib now secret user subscriber reset).2.totp.lookup _ = _
    rw [Storage.totpStartValidation_totp, ← hsame]
    split
    · exact AList.lookup_insert_ne hne
    · rfl
  | @continueWith now user subscriber code nextIndex hnow =>
    refine ⟨?_, hclock.trans hnow.2.1⟩
    have hne : userId ≠ user.id := fun heq ↦ hother heq.symm
    have hcases :=
      Storage.totpContinueValidation_cases lib now t.storage user subscriber code nextIndex
    change (t.storage.totpContinueValidation lib now user subscriber code
      nextIndex).2.totp.lookup _ = _
    rw [← hsame]
    generalize t.storage.totpContinueValidation lib now user subscriber code nextIndex = r
      at hcases ⊢
    cases hcases with
    | first => exact AList.lookup_insert_ne hne
    | second => exact AList.lookup_insert_ne hne
    | refused => rfl
  | @complete now user subscriber hnow =>
    refine ⟨?_, hclock.trans hnow.2.1⟩
    have hne : userId ≠ user.id := fun heq ↦ hother heq.symm
    change (t.storage.totpCompleteValidation now user.id subscriber).2.totp.lookup _ = _
    rw [← hsame]
    rcases hl : (t.storage.totpCompleteValidation now user.id subscriber).1 with _ | secret
    · rw [Storage.totpCompleteValidation_none hl]
    · obtain ⟨_, -, -, -, -, -, htotp⟩ := Storage.totpCompleteValidation_some hl
      rw [htotp]
      exact AList.lookup_erase_ne hne
  | elsewhere htotp =>
    rw [← hsame]
    exact ⟨congrArg (AList.lookup userId) htotp, hclock⟩

/-! ## What the picture shows -/

/-- The picture of a session shows its secret, for some address. -/
def Pictured (lib : TotpLibrary) (e : TotpEntry) : Prop :=
  ∃ email, e.qrCode = lib.generateQRCode (lib.toBase32 e.secret) email

/-- Storing a session whose picture shows its secret. -/
theorem Pictured.insert {totp : Cache String TotpEntry} {userId userId' : String}
    {e e' : TotpEntry} (h : ∀ userId e, totp.lookup userId = some e → Pictured lib e)
    (he : Pictured lib e) (he' : (totp.insert userId e).lookup userId' = some e') :
    Pictured lib e' := by
  rw [Cache.lookup_insert_eq] at he'
  split at he'
  · exact Option.some.inj he' ▸ he
  · exact h userId' e' he'

/-- In every run the picture of each session shows its secret. -/
theorem Pictured.of_reachable {s : Enrolments} (h : (system lib).Reachable s) :
    ∀ userId e, s.storage.totp.lookup userId = some e → Pictured lib e := by
  refine h.invariant
    (I := fun s ↦ ∀ userId e, s.storage.totp.lookup userId = some e → Pictured lib e) ?_ ?_
  · intro s hs userId e he
    rw [hs.1] at he
    simp at he
  · intro s event s' hs hstep userId e he
    cases hstep with
    | @start now secret user subscriber reset hnow =>
      change (s.storage.totpStartValidation lib now secret user subscriber
        reset).2.totp.lookup userId = some e at he
      rw [Storage.totpStartValidation_totp] at he
      split at he
      · exact Pictured.insert hs ⟨user.email, rfl⟩ he
      · exact hs userId e he
    | @continueWith now user subscriber code nextIndex hnow =>
      have hcases :=
        Storage.totpContinueValidation_cases lib now s.storage user subscriber code nextIndex
      change (s.storage.totpContinueValidation lib now user subscriber code
        nextIndex).2.totp.lookup userId = some e at he
      generalize s.storage.totpContinueValidation lib now user subscriber code nextIndex = r
        at hcases he
      cases hcases with
      | first found hlookup =>
        refine Pictured.insert hs ?_ he
        exact hs user.id found hlookup
      | second found hlookup =>
        refine Pictured.insert hs ?_ he
        exact hs user.id found hlookup
      | refused => exact hs userId e he
    | @complete now user subscriber hnow =>
      change (s.storage.totpCompleteValidation now user.id subscriber).2.totp.lookup userId =
        some e at he
      rcases hl : (s.storage.totpCompleteValidation now user.id subscriber).1 with _ | secret
      · rw [Storage.totpCompleteValidation_none hl] at he
        exact hs userId e he
      · obtain ⟨_, -, -, -, -, -, htotp⟩ := Storage.totpCompleteValidation_some hl
        rw [htotp, Cache.lookup_erase_eq] at he
        split at he
        · cases he
        · exact hs userId e he
    | @elsewhere storage htotp =>
      change storage.totp.lookup userId = some e at he
      rw [htotp] at he
      exact hs userId e he

/-! ## One enrolment from start to end -/

/-- What a user does to enrol, and when.  The fields `beforeFirst`, `beforeSecond` and
`beforeLast` are what the calls of others have made of the service by then. -/
structure Attempt where
  user : UserInfo
  subscriber : Bool
  reset : Bool
  /-- What `GenerateSecret` draws, if it is asked to. -/
  drawn : String
  started : ℕ
  beforeFirst : Enrolments
  firstCode : String
  first : ℕ
  beforeSecond : Enrolments
  secondCode : String
  second : ℕ
  beforeLast : Enrolments
  completed : ℕ

namespace Attempt

variable (lib) (q : Attempt) (s : Enrolments)

/-- After `StartValidation`. -/
def opened : Enrolments := s.start lib q.started q.drawn q.user q.subscriber q.reset

/-- The picture that `StartValidation` answers. -/
def picture : String :=
  (s.storage.totpStartValidation lib q.started q.drawn q.user q.subscriber q.reset).1

/-- The session that was opened: the one whose picture the user was shown. -/
def session : Option TotpEntry := (q.opened lib s).storage.totp.lookup q.user.id

/-- After the first code. -/
def afterFirst : Enrolments :=
  q.beforeFirst.continueWith lib q.first q.user q.subscriber q.firstCode 1

/-- After the second code. -/
def afterSecond : Enrolments :=
  q.beforeSecond.continueWith lib q.second q.user q.subscriber q.secondCode 2

/-- The calls come in this order and nobody calls for the user in between, the whole takes
less than a quarter of an hour, and the two codes are different and valid for the secret
that was shown. -/
structure Proceeds : Prop where
  starts : s.Ticks q.started
  waitsFirst : Waits lib q.user.id (q.opened lib s) q.beforeFirst
  first : q.beforeFirst.Ticks q.first
  waitsSecond : Waits lib q.user.id (q.afterFirst lib) q.beforeSecond
  second : q.beforeSecond.Ticks q.second
  waitsLast : Waits lib q.user.id (q.afterSecond lib) q.beforeLast
  last : q.beforeLast.Ticks q.completed
  within : q.completed < q.started + 15 * 60
  differ : q.secondCode ≠ q.firstCode
  firstValid : ∀ e ∈ q.session lib s, lib.validateCode e.secret q.firstCode q.first = true
  secondValid : ∀ e ∈ q.session lib s, lib.validateCode e.secret q.secondCode q.second = true

/-- Both codes are accepted and the secret that was shown is handed out. -/
structure Completes : Prop where
  first : (q.beforeFirst.storage.totpContinueValidation lib q.first q.user q.subscriber
    q.firstCode 1).1 = .accepted 2 true
  second : (q.beforeSecond.storage.totpContinueValidation lib q.second q.user q.subscriber
    q.secondCode 2).1 = .accepted 2 false
  secret : ∃ e, q.session lib s = some e ∧
    (q.beforeLast.storage.totpCompleteValidation q.completed q.user.id q.subscriber).1 =
      some e.secret

/-- `StartValidation` begins a new session, or it finds one that has not taken a code and is
still young when the secret is asked for. -/
def OpensFresh : Prop :=
  s.storage.totpGenerates q.user.id q.subscriber q.reset = true ∨
    ∃ e, s.storage.totp.lookup q.user.id = some e ∧ e.verifications = 0 ∧
      q.completed < e.start + 15 * 60

variable {lib} {q : Attempt} {s : Enrolments}

/-- The session that was opened is new, or the one that was there. -/
theorem session_cases (lib : TotpLibrary) (q : Attempt) (s : Enrolments) :
    ∃ e, q.session lib s = some e ∧ e.subscriber = q.subscriber ∧
      e.qrCode = q.picture lib s ∧
      ((s.storage.totpGenerates q.user.id q.subscriber q.reset = true ∧ e.start = q.started ∧
          e.verifications = 0) ∨
        (s.storage.totpGenerates q.user.id q.subscriber q.reset = false ∧
          s.storage.totp.lookup q.user.id = some e)) := by
  have htotp := Storage.totpStartValidation_totp lib q.started q.drawn s.storage q.user
    q.subscriber q.reset
  have hsession : q.session lib s = (s.storage.totpStartValidation lib q.started q.drawn q.user
      q.subscriber q.reset).2.totp.lookup q.user.id := rfl
  rw [htotp] at hsession
  by_cases hnew : s.storage.totpGenerates q.user.id q.subscriber q.reset = true
  · rw [if_pos hnew, AList.lookup_insert] at hsession
    refine ⟨_, hsession, rfl, ?_, .inl ⟨hnew, rfl, rfl⟩⟩
    exact (Storage.totpStartValidation_drawn hnew q.started q.drawn).symm
  · rw [if_neg hnew] at hsession
    have hold := Bool.eq_false_iff.mpr hnew
    rcases hlookup : s.storage.totp.lookup q.user.id with _ | e
    · unfold Storage.totpGenerates at hold
      rw [hlookup] at hold
      cases hold
    · refine ⟨e, hsession.trans hlookup, ?_, ?_, .inr ⟨hold, rfl⟩⟩
      · unfold Storage.totpGenerates at hold
        rw [hlookup] at hold
        simpa using (Bool.or_eq_false_iff.mp hold).1
      · exact (Storage.totpStartValidation_found hlookup hold q.started q.drawn).symm

/-- Whether the session is fresh can be read off it. -/
theorem opensFresh_iff {e : TotpEntry} (hq : q.Proceeds lib s) (he : q.session lib s = some e) :
    q.OpensFresh s ↔ e.verifications = 0 ∧ q.completed < e.start + 15 * 60 := by
  obtain ⟨e', he', -, -, hcases⟩ := session_cases lib q s
  obtain rfl := Option.some.inj (he.symm.trans he')
  rcases hcases with ⟨hnew, hstart, hverifications⟩ | ⟨hold, hlookup⟩
  · have hwithin := hq.within
    rw [← hstart] at hwithin
    exact ⟨fun _ ↦ ⟨hverifications, hwithin⟩, fun _ ↦ .inl hnew⟩
  · constructor
    · rintro (hnew | ⟨found, hfound, hfresh⟩)
      · rw [hold] at hnew
        cases hnew
      · obtain rfl := Option.some.inj (hlookup.symm.trans hfound)
        exact hfresh
    · exact fun hfresh ↦ .inr ⟨e, hlookup, hfresh⟩

end Attempt

/-- The age of a session, when the clock has not gone back. -/
theorem young_iff {start now : ℕ} (h : start ≤ now) (hnow : now < 2 ^ 64) :
    u64 (now + 2 ^ 64 - start) < 15 * 60 ↔ now < start + 15 * 60 := by
  rw [u64_age h hnow]
  omega

section Calls

variable {q : Attempt} {s : Enrolments} {e : TotpEntry}

/-- Opening a session leaves it begun no later than now. -/
theorem start_le (h : (system lib).Reachable s) (hq : q.Proceeds lib s)
    (hsession : q.session lib s = some e) : e.start ≤ q.started :=
  have hopened : (system lib).Reachable (q.opened lib s) :=
    h.step (Step.start q.drawn q.user q.subscriber q.reset hq.starts)
  ((Sound.of_reachable lib hopened).entries q.user.id e hsession).start

/-- The calls come one after the other. -/
theorem Attempt.Proceeds.ordered (hq : q.Proceeds lib s) :
    q.started ≤ q.first ∧ q.first ≤ q.second ∧ q.second ≤ q.completed :=
  ⟨hq.waitsFirst.lookup.2.trans hq.first.2.1, hq.waitsSecond.lookup.2.trans hq.second.2.1,
    hq.waitsLast.lookup.2.trans hq.last.2.1⟩

/-- A fresh session takes both codes and gives its secret out. -/
theorem completes_of_fresh (hq : q.Proceeds lib s) (hstart : e.start ≤ q.started)
    (hsession : q.session lib s = some e) (hsubscriber : e.subscriber = q.subscriber)
    (hverifications : e.verifications = 0) (hyoung : q.completed < e.start + 15 * 60) :
    q.Completes lib s := by
  obtain ⟨hfirst, hsecond, hlast⟩ := hq.ordered
  have hage : ∀ now, q.started ≤ now → now ≤ q.completed →
      u64 (now + 2 ^ 64 - e.start) < 15 * 60 := fun now hle hge ↦
    (young_iff (hstart.trans hle) (hge.trans_lt hq.last.2.2)).mpr (by omega)
  -- the first code
  have hlookup : q.beforeFirst.storage.totp.lookup q.user.id = some e :=
    hq.waitsFirst.lookup.1.trans hsession
  have haccepted := Storage.totpContinueValidation_first hlookup hsubscriber
    (hage q.first (by omega) (by omega)) hverifications (hq.firstValid e hsession)
  have hlookup₁ : q.beforeSecond.storage.totp.lookup q.user.id =
      some { e with verifications := e.verifications + 1, lastCode := q.firstCode } := by
    rw [hq.waitsSecond.lookup.1]
    change (q.beforeFirst.storage.totpContinueValidation lib q.first q.user q.subscriber
      q.firstCode 1).2.totp.lookup q.user.id = _
    rw [haccepted]
    exact AList.lookup_insert q.beforeFirst.storage.totp
  -- the second code
  have haccepted₁ := Storage.totpContinueValidation_second hlookup₁ hsubscriber
    (hage q.second (by omega) (by omega)) (congrArg (· + 1) hverifications) hq.differ
    (hq.secondValid e hsession)
  have hlookup₂ : q.beforeLast.storage.totp.lookup q.user.id =
      some { e with
        verifications := e.verifications + 1, lastCode := q.firstCode, done := q.second } := by
    rw [hq.waitsLast.lookup.1]
    change (q.beforeSecond.storage.totpContinueValidation lib q.second q.user q.subscriber
      q.secondCode 2).2.totp.lookup q.user.id = _
    rw [haccepted₁]
    exact AList.lookup_insert q.beforeSecond.storage.totp
  -- the secret
  have hsecret := Storage.totpCompleteValidation_done hlookup₂ hsubscriber
    (hage q.completed (by omega) le_rfl) (Nat.pos_iff_ne_zero.mp hq.second.1)
  exact ⟨congrArg Prod.fst haccepted, congrArg Prod.fst haccepted₁, e, hsession, hsecret⟩

/-- A session that takes both codes and gives its secret out was fresh. -/
theorem fresh_of_completes (hq : q.Proceeds lib s) (hstart : e.start ≤ q.started)
    (hsession : q.session lib s = some e) (hcompletes : q.Completes lib s) :
    e.verifications = 0 ∧ q.completed < e.start + 15 * 60 := by
  obtain ⟨hfirst, hsecond, hlast⟩ := hq.ordered
  have hlookup : q.beforeFirst.storage.totp.lookup q.user.id = some e :=
    hq.waitsFirst.lookup.1.trans hsession
  refine ⟨Storage.verifications_of_accepted hlookup hcompletes.first, ?_⟩
  -- it is the session that gives the secret out, and it began when it did
  obtain ⟨e₁, hlookup₁, hstart₁⟩ :=
    Storage.totpContinueValidation_start lib q.first q.subscriber q.firstCode 1 hlookup
  obtain ⟨e₂, hlookup₂, hstart₂⟩ :=
    Storage.totpContinueValidation_start lib q.second q.subscriber q.secondCode 2
      (hq.waitsSecond.lookup.1.trans hlookup₁)
  obtain ⟨_, -, hsecret⟩ := hcompletes.secret
  obtain ⟨e₃, hlookup₃, -, -, hage, -⟩ := Storage.totpCompleteValidation_some hsecret
  obtain rfl := Option.some.inj ((hq.waitsLast.lookup.1.trans hlookup₂).symm.trans hlookup₃)
  rw [hstart₂, hstart₁] at hage
  exact (young_iff (by omega) hq.last.2.2).mp hage

end Calls

/-- An enrolment that is started goes through exactly when it was opened on a fresh session;
the picture that was shown is in each case the picture of the secret that the codes are
checked against. -/
theorem completes_iff {s : Enrolments} (h : (system lib).Reachable s) {q : Attempt}
    (hq : q.Proceeds lib s) :
    (∃ e, q.session lib s = some e ∧ e.qrCode = q.picture lib s ∧ Pictured lib e) ∧
      (q.Completes lib s ↔ q.OpensFresh s) := by
  obtain ⟨e, hsession, hsubscriber, hpicture, -⟩ := Attempt.session_cases lib q s
  have hstart := start_le h hq hsession
  have hopened : (system lib).Reachable (q.opened lib s) :=
    h.step (Step.start q.drawn q.user q.subscriber q.reset hq.starts)
  refine ⟨⟨e, hsession, hpicture, Pictured.of_reachable hopened q.user.id e hsession⟩, ?_⟩
  rw [Attempt.opensFresh_iff hq hsession]
  constructor
  · exact fresh_of_completes hq hstart hsession
  · rintro ⟨hverifications, hyoung⟩
    exact completes_of_fresh hq hstart hsession hsubscriber hverifications hyoung

/-! ## Two attempts -/

/-- A user who enrols without a pause, from a state of the service. -/
def sampleAttempt (s : Enrolments) (started first second completed : ℕ) : Attempt :=
  let start : Attempt :=
    { user := { id := "uuid-a", email := "jo@example.com" }
      subscriber := false
      reset := false
      drawn := "12345678901234567890"
      started := started
      beforeFirst := {}
      firstCode := "732303"
      first := first
      beforeSecond := {}
      secondCode := "136087"
      second := second
      beforeLast := {}
      completed := completed }
  let shown := { start with beforeFirst := start.opened .sample s }
  let once := { shown with beforeSecond := shown.afterFirst .sample }
  { once with beforeLast := once.afterSecond .sample }

/-- The statement for a user who begins anew. -/
theorem completes_iff_sample :
    let q := sampleAttempt {} 1700000000 1700000010 1700000045 1700000050
    (∃ e, q.session .sample {} = some e ∧ e.qrCode = q.picture .sample {} ∧
        Pictured .sample e) ∧
      (q.Completes .sample {} ↔ q.OpensFresh {}) :=
  completes_iff (.init atStart_empty)
    { starts := by decide
      waitsFirst := .refl
      first := by decide
      waitsSecond := .refl
      second := by decide
      waitsLast := .refl
      last := by decide
      within := by decide
      differ := by decide
      firstValid := by decide
      secondValid := by decide }

/-- A user has shown a first code. -/
def sampleHalfWay : Enrolments :=
  let user : UserInfo := { id := "uuid-a", email := "jo@example.com" }
  (({} : Enrolments).start .sample 1700000000 "12345678901234567890" user false false
    ).continueWith .sample 1700000010 user false "732303" 1

/-- The user asks for the picture again and starts over with the codes it shows: the first
one is refused. -/
theorem half_way_session_refuses : ¬ ∀ (s : Enrolments) (q : Attempt),
    (system .sample).Reachable s → q.Proceeds .sample s → q.Completes .sample s := by
  intro hall
  have hreachable : (system .sample).Reachable sampleHalfWay :=
    ((System.Reachable.init atStart_empty).step (Step.start _ _ _ _ (by decide))).step
      (Step.continueWith _ _ _ _ (by decide))
  have hcompletes := hall sampleHalfWay
    (sampleAttempt sampleHalfWay 1700000020 1700000025 1700000045 1700000050) hreachable
    { starts := by decide
      waitsFirst := .refl
      first := by decide
      waitsSecond := .refl
      second := by decide
      waitsLast := .refl
      last := by decide
      within := by decide
      differ := by decide
      firstValid := by decide
      secondValid := by decide }
  exact absurd hcompletes.first (by decide)

end Enrolments

end OwSec
