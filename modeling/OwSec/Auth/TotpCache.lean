import OwSec.Kit.Run
import OwSec.RestApi.Handler

/-!
# One-time passwords and their enrolment

`CppTotp::totp` and the functions of `TotpCache` (`TotpCache.h`).  A user enrols an
authenticator by showing two codes of a secret that was generated for the purpose: an
entry of the cache goes from started, through the first code, to done, and a finished entry
is handed out once.

The theorem is about every run of these calls, for any users and for both flags: what is
handed out was generated for that user and flag less than a quarter of an hour before, two
different codes of it were shown in order in between, and it is handed out no more.
-/

namespace OwSec

open SecurityObjects Kit RestApi

/-! ## Codes -/

/-- The libraries behind the one-time passwords. -/
structure TotpLibrary where
  /-- `totp.issuer`. -/
  issuer : String
  /-- `CppTotp::hmacSha1_64`, of a message under the bytes of a text. -/
  hmacSha1 : String → List UInt8 → List UInt8
  /-- `CppTotp::Bytes::toBase32`. -/
  toBase32 : String → String
  /-- The picture that `qrcodegen` makes of a text. -/
  toSvgString : String → String

namespace TotpLibrary

variable (lib : TotpLibrary)

/-- `CppTotp::Bytes::u64beToByteString`. -/
def u64beToByteString (n : ℕ) : List UInt8 :=
  [7, 6, 5, 4, 3, 2, 1, 0].map fun i ↦ UInt8.ofNat (n / 256 ^ i)

/-- `CppTotp::hotp`: four bytes of the digest, from an offset in its last byte. -/
def hotp (key : String) (counter digitCount : ℕ) : ℕ :=
  let hmac := lib.hmacSha1 key (u64beToByteString counter)
  let offset := (hmac.getLastD 0).toNat % 16
  let fourWord := (hmac.drop offset).take 4
  let ret := fourWord.foldl (fun n b ↦ n * 256 + b.toNat) 0
  ret % 2 ^ 31 % 10 ^ digitCount

/-- `CppTotp::totp`. -/
def totp (key : String) (timeNow timeStart timeStep digitCount : ℕ) : ℕ :=
  lib.hotp key (u64 (timeNow + 2 ^ 64 - timeStart) / timeStep) digitCount

/-- The code that `TotpCache::ValidateCode` expects: six digits, with leading zeros. -/
def expecting (secret : String) (now : ℕ) : String :=
  let digits := Nat.toDigits 10 (lib.totp secret now 0 30 6)
  String.ofList (List.replicate (6 - digits.length) '0' ++ digits)

/-- `TotpCache::ValidateCode`. -/
def validateCode (secret code : String) (now : ℕ) : Bool := code == lib.expecting secret now

/-- `TotpCache::GenerateQRCode`. -/
def generateQRCode (secret email : String) : String :=
  lib.toSvgString ("otpauth://totp/" ++ lib.issuer ++ ":" ++ email ++ "?secret=" ++ secret ++
    "&issuer=" ++ lib.issuer)

/-- Two digests under the bytes of a secret; nothing else is hashed in the examples. -/
def sample : TotpLibrary where
  issuer := "OpenWiFi"
  hmacSha1 secret msg :=
    if secret == "12345678901234567890" && msg == [0, 0, 0, 0, 3, 96, 170, 43] then
      [88, 137, 146, 138, 227, 103, 147, 79, 12, 88, 139, 156, 81, 224, 4, 89, 96, 16, 6, 244]
    else if secret == "12345678901234567890" && msg == [0, 0, 0, 0, 3, 96, 170, 44] then
      [14, 154, 33, 145, 29, 89, 87, 46, 133, 244, 11, 107, 254, 142, 68, 252, 36, 93, 63, 195]
    else []
  toBase32 secret := secret
  toSvgString text := "<svg>" ++ text ++ "</svg>"

example : sample.expecting "12345678901234567890" 1700000010 = "732303" := by decide

end TotpLibrary

/-! ## `TotpCache` -/

/-- What `ContinueValidation` reports. -/
inductive TotpAnswer
  /-- `true`, with `NextIndex` and `MoreCodes`. -/
  | accepted (nextIndex : ℕ) (moreCodes : Bool)
  /-- `false`, with the error. -/
  | refused (e : Msg)
  deriving DecidableEq

namespace Storage

variable (lib : TotpLibrary)

/-- `TotpCache::StartValidation`, which answers the picture; `secret` is what
`GenerateSecret` draws. -/
def totpStartValidation (now : ℕ) (secret : String) (s : Storage) (user : UserInfo)
    (subscriber reset : Bool) : String × Storage :=
  let qrCode := lib.generateQRCode (lib.toBase32 secret) user.email
  let e : TotpEntry :=
    { subscriber := subscriber
      start := now
      done := 0
      verifications := 0
      secret := secret
      qrCode := qrCode
      lastCode := "" }
  match s.totp.lookup user.id with
  | some hint =>
    if hint.subscriber == subscriber then
      if reset then (qrCode, { s with totp := s.totp.insert user.id e }) else (hint.qrCode, s)
    else (qrCode, { s with totp := s.totp.insert user.id e })
  | none => (qrCode, { s with totp := s.totp.insert user.id e })

/-- `TotpCache::ContinueValidation`. -/
def totpContinueValidation (now : ℕ) (s : Storage) (user : UserInfo) (subscriber : Bool)
    (code : String) (nextIndex : ℕ) : TotpAnswer × Storage :=
  match s.totp.lookup user.id with
  | some e =>
    if subscriber == e.subscriber && u64 (now + 2 ^ 64 - e.start) < 15 * 60 then
      if nextIndex == 1 && e.verifications == 0 && lib.validateCode e.secret code now then
        (.accepted 2 true,
          { s with
            totp := s.totp.insert user.id
              { e with verifications := e.verifications + 1, lastCode := code } })
      else if nextIndex == 2 && e.verifications == 1 && code != e.lastCode &&
          lib.validateCode e.secret code now then
        (.accepted nextIndex false,
          { s with totp := s.totp.insert user.id { e with done := now } })
      else if !lib.validateCode e.secret code now then (.refused Errors.TOTInvalidCode, s)
      else if nextIndex != 1 && nextIndex != 2 then (.refused Errors.TOTInvalidIndex, s)
      else if code == e.lastCode then (.refused Errors.TOTRepeatedCode, s)
      else (.refused Errors.TOTInvalidProtocol, s)
    else (.refused Errors.TOTNoSession, s)
  | none => (.refused Errors.TOTNoSession, s)

/-- `StartValidation` draws a secret unless it finds an entry to go on with. -/
def totpGenerates (s : Storage) (userId : String) (subscriber reset : Bool) : Bool :=
  match s.totp.lookup userId with
  | some hint => hint.subscriber != subscriber || reset
  | none => true

/-- What `ContinueValidation` can do: take the first code, take the second, or refuse and
change nothing. -/
inductive TotpContinues (now : ℕ) (s : Storage) (user : UserInfo) (subscriber : Bool)
    (code : String) (nextIndex : ℕ) : TotpAnswer × Storage → Prop
  | first (e : TotpEntry) (hlookup : s.totp.lookup user.id = some e)
    (hsubscriber : e.subscriber = subscriber) (hindex : nextIndex = 1)
    (hverifications : e.verifications = 0) (hvalid : lib.validateCode e.secret code now = true) :
    TotpContinues now s user subscriber code nextIndex
      (.accepted 2 true,
        { s with
          totp := s.totp.insert user.id
            { e with verifications := e.verifications + 1, lastCode := code } })
  | second (e : TotpEntry) (hlookup : s.totp.lookup user.id = some e)
    (hsubscriber : e.subscriber = subscriber) (hindex : nextIndex = 2)
    (hverifications : e.verifications = 1) (hcode : code ≠ e.lastCode)
    (hvalid : lib.validateCode e.secret code now = true) :
    TotpContinues now s user subscriber code nextIndex
      (.accepted nextIndex false,
        { s with totp := s.totp.insert user.id { e with done := now } })
  | refused (e : Msg) : TotpContinues now s user subscriber code nextIndex (.refused e, s)

section Specs

variable {s : Storage} {subscriber : Bool} {now : ℕ}

/-- Starting stores a new entry, or leaves the cache alone. -/
theorem totpStartValidation_totp (now : ℕ) (secret : String) (s : Storage) (user : UserInfo)
    (subscriber reset : Bool) :
    (s.totpStartValidation lib now secret user subscriber reset).2.totp =
      if s.totpGenerates user.id subscriber reset then
        s.totp.insert user.id
          { subscriber := subscriber, start := now, done := 0, verifications := 0, secret := secret,
            qrCode := lib.generateQRCode (lib.toBase32 secret) user.email, lastCode := "" }
      else s.totp := by
  unfold totpStartValidation totpGenerates
  rcases s.totp.lookup user.id with _ | hint
  · rfl
  · by_cases hsub : hint.subscriber = subscriber <;> cases reset <;> simp [hsub]

theorem totpContinueValidation_cases (now : ℕ) (s : Storage) (user : UserInfo) (subscriber : Bool)
    (code : String) (nextIndex : ℕ) :
    TotpContinues lib now s user subscriber code nextIndex
      (s.totpContinueValidation lib now user subscriber code nextIndex) := by
  unfold totpContinueValidation
  split
  · rename_i e hlookup
    split
    · rename_i hopen
      simp only [Bool.and_eq_true, beq_iff_eq] at hopen
      split
      · rename_i hfirst
        simp only [Bool.and_eq_true, beq_iff_eq] at hfirst
        obtain ⟨⟨hindex, hverifications⟩, hvalid⟩ := hfirst
        exact .first e hlookup hopen.1.symm hindex hverifications hvalid
      · split
        · rename_i hsecond
          simp only [Bool.and_eq_true, beq_iff_eq, bne_iff_ne, ne_eq] at hsecond
          obtain ⟨⟨⟨hindex, hverifications⟩, hcode⟩, hvalid⟩ := hsecond
          exact .second e hlookup hopen.1.symm hindex hverifications hcode hvalid
        · split
          · exact .refused _
          · split
            · exact .refused _
            · split <;> exact .refused _
    · exact .refused _
  · exact .refused _

/-- What `CompleteValidation` hands out is the secret of a finished entry that is not old,
which it forgets. -/
theorem totpCompleteValidation_some {userId secret : String}
    (h : (s.totpCompleteValidation now userId subscriber).1 = some secret) :
    ∃ e, s.totp.lookup userId = some e ∧ e.subscriber = subscriber ∧ e.secret = secret ∧
      u64 (now + 2 ^ 64 - e.start) < 15 * 60 ∧ e.done ≠ 0 ∧
      (s.totpCompleteValidation now userId subscriber).2.totp = s.totp.erase userId := by
  unfold totpCompleteValidation at h ⊢
  rcases hl : s.totp.lookup userId with _ | e
  · rw [hl] at h
    cases h
  · rw [hl] at h
    simp only at h ⊢
    split at h
    · rename_i hdone
      rw [if_pos hdone]
      simp only [Bool.and_eq_true, beq_iff_eq, decide_eq_true_eq, bne_iff_ne] at hdone
      exact ⟨e, rfl, hdone.1.1.symm, Option.some.inj h, hdone.1.2, hdone.2, rfl⟩
    · cases h

theorem totpCompleteValidation_none {userId : String}
    (h : (s.totpCompleteValidation now userId subscriber).1 = none) :
    (s.totpCompleteValidation now userId subscriber).2 = s := by
  unfold totpCompleteValidation at h ⊢
  split at h
  · split at h
    · cases h
    · rename_i hnot
      rw [if_neg hnot]
  · rfl

end Specs

end Storage

/-! ## Runs of enrolments -/

/-- What is worth remembering of a call. -/
inductive EnrolmentCall
  /-- `StartValidation` drew a secret. -/
  | generated (userId : String) (subscriber : Bool) (secret : String) (now : ℕ)
  /-- `ContinueValidation` accepted a code. -/
  | verified (userId : String) (subscriber : Bool) (index : ℕ) (code : String) (now : ℕ)
  /-- `CompleteValidation` handed out a secret. -/
  | released (userId : String) (subscriber : Bool) (secret : String) (now : ℕ)
  deriving DecidableEq

/-- The call begins or ends an enrolment of the user. -/
def EnrolmentCall.Delimits (userId : String) : EnrolmentCall → Prop
  | .generated u _ _ _ | .released u _ _ _ => u = userId
  | .verified .. => False

/-- The service with the calls so far, the latest first. -/
structure Enrolments where
  storage : Storage := {}
  clock : ℕ := 0
  history : List EnrolmentCall := []

/-- What happens in one step. -/
inductive EnrolmentEvent
  | start (now : ℕ) (secret : String) (user : UserInfo) (subscriber reset : Bool)
  | continueWith (now : ℕ) (user : UserInfo) (subscriber : Bool) (code : String) (nextIndex : ℕ)
  | complete (now : ℕ) (user : UserInfo) (subscriber : Bool)
  /-- Whatever leaves the enrolments alone. -/
  | elsewhere

namespace Enrolments

variable (lib : TotpLibrary)

/-- `StartValidation`. -/
def start (s : Enrolments) (now : ℕ) (secret : String) (user : UserInfo)
    (subscriber reset : Bool) : Enrolments where
  storage := (s.storage.totpStartValidation lib now secret user subscriber reset).2
  clock := now
  history :=
    if s.storage.totpGenerates user.id subscriber reset then
      .generated user.id subscriber secret now :: s.history
    else s.history

/-- `ContinueValidation`. -/
def continueWith (s : Enrolments) (now : ℕ) (user : UserInfo) (subscriber : Bool)
    (code : String) (nextIndex : ℕ) : Enrolments where
  storage := (s.storage.totpContinueValidation lib now user subscriber code nextIndex).2
  clock := now
  history :=
    match (s.storage.totpContinueValidation lib now user subscriber code nextIndex).1 with
    | .accepted .. => .verified user.id subscriber nextIndex code now :: s.history
    | .refused _ => s.history

/-- `CompleteValidation`. -/
def complete (s : Enrolments) (now : ℕ) (user : UserInfo) (subscriber : Bool) : Enrolments where
  storage := (s.storage.totpCompleteValidation now user.id subscriber).2
  clock := now
  history :=
    match (s.storage.totpCompleteValidation now user.id subscriber).1 with
    | some secret => .released user.id subscriber secret now :: s.history
    | none => s.history

/-- The clock is positive and has not gone back. -/
def Ticks (s : Enrolments) (now : ℕ) : Prop := 0 < now ∧ s.clock ≤ now ∧ now < 2 ^ 64

instance (s : Enrolments) (now : ℕ) : Decidable (s.Ticks now) :=
  inferInstanceAs (Decidable (_ ∧ _ ∧ _))

/-- One step. -/
inductive Step : Enrolments → EnrolmentEvent → Enrolments → Prop
  | start {s : Enrolments} {now : ℕ} (secret : String) (user : UserInfo) (subscriber reset : Bool)
    (h : s.Ticks now) :
    Step s (.start now secret user subscriber reset) (s.start lib now secret user subscriber reset)
  | continueWith {s : Enrolments} {now : ℕ} (user : UserInfo) (subscriber : Bool) (code : String)
    (nextIndex : ℕ) (h : s.Ticks now) :
    Step s (.continueWith now user subscriber code nextIndex)
      (s.continueWith lib now user subscriber code nextIndex)
  | complete {s : Enrolments} {now : ℕ} (user : UserInfo) (subscriber : Bool) (h : s.Ticks now) :
    Step s (.complete now user subscriber) (s.complete now user subscriber)
  | elsewhere {s : Enrolments} {storage : Storage} (h : storage.totp = s.storage.totp) :
    Step s .elsewhere { s with storage }

/-- No enrolment has begun. -/
def AtStart (s : Enrolments) : Prop := s.storage.totp = ∅ ∧ s.history = []

/-- The calls as a transition system. -/
def system : System Enrolments EnrolmentEvent where
  init := AtStart
  step := Step lib

/-- The history ends with `since`, which neither begins nor ends an enrolment of the user, after
a secret was drawn for the user and the flag. -/
def Since (history since : List EnrolmentCall) (userId : String) (subscriber : Bool)
    (secret : String) (start : ℕ) : Prop :=
  (∃ older, history = since ++ .generated userId subscriber secret start :: older) ∧
    ∀ c ∈ since, ¬ c.Delimits userId

/-- A first code was shown. -/
def FirstCode (since : List EnrolmentCall) (userId : String) (subscriber : Bool)
    (secret code : String) : Prop :=
  ∃ now, .verified userId subscriber 1 code now ∈ since ∧ lib.validateCode secret code now = true

/-- A first code was shown, and later a second one. -/
def BothCodes (since : List EnrolmentCall) (userId : String) (subscriber : Bool)
    (secret code : String) : Prop :=
  ∃ code' now now', List.Sublist [.verified userId subscriber 2 code' now',
      .verified userId subscriber 1 code now] since ∧
    code' ≠ code ∧ lib.validateCode secret code now = true ∧
    lib.validateCode secret code' now' = true

/-- What must have happened before a secret is handed out. -/
def Enrolled (history : List EnrolmentCall) (userId : String) (subscriber : Bool)
    (secret : String) (now : ℕ) : Prop :=
  ∃ since start code, Since history since userId subscriber secret start ∧
    BothCodes lib since userId subscriber secret code ∧ start ≤ now ∧ now - start < 15 * 60

/-- Each secret that was handed out had been enrolled, and between two that were handed out for
a user another one was drawn. -/
structure EnrolmentLaw (s : Enrolments) : Prop where
  enrolled : ∀ later userId subscriber secret now before,
    s.history = later ++ .released userId subscriber secret now :: before →
      Enrolled lib before userId subscriber secret now
  once : ∀ later userId subscriber secret now between subscriber' secret' now' before,
    s.history = later ++ .released userId subscriber secret now ::
      (between ++ .released userId subscriber' secret' now' :: before) →
      ∃ start, .generated userId subscriber secret start ∈ between

/-! ## The invariant -/

/-- How far the entry of a user is. -/
structure Progress (s : Enrolments) (userId : String) (e : TotpEntry) : Prop where
  start : e.start ≤ s.clock
  first : e.verifications = 0 → e.done = 0
  since : ∃ since, Since s.history since userId e.subscriber e.secret e.start ∧
    (e.verifications ≠ 0 → FirstCode lib since userId e.subscriber e.secret e.lastCode) ∧
    (e.done ≠ 0 → BothCodes lib since userId e.subscriber e.secret e.lastCode)

/-- The cache and the history fit together. -/
structure Sound (s : Enrolments) : Prop where
  entries : ∀ userId e, s.storage.totp.lookup userId = some e → Progress lib s userId e
  released : ∀ later userId subscriber secret now before,
    s.history = later ++ .released userId subscriber secret now :: before →
      Enrolled lib before userId subscriber secret now

section Steps

variable {lib} {s s' : Enrolments} {userId : String} {e : TotpEntry}

/-- Calls that do not begin or end an enrolment of the user are added to the calls since. -/
theorem Since.append {history since : List EnrolmentCall} (new : List EnrolmentCall)
    {subscriber : Bool} {secret : String} {start : ℕ}
    (h : Since history since userId subscriber secret start)
    (hnew : ∀ c ∈ new, ¬ c.Delimits userId) :
    Since (new ++ history) (new ++ since) userId subscriber secret start := by
  obtain ⟨⟨older, hhistory⟩, hsince⟩ := h
  refine ⟨⟨older, by rw [hhistory, List.append_assoc]⟩, fun c hc ↦ ?_⟩
  rcases List.mem_append.mp hc with hc | hc
  · exact hnew c hc
  · exact hsince c hc

/-- An entry that is left alone keeps its progress. -/
theorem Progress.append (h : Progress lib s userId e) (hclock : s.clock ≤ s'.clock)
    (new : List EnrolmentCall) (hhistory : s'.history = new ++ s.history)
    (hnew : ∀ c ∈ new, ¬ c.Delimits userId) : Progress lib s' userId e where
  start := h.start.trans hclock
  first := h.first
  since := by
    obtain ⟨since, hsince, hfirst, hboth⟩ := h.since
    refine ⟨new ++ since, hhistory ▸ hsince.append new hnew, fun hv ↦ ?_, fun hd ↦ ?_⟩
    · obtain ⟨now, hmem, hvalid⟩ := hfirst hv
      exact ⟨now, List.mem_append_right _ hmem, hvalid⟩
    · obtain ⟨code', now, now', hsub, hcodes⟩ := hboth hd
      exact ⟨code', now, now', hsub.trans (List.sublist_append_right _ _), hcodes⟩

/-- What the history said about earlier releases stays true. -/
theorem Sound.released_cons (hs : Sound lib s) {c : EnrolmentCall}
    (hc : ∀ userId subscriber secret now, c = .released userId subscriber secret now →
      Enrolled lib s.history userId subscriber secret now)
    (later : List EnrolmentCall) (userId : String) (subscriber : Bool) (secret : String) (now : ℕ)
    (before : List EnrolmentCall)
    (h : c :: s.history = later ++ .released userId subscriber secret now :: before) :
    Enrolled lib before userId subscriber secret now := by
  rcases later with _ | ⟨c', later⟩
  · obtain ⟨hhead, htail⟩ := List.cons.inj h
    exact htail ▸ hc _ _ _ _ hhead
  · obtain ⟨-, htail⟩ := List.cons.inj h
    exact hs.released _ _ _ _ _ _ htail

/-- The entry of one user is replaced. -/
theorem Sound.insert (hs : Sound lib s) (hclock : s.clock ≤ s'.clock) {c : EnrolmentCall}
    (hhistory : s'.history = c :: s.history)
    (htotp : s'.storage.totp = s.storage.totp.insert userId e) (hentry : Progress lib s' userId e)
    (hother : ∀ userId', userId' ≠ userId → ¬ c.Delimits userId')
    (hc : ∀ userId subscriber secret now, c ≠ .released userId subscriber secret now) :
    Sound lib s' where
  entries userId' e' he' := by
    rw [htotp, Cache.lookup_insert_eq] at he'
    split at he'
    · rename_i hsame
      obtain rfl := Option.some.inj he'
      exact hsame ▸ hentry
    · rename_i hne
      exact (hs.entries userId' e' he').append hclock [c] hhistory
        (by simpa using hother userId' hne)
  released := by
    rw [hhistory]
    exact hs.released_cons fun _ _ _ _ h ↦ absurd h (hc _ _ _ _)

/-- Nothing happens to the enrolments. -/
theorem Sound.unchanged (hs : Sound lib s) (hclock : s.clock ≤ s'.clock)
    (hhistory : s'.history = s.history) (htotp : s'.storage.totp = s.storage.totp) :
    Sound lib s' where
  entries userId e he := by
    rw [htotp] at he
    exact (hs.entries userId e he).append hclock [] hhistory (by simp)
  released := by
    rw [hhistory]
    exact hs.released

theorem Sound.start (hs : Sound lib s) {now : ℕ} (hnow : s.Ticks now) (secret : String)
    (user : UserInfo) (subscriber reset : Bool) :
    Sound lib (s.start lib now secret user subscriber reset) := by
  have htotp := Storage.totpStartValidation_totp lib now secret s.storage user subscriber reset
  by_cases hnew : s.storage.totpGenerates user.id subscriber reset = true
  · have hhistory : (s.start lib now secret user subscriber reset).history =
        .generated user.id subscriber secret now :: s.history := if_pos hnew
    rw [if_pos hnew] at htotp
    refine hs.insert hnow.2.1 hhistory htotp ?_ ?_ ?_
    · -- a new entry has no codes yet
      refine ⟨le_rfl, fun _ ↦ rfl, [], ⟨⟨s.history, hhistory⟩, by simp⟩, ?_, ?_⟩
      · exact fun hv ↦ absurd rfl hv
      · exact fun hd ↦ absurd rfl hd
    · exact fun userId hne hd ↦ hne hd.symm
    · rintro _ _ _ _ ⟨⟩
  · rw [if_neg hnew] at htotp
    exact hs.unchanged hnow.2.1 (if_neg hnew) htotp

theorem Sound.continueWith (hs : Sound lib s) {now : ℕ} (hnow : s.Ticks now) (user : UserInfo)
    (subscriber : Bool) (code : String) (nextIndex : ℕ) :
    Sound lib (s.continueWith lib now user subscriber code nextIndex) := by
  have hcases :=
    Storage.totpContinueValidation_cases lib now s.storage user subscriber code nextIndex
  unfold Enrolments.continueWith
  generalize s.storage.totpContinueValidation lib now user subscriber code nextIndex = r at hcases ⊢
  cases hcases with
  | first e hlookup hsubscriber hindex hverifications hvalid =>
    subst hsubscriber hindex
    have he := hs.entries user.id e hlookup
    obtain ⟨since, hsince, -, -⟩ := he.since
    refine hs.insert hnow.2.1 rfl rfl ?_ (fun _ _ hd ↦ hd) (by rintro _ _ _ _ ⟨⟩)
    constructor
    case start => exact he.start.trans hnow.2.1
    case first => exact fun hv ↦ absurd hv (Nat.succ_ne_zero _)
    case since =>
      refine ⟨_, hsince.append [_] ?_, fun _ ↦ ?_, fun hd ↦ ?_⟩
      · simp [EnrolmentCall.Delimits]
      · exact ⟨now, List.mem_cons_self, hvalid⟩
      · exact absurd (he.first hverifications) hd
  | second e hlookup hsubscriber hindex hverifications hcode hvalid =>
    subst hsubscriber hindex
    have he := hs.entries user.id e hlookup
    obtain ⟨since, hsince, hfirst, -⟩ := he.since
    obtain ⟨now₁, hmem, hvalid₁⟩ := hfirst (by omega)
    refine hs.insert hnow.2.1 rfl rfl ?_ (fun _ _ hd ↦ hd) (by rintro _ _ _ _ ⟨⟩)
    constructor
    case start => exact he.start.trans hnow.2.1
    case first => exact fun hv ↦ absurd (hverifications.symm.trans hv) Nat.one_ne_zero
    case since =>
      refine ⟨_, hsince.append [_] ?_, fun _ ↦ ?_, fun _ ↦ ?_⟩
      · simp [EnrolmentCall.Delimits]
      · exact ⟨now₁, List.mem_cons_of_mem _ hmem, hvalid₁⟩
      · exact ⟨code, now₁, now, (List.singleton_sublist.mpr hmem).cons_cons _, hcode, hvalid₁, hvalid⟩
  | refused err => exact hs.unchanged hnow.2.1 rfl rfl

theorem Sound.complete (hs : Sound lib s) {now : ℕ} (hnow : s.Ticks now) (user : UserInfo)
    (subscriber : Bool) : Sound lib (s.complete now user subscriber) := by
  rcases hl : (s.storage.totpCompleteValidation now user.id subscriber).1 with _ | secret
  · have hsame := Storage.totpCompleteValidation_none hl
    refine hs.unchanged hnow.2.1 ?_ (congrArg Storage.totp hsame)
    unfold Enrolments.complete
    rw [hl]
  · obtain ⟨e, hlookup, hsubscriber, hsecret, hage, hdone, htotp⟩ :=
      Storage.totpCompleteValidation_some hl
    subst hsubscriber hsecret
    have hhistory : (s.complete now user e.subscriber).history =
        .released user.id e.subscriber e.secret now :: s.history := by
      unfold Enrolments.complete
      rw [hl]
    have he := hs.entries user.id e hlookup
    constructor
    case entries =>
      intro userId' e' he'
      change (s.storage.totpCompleteValidation now user.id e.subscriber).2.totp.lookup userId' = _
        at he'
      rw [htotp, Cache.lookup_erase_eq] at he'
      split at he'
      · cases he'
      · rename_i hne
        exact (hs.entries userId' e' he').append hnow.2.1 [_] hhistory
          (by simpa [EnrolmentCall.Delimits] using Ne.symm hne)
    case released =>
      rw [hhistory]
      refine hs.released_cons fun userId' subscriber' secret' now' h ↦ ?_
      cases h
      obtain ⟨since, hsince, -, hboth⟩ := he.since
      have hstart : e.start ≤ now := he.start.trans hnow.2.1
      refine ⟨since, e.start, e.lastCode, hsince, hboth hdone, hstart, ?_⟩
      rwa [u64_age hstart hnow.2.2] at hage

theorem Sound.atStart (h : AtStart s) : Sound lib s := by
  obtain ⟨htotp, hhistory⟩ := h
  constructor
  case entries =>
    intro userId e he
    rw [htotp] at he
    simp at he
  case released =>
    intro later userId subscriber secret now before h
    rw [hhistory] at h
    simp at h

/-- One step keeps the invariant. -/
theorem Sound.step {event : EnrolmentEvent} (hs : Sound lib s) (h : Step lib s event s') :
    Sound lib s' := by
  cases h with
  | start secret user subscriber reset hnow => exact hs.start hnow secret user subscriber reset
  | continueWith user subscriber code nextIndex hnow =>
    exact hs.continueWith hnow user subscriber code nextIndex
  | complete user subscriber hnow => exact hs.complete hnow user subscriber
  | elsewhere htotp => exact hs.unchanged le_rfl rfl htotp

end Steps

/-- In every run the cache and the history fit together. -/
theorem Sound.of_reachable {s : Enrolments} (h : (system lib).Reachable s) : Sound lib s :=
  h.invariant (fun _ h₀ ↦ .atStart h₀) (fun _ _ _ hs hstep ↦ hs.step hstep)

/-- In every run, a secret that is handed out was enrolled, and is handed out once. -/
theorem enrolmentLaw {s : Enrolments} (h : (system lib).Reachable s) : EnrolmentLaw lib s := by
  have hsound := Sound.of_reachable lib h
  constructor
  case enrolled => exact hsound.released
  case once =>
    intro later userId subscriber secret now between subscriber' secret' now' before hhistory
    obtain ⟨since, start, -, ⟨⟨older, hsplit⟩, hsince⟩, -⟩ := hsound.released _ _ _ _ _ _ hhistory
    -- the earlier release is not among the calls since the secret was drawn
    rcases List.append_eq_append_iff.mp hsplit with ⟨l, hl, hrest⟩ | ⟨l, hl, hrest⟩
    · rcases l with _ | ⟨c, l⟩
      · cases hrest
      · obtain ⟨rfl, -⟩ := List.cons.inj hrest
        have hmem : .released userId subscriber' secret' now' ∈ since := by simp [hl]
        exact absurd rfl (hsince _ hmem)
    · rcases l with _ | ⟨c, l⟩
      · cases hrest
      · obtain ⟨rfl, -⟩ := List.cons.inj hrest
        exact ⟨start, hl ▸ by simp⟩

/-! ## An enrolment -/

/-- A user shows two codes and receives the secret. -/
def sampleEnrolment : Enrolments :=
  let user : UserInfo := { id := "uuid-a", email := "jo@example.com" }
  ((((({} : Enrolments).start .sample 1700000000 "12345678901234567890" user false false
    ).continueWith .sample 1700000010 user false "732303" 1
    ).continueWith .sample 1700000045 user false "136087" 2
    ).complete 1700000050 user false)

theorem atStart_empty : AtStart {} := ⟨rfl, rfl⟩

theorem reachable_sampleEnrolment : (system .sample).Reachable sampleEnrolment :=
  ((((System.Reachable.init atStart_empty).step (Step.start _ _ _ _ (by decide))).step
    (Step.continueWith _ _ _ _ (by decide))).step
    (Step.continueWith _ _ _ _ (by decide))).step (Step.complete _ _ (by decide))

/-- The statement for that run, in which a secret is handed out. -/
theorem enrolmentLaw_sample : EnrolmentLaw .sample sampleEnrolment ∧
    .released "uuid-a" false "12345678901234567890" 1700000050 ∈ sampleEnrolment.history :=
  ⟨enrolmentLaw .sample reachable_sampleEnrolment, by decide⟩

end Enrolments

end OwSec
