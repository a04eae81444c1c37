import OwSec.Auth.TotpCache

/-!
# The second factor

`MFAServer.cpp`: a login that needs a second factor leaves a challenge in a cache, sends its
answer by SMS or by mail or expects a one-time password, and is completed by whoever presents
the identifier of the challenge with the right answer.

Old challenges are dropped when another one is started, and at no other time; a completion
does not look at the age of what it finds.  So a challenge completes at most once, and only
with its answer, in every run, but within five minutes only where no late completion has the
right answer.
-/

namespace OwSec

open SecurityObjects Kit

namespace MFAMETHODS

def SMS : String := "sms"
def EMAIL : String := "email"
def AUTHENTICATOR : String := "authenticator"

end MFAMETHODS

/-- `MFACacheEntry`. -/
structure MFACacheEntry where
  uInfo : UserInfoAndPolicy
  answer : String
  created : ℕ
  method : String
  deriving DecidableEq

/-- What `StartMFAChallenge` sets in the answer to the client. -/
structure MFAChallenge where
  uuid : String
  created : ℕ
  question : String
  method : String
  deriving DecidableEq

/-- `MFAChallengeCache`. -/
abbrev MFAChallengeCache := Cache String MFACacheEntry

/-- The services that carry a challenge, during one call. -/
structure Messaging where
  /-- `SMSSender()->Enabled()`. -/
  smsEnabled : Bool
  /-- `SMTPMailerService()->Enabled()`. -/
  mailEnabled : Bool
  /-- What the provider answers to `SMSSender()->Send(Number, Message)`. -/
  sendSMS : String → String → Bool
  /-- `AuthService()->SendEmailChallengeCode(UInfo, Challenge)`. -/
  sendEmailChallengeCode : UserInfoAndPolicy → String → Bool

/-- `MFAServer::MakeChallenge`, of the number drawn. -/
def makeChallenge (random : ℕ) : String :=
  let digits := Nat.toDigits 10 random
  String.ofList (List.replicate (6 - digits.length) '0' ++ digits)

namespace Messaging

variable (services : Messaging)

/-- `MFAServer::MethodEnabled`. -/
def methodEnabled (method : String) : Bool :=
  if method == MFAMETHODS.SMS then services.smsEnabled
  else if method == MFAMETHODS.EMAIL then services.mailEnabled
  else if method == MFAMETHODS.AUTHENTICATOR then true
  else false

/-- `MFAServer::SendChallenge`. -/
def sendChallenge (uInfo : UserInfoAndPolicy) (method challenge : String) : Bool :=
  if method == MFAMETHODS.SMS && services.smsEnabled &&
      !uInfo.userinfo.userTypeProprietaryInfo.mobiles.isEmpty then
    let message := "This is your login code: " ++ challenge ++
      " Please enter this in your login screen."
    services.sendSMS (uInfo.userinfo.userTypeProprietaryInfo.mobiles.headD {}).number message
  else if method == MFAMETHODS.EMAIL && services.mailEnabled && !uInfo.userinfo.email.isEmpty then
    services.sendEmailChallengeCode uInfo challenge
  else
    method == MFAMETHODS.AUTHENTICATOR &&
      !uInfo.userinfo.userTypeProprietaryInfo.authenticatorSecret.isEmpty

end Messaging

/-- The answer is the one that `CompleteMFAChallenge` expects of the entry. -/
def MFACacheEntry.accepts (lib : TotpLibrary) (hint : MFACacheEntry) (answer : String)
    (now : ℕ) : Bool :=
  if hint.method == MFAMETHODS.AUTHENTICATOR then
    lib.validateCode hint.uInfo.userinfo.userTypeProprietaryInfo.authenticatorSecret answer now
  else hint.answer == answer

/-- What `CompleteMFAChallenge` reports. -/
inductive Completion
  /-- `true`, with the user. -/
  | completed (uInfo : UserInfoAndPolicy)
  | refused
  /-- An exception of the JSON library. -/
  | thrown
  deriving DecidableEq

namespace MFAChallengeCache

variable (lib : TotpLibrary) (json : JsonLibrary) (services : Messaging)

/-- `MFAServer::CleanCache`. -/
def cleanCache (now : ℕ) (c : MFAChallengeCache) : MFAChallengeCache :=
  Cache.removeAll c (Cache.keysWhere c fun e ↦ decide (300 < u64 (now + 2 ^ 64 - e.created)))

/-- The entry that `StartMFAChallenge` stores. -/
def newEntry (now random : ℕ) (uInfo : UserInfoAndPolicy) : MFACacheEntry where
  uInfo := uInfo
  answer := makeChallenge random
  created := now
  method := uInfo.userinfo.userTypeProprietaryInfo.mfa.method

/-- `MFAServer::StartMFAChallenge`: what it set for the client, and whether the challenge is on
its way. -/
def startMFAChallenge (m : Moment) (random : ℕ) (c : MFAChallengeCache)
    (uInfo : UserInfoAndPolicy) : Option MFAChallenge × Bool × MFAChallengeCache :=
  let c := c.cleanCache m.now
  let method := uInfo.userinfo.userTypeProprietaryInfo.mfa.method
  if !services.methodEnabled method then (none, false, c)
  else
    let challenge := makeChallenge random
    let challengeStart : MFAChallenge :=
      { uuid := m.uuid, created := m.now, question := "mfa challenge", method := method }
    (some challengeStart, services.sendChallenge uInfo method challenge,
      c.insert m.uuid (newEntry m.now random uInfo))

/-- `MFAServer::ResendCode`. -/
def resendCode (c : MFAChallengeCache) (uuid : String) : Bool :=
  match c.lookup uuid with
  | none => false
  | some hint => services.sendChallenge hint.uInfo hint.method hint.answer

/-- `ChallengeResponse->get(Field).toString()`. -/
def field (o : JsonObject) (name : String) : Option String := (o.get? name).bind json.varToString

/-- `MFAServer::CompleteMFAChallenge`. -/
def completeMFAChallenge (now : ℕ) (c : MFAChallengeCache) (o : JsonObject) :
    Completion × MFAChallengeCache :=
  if !o.has "uuid" || !o.has "answer" then (.refused, c)
  else
    match field json o "uuid" with
    | none => (.thrown, c)
    | some uuid =>
      match c.lookup uuid with
      | none => (.refused, c)
      | some hint =>
        match field json o "answer" with
        | none => (.thrown, c)
        | some answer =>
          if hint.accepts lib answer now then (.completed hint.uInfo, c.erase uuid)
          else (.refused, c)

section Specs

variable {c : MFAChallengeCache}

/-- Cleaning drops challenges. -/
theorem evicts_cleanCache (now : ℕ) (c : MFAChallengeCache) :
    Cache.Evicts c (c.cleanCache now) := Cache.Evicts.removeAll _ _

/-- What is left by cleaning is at most five minutes old. -/
theorem age_of_cleanCache {now : ℕ} {uuid : String} {e : MFACacheEntry}
    (h : (c.cleanCache now).lookup uuid = some e) : u64 (now + 2 ^ 64 - e.created) ≤ 300 := by
  unfold cleanCache at h
  rw [Cache.lookup_removeAll_keysWhere] at h
  obtain ⟨-, hage⟩ := Option.filter_eq_some_iff.mp h
  simpa using hage

/-- Starting a challenge stores it if the method is enabled. -/
theorem startMFAChallenge_cache (m : Moment) (random : ℕ) (c : MFAChallengeCache)
    (uInfo : UserInfoAndPolicy) :
    (c.startMFAChallenge services m random uInfo).2.2 =
      if services.methodEnabled uInfo.userinfo.userTypeProprietaryInfo.mfa.method then
        (c.cleanCache m.now).insert m.uuid (newEntry m.now random uInfo)
      else c.cleanCache m.now := by
  unfold startMFAChallenge
  rcases hmethod : services.methodEnabled uInfo.userinfo.userTypeProprietaryInfo.mfa.method with _ | _
  · simp [hmethod]
  · simp [hmethod]

theorem has_of_field {o : JsonObject} {name text : String} (h : field json o name = some text) :
    o.has name = true := by
  obtain ⟨j, hj, -⟩ := Option.bind_eq_some_iff.mp h
  obtain ⟨member, hmember, -⟩ := Option.map_eq_some_iff.mp hj
  exact List.any_eq_true.mpr
    ⟨member, List.mem_of_find?_eq_some hmember, by simpa using List.find?_some hmember⟩

/-- A completion succeeds exactly with the identifier and the right answer of a stored
challenge, which it forgets. -/
theorem completeMFAChallenge_completed_iff {now : ℕ} {o : JsonObject} {uInfo : UserInfoAndPolicy} :
    (c.completeMFAChallenge lib json now o).1 = .completed uInfo ↔
      ∃ uuid hint answer, field json o "uuid" = some uuid ∧ c.lookup uuid = some hint ∧
        field json o "answer" = some answer ∧ hint.accepts lib answer now = true ∧
        hint.uInfo = uInfo := by
  constructor
  · intro h
    unfold completeMFAChallenge at h
    split at h
    · cases h
    · split at h
      · cases h
      · rename_i uuid huuid
        split at h
        · cases h
        · rename_i hint hlookup
          split at h
          · cases h
          · rename_i answer hanswer
            split at h
            · rename_i haccepts
              exact ⟨uuid, hint, answer, huuid, hlookup, hanswer, haccepts, Completion.completed.inj h⟩
            · cases h
  · rintro ⟨uuid, hint, answer, huuid, hlookup, hanswer, haccepts, rfl⟩
    unfold completeMFAChallenge
    simp only [has_of_field json huuid, has_of_field json hanswer, huuid, hlookup, hanswer, haccepts,
      Bool.not_true, Bool.or_self, Bool.false_eq_true, if_false, if_true]

/-- A completion that fails changes nothing, and one that succeeds forgets its challenge. -/
theorem completeMFAChallenge_cache (now : ℕ) (c : MFAChallengeCache) (o : JsonObject) :
    (∀ uInfo, (c.completeMFAChallenge lib json now o).1 ≠ .completed uInfo) ∧
        (c.completeMFAChallenge lib json now o).2 = c ∨
      ∃ uInfo uuid, (c.completeMFAChallenge lib json now o).1 = .completed uInfo ∧
        field json o "uuid" = some uuid ∧
        (c.completeMFAChallenge lib json now o).2 = c.erase uuid := by
  unfold completeMFAChallenge
  split
  · exact .inl ⟨by simp, rfl⟩
  · split
    · exact .inl ⟨by simp, rfl⟩
    · rename_i uuid huuid
      split
      · exact .inl ⟨by simp, rfl⟩
      · split
        · exact .inl ⟨by simp, rfl⟩
        · split
          · exact .inr ⟨_, uuid, rfl, huuid, rfl⟩
          · exact .inl ⟨by simp, rfl⟩

end Specs

end MFAChallengeCache

end OwSec
