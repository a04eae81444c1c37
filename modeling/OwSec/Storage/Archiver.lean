import OwSec.RestApi.ActionLinks

/-!
# The archiver

Once an hour `Archiver::onTimer` (`StorageService.cpp`) deletes what has run out: tokens of users
and of subscribers, old action links, and API keys.

`TickLaw` says which rows one tick should delete.  The tick cleans the action links twice and the
API keys never, so the law fails where an API key has run out; and since the limit for action
links is a difference of unsigned numbers, it fails during the first thirty days of the clock.
-/

namespace OwSec

open SecurityObjects Kit

namespace Storage

/-- `CleanExpiredTokens` of the store that the `Sub` flag selects. -/
def cleanExpiredTokens (now : ℕ) (s : Storage) (isSub : Bool) : Storage :=
  s.setPopulation isSub
    { s.population isSub with tokens := (s.population isSub).tokens.cleanExpiredTokens now }

/-- `ApiKeyDB::RemoveExpiredAPIKeys`. -/
def removeExpiredAPIKeys (now : ℕ) (s : Storage) : Storage :=
  { s with apiKeys := s.apiKeys.deleteWhere fun k ↦ k.expiresOn ≤ now }

/-- `Archiver::onTimer`. -/
def onTimer (now : ℕ) (s : Storage) : Storage :=
  let s := s.cleanExpiredTokens now true
  let s := s.cleanExpiredTokens now false
  let s := s.cleanOldActionLinks now
  s.cleanOldActionLinks now

end Storage

/-- The limit for action links, in seconds. -/
def actionLinkLimit : ℕ := 30 * 24 * 60 * 60

/-- Of the rows before, those that are kept are left. -/
def Keeps {κ ρ : Type} {key : ρ → κ} (kept : ρ → Prop)
    (before after : Table κ ρ key) : Prop :=
  ∀ r, r ∈ after.rows ↔ r ∈ before.rows ∧ kept r

/-- What one tick should do. -/
structure TickLaw (now : ℕ) (s s' : Storage) : Prop where
  /-- Tokens go once they have run out. -/
  tokens : ∀ isSub, Keeps (fun t ↦ ¬ t.created + t.expires ≤ now)
    (s.population isSub).tokens.rows (s'.population isSub).tokens.rows
  /-- Action links go once they are past the limit. -/
  links : Keeps (fun a ↦ ¬ a.created + actionLinkLimit ≤ now) s.actionLinks s'.actionLinks
  /-- API keys go once they have run out. -/
  keys : Keeps (fun k ↦ ¬ k.expiresOn ≤ now) s.apiKeys s'.apiKeys
  /-- Everything else stays. -/
  users : ∀ isSub, (s'.population isSub).users = (s.population isSub).users
  logins : ∀ isSub, (s'.population isSub).logins = (s.population isSub).logins
  preferences : s'.preferences = s.preferences ∧ s'.subPreferences = s.subPreferences
  avatars : s'.avatars = s.avatars ∧ s'.subAvatars = s.subAvatars

section Tables

variable {κ ρ : Type} {key : ρ → κ}

/-- A deletion keeps the rows that it does not select. -/
theorem keeps_deleteWhere {kept : ρ → Prop} (t : Table κ ρ key) (p : ρ → Bool)
    (h : ∀ r ∈ t.rows, p r = false ↔ kept r) : Keeps kept t (t.deleteWhere p) := by
  intro r
  simp only [Table.deleteWhere, List.mem_filter, Bool.not_eq_true']
  exact and_congr_right fun hr ↦ h r hr

/-- A table that was left alone keeps the rows that all are kept. -/
theorem keeps_self_iff {kept : ρ → Prop} (t : Table κ ρ key) :
    Keeps kept t t ↔ ∀ r ∈ t.rows, kept r := by
  constructor
  · intro h r hr
    exact ((h r).mp hr).2
  · intro h r
    exact ⟨fun hr ↦ ⟨hr, h r hr⟩, And.left⟩

/-- Deleting the same rows again deletes none. -/
theorem deleteWhere_deleteWhere (t : Table κ ρ key) (p : ρ → Bool) :
    (t.deleteWhere p).deleteWhere p = t.deleteWhere p := by
  simp [Table.deleteWhere, List.filter_filter]

end Tables

section Tick

variable {now : ℕ} {s : Storage}

/-- A tick in one step: the second cleaning of the action links finds nothing more. -/
theorem onTimer_eq (now : ℕ) (s : Storage) :
    s.onTimer now =
      { s with
        sub := { s.sub with tokens := s.sub.tokens.cleanExpiredTokens now }
        user := { s.user with tokens := s.user.tokens.cleanExpiredTokens now }
        actionLinks := s.actionLinks.deleteWhere fun a ↦
          a.created ≤ u64 (now + 2 ^ 64 - 30 * 24 * 60 * 60) } := by
  unfold Storage.onTimer Storage.cleanOldActionLinks
  simp only [deleteWhere_deleteWhere]
  rfl

/-- The limit, as the difference is computed. -/
theorem cutOff_eq (hnow : now < 2 ^ 64) :
    u64 (now + 2 ^ 64 - 30 * 24 * 60 * 60) =
      if actionLinkLimit ≤ now then now - actionLinkLimit
      else now + 2 ^ 64 - actionLinkLimit := by
  unfold u64 actionLinkLimit
  split <;> omega

/-- The action links are cleaned as they should, except that during the first days of the clock
the limit is in the far future. -/
theorem keeps_links_iff (hnow : now < 2 ^ 64) :
    Keeps (fun a ↦ ¬ a.created + actionLinkLimit ≤ now) s.actionLinks (s.onTimer now).actionLinks ↔
      (now < actionLinkLimit →
        ∀ a ∈ s.actionLinks.rows, now + 2 ^ 64 - actionLinkLimit < a.created) := by
  rw [onTimer_eq, cutOff_eq hnow]
  by_cases hlimit : actionLinkLimit ≤ now
  · simp only [if_pos hlimit, Nat.not_lt.mpr hlimit, false_implies, iff_true]
    refine keeps_deleteWhere _ _ fun a _ ↦ ?_
    rw [decide_eq_false_iff_not]
    omega
  · simp only [if_neg hlimit, Nat.not_le.mp hlimit, true_implies]
    constructor
    · intro h a ha
      have hkept := (h a).mpr ⟨ha, fun hle ↦ by omega⟩
      simpa [Table.deleteWhere, ha] using hkept
    · intro h
      refine keeps_deleteWhere _ _ fun a ha ↦ ?_
      have hfar := h a ha
      rw [decide_eq_false_iff_not]
      omega

/-- A tick deletes exactly what has run out if and only if no API key has, and no action link is
there during the first thirty days of the clock. -/
theorem tickLaw_iff (hnow : now < 2 ^ 64) (s : Storage) :
    TickLaw now s (s.onTimer now) ↔
      (∀ k ∈ s.apiKeys.rows, now < k.expiresOn) ∧
        (now < actionLinkLimit →
          ∀ a ∈ s.actionLinks.rows, now + 2 ^ 64 - actionLinkLimit < a.created) := by
  have hkeys : (s.onTimer now).apiKeys = s.apiKeys := by rw [onTimer_eq]
  constructor
  · intro h
    refine ⟨fun k hk ↦ ?_, (keeps_links_iff hnow).mp h.links⟩
    have hall := h.keys
    rw [hkeys, keeps_self_iff] at hall
    exact Nat.not_le.mp (hall k hk)
  · rintro ⟨hlive, hlinks⟩
    constructor
    case tokens =>
      intro isSub
      rw [onTimer_eq]
      cases isSub <;> exact keeps_deleteWhere _ _ fun t _ ↦ decide_eq_false_iff_not
    case links => exact (keeps_links_iff hnow).mpr hlinks
    case keys =>
      rw [hkeys, keeps_self_iff]
      exact fun k hk ↦ Nat.not_le.mpr (hlive k hk)
    case users =>
      intro isSub
      rw [onTimer_eq]
      cases isSub <;> rfl
    case logins =>
      intro isSub
      rw [onTimer_eq]
      cases isSub <;> rfl
    case preferences => exact onTimer_eq now s ▸ ⟨rfl, rfl⟩
    case avatars => exact onTimer_eq now s ▸ ⟨rfl, rfl⟩

/-- With the call that the tick leaves out, the API keys would be cleaned too. -/
theorem keeps_removeExpiredAPIKeys (now : ℕ) (s : Storage) :
    Keeps (fun k ↦ ¬ k.expiresOn ≤ now) s.apiKeys (s.removeExpiredAPIKeys now).apiKeys :=
  keeps_deleteWhere _ _ fun _ _ ↦ decide_eq_false_iff_not

end Tick

/-- A storage with a token and an API key that ran out at some time. -/
def sampleExpiring (expires : ℕ) : Storage where
  user := { tokens := { rows := ⟨[{ token := "token-a", created := 0, expires := expires }],
    List.nodup_singleton _⟩ } }
  apiKeys := ⟨[{ id := "key-a", expiresOn := expires }], List.nodup_singleton _⟩

/-- The statement before the API key runs out. -/
theorem tickLaw_iff_sample :
    TickLaw 1700000000 (sampleExpiring 1800000000)
      ((sampleExpiring 1800000000).onTimer 1700000000) := by
  refine (tickLaw_iff (by decide) (sampleExpiring 1800000000)).mpr ⟨?_, ?_⟩
  · intro k hk
    obtain rfl := List.mem_singleton.mp hk
    decide
  · exact fun hlimit ↦ absurd hlimit (by decide)

/-- A key that ran out is still there after the tick that deletes the token. -/
theorem expired_key_stays :
    ¬ TickLaw 1700000000 (sampleExpiring 1600000000)
      ((sampleExpiring 1600000000).onTimer 1700000000) := by
  intro h
  have hkept := ((h.keys { id := "key-a", expiresOn := 1600000000 }).mp (List.mem_singleton.mpr rfl)).2
  exact hkept (by decide)

end OwSec
