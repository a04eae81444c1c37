import OwSec.Storage.Runs

/-!
# Checking and removing a token, step by step

`ORM::DB::GetRecord` asks the cache, selects the row on a miss and fills the cache;
`ORM::DB::DeleteRecord` deletes the row, invalidates the cache entry and commits.  Neither
holds a lock from its first step to its last, so the steps of concurrent requests may
interleave.  This file splits the checks of a token and its removals into these steps,
shows that without interleaving they are the operations of the service, and says what a
single step can do to the table and to the cache.

A deletion that is not committed is not visible to the selects of other sessions.
-/

namespace OwSec

open SecurityObjects Kit

variable (svc : Service)

/-! ## The steps of a check -/

/-- How far a check of a token has come. -/
inductive CheckPhase
  /-- The cache has not been asked yet. -/
  | started
  /-- The cache has no entry; the row has not been selected yet. -/
  | missed
  /-- The row was selected and is not in the cache yet. -/
  | selected (row : Token)
  /-- `GetToken` returns the record. -/
  | found (record : Token)
  /-- The check has returned: a refusal, or the user and the token. -/
  | answered (uinfo : Option UserInfoAndPolicy)
  deriving DecidableEq

/-- The next step of a check of the token. -/
def CheckPhase.advance (p : Population) (token : String) : CheckPhase → CheckPhase × Population
  | .started =>
    match p.tokens.getFromCache token with
    | some r => (.found r, p)
    | none => (.missed, p)
  | .missed =>
    match p.tokens.rows.find? token with
    | some r => (.selected r, p)
    | none => (.answered none, p)
  | .selected r => (.found r, { p with tokens := p.tokens.updateCache r })
  | .found t =>
    if t.revocationDate != 0 then (.answered none, p)
    else
      match p.getUserById svc t.userName with
      | (some user, p) =>
        (.answered (some { webtoken := TokenStore.webTokenOf t, userinfo := user }), p)
      | (none, p) => (.answered none, p)
  | .answered uinfo => (.answered uinfo, p)

/-- Several steps of a check with nothing in between. -/
def CheckPhase.advanceAlone (token : String) : ℕ → CheckPhase × Population → CheckPhase × Population
  | 0, x => x
  | n + 1, x => advanceAlone token n (x.1.advance svc x.2 token)

/-- A check whose four steps are not interrupted is `checkToken`. -/
theorem CheckPhase.advanceAlone_started (now : ℕ) (p : Population) (token : String) :
    CheckPhase.advanceAlone svc token 4 (.started, p) =
      (.answered (p.checkToken svc now token).1.uinfo, (p.checkToken svc now token).2) := by
  unfold Population.checkToken TokenStore.getRecord
  simp only [CheckPhase.advanceAlone, CheckPhase.advance]
  rcases hcache : p.tokens.getFromCache token with _ | t
  · rcases p.tokens.rows.find? token with _ | t
    · simp only
    · simp only
      by_cases hrev : t.revocationDate != 0
      · simp only [hrev, if_true]
      · simp only [hrev, if_false, Bool.false_eq_true]
        rcases Population.getUserById svc { p with tokens := p.tokens.updateCache t } t.userName
          with ⟨_ | u, q⟩ <;> rfl
  · simp only
    by_cases hrev : t.revocationDate != 0
    · simp only [hrev, if_true]
    · simp only [hrev, if_false, Bool.false_eq_true]
      rcases Population.getUserById svc p t.userName with ⟨_ | u, q⟩ <;> rfl

/-! ## The steps of a removal -/

/-- How far a removal of a token has come. -/
inductive RemovalPhase
  | started
  /-- The row is deleted in a transaction that is still open. -/
  | deleted
  /-- The event is posted and the cache entry is gone. -/
  | invalidated
  /-- The transaction is committed. -/
  | committed
  | returned
  deriving DecidableEq

/-- The next step of a removal; `Logout` and `SubLogout` record the time at the end, and
`RevokeToken` does not. -/
def RemovalPhase.advance (isLogout : Bool) (now : ℕ) (p : Population) (token : String) :
    RemovalPhase → RemovalPhase × Population
  | .started => (.deleted, p)
  | .deleted => (.invalidated, { p with tokens := p.tokens.cacheDelete svc token })
  | .invalidated =>
    (.committed, { p with tokens := { p.tokens with rows := p.tokens.rows.delete token } })
  | .committed => (.returned, if isLogout then p.addLogout svc now token else p)
  | .returned => (.returned, p)

/-- Several steps of a removal with nothing in between. -/
def RemovalPhase.advanceAlone (isLogout : Bool) (now : ℕ) (token : String) :
    ℕ → RemovalPhase × Population → RemovalPhase × Population
  | 0, x => x
  | n + 1, x => advanceAlone isLogout now token n (x.1.advance svc isLogout now x.2 token)

/-- A removal whose four steps are not interrupted is the logout, or the revocation. -/
theorem RemovalPhase.advanceAlone_started (isLogout : Bool) (now : ℕ) (p : Population)
    (token : String) :
    RemovalPhase.advanceAlone svc isLogout now token 4 (.started, p) =
      (.returned, if isLogout then p.logoutOf svc now token
        else { p with tokens := p.tokens.revokeToken svc token }) := by
  cases isLogout <;> rfl

/-! ## What one step leaves of the tokens -/

section Steps

variable {p : Population}

/-- The steps that a check can take. -/
inductive CheckPhase.Moves (p : Population) (token : String) :
    CheckPhase → CheckPhase → Population → Prop
  | hit {r : Token} (h : p.tokens.cache.lookup token = some r) : Moves p token .started (.found r) p
  | miss (h : p.tokens.cache.lookup token = none) : Moves p token .started .missed p
  | select {r : Token} (h : p.tokens.rows.find? token = some r) :
    Moves p token .missed (.selected r) p
  | absent (h : p.tokens.rows.find? token = none) : Moves p token .missed (.answered none) p
  | fill (r : Token) :
    Moves p token (.selected r) (.found r) { p with tokens := p.tokens.updateCache r }
  | revoked (t : Token) : Moves p token (.found t) (.answered none) p
  | answer (t : Token) (uinfo : Option UserInfoAndPolicy) :
    Moves p token (.found t) (.answered uinfo) (p.getUserById svc t.userName).2
  | done (uinfo : Option UserInfoAndPolicy) : Moves p token (.answered uinfo) (.answered uinfo) p

/-- A check takes no other step. -/
theorem CheckPhase.advance_moves (token : String) (phase : CheckPhase) :
    CheckPhase.Moves svc p token phase (phase.advance svc p token).1
      (phase.advance svc p token).2 := by
  cases phase with
  | started =>
    simp only [CheckPhase.advance]
    rcases hentry : p.tokens.getFromCache token with _ | r
    · exact .miss hentry
    · exact .hit hentry
  | missed =>
    simp only [CheckPhase.advance]
    rcases hrow : p.tokens.rows.find? token with _ | r
    · exact .absent hrow
    · exact .select hrow
  | selected r => exact .fill r
  | found t =>
    have hanswer (uinfo : Option UserInfoAndPolicy) :
        CheckPhase.Moves svc p token (.found t) (.answered uinfo) _ := .answer t uinfo
    simp only [CheckPhase.advance]
    split
    · exact .revoked t
    · rcases hl : p.getUserById svc t.userName with ⟨_ | u, q⟩ <;> rw [hl] at hanswer <;>
        exact hanswer _
  | answered uinfo => exact .done uinfo

/-- A check leaves the table alone. -/
theorem CheckPhase.Moves.rows {token : String} {a b : CheckPhase} {q : Population}
    (h : CheckPhase.Moves svc p token a b q) : q.tokens.rows = p.tokens.rows := by
  cases h with
  | answer t => exact Population.getUserById_rows svc t.userName
  | _ => rfl

/-- A check brings a token into the cache only when it has just selected its row. -/
theorem CheckPhase.Moves.lookup_eq_none {token : String} {a b : CheckPhase} {q : Population}
    (h : CheckPhase.Moves svc p token a b q) {t : String}
    (hnone : p.tokens.cache.lookup t = none) (hsel : ∀ r, a = .selected r → r.token ≠ t) :
    q.tokens.cache.lookup t = none := by
  cases h with
  | fill r =>
    show (p.tokens.cache.insert r.token r).lookup t = none
    rw [Cache.lookup_insert_eq, if_neg (hsel r rfl).symm]
    exact hnone
  | answer row => exact (Population.getUserById_evicts svc row.userName).lookup_eq_none hnone
  | _ => exact hnone

/-- The row that a check selects is the row of its token. -/
theorem CheckPhase.find?_of_advance_selected {token : String} {phase : CheckPhase} {row : Token}
    (h : (phase.advance svc p token).1 = .selected row) :
    p.tokens.rows.find? token = some row := by
  have hm := CheckPhase.advance_moves svc (p := p) token phase
  rw [h] at hm
  generalize (phase.advance svc p token).2 = q at hm
  cases hm with
  | select hrow => exact hrow

/-- A check finds a record in the cache, or has just selected it. -/
theorem CheckPhase.of_advance_found {token : String} {phase : CheckPhase} {r : Token}
    (h : (phase.advance svc p token).1 = .found r) :
    p.tokens.cache.lookup token = some r ∨ phase = .selected r := by
  have hm := CheckPhase.advance_moves svc (p := p) token phase
  rw [h] at hm
  generalize (phase.advance svc p token).2 = q at hm
  cases hm with
  | hit hentry => exact .inl hentry
  | fill => exact .inr rfl

/-- A check succeeds only with a record it has found. -/
theorem CheckPhase.of_advance_answered {token : String} {phase : CheckPhase}
    {uinfo : UserInfoAndPolicy} (h : (phase.advance svc p token).1 = .answered (some uinfo)) :
    (∃ r, phase = .found r) ∨ phase = .answered (some uinfo) := by
  have hm := CheckPhase.advance_moves svc (p := p) token phase
  rw [h] at hm
  generalize (phase.advance svc p token).2 = q at hm
  cases hm with
  | answer t => exact .inl ⟨t, rfl⟩
  | done => exact .inr rfl

/-- A removal only takes rows away. -/
theorem RemovalPhase.advance_find?_eq_none (isLogout : Bool) (now : ℕ) (token : String)
    (phase : RemovalPhase) {t : String} (hnone : p.tokens.rows.find? t = none) :
    (phase.advance svc isLogout now p token).2.tokens.rows.find? t = none := by
  cases phase with
  | started | deleted | returned => exact hnone
  | invalidated =>
    show (p.tokens.rows.delete token).find? t = none
    rw [Table.find?_delete, hnone]
    exact ite_self none
  | committed =>
    cases isLogout
    · exact hnone
    · show (p.addLogout svc now token).tokens.rows.find? t = none
      rwa [Population.addLogout_tokens]

/-- A removal touches the table only when it commits. -/
theorem RemovalPhase.advance_rows (isLogout : Bool) (now : ℕ) (token : String)
    (phase : RemovalPhase) (h : phase ≠ .invalidated) :
    (phase.advance svc isLogout now p token).2.tokens.rows = p.tokens.rows := by
  cases phase with
  | started | deleted | returned => rfl
  | invalidated => exact absurd rfl h
  | committed =>
    cases isLogout
    · rfl
    · exact congrArg TokenStore.rows (Population.addLogout_tokens ..)

/-- A removal that has committed has taken the row away. -/
theorem RemovalPhase.find?_of_advance_committed (isLogout : Bool) (now : ℕ) (token : String)
    (phase : RemovalPhase) (h : (phase.advance svc isLogout now p token).1 = .committed) :
    (phase.advance svc isLogout now p token).2.tokens.rows.find? token = none := by
  cases phase with
  | invalidated =>
    show (p.tokens.rows.delete token).find? token = none
    rw [Table.find?_delete, if_pos rfl]
  | started | deleted | committed | returned => cases h

/-- A removal that has committed was about to, or had before. -/
theorem RemovalPhase.of_advance_committed_or_returned (isLogout : Bool) (now : ℕ) (token : String)
    (phase : RemovalPhase)
    (h : (phase.advance svc isLogout now p token).1 = .committed ∨
      (phase.advance svc isLogout now p token).1 = .returned) :
    phase = .invalidated ∨ phase = .committed ∨ phase = .returned := by
  cases phase with
  | started | deleted => rcases h with h | h <;> cases h
  | invalidated => exact .inl rfl
  | committed => exact .inr (.inl rfl)
  | returned => exact .inr (.inr rfl)

/-- A removal returns after it has committed. -/
theorem RemovalPhase.of_advance_returned (isLogout : Bool) (now : ℕ) (token : String)
    (phase : RemovalPhase) (h : (phase.advance svc isLogout now p token).1 = .returned) :
    phase = .committed ∨ phase = .returned := by
  cases phase with
  | committed => exact .inl rfl
  | returned => exact .inr rfl
  | started | deleted | invalidated => cases h

/-- A removal only takes entries away. -/
theorem RemovalPhase.advance_lookup_eq_none (isLogout : Bool) (now : ℕ) (token : String)
    (phase : RemovalPhase) {t : String} (hnone : p.tokens.cache.lookup t = none) :
    (phase.advance svc isLogout now p token).2.tokens.cache.lookup t = none := by
  cases phase with
  | started | invalidated | returned => exact hnone
  | deleted => exact (Cache.Evicts.erase p.tokens.cache token).lookup_eq_none hnone
  | committed =>
    cases isLogout
    · exact hnone
    · show (p.addLogout svc now token).tokens.cache.lookup t = none
      rwa [Population.addLogout_tokens]

end Steps

end OwSec
