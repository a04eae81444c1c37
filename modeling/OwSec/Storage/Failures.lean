import OwSec.Kit.Transaction
import OwSec.Storage.Exact

/-!
# When the database fails

`UpdateRecord` and `DeleteRecord` run one statement in a transaction and touch the cache
between the statement and the commit, so a failed commit leaves the cache ahead of the
table.  A cache that has lost an entry too many does no harm; one that has gained a record
does.  `RefreshToken` looks neither at the outcome of its update nor at the row, and files
the new token in the cache in any case.

The functions of this file are those of the stores with the failures of the database as an
argument; without failures they are the functions of the stores.
-/

namespace OwSec

open SecurityObjects Kit

/-- Which calls of the database fail during one operation: the lookup of a record, and one
call of the transaction that writes. -/
structure Failures where
  select : Bool := false
  write : Option DbCall := none
  deriving DecidableEq, Repr

namespace TokenStore

variable (svc : Service)

/-- `GetRecord("token", …)`: the database is asked on a miss. -/
def getRecordUnder (failures : Failures) (s : TokenStore) (token : String) :
    Option Token × TokenStore :=
  if failures.select && (s.getFromCache token).isNone then (none, s) else s.getRecord token

/-- `UpdateRecord("token", …)`. -/
def updateRecordUnder (failures : Failures) (s : TokenStore) (token : String) (r : Token) :
    Bool × TokenStore :=
  transact failures.write (s.rows.update token r) (fun rows s ↦ { s with rows })
    (·.updateCache r) s

/-- `DeleteRecord("token", …)`. -/
def deleteRecordUnder (failures : Failures) (s : TokenStore) (token : String) :
    Bool × TokenStore :=
  transact failures.write (some (s.rows.delete token)) (fun rows s ↦ { s with rows })
    (·.cacheDelete svc token) s

/-- `BaseTokenDB::RefreshToken`. -/
def refreshTokenUnder (failures : Failures) (now : ℕ) (s : TokenStore)
    (oldToken newToken newRefreshToken : String) (lastRefresh : ℕ) : Bool × TokenStore :=
  match s.getRecordUnder failures oldToken with
  | (some t, s) =>
    let t' := refreshed now newToken newRefreshToken lastRefresh t
    let s := (s.updateRecordUnder failures oldToken t').2
    let s := s.cacheDelete svc oldToken
    (true, s.updateCache t')
  | (none, s) => (false, s)

theorem updateRecordUnder_none (s : TokenStore) (token : String) (r : Token) :
    s.updateRecordUnder {} token r = s.updateRecord token r := by
  unfold updateRecordUnder updateRecord
  rcases s.rows.update token r with _ | rows <;> rfl

theorem deleteRecordUnder_none (s : TokenStore) (token : String) :
    s.deleteRecordUnder svc {} token = (true, s.deleteRecord svc token) := rfl

/-- A refresh whose write does not fail is the refresh of the store. -/
theorem refreshTokenUnder_of_write (failures : Failures) (hwrite : failures.write = none) (now : ℕ)
    (s : TokenStore) (oldToken newToken newRefreshToken : String) (lastRefresh : ℕ)
    (hselect : failures.select = false ∨ (s.getFromCache oldToken).isSome = true) :
    s.refreshTokenUnder svc failures now oldToken newToken newRefreshToken lastRefresh =
      s.refreshToken svc now oldToken newToken newRefreshToken lastRefresh := by
  have hget : s.getRecordUnder failures oldToken = s.getRecord oldToken := by
    unfold getRecordUnder
    rcases hselect with h | h
    · simp [h]
    · obtain ⟨t, ht⟩ := Option.isSome_iff_exists.mp h
      simp [ht]
  obtain ⟨select, write⟩ := failures
  obtain rfl : write = none := hwrite
  unfold refreshTokenUnder refreshToken
  rw [hget]
  rcases s.getRecord oldToken with ⟨_ | t, s₁⟩
  · rfl
  · have hupdate := s₁.updateRecordUnder_none oldToken
      (refreshed now newToken newRefreshToken lastRefresh t)
    change s₁.updateRecordUnder ⟨select, none⟩ oldToken _ = _ at hupdate
    simp only [hupdate]
    rfl

/-- The table is that of before. -/
theorem updateRecordUnder_rows {failures : Failures} {s : TokenStore} {token : String} {r : Token}
    (h : (s.updateRecordUnder failures token r).1 = false) :
    (s.updateRecordUnder failures token r).2.rows = s.rows := by
  unfold updateRecordUnder at h ⊢
  rw [transact_of_false h]
  split <;> rfl

end TokenStore

namespace Population

variable (svc : Service)

/-- `UpdateRecord("id", …)`. -/
def updateRecordUnder (failures : Failures) (p : Population) (id : String) (r : UserInfo) :
    Bool × Population :=
  transact failures.write (p.users.update id r) (fun users p ↦ { p with users })
    (·.updateCache svc r) p

/-- `DeleteRecord("id", …)`. -/
def deleteRecordUnder (failures : Failures) (p : Population) (id : String) : Bool × Population :=
  transact failures.write (some (p.users.delete id)) (fun users p ↦ { p with users })
    (·.cacheDelete id) p

theorem updateRecordUnder_none (p : Population) (id : String) (r : UserInfo) :
    p.updateRecordUnder svc {} id r = p.updateRecord svc id r := by
  unfold updateRecordUnder updateRecord
  rcases p.users.update id r with _ | users <;> rfl

theorem deleteRecordUnder_none (p : Population) (id : String) :
    p.deleteRecordUnder {} id = (true, p.deleteRecord id) := rfl

/-- Dropping a cached user keeps the caches in agreement. -/
theorem Exact.cacheDelete {p : Population} (h : p.Exact) (id : String) : (p.cacheDelete id).Exact := by
  refine h.evicts rfl (Cache.Evicts.erase _ _) ?_ h.tokens
  unfold Population.cacheDelete
  simp only
  split
  · exact Cache.Evicts.erase _ _
  · exact Cache.Evicts.refl _

end Population

/-! ## What a failure may leave -/

/-- An operation that writes one record. -/
inductive RecordOp
  | updateToken (token : String) (r : Token)
  | deleteToken (token : String)
  | updateUser (id : String) (r : UserInfo)
  | deleteUser (id : String)
  | refreshToken (now : ℕ) (oldToken newToken newRefreshToken : String) (lastRefresh : ℕ)

/-- The row of the old token was replaced by the refreshed row under the new one. -/
def TokenStore.Refreshed (s s' : TokenStore) (now : ℕ) (oldToken newToken newRefreshToken : String)
    (lastRefresh : ℕ) : Prop :=
  ∃ t, s.rows.find? oldToken = some t ∧
    s'.rows.find? newToken = some (refreshed now newToken newRefreshToken lastRefresh t) ∧
    (newToken ≠ oldToken → s'.rows.find? oldToken = none)

/-- What should be true after an operation during which the database may fail.  An update or
a deletion that answers `false` has changed no row and leaves the caches in agreement; a
refresh answers `true`, and makes the new token resolvable, only if the row was replaced, and
otherwise the old token resolves as before. -/
def Intact (svc : Service) (failures : Failures) (p : Population) : RecordOp → Prop
  | .updateToken token r =>
    let result := p.tokens.updateRecordUnder failures token r
    result.1 = false → result.2.rows = p.tokens.rows ∧ result.2.Exact
  | .deleteToken token =>
    let result := p.tokens.deleteRecordUnder svc failures token
    result.1 = false → result.2.rows = p.tokens.rows ∧ result.2.Exact
  | .updateUser id r =>
    let result := p.updateRecordUnder svc failures id r
    result.1 = false → result.2.users = p.users ∧ result.2.Exact
  | .deleteUser id =>
    let result := p.deleteRecordUnder failures id
    result.1 = false → result.2.users = p.users ∧ result.2.Exact
  | .refreshToken now oldToken newToken newRefreshToken lastRefresh =>
    let result := p.tokens.refreshTokenUnder svc failures now oldToken newToken newRefreshToken
      lastRefresh
    let replaced := p.tokens.Refreshed result.2 now oldToken newToken newRefreshToken lastRefresh
    (result.1 = true → replaced) ∧
      (result.2.resolve newToken ≠ p.tokens.resolve newToken → replaced) ∧
      (¬ replaced → result.2.resolve oldToken = p.tokens.resolve oldToken)

/-- When the failures do no harm: no commit fails after the cache was given a record that the
table does not hold, and a refresh that has found its record can replace the row, or would
replace it by itself. -/
def Harmless (failures : Failures) (p : Population) : RecordOp → Prop
  | .updateToken token r => failures.write = some .commit →
    (p.tokens.rows.update token r).isSome = true → p.tokens.rows.find? r.token = some r
  | .updateUser id r => failures.write = some .commit →
    (p.users.update id r).isSome = true → p.users.find? r.id = some r
  | .deleteToken _ | .deleteUser _ => True
  | .refreshToken now oldToken newToken newRefreshToken lastRefresh =>
    ∀ t, p.tokens.rows.find? oldToken = some t →
      failures.select = false ∨ (p.tokens.getFromCache oldToken).isSome = true →
      failures.write = none ∧ (newToken = oldToken ∨ p.tokens.rows.find? newToken = none) ∨
        TokenStore.refreshed now newToken newRefreshToken lastRefresh t = t

section Refresh

variable {svc : Service} {failures : Failures} {s : TokenStore} {now : ℕ}
  {oldToken newToken newRefreshToken : String} {lastRefresh : ℕ}

/-- A refresh that finds no record changes nothing and says so. -/
theorem TokenStore.refreshTokenUnder_none (h : (s.getRecordUnder failures oldToken).1 = none) :
    s.refreshTokenUnder svc failures now oldToken newToken newRefreshToken lastRefresh =
      (false, s) := by
  have hsame : (s.getRecordUnder failures oldToken).2 = s := by
    unfold getRecordUnder at h ⊢
    by_cases hfails : (failures.select && (s.getFromCache oldToken).isNone) = true
    · rw [if_pos hfails]
    · rw [if_neg hfails] at h ⊢
      unfold getRecord at h ⊢
      split at h
      · cases h
      · split at h
        · cases h
        · rfl
  unfold refreshTokenUnder
  rcases hl : s.getRecordUnder failures oldToken with ⟨_ | t, s₁⟩
  · simp only [hl] at hsame ⊢
    rw [hsame]
  · rw [hl] at h
    cases h

variable (svc) in
/-- A refresh that finds a record but cannot write it answers `true` over an unchanged table. -/
theorem TokenStore.refreshTokenUnder_of_found {t : Token}
    (h : (s.getRecordUnder failures oldToken).1 = some t)
    (hwrite : failures.write ≠ none ∨
      s.rows.update oldToken (refreshed now newToken newRefreshToken lastRefresh t) = none) :
    (s.refreshTokenUnder svc failures now oldToken newToken newRefreshToken lastRefresh).1 = true ∧
      (s.refreshTokenUnder svc failures now oldToken newToken newRefreshToken lastRefresh).2.rows =
        s.rows := by
  have hrows : (s.getRecordUnder failures oldToken).2.rows = s.rows := by
    unfold getRecordUnder
    split
    · rfl
    · exact s.getRecord_rows oldToken
  unfold refreshTokenUnder
  rcases hl : s.getRecordUnder failures oldToken with ⟨_ | t', s₁⟩
  · rw [hl] at h
    cases h
  · rw [hl] at h
    obtain rfl := Option.some.inj h
    simp only [hl] at hrows
    refine ⟨rfl, ?_⟩
    show (s₁.updateRecordUnder failures oldToken
      (refreshed now newToken newRefreshToken lastRefresh t')).2.rows = s.rows
    rw [updateRecordUnder_rows ?_, hrows]
    unfold updateRecordUnder
    rw [← Bool.not_eq_true, transact_fst, hrows]
    rintro ⟨hnone, hsome⟩
    rcases hwrite with hwrite | hclash
    · exact hwrite hnone
    · rw [hclash] at hsome
      cases hsome

variable (now newToken newRefreshToken lastRefresh) in
/-- Over an unchanged table, the row counts as replaced only if the refreshed row is the row. -/
theorem TokenStore.refreshed_of_rows {s' : TokenStore} {t : Token} (hrows : s'.rows = s.rows)
    (ht : s.rows.find? oldToken = some t) :
    s.Refreshed s' now oldToken newToken newRefreshToken lastRefresh ↔
      refreshed now newToken newRefreshToken lastRefresh t = t := by
  unfold Refreshed
  rw [hrows]
  constructor
  · rintro ⟨t', ht', hnew, hgone⟩
    obtain rfl := Option.some.inj (ht.symm.trans ht')
    by_cases hsame : newToken = oldToken
    · rw [hsame] at hnew ⊢
      exact Option.some.inj (hnew.symm.trans ht)
    · rw [hgone hsame] at ht
      cases ht
  · intro hrow
    have hsame : newToken = oldToken :=
      (congrArg Token.token hrow).trans (Table.key_of_find? ht)
    subst hsame
    refine ⟨t, ht, ?_, fun h ↦ absurd rfl h⟩
    rw [hrow]
    exact ht

/-- A lookup that does not fail, or does not reach the database, finds the row. -/
theorem TokenStore.Exact.getRecordUnder_fst (h : s.Exact)
    (hselect : failures.select = false ∨ (s.getFromCache oldToken).isSome = true) :
    (s.getRecordUnder failures oldToken).1 = s.rows.find? oldToken := by
  rw [← h.resolve_eq, ← s.getRecord_fst]
  unfold getRecordUnder
  rcases hselect with hs | hs
  · simp [hs]
  · obtain ⟨t, ht⟩ := Option.isSome_iff_exists.mp hs
    simp [ht]

/-- A lookup that fails finds nothing. -/
theorem TokenStore.getRecordUnder_fails
    (h : ¬ (failures.select = false ∨ (s.getFromCache oldToken).isSome = true)) :
    (s.getRecordUnder failures oldToken).1 = none := by
  unfold getRecordUnder
  simp only [not_or, Bool.not_eq_false, Bool.not_eq_true, Option.isSome_eq_false_iff,
    Option.isNone_iff_eq_none] at h
  simp [h.1, h.2]

variable (svc now newToken newRefreshToken lastRefresh) in
/-- A refresh that can write replaces the row. -/
theorem TokenStore.Exact.refreshed_of_write (h : s.Exact) {t : Token}
    (ht : s.rows.find? oldToken = some t)
    (hselect : failures.select = false ∨ (s.getFromCache oldToken).isSome = true)
    (hwrite : failures.write = none)
    (hfree : newToken = oldToken ∨ s.rows.find? newToken = none) :
    s.Refreshed (s.refreshTokenUnder svc failures now oldToken newToken newRefreshToken
      lastRefresh).2 now oldToken newToken newRefreshToken lastRefresh := by
  obtain ⟨-, -, hrows⟩ := h.refreshToken svc now oldToken newToken newRefreshToken lastRefresh hfree
  rw [refreshTokenUnder_of_write svc failures hwrite now s oldToken newToken newRefreshToken
    lastRefresh hselect]
  refine ⟨t, ht, ?_, fun hne ↦ ?_⟩
  · rw [hrows t ht, if_pos rfl]
  · rw [hrows t ht, if_neg hne.symm, if_pos rfl]

variable (now newRefreshToken lastRefresh) in
/-- A refresh that cannot write fails in the database, or meets the key of another row. -/
theorem TokenStore.write_fails {t : Token} (ht : s.rows.find? oldToken = some t)
    (h : ¬ (failures.write = none ∧ (newToken = oldToken ∨ s.rows.find? newToken = none))) :
    failures.write ≠ none ∨
      s.rows.update oldToken (refreshed now newToken newRefreshToken lastRefresh t) = none := by
  by_cases hnone : failures.write = none
  · exact .inr ((Table.update_eq_none_iff ht).mpr fun hfree ↦ h ⟨hnone, hfree⟩)
  · exact .inl hnone

/-- When a refresh is intact. -/
theorem TokenStore.Exact.refresh_intact_iff (h : s.Exact) :
    ((s.refreshTokenUnder svc failures now oldToken newToken newRefreshToken lastRefresh).1 = true →
        s.Refreshed (s.refreshTokenUnder svc failures now oldToken newToken newRefreshToken
          lastRefresh).2 now oldToken newToken newRefreshToken lastRefresh) ∧
      ((s.refreshTokenUnder svc failures now oldToken newToken newRefreshToken
          lastRefresh).2.resolve newToken ≠ s.resolve newToken →
        s.Refreshed (s.refreshTokenUnder svc failures now oldToken newToken newRefreshToken
          lastRefresh).2 now oldToken newToken newRefreshToken lastRefresh) ∧
      (¬ s.Refreshed (s.refreshTokenUnder svc failures now oldToken newToken newRefreshToken
          lastRefresh).2 now oldToken newToken newRefreshToken lastRefresh →
        (s.refreshTokenUnder svc failures now oldToken newToken newRefreshToken
          lastRefresh).2.resolve oldToken = s.resolve oldToken) ↔
    ∀ t, s.rows.find? oldToken = some t →
      failures.select = false ∨ (s.getFromCache oldToken).isSome = true →
      failures.write = none ∧ (newToken = oldToken ∨ s.rows.find? newToken = none) ∨
        refreshed now newToken newRefreshToken lastRefresh t = t := by
  by_cases hselect : failures.select = false ∨ (s.getFromCache oldToken).isSome = true
  · have hget := h.getRecordUnder_fst hselect
    rcases ht : s.rows.find? oldToken with _ | t
    · -- there is no record to refresh
      rw [refreshTokenUnder_none (hget.trans ht)]
      simp
    · by_cases hwrite : failures.write = none ∧
          (newToken = oldToken ∨ s.rows.find? newToken = none)
      · -- the row is replaced
        have hreplaced := h.refreshed_of_write svc now newToken newRefreshToken lastRefresh ht
          hselect hwrite.1 hwrite.2
        constructor
        · rintro - t' - -
          exact .inl hwrite
        · rintro -
          exact ⟨fun _ ↦ hreplaced, fun _ ↦ hreplaced, fun hnot ↦ absurd hreplaced hnot⟩
      · -- the update fails, and the refresh does not notice
        obtain ⟨htrue, hrows⟩ := refreshTokenUnder_of_found svc (hget.trans ht)
          (write_fails now newRefreshToken lastRefresh ht hwrite)
        have hiff := refreshed_of_rows now newToken newRefreshToken lastRefresh hrows ht
        constructor
        · rintro ⟨hanswer, -, -⟩ t' ht' -
          obtain rfl := Option.some.inj ht'
          exact .inr (hiff.mp (hanswer htrue))
        · intro hrow
          have hreplaced := hiff.mpr ((hrow t rfl hselect).resolve_left hwrite)
          exact ⟨fun _ ↦ hreplaced, fun _ ↦ hreplaced, fun hnot ↦ absurd hreplaced hnot⟩
  · -- the lookup fails
    rw [refreshTokenUnder_none (getRecordUnder_fails hselect)]
    simp [hselect]

end Refresh

/-- Over caches that agree with their tables, the failures of the database leave the state as
they should exactly when they do no harm: no commit fails after an update has cached a record
that the table does not hold, and no refresh that has found its record fails to write it. -/
theorem intact_iff {svc : Service} {failures : Failures} {p : Population} {op : RecordOp}
    (hp : p.Exact) : Intact svc failures p op ↔ Harmless failures p op := by
  cases op with
  | updateToken token r =>
    refine (transact_iff (P := fun s : TokenStore ↦ s.rows = p.tokens.rows ∧ s.Exact)
      ⟨rfl, hp.tokens⟩).trans ?_
    refine forall_congr' fun _ ↦ forall_congr' fun _ ↦ ?_
    exact (and_iff_right rfl).trans (hp.tokens.updateCache_iff r)
  | deleteToken token =>
    refine (transact_iff (P := fun s : TokenStore ↦ s.rows = p.tokens.rows ∧ s.Exact)
      ⟨rfl, hp.tokens⟩).trans ?_
    exact iff_true_intro fun _ _ ↦ ⟨rfl, hp.tokens.cacheDelete svc token⟩
  | updateUser id r =>
    refine (transact_iff (P := fun q : Population ↦ q.users = p.users ∧ q.Exact) ⟨rfl, hp⟩).trans ?_
    refine forall_congr' fun _ ↦ forall_congr' fun _ ↦ ?_
    exact (and_iff_right rfl).trans (hp.updateCache_iff svc r)
  | deleteUser id =>
    refine (transact_iff (P := fun q : Population ↦ q.users = p.users ∧ q.Exact) ⟨rfl, hp⟩).trans ?_
    exact iff_true_intro fun _ _ ↦ ⟨rfl, hp.cacheDelete id⟩
  | refreshToken now oldToken newToken newRefreshToken lastRefresh =>
    exact hp.tokens.refresh_intact_iff

/-! ## A failing commit, a failing update -/

/-- A population with one token. -/
def sampleTokenRow : Population where
  tokens :=
    { rows := { rows := [{ token := "token-a", refreshToken := "refresh-a", userName := "jo",
                           created := 100, expires := 3600 }]
                nodup := by decide } }

theorem exact_sampleTokenRow : sampleTokenRow.Exact := .of_empty rfl rfl rfl

/-- The statement for a refresh whose update fails in the database. -/
theorem intact_iff_sample :
    Intact .sample { write := some .execute } sampleTokenRow
        (.refreshToken 200 "token-a" "token-b" "refresh-b" 200) ↔
      Harmless { write := some .execute } sampleTokenRow
        (.refreshToken 200 "token-a" "token-b" "refresh-b" 200) := intact_iff exact_sampleTokenRow

/-- A failing commit leaves a changed token in the cache, and a refresh whose update fails
answers `true`. -/
theorem failed_write_changes_cache :
    ¬ Intact .sample { write := some .commit } sampleTokenRow
        (.updateToken "token-a" { token := "token-a", userName := "jo", created := 200 }) ∧
      ¬ Intact .sample { write := some .execute } sampleTokenRow
        (.refreshToken 200 "token-a" "token-b" "refresh-b" 200) := by
  constructor
  · intro h
    have hcached := (h rfl).2 "token-a" { token := "token-a", userName := "jo", created := 200 }
    exact absurd (hcached (by decide)) (by decide)
  · intro h
    obtain ⟨t, -, hnew, -⟩ := h.1 rfl
    have hnone : (sampleTokenRow.tokens.refreshTokenUnder .sample { write := some .execute } 200
        "token-a" "token-b" "refresh-b" 200).2.rows.find? "token-b" = none := by decide
    exact absurd (hnone.symm.trans hnew) (by simp)

end OwSec
