import OwSec.Kit.Run
import OwSec.Auth.DisabledAccounts
import OwSec.Storage.Sessions

/-!
# Refreshing over time

Runs of logins and refreshes over one population, with a clock and with tokens that are
drawn afresh.  The history keeps, for each refresh that was accepted, what was presented,
what was handed out, and the `lastRefresh` column of the record at that moment.

`RefreshLaw` is what refreshing should do over time: the old access token is dead and the
new one belongs to the same user; a refresh token is honoured for a limited time after it
was issued; and a refresh within that time retires it.  The code decides with the
`lastRefresh` column whether the refresh token is replaced, but it accepts the refresh
either way, and logging in leaves the column at zero.  The theorem says that the law holds
exactly in the runs in which every accepted refresh finds a recent `lastRefresh`.
-/

namespace OwSec

open SecurityObjects Kit

/-- A refresh that was accepted. -/
structure RefreshEntry where
  now : ℕ
  callToken : String
  /-- The refresh token that was presented. -/
  presented : String
  newToken : String
  newRefreshToken : String
  user : String
  /-- The `lastRefresh` column of the record before the refresh. -/
  lastRefresh : ℕ
  /-- When the refresh token that was presented was issued, or put in place of another. -/
  issuedAt : ℕ
  deriving DecidableEq

/-- The tokens of a population with their history. -/
structure Sessions where
  population : Population := {}
  clock : ℕ := 0
  /-- The access tokens drawn so far. -/
  accessTokens : List String := []
  /-- The refresh tokens issued so far, with the time. -/
  issued : List (String × ℕ) := []
  log : List RefreshEntry := []

/-- What happens in one step. -/
inductive SessionEvent
  | login (m : Moment) (userName password newPassword : String)
  | refresh (m : Moment) (callToken refreshToken : String)
  /-- Something that leaves the token rows alone, such as an eviction or a change of a user. -/
  | elsewhere

namespace Sessions

variable (svc : Service) (rule : String → Bool)

/-- When a refresh token was issued. -/
def issuedAt (s : Sessions) (refreshToken : String) : ℕ :=
  ((s.issued.find? (·.1 == refreshToken)).map Prod.snd).getD 0

/-- `Authorize` or `AuthorizeSub`. -/
def login (s : Sessions) (m : Moment) (userName password newPassword : String) : Sessions :=
  let (result, population) := s.population.authorizeWith svc rule m userName password newPassword
  { s with
    population
    clock := m.now
    accessTokens := m.accessToken :: s.accessTokens
    issued :=
      if result.reason = some .SUCCESS then (m.refreshToken, m.now) :: s.issued else s.issued }

/-- `RefreshUserToken` or `RefreshSubToken`. -/
def refresh (s : Sessions) (m : Moment) (callToken refreshToken : String) : Sessions :=
  match s.population.refreshTokenFor svc m callToken refreshToken with
  | (none, population) => { s with population, clock := m.now }
  | (some wt, population) =>
    { population
      clock := m.now
      accessTokens := m.accessToken :: s.accessTokens
      issued :=
        if wt.refreshToken = refreshToken then s.issued
        else (wt.refreshToken, m.now) :: s.issued
      log :=
        { now := m.now
          callToken := callToken
          presented := refreshToken
          newToken := wt.accessToken
          newRefreshToken := wt.refreshToken
          user := wt.username
          lastRefresh := ((s.population.tokens.resolve callToken).map Token.lastRefresh).getD 0
          issuedAt := s.issuedAt refreshToken } :: s.log }

/-- The clock has not gone back, and what is drawn has not been drawn before. -/
structure Fresh (s : Sessions) (m : Moment) : Prop where
  clock : s.clock ≤ m.now
  fits : m.now < 2 ^ 64
  accessToken : m.accessToken ∉ s.accessTokens
  refreshToken : m.refreshToken ∉ s.issued.map Prod.fst

instance (s : Sessions) (m : Moment) : Decidable (s.Fresh m) :=
  decidable_of_iff (s.clock ≤ m.now ∧ m.now < 2 ^ 64 ∧
      m.accessToken ∉ s.accessTokens ∧ m.refreshToken ∉ s.issued.map Prod.fst)
    ⟨fun ⟨hc, hf, ha, hr⟩ ↦ ⟨hc, hf, ha, hr⟩, fun ⟨hc, hf, ha, hr⟩ ↦ ⟨hc, hf, ha, hr⟩⟩

/-- One step. -/
inductive Step : Sessions → SessionEvent → Sessions → Prop
  | login {s : Sessions} (m : Moment) (userName password newPassword : String) (hm : s.Fresh m) :
    Step s (.login m userName password newPassword)
      (s.login svc rule m userName password newPassword)
  | refresh {s : Sessions} (m : Moment) (callToken refreshToken : String) (hm : s.Fresh m) :
    Step s (.refresh m callToken refreshToken) (s.refresh svc m callToken refreshToken)
  | elsewhere {s : Sessions} {population : Population}
    (h : s.population.TokensKept population) : Step s .elsewhere { s with population }

/-- There are no tokens yet. -/
structure AtStart (s : Sessions) : Prop where
  rows : ∀ k, s.population.tokens.rows.find? k = none
  cache : s.population.tokens.cache = ∅
  history : s.issued = [] ∧ s.log = []

/-- Logins and refreshes as a transition system. -/
def system : System Sessions SessionEvent where
  init := AtStart
  step := Step svc rule

/-- The refresh came soon enough after the time that its record had in `lastRefresh`. -/
def OnTime (r : RefreshEntry) : Prop := r.now - r.lastRefresh < svc.refreshTokenLifeSpan

instance (r : RefreshEntry) : Decidable (OnTime svc r) := inferInstanceAs (Decidable (_ < _))

/-- What an accepted refresh should have done, seen from a later state. -/
structure Lawful (s : Sessions) (r : RefreshEntry) : Prop where
  /-- The old access token does not resolve. -/
  old : s.population.tokens.resolve r.callToken = none
  /-- The new one resolves to the same user, until it is refreshed in turn. -/
  new : (∃ t, s.population.tokens.resolve r.newToken = some t ∧ t.userName = r.user) ∨
    ∃ r' ∈ s.log, r'.callToken = r.newToken
  /-- The refresh token was within its life span. -/
  inTime : r.now - r.issuedAt < svc.refreshTokenLifeSpan
  /-- Within the life span it was replaced, and nobody gets anything for it. -/
  retired : r.now - r.issuedAt < svc.refreshTokenLifeSpan → r.newRefreshToken ≠ r.presented ∧
    ∀ m callToken, (s.population.refreshTokenFor svc m callToken r.presented).1 = none

/-- Every accepted refresh of the history was lawful. -/
def RefreshLaw (s : Sessions) : Prop := ∀ r ∈ s.log, Lawful svc s r

/-! ## The invariant -/

/-- The row of an access token. -/
def row (s : Sessions) (token : String) : Option Token := s.population.tokens.rows.find? token

/-- What is known about a refresh of the history. -/
structure Logged (s : Sessions) (r : RefreshEntry) : Prop where
  drawn : r.callToken ∈ s.accessTokens
  old : s.row r.callToken = none
  new : (∃ t, s.row r.newToken = some t ∧ t.userName = r.user) ∨
    ∃ r' ∈ s.log, r'.callToken = r.newToken
  issued : (r.presented, r.issuedAt) ∈ s.issued
  lastRefresh : r.lastRefresh = 0 ∨ r.lastRefresh = r.issuedAt
  replaced : OnTime svc r → r.newRefreshToken ≠ r.presented ∧
    ∀ k t, s.row k = some t → t.refreshToken ≠ r.presented
  kept : ¬ OnTime svc r → r.newRefreshToken = r.presented

/-- The tokens and their history fit together. -/
structure Sound (s : Sessions) : Prop where
  exact : s.population.tokens.Exact
  drawn : ∀ k t, s.row k = some t → k ∈ s.accessTokens
  issuedOnce : (s.issued.map Prod.fst).Nodup
  issuedBefore : ∀ i ∈ s.issued, i.2 ≤ s.clock
  /-- A refresh token is issued before it is in a row, which knows when or knows nothing. -/
  refreshTokens : ∀ k t, s.row k = some t →
    ∃ time, (t.refreshToken, time) ∈ s.issued ∧ (t.lastRefresh = 0 ∨ t.lastRefresh = time)
  distinct : ∀ k t k' t', s.row k = some t → s.row k' = some t' →
    t.refreshToken = t'.refreshToken → k = k'
  log : ∀ r ∈ s.log, Logged svc s r

/-! ## What a step does to the tokens -/

/-- No token was filed or refreshed. -/
structure Unchanged (s s' : Sessions) : Prop where
  exact : s'.population.tokens.Exact
  rows : ∀ k, s'.row k = s.row k
  accessTokens : s.accessTokens ⊆ s'.accessTokens
  issued : s'.issued = s.issued
  clock : s.clock ≤ s'.clock
  log : s'.log = s.log

/-- A login filed a token. -/
structure Filed (m : Moment) (s s' : Sessions) : Prop where
  exact : s'.population.tokens.Exact
  rows : ∃ t, (∀ k, s'.row k = if k = m.accessToken then some t else s.row k) ∧
    t.refreshToken = m.refreshToken ∧ t.lastRefresh = 0
  accessTokens : s'.accessTokens = m.accessToken :: s.accessTokens
  issued : s'.issued = (m.refreshToken, m.now) :: s.issued
  clock : s'.clock = m.now
  log : s'.log = s.log

/-- A refresh moved the row `t` to the new token. -/
structure Refreshed (m : Moment) (callToken : String) (t : Token) (s s' : Sessions) : Prop where
  exact : s'.population.tokens.Exact
  found : s.row callToken = some t
  rows : ∀ k, s'.row k =
    if k = m.accessToken then
      some (TokenStore.refreshed m.now m.accessToken (Population.nextRefreshToken svc m t)
        (Population.nextLastRefresh svc m t) t)
    else if k = callToken then none else s.row k
  accessTokens : s'.accessTokens = m.accessToken :: s.accessTokens
  issued : s'.issued =
    if Population.nextRefreshToken svc m t = t.refreshToken then s.issued
    else (Population.nextRefreshToken svc m t, m.now) :: s.issued
  clock : s'.clock = m.now
  log : s'.log =
    { now := m.now
      callToken := callToken
      presented := t.refreshToken
      newToken := m.accessToken
      newRefreshToken := Population.nextRefreshToken svc m t
      user := t.userName
      lastRefresh := t.lastRefresh
      issuedAt := s.issuedAt t.refreshToken } :: s.log

section Steps

variable {svc} {rule} {s s' : Sessions} {m : Moment}

/-- A token that was never drawn has no row. -/
theorem Sound.row_none (h : Sound svc s) {token : String} (ht : token ∉ s.accessTokens) :
    s.row token = none := by
  rcases hr : s.row token with _ | t
  · rfl
  · exact absurd (h.drawn token t hr) ht

/-- A token that was drawn earlier is not drawn again. -/
theorem Fresh.ne_accessToken (h : s.Fresh m) {k : String} (hk : k ∈ s.accessTokens) :
    k ≠ m.accessToken := by
  rintro rfl
  exact h.accessToken hk

/-- A login files a token or changes none. -/
theorem login_cases (h : Sound svc s) (hm : s.Fresh m)
    (userName password newPassword : String) :
    Unchanged s (s.login svc rule m userName password newPassword) ∨
      Filed m s (s.login svc rule m userName password newPassword) := by
  obtain ⟨q, hq, hresult⟩ :=
    Population.authorizeWith_tokens svc rule m userName password newPassword (p := s.population)
  have hexact : q.tokens.Exact := hq.exact h.exact
  have hfree : q.tokens.rows.find? m.accessToken = none := by
    rw [hq.rows]
    exact h.row_none hm.accessToken
  unfold login
  rcases hl : s.population.authorizeWith svc rule m userName password newPassword with ⟨result, p⟩
  rw [hl] at hresult
  rcases hresult with ⟨hreason, user, htokens⟩ | ⟨hreason, htokens⟩
  · right
    simp only [if_pos hreason]
    have hfiled : p.tokens.Exact := by
      rw [htokens]
      exact hexact.addToken _ _ _ _ _ _
    have hrows :=
      Population.find?_addToken m.now user m.refreshToken svc.tokenAging (5 * 60) hfree
    rw [← htokens, hq.rows] at hrows
    exact ⟨hfiled, ⟨_, hrows, rfl, rfl⟩, rfl, rfl, rfl, rfl⟩
  · left
    simp only [if_neg hreason]
    refine ⟨htokens ▸ hexact, fun k ↦ ?_, List.subset_cons_self _ _, rfl, hm.clock, rfl⟩
    show p.tokens.rows.find? k = _
    rw [htokens, hq.rows]
    rfl

/-- A refresh moves a row or changes none. -/
theorem refresh_cases (h : Sound svc s) (hm : s.Fresh m)
    (callToken refreshToken : String) :
    Unchanged s (s.refresh svc m callToken refreshToken) ∨
      ∃ t, Refreshed svc m callToken t s (s.refresh svc m callToken refreshToken) := by
  unfold refresh
  rcases hr : s.population.refreshTokenFor svc m callToken refreshToken with ⟨_ | wt, p⟩
  · left
    obtain ⟨hrows, hexact⟩ := Population.refreshTokenFor_none svc (congrArg Prod.fst hr) h.exact
    rw [hr] at hrows hexact
    exact ⟨hexact, fun k ↦ congrArg (Kit.Table.find? · k) hrows, fun _ hk ↦ hk, rfl, hm.clock, rfl⟩
  · right
    obtain ⟨-, t, hrow, hpresented, haccess, hnext, huser, hexact, hrows⟩ :=
      Population.refreshTokenFor_some svc (congrArg Prod.fst hr) h.exact
        (h.row_none hm.accessToken)
    rw [hr] at hexact hrows
    have hresolve : s.population.tokens.resolve callToken = some t := by
      rw [h.exact.resolve_eq, hrow]
    subst hpresented
    refine ⟨t, hexact, hrow, hrows, rfl, ?_, rfl, ?_⟩
    · simp only [hnext]
    · simp only [haccess, hnext, huser, hresolve, Option.map_some, Option.getD_some]

/-! ## What a step keeps -/

/-- What one step leaves of the earlier tokens. -/
structure Grows (s s' : Sessions) : Prop where
  accessTokens : s.accessTokens ⊆ s'.accessTokens
  issued : s.issued ⊆ s'.issued
  log : s.log ⊆ s'.log
  gone : ∀ k ∈ s.accessTokens, s.row k = none → s'.row k = none
  kept : ∀ k t, s.row k = some t →
    (∃ t', s'.row k = some t' ∧ t'.userName = t.userName) ∨ ∃ r ∈ s'.log, r.callToken = k
  refreshTokens : ∀ k t, s'.row k = some t →
    (∃ k₀ t₀, s.row k₀ = some t₀ ∧ t₀.refreshToken = t.refreshToken) ∨
      t.refreshToken ∉ s.issued.map Prod.fst

/-- What is known about a refresh stays known. -/
theorem Logged.grows {r : RefreshEntry} (h : Logged svc s r) (hs : Grows s s') :
    Logged svc s' r where
  drawn := hs.accessTokens h.drawn
  old := hs.gone _ h.drawn h.old
  new := by
    rcases h.new with ⟨t, ht, huser⟩ | ⟨r', hr', hcall⟩
    · rw [← huser]
      exact hs.kept _ t ht
    · exact .inr ⟨r', hs.log hr', hcall⟩
  issued := hs.issued h.issued
  lastRefresh := h.lastRefresh
  replaced hon := by
    refine ⟨(h.replaced hon).1, fun k t ht hsame ↦ ?_⟩
    rcases hs.refreshTokens k t ht with ⟨k₀, t₀, ht₀, hrefresh⟩ | hnew
    · exact (h.replaced hon).2 k₀ t₀ ht₀ (hrefresh.trans hsame)
    · rw [hsame] at hnew
      exact hnew (List.mem_map_of_mem h.issued)
  kept := h.kept

theorem Unchanged.grows (h : Unchanged s s') : Grows s s' where
  accessTokens := h.accessTokens
  issued := by rw [h.issued]; exact List.Subset.refl _
  log := by rw [h.log]; exact List.Subset.refl _
  gone k _ hk := by rw [h.rows, hk]
  kept k t ht := .inl ⟨t, by rw [h.rows, ht], rfl⟩
  refreshTokens k t ht := .inl ⟨k, t, by rw [← h.rows, ht], rfl⟩

/-- The rows after a login. -/
theorem Filed.row_cases (h : Filed m s s') {k : String} {t : Token} (ht : s'.row k = some t) :
    k = m.accessToken ∧ t.refreshToken = m.refreshToken ∧ t.lastRefresh = 0 ∨ s.row k = some t := by
  obtain ⟨t₀, hrows, hfiled⟩ := h.rows
  rw [hrows] at ht
  split at ht
  · rename_i hk
    obtain rfl := Option.some.inj ht
    exact .inl ⟨hk, hfiled⟩
  · exact .inr ht

theorem Filed.grows (h : Filed m s s') (hs : Sound svc s) (hm : s.Fresh m) : Grows s s' := by
  obtain ⟨_, hrows, _⟩ := h.rows
  constructor
  case accessTokens =>
    rw [h.accessTokens]
    exact List.subset_cons_self _ _
  case issued =>
    rw [h.issued]
    exact List.subset_cons_self _ _
  case log =>
    rw [h.log]
    exact List.Subset.refl _
  case gone =>
    intro k hk hnone
    rw [hrows, if_neg (hm.ne_accessToken hk), hnone]
  case kept =>
    intro k t ht
    refine .inl ⟨t, ?_, rfl⟩
    rw [hrows, if_neg (hm.ne_accessToken (hs.drawn k t ht)), ht]
  case refreshTokens =>
    intro k t ht
    rcases h.row_cases ht with ⟨-, hrefresh, -⟩ | ht
    · exact .inr (hrefresh ▸ hm.refreshToken)
    · exact .inl ⟨k, t, ht, rfl⟩

/-- A refresh token that is in a row has been issued. -/
theorem Sound.issued_of_row (h : Sound svc s) {k : String} {t : Token} (ht : s.row k = some t) :
    t.refreshToken ∈ s.issued.map Prod.fst := by
  obtain ⟨time, hi, -⟩ := h.refreshTokens k t ht
  exact List.mem_map_of_mem hi

variable (svc) in
/-- The next refresh token is the one drawn, or the old one. -/
theorem nextRefreshToken_cases (m : Moment) (t : Token) :
    Population.rotates svc m t = true ∧ Population.nextRefreshToken svc m t = m.refreshToken ∧
        Population.nextLastRefresh svc m t = m.now ∨
      Population.rotates svc m t = false ∧ Population.nextRefreshToken svc m t = t.refreshToken ∧
        Population.nextLastRefresh svc m t = t.lastRefresh := by
  unfold Population.nextRefreshToken Population.nextLastRefresh
  cases Population.rotates svc m t
  · exact .inr ⟨rfl, rfl, rfl⟩
  · exact .inl ⟨rfl, rfl, rfl⟩

/-- The rows after a refresh. -/
theorem Refreshed.row_cases {callToken : String} {t : Token} (h : Refreshed svc m callToken t s s')
    {k : String} {t' : Token} (ht' : s'.row k = some t') :
    k = m.accessToken ∧ t'.refreshToken = Population.nextRefreshToken svc m t ∧
        t'.lastRefresh = Population.nextLastRefresh svc m t ∨
      k ≠ callToken ∧ s.row k = some t' := by
  rw [h.rows] at ht'
  split at ht'
  · rename_i hk
    obtain rfl := Option.some.inj ht'
    exact .inl ⟨hk, rfl, rfl⟩
  · split at ht'
    · cases ht'
    · rename_i hk
      exact .inr ⟨hk, ht'⟩

theorem Refreshed.grows {callToken : String} {t : Token} (h : Refreshed svc m callToken t s s')
    (hs : Sound svc s) (hm : s.Fresh m) : Grows s s' := by
  constructor
  case accessTokens =>
    rw [h.accessTokens]
    exact List.subset_cons_self _ _
  case issued =>
    rw [h.issued]
    split
    · exact List.Subset.refl _
    · exact List.subset_cons_self _ _
  case log =>
    rw [h.log]
    exact List.subset_cons_self _ _
  case gone =>
    intro k hk hnone
    rw [h.rows, if_neg (hm.ne_accessToken hk), hnone, ite_self]
  case kept =>
    intro k t' ht'
    by_cases hk : k = callToken
    · rw [h.log]
      exact .inr ⟨_, List.mem_cons_self, hk.symm⟩
    · refine .inl ⟨t', ?_, rfl⟩
      rw [h.rows, if_neg (hm.ne_accessToken (hs.drawn k t' ht')), if_neg hk, ht']
  case refreshTokens =>
    intro k t' ht'
    rcases h.row_cases ht' with ⟨-, hrefresh, -⟩ | ⟨-, ht'⟩
    · rw [hrefresh]
      rcases nextRefreshToken_cases svc m t with ⟨-, hnext, -⟩ | ⟨-, hnext, -⟩
      · exact .inr (hnext ▸ hm.refreshToken)
      · exact .inl ⟨callToken, t, h.found, hnext.symm⟩
    · exact .inl ⟨k, t', ht', rfl⟩

/-! ## The invariant is kept -/

theorem Sound.unchanged (hs : Sound svc s) (h : Unchanged s s') : Sound svc s' where
  exact := h.exact
  drawn k t ht := h.accessTokens (hs.drawn k t (h.rows k ▸ ht))
  issuedOnce := by rw [h.issued]; exact hs.issuedOnce
  issuedBefore i hi := (hs.issuedBefore i (h.issued ▸ hi)).trans h.clock
  refreshTokens k t ht := by
    rw [h.rows] at ht
    rw [h.issued]
    exact hs.refreshTokens k t ht
  distinct k t k' t' ht ht' := by
    rw [h.rows] at ht ht'
    exact hs.distinct k t k' t' ht ht'
  log r hr := (hs.log r (h.log ▸ hr)).grows h.grows

theorem Sound.filed (hs : Sound svc s) (hm : s.Fresh m) (h : Filed m s s') : Sound svc s' := by
  constructor
  case exact => exact h.exact
  case drawn =>
    intro k t ht
    rw [h.accessTokens]
    rcases h.row_cases ht with ⟨hk, -⟩ | ht
    · exact hk ▸ List.mem_cons_self
    · exact List.mem_cons_of_mem _ (hs.drawn k t ht)
  case issuedOnce =>
    rw [h.issued]
    exact List.nodup_cons.mpr ⟨hm.refreshToken, hs.issuedOnce⟩
  case issuedBefore =>
    intro i hi
    rw [h.issued, List.mem_cons] at hi
    rw [h.clock]
    rcases hi with rfl | hi
    · exact le_rfl
    · exact (hs.issuedBefore i hi).trans hm.clock
  case refreshTokens =>
    intro k t ht
    rw [h.issued]
    rcases h.row_cases ht with ⟨-, hrefresh, hlast⟩ | ht
    · rw [hrefresh]
      exact ⟨m.now, List.mem_cons_self, .inl hlast⟩
    · obtain ⟨time, hi, htime⟩ := hs.refreshTokens k t ht
      exact ⟨time, List.mem_cons_of_mem _ hi, htime⟩
  case distinct =>
    intro k t k' t' ht ht' hsame
    -- the new refresh token is in no other row
    have hother {k : String} {t : Token} (ht : s.row k = some t) : t.refreshToken ≠ m.refreshToken :=
      fun he ↦ hm.refreshToken (he ▸ hs.issued_of_row ht)
    rcases h.row_cases ht with ⟨hk, hrefresh, -⟩ | ht <;>
      rcases h.row_cases ht' with ⟨hk', hrefresh', -⟩ | ht'
    · exact hk.trans hk'.symm
    · exact absurd (hsame.symm.trans hrefresh) (hother ht')
    · exact absurd (hsame.trans hrefresh') (hother ht)
    · exact hs.distinct k t k' t' ht ht' hsame
  case log =>
    intro r hr
    rw [h.log] at hr
    exact (hs.log r hr).grows (h.grows hs hm)

/-- With a clock that has not gone back, the column is compared as numbers are. -/
theorem rotates_iff {t : Token} (hlast : t.lastRefresh ≤ m.now) (hfits : m.now < 2 ^ 64) :
    Population.rotates svc m t = true ↔ m.now - t.lastRefresh < svc.refreshTokenLifeSpan := by
  unfold Population.rotates
  rw [u64_age hlast hfits, decide_eq_true_eq]

/-- The time of issue that the history records is the one on the list. -/
theorem Sound.issuedAt_eq (h : Sound svc s) {refreshToken : String} {time : ℕ}
    (hi : (refreshToken, time) ∈ s.issued) : s.issuedAt refreshToken = time := by
  unfold issuedAt
  rcases hf : s.issued.find? (·.1 == refreshToken) with _ | i
  · exact absurd (List.find?_eq_none.mp hf _ hi) (by simp)
  · have hkey : i.1 = refreshToken := by simpa using List.find?_some hf
    have hsame := List.inj_on_of_nodup_map h.issuedOnce (List.mem_of_find?_eq_some hf) hi hkey
    rw [hf, hsame]
    rfl

/-- What is known about the refresh that was just accepted. -/
theorem Sound.logged (hs : Sound svc s) (hm : s.Fresh m) {callToken : String} {t : Token}
    (h : Refreshed svc m callToken t s s') :
    Logged svc s'
      { now := m.now
        callToken := callToken
        presented := t.refreshToken
        newToken := m.accessToken
        newRefreshToken := Population.nextRefreshToken svc m t
        user := t.userName
        lastRefresh := t.lastRefresh
        issuedAt := s.issuedAt t.refreshToken } := by
  have hgrows := h.grows hs hm
  have hdrawn := hs.drawn callToken t h.found
  obtain ⟨time, hi, hlast⟩ := hs.refreshTokens callToken t h.found
  have hissued := hs.issuedAt_eq hi
  have htime : time ≤ m.now := (hs.issuedBefore _ hi).trans hm.clock
  have hle : t.lastRefresh ≤ m.now := by
    rcases hlast with hzero | heq
    · exact hzero ▸ Nat.zero_le _
    · exact heq ▸ htime
  have hfresh : m.refreshToken ≠ t.refreshToken :=
    fun he ↦ hm.refreshToken (he ▸ hs.issued_of_row h.found)
  constructor
  case drawn => exact hgrows.accessTokens hdrawn
  case old => rw [h.rows, if_neg (hm.ne_accessToken hdrawn), if_pos rfl]
  case new =>
    refine .inl ⟨_, (h.rows _).trans (if_pos rfl), rfl⟩
  case issued =>
    rw [hissued]
    exact hgrows.issued hi
  case lastRefresh =>
    rw [hissued]
    exact hlast
  case replaced =>
    intro hon
    rcases nextRefreshToken_cases svc m t with ⟨-, hnext, -⟩ | ⟨hnot, -⟩
    · refine ⟨hnext ▸ hfresh, fun k t' ht' ↦ ?_⟩
      rcases h.row_cases ht' with ⟨-, hrefresh, -⟩ | ⟨hk, ht'⟩
      · rw [hrefresh, hnext]
        exact hfresh
      · exact fun hsame ↦ hk (hs.distinct k t' callToken t ht' h.found hsame)
    · rw [(rotates_iff hle hm.fits).mpr hon] at hnot
      cases hnot
  case kept =>
    intro hoff
    rcases nextRefreshToken_cases svc m t with ⟨hrotates, -⟩ | ⟨-, hnext, -⟩
    · exact absurd ((rotates_iff hle hm.fits).mp hrotates) hoff
    · exact hnext

theorem Sound.refreshed (hs : Sound svc s) (hm : s.Fresh m) {callToken : String} {t : Token}
    (h : Refreshed svc m callToken t s s') : Sound svc s' := by
  have hnext := nextRefreshToken_cases svc m t
  obtain ⟨time, hi, hlast⟩ := hs.refreshTokens callToken t h.found
  have hfresh : m.refreshToken ≠ t.refreshToken :=
    fun he ↦ hm.refreshToken (he ▸ hs.issued_of_row h.found)
  constructor
  case exact => exact h.exact
  case drawn =>
    intro k t' ht'
    rw [h.accessTokens]
    rcases h.row_cases ht' with ⟨hk, -⟩ | ⟨-, ht'⟩
    · exact hk ▸ List.mem_cons_self
    · exact List.mem_cons_of_mem _ (hs.drawn k t' ht')
  case issuedOnce =>
    rw [h.issued]
    rcases hnext with ⟨-, hnext, -⟩ | ⟨-, hnext, -⟩
    · rw [hnext, if_neg hfresh]
      exact List.nodup_cons.mpr ⟨hm.refreshToken, hs.issuedOnce⟩
    · rw [if_pos hnext]
      exact hs.issuedOnce
  case issuedBefore =>
    intro i hi
    rw [h.clock]
    rw [h.issued] at hi
    split at hi
    · exact (hs.issuedBefore i hi).trans hm.clock
    · rcases List.mem_cons.mp hi with rfl | hi
      · exact le_rfl
      · exact (hs.issuedBefore i hi).trans hm.clock
  case refreshTokens =>
    intro k t' ht'
    rcases h.row_cases ht' with ⟨-, hrefresh, hcolumn⟩ | ⟨-, ht'⟩
    · rw [hrefresh, hcolumn]
      rcases hnext with ⟨-, hnext, hlast'⟩ | ⟨-, hnext, hlast'⟩
      · refine ⟨m.now, ?_, .inr hlast'⟩
        rw [h.issued, hnext, if_neg hfresh]
        exact List.mem_cons_self
      · rw [hnext, hlast']
        exact ⟨time, (h.grows hs hm).issued hi, hlast⟩
    · obtain ⟨time', hi', hlast'⟩ := hs.refreshTokens k t' ht'
      exact ⟨time', (h.grows hs hm).issued hi', hlast'⟩
  case distinct =>
    -- a row other than the new one does not have the refresh token of the new one
    have hother {k : String} {t' : Token} (hk : k ≠ callToken) (ht' : s.row k = some t') :
        t'.refreshToken ≠ Population.nextRefreshToken svc m t := by
      intro hsame
      rcases hnext with ⟨-, hnext, -⟩ | ⟨-, hnext, -⟩
      · rw [hnext] at hsame
        exact hm.refreshToken (hsame ▸ hs.issued_of_row ht')
      · exact hk (hs.distinct k t' callToken t ht' h.found (hsame.trans hnext))
    intro k t₁ k' t₂ ht₁ ht₂ hsame
    rcases h.row_cases ht₁ with ⟨hk, hrefresh, -⟩ | ⟨hk, ht₁⟩ <;>
      rcases h.row_cases ht₂ with ⟨hk', hrefresh', -⟩ | ⟨hk', ht₂⟩
    · exact hk.trans hk'.symm
    · exact absurd (hsame.symm.trans hrefresh) (hother hk' ht₂)
    · exact absurd (hsame.trans hrefresh') (hother hk ht₁)
    · exact hs.distinct k t₁ k' t₂ ht₁ ht₂ hsame
  case log =>
    intro r hr
    rw [h.log] at hr
    rcases List.mem_cons.mp hr with rfl | hr
    · exact hs.logged hm h
    · exact (hs.log r hr).grows (h.grows hs hm)

theorem Sound.atStart (h : AtStart s) : Sound svc s := by
  have hnone (k : String) : s.row k = none := h.rows k
  obtain ⟨hissued, hlog⟩ := h.history
  constructor
  case exact => exact .of_empty h.cache
  case issuedOnce =>
    rw [hissued]
    exact List.nodup_nil
  case issuedBefore => simp [hissued]
  case log => simp [hlog]
  all_goals simp [hnone]

/-- One step keeps the invariant. -/
theorem Sound.step {e : SessionEvent} (hs : Sound svc s) (h : Step svc rule s e s') :
    Sound svc s' := by
  cases h with
  | login m userName password newPassword hm =>
    rcases login_cases hs hm userName password newPassword with hsame | hfiled
    · exact hs.unchanged hsame
    · exact hs.filed hm hfiled
  | refresh m callToken refreshToken hm =>
    rcases refresh_cases hs hm callToken refreshToken with hsame | ⟨t, hrefreshed⟩
    · exact hs.unchanged hsame
    · exact hs.refreshed hm hrefreshed
  | elsewhere hkept =>
    exact hs.unchanged ⟨hkept.exact hs.exact, fun k ↦ congrArg (Kit.Table.find? · k) hkept.rows,
      fun _ hk ↦ hk, rfl, le_rfl, rfl⟩

/-- Every run keeps the invariant. -/
theorem Sound.reachable (h : (system svc rule).Reachable s) : Sound svc s :=
  h.invariant (fun _ h₀ ↦ .atStart h₀) (fun _ _ _ hs hstep ↦ hs.step hstep)

/-! ## The law -/

/-- A refresh that found a recent `lastRefresh` was lawful, and no other was. -/
theorem Sound.entry_lawful_iff (h : Sound svc s) {r : RefreshEntry} (hr : r ∈ s.log) :
    Lawful svc s r ↔ OnTime svc r := by
  have hlogged := h.log r hr
  have hresolve (k : String) : s.population.tokens.resolve k = s.row k := h.exact.resolve_eq k
  constructor
  · -- a late refresh hands the presented token out again
    intro hlawful
    by_contra hoff
    exact (hlawful.retired hlawful.inTime).1 (hlogged.kept hoff)
  · intro hon
    obtain ⟨hnext, hgone⟩ := hlogged.replaced hon
    constructor
    case old => rw [hresolve, hlogged.old]
    case new =>
      simp only [hresolve]
      exact hlogged.new
    case inTime =>
      unfold OnTime at hon
      rcases hlogged.lastRefresh with hzero | hissued
      · omega
      · omega
    case retired =>
      refine fun _ ↦ ⟨hnext, fun m callToken ↦ ?_⟩
      rw [← Option.not_isSome_iff_eq_none, refreshTokenFor_isSome_iff]
      rintro ⟨-, t, ht, hrefresh⟩
      rw [hresolve] at ht
      exact hgone callToken t ht hrefresh

end Steps

/-- In every run, refreshing obeys the law exactly when each refresh that was accepted came
less than the life span after the time in the `lastRefresh` column of its record. -/
theorem refreshLaw_iff {s : Sessions} (h : (system svc rule).Reachable s) :
    RefreshLaw svc s ↔ ∀ r ∈ s.log, OnTime svc r :=
  forall₂_congr fun _ hr ↦ (Sound.reachable h).entry_lawful_iff hr

/-! ## A session that is refreshed

The account of the short run logs in and refreshes its token, once soon after the login and
once after the life span of the refresh token, which is two hours. -/

/-- The account before it logs in. -/
def sampleStart : Sessions where
  population := (Storage.sampleCreated false).population false

theorem atStart_sampleStart : AtStart sampleStart := ⟨fun _ ↦ rfl, rfl, rfl, rfl⟩

/-- The session after a login at `now`. -/
def sampleLogin (now : ℕ) : Sessions :=
  sampleStart.login .sample (validatePassword .sample) (.sample now "b") "jo@example.com" "Secret-1" ""

/-- The session after a refresh ten seconds later. -/
def sampleRefresh (now : ℕ) : Sessions :=
  (sampleLogin now).refresh .sample (.sample (now + 10) "c") "token-b" "refresh-b"

/-- The session after a second refresh, two hours later. -/
def sampleLateRefresh (now : ℕ) : Sessions :=
  (sampleRefresh now).refresh .sample (.sample (now + 7210) "d") "token-c" "refresh-b"

/-- A login soon after the zero of the clock: the only time at which the column of a new
token is recent. -/
theorem reachable_sampleRefresh :
    (system .sample (validatePassword .sample)).Reachable (sampleRefresh 100) :=
  ((System.Reachable.init atStart_sampleStart).step
    (Step.login (.sample 100 "b") "jo@example.com" "Secret-1" "" (by decide))).step
    (Step.refresh (.sample 110 "c") "token-b" "refresh-b" (by decide))

/-- The statement for that run, whose refresh is lawful. -/
theorem refreshLaw_iff_sample :
    (RefreshLaw .sample (sampleRefresh 100) ↔ ∀ r ∈ (sampleRefresh 100).log, OnTime .sample r) ∧
      (sampleRefresh 100).log ≠ [] ∧ ∀ r ∈ (sampleRefresh 100).log, OnTime .sample r :=
  ⟨refreshLaw_iff .sample (validatePassword .sample) reachable_sampleRefresh, by decide, by decide⟩

/-- In a session of today neither refresh replaces the refresh token, and it is accepted after
its life span. -/
theorem refresh_token_never_retires :
    ∃ s, (system .sample (validatePassword .sample)).Reachable s ∧ ¬ RefreshLaw .sample s ∧
      (∃ r ∈ s.log, r.now - r.issuedAt < Service.sample.refreshTokenLifeSpan ∧
        r.newRefreshToken = r.presented) ∧
      ∃ r ∈ s.log, Service.sample.refreshTokenLifeSpan ≤ r.now - r.issuedAt := by
  have hreach : (system .sample (validatePassword .sample)).Reachable
      (sampleLateRefresh 1700000000) :=
    (((System.Reachable.init atStart_sampleStart).step
      (Step.login (.sample 1700000000 "b") "jo@example.com" "Secret-1" "" (by decide))).step
      (Step.refresh (.sample 1700000010 "c") "token-b" "refresh-b" (by decide))).step
      (Step.refresh (.sample 1700007210 "d") "token-c" "refresh-b" (by decide))
  have hlate : ∃ r ∈ (sampleLateRefresh 1700000000).log,
      Service.sample.refreshTokenLifeSpan ≤ r.now - r.issuedAt := by decide
  refine ⟨_, hreach, fun hlaw ↦ ?_, by decide, hlate⟩
  obtain ⟨r, hr, hold⟩ := hlate
  exact absurd (hlaw r hr).inTime (Nat.not_lt.mpr hold)

end Sessions

end OwSec
