import OwSec.Storage.Exact

/-!
# What logging in and refreshing do to the tokens

Logging in reads and writes users on the way, which at most drops cached tokens, and files
one new token if it succeeds.  Refreshing replaces the row of the token that is presented;
whether the refresh token is replaced too depends on the time of the last replacement.
-/

namespace OwSec

open SecurityObjects Kit

namespace Population

/-- The token rows are kept, and cached tokens at most dropped. -/
structure TokensKept (p q : Population) : Prop where
  rows : q.tokens.rows = p.tokens.rows
  cache : Cache.Evicts p.tokens.cache q.tokens.cache

variable (svc : Service) {p q r : Population}

theorem TokensKept.refl (p : Population) : p.TokensKept p := ⟨rfl, Cache.Evicts.refl _⟩

theorem TokensKept.trans (h : p.TokensKept q) (h' : q.TokensKept r) : p.TokensKept r :=
  ⟨h'.rows.trans h.rows, fun k v hv ↦ h.cache k v (h'.cache k v hv)⟩

/-- What keeps the tokens keeps their agreement with the table. -/
theorem TokensKept.exact (h : p.TokensKept q) (hp : p.tokens.Exact) : q.tokens.Exact :=
  hp.evicts h.rows h.cache

theorem tokensKept_updateCache (u : UserInfo) : p.TokensKept (p.updateCache svc u) :=
  ⟨rfl, Cache.Evicts.removeAll _ _⟩

theorem tokensKept_getUserByEmail (email : String) :
    p.TokensKept (p.getUserByEmail svc email).2 := by
  unfold getUserByEmail getRecordByEMail
  split
  · exact .refl p
  · split
    · exact tokensKept_updateCache svc _
    · exact .refl p

theorem tokensKept_updateUserInfo (id : String) (u : UserInfo) :
    p.TokensKept (p.updateUserInfo svc id u).2 := by
  unfold updateUserInfo updateRecord
  split
  · exact ⟨rfl, Cache.Evicts.removeAll _ _⟩
  · exact .refl p

/-! ## Logging in -/

@[simp] theorem addLogin_tokens (now : ℕ) (userId email token : String) :
    (p.addLogin svc now userId email token).tokens = p.tokens := by
  unfold addLogin
  simp only
  split <;> rfl

/-- The end of a login files the new token. -/
theorem completeAuthorize_tokens (m : Moment) (userName : String) (user : UserInfo) :
    (p.completeAuthorize svc m userName user).1.reason = some .SUCCESS ∧
      (p.completeAuthorize svc m userName user).2.tokens =
        (p.tokens.addToken m.now user.id m.accessToken m.refreshToken svc.tokenAging (5 * 60)).2 := by
  unfold completeAuthorize createTokenFor
  simp only [addLogin_tokens]
  exact ⟨trivial, rfl⟩

/-- What a login does to the tokens: one that succeeds files the new token for some user, and
one that fails files none. -/
def FilesToken (m : Moment) (p : Population) (result : LoginResult × Population) : Prop :=
  ∃ q, p.TokensKept q ∧
    (result.1.reason = some .SUCCESS ∧
        (∃ user, result.2.tokens =
          (q.tokens.addToken m.now user m.accessToken m.refreshToken svc.tokenAging (5 * 60)).2) ∨
      result.1.reason ≠ some .SUCCESS ∧ result.2.tokens = q.tokens)

/-- A login files a token if it succeeds. -/
theorem authorizeWith_tokens (rule : String → Bool) (m : Moment)
    (userName password newPassword : String) :
    FilesToken svc m p (p.authorizeWith svc rule m userName password newPassword) := by
  have hkept := tokensKept_getUserByEmail svc (p := p) (toLower userName)
  have hcomplete {q : Population} (hq : p.TokensKept q) (name : String) (user : UserInfo) :
      FilesToken svc m p (q.completeAuthorize svc m name user) := by
    obtain ⟨hreason, htokens⟩ := completeAuthorize_tokens svc (p := q) m name user
    exact ⟨q, hq, .inl ⟨hreason, _, htokens⟩⟩
  have houtcome := authorizeWith_outcome svc rule m p userName password newPassword
  generalize p.authorizeWith svc rule m userName password newPassword = result at houtcome ⊢
  cases houtcome with
  | refused hreason => exact ⟨_, hkept, .inr ⟨hreason, rfl⟩⟩
  | completed hlookup =>
    rw [hlookup] at hkept
    exact hcomplete hkept _ _
  | changed hlookup =>
    rw [hlookup] at hkept
    exact hcomplete (hkept.trans (tokensKept_updateUserInfo svc _ _)) _ _

/-- What a successful login leaves in the token table, when the new token is unused. -/
theorem find?_addToken {s : TokenStore} {token : String} (now : ℕ) (user refreshToken : String)
    (expires timeOut : ℕ) (hfree : s.rows.find? token = none) (k : String) :
    (s.addToken now user token refreshToken expires timeOut).2.rows.find? k =
      if k = token then
        some
          { token := token, refreshToken := refreshToken, tokenType := "Bearer", userName := user
            created := now, expires := expires, idleTimeout := timeOut, revocationDate := 0 }
      else s.rows.find? k := by
  unfold TokenStore.addToken TokenStore.createRecord
  split
  · rename_i rows hins
    exact Table.find?_insert hins k
  · rename_i hins
    obtain ⟨rows, hsome⟩ := Table.insert_isSome (t := s.rows)
      (r := { token := token, refreshToken := refreshToken, tokenType := "Bearer", userName := user
              created := now, expires := expires, idleTimeout := timeOut, revocationDate := 0 }) hfree
    rw [hins] at hsome
    cases hsome

/-! ## Refreshing -/

/-- The time of the last replacement is recent enough for the refresh token to be replaced. -/
def rotates (m : Moment) (t : Token) : Bool :=
  decide (u64 (m.now + 2 ^ 64 - t.lastRefresh) < svc.refreshTokenLifeSpan)

/-- The refresh token that a refresh hands out. -/
def nextRefreshToken (m : Moment) (t : Token) : String :=
  if rotates svc m t then m.refreshToken else t.refreshToken

/-- The time of the last replacement after a refresh. -/
def nextLastRefresh (m : Moment) (t : Token) : ℕ :=
  if rotates svc m t then m.now else t.lastRefresh

/-- The token that a refresh hands out, but for the access token. -/
theorem rotated_eq (m : Moment) (t : Token) :
    (if u64 (m.now + 2 ^ 64 - (TokenStore.webTokenOf t).lastRefresh) < svc.refreshTokenLifeSpan then
      { TokenStore.webTokenOf t with refreshToken := m.refreshToken, lastRefresh := m.now }
    else TokenStore.webTokenOf t) =
      { TokenStore.webTokenOf t with
        refreshToken := nextRefreshToken svc m t, lastRefresh := nextLastRefresh svc m t } := by
  have hiff : rotates svc m t = true ↔
      u64 (m.now + 2 ^ 64 - (TokenStore.webTokenOf t).lastRefresh) < svc.refreshTokenLifeSpan :=
    decide_eq_true_iff
  unfold nextRefreshToken nextLastRefresh
  simp only [hiff]
  split <;> rfl

/-- A refresh that is refused changes nothing in the token table. -/
theorem refreshTokenFor_none {m : Moment} {callToken refreshToken : String}
    (h : (p.refreshTokenFor svc m callToken refreshToken).1 = none) (hp : p.tokens.Exact) :
    (p.refreshTokenFor svc m callToken refreshToken).2.tokens.rows = p.tokens.rows ∧
      (p.refreshTokenFor svc m callToken refreshToken).2.tokens.Exact := by
  have hget := hp.getRecord callToken
  have hrows := p.tokens.getRecord_rows callToken
  unfold refreshTokenFor at h ⊢
  split at h
  · rename_i hempty
    simp only [hempty, if_true]
    exact ⟨trivial, hp⟩
  · rename_i hempty
    rw [if_neg hempty]
    rcases hl : p.tokens.getRecord callToken with ⟨_ | t, tokens⟩
    · simp only [hl] at hget hrows ⊢
      exact ⟨hrows, hget⟩
    · simp only [hl] at hget hrows h ⊢
      split at h
      · cases h
      · rename_i hother
        rw [if_neg hother]
        exact ⟨hrows, hget⟩

/-- A refresh that is accepted was made with a token that has a row with that refresh token.
When the new token is unused, it takes over the row. -/
theorem refreshTokenFor_some {m : Moment} {callToken refreshToken : String} {wt : WebToken}
    (h : (p.refreshTokenFor svc m callToken refreshToken).1 = some wt) (hp : p.tokens.Exact)
    (hfree : p.tokens.rows.find? m.accessToken = none) :
    callToken ≠ "" ∧ ∃ t, p.tokens.rows.find? callToken = some t ∧ t.refreshToken = refreshToken ∧
      wt.accessToken = m.accessToken ∧ wt.refreshToken = nextRefreshToken svc m t ∧
      wt.username = t.userName ∧
      (p.refreshTokenFor svc m callToken refreshToken).2.tokens.Exact ∧
      ∀ k, (p.refreshTokenFor svc m callToken refreshToken).2.tokens.rows.find? k =
        if k = m.accessToken then
          some (TokenStore.refreshed m.now m.accessToken (nextRefreshToken svc m t)
            (nextLastRefresh svc m t) t)
        else if k = callToken then none else p.tokens.rows.find? k := by
  have hget := hp.getRecord callToken
  have hrows := p.tokens.getRecord_rows callToken
  have hfst := p.tokens.getRecord_fst callToken
  rw [hp.resolve_eq] at hfst
  unfold refreshTokenFor at h ⊢
  split at h
  · cases h
  · rename_i hempty
    rw [if_neg hempty]
    rcases hl : p.tokens.getRecord callToken with ⟨_ | t, tokens⟩
    · simp only [hl] at h
      cases h
    · simp only [hl] at hget hrows hfst h ⊢
      split at h
      · rename_i hmatch
        rw [if_pos hmatch]
        have hrow : tokens.rows.find? callToken = some t := by rw [hrows, ← hfst]
        have hfree' : tokens.rows.find? m.accessToken = none := by rw [hrows, hfree]
        have hrefresh : t.refreshToken = refreshToken := beq_iff_eq.mp hmatch
        obtain rfl := Option.some.inj h
        obtain ⟨hexact, -, hfind⟩ := hget.refreshToken svc m.now callToken m.accessToken
          (nextRefreshToken svc m t) (nextLastRefresh svc m t) (.inr hfree')
        rw [rotated_eq]
        refine ⟨by simpa using hempty, t, hfst.symm, hrefresh, rfl, rfl, rfl, hexact, fun k ↦ ?_⟩
        show (TokenStore.refreshToken svc m.now tokens callToken m.accessToken
          (nextRefreshToken svc m t) (nextLastRefresh svc m t)).2.rows.find? k = _
        rw [hfind t hrow k, hrows]
      · cases h

end Population

end OwSec
