import OwSec.Storage.Sessions

/-!
# What a client is told about its token

A login and a refresh answer with a `WebToken`, which the client keeps, and file a row, which
every later check reads.  The two are put together by different code.  A login fills both from the
same values.  A refresh reads the old row into the answer and then changes the row and the answer
separately: the row starts a new life time, and the answer keeps the time at which the old one
began.
-/

namespace OwSec

open SecurityObjects Kit

/-- The fields of a token that the client and the store both have agree. -/
structure TokensAgree (told stored : WebToken) : Prop where
  accessToken : told.accessToken = stored.accessToken
  refreshToken : told.refreshToken = stored.refreshToken
  tokenType : told.tokenType = stored.tokenType
  created : told.created = stored.created
  expiresIn : told.expiresIn = stored.expiresIn
  idleTimeout : told.idleTimeout = stored.idleTimeout
  lastRefresh : told.lastRefresh = stored.lastRefresh

/-- `BaseTokenDB::GetToken`. -/
def TokenStore.getToken (s : TokenStore) (token : String) : Option WebToken :=
  (s.getRecord token).1.map fun t ↦ TokenStore.webTokenOf t

/-- What answers with a token. -/
inductive TokenRequest
  /-- `Authorize` or `AuthorizeSub`. -/
  | login (isSub : Bool) (m : Moment) (userName password newPassword : String)
  /-- `RefreshUserToken` or `RefreshSubToken`, for the bearer token of the request. -/
  | refresh (isSub : Bool) (m : Moment) (bearer : Option String) (refreshToken : String)

namespace TokenRequest

variable (svc : Service)

/-- The population whose tokens it is about. -/
def isSub : TokenRequest → Bool
  | login isSub .. => isSub
  | refresh isSub .. => isSub

/-- The token that a successful request answers with, and the store afterwards. -/
def run (s : Storage) : TokenRequest → Option WebToken × Storage
  | login false m userName password newPassword =>
    let (result, s) := s.authorize svc m userName password newPassword
    (if result.reason = some .SUCCESS then some result.uinfo.webtoken else none, s)
  | login true m userName password newPassword =>
    let (result, s) := s.authorizeSub svc m userName password newPassword
    (if result.reason = some .SUCCESS then some result.uinfo.webtoken else none, s)
  | refresh false m bearer refreshToken => s.refreshUserToken svc m bearer refreshToken
  | refresh true m bearer refreshToken => s.refreshSubToken svc m bearer refreshToken

/-- The token that a login draws has no record yet, so that it can be stored. -/
def Storable (s : Storage) : TokenRequest → Prop
  | login isSub m _ _ _ => (s.population isSub).tokens.resolve m.accessToken = none
  | refresh .. => True

/-- The life time of the presented token began in this second. -/
def BeganNow (s : Storage) : TokenRequest → Prop
  | login .. => True
  | refresh isSub m bearer _ =>
    ∃ token, bearer = some token ∧
      ∃ t, (s.population isSub).tokens.resolve token = some t ∧ t.created = m.now

/-- The answer agrees with what `GetToken` finds right afterwards. -/
def AnswersAsStored (s : Storage) (r : TokenRequest) : Prop :=
  ∀ told, (r.run svc s).1 = some told →
    ∃ stored, ((r.run svc s).2.population r.isSub).tokens.getToken told.accessToken = some stored ∧
      TokensAgree told stored

end TokenRequest

namespace Population

variable {svc : Service} {p : Population}

/-! ## Logging in -/

/-- The answer of the end of a login agrees with the row that it files. -/
theorem completeAuthorize_agrees {m : Moment} (hfree : p.tokens.resolve m.accessToken = none)
    (userName : String) (user : UserInfo) :
    ∃ stored,
      (p.completeAuthorize svc m userName user).2.tokens.getToken
        (p.completeAuthorize svc m userName user).1.uinfo.webtoken.accessToken = some stored ∧
      TokensAgree (p.completeAuthorize svc m userName user).1.uinfo.webtoken stored := by
  obtain ⟨hcache, hrow⟩ := Option.or_eq_none_iff.mp hfree
  have hfound := find?_addToken m.now user.id m.refreshToken svc.tokenAging (5 * 60) hrow
    m.accessToken
  rw [if_pos rfl] at hfound
  have hcached : (p.tokens.addToken m.now user.id m.accessToken m.refreshToken svc.tokenAging
      (5 * 60)).2.getFromCache m.accessToken = none := by
    unfold TokenStore.addToken TokenStore.createRecord
    split <;> exact hcache
  have hget : (p.completeAuthorize svc m userName user).2.tokens.getToken m.accessToken =
      some (TokenStore.webTokenOf
        { token := m.accessToken
          refreshToken := m.refreshToken
          tokenType := "Bearer"
          userName := user.id
          created := m.now
          expires := svc.tokenAging
          idleTimeout := 5 * 60
          revocationDate := 0 }) := by
    unfold TokenStore.getToken
    rw [(p.completeAuthorize_tokens svc m userName user).2, TokenStore.getRecord_fst,
      TokenStore.resolve, hcached, hfound]
    rfl
  exact ⟨_, hget, ⟨rfl, rfl, rfl, rfl, rfl, rfl, rfl⟩⟩

/-- What is found neither in a cache nor in the table is not found after an eviction. -/
theorem TokensKept.resolve_eq_none {q : Population} (h : p.TokensKept q) {token : String}
    (hfree : p.tokens.resolve token = none) : q.tokens.resolve token = none := by
  obtain ⟨hcache, hrow⟩ := Option.or_eq_none_iff.mp hfree
  refine Option.or_eq_none_iff.mpr ⟨?_, h.rows ▸ hrow⟩
  rcases hq : q.tokens.cache.lookup token with _ | t
  · exact hq
  · rw [TokenStore.getFromCache, h.cache token t hq] at hcache
    cases hcache

/-- The answer of a login agrees with the row that it files. -/
theorem authorizeWith_agrees {m : Moment} (hfree : p.tokens.resolve m.accessToken = none)
    (rule : String → Bool) (userName password newPassword : String)
    (hsuccess : (p.authorizeWith svc rule m userName password newPassword).1.reason =
      some .SUCCESS) :
    ∃ stored,
      (p.authorizeWith svc rule m userName password newPassword).2.tokens.getToken
        (p.authorizeWith svc rule m userName password newPassword).1.uinfo.webtoken.accessToken =
          some stored ∧
      TokensAgree
        (p.authorizeWith svc rule m userName password newPassword).1.uinfo.webtoken stored := by
  have hkept := tokensKept_getUserByEmail svc (p := p) (toLower userName)
  have houtcome := authorizeWith_outcome svc rule m p userName password newPassword
  generalize p.authorizeWith svc rule m userName password newPassword = result
    at houtcome hsuccess ⊢
  cases houtcome with
  | refused hreason => exact absurd hsuccess hreason
  | completed hlookup =>
    rw [hlookup] at hkept
    exact completeAuthorize_agrees (hkept.resolve_eq_none hfree) _ _
  | changed hlookup =>
    rw [hlookup] at hkept
    exact completeAuthorize_agrees
      ((hkept.trans (tokensKept_updateUserInfo svc _ _)).resolve_eq_none hfree) _ _

end Population

/-! ## Refreshing -/

/-- A refresh of a token that is found caches the new row last. -/
theorem TokenStore.getToken_refreshToken {svc : Service} {s : TokenStore} {oldToken : String}
    {t : Token} (h : s.resolve oldToken = some t) (now : ℕ) (newToken newRefreshToken : String)
    (lastRefresh : ℕ) :
    (s.refreshToken svc now oldToken newToken newRefreshToken lastRefresh).2.getToken newToken =
      some (webTokenOf (refreshed now newToken newRefreshToken lastRefresh t)) := by
  have hfst := (s.getRecord_fst oldToken).trans h
  unfold TokenStore.refreshToken getToken
  rcases hl : s.getRecord oldToken with ⟨found, s'⟩
  rw [hl] at hfst
  obtain rfl : found = some t := hfst
  simp only [getRecord_fst, resolve, getFromCache, updateCache, AList.lookup_insert]
  rfl

namespace Population

variable {svc : Service} {p : Population}

/-- What a successful refresh answers, and what is found under the new token afterwards: the row
of the presented token with a new life time. -/
theorem refreshTokenFor_answer {m : Moment} {callToken refreshToken : String} {told : WebToken}
    (h : (p.refreshTokenFor svc m callToken refreshToken).1 = some told) :
    ∃ t, p.tokens.resolve callToken = some t ∧
      told =
        { TokenStore.webTokenOf t with
          accessToken := m.accessToken
          refreshToken := nextRefreshToken svc m t
          lastRefresh := nextLastRefresh svc m t } ∧
      (p.refreshTokenFor svc m callToken refreshToken).2.tokens.getToken m.accessToken =
        some (TokenStore.webTokenOf (TokenStore.refreshed m.now m.accessToken
          (nextRefreshToken svc m t) (nextLastRefresh svc m t) t)) := by
  have hfst := p.tokens.getRecord_fst callToken
  have hsnd := p.tokens.resolve_getRecord_snd callToken callToken
  unfold refreshTokenFor at h ⊢
  split at h
  · cases h
  · rename_i hempty
    rw [if_neg hempty]
    rcases hl : p.tokens.getRecord callToken with ⟨_ | t, tokens⟩
    · simp only [hl] at h
      cases h
    · simp only [hl] at hfst hsnd h ⊢
      split at h
      · rename_i hmatch
        rw [if_pos hmatch]
        obtain rfl := Option.some.inj h
        rw [rotated_eq]
        refine ⟨t, hfst.symm, rfl, ?_⟩
        show TokenStore.getToken (TokenStore.refreshToken svc m.now tokens callToken m.accessToken
          (nextRefreshToken svc m t) (nextLastRefresh svc m t)).2 m.accessToken = _
        exact TokenStore.getToken_refreshToken (hsnd.trans hfst.symm) _ _ _ _
      · cases h

end Population

namespace TokenRequest

variable {svc : Service} {s : Storage}

/-! ## The law -/

/-- A refresh agrees with the store when the row of the presented token is as old as the answer
says. -/
theorem refresh_agrees_iff {p : Population} {m : Moment} {callToken refreshToken : String}
    {told : WebToken} (h : (p.refreshTokenFor svc m callToken refreshToken).1 = some told) :
    (∃ stored, (p.refreshTokenFor svc m callToken refreshToken).2.tokens.getToken
        told.accessToken = some stored ∧ TokensAgree told stored) ↔
      ∃ t, p.tokens.resolve callToken = some t ∧ t.created = m.now := by
  obtain ⟨t, hresolve, rfl, hget⟩ := Population.refreshTokenFor_answer h
  constructor
  · rintro ⟨stored, hstored, hagree⟩
    obtain rfl := Option.some.inj (hget.symm.trans hstored)
    exact ⟨t, hresolve, hagree.created⟩
  · rintro ⟨t', ht', hcreated⟩
    obtain rfl := Option.some.inj (hresolve.symm.trans ht')
    exact ⟨_, hget, ⟨rfl, rfl, rfl, hcreated, rfl, rfl, rfl⟩⟩

/-- The answer of a login always agrees. -/
theorem login_answersAsStored {isSub : Bool} {m : Moment} (userName password newPassword : String)
    (hfree : (s.population isSub).tokens.resolve m.accessToken = none) :
    (login isSub m userName password newPassword).AnswersAsStored svc s := by
  intro told htold
  cases isSub
  · unfold run Storage.authorize Storage.onPopulation at htold ⊢
    simp only at htold ⊢
    split at htold
    · rename_i hsuccess
      obtain rfl := Option.some.inj htold
      exact Population.authorizeWith_agrees hfree _ _ _ _ hsuccess
    · cases htold
  · unfold run Storage.authorizeSub Storage.onPopulation at htold ⊢
    simp only at htold ⊢
    split at htold
    · rename_i hsuccess
      obtain rfl := Option.some.inj htold
      exact Population.authorizeWith_agrees hfree _ _ _ _ hsuccess
    · cases htold

/-- A successful request answers what the store has exactly when the life time that the answer
tells of begins now: always after a login, and after a refresh only in the second in which the
presented token was issued. -/
theorem answersAsStored_iff (svc : Service) (s : Storage) (r : TokenRequest)
    (hsuccess : (r.run svc s).1.isSome) (hstore : r.Storable s) :
    r.AnswersAsStored svc s ↔ r.BeganNow s := by
  cases r with
  | login isSub m userName password newPassword =>
    exact iff_of_true (login_answersAsStored userName password newPassword hstore) trivial
  | refresh isSub m bearer refreshToken =>
    obtain ⟨told, htold⟩ := Option.isSome_iff_exists.mp hsuccess
    rcases bearer with _ | token
    · cases isSub <;> cases htold
    · have hrun : (refresh isSub m (some token) refreshToken).run svc s =
          (((s.population isSub).refreshTokenFor svc m token refreshToken).1,
            s.setPopulation isSub
              ((s.population isSub).refreshTokenFor svc m token refreshToken).2) := by
        cases isSub <;> rfl
      have hbegan : (refresh isSub m (some token) refreshToken).BeganNow s ↔
          ∃ t, (s.population isSub).tokens.resolve token = some t ∧ t.created = m.now := by
        simp [BeganNow]
      rw [hrun] at htold
      rw [hbegan, ← refresh_agrees_iff htold]
      unfold AnswersAsStored
      rw [hrun]
      simp only [TokenRequest.isSub, Storage.population_setPopulation]
      constructor
      · exact fun h ↦ h told htold
      · intro h told' htold'
        obtain rfl := Option.some.inj (htold.symm.trans htold')
        exact h

/-! ## A refresh a minute after the login -/

/-- A session that began at second 100. -/
def sampleSession : Storage where
  user :=
    { tokens :=
        { rows := ⟨[{ token := "t1", refreshToken := "r1", tokenType := "Bearer", userName := "u1"
                      created := 100, expires := 3600, idleTimeout := 300, revocationDate := 0 }],
            by simp⟩ } }

/-- The refresh, a minute later or at once. -/
def sampleRefresh (now : ℕ) : TokenRequest :=
  .refresh false (.sample now "b") (some "t1") "r1"

theorem answersAsStored_iff_sample :
    (sampleRefresh 100).AnswersAsStored .sample sampleSession ↔
      (sampleRefresh 100).BeganNow sampleSession :=
  answersAsStored_iff .sample sampleSession (sampleRefresh 100) rfl trivial

/-- A minute later the answer still tells of the old life time. -/
theorem refresh_tells_old_time :
    ¬ ∀ (svc : Service) (s : Storage) (r : TokenRequest), (r.run svc s).1.isSome → r.Storable s →
      r.AnswersAsStored svc s := by
  intro h
  obtain ⟨stored, hstored, hagree⟩ := h .sample sampleSession (sampleRefresh 160) rfl trivial _ rfl
  have hcreated : stored.created = 160 := by
    obtain rfl := Option.some.inj hstored
    rfl
  exact absurd (hagree.created.trans hcreated) (by decide)

end TokenRequest

end OwSec
