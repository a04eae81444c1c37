import OwSec.Storage.Sessions

/-!
# The audit trail

A login writes a record into the `Logins` (or `SubLogins`) table, and the logout of the
session puts its time into that record.  The record is filed under a hash of the access
token that the login issued, and a refresh replaces the access token, so a logout after a
refresh looks for the record under the hash of another token.
-/

namespace OwSec

open SecurityObjects Kit

/-! ## What touches the records -/

namespace Population

variable (svc : Service) {p : Population}

/-- What a successful login writes. -/
def loginRecord (m : Moment) (userId email : String) : LoginRecordInfo :=
  { sessionId := svc.computeHash m.accessToken, userId, email, login := m.now }

@[simp] theorem getUserByEmail_logins (email : String) :
    (p.getUserByEmail svc email).2.logins = p.logins := by
  unfold getUserByEmail getRecordByEMail
  split
  · rfl
  · split <;> rfl

@[simp] theorem updateUserInfo_logins (id : String) (u : UserInfo) :
    (p.updateUserInfo svc id u).2.logins = p.logins := by
  unfold updateUserInfo updateRecord
  split <;> rfl

@[simp] theorem refreshTokenFor_logins (m : Moment) (callToken refreshToken : String) :
    (p.refreshTokenFor svc m callToken refreshToken).2.logins = p.logins := by
  unfold refreshTokenFor
  split
  · rfl
  · split
    · rfl
    · simp only
      split <;> rfl

/-- A record is added where its key is free. -/
theorem find?_addLogin {now : ℕ} {userId email token : String}
    (hfree : p.logins.find? (svc.computeHash token) = none) (k : String) :
    (p.addLogin svc now userId email token).logins.find? k =
      if k = svc.computeHash token then
        some { sessionId := svc.computeHash token, userId, email, login := now }
      else p.logins.find? k := by
  unfold addLogin
  obtain ⟨logins, hins⟩ := Table.insert_isSome (t := p.logins)
    (r := { sessionId := svc.computeHash token, userId, email, login := now }) hfree
  simp only [hins]
  exact Table.find?_insert hins k

/-- A logout sets the time in the record of its token, if there is one. -/
theorem find?_logoutOf (now : ℕ) (token k : String) :
    (p.logoutOf svc now token).logins.find? k =
      if k = svc.computeHash token then
        (p.logins.find? k).map fun r ↦ { r with logout := now }
      else p.logins.find? k := by
  unfold logoutOf addLogout
  simp only
  rcases hr : p.logins.find? (svc.computeHash token) with _ | r
  · by_cases hk : k = svc.computeHash token
    · simp [hk, hr]
    · simp [hk]
  · have hkey : r.sessionId = svc.computeHash token := Table.key_of_find? hr
    obtain ⟨logins, hup⟩ := p.logins.update_isSome (r := { r with logout := now }) hkey
    simp only [hup]
    rw [Table.find?_update hup hkey, hr]
    by_cases hk : k = svc.computeHash token
    · rw [if_pos hk, if_pos hk, hk, hr]
      rfl
    · rw [if_neg hk, if_neg hk]

/-- A successful login adds its record and leaves the others. -/
theorem logins_authorizeWith {rule : String → Bool} {m : Moment}
    {userName password newPassword : String}
    (hsuccess : (p.authorizeWith svc rule m userName password newPassword).1.reason =
      some .SUCCESS)
    (hfree : p.logins.find? (svc.computeHash m.accessToken) = none) :
    ∃ userId email, ∀ k,
      (p.authorizeWith svc rule m userName password newPassword).2.logins.find? k =
        if k = svc.computeHash m.accessToken then some (loginRecord svc m userId email)
        else p.logins.find? k := by
  have hcomplete (q : Population) (hq : q.logins = p.logins) (name : String) (user : UserInfo) :
      ∃ userId email, ∀ k, (q.completeAuthorize svc m name user).2.logins.find? k =
        if k = svc.computeHash m.accessToken then some (loginRecord svc m userId email)
        else p.logins.find? k := by
    refine ⟨user.id, user.email, fun k ↦ ?_⟩
    unfold completeAuthorize createTokenFor
    simp only
    rw [find?_addLogin svc (by simpa only [setLastLogin, hq] using hfree)]
    simp only [setLastLogin, hq]
    rfl
  have houtcome := authorizeWith_outcome svc rule m p userName password newPassword
  generalize p.authorizeWith svc rule m userName password newPassword = result
    at houtcome hsuccess ⊢
  cases houtcome with
  | refused hreason => exact absurd hsuccess hreason
  | completed hlookup =>
    have hq := getUserByEmail_logins svc (p := p) (toLower userName)
    rw [hlookup] at hq
    exact hcomplete _ hq _ _
  | changed hlookup =>
    have hq := getUserByEmail_logins svc (p := p) (toLower userName)
    rw [hlookup] at hq
    exact hcomplete _ ((updateUserInfo_logins svc _ _).trans hq) _ _

end Population

/-! ## A session from its login to its logout -/

namespace AuditTrail

variable (svc : Service) (isSub : Bool)

/-- `Authorize` or `AuthorizeSub`. -/
def login (m : Moment) (s : Storage) (userName password newPassword : String) :
    LoginResult × Storage :=
  match isSub with
  | false => s.authorize svc m userName password newPassword
  | true => s.authorizeSub svc m userName password newPassword

/-- `RefreshUserToken` or `RefreshSubToken`. -/
def refresh (m : Moment) (s : Storage) (bearer refreshToken : String) :
    Option WebToken × Storage :=
  match isSub with
  | false => s.refreshUserToken svc m (some bearer) refreshToken
  | true => s.refreshSubToken svc m (some bearer) refreshToken

/-- `Logout` or `SubLogout`. -/
def logout (now : ℕ) (s : Storage) (token : String) : Storage :=
  match isSub with
  | false => s.logout svc now token
  | true => s.subLogout svc now token

/-- A number of successful refreshes of a session, each with the access token that the
session then has: from a state and a token to a state and a token. -/
inductive Refreshes : ℕ → Storage → String → Storage → String → Prop
  | none (s : Storage) (token : String) : Refreshes 0 s token s token
  | next {n : ℕ} {s s' : Storage} {token token' refreshToken : String} {m : Moment}
    {wt : WebToken} (h : Refreshes n s token s' token')
    (hsuccess : (refresh svc isSub m s' token' refreshToken).1 = some wt) :
    Refreshes (n + 1) s token (refresh svc isSub m s' token' refreshToken).2 wt.accessToken

/-- The trail of the session is closed: its record, which `opened` shows as the login wrote it,
has a time of logout, and every other record is as it was `before` the login. -/
structure Closed (session : String) (before opened after : Storage) : Prop where
  closed : ∃ r time, (opened.population isSub).logins.find? session = some r ∧ time ≠ 0 ∧
    (after.population isSub).logins.find? session = some { r with logout := time }
  others : ∀ k, k ≠ session →
    (after.population isSub).logins.find? k = (before.population isSub).logins.find? k

section Session

variable {svc isSub}

/-- Refreshes leave the records alone. -/
theorem Refreshes.logins {n : ℕ} {s s' : Storage} {token token' : String}
    (h : Refreshes svc isSub n s token s' token') :
    (s'.population isSub).logins = (s.population isSub).logins := by
  induction h with
  | none => rfl
  | @next n s s' token token' refreshToken m wt h hsuccess ih =>
    rw [← ih]
    cases isSub
    · exact Population.refreshTokenFor_logins svc m token' refreshToken
    · exact Population.refreshTokenFor_logins svc m token' refreshToken

/-- A successful login adds its record and leaves the others. -/
theorem logins_login {m : Moment} {s : Storage} {userName password newPassword : String}
    (hsuccess : (login svc isSub m s userName password newPassword).1.reason = some .SUCCESS)
    (hfree : (s.population isSub).logins.find? (svc.computeHash m.accessToken) = none) :
    ∃ userId email, ∀ k, ((login svc isSub m s userName password newPassword).2.population
      isSub).logins.find? k =
        if k = svc.computeHash m.accessToken then
          some (Population.loginRecord svc m userId email)
        else (s.population isSub).logins.find? k := by
  cases isSub
  · exact Population.logins_authorizeWith svc hsuccess hfree
  · exact Population.logins_authorizeWith svc hsuccess hfree

/-- A logout sets the time in the record of its token. -/
theorem logins_logout (now : ℕ) (s : Storage) (token k : String) :
    ((logout svc isSub now s token).population isSub).logins.find? k =
      if k = svc.computeHash token then
        ((s.population isSub).logins.find? k).map fun r ↦ { r with logout := now }
      else (s.population isSub).logins.find? k := by
  cases isSub
  · exact Population.find?_logoutOf svc now token k
  · exact Population.find?_logoutOf svc now token k

/-- In every session, from a login whose record was stored over any number of refreshes to the
logout with the access token of that time, the trail is closed exactly when that access token
has the hash of the one that the login issued, and the clock is not at zero. -/
theorem closed_iff {m : Moment} {s s' : Storage} {userName password newPassword token : String}
    {n now : ℕ}
    (hsuccess : (login svc isSub m s userName password newPassword).1.reason = some .SUCCESS)
    (hfree : (s.population isSub).logins.find? (svc.computeHash m.accessToken) = none)
    (hrefreshes : Refreshes svc isSub n (login svc isSub m s userName password newPassword).2
      m.accessToken s' token) :
    Closed isSub (svc.computeHash m.accessToken) s
        (login svc isSub m s userName password newPassword).2 (logout svc isSub now s' token) ↔
      svc.computeHash token = svc.computeHash m.accessToken ∧ now ≠ 0 := by
  obtain ⟨userId, email, hlogin⟩ := logins_login hsuccess hfree
  have hwritten := hlogin (svc.computeHash m.accessToken)
  rw [if_pos rfl] at hwritten
  have hafter (k : String) : ((logout svc isSub now s' token).population isSub).logins.find? k =
      _ := logins_logout now s' token k
  simp only [hrefreshes.logins] at hafter
  constructor
  · rintro ⟨⟨r, time, hr, htime, hclosed⟩, -⟩
    rw [hwritten] at hr
    cases hr
    rw [hafter, hwritten] at hclosed
    by_cases hhash : svc.computeHash m.accessToken = svc.computeHash token
    · rw [if_pos hhash] at hclosed
      have hnow : now = time := congrArg LoginRecordInfo.logout (Option.some.inj hclosed)
      exact ⟨hhash.symm, hnow ▸ htime⟩
    · -- the record keeps the zero that the login wrote
      rw [if_neg hhash] at hclosed
      exact absurd (congrArg LoginRecordInfo.logout (Option.some.inj hclosed)).symm htime
  · rintro ⟨hhash, hnow⟩
    refine ⟨⟨_, now, hwritten, hnow, ?_⟩, fun k hk ↦ ?_⟩
    · rw [hafter, hhash, if_pos rfl, hwritten]
      rfl
    · rw [hafter, hhash, if_neg hk, hlogin, if_neg hk]

end Session

/-! ## A session with one refresh -/

/-- A user who can log in. -/
def sampleStart : Storage where
  user :=
    { users :=
        { rows :=
            [{ id := "user-1", email := "user@example.com", userRole := .ADMIN, validated := true
               currentPassword := "<passworduser@example.com>" }]
          nodup := by decide } }

/-- The state after the login of the user. -/
def sampleLogin : Storage :=
  (login .sample false (.sample 100 "a") sampleStart "user@example.com" "password" "").2

/-- The state after a refresh of the session. -/
def sampleRefresh : Storage :=
  (refresh .sample false (.sample 200 "b") sampleLogin "token-a" "refresh-a").2

theorem refreshes_sampleRefresh :
    Refreshes .sample false 1 sampleLogin "token-a" sampleRefresh "token-b" := by
  have hrefresh : ∃ wt, (refresh .sample false (.sample 200 "b") sampleLogin "token-a"
      "refresh-a").1 = some wt ∧ wt.accessToken = "token-b" := ⟨_, rfl, rfl⟩
  obtain ⟨wt, hsuccess, htoken⟩ := hrefresh
  rw [← htoken]
  exact .next (.none _ _) hsuccess

/-- The equivalence for the session that is closed right after its login. -/
theorem closed_iff_sample :
    Closed false "<token-a>" sampleStart sampleLogin
        (logout .sample false 300 sampleLogin "token-a") ↔
      Service.sample.computeHash "token-a" = Service.sample.computeHash "token-a" ∧ 300 ≠ 0 := by
  have hsuccess : (login .sample false (.sample 100 "a") sampleStart "user@example.com" "password"
      "").1.reason = some .SUCCESS := by decide
  exact closed_iff hsuccess (by decide) (.none _ _)

/-- After a refresh the logout closes nothing: the record of the login stays open. -/
theorem trail_stays_open :
    (login .sample false (.sample 100 "a") sampleStart "user@example.com" "password" "").1.reason =
      some .SUCCESS ∧
    Refreshes .sample false 1 sampleLogin "token-a" sampleRefresh "token-b" ∧
    ((logout .sample false 300 sampleRefresh "token-b").user.logins.rows.map (·.logout)) = [0] ∧
    ¬ Closed false "<token-a>" sampleStart sampleLogin
      (logout .sample false 300 sampleRefresh "token-b") := by
  refine ⟨by decide, refreshes_sampleRefresh, by decide, ?_⟩
  rintro ⟨⟨r, time, -, htime, hclosed⟩, -⟩
  have hopen : (logout .sample false 300 sampleRefresh "token-b").user.logins.find? "<token-a>" =
      some { sessionId := "<token-a>", userId := "user-1", email := "user@example.com"
             login := 100, logout := 0 } := by decide
  have hclosed' : (logout .sample false 300 sampleRefresh "token-b").user.logins.find? "<token-a>" =
      some { r with logout := time } := hclosed
  rw [hopen] at hclosed'
  exact htime (congrArg LoginRecordInfo.logout (Option.some.inj hclosed')).symm

end AuditTrail

end OwSec
