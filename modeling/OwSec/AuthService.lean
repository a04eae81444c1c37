import OwSec.Storage.Storage

/-!
# The authentication service

Logging in, checking a token or an API key, refreshing a token and logging out
(`AuthService.cpp`).  Users and subscribers go through functions with the same bodies over
different tables, so each body is written once over a `Population` and each function of
the source is that body at the population it uses.

The functions of the source that answer through reference parameters return those values
here.  A `uint64_t` comparison that decides something wraps as in the source.
-/

namespace OwSec

open SecurityObjects

/-- `UNAUTHORIZED_REASON`. -/
inductive UnauthorizedReason
  | SUCCESS | PASSWORD_CHANGE_REQUIRED | INVALID_CREDENTIALS | PASSWORD_ALREADY_USED
  | USERNAME_PENDING_VERIFICATION | PASSWORD_INVALID | INTERNAL_ERROR | ACCESS_DENIED
  | INVALID_TOKEN | EXPIRED_TOKEN | RATE_LIMIT_EXCEEDED | BAD_MFA_TRANSACTION | MFA_FAILURE
  | SECURITY_SERVICE_UNREACHABLE | CANNOT_REFRESH_TOKEN | ACCOUNT_SUSPENDED
  deriving DecidableEq, Repr

/-- What a check of a token or of an API key reports. -/
structure CheckResult where
  /-- The answer `true`, with the user and the token it filled in. -/
  uinfo : Option UserInfoAndPolicy := none
  /-- The `Expired` reference parameter. -/
  expired : Bool := false
  deriving DecidableEq, Repr

/-- What a login reports: the reason, or `none` when an exception leaves the function, and
the record and token as far as they were filled in. -/
structure LoginResult where
  reason : Option UnauthorizedReason
  uinfo : UserInfoAndPolicy := {}
  deriving DecidableEq, Repr

namespace Population

variable (svc : Service)

/-! ## Tokens -/

/-- The body shared by `IsAuthorized`, `IsSubAuthorized`, `IsValidToken` and
`IsValidSubToken`: the token is looked up, a revoked one is refused, the flag is set when
its life time is over, and the answer is whether its owner has a record. -/
def checkToken (now : ℕ) (p : Population) (token : String) : CheckResult × Population :=
  match p.tokens.getRecord token with
  | (none, tokens) => ({}, { p with tokens })
  | (some t, tokens) =>
    let p := { p with tokens }
    if t.revocationDate != 0 then ({}, p)
    else
      let wt := TokenStore.webTokenOf t
      let expired := decide (u64 (wt.created + wt.expiresIn) < now)
      match p.getUserById svc t.userName with
      | (some user, p) => ({ uinfo := some { webtoken := wt, userinfo := user }, expired }, p)
      | (none, p) => ({ uinfo := none, expired }, p)

/-- The body shared by `CreateToken` and `CreateSubToken`. -/
def createTokenFor (m : Moment) (p : Population) (userName : String) (ui : UserInfoAndPolicy) :
    UserInfoAndPolicy × Population :=
  let wt : WebToken :=
    { ui.webtoken with
      aclTemplate := {}
      expiresIn := svc.tokenAging
      idleTimeout := 5 * 60
      tokenType := "Bearer"
      accessToken := m.accessToken
      idToken := m.idToken
      refreshToken := m.refreshToken
      created := m.now
      username := userName
      errorCode := 0
      userMustChangePassword := false }
  let p := p.setLastLogin m.now ui.userinfo.id
  let tokens := (p.tokens.addToken m.now ui.userinfo.id wt.accessToken wt.refreshToken
    wt.expiresIn wt.idleTimeout).2
  let p := { p with tokens }
  let p := p.addLogin svc m.now ui.userinfo.id ui.userinfo.email wt.accessToken
  ({ ui with webtoken := wt }, p)

/-- The end of `Authorize` and `AuthorizeSub`, once the password is in order. -/
def completeAuthorize (m : Moment) (p : Population) (userName : String) (user : UserInfo) :
    LoginResult × Population :=
  let user := { user with lastLogin := m.now }
  let p := p.setLastLogin m.now user.id
  let (ui, p) := p.createTokenFor svc m userName { userinfo := user }
  ({ reason := some .SUCCESS, uinfo := ui }, p)

/-- The branch of `Authorize` and `AuthorizeSub` that changes the password first. -/
def authorizeNewPassword (m : Moment) (p : Population) (userName newPassword : String)
    (user : UserInfo) : LoginResult × Population :=
  match setPassword svc m.salt newPassword user with
  | .exception => ({ reason := none, uinfo := { userinfo := user } }, p)
  | .refused =>
    ({ reason := some .PASSWORD_ALREADY_USED,
       uinfo := { userinfo := user, webtoken := { errorCode := 1 } } }, p)
  | .applied user =>
    let user :=
      { user with lastPasswordChange := m.now, changePassword := false, modified := m.now }
    let p := (p.updateUserInfo svc user.id user).2
    p.completeAuthorize svc m userName user

/-- The body shared by `Authorize` and `AuthorizeSub`; `rule` is the rule that a new
password must satisfy. -/
def authorizeWith (rule : String → Bool) (m : Moment) (p : Population)
    (userName password newPassword : String) : LoginResult × Population :=
  let userName := toLower userName
  match p.getUserByEmail svc userName with
  | (none, p) => ({ reason := some .INVALID_CREDENTIALS }, p)
  | (some user, p) =>
    if user.suspended then
      ({ reason := some .ACCOUNT_SUSPENDED, uinfo := { userinfo := user } }, p)
    else if user.waitingForEmailCheck then
      ({ reason := some .USERNAME_PENDING_VERIFICATION, uinfo := { userinfo := user } }, p)
    else if !validatePasswordHash svc userName password user.currentPassword then
      ({ reason := some .INVALID_CREDENTIALS, uinfo := { userinfo := user } }, p)
    else if user.changePassword && newPassword.isEmpty then
      ({ reason := some .PASSWORD_CHANGE_REQUIRED,
         uinfo := { userinfo := user, webtoken := { userMustChangePassword := true } } }, p)
    else if !newPassword.isEmpty && !rule newPassword then
      ({ reason := some .PASSWORD_INVALID, uinfo := { userinfo := user } }, p)
    else if user.changePassword || !newPassword.isEmpty then
      p.authorizeNewPassword svc m userName newPassword user
    else p.completeAuthorize svc m userName user

/-- How a login ends. -/
inductive LoginOutcome (m : Moment) (p : Population) (userName newPassword : String) :
    LoginResult × Population → Prop
  /-- It is refused, and the record was looked up at most. -/
  | refused {result : LoginResult} (hreason : result.reason ≠ some .SUCCESS) :
    LoginOutcome m p userName newPassword (result, (p.getUserByEmail svc userName).2)
  /-- The record that the address leads to logs in. -/
  | completed {user : UserInfo} {q : Population}
    (hlookup : p.getUserByEmail svc userName = (some user, q)) :
    LoginOutcome m p userName newPassword (q.completeAuthorize svc m userName user)
  /-- It logs in with a new password. -/
  | changed {user user' : UserInfo} {q : Population}
    (hlookup : p.getUserByEmail svc userName = (some user, q))
    (hset : setPassword svc m.salt newPassword user = .applied user')
    {written : UserInfo} (hwritten : written =
      { user' with lastPasswordChange := m.now, changePassword := false, modified := m.now }) :
    LoginOutcome m p userName newPassword
      ((q.updateUserInfo svc written.id written).2.completeAuthorize svc m userName written)

/-- Every login ends in one of these ways. -/
theorem authorizeWith_outcome (rule : String → Bool) (m : Moment) (p : Population)
    (userName password newPassword : String) :
    LoginOutcome svc m p (toLower userName) newPassword
      (p.authorizeWith svc rule m userName password newPassword) := by
  have hrefused (result : LoginResult) (hreason : result.reason ≠ some .SUCCESS) :
      LoginOutcome svc m p (toLower userName) newPassword
        (result, (p.getUserByEmail svc (toLower userName)).2) := .refused hreason
  unfold authorizeWith
  simp only
  split
  · rename_i q hl
    rw [hl] at hrefused
    exact hrefused _ (by simp)
  · rename_i user q hl
    rw [hl] at hrefused
    split
    · exact hrefused _ (by simp)
    split
    · exact hrefused _ (by simp)
    split
    · exact hrefused _ (by simp)
    split
    · exact hrefused _ (by simp)
    split
    · exact hrefused _ (by simp)
    split
    · unfold authorizeNewPassword
      split
      · exact hrefused _ (by simp)
      · exact hrefused _ (by simp)
      · rename_i hset
        exact .changed hl hset rfl
    · exact .completed hl

/-- The body shared by `RefreshUserToken` and `RefreshSubToken`, for the bearer token of
the request. -/
def refreshTokenFor (m : Moment) (p : Population) (callToken refreshToken : String) :
    Option WebToken × Population :=
  if callToken.isEmpty then (none, p)
  else
    match p.tokens.getRecord callToken with
    | (none, tokens) => (none, { p with tokens })
    | (some t, tokens) =>
      let wt := TokenStore.webTokenOf t
      if wt.refreshToken == refreshToken then
        let wt :=
          if u64 (m.now + 2 ^ 64 - wt.lastRefresh) < svc.refreshTokenLifeSpan then
            { wt with refreshToken := m.refreshToken, lastRefresh := m.now }
          else wt
        let tokens := (tokens.refreshToken svc m.now callToken m.accessToken wt.refreshToken
          wt.lastRefresh).2
        (some { wt with accessToken := m.accessToken }, { p with tokens })
      else (none, { p with tokens })

/-- The body shared by `Logout` and `SubLogout`. -/
def logoutOf (now : ℕ) (p : Population) (token : String) : Population :=
  { p with tokens := p.tokens.deleteRecord svc token }.addLogout svc now token

end Population

namespace Storage

variable (svc : Service)

/-! ## The functions of the source, user and subscriber variants -/

/-- Run an operation of a population on the one the `Sub` flag selects. -/
def onPopulation {α : Type} (isSub : Bool) (s : Storage) (f : Population → α × Population) :
    α × Storage :=
  let (a, p) := f (s.population isSub)
  (a, s.setPopulation isSub p)

/-- `AuthService::Authorize`. -/
def authorize (m : Moment) (s : Storage) (userName password newPassword : String) :=
  s.onPopulation false fun p ↦
    p.authorizeWith svc (validatePassword svc) m userName password newPassword

/-- `AuthService::AuthorizeSub`. -/
def authorizeSub (m : Moment) (s : Storage) (userName password newPassword : String) :=
  s.onPopulation true fun p ↦
    p.authorizeWith svc (validateSubPassword svc) m userName password newPassword

/-- `AuthService::IsAuthorized`, for the bearer token of the request. -/
def isAuthorized (now : ℕ) (s : Storage) (bearer : Option String) : CheckResult × Storage :=
  match bearer with
  | none => ({}, s)
  | some callToken =>
    if callToken.isEmpty then ({}, s)
    else s.onPopulation false fun p ↦ p.checkToken svc now callToken

/-- `AuthService::IsSubAuthorized`, for the bearer token of the request. -/
def isSubAuthorized (now : ℕ) (s : Storage) (bearer : Option String) : CheckResult × Storage :=
  match bearer with
  | none => ({}, s)
  | some callToken =>
    if callToken.isEmpty then ({}, s)
    else s.onPopulation true fun p ↦ p.checkToken svc now callToken

/-- `AuthService::IsValidToken`. -/
def isValidToken (now : ℕ) (s : Storage) (token : String) : CheckResult × Storage :=
  s.onPopulation false fun p ↦ p.checkToken svc now token

/-- `AuthService::IsValidSubToken`. -/
def isValidSubToken (now : ℕ) (s : Storage) (token : String) : CheckResult × Storage :=
  s.onPopulation true fun p ↦ p.checkToken svc now token

/-- `AuthServiceIsAuthorized`: which of the two `Sub` selects. -/
def authServiceIsAuthorized (now : ℕ) (s : Storage) (bearer : Option String) :
    Bool → CheckResult × Storage
  | true => s.isSubAuthorized svc now bearer
  | false => s.isAuthorized svc now bearer

/-- The bearer path of the two `IsAuthorized` functions, in the population that the handler
serves. -/
theorem authServiceIsAuthorized_fst (now : ℕ) (s : Storage) (token : String) (isSub : Bool) :
    (s.authServiceIsAuthorized svc now (some token) isSub).1 =
      if token = "" then {} else ((s.population isSub).checkToken svc now token).1 := by
  by_cases ht : token = ""
  · subst ht
    cases isSub <;> rfl
  · have hempty : token.isEmpty = false := by simpa using ht
    rw [if_neg ht]
    cases isSub
    · simp only [authServiceIsAuthorized, isAuthorized, hempty]
      rfl
    · simp only [authServiceIsAuthorized, isSubAuthorized, hempty]
      rfl

/-- `AuthService::IsValidApiKey`: the last use is written back. -/
def isValidApiKey (now : ℕ) (s : Storage) (apiKey : String) : CheckResult × Storage :=
  match s.getApiKey apiKey with
  | none => ({}, s)
  | some entry =>
    if entry.expiresOn < now then ({ uinfo := none, expired := true }, s)
    else
      match s.onPopulation false fun p ↦ p.getUserById svc entry.userUuid with
      | (none, s) => ({}, s)
      | (some user, s) =>
        if user.suspended then ({}, s)
        else
          ({ uinfo := some { userinfo := user } },
            s.updateApiKey entry.id { entry with lastUse := now })

/-- `AuthService::RefreshUserToken`. -/
def refreshUserToken (m : Moment) (s : Storage) (bearer : Option String)
    (refreshToken : String) : Option WebToken × Storage :=
  match bearer with
  | none => (none, s)
  | some callToken => s.onPopulation false fun p ↦ p.refreshTokenFor svc m callToken refreshToken

/-- `AuthService::RefreshSubToken`. -/
def refreshSubToken (m : Moment) (s : Storage) (bearer : Option String)
    (refreshToken : String) : Option WebToken × Storage :=
  match bearer with
  | none => (none, s)
  | some callToken => s.onPopulation true fun p ↦ p.refreshTokenFor svc m callToken refreshToken

/-- `AuthService::Logout`. -/
def logout (now : ℕ) (s : Storage) (token : String) : Storage :=
  s.setPopulation false ((s.population false).logoutOf svc now token)

/-- `AuthService::SubLogout`. -/
def subLogout (now : ℕ) (s : Storage) (token : String) : Storage :=
  s.setPopulation true ((s.population true).logoutOf svc now token)

/-! ## E-mail verification -/

/-- The body shared by `VerifyEmail` and `VerifySubEmail`: a link for the user is stored
under the identifier `linkId`, and the record is marked as waiting. -/
def verifyEmailWith (action : LinkActions) (userAction : Bool) (now : ℕ) (linkId : String)
    (s : Storage) (user : UserInfo) : UserInfo × Storage :=
  let a : ActionLink :=
    { action := action.toNat
      userId := user.id
      id := linkId
      created := now
      expires := now + 24 * 60 * 60
      userAction := userAction }
  ({ user with waitingForEmailCheck := true, validated := false }, s.createAction a)

/-- `AuthService::VerifyEmail`. -/
def verifyEmail := verifyEmailWith .VERIFY_EMAIL true

/-- `AuthService::VerifySubEmail`. -/
def verifySubEmail := verifyEmailWith .SUB_VERIFY_EMAIL false

end Storage

end OwSec
