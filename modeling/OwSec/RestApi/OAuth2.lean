import OwSec.Auth.MFAServer
import OwSec.Storage.Runs

/-!
# Logging in over REST

`DoPost` of `RESTAPI_oauth2_handler.cpp` and of `RESTAPI_suboauth2_handler.cpp`.  One POST does
many things; which of them is decided by the request alone, so the decision is a function of
its own and each branch is another.

A password login asks for a second factor where the account has one, its method is enabled and
the challenge can be sent.  Where that fails, the handler logs that the second factor is broken
and answers with the token.
-/

namespace OwSec

open SecurityObjects Kit

namespace RestApi

/-- What the `requirements` request answers. -/
structure LoginPolicy where
  passwordPattern : String
  accessPolicy : String
  passwordPolicy : String
  deriving DecidableEq

/-- What a login request answers. -/
inductive LoginAnswer
  | response (r : Response)
  /-- The object that `WebToken::to_json` fills in, over what a challenge may have set in it. -/
  | token (challengeStart : Option MFAChallenge) (wt : WebToken)
  | challenge (challengeStart : MFAChallenge)
  | requirements (policy : LoginPolicy)
  deriving DecidableEq

/-- What a login request is about. -/
inductive LoginRequest
  /-- `Obj == nullptr`. -/
  | nullBody
  /-- A field of the body is not convertible to a text. -/
  | unreadable
  | refreshGrant (refreshToken : String)
  | requirements
  | forgotPassword (userId : String)
  | resendMFACode (o : JsonObject)
  | completeMFAChallenge (o : JsonObject)
  | passwordLogin (userId password newPassword : String)

/-- The state that a login request works on. -/
structure LoginState where
  storage : Storage := {}
  /-- `MFAServer::Cache_`. -/
  challenges : MFAChallengeCache := ∅

/-- The surroundings of a login request. -/
structure LoginContext where
  svc : Service
  lib : TotpLibrary
  services : Messaging
  policy : LoginPolicy
  moment : Moment
  /-- What `MicroServiceRandom` draws for a challenge. -/
  random : ℕ

/-- `GetS(Parameter, Obj)`: `none` is an exception of the JSON library. -/
def getS (json : JsonLibrary) (o : JsonObject) (name : String) : Option String :=
  match o.get? name with
  | some j => json.varToString j
  | none => some ""

/-- How `DoPost` tells the requests apart. -/
def LoginRequest.of (json : JsonLibrary) (r : Request) : LoginRequest :=
  match r.body.parsed with
  | none => .nullBody
  | some o =>
    match getS json o "userId", getS json o "password", getS json o "newPassword",
      getS json o "refreshToken" with
    | some userId, some password, some newPassword, some refreshToken =>
      if !refreshToken.isEmpty && r.getParameter "grant_type" == "refresh_token" then
        .refreshGrant refreshToken
      else if r.getBoolParameter "requirements" then .requirements
      else if r.getBoolParameter "forgotPassword" then .forgotPassword (toLower userId)
      else if r.getBoolParameter "resendMFACode" then .resendMFACode o
      else if r.getBoolParameter "completeMFAChallenge" then .completeMFAChallenge o
      else .passwordLogin (toLower userId) password newPassword
    | _, _, _, _ => .unreadable

/-- The refusal for each outcome of `Authorize` other than success. -/
def unauthorizedReason : UnauthorizedReason → Msg
  | .PASSWORD_INVALID => Errors.PASSWORD_INVALID
  | .PASSWORD_ALREADY_USED => Errors.PASSWORD_ALREADY_USED
  | .USERNAME_PENDING_VERIFICATION => Errors.USERNAME_PENDING_VERIFICATION
  | .PASSWORD_CHANGE_REQUIRED => Errors.PASSWORD_CHANGE_REQUIRED
  | .ACCOUNT_SUSPENDED => Errors.ACCOUNT_SUSPENDED
  | _ => Errors.INVALID_CREDENTIALS

/-- `AuthService::RequiresMFA`. -/
def requiresMFA (services : Messaging) (uInfo : UserInfoAndPolicy) : Bool :=
  uInfo.userinfo.userTypeProprietaryInfo.mfa.enabled &&
    services.methodEnabled uInfo.userinfo.userTypeProprietaryInfo.mfa.method

namespace LoginContext

variable (x : LoginContext) (isSub : Bool)

/-- `Authorize` or `AuthorizeSub`. -/
def authorize (s : Storage) (userId password newPassword : String) : LoginResult × Storage :=
  s.onPopulation isSub fun p ↦
    p.authorizeWith x.svc (Storage.passwordRule x.svc isSub) x.moment userId password newPassword

/-- The branch that refreshes a token. -/
def refresh (s : LoginState) (bearer : Option String) (refreshToken : String) :
    LoginAnswer × LoginState :=
  let (wt, storage) := match isSub with
    | false => s.storage.refreshUserToken x.svc x.moment bearer refreshToken
    | true => s.storage.refreshSubToken x.svc x.moment bearer refreshToken
  match wt with
  | some wt => (.token none wt, { s with storage })
  | none => (.response (.unAuthorized Errors.CANNOT_REFRESH_TOKEN), { s with storage })

/-- The branch for a forgotten password: the answer does not depend on whether there is such a
user. -/
def forgotPassword (s : LoginState) (userId : String) : LoginAnswer × LoginState :=
  let answer : LoginAnswer := .token none { userMustChangePassword := true }
  match s.storage.onPopulation isSub fun p ↦ p.getUserByEmail x.svc userId with
  | (some user, storage) =>
    let link : ActionLink :=
      { action := (if isSub then LinkActions.SUB_FORGOT_PASSWORD else .FORGOT_PASSWORD).toNat
        id := x.moment.uuid
        userId := user.id
        created := x.moment.now
        expires := x.moment.now + 24 * 60 * 60
        userAction := !isSub }
    (answer, { s with storage := storage.createAction link })
  | (none, storage) => (answer, { s with storage })

/-- The branch that sends the answer of a challenge again. -/
def resendMFACode (s : LoginState) (o : JsonObject) : LoginAnswer × LoginState :=
  if o.has "uuid" then
    match MFAChallengeCache.field x.svc.json o "uuid" with
    | none => (.response .internalError, s)
    | some uuid =>
      if s.challenges.resendCode x.services uuid then (.response .ok, s)
      else (.response (.unAuthorized Errors.BAD_MFA_TRANSACTION), s)
  else (.response (.unAuthorized Errors.BAD_MFA_TRANSACTION), s)

/-- The branch that completes a challenge; the subscriber's handler asks for the answer too. -/
def completeMFAChallenge (s : LoginState) (o : JsonObject) : LoginAnswer × LoginState :=
  if o.has "uuid" && (!isSub || o.has "answer") then
    let (result, challenges) :=
      s.challenges.completeMFAChallenge x.lib x.svc.json x.moment.now o
    match result with
    | .completed uInfo => (.token none uInfo.webtoken, { s with challenges })
    | .refused => (.response (.unAuthorized Errors.MFA_FAILURE), { s with challenges })
    | .thrown => (.response .internalError, { s with challenges })
  else (.response (.unAuthorized Errors.MFA_FAILURE), s)

/-- The branch that logs in with a password. -/
def passwordLogin (s : LoginState) (userId password newPassword : String) :
    LoginAnswer × LoginState :=
  let (result, storage) := x.authorize isSub s.storage userId password newPassword
  let s := { s with storage }
  match result.reason with
  | some .SUCCESS =>
    if requiresMFA x.services result.uinfo then
      match s.challenges.startMFAChallenge x.services x.moment x.random result.uinfo with
      | (some challengeStart, true, challenges) => (.challenge challengeStart, { s with challenges })
      -- the second factor is broken: it is not asked for
      | (challengeStart, _, challenges) =>
        (.token challengeStart result.uinfo.webtoken, { s with challenges })
    else (.token none result.uinfo.webtoken, s)
  | some reason => (.response (.unAuthorized (unauthorizedReason reason)), s)
  | none => (.response .internalError, s)

/-- The body shared by the two `DoPost`. -/
def doPostWith (r : Request) (s : LoginState) : LoginAnswer × LoginState :=
  match LoginRequest.of x.svc.json r with
  | .nullBody =>
    -- the subscriber's handler reads through the null pointer, which raises an exception
    (.response (if isSub then .internalError else .badRequest Errors.InvalidJSONDocument), s)
  | .unreadable => (.response .internalError, s)
  | .refreshGrant refreshToken => x.refresh isSub s r.bearer refreshToken
  | .requirements => (.requirements x.policy, s)
  | .forgotPassword userId => x.forgotPassword isSub s userId
  | .resendMFACode o => x.resendMFACode s o
  | .completeMFAChallenge o => x.completeMFAChallenge isSub s o
  | .passwordLogin userId password newPassword => x.passwordLogin isSub s userId password newPassword

/-! ### What a login leaves of the stores -/

/-- Sending an answer again changes nothing, and is never answered with a token. -/
theorem resendMFACode_eq (s : LoginState) (o : JsonObject) :
    ∃ a, x.resendMFACode s o = (.response a, s) := by
  unfold resendMFACode
  split
  · split
    · exact ⟨_, rfl⟩
    · split <;> exact ⟨_, rfl⟩
  · exact ⟨_, rfl⟩

@[simp] theorem completeMFAChallenge_storage (s : LoginState) (o : JsonObject) :
    (x.completeMFAChallenge isSub s o).2.storage = s.storage := by
  unfold completeMFAChallenge
  split
  · simp only
    split <;> rfl
  · rfl

/-- What survives what the branches of a login do to the stores survives it. -/
theorem doPostWith_rule {P : Storage → Prop} {r : Request} {s : LoginState} (hs : P s.storage)
    (hrefresh : ∀ callToken refreshToken, P (s.storage.onPopulation isSub fun p ↦
      p.refreshTokenFor x.svc x.moment callToken refreshToken).2)
    (hlookup : ∀ userId, P (s.storage.onPopulation isSub fun p ↦ p.getUserByEmail x.svc userId).2)
    (hcreate : ∀ s' link, P s' → P (s'.createAction link))
    (hauthorize : ∀ userId password newPassword,
      LoginRequest.of x.svc.json r = .passwordLogin userId password newPassword →
        P (x.authorize isSub s.storage userId password newPassword).2) :
    P (x.doPostWith isSub r s).2.storage := by
  unfold doPostWith
  split
  case h_1 | h_2 | h_4 => exact hs
  case h_3 refreshToken _ =>
    unfold refresh Storage.refreshUserToken Storage.refreshSubToken
    rcases r.bearer with _ | callToken
    · cases isSub <;> exact hs
    · have hrefreshed := hrefresh callToken refreshToken
      cases isSub
      · simp only
        split <;> exact hrefreshed
      · simp only
        split <;> exact hrefreshed
  case h_5 userId _ =>
    have hfound := hlookup userId
    unfold forgotPassword
    simp only
    split
    · rename_i hl
      rw [hl] at hfound
      exact hcreate _ _ hfound
    · rename_i hl
      rw [hl] at hfound
      exact hfound
  case h_6 o _ =>
    obtain ⟨a, ha⟩ := x.resendMFACode_eq s o
    rw [ha]
    exact hs
  case h_7 o _ =>
    rw [x.completeMFAChallenge_storage]
    exact hs
  case h_8 userId password newPassword hkind =>
    have hstorage := hauthorize userId password newPassword hkind
    unfold passwordLogin
    simp only
    split
    · split
      · split <;> exact hstorage
      · exact hstorage
    · exact hstorage
    · exact hstorage

end LoginContext

/-- `RESTAPI_oauth2_handler::DoPost`. -/
def OAuth2Handler.doPost (x : LoginContext) := x.doPostWith false

/-- `RESTAPI_suboauth2_handler::DoPost`. -/
def SubOAuth2Handler.doPost (x : LoginContext) := x.doPostWith true

end RestApi

end OwSec
