import OwSec.Storage.Runs

/-!
# Disabled accounts and the authentication paths

An account can be disabled in two ways: `suspended`, and `blackListed`.  The service
authenticates on nine paths, each with its own checks.  This file describes a path by the
checks it makes and shows which of them refuse a disabled account:

| path                                   | looks at `suspended` | looks at `blackListed` |
|----------------------------------------|----------------------|------------------------|
| `Authorize`, `AuthorizeSub`            | yes                  | no                     |
| `IsAuthorized`, `IsSubAuthorized`      | no                   | no                     |
| `IsValidToken`, `IsValidSubToken`      | no                   | no                     |
| `IsValidApiKey`                        | yes                  | no                     |
| `RefreshUserToken`, `RefreshSubToken`  | no                   | no                     |
-/

namespace OwSec

open SecurityObjects Kit

variable (svc : Service)

/-! ## Attempts to authenticate -/

/-- An attempt on one of the nine paths; `isSub` selects the subscriber variant. -/
inductive Attempt
  | authorize (isSub : Bool) (userName password newPassword : String)
  | isAuthorized (isSub : Bool) (token : String)
  | isValidToken (isSub : Bool) (token : String)
  | isValidApiKey (apiKey : String)
  | refreshToken (isSub : Bool) (token refreshToken : String)

namespace Attempt

/-- Whether the attempt succeeds. -/
def granted (m : Moment) (s : Storage) : Attempt → Prop
  | authorize false userName password newPassword =>
    (s.authorize svc m userName password newPassword).1.reason = some .SUCCESS
  | authorize true userName password newPassword =>
    (s.authorizeSub svc m userName password newPassword).1.reason = some .SUCCESS
  | isAuthorized isSub token =>
    (s.authServiceIsAuthorized svc m.now (some token) isSub).1.uinfo.isSome
  | isValidToken false token => (s.isValidToken svc m.now token).1.uinfo.isSome
  | isValidToken true token => (s.isValidSubToken svc m.now token).1.uinfo.isSome
  | isValidApiKey apiKey => (s.isValidApiKey svc m.now apiKey).1.uinfo.isSome
  | refreshToken false token refresh => (s.refreshUserToken svc m (some token) refresh).1.isSome
  | refreshToken true token refresh => (s.refreshSubToken svc m (some token) refresh).1.isSome

/-- The stored record of the account whose credential is presented. -/
def account (s : Storage) : Attempt → Option UserInfo
  | authorize isSub userName _ _ =>
    (((s.population isSub).getUserByEmail svc (toLower userName)).1).bind fun u ↦
      (s.population isSub).users.find? u.id
  | isAuthorized isSub token | isValidToken isSub token | refreshToken isSub token _ =>
    ((s.population isSub).tokens.resolve token).bind fun t ↦
      (s.population isSub).users.find? t.userName
  | isValidApiKey apiKey => (s.getApiKey apiKey).bind fun e ↦ s.user.users.find? e.userUuid

/-- The paths that look at `suspended`. -/
def checksSuspended : Attempt → Bool
  | authorize .. | isValidApiKey .. => true
  | _ => false

/-- A check other than those of the two flags refuses the attempt on the account `u`. -/
def refusedAnyway (m : Moment) (s : Storage) (u : UserInfo) : Attempt → Prop
  | authorize isSub userName password newPassword =>
    u.waitingForEmailCheck ∨
    validatePasswordHash svc (toLower userName) password u.currentPassword = false ∨
    (u.changePassword ∧ newPassword = "") ∨
    (newPassword ≠ "" ∧ Storage.passwordRule svc isSub newPassword = false) ∨
    ((u.changePassword ∨ newPassword ≠ "") ∧
      passwordAlreadyUsed svc u.lastPasswords (toLower u.email) newPassword u.lastPasswords
        ≠ some false)
  | isAuthorized isSub token =>
    token = "" ∨ ∃ t, (s.population isSub).tokens.resolve token = some t ∧ t.revocationDate ≠ 0
  | isValidToken isSub token =>
    ∃ t, (s.population isSub).tokens.resolve token = some t ∧ t.revocationDate ≠ 0
  | isValidApiKey apiKey => ∃ e, s.getApiKey apiKey = some e ∧ e.expiresOn < m.now
  | refreshToken isSub token refresh =>
    token = "" ∨ ∃ t, (s.population isSub).tokens.resolve token = some t ∧ t.refreshToken ≠ refresh

end Attempt

/-- A disabled account. -/
def Disabled (u : UserInfo) : Prop := u.suspended = true ∨ u.blackListed = true

/-! ## Each path by its checks -/

section Paths

variable {svc} {p : Population} {s : Storage}

/-- The tail of a login that changes the password succeeds unless the history forbids it. -/
theorem authorizeNewPassword_success_iff (m : Moment) (userName newPassword : String)
    (u : UserInfo) :
    (p.authorizeNewPassword svc m userName newPassword u).1.reason = some .SUCCESS ↔
      passwordAlreadyUsed svc u.lastPasswords (toLower u.email) newPassword u.lastPasswords =
        some false := by
  unfold Population.authorizeNewPassword setPassword
  simp only
  rcases passwordAlreadyUsed svc u.lastPasswords (toLower u.email) newPassword u.lastPasswords
    with _ | _ | _
  · simp
  · simp [Population.completeAuthorize]
  · simp

/-- A login succeeds exactly when the address is known and none of its checks refuses. -/
theorem authorizeWith_success_iff (rule : String → Bool) (m : Moment)
    (userName password newPassword : String) :
    (p.authorizeWith svc rule m userName password newPassword).1.reason = some .SUCCESS ↔
      ∃ u, (p.getUserByEmail svc (toLower userName)).1 = some u ∧ u.suspended = false ∧
        u.waitingForEmailCheck = false ∧
        validatePasswordHash svc (toLower userName) password u.currentPassword = true ∧
        ¬ (u.changePassword = true ∧ newPassword = "") ∧
        ¬ (newPassword ≠ "" ∧ rule newPassword = false) ∧
        ¬ ((u.changePassword = true ∨ newPassword ≠ "") ∧
          passwordAlreadyUsed svc u.lastPasswords (toLower u.email) newPassword u.lastPasswords
            ≠ some false) := by
  unfold Population.authorizeWith
  simp only
  rcases p.getUserByEmail svc (toLower userName) with ⟨_ | u, q⟩
  · simp
  · simp only [Option.some.injEq, exists_eq_left']
    cases hsusp : u.suspended
    case true => simp
    cases hwait : u.waitingForEmailCheck
    case true => simp
    cases hhash : validatePasswordHash svc (toLower userName) password u.currentPassword
    case false => simp
    cases hchange : u.changePassword <;> by_cases hnew : newPassword = "" <;>
      cases hrule : rule newPassword <;>
      simp [hnew, authorizeNewPassword_success_iff, Population.completeAuthorize]

/-- A refresh succeeds exactly when the token's record carries the refresh token. -/
theorem refreshTokenFor_isSome_iff (m : Moment) (token refresh : String) :
    (p.refreshTokenFor svc m token refresh).1.isSome ↔
      token ≠ "" ∧ ∃ t, p.tokens.resolve token = some t ∧ t.refreshToken = refresh := by
  unfold Population.refreshTokenFor
  by_cases ht : token = ""
  · simp [ht]
  · have hempty : token.isEmpty = false := by simpa using ht
    have hfst := p.tokens.getRecord_fst token
    simp only [hempty, Bool.false_eq_true, if_false, ne_eq, ht, not_false_eq_true, true_and]
    rcases hl : p.tokens.getRecord token with ⟨_ | t, tokens⟩
    · rw [hl] at hfst
      simp [← hfst]
    · rw [hl] at hfst
      simp only [← hfst, Option.some.injEq, exists_eq_left']
      by_cases hr : t.refreshToken = refresh <;> simp [TokenStore.webTokenOf, hr]

/-- An API key is accepted exactly when it is known and not expired, and its owner has a
record that is not suspended. -/
theorem isValidApiKey_isSome_iff (now : ℕ) (apiKey : String) :
    (s.isValidApiKey svc now apiKey).1.uinfo.isSome ↔
      ∃ e, s.getApiKey apiKey = some e ∧ ¬ e.expiresOn < now ∧
        ∃ u, (s.user.getUserById svc e.userUuid).1 = some u ∧ u.suspended = false := by
  unfold Storage.isValidApiKey Storage.onPopulation
  cases s.getApiKey apiKey with
  | none => simp
  | some e =>
    by_cases hexp : e.expiresOn < now
    · simp [hexp]
    · have hpop : s.population false = s.user := rfl
      simp only [hexp, if_false, hpop, Option.some.injEq, exists_eq_left', not_false_eq_true,
        true_and]
      rcases s.user.getUserById svc e.userUuid with ⟨_ | u, q⟩
      · simp
      · by_cases hs : u.suspended = true <;> simp [hs]

/-- The record that a login works on agrees with the account's row on all that the login
checks. -/
theorem authorizeWith_success_iff_row (hp : p.Coherent) (rule : String → Bool) (m : Moment)
    (userName password newPassword : String) {r : UserInfo}
    (hr : ((p.getUserByEmail svc (toLower userName)).1.bind fun u ↦ p.users.find? u.id) = some r) :
    (p.authorizeWith svc rule m userName password newPassword).1.reason = some .SUCCESS ↔
      r.suspended = false ∧ r.waitingForEmailCheck = false ∧
        validatePasswordHash svc (toLower userName) password r.currentPassword = true ∧
        ¬ (r.changePassword = true ∧ newPassword = "") ∧
        ¬ (newPassword ≠ "" ∧ rule newPassword = false) ∧
        ¬ ((r.changePassword = true ∨ newPassword ≠ "") ∧
          passwordAlreadyUsed svc r.lastPasswords (toLower r.email) newPassword r.lastPasswords
            ≠ some false) := by
  rw [authorizeWith_success_iff]
  obtain ⟨u, hu, hrow⟩ := Option.bind_eq_some_iff.mp hr
  obtain ⟨r', hr', hsame⟩ := hp.of_getRecordByEMail svc hu
  rw [hrow] at hr'
  obtain rfl := Option.some.inj hr'
  rw [hu]
  simp only [Option.some.injEq, exists_eq_left']
  rw [hsame]

variable (svc) in
/-- A token is accepted for the account that owns it unless it is revoked. -/
theorem checkToken_accepts_iff_row (hp : p.Coherent) (now : ℕ) {token : String} {r : UserInfo}
    (hr : ((p.tokens.resolve token).bind fun t ↦ p.users.find? t.userName) = some r) :
    (p.checkToken svc now token).1.uinfo.isSome ↔
      ¬ ∃ t, p.tokens.resolve token = some t ∧ t.revocationDate ≠ 0 := by
  obtain ⟨t, ht, hrow⟩ := Option.bind_eq_some_iff.mp hr
  rw [hp.checkToken_accepts_iff svc, ht]
  simp [hrow]

end Paths

/-! ## Which attempts on a disabled account are refused -/

/-- An attempt on an account succeeds exactly when neither the flag its path looks at nor
another check of the path refuses it. -/
theorem Attempt.granted_iff {s : Storage} (hs : s.Coherent) (m : Moment) (a : Attempt)
    {u : UserInfo} (hu : a.account svc s = some u) :
    a.granted svc m s ↔
      ¬ (a.checksSuspended = true ∧ u.suspended = true) ∧ ¬ a.refusedAnyway svc m s u := by
  cases a with
  | authorize isSub userName password newPassword =>
    have hrow := authorizeWith_success_iff_row (hs isSub)
      (Storage.passwordRule svc isSub) m userName password newPassword hu
    have hdef : Attempt.granted svc m s (.authorize isSub userName password newPassword) ↔
        ((s.population isSub).authorizeWith svc (Storage.passwordRule svc isSub) m userName
          password newPassword).1.reason = some .SUCCESS := by
      cases isSub <;> exact Iff.rfl
    rw [hdef, hrow]
    simp only [Attempt.checksSuspended, Attempt.refusedAnyway, true_and, not_or,
      Bool.not_eq_true, Bool.not_eq_false]
  | isAuthorized isSub token =>
    have hrow := checkToken_accepts_iff_row svc (hs isSub) m.now hu
    change (s.authServiceIsAuthorized svc m.now (some token) isSub).1.uinfo.isSome ↔ _
    rw [Storage.authServiceIsAuthorized_fst]
    by_cases ht : token = ""
    · simp [ht, Attempt.refusedAnyway]
    · rw [if_neg ht, hrow]
      simp [ht, Attempt.checksSuspended, Attempt.refusedAnyway]
  | isValidToken isSub token =>
    have hrow := checkToken_accepts_iff_row svc (hs isSub) m.now hu
    have hdef : Attempt.granted svc m s (.isValidToken isSub token) ↔
        ((s.population isSub).checkToken svc m.now token).1.uinfo.isSome := by
      cases isSub <;> exact Iff.rfl
    rw [hdef, hrow]
    simp [Attempt.checksSuspended, Attempt.refusedAnyway]
  | isValidApiKey apiKey =>
    obtain ⟨e, he, hrow⟩ := Option.bind_eq_some_iff.mp hu
    have hget := (hs false).getUserById_rel svc e.userUuid
    change Option.Rel SameButLogin _ (s.user.users.find? e.userUuid) at hget
    rw [hrow] at hget
    change (s.isValidApiKey svc m.now apiKey).1.uinfo.isSome ↔ _
    rw [isValidApiKey_isSome_iff, he]
    change Option.Rel SameButLogin (s.user.getUserById svc e.userUuid).1 (some u) at hget
    generalize hfound : (s.user.getUserById svc e.userUuid).1 = found at hget
    cases hget with
    | some hsame =>
      have hsusp := hsame.eq UserInfo.suspended fun _ _ ↦ rfl
      simp [Attempt.checksSuspended, Attempt.refusedAnyway, he, hfound, hsusp, and_comm]
  | refreshToken isSub token refresh =>
    obtain ⟨t, ht, -⟩ := Option.bind_eq_some_iff.mp hu
    have hdef : Attempt.granted svc m s (.refreshToken isSub token refresh) ↔
        ((s.population isSub).refreshTokenFor svc m token refresh).1.isSome := by
      cases isSub <;> exact Iff.rfl
    rw [hdef, refreshTokenFor_isSome_iff]
    simp [Attempt.checksSuspended, Attempt.refusedAnyway, ht]

/-- In every reachable state, an attempt is refused on account of a disabled owner exactly
when its path looks at `suspended` and the account is suspended, or another check of the
path refuses it.  A blacklisted account is refused on no path, and a suspended one only
where a password or an API key is presented. -/
theorem Attempt.disabled_refused_iff {s : Storage} (hs : (Storage.system svc).Reachable s)
    (m : Moment) (a : Attempt) :
    (∀ u, a.account svc s = some u → Disabled u → ¬ a.granted svc m s) ↔
      ∀ u, a.account svc s = some u → Disabled u →
        (a.checksSuspended = true ∧ u.suspended = true) ∨ a.refusedAnyway svc m s u := by
  refine forall_congr' fun u ↦ forall_congr' fun hu ↦ forall_congr' fun _ ↦ ?_
  rw [a.granted_iff svc (Storage.coherent_of_reachable svc hs) m hu]
  tauto

/-! ### The run, continued

The account of the short run is suspended while its token is still in the hands of its
owner. -/

/-- The service after the account was suspended and blacklisted. -/
def Storage.sampleDisabled (isSub : Bool) : Storage :=
  (sampleLoggedIn isSub).setPopulation isSub
    ((PopulationOp.updateUserInfo
      { sampleUser with id := "uuid-a", suspended := true, blackListed := true }).apply .sample
        (passwordRule .sample isSub) ((sampleLoggedIn isSub).population isSub))

theorem Storage.reachable_sampleDisabled (isSub : Bool) :
    (system .sample).Reachable (sampleDisabled isSub) :=
  reachable_on .sample (reachable_sampleLoggedIn isSub) isSub
    (.updateUserInfo { sampleUser with id := "uuid-a", suspended := true, blackListed := true })
    (find?_sampleLoggedIn isSub)

/-- The statement for the token of the disabled account. -/
theorem Attempt.disabled_refused_iff_sample :
    (Storage.system .sample).Reachable (Storage.sampleDisabled false) ∧
      ((∀ u, (Attempt.isAuthorized false "token-b").account .sample (Storage.sampleDisabled false) =
            some u → Disabled u →
          ¬ (Attempt.isAuthorized false "token-b").granted .sample (.sample 101 "c")
              (Storage.sampleDisabled false)) ↔
        ∀ u, (Attempt.isAuthorized false "token-b").account .sample (Storage.sampleDisabled false) =
            some u → Disabled u →
          ((Attempt.isAuthorized false "token-b").checksSuspended = true ∧ u.suspended = true) ∨
            (Attempt.isAuthorized false "token-b").refusedAnyway .sample (.sample 101 "c")
              (Storage.sampleDisabled false) u) :=
  ⟨Storage.reachable_sampleDisabled false,
    Attempt.disabled_refused_iff .sample (Storage.reachable_sampleDisabled false)
      (.sample 101 "c") (.isAuthorized false "token-b")⟩

/-- The token that was issued before still authorises the suspended and blacklisted
account. -/
theorem disabled_account_authorized :
    (Storage.system .sample).Reachable (Storage.sampleDisabled false) ∧
      (∃ u, (Attempt.isAuthorized false "token-b").account .sample
          (Storage.sampleDisabled false) = some u ∧ u.suspended = true ∧ u.blackListed = true) ∧
      (Attempt.isAuthorized false "token-b").granted .sample (.sample 101 "c")
        (Storage.sampleDisabled false) := by
  refine ⟨Storage.reachable_sampleDisabled false, ?_, ?_⟩
  · exact ⟨_, rfl, by decide, by decide⟩
  · show ((Storage.sampleDisabled false).authServiceIsAuthorized .sample 101 (some "token-b")
      false).1.uinfo.isSome = true
    decide

end OwSec
