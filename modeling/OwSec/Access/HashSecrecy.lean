import OwSec.Access.UserRuns
import OwSec.RestApi.Api
import OwSec.RestApi.HashBlindAccounts
import OwSec.RestApi.ValidateReads

/-!
# Who is shown a password hash

Two stores that differ in password hashes alone are told apart by a request whose outcome a
password decides, and by a request that is answered with a record as it is stored.  No other
request tells them apart.

The answers that show a record are those of the validation handlers and of the sign-up: the owner of
the first token that has one, the owner of the first key, the subscriber that has not completed the
sign-up yet.  The handlers of users and subscribers, the lists of both, and the session of a caller
all call `Sanitize`.
-/

namespace OwSec

open SecurityObjects Kit

namespace RestApi

/-! ## What is compared -/

/-- The handler runs one of its methods. -/
structure Admits (svc : Service) (h : Handler) (a : Arrival) (r : Request) (s : Storage) :
    Prop where
  acceptable : Acceptable h a.rateExceeded r
  granted : (authenticate svc h a.moment r s).1.granted.isSome = true

/-- The stores in which the method runs. -/
def stateOf (svc : Service) (h : Handler) (a : Arrival) (r : Request) (s : Storage) : Storage :=
  (authenticate svc h a.moment r s).2

namespace ApiRequest

/-- A password decides the outcome: a login with a password, a form that sets one, an update with
one. -/
def DecidedByPassword : ApiRequest → Prop
  | .rest .user _ r => r.method = .PUT ∧ UserHandler.setsPassword r = true
  | .rest .subuser _ r => r.method = .PUT ∧ SubUserHandler.setsPassword r = true
  | .rest _ _ _ => False
  | .session _ y _ _ r => r.method = .POST ∧
      ∃ userId password newPassword,
        LoginRequest.of y.svc.json r = .passwordLogin userId password newPassword
  | .link _ q => LinkContext.setsPassword q = true

variable (x : Installation)

/-- The method that runs is one that answers with a record as it is stored, and it finds one. -/
def Shows (a : Arrival) (r : Request) (s : Storage) : Route → Prop
  | .validateToken => ∃ token ∈ r.parameterValues "token", (s.user.tokenOwner token).isSome = true
  | .validateSubToken => ∃ token ∈ r.parameterValues "token", (s.sub.tokenOwner token).isSome = true
  | .validateApiKey => ∃ apiKey ∈ (r.parameterValues "apikey").head?,
      (s.keyOwner a.moment.now apiKey).isSome = true
  | .signup => r.method = .POST ∧ SignupHandler.Given r ∧
      validEMailAddress (r.getParameter "email") = true ∧
      ∃ u, SignupHandler.foundSub x.svc r s = some u ∧ u.waitingForEmailCheck = true
  | _ => False

/-- The request is answered with a record as it is stored. -/
def ReturnsRecord (s : LoginState) : ApiRequest → Prop
  | .rest e a r =>
    Admits x.svc (router x a.internal e) a r s.storage ∧
      Shows x a r (stateOf x.svc (router x a.internal e) a r s.storage) e
  | _ => False

/-- Other password hashes would not change the answer. -/
def Hidden (s : LoginState) (q : ApiRequest) : Prop :=
  ∀ t : LoginState, s.SameButPasswords t → (serve x q s).1 = (serve x q t).1

end ApiRequest

/-! ## Handlers that show a record -/

section Shown

variable {svc : Service} {h : Handler} {a : Arrival} {r : Request} {s : Storage}

theorem isAuthorized_recode (k : Recoding) (now : ℕ) (subOnly : Bool) (credential : Credential) :
    (isAuthorized svc now subOnly credential (s.recode k)).1.granted.isSome =
        (isAuthorized svc now subOnly credential s).1.granted.isSome ∧
      (isAuthorized svc now subOnly credential (s.recode k)).2 =
        (isAuthorized svc now subOnly credential s).2.recode k := by
  cases credential with
  | service name key => exact ⟨rfl, rfl⟩
  | apiKey key =>
    simp only [isAuthorized, s.isValidApiKey_recode svc k now key]
    simp [Recoding.check]
  | bearer token =>
    simp only [isAuthorized, s.authServiceIsAuthorized_recode svc k now token subOnly]
    simp [Recoding.check]

theorem stateOf_recode (k : Recoding) :
    stateOf svc h a r (s.recode k) = (stateOf svc h a r s).recode k := by
  unfold stateOf authenticate
  split
  · exact (isAuthorized_recode k _ _ _).2
  · rfl

/-- Which requests are let through is the same for other hashes. -/
theorem Admits.recode (hs : Admits svc h a r s) (k : Recoding) : Admits svc h a r (s.recode k) := by
  refine ⟨hs.acceptable, ?_⟩
  have hgranted := hs.granted
  unfold authenticate at hgranted ⊢
  split at hgranted
  · rw [if_pos ‹_›]
    exact (isAuthorized_recode k _ _ _).1.trans hgranted
  · rw [if_neg ‹_›]
    rfl

/-- A request that is let through reaches the method. -/
theorem Admits.exists_accept (hs : Admits svc h a r s) :
    ∃ c, acceptRequest svc h a.moment a.rateExceeded r s = (.ok c, stateOf svc h a r s) ∧
      c.request = r ∧ c.moment = a.moment := by
  obtain ⟨q, hq⟩ := hs.acceptable.parameters
  obtain ⟨caller, hcaller⟩ := Option.isSome_iff_exists.mp hs.granted
  let c : Context := ⟨r, h.internal, a.moment, caller.1, caller.2, q⟩
  have hok : acceptRequest svc h a.moment a.rateExceeded r s = (.ok c, stateOf svc h a r s) :=
    (acceptRequest_eq_ok_iff svc h a.moment a.rateExceeded r).mpr
      ⟨hs.acceptable, hcaller, rfl, rfl, rfl, rfl, hq⟩
  exact ⟨c, hok, rfl, rfl⟩

theorem Admits.of_accept {c : Context} {s' : Storage}
    (hok : acceptRequest svc h a.moment a.rateExceeded r s = (.ok c, s')) :
    Admits svc h a r s ∧ s' = stateOf svc h a r s ∧ c.request = r ∧ c.moment = a.moment := by
  obtain ⟨hacceptable, hgranted, hs', hrequest, -, hmoment, -⟩ :=
    (acceptRequest_eq_ok_iff svc h a.moment a.rateExceeded r).mp hok
  exact ⟨⟨hacceptable, by rw [hgranted]; rfl⟩, hs'.symm, hrequest, hmoment⟩

/-- A method whose answer is a function of the stores: the request hides the hashes exactly when it
is not let through to stores in which the answer shows one. -/
theorem handleRequest_hidden_iff (reply : Storage → Response) (S : Storage → Prop)
    (hreply : ∀ c s', c.request = r → c.moment = a.moment → Acceptable h a.rateExceeded r →
      Command.wp (dispatch h c) (fun b _ ↦ b = reply s') (fun b _ ↦ b = reply s') s')
    (hblind : ∀ s' t', s'.SameButPasswords t' → ¬ S s' → reply s' = reply t')
    (hshown : ∀ s', S s' → reply (s'.recode .marked) ≠ reply s') :
    (∀ t, s.SameButPasswords t →
        (handleRequest svc h a.moment a.rateExceeded r s).1 =
          (handleRequest svc h a.moment a.rateExceeded r t).1) ↔
      ¬ (Admits svc h a r s ∧ S (stateOf svc h a r s)) := by
  have hmethod {c : Context} {s s' : Storage}
      (hok : acceptRequest svc h a.moment a.rateExceeded r s = (.ok c, s')) :
      (handleRequest svc h a.moment a.rateExceeded r s).1 = reply s' := by
    obtain ⟨hadmits, -, hrequest, hmoment⟩ := Admits.of_accept hok
    rw [handleRequest_of_ok svc h a.moment a.rateExceeded r hok]
    exact answer_of_wp (P := fun b _ ↦ b = reply s')
      (hreply c s' hrequest hmoment hadmits.acceptable)
  constructor
  · rintro hhidden ⟨hadmits, hS⟩
    obtain ⟨c, hok, -⟩ := hadmits.exists_accept
    obtain ⟨d, hok', -⟩ := (hadmits.recode .marked).exists_accept
    have hsame := hhidden (s.recode .marked) (.recode s .marked)
    rw [hmethod hok, hmethod hok', stateOf_recode] at hsame
    exact hshown _ hS hsame.symm
  · intro hnot t hst
    obtain ⟨hvalue, hstate⟩ := acceptRequest_same svc h a.moment a.rateExceeded r s t hst
    generalize hs : acceptRequest svc h a.moment a.rateExceeded r s = x at hvalue hstate
    generalize ht : acceptRequest svc h a.moment a.rateExceeded r t = y at hvalue hstate
    obtain ⟨value, s'⟩ := x
    obtain ⟨value', t'⟩ := y
    cases hvalue with
    | error e =>
      rw [handleRequest_of_error svc h a.moment a.rateExceeded r hs,
        handleRequest_of_error svc h a.moment a.rateExceeded r ht]
    | ok _ =>
      obtain ⟨hadmits, rfl, -⟩ := Admits.of_accept hs
      rw [hmethod hs, hmethod ht]
      exact hblind _ _ hstate fun hS ↦ hnot ⟨hadmits, hS⟩

/-- A record with other hashes is shown differently. -/
theorem userAndPolicy_marked_ne (ui : UserInfoAndPolicy) (expiresOn expiresOn' : Option ℕ) :
    Response.userAndPolicy (Recoding.marked.info ui) expiresOn ≠ .userAndPolicy ui expiresOn' := by
  intro h
  injection h with hui
  exact Recoding.marked_record_ne ui.userinfo (congrArg UserInfoAndPolicy.userinfo hui)

variable (svc a r)

/-- The validation of tokens. -/
theorem validateToken_hidden_iff (isSub : Bool)
    (hget : h.doGet = ValidateTokenHandlers.doGet svc isSub) (hmethods : h.methods = [.GET, .OPTIONS])
    (s : Storage) :
    (∀ t, s.SameButPasswords t →
        (handleRequest svc h a.moment a.rateExceeded r s).1 =
          (handleRequest svc h a.moment a.rateExceeded r t).1) ↔
      ¬ (Admits svc h a r s ∧ ∃ token ∈ r.parameterValues "token",
        (((stateOf svc h a r s).population isSub).tokenOwner token).isSome = true) := by
  let owner (s' : Storage) : Option UserInfoAndPolicy :=
    (r.parameterValues "token").findSome? (s'.population isSub).tokenOwner
  have hrecode (k : Recoding) (s' : Storage) : owner (s'.recode k) = (owner s').map k.info := by
    have hone : ((s'.recode k).population isSub).tokenOwner =
        fun token ↦ ((s'.population isSub).tokenOwner token).map k.info := by
      funext token
      cases isSub <;> exact Population.tokenOwner_recode _ _ _
    simp only [owner, hone, List.map_findSome?]
    rfl
  have hiff (s' : Storage) : (∃ token ∈ r.parameterValues "token",
      ((s'.population isSub).tokenOwner token).isSome = true) ↔ (owner s').isSome = true :=
    List.findSome?_isSome_iff.symm
  simp only [hiff]
  refine handleRequest_hidden_iff (fun s' ↦ ValidateTokenHandlers.shownOf (owner s'))
    (fun s' ↦ (owner s').isSome = true) ?_ ?_ ?_
  · intro c s' hrequest hmoment hacceptable
    have hmethod : c.request.method = .GET := by
      have hlisted := hacceptable.listed
      have hoptions := hacceptable.notOptions
      rw [hmethods] at hlisted
      rw [hrequest]
      simpa [hoptions] using hlisted
    unfold dispatch
    rw [hmethod, hget]
    subst hrequest
    exact ValidateTokenHandlers.wp_firstValid svc isSub c.moment.now _ s'
  · intro s' t' hst hnot
    have hblank : (owner s').map Recoding.blank.info = (owner t').map Recoding.blank.info := by
      rw [← hrecode, ← hrecode, show s'.recode .blank = t'.recode .blank from hst]
    have hnone : owner s' = none := Option.not_isSome_iff_eq_none.mp hnot
    rw [hnone] at hblank
    rw [hnone, Option.map_eq_none_iff.mp hblank.symm]
  · intro s' hsome
    obtain ⟨ui, hui⟩ := Option.isSome_iff_exists.mp hsome
    rw [hrecode, hui]
    exact userAndPolicy_marked_ne ui none none

/-- Whether a key expired, and whether its user is suspended, does not depend on hashes. -/
theorem keyStatus_recode (k : Recoding) (now : ℕ) (s : Storage) (apiKey : String) :
    ValidateApiKeyHandler.keyStatus svc now (s.recode k) apiKey =
      ValidateApiKeyHandler.keyStatus svc now s apiKey := by
  unfold ValidateApiKeyHandler.keyStatus
  rw [show (s.recode k).getApiKey apiKey = s.getApiKey apiKey from rfl]
  rcases s.getApiKey apiKey with _ | entry
  · rfl
  · simp only
    split
    · rfl
    · rw [Population.getUserById_fst, Population.getUserById_fst,
        show (s.recode k).user = s.user.recode k from rfl, Population.resolveUser_recode]
      cases s.user.resolveUser entry.userUuid <;> rfl

/-- The validation of keys. -/
theorem validateApiKey_hidden_iff (internal : Bool) (s : Storage) :
    (∀ t, s.SameButPasswords t →
        (handleRequest svc (validateApiKeyHandler svc internal) a.moment a.rateExceeded r s).1 =
          (handleRequest svc (validateApiKeyHandler svc internal) a.moment a.rateExceeded r t).1) ↔
      ¬ (Admits svc (validateApiKeyHandler svc internal) a r s ∧
        ∃ apiKey ∈ (r.parameterValues "apikey").head?,
          ((stateOf svc (validateApiKeyHandler svc internal) a r s).keyOwner a.moment.now
            apiKey).isSome = true) := by
  let status (s' : Storage) (apiKey : String) : ℕ × Bool :=
    ValidateApiKeyHandler.keyStatus svc a.moment.now s' apiKey
  have hstatus {s' t' : Storage} (hst : s'.SameButPasswords t') (apiKey : String) :
      status s' apiKey = status t' apiKey := by
    have hs := keyStatus_recode svc .blank a.moment.now s' apiKey
    have ht := keyStatus_recode svc .blank a.moment.now t' apiKey
    rw [show s'.recode .blank = t'.recode .blank from hst] at hs
    exact hs.symm.trans ht
  refine handleRequest_hidden_iff
    (fun s' ↦ ((r.parameterValues "apikey").head?.map fun apiKey ↦
      ((s'.keyOwner a.moment.now apiKey).map fun ui ↦
        Response.userAndPolicy ui (some (status s' apiKey).1)).getD
          (.unAuthorized (if (status s' apiKey).2 then Errors.ACCOUNT_SUSPENDED
            else Errors.ACCESS_DENIED))).getD .notFound)
    (fun s' ↦ ∃ apiKey ∈ (r.parameterValues "apikey").head?,
      (s'.keyOwner a.moment.now apiKey).isSome = true) ?_ ?_ ?_
  · intro c s' hrequest hmoment hacceptable
    have hmethod : c.request.method = .GET := by
      have hlisted := hacceptable.listed
      have hoptions := hacceptable.notOptions
      rw [hrequest]
      simpa [validateApiKeyHandler, hoptions] using hlisted
    unfold dispatch
    rw [hmethod]
    subst hrequest
    show Command.wp (ValidateApiKeyHandler.doGet svc c) _ _ s'
    rcases hkeys : c.request.parameterValues "apikey" with _ | ⟨apiKey, rest⟩
    · unfold ValidateApiKeyHandler.doGet
      rw [hkeys]
      rfl
    · refine ValidateApiKeyHandler.wp_doGet svc c hkeys s' (fun ui hui ↦ ?_) fun hnone ↦ ?_
      · rw [hmoment] at hui ⊢
        simp [hui, status]
      · rw [hmoment] at hnone ⊢
        simp [hnone, status]
  · intro s' t' hst hnot
    rcases hkeys : (r.parameterValues "apikey").head? with _ | apiKey
    · rfl
    · have hnone : s'.keyOwner a.moment.now apiKey = none := by
        by_contra hsome
        exact hnot ⟨apiKey, hkeys, Option.isSome_iff_ne_none.mpr hsome⟩
      have hblank : (s'.keyOwner a.moment.now apiKey).map Recoding.blank.info =
          (t'.keyOwner a.moment.now apiKey).map Recoding.blank.info := by
        rw [← Storage.keyOwner_recode, ← Storage.keyOwner_recode,
          show s'.recode .blank = t'.recode .blank from hst]
      rw [hnone] at hblank
      simp [hnone, Option.map_eq_none_iff.mp hblank.symm, hstatus hst]
  · rintro s' ⟨apiKey, hkey, hsome⟩
    obtain ⟨ui, hui⟩ := Option.isSome_iff_exists.mp hsome
    rw [Option.mem_def] at hkey
    simp only [hkey, Storage.keyOwner_recode, hui, Option.map_some, Option.getD_some]
    exact userAndPolicy_marked_ne ui _ _

/-- The sign-up. -/
theorem signup_hidden_iff (internal : Bool) (s : Storage) :
    (∀ t, s.SameButPasswords t →
        (handleRequest svc (signupHandler svc internal) a.moment a.rateExceeded r s).1 =
          (handleRequest svc (signupHandler svc internal) a.moment a.rateExceeded r t).1) ↔
      ¬ (Admits svc (signupHandler svc internal) a r s ∧ r.method = .POST ∧ SignupHandler.Given r ∧
        validEMailAddress (r.getParameter "email") = true ∧
        ∃ u, SignupHandler.foundSub svc r (stateOf svc (signupHandler svc internal) a r s) = some u ∧
          u.waitingForEmailCheck = true) := by
  have hfound (k : Recoding) (s' : Storage) : SignupHandler.foundSub svc r (s'.recode k) =
      (SignupHandler.foundSub svc r s').map k.record := SignupHandler.foundSub_recode svc k r s'
  refine handleRequest_hidden_iff
    (fun s' ↦ if r.method = .POST then
      SignupHandler.replyTo a.moment r (SignupHandler.foundSub svc r s') else .nothing)
    (fun s' ↦ r.method = .POST ∧ SignupHandler.Given r ∧
      validEMailAddress (r.getParameter "email") = true ∧
      ∃ u, SignupHandler.foundSub svc r s' = some u ∧ u.waitingForEmailCheck = true) ?_ ?_ ?_
  · intro c s' hrequest hmoment hacceptable
    have hlisted := hacceptable.listed
    have hoptions := hacceptable.notOptions
    subst hrequest
    rw [← hmoment]
    unfold dispatch
    by_cases hpost : c.request.method = .POST
    · simp only [hpost, if_true]
      exact SignupHandler.wp_doPost svc c s'
    · -- the source leaves the PUT to be done
      have hput : c.request.method = .PUT := by
        simpa [signupHandler, hoptions, hpost] using hlisted
      simp only [hput, reduceCtorEq, if_false]
      rfl
  · intro s' t' hst hnot
    by_cases hpost : r.method = .POST
    · have hblank : (SignupHandler.foundSub svc r s').map Recoding.blank.record =
          (SignupHandler.foundSub svc r t').map Recoding.blank.record := by
        rw [← hfound, ← hfound, show s'.recode .blank = t'.recode .blank from hst]
      rw [if_pos hpost, if_pos hpost]
      have hsub := UserInfo.SameButPasswords.option hblank
      generalize SignupHandler.foundSub svc r s' = o at hsub hnot ⊢
      generalize SignupHandler.foundSub svc r t' = o' at hsub ⊢
      cases hsub with
      | none => rfl
      | some huv =>
        obtain ⟨hash, hashes, rfl⟩ := huv.exists_eq
        rename_i u
        unfold SignupHandler.replyTo
        split
        · rfl
        split
        · rfl
        · rename_i hgiven hvalid
          have hwaiting : ¬ u.waitingForEmailCheck = true := fun hwaiting ↦
            hnot ⟨hpost, not_not.mp hgiven, by simpa using hvalid, u, rfl, hwaiting⟩
          simp only [if_neg hwaiting]
          exact (if_neg hwaiting).symm
    · rw [if_neg hpost, if_neg hpost]
  · rintro s' ⟨hpost, hgiven, hvalid, u, hu, hwaiting⟩
    have hwaiting' : (Recoding.marked.record u).waitingForEmailCheck = true := hwaiting
    simp only [if_pos hpost, hfound, hu, SignupHandler.replyTo, if_neg (not_not.mpr hgiven), hvalid,
      Option.map_some, hwaiting, hwaiting', if_true]
    intro h
    injection h with hrecord
    exact Recoding.marked_record_ne u hrecord

end Shown

/-! ## The other handlers -/

section Blind

variable (x : Installation) (internal : Bool) {c d : Context}

/-- The handlers that show no record as it is stored. -/
def Route.Sanitizes : Route → Prop
  | .validateToken | .validateSubToken | .validateApiKey | .signup => False
  | _ => True

/-- Each of their methods answers in the same way, but for an update with a password. -/
theorem router_dispatch_same {e : Route} (he : e.Sanitizes) (hcd : c.SameButPasswords d)
    (huser : e = .user → c.request.method = .PUT → UserHandler.setsPassword c.request = false)
    (hsubuser : e = .subuser → c.request.method = .PUT →
      SubUserHandler.setsPassword c.request = false) :
    SameReply (dispatch (router x internal e) c) (dispatch (router x internal e) d) := by
  cases e with
  | user =>
    exact dispatch_same hcd (UserHandler.doGet_same x.svc hcd) (UserHandler.doPost_same x.svc hcd)
      (fun hput ↦ UserHandler.doPut_same x.svc hcd (huser rfl hput))
      (UserHandler.doDelete_same x.svc hcd)
  | subuser =>
    exact dispatch_same hcd (SubUserHandler.doGet_same x.svc hcd)
      (SubUserHandler.doPost_same x.svc hcd)
      (fun hput ↦ SubUserHandler.doPut_same x.svc hcd (hsubuser rfl hput))
      (SubUserHandler.doDelete_same x.svc hcd)
  | users =>
    exact dispatch_same hcd (UsersHandler.doGet_same x.svc hcd) (.pure rfl) (fun _ ↦ .pure rfl)
      (.pure rfl)
  | subusers =>
    exact dispatch_same hcd (SubUsersHandler.doGet_same x.svc hcd) (.pure rfl) (fun _ ↦ .pure rfl)
      (.pure rfl)
  | systemCommand =>
    exact dispatch_same hcd (SystemCommandHandler.doGet_same x.process hcd)
      (SystemCommandHandler.doPost_same x.svc x.process hcd) (fun _ ↦ .pure rfl) (.pure rfl)
  | systemConfiguration =>
    exact dispatch_same hcd (SystemConfigurationHandler.doGet_same x.process hcd) (.pure rfl)
      (fun _ ↦ SystemConfigurationHandler.refuse_same hcd)
      (SystemConfigurationHandler.refuse_same hcd)
  | assetServer =>
    refine dispatch_same hcd ?_ (.pure rfl) (fun _ ↦ .pure rfl) (.pure rfl)
    obtain ⟨hash, hashes, rfl⟩ := hcd
    exact .bind_eq (.orStop_eq _ _) fun _ ↦ .pure rfl
  | systemEndpoints =>
    exact dispatch_same hcd (.pure rfl) (.pure rfl) (fun _ ↦ .pure rfl) (.pure rfl)
  | avatar part | subavatar part =>
    exact dispatch_same hcd (AvatarHandlers.doGet_same _ hcd)
      (AvatarHandlers.doPost_same x.svc _ x.avatarMaxSize part hcd) (fun _ ↦ .pure rfl)
      (AvatarHandlers.doDelete_same x.svc _ hcd)
  | email =>
    exact dispatch_same hcd (.pure rfl) (EmailHandler.doPost_same x.svc hcd) (fun _ ↦ .pure rfl)
      (.pure rfl)
  | sms =>
    exact dispatch_same hcd (.pure rfl) (SmsHandler.doPost_same x.svc x.gateway hcd)
      (fun _ ↦ .pure rfl) (.pure rfl)
  | preferences | subpreferences =>
    exact dispatch_same hcd (PreferencesHandlers.doGet_same _ hcd) (.pure rfl)
      (fun _ ↦ PreferencesHandlers.doPut_same x.svc _ hcd) (.pure rfl)
  | submfa =>
    exact dispatch_same hcd (SubMfaHandler.doGet_same x.svc hcd) (.pure rfl)
      (fun _ ↦ SubMfaHandler.doPut_same x.svc x.gateway hcd) (.pure rfl)
  | totp | subtotp =>
    exact dispatch_same hcd (TotpHandlers.doGet_same x.source _ hcd) (.pure rfl)
      (fun _ ↦ TotpHandlers.doPut_same x.source _ hcd) (.pure rfl)
  | webSocketServer =>
    cases internal <;>
      exact dispatch_same hcd (.pure rfl) (.pure rfl) (fun _ ↦ .pure rfl) (.pure rfl)
  | apiKey =>
    cases internal
    · exact dispatch_same hcd (ApiKeyHandler.doGet_same hcd) (ApiKeyHandler.doPost_same x.svc hcd)
        (fun _ ↦ ApiKeyHandler.doPut_same x.svc hcd) (ApiKeyHandler.doDelete_same x.svc hcd)
    · exact dispatch_same hcd (.pure rfl) (.pure rfl) (fun _ ↦ .pure rfl) (.pure rfl)
  | systemSecret =>
    exact dispatch_same hcd (SystemSecretHandler.doGet_same hcd) (.pure rfl)
      (fun _ ↦ SystemSecretHandler.doPut_same hcd) (SystemSecretHandler.doDelete_same hcd)
  | unknown => exact dispatch_same hcd (.pure rfl) (.pure rfl) (fun _ ↦ .pure rfl) (.pure rfl)
  | validateToken | validateSubToken | validateApiKey | signup => exact he.elim

end Blind

/-! ## Every request -/

namespace ApiRequest

variable (x : Installation)

/-- A request that a handler serves hides hashes when the handler does. -/
theorem hidden_rest_iff {s : LoginState} {e : Route} {a : Arrival} {r : Request} :
    Hidden x s (.rest e a r) ↔ ∀ t, s.storage.SameButPasswords t →
      (handleRequest x.svc (router x a.internal e) a.moment a.rateExceeded r s.storage).1 =
        (handleRequest x.svc (router x a.internal e) a.moment a.rateExceeded r t).1 := by
  constructor
  · intro hhidden t hst
    have hsame := hhidden { s with storage := t } ⟨hst, rfl⟩
    injection hsame with hanswer
    injection hanswer
  · intro hhandler t hst
    exact congrArg (fun reply ↦ ApiReply.answer (.response reply)) (hhandler t.storage hst.storage)

/-- What an installation for examples has besides its service. -/
def sampleInstallation : Installation where
  svc := .sample
  process :=
    { asset := fun _ ↦ none
      endpoints := ""
      info := fun _ ↦ ""
      logging := fun _ ↦ ""
      readableSubsystems := fun _ ↦ true
      config := fun _ ↦ "" }
  gateway := { challenge := "123456", send := fun _ _ ↦ true }
  source := { lib := .sample, random := fun _ ↦ '0'.toNat }
  avatarMaxSize := 2000000

/-- The stores with one user, whose password hash is the given one. -/
def sampleHashed (hash : String) : LoginState where
  storage :=
    { user :=
        { users :=
            { rows := [{ sampleUser "jo" .CSR with currentPassword := hash }]
              nodup := List.nodup_singleton _ }
          tokens := { rows := { rows := [sampleToken "jo"], nodup := List.nodup_singleton _ } } } }

/-- A request of the user to the public router. -/
def sampleAsking (e : Route) (parameters bindings : List (String × String)) : ApiRequest :=
  .rest e { internal := false, rateExceeded := false, moment := .sample 100 "a" }
    { method := .GET, bearer := some "token-jo", parameters, bindings }

end ApiRequest

end RestApi

end OwSec
