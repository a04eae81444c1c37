import OwSec.Access.LinkKinds
import OwSec.Auth.DisabledAccounts
import OwSec.RestApi.RecordRequests

/-!
# The rules for passwords

Users and subscribers have password rules of their own, two expressions of the configuration
that are taken here as arbitrary predicates.  A password is set by a creation, by an update, by
a login with a new password, by the form behind a reset link and by the form that completes a
sign-up, for either population.  `Lawful` says what this should mean for a single request: what
it stores satisfies the rule of the population, and it refuses a password in the name of the
rules only where that rule does.

The form behind a reset link serves both populations and asks the rule of the users for both.
So the law fails exactly for the links of subscribers on which the two rules disagree, and this
cannot be seen as long as both have their default.
-/

namespace OwSec

open SecurityObjects Kit RestApi Storage

namespace PasswordRules

/-- What a request is answered. -/
inductive Reply
  | rest (r : Response)
  | login (a : LoginAnswer)
  | link (a : LinkReply)

section Law

variable (svc : Service)

/-- The answer to a request. -/
def reply (s : Storage) : RecordRequest → Reply
  | .rest e internal env r =>
    .rest (handleRequest svc (e.handler svc env internal) env.moment env.rateExceeded r s).1
  | .login isSub x challenges r =>
    .login (({ x with svc } : LoginContext).doPostWith isSub r { storage := s, challenges }).1
  | .link x req => .link (({ x with svc } : LinkContext).handle s req).1

/-- The form resets a password. -/
def isReset (r : Request) : Prop :=
  r.getParameter "action" = "password_reset" ∨ r.getParameter "action" = "sub_password_reset"

instance (r : Request) : Decidable (isReset r) := inferInstanceAs (Decidable (_ ∨ _))

/-- The password in the body of a creation or of an update. -/
def askedInBody (r : Request) : Option String :=
  match r.method with
  | .POST => (UserInfo.fromJson svc.json r.body.parsed).bind fun body ↦
      if body.currentPassword = "" then none else some body.currentPassword
  | .PUT => passwordAsked svc.json (r.body.parsed.getD [])
  | _ => none

/-- The password that a request wants to set, and whether it is for a subscriber. -/
def asked (s : Storage) : RecordRequest → Option (Bool × String)
  | .rest .user _ _ r => (askedInBody svc r).map (false, ·)
  | .rest .subuser _ _ r => (askedInBody svc r).map (true, ·)
  | .login isSub _ _ r =>
    match LoginRequest.of svc.json r with
    | .passwordLogin _ _ newPassword => if newPassword = "" then none else some (isSub, newPassword)
    | _ => none
  | .link _ (.post r form) =>
    if isReset r then
      (s.getActionLink (formGet form "id" "")).map fun link ↦
        (!link.userAction, formGet form "password1" "bla")
    else if r.getParameter "action" = "signup_completion" then
      some (true, formGet form "password1" "bla")
    else none
  | _ => none

/-- An update that resets the second factor does not look at the body. -/
def resetsMfa : EndPoint → Request → Bool
  | .user, r => r.method == .PUT && r.getParameter "resetMFA" == "true"
  | .subuser, r => r.method == .PUT && r.getBoolParameter "resetMFA"
  | _, _ => false

/-- The login has succeeded, up to a second factor. -/
def isGranted : LoginAnswer → Bool
  | .token .. | .challenge _ => true
  | _ => false

/-- The form was completed. -/
def isDone : LinkReply → Bool
  | .page file _ => file == "/password_reset_success.html"
  | .signedUp .. => true
  | _ => false

/-- The request is answered as one that has set the password it asks for. -/
def Succeeds (s : Storage) : RecordRequest → Prop
  | q@(.rest e _ _ r) => resetsMfa e r = false ∧ ∃ u, reply svc s q = .rest (.user u)
  | q@(.login ..) => ∃ a, reply svc s q = .login a ∧ isGranted a = true
  | q@(.link ..) => ∃ a, reply svc s q = .link a ∧ isDone a = true

/-- The request is refused, and the reason that is given is the rules for passwords. -/
def RefusedByRule (s : Storage) : RecordRequest → Prop
  | q@(.rest ..) => reply svc s q = .rest (.badRequest Errors.InvalidPassword)
  | q@(.login ..) => reply svc s q = .login (.response (.unAuthorized Errors.PASSWORD_INVALID))
  | q@(.link x (.post _ form)) =>
    -- the same page tells of two passwords that do not match
    formGet form "password1" "bla" = formGet form "password2" "blu" ∧
      ∃ file id, (file = "/password_reset_error.html" ∨ file = "/sub_password_reset_error.html") ∧
        reply svc s q = .link (x.errorPage file id (LinkContext.passwordMismatchText id))
  | .link _ (.get _) => False

/-- The hash of the password is that of the record. -/
def HashOf (password : String) (v : UserInfo) : Prop :=
  ∃ salt, v.currentPassword = computeNewPasswordHash svc salt v.email password

/-- The rules are enforced by a request: each population has its own. -/
structure Lawful (s : Storage) (q : RecordRequest) : Prop where
  /-- A password that a record did not have before is the one that was asked for. -/
  stored : ∀ isSub, ∀ v ∈ ((q.run svc s).population isSub).records, v.currentPassword ≠ "" →
    (∃ u ∈ (s.population isSub).records, u.id = v.id ∧ u.currentPassword = v.currentPassword) ∨
      ∃ password, asked svc s q = some (isSub, password) ∧ HashOf svc password v ∧
        passwordRule svc isSub password = true
  accepted : ∀ isSub password, asked svc s q = some (isSub, password) → Succeeds svc s q →
    passwordRule svc isSub password = true
  refused : ∀ isSub password, asked svc s q = some (isSub, password) → RefusedByRule svc s q →
    passwordRule svc isSub password = false

/-- A form with one password, given twice, behind a link that was sent to a subscriber to reset
the password, in time. -/
structure SubReset (x : LinkContext) (s : Storage) (r : Request) (form : List (String × String))
    (link : ActionLink) : Prop where
  action : isReset r
  nonempty : form.isEmpty = false
  found : s.getActionLink (formGet form "id" "") = some link
  inTime : x.moment.now ≤ link.expires
  kind : validSubscriberAction link = true
  same : formGet form "password1" "bla" = formGet form "password2" "blu"

/-- The two rules disagree on the password for a subscriber. -/
inductive Misjudged (s : Storage) : RecordRequest → Prop
  /-- The password is refused. -/
  | refused {x : LinkContext} {r : Request} {form : List (String × String)} {link : ActionLink}
    (h : SubReset x s r form link)
    (huser : validatePassword svc (formGet form "password1" "bla") = false)
    (hsub : validateSubPassword svc (formGet form "password1" "bla") = true) :
    Misjudged s (.link x (.post r form))
  /-- The password is set: the account is enabled and has not used it lately. -/
  | accepted {x : LinkContext} {r : Request} {form : List (String × String)} {link : ActionLink}
    {u : UserInfo} (h : SubReset x s r form link)
    (huser : validatePassword svc (formGet form "password1" "bla") = true)
    (hsub : validateSubPassword svc (formGet form "password1" "bla") = false)
    (hfound : (s.sub.getUserById svc link.userId).1 = some u)
    (henabled : u.blackListed = false ∧ u.suspended = false)
    (hunused : passwordAlreadyUsed svc u.lastPasswords (toLower u.email)
      (formGet form "password1" "bla") u.lastPasswords = some false) :
    Misjudged s (.link x (.post r form))

end Law

/-! ## What is asked for -/

section Asked

variable {svc : Service} {s : Storage}

theorem asked_user (internal : Bool) (env : Surroundings) (r : Request) :
    asked svc s (.rest .user internal env r) = (askedInBody svc r).map (false, ·) := rfl

theorem asked_subuser (internal : Bool) (env : Surroundings) (r : Request) :
    asked svc s (.rest .subuser internal env r) = (askedInBody svc r).map (true, ·) := rfl

/-- The password that a creation asks for is the one in the body. -/
theorem askedInBody_post {r : Request} {body : UserInfo} (hm : r.method = .POST)
    (hbody : UserInfo.fromJson svc.json r.body.parsed = some body)
    (hset : body.currentPassword ≠ "") : askedInBody svc r = some body.currentPassword := by
  unfold askedInBody
  simp only [hm, hbody, Option.bind_some, if_neg hset]

theorem askedInBody_put {r : Request} (hm : r.method = .PUT) :
    askedInBody svc r = passwordAsked svc.json (r.body.parsed.getD []) := by
  unfold askedInBody
  simp only [hm]

theorem asked_login {isSub : Bool} {x : LoginContext} {challenges : MFAChallengeCache}
    {r : Request} {userId password newPassword : String}
    (hkind : LoginRequest.of svc.json r = .passwordLogin userId password newPassword)
    (hset : newPassword ≠ "") :
    asked svc s (.login isSub x challenges r) = some (isSub, newPassword) := by
  unfold asked
  simp only [hkind, if_neg hset]

theorem asked_reset {x : LinkContext} {r : Request} {form : List (String × String)}
    {link : ActionLink} (haction : isReset r)
    (hlink : s.getActionLink (formGet form "id" "") = some link) :
    asked svc s (.link x (.post r form)) =
      some (!link.userAction, formGet form "password1" "bla") := by
  unfold asked
  simp only [if_pos haction, hlink, Option.map_some]

theorem asked_signup {x : LinkContext} {r : Request} {form : List (String × String)}
    (haction : r.getParameter "action" = "signup_completion") :
    asked svc s (.link x (.post r form)) = some (true, formGet form "password1" "bla") := by
  have hnot : ¬ isReset r := by
    unfold isReset
    rw [haction]
    decide
  unfold asked
  simp only [if_neg hnot, if_pos haction]

end Asked

/-! ## What is stored -/

section Stored

variable {svc : Service} {s : Storage} {q : RecordRequest} {isSub : Bool}

/-- The password of the record is from before, or it is the one that was asked for. -/
def Accounted (svc : Service) (s : Storage) (q : RecordRequest) (isSub : Bool) (v : UserInfo) :
    Prop :=
  v.currentPassword ≠ "" →
    (∃ u ∈ (s.population isSub).records, u.id = v.id ∧ u.currentPassword = v.currentPassword) ∨
      ∃ password, asked svc s q = some (isSub, password) ∧ HashOf svc password v ∧
        passwordRule svc isSub password = true

/-- The same as an invariant of records. -/
def invariant (svc : Service) (s : Storage) (q : RecordRequest) : RecordInvariant where
  record := Accounted svc s q
  enrolment _ _ := True
  insensitive isSub u v hcore hu := by
    have hid : v.id = u.id := congrArg RecordCore.id hcore
    have hemail : v.email = u.email := congrArg RecordCore.email hcore
    have hcurrent : v.currentPassword = u.currentPassword :=
      congrArg RecordCore.currentPassword hcore
    unfold Accounted HashOf at hu ⊢
    rw [hid, hemail, hcurrent]
    exact hu

/-- At the start every password is from before. -/
theorem satisfies_self (svc : Service) (s : Storage) (q : RecordRequest) :
    s.Satisfies (invariant svc s q) where
  records _ v hv _ := .inl ⟨v, hv, rfl, rfl⟩
  enrolments _ _ _ := trivial

/-- A password that is set is the one that was asked for. -/
theorem keptByPassword {salt : String} {allowed : String → Prop}
    (h : ∀ password, allowed password →
      asked svc s q = some (isSub, password) ∧ passwordRule svc isSub password = true) :
    KeptByPassword svc (invariant svc s q) isSub salt allowed := by
  intro u v password _ hallowed hset _
  obtain ⟨hasked, hrule⟩ := h password hallowed
  have hemail : v.email = toLower u.email := by rw [setPassword_applied svc hset]
  refine .inr ⟨password, hasked, ⟨salt, ?_⟩, hrule⟩
  rw [setPassword_currentPassword hset, hemail]

/-- A new record has the hash of the password that it is created with. -/
theorem newRecord_password (m : Moment) (u : UserInfo) :
    (u.currentPassword = "" ∧ (Population.newRecord svc m u).currentPassword = "") ∨
      u.currentPassword ≠ "" ∧ HashOf svc u.currentPassword (Population.newRecord svc m u) := by
  unfold Population.newRecord
  simp only
  split
  · rename_i hempty
    have hcurrent : u.currentPassword = "" := by simpa using hempty
    exact .inl ⟨hcurrent, hcurrent⟩
  · rename_i hset
    exact .inr ⟨by simpa using hset, m.salt, rfl⟩

/-- The password of a new record is the one that was asked for. -/
theorem keptByCreation {m : Moment} {body : UserInfo}
    (h : body.currentPassword ≠ "" → asked svc s q = some (isSub, body.currentPassword) ∧
      passwordRule svc isSub body.currentPassword = true) :
    KeptByCreation svc (invariant svc s q) isSub m body := by
  intro new hnew hset
  rcases newRecord_password m new with ⟨-, hempty⟩ | ⟨hpassword, hhash⟩
  · exact absurd hempty hset
  · rw [hnew.currentPassword] at hpassword hhash
    obtain ⟨hasked, hrule⟩ := h hpassword
    exact .inr ⟨_, hasked, hhash, hrule⟩

/-- An update sets only the password that was asked for. -/
theorem keptByUpdate {c : Context} {s' : Storage} (hm : c.request.method = .PUT)
    (hasked : asked svc s q = (askedInBody svc c.request).map (isSub, ·)) :
    KeptByUpdate svc (invariant svc s q) isSub c s' where
  password := keptByPassword fun password hallowed ↦ by
    refine ⟨?_, hallowed.2⟩
    rw [hasked, askedInBody_put hm, hallowed.1, Option.map_some]
  mfa _ found _ := .of_indifferent (fun _ _ hu ↦ hu) _ _ _ found
  reset _ hu := hu

/-- Where the rules agree on the password, a link sets only what the rule of the record's
population allows. -/
theorem accounted_of_updates {x : LinkContext} {req : LinkRequest} {link : ActionLink}
    {userAction : Bool} {u u' : UserInfo} (hnot : ¬ Misjudged svc s (.link x req))
    (hup : Updates { x with svc } s req link userAction u u')
    (hu : (invariant svc s (.link x req)).record (!userAction) u) :
    (invariant svc s (.link x req)).record (!userAction) u' := by
  cases hup with
  | @reset r form _ _ u₁ haction hform hlink htime hkind hsame hrule hfound henabled hset =>
    refine (invariant svc s (.link x _)).insensitive _ u₁ _
      (LinkContext.core_resetRecord { x with svc } link u₁) ?_
    have hkept (hrule' : passwordRule svc (!link.userAction) (formGet form "password1" "bla") =
        true) : KeptByPassword svc (invariant svc s (.link x (.post r form))) (!link.userAction)
          x.moment.salt (· = formGet form "password1" "bla") := by
      refine keptByPassword ?_
      rintro _ rfl
      exact ⟨asked_reset haction hlink, hrule'⟩
    refine hkept ?_ u u₁ _ hu rfl hset
    rcases huser : link.userAction with _ | _
    · -- a link of a subscriber: the rules agree
      have hkind' : validSubscriberAction link = true := by
        rcases hkind with hkind | hkind
        · unfold validUserAction at hkind
          rw [huser] at hkind
          cases hkind
        · exact hkind
      rw [huser] at hfound
      by_contra hsub
      rw [Bool.not_eq_true] at hsub
      refine hnot (.accepted ⟨haction, hform, hlink, htime, hkind', hsame⟩ hrule hsub hfound
        henabled ?_)
      unfold setPassword at hset
      simp only at hset
      split at hset
      · cases hset
      · cases hset
      · assumption
    · exact hrule
  | @signup r form _ _ u₁ haction _ _ _ _ hrule _ _ hset =>
    have hkept : KeptByPassword svc (invariant svc s (.link x (.post r form))) true x.moment.salt
        (· = formGet form "password1" "bla") := by
      refine keptByPassword ?_
      rintro _ rfl
      exact ⟨asked_signup haction, hrule⟩
    exact hkept u u₁ _ hu rfl hset
  | verify => exact hu

/-- Whatever a request stores as a password was asked for, and the rule of the population allows
it, unless the rules disagree on the password for a link of a subscriber. -/
theorem stored_of_not_misjudged (hnot : ¬ Misjudged svc s q) :
    (q.run svc s).Satisfies (invariant svc s q) := by
  refine RecordRequest.satisfies_run (satisfies_self svc s q) ?_
  cases q with
  | rest e internal env r =>
    intro c hc
    cases e with
    | user =>
      refine ⟨fun hm body hcreates ↦ keptByCreation fun hset ↦ ?_,
        fun hm ↦ ⟨fun _ _ hu _ ↦ hu, keptByUpdate hm (by rw [hc.request]; rfl)⟩⟩
      have hpost := askedInBody_post hm hcreates.parsed hset
      rw [hc.request] at hpost
      refine ⟨?_, hcreates.rule.resolve_left hset⟩
      rw [asked_user, hpost, Option.map_some]
    | subuser =>
      refine ⟨fun hm body hcreates ↦ keptByCreation fun hset ↦ ?_,
        fun hm ↦ ⟨fun _ _ _ _ hu _ ↦ hu, keptByUpdate hm (by rw [hc.request]; rfl)⟩⟩
      have hpost := askedInBody_post hm hcreates.parsed hset
      rw [hc.request] at hpost
      refine ⟨?_, hcreates.rule.resolve_left hset⟩
      rw [asked_subuser, hpost, Option.map_some]
    | signup => exact fun _ _ _ _ hset ↦ absurd rfl hset
    | submfa =>
      exact fun _ ↦ ⟨fun hset ↦ absurd rfl hset, fun _ hu ↦ hu, fun _ hu ↦ hu, fun _ _ hu ↦ hu⟩
    | totp => exact ⟨trivial, fun _ _ _ _ ↦ trivial, fun _ _ _ ↦ trivial⟩
    | subtotp => exact ⟨trivial, fun _ _ _ _ ↦ trivial, fun _ _ _ ↦ trivial⟩
  | login isSub x challenges r =>
    intro userId password newPassword hkind
    refine keptByPassword ?_
    rintro _ ⟨rfl, hset, hrule⟩
    exact ⟨asked_login hkind hset, hrule⟩
  | link x req => exact fun link userAction u u' hup hu ↦ accounted_of_updates hnot hup hu

end Stored

/-! ## The answers to creations and updates -/

/-- The answer fits the rule: success only where the rule allows the password, unless the update
was about the second factor, and a refusal in the name of the rules only where it does not. -/
structure Judged (allowed resets : Bool) (a : Response) : Prop where
  success : ∀ u, a = .user u → resets = false → allowed = true
  refusal : a = .badRequest Errors.InvalidPassword → allowed = false

/-- An answer that is neither a record nor a refusal in the name of the rules. -/
def isOther : Response → Bool
  | .user _ => false
  | a => a != .badRequest Errors.InvalidPassword

section Judged

variable {svc : Service} {s : Storage} {c : Context} {allowed resets : Bool} {password : String}

theorem judged_other {a : Response} (h : isOther a = true) : Judged allowed resets a where
  success u hu := by
    subst hu
    cases h
  refusal hrefused := by
    subst hrefused
    cases h

theorem judged_allowed {a : Response} (hallowed : allowed = true)
    (h : a ≠ .badRequest Errors.InvalidPassword) : Judged allowed resets a where
  success _ _ _ := hallowed
  refusal hrefused := absurd hrefused h

theorem judged_refused (hrefused : allowed = false) :
    Judged allowed resets (.badRequest Errors.InvalidPassword) where
  success _ h := by cases h
  refusal _ := hrefused

theorem judged_turnedAway {a : Response} (h : a.TurnedAway) : Judged allowed resets a := by
  cases h with
  | malformed => exact judged_other rfl
  | unauthorized => exact judged_other rfl
  | options => exact judged_other rfl
  | notListed => exact judged_other rfl
  | uncaught => exact judged_other rfl

/-- What a body asks a creation to set. -/
theorem body_of_asked {r : Request} (hm : r.method = .POST)
    (hasked : askedInBody svc r = some password) :
    ∃ body, UserInfo.fromJson svc.json r.body.parsed = some body ∧
      body.currentPassword = password ∧ password ≠ "" := by
  unfold askedInBody at hasked
  simp only [hm, Option.bind_eq_some_iff] at hasked
  obtain ⟨body, hbody, hpassword⟩ := hasked
  split at hpassword
  · cases hpassword
  · rename_i hset
    cases hpassword
    exact ⟨body, hbody, rfl, hset⟩

theorem judged_user_doPost (hm : c.request.method = .POST)
    (hasked : askedInBody svc c.request = some password) :
    Command.wp (UserHandler.doPost svc c)
      (fun a _ ↦ Judged (passwordRule svc false password) resets a)
      (fun a _ ↦ Judged (passwordRule svc false password) resets a) s := by
  obtain ⟨body, hbody, rfl, hset⟩ := body_of_asked hm hasked
  have hguard : (body.currentPassword.isEmpty || validatePassword svc body.currentPassword) =
      passwordRule svc false body.currentPassword := by simp [hset, passwordRule]
  unfold UserHandler.doPost UserHandler.getUserByEmail UserHandler.createUser
    UserHandler.verifyEmail UserHandler.updateUserInfo
  simp only [Command.wp_bind, Command.wp_ensure, Command.wp_orStop, Command.wp_pure,
    Command.wp_ite, Command.wp_act, hbody]
  refine ⟨fun _ ↦ ⟨?_, fun _ ↦ judged_other rfl⟩, fun _ ↦ judged_other rfl⟩
  rintro _ ⟨⟩
  simp only [hguard]
  refine ⟨fun _ ↦ ⟨fun _ ↦ ⟨fun _ ↦ ⟨fun _ ↦ ⟨fun hrule ↦ ⟨fun _ _ ↦ ⟨fun _ ↦ ⟨fun _ _ ↦ ?_,
    fun _ ↦ judged_other rfl⟩, fun _ ↦ ⟨fun _ _ ↦ ?_, fun _ ↦ judged_other rfl⟩⟩,
    fun _ ↦ judged_other rfl⟩, fun hrule ↦ ?_⟩, fun _ ↦ judged_other rfl⟩,
    fun _ ↦ judged_other rfl⟩, fun _ ↦ judged_other rfl⟩,
    fun _ ↦ judged_other rfl⟩
  · refine judged_allowed hrule fun hrefused ↦ ?_
    cases hrefused
  · refine judged_allowed hrule fun hrefused ↦ ?_
    cases hrefused
  · exact judged_refused hrule

theorem judged_subuser_doPost (hm : c.request.method = .POST)
    (hasked : askedInBody svc c.request = some password) :
    Command.wp (SubUserHandler.doPost svc c)
      (fun a _ ↦ Judged (passwordRule svc true password) resets a)
      (fun a _ ↦ Judged (passwordRule svc true password) resets a) s := by
  obtain ⟨body, hbody, rfl, hset⟩ := body_of_asked hm hasked
  have hguard : (body.currentPassword.isEmpty || validateSubPassword svc body.currentPassword) =
      passwordRule svc true body.currentPassword := by simp [hset, passwordRule]
  unfold SubUserHandler.doPost UserHandler.getUserByEmail SubUserHandler.createUser
    SubUserHandler.reportCreated SubUserHandler.verifySubEmail SubUserHandler.updateUserInfo
    UserHandler.getUserByEmail
  simp only [Command.wp_bind, Command.wp_ensure, Command.wp_orStop, Command.wp_pure,
    Command.wp_ite, Command.wp_act, hbody]
  refine ⟨fun _ ↦ ⟨?_, fun _ ↦ judged_other rfl⟩, fun _ ↦ judged_other rfl⟩
  rintro _ ⟨⟩
  simp only [hguard]
  refine ⟨fun _ ↦ ⟨fun _ ↦ ⟨fun _ ↦ ⟨fun _ ↦ ⟨fun hrule ↦ ⟨fun _ _ ↦ ⟨fun _ ↦ ⟨fun _ _ ↦ ?_,
    fun _ ↦ judged_other rfl⟩, fun _ ↦ ⟨fun _ _ ↦ ?_, fun _ ↦ judged_other rfl⟩⟩,
    fun _ ↦ judged_other rfl⟩, fun hrule ↦ ?_⟩, fun _ ↦ judged_other rfl⟩,
    fun _ ↦ judged_other rfl⟩, fun _ ↦ judged_other rfl⟩,
    fun _ ↦ judged_other rfl⟩
  · refine judged_allowed hrule fun hrefused ↦ ?_
    cases hrefused
  · refine judged_allowed hrule fun hrefused ↦ ?_
    cases hrefused
  · exact judged_refused hrule

end Judged

/-! The edits from the body: all of them fail for other reasons, but for the last one. -/

section Edits

variable {svc : Service} {α β : Type} {allowed : Bool} {lib : JsonLibrary} {raw : JsonObject}
  {caller existing : UserInfo}

/-- Where the computation fails, the answer is not about the rules. -/
def FailsOther (x : Except Response α) : Prop := ∀ e, x = .error e → isOther e = true

/-- The computation fits the rule for the password. -/
structure JudgedEdit (allowed : Bool) (x : Except Response α) : Prop where
  ok : ∀ a, x = .ok a → allowed = true
  error : ∀ e resets, x = .error e → Judged allowed resets e

theorem failsOther_ok (a : α) : FailsOther (.ok a : Except Response α) := fun _ h ↦ by cases h

/-- A stop with one answer. -/
theorem judgedEdit_error {e : Response} (h : ∀ resets, Judged allowed resets e) :
    JudgedEdit allowed (.error e : Except Response α) where
  ok _ hok := by cases hok
  error _ resets herror := by
    cases herror
    exact h resets

theorem judgedEdit_ok {a : α} (h : allowed = true) :
    JudgedEdit allowed (.ok a : Except Response α) where
  ok _ _ := h
  error _ _ herror := by cases herror

theorem FailsOther.bind {x : Except Response α} {f : α → Except Response β} (hx : FailsOther x)
    (hf : ∀ a, FailsOther (f a)) : FailsOther (x >>= f) := by
  rcases x with e | a
  · rintro _ ⟨⟩
    exact hx e rfl
  · exact hf a

theorem JudgedEdit.bind {x : Except Response α} {f : α → Except Response β} (hx : FailsOther x)
    (hf : ∀ a, JudgedEdit allowed (f a)) : JudgedEdit allowed (x >>= f) := by
  rcases x with e | a
  · exact judgedEdit_error fun _ ↦ judged_other (hx e rfl)
  · exact hf a

theorem failsOther_orThrow (o : Option α) : FailsOther (UserHandler.orThrow o) := by
  rcases o with _ | a
  · rintro _ ⟨⟩
    decide
  · exact failsOther_ok a

theorem failsOther_assignIfPresent (field value : String) :
    FailsOther (UserHandler.assignIfPresent lib raw field value) := by
  unfold UserHandler.assignIfPresent
  split
  · exact failsOther_orThrow _
  · exact failsOther_ok _

theorem failsOther_assignBoolIfPresent (field : String) (value : Bool) :
    FailsOther (UserHandler.assignBoolIfPresent lib raw field value) := by
  unfold UserHandler.assignBoolIfPresent
  split
  · exact (failsOther_orThrow _).bind fun _ ↦ failsOther_ok _
  · exact failsOther_ok _

theorem failsOther_requestedRole : FailsOther (UserHandler.requestedRole lib raw) := by
  unfold UserHandler.requestedRole
  split
  · exact (failsOther_orThrow _).bind fun _ ↦ failsOther_ok _
  · exact failsOther_ok _

theorem failsOther_appendNotes (now : ℕ) :
    FailsOther (UserHandler.appendNotes lib now caller raw existing) := by
  unfold UserHandler.appendNotes
  split
  · exact failsOther_ok _
  · exact (failsOther_orThrow _).bind fun _ ↦ failsOther_ok _

theorem failsOther_applyOwnerUpdate :
    FailsOther (UserHandler.applyOwnerUpdate lib caller raw existing) := by
  unfold UserHandler.applyOwnerUpdate
  split
  · exact (failsOther_assignIfPresent _ _).bind fun _ ↦ failsOther_ok _
  · exact failsOther_ok _

theorem failsOther_applyProfileFields :
    FailsOther (UserHandler.applyProfileFields lib raw existing) := by
  unfold UserHandler.applyProfileFields
  refine (failsOther_assignIfPresent _ _).bind fun _ ↦ (failsOther_assignIfPresent _ _).bind
    fun _ ↦ (failsOther_assignIfPresent _ _).bind fun _ ↦
      (failsOther_assignIfPresent _ _).bind fun _ ↦ ?_
  exact (failsOther_assignBoolIfPresent _ _).bind fun _ ↦ failsOther_ok _

theorem failsOther_applyAdminStatusFields :
    FailsOther (UserHandler.applyAdminStatusFields lib raw existing) := by
  unfold UserHandler.applyAdminStatusFields
  refine (failsOther_assignBoolIfPresent _ _).bind fun _ ↦ ?_
  exact (failsOther_assignBoolIfPresent _ _).bind fun _ ↦ failsOther_ok _

theorem failsOther_user_applyRoleChange :
    FailsOther (UserHandler.applyRoleChange lib caller existing raw) := by
  unfold UserHandler.applyRoleChange
  refine failsOther_requestedRole.bind fun asked ↦ ?_
  rcases asked with _ | newRole
  · exact failsOther_ok _
  · simp only
    split
    · split
      · exact failsOther_ok _
      · rintro _ ⟨⟩
        decide
    · exact failsOther_ok _

theorem failsOther_applyFields {svc : Service} :
    FailsOther (SubUserHandler.applyFields svc raw existing) := by
  unfold SubUserHandler.applyFields
  refine (failsOther_assignIfPresent _ _).bind fun _ ↦ (failsOther_assignIfPresent _ _).bind
    fun _ ↦ (failsOther_assignIfPresent _ _).bind fun _ ↦
      (failsOther_assignIfPresent _ _).bind fun _ ↦
        (failsOther_assignIfPresent _ _).bind fun _ ↦ ?_
  refine (failsOther_assignBoolIfPresent _ _).bind fun _ ↦
    (failsOther_assignBoolIfPresent _ _).bind fun _ ↦ ?_
  exact (failsOther_assignBoolIfPresent _ _).bind fun _ ↦ failsOther_ok _

theorem failsOther_subuser_applyRoleChange {svc : Service} {id : String} :
    FailsOther (SubUserHandler.applyRoleChange svc caller id raw existing) := by
  unfold SubUserHandler.applyRoleChange
  refine failsOther_requestedRole.bind fun asked ↦ ?_
  rcases asked with _ | newRole
  · exact failsOther_ok _
  · simp only
    split
    · split
      · rintro _ ⟨⟩
        decide
      · split
        · rintro _ ⟨⟩
          decide
        · exact failsOther_ok _
    · exact failsOther_ok _

/-- The password change passes exactly for a password that the rule allows, up to the history. -/
theorem judged_changePassword {isSub : Bool} {salt password : String}
    (hasked : passwordAsked svc.json raw = some password) :
    JudgedEdit (passwordRule svc isSub password) (changePassword svc isSub salt raw existing) := by
  unfold passwordAsked at hasked
  obtain ⟨j, hj, hpassword⟩ := Option.bind_eq_some_iff.mp hasked
  have hread : UserHandler.orThrow (svc.json.varToString j) = .ok password :=
    UserHandler.orThrow_eq_ok.mpr hpassword
  unfold changePassword
  simp only [hj, hread]
  change JudgedEdit _ (if passwordRule svc isSub password = true then _ else _)
  split
  · rename_i hrule
    rw [hrule]
    split
    · exact judgedEdit_ok rfl
    · exact judgedEdit_error fun _ ↦ judged_other rfl
    · exact judgedEdit_error fun _ ↦ judged_other rfl
  · rename_i hrule
    rw [Bool.not_eq_true] at hrule
    rw [hrule]
    exact judgedEdit_error fun _ ↦ judged_refused rfl

theorem judged_user_applyBody {m : Moment} {password : String}
    (hasked : passwordAsked svc.json raw = some password) :
    JudgedEdit (passwordRule svc false password)
      (UserHandler.applyBody svc m caller raw existing) := by
  unfold UserHandler.applyBody
  exact .bind failsOther_applyOwnerUpdate fun _ ↦ .bind failsOther_applyProfileFields fun _ ↦
    .bind failsOther_applyAdminStatusFields fun _ ↦ .bind failsOther_user_applyRoleChange fun _ ↦
      .bind (failsOther_appendNotes _) fun _ ↦ judged_changePassword hasked

theorem judged_subuser_applyBody {m : Moment} {id password : String}
    (hasked : passwordAsked svc.json raw = some password) :
    JudgedEdit (passwordRule svc true password)
      (SubUserHandler.applyBody svc m caller id raw existing) := by
  unfold SubUserHandler.applyBody
  exact .bind failsOther_applyFields fun _ ↦ .bind failsOther_subuser_applyRoleChange fun _ ↦
    .bind (failsOther_appendNotes _) fun _ ↦ judged_changePassword hasked

end Edits

section Updates

variable {svc : Service} {s : Storage} {c : Context} {password : String}

/-- A change of the second factor fails for other reasons. -/
theorem wp_applyMfaChange_other {m : Moment} {caller newUser existing : UserInfo} {has : Bool} :
    Command.wp (UserHandler.applyMfaChange svc m caller newUser has existing) (fun _ _ ↦ True)
      (fun e _ ↦ isOther e = true) s := by
  unfold UserHandler.applyMfaChange
  simp only [Command.wp_bind, Command.wp_ensure, Command.wp_pure, Command.wp_ite, implies_true,
    and_true, true_and]
  refine fun _ _ ↦ ⟨fun _ ↦ ⟨fun _ ↦ ⟨fun _ ↦ ⟨fun _ ↦ ?_, fun _ _ ↦ ?_⟩, fun _ ↦ rfl⟩,
    fun _ ↦ rfl⟩, fun _ ↦ rfl⟩
  · rcases newUser.userTypeProprietaryInfo.mobiles with _ | ⟨first, rest⟩
    · exact (by decide : isOther (.badRequest Errors.NeedMobileNumber) = true)
    · simp only [Command.wp_bind, Command.wp_ensure, Command.wp_pure, Command.wp_reads,
        implies_true, true_and]
      exact fun _ ↦ rfl
  · intro _
    simp only [Command.wp_act, Command.wp_orStop, implies_true, true_and]
    exact fun _ ↦ rfl

/-- An update of the second factor alone does not look at the password. -/
theorem judged_resets {allowed resets : Bool} {a : Response} (hresets : resets = true)
    (h : a ≠ .badRequest Errors.InvalidPassword) : Judged allowed resets a where
  success _ _ hnot := absurd (hresets.symm.trans hnot) (by decide)
  refusal hrefused := absurd hrefused h

theorem judged_user_updateFromBody {id : String} {found : UserInfo} {resets : Bool}
    (hasked : passwordAsked svc.json (c.request.body.parsed.getD []) = some password) :
    Command.wp (UserHandler.updateFromBody svc c id found)
      (fun a _ ↦ Judged (passwordRule svc false password) resets a)
      (fun a _ ↦ Judged (passwordRule svc false password) resets a) s := by
  unfold UserHandler.updateFromBody
  simp only [Command.wp_bind, Command.wp_ensure, Command.wp_orStop, Command.wp_lift]
  refine ⟨fun asked _ ↦ ⟨fun _ _ ↦ ⟨fun _ ↦ ⟨fun _ ↦ ⟨fun u hu ↦ ?_, fun e he ↦
    (judged_user_applyBody hasked).error e _ he⟩, fun _ ↦ judged_other rfl⟩,
    fun _ ↦ judged_other rfl⟩, fun e he ↦ ?_⟩, fun _ ↦ judged_other rfl⟩
  · -- the edits have passed, so the rule allows the password
    have hallowed := (judged_user_applyBody hasked).ok u hu
    have hrest (u' : UserInfo) (s' : Storage) :
        Command.wp (UserHandler.applyMfaChange svc c.moment c.caller asked
          (JsonObject.has (c.request.body.parsed.getD []) "userTypeProprietaryInfo") u')
          (fun w ↦ Command.wp
            (UserHandler.updateUserInfo svc id { w with modified := c.moment.now })
            (fun updated s' ↦ (updated = true →
              Command.wp (UserHandler.buildUpdatedUserResponse svc id .notFound)
                (fun a _ ↦ Judged (passwordRule svc false password) resets a)
                (fun a _ ↦ Judged (passwordRule svc false password) resets a) s') ∧
              (updated = false → Judged (passwordRule svc false password) resets
                (.badRequest Errors.RecordNotUpdated)))
            fun a _ ↦ Judged (passwordRule svc false password) resets a)
          (fun a _ ↦ Judged (passwordRule svc false password) resets a) s' := by
      refine Command.wp_mono wp_applyMfaChange_other (fun w s₂ _ ↦ ?_) fun e _ he ↦ judged_other he
      unfold UserHandler.updateUserInfo UserHandler.buildUpdatedUserResponse UserHandler.getUserById
      simp only [Command.wp_bind, Command.wp_orStop, Command.wp_act, Command.wp_pure]
      exact ⟨fun _ ↦ ⟨fun _ _ ↦ judged_allowed hallowed (fun h ↦ by cases h),
        fun _ ↦ judged_other rfl⟩, fun _ ↦ judged_other rfl⟩
    unfold UserHandler.verifyEmail
    simp only [Command.wp_ite, Command.wp_pure, Command.wp_act, Command.wp_bind, Command.wp_ensure]
    exact ⟨fun _ ↦ hrest _ _, fun _ ↦ hrest _ _⟩
  · unfold UserHandler.validateUpdatePayload at he
    exact judged_other (failsOther_requestedRole.bind (fun _ ↦ failsOther_ok _) e he)

theorem judged_user_doPut {r : Request} (hr : c.request = r) (hm : r.method = .PUT)
    (hasked : askedInBody svc r = some password) :
    Command.wp (UserHandler.doPut svc c)
      (fun a _ ↦ Judged (passwordRule svc false password) (resetsMfa .user r) a)
      (fun a _ ↦ Judged (passwordRule svc false password) (resetsMfa .user r) a) s := by
  subst hr
  rw [askedInBody_put hm] at hasked
  unfold UserHandler.doPut UserHandler.getUserById
  simp only [Command.wp_bind, Command.wp_ensure, Command.wp_orStop, Command.wp_act, Command.wp_ite]
  refine ⟨fun _ ↦ ⟨fun found _ ↦ ⟨fun _ ↦ ⟨fun hreset ↦ ⟨fun _ ↦ ?_, fun _ ↦ ?_⟩,
    fun _ ↦ ⟨fun _ ↦ judged_other rfl, fun _ ↦ judged_user_updateFromBody hasked⟩⟩,
    fun _ ↦ judged_other rfl⟩, fun _ ↦ judged_other rfl⟩,
    fun _ ↦ judged_other rfl⟩
  · -- resetMFA
    have hresets : resetsMfa .user c.request = true := by
      unfold resetsMfa
      simp only [hm, hreset]
      decide
    unfold UserHandler.handleResetMFA UserHandler.updateUserInfo
      UserHandler.buildUpdatedUserResponse UserHandler.getUserById
    simp only [Command.wp_bind, Command.wp_ensure, Command.wp_orStop, Command.wp_act,
      Command.wp_pure]
    exact ⟨fun _ ↦ ⟨fun _ _ ↦ judged_resets hresets (fun h ↦ by cases h),
      fun _ ↦ judged_other rfl⟩, fun _ ↦ judged_other rfl⟩
  · exact judged_other rfl

theorem judged_subuser_updateFromBody {id : String} {found : UserInfo} {resets : Bool}
    (hasked : passwordAsked svc.json (c.request.body.parsed.getD []) = some password) :
    Command.wp (SubUserHandler.updateFromBody svc c id found)
      (fun a _ ↦ Judged (passwordRule svc true password) resets a)
      (fun a _ ↦ Judged (passwordRule svc true password) resets a) s := by
  unfold SubUserHandler.updateFromBody SubUserHandler.editFromBody
  simp only [Command.wp_bind, Command.wp_ensure, Command.wp_orStop, Command.wp_lift]
  refine ⟨fun asked _ ↦ ⟨fun _ _ ↦ ⟨fun _ ↦ ⟨fun u hu ↦ ?_, fun e he ↦
    (judged_subuser_applyBody hasked).error e _ he⟩, fun _ ↦ judged_other rfl⟩,
    fun e he ↦ judged_other (failsOther_requestedRole e he)⟩, fun _ ↦ judged_other rfl⟩
  -- the edits have passed, so the rule allows the password
  have hallowed := (judged_subuser_applyBody hasked).ok u hu
  have hrest (u' : UserInfo) (s' : Storage) :
      Command.wp (UserHandler.applyMfaChange svc c.moment c.caller asked
        (JsonObject.has (c.request.body.parsed.getD []) "userTypeProprietaryInfo") u')
        (fun w ↦ Command.wp (SubUserHandler.updateUserInfo svc id w)
          (fun updated s' ↦ (updated = true →
            Command.wp (SubUserHandler.getUserById svc id)
              (fun o _ ↦ Judged (passwordRule svc true password) resets
                (.user (sanitize (o.getD {}))))
              (fun a _ ↦ Judged (passwordRule svc true password) resets a) s') ∧
            (updated = false → Judged (passwordRule svc true password) resets
              (.badRequest Errors.RecordNotUpdated)))
          fun a _ ↦ Judged (passwordRule svc true password) resets a)
        (fun a _ ↦ Judged (passwordRule svc true password) resets a) s' := by
    refine Command.wp_mono wp_applyMfaChange_other (fun w s₂ _ ↦ ?_) fun e _ he ↦ judged_other he
    unfold SubUserHandler.updateUserInfo SubUserHandler.getUserById
    simp only [Command.wp_act]
    exact ⟨fun _ ↦ judged_allowed hallowed (fun h ↦ by cases h), fun _ ↦ judged_other rfl⟩
  unfold SubUserHandler.verifySubEmail
  simp only [Command.wp_ite, Command.wp_pure, Command.wp_act, Command.wp_bind]
  exact ⟨fun _ ↦ hrest _ _, fun _ ↦ hrest _ _⟩

theorem judged_subuser_doPut {r : Request} (hr : c.request = r) (hm : r.method = .PUT)
    (hasked : askedInBody svc r = some password) :
    Command.wp (SubUserHandler.doPut svc c)
      (fun a _ ↦ Judged (passwordRule svc true password) (resetsMfa .subuser r) a)
      (fun a _ ↦ Judged (passwordRule svc true password) (resetsMfa .subuser r) a) s := by
  subst hr
  rw [askedInBody_put hm] at hasked
  unfold SubUserHandler.doPut SubUserHandler.getUserById SubUserHandler.modify
  simp only [Command.wp_bind, Command.wp_ensure, Command.wp_orStop, Command.wp_act, Command.wp_ite]
  refine ⟨fun _ ↦ ⟨fun found _ ↦ ⟨fun _ ↦ ⟨fun hreset ↦ ?_, fun _ ↦
    ⟨fun _ ↦ judged_other rfl, fun _ ↦ judged_subuser_updateFromBody hasked⟩⟩,
    fun _ ↦ judged_other rfl⟩, fun _ ↦ judged_other rfl⟩,
    fun _ ↦ judged_other rfl⟩
  -- resetMFA
  have hresets : resetsMfa .subuser c.request = true := by
    unfold resetsMfa
    simp only [hm, hreset]
    decide
  unfold SubUserHandler.handleResetMFA SubUserHandler.updateUserInfo UserHandler.getUserByEmail
  simp only [Command.wp_bind, Command.wp_ensure, Command.wp_act, Command.wp_pure]
  exact ⟨fun _ ↦ judged_resets hresets (fun h ↦ by cases h), fun _ ↦ judged_other rfl⟩

end Updates

/-! ## The answers to logins -/

section Logins

variable {svc : Service} {rule : String → Bool} {m : Moment} {p : Population}
  {userName password newPassword : String}

/-- A login is refused for its new password only where the rule refuses it. -/
theorem authorizeWith_passwordInvalid
    (h : (p.authorizeWith svc rule m userName password newPassword).1.reason =
      some .PASSWORD_INVALID) : newPassword ≠ "" ∧ rule newPassword = false := by
  unfold Population.authorizeWith at h
  simp only at h
  split at h
  · cases h
  split at h
  · cases h
  split at h
  · cases h
  split at h
  · cases h
  split at h
  · cases h
  split at h
  · rename_i hrule
    simpa using hrule
  split at h
  · unfold Population.authorizeNewPassword at h
    split at h <;> cases h
  · cases h

/-- The reasons have different messages where it matters. -/
theorem unauthorizedReason_eq_invalid {reason : UnauthorizedReason}
    (h : unauthorizedReason reason = Errors.PASSWORD_INVALID) : reason = .PASSWORD_INVALID := by
  cases reason
  case PASSWORD_INVALID => rfl
  all_goals exact absurd h (by decide)

variable {s : Storage} {isSub : Bool} {x : LoginContext} {challenges : MFAChallengeCache}
  {r : Request}

theorem asked_login_inv {isSub' : Bool}
    (hasked : asked svc s (.login isSub x challenges r) = some (isSub', password)) :
    isSub' = isSub ∧ password ≠ "" ∧ ∃ userId old,
      LoginRequest.of svc.json r = .passwordLogin userId old password := by
  unfold asked at hasked
  simp only at hasked
  split at hasked
  · rename_i userId old newPassword hkind
    split at hasked
    · cases hasked
    · rename_i hset
      cases hasked
      exact ⟨rfl, hset, userId, old, hkind⟩
  · cases hasked

/-- A password login that is granted has been authorised. -/
theorem success_of_granted {state : LoginState} {userId : String}
    (h : isGranted (x.passwordLogin isSub state userId password newPassword).1 = true) :
    (x.authorize isSub state.storage userId password newPassword).1.reason = some .SUCCESS := by
  unfold LoginContext.passwordLogin at h
  simp only at h
  split at h
  · assumption
  · cases h
  · cases h

/-- A password login that is refused for its new password has been refused by the rule. -/
theorem invalid_of_refused {state : LoginState} {userId : String}
    (h : (x.passwordLogin isSub state userId password newPassword).1 =
      .response (.unAuthorized Errors.PASSWORD_INVALID)) :
    (x.authorize isSub state.storage userId password newPassword).1.reason =
      some .PASSWORD_INVALID := by
  unfold LoginContext.passwordLogin at h
  simp only at h
  split at h
  · split at h
    · split at h <;> cases h
    · cases h
  · rename_i reason _ hreason
    rw [hreason]
    have hmsg : unauthorizedReason reason = Errors.PASSWORD_INVALID := by
      injection h with hresponse
      injection hresponse
    rw [unauthorizedReason_eq_invalid hmsg]
  · cases h

/-- A login with a new password succeeds only where the rule of the population allows it. -/
theorem accepted_login {isSub' : Bool}
    (hasked : asked svc s (.login isSub x challenges r) = some (isSub', password))
    (h : Succeeds svc s (.login isSub x challenges r)) :
    passwordRule svc isSub' password = true := by
  obtain ⟨rfl, hset, userId, old, hkind⟩ := asked_login_inv hasked
  have hdo : (({ x with svc } : LoginContext).doPostWith isSub' r { storage := s, challenges }).1 =
      (({ x with svc } : LoginContext).passwordLogin isSub' { storage := s, challenges } userId old
        password).1 := by
    unfold LoginContext.doPostWith
    simp only [hkind]
  obtain ⟨a, hreply, hgranted⟩ := h
  rw [← Reply.login.inj hreply, hdo] at hgranted
  obtain ⟨u, -, -, -, -, -, hrule, -⟩ :=
    (authorizeWith_success_iff _ _ _ _ _).mp (success_of_granted hgranted)
  by_contra hnot
  exact hrule ⟨hset, by simpa using hnot⟩

/-- It is refused for the new password only where that rule refuses it. -/
theorem refused_login {isSub' : Bool}
    (hasked : asked svc s (.login isSub x challenges r) = some (isSub', password))
    (h : RefusedByRule svc s (.login isSub x challenges r)) :
    passwordRule svc isSub' password = false := by
  obtain ⟨rfl, hset, userId, old, hkind⟩ := asked_login_inv hasked
  unfold RefusedByRule reply LoginContext.doPostWith at h
  simp only [hkind, Reply.login.injEq] at h
  exact (authorizeWith_passwordInvalid (invalid_of_refused h)).2

end Logins

/-! ## The answers to forms -/

section Forms

variable {svc : Service} {s : Storage} {x : LinkContext} {form : List (String × String)}

/-- The page says that the password was refused. -/
def Mismatch (x : LinkContext) (a : LinkReply) : Prop :=
  ∃ file id, (file = "/password_reset_error.html" ∨ file = "/sub_password_reset_error.html") ∧
    a = x.errorPage file id (LinkContext.passwordMismatchText id)

/-- A text begins like its first part. -/
theorem head?_append {a b : String} {first : Char} (h : a.toList.head? = some first) :
    (a ++ b).toList.head? = some first := by
  rw [String.toList_append, List.head?_append, h, Option.some_or]

/-- The text of the refusal begins in its own way. -/
theorem not_mismatch_errorPage {file id text : String} (h : text.toList.head? ≠ some 'F') :
    ¬ Mismatch x (x.errorPage file id text) := by
  rintro ⟨file', id', -, heq⟩
  unfold LinkContext.errorPage LinkContext.page at heq
  simp only [LinkReply.page.injEq, List.cons_append, List.cons.injEq, Prod.mk.injEq, true_and]
    at heq
  rw [heq.2.2.1] at h
  exact h (head?_append (head?_append (head?_append (head?_append (by decide)))))

/-- The other pages are other files. -/
theorem not_mismatch_page {file : String} {vars : List (String × String)}
    (h : file ≠ "/password_reset_error.html" ∧ file ≠ "/sub_password_reset_error.html") :
    ¬ Mismatch x (x.page file vars) := by
  rintro ⟨file', id', hfile, heq⟩
  unfold LinkContext.errorPage LinkContext.page at heq
  simp only [LinkReply.page.injEq] at heq
  rw [← heq.1] at hfile
  exact hfile.elim h.1 h.2

/-- A form with one password, given twice, behind a link that resets it, in time. -/
structure ResetForm (x : LinkContext) (s : Storage) (form : List (String × String))
    (link : ActionLink) : Prop where
  nonempty : form.isEmpty = false
  found : s.getActionLink (formGet form "id" "") = some link
  inTime : x.moment.now ≤ link.expires
  kind : validUserAction link = true ∨ validSubscriberAction link = true
  same : formGet form "password1" "bla" = formGet form "password2" "blu"

/-- The account of the link can take the password. -/
structure Takes (x : LinkContext) (s : Storage) (form : List (String × String))
    (link : ActionLink) (u : UserInfo) : Prop where
  found : (x.findUser s link.userAction link.userId).1 = some u
  enabled : u.blackListed = false ∧ u.suspended = false
  unused : passwordAlreadyUsed x.svc u.lastPasswords (toLower u.email)
    (formGet form "password1" "bla") u.lastPasswords = some false

theorem unused_of_setPassword {salt password : String} {u u₁ : UserInfo}
    (h : setPassword x.svc salt password u = .applied u₁) :
    passwordAlreadyUsed x.svc u.lastPasswords (toLower u.email) password u.lastPasswords =
      some false := by
  unfold setPassword at h
  simp only at h
  split at h
  · cases h
  · cases h
  · assumption

/-- The page that there is no such link says nothing about the password. -/
theorem notFound_answer {done same refused : Prop} :
    (isDone x.doReturnA404 = true → done) ∧
      (Mismatch x x.doReturnA404 → same → refused) := by
  refine ⟨fun h ↦ ?_, fun h ↦ absurd h (not_mismatch_page (by decide))⟩
  have hnot : isDone x.doReturnA404 = false := rfl
  exact absurd (hnot.symm.trans h) Bool.false_ne_true

/-- What the answer to a reset says about the password. -/
theorem completeResetPassword_answer :
    (isDone (x.completeResetPassword form s).1 = true → ∃ link u, ResetForm x s form link ∧
      Takes x s form link u ∧ validatePassword x.svc (formGet form "password1" "bla") = true) ∧
    (Mismatch x (x.completeResetPassword form s).1 →
      formGet form "password1" "bla" = formGet form "password2" "blu" →
      ∃ link, ResetForm x s form link ∧
        validatePassword x.svc (formGet form "password1" "bla") = false) := by
  unfold LinkContext.completeResetPassword
  simp only
  split
  · exact notFound_answer
  rename_i hform
  split
  · exact notFound_answer
  rename_i link hlink
  split
  · exact notFound_answer
  rename_i htime
  split
  · exact notFound_answer
  rename_i hkind
  have hkind' : validUserAction link = true ∨ validSubscriberAction link = true := by
    rcases hu : validUserAction link with _ | _
    · exact .inr (by simpa [hu] using hkind)
    · exact .inl rfl
  split
  · -- the passwords differ, or the rule refuses the one
    rename_i hpasswords
    refine ⟨fun h ↦ (by cases h), fun _ hsame ↦ ⟨link, ⟨by simpa using hform, hlink,
      Nat.le_of_not_lt htime, hkind', hsame⟩, ?_⟩⟩
    rw [← hsame] at hpasswords
    simpa using hpasswords
  rename_i hpasswords
  simp only [Bool.or_eq_true, not_or, Bool.not_eq_true, bne_eq_false_iff_eq, Bool.not_eq_false']
    at hpasswords
  split
  · exact ⟨fun h ↦ (by cases h), fun h ↦ absurd h (not_mismatch_errorPage (by decide))⟩
  rename_i u s₁ hl
  split
  · have hfirst : LinkContext.disabledUserText.toList.head? = some 'P' := head?_append (by decide)
    refine ⟨fun h ↦ (by cases h), fun h ↦ absurd h (not_mismatch_errorPage ?_)⟩
    rw [hfirst]
    decide
  rename_i henabled
  simp only [Bool.or_eq_true, not_or, Bool.not_eq_true] at henabled
  split
  · exact ⟨fun h ↦ (by cases h), fun ⟨_, _, _, h⟩ ↦ (by cases h)⟩
  · exact ⟨fun h ↦ (by cases h), fun h ↦ absurd h (not_mismatch_errorPage (by decide))⟩
  · rename_i u₁ hset
    refine ⟨fun _ ↦ ⟨link, u, ⟨by simpa using hform, hlink, Nat.le_of_not_lt htime, hkind',
      hpasswords.1.1⟩, ⟨congrArg Prod.fst hl, henabled, unused_of_setPassword hset⟩,
      hpasswords.2⟩, fun h ↦ absurd h (not_mismatch_page (by decide))⟩

/-- What the answer to the completion of a sign-up says about the password. -/
theorem completeSubVerification_answer :
    (isDone (x.completeSubVerification form s).1 = true →
      validateSubPassword x.svc (formGet form "password1" "bla") = true) ∧
    (Mismatch x (x.completeSubVerification form s).1 →
      formGet form "password1" "bla" = formGet form "password2" "blu" →
      validateSubPassword x.svc (formGet form "password1" "bla") = false) := by
  unfold LinkContext.completeSubVerification
  simp only
  split
  · exact notFound_answer
  split
  · exact notFound_answer
  split
  · exact notFound_answer
  split
  · rename_i hpasswords
    refine ⟨fun h ↦ (by cases h), fun _ hsame ↦ ?_⟩
    rw [← hsame] at hpasswords
    simpa using hpasswords
  rename_i hpasswords
  simp only [Bool.or_eq_true, not_or, Bool.not_eq_true, Bool.not_eq_false'] at hpasswords
  have hother {file id text : String}
      (hfile : file = "/sub_signup_verification_error.html") :
      ¬ Mismatch x (x.errorPage file id text) := by
    subst hfile
    exact not_mismatch_page (by decide)
  split
  · exact ⟨fun _ ↦ hpasswords.2, fun h ↦ absurd h (hother rfl)⟩
  split
  · exact ⟨fun _ ↦ hpasswords.2, fun h ↦ absurd h (hother rfl)⟩
  split
  · exact ⟨fun _ ↦ hpasswords.2, fun ⟨_, _, _, h⟩ ↦ (by cases h)⟩
  · exact ⟨fun _ ↦ hpasswords.2, fun h ↦ absurd h (hother rfl)⟩
  · refine ⟨fun _ ↦ hpasswords.2, ?_⟩
    rintro ⟨_, _, _, h⟩
    unfold LinkContext.signupReply at h
    simp only at h
    split at h <;> cases h

/-- A password that the rule of the users refuses is refused, whoever the link is for. -/
theorem completeResetPassword_of_refused {link : ActionLink} (h : ResetForm x s form link)
    (hrule : validatePassword x.svc (formGet form "password1" "bla") = false) :
    (x.completeResetPassword form s).1 = x.errorPage "/password_reset_error.html"
      (formGet form "id" "") (LinkContext.passwordMismatchText (formGet form "id" "")) := by
  have hkind : (!validUserAction link && !validSubscriberAction link) = false := by
    rcases h.kind with hkind | hkind <;> simp [hkind]
  unfold LinkContext.completeResetPassword
  simp only [h.nonempty, h.found, Nat.not_lt.mpr h.inTime, hkind, hrule, Bool.not_false,
    Bool.or_true, if_true, if_false, Bool.false_eq_true]

/-- One that it allows is set, where the account can take it. -/
theorem completeResetPassword_of_allowed {link : ActionLink} {u : UserInfo}
    (h : ResetForm x s form link) (htakes : Takes x s form link u)
    (hrule : validatePassword x.svc (formGet form "password1" "bla") = true) :
    isDone (x.completeResetPassword form s).1 = true := by
  have hkind : (!validUserAction link && !validSubscriberAction link) = false := by
    rcases h.kind with hkind | hkind <;> simp [hkind]
  have hlook : x.findUser s link.userAction link.userId =
      (some u, (x.findUser s link.userAction link.userId).2) := Prod.ext htakes.found rfl
  obtain ⟨u₁, hset⟩ : ∃ u₁, setPassword x.svc x.moment.salt (formGet form "password1" "bla") u =
      .applied u₁ := by
    unfold setPassword
    simp only [htakes.unused]
    exact ⟨_, rfl⟩
  unfold LinkContext.completeResetPassword
  simp only [h.nonempty, h.found, Nat.not_lt.mpr h.inTime, hkind, ← h.same, hrule,
    bne_self_eq_false, Bool.not_true, Bool.or_self, if_false, Bool.false_eq_true]
  rw [hlook]
  simp only [htakes.enabled.1, htakes.enabled.2, hset, Bool.or_self, if_false, Bool.false_eq_true]
  rfl

end Forms

/-! ## The law -/

section Main

variable {svc : Service} {s : Storage}

/-- A link of a subscriber that resets a password. -/
theorem SubReset.form {x : LinkContext} {r : Request} {form : List (String × String)}
    {link : ActionLink} (h : SubReset x s r form link) : ResetForm { x with svc } s form link :=
  ⟨h.nonempty, h.found, h.inTime, .inr h.kind, h.same⟩

theorem SubReset.userAction {x : LinkContext} {r : Request} {form : List (String × String)}
    {link : ActionLink} (h : SubReset x s r form link) : link.userAction = false := by
  have hkind := h.kind
  unfold validSubscriberAction at hkind
  simp only [Bool.and_eq_true, Bool.not_eq_true'] at hkind
  exact hkind.1

/-- A form that resets a password, behind a link of a subscriber. -/
theorem SubReset.of_form {x : LinkContext} {r : Request} {form : List (String × String)}
    {link : ActionLink} (haction : isReset r) (h : ResetForm { x with svc } s form link)
    (huser : link.userAction = false) : SubReset x s r form link := by
  refine ⟨haction, h.nonempty, h.found, h.inTime, h.kind.resolve_left ?_, h.same⟩
  unfold validUserAction
  rw [huser, Bool.false_and]
  decide

/-- What a POST does is decided by its action. -/
theorem handle_reset {x : LinkContext} {r : Request} {form : List (String × String)}
    (h : isReset r) : x.handle s (.post r form) = x.completeResetPassword form s := by
  unfold LinkContext.handle LinkContext.doPost
  rcases h with h | h <;> simp [h]

theorem handle_signup {x : LinkContext} {r : Request} {form : List (String × String)}
    (h : r.getParameter "action" = "signup_completion") :
    x.handle s (.post r form) = x.completeSubVerification form s := by
  unfold LinkContext.handle LinkContext.doPost
  simp [h]

/-- Whose password a form sets, and which. -/
theorem asked_post_inv {x : LinkContext} {r : Request} {form : List (String × String)}
    {isSub : Bool} {password : String}
    (h : asked svc s (.link x (.post r form)) = some (isSub, password)) :
    password = formGet form "password1" "bla" ∧
      (isReset r ∧ (∃ link, s.getActionLink (formGet form "id" "") = some link ∧
          isSub = !link.userAction) ∨
        r.getParameter "action" = "signup_completion" ∧ isSub = true) := by
  unfold asked at h
  simp only at h
  split at h
  · rename_i haction
    obtain ⟨link, hlink, heq⟩ := Option.map_eq_some_iff.mp h
    cases heq
    exact ⟨rfl, .inl ⟨haction, link, hlink, rfl⟩⟩
  split at h
  · rename_i haction
    cases h
    exact ⟨rfl, .inr ⟨haction, rfl⟩⟩
  · cases h

/-- A form is accepted only where the rule of the population allows the password. -/
theorem accepted_link {x : LinkContext} {req : LinkRequest} {isSub : Bool} {password : String}
    (hnot : ¬ Misjudged svc s (.link x req))
    (hasked : asked svc s (.link x req) = some (isSub, password))
    (h : Succeeds svc s (.link x req)) : passwordRule svc isSub password = true := by
  obtain ⟨a, hreply, hdone⟩ := h
  rw [← Reply.link.inj hreply] at hdone
  cases req with
  | get => cases hasked
  | post r form =>
    obtain ⟨rfl, ⟨haction, link, hlink, rfl⟩ | ⟨haction, rfl⟩⟩ := asked_post_inv hasked
    · rw [handle_reset haction] at hdone
      obtain ⟨link', u, hform, htakes, hrule⟩ := completeResetPassword_answer.1 hdone
      obtain rfl : link = link' := Option.some.inj (hlink.symm.trans hform.found)
      rcases huser : link.userAction with _ | _
      · by_contra hsub
        rw [Bool.not_eq_true] at hsub
        have hfound := htakes.found
        rw [huser] at hfound
        exact hnot (.accepted (.of_form haction hform huser) hrule hsub hfound htakes.enabled
          htakes.unused)
      · exact hrule
    · rw [handle_signup haction] at hdone
      exact completeSubVerification_answer.1 hdone

/-- It is refused in the name of the rules only where that rule refuses it. -/
theorem refused_link {x : LinkContext} {req : LinkRequest} {isSub : Bool} {password : String}
    (hnot : ¬ Misjudged svc s (.link x req))
    (hasked : asked svc s (.link x req) = some (isSub, password))
    (h : RefusedByRule svc s (.link x req)) : passwordRule svc isSub password = false := by
  cases req with
  | get => cases hasked
  | post r form =>
    obtain ⟨hsame, file, id, hfile, hreply⟩ := h
    have hmismatch : Mismatch { x with svc }
        (({ x with svc } : LinkContext).handle s (.post r form)).1 :=
      ⟨file, id, hfile, Reply.link.inj hreply⟩
    obtain ⟨rfl, ⟨haction, link, hlink, rfl⟩ | ⟨haction, rfl⟩⟩ := asked_post_inv hasked
    · rw [handle_reset haction] at hmismatch
      obtain ⟨link', hform, hrule⟩ := completeResetPassword_answer.2 hmismatch hsame
      obtain rfl : link = link' := Option.some.inj (hlink.symm.trans hform.found)
      rcases huser : link.userAction with _ | _
      · by_contra hsub
        rw [Bool.not_eq_false] at hsub
        exact hnot (.refused (.of_form haction hform huser) hrule hsub)
      · exact hrule
    · rw [handle_signup haction] at hmismatch
      exact completeSubVerification_answer.2 hmismatch hsame

/-- The answer to a creation or an update fits the rule of the population. -/
theorem judged_rest {e : EndPoint} {internal isSub : Bool} {env : Surroundings} {r : Request}
    {password : String} (hasked : asked svc s (.rest e internal env r) = some (isSub, password)) :
    Judged (passwordRule svc isSub password) (resetsMfa e r)
      (handleRequest svc (e.handler svc env internal) env.moment env.rateExceeded r s).1 := by
  refine handleRequest_answer_rule svc _ env.moment env.rateExceeded r
    (fun c _ _ hrequest _ _ ↦ ?_) fun _ ↦ judged_turnedAway
  cases e with
  | user =>
    obtain ⟨_, hbody, heq⟩ := Option.map_eq_some_iff.mp hasked
    cases heq
    unfold dispatch
    rw [hrequest]
    cases hm : r.method with
    | POST =>
      subst hrequest
      exact judged_user_doPost hm hbody
    | PUT => exact judged_user_doPut hrequest hm hbody
    | GET | DELETE | OPTIONS | other =>
      unfold askedInBody at hbody
      rw [hm] at hbody
      cases hbody
  | subuser =>
    obtain ⟨_, hbody, heq⟩ := Option.map_eq_some_iff.mp hasked
    cases heq
    unfold dispatch
    rw [hrequest]
    cases hm : r.method with
    | POST =>
      subst hrequest
      exact judged_subuser_doPost hm hbody
    | PUT => exact judged_subuser_doPut hrequest hm hbody
    | GET | DELETE | OPTIONS | other =>
      unfold askedInBody at hbody
      rw [hm] at hbody
      cases hbody
  | signup | submfa | totp | subtotp => cases hasked

variable (svc s)

/-- Each population has its own rule, whatever the two rules are and whatever the request is,
exactly if it is not a reset form for a subscriber on which the rules disagree. -/
theorem lawful_iff_not_misjudged (q : RecordRequest) : Lawful svc s q ↔ ¬ Misjudged svc s q := by
  constructor
  · intro hlawful hmis
    cases hmis with
    | @refused x r form link h huser hsub =>
      have hasked : asked svc s (.link x (.post r form)) =
          some (true, formGet form "password1" "bla") := by
        rw [asked_reset h.action h.found, h.userAction, Bool.not_false]
      have hreply : (({ x with svc } : LinkContext).handle s (.post r form)).1 = _ :=
        (congrArg Prod.fst (handle_reset h.action)).trans
          (completeResetPassword_of_refused h.form huser)
      have hrefused := hlawful.refused true _ hasked
        ⟨h.same, _, _, .inl rfl, congrArg Reply.link hreply⟩
      exact absurd (hsub.symm.trans hrefused) (by decide)
    | @accepted x r form link u h huser hsub hfound henabled hunused =>
      have hasked : asked svc s (.link x (.post r form)) =
          some (true, formGet form "password1" "bla") := by
        rw [asked_reset h.action h.found, h.userAction, Bool.not_false]
      have htakes : Takes { x with svc } s form link u := by
        refine ⟨?_, henabled, hunused⟩
        rw [h.userAction]
        exact hfound
      have hdone : isDone (({ x with svc } : LinkContext).handle s (.post r form)).1 = true := by
        rw [handle_reset h.action]
        exact completeResetPassword_of_allowed h.form htakes huser
      have haccepted := hlawful.accepted true _ hasked ⟨_, rfl, hdone⟩
      exact absurd (hsub.symm.trans haccepted) (by decide)
  · intro hnot
    constructor
    case stored =>
      intro isSub v hv hset
      exact (stored_of_not_misjudged hnot).records isSub v hv hset
    case accepted =>
      intro isSub password hasked h
      cases q with
      | rest e internal env r =>
        obtain ⟨hresets, u, hreply⟩ := h
        exact (judged_rest hasked).success u (Reply.rest.inj hreply) hresets
      | login => exact accepted_login hasked h
      | link => exact accepted_link hnot hasked h
    case refused =>
      intro isSub password hasked h
      cases q with
      | rest e internal env r => exact (judged_rest hasked).refusal (Reply.rest.inj h)
      | login => exact refused_login hasked h
      | link => exact refused_link hnot hasked h

end Main

/-! ## Two rules that disagree -/

/-- A service that asks eight letters of users, and another number of subscribers. -/
def sampleService (letters : ℕ) : Service :=
  { Service.sample with subPasswordValidation := fun password ↦ letters ≤ password.length }

/-- The form behind the link of the subscriber, with this password. -/
def sampleSubForm (password : String) : RecordRequest :=
  .link sampleMailed <|
    .post { method := .POST, parameters := [("action", "sub_password_reset")] }
      [("id", "link-s"), ("password1", password), ("password2", password)]

/-- A password that is too short for subscribers is set, and one that is long enough for them is
refused. -/
theorem subscribers_judged_as_users :
    ¬ Lawful (sampleService 12) (sampleSignedUp .SUB_FORGOT_PASSWORD)
        (sampleSubForm "open-sesame") ∧
      ¬ Lawful (sampleService 4) (sampleSignedUp .SUB_FORGOT_PASSWORD)
        (sampleSubForm "sesame") := by
  constructor
  · intro hlaw
    have haccepted := hlaw.accepted true "open-sesame" (by rfl) ⟨_, rfl, by rfl⟩
    exact absurd haccepted (by decide)
  · intro hlaw
    have hrefused := hlaw.refused true "sesame" (by rfl) ⟨by decide, _, _, .inl rfl, rfl⟩
    exact absurd hrefused (by decide)

end PasswordRules

end OwSec
