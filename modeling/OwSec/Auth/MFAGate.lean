import OwSec.RestApi.OAuth2

/-!
# Where an access token comes from

An account with a second factor should receive its access token only by completing a
challenge.  The login requests of both kinds run over one state, between arbitrary steps of the
rest of the service, and every challenge that a password login starts is remembered.

An answer with a token then comes either from the completion of such a challenge with its right
answer, or from a password login.  For an account with a second factor the latter happens just
where the method is not enabled or the challenge cannot be sent: there the service does without
the second factor and says so in its log.
-/

namespace OwSec

open SecurityObjects Kit RestApi

/-! ## What a password login answers -/

namespace Population

variable (svc : Service) {p : Population}

/-- A login that succeeds is one of the record that its address leads to. -/
def LogsIn (p : Population) (userName : String) (result : LoginResult × Population) : Prop :=
  result.1.reason = some .SUCCESS →
    ∃ u, (p.getUserByEmail svc (toLower userName)).1 = some u ∧
      result.1.uinfo.userinfo.id = u.id ∧
      result.1.uinfo.userinfo.userTypeProprietaryInfo = u.userTypeProprietaryInfo

theorem authorizeWith_logsIn (rule : String → Bool) (m : Moment)
    (userName password newPassword : String) :
    LogsIn svc p userName (p.authorizeWith svc rule m userName password newPassword) := by
  have houtcome := authorizeWith_outcome svc rule m p userName password newPassword
  generalize p.authorizeWith svc rule m userName password newPassword = result at houtcome ⊢
  cases houtcome with
  | refused hreason => exact fun hsuccess ↦ absurd hsuccess hreason
  | completed hlookup => exact fun _ ↦ ⟨_, congrArg Prod.fst hlookup, rfl, rfl⟩
  | changed hlookup hset hwritten =>
    rw [hwritten, setPassword_applied svc hset]
    exact fun _ ↦ ⟨_, congrArg Prod.fst hlookup, rfl, rfl⟩

end Population

namespace Storage

variable {svc : Service} {s : Storage}

/-- An operation on one population keeps coherence if it does so there. -/
theorem Coherent.onPopulation {α : Type} (h : s.Coherent) (isSub : Bool)
    {f : Population → α × Population} (hf : ∀ p : Population, p.Coherent → (f p).2.Coherent) :
    (s.onPopulation isSub f).2.Coherent :=
  h.setPopulation (hf _ (h isSub))

theorem Coherent.createAction (h : s.Coherent) (a : ActionLink) : (s.createAction a).Coherent := by
  intro isSub
  rw [population_createAction]
  exact h isSub

end Storage

namespace RestApi.LoginContext

variable (x : LoginContext) (isSub : Bool) {s : LoginState}

/-- A token that answers a password login is that of a successful login, and the second factor
was not needed or could not be sent. -/
theorem passwordLogin_token {userId password newPassword : String}
    {challengeStart : Option MFAChallenge} {wt : WebToken}
    (h : (x.passwordLogin isSub s userId password newPassword).1 = .token challengeStart wt) :
    ∃ result, (x.authorize isSub s.storage userId password newPassword).1 = result ∧
      result.reason = some .SUCCESS ∧ wt = result.uinfo.webtoken ∧
      (result.uinfo.userinfo.userTypeProprietaryInfo.mfa.enabled = true →
        x.services.methodEnabled result.uinfo.userinfo.userTypeProprietaryInfo.mfa.method = false ∨
        x.services.sendChallenge result.uinfo result.uinfo.userinfo.userTypeProprietaryInfo.mfa.method
          (makeChallenge x.random) = false) := by
  unfold passwordLogin at h
  rcases hl : x.authorize isSub s.storage userId password newPassword with ⟨result, storage⟩
  rw [hl] at h
  simp only at h
  refine ⟨result, rfl, ?_⟩
  split at h
  · rename_i hreason
    refine ⟨hreason, ?_⟩
    split at h
    · rename_i hrequires
      obtain ⟨henabled, hmethod⟩ := Bool.and_eq_true_iff.mp hrequires
      unfold MFAChallengeCache.startMFAChallenge at h
      simp only [hmethod, Bool.not_true, Bool.false_eq_true, if_false] at h
      rcases hsend : x.services.sendChallenge result.uinfo
          result.uinfo.userinfo.userTypeProprietaryInfo.mfa.method (makeChallenge x.random) with _ | _
      · rw [hsend] at h
        obtain ⟨-, rfl⟩ := LoginAnswer.token.inj h
        exact ⟨rfl, fun _ ↦ .inr rfl⟩
      · rw [hsend] at h
        cases h
    · rename_i hrequires
      obtain ⟨-, rfl⟩ := LoginAnswer.token.inj h
      refine ⟨rfl, fun henabled ↦ .inl ?_⟩
      simpa [requiresMFA, henabled] using hrequires
  · cases h
  · cases h

/-- A token that answers a completion is that of a stored challenge, for its right answer. -/
theorem completeMFAChallenge_token {o : JsonObject} {challengeStart : Option MFAChallenge}
    {wt : WebToken}
    (h : (x.completeMFAChallenge isSub s o).1 = .token challengeStart wt) :
    ∃ uuid hint answer, MFAChallengeCache.field x.svc.json o "uuid" = some uuid ∧
      s.challenges.lookup uuid = some hint ∧
      MFAChallengeCache.field x.svc.json o "answer" = some answer ∧
      hint.accepts x.lib answer x.moment.now = true ∧ wt = hint.uInfo.webtoken := by
  unfold completeMFAChallenge at h
  split at h
  · rcases hl : s.challenges.completeMFAChallenge x.lib x.svc.json x.moment.now o with
      ⟨uInfo | _ | _, challenges⟩
    · rw [hl] at h
      obtain ⟨-, rfl⟩ := LoginAnswer.token.inj h
      obtain ⟨uuid, hint, answer, huuid, hlookup, hanswer, haccepts, rfl⟩ :=
        (MFAChallengeCache.completeMFAChallenge_completed_iff x.lib x.svc.json).mp
          (congrArg Prod.fst hl)
      exact ⟨uuid, hint, answer, huuid, hlookup, hanswer, haccepts, rfl⟩
    · rw [hl] at h
      cases h
    · rw [hl] at h
      cases h
  · cases h

/-! ### What each branch leaves -/

@[simp] theorem refresh_challenges (s : LoginState) (bearer : Option String)
    (refreshToken : String) : (x.refresh isSub s bearer refreshToken).2.challenges = s.challenges := by
  unfold refresh
  simp only
  split <;> rfl

@[simp] theorem forgotPassword_challenges (s : LoginState) (userId : String) :
    (x.forgotPassword isSub s userId).2.challenges = s.challenges := by
  unfold forgotPassword
  simp only
  split <;> rfl

/-- The answer to a forgotten password has no access token. -/
theorem forgotPassword_token {userId : String} {challengeStart : Option MFAChallenge}
    {wt : WebToken} (h : (x.forgotPassword isSub s userId).1 = .token challengeStart wt) :
    wt.accessToken = "" := by
  unfold forgotPassword at h
  simp only at h
  split at h
  · obtain ⟨-, rfl⟩ := LoginAnswer.token.inj h
    rfl
  · obtain ⟨-, rfl⟩ := LoginAnswer.token.inj h
    rfl

/-- A completion adds no challenge. -/
theorem completeMFAChallenge_evicts (s : LoginState) (o : JsonObject) :
    Cache.Evicts s.challenges (x.completeMFAChallenge isSub s o).2.challenges := by
  have hcases :=
    MFAChallengeCache.completeMFAChallenge_cache x.lib x.svc.json x.moment.now s.challenges o
  have hevicts : Cache.Evicts s.challenges
      (s.challenges.completeMFAChallenge x.lib x.svc.json x.moment.now o).2 := by
    rcases hcases with ⟨-, hkept⟩ | ⟨-, uuid, -, -, herase⟩
    · rw [hkept]
      exact Cache.Evicts.refl _
    · rw [herase]
      exact Cache.Evicts.erase _ _
  unfold completeMFAChallenge
  split
  · simp only
    split <;> exact hevicts
  · exact Cache.Evicts.refl _

end RestApi.LoginContext

/-! ## Runs of login requests -/

/-- A challenge that a password login started. -/
structure StartedChallenge where
  uuid : String
  isSub : Bool
  /-- The address that was given with the password. -/
  userId : String
  /-- What the check of the password reported. -/
  login : LoginResult
  entry : MFACacheEntry

/-- The state of the service with the challenges so far. -/
structure Gate where
  state : LoginState := {}
  started : List StartedChallenge := []

/-- What happens in one step. -/
inductive GateEvent
  /-- A POST to `/oauth2` (`false`) or `/suboauth2` (`true`). -/
  | post (x : LoginContext) (isSub : Bool) (r : Request)
  /-- A step of the rest of the service. -/
  | elsewhere (e : Event)

namespace Gate

/-- The challenge that a request starts. -/
def startedBy (x : LoginContext) (isSub : Bool) (r : Request) (s : LoginState) :
    Option StartedChallenge :=
  match LoginRequest.of x.svc.json r with
  | .passwordLogin userId password newPassword =>
    let login := (x.authorize isSub s.storage userId password newPassword).1
    if login.reason = some .SUCCESS ∧ requiresMFA x.services login.uinfo then
      some
        { uuid := x.moment.uuid
          isSub := isSub
          userId := userId
          login := login
          entry := MFAChallengeCache.newEntry x.moment.now x.random login.uinfo }
    else none
  | _ => none

/-- A POST. -/
def post (g : Gate) (x : LoginContext) (isSub : Bool) (r : Request) : Gate where
  state := (x.doPostWith isSub r g.state).2
  started := (startedBy x isSub r g.state).toList ++ g.started

variable (svc : Service)

/-- One step. -/
inductive Step : Gate → GateEvent → Gate → Prop
  | post {g : Gate} (x : LoginContext) (isSub : Bool) (r : Request) (h : x.svc = svc) :
    Step g (.post x isSub r) (g.post x isSub r)
  | elsewhere {g : Gate} {e : Event} {storage : Storage}
    (h : Storage.Step svc g.state.storage e storage) :
    Step g (.elsewhere e) { g with state := { g.state with storage } }

/-- The service has just started. -/
structure AtStart (g : Gate) : Prop where
  storage : Storage.AtStart g.state.storage
  challenges : g.state.challenges = ∅
  started : g.started = []

/-- Login requests as a transition system. -/
def system : System Gate GateEvent where
  init := AtStart
  step := Step svc

/-- The stored challenges are those that successful password logins started. -/
structure Sound (g : Gate) : Prop where
  coherent : g.state.storage.Coherent
  challenges : ∀ uuid hint, g.state.challenges.lookup uuid = some hint → ∃ c ∈ g.started,
    c.uuid = uuid ∧ c.entry = hint
  started : ∀ c ∈ g.started, c.login.reason = some .SUCCESS ∧ c.login.uinfo = c.entry.uInfo

/-! ## What one request does -/

section Steps

variable {svc} {x : LoginContext} {isSub : Bool} {r : Request} {s : LoginState} {g g' : Gate}

/-- A request keeps the user caches coherent. -/
theorem coherent_doPostWith (h : s.storage.Coherent) :
    (x.doPostWith isSub r s).2.storage.Coherent := by
  refine x.doPostWith_rule isSub h (fun callToken refreshToken ↦ ?_) (fun userId ↦ ?_)
    (fun s' link hs' ↦ hs'.createAction link) fun userId password newPassword _ ↦ ?_
  · exact h.onPopulation isSub fun p hp ↦
      hp.refreshTokenFor x.svc x.moment callToken refreshToken
  · exact h.onPopulation isSub fun p hp ↦ hp.getUserByEmail x.svc userId
  · exact h.onPopulation isSub fun p hp ↦
      hp.authorizeWith x.svc (Storage.passwordRule x.svc isSub) x.moment userId password newPassword

/-- A request drops challenges, or adds the one it starts. -/
theorem challenges_doPostWith :
    Cache.Evicts s.challenges (x.doPostWith isSub r s).2.challenges ∨
      ∃ c, startedBy x isSub r s = some c ∧ (x.doPostWith isSub r s).2.challenges =
        AList.insert c.uuid c.entry (s.challenges.cleanCache x.moment.now) := by
  have hsame : Cache.Evicts s.challenges s.challenges := Cache.Evicts.refl _
  unfold LoginContext.doPostWith
  split
  case h_1 | h_2 | h_4 => exact .inl hsame
  case h_3 =>
    rw [x.refresh_challenges]
    exact .inl hsame
  case h_5 =>
    rw [x.forgotPassword_challenges]
    exact .inl hsame
  case h_6 o _ =>
    obtain ⟨a, ha⟩ := x.resendMFACode_eq s o
    rw [ha]
    exact .inl hsame
  case h_7 o _ => exact .inl (x.completeMFAChallenge_evicts isSub s o)
  case h_8 userId password newPassword hkind =>
    unfold LoginContext.passwordLogin startedBy
    simp only [hkind]
    rcases x.authorize isSub s.storage userId password newPassword with ⟨result, storage⟩
    simp only
    split
    · rename_i hreason
      split
      · rename_i hrequires
        refine .inr ⟨_, if_pos ⟨hreason, hrequires⟩, ?_⟩
        have hcache := MFAChallengeCache.startMFAChallenge_cache x.services x.moment x.random
          s.challenges result.uinfo
        rw [if_pos (Bool.and_eq_true_iff.mp hrequires).2] at hcache
        split
        · rename_i hl
          rw [hl] at hcache
          exact hcache
        · rename_i hl
          rw [hl] at hcache
          exact hcache
      · exact .inl hsame
    · exact .inl hsame
    · exact .inl hsame

/-- A challenge is started by a login that succeeded, for the user it found. -/
theorem startedBy_some {c : StartedChallenge} (h : startedBy x isSub r s = some c) :
    c.login.reason = some .SUCCESS ∧ c.login.uinfo = c.entry.uInfo := by
  unfold startedBy at h
  split at h
  · simp only at h
    split at h
    · rename_i hlogin
      obtain rfl := Option.some.inj h
      exact ⟨hlogin.1, rfl⟩
    · cases h
  · cases h

theorem Sound.post (hg : Sound g) (x : LoginContext) (isSub : Bool) (r : Request) :
    Sound (g.post x isSub r) := by
  constructor
  case coherent => exact coherent_doPostWith hg.coherent
  case challenges =>
    intro uuid hint hl
    have hold (hl : g.state.challenges.lookup uuid = some hint) :
        ∃ c ∈ (g.post x isSub r).started, c.uuid = uuid ∧ c.entry = hint := by
      obtain ⟨c, hc, hstored⟩ := hg.challenges uuid hint hl
      exact ⟨c, List.mem_append_right _ hc, hstored⟩
    rcases challenges_doPostWith (x := x) (s := g.state) with hevicts | ⟨c, hstarted, hinsert⟩
    · exact hold (hevicts uuid hint hl)
    · change (x.doPostWith isSub r g.state).2.challenges.lookup uuid = some hint at hl
      rw [hinsert, Cache.lookup_insert_eq] at hl
      split at hl
      · rename_i huuid
        refine ⟨c, ?_, huuid.symm, Option.some.inj hl⟩
        unfold Gate.post
        simp [hstarted]
      · exact hold (MFAChallengeCache.evicts_cleanCache _ _ uuid hint hl)
  case started =>
    intro c hc
    rcases List.mem_append.mp hc with hc | hc
    · exact startedBy_some (Option.mem_toList.mp hc)
    · exact hg.started c hc

/-- One step keeps the invariant. -/
theorem Sound.step {e : GateEvent} (hg : Sound g) (h : Step svc g e g') : Sound g' := by
  cases h with
  | post x isSub r => exact hg.post x isSub r
  | elsewhere h => exact ⟨hg.coherent.step svc h, hg.challenges, hg.started⟩

/-- Every run keeps the invariant. -/
theorem Sound.reachable (h : (system svc).Reachable g) : Sound g :=
  h.invariant
    (fun _ h₀ ↦ ⟨fun isSub ↦ .of_empty (h₀.storage isSub).1, fun uuid hint hl ↦ by
      rw [h₀.challenges] at hl
      simp at hl, fun c hc ↦ by
      rw [h₀.started] at hc
      cases hc⟩)
    (fun _ _ _ hg hstep ↦ hg.step hstep)

end Steps

/-! ## The gate -/

/-- The token was answered to the completion, with the right answer, of a challenge that a
successful password login started, and it is the token of that login. -/
def ByChallenge (g : Gate) (x : LoginContext) (r : Request) (wt : WebToken) : Prop :=
  ∃ o uuid answer, LoginRequest.of x.svc.json r = .completeMFAChallenge o ∧
    MFAChallengeCache.field x.svc.json o "uuid" = some uuid ∧
    MFAChallengeCache.field x.svc.json o "answer" = some answer ∧
    ∃ c ∈ g.started, c.uuid = uuid ∧ c.login.reason = some .SUCCESS ∧
      c.entry.uInfo = c.login.uinfo ∧ c.entry.accepts x.lib answer x.moment.now = true ∧
      wt = c.login.uinfo.webtoken

/-- The token was answered to a successful password login; if the record of the account has a
second factor, its method was not enabled or the challenge could not be sent. -/
def ByPassword (g : Gate) (x : LoginContext) (isSub : Bool) (r : Request) (wt : WebToken) : Prop :=
  ∃ userId password newPassword login row,
    LoginRequest.of x.svc.json r = .passwordLogin userId password newPassword ∧
    (x.authorize isSub g.state.storage userId password newPassword).1 = login ∧
    login.reason = some .SUCCESS ∧ wt = login.uinfo.webtoken ∧
    (g.state.storage.population isSub).users.find? login.uinfo.userinfo.id = some row ∧
    (row.userTypeProprietaryInfo.mfa.enabled = true →
      x.services.methodEnabled row.userTypeProprietaryInfo.mfa.method = false ∨
      x.services.sendChallenge login.uinfo row.userTypeProprietaryInfo.mfa.method
        (makeChallenge x.random) = false)

/-- In every run, an access token that answers a login request was answered to the completion
of a challenge, or to a password login that did not need the second factor or could not ask
for it. -/
theorem token_past_gate {g : Gate} (h : (system svc).Reachable g) (x : LoginContext)
    (isSub : Bool) (r : Request)
    (hlogin : ∀ refreshToken, LoginRequest.of x.svc.json r ≠ .refreshGrant refreshToken)
    {challengeStart : Option MFAChallenge} {wt : WebToken}
    (htoken : (x.doPostWith isSub r g.state).1 = .token challengeStart wt)
    (haccess : wt.accessToken ≠ "") : ByChallenge g x r wt ∨ ByPassword g x isSub r wt := by
  have hg := Sound.reachable h
  unfold LoginContext.doPostWith at htoken
  split at htoken
  case h_1 | h_2 | h_4 => cases htoken
  case h_3 refreshToken hkind => exact absurd hkind (hlogin refreshToken)
  case h_5 userId hkind => exact absurd (x.forgotPassword_token isSub htoken) haccess
  case h_6 o hkind =>
    obtain ⟨a, ha⟩ := x.resendMFACode_eq g.state o
    rw [ha] at htoken
    cases htoken
  case h_7 o hkind =>
    left
    obtain ⟨uuid, hint, answer, huuid, hlookup, hanswer, haccepts, rfl⟩ :=
      x.completeMFAChallenge_token isSub htoken
    obtain ⟨c, hc, hcuuid, rfl⟩ := hg.challenges uuid hint hlookup
    obtain ⟨hreason, hinfo⟩ := hg.started c hc
    exact ⟨o, uuid, answer, hkind, huuid, hanswer, c, hc, hcuuid, hreason, hinfo.symm, haccepts,
      by rw [hinfo]⟩
  case h_8 userId password newPassword hkind =>
    right
    obtain ⟨login, hresult, hreason, hwt, hgate⟩ := x.passwordLogin_token isSub htoken
    obtain ⟨u, hlookup, hid, hinfo⟩ := Population.authorizeWith_logsIn x.svc
      (Storage.passwordRule x.svc isSub) x.moment userId password newPassword
      ((congrArg LoginResult.reason hresult).trans hreason)
    obtain ⟨row, hrow, hsame⟩ := (hg.coherent isSub).of_getRecordByEMail x.svc hlookup
    -- the record that was looked up has the second factor of the row
    have hfactor : login.uinfo.userinfo.userTypeProprietaryInfo = row.userTypeProprietaryInfo := by
      rw [← hresult]
      exact hinfo.trans (hsame.eq UserInfo.userTypeProprietaryInfo fun _ _ ↦ rfl)
    rw [hfactor] at hgate
    refine ⟨userId, password, newPassword, login, row, hkind, hresult, hreason, hwt, ?_, hgate⟩
    rw [← hresult]
    exact hid ▸ hrow

/-! ## A login with a second factor

An account whose second factor is a telephone logs in while messages are sent, and while they
are not. -/

/-- The account, as it is stored. -/
def sampleRow : UserInfo where
  id := "uuid-a"
  email := "jo@example.com"
  currentPassword := "<Secret-1jo@example.com>"
  userTypeProprietaryInfo :=
    { mobiles := [{ number := "+15550100", verified := true }]
      mfa := { enabled := true, method := "sms" } }

/-- A service that has just started, with that account. -/
def sampleGate : Gate where
  state :=
    { storage := { user := { users := { rows := [sampleRow], nodup := by decide } } } }

/-- The surroundings of a request; the provider takes a message or it does not. -/
def sampleContext (now : ℕ) (sends : Bool) : LoginContext where
  svc := .sample
  lib := .sample
  services :=
    { smsEnabled := true, mailEnabled := false, sendSMS := fun _ _ ↦ sends
      sendEmailChallengeCode := fun _ _ ↦ false }
  policy := ⟨"", "", ""⟩
  moment := .sample now "m"
  random := 482913

/-- The login with the password. -/
def samplePassword : Request where
  method := .POST
  body := .object [("userId", .str "jo@example.com"), ("password", .str "Secret-1")]

/-- The completion with the answer. -/
def sampleAnswer : Request where
  method := .POST
  parameters := [("completeMFAChallenge", "true")]
  body := .object [("uuid", .str "uuid-m"), ("answer", .str "482913")]

theorem atStart_sampleGate : AtStart sampleGate where
  storage isSub := by cases isSub <;> exact ⟨rfl, rfl, rfl⟩
  challenges := rfl
  started := rfl

/-- The statement for the completion of the challenge that the login started. -/
theorem token_past_gate_sample :
    ∃ g challengeStart wt, (system .sample).Reachable g ∧
      ((sampleContext 1700000010 true).doPostWith false sampleAnswer g.state).1 =
        .token challengeStart wt ∧
      (ByChallenge g (sampleContext 1700000010 true) sampleAnswer wt ∨
        ByPassword g (sampleContext 1700000010 true) false sampleAnswer wt) := by
  have hreach : (system .sample).Reachable
      (sampleGate.post (sampleContext 1700000000 true) false samplePassword) :=
    (System.Reachable.init atStart_sampleGate).step
      (Step.post (sampleContext 1700000000 true) false samplePassword rfl)
  exact ⟨_, none, _, hreach, rfl, token_past_gate .sample hreach (sampleContext 1700000010 true)
    false sampleAnswer (by rintro _ ⟨⟩) rfl (by decide)⟩

/-- When the message cannot be sent, the password alone is answered with the token, though the
stored record has a second factor and its method is enabled. -/
theorem token_without_second_factor :
    ∃ g challengeStart wt, (system .sample).Reachable g ∧
      ((sampleContext 1700000000 false).doPostWith false samplePassword g.state).1 =
        .token challengeStart wt ∧
      wt.accessToken = "token-m" ∧
      g.state.storage.user.users.find? "uuid-a" = some sampleRow ∧
      sampleRow.userTypeProprietaryInfo.mfa.enabled = true ∧
      (sampleContext 1700000000 false).services.methodEnabled
        sampleRow.userTypeProprietaryInfo.mfa.method = true :=
  ⟨sampleGate, _, _, .init atStart_sampleGate, rfl, by decide, by decide, rfl, rfl⟩

end Gate

end OwSec
