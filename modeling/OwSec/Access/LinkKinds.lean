import OwSec.RestApi.ActionLinkEffects
import OwSec.Storage.Runs

/-!
# Kinds of links

A link is stored with its kind and with the table whose record it is about.  `KindLaw` is what
this should mean for a request: it touches at most that record, it verifies an e-mail address
only for links that were sent to verify one, and it sets a password only for links that were
sent to choose one.

`CompleteResetPassword` compares the kind and the table before it goes on.  The other two
functions that complete something do not, so the law fails exactly for the links that they take
for something else: these are the cases of `Confused`.
-/

namespace OwSec

open SecurityObjects Kit RestApi

/-- Links that are sent to verify an e-mail address. -/
def verifiesEmail (action : ℕ) : Bool :=
  action == LinkActions.VERIFY_EMAIL.toNat || action == LinkActions.SUB_VERIFY_EMAIL.toNat ||
    action == LinkActions.SUB_SIGNUP.toNat

/-- Links that are sent to choose a password. -/
def choosesPassword (action : ℕ) : Bool :=
  action == LinkActions.FORGOT_PASSWORD.toNat || action == LinkActions.VERIFY_EMAIL.toNat ||
    action == LinkActions.SUB_FORGOT_PASSWORD.toNat || action == LinkActions.SUB_SIGNUP.toNat

/-- What a request changes fits the link that it names. -/
structure KindLaw (x : LinkContext) (s : Storage) (req : LinkRequest) : Prop where
  /-- Only the record of the link changes. -/
  confined : ∀ isSub k, ((x.handle s req).2.population isSub).users.find? k ≠
    (s.population isSub).users.find? k →
      ∃ link, s.getActionLink req.linkId = some link ∧ isSub = (!link.userAction) ∧
        k = link.userId
  /-- An address is verified only for a link that was sent to verify it. -/
  verification : ∀ isSub k r r', (s.population isSub).users.find? k = some r →
    ((x.handle s req).2.population isSub).users.find? k = some r' →
      r'.waitingForEmailCheck ≠ r.waitingForEmailCheck ∨ r'.validated ≠ r.validated →
        ∃ link, s.getActionLink req.linkId = some link ∧ verifiesEmail link.action = true
  /-- A password is set only for a link that was sent to choose one. -/
  password : ∀ isSub k r r', (s.population isSub).users.find? k = some r →
    ((x.handle s req).2.population isSub).users.find? k = some r' →
      r'.currentPassword ≠ r.currentPassword →
        ∃ link, s.getActionLink req.linkId = some link ∧ choosesPassword link.action = true

/-- A request that is let past the checks with a link that was sent for something else. -/
inductive Confused (x : LinkContext) (s : Storage) : LinkRequest → Prop
  /-- The form of a sign-up, with a link about a user: a subscriber of that identifier is
  written. -/
  | table {r : Request} {form : List (String × String)} {link : ActionLink} {u u' row : UserInfo}
    (hup : Updates x s (.post r form) link false u u') (huser : link.userAction = true)
    (hrow : s.sub.users.find? link.userId = some row) (hne : u' ≠ row) :
    Confused x s (.post r form)
  /-- The form of a sign-up, with a link that verifies no address, for a subscriber who has not
  been verified. -/
  | signup {r : Request} {form : List (String × String)} {link : ActionLink} {u u' row : UserInfo}
    (haction : r.getParameter "action" = "signup_completion")
    (hup : Updates x s (.post r form) link false u u') (hkind : verifiesEmail link.action = false)
    (hrow : s.sub.users.find? link.userId = some row)
    (hopen : row.waitingForEmailCheck = true ∨ row.validated ≠ (x.moment.now != 0)) :
    Confused x s (.post r form)
  /-- The form of a sign-up, with a link that chooses no password. -/
  | password {r : Request} {form : List (String × String)} {link : ActionLink}
    {u u' row : UserInfo} (hup : Updates x s (.post r form) link false u u')
    (hkind : choosesPassword link.action = false)
    (hrow : s.sub.users.find? link.userId = some row)
    (hne : computeNewPasswordHash x.svc x.moment.salt (toLower row.email)
      (formGet form "password1" "bla") ≠ row.currentPassword) :
    Confused x s (.post r form)
  /-- The verification of an address, with a link that verifies none, for a subscriber who has
  not been verified. -/
  | verify {r : Request} {link : ActionLink} {u u' row : UserInfo}
    (hup : Updates x s (.get r) link false u u') (hkind : verifiesEmail link.action = false)
    (hrow : s.sub.users.find? link.userId = some row)
    (hopen : row.waitingForEmailCheck = true ∨ row.validated = false) : Confused x s (.get r)

section Records

variable {x : LinkContext} {s : Storage} {req : LinkRequest} {link : ActionLink}
  {userAction : Bool} {u u' : UserInfo}

/-- The password that is set is the salted hash of the one in the form. -/
theorem setPassword_currentPassword {svc : Service} {salt newPassword : String}
    (h : setPassword svc salt newPassword u = .applied u') :
    u'.currentPassword = computeNewPasswordHash svc salt (toLower u.email) newPassword := by
  simp only [setPassword] at h
  split at h
  · cases h
  · cases h
  · obtain rfl := SetPasswordResult.applied.inj h
    rfl

/-- A reset touches the verification of the address only for a link that verifies it. -/
theorem resetRecord_verification (hkind : verifiesEmail link.action = false) (u : UserInfo) :
    (x.resetRecord link u).waitingForEmailCheck = u.waitingForEmailCheck ∧
      (x.resetRecord link u).validated = u.validated := by
  have hnot : (link.action == LinkActions.VERIFY_EMAIL.toNat) = false := by
    unfold verifiesEmail at hkind
    simp only [Bool.or_eq_false_iff] at hkind
    exact hkind.1.1
  unfold LinkContext.resetRecord
  simp only [hnot, Bool.false_eq_true, if_false, and_self]

theorem choosesPassword_of_valid
    (h : validUserAction link = true ∨ validSubscriberAction link = true) :
    choosesPassword link.action = true := by
  unfold choosesPassword
  rcases h with h | h
  · unfold validUserAction at h
    simp only [Bool.and_eq_true, Bool.or_eq_true] at h ⊢
    exact .inl (.inl h.2)
  · unfold validSubscriberAction at h
    simp only [Bool.and_eq_true, Bool.or_eq_true] at h ⊢
    exact .inl (.inr h.2)

/-- A row that differs afterwards is that of an update. -/
theorem updates_of_ne (hs : s.Coherent) {isSub : Bool} {k : String} {r r' : UserInfo}
    (hr : (s.population isSub).users.find? k = some r)
    (hr' : ((x.handle s req).2.population isSub).users.find? k = some r') (hne : r' ≠ r) :
    ∃ link userAction u, Updates x s req link userAction u r' ∧ isSub = (!userAction) ∧
      k = link.userId ∧ SameButLogin u r := by
  rcases x.find?_handle_cases hs req isSub k with
    hsame | ⟨link, userAction, u, u', hup, rfl, rfl, hafter⟩
  · rw [hsame, hr] at hr'
    exact absurd (Option.some.inj hr').symm hne
  · obtain rfl := Option.some.inj (hafter.symm.trans hr')
    obtain ⟨row, hrow, hsame, -⟩ := hup.row hs
    obtain rfl := Option.some.inj (hrow.symm.trans hr)
    exact ⟨link, userAction, u, hup, rfl, rfl, hsame⟩

/-- An update that belongs to no verification leaves the verification alone, or confuses the
link with another. -/
theorem RestApi.Updates.verification {row : UserInfo} (h : Updates x s req link userAction u u')
    (hrow : (s.population (!userAction)).users.find? link.userId = some row)
    (hsame : SameButLogin u row) (hkind : verifiesEmail link.action = false)
    (hnot : ¬ Confused x s req) :
    u'.waitingForEmailCheck = row.waitingForEmailCheck ∧ u'.validated = row.validated := by
  have hwaiting : u.waitingForEmailCheck = row.waitingForEmailCheck := hsame.eq _ fun _ _ ↦ rfl
  have hvalidated : u.validated = row.validated := hsame.eq _ fun _ _ ↦ rfl
  cases h with
  | @reset r form _ _ u₁ _ _ _ _ _ _ _ _ _ hset =>
    have happlied := setPassword_applied x.svc hset
    obtain ⟨hw, hv⟩ := resetRecord_verification (x := x) hkind u₁
    have hw₁ := congrArg UserInfo.waitingForEmailCheck happlied
    have hv₁ := congrArg UserInfo.validated happlied
    exact ⟨(hw.trans hw₁).trans hwaiting, (hv.trans hv₁).trans hvalidated⟩
  | signup haction hform hlink htime hpasswords hrule hfound henabled hset =>
    by_contra hdiff
    refine hnot (.signup haction (.signup haction hform hlink htime hpasswords hrule hfound
      henabled hset) hkind hrow ?_)
    by_contra hopen
    simp only [not_or, Bool.not_eq_true, not_not] at hopen
    exact hdiff ⟨hopen.1.symm, hopen.2.symm⟩
  | verify haction hlink htime hsub hfound =>
    by_contra hdiff
    refine hnot (.verify (.verify haction hlink htime hsub hfound) hkind hrow ?_)
    by_contra hopen
    simp only [not_or, Bool.not_eq_true, Bool.not_eq_false] at hopen
    exact hdiff ⟨hopen.1.symm, hopen.2.symm⟩

/-- An update that belongs to no choice of a password leaves the password alone, or confuses the
link with another. -/
theorem RestApi.Updates.password {row : UserInfo} (h : Updates x s req link userAction u u')
    (hrow : (s.population (!userAction)).users.find? link.userId = some row)
    (hsame : SameButLogin u row) (hkind : choosesPassword link.action = false)
    (hnot : ¬ Confused x s req) : u'.currentPassword = row.currentPassword := by
  cases h with
  | reset _ _ _ _ hvalid =>
    rw [choosesPassword_of_valid hvalid] at hkind
    cases hkind
  | @signup r form _ _ u₁ haction hform hlink htime hpasswords hrule hfound henabled hset =>
    have hemail : u.email = row.email := hsame.eq _ fun _ _ ↦ rfl
    have hpassword := setPassword_currentPassword hset
    rw [hemail] at hpassword
    by_contra hne
    refine hnot (.password (.signup haction hform hlink htime hpasswords hrule hfound
      henabled hset) hkind hrow ?_)
    rw [← hpassword]
    exact hne
  | verify => exact hsame.eq UserInfo.currentPassword fun _ _ ↦ rfl

/-- The verification of an address shows in the record of a subscriber who has not been
verified. -/
theorem RestApi.Updates.verify_shows {r : Request} {row : UserInfo}
    (h : Updates x s (.get r) link false u u')
    (hopen : row.waitingForEmailCheck = true ∨ row.validated = false) :
    u'.waitingForEmailCheck ≠ row.waitingForEmailCheck ∨ u'.validated ≠ row.validated := by
  cases h with
  | verify =>
    exact hopen.imp (fun h ↦ by simp [LinkContext.verifiedRecord, h])
      fun h ↦ by simp [LinkContext.verifiedRecord, h]

/-- So does the form of a sign-up. -/
theorem RestApi.Updates.signup_shows {r : Request} {form : List (String × String)}
    {row : UserInfo} (h : Updates x s (.post r form) link false u u')
    (haction : r.getParameter "action" = "signup_completion")
    (hopen : row.waitingForEmailCheck = true ∨ row.validated ≠ (x.moment.now != 0)) :
    u'.waitingForEmailCheck ≠ row.waitingForEmailCheck ∨ u'.validated ≠ row.validated := by
  generalize false = userAction at h
  cases h with
  | reset haction' =>
    rw [haction] at haction'
    exact absurd haction' (by decide)
  | signup => exact hopen.imp (fun h ↦ by simp [LinkContext.signupRecord, h]) Ne.symm

/-- A form with a link that chooses no password sets the one in the form. -/
theorem RestApi.Updates.signup_password {r : Request} {form : List (String × String)}
    {row : UserInfo} (h : Updates x s (.post r form) link false u u')
    (hkind : choosesPassword link.action = false) (hsame : SameButLogin u row) :
    u'.currentPassword = computeNewPasswordHash x.svc x.moment.salt (toLower row.email)
      (formGet form "password1" "bla") := by
  have hemail : u.email = row.email := hsame.eq _ fun _ _ ↦ rfl
  generalize false = userAction at h
  cases h with
  | reset _ _ _ _ hvalid =>
    rw [choosesPassword_of_valid hvalid] at hkind
    cases hkind
  | signup _ _ _ _ _ _ _ _ hset =>
    have hpassword := setPassword_currentPassword hset
    rw [hemail] at hpassword
    exact hpassword

/-! ## The law and the confusions -/

/-- Under the law, the link of an update that verifies an address was sent for that. -/
theorem KindLaw.verifies {row : UserInfo} (hlaw : KindLaw x s req) (hs : s.Coherent)
    (hup : Updates x s req link userAction u u')
    (hrow : (s.population (!userAction)).users.find? link.userId = some row)
    (hdiff : u'.waitingForEmailCheck ≠ row.waitingForEmailCheck ∨ u'.validated ≠ row.validated) :
    verifiesEmail link.action = true := by
  obtain ⟨link', hlink', hkind⟩ := hlaw.verification _ _ row u' hrow (hup.find?_handle hs) hdiff
  obtain rfl := Option.some.inj (hup.named.1.symm.trans hlink')
  exact hkind

/-- Under the law, the link of an update that sets a password was sent for that. -/
theorem KindLaw.chooses {row : UserInfo} (hlaw : KindLaw x s req) (hs : s.Coherent)
    (hup : Updates x s req link userAction u u')
    (hrow : (s.population (!userAction)).users.find? link.userId = some row)
    (hdiff : u'.currentPassword ≠ row.currentPassword) : choosesPassword link.action = true := by
  obtain ⟨link', hlink', hkind⟩ := hlaw.password _ _ row u' hrow (hup.find?_handle hs) hdiff
  obtain rfl := Option.some.inj (hup.named.1.symm.trans hlink')
  exact hkind

/-- Under the law, no link is taken for something else. -/
theorem KindLaw.not_confused (hlaw : KindLaw x s req) (hs : s.Coherent) : ¬ Confused x s req := by
  intro hconfused
  cases hconfused with
  | @table r form link u u' row hup huser hrow hne =>
    have hafter := hup.find?_handle hs
    obtain ⟨link', hlink', hsub, -⟩ := hlaw.confined true link.userId fun hsame ↦ hne
      (Option.some.inj ((hafter.symm.trans hsame).trans hrow))
    obtain rfl := Option.some.inj (hup.named.1.symm.trans hlink')
    rw [huser] at hsub
    cases hsub
  | signup haction hup hkind hrow hopen =>
    have hkind' := hlaw.verifies hs hup hrow (hup.signup_shows haction hopen)
    rw [hkind] at hkind'
    cases hkind'
  | password hup hkind hrow hne =>
    obtain ⟨row', hrow', hsame, -⟩ := hup.row hs
    obtain rfl := Option.some.inj (hrow.symm.trans hrow')
    have hkind' := hlaw.chooses hs hup hrow fun hkept ↦
      hne ((hup.signup_password hkind hsame).symm.trans hkept)
    rw [hkind] at hkind'
    cases hkind'
  | verify hup hkind hrow hopen =>
    have hkind' := hlaw.verifies hs hup hrow (hup.verify_shows hopen)
    rw [hkind] at hkind'
    cases hkind'

/-- Without a confusion, an update writes the table that its link selects, or writes what the
row holds. -/
theorem RestApi.Updates.table {row : UserInfo} (h : Updates x s req link userAction u u')
    (hrow : (s.population (!userAction)).users.find? link.userId = some row) (hne : u' ≠ row)
    (hnot : ¬ Confused x s req) : userAction = link.userAction := by
  cases h with
  | reset => rfl
  | signup haction hform hlink htime hpasswords hrule hfound henabled hset =>
    by_contra huser
    have huser : link.userAction = true := by simpa using Ne.symm huser
    exact hnot (.table (.signup haction hform hlink htime hpasswords hrule hfound henabled hset)
      huser hrow hne)
  | verify _ _ _ hsub => exact hsub.symm

/-- Where no link is taken for something else, the law holds. -/
theorem kindLaw_of_not_confused (hs : s.Coherent) (hnot : ¬ Confused x s req) :
    KindLaw x s req := by
  constructor
  case confined =>
    intro isSub k hne
    rcases x.find?_handle_cases hs req isSub k with
      hsame | ⟨link, userAction, u, u', hup, rfl, rfl, hafter⟩
    · exact absurd hsame hne
    obtain ⟨row, hrow, -, -⟩ := hup.row hs
    have hdiff : u' ≠ row := by
      rintro rfl
      exact hne (hafter.trans hrow.symm)
    exact ⟨link, hup.named.1, congrArg not (hup.table hrow hdiff hnot), rfl⟩
  case verification =>
    intro isSub k r r' hr hr' hdiff
    have hne : r' ≠ r := by
      rintro rfl
      simp at hdiff
    obtain ⟨link, userAction, u, hup, rfl, rfl, hsame⟩ := updates_of_ne hs hr hr' hne
    refine ⟨link, hup.named.1, ?_⟩
    by_contra hkind
    obtain ⟨hw, hv⟩ := hup.verification hr hsame (by simpa using hkind) hnot
    exact hdiff.elim (absurd hw) (absurd hv)
  case password =>
    intro isSub k r r' hr hr' hdiff
    have hne : r' ≠ r := by
      rintro rfl
      exact hdiff rfl
    obtain ⟨link, userAction, u, hup, rfl, rfl, hsame⟩ := updates_of_ne hs hr hr' hne
    refine ⟨link, hup.named.1, ?_⟩
    by_contra hkind
    exact hdiff (hup.password hr hsame (by simpa using hkind) hnot)

end Records

/-- What a request changes fits the link that it names exactly when the link is not taken for
something else. -/
theorem kindLaw_iff {x : LinkContext} {s : Storage} (h : (Storage.system x.svc).Reachable s)
    (req : LinkRequest) : KindLaw x s req ↔ ¬ Confused x s req := by
  have hs := Storage.coherent_of_reachable x.svc h
  exact ⟨fun hlaw ↦ hlaw.not_confused hs, kindLaw_of_not_confused hs⟩

/-! ## Links that are taken for something else

A subscriber who waits for the verification of an address, and a link that was sent for something
else. -/

/-- The subscriber and a link of some kind. -/
def sampleSignedUp (action : LinkActions) : Storage where
  sub :=
    { users := ⟨[{ id := "uuid-s", email := "sam@example.com", waitingForEmailCheck := true }],
        by decide⟩ }
  actionLinks := ⟨[{
    id := "link-s"
    action := action.toNat
    userId := "uuid-s"
    userAction := false
    expires := 1700086400 }], List.nodup_singleton _⟩

/-- The surroundings of a request. -/
def sampleMailed : LinkContext where
  svc := .sample
  moment := .sample 1700000000 "m"
  passwordValidation := ".{8,}"
  uiURI := "https://ui.example.com"
  globalVars := []

/-- A visit to the address of the mail. -/
def sampleVisit : LinkRequest :=
  .get { parameters := [("action", "email_verification"), ("id", "link-s")] }

/-- The form of a sign-up. -/
def sampleSignupForm : LinkRequest :=
  .post { method := .POST, parameters := [("action", "signup_completion")] }
    [("id", "link-s"), ("password1", "open-sesame"), ("password2", "open-sesame")]

theorem reachable_sampleSignedUp (action : LinkActions) :
    (Storage.system .sample).Reachable (sampleSignedUp action) := by
  refine .init fun isSub ↦ ?_
  cases isSub <;> exact ⟨rfl, rfl, rfl⟩

/-- The statement for a link that verifies the address. -/
theorem kindLaw_iff_sample :
    (KindLaw sampleMailed (sampleSignedUp .SUB_VERIFY_EMAIL) sampleVisit ↔
      ¬ Confused sampleMailed (sampleSignedUp .SUB_VERIFY_EMAIL) sampleVisit) ∧
    (sampleMailed.handle (sampleSignedUp .SUB_VERIFY_EMAIL) sampleVisit).2.sub.users.rows.map
      UserInfo.validated = [true] :=
  ⟨kindLaw_iff (reachable_sampleSignedUp _) sampleVisit, by decide⟩

/-- A link to choose a password verifies the address, and a link to verify the address sets a
password. -/
theorem link_kinds_confused :
    ¬ KindLaw sampleMailed (sampleSignedUp .SUB_FORGOT_PASSWORD) sampleVisit ∧
      ¬ KindLaw sampleMailed (sampleSignedUp .SUB_VERIFY_EMAIL) sampleSignupForm := by
  constructor
  · intro hlaw
    obtain ⟨link, hlink, hkind⟩ := hlaw.verification true "uuid-s" _ _ rfl rfl (by decide)
    obtain rfl := Option.some.inj hlink
    cases hkind
  · intro hlaw
    obtain ⟨link, hlink, hkind⟩ := hlaw.password true "uuid-s" _ _ rfl rfl (by decide)
    obtain rfl := Option.some.inj hlink
    cases hkind

end OwSec
