import OwSec.Access.LinkKinds
import OwSec.Mail.Messages
import OwSec.RestApi.ValidateReads

/-!
# Where a subscriber signed up

The sign-up writes an operator and a number into one field of the subscriber, with a colon in
between, and three functions take them apart again: the manager of the links and the mailer of
challenges look for the operator, whose templates they use, and the last step of a sign-up looks
for the number, which it reports to the provisioning service.

They read the field back exactly if neither text has a colon.  The last step cannot read an
empty field at all, and finds that out after it has written the record.
-/

namespace OwSec

open SecurityObjects Kit RestApi

/-! ## Reading the field back -/

/-- Every reader of the field recovers the operator and the number. -/
structure ReadsBack (u : UserInfo) (operatorName signupUUID : String) : Prop where
  /-- The message of a sign-up is written with the template of the operator. -/
  manager : ∀ (settings : MailSettings) (linkId : String),
    ∃ m, settings.signupMessage linkId u = some m ∧
      m.templateName = templateName .SUB_SIGNUP_VERIFICATION operatorName
  /-- So is the code of a challenge. -/
  challenge : ∀ (settings : MailSettings) (code : String),
    (settings.emailChallengeCode u code).templateName =
      templateName .SUB_VERIFICATION_CODE operatorName
  /-- The provisioning service is told the number. -/
  notice : ∀ (x : LinkContext) (id : String),
    ∃ file vars, x.signupReply id u = .signedUp signupUUID file vars

section Readers

variable {u : UserInfo} {operatorName signupUUID : String}

/-- With an operator the name of a template is longer than without. -/
theorem length_templateName (r : EmailReason) (operatorName : String) :
    (templateName r operatorName).toList.length =
      if operatorName = "" then (emailTemplateName r).toList.length + 1
      else operatorName.toList.length + (emailTemplateName r).toList.length + 2 := by
  by_cases h : operatorName = ""
  · rw [if_pos h, h]
    simp [templateName, addOperator]
  · rw [if_neg h, toList_templateName r h]
    simp only [List.length_cons, List.length_append]
    omega

/-- The name of a template says which operator it is for. -/
theorem templateName_inj {r : EmailReason} {a b : String}
    (h : templateName r a = templateName r b) : a = b := by
  have hlists := congrArg String.toList h
  have hlength := congrArg List.length hlists
  rw [length_templateName, length_templateName] at hlength
  by_cases ha : a = "" <;> by_cases hb : b = ""
  · rw [ha, hb]
  · rw [if_pos ha, if_neg hb] at hlength
    omega
  · rw [if_neg ha, if_pos hb] at hlength
    omega
  · rw [toList_templateName r ha, toList_templateName r hb] at hlists
    exact String.ext (List.append_cancel_right (List.cons.inj hlists).2)

/-- The code of a challenge is not written with the shared template of the others by mistake. -/
theorem templateName_ne (operatorName : String) :
    templateName .VERIFICATION_CODE ≠ templateName .SUB_VERIFICATION_CODE operatorName := by
  intro h
  have hlength := congrArg (fun name ↦ name.toList.length) h
  simp only [length_templateName, if_true] at hlength
  have hshort : (emailTemplateName .VERIFICATION_CODE).toList.length = 17 := rfl
  have hlong : (emailTemplateName .SUB_VERIFICATION_CODE).toList.length = 21 := rfl
  split at hlength <;> omega

/-- The readers agree on two parts, and on nothing else. -/
theorem readsBack_iff_tokenize :
    ReadsBack u operatorName signupUUID ↔ tokenize ':' u.signingUp = [operatorName, signupUUID] := by
  constructor
  · intro h
    have settings : MailSettings := ⟨"", "", "", "", "", "", "", "", "", "", "", "", ""⟩
    have hchallenge := h.challenge settings ""
    unfold MailSettings.emailChallengeCode at hchallenge
    rcases hoperator : MailSettings.challengeOperator u with _ | operatorName'
    · rw [hoperator] at hchallenge
      exact absurd hchallenge (templateName_ne operatorName)
    · rw [hoperator] at hchallenge
      obtain rfl := templateName_inj hchallenge
      unfold MailSettings.challengeOperator at hoperator
      split at hoperator
      · cases hoperator
      · split at hoperator
        · rename_i operatorName signupUUID' htokens
          obtain rfl := Option.some.inj hoperator
          obtain ⟨file, vars, hreply⟩ :=
            h.notice ⟨.sample, .sample 0 "", "", "", []⟩ ""
          unfold LinkContext.signupReply at hreply
          rw [htokens] at hreply ⊢
          cases hreply
          rfl
        · cases hoperator
  · intro h
    have hne : u.signingUp ≠ "" := by
      intro hempty
      rw [hempty] at h
      cases h
    constructor
    case manager =>
      intro settings linkId
      unfold MailSettings.signupMessage signupOperator
      rw [h]
      exact ⟨_, rfl, rfl⟩
    case challenge =>
      intro settings code
      unfold MailSettings.emailChallengeCode MailSettings.challengeOperator
      rw [if_neg (by simpa using hne), h]
    case notice =>
      intro x id
      unfold LinkContext.signupReply
      rw [h]
      exact ⟨_, _, rfl⟩

/-- The field is read back if it is the two texts with a colon in between, and neither has one
itself. -/
theorem readsBack_iff :
    ReadsBack u operatorName signupUUID ↔
      ':' ∉ operatorName.toList ∧ ':' ∉ signupUUID.toList ∧
        u.signingUp = operatorName ++ ":" ++ signupUUID := by
  rw [readsBack_iff_tokenize]
  refine ⟨tokenize_eq_pair, fun ⟨hoperator, huuid, heq⟩ ↦ ?_⟩
  rw [heq]
  exact tokenize_append hoperator huuid

end Readers

/-! ## Accepted sign-ups -/

/-- A record whose identifier is free is in the table afterwards. -/
theorem Population.find?_createRecord {p : Population} {r : UserInfo}
    (h : p.users.find? r.id = none) : (p.createRecord r).2.users.find? r.id = some r := by
  obtain ⟨users, hins⟩ := Table.insert_isSome h
  unfold createRecord
  rw [hins]
  exact (Table.find?_insert hins r.id).trans (if_pos rfl)

namespace RestApi.SignupHandler

variable {svc : Service} {c : Context} {s s' : Storage} {u : UserInfo}

/-- The record of an accepted sign-up: a new one, or the one that waits. -/
theorem accepted_record (h : doPost svc c s = (.ok (.user u), s')) :
    (foundSub svc c.request s = none ∧
      u = newSub c.moment (c.request.getParameter "email") (c.request.getParameter "owner")
        (c.request.getParameter "operatorName") (c.request.getParameter "signupUUID")) ∨
      foundSub svc c.request s = some u := by
  have hreply := wp_doPost svc c s
  simp only [Command.wp, h, replyTo] at hreply
  split at hreply
  · cases hreply
  · split at hreply
    · cases hreply
    · split at hreply
      · rename_i hfound
        exact .inl ⟨hfound, Response.user.inj hreply⟩
      · rename_i v hfound
        split at hreply
        · exact .inr (hfound.trans (congrArg some (Response.user.inj hreply).symm))
        · cases hreply

/-- The new record is stored, if nobody has its identifier. -/
theorem stored_record (h : doPost svc c s = (.ok (.user u), s'))
    (hfound : foundSub svc c.request s = none)
    (hfresh : s.sub.users.find? c.moment.uuid = none) : s'.sub.users.find? u.id = some u := by
  have hnew : u = newSub c.moment (c.request.getParameter "email") (c.request.getParameter "owner")
      (c.request.getParameter "operatorName") (c.request.getParameter "signupUUID") := by
    rcases accepted_record h with ⟨-, hu⟩ | hu
    · exact hu
    · rw [hfound] at hu
      cases hu
  have hstored : Command.wp (doPost svc c)
      (fun reply s' ↦ ∀ u, reply = .user u → u.id = c.moment.uuid → s'.sub.users.find? u.id = some
        (newSub c.moment (c.request.getParameter "email") (c.request.getParameter "owner")
          (c.request.getParameter "operatorName") (c.request.getParameter "signupUUID")))
      (fun _ _ ↦ True) s := by
    unfold doPost UserHandler.getUserByEmail
    simp only [Command.wp_bind, Command.wp_ensure, Command.wp_act]
    refine ⟨fun _ ↦ ⟨fun _ ↦ ?_, fun _ ↦ trivial⟩, fun _ ↦ trivial⟩
    have hnone : (s.onPopulation true fun p ↦
        p.getUserByEmail svc (c.request.getParameter "email")).1 = none := hfound
    rw [hnone]
    have hfree : ((s.sub.getUserByEmail svc (c.request.getParameter "email")).2).users.find?
        (newSub c.moment (c.request.getParameter "email") (c.request.getParameter "owner")
          (c.request.getParameter "operatorName") (c.request.getParameter "signupUUID")).id =
        none := by
      rw [Population.getUserByEmail_users]
      exact hfresh
    rintro v - hid
    -- The link of the sign-up is in another table.
    change ((Storage.createAction _ _).population true).users.find? v.id = _
    rw [Storage.population_createAction, hid]
    exact Population.find?_createRecord hfree
  have hdone := hstored
  simp only [Command.wp, h] at hdone
  have hrow := hdone u rfl (by rw [hnew]; rfl)
  rw [hrow, hnew]

end RestApi.SignupHandler

/-! ## The last step -/

section Completion

variable {x : LinkContext} {s : Storage} {r : Request} {form : List (String × String)}
  {link : ActionLink} {userAction : Bool} {u u' : UserInfo}

/-- The form of a sign-up changes the record, but not where the subscriber signed up. -/
theorem RestApi.Updates.signingUp (haction : r.getParameter "action" = "signup_completion")
    (h : Updates x s (.post r form) link userAction u u') : u'.signingUp = u.signingUp := by
  cases h with
  | reset hreset =>
    rcases hreset with hreset | hreset <;> exact absurd (hreset.symm.trans haction) (by decide)
  | signup _ _ _ _ _ _ _ _ hset =>
    have happlied := congrArg UserInfo.signingUp (setPassword_applied x.svc hset)
    exact happlied

/-- Once the record is updated, the answer is the report to the provisioning service. -/
theorem RestApi.Updates.signupReply (haction : r.getParameter "action" = "signup_completion")
    (h : Updates x s (.post r form) link userAction u u') :
    (x.handle s (.post r form)).1 = x.signupReply (formGet form "id" "") u' := by
  cases h with
  | reset hreset =>
    rcases hreset with hreset | hreset <;> exact absurd (hreset.symm.trans haction) (by decide)
  | signup _ hform hlink htime hsame hrule hfound henabled hset =>
    have hdo : x.handle s (.post r form) = x.completeSubVerification form s := by
      unfold LinkContext.handle LinkContext.doPost
      simp [haction]
    have hlook : x.findUser s false link.userId =
        (some u, (x.findUser s false link.userId).2) := Prod.ext hfound rfl
    rw [hdo]
    unfold LinkContext.completeSubVerification
    simp only [hform, hlink, Nat.not_lt.mpr htime, ← hsame, hrule,
      bne_self_eq_false, Bool.not_true, Bool.or_self, if_false, Bool.false_eq_true]
    rw [hlook]
    simp only [henabled.1, henabled.2, hset, Bool.or_self, if_false, Bool.false_eq_true]

/-- Only an empty field cannot be reported. -/
theorem signupReply_eq_exception (x : LinkContext) (id : String) (u : UserInfo) :
    x.signupReply id u = .exception ↔ u.signingUp = "" := by
  unfold LinkContext.signupReply
  constructor
  · intro h
    by_contra hne
    split at h
    · rename_i hnil
      exact tokenize_ne_nil ':' hne hnil
    · cases h
    · cases h
  · intro h
    rw [h]
    rfl

end Completion

/-! ## The law -/

/-- An accepted sign-up is read back by everyone exactly if neither the operator nor the number
has a colon, and the subscriber, if there is one already, signed up with the same two; and the
last step, once it has updated the record, fails exactly on an empty field. -/
theorem signingUp_read_iff (svc : Service) (x : LinkContext) :
    (∀ (c : Context) (s s' : Storage) (u : UserInfo),
      SignupHandler.doPost svc c s = (.ok (.user u), s') →
        (ReadsBack u (c.request.getParameter "operatorName")
            (c.request.getParameter "signupUUID") ↔
          ':' ∉ (c.request.getParameter "operatorName").toList ∧
            ':' ∉ (c.request.getParameter "signupUUID").toList ∧
            ∀ v, SignupHandler.foundSub svc c.request s = some v →
              v.signingUp = c.request.getParameter "operatorName" ++ ":" ++
                c.request.getParameter "signupUUID") ∧
        (SignupHandler.foundSub svc c.request s = none →
          s.sub.users.find? c.moment.uuid = none → s'.sub.users.find? u.id = some u)) ∧
    ∀ (s : Storage) (r : Request) (form : List (String × String)) (link : ActionLink)
      (userAction : Bool) (u u' : UserInfo),
      r.getParameter "action" = "signup_completion" →
        Updates x s (.post r form) link userAction u u' →
          ((x.handle s (.post r form)).1 = .exception ↔ u.signingUp = "") := by
  constructor
  · intro c s s' u h
    refine ⟨?_, SignupHandler.stored_record h⟩
    rw [readsBack_iff, and_congr_right_iff]
    intro _
    rw [and_congr_right_iff]
    intro _
    rcases SignupHandler.accepted_record h with ⟨hfound, rfl⟩ | hfound
    · rw [hfound]
      exact iff_of_true rfl fun v hv ↦ by cases hv
    · rw [hfound]
      exact ⟨fun heq v hv ↦ Option.some.inj hv ▸ heq, fun hall ↦ hall u rfl⟩
  · intro s r form link userAction u u' haction hup
    rw [hup.signupReply haction, signupReply_eq_exception, hup.signingUp haction]

/-! ## An operator with a colon -/

/-- A sign-up for an operator. -/
def sampleSignup (operatorName : String) : Context where
  request :=
    { method := .POST
      parameters := [("email", "ada@example.com"), ("signupUUID", "17"), ("owner", "isp"),
        ("operatorName", operatorName)] }
  internal := true
  moment := .sample 1700000000 "n"
  queryBlock := (initQueryBlock {}).get rfl

/-- The record that it leaves. -/
def sampleNewSub (operatorName : String) : UserInfo :=
  SignupHandler.newSub (.sample 1700000000 "n") "ada@example.com" "isp" operatorName "17"

/-- The link of the sample, and its subscriber, who signed up nowhere. -/
def sampleUnsigned : ActionLink × UserInfo :=
  ({ id := "link-s", action := LinkActions.SUB_SIGNUP.toNat, userId := "uuid-s"
     userAction := false, expires := 1700086400 },
    { id := "uuid-s", email := "sam@example.com", waitingForEmailCheck := true })

/-- The subscriber with the password of the form. -/
def sampleWithPassword : UserInfo :=
  let hash := computeNewPasswordHash .sample "salt-m" "sam@example.com" "open-sesame"
  { sampleUnsigned.2 with lastPasswords := [hash], currentPassword := hash }

/-- The form of a sign-up is taken for a subscriber who signed up nowhere. -/
theorem updates_sampleSignupForm :
    Updates sampleMailed (sampleSignedUp .SUB_SIGNUP) sampleSignupForm sampleUnsigned.1 false
      sampleUnsigned.2 (sampleMailed.signupRecord sampleWithPassword) := by
  have hset : setPassword .sample "salt-m" "open-sesame" sampleUnsigned.2 =
      .applied sampleWithPassword := rfl
  have hfound : (sampleMailed.findUser (sampleSignedUp .SUB_SIGNUP) false "uuid-s").1 =
      some sampleUnsigned.2 := rfl
  have hlink : (sampleSignedUp .SUB_SIGNUP).getActionLink "link-s" = some sampleUnsigned.1 := rfl
  have hrule : validateSubPassword sampleMailed.svc "open-sesame" = true := rfl
  exact .signup rfl rfl hlink (by decide) (by decide) hrule hfound ⟨rfl, rfl⟩ hset

/-- The statement for an operator without a colon, and for the form. -/
theorem signingUp_read_iff_sample :
    ReadsBack (sampleNewSub "acme") "acme" "17" ∧
      (sampleMailed.handle (sampleSignedUp .SUB_SIGNUP) sampleSignupForm).1 = .exception :=
  ⟨(((signingUp_read_iff .sample sampleMailed).1 (sampleSignup "acme") {} _ (sampleNewSub "acme")
      rfl).1).mpr ⟨by decide, by decide, fun v hv ↦ by cases hv⟩,
    ((signingUp_read_iff .sample sampleMailed).2 _ _ _ _ _ _ _ rfl
      updates_sampleSignupForm).mpr rfl⟩

/-- The sign-up for `acme:west` is accepted, and the provisioning service is told `west`; and a
subscriber without an operator gets a password and no answer. -/
theorem colon_is_not_read_back :
    (SignupHandler.doPost .sample (sampleSignup "acme:west") {}).1 =
        .ok (.user (sampleNewSub "acme:west")) ∧
      ¬ ReadsBack (sampleNewSub "acme:west") "acme:west" "17" ∧
      sampleMailed.signupReply "link-s" (sampleNewSub "acme:west") =
        .signedUp "west" "/sub_signup_verification_success.html"
          [("UUID", "link-s"), ("USERNAME", "ada@example.com")] ∧
      (sampleMailed.handle (sampleSignedUp .SUB_SIGNUP) sampleSignupForm).1 = .exception ∧
      (sampleMailed.handle (sampleSignedUp .SUB_SIGNUP) sampleSignupForm).2.sub.users.rows.map
        UserInfo.currentPassword = [sampleWithPassword.currentPassword] := by
  refine ⟨rfl, fun h ↦ ?_, rfl, rfl, rfl⟩
  exact absurd (readsBack_iff.mp h).1 (by decide)

end OwSec
