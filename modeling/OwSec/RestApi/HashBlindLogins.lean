import OwSec.RestApi.ActionLinks
import OwSec.RestApi.HashBlindServices

/-!
# Password hashes, logins and links

The end points that are not a handler over the stores alone.  Of the requests to the end point of
a session, a login with a password is the one that looks at a hash; of those to the end point of the
links, the forms that set a password compare it with the old ones.
-/

namespace OwSec

open SecurityObjects Kit

namespace Storage.SameButPasswords

variable {svc : Service} {s t : Storage}

theorem createAction (h : s.SameButPasswords t) (a : ActionLink) :
    (s.createAction a).SameButPasswords (t.createAction a) :=
  (RestApi.SameRuns.createAction a s t h).2

theorem modifyAction (h : s.SameButPasswords t) (actionId : String)
    (f : ActionLink → ActionLink) :
    (s.modifyAction actionId f).SameButPasswords (t.modifyAction actionId f) := by
  obtain ⟨user, sub, rfl, huser, hsub⟩ := h.exists_eq
  unfold Storage.modifyAction
  rw [show Storage.getActionLink { s with user, sub } actionId = s.getActionLink actionId from rfl]
  rcases s.getActionLink actionId with _ | a
  · exact .of_parts huser hsub
  · simp only
    rcases s.actionLinks.update actionId (f a) with _ | links
    · exact .of_parts huser hsub
    · exact of_parts (s := { s with actionLinks := links }) huser hsub

end Storage.SameButPasswords

namespace RestApi

/-- The stores differ in password hashes at most, and the same challenges are open. -/
structure LoginState.SameButPasswords (s t : LoginState) : Prop where
  storage : s.storage.SameButPasswords t.storage
  challenges : s.challenges = t.challenges

namespace LoginContext

variable (x : LoginContext) (isSub : Bool) {s t : LoginState}

/-- Refreshing the bearer token. -/
theorem refreshTokenFor_same {s t : Storage} (h : s.SameButPasswords t) (callToken : String)
    (refreshToken : String) :
    (s.onPopulation isSub fun p ↦ p.refreshTokenFor x.svc x.moment callToken refreshToken).1 =
        (t.onPopulation isSub fun p ↦ p.refreshTokenFor x.svc x.moment callToken refreshToken).1 ∧
      (s.onPopulation isSub fun p ↦
          p.refreshTokenFor x.svc x.moment callToken refreshToken).2.SameButPasswords
        (t.onPopulation isSub fun p ↦ p.refreshTokenFor x.svc x.moment callToken refreshToken).2 :=
  h.onPopulation (V := Eq) isSub fun _ _ hpq ↦ hpq.of_recode (fun wt ↦ wt)
    (f := fun p ↦ p.refreshTokenFor x.svc x.moment callToken refreshToken)
    fun p ↦ p.refreshTokenFor_recode x.svc .blank x.moment callToken refreshToken

/-- The branch that refreshes a token. -/
theorem refresh_same (h : s.SameButPasswords t) (bearer : Option String) (refreshToken : String) :
    (x.refresh isSub s bearer refreshToken).1 = (x.refresh isSub t bearer refreshToken).1 ∧
      (x.refresh isSub s bearer refreshToken).2.SameButPasswords
        (x.refresh isSub t bearer refreshToken).2 := by
  rcases bearer with _ | callToken
  · cases isSub <;> exact ⟨rfl, h⟩
  · have hrefresh := x.refreshTokenFor_same isSub h.storage callToken refreshToken
    cases isSub
    all_goals
      simp only [refresh, Storage.refreshUserToken, Storage.refreshSubToken]
      generalize (s.storage.onPopulation _ fun p ↦
        p.refreshTokenFor x.svc x.moment callToken refreshToken) = a at hrefresh ⊢
      generalize (t.storage.onPopulation _ fun p ↦
        p.refreshTokenFor x.svc x.moment callToken refreshToken) = b at hrefresh ⊢
      obtain ⟨wt, s'⟩ := a
      obtain ⟨_, t'⟩ := b
      obtain ⟨rfl, hstate⟩ := hrefresh
      cases wt <;> exact ⟨rfl, ⟨hstate, h.challenges⟩⟩

/-- The branch for a forgotten password. -/
theorem forgotPassword_same (h : s.SameButPasswords t) (userId : String) :
    (x.forgotPassword isSub s userId).1 = (x.forgotPassword isSub t userId).1 ∧
      (x.forgotPassword isSub s userId).2.SameButPasswords (x.forgotPassword isSub t userId).2 := by
  obtain ⟨hfound, hstate⟩ := h.storage.onPopulation isSub fun p q hpq ↦
    @Population.SameButPasswords.getUserByEmail x.svc p q hpq userId
  unfold forgotPassword
  generalize (s.storage.onPopulation isSub fun p ↦ p.getUserByEmail x.svc userId) = a
    at hfound hstate ⊢
  generalize (t.storage.onPopulation isSub fun p ↦ p.getUserByEmail x.svc userId) = b
    at hfound hstate ⊢
  obtain ⟨o, s'⟩ := a
  obtain ⟨o', t'⟩ := b
  cases hfound with
  | none => exact ⟨rfl, ⟨hstate, h.challenges⟩⟩
  | some huv =>
    obtain ⟨hash, hashes, rfl⟩ := huv.exists_eq
    exact ⟨rfl, ⟨Storage.SameButPasswords.createAction hstate _, h.challenges⟩⟩

/-- Completing a challenge: the stores are not looked at. -/
theorem completeMFAChallenge_same (h : s.SameButPasswords t) (o : JsonObject) :
    (x.completeMFAChallenge isSub s o).1 = (x.completeMFAChallenge isSub t o).1 ∧
      (x.completeMFAChallenge isSub s o).2.SameButPasswords
        (x.completeMFAChallenge isSub t o).2 := by
  unfold completeMFAChallenge
  rw [← h.challenges]
  split
  · rcases s.challenges.completeMFAChallenge x.lib x.svc.json x.moment.now o with ⟨result, challenges⟩
    cases result with
    | completed uInfo => exact ⟨rfl, ⟨h.storage, rfl⟩⟩
    | refused => exact ⟨rfl, ⟨h.storage, rfl⟩⟩
    | thrown => exact ⟨rfl, ⟨h.storage, rfl⟩⟩
  · exact ⟨rfl, h⟩

/-- Sending the answer of a challenge again. -/
theorem resendMFACode_same (h : s.SameButPasswords t) (o : JsonObject) :
    (x.resendMFACode s o).1 = (x.resendMFACode t o).1 ∧
      (x.resendMFACode s o).2.SameButPasswords (x.resendMFACode t o).2 := by
  unfold resendMFACode
  rw [← h.challenges]
  split
  · rcases MFAChallengeCache.field x.svc.json o "uuid" with _ | uuid
    · exact ⟨rfl, h⟩
    · simp only
      split <;> exact ⟨rfl, h⟩
  · exact ⟨rfl, h⟩

/-- Whatever a POST asks for, but for a login with a password. -/
theorem doPostWith_same (h : s.SameButPasswords t) {r : Request}
    (hr : ∀ userId password newPassword,
      LoginRequest.of x.svc.json r ≠ .passwordLogin userId password newPassword) :
    (x.doPostWith isSub r s).1 = (x.doPostWith isSub r t).1 ∧
      (x.doPostWith isSub r s).2.SameButPasswords (x.doPostWith isSub r t).2 := by
  unfold doPostWith
  rcases hrequest : LoginRequest.of x.svc.json r with _ | _ | refreshToken | _ | userId | o | o |
    ⟨userId, password, newPassword⟩
  · exact ⟨rfl, h⟩
  · exact ⟨rfl, h⟩
  · exact x.refresh_same isSub h _ _
  · exact ⟨rfl, h⟩
  · exact x.forgotPassword_same isSub h _
  · exact x.resendMFACode_same h _
  · exact x.completeMFAChallenge_same isSub h _
  · exact absurd hrequest (hr userId password newPassword)

/-- Whatever a request to the end point of a session asks for, but for a login with a password. -/
theorem handleSession_same (internal rateExceeded : Bool) (h : s.SameButPasswords t) {r : Request}
    (hr : r.method = .POST → ∀ userId password newPassword,
      LoginRequest.of x.svc.json r ≠ .passwordLogin userId password newPassword) :
    (x.handleSession isSub internal rateExceeded r s).1 =
        (x.handleSession isSub internal rateExceeded r t).1 ∧
      (x.handleSession isSub internal rateExceeded r s).2.SameButPasswords
        (x.handleSession isSub internal rateExceeded r t).2 := by
  obtain ⟨hvalue, hstate⟩ := acceptRequest_same x.svc (sessionHandler x.svc isSub internal) x.moment
    rateExceeded r s.storage t.storage h.storage
  unfold handleSession
  simp only
  generalize acceptRequest x.svc (sessionHandler x.svc isSub internal) x.moment rateExceeded r
    s.storage = a at hvalue hstate ⊢
  generalize acceptRequest x.svc (sessionHandler x.svc isSub internal) x.moment rateExceeded r
    t.storage = b at hvalue hstate ⊢
  obtain ⟨value, s'⟩ := a
  obtain ⟨value', t'⟩ := b
  cases hvalue with
  | error e => exact ⟨rfl, ⟨hstate, h.challenges⟩⟩
  | ok hcontexts =>
    rename_i c d
    obtain ⟨hcd, hrequest, -⟩ := hcontexts
    have hstates : ({ s with storage := s' } : LoginState).SameButPasswords
        { t with storage := t' } := ⟨hstate, h.challenges⟩
    have hdispatch := answer_same (dispatch_same (h := sessionHandler x.svc isSub internal) hcd
      (SessionHandlers.doGet_same x.svc isSub hcd) (.pure rfl) (fun _ ↦ .pure rfl)
      (SessionHandlers.doDelete_same x.svc isSub hcd)) hstate
    by_cases hpost : r.method = .POST
    · simp only [hpost]
      exact x.doPostWith_same isSub hstates (hr hpost)
    · simp only
      exact ⟨congrArg LoginAnswer.response hdispatch.1, ⟨hdispatch.2, h.challenges⟩⟩

end LoginContext

namespace LinkContext

variable (x : LinkContext) {s t : Storage}

/-- A form that sets a password. -/
def setsPassword : LinkRequest → Bool
  | .get _ => false
  | .post r _ =>
    ["password_reset", "sub_password_reset", "signup_completion"].contains (r.getParameter "action")

theorem findUser_same (h : s.SameButPasswords t) (userAction : Bool) (userId : String) :
    Option.Rel UserInfo.SameButPasswords (x.findUser s userAction userId).1
        (x.findUser t userAction userId).1 ∧
      (x.findUser s userAction userId).2.SameButPasswords (x.findUser t userAction userId).2 :=
  h.onPopulation (!userAction) fun _ _ hpq ↦ hpq.getUserById userId

theorem updateUser_same (h : s.SameButPasswords t) (userAction : Bool) (userId : String)
    {u v : UserInfo} (huv : u.SameButPasswords v) :
    (x.updateUser s userAction userId u).SameButPasswords (x.updateUser t userAction userId v) :=
  (h.onPopulation (V := Eq) (!userAction) fun _ _ hpq ↦ hpq.updateUserInfo userId huv).2

/-- Verifying an address. -/
theorem doEmailVerification_same (h : s.SameButPasswords t) (link : ActionLink) :
    (x.doEmailVerification link s).1 = (x.doEmailVerification link t).1 ∧
      (x.doEmailVerification link s).2.SameButPasswords (x.doEmailVerification link t).2 := by
  obtain ⟨hfound, hstate⟩ := x.findUser_same h link.userAction link.userId
  unfold doEmailVerification
  simp only
  split
  · exact ⟨rfl, h.modifyAction _ _⟩
  · generalize x.findUser s link.userAction link.userId = a at hfound hstate ⊢
    generalize x.findUser t link.userAction link.userId = b at hfound hstate ⊢
    obtain ⟨o, s'⟩ := a
    obtain ⟨o', t'⟩ := b
    cases hfound with
    | none => exact ⟨rfl, hstate⟩
    | some huv =>
      rename_i u v
      obtain ⟨hash, hashes, rfl⟩ := huv.exists_eq
      simp only
      split
      · exact ⟨rfl, hstate⟩
      · have hupdated := x.updateUser_same hstate false link.userId
          (UserInfo.SameButPasswords.rehash (x.verifiedRecord u) hash hashes)
        exact ⟨rfl, hupdated.modifyAction _ _⟩

/-- Whatever a request to the end point of the links asks for, but for setting a password. -/
theorem handle_same (h : s.SameButPasswords t) {q : LinkRequest} (hq : setsPassword q = false) :
    (x.handle s q).1 = (x.handle t q).1 ∧ (x.handle s q).2.SameButPasswords (x.handle t q).2 := by
  have hlinks : t.actionLinks = s.actionLinks := by rw [h.eq]
  cases q with
  | get r =>
    unfold handle doGet Storage.getActionLink
    rw [hlinks]
    simp only
    rcases s.actionLinks.find? (r.getParameter "id") with _ | link
    · exact ⟨rfl, h⟩
    · simp only
      split
      · exact ⟨rfl, h⟩
      split
      · exact ⟨rfl, h⟩
      split
      · exact x.doEmailVerification_same h link
      split
      · exact x.doEmailVerification_same h link
      split <;> exact ⟨rfl, h⟩
  | post r form =>
    simp only [setsPassword, List.contains_cons, Bool.or_eq_false_iff, List.contains_nil,
      and_true] at hq
    obtain ⟨hreset, hsubReset, hsignup⟩ := hq
    unfold handle doPost
    simp only [hreset, hsubReset, hsignup, Bool.false_eq_true, if_false]
    split <;> exact ⟨rfl, h⟩

end LinkContext

end RestApi

end OwSec
