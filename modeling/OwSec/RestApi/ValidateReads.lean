import OwSec.RestApi.HashBlindLogins
import OwSec.RestApi.Signup
import OwSec.RestApi.Validate

/-!
# What the validation handlers and the sign-up show

The record that each of these handlers answers with, as a function of the stores: the owner of the
first token that has one, the owner of the first key, the subscriber who has not verified the
address yet.  The answer carries that record as it is stored.
-/

namespace OwSec

open SecurityObjects Kit

namespace Population

variable (svc : Service) (p : Population)

/-- The record that a lookup by identifier finds. -/
def resolveUser (id : String) : Option UserInfo := (p.cacheById.lookup id).or (p.users.find? id)

theorem getUserById_fst (id : String) : (p.getUserById svc id).1 = p.resolveUser id := by
  unfold getUserById getRecordById resolveUser getFromCacheById
  rcases p.cacheById.lookup id with _ | r
  · rcases p.users.find? id with _ | r <;> rfl
  · rfl

/-- A lookup that finds nobody changes nothing. -/
theorem getUserById_of_none {id : String} (h : p.resolveUser id = none) :
    p.getUserById svc id = (none, p) := by
  obtain ⟨hcache, hrow⟩ := Option.or_eq_none_iff.mp h
  unfold getUserById getRecordById getFromCacheById
  rw [hcache, hrow]

/-- The user whose token it is, with the token, unless it was revoked. -/
def tokenOwner (token : String) : Option UserInfoAndPolicy :=
  (p.tokens.resolve token).bind fun t ↦
    if t.revocationDate != 0 then none
    else (p.resolveUser t.userName).map fun u ↦
      { webtoken := TokenStore.webTokenOf t, userinfo := u }

theorem checkToken_uinfo (now : ℕ) (token : String) :
    (p.checkToken svc now token).1.uinfo = p.tokenOwner token := by
  have hresolve := p.tokens.getRecord_fst token
  unfold checkToken tokenOwner
  rw [← hresolve]
  rcases p.tokens.getRecord token with ⟨_ | t, tokens⟩
  · rfl
  · simp only [Option.bind_some]
    split
    · rfl
    · have hfound := getUserById_fst svc { p with tokens } t.userName
      rw [show p.resolveUser t.userName = ({ p with tokens } : Population).resolveUser t.userName
        from rfl, ← hfound]
      rcases ({ p with tokens } : Population).getUserById svc t.userName with ⟨_ | u, q⟩ <;> rfl

/-- A check that finds nobody leaves the owners of all tokens. -/
theorem tokenOwner_checkToken (now : ℕ) {token : String} (h : p.tokenOwner token = none)
    (k : String) : (p.checkToken svc now token).2.tokenOwner k = p.tokenOwner k := by
  have hresolve := p.tokens.getRecord_fst token
  have hkept : ({ p with tokens := (p.tokens.getRecord token).2 } : Population).tokenOwner k =
      p.tokenOwner k := by
    unfold tokenOwner
    rw [TokenStore.resolve_getRecord_snd]
    rfl
  unfold tokenOwner at h
  rw [← hresolve] at h
  unfold checkToken
  generalize p.tokens.getRecord token = found at hkept h ⊢
  obtain ⟨_ | t, tokens⟩ := found
  · exact hkept
  · simp only [Option.bind_some] at h ⊢
    split
    · exact hkept
    · rename_i hrevoked
      rw [if_neg hrevoked, Option.map_eq_none_iff] at h
      rw [getUserById_of_none svc { p with tokens } h]
      exact hkept

/-! ## With other hashes -/

variable (k : Recoding)

theorem resolveUser_recode (id : String) :
    (p.recode k).resolveUser id = (p.resolveUser id).map k.record := by
  have hcache : (p.recode k).cacheById.lookup id = (p.cacheById.lookup id).map k.record :=
    p.cacheById.lookup_mapValues k.record id
  have hrow : (p.recode k).users.find? id = (p.users.find? id).map k.record :=
    p.users.find?_mapRows k.record_id id
  unfold resolveUser
  rw [hcache, hrow]
  cases p.cacheById.lookup id <;> rfl

theorem tokenOwner_recode (token : String) :
    (p.recode k).tokenOwner token = (p.tokenOwner token).map k.info := by
  unfold tokenOwner
  rw [show (p.recode k).tokens = p.tokens from rfl]
  rcases p.tokens.resolve token with _ | t
  · rfl
  · simp only [Option.bind_some, resolveUser_recode]
    split
    · rfl
    · cases p.resolveUser t.userName <;> rfl

end Population

namespace Storage

variable (svc : Service) (s : Storage)

/-- The user whose key it is, unless it has expired or the user is suspended. -/
def keyOwner (now : ℕ) (apiKey : String) : Option UserInfoAndPolicy :=
  (s.getApiKey apiKey).bind fun entry ↦
    if entry.expiresOn < now then none
    else ((s.user.resolveUser entry.userUuid).filter fun u ↦ !u.suspended).map fun u ↦
      { userinfo := u }

theorem isValidApiKey_uinfo (now : ℕ) (apiKey : String) :
    (s.isValidApiKey svc now apiKey).1.uinfo = s.keyOwner now apiKey := by
  unfold isValidApiKey keyOwner
  rcases s.getApiKey apiKey with _ | entry
  · rfl
  · simp only [Option.bind_some]
    split
    · rfl
    · have hfound : (s.onPopulation false fun p ↦ p.getUserById svc entry.userUuid).1 =
          s.user.resolveUser entry.userUuid := Population.getUserById_fst svc s.user entry.userUuid
      rw [← hfound]
      rcases s.onPopulation false fun p ↦ p.getUserById svc entry.userUuid with ⟨_ | u, s'⟩
      · rfl
      · cases hsuspended : u.suspended <;> simp [hsuspended, Option.filter]

theorem keyOwner_recode (k : Recoding) (now : ℕ) (apiKey : String) :
    (s.recode k).keyOwner now apiKey = (s.keyOwner now apiKey).map k.info := by
  unfold keyOwner
  rw [show (s.recode k).getApiKey apiKey = s.getApiKey apiKey from rfl,
    show (s.recode k).user = s.user.recode k from rfl]
  rcases s.getApiKey apiKey with _ | entry
  · rfl
  · simp only [Option.bind_some, Population.resolveUser_recode]
    split
    · rfl
    · rcases s.user.resolveUser entry.userUuid with _ | u
      · rfl
      · have hsuspended : (k.record u).suspended = u.suspended := rfl
        cases hu : u.suspended <;> simp [Option.filter, hsuspended, hu, Recoding.info]

end Storage

namespace RestApi

variable (svc : Service)

/-! ## The answers -/

namespace ValidateTokenHandlers

/-- The answer that shows a user, or nobody. -/
def shownOf : Option UserInfoAndPolicy → Response
  | some ui => .userAndPolicy ui none
  | none => .notFound

/-- The tokens are tried one after the other: the owner of the first one that has one is shown. -/
theorem wp_firstValid (isSub : Bool) (now : ℕ) (tokens : List String) (s : Storage) :
    Command.wp (firstValid svc isSub now tokens)
      (fun reply _ ↦ reply = shownOf (tokens.findSome? (s.population isSub).tokenOwner))
      (fun reply _ ↦ reply = shownOf (tokens.findSome? (s.population isSub).tokenOwner)) s := by
  induction tokens generalizing s with
  | nil => rfl
  | cons token rest ih =>
    have huinfo := (s.population isSub).checkToken_uinfo svc now token
    have hkept := @Population.tokenOwner_checkToken svc (s.population isSub) now token
    have hcheck : isValidToken svc isSub now token = Command.act fun s : Storage ↦
        s.onPopulation isSub fun p ↦ p.checkToken svc now token := by cases isSub <;> rfl
    rw [firstValid, hcheck, Command.wp_bind, Command.wp_act, List.findSome?_cons]
    unfold Storage.onPopulation
    simp only
    rw [huinfo]
    generalize howner : (s.population isSub).tokenOwner token = owner at hkept ⊢
    cases owner with
    | some ui => rfl
    | none =>
      have hrest := ih (s.setPopulation isSub ((s.population isSub).checkToken svc now token).2)
      have hsame : ((s.population isSub).checkToken svc now token).2.tokenOwner =
          (s.population isSub).tokenOwner := funext fun k ↦ hkept rfl k
      rw [Storage.population_setPopulation, hsame] at hrest
      exact hrest

end ValidateTokenHandlers

namespace ValidateApiKeyHandler

/-- The answer shows the owner of the first key, or says why there is none. -/
theorem wp_doGet (c : Context) {apiKey : String} {rest : List String}
    (hkeys : c.request.parameterValues "apikey" = apiKey :: rest) (s : Storage)
    {P : Response → Prop}
    (hshown : ∀ ui, s.keyOwner c.moment.now apiKey = some ui →
      P (.userAndPolicy ui (some (keyStatus svc c.moment.now s apiKey).1)))
    (hrefused : s.keyOwner c.moment.now apiKey = none →
      P (.unAuthorized (if (keyStatus svc c.moment.now s apiKey).2 then Errors.ACCOUNT_SUSPENDED
        else Errors.ACCESS_DENIED))) :
    Command.wp (doGet svc c) (fun reply _ ↦ P reply) (fun reply _ ↦ P reply) s := by
  have huinfo := s.isValidApiKey_uinfo svc c.moment.now apiKey
  unfold doGet
  rw [hkeys]
  simp only [Command.wp_bind, Command.wp_reads, Command.wp_act]
  rw [huinfo]
  generalize howner : s.keyOwner c.moment.now apiKey = owner at hshown hrefused ⊢
  cases owner with
  | some ui => exact hshown ui rfl
  | none => exact hrefused rfl

end ValidateApiKeyHandler

namespace SignupHandler

/-- The sign-up names an address, who signs up where, and under which number. -/
def Given (r : Request) : Prop :=
  r.getParameter "email" ≠ "" ∧ r.getParameter "signupUUID" ≠ "" ∧ r.getParameter "owner" ≠ "" ∧
    r.getParameter "operatorName" ≠ ""

instance (r : Request) : Decidable (Given r) := inferInstanceAs (Decidable (_ ∧ _ ∧ _ ∧ _))

/-- The subscriber with the address of a sign-up. -/
def foundSub (r : Request) (s : Storage) : Option UserInfo :=
  (s.sub.getUserByEmail svc (r.getParameter "email")).1

theorem foundSub_recode (k : Recoding) (r : Request) (s : Storage) :
    foundSub svc r (s.recode k) = (foundSub svc r s).map k.record :=
  congrArg Prod.fst (s.sub.getRecordByEMail_recode svc k (r.getParameter "email"))

/-- What a sign-up is answered, as a function of the subscriber that was found: a new record, or
the one that is there and waits. -/
def replyTo (m : Moment) (r : Request) (found : Option UserInfo) : Response :=
  if ¬ Given r then .badRequest Errors.MissingOrInvalidParameters
  else if validEMailAddress (r.getParameter "email") = false then
    .badRequest Errors.InvalidEmailAddress
  else
    match found with
    | none => .user (newSub m (r.getParameter "email") (r.getParameter "owner")
        (r.getParameter "operatorName") (r.getParameter "signupUUID"))
    | some u => if u.waitingForEmailCheck then .user u else .badRequest Errors.SignupAlreadySigned

theorem wp_doPost (c : Context) (s : Storage) :
    Command.wp (doPost svc c)
      (fun reply _ ↦ reply = replyTo c.moment c.request (foundSub svc c.request s))
      (fun reply _ ↦ reply = replyTo c.moment c.request (foundSub svc c.request s)) s := by
  unfold doPost UserHandler.getUserByEmail
  simp only [Command.wp_bind, Command.wp_ensure, Command.wp_act]
  have hgiven : (!((c.request.getParameter "email").isEmpty ||
      (c.request.getParameter "signupUUID").isEmpty || (c.request.getParameter "owner").isEmpty ||
      (c.request.getParameter "operatorName").isEmpty)) = true ↔ Given c.request := by
    simp [Given, and_assoc]
  unfold replyTo
  refine ⟨fun h ↦ ⟨fun hvalid ↦ ?_, fun hvalid ↦ ?_⟩, fun h ↦ ?_⟩
  · rw [if_neg (not_not.mpr (hgiven.mp h)), if_neg (by rw [hvalid]; exact Bool.noConfusion)]
    rw [show foundSub svc c.request s = (s.onPopulation true fun p ↦
      p.getUserByEmail svc (c.request.getParameter "email")).1 from rfl]
    rcases s.onPopulation true fun p ↦ p.getUserByEmail svc (c.request.getParameter "email") with
      ⟨_ | u, s'⟩
    · rfl
    · unfold resendTo
      simp only [Command.wp_bind, Command.wp_ensure]
      refine ⟨fun hwaiting ↦ ?_, fun hwaiting ↦ ?_⟩
      · rw [if_pos hwaiting]
        cases c.request.getBoolParameter "resend" <;> rfl
      · rw [if_neg (by rw [hwaiting]; exact Bool.noConfusion)]
  · rw [if_neg (not_not.mpr (hgiven.mp h)), if_pos hvalid]
  · rw [if_pos (mt hgiven.mpr (by rw [h]; exact Bool.noConfusion))]

end SignupHandler

end RestApi

end OwSec
