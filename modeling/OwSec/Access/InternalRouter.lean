import OwSec.RestApi.SubUser
import OwSec.RestApi.SystemSecret
import OwSec.Storage.Coherence

/-!
# The exemption of the internal router

Two handlers leave their access check out when they are on the internal router.  The
exemption is meant for the other services, but the internal router also authenticates
users by their bearer tokens, and the handlers look at the router alone.  So a user can
do there what the access check would have refused, and this file says when.

Each method of the two handlers is brought into the form "these checks, then the access
check unless the router is the internal one, then these"; the two routers differ in the
middle part only.
-/

namespace OwSec

open SecurityObjects Kit RestApi ACLProcessor

/-- The handlers with an exemption. -/
inductive ExemptHandler
  | subuser | systemSecret
  deriving DecidableEq

/-- The handler itself, on the public or on the internal router. -/
def ExemptHandler.handler (svc : Service) (internal : Bool) : ExemptHandler → Handler
  | .subuser => subuserHandler svc internal
  | .systemSecret => systemSecretHandler internal

/-- The method for the request runs to its end: no check of the handler refuses it. -/
def Succeeds (h : Handler) (c : Context) (s : Storage) : Prop := Command.Ends (dispatch h c) s

instance (h : Handler) (c : Context) (s : Storage) : Decidable (Succeeds h c s) :=
  inferInstanceAs (Decidable (Command.Ends _ _))

/-- The request names a service and carries the key of the services. -/
def ByMachine (svc : Service) (r : Request) : Prop :=
  r.internalName.isSome = true ∧ isValidAPIKEY svc r.apiKey = true

/-- A request that the internal router carries out comes from a service, or the public router
would carry it out for the same user. -/
def MachinesOnly (svc : Service) (e : ExemptHandler) (c : Context) (s : Storage) : Prop :=
  Succeeds (e.handler svc true) c s →
    ByMachine svc c.request ∨ Succeeds (e.handler svc false) { c with internal := false } s

/-! ## What has to pass -/

section Checks

variable (svc : Service) (c : Context) (s : Storage)

/-- The lookup of the subscriber that a request is about. -/
def lookupTarget : Option UserInfo × Storage :=
  s.onPopulation true fun p ↦ p.getUserById svc (c.request.getBinding "id")

/-- The subscriber that a deletion is about: there is such a record, with that role. -/
structure Deletable (target : UserInfo) : Prop where
  id : c.request.getBinding "id" ≠ ""
  found : (lookupTarget svc c s).1 = some target
  role : target.userRole = .SUBSCRIBER

/-- The subscriber that a creation asks for: the body is such a record, its address is well
formed and free, its password is acceptable, and the fresh identifier is free. -/
structure Creatable (new : UserInfo) : Prop where
  id : c.request.getBinding "id" = "0"
  body : ∃ u, UserInfo.fromJson svc.json c.request.body.parsed = some u ∧
    u.userRole = .SUBSCRIBER ∧ new = { u with email := toLower u.email }
  fresh : (s.sub.getUserByEmail svc new.email).1 = none
  email : validEMailAddress new.email = true
  password : new.currentPassword = "" ∨ validateSubPassword svc new.currentPassword = true
  uuid : s.sub.users.find? c.moment.uuid = none

/-- The update that a request asks for passes the checks that follow the access check. -/
def Modifiable (target : UserInfo) : Prop :=
  let id := c.request.getBinding "id"
  if c.request.getBoolParameter "resetMFA" then
    SubUserHandler.canResetMFA c.caller id target = true
  else
    c.request.getBoolParameter "forgotPassword" = true ∨
      c.request.getBoolParameter "resetPassword" = true ∨
      ∃ u s', SubUserHandler.editFromBody svc c id target s = (.ok u, s') ∧
        (s'.sub.users.update id u).isSome = true

/-- A request for secrets names something that can be shown. -/
def Showable : Prop :=
  c.request.getBoolParameter "all" = true ∨ c.request.getBoolParameter "dictionary" = true ∨
    c.request.getBinding "secret" ≠ "" ∧
      (s.secrets.lookup (c.request.getBinding "secret")).isSome = true

/-- The access check that the internal router leaves out would let the caller do what the
request asks for, or another check refuses it anyway. -/
def Entitled : ExemptHandler → Method → Prop
  | .subuser, .DELETE => ∀ t, Deletable svc c s t → can c.caller t .DELETE = true
  | .subuser, .POST => ∀ u, Creatable svc c s u → can c.caller u .CREATE = true
  | .subuser, .PUT => ∀ t, c.request.getBinding "id" ≠ "" → (lookupTarget svc c s).1 = some t →
      Modifiable svc c (lookupTarget svc c s).2 t → can c.caller t .MODIFY = true
  | .systemSecret, .GET => Showable c s → c.caller.userRole = .ROOT
  | _, _ => True

end Checks

section Methods

variable {svc : Service} {c : Context} {s : Storage}

/-- What a deletion of a subscriber has to pass. -/
theorem ends_doDelete_iff : Command.Ends (SubUserHandler.doDelete svc c) s ↔
    ∃ t, Deletable svc c s t ∧ (c.internal || can c.caller t .DELETE) = true := by
  unfold SubUserHandler.doDelete SubUserHandler.getUserById
  simp only [Command.ends_ensure, Command.ends_act, Command.ends_orStop, Command.ends_write,
    Command.ends_pure]
  constructor
  · rintro ⟨hid, t, hfound, hrole, hcan, -⟩
    exact ⟨t, ⟨by simpa using hid, hfound, by simpa using hrole⟩, hcan⟩
  · rintro ⟨t, ⟨hid, hfound, hrole⟩, hcan⟩
    exact ⟨by simpa using hid, t, hfound, by simpa using hrole, hcan, trivial⟩

/-- A subscriber that has just been created is found by its address, whether or not it is
marked as waiting for the verification first. -/
theorem ends_reportCreated {new : UserInfo} (hrow : s.sub.users.find? new.id = some new) :
    Command.Ends (SubUserHandler.reportCreated svc c new) s := by
  unfold SubUserHandler.reportCreated SubUserHandler.verifySubEmail SubUserHandler.updateUserInfo
    UserHandler.getUserByEmail
  split
  · simp only [Command.ends_act, Command.ends_orStop, Command.ends_pure, and_true]
    refine Population.getUserByEmail_isSome svc (k := new.id)
      (r := { new with waitingForEmailCheck := true, validated := false }) ?_
    have hsub : (s.verifySubEmail c.moment.now c.moment.uuid' new).2.sub = s.sub :=
      s.population_createAction _ true
    show ((s.verifySubEmail c.moment.now c.moment.uuid' new).2.sub.updateUserInfo svc new.id
      { new with waitingForEmailCheck := true, validated := false }).2.users.find? new.id = _
    rw [hsub]
    have hupdate := Population.find?_updateUserInfo svc (p := s.sub)
      { new with waitingForEmailCheck := true, validated := false } new.id
    rw [if_pos rfl, hrow] at hupdate
    exact hupdate
  · simp only [Command.ends_act, Command.ends_orStop, Command.ends_pure, and_true]
    exact Population.getUserByEmail_isSome svc hrow

/-- What a creation of a subscriber has to pass. -/
theorem ends_doPost_iff : Command.Ends (SubUserHandler.doPost svc c) s ↔
    ∃ u, Creatable svc c s u ∧ (c.internal || can c.caller u .CREATE) = true := by
  unfold SubUserHandler.doPost UserHandler.getUserByEmail SubUserHandler.createUser
  simp only [Command.ends_ensure, Command.ends_act, Command.ends_orStop]
  have hlookup (email : String) : (s.onPopulation true
      fun p ↦ p.getUserByEmail svc email).1 = (s.sub.getUserByEmail svc email).1 := rfl
  -- a lookup that finds nothing changes nothing
  have hsame {email : String} (h : (s.sub.getUserByEmail svc email).1 = none) :
      (s.onPopulation true fun p ↦ p.getUserByEmail svc email).2 = s := by
    have hsub : (s.sub.getUserByEmail svc email).2 = s.sub := by
      unfold Population.getUserByEmail Population.getRecordByEMail at h ⊢
      split at h
      · cases h
      · split at h
        · cases h
        · rfl
    show s.setPopulation true (s.sub.getUserByEmail svc email).2 = s
    rw [hsub]
    rfl
  constructor
  · rintro ⟨hid, u, hbody, hrole, hfresh, hcan, hemail, hpassword, new, hnew, -⟩
    have hfresh : (s.sub.getUserByEmail svc (toLower u.email)).1 = none := by
      simpa only [Option.isNone_iff_eq_none, hlookup] using hfresh
    rw [hsame hfresh] at hnew
    have hsome := (Population.createUser_isSome_iff svc (p := s.sub) (m := c.moment)).mp
      (Option.isSome_iff_exists.mpr ⟨new, hnew⟩)
    exact ⟨_, ⟨by simpa using hid, ⟨u, hbody, by simpa using hrole, rfl⟩, hfresh, hemail,
      by simpa using hpassword, hsome.2⟩, hcan⟩
  · rintro ⟨-, ⟨hid, ⟨u, hbody, hrole, rfl⟩, hfresh, hemail, hpassword, huuid⟩, hcan⟩
    have hcreated : (s.sub.createUser svc c.moment (SubUserHandler.completeNewUser
        { u with email := toLower u.email })).1.isSome = true := by
      refine (Population.createUser_isSome_iff svc).mpr ⟨?_, huuid⟩
      show (s.sub.getUserByEmail svc (toLower (toLower u.email))).1 = none
      rw [toLower_toLower]
      exact hfresh
    obtain ⟨new, hnew⟩ := Option.isSome_iff_exists.mp hcreated
    refine ⟨by simpa using hid, u, hbody, by simpa using hrole, ?_, hcan, hemail,
      by simpa using hpassword, new, ?_, ?_⟩
    · rw [hlookup, hfresh]
      rfl
    · rw [hsame hfresh]
      exact hnew
    · rw [hsame hfresh]
      have hrow := (Population.find?_createUser_some svc hnew).2 new.id
      rw [if_pos rfl] at hrow
      exact ends_reportCreated hrow

/-- What an update of a subscriber has to pass. -/
theorem ends_doPut_iff : Command.Ends (SubUserHandler.doPut svc c) s ↔
    c.request.getBinding "id" ≠ "" ∧ ∃ t, (lookupTarget svc c s).1 = some t ∧
      (c.internal || can c.caller t .MODIFY) = true ∧
      Modifiable svc c (lookupTarget svc c s).2 t := by
  have hmodify (t : UserInfo) (s : Storage) : Command.Ends (SubUserHandler.modify svc c
      (c.request.getBinding "id") t) s ↔ Modifiable svc c s t := by
    unfold SubUserHandler.modify Modifiable
    by_cases hreset : c.request.getBoolParameter "resetMFA" = true
    · rw [if_pos hreset, if_pos hreset]
      unfold SubUserHandler.handleResetMFA SubUserHandler.updateUserInfo UserHandler.getUserByEmail
      simp only [Command.ends_ensure, Command.ends_act, Command.ends_pure, and_true]
    · rw [if_neg hreset, if_neg hreset, ← or_assoc, ← Bool.or_eq_true]
      by_cases hforgot : (c.request.getBoolParameter "forgotPassword" ||
          c.request.getBoolParameter "resetPassword") = true
      · rw [if_pos hforgot]
        unfold SubUserHandler.handleForgotPassword
        simp only [Command.ends_write, Command.ends_pure, hforgot, true_or]
      · rw [if_neg hforgot]
        simp only [hforgot, Bool.false_eq_true, false_or]
        unfold SubUserHandler.updateFromBody SubUserHandler.updateUserInfo
          SubUserHandler.getUserById
        rw [Command.ends_bind]
        refine exists_congr fun u ↦ exists_congr fun s' ↦ and_congr_right fun _ ↦ ?_
        simp only [Command.ends_act, Command.ends_ensure, Command.ends_pure, and_true]
        show (s'.sub.updateUserInfo svc _ u).1 = true ↔ _
        unfold Population.updateUserInfo Population.updateRecord
        rcases s'.sub.users.update (c.request.getBinding "id") u with _ | users <;> simp
  unfold SubUserHandler.doPut SubUserHandler.getUserById
  simp only [Command.ends_ensure, Command.ends_act, Command.ends_orStop, hmodify]
  simp only [lookupTarget, Bool.not_eq_true', String.isEmpty_eq_false_iff, ne_eq]

/-- What a request for secrets has to pass. -/
theorem ends_doGet_iff : Command.Ends (SystemSecretHandler.doGet c) s ↔
    (c.internal || c.caller.userRole == .ROOT) = true ∧ Showable c s := by
  unfold SystemSecretHandler.doGet Showable
  rw [Command.ends_ensure]
  refine and_congr_right fun _ ↦ ?_
  split
  · rename_i hall
    simp only [hall, true_or, iff_true]
    exact Command.ends_reads.mpr (Command.ends_pure _)
  · split
    · rename_i hdictionary
      simp only [hdictionary, true_or, or_true, iff_true]
      exact Command.ends_pure _
    · rename_i hall hdictionary
      simp only [hall, hdictionary, false_or, Bool.false_eq_true]
      rw [Command.ends_ensure, Command.ends_reads, Command.ends_orStop]
      simp only [Command.ends_pure, and_true, Option.isSome_iff_exists, Bool.not_eq_true',
        String.isEmpty_eq_false_iff, ne_eq]

/-- The two routers differ in the access check alone. -/
theorem succeeds_imp_iff (e : ExemptHandler) (hinternal : c.internal = true) :
    (Succeeds (e.handler svc true) c s →
      Succeeds (e.handler svc false) { c with internal := false } s) ↔
        Entitled svc c s e c.request.method := by
  cases e with
  | subuser =>
    unfold Succeeds dispatch
    cases hm : c.request.method with
    | GET => exact ⟨fun _ ↦ trivial, fun _ h ↦ h⟩
    | POST =>
      show (Command.Ends (SubUserHandler.doPost svc c) s →
        Command.Ends (SubUserHandler.doPost svc { c with internal := false }) s) ↔ _
      rw [ends_doPost_iff, ends_doPost_iff, hinternal]
      constructor
      · intro h u hu
        obtain ⟨v, ⟨_, ⟨w, hw, _, rfl⟩, _⟩, hcan⟩ := h ⟨u, hu, rfl⟩
        obtain ⟨_, ⟨w', hw', _, rfl⟩, _⟩ := hu
        obtain rfl := Option.some.inj (hw.symm.trans hw')
        exact hcan
      · rintro h ⟨u, hu, -⟩
        exact ⟨u, ⟨hu.id, hu.body, hu.fresh, hu.email, hu.password, hu.uuid⟩, h u hu⟩
    | PUT =>
      show (Command.Ends (SubUserHandler.doPut svc c) s →
        Command.Ends (SubUserHandler.doPut svc { c with internal := false }) s) ↔ _
      rw [ends_doPut_iff, ends_doPut_iff, hinternal]
      constructor
      · intro h t hid hfound hmodify
        obtain ⟨_, t', hfound', hcan, _⟩ := h ⟨hid, t, hfound, rfl, hmodify⟩
        obtain rfl := Option.some.inj (hfound.symm.trans hfound')
        exact hcan
      · rintro h ⟨hid, t, hfound, -, hmodify⟩
        exact ⟨hid, t, hfound, h t hid hfound hmodify, hmodify⟩
    | DELETE =>
      show (Command.Ends (SubUserHandler.doDelete svc c) s →
        Command.Ends (SubUserHandler.doDelete svc { c with internal := false }) s) ↔ _
      rw [ends_doDelete_iff, ends_doDelete_iff, hinternal]
      constructor
      · intro h t ht
        obtain ⟨t', ht', hcan⟩ := h ⟨t, ht, rfl⟩
        obtain rfl := Option.some.inj (ht.found.symm.trans ht'.found)
        exact hcan
      · rintro h ⟨t, ht, -⟩
        exact ⟨t, ⟨ht.id, ht.found, ht.role⟩, h t ht⟩
    | OPTIONS => exact ⟨fun _ ↦ trivial, fun _ h ↦ h⟩
    | other => exact ⟨fun _ ↦ trivial, fun _ h ↦ h⟩
  | systemSecret =>
    unfold Succeeds dispatch
    cases hm : c.request.method with
    | GET =>
      show (Command.Ends (SystemSecretHandler.doGet c) s →
        Command.Ends (SystemSecretHandler.doGet { c with internal := false }) s) ↔ _
      rw [ends_doGet_iff, ends_doGet_iff, hinternal]
      constructor
      · intro h hshow
        exact beq_iff_eq.mp (h ⟨rfl, hshow⟩).1
      · rintro h ⟨-, hshow⟩
        exact ⟨beq_iff_eq.mpr (h hshow), hshow⟩
    | POST | PUT | DELETE | OPTIONS | other => exact ⟨fun _ ↦ trivial, fun _ h ↦ h⟩

/-- For every request that the internal router accepts, the exemption serves machines only
exactly when the request names a service, or the access check that is left out would let the
authenticated user do what is asked, or the request is refused by another check. -/
theorem machines_only_iff {e : ExemptHandler} {m : Moment} {rateExceeded : Bool} {r : Request}
    {s' : Storage}
    (h : acceptRequest svc (e.handler svc true) m rateExceeded r s = (.ok c, s')) :
    MachinesOnly svc e c s' ↔ r.internalName.isSome = true ∨ Entitled svc c s' e r.method := by
  obtain ⟨-, hgranted, -, rfl, hinternal, -, -⟩ :=
    (acceptRequest_eq_ok_iff svc (e.handler svc true) m rateExceeded r).mp h
  have hinternal : c.internal = true := by
    rw [hinternal]
    cases e <;> rfl
  unfold MachinesOnly
  rcases hname : c.request.internalName with _ | name
  · have hnobody : ¬ ByMachine svc c.request := by
      rintro ⟨hsome, -⟩
      rw [hname] at hsome
      cases hsome
    simp only [hnobody, false_or, Option.isSome_none, Bool.false_eq_true]
    exact succeeds_imp_iff e hinternal
  · have hkey : isValidAPIKEY svc c.request.apiKey = true := by
      have hcredential : credentialOf (e.handler svc true).internal c.request =
          .service name c.request.apiKey := by
        unfold credentialOf
        cases e <;> simp only [ExemptHandler.handler, subuserHandler, systemSecretHandler,
          if_true, hname]
      unfold authenticate at hgranted
      rw [hcredential] at hgranted
      by_contra hinvalid
      cases e <;> simp [ExemptHandler.handler, subuserHandler, systemSecretHandler,
        RestApi.isAuthorized, hinvalid] at hgranted
    have hmachine : ByMachine svc c.request := ⟨by rw [hname]; rfl, hkey⟩
    simp only [hmachine, true_or, implies_true, Option.isSome_some]

end Methods

/-! ## A clerk on the internal router -/

/-- A `CSR` user with a token, and a subscriber. -/
def sampleClerkAndSubscriber : Storage where
  user :=
    { users := { rows := [{ id := "clerk", email := "clerk@example.com", userRole := .CSR }]
                 nodup := by decide }
      tokens :=
        { rows := { rows := [{ token := "token-clerk", userName := "clerk", expires := 3600 }]
                    nodup := by decide } } }
  sub :=
    { users := { rows := [{ id := "sub-1", email := "sub@example.com", userRole := .SUBSCRIBER }]
                 nodup := by decide } }

/-- The clerk asks for the deletion of the subscriber, with their bearer token. -/
def sampleClerkRequest : Request where
  method := .DELETE
  bearer := some "token-clerk"
  bindings := [("id", "sub-1")]

/-- The internal router accepts the request of the clerk. -/
theorem machines_only_iff_sample : ∃ c s',
    acceptRequest .sample (ExemptHandler.subuser.handler .sample true) (.sample 100 "a") false
      sampleClerkRequest sampleClerkAndSubscriber = (.ok c, s') ∧
    (MachinesOnly .sample .subuser c s' ↔
      sampleClerkRequest.internalName.isSome = true ∨
        Entitled .sample c s' .subuser sampleClerkRequest.method) := by
  have haccepted : ∃ c s', acceptRequest .sample (ExemptHandler.subuser.handler .sample true)
      (.sample 100 "a") false sampleClerkRequest sampleClerkAndSubscriber = (.ok c, s') :=
    ⟨_, _, rfl⟩
  obtain ⟨c, s', h⟩ := haccepted
  exact ⟨c, s', h, machines_only_iff h⟩

/-- It deletes the subscriber, which the public router refuses to the same clerk. -/
theorem clerk_deletes_on_internal_router : ∃ c s',
    acceptRequest .sample (ExemptHandler.subuser.handler .sample true) (.sample 100 "a") false
      sampleClerkRequest sampleClerkAndSubscriber = (.ok c, s') ∧
    (dispatch (ExemptHandler.subuser.handler .sample true) c s').2.sub.users.rows = [] ∧
    ¬ MachinesOnly .sample .subuser c s' := by
  refine ⟨_, _, rfl, by decide, fun h ↦ ?_⟩
  rcases h (by decide) with ⟨hname, -⟩ | hpublic
  · cases hname
  · exact absurd hpublic (by decide)

end OwSec
