import OwSec.RestApi.UpdateFailures

/-!
# Updates that fail

An update of a record that is answered with an error should have changed nothing.  It makes its
checks one after the other and writes the record last, but two things happen in between: the
link for the verification of the address is stored before the second factor is checked, and the
session of an authenticator is used up before the record is written.  `Wastes` lists the updates
that fail after one of the two; every other update that fails has left no trace.
-/

namespace OwSec

open SecurityObjects Kit RestApi ACLProcessor

/-! ## The law -/

/-- The records, the links and the sessions are the same. -/
structure SameStores (s s' : Storage) : Prop where
  users : ∀ isSub, (s'.population isSub).users = (s.population isSub).users
  links : s'.actionLinks = s.actionLinks
  sessions : s'.totp = s.totp

/-- The update asks for a verification of the address, and the identifier of the link is free. -/
structure StoresLink (c : Context) (s : Storage) : Prop where
  asked : c.request.getParameter "email_verification" = "true"
  free : s.actionLinks.find? c.moment.uuid' = none

/-- The update fails after it has left a trace. -/
inductive Wastes (svc : Service) (failure : Option DbCall) (isSub : Bool) (c : Context)
    (s : Storage) : Prop
  /-- The link is stored, and then the second factor is refused or the record is not written. -/
  | link {asked found : UserInfo} (h : ReachesMfa svc isSub c s asked found)
    (hlink : StoresLink c s) (hfails : RefusesMfa svc c s asked found ∨ failure ≠ none)
  /-- The session is used up, and then the record is not written. -/
  | session {asked found : UserInfo} (h : ReachesMfa svc isSub c s asked found)
    (hused : UsesSession c s asked found) (hfails : failure ≠ none)

/-- A request that puts a user or a subscriber, and the call of the database that fails when the
record is written. -/
structure Put where
  isSub : Bool
  internal : Bool := false
  moment : Moment
  rateExceeded : Bool := false
  failure : Option DbCall := none
  request : Request
  put : request.method = .PUT

namespace Put

variable (svc : Service) (q : Put) (s : Storage)

/-- The handler that the request is routed to. -/
def handler : Handler := recordHandlerUnder svc q.failure q.isSub q.internal

/-- The answer, and the state afterwards. -/
def run : Response × Storage :=
  handleRequest svc (q.handler svc) q.moment q.rateExceeded q.request s

/-- What the authentication of the request reports and leaves. -/
def authentication : AuthResult × Storage :=
  authenticate svc (q.handler svc) q.moment q.request s

/-- The request is let through with this context. -/
structure Admits (c : Context) : Prop where
  acceptable : Acceptable (q.handler svc) q.rateExceeded q.request
  granted : (q.authentication svc s).1.granted = some (c.userInfo, c.requester)
  request : c.request = q.request
  router : c.internal = (q.handler svc).internal
  moment : c.moment = q.moment

/-- The request fails after it has left a trace. -/
def Wasteful : Prop :=
  ∃ c, q.Admits svc s c ∧ Wastes svc q.failure q.isSub c (q.authentication svc s).2

/-- If the request is answered with an error, nothing has changed. -/
def AllOrNothing : Prop := (q.run svc s).1.refused = true → SameStores s (q.run svc s).2

end Put

/-! ## Traces -/

section Traces

variable {svc : Service} {failure : Option DbCall} {isSub : Bool} {c : Context}
  {s s' s'' : Storage} {asked found u : UserInfo} {id : String}

theorem SameStores.refl (s : Storage) : SameStores s s := ⟨fun _ ↦ rfl, rfl, rfl⟩

theorem SameStores.trans (h : SameStores s s') (h' : SameStores s' s'') : SameStores s s'' :=
  ⟨fun isSub ↦ (h'.users isSub).trans (h.users isSub), h'.links.trans h.links,
    h'.sessions.trans h.sessions⟩

theorem SameStores.symm (h : SameStores s s') : SameStores s' s :=
  ⟨fun isSub ↦ (h.users isSub).symm, h.links.symm, h.sessions.symm⟩

/-- What replaces a population and keeps its rows. -/
theorem SameStores.onPopulation {α : Type} {f : Population → α × Population}
    (hf : (f (s.population isSub)).2.users = (s.population isSub).users) :
    SameStores s (s.onPopulation isSub f).2 := by
  refine ⟨fun b ↦ ?_, ?_, Storage.totp_onPopulation _ _⟩
  · by_cases hb : b = isSub
    · subst hb
      exact (congrArg Population.users (Storage.population_setPopulation _ _ _)).trans hf
    · exact congrArg Population.users (Storage.population_setPopulation_ne _ _ hb)
  · cases isSub <;> rfl

/-- The link is the trace of asking for it. -/
theorem sameStores_linked_iff (h : SameStores s s') :
    SameStores s (linked c id isSub s') ↔ ¬ StoresLink c s := by
  have hsame (hnot : ¬ StoresLink c s) : SameStores s (linked c id isSub s') := by
    unfold linked
    split
    · rename_i hasked
      have htaken : s'.actionLinks.insert (verificationLink c.moment id isSub) = none := by
        rcases hins : s'.actionLinks.insert (verificationLink c.moment id isSub) with _ | links
        · rfl
        · have hfree := Table.find?_of_insert hins
          rw [h.links] at hfree
          exact absurd ⟨beq_iff_eq.mp hasked, hfree⟩ hnot
      unfold Storage.createAction
      rw [htaken]
      exact h
    · exact h
  refine ⟨fun hlinked hstores ↦ ?_, hsame⟩
  have hfree : s'.actionLinks.find? (verificationLink c.moment id isSub).id = none := by
    rw [h.links]
    exact hstores.free
  obtain ⟨links, hins⟩ := Table.insert_isSome hfree
  have hrows := congrArg Table.rows hlinked.links
  unfold linked Storage.createAction at hrows
  rw [if_pos (beq_iff_eq.mpr hstores.asked), hins] at hrows
  change links.rows = s.actionLinks.rows at hrows
  rw [Table.rows_of_insert hins, h.links] at hrows
  simpa using congrArg List.length hrows

/-- A session that is used up is the trace of using it. -/
theorem not_sameStores_of_session (h : HasSession c s) (htotp : s''.totp = s.totp.erase c.caller.id) :
    ¬ SameStores s s'' := by
  intro hsame
  obtain ⟨e, he, -⟩ := h
  rw [← hsame.sessions, htotp, Cache.lookup_erase_eq, if_pos rfl] at he
  cases he

/-- The update of the row fails, and the rows are as before, or it does not, and the record is
found. -/
theorem wp_updateUserInfoUnder {Q : Bool → Storage → Prop} {E : Response → Storage → Prop}
    (hid : u.id = id) (hfails : failure ≠ none → ∀ s', SameStores s s' → Q false s')
    (hwritten : failure = none → ∀ s',
      ((s'.population isSub).getUserById svc id).1 = some u → Q true s') :
    Command.wp (updateUserInfoUnder svc failure isSub id u) Q E s := by
  subst hid
  show Q ((s.population isSub).updateRecordUnder svc { write := failure } u.id u).1
    (s.onPopulation isSub fun p ↦ p.updateRecordUnder svc { write := failure } u.id u).2
  by_cases hnone : failure = none
  · subst hnone
    rw [Population.updateRecordUnder_none]
    simp only [Population.updateRecordUnder_none]
    obtain ⟨users, -, heq⟩ := Population.updateUserInfo_eq svc (p := s.population isSub) u
    have htrue : ((s.population isSub).updateRecord svc u.id u).1 = true := congrArg Prod.fst heq
    rw [htrue]
    refine hwritten rfl _ ?_
    show (((s.setPopulation isSub _).population isSub).getUserById svc u.id).1 = some u
    rw [Storage.population_setPopulation]
    exact congrArg Prod.fst (Population.getUserById_updateUserInfo svc u)
  · have hfalse : ((s.population isSub).updateRecordUnder svc { write := failure } u.id u).1 =
        false := by
      rw [← Bool.not_eq_true]
      unfold Population.updateRecordUnder
      rw [transact_fst]
      exact fun h ↦ hnone h.1
    rw [hfalse]
    refine hfails hnone _ (.onPopulation ?_)
    unfold Population.updateRecordUnder at hfalse ⊢
    rw [transact_of_false hfalse]
    split <;> rfl

/-- What follows a written record does not fail. -/
theorem wp_write {tail : Handling Response} {P : Response → Storage → Prop} (hid : u.id = id)
    (htail : ∀ s', ((s'.population isSub).getUserById svc id).1 = some u →
      Command.wp tail (fun r _ ↦ r.refused = false) (fun _ _ ↦ False) s')
    (hfails : failure ≠ none → ∀ r s', r.refused = true → SameStores s s' → P r s')
    (hwritten : failure = none → ∀ r s', r.refused = false → P r s') :
    Command.wp (do
      let updated ← updateUserInfoUnder svc failure isSub id u
      Command.ensure updated (.badRequest Errors.RecordNotUpdated)
      tail) P P s := by
  simp only [Command.wp_bind, Command.wp_ensure]
  refine wp_updateUserInfoUnder hid (fun hf s' h' ↦ ⟨fun h ↦ (by cases h), fun _ ↦
    hfails hf _ _ rfl h'⟩) fun hnone s' hfound ↦ ⟨fun _ ↦ ?_, fun h ↦ (by cases h)⟩
  exact Command.wp_mono (htail s' hfound) (fun r s' hr ↦ hwritten hnone r s' hr)
    fun _ _ h ↦ h.elim

end Traces

/-! ## How an update ends -/

section Settled

variable {svc : Service} {failure : Option DbCall} {isSub : Bool} {c : Context}
  {s s₁ s' : Storage} {asked found : UserInfo}

/-- The update ends with this answer and in this state, and if it fails, it has left a trace
exactly when it is one of those that do. -/
def Settled (svc : Service) (failure : Option DbCall) (isSub : Bool) (c : Context) (s : Storage)
    (r : Response) (s' : Storage) : Prop :=
  (r.refused = true → SameStores s s') ↔ ¬ Wastes svc failure isSub c s

theorem not_wastes (hnot : ∀ asked found, ¬ ReachesMfa svc isSub c s asked found) :
    ¬ Wastes svc failure isSub c s := by
  intro h
  cases h with
  | link h => exact hnot _ _ h
  | session h => exact hnot _ _ h

/-- An update that does not get to the second factor leaves no trace when it fails. -/
theorem settled_early {r : Response} (h : SameStores s s')
    (hnot : ∀ asked found, ¬ ReachesMfa svc isSub c s asked found) :
    Settled svc failure isSub c s r s' := iff_of_true (fun _ ↦ h) (not_wastes hnot)

/-- Nor when it does not fail. -/
theorem settled_answered {r : Response} (hr : r.refused = false)
    (hnot : ∀ asked found, ¬ ReachesMfa svc isSub c s asked found) :
    Settled svc failure isSub c s r s' :=
  iff_of_true (fun h ↦ absurd (hr.symm.trans h) Bool.noConfusion) (not_wastes hnot)

/-- The second factor that an update gets to is the one that its body asks for, of the record
that is found. -/
theorem reachesMfa_unique {asked' found' : UserInfo} (h : ReachesMfa svc isSub c s asked found)
    (h' : ReachesMfa svc isSub c s asked' found') : asked' = asked ∧ found' = found := by
  cases isSub with
  | false =>
    exact ⟨Option.some.inj (h'.passes.parsed.symm.trans h.passes.parsed),
      Option.some.inj (h'.lookup.symm.trans h.lookup)⟩
  | true =>
    exact ⟨Option.some.inj (h'.passes.parsed.symm.trans h.passes.parsed),
      Option.some.inj (h'.lookup.symm.trans h.lookup)⟩

/-- Which updates leave a trace, once they have got to the second factor. -/
theorem wastes_iff (h : ReachesMfa svc isSub c s asked found) :
    Wastes svc failure isSub c s ↔
      StoresLink c s ∧ (RefusesMfa svc c s asked found ∨ failure ≠ none) ∨
        UsesSession c s asked found ∧ failure ≠ none := by
  constructor
  · intro hwastes
    cases hwastes with
    | link h' hlink hfails =>
      obtain ⟨rfl, rfl⟩ := reachesMfa_unique h h'
      exact .inl ⟨hlink, hfails⟩
    | session h' hused hfails =>
      obtain ⟨rfl, rfl⟩ := reachesMfa_unique h h'
      exact .inr ⟨hused, hfails⟩
  · rintro (⟨hlink, hfails⟩ | ⟨hused, hfails⟩)
    · exact .link h hlink hfails
    · exact .session h hused hfails

/-- The update from the body, once the record is found. -/
theorem wp_updateUnder {tail : UserInfo → Handling Response} (hs₁ : SameStores s s₁)
    (hsms : s₁.sms = s.sms)
    (hreaches : ∀ asked, ReachesMfa svc isSub c s asked found ↔ PassesEdits svc isSub c asked found)
    (hlookup : ∀ asked found', ReachesMfa svc isSub c s asked found' → found' = found)
    (hid : found.id = c.request.getBinding "id")
    (htail : ∀ u s', ((s'.population isSub).getUserById svc (c.request.getBinding "id")).1 = some u →
      Command.wp (tail u) (fun r _ ↦ r.refused = false) (fun _ _ ↦ False) s') :
    Command.wp (do
      let u ← editRecord svc c found isSub
      let updated ← updateUserInfoUnder svc failure isSub (c.request.getBinding "id") u
      Command.ensure updated (.badRequest Errors.RecordNotUpdated)
      tail u) (Settled svc failure isSub c s) (Settled svc failure isSub c s) s₁ := by
  have hsession : HasSession c s₁ ↔ HasSession c s := HasSession.congr hs₁.sessions
  have hrefuses (asked : UserInfo) : RefusesMfa svc c s₁ asked found ↔
      RefusesMfa svc c s asked found :=
    ⟨RefusesMfa.congr hs₁.sessions.symm hsms.symm, RefusesMfa.congr hs₁.sessions hsms⟩
  have huses (asked : UserInfo) : UsesSession c s₁ asked found ↔ UsesSession c s asked found :=
    ⟨fun h ↦ ⟨h.asks, h.secret, hsession.mp h.session⟩,
      fun h ↦ ⟨h.asks, h.secret, hsession.mpr h.session⟩⟩
  have hlinked : SameStores s (linked c found.id isSub s₁) ↔ ¬ StoresLink c s :=
    sameStores_linked_iff hs₁
  rw [Command.wp_bind]
  refine wp_editRecord (fun hstops e ↦ ?_) (fun asked hpasses hrefused e he ↦ ?_)
    (fun asked hpasses hrefused hused u hu _ ↦ ?_) (fun asked hpasses hused u hu _ ↦ ?_)
  · refine settled_early hs₁ fun asked found' h ↦ ?_
    obtain rfl := hlookup asked found' h
    exact hstops asked ((hreaches asked).mp h)
  · -- the second factor is refused
    rw [hrefuses] at hrefused
    unfold Settled
    rw [wastes_iff ((hreaches asked).mpr hpasses), hlinked]
    have hnotUsed : ¬ UsesSession c s asked found := fun h ↦ h.not_refusesMfa hrefused
    simp [he, hrefused, hnotUsed]
  · -- no session is used
    rw [hrefuses] at hrefused
    rw [huses] at hused
    refine wp_write (hu.trans hid) (htail u) (fun hfails r s' hr h' ↦ ?_) fun hnone r s' hr ↦ ?_
    · have hsame : SameStores s s' ↔ ¬ StoresLink c s :=
        ⟨fun h ↦ hlinked.mp (h.trans h'.symm), fun h ↦ (hlinked.mpr h).trans h'⟩
      unfold Settled
      rw [wastes_iff ((hreaches asked).mpr hpasses), hsame]
      simp [hr, hfails, hused]
    · unfold Settled
      rw [wastes_iff ((hreaches asked).mpr hpasses)]
      simp [hr, hnone, hrefused]
  · -- the session is used up
    rw [huses] at hused
    refine wp_write (hu.trans hid) (htail u) (fun hfails r s' hr h' ↦ ?_) fun hnone r s' hr ↦ ?_
    · have hnot : ¬ SameStores s s' := by
        refine not_sameStores_of_session hused.session ?_
        rw [h'.sessions, ← hs₁.sessions]
      unfold Settled
      rw [wastes_iff ((hreaches asked).mpr hpasses)]
      simp [hr, hfails, hused, hnot]
    · unfold Settled
      rw [wastes_iff ((hreaches asked).mpr hpasses)]
      simp [hr, hnone, hused.not_refusesMfa]

/-- Putting a user. -/
theorem settled_putUser (hs : s.user.Coherent) :
    Command.wp (UserHandler.doPutUnder svc failure c) (Settled svc failure false c s)
      (Settled svc failure false c s) s := by
  have h₁ : SameStores s
      (s.onPopulation false fun p ↦ p.getUserById svc (c.request.getBinding "id")).2 :=
    .onPopulation (Population.getUserById_users svc _)
  -- the answer reads the record that was written
  have htail (missing : Response) (u : UserInfo) (s' : Storage)
      (hfound : ((s'.population false).getUserById svc (c.request.getBinding "id")).1 = some u) :
      Command.wp (UserHandler.buildUpdatedUserResponse svc (c.request.getBinding "id") missing)
        (fun r _ ↦ r.refused = false) (fun _ _ ↦ False) s' := by
    unfold UserHandler.buildUpdatedUserResponse UserHandler.getUserById
    simp only [Command.wp_bind, Command.wp_orStop, Command.wp_act, Command.wp_pure]
    refine ⟨fun _ _ ↦ rfl, fun hnone ↦ ?_⟩
    change ((s'.population false).getUserById svc (c.request.getBinding "id")).1 = none at hnone
    rw [hfound] at hnone
    cases hnone
  unfold UserHandler.doPutUnder UserHandler.getUserById
  simp only [Command.wp_bind, Command.wp_ensure, Command.wp_orStop, Command.wp_act,
    Command.wp_ite]
  refine ⟨fun htarget ↦ ⟨fun found hfound ↦ ⟨fun hallowed ↦ ⟨fun hreset ↦ ?_,
    fun hreset ↦ ⟨fun hforgot ↦ ?_, fun hforgot ↦ ?_⟩⟩, fun hdenied ↦ settled_early h₁ ?_⟩,
    fun hnone ↦ settled_early h₁ ?_⟩, fun hempty ↦ settled_early (.refl s) ?_⟩
  · -- resetMFA
    have hnot (asked found : UserInfo) : ¬ ReachesMfa svc false c s asked found :=
      fun h ↦ h.fromBody.1 (beq_iff_eq.mp hreset)
    refine ⟨fun _ ↦ ?_, fun _ ↦ settled_early h₁ hnot⟩
    obtain ⟨row, hrow, hsame⟩ := hs.of_getUserById svc hfound
    refine wp_write (hsame.id_eq.trans (Table.key_of_find? hrow)) (htail _ _)
      (fun _ r s' _ h' ↦ settled_early (h₁.trans h') hnot) fun _ r s' hr ↦ settled_answered hr hnot
  · -- forgotPassword
    exact settled_answered rfl fun _ _ h ↦ h.fromBody.2 (beq_iff_eq.mp hforgot)
  · -- the update from the body
    obtain ⟨row, hrow, hsame⟩ := hs.of_getUserById svc hfound
    have htarget' : c.request.getBinding "id" ≠ "" := by simpa using htarget
    have hreaches (asked : UserInfo) :
        ReachesMfa svc false c s asked found ↔ PassesEdits svc false c asked found :=
      ⟨fun h ↦ h.passes, fun h ↦ ⟨htarget', hfound, hallowed,
        ⟨by simpa using hreset, by simpa using hforgot⟩, h⟩⟩
    have honly (asked found' : UserInfo) (h : ReachesMfa svc false c s asked found') :
        found' = found := Option.some.inj (h.lookup.symm.trans hfound)
    unfold UserHandler.updateFromBodyUnder
    exact wp_updateUnder h₁ rfl hreaches honly (hsame.id_eq.trans (Table.key_of_find? hrow))
      fun u ↦ htail _ u
  · intro asked found' h
    obtain rfl : found' = found := Option.some.inj (h.lookup.symm.trans hfound)
    exact absurd (hdenied.symm.trans h.allowed) Bool.noConfusion
  · intro asked found' h
    exact absurd (hnone.symm.trans h.lookup) (by simp)
  · intro asked found' h
    exact h.target (by simpa using hempty)

/-- Putting a subscriber. -/
theorem settled_putSubscriber (hs : s.sub.Coherent) :
    Command.wp (SubUserHandler.doPutUnder svc failure c) (Settled svc failure true c s)
      (Settled svc failure true c s) s := by
  have h₁ : SameStores s
      (s.onPopulation true fun p ↦ p.getUserById svc (c.request.getBinding "id")).2 :=
    .onPopulation (Population.getUserById_users svc _)
  unfold SubUserHandler.doPutUnder SubUserHandler.getUserById
  simp only [Command.wp_bind, Command.wp_ensure, Command.wp_orStop, Command.wp_act,
    Command.wp_ite]
  refine ⟨fun htarget ↦ ⟨fun found hfound ↦ ⟨fun hallowed ↦ ⟨fun hreset ↦ ?_,
    fun hreset ↦ ⟨fun hforgot ↦ ?_, fun hforgot ↦ ?_⟩⟩, fun hdenied ↦ settled_early h₁ ?_⟩,
    fun hnone ↦ settled_early h₁ ?_⟩, fun hempty ↦ settled_early (.refl s) ?_⟩
  · -- resetMFA: the outcome of the update is not looked at
    have hnot (asked found : UserInfo) : ¬ ReachesMfa svc true c s asked found :=
      fun h ↦ absurd (h.fromBody.1.symm.trans hreset) Bool.noConfusion
    unfold SubUserHandler.handleResetMFAUnder
    simp only [Command.wp_bind, Command.wp_ensure, Command.wp_pure]
    refine ⟨fun _ ↦ ?_, fun _ ↦ settled_early h₁ hnot⟩
    exact settled_answered rfl hnot
  · -- forgotPassword, under either name
    refine settled_answered rfl fun _ _ h ↦ ?_
    rw [h.fromBody.2.1, h.fromBody.2.2] at hforgot
    cases hforgot
  · -- the update from the body
    obtain ⟨row, hrow, hsame⟩ := hs.of_getUserById svc hfound
    have htarget' : c.request.getBinding "id" ≠ "" := by simpa using htarget
    rw [Bool.not_eq_true] at hreset hforgot
    rw [Bool.or_eq_false_iff] at hforgot
    have hreaches (asked : UserInfo) :
        ReachesMfa svc true c s asked found ↔ PassesEdits svc true c asked found :=
      ⟨fun h ↦ h.passes, fun h ↦ ⟨htarget', hfound, hallowed, ⟨hreset, hforgot⟩, h⟩⟩
    have honly (asked found' : UserInfo) (h : ReachesMfa svc true c s asked found') :
        found' = found := Option.some.inj (h.lookup.symm.trans hfound)
    unfold SubUserHandler.updateFromBodyUnder
    refine wp_updateUnder h₁ rfl hreaches honly (hsame.id_eq.trans (Table.key_of_find? hrow))
      fun u s' _ ↦ ?_
    simp only [Command.wp_bind, Command.wp_pure]
    exact rfl
  · intro asked found' h
    obtain rfl : found' = found := Option.some.inj (h.lookup.symm.trans hfound)
    exact absurd (hdenied.symm.trans h.allowed) Bool.noConfusion
  · intro asked found' h
    exact absurd (hnone.symm.trans h.lookup) (by simp)
  · intro asked found' h
    exact h.target (by simpa using hempty)

end Settled

/-! ## The request -/

namespace Put

variable {svc : Service} {q : Put} {s : Storage} {c : Context}

theorem handler_subOnlyService (svc : Service) (q : Put) :
    (q.handler svc).subOnlyService = false := by
  unfold handler recordHandlerUnder
  cases q.isSub <;> rfl

/-- Authenticating the request leaves no trace. -/
theorem sameStores_authentication (hs : s.Coherent) :
    SameStores s (q.authentication svc s).2 := by
  have huser : s.SameUsers (q.authentication svc s).2 :=
    sameUsers_authenticate svc (hs false) (q.handler_subOnlyService svc)
  have hsub : (q.authentication svc s).2.sub = s.sub :=
    authenticate_sub svc (q.handler_subOnlyService svc)
  refine ⟨fun isSub ↦ ?_, huser.links, Storage.totp_authenticate _ _ _⟩
  cases isSub with
  | false => exact huser.users
  | true => exact congrArg Population.users hsub

/-- A request that is let through is answered by the update. -/
theorem run_of_admits (h : q.Admits svc s c) :
    q.run svc s = answer (doPutUnder svc q.failure q.isSub c) (q.authentication svc s).2 := by
  have haccept : ∃ qb, acceptRequest svc (q.handler svc) q.moment q.rateExceeded q.request s =
      (.ok { c with queryBlock := qb }, (q.authentication svc s).2) :=
    exists_acceptRequest svc _ _ _ _ h.acceptable h.granted h.request h.router h.moment
  obtain ⟨qb, hacc⟩ := haccept
  have hput : c.request.method = .PUT := h.request ▸ q.put
  unfold run
  rw [handleRequest_of_ok svc _ _ _ _ hacc]
  unfold dispatch handler recordHandlerUnder doPutUnder
  simp only [hput]
  cases q.isSub <;> rfl

/-- How a request that is let through ends. -/
theorem settled_run (hs : s.Coherent) (h : q.Admits svc s c) :
    Settled svc q.failure q.isSub c (q.authentication svc s).2 (q.run svc s).1
      (q.run svc s).2 := by
  have hcoherent : (q.authentication svc s).2.Coherent :=
    coherent_authenticate svc hs (q.handler_subOnlyService svc)
  rw [run_of_admits h]
  refine answer_of_wp ?_
  unfold doPutUnder
  cases q.isSub with
  | false => exact settled_putUser (hcoherent false)
  | true => exact settled_putSubscriber (hcoherent true)

/-- In every reachable state, a request that puts a record is all or nothing if and only if it
does not fail after it has stored the link for the verification of the address or used the
session of the caller up. -/
theorem allOrNothing_iff (h : (Storage.system svc).Reachable s) (q : Put) :
    q.AllOrNothing svc s ↔ ¬ q.Wasteful svc s := by
  have hs := Storage.coherent_of_reachable svc h
  have hauth : SameStores s (q.authentication svc s).2 := sameStores_authentication hs
  have hiff {c : Context} (hc : q.Admits svc s c) : q.AllOrNothing svc s ↔
      ¬ Wastes svc q.failure q.isSub c (q.authentication svc s).2 := by
    refine Iff.trans ?_ (settled_run hs hc)
    exact forall_congr' fun _ ↦ ⟨fun h ↦ hauth.symm.trans h, fun h ↦ hauth.trans h⟩
  constructor
  · rintro hall ⟨c, hc, hwastes⟩
    exact (hiff hc).mp hall hwastes
  · intro hnot
    by_cases hadmits : ∃ c, q.Admits svc s c
    · obtain ⟨c, hc⟩ := hadmits
      exact (hiff hc).mpr fun hwastes ↦ hnot ⟨c, hc, hwastes⟩
    · -- the request is turned away before the update
      refine handleRequest_rule svc (q.handler svc) q.moment q.rateExceeded q.request
        (P := fun r s' ↦ r.refused = true → SameStores s s')
        (fun c hacceptable hgranted hrequest hrouter hmoment ↦ ?_) ?_
      · exact absurd ⟨c, hacceptable, hgranted, hrequest, hrouter, hmoment⟩ hadmits
      · rintro e s' - (rfl | rfl) -
        · exact .refl _
        · exact hauth

/-! ## An unknown method

The account of the short run asks for a second factor that there is not. -/

/-- The update, with these parameters. -/
def samplePut (parameters : List (String × String)) : Put where
  isSub := false
  moment := .sample 200 "c"
  request :=
    { method := .PUT
      bearer := some "token-b"
      bindings := [("id", "uuid-a")]
      parameters := parameters
      body := .object [("userTypeProprietaryInfo",
        .obj [("mfa", .obj [("enabled", .bool true), ("method", .str "pigeon")])])] }
  put := rfl

/-- On its own the refusal leaves no trace. -/
theorem allOrNothing_iff_sample :
    ((samplePut []).run .sample (Storage.sampleLoggedIn false)).1 =
        .badRequest Errors.BadMFAMethod ∧
      (samplePut []).AllOrNothing .sample (Storage.sampleLoggedIn false) := by
  refine ⟨by decide, (allOrNothing_iff (Storage.reachable_sampleLoggedIn false) _).mpr ?_⟩
  rintro ⟨c, hc, hwastes⟩
  cases hwastes with
  | link h hlink hfails =>
    have hasked := hlink.asked
    rw [hc.request] at hasked
    exact absurd hasked (by decide)
  | session h hused hfails => exact hfails rfl

/-- The same request with a verification of the address is refused, and the link stays. -/
theorem refused_with_link :
    (Storage.system .sample).Reachable (Storage.sampleLoggedIn false) ∧
      ((samplePut [("email_verification", "true")]).run .sample (Storage.sampleLoggedIn false)).1 =
        .badRequest Errors.BadMFAMethod ∧
      (((samplePut [("email_verification", "true")]).run .sample
        (Storage.sampleLoggedIn false)).2.actionLinks.rows.map ActionLink.userId) = ["uuid-a"] ∧
      ¬ (samplePut [("email_verification", "true")]).AllOrNothing .sample
        (Storage.sampleLoggedIn false) := by
  have hanswer : ((samplePut [("email_verification", "true")]).run .sample
      (Storage.sampleLoggedIn false)).1 = .badRequest Errors.BadMFAMethod := by decide
  have hlinks : ((samplePut [("email_verification", "true")]).run .sample
      (Storage.sampleLoggedIn false)).2.actionLinks.rows.map ActionLink.userId = ["uuid-a"] := by
    decide
  refine ⟨Storage.reachable_sampleLoggedIn false, hanswer, hlinks, fun hall ↦ ?_⟩
  have hsame := (hall (by rw [hanswer]; rfl)).links
  rw [hsame] at hlinks
  exact absurd hlinks (by decide)

end Put

end OwSec
