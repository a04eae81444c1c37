import Mathlib.Data.Set.Insert
import OwSec.Access.UserRuns

/-!
# An `ADMIN` sees and changes what is theirs

Everything that a request tells to an `ADMIN`, and everything that it changes for them, is
in their scope: their own record and the records that they created.  The scope means
something over time because the three fields that it rests on never change: a record keeps
its identifier, its address and its creator for as long as it exists, and an identifier is
never given to a second record.

The last part needs to know which identifiers have been given out, so the state of the
system is a `Registry`: the service, and all identifiers of users so far.
-/

namespace OwSec

open SecurityObjects Kit RestApi ACLProcessor

/-- The service, with the identifiers that users have had so far. -/
structure Registry where
  storage : Storage
  issued : Set String

/-- The row of an identifier. -/
def Registry.find? (w : Registry) (id : String) : Option UserInfo :=
  w.storage.user.users.find? id

/-- The identifier that a step may give to a new user. -/
def UserEvent.drawn : UserEvent → Set String
  | .call c => {c.moment.uuid}
  | .elsewhere => ∅

/-- A step whose fresh identifier has not been drawn before. -/
inductive RegistryStep (svc : Service) : Registry → UserEvent → Registry → Prop
  | step {s s' : Storage} {issued : Set String} {e : UserEvent} (h : UserStep svc s e s')
    (hfresh : ∀ id ∈ e.drawn, id ∉ issued) : RegistryStep svc ⟨s, issued⟩ e ⟨s', issued ∪ e.drawn⟩

/-- An address as `CreateUser` stores it: in lower case, and without a colon, as an address
that `ValidEMailAddress` accepts. -/
def StoredAddress (email : String) : Prop := toLower email = email ∧ ':' ∉ email.toList

/-- The user cache is coherent, the identifiers of the rows are known to be taken, and the
addresses are as they are stored. -/
structure Registry.WellFormed (w : Registry) : Prop where
  coherent : w.storage.user.Coherent
  issued : ∀ id u, w.find? id = some u → id ∈ w.issued
  address : ∀ id u, w.find? id = some u → StoredAddress u.email

/-- The system of these steps, over any well-formed table. -/
def registrySystem (svc : Service) : System Registry UserEvent where
  init := Registry.WellFormed
  step := RegistryStep svc

/-- For whom a request is made: for its caller, except that a service lists users for the
owner of the bearer token that it passes on. -/
def Call.onBehalfOf (svc : Service) (c : Call) (s : Storage) : Option UserInfo :=
  if c.list && c.internal then
    if c.request.internalName.isSome then
      (s.isValidToken svc c.moment.now (c.request.bearer.getD "")).1.uinfo.map
        UserInfoAndPolicy.userinfo
    else none
  else c.caller svc s

/-- What has changed between `s` and `s'` is in the scope of `a`. -/
structure ChangedWithin (a : UserInfo) (s s' : Storage) : Prop where
  /-- A record that was changed or deleted. -/
  records : ∀ id u, s.user.users.find? id = some u → s'.user.users.find? id ≠ some u → InScope a u
  /-- The user about whom an action link was stored. -/
  links : ∀ l ∈ s'.actionLinks.rows, l ∈ s.actionLinks.rows ∨
    ∃ u, (s.user.users.find? l.userId = some u ∨ s'.user.users.find? l.userId = some u) ∧
      InScope a u

/-- What the isolation of `ADMIN`s means in a state. -/
structure Isolated (svc : Service) (w : Registry) : Prop where
  /-- What a reading request tells to an `ADMIN`. -/
  told : ∀ (c : Call) (a : UserInfo), c.request.method = .GET →
    a ∈ c.onBehalfOf svc w.storage → a.userRole = .ADMIN →
    (c.run svc w.storage).1.Within w.find? a
  /-- What any request changes for an `ADMIN`. -/
  changed : ∀ (c : Call) (a : UserInfo), a ∈ c.caller svc w.storage → a.userRole = .ADMIN →
    ChangedWithin a w.storage (c.run svc w.storage).2
  /-- A record keeps its identifier, its address and its creator. -/
  kept : ∀ w', (registrySystem svc).Run w w' → ∀ id u u', w.find? id = some u →
    w'.find? id = some u' → u'.id = u.id ∧ u'.email = u.email ∧ toLower u'.email = u'.email ∧
      u'.createdBy = u.createdBy

section Steps

variable {svc : Service} {w w' : Registry} {e : UserEvent}

/-- What becomes of the records in a step: a record comes from one with the same address
and creator, or it is new, under the fresh identifier. -/
theorem record_of_step (hw : w.WellFormed) (h : RegistryStep svc w e w') {id : String}
    {u' : UserInfo} (hu' : w'.find? id = some u') :
    (∃ u, w.find? id = some u ∧ u'.email = u.email ∧ u'.createdBy = u.createdBy) ∨
      id ∈ e.drawn ∧ StoredAddress u'.email := by
  cases h with
  | @step s s' issued e h hfresh =>
    obtain ⟨table, about, hchange, hat⟩ := h.change hw.coherent
    change s'.user.users.find? id = some u' at hu'
    rw [hat.users] at hu'
    cases hchange with
    | unchanged => exact .inl ⟨u', hu', rfl, rfl⟩
    | effect call c row hrequest hmoment hlist hpublic hc hrow hsame heffect =>
      cases heffect with
      | unchanged => exact .inl ⟨u', hu', rfl, rfl⟩
      | deleted target htarget hid hm hcan =>
        rw [Function.update_apply] at hu'
        split at hu'
        · cases hu'
        · exact .inl ⟨u', hu', rfl, rfl⟩
      | created new hnone hm hcan hid hcreator hemail hvalid about habout =>
        rw [Function.update_apply] at hu'
        split at hu'
        · rename_i hk
          obtain rfl := Option.some.inj hu'
          refine .inr ⟨?_, hemail, ?_⟩
          · show id = call.moment.uuid
            rw [hk, hid, hmoment]
          · exact notMem_of_validEMailAddress hvalid (by decide) (by decide)
        · exact .inl ⟨u', hu', rfl, rfl⟩
      | written target new htarget hid hm hcan hnew about habout =>
        rw [Function.update_apply] at hu'
        split at hu'
        · rename_i hk
          obtain rfl := Option.some.inj hu'
          refine .inl ⟨target, hk ▸ htarget, ?_, hnew.createdBy⟩
          rcases hnew.email with hemail | hemail
          · exact hemail
          · rw [hemail]
            exact (hw.address _ target htarget).1
        · exact .inl ⟨u', hu', rfl, rfl⟩

/-- A step keeps the registry well formed. -/
theorem Registry.WellFormed.step (hw : w.WellFormed) (h : RegistryStep svc w e w') :
    w'.WellFormed := by
  have hrecord {id : String} {u' : UserInfo} (hu' : w'.find? id = some u') :=
    record_of_step hw h hu'
  refine ⟨?_, fun id u' hu' ↦ ?_, fun id u' hu' ↦ ?_⟩
  · cases h with
    | step h hfresh => exact h.coherent hw.coherent
  · have hold : w.issued ∪ e.drawn = w'.issued := by
      cases h
      rfl
    rw [← hold]
    rcases hrecord hu' with ⟨u, hu, -⟩ | ⟨hdrawn, -⟩
    · exact .inl (hw.issued id u hu)
    · exact .inr hdrawn
  · rcases hrecord hu' with ⟨u, hu, hemail, -⟩ | ⟨-, haddress⟩
    · rw [hemail]
      exact hw.address id u hu
    · exact haddress

/-- Every reachable registry is well formed. -/
theorem Registry.wellFormed_of_run (h : (registrySystem svc).Reachable w) : w.WellFormed :=
  h.invariant (fun _ hw ↦ hw) fun _ _ _ hw hstep ↦ Registry.WellFormed.step hw hstep

/-- Over a run, a record whose identifier was taken at the start is a record of the start,
with the same address and creator. -/
theorem record_of_run (hw : w.WellFormed) (h : (registrySystem svc).Run w w') {id : String}
    {u' : UserInfo} (hid : id ∈ w.issued) (hu' : w'.find? id = some u') :
    ∃ u, w.find? id = some u ∧ u'.email = u.email ∧ u'.createdBy = u.createdBy := by
  have hinv : w'.WellFormed ∧ w.issued ⊆ w'.issued ∧ ∀ u', w'.find? id = some u' →
      ∃ u, w.find? id = some u ∧ u'.email = u.email ∧ u'.createdBy = u.createdBy := by
    refine h.invariant (I := fun x ↦ x.WellFormed ∧ w.issued ⊆ x.issued ∧ ∀ u', x.find? id = some u' →
      ∃ u, w.find? id = some u ∧ u'.email = u.email ∧ u'.createdBy = u.createdBy)
      (fun x e x' hx hstep ↦ ?_) ⟨hw, subset_rfl, fun u hu ↦ ⟨u, hu, rfl, rfl⟩⟩
    obtain ⟨hwell, hissued, hrecords⟩ := hx
    refine ⟨hwell.step hstep, ?_, fun u' hu' ↦ ?_⟩
    · cases hstep with
      | step => exact hissued.trans Set.subset_union_left
    · rcases record_of_step hwell hstep hu' with ⟨v, hv, hemail, hcreator⟩ | ⟨hdrawn, -⟩
      · obtain ⟨u, hu, hemail', hcreator'⟩ := hrecords v hv
        exact ⟨u, hu, hemail.trans hemail', hcreator.trans hcreator'⟩
      · cases hstep with
        | step hmove hfresh => exact absurd (hissued hid) (hfresh id hdrawn)
  exact hinv.2.2 u' hu'

/-- A record never changes its identifier, its address or its creator. -/
theorem kept_of_run (hw : w.WellFormed) (h : (registrySystem svc).Run w w') {id : String}
    {u u' : UserInfo} (hu : w.find? id = some u) (hu' : w'.find? id = some u') :
    u'.id = u.id ∧ u'.email = u.email ∧ toLower u'.email = u'.email ∧
      u'.createdBy = u.createdBy := by
  obtain ⟨v, hv, hemail, hcreator⟩ := record_of_run hw h (hw.issued id u hu) hu'
  obtain rfl := Option.some.inj (hu.symm.trans hv)
  refine ⟨(Table.key_of_find? hu').trans (Table.key_of_find? hu).symm, hemail, ?_, hcreator⟩
  rw [hemail]
  exact (hw.address id u hu).1

end Steps

section Requests

variable {svc : Service} {s s' : Storage} {call : Call} {a : UserInfo}

/-- Without a change there is nothing to be in the scope. -/
theorem ChangedWithin.of_at (hat : At s.user.users.find? none s s') : ChangedWithin a s s' := by
  refine ⟨fun id u hu hne ↦ absurd (hat.users ▸ hu) hne, fun l hl ↦ ?_⟩
  rcases hat.links l hl with hold | hnew
  · exact .inl hold
  · cases hnew

/-- One record has changed, and links are at most about its user. -/
theorem ChangedWithin.of_update {target : String} {o : Option UserInfo} {about : Option String}
    (hat : At (Function.update s.user.users.find? target o) about s s')
    (hscope : ∀ u, s.user.users.find? target = some u → InScope a u)
    (habout : about = none ∨ about = some target ∧
      ∃ u, (s.user.users.find? target = some u ∨ o = some u) ∧ InScope a u) :
    ChangedWithin a s s' := by
  refine ⟨fun id u hu hne ↦ ?_, fun l hl ↦ ?_⟩
  · rw [hat.users, Function.update_apply] at hne
    split at hne
    · rename_i hk
      exact hscope u (hk ▸ hu)
    · exact absurd hu hne
  · rcases hat.links l hl with hold | hnew
    · exact .inl hold
    · rcases habout with hnone | ⟨hsome, u, hu, hin⟩
      · rw [hnone] at hnew
        cases hnew
      · rw [hsome] at hnew
        obtain rfl := Option.some.inj hnew
        refine .inr ⟨u, ?_, hin⟩
        rw [hat.users, Function.update_self]
        exact hu

/-- A request of an `ADMIN` changes records in their scope and stores links about users in
their scope. -/
theorem changedWithin_of_request (hs : s.user.Coherent) (ha : a ∈ call.caller svc s)
    (hadmin : a.userRole = .ADMIN) : ChangedWithin a s (call.run svc s).2 := by
  have hrole : a.userRole ≠ .ROOT := by
    rw [hadmin]
    exact UserRole.noConfusion
  obtain ⟨table, about, hchange, hat⟩ :
      ∃ table about, Change svc s (.call call) table about ∧ At table about s (call.run svc s).2 :=
    call.change hs
  cases hchange with
  | unchanged => exact .of_at hat
  | effect call c row hrequest hmoment hlist hpublic hc hrow hsame heffect =>
    obtain rfl : c.caller = a := Option.some.inj (hc.symm.trans ha)
    cases heffect with
    | unchanged => exact .of_at hat
    | deleted target htarget hid hm hcan =>
      obtain ⟨-, hroot | ⟨-, hcreated, -⟩⟩ := of_canDeleteUserRecord hcan
      · exact absurd hroot hrole
      · refine .of_update hat (fun u hu ↦ ?_) (.inl rfl)
        obtain rfl := Option.some.inj (htarget.symm.trans hu)
        exact .inr hcreated
    | created new hnew hm hcan hid hcreator hemail hvalid about habout =>
      refine .of_update hat (fun u hu ↦ ?_) (habout.imp_right fun hsome ↦ ?_)
      · rw [hnew] at hu
        cases hu
      · exact ⟨hsome, new, .inr rfl, .inr hcreator⟩
    | written target new htarget hid hm hcan hnew about habout =>
      have hin : InScope c.caller target := (of_canModifyUserRecord hrole hcan).2
      refine .of_update hat (fun u hu ↦ ?_) (habout.imp_right fun hsome ↦ ?_)
      · obtain rfl := Option.some.inj (htarget.symm.trans hu)
        exact hin
      · exact ⟨hsome, target, .inl htarget, hin⟩

/-- An end point of a service is not the address of a user. -/
theorem isOwprovRequester_of_storedAddress
    (hpoints : ∀ e ∈ svc.provisioningEndPoints, ':' ∈ e.1.toList ∧ ':' ∈ e.2.toList) {email : String}
    (h : StoredAddress email) : UserHandler.isOwprovRequester svc email = false := by
  rw [Bool.eq_false_iff]
  intro hservice
  obtain ⟨e, he, hpoint⟩ := List.any_eq_true.mp (Bool.and_eq_true_iff.mp hservice).2
  rcases Bool.or_eq_true_iff.mp hpoint with hpoint | hpoint
  · exact h.2 (beq_iff_eq.mp hpoint ▸ (hpoints e he).1)
  · exact h.2 (beq_iff_eq.mp hpoint ▸ (hpoints e he).2)

/-- A reading request tells an `ADMIN` about records in their scope. -/
theorem within_of_request
    (hpoints : ∀ e ∈ svc.provisioningEndPoints, ':' ∈ e.1.toList ∧ ':' ∈ e.2.toList)
    (hs : s.user.Coherent)
    (haddress : ∀ id u, s.user.users.find? id = some u → StoredAddress u.email)
    (hget : call.request.method = .GET) (ha : a ∈ call.onBehalfOf svc s)
    (hadmin : a.userRole = .ADMIN) : (call.run svc s).1.Within s.user.users.find? a := by
  have hsame := sameUsers_authenticate svc hs (call.handler_subOnlyService svc)
    (m := call.moment) (r := call.request)
  refine handleRequest_rule svc (call.handler svc) call.moment call.rateExceeded call.request
    (P := fun r _ ↦ r.Within s.user.users.find? a)
    (fun c haccept hgranted hrequest hinternal hmoment ↦ ?_)
    fun e s' he _ ↦ Response.within_of_refused he _ _
  have hcaller : call.caller svc s = some c.caller := by
    unfold Call.caller Call.authentication
    rw [hgranted]
    rfl
  have hknown := knownCaller_of_authenticate svc hs (call.handler_subOnlyService svc)
    (call.handler_alwaysAuthorize svc) hgranted
  rw [call.handler_internal] at hinternal
  by_cases hlist : call.list
  · have hhandler : call.handler svc = usersHandler svc call.internal := if_pos hlist
    -- the user for whom the list is made is `a`
    have heffective (user : UserInfo)
        (h : UsersHandler.Effective svc c (call.authentication svc s).2 user) : user = a := by
      unfold UsersHandler.Effective at h
      unfold Call.onBehalfOf at ha
      rw [hlist, Bool.true_and] at ha
      rw [hinternal, hrequest, hmoment] at h
      split at h
      · rename_i hi
        obtain ⟨hname, huser⟩ := h
        have hstate : (call.authentication svc s).2 = s :=
          authenticate_service_snd svc (hhandler ▸ hi) hname
        rw [if_pos hi, if_pos hname, ← hstate, huser] at ha
        exact Option.some.inj ha
      · rename_i hi
        rw [if_neg hi, hcaller] at ha
        exact h.symm.trans (Option.some.inj ha)
    rw [hhandler] at hsame ⊢
    have hwithin (r : Response) (h : r.refused = true ∨
        ∃ user, UsersHandler.Effective svc c (call.authentication svc s).2 user ∧
          (user.userRole = .ADMIN → r.Within s.user.users.find? user)) :
        r.Within s.user.users.find? a := by
      rcases h with hrefused | ⟨user, huser, hr⟩
      · exact Response.within_of_refused hrefused _ _
      · obtain rfl := heffective user huser
        exact hr hadmin
    unfold Call.authentication at hwithin
    rw [hhandler] at hwithin
    refine Command.wp_mono (UsersHandler.dispatch_within call.internal hsame.coherent) ?_ ?_ <;>
    · rintro r s' ⟨-, hr⟩
      rw [hsame.users] at hr
      exact hwithin r hr
  · have hhandler : call.handler svc = userHandler svc call.internal := if_neg hlist
    have hself : c.caller = a := by
      unfold Call.onBehalfOf at ha
      rw [if_neg (by simp [hlist]), hcaller] at ha
      exact Option.some.inj ha
    subst hself
    rw [hhandler] at hsame ⊢
    unfold dispatch
    rw [hrequest, hget]
    refine UserHandler.doGet_within hsame.coherent ?_ fun _ ↦ ?_
    · rw [hadmin]
      exact UserRole.noConfusion
    · rcases hknown.service_or_row with ⟨-, -, -, hnobody⟩ | ⟨-, hwho, row, hrow, hcurrent⟩
      · unfold Context.caller at hadmin
        rw [hnobody] at hadmin
        cases hadmin
      · rw [hwho]
        refine isOwprovRequester_of_storedAddress hpoints ?_
        rw [hcurrent.eq UserInfo.email fun _ _ ↦ rfl]
        exact haddress _ row hrow

end Requests

/-- In every state that runs of requests lead to, an `ADMIN` is told about themselves and
what they created and about nobody else, changes nothing else, and the identifier, the
address and the creator of a record, on which this rests, stay as they are. -/
theorem admin_isolation (svc : Service)
    (hpoints : ∀ e ∈ svc.provisioningEndPoints, ':' ∈ e.1.toList ∧ ':' ∈ e.2.toList)
    (w : Registry) (h : (registrySystem svc).Reachable w) : Isolated svc w := by
  have hw := Registry.wellFormed_of_run h
  refine ⟨fun c a hget ha hadmin ↦ ?_, fun c a ha hadmin ↦ ?_, fun w' hrun id u u' hu hu' ↦ ?_⟩
  · exact within_of_request hpoints hw.coherent hw.address hget ha hadmin
  · exact changedWithin_of_request hw.coherent ha hadmin
  · exact kept_of_run hw hrun hu hu'

/-- The three users, whose identifiers are the only ones so far. -/
def sampleRegistry : Registry := ⟨sampleStaff, {id | id ∈ ["root", "boss", "admin"]}⟩

/-- The `ADMIN` creates a user. -/
def sampleHiring : Call :=
  sampleCall "a" "admin" "0" .POST
    (.object [("email", .str "jo@example.com"), ("userRole", .str "csr")])

theorem sampleRegistry_wellFormed : sampleRegistry.WellFormed where
  coherent := Population.Coherent.of_empty rfl
  issued := by
    intro id u hu
    obtain ⟨hmem, rfl⟩ := (Table.find?_eq_some_iff _).mp hu
    have hids : ∀ v ∈ sampleStaff.user.users.rows, v.id ∈ ["root", "boss", "admin"] := by decide
    exact hids u hmem
  address := by
    intro id u hu
    obtain ⟨hmem, rfl⟩ := (Table.find?_eq_some_iff _).mp hu
    have hrows : ∀ v ∈ sampleStaff.user.users.rows,
        toLower v.email = v.email ∧ ':' ∉ v.email.toList := by decide
    exact hrows u hmem

/-- After the `ADMIN` has created a user, they are isolated. -/
theorem admin_isolation_sample :
    Isolated .sample ⟨(sampleHiring.run .sample sampleStaff).2,
      sampleRegistry.issued ∪ (UserEvent.call sampleHiring).drawn⟩ := by
  refine admin_isolation .sample (by decide) _
    (System.Reachable.step (.init sampleRegistry_wellFormed)
      (RegistryStep.step (.call sampleHiring) ?_))
  rintro id rfl
  decide

-- A search text with a quote in it is searched for and does not widen the list.
example : (Call.run .sample
    { list := true
      moment := .sample 101 "b"
      request :=
        { bearer := some "token-admin"
          parameters := [("nameSearch", "' or '1'='1"), ("idOnly", "true")] } }
    (sampleHiring.run .sample sampleStaff).2).1 = .users [] := by decide

example : (Call.run .sample
    { list := true
      moment := .sample 101 "b"
      request := { bearer := some "token-admin", parameters := [("idOnly", "true")] } }
    (sampleHiring.run .sample sampleStaff).2).1 = .userIds ["uuid-a"] := by decide

end OwSec
