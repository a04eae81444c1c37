import OwSec.Kit.Run
import OwSec.RestApi.RecordRequests

/-!
# Subscribers stay subscribers

The table of the subscribers is filled by sign-ups and by the subscriber handler, both of which
give a new record the role `SUBSCRIBER`, and the handler deletes no record with another one.  Its
update refuses a body that names the role `SUBSCRIBER`, as if that role were unknown, and takes
every other: an update whose body names a role turns the subscriber into something else, and
from then on the record cannot be deleted.
-/

namespace OwSec

open SecurityObjects Kit RestApi ACLProcessor

namespace SubscriberRoles

variable (svc : Service)

/-! ## Runs -/

/-- What happens in one step. -/
inductive Event
  /-- A request to one of the two end points. -/
  | request (e : EndPoint) (internal : Bool) (env : Surroundings) (r : Request)
  /-- Anything else, the callers' own records included. -/
  | elsewhere

/-- One step; what is not a request leaves the records of the subscribers as they are, up to what
does not concern their role, or drops them. -/
inductive Step : Storage → Event → Storage → Prop
  | request {s : Storage} {e : EndPoint} (he : e = .subuser ∨ e = .signup) (internal : Bool)
    (env : Surroundings) (r : Request) :
    Step s (.request e internal env r) ((RecordRequest.rest e internal env r).run svc s)
  | elsewhere {s s' : Storage}
    (h : ∀ v ∈ s'.sub.records, ∃ u ∈ s.sub.records, coreOf v = coreOf u) : Step s .elsewhere s'

/-- Runs start without subscribers. -/
def system : System Storage Event where
  init s := s.sub.users.rows = [] ∧ s.sub.cacheById = ∅
  step := Step svc

/-- An update of a subscriber passes the checks of its handler, and its body names a role. -/
def NamesRole (s : Storage) : Event → Prop
  | .request .subuser internal env r => r.method = .PUT ∧ ∃ c found,
      RecordRequest.Admits svc s .subuser internal env r c ∧
      SubUserHandler.PassesChecks svc c
        (authenticate svc (subuserHandler svc internal) env.moment r s).2 found ∧
      UserHandler.roleAsked svc.json (r.body.parsed.getD []) ≠ none
  | _ => False

/-! ## The invariant -/

/-- Every record of a subscriber has the role. -/
def invariant : RecordInvariant where
  record isSub u := isSub = true → u.userRole = .SUBSCRIBER
  enrolment _ _ := True
  insensitive isSub u v hcore h hsub := by
    rw [show v.userRole = u.userRole from congrArg RecordCore.userRole hcore]
    exact h hsub

variable {svc} {s s' : Storage}

/-- The role is all that the subscribers' part of the invariant looks at. -/
theorem record_congr {isSub : Bool} {u v : UserInfo} (hrole : v.userRole = u.userRole)
    (h : invariant.record isSub u) : invariant.record isSub v := by
  intro hsub
  rw [hrole]
  exact h hsub

/-- Setting a password does not touch the role. -/
theorem keptByPassword (isSub : Bool) (salt : String) (allowed : String → Prop) :
    KeptByPassword svc invariant isSub salt allowed := by
  intro u v password hu _ hset
  refine record_congr ?_ hu
  rw [setPassword_applied svc hset]

/-- What is created is created with the role. -/
theorem keptByCreation {c : Context} {body : UserInfo}
    (hcreates : SubUserHandler.Creates svc c s body) :
    KeptByCreation svc invariant true c.moment body := by
  intro new hnew _
  rw [(Population.newRecord_fields svc c.moment new).2.2.2.1, hnew.userRole, hcreates.userRole]

/-- An update that names no role keeps the invariant. -/
theorem keptByUpdate (c : Context) (s : Storage) : KeptByUpdate svc invariant true c s where
  password := keptByPassword true _ _
  mfa _ found _ := .of_indifferent (fun _ _ hu ↦ hu) _ _ _ found
  reset _ hu := hu

/-- A step keeps the invariant, unless it is an update that names a role. -/
theorem satisfies_step {e : Event} (h : s.Satisfies invariant) (hs : Step svc s e s')
    (hrole : ¬ NamesRole svc s e) : s'.Satisfies invariant := by
  cases hs with
  | @request e he internal env r =>
    refine RecordRequest.satisfies_run h fun c hc ↦ ?_
    rcases he with rfl | rfl
    · refine ⟨fun _ _ ↦ keptByCreation, fun hput ↦ ⟨fun found hpasses u role _ hasked ↦ ?_,
        keptByUpdate _ _⟩⟩
      rw [hc.request] at hput hasked
      exact absurd ⟨hput, c, found, hc, hpasses, by simp [hasked]⟩ hrole
    · exact fun _ _ _ _ _ ↦ rfl
  | elsewhere hkept =>
    refine ⟨fun isSub ↦ ?_, fun _ _ _ ↦ trivial⟩
    cases isSub with
    | false => exact fun u _ hsub ↦ by cases hsub
    | true =>
      intro v hv
      obtain ⟨u, hu, hcore⟩ := hkept v hv
      exact invariant.insensitive true u v hcore (h.records true u hu)

variable (svc) in
/-- Without subscribers the invariant holds. -/
theorem satisfies_init (h : (system svc).init s) : s.Satisfies invariant := by
  refine ⟨fun isSub ↦ ?_, fun _ _ _ ↦ trivial⟩
  cases isSub with
  | false => exact fun u _ hsub ↦ by cases hsub
  | true =>
    rintro u (hu | ⟨k, hu⟩)
    · change u ∈ s.sub.users.rows at hu
      rw [h.1] at hu
      cases hu
    · change s.sub.cacheById.lookup k = some u at hu
      rw [h.2] at hu
      cases hu

/-- In a run without updates that name a role, the invariant holds throughout. -/
theorem satisfies_reachable
    (h : ((system svc).restrict fun s e ↦ ¬ NamesRole svc s e).Reachable s) :
    s.Satisfies invariant := by
  refine h.invariant (I := fun s ↦ s.Satisfies invariant) (fun _ hs ↦ ?_) ?_
  · exact satisfies_init svc hs
  · rintro s e s' hi ⟨hs, hrole⟩
    exact satisfies_step hi hs hrole

/-! ## Deleting subscribers -/

/-- The caller may delete the record that is found under the identifier of the request. -/
structure MayDelete (svc : Service) (c : Context) (s : Storage) : Prop where
  target : c.request.getBinding "id" ≠ ""
  allowed : ∃ found, (s.sub.getUserById svc (c.request.getBinding "id")).1 = some found ∧
    (c.internal || can c.caller found .DELETE) = true

/-- A deletion that the caller may ask for is carried out, if the record is that of a subscriber. -/
theorem doDelete_of_mayDelete {c : Context} (h : s.Satisfies invariant)
    (hmay : MayDelete svc c s) :
    (answer (SubUserHandler.doDelete svc c) s).1 = .ok ∧
      (answer (SubUserHandler.doDelete svc c) s).2.sub.users.find?
        (c.request.getBinding "id") = none := by
  obtain ⟨hid, found, hfound, hallowed⟩ := hmay
  have hrole : found.userRole = .SUBSCRIBER :=
    h.records true found (Population.getUserById_mem svc hfound) rfl
  refine answer_of_wp (P := fun r s' ↦ r = .ok ∧
    s'.sub.users.find? (c.request.getBinding "id") = none) ?_
  unfold SubUserHandler.doDelete SubUserHandler.getUserById
  simp only [Command.wp_bind, Command.wp_ensure, Command.wp_orStop, Command.wp_pure,
    Command.wp_write, Command.wp_act]
  have hvalue : (s.onPopulation true fun p ↦ p.getUserById svc (c.request.getBinding "id")).1 =
      some found := hfound
  rw [hvalue]
  refine ⟨fun _ ↦ ⟨fun target htarget ↦ ?_, fun hnone ↦ by cases hnone⟩,
    fun hempty ↦ absurd hempty (by simpa using hid)⟩
  obtain rfl := Option.some.inj htarget
  refine ⟨fun _ ↦ ⟨fun _ ↦ ⟨trivial, ?_⟩, fun hnot ↦ ?_⟩, fun hnot ↦ ?_⟩
  · simp [Population.deleteUserFromCache, Population.find?_deleteUser]
  · rw [hallowed] at hnot
    cases hnot
  · rw [hrole] at hnot
    exact absurd hnot (by decide)

end SubscriberRoles

open SubscriberRoles

variable {svc : Service} {s : Storage}

/-- In every run from an empty table in which no update that passes the checks names a role,
every subscriber has the role `SUBSCRIBER`, and whoever may delete the record can. -/
theorem SubscriberRoles.subscribers_of_noRole
    (h : ((system svc).restrict fun s e ↦ ¬ NamesRole svc s e).Reachable s) :
    (∀ u ∈ s.sub.users.rows, u.userRole = .SUBSCRIBER) ∧
      ∀ c, MayDelete svc c s → (answer (SubUserHandler.doDelete svc c) s).1 = .ok ∧
        (answer (SubUserHandler.doDelete svc c) s).2.sub.users.find?
          (c.request.getBinding "id") = none := by
  have hsatisfies := satisfies_reachable h
  exact ⟨fun u hu ↦ hsatisfies.records true u (.inl hu) rfl,
    fun c ↦ doDelete_of_mayDelete hsatisfies⟩

/-! ## A subscriber who is made an administrator

A service creates a subscriber, and then updates the record with a body that names a role. -/

namespace SubscriberRoles

/-- A request of a service that knows the shared key. -/
def sampleRequest (method : Method) (id : String) (body : JsonObject) : Request where
  method := method
  internalName := some "owprov"
  apiKey := some "my-hash"
  bindings := [("id", id)]
  body := .object body

/-- The creation. -/
def sampleCreation : Request :=
  sampleRequest .POST "0" [("email", .str "joe@example.com"), ("userRole", .str "subscriber")]

/-- The update. -/
def samplePromotion : Request := sampleRequest .PUT "uuid-a" [("userRole", .str "admin")]

/-- The storage after the creation. -/
def sampleCreated : Storage :=
  (RecordRequest.rest .subuser true (.sample 100 "a") sampleCreation).run .sample {}

/-- The storage after the update. -/
def samplePromoted : Storage :=
  (RecordRequest.rest .subuser true (.sample 200 "b") samplePromotion).run .sample sampleCreated

theorem init_sample : (system .sample).init {} := ⟨rfl, rfl⟩

theorem reachable_sampleCreated :
    ((system .sample).restrict fun s e ↦ ¬ NamesRole .sample s e).Reachable sampleCreated := by
  refine System.Reachable.step (l := .request .subuser true (.sample 100 "a") sampleCreation)
    (.init init_sample) ⟨.request (.inl rfl) true (.sample 100 "a") sampleCreation, ?_⟩
  rintro ⟨hput, -⟩
  cases hput

/-- After the creation there is a subscriber, who can be deleted. -/
theorem subscribers_of_noRole_sample :
    sampleCreated.sub.users.rows ≠ [] ∧
      (∀ u ∈ sampleCreated.sub.users.rows, u.userRole = .SUBSCRIBER) ∧
      ∀ c, MayDelete .sample c sampleCreated →
        (answer (SubUserHandler.doDelete .sample c) sampleCreated).1 = .ok ∧
        (answer (SubUserHandler.doDelete .sample c) sampleCreated).2.sub.users.find?
          (c.request.getBinding "id") = none :=
  ⟨by decide, subscribers_of_noRole reachable_sampleCreated⟩

/-- After the update the record is that of an administrator, and it cannot be deleted. -/
theorem subscriber_made_admin :
    ¬ ∀ (svc : Service) (s : Storage), (system svc).Reachable s →
      ∀ u ∈ s.sub.users.rows, u.userRole = .SUBSCRIBER := by
  intro h
  have hpromoted : (system .sample).Reachable samplePromoted :=
    reachable_sampleCreated.of_restrict.step
      (.request (.inl rfl) true (.sample 200 "b") samplePromotion)
  have hroles : samplePromoted.sub.users.rows.map UserInfo.userRole = [.ADMIN] := by decide
  have hall := h .sample samplePromoted hpromoted
  rcases hrows : samplePromoted.sub.users.rows with _ | ⟨u, rest⟩
  · rw [hrows] at hroles
    cases hroles
  · rw [hrows] at hroles hall
    have hrole := hall u List.mem_cons_self
    rw [List.map_cons, hrole] at hroles
    cases hroles

end SubscriberRoles

end OwSec
