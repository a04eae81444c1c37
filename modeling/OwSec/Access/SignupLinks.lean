import OwSec.Access.LinkProgress
import OwSec.RestApi.SignupMarks

/-!
# Whether the thread that sends the links survives

The message of a sign-up is written with the template of an operator: `ActionLinkManager::run`
splits `signingUp` at the colon and takes the first part, `Signup[0]`.  Where the field is empty
there is no part, the access raises an exception, and the thread ends.

Only the sign-up handler makes links of this kind.  For an address that is not known it creates
the subscriber, with both parts in `signingUp`.  For a subscriber who waits for a mail it makes
the link without a look at the field, and a subscriber whom somebody else has created may wait
for a mail as well.  The thread survives every run in which no sign-up finds such a subscriber.
-/

namespace OwSec

open SecurityObjects Kit RestApi

namespace SignupLinks

variable (svc : Service)

/-! ## Runs -/

/-- What happens in one step. -/
inductive Event
  /-- A request about users, about subscribers, or to sign up. -/
  | request (e : EndPoint) (internal : Bool) (env : Surroundings) (r : Request)
  | beginPass
  | process (now : ℕ) (i : ActionLink)
  | elsewhere

/-- The identifiers that a request gives to what it creates have not been used. -/
structure Fresh (s : LinkManager) (m : Moment) : Prop where
  row : s.storage.sub.users.find? m.uuid = none
  cached : s.storage.sub.cacheById.lookup m.uuid = none
  link : s.storage.getActionLink m.uuid' = none
  links : ∀ i ∈ s.storage.actionLinks.rows, i.userId ≠ m.uuid
  pass : ∀ i ∈ s.pass, i.userId ≠ m.uuid

/-- One step.  What happens elsewhere leaves the subscribers and the links, and may drop
subscribers from the cache. -/
inductive Step : LinkManager → Event → LinkManager → Prop
  | request {s : LinkManager} {e : EndPoint} (he : e = .user ∨ e = .subuser ∨ e = .signup)
    (internal : Bool) (env : Surroundings) (r : Request) (hfresh : Fresh s env.moment) :
    Step s (.request e internal env r)
      { s with storage := (RecordRequest.rest e internal env r).run svc s.storage }
  | beginPass {s : LinkManager} (hpass : s.pass = []) (hrunning : s.running = true) :
    Step s .beginPass s.beginPass
  | process {s : LinkManager} (now : ℕ) (i : ActionLink) (rest : List ActionLink)
    (hpass : s.pass = i :: rest) (hrunning : s.running = true) :
    Step s (.process now i) (s.process svc now i rest)
  | elsewhere {s : LinkManager} (storage : Storage)
    (hlinks : storage.actionLinks = s.storage.actionLinks)
    (husers : storage.sub.users = s.storage.sub.users)
    (hcache : Cache.Evicts s.storage.sub.cacheById storage.sub.cacheById) :
    Step s .elsewhere { s with storage }

/-- There are no subscribers and no links, and the thread runs. -/
structure AtStart (s : LinkManager) : Prop where
  rows : s.storage.sub.users.rows = []
  cache : s.storage.sub.cacheById = ∅
  links : s.storage.actionLinks.rows = []
  pass : s.pass = []
  running : s.running = true

/-- The end points and the thread as a transition system. -/
def system : System LinkManager Event where
  init := AtStart
  step := Step svc

/-- No pass raises an exception. -/
structure SurvivalLaw (s : LinkManager) : Prop where
  /-- None has. -/
  running : s.running = true
  /-- None would for a link that is stored, or that the pass has read. -/
  quiet : ∀ i, i ∈ s.storage.actionLinks.rows ∨ i ∈ s.pass → raises svc i s.storage = false

/-- A sign-up is let through to its handler, and finds a subscriber who waits for a mail and has
not signed up. -/
def FindsBlank (s : LinkManager) : Event → Prop
  | .request .signup internal env r => r.method = .POST ∧ ∃ c s₁,
      acceptRequest svc (signupHandler svc internal) env.moment env.rateExceeded r s.storage =
        (.ok c, s₁) ∧ SignupHandler.FindsBlank svc c s₁
  | _ => False

/-! ## New subscribers -/

variable {svc} {blank : Set String}

/-- The set with one identifier put in or taken out. -/
def withNew (blank : Set String) (uuid : String) (b : Prop) : Set String :=
  {id | id = uuid ∧ b ∨ id ≠ uuid ∧ id ∈ blank}

theorem mem_withNew_self {uuid : String} {b : Prop} : uuid ∈ withNew blank uuid b ↔ b := by
  simp [withNew]

theorem mem_withNew_of_ne {id uuid : String} {b : Prop} (h : id ≠ uuid) :
    id ∈ withNew blank uuid b ↔ id ∈ blank := by
  simp [withNew, h]

/-- Links for others stay as they are. -/
theorem signedUp_withNew {i : ActionLink} {uuid : String} (h : SignedUp blank i)
    (hi : i.userId ≠ uuid) (b : Prop) : SignedUp (withNew blank uuid b) i := by
  intro haction
  rw [mem_withNew_of_ne hi]
  exact h haction

/-- The records and the links fit, whatever is said of an identifier that is nobody's. -/
theorem marked_withNew {s : LinkManager} {m : Moment} (h : s.storage.Marked blank)
    (hfresh : Fresh s m) (b : Prop) : s.storage.Marked (withNew blank m.uuid b) := by
  refine ⟨⟨?_, h.sub.keyed⟩, fun i hi ↦ signedUp_withNew (h.links i hi) (hfresh.links i hi) b⟩
  intro u hu
  have hne : u.id ≠ m.uuid := by
    rintro heq
    rcases hu with hrow | ⟨k, hcached⟩
    · have hfind := s.storage.sub.users.mem_rows_iff.mp hrow
      rw [heq, hfresh.row] at hfind
      cases hfind
    · have hkey : u.id = k := h.sub.keyed k u hcached
      rw [← hkey, heq, hfresh.cached] at hcached
      cases hcached
  unfold Fits
  rw [mem_withNew_of_ne hne]
  exact h.sub.records u hu

/-- What a request may create has an empty `signingUp`. -/
def CreatesBlank (svc : Service) (r : Request) : EndPoint → Prop
  | .subuser => ∃ body, UserInfo.fromJson svc.json r.body.parsed = some body ∧ body.signingUp = ""
  | _ => False

/-- A request maintains the marks, with the new subscriber among them. -/
theorem marked_run {s : LinkManager} {e : EndPoint} (he : e = .user ∨ e = .subuser ∨ e = .signup)
    {internal : Bool} {env : Surroundings} {r : Request}
    (h : s.storage.Marked (withNew blank env.moment.uuid (CreatesBlank svc r e)))
    (hfinds : ¬ FindsBlank svc s (.request e internal env r)) :
    ((RecordRequest.rest e internal env r).run svc s.storage).Marked
      (withNew blank env.moment.uuid (CreatesBlank svc r e)) := by
  generalize hset : withNew blank env.moment.uuid (CreatesBlank svc r e) = after at h
  have hauth := h.authenticate svc (e.handler svc env internal) env.moment r
  change (handleRequest svc (e.handler svc env internal) env.moment env.rateExceeded r
    s.storage).2.Marked after
  cases hacc : acceptRequest svc (e.handler svc env internal) env.moment env.rateExceeded r
    s.storage with
  | mk result s₁ =>
  cases result with
  | error reply =>
    have hwp := wp_acceptRequest svc (e.handler svc env internal) env.moment env.rateExceeded r
      (s := s.storage) (Q := fun _ _ ↦ True) (E := fun _ s' ↦ s'.Marked after)
      (fun _ _ _ _ _ _ ↦ trivial) fun _ s' _ hs' ↦ by rcases hs' with rfl | rfl <;> assumption
    have hrefused : s₁.Marked after :=
      Command.wp_of_error (E := fun _ s' ↦ s'.Marked after) hwp hacc
    rw [handleRequest_of_error svc _ _ _ _ hacc]
    exact hrefused
  | ok c =>
    obtain ⟨-, -, rfl, hrequest, -, hmoment, -⟩ := (acceptRequest_eq_ok_iff svc _ _ _ _).mp hacc
    rw [handleRequest_of_ok svc _ _ _ _ hacc]
    refine answer_of_wp (P := fun _ s' ↦ s'.Marked after) ?_
    rcases he with rfl | rfl | rfl
    · exact (UserHandler.maintains_dispatch after c internal).leaves hauth
    · refine (SubUserHandler.maintains_dispatch internal fun _ body hbody ↦ ?_).leaves hauth
      rw [hmoment, ← hset, mem_withNew_self]
      rw [hrequest] at hbody
      refine ⟨fun hempty ↦ ⟨body, hbody, hempty⟩, ?_⟩
      rintro ⟨body', hbody', hempty⟩
      exact Option.some.inj (hbody'.symm.trans hbody) ▸ hempty
    · refine SignupHandler.marked_dispatch internal hauth ?_ fun hpost hfound ↦ ?_
      · rw [hmoment, ← hset, mem_withNew_self]
        exact id
      · rw [hrequest] at hpost
        exact hfinds ⟨hpost, c, _, hacc, hfound⟩

/-! ## The pass -/

section Pass

variable {s : Storage}

/-- Setting a column that says what became of a link leaves whom it is for. -/
theorem marked_modifyAction (h : s.Marked blank) {f : ActionLink → ActionLink}
    (hid : ∀ a, (f a).id = a.id) (hf : ∀ a, SignedUp blank a → SignedUp blank (f a))
    (id : String) : (s.modifyAction id f).Marked blank := by
  refine ⟨?_, fun i hi ↦ ?_⟩
  · rw [show (s.modifyAction id f).sub = s.sub from Storage.population_modifyAction s id f true]
    exact h.sub
  · rw [Storage.rows_modifyAction hid] at hi
    obtain ⟨a, ha, rfl⟩ := List.mem_map.mp hi
    split
    · exact hf a (h.links a ha)
    · exact h.links a ha

theorem marked_processLink (h : s.Marked blank) (now : ℕ) (i : ActionLink) :
    (processLink svc now i s).Marked blank := by
  have hcancel {s' : Storage} (h' : s'.Marked blank) : (s'.cancelAction now i.id).Marked blank :=
    marked_modifyAction (f := ({ · with canceled := now })) h' (fun _ ↦ rfl) (fun _ ha ↦ ha) i.id
  have hsent {s' : Storage} (h' : s'.Marked blank) : (s'.sentAction now i.id).Marked blank :=
    marked_modifyAction (f := ({ · with sent := now })) h' (fun _ ↦ rfl) (fun _ ha ↦ ha) i.id
  unfold processLink
  split
  · rename_i isSub _
    have hlooked : (s.onPopulation isSub fun p ↦ p.getUserById svc i.userId).2.Marked blank :=
      h.onPopulation (fun hp ↦ hp.getUserById svc i.userId) isSub
    split
    · rename_i hl
      rw [hl] at hlooked
      exact hcancel hlooked
    · rename_i hl
      rw [hl] at hlooked
      split
      · exact hlooked
      · exact hsent hlooked
  · split
    · exact hcancel h
    · exact hsent h

/-- The message of a sign-up can be written for whoever has signed up. -/
theorem messageRaises_of_signingUp (i : ActionLink) {u : UserInfo} (hu : u.signingUp ≠ "") :
    messageRaises i u = false := by
  have hsome : signupOperator u ≠ none := by
    unfold signupOperator
    split
    · rename_i hnil
      exact absurd hnil (tokenize_ne_nil ':' hu)
    · exact Option.some_ne_none _
    · exact Option.some_ne_none _
  unfold messageRaises
  rw [Option.isNone_eq_false_iff.mpr (Option.isSome_iff_ne_none.mpr hsome), Bool.and_false]

/-- A link that fits raises no exception. -/
theorem raises_of_signedUp (h : s.Marked blank) {i : ActionLink} (hi : SignedUp blank i) :
    raises svc i s = false := by
  unfold raises
  split
  · rename_i isSub hpopulation
    rcases hu : (s.onPopulation isSub fun p ↦ p.getUserById svc i.userId).1 with _ | u
    · rfl
    · by_cases haction : i.action = LinkActions.SUB_SIGNUP.toNat
      · -- the link of a sign-up is for a subscriber
        obtain rfl : isSub = true := by
          rw [haction] at hpopulation
          exact Option.some.inj hpopulation.symm
        have hid : u.id = i.userId := h.sub.keyed.id_of_getUserById svc hu
        have hfits : Fits blank u := h.sub.records u (Population.getUserById_mem svc hu)
        refine messageRaises_of_signingUp i fun hempty ↦ ?_
        exact hi haction (hid ▸ hfits.mp hempty)
      · simp [messageRaises, haction]
  · rfl

end Pass

/-! ## The invariant -/

/-- The storage and the pass fit the set, and the thread runs. -/
structure Sound (blank : Set String) (s : LinkManager) : Prop where
  storage : s.storage.Marked blank
  pass : ∀ i ∈ s.pass, SignedUp blank i
  running : s.running = true

variable {s s' : LinkManager}

theorem sound_atStart (h : AtStart s) : Sound ∅ s := by
  constructor
  case storage =>
    refine ⟨⟨?_, ?_⟩, ?_⟩
    · rintro u (hu | ⟨k, hu⟩)
      · rw [h.rows] at hu
        cases hu
      · rw [h.cache] at hu
        cases hu
    · intro k u hu
      rw [h.cache] at hu
      cases hu
    · intro i hi
      rw [h.links] at hi
      cases hi
  case pass =>
    intro i hi
    rw [h.pass] at hi
    cases hi
  case running => exact h.running

/-- A step keeps the invariant, for some set, unless a sign-up finds somebody who has not signed
up. -/
theorem sound_step {e : Event} (hs : Sound blank s) (h : Step svc s e s')
    (hfinds : ¬ FindsBlank svc s e) : ∃ after, Sound after s' := by
  cases h with
  | @request e he internal env r hfresh =>
    -- the identifier of the new subscriber goes to the one side or the other
    refine ⟨withNew blank env.moment.uuid (CreatesBlank svc r e), ?_, fun i hi ↦ ?_, hs.running⟩
    · exact marked_run he (marked_withNew hs.storage hfresh _) hfinds
    · exact signedUp_withNew (hs.pass i hi) (hfresh.pass i hi) _
  | beginPass =>
    refine ⟨blank, hs.storage, fun i hi ↦ ?_, hs.running⟩
    exact hs.storage.links i (List.mem_of_mem_filter (List.mem_of_mem_take hi))
  | process now i rest hpass hrunning =>
    have hi : SignedUp blank i := hs.pass i (hpass ▸ List.mem_cons_self)
    refine ⟨blank, marked_processLink hs.storage now i, fun j hj ↦ ?_, ?_⟩
    · exact hs.pass j (hpass ▸ List.mem_cons_of_mem i hj)
    · change (!raises svc i s.storage) = true
      rw [raises_of_signedUp hs.storage hi]
      rfl
  | elsewhere storage hlinks husers hcache =>
    refine ⟨blank, ⟨⟨?_, hs.storage.sub.keyed.evicts hcache⟩, ?_⟩, hs.pass, hs.running⟩
    · rintro u (hu | ⟨k, hu⟩)
      · exact hs.storage.sub.records u (.inl (husers ▸ hu))
      · exact hs.storage.sub.records u (.inr ⟨k, hcache k u hu⟩)
    · exact hlinks ▸ hs.storage.links

/-- In a run in which no sign-up finds such a subscriber, the invariant holds throughout. -/
theorem sound_of_reachable
    (h : ((system svc).restrict fun s e ↦ ¬ FindsBlank svc s e).Reachable s) :
    ∃ blank, Sound blank s := by
  refine h.invariant (I := fun s ↦ ∃ blank, Sound blank s) (fun s₀ h₀ ↦ ?_) ?_
  · exact ⟨∅, sound_atStart h₀⟩
  · rintro s e s' ⟨blank, hs⟩ ⟨hstep, hfinds⟩
    exact sound_step hs hstep hfinds

/-- Where the invariant holds, so does the law. -/
theorem Sound.survives (hs : Sound blank s) : SurvivalLaw svc s := by
  refine ⟨hs.running, fun i hi ↦ raises_of_signedUp hs.storage ?_⟩
  exact hi.elim (hs.storage.links i) (hs.pass i)

/-! ## Sign-ups that find somebody -/

/-- The link of somebody who has not signed up raises an exception. -/
theorem raises_newLink {s : Storage} {u : UserInfo} (hempty : u.signingUp = "")
    (hfound : (s.sub.getUserById svc u.id).1 = some u) (m : Moment) :
    raises svc (SignupHandler.newLink m u) s = true := by
  have hnone : signupOperator u = none := by
    unfold signupOperator
    rw [hempty]
    rfl
  change ((s.sub.getUserById svc u.id).1.map (messageRaises (SignupHandler.newLink m u))).getD
    false = true
  rw [hfound, Option.map_some, Option.getD_some, messageRaises, hnone]
  rfl

/-- A sign-up that is let through runs the handler, which asks for no credential. -/
theorem run_signup {s s₁ : Storage} {internal : Bool} {env : Surroundings} {r : Request}
    {c : Context} (hpost : r.method = .POST)
    (hacc : acceptRequest svc (signupHandler svc internal) env.moment env.rateExceeded r s =
      (.ok c, s₁)) :
    s₁ = s ∧ c.moment = env.moment ∧ (RecordRequest.rest .signup internal env r).run svc s =
      (answer (SignupHandler.doPost svc c) s).2 := by
  obtain ⟨-, -, hauth, hrequest, -, hmoment, -⟩ := (acceptRequest_eq_ok_iff svc _ _ _ _).mp hacc
  obtain rfl : s = s₁ := hauth
  have hdispatch : dispatch (signupHandler svc internal) c = SignupHandler.doPost svc c := by
    unfold dispatch
    rw [hrequest, hpost]
    rfl
  refine ⟨rfl, hmoment, ?_⟩
  change (handleRequest svc (signupHandler svc internal) env.moment env.rateExceeded r s).2 = _
  rw [handleRequest_of_ok svc _ _ _ _ hacc, hdispatch]

/-- A sign-up that finds such a subscriber leaves a link that raises an exception. -/
theorem not_survives_of_findsBlank {e : Event} (hs : Sound blank s) (h : Step svc s e s')
    (hfinds : FindsBlank svc s e) : ¬ SurvivalLaw svc s' := by
  cases h with
  | @request e he internal env r hfresh =>
    rcases he with rfl | rfl | rfl
    · exact hfinds.elim
    · exact hfinds.elim
    · obtain ⟨hpost, c, s₁, hacc, hblank⟩ := hfinds
      obtain ⟨rfl, hmoment, hrun⟩ := run_signup hpost hacc
      have hfree : s.storage.getActionLink c.moment.uuid' = none := hmoment ▸ hfresh.link
      obtain ⟨u, hempty, hmem, hfound⟩ :=
        answer_of_wp (P := fun _ s' ↦ SignupHandler.LeavesBlank svc c.moment s')
          (SignupHandler.leavesBlank_of_findsBlank hs.storage.sub.keyed hfree hblank)
      intro hlaw
      have hquiet := hlaw.quiet (SignupHandler.newLink c.moment u) (.inl (hrun ▸ hmem))
      change raises svc _ ((RecordRequest.rest .signup internal env r).run svc s.storage) = _
        at hquiet
      rw [hrun, raises_newLink hempty hfound] at hquiet
      cases hquiet
  | beginPass => exact hfinds.elim
  | process => exact hfinds.elim
  | elsewhere => exact hfinds.elim

end SignupLinks

open SignupLinks

/-- In every run in which no sign-up finds a subscriber who waits for a mail and has not signed
up, no pass raises an exception, and this stays so exactly as long as no sign-up does. -/
theorem SignupLinks.survives_of_reachable {svc : Service} {s : LinkManager}
    (h : ((system svc).restrict fun s e ↦ ¬ FindsBlank svc s e).Reachable s) :
    SurvivalLaw svc s ∧
      ∀ e s', (system svc).step s e s' → (SurvivalLaw svc s' ↔ ¬ FindsBlank svc s e) := by
  obtain ⟨blank, hs⟩ := sound_of_reachable h
  refine ⟨hs.survives, fun e s' hstep ↦ ⟨fun hlaw hfinds ↦ ?_, fun hfinds ↦ ?_⟩⟩
  · exact not_survives_of_findsBlank hs hstep hfinds hlaw
  · obtain ⟨after, hs'⟩ := sound_step hs hstep hfinds
    exact hs'.survives

/-! ## A subscriber who was created before

An administrator creates a subscriber and has the address verified; the subscriber signs up before
the mail is answered. -/

namespace SignupLinks

/-- A sign-up. -/
def sampleSignup : Request where
  method := .POST
  parameters := [("email", "joe@example.com"), ("signupUUID", "a1"), ("owner", "acme"),
    ("operatorName", "acme")]

/-- The creation, by a service that knows the shared key. -/
def sampleCreation : Request where
  method := .POST
  internalName := some "owprov"
  apiKey := some "my-hash"
  bindings := [("id", "0")]
  parameters := [("email_verification", "true")]
  body := .object [("email", .str "joe@example.com"), ("userRole", .str "subscriber")]

/-- The storage after a sign-up alone. -/
def sampleSignedUp : LinkManager where
  storage := (RecordRequest.rest .signup false (.sample 100 "a") sampleSignup).run .sample {}

/-- The storage after the creation. -/
def sampleCreated : LinkManager where
  storage := (RecordRequest.rest .subuser true (.sample 100 "a") sampleCreation).run .sample {}

/-- The storage after the creation and a sign-up. -/
def sampleBoth : LinkManager where
  storage := (RecordRequest.rest .signup false (.sample 200 "b") sampleSignup).run .sample
    sampleCreated.storage

/-- The link of a sign-up. -/
def sampleSignupLink (now : ℕ) (suffix : String) : ActionLink :=
  SignupHandler.newLink (.sample now suffix) { id := "uuid-a" }

/-- The link that verifies the address. -/
def sampleVerification : ActionLink where
  id := "link-a"
  action := LinkActions.SUB_VERIFY_EMAIL.toNat
  userId := "uuid-a"
  created := 100
  expires := 86500
  userAction := false

theorem atStart_sample : AtStart {} := ⟨rfl, rfl, rfl, rfl, rfl⟩

theorem fresh_sample : Fresh {} (.sample 100 "a") :=
  ⟨rfl, rfl, rfl, List.forall_mem_nil _, List.forall_mem_nil _⟩

/-- The sign-up of somebody who is not known finds nobody. -/
theorem not_findsBlank_sample :
    ¬ FindsBlank .sample {} (.request .signup false (.sample 100 "a") sampleSignup) := by
  rintro ⟨-, c, s₁, hacc, hblank⟩
  obtain ⟨rfl, -, -⟩ := run_signup rfl hacc
  obtain ⟨u, hfound, -⟩ := hblank.found
  cases hfound

/-- After the sign-up, a pass sends the link. -/
def sampleSent : LinkManager :=
  sampleSignedUp.beginPass.process .sample 300 (sampleSignupLink 100 "a") []

theorem reachable_sampleSent :
    ((system .sample).restrict fun s e ↦ ¬ FindsBlank .sample s e).Reachable sampleSent := by
  have hsigned : ((system .sample).restrict fun s e ↦ ¬ FindsBlank .sample s e).Reachable
      sampleSignedUp :=
    System.Reachable.step (l := .request .signup false (.sample 100 "a") sampleSignup)
      (.init atStart_sample)
      ⟨.request (.inr (.inr rfl)) false (.sample 100 "a") sampleSignup fresh_sample,
        not_findsBlank_sample⟩
  have hbegun : ((system .sample).restrict fun s e ↦ ¬ FindsBlank .sample s e).Reachable
      sampleSignedUp.beginPass :=
    hsigned.step (l := .beginPass) ⟨.beginPass rfl rfl, id⟩
  exact hbegun.step (l := .process 300 (sampleSignupLink 100 "a"))
    ⟨.process 300 (sampleSignupLink 100 "a") [] rfl rfl, id⟩

/-- The statement for that run. -/
theorem survives_of_reachable_sample :
    sampleSent.storage.pendingIds = [] ∧ SurvivalLaw .sample sampleSent ∧
      ∀ e s', (system .sample).step sampleSent e s' →
        (SurvivalLaw .sample s' ↔ ¬ FindsBlank .sample sampleSent e) :=
  ⟨by decide, survives_of_reachable reachable_sampleSent⟩

/-- After the creation, the sign-up ends the thread. -/
theorem signup_of_created_subscriber_ends_the_thread :
    ¬ ∀ (svc : Service) (s : LinkManager), (system svc).Reachable s → SurvivalLaw svc s := by
  intro hall
  have hcreated : (system .sample).Reachable sampleCreated :=
    System.Reachable.step (.init atStart_sample)
      (.request (.inr (.inl rfl)) true (.sample 100 "a") sampleCreation fresh_sample)
  have hboth : (system .sample).Reachable sampleBoth :=
    hcreated.step (.request (.inr (.inr rfl)) false (.sample 200 "b") sampleSignup
      ⟨by decide, by decide, by decide, by decide, by decide⟩)
  have hverified : (system .sample).Reachable
      (sampleBoth.beginPass.process .sample 300 sampleVerification [sampleSignupLink 200 "b"]) :=
    (hboth.step (.beginPass rfl rfl)).step (.process 300 sampleVerification _ rfl rfl)
  have hended := hverified.step (.process 300 (sampleSignupLink 200 "b") [] rfl rfl)
  have hrunning := (hall .sample _ hended).running
  exact absurd hrunning (by decide)

end SignupLinks

end OwSec
