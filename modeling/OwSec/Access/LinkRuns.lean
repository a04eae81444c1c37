import OwSec.Kit.Run
import OwSec.RestApi.ActionLinkEffects

/-!
# The life of a link

Runs of requests to the end point of action links, interleaved with the turns of the manager that
sends them, with links that are created and cleaned, and with whatever else the service does to
its records.  The history keeps each request with the storage it found, and the identifiers of
all links that were ever completed or cancelled.

`LinkLaw` is what a link should be good for: one change of a record, before it expires, and none
once it was completed or cancelled.  The columns `completed` and `canceled` say exactly which
links are over, but no request looks at them, so the law holds exactly in the runs in which no
request is let past the checks with such a link.
-/

namespace OwSec

open SecurityObjects Kit RestApi

/-- The link was completed or cancelled, as its columns say. -/
def SecurityObjects.ActionLink.Closed (link : ActionLink) : Prop :=
  link.completed ≠ 0 ∨ link.canceled ≠ 0

instance (link : ActionLink) : Decidable link.Closed :=
  inferInstanceAs (Decidable (link.completed ≠ 0 ∨ link.canceled ≠ 0))

/-! ## Requests and runs -/

/-- A request of a run. -/
structure LinkUse where
  x : LinkContext
  req : LinkRequest
  /-- The storage that the request found. -/
  before : Storage
  /-- The link that the request names had been completed or cancelled. -/
  closed : Bool

namespace LinkUse

/-- The storage that the request left. -/
def after (u : LinkUse) : Storage := (u.x.handle u.before u.req).2

/-- The request changed a record of a user or a subscriber. -/
def Changed (u : LinkUse) : Prop :=
  ∃ isSub k, (u.after.population isSub).users.find? k ≠ (u.before.population isSub).users.find? k

/-- The request passes all checks with a link whose columns say that it is over, and the record
that it is to write is not the one that is there. -/
def Replays (u : LinkUse) : Prop :=
  ∃ link userAction r r', Updates u.x u.before u.req link userAction r r' ∧ link.Closed ∧
    (u.before.population (!userAction)).users.find? link.userId ≠ some r'

end LinkUse

/-- The identifiers of the links that are over. -/
def closedIn (s : Storage) : List String :=
  (s.actionLinks.rows.filter fun link ↦ link.Closed).map ActionLink.id

/-- The service as far as links are concerned, with its history. -/
structure Links where
  storage : Storage := {}
  clock : ℕ := 0
  /-- The links that the pass of the manager has read and not come to. -/
  pass : List ActionLink := []
  /-- The identifiers of the links that are over, or were when they were last stored. -/
  closed : List String := []
  /-- The requests, latest first. -/
  uses : List LinkUse := []

/-- What happens in one step. -/
inductive LinkEvent
  | request (x : LinkContext) (req : LinkRequest)
  | beginPass
  | process (svc : Service) (now : ℕ) (i : ActionLink)
  | create (now : ℕ) (a : ActionLink)
  | clean (now : ℕ)
  | elsewhere

namespace Links

/-- The storage after a step. -/
def advance (s : Links) (now : ℕ) (storage : Storage) : Links :=
  { s with storage, clock := now, closed := closedIn storage ++ s.closed }

/-- A request to the end point. -/
def request (s : Links) (x : LinkContext) (req : LinkRequest) : Links :=
  { s.advance x.moment.now (x.handle s.storage req).2 with
    uses := ⟨x, req, s.storage, decide (req.linkId ∈ s.closed)⟩ :: s.uses }

/-- One step.  A pass of the manager goes over the links that it read at its beginning, whatever
became of them since, and may be given up when the service stops. -/
inductive Step : Links → LinkEvent → Links → Prop
  | request {s : Links} (x : LinkContext) (req : LinkRequest)
    (hclock : 0 < x.moment.now ∧ s.clock ≤ x.moment.now) :
    Step s (.request x req) (s.request x req)
  | beginPass {s : Links} : Step s .beginPass { s with pass := s.storage.getActions }
  | process {s : Links} (svc : Service) (now : ℕ) (i : ActionLink) (rest : List ActionLink)
    (hclock : 0 < now ∧ s.clock ≤ now) (hpass : s.pass = i :: rest) :
    Step s (.process svc now i)
      { s.advance now (processLink svc now i s.storage) with pass := rest }
  | create {s : Links} (now : ℕ) (a : ActionLink) (hclock : s.clock ≤ now)
    (hopen : ¬ a.Closed) (hfresh : a.id ∉ s.closed) :
    Step s (.create now a) (s.advance now (s.storage.createAction a))
  | clean {s : Links} (now : ℕ) (hclock : s.clock ≤ now) :
    Step s (.clean now) (s.advance now (s.storage.cleanOldActionLinks now))
  | elsewhere {s : Links} (storage : Storage) (now : ℕ) (hclock : s.clock ≤ now)
    (hlinks : storage.actionLinks = s.storage.actionLinks)
    (hcoherent : ∀ isSub, (storage.population isSub).Coherent) :
    Step s .elsewhere (s.advance now storage)

/-- No request has been made and no link is over. -/
def AtStart (s : Links) : Prop :=
  (∀ isSub, (s.storage.population isSub).Coherent) ∧
    (∀ link ∈ s.storage.actionLinks.rows, ¬ link.Closed) ∧ s.closed = [] ∧ s.uses = []

/-- The end point and the manager as a transition system. -/
def system : System Links LinkEvent where
  init := AtStart
  step := Step

/-- What links should be good for. -/
structure LinkLaw (s : Links) : Prop where
  /-- A link leads to one change at most. -/
  once : s.uses.Pairwise fun u v ↦ u.Changed → v.Changed → u.req.linkId ≠ v.req.linkId
  /-- It leads to none once it was completed or cancelled. -/
  unclosed : ∀ u ∈ s.uses, u.Changed → u.closed = false
  /-- It leads to none after it has expired. -/
  intime : ∀ u ∈ s.uses, u.Changed → ∃ link,
    u.before.getActionLink u.req.linkId = some link ∧ u.x.moment.now ≤ link.expires

/-! ## What steps do to links -/

/-- A link that is still stored was stored before, and if it was over it still is. -/
def StaysClosed (s s' : Storage) : Prop :=
  ∀ k link', s'.getActionLink k = some link' →
    ∃ link, s.getActionLink k = some link ∧ (link.Closed → link'.Closed)

theorem StaysClosed.of_eq {s s' : Storage} (h : s'.actionLinks = s.actionLinks) :
    StaysClosed s s' := by
  intro k link hlink
  unfold Storage.getActionLink at hlink ⊢
  rw [h] at hlink
  exact ⟨link, hlink, id⟩

theorem StaysClosed.trans {s s' s'' : Storage} (h : StaysClosed s s') (h' : StaysClosed s' s'') :
    StaysClosed s s'' := by
  intro k link'' hlink''
  obtain ⟨link', hlink', hclosed'⟩ := h' k link'' hlink''
  obtain ⟨link, hlink, hclosed⟩ := h k link' hlink'
  exact ⟨link, hlink, hclosed' ∘ hclosed⟩

theorem staysClosed_modifyAction (s : Storage) (id : String) {f : ActionLink → ActionLink}
    (hid : ∀ a, (f a).id = a.id) (hf : ∀ a, a.Closed → (f a).Closed) :
    StaysClosed s (s.modifyAction id f) := by
  intro k link' hlink'
  rw [Storage.getActionLink_modifyAction hid] at hlink'
  by_cases hk : k = id
  · subst hk
    rw [if_pos rfl] at hlink'
    obtain ⟨link, hlink, rfl⟩ := Option.map_eq_some_iff.mp hlink'
    exact ⟨link, hlink, hf link⟩
  · rw [if_neg hk] at hlink'
    exact ⟨link', hlink', fun h ↦ h⟩

theorem staysClosed_cancelAction {now : ℕ} (hnow : 0 < now) (s : Storage) (id : String) :
    StaysClosed s (s.cancelAction now id) :=
  staysClosed_modifyAction s id (fun _ ↦ rfl) fun _ _ ↦ .inr hnow.ne'

theorem staysClosed_sentAction (now : ℕ) (s : Storage) (id : String) :
    StaysClosed s (s.sentAction now id) :=
  staysClosed_modifyAction s id (fun _ ↦ rfl) fun _ h ↦ h

theorem staysClosed_cleanOldActionLinks (now : ℕ) (s : Storage) :
    StaysClosed s (s.cleanOldActionLinks now) := by
  intro k link' hlink'
  unfold Storage.getActionLink Storage.cleanOldActionLinks at hlink'
  rw [Table.find?_deleteWhere] at hlink'
  exact ⟨link', (Option.filter_eq_some_iff.mp hlink').1, id⟩

/-- A request leaves the links that are over as they are. -/
theorem staysClosed_handle {x : LinkContext} (hnow : 0 < x.moment.now) (s : Storage)
    (req : LinkRequest) : StaysClosed s (x.handle s req).2 := by
  rcases x.handle_effect (s := s) req with ⟨link, userAction, u, u', hup, heq⟩ | h
  · rw [heq]
    intro k link' hlink'
    rw [getActionLink_updatedStorage] at hlink'
    by_cases hk : k = link.id
    · subst hk
      rw [if_pos rfl] at hlink'
      obtain ⟨stored, hstored, rfl⟩ := Option.map_eq_some_iff.mp hlink'
      exact ⟨stored, hstored, fun _ ↦ .inl hnow.ne'⟩
    · rw [if_neg hk] at hlink'
      exact ⟨link', hlink', fun h ↦ h⟩
  · generalize (x.handle s req).2 = s' at h ⊢
    cases h with
    | looked h => exact .of_eq h.links
    | cancelled => exact staysClosed_cancelAction hnow s _

/-- A turn of the manager leaves the links that are over as they are. -/
theorem staysClosed_processLink (svc : Service) {now : ℕ} (hnow : 0 < now) (i : ActionLink)
    (s : Storage) : StaysClosed s (processLink svc now i s) := by
  obtain ⟨s', hlooked, heq | heq | heq⟩ := processLink_cases svc now i s
  · rw [heq]
    exact (StaysClosed.of_eq hlooked.links).trans (staysClosed_cancelAction hnow s' i.id)
  · rw [heq]
    exact (StaysClosed.of_eq hlooked.links).trans (staysClosed_sentAction now s' i.id)
  · rw [heq]
    exact .of_eq hlooked.links

/-! ## When a request changes a record -/

/-- A request changes a record exactly when it is let past the checks with a record that is not
yet there. -/
theorem changed_iff {u : LinkUse} (hs : ∀ isSub, (u.before.population isSub).Coherent) :
    u.Changed ↔ ∃ link userAction r r', Updates u.x u.before u.req link userAction r r' ∧
      (u.before.population (!userAction)).users.find? link.userId ≠ some r' := by
  unfold LinkUse.Changed LinkUse.after
  constructor
  · rintro ⟨isSub, k, hne⟩
    rcases u.x.find?_handle_cases hs u.req isSub k with
      hsame | ⟨link, userAction, r, r', hup, rfl, rfl, hafter⟩
    · exact absurd hsame hne
    · exact ⟨link, userAction, r, r', hup, fun hsame ↦ hne (hafter.trans hsame.symm)⟩
  · rintro ⟨link, userAction, r, r', hup, hne⟩
    exact ⟨!userAction, link.userId, fun hsame ↦ hne (hsame.symm.trans (hup.find?_handle hs))⟩

/-! ## The invariant -/

/-- What is known about a request of the history. -/
structure Recorded (s : Links) (u : LinkUse) : Prop where
  coherent : ∀ isSub, (u.before.population isSub).Coherent
  closed : ∀ link, u.before.getActionLink u.req.linkId = some link →
    (u.closed = true ↔ link.Closed)
  spent : u.Changed → u.req.linkId ∈ s.closed

/-- The columns of the links and the history fit together. -/
structure Sound (s : Links) : Prop where
  coherent : ∀ isSub, (s.storage.population isSub).Coherent
  closed : ∀ k link, s.storage.getActionLink k = some link → (k ∈ s.closed ↔ link.Closed)
  uses : ∀ u ∈ s.uses, Recorded s u
  repeated : s.uses.Pairwise fun u v ↦ v.Changed → u.req.linkId = v.req.linkId → u.closed = true

section Steps

variable {s s' : Links}

theorem mem_closedIn {s : Storage} {k : String} {link : ActionLink}
    (hlink : s.getActionLink k = some link) : k ∈ closedIn s ↔ link.Closed := by
  unfold closedIn
  constructor
  · intro hk
    obtain ⟨link', hmem, rfl⟩ := List.mem_map.mp hk
    obtain ⟨hrow, hclosed⟩ := List.mem_filter.mp hmem
    obtain rfl := Option.some.inj (hlink.symm.trans (s.actionLinks.mem_rows_iff.mp hrow))
    exact of_decide_eq_true hclosed
  · intro hclosed
    obtain ⟨hrow, hid⟩ := s.actionLinks.find?_eq_some_iff.mp hlink
    exact List.mem_map.mpr ⟨link, List.mem_filter.mpr ⟨hrow, decide_eq_true hclosed⟩, hid⟩

/-- What is known about a request stays known. -/
theorem Recorded.mono {u : LinkUse} (h : Recorded s u) (hsub : s.closed ⊆ s'.closed) :
    Recorded s' u :=
  ⟨h.coherent, h.closed, fun hchanged ↦ hsub (h.spent hchanged)⟩

/-- A step that adds no request keeps the invariant if links that are over stay so. -/
theorem Sound.advance (hs : Sound s) (now : ℕ) {storage : Storage}
    (hcoherent : ∀ isSub, (storage.population isSub).Coherent)
    (hstays : ∀ k link, storage.getActionLink k = some link → k ∈ s.closed → link.Closed) :
    Sound (s.advance now storage) where
  coherent := hcoherent
  closed k link hlink := by
    refine List.mem_append.trans ⟨?_, fun hclosed ↦ .inl ((mem_closedIn hlink).mpr hclosed)⟩
    rintro (hk | hk)
    · exact (mem_closedIn hlink).mp hk
    · exact hstays k link hlink hk
  uses u hu := (hs.uses u hu).mono (List.subset_append_right _ _)
  repeated := hs.repeated

theorem Sound.stays (hs : Sound s) {storage : Storage} (h : StaysClosed s.storage storage) :
    ∀ k link, storage.getActionLink k = some link → k ∈ s.closed → link.Closed := by
  intro k link' hlink' hk
  obtain ⟨link, hlink, hstays⟩ := h k link' hlink'
  exact hstays ((hs.closed k link hlink).mp hk)

/-- A change closes the link. -/
theorem closed_of_changed {u : LinkUse} (hnow : 0 < u.x.moment.now)
    (hs : ∀ isSub, (u.before.population isSub).Coherent) (hchanged : u.Changed) :
    u.req.linkId ∈ closedIn u.after := by
  obtain ⟨link, userAction, r, r', hup, -⟩ := (changed_iff hs).mp hchanged
  have hid : link.id = u.req.linkId := Table.key_of_find? hup.named.1
  have hlink : u.before.getActionLink link.id = some link := by
    rw [hid]
    exact hup.named.1
  have hafter : u.after.getActionLink u.req.linkId =
      some { link with completed := u.x.moment.now } := by
    unfold LinkUse.after
    rw [LinkContext.handle_of_updates hup, getActionLink_updatedStorage, if_pos hid.symm, hlink]
    rfl
  exact (mem_closedIn hafter).mpr (.inl hnow.ne')

theorem Sound.request (hs : Sound s) {x : LinkContext} (hnow : 0 < x.moment.now)
    (req : LinkRequest) : Sound (s.request x req) := by
  have hadvanced := hs.advance x.moment.now (x.coherent_handle hs.coherent req)
    (hs.stays (staysClosed_handle hnow s.storage req))
  constructor
  case coherent => exact hadvanced.coherent
  case closed => exact hadvanced.closed
  case uses =>
    intro u hu
    rcases List.mem_cons.mp hu with rfl | hu
    · constructor
      case coherent => exact hs.coherent
      case closed =>
        intro link hlink
        exact decide_eq_true_iff.trans (hs.closed _ link hlink)
      case spent =>
        intro hchanged
        exact List.mem_append_left _ (closed_of_changed hnow hs.coherent hchanged)
    · exact (hs.uses u hu).mono (List.subset_append_right _ _)
  case repeated =>
    refine List.pairwise_cons.mpr ⟨fun v hv hchanged hsame ↦ ?_, hs.repeated⟩
    have hspent := (hs.uses v hv).spent hchanged
    rw [← hsame] at hspent
    exact decide_eq_true hspent

/-- No link with the identifier of a new one was over. -/
theorem Sound.create (hs : Sound s) (now : ℕ) {a : ActionLink} (hfresh : a.id ∉ s.closed) :
    Sound (s.advance now (s.storage.createAction a)) := by
  refine hs.advance now (fun isSub ↦ ?_) ?_
  · rw [Storage.population_createAction]
    exact hs.coherent isSub
  · unfold Storage.createAction
    rcases hins : s.storage.actionLinks.insert a with _ | actionLinks
    · exact hs.stays (.of_eq rfl)
    · intro k link hlink hk
      change actionLinks.find? k = some link at hlink
      rw [Table.find?_insert hins] at hlink
      by_cases hka : k = a.id
      · subst hka
        exact absurd hk hfresh
      · rw [if_neg hka] at hlink
        exact (hs.closed k link hlink).mp hk

theorem Sound.processLink (hs : Sound s) (svc : Service) {now : ℕ} (hnow : 0 < now)
    (i : ActionLink) : Sound (s.advance now (processLink svc now i s.storage)) := by
  refine hs.advance now (fun isSub ↦ ?_) (hs.stays (staysClosed_processLink svc hnow i s.storage))
  obtain ⟨s', hlooked, heq | heq | heq⟩ := processLink_cases svc now i s.storage
  · rw [heq]
    unfold Storage.cancelAction
    rw [Storage.population_modifyAction]
    exact hlooked.coherent isSub (hs.coherent isSub)
  · rw [heq]
    unfold Storage.sentAction
    rw [Storage.population_modifyAction]
    exact hlooked.coherent isSub (hs.coherent isSub)
  · rw [heq]
    exact hlooked.coherent isSub (hs.coherent isSub)

theorem Sound.cleanOldActionLinks (hs : Sound s) (now : ℕ) :
    Sound (s.advance now (s.storage.cleanOldActionLinks now)) := by
  refine hs.advance now (fun isSub ↦ ?_) (hs.stays (staysClosed_cleanOldActionLinks now s.storage))
  cases isSub
  · exact hs.coherent false
  · exact hs.coherent true

theorem Sound.atStart (h : AtStart s) : Sound s := by
  obtain ⟨hcoherent, hopen, hclosed, huses⟩ := h
  constructor
  case coherent => exact hcoherent
  case closed =>
    intro k link hlink
    have hnot := hopen link (s.storage.actionLinks.find?_eq_some_iff.mp hlink).1
    simp [hclosed, hnot]
  case uses => simp [huses]
  case repeated => simp [huses]

/-- One step keeps the invariant. -/
theorem Sound.step {e : LinkEvent} (hs : Sound s) (h : Step s e s') : Sound s' := by
  cases h with
  | request x req hclock => exact hs.request hclock.1 req
  | beginPass =>
    exact ⟨hs.coherent, hs.closed, fun u hu ↦ (hs.uses u hu).mono fun _ h ↦ h, hs.repeated⟩
  | process svc now i rest hclock =>
    have hp := hs.processLink svc hclock.1 i
    exact ⟨hp.coherent, hp.closed, fun u hu ↦ (hp.uses u hu).mono fun _ h ↦ h, hp.repeated⟩
  | create now a _ _ hfresh => exact hs.create now hfresh
  | clean now => exact hs.cleanOldActionLinks now
  | elsewhere storage now _ hlinks hcoherent =>
    exact hs.advance now hcoherent (hs.stays (.of_eq hlinks))

/-- Every run keeps the invariant. -/
theorem Sound.reachable (h : system.Reachable s) : Sound s :=
  h.invariant (fun _ h₀ ↦ .atStart h₀) (fun _ _ _ hs hstep ↦ hs.step hstep)

end Steps

/-- In every run, links are good for one change in time exactly when no request is let past the
checks with a link that was completed or cancelled, to write a record that is not there. -/
theorem linkLaw_iff {s : Links} (h : system.Reachable s) :
    LinkLaw s ↔ ∀ u ∈ s.uses, ¬ u.Replays := by
  have hs := Sound.reachable h
  constructor
  · rintro hlaw u hu ⟨link, userAction, r, r', hup, hclosed, hne⟩
    have hr := hs.uses u hu
    have hchanged : u.Changed := (changed_iff hr.coherent).mpr ⟨link, userAction, r, r', hup, hne⟩
    have hover : u.closed = true := (hr.closed link hup.named.1).mpr hclosed
    rw [hlaw.unclosed u hu hchanged] at hover
    cases hover
  · intro hnot
    have hunclosed (u : LinkUse) (hu : u ∈ s.uses) (hchanged : u.Changed) : u.closed = false := by
      have hr := hs.uses u hu
      obtain ⟨link, userAction, r, r', hup, hne⟩ := (changed_iff hr.coherent).mp hchanged
      refine Bool.eq_false_iff.mpr fun hover ↦ hnot u hu ?_
      exact ⟨link, userAction, r, r', hup, (hr.closed link hup.named.1).mp hover, hne⟩
    constructor
    case once =>
      refine hs.repeated.imp_of_mem fun {u v} hu _ hrep hchanged hchanged' hsame ↦ ?_
      have hover := hrep hchanged' hsame
      rw [hunclosed u hu hchanged] at hover
      cases hover
    case unclosed => exact hunclosed
    case intime =>
      intro u hu hchanged
      obtain ⟨link, _, _, _, hup, -⟩ := (changed_iff (hs.uses u hu).coherent).mp hchanged
      exact ⟨link, hup.named⟩

/-! ## A link that is used twice

A user who has forgotten the password gets a link, and the form is posted twice. -/

/-- A user and a link to choose a new password. -/
def sampleForgotten : Links where
  storage :=
    { user := { users := ⟨[{ id := "uuid-a", email := "jo@example.com" }], List.nodup_singleton _⟩ }
      actionLinks := ⟨[{
        id := "link-a"
        action := LinkActions.FORGOT_PASSWORD.toNat
        userId := "uuid-a"
        expires := 1700086400 }], List.nodup_singleton _⟩ }

/-- The surroundings of a request. -/
def sampleContext (now : ℕ) (suffix : String) : LinkContext where
  svc := .sample
  moment := .sample now suffix
  passwordValidation := ".{8,}"
  uiURI := "https://ui.example.com"
  globalVars := []

/-- The form with a new password. -/
def sampleForm (password : String) : LinkRequest :=
  .post { method := .POST, parameters := [("action", "password_reset")] }
    [("id", "link-a"), ("password1", password), ("password2", password)]

/-- The form is posted. -/
def sampleReset : Links :=
  sampleForgotten.request (sampleContext 1700000000 "m") (sampleForm "open-sesame")

/-- The form is posted again, an hour later, with another password. -/
def sampleReplay : Links :=
  sampleReset.request (sampleContext 1700003600 "n") (sampleForm "wide-open")

theorem atStart_sampleForgotten : AtStart sampleForgotten := by
  refine ⟨fun isSub ↦ ?_, by decide, rfl, rfl⟩
  cases isSub <;> exact .of_empty rfl

theorem reachable_sampleReset : system.Reachable sampleReset :=
  (System.Reachable.init atStart_sampleForgotten).step (.request _ _ (by decide))

theorem reachable_sampleReplay : system.Reachable sampleReplay :=
  reachable_sampleReset.step (.request _ _ (by decide))

/-- The statement after the first form, which sets the password. -/
theorem linkLaw_iff_sample :
    (LinkLaw sampleReset ↔ ∀ u ∈ sampleReset.uses, ¬ u.Replays) ∧
      sampleReset.storage.user.users.rows.map UserInfo.currentPassword =
        ["salt-m|<salt-mopen-sesamejo@example.com>"] :=
  ⟨linkLaw_iff reachable_sampleReset, by decide⟩

/-- The second form sets the password again, with a link that has been completed. -/
theorem completed_link_sets_password :
    ∃ s, system.Reachable s ∧ ¬ LinkLaw s ∧
      s.storage.user.users.rows.map UserInfo.currentPassword =
        ["salt-n|<salt-nwide-openjo@example.com>"] ∧
      ∃ u ∈ s.uses, u.before.actionLinks.rows.map ActionLink.completed = [1700000000] := by
  refine ⟨sampleReplay, reachable_sampleReplay, fun hlaw ↦ ?_, by decide, _, List.mem_cons_self,
    by decide⟩
  have hchanged : LinkUse.Changed (sampleReplay.uses.head (by decide)) :=
    ⟨false, "uuid-a", by decide⟩
  have hunclosed := hlaw.unclosed _ List.mem_cons_self hchanged
  exact absurd hunclosed (by decide)

end Links

end OwSec
