import OwSec.Kit.Backlog
import OwSec.Kit.Run
import OwSec.RestApi.ActionLinkEffects

/-!
# Whether the links that wait are sent

The thread of `ActionLinkManager` reads up to two hundred links whose column `sent` is zero
and goes over them: it looks for the user of a link, sends the message and sets `sent`, or it
cancels the link when there is no such user or the invitation is a day old.  `CancelAction`
sets another column, and the query of the next pass finds the link again.  A turn that raises an
exception ends the thread.

The theorem is about every run of the manager among requests for links, new links and
clean-ups.  Passes go on and settle what they read, no link is mailed twice, none comes back after
it was cancelled and a new link waits for no more than its place in the line, exactly when no
turn of a pass has raised an exception or cancelled a link that still waits.
-/

namespace OwSec

open SecurityObjects Kit RestApi

/-! ## The links that wait -/

namespace Storage

variable {s s' : Storage}

/-- The links that the query of a pass matches. -/
def pendingIds (s : Storage) : List String :=
  (s.actionLinks.rows.filter (·.sent == 0)).map (·.id)

/-- The pass reads the first of them. -/
theorem map_id_getActions (s : Storage) (max : ℕ) :
    (s.getActions max).map (·.id) = s.pendingIds.take max := by
  rw [getActions, pendingIds, List.map_take]

/-- The line is in the table of links alone. -/
theorem pendingIds_congr (h : s'.actionLinks = s.actionLinks) : s'.pendingIds = s.pendingIds := by
  rw [pendingIds, h, pendingIds]

/-- No link waits twice. -/
theorem nodup_pendingIds (s : Storage) : s.pendingIds.Nodup :=
  s.actionLinks.nodup.sublist (List.filter_sublist.map _)

/-- Setting columns of a link changes its row, where it stands. -/
theorem rows_modifyAction {f : ActionLink → ActionLink} (hf : ∀ a, (f a).id = a.id)
    (s : Storage) (id : String) :
    (s.modifyAction id f).actionLinks.rows =
      s.actionLinks.rows.map fun a ↦ if a.id = id then f a else a := by
  unfold modifyAction
  rcases hl : s.getActionLink id with _ | a
  · have hnot := (Table.find?_eq_none_iff s.actionLinks).mp hl
    calc s.actionLinks.rows
        = s.actionLinks.rows.map (fun a ↦ a) := (List.map_id' _).symm
      _ = _ := List.map_congr_left fun a ha ↦ (if_neg (hnot a ha)).symm
  · obtain ⟨ha, hid⟩ := (Table.find?_eq_some_iff s.actionLinks).mp hl
    obtain ⟨actionLinks, hup⟩ := s.actionLinks.update_isSome ((hf a).trans hid)
    simp only [hup]
    rw [Table.rows_update hup]
    refine List.map_congr_left fun a' ha' ↦ ?_
    by_cases hid' : a'.id = id
    · have hsame : a' = a :=
        List.inj_on_of_nodup_map s.actionLinks.nodup ha' ha (hid'.trans hid.symm)
      rw [hsame]
    · rw [if_neg hid', if_neg hid']

/-- Setting a column other than `sent` keeps a link waiting or not. -/
theorem pendingIds_modifyAction {f : ActionLink → ActionLink} (hf : ∀ a, (f a).id = a.id)
    (hsent : ∀ a, (f a).sent = a.sent) (s : Storage) (id : String) :
    (s.modifyAction id f).pendingIds = s.pendingIds := by
  rw [pendingIds, rows_modifyAction hf, List.filter_map, List.map_map, pendingIds]
  have hpending : ((·.sent == 0) ∘ fun a : ActionLink ↦ if a.id = id then f a else a) =
      (·.sent == 0) := by
    funext a
    by_cases ha : a.id = id <;> simp [ha, hsent]
  have hids : ((·.id) ∘ fun a : ActionLink ↦ if a.id = id then f a else a) = (·.id) := by
    funext a
    by_cases ha : a.id = id <;> simp [ha, hf]
  rw [hpending, hids]

theorem pendingIds_completeAction (now : ℕ) (s : Storage) (id : String) :
    (s.completeAction now id).pendingIds = s.pendingIds :=
  pendingIds_modifyAction (f := ({ · with completed := now })) (fun _ ↦ rfl) (fun _ ↦ rfl) s id

theorem pendingIds_cancelAction (now : ℕ) (s : Storage) (id : String) :
    (s.cancelAction now id).pendingIds = s.pendingIds :=
  pendingIds_modifyAction (f := ({ · with canceled := now })) (fun _ ↦ rfl) (fun _ ↦ rfl) s id

/-- A link that was sent waits no more. -/
theorem pendingIds_sentAction {now : ℕ} (hnow : 0 < now) (s : Storage) (id : String) :
    (s.sentAction now id).pendingIds = s.pendingIds.filter (· ≠ id) := by
  rw [pendingIds, sentAction, rows_modifyAction (f := ({ · with sent := now })) (fun _ ↦ rfl),
    List.filter_map, List.map_map, pendingIds, List.filter_map, List.filter_filter]
  have hpending : ((·.sent == 0) ∘
      fun a : ActionLink ↦ if a.id = id then { a with sent := now } else a) =
      fun a ↦ decide (a.id ≠ id) && (a.sent == 0) := by
    funext a
    by_cases ha : a.id = id
    · simp [ha, hnow.ne']
    · simp [ha]
  have hids : ((·.id) ∘ fun a : ActionLink ↦ if a.id = id then { a with sent := now } else a) =
      (·.id) := by
    funext a
    by_cases ha : a.id = id <;> simp [ha]
  rw [hpending, hids]
  rfl

/-- A new link goes to the end of the line. -/
theorem pendingIds_createAction {a : ActionLink} (hfree : s.getActionLink a.id = none) :
    (s.createAction a).pendingIds =
      if a.sent = 0 then s.pendingIds ++ [a.id] else s.pendingIds := by
  obtain ⟨actionLinks, hins⟩ := Table.insert_isSome (t := s.actionLinks) hfree
  have hcreate : s.createAction a = { s with actionLinks } := by
    unfold createAction
    rw [hins]
  rw [hcreate, pendingIds, Table.rows_of_insert hins, List.filter_append, List.map_append]
  by_cases hsent : a.sent = 0
  · rw [if_pos hsent, List.filter_cons_of_pos (by simpa using hsent)]
    rfl
  · rw [if_neg hsent, List.filter_cons_of_neg (by simpa using hsent)]
    exact List.append_nil _

/-- A clean-up withdraws links. -/
theorem pendingIds_cleanOldActionLinks (now : ℕ) (s : Storage) :
    (s.cleanOldActionLinks now).pendingIds.Sublist s.pendingIds :=
  (List.filter_sublist.filter _).map _

/-- A request for a link keeps each link waiting or not. -/
theorem pendingIds_handle (x : LinkContext) (s : Storage) (req : LinkRequest) :
    (x.handle s req).2.pendingIds = s.pendingIds := by
  rcases LinkContext.handle_effect x req with ⟨link, userAction, u, u', -, heq⟩ | huntouched
  · rw [heq, updatedStorage, pendingIds_completeAction]
    refine pendingIds_congr ?_
    rw [LinkContext.updateUser_actionLinks]
    exact (LinkContext.looked_findUser x s userAction link.userId).links
  · generalize (x.handle s req).2 = s' at huntouched
    cases huntouched with
    | looked h => exact pendingIds_congr h.links
    | cancelled => exact pendingIds_cancelAction x.moment.now s req.linkId

end Storage

/-! ## Turns -/

/-- The branch of a turn that cancels: the user of the link is not found, or the invitation is
more than a day old. -/
def cancels (svc : Service) (now : ℕ) (i : ActionLink) (s : Storage) : Bool :=
  match linkPopulation i.action with
  | some isSub => (s.onPopulation isSub fun p ↦ p.getUserById svc i.userId).1.isNone
  | none =>
    i.action == LinkActions.EMAIL_INVITATION.toNat &&
      24 * 60 * 60 < u64 (now + 2 ^ 64 - i.created)

/-- The turn ends in an exception: the user is found, and the message cannot be written. -/
def raises (svc : Service) (i : ActionLink) (s : Storage) : Bool :=
  match linkPopulation i.action with
  | some isSub =>
    ((s.onPopulation isSub fun p ↦ p.getUserById svc i.userId).1.map (messageRaises i)).getD false
  | none => false

/-- Links of these kinds are mailed in their turn; others are only marked. -/
def mails (i : ActionLink) : Bool :=
  (linkPopulation i.action).isSome || i.action == LinkActions.EMAIL_INVITATION.toNat

/-- A turn of the manager. -/
structure LinkTurn where
  now : ℕ
  link : ActionLink
  /-- The storage that the turn found. -/
  before : Storage

namespace LinkTurn

variable (svc : Service) (t : LinkTurn)

/-- The storage that the turn left. -/
def after : Storage := processLink svc t.now t.link t.before

/-- The turn cancels a link that waits. -/
def CancelsWaiting : Prop :=
  cancels svc t.now t.link t.before = true ∧ t.link.id ∈ t.before.pendingIds

instance : Decidable (t.CancelsWaiting svc) := inferInstanceAs (Decidable (_ ∧ _))

/-- The turn goes wrong: it raises an exception, or it cancels a link that waits. -/
def Fails : Prop := raises svc t.link t.before = true ∨ t.CancelsWaiting svc

instance : Decidable (t.Fails svc) := inferInstanceAs (Decidable (_ ∨ _))

/-- A turn takes its link out of the line unless it cancels it or raises an exception. -/
theorem pendingIds_after (hnow : 0 < t.now) (hraises : raises svc t.link t.before = false) :
    (t.after svc).pendingIds =
      if cancels svc t.now t.link t.before then t.before.pendingIds
      else t.before.pendingIds.filter (· ≠ t.link.id) := by
  unfold raises at hraises
  unfold after processLink cancels
  generalize linkPopulation t.link.action = population at hraises ⊢
  rcases population with _ | isSub
  · by_cases hold : (t.link.action == LinkActions.EMAIL_INVITATION.toNat &&
        24 * 60 * 60 < u64 (t.now + 2 ^ 64 - t.link.created)) = true
    · simp only [hold, if_true]
      exact Storage.pendingIds_cancelAction t.now t.before t.link.id
    · simp only [Bool.eq_false_iff.mpr hold, Bool.false_eq_true, if_false]
      exact Storage.pendingIds_sentAction hnow t.before t.link.id
  · have hlinks := (looked_getUserById svc t.before isSub t.link.userId).links
    rcases hl : t.before.onPopulation isSub fun p ↦ p.getUserById svc t.link.userId with
      ⟨_ | user, s'⟩
    · rw [hl] at hlinks
      simp only [hl, Option.isNone_none, if_true]
      exact (Storage.pendingIds_cancelAction t.now s' t.link.id).trans
        (Storage.pendingIds_congr hlinks)
    · rw [hl] at hlinks
      have hwritten : messageRaises t.link user = false := by simpa [hl] using hraises
      simp only [hl, hwritten, Option.isNone_some, Bool.false_eq_true, if_false]
      exact (Storage.pendingIds_sentAction hnow s' t.link.id).trans
        (congrArg (List.filter (· ≠ t.link.id)) (Storage.pendingIds_congr hlinks))

/-- Unless it goes wrong, a turn takes its link out of the line. -/
theorem pendingIds_after_of_kept (hnow : 0 < t.now) (hraises : raises svc t.link t.before = false)
    (h : ¬ t.CancelsWaiting svc) :
    (t.after svc).pendingIds = t.before.pendingIds.filter (· ≠ t.link.id) := by
  rw [t.pendingIds_after svc hnow hraises]
  by_cases hcancels : cancels svc t.now t.link t.before = true
  · have hnot : ∀ id ∈ t.before.pendingIds, id ≠ t.link.id := fun id hid heq ↦
      h ⟨hcancels, heq ▸ hid⟩
    rw [if_pos hcancels]
    exact (List.filter_eq_self.mpr (by simpa using hnot)).symm
  · rw [if_neg hcancels]

/-- A turn that ends well leaves its link in the line exactly when it cancels a link that waits. -/
theorem settles_iff (hnow : 0 < t.now) (hraises : raises svc t.link t.before = false) :
    t.link.id ∉ (t.after svc).pendingIds ↔ ¬ t.CancelsWaiting svc := by
  constructor
  · rintro hnot ⟨hcancels, hwaits⟩
    rw [t.pendingIds_after svc hnow hraises, if_pos hcancels] at hnot
    exact hnot hwaits
  · intro h
    rw [t.pendingIds_after_of_kept svc hnow hraises h]
    simp

end LinkTurn

/-! ## Runs of the manager -/

/-- What is worth remembering of a run. -/
inductive ManagerCall
  /-- A link was made, with so many waiting before it. -/
  | created (id : String) (ahead : ℕ)
  /-- A pass began and read these links. -/
  | fetched (ids : List String)
  | turn (t : LinkTurn)

/-- The call is about the link. -/
def ManagerCall.Names (id : String) : ManagerCall → Prop
  | .created id' _ => id' = id
  | .fetched ids => id ∈ ids
  | .turn t => t.link.id = id

/-- The manager with its calls so far, the latest first. -/
structure LinkManager where
  storage : Storage := {}
  /-- The links that the pass has read and not come to. -/
  pass : List ActionLink := []
  /-- No exception has ended the thread. -/
  running : Bool := true
  history : List ManagerCall := []

/-- What happens in one step. -/
inductive ManagerEvent
  | beginPass
  | process (now : ℕ) (i : ActionLink)
  | request (x : LinkContext) (req : LinkRequest)
  | create (a : ActionLink)
  | clean (now : ℕ)
  | elsewhere

namespace LinkManager

variable (svc : Service)

/-- The links that wait for a pass to read them. -/
def waiting (s : LinkManager) : List String :=
  s.storage.pendingIds.filter (· ∉ s.pass.map (·.id))

/-- A pass begins. -/
def beginPass (s : LinkManager) : LinkManager where
  storage := s.storage
  pass := s.storage.getActions
  running := s.running
  history := .fetched (s.storage.getActions.map (·.id)) :: s.history

/-- A turn of the pass. -/
def process (s : LinkManager) (now : ℕ) (i : ActionLink) (rest : List ActionLink) :
    LinkManager where
  storage := processLink svc now i s.storage
  pass := rest
  running := !raises svc i s.storage
  history := .turn { now := now, link := i, before := s.storage } :: s.history

/-- A link is made. -/
def create (s : LinkManager) (a : ActionLink) : LinkManager where
  storage := s.storage.createAction a
  pass := s.pass
  running := s.running
  history := .created a.id s.waiting.length :: s.history

/-- One step.  A pass begins when the one before it is over; identifiers are never used
again. -/
inductive Step : LinkManager → ManagerEvent → LinkManager → Prop
  | beginPass {s : LinkManager} (hpass : s.pass = []) (hrunning : s.running = true) :
    Step s .beginPass s.beginPass
  | process {s : LinkManager} (now : ℕ) (i : ActionLink) (rest : List ActionLink)
    (hnow : 0 < now) (hpass : s.pass = i :: rest) (hrunning : s.running = true) :
    Step s (.process now i) (s.process svc now i rest)
  | request {s : LinkManager} (x : LinkContext) (req : LinkRequest) :
    Step s (.request x req) { s with storage := (x.handle s.storage req).2 }
  | create {s : LinkManager} (a : ActionLink) (hfree : s.storage.getActionLink a.id = none)
    (hfresh : ∀ c ∈ s.history, ¬ c.Names a.id) : Step s (.create a) (s.create a)
  | clean {s : LinkManager} (now : ℕ) :
    Step s (.clean now) { s with storage := s.storage.cleanOldActionLinks now }
  | elsewhere {s : LinkManager} (storage : Storage)
    (hlinks : storage.actionLinks = s.storage.actionLinks) : Step s .elsewhere { s with storage }

/-- No pass has begun. -/
def AtStart (s : LinkManager) : Prop := s.pass = [] ∧ s.running = true ∧ s.history = []

/-- The manager as a transition system. -/
def system : System LinkManager ManagerEvent where
  init := AtStart
  step := Step svc

/-! ## The law -/

/-- The link of a turn that mails it. -/
def mailedBy : ManagerCall → Option String
  | .turn t =>
    if mails t.link && !cancels svc t.now t.link t.before && !raises svc t.link t.before then
      some t.link.id
    else none
  | _ => none

/-- How many passes have begun. -/
def passes (calls : List ManagerCall) : ℕ :=
  calls.countP fun c ↦ match c with
    | .fetched _ => true
    | _ => false

/-- What the manager should make of the links that wait. -/
structure ProgressLaw (s : LinkManager) : Prop where
  /-- The passes go on. -/
  running : s.running = true
  /-- A turn takes its link out of the line. -/
  settles : ∀ t, .turn t ∈ s.history → t.link.id ∉ (t.after svc).pendingIds
  /-- After a pass none of the links that it read waits. -/
  settled : s.pass = [] → ∀ ids, .fetched ids ∈ s.history → ∀ id ∈ ids,
    id ∉ s.storage.pendingIds
  /-- A link is mailed once at most. -/
  once : (s.history.filterMap (mailedBy svc)).Nodup
  /-- A link that was cancelled is not read again. -/
  never : ∀ later t before, s.history = later ++ .turn t :: before →
    cancels svc t.now t.link t.before = true → ∀ ids, .fetched ids ∈ later → t.link.id ∉ ids
  /-- As long as a new link waits, the passes since have not been enough for those that waited
  before it. -/
  progress : ∀ later id ahead before, s.history = later ++ .created id ahead :: before →
    id ∈ s.waiting → 200 * passes later ≤ ahead

/-! ## The invariant -/

/-- The link of a turn. -/
def turnOf : ManagerCall → Option String
  | .turn t => some t.link.id
  | _ => none

/-- What was mailed had its turn. -/
theorem mailedBy_sublist (calls : List ManagerCall) :
    (calls.filterMap (mailedBy svc)).Sublist (calls.filterMap turnOf) := by
  induction calls with
  | nil => exact .slnil
  | cons c calls ih =>
    cases c with
    | created => exact ih
    | fetched => exact ih
    | turn t =>
      by_cases hmailed : (mails t.link && !cancels svc t.now t.link t.before &&
          !raises svc t.link t.before) = true
      · have hsome : mailedBy svc (.turn t) = some t.link.id := if_pos hmailed
        rw [List.filterMap_cons_some hsome]
        exact ih.cons_cons t.link.id
      · have hnone : mailedBy svc (.turn t) = none := if_neg hmailed
        rw [List.filterMap_cons_none hnone]
        exact ih.cons t.link.id

/-- No turn has gone wrong. -/
def Kept (s : LinkManager) : Prop := ∀ t, .turn t ∈ s.history → ¬ t.Fails svc

/-- The line, the pass and the history fit together. -/
structure Sound (s : LinkManager) : Prop where
  pass : (s.pass.map (·.id)).Nodup
  named : ∀ i ∈ s.pass, ∃ c ∈ s.history, c.Names i.id
  turned : ∀ t, .turn t ∈ s.history →
    t.link.id ∉ s.storage.pendingIds ∧ t.link.id ∉ s.pass.map (·.id)
  fetched : ∀ ids, .fetched ids ∈ s.history → ∀ id ∈ ids,
    id ∈ s.pass.map (·.id) ∨ id ∉ s.storage.pendingIds
  once : (s.history.filterMap turnOf).Nodup
  never : ∀ later t before, s.history = later ++ .turn t :: before →
    ∀ ids, .fetched ids ∈ later → t.link.id ∉ ids
  progress : ∀ later id ahead before, s.history = later ++ .created id ahead :: before →
    id ∈ s.waiting → 200 * passes later + s.waiting.idxOf id ≤ ahead

section Steps

variable {svc} {s s' : LinkManager}

/-- No link waits twice for a pass. -/
theorem nodup_waiting (s : LinkManager) : s.waiting.Nodup :=
  s.storage.nodup_pendingIds.sublist List.filter_sublist

@[simp] theorem passes_append (calls calls' : List ManagerCall) :
    passes (calls ++ calls') = passes calls + passes calls' := List.countP_append

/-- What the line does in a step moves the links that were made before up. -/
theorem Sound.moves (hs : Sound s) (new : List ManagerCall)
    (hmoves : Moves 200 s.waiting (passes new) s'.waiting)
    (hold : ∀ id ∈ s'.waiting, id ∈ s.waiting ∨ ∀ c ∈ s.history, ¬ c.Names id)
    {later before : List ManagerCall} {id : String} {ahead : ℕ}
    (hsplit : s.history = later ++ .created id ahead :: before) (hid : id ∈ s'.waiting) :
    200 * passes (new ++ later) + s'.waiting.idxOf id ≤ ahead := by
  have hmem : ManagerCall.created id ahead ∈ s.history := hsplit ▸ by simp
  rcases hold id hid with hwaits | hfresh
  · have hbefore := hs.progress later id ahead before hsplit hwaits
    have hstep := hmoves.idxOf_le s.nodup_waiting hwaits hid
    rw [passes_append]
    omega
  · exact absurd rfl (hfresh _ hmem)

/-- The line gets shorter and nothing else happens. -/
theorem Sound.quiet (hs : Sound s) (hpass : s'.pass = s.pass) (hhistory : s'.history = s.history)
    (hline : s'.storage.pendingIds.Sublist s.storage.pendingIds) : Sound s' := by
  have hwaiting : s'.waiting.Sublist s.waiting := by
    rw [waiting, hpass, waiting]
    exact hline.filter _
  constructor
  case pass => exact hpass ▸ hs.pass
  case named => exact fun i hi ↦ hhistory ▸ hs.named i (hpass ▸ hi)
  case turned =>
    intro t ht
    obtain ⟨hsettled, hpassed⟩ := hs.turned t (hhistory ▸ ht)
    exact ⟨fun h ↦ hsettled (hline.subset h), hpass ▸ hpassed⟩
  case fetched =>
    intro ids hids id hid
    rw [hpass]
    exact (hs.fetched ids (hhistory ▸ hids) id hid).imp_right fun hnot h ↦ hnot (hline.subset h)
  case once => exact hhistory ▸ hs.once
  case never => exact hhistory ▸ hs.never
  case progress =>
    intro later id ahead before hsplit hid
    exact hs.moves [] (.withdraw hwaiting) (fun id h ↦ .inl (hwaiting.subset h))
      (hhistory ▸ hsplit) hid

/-- What is remembered of the calls before a new one that reads nothing. -/
theorem Sound.never_cons (hs : Sound s) {c : ManagerCall}
    (hc : ∀ ids, c = .fetched ids → ∀ t, .turn t ∈ s.history → t.link.id ∉ ids)
    (later : List ManagerCall) (t : LinkTurn) (before : List ManagerCall)
    (h : c :: s.history = later ++ .turn t :: before) (ids : List String)
    (hids : .fetched ids ∈ later) : t.link.id ∉ ids := by
  rcases later with _ | ⟨c', later⟩
  · cases hids
  · obtain ⟨rfl, htail⟩ := List.cons.inj h
    rcases List.mem_cons.mp hids with hnew | hold
    · exact hc ids hnew.symm t (htail ▸ by simp)
    · exact hs.never later t before htail ids hold

theorem Sound.create (hs : Sound s) {a : ActionLink}
    (hfree : s.storage.getActionLink a.id = none) (hfresh : ∀ c ∈ s.history, ¬ c.Names a.id) :
    Sound (s.create a) := by
  have hline : (s.create a).storage.pendingIds =
      if a.sent = 0 then s.storage.pendingIds ++ [a.id] else s.storage.pendingIds :=
    Storage.pendingIds_createAction hfree
  have hmem : ∀ id ∈ (s.create a).storage.pendingIds, id ∈ s.storage.pendingIds ∨ id = a.id := by
    intro id hid
    rw [hline] at hid
    split at hid
    · simpa using hid
    · exact .inl hid
  have hpassed : a.id ∉ s.pass.map (·.id) := by
    intro hid
    obtain ⟨i, hi, heq⟩ := List.mem_map.mp hid
    obtain ⟨c, hc, hnames⟩ := hs.named i hi
    exact hfresh c hc (heq ▸ hnames)
  have hnot : a.id ∉ s.storage.pendingIds := by
    intro hid
    obtain ⟨i, hi, heq⟩ := List.mem_map.mp hid
    exact (Table.find?_eq_none_iff s.storage.actionLinks).mp hfree i (List.mem_filter.mp hi).1 heq
  have hwaiting : (s.create a).waiting =
      if a.sent = 0 then s.waiting ++ [a.id] else s.waiting := by
    have hdef : (s.create a).waiting =
        (s.create a).storage.pendingIds.filter (· ∉ s.pass.map (·.id)) := rfl
    rw [hdef, hline]
    split
    · rw [List.filter_append, List.filter_cons_of_pos (by simpa using hpassed)]
      rfl
    · rfl
  have hfar : a.id ∉ s.waiting := fun h ↦ hnot (List.mem_filter.mp h).1
  have hmoves : Moves 200 s.waiting 0 (s.create a).waiting := by
    rw [hwaiting]
    split
    · exact .arrive a.id hfar
    · exact .withdraw (List.Sublist.refl _)
  constructor
  case pass => exact hs.pass
  case named =>
    intro i hi
    obtain ⟨c, hc, hnames⟩ := hs.named i hi
    exact ⟨c, List.mem_cons_of_mem _ hc, hnames⟩
  case turned =>
    intro t ht
    have ht' : .turn t ∈ s.history := (List.mem_cons.mp ht).resolve_left nofun
    obtain ⟨hsettled, hpass⟩ := hs.turned t ht'
    refine ⟨fun h ↦ ?_, hpass⟩
    rcases hmem _ h with hold | heq
    · exact hsettled hold
    · exact hfresh _ ht' heq
  case fetched =>
    intro ids hids id hid
    have hids' : .fetched ids ∈ s.history := (List.mem_cons.mp hids).resolve_left nofun
    refine (hs.fetched ids hids' id hid).imp_right fun hnot h ↦ ?_
    rcases hmem _ h with hold | rfl
    · exact hnot hold
    · exact hfresh _ hids' hid
  case once => exact hs.once
  case never => exact hs.never_cons nofun
  case progress =>
    intro later id ahead before hsplit hid
    rcases later with _ | ⟨c, later⟩
    · -- the new link is the last one in the line
      obtain ⟨hhead, -⟩ := List.cons.inj hsplit
      cases hhead
      rw [hwaiting] at hid ⊢
      by_cases hsent : a.sent = 0
      · rw [if_pos hsent, List.idxOf_append_of_notMem hfar, List.idxOf_cons_self]
        exact Nat.le_of_eq (Nat.zero_add _)
      · rw [if_neg hsent] at hid
        exact absurd hid hfar
    · obtain ⟨rfl, htail⟩ := List.cons.inj hsplit
      refine hs.moves [.created a.id s.waiting.length] hmoves (fun id h ↦ ?_) htail hid
      rw [hwaiting] at h
      split at h
      · refine (List.mem_append.mp h).imp_right fun heq ↦ ?_
        exact List.mem_singleton.mp heq ▸ hfresh
      · exact .inl h

theorem Sound.beginPass (hs : Sound s) (hpass : s.pass = []) : Sound s.beginPass := by
  have hids : s.storage.getActions.map (·.id) = s.storage.pendingIds.take 200 :=
    Storage.map_id_getActions s.storage 200
  have hbefore : s.waiting = s.storage.pendingIds := by
    rw [waiting, hpass]
    simp
  have hwaiting : s.beginPass.waiting = s.waiting.drop 200 := by
    have hdef : s.beginPass.waiting =
        s.storage.pendingIds.filter (· ∉ s.storage.getActions.map (·.id)) := rfl
    rw [hdef, hids, hbefore]
    exact filter_notMem_take s.storage.nodup_pendingIds 200
  have htaken : ∀ id ∈ s.storage.getActions.map (·.id), id ∈ s.storage.pendingIds := by
    intro id hid
    rw [hids] at hid
    exact List.mem_of_mem_take hid
  constructor
  case pass =>
    change (s.storage.getActions.map (·.id)).Nodup
    rw [hids]
    exact s.storage.nodup_pendingIds.sublist (List.take_sublist _ _)
  case named =>
    exact fun i hi ↦ ⟨_, List.mem_cons_self, List.mem_map_of_mem hi⟩
  case turned =>
    intro t ht
    have ht' : .turn t ∈ s.history := (List.mem_cons.mp ht).resolve_left nofun
    have hsettled := (hs.turned t ht').1
    exact ⟨hsettled, fun h ↦ hsettled (htaken _ h)⟩
  case fetched =>
    intro ids hids' id hid
    rcases List.mem_cons.mp hids' with hnew | hold
    · cases hnew
      exact .inl hid
    · refine .inr ((hs.fetched ids hold id hid).resolve_left ?_)
      simp [hpass]
  case once => exact hs.once
  case never =>
    refine hs.never_cons fun ids heq t ht hid ↦ ?_
    cases heq
    exact (hs.turned t ht).1 (htaken _ hid)
  case progress =>
    intro later id ahead before hsplit hid
    rcases later with _ | ⟨c, later⟩
    · cases (List.cons.inj hsplit).1
    · obtain ⟨rfl, htail⟩ := List.cons.inj hsplit
      refine hs.moves [.fetched (s.storage.getActions.map (·.id))] (hwaiting ▸ .serve)
        (fun id h ↦ .inl ?_) htail hid
      rw [hwaiting] at h
      exact List.mem_of_mem_drop h

theorem Sound.process (hs : Sound s) {now : ℕ} (hnow : 0 < now) {i : ActionLink}
    {rest : List ActionLink} (hpass : s.pass = i :: rest)
    (hkept : ¬ LinkTurn.Fails svc { now := now, link := i, before := s.storage }) :
    Sound (s.process svc now i rest) := by
  obtain ⟨hraises, hcancels⟩ := not_or.mp hkept
  have hline : (s.process svc now i rest).storage.pendingIds =
      s.storage.pendingIds.filter (· ≠ i.id) :=
    LinkTurn.pendingIds_after_of_kept svc _ hnow (Bool.eq_false_iff.mpr hraises) hcancels
  have hids : s.pass.map (·.id) = i.id :: rest.map (·.id) := by rw [hpass, List.map_cons]
  have hwaiting : (s.process svc now i rest).waiting = s.waiting := by
    have hdef : (s.process svc now i rest).waiting =
        (s.process svc now i rest).storage.pendingIds.filter (· ∉ rest.map (·.id)) := rfl
    rw [hdef, hline, List.filter_filter, waiting, hids]
    refine List.filter_congr fun id _ ↦ ?_
    simp only [List.mem_cons, not_or, Bool.decide_and, Bool.and_comm]
  have hnodup := hs.pass
  rw [hids, List.nodup_cons] at hnodup
  constructor
  case pass => exact hnodup.2
  case named =>
    intro j hj
    obtain ⟨c, hc, hnames⟩ := hs.named j (hpass ▸ List.mem_cons_of_mem _ hj)
    exact ⟨c, List.mem_cons_of_mem _ hc, hnames⟩
  case turned =>
    intro t ht
    rw [hline]
    rcases List.mem_cons.mp ht with hnew | hold
    · cases hnew
      exact ⟨by simp, hnodup.1⟩
    · obtain ⟨hsettled, hpassed⟩ := hs.turned t hold
      rw [hids, List.mem_cons, not_or] at hpassed
      exact ⟨fun h ↦ hsettled (List.mem_filter.mp h).1, hpassed.2⟩
  case fetched =>
    intro ids hids' id hid
    have hids'' : .fetched ids ∈ s.history := (List.mem_cons.mp hids').resolve_left nofun
    rw [hline]
    rcases hs.fetched ids hids'' id hid with hpassed | hnot
    · rw [hids] at hpassed
      rcases List.mem_cons.mp hpassed with rfl | hrest
      · exact .inr (by simp)
      · exact .inl hrest
    · exact .inr fun h ↦ hnot (List.mem_filter.mp h).1
  case once =>
    -- a link that a turn has come to is not in the pass any more
    have hfar : i.id ∉ s.history.filterMap turnOf := by
      intro hid
      obtain ⟨c, hc, heq⟩ := List.mem_filterMap.mp hid
      cases c with
      | turn t =>
        have hpassed := (hs.turned t hc).2
        rw [hids, Option.some.inj heq] at hpassed
        exact hpassed List.mem_cons_self
      | created => cases heq
      | fetched => cases heq
    exact List.nodup_cons.mpr ⟨hfar, hs.once⟩
  case never => exact hs.never_cons nofun
  case progress =>
    intro later id ahead before hsplit hid
    rcases later with _ | ⟨c, later⟩
    · cases (List.cons.inj hsplit).1
    · obtain ⟨rfl, htail⟩ := List.cons.inj hsplit
      refine hs.moves [.turn { now := now, link := i, before := s.storage }]
        (.withdraw (hwaiting ▸ List.Sublist.refl _)) (fun id h ↦ .inl (hwaiting ▸ h)) htail hid

theorem Sound.atStart (h : AtStart s) : Sound s := by
  obtain ⟨hpass, -, hhistory⟩ := h
  constructor <;> simp [hpass, hhistory]

/-- One step keeps the invariant as long as no turn goes wrong. -/
theorem Sound.step {event : ManagerEvent} (hs : Kept svc s → Sound s) (h : Step svc s event s')
    (hkept : Kept svc s') : Sound s' := by
  cases h with
  | beginPass hpass =>
    exact (hs fun t ht ↦ hkept t (List.mem_cons_of_mem _ ht)).beginPass hpass
  | process now i rest hnow hpass =>
    exact (hs fun t ht ↦ hkept t (List.mem_cons_of_mem _ ht)).process hnow hpass
      (hkept _ List.mem_cons_self)
  | request x req =>
    refine (hs hkept).quiet rfl rfl ?_
    rw [Storage.pendingIds_handle]
  | create a hfree hfresh =>
    exact (hs fun t ht ↦ hkept t (List.mem_cons_of_mem _ ht)).create hfree hfresh
  | clean now =>
    exact (hs hkept).quiet rfl rfl (Storage.pendingIds_cleanOldActionLinks now s.storage)
  | elsewhere storage hlinks =>
    refine (hs hkept).quiet rfl rfl ?_
    rw [Storage.pendingIds_congr hlinks]

/-- Turns come at positive times. -/
theorem timed (h : (system svc).Reachable s) : ∀ t, .turn t ∈ s.history → 0 < t.now := by
  refine h.invariant (I := fun s ↦ ∀ t, .turn t ∈ s.history → 0 < t.now) ?_ ?_
  · intro s₀ h₀ t ht
    rw [h₀.2.2] at ht
    cases ht
  · intro s event s' hs hstep
    cases hstep with
    | beginPass => exact fun t ht ↦ hs t ((List.mem_cons.mp ht).resolve_left nofun)
    | process now i rest hnow =>
      intro t ht
      rcases List.mem_cons.mp ht with hnew | hold
      · cases hnew
        exact hnow
      · exact hs t hold
    | request => exact hs
    | create => exact fun t ht ↦ hs t ((List.mem_cons.mp ht).resolve_left nofun)
    | clean => exact hs
    | elsewhere => exact hs

/-- The thread runs as long as no turn has raised an exception. -/
theorem running_iff (h : (system svc).Reachable s) :
    s.running = true ↔ ∀ t, .turn t ∈ s.history → raises svc t.link t.before = false := by
  refine h.invariant (I := fun s ↦ s.running = true ↔
    ∀ t, .turn t ∈ s.history → raises svc t.link t.before = false) ?_ ?_
  · rintro s₀ ⟨-, hrunning, hhistory⟩
    simp [hrunning, hhistory]
  · intro s event s' hs hstep
    cases hstep with
    | beginPass hpass hrunning => simpa [LinkManager.beginPass] using hs
    | process now i rest hnow hpass hrunning =>
      have hbefore := hs.mp hrunning
      constructor
      · intro hafter t ht
        rcases List.mem_cons.mp ht with hnew | hold
        · cases hnew
          simpa [LinkManager.process] using hafter
        · exact hbefore t hold
      · intro hall
        have hlast := hall _ List.mem_cons_self
        simpa [LinkManager.process] using hlast
    | request => exact hs
    | create => simpa [LinkManager.create] using hs
    | clean => exact hs
    | elsewhere => exact hs

end Steps

/-- A link to choose a password. -/
def sampleLink (userId : String) : ActionLink where
  id := "link-a"
  action := LinkActions.FORGOT_PASSWORD.toNat
  userId := userId

/-- A user, and the link of the same or of another user. -/
def sampleStored (userId : String) : LinkManager where
  storage :=
    { user := { users := ⟨[{ id := "uuid-a", email := "jo@example.com" }], by decide⟩ }
      actionLinks := ⟨[sampleLink userId], List.nodup_singleton _⟩ }

/-- A pass over the link. -/
def samplePass (userId : String) : LinkManager :=
  (sampleStored userId).beginPass.process .sample 1700000000 (sampleLink userId) []

theorem reachable_samplePass (userId : String) :
    (system .sample).Reachable (samplePass userId) :=
  ((System.Reachable.init (S := system .sample) ⟨rfl, rfl, rfl⟩).step (Step.beginPass rfl rfl)).step
    (Step.process _ _ _ (by decide) rfl rfl)

end LinkManager

end OwSec
