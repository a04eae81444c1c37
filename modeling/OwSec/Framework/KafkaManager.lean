import Mathlib.Algebra.Group.Nat.Defs
import Mathlib.Data.Finset.Insert
import Mathlib.Data.List.AList
import OwSec.Kit.Machine

/-!
# The producer and the consumer of the bus

`framework/KafkaManager.cpp`.  A message that is posted goes into the queue of the producer, whose
thread hands one message after the other to the client of the broker.  It is a queue on which the
thread waits: what is posted while it waits is handed to it directly, and `wakeUpAll` wakes it up
with nothing.  A thread that is not waiting then is not woken up.

The thread of the consumer calls, for each message that the broker delivers, the watchers of its
topic.  A watcher is known by a number that counts the registrations; the list of the watchers keeps
it as an `int`.
-/

namespace OwSec

open Kit

/-- `KafkaMessage`. -/
structure KafkaMessage where
  topic : String
  key : String
  payload : String
  deriving DecidableEq, Repr

/-! ## The producer -/

/-- Where the thread of the producer is. -/
inductive ProducerThread
  /-- It has not been started. -/
  | idle
  /-- At the beginning of `run`. -/
  | starting
  /-- In front of `waitDequeueNotification`. -/
  | ready
  /-- In it, with an empty queue. -/
  | waiting
  /-- At the condition of the loop, with what was returned. -/
  | woken (note : Option KafkaMessage)
  /-- In the loop. -/
  | producing (msg : KafkaMessage)
  /-- At the end of `run`. -/
  | stopped
  deriving DecidableEq, Repr

/-- `KafkaProducer`. -/
structure KafkaProducer where
  running : Bool := false
  queue : List KafkaMessage := []
  worker : ProducerThread := .idle
  deriving DecidableEq, Repr

/-- What is done with a producer. -/
inductive ProducerInput
  | start
  /-- `Stop`, up to the notifications. -/
  | stop
  /-- The rest of `Stop`, up to the wait for the thread. -/
  | wakeUpAll
  | produce (msg : KafkaMessage)
  /-- The thread goes on; the client of the broker accepts what it is handed or throws. -/
  | turn (taken : Bool)
  deriving DecidableEq, Repr

namespace KafkaProducer

variable (p : KafkaProducer)

/-- `KafkaProducer::Start`; a thread that runs cannot be started. -/
def start : KafkaProducer :=
  if p.running then p
  else
    match p.worker with
    | .idle | .stopped => { p with running := true, worker := .starting }
    | _ => { p with running := true }

/-- `KafkaProducer::Stop`, up to the notifications. -/
def stop : KafkaProducer :=
  if p.running then { p with running := false } else p

/-- `NotificationQueue::wakeUpAll`. -/
def wakeUpAll : KafkaProducer :=
  if p.worker = .waiting then { p with worker := .woken none } else p

/-- `KafkaProducer::Produce`: a thread that waits gets the message. -/
def produce (msg : KafkaMessage) : KafkaProducer :=
  if p.worker = .waiting then { p with worker := .woken (some msg) }
  else { p with queue := p.queue ++ [msg] }

/-- `KafkaProducer::run`, from one place to the next. -/
def turn (taken : Bool) : Option (KafkaProducer × List KafkaMessage) :=
  match p.worker with
  | .idle | .waiting | .stopped => none
  | .starting => some ({ p with running := true, worker := .ready }, [])
  | .ready =>
    match p.queue with
    | [] => some ({ p with worker := .waiting }, [])
    | msg :: rest => some ({ p with queue := rest, worker := .woken (some msg) }, [])
  | .woken none => some ({ p with worker := .stopped }, [])
  | .woken (some msg) =>
    -- what it was handed after a stop is dropped
    some ({ p with worker := if p.running then .producing msg else .stopped }, [])
  | .producing msg => some ({ p with worker := .ready }, if taken then [msg] else [])

/-- What is done with a producer, and what the broker takes. -/
def machine : Machine KafkaProducer ProducerInput KafkaMessage where
  next p
    | .start => some (p.start, [])
    | .stop => some (p.stop, [])
    | .wakeUpAll => some (p.wakeUpAll, [])
    | .produce msg => some (p.produce msg, [])
    | .turn taken => p.turn taken

/-- The message that the thread holds. -/
def inHand : List KafkaMessage :=
  match p.worker with
  | .woken (some msg) | .producing msg => [msg]
  | _ => []

/-- The messages that are posted. -/
def posts (is : List ProducerInput) : List KafkaMessage :=
  is.filterMap fun
    | .produce msg => some msg
    | _ => none

/-! ### The order of the messages -/

variable {p} {is : List ProducerInput} {os : List KafkaMessage}

@[simp] theorem posts_append (is js : List ProducerInput) :
    posts (is ++ js) = posts is ++ posts js := List.filterMap_append

/-- A thread that waits has nothing to wait for. -/
def Attentive (p : KafkaProducer) : Prop := p.worker = .waiting → p.queue = []

theorem attentive_produce (msg : KafkaMessage) : (p.produce msg).Attentive := by
  unfold produce
  split
  · intro hwaiting
    cases hwaiting
  · intro hwaiting
    contradiction

/-- A message that is posted comes behind the others. -/
theorem order_produce (h : p.Attentive) (msg : KafkaMessage) :
    (p.produce msg).inHand ++ (p.produce msg).queue = p.inHand ++ p.queue ++ [msg] := by
  unfold produce
  split
  next hwaiting => simp [inHand, hwaiting, h hwaiting]
  next => simp [inHand]

theorem attentive_start (h : p.Attentive) : p.start.Attentive := by
  unfold start
  split
  · exact h
  · split
    · intro hwaiting
      cases hwaiting
    · intro hwaiting
      cases hwaiting
    · exact h

theorem order_start : p.start.inHand ++ p.start.queue = p.inHand ++ p.queue := by
  unfold start
  split
  · rfl
  · split
    next hworker => simp [inHand, hworker]
    next hworker => simp [inHand, hworker]
    · rfl

theorem attentive_stop (h : p.Attentive) : p.stop.Attentive := by
  unfold stop
  split
  · exact h
  · exact h

theorem order_stop : p.stop.inHand ++ p.stop.queue = p.inHand ++ p.queue := by
  unfold stop
  split
  · rfl
  · rfl

theorem attentive_wakeUpAll (h : p.Attentive) : p.wakeUpAll.Attentive := by
  unfold wakeUpAll
  split
  · intro hwaiting
    cases hwaiting
  · exact h

theorem order_wakeUpAll : p.wakeUpAll.inHand ++ p.wakeUpAll.queue = p.inHand ++ p.queue := by
  unfold wakeUpAll
  split
  next hwaiting => simp [inHand, hwaiting]
  next => rfl

/-- What a turn takes out of the producer; the broker gets all of it from a thread that is told to
run, when it takes what it is handed. -/
theorem order_turn {p' : KafkaProducer} {taken : Bool} (h : p.turn taken = some (p', os)) :
    ∃ gone, p.inHand ++ p.queue = gone ++ (p'.inHand ++ p'.queue) ∧ os.Sublist gone ∧
      (taken = true → (∀ msg, p.worker = .woken (some msg) → p.running = true) →
        os = gone) := by
  unfold turn at h
  split at h
  · cases h
  · cases h
  · cases h
  next hworker =>
    cases h
    exact ⟨[], by simp [inHand, hworker], .slnil, fun _ _ ↦ rfl⟩
  next hworker =>
    split at h
    next hqueue =>
      cases h
      exact ⟨[], by simp [inHand, hworker], .slnil, fun _ _ ↦ rfl⟩
    next msg rest hqueue =>
      cases h
      exact ⟨[], by simp [inHand, hworker, hqueue], .slnil, fun _ _ ↦ rfl⟩
  next hworker =>
    cases h
    exact ⟨[], by simp [inHand, hworker], .slnil, fun _ _ ↦ rfl⟩
  next msg hworker =>
    cases h
    by_cases hrunning : p.running
    · exact ⟨[], by simp [inHand, hworker, hrunning], .slnil, fun _ _ ↦ rfl⟩
    · exact ⟨[msg], by simp [inHand, hworker, hrunning], List.nil_sublist _,
        fun _ hruns ↦ absurd (hruns msg hworker) hrunning⟩
  next msg hworker =>
    cases h
    refine ⟨[msg], by simp [inHand, hworker], ?_, fun htaken _ ↦ if_pos htaken⟩
    split
    · exact List.Sublist.refl _
    · exact List.nil_sublist _

theorem attentive_turn {p' : KafkaProducer} {taken : Bool} (h : p.turn taken = some (p', os)) :
    p'.Attentive := by
  intro hwaiting
  unfold turn at h
  split at h
  · cases h
  · cases h
  · cases h
  · cases h
    cases hwaiting
  · split at h
    next hqueue =>
      cases h
      exact hqueue
    · cases h
      cases hwaiting
  · cases h
    cases hwaiting
  · cases h
    have hne (b : Bool) (msg : KafkaMessage) :
        (if b then ProducerThread.producing msg else .stopped) ≠ .waiting := by
      cases b <;> exact ProducerThread.noConfusion
    exact absurd hwaiting (hne _ _)
  · cases h
    cases hwaiting

/-- The thread is between two messages, or has one. -/
def Serving (p : KafkaProducer) : Prop :=
  match p.worker with
  | .ready | .waiting | .woken (some _) | .producing _ => p.running = true
  | _ => True

/-- The client accepts what it is handed, and nobody stops the producer. -/
def Undisturbed (_ : KafkaProducer) : ProducerInput → Prop
  | .turn taken => taken = true
  | .stop => False
  | .start | .wakeUpAll | .produce _ => True

theorem serving_of_running (h : p.running = true) : p.Serving := by
  unfold Serving
  split
  · exact h
  · exact h
  · exact h
  · exact h
  · trivial

theorem serving_next {i : ProducerInput} {p' : KafkaProducer} (h : p.Serving)
    (hok : p.Undisturbed i) (hnext : machine.next p i = some (p', os)) : p'.Serving := by
  cases i with
  | start =>
    cases hnext
    unfold start
    split
    · exact h
    · refine serving_of_running ?_
      split <;> rfl
  | stop => exact hok.elim
  | wakeUpAll =>
    cases hnext
    unfold wakeUpAll
    split
    · trivial
    · exact h
  | produce msg =>
    cases hnext
    unfold produce
    split
    next hwaiting =>
      unfold Serving at h
      rw [hwaiting] at h
      exact h
    · exact h
  | turn taken =>
    change p.turn taken = some (p', os) at hnext
    unfold turn at hnext
    unfold Serving at h ⊢
    split at hnext
    · cases hnext
    · cases hnext
    · cases hnext
    · cases hnext
      rfl
    next hworker =>
      rw [hworker] at h
      split at hnext <;> cases hnext <;> exact h
    · cases hnext
      trivial
    next msg hworker =>
      rw [hworker] at h
      cases hnext
      simp only [h, if_true]
    next msg hworker =>
      rw [hworker] at h
      cases hnext
      exact h

theorem attentive_next {i : ProducerInput} {p' : KafkaProducer} (h : p.Attentive)
    (hnext : machine.next p i = some (p', os)) : p'.Attentive := by
  cases i with
  | start =>
    cases hnext
    exact attentive_start h
  | stop =>
    cases hnext
    exact attentive_stop h
  | wakeUpAll =>
    cases hnext
    exact attentive_wakeUpAll h
  | produce msg =>
    cases hnext
    exact attentive_produce msg
  | turn taken => exact attentive_turn hnext

/-- What an input takes out of the producer, from the front. -/
theorem order_next {i : ProducerInput} {p' : KafkaProducer} (h : p.Attentive)
    (hnext : machine.next p i = some (p', os)) :
    ∃ gone, p.inHand ++ p.queue ++ posts [i] = gone ++ (p'.inHand ++ p'.queue) ∧
      os.Sublist gone ∧ (p.Serving → p.Undisturbed i → os = gone) := by
  cases i with
  | start =>
    cases hnext
    exact ⟨[], (List.append_nil _).trans order_start.symm, .slnil, fun _ _ ↦ rfl⟩
  | stop =>
    cases hnext
    exact ⟨[], (List.append_nil _).trans order_stop.symm, .slnil, fun _ _ ↦ rfl⟩
  | wakeUpAll =>
    cases hnext
    exact ⟨[], (List.append_nil _).trans order_wakeUpAll.symm, .slnil, fun _ _ ↦ rfl⟩
  | produce msg =>
    cases hnext
    exact ⟨[], (order_produce h msg).symm, .slnil, fun _ _ ↦ rfl⟩
  | turn taken =>
    obtain ⟨gone, hgone, hsub, hall⟩ := order_turn hnext
    refine ⟨gone, (List.append_nil _).trans hgone, hsub, fun hserving htaken ↦ hall htaken ?_⟩
    intro msg hworker
    unfold Serving at hserving
    rwa [hworker] at hserving

/-- Whatever happens, the client gets messages in the order in which they were posted, and none
twice; what is still to be handed over comes after all of them. -/
theorem sublist_posts {ok : KafkaProducer → ProducerInput → Prop}
    (h : machine.History ok {} is os p) :
    ∃ gone, posts is = gone ++ (p.inHand ++ p.queue) ∧ os.Sublist gone := by
  refine (h.invariant (I := fun is os p ↦ p.Attentive ∧
    ∃ gone, posts is = gone ++ (p.inHand ++ p.queue) ∧ os.Sublist gone) ?_ ?_).2
  · exact ⟨nofun, [], rfl, .slnil⟩
  · rintro is os p i p' out ⟨hattentive, gone, hposts, hsub⟩ - hnext
    obtain ⟨more, hmore, hsub', -⟩ := order_next hattentive hnext
    refine ⟨attentive_next hattentive hnext, gone ++ more, ?_, hsub.append hsub'⟩
    calc posts (is ++ [i])
        = gone ++ (p.inHand ++ p.queue ++ posts [i]) := by
          rw [posts_append, hposts, List.append_assoc]
      _ = gone ++ more ++ (p'.inHand ++ p'.queue) := by rw [hmore, List.append_assoc]

/-- A message that is posted after the stop is lost, although the thread waited for it. -/
theorem sublist_posts_sample :
    ∃ gone, posts [.start, .turn true, .produce ⟨"service_events", "sec", "join"⟩, .turn true,
      .turn true, .turn true, .turn true, .stop,
      .produce ⟨"service_events", "sec", "leave"⟩, .wakeUpAll, .turn true] = gone ++ [] ∧
      [⟨"service_events", "sec", "join"⟩].Sublist gone := by
  have h : machine.History (fun _ _ ↦ True) {} ([] ++ [.start] ++ [.turn true] ++
      [.produce ⟨"service_events", "sec", "join"⟩] ++ [.turn true] ++ [.turn true] ++
      [.turn true] ++ [.turn true] ++ [.stop] ++
      [.produce ⟨"service_events", "sec", "leave"⟩] ++ [.wakeUpAll] ++ [.turn true]) _ _ :=
    .snoc (.snoc (.snoc (.snoc (.snoc (.snoc (.snoc (.snoc (.snoc (.snoc (.snoc .nil trivial rfl)
      trivial rfl) trivial rfl) trivial rfl) trivial rfl) trivial rfl) trivial rfl) trivial rfl)
      trivial rfl) trivial rfl) trivial rfl
  exact sublist_posts h

/-- As long as nothing is disturbed, the client has got what was posted, up to what is still to be
handed over. -/
theorem posts_eq (h : machine.History Undisturbed {} is os p) :
    posts is = os ++ (p.inHand ++ p.queue) := by
  refine (h.invariant (I := fun is os p ↦ p.Attentive ∧ p.Serving ∧
    posts is = os ++ (p.inHand ++ p.queue)) ?_ ?_).2.2
  · exact ⟨nofun, trivial, rfl⟩
  · rintro is os p i p' out ⟨hattentive, hserving, hposts⟩ hok hnext
    obtain ⟨gone, hgone, -, hall⟩ := order_next hattentive hnext
    refine ⟨attentive_next hattentive hnext, serving_next hserving hok hnext, ?_⟩
    calc posts (is ++ [i])
        = os ++ (p.inHand ++ p.queue ++ posts [i]) := by
          rw [posts_append, hposts, List.append_assoc]
      _ = os ++ out ++ (p'.inHand ++ p'.queue) := by
          rw [hgone, hall hserving hok, List.append_assoc]

/-- A service that comes and goes: it has said the one, and is still to say the other. -/
theorem posts_eq_sample :
    posts [.start, .turn true, .produce ⟨"service_events", "sec", "join"⟩, .turn true,
      .produce ⟨"service_events", "sec", "leave"⟩, .turn true, .turn true] =
      [⟨"service_events", "sec", "join"⟩] ++ [⟨"service_events", "sec", "leave"⟩] := by
  have h : machine.History Undisturbed {} ([] ++ [.start] ++ [.turn true] ++
      [.produce ⟨"service_events", "sec", "join"⟩] ++ [.turn true] ++
      [.produce ⟨"service_events", "sec", "leave"⟩] ++ [.turn true] ++ [.turn true]) _ _ :=
    .snoc (.snoc (.snoc (.snoc (.snoc (.snoc (.snoc .nil trivial rfl) rfl rfl) trivial rfl)
      rfl rfl) trivial rfl) rfl rfl) rfl rfl
  exact posts_eq h

/-! ### The end of the thread -/

/-- The inputs that are the thread's own. -/
def IsTurn : ProducerInput → Prop
  | .turn _ => True
  | _ => False

/-- The thread has ended: `Stop` can return. -/
def Joined (p : KafkaProducer) : Prop := p.worker = .stopped

/-- The thread finds out that it has been stopped. -/
def NoticesStop (p : KafkaProducer) : Prop :=
  match p.worker with
  | .waiting | .woken none | .stopped => True
  | .woken (some _) => p.running = false
  | .ready | .producing _ => p.running = false ∧ p.queue ≠ []
  | .idle | .starting => False

/-- The steps of the thread. -/
theorem moves_iff {p' : KafkaProducer} :
    machine.Moves IsTurn p p' ↔ ∃ taken os, p.turn taken = some (p', os) := by
  constructor
  · rintro ⟨i, hi, os, hnext⟩
    cases i with
    | turn taken => exact ⟨taken, os, hnext⟩
    | start | stop | wakeUpAll | produce msg => exact hi.elim
  · rintro ⟨taken, os, hturn⟩
    exact ⟨.turn taken, trivial, os, hturn⟩

/-- Where the thread can only make one step, what is inevitable after it is inevitable. -/
theorem inevitable_of_turn (p' : Bool → KafkaProducer) (out : Bool → List KafkaMessage)
    (hturn : ∀ taken, p.turn taken = some (p' taken, out taken))
    (h : ∀ taken, machine.Inevitable IsTurn Joined (p' taken)) :
    machine.Inevitable IsTurn Joined p := by
  refine .later ⟨p' true, moves_iff.mpr ⟨true, out true, hturn true⟩⟩ fun q hmoves ↦ ?_
  obtain ⟨taken, os, hnext⟩ := moves_iff.mp hmoves
  rw [hturn taken] at hnext
  cases hnext
  exact h taken

/-- A thread that is woken up with nothing, or with something after it was stopped, ends. -/
theorem inevitable_woken {note : Option KafkaMessage} (hworker : p.worker = .woken note)
    (h : note = none ∨ p.running = false) : machine.Inevitable IsTurn Joined p := by
  refine inevitable_of_turn (fun _ ↦ { p with worker := .stopped }) (fun _ ↦ [])
    (fun taken ↦ ?_) fun _ ↦ .now rfl
  rcases h with rfl | hrunning
  · simp [turn, hworker]
  · cases note <;> simp [turn, hworker, hrunning]

/-- Before it waits, it takes what is in the queue. -/
theorem inevitable_ready (hrunning : p.running = false) (hworker : p.worker = .ready)
    (hqueue : p.queue ≠ []) : machine.Inevitable IsTurn Joined p := by
  obtain ⟨msg, rest, hcons⟩ := List.exists_cons_of_ne_nil hqueue
  refine inevitable_of_turn (fun _ ↦ { p with queue := rest, worker := .woken (some msg) })
    (fun _ ↦ []) (fun taken ↦ ?_) fun _ ↦ inevitable_woken rfl (.inr hrunning)
  simp [turn, hworker, hcons]

theorem inevitable_producing {msg : KafkaMessage} (hrunning : p.running = false)
    (hworker : p.worker = .producing msg) (hqueue : p.queue ≠ []) :
    machine.Inevitable IsTurn Joined p := by
  refine inevitable_of_turn (fun _ ↦ { p with worker := .ready })
    (fun taken ↦ if taken then [msg] else []) (fun taken ↦ ?_)
    fun _ ↦ inevitable_ready hrunning rfl hqueue
  simp [turn, hworker]

/-- The thread does not find out that it has been stopped. -/
def Deaf (p : KafkaProducer) : Prop :=
  match p.worker with
  | .idle | .starting | .waiting => True
  | .ready | .producing _ => p.running = true ∨ p.queue = []
  | .woken (some _) => p.running = true
  | .woken none | .stopped => False

theorem deaf_of_not_noticesStop (h : ¬ p.NoticesStop) : p.Deaf := by
  unfold NoticesStop at h
  unfold Deaf
  cases hrunning : p.running <;> split at h <;> simp_all

/-- It goes on until it waits, and waits for ever. -/
theorem deaf_trap (h : p.Deaf) :
    (∀ p', ¬ machine.Moves IsTurn p p') ∨ ∃ p', machine.Moves IsTurn p p' ∧ p'.Deaf := by
  have hnone (hturn : ∀ taken, p.turn taken = none) : ∀ p', ¬ machine.Moves IsTurn p p' := by
    intro p' hmoves
    obtain ⟨taken, os, hnext⟩ := moves_iff.mp hmoves
    rw [hturn taken] at hnext
    cases hnext
  have hsome (p' : KafkaProducer) (os : List KafkaMessage) (hturn : p.turn true = some (p', os))
      (hdeaf : p'.Deaf) : ∃ p', machine.Moves IsTurn p p' ∧ p'.Deaf :=
    ⟨p', moves_iff.mpr ⟨true, os, hturn⟩, hdeaf⟩
  unfold Deaf at h
  split at h
  next hworker => exact .inl (hnone fun taken ↦ by simp [turn, hworker])
  next hworker =>
    exact .inr (hsome { p with running := true, worker := .ready } []
      (by simp [turn, hworker]) (.inl rfl))
  next hworker => exact .inl (hnone fun taken ↦ by simp [turn, hworker])
  next hworker =>
    rcases hqueue : p.queue with _ | ⟨msg, rest⟩
    · exact .inr (hsome { p with worker := .waiting } [] (by simp [turn, hworker, hqueue]) trivial)
    -- a message in the queue is no help to a thread that is still told to run
    · exact .inr (hsome { p with queue := rest, worker := .woken (some msg) } []
        (by simp [turn, hworker, hqueue]) (h.resolve_right (by simp [hqueue])))
  next msg hworker =>
    exact .inr (hsome { p with worker := .ready } [msg] (by simp [turn, hworker]) h)
  next msg hworker =>
    exact .inr (hsome { p with worker := .producing msg } [] (by simp [turn, hworker, h]) (.inl h))
  · exact h.elim
  · exact h.elim

/-- `Stop` returns, whatever the client of the broker does, exactly when it finds the thread
waiting, or on the way to the condition of the loop; a thread that has not begun, or that is busy
with the last message, waits for ever, until something else is posted. -/
theorem stop_returns_iff : machine.Inevitable IsTurn Joined p.wakeUpAll ↔ p.NoticesStop := by
  unfold wakeUpAll
  split
  next hworker =>
    have hnotices : p.NoticesStop := by simp [NoticesStop, hworker]
    exact iff_of_true (inevitable_woken rfl (.inl rfl)) hnotices
  next hworker =>
    constructor
    · intro hreturns
      by_contra hnotices
      refine Machine.Inevitable.not_of_trap (T := Deaf) ?_ (fun _ ↦ deaf_trap)
        (deaf_of_not_noticesStop hnotices) hreturns
      intro q hdeaf hjoined
      unfold Deaf at hdeaf
      rw [Joined] at hjoined
      rw [hjoined] at hdeaf
      exact hdeaf
    · intro hnotices
      unfold NoticesStop at hnotices
      split at hnotices
      next hwaiting => exact absurd hwaiting hworker
      next hwoken => exact inevitable_woken hwoken (.inl rfl)
      next hstopped => exact .now hstopped
      next msg hwoken => exact inevitable_woken hwoken (.inr hnotices)
      next hready => exact inevitable_ready hnotices.1 hready hnotices.2
      next msg hproducing => exact inevitable_producing hnotices.1 hproducing hnotices.2
      · exact hnotices.elim
      · exact hnotices.elim

end KafkaProducer

/-! ## The consumer -/

/-- Numbers of 64 bits are told apart as an `int` as long as they fit into 32. -/
theorem ofNat_inj {m n : ℕ} (hm : m < 2 ^ 32) (hn : n < 2 ^ 32) :
    Int32.ofNat m = Int32.ofNat n ↔ m = n := by
  constructor
  · intro h
    have hbits : m % 2 ^ 32 = n % 2 ^ 32 := congrArg (fun i : Int32 ↦ i.toBitVec.toNat) h
    rwa [Nat.mod_eq_of_lt hm, Nat.mod_eq_of_lt hn] at hbits
  · exact congrArg Int32.ofNat

universe u

variable {F : Type u}

/-- `KafkaConsumer`; the client of the broker asks for the topics that are `subscribed`. -/
structure KafkaConsumer (F : Type u) where
  notifiers : AList fun _ : String ↦ List (F × Int32) := ∅
  functionId : ℕ := 1
  topics : Finset String := ∅
  subscribed : Finset String := ∅

/-- What is done with a consumer. -/
inductive ConsumerInput (F : Type u)
  | register (topic : String) (f : F)
  | unregister (topic : String) (id : ℕ)
  /-- `run`, up to the dispatcher. -/
  | subscribe
  | deliver (msg : KafkaMessage)

namespace KafkaConsumer

variable (c : KafkaConsumer F)

/-- The watchers of a topic. -/
def notifyFunctions (topic : String) : List (F × Int32) := (c.notifiers.lookup topic).getD []

/-- `KafkaConsumer::RegisterTopicWatcher`. -/
def registerTopicWatcher (topic : String) (f : F) : ℕ × KafkaConsumer F :=
  let notifiers :=
    match c.notifiers.lookup topic with
    | none => c.notifiers.insert topic [(f, Int32.ofNat c.functionId)]
    | some fl => c.notifiers.insert topic (fl ++ [(f, Int32.ofNat c.functionId)])
  (c.functionId,
    { c with
      notifiers
      topics := insert topic c.topics
      functionId := (c.functionId + 1) % 2 ^ 64 })

/-- `KafkaConsumer::UnregisterTopicWatcher`. -/
def unregisterTopicWatcher (topic : String) (id : Int32) : KafkaConsumer F :=
  match c.notifiers.lookup topic with
  | none => c
  | some fl => { c with notifiers := c.notifiers.insert topic (fl.eraseP fun e ↦ e.2 = id) }

/-- The callback of the dispatcher: the functions that are called, and with what.  Whether one of
them throws makes no difference to the others. -/
def dispatch (msg : KafkaMessage) : List (F × String × String) :=
  match c.notifiers.lookup msg.topic with
  | none => []
  | some fl => fl.map fun e ↦ (e.1, msg.key, msg.payload)

/-- What is done with a consumer, and what it calls.  The broker delivers what was asked for. -/
def machine : Machine (KafkaConsumer F) (ConsumerInput F) (F × String × String) where
  next c
    | .register topic f => some ((c.registerTopicWatcher topic f).2, [])
    | .unregister topic id => some (c.unregisterTopicWatcher topic (Int32.ofNat id), [])
    | .subscribe => some ({ c with subscribed := c.topics }, [])
    | .deliver msg => if msg.topic ∈ c.subscribed then some (c, c.dispatch msg) else none

variable {c}

theorem dispatch_eq (msg : KafkaMessage) :
    c.dispatch msg = (c.notifyFunctions msg.topic).map fun e ↦ (e.1, msg.key, msg.payload) := by
  unfold dispatch notifyFunctions
  split
  next h => rw [h]; rfl
  next fl h => rw [h]; rfl

theorem notifyFunctions_register (topic t : String) (f : F) :
    (c.registerTopicWatcher topic f).2.notifyFunctions t =
      if t = topic then c.notifyFunctions topic ++ [(f, Int32.ofNat c.functionId)]
      else c.notifyFunctions t := by
  unfold registerTopicWatcher notifyFunctions
  by_cases ht : t = topic
  · subst ht
    cases c.notifiers.lookup t <;> simp
  · cases c.notifiers.lookup topic <;> simp [ht, AList.lookup_insert_ne]

theorem notifyFunctions_unregister (topic t : String) (id : Int32) :
    (c.unregisterTopicWatcher topic id).notifyFunctions t =
      if t = topic then (c.notifyFunctions topic).eraseP fun e ↦ e.2 = id
      else c.notifyFunctions t := by
  unfold unregisterTopicWatcher notifyFunctions
  by_cases ht : t = topic
  · subst ht
    cases h : c.notifiers.lookup t <;> simp [h]
  · cases c.notifiers.lookup topic <;> simp [ht, AList.lookup_insert_ne]

end KafkaConsumer

/-! ### The watchers there are -/

/-- A watcher and the number that it was given. -/
structure Watcher (F : Type u) where
  id : ℕ
  topic : String
  notify : F

/-- The watchers that are registered, in the order in which they came. -/
structure Watchers (F : Type u) where
  count : ℕ := 1
  live : List (Watcher F) := []

namespace Watchers

/-- What an input does to the watchers. -/
def after (ws : Watchers F) : ConsumerInput F → Watchers F
  | .register topic f => ⟨ws.count + 1, ws.live ++ [⟨ws.count, topic, f⟩]⟩
  | .unregister topic id =>
    { ws with live := ws.live.filter fun w ↦ ¬ (w.topic = topic ∧ w.id = id) }
  | .subscribe | .deliver _ => ws

/-- The watchers of a topic. -/
def of (ws : Watchers F) (topic : String) : List (Watcher F) := ws.live.filter (·.topic = topic)

/-- The watchers after some inputs. -/
def ofInputs (is : List (ConsumerInput F)) : Watchers F := is.foldl after {}

theorem of_register (ws : Watchers F) (topic t : String) (f : F) :
    (ws.after (.register topic f)).of t =
      if t = topic then ws.of topic ++ [⟨ws.count, topic, f⟩] else ws.of t := by
  by_cases ht : t = topic
  · subst ht
    simp [of, after]
  · simp [of, after, ht, Ne.symm ht]

theorem of_unregister (ws : Watchers F) (topic t : String) (id : ℕ) :
    (ws.after (.unregister topic id)).of t =
      if t = topic then (ws.of topic).filter (·.id ≠ id) else ws.of t := by
  unfold of after
  rw [List.filter_filter]
  split
  next ht =>
    subst ht
    rw [List.filter_filter]
    refine List.filter_congr fun w _ ↦ ?_
    by_cases hw : w.topic = t <;> simp [hw]
  next ht =>
    refine List.filter_congr fun w _ ↦ ?_
    by_cases hw : w.topic = t
    · simp [hw, ht]
    · simp [hw]

end Watchers

/-- How the list of a topic keeps a watcher. -/
def Watcher.entry (w : Watcher F) : F × Int32 := (w.notify, Int32.ofNat w.id)

@[simp] theorem Watcher.entry_snd (w : Watcher F) : w.entry.2 = Int32.ofNat w.id := rfl

/-- Taking the first entry with a number out is taking out the watcher with that number, as long as
the numbers are told apart as an `int`. -/
theorem eraseP_entry {l : List (Watcher F)} (hnodup : (l.map Watcher.id).Nodup)
    (hlt : ∀ w ∈ l, w.id < 2 ^ 32) {id : ℕ} (hid : id < 2 ^ 32) :
    ((l.map Watcher.entry).eraseP fun e ↦ e.2 = Int32.ofNat id) =
      (l.filter (·.id ≠ id)).map Watcher.entry := by
  induction l with
  | nil => rfl
  | cons w l ih =>
    obtain ⟨hw, hnodup⟩ := List.nodup_cons.mp hnodup
    have heq : (Watcher.entry w).2 = Int32.ofNat id ↔ w.id = id := by
      rw [Watcher.entry_snd, ofNat_inj (hlt w List.mem_cons_self) hid]
    by_cases h : w.id = id
    · have hrest : l.filter (·.id ≠ id) = l :=
        List.filter_eq_self.mpr fun v hv ↦
          decide_eq_true fun hvid ↦ hw (h.trans hvid.symm ▸ List.mem_map_of_mem hv)
      have herase := List.eraseP_cons_of_pos (p := fun e : F × Int32 ↦ e.2 = Int32.ofNat id)
        (l := l.map Watcher.entry) (decide_eq_true (heq.mpr h))
      rw [List.map_cons, herase, List.filter_cons_of_neg (by simpa using h), hrest]
    · have herase := List.eraseP_cons_of_neg (p := fun e : F × Int32 ↦ e.2 = Int32.ofNat id)
        (l := l.map Watcher.entry) fun hp ↦ h (heq.mp (of_decide_eq_true hp))
      rw [List.map_cons, herase, List.filter_cons_of_pos (by simpa using h), List.map_cons,
        ih hnodup fun v hv ↦ hlt v (List.mem_cons_of_mem w hv)]

namespace KafkaConsumer

variable {c : KafkaConsumer F} {ws : Watchers F}

/-- The consumer has the watchers there are. -/
structure Refines (c : KafkaConsumer F) (ws : Watchers F) : Prop where
  count : c.functionId = ws.count
  le : ws.count ≤ 2 ^ 32
  lt : ∀ w ∈ ws.live, w.id < ws.count
  nodup : (ws.live.map Watcher.id).Nodup
  functions : ∀ topic, c.notifyFunctions topic = (ws.of topic).map Watcher.entry

/-- There are numbers left, and nobody gives a number back that was not given out. -/
def Orderly (c : KafkaConsumer F) : ConsumerInput F → Prop
  | .register _ _ => c.functionId < 2 ^ 32
  | .unregister _ id => id < c.functionId
  | .subscribe | .deliver _ => True

theorem Refines.register (h : c.Refines ws) {topic : String} {f : F}
    (hcount : c.functionId < 2 ^ 32) :
    (c.registerTopicWatcher topic f).2.Refines (ws.after (.register topic f)) where
  count := by
    have hmod : (c.functionId + 1) % 2 ^ 64 = c.functionId + 1 := Nat.mod_eq_of_lt (by omega)
    exact hmod.trans (congrArg (· + 1) h.count)
  le := Nat.succ_le_of_lt (h.count.symm.trans_lt hcount)
  lt := by
    intro w hw
    rcases List.mem_append.mp hw with hw | hw
    · exact Nat.lt_succ_of_lt (h.lt w hw)
    · rw [List.mem_singleton.mp hw]
      exact Nat.lt_succ_self _
  nodup := by
    change ((ws.live ++ [_]).map Watcher.id).Nodup
    rw [List.map_append, List.nodup_append]
    refine ⟨h.nodup, List.nodup_singleton _, fun i hi j hj ↦ ?_⟩
    obtain ⟨w, hw, rfl⟩ := List.mem_map.mp hi
    rw [List.mem_singleton.mp hj]
    exact (h.lt w hw).ne
  functions t := by
    rw [notifyFunctions_register, Watchers.of_register]
    split
    · rw [List.map_append, h.functions, h.count]
      rfl
    · exact h.functions t

theorem Refines.unregister (h : c.Refines ws) {topic : String} {id : ℕ}
    (hid : id < c.functionId) :
    (c.unregisterTopicWatcher topic (.ofNat id)).Refines (ws.after (.unregister topic id)) where
  count := by
    have hsame : (c.unregisterTopicWatcher topic (Int32.ofNat id)).functionId = c.functionId := by
      unfold unregisterTopicWatcher
      split <;> rfl
    exact hsame.trans h.count
  le := h.le
  lt w hw := h.lt w (List.mem_of_mem_filter hw)
  nodup := h.nodup.sublist (List.filter_sublist.map Watcher.id)
  functions t := by
    have hlt : ∀ w ∈ ws.of topic, w.id < 2 ^ 32 := fun w hw ↦
      (h.lt w (List.mem_of_mem_filter hw)).trans_le h.le
    have hnodup : ((ws.of topic).map Watcher.id).Nodup :=
      h.nodup.sublist (List.filter_sublist.map Watcher.id)
    rw [notifyFunctions_unregister, Watchers.of_unregister]
    split
    · rw [h.functions, eraseP_entry hnodup hlt (hid.trans_le (h.count ▸ h.le))]
    · exact h.functions t

/-- The watchers are those of the inputs. -/
theorem refines {is : List (ConsumerInput F)} {os : List (F × String × String)}
    (h : machine.History Orderly {} is os c) : c.Refines (.ofInputs is) := by
  refine h.invariant (I := fun is _ c ↦ c.Refines (.ofInputs is)) ?_ ?_
  · exact ⟨rfl, Nat.one_le_two_pow, nofun, List.nodup_nil, fun _ ↦ rfl⟩
  · intro is os c i c' out hrefines hok hnext
    have hafter : Watchers.ofInputs (is ++ [i]) = (Watchers.ofInputs is).after i :=
      List.foldl_append
    rw [hafter]
    cases i with
    | register topic f =>
      cases hnext
      exact hrefines.register hok
    | unregister topic id =>
      cases hnext
      exact hrefines.unregister hok
    | subscribe =>
      cases hnext
      exact ⟨hrefines.count, hrefines.le, hrefines.lt, hrefines.nodup, hrefines.functions⟩
    | deliver msg =>
      change (if msg.topic ∈ c.subscribed then some (c, c.dispatch msg) else none) = _ at hnext
      split at hnext
      · cases hnext
        exact hrefines
      · cases hnext

/-- A message calls the watchers of its topic that have been registered and not been taken out
again, each once and in the order in which they came. -/
theorem watchers_called {is : List (ConsumerInput F)} {os : List (F × String × String)}
    (h : machine.History Orderly {} is os c) (msg : KafkaMessage) :
    c.dispatch msg =
      ((Watchers.ofInputs is).of msg.topic).map fun w ↦ (w.notify, msg.key, msg.payload) := by
  rw [dispatch_eq, (refines h).functions, List.map_map]
  rfl

/-- Of two watchers the first has been taken out. -/
theorem watchers_called_sample :
    let c := (({} : KafkaConsumer String).registerTopicWatcher "service_events" "first").2
    let c' := (c.registerTopicWatcher "service_events" "second").2
    (c'.unregisterTopicWatcher "service_events" (.ofNat 1)).dispatch
      ⟨"service_events", "sec", "join"⟩ = [("second", "sec", "join")] := by
  have h : machine.History Orderly {} ([] ++ [.register "service_events" "first"] ++
      [.register "service_events" "second"] ++ [.unregister "service_events" 1]) _ _ :=
    .snoc (.snoc (.snoc .nil (by decide : 1 < 2 ^ 32) rfl) (by decide : 2 < 2 ^ 32) rfl)
      (by decide : 1 < 3) rfl
  exact watchers_called h _

end KafkaConsumer

end OwSec
