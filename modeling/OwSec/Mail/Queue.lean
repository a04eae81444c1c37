import OwSec.Kit.Run
import OwSec.Mail.Messages

/-!
# The mail queue

`SMTPMailerService` (`SMTPMailerService.cpp`) takes messages into a list of pending ones.  Every few
seconds its thread moves these behind the active ones and visits each active message in turn: one
that is due is handed to `SendIt`, and one that was posted too long ago is abandoned.

Whether a message is due is asked first.  So a message that is both due and too old is tried once
more, after the time at which it should have been given up.
-/

namespace OwSec

open Kit

/-- `MessageSendStatus`. -/
inductive MessageSendStatus
  | msg_sent
  | msg_not_sent_but_resend
  | msg_not_sent_but_do_not_resend
  deriving DecidableEq

/-- `SMTPMailerService::MessageEvent`. -/
structure MessageEvent extends MailMessage where
  posted : ℕ := 0
  lastTry : ℕ := 0
  sent : ℕ := 0

/-- A message in one of the lists, with its number in the order of posting. -/
structure QueuedMessage extends MessageEvent where
  number : ℕ

/-- A call of `SendMessage`. -/
structure MailPost where
  now : ℕ
  message : MailMessage

/-- A call of `SendIt` for a message, and its result. -/
structure MailAttempt where
  number : ℕ
  now : ℕ
  status : MessageSendStatus
  deriving DecidableEq

/-- How a message leaves the lists. -/
inductive MailEnding
  | sent
  | refused
  | abandoned (now : ℕ)
  deriving DecidableEq

/-- The lists of the mailer and the history.  During a pass the iterator stands between the active
messages that were visited and those still to do. -/
structure MailQueue where
  clock : ℕ
  /-- `PendingMessages_`. -/
  pending : List QueuedMessage := []
  /-- `Messages_`, before the iterator. -/
  visited : List QueuedMessage := []
  /-- `Messages_`, from the iterator on. -/
  todo : List QueuedMessage := []
  /-- The calls of `SendMessage`, in their order. -/
  posts : List MailPost := []
  /-- The calls of `SendIt`, the latest first. -/
  attempts : List MailAttempt := []
  /-- The messages that were erased, by number. -/
  finished : List (ℕ × MailEnding) := []

/-- What happens to the queue. -/
inductive MailEvent
  | sendMessage (now : ℕ) (message : MailMessage)
  /-- The pending messages are moved, and the iterator is set to the first message. -/
  | beginPass
  /-- The message at the iterator is visited; `status` is what `SendIt` would answer. -/
  | visit (now : ℕ) (status : MessageSendStatus)
  /-- The thread is stopped, and leaves the loop. -/
  | stop

namespace MailQueue

/-- `SMTPMailerService::SendMessage`. -/
def sendMessage (s : MailQueue) (now : ℕ) (message : MailMessage) : MailQueue :=
  { s with
    clock := now
    posts := s.posts ++ [⟨now, message⟩]
    pending := s.pending ++
      [{ message with posted := now, lastTry := 0, sent := 0, number := s.posts.length }] }

/-- The splice before the loop of `SMTPMailerService::run`. -/
def beginPass (s : MailQueue) : MailQueue :=
  { s with pending := [], visited := [], todo := s.visited ++ s.todo ++ s.pending }

/-- The loop is left. -/
def stop (s : MailQueue) : MailQueue :=
  { s with visited := s.visited ++ s.todo, todo := [] }

section Pass

variable (mailRetry mailAbandon : ℕ)

/-- The condition of the loop for an attempt. -/
def Due (m : MessageEvent) (now : ℕ) : Prop := m.lastTry = 0 ∨ mailRetry < now - m.lastTry

instance (m : MessageEvent) (now : ℕ) : Decidable (Due mailRetry m now) :=
  inferInstanceAs (Decidable (_ ∨ _))

/-- An attempt for the message at the iterator, with the rest behind it. -/
def attempt (s : MailQueue) (now : ℕ) (status : MessageSendStatus) (m : QueuedMessage)
    (rest : List QueuedMessage) : MailQueue :=
  let s := { s with
    clock := now
    todo := rest
    attempts := ⟨m.number, now, status⟩ :: s.attempts }
  match status with
  | .msg_sent => { s with finished := (m.number, .sent) :: s.finished }
  | .msg_not_sent_but_resend => { s with visited := s.visited ++ [{ m with lastTry := now }] }
  | .msg_not_sent_but_do_not_resend => { s with finished := (m.number, .refused) :: s.finished }

/-- The body of the loop of `SMTPMailerService::run`. -/
def visit (s : MailQueue) (now : ℕ) (status : MessageSendStatus) : MailQueue :=
  match s.todo with
  | [] => s
  | m :: rest =>
    if Due mailRetry m.toMessageEvent now then s.attempt now status m rest
    else if mailAbandon < now - m.posted then
      { s with
        clock := now
        todo := rest
        finished := (m.number, .abandoned now) :: s.finished }
    else { s with clock := now, todo := rest, visited := s.visited ++ [m] }

/-- One step; the clock does not go back, and a message has a recipient, which the loop reads
without looking whether there is one. -/
inductive Step : MailQueue → MailEvent → MailQueue → Prop
  | sendMessage {s : MailQueue} {now : ℕ} (message : MailMessage) (h : s.clock ≤ now)
    (hrecipient : message.attrs .RECIPIENT_EMAIL ≠ none) :
    Step s (.sendMessage now message) (s.sendMessage now message)
  | beginPass {s : MailQueue} (h : s.todo = []) : Step s .beginPass s.beginPass
  | visit {s : MailQueue} {now : ℕ} (status : MessageSendStatus) (h : s.clock ≤ now) :
    Step s (.visit now status) (s.visit mailRetry mailAbandon now status)
  | stop {s : MailQueue} : Step s .stop s.stop

/-- Runs start with empty lists. -/
def system : System MailQueue MailEvent where
  init s := ∃ clock, s = { clock := clock }
  step := Step mailRetry mailAbandon

end Pass

/-- The active messages. -/
def active (s : MailQueue) : List QueuedMessage := s.visited ++ s.todo

/-- The places of a message in a list. -/
def places (l : List QueuedMessage) (n : ℕ) : ℕ := (l.map (·.number)).count n

/-! ## The law -/

/-- The message that an entry of the lists stands for was posted, and the entry is as it was then,
but for the time of the last attempt. -/
def Carries (s : MailQueue) (m : QueuedMessage) : Prop :=
  ∃ post, s.posts[m.number]? = some post ∧
    m.toMailMessage = post.message ∧ m.posted = post.now ∧ m.sent = 0

/-- What is true of a message that left the lists. -/
def Ends (mailAbandon : ℕ) (s : MailQueue) (n : ℕ) : MailEnding → Prop
  | .sent => ∃ a ∈ s.attempts, a.number = n ∧ a.status = .msg_sent
  | .refused => ∃ a ∈ s.attempts, a.number = n ∧ a.status = .msg_not_sent_but_do_not_resend
  | .abandoned now => ∃ post, s.posts[n]? = some post ∧ mailAbandon < now - post.now

/-- What holds of the queue whenever the messages are visited. -/
structure Conserves (mailAbandon : ℕ) (s : MailQueue) : Prop where
  /-- Each message that was posted is pending, active or finished, and only one of them. -/
  places : ∀ n, places s.pending n + places s.active n + (s.finished.map Prod.fst).count n =
    if n < s.posts.length then 1 else 0
  /-- No message is changed. -/
  carries : ∀ m ∈ s.pending ++ s.active, s.Carries m
  /-- A message finishes in one of three ways. -/
  ends : ∀ f ∈ s.finished, s.Ends mailAbandon f.1 f.2

/-- What the mailer promises. -/
structure QueueLaw (mailRetry mailAbandon : ℕ) (s : MailQueue) : Prop
    extends Conserves mailAbandon s where
  /-- Two attempts for a message are further apart than the time of a retry. -/
  retries : s.attempts.Pairwise fun later earlier ↦
    later.number = earlier.number → earlier.now + mailRetry < later.now
  /-- No attempt comes after the time of abandoning. -/
  inTime : ∀ a ∈ s.attempts, ∃ post, s.posts[a.number]? = some post ∧
    a.now ≤ post.now + mailAbandon

/-- The condition on a visit: the clock is not at zero, and a message that was posted too long ago
was tried before, and not longer ago than the time of a retry. -/
def Timely (mailRetry mailAbandon : ℕ) (s : MailQueue) : MailEvent → Prop
  | .visit now _ => 0 < now ∧ ∀ m ∈ s.todo.head?, mailAbandon < now - m.posted →
      m.lastTry ≠ 0 ∧ now - m.lastTry ≤ mailRetry
  | _ => True

/-! ## Places -/

section Places

variable {l l' : List QueuedMessage} {m : QueuedMessage} {n : ℕ}

@[simp] theorem places_nil (n : ℕ) : places [] n = 0 := rfl

@[simp] theorem places_cons (m : QueuedMessage) (l : List QueuedMessage) (n : ℕ) :
    places (m :: l) n = places l n + if m.number = n then 1 else 0 := by
  unfold places
  rw [List.map_cons, List.count_cons]
  simp only [beq_iff_eq]

@[simp] theorem places_append (l l' : List QueuedMessage) (n : ℕ) :
    places (l ++ l') n = places l n + places l' n := by
  unfold places
  rw [List.map_append, List.count_append]

theorem places_pos (h : m ∈ l) : 0 < places l m.number :=
  List.count_pos_iff.mpr (List.mem_map_of_mem h)

end Places

/-! ## Every run -/

/-- The history of `s` is part of that of `s'`. -/
structure Extends (s s' : MailQueue) : Prop where
  posts : ∀ (n : ℕ) (post : MailPost), s.posts[n]? = some post → s'.posts[n]? = some post
  attempts : ∀ a ∈ s.attempts, a ∈ s'.attempts

section Extends

variable {s s' : MailQueue}

theorem Carries.mono {m : QueuedMessage} (h : s.Carries m) (he : Extends s s') :
    s'.Carries m := by
  obtain ⟨post, hpost, hm⟩ := h
  exact ⟨post, he.posts _ _ hpost, hm⟩

theorem Ends.mono {mailAbandon n : ℕ} {e : MailEnding} (h : s.Ends mailAbandon n e)
    (he : Extends s s') : s'.Ends mailAbandon n e := by
  cases e with
  | sent =>
    obtain ⟨a, ha, hnumber⟩ := h
    exact ⟨a, he.attempts a ha, hnumber⟩
  | refused =>
    obtain ⟨a, ha, hnumber⟩ := h
    exact ⟨a, he.attempts a ha, hnumber⟩
  | abandoned now =>
    obtain ⟨post, hpost, hold⟩ := h
    exact ⟨post, he.posts _ _ hpost, hold⟩

end Extends

section Conserves

variable {mailRetry mailAbandon : ℕ} {s s' : MailQueue}

theorem Conserves.sendMessage (h : Conserves mailAbandon s) (now : ℕ) (message : MailMessage) :
    Conserves mailAbandon (s.sendMessage now message) := by
  have he : Extends s (s.sendMessage now message) := by
    refine ⟨fun n post hpost ↦ ?_, fun a ha ↦ ha⟩
    exact (List.getElem?_append_left (List.getElem?_eq_some_iff.mp hpost).1).trans hpost
  constructor
  case places =>
    intro n
    have hn := h.places n
    unfold MailQueue.sendMessage active at *
    simp only [places_append, places_cons, places_nil, List.length_append, List.length_singleton]
      at hn ⊢
    split_ifs at hn ⊢ <;> omega
  case carries =>
    intro m hm
    unfold MailQueue.sendMessage active at hm
    rw [List.append_assoc, List.mem_append, List.mem_append] at hm
    rcases hm with hm | hm | hm
    · exact (h.carries m (List.mem_append_left _ hm)).mono he
    · obtain rfl := List.mem_singleton.mp hm
      exact ⟨⟨now, message⟩, List.getElem?_concat_length, rfl, rfl, rfl⟩
    · exact (h.carries m (List.mem_append_right _ hm)).mono he
  case ends => exact fun f hf ↦ (h.ends f hf).mono he

/-- The messages are put in other lists. -/
theorem Conserves.rearrange (h : Conserves mailAbandon s) (hposts : s'.posts = s.posts)
    (hattempts : s'.attempts = s.attempts) (hfinished : s'.finished = s.finished)
    (hlists : (s'.pending ++ s'.active).Perm (s.pending ++ s.active)) :
    Conserves mailAbandon s' := by
  have he : Extends s s' := ⟨fun n post hpost ↦ hposts ▸ hpost, fun a ha ↦ hattempts ▸ ha⟩
  constructor
  case places =>
    intro n
    have hcount := (hlists.map (·.number)).count_eq n
    have hn := h.places n
    change MailQueue.places (s'.pending ++ s'.active) n =
      MailQueue.places (s.pending ++ s.active) n at hcount
    rw [places_append, places_append] at hcount
    rw [hposts, hfinished, hcount, hn]
  case carries => exact fun m hm ↦ (h.carries m (hlists.mem_iff.mp hm)).mono he
  case ends => exact fun f hf ↦ (h.ends f (hfinished ▸ hf)).mono he

/-- The message at the iterator is passed, with nothing but the time of its last attempt changed. -/
theorem Conserves.pass (h : Conserves mailAbandon s) {m : QueuedMessage}
    {rest : List QueuedMessage} (m' : QueuedMessage) (htodo : s.todo = m :: rest) (hnumber : m'.number = m.number)
    (hcarries : s.Carries m → s.Carries m') (hposts : s'.posts = s.posts)
    (hattempts : ∀ a ∈ s.attempts, a ∈ s'.attempts) (hfinished : s'.finished = s.finished)
    (hpending : s'.pending = s.pending) (hvisited : s'.visited = s.visited ++ [m'])
    (htodo' : s'.todo = rest) : Conserves mailAbandon s' := by
  have he : Extends s s' := ⟨fun n post hpost ↦ hposts ▸ hpost, hattempts⟩
  constructor
  case places =>
    intro n
    have hn := h.places n
    unfold active at hn ⊢
    rw [htodo] at hn
    rw [hposts, hfinished, hpending, hvisited, htodo']
    simp only [places_append, places_cons, places_nil, hnumber] at hn ⊢
    omega
  case carries =>
    intro x hx
    unfold active at hx
    rw [hpending, hvisited, htodo'] at hx
    have hm : m ∈ s.pending ++ s.active := by
      unfold active
      rw [htodo]
      simp
    by_cases hx' : x = m'
    · rw [hx']
      exact (hcarries (h.carries m hm)).mono he
    · refine (h.carries x ?_).mono he
      unfold active
      rw [htodo]
      simp only [List.mem_append, List.mem_cons] at hx ⊢
      tauto
  case ends => exact fun f hf ↦ (h.ends f (hfinished ▸ hf)).mono he

/-- The message at the iterator is erased. -/
theorem Conserves.erase (h : Conserves mailAbandon s) {m : QueuedMessage}
    {rest : List QueuedMessage} (e : MailEnding) (htodo : s.todo = m :: rest)
    (hends : s'.Ends mailAbandon m.number e) (hposts : s'.posts = s.posts)
    (hattempts : ∀ a ∈ s.attempts, a ∈ s'.attempts)
    (hfinished : s'.finished = (m.number, e) :: s.finished) (hpending : s'.pending = s.pending)
    (hvisited : s'.visited = s.visited) (htodo' : s'.todo = rest) : Conserves mailAbandon s' := by
  have he : Extends s s' := ⟨fun n post hpost ↦ hposts ▸ hpost, hattempts⟩
  constructor
  case places =>
    intro n
    have hn := h.places n
    unfold active at hn ⊢
    rw [htodo] at hn
    rw [hposts, hfinished, hpending, hvisited, htodo']
    simp only [places_append, places_cons, List.map_cons, List.count_cons, beq_iff_eq] at hn ⊢
    omega
  case carries =>
    intro x hx
    unfold active at hx
    rw [hpending, hvisited, htodo'] at hx
    refine (h.carries x ?_).mono he
    unfold active
    rw [htodo]
    simp only [List.mem_append, List.mem_cons] at hx ⊢
    tauto
  case ends =>
    intro f hf
    rw [hfinished] at hf
    rcases List.mem_cons.mp hf with rfl | hf
    · exact hends
    · exact (h.ends f hf).mono he

/-- What a visit does to the message at the iterator. -/
theorem visit_cases {m : QueuedMessage} {rest : List QueuedMessage} (htodo : s.todo = m :: rest)
    (now : ℕ) (status : MessageSendStatus) :
    (Due mailRetry m.toMessageEvent now ∧
      s.visit mailRetry mailAbandon now status = s.attempt now status m rest) ∨
    (¬ Due mailRetry m.toMessageEvent now ∧ mailAbandon < now - m.posted ∧
      s.visit mailRetry mailAbandon now status =
        { s with
          clock := now
          todo := rest
          finished := (m.number, .abandoned now) :: s.finished }) ∨
    (¬ Due mailRetry m.toMessageEvent now ∧ now - m.posted ≤ mailAbandon ∧
      s.visit mailRetry mailAbandon now status =
        { s with clock := now, todo := rest, visited := s.visited ++ [m] }) := by
  unfold visit
  rw [htodo]
  simp only
  by_cases hdue : Due mailRetry m.toMessageEvent now
  · exact .inl ⟨hdue, if_pos hdue⟩
  · rw [if_neg hdue]
    by_cases hold : mailAbandon < now - m.posted
    · exact .inr (.inl ⟨hdue, hold, if_pos hold⟩)
    · exact .inr (.inr ⟨hdue, Nat.not_lt.mp hold, if_neg hold⟩)

theorem Conserves.attempt (h : Conserves mailAbandon s) {m : QueuedMessage}
    {rest : List QueuedMessage} (htodo : s.todo = m :: rest) (now : ℕ)
    (status : MessageSendStatus) : Conserves mailAbandon (s.attempt now status m rest) := by
  cases status with
  | msg_sent =>
    exact h.erase .sent htodo ⟨⟨m.number, now, .msg_sent⟩, List.mem_cons_self, rfl, rfl⟩ rfl
      (fun a ha ↦ List.mem_cons_of_mem _ ha) rfl rfl rfl rfl
  | msg_not_sent_but_resend =>
    exact h.pass { m with lastTry := now } htodo rfl id rfl
      (fun a ha ↦ List.mem_cons_of_mem _ ha) rfl rfl rfl rfl
  | msg_not_sent_but_do_not_resend =>
    exact h.erase .refused htodo
      ⟨⟨m.number, now, .msg_not_sent_but_do_not_resend⟩, List.mem_cons_self, rfl, rfl⟩ rfl
      (fun a ha ↦ List.mem_cons_of_mem _ ha) rfl rfl rfl rfl

theorem Conserves.visit (h : Conserves mailAbandon s) (now : ℕ) (status : MessageSendStatus) :
    Conserves mailAbandon (s.visit mailRetry mailAbandon now status) := by
  cases htodo : s.todo with
  | nil =>
    unfold MailQueue.visit
    rw [htodo]
    exact h
  | cons m rest =>
    have hm : m ∈ s.pending ++ s.active := by
      unfold active
      rw [htodo]
      simp
    rcases visit_cases htodo now status with ⟨-, hvisit⟩ | ⟨-, hold, hvisit⟩ | ⟨-, -, hvisit⟩
    · exact hvisit ▸ h.attempt htodo now status
    · obtain ⟨post, hpost, -, hposted, -⟩ := h.carries m hm
      rw [hvisit]
      exact h.erase (.abandoned now) htodo ⟨post, hpost, hposted ▸ hold⟩ rfl (fun a ha ↦ ha) rfl
        rfl rfl rfl
    · rw [hvisit]
      exact h.pass m htodo rfl id rfl (fun a ha ↦ ha) rfl rfl rfl rfl

/-- No step loses a message, or has it twice. -/
theorem Conserves.step {e : MailEvent} (h : Conserves mailAbandon s)
    (hstep : Step mailRetry mailAbandon s e s') : Conserves mailAbandon s' := by
  cases hstep with
  | sendMessage message _ _ => exact h.sendMessage _ message
  | beginPass _ =>
    refine h.rearrange rfl rfl rfl ?_
    change (s.visited ++ s.todo ++ s.pending).Perm (s.pending ++ (s.visited ++ s.todo))
    exact List.perm_append_comm
  | visit status _ => exact h.visit _ status
  | stop =>
    refine h.rearrange rfl rfl rfl ?_
    unfold MailQueue.stop active
    rw [List.append_nil]

theorem conserves_empty (clock : ℕ) : Conserves mailAbandon { clock := clock } := by
  constructor
  case places => exact fun n ↦ (if_neg (Nat.not_lt_zero n)).symm
  case carries => exact fun m hm ↦ absurd hm List.not_mem_nil
  case ends => exact fun f hf ↦ absurd hf List.not_mem_nil

/-- Whenever the messages are visited, none is lost and none is there twice. -/
theorem conserves_of_reachable (h : (system mailRetry mailAbandon).Reachable s) :
    Conserves mailAbandon s := by
  refine h.invariant (I := Conserves mailAbandon) ?_ fun s e s' hs hstep ↦ hs.step hstep
  rintro s ⟨clock, rfl⟩
  exact conserves_empty clock

end Conserves

/-! ## Timely runs -/

/-- What the attempts have to do with the entries of the lists. -/
structure Timing (mailRetry mailAbandon : ℕ) (s : MailQueue) : Prop
    extends QueueLaw mailRetry mailAbandon s where
  /-- The attempts are over. -/
  past : ∀ a ∈ s.attempts, a.now ≤ s.clock
  /-- An entry has the time of the last attempt. -/
  lastTry : ∀ m ∈ s.pending ++ s.active, ∀ a ∈ s.attempts, a.number = m.number →
    m.lastTry ≠ 0 ∧ a.now ≤ m.lastTry

section Timing

variable {mailRetry mailAbandon : ℕ} {s s' : MailQueue}

/-- Nothing is attempted and nothing new is in the lists. -/
theorem Timing.quiet (h : Timing mailRetry mailAbandon s) (hconserves : Conserves mailAbandon s')
    (hposts : s'.posts = s.posts) (hattempts : s'.attempts = s.attempts)
    (hclock : s.clock ≤ s'.clock)
    (hlists : ∀ m ∈ s'.pending ++ s'.active, m ∈ s.pending ++ s.active) :
    Timing mailRetry mailAbandon s' where
  toConserves := hconserves
  retries := hattempts ▸ h.retries
  inTime a ha := hposts ▸ h.inTime a (hattempts ▸ ha)
  past a ha := (h.past a (hattempts ▸ ha)).trans hclock
  lastTry m hm a ha := h.lastTry m (hlists m hm) a (hattempts ▸ ha)

theorem Timing.sendMessage (h : Timing mailRetry mailAbandon s) {now : ℕ} (hnow : s.clock ≤ now)
    (message : MailMessage) : Timing mailRetry mailAbandon (s.sendMessage now message) where
  toConserves := h.toConserves.sendMessage now message
  retries := h.retries
  inTime a ha := by
    obtain ⟨post, hpost, htime⟩ := h.inTime a ha
    refine ⟨post, ?_, htime⟩
    exact (List.getElem?_append_left (List.getElem?_eq_some_iff.mp hpost).1).trans hpost
  past a ha := (h.past a ha).trans hnow
  lastTry m hm a ha hnumber := by
    unfold MailQueue.sendMessage active at hm
    rw [List.append_assoc, List.mem_append, List.mem_append] at hm
    rcases hm with hm | hm | hm
    · exact h.lastTry m (List.mem_append_left _ hm) a ha hnumber
    · -- An attempt is one for a message that was posted before.
      obtain ⟨post, hpost, -⟩ := h.inTime a ha
      have hlt : a.number < s.posts.length := (List.getElem?_eq_some_iff.mp hpost).1
      rw [hnumber, List.mem_singleton.mp hm] at hlt
      exact absurd hlt (Nat.lt_irrefl _)
    · exact h.lastTry m (List.mem_append_right _ hm) a ha hnumber

/-- The message at the iterator is in no other place. -/
theorem number_ne (h : Conserves mailAbandon s) {m x : QueuedMessage} {rest : List QueuedMessage}
    (htodo : s.todo = m :: rest) (hx : x ∈ s.pending ++ (s.visited ++ rest)) :
    x.number ≠ m.number := by
  intro heq
  have hplaces := h.places m.number
  have hpos := places_pos hx
  unfold active at hplaces
  rw [htodo] at hplaces
  rw [heq] at hpos
  simp only [places_append, places_cons, if_true] at hplaces hpos
  split at hplaces <;> omega

/-- What is in the lists after an attempt. -/
theorem mem_attempt {now : ℕ} {status : MessageSendStatus} {m x : QueuedMessage}
    {rest : List QueuedMessage}
    (hx : x ∈ (s.attempt now status m rest).pending ++ (s.attempt now status m rest).active) :
    x = { m with lastTry := now } ∨ x ∈ s.pending ++ (s.visited ++ rest) := by
  cases status with
  | msg_sent => exact .inr hx
  | msg_not_sent_but_resend =>
    unfold MailQueue.attempt active at hx
    simp only [List.mem_append, List.mem_singleton] at hx ⊢
    tauto
  | msg_not_sent_but_do_not_resend => exact .inr hx

theorem attempts_attempt (now : ℕ) (status : MessageSendStatus) (m : QueuedMessage)
    (rest : List QueuedMessage) :
    (s.attempt now status m rest).attempts = ⟨m.number, now, status⟩ :: s.attempts := by
  cases status <;> rfl

theorem posts_attempt (now : ℕ) (status : MessageSendStatus) (m : QueuedMessage)
    (rest : List QueuedMessage) : (s.attempt now status m rest).posts = s.posts := by
  cases status <;> rfl

theorem clock_attempt (now : ℕ) (status : MessageSendStatus) (m : QueuedMessage)
    (rest : List QueuedMessage) : (s.attempt now status m rest).clock = now := by
  cases status <;> rfl

/-- An attempt for a message that is due and not too old. -/
theorem Timing.attempt (h : Timing mailRetry mailAbandon s) {m : QueuedMessage}
    {rest : List QueuedMessage} (htodo : s.todo = m :: rest) {now : ℕ} (hnow : s.clock ≤ now)
    (hpos : 0 < now) (hdue : Due mailRetry m.toMessageEvent now)
    (hyoung : now - m.posted ≤ mailAbandon) (status : MessageSendStatus) :
    Timing mailRetry mailAbandon (s.attempt now status m rest) := by
  have hm : m ∈ s.pending ++ s.active := by
    unfold active
    rw [htodo]
    simp
  constructor
  case past =>
    intro a ha
    rw [attempts_attempt] at ha
    rw [clock_attempt]
    rcases List.mem_cons.mp ha with rfl | ha
    · exact Nat.le_refl now
    · exact (h.past a ha).trans hnow
  case lastTry =>
    intro x hx a ha hnumber
    rw [attempts_attempt] at ha
    rcases mem_attempt hx with rfl | hx
    · refine ⟨Nat.ne_of_gt hpos, ?_⟩
      rcases List.mem_cons.mp ha with rfl | ha
      · exact Nat.le_refl now
      · exact (h.past a ha).trans hnow
    · have hne := number_ne h.toConserves htodo hx
      rcases List.mem_cons.mp ha with rfl | ha
      · exact absurd hnumber.symm hne
      · refine h.lastTry x ?_ a ha hnumber
        unfold active
        rw [htodo]
        simp only [List.mem_append, List.mem_cons] at hx ⊢
        tauto
  case toQueueLaw =>
    constructor
    case toConserves => exact h.toConserves.attempt htodo now status
    case retries =>
      rw [attempts_attempt, List.pairwise_cons]
      refine ⟨fun a ha hnumber ↦ ?_, h.retries⟩
      obtain ⟨hzero, hlast⟩ := h.lastTry m hm a ha hnumber.symm
      have hwait := hdue.resolve_left hzero
      simp only
      omega
    case inTime =>
      intro a ha
      rw [attempts_attempt] at ha
      rw [posts_attempt]
      rcases List.mem_cons.mp ha with rfl | ha
      · obtain ⟨post, hpost, -, hposted, -⟩ := h.carries m hm
        refine ⟨post, hpost, ?_⟩
        simp only
        omega
      · exact h.inTime a ha

theorem Timing.visit (h : Timing mailRetry mailAbandon s) {now : ℕ} (hnow : s.clock ≤ now)
    (status : MessageSendStatus)
    (hok : Timely mailRetry mailAbandon s (.visit now status)) :
    Timing mailRetry mailAbandon (s.visit mailRetry mailAbandon now status) := by
  have hconserves : Conserves mailAbandon (s.visit mailRetry mailAbandon now status) :=
    h.toConserves.visit now status
  cases htodo : s.todo with
  | nil =>
    unfold MailQueue.visit
    rw [htodo]
    exact h
  | cons m rest =>
    obtain ⟨hpos, hold⟩ := hok
    rcases visit_cases htodo now status with ⟨hdue, hvisit⟩ | ⟨-, -, hvisit⟩ | ⟨-, -, hvisit⟩
    · have hyoung : now - m.posted ≤ mailAbandon := by
        by_contra hlate
        obtain ⟨hzero, hwait⟩ := hold m (by rw [htodo]; rfl) (Nat.not_le.mp hlate)
        exact absurd (hdue.resolve_left hzero) (Nat.not_lt.mpr hwait)
      exact hvisit ▸ h.attempt htodo hnow hpos hdue hyoung status
    · rw [hvisit] at hconserves ⊢
      refine h.quiet hconserves rfl rfl hnow fun x hx ↦ ?_
      unfold active at hx ⊢
      rw [htodo]
      simp only [List.mem_append, List.mem_cons] at hx ⊢
      tauto
    · rw [hvisit] at hconserves ⊢
      refine h.quiet hconserves rfl rfl hnow fun x hx ↦ ?_
      unfold active at hx ⊢
      rw [List.append_assoc, List.singleton_append] at hx
      rwa [htodo]

/-- A step that is timely. -/
theorem Timing.step {e : MailEvent} (h : Timing mailRetry mailAbandon s)
    (hstep : Step mailRetry mailAbandon s e s') (hok : Timely mailRetry mailAbandon s e) :
    Timing mailRetry mailAbandon s' := by
  have hconserves := h.toConserves.step hstep
  cases hstep with
  | sendMessage message hnow _ => exact h.sendMessage hnow message
  | beginPass htodo =>
    refine h.quiet hconserves rfl rfl (Nat.le_refl _) fun m hm ↦ ?_
    change m ∈ s.visited ++ s.todo ++ s.pending at hm
    exact List.perm_append_comm.mem_iff.mp hm
  | visit status hnow => exact h.visit hnow status hok
  | stop =>
    refine h.quiet hconserves rfl rfl (Nat.le_refl _) fun m hm ↦ ?_
    change m ∈ s.pending ++ (s.visited ++ s.todo ++ []) at hm
    rwa [List.append_nil] at hm

theorem timing_empty (clock : ℕ) : Timing mailRetry mailAbandon { clock := clock } where
  toConserves := conserves_empty clock
  retries := .nil
  inTime _ ha := absurd ha List.not_mem_nil
  past _ ha := absurd ha List.not_mem_nil
  lastTry _ _ _ ha := absurd ha List.not_mem_nil

end Timing

/-- The mailer keeps what it promises, as long as no message is due when it is visited too late. -/
theorem queueLaw_of_timely {mailRetry mailAbandon : ℕ} {s : MailQueue}
    (h : ((system mailRetry mailAbandon).restrict (Timely mailRetry mailAbandon)).Reachable s) :
    QueueLaw mailRetry mailAbandon s := by
  refine Timing.toQueueLaw (h.invariant (I := Timing mailRetry mailAbandon) ?_ ?_)
  · rintro s ⟨clock, rfl⟩
    exact timing_empty clock
  · rintro s e s' hs ⟨hstep, hok⟩
    exact hs.step hstep hok

/-- A message. -/
def sampleMessage : MailMessage where
  templateName := templateName .VERIFICATION_CODE
  attrs := MessageAttributes.empty.set .RECIPIENT_EMAIL "jo@example.com"
  subscriber := false

/-- The message is posted. -/
def samplePosted : MailQueue := ({ clock := 1000 } : MailQueue).sendMessage 1000 sampleMessage

/-- A pass with one visit, where `SendIt` does not succeed. -/
def samplePass (s : MailQueue) (now : ℕ) : MailQueue :=
  s.beginPass.visit 120 7200 now .msg_not_sent_but_resend

theorem sampleMessage_recipient : sampleMessage.attrs .RECIPIENT_EMAIL ≠ none :=
  Option.some_ne_none _

/-- Two visits soon after the message was posted. -/
theorem queueLaw_of_timely_sample :
    QueueLaw 120 7200 (samplePass (samplePass samplePosted 1010) 1140) := by
  have hposted : ((system 120 7200).restrict (Timely 120 7200)).Reachable samplePosted :=
    System.Reachable.step (.init ⟨1000, rfl⟩) (l := .sendMessage 1000 sampleMessage)
      ⟨.sendMessage _ (Nat.le_refl _) sampleMessage_recipient, trivial⟩
  have hbegun : ((system 120 7200).restrict (Timely 120 7200)).Reachable samplePosted.beginPass :=
    hposted.step (l := .beginPass) ⟨.beginPass rfl, trivial⟩
  have hpass : ((system 120 7200).restrict (Timely 120 7200)).Reachable
      (samplePass samplePosted 1010) :=
    hbegun.step (l := .visit 1010 .msg_not_sent_but_resend)
      ⟨.visit _ (by decide), by decide, fun m hm hold ↦ by cases hm; exact absurd hold (by decide)⟩
  have hagain : ((system 120 7200).restrict (Timely 120 7200)).Reachable
      (samplePass samplePosted 1010).beginPass :=
    hpass.step (l := .beginPass) ⟨.beginPass rfl, trivial⟩
  exact queueLaw_of_timely (hagain.step (l := .visit 1140 .msg_not_sent_but_resend)
    ⟨.visit _ (by decide), by decide, fun m hm hold ↦ by cases hm; exact absurd hold (by decide)⟩)

/-- A message that is due once more after the time of abandoning is tried once more. -/
theorem late_attempt : ∃ s, (system 120 7200).Reachable s ∧ ¬ QueueLaw 120 7200 s := by
  refine ⟨samplePass (samplePass samplePosted 1010) 8210, ?_, fun h ↦ ?_⟩
  · have hposted : (system 120 7200).Reachable samplePosted :=
      System.Reachable.step (.init ⟨1000, rfl⟩) (l := .sendMessage 1000 sampleMessage)
        (.sendMessage _ (Nat.le_refl _) sampleMessage_recipient)
    have hbegun : (system 120 7200).Reachable samplePosted.beginPass :=
      hposted.step (l := .beginPass) (.beginPass rfl)
    have hpass : (system 120 7200).Reachable (samplePass samplePosted 1010) :=
      hbegun.step (l := .visit 1010 .msg_not_sent_but_resend) (.visit _ (by decide))
    have hagain : (system 120 7200).Reachable (samplePass samplePosted 1010).beginPass :=
      hpass.step (l := .beginPass) (.beginPass rfl)
    exact hagain.step (l := .visit 8210 .msg_not_sent_but_resend) (.visit _ (by decide))
  · obtain ⟨post, hpost, htime⟩ := h.inTime ⟨0, 8210, .msg_not_sent_but_resend⟩ List.mem_cons_self
    cases hpost
    exact absurd htime (by decide)

end MailQueue

end OwSec
