import OwSec.Kit.Ring
import OwSec.Kit.Simulation

/-!
# The ring buffer

`FIFO` (`framework/MicroServiceExtra.h`) is a queue in a ring of cells, with the position of the
next read and that of the next write.  `Write` asks for no room, so the caller has to leave some.

The two positions are the same when the ring is empty and when it is full, and `Read` takes them
to mean that it is empty, although the number of elements is counted next to them.  So a full ring
is a queue that gives nothing back.
-/

namespace OwSec

open Kit Ring

universe u

variable {T : Type u}

/-- `FIFO<T>`.  The cells are allocated once. -/
structure FIFO (T : Type u) where
  size_ : UInt32
  read_ : UInt32 := 0
  write_ : UInt32 := 0
  used_ : UInt32 := 0
  maxEverUsed_ : UInt32 := 0
  buffer_ : Vector T size_.toNat

namespace FIFO

/-- The constructor; `raw` is what `new T[Size_]` leaves in the cells. -/
def new (raw : ℕ → T) (size : UInt32) : FIFO T where
  size_ := size
  buffer_ := Vector.ofFn fun i ↦ raw i

/-- A position is counted up, and is zero again at the end. -/
def wrap (f : FIFO T) (position : UInt32) : UInt32 := if position = f.size_ then 0 else position

/-- `FIFO::Read`: what it returns, and the variable of the caller.  `none` is a read outside the
cells. -/
def read (f : FIFO T) (t : T) : Option ((Bool × T) × FIFO T) :=
  if f.write_ = f.read_ then some ((false, t), f)
  else if h : f.read_.toNat < f.size_.toNat then
    some ((true, f.buffer_[f.read_.toNat]),
      { f with read_ := f.wrap (f.read_ + 1), used_ := f.used_ - 1 })
  else none

/-- `FIFO::Write`, which returns `false` in any case.  `none` is a write outside the cells. -/
def write (f : FIFO T) (t : T) : Option (Bool × FIFO T) :=
  if h : f.write_.toNat < f.size_.toNat then
    some (false,
      { f with
        buffer_ := f.buffer_.set f.write_.toNat t h
        write_ := f.wrap (f.write_ + 1)
        used_ := f.used_ + 1
        maxEverUsed_ := max (f.used_ + 1) f.maxEverUsed_ })
  else none

/-! ## Calls -/

/-- A call, with the value or the variable that it is given. -/
inductive Call (T : Type u)
  | write (t : T)
  | read (t : T)

/-- What the caller learns. -/
inductive Reply (T : Type u)
  | written
  | found (t : T)
  | empty
  deriving DecidableEq

/-- A call and its answer. -/
def answer (f : FIFO T) : Call T → Option (Reply T × FIFO T)
  | .write t => (f.write t).map fun r ↦ (.written, r.2)
  | .read t => (f.read t).map fun r ↦ (if r.1.1 then .found r.1.2 else .empty, r.2)

/-- What the buffer is for: a queue of elements, the oldest first. -/
def queue : Spec (List T) (Call T) (Reply T) where
  reply
    | _, .write _ => .written
    | [], .read _ => .empty
    | t :: _, .read _ => .found t
  next
    | q, .write t => q ++ [t]
    | q, .read _ => q.tail

/-- The elements that calls write. -/
def writes (calls : List (Call T)) : List T :=
  calls.filterMap fun
    | .write t => some t
    | .read _ => none

/-- The elements that answers hand out. -/
def reads (replies : List (Reply T)) : List T :=
  replies.filterMap fun
    | .found t => some t
    | _ => none

/-- What a queue hands out is what was written to it, in order and each once: the rest is still
in it. -/
theorem reads_append_queue (q : List T) (calls : List (Call T)) :
    reads (queue.replies q calls) ++ calls.foldl queue.next q = q ++ writes calls := by
  induction calls generalizing q with
  | nil => simp [Spec.replies, reads, writes]
  | cons call calls ih =>
    have hrest := ih (queue.next q call)
    cases call with
    | write t => simpa [Spec.replies, queue, reads, writes] using hrest
    | read t =>
      rcases q with _ | ⟨a, q⟩
      · simpa [Spec.replies, queue, reads, writes] using hrest
      · simpa [Spec.replies, queue, reads, writes] using hrest

/-- There is room for what a call writes. -/
def HasRoom (size : UInt32) (q : List T) (call : Call T) : Prop :=
  (queue.next q call).length ≤ size.toNat

/-- The call is no read of a full buffer. -/
def NotFull (size : UInt32) (q : List T) : Call T → Prop
  | .write _ => True
  | .read _ => q.length = size.toNat → q = []

/-! ## The ring -/

/-- The buffer holds the elements of a queue: the positions of its ends are right, and so is their
number. -/
structure Represents (size : UInt32) (f : FIFO T) (q : List T) : Prop where
  size_eq : f.size_ = size
  length_le : q.length ≤ size.toNat
  read_lt : f.read_.toNat < size.toNat ∨ f.read_.toNat = 0
  write_eq : f.write_.toNat = (f.read_.toNat + q.length) % size.toNat
  used_eq : f.used_.toNat = q.length
  holds : Holds f.buffer_.toList f.read_.toNat q

/-- A new buffer holds nothing. -/
theorem represents_new (raw : ℕ → T) (size : UInt32) : Represents size (new raw size) [] where
  size_eq := rfl
  length_le := Nat.zero_le _
  read_lt := .inr rfl
  write_eq := (Nat.zero_mod _).symm
  used_eq := rfl
  holds := trivial

/-- A position in the ring that is counted up. -/
theorem toNat_wrap {f : FIFO T} {position : UInt32} (h : position.toNat < f.size_.toNat) :
    (f.wrap (position + 1)).toNat = (position.toNat + 1) % f.size_.toNat := by
  have hsucc : (position + 1).toNat = position.toNat + 1 := by
    have hbound : f.size_.toNat < 2 ^ 32 := f.size_.toNat_lt
    rw [UInt32.toNat_add]
    exact Nat.mod_eq_of_lt (show position.toNat + 1 < 2 ^ 32 by omega)
  have hend : position + 1 = f.size_ ↔ position.toNat + 1 = f.size_.toNat := by
    rw [← hsucc, UInt32.toNat_inj]
  rw [← succ_eq_mod h, wrap]
  by_cases h' : position.toNat + 1 = f.size_.toNat
  · rw [if_pos h', if_pos (hend.mpr h')]
    rfl
  · rw [if_neg h', if_neg (mt hend.mp h'), hsucc]

namespace Represents

variable {size : UInt32} {f : FIFO T} {q : List T}

/-- The ends of the queue meet when it is empty and when it is full. -/
theorem write_eq_read_iff (h : Represents size f q) :
    f.write_ = f.read_ ↔ q = [] ∨ q.length = size.toNat := by
  have hlength := h.length_le
  rw [← UInt32.toNat_inj, h.write_eq, ← List.length_eq_zero_iff]
  rcases h.read_lt with hlt | hzero
  · rcases Nat.lt_or_ge (f.read_.toNat + q.length) size.toNat with hin | hout
    · rw [Nat.mod_eq_of_lt hin]
      omega
    · rw [Nat.mod_eq_sub_mod hout, Nat.mod_eq_of_lt (by omega)]
      omega
  · rw [hzero, Nat.zero_add]
    rcases Nat.lt_or_eq_of_le hlength with hlt | hfull
    · rw [Nat.mod_eq_of_lt hlt]
      omega
    · rw [hfull, Nat.mod_self]
      omega

/-- An empty buffer, and also a full one, gives nothing. -/
theorem read_of_meet (h : Represents size f q) (hmeet : q = [] ∨ q.length = size.toNat) (t : T) :
    f.read t = some ((false, t), f) := by
  rw [read, if_pos (h.write_eq_read_iff.mpr hmeet)]

/-- Any other buffer gives the oldest element. -/
theorem read_of_lt {a : T} (h : Represents size f (a :: q)) (hlt : q.length + 1 < size.toNat)
    (t : T) : ∃ f', f.read t = some ((true, a), f') ∧ Represents size f' q := by
  obtain rfl := h.size_eq
  have hmeet : ¬ f.write_ = f.read_ := by
    rw [h.write_eq_read_iff]
    simpa using Nat.ne_of_lt hlt
  have hread : f.read_.toNat < f.size_.toNat := by
    rcases h.read_lt with hread | hread <;> omega
  have hcells : f.buffer_.toList.length = f.size_.toNat := Vector.length_toList
  obtain ⟨hcell, hrest⟩ := h.holds
  have ha : f.buffer_[f.read_.toNat] = a := by
    rw [hcells, Nat.mod_eq_of_lt hread, Vector.getElem?_toList,
      Vector.getElem?_eq_getElem hread] at hcell
    exact Option.some.inj hcell
  have hwrap := toNat_wrap hread
  refine ⟨_, by rw [read, if_neg hmeet, dif_pos hread, ha], ?_⟩
  constructor
  · rfl
  · exact Nat.le_of_lt (Nat.lt_of_succ_lt hlt)
  · exact .inl (hwrap ▸ Nat.mod_lt _ (by omega))
  · show f.write_.toNat = ((f.wrap (f.read_ + 1)).toNat + q.length) % f.size_.toNat
    rw [hwrap, Nat.mod_add_mod, h.write_eq, List.length_cons, Nat.add_assoc, Nat.add_comm 1]
  · show (f.used_ - 1).toNat = q.length
    have hused : f.used_.toNat = q.length + 1 := h.used_eq
    have hone : (1 : UInt32) ≤ f.used_ := UInt32.le_iff_toNat_le.mpr (by rw [hused]; simp)
    rw [UInt32.toNat_sub_of_le _ _ hone, hused]
    rfl
  · show Holds f.buffer_.toList (f.wrap (f.read_ + 1)).toNat q
    have hmod : (f.read_.toNat + 1) % f.size_.toNat
        ≡ f.read_.toNat + 1 [MOD f.buffer_.toList.length] := by
      rw [hcells]
      exact Nat.mod_modEq _ _
    rw [hwrap]
    exact (holds_congr hmod q).mpr hrest

/-- A buffer that is not full takes one more element. -/
theorem write_of_lt (h : Represents size f q) (hlt : q.length < size.toNat) (t : T) :
    ∃ f', f.write t = some (false, f') ∧ Represents size f' (q ++ [t]) := by
  obtain rfl := h.size_eq
  have hpos : 0 < f.size_.toNat := by omega
  have hwrite : f.write_.toNat < f.size_.toNat := h.write_eq ▸ Nat.mod_lt _ hpos
  have hcells : f.buffer_.toList.length = f.size_.toNat := Vector.length_toList
  have hwrap := toNat_wrap hwrite
  refine ⟨_, by rw [write, dif_pos hwrite], ?_⟩
  constructor
  · rfl
  · rw [List.length_append]
    exact hlt
  · exact h.read_lt
  · show (f.wrap (f.write_ + 1)).toNat = (f.read_.toNat + (q ++ [t]).length) % f.size_.toNat
    rw [hwrap, h.write_eq, Nat.mod_add_mod, List.length_append, List.length_singleton,
      Nat.add_assoc]
  · show (f.used_ + 1).toNat = (q ++ [t]).length
    have hbound : f.size_.toNat < 2 ^ 32 := f.size_.toNat_lt
    rw [UInt32.toNat_add, h.used_eq, List.length_append, List.length_singleton]
    exact Nat.mod_eq_of_lt (show q.length + 1 < 2 ^ 32 by omega)
  · show Holds (f.buffer_.set f.write_.toNat t hwrite).toList f.read_.toNat (q ++ [t])
    have hpush := h.holds.push (hcells.symm ▸ hlt) t
    rw [hcells, ← h.write_eq] at hpush
    rwa [Vector.toList_set]

end Represents

/-- The ring follows the queue, except for reads of a full buffer. -/
theorem simulates (size : UInt32) :
    (queue (T := T)).Simulates answer (HasRoom size) (NotFull size) (Represents size) where
  right := by
    rintro f q (t | t) h hroom hgood
    · have hlt : q.length < size.toNat := by
        rw [HasRoom, queue, List.length_append] at hroom
        exact hroom
      obtain ⟨f', hwrite, h'⟩ := h.write_of_lt hlt t
      exact ⟨f', by rw [answer, hwrite]; rfl, h'⟩
    · rcases q with _ | ⟨a, q⟩
      · exact ⟨f, by rw [answer, h.read_of_meet (.inl rfl)]; rfl, h⟩
      · have hne : q.length + 1 ≠ size.toNat := fun hfull ↦ List.cons_ne_nil a q (hgood hfull)
        obtain ⟨f', hread, h'⟩ := h.read_of_lt (Nat.lt_of_le_of_ne h.length_le hne) t
        exact ⟨f', by rw [answer, hread]; rfl, h'⟩
  wrong := by
    rintro f q (t | t) h - hbad f'
    · exact absurd trivial hbad
    · obtain ⟨hfull, hne⟩ : q.length = size.toNat ∧ q ≠ [] := by
        simpa [NotFull] using hbad
      obtain ⟨a, q, rfl⟩ := List.exists_cons_of_ne_nil hne
      rw [answer, h.read_of_meet (.inr hfull)]
      intro heq
      cases (Prod.mk.inj (Option.some.inj heq)).1

/-! ## The law -/

/-- As long as no more elements are outstanding than there are cells, the calls are answered as
those of a queue are if and only if none of them reads a full buffer. -/
theorem answers_eq_replies_iff (raw : ℕ → T) (size : UInt32) {calls : List (Call T)}
    (h : System.Allowed (HasRoom size) queue.next [] calls) :
    Spec.answers answer (new raw size) calls = some (queue.replies [] calls) ↔
      System.Allowed (NotFull size) queue.next [] calls :=
  (simulates size).answers_eq_iff (represents_new raw size) h

/-- Three cells, of which no more than two are in use, while the positions wrap around. -/
theorem answers_eq_replies_three :
    System.Allowed (HasRoom 3) queue.next []
      [.write 5, .write 6, .read 0, .write 7, .read 0, .write 8, .read 0, .read 0, .read 0] ∧
    Spec.answers answer (new (fun _ ↦ 0) 3)
      [.write 5, .write 6, .read 0, .write 7, .read 0, .write 8, .read 0, .read 0, .read 0]
      = some [.written, .written, .found 5, .written, .found 6, .written, .found 7, .found 8,
          .empty] := by
  have hroom : System.Allowed (HasRoom 3) queue.next []
      [.write 5, .write 6, .read 0, .write 7, .read 0, .write 8, .read 0, .read 0, .read 0] := by
    simp [System.Allowed, HasRoom, queue]
  refine ⟨hroom, (answers_eq_replies_iff (fun _ ↦ 0) 3 hroom).mpr ?_⟩
  simp [System.Allowed, NotFull, queue]

/-- One cell: the element that was written to it is outstanding, and the buffer says that it is
empty. -/
theorem answers_of_full_buffer :
    System.Allowed (HasRoom 1) queue.next [] [.write 5, .read 0] ∧
    Spec.answers answer (new (fun _ ↦ 0) 1) [.write 5, .read 0] = some [.written, .empty] ∧
    queue.replies [] [.write 5, .read 0] = [.written, .found 5] := by
  refine ⟨by simp [System.Allowed, HasRoom, queue], by decide, rfl⟩

end FIFO

end OwSec
