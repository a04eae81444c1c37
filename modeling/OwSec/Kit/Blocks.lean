import Mathlib.Algebra.Group.Nat.Defs
import Mathlib.Data.List.Basic
import Mathlib.Data.Nat.Notation
import Mathlib.Tactic.Common

/-!
# Blocks

A list that is worked on in blocks of one size: the whole blocks in order, and what is left over.
Facts about such a list go by induction on its blocks.
-/

namespace Kit

universe u v w

variable {α : Type u} {β : Type v} {n : ℕ}

/-- The block with the number `j`, of `n` entries. -/
def block (n : ℕ) (l : List α) (j : ℕ) : List α := (l.drop (j * n)).take n

/-- The whole blocks. -/
def blocks (n : ℕ) (l : List α) : List (List α) := (List.range (l.length / n)).map (block n l)

/-- What is left over. -/
def leftover (n : ℕ) (l : List α) : List α := l.drop (l.length / n * n)

/-- A list is short, or has a block in front of the rest. -/
theorem block_induction {P : List α → Prop} (hn : 0 < n) (short : ∀ l, l.length < n → P l)
    (front : ∀ xs rest, xs.length = n → P rest → P (xs ++ rest)) (l : List α) : P l := by
  induction hlength : l.length using Nat.strongRecOn generalizing l with
  | ind m ih =>
    rcases Nat.lt_or_ge l.length n with hshort | hlong
    · exact short l hshort
    · rw [← List.take_append_drop n l]
      refine front _ _ (List.length_take_of_le hlong) (ih _ ?_ _ rfl)
      rw [List.length_drop]
      omega

theorem block_zero (l : List α) : block n l 0 = l.take n := by
  rw [block, Nat.zero_mul, List.drop_zero]

theorem block_append_succ {xs : List α} (h : xs.length = n) (rest : List α) (j : ℕ) :
    block n (xs ++ rest) (j + 1) = block n rest j := by
  subst h
  rw [block, block, Nat.add_mul, Nat.one_mul, Nat.add_comm, List.drop_append, List.drop_eq_nil_of_le
    (Nat.le_add_right _ _), List.nil_append, Nat.add_sub_cancel_left]

theorem blocks_of_short {l : List α} (h : l.length < n) : blocks n l = [] := by
  rw [blocks, Nat.div_eq_of_lt h]
  rfl

theorem leftover_of_short {l : List α} (h : l.length < n) : leftover n l = l := by
  rw [leftover, Nat.div_eq_of_lt h, Nat.zero_mul, List.drop_zero]

section Front

variable {xs : List α} (hn : 0 < n) (h : xs.length = n) (rest : List α)

include hn h

theorem length_front_div : (xs ++ rest).length / n = rest.length / n + 1 := by
  rw [List.length_append, h, Nat.add_comm, Nat.add_div_right _ hn]

theorem blocks_append : blocks n (xs ++ rest) = xs :: blocks n rest := by
  rw [blocks, length_front_div hn h rest, List.range_succ_eq_map, List.map_cons, List.map_map,
    block_zero, List.take_left' h]
  refine congrArg (xs :: ·) (List.map_congr_left fun j _ ↦ ?_)
  exact block_append_succ h rest j

theorem leftover_append : leftover n (xs ++ rest) = leftover n rest := by
  rw [leftover, leftover, length_front_div hn h rest, Nat.add_mul, Nat.one_mul, Nat.add_comm, ← h,
    List.drop_length_add_append]

end Front

/-- Nothing is lost. -/
theorem flatten_blocks (hn : 0 < n) (l : List α) : (blocks n l).flatten ++ leftover n l = l := by
  induction l using block_induction hn with
  | short l h => rw [blocks_of_short h, leftover_of_short h, List.flatten_nil, List.nil_append]
  | front xs rest h ih =>
    rw [blocks_append hn h, leftover_append hn h, List.flatten_cons, List.append_assoc, ih]

theorem length_of_mem_blocks (hn : 0 < n) {l b : List α} (hb : b ∈ blocks n l) : b.length = n := by
  induction l using block_induction hn with
  | short l h => simp [blocks_of_short h] at hb
  | front xs rest h ih =>
    rw [blocks_append hn h] at hb
    rcases List.mem_cons.mp hb with rfl | hb
    · exact h
    · exact ih hb

theorem length_leftover (n : ℕ) (l : List α) : (leftover n l).length = l.length % n := by
  rw [leftover, List.length_drop, Nat.mul_comm]
  exact (Nat.mod_eq_sub_mul_div ..).symm

/-- Blocks of one size, put together, are taken apart again. -/
theorem blocks_flatten (hn : 0 < n) {bs : List (List α)} (hbs : ∀ b ∈ bs, b.length = n)
    {rest : List α} (hrest : rest.length < n) : blocks n (bs.flatten ++ rest) = bs := by
  induction bs with
  | nil => exact blocks_of_short hrest
  | cons b bs ih =>
    rw [List.flatten_cons, List.append_assoc, blocks_append hn (hbs b List.mem_cons_self),
      ih fun c hc ↦ hbs c (List.mem_cons_of_mem b hc)]

/-- The blocks, the last of which may be shorter. -/
def parts (n : ℕ) (l : List α) : List (List α) :=
  blocks n l ++ if 0 < (leftover n l).length then [leftover n l] else []

theorem parts_append (hn : 0 < n) {xs : List α} (h : xs.length = n) (rest : List α) :
    parts n (xs ++ rest) = xs :: parts n rest := by
  rw [parts, parts, blocks_append hn h, leftover_append hn h, List.cons_append]

@[simp] theorem parts_nil : parts n ([] : List α) = [] := by
  simp [parts, blocks, leftover]

theorem parts_of_short {l : List α} (hpos : 0 < l.length) (h : l.length < n) : parts n l = [l] := by
  rw [parts, blocks_of_short h, leftover_of_short h, if_pos hpos, List.nil_append]

theorem length_of_mem_parts (hn : 0 < n) {l b : List α} (hb : b ∈ parts n l) :
    0 < b.length ∧ b.length ≤ n := by
  rcases List.mem_append.mp hb with hb | hb
  · rw [length_of_mem_blocks hn hb]
    exact ⟨hn, Nat.le_refl n⟩
  · split at hb
    · rename_i hpos
      rw [List.mem_singleton] at hb
      subst hb
      exact ⟨hpos, by rw [length_leftover]; exact Nat.le_of_lt (Nat.mod_lt _ hn)⟩
    · cases hb

/-- All parts but the last have the full size. -/
theorem length_of_mem_dropLast_parts (hn : 0 < n) {l b : List α} (hb : b ∈ (parts n l).dropLast) :
    b.length = n := by
  rw [parts] at hb
  split at hb
  · rw [List.dropLast_concat] at hb
    exact length_of_mem_blocks hn hb
  · rw [List.append_nil] at hb
    exact length_of_mem_blocks hn (List.dropLast_subset _ hb)

theorem flatten_parts (hn : 0 < n) (l : List α) : (parts n l).flatten = l := by
  rw [parts, List.flatten_append]
  split
  · rw [List.flatten_singleton, flatten_blocks hn]
  · rename_i hempty
    have hnil : leftover n l = [] := List.length_eq_zero_iff.mp (Nat.eq_zero_of_not_pos hempty)
    have hflatten := flatten_blocks hn l
    rwa [hnil] at hflatten

/-- Entries that are replaced by `m` entries each make blocks that are `m` times as long. -/
theorem blocks_flatMap {m : ℕ} (hm : 0 < m) (hn : 0 < n) {f : α → List β}
    (hf : ∀ a, (f a).length = m) (l : List α) :
    blocks (m * n) (l.flatMap f) = (blocks n l).map (List.flatMap f) := by
  have hlength : ∀ l : List α, (l.flatMap f).length = m * l.length := by
    intro l
    induction l with
    | nil => rfl
    | cons a l ih =>
      rw [List.flatMap_cons, List.length_append, hf, ih, List.length_cons, Nat.mul_succ, Nat.add_comm]
  induction l using block_induction hn with
  | short l h =>
    rw [blocks_of_short h, blocks_of_short, List.map_nil]
    rw [hlength]
    exact Nat.mul_lt_mul_of_pos_left h hm
  | front xs rest h ih =>
    rw [blocks_append hn h, List.flatMap_append, blocks_append (Nat.mul_pos hm hn), ih,
      List.map_cons]
    rw [hlength, h]

/-! ## Working on blocks -/

section AppendAll

variable {ε : Type w} {f : List α → Except ε (List β)}

/-- What is made of the parts of a list, one after the other. -/
def appendAll (f : List α → Except ε (List β)) (bs : List (List α)) : Except ε (List β) :=
  bs.foldlM (fun ret b ↦ do
    let chk ← f b
    pure (ret ++ chk)) []

/-- The blocks may as well be cut out one at a time. -/
theorem appendAll_blocks (f : List α → Except ε (List β)) (n : ℕ) (l : List α) :
    appendAll f (blocks n l) = (List.range (l.length / n)).foldlM (fun ret j ↦ do
      let chk ← f ((l.drop (j * n)).take n)
      pure (ret ++ chk)) [] :=
  List.foldlM_map ..

theorem foldlM_append_eq_ok {bs : List (List α)} {ret out : List β} :
    bs.foldlM (fun ret b ↦ do
      let chk ← f b
      pure (ret ++ chk)) ret = .ok out ↔
      ∃ chks, List.Forall₂ (fun b chk ↦ f b = .ok chk) bs chks ∧ out = ret ++ chks.flatten := by
  induction bs generalizing ret with
  | nil =>
    constructor
    · intro h
      exact ⟨[], .nil, by rw [List.flatten_nil, List.append_nil]; exact (Except.ok.inj h).symm⟩
    · rintro ⟨_, ⟨⟩, rfl⟩
      rw [List.flatten_nil, List.append_nil]
      rfl
  | cons b bs ih =>
    rw [List.foldlM_cons]
    cases hb : f b with
    | error e =>
      refine iff_of_false (fun h ↦ by cases h) ?_
      rintro ⟨_, _ | ⟨hchk, -⟩, -⟩
      cases hb.symm.trans hchk
    | ok chk =>
      refine Iff.trans (@ih (ret ++ chk)) ?_
      constructor
      · rintro ⟨chks, hchks, rfl⟩
        exact ⟨chk :: chks, .cons hb hchks, by rw [List.flatten_cons, List.append_assoc]⟩
      · rintro ⟨_, _ | ⟨hchk, hchks⟩, rfl⟩
        obtain rfl := Except.ok.inj (hb.symm.trans hchk)
        exact ⟨_, hchks, by rw [List.flatten_cons, List.append_assoc]⟩

theorem appendAll_eq_ok {bs : List (List α)} {out : List β} :
    appendAll f bs = .ok out ↔
      ∃ chks, List.Forall₂ (fun b chk ↦ f b = .ok chk) bs chks ∧ out = chks.flatten := by
  rw [appendAll, foldlM_append_eq_ok]
  exact Iff.rfl

end AppendAll

end Kit
