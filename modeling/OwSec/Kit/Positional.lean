import Mathlib.Data.List.Induction
import Mathlib.Data.Nat.Digits.Defs

/-!
# Numbers in a fixed number of digits

A number below `b ^ k` and its `k` digits in base `b`, most significant digit first, leading zeros
included.  Programs that change the base of a text (bytes, groups of five or six bits, hexadecimal
digits) go through such a number: they put the digits of one base together and take those of the
other out.
-/

namespace Kit

/-- The number with these digits, most significant digit first. -/
def number (b : ℕ) (ds : List ℕ) : ℕ := Nat.ofDigits b ds.reverse

/-- The last `k` digits of a number, most significant digit first. -/
def lastDigits (b k n : ℕ) : List ℕ := (List.range k).map fun i ↦ n / b ^ (k - 1 - i) % b

section Positional

variable {b : ℕ}

@[simp] theorem number_nil : number b [] = 0 := rfl

@[simp] theorem number_singleton (d : ℕ) : number b [d] = d := Nat.ofDigits_singleton

theorem number_append (ds es : List ℕ) :
    number b (ds ++ es) = number b ds * b ^ es.length + number b es := by
  rw [number, List.reverse_append, Nat.ofDigits_append, List.length_reverse, Nat.add_comm,
    Nat.mul_comm]
  rfl

theorem number_concat (ds : List ℕ) (d : ℕ) : number b (ds ++ [d]) = number b ds * b + d := by
  rw [number_append, number_singleton, List.length_singleton, Nat.pow_one]

theorem number_replicate_zero (k : ℕ) : number b (List.replicate k 0) = 0 := by
  rw [number, List.reverse_replicate, ← List.nil_append (List.replicate k 0),
    Nat.ofDigits_append_replicate_zero, Nat.ofDigits_nil]

/-- Zeros at the end shift a number. -/
theorem number_append_zeros (ds : List ℕ) (k : ℕ) :
    number b (ds ++ List.replicate k 0) = number b ds * b ^ k := by
  rw [number_append, number_replicate_zero, List.length_replicate, Nat.add_zero]

theorem number_lt (hb : 1 < b) {ds : List ℕ} (hds : ∀ d ∈ ds, d < b) :
    number b ds < b ^ ds.length := by
  rw [number, ← List.length_reverse]
  exact Nat.ofDigits_lt_base_pow_length hb fun d hd ↦ hds d (List.mem_reverse.mp hd)

@[simp] theorem length_lastDigits (k n : ℕ) : (lastDigits b k n).length = k := by
  rw [lastDigits, List.length_map, List.length_range]

theorem lastDigits_lt (hb : 0 < b) {k n d : ℕ} (hd : d ∈ lastDigits b k n) : d < b := by
  obtain ⟨i, -, rfl⟩ := List.mem_map.mp hd
  exact Nat.mod_lt _ hb

/-- The first digits are those of a quotient. -/
theorem take_lastDigits {j k : ℕ} (h : j ≤ k) (n : ℕ) :
    (lastDigits b k n).take j = lastDigits b j (n / b ^ (k - j)) := by
  rw [lastDigits, ← List.map_take, List.take_range, Nat.min_eq_left h, lastDigits]
  refine List.map_congr_left fun i hi ↦ ?_
  have hi : i < j := List.mem_range.mp hi
  have hpow : k - 1 - i = k - j + (j - 1 - i) := by omega
  rw [Nat.div_div_eq_div_mul, ← Nat.pow_add, ← hpow]

theorem lastDigits_succ (k n : ℕ) :
    lastDigits b (k + 1) n = lastDigits b k (n / b) ++ [n % b] := by
  have hfirst := take_lastDigits (b := b) (Nat.le_succ k) n
  rw [Nat.succ_sub (Nat.le_refl k), Nat.sub_self, Nat.pow_one] at hfirst
  rw [← hfirst, lastDigits, List.range_succ, List.map_append, List.take_left' (by simp)]
  simp

/-- Without the first digits, fewer digits of the same number are left. -/
theorem drop_lastDigits (j k n : ℕ) :
    (lastDigits b k n).drop j = lastDigits b (k - j) n := by
  refine List.ext_getElem (by simp) fun i hi _ ↦ ?_
  simp only [length_lastDigits, List.length_drop] at hi
  have hpow : k - 1 - (j + i) = k - j - 1 - i := by omega
  simp only [lastDigits, List.getElem_drop, List.getElem_map, List.getElem_range, hpow]

theorem number_lastDigits (k n : ℕ) : number b (lastDigits b k n) = n % b ^ k := by
  induction k generalizing n with
  | zero => rw [Nat.pow_zero, Nat.mod_one]; rfl
  | succ k ih =>
    rw [lastDigits_succ, number_concat, ih, Nat.pow_succ', Nat.mod_mul, Nat.add_comm, Nat.mul_comm]

/-- A number that fits is given back by its digits. -/
theorem number_lastDigits_of_lt {k n : ℕ} (h : n < b ^ k) : number b (lastDigits b k n) = n := by
  rw [number_lastDigits, Nat.mod_eq_of_lt h]

/-- Digits are given back by their number. -/
theorem lastDigits_number {ds : List ℕ} (hds : ∀ d ∈ ds, d < b) :
    lastDigits b ds.length (number b ds) = ds := by
  induction ds using List.reverseRecOn with
  | nil => rfl
  | append_singleton ds d ih =>
    have hd : d < b := hds d (by simp)
    have hrest : ∀ e ∈ ds, e < b := fun e he ↦ hds e (List.mem_append_left _ he)
    have hdiv : (number b ds * b + d) / b = number b ds := by
      rw [Nat.mul_comm, Nat.mul_add_div (Nat.lt_of_le_of_lt (Nat.zero_le d) hd),
        Nat.div_eq_of_lt hd, Nat.add_zero]
    have hmod : (number b ds * b + d) % b = d := by
      rw [Nat.mul_comm, Nat.mul_add_mod, Nat.mod_eq_of_lt hd]
    rw [List.length_append, List.length_singleton, number_concat, lastDigits_succ, hdiv, hmod,
      ih hrest]

/-- A number that is shifted has zeros at the end. -/
theorem lastDigits_mul_pow (hb : 0 < b) (j k n : ℕ) :
    lastDigits b (j + k) (n * b ^ k) = lastDigits b j n ++ List.replicate k 0 := by
  induction k with
  | zero => simp
  | succ k ih =>
    have hdiv : n * b ^ (k + 1) / b = n * b ^ k := by
      rw [Nat.pow_succ, ← Nat.mul_assoc, Nat.mul_div_cancel _ hb]
    have hmod : n * b ^ (k + 1) % b = 0 := by
      rw [Nat.pow_succ, ← Nat.mul_assoc, Nat.mul_mod_left]
    rw [← Nat.add_assoc, lastDigits_succ, hdiv, hmod, ih, List.replicate_succ', List.append_assoc]

/-- An "or" adds a digit to a number that leaves room for it. -/
theorem number_or_shiftLeft {w d : ℕ} (hd : d < 2 ^ w) (ds : List ℕ) (k : ℕ) :
    number (2 ^ w) ds * (2 ^ w) ^ (k + 1) ||| d <<< (k * w) =
      number (2 ^ w) (ds ++ [d]) * (2 ^ w) ^ k := by
  have hroom : number (2 ^ w) ds * (2 ^ w) ^ (k + 1) = (number (2 ^ w) ds <<< w) <<< (k * w) := by
    rw [Nat.shiftLeft_eq, Nat.shiftLeft_eq, Nat.pow_succ', ← Nat.mul_assoc, ← Nat.pow_mul,
      Nat.mul_comm w k]
  rw [hroom, ← Nat.shiftLeft_or_distrib, ← Nat.shiftLeft_add_eq_or_of_lt hd, number_concat,
    Nat.shiftLeft_eq, Nat.shiftLeft_eq, ← Nat.pow_mul, Nat.mul_comm w k]

/-- The usual digits of a number are its last ones, without the zeros in front. -/
theorem replicate_append_toDigits (hb : 1 < b) {k n : ℕ} (h : n < b ^ (k + 1)) :
    List.replicate (k + 1 - (Nat.toDigits b n).length) '0' ++ Nat.toDigits b n =
      (lastDigits b (k + 1) n).map Nat.digitChar := by
  induction k generalizing n with
  | zero =>
    rw [Nat.zero_add, Nat.pow_one] at h
    rw [Nat.toDigits_of_lt_base h, lastDigits_succ, Nat.mod_eq_of_lt h]
    rfl
  | succ k ih =>
    rcases Nat.lt_or_ge n b with hlt | hge
    · have hzero : lastDigits b (k + 1) 0 = List.replicate (k + 1) 0 := by
        rw [lastDigits, List.map_congr_left (g := fun _ ↦ 0) fun i _ ↦ by
          rw [Nat.zero_div, Nat.zero_mod], List.map_const', List.length_range]
      rw [Nat.toDigits_of_lt_base hlt, lastDigits_succ, Nat.mod_eq_of_lt hlt, Nat.div_eq_of_lt hlt,
        hzero, List.map_append, List.map_replicate]
      rfl
    · have hrest : n / b < b ^ (k + 1) := by
        rw [Nat.div_lt_iff_lt_mul (Nat.lt_trans Nat.one_pos hb), ← Nat.pow_succ]
        exact h
      rw [Nat.toDigits_of_base_le hb hge, lastDigits_succ, List.map_append, ← ih hrest,
        List.length_append, List.length_singleton, Nat.add_sub_add_right, List.append_assoc]
      rfl

end Positional

end Kit
