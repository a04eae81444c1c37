import Mathlib.Algebra.Group.Nat.Defs
import Mathlib.Data.Nat.Notation

/-!
# Groups of bits in a word

Programs cut a word into groups of bits with a mask and a shift, and put groups together with a
shift and an "or".  In arithmetic the first is a digit of the number in the base of the group, and
the second adds a digit at the end; a word that is too short for its digits loses the first ones.
-/

namespace Kit.Bits

/-- A mask and a shift take a digit. -/
theorem mask_shiftRight (n k s : ℕ) : (n &&& (2 ^ k - 1) <<< s) >>> s = n / 2 ^ s % 2 ^ k := by
  rw [Nat.shiftRight_and_distrib, Nat.shiftLeft_shiftRight, Nat.and_two_pow_sub_one_eq_mod,
    Nat.shiftRight_eq_div_pow]

/-- A shift and a mask take a digit. -/
theorem shiftRight_mask (n k s : ℕ) : n >>> s &&& (2 ^ k - 1) = n / 2 ^ s % 2 ^ k := by
  rw [Nat.and_two_pow_sub_one_eq_mod, Nat.shiftRight_eq_div_pow]

/-- A shift and an "or" add a digit at the end of a word. -/
theorem shiftLeft_or {k w v : ℕ} (n : ℕ) (hk : k ≤ w) (hv : v < 2 ^ k) :
    (n <<< k) % 2 ^ w ||| v = (n * 2 ^ k + v) % 2 ^ w := by
  have hword : 2 ^ w = 2 ^ k * 2 ^ (w - k) := by
    rw [← Nat.pow_add, Nat.add_sub_cancel' hk]
  have hshift : (n <<< k) % 2 ^ w = (n % 2 ^ (w - k)) <<< k := by
    rw [Nat.shiftLeft_eq, Nat.shiftLeft_eq, hword, Nat.mul_comm n, Nat.mul_mod_mul_left,
      Nat.mul_comm]
  rw [hshift, ← Nat.shiftLeft_add_eq_or_of_lt hv, ← hshift, Nat.shiftLeft_eq]
  -- the last digits of the word stay free, so the sum does not carry out of it
  have hfree : n * 2 ^ k % 2 ^ w + v < 2 ^ w := by
    have hdigit : n % 2 ^ (w - k) + 1 ≤ 2 ^ (w - k) := Nat.mod_lt _ (Nat.two_pow_pos _)
    have hmul := Nat.mul_le_mul_left (2 ^ k) hdigit
    rw [hword, Nat.mul_comm n, Nat.mul_mod_mul_left]
    rw [Nat.mul_add, Nat.mul_one] at hmul
    omega
  rw [← Nat.mod_eq_of_lt hfree, Nat.mod_add_mod]

end Kit.Bits
