import Mathlib.Order.Bounds.Basic
import OwSec.Kit.Blocks
import OwSec.Kit.NetworkOrder
import OwSec.Kit.Positional

/-!
# SHA-1, keyed hashes and one-time codes

The hash of 160 bits and what is built on it: the keyed hash HMAC for any hash, and the decimal
codes that are cut out of a keyed hash of a counter or of the time.  Everything is said of strings
of bits, the way the standards say it: a message of any length is filled up with a one, the fewest
zeros and its length, and the words of a block are extended by one recurrence.

Programs extend the words in ways of their own, and write the functions of the rounds with other
connectives.  The laws at the end of each part say that this makes no difference.
-/

namespace Kit.SecureHash

/-! ## Words -/

/-- The words that the hash works on. -/
abbrev Word := BitVec 32

/-- The word with these bits, most significant bit first. -/
def wordOfBits (bs : List Bool) : Word := .ofNat 32 (number 2 (bs.map Bool.toNat))

/-- The bits of a word are its digits in base two. -/
theorem map_toNat_bitsOf {n : ℕ} (x : BitVec n) :
    (bitsOf x).map Bool.toNat = lastDigits 2 n x.toNat := by
  refine List.ext_getElem (by simp) fun i hi _ ↦ ?_
  have hin : i < n := by simpa using hi
  simp only [bitsOf, lastDigits, List.getElem_map, List.getElem_ofFn, List.getElem_range,
    BitVec.getMsbD, hin, decide_true, Bool.true_and, BitVec.getLsbD]
  exact Nat.toNat_testBit ..

/-- A word is given back by its bits. -/
theorem wordOfBits_bitsOf (x : Word) : wordOfBits (bitsOf x) = x := by
  rw [wordOfBits, map_toNat_bitsOf, number_lastDigits_of_lt x.isLt, BitVec.ofNat_toNat,
    BitVec.setWidth_eq]

/-! ## Padding -/

/-- The zeros between the one and the length. -/
def zeros (l : ℕ) : ℕ := (959 - l % 512) % 512

/-- A message that is filled up: a one, the zeros, and its length in 64 bits. -/
def pad (m : List Bool) : List Bool :=
  m ++ true :: List.replicate (zeros m.length) false ++ bitsOf (BitVec.ofNat 64 m.length)

/-- They are the fewest that leave room for the length in the last block. -/
theorem isLeast_zeros (l : ℕ) : IsLeast {k | (l + 1 + k) % 512 = 448} (zeros l) := by
  constructor
  · change (l + 1 + zeros l) % 512 = 448
    unfold zeros
    omega
  · intro k hk
    have hk : (l + 1 + k) % 512 = 448 := hk
    unfold zeros
    omega

/-! ## Compression -/

/-- The function of the first rounds. -/
def ch (x y z : Word) : Word := (x &&& y) ^^^ (~~~x &&& z)

/-- The function of every other group of rounds. -/
def parity (x y z : Word) : Word := x ^^^ y ^^^ z

/-- The function of the third group of rounds. -/
def maj (x y z : Word) : Word := (x &&& y) ^^^ (x &&& z) ^^^ (y &&& z)

/-- The function of a round. -/
def roundFunction (t : ℕ) : Word → Word → Word → Word :=
  if t < 20 then ch else if t < 40 then parity else if t < 60 then maj else parity

/-- The constant of a round. -/
def roundConstant (t : ℕ) : Word :=
  if t < 20 then 0x5A827999 else if t < 40 then 0x6ED9EBA1
  else if t < 60 then 0x8F1BBCDC else 0xCA62C1D6

/-- The words of the rounds, from those of a block. -/
def schedule (M : ℕ → Word) (t : ℕ) : Word :=
  if t < 16 then M t
  else (schedule M (t - 3) ^^^ schedule M (t - 8) ^^^ schedule M (t - 14) ^^^
    schedule M (t - 16)).rotateLeft 1
termination_by t

/-- The five words that a message is compressed to. -/
structure State where
  a : Word
  b : Word
  c : Word
  d : Word
  e : Word
  deriving DecidableEq, Repr

namespace State

/-- The bits of the five words. -/
def bits (s : State) : List Bool :=
  bitsOf s.a ++ bitsOf s.b ++ bitsOf s.c ++ bitsOf s.d ++ bitsOf s.e

/-- Word by word. -/
def add (s s' : State) : State where
  a := s.a + s'.a
  b := s.b + s'.b
  c := s.c + s'.c
  d := s.d + s'.d
  e := s.e + s'.e

/-- What the first block is compressed with. -/
def initial : State where
  a := 0x67452301
  b := 0xEFCDAB89
  c := 0x98BADCFE
  d := 0x10325476
  e := 0xC3D2E1F0

/-- A round, with its word. -/
def round (W : ℕ → Word) (s : State) (t : ℕ) : State where
  a := s.a.rotateLeft 5 + roundFunction t s.b s.c s.d + s.e + roundConstant t + W t
  b := s.a
  c := s.b.rotateLeft 30
  d := s.c
  e := s.d

end State

/-- The words of a block. -/
def blockWords (b : List Bool) (t : ℕ) : Word := wordOfBits (block 32 b t)

/-- A block is compressed into the five words. -/
def compress (H : State) (b : List Bool) : State :=
  H.add ((List.range 80).foldl (State.round (schedule (blockWords b))) H)

/-- SHA-1. -/
def sha1 (m : List Bool) : List Bool := ((blocks 512 (pad m)).foldl compress .initial).bits

@[simp] theorem length_sha1 (m : List Bool) : (sha1 m).length = 160 := by
  simp [sha1, State.bits]

/-! ### Other ways to write it -/

section Laws

variable (x y z : Word)

/-- The two operands of `ch` have no common bits. -/
theorem ch_eq_or : ch x y z = (x &&& y) ||| (~~~x &&& z) := by
  refine BitVec.eq_of_getLsbD_eq fun i hi ↦ ?_
  simp only [ch, BitVec.getLsbD_xor, BitVec.getLsbD_and, BitVec.getLsbD_or, BitVec.getLsbD_not, hi]
  cases x.getLsbD i <;> cases y.getLsbD i <;> cases z.getLsbD i <;> rfl

/-- Of the operands of `maj`, one or all three have a bit. -/
theorem maj_eq_or : maj x y z = (x &&& y) ||| (x &&& z) ||| (y &&& z) := by
  refine BitVec.eq_of_getLsbD_eq fun i _ ↦ ?_
  simp only [maj, BitVec.getLsbD_xor, BitVec.getLsbD_and, BitVec.getLsbD_or]
  cases x.getLsbD i <;> cases y.getLsbD i <;> cases z.getLsbD i <;> rfl

theorem rotateLeft_xor (r : ℕ) : (x ^^^ y).rotateLeft r = x.rotateLeft r ^^^ y.rotateLeft r := by
  refine BitVec.eq_of_getLsbD_eq fun i hi ↦ ?_
  simp only [BitVec.getLsbD_rotateLeft, BitVec.getLsbD_xor, hi, decide_true, Bool.true_and]
  cases decide (i < r % 32) <;> rfl

theorem rotateLeft_one_one : (x.rotateLeft 1).rotateLeft 1 = x.rotateLeft 2 := by
  refine BitVec.eq_of_getLsbD_eq fun i hi ↦ ?_
  simp only [BitVec.getLsbD_rotateLeft]
  grind

end Laws

section Schedule

variable (M : ℕ → Word) {t : ℕ}

theorem schedule_of_lt (h : t < 16) : schedule M t = M t := by
  rw [schedule, if_pos h]

theorem schedule_of_le (h : 16 ≤ t) :
    schedule M t = (schedule M (t - 3) ^^^ schedule M (t - 8) ^^^ schedule M (t - 14) ^^^
      schedule M (t - 16)).rotateLeft 1 := by
  rw [schedule, if_neg (Nat.not_lt.mpr h)]

/-- The recurrence, twice: six of the words occur two times and cancel. -/
theorem schedule_twice (h : 32 ≤ t) :
    schedule M t = (schedule M (t - 6) ^^^ schedule M (t - 16) ^^^ schedule M (t - 28) ^^^
      schedule M (t - 32)).rotateLeft 2 := by
  have h₃ := schedule_of_le M (t := t - 3) (by omega)
  have h₈ := schedule_of_le M (t := t - 8) (by omega)
  have h₁₄ := schedule_of_le M (t := t - 14) (by omega)
  have h₁₆ := schedule_of_le M (t := t - 16) (by omega)
  simp only [Nat.sub_sub, Nat.reduceAdd] at h₃ h₈ h₁₄ h₁₆
  rw [schedule_of_le M (Nat.le_trans (by decide) h), h₃, h₈, h₁₄, h₁₆]
  simp only [← rotateLeft_xor, rotateLeft_one_one]
  congr 1
  generalize schedule M (t - 6) = w₆
  generalize schedule M (t - 11) = w₁₁
  generalize schedule M (t - 16) = w₁₆
  generalize schedule M (t - 17) = w₁₇
  generalize schedule M (t - 19) = w₁₉
  generalize schedule M (t - 22) = w₂₂
  generalize schedule M (t - 24) = w₂₄
  generalize schedule M (t - 28) = w₂₈
  generalize schedule M (t - 30) = w₃₀
  generalize schedule M (t - 32) = w₃₂
  refine BitVec.eq_of_getLsbD_eq fun i _ ↦ ?_
  simp only [BitVec.getLsbD_xor]
  grind

end Schedule

/-! ## Keyed hashes -/

/-- A byte, over and over, in a block of so many bits. -/
def padding (b : UInt8) (size : ℕ) : List Bool := bits (List.replicate (size / 8) b)

/-- A key as long as a block: a longer one is hashed first, and zeros fill it up. -/
def blockKey (hash : List Bool → List Bool) (size : ℕ) (key : List Bool) : List Bool :=
  let short := if size < key.length then hash key else key
  short ++ List.replicate (size - short.length) false

/-- HMAC, for a hash that compresses blocks of `size` bits. -/
def hmac (hash : List Bool → List Bool) (size : ℕ) (key m : List Bool) : List Bool :=
  let masked (b : UInt8) := List.zipWith xor (blockKey hash size key) (padding b size)
  hash (masked 0x5C ++ hash (masked 0x36 ++ m))

/-! ## One-time codes -/

/-- 31 bits of a hash: its last four bits say at which byte they begin, and the first bit of that
byte is left out. -/
def truncate (digest : List Bool) : ℕ :=
  let offset := number 2 ((digest.drop (digest.length - 4)).map Bool.toNat)
  number 2 (((digest.drop (8 * offset)).take 32).tail.map Bool.toNat)

/-- The code of a counter, as a number. -/
def hotp (key : List Bool) (counter digits : ℕ) : ℕ :=
  truncate (hmac sha1 512 key (bitsOf (BitVec.ofNat 64 counter))) % 10 ^ digits

/-- The code of a time, which counts steps from a start on. -/
def totp (key : List Bool) (now start step digits : ℕ) : ℕ :=
  hotp key ((now - start) / step) digits

/-- A code as it is shown, with leading zeros. -/
def shown (code digits : ℕ) : String := .ofList ((lastDigits 10 digits code).map Nat.digitChar)

theorem hotp_lt (key : List Bool) (counter digits : ℕ) : hotp key counter digits < 10 ^ digits :=
  Nat.mod_lt _ (Nat.pow_pos (by decide))

end Kit.SecureHash
