import OwSec.Kit.SecureHash
import OwSec.Seclibs.Bytes

/-!
# The hash of the one-time passwords

`seclibs/cpptotp/sha1.cpp` on byte strings.  The implementation fills a message up byte by byte,
keeps the words of the rounds in an array, from the thirty-third on with a recurrence that reaches
twice as far back, and writes the functions of the rounds with "or".  It computes the standard hash
of the bits, for every message whose length in bits fits into 64 bits, and the keyed hash on top of
it is the standard one.
-/

namespace OwSec.CppTotp

open Kit Bytes

/-! ## `sha1` -/

/-- `lrot32`. -/
def lrot32 (num : BitVec 32) (rotcount : ℕ) : BitVec 32 :=
  num <<< rotcount ||| num >>> (32 - rotcount)

/-- `while (bstr.size() % (512 / 8) != (448 / 8)) bstr.push_back(0x00)`. -/
def padZeros (bstr : List UInt8) : List UInt8 :=
  if bstr.length % (512 / 8) = 448 / 8 then bstr else padZeros (bstr ++ [0x00])
termination_by (120 - bstr.length % 64) % 64
decreasing_by
  simp only [List.length_append, List.length_singleton]
  omega

/-- The message that is hashed, in whole chunks.  A length is a `uint64_t`. -/
def padMessage (msg : List UInt8) : List UInt8 :=
  padZeros (msg ++ [0x80]) ++ u64beToByteString (.ofNat 64 (msg.length * 8))

/-- `words[j]`, read from the chunk. -/
def chunkWord (chunk : List UInt8) (j : ℕ) : BitVec 32 :=
  let byte (i : ℕ) : BitVec 32 := (chunk.getD (4 * j + i) 0).toBitVec.setWidth 32
  byte 0 <<< 24 ||| byte 1 <<< 16 ||| byte 2 <<< 8 ||| byte 3 <<< 0

/-- `words[j]`, from the words before it; from 32 on with the optimisation. -/
def nextWord (words : List (BitVec 32)) (j : ℕ) : BitVec 32 :=
  let word (i : ℕ) : BitVec 32 := words.getD (j - i) 0
  if j < 32 then lrot32 (word 3 ^^^ word 8 ^^^ word 14 ^^^ word 16) 1
  else lrot32 (word 6 ^^^ word 16 ^^^ word 28 ^^^ word 32) 2

/-- `words`. -/
def chunkWords (chunk : List UInt8) : List (BitVec 32) :=
  (List.range' 16 64).foldl (fun words j ↦ words ++ [nextWord words j])
    ((List.range 16).map (chunkWord chunk))

/-- The five hash counters, and the five variables of the loop. -/
structure Counters where
  a : BitVec 32
  b : BitVec 32
  c : BitVec 32
  d : BitVec 32
  e : BitVec 32
  deriving DecidableEq, Repr

/-- `h0` to `h4` before the first chunk. -/
def initialCounters : Counters where
  a := 0x67452301
  b := 0xEFCDAB89
  c := 0x98BADCFE
  d := 0x10325476
  e := 0xC3D2E1F0

/-- A round of the loop. -/
def loopRound (words : List (BitVec 32)) (s : Counters) (j : ℕ) : Counters :=
  let (f, k) : BitVec 32 × BitVec 32 :=
    if j < 20 then ((s.b &&& s.c) ||| (~~~s.b &&& s.d), 0x5A827999)
    else if j < 40 then (s.b ^^^ s.c ^^^ s.d, 0x6ED9EBA1)
    else if j < 60 then ((s.b &&& s.c) ||| (s.b &&& s.d) ||| (s.c &&& s.d), 0x8F1BBCDC)
    else (s.b ^^^ s.c ^^^ s.d, 0xCA62C1D6)
  let tmp := lrot32 s.a 5 + f + s.e + k + words.getD j 0
  { a := tmp, b := s.a, c := lrot32 s.b 30, d := s.c, e := s.d }

/-- What a chunk makes of the hash counters. -/
def hashChunk (h : Counters) (chunk : List UInt8) : Counters :=
  let s := (List.range 80).foldl (loopRound (chunkWords chunk)) h
  { a := h.a + s.a, b := h.b + s.b, c := h.c + s.c, d := h.d + s.d, e := h.e + s.e }

/-- The assembled digest. -/
def digest (h : Counters) : List UInt8 :=
  u32beToByteString h.a ++ u32beToByteString h.b ++ u32beToByteString h.c ++
    u32beToByteString h.d ++ u32beToByteString h.e

/-- `sha1`. -/
def sha1 (msg : List UInt8) : List UInt8 :=
  let bstr := padMessage msg
  digest ((List.range (bstr.length / 64)).foldl
    (fun h i ↦ hashChunk h ((bstr.drop (i * 64)).take 64)) initialCounters)

/-! ## `hmacSha1` -/

/-- `realKey`: a long key is hashed, and a short one filled up with zeros. -/
def realKey (key : List UInt8) (blockSize : ℕ) : List UInt8 :=
  let key := if blockSize < key.length then sha1 key else key
  if key.length < blockSize then key ++ List.replicate (blockSize - key.length) 0x00 else key

/-- `hmacSha1`. -/
def hmacSha1 (key msg : List UInt8) (blockSize : ℕ) : List UInt8 :=
  let innerPadKey := (realKey key blockSize).map (· ^^^ 0x36)
  let outerPadKey := (realKey key blockSize).map (· ^^^ 0x5C)
  sha1 (outerPadKey ++ sha1 (innerPadKey ++ msg))

/-! ## The standard hash

The counters are the state of the standard. -/

open SecureHash (Word State schedule blockWords)

theorem lrot32_eq (num : Word) {rotcount : ℕ} (h : rotcount < 32) :
    lrot32 num rotcount = num.rotateLeft rotcount := by
  rw [lrot32, BitVec.rotateLeft_def, Nat.mod_eq_of_lt h]

/-! ### Words -/

/-- Four bytes that are shifted into place are a word in network order. -/
theorem networkWord_eq_or (b₀ b₁ b₂ b₃ : UInt8) :
    networkWord b₀ b₁ b₂ b₃ = b₀.toBitVec.setWidth 32 <<< 24 ||| b₁.toBitVec.setWidth 32 <<< 16 |||
      b₂.toBitVec.setWidth 32 <<< 8 ||| b₃.toBitVec.setWidth 32 <<< 0 := by
  refine BitVec.eq_of_getLsbD_eq fun i hi ↦ ?_
  have hbyte (b : UInt8) {j : ℕ} (hj : 8 ≤ j) : b.toBitVec.getLsbD j = false :=
    BitVec.getLsbD_of_ge _ _ hj
  rw [networkWord, getLsbD_wordOf]
  simp only [BitVec.getLsbD_or, BitVec.getLsbD_shiftLeft, BitVec.getLsbD_setWidth, hi, decide_true,
    Bool.true_and]
  grind

/-- A word of a chunk is a word of its bits. -/
theorem chunkWord_eq {chunk : List UInt8} {j : ℕ} (h : 4 * j + 3 < chunk.length) :
    chunkWord chunk j = blockWords (bits chunk) j := by
  have hblock : block 4 chunk j = [chunk.getD (4 * j + 0) 0, chunk.getD (4 * j + 1) 0,
      chunk.getD (4 * j + 2) 0, chunk.getD (4 * j + 3) 0] := by
    have hget (i : ℕ) (hi : i < 4) : chunk[j * 4 + i]? = some (chunk.getD (4 * j + i) 0) := by
      have hlt : 4 * j + i < chunk.length := by omega
      rw [Nat.mul_comm, List.getD_eq_getElem?_getD, List.getElem?_eq_getElem hlt, Option.getD_some]
    refine List.ext_getElem? fun i ↦ ?_
    rw [block, List.getElem?_take]
    split
    · rename_i hi
      rw [List.getElem?_drop, hget i hi]
      obtain rfl | rfl | rfl | rfl : i = 0 ∨ i = 1 ∨ i = 2 ∨ i = 3 := by omega
      all_goals rfl
    · rename_i hi
      rw [List.getElem?_eq_none (Nat.not_lt.mp hi)]
  have hbits : block 32 (bits chunk) j = bits (block 4 chunk j) := by
    have hdrop : j * 32 = 8 * (j * 4) := by omega
    rw [block, block, hdrop, ← bits_drop]
    exact (bits_take _ 4).symm
  rw [blockWords, hbits, hblock, ← bitsOf_networkWord, SecureHash.wordOfBits_bitsOf,
    networkWord_eq_or]
  rfl

/-- What is computed from the words before it is the next word of the standard. -/
theorem nextWord_eq (M : ℕ → Word) {j : ℕ} (h : 16 ≤ j) :
    nextWord ((List.range j).map (schedule M)) j = schedule M j := by
  have hword (i : ℕ) (hi : 0 < i) :
      ((List.range j).map (schedule M)).getD (j - i) 0 = schedule M (j - i) := by
    have hlt : j - i < j := by omega
    simp [List.getD_eq_getElem?_getD, hlt]
  unfold nextWord
  simp only [hword, Nat.zero_lt_succ]
  split
  · rw [lrot32_eq _ (by decide), SecureHash.schedule_of_le M h]
  · rename_i hj
    rw [lrot32_eq _ (by decide), SecureHash.schedule_twice M (Nat.not_lt.mp hj)]

/-- The loops fill the array with the words of the standard. -/
theorem chunkWords_eq {chunk : List UInt8} (h : chunk.length = 64) :
    chunkWords chunk = (List.range 80).map (schedule (blockWords (bits chunk))) := by
  have hfirst : (List.range 16).map (chunkWord chunk) =
      (List.range 16).map (schedule (blockWords (bits chunk))) := by
    refine List.map_congr_left fun j hj ↦ ?_
    have hj : j < 16 := List.mem_range.mp hj
    rw [SecureHash.schedule_of_lt _ hj, chunkWord_eq (by omega)]
  have hloop (n : ℕ) : (List.range' 16 n).foldl (fun words j ↦ words ++ [nextWord words j])
      ((List.range 16).map (chunkWord chunk)) =
        (List.range (16 + n)).map (schedule (blockWords (bits chunk))) := by
    induction n with
    | zero => exact hfirst
    | succ n ih =>
      rw [List.range'_1_concat, List.foldl_append, ih, List.foldl_cons, List.foldl_nil,
        nextWord_eq _ (Nat.le_add_right 16 n), ← Nat.add_assoc, List.range_succ, List.map_append]
      rfl
  exact hloop 64

/-! ### Rounds -/

/-- The counters as the state of the standard. -/
def Counters.toState (s : Counters) : State where
  a := s.a
  b := s.b
  c := s.c
  d := s.d
  e := s.e

@[simp] theorem toState_initialCounters : initialCounters.toState = .initial := rfl

/-- A round of the loop is one of the standard. -/
theorem toState_loopRound {words : List (BitVec 32)} {W : ℕ → Word} {j : ℕ}
    (h : words.getD j 0 = W j) (s : Counters) :
    (loopRound words s j).toState = s.toState.round W j := by
  unfold loopRound Counters.toState State.round SecureHash.roundFunction SecureHash.roundConstant
  rw [h, lrot32_eq _ (by decide), lrot32_eq _ (by decide)]
  simp only [← SecureHash.ch_eq_or, ← SecureHash.maj_eq_or]
  split_ifs <;> rfl

theorem toState_hashChunk {chunk : List UInt8} (hlength : chunk.length = 64) (h : Counters) :
    (hashChunk h chunk).toState = SecureHash.compress h.toState (bits chunk) := by
  have hrounds (n : ℕ) (hn : n ≤ 80) :
      ((List.range n).foldl (loopRound (chunkWords chunk)) h).toState =
        (List.range n).foldl (State.round (schedule (blockWords (bits chunk)))) h.toState := by
    induction n with
    | zero => rfl
    | succ n ih =>
      have hword : (chunkWords chunk).getD n 0 = schedule (blockWords (bits chunk)) n := by
        rw [chunkWords_eq hlength]
        simp [List.getD_eq_getElem?_getD, Nat.lt_of_succ_le hn]
      rw [List.range_succ, List.foldl_append, List.foldl_append, ← ih (Nat.le_of_succ_le hn)]
      exact toState_loopRound hword _
  rw [SecureHash.compress, ← hrounds 80 (Nat.le_refl 80)]
  rfl

/-! ### Padding -/

/-- The loop adds the zeros that are missing. -/
theorem padZeros_eq (bstr : List UInt8) :
    padZeros bstr = bstr ++ List.replicate ((120 - bstr.length % 64) % 64) 0x00 := by
  induction bstr using padZeros.induct with
  | case1 bstr h =>
    have hcount : (120 - bstr.length % 64) % 64 = 0 := by omega
    rw [padZeros, if_pos h, hcount, List.replicate_zero, List.append_nil]
  | case2 bstr h ih =>
    have hcount :
        (120 - bstr.length % 64) % 64 = (120 - (bstr.length + 1) % 64) % 64 + 1 := by omega
    rw [padZeros, if_neg h, ih, List.length_append, List.length_singleton, hcount,
      List.replicate_succ, List.append_assoc, List.singleton_append]

theorem bits_replicate_zero (k : ℕ) :
    bits (List.replicate k 0x00) = List.replicate (8 * k) false := by
  induction k with
  | zero => rfl
  | succ k ih =>
    have hzero : bitsOf (0x00 : UInt8).toBitVec = List.replicate 8 false := by decide
    rw [List.replicate_succ, bits_cons, ih, hzero, ← List.replicate_add, Nat.mul_succ, Nat.add_comm]

/-- Bytes are filled up as their bits are. -/
theorem bits_padMessage (msg : List UInt8) : bits (padMessage msg) = SecureHash.pad (bits msg) := by
  have hone : bits [0x80] = true :: List.replicate 7 false := by decide
  have hzeros : SecureHash.zeros (8 * msg.length) =
      7 + 8 * ((120 - (msg.length + 1) % 64) % 64) := by
    unfold SecureHash.zeros
    omega
  rw [padMessage, padZeros_eq, bits_append, bits_append, bits_append, hone, bits_replicate_zero,
    bits_u64beToByteString, SecureHash.pad, length_bits, hzeros, List.length_append,
    List.length_singleton, List.replicate_add, Nat.mul_comm msg.length]
  simp only [List.append_assoc, List.cons_append]

/-! ### The digest -/

theorem bits_digest (h : Counters) : bits (digest h) = h.toState.bits := by
  simp only [digest, bits_append, bits_u32beToByteString]
  rfl

@[simp] theorem length_sha1 (msg : List UInt8) : (sha1 msg).length = 20 := by
  simp [sha1, digest]

/-- The blocks of the bits are the bits of the blocks. -/
theorem blocks_bits {n : ℕ} (hn : 0 < n) (bytes : List UInt8) :
    blocks (8 * n) (bits bytes) = (blocks n bytes).map bits :=
  blocks_flatMap (f := fun b : UInt8 ↦ bitsOf b.toBitVec) (by decide) hn
    (fun b ↦ length_bitsOf b.toBitVec) bytes

/-- The implementation computes the standard hash. -/
theorem bits_sha1 (msg : List UInt8) : bits (sha1 msg) = SecureHash.sha1 (bits msg) := by
  have hblocks := blocks_bits (n := 64) (by decide) (padMessage msg)
  have hfold (chunks : List (List UInt8)) (hchunks : ∀ c ∈ chunks, c.length = 64) (h : Counters) :
      (chunks.foldl hashChunk h).toState =
        (chunks.map bits).foldl SecureHash.compress h.toState := by
    induction chunks generalizing h with
    | nil => rfl
    | cons chunk chunks ih =>
      obtain ⟨hchunk, hrest⟩ := List.forall_mem_cons.mp hchunks
      rw [List.foldl_cons, ih hrest, toState_hashChunk hchunk]
      rfl
  have hrange : (List.range ((padMessage msg).length / 64)).foldl
      (fun h i ↦ hashChunk h (((padMessage msg).drop (i * 64)).take 64)) initialCounters =
        (blocks 64 (padMessage msg)).foldl hashChunk initialCounters := (List.foldl_map ..).symm
  rw [sha1]
  simp only [hrange]
  rw [bits_digest, hfold _ fun c hc ↦ length_of_mem_blocks (by decide) hc, SecureHash.sha1,
    ← bits_padMessage, toState_initialCounters, hblocks]

/-! ## The standard keyed hash -/

/-- Bytes that are masked with one byte have masked bits. -/
theorem bits_map_xor (mask : UInt8) (bytes : List UInt8) :
    bits (bytes.map (· ^^^ mask)) =
      List.zipWith xor (bits bytes) (SecureHash.padding mask (8 * bytes.length)) := by
  have hsize : 8 * bytes.length / 8 = bytes.length := by omega
  have hbyte (b : UInt8) : bitsOf (b ^^^ mask).toBitVec =
      List.zipWith xor (bitsOf b.toBitVec) (bitsOf mask.toBitVec) := by
    refine List.ext_getElem (by simp) fun i hi _ ↦ ?_
    simp [bitsOf]
  rw [SecureHash.padding, hsize]
  clear hsize
  induction bytes with
  | nil => rfl
  | cons b bytes ih =>
    rw [List.map_cons, List.length_cons, List.replicate_succ, bits_cons, bits_cons, bits_cons, ih,
      hbyte, List.zipWith_append (by simp)]

theorem length_realKey (key : List UInt8) : (realKey key 64).length = 64 := by
  by_cases hlong : 64 < key.length
  · simp [realKey, hlong]
  · by_cases hshort : key.length < 64
    · simp [realKey, hlong, hshort]
      omega
    · simp [realKey, hlong, hshort]
      omega

/-- The key is brought to the size of a block as the standard says. -/
theorem bits_realKey (key : List UInt8) (blockSize : ℕ) :
    bits (realKey key blockSize) =
      SecureHash.blockKey SecureHash.sha1 (8 * blockSize) (bits key) := by
  have hpad (short : List UInt8) :
      bits (if short.length < blockSize then short ++ List.replicate (blockSize - short.length) 0x00
        else short) =
        bits short ++ List.replicate (8 * blockSize - (bits short).length) false := by
    rw [length_bits]
    split
    · rw [bits_append, bits_replicate_zero, Nat.mul_sub]
    · have hnone : 8 * blockSize - 8 * short.length = 0 := by omega
      rw [hnone, List.replicate_zero, List.append_nil]
  have hcond : 8 * blockSize < (bits key).length ↔ blockSize < key.length := by
    rw [length_bits]
    omega
  simp only [realKey, SecureHash.blockKey, hpad, hcond]
  split
  · rw [bits_sha1]
  · rfl

/-- The implementation computes the standard keyed hash. -/
theorem bits_hmacSha1 (key msg : List UInt8) :
    bits (hmacSha1 key msg 64) = SecureHash.hmac SecureHash.sha1 512 (bits key) (bits msg) := by
  have hmask (mask : UInt8) : bits ((realKey key 64).map (· ^^^ mask)) =
      List.zipWith xor (SecureHash.blockKey SecureHash.sha1 512 (bits key))
        (SecureHash.padding mask 512) := by
    rw [bits_map_xor, bits_realKey, length_realKey]
  simp only [hmacSha1, SecureHash.hmac]
  rw [bits_sha1, bits_append, hmask, bits_sha1, bits_append, hmask]

@[simp] theorem length_hmacSha1 (key msg : List UInt8) (blockSize : ℕ) :
    (hmacSha1 key msg blockSize).length = 20 := length_sha1 _

end OwSec.CppTotp
