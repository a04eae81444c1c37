import OwSec.Kit.NetworkOrder

/-!
# Byte strings and base 32

`seclibs/cpptotp/bytes.cpp`: numbers as bytes, and the text of a byte string in base 32, which is
how the secret of a one-time password is shown to an authenticator.  Strings are lists of bytes.
-/

namespace OwSec.CppTotp.Bytes

open Kit

/-! ## Numbers -/

/-- A `uint32_t` that is stored in a byte. -/
def toByte (num : BitVec 32) : UInt8 := .ofBitVec (num.setWidth 8)

/-- `u32beToByteString`. -/
def u32beToByteString (num : BitVec 32) : List UInt8 :=
  [toByte (num >>> 24 &&& 0xFF), toByte (num >>> 16 &&& 0xFF), toByte (num >>> 8 &&& 0xFF),
    toByte (num >>> 0 &&& 0xFF)]

/-- `u64beToByteString`. -/
def u64beToByteString (num : BitVec 64) : List UInt8 :=
  u32beToByteString ((num >>> 32 &&& 0xFFFFFFFF).setWidth 32) ++
    u32beToByteString ((num >>> 0 &&& 0xFFFFFFFF).setWidth 32)

/-- A shift and a mask take a byte. -/
theorem toByte_shift (num : BitVec 32) (k : ℕ) :
    toByte (num >>> (8 * k) &&& 0xFF) = .ofBitVec (byteOf num k) := by
  refine congrArg UInt8.ofBitVec (BitVec.eq_of_getLsbD_eq fun i hi ↦ ?_)
  have hmask : (0xFF : BitVec 32) = (BitVec.allOnes 8).setWidth 32 := by decide
  have hword : i < 32 := Nat.lt_of_lt_of_le hi (by decide)
  simp only [hmask, byteOf, BitVec.getLsbD_setWidth, BitVec.getLsbD_and, BitVec.getLsbD_ushiftRight,
    BitVec.getLsbD_extractLsb', BitVec.getLsbD_allOnes, hi, hword, decide_true, Bool.true_and,
    Bool.and_true]

theorem u32beToByteString_eq (num : BitVec 32) :
    u32beToByteString num = [.ofBitVec (byteOf num 3), .ofBitVec (byteOf num 2),
      .ofBitVec (byteOf num 1), .ofBitVec (byteOf num 0)] := by
  rw [← toByte_shift num 3, ← toByte_shift num 2, ← toByte_shift num 1, ← toByte_shift num 0]
  rfl

/-- The bytes of a number have its bits. -/
theorem bits_u32beToByteString (num : BitVec 32) : bits (u32beToByteString num) = bitsOf num := by
  rw [u32beToByteString_eq, ← bitsOf_networkWord, networkWord]
  exact congrArg bitsOf (wordOf_byteOf num)

theorem bits_append (as bs : List UInt8) : bits (as ++ bs) = bits as ++ bits bs :=
  List.flatMap_append ..

theorem bits_u64beToByteString (num : BitVec 64) : bits (u64beToByteString num) = bitsOf num := by
  rw [u64beToByteString, bits_append, bits_u32beToByteString, bits_u32beToByteString,
    ← bitsOf_append]
  refine congrArg bitsOf (BitVec.eq_of_getLsbD_eq fun i hi ↦ ?_)
  have hmask : (0xFFFFFFFF : BitVec 64) = (BitVec.allOnes 32).setWidth 64 := by decide
  simp only [hmask, BitVec.getLsbD_append, BitVec.getLsbD_setWidth, BitVec.getLsbD_and,
    BitVec.getLsbD_ushiftRight, BitVec.getLsbD_allOnes]
  grind

@[simp] theorem length_u32beToByteString (num : BitVec 32) : (u32beToByteString num).length = 4 :=
  rfl

@[simp] theorem length_u64beToByteString (num : BitVec 64) : (u64beToByteString num).length = 8 :=
  rfl

/-! ## Encoding -/

/-- The padding character. -/
def pad : UInt8 := 0x3D

/-- The character for five bits. -/
def b32Char (val : ℕ) : UInt8 := if val < 26 then .ofNat (val + 0x41) else .ofNat (val - 26 + 0x32)

/-- What `bytesToB32Chunk` shifts into the chunk, with the number of characters to put. -/
def b32Whole (bs : List UInt8) : ℕ × ℕ :=
  let byte (i : ℕ) := (bs.getD i 0).toNat
  let whole := 0 ||| byte 0 <<< 32
  let putchars := 2
  let (whole, putchars) :=
    if 1 < bs.length then (whole ||| byte 1 <<< 24, putchars + 2) else (whole, putchars)
  let (whole, putchars) :=
    if 2 < bs.length then (whole ||| byte 2 <<< 16, putchars + 1) else (whole, putchars)
  let (whole, putchars) :=
    if 3 < bs.length then (whole ||| byte 3 <<< 8, putchars + 2) else (whole, putchars)
  if 4 < bs.length then (whole ||| byte 4, putchars + 1) else (whole, putchars)

/-- `bytesToB32Chunk`. -/
def bytesToB32Chunk (bs : List UInt8) : Except String (List UInt8) :=
  if bs.length < 1 ∨ 5 < bs.length then
    .error "need a chunk of at least 1 and at most 5 bytes"
  else
    let (whole, putchars) := b32Whole bs
    let ret := (List.range putchars).map fun i ↦ b32Char (whole >>> ((7 - i) * 5) &&& 0x1F)
    .ok (ret ++ List.replicate (8 - putchars) pad)

/-- `toBase32`. -/
def toBase32 (bs : List UInt8) : Except String (List UInt8) := do
  let ret ← (List.range (bs.length / 5)).foldlM (fun ret j ↦ do
    let chk ← bytesToB32Chunk ((bs.drop (j * 5)).take 5)
    pure (ret ++ chk)) []
  let i := bs.length / 5 * 5
  if 0 < bs.length - i then do
    let chk ← bytesToB32Chunk (bs.drop i)
    pure (ret ++ chk)
  else pure ret

/-! ## Decoding -/

/-- The bits of a character. -/
def b32Bits (c : UInt8) : Option ℕ :=
  if 0x41 ≤ c ∧ c ≤ 0x5A then some (c.toNat - 0x41)
  else if 0x32 ≤ c ∧ c ≤ 0x37 then some (c.toNat - 0x32 + 26)
  else none

/-- The loop over the characters of a chunk, from the index `i` on: the padding and the bits. -/
def b32Loop : List UInt8 → ℕ → ℕ → ℕ → Except String (ℕ × ℕ)
  | [], _, padcount, whole => .ok (padcount, whole)
  | c :: str, i, padcount, whole =>
    if c = pad then b32Loop str (i + 1) (padcount + 1) (whole ||| 0 <<< ((7 - i) * 5))
    else if 0 < padcount then .error "padding character followed by non-padding character"
    else
      match b32Bits c with
      | some bits => b32Loop str (i + 1) padcount (whole ||| bits <<< ((7 - i) * 5))
      | none => .error ("not a base32 character: " ++ (Char.ofNat c.toNat).toString)

/-- The bytes of a chunk, by its padding. -/
def finalcount : ℕ → Except String ℕ
  | 0 => .ok 5
  | 1 => .ok 4
  | 3 => .ok 3
  | 4 => .ok 2
  | 6 => .ok 1
  | _ => .error "invalid number of padding characters"

/-- `b32ChunkToBytes`. -/
def b32ChunkToBytes (str : List UInt8) : Except String (List UInt8) :=
  if str.length ≠ 8 then .error "incorrect length of base32 chunk"
  else do
    let (padcount, whole) ← b32Loop str 0 0 0
    let count ← finalcount padcount
    pure ((List.range count).map fun i ↦ .ofNat (whole >>> ((4 - i) * 8) &&& 0xFF))

/-- `fromBase32`. -/
def fromBase32 (b32str : List UInt8) : Except String (List UInt8) :=
  if b32str.length % 8 ≠ 0 then .error "base32 string length not divisible by 8"
  else
    (List.range (b32str.length / 8)).foldlM (fun ret j ↦ do
      let chk ← b32ChunkToBytes ((b32str.drop (j * 8)).take 8)
      pure (ret ++ chk)) []

/-- `while (newstr.size() % 8 != 0) newstr.push_back('=')`. -/
def padToChunk (newstr : List UInt8) : List UInt8 :=
  if newstr.length % 8 = 0 then newstr else padToChunk (newstr ++ [pad])
termination_by (8 - newstr.length % 8) % 8
decreasing_by
  simp only [List.length_append, List.length_singleton]
  omega

/-- `fromUnpaddedBase32`. -/
def fromUnpaddedBase32 (b32str : List UInt8) : Except String (List UInt8) :=
  fromBase32 (padToChunk b32str)

end OwSec.CppTotp.Bytes
