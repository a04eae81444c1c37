import OwSec.Seclibs.Sha1

/-!
# One-time codes

`seclibs/cpptotp/otp.cpp`.  The digest of a counter under a key is cut down to 31 bits and then to
so many decimal digits.  The power of ten is a `uint32_t`, so for up to nine digits the codes are
the standard ones.
-/

namespace OwSec.CppTotp

open Kit Bytes

/-- `hmacSha1_64`. -/
def hmacSha1_64 (key msg : List UInt8) : List UInt8 := hmacSha1 key msg 64

/-- `digits10`. -/
def digits10 (digitCount : ℕ) : BitVec 32 := (List.range digitCount).foldl (fun n _ ↦ n * 10) 1

/-- The four bytes of a digest from an offset on, as a `uint32_t`. -/
def fourWord (hmac : List UInt8) (offset : ℕ) : Option (BitVec 32) := do
  let fourWord := (hmac.drop offset).take 4
  let b₀ ← fourWord[0]?
  let b₁ ← fourWord[1]?
  let b₂ ← fourWord[2]?
  let b₃ ← fourWord[3]?
  some (b₀.toBitVec.setWidth 32 <<< 24 ||| b₁.toBitVec.setWidth 32 <<< 16 |||
    b₂.toBitVec.setWidth 32 <<< 8 ||| b₃.toBitVec.setWidth 32 <<< 0)

/-- `hotp`.  `none` is a read outside the digest, or a division by zero. -/
def hotp (key : List UInt8) (counter : BitVec 64) (digitCount : ℕ)
    (hmacf : List UInt8 → List UInt8 → List UInt8) : Option ℕ := do
  let hmac := hmacf key (u64beToByteString counter)
  let last ← hmac[hmac.length - 1]?
  let ret ← fourWord hmac (last.toNat &&& 0x0F)
  if digits10 digitCount = 0 then none
  else some ((ret &&& 0x7FFFFFFF).toNat % (digits10 digitCount).toNat)

/-- `totp`. -/
def totp (key : List UInt8) (timeNow timeStart timeStep : BitVec 64) (digitCount : ℕ)
    (hmacf : List UInt8 → List UInt8 → List UInt8) : Option ℕ :=
  if timeStep = 0 then none else hotp key ((timeNow - timeStart) / timeStep) digitCount hmacf

/-! ## The standard codes -/

/-- Up to nine digits the power of ten does not wrap. -/
theorem toNat_digits10 {digitCount : ℕ} (h : digitCount ≤ 9) :
    (digits10 digitCount).toNat = 10 ^ digitCount := by
  have hall : ∀ n < 10, (digits10 n).toNat = 10 ^ n := by decide
  exact hall _ (Nat.lt_succ_of_le h)

theorem digits10_ne_zero {digitCount : ℕ} (h : digitCount ≤ 9) : digits10 digitCount ≠ 0 := by
  intro hzero
  have hpow := toNat_digits10 h
  rw [hzero] at hpow
  exact absurd hpow.symm (Nat.pow_pos (by decide)).ne'

/-- The offset is in the last four bits. -/
theorem number_drop_bits {hmac : List UInt8} {last : UInt8} (h : hmac[hmac.length - 1]? = some last) :
    number 2 (((bits hmac).drop ((bits hmac).length - 4)).map Bool.toNat) =
      last.toNat &&& 0x0F := by
  obtain ⟨front, rfl⟩ : ∃ front, hmac = front ++ [last] := by
    rw [← List.getLast?_eq_getElem?] at h
    exact ⟨_, (List.dropLast_append_getLast? last h).symm⟩
  have hlast : (bits (front ++ [last])).drop ((bits (front ++ [last])).length - 4) =
      (bitsOf last.toBitVec).drop 4 := by
    have hone : bits [last] = bitsOf last.toBitVec := List.flatMap_singleton ..
    have hsize : (bits front ++ bitsOf last.toBitVec).length - 4 = (bits front).length + 4 := by
      rw [List.length_append, length_bitsOf]
      omega
    rw [bits_append, hone, hsize, List.drop_length_add_append]
  rw [hlast, List.map_drop, SecureHash.map_toNat_bitsOf, drop_lastDigits,
    number_lastDigits]
  exact (Nat.and_two_pow_sub_one_eq_mod last.toNat 4).symm

/-- The mask leaves out the first bit. -/
theorem number_tail_bits (w : BitVec 32) :
    number 2 ((bitsOf w).tail.map Bool.toNat) = (w &&& 0x7FFFFFFF).toNat := by
  rw [← List.drop_one, List.map_drop, SecureHash.map_toNat_bitsOf, drop_lastDigits,
    number_lastDigits, BitVec.toNat_and]
  exact (Nat.and_two_pow_sub_one_eq_mod w.toNat 31).symm

/-- The four bytes are there, and they are a part of the bits. -/
theorem fourWord_eq {hmac : List UInt8} {offset : ℕ} (h : offset + 4 ≤ hmac.length) :
    ∃ w, fourWord hmac offset = some w ∧ bitsOf w = ((bits hmac).drop (8 * offset)).take 32 := by
  have hlength : ((hmac.drop offset).take 4).length = 4 := by
    rw [List.length_take, List.length_drop]
    omega
  obtain ⟨b₀, b₁, b₂, b₃, hbytes⟩ := List.length_eq_four.mp hlength
  refine ⟨networkWord b₀ b₁ b₂ b₃, ?_, ?_⟩
  · rw [fourWord, hbytes, networkWord_eq_or]
    rfl
  · rw [bitsOf_networkWord, ← hbytes, bits_take, bits_drop]

/-- Codes of up to nine digits are the standard ones. -/
theorem hotp_eq (key : List UInt8) (counter : BitVec 64) {digitCount : ℕ} (h : digitCount ≤ 9) :
    hotp key counter digitCount hmacSha1_64 =
      some (SecureHash.hotp (bits key) counter.toNat digitCount) := by
  have hpow := toNat_digits10 h
  have hpos := digits10_ne_zero h
  have hmessage : SecureHash.hmac SecureHash.sha1 512 (bits key)
      (bitsOf (BitVec.ofNat 64 counter.toNat)) =
        bits (hmacSha1_64 key (u64beToByteString counter)) := by
    rw [hmacSha1_64, bits_hmacSha1, bits_u64beToByteString, BitVec.ofNat_toNat,
      BitVec.setWidth_eq]
  rw [SecureHash.hotp, hmessage, hotp]
  have hlength : (hmacSha1_64 key (u64beToByteString counter)).length = 20 := length_hmacSha1 ..
  generalize hmacSha1_64 key (u64beToByteString counter) = hmac at hlength ⊢
  obtain ⟨last, hlast⟩ : ∃ last, hmac[hmac.length - 1]? = some last :=
    ⟨_, List.getElem?_eq_getElem (by omega)⟩
  -- the offset is at most fifteen, so the bytes are there
  have hoffset : (last.toNat &&& 0x0F) + 4 ≤ hmac.length := by
    have hand : last.toNat &&& 0x0F ≤ 0x0F := Nat.and_le_right
    omega
  obtain ⟨w, hword, hbits⟩ := fourWord_eq hoffset
  simp only [SecureHash.truncate, number_drop_bits hlast, ← hbits, number_tail_bits, hlast, hword,
    Option.bind_eq_bind, Option.bind_some, hpos, if_false, hpow]

/-- The code of a time is the standard one, as long as the clock is not before the start. -/
theorem totp_eq (key : List UInt8) {timeNow timeStart timeStep : BitVec 64} {digitCount : ℕ}
    (hstart : timeStart ≤ timeNow) (hstep : timeStep ≠ 0) (hdigits : digitCount ≤ 9) :
    totp key timeNow timeStart timeStep digitCount hmacSha1_64 =
      some (SecureHash.totp (bits key) timeNow.toNat timeStart.toNat timeStep.toNat digitCount) := by
  rw [totp, if_neg hstep, hotp_eq key _ hdigits, SecureHash.totp, BitVec.toNat_udiv,
    BitVec.toNat_sub_of_le hstart]

/-- A code of eight digits. -/
theorem totp_eq_eight_digits :
    totp [0x31, 0x32] 1111111111 0 30 8 hmacSha1_64 =
      some (SecureHash.totp (bits [0x31, 0x32]) 1111111111 0 30 8) :=
  totp_eq [0x31, 0x32] (by decide) (by decide) (by decide)

end OwSec.CppTotp
