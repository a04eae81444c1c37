import OwSec.Kit.Bits

/-!
# Base64

`Utils::base64encode` and `Utils::base64decode` (`framework/utils.cpp`) on strings of bytes.  The
encoder takes three bytes at a time, and what is left over at the end.  The decoder goes through
the characters one after the other with a word of which only the lower 24 bits matter, so it needs
no fresh word for the next group.

At a padding character the decoder asks how many characters are left.  With two of them it is
done, and does not look at the last one.
-/

namespace OwSec.Base64

open Kit

/-- `kEncodeLookup`. -/
def kEncodeLookup : List UInt8 :=
  "ABCDEFGHIJKLMNOPQRSTUVWXYZabcdefghijklmnopqrstuvwxyz0123456789+/".toList.map Char.toUInt8

/-- `kPadCharacter`. -/
def kPadCharacter : UInt8 := 0x3D

/-! ## Encoding -/

/-- `kEncodeLookup[(temp & mask) >> shift]`. -/
def lookup (temp mask shift : ℕ) : Option UInt8 := kEncodeLookup[(temp &&& mask) >>> shift]?

/-- The four characters of a complete group. -/
def encodeGroup (temp : ℕ) : Option (List UInt8) := do
  let c₀ ← lookup temp 0x00FC0000 18
  let c₁ ← lookup temp 0x0003F000 12
  let c₂ ← lookup temp 0x00000FC0 6
  let c₃ ← lookup temp 0x0000003F 0
  some [c₀, c₁, c₂, c₃]

/-- The loop of the encoder: `n` more groups, from the index `i` on.  `none` is a read outside the
input. -/
def encodeLoop (input : List UInt8) : ℕ → ℕ → List UInt8 → Option (ℕ × List UInt8)
  | 0, i, encoded => some (i, encoded)
  | n + 1, i, encoded => do
    let a ← input[i]?
    let b ← input[i + 1]?
    let c ← input[i + 2]?
    let group ← encodeGroup ((a.toNat <<< 16 + b.toNat <<< 8 + c.toNat) % 2 ^ 32)
    encodeLoop input n (i + 3) (encoded ++ group)

/-- The last group, when it is not complete. -/
def encodeRest (input : List UInt8) (size i : ℕ) (encoded : List UInt8) : Option (List UInt8) :=
  match size % 3 with
  | 1 => do
    let a ← input[i]?
    let temp := (a.toNat <<< 16) % 2 ^ 32
    let c₀ ← lookup temp 0x00FC0000 18
    let c₁ ← lookup temp 0x0003F000 12
    some (encoded ++ [c₀, c₁, kPadCharacter, kPadCharacter])
  | 2 => do
    let a ← input[i]?
    let b ← input[i + 1]?
    let temp := (a.toNat <<< 16 + b.toNat <<< 8) % 2 ^ 32
    let c₀ ← lookup temp 0x00FC0000 18
    let c₁ ← lookup temp 0x0003F000 12
    let c₂ ← lookup temp 0x00000FC0 6
    some (encoded ++ [c₀, c₁, c₂, kPadCharacter])
  | _ => some encoded

/-- `Utils::base64encode`. -/
def base64encode (input : List UInt8) (size : UInt32) : Option (List UInt8) := do
  let (i, encoded) ← encodeLoop input (size.toNat / 3) 0 []
  encodeRest input size.toNat i encoded

/-! ## Decoding -/

/-- How decoding may fail: with an exception, or with a read outside the string. -/
inductive Fault
  | runtimeError (what : String)
  | outOfBounds
  deriving DecidableEq

/-- The bits of a character of the alphabet.  A `char` is signed. -/
def sixBits (c : UInt8) : Option ℕ :=
  let it := c.toInt8
  if 0x41 ≤ it ∧ it ≤ 0x5A then some (it.toInt - 0x41).toNat
  else if 0x61 ≤ it ∧ it ≤ 0x7A then some (it.toInt - 0x47).toNat
  else if 0x30 ≤ it ∧ it ≤ 0x39 then some (it.toInt + 0x04).toNat
  else if it = 0x2B then some 0x3E
  else if it = 0x2F then some 0x3F
  else none

/-- `(temp >> shift) & 0x000000FF`. -/
def byteAt (temp shift : ℕ) : UInt8 := .ofNat (temp >>> shift &&& 0x000000FF)

/-- The answer at a padding character, with what is left of the input. -/
def decodePadding (left : List UInt8) (temp : ℕ) (decoded : List UInt8) :
    Except Fault (List UInt8) :=
  match left.length with
  | 1 => .ok (decoded ++ [byteAt temp 16, byteAt temp 8])
  | 2 => .ok (decoded ++ [byteAt temp 10])
  | _ => .error (.runtimeError "Invalid padding in base64!")

/-- The loops of the decoder: `i` characters of a group have been read, and the list is what lies
between `it` and the end of the input. -/
def decodeLoop : List UInt8 → ℕ → ℕ → List UInt8 → Except Fault (List UInt8)
  | [], 0, _, decoded => .ok decoded
  -- the inner loop does not ask for the end
  | [], _ + 1, _, _ => .error .outOfBounds
  | c :: rest, i, temp, decoded =>
    let temp := (temp <<< 6) % 2 ^ 32
    match sixBits c with
    | some v =>
      let temp := temp ||| v
      if i = 3 then
        decodeLoop rest 0 temp (decoded ++ [byteAt temp 16, byteAt temp 8, byteAt temp 0])
      else decodeLoop rest (i + 1) temp decoded
    | none =>
      if c = kPadCharacter then decodePadding (c :: rest) temp decoded
      else .error (.runtimeError "Invalid character in base64!")

/-- The padding that is counted before the bytes are reserved. -/
def padding (input : List UInt8) : Option ℕ :=
  if input.length = 0 then some 0
  else do
    let last ← input[input.length - 1]?
    let before ← input[input.length - 2]?
    some ((if last = kPadCharacter then 1 else 0) + if before = kPadCharacter then 1 else 0)

/-- `Utils::base64decode`. -/
def base64decode (input : List UInt8) : Except Fault (List UInt8) :=
  if input.length % 4 ≠ 0 then .error (.runtimeError "Invalid base64 length!")
  else
    match padding input with
    | none => .error .outOfBounds
    | some _ => decodeLoop input 0 0 []

/-- The string is long enough for what is read of it before the loop. -/
theorem base64decode_eq {input : List UInt8} (h : input.length % 4 = 0) :
    base64decode input = decodeLoop input 0 0 [] := by
  have hpadding : ∃ n, padding input = some n := by
    unfold padding
    by_cases hempty : input.length = 0
    · exact ⟨0, if_pos hempty⟩
    · have hlast : input.length - 1 < input.length := by omega
      have hbefore : input.length - 2 < input.length := by omega
      rw [if_neg hempty, List.getElem?_eq_getElem hlast, List.getElem?_eq_getElem hbefore]
      exact ⟨_, rfl⟩
  obtain ⟨n, hn⟩ := hpadding
  rw [base64decode, if_neg (not_not_intro h), hn]

/-! ## The alphabet -/

/-- The character for a number of six bits. -/
def symbol (v : ℕ) : UInt8 := kEncodeLookup.getD v 0

/-- The alphabet in the order of its codes. -/
theorem kEncodeLookup_eq : kEncodeLookup =
    (List.range' 0x41 26 ++ List.range' 0x61 26 ++ List.range' 0x30 10 ++ [0x2B, 0x2F]).map
      UInt8.ofNat := by decide

/-- There is a character for every number of six bits. -/
theorem length_kEncodeLookup : kEncodeLookup.length = 2 ^ 6 := by
  rw [kEncodeLookup_eq]
  decide

/-- A character is looked up for every group of six bits. -/
theorem lookup_eq (temp shift : ℕ) :
    lookup temp ((2 ^ 6 - 1) <<< shift) shift = some (symbol (temp / 2 ^ shift % 2 ^ 6)) := by
  have hlt : temp / 2 ^ shift % 2 ^ 6 < kEncodeLookup.length := by
    rw [length_kEncodeLookup]
    exact Nat.mod_lt _ (Nat.two_pow_pos 6)
  rw [lookup, Bits.mask_shiftRight, symbol, List.getD_eq_getElem?_getD,
    List.getElem?_eq_getElem hlt, Option.getD_some]

set_option maxRecDepth 2000 in
/-- Characters are read as what they were looked up for. -/
theorem sixBits_symbol {v : ℕ} (h : v < 64) : sixBits (symbol v) = some v := by
  have hall : ∀ v : Fin 64, sixBits (symbol v) = some v.val := by
    unfold symbol
    rw [kEncodeLookup_eq]
    decide
  exact hall ⟨v, h⟩

/-- Padding is none of them. -/
theorem sixBits_kPadCharacter : sixBits kPadCharacter = none := by decide

/-! ## The round trip

Three bytes are a word of 24 bits, and a shorter group is filled up with zeros. -/

/-- The word of a group. -/
def word (a b c : UInt8) : ℕ := a.toNat * 2 ^ 16 + b.toNat * 2 ^ 8 + c.toNat

/-- The text of a string, group by group. -/
def text : List UInt8 → List UInt8
  | [] => []
  | [a] =>
    [symbol (word a 0 0 / 2 ^ 18 % 2 ^ 6), symbol (word a 0 0 / 2 ^ 12 % 2 ^ 6),
      kPadCharacter, kPadCharacter]
  | [a, b] =>
    [symbol (word a b 0 / 2 ^ 18 % 2 ^ 6), symbol (word a b 0 / 2 ^ 12 % 2 ^ 6),
      symbol (word a b 0 / 2 ^ 6 % 2 ^ 6), kPadCharacter]
  | a :: b :: c :: rest =>
    symbol (word a b c / 2 ^ 18 % 2 ^ 6) :: symbol (word a b c / 2 ^ 12 % 2 ^ 6) ::
      symbol (word a b c / 2 ^ 6 % 2 ^ 6) :: symbol (word a b c / 2 ^ 0 % 2 ^ 6) :: text rest

/-- Four characters for three bytes, or for what is left over. -/
theorem length_text (input : List UInt8) : (text input).length = 4 * ((input.length + 2) / 3) := by
  induction input using text.induct with
  | case1 => rfl
  | case2 a => simp [text]
  | case3 a b => simp [text]
  | case4 a b c rest ih =>
    simp only [text, List.length_cons, ih]
    omega

theorem word_eq (a b c : UInt8) :
    (a.toNat <<< 16 + b.toNat <<< 8 + c.toNat) % 2 ^ 32 = word a b c := by
  have ha := a.toNat_lt
  have hb := b.toNat_lt
  have hc := c.toNat_lt
  rw [Nat.shiftLeft_eq, Nat.shiftLeft_eq, word]
  omega

/-- Only the size of the last group matters for it. -/
theorem encodeRest_add (input : List UInt8) (size i : ℕ) (encoded : List UInt8) :
    encodeRest input (size + 3) i encoded = encodeRest input size i encoded := by
  rw [encodeRest, encodeRest, Nat.add_mod_right]

/-- The characters of a word, with the masks of the source. -/
theorem lookup_masks (temp : ℕ) :
    lookup temp 0x00FC0000 18 = some (symbol (temp / 2 ^ 18 % 2 ^ 6)) ∧
    lookup temp 0x0003F000 12 = some (symbol (temp / 2 ^ 12 % 2 ^ 6)) ∧
    lookup temp 0x00000FC0 6 = some (symbol (temp / 2 ^ 6 % 2 ^ 6)) ∧
    lookup temp 0x0000003F 0 = some (symbol (temp / 2 ^ 0 % 2 ^ 6)) := by
  have h18 : 0x00FC0000 = (2 ^ 6 - 1) <<< 18 := by decide
  have h12 : 0x0003F000 = (2 ^ 6 - 1) <<< 12 := by decide
  have h6 : 0x00000FC0 = (2 ^ 6 - 1) <<< 6 := by decide
  have h0 : 0x0000003F = (2 ^ 6 - 1) <<< 0 := by decide
  rw [h18, h12, h6, h0]
  exact ⟨lookup_eq temp 18, lookup_eq temp 12, lookup_eq temp 6, lookup_eq temp 0⟩

/-- The characters of a group. -/
theorem encodeGroup_eq (temp : ℕ) :
    encodeGroup temp = some [symbol (temp / 2 ^ 18 % 2 ^ 6), symbol (temp / 2 ^ 12 % 2 ^ 6),
      symbol (temp / 2 ^ 6 % 2 ^ 6), symbol (temp / 2 ^ 0 % 2 ^ 6)] := by
  obtain ⟨h18, h12, h6, h0⟩ := lookup_masks temp
  simp only [encodeGroup, h18, h12, h6, h0, Option.bind_eq_bind, Option.bind_some]

/-- One round of the loop. -/
theorem encodeLoop_succ {input : List UInt8} {i : ℕ} {a b c : UInt8} (ha : input[i]? = some a)
    (hb : input[i + 1]? = some b) (hc : input[i + 2]? = some c) (n : ℕ) (encoded : List UInt8) :
    encodeLoop input (n + 1) i encoded
      = encodeLoop input n (i + 3) (encoded ++
        [symbol (word a b c / 2 ^ 18 % 2 ^ 6), symbol (word a b c / 2 ^ 12 % 2 ^ 6),
          symbol (word a b c / 2 ^ 6 % 2 ^ 6), symbol (word a b c / 2 ^ 0 % 2 ^ 6)]) := by
  simp only [encodeLoop, ha, hb, hc, word_eq, encodeGroup_eq, Option.bind_eq_bind,
    Option.bind_some]

/-- The encoder, from the index on that it has reached. -/
theorem encode_from (before rest encoded : List UInt8) :
    ((encodeLoop (before ++ rest) (rest.length / 3) before.length encoded).bind fun r ↦
      encodeRest (before ++ rest) rest.length r.1 r.2) = some (encoded ++ text rest) := by
  induction rest using text.induct generalizing before encoded with
  | case1 => simp [encodeLoop, encodeRest, text]
  | case2 a =>
    have hword : (a.toNat <<< 16) % 2 ^ 32 = word a 0 0 := by
      simpa using word_eq a 0 0
    have ha : (before ++ [a])[before.length]? = some a := by simp
    obtain ⟨h18, h12, -, -⟩ := lookup_masks (word a 0 0)
    have hone : [a].length = 1 := rfl
    simp only [hone, encodeLoop, encodeRest, text, ha, hword, h18, h12, Nat.reduceDiv,
      Nat.reduceMod, Option.bind_eq_bind, Option.bind_some]
  | case3 a b =>
    have hword : (a.toNat <<< 16 + b.toNat <<< 8) % 2 ^ 32 = word a b 0 := by
      simpa using word_eq a b 0
    have ha : (before ++ [a, b])[before.length]? = some a := by simp
    have hb : (before ++ [a, b])[before.length + 1]? = some b := by simp
    obtain ⟨h18, h12, h6, -⟩ := lookup_masks (word a b 0)
    have htwo : [a, b].length = 2 := rfl
    simp only [htwo, encodeLoop, encodeRest, text, ha, hb, hword, h18, h12, h6, Nat.reduceDiv,
      Nat.reduceMod, Option.bind_eq_bind, Option.bind_some]
  | case4 a b c rest ih =>
    have hsize : (a :: b :: c :: rest).length = rest.length + 3 := rfl
    have hrest := ih (before ++ [a, b, c]) (encoded ++
      [symbol (word a b c / 2 ^ 18 % 2 ^ 6), symbol (word a b c / 2 ^ 12 % 2 ^ 6),
        symbol (word a b c / 2 ^ 6 % 2 ^ 6), symbol (word a b c / 2 ^ 0 % 2 ^ 6)])
    simp only [List.append_assoc, List.cons_append, List.nil_append, List.length_append,
      List.length_cons, List.length_nil] at hrest
    have ha : (before ++ a :: b :: c :: rest)[before.length]? = some a := by simp
    have hb : (before ++ a :: b :: c :: rest)[before.length + 1]? = some b := by simp
    have hc : (before ++ a :: b :: c :: rest)[before.length + 2]? = some c := by simp
    rw [hsize, Nat.add_div_right _ (Nat.succ_pos 2), encodeLoop_succ ha hb hc]
    simp only [encodeRest_add]
    exact hrest

/-- A character of the alphabet inside a group. -/
theorem decodeLoop_symbol {v i : ℕ} (hv : v < 2 ^ 6) (hi : i ≠ 3) (rest : List UInt8) (temp : ℕ)
    (decoded : List UInt8) :
    decodeLoop (symbol v :: rest) i temp decoded
      = decodeLoop rest (i + 1) ((temp * 2 ^ 6 + v) % 2 ^ 32) decoded := by
  rw [decodeLoop, sixBits_symbol hv]
  simp only [Bits.shiftLeft_or (k := 6) (w := 32) temp (by decide) hv, hi, if_false]

/-- The last character of a group. -/
theorem decodeLoop_last {v : ℕ} (hv : v < 2 ^ 6) (rest : List UInt8) (temp : ℕ)
    (decoded : List UInt8) :
    decodeLoop (symbol v :: rest) 3 temp decoded
      = decodeLoop rest 0 ((temp * 2 ^ 6 + v) % 2 ^ 32)
        (decoded ++ [byteAt ((temp * 2 ^ 6 + v) % 2 ^ 32) 16,
          byteAt ((temp * 2 ^ 6 + v) % 2 ^ 32) 8, byteAt ((temp * 2 ^ 6 + v) % 2 ^ 32) 0]) := by
  rw [decodeLoop, sixBits_symbol hv]
  simp only [Bits.shiftLeft_or (k := 6) (w := 32) temp (by decide) hv, if_true]

/-- Padding in the last place. -/
theorem decodeLoop_one (i temp : ℕ) (decoded : List UInt8) :
    decodeLoop [kPadCharacter] i temp decoded
      = .ok (decoded ++ [byteAt ((temp <<< 6) % 2 ^ 32) 16, byteAt ((temp <<< 6) % 2 ^ 32) 8]) := by
  simp only [decodeLoop, sixBits_kPadCharacter, if_true, decodePadding, List.length_cons,
    List.length_nil]

/-- Padding in the place before it; whatever comes behind it is not read. -/
theorem decodeLoop_two (c : UInt8) (i temp : ℕ) (decoded : List UInt8) :
    decodeLoop [kPadCharacter, c] i temp decoded
      = .ok (decoded ++ [byteAt ((temp <<< 6) % 2 ^ 32) 10]) := by
  simp only [decodeLoop, sixBits_kPadCharacter, if_true, decodePadding, List.length_cons,
    List.length_nil]

/-- A byte that is somewhere in a word. -/
theorem byteAt_eq {temp shift : ℕ} {a : UInt8} (h : temp / 2 ^ shift % 2 ^ 8 = a.toNat) :
    byteAt temp shift = a := by
  have hmask : temp >>> shift &&& 0x000000FF = temp / 2 ^ shift % 2 ^ 8 :=
    Bits.shiftRight_mask temp 8 shift
  rw [byteAt, hmask, h, UInt8.ofNat_toNat]

/-- The text of a string is decoded to the string, whatever the word held before. -/
theorem decodeLoop_text (input : List UInt8) (temp : ℕ) (decoded : List UInt8) :
    decodeLoop (text input) 0 temp decoded = .ok (decoded ++ input) := by
  have hdigit : ∀ n : ℕ, n % 2 ^ 6 < 2 ^ 6 := fun n ↦ Nat.mod_lt n (Nat.two_pow_pos 6)
  induction input using text.induct generalizing temp decoded with
  | case1 => simp [text, decodeLoop]
  | case2 a =>
    have ha := a.toNat_lt
    rw [text, decodeLoop_symbol (hdigit _) (by decide), decodeLoop_symbol (hdigit _) (by decide),
      decodeLoop_two, byteAt_eq]
    simp only [word, UInt8.toNat_zero, Nat.shiftLeft_eq]
    omega
  | case3 a b =>
    have ha := a.toNat_lt
    have hb := b.toNat_lt
    rw [text, decodeLoop_symbol (hdigit _) (by decide), decodeLoop_symbol (hdigit _) (by decide),
      decodeLoop_symbol (hdigit _) (by decide), decodeLoop_one,
      byteAt_eq (a := a), byteAt_eq (a := b)]
    all_goals
      simp only [word, UInt8.toNat_zero, Nat.shiftLeft_eq]
      omega
  | case4 a b c rest ih =>
    have ha := a.toNat_lt
    have hb := b.toNat_lt
    have hc := c.toNat_lt
    rw [text, decodeLoop_symbol (hdigit _) (by decide), decodeLoop_symbol (hdigit _) (by decide),
      decodeLoop_symbol (hdigit _) (by decide), decodeLoop_last (hdigit _), ih,
      byteAt_eq (a := a), byteAt_eq (a := b), byteAt_eq (a := c), List.append_assoc]
    · rfl
    all_goals
      simp only [word]
      omega

/-- The encoder gives the text of the bytes, as long as their number is a `uint32_t`. -/
theorem base64encode_eq_text {b : List UInt8} (h : b.length < 2 ^ 32) :
    base64encode b (.ofNat b.length) = some (text b) := by
  have hsize : (UInt32.ofNat b.length).toNat = b.length := UInt32.toNat_ofNat_of_lt h
  rw [base64encode, hsize]
  exact encode_from [] b []

/-- What is encoded is decoded to itself, and its length is known. -/
theorem base64_round_trip (b : List UInt8) (h : b.length < 2 ^ 31) :
    ∃ encoded, base64encode b (.ofNat b.length) = some encoded ∧
      base64decode encoded = .ok b ∧ encoded.length = 4 * ((b.length + 2) / 3) := by
  refine ⟨text b, base64encode_eq_text (Nat.lt_trans h (by decide)), ?_, length_text b⟩
  rw [base64decode_eq (by rw [length_text]; exact Nat.mul_mod_right 4 _)]
  exact decodeLoop_text b 0 []

/-- Two bytes, one of them above 127. -/
theorem base64_round_trip_two :
    ∃ encoded, base64encode [200, 7] (.ofNat 2) = some encoded ∧
      base64decode encoded = .ok [200, 7] ∧ encoded.length = 4 :=
  base64_round_trip [200, 7] (by decide)

/-! ## The strings that are accepted -/

/-- The characters that have bits, by their codes. -/
def IsSymbol (n : ℕ) : Prop :=
  (0x41 ≤ n ∧ n ≤ 0x5A) ∨ (0x61 ≤ n ∧ n ≤ 0x7A) ∨ (0x30 ≤ n ∧ n ≤ 0x39) ∨ n = 0x2B ∨ n = 0x2F

/-- A character as a number with a sign. -/
theorem toInt_toInt8 (c : UInt8) :
    c.toInt8.toInt = if c.toNat < 128 then (c.toNat : ℤ) else c.toNat - 256 := by
  have hlt := c.toNat_lt
  have hcond : c.toInt8.toInt
      = if 2 * c.toNat < 2 ^ 8 then (c.toNat : ℤ) else c.toNat - (2 ^ 8 : ℕ) :=
    BitVec.toInt_eq_toNat_cond c.toBitVec
  rw [hcond]
  split <;> split <;> omega

/-- What is negative has no bits. -/
theorem isSome_sixBits (c : UInt8) : (sixBits c).isSome ↔ IsSymbol c.toNat := by
  have hlt := c.toNat_lt
  have hit := toInt_toInt8 c
  have hA : (0x41 : Int8).toInt = 0x41 := rfl
  have hZ : (0x5A : Int8).toInt = 0x5A := rfl
  have ha : (0x61 : Int8).toInt = 0x61 := rfl
  have hz : (0x7A : Int8).toInt = 0x7A := rfl
  have h0 : (0x30 : Int8).toInt = 0x30 := rfl
  have h9 : (0x39 : Int8).toInt = 0x39 := rfl
  have hplus : (0x2B : Int8).toInt = 0x2B := rfl
  have hslash : (0x2F : Int8).toInt = 0x2F := rfl
  simp only [sixBits, IsSymbol, Int8.le_iff_toInt_le, ← Int8.toInt_inj]
  grind

/-- The characters that are used for numbers, by their codes. -/
theorem mem_kEncodeLookup (c : UInt8) : c ∈ kEncodeLookup ↔ IsSymbol c.toNat := by
  have hrange : ∀ n, n ∈ List.range' 0x41 26 ++ List.range' 0x61 26 ++ List.range' 0x30 10 ++
      [0x2B, 0x2F] ↔ IsSymbol n := by
    intro n
    simp only [List.mem_append, List.mem_range'_1, List.mem_cons, List.not_mem_nil, or_false,
      IsSymbol]
    omega
  rw [kEncodeLookup_eq, List.mem_map]
  constructor
  · rintro ⟨n, hn, rfl⟩
    have hsymbol := (hrange n).mp hn
    have hlt : n < 2 ^ 8 := by
      unfold IsSymbol at hsymbol
      omega
    rwa [UInt8.toNat_ofNat', Nat.mod_eq_of_lt hlt]
  · exact fun h ↦ ⟨c.toNat, (hrange _).mpr h, UInt8.ofNat_toNat⟩

/-- The characters that have bits are those that are used for them. -/
theorem sixBits_isSome_iff (c : UInt8) : (sixBits c).isSome ↔ c ∈ kEncodeLookup := by
  rw [isSome_sixBits, mem_kEncodeLookup]

/-- Characters of the alphabet, and no more than two padding characters behind them. -/
def Encoding (s : List UInt8) : Prop :=
  s.length % 4 = 0 ∧ ∃ body n, s = body ++ List.replicate n kPadCharacter ∧ n ≤ 2 ∧
    ∀ c ∈ body, c ∈ kEncodeLookup

/-- The last character but one is padding, and the last one is not. -/
def PaddedInside (s : List UInt8) : Prop :=
  s.length % 4 = 0 ∧ ∃ body c, s = body ++ [kPadCharacter, c] ∧ c ≠ kPadCharacter ∧
    ∀ c ∈ body, c ∈ kEncodeLookup

/-- An encoding is decoded, and anything else is refused with an exception. -/
def Strict (s : List UInt8) : Prop :=
  (Encoding s → ∃ bytes, base64decode s = .ok bytes) ∧
    (¬ Encoding s → ∃ what, base64decode s = .error (.runtimeError what))

/-- What the loop accepts. -/
def Accepted : List UInt8 → Prop
  | [] => True
  | c :: rest => c ∈ kEncodeLookup ∧ Accepted rest ∨ c = kPadCharacter ∧ rest.length ≤ 1

/-- Padding is no character of the alphabet. -/
theorem kPadCharacter_notMem : kPadCharacter ∉ kEncodeLookup := by
  rw [← sixBits_isSome_iff, sixBits_kPadCharacter]
  exact Bool.false_ne_true

/-- With complete groups the loop accepts, or throws; it never leaves the string. -/
theorem decodeLoop_outcome {s : List UInt8} {i : ℕ} (hi : i < 4) (hs : (s.length + i) % 4 = 0)
    (temp : ℕ) (decoded : List UInt8) :
    (Accepted s → ∃ bytes, decodeLoop s i temp decoded = .ok bytes) ∧
      (¬ Accepted s → ∃ what, decodeLoop s i temp decoded = .error (.runtimeError what)) := by
  induction s generalizing i temp decoded with
  | nil =>
    obtain rfl : i = 0 := by simpa [Nat.mod_eq_of_lt hi] using hs
    exact ⟨fun _ ↦ ⟨decoded, rfl⟩, fun h ↦ absurd trivial h⟩
  | cons c rest ih =>
    have hrest : (rest.length + 1 + i) % 4 = 0 := hs
    rcases hsix : sixBits c with _ | v
    · have hout : c ∉ kEncodeLookup := by simp [← sixBits_isSome_iff, hsix]
      by_cases hpad : c = kPadCharacter
      · subst hpad
        rcases rest with _ | ⟨d, _ | ⟨e, rest⟩⟩
        · exact ⟨fun _ ↦ ⟨_, decodeLoop_one i temp decoded⟩,
            fun h ↦ absurd (.inr ⟨rfl, Nat.zero_le 1⟩) h⟩
        · exact ⟨fun _ ↦ ⟨_, decodeLoop_two d i temp decoded⟩,
            fun h ↦ absurd (.inr ⟨rfl, Nat.le_refl 1⟩) h⟩
        · refine ⟨fun h ↦ ?_, fun _ ↦ ⟨"Invalid padding in base64!", ?_⟩⟩
          · obtain ⟨hin, -⟩ | ⟨-, hlength⟩ := h
            · exact absurd hin hout
            · simp at hlength
          · simp only [decodeLoop, hsix, if_true, decodePadding, List.length_cons]
      · refine ⟨fun h ↦ ?_, fun _ ↦ ⟨"Invalid character in base64!", ?_⟩⟩
        · obtain ⟨hin, -⟩ | ⟨heq, -⟩ := h
          · exact absurd hin hout
          · exact absurd heq hpad
        · simp only [decodeLoop, hsix, hpad, if_false]
    · have hin : c ∈ kEncodeLookup := by simp [← sixBits_isSome_iff, hsix]
      have hpad : c ≠ kPadCharacter := fun heq ↦ kPadCharacter_notMem (heq ▸ hin)
      have haccepted : Accepted (c :: rest) ↔ Accepted rest := by
        simp [Accepted, hin, hpad]
      rw [haccepted]
      by_cases hlast : i = 3
      · subst hlast
        simp only [decodeLoop, hsix, if_true]
        exact ih (Nat.succ_pos 3) (by omega) _ _
      · simp only [decodeLoop, hsix, hlast, if_false]
        exact ih (by omega) (by omega) _ _

/-- Characters of the alphabet may come in front of what is accepted. -/
theorem Accepted.append {body s : List UInt8} (hbody : ∀ c ∈ body, c ∈ kEncodeLookup)
    (h : Accepted s) : Accepted (body ++ s) := by
  induction body with
  | nil => exact h
  | cons c body ih =>
    obtain ⟨hc, hbody⟩ := List.forall_mem_cons.mp hbody
    exact .inl ⟨hc, ih hbody⟩

/-- What is accepted are characters of the alphabet with nothing, one or two padding characters, or
padding and any other character behind them. -/
theorem Accepted.tail {s : List UInt8} (h : Accepted s) :
    ∃ body tail, s = body ++ tail ∧ (∀ c ∈ body, c ∈ kEncodeLookup) ∧
      ((∃ n, n ≤ 2 ∧ tail = List.replicate n kPadCharacter) ∨
        ∃ c, c ≠ kPadCharacter ∧ tail = [kPadCharacter, c]) := by
  induction s with
  | nil => exact ⟨[], [], rfl, by simp, .inl ⟨0, Nat.zero_le 2, rfl⟩⟩
  | cons c rest ih =>
    obtain ⟨hc, hrest⟩ | ⟨rfl, hlength⟩ := h
    · obtain ⟨body, tail, rfl, hbody, htail⟩ := ih hrest
      exact ⟨c :: body, tail, rfl, List.forall_mem_cons.mpr ⟨hc, hbody⟩, htail⟩
    · refine ⟨[], kPadCharacter :: rest, rfl, by simp, ?_⟩
      rcases rest with _ | ⟨d, _ | ⟨e, rest⟩⟩
      · exact .inl ⟨1, Nat.le_succ 1, rfl⟩
      · by_cases hd : d = kPadCharacter
        · exact .inl ⟨2, Nat.le_refl 2, by rw [hd]; rfl⟩
        · exact .inr ⟨d, hd, rfl⟩
      · simp at hlength

/-- What the loop accepts is an encoding, or has padding inside. -/
theorem accepted_iff {s : List UInt8} (h : s.length % 4 = 0) :
    Accepted s ↔ Encoding s ∨ PaddedInside s := by
  constructor
  · intro haccepted
    obtain ⟨body, tail, rfl, hbody, ⟨n, hn, rfl⟩ | ⟨c, hc, rfl⟩⟩ := haccepted.tail
    · exact .inl ⟨h, body, n, rfl, hn, hbody⟩
    · exact .inr ⟨h, body, c, rfl, hc, hbody⟩
  · rintro (⟨-, body, n, rfl, hn, hbody⟩ | ⟨-, body, c, rfl, -, hbody⟩)
    · refine .append hbody ?_
      rcases n with _ | _ | _ | n
      · trivial
      · exact .inr ⟨rfl, Nat.zero_le 1⟩
      · exact .inr ⟨rfl, Nat.le_refl 1⟩
      · omega
    · exact .append hbody (.inr ⟨rfl, Nat.le_refl 1⟩)

/-- A string with padding inside is no encoding. -/
theorem not_encoding_of_paddedInside {s : List UInt8} (h : PaddedInside s) : ¬ Encoding s := by
  obtain ⟨-, body, c, rfl, hc, -⟩ := h
  rintro ⟨-, body', n, heq, -, hin⟩
  rcases n with _ | n
  · have hmem : kPadCharacter ∈ body' := by
      rw [List.replicate_zero, List.append_nil] at heq
      rw [← heq]
      simp
    exact kPadCharacter_notMem (hin _ hmem)
  · have hlast := congrArg List.getLast? heq
    rw [List.replicate_succ', ← List.append_assoc, List.getLast?_concat] at hlast
    exact hc (Option.some.inj (by simpa using hlast))

/-- The decoder is strict about a string unless it has padding inside: then the string is
accepted. -/
theorem strict_iff_not_paddedInside (s : List UInt8) : Strict s ↔ ¬ PaddedInside s := by
  by_cases hlength : s.length % 4 = 0
  · have houtcome := decodeLoop_outcome (Nat.succ_pos 3) (i := 0) hlength 0 []
    rw [accepted_iff hlength, ← base64decode_eq hlength] at houtcome
    constructor
    · intro hstrict hinside
      obtain ⟨bytes, hbytes⟩ := houtcome.1 (.inr hinside)
      obtain ⟨what, hwhat⟩ := hstrict.2 (not_encoding_of_paddedInside hinside)
      cases hbytes.symm.trans hwhat
    · intro hinside
      exact ⟨fun h ↦ houtcome.1 (.inl h), fun h ↦ houtcome.2 (not_or.mpr ⟨h, hinside⟩)⟩
  · have hthrow : base64decode s = .error (.runtimeError "Invalid base64 length!") := by
      rw [base64decode, if_pos hlength]
    refine ⟨fun _ h ↦ hlength h.1, fun _ ↦ ⟨fun h ↦ absurd h.1 hlength, fun _ ↦ ⟨_, hthrow⟩⟩⟩

/-- The string `ab=c` is accepted. -/
theorem base64decode_paddedInside :
    ¬ Encoding [0x61, 0x62, 0x3D, 0x63] ∧ base64decode [0x61, 0x62, 0x3D, 0x63] = .ok [0x69] := by
  refine ⟨not_encoding_of_paddedInside ⟨rfl, [0x61, 0x62], 0x63, rfl, by decide, ?_⟩, rfl⟩
  rw [kEncodeLookup_eq, List.forall_mem_cons, List.forall_mem_singleton]
  exact ⟨by decide, by decide⟩

end OwSec.Base64
