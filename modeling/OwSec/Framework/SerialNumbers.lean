import Mathlib.Algebra.Group.Nat.Defs
import Mathlib.Data.List.TakeWhile
import OwSec.Text

/-!
# Serial numbers and MAC addresses

The conversions of `framework/utils.cpp` between a number of 48 bits, the serial number of a device
and its MAC address.  A character of a text is a byte.
-/

namespace OwSec

/-- `std::isxdigit`. -/
def isxdigit (c : Char) : Bool :=
  c.isDigit || ('a' ≤ c && c ≤ 'f') || ('A' ≤ c && c ≤ 'F')

/-- The value of a hexadecimal digit, and zero for any other character. -/
def hexValue (c : Char) : ℕ :=
  if '0' ≤ c ∧ c ≤ '9' then c.toNat - '0'.toNat
  else if 'a' ≤ c ∧ c ≤ 'f' then c.toNat - 'a'.toNat + 10
  else if 'A' ≤ c ∧ c ≤ 'F' then c.toNat - 'A'.toNat + 10
  else 0

/-- The text in a buffer, which ends at the first NUL. -/
def ofBuffer (buf : List Char) : String := String.ofList (buf.takeWhile (· ≠ Char.ofNat 0))

/-- The digit of `IntToSerialNumber`. -/
def serialDigit (b : ℕ) : Char :=
  if b < 10 then Char.ofNat (b + '0'.toNat) else Char.ofNat (b - 10 + 'a'.toNat)

/-- The loop of `IntToSerialNumber`, with the number of digits to go and those behind them. -/
def serialDigits : ℕ → ℕ → List Char → List Char
  | 0, _, b => b
  | i + 1, s, b => serialDigits i (s >>> 4) (serialDigit (s &&& 0x0f) :: b)

/-- `IntToSerialNumber`. -/
def intToSerialNumber (s : ℕ) : String := ofBuffer (serialDigits 12 s [Char.ofNat 0])

/-- The exceptions of `std::stoull`. -/
inductive StoullError
  | invalidArgument
  | outOfRange
  deriving DecidableEq, Repr

/-- The digits behind the prefix of a hexadecimal number, which is none where no digit follows. -/
def behindPrefix : List Char → List Char
  | c :: x :: d :: cs =>
    if c = '0' ∧ (x = 'x' ∨ x = 'X') ∧ isxdigit d then d :: cs else c :: x :: d :: cs
  | cs => cs

/-- `std::stoull` in the base sixteen. -/
def stoull (s : String) : Except StoullError ℕ :=
  let cs := s.toList.dropWhile isSpace
  let negative := cs.head? = some '-'
  let digits := (behindPrefix (if negative ∨ cs.head? = some '+' then cs.tail else cs)).takeWhile
    isxdigit
  let n := digits.foldl (fun n c ↦ 16 * n + hexValue c) 0
  if digits.isEmpty then .error .invalidArgument
  else if 2 ^ 64 ≤ n then .error .outOfRange
  else if negative then .ok ((2 ^ 64 - n) % 2 ^ 64)
  else .ok n

/-- `SerialNumberToInt`. -/
def serialNumberToInt (s : String) : Except StoullError ℕ := stoull s

/-- `padTo`. -/
def padTo (str : List Char) (num : ℕ) (paddingChar : Char) : List Char :=
  str ++ List.replicate (num - str.length % num) paddingChar

/-- The text that `SerialToMAC` takes the characters from. -/
def twelveOf (serial : List Char) : List Char :=
  if serial.length < 12 then padTo serial 12 '0'
  else if 12 < serial.length then serial.take 12
  else serial

/-- The buffer of `SerialToMAC`. -/
def macBuffer (r : List Char) : List Char :=
  let c (i : ℕ) := r.getD i (Char.ofNat 0)
  [c 0, c 1, ':', c 2, c 3, ':', c 4, c 5, ':', c 6, c 7, ':', c 8, c 9, ':', c 10, c 11,
    Char.ofNat 0]

/-- `SerialToMAC`. -/
def serialToMAC (serial : String) : String := ofBuffer (macBuffer (twelveOf serial.toList))

/-- `NormalizeMac`: whether it is a MAC address, and the text that is left. -/
def normalizeMac (mac : String) : Bool × String :=
  let mac := (mac.toList.filter (· ≠ ':')).filter (· ≠ '-')
  if mac.length ≠ 12 then (false, String.ofList mac)
  else if mac.all isxdigit then (true, toLower (String.ofList mac))
  else (false, String.ofList mac)

/-- A step of the loop of `MACToInt`. -/
def macStep (result : ℕ) (c : Char) : ℕ :=
  if c = ':' then result else ((result <<< 4) % 2 ^ 64 + hexValue c) % 2 ^ 64

/-- `MACToInt`. -/
def macToInt (mac : String) : ℕ := mac.toList.foldl macStep 0

/-! ## Digits -/

/-- The digits of serial numbers: decimal digits, and the others in lower case. -/
def isSerialDigit (c : Char) : Bool := c.isDigit || ('a' ≤ c && c ≤ 'f')

/-- The number that hexadecimal digits stand for. -/
def hexNumber (cs : List Char) : ℕ := cs.foldl (fun n c ↦ 16 * n + hexValue c) 0

/-- A text of the digits that `IntToSerialNumber` writes. -/
def OfDigits (cs : List Char) : Prop := ∀ c ∈ cs, ∃ b < 16, c = serialDigit b

/-- A digit is read as what it has been written for. -/
theorem serialDigit_read : ∀ b < 16, isSerialDigit (serialDigit b) = true ∧
    isxdigit (serialDigit b) = true ∧ hexValue (serialDigit b) = b := by
  decide

/-- What is special to one of the readers is no digit. -/
theorem serialDigit_plain : ∀ b < 16,
    serialDigit b ∉ [Char.ofNat 0, ':', '-', '+', 'x', 'X'] ∧ isSpace (serialDigit b) = false ∧
      (serialDigit b).toLower = serialDigit b := by
  decide

/-- The digits that have been read stay behind the others. -/
theorem serialDigits_eq (i s : ℕ) (b : List Char) :
    serialDigits i s b = serialDigits i s [] ++ b := by
  induction i generalizing s b with
  | zero => rfl
  | succ i ih =>
    rw [serialDigits, serialDigits, ih, ih (s >>> 4) [_]]
    simp

/-- One digit more, at the end. -/
theorem serialDigits_succ (i s : ℕ) :
    serialDigits (i + 1) s [] = serialDigits i (s / 16) [] ++ [serialDigit (s % 16)] := by
  have hmask : s &&& 0x0f = s % 16 := Nat.and_two_pow_sub_one_eq_mod s 4
  rw [serialDigits, serialDigits_eq, hmask, Nat.shiftRight_eq_div_pow]

theorem length_serialDigits (i s : ℕ) : (serialDigits i s []).length = i := by
  induction i generalizing s with
  | zero => rfl
  | succ i ih => rw [serialDigits_succ, List.length_append, ih, List.length_singleton]

theorem ofDigits_serialDigits (i s : ℕ) : OfDigits (serialDigits i s []) := by
  induction i generalizing s with
  | zero => simp [OfDigits, serialDigits]
  | succ i ih =>
    intro c hc
    rw [serialDigits_succ, List.mem_append, List.mem_singleton] at hc
    rcases hc with hfront | hlast
    · exact ih (s / 16) c hfront
    · exact ⟨s % 16, Nat.mod_lt s (by decide), hlast⟩

/-- The digits stand for the last part of the number. -/
theorem hexNumber_serialDigits (i s : ℕ) : hexNumber (serialDigits i s []) = s % 16 ^ i := by
  induction i generalizing s with
  | zero => simp [serialDigits, hexNumber, Nat.mod_one]
  | succ i ih =>
    have hdigit := (serialDigit_read _ (Nat.mod_lt s (show 0 < 16 by decide))).2.2
    have hsplit : s % 16 ^ (i + 1) = 16 * (s / 16 % 16 ^ i) + s % 16 := by
      rw [Nat.pow_succ', Nat.mod_mul, Nat.add_comm]
    have hfront := ih (s / 16)
    rw [hexNumber] at hfront
    rw [serialDigits_succ, hexNumber, List.foldl_append, hfront, hsplit, List.foldl_cons,
      List.foldl_nil, hdigit]

/-! ## The readers -/

variable {cs : List Char}

/-- No digit is special. -/
theorem OfDigits.notMem (h : OfDigits cs) {c : Char}
    (hc : c ∈ [Char.ofNat 0, ':', '-', '+', 'x', 'X']) : c ∉ cs := by
  intro hmem
  obtain ⟨b, hb, rfl⟩ := h c hmem
  exact (serialDigit_plain b hb).1 hc

/-- Digits are all that is read. -/
theorem OfDigits.takeWhile_eq (h : OfDigits cs) : cs.takeWhile isxdigit = cs := by
  rw [List.takeWhile_eq_self_iff]
  intro c hc
  obtain ⟨b, hb, rfl⟩ := h c hc
  exact (serialDigit_read b hb).2.1

/-- Digits have no prefix. -/
theorem OfDigits.behindPrefix_eq (h : OfDigits cs) : behindPrefix cs = cs := by
  rcases cs with _ | ⟨c, _ | ⟨x, _ | ⟨d, cs⟩⟩⟩
  · rfl
  · rfl
  · rfl
  · have hx : x ≠ 'x' ∧ x ≠ 'X' := by
      constructor
      · rintro rfl
        exact h.notMem (c := 'x') (by decide) (by simp)
      · rintro rfl
        exact h.notMem (c := 'X') (by decide) (by simp)
    simp [behindPrefix, hx]

/-- `std::stoull` reads digits, as long as the number fits. -/
theorem stoull_of_digits (h : OfDigits cs) (hne : cs ≠ []) (hfits : hexNumber cs < 2 ^ 64) :
    stoull (String.ofList cs) = .ok (hexNumber cs) := by
  have hspaces : cs.dropWhile isSpace = cs := by
    obtain ⟨c, cs, rfl⟩ := List.exists_cons_of_ne_nil hne
    obtain ⟨b, hb, rfl⟩ := h c List.mem_cons_self
    exact List.dropWhile_cons_of_neg (by simp [(serialDigit_plain b hb).2.1])
  have hsign (c : Char) (hc : c ∈ [Char.ofNat 0, ':', '-', '+', 'x', 'X']) : cs.head? ≠ some c :=
    fun hhead ↦ h.notMem hc (List.mem_of_head? hhead)
  have hminus := hsign '-' (by decide)
  have hplus := hsign '+' (by decide)
  have hnumber : cs.foldl (fun n c ↦ 16 * n + hexValue c) 0 = hexNumber cs := rfl
  simp only [stoull, String.toList_ofList, hspaces, hminus, hplus, or_self, if_false,
    h.behindPrefix_eq, h.takeWhile_eq, List.isEmpty_iff, hne, hnumber, Nat.not_le_of_lt hfits]

/-- A text without NUL. -/
theorem toList_ofBuffer (h : Char.ofNat 0 ∉ cs) :
    (ofBuffer (cs ++ [Char.ofNat 0])).toList = cs := by
  have hall : ∀ c ∈ cs, decide (c ≠ Char.ofNat 0) = true := by
    intro c hc
    rw [decide_eq_true_iff]
    rintro rfl
    exact h hc
  rw [ofBuffer, String.toList_ofList, List.takeWhile_append_of_pos hall]
  simp

/-- Twelve characters. -/
theorem eq_of_length_twelve (h : cs.length = 12) :
    ∃ a b c d e f g i j k l m, cs = [a, b, c, d, e, f, g, i, j, k, l, m] := by
  match cs, h with
  | [a, b, c, d, e, f, g, i, j, k, l, m], _ => exact ⟨a, b, c, d, e, f, g, i, j, k, l, m, rfl⟩

/-- A MAC address without its colons is the serial number. -/
theorem filter_serialToMAC (h : OfDigits cs) (hlength : cs.length = 12) :
    (serialToMAC (String.ofList cs)).toList.filter (· ≠ ':') = cs := by
  obtain ⟨a, b, c, d, e, f, g, i, j, k, l, m, rfl⟩ := eq_of_length_twelve hlength
  have hnul := h.notMem (c := Char.ofNat 0) (by decide)
  have hcolon := h.notMem (c := ':') (by decide)
  have hbuffer : Char.ofNat 0 ∉
      [a, b, ':', c, d, ':', e, f, ':', g, i, ':', j, k, ':', l, m] := by
    have hne : Char.ofNat 0 ≠ ':' := by decide
    simpa [hne] using hnul
  have htwelve : twelveOf [a, b, c, d, e, f, g, i, j, k, l, m] =
      [a, b, c, d, e, f, g, i, j, k, l, m] := by
    rw [twelveOf, hlength, if_neg (Nat.lt_irrefl 12), if_neg (Nat.lt_irrefl 12)]
  have hsplit : macBuffer [a, b, c, d, e, f, g, i, j, k, l, m] =
      [a, b, ':', c, d, ':', e, f, ':', g, i, ':', j, k, ':', l, m] ++ [Char.ofNat 0] := rfl
  simp only [List.mem_cons, List.not_mem_nil, or_false, not_or, eq_comm (a := ':')] at hcolon
  rw [serialToMAC, String.toList_ofList, htwelve, hsplit, toList_ofBuffer hbuffer]
  simp [hcolon]

/-- `NormalizeMac` takes the colons out again. -/
theorem normalizeMac_serialToMAC (h : OfDigits cs) (hlength : cs.length = 12) :
    normalizeMac (serialToMAC (String.ofList cs)) = (true, String.ofList cs) := by
  have hminus : cs.filter (· ≠ '-') = cs := by
    rw [List.filter_eq_self]
    intro c hc
    rw [decide_eq_true_iff]
    rintro rfl
    exact h.notMem (by decide) hc
  have hhex : cs.all isxdigit = true := by
    rw [List.all_eq_true]
    intro c hc
    obtain ⟨b, hb, rfl⟩ := h c hc
    exact (serialDigit_read b hb).2.1
  have hlower : cs.map Char.toLower = cs.map id := by
    refine List.map_congr_left fun c hc ↦ ?_
    obtain ⟨b, hb, rfl⟩ := h c hc
    exact (serialDigit_plain b hb).2.2
  simp only [normalizeMac, filter_serialToMAC h hlength, hminus]
  rw [if_neg (not_not.mpr hlength), if_pos hhex, toLower, String.toList_ofList, hlower, List.map_id]

/-- The loop of `MACToInt` passes over colons. -/
theorem foldl_macStep_filter (n : ℕ) (cs : List Char) :
    cs.foldl macStep n = (cs.filter (· ≠ ':')).foldl macStep n := by
  induction cs generalizing n with
  | nil => rfl
  | cons c cs ih =>
    by_cases hc : c = ':'
    · rw [List.filter_cons_of_neg (by simpa using hc), List.foldl_cons, ih, macStep, if_pos hc]
    · rw [List.filter_cons_of_pos (by simpa using hc), List.foldl_cons, List.foldl_cons, ih]

/-- The loop of `MACToInt` reads digits in a word. -/
theorem foldl_macStep (h : OfDigits cs) (n : ℕ) :
    cs.foldl macStep (n % 2 ^ 64) = cs.foldl (fun n c ↦ 16 * n + hexValue c) n % 2 ^ 64 := by
  induction cs generalizing n with
  | nil => rfl
  | cons c cs ih =>
    have hc : c ≠ ':' := by
      rintro rfl
      exact h.notMem (c := ':') (by decide) List.mem_cons_self
    have hstep : macStep (n % 2 ^ 64) c = (16 * n + hexValue c) % 2 ^ 64 := by
      rw [macStep, if_neg hc, Nat.shiftLeft_eq, Nat.mod_mul_mod, Nat.mod_add_mod, Nat.mul_comm]
    rw [List.foldl_cons, List.foldl_cons, hstep]
    exact ih (fun d hd ↦ h d (List.mem_cons_of_mem c hd)) _

/-- The conversions are inverse to each other on numbers of 48 bits. -/
theorem serialNumber_roundTrips {s : ℕ} (h : s < 2 ^ 48) :
    serialNumberToInt (intToSerialNumber s) = .ok s ∧
      ((intToSerialNumber s).toList.length = 12 ∧
        ∀ c ∈ (intToSerialNumber s).toList, isSerialDigit c = true) ∧
      normalizeMac (serialToMAC (intToSerialNumber s)) = (true, intToSerialNumber s) ∧
      macToInt (serialToMAC (intToSerialNumber s)) = s := by
  have hdigits := ofDigits_serialDigits 12 s
  have hlength := length_serialDigits 12 s
  have hvalue : hexNumber (serialDigits 12 s []) = s := by
    rw [hexNumber_serialDigits]
    exact Nat.mod_eq_of_lt (by omega)
  have htext : intToSerialNumber s = String.ofList (serialDigits 12 s []) := by
    rw [intToSerialNumber, serialDigits_eq, ← String.ofList_toList (s := ofBuffer _),
      toList_ofBuffer (hdigits.notMem (by decide))]
  have hne : serialDigits 12 s [] ≠ [] := by
    intro hnil
    rw [hnil] at hlength
    cases hlength
  rw [htext, serialNumberToInt]
  refine ⟨?_, ⟨?_, ?_⟩, normalizeMac_serialToMAC hdigits hlength, ?_⟩
  · rw [stoull_of_digits hdigits hne (by omega), hvalue]
  · rw [String.toList_ofList, hlength]
  · intro c hc
    rw [String.toList_ofList] at hc
    obtain ⟨b, hb, rfl⟩ := hdigits c hc
    exact (serialDigit_read b hb).1
  · have hword := foldl_macStep hdigits 0
    rw [macToInt, foldl_macStep_filter, filter_serialToMAC hdigits hlength]
    rw [hexNumber] at hvalue
    rw [Nat.zero_mod, hvalue, Nat.mod_eq_of_lt (by omega)] at hword
    exact hword

/-- The serial number of a device, there and back. -/
theorem serialNumber_device :
    serialNumberToInt (intToSerialNumber 0x0a1b2c3d4e5f) = .ok 0x0a1b2c3d4e5f ∧
      macToInt (serialToMAC (intToSerialNumber 0x0a1b2c3d4e5f)) = 0x0a1b2c3d4e5f := by
  obtain ⟨hnumber, -, -, hmac⟩ := serialNumber_roundTrips (s := 0x0a1b2c3d4e5f) (by decide)
  exact ⟨hnumber, hmac⟩

example : serialToMAC (intToSerialNumber 0x0a1b2c3d4e5f) = "0a:1b:2c:3d:4e:5f" := by decide

end OwSec
