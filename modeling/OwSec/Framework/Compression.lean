import Mathlib.Data.List.TakeWhile
import OwSec.Framework.Base64
import OwSec.Kit.Attempts

/-!
# Compressed data

`Utils::ExtractBase64CompressedData` (`framework/utils.cpp`).  The size of the data is not known
before they are uncompressed, so buffers are tried one after the other, the first of a size that
the caller gives a hint for, and the others of a growing multiple of the compressed size.

A NUL is put behind what has been uncompressed, for which the buffer has no room of its own, and
the text up to the first NUL is handed out.
-/

namespace OwSec.Compression

open Kit

/-- What is used of other libraries. -/
structure Library where
  /-- What is read from `Poco::Base64Decoder`, which stops at a character it does not know. -/
  base64Decoder : List UInt8 → List UInt8
  /-- The bytes that compressed data stand for; `none` for corrupt data. -/
  inflate : List UInt8 → Option (List UInt8)
  /-- Whether there is memory for so many bytes. -/
  allocates : ℕ → Bool
  /-- Whether `operator[]` of a vector looks at its index, as it does in hardened builds. -/
  checksIndex : Bool

/-- How the extraction may fail. -/
inductive Fault
  | lengthError
  | badAlloc
  | outOfBounds
  deriving DecidableEq, Repr

/-- The answers of `uncompress`; `Z_OK` with what is written into the buffer, whose size is
`FinalSize`. -/
inductive Status
  | Z_OK (written : List UInt8)
  | Z_BUF_ERROR
  | Z_DATA_ERROR
  deriving DecidableEq, Repr

namespace Library

variable (lib : Library)

/-- `uncompress` with a buffer of a capacity. -/
def uncompress (capacity : ℕ) (data : List UInt8) : Status :=
  match lib.inflate data with
  | none => .Z_DATA_ERROR
  | some bytes => if bytes.length ≤ capacity then .Z_OK bytes else .Z_BUF_ERROR

/-- `std::vector<uint8_t>(n)`. -/
def vector (n : UInt64) : Except Fault (List UInt8) :=
  if 2 ^ 63 ≤ n.toNat then .error .lengthError
  else if lib.allocates n.toNat then .ok (List.replicate n.toNat 0)
  else .error .badAlloc

/-- `&buffer[0]`, where nothing is read yet. -/
def addressOf (buffer : List UInt8) : Except Fault Unit :=
  if lib.checksIndex ∧ buffer.length = 0 then .error .outOfBounds else .ok ()

end Library

/-- `buffer[index] = 0`. -/
def putNul (buffer : List UInt8) (index : ℕ) : Except Fault (List UInt8) :=
  if index < buffer.length then .ok (buffer.set index 0) else .error .outOfBounds

/-- The text in a buffer, which is read up to the first NUL. -/
def textOf (buffer : List UInt8) : Except Fault (List UInt8) :=
  if 0 ∈ buffer then .ok (buffer.takeWhile (· ≠ 0)) else .error .outOfBounds

variable (lib : Library) (data unCompressedData : List UInt8)

/-- The body of the loop with `MaxSize`: the result and `UnCompressedData`, or `none` when another
buffer is to be tried. -/
def attempt (maxSize : UInt64) : Except Fault (Option (Bool × List UInt8)) := do
  let buffer ← lib.vector maxSize
  lib.addressOf buffer
  match lib.uncompress maxSize.toNat data with
  | .Z_OK written =>
    let buffer ← putNul (written ++ buffer.drop written.length) written.length
    let text ← textOf buffer
    return some (true, text)
  | .Z_BUF_ERROR => return none
  | .Z_DATA_ERROR => return some (false, unCompressedData)

/-- `ofs.str().size() * factor`. -/
def sizeTimes (factor : ℕ) : UInt64 := UInt64.ofNat data.length * UInt64.ofNat factor

/-- The loop. -/
def extractLoop (factor : ℕ) (maxSize : UInt64) : Except Fault (Bool × List UInt8) :=
  match attempt lib data unCompressedData maxSize with
  | .error fault => .error fault
  | .ok (some result) => .ok result
  | .ok none =>
    if factor < 300 then extractLoop (factor + 10) (sizeTimes data (factor + 10))
    else .ok (false, unCompressedData)
termination_by 300 - factor

/-- The first `MaxSize`. -/
def firstSize (compress_sz : UInt64) : UInt64 :=
  if compress_sz ≠ 0 then compress_sz + 5000 else sizeTimes data 20

/-- `Utils::ExtractBase64CompressedData`, with `UnCompressedData` before and behind. -/
def extractBase64CompressedData (compressedData unCompressedData : List UInt8)
    (compress_sz : UInt64) : Except Fault (Bool × List UInt8) :=
  let data := lib.base64Decoder compressedData
  extractLoop lib data unCompressedData 20 (firstSize data compress_sz)

/-! ## The buffers -/

/-- The sizes of the buffers in the order in which they are tried. -/
def capacities (compress_sz : UInt64) : List UInt64 :=
  firstSize data compress_sz :: (List.range 28).map fun i ↦ sizeTimes data (30 + 10 * i)

/-- The loop is a search through the sizes from some factor on. -/
theorem extractLoop_eq (n factor : ℕ) (maxSize : UInt64) (h : factor + 10 * n = 300) :
    extractLoop lib data unCompressedData factor maxSize =
      tryAll (attempt lib data unCompressedData) (false, unCompressedData)
        (maxSize :: (List.range n).map fun i ↦ sizeTimes data (factor + 10 + 10 * i)) := by
  induction n generalizing factor maxSize with
  | zero =>
    rw [extractLoop, tryAll]
    rcases attempt lib data unCompressedData maxSize with fault | result | result
    · rfl
    · exact if_neg (by omega)
    · rfl
  | succ n ih =>
    have hsizes : (List.range (n + 1)).map (fun i ↦ sizeTimes data (factor + 10 + 10 * i)) =
        sizeTimes data (factor + 10) ::
          (List.range n).map fun i ↦ sizeTimes data (factor + 10 + 10 + 10 * i) := by
      rw [List.range_succ_eq_map, List.map_cons, List.map_map]
      refine congrArg₂ List.cons rfl (List.map_congr_left fun i _ ↦ ?_)
      rw [Function.comp_apply, Nat.mul_succ, Nat.add_comm (10 * i), ← Nat.add_assoc]
    rw [extractLoop, tryAll, hsizes]
    rcases attempt lib data unCompressedData maxSize with fault | result | result
    · rfl
    · exact (if_pos (by omega)).trans (ih (factor + 10) _ (by omega))
    · rfl

/-- The extraction tries the sizes in their order, and there is an end to them. -/
theorem extractBase64CompressedData_eq (compressedData : List UInt8) (compress_sz : UInt64) :
    extractBase64CompressedData lib compressedData unCompressedData compress_sz =
      tryAll (attempt lib (lib.base64Decoder compressedData) unCompressedData)
        (false, unCompressedData) (capacities (lib.base64Decoder compressedData) compress_sz) :=
  extractLoop_eq lib _ unCompressedData 28 20 _ (by decide)

/-! ## One attempt -/

/-- A buffer of this capacity can be had, and its address taken. -/
structure Usable (capacity : UInt64) : Prop where
  memory : capacity.toNat < 2 ^ 63 ∧ lib.allocates capacity.toNat = true
  address : lib.checksIndex = true → capacity.toNat ≠ 0

/-- The data are valid, and the buffer does not hold what they stand for. -/
def TooSmall (capacity : UInt64) : Prop :=
  ∃ bytes, lib.inflate data = some bytes ∧ capacity.toNat < bytes.length

/-- An attempt that goes well: a buffer that holds the bytes has room for the NUL too, and the
bytes can be told from it. -/
structure GoesWell (capacity : UInt64) : Prop extends Usable lib capacity where
  room : ∀ bytes, lib.inflate data = some bytes → bytes.length ≤ capacity.toNat →
    bytes.length < capacity.toNat ∧ 0 ∉ bytes

variable {lib data} {capacity : UInt64}

/-- The NUL stands behind the bytes, if there is room. -/
theorem putNul_append (bytes rest : List UInt8) :
    putNul (bytes ++ rest) bytes.length =
      if rest = [] then .error .outOfBounds else .ok (bytes ++ 0 :: rest.tail) := by
  rw [putNul, List.length_append]
  cases rest with
  | nil =>
    rw [if_pos rfl]
    exact if_neg (Nat.lt_irrefl _)
  | cons b rest =>
    have hlt : bytes.length < bytes.length + (b :: rest).length :=
      Nat.lt_add_of_pos_right (Nat.succ_pos _)
    rw [if_pos hlt, if_neg (List.cons_ne_nil b rest), List.set_append_right _ _ le_rfl,
      Nat.sub_self, List.set_cons_zero, List.tail_cons]

/-- The text of bytes with a NUL behind ends at the first NUL. -/
theorem textOf_append (bytes rest : List UInt8) :
    textOf (bytes ++ 0 :: rest) = .ok (bytes.takeWhile (· ≠ 0)) := by
  rw [textOf, if_pos (List.mem_append_right _ List.mem_cons_self), List.takeWhile_append,
    List.takeWhile_cons_of_neg (by simp), List.append_nil]
  split_ifs with h
  · exact congrArg Except.ok ((List.takeWhile_prefix _).eq_of_length h).symm
  · rfl

theorem Usable.vector (h : Usable lib capacity) :
    lib.vector capacity = .ok (List.replicate capacity.toNat 0) := by
  rw [Library.vector, if_neg (Nat.not_le_of_lt h.memory.1), if_pos h.memory.2]

theorem Usable.addressOf (h : Usable lib capacity) :
    lib.addressOf (List.replicate capacity.toNat 0) = .ok () := by
  rw [Library.addressOf, List.length_replicate]
  exact if_neg fun hzero ↦ h.address hzero.1 hzero.2

/-- Without a buffer, or its address, the attempt fails. -/
theorem attempt_of_not_usable (h : ¬ Usable lib capacity) :
    ∃ fault, attempt lib data unCompressedData capacity = .error fault := by
  rw [attempt, Library.vector]
  split_ifs with hlength hmemory
  · exact ⟨_, rfl⟩
  · have haddress : lib.addressOf (List.replicate capacity.toNat 0) = .error .outOfBounds := by
      rw [Library.addressOf, List.length_replicate]
      refine if_pos ?_
      by_contra hne
      exact h ⟨⟨Nat.lt_of_not_le hlength, hmemory⟩, fun hchecks hzero ↦ hne ⟨hchecks, hzero⟩⟩
    exact ⟨.outOfBounds, by simp only [bind, Except.bind, haddress]⟩
  · exact ⟨_, rfl⟩

/-- Corrupt data end the search. -/
theorem attempt_of_corrupt (h : Usable lib capacity) (hdata : lib.inflate data = none) :
    attempt lib data unCompressedData capacity = .ok (some (false, unCompressedData)) := by
  have hstatus : lib.uncompress capacity.toNat data = .Z_DATA_ERROR := by
    rw [Library.uncompress, hdata]
  rw [attempt, h.vector]
  simp only [bind, Except.bind, h.addressOf, hstatus]
  rfl

/-- With a buffer that is too small, the next one is tried. -/
theorem attempt_of_tooSmall (h : Usable lib capacity) (hsmall : TooSmall lib data capacity) :
    attempt lib data unCompressedData capacity = .ok none := by
  obtain ⟨bytes, hdata, hlt⟩ := hsmall
  have hstatus : lib.uncompress capacity.toNat data = .Z_BUF_ERROR := by
    rw [Library.uncompress, hdata]
    exact if_neg (Nat.not_le_of_lt hlt)
  rw [attempt, h.vector]
  simp only [bind, Except.bind, h.addressOf, hstatus]
  rfl

/-- A buffer that holds the bytes ends the search, and one that they fill has no room for the
NUL. -/
theorem attempt_of_fits {bytes : List UInt8} (h : Usable lib capacity)
    (hdata : lib.inflate data = some bytes) (hfits : bytes.length ≤ capacity.toNat) :
    attempt lib data unCompressedData capacity =
      if bytes.length < capacity.toNat then .ok (some (true, bytes.takeWhile (· ≠ 0)))
      else .error .outOfBounds := by
  have hstatus : lib.uncompress capacity.toNat data = .Z_OK bytes := by
    rw [Library.uncompress, hdata]
    exact if_pos hfits
  rw [attempt, h.vector]
  simp only [bind, Except.bind, h.addressOf, hstatus, List.drop_replicate, putNul_append,
    List.replicate_eq_nil_iff, Nat.sub_eq_zero_iff_le]
  by_cases hroom : bytes.length < capacity.toNat
  · rw [if_pos hroom, if_neg (Nat.not_le_of_lt hroom)]
    simp only [textOf_append]
    rfl
  · rw [if_neg hroom, if_pos (Nat.le_of_not_lt hroom)]

/-! ## The whole extraction -/

/-- What is promised of buffers of these capacities: the extraction comes back without having left
a buffer, with `true` exactly for valid data that one of them holds, and then with all the
bytes. -/
def Extracts (lib : Library) (data : List UInt8) (cs : List UInt64)
    (result : Except Fault (Bool × List UInt8)) : Prop :=
  ∃ done out, result = .ok (done, out) ∧
    (done = true ↔ ∃ bytes, lib.inflate data = some bytes ∧ ∃ c ∈ cs, bytes.length ≤ c.toNat) ∧
    (done = true → lib.inflate data = some out)

variable {cs : List UInt64}

theorem not_extracts_error (fault : Fault) : ¬ Extracts lib data cs (.error fault) := by
  rintro ⟨done, out, hresult, -⟩
  cases hresult

theorem extracts_false
    (h : ¬ ∃ bytes, lib.inflate data = some bytes ∧ ∃ c ∈ cs, bytes.length ≤ c.toNat)
    (out : List UInt8) : Extracts lib data cs (.ok (false, out)) :=
  ⟨false, out, rfl, iff_of_false Bool.false_ne_true h, fun hdone ↦ absurd hdone Bool.false_ne_true⟩

/-- Nothing is to be extracted from corrupt data. -/
theorem extracts_of_corrupt (hdata : lib.inflate data = none) (out : List UInt8) :
    Extracts lib data cs (.ok (false, out)) := by
  refine extracts_false ?_ out
  rintro ⟨bytes, hbytes, -⟩
  rw [hdata] at hbytes
  cases hbytes

/-- When no buffer holds the bytes, nothing is extracted. -/
theorem extracts_nil (out : List UInt8) : Extracts lib data [] (.ok (false, out)) := by
  refine extracts_false ?_ out
  rintro ⟨bytes, -, c, hc, -⟩
  cases hc

/-- What is handed out as the bytes has to be the bytes. -/
theorem extracts_true_iff {bytes out : List UInt8} (hdata : lib.inflate data = some bytes)
    {c : UInt64} (hc : c ∈ cs) (hfits : bytes.length ≤ c.toNat) :
    Extracts lib data cs (.ok (true, out)) ↔ out = bytes := by
  constructor
  · rintro ⟨done, text, hresult, -, hout⟩
    cases hresult
    exact (Option.some.inj (hdata.symm.trans (hout rfl))).symm
  · rintro rfl
    exact ⟨true, out, rfl, iff_of_true rfl ⟨out, hdata, c, hc, hfits⟩, fun _ ↦ hdata⟩

/-- A buffer that is too small does not count. -/
theorem extracts_cons_iff (hsmall : TooSmall lib data capacity)
    (result : Except Fault (Bool × List UInt8)) :
    Extracts lib data (capacity :: cs) result ↔ Extracts lib data cs result := by
  obtain ⟨bytes, hdata, hlt⟩ := hsmall
  have hfits (out : List UInt8) (hout : lib.inflate data = some out) :
      (∃ c ∈ capacity :: cs, out.length ≤ c.toNat) ↔ ∃ c ∈ cs, out.length ≤ c.toNat := by
    cases hdata.symm.trans hout
    rw [List.exists_mem_cons_iff, or_iff_right (Nat.not_le_of_lt hlt)]
  have hexists : (∃ out, lib.inflate data = some out ∧
        ∃ c ∈ capacity :: cs, out.length ≤ c.toNat) ↔
      ∃ out, lib.inflate data = some out ∧ ∃ c ∈ cs, out.length ≤ c.toNat :=
    exists_congr fun out ↦ and_congr_right (hfits out)
  rw [Extracts, Extracts, hexists]

/-- The bytes have no NUL exactly if the text of them is all of them. -/
theorem takeWhile_eq_self_iff_notMem (bytes : List UInt8) :
    bytes.takeWhile (· ≠ 0) = bytes ↔ 0 ∉ bytes := by
  rw [List.takeWhile_eq_self_iff]
  constructor
  · intro h hmem
    simpa using h 0 hmem
  · intro h b hb
    exact decide_eq_true (ne_of_mem_of_not_mem hb h)

/-- A search whose first buffer cannot be had keeps no promise. -/
theorem not_extracts_of_not_usable (h : ¬ Usable lib capacity) :
    ¬ Extracts lib data (capacity :: cs) (tryAll (attempt lib data unCompressedData)
      (false, unCompressedData) (capacity :: cs)) := by
  have hfails : ∃ fault, attempt lib data unCompressedData capacity = .error fault :=
    attempt_of_not_usable unCompressedData h
  obtain ⟨fault, hfault⟩ := hfails
  rw [tryAll, hfault]
  exact not_extracts_error fault

/-- The step for a buffer that holds the bytes. -/
theorem extracts_of_fits_iff {bytes : List UInt8} (hdata : lib.inflate data = some bytes)
    (hfits : bytes.length ≤ capacity.toNat) (h : Usable lib capacity) :
    Extracts lib data (capacity :: cs) (tryAll (attempt lib data unCompressedData)
        (false, unCompressedData) (capacity :: cs)) ↔
      GoesWell lib data capacity := by
  have hgoes : GoesWell lib data capacity ↔ bytes.length < capacity.toNat ∧ 0 ∉ bytes := by
    constructor
    · intro hgood
      exact hgood.room bytes hdata hfits
    · intro hroom
      refine ⟨h, fun out hout _ ↦ ?_⟩
      cases hdata.symm.trans hout
      exact hroom
  rw [hgoes, tryAll, attempt_of_fits unCompressedData h hdata hfits]
  by_cases hroom : bytes.length < capacity.toNat
  · rw [if_pos hroom, and_iff_right hroom]
    exact (extracts_true_iff hdata List.mem_cons_self hfits).trans
      (takeWhile_eq_self_iff_notMem bytes)
  · rw [if_neg hroom]
    exact iff_of_false (not_extracts_error _) fun hgood ↦ hroom hgood.1

/-- The step that ends the search. -/
theorem extracts_of_not_tooSmall_iff (hlarge : ¬ TooSmall lib data capacity) :
    Extracts lib data (capacity :: cs) (tryAll (attempt lib data unCompressedData)
        (false, unCompressedData) (capacity :: cs)) ↔
      GoesWell lib data capacity := by
  by_cases h : Usable lib capacity
  · cases hdata : lib.inflate data with
    | none =>
      have hgood : GoesWell lib data capacity := by
        refine ⟨h, fun bytes hbytes ↦ ?_⟩
        rw [hdata] at hbytes
        cases hbytes
      rw [tryAll, attempt_of_corrupt unCompressedData h hdata]
      exact iff_of_true (extracts_of_corrupt hdata unCompressedData) hgood
    | some bytes =>
      have hfits : bytes.length ≤ capacity.toNat :=
        Nat.le_of_not_lt fun hlt ↦ hlarge ⟨bytes, hdata, hlt⟩
      exact extracts_of_fits_iff unCompressedData hdata hfits h
  · exact iff_of_false (not_extracts_of_not_usable unCompressedData h) fun hgood ↦
      h hgood.toUsable

/-- The step to the next buffer. -/
theorem extracts_of_tooSmall_iff (hsmall : TooSmall lib data capacity) :
    Extracts lib data (capacity :: cs) (tryAll (attempt lib data unCompressedData)
        (false, unCompressedData) (capacity :: cs)) ↔
      GoesWell lib data capacity ∧
        Extracts lib data cs (tryAll (attempt lib data unCompressedData)
          (false, unCompressedData) cs) := by
  by_cases h : Usable lib capacity
  · have hgood : GoesWell lib data capacity := by
      obtain ⟨bytes, hdata, hlt⟩ := hsmall
      refine ⟨h, fun out hout hfits ↦ ?_⟩
      cases hdata.symm.trans hout
      exact absurd hfits (Nat.not_le_of_lt hlt)
    rw [and_iff_right hgood, extracts_cons_iff hsmall, tryAll,
      attempt_of_tooSmall unCompressedData h hsmall]
  · exact iff_of_false (not_extracts_of_not_usable unCompressedData h) fun hgood ↦
      h hgood.1.toUsable

/-- The promise for the extraction of a text with a hint. -/
def KeepsPromise (lib : Library) (compressedData unCompressedData : List UInt8)
    (compress_sz : UInt64) : Prop :=
  Extracts lib (lib.base64Decoder compressedData)
    (capacities (lib.base64Decoder compressedData) compress_sz)
    (extractBase64CompressedData lib compressedData unCompressedData compress_sz)

/-- The extraction does what it promises exactly if every attempt that is made goes well. -/
theorem keepsPromise_iff (lib : Library) (compressedData unCompressedData : List UInt8)
    (compress_sz : UInt64) :
    KeepsPromise lib compressedData unCompressedData compress_sz ↔
      ∀ capacity, Tried (TooSmall lib (lib.base64Decoder compressedData))
          (capacities (lib.base64Decoder compressedData) compress_sz) capacity →
        GoesWell lib (lib.base64Decoder compressedData) capacity := by
  rw [KeepsPromise, extractBase64CompressedData_eq]
  generalize lib.base64Decoder compressedData = data
  refine tryAll_iff (Extracts lib data) (extracts_nil unCompressedData) ?_ ?_ _
  · intro capacity cs hlarge
    exact extracts_of_not_tooSmall_iff unCompressedData hlarge
  · intro capacity cs hsmall
    exact extracts_of_tooSmall_iff unCompressedData hsmall

/-- The first buffer decides, if it holds the bytes. -/
theorem extract_of_fits {bytes : List UInt8} (compressedData : List UInt8) {compress_sz : UInt64}
    (hdecoder : lib.base64Decoder compressedData = data) (hdata : lib.inflate data = some bytes)
    (h : Usable lib (firstSize data compress_sz))
    (hfits : bytes.length ≤ (firstSize data compress_sz).toNat) :
    extractBase64CompressedData lib compressedData unCompressedData compress_sz =
      if bytes.length < (firstSize data compress_sz).toNat then
        .ok (true, bytes.takeWhile (· ≠ 0))
      else .error .outOfBounds := by
  rw [extractBase64CompressedData_eq, hdecoder, capacities, tryAll,
    attempt_of_fits unCompressedData h hdata hfits]
  split_ifs <;> rfl

/-- A library with memory, and the bytes that one piece of compressed data stands for. -/
def knowing (data bytes : List UInt8) : Library where
  base64Decoder text :=
    match Base64.base64decode text with
    | .ok data => data
    | .error _ => []
  inflate compressed := if compressed = data then some bytes else none
  allocates _ := true
  checksIndex := false

/-- 5001 letters `A`, compressed. -/
def lettersA : List UInt8 :=
  [0x78, 0x9C, 0xED, 0xC1, 0x31, 0x01, 0x00, 0x00, 0x00, 0xC2, 0xA0, 0x6C, 0xEB, 0x5F, 0xCA,
    0x14, 0x7E, 0x40, 0x01, 0x00, 0x00, 0x00, 0x00, 0x77, 0x03, 0x1F, 0x3E, 0xF6, 0x06]

/-- The letters `A` and `B` with a NUL between, compressed. -/
def nulInside : List UInt8 :=
  [0x78, 0x9C, 0x73, 0x64, 0x70, 0x02, 0x00, 0x01, 0x08, 0x00, 0x84]

theorem inflate_knowing (data bytes : List UInt8) :
    (knowing data bytes).inflate data = some bytes := if_pos rfl

/-- The extraction of the data that are known, with a first buffer that holds the bytes. -/
theorem extract_knowing {compressedData : List UInt8} (bytes : List UInt8) {compress_sz : UInt64}
    (hdecode : Base64.base64decode compressedData = .ok data)
    (hmemory : (firstSize data compress_sz).toNat < 2 ^ 63)
    (hfits : bytes.length ≤ (firstSize data compress_sz).toNat) :
    extractBase64CompressedData (knowing data bytes) compressedData unCompressedData compress_sz =
      if bytes.length < (firstSize data compress_sz).toNat then
        .ok (true, bytes.takeWhile (· ≠ 0))
      else .error .outOfBounds := by
  have hdecoder : (knowing data bytes).base64Decoder compressedData = data := by
    simp only [knowing, hdecode]
  have husable : Usable (knowing data bytes) (firstSize data compress_sz) :=
    ⟨⟨hmemory, rfl⟩, fun hchecks ↦ absurd hchecks Bool.false_ne_true⟩
  exact extract_of_fits unCompressedData compressedData hdecoder (inflate_knowing data bytes)
    husable hfits

/-- A hint that is 5000 below the size leaves no room for the NUL, and text with a NUL inside is
cut there. -/
theorem not_keepsPromise :
    (extractBase64CompressedData (knowing lettersA (List.replicate 5001 0x41))
          (Base64.text lettersA) [] 1 = .error .outOfBounds ∧
        ¬ KeepsPromise (knowing lettersA (List.replicate 5001 0x41)) (Base64.text lettersA) [] 1) ∧
      extractBase64CompressedData (knowing nulInside [0x41, 0, 0x42])
          (Base64.text nulInside) [] 0 = .ok (true, [0x41]) ∧
        ¬ KeepsPromise (knowing nulInside [0x41, 0, 0x42]) (Base64.text nulInside) [] 0 := by
  have hfull : extractBase64CompressedData (knowing lettersA (List.replicate 5001 0x41))
      (Base64.text lettersA) [] 1 = .error .outOfBounds := by
    have hsize : (firstSize lettersA 1).toNat = 5001 := rfl
    rw [extract_knowing [] (List.replicate 5001 0x41) rfl (by rw [hsize]; decide)
      (by rw [hsize, List.length_replicate]), hsize, List.length_replicate]
    exact if_neg (Nat.lt_irrefl 5001)
  have hinside : extractBase64CompressedData (knowing nulInside [0x41, 0, 0x42])
      (Base64.text nulInside) [] 0 = .ok (true, [0x41]) := by
    have hsize : (firstSize nulInside 0).toNat = 220 := rfl
    rw [extract_knowing [] [0x41, 0, 0x42] rfl (by rw [hsize]; decide) (by rw [hsize]; decide),
      hsize]
    rfl
  refine ⟨⟨hfull, ?_⟩, hinside, ?_⟩
  · rw [KeepsPromise, hfull]
    exact not_extracts_error .outOfBounds
  · rw [KeepsPromise, hinside]
    intro hpromise
    have hall : ([0x41] : List UInt8) = [0x41, 0, 0x42] :=
      (extracts_true_iff (inflate_knowing nulInside _) List.mem_cons_self (by decide)).mp hpromise
    cases hall

end OwSec.Compression
