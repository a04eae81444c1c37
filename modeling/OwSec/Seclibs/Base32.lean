import Mathlib.Data.List.Forall2
import OwSec.Kit.Bits
import OwSec.Kit.Blocks
import OwSec.Kit.Command
import OwSec.Kit.Positional
import OwSec.Seclibs.Bytes

/-!
# Reading and writing base 32

A chunk of eight characters stands for five bytes.  The encoder fills up the last chunk, but the
decoder takes padding in every chunk, and does not look at the bits that no byte needs, so it
accepts more than one text for a byte string.

The theorems say what the decoder accepts and what it makes of it, that every byte string has a
text that is read back, and which of the accepted texts the encoder writes.
-/

namespace OwSec.CppTotp.Bytes

open Kit

/-! ## Characters -/

/-- Characters are read as what they were put for. -/
theorem b32Bits_b32Char {val : ℕ} (h : val < 32) : b32Bits (b32Char val) = some val := by
  have hall : ∀ val : Fin 32, b32Bits (b32Char val) = some val.val := by decide
  exact hall ⟨val, h⟩

/-- Padding is none of them. -/
theorem b32Char_ne_pad {val : ℕ} (h : val < 32) : b32Char val ≠ pad := by
  have hall : ∀ val : Fin 32, b32Char val ≠ pad := by decide
  exact hall ⟨val, h⟩

/-- What is read as five bits is the character for them. -/
theorem b32Char_of_b32Bits {c : UInt8} {val : ℕ} (h : b32Bits c = some val) :
    val < 32 ∧ b32Char val = c := by
  unfold b32Bits at h
  simp only [UInt8.le_iff_toNat_le] at h
  have hA : (0x41 : UInt8).toNat = 0x41 := rfl
  have hZ : (0x5A : UInt8).toNat = 0x5A := rfl
  have h2 : (0x32 : UInt8).toNat = 0x32 := rfl
  have h7 : (0x37 : UInt8).toNat = 0x37 := rfl
  rw [hA, hZ, h2, h7] at h
  split at h
  · obtain rfl := Option.some.inj h
    rw [b32Char, if_pos (by omega), Nat.sub_add_cancel (by omega), UInt8.ofNat_toNat]
    exact ⟨by omega, rfl⟩
  · split at h
    · obtain rfl := Option.some.inj h
      rw [b32Char, if_neg (by omega), Nat.add_sub_cancel, Nat.sub_add_cancel (by omega),
        UInt8.ofNat_toNat]
      exact ⟨by omega, rfl⟩
    · cases h

/-! ## Chunks

A chunk is read and written through the number of 40 bits that its characters and its bytes are the
digits of. -/

/-- How many characters of a chunk may come before its padding. -/
def chunkSizes : List ℕ := [2, 4, 5, 7, 8]

/-- Groups of five bits that a chunk may consist of. -/
structure IsChunk (ds : List ℕ) : Prop where
  size : ds.length ∈ chunkSizes
  digits : ∀ d ∈ ds, d < 2 ^ 5

/-- The text of a chunk. -/
def chunkText (ds : List ℕ) : List UInt8 := ds.map b32Char ++ List.replicate (8 - ds.length) pad

/-- The number of a chunk. -/
def chunkNumber (ds : List ℕ) : ℕ := number (2 ^ 5) ds * (2 ^ 5) ^ (8 - ds.length)

/-- The whole bytes among the bits of a chunk. -/
def chunkBytes (ds : List ℕ) : List UInt8 :=
  ((lastDigits (2 ^ 8) 5 (chunkNumber ds)).take (5 * ds.length / 8)).map .ofNat

/-- The groups of five bits for up to five bytes. -/
def chunkDigits (bs : List UInt8) : List ℕ :=
  (lastDigits (2 ^ 5) 8 (number (2 ^ 8) (bs.map UInt8.toNat) * (2 ^ 8) ^ (5 - bs.length))).take
    ((8 * bs.length + 4) / 5)

/-- The bits that no byte of a chunk needs are zeros. -/
def Canonical (ds : List ℕ) : Prop := 2 ^ (5 * ds.length % 8) ∣ number (2 ^ 5) ds

theorem length_chunkText {ds : List ℕ} (h : IsChunk ds) : (chunkText ds).length = 8 := by
  have hsize : ds.length ≤ 8 := by
    have hsizes : ∀ n ∈ chunkSizes, n ≤ 8 := by decide
    exact hsizes _ h.size
  rw [chunkText, List.length_append, List.length_map, List.length_replicate,
    Nat.add_sub_cancel' hsize]

/-! ### Writing a chunk -/

theorem b32Whole_eq {bs : List UInt8} (hpos : 0 < bs.length) (h : bs.length ≤ 5) :
    b32Whole bs = (number (2 ^ 8) (bs.map UInt8.toNat) * (2 ^ 8) ^ (5 - bs.length),
      (8 * bs.length + 4) / 5) := by
  have hor (d : UInt8) (ds : List ℕ) (k : ℕ) :
      number (2 ^ 8) ds * (2 ^ 8) ^ (k + 1) ||| d.toNat <<< (k * 8) =
        number (2 ^ 8) (ds ++ [d.toNat]) * (2 ^ 8) ^ k :=
    number_or_shiftLeft d.toNat_lt ds k
  have h₁ (a : UInt8) : a.toNat <<< 32 = a.toNat * 4294967296 := Nat.shiftLeft_eq a.toNat 32
  have h₂ (a b : UInt8) : a.toNat * 4294967296 ||| b.toNat <<< 24 =
      number 256 [a.toNat, b.toNat] * 16777216 := hor b [a.toNat] 3
  have h₃ (a b c : UInt8) : number 256 [a.toNat, b.toNat] * 16777216 ||| c.toNat <<< 16 =
      number 256 [a.toNat, b.toNat, c.toNat] * 65536 := hor c [a.toNat, b.toNat] 2
  have h₄ (a b c d : UInt8) : number 256 [a.toNat, b.toNat, c.toNat] * 65536 ||| d.toNat <<< 8 =
      number 256 [a.toNat, b.toNat, c.toNat, d.toNat] * 256 := hor d [a.toNat, b.toNat, c.toNat] 1
  have h₅ (a b c d e : UInt8) :
      number 256 [a.toNat, b.toNat, c.toNat, d.toNat] * 256 ||| e.toNat =
        number 256 [a.toNat, b.toNat, c.toNat, d.toNat, e.toNat] :=
    (hor e [a.toNat, b.toNat, c.toNat, d.toNat] 0).trans (Nat.mul_one _)
  match bs with
  | [a] => simp [b32Whole, h₁]
  | [a, b] => simp [b32Whole, h₁, h₂]
  | [a, b, c] => simp [b32Whole, h₁, h₂, h₃]
  | [a, b, c, d] => simp [b32Whole, h₁, h₂, h₃, h₄]
  | [a, b, c, d, e] => simp [b32Whole, h₁, h₂, h₃, h₄, h₅]

/-- A chunk is written as the groups of its bits. -/
theorem bytesToB32Chunk_eq {bs : List UInt8} (hpos : 0 < bs.length) (h : bs.length ≤ 5) :
    bytesToB32Chunk bs = .ok (chunkText (chunkDigits bs)) := by
  have hputchars : (8 * bs.length + 4) / 5 ≤ 8 := by omega
  rw [bytesToB32Chunk, if_neg (by omega), b32Whole_eq hpos h, chunkText, chunkDigits,
    List.length_take, length_lastDigits, Nat.min_eq_left hputchars, lastDigits, ← List.map_take,
    List.take_range, Nat.min_eq_left hputchars, List.map_map]
  refine congrArg (fun ret ↦ Except.ok (ret ++ _)) (List.map_congr_left fun i hi ↦ ?_)
  have hmask := Bits.shiftRight_mask (number (2 ^ 8) (bs.map UInt8.toNat) *
    (2 ^ 8) ^ (5 - bs.length)) 5 ((7 - i) * 5)
  rw [Function.comp_apply, ← Nat.pow_mul 2 5, Nat.mul_comm 5]
  exact congrArg b32Char hmask

/-- So many groups of bits are enough for the bytes. -/
theorem chunkDigits_append (bs : List UInt8) (h : bs.length ≤ 5) :
    lastDigits (2 ^ 5) 8 (number (2 ^ 8) (bs.map UInt8.toNat) * (2 ^ 8) ^ (5 - bs.length)) =
      chunkDigits bs ++ List.replicate (8 - (8 * bs.length + 4) / 5) 0 := by
  have hdvd : (2 ^ 5) ^ (8 - (8 * bs.length + 4) / 5) ∣ (2 ^ 8) ^ (5 - bs.length) := by
    rw [← Nat.pow_mul, ← Nat.pow_mul]
    exact Nat.pow_dvd_pow 2 (by omega)
  obtain ⟨q, hq⟩ := hdvd
  have hputchars : (8 * bs.length + 4) / 5 + (8 - (8 * bs.length + 4) / 5) = 8 := by omega
  have hsplit := lastDigits_mul_pow (b := 2 ^ 5) (by decide) ((8 * bs.length + 4) / 5)
    (8 - (8 * bs.length + 4) / 5) (number (2 ^ 8) (bs.map UInt8.toNat) * q)
  rw [hputchars, Nat.mul_assoc, Nat.mul_comm q, ← hq] at hsplit
  rw [chunkDigits, hsplit, List.take_left' (length_lastDigits ..)]

theorem length_chunkDigits {bs : List UInt8} (h : bs.length ≤ 5) :
    (chunkDigits bs).length = (8 * bs.length + 4) / 5 := by
  rw [chunkDigits, List.length_take, length_lastDigits, Nat.min_eq_left (by omega)]

theorem isChunk_chunkDigits {bs : List UInt8} (hpos : 0 < bs.length) (h : bs.length ≤ 5) :
    IsChunk (chunkDigits bs) where
  size := by
    have hsizes : ∀ n < 6, 0 < n → (8 * n + 4) / 5 ∈ chunkSizes := by decide
    rw [length_chunkDigits h]
    exact hsizes _ (Nat.lt_succ_of_le h) hpos
  digits d hd := lastDigits_lt (by decide) (List.mem_of_mem_take hd)

theorem map_toNat_lt (bs : List UInt8) : ∀ d ∈ bs.map UInt8.toNat, d < 2 ^ 8 := by
  intro d hd
  obtain ⟨b, -, rfl⟩ := List.mem_map.mp hd
  exact b.toNat_lt

/-- The number of the bytes of a chunk is that of its groups. -/
theorem chunkNumber_chunkDigits {bs : List UInt8} (h : bs.length ≤ 5) :
    chunkNumber (chunkDigits bs) =
      number (2 ^ 8) (bs.map UInt8.toNat) * (2 ^ 8) ^ (5 - bs.length) := by
  have hlt : number (2 ^ 8) (bs.map UInt8.toNat) * (2 ^ 8) ^ (5 - bs.length) < (2 ^ 5) ^ 8 := by
    have hbytes := number_lt (b := 2 ^ 8) (by decide) (map_toNat_lt bs)
    rw [List.length_map] at hbytes
    calc number (2 ^ 8) (bs.map UInt8.toNat) * (2 ^ 8) ^ (5 - bs.length)
        < (2 ^ 8) ^ bs.length * (2 ^ 8) ^ (5 - bs.length) :=
          Nat.mul_lt_mul_of_pos_right hbytes (Nat.pow_pos (by decide))
      _ = (2 ^ 8) ^ 5 := by rw [← Nat.pow_add, Nat.add_sub_cancel' h]
      _ = (2 ^ 5) ^ 8 := by decide
  rw [chunkNumber, length_chunkDigits h, ← number_append_zeros, ← chunkDigits_append bs h,
    number_lastDigits_of_lt hlt]

/-- The bytes of a chunk that was written are read. -/
theorem chunkBytes_chunkDigits {bs : List UInt8} (h : bs.length ≤ 5) :
    chunkBytes (chunkDigits bs) = bs := by
  have hcount : 5 * ((8 * bs.length + 4) / 5) / 8 = bs.length := by omega
  have hsplit := lastDigits_mul_pow (b := 2 ^ 8) (by decide) bs.length (5 - bs.length)
    (number (2 ^ 8) (bs.map UInt8.toNat))
  have hdigits := lastDigits_number (map_toNat_lt bs)
  rw [List.length_map] at hdigits
  rw [Nat.add_sub_cancel' h, hdigits] at hsplit
  rw [chunkBytes, chunkNumber_chunkDigits h, hsplit, length_chunkDigits h, hcount,
    List.take_left' (List.length_map ..), List.map_map]
  conv_rhs => rw [← List.map_id bs]
  exact List.map_congr_left fun b _ ↦ UInt8.ofNat_toNat

/-- What is written leaves zeros behind the last byte. -/
theorem canonical_chunkDigits {bs : List UInt8} (h : bs.length ≤ 5) :
    Canonical (chunkDigits bs) := by
  have hnumber := chunkNumber_chunkDigits h
  have hlength := length_chunkDigits h
  have hbits : 8 * (5 - bs.length) =
      5 * (8 - (chunkDigits bs).length) + 5 * (chunkDigits bs).length % 8 := by omega
  rw [chunkNumber, ← Nat.pow_mul, ← Nat.pow_mul, hbits, Nat.pow_add, Nat.mul_left_comm] at hnumber
  have hcancel := Nat.eq_of_mul_eq_mul_right (Nat.pow_pos (by decide))
    (hnumber.trans (Nat.mul_comm _ _))
  exact ⟨_, hcancel.trans (Nat.mul_comm _ _)⟩

/-- The bytes that are read are written in the same way, as long as no bits were passed over. -/
theorem chunkDigits_chunkBytes {ds : List ℕ} (h : IsChunk ds) (hcanonical : Canonical ds) :
    chunkDigits (chunkBytes ds) = ds := by
  have hsize : ds.length ≤ 8 ∧ (8 * (5 * ds.length / 8) + 4) / 5 = ds.length := by
    have hsizes : ∀ n ∈ chunkSizes, n ≤ 8 ∧ (8 * (5 * n / 8) + 4) / 5 = n := by decide
    exact hsizes _ h.size
  have hcount : 5 * ds.length / 8 ≤ 5 := by omega
  have hlt : chunkNumber ds < (2 ^ 8) ^ 5 := by
    calc chunkNumber ds
        < (2 ^ 5) ^ ds.length * (2 ^ 5) ^ (8 - ds.length) :=
          Nat.mul_lt_mul_of_pos_right (number_lt (by decide) h.digits) (Nat.pow_pos (by decide))
      _ = (2 ^ 5) ^ 8 := by rw [← Nat.pow_add, Nat.add_sub_cancel' hsize.1]
      _ = (2 ^ 8) ^ 5 := by decide
  -- the bits that are passed over are zeros, so the bytes have the number of the chunk
  have hdvd : (2 ^ 8) ^ (5 - 5 * ds.length / 8) ∣ chunkNumber ds := by
    have hbits : 8 * (5 - 5 * ds.length / 8) = 5 * ds.length % 8 + 5 * (8 - ds.length) := by omega
    rw [chunkNumber, ← Nat.pow_mul, ← Nat.pow_mul, hbits, Nat.pow_add]
    exact Nat.mul_dvd_mul hcanonical (Nat.dvd_refl _)
  have hbytes : number (2 ^ 8) ((chunkBytes ds).map UInt8.toNat) =
      chunkNumber ds / (2 ^ 8) ^ (5 - 5 * ds.length / 8) := by
    have hmap : ((lastDigits (2 ^ 8) 5 (chunkNumber ds)).take (5 * ds.length / 8)).map
        (UInt8.toNat ∘ UInt8.ofNat) = (lastDigits (2 ^ 8) 5 (chunkNumber ds)).take
          (5 * ds.length / 8) := by
      conv_rhs => rw [← List.map_id (List.take _ _)]
      refine List.map_congr_left fun d hd ↦ ?_
      exact UInt8.toNat_ofNat_of_lt (lastDigits_lt (by decide) (List.mem_of_mem_take hd))
    rw [chunkBytes, List.map_map, hmap, take_lastDigits hcount, number_lastDigits_of_lt]
    rw [Nat.div_lt_iff_lt_mul (Nat.pow_pos (by decide)), ← Nat.pow_add, Nat.add_sub_cancel' hcount]
    exact hlt
  have hlength : (chunkBytes ds).length = 5 * ds.length / 8 := by
    rw [chunkBytes, List.length_map, List.length_take, length_lastDigits, Nat.min_eq_left hcount]
  have hsplit := lastDigits_mul_pow (b := 2 ^ 5) (by decide) ds.length (8 - ds.length)
    (number (2 ^ 5) ds)
  rw [Nat.add_sub_cancel' hsize.1, lastDigits_number h.digits] at hsplit
  rw [chunkDigits, hbytes, hlength, Nat.div_mul_cancel hdvd, hsize.2, chunkNumber, hsplit,
    List.take_left' rfl]

/-! ### Reading a chunk -/

/-- Characters before any padding add their bits. -/
theorem b32Loop_chars {ds : List ℕ} (hds : ∀ d ∈ ds, d < 2 ^ 5) (before : List ℕ)
    (h : before.length + ds.length ≤ 8) (str : List UInt8) :
    b32Loop (ds.map b32Char ++ str) before.length 0
        (number (2 ^ 5) before * (2 ^ 5) ^ (8 - before.length)) =
      b32Loop str (before ++ ds).length 0
        (number (2 ^ 5) (before ++ ds) * (2 ^ 5) ^ (8 - (before ++ ds).length)) := by
  induction ds generalizing before with
  | nil => simp
  | cons d ds ih =>
    have hd : d < 2 ^ 5 := hds d List.mem_cons_self
    have hrest : ∀ e ∈ ds, e < 2 ^ 5 := fun e he ↦ hds e (List.mem_cons_of_mem d he)
    rw [List.length_cons] at h
    have hroom : 8 - before.length = 7 - before.length + 1 := by omega
    have hleft : 7 - before.length = 8 - (before ++ [d]).length := by
      rw [List.length_append, List.length_singleton]
      omega
    have hnext := ih hrest (before ++ [d]) (by
      rw [List.length_append, List.length_singleton]
      omega)
    rw [List.append_assoc, List.singleton_append] at hnext
    rw [List.map_cons, List.cons_append, b32Loop, if_neg (b32Char_ne_pad hd), if_neg (by omega),
      b32Bits_b32Char hd, ← hnext, ← hleft, hroom]
    simp only [number_or_shiftLeft hd, List.length_append, List.length_singleton]

/-- Padding is counted. -/
theorem b32Loop_pad (k i padcount whole : ℕ) :
    b32Loop (List.replicate k pad) i padcount whole = .ok (padcount + k, whole) := by
  induction k generalizing i padcount with
  | zero => rfl
  | succ k ih =>
    rw [List.replicate_succ, b32Loop, if_pos rfl, Nat.zero_shiftLeft, Nat.or_zero, ih]
    congr 2
    omega

/-- What the loop accepts: characters, then padding. -/
theorem b32Loop_ok {str : List UInt8} {i padcount whole : ℕ} {r : ℕ × ℕ}
    (h : b32Loop str i padcount whole = .ok r) :
    ∃ ds k, (∀ d ∈ ds, d < 2 ^ 5) ∧ str = ds.map b32Char ++ List.replicate k pad ∧
      r.1 = padcount + k ∧ (0 < padcount → ds = []) := by
  induction str generalizing i padcount whole with
  | nil =>
    obtain rfl := Except.ok.inj h
    exact ⟨[], 0, by simp, rfl, rfl, fun _ ↦ rfl⟩
  | cons c str ih =>
    rw [b32Loop] at h
    split at h
    · rename_i hpad
      obtain ⟨ds, k, -, hstr, hcount, hnil⟩ := ih h
      obtain rfl := hnil (Nat.succ_pos padcount)
      refine ⟨[], k + 1, by simp, ?_, by omega, fun _ ↦ rfl⟩
      rw [hpad, hstr]
      rfl
    · split at h
      · cases h
      · rename_i hfirst
        split at h
        · rename_i bits hbits
          obtain ⟨hlt, hchar⟩ := b32Char_of_b32Bits hbits
          obtain ⟨ds, k, hds, hstr, hcount, -⟩ := ih h
          refine ⟨bits :: ds, k, ?_, ?_, hcount, fun hpos ↦ absurd hpos hfirst⟩
          · exact List.forall_mem_cons.mpr ⟨hlt, hds⟩
          · rw [List.map_cons, hchar, hstr]
            rfl
        · cases h

theorem finalcount_eq {padcount : ℕ} (h : padcount ≤ 8) (hsize : 8 - padcount ∈ chunkSizes) :
    finalcount padcount = .ok (5 * (8 - padcount) / 8) := by
  have hall : ∀ p < 9, 8 - p ∈ chunkSizes → finalcount p = .ok (5 * (8 - p) / 8) := by decide
  exact hall _ (Nat.lt_succ_of_le h) hsize

theorem finalcount_error {padcount : ℕ} (hsize : 8 - padcount ∉ chunkSizes) {count : ℕ} :
    finalcount padcount ≠ .ok count := by
  unfold finalcount
  split <;> simp_all [chunkSizes]

/-- What a chunk is read as. -/
theorem b32ChunkToBytes_chunkText {ds : List ℕ} (h : IsChunk ds) :
    b32ChunkToBytes (chunkText ds) = .ok (chunkBytes ds) := by
  have hsize : ds.length ≤ 8 := by
    have hsizes : ∀ n ∈ chunkSizes, n ≤ 8 := by decide
    exact hsizes _ h.size
  have hback : 8 - (8 - ds.length) = ds.length := by omega
  have hloop : b32Loop (chunkText ds) 0 0 0 = .ok (8 - ds.length, chunkNumber ds) := by
    have hchars := b32Loop_chars h.digits [] (by simpa using hsize)
      (List.replicate (8 - ds.length) pad)
    rw [number_nil, Nat.zero_mul, List.nil_append, b32Loop_pad, Nat.zero_add] at hchars
    exact hchars
  have hcount : finalcount (8 - ds.length) = .ok (5 * ds.length / 8) := by
    rw [finalcount_eq (Nat.sub_le 8 _) (by rw [hback]; exact h.size), hback]
  have hbytes : (List.range (5 * ds.length / 8)).map (fun i ↦
      UInt8.ofNat (chunkNumber ds >>> ((4 - i) * 8) &&& 0xFF)) = chunkBytes ds := by
    rw [chunkBytes, lastDigits, ← List.map_take, List.take_range, Nat.min_eq_left (by omega),
      List.map_map]
    refine List.map_congr_left fun i _ ↦ ?_
    have hmask := Bits.shiftRight_mask (chunkNumber ds) 8 ((4 - i) * 8)
    rw [Function.comp_apply, ← Nat.pow_mul 2 8, Nat.mul_comm 8]
    exact congrArg UInt8.ofNat hmask
  rw [b32ChunkToBytes, if_neg (by simp [length_chunkText h]), hloop]
  simp only [hcount, hbytes, bind, Except.bind, pure, Except.pure]

/-- A chunk is a text of groups of five bits. -/
theorem b32ChunkToBytes_ok {str out : List UInt8} (h : b32ChunkToBytes str = .ok out) :
    ∃ ds, IsChunk ds ∧ str = chunkText ds ∧ out = chunkBytes ds := by
  have hrun := h
  unfold b32ChunkToBytes at h
  split at h
  · cases h
  · rename_i hlength
    rw [ne_eq, not_not] at hlength
    obtain ⟨r, hloop, h⟩ := Command.except_bind_eq_ok.mp h
    obtain ⟨count, hcount, -⟩ := Command.except_bind_eq_ok.mp h
    obtain ⟨ds, k, hds, hstr, hk, -⟩ := b32Loop_ok hloop
    rw [hstr, List.length_append, List.length_map, List.length_replicate] at hlength
    have hpadding : k = 8 - ds.length := by omega
    have hback : 8 - r.1 = ds.length := by omega
    have hchunk : IsChunk ds := by
      refine ⟨?_, hds⟩
      by_contra hsize
      exact finalcount_error (hback ▸ hsize) hcount
    have htext : str = chunkText ds := by
      rw [hstr, hpadding]
      rfl
    rw [htext, b32ChunkToBytes_chunkText hchunk] at hrun
    exact ⟨ds, hchunk, htext, (Except.ok.inj hrun).symm⟩

/-! ## Texts -/

/-- Chunks that are canonical, and full but for the last one. -/
def CanonicalText (text : List UInt8) : Prop :=
  ∃ groups : List (List ℕ), (∀ ds ∈ groups, IsChunk ds ∧ Canonical ds) ∧
    (∀ ds ∈ groups.dropLast, ds.length = 8) ∧ text = groups.flatMap chunkText

theorem length_flatMap_chunkText {groups : List (List ℕ)} (h : ∀ ds ∈ groups, IsChunk ds) :
    (groups.flatMap chunkText).length = groups.length * 8 := by
  induction groups with
  | nil => rfl
  | cons ds groups ih =>
    obtain ⟨hds, hgroups⟩ := List.forall_mem_cons.mp h
    rw [List.flatMap_cons, List.length_append, length_chunkText hds, ih hgroups, List.length_cons,
      Nat.succ_mul, Nat.add_comm]

/-- Chunks that are all read are groups of five bits. -/
theorem groups_of_chunks {strs chks : List (List UInt8)}
    (h : List.Forall₂ (fun str chk ↦ b32ChunkToBytes str = .ok chk) strs chks) :
    ∃ groups : List (List ℕ), (∀ ds ∈ groups, IsChunk ds) ∧
      strs.flatten = groups.flatMap chunkText ∧ chks.flatten = groups.flatMap chunkBytes := by
  induction h with
  | nil => exact ⟨[], by simp, rfl, rfl⟩
  | cons hchk _ ih =>
    obtain ⟨ds, hds, rfl, rfl⟩ := b32ChunkToBytes_ok hchk
    obtain ⟨groups, hgroups, htext, hbytes⟩ := ih
    refine ⟨ds :: groups, List.forall_mem_cons.mpr ⟨hds, hgroups⟩, ?_, ?_⟩
    · rw [List.flatten_cons, htext, List.flatMap_cons]
    · rw [List.flatten_cons, hbytes, List.flatMap_cons]

/-- A text is read chunk by chunk. -/
theorem fromBase32_ok_iff {str out : List UInt8} :
    fromBase32 str = .ok out ↔ ∃ groups : List (List ℕ), (∀ ds ∈ groups, IsChunk ds) ∧
      str = groups.flatMap chunkText ∧ out = groups.flatMap chunkBytes := by
  rw [fromBase32, ← appendAll_blocks]
  constructor
  · intro h
    split at h
    · cases h
    · rename_i hlength
      rw [ne_eq, not_not, ← length_leftover, List.length_eq_zero_iff] at hlength
      have hflatten := flatten_blocks (by decide) (n := 8) str
      rw [hlength, List.append_nil] at hflatten
      obtain ⟨chks, hchks, rfl⟩ := appendAll_eq_ok.mp h
      exact hflatten ▸ groups_of_chunks hchks
  · rintro ⟨groups, hgroups, rfl, rfl⟩
    have hshort : ([] : List UInt8).length < 8 := by decide
    have hblocks := blocks_flatten (n := 8) (by decide)
      (List.forall_mem_map.mpr fun ds hds ↦ length_chunkText (hgroups ds hds)) hshort
    rw [List.append_nil, ← List.flatMap_def] at hblocks
    rw [length_flatMap_chunkText hgroups, if_neg (by simp), hblocks, appendAll_eq_ok]
    refine ⟨groups.map chunkBytes, ?_, rfl⟩
    rw [List.forall₂_map_left_iff, List.forall₂_map_right_iff, List.forall₂_same]
    exact fun ds hds ↦ b32ChunkToBytes_chunkText (hgroups ds hds)

/-- Every byte string is written. -/
theorem toBase32_eq (bs : List UInt8) :
    toBase32 bs = .ok ((parts 5 bs).flatMap fun b ↦ chunkText (chunkDigits b)) := by
  have hchunk (b : List UInt8) (hb : b ∈ parts 5 bs) :
      bytesToB32Chunk b = .ok (chunkText (chunkDigits b)) := by
    obtain ⟨hpos, hle⟩ := length_of_mem_parts (by decide) hb
    exact bytesToB32Chunk_eq hpos hle
  have hwhole : appendAll bytesToB32Chunk (blocks 5 bs) =
      .ok ((blocks 5 bs).flatMap fun b ↦ chunkText (chunkDigits b)) := by
    rw [appendAll_eq_ok]
    refine ⟨(blocks 5 bs).map fun b ↦ chunkText (chunkDigits b), ?_, rfl⟩
    rw [List.forall₂_map_right_iff, List.forall₂_same]
    exact fun b hb ↦ hchunk b (List.mem_append_left _ hb)
  have hsize : bs.length - bs.length / 5 * 5 = (leftover 5 bs).length := List.length_drop.symm
  rw [toBase32, ← appendAll_blocks, hwhole, parts]
  simp only [bind, Except.bind, pure, Except.pure, hsize]
  by_cases hpos : 0 < (leftover 5 bs).length
  · have hmem : leftover 5 bs ∈ parts 5 bs := by
      rw [parts, if_pos hpos]
      exact List.mem_append_right _ (List.mem_singleton_self _)
    have hlast : bytesToB32Chunk (bs.drop (bs.length / 5 * 5)) =
        .ok (chunkText (chunkDigits (leftover 5 bs))) := hchunk _ hmem
    simp only [hpos, if_true, hlast, List.flatMap_append, List.flatMap_singleton]
  · simp only [hpos, if_false, List.append_nil]

/-- The bytes of full chunks and of a last one are the parts of what they make together. -/
theorem parts_flatMap_chunkBytes {groups : List (List ℕ)} (h : ∀ ds ∈ groups, IsChunk ds)
    (hfull : ∀ ds ∈ groups.dropLast, ds.length = 8) :
    parts 5 (groups.flatMap chunkBytes) = groups.map chunkBytes := by
  have hlength {ds : List ℕ} : (chunkBytes ds).length = min (5 * ds.length / 8) 5 := by
    rw [chunkBytes, List.length_map, List.length_take, length_lastDigits]
  induction groups with
  | nil => exact parts_nil
  | cons ds groups ih =>
    obtain ⟨hds, hgroups⟩ := List.forall_mem_cons.mp h
    by_cases hfive : (chunkBytes ds).length = 5
    · rw [List.flatMap_cons, parts_append (by decide) hfive, List.map_cons, ih hgroups]
      intro es hes
      refine hfull es ?_
      rcases groups with _ | ⟨_, _⟩
      · cases hes
      · exact List.mem_cons_of_mem ds hes
    · -- only the last chunk is not full
      rcases groups with _ | ⟨es, groups⟩
      · have hsizes : ∀ n ∈ chunkSizes, 0 < min (5 * n / 8) 5 ∧ min (5 * n / 8) 5 ≤ 5 := by decide
        obtain ⟨hpos, hle⟩ := hsizes _ hds.size
        rw [← hlength] at hpos hle
        rw [List.flatMap_singleton, parts_of_short hpos (Nat.lt_of_le_of_ne hle hfive)]
        rfl
      · refine absurd ?_ hfive
        rw [hlength, hfull ds List.mem_cons_self]
        rfl

/-- The groups of what is written: no bits are left over that are not zeros, and all chunks are
full but for the last one. -/
theorem canonicalText_parts (bs : List UInt8) :
    CanonicalText ((parts 5 bs).flatMap fun b ↦ chunkText (chunkDigits b)) := by
  refine ⟨(parts 5 bs).map chunkDigits, ?_, ?_, (List.flatMap_map ..).symm⟩
  · rw [List.forall_mem_map]
    intro b hb
    obtain ⟨hpos, hle⟩ := length_of_mem_parts (by decide) hb
    exact ⟨isChunk_chunkDigits hpos hle, canonical_chunkDigits hle⟩
  · rw [← List.map_dropLast, List.forall_mem_map]
    intro b hb
    have hfive := length_of_mem_dropLast_parts (by decide) hb
    rw [length_chunkDigits hfive.le, hfive]

/-! ## Texts without padding -/

/-- The loop adds what is missing from the last chunk. -/
theorem padToChunk_eq (newstr : List UInt8) :
    padToChunk newstr = newstr ++ List.replicate ((8 - newstr.length % 8) % 8) pad := by
  induction newstr using padToChunk.induct with
  | case1 newstr h => rw [padToChunk, if_pos h, h, Nat.sub_zero, Nat.mod_self,
      List.replicate_zero, List.append_nil]
  | case2 newstr h ih =>
    have hcount : (8 - newstr.length % 8) % 8 = (8 - (newstr.length + 1) % 8) % 8 + 1 := by omega
    rw [padToChunk, if_neg h, ih, List.length_append, List.length_singleton, hcount,
      List.replicate_succ, List.append_assoc, List.singleton_append]

/-- Padding comes at the end only, and is less than a chunk. -/
theorem flatMap_chunkText_eq {groups : List (List ℕ)} (h : ∀ ds ∈ groups, IsChunk ds)
    (hfull : ∀ ds ∈ groups.dropLast, ds.length = 8) :
    ∃ k < 8, groups.flatMap chunkText = groups.flatten.map b32Char ++ List.replicate k pad := by
  induction groups with
  | nil => exact ⟨0, by decide, rfl⟩
  | cons ds groups ih =>
    obtain ⟨hds, hgroups⟩ := List.forall_mem_cons.mp h
    rcases groups with _ | ⟨es, groups⟩
    · have hpos : ∀ n ∈ chunkSizes, 0 < n := by decide
      have hsize := hpos _ hds.size
      refine ⟨8 - ds.length, by omega, ?_⟩
      rw [List.flatMap_singleton, List.flatten_singleton, chunkText]
    · obtain ⟨k, hk, htext⟩ := ih hgroups fun fs hfs ↦ hfull fs (List.mem_cons_of_mem ds hfs)
      refine ⟨k, hk, ?_⟩
      rw [List.flatMap_cons, htext, chunkText, hfull ds List.mem_cons_self, Nat.sub_self,
        List.replicate_zero, List.append_nil, ← List.append_assoc, ← List.map_append]
      rfl

/-- A canonical text is completed when its padding was taken off. -/
theorem padToChunk_takeWhile {text : List UInt8} (h : CanonicalText text) :
    padToChunk (text.takeWhile (· != pad)) = text := by
  obtain ⟨groups, hgroups, hfull, rfl⟩ := h
  have hchunks : ∀ ds ∈ groups, IsChunk ds := fun ds hds ↦ (hgroups ds hds).1
  obtain ⟨k, hk, htext⟩ := flatMap_chunkText_eq hchunks hfull
  have hlength := length_flatMap_chunkText hchunks
  rw [htext, List.length_append, List.length_replicate] at hlength
  have hchars : ∀ c ∈ groups.flatten.map b32Char, (c != pad) = true := by
    rw [List.forall_mem_map]
    intro d hd
    obtain ⟨ds, hds, hd⟩ := List.mem_flatten.mp hd
    exact bne_iff_ne.mpr (b32Char_ne_pad ((hchunks ds hds).digits d hd))
  have hpad : (List.replicate k pad).takeWhile (· != pad) = [] := by
    cases k <;> simp [List.replicate_succ]
  rw [htext, List.takeWhile_append_of_pos hchars, hpad, List.append_nil, padToChunk_eq]
  congr 2
  omega

/-! ## The round trip -/

/-- What is written is read, and canonical. -/
theorem fromBase32_of_toBase32 {bs text : List UInt8} (h : toBase32 bs = .ok text) :
    fromBase32 text = .ok bs ∧ CanonicalText text := by
  rw [toBase32_eq] at h
  obtain rfl := Except.ok.inj h
  refine ⟨fromBase32_ok_iff.mpr ⟨(parts 5 bs).map chunkDigits, ?_, ?_, ?_⟩, canonicalText_parts bs⟩
  · rw [List.forall_mem_map]
    intro b hb
    obtain ⟨hpos, hle⟩ := length_of_mem_parts (by decide) hb
    exact isChunk_chunkDigits hpos hle
  · exact (List.flatMap_map ..).symm
  · conv_lhs => rw [← flatten_parts (n := 5) (by decide) bs]
    rw [List.flatMap_map, ← List.flatMap_id]
    refine List.flatMap_congr fun b hb ↦ ?_
    exact (chunkBytes_chunkDigits (length_of_mem_parts (by decide) hb).2).symm

/-- What is written needs no padding, and consists of the alphabet and the padding character. -/
theorem fromUnpaddedBase32_of_toBase32 {bs text : List UInt8} (h : toBase32 bs = .ok text) :
    fromUnpaddedBase32 text = .ok bs ∧ ∀ c ∈ text, c = pad ∨ ∃ d < 2 ^ 5, c = b32Char d := by
  obtain ⟨hread, groups, hgroups, -, rfl⟩ := fromBase32_of_toBase32 h
  have hchunks : ∀ ds ∈ groups, IsChunk ds := fun ds hds ↦ (hgroups ds hds).1
  constructor
  · rw [fromUnpaddedBase32, padToChunk, if_pos, hread]
    rw [length_flatMap_chunkText hchunks, Nat.mul_mod_left]
  · intro c hc
    obtain ⟨ds, hds, hc⟩ := List.mem_flatMap.mp hc
    rcases List.mem_append.mp hc with hc | hc
    · obtain ⟨d, hd, rfl⟩ := List.mem_map.mp hc
      exact .inr ⟨d, (hchunks ds hds).digits d hd, rfl⟩
    · exact .inl (List.eq_of_mem_replicate hc)

/-- Every byte string has one text that the encoder writes: of the texts that are read as the byte
string, the canonical one. -/
theorem base32_codec (bs : List UInt8) :
    (∃ text, toBase32 bs = .ok text) ∧
      ∀ text, toBase32 bs = .ok text ↔ fromBase32 text = .ok bs ∧ CanonicalText text := by
  refine ⟨⟨_, toBase32_eq bs⟩, fun text ↦ ⟨fromBase32_of_toBase32, ?_⟩⟩
  rintro ⟨hread, groups, hgroups, hfull, rfl⟩
  have hchunks : ∀ ds ∈ groups, IsChunk ds := fun ds hds ↦ (hgroups ds hds).1
  have hbytes : bs = groups.flatMap chunkBytes := by
    rw [fromBase32_ok_iff.mpr ⟨groups, hchunks, rfl, rfl⟩] at hread
    exact (Except.ok.inj hread).symm
  rw [toBase32_eq, hbytes, parts_flatMap_chunkBytes hchunks hfull, List.flatMap_map]
  refine congrArg Except.ok (List.flatMap_congr fun ds hds ↦ ?_)
  rw [chunkDigits_chunkBytes (hchunks ds hds) (hgroups ds hds).2]

/-- `MZXW6YR=` is read as `foob`, whose text is `MZXW6YQ=`. -/
example : fromBase32 [0x4D, 0x5A, 0x58, 0x57, 0x36, 0x59, 0x52, 0x3D] = .ok [0x66, 0x6F, 0x6F, 0x62] ∧
    toBase32 [0x66, 0x6F, 0x6F, 0x62] = .ok [0x4D, 0x5A, 0x58, 0x57, 0x36, 0x59, 0x51, 0x3D] :=
  ⟨rfl, rfl⟩

/-- An authenticator may be given the text without its padding, and reads the bytes all the same. -/
theorem fromUnpaddedBase32_toBase32 (bs : List UInt8) :
    (do
      let text ← toBase32 bs
      fromUnpaddedBase32 (text.takeWhile (· != pad))) = .ok bs := by
  obtain ⟨hread, hcanonical⟩ := fromBase32_of_toBase32 (toBase32_eq bs)
  rw [toBase32_eq]
  exact (congrArg fromBase32 (padToChunk_takeWhile hcanonical)).trans hread

end OwSec.CppTotp.Bytes
