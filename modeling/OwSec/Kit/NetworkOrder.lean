import Mathlib.Algebra.Group.Nat.Defs
import Mathlib.Data.List.OfFn
import Mathlib.Order.Compare

/-!
# Byte strings in network order

A byte string, most significant byte first, is a list of bits and a number at once.  Two strings of
one length agree on so many leading bits, and the lexicographic order of their bytes is the order of
the numbers.

A host that loads four bytes as a word has an order of its own.  Converting a word between the two
orders moves its bytes and nothing else, so whether words agree under a mask does not depend on the
host, as long as the mask is converted too.
-/

namespace Kit

universe u

/-! ## Shared prefixes -/

/-- The number of leading entries that two lists share. -/
def sharedLength {α : Type u} [DecidableEq α] : List α → List α → ℕ
  | a :: as, b :: bs => if a = b then sharedLength as bs + 1 else 0
  | _, _ => 0

section SharedLength

variable {α : Type u} [DecidableEq α]

/-- Two lists agree on their first entries as far as they share a prefix. -/
theorem take_eq_take_iff_of_le {as bs : List α} {k : ℕ} (has : k ≤ as.length)
    (hbs : k ≤ bs.length) : as.take k = bs.take k ↔ k ≤ sharedLength as bs := by
  induction as generalizing bs k with
  | nil =>
    rw [List.length_nil, Nat.le_zero] at has
    simp [has]
  | cons a as ih =>
    rcases k with _ | k
    · simp
    · rcases bs with _ | ⟨b, bs⟩
      · cases hbs
      · rw [List.take_succ_cons, List.take_succ_cons, List.cons.injEq, sharedLength,
          ih (Nat.le_of_succ_le_succ has) (Nat.le_of_succ_le_succ hbs)]
        by_cases hab : a = b
        · rw [if_pos hab, Nat.succ_le_succ_iff]
          exact and_iff_right hab
        · rw [if_neg hab]
          exact iff_of_false (fun h ↦ hab h.1) (Nat.not_succ_le_zero _)

/-- The same for lists of one length, behind which there is nothing left to disagree. -/
theorem take_eq_take_iff {as bs : List α} (h : as.length = bs.length) (k : ℕ) :
    as.take k = bs.take k ↔ min k as.length ≤ sharedLength as bs := by
  have hmin : min k as.length ≤ bs.length := (min_le_right k as.length).trans h.le
  rw [← take_eq_take_iff_of_le (min_le_right k as.length) hmin]
  rcases le_total k as.length with hk | hk
  · rw [min_eq_left hk]
  · rw [min_eq_right hk, List.take_of_length_le hk, List.take_of_length_le (h.ge.trans hk),
      List.take_length, List.take_of_length_le h.ge]

end SharedLength

/-- Lists that agree so far agree further on as the rests do. -/
theorem take_add_eq_take_add_iff {α : Type u} {as bs : List α} {m : ℕ}
    (h : as.take m = bs.take m) (k : ℕ) :
    as.take (m + k) = bs.take (m + k) ↔ (as.drop m).take k = (bs.drop m).take k := by
  rw [List.take_add, List.take_add, h, List.append_right_inj]

/-! ## Bits -/

/-- The bits of a word, most significant bit first. -/
def bitsOf {n : ℕ} (x : BitVec n) : List Bool := List.ofFn fun i : Fin n ↦ x.getMsbD i

@[simp] theorem length_bitsOf {n : ℕ} (x : BitVec n) : (bitsOf x).length = n := List.length_ofFn

theorem bitsOf_append {m n : ℕ} (x : BitVec m) (y : BitVec n) :
    bitsOf (x ++ y) = bitsOf x ++ bitsOf y := by
  rw [bitsOf, List.ofFn_add]
  refine congrArg₂ (· ++ ·) (congrArg List.ofFn ?_) (congrArg List.ofFn ?_)
  · funext i
    simp [BitVec.getMsbD_append]
  · funext i
    simp [BitVec.getMsbD_append]

theorem take_bitsOf_eq_iff {n : ℕ} {x y : BitVec n} {k : ℕ} :
    (bitsOf x).take k = (bitsOf y).take k ↔ ∀ i < k, x.getMsbD i = y.getMsbD i := by
  rw [List.ext_getElem?_iff]
  refine forall_congr' fun i ↦ ?_
  by_cases hk : i < k
  · rw [List.getElem?_take_of_lt hk, List.getElem?_take_of_lt hk]
    by_cases hn : i < n
    · simp [bitsOf, hk, hn]
    · simp [bitsOf, hk, hn, BitVec.getMsbD_of_ge _ _ (Nat.not_lt.mp hn)]
  · simp [hk]

/-- The bits of a byte string. -/
def bits (bytes : List UInt8) : List Bool := bytes.flatMap fun b ↦ bitsOf b.toBitVec

theorem bits_cons (b : UInt8) (bytes : List UInt8) :
    bits (b :: bytes) = bitsOf b.toBitVec ++ bits bytes := rfl

@[simp] theorem length_bits (bytes : List UInt8) : (bits bytes).length = 8 * bytes.length := by
  induction bytes with
  | nil => rfl
  | cons b bytes ih =>
    rw [bits_cons, List.length_append, length_bitsOf, ih, List.length_cons]
    omega

theorem bits_take (bytes : List UInt8) (k : ℕ) : bits (bytes.take k) = (bits bytes).take (8 * k) := by
  induction bytes generalizing k with
  | nil => simp [bits]
  | cons b bytes ih =>
    rcases k with _ | k
    · rfl
    · have hbyte : (bitsOf b.toBitVec).length ≤ 8 * (k + 1) := by
        rw [length_bitsOf]
        omega
      have hrest : 8 * (k + 1) - 8 = 8 * k := by omega
      rw [List.take_succ_cons, bits_cons, bits_cons, ih, List.take_append,
        List.take_of_length_le hbyte, length_bitsOf, hrest]

theorem bits_drop (bytes : List UInt8) (k : ℕ) : bits (bytes.drop k) = (bits bytes).drop (8 * k) := by
  induction bytes generalizing k with
  | nil => simp [bits]
  | cons b bytes ih =>
    rcases k with _ | k
    · rfl
    · have hbyte : (bitsOf b.toBitVec).length ≤ 8 * (k + 1) := by
        rw [length_bitsOf]
        omega
      have hrest : 8 * (k + 1) - 8 = 8 * k := by omega
      rw [List.drop_succ_cons, bits_cons, ih, List.drop_append, List.drop_of_length_le hbyte,
        List.nil_append, length_bitsOf, hrest]

/-- Byte strings with the same bits are equal. -/
theorem bits_injective {as bs : List UInt8} (h : bits as = bits bs) : as = bs := by
  induction as generalizing bs with
  | nil =>
    rcases bs with _ | ⟨b, bs⟩
    · rfl
    · have hlength := congrArg List.length h
      simp at hlength
  | cons a as ih =>
    rcases bs with _ | ⟨b, bs⟩
    · have hlength := congrArg List.length h
      simp at hlength
    · rw [bits_cons, bits_cons] at h
      obtain ⟨hfirst, hrest⟩ := List.append_inj h (by simp)
      have hbyte : a.toBitVec = b.toBitVec := by
        refine BitVec.eq_of_getMsbD_eq fun i hi ↦ ?_
        exact congrFun (List.ofFn_injective hfirst) ⟨i, hi⟩
      rw [ih hrest, UInt8.toBitVec_inj.mp hbyte]

/-! ## Words -/

/-- A word by its bytes, most significant byte first. -/
def wordOf (b₃ b₂ b₁ b₀ : BitVec 8) : BitVec 32 := b₃ ++ b₂ ++ b₁ ++ b₀

/-- A byte of a word, counted from the least significant one. -/
def byteOf (x : BitVec 32) (k : ℕ) : BitVec 8 := x.extractLsb' (8 * k) 8

theorem getLsbD_wordOf (b₃ b₂ b₁ b₀ : BitVec 8) (i : ℕ) :
    (wordOf b₃ b₂ b₁ b₀).getLsbD i =
      if i < 8 then b₀.getLsbD i else if i < 16 then b₁.getLsbD (i - 8)
      else if i < 24 then b₂.getLsbD (i - 16) else b₃.getLsbD (i - 24) := by
  rw [wordOf, BitVec.getLsbD_append, BitVec.getLsbD_append, BitVec.getLsbD_append]
  grind

theorem byteOf_wordOf (b₃ b₂ b₁ b₀ : BitVec 8) :
    byteOf (wordOf b₃ b₂ b₁ b₀) 0 = b₀ ∧ byteOf (wordOf b₃ b₂ b₁ b₀) 1 = b₁ ∧
    byteOf (wordOf b₃ b₂ b₁ b₀) 2 = b₂ ∧ byteOf (wordOf b₃ b₂ b₁ b₀) 3 = b₃ := by
  refine ⟨?_, ?_, ?_, ?_⟩ <;>
  · refine BitVec.eq_of_getLsbD_eq fun i hi ↦ ?_
    rw [byteOf, BitVec.getLsbD_extractLsb', getLsbD_wordOf]
    grind

theorem wordOf_byteOf (x : BitVec 32) :
    wordOf (byteOf x 3) (byteOf x 2) (byteOf x 1) (byteOf x 0) = x := by
  refine BitVec.eq_of_getLsbD_eq fun i hi ↦ ?_
  simp only [getLsbD_wordOf, byteOf, BitVec.getLsbD_extractLsb']
  grind

theorem wordOf_xor (a₃ a₂ a₁ a₀ b₃ b₂ b₁ b₀ : BitVec 8) :
    wordOf a₃ a₂ a₁ a₀ ^^^ wordOf b₃ b₂ b₁ b₀ =
      wordOf (a₃ ^^^ b₃) (a₂ ^^^ b₂) (a₁ ^^^ b₁) (a₀ ^^^ b₀) := by
  refine BitVec.eq_of_getLsbD_eq fun i hi ↦ ?_
  simp only [BitVec.getLsbD_xor, getLsbD_wordOf]
  split_ifs <;> rfl

theorem wordOf_and (a₃ a₂ a₁ a₀ b₃ b₂ b₁ b₀ : BitVec 8) :
    wordOf a₃ a₂ a₁ a₀ &&& wordOf b₃ b₂ b₁ b₀ =
      wordOf (a₃ &&& b₃) (a₂ &&& b₂) (a₁ &&& b₁) (a₀ &&& b₀) := by
  refine BitVec.eq_of_getLsbD_eq fun i hi ↦ ?_
  simp only [BitVec.getLsbD_and, getLsbD_wordOf]
  split_ifs <;> rfl

/-- The order in which a host keeps the bytes of a word. -/
inductive ByteOrder
  | little
  | big
  deriving DecidableEq, Repr

/-- Four bytes as a number in network order. -/
def networkWord (b₀ b₁ b₂ b₃ : UInt8) : BitVec 32 :=
  wordOf b₀.toBitVec b₁.toBitVec b₂.toBitVec b₃.toBitVec

theorem bitsOf_networkWord (b₀ b₁ b₂ b₃ : UInt8) :
    bitsOf (networkWord b₀ b₁ b₂ b₃) = bits [b₀, b₁, b₂, b₃] := by
  rw [networkWord, wordOf, bitsOf_append, bitsOf_append, bitsOf_append]
  simp [bits]

namespace ByteOrder

variable (o : ByteOrder)

/-- Four bytes as the host loads them. -/
def load (b₀ b₁ b₂ b₃ : UInt8) : BitVec 32 :=
  match o with
  | .little => wordOf b₃.toBitVec b₂.toBitVec b₁.toBitVec b₀.toBitVec
  | .big => wordOf b₀.toBitVec b₁.toBitVec b₂.toBitVec b₃.toBitVec

/-- From the order of the host to the order of the network. -/
def htonl (x : BitVec 32) : BitVec 32 :=
  match o with
  | .little => wordOf (byteOf x 0) (byteOf x 1) (byteOf x 2) (byteOf x 3)
  | .big => x

theorem htonl_networkWord (b₀ b₁ b₂ b₃ : UInt8) :
    o.htonl (networkWord b₀ b₁ b₂ b₃) = o.load b₀ b₁ b₂ b₃ := by
  cases o with
  | little =>
    obtain ⟨h₀, h₁, h₂, h₃⟩ := byteOf_wordOf b₀.toBitVec b₁.toBitVec b₂.toBitVec b₃.toBitVec
    rw [htonl, networkWord, h₀, h₁, h₂, h₃, load]
  | big => rfl

theorem htonl_xor (x y : BitVec 32) : o.htonl (x ^^^ y) = o.htonl x ^^^ o.htonl y := by
  cases o with
  | little => simp only [htonl, byteOf, BitVec.extractLsb'_xor, wordOf_xor]
  | big => rfl

theorem htonl_and (x y : BitVec 32) : o.htonl (x &&& y) = o.htonl x &&& o.htonl y := by
  cases o with
  | little => simp only [htonl, byteOf, BitVec.extractLsb'_and, wordOf_and]
  | big => rfl

theorem htonl_htonl (x : BitVec 32) : o.htonl (o.htonl x) = x := by
  cases o with
  | little =>
    obtain ⟨h₀, h₁, h₂, h₃⟩ := byteOf_wordOf (byteOf x 0) (byteOf x 1) (byteOf x 2) (byteOf x 3)
    rw [htonl, htonl, h₀, h₁, h₂, h₃, wordOf_byteOf]
  | big => rfl

theorem htonl_eq_zero_iff {x : BitVec 32} : o.htonl x = 0 ↔ x = 0 := by
  have hzero : o.htonl 0 = 0 := by cases o <;> decide
  constructor
  · intro h
    rw [← o.htonl_htonl x, h, hzero]
  · rintro rfl
    exact hzero

end ByteOrder

/-- The mask of the leading bits of a word. -/
def prefixMask (k : ℕ) : BitVec 32 := BitVec.allOnes 32 <<< (32 - k)

/-- Words that agree under a mask of leading bits agree on these bits. -/
theorem xor_and_prefixMask_eq_zero_iff {x y : BitVec 32} {k : ℕ} (hk : k ≤ 32) :
    (x ^^^ y) &&& prefixMask k = 0 ↔ (bitsOf x).take k = (bitsOf y).take k := by
  have hmask (i : ℕ) (hi : i < k) : (prefixMask k).getMsbD i = true := by
    rw [prefixMask, BitVec.getMsbD_shiftLeft, BitVec.getMsbD_allOnes]
    simp only [decide_eq_true_eq]
    omega
  have hrest (i : ℕ) (hi : ¬ i < k) : (prefixMask k).getMsbD i = false := by
    rw [prefixMask, BitVec.getMsbD_shiftLeft, BitVec.getMsbD_allOnes]
    simp only [decide_eq_false_iff_not]
    omega
  rw [take_bitsOf_eq_iff]
  constructor
  · intro h i hi
    have hbit := congrArg (fun z : BitVec 32 ↦ z.getMsbD i) h
    simpa [hmask i hi] using hbit
  · intro h
    refine BitVec.eq_of_getMsbD_eq fun i hi ↦ ?_
    by_cases hik : i < k
    · simp [h i hik]
    · simp [hrest i hik]

/-- The same with words as a host loads them, under the converted mask. -/
theorem load_xor_and_htonl_eq_zero_iff (o : ByteOrder) {k : ℕ} (hk : k ≤ 32)
    (a₀ a₁ a₂ a₃ b₀ b₁ b₂ b₃ : UInt8) :
    (o.load a₀ a₁ a₂ a₃ ^^^ o.load b₀ b₁ b₂ b₃) &&& o.htonl (prefixMask k) = 0 ↔
      (bits [a₀, a₁, a₂, a₃]).take k = (bits [b₀, b₁, b₂, b₃]).take k := by
  rw [← o.htonl_networkWord, ← o.htonl_networkWord, ← o.htonl_xor, ← o.htonl_and,
    o.htonl_eq_zero_iff, xor_and_prefixMask_eq_zero_iff hk, bitsOf_networkWord, bitsOf_networkWord]

/-! ## Numbers -/

/-- A byte string as a number. -/
def bigEndian : List UInt8 → ℕ
  | [] => 0
  | b :: bytes => b.toNat * 256 ^ bytes.length + bigEndian bytes

theorem bigEndian_lt (bytes : List UInt8) : bigEndian bytes < 256 ^ bytes.length := by
  induction bytes with
  | nil => exact Nat.one_pos
  | cons b bytes ih =>
    have hb : b.toNat + 1 ≤ 256 := b.toNat_lt
    calc b.toNat * 256 ^ bytes.length + bigEndian bytes
        < b.toNat * 256 ^ bytes.length + 256 ^ bytes.length := Nat.add_lt_add_left ih _
      _ = (b.toNat + 1) * 256 ^ bytes.length := by rw [Nat.add_mul, Nat.one_mul]
      _ ≤ 256 * 256 ^ bytes.length := Nat.mul_le_mul_right _ hb
      _ = 256 ^ (b :: bytes).length := by rw [List.length_cons, Nat.pow_succ, Nat.mul_comm]

/-- The lexicographic order of byte strings. -/
def memcmp : List UInt8 → List UInt8 → Ordering
  | a :: as, b :: bs => (compare a.toNat b.toNat).then (memcmp as bs)
  | _, _ => .eq

theorem compare_add_left (n a b : ℕ) : compare (n + a) (n + b) = compare a b := by
  rcases lt_trichotomy a b with hlt | rfl | hgt
  · rw [compare_lt_iff_lt.mpr hlt, compare_lt_iff_lt]
    exact Nat.add_lt_add_left hlt n
  · rw [compare_eq_iff_eq.mpr rfl, compare_eq_iff_eq.mpr rfl]
  · rw [compare_gt_iff_gt.mpr hgt, compare_gt_iff_gt]
    exact Nat.add_lt_add_left hgt n

/-- Byte strings of one length are compared as the numbers that they are. -/
theorem memcmp_eq_compare {as bs : List UInt8} (h : as.length = bs.length) :
    memcmp as bs = compare (bigEndian as) (bigEndian bs) := by
  induction as generalizing bs with
  | nil =>
    rw [List.length_nil] at h
    rw [List.length_eq_zero_iff.mp h.symm]
    rfl
  | cons a as ih =>
    rcases bs with _ | ⟨b, bs⟩
    · cases h
    · have hlength : as.length = bs.length := Nat.succ.inj h
      have has := bigEndian_lt as
      have hbs := bigEndian_lt bs
      rw [memcmp, ih hlength, bigEndian, bigEndian, hlength]
      rw [hlength] at has
      rcases lt_trichotomy a.toNat b.toNat with hlt | heq | hgt
      · have hnum : (a.toNat + 1) * 256 ^ bs.length ≤ b.toNat * 256 ^ bs.length :=
          Nat.mul_le_mul_right _ hlt
        rw [Nat.add_mul, Nat.one_mul] at hnum
        rw [compare_lt_iff_lt.mpr hlt, Ordering.lt_then, eq_comm, compare_lt_iff_lt]
        omega
      · rw [heq, compare_eq_iff_eq.mpr rfl, Ordering.eq_then, compare_add_left]
      · have hnum : (b.toNat + 1) * 256 ^ bs.length ≤ a.toNat * 256 ^ bs.length :=
          Nat.mul_le_mul_right _ hgt
        rw [Nat.add_mul, Nat.one_mul] at hnum
        rw [compare_gt_iff_gt.mpr hgt, Ordering.gt_then, eq_comm, compare_gt_iff_gt]
        omega

end Kit
