import OwSec.Framework.Numerals
import OwSec.Kit.NetworkOrder

/-!
# Ranges of addresses

`framework/CIDR.h`: a range is a single address, a list of addresses, a network with the length of
its prefix, or two bounds.  `ValidateRange` says which texts are ranges, `IpInRange` whether an
address is in one.  The two read the text on their own.

An address is the bytes that the library keeps for it, in network order.  What the code does beside
the bytes of an address, or with a shift that the language does not define, is a fault, as is an
exception.  Reading and comparing addresses is left to the library.
-/

namespace OwSec

open Kit

namespace CIDR

/-- `IPAddress::Family`. -/
inductive Family
  | IPv4
  | IPv6
  deriving DecidableEq, Repr

/-- The bytes of an address. -/
def Family.size : Family → ℕ
  | .IPv4 => 4
  | .IPv6 => 16

/-- `Poco::Net::IPAddress`. -/
structure IPAddress where
  family : Family
  /-- `addr()`. -/
  addr : List UInt8
  scope : ℕ := 0
  length_addr : addr.length = family.size
  scope_eq : family = .IPv4 → scope = 0
  deriving DecidableEq

/-- An address as a number. -/
def IPAddress.number (a : IPAddress) : ℕ := bigEndian a.addr

/-- What the library does with addresses. -/
structure Library where
  /-- `IPAddress::parse` and `IPAddress::tryParse`, which differ in how they fail. -/
  parse : String → Option IPAddress
  /-- `IPAddress::operator <=`, and `>=` the other way. -/
  le : IPAddress → IPAddress → Bool

/-- What the code relies on. -/
structure Library.Lawful (l : Library) : Prop where
  /-- White space around an address is allowed, at least where it is allowed on one side. -/
  trim : ∀ s a, l.parse s = some a → l.parse (trim s) = some a
  /-- Addresses of one family are ordered by their bytes. -/
  le_iff : ∀ a b : IPAddress, a.family = b.family → a.scope = b.scope →
    (l.le a b = true ↔ a.number ≤ b.number)
  /-- The shorter addresses come first. -/
  le_of_family : ∀ a b : IPAddress, a.family = .IPv4 → b.family = .IPv6 → l.le a b = true

/-! ## The code -/

/-- Where the code does not return. -/
inductive Fault
  | exception
  | outOfBounds
  | shift
  deriving DecidableEq, Repr

/-- A word of an address, as the host loads it. -/
def wordAt (o : ByteOrder) (memory : List UInt8) (i : ℕ) : Except Fault (BitVec 32) :=
  match memory.drop (4 * i) with
  | b₀ :: b₁ :: b₂ :: b₃ :: _ => .ok (o.load b₀ b₁ b₂ b₃)
  | _ => .error .outOfBounds

/-- `0xFFFFFFFFu << (32 - bits)`. -/
def leadingMask (bits : ℕ) : Except Fault (BitVec 32) :=
  if 0 < bits ∧ bits ≤ 32 then .ok (prefixMask bits) else .error .shift

/-- `memcmp(a, n, size) == 0`. -/
def sameBytes (a n : List UInt8) (size : ℕ) : Except Fault Bool :=
  if size ≤ a.length ∧ size ≤ n.length then .ok (a.take size == n.take size)
  else .error .outOfBounds

/-- `!((a ^ n) & htonl(0xFFFFFFFFu << (32 - bits)))` for a word of two addresses. -/
def sameBits (o : ByteOrder) (a n : List UInt8) (i bits : ℕ) : Except Fault Bool := do
  let x ← wordAt o a i
  let y ← wordAt o n i
  let mask ← leadingMask bits
  return (x ^^^ y) &&& o.htonl mask == 0

/-- `cidr_match`. -/
def cidrMatch (o : ByteOrder) (addr net : List UInt8) (bits : ℕ) : Except Fault Bool :=
  if bits = 0 then .ok true else sameBits o addr net 0 bits

/-- `cidr6_match`. -/
def cidr6Match (o : ByteOrder) (address network : List UInt8) (bits : ℕ) : Except Fault Bool := do
  let bitsWhole := bits / 32
  let bitsIncomplete := bits % 32
  let same ← if bitsWhole = 0 then .ok true else sameBytes address network (4 * bitsWhole)
  if same = false then return false
  if bitsIncomplete = 0 then return true
  sameBits o address network bitsWhole bitsIncomplete

section Code

variable (o : ByteOrder) (l : Library)

/-- `CidrIPinRange`; the length of the prefix becomes a `uint8_t`. -/
def cidrIPinRange (ip : IPAddress) (range : String) : Except Fault Bool :=
  let tokens := (tokenize '/' range).map trim
  match tokens with
  | [] => .error .exception
  | first :: others =>
    match l.parse first, others with
    | some rangeIP, [length] =>
      match strtol length with
      | some maskLength =>
        let bits := (maskLength % 256).toNat
        match rangeIP.family with
        | .IPv4 => cidrMatch o rangeIP.addr ip.addr bits
        | .IPv6 => cidr6Match o rangeIP.addr ip.addr bits
      | none => .ok false
    | _, _ => .ok false

/-- The family of an address that was to be read, or of the one that `IPAddress()` makes. -/
def familyOr (a : Option IPAddress) : Family := (a.map IPAddress.family).getD .IPv4

/-- `ValidateRange`. -/
def validateRange (r : String) : Bool :=
  match tokenize '-' r with
  | [first, second] =>
    let a := l.parse first
    -- the right side of the conjunction is reached only where the first bound is no address
    let b := if a.isSome then none else l.parse second
    if a.isNone && b.isSome then false else familyOr a == familyOr b
  | _ =>
    match tokenize ',' r with
    | first :: second :: others =>
      (first :: second :: others).all fun a ↦ (l.parse a).isSome
    | _ =>
      match tokenize '/' r with
      | [net, length] => (l.parse net).isSome && atoi length != 0
      | _ => (l.parse r).isSome

/-- `std::any_of` over the elements of a list of addresses. -/
def anyEqual (target : IPAddress) : List String → Except Fault Bool
  | [] => .ok false
  | element :: elements =>
    match l.parse element with
    | none => .error .exception
    | some a => if a = target then .ok true else anyEqual target elements

/-- `IpInRange`. -/
def ipInRange (target : IPAddress) (r : String) : Except Fault Bool :=
  match tokenize '-' r with
  | [first, second] =>
    match l.parse first, l.parse second with
    | some a, some b =>
      if target.family ≠ a.family then .ok false else .ok (l.le a target && l.le target b)
    | _, _ => .error .exception
  | _ =>
    match tokenize ',' r with
    | first :: second :: others => anyEqual l target (first :: second :: others)
    | _ =>
      match tokenize '/' r with
      | [_, _] => cidrIPinRange o l target r
      | _ =>
        match l.parse r with
        | some a => .ok (a = target)
        | none => .error .exception

/-- `std::any_of` over ranges. -/
def anyContains (target : IPAddress) : List String → Except Fault Bool
  | [] => .ok false
  | r :: rs =>
    match ipInRange o l target r with
    | .ok false => anyContains target rs
    | outcome => outcome

/-- `IpInRanges`. -/
def ipInRanges (ip : String) (rs : List String) : Except Fault Bool :=
  match l.parse ip with
  | none => .ok false
  | some target => anyContains o l target rs

/-- `ValidateIpRanges`. -/
def validateIpRanges (rs : List String) : Bool := rs.all (validateRange l)

end Code

/-! ## What ranges denote -/

/-- A set of addresses. -/
inductive Range
  | between (a b : IPAddress)
  | oneOf (as : List IPAddress)
  | prefixed (net : IPAddress) (length : ℤ)

/-- The addresses of a range; a length beyond the address, or below zero, is all of it or nothing
of it. -/
def Range.Contains (target : IPAddress) : Range → Prop
  | .between a b =>
    target.family = a.family ∧ target.family = b.family ∧
      a.number ≤ target.number ∧ target.number ≤ b.number
  | .oneOf as => target ∈ as
  | .prefixed net length =>
    target.family = net.family ∧
      (bits net.addr).take length.toNat = (bits target.addr).take length.toNat

/-- The addresses that all texts of a list are. -/
def parseAll (l : Library) : List String → Option (List IPAddress)
  | [] => some []
  | s :: ss => do return (← l.parse s) :: (← parseAll l ss)

/-- The range that a text stands for. -/
def rangeOf (l : Library) (r : String) : Option Range :=
  match tokenize '-' r with
  | [first, second] => do return .between (← l.parse first) (← l.parse second)
  | _ =>
    match tokenize ',' r with
    | first :: second :: others => (parseAll l (first :: second :: others)).map .oneOf
    | _ =>
      match tokenize '/' r with
      | [net, length] => do return .prefixed (← l.parse net) (← strtol length)
      | _ => (l.parse r).map fun a ↦ .oneOf [a]

/-- The code returns, and answers a question. -/
def Answers (outcome : Except Fault Bool) (question : Prop) : Prop :=
  ∃ answer, outcome = .ok answer ∧ (answer = true ↔ question)

/-- The code answers whether an address is in the range that a text stands for. -/
def Right (o : ByteOrder) (l : Library) (target : IPAddress) (r : String) : Prop :=
  Answers (ipInRange o l target r) (∃ range, rangeOf l r = some range ∧ range.Contains target)

/-- The leading bits that a network and an address share. -/
def sharedBits (net target : IPAddress) : ℕ := sharedLength (bits net.addr) (bits target.addr)

/-- Where the code is right about a network.  It works with the length of the prefix as a byte,
whatever the families are. -/
def PrefixSound (net target : IPAddress) (length : ℤ) : Prop :=
  let maskLength := (length % 256).toNat
  let shared := sharedBits net target
  match net.family, target.family with
  | .IPv4, .IPv4 => maskLength ≤ 32 ∧ (maskLength ≤ shared ↔ min length.toNat 32 ≤ shared)
  | .IPv6, .IPv6 =>
    (maskLength ≤ 128 ∨ maskLength < 160 ∧ shared < 128) ∧
      (maskLength ≤ shared ↔ min length.toNat 128 ≤ shared)
  | .IPv4, .IPv6 => shared < maskLength ∧ maskLength ≤ 32
  | .IPv6, .IPv4 => shared < maskLength ∧ (maskLength ≤ 32 ∨ maskLength < 64 ∧ shared < 32)

/-- Where the code is right about a range. -/
def Range.Sound (target : IPAddress) : Range → Prop
  | .between a b => b.family = .IPv4 ∨ target.family = .IPv6 ∨ ¬ a.number ≤ target.number
  | .oneOf _ => True
  | .prefixed net length => PrefixSound net target length

/-! ## Networks -/

section Networks

variable {o : ByteOrder} {a n : List UInt8} {i k : ℕ}

theorem wordAt_of_le (h : 4 * i + 4 ≤ a.length) :
    ∃ b₀ b₁ b₂ b₃, (a.drop (4 * i)).take 4 = [b₀, b₁, b₂, b₃] ∧
      wordAt o a i = .ok (o.load b₀ b₁ b₂ b₃) := by
  have hlength : 4 ≤ (a.drop (4 * i)).length := by
    rw [List.length_drop]
    omega
  rcases hdrop : a.drop (4 * i) with _ | ⟨b₀, _ | ⟨b₁, _ | ⟨b₂, _ | ⟨b₃, rest⟩⟩⟩⟩
  · simp [hdrop] at hlength
  · simp [hdrop] at hlength
  · simp [hdrop] at hlength
  · simp [hdrop] at hlength
  · exact ⟨b₀, b₁, b₂, b₃, rfl, by simp only [wordAt, hdrop]⟩

theorem wordAt_of_lt (h : a.length < 4 * i + 4) : wordAt o a i = .error .outOfBounds := by
  have hlength : (a.drop (4 * i)).length < 4 := by
    rw [List.length_drop]
    omega
  unfold wordAt
  split
  · rename_i hdrop
    rw [hdrop] at hlength
    simp only [List.length_cons] at hlength
    omega
  · rfl

/-- The bits of a word, among those of the address. -/
theorem take_bits_word (hk : k ≤ 32) :
    (bits ((a.drop (4 * i)).take 4)).take k = ((bits a).drop (32 * i)).take k := by
  rw [bits_take, bits_drop, List.take_take, min_eq_left (by omega)]
  congr 2
  omega

/-- A word of both addresses extends what they share. -/
theorem sameBits_of_le (ha : 4 * i + 4 ≤ a.length) (hn : 4 * i + 4 ≤ n.length) (hk : 0 < k)
    (hk' : k ≤ 32) (hshared : 32 * i ≤ sharedLength (bits a) (bits n)) :
    sameBits o a n i k = .ok (decide (32 * i + k ≤ sharedLength (bits a) (bits n))) := by
  have hbits {m : ℕ} (hm : m ≤ 32 * i + k) : m ≤ (bits a).length ∧ m ≤ (bits n).length := by
    rw [length_bits, length_bits]
    omega
  obtain ⟨a₀, a₁, a₂, a₃, hwordA, hloadA⟩ := wordAt_of_le (o := o) ha
  obtain ⟨n₀, n₁, n₂, n₃, hwordN, hloadN⟩ := wordAt_of_le (o := o) hn
  have hprefix := (take_eq_take_iff_of_le (hbits (Nat.le_add_right _ k)).1
    (hbits (Nat.le_add_right _ k)).2).mpr hshared
  have hiff := load_xor_and_htonl_eq_zero_iff o hk' a₀ a₁ a₂ a₃ n₀ n₁ n₂ n₃
  rw [← hwordA, ← hwordN, take_bits_word hk', take_bits_word hk',
    ← take_add_eq_take_add_iff hprefix, take_eq_take_iff_of_le (hbits le_rfl).1 (hbits le_rfl).2]
    at hiff
  simp only [sameBits, hloadA, hloadN, leadingMask, if_pos (And.intro hk hk')]
  simp only [bind, Except.bind, pure, Except.pure, beq_eq_decide, hiff]

theorem sameBits_of_lt (h : a.length < 4 * i + 4 ∨ n.length < 4 * i + 4) :
    sameBits o a n i k = .error .outOfBounds := by
  by_cases ha : a.length < 4 * i + 4
  · simp only [sameBits, wordAt_of_lt ha]
    rfl
  · obtain ⟨a₀, a₁, a₂, a₃, -, hload⟩ := wordAt_of_le (o := o) (Nat.not_lt.mp ha)
    simp only [sameBits, hload, wordAt_of_lt (h.resolve_left ha)]
    rfl

theorem sameBits_of_gt (ha : 4 * i + 4 ≤ a.length) (hn : 4 * i + 4 ≤ n.length) (hk : 32 < k) :
    sameBits o a n i k = .error .shift := by
  obtain ⟨a₀, a₁, a₂, a₃, -, hloadA⟩ := wordAt_of_le (o := o) ha
  obtain ⟨n₀, n₁, n₂, n₃, -, hloadN⟩ := wordAt_of_le (o := o) hn
  have hmask : leadingMask k = .error .shift := if_neg fun h ↦ Nat.not_le.mpr hk h.2
  simp only [sameBits, hloadA, hloadN, hmask]
  rfl

/-- A network of the family `IPv4`, whatever the family of the address. -/
theorem cidrMatch_eq (ha : 4 ≤ a.length) (hn : 4 ≤ n.length) :
    cidrMatch o a n k =
      if k ≤ 32 then .ok (decide (k ≤ sharedLength (bits a) (bits n))) else .error .shift := by
  unfold cidrMatch
  rcases Nat.eq_zero_or_pos k with rfl | hpos
  · simp
  · rw [if_neg hpos.ne']
    by_cases hk : k ≤ 32
    · rw [if_pos hk, sameBits_of_le ha hn hpos hk (Nat.zero_le _), Nat.mul_zero, Nat.zero_add]
    · rw [if_neg hk, sameBits_of_gt ha hn (Nat.not_le.mp hk)]

theorem sameBytes_of_le (ha : k ≤ a.length) (hn : k ≤ n.length) :
    sameBytes a n k = .ok (decide (8 * k ≤ sharedLength (bits a) (bits n))) := by
  have hA : 8 * k ≤ (bits a).length := by
    rw [length_bits]
    omega
  have hN : 8 * k ≤ (bits n).length := by
    rw [length_bits]
    omega
  have hbits : a.take k = n.take k ↔ 8 * k ≤ sharedLength (bits a) (bits n) := by
    rw [← take_eq_take_iff_of_le hA hN, ← bits_take, ← bits_take]
    exact ⟨congrArg bits, bits_injective⟩
  rw [sameBytes, if_pos ⟨ha, hn⟩, beq_eq_decide]
  simp only [hbits]

theorem sameBytes_of_lt (h : a.length < k ∨ n.length < k) :
    sameBytes a n k = .error .outOfBounds :=
  if_neg fun hle ↦ h.elim (Nat.not_lt.mpr hle.1) (Nat.not_lt.mpr hle.2)

/-- The whole words are compared as bytes, the rest as a word. -/
theorem cidr6Match_of_le (ha : 4 * (k / 32) ≤ a.length) (hn : 4 * (k / 32) ≤ n.length) :
    cidr6Match o a n k =
      if 32 * (k / 32) ≤ sharedLength (bits a) (bits n) then
        if k % 32 = 0 then .ok true else sameBits o a n (k / 32) (k % 32)
      else .ok false := by
  have hbytes := sameBytes_of_le ha hn
  rw [← Nat.mul_assoc] at hbytes
  unfold cidr6Match
  by_cases hwhole : k / 32 = 0
  · simp [hwhole, bind, Except.bind, pure, Except.pure]
  · simp only [if_neg hwhole, hbytes, bind, Except.bind, pure, Except.pure]
    by_cases hshared : 32 * (k / 32) ≤ sharedLength (bits a) (bits n)
    · simp [hshared]
    · simp [hshared]

theorem cidr6Match_of_lt (h : a.length < 4 * (k / 32) ∨ n.length < 4 * (k / 32)) :
    cidr6Match o a n k = .error .outOfBounds := by
  have hwhole : k / 32 ≠ 0 := by
    intro hzero
    rw [hzero] at h
    omega
  simp only [cidr6Match, if_neg hwhole, sameBytes_of_lt h]
  rfl

/-- A network of the family `IPv6`, where the shorter of the two addresses has so many words. -/
theorem cidr6Match_eq {m : ℕ} (ha : 4 * m ≤ a.length) (hn : 4 * m ≤ n.length)
    (hmin : a.length = 4 * m ∨ n.length = 4 * m) :
    cidr6Match o a n k =
      if k ≤ 32 * m then .ok (decide (k ≤ sharedLength (bits a) (bits n)))
      else if k < 32 * m + 32 ∧ sharedLength (bits a) (bits n) < 32 * m then .ok false
      else .error .outOfBounds := by
  have hk := Nat.div_add_mod k 32
  have hmod := Nat.mod_lt k (show 0 < 32 by omega)
  by_cases hle : k / 32 ≤ m
  · rw [cidr6Match_of_le (by omega) (by omega)]
    by_cases hshared : 32 * (k / 32) ≤ sharedLength (bits a) (bits n)
    · rw [if_pos hshared]
      by_cases hrest : k % 32 = 0
      · have hkm : k ≤ 32 * m := by omega
        rw [if_pos hrest, if_pos hkm, decide_eq_true (by omega)]
      · rw [if_neg hrest]
        by_cases hkm : k ≤ 32 * m
        · rw [if_pos hkm, sameBits_of_le (by omega) (by omega) (by omega) hmod.le hshared, hk]
        · have hm : k / 32 = m := by omega
          rw [if_neg hkm, if_neg (by omega), sameBits_of_lt (by omega)]
    · rw [if_neg hshared]
      by_cases hkm : k ≤ 32 * m
      · rw [if_pos hkm, decide_eq_false (by omega)]
      · rw [if_neg hkm, if_pos (by omega)]
  · rw [cidr6Match_of_lt (by omega), if_neg (by omega), if_neg (by omega)]

end Networks

@[simp] theorem answers_ok {answer : Bool} {question : Prop} :
    Answers (.ok answer) question ↔ (answer = true ↔ question) := by
  simp [Answers]

@[simp] theorem not_answers_error {fault : Fault} {question : Prop} :
    ¬ Answers (.error fault) question := by
  simp [Answers]

section Prefixes

variable {net target : IPAddress} {length : ℤ}

theorem length_bits_addr {family : Family} (h : net.family = family) :
    (bits net.addr).length = 8 * family.size := by
  rw [length_bits, net.length_addr, h]

/-- The prefix of a network of the family of the address. -/
theorem contains_prefixed_iff {family : Family} (hnet : net.family = family)
    (htarget : target.family = family) :
    (Range.prefixed net length).Contains target ↔
      min length.toNat (8 * family.size) ≤ sharedBits net target := by
  have hlength : (bits net.addr).length = (bits target.addr).length := by
    rw [length_bits_addr hnet, length_bits_addr htarget]
  rw [Range.Contains, take_eq_take_iff hlength, length_bits_addr hnet]
  exact and_iff_right (htarget.trans hnet.symm)

theorem not_contains_prefixed (h : target.family ≠ net.family) :
    ¬ (Range.prefixed net length).Contains target := fun hmem ↦ h hmem.1

/-- Both functions on a network and an address, in all four combinations of the families. -/
theorem answers_network_iff (o : ByteOrder) :
    Answers
      (match net.family with
        | .IPv4 => cidrMatch o net.addr target.addr (length % 256).toNat
        | .IPv6 => cidr6Match o net.addr target.addr (length % 256).toNat)
      ((Range.prefixed net length).Contains target) ↔ PrefixSound net target length := by
  have hnetLength := net.length_addr
  have htargetLength := target.length_addr
  generalize hbits : (length % 256).toNat = maskLength
  cases hnet : net.family with
  | IPv4 =>
    rw [hnet, Family.size] at hnetLength
    have hread : 4 ≤ target.addr.length := by
      rw [htargetLength]
      cases target.family <;> decide
    simp only [cidrMatch_eq hnetLength.ge hread]
    cases htarget : target.family with
    | IPv4 =>
      simp only [contains_prefixed_iff hnet htarget, PrefixSound, hnet, htarget, hbits, sharedBits,
        Family.size]
      by_cases hmask : maskLength ≤ 32
      · simp [hmask]
      · simp [hmask]
    | IPv6 =>
      have hnot : ¬ (Range.prefixed net length).Contains target :=
        not_contains_prefixed (by rw [hnet, htarget]; decide)
      simp only [hnot, PrefixSound, hnet, htarget, hbits, sharedBits]
      by_cases hmask : maskLength ≤ 32
      · simp [hmask]
      · simp [hmask]
  | IPv6 =>
    rw [hnet, Family.size] at hnetLength
    cases htarget : target.family with
    | IPv4 =>
      rw [htarget, Family.size] at htargetLength
      have hnot : ¬ (Range.prefixed net length).Contains target :=
        not_contains_prefixed (by rw [hnet, htarget]; decide)
      have hrun : cidr6Match o net.addr target.addr maskLength = _ :=
        cidr6Match_eq (m := 1) (by omega) (by omega) (.inr htargetLength)
      rw [← sharedBits] at hrun
      simp only [hrun, hnot, PrefixSound, hnet, htarget, hbits]
      by_cases hmask : maskLength ≤ 32
      · simp [hmask]
      · by_cases hpast : maskLength < 64 ∧ sharedBits net target < 32
        · have hshared : sharedBits net target < maskLength := by omega
          simp [hmask, hpast, hshared]
        · simp [hmask, hpast]
    | IPv6 =>
      rw [htarget, Family.size] at htargetLength
      have hrun : cidr6Match o net.addr target.addr maskLength = _ :=
        cidr6Match_eq (m := 4) (by omega) (by omega) (.inl hnetLength)
      rw [← sharedBits] at hrun
      simp only [hrun, contains_prefixed_iff hnet htarget, PrefixSound, hnet, htarget, hbits,
        Family.size]
      by_cases hmask : maskLength ≤ 128
      · simp [hmask]
      · by_cases hpast : maskLength < 160 ∧ sharedBits net target < 128
        · have hshared : ¬ maskLength ≤ sharedBits net target := by omega
          simp [hmask, hpast, hshared]
        · simp [hmask, hpast]

end Prefixes

/-! ## Texts -/

/-- How a text is taken apart: the separators are looked for in this order. -/
inductive Form
  | bounds (first second : String)
  | list (elements : List String)
  | network (net length : String)
  | single

/-- The form of a text. -/
def formOf (r : String) : Form :=
  match tokenize '-' r with
  | [first, second] => .bounds first second
  | _ =>
    match tokenize ',' r with
    | first :: second :: others => .list (first :: second :: others)
    | _ =>
      match tokenize '/' r with
      | [net, length] => .network net length
      | _ => .single

section Texts

variable {o : ByteOrder} {l : Library} {target : IPAddress} {r : String}

theorem ipInRange_eq :
    ipInRange o l target r =
      match formOf r with
      | .bounds first second =>
        match l.parse first, l.parse second with
        | some a, some b =>
          if target.family ≠ a.family then .ok false else .ok (l.le a target && l.le target b)
        | _, _ => .error .exception
      | .list elements => anyEqual l target elements
      | .network _ _ => cidrIPinRange o l target r
      | .single =>
        match l.parse r with
        | some a => .ok (a = target)
        | none => .error .exception := by
  unfold ipInRange formOf
  split
  · rfl
  · split
    · rfl
    · split
      · rfl
      · rfl

theorem validateRange_eq :
    validateRange l r =
      match formOf r with
      | .bounds first second =>
        let a := l.parse first
        let b := if a.isSome then none else l.parse second
        if a.isNone && b.isSome then false else familyOr a == familyOr b
      | .list elements => elements.all fun a ↦ (l.parse a).isSome
      | .network net length => (l.parse net).isSome && atoi length != 0
      | .single => (l.parse r).isSome := by
  unfold validateRange formOf
  split
  · rfl
  · split
    · rfl
    · split
      · rfl
      · rfl

theorem rangeOf_eq :
    rangeOf l r =
      match formOf r with
      | .bounds first second => do return .between (← l.parse first) (← l.parse second)
      | .list elements => (parseAll l elements).map .oneOf
      | .network net length => do return .prefixed (← l.parse net) (← strtol length)
      | .single => (l.parse r).map fun a ↦ .oneOf [a] := by
  unfold rangeOf formOf
  split
  · rfl
  · split
    · rfl
    · split
      · rfl
      · rfl

theorem tokenize_of_network {net length : String} (h : formOf r = .network net length) :
    tokenize '/' r = [net, length] := by
  unfold formOf at h
  split at h
  · cases h
  · split at h
    · cases h
    · split at h
      · rename_i hslash
        cases h
        exact hslash
      · cases h

/-- The first bound that is accepted is an address of the family `IPv4`, or none at all. -/
theorem bounds_of_validateRange {first second : String} (hform : formOf r = .bounds first second)
    (hacc : validateRange l r = true) :
    (∃ a, l.parse first = some a ∧ a.family = .IPv4) ∨ l.parse first = none := by
  rw [validateRange_eq, hform] at hacc
  rcases hfirst : l.parse first with _ | a
  · exact .inr rfl
  · simp only [hfirst, Option.isSome_some, if_true, Option.isNone_some, Bool.false_and,
      Bool.false_eq_true, if_false, beq_iff_eq] at hacc
    exact .inl ⟨a, rfl, hacc⟩

/-- Bounds of which the first one is of the family `IPv4`. -/
theorem answers_bounds_iff {a b : IPAddress} (hl : l.Lawful) (ha : a.family = .IPv4) :
    Answers
      (if target.family ≠ a.family then .ok false else .ok (l.le a target && l.le target b))
      ((Range.between a b).Contains target) ↔ (Range.between a b).Sound target := by
  by_cases hfamily : target.family = a.family
  · have htarget : target.family = .IPv4 := hfamily.trans ha
    have hlower : l.le a target = true ↔ a.number ≤ target.number :=
      hl.le_iff a target hfamily.symm ((a.scope_eq ha).trans (target.scope_eq htarget).symm)
    rw [if_neg (not_not.mpr hfamily), answers_ok, Bool.and_eq_true, hlower, Range.Contains,
      Range.Sound]
    cases hb : b.family with
    | IPv4 =>
      have hupper : l.le target b = true ↔ target.number ≤ b.number :=
        hl.le_iff target b (htarget.trans hb.symm)
          ((target.scope_eq htarget).trans (b.scope_eq hb).symm)
      simp [hupper, htarget, ha]
    | IPv6 =>
      have hupper : l.le target b = true := hl.le_of_family target b htarget hb
      simp [hupper, htarget]
  · have htarget : target.family = .IPv6 := by
      rw [ha] at hfamily
      cases hcases : target.family with
      | IPv4 => exact absurd hcases hfamily
      | IPv6 => rfl
    rw [if_pos hfamily, answers_ok, Range.Contains, Range.Sound]
    simp [htarget, ha]

theorem parseAll_of_all {elements : List String}
    (h : elements.all (fun a ↦ (l.parse a).isSome) = true) :
    ∃ as, parseAll l elements = some as ∧
      ∀ target, anyEqual l target elements = .ok (decide (target ∈ as)) := by
  induction elements with
  | nil => exact ⟨[], rfl, fun _ ↦ by simp [anyEqual]⟩
  | cons s elements ih =>
    rw [List.all_cons, Bool.and_eq_true] at h
    obtain ⟨a, ha⟩ := Option.isSome_iff_exists.mp h.1
    obtain ⟨as, has, hany⟩ := ih h.2
    refine ⟨a :: as, by simp [parseAll, ha, has], fun target ↦ ?_⟩
    by_cases heq : a = target
    · simp [anyEqual, ha, heq]
    · simp [anyEqual, ha, heq, hany, Ne.symm heq]

theorem strtol_trim (s : String) : strtol (trim s) = strtol s := by
  rw [strtol, numeralOf_trim, strtol]

/-- A number that `atoi` does not take for zero can be read. -/
theorem exists_strtol {s : String} (h : (atoi s != 0) = true) : ∃ n, strtol s = some n := by
  rcases hn : strtol s with _ | n
  · simp [atoi, hn] at h
  · exact ⟨n, rfl⟩

theorem cidrIPinRange_eq (o : ByteOrder) (target : IPAddress) {net length : String} {a : IPAddress}
    {n : ℤ} (hl : l.Lawful) (htokens : tokenize '/' r = [net, length])
    (ha : l.parse net = some a) (hn : strtol length = some n) :
    cidrIPinRange o l target r =
      match a.family with
      | .IPv4 => cidrMatch o a.addr target.addr (n % 256).toNat
      | .IPv6 => cidr6Match o a.addr target.addr (n % 256).toNat := by
  simp only [cidrIPinRange, htokens, List.map_cons, List.map_nil, hl.trim net a ha, strtol_trim, hn]

end Texts

/-- For every range that is accepted, every address of either family and every host. -/
theorem right_iff_sound (o : ByteOrder) {l : Library} (hl : l.Lawful) (target : IPAddress)
    {r : String} (hacc : validateRange l r = true) :
    Right o l target r ↔ ∃ range, rangeOf l r = some range ∧ range.Sound target := by
  unfold Right
  rw [ipInRange_eq, rangeOf_eq]
  cases hform : formOf r with
  | bounds first second =>
    rcases bounds_of_validateRange hform hacc with ⟨a, hfirst, ha⟩ | hfirst
    · rcases hsecond : l.parse second with _ | b
      · simp [hfirst, hsecond]
      · have hbounds : Answers _ _ ↔ (Range.between a b).Sound target := answers_bounds_iff hl ha
        simpa [hfirst, hsecond] using hbounds
    · simp [hfirst]
  | list elements =>
    rw [validateRange_eq, hform] at hacc
    obtain ⟨as, has, hany⟩ := parseAll_of_all hacc
    simp [has, hany, Range.Contains, Range.Sound]
  | network net length =>
    rw [validateRange_eq, hform, Bool.and_eq_true] at hacc
    obtain ⟨a, ha⟩ := Option.isSome_iff_exists.mp hacc.1
    obtain ⟨n, hn⟩ := exists_strtol hacc.2
    have hrun := cidrIPinRange_eq o target hl (tokenize_of_network hform) ha hn
    have hnetwork : Answers _ _ ↔ (Range.prefixed a n).Sound target :=
      answers_network_iff o
    simpa [hrun, ha, hn] using hnetwork
  | single =>
    rw [validateRange_eq, hform] at hacc
    obtain ⟨a, ha⟩ := Option.isSome_iff_exists.mp hacc
    simp [ha, Range.Contains, Range.Sound, eq_comm]

/-- A list of ranges, where the code is right about each of them. -/
theorem answers_ipInRanges (o : ByteOrder) {l : Library} {ip : String} {target : IPAddress}
    (hip : l.parse ip = some target) {rs : List String} (hright : ∀ r ∈ rs, Right o l target r) :
    Answers (ipInRanges o l ip rs)
      (∃ r ∈ rs, ∃ range, rangeOf l r = some range ∧ range.Contains target) := by
  simp only [ipInRanges, hip]
  induction rs with
  | nil => simp [anyContains]
  | cons r rs ih =>
    obtain ⟨answer, hrun, hanswer⟩ := hright r List.mem_cons_self
    simp only [List.exists_mem_cons_iff]
    cases answer with
    | false =>
      have hnot := hanswer.not.mp Bool.false_ne_true
      obtain ⟨answer, hrest, hanswer'⟩ :=
        ih fun r' hr' ↦ hright r' (List.mem_cons_of_mem r hr')
      refine ⟨answer, ?_, hanswer'.trans (or_iff_right hnot).symm⟩
      simp only [anyContains, hrun, hrest]
    | true =>
      refine ⟨true, ?_, iff_of_true rfl (.inl (hanswer.mp rfl))⟩
      simp only [anyContains, hrun]

/-! ## Networks of the other family -/

/-- Four bytes. -/
def IPAddress.v4 (b₀ b₁ b₂ b₃ : UInt8) : IPAddress where
  family := .IPv4
  addr := [b₀, b₁, b₂, b₃]
  length_addr := rfl
  scope_eq _ := rfl

/-- Two bytes, and zeros. -/
def IPAddress.v6 (b₀ b₁ : UInt8) : IPAddress where
  family := .IPv6
  addr := b₀ :: b₁ :: List.replicate 14 0
  length_addr := rfl
  scope_eq h := nomatch h

/-- A few addresses as they are written. -/
def writtenAddresses : List (String × IPAddress) :=
  [("10.0.0.0", .v4 10 0 0 0), ("0.0.0.0", .v4 0 0 0 0), ("a00::", .v6 10 0)]

/-- A library that reads a few addresses. -/
def fewAddresses : Library where
  parse s := (writtenAddresses.find? fun e ↦ e.1 = s).map Prod.snd
  le a b :=
    if a.family = b.family then
      if a.scope = b.scope then memcmp a.addr b.addr != .gt else a.scope ≤ b.scope
    else a.family = .IPv4

theorem lawful_fewAddresses : fewAddresses.Lawful where
  trim s a h := by
    obtain ⟨e, he, rfl⟩ := Option.map_eq_some_iff.mp h
    have hs : e.1 = s := by simpa using List.find?_some he
    have htrim : ∀ e ∈ writtenAddresses, trim e.1 = e.1 := by decide
    rw [← hs, htrim e (List.mem_of_find?_eq_some he), hs]
    exact h
  le_iff a b hfamily hscope := by
    have hlength : a.addr.length = b.addr.length := by
      rw [a.length_addr, b.length_addr, hfamily]
    simp only [fewAddresses, if_pos hfamily, if_pos hscope, bne_iff_ne, memcmp_eq_compare hlength]
    exact compare_le_iff_le
  le_of_family a b ha hb := by
    simp [fewAddresses, ha, hb]

/-- A range of nonsense is accepted and raises an exception; an address of the other family is taken
for one of a network; and a prefix that is longer than the address is read beside it. -/
theorem accepted_ranges_fail :
    (validateRange fewAddresses "x-y" = true ∧
      ipInRange .little fewAddresses (.v4 10 0 0 0) "x-y" = .error .exception) ∧
    (validateRange fewAddresses "a00::/64" = true ∧
      ipInRange .little fewAddresses (.v4 10 0 0 0) "a00::/64" = .error .outOfBounds) ∧
    (validateRange fewAddresses "10.0.0.0/33" = true ∧
      ipInRange .little fewAddresses (.v4 10 0 0 0) "10.0.0.0/33" = .error .shift) ∧
    validateRange fewAddresses "10.0.0.0/8" = true ∧
      ipInRange .little fewAddresses (.v6 10 0) "10.0.0.0/8" = .ok true ∧
      ¬ Right .little fewAddresses (.v6 10 0) "10.0.0.0/8" := by
  have hrun : ipInRange .little fewAddresses (.v6 10 0) "10.0.0.0/8" = .ok true := by decide
  have hrange : rangeOf fewAddresses "10.0.0.0/8" = some (.prefixed (.v4 10 0 0 0) 8) := by
    rfl
  refine ⟨⟨by decide, by decide⟩, ⟨by decide, by decide⟩, ⟨by decide, by decide⟩, by decide, hrun,
    fun hright ↦ ?_⟩
  rw [Right, hrun, answers_ok, hrange] at hright
  obtain ⟨range, heq, hmem⟩ := hright.mp rfl
  cases heq
  exact absurd hmem.1 (by decide)

/-- A network and an address of its family. -/
theorem right_network_iff_sound :
    Right .little fewAddresses (.v4 10 0 0 0) "10.0.0.0/8" ↔
      ∃ range, rangeOf fewAddresses "10.0.0.0/8" = some range ∧ range.Sound (.v4 10 0 0 0) :=
  right_iff_sound .little lawful_fewAddresses _ (by decide)

end CIDR

end OwSec
