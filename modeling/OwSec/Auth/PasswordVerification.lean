import Mathlib.Data.List.TakeWhile
import OwSec.Auth.PasswordHistory

/-!
# Verification and the reuse check

A stored password is verified by taking one entry apart, and a new password is compared with the
whole history at once: each salt of the history with each of its hashes.  The two use different
normal forms of the address as well, one of which keeps white space at its ends.

Here the hash is injective, as SHA-2 is for all purposes, and salts are digits.  Then an entry
verifies the one password it was made of, and the reuse check refuses exactly the passwords that
some entry of the history verifies.
-/

namespace OwSec

open SecurityObjects

/-! ## Addresses -/

/-- White space has small codes. -/
theorem isSpace_of_lt {c : Char} (h : 32 < c.val.toNat) : isSpace c = false := by
  have hne (d : Char) (hd : d.val.toNat ≤ 32) : (c == d) = false := by
    rw [beq_eq_false_iff_ne]
    rintro rfl
    omega
  have hval (n : UInt32) (hn : n.toNat ≤ 32) : (c.val == n) = false := by
    rw [beq_eq_false_iff_ne]
    rintro rfl
    omega
  simp [isSpace, hne ' ', hne '\t', hne '\n', hne '\r', hval 11, hval 12]

/-- Lower-casing leaves white space and makes none. -/
theorem isSpace_toLower (c : Char) : isSpace c.toLower = isSpace c := by
  by_cases h : c.val ≥ 'A'.val ∧ c.val ≤ 'Z'.val
  · have hv : c.toLower.val = c.val + 32 := congrArg Char.val (dif_pos h)
    have hlow : 65 ≤ c.val.toNat := h.1
    have hhigh : c.val.toNat ≤ 90 := h.2
    have hsum : (c.val + 32).toNat = c.val.toNat + 32 := by
      rw [UInt32.toNat_add, show (32 : UInt32).toNat = 32 from rfl]
      omega
    rw [isSpace_of_lt (show 32 < c.toLower.val.toNat by rw [hv, hsum]; omega),
      isSpace_of_lt (by omega)]
  · rw [show c.toLower = c from dif_neg h]

/-- `Poco::trim` on lists of characters. -/
def trimChars (s : List Char) : List Char := ((s.dropWhile isSpace).reverse.dropWhile isSpace).reverse

theorem trimChars_map_toLower (s : List Char) :
    trimChars (s.map Char.toLower) = (trimChars s).map Char.toLower := by
  have hspace : isSpace ∘ Char.toLower = isSpace := funext isSpace_toLower
  unfold trimChars
  rw [List.dropWhile_map, hspace, ← List.map_reverse, List.dropWhile_map, hspace, List.map_reverse]

/-- White space at the ends does not matter. -/
theorem trimChars_append {pre s post : List Char} (hpre : ∀ c ∈ pre, isSpace c)
    (hpost : ∀ c ∈ post, isSpace c) : trimChars (pre ++ s ++ post) = trimChars s := by
  unfold trimChars
  rw [List.append_assoc, List.dropWhile_append_of_pos hpre, List.dropWhile_append]
  split
  · rename_i hempty
    have hs : s.dropWhile isSpace = [] := by simpa using hempty
    have hp : post.dropWhile isSpace = [] := List.dropWhile_eq_nil_iff.mpr hpost
    rw [hs, hp]
  · rw [List.reverse_append,
      List.dropWhile_append_of_pos fun c hc ↦ hpost c (List.mem_reverse.mp hc)]

/-- A text without white space at its ends. -/
def Trimmed (s : String) : Prop := trim s = s

/-- The name is the address in another case, with white space around it. -/
def SameAddress (name email : String) : Prop :=
  ∃ (pre post : List Char) (v : String), (∀ c ∈ pre, isSpace c) ∧ (∀ c ∈ post, isSpace c) ∧
    name = String.ofList (pre ++ v.toList ++ post) ∧ toLower v = toLower email

theorem trim_toLower (s : String) : trim (toLower s) = toLower (trim s) := by
  have h := trimChars_map_toLower s.toList
  unfold trim toLower
  rw [String.toList_ofList, String.toList_ofList]
  exact congrArg String.ofList h

/-- All spellings of an address have one normal form. -/
theorem SameAddress.trim_toLower {name email : String} (h : SameAddress name email) :
    trim (toLower name) = trim (toLower email) := by
  obtain ⟨pre, post, v, hpre, hpost, rfl, hv⟩ := h
  have hspaces {l : List Char} (hl : ∀ c ∈ l, isSpace c) : ∀ c ∈ l.map Char.toLower, isSpace c := by
    intro c hc
    obtain ⟨d, hd, rfl⟩ := List.mem_map.mp hc
    rw [isSpace_toLower]
    exact hl d hd
  rw [← hv]
  unfold trim toLower
  rw [String.toList_ofList, String.toList_ofList, String.toList_ofList, List.map_append,
    List.map_append]
  exact congrArg String.ofList (trimChars_append (hspaces hpre) (hspaces hpost))

/-! ## Reading a hash back -/

/-- What is assumed of SHA-2 in hexadecimal: no two texts have one digest, and no digest has the
separator. -/
structure HashesApart (svc : Service) : Prop where
  injective : Function.Injective svc.sha2Hex
  plain : ∀ s, '|' ∉ (svc.sha2Hex s).toList

/-- A salt: digits, of one length. -/
def IsSalt (length : ℕ) (salt : String) : Prop :=
  salt.length = length ∧ ∀ c ∈ salt.toList, c.isDigit

section Verification

variable {svc : Service}

theorem IsSalt.notMem {length : ℕ} {salt : String} (h : IsSalt length salt) :
    '|' ∉ salt.toList := fun hmem ↦ absurd (h.2 '|' hmem) (by decide)

/-- The tokens of a computed hash. -/
theorem tokenize_computed (h : HashesApart svc) {salt : String} (hsalt : '|' ∉ salt.toList)
    (email password : String) :
    tokenize '|' (computeNewPasswordHash svc salt email password) =
      [salt, svc.sha2Hex (salt ++ password ++ trim (toLower email))] :=
  tokenize_append hsalt (h.plain _)

/-- Between the same ends there is the same text. -/
theorem append_cancel {a b c d : String} : a ++ b ++ d = a ++ c ++ d ↔ b = c := by
  rw [String.append_left_inj, String.append_right_inj]

/-- A computed hash verifies the password it was computed of, under any spelling of the address. -/
theorem validatePasswordHash_computed (h : HashesApart svc) {salt : String}
    (hsalt : '|' ∉ salt.toList) {name email : String}
    (hname : trim (toLower name) = trim (toLower email)) (p q : String) :
    validatePasswordHash svc name q (computeNewPasswordHash svc salt email p) = true ↔ q = p := by
  unfold validatePasswordHash
  rw [tokenize_computed h hsalt]
  simp only [beq_iff_eq, h.injective.eq_iff, hname]
  rw [append_cancel, eq_comm]

/-- What verifies one password verifies no other. -/
theorem validatePasswordHash_unique (h : HashesApart svc) {name stored p : String}
    (hp : validatePasswordHash svc name p stored = true) (q : String) :
    validatePasswordHash svc name q stored = true ↔ q = p := by
  constructor
  · intro hq
    unfold validatePasswordHash at hp hq
    simp only at hp hq
    split at hp
    · rename_i hash htokens
      rw [htokens] at hq
      have hsame := (beq_iff_eq.mp hq).symm.trans (beq_iff_eq.mp hp)
      exact (String.append_left_inj _).mp (h.injective hsame)
    · rename_i salt hash htokens
      rw [htokens] at hq
      have hsame := (beq_iff_eq.mp hq).symm.trans (beq_iff_eq.mp hp)
      exact append_cancel.mp (h.injective hsame)
    · cases hp
  · rintro rfl
    exact hp

/-! ## The reuse check -/

/-- The service made the entry of a password, for this address. -/
def MadeOf (svc : Service) (length : ℕ) (email entry password : String) : Prop :=
  ∃ salt, IsSalt length salt ∧ entry = computeNewPasswordHash svc salt email password

/-- Every entry of the history was made for the address of the record. -/
def MadeHere (svc : Service) (length : ℕ) (user : UserInfo) : Prop :=
  ∀ entry ∈ user.lastPasswords, ∃ password, MadeOf svc length user.email entry password

/-- An entry verifies the password that it was made of. -/
theorem MadeOf.validate_iff (h : HashesApart svc) {length : ℕ} {email entry p : String}
    (hmade : MadeOf svc length email entry p) (q : String) :
    validatePasswordHash svc email q entry = true ↔ q = p := by
  obtain ⟨salt, hsalt, rfl⟩ := hmade
  exact validatePasswordHash_computed h hsalt.notMem rfl p q

/-- Salts of one length keep apart what follows them. -/
theorem salted_inj {length : ℕ} {salt salt' p p' email : String} (hsalt : IsSalt length salt)
    (hsalt' : IsSalt length salt') (h : salt ++ p ++ email = salt' ++ p' ++ email) :
    salt = salt' ∧ p = p' := by
  have hchars : salt.toList ++ p.toList = salt'.toList ++ p'.toList := by
    have hcut := (String.append_left_inj _).mp h
    simpa using congrArg String.toList hcut
  have hlength : salt.toList.length = salt'.toList.length := by
    rw [String.length_toList, String.length_toList, hsalt.1, hsalt'.1]
  obtain ⟨hs, hp⟩ := List.append_inj hchars hlength
  exact ⟨String.toList_inj.mp hs, String.toList_inj.mp hp⟩

/-- What the loop compares for one entry: the salt of the entry, with the hashes of all. -/
theorem reused_iff (h : HashesApart svc) {length : ℕ} {email p salt : String}
    (hsalt : IsSalt length salt) (hemail : trim (toLower email) = toLower email)
    {history : List String}
    (hmade : ∀ entry ∈ history, ∃ password, MadeOf svc length email entry password) :
    (history.any fun j ↦
      match tokenize '|' j with
      | [_, oldHash] => oldHash == svc.sha2Hex (salt ++ p ++ toLower email)
      | _ => false) = true ↔
      computeNewPasswordHash svc salt email p ∈ history := by
  rw [List.any_eq_true]
  constructor
  · rintro ⟨entry, hmem, hhash⟩
    obtain ⟨password, salt', hsalt', rfl⟩ := hmade entry hmem
    rw [tokenize_computed h hsalt'.notMem] at hhash
    have hsame := h.injective (beq_iff_eq.mp hhash)
    rw [hemail] at hsame
    obtain ⟨rfl, rfl⟩ := salted_inj hsalt' hsalt hsame
    exact hmem
  · intro hmem
    refine ⟨_, hmem, ?_⟩
    rw [tokenize_computed h hsalt.notMem, hemail]
    exact beq_self_eq_true _

/-- The loop finds a salt and a hash of the history that belong to the new password exactly when
an entry verifies it: the salt and the hash can only be those of one entry. -/
theorem passwordAlreadyUsed_eq (h : HashesApart svc) {length : ℕ} {email : String}
    (hemail : trim (toLower email) = toLower email) (p : String) {history entries : List String}
    (hsub : ∀ entry ∈ entries, entry ∈ history)
    (hmade : ∀ entry ∈ history, ∃ password, MadeOf svc length email entry password) :
    ∃ used, passwordAlreadyUsed svc history (toLower email) p entries = some used ∧
      (used = true → ∃ entry ∈ history, validatePasswordHash svc email p entry = true) ∧
      (∀ entry ∈ entries, validatePasswordHash svc email p entry = true → used = true) := by
  induction entries with
  | nil => exact ⟨false, rfl, by simp, by simp⟩
  | cons entry rest ih =>
    obtain ⟨used, hused, hfound, hcomplete⟩ :=
      ih fun e he ↦ hsub e (List.mem_cons_of_mem entry he)
    obtain ⟨password, salt, hsalt, rfl⟩ := hmade entry (hsub entry List.mem_cons_self)
    have hreused := reused_iff (p := p) h hsalt hemail hmade
    unfold passwordAlreadyUsed
    rw [tokenize_computed h hsalt.notMem]
    simp only
    split
    · rename_i hyes
      refine ⟨true, rfl, fun _ ↦ ⟨_, hreused.mp hyes, ?_⟩, fun _ _ _ ↦ rfl⟩
      exact (validatePasswordHash_computed h hsalt.notMem rfl p p).mpr rfl
    · rename_i hno
      refine ⟨used, hused, hfound, fun e he hverified ↦ ?_⟩
      rcases List.mem_cons.mp he with rfl | he
      · obtain rfl := (validatePasswordHash_computed h hsalt.notMem rfl password p).mp hverified
        exact absurd (hreused.mpr (hsub _ List.mem_cons_self)) hno
      · exact hcomplete e he hverified

end Verification

/-! ## Setting a password in place -/

/-- `AuthService::SetPassword` on the record that it is given: the answer, and the record that it
leaves behind.  There is no answer where an exception leaves the function, or where it erases the
first of no entries. -/
def setPasswordInPlace (svc : Service) (salt newPassword : String) (user : UserInfo) :
    Option Bool × UserInfo :=
  let user := { user with email := toLower user.email }
  match passwordAlreadyUsed svc user.lastPasswords user.email newPassword user.lastPasswords with
  | none => (none, user)
  | some true => (some false, user)
  | some false =>
    let full := user.lastPasswords.length == svc.howManyOldPassword
    if full && user.lastPasswords.isEmpty then (none, user)
    else
      let history := if full then user.lastPasswords.tail else user.lastPasswords
      let newHash := computeNewPasswordHash svc salt user.email newPassword
      (some true,
        { user with
          lastPasswords := history ++ [newHash]
          currentPassword := newHash
          changePassword := false })

/-- `AuthService::SetSubPassword` has the same body. -/
def setSubPasswordInPlace := setPasswordInPlace

/-- The bound that leaves room for an entry is not met by an empty history. -/
theorem not_erases {svc : Service} (hpos : 1 ≤ svc.howManyOldPassword) (user : UserInfo) :
    ¬ ((user.lastPasswords.length == svc.howManyOldPassword) &&
      user.lastPasswords.isEmpty) = true := by
  rw [Bool.and_eq_true, beq_iff_eq, List.isEmpty_iff]
  rintro ⟨hfull, hnil⟩
  rw [hnil, List.length_nil] at hfull
  omega

/-- What the callers see of it, where the bound leaves room for an entry. -/
theorem setPassword_eq_inPlace {svc : Service} (hpos : 1 ≤ svc.howManyOldPassword)
    (salt newPassword : String) (user : UserInfo) :
    setPassword svc salt newPassword user =
      match setPasswordInPlace svc salt newPassword user with
      | (none, _) => .exception
      | (some false, _) => .refused
      | (some true, user) => .applied user := by
  unfold setPassword setPasswordInPlace
  simp only
  rcases passwordAlreadyUsed svc user.lastPasswords (toLower user.email) newPassword
    user.lastPasswords with _ | _ | _
  · rfl
  · simp only
    rw [if_neg (not_erases hpos user)]
  · rfl

/-- The reuse check of a record agrees with the verification of its entries. -/
structure ReuseLaw (svc : Service) (user : UserInfo) (p : String)
    (result : Option Bool × UserInfo) : Prop where
  /-- There is an answer. -/
  ends : result.1 ≠ none
  /-- The answer is a refusal exactly when an entry verifies the password. -/
  refused_iff : result.1 = some false ↔
    ∃ entry ∈ user.lastPasswords, validatePasswordHash svc user.email p entry = true
  /-- A refusal leaves the password fields. -/
  kept : result.1 = some false → result.2.currentPassword = user.currentPassword ∧
    result.2.lastPasswords = user.lastPasswords ∧
    result.2.changePassword = user.changePassword ∧
    result.2.lastPasswordChange = user.lastPasswordChange
  /-- Otherwise the record verifies this password and no other, under any spelling. -/
  verifies : result.1 = some true → ∀ name, SameAddress name user.email → ∀ q,
    validatePasswordHash svc name q result.2.currentPassword = true ↔ q = p

theorem setPasswordInPlace_reuseLaw {svc : Service} (h : HashesApart svc)
    (hpos : 1 ≤ svc.howManyOldPassword) {length : ℕ} {user : UserInfo}
    (hmade : MadeHere svc length user) (hemail : Trimmed user.email) {salt : String}
    (hsalt : IsSalt length salt) (p : String) :
    ReuseLaw svc user p (setPasswordInPlace svc salt p user) := by
  have htrim : trim (toLower user.email) = toLower user.email := by
    rw [trim_toLower, show trim user.email = user.email from hemail]
  obtain ⟨used, hused, hfound, hcomplete⟩ :=
    passwordAlreadyUsed_eq h htrim p (fun _ hmem ↦ hmem) hmade
  unfold setPasswordInPlace
  simp only [hused]
  cases used with
  | true => exact ⟨by simp, by simpa using hfound, fun _ ↦ ⟨rfl, rfl, rfl, rfl⟩, by simp⟩
  | false =>
    have hnone : ¬ ∃ entry ∈ user.lastPasswords,
        validatePasswordHash svc user.email p entry = true := by
      rintro ⟨entry, hmem, hverified⟩
      exact absurd (hcomplete entry hmem hverified) (by simp)
    simp only
    rw [if_neg (not_erases hpos user)]
    refine ⟨by simp, by simpa using hnone, by simp, fun _ name hname q ↦ ?_⟩
    refine validatePasswordHash_computed h hsalt.notMem ?_ p q
    rw [hname.trim_toLower, toLower_toLower]

/-- `SetPassword` refuses exactly the passwords that an entry of the history verifies, and what it
accepts is verified alone afterwards; so does `SetSubPassword`. -/
theorem setPassword_reuseLaw {svc : Service} (h : HashesApart svc)
    (hpos : 1 ≤ svc.howManyOldPassword) {length : ℕ} {user : UserInfo}
    (hmade : MadeHere svc length user) (hemail : Trimmed user.email) {salt : String}
    (hsalt : IsSalt length salt) (p : String) :
    ReuseLaw svc user p (setPasswordInPlace svc salt p user) ∧
      ReuseLaw svc user p (setSubPasswordInPlace svc salt p user) := by
  have hlaw := setPasswordInPlace_reuseLaw h hpos hmade hemail hsalt p
  exact ⟨hlaw, hlaw⟩

/-! ## A hash without collisions

A text is written in unary, one character after the other. -/

/-- The code of a character, and a mark at its end. -/
def unary : List Char → List Char
  | [] => []
  | c :: cs => List.replicate c.toNat '1' ++ '0' :: unary cs

theorem replicate_append_inj {m n : ℕ} {a b : List Char}
    (h : List.replicate m '1' ++ '0' :: a = List.replicate n '1' ++ '0' :: b) :
    m = n ∧ a = b := by
  induction m generalizing n with
  | zero =>
    cases n with
    | zero => exact ⟨rfl, (List.cons.inj h).2⟩
    | succ n => exact absurd (List.cons.inj h).1 (by decide)
  | succ m ih =>
    cases n with
    | zero => exact absurd (List.cons.inj h).1 (by decide)
    | succ n =>
      obtain ⟨hmn, hab⟩ := ih (List.cons.inj h).2
      exact ⟨congrArg Nat.succ hmn, hab⟩

theorem unary_injective : Function.Injective unary := by
  intro s t h
  induction s generalizing t with
  | nil =>
    cases t with
    | nil => rfl
    | cons d t =>
      have hlength := congrArg List.length h
      simp [unary] at hlength
  | cons c s ih =>
    cases t with
    | nil =>
      have hlength := congrArg List.length h
      simp [unary] at hlength
    | cons d t =>
      obtain ⟨hcd, hst⟩ := replicate_append_inj h
      rw [Char.toNat_inj.mp hcd, ih hst]

theorem notMem_unary (s : List Char) : '|' ∉ unary s := by
  induction s with
  | nil => simp [unary]
  | cons c s ih => simp [unary, ih]

/-- The service with this hash. -/
def sampleHashing : Service := { Service.sample with sha2Hex s := String.ofList (unary s.toList) }

theorem hashesApart_sample : HashesApart sampleHashing where
  injective s t h := by
    have hchars := congrArg String.toList h
    simp only [sampleHashing, String.toList_ofList] at hchars
    exact String.toList_inj.mp (unary_injective hchars)
  plain s := by
    show '|' ∉ (String.ofList (unary s.toList)).toList
    rw [String.toList_ofList]
    exact notMem_unary _

/-- A user with one password in the history. -/
def sampleHistory : UserInfo :=
  { id := "u1"
    email := "jo@example.com"
    currentPassword := computeNewPasswordHash sampleHashing "0000000001" "jo@example.com" "Secret-1"
    lastPasswords := [computeNewPasswordHash sampleHashing "0000000001" "jo@example.com" "Secret-1"] }

theorem isSalt_sample : IsSalt 10 "0000000001" ∧ IsSalt 10 "0000000002" := by
  constructor
  · exact ⟨rfl, List.all_eq_true.mp rfl⟩
  · exact ⟨rfl, List.all_eq_true.mp rfl⟩

theorem madeHere_sample : MadeHere sampleHashing 10 sampleHistory := by
  intro entry hmem
  exact ⟨"Secret-1", "0000000001", isSalt_sample.1, List.mem_singleton.mp hmem⟩

/-- The law for a new password. -/
theorem setPassword_reuseLaw_sample :
    ReuseLaw sampleHashing sampleHistory "Secret-2"
      (setPasswordInPlace sampleHashing "0000000002" "Secret-2" sampleHistory) ∧
    ReuseLaw sampleHashing sampleHistory "Secret-2"
      (setSubPasswordInPlace sampleHashing "0000000002" "Secret-2" sampleHistory) :=
  setPassword_reuseLaw hashesApart_sample (by decide) madeHere_sample rfl isSalt_sample.2
    "Secret-2"

end OwSec
