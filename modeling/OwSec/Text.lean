import Mathlib.Algebra.Group.Nat.Defs
import Mathlib.Data.List.Basic
import Mathlib.Data.Nat.Notation
import Mathlib.Order.Basic

/-!
# Text and machine arithmetic

The string operations of the C++ and Poco libraries that the service uses, on lists of
characters.  Poco's case conversion and its notion of white space are the ASCII ones.
-/

namespace OwSec

/-- Arithmetic on `uint64_t` wraps. -/
def u64 (n : ℕ) : ℕ := n % 2 ^ 64

/-- A difference does not wrap as long as the clock does not go back. -/
theorem u64_age {start now : ℕ} (h : start ≤ now) (hnow : now < 2 ^ 64) :
    u64 (now + 2 ^ 64 - start) = now - start := by
  rw [u64, Nat.sub_add_comm h, Nat.add_mod_right,
    Nat.mod_eq_of_lt (Nat.lt_of_le_of_lt (Nat.sub_le now start) hnow)]

/-- `Poco::toLower`: ASCII letters only, every other character is kept. -/
def toLower (s : String) : String := String.ofList (s.toList.map Char.toLower)

/-- A character outside `A`–`Z` is its own lower case. -/
private theorem char_toLower_of_not_upper {c : Char} (h : ¬ (c.val ≥ 'A'.val ∧ c.val ≤ 'Z'.val)) :
    c.toLower = c :=
  dif_neg h

/-- A lower-case character is its own lower case. -/
private theorem char_toLower_toLower (c : Char) : c.toLower.toLower = c.toLower := by
  by_cases h : c.val ≥ 'A'.val ∧ c.val ≤ 'Z'.val
  · have hv : c.toLower.val = c.val + 32 := congrArg Char.val (dif_pos h)
    refine char_toLower_of_not_upper ?_
    rw [hv]
    rintro ⟨_, hle⟩
    have hlow : 65 ≤ c.val.toNat := h.1
    have hhigh : c.val.toNat ≤ 90 := h.2
    have hsum : (c.val + 32).toNat ≤ 90 := hle
    rw [UInt32.toNat_add] at hsum
    have h32 : (32 : UInt32).toNat = 32 := rfl
    omega
  · rw [char_toLower_of_not_upper h, char_toLower_of_not_upper h]

/-- Lower-casing twice is lower-casing once. -/
@[simp] theorem toLower_toLower (s : String) : toLower (toLower s) = toLower s := by
  have h : Char.toLower ∘ Char.toLower = Char.toLower := by
    funext c
    exact char_toLower_toLower c
  simp [toLower, List.map_map, h]

/-- `!Poco::icompare(s, t)`. -/
def icompareEq (s t : String) : Bool := toLower s == toLower t

/-- `Poco::StringTokenizer` with one separator and no options: the empty text has no
tokens, any other text is split at every separator and empty tokens are kept. -/
def tokenize (separator : Char) (s : String) : List String :=
  if s.isEmpty then [] else (s.toList.splitOn separator).map String.ofList

/-- Only the empty text has no tokens. -/
theorem tokenize_ne_nil (separator : Char) {s : String} (h : s ≠ "") :
    tokenize separator s ≠ [] := by
  unfold tokenize
  rw [if_neg (by simpa using h)]
  exact fun hnil ↦ List.splitOn_ne_nil _ _ (List.map_eq_nil_iff.mp hnil)

/-- A text with one separator has two tokens. -/
theorem tokenize_append {separator : Char} {a b : String} (ha : separator ∉ a.toList)
    (hb : separator ∉ b.toList) : tokenize separator (a ++ separator.toString ++ b) = [a, b] := by
  unfold tokenize
  rw [if_neg (by simp)]
  have hchars : (a ++ separator.toString ++ b).toList = a.toList ++ separator :: b.toList := by simp
  rw [hchars, List.splitOn_append_cons_self_of_not_mem ha, List.splitOn_eq_singleton hb]
  simp

/-- Two tokens are those of a text with one separator. -/
theorem tokenize_eq_pair {separator : Char} {s a b : String} (h : tokenize separator s = [a, b]) :
    separator ∉ a.toList ∧ separator ∉ b.toList ∧ s = a ++ separator.toString ++ b := by
  unfold tokenize at h
  split at h
  · cases h
  · by_cases hmem : separator ∈ s.toList
    · obtain ⟨front, back, hsplit, hfront⟩ := List.eq_append_cons_of_mem hmem
      rw [hsplit, List.splitOn_append_cons_self_of_not_mem hfront, List.map_cons] at h
      obtain ⟨rfl, hback⟩ := List.cons.inj h
      have hrest : separator ∉ back := by
        intro hagain
        obtain ⟨front', back', rfl, hfront'⟩ := List.eq_append_cons_of_mem hagain
        rw [List.splitOn_append_cons_self_of_not_mem hfront', List.map_cons] at hback
        exact List.splitOn_ne_nil _ _ (List.map_eq_nil_iff.mp (List.cons.inj hback).2)
      rw [List.splitOn_eq_singleton hrest] at hback
      obtain rfl := (List.cons.inj hback).1
      refine ⟨by simpa using hfront, by simpa using hrest, String.ext ?_⟩
      rw [hsplit]
      simp
    · rw [List.splitOn_eq_singleton hmem] at h
      cases h

/-- `Poco::Ascii::isSpace`. -/
def isSpace (c : Char) : Bool :=
  c == ' ' || c == '\t' || c == '\n' || c == '\r' || c.val == 11 || c.val == 12

/-- `Poco::trim`. -/
def trim (s : String) : String :=
  String.ofList ((s.toList.dropWhile isSpace).reverse.dropWhile isSpace).reverse

/-! ## E-mail addresses -/

/-- The class `[a-z0-9-]`. -/
def isDomainChar (c : Char) : Bool := c.isLower || c.isDigit || c == '-'

/-- The class `[_a-z0-9-]`. -/
def isMailboxChar (c : Char) : Bool := c == '_' || isDomainChar c

/-- `p+(\.p+)*`: non-empty runs of `p` separated by single dots. -/
def isDotted (p : Char → Bool) (cs : List Char) : Bool :=
  (cs.splitOn '.').all fun run ↦ !run.isEmpty && run.all p

/-- `Utils::ValidEMailAddress`: the pattern
`[_a-z0-9-]+(\.[_a-z0-9-]+)*(\+[a-z0-9-]+)?@[a-z0-9-]+(\.[a-z0-9-]+)*`.  None of its
classes contains `@`, `+` or `.`, so the text can be cut at these characters. -/
def validEMailAddress (email : String) : Bool :=
  match email.toList.splitOn '@' with
  | [mailbox, domain] =>
    isDotted isDomainChar domain &&
      match mailbox.splitOn '+' with
      | [name] => isDotted isMailboxChar name
      | [name, tag] => isDotted isMailboxChar name && !tag.isEmpty && tag.all isDomainChar
      | _ => false
  | _ => false

/-- What is joined with a separator consists of the parts and the separator. -/
private theorem mem_intercalate {separator c : Char} {parts : List (List Char)}
    (h : c ∈ [separator].intercalate parts) : c = separator ∨ ∃ part ∈ parts, c ∈ part := by
  induction parts with
  | nil => simp at h
  | cons part rest ih =>
    rcases rest with _ | ⟨next, rest⟩
    · simp only [List.intercalate_singleton] at h
      exact .inr ⟨part, List.mem_cons_self, h⟩
    · rw [List.intercalate_cons_cons] at h
      simp only [List.mem_append, List.mem_singleton] at h
      rcases h with (h | h) | h
      · exact .inr ⟨part, List.mem_cons_self, h⟩
      · exact .inl h
      · rcases ih h with h | ⟨p, hp, h⟩
        · exact .inl h
        · exact .inr ⟨p, List.mem_cons_of_mem part hp, h⟩

/-- Cutting a text loses the separators only. -/
private theorem mem_splitOn_of_mem (separator : Char) {c : Char} {cs : List Char} (h : c ∈ cs) :
    c = separator ∨ ∃ part ∈ cs.splitOn separator, c ∈ part := by
  have hjoined : [separator].intercalate (cs.splitOn separator) = cs :=
    List.intercalate_splitOn separator
  exact mem_intercalate (hjoined.symm ▸ h)

/-- Dotted runs consist of dots and the characters of the runs. -/
private theorem of_mem_isDotted {p : Char → Bool} {cs : List Char} (h : isDotted p cs = true)
    {c : Char} (hc : c ∈ cs) : c = '.' ∨ p c = true := by
  rcases mem_splitOn_of_mem '.' hc with hc | ⟨run, hrun, hc⟩
  · exact .inl hc
  · have hall := List.all_eq_true.mp h run hrun
    exact .inr (List.all_eq_true.mp (Bool.and_eq_true_iff.mp hall).2 c hc)

/-- A character that none of the classes has, and that is none of the separators, does not
occur in an e-mail address. -/
theorem notMem_of_validEMailAddress {email : String} (h : validEMailAddress email = true) {c : Char}
    (hseparators : c ≠ '@' ∧ c ≠ '+' ∧ c ≠ '.') (hclass : isMailboxChar c = false) :
    c ∉ email.toList := by
  have hdomain : isDomainChar c = false := (Bool.or_eq_false_iff.mp hclass).2
  have hdotted {p : Char → Bool} {cs : List Char} (hp : p c = false)
      (hcs : isDotted p cs = true) : c ∉ cs := by
    intro hc
    rcases of_mem_isDotted hcs hc with hdot | hpc
    · exact hseparators.2.2 hdot
    · exact absurd (hp.symm.trans hpc) Bool.false_ne_true
  intro hc
  unfold validEMailAddress at h
  split at h
  · rename_i mailbox domain hsplit
    obtain ⟨hd, hm⟩ := Bool.and_eq_true_iff.mp h
    rcases mem_splitOn_of_mem '@' hc with hat | ⟨part, hpart, hc⟩
    · exact hseparators.1 hat
    rw [hsplit] at hpart
    rcases List.mem_cons.mp hpart with rfl | hpart
    · rcases mem_splitOn_of_mem '+' hc with hplus | ⟨run, hrun, hc⟩
      · exact hseparators.2.1 hplus
      split at hm
      · rename_i name hname
        rw [hname, List.mem_singleton] at hrun
        exact hdotted hclass hm (hrun ▸ hc)
      · rename_i name tag hname
        obtain ⟨hfront, htag⟩ := Bool.and_eq_true_iff.mp hm
        rw [hname] at hrun
        rcases List.mem_cons.mp hrun with rfl | hrun
        · exact hdotted hclass (Bool.and_eq_true_iff.mp hfront).1 hc
        · obtain rfl := List.mem_singleton.mp hrun
          exact absurd (hdomain.symm.trans (List.all_eq_true.mp htag c hc)) Bool.false_ne_true
      · cases hm
    · obtain rfl := List.mem_singleton.mp hpart
      exact hdotted hdomain hd hc
  · cases h

example : validEMailAddress "jo.doe+x@example.com" = true := by decide
example : validEMailAddress "jo'doe@example.com" = false := by decide

/-- None of the classes has a capital. -/
private theorem isMailboxChar_of_upper {c : Char} (h : c.val ≥ 'A'.val ∧ c.val ≤ 'Z'.val) :
    isMailboxChar c = false := by
  have hlow : 65 ≤ c.val.toNat := h.1
  have hhigh : c.val.toNat ≤ 90 := h.2
  have hne {d : Char} (hd : d.val.toNat < 65 ∨ 90 < d.val.toNat) : (c == d) = false := by
    refine beq_eq_false_iff_ne.mpr fun hcd ↦ ?_
    subst hcd
    omega
  have hlower : c.isLower = false :=
    Bool.and_eq_false_iff.mpr (.inl (decide_eq_false fun hle ↦ by
      have hle : 97 ≤ c.val.toNat := hle
      omega))
  have hdigit : c.isDigit = false :=
    Bool.and_eq_false_iff.mpr (.inr (decide_eq_false fun hle ↦ by
      have hle : c.val.toNat ≤ 57 := hle
      omega))
  rw [isMailboxChar, isDomainChar, hlower, hdigit, hne (by decide), hne (by decide)]
  rfl

/-- An e-mail address has no capitals. -/
theorem toLower_of_validEMailAddress {email : String} (h : validEMailAddress email = true) :
    toLower email = email := by
  have hchars : ∀ c ∈ email.toList, c.toLower = c := by
    intro c hc
    by_cases hupper : c.val ≥ 'A'.val ∧ c.val ≤ 'Z'.val
    · have hlow : 65 ≤ c.val.toNat := hupper.1
      have hne {d : Char} (hd : d.val.toNat < 65) : c ≠ d := by
        rintro rfl
        omega
      exact absurd hc (notMem_of_validEMailAddress h
        ⟨hne (by decide), hne (by decide), hne (by decide)⟩ (isMailboxChar_of_upper hupper))
    · exact char_toLower_of_not_upper hupper
  rw [toLower, List.map_congr_left hchars, List.map_id', String.ofList_toList]

end OwSec
