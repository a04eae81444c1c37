import OwSec.Kit.Sql

/-!
# The literals of different databases

All databases take a doubled quote inside a literal for a quote.  They differ in what else is
special there: for some nothing is, but a text ends at a NUL wherever it is; for others a backslash
gives the character behind it another meaning, and a NUL is like any other character.

A text can be cut into pieces before a *delimiter*, which is a character that no word and no
literal goes on with, and the tokens of the text are those of the pieces.  `tokens_text_iff` is
about texts into which values are put as literals with doubled quotes: they are lexed as they are
meant exactly when the literals of that database keep every value.  `Embeds` puts such texts
together.
-/

namespace Kit.Sql

universe u

/-- How the literals of a database are written. -/
inductive Quoting
  /-- A doubled quote is the only escape, and the text ends at a NUL. -/
  | standard
  /-- A backslash is an escape, too. -/
  | escapes
  deriving DecidableEq, Repr

/-- The character with the code zero. -/
def nul : Char := Char.ofNat 0

/-- The escape character. -/
def backslash : Char := Char.ofNat 92

/-- What a backslash and a character stand for.  Where the two are used in patterns the backslash
is kept. -/
def unescape (c : Char) : List Char :=
  if c = '0' then [nul]
  else if c = 'b' then [Char.ofNat 8]
  else if c = 't' then [Char.ofNat 9]
  else if c = 'n' then [Char.ofNat 10]
  else if c = 'r' then [Char.ofNat 13]
  else if c = 'Z' then [Char.ofNat 26]
  else if c = '%' ∨ c = '_' then [backslash, c]
  else [c]

/-- Where the lexer is. -/
inductive Reading
  | plain (m : Mode)
  /-- Behind a backslash inside a literal. -/
  | escaped (read : List Char)
  deriving DecidableEq, Repr

namespace Quoting

/-- One character. -/
def advance : Quoting → Reading → Char → List Token × Reading
  | .escapes, .plain (.literal read), c =>
    if c = backslash then ([], .escaped read)
    else ((Sql.advance (.literal read) c).1, .plain (Sql.advance (.literal read) c).2)
  | _, .plain m, c => ((Sql.advance m c).1, .plain (Sql.advance m c).2)
  | _, .escaped read, c => ([], .plain (.literal (read ++ unescape c)))

/-- Whether the text ends at a character. -/
def ends : Quoting → Char → Bool
  | .standard, c => c = nul
  | .escapes, _ => false

/-- The end of the text. -/
def finish : Reading → Option (List Token)
  | .plain m => Sql.finish m
  | .escaped _ => none

/-- The tokens from a place in a text on. -/
def tokensFrom (q : Quoting) : Reading → List Char → Option (List Token)
  | r, [] => finish r
  | r, c :: cs =>
    if q.ends c then finish r
    else (tokensFrom q (q.advance r c).2 cs).map ((q.advance r c).1 ++ ·)

/-- The tokens of a text. -/
def tokens (q : Quoting) (text : List Char) : Option (List Token) :=
  q.tokensFrom (.plain .between) text

/-- The tokens that end inside a text, and where the lexer is behind it. -/
def scan (q : Quoting) : Reading → List Char → List Token × Reading
  | r, [] => ([], r)
  | r, c :: cs =>
    ((q.advance r c).1 ++ (scan q (q.advance r c).2 cs).1, (scan q (q.advance r c).2 cs).2)

variable {q : Quoting}

/-- The lexer goes on behind a text that does not end before. -/
theorem tokensFrom_append {a : List Char} (ha : ∀ c ∈ a, q.ends c = false) (r : Reading)
    (b : List Char) :
    q.tokensFrom r (a ++ b) = (q.tokensFrom (q.scan r a).2 b).map ((q.scan r a).1 ++ ·) := by
  induction a generalizing r with
  | nil => simp [scan]
  | cons c cs ih =>
    obtain ⟨hc, hcs⟩ := List.forall_mem_cons.mp ha
    simp [tokensFrom, scan, hc, ih hcs, Function.comp_def]

/-- Outside of literals all databases agree. -/
theorem advance_plain {m : Mode} (hm : ∀ read, m ≠ .literal read) (c : Char) :
    q.advance (.plain m) c = ((Sql.advance m c).1, .plain (Sql.advance m c).2) := by
  cases q with
  | standard => rfl
  | escapes =>
    cases m with
    | literal read => exact absurd rfl (hm read)
    | _ => rfl

/-- A character that ends no text and is no backslash. -/
theorem advance_literal (read : List Char) {c : Char} (hc : c ≠ backslash) :
    q.advance (.plain (.literal read)) c
      = ((Sql.advance (.literal read) c).1, .plain (Sql.advance (.literal read) c).2) := by
  cases q with
  | standard => rfl
  | escapes => exact if_neg hc

end Quoting

/-! ## Pieces of texts -/

variable {q : Quoting}

/-- A character with which neither a word nor a literal goes on. -/
def isDelimiter (c : Char) : Bool := !(c == quote || isWordChar c || c == nul)

/-- A text with its tokens, which does not end before its last character. -/
structure Lexed (q : Quoting) (text : List Char) (ts : List Token) : Prop where
  tokens_eq : q.tokens text = some ts
  ends_eq : ∀ c ∈ text, q.ends c = false

/-- A text whose tokens and characters have been looked through. -/
theorem Lexed.of_any {text : List Char} {ts : List Token} (htokens : q.tokens text = some ts)
    (hends : text.any q.ends = false) : Lexed q text ts :=
  ⟨htokens, by simpa using hends⟩

/-- Nothing has no tokens. -/
theorem Lexed.nil : Lexed q [] [] := ⟨rfl, by simp⟩

/-- A delimiter ends what has been read, and nothing goes on behind it. -/
theorem advance_delimiter {c : Char} (hc : isDelimiter c = true) {m : Mode} {ts : List Token}
    (h : finish m = some ts) :
    q.advance (.plain m) c = (ts ++ (start c).1, .plain .between) := by
  simp only [isDelimiter, Bool.not_eq_true', Bool.or_eq_false_iff, beq_eq_false_iff_ne] at hc
  obtain ⟨⟨hquote, hword⟩, -⟩ := hc
  have hstart : (start c).2 = .between := by
    unfold start
    rw [if_neg hquote]
    split
    · rfl
    · rw [if_neg (by simp [hword])]
  rw [Quoting.advance_plain (by rintro read rfl; cases h)]
  cases m with
  | between =>
    obtain rfl : ts = [] := by simpa [finish] using h.symm
    simp [advance, hstart]
  | word read =>
    obtain rfl : ts = [closeWord read] := by simpa [finish] using h.symm
    simp [advance, hword, hstart]
  | literal read => cases h
  | closing read =>
    obtain rfl : ts = [.literal read] := by simpa [finish] using h.symm
    simp [advance, hquote, hstart]

/-- A delimiter does not end a text. -/
theorem ends_delimiter {c : Char} (hc : isDelimiter c = true) : q.ends c = false := by
  cases q with
  | standard => simp_all [isDelimiter, Quoting.ends]
  | escapes => rfl

/-- A text is lexed up to a place where it is complete. -/
theorem Lexed.scan_eq {text : List Char} {ts : List Token} (h : Lexed q text ts) :
    ∃ m done rest, q.scan (.plain .between) text = (done, .plain m) ∧
      finish m = some rest ∧ ts = done ++ rest := by
  have htokens := h.tokens_eq
  rw [Quoting.tokens, ← List.append_nil text, Quoting.tokensFrom_append h.ends_eq] at htokens
  rcases hscan : q.scan (.plain .between) text with ⟨done, m | read⟩
  · rw [hscan] at htokens
    obtain ⟨rest, hrest, rfl⟩ := Option.map_eq_some_iff.mp htokens
    exact ⟨m, done, rest, rfl, hrest, rfl⟩
  · rw [hscan] at htokens
    cases htokens

/-- The lexer behind a piece and a delimiter. -/
theorem Lexed.tokensFrom_append {a : List Char} {ts : List Token} (ha : Lexed q a ts) {c : Char}
    (hc : isDelimiter c = true) (b : List Char) :
    q.tokensFrom (.plain .between) (a ++ c :: b)
      = (q.tokensFrom (.plain .between) b).map (ts ++ (start c).1 ++ ·) := by
  obtain ⟨m, done, rest, hscan, hfinish, rfl⟩ := ha.scan_eq
  rw [Quoting.tokensFrom_append ha.ends_eq, hscan, Quoting.tokensFrom,
    if_neg (by simp [ends_delimiter hc]), advance_delimiter hc hfinish]
  simp [Function.comp_def]

/-- Two pieces with a delimiter between them. -/
theorem Lexed.append {a b : List Char} {ts us : List Token} (ha : Lexed q a ts)
    (hb : Lexed q b us) {c : Char} (hc : isDelimiter c = true) :
    Lexed q (a ++ c :: b) (ts ++ (start c).1 ++ us) where
  tokens_eq := by
    rw [Quoting.tokens, ha.tokensFrom_append hc, ← Quoting.tokens, hb.tokens_eq, Option.map_some]
  ends_eq := by
    rw [List.forall_mem_append, List.forall_mem_cons]
    exact ⟨ha.ends_eq, ends_delimiter hc, hb.ends_eq⟩

/-- Delimiters that separate two pieces, and their tokens. -/
def Separates (glue : List Char) (ts : List Token) : Prop :=
  glue ≠ [] ∧ glue.all isDelimiter = true ∧ glue.flatMap (fun c ↦ (start c).1) = ts

instance (glue : List Char) (ts : List Token) : Decidable (Separates glue ts) :=
  inferInstanceAs (Decidable (_ ∧ _ ∧ _))

/-- Two pieces with delimiters between them. -/
theorem Lexed.glue {a b glue : List Char} {ts us gs : List Token} (ha : Lexed q a ts)
    (hb : Lexed q b us) (hglue : Separates glue gs) : Lexed q (a ++ glue ++ b) (ts ++ gs ++ us) := by
  obtain ⟨hne, hglue, rfl⟩ := hglue
  induction glue generalizing a ts with
  | nil => exact absurd rfl hne
  | cons c glue ih =>
    rw [List.all_cons, Bool.and_eq_true] at hglue
    obtain ⟨hc, hglue⟩ := hglue
    rcases glue with _ | ⟨d, glue⟩
    · simpa using ha.append hb hc
    · have hstep := ih (ha.append .nil hc) (List.cons_ne_nil d glue) hglue
      simpa using hstep

/-- Pieces that are joined with delimiters. -/
theorem Lexed.intercalate {ι : Type u} {text : ι → List Char} {ts : ι → List Token}
    {glue : List Char} {gs : List Token} (hglue : Separates glue gs) {l : List ι}
    (h : ∀ i ∈ l, Lexed q (text i) (ts i)) :
    Lexed q (glue.intercalate (l.map text)) (gs.intercalate (l.map ts)) := by
  induction l with
  | nil => exact .nil
  | cons i l ih =>
    obtain ⟨hi, hl⟩ := List.forall_mem_cons.mp h
    rcases l with _ | ⟨j, l⟩
    · simpa using hi
    · simpa using hi.glue (ih hl) hglue

/-- A character of a word is no other special character. -/
theorem isWordChar_ne {c d : Char} (hc : isWordChar c = true) (hd : isWordChar d = false) :
    c ≠ d := by
  rintro rfl
  rw [hc] at hd
  cases hd

/-- A word in lower case is a word. -/
theorem isWordChar_toLower {c : Char} (h : isWordChar c = true) : isWordChar c.toLower = true := by
  by_cases hupper : c.val ≥ 'A'.val ∧ c.val ≤ 'Z'.val
  · have hv : c.toLower.val = c.val + 32 := congrArg Char.val (dif_pos hupper)
    have hlow : 65 ≤ c.val.toNat := UInt32.le_iff_toNat_le.mp hupper.1
    have hhigh : c.val.toNat ≤ 90 := UInt32.le_iff_toNat_le.mp hupper.2
    have hsum : (c.val + 32).toNat = c.val.toNat + 32 := by
      rw [UInt32.toNat_add]
      exact Nat.mod_eq_of_lt (show c.val.toNat + 32 < 2 ^ 32 by omega)
    have hlower : c.toLower.isLower = true := by
      have hdef : c.toLower.isLower = (decide (c.toLower.val ≥ 97) && decide (c.toLower.val ≤ 122)) :=
        rfl
      rw [hdef, hv]
      simp only [Bool.and_eq_true, decide_eq_true_eq, ge_iff_le, UInt32.le_iff_toNat_le, hsum]
      have ha : (97 : UInt32).toNat = 97 := rfl
      have hz : (122 : UInt32).toNat = 122 := rfl
      omega
    have hletter : c.toLower.isAlphanum =
        ((c.toLower.isUpper || c.toLower.isLower) || c.toLower.isDigit) := rfl
    simp [isWordChar, hletter, hlower]
  · have hsame : c.toLower = c := dif_neg hupper
    rwa [hsame]

/-- A word goes on with its characters. -/
theorem scan_word {w : List Char} (hw : ∀ c ∈ w, isWordChar c = true) (read : List Char) :
    q.scan (.plain (.word read)) w = ([], .plain (.word (read ++ w))) := by
  induction w generalizing read with
  | nil => simp [Quoting.scan]
  | cons c cs ih =>
    obtain ⟨hc, hcs⟩ := List.forall_mem_cons.mp hw
    have hstep : q.advance (.plain (.word read)) c = ([], .plain (.word (read ++ [c]))) := by
      rw [Quoting.advance_plain (by simp), advance, if_pos hc]
    simp [Quoting.scan, hstep, ih hcs]

/-- A word that stands alone. -/
theorem lexed_word {w : List Char} (hne : w ≠ []) (hword : w.all isWordChar = true) :
    Lexed q w [closeWord w] := by
  have hw : ∀ c ∈ w, isWordChar c = true := List.all_eq_true.mp hword
  have hends : ∀ c ∈ w, q.ends c = false := by
    intro c hc
    have hnul : c ≠ nul := isWordChar_ne (hw c hc) (by decide)
    cases q with
    | standard => simp [Quoting.ends, hnul]
    | escapes => rfl
  refine ⟨?_, hends⟩
  obtain ⟨c, cs, rfl⟩ := List.exists_cons_of_ne_nil hne
  obtain ⟨hc, hcs⟩ := List.forall_mem_cons.mp hw
  have hquote : c ≠ quote := isWordChar_ne hc (by decide)
  have hblank : isBlank c = false := by
    have hspace : c ≠ ' ' := isWordChar_ne hc (by decide)
    have htab : c ≠ '\t' := isWordChar_ne hc (by decide)
    have hline : c ≠ '\n' := isWordChar_ne hc (by decide)
    have hreturn : c ≠ '\r' := isWordChar_ne hc (by decide)
    simp [isBlank, hspace, htab, hline, hreturn]
  have hstep : q.advance (.plain .between) c = ([], .plain (.word [c])) := by
    rw [Quoting.advance_plain (by simp)]
    simp [advance, start, hquote, hblank, hc]
  rw [Quoting.tokens, ← List.append_nil (c :: cs), Quoting.tokensFrom_append hends,
    Quoting.scan, hstep, scan_word hcs]
  simp [Quoting.tokensFrom, Quoting.finish, finish]

/-! ## Values in literals -/

/-- Every backslash stands before a character that makes a pattern of the two. -/
def PatternEscapes : List Char → Prop
  | [] => True
  | c :: cs => (c = backslash → cs.head? = some '%' ∨ cs.head? = some '_') ∧ PatternEscapes cs

/-- The values that a literal of doubled quotes stands for. -/
def Quoting.Keeps : Quoting → List Char → Prop
  | .standard, v => nul ∉ v
  | .escapes, v => PatternEscapes v

/-- What a backslash does with the character behind it. -/
theorem unescape_cases (d : Char) :
    (d = '%' ∨ d = '_') ∧ unescape d = [backslash, d] ∨
      d = backslash ∧ unescape d = [backslash] ∨
      ¬ (d = '%' ∨ d = '_') ∧ d ≠ backslash ∧ ∃ x, x ≠ backslash ∧ unescape d = [x] := by
  by_cases hpattern : d = '%' ∨ d = '_'
  · refine .inl ⟨hpattern, ?_⟩
    rcases hpattern with rfl | rfl <;> decide
  · by_cases hbackslash : d = backslash
    · subst hbackslash
      exact .inr (.inl ⟨rfl, by decide⟩)
    · refine .inr (.inr ⟨hpattern, hbackslash, ?_⟩)
      unfold unescape
      split_ifs
      all_goals first
        | exact ⟨_, hbackslash, rfl⟩
        | exact ⟨_, by decide, rfl⟩

/-- What has been read of a literal. -/
def Reading.literal? : Reading → Option (List Char)
  | .plain (.literal read) | .plain (.closing read) | .escaped read => some read
  | _ => none

/-- A character inside a literal is read, or ends the literal. -/
theorem advance_literal?_cases {r : Reading} {read : List Char} (hr : r.literal? = some read)
    (c : Char) :
    (∃ more r', q.advance r c = ([], r') ∧ r'.literal? = some (read ++ more)) ∨
      ∃ ts r', q.advance r c = (.literal read :: ts, r') := by
  rcases r with (_ | _ | read' | read') | read'
  · cases hr
  · cases hr
  · obtain rfl := Option.some.inj hr
    refine .inl ?_
    by_cases hbackslash : c = backslash
    · subst hbackslash
      cases q with
      | standard => exact ⟨[backslash], _, rfl, rfl⟩
      | escapes => exact ⟨[], _, rfl, by simp [Reading.literal?]⟩
    · rw [Quoting.advance_literal _ hbackslash, advance]
      split
      · exact ⟨[], _, rfl, by simp [Reading.literal?]⟩
      · exact ⟨[c], _, rfl, rfl⟩
  · obtain rfl := Option.some.inj hr
    rw [Quoting.advance_plain (by simp), advance]
    split
    · exact .inl ⟨[quote], _, rfl, rfl⟩
    · exact .inr ⟨_, _, rfl⟩
  · obtain rfl := Option.some.inj hr
    refine .inl ⟨unescape c, .plain (.literal (read' ++ unescape c)), ?_, rfl⟩
    cases q <;> rfl

/-- At the end of a text nothing but the literal is left. -/
theorem eq_of_finish {r : Reading} {read : List Char} (hr : r.literal? = some read)
    {ts : List Token} (h : Quoting.finish r = some ts) : ts = [.literal read] := by
  rcases r with (_ | _ | read' | read') | read' <;> cases hr <;> cases h
  rfl

/-- The token that ends next is the literal, and it begins with what has been read. -/
theorem exists_literal {r : Reading} {read : List Char} (hr : r.literal? = some read)
    {text : List Char} {ts : List Token} (h : q.tokensFrom r text = some ts) :
    ∃ more rest, ts = .literal (read ++ more) :: rest := by
  induction text generalizing r read ts with
  | nil => exact ⟨[], [], by rw [eq_of_finish hr h, List.append_nil]⟩
  | cons c cs ih =>
    rw [Quoting.tokensFrom] at h
    split at h
    · exact ⟨[], [], by rw [eq_of_finish hr h, List.append_nil]⟩
    · obtain ⟨us, hus, rfl⟩ := Option.map_eq_some_iff.mp h
      rcases advance_literal?_cases (q := q) hr c with ⟨more, r', hstep, hr'⟩ | ⟨vs, r', hstep⟩
      · rw [hstep] at hus ⊢
        obtain ⟨more', rest, rfl⟩ := ih hr' hus
        exact ⟨more ++ more', rest, by simp⟩
      · rw [hstep]
        exact ⟨[], vs ++ us, by simp⟩

/-- A literal that goes on with another character than it should is another one. -/
theorem ne_literal_of_ne {r : Reading} {read v : List Char} {x y : Char}
    (hr : r.literal? = some (read ++ [x])) (hne : x ≠ y) {text : List Char} (ts : List Token) :
    q.tokensFrom r text ≠ some (.literal (read ++ y :: v) :: ts) := by
  intro h
  obtain ⟨more, rest, heq⟩ := exists_literal hr h
  have hvalue : read ++ y :: v = read ++ [x] ++ more := Token.literal.inj (List.cons.inj heq).1
  rw [List.append_assoc] at hvalue
  exact hne (List.cons.inj (List.append_cancel_left hvalue)).1.symm

/-- The text of a value with its first character apart. -/
theorem escape_cons (c : Char) (v : List Char) :
    escape (c :: v) = (if c = quote then [quote, quote] else [c]) ++ escape v := rfl

theorem escape_cons_of_ne {c : Char} (hc : c ≠ quote) (v : List Char) :
    escape (c :: v) = c :: escape v := by
  rw [escape_cons, if_neg hc, List.singleton_append]

/-- The quotes of a value do not end its text. -/
theorem ends_escape {v : List Char} (h : ∀ c ∈ v, q.ends c = false) :
    ∀ c ∈ escape v, q.ends c = false := by
  intro c hc
  obtain ⟨d, hd, hcd⟩ := List.mem_flatMap.mp hc
  split at hcd
  · have heq : c = quote := by simpa using hcd
    rw [heq]
    cases q <;> rfl
  · rw [List.mem_singleton.mp hcd]
    exact h d hd

/-- A character that is no backslash is read as itself. -/
theorem scan_escape_cons {c : Char} (hc : c ≠ backslash) (read v : List Char) :
    q.scan (.plain (.literal read)) (escape (c :: v))
      = q.scan (.plain (.literal (read ++ [c]))) (escape v) := by
  by_cases hquote : c = quote
  · subst hquote
    rw [escape_cons, if_pos rfl]
    simp only [List.cons_append, List.nil_append, Quoting.scan, Quoting.advance_literal _ hc,
      advance, if_true, Quoting.advance_plain (m := .closing read) (by simp)]
  · rw [escape_cons_of_ne hquote, Quoting.scan, Quoting.advance_literal _ hc, advance,
      if_neg hquote]
    simp

/-- A value that is kept is read as itself, also when a backslash in front of it has been read. -/
theorem scan_escape_of_patternEscapes {v : List Char} (h : PatternEscapes v) (read : List Char) :
    Quoting.escapes.scan (.plain (.literal read)) (escape v)
        = ([], .plain (.literal (read ++ v))) ∧
      ((v.head? = some '%' ∨ v.head? = some '_') →
        Quoting.escapes.scan (.escaped read) (escape v)
          = ([], .plain (.literal (read ++ backslash :: v)))) := by
  induction v generalizing read with
  | nil => simp [escape, Quoting.scan]
  | cons c v ih =>
    obtain ⟨hc, hv⟩ := h
    constructor
    · by_cases hbackslash : c = backslash
      · subst hbackslash
        rw [escape_cons_of_ne (by decide), Quoting.scan]
        have hstep : Quoting.escapes.advance (.plain (.literal read)) backslash
            = ([], .escaped read) := by rw [Quoting.advance, if_pos rfl]
        simp [hstep, (ih hv read).2 (hc rfl)]
      · rw [scan_escape_cons hbackslash, (ih hv (read ++ [c])).1]
        simp
    · intro hhead
      have hpattern : c = '%' ∨ c = '_' := by simpa using hhead
      have hquote : c ≠ quote := by
        rcases hpattern with rfl | rfl <;> decide
      have hunescape : unescape c = [backslash, c] := by
        rcases hpattern with rfl | rfl <;> decide
      have hstep : Quoting.escapes.advance (.escaped read) c
          = ([], .plain (.literal (read ++ [backslash, c]))) := by
        rw [Quoting.advance, hunescape]
      rw [escape_cons_of_ne hquote, Quoting.scan, hstep, (ih hv (read ++ [backslash, c])).1]
      simp

/-- Without backslashes the lexer is the scanner. -/
theorem scan_standard (m : Mode) (text : List Char) :
    Quoting.standard.scan (.plain m) text = ((Sql.scan m text).1, .plain (Sql.scan m text).2) := by
  induction text generalizing m with
  | nil => rfl
  | cons c cs ih =>
    have hstep : Quoting.standard.advance (.plain m) c
        = ((advance m c).1, .plain (advance m c).2) := rfl
    rw [Quoting.scan, hstep, ih, Sql.scan]

/-- A value that is kept is read as itself. -/
theorem scan_escape_of_keeps {v : List Char} (h : q.Keeps v) (read : List Char) :
    q.scan (.plain (.literal read)) (escape v) = ([], .plain (.literal (read ++ v))) := by
  cases q with
  | standard => rw [scan_standard, scan_escape]
  | escapes => exact (scan_escape_of_patternEscapes h read).1

/-- The lexer on the text of a value that stands behind a backslash: the two are a pattern, the
backslash escapes the character, or it escapes a backslash. -/
theorem escaped_cases (read v after : List Char) :
    (∃ x r text, x ≠ backslash ∧ r.literal? = some (read ++ [x]) ∧
        Quoting.escapes.tokensFrom (.escaped read) (escape v ++ quote :: after)
          = Quoting.escapes.tokensFrom r text) ∨
      (∃ v', v = backslash :: v' ∧
        Quoting.escapes.tokensFrom (.escaped read) (escape v ++ quote :: after)
          = Quoting.escapes.tokensFrom (.plain (.literal (read ++ [backslash])))
            (escape v' ++ quote :: after)) ∨
      ∃ d v', (d = '%' ∨ d = '_') ∧ v = d :: v' ∧
        Quoting.escapes.tokensFrom (.escaped read) (escape v ++ quote :: after)
          = Quoting.escapes.tokensFrom (.plain (.literal (read ++ [backslash, d])))
            (escape v' ++ quote :: after) := by
  have hstep (d : Char) (text : List Char) :
      Quoting.escapes.tokensFrom (.escaped read) (d :: text)
        = Quoting.escapes.tokensFrom (.plain (.literal (read ++ unescape d))) text := by
    simp [Quoting.tokensFrom, Quoting.ends, Quoting.advance]
  have hquote : unescape quote = [quote] := by decide
  have hne : quote ≠ backslash := by decide
  rcases v with _ | ⟨d, v⟩
  · refine .inl ⟨quote, _, _, hne, ?_, hstep quote after⟩
    rw [hquote]
    rfl
  · by_cases hd : d = quote
    · subst hd
      refine .inl ⟨quote, _, quote :: (escape v ++ quote :: after), hne, ?_, hstep quote _⟩
      rw [hquote]
      rfl
    · rw [escape_cons_of_ne hd, List.cons_append, hstep]
      rcases unescape_cases d with ⟨hd, heq⟩ | ⟨rfl, heq⟩ | ⟨-, -, x, hx, heq⟩
      · exact .inr (.inr ⟨d, v, hd, rfl, by rw [heq]⟩)
      · exact .inr (.inl ⟨v, rfl, by rw [heq]⟩)
      · exact .inl ⟨x, _, _, hx, by rw [heq]; rfl, rfl⟩

/-- A quote does not end a text. -/
@[simp] theorem ends_quote : q.ends quote = false := by cases q <;> rfl

/-- A quote ends a literal, unless another one follows. -/
theorem tokensFrom_quote (read rest : List Char) :
    q.tokensFrom (.plain (.literal read)) (quote :: rest)
      = q.tokensFrom (.plain (.closing read)) rest := by
  rw [Quoting.tokensFrom, Quoting.advance_literal _ (by decide), advance, if_pos rfl]
  simp

/-- A text that begins with a delimiter, or is empty. -/
def Opens (text : List Char) : Prop := ∀ c ∈ text.head?, isDelimiter c = true

/-- A literal ends in front of a delimiter. -/
theorem tokensFrom_closing {text : List Char} (h : Opens text) (read : List Char) :
    q.tokensFrom (.plain (.closing read)) text
      = (q.tokensFrom (.plain .between) text).map (.literal read :: ·) := by
  rcases text with _ | ⟨c, cs⟩
  · rfl
  · have hc : isDelimiter c = true := h c rfl
    rw [Quoting.tokensFrom, Quoting.tokensFrom, ends_delimiter hc,
      advance_delimiter hc (m := .closing read) rfl, advance_delimiter hc (m := .between) rfl]
    simp [Function.comp_def]

/-- A character that is no backslash is read as itself, with anything behind it. -/
theorem tokensFrom_escape_cons {c : Char} (hc : c ≠ backslash) (read v after : List Char) :
    Quoting.escapes.tokensFrom (.plain (.literal read)) (escape (c :: v) ++ after)
      = Quoting.escapes.tokensFrom (.plain (.literal (read ++ [c]))) (escape v ++ after) := by
  rw [Quoting.tokensFrom_append (fun _ _ ↦ rfl), Quoting.tokensFrom_append (fun _ _ ↦ rfl),
    scan_escape_cons hc]

/-- A backslash waits for the next character. -/
theorem tokensFrom_escape_backslash (read v after : List Char) :
    Quoting.escapes.tokensFrom (.plain (.literal read)) (escape (backslash :: v) ++ after)
      = Quoting.escapes.tokensFrom (.escaped read) (escape v ++ after) := by
  rw [escape_cons_of_ne (by decide), List.cons_append, Quoting.tokensFrom, Quoting.advance,
    if_pos rfl]
  simp [Quoting.ends]

/-- Once a backslash has been lost, the literal is another one. -/
theorem ne_literal_of_lost {after : List Char} (hafter : Opens after) (k : ℕ)
    (read v : List Char) (ts : List Token) :
    Quoting.escapes.tokensFrom (.plain (.literal read)) (escape v ++ quote :: after)
        ≠ some (.literal (read ++ (List.replicate (k + 1) backslash ++ v)) :: ts) ∧
      Quoting.escapes.tokensFrom (.escaped read) (escape v ++ quote :: after)
        ≠ some (.literal (read ++ (List.replicate (k + 2) backslash ++ v)) :: ts) := by
  induction v generalizing k read with
  | nil =>
    constructor
    · show Quoting.escapes.tokensFrom _ (quote :: after) ≠ _
      rw [tokensFrom_quote, tokensFrom_closing hafter]
      intro h
      obtain ⟨us, -, heq⟩ := Option.map_eq_some_iff.mp h
      have hvalue := Token.literal.inj (List.cons.inj heq).1
      simp [List.replicate_succ] at hvalue
    · rcases escaped_cases read [] after with ⟨x, r, text, hx, hr, heq⟩ | ⟨v', hv, -⟩ |
        ⟨d, v', -, hv, -⟩
      · rw [heq]
        exact ne_literal_of_ne hr hx ts
      · cases hv
      · cases hv
  | cons c v ih =>
    have hmove (n : ℕ) : List.replicate n backslash ++ backslash :: v
        = List.replicate (n + 1) backslash ++ v := by
      rw [List.replicate_succ', List.append_assoc, List.singleton_append]
    constructor
    · by_cases hc : c = backslash
      · subst hc
        rw [tokensFrom_escape_backslash, hmove]
        exact (ih k read).2
      · rw [tokensFrom_escape_cons hc]
        exact ne_literal_of_ne rfl hc ts
    · rcases escaped_cases read (c :: v) after with ⟨x, r, text, hx, hr, heq⟩ | ⟨v', hv, heq⟩ |
        ⟨d, v', hd, hv, heq⟩
      · rw [heq]
        exact ne_literal_of_ne hr hx ts
      · obtain ⟨rfl, rfl⟩ := List.cons.inj hv
        have hexpected : read ++ (List.replicate (k + 2) backslash ++ backslash :: v)
            = (read ++ [backslash]) ++ (List.replicate (k + 1 + 1) backslash ++ v) := by
          rw [hmove, List.replicate_succ, List.cons_append, List.append_cons]
        rw [heq, hexpected]
        exact (ih (k + 1) (read ++ [backslash])).1
      · obtain ⟨rfl, rfl⟩ := List.cons.inj hv
        have hne : c ≠ backslash := by rcases hd with rfl | rfl <;> decide
        have hexpected : read ++ (List.replicate (k + 2) backslash ++ c :: v)
            = (read ++ [backslash]) ++ backslash :: (List.replicate k backslash ++ c :: v) := by
          simp [List.replicate_succ]
        rw [heq, hexpected]
        exact ne_literal_of_ne (by simp [Reading.literal?]) hne ts

/-- A backslash that does not stand before the character of a pattern is not kept. -/
theorem ne_literal_of_not_patternEscapes {after : List Char} (hafter : Opens after)
    (read v : List Char) (ts : List Token) :
    (¬ PatternEscapes v →
      Quoting.escapes.tokensFrom (.plain (.literal read)) (escape v ++ quote :: after)
        ≠ some (.literal (read ++ v) :: ts)) ∧
      (¬ PatternEscapes (backslash :: v) →
        Quoting.escapes.tokensFrom (.escaped read) (escape v ++ quote :: after)
          ≠ some (.literal (read ++ backslash :: v) :: ts)) := by
  induction v generalizing read with
  | nil =>
    refine ⟨fun h ↦ absurd trivial h, fun _ ↦ ?_⟩
    rcases escaped_cases read [] after with ⟨x, r, text, hx, hr, heq⟩ | ⟨v', hv, -⟩ |
      ⟨d, v', -, hv, -⟩
    · rw [heq]
      exact ne_literal_of_ne hr hx ts
    · cases hv
    · cases hv
  | cons c v ih =>
    have htail (hc : c ≠ backslash) (h : ¬ PatternEscapes (c :: v)) : ¬ PatternEscapes v :=
      fun hv ↦ h ⟨fun heq ↦ absurd heq hc, hv⟩
    constructor
    · intro h
      by_cases hc : c = backslash
      · subst hc
        rw [tokensFrom_escape_backslash]
        exact (ih read).2 h
      · have hexpected : read ++ c :: v = (read ++ [c]) ++ v := List.append_cons read c v
        rw [tokensFrom_escape_cons hc, hexpected]
        exact (ih (read ++ [c])).1 (htail hc h)
    · intro h
      rcases escaped_cases read (c :: v) after with ⟨x, r, text, hx, hr, heq⟩ | ⟨v', hv, heq⟩ |
        ⟨d, v', hd, hv, heq⟩
      · rw [heq]
        exact ne_literal_of_ne hr hx ts
      · obtain ⟨rfl, rfl⟩ := List.cons.inj hv
        have hexpected : read ++ backslash :: backslash :: v
            = (read ++ [backslash]) ++ (List.replicate 1 backslash ++ v) := by simp
        rw [heq, hexpected]
        exact (ne_literal_of_lost hafter 0 _ v ts).1
      · obtain ⟨rfl, rfl⟩ := List.cons.inj hv
        have hne : c ≠ backslash := by rcases hd with rfl | rfl <;> decide
        have hpattern : ¬ PatternEscapes (c :: v) := fun hv ↦ h ⟨fun _ ↦ by simpa using hd, hv⟩
        have hexpected : read ++ backslash :: c :: v = (read ++ [backslash, c]) ++ v := by simp
        rw [heq, hexpected]
        exact (ih _).1 (htail hne hpattern)

/-- The characters of a value that is kept do not end the text. -/
theorem Quoting.Keeps.ends_eq {v : List Char} (h : q.Keeps v) : ∀ c ∈ v, q.ends c = false := by
  intro c hc
  cases q with
  | standard =>
    have hne : c ≠ nul := fun heq ↦ h (heq ▸ hc)
    simp [Quoting.ends, hne]
  | escapes => rfl

/-- A value that is kept is the literal. -/
theorem tokensFrom_escape_of_keeps {v after : List Char} (h : q.Keeps v) (hafter : Opens after) :
    q.tokensFrom (.plain (.literal [])) (escape v ++ quote :: after)
      = (q.tokensFrom (.plain .between) after).map (.literal v :: ·) := by
  rw [Quoting.tokensFrom_append (ends_escape h.ends_eq), scan_escape_of_keeps h, tokensFrom_quote,
    tokensFrom_closing hafter]
  simp [Function.comp_def]

/-- A value that is not kept is another one. -/
theorem ne_literal_of_not_keeps {after : List Char} (hafter : Opens after) {v : List Char}
    (h : ¬ q.Keeps v) (ts : List Token) :
    q.tokensFrom (.plain (.literal [])) (escape v ++ quote :: after)
      ≠ some (.literal v :: ts) := by
  cases q with
  | escapes => exact (ne_literal_of_not_patternEscapes hafter [] v ts).1 h
  | standard =>
    -- the text ends inside the literal
    obtain ⟨front, back, rfl, hfront⟩ := List.eq_append_cons_of_mem (not_not.mp h)
    have hkeeps : Quoting.standard.Keeps front := hfront
    have hsplit : escape (front ++ nul :: back) ++ quote :: after
        = escape front ++ nul :: (escape back ++ quote :: after) := by
      simp [escape, show nul ≠ quote by decide]
    rw [hsplit, Quoting.tokensFrom_append (ends_escape hkeeps.ends_eq),
      scan_escape_of_keeps hkeeps]
    intro hnone
    cases hnone

/-! ## Texts with values -/

/-- A piece of fixed text, and the value that is put behind it as a literal, if there is one. -/
structure Piece where
  code : List Char
  /-- The tokens of the fixed text. -/
  meant : List Token
  value : Option (List Char) := none

/-- The text of a literal with doubled quotes. -/
def quoted (v : List Char) : List Char := quote :: (escape v ++ [quote])

/-- The text of some pieces. -/
def text (ps : List Piece) : List Char :=
  ps.flatMap fun p ↦ p.code ++ (p.value.map quoted).getD []

/-- The tokens that are meant by it. -/
def meant (ps : List Piece) : List Token :=
  ps.flatMap fun p ↦ p.meant ++ (p.value.map Token.literal).toList

/-- Fixed text without quotes. -/
structure Piece.Fixed (q : Quoting) (p : Piece) : Prop where
  lexed : Lexed q p.code p.meant
  unquoted : quote ∉ p.code

/-- Fixed text has no literals, and ends outside of them. -/
theorem scan_unquoted {code : List Char} (h : quote ∉ code) {m : Mode}
    (hm : ∀ read, m ≠ .literal read ∧ m ≠ .closing read) :
    ∃ done m', q.scan (.plain m) code = (done, .plain m') ∧ (∀ v, .literal v ∉ done) ∧
      ∀ read, m' ≠ .literal read ∧ m' ≠ .closing read := by
  induction code generalizing m with
  | nil => exact ⟨[], m, rfl, by simp, hm⟩
  | cons c cs ih =>
    obtain ⟨hc, hcs⟩ := List.ne_and_not_mem_of_not_mem_cons h
    have hstart : (∀ v, .literal v ∉ (start c).1) ∧
        ∀ read, (start c).2 ≠ .literal read ∧ (start c).2 ≠ .closing read := by
      unfold start
      rw [if_neg (Ne.symm hc)]
      split_ifs <;> simp
    have hstep : (∀ v, .literal v ∉ (advance m c).1) ∧
        ∀ read, (advance m c).2 ≠ .literal read ∧ (advance m c).2 ≠ .closing read := by
      cases m with
      | between => exact hstart
      | word read' =>
        rw [advance]
        split_ifs
        · simp
        · exact ⟨fun v hv ↦ hstart.1 v (by simpa [closeWord] using hv), hstart.2⟩
      | literal read' => exact absurd rfl (hm read').1
      | closing read' => exact absurd rfl (hm read').2
    obtain ⟨done, m', hscan, hdone, hm'⟩ := ih hcs hstep.2
    refine ⟨(advance m c).1 ++ done, m', ?_, fun v ↦ ?_, hm'⟩
    · rw [Quoting.scan, Quoting.advance_plain fun read ↦ (hm read).1, hscan]
    · simp [hstep.1 v, hdone v]

/-- At the end of fixed text there is a word at most that has not ended. -/
theorem Piece.Fixed.scan_eq {p : Piece} (hp : p.Fixed q) :
    ∃ m done pending, q.scan (.plain .between) p.code = (done, .plain m) ∧
      p.meant = done ++ pending ∧ (∀ v, .literal v ∉ done) ∧
      (m = .between ∧ pending = [] ∨ ∃ read, m = .word read ∧ pending = [closeWord read]) := by
  obtain ⟨m, done, pending, hscan, hfinish, hmeant⟩ := hp.lexed.scan_eq
  obtain ⟨done', m', hscan', hdone, hm⟩ :=
    scan_unquoted (q := q) hp.unquoted (m := .between) (by simp)
  obtain ⟨rfl, hmode⟩ := Prod.mk.inj (hscan.symm.trans hscan')
  obtain rfl := Reading.plain.inj hmode
  refine ⟨m, done, pending, hscan, hmeant, hdone, ?_⟩
  cases m with
  | between => exact .inl ⟨rfl, by simpa [finish] using hfinish.symm⟩
  | word read => exact .inr ⟨read, rfl, by simpa [finish] using hfinish.symm⟩
  | literal read => exact absurd rfl (hm read).1
  | closing read => exact absurd rfl (hm read).2

/-- The tokens of fixed text. -/
theorem Piece.Fixed.literal_notMem {p : Piece} (hp : p.Fixed q) (v : List Char) :
    .literal v ∉ p.meant := by
  obtain ⟨m, done, pending, -, hmeant, hdone, ⟨-, rfl⟩ | ⟨read, -, rfl⟩⟩ := hp.scan_eq
  · simpa [hmeant] using hdone v
  · simpa [hmeant, closeWord] using hdone v

/-- The literals that are meant are the values. -/
theorem literal_mem_meant {ps : List Piece} (hfixed : ∀ p ∈ ps, p.Fixed q) (v : List Char) :
    .literal v ∈ meant ps ↔ ∃ p ∈ ps, v ∈ p.value := by
  simp only [meant, List.mem_flatMap, List.mem_append]
  constructor
  · rintro ⟨p, hp, hcode | hvalue⟩
    · exact absurd hcode ((hfixed p hp).literal_notMem v)
    · exact ⟨p, hp, by simpa using hvalue⟩
  · rintro ⟨p, hp, hvalue⟩
    exact ⟨p, hp, .inr (by simpa using hvalue)⟩

/-- A literal opens behind fixed text. -/
theorem Piece.Fixed.tokensFrom_quote {p : Piece} (hp : p.Fixed q) (rest : List Char) :
    q.tokensFrom (.plain .between) (p.code ++ quote :: rest)
      = (q.tokensFrom (.plain (.literal [])) rest).map (p.meant ++ ·) := by
  obtain ⟨m, done, pending, hscan, hmeant, -, hm⟩ := hp.scan_eq
  have hopen : q.advance (.plain m) quote = (pending, .plain (.literal [])) := by
    obtain ⟨rfl, rfl⟩ | ⟨read, rfl, rfl⟩ := hm
    · exact Quoting.advance_plain (by simp) quote
    · exact Quoting.advance_plain (by simp) quote
  rw [Quoting.tokensFrom_append hp.lexed.ends_eq, hscan, Quoting.tokensFrom, hopen, ends_quote,
    hmeant]
  simp [Function.comp_def]

/-- Fixed text stands in front of other text. -/
theorem Lexed.tokensFrom_opens {a b : List Char} {ts : List Token} (ha : Lexed q a ts)
    (hb : Opens b) :
    q.tokensFrom (.plain .between) (a ++ b) = (q.tokensFrom (.plain .between) b).map (ts ++ ·) := by
  rcases b with _ | ⟨c, cs⟩
  · rw [List.append_nil, ← Quoting.tokens, ha.tokens_eq]
    simp [Quoting.tokensFrom, Quoting.finish, finish]
  · have hc : isDelimiter c = true := hb c rfl
    have hstep := Lexed.nil.tokensFrom_append (q := q) hc cs
    rw [List.nil_append] at hstep
    rw [ha.tokensFrom_append hc, hstep]
    simp [Function.comp_def]

/-- The fixed text behind another piece begins with a delimiter. -/
def Piece.Parted (p : Piece) : Prop := ∃ c cs, p.code = c :: cs ∧ isDelimiter c = true

theorem opens_cons {c : Char} (hc : isDelimiter c = true) (cs : List Char) : Opens (c :: cs) := by
  intro d hd
  obtain rfl : c = d := by simpa using hd
  exact hc

theorem opens_text {ps : List Piece} (hparted : ∀ p ∈ ps, p.Parted) : Opens (text ps) := by
  rcases ps with _ | ⟨p, ps⟩
  · intro d hd
    cases hd
  · obtain ⟨c, cs, hcode, hc⟩ := hparted p List.mem_cons_self
    rw [text, List.flatMap_cons, hcode]
    exact opens_cons hc _

/-- A text with values is lexed as it is meant when every value is kept, and only then. -/
theorem tokens_text_iff {ps : List Piece} (hfixed : ∀ p ∈ ps, p.Fixed q)
    (hparted : ∀ p ∈ ps.tail, p.Parted) :
    q.tokens (text ps) = some (meant ps) ↔ ∀ p ∈ ps, ∀ v ∈ p.value, q.Keeps v := by
  induction ps with
  | nil => exact iff_of_true rfl (by simp)
  | cons p ps ih =>
    obtain ⟨hp, hps⟩ := List.forall_mem_cons.mp hfixed
    have hafter : Opens (text ps) := opens_text hparted
    have hrest := ih hps fun p hp ↦ hparted p (List.mem_of_mem_tail hp)
    have hcancel := Option.map_injective (List.append_right_injective p.meant)
    rw [List.forall_mem_cons, ← hrest, Quoting.tokens]
    obtain ⟨code, ts, _ | v⟩ := p
    · have htext : text (⟨code, ts, none⟩ :: ps) = code ++ text ps := by simp [text]
      have hmeant : some (meant (⟨code, ts, none⟩ :: ps)) = (some (meant ps)).map (ts ++ ·) := by
        simp [meant]
      rw [htext, hmeant, hp.lexed.tokensFrom_opens hafter, hcancel.eq_iff]
      simp [Quoting.tokens]
    · have htext : text (⟨code, ts, some v⟩ :: ps)
          = code ++ quote :: (escape v ++ quote :: text ps) := by simp [text, quoted]
      have hmeant : some (meant (⟨code, ts, some v⟩ :: ps))
          = (some (.literal v :: meant ps)).map (ts ++ ·) := by simp [meant]
      rw [htext, hmeant, hp.tokensFrom_quote, hcancel.eq_iff]
      by_cases hkeeps : q.Keeps v
      · have hcons := Option.map_injective (List.cons_injective (a := Token.literal v))
        have htail : some (.literal v :: meant ps) = (some (meant ps)).map (.literal v :: ·) := rfl
        rw [tokensFrom_escape_of_keeps hkeeps hafter, htail, hcons.eq_iff]
        simp [Quoting.tokens, hkeeps]
      · exact iff_of_false (ne_literal_of_not_keeps hafter hkeeps _) fun hall ↦
          hkeeps (hall.1 v rfl)

/-- A text with values, and the tokens that are meant by it. -/
def Embeds (q : Quoting) (a : List Char) (ts : List Token) : Prop :=
  ∃ ps, a = text ps ∧ ts = meant ps ∧ (∀ p ∈ ps, p.Fixed q ∧ p.code ≠ []) ∧
    ∀ p ∈ ps.tail, p.Parted

theorem Embeds.nil : Embeds q [] [] := ⟨[], rfl, rfl, by simp, by simp⟩

/-- Fixed text. -/
theorem Embeds.code {a : List Char} {ts : List Token} (h : Lexed q a ts) (hquote : quote ∉ a)
    (hne : a ≠ []) : Embeds q a ts :=
  ⟨[⟨a, ts, none⟩], by simp [text], by simp [meant], by simpa using ⟨⟨h, hquote⟩, hne⟩, by simp⟩

/-- A value behind fixed text. -/
theorem Embeds.literal {a : List Char} {ts : List Token} (h : Lexed q a ts) (hquote : quote ∉ a)
    (hne : a ≠ []) (v : List Char) : Embeds q (a ++ quoted v) (ts ++ [.literal v]) :=
  ⟨[⟨a, ts, some v⟩], by simp [text], by simp [meant], by simpa using ⟨⟨h, hquote⟩, hne⟩, by simp⟩

/-- Two texts, of which the second one begins with a delimiter. -/
theorem Embeds.append {a b : List Char} {ts us : List Token} (ha : Embeds q a ts)
    (hb : Embeds q b us) (hopens : Opens b) : Embeds q (a ++ b) (ts ++ us) := by
  obtain ⟨ps, rfl, rfl, hps, hparted⟩ := ha
  obtain ⟨qs, rfl, rfl, hqs, hparted'⟩ := hb
  refine ⟨ps ++ qs, by simp [text], by simp [meant], ?_, ?_⟩
  · rw [List.forall_mem_append]
    exact ⟨hps, hqs⟩
  · have hall : ∀ p ∈ qs, p.Parted := by
      rcases qs with _ | ⟨p, qs⟩
      · simp
      · rw [List.forall_mem_cons]
        refine ⟨?_, hparted'⟩
        obtain ⟨c, cs, hcode⟩ := List.exists_cons_of_ne_nil (hqs p List.mem_cons_self).2
        exact ⟨c, cs, hcode, hopens c (by simp [text, hcode])⟩
    rcases ps with _ | ⟨p, ps⟩
    · exact fun p hp ↦ hall p (List.mem_of_mem_tail hp)
    · rw [List.cons_append, List.tail_cons, List.forall_mem_append]
      exact ⟨hparted, hall⟩

/-- A text with values is lexed as it is meant when each of its literals is kept, and only
then. -/
theorem Embeds.tokens_eq_iff {a : List Char} {ts : List Token} (h : Embeds q a ts) :
    q.tokens a = some ts ↔ ∀ v, .literal v ∈ ts → q.Keeps v := by
  obtain ⟨ps, rfl, rfl, hps, hparted⟩ := h
  have hfixed : ∀ p ∈ ps, p.Fixed q := fun p hp ↦ (hps p hp).1
  rw [tokens_text_iff hfixed hparted]
  constructor
  · intro hkeeps v hv
    obtain ⟨p, hp, hvalue⟩ := (literal_mem_meant hfixed v).mp hv
    exact hkeeps p hp v hvalue
  · intro hkeeps p hp v hvalue
    exact hkeeps v ((literal_mem_meant hfixed v).mpr ⟨p, hp, hvalue⟩)

/-- A text whose literals are kept. -/
theorem Embeds.lexed {a : List Char} {ts : List Token} (h : Embeds q a ts)
    (hkeeps : ∀ v, .literal v ∈ ts → q.Keeps v) : Lexed q a ts where
  tokens_eq := h.tokens_eq_iff.mpr hkeeps
  ends_eq := by
    obtain ⟨ps, rfl, rfl, hps, -⟩ := h
    have hfixed : ∀ p ∈ ps, p.Fixed q := fun p hp ↦ (hps p hp).1
    intro c hc
    obtain ⟨⟨code, ts, value⟩, hp, hc⟩ := List.mem_flatMap.mp hc
    rcases List.mem_append.mp hc with hcode | hquoted
    · exact (hfixed _ hp).lexed.ends_eq c hcode
    · cases value with
      | none => cases hquoted
      | some v =>
        have hv : q.Keeps v := hkeeps v ((literal_mem_meant hfixed v).mpr ⟨_, hp, rfl⟩)
        rcases List.mem_cons.mp hquoted with rfl | hc
        · exact ends_quote
        · rcases List.mem_append.mp hc with hc | hc
          · exact ends_escape hv.ends_eq c hc
          · rw [List.mem_singleton.mp hc]
            exact ends_quote

/-- A value without quotes is written as it is. -/
theorem escape_of_notMem {v : List Char} (h : quote ∉ v) : escape v = v := by
  induction v with
  | nil => rfl
  | cons c v ih =>
    obtain ⟨hc, hv⟩ := List.ne_and_not_mem_of_not_mem_cons h
    rw [escape_cons_of_ne (Ne.symm hc), ih hv]

end Kit.Sql
