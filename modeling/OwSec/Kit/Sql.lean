import Mathlib.Algebra.Group.Nat.Defs
import Mathlib.Data.Nat.Notation
import Mathlib.Data.List.Basic

/-!
# Conditions in SQL text

The text of a `where` clause as a database reads it: it is cut into words, text literals
and symbols, parsed into comparisons joined by `and` and `or`, and evaluated on a row.
Inside a literal a doubled quote stands for a quote, and there is no other escape.

A program that builds such a text from a fixed frame and a value has to double the quotes
of the value.  `scan_quoted` is the reason why this is enough: whatever the value is, the
scanner is inside the same literal after it as before it, so the value cannot end the
literal, and the frame alone decides how the text is parsed.

Only the fragment without parentheses around conditions is parsed; any other text is
refused, as is a column that the schema does not know.
-/

namespace Kit.Sql

universe u

/-! ## Scanning -/

/-- The single quote, which opens and closes a text literal. -/
def quote : Char := Char.ofNat 39

/-- Blanks separate words. -/
def isBlank (c : Char) : Bool := c == ' ' || c == '\t' || c == '\n' || c == '\r'

/-- The characters of a word. -/
def isWordChar (c : Char) : Bool := c.isAlphanum || c == '_'

/-- A token.  The case of an unquoted word does not matter, so words are kept in lower
case. -/
inductive Token
  | word (w : List Char)
  | literal (t : List Char)
  | symbol (c : Char)
  deriving DecidableEq, Repr

/-- The keyword `and`. -/
def Token.and : Token := .word ['a', 'n', 'd']

/-- The keyword `or`. -/
def Token.or : Token := .word ['o', 'r']

/-- The keyword `like`. -/
def Token.like : Token := .word ['l', 'i', 'k', 'e']

/-- Where the scanner is, with what it has read of the current token. -/
inductive Mode
  | between
  | word (read : List Char)
  /-- Inside a literal. -/
  | literal (read : List Char)
  /-- After a quote inside a literal: it closes the literal unless another one follows. -/
  | closing (read : List Char)
  deriving DecidableEq, Repr

/-- The word that ends here. -/
def closeWord (read : List Char) : Token := .word (read.map Char.toLower)

/-- The first character after a token. -/
def start (c : Char) : List Token × Mode :=
  if c = quote then ([], .literal [])
  else if isBlank c then ([], .between)
  else if isWordChar c then ([], .word [c])
  else ([.symbol c], .between)

/-- One character. -/
def advance : Mode → Char → List Token × Mode
  | .between, c => start c
  | .word read, c =>
    if isWordChar c then ([], .word (read ++ [c])) else (closeWord read :: (start c).1, (start c).2)
  | .literal read, c => if c = quote then ([], .closing read) else ([], .literal (read ++ [c]))
  | .closing read, c =>
    if c = quote then ([], .literal (read ++ [quote]))
    else (.literal read :: (start c).1, (start c).2)

/-- A whole text: the tokens that ended in it, and where the scanner is afterwards. -/
def scan : Mode → List Char → List Token × Mode
  | m, [] => ([], m)
  | m, c :: cs => ((advance m c).1 ++ (scan (advance m c).2 cs).1, (scan (advance m c).2 cs).2)

/-- The end of the text: an open literal is an error. -/
def finish : Mode → Option (List Token)
  | .between => some []
  | .word read => some [closeWord read]
  | .literal _ => none
  | .closing read => some [.literal read]

/-- The tokens of a text. -/
def tokens (text : List Char) : Option (List Token) :=
  (finish (scan .between text).2).map ((scan .between text).1 ++ ·)

/-- Scanning continues where it stopped. -/
theorem scan_append (m : Mode) (a b : List Char) :
    scan m (a ++ b) = ((scan m a).1 ++ (scan (scan m a).2 b).1, (scan (scan m a).2 b).2) := by
  induction a generalizing m with
  | nil => simp [scan]
  | cons c cs ih => simp [scan, ih]

/-- A value with its quotes doubled. -/
def escape (s : List Char) : List Char := s.flatMap fun c ↦ if c = quote then [quote, quote] else [c]

/-- An escaped value never leaves the literal that it stands in, and is read as itself. -/
theorem scan_escape (read s : List Char) :
    scan (.literal read) (escape s) = ([], .literal (read ++ s)) := by
  induction s generalizing read with
  | nil => simp [escape, scan]
  | cons c cs ih =>
    have hcons : escape (c :: cs) = (if c = quote then [quote, quote] else [c]) ++ escape cs := rfl
    rw [hcons, scan_append]
    by_cases hc : c = quote
    · subst hc
      have hhead : scan (.literal read) [quote, quote] = ([], .literal (read ++ [quote])) := by
        simp [scan, advance]
      rw [if_pos rfl, hhead, ih, List.append_assoc]
      rfl
    · have hhead : scan (.literal read) [c] = ([], .literal (read ++ [c])) := by
        simp [scan, advance, hc]
      rw [if_neg hc, hhead, ih, List.append_assoc]
      rfl

/-- A value between two fixed texts: the first leaves a literal open, the second closes it,
and the value is inside whatever it is. -/
theorem scan_quoted {m m' : Mode} {before after head tail : List Char} {ts ts' : List Token}
    (hbefore : scan m before = (ts, .literal head))
    (hafter : ∀ t, scan (.literal t) after = (.literal (t ++ tail) :: ts', m')) (s : List Char) :
    scan m (before ++ escape s ++ after) = (ts ++ .literal (head ++ s ++ tail) :: ts', m') := by
  rw [scan_append, scan_append, hbefore, scan_escape, hafter]
  simp

/-! ## Parsing -/

/-- One side of a comparison. -/
inductive Operand
  | text (t : List Char)
  | column (name : List Char)
  /-- A function of a column. -/
  | call (function name : List Char)
  deriving DecidableEq, Repr

/-- A comparison. -/
inductive Comparison
  | equal (l r : Operand)
  | like (l r : Operand)
  deriving DecidableEq, Repr

/-- Read an operand. -/
def operand : List Token → Option Operand
  | [.literal t] => some (.text t)
  | [.symbol '(', .literal t, .symbol ')'] => some (.text t)
  | [.word name] => some (.column name)
  | [.word function, .symbol '(', .word name, .symbol ')'] => some (.call function name)
  | _ => none

/-- Read a comparison. -/
def comparison (ts : List Token) : Option Comparison :=
  match ts.splitOn (.symbol '=') with
  | [l, r] => do return .equal (← operand l) (← operand r)
  | _ =>
    match ts.splitOn .like with
    | [l, r] => do return .like (← operand l) (← operand r)
    | _ => none

/-- Read a condition: `and` binds stronger than `or`. -/
def parse (text : List Char) : Option (List (List Comparison)) := do
  let ts ← tokens text
  (ts.splitOn .or).mapM fun branch ↦ (branch.splitOn .and).mapM comparison

/-- Tokens that are comparisons joined by `and`. -/
inductive Joined : List Token → List Comparison → Prop
  | one {ts : List Token} {c : Comparison} (h : comparison ts = some c) (hand : .and ∉ ts)
    (hor : .or ∉ ts) : Joined ts [c]
  | and {ts ts' : List Token} {c : Comparison} {cs : List Comparison} (h : comparison ts = some c)
    (hand : .and ∉ ts) (hor : .or ∉ ts) (hrest : Joined ts' cs) :
    Joined (ts ++ .and :: ts') (c :: cs)

/-- Joined comparisons can be joined. -/
theorem Joined.append {ts ts' : List Token} {cs cs' : List Comparison} (h : Joined ts cs)
    (h' : Joined ts' cs') : Joined (ts ++ .and :: ts') (cs ++ cs') := by
  induction h with
  | one hc hand hor => exact .and hc hand hor h'
  | and hc hand hor _ ih =>
    rw [List.append_assoc, List.cons_append]
    exact .and hc hand hor ih

/-- Among joined comparisons there is no `or`. -/
theorem Joined.or_notMem {ts : List Token} {cs : List Comparison} (h : Joined ts cs) :
    .or ∉ ts := by
  induction h with
  | one _ _ hor => exact hor
  | and _ _ hor _ ih =>
    have hne : Token.or ≠ Token.and := by decide
    simp only [List.mem_append, List.mem_cons, not_or]
    exact ⟨hor, hne, ih⟩

/-- Cutting joined comparisons at each `and` gives the comparisons. -/
theorem Joined.mapM_splitOn {ts : List Token} {cs : List Comparison} (h : Joined ts cs) :
    (ts.splitOn .and).mapM comparison = some cs := by
  induction h with
  | one hc hand _ =>
    rw [List.splitOn_eq_singleton hand]
    simp [hc]
  | and hc hand _ _ ih =>
    rw [List.splitOn_append_cons_self_of_not_mem hand, List.mapM_cons, hc, ih]
    rfl

/-- `text` is a conjunction of `cs`, with blanks around it. -/
def Reads (text : List Char) (cs : List Comparison) : Prop :=
  ∃ ts, scan .between text = (ts, .between) ∧ Joined ts cs

/-- Two conjunctions joined by `and` are a conjunction. -/
theorem Reads.and {a b glue : List Char} {cs ds : List Comparison} (ha : Reads a cs)
    (hb : Reads b ds) (hglue : scan .between glue = ([.and], .between)) :
    Reads (a ++ glue ++ b) (cs ++ ds) := by
  obtain ⟨ts, hts, hcs⟩ := ha
  obtain ⟨ts', hts', hds⟩ := hb
  refine ⟨ts ++ .and :: ts', ?_, hcs.append hds⟩
  rw [scan_append, scan_append, hts, hglue, hts']
  simp

/-- A conjunction is parsed as one. -/
theorem Reads.parse_eq {text : List Char} {cs : List Comparison} (h : Reads text cs) :
    parse text = some [cs] := by
  obtain ⟨ts, hts, hcs⟩ := h
  have htokens : tokens text = some ts := by simp [tokens, hts, finish]
  rw [parse, htokens, Option.bind_eq_bind, Option.bind_some,
    List.splitOn_eq_singleton hcs.or_notMem]
  simp [hcs.mapM_splitOn]

/-! ## Evaluating -/

/-- What a database engine adds to the language: its function `lower` and its operator
`like`, which takes the text and the pattern. -/
structure Dialect where
  lower : String → String
  like : String → String → Bool

/-- The text columns of a table, by lower-case name. -/
abbrev Schema (ρ : Type u) := List (List Char × (ρ → String))

section Evaluate

variable {ρ : Type u} (d : Dialect) (schema : Schema ρ)

/-- The column of a name. -/
def Schema.column (name : List Char) : Option (ρ → String) :=
  (schema.find? fun c ↦ c.1 = name).map Prod.snd

/-- The value of an operand on a row. -/
def Operand.eval : Operand → Option (ρ → String)
  | .text t => some fun _ ↦ String.ofList t
  | .column name => schema.column name
  | .call function name =>
    if function = ['l', 'o', 'w', 'e', 'r'] then (schema.column name).map (d.lower ∘ ·) else none

/-- The value of a comparison on a row. -/
def Comparison.eval : Comparison → Option (ρ → Bool)
  | .equal l r => do
    let l ← l.eval d schema
    let r ← r.eval d schema
    return fun row ↦ l row == r row
  | .like l r => do
    let l ← l.eval d schema
    let r ← r.eval d schema
    return fun row ↦ d.like (l row) (r row)

/-- The conditions of one branch. -/
def evalBranch (cs : List Comparison) : Option (List (ρ → Bool)) :=
  cs.mapM (Comparison.eval d schema)

/-- A `where` clause as a condition on rows; `none` is an error of the engine. -/
def condition (text : List Char) : Option (ρ → Bool) :=
  (parse text).bind fun branches ↦
    (branches.mapM (evalBranch d schema)).map fun branches row ↦
      branches.any fun branch ↦ branch.all fun p ↦ p row

/-- A conjunction holds of a row when each of its comparisons does. -/
theorem Reads.condition_eq {text : List Char} {cs : List Comparison} {ps : List (ρ → Bool)}
    (h : Reads text cs) (hps : evalBranch d schema cs = some ps) :
    condition d schema text = some fun row ↦ ps.all fun p ↦ p row := by
  rw [condition, h.parse_eq, Option.bind_some]
  simp [hps]

/-- `select … where … limit … offset …`: an empty text is no condition, and the numbers must
be signed 64-bit integers.  `none` is an error of the engine. -/
def select (text : List Char) (offset limit : ℕ) (rows : List ρ) : Option (List ρ) :=
  if offset < 2 ^ 63 ∧ limit < 2 ^ 63 then
    (if text.isEmpty then some fun _ ↦ true else condition d schema text).map fun p ↦
      ((rows.filter p).drop offset).take limit
  else none

/-- What is selected are rows that satisfy the condition. -/
theorem of_mem_select {text : List Char} {offset limit : ℕ} {rows selected : List ρ}
    {p : ρ → Bool} (h : select d schema text offset limit rows = some selected)
    (hp : condition d schema text = some p) (htext : text ≠ []) {row : ρ} (hrow : row ∈ selected) :
    row ∈ rows ∧ p row := by
  have hempty : text.isEmpty = false := by simpa using htext
  rw [select, hempty, if_neg Bool.false_ne_true, hp] at h
  split at h
  · rw [← Option.some.inj h] at hrow
    exact List.mem_filter.mp (List.mem_of_mem_drop (List.mem_of_mem_take hrow))
  · cases h

end Evaluate

/-! ## The pattern language

The operator `like` without an escape character: `%` stands for any text and `_` for any
character. -/

/-- Whether a text matches a pattern. -/
def matchesPattern : List Char → List Char → Bool
  | [], text => text.isEmpty
  | '%' :: pattern, text => text.tails.any (matchesPattern pattern)
  | p :: pattern, text =>
    match text with
    | [] => false
    | c :: text => (p == '_' || p == c) && matchesPattern pattern text

end Kit.Sql
