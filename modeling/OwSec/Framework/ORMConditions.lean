import OwSec.Framework.ORM
import OwSec.Storage.UserDB

/-!
# Conditions

The texts of conditions that `framework/orm.h` makes from a field, a comparison and a value, and
from conditions and operators.

A value in a text is put between quotes, and its quotes are doubled.  Nothing else is done to it,
whatever the database.

The variadic `OP` opens a bracket once, and closes one in every call but the outermost.
-/

namespace OwSec.ORM

open Kit Sql

/-- `SqlComparison`. -/
inductive SqlComparison
  | eq
  | neq
  | lt
  | lte
  | gt
  | gte
  deriving DecidableEq, Repr

/-- `SqlBinaryOp`. -/
inductive SqlBinaryOp
  | and
  | or
  deriving DecidableEq, Repr

/-- `SQLCOMPS`. -/
def sqlComps : SqlComparison → String
  | .eq => "="
  | .neq => "!="
  | .lt => "<"
  | .lte => "<="
  | .gt => ">"
  | .gte => ">="

/-- `BOPS`. -/
def bops : SqlBinaryOp → String
  | .and => " and "
  | .or => " or "

/-- The value of a comparison, by its type. -/
inductive Operand
  | bool (v : Bool)
  /-- The integers of all widths. -/
  | int (v : ℤ)
  /-- `std::string` and `const char *`. -/
  | text (v : String)

/-- `DB::OP` with a field; `none` is an assertion that fails. -/
def DB.opField (db : DB) (f : String) (o : SqlComparison) (v : Operand) : Option String :=
  if validFieldName db.fieldNames_ f then
    some <|
      match v with
      | .bool v => "(" ++ f ++ sqlComps o ++ (if v then "true" else "false") ++ ")"
      | .int v => "(" ++ f ++ sqlComps o ++ toString v ++ ")"
      | .text v => "(" ++ f ++ sqlComps o ++ "'" ++ escape v ++ "')"
  else none

/-- `WHERE_AND_`. -/
def whereAnd_ (result : String) : List (String × Operand) → String
  | [] => result
  | (fieldName, value) :: args =>
    let before := result ++ (if result.isEmpty then "" else " and ") ++ fieldName ++ "="
    match value with
    | .text v =>
      if v.isEmpty then whereAnd_ result args
      else whereAnd_ (before ++ "'" ++ escape v ++ "'") args
    | .bool v => whereAnd_ (before ++ (if v then "true" else "false")) args
    | .int v => whereAnd_ (before ++ toString v) args

/-- `WHERE_AND`. -/
def whereAnd (args : List (String × Operand)) : String := whereAnd_ "" args

/-- `DB::OP` with two conditions. -/
def op₂ (p₁ : String) (bop : SqlBinaryOp) (p₂ : String) : String :=
  "(" ++ p₁ ++ bops bop ++ p₂ ++ ")"

/-- `DB::OP(bool, …)`: a condition, and the others with the operators in front of them. -/
def opParan (p₁ : String) (bop : SqlBinaryOp) (p₂ : String) :
    List (SqlBinaryOp × String) → String
  | [] => p₁ ++ bops bop ++ p₂ ++ ")"
  | (bop', p₃) :: more => p₁ ++ bops bop ++ opParan p₂ bop' p₃ more ++ ")"

/-- `DB::OP` with two conditions or more. -/
def op (p₁ : String) (bop : SqlBinaryOp) (p₂ : String) : List (SqlBinaryOp × String) → String
  | [] => op₂ p₁ bop p₂
  | (bop', p₃) :: more => "(" ++ p₁ ++ bops bop ++ opParan p₂ bop' p₃ more

/-! ## Combined conditions -/

variable {q : Quoting}

/-- The token of an operator. -/
def SqlBinaryOp.token : SqlBinaryOp → Token
  | .and => .and
  | .or => .or

/-- A text that is lexed to its end, and has balanced brackets. -/
structure Condition (q : Quoting) where
  text : String
  tokens : List Token
  lexed : Lexed q text.toList tokens
  matched : Matched tokens

/-- Conditions with the operators between them. -/
def chain (p : Condition q) : List (SqlBinaryOp × Condition q) → List Token
  | [] => p.tokens
  | (bop, p') :: more => p.tokens ++ bop.token :: chain p' more

/-- The texts of conditions. -/
def texts (more : List (SqlBinaryOp × Condition q)) : List (SqlBinaryOp × String) :=
  more.map fun m ↦ (m.1, m.2.text)

/-- A chain is balanced. -/
theorem matched_chain (p : Condition q) (more : List (SqlBinaryOp × Condition q)) :
    Matched (chain p more) := by
  induction more generalizing p with
  | nil => exact p.matched
  | cons m more ih =>
    obtain ⟨bop, p'⟩ := m
    have hop : Matched [bop.token] := by cases bop <;> exact .other (by decide) (by decide)
    exact p.matched.append (hop.append (ih p'))

/-- Two texts with an operator between them. -/
theorem lexed_bops {a b : String} {ts us : List Token} (ha : Lexed q a.toList ts)
    (hb : Lexed q b.toList us) (bop : SqlBinaryOp) :
    Lexed q (a ++ bops bop ++ b).toList (ts ++ bop.token :: us) := by
  cases bop with
  | and =>
    have hand : Lexed q ['a', 'n', 'd'] [.and] := lexed_word (by decide) (by decide)
    simpa [bops, SqlBinaryOp.token] using (ha.glue hand separates_blank).glue hb separates_blank
  | or =>
    have hor : Lexed q ['o', 'r'] [.or] := lexed_word (by decide) (by decide)
    simpa [bops, SqlBinaryOp.token] using (ha.glue hor separates_blank).glue hb separates_blank

/-- A bracket behind a text. -/
theorem lexed_closing {a : String} {ts : List Token} (ha : Lexed q a.toList ts) :
    Lexed q (a ++ ")").toList (ts ++ [closing]) := by
  simpa using ha.glue .nil separates_closing

/-- A bracket in front of a text. -/
theorem lexed_opening {a : String} {ts : List Token} (ha : Lexed q a.toList ts) :
    Lexed q ("(" ++ a).toList (opening :: ts) := by
  simpa using Lexed.nil.glue ha separates_opening

/-- Each call closes a bracket. -/
theorem lexed_opParan (p₁ : Condition q) (bop : SqlBinaryOp) (p₂ : Condition q)
    (more : List (SqlBinaryOp × Condition q)) :
    Lexed q (opParan p₁.text bop p₂.text (texts more)).toList
      (chain p₁ ((bop, p₂) :: more) ++ List.replicate (more.length + 1) closing) := by
  induction more generalizing p₁ bop p₂ with
  | nil => exact lexed_closing (lexed_bops p₁.lexed p₂.lexed bop)
  | cons m more ih =>
    obtain ⟨bop', p₃⟩ := m
    have hcall := lexed_closing (lexed_bops p₁.lexed (ih p₂ bop' p₃) bop)
    rw [List.length_cons, List.replicate_succ', chain]
    simpa [texts, opParan] using hcall

/-- The outermost call opens a bracket, and closes one if there are two conditions only. -/
theorem lexed_op (p₁ : Condition q) (bop : SqlBinaryOp) (p₂ : Condition q)
    (more : List (SqlBinaryOp × Condition q)) :
    Lexed q (op p₁.text bop p₂.text (texts more)).toList
      (opening :: chain p₁ ((bop, p₂) :: more) ++
        List.replicate (max 1 more.length) closing) := by
  rcases more with _ | ⟨⟨bop', p₃⟩, more⟩
  · have hcall := lexed_closing (lexed_opening (lexed_bops p₁.lexed p₂.lexed bop))
    simpa [texts, op, op₂, chain, String.append_assoc] using hcall
  · have hcall := lexed_opening (lexed_bops p₁.lexed (lexed_opParan p₂ bop' p₃ more) bop)
    have hmax : max 1 (more.length + 1) = more.length + 1 := by omega
    rw [List.length_cons, hmax, chain]
    simpa [texts, op, String.append_assoc] using hcall

/-- The conditions and the operators are one expression in brackets. -/
def IsSingle (q : Quoting) (result : String) (ts : List Token) : Prop :=
  q.tokens result.toList = some (bracketed ts) ∧ Matched (bracketed ts)

/-- Conditions are combined to one expression as long as there are no more than three of them. -/
theorem op_isSingle_iff (p₁ : Condition q) (bop : SqlBinaryOp) (p₂ : Condition q)
    (more : List (SqlBinaryOp × Condition q)) :
    IsSingle q (op p₁.text bop p₂.text (texts more)) (chain p₁ ((bop, p₂) :: more)) ↔
      more.length + 2 ≤ 3 := by
  have hop := (lexed_op p₁ bop p₂ more).tokens_eq
  have hmatched : Matched (bracketed (chain p₁ ((bop, p₂) :: more))) := .wrap (matched_chain _ _)
  rw [IsSingle, hop, and_iff_left hmatched]
  constructor
  · intro heq
    have hlength := congrArg List.length (Option.some.inj heq)
    simp only [bracketed, List.length_cons, List.length_append, List.length_replicate,
      List.length_nil] at hlength
    omega
  · intro hlength
    have hmax : max 1 more.length = 1 := by omega
    rw [hmax]
    rfl

/-- A condition without brackets. -/
def Condition.plain (text : String) (tokens : List Token) (hlexed : Lexed q text.toList tokens)
    (hopening : opening ∉ tokens) (hclosing : closing ∉ tokens) : Condition q :=
  ⟨text, tokens, hlexed, .of_notMem hopening hclosing⟩

def sampleA : Condition .standard :=
  .plain "a=1" [.word ['a'], .symbol '=', .word ['1']] (.of_any (by decide) (by decide))
    (by decide) (by decide)

def sampleB : Condition .standard :=
  .plain "b=2" [.word ['b'], .symbol '=', .word ['2']] (.of_any (by decide) (by decide))
    (by decide) (by decide)

def sampleC : Condition .standard :=
  .plain "c=3" [.word ['c'], .symbol '=', .word ['3']] (.of_any (by decide) (by decide))
    (by decide) (by decide)

def sampleD : Condition .standard :=
  .plain "d=4" [.word ['d'], .symbol '=', .word ['4']] (.of_any (by decide) (by decide))
    (by decide) (by decide)

/-- Three conditions are one expression, and a fourth one is too many. -/
theorem op_isSingle_iff_samples :
    IsSingle .standard (op "a=1" .and "b=2" [(.or, "c=3")])
        (chain sampleA [(.and, sampleB), (.or, sampleC)]) ∧
      ¬ IsSingle .standard (op "a=1" .and "b=2" [(.or, "c=3"), (.and, "d=4")])
        (chain sampleA [(.and, sampleB), (.or, sampleC), (.and, sampleD)]) :=
  ⟨(op_isSingle_iff sampleA .and sampleB [(.or, sampleC)]).mpr (by decide),
    fun h ↦ absurd
      ((op_isSingle_iff sampleA .and sampleB [(.or, sampleC), (.and, sampleD)]).mp h) (by decide)⟩

/-- Four conditions, with a bracket too many. -/
theorem op_four :
    op "a=1" .and "b=2" [(.or, "c=3"), (.and, "d=4")] = "(a=1 and b=2 or c=3 and d=4))" ∧
      ¬ ∃ ts, Quoting.standard.tokens "(a=1 and b=2 or c=3 and d=4))".toList = some ts ∧
        Matched ts := by
  refine ⟨by decide, ?_⟩
  rintro ⟨ts, hts, hmatched⟩
  have hcount := hmatched.count_eq (by decide)
  have hcounts : (Quoting.standard.tokens "(a=1 and b=2 or c=3 and d=4))".toList).map
      (fun ts ↦ (ts.count opening, ts.count closing)) = some (1, 2) := by decide
  rw [hts] at hcounts
  have hpair := Prod.mk.inj (Option.some.inj hcounts)
  omega

end OwSec.ORM
