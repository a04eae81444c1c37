import Mathlib.Algebra.Group.Int.Defs
import OwSec.Kit.Schema

/-!
# Expressions in SQL text

The expressions that stand in statements: values, columns, parameters and calls, with `+`,
comparisons, `and` and `or`.  An operator of a higher level binds less, brackets put an expression
where an operand is expected, and what is missing from the text are the values of the parameters.

`Derives` is the grammar and `parseAt` a parser for it.  `Derives.parseAt_eq` takes the one to the
other, so that a text that is put together along the grammar is parsed as it was meant.  Operators
of one level are grouped from the right; those that can follow each other are associative.
-/

namespace Kit.Sql

/-- What a column holds. -/
inductive Value
  | int (n : ℤ)
  | text (s : String)
  | bool (b : Bool)
  | blob (bytes : List UInt8)
  deriving DecidableEq, Repr

/-- The comparisons. -/
inductive Comparator
  | eq
  | ne
  | lt
  | le
  | gt
  | ge
  | like
  deriving DecidableEq, Repr

/-- The operators between two expressions. -/
inductive Operator
  | plus
  | compare (c : Comparator)
  | and
  | or
  deriving DecidableEq, Repr

/-- An expression. -/
inductive Expression
  | value (v : Value)
  | column (name : List Char)
  /-- A value that is bound to the statement, counted from zero. -/
  | parameter (k : ℕ)
  | call (function : List Char) (e : Expression)
  | binary (o : Operator) (l r : Expression)
  deriving DecidableEq, Repr

/-! ## Placeholders -/

/-- A token, or the place of a parameter. -/
inductive Item
  | token (t : Token)
  | parameter (k : ℕ)
  deriving DecidableEq, Repr

/-- How a database has the places of parameters written. -/
inductive Placeholders
  /-- Question marks, for one parameter after the other. -/
  | marks
  /-- A dollar with the number of the parameter, counted from one. -/
  | numbers
  deriving DecidableEq, Repr

/-- The number that a word is. -/
def numeral (w : List Char) : Option ℕ :=
  if w ≠ [] ∧ w.all Char.isDigit = true then some (Nat.ofDigitChars 10 w 0) else none

/-- Digits are the number that they are the digits of. -/
theorem numeral_toDigits (n : ℕ) : numeral (Nat.toDigits 10 n) = some n := by
  have hdigits : (Nat.toDigits 10 n).all Char.isDigit = true :=
    List.all_eq_true.mpr fun c hc ↦ Nat.isDigit_of_mem_toDigits (by decide) (by decide) hc
  rw [numeral, if_pos ⟨Nat.toDigits_ne_nil, hdigits⟩, Nat.ofDigitChars_ten_toDigits]

/-- The tokens of a statement with its parameters, `k` of which stand before. -/
def items : Placeholders → ℕ → List Token → List Item
  | _, _, [] => []
  | .marks, k, t :: ts =>
    if t = .symbol '?' then .parameter k :: items .marks (k + 1) ts
    else .token t :: items .marks k ts
  | .numbers, k, .symbol '$' :: .word w :: ts =>
    match numeral w with
    | some (n + 1) => .parameter n :: items .numbers (k + 1) ts
    | _ => .token (.symbol '$') :: .token (.word w) :: items .numbers k ts
  | .numbers, k, t :: ts => .token t :: items .numbers k ts

/-! ## The grammar -/

/-- How weakly an operator binds. -/
def Operator.level : Operator → ℕ
  | .plus => 1
  | .compare _ => 2
  | .and => 3
  | .or => 4

/-- What stands to the right of an operator: comparisons do not follow each other. -/
def Operator.right : Operator → ℕ
  | .compare _ => 1
  | o => o.level

/-- The tokens of a comparison. -/
def Comparator.tokens : Comparator → List Token
  | .eq => [.symbol '=']
  | .ne => [.symbol '!', .symbol '=']
  | .lt => [.symbol '<']
  | .le => [.symbol '<', .symbol '=']
  | .gt => [.symbol '>']
  | .ge => [.symbol '>', .symbol '=']
  | .like => [.like]

/-- The tokens of an operator. -/
def Operator.tokens : Operator → List Token
  | .plus => [.symbol '+']
  | .compare c => c.tokens
  | .and => [.and]
  | .or => [.or]

/-- The words that are no names. -/
def reserved : List (List Char) :=
  ["select", "from", "where", "order", "by", "asc", "desc", "limit", "offset", "insert", "into",
    "values", "update", "set", "delete", "and", "or", "like", "true", "false"].map String.toList

/-- The expression that a word is. -/
def wordExpression (w : List Char) : Option Expression :=
  if w = "true".toList then some (.value (.bool true))
  else if w = "false".toList then some (.value (.bool false))
  else
    match numeral w with
    | some n => some (.value (.int n))
    | none => if w ∈ reserved then none else some (.column w)

/-- A word that can be the name of a table or a column. -/
def IsIdentifier (w : List Char) : Prop := w ∉ reserved ∧ numeral w = none

instance : DecidablePred IsIdentifier := fun _ ↦ inferInstanceAs (Decidable (_ ∧ _))

/-- The name of a column is that column. -/
theorem IsIdentifier.wordExpression_eq {w : List Char} (h : IsIdentifier w) :
    wordExpression w = some (.column w) := by
  have htrue : w ≠ "true".toList := fun heq ↦ h.1 (heq ▸ by decide)
  have hfalse : w ≠ "false".toList := fun heq ↦ h.1 (heq ▸ by decide)
  rw [wordExpression, if_neg htrue, if_neg hfalse, h.2]
  exact if_neg h.1

/-- Items that are an expression of a level: an operator of that level, or of a lower one, is the
outermost one. -/
inductive Derives : ℕ → List Item → Expression → Prop
  | parameter (k : ℕ) : Derives 0 [.parameter k] (.parameter k)
  | text (t : List Char) : Derives 0 [.token (.literal t)] (.value (.text (String.ofList t)))
  | word {w : List Char} {e : Expression} (h : wordExpression w = some e) :
    Derives 0 [.token (.word w)] e
  | negative {w : List Char} {n : ℕ} (h : numeral w = some n) :
    Derives 0 [.token (.symbol '-'), .token (.word w)] (.value (.int (-n)))
  | enclosed {is : List Item} {e : Expression} (h : Derives 4 is e) :
    Derives 0 (.token opening :: (is ++ [.token closing])) e
  | call {w : List Char} {is : List Item} {e : Expression} (hw : w ∉ reserved)
    (h : Derives 4 is e) :
    Derives 0 (.token (.word w) :: .token opening :: (is ++ [.token closing])) (.call w e)
  | ascend {level : ℕ} {is : List Item} {e : Expression} (h : Derives level is e) :
    Derives (level + 1) is e
  | binary {o : Operator} {ls rs : List Item} {l r : Expression} (hl : Derives (o.level - 1) ls l)
    (hr : Derives o.right rs r) :
    Derives o.level (ls ++ o.tokens.map Item.token ++ rs) (.binary o l r)

/-- An expression of a level stands where one of a higher level is expected. -/
theorem Derives.mono {level level' : ℕ} {is : List Item} {e : Expression}
    (h : Derives level is e) (hle : level ≤ level') : Derives level' is e := by
  induction hle with
  | refl => exact h
  | step _ ih => exact ih.ascend

/-! ## The parser -/

/-- The operator at the beginning. -/
def readOperator : List Item → Option (Operator × List Item)
  | .token (.symbol '+') :: rest => some (.plus, rest)
  | .token (.symbol '=') :: rest => some (.compare .eq, rest)
  | .token (.symbol '!') :: .token (.symbol '=') :: rest => some (.compare .ne, rest)
  | .token (.symbol '<') :: .token (.symbol '=') :: rest => some (.compare .le, rest)
  | .token (.symbol '<') :: rest => some (.compare .lt, rest)
  | .token (.symbol '>') :: .token (.symbol '=') :: rest => some (.compare .ge, rest)
  | .token (.symbol '>') :: rest => some (.compare .gt, rest)
  | .token (.word w) :: rest =>
    if Token.word w = .like then some (.compare .like, rest)
    else if Token.word w = .and then some (.and, rest)
    else if Token.word w = .or then some (.or, rest)
    else none
  | _ => none

/-- The operator at the beginning, if it is one of this level. -/
def operatorAt (level : ℕ) (is : List Item) : Option (Operator × List Item) :=
  (readOperator is).filter fun o ↦ o.1.level = level

/-- The bracket that closes an expression. -/
def closeBracket (e : Expression) : List Item → Option (Expression × List Item)
  | .token (.symbol ')') :: rest => some (e, rest)
  | _ => none

/-- The parser: the expression of a level at the beginning, and what stands behind it. -/
def parseAt : ℕ → ℕ → List Item → Option (Expression × List Item)
  | 0, _, _ => none
  | fuel + 1, 0, is =>
    match is with
    | .parameter k :: rest => some (.parameter k, rest)
    | .token (.literal t) :: rest => some (.value (.text (String.ofList t)), rest)
    | .token (.symbol '-') :: .token (.word w) :: rest =>
      (numeral w).map fun n ↦ (.value (.int (-n)), rest)
    | .token (.symbol '(') :: rest => (parseAt fuel 4 rest).bind fun p ↦ closeBracket p.1 p.2
    | .token (.word w) :: .token (.symbol '(') :: rest =>
      if w ∈ reserved then none
      else (parseAt fuel 4 rest).bind fun p ↦ closeBracket (.call w p.1) p.2
    | .token (.word w) :: rest => (wordExpression w).map (·, rest)
    | _ => none
  | fuel + 1, level + 1, is =>
    (parseAt fuel level is).bind fun p ↦
      match operatorAt (level + 1) p.2 with
      | some (o, rest) => (parseAt fuel o.right rest).map fun p' ↦ (.binary o p.1 p'.1, p'.2)
      | none => some p

/-- The expression at the beginning. -/
def parseExpression (is : List Item) : Option (Expression × List Item) :=
  parseAt (5 * is.length + 5) 4 is

/-- What does not go on with an expression of a level. -/
def Stops (level : ℕ) (rest : List Item) : Prop :=
  rest.head? ≠ some (.token opening) ∧ ∀ p, readOperator rest = some p → level < p.1.level

theorem Stops.mono {level level' : ℕ} {rest : List Item} (h : Stops level' rest)
    (hle : level ≤ level') : Stops level rest :=
  ⟨h.1, fun p hp ↦ Nat.lt_of_le_of_lt hle (h.2 p hp)⟩

/-- Nothing goes on behind the end. -/
theorem stops_nil (level : ℕ) : Stops level [] := ⟨by simp, by simp [readOperator]⟩

/-- What begins with something else than an operator. -/
theorem stops_cons {i : Item} {rest : List Item} (hopening : i ≠ .token opening)
    (hi : readOperator (i :: rest) = none) (level : ℕ) : Stops level (i :: rest) :=
  ⟨by simpa using hopening, by simp [hi]⟩

/-- A closing bracket. -/
theorem stops_closing (level : ℕ) (rest : List Item) : Stops level (.token closing :: rest) :=
  stops_cons (by decide) rfl level

/-- An expression does not begin as an operator goes on. -/
theorem Derives.head_ne {level : ℕ} {is : List Item} {e : Expression} (h : Derives level is e)
    (rest : List Item) : (is ++ rest).head? ≠ some (.token (.symbol '=')) := by
  induction h generalizing rest with
  | parameter k => simp
  | text t => simp
  | word _ => simp
  | negative _ => simp
  | enclosed _ _ => simp [opening]
  | call _ _ _ => simp
  | ascend _ ih => exact ih rest
  | binary _ _ ihl _ =>
    rw [List.append_assoc, List.append_assoc]
    exact ihl _

theorem Derives.length_pos {level : ℕ} {is : List Item} {e : Expression}
    (h : Derives level is e) : 0 < is.length := by
  induction h with
  | ascend _ ih => exact ih
  | binary _ _ ihl _ => simp only [List.length_append]; omega
  | _ => simp

/-- The operator in front of an operand. -/
theorem readOperator_append (o : Operator) {rest : List Item}
    (h : rest.head? ≠ some (.token (.symbol '='))) :
    readOperator (o.tokens.map Item.token ++ rest) = some (o, rest) := by
  rcases o with _ | (_ | _ | _ | _ | _ | _ | _) | _ | _
  case compare.lt =>
    change readOperator (.token (.symbol '<') :: rest) = _
    unfold readOperator
    split <;> simp_all
  case compare.gt =>
    change readOperator (.token (.symbol '>') :: rest) = _
    unfold readOperator
    split <;> simp_all
  all_goals rfl

/-- An operator goes on behind its left operand. -/
theorem stops_operator (o : Operator) {rest : List Item}
    (h : rest.head? ≠ some (.token (.symbol '='))) :
    Stops (o.level - 1) (o.tokens.map Item.token ++ rest) := by
  refine ⟨?_, fun p hp ↦ ?_⟩
  · rcases o with _ | (_ | _ | _ | _ | _ | _ | _) | _ | _ <;>
      simp [Operator.tokens, Comparator.tokens, opening, Token.like, Token.and, Token.or]
  · rw [readOperator_append o h] at hp
    obtain rfl := Option.some.inj hp
    cases o <;> simp [Operator.level]

/-! ## The grammar and the parser -/

/-- A word that no bracket follows. -/
theorem parseAt_word {w : List Char} {rest : List Item} (h : rest.head? ≠ some (.token opening))
    (fuel : ℕ) :
    parseAt (fuel + 1) 0 (.token (.word w) :: rest) = (wordExpression w).map (·, rest) := by
  unfold parseAt
  split <;> simp_all [opening]

/-- Brackets. -/
theorem parseAt_opening (fuel : ℕ) (rest : List Item) :
    parseAt (fuel + 1) 0 (.token opening :: rest) =
      (parseAt fuel 4 rest).bind fun p ↦ closeBracket p.1 p.2 := rfl

/-- A call. -/
theorem parseAt_call {w : List Char} (hw : w ∉ reserved) (fuel : ℕ) (rest : List Item) :
    parseAt (fuel + 1) 0 (.token (.word w) :: .token opening :: rest) =
      (parseAt fuel 4 rest).bind fun p ↦ closeBracket (.call w p.1) p.2 := if_neg hw

/-- An operator of the level behind its left operand. -/
theorem parseAt_operator {fuel level : ℕ} {is rest : List Item} {l : Expression} {o : Operator}
    (hl : parseAt fuel level is = some (l, o.tokens.map Item.token ++ rest))
    (ho : o.level = level + 1) (hrest : rest.head? ≠ some (.token (.symbol '='))) :
    parseAt (fuel + 1) (level + 1) is =
      (parseAt fuel o.right rest).map fun p ↦ (.binary o l p.1, p.2) := by
  have hread : operatorAt (level + 1) (o.tokens.map Item.token ++ rest) = some (o, rest) := by
    rw [operatorAt, readOperator_append o hrest]
    simp [Option.filter, ho]
  rw [parseAt, hl, Option.bind_some, hread]

/-- No operator of the level. -/
theorem parseAt_ascend {fuel level : ℕ} {is rest : List Item} {e : Expression}
    (he : parseAt fuel level is = some (e, rest)) (hrest : Stops (level + 1) rest) :
    parseAt (fuel + 1) (level + 1) is = some (e, rest) := by
  have hread : operatorAt (level + 1) rest = none := by
    rw [operatorAt, Option.filter_eq_none_iff]
    intro p hp
    have hlt := hrest.2 p hp
    simp only [decide_eq_true_eq]
    omega
  rw [parseAt, he, Option.bind_some, hread]

/-- What the grammar derives is parsed, whatever stands behind it. -/
theorem Derives.parseAt_eq {level : ℕ} {is : List Item} {e : Expression} (h : Derives level is e)
    {rest : List Item} (hrest : Stops level rest) {fuel : ℕ}
    (hfuel : 5 * is.length + level < fuel) :
    parseAt fuel level (is ++ rest) = some (e, rest) := by
  induction h generalizing rest fuel with
  | parameter k =>
    obtain ⟨fuel, rfl⟩ := Nat.exists_eq_add_one.mpr (Nat.zero_lt_of_lt hfuel)
    rfl
  | text t =>
    obtain ⟨fuel, rfl⟩ := Nat.exists_eq_add_one.mpr (Nat.zero_lt_of_lt hfuel)
    rfl
  | word hw =>
    obtain ⟨fuel, rfl⟩ := Nat.exists_eq_add_one.mpr (Nat.zero_lt_of_lt hfuel)
    rw [List.singleton_append, parseAt_word hrest.1, hw, Option.map_some]
  | negative hw =>
    obtain ⟨fuel, rfl⟩ := Nat.exists_eq_add_one.mpr (Nat.zero_lt_of_lt hfuel)
    simp [parseAt, hw]
  | enclosed _ ih =>
    obtain ⟨fuel, rfl⟩ := Nat.exists_eq_add_one.mpr (Nat.zero_lt_of_lt hfuel)
    simp only [List.length_cons, List.length_append, List.length_nil] at hfuel
    have hinner : parseAt fuel 4 _ = _ := ih (stops_closing 4 rest) (by omega)
    rw [List.cons_append, List.append_assoc, List.singleton_append, parseAt_opening, hinner]
    rfl
  | call hw _ ih =>
    obtain ⟨fuel, rfl⟩ := Nat.exists_eq_add_one.mpr (Nat.zero_lt_of_lt hfuel)
    simp only [List.length_cons, List.length_append, List.length_nil] at hfuel
    have hinner : parseAt fuel 4 _ = _ := ih (stops_closing 4 rest) (by omega)
    rw [List.cons_append, List.cons_append, List.append_assoc, List.singleton_append,
      parseAt_call hw, hinner]
    rfl
  | ascend _ ih =>
    obtain ⟨fuel, rfl⟩ := Nat.exists_eq_add_one.mpr (Nat.zero_lt_of_lt hfuel)
    exact parseAt_ascend (ih (hrest.mono (Nat.le_succ _)) (by omega)) hrest
  | @binary o ls rs l r hl hr ihl ihr =>
    obtain ⟨fuel, rfl⟩ := Nat.exists_eq_add_one.mpr (Nat.zero_lt_of_lt hfuel)
    have hlevel : o.level = o.level - 1 + 1 := by cases o <;> rfl
    have hright : o.right ≤ o.level := by cases o <;> simp [Operator.right, Operator.level]
    have htokens : 0 < (o.tokens.map Item.token).length := by
      rcases o with _ | (_ | _ | _ | _ | _ | _ | _) | _ | _ <;> decide
    have hpos := hl.length_pos
    simp only [List.length_append] at hfuel
    have hleft : parseAt fuel _ _ = _ := ihl (stops_operator o (hr.head_ne rest)) (by omega)
    have hgo := parseAt_operator hleft hlevel (hr.head_ne rest)
    have hoperand : parseAt fuel _ _ = _ := ihr (hrest.mono hright) (by omega)
    rw [hlevel, List.append_assoc, List.append_assoc, hgo, hoperand, Option.map_some]

/-- An expression is parsed up to where it stops. -/
theorem Derives.parseExpression_eq {is : List Item} {e : Expression} (h : Derives 4 is e)
    {rest : List Item} (hrest : Stops 4 rest) :
    parseExpression (is ++ rest) = some (e, rest) :=
  h.parseAt_eq hrest (by simp only [List.length_append]; omega)

/-! ## Meaning -/

/-- What a database adds to the language: how values compare, and its functions. -/
structure Engine where
  compare : Comparator → Value → Value → Option Bool
  call : List Char → Value → Option Value

/-- The value of an operator; `none` is an error.  Sums are signed 64-bit integers. -/
def Operator.eval (E : Engine) : Operator → Value → Value → Option Value
  | .plus, .int m, .int n =>
    if -2 ^ 63 ≤ m + n ∧ m + n < 2 ^ 63 then some (.int (m + n)) else none
  | .compare c, v, w => (E.compare c v w).map .bool
  | .and, .bool a, .bool b => some (.bool (a && b))
  | .or, .bool a, .bool b => some (.bool (a || b))
  | _, _, _ => none

/-- A sum that fits. -/
theorem Operator.eval_plus (E : Engine) {m n : ℕ} (h : m + n < 2 ^ 63) :
    Operator.plus.eval E (.int m) (.int n) = some (.int (m + n : ℕ)) := by
  have hbounds : -2 ^ 63 ≤ (m : ℤ) + n ∧ (m : ℤ) + n < 2 ^ 63 := by omega
  rw [eval, if_pos hbounds, Int.natCast_add]

section Eval

variable (E : Engine) (ps : List Value) (row : List Char → Option Value)

/-- The value of an expression, with the values of the parameters and of the columns. -/
def Expression.eval : Expression → Option Value
  | .value v => some v
  | .column name => row name
  | .parameter k => ps[k]?
  | .call function e => e.eval.bind (E.call function)
  | .binary o l r => l.eval.bind fun v ↦ r.eval.bind fun w ↦ o.eval E v w

/-- Whether an expression holds; `none` is an error. -/
def Expression.holds (e : Expression) : Option Bool :=
  match e.eval E ps row with
  | some (.bool b) => some b
  | _ => none

variable {E ps row}

theorem Expression.holds_eq_some_iff {e : Expression} {b : Bool} :
    e.holds E ps row = some b ↔ e.eval E ps row = some (.bool b) := by
  rw [holds]
  rcases e.eval E ps row with _ | _ | _ | _ | _ <;> simp

theorem Expression.eval_binary (o : Operator) {l r : Expression} {v w : Value}
    (hl : l.eval E ps row = some v) (hr : r.eval E ps row = some w) :
    (Expression.binary o l r).eval E ps row = o.eval E v w := by
  rw [eval, hl, hr, Option.bind_some, Option.bind_some]

theorem Expression.holds_compare {c : Comparator} {l r : Expression} {v w : Value}
    (hl : l.eval E ps row = some v) (hr : r.eval E ps row = some w) :
    (Expression.binary (.compare c) l r).holds E ps row = E.compare c v w := by
  have heval : (Expression.binary (.compare c) l r).eval E ps row
      = (E.compare c v w).map .bool := eval_binary _ hl hr
  rw [holds, heval]
  cases E.compare c v w <;> rfl

theorem Expression.holds_and {l r : Expression} {a b : Bool} (hl : l.holds E ps row = some a)
    (hr : r.holds E ps row = some b) :
    (Expression.binary .and l r).holds E ps row = some (a && b) := by
  rw [holds_eq_some_iff] at *
  exact eval_binary _ hl hr

end Eval

end Kit.Sql
