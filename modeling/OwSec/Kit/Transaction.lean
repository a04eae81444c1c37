import Mathlib.Data.Option.Basic

/-!
# Transactions with side effects

A transaction opens, executes one statement and commits.  Each of the three calls can fail;
what was executed is rolled back unless the commit goes through.  A program that wraps a
transaction may do something of its own between the statement and the commit, and that is
not rolled back: `transact` has it as a parameter, the side effect.

`transact_iff` says when a failed transaction leaves a property of the state alone, in terms
of the side effect only.
-/

namespace Kit

universe u v

/-- The calls of a transaction. -/
inductive DbCall
  | begin | execute | commit
  deriving DecidableEq, Repr

variable {σ : Type u} {τ : Type v}

/-- Run a transaction.  `failure` is the call that fails, if one does; `statement` is the state
of the database after the statement, or `none` when the database refuses it; `store` puts that
state in place; and `sideEffect` happens once the statement was executed. -/
def transact (failure : Option DbCall) (statement : Option τ) (store : τ → σ → σ)
    (sideEffect : σ → σ) (s : σ) : Bool × σ :=
  match failure, statement with
  | some .begin, _ | some .execute, _ | _, none => (false, s)
  | some .commit, some _ => (false, sideEffect s)
  | none, some t => (true, sideEffect (store t s))

section Transact

variable {failure : Option DbCall} {statement : Option τ} {store : τ → σ → σ}
  {sideEffect : σ → σ} {s : σ}

/-- A transaction succeeds when no call fails and the database accepts the statement. -/
theorem transact_fst : (transact failure statement store sideEffect s).1 = true ↔
    failure = none ∧ statement.isSome = true := by
  rcases failure with _ | _ | _ | _ <;> rcases statement with _ | t <;> simp [transact]

/-- A transaction that fails has at most had its side effect, and only when the commit
failed. -/
theorem transact_of_false (h : (transact failure statement store sideEffect s).1 = false) :
    (transact failure statement store sideEffect s).2 =
      if failure = some .commit ∧ statement.isSome = true then sideEffect s else s := by
  rcases failure with _ | _ | _ | _ <;> rcases statement with _ | t <;> simp_all [transact]

/-- When a property of the state survives every failed transaction: the commit does not fail
after the statement was executed, or the side effect alone keeps the property. -/
theorem transact_iff {P : σ → Prop} (hs : P s) :
    ((transact failure statement store sideEffect s).1 = false →
      P (transact failure statement store sideEffect s).2) ↔
    (failure = some .commit → statement.isSome = true → P (sideEffect s)) := by
  constructor
  · rintro h rfl hsome
    obtain ⟨t, rfl⟩ := Option.isSome_iff_exists.mp hsome
    exact h rfl
  · intro h hfalse
    rw [transact_of_false hfalse]
    split
    · rename_i hcommit
      exact h hcommit.1 hcommit.2
    · exact hs

end Transact

end Kit
