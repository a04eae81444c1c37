import Mathlib.Data.List.Basic

/-!
# Machines with inputs and outputs

A machine takes an input that is possible in its state, and puts something out with it.  What it
has been given and what it has put out so far is a *history*, of inputs that meet a condition
on the state before them; what holds of the empty history and is kept by one more input holds of
all.

A state is *inevitable* when the inputs of a kind lead to it in whatever order they are taken:
there is one to be taken until it is reached, and no choice among them leads astray.
-/

namespace Kit

universe u v w

/-- What happens at an input, which need not be possible: the state after it, and what is put
out. -/
structure Machine (σ : Type u) (ι : Type v) (ω : Type w) where
  next : σ → ι → Option (σ × List ω)

namespace Machine

variable {σ : Type u} {ι : Type v} {ω : Type w} (M : Machine σ ι ω)

/-- The inputs and outputs that lead from one state to another. -/
inductive History (ok : σ → ι → Prop) (s₀ : σ) : List ι → List ω → σ → Prop
  | nil : History ok s₀ [] [] s₀
  | snoc {is : List ι} {os out : List ω} {s s' : σ} {i : ι} (h : History ok s₀ is os s)
      (hok : ok s i) (hnext : M.next s i = some (s', out)) :
      History ok s₀ (is ++ [i]) (os ++ out) s'

/-- A step by an input of a kind. -/
def Moves (own : ι → Prop) (s s' : σ) : Prop :=
  ∃ i, own i ∧ ∃ out, M.next s i = some (s', out)

/-- Inputs of the kind lead to `P`, whichever are taken. -/
inductive Inevitable (own : ι → Prop) (P : σ → Prop) : σ → Prop
  | now {s : σ} (h : P s) : Inevitable own P s
  | later {s : σ} (hsome : ∃ s', M.Moves own s s')
      (hall : ∀ s', M.Moves own s s' → Inevitable own P s') : Inevitable own P s

variable {M} {ok : σ → ι → Prop} {own : ι → Prop} {P : σ → Prop} {s₀ s : σ} {is : List ι}
  {os : List ω}

/-- What the empty history has and one more input keeps, every history has. -/
theorem History.invariant {I : List ι → List ω → σ → Prop} (h : M.History ok s₀ is os s)
    (hnil : I [] [] s₀)
    (hsnoc : ∀ is os s i s' out, I is os s → ok s i → M.next s i = some (s', out) →
      I (is ++ [i]) (os ++ out) s') : I is os s := by
  induction h with
  | nil => exact hnil
  | snoc _ hok hnext ih => exact hsnoc _ _ _ _ _ _ ih hok hnext

/-- Nothing is inevitable in a trap: among states without `P`, in each of which no input of the
kind is possible or one leads back among them. -/
theorem Inevitable.not_of_trap {T : σ → Prop} (hP : ∀ s, T s → ¬ P s)
    (htrap : ∀ s, T s → (∀ s', ¬ M.Moves own s s') ∨ ∃ s', M.Moves own s s' ∧ T s') (hs : T s) :
    ¬ M.Inevitable own P s := by
  intro h
  induction h with
  | now h => exact hP _ hs h
  | later hsome _ ih =>
    rcases htrap _ hs with hnone | ⟨s', hs', hT⟩
    · obtain ⟨s', hs'⟩ := hsome
      exact hnone s' hs'
    · exact ih s' hs' hT

end Machine

end Kit
