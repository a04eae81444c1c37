import Mathlib.Logic.Relation

/-!
# Labelled transition systems and their runs

A system has initial states and labelled steps.  Runs are Mathlib's reflexive transitive
closure of "some label takes the step", and an invariant is proved once from one step.

A property that a system keeps only as long as its steps avoid some branch is proved of
the *restricted* system, whose steps are those that meet a condition on the state before
the step and the label: a run of the restricted system is exactly a run all of whose
steps meet the condition.
-/

namespace Kit

universe u v w

/-- A labelled transition system. -/
structure System (σ : Type u) (ℓ : Type v) where
  /-- Where runs may start. -/
  init : σ → Prop
  /-- What may happen in one step. -/
  step : σ → ℓ → σ → Prop

namespace System

variable {σ : Type u} {ℓ : Type v} {S : System σ ℓ}

/-- One step under some label. -/
def Next (S : System σ ℓ) (s s' : σ) : Prop := ∃ l, S.step s l s'

/-- Finitely many steps. -/
def Run (S : System σ ℓ) : σ → σ → Prop := Relation.ReflTransGen S.Next

/-- The states that runs from an initial state visit. -/
def Reachable (S : System σ ℓ) (s : σ) : Prop := ∃ s₀, S.init s₀ ∧ S.Run s₀ s

/-- The system whose steps are those of `S` that meet a condition. -/
def restrict (S : System σ ℓ) (ok : σ → ℓ → Prop) : System σ ℓ where
  init := S.init
  step s l s' := S.step s l s' ∧ ok s l

/-- What one step preserves, a run preserves. -/
theorem Run.invariant {I : σ → Prop} (hstep : ∀ s l s', I s → S.step s l s' → I s')
    {s s' : σ} (h : S.Run s s') (hs : I s) : I s' := by
  induction h with
  | refl => exact hs
  | tail _ hnext ih =>
    obtain ⟨l, hl⟩ := hnext
    exact hstep _ l _ ih hl

/-- What holds initially and is preserved by each step holds in every reachable state. -/
theorem Reachable.invariant {I : σ → Prop} (hinit : ∀ s, S.init s → I s)
    (hstep : ∀ s l s', I s → S.step s l s' → I s') {s : σ} (h : S.Reachable s) : I s := by
  obtain ⟨s₀, h₀, hrun⟩ := h
  exact hrun.invariant hstep (hinit s₀ h₀)

/-- An initial state is reachable. -/
theorem Reachable.init {s : σ} (h : S.init s) : S.Reachable s := ⟨s, h, .refl⟩

/-- A step from a reachable state reaches its end. -/
theorem Reachable.step {s s' : σ} {l : ℓ} (h : S.Reachable s) (hl : S.step s l s') :
    S.Reachable s' := by
  obtain ⟨s₀, h₀, hrun⟩ := h
  exact ⟨s₀, h₀, hrun.tail ⟨l, hl⟩⟩

/-- A run from a reachable state reaches its end. -/
theorem Reachable.run {s s' : σ} (h : S.Reachable s) (hr : S.Run s s') : S.Reachable s' := by
  obtain ⟨s₀, h₀, hrun⟩ := h
  exact ⟨s₀, h₀, hrun.trans hr⟩

/-- A restricted run is a run. -/
theorem Run.of_restrict {ok : σ → ℓ → Prop} {s s' : σ} (h : (S.restrict ok).Run s s') :
    S.Run s s' :=
  Relation.ReflTransGen.mono (fun _ _ ⟨l, hl, _⟩ ↦ ⟨l, hl⟩) _ _ h

/-- A state that the restricted system reaches is reachable. -/
theorem Reachable.of_restrict {ok : σ → ℓ → Prop} {s : σ} (h : (S.restrict ok).Reachable s) :
    S.Reachable s := by
  obtain ⟨s₀, h₀, hrun⟩ := h
  exact ⟨s₀, h₀, hrun.of_restrict⟩

/-! ## Runs from a list of actions

Where the steps are computed by a function, a run can be given as the list of what is
done. -/

/-- Each action of the list is allowed in the state that those before it lead to. -/
def Allowed {ε : Type w} (ok : σ → ε → Prop) (apply : σ → ε → σ) : σ → List ε → Prop
  | _, [] => True
  | s, e :: es => ok s e ∧ Allowed ok apply (apply s e) es

instance Allowed.decidable {ε : Type w} (ok : σ → ε → Prop) (apply : σ → ε → σ)
    [∀ s e, Decidable (ok s e)] : ∀ s es, Decidable (Allowed ok apply s es)
  | _, [] => instDecidableTrue
  | s, e :: es =>
    have := Allowed.decidable ok apply (apply s e) es
    inferInstanceAs (Decidable (ok s e ∧ Allowed ok apply (apply s e) es))

/-- Actions that are allowed in every state. -/
theorem Allowed.of_forall {ε : Type w} {ok : σ → ε → Prop} (apply : σ → ε → σ) {es : List ε}
    (h : ∀ e ∈ es, ∀ s, ok s e) (s : σ) : Allowed ok apply s es := by
  induction es generalizing s with
  | nil => trivial
  | cons e es ih =>
    obtain ⟨he, hes⟩ := List.forall_mem_cons.mp h
    exact ⟨he s, ih hes _⟩

/-- A list of allowed actions is a run. -/
theorem Run.of_allowed {ε : Type w} {ok : σ → ε → Prop} {apply : σ → ε → σ} {label : ε → ℓ}
    (hstep : ∀ s e, ok s e → S.step s (label e) (apply s e)) (s : σ) (es : List ε)
    (h : Allowed ok apply s es) : S.Run s (es.foldl apply s) := by
  induction es generalizing s with
  | nil => exact .refl
  | cons e es ih =>
    obtain ⟨he, hes⟩ := h
    exact Relation.ReflTransGen.head ⟨label e, hstep s e he⟩ (ih (apply s e) hes)

end System

end Kit
