import Mathlib.Data.Option.Basic
import OwSec.Kit.Command

/-!
# Two commands side by side

Two runs of a program are compared by a relation of their states and a relation of their values:
`Related R V c d` says that `c` and `d`, started in related states, either both end, with related
values, or both stop, with the same answer, and in related states again.

There is one rule for each way of building a command, so two programs of the same shape are
compared line by line; only the primitive operations need a proof of their own.
-/

namespace Kit

universe u v w

/-- The same exception, or related values. -/
inductive ExceptRel {ε : Type v} {α β : Type w} (V : α → β → Prop) :
    Except ε α → Except ε β → Prop
  | ok {a : α} {b : β} (h : V a b) : ExceptRel V (.ok a) (.ok b)
  | error (e : ε) : ExceptRel V (.error e) (.error e)

namespace ExceptRel

variable {ε : Type v} {α β γ δ : Type w} {V : α → β → Prop} {W : γ → δ → Prop}

/-- One after the other. -/
theorem bind {x : Except ε α} {y : Except ε β} {f : α → Except ε γ} {g : β → Except ε δ}
    (h : ExceptRel V x y) (hfg : ∀ a b, V a b → ExceptRel W (f a) (g b)) :
    ExceptRel W (x >>= f) (y >>= g) := by
  cases h with
  | ok hab => exact hfg _ _ hab
  | error e => exact .error e

/-- One after the other, where the first ones have the same value. -/
theorem bind_eq {x y : Except ε α} {f g : α → Except ε γ} {W : γ → γ → Prop}
    (h : ExceptRel Eq x y) (hfg : ∀ a, ExceptRel W (f a) (g a)) :
    ExceptRel W (x >>= f) (y >>= g) := by
  refine h.bind ?_
  rintro a _ rfl
  exact hfg a

/-- The same branch on both sides. -/
theorem ite {b b' : Prop} [Decidable b] [Decidable b'] (h : b ↔ b') {x x' : Except ε α}
    {y y' : Except ε β} (hthen : b → ExceptRel V x y) (helse : ¬ b → ExceptRel V x' y') :
    ExceptRel V (if b then x else x') (if b' then y else y') := by
  by_cases hb : b
  · rw [if_pos hb, if_pos (h.mp hb)]
    exact hthen hb
  · rw [if_neg hb, if_neg (mt h.mpr hb)]
    exact helse hb

/-- A computation is related to itself by equality. -/
theorem refl (x : Except ε α) : ExceptRel Eq x x := by
  cases x with
  | error e => exact .error e
  | ok a => exact .ok rfl

end ExceptRel

namespace Command

variable {σ τ : Type u} {ε : Type v} {α β γ δ : Type w}

/-- From related states, the two commands have related outcomes. -/
def Related (R : σ → τ → Prop) (V : α → β → Prop) (c : Command σ ε α) (d : Command τ ε β) : Prop :=
  ∀ s t, R s t → ExceptRel V (c s).1 (d t).1 ∧ R (c s).2 (d t).2

namespace Related

variable {R : σ → τ → Prop} {V : α → β → Prop} {W : γ → δ → Prop}

theorem pure {a : α} {b : β} (h : V a b) :
    Related R V (Pure.pure a : Command σ ε α) (Pure.pure b : Command τ ε β) :=
  fun _ _ hst ↦ ⟨.ok h, hst⟩

/-- One after the other. -/
theorem bind {c : Command σ ε α} {d : Command τ ε β} {f : α → Command σ ε γ}
    {g : β → Command τ ε δ} (h : Related R V c d) (hfg : ∀ a b, V a b → Related R W (f a) (g b)) :
    Related R W (c >>= f) (d >>= g) := by
  intro s t hst
  obtain ⟨hvalues, hstates⟩ := h s t hst
  show ExceptRel W (andThen c f s).1 (andThen d g t).1 ∧ R (andThen c f s).2 (andThen d g t).2
  unfold andThen
  generalize c s = x at hvalues hstates ⊢
  generalize d t = y at hvalues hstates ⊢
  obtain ⟨_ | a, s'⟩ := x <;> obtain ⟨_ | b, t'⟩ := y
  · cases hvalues
    exact ⟨.error _, hstates⟩
  · cases hvalues
  · cases hvalues
  · cases hvalues with
    | ok hab => exact hfg a b hab s' t' hstates

/-- One after the other, where the first ones have the same value. -/
theorem bind_eq {c : Command σ ε α} {d : Command τ ε α} {f : α → Command σ ε γ}
    {g : α → Command τ ε δ} (h : Related R Eq c d) (hfg : ∀ a, Related R W (f a) (g a)) :
    Related R W (c >>= f) (d >>= g) := by
  refine h.bind ?_
  rintro a _ rfl
  exact hfg a

theorem stop (e : ε) : Related R V (stop e : Command σ ε α) (Command.stop e : Command τ ε β) :=
  fun _ _ hst ↦ ⟨.error e, hst⟩

theorem ensure {b b' : Bool} (h : b = b') (e : ε) :
    Related R (fun _ _ ↦ True) (ensure b e : Command σ ε PUnit)
      (Command.ensure b' e : Command τ ε PUnit) := by
  subst h
  cases b
  · exact stop e
  · exact pure trivial

theorem orStop {o : Option α} {o' : Option β} (h : Option.Rel V o o') (e : ε) :
    Related R V (orStop o e : Command σ ε α) (Command.orStop o' e : Command τ ε β) := by
  cases h with
  | some hab => exact pure hab
  | none => exact stop e

/-- The same choice on both sides. -/
theorem orStop_eq (o : Option α) (e : ε) :
    Related R Eq (Command.orStop o e : Command σ ε α) (Command.orStop o e : Command τ ε α) := by
  cases o with
  | some a => exact pure rfl
  | none => exact stop e

theorem reads {f : σ → α} {g : τ → β} (h : ∀ s t, R s t → V (f s) (g t)) :
    Related R V (reads f : Command σ ε α) (Command.reads g : Command τ ε β) :=
  fun _ _ hst ↦ ⟨.ok (h _ _ hst), hst⟩

theorem act {f : σ → α × σ} {g : τ → β × τ}
    (h : ∀ s t, R s t → V (f s).1 (g t).1 ∧ R (f s).2 (g t).2) :
    Related R V (act f : Command σ ε α) (Command.act g : Command τ ε β) :=
  fun _ _ hst ↦ ⟨.ok (h _ _ hst).1, (h _ _ hst).2⟩

theorem write {f : σ → σ} {g : τ → τ} (h : ∀ s t, R s t → R (f s) (g t)) :
    Related R (fun _ _ ↦ True) (write f : Command σ ε PUnit)
      (Command.write g : Command τ ε PUnit) :=
  fun _ _ hst ↦ ⟨.ok trivial, h _ _ hst⟩

/-- Computations that do not look at the state. -/
theorem lift {x : Except ε α} {y : Except ε β} (h : ExceptRel V x y) :
    Related R V (lift x : Command σ ε α) (Command.lift y : Command τ ε β) :=
  fun _ _ hst ↦ ⟨h, hst⟩

/-- The same branch on both sides. -/
theorem ite {b b' : Prop} [Decidable b] [Decidable b'] (h : b ↔ b') {c c' : Command σ ε α}
    {d d' : Command τ ε β} (hthen : b → Related R V c d) (helse : ¬ b → Related R V c' d') :
    Related R V (if b then c else c') (if b' then d else d') := by
  by_cases hb : b
  · rw [if_pos hb, if_pos (h.mp hb)]
    exact hthen hb
  · rw [if_neg hb, if_neg (mt h.mpr hb)]
    exact helse hb

/-- A choice with something to do after it. -/
theorem ite_bind {b b' : Prop} [Decidable b] [Decidable b'] (h : b ↔ b') {c c' : Command σ ε α}
    {d d' : Command τ ε β} {f : α → Command σ ε γ} {g : β → Command τ ε δ}
    (hthen : b → Related R V c d) (helse : ¬ b → Related R V c' d')
    (hfg : ∀ a b, V a b → Related R W (f a) (g b)) :
    Related R W (if b then c >>= f else c' >>= f) (if b' then d >>= g else d' >>= g) :=
  ite h (fun hb ↦ (hthen hb).bind hfg) fun hb ↦ (helse hb).bind hfg

end Related

end Command

end Kit
