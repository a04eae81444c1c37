import OwSec.Kit.Command

/-!
# Invariants that commands maintain

`Maintains P V c` says that the command never leaves the states that satisfy `P`: it ends in one
of them, with a value that satisfies `V`, or stops in one of them.  Unlike a precondition this
speaks about every state at once, so there is one rule for each way of building a command, a
program is checked line by line, and only the primitive operations need a proof of their own.
-/

namespace Kit

universe u v w

namespace Command

variable {σ : Type u} {ε : Type v} {α β : Type w}

/-- From states that satisfy `P`, the command leaves such states, with values that satisfy `V`. -/
def Maintains (P : σ → Prop) (V : α → Prop) (c : Command σ ε α) : Prop :=
  ∀ s, P s → wp c (fun a s' ↦ V a ∧ P s') (fun _ s' ↦ P s') s

namespace Maintains

variable {P : σ → Prop} {V V' : α → Prop} {W : β → Prop}

theorem pure {a : α} (h : V a) : Maintains P V (Pure.pure a : Command σ ε α) :=
  fun _ hs ↦ ⟨h, hs⟩

theorem stop (e : ε) : Maintains P V (Command.stop e) := fun _ hs ↦ hs

/-- One after the other. -/
theorem bind {c : Command σ ε α} {f : α → Command σ ε β} (h : Maintains P V c)
    (hf : ∀ a, V a → Maintains P W (f a)) : Maintains P W (c >>= f) := by
  intro s hs
  rw [wp_bind]
  refine wp_mono (h s hs) (fun a s' hnext ↦ ?_) fun _ _ hstop ↦ hstop
  exact hf a hnext.1 s' hnext.2

/-- What is known of the value may be forgotten. -/
theorem mono {c : Command σ ε α} (h : Maintains P V c) (hV : ∀ a, V a → V' a) :
    Maintains P V' c := by
  intro s hs
  refine wp_mono (h s hs) (fun a s' hend ↦ ?_) fun _ _ hstop ↦ hstop
  exact ⟨hV a hend.1, hend.2⟩

/-- Whatever the value, and however the command ends. -/
theorem leaves {c : Command σ ε α} (h : Maintains P V c) {s : σ} (hs : P s) :
    wp c (fun _ s' ↦ P s') (fun _ s' ↦ P s') s :=
  wp_mono (h s hs) (fun _ _ hend ↦ hend.2) fun _ _ hstop ↦ hstop

theorem ensure (b : Bool) (e : ε) : Maintains P (fun _ ↦ b = true) (Command.ensure b e) := by
  intro s hs
  rw [wp_ensure]
  exact ⟨fun hb ↦ ⟨hb, hs⟩, fun _ ↦ hs⟩

theorem orStop (o : Option α) (e : ε) :
    Maintains P (fun a ↦ o = some a) (Command.orStop o e) := by
  intro s hs
  rw [wp_orStop]
  exact ⟨fun _ ha ↦ ⟨ha, hs⟩, fun _ ↦ hs⟩

theorem lift (x : Except ε α) :
    Maintains P (fun a ↦ x = .ok a) (Command.lift x : Command σ ε α) := by
  intro s hs
  rw [wp_lift]
  exact ⟨fun _ ha ↦ ⟨ha, hs⟩, fun _ _ ↦ hs⟩

/-- Reading the state does not change it. -/
theorem reads (f : σ → α) : Maintains P (fun _ ↦ True) (Command.reads f : Command σ ε α) :=
  fun _ hs ↦ ⟨trivial, hs⟩

theorem act {f : σ → α × σ} (h : ∀ s, P s → V (f s).1 ∧ P (f s).2) :
    Maintains P V (Command.act f : Command σ ε α) := h

theorem write {f : σ → σ} (h : ∀ s, P s → P (f s)) :
    Maintains P (fun _ ↦ True) (Command.write f : Command σ ε PUnit) :=
  fun s hs ↦ ⟨trivial, h s hs⟩

/-- Whichever branch is taken. -/
theorem ite {b : Prop} [Decidable b] {c d : Command σ ε α} (hthen : b → Maintains P V c)
    (helse : ¬ b → Maintains P V d) : Maintains P V (if b then c else d) := by
  by_cases hb : b
  · rw [if_pos hb]
    exact hthen hb
  · rw [if_neg hb]
    exact helse hb

/-- Whichever command goes first. -/
theorem ite_bind {b : Prop} [Decidable b] {c d : Command σ ε α} {f : α → Command σ ε β}
    (hthen : b → Maintains P V c) (helse : ¬ b → Maintains P V d)
    (hf : ∀ a, V a → Maintains P W (f a)) :
    Maintains P W (if b then c >>= f else d >>= f) :=
  ite (fun hb ↦ (hthen hb).bind hf) fun hb ↦ (helse hb).bind hf

end Maintains

end Command

end Kit
