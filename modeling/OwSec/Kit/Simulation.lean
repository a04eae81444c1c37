import Mathlib.Data.List.Basic
import OwSec.Kit.Run

/-!
# Answers of a machine and of its specification

A machine takes one input after the other, answers each and goes on in another state, or has no
answer at all.  Its specification has a total answer and a total next state.  A relation between
the states of the two that one step keeps, as long as the input is a *good* one in the state of
the specification, makes the answers of the two the same over any list of good inputs; where the
machine answers wrongly to each input that is not good, they are the same over no other list.
-/

namespace Kit

universe u v w x

/-- What is specified: the answer to an input, and the state after it. -/
structure Spec (α : Type u) (ι : Type v) (ω : Type w) where
  reply : α → ι → ω
  next : α → ι → α

namespace Spec

variable {α : Type u} {ι : Type v} {ω : Type w} {σ : Type x} (S : Spec α ι ω)

/-- The specified answers to a list of inputs. -/
def replies : α → List ι → List ω
  | _, [] => []
  | a, i :: is => S.reply a i :: replies (S.next a i) is

/-- The answers of a machine to a list of inputs. -/
def answers (step : σ → ι → Option (ω × σ)) : σ → List ι → Option (List ω)
  | _, [] => some []
  | s, i :: is => (step s i).bind fun r ↦ (answers step r.2 is).map (r.1 :: ·)

/-- A machine that follows the specification on good inputs, and on no others. -/
structure Simulates (step : σ → ι → Option (ω × σ)) (legal good : α → ι → Prop)
    (R : σ → α → Prop) : Prop where
  right : ∀ {s a i}, R s a → legal a i → good a i →
    ∃ s', step s i = some (S.reply a i, s') ∧ R s' (S.next a i)
  wrong : ∀ {s a i}, R s a → legal a i → ¬ good a i → ∀ s', step s i ≠ some (S.reply a i, s')

variable {S} {step : σ → ι → Option (ω × σ)} {legal good : α → ι → Prop} {R : σ → α → Prop}

/-- The answers are the specified ones when all inputs are good, and only then. -/
theorem Simulates.answers_eq_iff (h : S.Simulates step legal good R) {s : σ} {a : α}
    (hR : R s a) {is : List ι} (hlegal : System.Allowed legal S.next a is) :
    answers step s is = some (S.replies a is) ↔ System.Allowed good S.next a is := by
  induction is generalizing s a with
  | nil => simp [answers, replies, System.Allowed]
  | cons i is ih =>
    obtain ⟨hi, hrest⟩ := hlegal
    by_cases hgood : good a i
    · obtain ⟨s', hstep, hR'⟩ := h.right hR hi hgood
      have hanswers : answers step s (i :: is)
          = (answers step s' is).map (S.reply a i :: ·) := by
        simp only [answers, hstep, Option.bind_some]
      have hcons := Option.map_injective (List.cons_injective (a := S.reply a i))
      have hreplies : some (S.replies a (i :: is))
          = (some (S.replies (S.next a i) is)).map (S.reply a i :: ·) := rfl
      rw [hanswers, hreplies, hcons.eq_iff, ih hR' hrest]
      simp only [System.Allowed, hgood, true_and]
    · refine ⟨fun hanswers ↦ ?_, fun hallowed ↦ absurd hallowed.1 hgood⟩
      rcases hstep : step s i with _ | ⟨o, s'⟩
      · simp only [answers, hstep, Option.bind_none] at hanswers
        cases hanswers
      · simp only [answers, hstep, Option.bind_some, replies, Option.map_eq_some_iff] at hanswers
        obtain ⟨_, -, heq⟩ := hanswers
        obtain ⟨rfl, -⟩ := List.cons.inj heq
        exact absurd hstep (h.wrong hR hi hgood s')

end Spec

end Kit
