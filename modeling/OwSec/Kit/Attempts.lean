import Mathlib.Data.List.Basic

/-!
# Attempts

Candidates are tried in order until one of them decides, with an answer or with a failure.  Which
candidates are tried is said by a predicate of its own, since whether one decides is often a matter
of the input alone.

`tryAll_iff` is the rule for what a search promises: the promise is kept exactly when every
candidate that is tried does well.
-/

namespace Kit

universe u v w

variable {α : Type u} {β : Type v} {ε : Type w}

/-- The first candidate that decides. -/
def tryAll (attempt : α → Except ε (Option β)) (otherwise : β) : List α → Except ε β
  | [] => .ok otherwise
  | a :: l =>
    match attempt a with
    | .error e => .error e
    | .ok (some b) => .ok b
    | .ok none => tryAll attempt otherwise l

/-- The candidates that are tried, when the search goes on behind some of them. -/
inductive Tried (goesOn : α → Prop) : List α → α → Prop
  | head {a : α} {l : List α} : Tried goesOn (a :: l) a
  | tail {a b : α} {l : List α} (ha : goesOn a) (h : Tried goesOn l b) : Tried goesOn (a :: l) b

variable {goesOn good : α → Prop} {attempt : α → Except ε (Option β)} {otherwise : β}

/-- The first candidate is tried, and the others if the search goes on. -/
theorem forall_tried_cons {a : α} {l : List α} :
    (∀ b, Tried goesOn (a :: l) b → good b) ↔
      good a ∧ (goesOn a → ∀ b, Tried goesOn l b → good b) := by
  constructor
  · intro h
    exact ⟨h a .head, fun ha b hb ↦ h b (.tail ha hb)⟩
  · rintro ⟨hgood, hrest⟩ b hb
    cases hb with
    | head => exact hgood
    | tail ha hb => exact hrest ha b hb

/-- A promise about a search, from what it comes to behind one candidate. -/
theorem tryAll_iff (promise : List α → Except ε β → Prop) (hnil : promise [] (.ok otherwise))
    (hstop : ∀ a l, ¬ goesOn a →
      (promise (a :: l) (tryAll attempt otherwise (a :: l)) ↔ good a))
    (hnext : ∀ a l, goesOn a →
      (promise (a :: l) (tryAll attempt otherwise (a :: l)) ↔
        good a ∧ promise l (tryAll attempt otherwise l)))
    (l : List α) :
    promise l (tryAll attempt otherwise l) ↔ ∀ a, Tried goesOn l a → good a := by
  induction l with
  | nil =>
    refine iff_of_true hnil fun a ha ↦ ?_
    cases ha
  | cons a l ih =>
    rw [forall_tried_cons]
    by_cases ha : goesOn a
    · rw [hnext a l ha, ih, forall_prop_of_true ha]
    · rw [hstop a l ha, and_iff_left fun h ↦ absurd h ha]

end Kit
