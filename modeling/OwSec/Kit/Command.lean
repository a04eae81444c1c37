import Mathlib.Logic.Basic

/-!
# Commands and their weakest preconditions

A command reads and writes a state and either ends with a value or stops early with an
answer; what it wrote before it stopped stays written.  This is how a request handler
runs: each check that fails sends an answer and returns, and nothing is rolled back.

`wp c Q E s` says that `c`, started in `s`, ends in a state that satisfies `Q` (with its
value) or stops in one that satisfies `E` (with its answer).  Each way of building a
command has one rule, an equivalence tagged for `simp`, so the verification condition of a
handler is computed by rewriting along its text; a primitive operation contributes its own
rule where it is defined.
-/

namespace Kit

universe u v w

/-- A command over states `σ` that may stop with an answer in `ε`. -/
def Command (σ : Type u) (ε : Type v) (α : Type w) := σ → Except ε α × σ

namespace Command

variable {σ : Type u} {ε : Type v} {α β : Type w}

/-- Run the second command on the value of the first, unless the first stopped. -/
def andThen (c : Command σ ε α) (f : α → Command σ ε β) : Command σ ε β := fun s ↦
  match c s with
  | (.ok a, s') => f a s'
  | (.error e, s') => (.error e, s')

instance : Monad (Command σ ε) where
  pure a := fun s ↦ (.ok a, s)
  bind := andThen

/-- Stop with an answer. -/
def stop (e : ε) : Command σ ε α := fun s ↦ (.error e, s)

/-- Read from the state. -/
def reads (f : σ → α) : Command σ ε α := fun s ↦ (.ok (f s), s)

/-- A state transformer with a value. -/
def act (f : σ → α × σ) : Command σ ε α := fun s ↦ (.ok (f s).1, (f s).2)

/-- A state transformer. -/
def write (f : σ → σ) : Command σ ε PUnit := fun s ↦ (.ok ⟨⟩, f s)

/-- Stop with `e` unless `b`. -/
def ensure (b : Bool) (e : ε) : Command σ ε PUnit := if b then pure ⟨⟩ else stop e

/-- The value of `o`, or stop with `e`. -/
def orStop (o : Option α) (e : ε) : Command σ ε α :=
  match o with
  | some a => pure a
  | none => stop e

/-- A computation that does not look at the state. -/
def lift (x : Except ε α) : Command σ ε α := fun s ↦ (x, s)

/-- A command that stops skips whatever follows, however that is grouped. -/
theorem bind_assoc {γ : Type w} (c : Command σ ε α) (f : α → Command σ ε β)
    (g : β → Command σ ε γ) : c >>= f >>= g = c >>= fun a ↦ f a >>= g := by
  funext s
  show andThen (andThen c f) g s = andThen c (fun a ↦ andThen (f a) g) s
  unfold andThen
  rcases c s with ⟨_ | a, s'⟩ <;> rfl

theorem pure_bind (a : α) (f : α → Command σ ε β) : pure a >>= f = f a := rfl

/-- `c` ends in `Q` or stops in `E` when started in `s`. -/
def wp (c : Command σ ε α) (Q : α → σ → Prop) (E : ε → σ → Prop) (s : σ) : Prop :=
  match c s with
  | (.ok a, s') => Q a s'
  | (.error e, s') => E e s'

section Rules

variable {Q : α → σ → Prop} {E : ε → σ → Prop} {s : σ}

@[simp] theorem wp_pure (a : α) : wp (pure a : Command σ ε α) Q E s ↔ Q a s := Iff.rfl

@[simp] theorem wp_bind (c : Command σ ε α) (f : α → Command σ ε β) (Q : β → σ → Prop) :
    wp (c >>= f) Q E s ↔ wp c (fun a s ↦ wp (f a) Q E s) E s := by
  show wp (andThen c f) Q E s ↔ _
  unfold wp andThen
  rcases c s with ⟨_ | a, s'⟩ <;> exact Iff.rfl

@[simp] theorem wp_stop (e : ε) : wp (stop e : Command σ ε α) Q E s ↔ E e s := Iff.rfl

@[simp] theorem wp_reads (f : σ → α) : wp (reads f : Command σ ε α) Q E s ↔ Q (f s) s := Iff.rfl

@[simp] theorem wp_act (f : σ → α × σ) :
    wp (act f : Command σ ε α) Q E s ↔ Q (f s).1 (f s).2 := Iff.rfl

@[simp] theorem wp_write (f : σ → σ) (Q : PUnit → σ → Prop) :
    wp (write f : Command σ ε PUnit) Q E s ↔ Q ⟨⟩ (f s) := Iff.rfl

@[simp] theorem wp_ite (b : Prop) [Decidable b] (c d : Command σ ε α) :
    wp (if b then c else d) Q E s ↔ (b → wp c Q E s) ∧ (¬ b → wp d Q E s) := by
  by_cases h : b <;> simp [h]

@[simp] theorem wp_ensure (b : Bool) (e : ε) (Q : PUnit → σ → Prop) :
    wp (ensure b e : Command σ ε PUnit) Q E s ↔ (b = true → Q ⟨⟩ s) ∧ (b = false → E e s) := by
  cases b <;> simp [ensure]

@[simp] theorem wp_orStop (o : Option α) (e : ε) :
    wp (orStop o e : Command σ ε α) Q E s ↔
      (∀ a, o = some a → Q a s) ∧ (o = none → E e s) := by
  cases o <;> simp [orStop]

@[simp] theorem wp_lift (x : Except ε α) :
    wp (lift x : Command σ ε α) Q E s ↔
      (∀ a, x = .ok a → Q a s) ∧ ∀ e, x = .error e → E e s := by
  cases x <;> simp [wp, lift]

/-- A command that establishes more establishes less. -/
theorem wp_mono {c : Command σ ε α} {Q' : α → σ → Prop} {E' : ε → σ → Prop}
    (h : wp c Q E s) (hQ : ∀ a s, Q a s → Q' a s) (hE : ∀ e s, E e s → E' e s) :
    wp c Q' E' s := by
  unfold wp at h ⊢
  rcases hc : c s with ⟨_ | a, s'⟩
  · simp only [hc] at h
    exact hE _ _ h
  · simp only [hc] at h
    exact hQ _ _ h

/-- A command that establishes two things establishes both. -/
theorem wp_and {c : Command σ ε α} {Q' : α → σ → Prop} {E' : ε → σ → Prop} (h : wp c Q E s)
    (h' : wp c Q' E' s) : wp c (fun a s ↦ Q a s ∧ Q' a s) (fun e s ↦ E e s ∧ E' e s) s := by
  unfold wp at h h' ⊢
  rcases hc : c s with ⟨_ | a, s'⟩
  · simp only [hc] at h h'
    exact ⟨h, h'⟩
  · simp only [hc] at h h'
    exact ⟨h, h'⟩

/-- A command that stopped with an answer satisfies its error condition there. -/
theorem wp_of_error {c : Command σ ε α} {e : ε} {s' : σ} (h : wp c Q E s)
    (hc : c s = (.error e, s')) : E e s' := by
  simpa only [wp, hc] using h

end Rules

/-! ## Ending with a value

The same rules as equivalences about one particular ending, for the cases in which a
command is known to have ended with a value. -/

section Ok

variable {s s' : σ} {a : α}

theorem bind_eq_ok {c : Command σ ε α} {f : α → Command σ ε β} {b : β} :
    (c >>= f) s = (.ok b, s') ↔ ∃ a s₁, c s = (.ok a, s₁) ∧ f a s₁ = (.ok b, s') := by
  show andThen c f s = _ ↔ _
  unfold andThen
  rcases c s with ⟨_ | a, s₁⟩
  · simp
  · simp only [Prod.mk.injEq, Except.ok.injEq]
    constructor
    · exact fun h ↦ ⟨a, s₁, ⟨rfl, rfl⟩, h⟩
    · rintro ⟨_, _, ⟨rfl, rfl⟩, h⟩
      exact h

/-- The same for computations that do not look at the state. -/
theorem except_bind_eq_ok {x : Except ε α} {f : α → Except ε β} {b : β} :
    (x >>= f) = .ok b ↔ ∃ a, x = .ok a ∧ f a = .ok b := by
  cases x with
  | error e =>
    show Except.error e = _ ↔ _
    simp
  | ok a =>
    show f a = _ ↔ _
    simp

theorem pure_eq_ok {b : α} : (pure b : Command σ ε α) s = (.ok a, s') ↔ b = a ∧ s = s' := by
  show ((.ok b, s) : Except ε α × σ) = _ ↔ _
  simp

theorem act_eq_ok {f : σ → α × σ} :
    (act f : Command σ ε α) s = (.ok a, s') ↔ f s = (a, s') := by
  show ((.ok (f s).1, (f s).2) : Except ε α × σ) = _ ↔ _
  rcases f s with ⟨b, s₁⟩
  simp

theorem ensure_eq_ok {b : Bool} {e : ε} {u : PUnit} :
    (ensure b e : Command σ ε PUnit) s = (.ok u, s') ↔ b = true ∧ s = s' := by
  cases b
  · show ((.error e, s) : Except ε PUnit × σ) = _ ↔ _
    simp
  · show ((.ok ⟨⟩, s) : Except ε PUnit × σ) = _ ↔ _
    simp

theorem orStop_eq_ok {o : Option α} {e : ε} :
    (orStop o e : Command σ ε α) s = (.ok a, s') ↔ o = some a ∧ s = s' := by
  cases o with
  | none =>
    show ((.error e, s) : Except ε α × σ) = _ ↔ _
    simp
  | some b =>
    show ((.ok b, s) : Except ε α × σ) = _ ↔ _
    simp

end Ok

/-! ## Whether a command ends with a value

For the cases in which it does not matter which value: each way of building a command says
which of its checks have to pass. -/

/-- `c`, started in `s`, does not stop. -/
def Ends (c : Command σ ε α) (s : σ) : Prop := (c s).1.isOk = true

instance (c : Command σ ε α) (s : σ) : Decidable (Ends c s) :=
  inferInstanceAs (Decidable ((c s).1.isOk = true))

section Ends

variable {s : σ}

theorem ends_iff {c : Command σ ε α} : Ends c s ↔ ∃ a s', c s = (.ok a, s') := by
  unfold Ends
  rcases c s with ⟨_ | a, s'⟩
  · simp [Except.isOk, Except.toBool]
  · simp [Except.isOk, Except.toBool]

@[simp] theorem ends_pure (a : α) : Ends (pure a : Command σ ε α) s := rfl

theorem ends_bind {c : Command σ ε α} {f : α → Command σ ε β} :
    Ends (c >>= f) s ↔ ∃ a s', c s = (.ok a, s') ∧ Ends (f a) s' := by
  simp only [ends_iff, bind_eq_ok]
  constructor
  · rintro ⟨b, s₂, a, s₁, hc, hf⟩
    exact ⟨a, s₁, hc, b, s₂, hf⟩
  · rintro ⟨a, s₁, hc, b, s₂, hf⟩
    exact ⟨b, s₂, a, s₁, hc, hf⟩

variable {f : α → Command σ ε β}

theorem ends_act {g : σ → α × σ} :
    Ends ((act g : Command σ ε α) >>= f) s ↔ Ends (f (g s).1) (g s).2 := Iff.rfl

theorem ends_reads {g : σ → α} :
    Ends ((reads g : Command σ ε α) >>= f) s ↔ Ends (f (g s)) s := Iff.rfl

theorem ends_write {g : σ → σ} {f : PUnit → Command σ ε β} :
    Ends ((write g : Command σ ε PUnit) >>= f) s ↔ Ends (f ⟨⟩) (g s) := Iff.rfl

theorem ends_ensure {b : Bool} {e : ε} {f : PUnit → Command σ ε β} :
    Ends ((ensure b e : Command σ ε PUnit) >>= f) s ↔ b = true ∧ Ends (f ⟨⟩) s := by
  simp only [ends_bind, ensure_eq_ok]
  constructor
  · rintro ⟨_, _, ⟨hb, rfl⟩, hf⟩
    exact ⟨hb, hf⟩
  · rintro ⟨hb, hf⟩
    exact ⟨⟨⟩, s, ⟨hb, rfl⟩, hf⟩

theorem ends_orStop {o : Option α} {e : ε} :
    Ends ((orStop o e : Command σ ε α) >>= f) s ↔ ∃ a, o = some a ∧ Ends (f a) s := by
  simp only [ends_bind, orStop_eq_ok]
  constructor
  · rintro ⟨a, _, ⟨ha, rfl⟩, hf⟩
    exact ⟨a, ha, hf⟩
  · rintro ⟨a, ha, hf⟩
    exact ⟨a, s, ⟨ha, rfl⟩, hf⟩

end Ends

end Command

end Kit
