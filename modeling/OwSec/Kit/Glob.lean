import Mathlib.Computability.Language

/-!
# The language of a wildcard pattern

A pattern is a word in which one letter stands for any word, one stands for any letter, and
every other letter stands for itself.  Its language is the product of the languages of its
letters, so the laws of that product are the laws of patterns.

The lemmas below read a pattern from the left, one letter of the pattern or of the text at a
time, which is how matchers work.
-/

namespace Kit.Glob

universe u

variable {α : Type u} (star any : α)

/-- What one letter of a pattern stands for: any word, any letter, or itself. -/
def symbol (c : α) : Language α := {t | c = star ∨ ∃ x, t = [x] ∧ (c = any ∨ c = x)}

/-- What a pattern stands for. -/
def language (p : List α) : Language α := (p.map (symbol star any)).prod

variable {star any} {c x : α} {p t : List α}

/-- A letter that is not the star stands for one letter. -/
theorem mem_symbol (hc : c ≠ star) :
    t ∈ symbol star any c ↔ ∃ x, t = [x] ∧ (c = any ∨ c = x) :=
  or_iff_right hc

@[simp] theorem mem_language_nil : t ∈ language star any [] ↔ t = [] := by
  simp [language, Language.mem_one]

theorem mem_language_cons : t ∈ language star any (c :: p) ↔
    ∃ a ∈ symbol star any c, ∃ b ∈ language star any p, a ++ b = t := by
  simp [language, Language.mem_mul]

/-- The star stands for any word, so it only asks for an end of the text. -/
theorem mem_language_star :
    t ∈ language star any (star :: p) ↔ ∃ b ∈ language star any p, b <:+ t := by
  rw [mem_language_cons]
  constructor
  · rintro ⟨a, -, b, hb, rfl⟩
    exact ⟨b, hb, List.suffix_append a b⟩
  · rintro ⟨b, hb, a, rfl⟩
    exact ⟨a, .inl rfl, b, hb, rfl⟩

@[simp] theorem nil_mem_language_star :
    [] ∈ language star any (star :: p) ↔ [] ∈ language star any p := by
  rw [mem_language_star]
  constructor
  · rintro ⟨b, hb, hsuffix⟩
    exact List.suffix_nil.mp hsuffix ▸ hb
  · exact fun h ↦ ⟨[], h, List.suffix_rfl⟩

/-- The star stands for nothing, or for the next letter and more. -/
theorem cons_mem_language_star : x :: t ∈ language star any (star :: p) ↔
    x :: t ∈ language star any p ∨ t ∈ language star any (star :: p) := by
  simp only [mem_language_star, List.suffix_cons_iff]
  constructor
  · rintro ⟨b, hb, rfl | hsuffix⟩
    · exact .inl hb
    · exact .inr ⟨b, hb, hsuffix⟩
  · rintro (h | ⟨b, hb, hsuffix⟩)
    · exact ⟨_, h, .inl rfl⟩
    · exact ⟨b, hb, .inr hsuffix⟩

/-- A star behind a star adds nothing. -/
theorem mem_language_star_star : t ∈ language star any (star :: star :: p) ↔
    t ∈ language star any (star :: p) := by
  rw [mem_language_star]
  constructor
  · rintro ⟨b, hb, hbt⟩
    obtain ⟨b', hb', hsuffix⟩ := mem_language_star.mp hb
    exact mem_language_star.mpr ⟨b', hb', hsuffix.trans hbt⟩
  · exact fun h ↦ ⟨t, h, List.suffix_rfl⟩

/-- A letter that is not the star needs a letter. -/
theorem nil_notMem_language (hc : c ≠ star) : [] ∉ language star any (c :: p) := by
  rw [mem_language_cons]
  rintro ⟨a, ha, b, -, hab⟩
  obtain ⟨x, rfl, -⟩ := (mem_symbol hc).mp ha
  cases hab

theorem cons_mem_language (hc : c ≠ star) : x :: t ∈ language star any (c :: p) ↔
    (c = any ∨ c = x) ∧ t ∈ language star any p := by
  rw [mem_language_cons]
  constructor
  · rintro ⟨a, ha, b, hb, hab⟩
    obtain ⟨y, rfl, hy⟩ := (mem_symbol hc).mp ha
    obtain ⟨rfl, rfl⟩ := List.cons.inj hab
    exact ⟨hy, hb⟩
  · rintro ⟨hx, ht⟩
    exact ⟨[x], (mem_symbol hc).mpr ⟨x, rfl, hx⟩, t, ht, rfl⟩

end Kit.Glob
