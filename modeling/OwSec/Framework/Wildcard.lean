import OwSec.Kit.Glob

/-!
# Wildcard matching

`Utils::match` (`framework/utils.h`) walks over a pattern and a text in memory.  A pointer into
a string that ends with a NUL is the list of the characters from there to the NUL, and where
the list is empty the pointer stands behind the NUL and must not be read.

The function departs from the language of the pattern in two ways.  A `?` is matched without
looking whether there is a character left, which reads behind the end of the text.  And a `*` of
the pattern that meets a `*` of the text is matched with that character, as if it was an
ordinary one.  `Leads` is the search without its order, and with it both departures can be
said exactly: a `?` that is `Overrun`, and a text that is only matched by a star of the pattern
passing over a star of the text.
-/

namespace OwSec

open Kit

/-- The character that ends a string. -/
def NUL : Char := Char.ofNat 0

/-- A string in memory, without the NUL that ends it. -/
structure CString where
  chars : List Char
  nul_notMem : NUL ∉ chars

/-- A pointer to the first character. -/
def CString.pointer (s : CString) : List Char := s.chars ++ [NUL]

namespace Utils

/-- `Utils::match`; `none` is a read behind the NUL of one of the strings.  The first equation
is the loop that passes over consecutive stars.  A call with a text pointer that stands behind
the NUL reads there at the latest when it comes to the end of the pattern. -/
def «match» : List Char → List Char → Option Bool
  | '*' :: '*' :: first, second => «match» ('*' :: first) second
  | f :: first, s :: second =>
    if f = NUL ∧ s = NUL then some true
    else if f = '*' ∧ first.head? ≠ some NUL ∧ s = NUL then some false
    else if f = '?' ∨ f = s then «match» first second
    else if f = '*' then
      match «match» first (s :: second) with
      | some false => «match» (f :: first) second
      | result => result
    else some false
  | _, _ => none
termination_by first second => first.length + second.length

/-- The match of a pattern and a text that are given by their characters. -/
def run (p t : List Char) : Option Bool := «match» (p ++ [NUL]) (t ++ [NUL])

/-! ## One character at a time -/

section Equations

variable {c x : Char} {p t : List Char}

theorem match_cons (f s : Char) (first second : List Char)
    (hstars : f = '*' → first.head? ≠ some '*') : «match» (f :: first) (s :: second) =
      if f = NUL ∧ s = NUL then some true
      else if f = '*' ∧ first.head? ≠ some NUL ∧ s = NUL then some false
      else if f = '?' ∨ f = s then «match» first second
      else if f = '*' then
        match «match» first (s :: second) with
        | some false => «match» (f :: first) second
        | result => result
      else some false := by
  rw [«match»]
  rintro rest rfl rfl
  exact hstars rfl rfl

/-- Behind the NUL of the text nothing is answered. -/
theorem match_nil (first : List Char) : «match» first [] = none := by
  generalize hsecond : ([] : List Char) = second
  induction first, second using «match».induct with
  | case1 first second ih => rw [«match», ih hsecond]
  | case2 | case3 | case4 | case5 | case6 | case7 => cases hsecond
  | case8 => rw [«match»] <;> assumption

theorem head?_ne_star (hp : p.head? ≠ some '*') : (p ++ [NUL]).head? ≠ some '*' := by
  rcases p with _ | ⟨y, p⟩
  · decide
  · exact hp

theorem head?_ne_NUL (hnul : NUL ∉ p) (hp : p ≠ []) : (p ++ [NUL]).head? ≠ some NUL := by
  rcases p with _ | ⟨y, p⟩
  · exact absurd rfl hp
  · exact fun h ↦ hnul (Option.some.inj h ▸ List.mem_cons_self)

theorem run_nil_nil : run [] [] = some true := by
  unfold run
  rw [List.nil_append, match_cons _ _ _ _ (by decide), if_pos ⟨rfl, rfl⟩]

theorem run_nil_cons (hx : x ≠ NUL) : run [] (x :: t) = some false := by
  unfold run
  rw [List.nil_append, List.cons_append, match_cons _ _ _ _ (by decide)]
  simp [hx, hx.symm, show NUL ≠ '*' by decide, show NUL ≠ '?' by decide]

/-- A run of stars counts as one. -/
theorem run_star_star : run ('*' :: '*' :: p) t = run ('*' :: p) t := by
  unfold run
  rw [List.cons_append, List.cons_append, «match»]

theorem run_star_nil (hstar : p.head? ≠ some '*') (hnul : NUL ∉ p) :
    run ('*' :: p) [] = some (p == []) := by
  have hne : '*' ≠ NUL := by decide
  unfold run
  rw [List.nil_append, List.cons_append, match_cons _ _ _ _ fun _ ↦ head?_ne_star hstar,
    if_neg fun h ↦ hne h.1]
  by_cases hp : p = []
  · subst hp
    have hend : «match» [NUL] [NUL] = some true := run_nil_nil
    simp [hend, hne]
  · rw [if_pos ⟨rfl, head?_ne_NUL hnul hp, rfl⟩]
    simp [hp]

/-- A star that meets a star of the text is matched with it. -/
theorem run_star_meets (hstar : p.head? ≠ some '*') : run ('*' :: p) ('*' :: t) = run p t := by
  have hne : '*' ≠ NUL := by decide
  unfold run
  rw [List.cons_append, List.cons_append, match_cons _ _ _ _ fun _ ↦ head?_ne_star hstar,
    if_neg fun h ↦ hne h.1, if_neg fun h ↦ hne h.2.2, if_pos (.inr rfl)]

/-- At any other character a star first ends and then goes on. -/
theorem run_star_cons (hstar : p.head? ≠ some '*') (hx : x ≠ '*') (hnul : x ≠ NUL) :
    run ('*' :: p) (x :: t) =
      match run p (x :: t) with
      | some false => run ('*' :: p) t
      | result => result := by
  have hne : '*' ≠ NUL := by decide
  unfold run
  rw [List.cons_append, List.cons_append, match_cons _ _ _ _ fun _ ↦ head?_ne_star hstar,
    if_neg fun h ↦ hne h.1, if_neg fun h ↦ hnul h.2.2, if_neg (by simp [hx.symm]), if_pos rfl]

/-- A `?` is matched before the text is looked at. -/
theorem run_any_nil : run ('?' :: p) [] = none := by
  unfold run
  rw [List.nil_append, List.cons_append, match_cons _ _ _ _ (fun h ↦ absurd h (by decide)),
    match_nil]
  simp [show '?' ≠ NUL by decide]

theorem run_one_nil (hc : c ≠ '*') (hany : c ≠ '?') (hnul : c ≠ NUL) :
    run (c :: p) [] = some false := by
  unfold run
  rw [List.nil_append, List.cons_append, match_cons _ _ _ _ fun h ↦ absurd h hc]
  simp [hc, hany, hnul]

theorem run_one_cons (hc : c ≠ '*') (hnul : c ≠ NUL) :
    run (c :: p) (x :: t) = if c = '?' ∨ c = x then run p t else some false := by
  unfold run
  rw [List.cons_append, List.cons_append, match_cons _ _ _ _ fun h ↦ absurd h hc]
  simp [hc, hnul]

end Equations

/-- The calls of the search: each pair of strings with the pairs on which it goes on. -/
inductive Calls : List Char → List Char → Prop
  | nil_nil : Calls [] []
  | nil_cons {x : Char} {t : List Char} (hx : x ≠ NUL) : Calls [] (x :: t)
  | stars {p t : List Char} (h : Calls ('*' :: p) t) : Calls ('*' :: '*' :: p) t
  | star_nil {p : List Char} (hstar : p.head? ≠ some '*') (hp : NUL ∉ p) : Calls ('*' :: p) []
  | meets {p t : List Char} (hstar : p.head? ≠ some '*') (h : Calls p t) :
    Calls ('*' :: p) ('*' :: t)
  | star_cons {x : Char} {p t : List Char} (hstar : p.head? ≠ some '*') (hx : x ≠ '*')
    (hnul : x ≠ NUL) (hends : Calls p (x :: t)) (hmore : Calls ('*' :: p) t) :
    Calls ('*' :: p) (x :: t)
  | any_nil {p : List Char} : Calls ('?' :: p) []
  | one_nil {c : Char} {p : List Char} (hc : c ≠ '*') (hany : c ≠ '?') (hnul : c ≠ NUL) :
    Calls (c :: p) []
  | one_cons {c x : Char} {p t : List Char} (hc : c ≠ '*') (hnul : c ≠ NUL) (h : Calls p t) :
    Calls (c :: p) (x :: t)

/-- The search comes to an end. -/
theorem calls {p t : List Char} (hp : NUL ∉ p) (ht : NUL ∉ t) : Calls p t := by
  induction p generalizing t with
  | nil =>
    rcases t with _ | ⟨x, t⟩
    · exact .nil_nil
    · exact .nil_cons fun h ↦ ht (h ▸ List.mem_cons_self)
  | cons c p ihp =>
    have hc : c ≠ NUL := fun h ↦ hp (h ▸ List.mem_cons_self)
    have hpattern : NUL ∉ p := fun h ↦ hp (List.mem_cons_of_mem c h)
    by_cases hstar : c = '*'
    · subst hstar
      by_cases hhead : p.head? = some '*'
      · obtain ⟨p, rfl⟩ := List.head?_eq_some_iff.mp hhead
        exact .stars (ihp hpattern ht)
      · induction t with
        | nil => exact .star_nil hhead hpattern
        | cons x t iht =>
          have htext : NUL ∉ t := fun h ↦ ht (List.mem_cons_of_mem x h)
          by_cases hx : x = '*'
          · subst hx
            exact .meets hhead (ihp hpattern htext)
          · exact .star_cons hhead hx (fun h ↦ ht (h ▸ List.mem_cons_self)) (ihp hpattern ht)
              (iht htext)
    · rcases t with _ | ⟨x, t⟩
      · by_cases hany : c = '?'
        · subst hany
          exact .any_nil
        · exact .one_nil hstar hany hc
      · exact .one_cons hstar hc (ihp hpattern fun h ↦ ht (List.mem_cons_of_mem x h))

/-! ## The search without its order -/

/-- `Leads End p t`: taking away, from the left, letters of the pattern and of the text that
belong together leads to a pair in `End`.  A star of the pattern that meets a star of the text
takes just this one away and ends. -/
inductive Leads (End : List Char → List Char → Prop) : List Char → List Char → Prop
  | here {p t : List Char} (h : End p t) : Leads End p t
  | one {c x : Char} {p t : List Char} (hc : c ≠ '*') (hx : c = '?' ∨ c = x)
    (h : Leads End p t) : Leads End (c :: p) (x :: t)
  | stars {p t : List Char} (h : Leads End ('*' :: p) t) : Leads End ('*' :: '*' :: p) t
  | meets {p t : List Char} (hstar : p.head? ≠ some '*') (h : Leads End p t) :
    Leads End ('*' :: p) ('*' :: t)
  | ends {x : Char} {p t : List Char} (hstar : p.head? ≠ some '*') (hx : x ≠ '*')
    (h : Leads End p (x :: t)) : Leads End ('*' :: p) (x :: t)
  | more {x : Char} {p t : List Char} (hstar : p.head? ≠ some '*') (hx : x ≠ '*')
    (h : Leads End ('*' :: p) t) : Leads End ('*' :: p) (x :: t)

/-- The text is used up, and the pattern up to a star. -/
def Used (p t : List Char) : Prop := t = [] ∧ (p = [] ∨ p = ['*'])

/-- The text is used up, and a `?` follows in the pattern. -/
def Behind (p t : List Char) : Prop := t = [] ∧ ∃ r, p = '?' :: r

/-- The text is matched, and no star of the pattern passes over a star of the text. -/
abbrev Plain : List Char → List Char → Prop := Leads Used

/-- Some part of the pattern before a `?` uses the text up. -/
abbrev Overrun : List Char → List Char → Prop := Leads Behind

section Inversion

variable {End : List Char → List Char → Prop} {c x : Char} {p t : List Char}

theorem leads_one_cons (hend : ∀ p t, End p t → t = []) (hc : c ≠ '*') :
    Leads End (c :: p) (x :: t) ↔ (c = '?' ∨ c = x) ∧ Leads End p t := by
  constructor
  · intro h
    cases h with
    | here h => cases hend _ _ h
    | one _ hx h => exact ⟨hx, h⟩
    | stars | meets | ends | more => exact absurd rfl hc
  · exact fun h ↦ .one hc h.1 h.2

theorem leads_meets (hend : ∀ p t, End p t → t = []) (hstar : p.head? ≠ some '*') :
    Leads End ('*' :: p) ('*' :: t) ↔ Leads End p t := by
  constructor
  · intro h
    cases h with
    | here h => cases hend _ _ h
    | one hc => exact absurd rfl hc
    | stars => exact absurd rfl hstar
    | meets _ h => exact h
    | ends _ hx | more _ hx => exact absurd rfl hx
  · exact .meets hstar

theorem leads_star_cons (hend : ∀ p t, End p t → t = []) (hstar : p.head? ≠ some '*')
    (hx : x ≠ '*') :
    Leads End ('*' :: p) (x :: t) ↔ Leads End p (x :: t) ∨ Leads End ('*' :: p) t := by
  constructor
  · intro h
    cases h with
    | here h => cases hend _ _ h
    | one hc => exact absurd rfl hc
    | stars => exact absurd rfl hstar
    | meets => exact absurd rfl hx
    | ends _ _ h => exact .inl h
    | more _ _ h => exact .inr h
  · rintro (h | h)
    · exact .ends hstar hx h
    · exact .more hstar hx h

theorem leads_stars (hend : ∀ p t, ¬ End ('*' :: '*' :: p) t) :
    Leads End ('*' :: '*' :: p) t ↔ Leads End ('*' :: p) t := by
  constructor
  · intro h
    cases h with
    | here h => exact absurd h (hend _ _)
    | one hc => exact absurd rfl hc
    | stars h => exact h
    | meets hstar | ends hstar | more hstar => exact absurd rfl hstar
  · exact .stars

/-- Where the text is used up, only passing over stars is left to do. -/
theorem leads_nil (hstars : c = '*' → p.head? ≠ some '*') :
    Leads End (c :: p) [] ↔ End (c :: p) [] := by
  constructor
  · intro h
    cases h with
    | here h => exact h
    | stars => exact absurd rfl (hstars rfl)
  · exact .here

theorem Used.eq_nil (p t : List Char) (h : Used p t) : t = [] := h.1

theorem Behind.eq_nil (p t : List Char) (h : Behind p t) : t = [] := h.1

theorem not_used_stars (p t : List Char) : ¬ Used ('*' :: '*' :: p) t := by
  rintro ⟨-, h | h⟩ <;> cases h

theorem not_behind_stars (p t : List Char) : ¬ Behind ('*' :: '*' :: p) t := by
  rintro ⟨-, r, h⟩
  cases h

theorem plain_nil : Plain [] t ↔ t = [] := by
  constructor
  · intro h
    cases h with
    | here h => exact h.1
  · exact fun h ↦ .here ⟨h, .inl rfl⟩

theorem not_overrun_nil : ¬ Overrun [] t := by
  intro h
  cases h with
  | here h =>
    obtain ⟨-, r, hr⟩ := h
    cases hr

theorem plain_stars : Plain ('*' :: '*' :: p) t ↔ Plain ('*' :: p) t := leads_stars not_used_stars

theorem overrun_stars : Overrun ('*' :: '*' :: p) t ↔ Overrun ('*' :: p) t :=
  leads_stars not_behind_stars

theorem plain_meets (hstar : p.head? ≠ some '*') : Plain ('*' :: p) ('*' :: t) ↔ Plain p t :=
  leads_meets Used.eq_nil hstar

theorem overrun_meets (hstar : p.head? ≠ some '*') :
    Overrun ('*' :: p) ('*' :: t) ↔ Overrun p t :=
  leads_meets Behind.eq_nil hstar

theorem plain_star_cons (hstar : p.head? ≠ some '*') (hx : x ≠ '*') :
    Plain ('*' :: p) (x :: t) ↔ Plain p (x :: t) ∨ Plain ('*' :: p) t :=
  leads_star_cons Used.eq_nil hstar hx

theorem overrun_star_cons (hstar : p.head? ≠ some '*') (hx : x ≠ '*') :
    Overrun ('*' :: p) (x :: t) ↔ Overrun p (x :: t) ∨ Overrun ('*' :: p) t :=
  leads_star_cons Behind.eq_nil hstar hx

theorem plain_one_cons (hc : c ≠ '*') :
    Plain (c :: p) (x :: t) ↔ (c = '?' ∨ c = x) ∧ Plain p t :=
  leads_one_cons Used.eq_nil hc

theorem overrun_one_cons (hc : c ≠ '*') :
    Overrun (c :: p) (x :: t) ↔ (c = '?' ∨ c = x) ∧ Overrun p t :=
  leads_one_cons Behind.eq_nil hc

theorem plain_star_nil (hstar : p.head? ≠ some '*') : Plain ('*' :: p) [] ↔ p = [] := by
  refine (leads_nil fun _ ↦ hstar).trans ?_
  simp [Used]

theorem not_overrun_star_nil (hstar : p.head? ≠ some '*') : ¬ Overrun ('*' :: p) [] := by
  refine (leads_nil fun _ ↦ hstar).not.mpr ?_
  simp [Behind]

theorem not_plain_one_nil (hc : c ≠ '*') : ¬ Plain (c :: p) [] := by
  refine (leads_nil fun h ↦ absurd h hc).not.mpr ?_
  simp [Used, hc]

theorem overrun_one_nil (hc : c ≠ '*') : Overrun (c :: p) [] ↔ c = '?' := by
  refine (leads_nil fun h ↦ absurd h hc).trans ?_
  simp [Behind]

end Inversion

/-! ## What the search answers -/

section Search

variable {p t : List Char}

/-- What a star stands for can be taken away. -/
theorem exists_suffix_of_plain_star (hstar : p.head? ≠ some '*') (h : Plain ('*' :: p) t) :
    ∃ s, s <:+ t ∧ Plain p s := by
  induction t with
  | nil =>
    obtain rfl := (plain_star_nil hstar).mp h
    exact ⟨[], List.suffix_rfl, plain_nil.mpr rfl⟩
  | cons x t ih =>
    by_cases hx : x = '*'
    · subst hx
      exact ⟨t, List.suffix_cons _ t, (plain_meets hstar).mp h⟩
    · rcases (plain_star_cons hstar hx).mp h with h | h
      · exact ⟨x :: t, List.suffix_rfl, h⟩
      · obtain ⟨s, hs, hplain⟩ := ih h
        exact ⟨s, hs.trans (List.suffix_cons x t), hplain⟩

/-- A plain match is found, and what is read behind the text rules out a plain match of every end
of the text.  So nothing is read behind the text before a plain match is found. -/
theorem run_plain (h : Calls p t) :
    (Plain p t → run p t = some true) ∧ (run p t = none → ∀ s, s <:+ t → ¬ Plain p s) := by
  induction h with
  | nil_nil => exact ⟨fun _ ↦ run_nil_nil, fun h ↦ by simp [run_nil_nil] at h⟩
  | nil_cons hx =>
    refine ⟨fun h ↦ ?_, fun h ↦ by simp [run_nil_cons hx] at h⟩
    cases plain_nil.mp h
  | stars _ ih =>
    rw [run_star_star]
    simp only [plain_stars]
    exact ih
  | star_nil hstar hnul =>
    rw [run_star_nil hstar hnul]
    exact ⟨fun h ↦ by simp [(plain_star_nil hstar).mp h], nofun⟩
  | @meets p t hstar _ ih =>
    rw [run_star_meets hstar]
    refine ⟨fun h ↦ ih.1 ((plain_meets hstar).mp h), fun hnone s hs hplain ↦ ?_⟩
    rcases List.suffix_cons_iff.mp hs with rfl | hs
    · exact ih.2 hnone t List.suffix_rfl ((plain_meets hstar).mp hplain)
    · obtain ⟨s', hs', hplain⟩ := exists_suffix_of_plain_star hstar hplain
      exact ih.2 hnone s' (hs'.trans hs) hplain
  | @star_cons x p t hstar hx hnul _ _ ihp iht =>
    rw [run_star_cons hstar hx hnul]
    rcases hrun : run p (x :: t) with _ | _ | _
    · have hnot : ∀ s, s <:+ x :: t → ¬ Plain ('*' :: p) s := by
        intro s hs hplain
        obtain ⟨s', hs', hplain⟩ := exists_suffix_of_plain_star hstar hplain
        exact ihp.2 hrun s' (hs'.trans hs) hplain
      exact ⟨fun h ↦ absurd h (hnot _ List.suffix_rfl), fun _ ↦ hnot⟩
    · refine ⟨fun hplain ↦ ?_, fun hnone s hs hplain ↦ ?_⟩
      · rcases (plain_star_cons hstar hx).mp hplain with h | h
        · rw [ihp.1 h] at hrun
          cases hrun
        · exact iht.1 h
      · rcases List.suffix_cons_iff.mp hs with rfl | hs
        · rcases (plain_star_cons hstar hx).mp hplain with h | h
          · rw [ihp.1 h] at hrun
            cases hrun
          · exact iht.2 hnone t List.suffix_rfl h
        · exact iht.2 hnone s hs hplain
    · exact ⟨fun _ ↦ rfl, nofun⟩
  | any_nil =>
    refine ⟨fun h ↦ absurd h (not_plain_one_nil (by decide)), fun _ s hs ↦ ?_⟩
    rw [List.suffix_nil.mp hs]
    exact not_plain_one_nil (by decide)
  | one_nil hc hany hnul =>
    rw [run_one_nil hc hany hnul]
    exact ⟨fun h ↦ absurd h (not_plain_one_nil hc), nofun⟩
  | @one_cons c x p t hc hnul _ ih =>
    rw [run_one_cons hc hnul, plain_one_cons hc]
    refine ⟨fun h ↦ (if_pos h.1).trans (ih.1 h.2), fun hnone s hs hplain ↦ ?_⟩
    have htail : run p t = none := by
      by_cases hx : c = '?' ∨ c = x
      · rwa [if_pos hx] at hnone
      · rw [if_neg hx] at hnone
        cases hnone
    rcases s with _ | ⟨y, s⟩
    · exact not_plain_one_nil hc hplain
    · have hs : s <:+ t := by
        rcases List.suffix_cons_iff.mp hs with heq | hs
        · exact (List.cons.inj heq).2 ▸ List.suffix_rfl
        · exact (List.suffix_cons y s).trans hs
      exact ih.2 htail s hs ((plain_one_cons hc).mp hplain).2

/-- What is found is a plain match. -/
theorem plain_of_run (h : Calls p t) (htrue : run p t = some true) : Plain p t := by
  induction h with
  | nil_nil => exact plain_nil.mpr rfl
  | nil_cons hx =>
    rw [run_nil_cons hx] at htrue
    cases htrue
  | stars _ ih =>
    rw [run_star_star] at htrue
    exact plain_stars.mpr (ih htrue)
  | star_nil hstar hnul =>
    rw [run_star_nil hstar hnul] at htrue
    exact (plain_star_nil hstar).mpr (by simpa using htrue)
  | meets hstar _ ih =>
    rw [run_star_meets hstar] at htrue
    exact (plain_meets hstar).mpr (ih htrue)
  | @star_cons x p t hstar hx hnul _ _ ihp iht =>
    rw [run_star_cons hstar hx hnul] at htrue
    rcases hrun : run p (x :: t) with _ | _ | _
    · rw [hrun] at htrue
      cases htrue
    · rw [hrun] at htrue
      exact (plain_star_cons hstar hx).mpr (.inr (iht htrue))
    · exact (plain_star_cons hstar hx).mpr (.inl (ihp hrun))
  | any_nil =>
    rw [run_any_nil] at htrue
    cases htrue
  | one_nil hc hany hnul =>
    rw [run_one_nil hc hany hnul] at htrue
    cases htrue
  | @one_cons c x p t hc hnul _ ih =>
    rw [run_one_cons hc hnul] at htrue
    by_cases hx : c = '?' ∨ c = x
    · rw [if_pos hx] at htrue
      exact (plain_one_cons hc).mpr ⟨hx, ih htrue⟩
    · rw [if_neg hx] at htrue
      cases htrue

/-- What is read behind the text is read for a `?`. -/
theorem overrun_of_run (h : Calls p t) (hnone : run p t = none) : Overrun p t := by
  induction h with
  | nil_nil =>
    rw [run_nil_nil] at hnone
    cases hnone
  | nil_cons hx =>
    rw [run_nil_cons hx] at hnone
    cases hnone
  | stars _ ih =>
    rw [run_star_star] at hnone
    exact overrun_stars.mpr (ih hnone)
  | star_nil hstar hnul =>
    rw [run_star_nil hstar hnul] at hnone
    cases hnone
  | meets hstar _ ih =>
    rw [run_star_meets hstar] at hnone
    exact (overrun_meets hstar).mpr (ih hnone)
  | @star_cons x p t hstar hx hnul _ _ ihp iht =>
    rw [run_star_cons hstar hx hnul] at hnone
    rcases hrun : run p (x :: t) with _ | _ | _
    · exact (overrun_star_cons hstar hx).mpr (.inl (ihp hrun))
    · rw [hrun] at hnone
      exact (overrun_star_cons hstar hx).mpr (.inr (iht hnone))
    · rw [hrun] at hnone
      cases hnone
  | any_nil => exact (overrun_one_nil (by decide)).mpr rfl
  | one_nil hc hany hnul =>
    rw [run_one_nil hc hany hnul] at hnone
    cases hnone
  | @one_cons c x p t hc hnul _ ih =>
    rw [run_one_cons hc hnul] at hnone
    by_cases hx : c = '?' ∨ c = x
    · rw [if_pos hx] at hnone
      exact (overrun_one_cons hc).mpr ⟨hx, ih hnone⟩
    · rw [if_neg hx] at hnone
      cases hnone

/-- A search without success comes to every `?` behind the text. -/
theorem run_ne_false_of_overrun (h : Calls p t) (hover : Overrun p t) :
    run p t ≠ some false := by
  induction h with
  | nil_nil | nil_cons => exact absurd hover not_overrun_nil
  | stars _ ih =>
    rw [run_star_star]
    exact ih (overrun_stars.mp hover)
  | star_nil hstar => exact absurd hover (not_overrun_star_nil hstar)
  | meets hstar _ ih =>
    rw [run_star_meets hstar]
    exact ih ((overrun_meets hstar).mp hover)
  | @star_cons x p t hstar hx hnul _ _ ihp iht =>
    rw [run_star_cons hstar hx hnul]
    rcases hrun : run p (x :: t) with _ | _ | _
    · exact nofun
    · rcases (overrun_star_cons hstar hx).mp hover with h | h
      · exact absurd hrun (ihp h)
      · exact iht h
    · exact nofun
  | any_nil =>
    rw [run_any_nil]
    exact nofun
  | one_nil hc hany => exact absurd ((overrun_one_nil hc).mp hover) hany
  | one_cons hc hnul _ ih =>
    obtain ⟨hx, hover⟩ := (overrun_one_cons hc).mp hover
    rw [run_one_cons hc hnul, if_pos hx]
    exact ih hover

theorem run_eq_true_iff (hp : NUL ∉ p) (ht : NUL ∉ t) : run p t = some true ↔ Plain p t :=
  ⟨plain_of_run (calls hp ht), (run_plain (calls hp ht)).1⟩

theorem run_eq_none_iff (hp : NUL ∉ p) (ht : NUL ∉ t) :
    run p t = none ↔ Overrun p t ∧ ¬ Plain p t := by
  constructor
  · exact fun h ↦ ⟨overrun_of_run (calls hp ht) h,
      (run_plain (calls hp ht)).2 h t List.suffix_rfl⟩
  · rintro ⟨hover, hplain⟩
    rcases hrun : run p t with _ | _ | _
    · rfl
    · exact absurd hrun (run_ne_false_of_overrun (calls hp ht) hover)
    · exact absurd ((run_eq_true_iff hp ht).mp hrun) hplain

end Search

/-! ## Against the language of the pattern -/

/-- The language of a pattern of the function. -/
abbrev language (p : List Char) : Language Char := Glob.language '*' '?' p

section Language

variable {p t : List Char}

theorem mem_language_of_plain (h : Plain p t) : t ∈ language p := by
  induction h with
  | here h =>
    obtain ⟨rfl, rfl | rfl⟩ := h
    · exact Glob.mem_language_nil.mpr rfl
    · exact Glob.nil_mem_language_star.mpr (Glob.mem_language_nil.mpr rfl)
  | one hc hx _ ih => exact (Glob.cons_mem_language hc).mpr ⟨hx, ih⟩
  | stars _ ih => exact Glob.mem_language_star_star.mpr ih
  | @meets p t _ _ ih =>
    exact Glob.mem_language_star.mpr ⟨t, ih, List.suffix_cons _ t⟩
  | ends _ _ _ ih => exact Glob.cons_mem_language_star.mpr (.inl ih)
  | more _ _ _ ih => exact Glob.cons_mem_language_star.mpr (.inr ih)

/-- A text without stars is matched plainly or not at all. -/
theorem plain_iff_mem_language (hp : NUL ∉ p) (ht : NUL ∉ t) (hstar : '*' ∉ t) :
    Plain p t ↔ t ∈ language p := by
  refine ⟨mem_language_of_plain, fun hmem ↦ ?_⟩
  have hcalls := calls hp ht
  clear hp ht
  induction hcalls with
  | nil_nil => exact plain_nil.mpr rfl
  | nil_cons hx => cases Glob.mem_language_nil.mp hmem
  | stars _ ih => exact plain_stars.mpr (ih hstar (Glob.mem_language_star_star.mp hmem))
  | @star_nil p hhead hnul =>
    rw [plain_star_nil hhead]
    rcases p with _ | ⟨c, p⟩
    · rfl
    · have hc : c ≠ '*' := fun h ↦ hhead (congrArg some h)
      exact absurd (Glob.nil_mem_language_star.mp hmem) (Glob.nil_notMem_language hc)
  | meets _ _ => exact absurd List.mem_cons_self hstar
  | star_cons hhead hx hnul _ _ ihp iht =>
    rw [plain_star_cons hhead hx]
    rcases Glob.cons_mem_language_star.mp hmem with h | h
    · exact .inl (ihp hstar h)
    · exact .inr (iht (fun hin ↦ hstar (List.mem_cons_of_mem _ hin)) h)
  | any_nil => exact absurd hmem (Glob.nil_notMem_language (by decide))
  | one_nil hc => exact absurd hmem (Glob.nil_notMem_language hc)
  | one_cons hc hnul _ ih =>
    obtain ⟨hx, h⟩ := (Glob.cons_mem_language hc).mp hmem
    exact (plain_one_cons hc).mpr ⟨hx, ih (fun hin ↦ hstar (List.mem_cons_of_mem _ hin)) h⟩

/-- Only a `?` is looked for behind the text. -/
theorem any_mem_of_overrun (h : Overrun p t) : '?' ∈ p := by
  induction h with
  | here h =>
    obtain ⟨-, r, rfl⟩ := h
    exact List.mem_cons_self
  | one _ _ _ ih | stars _ ih | meets _ _ ih | ends _ _ _ ih => exact List.mem_cons_of_mem _ ih
  | more _ _ _ ih => exact ih

end Language

/-- The match comes to an end without reading behind the strings, and answers whether the text is
in the language of the pattern. -/
def MatchLaw (pattern text : CString) : Prop :=
  ∃ answer, «match» pattern.pointer text.pointer = some answer ∧
    (answer = true ↔ text.chars ∈ language pattern.chars)

/-- A text of the language has to be matched without passing over a star. -/
theorem matchLaw_iff_plain {pattern text : CString} (hmem : text.chars ∈ language pattern.chars) :
    MatchLaw pattern text ↔ Plain pattern.chars text.chars := by
  rw [← run_eq_true_iff pattern.nul_notMem text.nul_notMem]
  unfold MatchLaw
  simp only [hmem, iff_true, exists_eq_right]
  rfl

/-- For any other text no `?` may be looked for behind it. -/
theorem matchLaw_iff_not_overrun {pattern text : CString}
    (hmem : text.chars ∉ language pattern.chars) :
    MatchLaw pattern text ↔ ¬ Overrun pattern.chars text.chars := by
  have hplain : ¬ Plain pattern.chars text.chars := fun h ↦ hmem (mem_language_of_plain h)
  have htrue := run_eq_true_iff pattern.nul_notMem text.nul_notMem
  have hnone := run_eq_none_iff pattern.nul_notMem text.nul_notMem
  rw [and_iff_left hplain] at hnone
  rw [← hnone]
  unfold MatchLaw
  simp only [hmem, iff_false, Bool.not_eq_true, exists_eq_right]
  show run pattern.chars text.chars = some false ↔ _
  rcases hrun : run pattern.chars text.chars with _ | _ | _
  · simp
  · simp
  · exact absurd (htrue.mp hrun) hplain

/-- The match is right exactly where each text of the language is matched without passing over a
star, and no `?` is looked for behind any other text. -/
theorem matchLaw_iff (pattern text : CString) : MatchLaw pattern text ↔
    (text.chars ∈ language pattern.chars → Plain pattern.chars text.chars) ∧
      (text.chars ∉ language pattern.chars → ¬ Overrun pattern.chars text.chars) := by
  by_cases hmem : text.chars ∈ language pattern.chars
  · rw [matchLaw_iff_plain hmem, and_iff_left (absurd hmem), forall_prop_of_true hmem]
  · rw [matchLaw_iff_not_overrun hmem, and_iff_right fun h ↦ absurd h hmem,
      forall_prop_of_true hmem]

/-- A pattern without `?` is matched rightly with every text without stars. -/
theorem matchLaw_of_notMem {pattern text : CString} (hany : '?' ∉ pattern.chars)
    (hstar : '*' ∉ text.chars) : MatchLaw pattern text := by
  by_cases hmem : text.chars ∈ language pattern.chars
  · rw [matchLaw_iff_plain hmem,
      plain_iff_mem_language pattern.nul_notMem text.nul_notMem hstar]
    exact hmem
  · rw [matchLaw_iff_not_overrun hmem]
    exact fun hover ↦ hany (any_mem_of_overrun hover)

/-- The pattern `?` reads behind the empty text, and the pattern `*` does not match `*a`. -/
theorem match_departs :
    «match» ['?', NUL] [NUL] = none ∧ ¬ MatchLaw ⟨['?'], by decide⟩ ⟨[], by decide⟩ ∧
      «match» ['*', NUL] ['*', 'a', NUL] = some false ∧
        ¬ MatchLaw ⟨['*'], by decide⟩ ⟨['*', 'a'], by decide⟩ := by
  have hany : run ['?'] [] = none := run_any_nil
  have hstar : run ['*'] ['*', 'a'] = some false := by
    rw [run_star_meets (by decide), run_nil_cons (by decide)]
  refine ⟨hany, ?_, hstar, ?_⟩
  · rintro ⟨answer, hanswer, -⟩
    have hrun : run ['?'] [] = some answer := hanswer
    rw [hany] at hrun
    cases hrun
  · rintro ⟨answer, hanswer, hmem⟩
    have hrun : run ['*'] ['*', 'a'] = some answer := hanswer
    rw [hstar] at hrun
    cases hrun
    refine Bool.false_ne_true (hmem.mpr ?_)
    exact Glob.mem_language_star.mpr ⟨[], Glob.mem_language_nil.mpr rfl, List.nil_suffix⟩

end Utils

end OwSec
