import Mathlib.Data.List.Infix
import Mathlib.Data.List.Nodup

/-!
# Replacing patterns in a text

A text is read from left to right, and wherever a pattern of a table stands, something is put
in its place; what was put in is not looked at again (`expand`).  Replacing one pattern is the
table with one row; replacing all of them at once is the whole table.

Replacing them one after another is something else: a later pattern may be found in what an
earlier one put in, or be made up of the two sides of it.  `marked` remembers what was put in,
and `Stands` says that a pattern is found in what is left of the text only.  While this is so,
one after another is all at once (`replaceEach_eq`), and it is so, for every text, exactly if no
replacement can be part of a later pattern (`Inert`).

The patterns are `Bracketed`: they open and close with symbols that they have nowhere else.
-/

namespace Kit

universe u v w

variable {α : Type u} {β : Type v} {γ : Type w}

/-! ## Patterns -/

/-- The pattern opens with `o` and closes with `c`, and has neither in between. -/
def Bracketed (o c : α) (pattern : List α) : Prop :=
  ∃ name, pattern = o :: (name ++ [c]) ∧ o ∉ name ∧ c ∉ name

section Patterns

variable {o c : α} {p q : List α}

theorem Bracketed.ne_nil (h : Bracketed o c p) : p ≠ [] := by
  obtain ⟨name, rfl, -, -⟩ := h
  exact List.cons_ne_nil _ _

/-- What is behind a part of the pattern does not open one. -/
theorem Bracketed.notMem_suffix (hoc : o ≠ c) (h : Bracketed o c p) {xs ys : List α}
    (heq : p = xs ++ ys) (hxs : xs ≠ []) : o ∉ ys := by
  obtain ⟨name, rfl, ho, -⟩ := h
  cases xs with
  | nil => exact absurd rfl hxs
  | cons a xs =>
    obtain ⟨-, htail⟩ := List.cons.inj heq
    intro hys
    have hmem : o ∈ name ++ [c] := htail ▸ List.mem_append_right xs hys
    rcases List.mem_append.mp hmem with hname | hlast
    · exact ho hname
    · exact hoc (List.mem_singleton.mp hlast)

/-- What is in front of a part of the pattern does not close one. -/
theorem Bracketed.notMem_prefix (hoc : o ≠ c) (h : Bracketed o c p) {xs ys : List α}
    (heq : p = xs ++ ys) (hys : ys ≠ []) : c ∉ xs := by
  obtain ⟨name, rfl, -, hc⟩ := h
  obtain ⟨zs, z, rfl⟩ := List.eq_nil_or_concat' ys |>.resolve_left hys
  have hfront : o :: name = xs ++ zs := by
    have hlast : o :: name ++ [c] = xs ++ zs ++ [z] := by simpa using heq
    exact (List.append_inj' hlast rfl).1
  intro hxs
  have hmem : c ∈ o :: name := hfront ▸ List.mem_append_left zs hxs
  rcases List.mem_cons.mp hmem with rfl | hname
  · exact hoc rfl
  · exact hc hname

/-- A text begins with one pattern at most. -/
theorem Bracketed.eq_of_prefix (hoc : o ≠ c) (hp : Bracketed o c p) (hq : Bracketed o c q)
    {text : List α} (h : p <+: text) (h' : q <+: text) : p = q := by
  -- The shorter one would close inside the longer one.
  have hle {p q : List α} (hp : Bracketed o c p) (hq : Bracketed o c q) (hpq : p <+: q) :
      p = q := by
    obtain ⟨zs, rfl⟩ := hpq
    by_cases hzs : zs = []
    · rw [hzs, List.append_nil]
    · refine absurd ?_ (hq.notMem_prefix hoc rfl hzs)
      obtain ⟨name, rfl, -, -⟩ := hp
      simp
  rcases Nat.le_total p.length q.length with hlength | hlength
  · exact hle hp hq (List.prefix_of_prefix_length_le h h' hlength)
  · exact (hle hq hp (List.prefix_of_prefix_length_le h' h hlength)).symm

end Patterns

/-- A table with bracketed patterns, each once. -/
structure Patterns (o c : α) (table : List (List α × γ)) : Prop where
  distinct : o ≠ c
  bracketed : ∀ e ∈ table, Bracketed o c e.1
  nodup : (table.map Prod.fst).Nodup

namespace Patterns

variable {o c : α} {table table' : List (List α × γ)}

theorem perm (h : Patterns o c table) (hperm : table.Perm table') : Patterns o c table' where
  distinct := h.distinct
  bracketed e he := h.bracketed e (hperm.mem_iff.mpr he)
  nodup := (hperm.map Prod.fst).nodup_iff.mp h.nodup

theorem of_append {before after : List (List α × γ)} (h : Patterns o c (before ++ after)) :
    Patterns o c before where
  distinct := h.distinct
  bracketed e he := h.bracketed e (List.mem_append_left after he)
  nodup := by
    have hnodup := h.nodup
    rw [List.map_append] at hnodup
    exact List.Nodup.of_append_left hnodup

end Patterns

/-! ## Reading from left to right -/

variable [DecidableEq α]

/-- The first row of the table whose pattern the text begins with. -/
def matching (table : List (List α × γ)) (text : List α) : Option (List α × γ) :=
  table.find? fun e ↦ e.1.isPrefixOf text

/-- The text with the patterns of the table replaced; `skip` symbols of a pattern are still to be
passed over. -/
def expand (keep : α → β) (put : γ → List β) (table : List (List α × γ)) : ℕ → List α → List β
  | _, [] => []
  | skip + 1, _ :: text => expand keep put table skip text
  | 0, a :: text =>
    match matching table (a :: text) with
    | some e => put e.2 ++ expand keep put table (e.1.length - 1) text
    | none => keep a :: expand keep put table 0 text

section Expand

variable {keep : α → β} {put : γ → List β} {table : List (List α × γ)}

theorem expand_nil (skip : ℕ) : expand keep put table skip [] = [] := by
  cases skip <;> rfl

theorem expand_skip (xs text : List α) :
    expand keep put table xs.length (xs ++ text) = expand keep put table 0 text := by
  induction xs with
  | nil => rfl
  | cons a xs ih => exact ih

/-- Where a pattern stands its replacement is put. -/
theorem expand_hit {e : List α × γ} {rest : List α} (hne : e.1 ≠ [])
    (h : matching table (e.1 ++ rest) = some e) :
    expand keep put table 0 (e.1 ++ rest) = put e.2 ++ expand keep put table 0 rest := by
  obtain ⟨pattern, value⟩ := e
  cases pattern with
  | nil => exact absurd rfl hne
  | cons a xs =>
    change expand keep put table 0 (a :: (xs ++ rest)) = _
    change matching table (a :: (xs ++ rest)) = _ at h
    rw [expand, h]
    exact congrArg (put value ++ ·) (expand_skip xs rest)

/-- Where no pattern stands the symbol is kept. -/
theorem expand_miss {a : α} {rest : List α} (h : matching table (a :: rest) = none) :
    expand keep put table 0 (a :: rest) = keep a :: expand keep put table 0 rest := by
  rw [expand, h]

theorem mem_of_matching {text : List α} {e : List α × γ} (h : matching table text = some e) :
    e ∈ table ∧ e.1 <+: text := by
  have hfound : table.find? (fun e ↦ e.1.isPrefixOf text) = some e := h
  have hstands := List.find?_some hfound
  exact ⟨List.mem_of_find?_eq_some hfound, List.isPrefixOf_iff_prefix.mp hstands⟩

theorem matching_eq_none {text : List α} :
    matching table text = none ↔ ∀ e ∈ table, ¬ e.1 <+: text := by
  simp [matching, List.find?_eq_none, List.isPrefixOf_iff_prefix]

/-- Induction along a text: a pattern at a time, or a symbol where none stands. -/
theorem expand_induction (table : List (List α × γ)) {P : List α → Prop} (hne : ∀ e ∈ table, e.1 ≠ []) (nil : P [])
    (hit : ∀ e rest, matching table (e.1 ++ rest) = some e → P rest → P (e.1 ++ rest))
    (miss : ∀ a rest, matching table (a :: rest) = none → P rest → P (a :: rest))
    (text : List α) : P text := by
  induction hlength : text.length using Nat.strong_induction_on generalizing text with
  | _ n ih =>
    cases text with
    | nil => exact nil
    | cons a rest =>
      rcases hmatch : matching table (a :: rest) with _ | e
      · exact miss a rest hmatch (ih rest.length (by simp [← hlength]) rest rfl)
      · obtain ⟨hmem, after, hafter⟩ := mem_of_matching hmatch
        have hpos : 0 < e.1.length := List.length_pos_iff.mpr (hne e hmem)
        have hshort : after.length < n := by
          rw [← hlength, ← hafter, List.length_append]
          omega
        rw [← hafter] at hmatch ⊢
        exact hit e after hmatch (ih after.length hshort after rfl)

/-- A text in which no pattern begins is kept. -/
theorem expand_passes {xs rest : List α}
    (h : ∀ ys zs, xs = ys ++ zs → zs ≠ [] → matching table (zs ++ rest) = none) :
    expand keep put table 0 (xs ++ rest) = xs.map keep ++ expand keep put table 0 rest := by
  induction xs with
  | nil => rfl
  | cons a xs ih =>
    have hhead : matching table (a :: (xs ++ rest)) = none := h [] (a :: xs) rfl (by simp)
    rw [List.cons_append, expand_miss hhead, List.map_cons, List.cons_append]
    exact congrArg (keep a :: ·) (ih fun ys zs heq ↦ h (a :: ys) zs (congrArg (a :: ·) heq))

/-- Only what the table says where matters. -/
theorem expand_congr {table' : List (List α × γ)} (h : ∀ text, matching table text = matching table' text)
    (skip : ℕ) (text : List α) :
    expand keep put table skip text = expand keep put table' skip text := by
  induction text generalizing skip with
  | nil => rw [expand_nil, expand_nil]
  | cons a text ih =>
    cases skip with
    | succ skip => exact ih skip
    | zero =>
      rw [expand, expand, h]
      rcases matching table' (a :: text) with _ | e
      · exact congrArg (keep a :: ·) (ih 0)
      · exact congrArg (put e.2 ++ ·) (ih _)

end Expand

namespace Patterns

variable {o c : α} {table table' : List (List α × γ)} {text : List α} {e : List α × γ}

/-- The row whose pattern the text begins with. -/
theorem matching_iff (h : Patterns o c table) :
    matching table text = some e ↔ e ∈ table ∧ e.1 <+: text := by
  refine ⟨mem_of_matching, fun ⟨hmem, hstands⟩ ↦ ?_⟩
  rcases hmatch : matching table text with _ | e'
  · exact absurd hstands (matching_eq_none.mp hmatch e hmem)
  · obtain ⟨hmem', hstands'⟩ := mem_of_matching hmatch
    have hpattern : e'.1 = e.1 := Bracketed.eq_of_prefix h.distinct (h.bracketed e' hmem')
      (h.bracketed e hmem) hstands' hstands
    rw [List.inj_on_of_nodup_map h.nodup hmem' hmem hpattern]

/-- The order of the rows does not matter. -/
theorem matching_perm (h : Patterns o c table) (hperm : table.Perm table') (text : List α) :
    matching table text = matching table' text := by
  refine Option.ext fun e ↦ ?_
  rw [h.matching_iff, (h.perm hperm).matching_iff, hperm.mem_iff]

/-- A text without an opening symbol has no patterns. -/
theorem matching_of_notMem (h : Patterns o c table) {a : α} (ha : a ≠ o) (rest : List α) :
    matching table (a :: rest) = none := by
  refine matching_eq_none.mpr fun e he hstands ↦ ?_
  obtain ⟨name, heq, -, -⟩ := h.bracketed e he
  rw [heq] at hstands
  exact ha (List.cons_prefix_cons.mp hstands).1.symm

end Patterns

/-! ## One after another and all at once -/

/-- One pattern is replaced wherever it stands. -/
def replaceAll (e : List α × List α) (text : List α) : List α := expand id id [e] 0 text

/-- The patterns of the table are replaced one after another. -/
def replaceEach (table : List (List α × List α)) (text : List α) : List α :=
  table.foldl (fun text e ↦ replaceAll e text) text

/-- The patterns of the table are replaced all at once. -/
def simultaneous (table : List (List α × List α)) (text : List α) : List α :=
  expand id id table 0 text

/-- The text with what was put in marked off: a symbol of the text, or something that was put
in. -/
def marked (table : List (List α × List α)) (text : List α) : List (α ⊕ List α) :=
  expand .inl (fun value ↦ [.inr value]) table 0 text

/-- The text without the marks. -/
def flatten (pieces : List (α ⊕ List α)) : List α := pieces.flatMap (Sum.elim (fun a ↦ [a]) id)

/-- A pattern is found only in what is left of the text, with nothing put in between. -/
def Stands (pattern : List α) (pieces : List (α ⊕ List α)) : Prop :=
  ∀ xs ys, flatten pieces = xs ++ pattern ++ ys →
    ∃ before after, pieces = before ++ pattern.map .inl ++ after ∧ flatten before = xs

section Pieces

variable {pattern : List α} {pieces pieces' : List (α ⊕ List α)}

omit [DecidableEq α]

theorem flatten_append : flatten (pieces ++ pieces') = flatten pieces ++ flatten pieces' :=
  List.flatMap_append

theorem flatten_inl (a : α) : flatten (.inl a :: pieces) = a :: flatten pieces := rfl

theorem flatten_inr (value : List α) : flatten (.inr value :: pieces) = value ++ flatten pieces :=
  rfl

theorem flatten_map_inl (xs : List α) : flatten (xs.map .inl) = xs := by
  induction xs with
  | nil => rfl
  | cons a xs ih => exact congrArg (a :: ·) ih

/-- Pieces that begin with as many symbols as another beginning are that beginning. -/
theorem append_map_inl_cases {before after : List (α ⊕ List α)} {xs ys : List α}
    (h : xs.map .inl ++ pieces = before ++ after) (hflat : flatten before = xs ++ ys) :
    ∃ rest, before = xs.map .inl ++ rest ∧ flatten rest = ys ∧ pieces = rest ++ after := by
  induction xs generalizing before with
  | nil => exact ⟨before, rfl, hflat, h⟩
  | cons a xs ih =>
    cases before with
    | nil => cases hflat
    | cons piece before =>
      obtain ⟨rfl, htail⟩ := List.cons.inj h
      obtain ⟨rest, rfl, hrest⟩ := ih htail (List.cons.inj hflat).2
      exact ⟨rest, rfl, hrest⟩

/-- The pattern stands in what is behind symbols of the text. -/
theorem Stands.of_symbols (xs : List α) (h : Stands pattern (xs.map .inl ++ pieces)) :
    Stands pattern pieces := by
  intro ys zs heq
  obtain ⟨before, after, hsplit, hflat⟩ := h (xs ++ ys) zs (by
    rw [flatten_append, flatten_map_inl, heq]
    simp)
  rw [List.append_assoc] at hsplit
  obtain ⟨rest, -, hrest, hpieces⟩ := append_map_inl_cases hsplit hflat
  exact ⟨rest, after, by rw [hpieces, List.append_assoc], hrest⟩

/-- The pattern stands in what is behind something that was put in. -/
theorem Stands.of_value {value : List α} (hne : pattern ≠ [])
    (h : Stands pattern (.inr value :: pieces)) : Stands pattern pieces := by
  intro ys zs heq
  obtain ⟨before, after, hsplit, hflat⟩ := h (value ++ ys) zs (by
    rw [flatten_inr, heq]
    simp)
  cases before with
  | nil =>
    cases pattern with
    | nil => exact absurd rfl hne
    | cons a pattern => cases hsplit
  | cons piece before =>
    obtain ⟨rfl, htail⟩ := List.cons.inj hsplit
    exact ⟨before, after, htail, List.append_cancel_left hflat⟩

/-- A pattern that the text begins with, where a symbol of it is left, is left as a whole. -/
theorem Stands.prefix_of_inl {a : α} (h : Stands pattern (.inl a :: pieces))
    (hstands : pattern <+: a :: flatten pieces) : pattern.map .inl <+: .inl a :: pieces := by
  obtain ⟨ys, hys⟩ := hstands
  obtain ⟨before, after, hsplit, hflat⟩ := h [] ys hys.symm
  cases before with
  | nil => exact ⟨after, hsplit.symm⟩
  | cons piece before =>
    obtain ⟨rfl, -⟩ := List.cons.inj hsplit
    cases hflat

/-- No pattern begins within something that was put in. -/
theorem Stands.not_prefix_of_inr {value xs ys : List α} (hne : pattern ≠ [])
    (h : Stands pattern (.inr value :: pieces)) (hvalue : value = xs ++ ys) (hys : ys ≠ []) :
    ¬ pattern <+: ys ++ flatten pieces := by
  rintro ⟨zs, hzs⟩
  obtain ⟨before, after, hsplit, hflat⟩ := h xs zs (by
    rw [flatten_inr, hvalue, List.append_assoc, List.append_assoc, hzs])
  cases before with
  | nil =>
    cases pattern with
    | nil => exact hne rfl
    | cons a pattern => cases hsplit
  | cons piece before =>
    obtain ⟨rfl, -⟩ := List.cons.inj hsplit
    have hlength := congrArg List.length hflat
    rw [flatten_inr, hvalue] at hlength
    have hpos := List.length_pos_iff.mpr hys
    simp only [List.length_append] at hlength
    omega

end Pieces

/-- Without the marks, all at once is all at once. -/
theorem flatten_marked (table : List (List α × List α)) (text : List α) :
    flatten (marked table text) = simultaneous table text := by
  unfold marked simultaneous
  generalize 0 = skip
  induction text generalizing skip with
  | nil => rw [expand_nil, expand_nil]; rfl
  | cons a text ih =>
    cases skip with
    | succ skip => exact ih skip
    | zero =>
      rw [expand, expand]
      rcases matching table (a :: text) with _ | e
      · exact congrArg (a :: ·) (ih 0)
      · exact congrArg (e.2 ++ ·) (ih _)

/-- One pattern is replaced wherever it is left. -/
def replaceLeft (e : List α × List α) (pieces : List (α ⊕ List α)) : List (α ⊕ List α) :=
  expand id (fun value ↦ [.inr value]) [(e.1.map .inl, e.2)] 0 pieces

section Single

variable {e : List α × List α}

/-- One row stands where its pattern does. -/
theorem matching_single {pattern text : List β} [DecidableEq β] (value : γ) :
    matching [(pattern, value)] text = none ↔ ¬ pattern <+: text := by
  simp [matching_eq_none]

theorem matching_single_self {pattern : List β} [DecidableEq β] (value : γ) (rest : List β) :
    matching [(pattern, value)] (pattern ++ rest) = some (pattern, value) := by
  simp [matching, List.isPrefixOf_iff_prefix]

/-- While a pattern is found in what is left only, it is replaced there only. -/
theorem replaceAll_flatten (hne : e.1 ≠ []) {pieces : List (α ⊕ List α)}
    (h : Stands e.1 pieces) : replaceAll e (flatten pieces) = flatten (replaceLeft e pieces) := by
  obtain ⟨pattern, value⟩ := e
  have hmapped : pattern.map (Sum.inl : α → α ⊕ List α) ≠ [] := by simpa using hne
  unfold replaceAll replaceLeft
  induction pieces using expand_induction [(pattern.map (.inl : α → α ⊕ List α), value)] with
  | hne e he => exact (List.mem_singleton.mp he) ▸ hmapped
  | nil => rfl
  | hit e rest hmatch ih =>
    obtain rfl := List.mem_singleton.mp (mem_of_matching hmatch).1
    rw [flatten_append, flatten_map_inl, expand_hit hne (matching_single_self value _),
      expand_hit hmapped (matching_single_self value _), ih (.of_symbols pattern h)]
    rfl
  | miss piece rest hmiss ih =>
    rw [expand_miss hmiss]
    have hnot := (matching_single value).mp hmiss
    rcases piece with a | inserted
    · have hstands : ¬ pattern <+: a :: flatten rest := fun hpre ↦ hnot (h.prefix_of_inl hpre)
      rw [flatten_inl, expand_miss ((matching_single value).mpr hstands)]
      exact congrArg (a :: ·) (ih (.of_symbols [a] h))
    · rw [flatten_inr, expand_passes fun xs ys heq hys ↦
        (matching_single value).mpr (h.not_prefix_of_inr hne heq hys), ih (h.of_value hne)]
      simp [flatten_inr]

end Single

section Sequence

variable {o c : α} {table : List (List α × List α)} {e : List α × List α}

/-- What is left at the beginning of a marked text is the beginning of the text. -/
theorem prefix_of_marked {xs text : List α} (h : xs.map .inl <+: marked table text) :
    xs <+: text := by
  unfold marked at h
  induction xs generalizing text with
  | nil => exact List.nil_prefix
  | cons b xs ih =>
    cases text with
    | nil => cases List.prefix_nil.mp h
    | cons a text =>
      rw [expand] at h
      rcases hmatch : matching table (a :: text) with _ | e
      · rw [hmatch] at h
        obtain ⟨hhead, htail⟩ := List.cons_prefix_cons.mp h
        obtain rfl := Sum.inl.inj hhead
        exact List.cons_prefix_cons.mpr ⟨rfl, ih htail⟩
      · rw [hmatch] at h
        exact absurd (List.cons_prefix_cons.mp h).1 Sum.inl_ne_inr

/-- A row at the end of the table is replaced where the rows before it have left its pattern. -/
theorem replaceLeft_marked (h : Patterns o c (table ++ [e])) (text : List α) :
    replaceLeft e (marked table text) = marked (table ++ [e]) text := by
  have hall := h.bracketed
  have hne (e' : List α × List α) (he' : e' ∈ table ++ [e]) : e'.1 ≠ [] := (hall e' he').ne_nil
  have hlast : e ∈ table ++ [e] := List.mem_append_right table List.mem_cons_self
  have hmapped : e.1.map (Sum.inl : α → α ⊕ List α) ≠ [] := by simpa using hne e hlast
  unfold replaceLeft
  induction text using expand_induction (table ++ [e]) with
  | hne e' he' => exact hne e' he'
  | nil => rfl
  | hit e' rest hmatch ih =>
    have hmarked : marked (table ++ [e]) (e'.1 ++ rest) =
        .inr e'.2 :: marked (table ++ [e]) rest :=
      expand_hit (hne e' (mem_of_matching hmatch).1) hmatch
    rw [hmarked, ← ih]
    rcases List.mem_append.mp (mem_of_matching hmatch).1 with hearlier | hsame
    · have hfirst : marked table (e'.1 ++ rest) = .inr e'.2 :: marked table rest :=
        expand_hit (hne e' (mem_of_matching hmatch).1)
          (h.of_append.matching_iff.mpr ⟨hearlier, List.prefix_append _ _⟩)
      have hmiss : ¬ e.1.map .inl <+: Sum.inr e'.2 :: marked table rest := by
        cases hpattern : e.1 with
        | nil => exact absurd hpattern (hne e hlast)
        | cons a xs => exact fun hpre ↦ absurd (List.cons_prefix_cons.mp hpre).1 Sum.inl_ne_inr
      rw [hfirst, expand_miss ((matching_single e.2).mpr hmiss)]
      rfl
    · obtain rfl := List.mem_singleton.mp hsame
      have hpasses : marked table (e'.1 ++ rest) = e'.1.map .inl ++ marked table rest := by
        refine expand_passes fun xs ys heq hys ↦ matching_eq_none.mpr fun e hearlier hstands ↦ ?_
        have hold := List.mem_append_left [e'] hearlier
        cases xs with
        | nil =>
          have hsame : e.1 = e'.1 := by
            refine Bracketed.eq_of_prefix h.distinct (hall e hold) (hall e' hlast) hstands ?_
            exact heq ▸ List.prefix_append _ _
          have hnodup := h.nodup
          rw [List.map_append] at hnodup
          exact (List.disjoint_of_nodup_append hnodup) (List.mem_map_of_mem hearlier)
            (hsame ▸ List.mem_map_of_mem List.mem_cons_self)
        | cons x xs =>
          obtain ⟨name, hpattern, -, -⟩ := hall e hold
          obtain ⟨y, ys, rfl⟩ := List.exists_cons_of_ne_nil hys
          rw [hpattern] at hstands
          obtain ⟨rfl, -⟩ := List.cons_prefix_cons.mp hstands
          exact (hall e' hlast).notMem_suffix h.distinct heq (by simp) List.mem_cons_self
      rw [hpasses]
      exact expand_hit (e := (e'.1.map Sum.inl, e'.2)) hmapped (matching_single_self e'.2 _)
  | miss a rest hmatch ih =>
    have hearlier : matching table (a :: rest) = none :=
      matching_eq_none.mpr fun e' he' ↦
        matching_eq_none.mp hmatch e' (List.mem_append_left [e] he')
    have hmarked : marked table (a :: rest) = .inl a :: marked table rest := expand_miss hearlier
    have hmiss : ¬ e.1.map .inl <+: Sum.inl a :: marked table rest := fun hpre ↦
      matching_eq_none.mp hmatch e hlast (prefix_of_marked (hmarked ▸ hpre))
    have hfull : marked (table ++ [e]) (a :: rest) = .inl a :: marked (table ++ [e]) rest :=
      expand_miss hmatch
    rw [hmarked, hfull, expand_miss ((matching_single e.2).mpr hmiss), ih]
    rfl

/-- While each pattern is found in what is left of the text only, one after another is all at
once. -/
theorem replaceEach_eq (h : Patterns o c table) (text : List α)
    (hstands : ∀ before e after, table = before ++ e :: after → Stands e.1 (marked before text)) :
    replaceEach table text = simultaneous table text := by
  induction table using List.reverseRecOn with
  | nil =>
    have hkept : simultaneous [] text = text.map id := by
      have hpasses : expand id id ([] : List (List α × List α)) 0 (text ++ []) =
          text.map id ++ expand id id [] 0 [] := expand_passes fun _ _ _ _ ↦ rfl
      simpa [simultaneous, expand_nil] using hpasses
    rw [hkept, List.map_id]
    rfl
  | append_singleton table e ih =>
    have hearlier := ih h.of_append fun before e' after heq ↦
      hstands before e' (after ++ [e]) (by rw [heq]; simp)
    have hlast := hstands table e [] rfl
    have hne : e.1 ≠ [] := (h.bracketed e (by simp)).ne_nil
    have heach : replaceEach (table ++ [e]) text = replaceAll e (replaceEach table text) := by
      simp [replaceEach, List.foldl_append]
    rw [heach, hearlier, ← flatten_marked, replaceAll_flatten hne hlast, replaceLeft_marked h,
      flatten_marked]

end Sequence

/-! ## Replacements that are part of no pattern -/

/-- The value has no part in the pattern: neither is part of the other, and neither ends with a
beginning of the other. -/
structure Inert (value pattern : List α) : Prop where
  inside : ¬ value <:+: pattern
  contains : ¬ pattern <:+: value
  opens : ∀ xs, xs ≠ [] → xs <:+ value → ¬ xs <+: pattern
  closes : ∀ xs, xs ≠ [] → xs <+: value → ¬ xs <:+ pattern

section Inert

variable {pattern : List α} {pieces : List (α ⊕ List α)}

omit [DecidableEq α]

/-- The rest of a pattern that has begun in the text goes on in the text. -/
theorem prefix_of_inert (h : ∀ value, .inr value ∈ pieces → Inert value pattern) (xs : List α)
    {ys : List α} (hpattern : pattern = xs ++ ys) (hxs : xs ≠ []) (hstands : ys <+: flatten pieces) :
    ys.map .inl <+: pieces := by
  induction ys generalizing xs pieces with
  | nil => exact List.nil_prefix
  | cons y ys ih =>
    have hsuffix : y :: ys <:+ pattern := ⟨xs, hpattern.symm⟩
    cases pieces with
    | nil => cases List.prefix_nil.mp hstands
    | cons piece pieces =>
      cases piece with
      | inl a =>
        obtain ⟨rfl, htail⟩ := List.cons_prefix_cons.mp hstands
        have hrest := ih (fun value hv ↦ h value (List.mem_cons_of_mem _ hv)) (xs ++ [y])
          (by simpa using hpattern) (by simp) htail
        exact List.cons_prefix_cons.mpr ⟨rfl, hrest⟩
      | inr value =>
        have hinert := h value List.mem_cons_self
        rcases List.prefix_or_prefix_of_prefix hstands (List.prefix_append value (flatten pieces))
          with hle | hle
        · exact absurd hsuffix (hinert.closes _ (List.cons_ne_nil _ _) hle)
        · exact absurd (hle.isInfix.trans hsuffix.isInfix) hinert.inside

/-- A pattern in which what was put in has no part stands in the text. -/
theorem stands_of_inert (hne : pattern ≠ [])
    (h : ∀ value, .inr value ∈ pieces → Inert value pattern) : Stands pattern pieces := by
  intro xs ys heq
  induction pieces generalizing xs with
  | nil =>
    have hnil := List.append_eq_nil_iff.mp heq.symm
    exact absurd (List.append_eq_nil_iff.mp hnil.1).2 hne
  | cons piece pieces ih =>
    have htail : ∀ value, .inr value ∈ pieces → Inert value pattern := fun value hv ↦
      h value (List.mem_cons_of_mem _ hv)
    have hgoOn (zs : List α) (hflat : flatten [piece] ++ zs = xs)
        (hrest : flatten pieces = zs ++ pattern ++ ys) :
        ∃ before after, piece :: pieces = before ++ pattern.map .inl ++ after ∧
          flatten before = xs := by
      obtain ⟨before, after, hsplit, hbefore⟩ := ih htail zs hrest
      refine ⟨piece :: before, after, by rw [hsplit]; rfl, ?_⟩
      have hcons : flatten ([piece] ++ before) = flatten [piece] ++ flatten before := flatten_append
      rw [← hflat, ← hbefore]
      exact hcons
    cases piece with
    | inl a =>
      cases xs with
      | cons x xs =>
        obtain ⟨rfl, hrest⟩ := List.cons.inj heq
        exact hgoOn xs rfl hrest
      | nil =>
        cases pattern with
        | nil => exact absurd rfl hne
        | cons b pattern =>
          obtain ⟨rfl, hrest⟩ := List.cons.inj heq
          have hprefix := prefix_of_inert htail [a] rfl (by simp) ⟨ys, hrest.symm⟩
          obtain ⟨after, hafter⟩ := hprefix
          exact ⟨[], after, by rw [← hafter]; rfl, rfl⟩
    | inr value =>
      have hinert := h value List.mem_cons_self
      rw [flatten_inr, List.append_assoc, List.append_eq_append_iff] at heq
      rcases heq with ⟨zs, hxs, hrest⟩ | ⟨zs, hvalue, hrest⟩
      · exact hgoOn zs (by rw [hxs]; simp [flatten]) (by rw [hrest, List.append_assoc])
      · by_cases hzs : zs = []
        · refine hgoOn [] (by rw [hvalue, hzs]; simp [flatten]) ?_
          rw [hzs, List.nil_append] at hrest
          rw [← hrest, List.nil_append]
        · have hstands : pattern <+: zs ++ flatten pieces := ⟨ys, hrest⟩
          have hsuffix : zs <:+ value := ⟨xs, hvalue.symm⟩
          rcases List.prefix_or_prefix_of_prefix hstands (List.prefix_append zs (flatten pieces))
            with hle | hle
          · exact absurd (hle.isInfix.trans hsuffix.isInfix) hinert.contains
          · exact absurd hle (hinert.opens zs hzs hsuffix)

end Inert

section Tables

variable {o c : α} {table : List (List α × List α)} {e f : List α × List α}

/-- What was put in comes from the table. -/
theorem exists_of_mem_marked {text value : List α} (h : .inr value ∈ marked table text) :
    ∃ e ∈ table, e.2 = value := by
  unfold marked at h
  generalize 0 = skip at h
  induction text generalizing skip with
  | nil =>
    rw [expand_nil] at h
    cases h
  | cons a text ih =>
    cases skip with
    | succ skip => exact ih skip h
    | zero =>
      rw [expand] at h
      rcases hmatch : matching table (a :: text) with _ | e
      · rw [hmatch] at h
        exact ih 0 ((List.mem_cons.mp h).resolve_left Sum.inr_ne_inl)
      · rw [hmatch] at h
        rcases List.mem_cons.mp h with heq | hrest
        · exact ⟨e, (mem_of_matching hmatch).1, (Sum.inr.inj heq).symm⟩
        · exact ih _ hrest

/-- A single pattern between texts that neither close nor open one. -/
theorem marked_between (h : Patterns o c table) (he : e ∈ table) {xs ys : List α} (hxs : c ∉ xs)
    (hys : o ∉ ys) :
    marked table (xs ++ (e.1 ++ ys)) = xs.map .inl ++ .inr e.2 :: ys.map .inl := by
  have hright : marked table ys = ys.map .inl := by
    have hpasses : expand Sum.inl (fun value ↦ [Sum.inr value]) table 0 (ys ++ []) =
        ys.map .inl ++ expand Sum.inl (fun value ↦ [Sum.inr value]) table 0 [] := by
      refine expand_passes fun before after heq hafter ↦ ?_
      obtain ⟨a, after, rfl⟩ := List.exists_cons_of_ne_nil hafter
      have ha : a ≠ o := fun hao ↦ hys (heq ▸ hao ▸ by simp)
      exact h.matching_of_notMem ha _
    simpa [marked, expand_nil] using hpasses
  have hmiddle : marked table (e.1 ++ ys) = .inr e.2 :: marked table ys :=
    expand_hit (h.bracketed e he).ne_nil (h.matching_iff.mpr ⟨he, List.prefix_append _ _⟩)
  have hleft : marked table (xs ++ (e.1 ++ ys)) = xs.map .inl ++ marked table (e.1 ++ ys) := by
    refine expand_passes fun before after heq hafter ↦ matching_eq_none.mpr fun f hf hstands ↦ ?_
    have hclosed : c ∉ after := fun hmem ↦ hxs (heq ▸ List.mem_append_right before hmem)
    -- The pattern would have to go on behind the text, and open there once more.
    obtain ⟨name, hname, -, -⟩ := h.bracketed f hf
    obtain ⟨name', hname', -, -⟩ := h.bracketed e he
    rcases List.prefix_or_prefix_of_prefix hstands (List.prefix_append after (e.1 ++ ys)) with
      hle | ⟨rest, hrest⟩
    · exact hclosed (hle.subset (hname ▸ by simp))
    · rw [← hrest, List.prefix_append_right_inj] at hstands
      cases rest with
      | nil => exact hclosed (by rw [← List.append_nil after, hrest, hname]; simp)
      | cons r rest =>
        rw [hname', List.cons_append] at hstands
        obtain ⟨rfl, -⟩ := List.cons_prefix_cons.mp hstands
        exact (h.bracketed f hf).notMem_suffix h.distinct hrest.symm hafter List.mem_cons_self
  rw [hleft, hmiddle, hright]

/-- A pattern of the table is replaced by its value. -/
theorem simultaneous_of_mem (h : Patterns o c table) (he : e ∈ table) :
    simultaneous table e.1 = e.2 := by
  have hmarked := marked_between h he (List.not_mem_nil (a := c)) (List.not_mem_nil (a := o))
  rw [List.nil_append, List.append_nil] at hmarked
  rw [← flatten_marked, hmarked]
  simp [flatten]

/-- Any other pattern is kept. -/
theorem simultaneous_of_notMem (h : Patterns o c table) {pattern : List α}
    (hpattern : Bracketed o c pattern) (hnot : ∀ e ∈ table, e.1 ≠ pattern) :
    simultaneous table pattern = pattern := by
  have hpasses : expand id id table 0 (pattern ++ []) =
      pattern.map id ++ expand id id table 0 [] := by
    refine expand_passes fun xs ys heq hys ↦ ?_
    rw [List.append_nil]
    cases xs with
    | nil =>
      refine matching_eq_none.mpr fun e he hstands ↦ hnot e he ?_
      exact Bracketed.eq_of_prefix h.distinct (h.bracketed e he) hpattern hstands
        (heq ▸ List.prefix_rfl)
    | cons x xs =>
      obtain ⟨y, ys, rfl⟩ := List.exists_cons_of_ne_nil hys
      have hopen := hpattern.notMem_suffix h.distinct heq (List.cons_ne_nil x xs)
      exact h.matching_of_notMem (fun hy ↦ hopen (hy ▸ List.mem_cons_self)) ys
  simpa [simultaneous, expand_nil] using hpasses

/-- A pattern that what was put in has a part in does not stand. -/
theorem not_stands (h : Patterns o c table) (he : e ∈ table) {pattern : List α}
    (hpattern : Bracketed o c pattern) {xs ys : List α} (hxs : c ∉ xs) (hys : o ∉ ys)
    (hpart : pattern <:+: xs ++ (e.2 ++ ys)) :
    ¬ Stands pattern (marked table (xs ++ (e.1 ++ ys))) := by
  rw [marked_between h he hxs hys]
  intro hstands
  obtain ⟨before, after, hflat⟩ := hpart
  obtain ⟨left, right, hsplit, -⟩ := hstands before after (by
    rw [hflat, flatten_append, flatten_map_inl, flatten_inr, flatten_map_inl])
  obtain ⟨name, rfl, -, -⟩ := hpattern
  rw [List.append_assoc, List.append_eq_append_iff] at hsplit
  rcases hsplit with ⟨zs, -, hrest⟩ | ⟨zs, hleft, hrest⟩
  · -- The pattern is behind the text on the left, so it is in the one on the right.
    cases zs with
    | nil => exact absurd (List.cons.inj hrest).1 Sum.inr_ne_inl
    | cons z zs =>
      have htail := (List.cons.inj hrest).2
      have hmem : Sum.inl o ∈ ys.map (Sum.inl : α → α ⊕ List α) := htail ▸ by simp
      obtain ⟨a, ha, heq⟩ := List.mem_map.mp hmem
      exact hys (Sum.inl.inj heq ▸ ha)
  · -- The pattern begins on the left, and does not reach what was put in.
    have hclosing : Sum.inl c ∈ zs := by
      rcases List.append_eq_append_iff.mp hrest with ⟨ws, hzs, -⟩ | ⟨ws, hwhole, hws⟩
      · exact hzs ▸ by simp
      · cases ws with
        | nil => exact (List.append_nil zs ▸ hwhole) ▸ by simp
        | cons w ws =>
          obtain ⟨rfl, -⟩ := List.cons.inj hws
          have hmem : Sum.inr e.2 ∈ ((o :: (name ++ [c])).map Sum.inl : List (α ⊕ List α)) :=
            hwhole ▸ by simp
          obtain ⟨a, -, heq⟩ := List.mem_map.mp hmem
          exact absurd heq Sum.inl_ne_inr
    have hmem : Sum.inl c ∈ xs.map (Sum.inl : α → α ⊕ List α) := hleft ▸ by simp [hclosing]
    obtain ⟨a, ha, heq⟩ := List.mem_map.mp hmem
    exact hxs (Sum.inl.inj heq ▸ ha)

/-- If a pattern stands in whatever text, what the table puts in has no part in it. -/
theorem inert_of_stands (h : Patterns o c table) (he : e ∈ table) {pattern : List α}
    (hpattern : Bracketed o c pattern) (hstands : ∀ text, Stands pattern (marked table text)) :
    Inert e.2 pattern := by
  have hnot (xs ys : List α) (hxs : c ∉ xs) (hys : o ∉ ys) :
      ¬ pattern <:+: xs ++ (e.2 ++ ys) := fun hpart ↦
    not_stands h he hpattern hxs hys hpart (hstands _)
  have hoc := h.distinct
  constructor
  case inside =>
    rintro ⟨xs, ys, heq⟩
    by_cases hvalue : e.2 = []
    · have hbracketed := hpattern
      obtain ⟨name, hname, -, -⟩ := hbracketed
      have hsplit : pattern = [o] ++ (name ++ [c]) := hname
      refine hnot [o] (name ++ [c]) (by simpa using hoc.symm) ?_ ?_
      · exact hpattern.notMem_suffix hoc hsplit (by simp)
      · rw [hvalue, hname]
        exact List.infix_rfl
    · rw [List.append_assoc] at heq
      refine hnot xs ys ?_ ?_ (heq ▸ List.infix_rfl)
      · exact hpattern.notMem_prefix hoc heq.symm (by simp [hvalue])
      · rw [← List.append_assoc] at heq
        exact hpattern.notMem_suffix hoc heq.symm (by simp [hvalue])
  case contains =>
    intro hpart
    exact hnot [] [] (by simp) (by simp) (by simpa using hpart)
  case opens =>
    rintro xs hxs ⟨ys, hvalue⟩ ⟨zs, heq⟩
    refine hnot [] zs (by simp) ?_ ?_
    · exact hpattern.notMem_suffix hoc heq.symm hxs
    · rw [← hvalue, ← heq]
      exact ⟨ys, [], by simp⟩
  case closes =>
    rintro xs hxs ⟨ys, hvalue⟩ ⟨zs, heq⟩
    refine hnot zs [] ?_ (by simp) ?_
    · exact hpattern.notMem_prefix hoc heq.symm hxs
    · rw [← hvalue, ← heq]
      exact ⟨[], ys, by simp⟩

/-- Each pattern is found in what is left of the text only, whatever the text, exactly if no
value has a part in a later pattern. -/
theorem stands_iff (h : Patterns o c table) :
    (∀ text before e after, table = before ++ e :: after → Stands e.1 (marked before text)) ↔
      table.Pairwise fun e f ↦ Inert e.2 f.1 := by
  constructor
  · intro hstands
    induction table using List.reverseRecOn with
    | nil => exact .nil
    | append_singleton table f ih =>
      have hearlier := ih h.of_append fun text before e after heq ↦
        hstands text before e (after ++ [f]) (by rw [heq]; simp)
      refine List.pairwise_append.mpr ⟨hearlier, List.pairwise_singleton _ f, ?_⟩
      rintro e he f' hf'
      obtain rfl := List.mem_singleton.mp hf'
      exact inert_of_stands h.of_append he (h.bracketed f' (by simp)) fun text ↦
        hstands text table f' [] rfl
  · rintro hinert text before e after rfl
    have hne : e.1 ≠ [] := (h.bracketed e (by simp)).ne_nil
    refine stands_of_inert hne fun value hvalue ↦ ?_
    obtain ⟨e', he', rfl⟩ := exists_of_mem_marked hvalue
    exact (List.pairwise_append.mp hinert).2.2 e' he' e List.mem_cons_self

end Tables

end Kit
