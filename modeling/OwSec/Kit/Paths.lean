import Mathlib.Data.List.Basic

/-!
# Paths in a file system

A file system has directories, and the names in a directory lead to directories and to files;
`..` is a name as any other, and links have been followed.  A path is taken apart at its
slashes and its components are followed one after another: the empty one and `.` stay where
they are, and nothing lies below a file.

What the contents of a file are is left open.
-/

namespace Kit

/-- The components of a path, with the empty ones. -/
def components (path : List Char) : List (List Char) := path.splitOn '/'

/-- What a C library sees of a text. -/
def cString (s : List Char) : List Char := s.takeWhile (· ≠ '\x00')

/-- A component that leads nowhere else. -/
def Stays (name : List Char) : Prop := name = [] ∨ name = ['.']

instance (name : List Char) : Decidable (Stays name) := inferInstanceAs (Decidable (_ ∨ _))

/-- A file system with contents in `β`. -/
structure FileSystem (β : Type) where
  Dir : Type
  root : Dir
  /-- The working directory of the process. -/
  cwd : Dir
  /-- What a name in a directory leads to. -/
  entry : Dir → List Char → Option (Dir ⊕ β)

namespace FileSystem

variable {β : Type} (fs : FileSystem β)

/-- One component is followed. -/
def step : fs.Dir ⊕ β → List Char → Option (fs.Dir ⊕ β)
  | .inl d, name => if Stays name then some (.inl d) else fs.entry d name
  | .inr _, _ => none

/-- Components are followed. -/
def walk (e : fs.Dir ⊕ β) (names : List (List Char)) : Option (fs.Dir ⊕ β) :=
  names.foldlM fs.step e

/-- Where a path starts. -/
def start (path : List Char) : fs.Dir := if path.head? = some '/' then fs.root else fs.cwd

/-- The contents of the file that a path leads to. -/
def read (path : List Char) : Option β :=
  match fs.walk (.inl (fs.start (cString path))) (components (cString path)) with
  | some (.inr contents) => some contents
  | _ => none

variable {fs}

theorem step_stays (fs : FileSystem β) (d : fs.Dir) {name : List Char} (h : Stays name) :
    fs.step (.inl d) name = some (.inl d) := if_pos h

theorem walk_cons (e : fs.Dir ⊕ β) (name : List Char) (names : List (List Char)) :
    fs.walk e (name :: names) = (fs.step e name).bind fun e' ↦ fs.walk e' names := rfl

theorem walk_append (e : fs.Dir ⊕ β) (names names' : List (List Char)) :
    fs.walk e (names ++ names') = (fs.walk e names).bind fun e' ↦ fs.walk e' names' :=
  List.foldlM_append

/-- Components that stay do not move a walk. -/
theorem walk_stays (d : fs.Dir) {names : List (List Char)} (h : ∀ name ∈ names, Stays name) :
    fs.walk (.inl d) names = some (.inl d) := by
  induction names with
  | nil => rfl
  | cons name names ih =>
    obtain ⟨hname, hrest⟩ := List.forall_mem_cons.mp h
    rw [walk_cons, step_stays fs d hname]
    exact ih hrest

/-- Nothing lies below a file. -/
theorem walk_file (c : β) {names : List (List Char)} (h : names ≠ []) :
    fs.walk (.inr c) names = none := by
  cases names with
  | nil => exact absurd rfl h
  | cons name names => rfl

/-- Components that stay can be left out before another. -/
theorem walk_insert (e : fs.Dir ⊕ β) (before after : List (List Char)) {names : List (List Char)}
    (name : List Char) (h : ∀ name ∈ names, Stays name) :
    fs.walk e (before ++ (names ++ name :: after)) = fs.walk e (before ++ name :: after) := by
  rw [walk_append, walk_append]
  rcases fs.walk e before with _ | d | c
  · rfl
  · simp only [Option.bind_some]
    rw [walk_append, walk_stays d h]
    rfl
  · simp only [Option.bind_some]
    rw [walk_file c (by simp), walk_file c (by simp)]

end FileSystem

/-! ## Taking paths apart -/

theorem components_append (p q : List Char) :
    components (p ++ '/' :: q) = components p ++ components q :=
  List.splitOn_append_cons_self p q

/-- A path without slashes is one component. -/
theorem components_of_notMem {p : List Char} (h : '/' ∉ p) : components p = [p] :=
  List.splitOn_eq_singleton h

/-- A text is read up to its first NUL. -/
theorem cString_append_of_mem {s : List Char} (h : '\x00' ∈ s) (t : List Char) :
    cString (s ++ t) = cString s := by
  induction s with
  | nil => cases h
  | cons c s ih =>
    unfold cString at ih ⊢
    by_cases hc : c = '\x00'
    · simp [hc]
    · have hs : '\x00' ∈ s := (List.mem_cons.mp h).resolve_left (Ne.symm hc)
      simpa [hc] using ih hs

theorem cString_append_of_notMem {s : List Char} (h : '\x00' ∉ s) (t : List Char) :
    cString (s ++ t) = s ++ cString t := by
  unfold cString
  exact List.takeWhile_append_of_pos fun c hc ↦ by
    simpa using fun heq : c = '\x00' ↦ h (heq ▸ hc)

theorem cString_of_notMem {s : List Char} (h : '\x00' ∉ s) : cString s = s := by
  simpa [cString] using cString_append_of_notMem h []

/-- A character is a slash or part of a component. -/
theorem exists_component {path : List Char} {c : Char} (hc : c ∈ path) (hne : c ≠ '/') :
    ∃ name ∈ components path, c ∈ name := by
  induction path with
  | nil => cases hc
  | cons x xs ih =>
    unfold components at ih ⊢
    rw [List.splitOn_cons_eq_if_modifyHead]
    by_cases hx : x = '/'
    · have hxs : c ∈ xs := (List.mem_cons.mp hc).resolve_left fun heq ↦ hne (heq.trans hx)
      obtain ⟨name, hname, hmem⟩ := ih hxs
      rw [if_pos (by simpa using hx)]
      exact ⟨name, List.mem_cons_of_mem _ hname, hmem⟩
    · rw [if_neg (by simpa using hx)]
      rcases hsplit : xs.splitOn '/' with _ | ⟨first, rest⟩
      · exact absurd hsplit (List.splitOn_ne_nil _ _)
      · rw [List.modifyHead_cons]
        rcases List.mem_cons.mp hc with rfl | hxs
        · exact ⟨c :: first, List.mem_cons_self, List.mem_cons_self⟩
        · obtain ⟨name, hname, hmem⟩ := ih hxs
          rw [hsplit] at hname
          rcases List.mem_cons.mp hname with rfl | hrest
          · exact ⟨x :: name, List.mem_cons_self, List.mem_cons_of_mem _ hmem⟩
          · exact ⟨name, List.mem_cons_of_mem _ hrest, hmem⟩

/-- Where all components stay there is no NUL. -/
theorem notMem_of_stays {path : List Char} (h : ∀ name ∈ components path, Stays name) :
    '\x00' ∉ path := by
  intro hc
  obtain ⟨name, hname, hmem⟩ := exists_component hc (by decide)
  rcases h name hname with rfl | rfl
  · cases hmem
  · exact absurd (List.mem_singleton.mp hmem) (by decide)

/-- Components that stay can be left out of a path. -/
theorem FileSystem.read_insert {β : Type} (fs : FileSystem β) (d f : List Char) {rest : List Char}
    (h : ∀ name ∈ components rest, Stays name) :
    fs.read (d ++ '/' :: (rest ++ '/' :: f)) = fs.read (d ++ '/' :: f) := by
  by_cases hd : '\x00' ∈ d
  · unfold read
    rw [cString_append_of_mem hd, cString_append_of_mem hd]
  · have hrest : '\x00' ∉ '/' :: (rest ++ ['/']) := by
      simpa using notMem_of_stays h
    have hlong : cString (d ++ '/' :: (rest ++ '/' :: f)) = d ++ '/' :: (rest ++ '/' :: cString f) := by
      rw [cString_append_of_notMem hd]
      have hsplit : '/' :: (rest ++ '/' :: f) = '/' :: (rest ++ ['/']) ++ f := by simp
      rw [hsplit, cString_append_of_notMem hrest]
      simp
    have hshort : cString (d ++ '/' :: f) = d ++ '/' :: cString f := by
      rw [cString_append_of_notMem hd]
      exact congrArg (d ++ ·) (cString_append_of_notMem (s := ['/']) (by decide) f)
    have hstart : fs.start (d ++ '/' :: (rest ++ '/' :: cString f)) =
        fs.start (d ++ '/' :: cString f) := by
      unfold start
      cases d <;> rfl
    unfold read
    rw [hlong, hshort, hstart, components_append, components_append, components_append]
    obtain ⟨name, after, hf⟩ : ∃ name after, components (cString f) = name :: after :=
      List.exists_cons_of_ne_nil (List.splitOn_ne_nil '/' (cString f))
    rw [hf, walk_insert _ _ _ _ h]

/-! ## A single file -/

/-- The file system in which the working directory has one file, and nothing else is there. -/
def FileSystem.single {β : Type} (file : List Char) (contents : β) : FileSystem β where
  Dir := Bool
  root := false
  cwd := true
  entry d name :=
    if name = ['.', '.'] then some (.inl false)
    else if d = true ∧ name = file then some (.inr contents) else none

section Single

variable {β : Type} {file : List Char} {contents : β}

/-- Whoever has left the working directory does not come back to it. -/
theorem step_single_cwd {d : Bool} {name : List Char}
    (h : (FileSystem.single file contents).step (.inl d) name = some (.inl true)) :
    d = true ∧ Stays name := by
  unfold FileSystem.step at h
  simp only at h
  split at h
  · rename_i hstays
    exact ⟨Sum.inl.inj (Option.some.inj h), hstays⟩
  · unfold FileSystem.single at h
    simp only at h
    split at h
    · cases h
    · split at h <;> cases h

/-- The file is in the working directory. -/
theorem step_single_file {d : Bool} {name : List Char} {c : β}
    (h : (FileSystem.single file contents).step (.inl d) name = some (.inr c)) :
    d = true ∧ name = file := by
  unfold FileSystem.step at h
  simp only at h
  split at h
  · cases h
  · unfold FileSystem.single at h
    simp only at h
    split at h
    · cases h
    · split at h
      · assumption
      · cases h

/-- What leads to the file stays in the working directory until then. -/
theorem walk_single {d : Bool} {names : List (List Char)} {c : β}
    (h : (FileSystem.single file contents).walk (.inl d) names = some (.inr c)) :
    d = true ∧ ∃ before, names = before ++ [file] ∧ ∀ name ∈ before, Stays name := by
  induction names generalizing d with
  | nil => cases h
  | cons name names ih =>
    rw [FileSystem.walk_cons] at h
    rcases hstep : (FileSystem.single file contents).step (.inl d) name with _ | d' | c'
    · rw [hstep] at h
      cases h
    · rw [hstep] at h
      obtain ⟨hcwd, before, rfl, hbefore⟩ := ih (d := d') h
      subst hcwd
      obtain ⟨hd, hname⟩ := step_single_cwd hstep
      exact ⟨hd, name :: before, rfl, List.forall_mem_cons.mpr ⟨hname, hbefore⟩⟩
    · obtain ⟨hd, rfl⟩ := step_single_file hstep
      rw [hstep] at h
      have hnames : names = [] := by
        by_contra hne
        rw [Option.bind_some, FileSystem.walk_file c' hne] at h
        cases h
      subst hnames
      exact ⟨hd, [], rfl, fun _ hmem ↦ by cases hmem⟩

/-- What reads the file ends with its name, and stays in the working directory until then. -/
theorem read_single {path : List Char} {c : β}
    (h : (FileSystem.single file contents).read path = some c) :
    ∃ before, components (cString path) = before ++ [file] ∧ ∀ name ∈ before, Stays name := by
  unfold FileSystem.read at h
  split at h
  · rename_i c' hwalk
    exact (walk_single hwalk).2
  · cases h

/-- The file is read by its name. -/
theorem read_single_self (hslash : '/' ∉ file) (hnul : '\x00' ∉ file) (hstays : ¬ Stays file)
    (hup : file ≠ ['.', '.']) :
    (FileSystem.single file contents).read (['.'] ++ '/' :: file) = some contents := by
  have hpath : cString (['.'] ++ '/' :: file) = ['.'] ++ '/' :: file := by
    refine cString_of_notMem fun hmem ↦ ?_
    rcases List.mem_append.mp hmem with hdot | hrest
    · exact absurd (List.mem_singleton.mp hdot) (by decide)
    · exact hnul ((List.mem_cons.mp hrest).resolve_left (by decide))
  have hcomponents : components (['.'] ++ '/' :: file) = [['.'], file] := by
    rw [components_append, components_of_notMem (by decide), components_of_notMem hslash]
    rfl
  have hentry : (FileSystem.single file contents).step (.inl true) file = some (.inr contents) := by
    unfold FileSystem.step FileSystem.single
    simp [hstays, hup]
  have hwalk : (FileSystem.single file contents).walk (.inl true) [['.'], file] =
      some (.inr contents) := by
    have hdot : (FileSystem.single file contents).step (.inl true) ['.'] = some (.inl true) :=
      FileSystem.step_stays (.single file contents) true (.inr rfl)
    rw [FileSystem.walk_cons, hdot, Option.bind_some, FileSystem.walk_cons, hentry]
    rfl
  have hstart : (FileSystem.single file contents).start (['.'] ++ '/' :: file) = true := rfl
  unfold FileSystem.read
  rw [hpath, hcomponents, hstart, hwalk]

/-- Whoever goes on in another directory does not find the file, however the path is cut. -/
theorem read_single_below {q : List Char} (hfile : '\x00' ∉ file ∧ '/' ∉ file)
    (hbranch : ∃ name ∈ components q, ¬ Stays name)
    (hcut : (components (cString q)).getLast? ≠ some file) :
    (FileSystem.single file contents).read (['.'] ++ '/' :: (q ++ '/' :: file)) = none := by
  rcases hread : (FileSystem.single file contents).read (['.'] ++ '/' :: (q ++ '/' :: file)) with
    _ | c
  · rfl
  obtain ⟨before, hbefore, hstays⟩ := read_single hread
  have hdot : cString (['.'] ++ '/' :: (q ++ '/' :: file)) =
      ['.', '/'] ++ cString (q ++ '/' :: file) :=
    cString_append_of_notMem (s := ['.', '/']) (by decide) _
  have hdots (p : List Char) : components (['.', '/'] ++ p) = ['.'] :: components p :=
    (components_append ['.'] p).trans (by rw [components_of_notMem (by decide)]; rfl)
  by_cases hnul : '\x00' ∈ q
  · rw [hdot, hdots, cString_append_of_mem hnul] at hbefore
    refine absurd ?_ hcut
    have hlast := congrArg List.getLast? hbefore
    obtain ⟨name, rest, hsome⟩ := List.exists_cons_of_ne_nil
      (List.splitOn_ne_nil '/' (cString q))
    have hcons : components (cString q) = name :: rest := hsome
    rw [hcons] at hlast ⊢
    simpa using hlast
  · have hlong : cString (q ++ '/' :: file) = q ++ '/' :: file := by
      rw [cString_append_of_notMem hnul, cString_of_notMem]
      simpa using hfile.1
    rw [hdot, hdots, hlong, components_append, components_of_notMem hfile.2,
      ← List.cons_append] at hbefore
    obtain rfl := (List.append_left_inj [file]).mp hbefore
    obtain ⟨name, hname, hnot⟩ := hbranch
    exact absurd (hstays name (List.mem_cons_of_mem _ hname)) hnot

end Single

end Kit
