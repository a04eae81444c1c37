import OwSec.Framework.JsonText

/-!
# The registry

`AppServiceRegistry` (`framework/AppServiceRegistry.h`) keeps a few values of the service in the
file `registry.json`.  The instance reads the file when it is first asked for, and every value is
set or read through a copy of the instance, which shares the object and writes it to the file when
it is done.

Abstractly the registry is a map that survives restarts (`expected`).  It is one whenever the file
is there, whatever is in it; where it is missing the constructor leaves no object behind, and
the first call of any kind ends the process.
-/

namespace OwSec

/-- A type of values that the registry can hold: how the JSON library wraps a value, and how it
unwraps one that is there, where `none` is a raised exception. -/
structure Scalar (α : Type) where
  toVar : α → Json
  /-- `Object::getValue<T>`. -/
  getValue : Json → Option α
  getValue_toVar : ∀ value, getValue (toVar value) = some value
  toVar_ne_null : ∀ value, toVar value ≠ .null

/-- The file, and the object of the instance: not there before it is first asked for, and then a
pointer that may be null. -/
structure AppServiceRegistry (T : JsonText) where
  file : Option T.Text
  instance_ : Option (Option JsonObject) := none

/-- What a call does. -/
inductive RegistryReply (α : Type)
  | value (a : α)
  /-- An exception of the JSON library. -/
  | exception
  /-- A null pointer is dereferenced, and once more while the copy of the instance is destroyed:
  the process ends. -/
  | terminated

namespace AppServiceRegistry

variable {T : JsonText}

/-- The constructor: the object in the file, or an empty one if it cannot be read; a null pointer
if there is no file. -/
def construct (file : Option T.Text) : Option JsonObject :=
  file.map fun text ↦
    match T.parse text with
    | some (.obj o) => o
    | _ => []

/-- `AppServiceRegistry::instance()`. -/
def instance' (s : AppServiceRegistry T) : Option JsonObject := s.instance_.getD (construct s.file)

/-- A call through a copy of the instance, whose destructor saves the object.  Without an object
the destructor empties the file before the process ends. -/
def call {α : Type} (s : AppServiceRegistry T) (f : JsonObject → Option α × JsonObject) :
    RegistryReply α × AppServiceRegistry T :=
  match s.instance' with
  | some o =>
    ((f o).1.elim .exception .value,
      { file := some (T.stringify (f o).2), instance_ := some (some (f o).2) })
  | none => (.terminated, { file := some T.empty })

/-- `Set`. -/
def set (s : AppServiceRegistry T) (key : String) (value : Json) :
    RegistryReply PUnit × AppServiceRegistry T :=
  s.call fun o ↦ (some ⟨⟩, o.set key value)

/-- `Get`: `none` stands for `false`. -/
def get {α : Type} (s : AppServiceRegistry T) (getValue : Json → Option α) (key : String) :
    RegistryReply (Option α) × AppServiceRegistry T :=
  s.call fun o ↦
    (match o.get? key with
      | none => some none
      | some .null => some none
      | some j => (getValue j).map some, o)

/-- The process is started anew. -/
def restart (s : AppServiceRegistry T) : AppServiceRegistry T where
  file := s.file

end AppServiceRegistry

/-- What happens to the registry. -/
inductive RegistryEvent
  | set (key : String) (value : Json)
  | get (key : String)
  | restart

namespace AppServiceRegistry

variable {T : JsonText}

/-- What an event leaves; it does not matter as what a value is read. -/
def step (s : AppServiceRegistry T) : RegistryEvent → AppServiceRegistry T
  | .set key value => (s.set key value).2
  | .get key => (s.get some key).2
  | .restart => s.restart

/-- What a sequence of events leaves, from a file that nobody has asked for. -/
def run (file : Option T.Text) (events : List RegistryEvent) : AppServiceRegistry T :=
  events.foldl step { file := file }

/-! ## The registry as a map -/

/-- The keys that are set. -/
def setKeys (events : List RegistryEvent) : List String :=
  events.filterMap fun
    | .set key _ => some key
    | _ => none

/-- An event on a map. -/
def update (m : String → Option Json) : RegistryEvent → String → Option Json
  | .set key value => fun key' ↦ if key' = key then some value else m key'
  | _ => m

@[simp] theorem update_set_self (m : String → Option Json) (key : String) (value : Json) :
    update m (.set key value) key = some value := if_pos rfl

/-- The registry holds the map, in the file and in the instance. -/
structure Holds (s : AppServiceRegistry T) (m : String → Option Json) : Prop where
  file : ∃ o, construct s.file = some o ∧ ∀ key, o.get? key = m key
  object : ∀ p, s.instance_ = some p → ∃ o, p = some o ∧ ∀ key, o.get? key = m key

section Map

variable {s : AppServiceRegistry T} {m : String → Option Json}

/-- The object that a call works on. -/
theorem Holds.instance (h : Holds s m) : ∃ o, s.instance' = some o ∧ ∀ key, o.get? key = m key := by
  unfold instance'
  rcases hs : s.instance_ with _ | p
  · exact h.file
  · exact h.object p hs

/-- A file that was written has the members of the object. -/
theorem construct_stringify (o : JsonObject) :
    ∃ o', construct (some (T.stringify o)) = some o' ∧ ∀ key, o'.get? key = o.get? key := by
  obtain ⟨o', hparse, hsame⟩ := T.parse_stringify o
  refine ⟨o', ?_, hsame⟩
  unfold construct
  rw [Option.map_some, hparse]

/-- A call leaves what its function makes of the object. -/
theorem Holds.call {α : Type} {f : JsonObject → Option α × JsonObject} {m' : String → Option Json}
    (h : Holds s m) (hf : ∀ o, (∀ key, o.get? key = m key) → ∀ key, (f o).2.get? key = m' key) :
    Holds (s.call f).2 m' := by
  obtain ⟨o, ho, hm⟩ := h.instance
  unfold AppServiceRegistry.call
  rw [ho]
  constructor
  case file =>
    obtain ⟨o', ho', hsame⟩ := construct_stringify (T := T) (f o).2
    exact ⟨o', ho', fun key ↦ (hsame key).trans (hf o hm key)⟩
  case object =>
    intro p hp
    exact ⟨(f o).2, (Option.some.inj hp).symm, hf o hm⟩

/-- An event on the registry is the event on the map. -/
theorem Holds.step (h : Holds s m) (e : RegistryEvent) : Holds (s.step e) (update m e) := by
  cases e with
  | set key value =>
    refine h.call fun o hm key' ↦ ?_
    change JsonObject.get? (o.set key value) key' = if key' = key then some value else m key'
    by_cases hkey : key' = key
    · rw [if_pos hkey, hkey, JsonObject.get?_set_self]
    · rw [if_neg hkey, JsonObject.get?_set_of_ne o hkey, hm]
  | get key => exact h.call fun o hm ↦ hm
  | restart => exact ⟨h.file, fun p hp ↦ by cases hp⟩

/-- A sequence of events on the registry is the sequence on the map. -/
theorem Holds.steps (h : Holds s m) (events : List RegistryEvent) :
    Holds (events.foldl AppServiceRegistry.step s) (events.foldl update m) := by
  induction events generalizing s m with
  | nil => exact h
  | cons e events ih => exact ih (h.step e)

/-- What is read is what the map has. -/
theorem Holds.get {α : Type} (h : Holds s m) (getValue : Json → Option α) (key : String) :
    (s.get getValue key).1 =
      match m key with
      | none => .value none
      | some .null => .value none
      | some j => (getValue j).elim .exception fun a ↦ .value (some a) := by
  obtain ⟨o, ho, hm⟩ := h.instance
  unfold AppServiceRegistry.get AppServiceRegistry.call
  rw [ho, ← hm key]
  simp only
  split
  · rfl
  · rfl
  · rename_i j _ _
    cases getValue j <;> rfl

/-- A key that is not set keeps its value. -/
theorem foldl_update_of_notMem {key : String} {events : List RegistryEvent}
    (h : key ∉ setKeys events) : events.foldl update m key = m key := by
  induction events generalizing m with
  | nil => rfl
  | cons e events ih =>
    cases e with
    | set key' value =>
      have hne : key ≠ key' := fun heq ↦ h (List.mem_cons.mpr (.inl heq))
      have hrest : key ∉ setKeys events := fun hmem ↦ h (List.mem_cons.mpr (.inr hmem))
      exact (ih hrest).trans (if_neg hne)
    | get key' => exact ih h
    | restart => exact ih h

end Map

/-! ## The law -/

/-- What the registry promises, from what is in the data directory. -/
structure RegistryLaw (file : Option T.Text) : Prop where
  /-- No call dereferences a null pointer. -/
  set_safe : ∀ events key value, ((run file events).set key value).1 ≠ .terminated
  get_safe : ∀ {α : Type} (getValue : Json → Option α) events key,
    ((run file events).get getValue key).1 ≠ .terminated
  /-- A key that is neither in the file nor set is not found. -/
  absent : ∀ {α : Type} (getValue : Json → Option α) events key, key ∉ setKeys events →
    (∀ text o, file = some text → T.parse text = some (.obj o) → JsonObject.get? o key = none) →
    ((run file events).get getValue key).1 = .value none
  /-- A value that was set is found until another one is set, also after restarts. -/
  keeps : ∀ {α : Type} (c : Scalar α) before key value after, key ∉ setKeys after →
    ((run file (before ++ .set key (c.toVar value) :: after)).get c.getValue key).1 =
      .value (some value)

/-- What is kept in the registry at first. -/
def initially (text : T.Text) (key : String) : Option Json :=
  (construct (some text)).bind (·.get? key)

theorem run_holds (text : T.Text) (events : List RegistryEvent) :
    Holds (run (some text) events) (events.foldl update (initially text)) := by
  refine Holds.steps ⟨⟨_, rfl, fun key ↦ rfl⟩, ?_⟩ events
  intro p hp
  cases hp

section Law

variable {s : AppServiceRegistry T} {m : String → Option Json}

/-- A call has an object to work on. -/
theorem Holds.call_ne_terminated {α : Type} (h : Holds s m)
    (f : JsonObject → Option α × JsonObject) : (s.call f).1 ≠ .terminated := by
  obtain ⟨o, ho, -⟩ := h.instance
  unfold AppServiceRegistry.call
  rw [ho]
  simp only
  cases (f o).1 with
  | none => exact fun hreply ↦ by cases hreply
  | some a => exact fun hreply ↦ by cases hreply

/-- A scalar that the map has is read. -/
theorem Holds.get_toVar {α : Type} (h : Holds s m) (c : Scalar α) {key : String} {value : α}
    (hm : m key = some (c.toVar value)) :
    (s.get c.getValue key).1 = .value (some value) := by
  have hne := c.toVar_ne_null value
  have hget := c.getValue_toVar value
  rw [h.get, hm]
  generalize c.toVar value = j at hne hget
  cases j with
  | null => exact absurd rfl hne
  | _ => simp only [hget, Option.elim_some]

end Law

/-- The registry is a map that survives restarts if and only if its file is there. -/
theorem registryLaw_iff (file : Option T.Text) : RegistryLaw file ↔ file ≠ none := by
  constructor
  · rintro h rfl
    exact h.set_safe [] "systemid" .null rfl
  · intro hfile
    obtain ⟨text, rfl⟩ := Option.ne_none_iff_exists'.mp hfile
    constructor
    case set_safe => exact fun events key value ↦ (run_holds text events).call_ne_terminated _
    case get_safe => exact fun getValue events key ↦ (run_holds text events).call_ne_terminated _
    case absent =>
      intro α getValue events key hkey hinitial
      have hm : events.foldl update (initially text) key = none := by
        rw [foldl_update_of_notMem hkey]
        unfold initially construct
        rw [Option.map_some, Option.bind_some]
        split
        · rename_i o hparse
          exact hinitial text o rfl hparse
        · rfl
      rw [(run_holds text events).get, hm]
    case keeps =>
      intro α c before key value after hkey
      refine (run_holds text _).get_toVar c ?_
      rw [List.foldl_append, List.foldl_cons, foldl_update_of_notMem hkey,
        update_set_self]

/-- In a data directory without the file the first value that is read ends the process. -/
theorem missing_registry_ends_the_process :
    ¬ RegistryLaw (T := JsonText.sample) none :=
  fun h ↦ h.get_safe some [] "systemid" rfl

/-! ## The identity of the service -/

section SystemId

variable (uint64 : Scalar ℕ)

/-- `Utils::InitializeSystemId`, from the number that it makes up. -/
def initializeSystemId (s : AppServiceRegistry T) (S : ℕ) :
    RegistryReply ℕ × AppServiceRegistry T :=
  match s.set "systemid" (uint64.toVar S) with
  | (.value _, s') => (.value S, s')
  | (.exception, s') => (.exception, s')
  | (.terminated, s') => (.terminated, s')

/-- `Utils::GetSystemId`. -/
def getSystemId (s : AppServiceRegistry T) (S : ℕ) : RegistryReply ℕ × AppServiceRegistry T :=
  match s.get uint64.getValue "systemid" with
  | (.value none, s') => initializeSystemId uint64 s' S
  | (.value (some ID), s') => (.value ID, s')
  | (.exception, s') => (.exception, s')
  | (.terminated, s') => (.terminated, s')

/-- The map has the identity of the service. -/
def Identifies (m : String → Option Json) (ID : ℕ) : Prop :=
  ∃ j, m "systemid" = some j ∧ j ≠ .null ∧ uint64.getValue j = some ID

variable {uint64} {s : AppServiceRegistry T} {m : String → Option Json}

/-- Reading a value changes nothing. -/
theorem Holds.get_holds {α : Type} (h : Holds s m) (getValue : Json → Option α) (key : String) :
    Holds (s.get getValue key).2 m := h.call fun _ hm ↦ hm

/-- An identity that is there is read. -/
theorem Holds.get_identity (h : Holds s m) {ID : ℕ} (hid : Identifies uint64 m ID) :
    (s.get uint64.getValue "systemid").1 = .value (some ID) := by
  obtain ⟨j, hj, hne, hget⟩ := hid
  rw [h.get, hj]
  cases j with
  | null => exact absurd rfl hne
  | _ => simp only [hget, Option.elim_some]

variable (uint64) in
/-- A new identity is set. -/
theorem Holds.initializeSystemId (h : Holds s m) (S : ℕ) :
    (initializeSystemId uint64 s S).1 = .value S ∧
      Holds (initializeSystemId uint64 s S).2 (update m (.set "systemid" (uint64.toVar S))) := by
  have hset := h.step (.set "systemid" (uint64.toVar S))
  obtain ⟨o, ho, -⟩ := h.instance
  unfold AppServiceRegistry.step AppServiceRegistry.set AppServiceRegistry.call at hset
  unfold AppServiceRegistry.initializeSystemId AppServiceRegistry.set AppServiceRegistry.call
  rw [ho] at hset ⊢
  exact ⟨rfl, hset⟩

/-- The identity that is answered is in the map from then on. -/
theorem Holds.getSystemId_identifies (h : Holds s m) {S ID : ℕ}
    (hid : (getSystemId uint64 s S).1 = .value ID) :
    ∃ m', Holds (getSystemId uint64 s S).2 m' ∧ Identifies uint64 m' ID := by
  have hget := h.get uint64.getValue "systemid"
  have hholds := h.get_holds uint64.getValue "systemid"
  unfold getSystemId at hid ⊢
  generalize s.get uint64.getValue "systemid" = r at hget hholds hid ⊢
  obtain ⟨reply, s'⟩ := r
  cases reply with
  | exception => cases hid
  | terminated => cases hid
  | value found =>
    cases found with
    | some ID' =>
      obtain rfl : ID' = ID := by simpa using hid
      refine ⟨m, hholds, ?_⟩
      simp only at hget
      split at hget
      · cases hget
      · cases hget
      · rename_i j hne hj
        refine ⟨j, hj, hne, ?_⟩
        cases hread : uint64.getValue j with
        | none => simp [hread] at hget
        | some ID'' => simpa [hread] using hget.symm
    | none =>
      obtain ⟨hnew, hset⟩ := hholds.initializeSystemId uint64 S
      obtain rfl : S = ID := by simpa [hnew] using hid
      exact ⟨_, hset, uint64.toVar S, update_set_self m _ _, uint64.toVar_ne_null S,
        uint64.getValue_toVar S⟩

/-- The service has one identity, whatever else is set and however often it is restarted. -/
theorem Holds.getSystemId_stable (h : Holds s m) {S ID : ℕ}
    (hid : (getSystemId uint64 s S).1 = .value ID) {events : List RegistryEvent}
    (hevents : "systemid" ∉ setKeys events) (S' : ℕ) :
    (getSystemId uint64 (events.foldl AppServiceRegistry.step (getSystemId uint64 s S).2) S').1 =
      .value ID := by
  obtain ⟨m', hholds, j, hj, hne, hget⟩ := h.getSystemId_identifies hid
  have hkept : Identifies uint64 (events.foldl update m') ID :=
    ⟨j, (foldl_update_of_notMem hevents).trans hj, hne, hget⟩
  have hread := (hholds.steps events).get_identity hkept
  generalize events.foldl AppServiceRegistry.step (getSystemId uint64 s S).2 = s' at hread
  unfold getSystemId
  generalize s'.get uint64.getValue "systemid" = r at hread
  obtain ⟨reply, s''⟩ := r
  obtain rfl : reply = .value (some ID) := hread
  rfl

end SystemId

end AppServiceRegistry

end OwSec
