import OwSec.Framework.JsonText
import OwSec.Kit.Assignments

/-!
# The secrets

`SecretStore` (`SecretStore.cpp`) keeps the secrets of the service in memory, reads them from
`secrets.json` when it is started, and writes all of them to the file whenever one changes.

Abstractly this is a map that survives restarts, from the entries of the first file on.  An object
of the array that is no entry is passed over, but any other element raises an exception that ends
the reading.  The entries behind it are not read, and the next change removes them from the file.
-/

namespace OwSec

open Kit

/-- The JSON library, with the conversion of a value to text. -/
structure SecretText extends JsonText where
  /-- `Var::toString`; `none` is a raised exception. -/
  varToString : Json → Option String
  varToString_str : ∀ s, varToString (.str s) = some s

namespace SecretText

/-- Texts identified with what the parser makes of them, and no other value read as text. -/
def sample : SecretText where
  toJsonText := .sample
  varToString
    | .str s => some s
    | _ => none
  varToString_str _ := rfl

end SecretText

/-- What an element of the array of secrets is to the loop that reads it. -/
inductive SecretElement
  | entry (key value : String)
  | skipped
  | raises

namespace SecretElement

/-- The entry, if it is one. -/
def pair? : SecretElement → Option (String × String)
  | entry key value => some (key, value)
  | _ => none

/-- The element does not end the loop. -/
def isRead : SecretElement → Bool
  | raises => false
  | _ => true

@[simp] theorem isRead_entry (key value : String) : (entry key value).isRead = true := rfl
@[simp] theorem isRead_skipped : skipped.isRead = true := rfl

end SecretElement

/-- The store and its file. -/
structure SecretStore (T : SecretText) where
  file : Option T.Text
  store : Cache String String := ∅

namespace SecretStore

variable {T : SecretText}

variable (T) in
/-- The body of the loop of `ReadStore`. -/
def element : Json → SecretElement
  | .obj entry =>
    match JsonObject.get? entry "key", JsonObject.get? entry "value" with
    | some key, some value =>
      match T.varToString value, T.varToString key with
      | some value, some key => .entry key value
      | _, _ => .raises
    | _, _ => .skipped
  | _ => .raises

/-- The loop of `ReadStore`; an exception leaves what was read. -/
def readSecrets (store : Cache String String) : List Json → Cache String String
  | [] => store
  | secret :: rest =>
    match element T secret with
    | .entry key value => readSecrets (store.insert key value) rest
    | .skipped => readSecrets store rest
    | .raises => store

/-- The array `secrets` of a file, which may be missing and need not be readable. -/
def secretsOf (file : Option T.Text) : List Json :=
  match file.bind T.parse with
  | some (.obj Doc) =>
    match JsonObject.get? Doc "secrets" with
    | some (.arr Secrets) => Secrets
    | _ => []
  | _ => []

/-- `SecretStore::ReadStore`. -/
def readStore (s : SecretStore T) : SecretStore T :=
  { s with store := readSecrets (T := T) s.store (secretsOf s.file) }

/-- The pairs of the map, in the order of their keys. -/
def sorted (s : SecretStore T) : List (String × String) :=
  s.store.pairs.mergeSort fun a b ↦ decide (a.1 ≤ b.1)

/-- What `SaveStore` writes of a pair. -/
def toElement (e : String × String) : Json := .obj [("key", .str e.1), ("value", .str e.2)]

/-- `SecretStore::SaveStore`. -/
def saveStore (s : SecretStore T) : SecretStore T :=
  { s with file := some (T.stringify [("secrets", .arr (s.sorted.map toElement))]) }

/-- `SecretStore::Start`. -/
def start (s : SecretStore T) : SecretStore T := s.readStore

/-- `SecretStore::Stop`. -/
def stop (s : SecretStore T) : SecretStore T := s.saveStore

/-- `SecretStore::Get`. -/
def get (s : SecretStore T) (key defaultValue : String) : Bool × String :=
  match s.store.lookup key with
  | some value => (true, value)
  | none => (false, defaultValue)

/-- `SecretStore::Set`. -/
def set (s : SecretStore T) (key value : String) : SecretStore T :=
  saveStore { s with store := s.store.insert key value }

/-- `SecretStore::Remove`. -/
def remove (s : SecretStore T) (key : String) : SecretStore T :=
  saveStore { s with store := s.store.erase key }

end SecretStore

/-- What happens to the store. -/
inductive SecretEvent
  | set (key value : String)
  | remove (key : String)
  /-- It is stopped and started, in one process. -/
  | cycle
  /-- The process is stopped and started anew. -/
  | restart
  /-- The process is started anew without having been stopped. -/
  | crash

namespace SecretStore

variable {T : SecretText}

/-- What an event leaves. -/
def step (s : SecretStore T) : SecretEvent → SecretStore T
  | .set key value => s.set key value
  | .remove key => s.remove key
  | .cycle => s.stop.start
  | .restart => start { file := s.stop.file }
  | .crash => start { file := s.file }

/-- What a sequence of events leaves, after a first start with the file. -/
def run (file : Option T.Text) (events : List SecretEvent) : SecretStore T :=
  events.foldl step (start { file := file })

/-! ## The store as a map -/

/-- An event on a map. -/
def update (m : String → Option String) : SecretEvent → String → Option String
  | .set key value => fun key' ↦ if key' = key then some value else m key'
  | .remove key => fun key' ↦ if key' = key then none else m key'
  | _ => m

variable (T) in
/-- The entries among the elements. -/
def entries (items : List Json) : List (String × String) :=
  items.filterMap fun j ↦ (element T j).pair?

variable (T) in
/-- The elements before the first one that raises an exception. -/
def before (items : List Json) : List Json := items.takeWhile fun j ↦ (element T j).isRead

variable (T) in
/-- The first element that raises an exception, and those behind it. -/
def behind (items : List Json) : List Json := items.dropWhile fun j ↦ (element T j).isRead

/-- What the store promises, from the file that it finds first. -/
structure SecretLaw (file : Option T.Text) : Prop where
  /-- A secret has the value that was set last, or else that of the last entry of the file, unless
  it was removed. -/
  get : ∀ events key defaultValue, (run file events).get key defaultValue =
    match events.foldl update (lastValue (entries T (secretsOf file))) key with
    | some value => (true, value)
    | none => (false, defaultValue)
  /-- The file does not lose a secret that was not removed. -/
  keeps : ∀ events key value, (key, value) ∈ entries T (secretsOf file) →
    .remove key ∉ events →
    ∃ value', (key, value') ∈ entries T (secretsOf (run file events).file)

/-- Behind the first element that raises an exception the file has no entry whose key and value it
has not had before. -/
def NothingBehind (file : Option T.Text) : Prop :=
  ∀ key value, lastValue (entries T (behind T (secretsOf file))) key = some value →
    lastValue (entries T (before T (secretsOf file))) key = some value

/-! ## Reading and writing -/

section Reading

theorem entries_before_behind (items : List Json) :
    entries T (before T items) ++ entries T (behind T items) = entries T items := by
  unfold entries before behind
  rw [← List.filterMap_append, List.takeWhile_append_dropWhile]

theorem entries_cons (secret : Json) (rest : List Json) :
    entries T (secret :: rest) = (element T secret).pair?.toList ++ entries T rest := by
  unfold entries
  rw [List.filterMap_cons]
  cases (element T secret).pair? <;> rfl

theorem before_cons (secret : Json) (rest : List Json) :
    before T (secret :: rest) =
      if (element T secret).isRead then secret :: before T rest else [] :=
  List.takeWhile_cons

/-- The loop assigns the entries before the first element that raises an exception. -/
theorem readSecrets_eq (store : Cache String String) (items : List Json) :
    readSecrets (T := T) store items = store.assign (entries T (before T items)) := by
  induction items generalizing store with
  | nil => rfl
  | cons secret rest ih =>
    unfold readSecrets
    rw [before_cons]
    cases hsecret : element T secret with
    | entry key value =>
      rw [SecretElement.isRead_entry, if_pos rfl, entries_cons, hsecret]
      exact ih _
    | skipped =>
      rw [SecretElement.isRead_skipped, if_pos rfl, entries_cons, hsecret]
      exact ih _
    | raises => rfl

theorem element_toElement (e : String × String) :
    element T (toElement e) = .entry e.1 e.2 := by
  unfold toElement element
  simp [JsonObject.get?, T.varToString_str]

/-- A file that was written has the pairs of the map. -/
theorem secretsOf_saveStore (s : SecretStore T) :
    secretsOf s.saveStore.file = s.sorted.map toElement := by
  obtain ⟨Doc, hparse, hsame⟩ := T.parse_stringify [("secrets", .arr (s.sorted.map toElement))]
  unfold secretsOf saveStore
  simp only [Option.bind_some, hparse, hsame]
  rfl

theorem entries_toElement (es : List (String × String)) :
    entries T (es.map toElement) = es := by
  induction es with
  | nil => rfl
  | cons e es ih =>
    rw [List.map_cons, entries_cons, element_toElement, ih]
    rfl

theorem before_toElement (es : List (String × String)) :
    before T (es.map toElement) = es.map toElement := by
  induction es with
  | nil => rfl
  | cons e es ih =>
    rw [List.map_cons, before_cons, element_toElement, SecretElement.isRead_entry, if_pos rfl, ih]

/-- The pairs in the order of their keys come to the map. -/
theorem lastValue_sorted (s : SecretStore T) (key : String) :
    lastValue s.sorted key = s.store.lookup key :=
  Cache.lastValue_of_perm (List.mergeSort_perm _ _) key

end Reading

/-! ## Runs -/

/-- The store holds the map, in memory and in the file, where it can all be read. -/
structure Holds (s : SecretStore T) (m : String → Option String) : Prop where
  store : ∀ key, s.store.lookup key = m key
  file : ∀ key, lastValue (entries T (secretsOf s.file)) key = m key
  read : ∀ key, lastValue (entries T (before T (secretsOf s.file))) key = m key

section Runs

variable {s : SecretStore T} {m : String → Option String}

/-- What is written holds the map. -/
theorem Holds.of_saveStore (h : ∀ key, s.store.lookup key = m key) : Holds s.saveStore m := by
  constructor
  case store => exact h
  case file =>
    intro key
    rw [secretsOf_saveStore, entries_toElement, lastValue_sorted, h]
  case read =>
    intro key
    rw [secretsOf_saveStore, before_toElement, entries_toElement, lastValue_sorted, h]

/-- What is in memory after a start. -/
theorem lookup_start (file : Option T.Text) (store : Cache String String) (key : String) :
    (start { file := file, store := store }).store.lookup key =
      (lastValue (entries T (before T (secretsOf file))) key).or (store.lookup key) := by
  unfold SecretStore.start readStore
  simp only
  rw [readSecrets_eq, Cache.lookup_assign]

/-- What is read holds the map, if what was in memory is part of it. -/
theorem Holds.start (h : Holds s m) {store : Cache String String}
    (hstore : ∀ key, (m key).or (store.lookup key) = m key) :
    Holds (start { file := s.file, store := store }) m := by
  constructor
  case store => exact fun key ↦ by rw [lookup_start, h.read, hstore]
  case file => exact h.file
  case read => exact h.read

/-- An event on the store is the event on the map. -/
theorem Holds.step (h : Holds s m) (e : SecretEvent) : Holds (s.step e) (update m e) := by
  have hstopped : Holds s.stop m := .of_saveStore h.store
  cases e with
  | set key value =>
    refine .of_saveStore fun key' ↦ ?_
    rw [Cache.lookup_insert_eq, h.store]
    rfl
  | remove key =>
    refine .of_saveStore fun key' ↦ ?_
    rw [Cache.lookup_erase_eq, h.store]
    rfl
  | cycle => exact hstopped.start fun key ↦ by rw [h.store, Option.or_self]
  | restart => exact hstopped.start fun key ↦ Option.or_none
  | crash => exact h.start fun key ↦ Option.or_none

theorem Holds.steps (h : Holds s m) (events : List SecretEvent) :
    Holds (events.foldl SecretStore.step s) (events.foldl update m) := by
  induction events generalizing s m with
  | nil => exact h
  | cons e events ih => exact ih (h.step e)

end Runs

/-- The first start with a file from which nothing is missing. -/
theorem NothingBehind.holds {file : Option T.Text} (h : NothingBehind file) :
    Holds (start { file := file }) (lastValue (entries T (secretsOf file))) := by
  have hread : ∀ key, lastValue (entries T (before T (secretsOf file))) key =
      lastValue (entries T (secretsOf file)) key := by
    intro key
    rw [← entries_before_behind (T := T) (secretsOf file), lastValue_append]
    cases hbehind : lastValue (entries T (behind T (secretsOf file))) key with
    | none => rfl
    | some value => exact h key value hbehind
  constructor
  case store => exact fun key ↦ by rw [lookup_start, hread]; exact Option.or_none
  case file => exact fun key ↦ rfl
  case read => exact hread

/-- A secret that is not removed stays in the map. -/
theorem foldl_update_isSome {m : String → Option String} {key value : String}
    {events : List SecretEvent} (hm : m key = some value) (hevents : .remove key ∉ events) :
    ∃ value', events.foldl update m key = some value' := by
  induction events generalizing m value with
  | nil => exact ⟨value, hm⟩
  | cons e events ih =>
    have hrest : .remove key ∉ events := fun hmem ↦ hevents (List.mem_cons.mpr (.inr hmem))
    have hne : e ≠ .remove key := fun heq ↦ hevents (List.mem_cons.mpr (.inl heq.symm))
    suffices hstep : ∃ value', update m e key = some value' from
      hstep.elim fun value' hvalue' ↦ ih hvalue' hrest
    cases e with
    | set key' value' =>
      by_cases hkey : key = key'
      · exact ⟨value', if_pos hkey⟩
      · exact ⟨value, (if_neg hkey).trans hm⟩
    | remove key' =>
      have hkey : key ≠ key' := fun heq ↦ hne (congrArg SecretEvent.remove heq.symm)
      exact ⟨value, (if_neg hkey).trans hm⟩
    | cycle => exact ⟨value, hm⟩
    | restart => exact ⟨value, hm⟩
    | crash => exact ⟨value, hm⟩

/-- The secrets survive if and only if no other key or value comes behind an element that raises
an exception. -/
theorem secretLaw_iff (file : Option T.Text) : SecretLaw file ↔ NothingBehind file := by
  constructor
  · intro h key value hbehind
    have hall : lastValue (entries T (secretsOf file)) key = some value := by
      rw [← entries_before_behind (T := T) (secretsOf file), lastValue_append, hbehind]
      rfl
    have hget : (start { file := file }).get key "" = (true, value) := by
      rw [show start { file := file } = run file [] from rfl, h.get, List.foldl_nil, hall]
    unfold SecretStore.get at hget
    rw [lookup_start] at hget
    split at hget
    · rename_i value' hlookup
      rw [← (Prod.mk.inj hget).2, ← hlookup]
      exact Option.or_none.symm
    · cases (Prod.mk.inj hget).1
  · intro h
    constructor
    case get =>
      intro events key defaultValue
      have hheld := (h.holds.steps events).store key
      unfold SecretStore.get run
      rw [hheld]
    case keeps =>
      intro events key value hmem hevents
      obtain ⟨value₀, hvalue₀⟩ := exists_lastValue hmem
      obtain ⟨value', hvalue'⟩ := foldl_update_isSome hvalue₀ hevents
      have hfile := (h.holds.steps events).file key
      rw [hvalue'] at hfile
      exact ⟨value', mem_of_lastValue hfile⟩

/-- A file in which a remark stands before the one secret. -/
def sampleRemarked : Option SecretText.sample.Text :=
  some (some (.obj [("secrets", .arr [.str "maps",
    .obj [("key", .str "google.maps.apikey"), ("value", .str "secret-a")]])]))

/-- The secret behind the remark is not found. -/
theorem secret_behind_remark_is_lost : ¬ SecretLaw sampleRemarked := by
  intro h
  have hget := h.get [] "google.maps.apikey" ""
  cases hget

end SecretStore

end OwSec
