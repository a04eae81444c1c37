import OwSec.Framework.JsonFields

/-!
# Lists and records in a text column

`to_string`, `to_object_array`, `to_stringpair_array` and `to_object` of
`framework/RESTAPI_utils.h`: what a table keeps in one text column is printed by the JSON library
when a record is stored and parsed when it is loaded.

An empty list is not printed, it is the text `[]`.  Reading a list raises nothing: whatever goes
wrong ends the list where it is.  Reading a record raises what the parser raises.
-/

namespace OwSec

open SecurityObjects Kit

/-- The parser reads a text that was printed, as the value that was printed. -/
def JsonLibrary.ReadsBack (lib : JsonLibrary) (condense : Json → String) (j : Json) : Prop :=
  condense j ≠ "" ∧ ∃ j', lib.parse (condense j) = some j' ∧ j.Agrees j'

namespace RESTAPI_utils

variable {α : Type}

/-! ## Printing -/

/-- A list, with what is printed of an element. -/
def listToString (condense : Json → String) (write : α → Json) (items : List α) : String :=
  if items.isEmpty then "[]" else condense (.arr (items.map write))

/-- A pair in a column: an array of two. -/
def pairInColumn (p : String × String) : Json := .arr [.str p.1, .str p.2]

/-! ## Reading -/

variable (lib : JsonLibrary)

/-- The elements of the array in a column; there are none in a text that is empty or not an
array. -/
def elementsOf (text : String) : List Json :=
  if text.isEmpty then []
  else
    match lib.parse text with
    | some (.arr items) => items
    | _ => []

/-- `to_object_array`, of records. -/
def toObjectArray (fromJson : JsonObject → α) (text : String) : List α :=
  (elementsFromJson (elementFromJson fromJson) (elementsOf lib text)).2

/-- `to_object_array`, of texts. -/
def toStringArray (text : String) : List String :=
  (elementsFromJson lib.varToString (elementsOf lib text)).2

/-- The loop of `to_stringpair_array`: what is not an array ends it, and an array of another size is
passed over. -/
def pairsOf : List Json → List (String × String)
  | .arr [first, second] :: rest =>
    match lib.varToString first, lib.varToString second with
    | some s, some s' => (s, s') :: pairsOf rest
    | _, _ => []
  | .arr _ :: rest => pairsOf rest
  | _ => []

/-- `to_stringpair_array`. -/
def toStringPairArray (text : String) : List (String × String) := pairsOf lib (elementsOf lib text)

/-- `to_object`: `none` is an exception, of the parser or for what is not an object. -/
def toObject (fromJson : JsonObject → α → α) (fresh : α) (text : String) : Option α :=
  if text.isEmpty then some fresh
  else
    match lib.parse text with
    | some (.obj o) => some (fromJson o fresh)
    | _ => none

/-! ## What is printed is read -/

variable {lib : JsonLibrary} {condense : Json → String}

/-- The values that a list prints. -/
def printedList (write : α → Json) (items : List α) : List Json :=
  if items.isEmpty then [] else [.arr (items.map write)]

/-- The column of a list holds its elements. -/
theorem elementsOf_listToString (hempty : lib.parse "[]" = some (.arr [])) {write : α → Json}
    {items : List α} (h : ∀ j ∈ printedList write items, lib.ReadsBack condense j) :
    List.Forall₂ Json.Agrees (items.map write)
      (elementsOf lib (listToString condense write items)) := by
  cases items with
  | nil =>
    have helements : elementsOf lib (listToString condense write []) = [] := by
      unfold elementsOf
      simp [listToString, hempty]
    rw [helements]
    exact .nil
  | cons x items =>
    obtain ⟨hne, j, hparse, hagrees⟩ := h _ List.mem_cons_self
    cases hagrees with
    | @arr _ ys hagrees =>
      have helements : elementsOf lib (listToString condense write (x :: items)) = ys := by
        show elementsOf lib (condense (.arr ((x :: items).map write))) = ys
        unfold elementsOf
        rw [if_neg (by simpa using hne), hparse]
      rw [helements]
      exact hagrees

theorem toObjectArray_listToString (hempty : lib.parse "[]" = some (.arr []))
    {fromJson : JsonObject → α} {toJson : α → JsonObject} {records : List α}
    (h : ∀ j ∈ printedList (fun r ↦ .obj (toJson r)) records, lib.ReadsBack condense j)
    (hread : ∀ r ∈ records, ∀ o', (Json.obj (toJson r)).Agrees (.obj o') → fromJson o' = r) :
    toObjectArray lib fromJson (listToString condense (fun r ↦ .obj (toJson r)) records) =
      records := by
  unfold toObjectArray
  rw [elementsFromJson_of_agrees (elementsOf_listToString hempty h)]
  intro r hr j hj
  cases hj with
  | obj hj => exact congrArg some (hread r hr _ (.obj hj))

theorem toStringArray_listToString (hlib : lib.Converts) (hempty : lib.parse "[]" = some (.arr []))
    {items : List String} (h : ∀ j ∈ printedList .str items, lib.ReadsBack condense j) :
    toStringArray lib (listToString condense .str items) = items := by
  unfold toStringArray
  rw [elementsFromJson_of_agrees (elementsOf_listToString hempty h)]
  intro s _ j hj
  cases hj
  exact hlib.str s

/-- Pairs that agree with what was written are read one by one. -/
theorem pairsOf_of_agrees (hlib : lib.Converts) {pairs : List (String × String)} {ys : List Json}
    (h : List.Forall₂ Json.Agrees (pairs.map pairInColumn) ys) : pairsOf lib ys = pairs := by
  induction pairs generalizing ys with
  | nil =>
    cases h
    rfl
  | cons p pairs ih =>
    cases h with
    | cons hp h =>
      cases hp with
      | arr hp =>
        obtain - | ⟨hfirst, - | ⟨hsecond, ⟨⟩⟩⟩ := hp
        cases hfirst
        cases hsecond
        simp only [pairsOf, hlib.str, ih h]

theorem toStringPairArray_listToString (hlib : lib.Converts)
    (hempty : lib.parse "[]" = some (.arr [])) {pairs : List (String × String)}
    (h : ∀ j ∈ printedList pairInColumn pairs, lib.ReadsBack condense j) :
    toStringPairArray lib (listToString condense pairInColumn pairs) = pairs :=
  pairsOf_of_agrees hlib (elementsOf_listToString hempty h)

theorem toObject_condense {fromJson : JsonObject → α → α} {fresh a : α} {o : JsonObject}
    (h : lib.ReadsBack condense (.obj o))
    (hread : ∀ o', (Json.obj o).Agrees (.obj o') → fromJson o' fresh = a) :
    toObject lib fromJson fresh (condense (.obj o)) = some a := by
  obtain ⟨hne, j, hparse, hagrees⟩ := h
  cases hagrees with
  | obj hagrees =>
    unfold toObject
    rw [if_neg (by simpa using hne), hparse]
    exact congrArg some (hread _ (.obj hagrees))

end RESTAPI_utils

end OwSec
