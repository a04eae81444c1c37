import OwSec.Framework.JsonText
import OwSec.Kit.Assignments
import OwSec.Service

/-!
# Writing records to JSON and reading them back

`field_to_json` of `framework/RESTAPI_utils.h` sets the members of an object one after the other.
Whoever reads the object has got it through the parser, and the parser decides in which order the
members of an object come: `Json.Agrees` is equality up to that order, at every depth.

The second half has a rule for each reader of a field: from an object that agrees with what was
written it reads the value that was written.
-/

namespace OwSec

open SecurityObjects Kit

/-! ## Values up to the order of members -/

/-- The same value, with the members of its objects in whatever order. -/
inductive Json.Agrees : Json → Json → Prop
  | null : Agrees .null .null
  | bool (b : Bool) : Agrees (.bool b) (.bool b)
  | int (n : ℤ) : Agrees (.int n) (.int n)
  | real (text : String) : Agrees (.real text) (.real text)
  | str (s : String) : Agrees (.str s) (.str s)
  | arr {xs ys : List Json} (h : List.Forall₂ Agrees xs ys) : Agrees (.arr xs) (.arr ys)
  | obj {o o' : List (String × Json)}
    (h : ∀ key, Option.Rel Agrees (JsonObject.get? o key) (JsonObject.get? o' key)) :
    Agrees (.obj o) (.obj o')

namespace JsonObject

/-- A member that is found is a member. -/
theorem mem_of_get? {o : JsonObject} {key : String} {j : Json} (h : o.get? key = some j) :
    (key, j) ∈ o := by
  unfold get? at h
  obtain ⟨m, hm, rfl⟩ := Option.map_eq_some_iff.mp h
  have hkey : m.1 = key := by simpa using List.find?_some hm
  exact hkey ▸ List.mem_of_find?_eq_some hm

end JsonObject

/-- Every value agrees with itself. -/
theorem Json.Agrees.refl : ∀ j : Json, j.Agrees j
  | .null => .null
  | .bool b => .bool b
  | .int n => .int n
  | .real text => .real text
  | .str s => .str s
  | .arr items => by
    refine .arr (List.forall₂_same.mpr fun j hj ↦ ?_)
    exact Json.Agrees.refl j
  | .obj o => by
    refine .obj fun key ↦ ?_
    cases hget : JsonObject.get? o key with
    | none => exact .none
    | some j =>
      have hmem := JsonObject.mem_of_get? hget
      exact .some (Json.Agrees.refl j)
termination_by j => sizeOf j
decreasing_by
  · have := List.sizeOf_lt_of_mem hj
    simp only [Json.arr.sizeOf_spec]
    omega
  · have := List.sizeOf_lt_of_mem hmem
    simp only [Prod.mk.sizeOf_spec] at this
    simp only [Json.obj.sizeOf_spec]
    omega

/-! ## Writing -/

namespace JsonObject

/-- The members are set one after the other. -/
def ofMembers (ms : JsonObject) : JsonObject := ms.foldl (fun o m ↦ o.set m.1 m.2) []

/-- What was set last under a name is found. -/
theorem get?_ofMembers (ms : JsonObject) (key : String) :
    (ofMembers ms).get? key = lastValue ms key := by
  have hset (ms o : JsonObject) : (ms.foldl (fun o m ↦ set o m.1 m.2) o).get? key =
      (lastValue ms key).or (o.get? key) := by
    induction ms generalizing o with
    | nil => rfl
    | cons m ms ih =>
      rw [List.foldl_cons, ih, lastValue_cons, Option.or_assoc]
      by_cases hkey : key = m.1
      · rw [if_pos hkey, hkey, get?_set_self, Option.some_or]
      · rw [if_neg hkey, get?_set_of_ne _ hkey, Option.none_or]
  rw [ofMembers, hset]
  show (lastValue ms key).or none = _
  rw [Option.or_none]

/-- A name that is set twice is set to the same value. -/
def Consistent (ms : JsonObject) : Prop := ∀ m ∈ ms, ∀ m' ∈ ms, m.1 = m'.1 → m.2 = m'.2

/-- Names that are all different. -/
theorem consistent_of_names {ms : JsonObject} (names : List String) (hnames : ms.map Prod.fst = names)
    (h : names.Nodup) : Consistent ms := by
  subst hnames
  intro m hm m' hm' hkey
  rw [List.inj_on_of_nodup_map h hm hm' hkey]

theorem Consistent.of_subset {ms ms' : JsonObject} (h : Consistent ms') (hsub : ms ⊆ ms') :
    Consistent ms := fun m hm m' hm' hkey ↦ h m (hsub hm) m' (hsub hm') hkey

/-- What is set is found. -/
theorem get?_ofMembers_of_mem {ms : JsonObject} (h : Consistent ms) {m : String × Json}
    (hm : m ∈ ms) : (ofMembers ms).get? m.1 = some m.2 := by
  rw [get?_ofMembers]
  obtain ⟨v, hv⟩ := exists_lastValue hm
  have hsame : v = m.2 := h _ (mem_of_lastValue hv) _ hm rfl
  rw [hv, hsame]

end JsonObject

namespace Json

/-- A list of texts. -/
def ofStrings (items : List String) : Json := .arr (items.map .str)

/-- A list of pairs. -/
def ofPairs (pairs : List (String × String)) : Json :=
  .arr (pairs.map fun p ↦ .obj (JsonObject.ofMembers [("tag", .str p.1), ("value", .str p.2)]))

/-- A list of records. -/
def ofRecords {α : Type} (toJson : α → JsonObject) (records : List α) : Json :=
  .arr (records.map fun r ↦ .obj (toJson r))

end Json

namespace JsonObject

/-! ## What is found in an object that agrees -/

/-- The object has the field, with a value that agrees. -/
def Holds (o : JsonObject) (field : String) (j : Json) : Prop :=
  ∃ j', o.get? field = some j' ∧ j.Agrees j'

variable {o o' : JsonObject} {field : String}

/-- An object that agrees with what was written has every field that was. -/
theorem holds_of_agrees {ms : JsonObject} (hms : Consistent ms)
    (h : (Json.obj (ofMembers ms)).Agrees (.obj o)) : ∀ m ∈ ms, o.Holds m.1 m.2 := by
  intro m hm
  cases h with
  | obj h =>
    have hrel := h m.1
    rw [get?_ofMembers_of_mem hms hm] at hrel
    generalize ho : o.get? m.1 = found at hrel
    cases hrel with
    | some hagrees => exact ⟨_, ho, hagrees⟩

theorem holds_str {s : String} : o.Holds field (.str s) ↔ o.get? field = some (.str s) := by
  constructor
  · rintro ⟨j, hj, hagrees⟩
    cases hagrees
    exact hj
  · exact fun h ↦ ⟨_, h, .str s⟩

theorem holds_int {n : ℤ} : o.Holds field (.int n) ↔ o.get? field = some (.int n) := by
  constructor
  · rintro ⟨j, hj, hagrees⟩
    cases hagrees
    exact hj
  · exact fun h ↦ ⟨_, h, .int n⟩

theorem holds_bool {b : Bool} : o.Holds field (.bool b) ↔ o.get? field = some (.bool b) := by
  constructor
  · rintro ⟨j, hj, hagrees⟩
    cases hagrees
    exact hj
  · exact fun h ↦ ⟨_, h, .bool b⟩

theorem holds_arr {xs : List Json} : o.Holds field (.arr xs) ↔
    ∃ ys, o.get? field = some (.arr ys) ∧ List.Forall₂ Json.Agrees xs ys := by
  constructor
  · rintro ⟨j, hj, hagrees⟩
    cases hagrees with
    | arr h => exact ⟨_, hj, h⟩
  · rintro ⟨ys, hys, h⟩
    exact ⟨_, hys, .arr h⟩

theorem holds_obj : o.Holds field (.obj o') ↔
    ∃ inner, o.get? field = some (.obj inner) ∧ (Json.obj o').Agrees (.obj inner) := by
  constructor
  · rintro ⟨j, hj, hagrees⟩
    cases hagrees with
    | obj h => exact ⟨_, hj, .obj h⟩
  · rintro ⟨inner, hinner, h⟩
    exact ⟨_, hinner, h⟩

end JsonObject

/-! ## Reading -/

/-- The conversions of the library, on the values that the service writes. -/
structure JsonLibrary.Converts (lib : JsonLibrary) : Prop where
  str : ∀ s, lib.varToString (.str s) = some s
  bool : ∀ b, lib.varToString (.bool b) = some (if b then "true" else "false")
  uint64 : ∀ n : ℕ, n < 2 ^ 64 → lib.varToUInt64 (.int n) = some n

theorem JsonLibrary.converts_sample : JsonLibrary.sample.Converts where
  str _ := rfl
  bool _ := rfl
  uint64 n _ := by
    show (if 0 ≤ (n : ℤ) then some (n : ℤ).toNat else none) = some n
    rw [if_pos (Int.natCast_nonneg n), Int.toNat_natCast]

section Readers

variable {lib : JsonLibrary} {o : JsonObject} {field : String} {α β : Type}

/-- A pair: a tag and a value, empty where they are not there. -/
def pairFromJson (lib : JsonLibrary) (o : JsonObject) : Option (String × String) := do
  let tag ← ((o.get? "tag").map lib.varToString).getD (some "")
  let value ← ((o.get? "value").map lib.varToString).getD (some "")
  return (tag, value)

/-- A list of pairs: the elements of an array are appended to the value. -/
def pairsFromJson (lib : JsonLibrary) (o : JsonObject) (field : String)
    (value : List (String × String)) : Bool × List (String × String) :=
  match o.get? field with
  | some (.arr items) =>
    let (ok, read) := elementsFromJson (fun j ↦ (elementFromJson (pairFromJson lib) j).join) items
    (ok, value ++ read)
  | _ => (true, value)

theorem stringFromJson_of_holds (hlib : lib.Converts) {s : String} (h : o.Holds field (.str s))
    (value : String) : stringFromJson lib o field value = (true, s) := by
  rw [JsonObject.holds_str] at h
  simp only [stringFromJson, fieldFromJson, h, hlib.str]

theorem uint64FromJson_of_holds (hlib : lib.Converts) {n : ℕ} (hn : n < 2 ^ 64)
    (h : o.Holds field (.int n)) (value : ℕ) : uint64FromJson lib o field value = (true, n) := by
  rw [JsonObject.holds_int] at h
  simp only [uint64FromJson, fieldFromJson, h, hlib.uint64 n hn]

theorem boolFromJson_of_holds (hlib : lib.Converts) {b : Bool} (h : o.Holds field (.bool b))
    (value : Bool) : boolFromJson lib o field value = (true, b) := by
  rw [JsonObject.holds_bool] at h
  cases b <;> simp [boolFromJson, fieldFromJson, h, hlib.bool]

theorem roleFromJson_of_holds (hlib : lib.Converts) {r : UserRole}
    (h : o.Holds field (.str (userTypeToString r))) (value : UserRole) :
    roleFromJson lib o field value = (true, r) := by
  rw [JsonObject.holds_str] at h
  simp only [roleFromJson, fieldFromJson, h, hlib.str, Option.map_some,
    userTypeFromString_userTypeToString]

/-- Elements that agree with what was written are read one by one. -/
theorem elementsFromJson_of_agrees {write : α → Json} {convert : Json → Option α} {items : List α}
    {ys : List Json} (h : List.Forall₂ Json.Agrees (items.map write) ys)
    (hread : ∀ x ∈ items, ∀ j, (write x).Agrees j → convert j = some x) :
    elementsFromJson convert ys = (true, items) := by
  induction items generalizing ys with
  | nil =>
    cases h
    rfl
  | cons x items ih =>
    cases h with
    | cons hx h =>
      have hrest := ih h fun y hy ↦ hread y (List.mem_cons_of_mem _ hy)
      unfold elementsFromJson
      rw [hread x List.mem_cons_self _ hx, hrest]

theorem stringVecFromJson_of_holds (hlib : lib.Converts) {items : List String}
    (h : o.Holds field (Json.ofStrings items)) (value : List String) :
    stringVecFromJson lib o field value = (true, items) := by
  obtain ⟨ys, hys, hagrees⟩ := JsonObject.holds_arr.mp h
  unfold stringVecFromJson
  rw [hys]
  refine elementsFromJson_of_agrees hagrees fun s _ j hj ↦ ?_
  cases hj
  exact hlib.str s

theorem pairsFromJson_of_holds (hlib : lib.Converts) {pairs : List (String × String)}
    (h : o.Holds field (Json.ofPairs pairs)) (value : List (String × String)) :
    pairsFromJson lib o field value = (true, value ++ pairs) := by
  obtain ⟨ys, hys, hagrees⟩ := JsonObject.holds_arr.mp h
  have hread : elementsFromJson (fun j ↦ (elementFromJson (pairFromJson lib) j).join) ys =
      (true, pairs) := by
    refine elementsFromJson_of_agrees hagrees fun p _ j hj ↦ ?_
    cases hj with
    | @obj _ inner hj =>
      have hholds := JsonObject.holds_of_agrees
        (JsonObject.consistent_of_names ["tag", "value"] rfl (by decide)) (.obj hj)
      simp only [List.forall_mem_cons, JsonObject.holds_str] at hholds
      obtain ⟨htag, hvalue, -⟩ := hholds
      show pairFromJson lib inner = some p
      simp [pairFromJson, htag, hvalue, hlib.str]
  unfold pairsFromJson
  rw [hys]
  simp only [hread]

/-- Records that are read as they were written. -/
theorem vecFromJson_of_holds {fromJson : JsonObject → α} {toJson : α → JsonObject}
    {records : List α} (h : o.Holds field (Json.ofRecords toJson records))
    (hread : ∀ r ∈ records, ∀ o', (Json.obj (toJson r)).Agrees (.obj o') → fromJson o' = r)
    (value : List α) : vecFromJson fromJson o field value = (true, value ++ records) := by
  obtain ⟨ys, hys, hagrees⟩ := JsonObject.holds_arr.mp h
  have helements : elementsFromJson (elementFromJson fromJson) ys = (true, records) := by
    refine elementsFromJson_of_agrees hagrees fun r hr j hj ↦ ?_
    cases hj with
    | obj hj => exact congrArg some (hread r hr _ (.obj hj))
  unfold vecFromJson
  rw [hys]
  simp only [helements]

theorem objectFromJson_of_holds {fromJson : JsonObject → α → α} {o' : JsonObject} {a value : α}
    (h : o.Holds field (.obj o'))
    (hread : ∀ inner, (Json.obj o').Agrees (.obj inner) → fromJson inner value = a) :
    objectFromJson fromJson o field value = (true, a) := by
  obtain ⟨inner, hinner, hagrees⟩ := JsonObject.holds_obj.mp h
  unfold objectFromJson
  rw [hinner]
  simp only [hread inner hagrees]

end Readers

end OwSec
