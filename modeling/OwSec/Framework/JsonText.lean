import OwSec.Json

/-!
# JSON in files

Two parts of the service keep a JSON document in a file and write the whole of it at every
change.  The texts are those of the JSON library: `JsonText` has its parser and its printer, and
what is assumed of them, that a printed object is read back with the same members.
-/

namespace OwSec

/-- The texts of the JSON library. -/
structure JsonText where
  Text : Type
  /-- The text of an empty file. -/
  empty : Text
  /-- `Parser::parse`; `none` is a raised exception. -/
  parse : Text → Option Json
  /-- `Object::stringify`. -/
  stringify : JsonObject → Text
  /-- A printed object is read back. -/
  parse_stringify : ∀ o, ∃ o', parse (stringify o) = some (.obj o') ∧
    ∀ key, JsonObject.get? o' key = JsonObject.get? o key

namespace JsonText

/-- Texts identified with what the parser makes of them. -/
def sample : JsonText where
  Text := Option Json
  empty := none
  parse text := text
  stringify o := some (.obj o)
  parse_stringify o := ⟨o, rfl, fun _ ↦ rfl⟩

end JsonText

namespace JsonObject

/-- `Object::set`. -/
def set (o : JsonObject) (key : String) (value : Json) : JsonObject :=
  (key, value) :: o.filter fun m ↦ m.1 ≠ key

@[simp] theorem get?_set_self (o : JsonObject) (key : String) (value : Json) :
    (o.set key value).get? key = some value := by
  simp [set, get?]

@[simp] theorem get?_set_of_ne (o : JsonObject) {key key' : String} (h : key' ≠ key)
    (value : Json) : (o.set key value).get? key' = o.get? key' := by
  have hpred : (fun m : String × Json ↦
      decide (decide (m.1 ≠ key) = true ∧ decide (m.1 = key') = true)) =
      fun m ↦ decide (m.1 = key') := by
    funext m
    by_cases hm : m.1 = key' <;> simp [hm, h]
  unfold get? set
  rw [List.find?_cons_of_neg (by simpa using Ne.symm h), List.find?_filter, hpred]

end JsonObject

end OwSec
