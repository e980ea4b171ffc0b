import Bblib.ByteStrings
import Mathlib.Tactic

/-!
# JSON values

The part of `boost::json` the library uses: the value kinds, `is_null`,
`as_object`, `if_contains`, the inserting `operator[]` and the conversion
`value_to<string>`.  An accessor that throws in C++ returns `none`.  Numbers
keep their three representations; a double is its bit pattern.
-/

namespace Bblib

inductive Json where
  | null
  | bool (b : Bool)
  | int64 (i : Int64)
  | uint64 (u : UInt64)
  | double (bits : UInt64)
  | string (s : Str)
  | array (elements : List Json)
  | object (members : List (Str × Json))

abbrev JsonObject := List (Str × Json)

def Json.isNull : Json → Bool
  | .null => true
  | _ => false

/-- `as_object()`, which throws on every other kind. -/
def Json.asObject : Json → Option JsonObject
  | .object members => some members
  | _ => none

def JsonObject.ifContains (object : JsonObject) (key : Str) : Option Json :=
  (object.find? fun member => member.1 == key).map Prod.snd

/-- `operator[]`: a missing key is inserted with a null value. -/
def JsonObject.index (object : JsonObject) (key : Str) : Json × JsonObject :=
  match object.ifContains key with
  | some value => (value, object)
  | none => (.null, object ++ [(key, .null)])

/-- `value_to<string>`, which throws on every other kind. -/
def Json.valueToString : Json → Option Str
  | .string s => some s
  | _ => none

@[simp] theorem Json.asObject_object (members : JsonObject) :
    (Json.object members).asObject = some members := rfl

theorem Json.valueToString_eq_some {value : Json} {text : Str} :
    value.valueToString = some text ↔ value = .string text := by
  cases value <;> simp [Json.valueToString]

theorem JsonObject.index_of_ifContains {object : JsonObject} {key : Str}
    {value : Json} (hfound : object.ifContains key = some value) :
    object.index key = (value, object) := by
  simp [JsonObject.index, hfound]

theorem JsonObject.valueToString_index (object : JsonObject) (key : Str) :
    (object.index key).1.valueToString =
      (object.ifContains key).bind Json.valueToString := by
  unfold JsonObject.index
  cases object.ifContains key with
  | none => rfl
  | some value => rfl

end Bblib
