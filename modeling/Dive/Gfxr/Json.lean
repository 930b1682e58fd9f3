import Mathlib.Data.List.Basic
import Mathlib.Algebra.Order.Floor.Defs
import Mathlib.Data.Rat.Floor

/-!
# JSON values

* `Json`: `nlohmann::ordered_json`, an object as its members in order.
* `count`, `get?`, `values`, `toUInt64?`: the operations on it that the annotation code uses.
-/

namespace Dive

/-- A JSON value. Integers keep the kind that the library stores them as. -/
inductive Json
  | null
  | boolean (value : Bool)
  | unsigned (value : UInt64)
  | integer (value : Int64)
  | float (value : ℚ)
  | string (value : String)
  | array (elements : List Json)
  | object (members : List (String × Json))

namespace Json

/-- `operator[]` of a constant object. -/
def get? (key : String) : Json → Option Json
  | .object members => members.lookup key
  | _ => none

/-- Only an object has keys. -/
def count (j : Json) (key : String) : Bool := (j.get? key).isSome

/-- The values that a range-based `for` runs over: a primitive value is a range of one. -/
def values : Json → List Json
  | .null => []
  | .array elements => elements
  | .object members => members.map Prod.snd
  | j => [j]

/-- The conversion to `uint64_t`, which throws on what is not a number. A real number is cut to its
integer part. -/
def toUInt64? : Json → Option UInt64
  | .unsigned value => some value
  | .integer value => some value.toUInt64
  | .float value => some (UInt64.ofNat ⌊value⌋.toNat)
  | _ => none

end Json

end Dive
