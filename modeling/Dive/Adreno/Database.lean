import Mathlib.Data.Nat.Notation

/-!
# The register database

The elements of the XML files as `generateAdrenoHeader.py` and `generatePm4Info_adreno.py` read
them, after `import` and `addMissingDomains`.

* `Bitfield`, `Bitset`, `Enum`, `Register`, `RegArray`, `Stripe`, `Domain`, `Database`.
* `isBuiltInType`, `Database.enum`, `Database.bitset`, `Database.bitsetOf`: the look-ups by name
  that both generators make.
-/

namespace Dive.Adreno

/-- A `bitfield`. -/
structure Bitfield where
  name : String
  type : Option String := none
  low : Option ℕ := none
  high : Option ℕ := none
  pos : Option ℕ := none
  shr : Option ℕ := none
  radix : Option ℕ := none
  variants : Option String := none
  deriving DecidableEq, Repr

/-- A `bitset`. -/
structure Bitset where
  name : String
  bitfields : List Bitfield
  deriving DecidableEq, Repr

/-- An `enum`, anywhere in the tree, with its named values. -/
structure Enum where
  name : String
  /-- It is a child of the root. -/
  inRoot : Bool := true
  values : List (String × Option ℕ) := []
  deriving DecidableEq, Repr

/-- A `reg32` or `reg64`. -/
structure Register where
  name : String
  offset : ℕ
  is64 : Bool := false
  type : Option String := none
  variants : Option String := none
  shr : Option ℕ := none
  radix : Option ℕ := none
  low : Option ℕ := none
  high : Option ℕ := none
  bitfields : List Bitfield := []
  deriving DecidableEq, Repr

/-- A child of an array: a register, or an element such as `doc`. -/
inductive ArrayChild
  | register (reg : Register)
  | other (variants : Option String)
  deriving DecidableEq, Repr

/-- An `array`. -/
structure RegArray where
  name : String
  offset : ℕ
  stride : ℕ
  length : ℕ
  variants : Option String := none
  children : List ArrayChild
  deriving DecidableEq, Repr

/-- The `reg32` and `reg64` elements of an array. -/
def RegArray.registers (array : RegArray) : List Register :=
  array.children.filterMap fun
    | .register reg => some reg
    | .other _ => none

/-- A `stripe`. -/
structure Stripe where
  varset : String
  variants : String
  pfx : Option String := none
  registers : List Register
  deriving DecidableEq, Repr

/-- A `domain`, with its children of each kind in their order. -/
structure Domain where
  name : String
  bitsets : List Bitset := []
  registers : List Register := []
  arrays : List RegArray := []
  stripes : List Stripe := []
  deriving DecidableEq, Repr

/-- The tree. -/
structure Database where
  enums : List Enum := []
  bitsets : List Bitset := []
  domains : List Domain := []
  deriving DecidableEq, Repr

/-- `isBuiltInType`, for a type that is not `None`. -/
def isBuiltInType (type : String) : Bool :=
  type ∈ ["a3xx_regid", "boolean", "uint", "hex", "int", "fixed", "ufixed", "float", "address",
    "waddress"]

/-- The type that is written at an element, if it is one that has to be looked up. -/
def customType (type : Option String) : Option String :=
  type.filter fun type => type ≠ "" && !isBuiltInType type

namespace Database

variable (db : Database)

/-- The enum of this name at the root. -/
def enum (name : String) : Option Enum :=
  db.enums.find? fun enum => enum.inRoot && enum.name == name

/-- The bitset of this name, of the domain or else of the root. -/
def bitset (domain : Domain) (name : String) : Option Bitset :=
  (domain.bitsets.find? (·.name == name)).or (db.bitsets.find? (·.name == name))

/-- The domain of this name. -/
def domain (name : String) : Option Domain := db.domains.find? (·.name == name)

end Database

end Dive.Adreno
