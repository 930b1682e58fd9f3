import Dive.Adreno.Database
import Dive.Adreno.Variants
import Dive.Lib.Traverse
import Mathlib.Data.Int.Notation

/-!
# Register descriptions

* `RegField`, `RegInfo`: the generated descriptions, with the bits that each number has.
* `enumIndex`, `outputEnums`, `Reflection`: the enumerations that handles stand for.
* `appendBitfield`, `getBitfieldsOrEnumHandleFromBitset`, `regInfo`: what
  `generatePm4Info_adreno.py` writes for a register. An exception, and a number that does not fit in
  the bits it is for and so does not compile, are `none`.
-/

namespace Dive.Adreno

/-- `ValueType`. -/
inductive ValueType
  | kBoolean
  | kUint
  | kInt
  | kFloat
  | kFixed
  | kUFixed
  | kAddress
  | kWaddress
  | kHex
  | kRegID
  | kOther
  deriving DecidableEq, Repr

/-- `getTypeEnumString`. -/
def getTypeEnumString (type : Option String) : ValueType :=
  match type with
  | some "boolean" => .kBoolean
  | some "uint" => .kUint
  | some "int" => .kInt
  | some "float" => .kFloat
  | some "fixed" => .kFixed
  | some "ufixed" => .kUFixed
  | some "address" => .kAddress
  | some "waddress" => .kWaddress
  | some "hex" => .kHex
  | some "a3xx_regid" => .kRegID
  | _ => .kOther

/-- A number as a bit-field initialiser. -/
def fit (n : ℕ) (x : ℤ) : Option (Fin n) :=
  if h : 0 ≤ x ∧ x < n then some ⟨x.toNat, by omega⟩ else none

theorem fit_eq_some_iff {n : ℕ} {x : ℤ} {k : Fin n} : fit n x = some k ↔ x = (k : ℕ) := by
  unfold fit
  split_ifs with h
  · rw [Option.some_inj, Fin.ext_iff]
    show x.toNat = (k : ℕ) ↔ x = (k : ℕ)
    omega
  · have hk := k.isLt
    constructor
    · intro hnone
      cases hnone
    · intro hx
      omega

/-- `RegField`. -/
structure RegField where
  type : ValueType
  enumHandle : Fin (2 ^ 8)
  shift : Fin (2 ^ 6)
  shr : Fin (2 ^ 5)
  gpuVariants : Fin (2 ^ 7)
  bitWidth : Fin (2 ^ 6)
  radix : Fin (2 ^ 5)
  mask : Fin (2 ^ 64)
  name : String
  deriving DecidableEq, Repr

/-- `RegInfo`. -/
structure RegInfo where
  name : String
  is64Bit : Bool
  type : ValueType
  enumHandle : Fin (2 ^ 8)
  shr : Fin (2 ^ 5)
  bitWidth : Fin (2 ^ 6)
  radix : Fin (2 ^ 5)
  fields : List RegField
  deriving DecidableEq, Repr

/-- `UINT8_MAX` as an enum handle: there is no enumeration. -/
def noEnum : Fin (2 ^ 8) := 255

/-! ## Enumerations -/

/-- `enum_index_dict`. -/
def enumIndex (db : Database) (name : String) : Option ℕ :=
  db.enums.findIdx? (·.name == name)

/-- `parseEnumInfo` meets no name twice. -/
def EnumsDistinct (db : Database) : Prop := (db.enums.map (·.name)).Nodup

instance (db : Database) : Decidable (EnumsDistinct db) := by
  unfold EnumsDistinct
  infer_instance

/-- The name that an enumeration gives to a number; a later value of the number replaces an earlier
one. -/
def valueName (values : List (String × Option ℕ)) (value : ℕ) : Option String :=
  (values.reverse.find? fun entry => entry.2 = some value).map Prod.fst

/-- A row of `g_sEnumReflection`: up to the greatest number below 256. -/
def reflectionRow (enum : Enum) : Option (List (Option String)) :=
  (((enum.values.filterMap (·.2)).filter (· < 256)).max?).map fun maxEnumValue =>
    (List.range (maxEnumValue + 1)).map (valueName enum.values)

theorem reflectionRow_small {enum : Enum} {row : List (Option String)}
    (h : reflectionRow enum = some row) : row.length ≤ 256 := by
  obtain ⟨maxEnumValue, hmax, rfl⟩ := Option.map_eq_some_iff.mp h
  have hsmall : maxEnumValue < 256 :=
    of_decide_eq_true (List.mem_filter.mp (List.max?_mem hmax)).2
  rw [List.length_map, List.length_range]
  exact hsmall

/-- `g_sEnumReflection`. -/
structure Reflection where
  rows : List (List (Option String))
  small : ∀ row ∈ rows, row.length ≤ 256

/-- `outputEnums`. -/
def outputEnums (db : Database) : Option Reflection :=
  match h : db.enums.mapM reflectionRow with
  | none => none
  | some rows =>
    some ⟨rows ++ [[]], by
      intro row hrow
      rcases List.mem_append.mp hrow with hrow | hrow
      · obtain ⟨enum, _, hrow⟩ := List.exists_of_mem_mapM h hrow
        exact reflectionRow_small hrow
      · rw [List.mem_singleton.mp hrow]
        exact Nat.zero_le _⟩

/-- `GetEnumString`. -/
def Reflection.getEnumString (reflection : Reflection) (enumHandle val : ℕ) : Option String :=
  match reflection.rows[enumHandle]? with
  | none => none
  | some row => (row[val]?).join

theorem Reflection.getEnumString_large (reflection : Reflection) (enumHandle : ℕ) {val : ℕ}
    (h : 256 ≤ val) : reflection.getEnumString enumHandle val = none := by
  unfold Reflection.getEnumString
  split
  · rfl
  · rename_i row hrow
    have hsmall := reflection.small row (List.mem_of_getElem? hrow)
    rw [List.getElem?_eq_none (by omega)]
    rfl

/-! ## What is written -/

section Generator

variable (db : Database)

/-- The handle of an enumeration. -/
def enumHandle (name : String) : Option (Fin (2 ^ 8)) :=
  (enumIndex db name).bind fun index => if index > 256 then none else fit (2 ^ 8) index

/-- `shift`, `width` and `mask` of a bit field. -/
def shiftWidthMask (is64 : Bool) (bitfield : Bitfield) : Option (ℕ × ℤ × ℕ) :=
  match bitfield.low, bitfield.high with
  | some low, some high =>
    let width : ℤ := high - low
    if 63 < width ∨ is64 = false ∧ 31 < width then none
    else
      let mask := if is64 then 0xffffffffffffffff >>> (63 - width).toNat <<< low
        else 0x00000000ffffffff >>> (31 - width).toNat <<< low
      some (low, width, mask)
  | _, _ => bitfield.pos.map fun pos => (pos, 0, 1 <<< pos)

/-- The handle of a bit field. -/
def fieldHandle (type : Option String) : Option (Fin (2 ^ 8)) :=
  match type.filter fun type => !isBuiltInType type with
  | none => some noEnum
  | some type => enumHandle db type

/-- One field that `AppendBitfield` writes. -/
def appendBitfield (is64 : Bool) (bitfield : Bitfield) : Option RegField := do
  let (shift, width, mask) ← shiftWidthMask is64 bitfield
  some {
    type := getTypeEnumString bitfield.type
    enumHandle := ← fieldHandle db bitfield.type
    shift := ← fit (2 ^ 6) shift
    shr := ← fit (2 ^ 5) (bitfield.shr.getD 0 : ℕ)
    gpuVariants := ⟨getGPUVariantsBitField (bitfield.variants.getD ""), getGPUVariantsBitField_lt _⟩
    bitWidth := ← fit (2 ^ 6) width
    radix := ← fit (2 ^ 5) (bitfield.radix.getD 0 : ℕ)
    mask := ← fit (2 ^ 64) mask
    name := bitfield.name }

/-- `GetBitfieldsOrEnumHandleFromBitset`. -/
def getBitfieldsOrEnumHandleFromBitset (domain : Domain) (type : Option String)
    (bitfields : List Bitfield) : Option (List Bitfield × Fin (2 ^ 8)) :=
  match customType type with
  | none => some (bitfields, noEnum)
  | some type =>
    match db.bitset domain type with
    | some bitset => some (bitset.bitfields, noEnum)
    | none =>
      match db.enum type with
      | none => none
      | some _ => (enumHandle db type).map fun handle => ([], handle)

/-- `RegAttributes`. -/
structure RegAttributes where
  name : String
  offset : ℕ
  bitfields : List Bitfield := []
  type : Option String := none
  is64 : Bool := false
  variants : String := ""
  shr : ℕ := 0
  bitWidth : ℤ := 0
  radix : ℕ := 0
  deriving DecidableEq, Repr

/-- The description with these bit fields and this handle. -/
def describe (attributes : RegAttributes) (bitfields : List Bitfield) (handle : Fin (2 ^ 8)) :
    Option RegInfo := do
  some {
    name := attributes.name
    is64Bit := attributes.is64
    type := getTypeEnumString attributes.type
    enumHandle := handle
    shr := ← fit (2 ^ 5) attributes.shr
    bitWidth := ← fit (2 ^ 6) attributes.bitWidth
    radix := ← fit (2 ^ 5) attributes.radix
    fields := ← bitfields.mapM (appendBitfield db attributes.is64) }

/-- The description that `outputSingleRegister` writes. -/
def regInfo (domain : Domain) (attributes : RegAttributes) : Option RegInfo := do
  let (bitfields, handle) ←
    getBitfieldsOrEnumHandleFromBitset db domain attributes.type attributes.bitfields
  describe db attributes bitfields handle

end Generator

end Dive.Adreno
