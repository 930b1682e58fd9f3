import Dive.Adreno.RegInfo
import Dive.Lib.Writes
import Mathlib.Data.Fintype.Defs

/-!
# The generated register tables

* `RegisterPlace`, `places`: the registers of a domain, with each element of each instance of an
  array, in the order in which they are written.
* `RegisterPlace.attributes`, `outputSingleRegister`, `outputRegisterInfo`: what is written for them.
* `RegisterTables`, `getRegInfo`: the tables and the look-up by offset.
-/

namespace Dive.Adreno

/-! ## The registers of a domain -/

/-- A register that is written: one of the domain, an element of an instance of an array, or an
instance of an array without elements. -/
inductive RegisterPlace
  | plain (reg : Register)
  | element (array : RegArray) (i regIdx : ℕ) (reg : Register)
  | single (array : RegArray) (i : ℕ)
  | pair (array : RegArray) (i : ℕ)
  deriving DecidableEq, Repr

/-- What the loop over the instances writes for one. -/
def instancePlaces (array : RegArray) (i : ℕ) : List RegisterPlace :=
  if array.stride = 1 ∧ array.registers = [] then [.single array i]
  else if array.stride = 2 ∧ array.registers = [] then [.pair array i]
  else array.registers.zipIdx.map fun (reg, regIdx) => .element array i regIdx reg

/-- All registers that `outputRegisterInfo` writes. -/
def places (domain : Domain) : List RegisterPlace :=
  domain.registers.map .plain ++
    domain.arrays.flatMap fun array => (List.range array.length).flatMap (instancePlaces array)

/-- `variants` of a child, in `reg_variants`. -/
def ArrayChild.variants : ArrayChild → String
  | .register reg => reg.variants.getD ""
  | .other variants => variants.getD ""

/-- `reg_attributes.variants` of an element: `reg_variants` has an entry for every child. -/
def RegArray.pairedVariants (array : RegArray) (regIdx : ℕ) : String :=
  let variants := ((array.children.map ArrayChild.variants)[regIdx]?).getD ""
  if variants = "" then array.variants.getD "" else variants

/-- `getBitWidth`. -/
def getBitWidth (reg : Register) : ℤ :=
  match reg.low, reg.high with
  | some low, some high => high - low
  | _, _ => 0

/-- The attributes of a register itself. -/
def Register.attributes (reg : Register) (name : String) (offset : ℕ) (variants : String) :
    RegAttributes where
  name := name
  offset := offset
  bitfields := reg.bitfields
  type := reg.type
  is64 := reg.is64
  variants := variants
  shr := reg.shr.getD 0
  bitWidth := getBitWidth reg
  radix := reg.radix.getD 0

/-- `reg_attributes`, as `outputRegisterInfo` sets them. -/
def RegisterPlace.attributes : RegisterPlace → RegAttributes
  | .plain reg => reg.attributes reg.name reg.offset (reg.variants.getD "")
  | .element array i regIdx reg =>
    reg.attributes (array.name ++ toString i ++ "_" ++ reg.name)
      (array.offset + i * array.stride + reg.offset) (array.pairedVariants regIdx)
  | .single array i => { name := array.name ++ toString i, offset := array.offset + i }
  | .pair array i =>
    { name := array.name ++ toString i ++ "_LO", offset := array.offset + i * array.stride
      is64 := true }

/-! ## What is written -/

/-- One register in the generated code: its offset, the bits of its variants, and what is assigned,
under each of these variants or, without any, for all of them. -/
structure RegisterCall (α : Type) where
  offset : ℕ
  variants : ℕ
  entry : α
  deriving DecidableEq, Repr

section

variable (db : Database) (domain : Domain)

/-- `outputSingleRegister`. -/
def outputSingleRegister (attributes : RegAttributes) : Option (RegisterCall RegInfo) :=
  (regInfo db domain attributes).map fun info =>
    ⟨attributes.offset, getGPUVariantsBitField attributes.variants, info⟩

/-- `outputRegisterInfo`. -/
def outputRegisterInfo : Option (List (RegisterCall RegInfo)) :=
  if EnumsDistinct db then
    (places domain).mapM fun place => outputSingleRegister db domain place.attributes
  else none

end

/-- The size of `g_sRegInfo`: the offsets of the registers that stand in no array count. -/
def regInfoSize (domain : Domain) : ℕ := (domain.registers.map (·.offset)).foldl max 0 + 1

/-! ## The tables -/

/-- `kGPUVariantsBits`. -/
def kGPUVariantsBits : ℕ := 7

/-- A key of `g_sRegInfoVariant`, in 32 bits. -/
def variantKey (offset : ℕ) (v : GPUVariant) : ℕ :=
  (offset <<< kGPUVariantsBits ||| 1 <<< v.index) % 2 ^ 32

/-- `g_sRegInfo`, where an entry without a name is not there, and `g_sRegInfoVariant`. -/
structure RegisterTables (α : Type) where
  size : ℕ
  regInfo : ℕ → Option α
  regInfoVariant : ℕ → Option α

section Tables

variable {α β : Type}

/-- The assignments to `g_sRegInfo`. -/
def plainWrites (calls : List (RegisterCall α)) : List (ℕ × α) :=
  (calls.filter (·.variants = 0)).map fun call => (call.offset, call.entry)

/-- The assignments to `g_sRegInfoVariant` for one register. -/
def RegisterCall.variantWrites (call : RegisterCall α) : List (ℕ × α) :=
  (GPUVariant.all.filter fun v => call.variants.testBit v.index).map fun v =>
    (variantKey call.offset v, call.entry)

/-- The assignments to `g_sRegInfoVariant`. -/
def variantWrites (calls : List (RegisterCall α)) : List (ℕ × α) :=
  calls.flatMap RegisterCall.variantWrites

/-- The tables after all assignments. -/
def registerTables (size : ℕ) (calls : List (RegisterCall α)) : RegisterTables α where
  size := size
  regInfo := written (plainWrites calls)
  regInfoVariant := written (variantWrites calls)

/-- `GetRegInfo`: a read past the end of `g_sRegInfo` is `none`, and no key ends in the bits of
`kGPUVariantNone`. -/
def getRegInfo (tables : RegisterTables α) (gpuVariant : Option GPUVariant) (reg : UInt32) :
    Option (Option α) :=
  if reg.toNat < tables.size then
    match tables.regInfo reg.toNat, gpuVariant with
    | some info, _ => some (some info)
    | none, none => some none
    | none, some v => some (tables.regInfoVariant (variantKey reg.toNat v))
  else none

/-- The calls with their numbers in place of what is assigned. -/
def numbered (calls : List (RegisterCall α)) : List (RegisterCall ℕ) :=
  calls.zipIdx.map fun (call, k) => ⟨call.offset, call.variants, k⟩

end Tables

end Dive.Adreno
