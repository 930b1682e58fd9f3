import Dive.Adreno.RegInfo
import Dive.Lib.Signed
import Mathlib.Algebra.Order.Field.Rat
import Mathlib.Data.Rat.Cast.Order
import Mathlib.Tactic.Positivity

/-!
# The values of register fields

* `outputValue`, `addRegisterNode`: what the hierarchy creator shows of a register.
* `Bitfield.meaning`, `FieldFaithful`, `DisplaysFaithfully`: what it should show.
* **`displaysFaithfully_iff`**: it does exactly under `FieldsInRange`, which says of each field that
  the shift of the register moves no bits into or out of it, that no bit is shifted out of a word,
  and what its type needs.
-/

namespace Dive.Adreno

/-! ## What is shown -/

/-- The text of a value. `float` shows the bits of a 32-bit float, `rational` is the value of a
`double`, and `regId n` is component `n % 4` of register `n / 4`. -/
inductive Shown
  | truth (value : Bool)
  | integer (value : ℤ)
  | float (bits : ℕ)
  | rational (value : ℚ)
  | regId (value : ℕ)
  | hex (value : ℕ)
  | name (text : String)
  deriving DecidableEq

/-- `OutputValue`; a shift by 64 is undefined. A double is the exact rational that it is handed to the
stream as, which prints six significant digits of it (`65535 / 16` is printed as `4095.94`). -/
def outputValue (type : ValueType) (value : UInt64) (bitWidth radix : ℕ) : Option Shown :=
  match type with
  | .kBoolean => some (.truth (value ≠ 0))
  | .kUint => some (.integer value.toNat)
  | .kInt => some (.integer value.toUInt32.toBitVec.toInt)
  | .kFloat => some (.float value.toUInt32.toNat)
  | .kFixed =>
    if value &&& (1 <<< UInt64.ofNat bitWidth) ≠ 0 then
      if bitWidth + 1 < 64 then
        some (.rational (((1 <<< UInt64.ofNat (bitWidth + 1)) - value).toNat / 2 ^ radix))
      else none
    else some (.rational (value.toNat / 2 ^ radix))
  | .kUFixed => some (.rational (value.toNat / 2 ^ radix))
  | .kRegID => some (.regId value.toNat)
  | .kAddress | .kWaddress | .kHex | .kOther => some (.hex value.toNat)

section

variable (reflection : Reflection)

/-- The bits that a field reads. -/
def RegField.read (field : RegField) (regValue : UInt64) : UInt64 :=
  (regValue &&& UInt64.ofNat field.mask) >>> UInt64.ofNat field.shift

/-- `field_value`. -/
def RegField.value (field : RegField) (regValue : UInt64) : UInt64 :=
  field.read regValue <<< UInt64.ofNat field.shr

/-- The text of a field. -/
def showField (field : RegField) (regValue : UInt64) : Option Shown :=
  if field.enumHandle ≠ noEnum then
    match reflection.getEnumString field.enumHandle (field.value regValue).toUInt32.toNat with
    | some enumStr => some (.name enumStr)
    | none => outputValue field.type (field.value regValue) 0 0
  else outputValue field.type (field.value regValue) field.bitWidth field.radix

/-- The text of a register; a null pointer is not shown. -/
def showRegister (regInfo : RegInfo) (regValue : UInt64) : Option Shown :=
  if regInfo.enumHandle ≠ noEnum then
    (reflection.getEnumString regInfo.enumHandle regValue.toUInt32.toNat).map .name
  else outputValue regInfo.type regValue regInfo.bitWidth regInfo.radix

/-- `AddRegisterNode`: the text of the register and those of its fields. -/
def addRegisterNode (regInfo : RegInfo) (regValue : UInt64) : Option Shown × List (Option Shown) :=
  let regValue := regValue <<< UInt64.ofNat regInfo.shr
  (showRegister reflection regInfo regValue,
    regInfo.fields.map fun field => showField reflection field regValue)

end

/-! ## What should be shown -/

section Meaning

/-- The first and the last bit of a field. -/
def Bitfield.range (bitfield : Bitfield) : ℕ × ℕ :=
  match bitfield.low, bitfield.high with
  | some low, some high => (low, high)
  | _, _ => (bitfield.pos.getD 0, bitfield.pos.getD 0)

/-- The number of bits less one. -/
def Bitfield.width (bitfield : Bitfield) : ℕ := bitfield.range.2 - bitfield.range.1

/-- The bits of a field in a register value. -/
def Bitfield.bits (bitfield : Bitfield) (raw : ℕ) : ℕ :=
  raw / 2 ^ bitfield.range.1 % 2 ^ (bitfield.width + 1)

/-- The left shift that gives the value back. -/
def Bitfield.leftShift (bitfield : Bitfield) : ℕ := bitfield.shr.getD 0

/-- The number in the bits `n` of a field, without its radix and before its sign is looked at. -/
def Bitfield.number (bitfield : Bitfield) (raw : ℕ) : ℕ :=
  bitfield.bits raw * 2 ^ bitfield.leftShift

/-- The bits of a field as two's complement. -/
def Bitfield.signed (bitfield : Bitfield) (raw : ℕ) : ℤ :=
  signedValue (bitfield.width + 1) (bitfield.bits raw)

/-- The value of a field that is not enumerated. -/
def Bitfield.plainMeaning (bitfield : Bitfield) (raw : ℕ) : Shown :=
  let radix := bitfield.radix.getD 0
  match getTypeEnumString bitfield.type with
  | .kBoolean => .truth (bitfield.number raw ≠ 0)
  | .kUint => .integer (bitfield.number raw)
  | .kInt => .integer (bitfield.signed raw * 2 ^ bitfield.leftShift)
  | .kFloat => .float (bitfield.number raw)
  | .kFixed => .rational (bitfield.signed raw * 2 ^ bitfield.leftShift / 2 ^ radix)
  | .kUFixed => .rational (bitfield.number raw / 2 ^ radix)
  | .kRegID => .regId (bitfield.number raw)
  | .kAddress | .kWaddress | .kHex | .kOther => .hex (bitfield.number raw)

variable (db : Database) (reflection : Reflection)

/-- The enumeration of a field. -/
def Bitfield.enum (bitfield : Bitfield) : Option ℕ :=
  (bitfield.type.filter fun type => !isBuiltInType type).bind (enumIndex db)

/-- A named number shows its name, another one itself. -/
def enumMeaning (index number : ℕ) : Shown :=
  match reflection.getEnumString index number with
  | some text => .name text
  | none => .hex number

/-- What should be shown of a field. -/
def Bitfield.meaning (bitfield : Bitfield) (raw : ℕ) : Shown :=
  match bitfield.enum db with
  | some index => enumMeaning reflection index (bitfield.number raw)
  | none => bitfield.plainMeaning raw

/-- The bit fields that are written for a register: its own, or those of its bitset. -/
def writtenBitfields (domain : Domain) (attributes : RegAttributes) : List Bitfield :=
  ((getBitfieldsOrEnumHandleFromBitset db domain attributes.type attributes.bitfields).map
    Prod.fst).getD []

/-- The enumeration of a register. -/
def registerEnum (domain : Domain) (attributes : RegAttributes) : Option ℕ :=
  match customType attributes.type with
  | none => none
  | some type =>
    match db.bitset domain type with
    | some _ => none
    | none => enumIndex db type

/-- **A register is shown as it should be**: its fields read their own bits and show their values,
and if it is enumerated it shows a name or a number. -/
structure DisplaysFaithfully (domain : Domain) (attributes : RegAttributes) (info : RegInfo)
    (raw : UInt64) : Prop where
  reads : List.Forall₂
    (fun bitfield field =>
      (field.read (raw <<< UInt64.ofNat info.shr)).toNat = bitfield.bits raw.toNat)
    (writtenBitfields db domain attributes) info.fields
  fields : List.Forall₂
    (fun bitfield shown => shown = some (bitfield.meaning db reflection raw.toNat))
    (writtenBitfields db domain attributes) (addRegisterNode reflection info raw).2
  register : ∀ index, registerEnum db domain attributes = some index →
    (addRegisterNode reflection info raw).1 =
      some (enumMeaning reflection index (raw.toNat * 2 ^ attributes.shr))

end Meaning

/-! ## When it is shown -/

section InRange

/-- The bits of a field, and those that the shift of the register brings there, are the same. -/
def Bitfield.Unmoved (bitfield : Bitfield) (shr raw : ℕ) : Prop :=
  ∀ i, bitfield.range.1 ≤ i → i ≤ bitfield.range.2 →
    raw.testBit i = (decide (shr ≤ i) && raw.testBit (i - shr))

/-- A field that is not enumerated is in the range of what its type can show. -/
def Bitfield.PlainInRange (bitfield : Bitfield) (raw : ℕ) : Prop :=
  match getTypeEnumString bitfield.type with
  | .kBoolean => bitfield.number raw = 0 ∨ ¬ 2 ^ 64 ∣ bitfield.number raw
  -- the 32 bits that are printed as a signed number
  | .kInt =>
    (-2 ^ 31 ≤ bitfield.signed raw * 2 ^ bitfield.leftShift ∧
      bitfield.signed raw * 2 ^ bitfield.leftShift < 2 ^ 31) ∧
      (0 ≤ bitfield.signed raw ∨ 31 ≤ bitfield.width + bitfield.leftShift)
  | .kFloat => bitfield.number raw < 2 ^ 32
  -- a sign bit is looked for in the shifted number, and the minus sign is lost
  | .kFixed =>
    0 ≤ bitfield.signed raw ∧ bitfield.number raw < 2 ^ 64 ∧
      ((bitfield.number raw).testBit bitfield.width = false ∨ bitfield.width < 63 ∧
        (bitfield.number raw = 2 ^ bitfield.width ∨
          bitfield.number raw = 2 ^ bitfield.width + 2 ^ 63))
  | _ => bitfield.number raw < 2 ^ 64

instance (bitfield : Bitfield) (raw : ℕ) : Decidable (bitfield.PlainInRange raw) := by
  unfold Bitfield.PlainInRange
  split <;> infer_instance

theorem Bitfield.unmoved_zero (bitfield : Bitfield) (raw : ℕ) : bitfield.Unmoved 0 raw := by
  intro i _ _
  simp

variable (db : Database) (reflection : Reflection)

/-- An enumerated number is looked up by its lower 32 bits; enumeration 255 is taken for none. -/
def EnumInRange (index number : ℕ) : Prop :=
  if index = 255 then reflection.getEnumString index number = none ∧ number < 2 ^ 64
  else number < 2 ^ 32 ∨
    number < 2 ^ 64 ∧ reflection.getEnumString index (number % 2 ^ 32) = none

/-- A field of a register that is shifted by `shr`. -/
structure FieldInRange (bitfield : Bitfield) (shr raw : ℕ) : Prop where
  unmoved : bitfield.Unmoved shr raw
  value : match bitfield.enum db with
    | some index => EnumInRange reflection index (bitfield.number raw)
    | none => bitfield.PlainInRange raw

/-- An enumerated register has a name; only enumeration 255 shows numbers. -/
def RegisterInRange (index number : ℕ) : Prop :=
  if index = 255 then reflection.getEnumString index number = none ∧ number < 2 ^ 64
  else (reflection.getEnumString index number).isSome

/-- All of a register is in range. -/
structure FieldsInRange (domain : Domain) (attributes : RegAttributes) (raw : ℕ) : Prop where
  fields : ∀ bitfield ∈ writtenBitfields db domain attributes,
    FieldInRange db reflection bitfield attributes.shr raw
  register : ∀ index, registerEnum db domain attributes = some index →
    RegisterInRange reflection index (raw * 2 ^ attributes.shr)

end InRange

/-! ## What the generator writes -/

/-- A description with the numbers of a bit field. -/
structure Encodes (db : Database) (bitfield : Bitfield) (field : RegField) : Prop where
  low_le : bitfield.range.1 ≤ bitfield.range.2
  high_lt : bitfield.range.2 < 64
  type : field.type = getTypeEnumString bitfield.type
  handle : match bitfield.enum db with
    | none => field.enumHandle = noEnum
    | some index => (field.enumHandle : ℕ) = index
  custom : (bitfield.enum db).isSome → getTypeEnumString bitfield.type = .kOther
  shift : (field.shift : ℕ) = bitfield.range.1
  bitWidth : (field.bitWidth : ℕ) = bitfield.width
  mask : (field.mask : ℕ) = (2 ^ (bitfield.width + 1) - 1) <<< bitfield.range.1
  shr : (field.shr : ℕ) = bitfield.leftShift
  radix : (field.radix : ℕ) = bitfield.radix.getD 0

theorem getTypeEnumString_custom {type : String} (h : isBuiltInType type = false) :
    getTypeEnumString (some type) = .kOther := by
  unfold getTypeEnumString
  split <;> first | rfl | (rename_i heq; cases heq; exact absurd h (by decide))

theorem lt_of_ones_lt {low width : ℕ} (h : (2 ^ (width + 1) - 1) <<< low < 2 ^ 64) :
    low + width < 64 := by
  have hle : 2 ^ width ≤ 2 ^ (width + 1) - 1 := by
    have := Nat.two_pow_pos width
    rw [Nat.pow_succ]
    omega
  have hpow : 2 ^ (low + width) ≤ (2 ^ (width + 1) - 1) <<< low := by
    rw [Nat.shiftLeft_eq, Nat.pow_add, Nat.mul_comm]
    exact Nat.mul_le_mul_right _ hle
  exact (Nat.pow_lt_pow_iff_right (by decide)).mp (hpow.trans_lt h)

theorem shiftWidthMask_pos {bitfield : Bitfield} {pos : ℕ}
    (hpos : bitfield.pos = some pos) (hmask : 1 <<< pos < 2 ^ 64)
    (hrange : bitfield.range = (bitfield.pos.getD 0, bitfield.pos.getD 0)) :
    bitfield.range.1 ≤ bitfield.range.2 ∧ bitfield.range.2 < 64 ∧ pos = bitfield.range.1 ∧
      (0 : ℤ) = (bitfield.width : ℕ) ∧
      1 <<< pos = (2 ^ (bitfield.width + 1) - 1) <<< bitfield.range.1 := by
  rw [hpos, Option.getD_some] at hrange
  have hwidth : bitfield.width = 0 := by
    rw [Bitfield.width, hrange, Nat.sub_self]
  rw [hwidth, hrange]
  refine ⟨le_refl _, ?_, rfl, rfl, rfl⟩
  have := @lt_of_ones_lt pos 0 hmask
  omega

theorem shiftWidthMask_spec {is64 : Bool} {bitfield : Bitfield} {shift mask : ℕ} {width : ℤ}
    (h : shiftWidthMask is64 bitfield = some (shift, width, mask)) (hwidth : 0 ≤ width)
    (hmask : mask < 2 ^ 64) :
    bitfield.range.1 ≤ bitfield.range.2 ∧ bitfield.range.2 < 64 ∧ shift = bitfield.range.1 ∧
      width = (bitfield.width : ℕ) ∧
      mask = (2 ^ (bitfield.width + 1) - 1) <<< bitfield.range.1 := by
  unfold shiftWidthMask at h
  split at h
  · rename_i low high hlow hhigh
    have hrange : bitfield.range = (low, high) := by
      rw [Bitfield.range, hlow, hhigh]
    dsimp only at h
    by_cases hfits : 63 < (high : ℤ) - low ∨ is64 = false ∧ 31 < (high : ℤ) - low
    · rw [if_pos hfits] at h
      cases h
    · rw [if_neg hfits, Option.some_inj, Prod.mk.injEq, Prod.mk.injEq] at h
      rw [not_or, not_and, not_lt] at hfits
      obtain ⟨rfl, rfl, rfl⟩ := h
      have hle : low ≤ high := by omega
      have hw : bitfield.width = high - low := by rw [Bitfield.width, hrange]
      have hones : (if is64 then 0xffffffffffffffff >>> (63 - ((high : ℤ) - low)).toNat <<< low
          else 0x00000000ffffffff >>> (31 - ((high : ℤ) - low)).toNat <<< low) =
          (2 ^ (high - low + 1) - 1) <<< low := by
        cases is64 with
        | true =>
          rw [if_pos rfl, ← Nat.ones_shiftRight (by omega : high - low + 1 ≤ 64),
            show (63 - ((high : ℤ) - low)).toNat = 64 - (high - low + 1) by omega]
          rfl
        | false =>
          have hshort := not_lt.mp (hfits.2 rfl)
          rw [if_neg (by decide), ← Nat.ones_shiftRight (by omega : high - low + 1 ≤ 32),
            show (31 - ((high : ℤ) - low)).toNat = 32 - (high - low + 1) by omega]
          rfl
      have hlt := lt_of_ones_lt (hones ▸ hmask)
      rw [hw, hrange]
      refine ⟨hle, by show high < 64; omega, rfl, by omega, hones⟩
  · rename_i hnone
    have hrange : bitfield.range = (bitfield.pos.getD 0, bitfield.pos.getD 0) := by
      unfold Bitfield.range
      split
      · exact absurd ‹_› (hnone _ _ ‹_›)
      · rfl
    obtain ⟨pos, hpos, hp⟩ := Option.map_eq_some_iff.mp h
    obtain ⟨rfl, rfl, rfl⟩ : pos = shift ∧ (0 : ℤ) = width ∧ 1 <<< pos = mask := by
      simpa only [Prod.mk.injEq] using hp
    exact shiftWidthMask_pos hpos hmask hrange

/-- **A field that is written has the numbers of its bit field.** -/
theorem encodes_of_appendBitfield {db : Database} {is64 : Bool} {bitfield : Bitfield}
    {field : RegField} (h : appendBitfield db is64 bitfield = some field) :
    Encodes db bitfield field := by
  unfold appendBitfield at h
  simp only [Option.bind_eq_bind, Option.bind_eq_some_iff, Option.some_inj] at h
  obtain ⟨⟨shift, width, mask⟩, hswm, handle, hhandle, kshift, hshift, kshr, hshr, kwidth, hkwidth,
    kradix, hradix, kmask, hmask, rfl⟩ := h
  rw [fit_eq_some_iff] at hshift hshr hkwidth hradix hmask
  have hlt : mask < 2 ^ 64 := by
    have := kmask.isLt
    dsimp only at hmask
    omega
  obtain ⟨hle, hhigh, hlow, hwidth, hones⟩ :=
    shiftWidthMask_spec hswm (by dsimp only at hkwidth; omega) hlt
  dsimp only at hshift hkwidth hmask
  refine ⟨hle, hhigh, rfl, ?_, ?_, by dsimp only; omega, by dsimp only; omega,
    by dsimp only; omega, by dsimp only [Bitfield.leftShift]; omega, by dsimp only; omega⟩
  · unfold fieldHandle at hhandle
    unfold Bitfield.enum
    cases hcustom : bitfield.type.filter fun type => !isBuiltInType type with
    | none =>
      rw [hcustom] at hhandle
      exact (Option.some_inj.mp hhandle).symm
    | some type =>
      rw [hcustom] at hhandle
      obtain ⟨index, hindex, hfit⟩ := Option.bind_eq_some_iff.mp hhandle
      dsimp only
      rw [Option.bind_some, hindex]
      split at hfit
      · cases hfit
      · have := fit_eq_some_iff.mp hfit
        dsimp only
        omega
  · intro henum
    unfold Bitfield.enum at henum
    cases hcustom : bitfield.type.filter fun type => !isBuiltInType type with
    | none =>
      rw [hcustom] at henum
      cases henum
    | some type =>
      obtain ⟨htype, hbuilt⟩ := Option.filter_eq_some_iff.mp hcustom
      rw [htype]
      exact getTypeEnumString_custom (by simpa using hbuilt)

/-! ## The value in a field -/

section Value

variable {db : Database} {bitfield : Bitfield} {field : RegField}

theorem Encodes.toNat_read (h : Encodes db bitfield field) (regValue : UInt64) :
    (field.read regValue).toNat = bitfield.bits regValue.toNat := by
  have hshift : (UInt64.ofNat field.shift).toNat % 64 = bitfield.range.1 := by
    have := field.shift.isLt
    rw [UInt64.toNat_ofNat', h.shift] at *
    omega
  have hmask : (UInt64.ofNat field.mask).toNat = field.mask := by
    rw [UInt64.toNat_ofNat', Nat.mod_eq_of_lt field.mask.isLt]
  rw [RegField.read, UInt64.toNat_shiftRight, UInt64.toNat_and, hshift, hmask, h.mask,
    Nat.and_ones_shiftRight]
  rfl

theorem Encodes.toNat_value (h : Encodes db bitfield field) {regValue : UInt64} {raw : ℕ}
    (hread : (field.read regValue).toNat = bitfield.bits raw) :
    (field.value regValue).toNat = bitfield.number raw % 2 ^ 64 := by
  have hshr : (UInt64.ofNat field.shr).toNat % 64 = bitfield.leftShift := by
    have := field.shr.isLt
    rw [UInt64.toNat_ofNat', h.shr] at *
    omega
  rw [RegField.value, UInt64.toNat_shiftLeft, hshr, hread, Nat.shiftLeft_eq]
  rfl

theorem Bitfield.bits_lt (bitfield : Bitfield) (raw : ℕ) :
    bitfield.bits raw < 2 ^ (bitfield.width + 1) :=
  Nat.mod_lt _ (Nat.two_pow_pos _)

theorem Bitfield.testBit_bits (bitfield : Bitfield) (raw j : ℕ) :
    (bitfield.bits raw).testBit j =
      (decide (j < bitfield.width + 1) && raw.testBit (bitfield.range.1 + j)) := by
  rw [Bitfield.bits, Nat.testBit_mod_two_pow, Nat.testBit_div_two_pow,
    Nat.add_comm bitfield.range.1]

theorem Encodes.reads_iff (h : Encodes db bitfield field) {shr : ℕ} (hshr : shr < 64)
    (raw : UInt64) :
    (field.read (raw <<< UInt64.ofNat shr)).toNat = bitfield.bits raw.toNat ↔
      bitfield.Unmoved shr raw.toNat := by
  have hs : (UInt64.ofNat shr).toNat % 64 = shr := by
    rw [UInt64.toNat_ofNat']
    omega
  have hbit : ∀ i < 64, (raw <<< UInt64.ofNat shr).toNat.testBit i =
      (decide (shr ≤ i) && raw.toNat.testBit (i - shr)) := by
    intro i hi
    rw [UInt64.toNat_shiftLeft, hs, Nat.testBit_mod_two_pow, Nat.testBit_shiftLeft,
      decide_eq_true hi, Bool.true_and]
  have hrange : bitfield.range.1 + bitfield.width = bitfield.range.2 :=
    Nat.add_sub_cancel' h.low_le
  have hlt := h.high_lt
  rw [h.toNat_read]
  constructor
  · intro heq i hlow hhigh
    have hi := congrArg (Nat.testBit · (i - bitfield.range.1)) heq
    rw [bitfield.testBit_bits, bitfield.testBit_bits, decide_eq_true (by omega), Bool.true_and,
      Bool.true_and, Nat.add_sub_cancel' hlow, hbit i (by omega)] at hi
    exact hi.symm
  · intro hunmoved
    apply Nat.eq_of_testBit_eq
    intro j
    rw [bitfield.testBit_bits, bitfield.testBit_bits]
    by_cases hj : j < bitfield.width + 1
    · rw [hbit _ (by omega), hunmoved (bitfield.range.1 + j) (by omega) (by omega)]
    · rw [decide_eq_false hj, Bool.false_and, Bool.false_and]

end Value

/-! ## Texts of values -/

section Texts

variable {value : UInt64} {number : ℕ}

theorem cut_eq_iff (hv : value.toNat = number % 2 ^ 64) :
    value.toNat = number ↔ number < 2 ^ 64 := by
  omega

theorem hex_iff (hv : value.toNat = number % 2 ^ 64) :
    some (Shown.hex value.toNat) = some (.hex number) ↔ number < 2 ^ 64 := by
  rw [Option.some_inj, Shown.hex.injEq, cut_eq_iff hv]

theorem shiftLeft_one_eq {width : ℕ} (h : width < 64) :
    ((1 : UInt64) <<< UInt64.ofNat width).toNat = 2 ^ width := by
  have hw : (UInt64.ofNat width).toNat % 64 = width := by
    rw [UInt64.toNat_ofNat']
    omega
  rw [UInt64.toNat_shiftLeft, hw]
  show 1 <<< width % 2 ^ 64 = 2 ^ width
  rw [Nat.one_shiftLeft, Nat.mod_eq_of_lt (Nat.pow_lt_pow_right (by decide) h)]

theorem and_shiftLeft_one_ne_zero_iff {width : ℕ} (h : width < 64) :
    value &&& (1 <<< UInt64.ofNat width) ≠ 0 ↔ value.toNat.testBit width = true := by
  rw [ne_eq, ← UInt64.toNat_inj, UInt64.toNat_and, shiftLeft_one_eq h]
  rw [Nat.and_two_pow]
  cases value.toNat.testBit width with
  | false => simp
  | true => simp

theorem rational_inj {a b : ℤ} {radix : ℕ} :
    some (Shown.rational (a / 2 ^ radix)) = some (.rational (b / 2 ^ radix)) ↔ a = b := by
  have hpos : (2 : ℚ) ^ radix ≠ 0 := pow_ne_zero _ (by decide)
  rw [Option.some_inj, Shown.rational.injEq, div_left_inj' hpos, Int.cast_inj]

theorem toNat_negated {width : ℕ} (h : width + 1 < 64) :
    ((1 <<< UInt64.ofNat (width + 1)) - value).toNat =
      (2 ^ 64 - value.toNat + 2 ^ (width + 1)) % 2 ^ 64 := by
  rw [UInt64.toNat_sub, shiftLeft_one_eq h]

theorem outputValue_fixed {width : ℕ} (hw : width < 64) (radix : ℕ) (z : ℤ) :
    outputValue .kFixed value width radix = some (.rational (z / 2 ^ radix)) ↔
      if value.toNat.testBit width then
        width < 63 ∧ (((2 ^ 64 - value.toNat + 2 ^ (width + 1)) % 2 ^ 64 : ℕ) : ℤ) = z
      else (value.toNat : ℤ) = z := by
  unfold outputValue
  dsimp only
  by_cases hbit : value.toNat.testBit width = true
  · rw [if_pos ((and_shiftLeft_one_ne_zero_iff hw).mpr hbit), if_pos hbit]
    by_cases hwidth : width + 1 < 64
    · rw [if_pos hwidth, toNat_negated hwidth, ← Int.cast_natCast, rational_inj,
        and_iff_right (by omega)]
    · rw [if_neg hwidth]
      exact iff_of_false (by simp) (fun h => hwidth (by omega))
  · rw [if_neg fun h => hbit ((and_shiftLeft_one_ne_zero_iff hw).mp h), if_neg hbit,
      ← Int.cast_natCast, rational_inj]

/-- **A signed fixed-point field.** -/
theorem outputValue_fixed_iff {width radix n shr : ℕ} (hw : width < 64)
    (hv : value.toNat = n * 2 ^ shr % 2 ^ 64) (hn : n < 2 ^ (width + 1)) :
    outputValue .kFixed value width radix =
        some (.rational (signedValue (width + 1) n * 2 ^ shr / 2 ^ radix)) ↔
      0 ≤ signedValue (width + 1) n ∧ n * 2 ^ shr < 2 ^ 64 ∧
        ((n * 2 ^ shr).testBit width = false ∨
          width < 63 ∧ (n * 2 ^ shr = 2 ^ width ∨ n * 2 ^ shr = 2 ^ width + 2 ^ 63)) := by
  have hcast : ((signedValue (width + 1) n : ℤ) : ℚ) * 2 ^ shr =
      ((signedValue (width + 1) n * 2 ^ shr : ℤ) : ℚ) := by
    push_cast
    rfl
  rw [hcast, outputValue_fixed hw]
  have hpos : (0 : ℤ) < 2 ^ shr := by positivity
  by_cases hx : 0 ≤ signedValue (width + 1) n
  · rw [and_iff_right hx, signedValue_of_lt ((signedValue_nonneg_iff hn).mp hx), hv]
    generalize hm : n * 2 ^ shr = m
    have hz : (n : ℤ) * 2 ^ shr = m := by
      rw [← hm]
      push_cast
      rfl
    rw [hz]
    by_cases hlt : m < 2 ^ 64
    · rw [and_iff_right hlt, Nat.mod_eq_of_lt hlt]
      cases hbit : m.testBit width with
      | false => simp
      | true =>
        have hge : 2 ^ width ≤ m := Nat.ge_two_pow_of_testBit hbit
        rw [if_pos rfl, Nat.pow_succ]
        have hwidth : width < 63 → 2 ^ width ≤ 2 ^ 62 := fun h =>
          Nat.pow_le_pow_right (by decide) (by omega)
        constructor
        · rintro ⟨h63, heq⟩
          have := hwidth h63
          exact .inr ⟨h63, by omega⟩
        · rintro (h | ⟨h63, heq⟩)
          · cases h
          · have := hwidth h63
            exact ⟨h63, by omega⟩
    · have hcut : m % 2 ^ 64 < 2 ^ 64 := Nat.mod_lt _ (by decide)
      refine iff_of_false ?_ (fun h => hlt h.1)
      split_ifs with hbit
      · rintro ⟨_, heq⟩
        omega
      · omega
  · refine iff_of_false ?_ (fun h => hx h.1)
    have hneg : signedValue (width + 1) n * 2 ^ shr < 0 :=
      mul_neg_of_neg_of_pos (not_le.mp hx) hpos
    split_ifs with hbit
    · rintro ⟨_, heq⟩
      omega
    · omega

/-- **A signed number**, of which the lower 32 bits are printed. -/
theorem outputValue_int_iff {width n shr : ℕ} (bitWidth radix : ℕ)
    (hv : value.toNat = n * 2 ^ shr % 2 ^ 64) (hn : n < 2 ^ (width + 1)) :
    outputValue .kInt value bitWidth radix =
        some (.integer (signedValue (width + 1) n * 2 ^ shr)) ↔
      (-2 ^ 31 ≤ signedValue (width + 1) n * 2 ^ shr ∧
        signedValue (width + 1) n * 2 ^ shr < 2 ^ 31) ∧
        (0 ≤ signedValue (width + 1) n ∨ 31 ≤ width + shr) := by
  have hprinted : value.toUInt32.toBitVec.toInt = signedValue (31 + 1) (n * 2 ^ shr % 2 ^ 64) := by
    rw [BitVec.toInt_eq_toNat_bmod, signedValue, ← hv]
    show Int.bmod ((value.toUInt32.toNat : ℕ) : ℤ) (2 ^ 32) = _
    rw [UInt64.toNat_toUInt32, Int.natCast_emod]
    exact Int.emod_bmod _ (2 ^ 32)
  rw [outputValue, Option.some_inj, Shown.integer.injEq, hprinted]
  exact truncate_eq_signedValue_iff (by decide) hn

end Texts

/-! ## Fields -/

section Fields

variable {db : Database} {reflection : Reflection} {bitfield : Bitfield} {field : RegField}
  {regValue : UInt64} {raw : ℕ}

theorem Encodes.plain_iff (h : Encodes db bitfield field)
    (hv : (field.value regValue).toNat = bitfield.number raw % 2 ^ 64) :
    outputValue field.type (field.value regValue) field.bitWidth field.radix =
        some (bitfield.plainMeaning raw) ↔
      bitfield.PlainInRange raw := by
  have hwidth : bitfield.width < 64 := by
    rw [← h.bitWidth]
    exact field.bitWidth.isLt
  have hn := bitfield.bits_lt raw
  rw [h.type, h.bitWidth, h.radix]
  unfold Bitfield.plainMeaning Bitfield.PlainInRange
  cases getTypeEnumString bitfield.type with
  | kBoolean =>
    dsimp only [outputValue]
    rw [Option.some_inj, Shown.truth.injEq, decide_eq_decide, ne_eq, ne_eq, not_iff_not,
      ← UInt64.toNat_inj, hv]
    rw [UInt64.toNat_zero]
    omega
  | kUint =>
    dsimp only [outputValue]
    rw [Option.some_inj, Shown.integer.injEq, Int.natCast_inj, cut_eq_iff hv]
  | kInt => exact outputValue_int_iff _ _ hv hn
  | kFloat =>
    dsimp only [outputValue]
    rw [Option.some_inj, Shown.float.injEq, UInt64.toNat_toUInt32, hv]
    omega
  | kFixed => exact outputValue_fixed_iff hwidth hv hn
  | kUFixed =>
    dsimp only [outputValue]
    rw [← Int.cast_natCast, ← Int.cast_natCast (bitfield.number raw), rational_inj,
      Int.natCast_inj, cut_eq_iff hv]
  | kRegID =>
    dsimp only [outputValue]
    rw [Option.some_inj, Shown.regId.injEq, cut_eq_iff hv]
  | kAddress => exact hex_iff hv
  | kWaddress => exact hex_iff hv
  | kHex => exact hex_iff hv
  | kOther => exact hex_iff hv

theorem number_iff {index : ℕ} (hv : regValue.toNat = raw % 2 ^ 64) :
    some (Shown.hex regValue.toNat) = some (enumMeaning reflection index raw) ↔
      reflection.getEnumString index raw = none ∧ raw < 2 ^ 64 := by
  unfold enumMeaning
  cases reflection.getEnumString index raw with
  | none => simpa using hex_iff hv
  | some text => simp

theorem enumMeaning_iff {index : ℕ} (hindex : index ≠ 255)
    (hv : (regValue.toNat = raw % 2 ^ 64)) :
    (match reflection.getEnumString index regValue.toUInt32.toNat with
      | some enumStr => some (Shown.name enumStr)
      | none => some (.hex regValue.toNat)) = some (enumMeaning reflection index raw) ↔
      EnumInRange reflection index raw := by
  have hcut : regValue.toUInt32.toNat = raw % 2 ^ 32 := by
    rw [UInt64.toNat_toUInt32, hv]
    omega
  rw [EnumInRange, if_neg hindex, hcut, enumMeaning]
  by_cases hsmall : raw < 2 ^ 32
  · rw [Nat.mod_eq_of_lt hsmall, or_iff_left_of_imp fun _ => hsmall]
    refine iff_of_true ?_ hsmall
    have : regValue.toNat = raw := by omega
    cases reflection.getEnumString index raw with
    | none => rw [this]
    | some text => rfl
  · rw [reflection.getEnumString_large index (by omega : 256 ≤ raw), or_iff_right hsmall]
    cases reflection.getEnumString index (raw % 2 ^ 32) with
    | none => simpa using hex_iff hv
    | some text => simp

theorem registerName_iff {index : ℕ} (hv : regValue.toNat = raw % 2 ^ 64) :
    (reflection.getEnumString index regValue.toUInt32.toNat).map Shown.name =
        some (enumMeaning reflection index raw) ↔
      (reflection.getEnumString index raw).isSome := by
  unfold enumMeaning
  cases hname : reflection.getEnumString index raw with
  | none => simp
  | some text =>
    have hsmall : raw < 256 := by
      by_contra hlarge
      rw [reflection.getEnumString_large index (not_lt.mp hlarge)] at hname
      cases hname
    have hcut : regValue.toUInt32.toNat = raw := by
      rw [UInt64.toNat_toUInt32, hv]
      omega
    simp [hcut, hname]

/-- **A field is shown as it should be** exactly if it is in range. -/
theorem Encodes.faithful_iff (h : Encodes db bitfield field) {shr : ℕ} (hshr : shr < 64)
    (raw : UInt64) :
    (field.read (raw <<< UInt64.ofNat shr)).toNat = bitfield.bits raw.toNat ∧
        showField reflection field (raw <<< UInt64.ofNat shr) =
          some (bitfield.meaning db reflection raw.toNat) ↔
      FieldInRange db reflection bitfield shr raw.toNat := by
  have hvalue : bitfield.Unmoved shr raw.toNat →
      (showField reflection field (raw <<< UInt64.ofNat shr) =
          some (bitfield.meaning db reflection raw.toNat) ↔
        match bitfield.enum db with
        | some index => EnumInRange reflection index (bitfield.number raw.toNat)
        | none => bitfield.PlainInRange raw.toNat) := by
    intro hunmoved
    have hv := h.toNat_value ((h.reads_iff hshr raw).mpr hunmoved)
    have hhandle := h.handle
    have hcustom := h.custom
    unfold showField Bitfield.meaning
    cases henum : bitfield.enum db with
    | none =>
      rw [henum] at hhandle
      rw [if_neg (not_not.mpr hhandle)]
      exact h.plain_iff hv
    | some index =>
      rw [henum] at hhandle hcustom
      dsimp only at hhandle ⊢
      have htype : field.type = .kOther := h.type.trans (hcustom rfl)
      rw [htype]
      by_cases hindex : index = 255
      · have hno : field.enumHandle = noEnum := Fin.ext (by rw [hhandle, hindex]; rfl)
        rw [if_neg (not_not.mpr hno), EnumInRange, if_pos hindex]
        exact number_iff hv
      · have hsome : field.enumHandle ≠ noEnum := by
          intro hno
          exact hindex (by rw [← hhandle, hno]; rfl)
        rw [if_pos hsome, hhandle]
        exact enumMeaning_iff hindex hv
  constructor
  · rintro ⟨hread, hshown⟩
    have hunmoved := (h.reads_iff hshr raw).mp hread
    exact ⟨hunmoved, (hvalue hunmoved).mp hshown⟩
  · intro hrange
    exact ⟨(h.reads_iff hshr raw).mpr hrange.unmoved, (hvalue hrange.unmoved).mpr hrange.value⟩

end Fields

/-! ## Registers -/

section Registers

variable {db : Database} {reflection : Reflection} {domain : Domain} {attributes : RegAttributes}
  {info : RegInfo}

theorem regInfo_spec (h : regInfo db domain attributes = some info) :
    (info.shr : ℕ) = attributes.shr ∧ info.type = getTypeEnumString attributes.type ∧
      (writtenBitfields db domain attributes).mapM (appendBitfield db attributes.is64) =
        some info.fields ∧
      getBitfieldsOrEnumHandleFromBitset db domain attributes.type attributes.bitfields =
        some (writtenBitfields db domain attributes, info.enumHandle) := by
  unfold regInfo describe at h
  simp only [Option.bind_eq_bind, Option.bind_eq_some_iff, Option.some_inj] at h
  obtain ⟨⟨bitfields, handle⟩, hget, kshr, hshr, kwidth, hwidth, kradix, hradix, fields, hfields,
    rfl⟩ := h
  have hwritten : writtenBitfields db domain attributes = bitfields := by
    rw [writtenBitfields, hget]
    rfl
  rw [fit_eq_some_iff] at hshr
  rw [hwritten]
  exact ⟨by dsimp only; omega, rfl, hfields, hget⟩

theorem regInfo_handle (h : regInfo db domain attributes = some info) :
    match registerEnum db domain attributes with
    | none => info.enumHandle = noEnum
    | some index => (info.enumHandle : ℕ) = index ∧ info.type = .kOther := by
  obtain ⟨_, htype, _, hget⟩ := regInfo_spec h
  unfold getBitfieldsOrEnumHandleFromBitset at hget
  unfold registerEnum
  cases hcustom : customType attributes.type with
  | none =>
    rw [hcustom, Option.some_inj, Prod.mk.injEq] at hget
    exact hget.2.symm
  | some type =>
    rw [hcustom] at hget
    dsimp only at hget
    cases hbitset : db.bitset domain type with
    | some bitset =>
      rw [hbitset, Option.some_inj, Prod.mk.injEq] at hget
      dsimp only
      rw [hbitset]
      exact hget.2.symm
    | none =>
      rw [hbitset] at hget
      dsimp only at hget ⊢
      rw [hbitset]
      cases henum : db.enum type with
      | none =>
        rw [henum] at hget
        cases hget
      | some _ =>
        rw [henum] at hget
        obtain ⟨handle, hhandle, hpair⟩ := Option.map_eq_some_iff.mp hget
        rw [Prod.mk.injEq] at hpair
        obtain ⟨index, hindex, hfit⟩ := Option.bind_eq_some_iff.mp hhandle
        dsimp only
        rw [hindex]
        split at hfit
        · cases hfit
        · have hk := fit_eq_some_iff.mp hfit
          rw [← hpair.2]
          obtain ⟨hattr, hbuilt⟩ := Option.filter_eq_some_iff.mp hcustom
          refine ⟨by omega, ?_⟩
          rw [htype, hattr]
          simp only [Bool.and_eq_true, Bool.not_eq_true'] at hbuilt
          exact getTypeEnumString_custom hbuilt.2

/-- **Registers are shown as they should be** exactly where they are in range. -/
theorem displaysFaithfully_iff (h : regInfo db domain attributes = some info) (raw : UInt64) :
    DisplaysFaithfully db reflection domain attributes info raw ↔
      FieldsInRange db reflection domain attributes raw.toNat := by
  obtain ⟨hshr, htype, hfields, _⟩ := regInfo_spec h
  have hhandle := regInfo_handle h
  have hlt : attributes.shr < 32 := by
    rw [← hshr]
    exact info.shr.isLt
  have hfieldsIff := List.forall₂_and_of_mapM hfields fun bitfield _ field hfield =>
    @Encodes.faithful_iff db reflection bitfield field (encodes_of_appendBitfield hfield)
      attributes.shr (by omega) raw
  have hregister : ∀ index, registerEnum db domain attributes = some index →
      ((addRegisterNode reflection info raw).1 =
          some (enumMeaning reflection index (raw.toNat * 2 ^ attributes.shr)) ↔
        RegisterInRange reflection index (raw.toNat * 2 ^ attributes.shr)) := by
    intro index hindex
    rw [hindex] at hhandle
    have hv : (raw <<< UInt64.ofNat info.shr).toNat =
        raw.toNat * 2 ^ attributes.shr % 2 ^ 64 := by
      have hs : (UInt64.ofNat info.shr).toNat % 64 = attributes.shr := by
        rw [UInt64.toNat_ofNat', hshr]
        omega
      rw [UInt64.toNat_shiftLeft, hs, Nat.shiftLeft_eq]
    show showRegister reflection info (raw <<< UInt64.ofNat info.shr) = _ ↔ _
    unfold showRegister RegisterInRange
    by_cases h255 : index = 255
    · have hno : info.enumHandle = noEnum := Fin.ext (by rw [hhandle.1, h255]; rfl)
      rw [if_neg (not_not.mpr hno), if_pos h255, hhandle.2]
      exact number_iff hv
    · have hsome : info.enumHandle ≠ noEnum := by
        intro hno
        exact h255 (by rw [← hhandle.1, hno]; rfl)
      rw [if_pos hsome, if_neg h255, hhandle.1]
      exact registerName_iff hv
  have hfields' : (List.Forall₂
      (fun bitfield field =>
        (field.read (raw <<< UInt64.ofNat info.shr)).toNat = bitfield.bits raw.toNat)
        (writtenBitfields db domain attributes) info.fields ∧
      List.Forall₂ (fun bitfield shown => shown = some (bitfield.meaning db reflection raw.toNat))
        (writtenBitfields db domain attributes) (addRegisterNode reflection info raw).2) ↔
      ∀ bitfield ∈ writtenBitfields db domain attributes,
        FieldInRange db reflection bitfield attributes.shr raw.toNat := by
    rw [← hfieldsIff]
    unfold addRegisterNode
    rw [List.forall₂_map_right_iff, hshr]
  constructor
  · intro hdisplay
    exact ⟨hfields'.mp ⟨hdisplay.reads, hdisplay.fields⟩, fun index hindex =>
      (hregister index hindex).mp (hdisplay.register index hindex)⟩
  · intro hrange
    obtain ⟨hreads, hshown⟩ := hfields'.mpr hrange.fields
    exact ⟨hreads, hshown, fun index hindex =>
      (hregister index hindex).mpr (hrange.register index hindex)⟩

end Registers

/-! ## Sample positions -/

/-- The bitset of the programmable sample positions. -/
def programmableMsaaPos : Bitset where
  name := "a6xx_programmable_msaa_pos"
  bitfields :=
    [⟨"SAMPLE_0_X", some "fixed", some 0, some 3, none, none, some 4, none⟩,
      ⟨"SAMPLE_0_Y", some "fixed", some 4, some 7, none, none, some 4, none⟩,
      ⟨"SAMPLE_1_X", some "fixed", some 8, some 11, none, none, some 4, none⟩,
      ⟨"SAMPLE_1_Y", some "fixed", some 12, some 15, none, none, some 4, none⟩,
      ⟨"SAMPLE_2_X", some "fixed", some 16, some 19, none, none, some 4, none⟩,
      ⟨"SAMPLE_2_Y", some "fixed", some 20, some 23, none, none, some 4, none⟩,
      ⟨"SAMPLE_3_X", some "fixed", some 24, some 27, none, none, some 4, none⟩,
      ⟨"SAMPLE_3_Y", some "fixed", some 28, some 31, none, none, some 4, none⟩]

def samplesDomain : Domain := { name := "A6XX", bitsets := [programmableMsaaPos] }

def samplesDatabase : Database := { domains := [samplesDomain] }

/-- A register of sample positions. -/
def samplesRegister : RegAttributes where
  name := "GRAS_SC_PROGRAMMABLE_MSAA_POS_0"
  offset := 0x80a5
  type := some "a6xx_programmable_msaa_pos"
  variants := "A6XX-A7XX"

def samplesReflection : Reflection := ⟨[[]], by simp⟩

theorem samplesRegister_isSome :
    (regInfo samplesDatabase samplesDomain samplesRegister).isSome = true := by decide +kernel

def samplesInfo : RegInfo :=
  (regInfo samplesDatabase samplesDomain samplesRegister).get samplesRegister_isSome

theorem regInfo_samplesRegister :
    regInfo samplesDatabase samplesDomain samplesRegister = some samplesInfo :=
  (Option.some_get samplesRegister_isSome).symm

/-- Positions that are not negative are shown. -/
theorem displaysFaithfully_samples :
    DisplaysFaithfully samplesDatabase samplesReflection samplesDomain samplesRegister samplesInfo
      0x70432107 := by
  apply (displaysFaithfully_iff regInfo_samplesRegister 0x70432107).mpr
  constructor
  · intro bitfield hmem
    refine ⟨bitfield.unmoved_zero _, ?_⟩
    have henum : ∀ b ∈ writtenBitfields samplesDatabase samplesDomain samplesRegister,
        b.enum samplesDatabase = none ∧ b.PlainInRange (0x70432107 : UInt64).toNat := by
      decide +kernel
    rw [(henum bitfield hmem).1]
    exact (henum bitfield hmem).2
  · intro index hindex
    have hnone : registerEnum samplesDatabase samplesDomain samplesRegister = none := by
      decide +kernel
    rw [hnone] at hindex
    cases hindex

/-- The position `-1/2` is shown as `1/2`. -/
theorem negativeSample_not_faithful :
    regInfo samplesDatabase samplesDomain samplesRegister = some samplesInfo ∧
      ¬ DisplaysFaithfully samplesDatabase samplesReflection samplesDomain samplesRegister
        samplesInfo 8 := by
  refine ⟨regInfo_samplesRegister, fun h => ?_⟩
  exact absurd h.fields (by decide +kernel)

end Dive.Adreno
