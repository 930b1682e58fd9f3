import Dive.Adreno.Database
import Dive.Lib.BitLayout
import Mathlib.Data.List.Sort

/-!
# The generated packet and register structures

* `outputBitfields`, `outputRegUnions`, `outputPacketRegs`, `outputPackets`, `addToRegHash`,
  `generate`: `generateAdrenoHeader.py`.
* `RegUnion.ranges`, `starts`: the layout of what it writes.
-/

namespace Dive.Adreno.Header

/-- The name of a member: no digit comes first. -/
def memberName (name : String) : Option String :=
  match name.toList with
  | [] => none
  | c :: _ => some (if c.isDigit then "_" ++ name else name)

/-- `bitfield_start` and `bitfield_width`. -/
def startWidth (bitfield : Bitfield) : Option (ℤ × ℤ) :=
  match bitfield.low, bitfield.high with
  | some low, some high => some (low, high - low + 1)
  | _, _ => bitfield.pos.map fun pos => (pos, 1)

/-- The type of a member. -/
def memberType (bitfield : Bitfield) : String :=
  match bitfield.type with
  | none => "uint32_t"
  | some type => if isBuiltInType type then "uint32_t" else type

/-- The members of a structure of bit fields, under their types and names. -/
abbrev Members := List (BitMember (String × String))

/-- `outputBitfields`: the members that are written and the bit after them. -/
def outputBitfields : List Bitfield → ℤ → Option (Members × ℤ)
  | [], curOffset => some ([], curOffset)
  | bitfield :: bitfields, curOffset => do
    let bitfieldName ← memberName bitfield.name
    let (bitfieldStart, bitfieldWidth) ← startWidth bitfield
    if curOffset > bitfieldStart then some ([], curOffset)
    else
      let (members, endOffset) ← outputBitfields bitfields (bitfieldStart + bitfieldWidth)
      some ((if curOffset ≠ bitfieldStart then [⟨none, bitfieldStart - curOffset⟩] else []) ++
        ⟨some (memberType bitfield, bitfieldName), bitfieldWidth⟩ :: members, endOffset)

/-- The union that is written for a register. -/
structure RegUnion where
  name : String
  /-- The type of the member `bitfields` of an enumeration. -/
  enumMember : Option String
  /-- The members of the structure of bit fields. -/
  members : Option Members
  deriving DecidableEq, Repr

section Generator

variable (db : Database)

/-- What the type of a register stands for. -/
inductive TypeOf
  | standard
  | enum (name : String)
  | bitset (bitset : Bitset)
  deriving DecidableEq, Repr

/-- The look-up of a type. -/
def typeOf (domain : Domain) (type : Option String) : Option TypeOf :=
  match customType type with
  | none => some .standard
  | some type =>
    match db.enum type with
    | some enum => some (.enum enum.name)
    | none => (db.bitset domain type).map .bitset

/-- The bit fields of the bitset that a register has as its type. -/
def bitsetFields (domain : Domain) (reg : Register) : List Bitfield :=
  match typeOf db domain reg.type with
  | some (.bitset bitset) => bitset.bitfields
  | _ => []

/-- `outputRegUnions`. -/
def outputRegUnions (domain : Domain) (name : String) (reg : Register) : Option RegUnion := do
  match ← typeOf db domain reg.type with
  | .bitset bitset =>
    let (members, curBitfieldOffset) ← outputBitfields bitset.bitfields 0
    let (own, _) ← outputBitfields reg.bitfields curBitfieldOffset
    some ⟨name, none, some (members ++ own)⟩
  | .enum enumName =>
    let (own, _) ← outputBitfields reg.bitfields 0
    some ⟨name, some enumName, if reg.bitfields.isEmpty then none else some own⟩
  | .standard =>
    let (own, _) ← outputBitfields reg.bitfields 0
    some ⟨name, none, if reg.bitfields.isEmpty then none else some own⟩

/-- What is written for a register of a packet. -/
inductive MemberBody
  | uint32 (name : String)
  | uint64 (name : String)
  | regUnion (body : RegUnion)
  deriving DecidableEq, Repr

/-- A member of a packet, with the register that it is written for. -/
structure PacketMember where
  reg : Register
  body : MemberBody
  deriving DecidableEq, Repr

/-- The dwords of a register. -/
def dwords (reg : Register) : ℕ := if reg.is64 then 2 else 1

/-- `use_buildin_type` of a `reg32`. -/
def usesBuiltIn (reg : Register) : Bool :=
  match reg.type with
  | none => reg.bitfields.isEmpty
  | some type => isBuiltInType type

/-- The member that is written for one register. -/
def outputPacketReg (domain : Domain) (reg : Register) : Option MemberBody := do
  let fieldName ← memberName reg.name
  if reg.is64 then
    let bitset := (reg.type.filter (· ≠ "")).bind fun type =>
      domain.bitsets.find? (·.name == type)
    if reg.bitfields ≠ [] ∨ bitset.any (·.bitfields ≠ []) then none else some (.uint64 fieldName)
  else if usesBuiltIn reg then some (.uint32 fieldName)
  else (outputRegUnions db domain "" reg).map .regUnion

/-- `outputPacketRegs`, after `dwordCount` dwords. -/
def outputPacketRegs (domain : Domain) : ℕ → Option ℕ → List Register →
    Option (List PacketMember)
  | _, _, [] => some []
  | dwordCount, addressEndOffset, reg :: regs =>
    if dwordCount > reg.offset then
      if addressEndOffset.any (reg.offset > ·) then none
      else outputPacketRegs domain dwordCount addressEndOffset regs
    else do
      let dwordCount := dwordCount + dwords reg
      let addressEndOffset :=
        if reg.type = some "address" then some dwordCount else addressEndOffset
      let body ← outputPacketReg db domain reg
      let members ← outputPacketRegs domain dwordCount addressEndOffset regs
      some (⟨reg, body⟩ :: members)

/-! ## The registers of a packet -/

/-- An element goes into the dictionary when nothing has its offset. -/
def addNew (regDict : List Register) (reg : Register) : List Register :=
  if regDict.any (·.offset == reg.offset) then regDict else regDict ++ [reg]

/-- An element takes the place of what has its offset. -/
def replace (regDict : List Register) (reg : Register) : List Register :=
  if regDict.any (·.offset == reg.offset) then
    regDict.map fun r => if r.offset == reg.offset then reg else r
  else regDict ++ [reg]

/-- `A\dXX-` is found in the text. -/
def hasOpenRange : List Char → Bool
  | [] => false
  | c :: cs =>
    (match c :: cs with
      | 'A' :: d :: 'X' :: 'X' :: '-' :: _ => d.isDigit
      | _ => false) || hasOpenRange cs

/-- `variant_list`: of the stripes for chips only the last one. -/
def variantList (domain : Domain) : List (Option Stripe) :=
  let stripes := domain.stripes.zipIdx.filter fun (stripe, idx) =>
    stripe.varset ≠ "chip" || idx == domain.stripes.length - 1
  if stripes.isEmpty then [none] else stripes.map fun (stripe, _) => some stripe

/-- The registers of the packet with those of a stripe. -/
def stripeRegs (regDict : List Register) : Option Stripe → List Register
  | none => regDict
  | some stripe =>
    let all := stripe.registers.foldl addNew regDict
    if hasOpenRange stripe.variants.toList then
      (stripe.registers.foldl addNew []).foldl replace all
    else all

/-- `packet_name`. -/
def packetName (domain : Domain) (isPm4 : Bool) : Option Stripe → String
  | some stripe =>
    if stripe.varset ≠ "chip" then
      "PM4_" ++ domain.name ++ "_" ++ stripe.pfx.getD stripe.variants
    else if isPm4 then "PM4_" ++ domain.name else domain.name
  | none => if isPm4 then "PM4_" ++ domain.name else domain.name

/-- The value of a stripe that is not for a chip is looked up in the enumeration of its varset. -/
def stripeFound (stripe : Option Stripe) : Bool :=
  match stripe with
  | none => true
  | some stripe =>
    stripe.varset == "chip" ||
      ((db.enums.find? (·.name == stripe.varset)).bind fun enum =>
        (enum.values.find? (·.1 == stripe.variants)).bind (·.2)).isSome

/-- A structure for a packet, with the domain that it is written for. -/
structure PacketStruct where
  domain : Domain
  name : String
  arraySize : ℕ
  /-- `reg_list`. -/
  regs : List Register
  members : List PacketMember
  deriving DecidableEq, Repr

/-- The element with the registers of a packet, and `array_size`. -/
def pm4Packet (domain : Domain) : List Register × ℕ :=
  match domain.arrays with
  | [] => (domain.registers, 1)
  | array :: _ => (array.registers, array.length)

/-- The structure for one variant of a packet. -/
def outputPacket (domain : Domain) (isPm4 : Bool) (stripe : Option Stripe) :
    Option PacketStruct := do
  let (registers, arraySize) := pm4Packet domain
  let regList := (stripeRegs (registers.foldl addNew []) stripe).insertionSort
    fun r s => r.offset ≤ s.offset
  if stripeFound db stripe then
    let members ← outputPacketRegs db domain 0 none regList
    some ⟨domain, packetName domain isPm4 stripe, arraySize, regList, members⟩
  else none

/-- The structures for the variants of one domain. -/
def outputDomain (pm4TypePackets : Enum) (domain : Domain) : Option (List PacketStruct) :=
  let isPm4 := pm4TypePackets.values.any (·.1 == domain.name)
  if !isPm4 && !"A6XX_".isPrefixOf domain.name then some []
  else if (pm4Packet domain).1.any (·.offset > 1000) then some []
  else (variantList domain).mapM (outputPacket db domain isPm4)

/-- `outputPackets`. -/
def outputPackets : Option (List PacketStruct) := do
  let pm4TypePackets ← db.enum "adreno_pm4_type3_packets"
  let structs ← db.domains.mapM (outputDomain db pm4TypePackets)
  some structs.flatten

/-! ## The registers of the A6XX domain -/

/-- `addToRegHash`: of two registers of one name the one with more bit fields. -/
def addToRegHash (regs : List (String × Register)) (entry : String × Register) :
    List (String × Register) :=
  if regs.any (·.1 == entry.1) then
    regs.map fun old =>
      if old.1 == entry.1 && old.2.bitfields.length < entry.2.bitfields.length then entry else old
  else regs ++ [entry]

/-- The 32-bit registers, under their names. -/
def namedRegisters (a6xxDomain : Domain) : List (String × Register) :=
  (a6xxDomain.registers.map fun reg => (reg.name, reg)) ++
    a6xxDomain.arrays.flatMap fun array =>
      array.registers.map fun reg => (array.name ++ "_" ++ reg.name, reg)

/-- The unions, each with its register. -/
def outputUnions (a6xxDomain : Domain) : Option (List (Register × RegUnion)) :=
  (((namedRegisters a6xxDomain).filter fun entry => !entry.2.is64).foldl addToRegHash []).mapM
    fun (name, reg) => (outputRegUnions db a6xxDomain name reg).map fun body => (reg, body)

/-- What is written. -/
structure Output where
  packets : List PacketStruct
  a6xxDomain : Domain
  unions : List (Register × RegUnion)
  deriving DecidableEq, Repr

/-- The script. -/
def generate : Option Output := do
  let packets ← outputPackets db
  let a6xxDomain ← db.domain "A6XX"
  let unions ← outputUnions db a6xxDomain
  some ⟨packets, a6xxDomain, unions⟩

end Generator

end Dive.Adreno.Header
