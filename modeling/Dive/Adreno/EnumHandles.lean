import Dive.Adreno.Header
import Dive.Adreno.RegisterTables
import Mathlib.Data.List.Nodup

/-!
# The enum handles that are written

* `HandleText`, `WrittenHandle`: what stands at `m_enum_handle` of an element, as it is written, and
  what is `stored` of it in 8 bits.
* `outputSingleRegister`, `outputPacketFields`, `outputDomain`, `generate`:
  `generatePm4Info_adreno.py`, as far as it writes handles and raises exceptions, which are `none`.
* `enumTypes`: the types of the elements that a handle is written for; **`writes_generate`**.
* **`handlesFaithful_iff`**: the handles are right as long as none is the number 255 or 256.
* `numberedDatabase`: databases with many enumerations, all of which are accepted.
-/

namespace Dive.Adreno.Handles

/-- An enum handle in the generated code. -/
inductive HandleText
  | uint8Max
  | index (n : ℕ)
  deriving DecidableEq, Repr

/-- The value of an `m_enum_handle`, of which the lower 8 bits are kept. -/
def HandleText.stored : HandleText → ℕ
  | .uint8Max => 255
  | .index n => n % 2 ^ 8

/-- An element of a register or packet description. -/
structure WrittenHandle where
  name : String
  type : Option String
  handle : HandleText
  deriving DecidableEq, Repr

section Generator

variable (db : Database)

/-! ## Registers -/

/-- The check of a handle, and its text. -/
def handleText (type : String) : Option HandleText :=
  (enumIndex db type).bind fun index => if index > 256 then none else some (.index index)

/-- The type of a bit field, if it is not built in. -/
def fieldType (bitfield : Bitfield) : Option String :=
  bitfield.type.filter fun type => !isBuiltInType type

/-- `enum_handle` of a bit field. -/
def fieldHandle (bitfield : Bitfield) : Option HandleText :=
  match fieldType bitfield with
  | none => some .uint8Max
  | some type => handleText db type

/-- `GetBitfieldsOrEnumHandleFromBitset`. -/
def getBitfieldsOrEnumHandleFromBitset (domain : Domain) (type : Option String)
    (bitfields : List Bitfield) : Option (List Bitfield × HandleText) :=
  match customType type with
  | none => some (bitfields, .uint8Max)
  | some type =>
    match db.bitset domain type with
    | some bitset => some (bitset.bitfields, .uint8Max)
    | none =>
      match db.enum type with
      | none => none
      | some _ => (handleText db type).map fun handle => ([], handle)

/-- A bit field of a register or of a packet; its mask is a shift by a number that must not be
negative. -/
def outputBitfield (is64 : Bool) (bitfield : Bitfield) : Option WrittenHandle :=
  match fieldHandle db bitfield, shiftWidthMask is64 bitfield with
  | some handle, some _ => some ⟨bitfield.name, bitfield.type, handle⟩
  | _, _ => none

/-- `outputSingleRegister`, with what `AppendBitfield` writes. The same is written for each of the
variants. -/
def outputSingleRegister (domain : Domain) (attributes : RegAttributes) :
    Option (List WrittenHandle) := do
  let (bitfields, handle) ←
    getBitfieldsOrEnumHandleFromBitset db domain attributes.type attributes.bitfields
  let fields ← bitfields.mapM (outputBitfield db attributes.is64)
  some (⟨attributes.name, attributes.type, handle⟩ :: fields)

/-! ## Packets -/

/-- What is written for a register of a packet itself. -/
def ownFields (reg : Register) (bitfields : List Bitfield) (handle : HandleText) :
    List WrittenHandle :=
  if bitfields = [] then
    if reg.is64 then
      [⟨reg.name ++ "_LO", reg.type, handle⟩, ⟨reg.name ++ "_HI", reg.type, handle⟩]
    else [⟨reg.name, reg.type, handle⟩]
  else []

/-- What is written for a register of a packet. -/
def outputPacketRegister (domain : Domain) (reg : Register) : Option (List WrittenHandle) := do
  let (bitfields, handle) ←
    getBitfieldsOrEnumHandleFromBitset db domain reg.type reg.bitfields
  if reg.is64 = true ∧ bitfields ≠ [] then none
  else
    let fields ← bitfields.mapM (outputBitfield db false)
    some (ownFields reg bitfields handle ++ fields)

/-- `outputPacketFields`, after `dwordCount` dwords. -/
def outputPacketFields (domain : Domain) : ℕ → Option ℕ → List Register →
    Option (List WrittenHandle)
  | _, _, [] => some []
  | dwordCount, addressEndOffset, reg :: regs =>
    if dwordCount > reg.offset then
      if addressEndOffset.any (reg.offset > ·) then none
      else outputPacketFields domain dwordCount addressEndOffset regs
    else do
      let dwordCount := dwordCount + Header.dwords reg
      let addressEndOffset :=
        if reg.type = some "address" then some dwordCount else addressEndOffset
      let written ← outputPacketRegister db domain reg
      let rest ← outputPacketFields domain dwordCount addressEndOffset regs
      some (written ++ rest)

/-- `reg_list` of a packet and a stripe. -/
def regList (domain : Domain) (stripe : Option Stripe) : List Register :=
  let regDict := (Header.pm4Packet domain).1.foldl Header.addNew []
  let regDict := (stripe.map Stripe.registers |>.getD []).foldl Header.addNew regDict
  regDict.insertionSort fun r s => r.offset ≤ s.offset

/-- A register with bit fields beside an array. -/
def unexpectedRegisters (domain : Domain) : Bool :=
  !domain.arrays.isEmpty &&
    ((domain.registers.find? (!·.is64)).any (!·.bitfields.isEmpty) ||
      (domain.registers.find? (·.is64)).any (!·.bitfields.isEmpty))

/-- The variants of a packet that are written. -/
def writtenVariants (domain : Domain) : List (Option Stripe) :=
  if (Header.pm4Packet domain).1.any (·.offset > 1000) then [] else Header.variantList domain

/-- One variant of a packet. -/
def outputVariant (a6xxDomain domain : Domain) (stripe : Option Stripe) :
    Option (List WrittenHandle) :=
  if Header.stripeFound db stripe then
    outputPacketFields db a6xxDomain 0 none (regList domain stripe)
  else none

/-- An entry for `opcode_dict`, if it has a value. -/
def isOpcodeName (value : String × Option ℕ) : Bool :=
  "CP_".isPrefixOf value.1 || "A6XX_".isPrefixOf value.1

/-- `opcode_dict`. -/
def opcodeDict (typePackets : Enum) (opcode : ℕ) : Option String :=
  valueName (typePackets.values.filter isOpcodeName) opcode

/-- The packet is written: `none` is an exception, a domain that is passed over is `false`. -/
def isWritten (typePackets : Enum) (domain : Domain) : Option Bool :=
  match typePackets.values.find? (·.1 == domain.name) with
  | none => some ("A6XX_".isPrefixOf domain.name)
  | some (_, value) => do
    let opcode ← value
    let name ← opcodeDict typePackets opcode
    some (name == domain.name)

/-- The loop over the domains. -/
def outputDomain (a6xxDomain : Domain) (typePackets : Enum) (domain : Domain) :
    Option (List WrittenHandle) := do
  if ← isWritten typePackets domain then
    if unexpectedRegisters domain then none
    else
      let variants ← (writtenVariants domain).mapM (outputVariant db a6xxDomain domain)
      some variants.flatten
  else some []

/-- A packet without a domain has to have an opcode. -/
def lacksOpcode (value : String × Option ℕ) : Bool :=
  (db.domain value.1).isNone && value.2.isNone

/-! ## The script -/

/-- What is written: the handles in their order, and the table that they select from. -/
structure Output where
  written : List WrittenHandle
  reflection : Reflection

/-- The script. -/
def generate : Option Output := do
  let typePackets ← db.enum "adreno_pm4_type3_packets"
  let a6xxDomain ← db.domain "A6XX"
  -- `max` of an empty dictionary raises an exception
  if (typePackets.values.any fun value => isOpcodeName value && value.2.isSome) ∧
      EnumsDistinct db then
    let registers ←
      (places a6xxDomain).mapM fun place => outputSingleRegister db a6xxDomain place.attributes
    let reflection ← outputEnums db
    let packets ← db.domains.mapM (outputDomain db a6xxDomain typePackets)
    if typePackets.values.any (lacksOpcode db) then none
    else some ⟨registers.flatten ++ packets.flatten, reflection⟩
  else none

end Generator

/-! ## What the handles should be -/

/-- **The handle `index` of an element is right**: it fits in its 8 bits, does not stand for no
enumeration, and selects the names of the one enumeration that the type of the element names. -/
structure Selects (db : Database) (reflection : Reflection) (w : WrittenHandle) (index : ℕ) :
    Prop where
  fits : index < 2 ^ 8
  notNone : w.handle.stored ≠ HandleText.uint8Max.stored
  names : ∃ enum ∈ db.enums, w.type = some enum.name ∧
    (∀ other ∈ db.enums, other.name = enum.name → other = enum) ∧
    reflection.rows[w.handle.stored]? = reflectionRow enum

/-- All handles of enumerations are right. -/
def HandlesFaithful (db : Database) (out : Output) : Prop :=
  ∀ w ∈ out.written, ∀ index, w.handle = .index index → Selects db out.reflection w index

/-! ## Which elements have one -/

section Types

variable (db : Database) (domain : Domain)

/-- The enumerations that the types of a register and of its bit fields name. -/
def registerTypes (type : Option String) (bitfields : List Bitfield) : List String :=
  match customType type with
  | none => bitfields.filterMap fieldType
  | some type =>
    match db.bitset domain type with
    | some bitset => bitset.bitfields.filterMap fieldType
    | none => [type]

/-- The registers of a packet that are not passed over. -/
def keptRegisters : ℕ → List Register → List Register
  | _, [] => []
  | dwordCount, reg :: regs =>
    if dwordCount > reg.offset then keptRegisters dwordCount regs
    else reg :: keptRegisters (dwordCount + Header.dwords reg) regs

/-- The enumerations that a packet names, in all its variants. -/
def packetTypes (packet : Domain) : List String :=
  (writtenVariants packet).flatMap fun stripe =>
    (keptRegisters 0 (regList packet stripe)).flatMap fun reg =>
      registerTypes db domain reg.type reg.bitfields

/-- The enumerations that registers and packets name. -/
def enumTypes : List String :=
  match db.enum "adreno_pm4_type3_packets", db.domain "A6XX" with
  | some typePackets, some a6xxDomain =>
    ((places a6xxDomain).flatMap fun place =>
      registerTypes db a6xxDomain place.attributes.type place.attributes.bitfields) ++
    db.domains.flatMap fun packet =>
      if isWritten typePackets packet = some true then packetTypes db a6xxDomain packet else []
  | _, _ => []

end Types

/-- There are too many enumerations: an element names one whose number no handle can stand for. -/
def TooManyEnums (db : Database) : Prop :=
  ∃ type ∈ enumTypes db, ∃ index, enumIndex db type = some index ∧ 255 ≤ index

/-- **The handles written are those of `types`.** -/
structure Writes (db : Database) (types : List String) (written : List WrittenHandle) : Prop where
  named : ∀ w ∈ written, ∀ index, w.handle = .index index →
    ∃ type ∈ types, w.type = some type ∧ enumIndex db type = some index ∧ index ≤ 256
  complete : ∀ type ∈ types, ∃ w ∈ written, ∃ index, w.handle = .index index ∧
    enumIndex db type = some index

section Writes

variable {db : Database} {domain : Domain} {types types' : List String}
  {written written' : List WrittenHandle}

theorem writes_nil : Writes db [] [] := ⟨by simp, by simp⟩

theorem Writes.append (h : Writes db types written) (h' : Writes db types' written') :
    Writes db (types ++ types') (written ++ written') := by
  constructor
  · intro w hw index hindex
    rcases List.mem_append.mp hw with hw | hw
    · obtain ⟨type, htype, hnamed⟩ := h.named w hw index hindex
      exact ⟨type, List.mem_append_left _ htype, hnamed⟩
    · obtain ⟨type, htype, hnamed⟩ := h'.named w hw index hindex
      exact ⟨type, List.mem_append_right _ htype, hnamed⟩
  · intro type htype
    rcases List.mem_append.mp htype with htype | htype
    · obtain ⟨w, hw, hindex⟩ := h.complete type htype
      exact ⟨w, List.mem_append_left _ hw, hindex⟩
    · obtain ⟨w, hw, hindex⟩ := h'.complete type htype
      exact ⟨w, List.mem_append_right _ hw, hindex⟩

theorem writes_mapM {α : Type} {f : α → Option (List WrittenHandle)} {g : α → List String} :
    ∀ {l : List α} {r : List (List WrittenHandle)}, l.mapM f = some r →
      (∀ a ∈ l, ∀ ws, f a = some ws → Writes db (g a) ws) → Writes db (l.flatMap g) r.flatten
  | [], r, h, _ => by
    obtain rfl : [] = r := by simpa using h
    exact writes_nil
  | a :: l, r, h, hf => by
    rw [List.mapM_eq_some_iff] at h
    cases r with
    | nil => cases h
    | cons ws r =>
      rw [List.map_cons, List.map_cons, List.cons.injEq] at h
      rw [List.flatMap_cons, List.flatten_cons]
      exact (hf a List.mem_cons_self ws h.1).append
        (writes_mapM (List.mapM_eq_some_iff.mpr h.2) fun b hb => hf b (List.mem_cons_of_mem a hb))

theorem handleText_eq {type : String} {handle : HandleText} (h : handleText db type = some handle) :
    ∃ index, handle = .index index ∧ enumIndex db type = some index ∧ index ≤ 256 := by
  obtain ⟨index, hindex, hcheck⟩ := Option.bind_eq_some_iff.mp h
  split_ifs at hcheck with hbig
  exact ⟨index, (Option.some_inj.mp hcheck).symm, hindex, not_lt.mp hbig⟩

theorem writes_one {type : String} {w : WrittenHandle} (htype : w.type = some type)
    (h : handleText db type = some w.handle) : Writes db [type] [w] := by
  obtain ⟨index, heq, hindex, hle⟩ := handleText_eq h
  constructor
  · intro v hv i hi
    obtain rfl := List.mem_singleton.mp hv
    rw [heq] at hi
    cases hi
    exact ⟨type, List.mem_singleton_self type, htype, hindex, hle⟩
  · intro other hother
    obtain rfl := List.mem_singleton.mp hother
    exact ⟨w, List.mem_singleton_self w, index, heq, hindex⟩

theorem writes_none (h : ∀ w ∈ written, w.handle = .uint8Max) : Writes db [] written := by
  refine ⟨fun w hw index hindex => ?_, by simp⟩
  rw [h w hw] at hindex
  cases hindex

theorem writes_outputBitfield {is64 : Bool} {bitfield : Bitfield} {w : WrittenHandle}
    (h : outputBitfield db is64 bitfield = some w) :
    Writes db (fieldType bitfield).toList [w] := by
  unfold outputBitfield at h
  split at h
  · rename_i handle _ hhandle _
    obtain rfl := Option.some_inj.mp h
    unfold fieldHandle at hhandle
    cases hfield : fieldType bitfield with
    | none =>
      rw [hfield] at hhandle
      refine writes_none fun w hw => ?_
      rw [List.mem_singleton.mp hw]
      exact (Option.some_inj.mp hhandle).symm
    | some type =>
      rw [hfield] at hhandle
      exact writes_one (Option.eq_some_of_filter_eq_some hfield) hhandle
  · cases h

theorem writes_bitfields {is64 : Bool} : ∀ {bitfields : List Bitfield}
    {written : List WrittenHandle}, bitfields.mapM (outputBitfield db is64) = some written →
      Writes db (bitfields.filterMap fieldType) written
  | [], written, h => by
    obtain rfl : [] = written := by simpa using h
    exact writes_nil
  | bitfield :: bitfields, written, h => by
    rw [List.mapM_eq_some_iff] at h
    cases written with
    | nil => cases h
    | cons w written =>
      rw [List.map_cons, List.map_cons, List.cons.injEq] at h
      have hrest := writes_bitfields (List.mapM_eq_some_iff.mpr h.2)
      have happend := (writes_outputBitfield h.1).append hrest
      have hcons : (bitfield :: bitfields).filterMap fieldType =
          (fieldType bitfield).toList ++ bitfields.filterMap fieldType := by
        rw [List.filterMap_cons]
        cases fieldType bitfield <;> rfl
      rwa [hcons]

theorem writes_register {type : Option String} {bitfields fields : List Bitfield}
    {handle : HandleText} {is64 : Bool} {own : List WrittenHandle}
    (h : getBitfieldsOrEnumHandleFromBitset db domain type bitfields = some (fields, handle))
    (hfields : fields.mapM (outputBitfield db is64) = some written)
    (hown : ∀ w ∈ own, w.type = type ∧ w.handle = handle) (hne : fields = [] → own ≠ []) :
    Writes db (registerTypes db domain type bitfields) (own ++ written) := by
  have hplain : ∀ fields : List Bitfield, handle = .uint8Max →
      fields.mapM (outputBitfield db is64) = some written →
      Writes db (fields.filterMap fieldType) (own ++ written) := by
    intro fields hnone hfields
    exact (writes_none fun w hw => (hown w hw).2.trans hnone).append (writes_bitfields hfields)
  unfold getBitfieldsOrEnumHandleFromBitset at h
  unfold registerTypes
  cases hcustom : customType type with
  | none =>
    rw [hcustom] at h
    cases h
    exact hplain _ rfl hfields
  | some name =>
    rw [hcustom] at h
    dsimp only at h ⊢
    cases hbitset : db.bitset domain name with
    | some bitset =>
      rw [hbitset] at h
      cases h
      exact hplain _ rfl hfields
    | none =>
      rw [hbitset] at h
      dsimp only at h ⊢
      split at h
      · cases h
      · obtain ⟨text, htext, hpair⟩ := Option.map_eq_some_iff.mp h
        cases hpair
        obtain rfl : [] = written := by simpa using hfields
        have htype : type = some name := Option.eq_some_of_filter_eq_some hcustom
        obtain ⟨index, heq, hindex, hle⟩ := handleText_eq htext
        rw [List.append_nil]
        constructor
        · intro w hw i hi
          rw [(hown w hw).2, heq] at hi
          cases hi
          exact ⟨name, List.mem_singleton_self name, (hown w hw).1.trans htype, hindex, hle⟩
        · intro other hother
          obtain rfl := List.mem_singleton.mp hother
          obtain ⟨w, hw⟩ := List.exists_mem_of_ne_nil own (hne rfl)
          exact ⟨w, hw, index, (hown w hw).2.trans heq, hindex⟩

theorem writes_outputSingleRegister {attributes : RegAttributes}
    (h : outputSingleRegister db domain attributes = some written) :
    Writes db (registerTypes db domain attributes.type attributes.bitfields) written := by
  simp only [outputSingleRegister, Option.bind_eq_bind, Option.bind_eq_some_iff, Option.some_inj,
    Prod.exists] at h
  obtain ⟨fields, handle, hget, rest, hrest, rfl⟩ := h
  have hown : ∀ w ∈ [(⟨attributes.name, attributes.type, handle⟩ : WrittenHandle)],
      w.type = attributes.type ∧ w.handle = handle := by
    intro w hw
    rw [List.mem_singleton.mp hw]
    exact ⟨rfl, rfl⟩
  exact writes_register hget hrest hown fun _ => List.cons_ne_nil _ _

theorem mem_ownFields {reg : Register} {bitfields : List Bitfield} {handle : HandleText}
    {w : WrittenHandle} (h : w ∈ ownFields reg bitfields handle) :
    w.type = reg.type ∧ w.handle = handle := by
  unfold ownFields at h
  split_ifs at h
  · rcases List.mem_cons.mp h with rfl | h
    · exact ⟨rfl, rfl⟩
    · rw [List.mem_singleton.mp h]
      exact ⟨rfl, rfl⟩
  · rw [List.mem_singleton.mp h]
    exact ⟨rfl, rfl⟩
  · cases h

theorem writes_outputPacketRegister {reg : Register}
    (h : outputPacketRegister db domain reg = some written) :
    Writes db (registerTypes db domain reg.type reg.bitfields) written := by
  simp only [outputPacketRegister, Option.bind_eq_bind, Option.bind_eq_some_iff, Prod.exists] at h
  obtain ⟨fields, handle, hget, h⟩ := h
  split_ifs at h
  simp only [Option.bind_eq_some_iff, Option.some_inj] at h
  obtain ⟨rest, hrest, rfl⟩ := h
  refine writes_register hget hrest (fun w hw => mem_ownFields hw) fun hnil => ?_
  unfold ownFields
  rw [if_pos hnil]
  split_ifs <;> exact List.cons_ne_nil _ _

/-- **The registers of a packet**: those that are kept are written. -/
theorem writes_outputPacketFields {regs : List Register} {dwordCount : ℕ}
    {addressEndOffset : Option ℕ}
    (h : outputPacketFields db domain dwordCount addressEndOffset regs = some written) :
    Writes db ((keptRegisters dwordCount regs).flatMap fun reg =>
      registerTypes db domain reg.type reg.bitfields) written := by
  induction regs generalizing dwordCount addressEndOffset written with
  | nil =>
    cases h
    exact writes_nil
  | cons reg regs ih =>
    rw [outputPacketFields] at h
    rw [keptRegisters]
    by_cases hpassed : dwordCount > reg.offset
    · rw [if_pos hpassed] at h ⊢
      split_ifs at h
      exact ih h
    · rw [if_neg hpassed] at h ⊢
      simp only [Option.bind_eq_bind, Option.bind_eq_some_iff, Option.some_inj] at h
      obtain ⟨own, hown, rest, hrest, rfl⟩ := h
      rw [List.flatMap_cons]
      exact (writes_outputPacketRegister hown).append (ih hrest)

theorem writes_outputDomain {typePackets : Enum} {packet : Domain}
    (h : outputDomain db domain typePackets packet = some written) :
    Writes db (if isWritten typePackets packet = some true then packetTypes db domain packet else [])
      written := by
  simp only [outputDomain, Option.bind_eq_bind, Option.bind_eq_some_iff] at h
  obtain ⟨found, hfound, h⟩ := h
  rw [hfound]
  cases found with
  | false =>
    cases h
    exact writes_nil
  | true =>
    rw [if_pos rfl] at h ⊢
    split_ifs at h
    simp only [Option.bind_eq_some_iff, Option.some_inj] at h
    obtain ⟨variants, hvariants, rfl⟩ := h
    refine writes_mapM hvariants fun stripe _ ws hws => ?_
    unfold outputVariant at hws
    split_ifs at hws
    exact writes_outputPacketFields hws

/-- **The script writes a handle for each type in `enumTypes`**, and for no other. -/
theorem writes_generate {out : Output} (h : generate db = some out) :
    Writes db (enumTypes db) out.written ∧ EnumsDistinct db ∧
      outputEnums db = some out.reflection := by
  simp only [generate, Option.bind_eq_bind, Option.bind_eq_some_iff] at h
  obtain ⟨typePackets, htypes, a6xxDomain, ha6xx, h⟩ := h
  split_ifs at h with hchecks hlacks
  · simp at h
  simp only [Option.bind_eq_some_iff, Option.some_inj] at h
  obtain ⟨registers, hregisters, reflection, hreflection, packets, hpackets, rfl⟩ := h
  refine ⟨?_, hchecks.2, hreflection⟩
  unfold enumTypes
  rw [htypes, ha6xx]
  exact (writes_mapM hregisters fun place _ ws hws => writes_outputSingleRegister hws).append
    (writes_mapM hpackets fun packet _ ws hws => writes_outputDomain hws)

end Writes

/-! ## When the handles are right -/

section Faithful

variable {db : Database} {out : Output}

theorem rows_outputEnums {reflection : Reflection} (h : outputEnums db = some reflection) {k : ℕ}
    {enum : Enum} (hk : db.enums[k]? = some enum) :
    reflection.rows[k]? = reflectionRow enum := by
  unfold outputEnums at h
  split at h
  · cases h
  · rename_i rows hrows
    obtain rfl := Option.some_inj.mp h
    have hget := List.getElem?_of_mapM hrows k
    rw [hk, Option.map_some] at hget
    obtain ⟨row, hrow, heq⟩ := Option.map_eq_some_iff.mp hget.symm
    show (rows ++ [[]])[k]? = reflectionRow enum
    rw [List.getElem?_append_left (List.getElem?_eq_some_iff.mp hrow).1, hrow, heq]

theorem enum_of_index (hdistinct : EnumsDistinct db) {type : String} {index : ℕ}
    (h : enumIndex db type = some index) :
    ∃ enum, db.enums[index]? = some enum ∧ enum.name = type ∧
      ∀ other ∈ db.enums, other.name = enum.name → other = enum := by
  obtain ⟨hlt, hname, -⟩ := List.findIdx?_eq_some_iff_getElem.mp h
  refine ⟨db.enums[index], List.getElem?_eq_getElem hlt, by simpa using hname, ?_⟩
  intro other hother heq
  exact List.inj_on_of_nodup_map hdistinct hother (List.getElem_mem hlt) heq

/-- **Enum handles are faithful**, and the enumerations are not too many, exactly if no register,
bit field or packet field that is written names the enumeration number 255 or 256. -/
theorem handlesFaithful_iff (db : Database) {out : Output} (h : generate db = some out) :
    (HandlesFaithful db out ∧ ¬ TooManyEnums db) ↔
      ∀ type ∈ enumTypes db, enumIndex db type ≠ some 255 ∧ enumIndex db type ≠ some 256 := by
  obtain ⟨hwrites, hdistinct, hreflection⟩ := writes_generate h
  constructor
  · intro ⟨hfaithful, _⟩ type htype
    obtain ⟨w, hw, index, hhandle, hindex⟩ := hwrites.complete type htype
    have hselects := hfaithful w hw index hhandle
    have hfits := hselects.fits
    have hnone := hselects.notNone
    rw [hhandle, HandleText.stored, HandleText.stored, Nat.mod_eq_of_lt hfits] at hnone
    rw [hindex]
    constructor
    · exact fun heq => hnone (Option.some_inj.mp heq)
    · intro heq
      rw [Option.some_inj.mp heq] at hfits
      exact absurd hfits (by decide)
  · intro hclear
    have hbelow : ∀ type ∈ enumTypes db, ∀ index, enumIndex db type = some index →
        index < 255 := by
      intro type htype index hindex
      obtain ⟨w, hw, i, hi, hindex'⟩ := hwrites.complete type htype
      obtain ⟨other, _, hother, hnumber, hle⟩ := hwrites.named w hw i hi
      obtain rfl : index = i := Option.some_inj.mp (hindex.symm.trans hindex')
      have hbounds := hclear type htype
      rw [hindex, Ne, Ne, Option.some_inj, Option.some_inj] at hbounds
      omega
    constructor
    · intro w hw index hhandle
      obtain ⟨type, htype, hnamed, hindex, hle⟩ := hwrites.named w hw index hhandle
      have hsmall : index < 255 := hbelow type htype index hindex
      have hstored : w.handle.stored = index := by
        rw [hhandle, HandleText.stored]
        omega
      obtain ⟨enum, henum, rfl, honly⟩ := enum_of_index hdistinct hindex
      refine ⟨by omega, ?_, enum, List.mem_of_getElem? henum, hnamed, honly, ?_⟩
      · rw [hstored, HandleText.stored]
        omega
      · rw [hstored]
        exact rows_outputEnums hreflection henum
    · intro ⟨type, htype, index, hindex, hbig⟩
      exact absurd (hbelow type htype index hindex) (not_lt.mpr hbig)

/-! ## Databases -/

/-- The name of an enumeration in `numberedDatabase`: `Ā`, `ā` and so on. -/
def numberedName (i : ℕ) : String := String.singleton (Char.ofNat (0x100 + i))

/-- A domain of one register. -/
def numberedDomain (type : String) : Domain where
  name := "A6XX"
  registers := [{ name := "REG", offset := 0, type := some type }]

/-- A database with `n` enumerations after that of the opcodes, and one register. -/
def numberedDatabase (n : ℕ) (type : String) : Database where
  enums := { name := "adreno_pm4_type3_packets", values := [("CP_NOP", some 0x10)] } ::
    (List.range n).map fun i => { name := numberedName i, values := [("VALUE", some 0)] }
  domains := [numberedDomain type]

theorem numberedName_inj {i j : ℕ} (hi : i < 0x1000) (hj : j < 0x1000)
    (h : numberedName i = numberedName j) : i = j := by
  have hchar : Char.ofNat (0x100 + i) = Char.ofNat (0x100 + j) := by
    simpa [numberedName] using h
  have hval := congrArg Char.toNat hchar
  have hnumber : ∀ k < 0x1000, (Char.ofNat (0x100 + k)).toNat = 0x100 + k := by
    intro k hk
    have hvalid : (0x100 + k).isValidChar := Or.inl (by omega)
    rw [Char.ofNat, dif_pos hvalid]
    rfl
  rw [hnumber i hi, hnumber j hj] at hval
  omega

theorem enumsDistinct_numberedDatabase {n : ℕ} (hn : n ≤ 0x1000) (type : String) :
    EnumsDistinct (numberedDatabase n type) := by
  have hnames : (numberedDatabase n type).enums.map (·.name) =
      "adreno_pm4_type3_packets" :: (List.range n).map numberedName := by
    rw [numberedDatabase, List.map_cons, List.map_map]
    rfl
  rw [EnumsDistinct, hnames, List.nodup_cons]
  constructor
  · intro hmem
    obtain ⟨i, -, hi⟩ := List.mem_map.mp hmem
    have hlength := congrArg String.length hi
    rw [numberedName, String.length_singleton] at hlength
    exact absurd hlength (by decide)
  · refine List.Nodup.map_on ?_ List.nodup_range
    intro i hi j hj
    rw [List.mem_range] at hi hj
    exact numberedName_inj (hi.trans_le hn) (hj.trans_le hn)

theorem generate_numberedDatabase {n : ℕ} (hn : n ≤ 0x1000) {type : String} {index : ℕ}
    (hcustom : customType (some type) = some type)
    (hindex : handleText (numberedDatabase n type) type = some (.index index))
    (henum : (numberedDatabase n type).enum type ≠ none) :
    ∃ out, generate (numberedDatabase n type) = some out ∧
      out.written = [⟨"REG", some type, .index index⟩] := by
  have hrows : (outputEnums (numberedDatabase n type)).isSome := by
    have hsome : ((numberedDatabase n type).enums.mapM reflectionRow).isSome := by
      rw [List.isSome_mapM_iff]
      intro enum henum
      rcases List.mem_cons.mp henum with rfl | henum
      · rfl
      · obtain ⟨i, -, rfl⟩ := List.mem_map.mp henum
        rfl
    unfold outputEnums
    split
    · rename_i hnone
      rw [hnone] at hsome
      cases hsome
    · rfl
  obtain ⟨reflection, hreflection⟩ := Option.isSome_iff_exists.mp hrows
  obtain ⟨enum, henum⟩ := Option.ne_none_iff_exists'.mp henum
  have hget : getBitfieldsOrEnumHandleFromBitset (numberedDatabase n type) (numberedDomain type)
      (some type) [] = some ([], .index index) := by
    have hbitset : (numberedDatabase n type).bitset (numberedDomain type) type = none := rfl
    simp only [getBitfieldsOrEnumHandleFromBitset, hcustom, hbitset, henum, hindex, Option.map_some]
  have hregisters : (places (numberedDomain type)).mapM (fun place =>
      outputSingleRegister (numberedDatabase n type) (numberedDomain type) place.attributes) =
        some [[⟨"REG", some type, .index index⟩]] := by
    rw [List.mapM_eq_some_iff]
    show [getBitfieldsOrEnumHandleFromBitset (numberedDatabase n type) (numberedDomain type)
      (some type) [] >>= _] = _
    rw [hget]
    rfl
  refine ⟨⟨[⟨"REG", some type, .index index⟩], reflection⟩, ?_, rfl⟩
  have hpackets : (numberedDatabase n type).enum "adreno_pm4_type3_packets" =
    some { name := "adreno_pm4_type3_packets", values := [("CP_NOP", some 0x10)] } := rfl
  have hdomain : (numberedDatabase n type).domain "A6XX" = some (numberedDomain type) := rfl
  simp only [generate, hpackets, hdomain, Option.bind_eq_bind, Option.bind_some]
  rw [if_pos ⟨by decide +kernel, enumsDistinct_numberedDatabase hn type⟩, hregisters, hreflection]
  rfl

theorem handlesFaithful_two : ∃ out, generate (numberedDatabase 2 "ā") = some out ∧
    HandlesFaithful (numberedDatabase 2 "ā") out ∧ ¬ TooManyEnums (numberedDatabase 2 "ā") := by
  obtain ⟨out, hout, -⟩ := @generate_numberedDatabase 2 (by decide) "ā" 2 (by decide) (by decide)
    (by decide)
  refine ⟨out, hout, (handlesFaithful_iff _ hout).mpr ?_⟩
  decide

/-- Number 255 stands for no enumeration, and of number 256 nothing is left in 8 bits. -/
theorem numberedDatabase_not_faithful :
    (∃ out, generate (numberedDatabase 256 "Ǿ") = some out ∧
      ¬ HandlesFaithful (numberedDatabase 256 "Ǿ") out) ∧
    (∃ out, generate (numberedDatabase 256 "ǿ") = some out ∧
      TooManyEnums (numberedDatabase 256 "ǿ") ∧
      ¬ HandlesFaithful (numberedDatabase 256 "ǿ") out) := by
  obtain ⟨out, hout, hwritten⟩ := @generate_numberedDatabase 256 (by decide) "Ǿ" 255 (by decide)
    (by decide +kernel) (by decide +kernel)
  obtain ⟨out', hout', hwritten'⟩ := @generate_numberedDatabase 256 (by decide) "ǿ" 256 (by decide)
    (by decide +kernel) (by decide +kernel)
  refine ⟨⟨out, hout, fun h => ?_⟩, out', hout', ⟨"ǿ", ?_, 256, ?_, by decide⟩, fun h => ?_⟩
  · exact (h _ (by rw [hwritten]; exact List.mem_singleton_self _) 255 rfl).notNone rfl
  · decide
  · decide +kernel
  · exact absurd (h _ (by rw [hwritten']; exact List.mem_singleton_self _) 256 rfl).fits (by decide)

end Faithful

end Dive.Adreno.Handles
