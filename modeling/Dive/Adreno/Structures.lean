import Dive.Adreno.Header
import Dive.Lib.Traverse

/-!
# Where the fields of the generated structures are

* `bits`, `FieldsApart`, `Holds`, `InOrder`: the bits of a field, whether fields are disjoint, are
  there, and are listed in ascending order.
* `kept`, `outputBitfields_eq`: the fields up to the first that comes out of order, padded.
* **`union_holds_iff`**: a union holds all its disjoint fields exactly when they are in order.
* `starts`, `Gapless`, **`starts_iff`**: the registers of a packet start where they are to exactly
  when no offset is skipped.
* **`structures_iff`**: both, for everything that is written.
-/

namespace Dive.Adreno.Header

/-- The bits of a field, under the type and the name of its member. -/
def bits (bitfield : Bitfield) : Option (BitRange (String × String)) := do
  let name ← memberName bitfield.name
  let (start, width) ← startWidth bitfield
  some ⟨(memberType bitfield, name), start, start + width - 1⟩

/-- No two of the fields have a bit in common. -/
def FieldsApart (fields : List Bitfield) : Prop := (fields.filterMap bits).Pairwise BitRange.Apart

/-- The field is there, at its bits of the dword. -/
def Holds (ranges : List (BitRange (String × String))) (field : Bitfield) : Prop :=
  ∃ r, bits field = some r ∧ r.Within 32 ∧ r ∈ ranges

/-- The fields have bits of the dword, each after those of the field before. -/
def InOrder (fields : List Bitfield) : Prop :=
  (∀ field ∈ fields, (bits field).isSome) ∧ AscendingBits 32 0 (fields.filterMap bits)

instance (ranges : List (BitRange (String × String))) : DecidablePred (Holds ranges) := fun field =>
  decidable_of_iff (∃ r ∈ bits field, r.Within 32 ∧ r ∈ ranges) (by simp [Holds])

instance : DecidablePred FieldsApart := fun _ => inferInstanceAs (Decidable (List.Pairwise _ _))

instance : DecidablePred InOrder := fun _ => inferInstanceAs (Decidable (_ ∧ _))

/-! ## The fields that are written -/

/-- The fields up to the first that comes out of order. -/
def kept : ℤ → List Bitfield → List (BitRange (String × String))
  | _, [] => []
  | cur, field :: fields =>
    match bits field with
    | none => []
    | some r => if cur > r.low then [] else r :: kept (r.high + 1) fields

theorem kept_sublist (cur : ℤ) (fields : List Bitfield) :
    (kept cur fields).Sublist (fields.filterMap bits) := by
  induction fields generalizing cur with
  | nil => exact List.Sublist.refl _
  | cons field fields ih =>
    rw [kept, List.filterMap_cons]
    cases hbits : bits field with
    | none => exact List.nil_sublist _
    | some r =>
      by_cases hgt : cur > r.low
      · simp [hgt]
      · simpa [hgt] using ih (r.high + 1)

theorem ascending_kept {cur : ℤ} {fields : List Bitfield}
    (h : ∀ r ∈ kept cur fields, r.Within 32) : AscendingBits 32 cur (kept cur fields) := by
  induction fields generalizing cur with
  | nil => trivial
  | cons field fields ih =>
    rw [kept] at h ⊢
    cases hbits : bits field with
    | none => trivial
    | some r =>
      by_cases hgt : cur > r.low
      · simp [hgt, AscendingBits]
      · simp only [hbits, hgt, if_false, List.mem_cons, forall_eq_or_imp] at h ⊢
        exact ⟨by omega, h.1, ih h.2⟩

theorem kept_of_ascending {cur : ℤ} {fields : List Bitfield}
    (hbits : ∀ field ∈ fields, (bits field).isSome)
    (h : AscendingBits 32 cur (fields.filterMap bits)) :
    kept cur fields = fields.filterMap bits := by
  induction fields generalizing cur with
  | nil => rfl
  | cons field fields ih =>
    obtain ⟨r, hr⟩ := Option.isSome_iff_exists.mp (hbits field (by simp))
    rw [List.filterMap_cons, hr] at h
    have hrest := ih (fun f hf => hbits f (by simp [hf])) h.2.2
    have hle : ¬ cur > r.low := not_lt.mpr h.1
    simp [kept, hr, hle, hrest]

theorem outputBitfields_eq {fields : List Bitfield} {cur endOffset : ℤ} {members : Members}
    (h : outputBitfields fields cur = some (members, endOffset)) :
    members = padded cur (kept cur fields) ∧ endOffset = lastBit cur (kept cur fields) := by
  induction fields generalizing cur endOffset members with
  | nil =>
    cases h
    exact ⟨rfl, rfl⟩
  | cons field fields ih =>
    rw [outputBitfields] at h
    obtain ⟨name, hname, h⟩ := Option.bind_eq_some_iff.mp h
    obtain ⟨⟨start, width⟩, hstart, h⟩ := Option.bind_eq_some_iff.mp h
    have hbits : bits field = some ⟨(memberType field, name), start, start + width - 1⟩ := by
      simp [bits, hname, hstart]
    simp only at h
    rw [kept, hbits]
    by_cases hgt : cur > start
    · rw [if_pos hgt] at h
      cases h
      simp [hgt, padded, lastBit]
    · rw [if_neg hgt] at h
      obtain ⟨⟨more, e⟩, hmore, h⟩ := Option.bind_eq_some_iff.mp h
      cases h
      have hrest := ih hmore
      have hnext : start + width - 1 + 1 = start + width := by omega
      have hwidth : start + width - 1 - start + 1 = width := by omega
      simp [hgt, padded, lastBit, hnext, hwidth, ← hrest.1, ← hrest.2]

/-! ## The unions -/

/-- The bits of the members of a union. -/
def RegUnion.ranges (u : RegUnion) : List (BitRange (String × String)) :=
  bitRanges 32 0 (u.members.getD [])

/-- The size of a union in bytes. -/
def RegUnion.bytes (u : RegUnion) : ℕ :=
  4 * max 1 ((endBit 32 0 (u.members.getD []) + 31) / 32).toNat

section Fields

variable (db : Database) (domain : Domain)

/-- The bit fields of a register: those of its bitset and its own. -/
def fieldsOf (reg : Register) : List Bitfield := bitsetFields db domain reg ++ reg.bitfields

/-- The fields of a register that are written. -/
def keptOf (reg : Register) : List (BitRange (String × String)) :=
  let first := kept 0 (bitsetFields db domain reg)
  first ++ kept (lastBit 0 first) reg.bitfields

variable {db domain}

theorem outputRegUnions_members {name : String} {reg : Register} {u : RegUnion}
    (h : outputRegUnions db domain name reg = some u) :
    u.members.getD [] = padded 0 (keptOf db domain reg) := by
  rw [outputRegUnions] at h
  obtain ⟨type, htype, h⟩ := Option.bind_eq_some_iff.mp h
  rw [keptOf, bitsetFields, htype, padded_append]
  cases type with
  | bitset bitset =>
    obtain ⟨⟨members, cur⟩, hmembers, h⟩ := Option.bind_eq_some_iff.mp h
    obtain ⟨⟨own, cur'⟩, hown, h⟩ := Option.bind_eq_some_iff.mp h
    cases h
    have hfirst := outputBitfields_eq hmembers
    have hsecond := outputBitfields_eq hown
    rw [hfirst.2] at hsecond
    simp [hfirst.1, hsecond.1]
  | enum name =>
    obtain ⟨⟨own, cur'⟩, hown, h⟩ := Option.bind_eq_some_iff.mp h
    cases h
    have heq := (outputBitfields_eq hown).1
    cases hfields : reg.bitfields <;> simp [kept, padded, lastBit, heq, hfields]
  | standard =>
    obtain ⟨⟨own, cur'⟩, hown, h⟩ := Option.bind_eq_some_iff.mp h
    cases h
    have heq := (outputBitfields_eq hown).1
    cases hfields : reg.bitfields <;> simp [kept, padded, lastBit, heq, hfields]

theorem keptOf_sublist (reg : Register) :
    (keptOf db domain reg).Sublist ((fieldsOf db domain reg).filterMap bits) := by
  rw [keptOf, fieldsOf, List.filterMap_append]
  exact (kept_sublist _ _).append (kept_sublist _ _)

theorem ascending_keptOf {reg : Register} (h : ∀ r ∈ keptOf db domain reg, r.Within 32) :
    AscendingBits 32 0 (keptOf db domain reg) := by
  simp only [keptOf, List.mem_append] at h ⊢
  exact (ascending_kept fun r hr => h r (.inl hr)).append
    (ascending_kept fun r hr => h r (.inr hr))

theorem keptOf_of_inOrder {reg : Register} (h : InOrder (fieldsOf db domain reg)) :
    keptOf db domain reg = (fieldsOf db domain reg).filterMap bits := by
  obtain ⟨hbits, hascending⟩ := h
  simp only [fieldsOf, List.mem_append, List.filterMap_append] at hbits hascending
  have hparts := hascending.of_append
  have hfirst := kept_of_ascending (fun f hf => hbits f (.inl hf)) hparts.1
  rw [← hfirst] at hparts
  have hsecond := kept_of_ascending (fun f hf => hbits f (.inr hf)) hparts.2
  rw [keptOf, hsecond, hfirst, fieldsOf, List.filterMap_append]

theorem layout_of_inOrder {name : String} {reg : Register} {u : RegUnion}
    (h : outputRegUnions db domain name reg = some u) (horder : InOrder (fieldsOf db domain reg)) :
    u.ranges = (fieldsOf db domain reg).filterMap bits ∧ u.bytes = 4 := by
  have hkept := keptOf_of_inOrder horder
  have hascending : AscendingBits 32 0 (keptOf db domain reg) := hkept ▸ horder.2
  have hlayout := bitRanges_padded le_rfl hascending
  have hend : lastBit 0 (keptOf db domain reg) ≤ 32 := hascending.lastBit_le (by omega)
  rw [RegUnion.ranges, RegUnion.bytes, outputRegUnions_members h, hlayout.1, hlayout.2, hkept]
  rw [hkept] at hend
  have hone : ((lastBit 0 ((fieldsOf db domain reg).filterMap bits) + 31) / 32).toNat ≤ 1 := by
    omega
  exact ⟨rfl, by rw [max_eq_left hone]⟩

theorem holds_of_inOrder {fields : List Bitfield} (h : InOrder fields) :
    ∀ field ∈ fields, Holds (fields.filterMap bits) field := by
  intro field hfield
  obtain ⟨r, hr⟩ := Option.isSome_iff_exists.mp (h.1 field hfield)
  have hmem : r ∈ fields.filterMap bits := List.mem_filterMap.mpr ⟨field, hfield, hr⟩
  exact ⟨r, hr, h.2.within r hmem, hmem⟩

/-- **A union holds all its fields exactly when they are listed in ascending order.** -/
theorem union_holds_iff {name : String} {reg : Register} {u : RegUnion}
    (h : outputRegUnions db domain name reg = some u)
    (hapart : FieldsApart (fieldsOf db domain reg)) :
    (∀ field ∈ fieldsOf db domain reg, Holds u.ranges field) ↔
      InOrder (fieldsOf db domain reg) := by
  constructor
  · intro hholds
    have hwithin : ∀ r ∈ (fieldsOf db domain reg).filterMap bits, r.Within 32 := by
      intro r hr
      obtain ⟨field, hfield, hbits⟩ := List.mem_filterMap.mp hr
      obtain ⟨s, hs, hwithin, -⟩ := hholds field hfield
      rw [hbits] at hs
      cases hs
      exact hwithin
    have hsub := @keptOf_sublist db domain reg
    have hascending := ascending_keptOf fun r hr => hwithin r (hsub.subset hr)
    have hranges : u.ranges = keptOf db domain reg := by
      rw [RegUnion.ranges, outputRegUnions_members h, (bitRanges_padded le_rfl hascending).1]
    have hall : ∀ r ∈ (fieldsOf db domain reg).filterMap bits, r ∈ keptOf db domain reg := by
      intro r hr
      obtain ⟨field, hfield, hbits⟩ := List.mem_filterMap.mp hr
      obtain ⟨s, hs, -, hmem⟩ := hholds field hfield
      rw [hbits] at hs
      cases hs
      exact hranges ▸ hmem
    have heq := eq_of_sublist_of_disjoint hsub hwithin hapart hall
    refine ⟨?_, heq ▸ hascending⟩
    intro field hfield
    obtain ⟨r, hr, -⟩ := hholds field hfield
    rw [hr]
    rfl
  · intro horder
    rw [(layout_of_inOrder h horder).1]
    exact holds_of_inOrder horder

/-! ## The packets -/

/-- The bits of the members that a packet has for a register. -/
def MemberBody.ranges : MemberBody → List (BitRange (String × String))
  | .regUnion body => body.ranges
  | _ => []

/-- The size of what a packet has for a register. -/
def MemberBody.bytes : MemberBody → ℕ
  | .uint32 _ => 4
  | .uint64 _ => 8
  | .regUnion body => body.bytes

/-- The registers of a packet with the bytes that they start at, from `start` on. -/
def starts : ℕ → List PacketMember → List (Register × ℕ)
  | _, [] => []
  | start, member :: members => (member.reg, start) :: starts (start + member.body.bytes) members

/-- After `dwordCount` dwords, a register that does not overlap what comes before it starts where
that ends. -/
def Gapless : ℕ → List Register → Prop
  | _, [] => True
  | dwordCount, reg :: regs =>
    if reg.offset < dwordCount then Gapless dwordCount regs
    else reg.offset = dwordCount ∧ Gapless (dwordCount + dwords reg) regs

instance decidableGapless : ∀ dwordCount regs, Decidable (Gapless dwordCount regs)
  | _, [] => .isTrue trivial
  | dwordCount, reg :: regs =>
    have := decidableGapless dwordCount regs
    have := decidableGapless (dwordCount + dwords reg) regs
    inferInstanceAs (Decidable (if reg.offset < dwordCount then Gapless dwordCount regs
      else reg.offset = dwordCount ∧ Gapless (dwordCount + dwords reg) regs))

/-- The type of the register is a built-in one. -/
def hasBuiltIn (reg : Register) : Bool := reg.type.any isBuiltInType

variable (db domain) in
/-- The fields are in order, and there are none where a plain integer is written. -/
def FieldsInPlace (reg : Register) : Prop :=
  InOrder (fieldsOf db domain reg) ∧
    (reg.is64 || hasBuiltIn reg → fieldsOf db domain reg = [])

instance : DecidablePred (FieldsInPlace db domain) := fun _ => inferInstanceAs (Decidable (_ ∧ _))

theorem inOrder_nil : InOrder [] := ⟨by simp, trivial⟩

theorem fieldsOf_of_no_type {reg : Register} (htype : reg.type = none)
    (hown : reg.bitfields = []) : fieldsOf db domain reg = [] := by
  simp [fieldsOf, bitsetFields, typeOf, customType, htype, hown]

theorem holds_nil_iff {fields : List Bitfield} :
    (∀ field ∈ fields, Holds [] field) ↔ fields = [] := by
  constructor
  · intro h
    apply List.eq_nil_iff_forall_not_mem.mpr
    intro field hfield
    obtain ⟨r, -, -, hmem⟩ := h field hfield
    cases hmem
  · intro h
    simp [h]

theorem body_holds_iff {reg : Register} {body : MemberBody}
    (h : outputPacketReg db domain reg = some body)
    (hapart : FieldsApart (fieldsOf db domain reg)) :
    (∀ field ∈ fieldsOf db domain reg, Holds body.ranges field) ↔
      FieldsInPlace db domain reg := by
  have hplain : (reg.is64 || hasBuiltIn reg) = true →
      ((∀ field ∈ fieldsOf db domain reg, Holds [] field) ↔ FieldsInPlace db domain reg) := by
    intro hinteger
    rw [holds_nil_iff]
    constructor
    · intro hnil
      exact ⟨hnil ▸ inOrder_nil, fun _ => hnil⟩
    · intro hplace
      exact hplace.2 hinteger
  rw [outputPacketReg] at h
  obtain ⟨name, -, h⟩ := Option.bind_eq_some_iff.mp h
  by_cases h64 : reg.is64 = true
  · rw [if_pos h64] at h
    simp only at h
    split at h
    · cases h
    · cases h
      exact hplain (by rw [h64, Bool.true_or])
  · rw [if_neg h64] at h
    by_cases hbuilt : usesBuiltIn reg = true
    · rw [if_pos hbuilt] at h
      cases h
      cases htype : reg.type with
      | some type =>
        rw [usesBuiltIn, htype] at hbuilt
        exact hplain (by simp [hasBuiltIn, htype, hbuilt])
      | none =>
        simp only [usesBuiltIn, htype, List.isEmpty_iff] at hbuilt
        have hnil : fieldsOf db domain reg = [] := fieldsOf_of_no_type htype hbuilt
        simp [FieldsInPlace, hnil, inOrder_nil]
    · rw [if_neg hbuilt] at h
      obtain ⟨u, hu, rfl⟩ := Option.map_eq_some_iff.mp h
      have hnot : (reg.is64 || hasBuiltIn reg) = false := by
        cases htype : reg.type with
        | none => simp [hasBuiltIn, htype, h64]
        | some type =>
          simp only [usesBuiltIn, htype, Bool.not_eq_true] at hbuilt
          simp [hasBuiltIn, htype, h64, hbuilt]
      rw [MemberBody.ranges, union_holds_iff hu hapart, FieldsInPlace, hnot]
      simp

theorem body_bytes {reg : Register} {body : MemberBody}
    (h : outputPacketReg db domain reg = some body) (hplace : FieldsInPlace db domain reg) :
    body.bytes = 4 * dwords reg := by
  rw [outputPacketReg] at h
  obtain ⟨name, -, h⟩ := Option.bind_eq_some_iff.mp h
  by_cases h64 : reg.is64 = true
  · rw [if_pos h64] at h
    simp only at h
    split at h
    · cases h
    · cases h
      rw [dwords, if_pos h64, MemberBody.bytes]
  · rw [if_neg h64] at h
    rw [dwords, if_neg h64]
    by_cases hbuilt : usesBuiltIn reg = true
    · rw [if_pos hbuilt] at h
      cases h
      rfl
    · rw [if_neg hbuilt] at h
      obtain ⟨u, hu, rfl⟩ := Option.map_eq_some_iff.mp h
      exact (layout_of_inOrder hu hplace.1).2

theorem member_of_outputPacketRegs {dwordCount : ℕ} {addressEndOffset : Option ℕ}
    {regs : List Register} {members : List PacketMember}
    (h : outputPacketRegs db domain dwordCount addressEndOffset regs = some members) :
    ∀ member ∈ members, outputPacketReg db domain member.reg = some member.body := by
  induction regs generalizing dwordCount addressEndOffset members with
  | nil =>
    cases h
    simp
  | cons reg regs ih =>
    rw [outputPacketRegs] at h
    by_cases hskip : dwordCount > reg.offset
    · rw [if_pos hskip] at h
      split at h
      · cases h
      · exact ih h
    · rw [if_neg hskip] at h
      obtain ⟨body, hbody, h⟩ := Option.bind_eq_some_iff.mp h
      obtain ⟨more, hmore, h⟩ := Option.bind_eq_some_iff.mp h
      cases h
      simpa [hbody] using ih hmore

/-- **The registers of a packet start where they are to exactly when no offset is skipped.** -/
theorem starts_iff {dwordCount : ℕ} {addressEndOffset : Option ℕ} {regs : List Register}
    {members : List PacketMember}
    (h : outputPacketRegs db domain dwordCount addressEndOffset regs = some members)
    (hbytes : ∀ member ∈ members, member.body.bytes = 4 * dwords member.reg) :
    (∀ x ∈ starts (4 * (dwordCount + 1)) members, x.2 = 4 * (x.1.offset + 1)) ↔
      Gapless dwordCount regs := by
  induction regs generalizing dwordCount addressEndOffset members with
  | nil =>
    cases h
    simp [starts, Gapless]
  | cons reg regs ih =>
    rw [outputPacketRegs] at h
    rw [Gapless]
    by_cases hskip : dwordCount > reg.offset
    · rw [if_pos hskip] at h ⊢
      split at h
      · cases h
      · exact ih h hbytes
    · rw [if_neg hskip] at h ⊢
      obtain ⟨body, hbody, h⟩ := Option.bind_eq_some_iff.mp h
      obtain ⟨more, hmore, h⟩ := Option.bind_eq_some_iff.mp h
      cases h
      have hsize : body.bytes = 4 * dwords reg := hbytes ⟨reg, body⟩ (by simp)
      have hrest := ih hmore fun member hmember => hbytes member (by simp [hmember])
      have hnext : 4 * (dwordCount + 1) + body.bytes = 4 * (dwordCount + dwords reg + 1) := by
        omega
      rw [starts, List.forall_mem_cons, hnext, hrest]
      refine and_congr_left fun _ => ?_
      show 4 * (dwordCount + 1) = 4 * (reg.offset + 1) ↔ reg.offset = dwordCount
      omega

end Fields

/-! ## Everything that is written -/

section Generated

variable {db : Database}

/-- The fields of the registers that are written are disjoint. -/
def PacketStruct.Disjoint (db : Database) (packet : PacketStruct) : Prop :=
  ∀ member ∈ packet.members, FieldsApart (fieldsOf db packet.domain member.reg)

/-- Every field of a register that is written is at its bits, and the register is at its offset
after the header. -/
def PacketStruct.Faithful (db : Database) (packet : PacketStruct) : Prop :=
  (∀ member ∈ packet.members, ∀ field ∈ fieldsOf db packet.domain member.reg,
    Holds member.body.ranges field) ∧
  ∀ x ∈ starts 4 packet.members, x.2 = 4 * (x.1.offset + 1)

instance : DecidablePred (PacketStruct.Disjoint db) := fun packet =>
  inferInstanceAs (Decidable (∀ member ∈ packet.members, _))

instance : DecidablePred (PacketStruct.Faithful db) := fun packet =>
  inferInstanceAs (Decidable ((∀ member ∈ packet.members, ∀ field ∈ _, _) ∧
    ∀ x ∈ starts 4 packet.members, _))

/-- The registers that are not skipped because they overlap what comes before. -/
def unskipped : ℕ → List Register → List Register
  | _, [] => []
  | dwordCount, reg :: regs =>
    if reg.offset < dwordCount then unskipped dwordCount regs
    else reg :: unskipped (dwordCount + dwords reg) regs

theorem reg_members {domain : Domain} {dwordCount : ℕ} {addressEndOffset : Option ℕ}
    {regs : List Register} {members : List PacketMember}
    (h : outputPacketRegs db domain dwordCount addressEndOffset regs = some members) :
    members.map (·.reg) = unskipped dwordCount regs := by
  induction regs generalizing dwordCount addressEndOffset members with
  | nil =>
    cases h
    rfl
  | cons reg regs ih =>
    rw [outputPacketRegs] at h
    rw [unskipped]
    by_cases hskip : dwordCount > reg.offset
    · rw [if_pos hskip] at h ⊢
      split at h
      · cases h
      · exact ih h
    · rw [if_neg hskip] at h ⊢
      obtain ⟨body, hbody, h⟩ := Option.bind_eq_some_iff.mp h
      obtain ⟨more, hmore, h⟩ := Option.bind_eq_some_iff.mp h
      cases h
      rw [List.map_cons, ih hmore]

theorem outputPacket_members {domain : Domain} {isPm4 : Bool} {stripe : Option Stripe}
    {packet : PacketStruct} (h : outputPacket db domain isPm4 stripe = some packet) :
    outputPacketRegs db packet.domain 0 none packet.regs = some packet.members := by
  simp only [outputPacket] at h
  split at h
  · obtain ⟨members, hmembers, h⟩ := Option.bind_eq_some_iff.mp h
    cases h
    exact hmembers
  · cases h

theorem packet_faithful_iff {packet : PacketStruct}
    (h : outputPacketRegs db packet.domain 0 none packet.regs = some packet.members)
    (hdisjoint : packet.Disjoint db) :
    packet.Faithful db ↔
      (∀ reg ∈ unskipped 0 packet.regs, FieldsInPlace db packet.domain reg) ∧
        Gapless 0 packet.regs := by
  have hmember := member_of_outputPacketRegs h
  have hfields : (∀ member ∈ packet.members, ∀ field ∈ fieldsOf db packet.domain member.reg,
        Holds member.body.ranges field) ↔
      ∀ reg ∈ unskipped 0 packet.regs, FieldsInPlace db packet.domain reg := by
    rw [← reg_members h, List.forall_mem_map]
    refine forall₂_congr fun member hmem => ?_
    exact body_holds_iff (hmember member hmem) (hdisjoint member hmem)
  rw [PacketStruct.Faithful, hfields]
  refine and_congr_right fun hplace => ?_
  apply starts_iff h
  intro member hmem
  have hreg : member.reg ∈ unskipped 0 packet.regs :=
    reg_members h ▸ List.mem_map_of_mem hmem
  exact body_bytes (hmember member hmem) (hplace member.reg hreg)

theorem packet_of_outputDomain {pm4TypePackets : Enum} {domain : Domain}
    {packets : List PacketStruct} (h : outputDomain db pm4TypePackets domain = some packets)
    {packet : PacketStruct} (hpacket : packet ∈ packets) :
    outputPacketRegs db packet.domain 0 none packet.regs = some packet.members := by
  rw [outputDomain] at h
  split at h
  · cases h
    cases hpacket
  · split at h
    · cases h
      cases hpacket
    · obtain ⟨stripe, -, hstripe⟩ := List.exists_of_mem_mapM h hpacket
      exact outputPacket_members hstripe

theorem written_of_generate {output : Output} (h : generate db = some output) :
    (∀ packet ∈ output.packets,
      outputPacketRegs db packet.domain 0 none packet.regs = some packet.members) ∧
    ∀ entry ∈ output.unions, ∃ name,
      outputRegUnions db output.a6xxDomain name entry.1 = some entry.2 := by
  obtain ⟨packets, hpackets, h⟩ := Option.bind_eq_some_iff.mp h
  obtain ⟨a6xxDomain, -, h⟩ := Option.bind_eq_some_iff.mp h
  obtain ⟨unions, hunions, h⟩ := Option.bind_eq_some_iff.mp h
  cases h
  constructor
  · intro packet hpacket
    obtain ⟨pm4TypePackets, -, hpackets⟩ := Option.bind_eq_some_iff.mp hpackets
    obtain ⟨structs, hstructs, hflatten⟩ := Option.bind_eq_some_iff.mp hpackets
    cases hflatten
    obtain ⟨ofDomain, hmem, hpacket⟩ := List.mem_flatten.mp hpacket
    obtain ⟨domain, -, hdomain⟩ := List.exists_of_mem_mapM hstructs hmem
    exact packet_of_outputDomain hdomain hpacket
  · intro entry hentry
    obtain ⟨⟨name, reg⟩, -, hreg⟩ := List.exists_of_mem_mapM hunions hentry
    obtain ⟨body, hbody, rfl⟩ := Option.map_eq_some_iff.mp hreg
    exact ⟨name, hbody⟩

/-- **The structures are faithful exactly when fields are listed in ascending order, where a plain
integer is written there are none, and the offsets of a packet have no gap.** -/
theorem structures_iff {output : Output} (h : generate db = some output) :
    (∀ entry ∈ output.unions, FieldsApart (fieldsOf db output.a6xxDomain entry.1) →
      ((∀ field ∈ fieldsOf db output.a6xxDomain entry.1, Holds entry.2.ranges field) ↔
        InOrder (fieldsOf db output.a6xxDomain entry.1))) ∧
    ∀ packet ∈ output.packets, packet.Disjoint db →
      (packet.Faithful db ↔
        (∀ reg ∈ unskipped 0 packet.regs, FieldsInPlace db packet.domain reg) ∧
          Gapless 0 packet.regs) := by
  have hwritten := written_of_generate h
  constructor
  · intro entry hentry hapart
    obtain ⟨name, hname⟩ := hwritten.2 entry hentry
    exact union_holds_iff hname hapart
  · intro packet hpacket hdisjoint
    exact packet_faithful_iff (hwritten.1 packet hpacket) hdisjoint

end Generated

/-- An excerpt of the database in the repository. -/
def timestampDatabase : Database where
  enums := [
    { name := "adreno_pm4_type3_packets", values := [("CP_WAIT_TIMESTAMP", some 0x14)] },
    { name := "ts_wait_type", inRoot := false,
      values := [("TS_WAIT_RAM", some 0), ("TS_WAIT_ONCHIP", some 1)] }]
  domains := [
    { name := "A6XX"
      bitsets := [
        { name := "a6xx_event_initiator"
          bitfields := [
            { name := "STATE_ID", low := some 16, high := some 23 },
            { name := "EVENT", low := some 0, high := some 6, type := some "vgt_event_type" }] }]
      registers := [
        { name := "PC_EVENT_INITIATOR", offset := 0x9842, type := some "a6xx_event_initiator" }] },
    { name := "CP_WAIT_TIMESTAMP"
      registers := [
        { name := "0", offset := 0
          bitfields := [{ name := "WAIT_DST", pos := some 4, type := some "ts_wait_type" }] },
        { name := "SRC_0", offset := 3 }, { name := "SRC_1", offset := 4 }]
      stripes := [
        { varset := "ts_wait_type", variants := "TS_WAIT_RAM"
          registers := [{ name := "ADDR", offset := 1, is64 := true, type := some "address" }] },
        { varset := "ts_wait_type", variants := "TS_WAIT_ONCHIP"
          registers := [{ name := "ONCHIP_ADDR_0", offset := 1 }] }] }]

/-- What is written for the excerpt. -/
def timestampOutput : Output :=
  (generate timestampDatabase).get (by decide +kernel)

theorem generate_timestampDatabase : generate timestampDatabase = some timestampOutput :=
  (Option.some_get _).symm

/-- The first of the packets is faithful. -/
theorem structures_timestamp : ∃ packet ∈ timestampOutput.packets,
    packet.name = "PM4_CP_WAIT_TIMESTAMP_TS_WAIT_RAM" ∧ packet.Faithful timestampDatabase := by
  have hfound : ∃ packet ∈ timestampOutput.packets,
      packet.name = "PM4_CP_WAIT_TIMESTAMP_TS_WAIT_RAM" ∧ packet.Disjoint timestampDatabase ∧
        (∀ reg ∈ unskipped 0 packet.regs,
          FieldsInPlace timestampDatabase packet.domain reg) ∧
        Gapless 0 packet.regs := by decide +kernel
  obtain ⟨packet, hpacket, hname, hdisjoint, hplace⟩ := hfound
  have hiff := (structures_iff generate_timestampDatabase).2 packet hpacket hdisjoint
  exact ⟨packet, hpacket, hname, hiff.mpr hplace⟩

/-- The union of `PC_EVENT_INITIATOR` has no `EVENT`, and in the second packet `SRC_0` is one dword
too early. -/
theorem timestamp_not_faithful : generate timestampDatabase = some timestampOutput ∧
    (∃ entry ∈ timestampOutput.unions,
      FieldsApart (fieldsOf timestampDatabase timestampOutput.a6xxDomain entry.1) ∧
      ¬ ∀ field ∈ fieldsOf timestampDatabase timestampOutput.a6xxDomain entry.1,
        Holds entry.2.ranges field) ∧
    ∃ packet ∈ timestampOutput.packets, packet.Disjoint timestampDatabase ∧
      ¬ packet.Faithful timestampDatabase :=
  ⟨generate_timestampDatabase, by decide +kernel⟩

end Dive.Adreno.Header
