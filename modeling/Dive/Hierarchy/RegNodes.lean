import Dive.Lib.Bytes
import Dive.Memory.Image
import Dive.Memory.TempMemory
import Dive.Pm4.Registers

/-!
# The register nodes of a packet

* `RegNode`, `type4Nodes`, `bunchNodes`: the two `AppendRegNodes` of the hierarchy creator.
* `RegNode.pairs`: the register writes that a node stands for.
* `showsWrites_iff`: the nodes are the writes of the tracker, if lookups of eight bytes show what
  two of four bytes show.
* `onPacket_regNodes`: the tracker holds what such nodes show.
* **`regNodes_pairs_iff`**: which packets these are, for a raw command stream and for a capture.
-/

namespace Dive

/-- One call of `AddRegisterNode`: the register, its value, and whether the value has been read
with a high dword. -/
structure RegNode where
  offset : UInt32
  value : UInt64
  hasHigh : Bool
  deriving DecidableEq

/-- The low dword, and the high dword at the next register. -/
def RegNode.pairs (node : RegNode) : List (UInt32 × UInt32) :=
  (node.offset, (node.value &&& 0xFFFFFFFF).toUInt32) ::
    if node.hasHigh then [(node.offset + 1, (node.value >>> 32).toUInt32)] else []

namespace CapturedPacket

variable (p : CapturedPacket)

/-- `reg_value` after `sizeToRead` bytes were read over it from `dword` on. -/
def regValue (dword : ℕ) (sizeToRead : UInt64) : UInt64 :=
  (p.memManager.retrieveMemoryData Buffer.zero p.submitIndex (p.dwordAddr dword) sizeToRead).2.u64 0

/-- `AppendRegNodes` on a type 4 packet, from `dword` on. -/
def type4Nodes (table : RegTable) (dword : ℕ) : List RegNode :=
  if dword < p.header.type4Count.toNat then
    let regOffset := p.header.type4Offset + UInt32.ofNat dword
    if table.is64Bit regOffset then
      ⟨regOffset, p.regValue dword 8, true⟩ :: type4Nodes table (dword + 2)
    else ⟨regOffset, p.regValue dword 4, false⟩ :: type4Nodes table (dword + 1)
  else []
termination_by p.header.type4Count.toNat - dword

/-- `AppendRegNodes` on pairs of registers and values, from `dword` on. -/
def bunchNodes (table : RegTable) (dword : ℕ) : List RegNode :=
  if dword < p.header.type7Count.toNat then
    let regPair := p.regPair dword
    let newRegPair := p.regPair (dword + 2)
    if table.is64Bit regPair.1 && newRegPair.1 = regPair.1 + 1 then
      ⟨regPair.1, regPair.2.toUInt64 ||| newRegPair.2.toUInt64 <<< 32, true⟩ ::
        bunchNodes table (dword + 4)
    else ⟨regPair.1, regPair.2.toUInt64, false⟩ :: bunchNodes table (dword + 2)
  else []
termination_by p.header.type7Count.toNat - dword

/-- The register nodes that `AddPacketNode` puts under a packet. -/
def regNodes (table : RegTable) : List RegNode :=
  if p.header.isOpcode CP_CONTEXT_REG_BUNCH then p.bunchNodes table 0
  else if p.header.type = 4 then p.type4Nodes table 0
  else []

variable {p} {table : RegTable}

/-! ## What a node stands for -/

theorem pairs_single (offset low : UInt32) :
    RegNode.pairs ⟨offset, low.toUInt64, false⟩ = [(offset, low)] := by
  have hlow := (UInt64.halves_join 0 low).2
  rw [show (0 : UInt32).toUInt64 <<< 32 ||| low.toUInt64 = low.toUInt64 by simp] at hlow
  simp [RegNode.pairs, hlow]

theorem pairs_double (offset low high : UInt32) :
    RegNode.pairs ⟨offset, low.toUInt64 ||| high.toUInt64 <<< 32, true⟩ =
      [(offset, low), (offset + 1, high)] := by
  obtain ⟨hhigh, hlow⟩ := UInt64.halves_join high low
  rw [UInt64.or_comm] at hhigh hlow
  simp only [RegNode.pairs, hhigh, hlow, if_true]

/-! ## Bunches of pairs -/

theorem bunchNodes_single {dword : ℕ} (h : dword < p.header.type7Count.toNat)
    (hhalves : ¬ p.Halves table dword) :
    p.bunchNodes table dword =
      ⟨(p.regPair dword).1, (p.regPair dword).2.toUInt64, false⟩ ::
        p.bunchNodes table (dword + 2) := by
  rw [bunchNodes, if_pos h]
  simp only [Halves] at hhalves
  simp [hhalves]

theorem bunchNodes_double {dword : ℕ} (h : dword < p.header.type7Count.toNat)
    (hhalves : p.Halves table dword) :
    p.bunchNodes table dword =
      ⟨(p.regPair dword).1,
        (p.regPair dword).2.toUInt64 ||| (p.regPair (dword + 2)).2.toUInt64 <<< 32, true⟩ ::
        p.bunchNodes table (dword + 4) := by
  rw [bunchNodes, if_pos h]
  simp [hhalves.1, hhalves.2]

theorem bunchNodes_end {dword : ℕ} (h : p.header.type7Count.toNat ≤ dword) :
    p.bunchNodes table dword = [] := by
  rw [bunchNodes, if_neg (not_lt.mpr h)]

theorem bunchNodes_pairs (p : CapturedPacket) (table : RegTable) (dword : ℕ) :
    (p.bunchNodes table dword).flatMap RegNode.pairs =
      (p.bunchWrites table dword).map RegWrite.pair := by
  induction hn : p.header.type7Count.toNat - dword using Nat.strong_induction_on generalizing dword
    with
  | _ n ih =>
    by_cases h : dword < p.header.type7Count.toNat
    · by_cases hhalves : p.Halves table dword
      · rw [bunchNodes_double h hhalves, bunchWrites_double h hhalves, List.flatMap_cons,
          ih _ (by omega) (dword + 4) rfl, pairs_double, ← hhalves.2]
        rfl
      · rw [bunchNodes_single h hhalves, bunchWrites_single h hhalves, List.flatMap_cons,
          ih _ (by omega) (dword + 2) rfl, pairs_single]
        rfl
    · rw [bunchNodes_end (not_lt.mp h), bunchWrites_end (not_lt.mp h)]
      rfl

/-! ## Type 4 -/

/-- A lookup of four bytes shows a dword. -/
def ReadsFour (p : CapturedPacket) (dword : ℕ) : Prop :=
  p.regValue dword 4 = (p.payloadDword dword).toUInt64

/-- A lookup of eight bytes shows what two lookups of four bytes show. -/
def ReadsEight (p : CapturedPacket) (dword : ℕ) : Prop :=
  p.regValue dword 8 =
    (p.payloadDword dword).toUInt64 ||| (p.payloadDword (dword + 1)).toUInt64 <<< 32

/-- The dwords of the 64-bit registers of a type 4 packet, from `dword` on. -/
def type4Doubles (p : CapturedPacket) (table : RegTable) (dword : ℕ) : List ℕ :=
  if dword < p.header.type4Count.toNat then
    if table.is64Bit (p.header.type4Offset + UInt32.ofNat dword) then
      dword :: type4Doubles p table (dword + 2)
    else type4Doubles p table (dword + 1)
  else []
termination_by p.header.type4Count.toNat - dword

/-- **The dwords at which the packet has a 64-bit register.** -/
def doubles (p : CapturedPacket) (table : RegTable) : List ℕ :=
  if p.header.isOpcode CP_CONTEXT_REG_BUNCH then []
  else if p.header.type = 4 then p.type4Doubles table 0
  else []

/-- **The nodes under the packet show what the tracker writes.** -/
def ShowsWrites (p : CapturedPacket) (table : RegTable) : Prop :=
  (p.regNodes table).flatMap RegNode.pairs = (p.regWrites table).map RegWrite.pair

theorem type4Nodes_single {dword : ℕ} (h : dword < p.header.type4Count.toNat)
    (h64 : table.is64Bit (p.header.type4Offset + UInt32.ofNat dword) = false) :
    p.type4Nodes table dword =
      ⟨p.header.type4Offset + UInt32.ofNat dword, p.regValue dword 4, false⟩ ::
        p.type4Nodes table (dword + 1) := by
  rw [type4Nodes, if_pos h]
  simp [h64]

theorem type4Nodes_double {dword : ℕ} (h : dword < p.header.type4Count.toNat)
    (h64 : table.is64Bit (p.header.type4Offset + UInt32.ofNat dword) = true) :
    p.type4Nodes table dword =
      ⟨p.header.type4Offset + UInt32.ofNat dword, p.regValue dword 8, true⟩ ::
        p.type4Nodes table (dword + 2) := by
  rw [type4Nodes, if_pos h]
  simp [h64]

theorem type4Nodes_end {dword : ℕ} (h : p.header.type4Count.toNat ≤ dword) :
    p.type4Nodes table dword = [] := by
  rw [type4Nodes, if_neg (not_lt.mpr h)]

theorem mem_type4Doubles {dword d : ℕ} (h : d ∈ p.type4Doubles table dword) :
    d < p.header.type4Count.toNat := by
  induction hn : p.header.type4Count.toNat - dword using Nat.strong_induction_on generalizing dword
    with
  | _ n ih =>
    rw [type4Doubles] at h
    split_ifs at h with hlt h64
    · rcases List.mem_cons.mp h with rfl | h
      · exact hlt
      · exact ih _ (by omega) h rfl
    · exact ih _ (by omega) h rfl
    · cases h

theorem pairs_double_iff (offset low high : UInt32) (value : UInt64) :
    RegNode.pairs ⟨offset, value, true⟩ = [(offset, low), (offset + 1, high)] ↔
      value = low.toUInt64 ||| high.toUInt64 <<< 32 := by
  constructor
  · intro h
    simp only [RegNode.pairs, if_true, List.cons.injEq, Prod.mk.injEq, true_and, and_true] at h
    rw [← h.1, ← h.2, UInt64.or_comm]
    exact (UInt64.of_halves value).symm
  · rintro rfl
    exact pairs_double offset low high

/-- **The two loops over a type 4 packet agree where eight bytes are twice four.** -/
theorem type4Nodes_pairs_iff (hp : ∀ dword < p.header.type4Count.toNat, p.ReadsFour dword)
    (dword : ℕ) :
    (p.type4Nodes table dword).flatMap RegNode.pairs =
        (p.type4Writes table dword).map RegWrite.pair ↔
      ∀ d ∈ p.type4Doubles table dword, p.ReadsEight d := by
  induction hn : p.header.type4Count.toNat - dword using Nat.strong_induction_on generalizing dword
    with
  | _ n ih =>
    rw [type4Doubles]
    by_cases h : dword < p.header.type4Count.toNat
    · rw [if_pos h]
      cases h64 : table.is64Bit (p.header.type4Offset + UInt32.ofNat dword) with
      | true =>
        have hpair : [RegWrite.pair (p.type4Write dword), RegWrite.pair (p.type4Write (dword + 1))] =
            [(p.header.type4Offset + UInt32.ofNat dword, p.payloadDword dword),
              (p.header.type4Offset + UInt32.ofNat dword + 1, p.payloadDword (dword + 1))] := by
          simp [type4Write, RegWrite.pair, UInt32.add_assoc]
        rw [if_pos rfl, type4Nodes_double h h64, type4Writes_double h h64, List.flatMap_cons,
          List.map_cons, List.map_cons, List.forall_mem_cons, ← ih _ (by omega) (dword + 2) rfl]
        show _ = [RegWrite.pair (p.type4Write dword), RegWrite.pair (p.type4Write (dword + 1))] ++
          _ ↔ _
        rw [hpair, ReadsEight, ← pairs_double_iff (p.header.type4Offset + UInt32.ofNat dword)]
        exact ⟨fun heq => List.append_inj heq rfl, fun h => by rw [h.1, h.2]⟩
      | false =>
        rw [if_neg Bool.false_ne_true, type4Nodes_single h h64, type4Writes_single h h64,
          List.flatMap_cons, hp dword h, pairs_single, ← ih _ (by omega) (dword + 1) rfl]
        exact List.cons_inj_right _
    · rw [type4Nodes_end (not_lt.mp h), type4Writes_end (not_lt.mp h), if_neg h]
      simp

/-- **The nodes of a packet show its writes where eight bytes are twice four.** -/
theorem showsWrites_iff (hp : ∀ dword < p.header.type4Count.toNat, p.ReadsFour dword) :
    p.ShowsWrites table ↔ ∀ d ∈ p.doubles table, p.ReadsEight d := by
  rw [ShowsWrites, regNodes, regWrites, doubles]
  split_ifs with hbunch htype
  · exact iff_of_true (bunchNodes_pairs p table 0) (by simp)
  · exact type4Nodes_pairs_iff hp 0
  · exact iff_of_true rfl (by simp)

theorem mem_doubles {d : ℕ} (h : d ∈ p.doubles table) : d < p.header.type4Count.toNat := by
  rw [doubles] at h
  split_ifs at h
  · cases h
  · exact mem_type4Doubles h
  · cases h

/-! ## Addresses -/

theorem dwordAddr_succ (p : CapturedPacket) (dword : ℕ) :
    p.dwordAddr (dword + 1) = p.dwordAddr dword + 4 := by
  unfold dwordAddr
  rw [UInt64.ofNat_add, UInt64.add_mul, ← UInt64.add_assoc]
  rfl

theorem toNat_dwordAddr (p : CapturedPacket) (dword : ℕ) :
    (p.dwordAddr dword).toNat = (p.vaAddr.toNat + 4 + 4 * dword) % 2 ^ 64 := by
  unfold dwordAddr
  have h4 : (4 : UInt64).toNat = 4 := by decide
  rw [UInt64.toNat_add, UInt64.toNat_add, UInt64.toNat_mul, UInt64.toNat_ofNat', h4]
  omega

theorem readsEight_of_bytes (byte : ℕ → UInt8) {dword : ℕ}
    (hlt : (p.dwordAddr dword).toNat + 8 < 2 ^ 64)
    (hread : ∀ addr size : UInt64, 0 < size → (p.dwordAddr dword).toNat ≤ addr.toNat →
      addr.toNat + size.toNat ≤ (p.dwordAddr dword).toNat + 8 →
      p.memManager.ReadsBytes p.submitIndex byte addr size) : p.ReadsEight dword := by
  have e8 : (8 : UInt64).toNat = 8 := by decide
  have e4 : (4 : UInt64).toNat = 4 := by decide
  have hnext : (p.dwordAddr dword + 4).toNat = (p.dwordAddr dword).toNat + 4 := by
    rw [UInt64.toNat_add, e4]
    omega
  rw [ReadsEight, payloadDword, payloadDword, dwordAddr_succ]
  exact u64_of_readsBytes hlt (hread _ 8 (by decide) le_rfl (by omega))
    (hread _ 4 (by decide) le_rfl (by omega)) (hread _ 4 (by decide) (by omega) (by omega))

theorem readsEight_iff_of_zero {dword : ℕ} (h : p.regValue dword 8 = 0) :
    p.ReadsEight dword ↔ p.payloadDword dword = 0 ∧ p.payloadDword (dword + 1) = 0 := by
  rw [ReadsEight, h]
  constructor
  · intro hzero
    obtain ⟨hhigh, hlow⟩ :=
      UInt64.halves_join (p.payloadDword (dword + 1)) (p.payloadDword dword)
    rw [UInt64.or_comm, ← hzero] at hhigh hlow
    exact ⟨hlow.symm, hhigh.symm⟩
  · rintro ⟨hlow, hhigh⟩
    rw [hlow, hhigh]
    rfl

end CapturedPacket

/-! ## A raw command stream -/

theorem Pm4Header.type4Count_lt (h : Pm4Header) : h.type4Count.toNat < 2 ^ 7 := by
  have hand : h.type4Count.toNat = (h.u32All >>> 0).toNat &&& 2 ^ 7 - 1 := UInt32.toNat_and ..
  rw [hand]
  exact Nat.and_lt_two_pow _ (by decide)

section Stream

variable {w : TempMemoryManager} {table : RegTable} {p : CapturedPacket}

theorem showsWrites_stream_iff (hp : p.memManager = w.toInterface)
    (hin : p.vaAddr.toNat + 4 ≤ 4 * w.sizeInDwords.toNat) :
    p.ShowsWrites table ↔ ∀ d ∈ p.doubles table,
      (p.dwordAddr d).toNat + 8 ≤ 4 * w.sizeInDwords.toNat ∨ p.payloadDword d = 0 := by
  have e8 : (8 : UInt64).toNat = 8 := by decide
  have e4 : (4 : UInt64).toNat = 4 := by decide
  have hsize := w.sizeInDwords.toNat_lt
  have hcount := p.header.type4Count_lt
  have hread (addr size : UInt64) (hle : addr.toNat + size.toNat ≤ 4 * w.sizeInDwords.toNat) :
      p.memManager.ReadsBytes p.submitIndex w.byteAt addr size := by
    rw [IMemoryManager.ReadsBytes, hp, w.toInterface_eq _ _ (by omega), if_pos hle]
    rfl
  have hnone (addr size : UInt64) (hlt : addr.toNat + size.toNat < 2 ^ 64)
      (hpast : 4 * w.sizeInDwords.toNat < addr.toNat + size.toNat) :
      (p.memManager.retrieveMemoryData Buffer.zero p.submitIndex addr size).2 = Buffer.zero := by
    rw [hp, w.toInterface_eq _ _ hlt, if_neg (by omega)]
  have haddr (dword : ℕ) (h : dword < p.header.type4Count.toNat) :
      (p.dwordAddr dword).toNat = p.vaAddr.toNat + 4 + 4 * dword := by
    rw [p.toNat_dwordAddr, Nat.mod_eq_of_lt (by omega)]
  have hfour (dword : ℕ) (h : dword < p.header.type4Count.toNat) : p.ReadsFour dword := by
    have hlt := haddr dword h
    by_cases hle : (p.dwordAddr dword).toNat + 4 ≤ 4 * w.sizeInDwords.toNat
    · exact u64_of_four _ (.inr (hread _ _ (by rw [e4]; exact hle)))
    · exact u64_of_four w.byteAt (.inl (hnone _ _ (by omega) (by omega)))
  rw [CapturedPacket.showsWrites_iff hfour]
  refine forall₂_congr fun d hd => ?_
  have hd' := CapturedPacket.mem_doubles hd
  have hlt := haddr d hd'
  by_cases hle : (p.dwordAddr d).toNat + 8 ≤ 4 * w.sizeInDwords.toNat
  · refine iff_of_true (CapturedPacket.readsEight_of_bytes w.byteAt (by omega) ?_)
      (.inl hle)
    exact fun addr size _ _ hend => hread addr size (hend.trans hle)
  · have hnext : (p.dwordAddr (d + 1)).toNat = (p.dwordAddr d).toNat + 4 := by
      rw [p.dwordAddr_succ, UInt64.toNat_add, e4]
      omega
    have hvalue : p.regValue d 8 = 0 := by
      rw [CapturedPacket.regValue, hnone _ _ (by omega) (by omega)]
      rfl
    have hhigh : p.payloadDword (d + 1) = 0 := by
      rw [CapturedPacket.payloadDword, hnone _ _ (by omega) (by omega)]
      rfl
    rw [CapturedPacket.readsEight_iff_of_zero hvalue]
    exact ⟨fun h => .inr h.1, fun h => ⟨h.resolve_left hle, hhigh⟩⟩

end Stream

/-! ## A capture -/

section Capture

variable {m : MemoryManager} {table : RegTable} {submitIndex : UInt32} {vaAddr : UInt64}
  {header : Pm4Header}

/-- The block that was used last holds an address. -/
def MemoryManager.LastHolds (m : MemoryManager) (submitIndex : UInt32) (vaAddr : UInt64) : Prop :=
  ∃ b, m.lastUsedBlock = some b ∧ m.validSubmit submitIndex b = true ∧ vaAddr.toNat ∈ b.extent

/-- **A lookup that reaches `2 ^ 64`** from where the last-used block is reads out of bounds. -/
theorem retrieveMemoryData_none (hm : m.Finalized) (hl : m.LastReachable)
    (hheld : m.LastHolds submitIndex vaAddr) {addr : UInt64} (hle : vaAddr ≤ addr)
    (hfar : 8 < vaAddr.toNat) (hpast : 2 ^ 64 ≤ addr.toNat + 8) :
    m.retrieveMemoryData Buffer.zero submitIndex addr 8 = none := by
  have e8 : (8 : UInt64).toNat = 8 := by decide
  obtain ⟨b, hlast, hsubmit, hmem⟩ := hheld
  have haddressable := (hl b hlast).2
  rw [MemoryBlock.mem_extent] at hmem
  rw [UInt64.le_iff_toNat_le] at hle
  have hlt := addr.toNat_lt
  have hend : (addr + 8).toNat = addr.toNat + 8 - 2 ^ 64 := by
    rw [UInt64.toNat_add, e8]
    omega
  have hencompasses : b.encompasses addr 8 = true := by
    rw [MemoryBlock.encompasses, Bool.and_eq_true, decide_eq_true_eq, decide_eq_true_eq,
      UInt64.le_iff_toNat_le, UInt64.le_iff_toNat_le, hend,
      MemoryBlock.toNat_endAddr_of_addressable haddressable]
    omega
  refine (MemoryManager.retrieveMemoryData_wrapped hm hl submitIndex
    (by rw [e8]; exact hpast) Buffer.zero).2 fun hno => ?_
  have hpath : m.fastPath submitIndex addr 8 = some b := by
    rw [MemoryManager.fastPath, hlast, Option.filter_some, hsubmit, hencompasses]
    rfl
  rw [hno.1] at hpath
  cases hpath

theorem showsWrites_capture_iff {p : CapturedPacket} (hp : p.memManager = m.toInterface)
    (hm : m.Finalized) (hl : m.LastReachable) (hheld : m.LastHolds p.submitIndex p.vaAddr) :
    (∀ d ∈ p.doubles table,
        (m.retrieveMemoryData Buffer.zero p.submitIndex (p.dwordAddr d) 8).isSome = true) ∧
        p.ShowsWrites table ↔
      ∀ d ∈ p.doubles table, (p.dwordAddr d).toNat + 8 < 2 ^ 64 := by
  have e8 : (8 : UInt64).toNat = 8 := by decide
  have e4 : (4 : UInt64).toNat = 4 := by decide
  have hcount := p.header.type4Count_lt
  let byte : ℕ → UInt8 := fun a => (m.image p.submitIndex a).getD 0
  have hread (addr size : UInt64) (hpos : 0 < size) (hlt : addr.toNat + size.toNat < 2 ^ 64) :
      p.memManager.ReadsBytes p.submitIndex byte addr size := by
    rw [IMemoryManager.ReadsBytes, hp, toInterface_image hm hl _ _ _ hpos, MemoryImage.retrieve,
      if_pos hlt]
    rfl
  have hfour (dword : ℕ) : p.ReadsFour dword := by
    by_cases hlt : (p.dwordAddr dword).toNat + 4 < 2 ^ 64
    · exact u64_of_four _ (.inr (hread _ _ (by decide) (by rw [e4]; exact hlt)))
    · refine u64_of_four byte (.inl ?_)
      rw [hp, toInterface_wrapped hm hl _ _ (by rw [e4]; omega)]
  rw [CapturedPacket.showsWrites_iff fun dword _ => hfour dword]
  constructor
  · rintro ⟨hdefined, -⟩ d hd
    by_contra hpast
    have hd' := CapturedPacket.mem_doubles hd
    have haddr := p.toNat_dwordAddr d
    have hva := p.vaAddr.toNat_lt
    have hle : p.vaAddr ≤ p.dwordAddr d := by
      rw [UInt64.le_iff_toNat_le]
      omega
    have hnone := retrieveMemoryData_none hm hl hheld hle (by omega) (by omega)
    have hsome := hdefined d hd
    rw [hnone] at hsome
    cases hsome
  · intro hlt
    refine ⟨fun d hd => ?_, fun d hd => ?_⟩
    · have hshort : (p.dwordAddr d).toNat + (8 : UInt64).toNat < 2 ^ 64 := by
        rw [e8]
        exact hlt d hd
      obtain ⟨ok, m', hread', -⟩ := MemoryManager.retrieveMemoryData_short hm hl hshort
        (by decide : 0 < (8 : UInt64).toNat) Buffer.zero
      rw [hread']
      rfl
    · refine CapturedPacket.readsEight_of_bytes byte (hlt d hd) ?_
      exact fun addr size hpos _ hend => hread addr size hpos (hend.trans_lt (hlt d hd))

end Capture

/-- The low half alone, as the last dword of a stream. -/
def lowHalfStream : TempMemoryManager := ⟨[0x48a81c01, 0x2000], 2, le_rfl⟩

end Dive
