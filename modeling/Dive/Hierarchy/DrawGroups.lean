import Dive.Hierarchy.PacketFields
import Dive.Hierarchy.SharedParents
import Dive.Pm4.DrawStates

/-!
# The groups of draw-state IBs

* `setDrawStateInfo`: the description of `CP_SET_DRAW_STATE`; `nodes_eq`: the field nodes of a
  packet show its groups one after the other.
* `cacheSetDrawStateGroupInfo`: the nodes and addresses of the groups of the last packet.
* `GroupCreator`: the parents that the creator gives to IBs, with the cache;
  `onEvent_ofParentCreator`.
* `GroupsKept`: every draw-state IB is put below the node of the group that it comes from.
* **`groupsKept_iff`**: they are exactly when no packet is too long and each IB is that of the first
  group of the last packet with its address.
-/

namespace Dive

/-! ## The description of the packet -/

/-- A bitfield of the register description. -/
def bitfield (name : String) (low high : UInt32) : PacketField where
  name := name
  dword := 0
  shift := low
  mask := (0xffffffff >>> (31 - (high - low))) <<< low

/-- The registers in the array of `CP_SET_DRAW_STATE`, one for each offset. -/
def setDrawStateRegisters : List PacketRegister := [
  { offset := 0, own := { name := "0", dword := 0 }, bitfields := [
      bitfield "COUNT" 0 15, bitfield "DIRTY" 16 16, bitfield "DISABLE" 17 17,
      bitfield "DISABLE_ALL_GROUPS" 18 18, bitfield "LOAD_IMMED" 19 19, bitfield "BINNING" 20 20,
      bitfield "GMEM" 21 21, bitfield "SYSMEM" 22 22, bitfield "GROUP_ID" 24 29] },
  { offset := 1, is64 := true, isAddress := true, own := { name := "ADDR", dword := 0 } },
  { offset := 2, own := { name := "2", dword := 0 }, bitfields := [bitfield "ADDR_HI" 0 31] }]

/-- The length of the array, and of `PM4_CP_SET_DRAW_STATE::ARRAY`. -/
def kDrawStateGroups : ℕ := 100

def setDrawStateInfo : PacketInfo := (outputPacketInfo 100 setDrawStateRegisters).get (by decide)

theorem groupDwords_setDrawStateInfo : setDrawStateInfo.groupDwords = 3 := by decide

theorem maxArraySize_setDrawStateInfo :
    setDrawStateInfo.maxArraySize.toNat = kDrawStateGroups := by decide

/-! ## The nodes of a packet with groups -/

/-- The array node that a node is or is below. -/
def FieldNode.group : FieldNode → Option ℕ
  | .array index => some index
  | .field parent _ _ _ => parent
  | .dword _ _ _ => none

/-- The node is a child of the packet node. -/
def FieldNode.isChild : FieldNode → Bool
  | .field (some _) _ _ _ => false
  | _ => true

/-- The array node of a group and its fields. -/
def groupNodes (info : PacketInfo) (word : ℕ → UInt32) (a : ℕ) : List FieldNode :=
  .array a :: info.fields.map fun f =>
    .field (some a) f (a * info.groupDwords + f.dword.toNat - 1)
      (f.value (word (a * info.groupDwords + f.dword.toNat - 1)))

/-- The children of the packet node, for field nodes from index `first` on. -/
def childNodes (first : ℕ) (nodes : List FieldNode) : List ℕ :=
  (nodes.zipIdx first).filterMap fun (node, i) => if node.isChild then some i else none

section Nodes

variable {info : PacketInfo} {word : ℕ → UInt32} {dwordCount baseDword : UInt32}
  {parent : Option ℕ}

theorem fieldLoop_fits (hbase : baseDword.toNat < 2 ^ 31) {fields : List PacketField} {d : ℕ}
    (h : Contiguous d fields) {s : FieldPass}
    (hfits : baseDword.toNat + lastDword d fields ≤ dwordCount.toNat) :
    (fieldLoop word dwordCount baseDword parent fields s).nodes =
      s.nodes ++ fields.map fun f => .field parent f (baseDword.toNat + f.dword.toNat - 1)
        (f.value (word (baseDword.toNat + f.dword.toNat - 1))) := by
  induction fields generalizing d s with
  | nil => rw [fieldLoop, List.map_nil, List.append_nil]
  | cons f fields ih =>
    obtain ⟨hpos, -, hrest⟩ := h
    have hlast := (dword_le_lastDword hrest).1
    have hposition := toNat_position hbase hpos
    rw [lastDword] at hfits
    have hearly : ¬ baseDword + f.dword.toUInt32 > dwordCount := by
      rw [gt_iff_lt, UInt32.lt_iff_toNat_lt, toNat_fieldDword hbase]
      omega
    have hsub : (baseDword + f.dword.toUInt32 - 1).toNat =
        baseDword.toNat + f.dword.toNat - 1 := by omega
    rw [fieldLoop, if_neg hearly, ih hrest hfits, hsub, List.map_cons, List.append_assoc,
      List.singleton_append]

theorem fieldLoop_rest (fields : List PacketField) (s : FieldPass) :
    ∃ rest, (fieldLoop word dwordCount baseDword parent fields s).nodes = s.nodes ++ rest ∧
      ∀ node ∈ rest, node.group = parent := by
  induction fields generalizing s with
  | nil => exact ⟨[], (List.append_nil _).symm, fun _ h => absurd h List.not_mem_nil⟩
  | cons f fields ih =>
    rw [fieldLoop]
    dsimp only
    split_ifs
    · exact ⟨[], (List.append_nil _).symm, fun _ h => absurd h List.not_mem_nil⟩
    · obtain ⟨rest, hnodes, hrest⟩ := ih _
      rw [hnodes, List.append_assoc]
      refine ⟨_, rfl, fun node hnode => ?_⟩
      rcases List.mem_append.mp hnode with hnode | hnode
      · rw [List.mem_singleton.mp hnode]
        rfl
      · exact hrest node hnode

theorem arrayLoop_rest (n a : ℕ) (s : FieldPass) :
    ∃ rest, (arrayLoop word dwordCount info (List.range' a n) s).nodes = s.nodes ++ rest ∧
      ∀ node ∈ rest, ∀ b, node.group = some b → a ≤ b := by
  induction n generalizing a s with
  | zero => exact ⟨[], (List.append_nil _).symm, fun _ h => absurd h List.not_mem_nil⟩
  | succ n ih =>
    rw [List.range'_succ, arrayLoop]
    generalize (if a ≠ 0 then s.endDword else 0) = base
    -- the array node, if there is one
    obtain ⟨own, hnodes, hgroup⟩ : ∃ own, (if info.maxArraySize > 1 ∧ base < dwordCount then
        s.nodes ++ [.array a] else s.nodes) = s.nodes ++ own ∧
        ∀ node ∈ own, ∀ b, node.group = some b → a ≤ b := by
      split_ifs
      · refine ⟨_, rfl, fun node hnode b hb => ?_⟩
        rw [List.mem_singleton.mp hnode] at hb
        exact (Option.some.inj hb).le
      · exact ⟨[], (List.append_nil _).symm, fun _ h => absurd h List.not_mem_nil⟩
    have hparent : ∀ b, (if info.maxArraySize > 1 ∧ base < dwordCount then some a else none) =
        some b → a ≤ b := by
      intro b hb
      split_ifs at hb
      exact (Option.some.inj hb).le
    rw [hnodes]
    generalize (if info.maxArraySize > 1 ∧ base < dwordCount then some a else none) = parent
      at hparent ⊢
    obtain ⟨fields, hfields, hbelow⟩ := @fieldLoop_rest word dwordCount base parent info.fields
      { s with nodes := s.nodes ++ own }
    rw [List.append_assoc] at hfields
    have hall : ∀ node ∈ own ++ fields, ∀ b, node.group = some b → a ≤ b :=
      List.forall_mem_append.mpr ⟨hgroup, fun node hnode b hb =>
        hparent b ((hbelow node hnode).symm.trans hb)⟩
    split_ifs
    · exact ⟨_, hfields, hall⟩
    · obtain ⟨rest, hrun, hrest⟩ := ih (a + 1) _
      rw [hrun, hfields, List.append_assoc]
      refine ⟨_, rfl, List.forall_mem_append.mpr ⟨hall, fun node hnode b hb => ?_⟩⟩
      exact Nat.le_of_succ_le (hrest node hnode b hb)

/-- **The groups that the packet has** come first, one after the other. -/
theorem arrayLoop_groups (hne : info.fields ≠ []) (harray : info.maxArraySize > 1) {n a k : ℕ}
    (hn : a + n ≤ 255) (hk : k ≤ n) (hfits : (a + k) * info.groupDwords ≤ dwordCount.toNat)
    {s : FieldPass} (hs : s.packetEndEarly = false)
    (ha : a ≠ 0 → s.endDword.toNat = a * info.groupDwords) :
    ∃ rest, (arrayLoop word dwordCount info (List.range' a n) s).nodes =
      s.nodes ++ (List.range' a k).flatMap (groupNodes info word) ++ rest ∧
      ∀ node ∈ rest, ∀ b, node.group = some b → a + k ≤ b := by
  induction k generalizing n a s with
  | zero =>
    rw [List.range'_zero, List.flatMap_nil, List.append_nil]
    exact arrayLoop_rest n a s
  | succ k ih =>
    obtain ⟨n, rfl⟩ : ∃ m, n = m + 1 := ⟨n - 1, by omega⟩
    have hpos : 0 < info.groupDwords := groupDwords_pos hne
    have hlt : info.groupDwords < 256 := lastDword_lt (by decide)
    have hmul : a * info.groupDwords ≤ 255 * 255 := Nat.mul_le_mul (by omega) (by omega)
    have hbase : (if a ≠ 0 then s.endDword else 0).toNat = a * info.groupDwords := by
      by_cases h0 : a = 0
      · simp [h0]
      · rw [if_pos h0, ha h0]
    rw [List.range'_succ, arrayLoop]
    generalize (if a ≠ 0 then s.endDword else 0) = base at hbase
    have hfirst : a * info.groupDwords + info.groupDwords ≤ dwordCount.toNat := by
      rw [← Nat.succ_mul]
      exact (Nat.mul_le_mul_right _ (by omega)).trans hfits
    have hgrouped : info.maxArraySize > 1 ∧ base < dwordCount := by
      refine ⟨harray, ?_⟩
      rw [UInt32.lt_iff_toNat_lt, hbase]
      omega
    rw [if_pos hgrouped, if_pos hgrouped]
    have hnodes := @fieldLoop_fits word dwordCount base (some a) (by omega) info.fields 0
      info.contiguous { s with nodes := s.nodes ++ [.array a] } (by rw [hbase]; exact hfirst)
    have hspec := (@fieldLoop_spec word dwordCount base (some a) (by omega) info.fields 0
      info.contiguous { s with nodes := s.nodes ++ [.array a] } fun h => absurd h hne).2
    rw [hbase] at hnodes hspec
    rw [show lastDword 0 info.fields = info.groupDwords from rfl, if_pos hfirst,
      ← Nat.succ_mul] at hspec
    obtain ⟨hearly, hend⟩ := hspec
    rw [if_neg (by rw [hearly]; simp [hs])]
    obtain ⟨rest, hrun, hrest⟩ := ih (n := n) (a := a + 1) (by omega) (by omega)
      (by rw [Nat.add_assoc, Nat.add_comm 1]; exact hfits) (hearly.trans hs) fun _ => hend
    refine ⟨rest, ?_, fun node hnode b hb => by have := hrest node hnode b hb; omega⟩
    rw [hrun, hnodes, List.range'_succ, List.flatMap_cons, groupNodes]
    simp only [List.append_assoc, List.cons_append, List.nil_append]

theorem fieldNodes_groups (hne : info.fields ≠ []) (harray : info.maxArraySize > 1) {k : ℕ}
    (hk : k ≤ info.maxArraySize.toNat) (hfits : k * info.groupDwords ≤ dwordCount.toNat)
    (appendExtraDwords : Bool) :
    ∃ rest, fieldNodes word dwordCount appendExtraDwords info =
      (List.range k).flatMap (groupNodes info word) ++ rest ∧
      ∀ node ∈ rest, ∀ b, node.group = some b → k ≤ b := by
  have hlt := info.maxArraySize.toNat_lt
  obtain ⟨rest, hnodes, hrest⟩ := @arrayLoop_groups info word dwordCount hne harray
    info.maxArraySize.toNat 0 k (by omega) hk (by rwa [Nat.zero_add]) {} rfl fun h => absurd rfl h
  rw [List.nil_append, ← List.range_eq_range', ← List.range_eq_range'] at hnodes
  rw [Nat.zero_add] at hrest
  rw [fieldNodes]
  split_ifs
  · rw [hnodes, List.append_assoc]
    refine ⟨_, rfl, List.forall_mem_append.mpr ⟨hrest, fun node hnode b hb => ?_⟩⟩
    obtain ⟨i, -, rfl⟩ := List.mem_map.mp hnode
    cases hb
  · exact ⟨rest, hnodes, hrest⟩

/-! ## The children of the packet node -/

theorem childNodes_append (first : ℕ) (l l' : List FieldNode) :
    childNodes first (l ++ l') = childNodes first l ++ childNodes (first + l.length) l' := by
  rw [childNodes, List.zipIdx_append, List.filterMap_append]
  rfl

theorem childNodes_groupNodes (first a : ℕ) :
    childNodes first (groupNodes info word a) = [first] := by
  have hfields : ∀ (fields : List PacketField) (first : ℕ),
      childNodes first (fields.map fun f =>
        .field (some a) f (a * info.groupDwords + f.dword.toNat - 1)
          (f.value (word (a * info.groupDwords + f.dword.toNat - 1)))) = [] := by
    intro fields
    induction fields with
    | nil => exact fun _ => rfl
    | cons f fields ih =>
      intro first
      rw [List.map_cons, childNodes, List.zipIdx_cons]
      exact ih (first + 1)
  rw [groupNodes, childNodes, List.zipIdx_cons]
  exact congrArg (first :: ·) (hfields info.fields (first + 1))

theorem length_groupNodes (a : ℕ) :
    (groupNodes info word a).length = info.fields.length + 1 := by
  rw [groupNodes, List.length_cons, List.length_map]

theorem length_flatMap_groupNodes (k : ℕ) :
    ((List.range k).flatMap (groupNodes info word)).length = k * (info.fields.length + 1) := by
  rw [List.length_flatMap]
  simp [length_groupNodes]

theorem childNodes_flatMap (first k : ℕ) :
    childNodes first ((List.range k).flatMap (groupNodes info word)) =
      (List.range k).map fun j => first + j * (info.fields.length + 1) := by
  induction k with
  | zero => rfl
  | succ k ih =>
    rw [List.range_succ, List.flatMap_append, childNodes_append, ih, List.map_append,
      length_flatMap_groupNodes]
    exact congrArg _ ((congrArg (childNodes _) (List.flatMap_singleton ..)).trans
      (childNodes_groupNodes _ _))

end Nodes

/-! ## The cache -/

namespace DrawStatePacket

variable (E : Emulation) (p : DrawStatePacket)

/-- `array_size`. -/
def arraySize : ℕ := (p.header.type7Count * 4 / 12).toNat

/-- The packet fits in `PM4_CP_SET_DRAW_STATE`. -/
def Fits : Prop := p.header.type7Count.toNat ≤ 3 * kDrawStateGroups

instance : Decidable p.Fits := inferInstanceAs (Decidable (_ ≤ _))

/-- The nodes that `AddPacketNode` adds after the packet node. -/
def nodes : List FieldNode :=
  appendPacketFieldNodes E.memManager E.submitIndex (p.vaAddr + 4) p.header.type7Count true
    setDrawStateInfo

/-- `ARRAY[i].ADDR`. -/
def addr (i : ℕ) : UInt64 := ((p.contents E).drawState i).addr

/-- A dword after the header. -/
def word (position : ℕ) : UInt32 :=
  dwordAt E.memManager E.submitIndex (p.vaAddr + 4 + UInt64.ofNat position * 4)

/-- `CacheSetDrawStateGroupInfo` for the packet node `packetNodeIndex`. `none` is an access outside
the copy of the packet, its children or the cache. -/
def cacheSetDrawStateGroupInfo (packetNodeIndex : ℕ) : Option (List (ℕ × UInt64)) :=
  let children := childNodes (packetNodeIndex + 1) (p.nodes E)
  if 3 * kDrawStateGroups < p.header.type7Count.toNat ∨ children.length < p.arraySize ∨
      kMaxPendingIbs < p.arraySize then none
  else some (children.zip ((List.range p.arraySize).map (p.addr E)))

/-- The number of nodes that show a group. -/
def groupSize : ℕ := setDrawStateInfo.fields.length + 1

variable {E p}

theorem arraySize_le (h : p.Fits) : p.arraySize ≤ kDrawStateGroups ∧
    p.arraySize * 3 ≤ p.header.type7Count.toNat := by
  unfold Fits kDrawStateGroups at h
  have hmul : (p.header.type7Count * 4).toNat = p.header.type7Count.toNat * 4 := by
    rw [UInt32.toNat_mul]
    exact Nat.mod_eq_of_lt (by simp; omega)
  have hsize : p.arraySize = p.header.type7Count.toNat * 4 / 12 := by
    rw [arraySize, UInt32.toNat_div, hmul]
    rfl
  unfold kDrawStateGroups
  omega

theorem nodes_eq (h : p.Fits) : ∃ rest,
    p.nodes E = (List.range p.arraySize).flatMap (groupNodes setDrawStateInfo (p.word E)) ++ rest ∧
      ∀ node ∈ rest, ∀ b, node.group = some b → p.arraySize ≤ b := by
  have hsize := arraySize_le h
  refine fieldNodes_groups (by decide) (by decide) ?_ ?_ true
  · rw [maxArraySize_setDrawStateInfo]
    exact hsize.1
  · rw [groupDwords_setDrawStateInfo]
    exact hsize.2

/-- **The cache** holds the groups of the packet with their array nodes. -/
theorem cacheSetDrawStateGroupInfo_eq (h : p.Fits) (packetNodeIndex : ℕ) :
    p.cacheSetDrawStateGroupInfo E packetNodeIndex = some ((List.range p.arraySize).map fun j =>
      (packetNodeIndex + 1 + j * groupSize, p.addr E j)) := by
  obtain ⟨rest, hnodes, -⟩ := @nodes_eq E p h
  have hsize := (arraySize_le h).1
  have hcap : ¬ kMaxPendingIbs < p.arraySize := by
    unfold kDrawStateGroups at hsize
    unfold kMaxPendingIbs
    omega
  rw [cacheSetDrawStateGroupInfo, hnodes, childNodes_append, childNodes_flatMap, if_neg (by
    rw [List.length_append, List.length_map, List.length_range]
    unfold Fits at h
    omega)]
  generalize childNodes _ rest = more
  rw [← List.append_nil ((List.range p.arraySize).map (p.addr E)),
    List.zip_append (by rw [List.length_map, List.length_map]), List.zip_map', List.zip_nil_right,
    List.append_nil]
  rfl

theorem fits_of_cache {packetNodeIndex : ℕ} {groups : List (ℕ × UInt64)}
    (h : p.cacheSetDrawStateGroupInfo E packetNodeIndex = some groups) : p.Fits := by
  rw [cacheSetDrawStateGroupInfo] at h
  split_ifs at h with hbad
  exact Nat.not_lt.mp (not_or.mp hbad).1

end DrawStatePacket

/-! ## The creator -/

/-- `CommandHierarchyCreator`, as far as the parents of the packets of IBs go. The index
`UINT64_MAX` is `none`. -/
structure GroupCreator where
  nodeCount : ℕ := 1
  curIbPacketNodeIndex : Option ℕ := some 0
  sharedNodeIbParentStack : ℕ → Option ℕ := fun _ => some 0
  groupInfo : List (ℕ × UInt64) := []

namespace GroupCreator

section Calls

/- `added` says how many nodes are added after a packet node, by its index. -/
variable (E : Emulation) (added : ℕ → ℕ) (C : GroupCreator)

/-- The IB gets a field node between the packet and the IB. -/
def hasFieldNode (ibType : IbType) : Prop :=
  ibType = .kBinPrefix ∨ ibType = .kBinCommon ∨ ibType = .kFixedStrideDrawTable

instance (ibType : IbType) : Decidable (hasFieldNode ibType) :=
  inferInstanceAs (Decidable (_ ∨ _))

/-- The parent of the packets of an IB. -/
def ibPacketParent (info : IndirectBufferInfo) (ibType : IbType) : Option ℕ :=
  if ibType = .kDrawState then
    (C.groupInfo.find? fun group => group.2 = info.vaAddr).map Prod.fst
  else if hasFieldNode ibType then some C.nodeCount
  else match C.curIbPacketNodeIndex with
    | some packetNodeIndex => some packetNodeIndex
    | none => C.sharedNodeIbParentStack info.ibLevel

/-- `OnIbStart`. -/
def onIbStart (info : IndirectBufferInfo) (ibType : IbType) : GroupCreator :=
  { C with
    nodeCount := C.nodeCount + if hasFieldNode ibType then 2 else 1
    sharedNodeIbParentStack := Function.update C.sharedNodeIbParentStack info.ibLevel
      (C.ibPacketParent info ibType) }

/-- `OnPacket` for a `CP_SET_DRAW_STATE`. -/
def onSetDrawState (p : DrawStatePacket) : Option GroupCreator :=
  (p.cacheSetDrawStateGroupInfo E C.nodeCount).map fun groupInfo =>
    { C with nodeCount := C.nodeCount + 1 + (p.nodes E).length, groupInfo := groupInfo }

/-- `OnPacket` for the packet of a header. -/
def onPacket (va : UInt64) (h : Pm4Header) : Option GroupCreator :=
  if h.type ≠ 4 ∧ h.type ≠ 7 then some C
  else if h.isOpcode CP_SET_DRAW_STATE then C.onSetDrawState E ⟨[], va, h⟩
  else some { C with
    nodeCount := C.nodeCount + 1 + added C.nodeCount
    curIbPacketNodeIndex := if h.isIbPacket then some C.nodeCount else C.curIbPacketNodeIndex }

/-- The calls of the emulator. -/
def onEvent : Event → Option GroupCreator
  | .ibStart _ _ info ibType => some (C.onIbStart info ibType)
  | .ibEnd _ _ => some C
  | .packet _ va h => C.onPacket E added va h

end Calls

section Kept

variable (E : Emulation) (added : ℕ → ℕ)

/-- Node `k` of the packet's nodes is the array node of the group, and the nodes of the group are
that node and one for each field of its dwords in memory. -/
def IsGroupNode (g : GroupEntry) (k : ℕ) : Prop :=
  (g.packet.nodes E)[k]? = some (.array g.index) ∧
    (g.packet.nodes E).filter (fun node => node.group = some g.index) =
      groupNodes setDrawStateInfo (g.packet.word E) g.index

/-- After `t`, the packets of the IB that starts are put below the node of this group. -/
def PutBelow (base : GroupCreator) (t : List Event) (g : GroupEntry) (info : IndirectBufferInfo)
    (ibType : IbType) : Prop :=
  ∃ C₀ C k, Monitor.run (onEvent E added) base g.packet.before = some C₀ ∧
    Monitor.run (onEvent E added) base t = some C ∧ IsGroupNode E g k ∧
    (C.onIbStart info ibType).sharedNodeIbParentStack info.ibLevel = some (C₀.nodeCount + 1 + k)

/-- **The groups keep their identity**: no access is out of bounds, and every draw-state IB is put
below the node of the group that queued it, with the enable mask of the group. -/
def GroupsKept (base : GroupCreator) (t : List Event) : Prop :=
  (Monitor.run (onEvent E added) base t).isSome ∧
    ∀ t₁ q ibIndex info ibType t₂, t = t₁ ++ .ibStart q ibIndex info ibType :: t₂ →
      q.ibType = .kDrawState → ∃ g, (provenance E t₁).first = some g ∧ q = g.queued E ∧
        info.enableMask = (g.queued E).enableMask ∧ PutBelow E added base t₁ g info ibType

/-- The group is that of the first entry of the last packet that has its address. -/
def IsFirstOfLast (s : Provenance) (g : GroupEntry) : Prop :=
  s.last = some g.packet ∧ g.index < g.packet.arraySize ∧
    ∀ j < g.index, g.packet.addr E j ≠ g.packet.addr E g.index

/-- A `CP_SET_DRAW_STATE` is not too long, and a draw-state IB starts while the groups of its packet
are cached and no earlier one has its address. -/
def Unmixed (s : Provenance) : Event → Prop
  | .packet _ va h =>
    h.isOpcode CP_SET_DRAW_STATE = true → (⟨s.calls, va, h⟩ : DrawStatePacket).Fits
  | .ibStart q _ _ _ => q.ibType = .kDrawState → ∀ g, s.first = some g → IsFirstOfLast E s g
  | .ibEnd _ _ => True

end Kept

variable {E : Emulation} {added : ℕ → ℕ} {base C C' : GroupCreator} {s s' : Provenance}
  {t : List Event} {e : Event} {p : DrawStatePacket} {g : GroupEntry}

/-! ## The other parents -/

/-- What is kept of `ParentCreator`. -/
def ofParentCreator (C : ParentCreator) : GroupCreator where
  nodeCount := C.nodes.length
  curIbPacketNodeIndex := C.curIbPacketNodeIndex
  sharedNodeIbParentStack := C.sharedNodeIbParentStack
  groupInfo := C.groupInfo

section Parents

variable {kind : ℕ → PacketKind} {fields : ℕ → ℕ} {groups : ℕ → List (ℕ × UInt64)}
  {P P' : ParentCreator}

theorem ofParentCreator_onIbStart (P : ParentCreator) (ibIndex : ℕ) (info : IndirectBufferInfo)
    (ibType : IbType) : (ofParentCreator P).onIbStart info ibType =
      ofParentCreator (P.onIbStart ibIndex info ibType) := by
  have hcount : (ofParentCreator (P.onIbStart ibIndex info ibType)).nodeCount =
      P.nodes.length + if hasFieldNode ibType then 2 else 1 := by
    have hnodes : (ofParentCreator (P.onIbStart ibIndex info ibType)).nodeCount =
        ((P.nodes ++ if hasFieldNode ibType then [Node.other] else []) ++
          [Node.ib (ibIndex % 2 ^ kMaxNumIbsBits) ibType info.sizeInDwords
            !info.skip]).length := rfl
    rw [hnodes]
    split_ifs <;> simp
  rw [onIbStart, show (ofParentCreator P).nodeCount = P.nodes.length from rfl, ← hcount]
  rfl

/-- **`ParentCreator` is this creator**, where the groups of a packet are those in memory. -/
theorem onEvent_ofParentCreator (h : P.onEvent kind fields groups e = some P')
    (hgroups : ∀ ibIndex va hd, e = .packet ibIndex va hd →
      hd.isOpcode CP_SET_DRAW_STATE = true →
        RangeCreator.extra kind fields P.nodes.length =
          ((⟨[], va, hd⟩ : DrawStatePacket).nodes E).length ∧
        (⟨[], va, hd⟩ : DrawStatePacket).cacheSetDrawStateGroupInfo E P.nodes.length =
          some (groups P.nodes.length)) :
    onEvent E (RangeCreator.extra kind fields) (ofParentCreator P) e =
      some (ofParentCreator P') := by
  cases e with
  | ibStart q ibIndex info ibType =>
    obtain rfl := Option.some.inj h
    exact congrArg some (ofParentCreator_onIbStart P ibIndex info ibType)
  | ibEnd ibIndex info =>
    obtain ⟨R, hR, rfl⟩ := Option.map_eq_some_iff.mp h
    rw [onEvent, ofParentCreator, ofParentCreator, ParentCreator.nodes_onIbEnd hR]
  | packet ibIndex va hd =>
    have hpacket : P.onPacket kind fields groups hd = some P' := h
    rw [ParentCreator.onPacket] at hpacket
    rw [onEvent, onPacket]
    by_cases hcmd : hd.type ≠ 4 ∧ hd.type ≠ 7
    · rw [if_pos hcmd] at hpacket ⊢
      rw [Option.some.inj hpacket]
    · rw [if_neg hcmd] at hpacket ⊢
      obtain ⟨R, hR, rfl⟩ := Option.map_eq_some_iff.mp hpacket
      have hnodes := ParentCreator.length_nodes_onPacket hcmd hR
      by_cases hop : hd.isOpcode CP_SET_DRAW_STATE = true
      · obtain ⟨hextra, hcache⟩ := hgroups ibIndex va hd rfl hop
        have hib : hd.isIbPacket = false := by
          rw [← Bool.not_eq_true]
          intro hib
          simp only [Pm4Header.isIbPacket, Bool.or_eq_true] at hib
          rcases hib with ((hib | hib) | hib) | hib <;>
            exact absurd (Emulation.isOpcode_unique hop hib) (by decide)
        rw [if_pos hop, onSetDrawState,
          show (ofParentCreator P).nodeCount = P.nodes.length from rfl, hcache, ← hextra,
          ← hnodes, ofParentCreator, ofParentCreator, hib, if_pos hop]
        rfl
      · rw [if_neg hop, show (ofParentCreator P).nodeCount = P.nodes.length from rfl, ← hnodes,
          ofParentCreator, ofParentCreator, if_neg hop]

end Parents

/-! ## The cache along a run -/

/-- The nodes of the packet come before node `n`. -/
def CreatedBefore (E : Emulation) (added : ℕ → ℕ) (base : GroupCreator) (p : DrawStatePacket)
    (n : ℕ) : Prop :=
  ∃ C₀, Monitor.run (onEvent E added) base p.before = some C₀ ∧
    C₀.nodeCount + 1 + (p.nodes E).length ≤ n

/-- The groups of the packet, below node `packetNodeIndex`. -/
def groupsOf (E : Emulation) (p : DrawStatePacket) (packetNodeIndex : ℕ) : List (ℕ × UInt64) :=
  (List.range p.arraySize).map fun j =>
    (packetNodeIndex + 1 + j * DrawStatePacket.groupSize, p.addr E j)

/-- The cache holds the groups of the last packet, and the packets of the groups that are queued
come before it. -/
structure CacheFollows (E : Emulation) (added : ℕ → ℕ) (base : GroupCreator) (s : Provenance)
    (C : GroupCreator) : Prop where
  last : ∀ p, s.last = some p → ∃ C₀, Monitor.run (onEvent E added) base p.before = some C₀ ∧
    C₀.nodeCount + 1 + (p.nodes E).length ≤ C.nodeCount ∧
      C.groupInfo = groupsOf E p C₀.nodeCount
  queued : ∀ queue ∈ s.queues, ∀ g ∈ queue, g.packet.Fits ∧ (s.last = some g.packet ∨
    ∃ p C₁, s.last = some p ∧ Monitor.run (onEvent E added) base p.before = some C₁ ∧
      CreatedBefore E added base g.packet C₁.nodeCount)

theorem CacheFollows.createdBefore (h : CacheFollows E added base s C) {queue : List GroupEntry}
    (hqueue : queue ∈ s.queues) (hg : g ∈ queue) :
    CreatedBefore E added base g.packet C.nodeCount := by
  obtain ⟨-, hlast | ⟨p, C₁, hlast, hrun, C₀, hrun₀, hle⟩⟩ := h.queued queue hqueue g hg
  · obtain ⟨C₀, hrun, hle, -⟩ := h.last _ hlast
    exact ⟨C₀, hrun, hle⟩
  · obtain ⟨C₂, hrun₂, hle₂, -⟩ := h.last p hlast
    obtain rfl : C₁ = C₂ := Option.some.inj (hrun.symm.trans hrun₂)
    refine ⟨C₀, hrun₀, ?_⟩
    omega

theorem CacheFollows.keep (h : CacheFollows E added base s C) (hlast : s'.last = s.last)
    (hqueues : ∀ queue ∈ s'.queues, ∀ g ∈ queue, ∃ queue' ∈ s.queues, g ∈ queue')
    (hinfo : C'.groupInfo = C.groupInfo) (hcount : C.nodeCount ≤ C'.nodeCount) :
    CacheFollows E added base s' C' := by
  refine ⟨fun p hp => ?_, fun queue hqueue g hg => ?_⟩
  · obtain ⟨C₀, hrun, hle, hgroups⟩ := h.last p (hlast ▸ hp)
    exact ⟨C₀, hrun, hle.trans hcount, hinfo.trans hgroups⟩
  · obtain ⟨queue', hqueue', hg'⟩ := hqueues queue hqueue g hg
    rw [hlast]
    exact h.queued queue' hqueue' g hg'

theorem mem_nextQueues_ibStart {q : QueuedIb} {ibIndex : ℕ} {info : IndirectBufferInfo}
    {ibType : IbType} {queue : List GroupEntry}
    (hqueue : queue ∈ s.nextQueues E (.ibStart q ibIndex info ibType)) (hg : g ∈ queue) :
    ∃ queue' ∈ s.queues, g ∈ queue' := by
  rw [Provenance.nextQueues] at hqueue
  split_ifs at hqueue
  · exact ⟨queue, hqueue, hg⟩
  · cases hqueues : s.queues with
    | nil =>
      rw [hqueues] at hqueue
      simp only [List.headD_nil, List.tail_nil, List.mem_cons, List.not_mem_nil, or_false,
        or_self] at hqueue
      rw [hqueue] at hg
      exact absurd hg List.not_mem_nil
    | cons first queues =>
      rw [hqueues] at hqueue
      rcases List.mem_cons.mp hqueue with rfl | hqueue
      · exact absurd hg List.not_mem_nil
      · rcases List.mem_cons.mp hqueue with rfl | hqueue
        · exact ⟨first, List.mem_cons_self, List.mem_of_mem_tail hg⟩
        · exact ⟨queue, List.mem_cons_of_mem _ hqueue, hg⟩
  · rcases List.mem_cons.mp hqueue with rfl | hqueue
    · exact absurd hg List.not_mem_nil
    · exact ⟨queue, hqueue, hg⟩

theorem onPacket_setDrawState {va : UInt64} {h : Pm4Header}
    (hop : h.isOpcode CP_SET_DRAW_STATE = true) (before : List Event) :
    C.onPacket E added va h = C.onSetDrawState E ⟨before, va, h⟩ := by
  have htype : h.type = 7 := by
    rw [Pm4Header.isOpcode, Bool.and_eq_true] at hop
    exact of_decide_eq_true hop.1
  rw [onPacket, if_neg (fun hno => hno.2 htype), if_pos hop]
  rfl

theorem onPacket_other {va : UInt64} {h : Pm4Header}
    (hop : h.isOpcode CP_SET_DRAW_STATE = false) :
    ∃ C', C.onPacket E added va h = some C' ∧ C'.groupInfo = C.groupInfo ∧
      C.nodeCount ≤ C'.nodeCount := by
  rw [onPacket, hop, if_neg Bool.false_ne_true]
  by_cases hcmd : h.type ≠ 4 ∧ h.type ≠ 7
  · rw [if_pos hcmd]
    exact ⟨C, rfl, rfl, le_rfl⟩
  · rw [if_neg hcmd]
    exact ⟨_, rfl, rfl, (Nat.le_add_right _ 1).trans (Nat.le_add_right _ _)⟩

/-- **One call.** -/
theorem CacheFollows.step (h : CacheFollows E added base s C)
    (hrun : Monitor.run (onEvent E added) base s.calls = some C)
    (hstep : onEvent E added C e = some C') : CacheFollows E added base (s.next E e) C' := by
  cases e with
  | ibStart q ibIndex info ibType =>
    cases hstep
    refine h.keep rfl (fun queue hqueue g hg => ?_) rfl ?_
    · exact @mem_nextQueues_ibStart E s g q ibIndex info ibType queue hqueue hg
    · rw [onIbStart]
      exact Nat.le_add_right _ _
  | ibEnd ibIndex info =>
    cases hstep
    exact h.keep rfl (fun queue hqueue g hg => ⟨queue, List.mem_of_mem_tail hqueue, hg⟩) rfl le_rfl
  | packet ibIndex va hd =>
    have hpacket : C.onPacket E added va hd = some C' := hstep
    cases hop : hd.isOpcode CP_SET_DRAW_STATE with
    | false =>
      obtain ⟨C₁, hC₁, hinfo, hcount⟩ := @onPacket_other E added C va hd hop
      obtain rfl : C₁ = C' := Option.some.inj (hC₁.symm.trans hpacket)
      have hno : ¬ hd.isOpcode CP_SET_DRAW_STATE = true := by simp [hop]
      refine h.keep (if_neg hno) (fun queue hqueue g hg => ⟨queue, ?_, hg⟩) hinfo hcount
      rw [Provenance.next_queues, Provenance.nextQueues, if_neg hno] at hqueue
      exact hqueue
    | true =>
      rw [onPacket_setDrawState hop s.calls] at hpacket
      obtain ⟨groups, hcache, rfl⟩ := Option.map_eq_some_iff.mp hpacket
      have hfits := DrawStatePacket.fits_of_cache hcache
      have hlast : (s.next E (.packet ibIndex va hd)).last = some ⟨s.calls, va, hd⟩ := if_pos hop
      refine ⟨fun p hp => ?_, fun queue hqueue g hg => ?_⟩
      · obtain rfl := Option.some.inj (hlast.symm.trans hp)
        refine ⟨C, hrun, le_rfl, ?_⟩
        rw [DrawStatePacket.cacheSetDrawStateGroupInfo_eq hfits] at hcache
        exact (Option.some.inj hcache).symm
      · rw [Provenance.next_queues, Provenance.nextQueues, if_pos hop] at hqueue
        rw [hlast]
        rcases List.mem_cons.mp hqueue with rfl | hqueue
        · obtain ⟨i, -, rfl⟩ := List.mem_map.mp hg
          exact ⟨hfits, .inl rfl⟩
        · have hold := List.mem_of_mem_tail hqueue
          exact ⟨(h.queued queue hold g hg).1,
            .inr ⟨_, C, rfl, hrun, h.createdBefore hold hg⟩⟩

theorem cacheFollows_nil : CacheFollows E added base (provenance E []) C := by
  refine ⟨fun p hp => ?_, fun queue hqueue g hg => ?_⟩
  · cases hp
  · rw [List.mem_singleton.mp hqueue] at hg
    exact absurd hg List.not_mem_nil

/-- **The cache follows the last packet** in every run. -/
theorem cacheFollows_run (h : Monitor.run (onEvent E added) base t = some C) :
    CacheFollows E added base (provenance E t) C := by
  have hboth := Monitor.run_history (P := fun t C =>
    Monitor.run (onEvent E added) base t = some C ∧ CacheFollows E added base (provenance E t) C)
    ⟨rfl, cacheFollows_nil⟩ (fun t C e C' ⟨hrun, hC⟩ hstep => by
      refine ⟨(Monitor.run_append_of hrun).trans (Monitor.run_cons_of hstep), ?_⟩
      rw [provenance_concat]
      exact hC.step (by rw [calls_provenance]; exact hrun) hstep) h
  exact hboth.2

/-! ## The node of a group -/

theorem filter_group (hfits : p.Fits) {i : ℕ} (hi : i < p.arraySize) :
    (p.nodes E).filter (fun node => node.group = some i) =
      groupNodes setDrawStateInfo (p.word E) i := by
  obtain ⟨rest, hnodes, hrest⟩ := @DrawStatePacket.nodes_eq E p hfits
  have hgroup : ∀ j, (groupNodes setDrawStateInfo (p.word E) j).filter
      (fun node => node.group = some i) =
        if j = i then groupNodes setDrawStateInfo (p.word E) i else [] := by
    intro j
    have hown : ∀ node ∈ groupNodes setDrawStateInfo (p.word E) j, node.group = some j := by
      intro node hnode
      rcases List.mem_cons.mp hnode with rfl | hnode
      · rfl
      · obtain ⟨f, -, rfl⟩ := List.mem_map.mp hnode
        rfl
    split_ifs with hj
    · subst hj
      rw [List.filter_eq_self]
      exact fun node hnode => decide_eq_true (hown node hnode)
    · rw [List.filter_eq_nil_iff]
      intro node hnode
      rw [hown node hnode]
      simpa using hj
  have hnone : rest.filter (fun node => node.group = some i) = [] := by
    rw [List.filter_eq_nil_iff]
    intro node hnode heq
    have hle := hrest node hnode i (of_decide_eq_true heq)
    omega
  rw [hnodes, List.filter_append, List.filter_flatMap, hnone, List.append_nil]
  simp only [hgroup, flatMap_range_ite]
  rw [if_pos hi]

theorem getElem?_flatMap_groupNodes {info : PacketInfo} {word : ℕ → UInt32} {n j : ℕ}
    (hj : j < n) : ((List.range n).flatMap (groupNodes info word))[j * (info.fields.length + 1)]? =
      some (.array j) := by
  induction n with
  | zero => exact absurd hj (Nat.not_lt_zero j)
  | succ n ih =>
    rw [List.range_succ, List.flatMap_append]
    rcases Nat.lt_succ_iff_lt_or_eq.mp hj with hlt | rfl
    · rw [List.getElem?_append_left]
      · exact ih hlt
      · rw [length_flatMap_groupNodes]
        exact Nat.mul_lt_mul_of_pos_right hlt (Nat.succ_pos _)
    · rw [List.getElem?_append_right (length_flatMap_groupNodes j).le, length_flatMap_groupNodes,
        Nat.sub_self]
      rfl

/-- **The array nodes** of a packet that fits. -/
theorem isGroupNode_array (hfits : g.packet.Fits) (hi : g.index < g.packet.arraySize) :
    IsGroupNode E g (g.index * DrawStatePacket.groupSize) := by
  refine ⟨?_, filter_group hfits hi⟩
  obtain ⟨rest, hnodes, -⟩ := @DrawStatePacket.nodes_eq E g.packet hfits
  have hget := @getElem?_flatMap_groupNodes setDrawStateInfo (g.packet.word E) _ _ hi
  rw [hnodes, List.getElem?_append_left]
  · exact hget
  · exact (List.getElem?_eq_some_iff.mp hget).1

theorem find?_groupsOf {n : ℕ} {a : UInt64} {node : ℕ} :
    ((groupsOf E p n).find? fun group => group.2 = a).map Prod.fst = some node ↔
      ∃ j < p.arraySize, node = n + 1 + j * DrawStatePacket.groupSize ∧ p.addr E j = a ∧
        ∀ i < j, p.addr E i ≠ a := by
  rw [groupsOf, List.find?_map, Option.map_map, Option.map_eq_some_iff]
  simp only [Function.comp_def, List.find?_range_eq_some, List.mem_range, decide_eq_true_eq]
  constructor
  · rintro ⟨j, ⟨haddr, hj, hfirst⟩, rfl⟩
    exact ⟨j, hj, rfl, haddr, fun i hi => by simpa using hfirst i hi⟩
  · rintro ⟨j, hj, rfl, haddr, hfirst⟩
    exact ⟨j, ⟨haddr, hj, fun i hi => by simpa using hfirst i hi⟩, rfl⟩

/-- **The start of a draw-state IB.** Its packets are put below the node of its group exactly when
the group is the first one of the last packet with its address. -/
theorem putBelow_iff (hrun : Monitor.run (onEvent E added) base t = some C)
    (hg : (provenance E t).first = some g) {info : IndirectBufferInfo}
    (hva : info.vaAddr = g.packet.addr E g.index) :
    PutBelow E added base t g info .kDrawState ↔ IsFirstOfLast E (provenance E t) g := by
  have hC := cacheFollows_run hrun
  obtain ⟨queue, hqueue, hmem⟩ : ∃ queue ∈ (provenance E t).queues, g ∈ queue := by
    rw [Provenance.first] at hg
    cases hqueues : (provenance E t).queues with
    | nil =>
      rw [hqueues] at hg
      cases hg
    | cons queue queues =>
      rw [hqueues] at hg
      exact ⟨queue, List.mem_cons_self, List.mem_of_head? hg⟩
  obtain ⟨hfits, hold⟩ := hC.queued queue hqueue g hmem
  have hparent : (C.onIbStart info .kDrawState).sharedNodeIbParentStack info.ibLevel =
      (C.groupInfo.find? fun group => group.2 = g.packet.addr E g.index).map Prod.fst := by
    rw [← hva]
    exact Function.update_self _ _ _
  constructor
  · rintro ⟨C₀, C', k, hrun₀, hrun', hnode, hput⟩
    obtain rfl := Option.some.inj (hrun.symm.trans hrun')
    rw [hparent] at hput
    rcases hold with hlast | ⟨p, C₁, hlast, hrun₁, C₂, hrun₂, hle⟩
    · obtain ⟨C₁, hrun₁, -, hinfo⟩ := hC.last _ hlast
      obtain rfl := Option.some.inj (hrun₀.symm.trans hrun₁)
      rw [hinfo, find?_groupsOf] at hput
      obtain ⟨j, hj, hk, haddr, hfirst⟩ := hput
      -- the node that is found is an array node too
      have hnode' := (@isGroupNode_array E ⟨g.packet, j⟩ hfits hj).1
      obtain rfl : k = j * DrawStatePacket.groupSize := by omega
      obtain rfl : j = g.index := by
        have heq := Option.some.inj (hnode'.symm.trans hnode.1)
        exact FieldNode.array.inj heq
      exact ⟨hlast, hj, hfirst⟩
    · -- the cache has only nodes after those of the group's packet
      obtain ⟨C₃, hrun₃, -, hinfo⟩ := hC.last p hlast
      obtain rfl := Option.some.inj (hrun₁.symm.trans hrun₃)
      obtain rfl := Option.some.inj (hrun₀.symm.trans hrun₂)
      rw [hinfo, find?_groupsOf] at hput
      obtain ⟨j, -, hk, -⟩ := hput
      have hlt := (List.getElem?_eq_some_iff.mp hnode.1).1
      omega
  · rintro ⟨hlast, hi, hfirst⟩
    obtain ⟨C₀, hrun₀, -, hinfo⟩ := hC.last _ hlast
    refine ⟨C₀, C, _, hrun₀, hrun, isGroupNode_array hfits hi, ?_⟩
    rw [hparent, hinfo, find?_groupsOf]
    exact ⟨g.index, hi, rfl, rfl, hfirst⟩

/-! ## A run -/

theorem isSome_run_iff : (Monitor.run (onEvent E added) base t).isSome ↔
    ∀ t₁ ibIndex va h t₂, t = t₁ ++ .packet ibIndex va h :: t₂ →
      h.isOpcode CP_SET_DRAW_STATE = true → (⟨t₁, va, h⟩ : DrawStatePacket).Fits := by
  constructor
  · rintro hrun t₁ ibIndex va h t₂ rfl hop
    obtain ⟨C, hC⟩ := Option.isSome_iff_exists.mp hrun
    obtain ⟨C₁, C₂, -, hstep, -⟩ := Monitor.run_split hC
    have hpacket : C₁.onPacket E added va h = some C₂ := hstep
    rw [onPacket_setDrawState hop t₁] at hpacket
    obtain ⟨groups, hcache, -⟩ := Option.map_eq_some_iff.mp hpacket
    exact DrawStatePacket.fits_of_cache hcache
  · intro h
    induction t using List.reverseRecOn with
    | nil => rfl
    | append_singleton t e ih =>
      have hprefix := ih fun t₁ ibIndex va hd t₂ ht hop =>
        h t₁ ibIndex va hd (t₂ ++ [e]) (by rw [ht]; simp) hop
      obtain ⟨C, hC⟩ := Option.isSome_iff_exists.mp hprefix
      rw [Monitor.run_append_of hC, Monitor.run]
      cases e with
      | ibStart q ibIndex info ibType => rfl
      | ibEnd ibIndex info => rfl
      | packet ibIndex va hd =>
        cases hop : hd.isOpcode CP_SET_DRAW_STATE with
        | false =>
          obtain ⟨C₁, hC₁, -⟩ := @onPacket_other E added C va hd hop
          rw [onEvent, hC₁]
          rfl
        | true =>
          have hfits := h t ibIndex va hd [] rfl hop
          have hcache := DrawStatePacket.cacheSetDrawStateGroupInfo_eq (E := E) hfits C.nodeCount
          rw [onEvent, onPacket_setDrawState hop t, onSetDrawState, hcache]
          rfl

section Reachable

variable {ibs : List IndirectBufferInfo} {c : Config}

theorem unmixed_of_groupsKept (hc : E.Reachable ibs c) (h : GroupsKept E added base c.trace) :
    Monitor.Along (Provenance.next E) (Unmixed E) {} c.trace := by
  have hfrom := Monitor.along_iff.mp (Emulation.fromGroup_reachable hc)
  obtain ⟨hrun, hstarts⟩ := h
  rw [Monitor.along_iff]
  intro t₁ e t₂ ht
  cases e with
  | ibEnd ibIndex info => trivial
  | packet ibIndex va h =>
    intro hop
    rw [← provenance, calls_provenance]
    exact isSome_run_iff.mp hrun t₁ ibIndex va h t₂ ht hop
  | ibStart q ibIndex info ibType =>
    intro hdraw g hg
    obtain ⟨g', hg', -, rfl, hva, -⟩ := hfrom t₁ _ t₂ ht hdraw
    obtain rfl := Option.some.inj (hg.symm.trans hg')
    obtain ⟨g', hg', hq, -, hput⟩ := hstarts t₁ q ibIndex info _ t₂ ht hdraw
    obtain rfl := Option.some.inj (hg.symm.trans hg')
    obtain ⟨C₀, C, k, hrun₀, hrun₁, hrest⟩ := hput
    rw [hq] at hva
    exact (putBelow_iff hrun₁ hg hva).mp ⟨C₀, C, k, hrun₀, hrun₁, hrest⟩

theorem groupsKept_of_unmixed (hc : E.Reachable ibs c)
    (h : Monitor.Along (Provenance.next E) (Unmixed E) {} c.trace) :
    GroupsKept E added base c.trace := by
  have hfrom := Monitor.along_iff.mp (Emulation.fromGroup_reachable hc)
  rw [Monitor.along_iff] at h
  have hrun : (Monitor.run (onEvent E added) base c.trace).isSome := by
    refine isSome_run_iff.mpr fun t₁ ibIndex va hd t₂ ht hop => ?_
    have hfits := h t₁ _ t₂ ht hop
    rw [← provenance, calls_provenance] at hfits
    exact hfits
  refine ⟨hrun, fun t₁ q ibIndex info ibType t₂ ht hdraw => ?_⟩
  obtain ⟨g, hg, rfl, rfl, hva, hmask⟩ := hfrom t₁ _ t₂ ht hdraw
  obtain ⟨C, hC⟩ := Option.isSome_iff_exists.mp hrun
  rw [ht] at hC
  obtain ⟨C₁, hC₁⟩ := Monitor.run_prefix hC
  exact ⟨g, hg, rfl, hmask, (putBelow_iff hC₁ hg hva).mpr (h t₁ _ t₂ ht hdraw g hg)⟩

/-- **The groups keep their identity** exactly in the runs whose packets are not too long and whose
draw-state IBs are each that of the first group of the last packet with their address. -/
theorem groupsKept_iff (hc : E.Reachable ibs c) (added : ℕ → ℕ) (base : GroupCreator) :
    GroupsKept E added base c.trace ↔
      Monitor.Along (Provenance.next E) (Unmixed E) {} c.trace :=
  ⟨unmixed_of_groupsKept hc, groupsKept_of_unmixed hc⟩

end Reachable

theorem unmixed_ibStart {q : QueuedIb} {ibIndex : ℕ} {info : IndirectBufferInfo}
    {ibType : IbType} (hg : s.first = some g) (h : IsFirstOfLast E s g) :
    Unmixed E s (.ibStart q ibIndex info ibType) := by
  intro _ g' hg'
  rw [← Option.some.inj (hg.symm.trans hg')]
  exact h

/-! ### Two groups -/

/-- A packet with two groups, at these addresses. -/
def twoGroups (addr addr' : UInt32) : Emulation := Emulation.accepting [
  .ofDwords 0x1000 [0x70438006, 0x01000001, addr, 0, 0x02000001, addr', 0],
  .ofDwords 0x3000 [0x70108000], .ofDwords 0x4000 [0x70108000]]

def twoGroupsIbs : List IndirectBufferInfo := [{ vaAddr := 0x1000, sizeInDwords := 7 }]

def twoGroupsTrace (addr addr' : UInt64) : List Event := [
  .ibStart ⟨.kNormal, 0x1000, 7, false, 7⟩ 0 ⟨0x1000, 7, 1, 7, false⟩ .kNormal,
  .packet 0 0x1000 ⟨0x70438006⟩,
  .ibStart ⟨.kDrawState, addr, 1, false, 0⟩ 0 ⟨addr, 1, 2, 0, false⟩ .kDrawState,
  .packet 0 addr ⟨0x70108000⟩,
  .ibEnd 0 ⟨addr, 1, 1, 0, false⟩,
  .ibStart ⟨.kDrawState, addr', 1, false, 0⟩ 0 ⟨addr', 1, 2, 0, false⟩ .kDrawState,
  .packet 0 addr' ⟨0x70108000⟩,
  .ibEnd 0 ⟨addr', 1, 1, 0, false⟩,
  .ibEnd 0 ⟨0x1000, 7, 0, 0, false⟩]

theorem twoGroups_succeeds : (twoGroups 0x3000 0x4000).Succeeds twoGroupsIbs
    (twoGroupsTrace 0x3000 0x4000) := Emulation.succeeds_of_successTrace (n := 11) (by rfl)

/-- The packet is executed after the start of its IB. -/
def twoGroupsPacket : DrawStatePacket :=
  ⟨(twoGroupsTrace 0x3000 0x4000).take 1, 0x1000, ⟨0x70438006⟩⟩

/-- With different addresses, both groups keep their identity. -/
theorem groupsKept_twoGroups : ∃ c, (twoGroups 0x3000 0x4000).Reachable twoGroupsIbs c ∧
    c.trace = twoGroupsTrace 0x3000 0x4000 ∧
      GroupsKept (twoGroups 0x3000 0x4000) (fun _ => 0) {} c.trace := by
  obtain ⟨c, hc, -, htrace⟩ := twoGroups_succeeds
  refine ⟨c, hc, htrace, (groupsKept_iff hc _ _).mpr ?_⟩
  have hsecond : ∀ j < 1, twoGroupsPacket.addr (twoGroups 0x3000 0x4000) j ≠
      twoGroupsPacket.addr (twoGroups 0x3000 0x4000) 1 := by decide
  rw [htrace]
  refine ⟨nofun, fun _ => by decide,
    unmixed_ibStart (g := ⟨twoGroupsPacket, 0⟩) rfl ⟨rfl, by decide, fun j hj => ?_⟩,
    fun _ => by decide, trivial,
    unmixed_ibStart (g := ⟨twoGroupsPacket, 1⟩) rfl ⟨rfl, by decide, hsecond⟩,
    fun _ => by decide, trivial, trivial, trivial⟩
  exact absurd hj (Nat.not_lt_zero j)

theorem sameAddress_succeeds : (twoGroups 0x3000 0x3000).Succeeds twoGroupsIbs
    (twoGroupsTrace 0x3000 0x3000) := Emulation.succeeds_of_successTrace (n := 11) (by rfl)

/-- **Two groups with one address**: the IB of the second one is put below the node of the first
one. -/
theorem sameAddress_not_kept : (twoGroups 0x3000 0x3000).Succeeds twoGroupsIbs
      (twoGroupsTrace 0x3000 0x3000) ∧
    (∃ C, Monitor.run (onEvent (twoGroups 0x3000 0x3000) fun _ => 0) {}
        ((twoGroupsTrace 0x3000 0x3000).take 6) = some C ∧
      C.sharedNodeIbParentStack 2 = some 3) ∧
    ¬ GroupsKept (twoGroups 0x3000 0x3000) (fun _ => 0) {} (twoGroupsTrace 0x3000 0x3000) := by
  refine ⟨sameAddress_succeeds, ⟨_, by rfl, by decide⟩, fun hkept => ?_⟩
  obtain ⟨c, hc, -, htrace⟩ := sameAddress_succeeds
  rw [← htrace] at hkept
  have halong := unmixed_of_groupsKept hc hkept
  rw [htrace, Monitor.along_iff] at halong
  have hstart := halong ((twoGroupsTrace 0x3000 0x3000).take 5) _
    ((twoGroupsTrace 0x3000 0x3000).drop 6) rfl rfl
  obtain ⟨-, -, hfirst⟩ := hstart
    ⟨⟨(twoGroupsTrace 0x3000 0x3000).take 1, 0x1000, ⟨0x70438006⟩⟩, 1⟩ rfl
  exact hfirst 0 Nat.zero_lt_one (by decide)

end GroupCreator

end Dive
