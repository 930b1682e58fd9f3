import Dive.Gfxr.Hierarchy
import Dive.Hierarchy.Filters
import Dive.Hierarchy.Passes
import Dive.Hierarchy.RegisterIndices
import Dive.Lib.Planting

/-!
# The nodes of a PM4 capture in the topology of all events

* `CaptureTexts`: the texts of the nodes, and what is shown below a packet.
* `EventTreeCreator`: `CommandHierarchyCreator`, with the children in the topology of all events;
  `onIbStart`, `onPacket`, `onSubmitStart`, `onSubmitEnd`, `callbacks`.
* `InView`: the submits, presents, passes and events.
* `Sound`: all nodes but IBs and packets are attached once, those of the view below each other.
* **`sound_processSubmits`**: so it is after all submits of any capture.
-/

namespace Dive

open Planting

/-- The nodes that the topology of all events shows as a tree. -/
def NodeType.inAllEventView : NodeType → Bool
  | .kSubmitNode | .kPresentNode | .kRenderMarkerNode | .kEventNode => true
  | _ => false

/-- A register or a field below a packet, with the fields below it. -/
structure PacketItem where
  type : NodeType
  desc : String
  fields : List String
  type_eq : type = .kRegNode ∨ type = .kFieldNode

/-- The texts of the nodes, and what is shown below a packet. -/
structure CaptureTexts where
  submit : UInt32 → String
  /-- The presents after a submit. -/
  presents : UInt32 → List String
  ib : ℕ → IndirectBufferInfo → IbType → String
  packet : CapturedPacket → String
  /-- The registers or fields of `AddPacketNode`. -/
  packetItems : CapturedPacket → List PacketItem
  /-- Those of `AppendLoadStateExtBufferNode` and `AppendMemRegNodes`. -/
  loadedItems : RegisterTracker → CapturedPacket → List PacketItem
  /-- `GetEventString`. -/
  event : RegisterTracker → CapturedPacket → String

/-- `CommandHierarchyCreator`, as far as the children in the topology of all events go. -/
structure EventTreeCreator where
  nodes : List CommandHierarchyNode := []
  nodeChildren : List (List ℕ) := []
  stateTracker : RegisterTracker := {}
  curSubmitNodeIndex : ℕ := 0
  renderMarkerIndex : Option ℕ := none
  startBinNodeIndex : Option ℕ := none
  drawTableNodeIndex : Option ℕ := none

namespace EventTreeCreator

variable (C : EventTreeCreator) (info : Pm4Info) (texts : CaptureTexts)

/-! ## Nodes -/

/-- `AddNode`; the node has the index `C.nodes.length`. -/
def addNode (type : NodeType) (desc : String) : EventTreeCreator :=
  { C with nodes := C.nodes ++ [⟨type, .text desc⟩], nodeChildren := C.nodeChildren ++ [[]] }

def addChild (nodeIndex childNodeIndex : ℕ) : EventTreeCreator :=
  { C with nodeChildren := C.nodeChildren.modify nodeIndex (· ++ [childNodeIndex]) }

/-- A new node below a node. -/
def addBelow (parentNodeIndex : ℕ) (type : NodeType) (desc : String) : EventTreeCreator :=
  (C.addNode type desc).addChild parentNodeIndex C.nodes.length

/-- A register or field of a packet. The source attaches a register after its fields, which are
attached to the register. -/
def addItem (packetNodeIndex : ℕ) (item : PacketItem) : EventTreeCreator :=
  item.fields.foldl (fun D field => D.addBelow C.nodes.length .kFieldNode field)
    (C.addBelow packetNodeIndex item.type item.desc)

def addItems (packetNodeIndex : ℕ) (items : List PacketItem) : EventTreeCreator :=
  items.foldl (fun D item => D.addItem packetNodeIndex item) C

/-! ## Calls -/

/-- The field node of an IB of a bin or of a draw table. `none` is a child of a packet that was not
seen. -/
def addIbField (ibType : IbType) (desc : String) : Option EventTreeCreator :=
  if ibType = .kBinPrefix ∨ ibType = .kBinCommon then
    C.startBinNodeIndex.map fun parent => C.addBelow parent .kFieldNode desc
  else if ibType = .kFixedStrideDrawTable then
    C.drawTableNodeIndex.map fun parent => C.addBelow parent .kFieldNode desc
  else some C

/-- `OnIbStart`. The IB nodes have no parent in this topology. -/
def onIbStart (ibIndex : ℕ) (ib : IndirectBufferInfo) (ibType : IbType) :
    Option (Bool × EventTreeCreator) :=
  let C := { C with stateTracker := C.stateTracker.onIbStart ib }
  (C.addIbField ibType (texts.ib ibIndex ib ibType)).map fun C =>
    (true, C.addNode .kIbNode (texts.ib ibIndex ib ibType))

def onIbEnd : Option (Bool × EventTreeCreator) :=
  C.stateTracker.onIbEnd.map fun stateTracker => (true, { C with stateTracker })

/-- The part of `OnPacket` for an event. -/
def addEvent (p : CapturedPacket) : EventTreeCreator :=
  C.addBelow (C.renderMarkerIndex.getD C.curSubmitNodeIndex) .kEventNode
    (texts.event C.stateTracker p)

/-- The part of `OnPacket` for a `CP_SET_MARKER`. -/
def setMarker (p : CapturedPacket) : EventTreeCreator :=
  match (Marker.ofDword p.markerDword).desc with
  | none => C
  | some desc =>
    { C.addBelow C.curSubmitNodeIndex .kRenderMarkerNode desc with
      renderMarkerIndex := some C.nodes.length }

/-- The part of `OnPacket` for the packets that are no events. -/
def onOpcode (packetNodeIndex : ℕ) (p : CapturedPacket) (opcode : UInt32) : EventTreeCreator :=
  if opcode = CP_INDIRECT_BUFFER_PFE ∨ opcode = CP_INDIRECT_BUFFER_PFD ∨
      opcode = CP_INDIRECT_BUFFER_CHAIN ∨ opcode = CP_SET_AMBLE then C
  else if isLoadStateOpcode opcode ∨ opcode = CP_MEM_TO_REG then
    C.addItems packetNodeIndex (texts.loadedItems C.stateTracker p)
  else if opcode = CP_START_BIN then { C with startBinNodeIndex := some packetNodeIndex }
  else if opcode = CP_END_BIN then { C with startBinNodeIndex := none }
  else if opcode = CP_FIXED_STRIDE_DRAW_TABLE then
    { C with drawTableNodeIndex := some packetNodeIndex }
  else if opcode = CP_SET_MARKER then C.setMarker p
  else C

/-- `AddPacketNode`; the node has the index `C.nodes.length`. -/
def addPacketNode (p : CapturedPacket) : EventTreeCreator :=
  (C.addNode .kPacketNode (texts.packet p)).addItems C.nodes.length (texts.packetItems p)

/-- `OnPacket`. The packet nodes have no parent in this topology. -/
def onPacket (p : CapturedPacket) : Option (Bool × EventTreeCreator) :=
  (C.stateTracker.onPacket info.regInfo p).bind fun stateTracker =>
    let C := { C with stateTracker }
    if p.header.type ≠ 4 ∧ p.header.type ≠ 7 then some (true, C)
    else
      let packetNodeIndex := C.nodes.length
      let C := C.addPacketNode texts p
      let opcode := if p.header.type = 7 then p.header.type7Opcode else noOpcode
      (Util.isEvent info p opcode stateTracker).map fun isEvent =>
        (true, if isEvent then C.addEvent texts p else C.onOpcode texts packetNodeIndex p opcode)

def onSubmitStart (submitIndex : UInt32) : EventTreeCreator :=
  { C.addBelow Topology.kRootNodeIndex .kSubmitNode (texts.submit submitIndex) with
    curSubmitNodeIndex := C.nodes.length
    renderMarkerIndex := none
    stateTracker := C.stateTracker.reset }

def onSubmitEnd (submitIndex : UInt32) : EventTreeCreator :=
  (texts.presents submitIndex).foldl
    (fun D present => D.addBelow Topology.kRootNodeIndex .kPresentNode present) C

def callbacks : EmulateCallbacks EventTreeCreator where
  onSubmitStart := fun submitIndex C => C.onSubmitStart texts submitIndex
  onIbStart := fun C ibIndex ib ibType => C.onIbStart texts ibIndex ib ibType
  onIbEnd := fun C _ _ => C.onIbEnd
  onPacket := fun C _ p => C.onPacket info texts p
  onSubmitEnd := fun submitIndex C => C.onSubmitEnd texts submitIndex

/-- The creator with the root node, as `CreateTrees` leaves it. -/
def root : EventTreeCreator := ({} : EventTreeCreator).addNode .kRootNode ""

/-! ## Soundness -/

variable {C} {info} {texts} {type : NodeType} {desc : String} {parent n i : ℕ}

/-- The node is one of the view. -/
def InView (C : EventTreeCreator) (i : ℕ) : Prop :=
  ∃ node, C.nodes[i]? = some node ∧ node.type.inAllEventView

/-- A node is attached once, or is no node of the view; what is above a node of the view is the root
or a node of the view. -/
structure Sound (C : EventTreeCreator) : Prop where
  length_nodes : C.nodes.length = C.nodeChildren.length
  root : ¬ C.InView 0
  planted : ∃ pending, Planted C.nodeChildren pending ∧ ∀ i ∈ pending, ¬ C.InView i
  above : ∀ p c, c ∈ childrenIn C.nodeChildren p → C.InView c → p = 0 ∨ C.InView p
  submit : C.curSubmitNodeIndex < C.nodes.length
  submit_view : C.curSubmitNodeIndex = 0 ∨ C.InView C.curSubmitNodeIndex
  marker : ∀ n ∈ C.renderMarkerIndex, n < C.nodes.length ∧ C.InView n
  startBin : ∀ n ∈ C.startBinNodeIndex, n < C.nodes.length
  drawTable : ∀ n ∈ C.drawTableNodeIndex, n < C.nodes.length

theorem inView_addNode : (C.addNode type desc).InView i ↔
    C.InView i ∨ (i = C.nodes.length ∧ type.inAllEventView) := by
  unfold InView
  rw [addNode]
  rcases Nat.lt_trichotomy i C.nodes.length with hlt | rfl | hgt
  · rw [List.getElem?_append_left hlt]
    simp [hlt.ne]
  · simp
  · rw [List.getElem?_eq_none (by simp; omega), List.getElem?_eq_none hgt.le]
    simp [hgt.ne']

@[simp] theorem inView_addChild (c : ℕ) : (C.addChild parent c).InView i ↔ C.InView i := Iff.rfl

@[simp] theorem length_addBelow :
    (C.addBelow parent type desc).nodes.length = C.nodes.length + 1 := by
  simp [addBelow, addNode, addChild]

theorem inView_addBelow : (C.addBelow parent type desc).InView i ↔
    C.InView i ∨ (i = C.nodes.length ∧ type.inAllEventView) := inView_addNode

namespace Sound

theorem addNode (h : Sound C) (htype : type.inAllEventView = false) (desc : String) :
    Sound (C.addNode type desc) := by
  have hview : ∀ i, (C.addNode type desc).InView i ↔ C.InView i := by
    intro i
    rw [inView_addNode, htype]
    simp
  have hlength : (C.addNode type desc).nodes.length = C.nodes.length + 1 := by
    simp [EventTreeCreator.addNode]
  obtain ⟨pending, hplanted, hpending⟩ := h.planted
  refine ⟨?_, ?_, ⟨_, hplanted.addNode, ?_⟩, ?_, ?_, ?_, ?_, ?_, ?_⟩
  · simp [EventTreeCreator.addNode, h.length_nodes]
  · rw [hview]
    exact h.root
  · intro i hi
    rw [hview]
    rcases List.mem_cons.mp hi with rfl | hi
    · rintro ⟨node, hnode, -⟩
      rw [← h.length_nodes, List.getElem?_eq_none le_rfl] at hnode
      cases hnode
    · exact hpending i hi
  · intro p c hc
    rw [hview, hview]
    rw [EventTreeCreator.addNode, childrenIn_addNode] at hc
    exact h.above p c hc
  · rw [hlength]
    exact Nat.lt_succ_of_lt h.submit
  · rw [hview]
    exact h.submit_view
  · intro n hn
    rw [hlength, hview]
    exact ⟨Nat.lt_succ_of_lt (h.marker n hn).1, (h.marker n hn).2⟩
  · intro n hn
    rw [hlength]
    exact Nat.lt_succ_of_lt (h.startBin n hn)
  · intro n hn
    rw [hlength]
    exact Nat.lt_succ_of_lt (h.drawTable n hn)

theorem addBelow (h : Sound C) (hparent : parent < C.nodes.length)
    (hview : type.inAllEventView → parent = 0 ∨ C.InView parent) (desc : String) :
    Sound (C.addBelow parent type desc) := by
  have hmono : ∀ i, C.InView i → (C.addBelow parent type desc).InView i := fun i hi =>
    inView_addBelow.mpr (.inl hi)
  obtain ⟨pending, hplanted, hpending⟩ := h.planted
  have hlt : parent < (C.nodeChildren ++ [[]]).length := by
    rw [List.length_append, ← h.length_nodes]
    omega
  refine ⟨?_, ?_, ⟨pending, ?_, ?_⟩, ?_, ?_, ?_, ?_, ?_, ?_⟩
  · simp [EventTreeCreator.addBelow, EventTreeCreator.addNode, EventTreeCreator.addChild,
      h.length_nodes]
  · rw [inView_addBelow]
    rintro (hold | ⟨hzero, -⟩)
    · exact h.root hold
    · omega
  · have hnode := hplanted.addNode
    rw [← h.length_nodes] at hnode
    exact hnode.addChild hlt hparent
  · intro i hi
    rw [inView_addBelow]
    rintro (hold | ⟨rfl, -⟩)
    · exact hpending i hi hold
    · have hmem := hplanted.perm.mem_iff.mp (List.mem_append_right _ hi)
      rw [List.mem_range'_1, h.length_nodes] at hmem
      omega
  · intro p c hc hcview
    change c ∈ childrenIn ((C.nodeChildren ++ [[]]).modify parent (· ++ [C.nodes.length])) p at hc
    rw [childrenIn_addChild hlt, childrenIn_addNode] at hc
    have hold : c ∈ childrenIn C.nodeChildren p → p = 0 ∨
        (C.addBelow parent type desc).InView p := by
      intro hmem
      have hbounds := (hplanted.child_bounds hmem).2
      rw [← h.length_nodes] at hbounds
      rcases inView_addBelow.mp hcview with hcview | ⟨rfl, -⟩
      · exact (h.above p c hmem hcview).imp_right (hmono p)
      · exact absurd hbounds (Nat.lt_irrefl _)
    split_ifs at hc with hp
    · rcases List.mem_append.mp hc with hmem | hnew
      · exact hold hmem
      · obtain rfl := List.mem_singleton.mp hnew
        rcases inView_addBelow.mp hcview with ⟨node, hnode, -⟩ | ⟨-, htype⟩
        · rw [List.getElem?_eq_none le_rfl] at hnode
          cases hnode
        · rw [← hp]
          exact (hview htype).imp_right (hmono parent)
    · exact hold hc
  · rw [length_addBelow]
    exact Nat.lt_succ_of_lt h.submit
  · exact h.submit_view.imp_right (hmono _)
  · intro n hn
    rw [length_addBelow]
    exact ⟨Nat.lt_succ_of_lt (h.marker n hn).1, hmono n (h.marker n hn).2⟩
  · intro n hn
    rw [length_addBelow]
    exact Nat.lt_succ_of_lt (h.startBin n hn)
  · intro n hn
    rw [length_addBelow]
    exact Nat.lt_succ_of_lt (h.drawTable n hn)

theorem of_cursors (h : Sound C) {stateTracker : RegisterTracker} {submit : ℕ}
    {marker startBin drawTable : Option ℕ} (hsubmit : submit < C.nodes.length)
    (hsview : submit = 0 ∨ C.InView submit)
    (hmarker : ∀ n ∈ marker, n < C.nodes.length ∧ C.InView n)
    (hbin : ∀ n ∈ startBin, n < C.nodes.length) (hdraw : ∀ n ∈ drawTable, n < C.nodes.length) :
    Sound ⟨C.nodes, C.nodeChildren, stateTracker, submit, marker, startBin, drawTable⟩ :=
  ⟨h.length_nodes, h.root, h.planted, h.above, hsubmit, hsview, hmarker, hbin, hdraw⟩

theorem withTracker (h : Sound C) (stateTracker : RegisterTracker) :
    Sound { C with stateTracker } :=
  h.of_cursors h.submit h.submit_view h.marker h.startBin h.drawTable

/-! ### Packets -/

theorem foldl_addBelow {texts : List String} (h : Sound C) (hparent : parent < C.nodes.length)
    (hview : type.inAllEventView → parent = 0 ∨ C.InView parent) :
    Sound (texts.foldl (fun D text => D.addBelow parent type text) C) ∧
      C.nodes.length ≤ (texts.foldl (fun D text => D.addBelow parent type text) C).nodes.length := by
  induction texts generalizing C with
  | nil => exact ⟨h, le_rfl⟩
  | cons text texts ih =>
    have hnext := h.addBelow hparent hview text
    have hmono : type.inAllEventView → parent = 0 ∨ (C.addBelow parent type text).InView parent :=
      fun htype => (hview htype).imp_right fun hp => inView_addBelow.mpr (.inl hp)
    have hrest := ih hnext (by rw [length_addBelow]; omega) hmono
    rw [length_addBelow] at hrest
    exact ⟨hrest.1, (Nat.le_succ _).trans hrest.2⟩

theorem addItem (h : Sound C) (hn : n < C.nodes.length) (item : PacketItem) :
    Sound (C.addItem n item) ∧ C.nodes.length ≤ (C.addItem n item).nodes.length := by
  have htype : item.type.inAllEventView = false := by
    rcases item.type_eq with heq | heq <;> rw [heq] <;> rfl
  have hitem : Sound (C.addBelow n item.type item.desc) :=
    h.addBelow hn (by simp [htype]) item.desc
  have hfields := @foldl_addBelow _ .kFieldNode C.nodes.length item.fields hitem
    (by rw [length_addBelow]; omega) (by simp [NodeType.inAllEventView])
  rw [length_addBelow] at hfields
  exact ⟨hfields.1, (Nat.le_succ _).trans hfields.2⟩

theorem addItems (h : Sound C) (hn : n < C.nodes.length) (items : List PacketItem) :
    Sound (C.addItems n items) ∧ C.nodes.length ≤ (C.addItems n items).nodes.length := by
  induction items generalizing C with
  | nil => exact ⟨h, le_rfl⟩
  | cons item items ih =>
    have hitem := h.addItem hn item
    have hrest := ih hitem.1 (hn.trans_le hitem.2)
    exact ⟨hrest.1, hitem.2.trans hrest.2⟩

theorem setMarker (h : Sound C) (p : CapturedPacket) : Sound (C.setMarker p) := by
  unfold EventTreeCreator.setMarker
  cases (Marker.ofDword p.markerDword).desc with
  | none => exact h
  | some desc =>
    have hnode : Sound (C.addBelow C.curSubmitNodeIndex .kRenderMarkerNode desc) :=
      h.addBelow h.submit (fun _ => h.submit_view) desc
    refine hnode.of_cursors hnode.submit hnode.submit_view ?_ hnode.startBin hnode.drawTable
    intro n hn
    obtain rfl := Option.mem_some_iff.mp hn
    rw [length_addBelow, inView_addBelow]
    exact ⟨Nat.lt_succ_self _, .inr ⟨rfl, rfl⟩⟩

theorem addEvent (h : Sound C) (p : CapturedPacket) : Sound (C.addEvent texts p) := by
  unfold EventTreeCreator.addEvent
  cases hmarker : C.renderMarkerIndex with
  | none => exact h.addBelow h.submit (fun _ => h.submit_view) _
  | some n =>
    have hn := h.marker n hmarker
    exact h.addBelow hn.1 (fun _ => .inr hn.2) _

theorem onOpcode (h : Sound C) (hn : n < C.nodes.length) (p : CapturedPacket) (opcode : UInt32) :
    Sound (C.onOpcode texts n p opcode) := by
  have hsome : ∀ i ∈ some n, i < C.nodes.length := by
    intro i hi
    rwa [← Option.mem_some_iff.mp hi]
  unfold EventTreeCreator.onOpcode
  split_ifs
  · exact h
  · exact (h.addItems hn _).1
  · exact h.of_cursors h.submit h.submit_view h.marker hsome h.drawTable
  · exact h.of_cursors h.submit h.submit_view h.marker (by simp) h.drawTable
  · exact h.of_cursors h.submit h.submit_view h.marker h.startBin hsome
  · exact h.setMarker p
  · exact h

theorem addPacketNode (h : Sound C) (p : CapturedPacket) : Sound (C.addPacketNode texts p) ∧
    C.nodes.length < (C.addPacketNode texts p).nodes.length := by
  have hnode : Sound (C.addNode .kPacketNode (texts.packet p)) := h.addNode rfl _
  have hlt : C.nodes.length < (C.addNode .kPacketNode (texts.packet p)).nodes.length := by
    simp [EventTreeCreator.addNode]
  have hitems := hnode.addItems hlt (texts.packetItems p)
  exact ⟨hitems.1, hlt.trans_le hitems.2⟩

/-! ### The calls -/

theorem onIbStart (h : Sound C) {ibIndex : ℕ} {ib : IndirectBufferInfo} {ibType : IbType}
    {reply : Bool × EventTreeCreator} (hreply : C.onIbStart texts ibIndex ib ibType = some reply) :
    Sound reply.2 := by
  obtain ⟨D, hD, rfl⟩ := Option.map_eq_some_iff.mp hreply
  refine Sound.addNode ?_ rfl _
  have htracker := h.withTracker (C.stateTracker.onIbStart ib)
  unfold addIbField at hD
  split_ifs at hD
  · obtain ⟨parent, hparent, rfl⟩ := Option.map_eq_some_iff.mp hD
    exact htracker.addBelow (h.startBin parent hparent) (by simp [NodeType.inAllEventView]) _
  · obtain ⟨parent, hparent, rfl⟩ := Option.map_eq_some_iff.mp hD
    exact htracker.addBelow (h.drawTable parent hparent) (by simp [NodeType.inAllEventView]) _
  · cases hD
    exact htracker

theorem onPacket (h : Sound C) {p : CapturedPacket} {reply : Bool × EventTreeCreator}
    (hreply : C.onPacket info texts p = some reply) : Sound reply.2 := by
  obtain ⟨stateTracker, -, hrest⟩ := Option.bind_eq_some_iff.mp hreply
  have htracker := h.withTracker stateTracker
  dsimp only at hrest
  by_cases hskip : p.header.type ≠ 4 ∧ p.header.type ≠ 7
  · rw [if_pos hskip] at hrest
    cases hrest
    exact htracker
  · rw [if_neg hskip] at hrest
    obtain ⟨isEvent, -, rfl⟩ := Option.map_eq_some_iff.mp hrest
    have hpacket := @addPacketNode _ texts htracker p
    cases isEvent with
    | true => exact hpacket.1.addEvent p
    | false => exact hpacket.1.onOpcode hpacket.2 p _

theorem onSubmitStart (h : Sound C) (submitIndex : UInt32) :
    Sound (C.onSubmitStart texts submitIndex) := by
  have hroot : Topology.kRootNodeIndex < C.nodes.length := Nat.zero_lt_of_lt h.submit
  have hnode : Sound (C.addBelow Topology.kRootNodeIndex .kSubmitNode (texts.submit submitIndex)) :=
    h.addBelow hroot (fun _ => .inl rfl) _
  refine hnode.of_cursors ?_ ?_ (by simp) hnode.startBin hnode.drawTable
  · rw [length_addBelow]
    exact Nat.lt_succ_self _
  · exact .inr (inView_addBelow.mpr (.inr ⟨rfl, rfl⟩))

theorem onSubmitEnd (h : Sound C) (submitIndex : UInt32) :
    Sound (C.onSubmitEnd texts submitIndex) :=
  (h.foldl_addBelow (Nat.zero_lt_of_lt h.submit) fun _ => .inl rfl).1

/-- **One call.** -/
theorem next (h : Sound C) {memManager : IMemoryManager} {call : Call} {D : EventTreeCreator}
    (hnext : (callbacks info texts).next memManager C call = some D) : Sound D := by
  obtain ⟨reply, hreply, rfl⟩ := Option.map_eq_some_iff.mp hnext
  cases call with
  | submitStart submitIndex =>
    cases hreply
    exact h.onSubmitStart submitIndex
  | submitEnd submitIndex =>
    cases hreply
    exact h.onSubmitEnd submitIndex
  | event submitIndex e =>
    cases e with
    | ibStart q ibIndex ib ibType => exact h.onIbStart hreply
    | ibEnd ibIndex ib =>
      obtain ⟨stateTracker, -, rfl⟩ := Option.map_eq_some_iff.mp hreply
      exact h.withTracker stateTracker
    | packet ibIndex va hd => exact h.onPacket hreply

end Sound

theorem sound_root : Sound root where
  length_nodes := rfl
  root := by
    rintro ⟨node, hnode, hview⟩
    cases hnode
    cases hview
  planted := ⟨[], planted_root, by simp⟩
  above := by
    intro p c hc
    cases p <;> simp [root, addNode, childrenIn] at hc
  submit := Nat.zero_lt_one
  submit_view := .inl rfl
  marker := by simp [root, addNode]
  startBin := by simp [root, addNode]
  drawTable := by simp [root, addNode]

theorem alwaysGoesOn (info : Pm4Info) (texts : CaptureTexts) (memManager : IMemoryManager) :
    (callbacks info texts).AlwaysGoesOn memManager := by
  intro C call reply hreply
  cases call with
  | submitStart submitIndex =>
    cases hreply
    rfl
  | submitEnd submitIndex =>
    cases hreply
    rfl
  | event submitIndex e =>
    cases e with
    | ibStart q ibIndex ib ibType =>
      obtain ⟨D, -, rfl⟩ := Option.map_eq_some_iff.mp hreply
      rfl
    | ibEnd ibIndex ib =>
      obtain ⟨stateTracker, -, rfl⟩ := Option.map_eq_some_iff.mp hreply
      rfl
    | packet ibIndex va hd =>
      obtain ⟨stateTracker, -, hrest⟩ := Option.bind_eq_some_iff.mp hreply
      dsimp only at hrest
      by_cases hskip : hd.type ≠ 4 ∧ hd.type ≠ 7
      · rw [if_pos hskip] at hrest
        cases hrest
        rfl
      · rw [if_neg hskip] at hrest
        obtain ⟨isEvent, -, rfl⟩ := Option.map_eq_some_iff.mp hrest
        rfl

/-- **All submits of a capture.** -/
theorem sound_processSubmits {memManager : IMemoryManager} {k : ℕ}
    {submits : List Pm4CaptureData.SubmitInfo} {calls : List Call}
    (h : (callbacks info texts).ProcessSubmits memManager k submits root calls C) : Sound C :=
  Monitor.run_invariant sound_root h.run fun _ _ _ _ hC hnext => hC.next hnext

end EventTreeCreator

end Dive
