import Dive.Hierarchy.Topology
import Dive.Pm4.Packet

/-!
# The command-buffer view model

* `SelectionTopology`: a topology with the range of shared children that each of its nodes selects.
* `QModelIndex`: an index; one without a row is not valid.
* `index`, `parent`, `rowCount`: the model.
* `createNodeToParentMap`: the recursion over the rows, with `fuel` for its depth.
* `onSelectionChanged`: a selection.

A read outside of a vector is `none`. A row is a natural number: it fits an `int`.
-/

namespace Dive

/-- `SharedNodeTopology`, with the shared children that a node selects. -/
structure SelectionTopology extends SharedNodeTopology where
  startSharedChild : List ℕ := []
  endSharedChild : List ℕ := []
  rootNodeIndex : List ℕ := []

namespace SelectionTopology

variable (t : SelectionTopology)

def getNumSharedChildren (nodeIndex : ℕ) : Option ℕ :=
  (t.nodeSharedChildren[nodeIndex]?).map ChildrenInfo.numChildren

def getSharedChildNodeIndex (nodeIndex childIndex : ℕ) : Option ℕ := do
  let info ← t.nodeSharedChildren[nodeIndex]?
  t.sharedChildrenIndices[info.startIndex + childIndex]?

def getStartSharedChildNodeIndex (nodeIndex : ℕ) : Option ℕ := t.startSharedChild[nodeIndex]?

def getEndSharedChildNodeIndex (nodeIndex : ℕ) : Option ℕ := t.endSharedChild[nodeIndex]?

def getSharedChildRootNodeIndex (nodeIndex : ℕ) : Option ℕ := t.rootNodeIndex[nodeIndex]?

/-- The children that a loop reads. -/
def children (nodeIndex : ℕ) : Option (List ℕ) := do
  let numChildren ← t.getNumChildren nodeIndex
  (List.range numChildren).mapM (t.getChildNodeIndex nodeIndex)

def sharedChildren (nodeIndex : ℕ) : Option (List ℕ) := do
  let numChildren ← t.getNumSharedChildren nodeIndex
  (List.range numChildren).mapM (t.getSharedChildNodeIndex nodeIndex)

end SelectionTopology

/-- What the model reads of `CommandHierarchy`: the number of nodes, and the opcodes of the packets. -/
structure PacketHierarchy where
  size : UInt64
  packetOpcode : ℕ → Option UInt8

namespace CommandBufferModel

/-- `kColumnCount`. -/
def columnCount : ℕ := 3

structure QModelIndex where
  /-- `none` for -1. -/
  row : Option ℕ := none
  column : ℕ := 0
  internalId : ℕ := 0
  deriving DecidableEq

def QModelIndex.isValid (index : QModelIndex) : Bool := index.row.isSome

/-- `createIndex`. -/
def createIndex (row : Option ℕ) (column internalId : ℕ) : QModelIndex := ⟨row, column, internalId⟩

/-- The members; `parentList` is `m_node_parent_list`. -/
structure State where
  selectedNodeIndex : ℕ := kInvalidNodeIndex
  parentList : List QModelIndex := []
  isSelectedBitList : List Bool := []
  scrollToIndex : QModelIndex := {}

section Model

variable (t : SelectionTopology) (s : State)

def rowCount (parent : QModelIndex) : Option ℕ :=
  if 0 < parent.column then some 0
  else if s.selectedNodeIndex = kInvalidNodeIndex then some 0
  else if !parent.isValid then do
    let root ← t.getSharedChildRootNodeIndex s.selectedNodeIndex
    t.getNumSharedChildren root
  else do
    let numChildren ← t.getNumChildren parent.internalId
    let numShared ← t.getNumSharedChildren parent.internalId
    some (numChildren + numShared)

/-- `hasIndex`. -/
def hasIndex (row column : ℕ) (parent : QModelIndex) : Option Bool := do
  let rows ← rowCount t s parent
  some (row < rows && column < columnCount)

def index (row column : ℕ) (parent : QModelIndex) : Option QModelIndex := do
  if !(← hasIndex t s row column parent) then some {}
  else if !parent.isValid then do
    let root ← t.getSharedChildRootNodeIndex s.selectedNodeIndex
    let node ← t.getSharedChildNodeIndex root row
    some (createIndex (some row) column node)
  else do
    let numChildren ← t.getNumChildren parent.internalId
    let numShared ← t.getNumSharedChildren parent.internalId
    let child ←
      if row < numChildren then t.getChildNodeIndex parent.internalId row
      else if 0 < numShared then t.getSharedChildNodeIndex parent.internalId (row - numChildren)
      else some kInvalidNodeIndex
    if child ≠ kInvalidNodeIndex then some (createIndex (some row) column child) else some {}

def parent (index : QModelIndex) : Option QModelIndex :=
  if !index.isValid then some {} else s.parentList[index.internalId]?

def isSelected (nodeIndex : ℕ) : Bool := s.isSelectedBitList.getD nodeIndex false

end Model

/-! ## A selection -/

/-- `m_node_parent_list` and `m_node_is_selected_bit_list`, while they are filled. -/
structure Maps where
  parentList : List QModelIndex
  isSelectedBitList : List Bool

def Maps.setParent (m : Maps) (child : ℕ) (index : QModelIndex) : Option Maps :=
  if child < m.parentList.length then some { m with parentList := m.parentList.set child index }
  else none

/-- `SetIsSelected`. -/
def Maps.setIsSelected (m : Maps) (node : ℕ) : Option Maps :=
  if node < m.isSelectedBitList.length then
    some { m with isSelectedBitList := m.isSelectedBitList.set node true }
  else none

/-- The packet calls an indirect buffer. -/
def callsIb (h : PacketHierarchy) (node : ℕ) : Bool :=
  match h.packetOpcode node with
  | some opcode => opcode.toUInt32 = CP_START_BIN || opcode.toUInt32 = CP_INDIRECT_BUFFER_PFE ||
      opcode.toUInt32 = CP_INDIRECT_BUFFER_PFD || opcode.toUInt32 = CP_INDIRECT_BUFFER_CHAIN
  | none => false

section Selection

variable (h : PacketHierarchy) (t : SelectionTopology)

/-- The children that `CreateNodeToParentMap` goes through: none of the root, which has no row. -/
def fieldsBelow (parentRow : Option ℕ) (node : ℕ) : Option (List ℕ) :=
  if parentRow.isSome then t.children node else some []

/-- `CreateNodeToParentMap`. -/
def createNodeToParentMap (startNode endNode : ℕ) :
    ℕ → Option ℕ → ℕ → Bool × Maps → Option (Bool × Maps)
  | 0, _, _, _ => none
  | fuel + 1, parentRow, node, (partOfSelected, m) => do
    let m ← if partOfSelected then m.setIsSelected node else some m
    let isSelected := partOfSelected && !(node = endNode && callsIb h node)
    let modelIndex := createIndex parentRow 0 node
    let children ← fieldsBelow t parentRow node
    let s ← children.zipIdx.foldlM (fun (isSelected, m) (child, row) => do
      let m ← m.setParent child modelIndex
      createNodeToParentMap startNode endNode fuel (some row) child (isSelected, m))
      (isSelected, m)
    let shared ← t.sharedChildren node
    (shared.zipIdx children.length).foldlM (fun (isSelected, m) (child, row) => do
      let m ← m.setParent child modelIndex
      let (isSelected, m) ← createNodeToParentMap startNode endNode fuel (some row) child
        (isSelected || child = startNode, m)
      some (if child = endNode then false else isSelected, m)) s

/-- The index for the end, which is the shared child with a number: its last field if that is
selected. -/
def scrollToEnd (m : Maps) (endNode child : ℕ) : Option QModelIndex := do
  let numChildren ← t.getNumChildren endNode
  if 0 < numChildren then do
    let lastNode ← t.getChildNodeIndex endNode (numChildren - 1)
    if m.isSelectedBitList.getD lastNode false then
      some (createIndex (some (numChildren - 1)) 0 lastNode)
    else some (createIndex (some child) 0 endNode)
  else some (createIndex (some child) 0 endNode)

/-- The search for the scroll-to index. -/
def findScrollTo (m : Maps) (endNode : ℕ) : Option QModelIndex := do
  let parentNode ← (m.parentList[endNode]?).map QModelIndex.internalId
  let shared ← t.sharedChildren parentNode
  shared.zipIdx.foldlM (fun scrollTo c =>
    if c.1 = endNode then scrollToEnd t m endNode c.2 else some scrollTo) {}

/-- `OnSelectionChanged`; `source` is the index that a filter model maps the selected one to. -/
def onSelectionChanged (fuel : ℕ) (s : State) (internalId : ℕ) (source : Option ℕ) :
    Option State :=
  if s.selectedNodeIndex = internalId then some s
  else do
    let selected := source.getD internalId
    let root ← t.getSharedChildRootNodeIndex selected
    let startNode ← t.getStartSharedChildNodeIndex selected
    let endNode ← t.getEndSharedChildNodeIndex selected
    let m : Maps :=
      { parentList := (s.parentList.take h.size.toNat).rightpad h.size.toNat {}
        isSelectedBitList := List.replicate ((h.size.toNat + 7) / 8 * 8) false }
    let (_, m) ← createNodeToParentMap h t startNode endNode fuel none root (false, m)
    let scrollTo ← if selected ≠ root then findScrollTo t m endNode else some s.scrollToIndex
    some ⟨selected, m.parentList, m.isSelectedBitList, scrollTo⟩

end Selection

end CommandBufferModel

end Dive
