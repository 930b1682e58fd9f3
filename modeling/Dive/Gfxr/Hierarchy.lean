import Dive.Gfxr.CaptureData
import Dive.Hierarchy.Topology
import Dive.Lib.Traverse

/-!
# The hierarchy of a GFXR capture

* `CommandHierarchyNode`: a node, with its type and what its text is made of.
* `State`: `GfxrVulkanCommandHierarchyCreator`, alone or in a mixed hierarchy.
* `addNode`, `addChild`, `getArgs`, `onCommand`, `processVkCmds`, `onGfxrSubmit`,
  `processGfxrSubmits`, `createTrees`: as in the source. The begin of a label has `pLabelInfo` and
  `pLabelName`; without them the source throws.
-/

namespace Dive

open DiveAnnotationProcessor

inductive NodeType
  | kRootNode
  | kEngineNode
  | kSubmitNode
  | kIbNode
  | kMarkerNode
  | kEventNode
  | kPostambleStateNode
  | kPacketNode
  | kRegNode
  | kFieldNode
  | kPresentNode
  | kRenderMarkerNode
  | kGfxrVulkanSubmitNode
  | kGfxrVulkanBeginCommandBufferNode
  | kGfxrVulkanEndCommandBufferNode
  | kGfxrVulkanCommandNode
  | kGfxrVulkanCommandArgNode
  | kGfxrVulkanDrawCommandNode
  | kGfxrVulkanBeginRenderPassCommandNode
  | kGfxrVulkanEndRenderPassCommandNode
  | kGfxrBeginDebugUtilsLabelCommandNode
  | kGfxrVulkanCopyBufferCommandNode
  | kGfxrVulkanClearAttachmentsCommandNode
  | kGfxrVulkanClearColorImageCommandNode
  | kGfxrVulkanClearDepthStencilImageCommandNode
  | kGfxrVulkanResolveImageCommandNode
  | kGfxrRootFrameNode
  deriving DecidableEq, Repr

/-- What the description of a node is made of. -/
inductive NodeDesc
  | text (s : String)
  | submit (name : String) (submitIndex commandBufferCount : ℕ)
  | command (name : String) (args : Json) (drawCallCount : Option ℕ)
  /-- `pLabelName` of `pLabelInfo`. -/
  | label (args : Json)
  | key (key : String)
  | keyValue (key : String) (value : Json)
  | value (element : Json)
  /-- `element_` and the index. -/
  | element (i : ℕ)

structure CommandHierarchyNode where
  type : NodeType
  desc : NodeDesc

namespace GfxrVulkanCommandHierarchyCreator

/-- The creator, with the nodes of the hierarchy that it fills. -/
structure State where
  nodes : List CommandHierarchyNode := []
  /-- The children in the topology of all events. -/
  nodeChildren : List (List ℕ) := []
  usedInMixedCommandHierarchy : Bool := false
  diveIndicesToLocalIndicesMap : ℕ → Option ℕ := fun _ => none
  curSubmitNodeIndex : ℕ := 0
  curCommandBufferNodeIndex : ℕ := 0
  /-- The top comes first. -/
  curParentNodeIndexStack : List ℕ := []

namespace State

variable (s : State)

def getNodeType (nodeIndex : ℕ) : Option NodeType :=
  (s.nodes[nodeIndex]?).map CommandHierarchyNode.type

/-! ## Nodes and children -/

/-- The node and its index. -/
def addNode (type : NodeType) (desc : NodeDesc) : State × ℕ :=
  let nodeIndex := s.nodes.length
  let nodes := s.nodes ++ [⟨type, desc⟩]
  let nodeChildren := s.nodeChildren ++ [[]]
  if s.usedInMixedCommandHierarchy then
    let localNodeIndex := s.nodeChildren.length
    ({ s with
        nodes, nodeChildren
        diveIndicesToLocalIndicesMap :=
          Function.update s.diveIndicesToLocalIndicesMap nodeIndex (some localNodeIndex) }, nodeIndex)
  else ({ s with nodes, nodeChildren }, nodeIndex)

/-- Where the children of a node are in `nodeChildren`. -/
def localIndex (nodeIndex : ℕ) : ℕ :=
  if s.usedInMixedCommandHierarchy then
    (s.diveIndicesToLocalIndicesMap nodeIndex).getD nodeIndex
  else nodeIndex

def addChild (nodeIndex childNodeIndex : ℕ) : State :=
  { s with
    nodeChildren := s.nodeChildren.modify (s.localIndex nodeIndex) (· ++ [childNodeIndex]) }

/-- The children that have been added below a node. -/
def childrenAt (nodeIndex : ℕ) : List ℕ := (s.nodeChildren[s.localIndex nodeIndex]?).getD []

/-! ## Arguments -/

/-- A new argument node below `currIndex`. -/
def addArg (currIndex : ℕ) (desc : NodeDesc) : State × ℕ :=
  let (s, argIndex) := s.addNode .kGfxrVulkanCommandArgNode desc
  (s.addChild currIndex argIndex, argIndex)

mutual

def getArgs (s : State) (currIndex : ℕ) : Json → State
  | .object members => getMembers s currIndex members
  | .array elements => getElements s currIndex elements
  | _ => s

/-- The loop over the members of an object. -/
def getMembers (s : State) (currIndex : ℕ) : List (String × Json) → State
  | [] => s
  | member :: members => getMembers (getMember s currIndex member) currIndex members

/-- A member of an object, and what it holds. -/
def getMember (s : State) (currIndex : ℕ) : String × Json → State
  | (key, .object members) =>
    let (s, objectNodeIndex) := s.addArg currIndex (.key key)
    getMembers s objectNodeIndex members
  | (key, .array elements) =>
    let (s, arrayNodeIndex) := s.addArg currIndex (.key key)
    getValueElements s arrayNodeIndex 0 elements
  | (key, val) => (s.addArg currIndex (.keyValue key val)).1

/-- The loop over the elements of an array that is the value of a member. -/
def getValueElements (s : State) (arrayNodeIndex i : ℕ) : List Json → State
  | [] => s
  | element :: elements =>
    getValueElements (getValueElement s arrayNodeIndex i element) arrayNodeIndex (i + 1) elements

def getValueElement (s : State) (arrayNodeIndex i : ℕ) : Json → State
  | .object members => getMembers s arrayNodeIndex members
  | .array elements =>
    let (s, nestedArrayNodeIndex) := s.addArg arrayNodeIndex (.element i)
    getElements s nestedArrayNodeIndex elements
  | element => (s.addArg arrayNodeIndex (.value element)).1

/-- The loop over the elements of an array. -/
def getElements (s : State) (currIndex : ℕ) : List Json → State
  | [] => s
  | element :: elements => getElements (getElement s currIndex element) currIndex elements

def getElement (s : State) (currIndex : ℕ) : Json → State
  | .object members => getMembers s currIndex members
  | .array elements => getElements s currIndex elements
  | element => (s.addArg currIndex (.value element)).1

end

end State

/-! ## Commands -/

/-- The branches of `OnCommand`. -/
inductive CommandKind
  | beginCommandBuffer
  | endCommandBuffer
  | beginDebugUtilsLabel
  | endDebugUtilsLabel
  | draw
  | beginRenderPass
  | endRenderPass
  | other
  deriving DecidableEq

/-- The comparisons in `OnCommand`. -/
def commandKind (vulkanCmdName : String) : CommandKind :=
  if vulkanCmdName == "vkBeginCommandBuffer" then .beginCommandBuffer
  else if vulkanCmdName == "vkEndCommandBuffer" then .endCommandBuffer
  else if find vulkanCmdName "BeginDebugUtilsLabelEXT" then .beginDebugUtilsLabel
  else if find vulkanCmdName "EndDebugUtilsLabelEXT" then .endDebugUtilsLabel
  else if find vulkanCmdName "vkCmdDraw" || find vulkanCmdName "vkCmdDispatch" then .draw
  else if find vulkanCmdName "vkCmdBeginRenderPass" then .beginRenderPass
  else if find vulkanCmdName "vkCmdEndRenderPass" then .endRenderPass
  else .other

/-- The node types of the last branch. -/
def otherNodeType (vulkanCmdName : String) : NodeType :=
  if find vulkanCmdName "vkCmdCopyBuffer" then .kGfxrVulkanCopyBufferCommandNode
  else if find vulkanCmdName "vkCmdClearAttachments" then .kGfxrVulkanClearAttachmentsCommandNode
  else if find vulkanCmdName "vkCmdClearColorImage" then .kGfxrVulkanClearColorImageCommandNode
  else if find vulkanCmdName "vkCmdClearDepthStencilImage" then
    .kGfxrVulkanClearDepthStencilImageCommandNode
  else if find vulkanCmdName "vkCmdResolveImage" then .kGfxrVulkanResolveImageCommandNode
  else .kGfxrVulkanCommandNode

namespace State

variable (s : State)

def conditionallyAddChild (nodeIndex : ℕ) : State :=
  match s.curParentNodeIndexStack with
  | [] => s.addChild s.curCommandBufferNodeIndex nodeIndex
  | top :: _ => s.addChild top nodeIndex

/-- The node of a command with its arguments, below the scope that is open. -/
def addCommand (type : NodeType) (desc : NodeDesc) (args : Json) : State × ℕ :=
  let (s, vkCmdIndex) := s.addNode type desc
  let s := s.getArgs vkCmdIndex args
  (s.conditionallyAddChild vkCmdIndex, vkCmdIndex)

def push (nodeIndex : ℕ) : State :=
  { s with curParentNodeIndexStack := nodeIndex :: s.curParentNodeIndexStack }

def pop : State := { s with curParentNodeIndexStack := s.curParentNodeIndexStack.tail }

/-- A command, with the render-pass counts that are left. -/
def onCommand (vkCmdInfo : VulkanCommandInfo) (drawCallCount : ℕ)
    (renderPassDrawCallCounts : List ℕ) : State × List ℕ :=
  let name := vkCmdInfo.name.text
  let args := vkCmdInfo.args
  match commandKind name with
  | .beginCommandBuffer =>
    let (s, cmdBufferIndex) := s.addNode .kGfxrVulkanBeginCommandBufferNode
      (.command name args (some drawCallCount))
    let s : State := { s with curCommandBufferNodeIndex := cmdBufferIndex }
    let s := s.getArgs cmdBufferIndex args
    (s.addChild s.curSubmitNodeIndex cmdBufferIndex, renderPassDrawCallCounts)
  | .endCommandBuffer =>
    let (s, cmdBufferIndex) := s.addNode .kGfxrVulkanEndCommandBufferNode (.command name args none)
    let s := s.getArgs cmdBufferIndex args
    (s.addChild s.curCommandBufferNodeIndex cmdBufferIndex, renderPassDrawCallCounts)
  | .beginDebugUtilsLabel =>
    let (s, nodeIndex) := s.addCommand .kGfxrBeginDebugUtilsLabelCommandNode (.label args) args
    (s.push nodeIndex, renderPassDrawCallCounts)
  | .endDebugUtilsLabel =>
    match s.curParentNodeIndexStack with
    | [] => (s, renderPassDrawCallCounts)
    | top :: _ =>
      if s.getNodeType top = some .kGfxrBeginDebugUtilsLabelCommandNode then
        (s.pop, renderPassDrawCallCounts)
      else (s, renderPassDrawCallCounts)
  | .draw =>
    ((s.addCommand .kGfxrVulkanDrawCommandNode (.command name args none) args).1,
      renderPassDrawCallCounts)
  | .beginRenderPass =>
    let (s, vkCmdIndex) := s.addCommand .kGfxrVulkanBeginRenderPassCommandNode
      (.command name args (some (renderPassDrawCallCounts.headD drawCallCount))) args
    (s.push vkCmdIndex, renderPassDrawCallCounts.tail)
  | .endRenderPass =>
    let (s, _) := s.addCommand .kGfxrVulkanEndRenderPassCommandNode (.command name args none) args
    (s.pop, renderPassDrawCallCounts)
  | .other =>
    ((s.addCommand (otherNodeType name) (.command name args none) args).1,
      renderPassDrawCallCounts)

/-- The loop of `ProcessVkCmds`. -/
def onCommands (drawCallCount : ℕ) : State → List VulkanCommandInfo → List ℕ → State
  | s, [], _ => s
  | s, vkCmdInfo :: vkCmds, renderPassDrawCallCounts =>
    let (s, renderPassDrawCallCounts) :=
      s.onCommand vkCmdInfo drawCallCount renderPassDrawCallCounts
    onCommands drawCallCount s vkCmds renderPassDrawCallCounts

def processVkCmds (vkCmds : List VulkanCommandInfo) (drawCallCount : ℕ)
    (renderPassDrawCallCounts : List ℕ) : State :=
  { onCommands drawCallCount s vkCmds renderPassDrawCallCounts with curParentNodeIndexStack := [] }

/-! ## Submits -/

def onGfxrSubmit (submitIndex : ℕ) (submitInfo : SubmitInfo) : State :=
  let (s, submitNodeIndex) := s.addNode .kGfxrVulkanSubmitNode
    (.submit submitInfo.name.text submitIndex submitInfo.vkCommandBufferHandles.length)
  let s := s.addChild Topology.kRootNodeIndex submitNodeIndex
  { s with curSubmitNodeIndex := submitNodeIndex }

/-- The recording of a submitted handle. `none` is the exception of `at`. -/
def processHandle (captureData : GfxrCaptureData) (s : State) (handle : UInt64) : Option State := do
  let drawCallCounts ← captureData.gfxrDrawCallCounts handle
  let vkCmds ← captureData.gfxrCommandBuffers handle
  some (s.processVkCmds vkCmds drawCallCounts.beginCommandBufferDrawCallCount
    drawCallCounts.renderPassDrawCallCounts)

/-- One round of the loop over the submits. -/
def processGfxrSubmit (captureData : GfxrCaptureData) (s : State) (submit : SubmitInfo × ℕ) :
    Option State :=
  let s := s.onGfxrSubmit submit.2 submit.1
  let s := s.processVkCmds submit.1.noneCmdVkCommands 0 []
  submit.1.vkCommandBufferHandles.foldlM (processHandle captureData) s

def addFrame : State :=
  let (s, frameRootNodeIndex) := s.addNode .kGfxrRootFrameNode (.text "Frame")
  s.addChild Topology.kRootNodeIndex frameRootNodeIndex

def processGfxrSubmits (captureData : GfxrCaptureData) : Option State :=
  captureData.gfxrSubmits.zipIdx.foldlM (processGfxrSubmit captureData) s.addFrame

end State

/-! ## Failures -/

theorem isSome_processHandle (d : GfxrCaptureData) (s : State) (handle : UInt64) :
    (s.processHandle d handle).isSome = (d.resolve handle).isSome := by
  unfold State.processHandle GfxrCaptureData.resolve
  cases d.gfxrDrawCallCounts handle with
  | none => rfl
  | some counts => cases d.gfxrCommandBuffers handle <;> rfl

theorem isSome_processGfxrSubmits (d : GfxrCaptureData) (s : State) :
    (s.processGfxrSubmits d).isSome ↔ ∀ submit ∈ d.gfxrSubmits,
      ∀ handle ∈ submit.vkCommandBufferHandles, (d.resolve handle).isSome := by
  have hhandles : ∀ (handles : List UInt64) (s : State),
      (handles.foldlM (State.processHandle d) s).isSome ↔
        ∀ handle ∈ handles, (d.resolve handle).isSome := fun handles s =>
    List.isSome_foldlM_iff (fun s handle => by rw [isSome_processHandle]) handles s
  have hall := List.isSome_foldlM_iff (g := State.processGfxrSubmit d)
    (P := fun submit => ∀ handle ∈ submit.1.vkCommandBufferHandles, (d.resolve handle).isSome)
    (fun s submit => hhandles _ _) d.gfxrSubmits.zipIdx s.addFrame
  rw [State.processGfxrSubmits, hall]
  constructor
  · intro h submit hmem
    obtain ⟨k, hk⟩ := List.mem_iff_getElem?.mp hmem
    exact h (submit, k) (List.mk_mem_zipIdx_iff_getElem?.mpr hk)
  · intro h submit hmem
    exact h submit.1 (List.fst_mem_of_mem_zipIdx hmem)

/-! ## The hierarchy alone -/

/-- The creator alone, with the root node. -/
def alone : State := (({} : State).addNode .kRootNode (.text "")).1

/-- `CreateTopologies`, for the topology of all events. -/
def createTopologies (s : State) : SharedNodeTopology :=
  .run s.nodeChildren.length <| s.nodeChildren.zipIdx.map fun (children, nodeIndex) =>
    .addChildren nodeIndex children

def createTrees (captureData : GfxrCaptureData) : Option (State × SharedNodeTopology) :=
  (alone.processGfxrSubmits captureData).map fun s => (s, createTopologies s)

end GfxrVulkanCommandHierarchyCreator

end Dive
