import Dive.Gfxr.Growth
import Dive.Lib.Planting

/-!
# The creator alone attaches every node once

* `Grown`: the child lists of the creator alone, with nodes that are still to be attached.
* `Sound`: all nodes are attached, and the cursors are nodes; `sound_alone`, `Sound.onCommand`,
  `Sound.processVkCmds`, `Sound.onGfxrSubmit`, **`Sound.processGfxrSubmits`**.
-/

namespace Dive.GfxrVulkanCommandHierarchyCreator

open DiveAnnotationProcessor Planting

namespace State

variable {s t u : State} {pending : List ℕ} {p c : ℕ} {type : NodeType} {desc : NodeDesc}

/-! ## Nodes -/

/-- The creator is alone, and all nodes but the first and the pending ones are attached. -/
structure Grown (s : State) (pending : List ℕ) : Prop where
  alone : s.usedInMixedCommandHierarchy = false
  length_nodes : s.nodes.length = s.nodeChildren.length
  planted : Planted s.nodeChildren pending

theorem localIndex_of_alone (h : s.usedInMixedCommandHierarchy = false) (n : ℕ) :
    s.localIndex n = n := by
  simp [localIndex, h]

theorem childrenAt_of_alone (h : s.usedInMixedCommandHierarchy = false) :
    s.childrenAt = childrenIn s.nodeChildren := by
  funext n
  rw [childrenAt, localIndex_of_alone h, childrenIn]

namespace Grown

theorem filled (h : Grown s pending) : Filled 0 s where
  length_nodes := by rw [h.length_nodes, Nat.zero_add]
  localIndex_add := by
    intro i _
    rw [localIndex_of_alone h.alone, Nat.zero_add]
  localIndex_of_lt := fun n _ => localIndex_of_alone h.alone n
  base_eq_zero := fun _ => rfl

theorem addNode (h : Grown s pending) (type : NodeType) (desc : NodeDesc) :
    Grown (s.addNode type desc).1 (s.nodes.length :: pending) where
  alone := by simpa using h.alone
  length_nodes := by simp [h.length_nodes]
  planted := by
    rw [addNode_nodeChildren, h.length_nodes]
    exact h.planted.addNode

theorem addChild (h : Grown s (c :: pending)) (hp : p < s.nodes.length) (hlt : p < c) :
    Grown (s.addChild p c) pending where
  alone := h.alone
  length_nodes := by simp [h.length_nodes]
  planted := by
    rw [State.addChild, localIndex_of_alone h.alone]
    exact h.planted.addChild (h.length_nodes ▸ hp) hlt

theorem addArg (h : Grown s pending) (hp : p < s.nodes.length) (desc : NodeDesc) :
    Grown (s.addArg p desc).1 pending := by
  have hnode := h.addNode .kGfxrVulkanCommandArgNode desc
  have hchild := @addChild _ _ p _ hnode (by simp; omega) hp
  simpa [State.addArg] using hchild

theorem getArgs (h : Grown s pending) (hc : c < s.nodes.length) (args : Json) :
    Grown (s.getArgs c args) pending := by
  have halike := getArgs_alike s s c c args
  generalize s.getArgs c args = t at halike
  suffices hall : ∀ t t', Alike c c s s t t' → s.nodes.length ≤ t.nodes.length ∧ Grown t pending from
    (hall t t halike).2
  intro t t' halike
  induction halike with
  | start => exact ⟨le_rfl, h⟩
  | belowGiven desc _ ih =>
    refine ⟨by simp; omega, ih.2.addArg (hc.trans_le ih.1) desc⟩
  | belowNew k desc _ hk ih =>
    refine ⟨by simp; omega, ih.2.addArg hk desc⟩

theorem place (h : Grown s pending) (hp : p < s.nodes.length) (type : NodeType) (desc : NodeDesc)
    (args : Json) : Grown (s.place p type desc args) pending := by
  have hnode := h.addNode type desc
  have hnew : s.nodes.length < (s.addNode type desc).1.nodes.length := by simp
  have hargs := hnode.getArgs hnew args
  have hle := (extends_getArgs (s.addNode type desc).1 s.nodes.length args).1.length_le
  exact hargs.addChild (hp.trans (hnew.trans_le hle)) hp

end Grown

/-! ## Cursors -/

/-- All nodes are attached, and the cursors are nodes. -/
structure Sound (s : State) : Prop where
  grown : Grown s []
  submit : s.curSubmitNodeIndex < s.nodes.length
  commandBuffer : s.curCommandBufferNodeIndex < s.nodes.length
  stack : ∀ n ∈ s.curParentNodeIndexStack, n < s.nodes.length

namespace Sound

theorem openParent_lt (h : Sound s) : s.openParent < s.nodes.length := by
  unfold openParent
  cases hstack : s.curParentNodeIndexStack with
  | nil => exact h.commandBuffer
  | cons top stack => exact h.stack top (hstack ▸ List.mem_cons_self)

theorem parentFor_lt (h : Sound s) (kind : CommandKind) :
    s.parentFor kind < s.nodes.length := by
  cases kind
  case beginCommandBuffer => exact h.submit
  case endCommandBuffer => exact h.commandBuffer
  all_goals exact h.openParent_lt

theorem place (h : Sound s) (hp : p < s.nodes.length) (type : NodeType) (desc : NodeDesc)
    (args : Json) : Sound (s.place p type desc args) := by
  obtain ⟨hext, hcursors⟩ := extends_place s p type desc args
  have hle := hext.length_le
  refine ⟨h.grown.place hp type desc args, ?_, ?_, ?_⟩
  · rw [hcursors.submit]
    exact h.submit.trans_le hle
  · rw [hcursors.commandBuffer]
    exact h.commandBuffer.trans_le hle
  · rw [hcursors.stack]
    exact fun n hn => (h.stack n hn).trans_le hle

theorem push (h : Sound s) (hc : c < s.nodes.length) : Sound (s.push c) where
  grown := ⟨h.grown.1, h.grown.2, h.grown.3⟩
  submit := h.submit
  commandBuffer := h.commandBuffer
  stack := by
    intro n hn
    rcases List.mem_cons.mp hn with rfl | hn
    · exact hc
    · exact h.stack n hn

theorem pop (h : Sound s) : Sound s.pop where
  grown := ⟨h.grown.1, h.grown.2, h.grown.3⟩
  submit := h.submit
  commandBuffer := h.commandBuffer
  stack := fun n hn => h.stack n (List.mem_of_mem_tail hn)

theorem withCommandBuffer (h : Sound s) (hc : c < s.nodes.length) :
    Sound (s.withCommandBuffer c) where
  grown := ⟨h.grown.1, h.grown.2, h.grown.3⟩
  submit := h.submit
  commandBuffer := hc
  stack := h.stack

theorem moveCursors (h : Sound s) (hc : c < s.nodes.length) (kind : CommandKind) :
    Sound (s.moveCursors c kind) := by
  cases kind
  case beginCommandBuffer => exact h.withCommandBuffer hc
  case beginDebugUtilsLabel => exact h.push hc
  case beginRenderPass => exact h.push hc
  case endRenderPass => exact h.pop
  all_goals exact h

theorem closeLabel (h : Sound s) : Sound s.closeLabel := by
  unfold State.closeLabel
  cases s.curParentNodeIndexStack with
  | nil => exact h
  | cons top stack =>
    simp only
    split_ifs
    · exact h.pop
    · exact h

/-! ## The run of the creator -/

theorem onCommand (h : Sound s) (v : VulkanCommandInfo) (n : ℕ) (counts : List ℕ) :
    Sound (s.onCommand v n counts).1 := by
  rw [onCommand_eq]
  cases commandNode v n counts with
  | none => exact h.closeLabel
  | some node =>
    exact (h.place (h.parentFor_lt _) node.1 node.2 v.args).moveCursors (place_length _ _) _

theorem onCommands (n : ℕ) {vkCmds : List VulkanCommandInfo} (h : Sound s) (counts : List ℕ) :
    Sound (State.onCommands n s vkCmds counts) := by
  induction vkCmds generalizing s counts with
  | nil => exact h
  | cons v vkCmds ih => exact ih (h.onCommand v n counts) _

theorem processVkCmds (h : Sound s) (vkCmds : List VulkanCommandInfo) (n : ℕ) (counts : List ℕ) :
    Sound (s.processVkCmds vkCmds n counts) where
  grown := ⟨(h.onCommands n counts).grown.1, (h.onCommands n counts).grown.2,
    (h.onCommands n counts).grown.3⟩
  submit := (h.onCommands n counts).submit
  commandBuffer := (h.onCommands n counts).commandBuffer
  stack := by
    intro n hn
    cases hn

theorem onGfxrSubmit (h : Sound s) (submitIndex : ℕ) (submitInfo : SubmitInfo) :
    Sound (s.onGfxrSubmit submitIndex submitInfo) := by
  have hpos : 0 < s.nodes.length := Nat.zero_lt_of_lt h.submit
  have hnode := h.grown.addNode .kGfxrVulkanSubmitNode
    (.submit submitInfo.name.text submitIndex submitInfo.vkCommandBufferHandles.length)
  have hchild := @Grown.addChild _ _ Topology.kRootNodeIndex _ hnode
    (by simp [Topology.kRootNodeIndex]) hpos
  have hlength : s.nodes.length < (s.addNode .kGfxrVulkanSubmitNode (.submit submitInfo.name.text
      submitIndex submitInfo.vkCommandBufferHandles.length)).1.nodes.length := by simp
  rw [onGfxrSubmit_eq]
  refine ⟨⟨hchild.1, hchild.2, hchild.3⟩, hlength, ?_, ?_⟩
  · refine Nat.lt_trans ?_ hlength
    simpa using h.commandBuffer
  · intro n hn
    exact (h.stack n (by simpa using hn)).trans hlength

theorem processHandle {d : GfxrCaptureData} {handle : UInt64} (h : Sound s)
    (ht : State.processHandle d s handle = some t) : Sound t := by
  obtain ⟨drawCallCounts, -, hrest⟩ := Option.bind_eq_some_iff.mp ht
  obtain ⟨vkCmds, -, hdone⟩ := Option.bind_eq_some_iff.mp hrest
  cases hdone
  exact h.processVkCmds _ _ _

theorem processGfxrSubmit {d : GfxrCaptureData} {submit : SubmitInfo × ℕ} (h : Sound s)
    (ht : State.processGfxrSubmit d s submit = some t) : Sound t := by
  rw [State.processGfxrSubmit, ← Monitor.run_eq_foldlM] at ht
  exact Monitor.run_invariant ((h.onGfxrSubmit submit.2 submit.1).processVkCmds _ _ _) ht
    fun handle _ v w hv hw => hv.processHandle hw

end Sound

theorem extends_processHandle {d : GfxrCaptureData} {handle : UInt64}
    (h : processHandle d s handle = some t) : Extends s t := by
  obtain ⟨drawCallCounts, -, hrest⟩ := Option.bind_eq_some_iff.mp h
  obtain ⟨vkCmds, -, hdone⟩ := Option.bind_eq_some_iff.mp hrest
  cases hdone
  exact extends_processVkCmds ..

theorem extends_processGfxrSubmit {d : GfxrCaptureData} {submit : SubmitInfo × ℕ}
    (h : processGfxrSubmit d s submit = some t) : Extends s t := by
  rw [processGfxrSubmit, ← Monitor.run_eq_foldlM] at h
  have hbegin := (extends_onGfxrSubmit s submit.2 submit.1).trans
    (extends_processVkCmds _ submit.1.noneCmdVkCommands 0 [])
  exact Monitor.run_invariant hbegin h fun handle _ v w hv hw => hv.trans (extends_processHandle hw)

theorem sound_alone : Sound alone.addFrame := by
  have hroot : Grown alone [] := ⟨rfl, rfl, planted_root⟩
  have hframe := @Grown.addChild _ _ Topology.kRootNodeIndex _
    (hroot.addNode .kGfxrRootFrameNode (.text "Frame")) (by decide) (by decide)
  exact ⟨hframe, by decide, by decide, by simp [alone, addFrame]⟩

end State

end Dive.GfxrVulkanCommandHierarchyCreator
