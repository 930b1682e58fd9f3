import Dive.Gfxr.UnderSubmits

/-!
# The creator in a mixed hierarchy

* `Corresponds`: a node of the creator alone, and the same node behind the nodes of another creator.
* `Shifted`: the creator in a mixed hierarchy has the nodes of the creator alone, and their children.
* **`Shifted.processGfxrSubmits`**: the two stay so, submit by submit.
* `Shifted.below_iff`: the same nodes are below a submit.
* **`keptUnderSubmits_iff`**: the condition for the creator, alone or in a mixed hierarchy.
-/

namespace Dive.GfxrVulkanCommandHierarchyCreator

open DiveAnnotationProcessor Planting State
open Relation (ReflTransGen)

/-- The root, or a node behind the frame node, which is `k` nodes later. -/
def Corresponds (k i j : ℕ) : Prop := (i = 0 ∧ j = 0) ∨ (2 ≤ i ∧ j = i + k)

/-- **The creator `s` alone and `t` behind the nodes `front`.** The frame node, below which `t` puts
what `s` puts below the root, has no children of its own. -/
structure Shifted (front : List CommandHierarchyNode) (k : ℕ) (s t : State) : Prop where
  length_front : front.length = k + 1
  alone : s.usedInMixedCommandHierarchy = false
  length_nodes : s.nodes.length = s.nodeChildren.length
  mixed : t.usedInMixedCommandHierarchy = true
  filled : Filled front.length t
  nodes : t.nodes = front ++ s.nodes.tail
  two_le : 2 ≤ s.nodes.length
  root : t.childrenAt 0 = (s.childrenAt 0).map (· + k)
  frame : s.childrenAt 1 = []
  children : ∀ i, 2 ≤ i → i < s.nodes.length →
    t.childrenAt (i + k) = (s.childrenAt i).map (· + k)
  submit : Corresponds k s.curSubmitNodeIndex t.curSubmitNodeIndex
  commandBuffer : Corresponds k s.curCommandBufferNodeIndex t.curCommandBufferNodeIndex
  stack : t.curParentNodeIndexStack = s.curParentNodeIndexStack.map (· + k)
  stack_ge : ∀ i ∈ s.curParentNodeIndexStack, 2 ≤ i

namespace State

variable {s t : State} {n p c : ℕ} {type : NodeType} {desc : NodeDesc}

theorem childrenAt_addNode_of_ne (h : n ≠ s.nodes.length) :
    (s.addNode type desc).1.childrenAt n = s.childrenAt n := by
  change childrenIn (s.addNode type desc).1.nodeChildren _ = childrenIn s.nodeChildren _
  rw [localIndex_addNode, if_neg fun hnew => h hnew.2, addNode_nodeChildren, childrenIn_addNode]

theorem childrenAt_addChild (hp : s.localIndex p < s.nodeChildren.length) (q : ℕ) :
    (s.addChild p c).childrenAt q =
      if s.localIndex p = s.localIndex q then s.childrenAt q ++ [c] else s.childrenAt q :=
  childrenIn_addChild hp (s.localIndex q)

end State

namespace Shifted

variable {front : List CommandHierarchyNode} {k : ℕ} {s t : State} {p p' : ℕ}

theorem length_eq (h : Shifted front k s t) : t.nodes.length = s.nodes.length + k := by
  have htwo := h.two_le
  rw [h.nodes, List.length_append, List.length_tail, h.length_front]
  omega

theorem length_nodeChildren (h : Shifted front k s t) :
    t.nodeChildren.length = s.nodes.length - 1 := by
  have hlength := h.length_eq
  have hfilled := h.filled.length_nodes
  have hfront := h.length_front
  omega

theorem localIndex_zero (h : Shifted front k s t) : t.localIndex 0 = 0 :=
  h.filled.localIndex_of_lt 0 (by rw [h.length_front]; omega)

theorem localIndex_add (h : Shifted front k s t) {i : ℕ} (hi : 1 ≤ i) (hlt : i < s.nodes.length) :
    t.localIndex (i + k) = i - 1 := by
  have hlength := h.length_nodeChildren
  have hsum : i + k = front.length + (i - 1) := by
    rw [h.length_front]
    omega
  rw [hsum, h.filled.localIndex_add (i - 1) (by omega)]

theorem getNodeType (h : Shifted front k s t) {i : ℕ} (hi : 1 ≤ i) :
    t.getNodeType (i + k) = s.getNodeType i := by
  have hfront := h.length_front
  rw [State.getNodeType, h.nodes, List.getElem?_append_right (by omega), List.getElem?_tail]
  have hsum : i + k - front.length + 1 = i := by omega
  rw [hsum]
  rfl

/-! ## Nodes -/

theorem addNode (h : Shifted front k s t) (type : NodeType) (desc : NodeDesc) :
    Shifted front k (s.addNode type desc).1 (t.addNode type desc).1 where
  length_front := h.length_front
  alone := by simpa using h.alone
  length_nodes := by simp [h.length_nodes]
  mixed := by simpa using h.mixed
  filled := h.filled.addNode type desc
  nodes := by
    have hne : s.nodes ≠ [] := by
      intro hnil
      have htwo := h.two_le
      simp [hnil] at htwo
    rw [addNode_nodes, addNode_nodes, h.nodes, List.tail_append_of_ne_nil hne, List.append_assoc]
  two_le := by
    have htwo := h.two_le
    simp only [addNode_nodes, List.length_append, List.length_singleton]
    omega
  root := by
    have htwo := h.two_le
    have hlength := h.length_eq
    rw [childrenAt_addNode_of_ne (by omega), childrenAt_addNode_of_ne (by omega), h.root]
  frame := by
    have htwo := h.two_le
    rw [childrenAt_addNode_of_ne (by omega), h.frame]
  children := by
    intro i hi hlt
    rw [addNode_nodes, List.length_append, List.length_singleton] at hlt
    have hlength := h.length_eq
    rcases Nat.lt_or_ge i s.nodes.length with hold | hnew
    · rw [childrenAt_addNode_of_ne (by omega), childrenAt_addNode_of_ne (by omega),
        h.children i hi hold]
    · obtain rfl : i = s.nodes.length := by omega
      have hs : (s.addNode type desc).1.childrenAt s.nodes.length = [] := by
        change childrenIn (s.addNode type desc).1.nodeChildren _ = _
        rw [localIndex_of_alone (by simpa using h.alone), addNode_nodeChildren,
          childrenIn_addNode, h.length_nodes]
        simp [childrenIn]
      have ht : (t.addNode type desc).1.childrenAt t.nodes.length = [] := by
        change childrenIn (t.addNode type desc).1.nodeChildren _ = _
        rw [localIndex_addNode, if_pos ⟨h.mixed, rfl⟩, addNode_nodeChildren, childrenIn_addNode]
        simp [childrenIn]
      rw [← hlength, hs, ht, List.map_nil]
  submit := by simpa using h.submit
  commandBuffer := by simpa using h.commandBuffer
  stack := by simpa using h.stack
  stack_ge := by simpa using h.stack_ge

theorem addChild (h : Shifted front k s t) (hp : Corresponds k p p') (hlt : p < s.nodes.length)
    (c : ℕ) : Shifted front k (s.addChild p c) (t.addChild p' (c + k)) := by
  have htwo := h.two_le
  have hlists := h.length_nodeChildren
  have hlocal : ∀ i, s.localIndex i = i := localIndex_of_alone h.alone
  have hs : s.localIndex p < s.nodeChildren.length := by
    rw [hlocal, ← h.length_nodes]
    exact hlt
  -- the child list of `p'`
  have hp' : t.localIndex p' = if p = 0 then 0 else p - 1 := by
    rcases hp with ⟨rfl, rfl⟩ | ⟨hge, rfl⟩
    · exact h.localIndex_zero
    · rw [if_neg (by omega), h.localIndex_add (by omega) hlt]
  have hne : p ≠ 1 := by
    rcases hp with ⟨rfl, -⟩ | ⟨hge, -⟩ <;> omega
  have ht : t.localIndex p' < t.nodeChildren.length := by
    rw [hp', hlists]
    split_ifs <;> omega
  exact {
    length_front := h.length_front
    alone := h.alone
    length_nodes := by simp [h.length_nodes]
    mixed := h.mixed
    filled := h.filled.addChild p' (c + k)
    nodes := h.nodes
    two_le := htwo
    root := by
      rw [childrenAt_addChild ht, childrenAt_addChild hs, hp', h.localIndex_zero, hlocal, hlocal,
        h.root]
      by_cases hzero : p = 0
      · simp [hzero]
      · have hpos : p - 1 ≠ 0 := by omega
        simp [hzero, hpos]
    frame := by
      rw [childrenAt_addChild hs, hlocal, hlocal, if_neg hne, h.frame]
    children := by
      intro i hi hilt
      have hilt' : i < s.nodes.length := hilt
      rw [childrenAt_addChild ht, childrenAt_addChild hs, hp', h.localIndex_add (by omega) hilt',
        hlocal, hlocal, h.children i hi hilt']
      by_cases heq : p = i
      · have hne' : i ≠ 0 := by omega
        simp [heq, hne']
      · have hne' : (if p = 0 then 0 else p - 1) ≠ i - 1 := by split_ifs <;> omega
        simp [heq, hne']
    submit := h.submit
    commandBuffer := h.commandBuffer
    stack := h.stack
    stack_ge := h.stack_ge }

theorem addArg (h : Shifted front k s t) (hp : Corresponds k p p') (hlt : p < s.nodes.length)
    (desc : NodeDesc) : Shifted front k (s.addArg p desc).1 (t.addArg p' desc).1 := by
  have hnode := h.addNode .kGfxrVulkanCommandArgNode desc
  have hchild := hnode.addChild hp (by simp; omega) s.nodes.length
  rw [← h.length_eq] at hchild
  simpa [State.addArg] using hchild

theorem getArgs (h : Shifted front k s t) {c c' : ℕ} (hc : Corresponds k c c')
    (hlt : c < s.nodes.length) (args : Json) :
    Shifted front k (s.getArgs c args) (t.getArgs c' args) := by
  have halike := getArgs_alike s t c c' args
  suffices hall : ∀ u u', Alike c c' s t u u' →
      s.nodes.length ≤ u.nodes.length ∧ Shifted front k u u' from (hall _ _ halike).2
  intro u u' halike
  induction halike with
  | start => exact ⟨le_rfl, h⟩
  | belowGiven desc _ ih => exact ⟨by simp; omega, ih.2.addArg hc (hlt.trans_le ih.1) desc⟩
  | belowNew i desc _ hi ih =>
    have hnew : Corresponds k (s.nodes.length + i) (t.nodes.length + i) := by
      have htwo := h.two_le
      rw [h.length_eq]
      exact .inr ⟨by omega, by omega⟩
    exact ⟨by simp; omega, ih.2.addArg hnew hi desc⟩

theorem place (h : Shifted front k s t) (hp : Corresponds k p p') (hlt : p < s.nodes.length)
    (type : NodeType) (desc : NodeDesc) (args : Json) :
    Shifted front k (s.place p type desc args) (t.place p' type desc args) := by
  have htwo := h.two_le
  have hnode := h.addNode type desc
  have hnew : s.nodes.length < (s.addNode type desc).1.nodes.length := by simp
  have hcorr : Corresponds k s.nodes.length t.nodes.length := .inr ⟨htwo, h.length_eq⟩
  have hargs := hnode.getArgs hcorr hnew args
  have hle := (extends_getArgs (s.addNode type desc).1 s.nodes.length args).1.length_le
  have hchild := hargs.addChild hp (hlt.trans (hnew.trans_le hle)) s.nodes.length
  rw [← h.length_eq] at hchild
  exact hchild

/-! ## Commands -/

theorem openParent (h : Shifted front k s t) : Corresponds k s.openParent t.openParent := by
  unfold State.openParent
  rw [h.stack]
  cases hstack : s.curParentNodeIndexStack with
  | nil => exact h.commandBuffer
  | cons top stack => exact .inr ⟨h.stack_ge top (hstack ▸ List.mem_cons_self), rfl⟩

theorem parentFor (h : Shifted front k s t) (kind : CommandKind) :
    Corresponds k (s.parentFor kind) (t.parentFor kind) := by
  cases kind
  case beginCommandBuffer => exact h.submit
  case endCommandBuffer => exact h.commandBuffer
  all_goals exact h.openParent

theorem of_cursors (h : Shifted front k s t) {submit submit' buffer buffer' : ℕ}
    {stack stack' : List ℕ} (hsubmit : Corresponds k submit submit')
    (hbuffer : Corresponds k buffer buffer') (hstack : stack' = stack.map (· + k))
    (hge : ∀ i ∈ stack, 2 ≤ i) : Shifted front k
      { s with
        curSubmitNodeIndex := submit
        curCommandBufferNodeIndex := buffer
        curParentNodeIndexStack := stack }
      { t with
        curSubmitNodeIndex := submit'
        curCommandBufferNodeIndex := buffer'
        curParentNodeIndexStack := stack' } where
  length_front := h.length_front
  alone := h.alone
  length_nodes := h.length_nodes
  mixed := h.mixed
  filled := ⟨h.filled.1, h.filled.2, h.filled.3, h.filled.4⟩
  nodes := h.nodes
  two_le := h.two_le
  root := h.root
  frame := h.frame
  children := h.children
  submit := hsubmit
  commandBuffer := hbuffer
  stack := hstack
  stack_ge := hge

theorem push (h : Shifted front k s t) {n : ℕ} (hn : 2 ≤ n) :
    Shifted front k (s.push n) (t.push (n + k)) := by
  refine h.of_cursors h.submit h.commandBuffer ?_ ?_
  · rw [h.stack, List.map_cons]
  · intro i hi
    rcases List.mem_cons.mp hi with rfl | hi
    · exact hn
    · exact h.stack_ge i hi

theorem pop (h : Shifted front k s t) : Shifted front k s.pop t.pop := by
  refine h.of_cursors h.submit h.commandBuffer ?_ ?_
  · rw [h.stack, List.map_tail]
  · exact fun i hi => h.stack_ge i (List.mem_of_mem_tail hi)

theorem withCommandBuffer (h : Shifted front k s t) {n : ℕ} (hn : 2 ≤ n) :
    Shifted front k (s.withCommandBuffer n) (t.withCommandBuffer (n + k)) :=
  h.of_cursors h.submit (.inr ⟨hn, rfl⟩) h.stack h.stack_ge

theorem moveCursors (h : Shifted front k s t) {n : ℕ} (hn : 2 ≤ n) (kind : CommandKind) :
    Shifted front k (s.moveCursors n kind) (t.moveCursors (n + k) kind) := by
  cases kind
  case beginCommandBuffer => exact h.withCommandBuffer hn
  case beginDebugUtilsLabel => exact h.push hn
  case beginRenderPass => exact h.push hn
  case endRenderPass => exact h.pop
  all_goals exact h

theorem closeLabel (h : Shifted front k s t) : Shifted front k s.closeLabel t.closeLabel := by
  unfold State.closeLabel
  rw [h.stack]
  cases hstack : s.curParentNodeIndexStack with
  | nil => exact h
  | cons top stack =>
    have hge := h.stack_ge top (hstack ▸ List.mem_cons_self)
    rw [List.map_cons]
    simp only [h.getNodeType (show 1 ≤ top by omega)]
    split_ifs
    · exact h.pop
    · exact h

theorem onCommand (h : Shifted front k s t) (hs : Sound s) (v : VulkanCommandInfo) (n : ℕ)
    (counts : List ℕ) : Shifted front k (s.onCommand v n counts).1 (t.onCommand v n counts).1 ∧
      (t.onCommand v n counts).2 = (s.onCommand v n counts).2 := by
  rw [onCommand_eq, onCommand_eq]
  refine ⟨?_, rfl⟩
  cases commandNode v n counts with
  | none => exact h.closeLabel
  | some node =>
    have hplace := h.place (h.parentFor (commandKind v.name.text)) (hs.parentFor_lt _) node.1
      node.2 v.args
    have hmove := hplace.moveCursors h.two_le (commandKind v.name.text)
    rw [← h.length_eq] at hmove
    exact hmove

theorem onCommands (n : ℕ) : ∀ (vkCmds : List VulkanCommandInfo) {s t : State},
    Shifted front k s t → Sound s → ∀ counts : List ℕ,
      Shifted front k (State.onCommands n s vkCmds counts) (State.onCommands n t vkCmds counts)
  | [], _, _, h, _, _ => h
  | v :: vkCmds, s, t, h, hs, counts => by
    obtain ⟨hnext, hcounts⟩ := h.onCommand hs v n counts
    have hrest := onCommands n vkCmds hnext (hs.onCommand v n counts) (s.onCommand v n counts).2
    change Shifted front k
      (State.onCommands n (s.onCommand v n counts).1 vkCmds (s.onCommand v n counts).2)
      (State.onCommands n (t.onCommand v n counts).1 vkCmds (t.onCommand v n counts).2)
    rw [hcounts]
    exact hrest

theorem processVkCmds (h : Shifted front k s t) (hs : Sound s) (vkCmds : List VulkanCommandInfo)
    (n : ℕ) (counts : List ℕ) :
    Shifted front k (s.processVkCmds vkCmds n counts) (t.processVkCmds vkCmds n counts) := by
  have hcmds := onCommands n vkCmds h hs counts
  exact hcmds.of_cursors hcmds.submit hcmds.commandBuffer rfl (by simp)

/-! ## Submits -/

theorem onGfxrSubmit (h : Shifted front k s t) (submitIndex : ℕ) (submitInfo : SubmitInfo) :
    Shifted front k (s.onGfxrSubmit submitIndex submitInfo)
      (t.onGfxrSubmit submitIndex submitInfo) := by
  have htwo := h.two_le
  have hnode := h.addNode .kGfxrVulkanSubmitNode
    (.submit submitInfo.name.text submitIndex submitInfo.vkCommandBufferHandles.length)
  have hchild := hnode.addChild (p := 0) (.inl ⟨rfl, rfl⟩) (by simp) s.nodes.length
  rw [onGfxrSubmit_eq, onGfxrSubmit_eq]
  rw [← h.length_eq] at hchild
  exact hchild.of_cursors (.inr ⟨htwo, h.length_eq⟩) hchild.commandBuffer hchild.stack
    hchild.stack_ge

variable {d : GfxrCaptureData}

theorem processHandle (h : Shifted front k s t) (hs : Sound s) (handle : UInt64) :
    Option.Rel (fun u u' => Shifted front k u u' ∧ Sound u) (State.processHandle d s handle)
      (State.processHandle d t handle) := by
  unfold State.processHandle
  cases d.gfxrDrawCallCounts handle with
  | none => exact .none
  | some drawCallCounts =>
    cases d.gfxrCommandBuffers handle with
    | none => exact .none
    | some vkCmds => exact .some ⟨h.processVkCmds hs _ _ _, hs.processVkCmds _ _ _⟩

/-- **One submit.** -/
theorem processGfxrSubmit (h : Shifted front k s t) (hs : Sound s) (submit : SubmitInfo × ℕ) :
    Option.Rel (fun u u' => Shifted front k u u' ∧ Sound u) (State.processGfxrSubmit d s submit)
      (State.processGfxrSubmit d t submit) := by
  have hbegin := (h.onGfxrSubmit submit.2 submit.1).processVkCmds
    (hs.onGfxrSubmit submit.2 submit.1) submit.1.noneCmdVkCommands 0 []
  have hsound := (hs.onGfxrSubmit submit.2 submit.1).processVkCmds submit.1.noneCmdVkCommands 0 []
  rw [State.processGfxrSubmit, State.processGfxrSubmit, ← Monitor.run_eq_foldlM,
    ← Monitor.run_eq_foldlM]
  exact Monitor.run_rel ⟨hbegin, hsound⟩ fun handle u u' hu => hu.1.processHandle hu.2 handle

end Shifted

theorem shifted_addFrame {front : List CommandHierarchyNode} {k : ℕ} (hk : front.length = k + 1) :
    Shifted front k alone.addFrame (mixed front).addFrame := by
  have hlocal : ((mixed front).addNode .kGfxrRootFrameNode (.text "Frame")).1.localIndex 0 = 0 := by
    rw [localIndex_addNode, if_neg]
    · rfl
    · rintro ⟨-, hnil⟩
      rw [mixed, hk] at hnil
      omega
  have hlists : (mixed front).addFrame.nodeChildren = [[front.length]] := by
    simp only [State.addFrame, addNode_index, State.addChild, Topology.kRootNodeIndex, hlocal]
    simp [mixed]
  have hfilled := (extends_addFrame (mixed front)).filled _ (filled_mixed front)
  exact {
    length_front := hk
    alone := rfl
    length_nodes := rfl
    mixed := rfl
    filled := hfilled
    nodes := by
      simp [State.addFrame, mixed, GfxrVulkanCommandHierarchyCreator.alone]
    two_le := le_rfl
    root := by
      rw [State.childrenAt, hfilled.localIndex_of_lt 0 (by omega), hlists, hk, Nat.add_comm]
      rfl
    frame := rfl
    children := by
      intro i hi hlt
      have hlength : alone.addFrame.nodes.length = 2 := rfl
      omega
    submit := .inl ⟨rfl, rfl⟩
    commandBuffer := .inl ⟨rfl, rfl⟩
    stack := rfl
    stack_ge := by
      intro i hi
      cases hi }

section Submits

variable {d : GfxrCaptureData} {front : List CommandHierarchyNode} {k n m : ℕ} {s t : State}

/-- **All submits**: the creator alone and the one in a mixed hierarchy finish together. -/
theorem shifted_processGfxrSubmits (hk : front.length = k + 1) :
    Option.Rel (fun u u' => Shifted front k u u' ∧ Sound u) (alone.processGfxrSubmits d)
      ((mixed front).processGfxrSubmits d) := by
  rw [State.processGfxrSubmits, State.processGfxrSubmits, ← Monitor.run_eq_foldlM,
    ← Monitor.run_eq_foldlM]
  exact Monitor.run_rel ⟨shifted_addFrame hk, sound_alone⟩
    fun submit u u' hu => hu.1.processGfxrSubmit hu.2 submit

theorem Shifted.submitSpans_eq : ∀ {submits : List (SubmitInfo × ℕ)} {s t : State},
    Shifted front k s t → Sound s →
      submitSpans d t submits = (submitSpans d s submits).map (Prod.map (· + k) (· + k))
  | [], _, _, _, _ => rfl
  | submit :: submits, s, t, h, hs => by
    have hnext := h.processGfxrSubmit (d := d) hs submit
    rw [submitSpans, submitSpans]
    cases hu : State.processGfxrSubmit d s submit with
    | none =>
      rw [hu] at hnext
      cases hu' : State.processGfxrSubmit d t submit with
      | none => rfl
      | some u' =>
        rw [hu'] at hnext
        cases hnext
    | some u =>
      rw [hu] at hnext
      cases hu' : State.processGfxrSubmit d t submit with
      | none =>
        rw [hu'] at hnext
        cases hnext
      | some u' =>
        rw [hu'] at hnext
        cases hnext with
        | some hrel =>
          rw [Option.elim_some, Option.elim_some, List.map_cons, h.length_eq, hrel.1.length_eq,
            submitSpans_eq hrel.1 hrel.2]
          rfl

namespace Shifted

theorem mem_childrenAt (h : Shifted front k s t) (hs : Sound s) (hm : 2 ≤ m)
    (hlt : m < s.nodes.length) (c : ℕ) : c ∈ t.childrenAt (m + k) ↔
      ∃ i, 2 ≤ i ∧ i < s.nodes.length ∧ c = i + k ∧ i ∈ s.childrenAt m := by
  rw [h.children m hm hlt, List.mem_map]
  constructor
  · rintro ⟨i, hi, rfl⟩
    have hbounds := hs.grown.planted.child_bounds ((childrenAt_of_alone hs.grown.alone) ▸ hi)
    rw [← hs.grown.length_nodes] at hbounds
    exact ⟨i, by omega, hbounds.2, rfl, hi⟩
  · rintro ⟨i, -, -, rfl, hi⟩
    exact ⟨i, hi, rfl⟩

/-- **The same nodes are below a node that comes after the frame node.** -/
theorem below_iff (h : Shifted front k s t) (hs : Sound s) (hm : 2 ≤ m)
    (hlt : m < s.nodes.length) : Below t (n + k) (m + k) ↔ Below s n m := by
  constructor
  · intro hbelow
    have hall : ∃ i, 2 ≤ i ∧ i < s.nodes.length ∧ n + k = i + k ∧ Below s i m := by
      refine ReflTransGen.head_induction_on hbelow ⟨m, hm, hlt, rfl, .refl⟩ ?_
      rintro c p hchild - ⟨i, hi, hilt, rfl, hrest⟩
      obtain ⟨j, hj, hjlt, rfl, hmem⟩ := (h.mem_childrenAt hs hi hilt c).mp hchild
      exact ⟨j, hj, hjlt, rfl, .head hmem hrest⟩
    obtain ⟨i, -, -, heq, hi⟩ := hall
    obtain rfl : n = i := by omega
    exact hi
  · intro hbelow
    have hall : Below t (n + k) (m + k) ∧ 2 ≤ n ∧ n < s.nodes.length := by
      refine ReflTransGen.head_induction_on hbelow ⟨.refl, hm, hlt⟩ ?_
      rintro c p hchild - ⟨hrest, hp, hplt⟩
      have hbounds := hs.grown.planted.child_bounds
        ((childrenAt_of_alone hs.grown.alone) ▸ hchild)
      rw [← hs.grown.length_nodes] at hbounds
      have hmem := (h.mem_childrenAt hs hp hplt (c + k)).mpr
        ⟨c, by omega, hbounds.2, rfl, hchild⟩
      exact ⟨.head hmem hrest, by omega, hbounds.2⟩
    exact hall.1

end Shifted

/-- The states in which `ProcessGfxrSubmits` begins: alone, or behind the nodes of the other creator,
which has at least the root. -/
inductive Starts : State → Prop
  | alone : Starts alone
  | mixed (front : List CommandHierarchyNode) : front ≠ [] → Starts (mixed front)

theorem submitSpans_bounds {span : ℕ × ℕ} {submits : List (SubmitInfo × ℕ)}
    (hrun : Monitor.run (State.processGfxrSubmit d) alone.addFrame submits = some s)
    (hspan : span ∈ submitSpans d alone.addFrame submits) :
    2 ≤ span.1 ∧ span.1 < s.nodes.length := by
  obtain ⟨before, submit, after, v, w, -, hv, hw, hafter, rfl⟩ := (mem_submitSpans hrun).mp hspan
  have hfirst := (extends_run hv).length_le
  have hlast := (extends_run hafter).length_le
  have hown := (mem_root_processGfxrSubmit (sound_run hv).1 hw).2
  exact ⟨hfirst, hown.trans_le hlast⟩

/-- **The nodes stay under their submits exactly when each submit with nodes begins a command buffer
first.** -/
theorem keptUnderSubmits_iff {start final : State} (hstart : Starts start)
    (hrun : start.processGfxrSubmits d = some final) :
    KeptUnderSubmits start d final ↔ ∀ submit ∈ d.gfxrSubmits, BeginsBuffer d submit := by
  cases hstart with
  | alone => exact keptUnderSubmits_alone_iff hrun
  | mixed front hfront =>
    obtain ⟨k, hk⟩ := Nat.exists_eq_add_of_le' (List.length_pos_iff.mpr hfront)
    have hrel := shifted_processGfxrSubmits (d := d) hk
    rw [hrun] at hrel
    cases hs : alone.processGfxrSubmits d with
    | none =>
      rw [hs] at hrel
      cases hrel
    | some s =>
      rw [hs] at hrel
      obtain ⟨hshifted, hsound⟩ : Shifted front k s final ∧ Sound s := by
        cases hrel with
        | some hrel => exact hrel
      rw [← keptUnderSubmits_alone_iff hs]
      have hspans : submitSpans d (mixed front).addFrame d.gfxrSubmits.zipIdx = _ :=
        (shifted_addFrame hk).submitSpans_eq sound_alone
      rw [State.processGfxrSubmits, ← Monitor.run_eq_foldlM] at hs
      unfold KeptUnderSubmits
      rw [hspans, List.forall_mem_map]
      refine forall₂_congr fun span _ => ?_
      have hother : ∀ other ∈ submitSpans d alone.addFrame d.gfxrSubmits.zipIdx, ∀ n,
          Below final (n + k) (other.1 + k) ↔ Below s n other.1 := fun other hmem n =>
        hshifted.below_iff hsound (submitSpans_bounds hs hmem).1 (submitSpans_bounds hs hmem).2
      simp only [List.forall_mem_map, Prod.map_fst, Prod.map_snd, Nat.add_right_cancel_iff]
      constructor
      · intro h n hle hlt other hmem
        rw [← hother other hmem n]
        exact h (n + k) (by omega) (by omega) other hmem
      · intro h n hle hlt other hmem
        obtain ⟨i, rfl⟩ := Nat.exists_eq_add_of_le' ((Nat.le_add_left k span.1).trans hle)
        rw [hother other hmem i]
        exact h i (by omega) (by omega) other hmem

end Submits

/-- A submit of an empty recording, after the given calls without a command buffer. -/
def submitAfter (calls : List DiveFunctionData) : GfxrCaptureData where
  gfxrSubmits := [⟨calls.map .of, [1001], .vkQueueSubmit⟩]
  gfxrCommandBuffers handle := if handle = 1001 then
    some [.of (createCommandData .vkBeginCommandBuffer 1001),
      .of (createCommandData .vkEndCommandBuffer 1001)] else none
  gfxrDrawCallCounts handle := if handle = 1001 then some {} else none

def idleCall : DiveFunctionData :=
  ⟨.vkQueueWaitIdle, 0, 0, .object [("queue", .unsigned 1)]⟩

theorem isSome_submitAfter (calls : List DiveFunctionData) :
    (alone.processGfxrSubmits (submitAfter calls)).isSome := rfl

theorem keptUnderSubmits_iff_submitAfter :
    KeptUnderSubmits alone (submitAfter []) ((alone.processGfxrSubmits (submitAfter [])).get
      (isSome_submitAfter [])) ↔ ∀ submit ∈ (submitAfter []).gfxrSubmits,
        BeginsBuffer (submitAfter []) submit :=
  keptUnderSubmits_iff .alone (Option.some_get _).symm

/-- The node of a queue-level command is put below the root. -/
theorem submitAfter_idleCall_not_kept : ∃ final,
    alone.processGfxrSubmits (submitAfter [idleCall]) = some final ∧
      ¬ KeptUnderSubmits alone (submitAfter [idleCall]) final := by
  refine ⟨_, (Option.some_get (isSome_submitAfter [idleCall])).symm, fun h => ?_⟩
  have hbegins := (keptUnderSubmits_alone_iff (Option.some_get _).symm).mp h _
    List.mem_cons_self (.of idleCall) rfl
  exact absurd hbegins (by decide +kernel)

end Dive.GfxrVulkanCommandHierarchyCreator
