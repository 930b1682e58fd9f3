import Dive.Gfxr.Attached

/-!
# The nodes of a submit

* `Below`: a node is below another one, or the same.
* `submitSpans`: for each submit, its node and the end of the nodes that are added for it.
* `KeptUnderSubmits`: those nodes are below the node of their submit, and of no other one.
* `BeginsBuffer`: the first command of a submit with a node begins a command buffer.
* `Stands`: how far a submit is, by its first command with a node; `Stands.processGfxrSubmit`.
* **`keptUnderSubmits_alone_iff`**: the exact condition for the creator alone.
-/

namespace Dive.GfxrVulkanCommandHierarchyCreator

open DiveAnnotationProcessor Planting State
open Relation (ReflTransGen)

/-- The node `n` is the node `m` or below it. -/
def Below (s : State) (n m : ℕ) : Prop := ReflTransGen (fun c p => c ∈ s.childrenAt p) n m

/-- The node of each submit, and the index after the last node that is added for it. -/
def submitSpans (d : GfxrCaptureData) : State → List (SubmitInfo × ℕ) → List (ℕ × ℕ)
  | _, [] => []
  | s, submit :: submits =>
    (State.processGfxrSubmit d s submit).elim [] fun t =>
      (s.nodes.length, t.nodes.length) :: submitSpans d t submits

/-- **Each node that is added for a submit is below the node of that submit**, and of no other
one. -/
def KeptUnderSubmits (start : State) (d : GfxrCaptureData) (final : State) : Prop :=
  ∀ span ∈ submitSpans d start.addFrame d.gfxrSubmits.zipIdx, ∀ n, span.1 ≤ n → n < span.2 →
    ∀ other ∈ submitSpans d start.addFrame d.gfxrSubmits.zipIdx,
      Below final n other.1 ↔ other.1 = span.1

/-- The commands of a submit: those of no command buffer, then those of its command buffers. -/
def submitCommands (d : GfxrCaptureData) (submit : SubmitInfo) : List VulkanCommandInfo :=
  submit.noneCmdVkCommands ++
    submit.vkCommandBufferHandles.flatMap fun handle => (d.gfxrCommandBuffers handle).getD []

/-- Every command but the end of a label has a node. -/
def hasNode (v : VulkanCommandInfo) : Bool := commandKind v.name.text ≠ .endDebugUtilsLabel

/-- The first command of the submit with a node, if there is one, begins a command buffer. -/
def BeginsBuffer (d : GfxrCaptureData) (submit : SubmitInfo) : Prop :=
  ∀ v, (submitCommands d submit).find? hasNode = some v →
    commandKind v.name.text = .beginCommandBuffer

namespace State

variable {s t : State} {start p c n : ℕ} {type : NodeType} {desc : NodeDesc}
  {pending : List ℕ} {found : Option VulkanCommandInfo}

/-! ## Edges -/

/-- The later children are not below a node before `start`. -/
def Edges (start : ℕ) (s : State) : Prop := ∀ p c, c ∈ s.childrenAt p → start < c → start ≤ p

theorem Grown.childrenAt_addChild (h : Grown s pending) (hp : p < s.nodes.length) (q : ℕ) :
    (s.addChild p c).childrenAt q =
      if p = q then s.childrenAt q ++ [c] else s.childrenAt q := by
  have halone : (s.addChild p c).usedInMixedCommandHierarchy = false := h.alone
  rw [childrenAt_of_alone h.alone, childrenAt_of_alone halone, State.addChild,
    localIndex_of_alone h.alone]
  exact childrenIn_addChild (h.length_nodes ▸ hp) q

theorem Grown.childrenAt_addNode (h : Grown s pending) (type : NodeType) (desc : NodeDesc) :
    (s.addNode type desc).1.childrenAt = s.childrenAt := by
  funext q
  rw [childrenAt_of_alone h.alone, childrenAt_of_alone (h.addNode type desc).alone,
    addNode_nodeChildren, childrenIn_addNode]

theorem Edges.addNode (h : Edges start s) (hg : Grown s pending) (type : NodeType)
    (desc : NodeDesc) : Edges start (s.addNode type desc).1 := by
  rw [Edges, hg.childrenAt_addNode]
  exact h

theorem Edges.addChild (h : Edges start s) (hg : Grown s pending) (hp : p < s.nodes.length)
    (hstart : start ≤ p) (c : ℕ) : Edges start (s.addChild p c) := by
  intro q d hd hlt
  rw [hg.childrenAt_addChild hp] at hd
  split_ifs at hd with hq
  · exact hq ▸ hstart
  · exact h q d hd hlt

theorem Edges.addArg (h : Edges start s) (hg : Grown s pending) (hp : p < s.nodes.length)
    (hstart : start ≤ p) (desc : NodeDesc) : Edges start (s.addArg p desc).1 := by
  have hnode := h.addNode hg .kGfxrVulkanCommandArgNode desc
  have hchild := @Edges.addChild _ _ p _ hnode (hg.addNode _ desc) (by simp; omega) hstart
    s.nodes.length
  simpa [State.addArg] using hchild

theorem Edges.getArgs (h : Edges start s) (hg : Grown s pending) (hc : c < s.nodes.length)
    (hstart : start ≤ c) (args : Json) : Edges start (s.getArgs c args) := by
  have halike := getArgs_alike s s c c args
  suffices hall : ∀ t t', Alike c c s s t t' →
      s.nodes.length ≤ t.nodes.length ∧ Grown t pending ∧ Edges start t from
    (hall _ _ halike).2.2
  intro t t' halike
  induction halike with
  | start => exact ⟨le_rfl, hg, h⟩
  | belowGiven desc _ ih =>
    have hlt := hc.trans_le ih.1
    exact ⟨by simp; omega, ih.2.1.addArg hlt desc, ih.2.2.addArg ih.2.1 hlt hstart desc⟩
  | belowNew k desc _ hk ih =>
    exact ⟨by simp; omega, ih.2.1.addArg hk desc, ih.2.2.addArg ih.2.1 hk (by omega) desc⟩

theorem Edges.place (h : Edges start s) (hg : Grown s pending) (hp : p < s.nodes.length)
    (hstart : start ≤ p) (type : NodeType) (desc : NodeDesc) (args : Json) :
    Edges start (s.place p type desc args) := by
  have hnew : s.nodes.length < (s.addNode type desc).1.nodes.length := by simp
  have hargs := (h.addNode hg type desc).getArgs (hg.addNode type desc) hnew (by omega) args
  have hle := (extends_getArgs (s.addNode type desc).1 s.nodes.length args).1.length_le
  exact hargs.addChild ((hg.addNode type desc).getArgs hnew args) (hp.trans (hnew.trans_le hle))
    hstart s.nodes.length

/-! ## How far a submit is -/

/-- Nothing has been added for the submit but its node. -/
structure Fresh (start : ℕ) (s : State) : Prop where
  length_nodes : s.nodes.length = start + 1
  submit : s.curSubmitNodeIndex = start
  commandBuffer : s.curCommandBufferNodeIndex < start
  stack : s.curParentNodeIndexStack = []

/-- The creator is at nodes of the submit. -/
structure Inside (start : ℕ) (s : State) : Prop where
  edges : Edges start s
  submit : start ≤ s.curSubmitNodeIndex
  commandBuffer : start ≤ s.curCommandBufferNodeIndex
  stack : ∀ n ∈ s.curParentNodeIndexStack, start ≤ n

/-- A node that was added for the submit is below an earlier one. -/
def Strays (start : ℕ) (s : State) : Prop :=
  ∃ p c, p < start ∧ start < c ∧ c < s.nodes.length ∧ c ∈ s.childrenAt p

/-- The creator in a submit whose first command with a node is `found`. -/
def Stands (start : ℕ) (s : State) : Option VulkanCommandInfo → Prop
  | none => Fresh start s
  | some v => if commandKind v.name.text = .beginCommandBuffer then Inside start s
    else Strays start s

theorem Strays.mono (h : Strays start s) (hs : Sound s) (hext : Extends s t) : Strays start t := by
  obtain ⟨p, c, hp, hstart, hc, hmem⟩ := h
  refine ⟨p, c, hp, hstart, hc.trans_le hext.length_le, hext.children p ?_ c hmem⟩
  rw [childrenAt_of_alone hs.grown.alone] at hmem
  have hlt := hs.grown.planted.lt p c hmem
  omega

namespace Inside

theorem openParent (h : Inside start s) : start ≤ s.openParent := by
  unfold State.openParent
  cases hstack : s.curParentNodeIndexStack with
  | nil => exact h.commandBuffer
  | cons top stack => exact h.stack top (hstack ▸ List.mem_cons_self)

theorem parentFor (h : Inside start s) (kind : CommandKind) : start ≤ s.parentFor kind := by
  cases kind
  case beginCommandBuffer => exact h.submit
  case endCommandBuffer => exact h.commandBuffer
  all_goals exact h.openParent

theorem place (h : Inside start s) (hs : Sound s) (hp : p < s.nodes.length) (hstart : start ≤ p)
    (type : NodeType) (desc : NodeDesc) (args : Json) :
    Inside start (s.place p type desc args) := by
  obtain ⟨hsubmit, hbuffer, hstack⟩ := (extends_place s p type desc args).2
  refine ⟨h.edges.place hs.grown hp hstart type desc args, ?_, ?_, ?_⟩
  · rw [hsubmit]
    exact h.submit
  · rw [hbuffer]
    exact h.commandBuffer
  · rw [hstack]
    exact h.stack

theorem push (h : Inside start s) (hc : start ≤ c) : Inside start (s.push c) where
  edges := h.edges
  submit := h.submit
  commandBuffer := h.commandBuffer
  stack := by
    intro n hn
    rcases List.mem_cons.mp hn with rfl | hn
    · exact hc
    · exact h.stack n hn

theorem pop (h : Inside start s) : Inside start s.pop where
  edges := h.edges
  submit := h.submit
  commandBuffer := h.commandBuffer
  stack := fun n hn => h.stack n (List.mem_of_mem_tail hn)

theorem withCommandBuffer (h : Inside start s) (hc : start ≤ c) :
    Inside start (s.withCommandBuffer c) where
  edges := h.edges
  submit := h.submit
  commandBuffer := hc
  stack := h.stack

theorem moveCursors (h : Inside start s) (hc : start ≤ c) (kind : CommandKind) :
    Inside start (s.moveCursors c kind) := by
  cases kind
  case beginCommandBuffer => exact h.withCommandBuffer hc
  case beginDebugUtilsLabel => exact h.push hc
  case beginRenderPass => exact h.push hc
  case endRenderPass => exact h.pop
  all_goals exact h

theorem closeLabel (h : Inside start s) : Inside start s.closeLabel := by
  unfold State.closeLabel
  cases s.curParentNodeIndexStack with
  | nil => exact h
  | cons top stack =>
    simp only
    split_ifs
    · exact h.pop
    · exact h

theorem onCommand (h : Inside start s) (hs : Sound s) (v : VulkanCommandInfo) (n : ℕ)
    (counts : List ℕ) : Inside start (s.onCommand v n counts).1 := by
  have hstart : start ≤ s.nodes.length := h.submit.trans hs.submit.le
  rw [onCommand_eq]
  cases commandNode v n counts with
  | none => exact h.closeLabel
  | some node =>
    exact (h.place hs (hs.parentFor_lt _) (h.parentFor _) node.1 node.2 v.args).moveCursors
      hstart _

end Inside

/-- The first command with a node, after one more. -/
def foundAfter (found : Option VulkanCommandInfo) (vkCmds : List VulkanCommandInfo) :
    Option VulkanCommandInfo := found.or (vkCmds.find? hasNode)

theorem foundAfter_append (vkCmds vkCmds' : List VulkanCommandInfo) :
    foundAfter found (vkCmds ++ vkCmds') = foundAfter (foundAfter found vkCmds) vkCmds' := by
  rw [foundAfter, foundAfter, foundAfter, List.find?_append, Option.or_assoc]

theorem Fresh.onCommand (h : Fresh start s) (hs : Sound s) (v : VulkanCommandInfo) (n : ℕ)
    (counts : List ℕ) : Stands start (s.onCommand v n counts).1 (foundAfter none [v]) := by
  rw [onCommand_eq]
  by_cases hnode : commandKind v.name.text = .endDebugUtilsLabel
  · -- the end of a label finds no label
    have hnone : commandNode v n counts = none := by simp [commandNode, hnode]
    have hclose : s.closeLabel = s := by rw [State.closeLabel, h.stack]
    have hfound : foundAfter none [v] = none := by simp [foundAfter, hasNode, hnode]
    rw [hnone, hfound, perform, hclose]
    exact h
  · have hfound : foundAfter none [v] = some v := by simp [foundAfter, hasNode, hnode]
    rw [hfound, Stands]
    cases hcommand : commandNode v n counts with
    | none => exact absurd hcommand (commandNode_ne_none hnode n counts)
    | some node =>
      have hedges : Edges start s := by
        intro p c hc hlt
        rw [childrenAt_of_alone hs.grown.alone] at hc
        have hbounds := hs.grown.planted.child_bounds hc
        have hlength := h.length_nodes
        rw [hs.grown.length_nodes] at hlength
        omega
      split_ifs with hbegin
      · rw [hbegin, perform, parentFor, State.moveCursors]
        have hplace := hedges.place hs.grown hs.submit h.submit.ge node.1 node.2 v.args
        have hcursors := (extends_place s s.curSubmitNodeIndex node.1 node.2 v.args).2
        refine ⟨hplace, ?_, ?_, ?_⟩
        · rw [withCommandBuffer, hcursors.submit]
          exact h.submit.ge
        · have hstart : start ≤ s.nodes.length := h.length_nodes ▸ Nat.le_succ start
          exact hstart
        · rw [withCommandBuffer, hcursors.stack, h.stack]
          simp
      · -- no command buffer has begun for this submit: the cursor is where it was
        have hparent : s.parentFor (commandKind v.name.text) = s.curCommandBufferNodeIndex := by
          cases hkind : commandKind v.name.text <;>
            simp_all [parentFor, State.openParent, h.stack]
        rw [perform, hparent]
        refine ⟨s.curCommandBufferNodeIndex, s.nodes.length, h.commandBuffer, ?_, ?_, ?_⟩
        · rw [h.length_nodes]
          omega
        · exact (place_length _ _).trans_le (extends_moveCursors _ _ _).length_le
        · exact (extends_moveCursors _ _ _).children _ (hs.commandBuffer.trans (place_length _ _))
            _ (hs.grown.filled.mem_childrenAt_place (Nat.zero_le _) hs.commandBuffer v.args)

theorem Stands.onCommand (h : Stands start s found) (hs : Sound s) (v : VulkanCommandInfo) (n : ℕ)
    (counts : List ℕ) : Stands start (s.onCommand v n counts).1 (foundAfter found [v]) := by
  cases found with
  | none => exact Fresh.onCommand h hs v n counts
  | some w =>
    rw [Stands] at h
    rw [foundAfter, Option.some_or, Stands]
    split_ifs at h ⊢
    · exact h.onCommand hs v n counts
    · exact h.mono hs (extends_onCommand s v n counts)

theorem Stands.onCommands (n : ℕ) : ∀ (vkCmds : List VulkanCommandInfo) {s : State}
    {found : Option VulkanCommandInfo}, Stands start s found → Sound s → ∀ counts : List ℕ,
      Stands start (State.onCommands n s vkCmds counts) (foundAfter found vkCmds)
  | [], s, found, h, _, _ => by
    rw [foundAfter, List.find?_nil, Option.or_none]
    exact h
  | v :: vkCmds, s, found, h, hs, counts => by
    have hrest := Stands.onCommands n vkCmds (h.onCommand hs v n counts)
      (hs.onCommand v n counts) (s.onCommand v n counts).2
    rw [← foundAfter_append] at hrest
    exact hrest

theorem Stands.processVkCmds (h : Stands start s found) (hs : Sound s)
    (vkCmds : List VulkanCommandInfo) (n : ℕ) (counts : List ℕ) :
    Stands start (s.processVkCmds vkCmds n counts) (foundAfter found vkCmds) := by
  have hcmds := Stands.onCommands n vkCmds h hs counts
  cases hfound : foundAfter found vkCmds with
  | none =>
    rw [hfound] at hcmds
    exact ⟨hcmds.1, hcmds.2, hcmds.3, rfl⟩
  | some v =>
    rw [hfound, Stands] at hcmds
    rw [Stands]
    split_ifs at hcmds ⊢
    · exact ⟨hcmds.edges, hcmds.submit, hcmds.commandBuffer, by simp [State.processVkCmds]⟩
    · exact hcmds

theorem processHandle_eq {d : GfxrCaptureData} {handle : UInt64}
    (h : processHandle d s handle = some t) : ∃ vkCmds n counts,
      d.gfxrCommandBuffers handle = some vkCmds ∧ t = s.processVkCmds vkCmds n counts := by
  obtain ⟨drawCallCounts, -, hrest⟩ := Option.bind_eq_some_iff.mp h
  obtain ⟨vkCmds, hcmds, hdone⟩ := Option.bind_eq_some_iff.mp hrest
  exact ⟨vkCmds, _, _, hcmds, (Option.some.inj hdone).symm⟩

/-- **One submit**: where its first command with a node leaves the creator. -/
theorem stands_processGfxrSubmit {d : GfxrCaptureData} {submit : SubmitInfo × ℕ} (hs : Sound s)
    (hstack : s.curParentNodeIndexStack = [])
    (h : State.processGfxrSubmit d s submit = some t) :
    Stands s.nodes.length t ((submitCommands d submit.1).find? hasNode) ∧
      t.curParentNodeIndexStack = [] := by
  have hsubmit := hs.onGfxrSubmit submit.2 submit.1
  have hfresh : Stands s.nodes.length (s.onGfxrSubmit submit.2 submit.1) none := by
    rw [onGfxrSubmit_eq]
    exact ⟨by simp, rfl, by simpa using hs.commandBuffer, by simpa using hstack⟩
  have hnone := hfresh.processVkCmds hsubmit submit.1.noneCmdVkCommands 0 []
  have hsound := hsubmit.processVkCmds submit.1.noneCmdVkCommands 0 []
  rw [State.processGfxrSubmit, ← Monitor.run_eq_foldlM] at h
  have hhandles := Monitor.run_history (P := fun handles v => Sound v ∧
    v.curParentNodeIndexStack = [] ∧ Stands s.nodes.length v (foundAfter (foundAfter none
      submit.1.noneCmdVkCommands) (handles.flatMap fun handle =>
        (d.gfxrCommandBuffers handle).getD []))) ?_ ?_ h
  · rw [← foundAfter_append] at hhandles
    exact ⟨hhandles.2.2, hhandles.2.1⟩
  · refine ⟨hsound, rfl, ?_⟩
    rw [List.flatMap_nil, foundAfter, List.find?_nil, Option.or_none]
    exact hnone
  · rintro handles v handle w ⟨hv, -, hstands⟩ hw
    refine ⟨hv.processHandle hw, ?_⟩
    obtain ⟨vkCmds, n, counts, hcmds, rfl⟩ := processHandle_eq hw
    have hnext := hstands.processVkCmds hv vkCmds n counts
    rw [← foundAfter_append] at hnext
    refine ⟨rfl, ?_⟩
    rw [List.flatMap_append, List.flatMap_singleton, hcmds]
    exact hnext

theorem mem_root_processGfxrSubmit {d : GfxrCaptureData} {submit : SubmitInfo × ℕ} (hs : Sound s)
    (h : State.processGfxrSubmit d s submit = some t) :
    s.nodes.length ∈ t.childrenAt 0 ∧ s.nodes.length < t.nodes.length := by
  have hpos : 0 < s.nodes.length := Nat.zero_lt_of_lt hs.submit
  have hnode : s.nodes.length ∈ (s.onGfxrSubmit submit.2 submit.1).childrenAt 0 := by
    rw [onGfxrSubmit_eq]
    exact ((hs.grown.addNode _ _).filled).mem_childrenAt_addChild (Nat.zero_le _)
      (by simp [Topology.kRootNodeIndex])
  have hlength : (s.onGfxrSubmit submit.2 submit.1).nodes.length = s.nodes.length + 1 := by
    rw [onGfxrSubmit_eq]
    simp
  have hext : Extends (s.onGfxrSubmit submit.2 submit.1) t := by
    rw [State.processGfxrSubmit, ← Monitor.run_eq_foldlM] at h
    exact Monitor.run_invariant (extends_processVkCmds _ _ _ _) h
      fun handle _ v w hv hw => hv.trans (extends_processHandle hw)
  have hle := hext.length_le
  exact ⟨hext.children 0 (by omega) _ hnode, by omega⟩

end State

/-! ## All submits -/

section Submits

variable {d : GfxrCaptureData} {final : State}

theorem mem_submitSpans {span : ℕ × ℕ} : ∀ {submits : List (SubmitInfo × ℕ)} {s : State},
    Monitor.run (State.processGfxrSubmit d) s submits = some final →
    (span ∈ submitSpans d s submits ↔ ∃ before submit after v w,
      submits = before ++ submit :: after ∧
      Monitor.run (State.processGfxrSubmit d) s before = some v ∧
      State.processGfxrSubmit d v submit = some w ∧
      Monitor.run (State.processGfxrSubmit d) w after = some final ∧
      span = (v.nodes.length, w.nodes.length))
  | [], s, _ => by simp [submitSpans]
  | submit :: submits, s, hrun => by
    obtain ⟨t, ht, hrest⟩ := Option.bind_eq_some_iff.mp hrun
    rw [submitSpans, ht, Option.elim_some, List.mem_cons, mem_submitSpans hrest]
    constructor
    · rintro (rfl | ⟨before, submit', after, v, w, rfl, hv, hw, hafter, rfl⟩)
      · exact ⟨[], submit, submits, s, t, rfl, rfl, ht, hrest, rfl⟩
      · exact ⟨submit :: before, submit', after, v, w, rfl, (Monitor.run_cons_of ht).trans hv, hw,
          hafter, rfl⟩
    · rintro ⟨before, submit', after, v, w, hsubmits, hv, hw, hafter, rfl⟩
      rcases before with - | ⟨a, before⟩
      · obtain ⟨rfl, rfl⟩ := List.cons.inj hsubmits
        obtain rfl := Option.some.inj hv
        obtain rfl := Option.some.inj (ht.symm.trans hw)
        exact .inl rfl
      · obtain ⟨rfl, rfl⟩ := List.cons.inj hsubmits
        rw [Monitor.run_cons_of ht] at hv
        exact .inr ⟨before, submit', after, v, w, rfl, hv, hw, hafter, rfl⟩

variable {v w : State} {submit : SubmitInfo × ℕ} {n m : ℕ}

theorem Below.mono (h : Below v n m) (hs : Sound v) (hext : Extends v w) : Below w n m := by
  refine ReflTransGen.mono (fun c p hc => hext.children p ?_ c hc) n m h
  rw [childrenAt_of_alone hs.grown.alone] at hc
  have hbounds := hs.grown.planted.child_bounds hc
  rw [hs.grown.length_nodes]
  omega

theorem below_alone (hs : Sound v) : Below v n m =
    ReflTransGen (Forest.ChildOf (childrenIn v.nodeChildren)) n m := by
  rw [Below, childrenAt_of_alone hs.grown.alone]
  rfl

theorem eq_of_below_root (hs : Sound v) (hn : n ∈ v.childrenAt 0) (hm : m ∈ v.childrenAt 0)
    (h : Below v n m) : n = m := by
  rw [below_alone hs] at h
  rw [childrenAt_of_alone hs.grown.alone] at hn hm
  rcases ReflTransGen.cases_head h with rfl | ⟨p, hp, hrest⟩
  · rfl
  · obtain rfl := hs.grown.planted.unique hp hn
    have hle := hs.grown.planted.le_of_below hrest
    have hlt := hs.grown.planted.lt 0 m hm
    omega

theorem below_of_stands (hv : Sound v) (hstack : v.curParentNodeIndexStack = [])
    (hw : State.processGfxrSubmit d v submit = some w) (hbegins : BeginsBuffer d submit.1) :
    ∀ n, v.nodes.length ≤ n → n < w.nodes.length → Below w n v.nodes.length := by
  have hsound := hv.processGfxrSubmit hw
  have hstands := (stands_processGfxrSubmit hv hstack hw).1
  cases hfound : (submitCommands d submit.1).find? hasNode with
  | none =>
    rw [hfound] at hstands
    intro n hle hlt
    rw [hstands.length_nodes] at hlt
    obtain rfl : n = v.nodes.length := by omega
    exact .refl
  | some c =>
    rw [hfound, Stands, if_pos (hbegins c hfound)] at hstands
    have hedges := hstands.edges
    rw [Edges, childrenAt_of_alone hsound.grown.alone] at hedges
    intro n hle hlt
    rw [below_alone hsound]
    rw [hsound.grown.length_nodes] at hlt
    exact hsound.grown.planted.below le_rfl (by simp) (fun c p hc _ hmem => hedges p c hmem hc)
      n hle hlt

theorem exists_not_below (hv : Sound v) (hstack : v.curParentNodeIndexStack = [])
    (hw : State.processGfxrSubmit d v submit = some w) (hbegins : ¬ BeginsBuffer d submit.1)
    (hfinal : Sound final) (hext : Extends w final) :
    ∃ n, v.nodes.length ≤ n ∧ n < w.nodes.length ∧ ¬ Below final n v.nodes.length := by
  have hstands := (stands_processGfxrSubmit hv hstack hw).1
  unfold BeginsBuffer at hbegins
  push Not at hbegins
  obtain ⟨c, hfound, hnot⟩ := hbegins
  rw [hfound, Stands, if_neg hnot] at hstands
  obtain ⟨p, n, hp, hn, hlt, hmem⟩ := hstands
  refine ⟨n, hn.le, hlt, fun hbelow => ?_⟩
  have hchild := hext.children p (by omega) n hmem
  rw [below_alone hfinal] at hbelow
  rw [childrenAt_of_alone hfinal.grown.alone] at hchild
  rcases ReflTransGen.cases_head hbelow with heq | ⟨q, hq, hrest⟩
  · omega
  · obtain rfl := hfinal.grown.planted.unique hq hchild
    have hle := hfinal.grown.planted.le_of_below hrest
    omega

theorem sound_run {submits : List (SubmitInfo × ℕ)}
    (h : Monitor.run (State.processGfxrSubmit d) alone.addFrame submits = some v) :
    Sound v ∧ v.curParentNodeIndexStack = [] :=
  Monitor.run_invariant (P := fun v => Sound v ∧ v.curParentNodeIndexStack = [])
    ⟨sound_alone, rfl⟩ h fun _ _ _ _ hu hw =>
      ⟨hu.1.processGfxrSubmit hw, (stands_processGfxrSubmit hu.1 hu.2 hw).2⟩

theorem extends_run {submits : List (SubmitInfo × ℕ)}
    (h : Monitor.run (State.processGfxrSubmit d) v submits = some w) : Extends v w :=
  Monitor.run_invariant (.refl v) h fun _ _ _ _ hu hw => hu.trans (extends_processGfxrSubmit hw)

/-- **The creator alone keeps the nodes under their submits exactly when each submit with nodes
begins a command buffer first.** -/
theorem keptUnderSubmits_alone_iff (hrun : alone.processGfxrSubmits d = some final) :
    KeptUnderSubmits alone d final ↔ ∀ submit ∈ d.gfxrSubmits, BeginsBuffer d submit := by
  rw [State.processGfxrSubmits, ← Monitor.run_eq_foldlM] at hrun
  have hfinal := (sound_run hrun).1
  constructor
  · intro h submit hsubmit
    obtain ⟨k, hk⟩ := List.mem_iff_getElem?.mp hsubmit
    have hmem : (submit, k) ∈ d.gfxrSubmits.zipIdx := List.mk_mem_zipIdx_iff_getElem?.mpr hk
    obtain ⟨before, after, hsplit⟩ := List.append_of_mem hmem
    have hrun' := hrun
    rw [hsplit] at hrun'
    obtain ⟨v, w, hv, hw, hafter⟩ := Monitor.run_split hrun'
    obtain ⟨hsound, hstack⟩ := sound_run hv
    have hspan : (v.nodes.length, w.nodes.length) ∈
        submitSpans d alone.addFrame d.gfxrSubmits.zipIdx :=
      (mem_submitSpans hrun).mpr ⟨before, (submit, k), after, v, w, hsplit, hv, hw, hafter, rfl⟩
    by_contra hbegins
    obtain ⟨n, hle, hlt, hnot⟩ := exists_not_below hsound hstack hw hbegins hfinal
      (extends_run hafter)
    exact hnot ((h _ hspan n hle hlt _ hspan).mpr rfl)
  · intro h span hspan n hle hlt other hother
    obtain ⟨before, submit, after, v, w, hsplit, hv, hw, hafter, rfl⟩ :=
      (mem_submitSpans hrun).mp hspan
    obtain ⟨before', submit', after', v', w', hsplit', hv', hw', hafter', rfl⟩ :=
      (mem_submitSpans hrun).mp hother
    obtain ⟨hsound, hstack⟩ := sound_run hv
    have hroot := mem_root_processGfxrSubmit hsound hw
    have hroot' := mem_root_processGfxrSubmit (sound_run hv').1 hw'
    have hmem : submit.1 ∈ d.gfxrSubmits := by
      have hin : submit ∈ d.gfxrSubmits.zipIdx := hsplit ▸ by simp
      exact List.fst_mem_of_mem_zipIdx hin
    have hbelow := (below_of_stands hsound hstack hw (h _ hmem) n hle hlt).mono
      (hsound.processGfxrSubmit hw) (extends_run hafter)
    constructor
    · intro hother
      have hchild : ∀ {a b : State}, Extends a final → b.nodes.length ∈ a.childrenAt 0 →
          b.nodes.length < a.nodes.length → b.nodes.length ∈ final.childrenAt 0 :=
        fun hext hmem hlt => hext.children 0 (by omega) _ hmem
      have h₁ := hchild (extends_run hafter) hroot.1 hroot.2
      have h₂ := hchild (extends_run hafter') hroot'.1 hroot'.2
      rw [below_alone hfinal] at hbelow hother
      rcases hfinal.grown.planted.below_total hbelow hother with hchain | hchain
      · exact (eq_of_below_root hfinal h₁ h₂ ((below_alone hfinal).symm ▸ hchain)).symm
      · exact eq_of_below_root hfinal h₂ h₁ ((below_alone hfinal).symm ▸ hchain)
    · rintro heq
      rw [heq]
      exact hbelow

end Submits

end Dive.GfxrVulkanCommandHierarchyCreator
