import Dive.Gfxr.Shifted
import Dive.Hierarchy.EventTree

/-!
# The mixed hierarchy

* `Topology.children`: the children that are read back; `children_of_planted`.
* `DiveCommandHierarchyCreator.createTopologies`: the two creators in one topology of all events.
* `Tops`: where the frame node and the submits of the creator alone are.
* `mixedLists`: the child lists that are merged; **`planted_mixedLists`**.
* `IsTree`, `SameTree`: what is asked of the hierarchy.
* **`isTree_mixed`**: the mixed hierarchy is a tree, with the submits of the creator alone.
-/

namespace Dive

open Planting
open Relation (ReflTransGen TransGen)

/-! ## Topologies that are filled with planted lists -/

/-- The children of a node. -/
def Topology.children (t : Topology) (nodeIndex : ℕ) : List ℕ :=
  (List.range ((t.getNumChildren nodeIndex).getD 0)).filterMap (t.getChildNodeIndex nodeIndex)

theorem Topology.Holds.children_eq {t : Topology} {numNodes : ℕ} {additions : List (ℕ × List ℕ)}
    (h : t.Holds numNodes additions) (hF : FormsForest numNodes additions) :
    t.children = childrenOf additions := by
  funext n
  unfold Topology.children
  rcases Nat.lt_or_ge n numNodes with hlt | hge
  · rw [h.numChildren hF hlt, Option.getD_some]
    have hget : (List.range (childrenOf additions n).length).map (t.getChildNodeIndex n) =
        (childrenOf additions n).map some := by
      apply List.ext_getElem
      · simp
      · intro i hi _
        rw [List.length_map, List.length_range] at hi
        rw [List.getElem_map, List.getElem_range, List.getElem_map]
        exact h.child hF (List.getElem?_eq_getElem hi)
    calc (List.range (childrenOf additions n).length).filterMap (t.getChildNodeIndex n)
        = ((List.range (childrenOf additions n).length).map (t.getChildNodeIndex n)).filterMap
            id := by rw [List.filterMap_map, Function.id_comp]
      _ = childrenOf additions n := by
        rw [hget, List.filterMap_map, Function.id_comp, List.filterMap_some]
  · have hnone : t.getNumChildren n = none := by
      rw [Topology.getNumChildren, List.getElem?_eq_none (by rw [h.length_children]; exact hge)]
      rfl
    rw [hnone, childrenOf_of_not_mem]
    · rfl
    · intro hmem
      obtain ⟨a, ha, rfl⟩ := List.mem_map.mp hmem
      have hlt := hF.parent_lt a ha
      omega

section Planted

variable {lists : List (List ℕ)} {pending : List ℕ} {additions : List (ℕ × List ℕ)}

theorem childrenOf_of_planted (h : Planted lists pending)
    (hadditions : additions.Perm (lists.zipIdx.map Prod.swap)) :
    FormsForest lists.length additions ∧ childrenOf additions = childrenIn lists := by
  have hmem : ∀ a, a ∈ additions ↔ lists[a.1]? = some a.2 := by
    intro a
    rw [hadditions.mem_iff, List.mem_map]
    constructor
    · rintro ⟨b, hb, rfl⟩
      exact List.mem_zipIdx_iff_getElem?.mp hb
    · intro ha
      exact ⟨a.swap, List.mem_zipIdx_iff_getElem?.mpr ha, Prod.swap_swap a⟩
  have honce : (additions.map Prod.fst).Nodup := by
    rw [(hadditions.map Prod.fst).nodup_iff, List.map_map]
    have hfst : Prod.fst ∘ Prod.swap = (Prod.snd : List ℕ × ℕ → ℕ) := rfl
    rw [hfst, List.zipIdx_map_snd]
    exact List.nodup_range'
  have hchildren : childrenOf additions = childrenIn lists := by
    funext n
    cases hn : lists[n]? with
    | none =>
      rw [childrenIn, hn, Option.getD_none]
      apply childrenOf_of_not_mem
      intro hfst
      obtain ⟨a, ha, rfl⟩ := List.mem_map.mp hfst
      rw [hmem, hn] at ha
      cases ha
    | some l =>
      rw [childrenIn, hn, Option.getD_some]
      exact childrenOf_of_mem honce ((hmem (n, l)).mpr hn)
  refine ⟨⟨honce, ?_, ?_, ?_, ?_⟩, hchildren⟩
  · intro a ha
    exact (List.getElem?_eq_some_iff.mp ((hmem a).mp ha)).1
  · rw [(hadditions.flatMap_right Prod.snd).nodup_iff, List.flatMap_map]
    have hflatten : (lists.zipIdx.flatMap fun a => a.swap.2) = lists.flatten := by
      rw [List.flatMap_def]
      congr 1
      exact List.zipIdx_map_fst 0 lists
    rw [hflatten]
    exact (List.nodup_append.mp h.nodup).1
  · intro a ha c hc
    refine (h.child_bounds (p := a.1) ?_).2
    rw [childrenIn, (hmem a).mp ha]
    exact hc
  · intro n
    rw [hchildren]
    exact h.acyclic n

end Planted

/-! ## The top nodes -/

/-- The nodes that are moved to the root. -/
def NodeType.isTop : NodeType → Bool
  | .kGfxrVulkanSubmitNode | .kGfxrRootFrameNode => true
  | _ => false

namespace GfxrVulkanCommandHierarchyCreator

open DiveAnnotationProcessor

namespace State

variable {s t : State} {b c : ℕ} {type : NodeType}

/-- The top nodes come before `b`. -/
def TopsBefore (b : ℕ) (s : State) : Prop :=
  ∀ i type, s.getNodeType i = some type → type.isTop → i < b

theorem TopsBefore.addNode (h : TopsBefore b s) (htype : type.isTop → s.nodes.length < b)
    (desc : NodeDesc) : TopsBefore b (s.addNode type desc).1 := by
  intro i type' hi htop
  rcases Nat.lt_trichotomy i s.nodes.length with hlt | rfl | hgt
  · rw [getNodeType_addNode hlt] at hi
    exact h i type' hi htop
  · rw [getNodeType_addNode_self] at hi
    cases hi
    exact htype htop
  · rw [getNodeType, List.getElem?_eq_none (by simp; omega)] at hi
    cases hi

theorem TopsBefore.getArgs (h : TopsBefore b s) (args : Json) : TopsBefore b (s.getArgs c args) := by
  have halike := getArgs_alike s s c c args
  suffices hall : ∀ t t', Alike c c s s t t' → TopsBefore b t from hall _ _ halike
  intro t t' halike
  induction halike with
  | start => exact h
  | belowGiven desc _ ih => exact ih.addNode (by simp [NodeType.isTop]) desc
  | belowNew k desc _ _ ih => exact ih.addNode (by simp [NodeType.isTop]) desc

theorem isTop_commandNode {v : VulkanCommandInfo} {n : ℕ} {counts : List ℕ}
    {node : NodeType × NodeDesc} (h : commandNode v n counts = some node) :
    node.1.isTop = false := by
  simp only [commandNode] at h
  cases hkind : commandKind v.name.text with
  | endDebugUtilsLabel =>
    rw [hkind] at h
    cases h
  | other =>
    rw [hkind] at h
    cases h
    unfold otherNodeType
    split_ifs <;> rfl
  | _ =>
    rw [hkind] at h
    cases h
    rfl

theorem TopsBefore.onCommand (h : TopsBefore b s) (v : VulkanCommandInfo) (n : ℕ)
    (counts : List ℕ) : TopsBefore b (s.onCommand v n counts).1 := by
  rw [onCommand_eq]
  cases hnode : commandNode v n counts with
  | none =>
    rw [perform, State.closeLabel]
    cases s.curParentNodeIndexStack with
    | nil => exact h
    | cons top stack =>
      simp only
      split_ifs <;> exact h
  | some node =>
    have hplace : TopsBefore b
        (s.place (s.parentFor (commandKind v.name.text)) node.1 node.2 v.args) :=
      (h.addNode (by simp [isTop_commandNode hnode]) node.2).getArgs v.args
    rw [perform]
    cases commandKind v.name.text <;> exact hplace

theorem TopsBefore.onCommands (n : ℕ) {vkCmds : List VulkanCommandInfo} (h : TopsBefore b s)
    (counts : List ℕ) : TopsBefore b (State.onCommands n s vkCmds counts) := by
  induction vkCmds generalizing s counts with
  | nil => exact h
  | cons v vkCmds ih => exact ih (h.onCommand v n counts) _

theorem TopsBefore.processVkCmds (h : TopsBefore b s) (vkCmds : List VulkanCommandInfo) (n : ℕ)
    (counts : List ℕ) : TopsBefore b (s.processVkCmds vkCmds n counts) := h.onCommands n counts

/-- The frame node is the node 1, and the submits are children of the root. -/
structure Tops (s : State) : Prop where
  frame : ∀ i, s.getNodeType i = some .kGfxrRootFrameNode ↔ i = 1
  submit : ∀ i, s.getNodeType i = some .kGfxrVulkanSubmitNode → i ∈ s.childrenAt 0

theorem topsBefore_processGfxrSubmit {d : GfxrCaptureData} {submit : SubmitInfo × ℕ}
    (h : State.processGfxrSubmit d s submit = some t) :
    TopsBefore (s.nodes.length + 1) t ∧
      t.getNodeType s.nodes.length = some .kGfxrVulkanSubmitNode := by
  have hbefore : TopsBefore (s.nodes.length + 1) s := by
    intro i type hi _
    obtain ⟨node, hnode, -⟩ := Option.map_eq_some_iff.mp hi
    exact Nat.lt_succ_of_lt (List.getElem?_eq_some_iff.mp hnode).1
  have hsubmit : TopsBefore (s.nodes.length + 1) (s.onGfxrSubmit submit.2 submit.1) :=
    hbefore.addNode (fun _ => Nat.lt_succ_self _) _
  have htype : (s.onGfxrSubmit submit.2 submit.1).getNodeType s.nodes.length =
      some .kGfxrVulkanSubmitNode := getNodeType_addNode_self
  have hlength : s.nodes.length < (s.onGfxrSubmit submit.2 submit.1).nodes.length := by
    rw [onGfxrSubmit_eq]
    simp
  rw [State.processGfxrSubmit, ← Monitor.run_eq_foldlM] at h
  have hrun : TopsBefore (s.nodes.length + 1) t ∧ Extends (s.onGfxrSubmit submit.2 submit.1) t := by
    refine Monitor.run_invariant (P := fun t => TopsBefore (s.nodes.length + 1) t ∧
      Extends (s.onGfxrSubmit submit.2 submit.1) t) ⟨hsubmit.processVkCmds _ _ _,
        extends_processVkCmds _ _ _ _⟩ h ?_
    rintro handle _ v w ⟨hv, hext⟩ hw
    have hnext := hext.trans (extends_processHandle hw)
    obtain ⟨vkCmds, n, counts, -, rfl⟩ := processHandle_eq hw
    exact ⟨hv.processVkCmds vkCmds n counts, hnext⟩
  exact ⟨hrun.1, (hrun.2.getNodeType hlength).trans htype⟩

theorem Tops.processGfxrSubmit {d : GfxrCaptureData} {submit : SubmitInfo × ℕ} (h : Tops s)
    (hs : Sound s) (htwo : 2 ≤ s.nodes.length)
    (ht : State.processGfxrSubmit d s submit = some t) : Tops t := by
  obtain ⟨hbefore, htype⟩ := topsBefore_processGfxrSubmit ht
  have hext := extends_processGfxrSubmit ht
  have hroot := mem_root_processGfxrSubmit hs ht
  constructor
  · intro i
    constructor
    · intro hi
      have hlt := hbefore i _ hi rfl
      rcases Nat.lt_succ_iff_lt_or_eq.mp hlt with hold | rfl
      · rw [hext.getNodeType hold] at hi
        exact (h.frame i).mp hi
      · rw [htype] at hi
        cases hi
    · rintro rfl
      rw [hext.getNodeType (by omega)]
      exact (h.frame 1).mpr rfl
  · intro i hi
    have hlt := hbefore i _ hi rfl
    rcases Nat.lt_succ_iff_lt_or_eq.mp hlt with hold | rfl
    · rw [hext.getNodeType hold] at hi
      exact hext.children 0 (by omega) i (h.submit i hi)
    · exact hroot.1

theorem tops_alone {d : GfxrCaptureData} (h : alone.processGfxrSubmits d = some s) : Tops s := by
  rw [State.processGfxrSubmits, ← Monitor.run_eq_foldlM] at h
  have htypes : ∀ i type, alone.addFrame.getNodeType i = some type →
      (i = 0 ∧ type = .kRootNode) ∨ (i = 1 ∧ type = .kGfxrRootFrameNode) := by
    intro i type hi
    rcases i with _ | _ | i
    · exact .inl ⟨rfl, (Option.some.inj hi).symm⟩
    · exact .inr ⟨rfl, (Option.some.inj hi).symm⟩
    · cases hi
  have hstart : Tops alone.addFrame := by
    constructor
    · intro i
      constructor
      · intro hi
        rcases htypes i _ hi with ⟨-, htype⟩ | ⟨hone, -⟩
        · cases htype
        · exact hone
      · rintro rfl
        rfl
    · intro i hi
      rcases htypes i _ hi with ⟨-, htype⟩ | ⟨-, htype⟩ <;> cases htype
  refine (Monitor.run_invariant (P := fun v => Tops v ∧ Sound v ∧ 2 ≤ v.nodes.length)
    ⟨hstart, sound_alone, le_rfl⟩ h ?_).1
  rintro submit _ v w ⟨hv, hs, htwo⟩ hw
  exact ⟨hv.processGfxrSubmit hs htwo hw, hs.processGfxrSubmit hw,
    htwo.trans (extends_processGfxrSubmit hw).length_le⟩

end State

end GfxrVulkanCommandHierarchyCreator

/-! ## The merge -/

namespace DiveCommandHierarchyCreator

open GfxrVulkanCommandHierarchyCreator

/- The shared children of the PM4 nodes are given. -/
variable (pm4 : EventTreeCreator) (sharedChildren : ℕ → List ℕ) (gfxr : State)

/-- The indices of the GFXR nodes, from `num_pm4_nodes` on. -/
def gfxrNodes : List ℕ := List.range' pm4.nodeChildren.length gfxr.nodeChildren.length

/-- The PM4 nodes but the root. -/
def pm4Calls : List TopologyCall :=
  pm4.nodeChildren.zipIdx.tail.flatMap fun (children, nodeIndex) =>
    [.addChildren nodeIndex children, .addSharedChildren nodeIndex (sharedChildren nodeIndex)]

/-- `filtered_children`. -/
def filteredChildren (nodeIndex : ℕ) (children : List ℕ) : List ℕ :=
  children.filter fun childNode =>
    childNode ≠ nodeIndex && gfxr.getNodeType childNode ≠ some .kGfxrVulkanSubmitNode

/-- A GFXR node. `none` is the exception of `at`, or a read outside of the child lists. -/
def gfxrCall (nodeIndex : ℕ) : Option TopologyCall := do
  let gfxrDiveIndex ← gfxr.diveIndicesToLocalIndicesMap nodeIndex
  let children ← gfxr.nodeChildren[gfxrDiveIndex]?
  some (.addChildren nodeIndex (filteredChildren gfxr nodeIndex children))

/-- The submit and the frame nodes. -/
def gfxrSubmitNodes : List ℕ :=
  (gfxrNodes pm4 gfxr).filter fun nodeIndex =>
    gfxr.getNodeType nodeIndex = some .kGfxrVulkanSubmitNode ||
      gfxr.getNodeType nodeIndex = some .kGfxrRootFrameNode

/-- `combined_root_children`. -/
def combinedRootChildren : List ℕ := pm4.nodeChildren.headD [] ++ gfxrSubmitNodes pm4 gfxr

/-- `CreateTopologies`, for the topology of all events. -/
def createTopologies : Option SharedNodeTopology := do
  let gfxrCalls ← (gfxrNodes pm4 gfxr).mapM (gfxrCall gfxr)
  some (.run (pm4.nodeChildren.length + gfxr.nodeChildren.length)
    (pm4Calls pm4 sharedChildren ++ gfxrCalls ++ [.addChildren 0 (combinedRootChildren pm4 gfxr)]))

/-! ## The lists that are merged -/

/-- The child lists of all nodes. -/
def mixedLists : List (List ℕ) :=
  combinedRootChildren pm4 gfxr :: (pm4.nodeChildren.tail ++
    (gfxrNodes pm4 gfxr).map fun n => filteredChildren gfxr n (gfxr.childrenAt n))

/-- A sound PM4 creator, and the creator `s` alone behind its nodes. -/
structure Merges (pm4 : EventTreeCreator) (k : ℕ) (s gfxr : State) : Prop where
  events : pm4.Sound
  shifted : Shifted pm4.nodes k s gfxr
  sound : s.Sound
  tops : s.Tops

variable {pm4 sharedChildren gfxr} {k n c i : ℕ} {s : State}

theorem map_add_range' (a q k : ℕ) :
    (List.range' a q).map (· + k) = List.range' (a + k) q := by
  simp only [Nat.add_comm _ k, List.map_add_range']

namespace Merges

theorem length_pm4 (h : Merges pm4 k s gfxr) : pm4.nodeChildren.length = k + 1 := by
  rw [← h.events.length_nodes, h.shifted.length_front]

theorem length_gfxr (h : Merges pm4 k s gfxr) :
    s.nodes.length = gfxr.nodeChildren.length + 1 := by
  have hlength := h.shifted.length_nodeChildren
  have htwo := h.shifted.two_le
  omega

theorem mem_gfxrNodes (h : Merges pm4 k s gfxr) :
    n ∈ gfxrNodes pm4 gfxr ↔ ∃ i, 1 ≤ i ∧ i < s.nodes.length ∧ n = i + k := by
  rw [gfxrNodes, List.mem_range'_1, h.length_pm4, h.length_gfxr]
  constructor
  · rintro ⟨hle, hlt⟩
    exact ⟨n - k, by omega, by omega, by omega⟩
  · rintro ⟨i, hi, hlt, rfl⟩
    omega

theorem childrenAt_frame (h : Merges pm4 k s gfxr) : gfxr.childrenAt (1 + k) =
    (s.childrenAt 0).map (· + k) := by
  rw [← h.shifted.root, State.childrenAt, State.childrenAt, h.shifted.localIndex_zero,
    h.shifted.localIndex_add le_rfl h.shifted.two_le]

theorem exists_child (h : Merges pm4 k s gfxr) (hi : 1 ≤ i) (hlt : i < s.nodes.length)
    (hc : c ∈ gfxr.childrenAt (i + k)) :
    ∃ j, 1 ≤ j ∧ j < s.nodes.length ∧ c = j + k ∧ (1 < i → i < j) := by
  have hbounds : ∀ {p j : ℕ}, j ∈ s.childrenAt p → p < j ∧ j < s.nodes.length := by
    intro p j hj
    rw [State.childrenAt_of_alone h.sound.grown.alone] at hj
    have hchild := h.sound.grown.planted.child_bounds hj
    rwa [← h.sound.grown.length_nodes] at hchild
  rcases Nat.eq_or_lt_of_le hi with rfl | hgt
  · rw [h.childrenAt_frame, List.mem_map] at hc
    obtain ⟨j, hj, rfl⟩ := hc
    exact ⟨j, (hbounds hj).1, (hbounds hj).2, rfl, fun hone => absurd hone (Nat.lt_irrefl 1)⟩
  · rw [h.shifted.children i hgt hlt, List.mem_map] at hc
    obtain ⟨j, hj, rfl⟩ := hc
    have hj' := hbounds hj
    exact ⟨j, by omega, hj'.2, rfl, fun _ => hj'.1⟩

/-- The submit and frame nodes. -/
def isTop (gfxr : State) (n : ℕ) : Bool :=
  gfxr.getNodeType n = some .kGfxrVulkanSubmitNode || gfxr.getNodeType n = some .kGfxrRootFrameNode

theorem filteredChildren_eq (h : Merges pm4 k s gfxr) (hn : n ∈ gfxrNodes pm4 gfxr) :
    filteredChildren gfxr n (gfxr.childrenAt n) =
      (gfxr.childrenAt n).filter fun c => !isTop gfxr c := by
  obtain ⟨i, hi, hlt, rfl⟩ := h.mem_gfxrNodes.mp hn
  unfold filteredChildren
  apply List.filter_congr
  intro c hc
  obtain ⟨j, hj, hjlt, rfl, hij⟩ := h.exists_child hi hlt hc
  have hframe : gfxr.getNodeType (j + k) = some .kGfxrRootFrameNode ↔ j + k = i + k := by
    rw [h.shifted.getNodeType hj, h.tops.frame]
    omega
  unfold isTop
  rw [Bool.not_or, Bool.and_comm]
  congr 1
  · simp
  · simp [hframe]

theorem flatten_gfxr (h : Merges pm4 k s gfxr) :
    ((gfxrNodes pm4 gfxr).map gfxr.childrenAt).flatten =
      s.nodeChildren.flatten.map (· + k) := by
  have htwo := h.shifted.two_le
  have hlength := h.length_gfxr
  obtain ⟨q, hq⟩ := Nat.exists_eq_add_of_le htwo
  have hnodes : gfxrNodes pm4 gfxr = (1 + k) :: (List.range' 2 q).map (· + k) := by
    have hlists : gfxr.nodeChildren.length = q + 1 := by omega
    rw [gfxrNodes, h.length_pm4, hlists, List.range'_succ, map_add_range', Nat.add_comm k 1]
    congr 2
    omega
  have hlists : s.nodeChildren = s.childrenAt 0 :: s.childrenAt 1 ::
      (List.range' 2 q).map s.childrenAt := by
    have hall := map_childrenIn s.nodeChildren
    rw [← h.sound.grown.length_nodes, hq, Nat.add_comm, List.range_eq_range', List.range'_succ,
      List.range'_succ] at hall
    rw [State.childrenAt_of_alone h.sound.grown.alone]
    exact hall.symm
  have hflatten : s.nodeChildren.flatten =
      s.childrenAt 0 ++ ((List.range' 2 q).map s.childrenAt).flatten := by
    rw [congrArg List.flatten hlists, h.shifted.frame]
    rfl
  rw [hnodes, hflatten, List.map_cons, List.flatten_cons, h.childrenAt_frame, List.map_append,
    List.map_flatten, List.map_map, List.map_map]
  congr 2
  apply List.map_congr_left
  intro i hi
  rw [List.mem_range'_1] at hi
  exact h.shifted.children i hi.1 (by omega)

theorem flatten_gfxr_perm (h : Merges pm4 k s gfxr) :
    ((gfxrNodes pm4 gfxr).map gfxr.childrenAt).flatten.Perm (gfxrNodes pm4 gfxr) := by
  have hplanted := h.sound.grown.planted.perm
  rw [List.append_nil, ← h.sound.grown.length_nodes, h.length_gfxr, Nat.add_sub_cancel] at hplanted
  rw [h.flatten_gfxr, gfxrNodes, h.length_pm4]
  have hshift := hplanted.map (· + k)
  rwa [map_add_range', Nat.add_comm 1 k] at hshift

/-- **The top nodes move to the root.** -/
theorem filtered_perm (h : Merges pm4 k s gfxr) :
    (((gfxrNodes pm4 gfxr).map fun n => filteredChildren gfxr n (gfxr.childrenAt n)).flatten ++
      gfxrSubmitNodes pm4 gfxr).Perm (gfxrNodes pm4 gfxr) := by
  have hfiltered : (gfxrNodes pm4 gfxr).map (fun n => filteredChildren gfxr n (gfxr.childrenAt n)) =
      ((gfxrNodes pm4 gfxr).map gfxr.childrenAt).map (List.filter fun c => !isTop gfxr c) := by
    rw [List.map_map]
    exact List.map_congr_left fun n hn => h.filteredChildren_eq hn
  rw [hfiltered, ← List.filter_flatten]
  have hrest := h.flatten_gfxr_perm.filter fun c => !isTop gfxr c
  exact ((hrest.append_right _).trans List.perm_append_comm).trans
    (List.filter_append_perm (isTop gfxr) _)

theorem eq_cons (h : Merges pm4 k s gfxr) :
    pm4.nodeChildren = pm4.nodeChildren.headD [] :: pm4.nodeChildren.tail := by
  cases hlists : pm4.nodeChildren with
  | nil =>
    have hlength := h.length_pm4
    rw [hlists] at hlength
    cases hlength
  | cons l lists => rfl

theorem length_tail (h : Merges pm4 k s gfxr) : pm4.nodeChildren.tail.length = k := by
  rw [List.length_tail, h.length_pm4, Nat.add_sub_cancel]

theorem length_mixedLists (h : Merges pm4 k s gfxr) :
    (mixedLists pm4 gfxr).length = k + 1 + gfxr.nodeChildren.length := by
  simp [mixedLists, gfxrNodes, h.length_pm4]
  omega

theorem childrenIn_succ : childrenIn (mixedLists pm4 gfxr) (n + 1) =
    childrenIn (pm4.nodeChildren.tail ++ (gfxrNodes pm4 gfxr).map fun n =>
      filteredChildren gfxr n (gfxr.childrenAt n)) n := rfl

theorem childrenIn_pm4 (h : Merges pm4 k s gfxr) (hlt : n < k) :
    childrenIn (mixedLists pm4 gfxr) (n + 1) = childrenIn pm4.nodeChildren (n + 1) := by
  rw [childrenIn_succ, childrenIn_append_left (h.length_tail ▸ hlt), childrenIn, childrenIn,
    List.getElem?_tail]

theorem childrenIn_gfxr (h : Merges pm4 k s gfxr) (hn : n ∈ gfxrNodes pm4 gfxr) :
    childrenIn (mixedLists pm4 gfxr) n = filteredChildren gfxr n (gfxr.childrenAt n) := by
  obtain ⟨i, hi, hlt, rfl⟩ := h.mem_gfxrNodes.mp hn
  obtain ⟨j, rfl⟩ := Nat.exists_eq_add_of_le' hi
  have hlength := h.length_gfxr
  have htail := h.length_tail
  have hindex : k + 1 + j = j + 1 + k := by omega
  have hjlt : j < gfxr.nodeChildren.length := by omega
  rw [Nat.add_right_comm, childrenIn_succ, childrenIn_append_right (by omega), htail,
    Nat.add_sub_cancel]
  simp [childrenIn, gfxrNodes, h.length_pm4, hjlt, hindex, Nat.add_right_comm]

theorem mem_childrenIn (h : Merges pm4 k s gfxr) : c ∈ childrenIn (mixedLists pm4 gfxr) n →
    (n = 0 ∧ c ∈ combinedRootChildren pm4 gfxr) ∨ (0 < n ∧ c ∈ childrenIn pm4.nodeChildren n) ∨
      (n ∈ gfxrNodes pm4 gfxr ∧ c ∈ filteredChildren gfxr n (gfxr.childrenAt n)) := by
  intro hc
  have hlength := h.length_mixedLists
  cases n with
  | zero => exact .inl ⟨rfl, hc⟩
  | succ m =>
    rcases Nat.lt_or_ge m k with hlt | hge
    · rw [h.childrenIn_pm4 hlt] at hc
      exact .inr (.inl ⟨Nat.succ_pos m, hc⟩)
    · have hmem : m + 1 ∈ gfxrNodes pm4 gfxr := by
        rw [gfxrNodes, List.mem_range'_1, h.length_pm4]
        refine ⟨by omega, ?_⟩
        by_contra hlt
        rw [childrenIn_of_length_le (by omega)] at hc
        cases hc
      rw [h.childrenIn_gfxr hmem] at hc
      exact .inr (.inr ⟨hmem, hc⟩)

theorem planted_mixedLists (h : Merges pm4 k s gfxr) {pending : List ℕ}
    (hpm4 : Planted pm4.nodeChildren pending) : Planted (mixedLists pm4 gfxr) pending where
  perm := by
    have hperm := hpm4.perm
    rw [h.length_pm4, h.eq_cons, List.flatten_cons, Nat.add_sub_cancel] at hperm
    have hall := hperm.append h.filtered_perm
    have hlength : (mixedLists pm4 gfxr).length - 1 = k + gfxr.nodeChildren.length := by
      rw [h.length_mixedLists]
      omega
    rw [hlength, ← List.range'_append_1, Nat.add_comm 1 k, ← h.length_pm4]
    refine List.Perm.trans ?_ hall
    rw [mixedLists, List.flatten_cons, List.flatten_append, combinedRootChildren]
    apply Multiset.coe_eq_coe.mp
    simp only [← Multiset.coe_add]
    ac_rfl
  lt := by
    intro p c hc
    rcases h.mem_childrenIn hc with ⟨rfl, hc⟩ | ⟨-, hc⟩ | ⟨hp, hc⟩
    · rcases List.mem_append.mp hc with hc | hc
      · refine hpm4.lt 0 c ?_
        rw [h.eq_cons]
        exact hc
      · obtain ⟨i, hi, -, rfl⟩ := h.mem_gfxrNodes.mp (List.mem_filter.mp hc).1
        omega
    · exact hpm4.lt p c hc
    · obtain ⟨i, hi, hlt, rfl⟩ := h.mem_gfxrNodes.mp hp
      obtain ⟨hmem, hne⟩ := List.mem_filter.mp hc
      obtain ⟨j, hj, -, rfl, hij⟩ := h.exists_child hi hlt hmem
      have hne' : j + k ≠ i + k := by
        simp only [Bool.and_eq_true, decide_eq_true_eq] at hne
        exact hne.1
      omega
  pos := by simp [mixedLists]

/-! ## The topology -/

theorem gfxrCall_eq (h : Merges pm4 k s gfxr) (hn : n ∈ gfxrNodes pm4 gfxr) :
    gfxrCall gfxr n = some (.addChildren n (filteredChildren gfxr n (gfxr.childrenAt n))) := by
  obtain ⟨i, hi, hlt, rfl⟩ := h.mem_gfxrNodes.mp hn
  have hlocal := h.shifted.localIndex_add hi hlt
  have hlength := h.length_gfxr
  have hindex : gfxr.diveIndicesToLocalIndicesMap (i + k) = some (i - 1) := by
    rw [State.localIndex, if_pos h.shifted.mixed] at hlocal
    cases hmap : gfxr.diveIndicesToLocalIndicesMap (i + k) with
    | none =>
      rw [hmap, Option.getD_none] at hlocal
      omega
    | some j =>
      rw [hmap, Option.getD_some] at hlocal
      rw [hlocal]
  have hlist : gfxr.nodeChildren[i - 1]? = some (gfxr.childrenAt (i + k)) := by
    rw [State.childrenAt, hlocal, List.getElem?_eq_getElem (by omega), Option.getD_some]
  rw [gfxrCall, hindex, Option.bind_eq_bind, Option.bind_some, hlist]
  rfl

/-- The children that are added, in the order of the calls. -/
def additions (pm4 : EventTreeCreator) (gfxr : State) : List (ℕ × List ℕ) :=
  pm4.nodeChildren.zipIdx.tail.map Prod.swap ++
    (gfxrNodes pm4 gfxr).map (fun n => (n, filteredChildren gfxr n (gfxr.childrenAt n))) ++
      [(0, combinedRootChildren pm4 gfxr)]

theorem additions_pm4Calls : (pm4Calls pm4 sharedChildren).filterMap TopologyCall.addition =
    pm4.nodeChildren.zipIdx.tail.map Prod.swap := by
  unfold pm4Calls
  induction pm4.nodeChildren.zipIdx.tail with
  | nil => rfl
  | cons node nodes ih =>
    rw [List.flatMap_cons, List.filterMap_append, ih]
    rfl

theorem additions_perm (h : Merges pm4 k s gfxr) :
    (additions pm4 gfxr).Perm ((mixedLists pm4 gfxr).zipIdx.map Prod.swap) := by
  have hzip : ∀ (q a : ℕ) (f : ℕ → List ℕ), (((List.range' a q).map f).zipIdx a).map Prod.swap =
      (List.range' a q).map fun n => (n, f n) := by
    intro q
    induction q with
    | zero => exact fun _ _ => rfl
    | succ q ih =>
      intro a f
      rw [List.range'_succ, List.map_cons, List.zipIdx_cons, List.map_cons, ih, List.map_cons]
      rfl
  have htail : pm4.nodeChildren.zipIdx.tail = pm4.nodeChildren.tail.zipIdx 1 := by
    rw [h.eq_cons]
    rfl
  rw [additions, mixedLists, List.zipIdx_cons, List.map_cons, List.zipIdx_append, List.map_append,
    htail, h.length_tail, Nat.zero_add]
  have hgfxr : (((gfxrNodes pm4 gfxr).map fun n =>
      filteredChildren gfxr n (gfxr.childrenAt n)).zipIdx (1 + k)).map Prod.swap =
        (gfxrNodes pm4 gfxr).map fun n => (n, filteredChildren gfxr n (gfxr.childrenAt n)) := by
    rw [gfxrNodes, h.length_pm4, Nat.add_comm k 1]
    exact hzip _ _ _
  rw [hgfxr]
  exact List.perm_append_singleton _ _

/-- **The topology of all events has the merged child lists.** -/
theorem exists_topology (h : Merges pm4 k s gfxr) (sharedChildren : ℕ → List ℕ) :
    ∃ t, createTopologies pm4 sharedChildren gfxr = some t ∧
      t.Holds (mixedLists pm4 gfxr).length (additions pm4 gfxr) ∧
      FormsForest (mixedLists pm4 gfxr).length (additions pm4 gfxr) ∧
      t.children = childrenIn (mixedLists pm4 gfxr) := by
  obtain ⟨pending, hpm4, -⟩ := h.events.planted
  obtain ⟨hforest, hchildren⟩ := childrenOf_of_planted (h.planted_mixedLists hpm4) h.additions_perm
  have hcalls : (gfxrNodes pm4 gfxr).mapM (gfxrCall gfxr) = some ((gfxrNodes pm4 gfxr).map fun n =>
      TopologyCall.addChildren n (filteredChildren gfxr n (gfxr.childrenAt n))) :=
    List.mapM_eq_some_map_iff.mpr fun n hn => h.gfxrCall_eq hn
  have hlength : pm4.nodeChildren.length + gfxr.nodeChildren.length =
      (mixedLists pm4 gfxr).length := by
    rw [h.length_mixedLists, h.length_pm4]
  have hadditions : (pm4Calls pm4 sharedChildren ++ (gfxrNodes pm4 gfxr).map (fun n =>
      TopologyCall.addChildren n (filteredChildren gfxr n (gfxr.childrenAt n))) ++
        [TopologyCall.addChildren 0 (combinedRootChildren pm4 gfxr)]).filterMap
          TopologyCall.addition = additions pm4 gfxr := by
    rw [List.filterMap_append, List.filterMap_append, additions_pm4Calls, List.filterMap_map,
      additions]
    have hgfxr := congrFun (@List.filterMap_eq_map _ _ fun n =>
      (n, filteredChildren gfxr n (gfxr.childrenAt n))) (gfxrNodes pm4 gfxr)
    rw [← hgfxr]
    rfl
  have hholds := run_holds (hadditions ▸ hforest)
  rw [hadditions] at hholds
  refine ⟨_, ?_, hholds, hforest, (hholds.children_eq hforest).trans hchildren⟩
  rw [createTopologies, hcalls, hlength]
  rfl

end Merges

/-! ## The hierarchy -/

/-- The GFXR nodes, and the PM4 nodes of the view. -/
def IsTreeNode (pm4 : EventTreeCreator) (gfxr : State) (n : ℕ) : Prop :=
  (pm4.nodes.length ≤ n ∧ n < gfxr.nodes.length) ∨ pm4.InView n

/-- **The nodes form a tree below the root.** -/
structure IsTree (pm4 : EventTreeCreator) (gfxr : State) (t : Topology) : Prop where
  /-- A node has one parent, below which it is once. -/
  parent : ∀ n, IsTreeNode pm4 gfxr n → ∃ p, t.getParentNodeIndex n = some p ∧
    ∀ q, (t.children q).count n = if q = p then 1 else 0
  reachable : ∀ n, IsTreeNode pm4 gfxr n →
    ReflTransGen (Forest.ChildOf t.children) n Topology.kRootNodeIndex
  acyclic : ∀ n, ¬ TransGen (Forest.ChildOf t.children) n n

namespace Merges

theorem attached (h : Merges pm4 k s gfxr) {pending : List ℕ}
    (hpm4 : Planted pm4.nodeChildren pending) (hview : ∀ i ∈ pending, ¬ pm4.InView i)
    (hn : IsTreeNode pm4 gfxr n) : 0 < n ∧ n < (mixedLists pm4 gfxr).length ∧ n ∉ pending := by
  have hlength := h.length_mixedLists
  have hnodes := h.shifted.filled.length_nodes
  have hfront := h.shifted.length_front
  rcases hn with ⟨hle, hlt⟩ | hin
  · refine ⟨by omega, by omega, fun hmem => ?_⟩
    have hbounds := hpm4.perm.mem_iff.mp (List.mem_append_right _ hmem)
    rw [List.mem_range'_1, ← h.events.length_nodes] at hbounds
    omega
  · refine ⟨?_, ?_, fun hmem => hview n hmem hin⟩
    · rcases Nat.eq_zero_or_pos n with rfl | hpos
      · exact absurd hin h.events.root
      · exact hpos
    · obtain ⟨node, hnode, -⟩ := hin
      have hlt := (List.getElem?_eq_some_iff.mp hnode).1
      omega

theorem above (h : Merges pm4 k s gfxr) (hn : IsTreeNode pm4 gfxr n) {p : ℕ}
    (hp : n ∈ childrenIn (mixedLists pm4 gfxr) p) : p = 0 ∨ IsTreeNode pm4 gfxr p := by
  have hlength := h.length_gfxr
  have hnodes := h.shifted.filled.length_nodes
  have hfront := h.shifted.length_front
  rcases h.mem_childrenIn hp with ⟨rfl, -⟩ | ⟨-, hmem⟩ | ⟨hmem, -⟩
  · exact .inl rfl
  · obtain ⟨pending, hpm4, -⟩ := h.events.planted
    have hbounds := (hpm4.child_bounds hmem).2
    rw [← h.events.length_nodes] at hbounds
    rcases hn with ⟨hle, -⟩ | hin
    · omega
    · exact (h.events.above p n hmem hin).imp_right .inr
  · obtain ⟨i, hi, hlt, rfl⟩ := h.mem_gfxrNodes.mp hmem
    exact .inr (.inl ⟨by omega, by omega⟩)

theorem isTree (h : Merges pm4 k s gfxr) {t : Topology}
    (hholds : t.Holds (mixedLists pm4 gfxr).length (additions pm4 gfxr))
    (hforest : FormsForest (mixedLists pm4 gfxr).length (additions pm4 gfxr))
    (hchildren : t.children = childrenIn (mixedLists pm4 gfxr)) : IsTree pm4 gfxr t := by
  obtain ⟨pending, hpm4, hview⟩ := h.events.planted
  have hplanted := h.planted_mixedLists hpm4
  have hadditions := (childrenOf_of_planted hplanted h.additions_perm).2
  refine ⟨?_, ?_, ?_⟩
  · intro n hn
    obtain ⟨hpos, hlt, hpending⟩ := h.attached hpm4 hview hn
    obtain ⟨p, hp⟩ := hplanted.exists_parent hpos hlt hpending
    refine ⟨p, ?_, fun q => ?_⟩
    · rw [← hadditions] at hp
      obtain ⟨i, hi⟩ := List.mem_iff_getElem?.mp hp
      exact (hholds.place hforest hi).1
    · rw [hchildren]
      split_ifs with hq
      · rw [hq]
        exact List.count_eq_one_of_mem (hplanted.nodup_childrenIn p) hp
      · exact List.count_eq_zero_of_not_mem fun hmem => hq (hplanted.unique hmem hp)
  · intro n
    rw [hchildren]
    induction n using Nat.strong_induction_on with
    | h n ih =>
      intro hn
      obtain ⟨hpos, hlt, hpending⟩ := h.attached hpm4 hview hn
      obtain ⟨p, hp⟩ := hplanted.exists_parent hpos hlt hpending
      rcases h.above hn hp with rfl | htree
      · exact .single hp
      · exact .head hp (ih p (hplanted.lt p n hp) htree)
  · intro n
    rw [hchildren]
    exact hplanted.acyclic n

theorem sameTree (h : Merges pm4 k s gfxr) (hn : 2 ≤ n) (hlt : n < s.nodes.length) :
    Forest.SameTree (s.nodes[·]?) (childrenIn s.nodeChildren) (gfxr.nodes[·]?)
      (childrenIn (mixedLists pm4 gfxr)) n (n + k) := by
  have hplanted := h.sound.grown.planted
  refine ⟨(· + k), fun i j hij => Nat.add_right_cancel hij, rfl, fun i hi => ?_⟩
  have hle := hplanted.le_of_below hi
  have hilt : i < s.nodes.length := by
    rcases ReflTransGen.cases_head hi with rfl | ⟨p, hp, -⟩
    · exact hlt
    · rw [h.sound.grown.length_nodes]
      exact (hplanted.child_bounds hp).2
  have hfront := h.shifted.length_front
  constructor
  · change gfxr.nodes[i + k]? = s.nodes[i]?
    rw [h.shifted.nodes, List.getElem?_append_right (by omega), List.getElem?_tail]
    congr 1
    omega
  · have hmem : i + k ∈ gfxrNodes pm4 gfxr := h.mem_gfxrNodes.mpr ⟨i, by omega, hilt, rfl⟩
    -- no child of `i` is moved to the root
    have hall : ∀ c ∈ gfxr.childrenAt (i + k), isTop gfxr c = false := by
      intro c hc
      rw [h.shifted.children i (by omega) hilt, List.mem_map] at hc
      obtain ⟨j, hj, rfl⟩ := hc
      have hj' := hj
      rw [State.childrenAt_of_alone h.sound.grown.alone] at hj'
      have hbounds := hplanted.child_bounds hj'
      rw [isTop, h.shifted.getNodeType (by omega), Bool.or_eq_false_iff, decide_eq_false_iff_not,
        decide_eq_false_iff_not]
      constructor
      · intro hsubmit
        have hroot := h.tops.submit j hsubmit
        rw [State.childrenAt_of_alone h.sound.grown.alone] at hroot
        have hzero := hplanted.unique hroot hj'
        omega
      · intro hframe
        have hone := (h.tops.frame j).mp hframe
        omega
    have hlist : childrenIn (mixedLists pm4 gfxr) (i + k) = gfxr.childrenAt (i + k) := by
      rw [h.childrenIn_gfxr hmem, h.filteredChildren_eq hmem]
      exact List.filter_eq_self.mpr fun c hc => by simp [hall c hc]
    rw [hlist, h.shifted.children i (by omega) hilt, State.childrenAt_of_alone h.sound.grown.alone]

end Merges

theorem children_alone (hs : s.Sound) :
    (GfxrVulkanCommandHierarchyCreator.createTopologies s).children =
      childrenIn s.nodeChildren := by
  obtain ⟨hforest, hchildren⟩ := childrenOf_of_planted hs.grown.planted (.refl _)
  have hadditions : (s.nodeChildren.zipIdx.map fun (children, nodeIndex) =>
      TopologyCall.addChildren nodeIndex children).filterMap TopologyCall.addition =
        s.nodeChildren.zipIdx.map Prod.swap := by
    rw [List.filterMap_map]
    exact congrFun List.filterMap_eq_map _
  have hholds := run_holds (hadditions ▸ hforest)
  rw [hadditions] at hholds
  exact (hholds.children_eq hforest).trans hchildren

section Mixed

variable {info : Pm4Info} {texts : CaptureTexts} {memManager : IMemoryManager}
  {submits : List Pm4CaptureData.SubmitInfo} {calls : List Call} {d : GfxrCaptureData}

/-- **The mixed hierarchy of a PM4 and a GFXR capture is a tree**, in which each GFXR submit has the
subtree that it has in the hierarchy of the GFXR capture alone. -/
theorem isTree_mixed
    (hpm4 : (EventTreeCreator.callbacks info texts).ProcessSubmits memManager 0 submits
      EventTreeCreator.root calls pm4)
    (hgfxr : (mixed pm4.nodes).processGfxrSubmits d = some gfxr) (sharedChildren : ℕ → List ℕ) :
    ∃ t, createTopologies pm4 sharedChildren gfxr = some t ∧ IsTree pm4 gfxr t.toTopology ∧
      ∃ s t', createTrees d = some (s, t') ∧
        List.Forall₂ (fun span span' => Forest.SameTree (s.nodes[·]?) t'.children (gfxr.nodes[·]?)
            t.children span.1 span'.1)
          (submitSpans d alone.addFrame d.gfxrSubmits.zipIdx)
          (submitSpans d (mixed pm4.nodes).addFrame d.gfxrSubmits.zipIdx) := by
  have hevents := EventTreeCreator.sound_processSubmits hpm4
  obtain ⟨k, hk⟩ := Nat.exists_eq_add_of_le' (Nat.zero_lt_of_lt hevents.submit)
  have hrel := shifted_processGfxrSubmits (d := d) hk
  rw [hgfxr] at hrel
  cases hs : alone.processGfxrSubmits d with
  | none =>
    rw [hs] at hrel
    cases hrel
  | some s =>
    rw [hs] at hrel
    have hmerges : Merges pm4 k s gfxr := by
      cases hrel with
      | some hrel => exact ⟨hevents, hrel.1, hrel.2, State.tops_alone hs⟩
    obtain ⟨t, ht, hholds, hforest, hchildren⟩ := hmerges.exists_topology sharedChildren
    refine ⟨t, ht, hmerges.isTree hholds hforest hchildren, s, _, by rw [createTrees, hs]; rfl, ?_⟩
    have hspans : submitSpans d (mixed pm4.nodes).addFrame d.gfxrSubmits.zipIdx = _ :=
      (shifted_addFrame hk).submitSpans_eq State.sound_alone
    rw [hspans, List.forall₂_map_right_iff, children_alone hmerges.sound, hchildren]
    rw [State.processGfxrSubmits, ← Monitor.run_eq_foldlM] at hs
    apply List.forall₂_same.mpr
    intro span hspan
    have hbounds := submitSpans_bounds hs hspan
    exact hmerges.sameTree hbounds.1 hbounds.2

end Mixed

/-- The texts are empty, and nothing is shown below a packet. -/
def noTexts : CaptureTexts where
  submit := fun _ => ""
  presents := fun _ => [""]
  ib := fun _ _ _ => ""
  packet := fun _ => ""
  packetItems := fun _ => []
  loadedItems := fun _ _ => []
  event := fun _ _ => ""

theorem isSome_drawn : (Monitor.run ((EventTreeCreator.callbacks noInfo noTexts).next drawnMemory)
    EventTreeCreator.root drawnCalls).isSome = true := by rfl

theorem isSome_mixed (front : List CommandHierarchyNode) (calls : List DiveFunctionData) :
    ((mixed front).processGfxrSubmits (submitAfter calls)).isSome = true := by rfl

/-- A submit with a wait and a draw, and a GFXR submit after a queue-level command. -/
theorem isTree_mixed_drawn : ∃ pm4 gfxr t,
    (mixed pm4.nodes).processGfxrSubmits (submitAfter [idleCall]) = some gfxr ∧
      createTopologies pm4 (fun _ => []) gfxr = some t ∧ IsTree pm4 gfxr t.toTopology := by
  obtain ⟨pm4, hpm4⟩ := Option.isSome_iff_exists.mp isSome_drawn
  obtain ⟨gfxr, hgfxr⟩ := Option.isSome_iff_exists.mp (isSome_mixed pm4.nodes [idleCall])
  have hrun : (EventTreeCreator.callbacks noInfo noTexts).ProcessSubmits drawnMemory 0
      [drawnSubmit] EventTreeCreator.root (drawnCalls ++ []) pm4 := by
    refine .cons ⟨drawnTrace, rfl, ?_⟩ hpm4 (.nil 1 pm4)
    rw [(EventTreeCreator.alwaysGoesOn noInfo noTexts drawnMemory).emulation_eq]
    exact drawn_succeeds
  obtain ⟨t, ht, htree, -⟩ := isTree_mixed hrun hgfxr fun _ => []
  exact ⟨pm4, gfxr, t, hgfxr, ht, htree⟩

end DiveCommandHierarchyCreator

end Dive
