import Dive.Lib.Preorder
import Mathlib.Data.List.Nodup
import Mathlib.Data.Finite.Prod
import Mathlib.Order.WellFoundedSet

/-!
# The topology of the hierarchy

* `Topology`, `SharedNodeTopology`: the children of all nodes in one list, with the extent of each
  node, the parents and the child indices.
* `TopologyCall`, `run`, `createTopology`: the calls that fill a topology.
* `FormsForest`: the children added form a forest over the nodes.
* `Holds`: what a filled topology reads back; `run_holds`.
* **`run_consistent`**: places, children and the walk over the topology.
-/

namespace Dive

open Relation (ReflTransGen TransGen)

/-- `UINT64_MAX`. -/
def kInvalidNodeIndex : ℕ := 2 ^ 64 - 1

/-- `Topology::ChildrenInfo`. -/
structure ChildrenInfo where
  startIndex : ℕ := kInvalidNodeIndex
  numChildren : ℕ := 0
  deriving DecidableEq, Repr

/-- `Topology`. -/
structure Topology where
  childrenList : List ℕ := []
  nodeChildren : List ChildrenInfo := []
  nodeParent : List ℕ := []
  nodeChildIndex : List ℕ := []

namespace Topology

def kRootNodeIndex : ℕ := 0

variable (t : Topology)

/- A read outside of a vector is `none`. -/

def getParentNodeIndex (nodeIndex : ℕ) : Option ℕ := t.nodeParent[nodeIndex]?

def getChildIndex (nodeIndex : ℕ) : Option ℕ := t.nodeChildIndex[nodeIndex]?

def getNumChildren (nodeIndex : ℕ) : Option ℕ :=
  (t.nodeChildren[nodeIndex]?).map ChildrenInfo.numChildren

def getChildNodeIndex (nodeIndex childIndex : ℕ) : Option ℕ := do
  let info ← t.nodeChildren[nodeIndex]?
  t.childrenList[info.startIndex + childIndex]?

/-- The loop of `GetNextNodeIndex`, which goes round `fuel` times at most. -/
def climb : ℕ → ℕ → Option ℕ
  | 0, _ => none
  | fuel + 1, nodeIndex =>
    if nodeIndex = kRootNodeIndex then some kInvalidNodeIndex
    else do
      let parentNodeIndex ← t.getParentNodeIndex nodeIndex
      let siblingIndex := (← t.getChildIndex nodeIndex) + 1
      let numSiblings ← t.getNumChildren parentNodeIndex
      if siblingIndex < numSiblings then t.getChildNodeIndex parentNodeIndex siblingIndex
      else climb fuel parentNodeIndex

/-- `GetNextNodeIndex`. -/
def getNextNodeIndex (fuel nodeIndex : ℕ) : Option ℕ := do
  let numChildren ← t.getNumChildren nodeIndex
  if 0 < numChildren then t.getChildNodeIndex nodeIndex 0
  else t.climb fuel nodeIndex

/-- `GetNextNodeIndex` returns `r`. -/
def Reports (nodeIndex r : ℕ) : Prop :=
  ∃ fuel, ∀ more, t.getNextNodeIndex (fuel + more) nodeIndex = some r

/-- `SetNumNodes`. -/
def setNumNodes (numNodes : ℕ) : Topology :=
  { t with
    nodeChildren := (t.nodeChildren.take numNodes).rightpad numNodes {}
    nodeParent := (t.nodeParent.take numNodes).rightpad numNodes kInvalidNodeIndex
    nodeChildIndex := (t.nodeChildIndex.take numNodes).rightpad numNodes kInvalidNodeIndex }

/-- The loop of `AddChildren` over the children, the first of which has index `i`. -/
def setParents (t : Topology) (nodeIndex : ℕ) : ℕ → List ℕ → Topology
  | _, [] => t
  | i, childNodeIndex :: children =>
    setParents
      { t with
        nodeParent := t.nodeParent.set childNodeIndex nodeIndex
        nodeChildIndex := t.nodeChildIndex.set childNodeIndex i }
      nodeIndex (i + 1) children

/-- `AddChildren`. -/
def addChildren (nodeIndex : ℕ) (children : List ℕ) : Topology :=
  setParents
    { t with
      childrenList := t.childrenList ++ children
      nodeChildren := t.nodeChildren.set nodeIndex ⟨t.childrenList.length, children.length⟩ }
    nodeIndex 0 children

end Topology

/-- `SharedNodeTopology`. -/
structure SharedNodeTopology extends Topology where
  sharedChildrenIndices : List ℕ := []
  nodeSharedChildren : List ChildrenInfo := []

/-- The calls that fill a topology. -/
inductive TopologyCall
  | addChildren (nodeIndex : ℕ) (children : List ℕ)
  | addSharedChildren (nodeIndex : ℕ) (children : List ℕ)

namespace SharedNodeTopology

variable (t : SharedNodeTopology)

/-- `SetNumNodes`. -/
def setNumNodes (numNodes : ℕ) : SharedNodeTopology :=
  { t with
    toTopology := t.toTopology.setNumNodes numNodes
    nodeSharedChildren := (t.nodeSharedChildren.take numNodes).rightpad numNodes {} }

/-- `AddSharedChildren`. -/
def addSharedChildren (nodeIndex : ℕ) (children : List ℕ) : SharedNodeTopology :=
  { t with
    sharedChildrenIndices := t.sharedChildrenIndices ++ children
    nodeSharedChildren :=
      t.nodeSharedChildren.set nodeIndex ⟨t.sharedChildrenIndices.length, children.length⟩ }

def call : TopologyCall → SharedNodeTopology
  | .addChildren nodeIndex children =>
    { t with toTopology := t.toTopology.addChildren nodeIndex children }
  | .addSharedChildren nodeIndex children => t.addSharedChildren nodeIndex children

/-- A topology of `numNodes` nodes after the calls. -/
def run (numNodes : ℕ) (calls : List TopologyCall) : SharedNodeTopology :=
  calls.foldl call (setNumNodes {} numNodes)

end SharedNodeTopology

/-- `CreateTopologies`, for one topology: the children and the shared children of every node. -/
def createTopology (nodeChildren : List (List ℕ × List ℕ)) : SharedNodeTopology :=
  SharedNodeTopology.run nodeChildren.length <| nodeChildren.zipIdx.flatMap fun (children, n) =>
    [.addChildren n children.1, .addSharedChildren n children.2]

/-! ## What is added -/

/-- The node and the children of an `AddChildren`. -/
def TopologyCall.addition : TopologyCall → Option (ℕ × List ℕ)
  | .addChildren nodeIndex children => some (nodeIndex, children)
  | .addSharedChildren .. => none

/-- The children added below a node. -/
def childrenOf (additions : List (ℕ × List ℕ)) (n : ℕ) : List ℕ :=
  additions.flatMap fun a => if a.1 = n then a.2 else []

/-- **The children added form a forest over the nodes**, with one list for each parent. -/
structure FormsForest (numNodes : ℕ) (additions : List (ℕ × List ℕ)) : Prop where
  once : (additions.map Prod.fst).Nodup
  parent_lt : ∀ a ∈ additions, a.1 < numNodes
  single : (additions.flatMap Prod.snd).Nodup
  child_lt : ∀ a ∈ additions, ∀ c ∈ a.2, c < numNodes
  acyclic : ∀ n, ¬TransGen (Forest.ChildOf (childrenOf additions)) n n

namespace Topology

variable {t : Topology} {numNodes : ℕ} {additions : List (ℕ × List ℕ)}

/-! ## The loop over the children -/

@[simp] theorem childrenList_setParents (p i : ℕ) (cs : List ℕ) :
    (t.setParents p i cs).childrenList = t.childrenList := by
  induction cs generalizing t i with
  | nil => rfl
  | cons c cs ih => simp [setParents, ih]

@[simp] theorem nodeChildren_setParents (p i : ℕ) (cs : List ℕ) :
    (t.setParents p i cs).nodeChildren = t.nodeChildren := by
  induction cs generalizing t i with
  | nil => rfl
  | cons c cs ih => simp [setParents, ih]

@[simp] theorem length_nodeParent_setParents (p i : ℕ) (cs : List ℕ) :
    (t.setParents p i cs).nodeParent.length = t.nodeParent.length := by
  induction cs generalizing t i with
  | nil => rfl
  | cons c cs ih => simp [setParents, ih]

@[simp] theorem length_nodeChildIndex_setParents (p i : ℕ) (cs : List ℕ) :
    (t.setParents p i cs).nodeChildIndex.length = t.nodeChildIndex.length := by
  induction cs generalizing t i with
  | nil => rfl
  | cons c cs ih => simp [setParents, ih]

theorem setParents_other {cs : List ℕ} {n : ℕ} (hn : n ∉ cs) (p i : ℕ) :
    (t.setParents p i cs).getParentNodeIndex n = t.getParentNodeIndex n ∧
      (t.setParents p i cs).getChildIndex n = t.getChildIndex n := by
  induction cs generalizing t i with
  | nil => exact ⟨rfl, rfl⟩
  | cons c cs ih =>
    have hc : c ≠ n := by
      rintro rfl
      simp at hn
    rw [setParents]
    refine ⟨(ih (by simp_all) _).1.trans ?_, (ih (by simp_all) _).2.trans ?_⟩
    · simp [getParentNodeIndex, List.getElem?_set_ne hc]
    · simp [getChildIndex, List.getElem?_set_ne hc]

theorem setParents_child {cs : List ℕ} (hnd : cs.Nodup)
    (hlt : ∀ c ∈ cs, c < t.nodeParent.length ∧ c < t.nodeChildIndex.length) {j n : ℕ}
    (hn : cs[j]? = some n) (p i : ℕ) :
    (t.setParents p i cs).getParentNodeIndex n = some p ∧
      (t.setParents p i cs).getChildIndex n = some (i + j) := by
  induction cs generalizing t i j with
  | nil => simp at hn
  | cons c cs ih =>
    rw [List.nodup_cons] at hnd
    rw [setParents]
    cases j with
    | zero =>
      obtain rfl : c = n := by simpa using hn
      have hc := hlt c (by simp)
      rw [(setParents_other hnd.1 p _).1, (setParents_other hnd.1 p _).2]
      simp [getParentNodeIndex, getChildIndex, hc.1, hc.2]
    | succ j =>
      have hcs : ∀ d ∈ cs, d < t.nodeParent.length ∧ d < t.nodeChildIndex.length :=
        fun d hd => hlt d (by simp [hd])
      have hrest := ih
        (t := { t with
          nodeParent := t.nodeParent.set c p
          nodeChildIndex := t.nodeChildIndex.set c i })
        hnd.2 (by simpa using hcs) (by simpa using hn) (i + 1)
      rw [hrest.1, hrest.2]
      refine ⟨rfl, ?_⟩
      congr 1
      omega

/-! ## What a topology holds -/

/-- What a topology reads back when the children were added. -/
structure Holds (t : Topology) (numNodes : ℕ) (additions : List (ℕ × List ℕ)) : Prop where
  length_parent : t.nodeParent.length = numNodes
  length_index : t.nodeChildIndex.length = numNodes
  length_children : t.nodeChildren.length = numNodes
  /-- Every list is in its extent. -/
  stored : ∀ a ∈ additions, t.getNumChildren a.1 = some a.2.length ∧
    ∀ i < a.2.length, t.getChildNodeIndex a.1 i = a.2[i]?
  /-- The other nodes have no children. -/
  leaf : ∀ n < numNodes, n ∉ additions.map Prod.fst → t.getNumChildren n = some 0
  /-- Every child has its place. -/
  placed : ∀ a ∈ additions, ∀ (i : ℕ) c, a.2[i]? = some c →
    t.getParentNodeIndex c = some a.1 ∧ t.getChildIndex c = some i

theorem holds_setNumNodes (numNodes : ℕ) : (setNumNodes {} numNodes).Holds numNodes [] where
  length_parent := by simp [setNumNodes, List.rightpad]
  length_index := by simp [setNumNodes, List.rightpad]
  length_children := by simp [setNumNodes, List.rightpad]
  stored := by simp
  leaf := by
    intro n hn _
    simp [getNumChildren, setNumNodes, List.rightpad, hn]
  placed := by simp

theorem getNumChildren_addChildren_ne {p n : ℕ} (h : p ≠ n) (cs : List ℕ) :
    (t.addChildren p cs).getNumChildren n = t.getNumChildren n := by
  simp [addChildren, getNumChildren, List.getElem?_set_ne h]

theorem getNumChildren_addChildren {p : ℕ} (h : p < t.nodeChildren.length) (cs : List ℕ) :
    (t.addChildren p cs).getNumChildren p = some cs.length := by
  simp [addChildren, getNumChildren, h]

theorem getChildNodeIndex_addChildren_ne {p n i c : ℕ} (h : p ≠ n) (cs : List ℕ)
    (hc : t.getChildNodeIndex n i = some c) :
    (t.addChildren p cs).getChildNodeIndex n i = some c := by
  simp only [getChildNodeIndex, Option.bind_eq_bind, Option.bind_eq_some_iff] at hc
  obtain ⟨info, hinfo, hc⟩ := hc
  simp [addChildren, getChildNodeIndex, List.getElem?_set_ne h, hinfo,
    List.getElem?_append_left (List.getElem?_eq_some_iff.mp hc).1, hc]

theorem getChildNodeIndex_addChildren {p : ℕ} (h : p < t.nodeChildren.length) (cs : List ℕ)
    (i : ℕ) : (t.addChildren p cs).getChildNodeIndex p i = cs[i]? := by
  simp [addChildren, getChildNodeIndex, h, List.getElem?_append_right]

theorem Holds.addChildren (h : t.Holds numNodes additions) {p : ℕ} {cs : List ℕ}
    (hF : FormsForest numNodes (additions ++ [(p, cs)])) :
    (t.addChildren p cs).Holds numNodes (additions ++ [(p, cs)]) := by
  have hp : p < t.nodeChildren.length := h.length_children ▸ hF.parent_lt (p, cs) (by simp)
  have hcs : ∀ c ∈ cs, c < numNodes := fun c hc => hF.child_lt (p, cs) (by simp) c hc
  have honce := hF.once
  have hsingle := hF.single
  simp only [List.map_append, List.map_cons, List.map_nil, List.nodup_append,
    List.mem_singleton] at honce
  simp only [List.flatMap_append, List.flatMap_cons, List.flatMap_nil, List.append_nil,
    List.nodup_append] at hsingle
  have hne : ∀ a ∈ additions, p ≠ a.1 := fun a ha =>
    (honce.2.2 a.1 (List.mem_map_of_mem ha) p rfl).symm
  constructor
  · simpa [Topology.addChildren] using h.length_parent
  · simpa [Topology.addChildren] using h.length_index
  · simpa [Topology.addChildren] using h.length_children
  · intro a ha
    rcases List.mem_append.mp ha with ha | ha
    · rw [getNumChildren_addChildren_ne (hne a ha)]
      refine ⟨(h.stored a ha).1, fun i hi => ?_⟩
      have hold := (h.stored a ha).2 i hi
      rw [List.getElem?_eq_getElem hi] at hold ⊢
      exact getChildNodeIndex_addChildren_ne (hne a ha) cs hold
    · obtain rfl := List.mem_singleton.mp ha
      exact ⟨getNumChildren_addChildren hp cs,
        fun i _ => getChildNodeIndex_addChildren hp cs i⟩
  · intro n hn hnot
    simp only [List.map_append, List.map_cons, List.map_nil, List.mem_append, List.mem_singleton,
      not_or] at hnot
    rw [getNumChildren_addChildren_ne (Ne.symm hnot.2)]
    exact h.leaf n hn hnot.1
  · intro a ha i c hc
    rcases List.mem_append.mp ha with ha | ha
    · have hold : c ∉ cs := fun hmem => hsingle.2.2 c
        (List.mem_flatMap.mpr ⟨a, ha, List.mem_of_getElem? hc⟩) c hmem rfl
      rw [Topology.addChildren, (setParents_other hold p 0).1, (setParents_other hold p 0).2]
      exact h.placed a ha i c hc
    · obtain rfl := List.mem_singleton.mp ha
      rw [Topology.addChildren]
      simpa using setParents_child hsingle.2.1
        (by simpa [h.length_parent, h.length_index] using hcs) hc p 0

end Topology

/-! ## The forest that is added -/

section Forest

variable {numNodes : ℕ} {additions : List (ℕ × List ℕ)}

theorem mem_childrenOf {p c : ℕ} :
    c ∈ childrenOf additions p ↔ ∃ a ∈ additions, a.1 = p ∧ c ∈ a.2 := by
  simp only [childrenOf, List.mem_flatMap]
  refine exists_congr fun a => and_congr_right fun _ => ?_
  split_ifs with h <;> simp [h]

theorem childrenOf_of_not_mem {p : ℕ} (h : p ∉ additions.map Prod.fst) :
    childrenOf additions p = [] := by
  rw [List.eq_nil_iff_forall_not_mem]
  intro c hc
  obtain ⟨a, ha, rfl, -⟩ := mem_childrenOf.mp hc
  exact h (List.mem_map_of_mem ha)

theorem childrenOf_of_mem (honce : (additions.map Prod.fst).Nodup) {a : ℕ × List ℕ}
    (ha : a ∈ additions) : childrenOf additions a.1 = a.2 := by
  induction additions with
  | nil => simp at ha
  | cons b additions ih =>
    rw [List.map_cons, List.nodup_cons] at honce
    rw [childrenOf, List.flatMap_cons, ← childrenOf]
    rcases List.mem_cons.mp ha with rfl | ha
    · rw [childrenOf_of_not_mem honce.1]
      simp
    · have hne : b.1 ≠ a.1 := fun h => honce.1 (h ▸ List.mem_map_of_mem ha)
      rw [if_neg hne, List.nil_append, ih honce.2 ha]

namespace FormsForest

theorem of_append {a : ℕ × List ℕ} (h : FormsForest numNodes (additions ++ [a])) :
    FormsForest numNodes additions where
  once := (List.nodup_append.mp (List.map_append ▸ h.once)).1
  parent_lt := fun b hb => h.parent_lt b (by simp [hb])
  single := (List.nodup_append.mp (List.flatMap_append ▸ h.single)).1
  child_lt := fun b hb => h.child_lt b (by simp [hb])
  acyclic := by
    intro n hn
    refine h.acyclic n (TransGen.mono (fun c p hc => ?_) n n hn)
    obtain ⟨b, hb, hbp⟩ := mem_childrenOf.mp hc
    exact mem_childrenOf.mpr ⟨b, by simp [hb], hbp⟩

variable (h : FormsForest numNodes additions)
include h

theorem exists_of_child {p i c : ℕ} (hc : (childrenOf additions p)[i]? = some c) :
    ∃ a ∈ additions, a.1 = p ∧ a.2[i]? = some c := by
  obtain ⟨a, ha, rfl, -⟩ := mem_childrenOf.mp (List.mem_of_getElem? hc)
  exact ⟨a, ha, rfl, childrenOf_of_mem h.once ha ▸ hc⟩

theorem lt_of_childOf {c p : ℕ} (hc : Forest.ChildOf (childrenOf additions) c p) :
    c < numNodes ∧ p < numNodes := by
  obtain ⟨a, ha, rfl, hac⟩ := mem_childrenOf.mp hc
  exact ⟨h.child_lt a ha c hac, h.parent_lt a ha⟩

theorem wellFounded : WellFounded (Forest.ChildOf (childrenOf additions)) := by
  have : IsStrictOrder ℕ (TransGen (Forest.ChildOf (childrenOf additions))) :=
    { irrefl := h.acyclic, trans := fun _ _ _ => TransGen.trans }
  have hwf := (Set.finite_Iio numNodes).wellFoundedOn
    (r := TransGen (Forest.ChildOf (childrenOf additions)))
  rw [Set.wellFoundedOn_iff] at hwf
  refine Subrelation.wf ?_ hwf
  intro c p hc
  exact ⟨.single hc, h.lt_of_childOf hc⟩

theorem isForest : Forest.IsForest (childrenOf additions) where
  place := by
    intro p q i j c hp hq
    obtain ⟨a, ha, rfl, hac⟩ := h.exists_of_child hp
    obtain ⟨b, hb, rfl, hbc⟩ := h.exists_of_child hq
    have hsingle := List.nodup_flatMap.mp h.single
    obtain rfl : a = b := by
      by_contra hne
      have : Std.Symm (Function.onFun List.Disjoint (Prod.snd : ℕ × List ℕ → List ℕ)) :=
        ⟨fun _ _ hd => List.Disjoint.symm hd⟩
      have hdisj := hsingle.2.forall ha hb hne
      exact hdisj (List.mem_of_getElem? hac) (List.mem_of_getElem? hbc)
    have hi := (List.getElem?_eq_some_iff.mp hac).1
    exact ⟨rfl, List.getElem?_inj hi (hsingle.1 a ha) |>.mp (hac.trans hbc.symm)⟩
  wf := h.wellFounded

end FormsForest

end Forest

/-- **A run of calls holds what it adds.** -/
theorem run_holds {numNodes : ℕ} {calls : List TopologyCall}
    (hF : FormsForest numNodes (calls.filterMap TopologyCall.addition)) :
    (SharedNodeTopology.run numNodes calls).Holds numNodes
      (calls.filterMap TopologyCall.addition) := by
  induction calls using List.reverseRecOn with
  | nil => exact Topology.holds_setNumNodes numNodes
  | append_singleton calls call ih =>
    rw [SharedNodeTopology.run, List.foldl_append, ← SharedNodeTopology.run]
    rw [List.filterMap_append] at hF ⊢
    cases call with
    | addChildren p cs => exact (ih hF.of_append).addChildren hF
    | addSharedChildren p cs =>
      rw [show [TopologyCall.addSharedChildren p cs].filterMap TopologyCall.addition = [] from rfl,
        List.append_nil] at hF ⊢
      exact ih hF

/-! ## The walk over the topology -/

namespace Topology

variable {t : Topology} {numNodes : ℕ} {additions : List (ℕ × List ℕ)}

theorem Holds.numChildren (h : t.Holds numNodes additions) (hF : FormsForest numNodes additions)
    {n : ℕ} (hn : n < numNodes) :
    t.getNumChildren n = some (childrenOf additions n).length := by
  by_cases hmem : n ∈ additions.map Prod.fst
  · obtain ⟨a, ha, rfl⟩ := List.mem_map.mp hmem
    rw [childrenOf_of_mem hF.once ha, (h.stored a ha).1]
  · rw [childrenOf_of_not_mem hmem, h.leaf n hn hmem, List.length_nil]

theorem Holds.child (h : t.Holds numNodes additions) (hF : FormsForest numNodes additions)
    {p i c : ℕ} (hc : (childrenOf additions p)[i]? = some c) :
    t.getChildNodeIndex p i = some c := by
  obtain ⟨a, ha, rfl, hac⟩ := hF.exists_of_child hc
  rw [(h.stored a ha).2 i (List.getElem?_eq_some_iff.mp hac).1, hac]

theorem Holds.place (h : t.Holds numNodes additions) (hF : FormsForest numNodes additions)
    {p i c : ℕ} (hc : (childrenOf additions p)[i]? = some c) :
    t.getParentNodeIndex c = some p ∧ t.getChildIndex c = some i := by
  obtain ⟨a, ha, rfl, hac⟩ := hF.exists_of_child hc
  exact h.placed a ha i c hac

theorem Holds.climb (h : t.Holds numNodes additions) (hF : FormsForest numNodes additions)
    {n : ℕ} {r : Option ℕ}
    (hn : Forest.Climbs (childrenOf additions) kRootNodeIndex n r) :
    ∃ fuel, ∀ more, t.climb (fuel + more) n = some (r.getD kInvalidNodeIndex) := by
  have hlen : ∀ {p i c : ℕ}, (childrenOf additions p)[i]? = some c →
      t.getNumChildren p = some (childrenOf additions p).length := fun hc =>
    h.numChildren hF (hF.lt_of_childOf (List.mem_of_getElem? hc)).2
  induction hn with
  | root =>
    refine ⟨1, fun more => ?_⟩
    rw [Nat.add_comm, Topology.climb, if_pos rfl, Option.getD_none]
  | @sibling n p s i ne place next =>
    refine ⟨1, fun more => ?_⟩
    have hi := (List.getElem?_eq_some_iff.mp next).1
    rw [Nat.add_comm, Topology.climb, if_neg ne]
    simp [(h.place hF place).1, (h.place hF place).2, hlen place, hi, h.child hF next]
  | @up n p i r ne place last above ih =>
    obtain ⟨fuel, hfuel⟩ := ih
    refine ⟨fuel + 1, fun more => ?_⟩
    have hi := List.getElem?_eq_none_iff.mp last
    rw [Nat.add_right_comm, Topology.climb, if_neg ne]
    simp [(h.place hF place).1, (h.place hF place).2, hlen place, Nat.not_lt.mpr hi, hfuel]

theorem Holds.reports (h : t.Holds numNodes additions) (hF : FormsForest numNodes additions)
    {n : ℕ} {r : Option ℕ} (hlt : n < numNodes)
    (hn : Forest.Next (childrenOf additions) kRootNodeIndex n r) :
    t.Reports n (r.getD kInvalidNodeIndex) := by
  cases hn with
  | child first =>
    have hlen := (List.getElem?_eq_some_iff.mp first).1
    refine ⟨0, fun more => ?_⟩
    simp [getNextNodeIndex, h.numChildren hF hlt, hlen, h.child hF first]
  | climb leaf after =>
    obtain ⟨fuel, hfuel⟩ := h.climb hF after
    refine ⟨fuel, fun more => ?_⟩
    simp [getNextNodeIndex, h.numChildren hF hlt, leaf, hfuel]

/-- A topology agrees with the forest that was added. -/
structure Consistent (t : Topology) (numNodes : ℕ) (additions : List (ℕ × List ℕ)) : Prop where
  /-- A child is found at its index below its parent. -/
  place : ∀ p c, c ∈ childrenOf additions p → ∃ i, t.getParentNodeIndex c = some p ∧
    t.getChildIndex c = some i ∧ t.getChildNodeIndex p i = some c
  /-- The children of a node are the children added, in their order. -/
  children : ∀ n < numNodes, t.getNumChildren n = some (childrenOf additions n).length ∧
    ∀ i < (childrenOf additions n).length,
      t.getChildNodeIndex n i = (childrenOf additions n)[i]?
  /-- From the root, `GetNextNodeIndex` goes once through the nodes below it, in preorder. -/
  walk : 0 < numNodes → ∃ l, Forest.Preorder (childrenOf additions) [kRootNodeIndex] l ∧
    l.Nodup ∧
    (∀ n, n ∈ l ↔ ReflTransGen (Forest.ChildOf (childrenOf additions)) n kRootNodeIndex) ∧
    kInvalidNodeIndex ∉ l ∧
    Forest.Follows (fun n r => t.Reports n (r.getD kInvalidNodeIndex)) l none

theorem Holds.consistent (h : t.Holds numNodes additions) (hF : FormsForest numNodes additions)
    (hnum : numNodes < 2 ^ 64) : t.Consistent numNodes additions where
  place := by
    intro p c hc
    obtain ⟨i, hi⟩ := List.mem_iff_getElem?.mp hc
    exact ⟨i, (h.place hF hi).1, (h.place hF hi).2, h.child hF hi⟩
  children := by
    intro n hn
    refine ⟨h.numChildren hF hn, fun i hi => ?_⟩
    rw [List.getElem?_eq_getElem hi]
    exact h.child hF (List.getElem?_eq_getElem hi)
  walk := by
    intro hroot
    obtain ⟨l, hl⟩ := Forest.exists_preorder hF.isForest [kRootNodeIndex]
    have hmem : ∀ n, n ∈ l ↔
        ReflTransGen (Forest.ChildOf (childrenOf additions)) n kRootNodeIndex := by
      simpa using hl.mem_iff
    have hlt : ∀ n ∈ l, n < numNodes := by
      intro n hn
      rcases ReflTransGen.cases_head ((hmem n).mp hn) with rfl | ⟨p, hp, -⟩
      · exact hroot
      · exact (hF.lt_of_childOf hp).1
    refine ⟨l, hl, hl.nodup hF.isForest, hmem, ?_, ?_⟩
    · intro hinvalid
      have := hlt _ hinvalid
      rw [kInvalidNodeIndex] at this
      omega
    · exact (Forest.follows_of_preorder hF.isForest hl).mono fun n hn r hr =>
        h.reports hF (hlt n hn) hr

end Topology

/-- **A topology that is filled with a forest is consistent.** -/
theorem run_consistent (numNodes : UInt64) (calls : List TopologyCall)
    (hF : FormsForest numNodes.toNat (calls.filterMap TopologyCall.addition)) :
    (SharedNodeTopology.run numNodes.toNat calls).Consistent numNodes.toNat
      (calls.filterMap TopologyCall.addition) :=
  (run_holds hF).consistent hF numNodes.toNat_lt

/-- Two trees of three and of one nodes, in a topology of five. -/
theorem run_consistent_five :
    (SharedNodeTopology.run (5 : UInt64).toNat
      [.addChildren 2 [3], .addSharedChildren 0 [4], .addChildren 0 [1, 2]]).Consistent
      (5 : UInt64).toNat [(2, [3]), (0, [1, 2])] := by
  refine run_consistent 5 _ ⟨by decide, by decide, by decide, by decide, fun n hn => ?_⟩
  have hadd : ∀ a ∈ [(2, [3]), (0, [1, 2])], ∀ c ∈ a.2, a.1 < c := by decide
  have hchild : ∀ c p, Forest.ChildOf (childrenOf [(2, [3]), (0, [1, 2])]) c p → p < c := by
    intro c p hc
    obtain ⟨a, ha, rfl, hac⟩ := mem_childrenOf.mp hc
    exact hadd a ha c hac
  have hlt : n < n := by
    refine TransGen.trans_induction_on (motive := fun {c p} _ => p < c) hn (fun {c p} hc => ?_) ?_
    · exact hchild c p hc
    · exact fun _ _ h₁ h₂ => h₂.trans h₁
  exact Nat.lt_irrefl n hlt

theorem additions_createTopology (nodes : List ((List ℕ × List ℕ) × ℕ)) :
    (nodes.flatMap fun (children, n) =>
        [TopologyCall.addChildren n children.1, .addSharedChildren n children.2]).filterMap
      TopologyCall.addition = nodes.map fun (children, n) => (n, children.1) := by
  induction nodes with
  | nil => rfl
  | cons node nodes ih =>
    rw [List.flatMap_cons, List.filterMap_append, ih]
    rfl

/-- **The topologies of the hierarchy are consistent.** -/
theorem createTopology_consistent (nodeChildren : List (List ℕ × List ℕ))
    (hlen : nodeChildren.length < 2 ^ 64)
    (hF : FormsForest nodeChildren.length
      (nodeChildren.zipIdx.map fun (children, n) => (n, children.1))) :
    (createTopology nodeChildren).Consistent nodeChildren.length
      (nodeChildren.zipIdx.map fun (children, n) => (n, children.1)) := by
  rw [← additions_createTopology] at hF ⊢
  exact (run_holds hF).consistent hF hlen

end Dive
