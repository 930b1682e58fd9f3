import Dive.Gfxr.Mixed

/-!
# What the filters show of a PM4 capture

* `DiveFilterModel`: the modes of the filter of the tree, and the rows that it accepts.
* `Shadows`: the creator with the exclude lists is beside the creator of the topology;
  `Shadows.next`, `exists_shadow`: so it is after all submits of any capture.
* `createTopologies`: the topology of all events; `children_createTopologies`.
* `ShowsPass`: the exclude list of a mode does not have a pass.
* **`filtered_events`**: in every mode, a node of the tree is shown exactly with its pass.
-/

namespace Dive

open Planting
open Relation (ReflTransGen)
open Topology (kRootNodeIndex)

/-! ## The filter of the tree -/

namespace DiveFilterModel

/-- `FilterMode`. -/
inductive FilterMode
  | kNone
  | kBinningPassOnly
  | kFirstTilePassOnly
  | kBinningAndFirstTilePass
  deriving DecidableEq

/-- `filter_list_type`. -/
def FilterMode.filterListType : FilterMode → Option FilterListType
  | .kNone => none
  | .kBinningPassOnly => some .kBinningPassOnly
  | .kFirstTilePassOnly => some .kFirstTilePassOnly
  | .kBinningAndFirstTilePass => some .kBinningAndFirstTilePass

section Rows

variable (nodes : List CommandHierarchyNode) (F : FilterCreator) (filterMode : FilterMode)

/-- `IncludeIndex`. -/
def includeIndex (nodeIndex : ℕ) : Bool :=
  match filterMode.filterListType with
  | none => true
  | some filterListType => nodeIndex ∉ F.filterExcludeIndices filterListType

/-- `filterAcceptsRow`, for the row of a node. -/
def acceptsRow (nodeIndex : ℕ) : Bool :=
  if nodes[nodeIndex]?.any (·.type = .kGfxrVulkanSubmitNode) then false
  else if filterMode = .kNone then true
  else includeIndex F filterMode nodeIndex

/-- The row is in the filtered tree: it is accepted, with all rows above it. -/
def ShowsRow (children : ℕ → List ℕ) (nodeIndex : ℕ) : Prop :=
  ReflTransGen (fun c p => Forest.ChildOf children c p ∧ acceptsRow nodes F filterMode c) nodeIndex
    kRootNodeIndex

end Rows

end DiveFilterModel

open DiveFilterModel

/-! ## The two models of the creator -/

namespace FilterNode

/-- The node of the hierarchy that is meant. -/
def Tells (node : CommandHierarchyNode) : FilterNode → Prop
  | .submit => node.type = .kSubmitNode
  | .renderMarker _ marker => node.type = .kRenderMarkerNode ∧
    ∃ desc, marker.desc = some desc ∧ node.desc = .text desc
  | .event _ => node.type = .kEventNode
  | .other => node.type ≠ .kSubmitNode ∧ node.type ≠ .kRenderMarkerNode ∧ node.type ≠ .kEventNode

/-- The node above, in the topology of all events. -/
def above : FilterNode → Option ℕ
  | .submit => some kRootNodeIndex
  | .renderMarker parent _ | .event parent => some parent
  | .other => none

end FilterNode

namespace EventTreeCreator

/-- **The creator with the exclude lists, beside the one of the topology.** -/
structure Shadows (C : EventTreeCreator) (F : FilterCreator) : Prop where
  nodes : List.Forall₂ FilterNode.Tells C.nodes F.nodes
  submit : F.curSubmitNodeIndex = C.curSubmitNodeIndex
  marker : F.renderMarkerIndex = C.renderMarkerIndex
  submit_node : F.curSubmitNodeIndex = 0 ∨ F.nodes[F.curSubmitNodeIndex]? = some .submit
  passes : ∀ (i : ℕ) submit m, F.nodes[i]? = some (.renderMarker submit m) →
    submit = 0 ∨ F.nodes[submit]? = some .submit
  above : ∀ (i : ℕ) f p, F.nodes[i]? = some f → f.above = some p → i ∈ childrenIn C.nodeChildren p

/-- `n` nodes are added that the filters do not tell apart. -/
structure Grows (C D : EventTreeCreator) (n : ℕ) : Prop where
  nodes : ∃ l, D.nodes = C.nodes ++ l ∧ l.length = n ∧ ∀ node ∈ l, FilterNode.other.Tells node
  children : ∀ p, childrenIn C.nodeChildren p ⊆ childrenIn D.nodeChildren p
  submit : D.curSubmitNodeIndex = C.curSubmitNodeIndex
  marker : D.renderMarkerIndex = C.renderMarkerIndex

variable {C D E : EventTreeCreator} {F G : FilterCreator} {info : Pm4Info} {texts : CaptureTexts}
  {type : NodeType} {parent m n : ℕ}

/-- No submit, pass or event. -/
def IsOther (type : NodeType) : Prop :=
  type ≠ .kSubmitNode ∧ type ≠ .kRenderMarkerNode ∧ type ≠ .kEventNode

theorem subset_addChild (C : EventTreeCreator) (parent c p : ℕ) :
    childrenIn C.nodeChildren p ⊆ childrenIn (C.addChild parent c).nodeChildren p := by
  intro i hi
  unfold addChild childrenIn
  rw [List.getElem?_modify]
  unfold childrenIn at hi
  split_ifs with hp
  · cases hlist : C.nodeChildren[p]? with
    | none => simp [hlist] at hi
    | some l =>
      rw [hlist, Option.getD_some] at hi
      simp [hi]
  · simpa using hi

theorem subset_addBelow (desc : String) (p : ℕ) :
    childrenIn C.nodeChildren p ⊆ childrenIn (C.addBelow parent type desc).nodeChildren p := by
  intro i hi
  apply subset_addChild
  rw [addNode, childrenIn_addNode]
  exact hi

theorem mem_addBelow (hs : Sound C) (hparent : parent < C.nodes.length) (desc : String) :
    C.nodes.length ∈ childrenIn (C.addBelow parent type desc).nodeChildren parent := by
  have hlt : parent < (C.nodeChildren ++ [[]]).length := by
    rw [List.length_append, ← hs.length_nodes]
    omega
  change C.nodes.length ∈ childrenIn ((C.nodeChildren ++ [[]]).modify parent
    (· ++ [C.nodes.length])) parent
  rw [childrenIn_addChild hlt, if_pos rfl]
  simp

namespace Grows

theorem of_eq (hnodes : D.nodes = C.nodes) (hchildren : D.nodeChildren = C.nodeChildren)
    (hsubmit : D.curSubmitNodeIndex = C.curSubmitNodeIndex)
    (hmarker : D.renderMarkerIndex = C.renderMarkerIndex) : Grows C D 0 := by
  refine ⟨⟨[], by simp [hnodes], rfl, by simp⟩, fun p => ?_, hsubmit, hmarker⟩
  rw [hchildren]
  exact fun _ hi => hi

theorem trans (h : Grows C D m) (h' : Grows D E n) : Grows C E (m + n) := by
  obtain ⟨l, hl, hlength, htells⟩ := h.nodes
  obtain ⟨l', hl', hlength', htells'⟩ := h'.nodes
  refine ⟨⟨l ++ l', ?_, ?_, ?_⟩, fun p => List.Subset.trans (h.children p)
    (h'.children p), h'.submit.trans h.submit, h'.marker.trans h.marker⟩
  · rw [hl', hl, List.append_assoc]
  · rw [List.length_append, hlength, hlength']
  · intro node hnode
    exact (List.mem_append.mp hnode).elim (htells node) (htells' node)

theorem addNode (htype : IsOther type) (desc : String) : Grows C (C.addNode type desc) 1 := by
  refine ⟨⟨[⟨type, .text desc⟩], rfl, rfl, ?_⟩, fun p => ?_, rfl, rfl⟩
  · intro node hnode
    rw [List.mem_singleton.mp hnode]
    exact htype
  · rw [EventTreeCreator.addNode, childrenIn_addNode]
    exact fun _ hi => hi

theorem addBelow (htype : IsOther type) (parent : ℕ) (desc : String) :
    Grows C (C.addBelow parent type desc) 1 :=
  ⟨(addNode htype desc).nodes, subset_addBelow desc, rfl, rfl⟩

theorem foldl_addBelow (htype : IsOther type) (parent : ℕ) (texts : List String)
    (C : EventTreeCreator) :
    Grows C (texts.foldl (fun D text => D.addBelow parent type text) C) texts.length := by
  induction texts generalizing C with
  | nil => exact of_eq rfl rfl rfl rfl
  | cons text texts ih =>
    rw [List.length_cons, Nat.add_comm]
    exact (addBelow htype parent text).trans (ih _)

theorem addItems (packet : ℕ) (items : List PacketItem) (C : EventTreeCreator) :
    ∃ n, Grows C (C.addItems packet items) n := by
  induction items generalizing C with
  | nil => exact ⟨0, of_eq rfl rfl rfl rfl⟩
  | cons item items ih =>
    have htype : IsOther item.type := by
      rcases item.type_eq with heq | heq <;> rw [heq] <;> simp [IsOther]
    have hitem : Grows C (C.addItem packet item) (1 + item.fields.length) :=
      (addBelow htype packet item.desc).trans
        (foldl_addBelow (by simp [IsOther]) C.nodes.length item.fields _)
    obtain ⟨n, hrest⟩ := ih (C.addItem packet item)
    exact ⟨_, hitem.trans hrest⟩

theorem addPacketNode (p : CapturedPacket) : ∃ n, Grows C (C.addPacketNode texts p) (1 + n) := by
  obtain ⟨n, hitems⟩ := addItems C.nodes.length (texts.packetItems p)
    (C.addNode .kPacketNode (texts.packet p))
  exact ⟨n, (addNode (by simp [IsOther]) _).trans hitems⟩

end Grows

/-! ## One call -/

namespace Shadows

theorem append (h : Shadows C F) {l : List CommandHierarchyNode} {fs : List FilterNode}
    (hD : D.nodes = C.nodes ++ l) (hG : G.nodes = F.nodes ++ fs)
    (htells : List.Forall₂ FilterNode.Tells l fs)
    (hchildren : ∀ p, childrenIn C.nodeChildren p ⊆ childrenIn D.nodeChildren p)
    (hsubmit : G.curSubmitNodeIndex = D.curSubmitNodeIndex)
    (hmarker : G.renderMarkerIndex = D.renderMarkerIndex)
    (hnode : G.curSubmitNodeIndex = 0 ∨ G.nodes[G.curSubmitNodeIndex]? = some .submit)
    (hpasses : ∀ submit m, .renderMarker submit m ∈ fs → submit = F.curSubmitNodeIndex)
    (habove : ∀ (i : ℕ) f p, fs[i]? = some f → f.above = some p →
      C.nodes.length + i ∈ childrenIn D.nodeChildren p) : Shadows D G := by
  have hlength := h.nodes.length_eq
  have hkept : ∀ {i : ℕ} {f}, F.nodes[i]? = some f → G.nodes[i]? = some f := by
    intro i f hi
    rw [hG, List.getElem?_append_left (List.getElem?_eq_some_iff.mp hi).1]
    exact hi
  have hcases : ∀ {i : ℕ} {f}, G.nodes[i]? = some f → F.nodes[i]? = some f ∨
      (F.nodes.length ≤ i ∧ fs[i - F.nodes.length]? = some f) := by
    intro i f hi
    rw [hG] at hi
    rcases Nat.lt_or_ge i F.nodes.length with hlt | hge
    · rw [List.getElem?_append_left hlt] at hi
      exact .inl hi
    · rw [List.getElem?_append_right hge] at hi
      exact .inr ⟨hge, hi⟩
  refine ⟨?_, hsubmit, hmarker, hnode, ?_, ?_⟩
  · rw [hD, hG]
    exact List.rel_append h.nodes htells
  · intro i submit m hi
    rcases hcases hi with hi | ⟨-, hi⟩
    · exact (h.passes i submit m hi).imp_right hkept
    · rw [hpasses submit m (List.mem_of_getElem? hi)]
      exact h.submit_node.imp_right hkept
  · intro i f p hi hp
    rcases hcases hi with hi | ⟨hle, hi⟩
    · exact hchildren p (h.above i f p hi hp)
    · have hnew := habove _ f p hi hp
      rwa [hlength, Nat.add_sub_cancel' hle] at hnew

theorem addNodes (h : Shadows C F) (hg : Grows C D n) : Shadows D (F.addNodes n) := by
  obtain ⟨l, hl, hlength, htells⟩ := hg.nodes
  have hnode : (F.addNodes n).curSubmitNodeIndex = 0 ∨
      (F.addNodes n).nodes[F.curSubmitNodeIndex]? = some .submit := by
    refine h.submit_node.imp_right fun hsubmit => ?_
    rw [FilterCreator.addNodes, List.getElem?_append_left (List.getElem?_eq_some_iff.mp hsubmit).1]
    exact hsubmit
  refine @append C D F (F.addNodes n) h l (List.replicate n .other) hl rfl ?_ hg.children
    (h.submit.trans hg.submit.symm) (h.marker.trans hg.marker.symm) hnode ?_ ?_
  · subst hlength
    clear hl hnode hg
    induction l with
    | nil => exact .nil
    | cons node l ih =>
      exact .cons (htells node List.mem_cons_self)
        (ih fun node hnode => htells node (List.mem_cons_of_mem _ hnode))
  · intro submit marker hmem
    cases (List.mem_replicate.mp hmem).2
  · intro i f p hf hp
    rw [(List.mem_replicate.mp (List.mem_of_getElem? hf)).2] at hp
    cases hp

theorem onSubmitStart (h : Shadows C F) (hs : Sound C) (submitIndex : UInt32) :
    Shadows (C.onSubmitStart texts submitIndex) F.onSubmitStart := by
  have hlength := h.nodes.length_eq
  have hroot : kRootNodeIndex < C.nodes.length := Nat.zero_lt_of_lt hs.submit
  refine @append C _ F _ h [⟨.kSubmitNode, .text (texts.submit submitIndex)⟩] [.submit] rfl rfl
    (.cons rfl .nil) (subset_addBelow _) hlength.symm rfl ?_ ?_ ?_
  · exact .inr (by simp [FilterCreator.onSubmitStart])
  · intro submit marker hmem
    cases List.mem_singleton.mp hmem
  · intro i f p hf hp
    obtain ⟨rfl, rfl⟩ : i = 0 ∧ f = .submit := by
      cases i <;> simp_all
    cases hp
    exact mem_addBelow hs hroot _

theorem addBelow (h : Shadows C F) (hs : Sound C) {f : FilterNode} {desc : String}
    {marker : Option ℕ} (hf : f.Tells ⟨type, .text desc⟩) (hparent : f.above = some parent)
    (hlt : parent < C.nodes.length) (hcur : ∀ submit m, f = .renderMarker submit m →
      submit = F.curSubmitNodeIndex) (hsubmit : G.curSubmitNodeIndex = F.curSubmitNodeIndex)
    (hG : G.nodes = F.nodes ++ [f]) (hmarker : G.renderMarkerIndex = marker) :
    Shadows { C.addBelow parent type desc with renderMarkerIndex := marker } G := by
  refine @append C _ F G h [⟨type, .text desc⟩] [f] rfl hG (.cons hf .nil) (subset_addBelow _)
    (hsubmit.trans h.submit) hmarker ?_ ?_ ?_
  · rw [hsubmit]
    refine h.submit_node.imp_right fun hnode => ?_
    rw [hG, List.getElem?_append_left (List.getElem?_eq_some_iff.mp hnode).1]
    exact hnode
  · intro submit m hmem
    exact hcur submit m (List.mem_singleton.mp hmem).symm
  · intro i f' p hf' hp
    obtain ⟨rfl, rfl⟩ : i = 0 ∧ f' = f := by
      cases i <;> simp_all
    obtain rfl : parent = p := Option.some.inj (hparent.symm.trans hp)
    exact mem_addBelow hs hlt _

theorem setMarker (h : Shadows C F) (hs : Sound C) (p : CapturedPacket) :
    Shadows (C.setMarker p) (F.setMarker (.ofDword p.markerDword)) := by
  unfold EventTreeCreator.setMarker FilterCreator.setMarker
  cases hdesc : (Marker.ofDword p.markerDword).desc with
  | none => exact h
  | some desc =>
    obtain ⟨hnodes, hsubmit, hmarker⟩ := FilterCreator.excludeMarker_nodes
      (F.addMarkerNode (.ofDword p.markerDword)) F.nodes.length (.ofDword p.markerDword)
    have hlength := h.nodes.length_eq
    refine @addBelow C F _ .kRenderMarkerNode C.curSubmitNodeIndex h hs
      (.renderMarker F.curSubmitNodeIndex (.ofDword p.markerDword)) desc (some C.nodes.length)
      ⟨rfl, desc, hdesc, rfl⟩ ?_ hs.submit ?_ hsubmit hnodes ?_
    · rw [← h.submit]
      rfl
    · intro submit m heq
      cases heq
      rfl
    · rw [hlength]
      exact hmarker

theorem addEvent (h : Shadows C F) (hs : Sound C) (p : CapturedPacket) :
    Shadows (C.addEvent texts p) F.addEvent := by
  have hlt : C.renderMarkerIndex.getD C.curSubmitNodeIndex < C.nodes.length := by
    cases hmarker : C.renderMarkerIndex with
    | none => exact hs.submit
    | some n => exact (hs.marker n hmarker).1
  refine @addBelow C F F.addEvent .kEventNode (C.renderMarkerIndex.getD C.curSubmitNodeIndex) h hs
    (.event (F.renderMarkerIndex.getD F.curSubmitNodeIndex)) (texts.event C.stateTracker p)
    C.renderMarkerIndex rfl ?_ hlt ?_ rfl rfl h.marker
  · rw [h.marker, h.submit]
    rfl
  · intro submit m heq
    cases heq

theorem onOpcode_cases (C : EventTreeCreator) (texts : CaptureTexts) (packet : ℕ)
    (p : CapturedPacket) (opcode : UInt32) : (∃ n, Grows C (C.onOpcode texts packet p opcode) n) ∨
      C.onOpcode texts packet p opcode = C.setMarker p := by
  have hsame : Grows C C 0 := .of_eq rfl rfl rfl rfl
  unfold EventTreeCreator.onOpcode
  split_ifs
  · exact .inl ⟨0, hsame⟩
  · exact .inl (Grows.addItems packet _ C)
  · exact .inl ⟨0, .of_eq rfl rfl rfl rfl⟩
  · exact .inl ⟨0, .of_eq rfl rfl rfl rfl⟩
  · exact .inl ⟨0, .of_eq rfl rfl rfl rfl⟩
  · exact .inr rfl
  · exact .inl ⟨0, hsame⟩

theorem onIbStart (h : Shadows C F) {ibIndex : ℕ} {ib : IndirectBufferInfo} {ibType : IbType}
    {reply : Bool × EventTreeCreator} (hreply : C.onIbStart texts ibIndex ib ibType = some reply) :
    ∃ n, Shadows reply.2 (F.addNodes n) := by
  obtain ⟨D, hD, rfl⟩ := Option.map_eq_some_iff.mp hreply
  have hfield : ∃ n, Grows C D n := by
    have hsame : Grows C { C with stateTracker := C.stateTracker.onIbStart ib } 0 :=
      .of_eq rfl rfl rfl rfl
    unfold addIbField at hD
    split_ifs at hD
    · obtain ⟨parent, -, rfl⟩ := Option.map_eq_some_iff.mp hD
      exact ⟨_, hsame.trans (.addBelow (by simp [IsOther]) parent _)⟩
    · obtain ⟨parent, -, rfl⟩ := Option.map_eq_some_iff.mp hD
      exact ⟨_, hsame.trans (.addBelow (by simp [IsOther]) parent _)⟩
    · cases hD
      exact ⟨0, hsame⟩
  obtain ⟨n, hn⟩ := hfield
  exact ⟨n + 1, h.addNodes (hn.trans (.addNode (by simp [IsOther]) _))⟩

theorem onPacket (h : Shadows C F) (hs : Sound C) {p : CapturedPacket}
    {reply : Bool × EventTreeCreator} (hreply : C.onPacket info texts p = some reply) :
    ∃ calls : List FilterCall, Shadows reply.2 (calls.foldl FilterCreator.onCall F) := by
  obtain ⟨stateTracker, -, hrest⟩ := Option.bind_eq_some_iff.mp hreply
  have hsame : Grows C { C with stateTracker } 0 := .of_eq rfl rfl rfl rfl
  dsimp only at hrest
  by_cases hskip : p.header.type ≠ 4 ∧ p.header.type ≠ 7
  · rw [if_pos hskip] at hrest
    cases hrest
    exact ⟨[.nodes 0], h.addNodes hsame⟩
  · rw [if_neg hskip] at hrest
    obtain ⟨isEvent, -, rfl⟩ := Option.map_eq_some_iff.mp hrest
    have hsound := @Sound.addPacketNode _ texts (hs.withTracker stateTracker) p
    obtain ⟨n, hpacket⟩ := @Grows.addPacketNode { C with stateTracker } texts p
    have hgrown := hsame.trans hpacket
    rw [Nat.zero_add] at hgrown
    have hnode := h.addNodes hgrown
    cases isEvent with
    | true => exact ⟨[.packet { fields := n, isEvent := true }], hnode.addEvent hsound.1 p⟩
    | false =>
      rcases onOpcode_cases (({ C with stateTracker } : EventTreeCreator).addPacketNode texts p)
        texts C.nodes.length p (if p.header.type = 7 then p.header.type7Opcode else noOpcode) with
        ⟨k, hk⟩ | hmarker
      · exact ⟨[.packet { fields := n }, .nodes k], hnode.addNodes hk⟩
      · refine ⟨[.packet { fields := n, marker := some p.markerDword }], ?_⟩
        have hpass := hnode.setMarker hsound.1 p
        rw [← hmarker] at hpass
        exact hpass

/-- **One call.** -/
theorem next (h : Shadows C F) (hs : Sound C) {memManager : IMemoryManager} {call : Call}
    (hnext : (callbacks info texts).next memManager C call = some D) :
    ∃ calls : List FilterCall, Shadows D (calls.foldl FilterCreator.onCall F) := by
  obtain ⟨reply, hreply, rfl⟩ := Option.map_eq_some_iff.mp hnext
  cases call with
  | submitStart submitIndex =>
    cases hreply
    exact ⟨[.submitStart], h.onSubmitStart hs submitIndex⟩
  | submitEnd submitIndex =>
    cases hreply
    exact ⟨[.nodes _], h.addNodes (.foldl_addBelow (by simp [IsOther]) kRootNodeIndex _ C)⟩
  | event submitIndex e =>
    cases e with
    | ibStart q ibIndex ib ibType =>
      obtain ⟨n, hn⟩ := h.onIbStart hreply
      exact ⟨[.nodes n], hn⟩
    | ibEnd ibIndex ib =>
      obtain ⟨stateTracker, -, rfl⟩ := Option.map_eq_some_iff.mp hreply
      exact ⟨[.nodes 0], h.addNodes (.of_eq rfl rfl rfl rfl)⟩
    | packet ibIndex va hd => exact h.onPacket hs hreply

end Shadows

theorem shadows_root : Shadows root {} where
  nodes := .cons (by simp [FilterNode.Tells]) .nil
  submit := rfl
  marker := rfl
  submit_node := .inl rfl
  passes := by
    intro i submit m hi
    have hmem := List.mem_of_getElem? hi
    simp at hmem
  above := by
    intro i f p hi hp
    rw [List.mem_singleton.mp (List.mem_of_getElem? hi)] at hp
    cases hp

/-- **All submits of a capture.** -/
theorem exists_shadow {memManager : IMemoryManager} {k : ℕ}
    {submits : List Pm4CaptureData.SubmitInfo} {calls : List Call}
    (h : (callbacks info texts).ProcessSubmits memManager k submits root calls C) :
    ∃ filterCalls, Shadows C (FilterCreator.run filterCalls) := by
  refine (Monitor.run_invariant (P := fun C => Sound C ∧
    ∃ filterCalls, Shadows C (FilterCreator.run filterCalls)) ⟨sound_root, [], shadows_root⟩ h.run
      ?_).2
  rintro call _ C D ⟨hs, filterCalls, hC⟩ hnext
  obtain ⟨more, hD⟩ := hC.next hs hnext
  refine ⟨hs.next hnext, filterCalls ++ more, ?_⟩
  rw [FilterCreator.run, List.foldl_append]
  exact hD

/-! ## The tree -/

/-- The lists that `CreateTopologies` reads for the topology of all events; those of the shared
children are given. -/
def childLists (C : EventTreeCreator) (sharedChildren : ℕ → List ℕ) : List (List ℕ × List ℕ) :=
  C.nodeChildren.zipIdx.map fun list => (list.1, sharedChildren list.2)

/-- `CreateTopologies`, for the topology of all events. -/
def createTopologies (C : EventTreeCreator) (sharedChildren : ℕ → List ℕ) : SharedNodeTopology :=
  createTopology (C.childLists sharedChildren)

theorem length_childLists (sharedChildren : ℕ → List ℕ) :
    (C.childLists sharedChildren).length = C.nodeChildren.length := by
  simp [childLists]

theorem children_createTopologies {pending : List ℕ} (h : Planted C.nodeChildren pending)
    (sharedChildren : ℕ → List ℕ) :
    (C.createTopologies sharedChildren).children = childrenIn C.nodeChildren := by
  have hadditions := calc
    _ = _ := additions_createTopology (C.childLists sharedChildren).zipIdx
    _ = C.nodeChildren.zipIdx.map Prod.swap := by
      apply List.ext_getElem?
      intro i
      simp only [childLists, List.getElem?_map, List.getElem?_zipIdx, Nat.zero_add]
      cases C.nodeChildren[i]? <;> rfl
  obtain ⟨hforest, hchildren⟩ := childrenOf_of_planted h (.refl _)
  rw [← hadditions, ← length_childLists sharedChildren] at hforest
  have heq := (run_holds hforest).children_eq hforest
  rw [hadditions, hchildren] at heq
  exact heq

section Shown

variable {filterMode : FilterMode} {pending : List ℕ} {node : CommandHierarchyNode} {p : ℕ}
  {f : FilterNode}

/-- The exclude list of the mode does not have the pass. -/
def ShowsPass (F : FilterCreator) (filterMode : FilterMode) (i : ℕ) : Prop :=
  ∀ filter, filterMode.filterListType = some filter → ∀ submit marker,
    F.nodes[i]? = some (.renderMarker submit marker) →
      ¬ marker.Excluded (Tracks F.nodes submit i) filter

theorem acceptsRow_eq_true_iff (hF : F.Excludes) (hn : C.nodes[n]? = some node)
    (htype : node.type ≠ .kGfxrVulkanSubmitNode) :
    acceptsRow C.nodes F filterMode n ↔ ShowsPass F filterMode n := by
  have hlist : includeIndex F filterMode n = true ↔ ShowsPass F filterMode n := by
    unfold includeIndex ShowsPass
    cases filterMode.filterListType with
    | none => simp
    | some filter => simp [hF.excluded]
  have hany : C.nodes[n]?.any (·.type = .kGfxrVulkanSubmitNode) = false := by
    rw [hn]
    simpa using htype
  rw [← hlist, acceptsRow, hany, if_neg Bool.false_ne_true]
  cases filterMode <;> simp [includeIndex, FilterMode.filterListType]

theorem showsRow_iff (h : Planted C.nodeChildren pending)
    (hc : n ∈ childrenIn C.nodeChildren p) :
    ShowsRow C.nodes F filterMode (childrenIn C.nodeChildren) n ↔
      acceptsRow C.nodes F filterMode n ∧
        ShowsRow C.nodes F filterMode (childrenIn C.nodeChildren) p := by
  constructor
  · intro hn
    rcases ReflTransGen.cases_head hn with rfl | ⟨q, ⟨hq, haccepts⟩, hrest⟩
    · exact absurd (h.child_bounds hc).1 (Nat.not_lt_zero p)
    · obtain rfl := h.unique hq hc
      exact ⟨haccepts, hrest⟩
  · rintro ⟨haccepts, hp⟩
    exact .head ⟨hc, haccepts⟩ hp

theorem Shadows.exists_node (h : Shadows C F) (hf : F.nodes[n]? = some f) :
    ∃ node, C.nodes[n]? = some node ∧ f.Tells node := by
  obtain ⟨hlt, rfl⟩ := List.getElem?_eq_some_iff.mp hf
  have hlt' : n < C.nodes.length := h.nodes.length_eq ▸ hlt
  exact ⟨_, List.getElem?_eq_getElem hlt', h.nodes.get hlt' hlt⟩

theorem Shadows.exists_filterNode (h : Shadows C F) (hn : C.nodes[n]? = some node) :
    ∃ f, F.nodes[n]? = some f ∧ f.Tells node := by
  obtain ⟨hlt, rfl⟩ := List.getElem?_eq_some_iff.mp hn
  have hlt' : n < F.nodes.length := h.nodes.length_eq ▸ hlt
  exact ⟨_, List.getElem?_eq_getElem hlt', h.nodes.get hlt hlt'⟩

theorem Shadows.acceptsRow_iff (h : Shadows C F) (hF : F.Excludes) (hf : F.nodes[n]? = some f)
    (hp : f.above = some p) : acceptsRow C.nodes F filterMode n ↔ ShowsPass F filterMode n := by
  obtain ⟨node, hnode, htells⟩ := h.exists_node hf
  apply acceptsRow_eq_true_iff hF hnode
  cases f with
  | submit => exact fun htype => nomatch htype.symm.trans htells
  | renderMarker submit m => exact fun htype => nomatch htype.symm.trans htells.1
  | event p => exact fun htype => nomatch htype.symm.trans htells
  | other => cases hp

theorem Shadows.showsRow_submit (h : Shadows C F) (hF : F.Excludes)
    (hC : Planted C.nodeChildren pending) (hn : n = 0 ∨ F.nodes[n]? = some .submit) :
    ShowsRow C.nodes F filterMode (childrenIn C.nodeChildren) n := by
  rcases hn with rfl | hn
  · exact .refl
  · rw [showsRow_iff hC (h.above n _ _ hn rfl), h.acceptsRow_iff hF hn rfl]
    refine ⟨fun filter _ submit m hm => ?_, .refl⟩
    rw [hn] at hm
    cases hm

theorem Shadows.showsRow_pass (h : Shadows C F) (hF : F.Excludes)
    (hC : Planted C.nodeChildren pending) {submit : ℕ} {m : Marker}
    (hn : F.nodes[n]? = some (.renderMarker submit m)) :
    ShowsRow C.nodes F filterMode (childrenIn C.nodeChildren) n ↔ ShowsPass F filterMode n := by
  rw [showsRow_iff hC (h.above n _ _ hn rfl), h.acceptsRow_iff hF hn rfl]
  exact and_iff_left (h.showsRow_submit hF hC (h.passes n submit m hn))

theorem showsPass_of_not_pass (hn : ∀ submit m, F.nodes[n]? ≠ some (.renderMarker submit m)) :
    ShowsPass F filterMode n :=
  fun _ _ submit m hm => absurd hm (hn submit m)

/-- **A node is shown with its pass.** -/
theorem Shadows.showsRow (h : Shadows C F) (hF : F.Excludes) (hC : Planted C.nodeChildren pending)
    (hf : F.nodes[n]? = some f) (hp : f.above = some p) :
    ShowsRow C.nodes F filterMode (childrenIn C.nodeChildren) n ↔
      ShowsPass F filterMode n ∧ ShowsPass F filterMode p := by
  have hroot : ShowsPass F filterMode 0 := by
    refine showsPass_of_not_pass fun submit m hm => ?_
    exact absurd (hC.child_bounds (h.above 0 _ _ hm rfl)).1 (Nat.not_lt_zero submit)
  have hsubmit : ∀ {q : ℕ}, q = 0 ∨ F.nodes[q]? = some .submit → ShowsPass F filterMode q := by
    rintro q (rfl | hq)
    · exact hroot
    · exact showsPass_of_not_pass fun submit m hm => nomatch hq.symm.trans hm
  cases f with
  | submit =>
    obtain rfl : kRootNodeIndex = p := Option.some.inj hp
    exact iff_of_true (h.showsRow_submit hF hC (.inr hf)) ⟨hsubmit (.inr hf), hroot⟩
  | renderMarker submit m =>
    obtain rfl : submit = p := Option.some.inj hp
    rw [h.showsRow_pass hF hC hf]
    exact (and_iff_left (hsubmit (h.passes n submit m hf))).symm
  | event q =>
    obtain rfl : q = p := Option.some.inj hp
    rw [showsRow_iff hC (h.above n _ _ hf rfl), h.acceptsRow_iff hF hf rfl]
    refine and_congr_right fun _ => ?_
    rcases (hF.events n q hf).2.1 with rfl | ⟨start, hstart, hstarts⟩
    · exact iff_of_true .refl hroot
    · cases start with
      | submit =>
        exact iff_of_true (h.showsRow_submit hF hC (.inr hstart)) (hsubmit (.inr hstart))
      | renderMarker submit m => exact h.showsRow_pass hF hC hstart
      | event _ => cases hstarts
      | other => cases hstarts
  | other => cases hp

/-- **The filtered tree of a PM4 capture.** In every mode, the tree shows of the submits, passes and
events those that are, or are below, no pass that the mode excludes. -/
theorem filtered_events {memManager : IMemoryManager} {submits : List Pm4CaptureData.SubmitInfo}
    {calls : List Call}
    (hC : (callbacks info texts).ProcessSubmits memManager 0 submits root calls C)
    (sharedChildren : ℕ → List ℕ) : ∃ filterCalls, Shadows C (FilterCreator.run filterCalls) ∧
      ∀ filterMode n node, C.nodes[n]? = some node →
        node.type = .kSubmitNode ∨ node.type = .kRenderMarkerNode ∨ node.type = .kEventNode →
          (ShowsRow C.nodes (FilterCreator.run filterCalls) filterMode
              (C.createTopologies sharedChildren).children n ↔
            ∀ i, i = n ∨ n ∈ (C.createTopologies sharedChildren).children i →
              ShowsPass (FilterCreator.run filterCalls) filterMode i) := by
  obtain ⟨filterCalls, hshadows⟩ := exists_shadow hC
  obtain ⟨pending, hplanted, -⟩ := (sound_processSubmits hC).planted
  refine ⟨filterCalls, hshadows, fun filterMode n node hnode htype => ?_⟩
  rw [children_createTopologies hplanted]
  obtain ⟨f, hf, htells⟩ := hshadows.exists_filterNode hnode
  have habove : ∃ p, f.above = some p := by
    cases f with
    | other =>
      obtain ⟨hsubmit, hpass, hevent⟩ := htells
      tauto
    | submit => exact ⟨_, rfl⟩
    | renderMarker parent m => exact ⟨_, rfl⟩
    | event parent => exact ⟨_, rfl⟩
  obtain ⟨p, hp⟩ := habove
  have hchild := hshadows.above n f p hf hp
  rw [hshadows.showsRow (FilterCreator.run_excludes filterCalls) hplanted hf hp]
  constructor
  · rintro ⟨hn, hpass⟩ i (rfl | hi)
    · exact hn
    · exact hplanted.unique hchild hi ▸ hpass
  · intro hall
    exact ⟨hall n (.inl rfl), hall p (.inr hchild)⟩

end Shown

/-- A submit with a wait and a draw. -/
theorem filtered_events_drawn : ∃ C filterCalls, Shadows C (FilterCreator.run filterCalls) ∧
    ∀ filterMode n node, C.nodes[n]? = some node →
      node.type = .kSubmitNode ∨ node.type = .kRenderMarkerNode ∨ node.type = .kEventNode →
        (ShowsRow C.nodes (FilterCreator.run filterCalls) filterMode
            (C.createTopologies fun _ => []).children n ↔
          ∀ i, i = n ∨ n ∈ (C.createTopologies fun _ => []).children i →
            ShowsPass (FilterCreator.run filterCalls) filterMode i) := by
  obtain ⟨C, hC⟩ := Option.isSome_iff_exists.mp DiveCommandHierarchyCreator.isSome_drawn
  have hrun : (callbacks noInfo DiveCommandHierarchyCreator.noTexts).ProcessSubmits drawnMemory 0
      [drawnSubmit] root (drawnCalls ++ []) C := by
    refine .cons ⟨drawnTrace, rfl, ?_⟩ hC (.nil 1 C)
    rw [(alwaysGoesOn noInfo DiveCommandHierarchyCreator.noTexts drawnMemory).emulation_eq]
    exact drawn_succeeds
  exact ⟨C, filtered_events hrun fun _ => []⟩

end EventTreeCreator

end Dive
