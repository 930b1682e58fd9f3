import Mathlib.Data.Finset.Insert
import Dive.Pm4.Packet

/-!
# The filters of the hierarchy

* `FilterCreator`: the render-marker and event nodes, and the nodes that each filter excludes.
* `Marker`: what `OnPacket` does with a `CP_SET_MARKER`.
* `InFirstTile`: a tile or resolve pass, up to the first resolve pass after a binning pass, which is
  where the creator tracks the first tile.
* `Excludes`: the nodes that each filter excludes so far; `Excludes.onPacket`, `run_excludes`.
* `run_shows`: what each filter shows of a capture, for every sequence of calls.
-/

namespace Dive

/-! ## Markers -/

/-- `a6xx_marker`, as far as `OnPacket` tells them apart. -/
inductive Marker
  | directRender
  | binVisibility
  | binDirect
  | binRenderStart
  | binEndOfDraws
  | binResolve
  | binRenderEnd
  | compute
  | unhandled
  deriving DecidableEq, Repr

namespace Marker

/-- The marker in the first dword of a `CP_SET_MARKER`. -/
def ofDword (u32All0 : UInt32) : Marker :=
  match (u32All0 &&& 0xf).toNat with
  | 1 => .directRender
  | 2 => .binVisibility
  | 3 => .binDirect
  | 4 => .binRenderStart
  | 5 => .binEndOfDraws
  | 6 => .binResolve
  | 7 => .binRenderEnd
  | 8 => .compute
  | _ => .unhandled

/-- The description of the node that is added, if one is. -/
def desc : Marker → Option String
  | .directRender => some "Direct Rendering Pass"
  | .binVisibility => some "Binning Visibility Pass"
  | .binDirect => some "Binning Direct Pass"
  | .binRenderStart => some "Tile Rendering Pass"
  | .binResolve => some "Resolve Pass"
  | .compute => some "Compute Dispatch"
  | .binEndOfDraws | .binRenderEnd | .unhandled => none

/-- The markers of a tile: its tile and resolve passes. -/
def isTile (m : Marker) : Bool := m = .binRenderStart || m = .binResolve

end Marker

/-! ## The creator -/

/-- `FilterListType`. -/
inductive FilterListType
  | kBinningPassOnly
  | kFirstTilePassOnly
  | kBinningAndFirstTilePass
  deriving DecidableEq

/-- A node. The parent of a render marker or an event is that of the event topology. -/
inductive FilterNode
  | submit
  | renderMarker (parent : ℕ) (marker : Marker)
  | event (parent : ℕ)
  | other
  deriving DecidableEq

/-- `CommandHierarchyCreator`, as far as the filters go. -/
structure FilterCreator where
  nodes : List FilterNode := [.other]
  curSubmitNodeIndex : ℕ := 0
  renderMarkerIndex : Option ℕ := none
  trackingFirstTilePassStart : Bool := false
  filterExcludeIndices : FilterListType → Finset ℕ := fun _ => ∅

/-- A packet of type 4 or 7: how many field nodes it gets, if `IsEvent` holds of it and, for a
`CP_SET_MARKER`, its first dword. -/
structure FilterPacket where
  fields : ℕ := 0
  isEvent : Bool := false
  marker : Option UInt32 := none

inductive FilterCall
  | submitStart
  | packet (p : FilterPacket)
  /-- The nodes of an IB, or the presents after a submit. -/
  | nodes (n : ℕ)

namespace FilterCreator

variable (C : FilterCreator)

/-- `OnSubmitStart`. -/
def onSubmitStart : FilterCreator :=
  { C with
    nodes := C.nodes ++ [.submit]
    curSubmitNodeIndex := C.nodes.length
    renderMarkerIndex := none
    trackingFirstTilePassStart := false }

/-- Nodes that are neither events nor render markers. -/
def addNodes (n : ℕ) : FilterCreator :=
  { C with nodes := C.nodes ++ List.replicate n .other }

/-- The event node of a packet. -/
def addEvent : FilterCreator :=
  { C with nodes := C.nodes ++ [.event (C.renderMarkerIndex.getD C.curSubmitNodeIndex)] }

/-- `AddToFilterExcludeIndexList`. -/
def addToFilterExcludeIndexList (index : ℕ) (filterMode : FilterListType) : FilterCreator :=
  { C with
    filterExcludeIndices := Function.update C.filterExcludeIndices filterMode
      (insert index (C.filterExcludeIndices filterMode)) }

/-- The lists that the node of a marker is added to. -/
def excludeMarker (node : ℕ) (marker : Marker) : FilterCreator :=
  let C :=
    if marker = .binVisibility then
      let C := { C with trackingFirstTilePassStart := true }
      C.addToFilterExcludeIndexList node .kFirstTilePassOnly
    else C
  if marker = .binRenderStart ∨ marker = .binResolve then
    let C := C.addToFilterExcludeIndexList node .kBinningPassOnly
    let C :=
      if !C.trackingFirstTilePassStart then
        (C.addToFilterExcludeIndexList node .kFirstTilePassOnly).addToFilterExcludeIndexList node
          .kBinningAndFirstTilePass
      else C
    if C.trackingFirstTilePassStart ∧ marker = .binResolve then
      { C with trackingFirstTilePassStart := false }
    else C
  else C

/-- The node of a marker, below the submit. -/
def addMarkerNode (marker : Marker) : FilterCreator :=
  { C with
    nodes := C.nodes ++ [.renderMarker C.curSubmitNodeIndex marker]
    renderMarkerIndex := some C.nodes.length }

/-- The `CP_SET_MARKER` part of `OnPacket`. -/
def setMarker (marker : Marker) : FilterCreator :=
  if marker.desc.isSome then (C.addMarkerNode marker).excludeMarker C.nodes.length marker else C

/-- `OnPacket`. -/
def onPacket (p : FilterPacket) : FilterCreator :=
  let C := C.addNodes (1 + p.fields)
  if p.isEvent then C.addEvent
  else match p.marker with
    | some u32All0 => C.setMarker (.ofDword u32All0)
    | none => C

def onCall : FilterCall → FilterCreator
  | .submitStart => C.onSubmitStart
  | .packet p => C.onPacket p
  | .nodes n => C.addNodes n

/-- The hierarchy after the calls for a capture. -/
def run (calls : List FilterCall) : FilterCreator := calls.foldl onCall {}

/-- `IncludeIndex` of a filter. -/
def includeIndex (filter : FilterListType) (i : ℕ) : Prop := i ∉ C.filterExcludeIndices filter

/-- A filter shows a node: it includes it and, for an event, the node above it. -/
def Shows (filter : FilterListType) (i : ℕ) : Prop :=
  C.includeIndex filter i ∧ ∀ parent, C.nodes[i]? = some (.event parent) →
    C.includeIndex filter parent

end FilterCreator

/-! ## The first tile -/

/-- There is a binning pass of the submit before node `i`, and no resolve pass after it. -/
def Tracks (nodes : List FilterNode) (submit i : ℕ) : Prop :=
  ∃ j < i, nodes[j]? = some (.renderMarker submit .binVisibility) ∧
    ∀ k, j < k → k < i → nodes[k]? ≠ some (.renderMarker submit .binResolve)

/-- A tile or resolve pass of what the creator takes as the first tile: the passes after a binning
pass up to the first resolve pass. -/
def InFirstTile (nodes : List FilterNode) (i : ℕ) : Prop :=
  ∃ submit marker, nodes[i]? = some (.renderMarker submit marker) ∧ marker.isTile ∧
    Tracks nodes submit i

variable {nodes l : List FilterNode} {submit i p : ℕ}

theorem tracks_append (hi : i ≤ nodes.length) : Tracks (nodes ++ l) submit i ↔
    Tracks nodes submit i := by
  refine exists_congr fun j => and_congr_right fun hj => ?_
  rw [List.getElem?_append_left (hj.trans_le hi)]
  refine and_congr_right fun _ => forall_congr' fun k => forall_congr' fun _ =>
    forall_congr' fun hk => ?_
  rw [List.getElem?_append_left (hk.trans_le hi)]

theorem tracks_succ : Tracks nodes submit (i + 1) ↔
    nodes[i]? = some (.renderMarker submit .binVisibility) ∨
      (nodes[i]? ≠ some (.renderMarker submit .binResolve) ∧ Tracks nodes submit i) := by
  constructor
  · rintro ⟨j, hj, hvis, hno⟩
    rcases Nat.lt_succ_iff_lt_or_eq.mp hj with hlt | rfl
    · exact .inr ⟨hno i hlt (Nat.lt_succ_self i), j, hlt, hvis,
        fun k hjk hk => hno k hjk (Nat.lt_succ_of_lt hk)⟩
    · exact .inl hvis
  · rintro (hvis | ⟨hres, j, hj, hvis, hno⟩)
    · exact ⟨i, Nat.lt_succ_self i, hvis, fun k hik hk => absurd hk (by omega)⟩
    · refine ⟨j, Nat.lt_succ_of_lt hj, hvis, fun k hjk hk => ?_⟩
      rcases Nat.lt_succ_iff_lt_or_eq.mp hk with hlt | rfl
      · exact hno k hjk hlt
      · exact hres

theorem tracks_concat (node : FilterNode) :
    Tracks (nodes ++ [node]) submit (nodes.length + 1) ↔
      node = .renderMarker submit .binVisibility ∨
        (node ≠ .renderMarker submit .binResolve ∧ Tracks nodes submit nodes.length) := by
  rw [tracks_succ, tracks_append le_rfl]
  simp

/-- A submit or a pass starts at the node. -/
def FilterNode.starts : FilterNode → Bool
  | .submit | .renderMarker .. => true
  | .event _ | .other => false

/-- The node of the pass that node `i` is in or, before the first pass, that of the submit. -/
def PassOf (nodes : List FilterNode) (i p : ℕ) : Prop :=
  p < i ∧ (p = 0 ∨ ∃ node, nodes[p]? = some node ∧ node.starts) ∧
    ∀ (k : ℕ) node, p < k → k < i → nodes[k]? = some node → node.starts = false

theorem passOf_append (hi : i ≤ nodes.length) : PassOf (nodes ++ l) i p ↔ PassOf nodes i p := by
  refine and_congr_right fun hp => ?_
  rw [List.getElem?_append_left (hp.trans_le hi)]
  refine and_congr_right fun _ => forall_congr' fun k => forall_congr' fun node =>
    forall_congr' fun _ => forall_congr' fun hk => ?_
  rw [List.getElem?_append_left (hk.trans_le hi)]

theorem passOf_concat {node : FilterNode} (h : PassOf nodes nodes.length p)
    (hnode : node.starts = false) : PassOf (nodes ++ [node]) (nodes.length + 1) p := by
  obtain ⟨hp, hstart, hno⟩ := (passOf_append (l := [node]) le_rfl).mpr h
  refine ⟨Nat.lt_succ_of_lt hp, hstart, fun k n hpk hk hn => ?_⟩
  rcases Nat.lt_succ_iff_lt_or_eq.mp hk with hlt | rfl
  · exact hno k n hpk hlt hn
  · obtain rfl : node = n := by simpa using hn
    exact hnode

theorem passOf_start {node : FilterNode} (hnode : node.starts) :
    PassOf (nodes ++ [node]) (nodes.length + 1) nodes.length :=
  ⟨Nat.lt_succ_self _, .inr ⟨node, by simp, hnode⟩, fun k n hk hk' => absurd hk' (by omega)⟩

/-! ## The exclude lists -/

/-- The filters exclude the node of a marker, according to the tracking of the first tile. -/
def Marker.Excluded (m : Marker) (tracks : Prop) : FilterListType → Prop
  | .kBinningPassOnly => m.isTile
  | .kFirstTilePassOnly => m = .binVisibility ∨ (m.isTile ∧ ¬tracks)
  | .kBinningAndFirstTilePass => m.isTile ∧ ¬tracks

theorem Marker.excluded_congr {m : Marker} {tracks tracks' : Prop} (h : tracks ↔ tracks')
    (filter : FilterListType) : m.Excluded tracks filter ↔ m.Excluded tracks' filter := by
  rw [propext h]

namespace FilterCreator

variable {C : FilterCreator}

theorem excludeMarker_nodes (C : FilterCreator) (node : ℕ) (m : Marker) :
    (C.excludeMarker node m).nodes = C.nodes ∧
    (C.excludeMarker node m).curSubmitNodeIndex = C.curSubmitNodeIndex ∧
    (C.excludeMarker node m).renderMarkerIndex = C.renderMarkerIndex := by
  cases m <;> cases htrack : C.trackingFirstTilePassStart <;>
    simp [excludeMarker, addToFilterExcludeIndexList, htrack]

theorem excludeMarker_tracking (C : FilterCreator) (node : ℕ) (m : Marker) :
    (C.excludeMarker node m).trackingFirstTilePassStart = true ↔
      m = .binVisibility ∨ (m ≠ .binResolve ∧ C.trackingFirstTilePassStart = true) := by
  cases m <;> cases htrack : C.trackingFirstTilePassStart <;>
    simp [excludeMarker, addToFilterExcludeIndexList, htrack]

theorem mem_excludeMarker (C : FilterCreator) (node : ℕ) (m : Marker) (filter : FilterListType)
    (j : ℕ) : j ∈ (C.excludeMarker node m).filterExcludeIndices filter ↔
      j ∈ C.filterExcludeIndices filter ∨
        (j = node ∧ m.Excluded (C.trackingFirstTilePassStart = true) filter) := by
  cases m <;> cases htrack : C.trackingFirstTilePassStart <;> cases filter <;>
    simp [excludeMarker, addToFilterExcludeIndexList, htrack, Marker.Excluded, Marker.isTile,
      Function.update, or_comm]

/-- What the creator keeps. -/
structure Excludes (C : FilterCreator) : Prop where
  submit : C.curSubmitNodeIndex < C.nodes.length
  parents : ∀ (i : ℕ) submit m, C.nodes[i]? = some (.renderMarker submit m) →
    submit ≤ C.curSubmitNodeIndex
  tracking : C.trackingFirstTilePassStart = true ↔
    Tracks C.nodes C.curSubmitNodeIndex C.nodes.length
  pass : PassOf C.nodes C.nodes.length (C.renderMarkerIndex.getD C.curSubmitNodeIndex)
  events : ∀ (i p : ℕ), C.nodes[i]? = some (.event p) → PassOf C.nodes i p
  excluded : ∀ filter i, i ∈ C.filterExcludeIndices filter ↔
    ∃ submit m, C.nodes[i]? = some (.renderMarker submit m) ∧
      m.Excluded (Tracks C.nodes submit i) filter

theorem getElem?_concat_eq (nodes : List FilterNode) (node : FilterNode) (i : ℕ) :
    (nodes ++ [node])[i]? =
      if i < nodes.length then nodes[i]? else if i = nodes.length then some node else none := by
  rcases Nat.lt_trichotomy i nodes.length with h | rfl | h
  · rw [List.getElem?_append_left h, if_pos h]
  · simp
  · rw [List.getElem?_append_right h.le, if_neg h.not_gt, if_neg h.ne']
    exact List.getElem?_eq_none (by simp; omega)

theorem Excludes.concat (h : C.Excludes) {node : FilterNode} (hnode : node.starts = false)
    (hevent : ∀ p, node = .event p → p = C.renderMarkerIndex.getD C.curSubmitNodeIndex) :
    Excludes { C with nodes := C.nodes ++ [node] } where
  submit := by
    have := h.submit
    simp only [List.length_append]
    omega
  parents := by
    intro i submit m hi
    rw [getElem?_concat_eq] at hi
    split_ifs at hi
    · exact h.parents i submit m hi
    · cases hi
      cases hnode
  tracking := by
    rw [List.length_append, List.length_singleton, tracks_concat, h.tracking]
    cases node <;> simp [FilterNode.starts] at hnode ⊢
  pass := by
    rw [List.length_append, List.length_singleton]
    exact passOf_concat h.pass hnode
  events := by
    intro i p hi
    rw [getElem?_concat_eq] at hi
    split_ifs at hi with hlt heq
    · exact (passOf_append hlt.le).mpr (h.events i p hi)
    · subst heq
      rw [hevent p (Option.some.inj hi)]
      exact (passOf_append le_rfl).mpr h.pass
  excluded := by
    intro filter i
    rw [h.excluded]
    refine exists_congr fun submit => exists_congr fun m => ?_
    rw [getElem?_concat_eq]
    split_ifs with hlt heq
    · rw [Marker.excluded_congr (tracks_append hlt.le)]
    · subst heq
      refine iff_of_false (by simp) fun hc => ?_
      cases Option.some.inj hc.1
      cases hnode
    · exact iff_of_false (fun hc => hlt (List.getElem?_eq_some_iff.mp hc.1).1) (by simp)

theorem Excludes.addNodes (h : C.Excludes) (n : ℕ) : (C.addNodes n).Excludes := by
  induction n generalizing C with
  | zero => simpa [FilterCreator.addNodes] using h
  | succ n ih =>
    have hone := ih (@Excludes.concat C h .other rfl nofun)
    simpa [FilterCreator.addNodes, List.replicate_succ] using hone

theorem Excludes.onSubmitStart (h : C.Excludes) : C.onSubmitStart.Excludes where
  submit := by simp [FilterCreator.onSubmitStart]
  parents := by
    intro i submit m hi
    simp only [FilterCreator.onSubmitStart] at hi ⊢
    rw [getElem?_concat_eq] at hi
    split_ifs at hi
    · exact (h.parents i submit m hi).trans h.submit.le
    · cases hi
  tracking := by
    simp only [FilterCreator.onSubmitStart, List.length_append, List.length_singleton,
      tracks_concat]
    refine iff_of_false (by simp) ?_
    rintro (hc | ⟨-, j, hj, hvis, -⟩)
    · cases hc
    · exact absurd (h.parents j _ _ hvis) (Nat.not_le.mpr h.submit)
  pass := by
    simp only [FilterCreator.onSubmitStart, List.length_append, List.length_singleton,
      Option.getD_none]
    exact passOf_start rfl
  events := by
    intro i p hi
    simp only [FilterCreator.onSubmitStart] at hi ⊢
    rw [getElem?_concat_eq] at hi
    split_ifs at hi with hlt
    · exact (passOf_append hlt.le).mpr (h.events i p hi)
    · cases hi
  excluded := by
    intro filter i
    simp only [FilterCreator.onSubmitStart]
    rw [h.excluded]
    refine exists_congr fun submit => exists_congr fun m => ?_
    rw [getElem?_concat_eq]
    split_ifs with hlt heq
    · rw [Marker.excluded_congr (tracks_append hlt.le)]
    · subst heq
      exact iff_of_false (by simp) (by simp)
    · exact iff_of_false (fun hc => hlt (List.getElem?_eq_some_iff.mp hc.1).1) (by simp)

theorem Excludes.setMarker (h : C.Excludes) (m : Marker) : (C.setMarker m).Excludes := by
  rw [FilterCreator.setMarker]
  split_ifs
  · obtain ⟨hn, hsubmit, hindex⟩ := (C.addMarkerNode m).excludeMarker_nodes C.nodes.length m
    have htrack := (C.addMarkerNode m).excludeMarker_tracking C.nodes.length m
    have hmem := (C.addMarkerNode m).mem_excludeMarker C.nodes.length m
    generalize (C.addMarkerNode m).excludeMarker C.nodes.length m = C' at hn hsubmit hindex htrack hmem
    simp only [addMarkerNode] at hn hsubmit hindex htrack hmem
    constructor
    · rw [hn, hsubmit, List.length_append]
      exact Nat.lt_add_right _ h.submit
    · intro i submit m' hi
      rw [hn, getElem?_concat_eq] at hi
      rw [hsubmit]
      split_ifs at hi
      · exact h.parents i submit m' hi
      · cases hi
        exact le_rfl
    · rw [htrack, hn, hsubmit, List.length_append, List.length_singleton, tracks_concat,
        h.tracking]
      simp
    · rw [hn, hsubmit, hindex, List.length_append, List.length_singleton]
      exact passOf_start rfl
    · intro i p hi
      rw [hn] at hi ⊢
      rw [getElem?_concat_eq] at hi
      split_ifs at hi with hlt
      · exact (passOf_append hlt.le).mpr (h.events i p hi)
      · cases hi
    · intro filter i
      rw [hmem, hn, h.excluded, Marker.excluded_congr h.tracking]
      simp only [getElem?_concat_eq]
      split_ifs with hlt heq
      · simp [hlt.ne, Marker.excluded_congr (tracks_append hlt.le)]
      · subst heq
        simp [Marker.excluded_congr (tracks_append le_rfl)]
      · have hnone : C.nodes[i]? = none := List.getElem?_eq_none (Nat.not_lt.mp hlt)
        simp [heq, hnone]
  · exact h

/-- **One packet.** -/
theorem Excludes.onPacket (h : C.Excludes) (p : FilterPacket) : (C.onPacket p).Excludes := by
  rw [FilterCreator.onPacket]
  split_ifs
  · refine (h.addNodes _).concat rfl fun q hq => ?_
    cases hq
    rfl
  · cases p.marker with
    | none => exact h.addNodes _
    | some u32All0 => exact (h.addNodes _).setMarker _

theorem excludes_empty : Excludes {} where
  submit := by decide
  parents := by
    intro i submit m hi
    have := List.mem_of_getElem? hi
    simp at this
  tracking := by
    refine iff_of_false (by decide) ?_
    rintro ⟨j, -, hvis, -⟩
    have := List.mem_of_getElem? hvis
    simp at this
  pass := ⟨by decide, .inl rfl, fun k node hk hk' => absurd hk' (Nat.not_lt.mpr hk)⟩
  events := by
    intro i p hi
    have := List.mem_of_getElem? hi
    simp at this
  excluded := by
    intro filter i
    refine iff_of_false (by simp) ?_
    rintro ⟨submit, m, hi, -⟩
    have := List.mem_of_getElem? hi
    simp at this

/-- **After any calls, each filter excludes its markers.** -/
theorem run_excludes (calls : List FilterCall) : (run calls).Excludes := by
  induction calls using List.reverseRecOn with
  | nil => exact excludes_empty
  | append_singleton calls call ih =>
    rw [run, List.foldl_append, ← run]
    cases call with
    | submitStart => exact ih.onSubmitStart
    | packet p => exact ih.onPacket p
    | nodes n => exact ih.addNodes n

/-! ## What the filters show -/

/-- What the filters show of a hierarchy. -/
structure ShowsRight (C : FilterCreator) : Prop where
  /-- The binning-pass filter hides the tile and resolve passes. -/
  binning : ∀ (i : ℕ) submit m, C.nodes[i]? = some (.renderMarker submit m) →
    (C.Shows .kBinningPassOnly i ↔ m.isTile = false)
  /-- The first-tile filter hides the binning passes and the other tiles. -/
  firstTile : ∀ (i : ℕ) submit m, C.nodes[i]? = some (.renderMarker submit m) →
    (C.Shows .kFirstTilePassOnly i ↔
      m ≠ .binVisibility ∧ (m.isTile = true → InFirstTile C.nodes i))
  /-- The third filter shows what one of the others does. -/
  both : ∀ i, C.Shows .kBinningAndFirstTilePass i ↔
    C.Shows .kBinningPassOnly i ∨ C.Shows .kFirstTilePassOnly i
  /-- An event is shown with its pass. -/
  events : ∀ (i p : ℕ), C.nodes[i]? = some (.event p) → PassOf C.nodes i p ∧
    ∀ filter, C.Shows filter i ↔ C.Shows filter p
  /-- All other nodes are shown. -/
  others : ∀ (i : ℕ) node, C.nodes[i]? = some node → node = .submit ∨ node = .other →
    ∀ filter, C.Shows filter i

theorem Excludes.shows_marker (h : C.Excludes) {i submit : ℕ} {m : Marker}
    (hi : C.nodes[i]? = some (.renderMarker submit m)) (filter : FilterListType) :
    C.Shows filter i ↔ ¬m.Excluded (Tracks C.nodes submit i) filter := by
  simp [Shows, includeIndex, h.excluded, hi]

theorem Excludes.shows_other (h : C.Excludes) {i : ℕ}
    (hi : ∀ submit m, C.nodes[i]? ≠ some (.renderMarker submit m)) (filter : FilterListType) :
    C.includeIndex filter i := by
  simp [includeIndex, h.excluded, hi]

theorem Excludes.event_parent (h : C.Excludes) {i p : ℕ} (hi : C.nodes[i]? = some (.event p)) :
    ∀ q, C.nodes[p]? ≠ some (.event q) := by
  intro q hq
  rcases (h.events i p hi).2.1 with rfl | ⟨node, hnode, hstart⟩
  · exact absurd (h.events 0 q hq).1 (Nat.not_lt_zero q)
  · rw [hq] at hnode
    cases hnode
    cases hstart

theorem Excludes.shows_event (h : C.Excludes) {i p : ℕ} (hi : C.nodes[i]? = some (.event p))
    (filter : FilterListType) : C.Shows filter i ↔ C.includeIndex filter p := by
  simp [Shows, h.shows_other (i := i) (by simp [hi]) filter, hi]

theorem include_both (h : C.Excludes) (i : ℕ) : C.includeIndex .kBinningAndFirstTilePass i ↔
    C.includeIndex .kBinningPassOnly i ∨ C.includeIndex .kFirstTilePassOnly i := by
  simp only [includeIndex, h.excluded]
  by_cases hmarker : ∃ submit m, C.nodes[i]? = some (.renderMarker submit m)
  · obtain ⟨submit, m, hi⟩ := hmarker
    simp only [hi, Option.some.injEq, FilterNode.renderMarker.injEq, Marker.Excluded]
    cases m <;> simp [Marker.isTile]
  · have hno : ∀ submit m, C.nodes[i]? ≠ some (.renderMarker submit m) :=
      fun submit m hi => hmarker ⟨submit, m, hi⟩
    simp [hno]

theorem run_shows (calls : List FilterCall) : (run calls).ShowsRight where
  binning := by
    intro i submit m hi
    rw [(run_excludes calls).shows_marker hi]
    simp [Marker.Excluded]
  firstTile := by
    intro i submit m hi
    rw [(run_excludes calls).shows_marker hi]
    have hfirst : InFirstTile (run calls).nodes i ↔
        m.isTile = true ∧ Tracks (run calls).nodes submit i := by
      simp [InFirstTile, hi]
    rw [hfirst, Marker.Excluded]
    tauto
  both := by
    intro i
    have hall := run_excludes calls
    by_cases hevent : ∃ p, (run calls).nodes[i]? = some (.event p)
    · obtain ⟨p, hi⟩ := hevent
      rw [hall.shows_event hi, hall.shows_event hi, hall.shows_event hi, include_both hall]
    · have hno : ∀ p, (run calls).nodes[i]? ≠ some (.event p) := fun p hi => hevent ⟨p, hi⟩
      simp [Shows, hno, include_both hall]
  events := by
    intro i p hi
    have hall := run_excludes calls
    refine ⟨hall.events i p hi, fun filter => ?_⟩
    rw [hall.shows_event hi]
    simp [Shows, hall.event_parent hi]
  others := by
    intro i node hi hnode filter
    have hall := run_excludes calls
    have hmarker : ∀ submit m, (run calls).nodes[i]? ≠ some (.renderMarker submit m) := by
      rcases hnode with rfl | rfl <;> simp [hi]
    refine ⟨hall.shows_other hmarker filter, fun p hp => ?_⟩
    rcases hnode with rfl | rfl <;> simp [hi] at hp

end FilterCreator

end Dive
