import Dive.Hierarchy.Filters
import Dive.Lib.Monitor

/-!
# The first tile of a tiled pass

* `StartsTiledPass`, `InTileZero`: the first tile pass after a binning pass, or of a submit, and
  what is in that tile.
* `ShowsOnly`: the filters show the binning passes, the first tiles, and both.
* `PassOrder`: the orders of passes in which the creator finds the first tiles.
* **`run_showsOnly_iff`**: the filters show what they are for exactly in those orders.
-/

namespace Dive

/-! ## Tiles -/

/-- The tile pass of node `j` is the first one of its submit, or after a binning pass. -/
def StartsTiledPass (nodes : List FilterNode) (submit j : ℕ) : Prop :=
  nodes[j]? = some (.renderMarker submit .binRenderStart) ∧
    ∀ k < j, nodes[k]? = some (.renderMarker submit .binRenderStart) →
      ∃ v, k < v ∧ v < j ∧ nodes[v]? = some (.renderMarker submit .binVisibility)

/-- Before node `i`, no tile pass has started since the last binning pass of the submit. -/
def Untiled (nodes : List FilterNode) (submit i : ℕ) : Prop :=
  ∀ k < i, nodes[k]? = some (.renderMarker submit .binRenderStart) →
    ∃ v, k < v ∧ v < i ∧ nodes[v]? = some (.renderMarker submit .binVisibility)

/-- Before node `i`, the first tile pass has started, and neither another one nor a binning pass. -/
def OneTile (nodes : List FilterNode) (submit i : ℕ) : Prop :=
  ∃ j < i, StartsTiledPass nodes submit j ∧ ∀ k, j < k → k < i →
    nodes[k]? ≠ some (.renderMarker submit .binRenderStart) ∧
      nodes[k]? ≠ some (.renderMarker submit .binVisibility)

/-- A tile pass that is the first one of a tiled pass, or a resolve pass of that tile. -/
def InTileZero (nodes : List FilterNode) (i : ℕ) : Prop :=
  ∃ submit marker, nodes[i]? = some (.renderMarker submit marker) ∧ marker.isTile ∧
    OneTile nodes submit (i + 1)

variable {nodes l : List FilterNode} {submit i j : ℕ} {node : FilterNode}

theorem startsTiledPass_append (hj : j < nodes.length) :
    StartsTiledPass (nodes ++ l) submit j ↔ StartsTiledPass nodes submit j := by
  rw [StartsTiledPass, StartsTiledPass, List.getElem?_append_left hj]
  refine and_congr_right fun _ => forall_congr' fun k => forall_congr' fun hk => ?_
  rw [List.getElem?_append_left (hk.trans hj)]
  refine imp_congr_right fun _ => exists_congr fun v => and_congr_right fun _ =>
    and_congr_right fun hv => ?_
  rw [List.getElem?_append_left (hv.trans hj)]

theorem untiled_append (hi : i ≤ nodes.length) :
    Untiled (nodes ++ l) submit i ↔ Untiled nodes submit i := by
  refine forall_congr' fun k => forall_congr' fun hk => ?_
  rw [List.getElem?_append_left (hk.trans_le hi)]
  refine imp_congr_right fun _ => exists_congr fun v => and_congr_right fun _ =>
    and_congr_right fun hv => ?_
  rw [List.getElem?_append_left (hv.trans_le hi)]

theorem oneTile_append (hi : i ≤ nodes.length) :
    OneTile (nodes ++ l) submit i ↔ OneTile nodes submit i := by
  refine exists_congr fun j => and_congr_right fun hj => ?_
  rw [startsTiledPass_append (hj.trans_le hi)]
  refine and_congr_right fun _ => forall_congr' fun k => forall_congr' fun _ =>
    forall_congr' fun hk => ?_
  rw [List.getElem?_append_left (hk.trans_le hi)]

theorem untiled_succ : Untiled nodes submit (i + 1) ↔
    nodes[i]? = some (.renderMarker submit .binVisibility) ∨
      (nodes[i]? ≠ some (.renderMarker submit .binRenderStart) ∧ Untiled nodes submit i) := by
  constructor
  · intro h
    by_cases hvis : nodes[i]? = some (.renderMarker submit .binVisibility)
    · exact .inl hvis
    · refine .inr ⟨fun hstart => ?_, fun k hk hstart => ?_⟩
      · obtain ⟨v, hiv, hv, -⟩ := h i (Nat.lt_succ_self i) hstart
        omega
      · obtain ⟨v, hkv, hv, hnode⟩ := h k (Nat.lt_succ_of_lt hk) hstart
        rcases Nat.lt_succ_iff_lt_or_eq.mp hv with hlt | rfl
        · exact ⟨v, hkv, hlt, hnode⟩
        · exact absurd hnode hvis
  · rintro (hvis | ⟨hno, h⟩) k hk hstart
    · rcases Nat.lt_succ_iff_lt_or_eq.mp hk with hlt | rfl
      · exact ⟨i, hlt, Nat.lt_succ_self i, hvis⟩
      · cases hvis.symm.trans hstart
    · rcases Nat.lt_succ_iff_lt_or_eq.mp hk with hlt | rfl
      · obtain ⟨v, hkv, hv, hnode⟩ := h k hlt hstart
        exact ⟨v, hkv, Nat.lt_succ_of_lt hv, hnode⟩
      · exact absurd hstart hno

theorem oneTile_succ : OneTile nodes submit (i + 1) ↔
    (nodes[i]? = some (.renderMarker submit .binRenderStart) ∧ Untiled nodes submit i) ∨
      (nodes[i]? ≠ some (.renderMarker submit .binRenderStart) ∧
        nodes[i]? ≠ some (.renderMarker submit .binVisibility) ∧ OneTile nodes submit i) := by
  constructor
  · rintro ⟨j, hj, hstarts, hno⟩
    rcases Nat.lt_succ_iff_lt_or_eq.mp hj with hlt | rfl
    · obtain ⟨hstart, hvis⟩ := hno i hlt (Nat.lt_succ_self i)
      exact .inr ⟨hstart, hvis, j, hlt, hstarts, fun k hjk hk => hno k hjk (Nat.lt_succ_of_lt hk)⟩
    · exact .inl hstarts
  · rintro (hstarts | ⟨hstart, hvis, j, hj, hstarts, hno⟩)
    · exact ⟨i, Nat.lt_succ_self i, hstarts, fun k hik hk => absurd hk (by omega)⟩
    · refine ⟨j, Nat.lt_succ_of_lt hj, hstarts, fun k hjk hk => ?_⟩
      rcases Nat.lt_succ_iff_lt_or_eq.mp hk with hlt | rfl
      · exact hno k hjk hlt
      · exact ⟨hstart, hvis⟩

theorem untiled_concat : Untiled (nodes ++ [node]) submit (nodes.length + 1) ↔
    node = .renderMarker submit .binVisibility ∨
      (node ≠ .renderMarker submit .binRenderStart ∧ Untiled nodes submit nodes.length) := by
  rw [untiled_succ, untiled_append le_rfl]
  simp

theorem oneTile_concat : OneTile (nodes ++ [node]) submit (nodes.length + 1) ↔
    (node = .renderMarker submit .binRenderStart ∧ Untiled nodes submit nodes.length) ∨
      (node ≠ .renderMarker submit .binRenderStart ∧ node ≠ .renderMarker submit .binVisibility ∧
        OneTile nodes submit nodes.length) := by
  rw [oneTile_succ, untiled_append le_rfl, oneTile_append le_rfl]
  simp

theorem untiled_of_absent (h : ∀ (k : ℕ) m, nodes[k]? ≠ some (.renderMarker submit m)) :
    Untiled nodes submit i ∧ ¬ OneTile nodes submit i :=
  ⟨fun k _ hk => absurd hk (h k _), fun ⟨j, _, hj, _⟩ => h j _ hj.1⟩

/-! ## The order of the passes -/

/-- What matters of the calls for the filters. -/
inductive PassMark
  | submit
  | pass (marker : Marker)
  | event

/-- The node that the call adds, if it starts a submit or a pass or is an event. -/
def FilterCall.mark : FilterCall → Option PassMark
  | .submitStart => some .submit
  | .packet p =>
    if p.isEvent then some .event
    else (p.marker.map Marker.ofDword).bind fun m => if m.desc.isSome then some (.pass m) else none
  | .nodes _ => none

/-- Where a submit is: in front of its first pass, at resolve passes without a tile, or behind a
binning pass, the first tile pass, its resolve pass and the second tile pass. -/
inductive PassOrder
  | outside
  | unbinned
  | binned
  | tile
  | resolved
  | later
  deriving DecidableEq

/-- Only binning, tile and resolve passes. Behind a binning pass comes a tile pass, then a resolve
pass, then a tile pass, then any of them; in front of the first one come no tile passes, and in
front of the first pass no events. -/
def PassOrder.next : PassOrder → PassMark → Option PassOrder
  | _, .submit => some .outside
  | .outside, .event => none
  | o, .event => some o
  | _, .pass .binVisibility => some .binned
  | .outside, .pass .binResolve => some .unbinned
  | .unbinned, .pass .binResolve => some .unbinned
  | .binned, .pass .binRenderStart => some .tile
  | .tile, .pass .binResolve => some .resolved
  | .resolved, .pass .binRenderStart => some .later
  | .later, .pass .binRenderStart => some .later
  | .later, .pass .binResolve => some .later
  | _, .pass _ => none

/-- The passes of the capture come in such an order. -/
def PassesOrdered (calls : List FilterCall) : Prop :=
  ∃ o, Monitor.run PassOrder.next .outside (calls.filterMap FilterCall.mark) = some o

namespace FilterCreator

variable {C : FilterCreator} {o o' : PassOrder}

/-! ## What the filters are for -/

/-- Of the passes and events, the first filter shows the binning passes, the second one the first
tiles, and the third one both. -/
structure ShowsOnly (C : FilterCreator) : Prop where
  binning : ∀ (i : ℕ) submit m, C.nodes[i]? = some (.renderMarker submit m) →
    (C.Shows .kBinningPassOnly i ↔ m = .binVisibility)
  firstTile : ∀ (i : ℕ) submit m, C.nodes[i]? = some (.renderMarker submit m) →
    (C.Shows .kFirstTilePassOnly i ↔ InTileZero C.nodes i)
  both : ∀ i, C.Shows .kBinningAndFirstTilePass i ↔
    C.Shows .kBinningPassOnly i ∨ C.Shows .kFirstTilePassOnly i
  /-- An event is shown with the pass that it is in. -/
  events : ∀ (i p : ℕ), C.nodes[i]? = some (.event p) → PassOf C.nodes i p ∧
    (C.Shows .kBinningPassOnly i ↔
      ∃ submit, C.nodes[p]? = some (.renderMarker submit .binVisibility)) ∧
    (C.Shows .kFirstTilePassOnly i ↔ InTileZero C.nodes p)

/-- What the filters need of a node for that. -/
def Right (nodes : List FilterNode) (i : ℕ) : FilterNode → Prop
  | .renderMarker submit m => (m = .binVisibility ∨ m.isTile) ∧
    (m.isTile → (Tracks nodes submit i ↔ OneTile nodes submit (i + 1)))
  | .event p => ∃ submit m, nodes[p]? = some (.renderMarker submit m)
  | .submit | .other => True

theorem inTileZero_marker {m : Marker} (hi : nodes[i]? = some (.renderMarker submit m)) :
    InTileZero nodes i ↔ m.isTile ∧ OneTile nodes submit (i + 1) := by
  simp [InTileZero, hi]

theorem Excludes.showsOnly_iff (h : C.Excludes) (hright : C.ShowsRight) :
    C.ShowsOnly ↔ ∀ (i : ℕ) node, C.nodes[i]? = some node → Right C.nodes i node := by
  constructor
  · intro honly i node hi
    cases node with
    | submit => trivial
    | other => trivial
    | renderMarker submit m =>
      have hbinning := (hright.binning i submit m hi).symm.trans (honly.binning i submit m hi)
      have hfirst := (hright.firstTile i submit m hi).symm.trans (honly.firstTile i submit m hi)
      have hin : InFirstTile C.nodes i ↔ m.isTile ∧ Tracks C.nodes submit i := by
        simp [InFirstTile, hi]
      rw [inTileZero_marker hi, hin] at hfirst
      refine ⟨?_, fun htile => ?_⟩
      · cases htile : m.isTile with
        | false => exact .inl (hbinning.mp htile)
        | true => exact .inr rfl
      · have hne : m ≠ .binVisibility := by
          rintro rfl
          cases htile
        simpa [htile, hne] using hfirst
    | event p =>
      obtain ⟨-, hbinning, -⟩ := honly.events i p hi
      rw [h.shows_event hi] at hbinning
      by_contra hno
      have hno' : ∀ submit m, C.nodes[p]? ≠ some (.renderMarker submit m) :=
        fun submit m hp => hno ⟨submit, m, hp⟩
      obtain ⟨submit, hp⟩ := hbinning.mp (h.shows_other hno' _)
      exact hno' _ _ hp
  · intro hnodes
    have hmarker : ∀ (i : ℕ) submit m, C.nodes[i]? = some (.renderMarker submit m) →
        (C.Shows .kBinningPassOnly i ↔ m = .binVisibility) ∧
          (C.Shows .kFirstTilePassOnly i ↔ InTileZero C.nodes i) := by
      intro i submit m hi
      obtain ⟨hkind, htracks⟩ := hnodes i _ hi
      have hin : InFirstTile C.nodes i ↔ m.isTile ∧ Tracks C.nodes submit i := by
        simp [InFirstTile, hi]
      rw [hright.binning i submit m hi, hright.firstTile i submit m hi, inTileZero_marker hi, hin]
      rcases hkind with rfl | htile
      · simp [Marker.isTile]
      · have hne : m ≠ .binVisibility := by
          rintro rfl
          cases htile
        simp [htile, hne, htracks htile]
    refine ⟨fun i submit m hi => (hmarker i submit m hi).1,
      fun i submit m hi => (hmarker i submit m hi).2, hright.both, fun i p hi => ?_⟩
    obtain ⟨submit, m, hp⟩ := hnodes i _ hi
    obtain ⟨hpass, hshows⟩ := hright.events i p hi
    refine ⟨hpass, ?_, ?_⟩
    · rw [hshows, (hmarker p submit m hp).1, hp]
      simp
    · rw [hshows, (hmarker p submit m hp).2]

/-- All nodes are right. -/
def AllRight (nodes : List FilterNode) : Prop :=
  ∀ (i : ℕ) node, nodes[i]? = some node → Right nodes i node

theorem right_append (hi : i < nodes.length) (hp : ∀ p, node = .event p → p < nodes.length) :
    Right (nodes ++ l) i node ↔ Right nodes i node := by
  cases node with
  | submit => exact Iff.rfl
  | other => exact Iff.rfl
  | renderMarker submit m =>
    exact and_congr_right fun _ => imp_congr_right fun _ =>
      iff_congr (tracks_append hi.le) (oneTile_append hi)
  | event p =>
    refine exists_congr fun submit => exists_congr fun m => ?_
    rw [List.getElem?_append_left (hp p rfl)]

theorem Excludes.allRight_of_append (h : C.Excludes) (hall : AllRight (C.nodes ++ l)) :
    AllRight C.nodes := by
  intro i x hi
  have hlt := (List.getElem?_eq_some_iff.mp hi).1
  refine (right_append hlt fun p hx => ?_).mp (hall i x ((List.getElem?_append_left hlt).trans hi))
  subst hx
  exact (h.events i p hi).1.trans hlt

theorem Excludes.allRight_concat (h : C.Excludes) :
    AllRight (C.nodes ++ [node]) ↔
      AllRight C.nodes ∧ Right (C.nodes ++ [node]) C.nodes.length node := by
  constructor
  · exact fun hall => ⟨h.allRight_of_append hall, hall _ _ (by simp)⟩
  · rintro ⟨hall, hnode⟩ i x hi
    rw [getElem?_concat_eq] at hi
    split_ifs at hi with hlt heq
    · refine (right_append hlt fun p hx => ?_).mpr (hall i x hi)
      subst hx
      exact (h.events i p hi).1.trans hlt
    · obtain rfl := Option.some.inj hi
      rw [heq]
      exact hnode

/-! ## The creator in such an order -/

/-- The nodes, where a submit is. -/
structure Ordered (C : FilterCreator) (o : PassOrder) : Prop where
  root : ∀ submit m, C.nodes[C.curSubmitNodeIndex]? ≠ some (.renderMarker submit m)
  marker : ∀ p, C.renderMarkerIndex = some p →
    ∃ submit m, C.nodes[p]? = some (.renderMarker submit m)
  outside : C.renderMarkerIndex = none ↔ o = .outside
  tracks : Tracks C.nodes C.curSubmitNodeIndex C.nodes.length ↔ o = .binned ∨ o = .tile
  untiled : Untiled C.nodes C.curSubmitNodeIndex C.nodes.length ↔
    o = .outside ∨ o = .unbinned ∨ o = .binned
  oneTile : OneTile C.nodes C.curSubmitNodeIndex C.nodes.length ↔ o = .tile ∨ o = .resolved

theorem Ordered.concat (hC : C.Ordered o) (h : C.Excludes) (hnode : node.starts = false) :
    Ordered { C with nodes := C.nodes ++ [node] } o where
  root := by
    intro submit m
    rw [List.getElem?_append_left h.submit]
    exact hC.root submit m
  marker := by
    intro p hp
    obtain ⟨submit, m, hm⟩ := hC.marker p hp
    exact ⟨submit, m, (List.getElem?_append_left (List.getElem?_eq_some_iff.mp hm).1).trans hm⟩
  outside := hC.outside
  tracks := by
    rw [List.length_append, List.length_singleton, tracks_concat, ← hC.tracks]
    cases node <;> simp [FilterNode.starts] at hnode ⊢
  untiled := by
    rw [List.length_append, List.length_singleton, untiled_concat, ← hC.untiled]
    cases node <;> simp [FilterNode.starts] at hnode ⊢
  oneTile := by
    rw [List.length_append, List.length_singleton, oneTile_concat, ← hC.oneTile]
    cases node <;> simp [FilterNode.starts] at hnode ⊢

theorem Ordered.addNodes (hC : C.Ordered o) (h : C.Excludes) (n : ℕ) :
    (C.addNodes n).Ordered o ∧ (AllRight (C.addNodes n).nodes ↔ AllRight C.nodes) := by
  induction n generalizing C with
  | zero => simpa [FilterCreator.addNodes] using hC
  | succ n ih =>
    obtain ⟨hone, hall⟩ := ih (hC.concat h (show FilterNode.other.starts = false from rfl))
      (h.concat rfl fun p hp => by cases hp)
    rw [h.allRight_concat, and_iff_left (show Right _ _ .other from trivial)] at hall
    have hnodes : (C.addNodes (n + 1)) =
        FilterCreator.addNodes { C with nodes := C.nodes ++ [.other] } n := by
      simp [FilterCreator.addNodes, List.replicate_succ]
    rw [hnodes]
    exact ⟨hone, hall⟩

theorem Ordered.onSubmitStart (h : C.Excludes) : C.onSubmitStart.Ordered .outside := by
  have habsent : ∀ (k : ℕ) m,
      (C.nodes ++ [.submit])[k]? ≠ some (.renderMarker C.nodes.length m) := by
    intro k m hk
    rw [getElem?_concat_eq] at hk
    split_ifs at hk
    · exact absurd (h.parents k _ _ hk) (Nat.not_le.mpr h.submit)
    · cases hk
  obtain ⟨huntiled, hone⟩ := @untiled_of_absent _ _ (C.nodes ++ [FilterNode.submit]).length habsent
  refine ⟨fun submit m hm => ?_, (fun p hp => by cases hp), iff_of_true rfl rfl, ?_, ?_, ?_⟩
  · rw [FilterCreator.onSubmitStart, getElem?_concat_eq] at hm
    simp at hm
  · refine iff_of_false ?_ (by simp)
    rintro ⟨j, -, hvis, -⟩
    exact habsent j _ hvis
  · exact iff_of_true huntiled (.inl rfl)
  · exact iff_of_false hone (by simp)

theorem Ordered.addMarkerNode (hC : C.Ordered o) (h : C.Excludes) (m : Marker) :
    (Right (C.nodes ++ [.renderMarker C.curSubmitNodeIndex m]) C.nodes.length
      (.renderMarker C.curSubmitNodeIndex m) ↔ ∃ o', o.next (.pass m) = some o') ∧
    ∀ o', o.next (.pass m) = some o' → (C.addMarkerNode m).Ordered o' := by
  constructor
  · rw [Right, tracks_append le_rfl, oneTile_concat, hC.tracks, hC.untiled, hC.oneTile]
    cases m <;> cases o <;> simp [Marker.isTile, PassOrder.next]
  · intro o' ho
    refine ⟨fun submit m' => ?_, fun p hp => ?_, ?_, ?_, ?_, ?_⟩
    · rw [FilterCreator.addMarkerNode, List.getElem?_append_left h.submit]
      exact hC.root submit m'
    · obtain rfl := Option.some.inj hp
      exact ⟨_, m, List.getElem?_concat_length⟩
    · refine iff_of_false (Option.some_ne_none _) ?_
      rintro rfl
      cases o <;> cases m <;> cases ho
    · rw [FilterCreator.addMarkerNode, List.length_append, List.length_singleton, tracks_concat,
        hC.tracks]
      cases o <;> cases m <;> cases ho <;> simp
    · rw [FilterCreator.addMarkerNode, List.length_append, List.length_singleton, untiled_concat,
        hC.untiled]
      cases o <;> cases m <;> cases ho <;> simp
    · rw [FilterCreator.addMarkerNode, List.length_append, List.length_singleton, oneTile_concat,
        hC.untiled, hC.oneTile]
      cases o <;> cases m <;> cases ho <;> simp

theorem Ordered.congr {C' : FilterCreator} (hC : C.Ordered o) (hnodes : C'.nodes = C.nodes)
    (hsubmit : C'.curSubmitNodeIndex = C.curSubmitNodeIndex)
    (hmarker : C'.renderMarkerIndex = C.renderMarkerIndex) : C'.Ordered o where
  root := by rw [hnodes, hsubmit]; exact hC.root
  marker := by rw [hnodes, hmarker]; exact hC.marker
  outside := by rw [hmarker]; exact hC.outside
  tracks := by rw [hnodes, hsubmit]; exact hC.tracks
  untiled := by rw [hnodes, hsubmit]; exact hC.untiled
  oneTile := by rw [hnodes, hsubmit]; exact hC.oneTile

/-- What a call with a mark, or none, does. -/
def Advances (C C' : FilterCreator) (o : PassOrder) : Option PassMark → Prop
  | none => C'.Ordered o ∧ (AllRight C'.nodes ↔ AllRight C.nodes)
  | some mark => (∀ o', o.next mark = some o' → C'.Ordered o') ∧
    (AllRight C'.nodes ↔ AllRight C.nodes ∧ ∃ o', o.next mark = some o')

theorem Ordered.addEvent (hC : C.Ordered o) (h : C.Excludes) :
    Advances C C.addEvent o (some .event) := by
  have hparent : C.renderMarkerIndex.getD C.curSubmitNodeIndex < C.nodes.length := h.pass.1
  refine ⟨fun o' ho => ?_, ?_⟩
  · obtain rfl : o = o' := by cases o <;> cases ho <;> rfl
    exact hC.concat h rfl
  · rw [FilterCreator.addEvent, h.allRight_concat]
    refine and_congr_right fun _ => ?_
    rw [Right, List.getElem?_append_left hparent]
    cases hindex : C.renderMarkerIndex with
    | none =>
      obtain rfl := hC.outside.mp hindex
      refine iff_of_false ?_ ?_
      · rintro ⟨submit, m, hm⟩
        exact hC.root submit m hm
      · rintro ⟨o', ho'⟩
        cases ho'
    | some p =>
      have ho : o ≠ .outside := fun ho => by cases hindex.symm.trans (hC.outside.mpr ho)
      refine iff_of_true (hC.marker p hindex) ⟨o, ?_⟩
      cases o with
      | outside => exact absurd rfl ho
      | _ => rfl

theorem Ordered.setMarker (hC : C.Ordered o) (h : C.Excludes) (m : Marker) :
    Advances C (C.setMarker m) o (if m.desc.isSome then some (.pass m) else none) := by
  rw [FilterCreator.setMarker]
  split_ifs with hdesc
  · obtain ⟨hnodes, hsubmit, hmarker⟩ := (C.addMarkerNode m).excludeMarker_nodes C.nodes.length m
    obtain ⟨hright, hordered⟩ := hC.addMarkerNode h m
    refine ⟨fun o' ho => (hordered o' ho).congr hnodes hsubmit hmarker, ?_⟩
    rw [hnodes, FilterCreator.addMarkerNode, h.allRight_concat, hright]
  · exact ⟨hC, Iff.rfl⟩

theorem Advances.behind {C' : FilterCreator} {mark : Option PassMark} {n : ℕ}
    (hall : AllRight (C.addNodes n).nodes ↔ AllRight C.nodes)
    (hadvances : Advances (C.addNodes n) C' o mark) : Advances C C' o mark := by
  cases mark with
  | none => exact ⟨hadvances.1, hadvances.2.trans hall⟩
  | some mark => exact ⟨hadvances.1, hadvances.2.trans (and_congr_left fun _ => hall)⟩

/-- **One call.** -/
theorem Ordered.onCall (hC : C.Ordered o) (h : C.Excludes) (call : FilterCall) :
    Advances C (C.onCall call) o call.mark := by
  cases call with
  | submitStart =>
    refine ⟨fun o' ho => ?_, ?_⟩
    · obtain rfl : .outside = o' := by cases o <;> exact Option.some.inj ho
      exact Ordered.onSubmitStart h
    · have hnext : ∃ o', o.next .submit = some o' := by cases o <;> exact ⟨_, rfl⟩
      rw [FilterCreator.onCall, FilterCreator.onSubmitStart, h.allRight_concat]
      exact and_congr_right fun _ => iff_of_true trivial hnext
  | nodes n => exact hC.addNodes h n
  | packet p =>
    obtain ⟨hnodes, hall⟩ := hC.addNodes h (1 + p.fields)
    have hexcludes := h.addNodes (1 + p.fields)
    rw [FilterCreator.onCall, FilterCreator.onPacket, FilterCall.mark]
    split_ifs
    · exact (hnodes.addEvent hexcludes).behind hall
    · cases p.marker with
      | none => exact ⟨hnodes, hall⟩
      | some u32All0 => exact (hnodes.setMarker hexcludes _).behind hall

theorem ordered_empty : Ordered {} .outside where
  root := by simp
  marker p hp := by cases hp
  outside := iff_of_true rfl rfl
  tracks := by
    refine iff_of_false ?_ (by simp)
    rintro ⟨j, -, hvis, -⟩
    have := List.mem_of_getElem? hvis
    simp at this
  untiled := iff_of_true (untiled_of_absent fun k m hk => by
    have := List.mem_of_getElem? hk
    simp at this).1 (.inl rfl)
  oneTile := iff_of_false (untiled_of_absent fun k m hk => by
    have := List.mem_of_getElem? hk
    simp at this).2 (by simp)

theorem nodes_onCall (call : FilterCall) : ∃ l, (C.onCall call).nodes = C.nodes ++ l := by
  cases call with
  | submitStart => exact ⟨_, rfl⟩
  | nodes n => exact ⟨_, rfl⟩
  | packet p =>
    rw [FilterCreator.onCall, FilterCreator.onPacket]
    split_ifs
    · exact ⟨_, List.append_assoc _ _ _⟩
    · cases p.marker with
      | none => exact ⟨_, rfl⟩
      | some u32All0 =>
        simp only [FilterCreator.setMarker]
        split_ifs
        · rw [(excludeMarker_nodes _ _ _).1]
          exact ⟨_, List.append_assoc _ _ _⟩
        · exact ⟨_, rfl⟩

theorem run_ordered (calls : List FilterCall) :
    (∀ o, Monitor.run PassOrder.next .outside (calls.filterMap FilterCall.mark) = some o →
      (run calls).Ordered o) ∧ (AllRight (run calls).nodes ↔ PassesOrdered calls) := by
  induction calls using List.reverseRecOn with
  | nil =>
    refine ⟨fun o ho => ?_, iff_of_true ?_ ⟨_, rfl⟩⟩
    · obtain rfl := Option.some.inj ho
      exact ordered_empty
    · intro i node hi
      obtain rfl : node = .other := by
        have := List.mem_of_getElem? hi
        simpa [run] using this
      trivial
  | append_singleton calls call ih =>
    obtain ⟨ihordered, ihall⟩ := ih
    have hrun : run (calls ++ [call]) = (run calls).onCall call := by
      rw [run, List.foldl_append]
      rfl
    have hstep := fun o ho => (ihordered o ho).onCall (run_excludes calls) call
    have hbefore : AllRight ((run calls).onCall call).nodes → AllRight (run calls).nodes := by
      obtain ⟨l, hl⟩ := (run calls).nodes_onCall call
      rw [hl]
      exact (run_excludes calls).allRight_of_append
    rw [PassesOrdered, List.filterMap_append, hrun]
    cases hmark : call.mark with
    | none =>
      rw [hmark] at hstep
      rw [List.filterMap_cons_none hmark, List.filterMap_nil, List.append_nil]
      refine ⟨fun o ho => (hstep o ho).1, fun hall => ihall.mp (hbefore hall), ?_⟩
      rintro ⟨o, ho⟩
      exact (hstep o ho).2.mpr (ihall.mpr ⟨o, ho⟩)
    | some mark =>
      rw [hmark] at hstep
      rw [List.filterMap_cons_some hmark, List.filterMap_nil]
      refine ⟨fun o' ho' => ?_, fun hall => ?_, ?_⟩
      · obtain ⟨o, o'', ho, hnext, hnil⟩ := Monitor.run_split ho'
        exact (hstep o ho).1 o' (hnext.trans hnil)
      · obtain ⟨o, ho⟩ := ihall.mp (hbefore hall)
        obtain ⟨-, o', hnext⟩ := (hstep o ho).2.mp hall
        exact ⟨o', (Monitor.run_append_of ho).trans (Monitor.run_cons_of hnext)⟩
      · rintro ⟨o', ho'⟩
        obtain ⟨o, o'', ho, hnext, -⟩ := Monitor.run_split ho'
        exact (hstep o ho).2.mpr ⟨ihall.mpr ⟨o, ho⟩, o'', hnext⟩

/-- **The filters of a capture.** For every sequence of calls, the first filter shows just the
binning passes, the second one just the first tile of each tiled pass, and the third one both,
exactly when the passes come in that order. -/
theorem run_showsOnly_iff (calls : List FilterCall) :
    (run calls).ShowsOnly ↔ PassesOrdered calls :=
  ((run_excludes calls).showsOnly_iff (run_shows calls)).trans (run_ordered calls).2

/-- A binning pass, and two tiles with one resolve pass. -/
def unresolvedCalls : List FilterCall :=
  [.submitStart, .packet { marker := some 2 }, .packet { marker := some 4 },
    .packet { marker := some 4 }, .packet { marker := some 6 }]

/-- The second tile pass is shown with the first one. -/
theorem unresolvedCalls_shows : (run unresolvedCalls).nodes[7]? =
      some (.renderMarker 1 .binRenderStart) ∧
    (run unresolvedCalls).Shows .kFirstTilePassOnly 7 ∧ ¬(run unresolvedCalls).ShowsOnly := by
  have hnode : (run unresolvedCalls).nodes[7]? = some (.renderMarker 1 .binRenderStart) := rfl
  have hshown : (run unresolvedCalls).Shows .kFirstTilePassOnly 7 := by
    refine ⟨by unfold includeIndex; decide, fun p hp => ?_⟩
    rw [hnode] at hp
    cases hp
  refine ⟨hnode, hshown, fun honly => ?_⟩
  -- the first tile pass is node 5, with no binning pass between
  obtain ⟨submit, m, hm, -, j, hj, ⟨hstart, hfirst⟩, hno⟩ :=
    (honly.firstTile 7 1 _ hnode).mp hshown
  rw [hnode] at hm
  cases hm
  have hj' : j = 7 := by
    by_contra hne
    exact (hno 7 (by omega) (by omega)).1 hnode
  subst hj'
  obtain ⟨v, hv, hv', hvis⟩ := hfirst 5 (by omega) rfl
  obtain rfl : v = 6 := by omega
  exact absurd hvis (by decide)

end FilterCreator

end Dive
