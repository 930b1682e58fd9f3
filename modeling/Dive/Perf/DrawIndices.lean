import Dive.Perf.Metrics
import Dive.Hierarchy.Filters
import Mathlib.Data.Nat.Count

/-!
# The draw indices of a command hierarchy

* `passAt`, `own`, `inPass`: the pass of a node, the draws outside the tile passes, and the draws
  of a pass.
* `drawIndex`: the index of a draw: its number among the draws outside the tile passes or, in a tile
  pass, that of one of the last of them.
* `Extracts`: what the loop of `ExtractDraws` keeps; **`getDrawFromNode_eq`**.
-/

namespace Dive

/-! ## The nodes of a hierarchy -/

namespace HierarchyNode

/-- A submit or a render marker, where the current pass ends. -/
def starts : HierarchyNode → Bool
  | .kSubmitNode => true
  | .kRenderMarkerNode _ => true
  | _ => false

/-- `is_draw_or_dispatch`. -/
def isDraw : HierarchyNode → Bool
  | .kEventNode type => type = .kDraw || type = .kDispatch
  | _ => false

/-- A render marker in the list of the binning-pass filter. -/
def isTile : HierarchyNode → Bool
  | .kRenderMarkerNode binningPassOnlyExcluded => binningPassOnlyExcluded
  | _ => false

/-- A Vulkan draw of a GFXR capture. -/
def isGfxrDraw : HierarchyNode → Bool
  | .kGfxrVulkanDrawCommandNode => true
  | _ => false

end HierarchyNode

namespace CommandHierarchy

variable (H : CommandHierarchy)

/-- The node at which the pass of a node starts, or `0` before the first. -/
def passAt : ℕ → ℕ
  | 0 => 0
  | i + 1 => if H[i]?.any HierarchyNode.starts then i else passAt i

def isDrawAt (i : ℕ) : Bool := H[i]?.any HierarchyNode.isDraw

def isTilePass (p : ℕ) : Bool := H[p]?.any HierarchyNode.isTile

/-- A draw outside the tile passes. -/
def own (i : ℕ) : Bool := isDrawAt H i && !isTilePass H (passAt H i)

/-- A draw of a pass. -/
def inPass (p i : ℕ) : Bool := isDrawAt H i && passAt H i = p

/-- How many draws before a node are outside the tile passes. -/
def numOwn (n : ℕ) : ℕ := Nat.count (own H · = true) n

/-- How many draws of a pass are before a node. -/
def numInPass (p n : ℕ) : ℕ := Nat.count (inPass H p · = true) n

/-- The index of a draw of a tile pass: of the last draws before the pass outside tile passes, as
many as it has. -/
def aliasIndex (p i : ℕ) : Option ℕ :=
  if numInPass H p H.length ≤ numOwn H p then
    some (numOwn H p - numInPass H p H.length + numInPass H p i)
  else none

/-- The index of a node. -/
def drawIndex (i : ℕ) : Option ℕ :=
  if own H i then some (numOwn H i)
  else if isDrawAt H i then aliasIndex H (passAt H i) i
  else none

/-! ## Passes -/

variable {H : CommandHierarchy} {i j n p : ℕ}

theorem passAt_le (i : ℕ) : passAt H i ≤ i := by
  induction i with
  | zero => rfl
  | succ i ih =>
    rw [passAt]
    split_ifs
    · exact Nat.le_succ i
    · exact ih.trans (Nat.le_succ i)

theorem passAt_lt (h : 0 < i) : passAt H i < i := by
  cases i with
  | zero => exact absurd h (lt_irrefl 0)
  | succ i =>
    rw [passAt]
    split_ifs
    · exact Nat.lt_succ_self i
    · exact Nat.lt_succ_of_le (passAt_le i)

theorem passAt_mono : Monotone (passAt H) := by
  refine monotone_nat_of_le_succ fun i => ?_
  rw [passAt]
  split_ifs
  · exact passAt_le i
  · exact le_rfl

theorem le_passAt (hp : H[p]?.any HierarchyNode.starts = true) (h : p < i) : p ≤ passAt H i := by
  have hsucc : passAt H (p + 1) = p := by rw [passAt, if_pos hp]
  exact hsucc.ge.trans (passAt_mono h)

theorem starts_of_isTile {node : HierarchyNode} (h : node.isTile = true) :
    node.starts = true := by
  cases node <;> first | rfl | cases h

theorem isDraw_of_starts {node : HierarchyNode} (h : node.starts = true) :
    node.isDraw = false := by
  cases node <;> first | rfl | cases h

theorem isDrawAt_of_starts (hp : H[p]?.any HierarchyNode.starts = true) :
    isDrawAt H p = false := by
  obtain ⟨node, hnode, hstarts⟩ := (Option.any_eq_true _ _).mp hp
  rw [isDrawAt, hnode]
  exact isDraw_of_starts hstarts

theorem starts_of_isTilePass (h : isTilePass H p = true) :
    H[p]?.any HierarchyNode.starts = true := by
  obtain ⟨node, hnode, htile⟩ := (Option.any_eq_true _ _).mp h
  rw [hnode]
  exact starts_of_isTile htile

/-- The first node is the root of the hierarchy. -/
def Rooted (H : CommandHierarchy) : Prop := H[0]?.any HierarchyNode.starts = false

theorem Rooted.pos (hroot : Rooted H) (hn : H[n]?.any HierarchyNode.starts = true) : 0 < n := by
  refine Nat.pos_of_ne_zero fun hzero => ?_
  subst hzero
  exact Bool.false_ne_true (hroot.symm.trans hn)

theorem inPass_of_ended (hroot : Rooted H) (hn : H[n]?.any HierarchyNode.starts = true)
    (hi : n ≤ i) : inPass H (passAt H n) i = false := by
  by_contra hin
  obtain ⟨hdraw, hpass⟩ := Bool.and_eq_true_iff.mp (Bool.eq_true_of_not_eq_false hin)
  rcases hi.lt_or_eq with hlt | rfl
  · have hle := le_passAt hn hlt
    have hlt' := @passAt_lt H n (hroot.pos hn)
    have := of_decide_eq_true hpass
    omega
  · rw [isDrawAt_of_starts hn] at hdraw
    exact Bool.false_ne_true hdraw

theorem own_of_tile (htile : isTilePass H p = true) (hpi : p ≤ i) (hi : passAt H i ≤ p) :
    own H i = false := by
  have hstarts := starts_of_isTilePass htile
  rcases hpi.lt_or_eq with hlt | rfl
  · rw [own, le_antisymm hi (le_passAt hstarts hlt), htile, Bool.not_true, Bool.and_false]
  · rw [own, isDrawAt_of_starts hstarts, Bool.false_and]

/-! ## Counting -/

theorem count_eq_of_forall {P : ℕ → Prop} [DecidablePred P] {m n : ℕ} (hmn : m ≤ n)
    (h : ∀ i, m ≤ i → i < n → ¬ P i) : Nat.count P n = Nat.count P m := by
  induction n, hmn using Nat.le_induction with
  | base => rfl
  | succ n hmn ih =>
    rw [Nat.count_succ, if_neg (h n hmn n.lt_succ_self), Nat.add_zero]
    exact ih fun i hmi hi => h i hmi (hi.trans n.lt_succ_self)

theorem length_filter_range (P : ℕ → Bool) (n : ℕ) :
    ((List.range n).filter P).length = Nat.count (P · = true) n := by
  induction n with
  | zero => rfl
  | succ n ih =>
    rw [List.range_succ, List.filter_append, List.length_append, ih, Nat.count_succ]
    by_cases h : P n = true <;> simp [h]

theorem numInPass_of_ended (hroot : Rooted H) (hn : H[n]?.any HierarchyNode.starts = true)
    {m : ℕ} (h : n ≤ m) : numInPass H (passAt H n) m = numInPass H (passAt H n) n :=
  count_eq_of_forall h fun i hi _ => by simp [inPass_of_ended hroot hn hi]

theorem numOwn_of_tile (htile : isTilePass H (passAt H n) = true) :
    numOwn H n = numOwn H (passAt H n) :=
  count_eq_of_forall (passAt_le n) fun i hi hin => by
    simp [own_of_tile htile hi (passAt_mono hin.le)]

theorem assignDraws_filter_range (m : ℕ → IndexWrapper) (base : ℕ) (P : ℕ → Bool) (n i : ℕ) :
    Correlator.assignDraws m base ((List.range n).filter P) i =
      if i < n ∧ P i = true then some (base + Nat.count (P · = true) i) else m i := by
  induction n with
  | zero => simp [Correlator.assignDraws]
  | succ n ih =>
    rw [Correlator.assignDraws] at ih ⊢
    rw [List.range_succ, List.filter_append, List.zipIdx_append, List.foldl_append]
    by_cases hn : P n = true
    · have hcons : List.filter P [n] = [n] := by simp [hn]
      rw [hcons, List.zipIdx_singleton, List.foldl_cons, List.foldl_nil, length_filter_range,
        Nat.zero_add]
      dsimp only
      by_cases hi : i = n
      · subst hi
        rw [Function.update_self, if_pos ⟨i.lt_succ_self, hn⟩]
      · rw [Function.update_of_ne hi, ih]
        exact if_congr (and_congr_left fun _ => by omega) rfl rfl
    · have hnil : List.filter P [n] = [] := by simp [hn]
      rw [hnil, List.zipIdx_nil, List.foldl_nil, ih]
      refine if_congr ⟨fun h => ⟨h.1.trans n.lt_succ_self, h.2⟩, fun h => ⟨?_, h.2⟩⟩ rfl rfl
      refine lt_of_le_of_ne (Nat.lt_succ_iff.mp h.1) fun hi => hn (hi ▸ h.2)

/-! ## The loop -/

/-- **What the loop keeps**, before node `n`. -/
structure Extracts (H : CommandHierarchy) (n : ℕ) (s : Correlator.Extraction) : Prop where
  actual : s.actualDraws = (List.range n).filter (own H)
  isAlias : s.drawsIsAlias = isTilePass H (passAt H n)
  aliases : s.aliasDraws =
    if isTilePass H (passAt H n) then (List.range n).filter (inPass H (passAt H n)) else []
  gfxr : s.gfxrDraws = []
  /-- Draws of the tile passes that have ended have their indices. -/
  nodeToDraw : ∀ i, s.nodeToDraw i =
    if i < n ∧ isDrawAt H i = true ∧ isTilePass H (passAt H i) = true ∧
      passAt H i ≠ passAt H n then aliasIndex H (passAt H i) i else none

variable {s : Correlator.Extraction}

/-- **The end of a pass.** -/
theorem Extracts.dedupe (h : Extracts H n s)
    (hcount : numInPass H (passAt H n) H.length = numInPass H (passAt H n) n) (i : ℕ) :
    (Correlator.dedupe s).nodeToDraw i =
      if i < n ∧ isDrawAt H i = true ∧ isTilePass H (passAt H i) = true then
        aliasIndex H (passAt H i) i
      else none := by
  by_cases htile : isTilePass H (passAt H n) = true
  · have halias := h.aliases
    rw [if_pos htile] at halias
    have hlen : s.aliasDraws.length = numInPass H (passAt H n) H.length := by
      rw [halias, length_filter_range, hcount]
      rfl
    have hown : s.actualDraws.length = numOwn H (passAt H n) := by
      rw [h.actual, length_filter_range, ← numOwn_of_tile htile]
      rfl
    by_cases hin : i < n ∧ inPass H (passAt H n) i = true
    · obtain ⟨hdraw, hpass⟩ := Bool.and_eq_true_iff.mp hin.2
      have hpass : passAt H i = passAt H n := of_decide_eq_true hpass
      rw [if_pos ⟨hin.1, hdraw, by rw [hpass, htile]⟩, hpass, aliasIndex, ← hlen, ← hown]
      simp only [Correlator.dedupe]
      split_ifs with hle
      · nth_rewrite 2 [halias]
        rw [assignDraws_filter_range, if_pos hin]
        rfl
      · rw [h.nodeToDraw, if_neg fun hc => hc.2.2.2 hpass]
    · have hold : (Correlator.dedupe s).nodeToDraw i = s.nodeToDraw i := by
        simp only [Correlator.dedupe]
        split_ifs with hle
        · nth_rewrite 2 [halias]
          rw [assignDraws_filter_range, if_neg hin]
        · rfl
      rw [hold, h.nodeToDraw]
      refine if_congr ⟨fun hc => ⟨hc.1, hc.2.1, hc.2.2.1⟩, fun hc => ⟨hc.1, hc.2.1, hc.2.2, ?_⟩⟩
        rfl rfl
      exact fun hpass => hin ⟨hc.1, by rw [inPass, hc.2.1, hpass]; simp⟩
  · have halias := h.aliases
    rw [if_neg htile] at halias
    have hold : (Correlator.dedupe s).nodeToDraw i = s.nodeToDraw i := by
      simp [Correlator.dedupe, halias, Correlator.assignDraws]
    rw [hold, h.nodeToDraw]
    refine if_congr ⟨fun hc => ⟨hc.1, hc.2.1, hc.2.2.1⟩, fun hc => ⟨hc.1, hc.2.1, hc.2.2, ?_⟩⟩
      rfl rfl
    exact fun hpass => htile (hpass ▸ hc.2.2)

theorem Rooted.not_tile (hroot : Rooted H) : isTilePass H 0 = false := by
  by_contra htile
  have hstarts := starts_of_isTilePass (Bool.eq_true_of_not_eq_false htile)
  exact absurd (hroot.pos hstarts) (lt_irrefl 0)

theorem Extracts.empty (hroot : Rooted H) : Extracts H 0 {} where
  actual := rfl
  isAlias := hroot.not_tile.symm
  aliases := by simp
  gfxr := rfl
  nodeToDraw := fun i => by simp

theorem filter_range_succ (P : ℕ → Bool) (n : ℕ) : (List.range (n + 1)).filter P =
    (List.range n).filter P ++ if P n then [n] else [] := by
  rw [List.range_succ, List.filter_append, List.filter_cons, List.filter_nil]

theorem Extracts.start (h : Extracts H n s) (hroot : Rooted H)
    (hlt : n < H.length) (hstarts : H[n]?.any HierarchyNode.starts = true) :
    Extracts H (n + 1) { Correlator.dedupe s with drawsIsAlias := isTilePass H n } := by
  have hpass : passAt H (n + 1) = n := by rw [passAt, if_pos hstarts]
  have hdraw := isDrawAt_of_starts hstarts
  refine ⟨?actual, by rw [hpass], ?aliases, h.gfxr, fun i => ?nodeToDraw⟩
  case actual =>
    rw [filter_range_succ, own, hdraw, Bool.false_and]
    simpa [Correlator.dedupe] using h.actual
  case aliases =>
    have hnone : (List.range (n + 1)).filter (inPass H n) = [] := by
      refine List.filter_eq_nil_iff.mpr fun i hi hin => ?_
      obtain ⟨hdraw', hpass'⟩ := Bool.and_eq_true_iff.mp hin
      rcases Nat.lt_succ_iff_lt_or_eq.mp (List.mem_range.mp hi) with hlt | rfl
      · have := @passAt_le H i
        have := of_decide_eq_true hpass'
        omega
      · exact Bool.false_ne_true (hdraw.symm.trans hdraw')
    rw [hpass, hnone, ite_self]
    rfl
  case nodeToDraw =>
    have hcount := numInPass_of_ended hroot hstarts hlt.le
    rw [hpass, h.dedupe hcount i]
    refine if_congr ⟨fun hc => ⟨hc.1.trans n.lt_succ_self, hc.2.1, hc.2.2, ?_⟩,
      fun hc => ⟨?_, hc.2.1, hc.2.2.1⟩⟩ rfl rfl
    · have := @passAt_le H i
      exact fun heq => absurd hc.1 (by omega)
    · rcases Nat.lt_succ_iff_lt_or_eq.mp hc.1 with hlt | rfl
      · exact hlt
      · exact absurd (hdraw.symm.trans hc.2.1) Bool.false_ne_true

theorem Extracts.other (h : Extracts H n s)
    (hstarts : H[n]?.any HierarchyNode.starts = false) (hdraw : isDrawAt H n = false) :
    Extracts H (n + 1) s := by
  have hpass : passAt H (n + 1) = passAt H n := by
    rw [passAt, hstarts, if_neg Bool.false_ne_true]
  refine ⟨?_, by rw [hpass]; exact h.isAlias, ?_, h.gfxr, fun i => ?_⟩
  · rw [filter_range_succ, own, hdraw, Bool.false_and]
    simpa using h.actual
  · rw [filter_range_succ, inPass, hdraw, Bool.false_and, hpass]
    simpa using h.aliases
  · rw [hpass, h.nodeToDraw]
    refine if_congr ⟨fun hc => ⟨hc.1.trans n.lt_succ_self, hc.2⟩, fun hc => ⟨?_, hc.2⟩⟩ rfl rfl
    rcases Nat.lt_succ_iff_lt_or_eq.mp hc.1 with hlt | rfl
    · exact hlt
    · exact absurd (hdraw.symm.trans hc.2.1) Bool.false_ne_true

theorem Extracts.draw (h : Extracts H n s) (hdraw : isDrawAt H n = true) :
    Extracts H (n + 1)
      (if s.drawsIsAlias then { s with aliasDraws := s.aliasDraws ++ [n] }
      else { s with actualDraws := s.actualDraws ++ [n] }) := by
  have hstarts : H[n]?.any HierarchyNode.starts = false := by
    by_contra hstarts
    rw [isDrawAt_of_starts (Bool.eq_true_of_not_eq_false hstarts)] at hdraw
    exact Bool.false_ne_true hdraw
  have hpass : passAt H (n + 1) = passAt H n := by
    rw [passAt, hstarts, if_neg Bool.false_ne_true]
  have hin : inPass H (passAt H n) n = true := by simp [inPass, hdraw]
  have hmap : ∀ i, s.nodeToDraw i =
      if i < n + 1 ∧ isDrawAt H i = true ∧ isTilePass H (passAt H i) = true ∧
        passAt H i ≠ passAt H (n + 1) then aliasIndex H (passAt H i) i else none := by
    intro i
    rw [hpass, h.nodeToDraw]
    refine if_congr ⟨fun hc => ⟨hc.1.trans n.lt_succ_self, hc.2⟩, fun hc => ⟨?_, hc.2⟩⟩ rfl rfl
    refine lt_of_le_of_ne (Nat.lt_succ_iff.mp hc.1) fun heq => hc.2.2.2 (by rw [heq])
  cases htile : isTilePass H (passAt H n) with
  | true =>
    rw [if_pos (h.isAlias.trans htile)]
    refine ⟨?_, by rw [hpass]; exact h.isAlias, ?_, h.gfxr, hmap⟩
    · rw [filter_range_succ, own, htile, hdraw]
      simpa using h.actual
    · rw [filter_range_succ, hpass, hin, htile, if_pos rfl, if_pos rfl, h.aliases, htile,
        if_pos rfl]
  | false =>
    rw [if_neg (by rw [h.isAlias, htile]; exact Bool.false_ne_true)]
    refine ⟨?_, by rw [hpass]; exact h.isAlias, ?_, h.gfxr, hmap⟩
    · rw [filter_range_succ, own, htile, hdraw, h.actual]
      rfl
    · rw [hpass, htile, if_neg Bool.false_ne_true, h.aliases, htile,
        if_neg Bool.false_ne_true]

theorem Extracts.extractNode (h : Extracts H n s) (hroot : Rooted H) {node : HierarchyNode}
    (hnode : H[n]? = some node) (hgfxr : node.isGfxrDraw = false) :
    Extracts H (n + 1) (Correlator.extractNode s (node, n)) := by
  have hlt := (List.getElem?_eq_some_iff.mp hnode).1
  have hdraw : isDrawAt H n = node.isDraw := by rw [isDrawAt, hnode]; rfl
  have hstarts : H[n]?.any HierarchyNode.starts = node.starts := by rw [hnode]; rfl
  have htile : isTilePass H n = node.isTile := by rw [isTilePass, hnode]; rfl
  cases node with
  | kSubmitNode =>
    have hsubmit := h.start hroot hlt hstarts
    rw [htile] at hsubmit
    exact hsubmit
  | kRenderMarkerNode binningPassOnlyExcluded =>
    have hmarker := h.start hroot hlt hstarts
    rw [htile] at hmarker
    cases binningPassOnlyExcluded <;> exact hmarker
  | kGfxrVulkanDrawCommandNode => exact absurd hgfxr.symm Bool.false_ne_true
  | kEventNode type =>
    by_cases htype : type = .kDraw ∨ type = .kDispatch
    · simp only [Correlator.extractNode, htype, if_true]
      refine h.draw (hdraw.trans ?_)
      simpa [HierarchyNode.isDraw] using htype
    · simp only [Correlator.extractNode, htype, if_false]
      refine h.other hstarts (hdraw.trans ?_)
      simpa [HierarchyNode.isDraw] using htype
  | other => exact h.other hstarts hdraw

/-- **The loop.** -/
theorem extracts_take (hroot : Rooted H) (hgfxr : ∀ node ∈ H, node.isGfxrDraw = false)
    (hn : n ≤ H.length) :
    Extracts H n ((H.take n).zipIdx.foldl Correlator.extractNode {}) := by
  induction n with
  | zero => simpa using Extracts.empty hroot
  | succ n ih =>
    rw [List.take_succ_eq_append_getElem hn, List.zipIdx_append, List.foldl_append,
      List.zipIdx_singleton, List.foldl_cons, List.foldl_nil, List.length_take, Nat.zero_add,
      Nat.min_eq_left (Nat.le_of_succ_le hn)]
    exact (ih (Nat.le_of_succ_le hn)).extractNode hroot (List.getElem?_eq_getElem hn)
      (hgfxr _ (List.getElem_mem hn))

theorem lt_length_of_isDrawAt (h : isDrawAt H i = true) : i < H.length := by
  obtain ⟨node, hnode, -⟩ := (Option.any_eq_true _ _).mp h
  exact (List.getElem?_eq_some_iff.mp hnode).1

/-- **The index of a node** of a hierarchy without Vulkan draws. -/
theorem getDrawFromNode_eq (hroot : Rooted H) (hgfxr : ∀ node ∈ H, node.isGfxrDraw = false)
    (c : Correlator) (i : ℕ) :
    (c.analyzeCommands H).getDrawFromNode (some i) = drawIndex H i := by
  have h := extracts_take hroot hgfxr le_rfl
  rw [List.take_length] at h
  have hactual : (Correlator.dedupe (H.zipIdx.foldl Correlator.extractNode {})).actualDraws =
      (List.range H.length).filter (own H) := h.actual
  have hnone : (Correlator.dedupe (H.zipIdx.foldl Correlator.extractNode {})).gfxrDraws = [] :=
    h.gfxr
  show Correlator.assignDraws (Correlator.assignDraws
    (Correlator.dedupe (H.zipIdx.foldl Correlator.extractNode {})).nodeToDraw 0 _) 0 _ i = _
  rw [hactual, hnone, Correlator.assignDraws, List.zipIdx_nil, List.foldl_nil,
    assignDraws_filter_range, h.dedupe rfl, drawIndex, Nat.zero_add]
  by_cases hdraw : isDrawAt H i = true
  · have hlt := lt_length_of_isDrawAt hdraw
    by_cases htile : isTilePass H (passAt H i) = true
    · simp [own, hdraw, htile, hlt]
    · simp [own, hdraw, htile, hlt, numOwn]
  · simp [own, hdraw]

end CommandHierarchy

end Dive
