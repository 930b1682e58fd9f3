import Dive.Perf.DrawIndices

/-!
# Draw identification across passes

* `FilterCreator.hierarchy`: the nodes that the correlator sees of a PM4 hierarchy.
* `IdentifiesDraws`: draws outside the tile passes are numbered, those of a tile pass have the
  indices of their binning pass or, without one, their own, and no two render passes share one.
* `Mirrors`: a tile pass has as many draws as its binning pass, and no other draw comes between.
* **`identifiesDraws_iff`**: every draw is identified exactly when each tile pass with draws
  mirrors its binning pass.
* **`unbinnedTile_not_identified`**: a tile pass without a binning pass, after a direct pass.
-/

namespace Dive

open Correlator CommandHierarchy

/-! ## Counting in an interval -/

section Counting

variable {P Q : ℕ → Bool} {m n : ℕ}

theorem count_interval (hmn : m ≤ n) (h : ∀ k, m ≤ k → k < n → Q k = true → P k = true) :
    Nat.count (Q · = true) n + Nat.count (P · = true) m ≤
        Nat.count (P · = true) n + Nat.count (Q · = true) m ∧
      (Nat.count (Q · = true) n + Nat.count (P · = true) m =
        Nat.count (P · = true) n + Nat.count (Q · = true) m ↔
          ∀ k, m ≤ k → k < n → P k = true → Q k = true) := by
  induction n, hmn using Nat.le_induction with
  | base =>
    refine ⟨by omega, iff_of_true (by omega) fun k hk hkm => absurd hk (by omega)⟩
  | succ n hmn ih =>
    obtain ⟨hle, heq⟩ := ih fun k hk hkn => h k hk (hkn.trans n.lt_succ_self)
    have hlast := h n hmn n.lt_succ_self
    rw [Nat.count_succ, Nat.count_succ]
    have hforall : (∀ k, m ≤ k → k < n + 1 → P k = true → Q k = true) ↔
        (∀ k, m ≤ k → k < n → P k = true → Q k = true) ∧ (P n = true → Q n = true) := by
      constructor
      · exact fun hall => ⟨fun k hk hkn => hall k hk (hkn.trans n.lt_succ_self),
          hall n hmn n.lt_succ_self⟩
      · rintro ⟨hall, hn⟩ k hk hkn
        rcases Nat.lt_succ_iff_lt_or_eq.mp hkn with hlt | rfl
        · exact hall k hk hlt
        · exact hn
    rw [hforall, ← heq]
    by_cases hP : P n = true <;> by_cases hQ : Q n = true
    · simp only [hP, hQ, if_true, implies_true, and_true]
      omega
    · simp only [hP, hQ, Bool.false_eq_true, if_true, if_false, true_implies, and_false, iff_false]
      omega
    · exact absurd (hlast hQ) hP
    · simp only [hP, hQ, Bool.false_eq_true, if_false, false_implies, and_true]
      omega

theorem exists_count_eq {j : ℕ} (h : j < Nat.count (P · = true) n) :
    ∃ i < n, P i = true ∧ Nat.count (P · = true) i = j := by
  induction n with
  | zero => exact absurd h (Nat.not_lt_zero j)
  | succ n ih =>
    by_cases hj : j < Nat.count (P · = true) n
    · obtain ⟨i, hi, hP, hcount⟩ := ih hj
      exact ⟨i, hi.trans n.lt_succ_self, hP, hcount⟩
    · rw [Nat.count_succ] at h
      split_ifs at h with hP
      · exact ⟨n, n.lt_succ_self, hP, by omega⟩
      · exact absurd h hj

end Counting

/-! ## What identification is -/

section Identification

variable (drawOf : ℕ → ℕ → Bool) (tile own : ℕ → Bool) (binningOf : ℕ → ℕ → Prop)
  (renderPass : ℕ → ℕ) (index : ℕ → Option ℕ)

/-- **The draws are identified across passes.** `drawOf p i`: node `i` is a draw of pass `p`. -/
structure IdentifiesDraws : Prop where
  /-- Outside tile passes, in the order of appearance. -/
  numbered : ∀ p i, drawOf p i = true → tile p = false →
    index i = some (Nat.count (own · = true) i)
  /-- The `j`-th draw of a tile pass is the `j`-th of its binning pass. -/
  binned : ∀ p i b, drawOf p i = true → tile p = true → binningOf p b →
    ∃ i', drawOf b i' = true ∧
      Nat.count (drawOf b · = true) i' = Nat.count (drawOf p · = true) i ∧ index i = index i'
  unbinned : ∀ p i, drawOf p i = true → tile p = true → (∀ b, ¬ binningOf p b) →
    ∃ d, index i = some d ∧ ∀ p' i', drawOf p' i' = true → index i' = some d → i' = i
  apart : ∀ p i p' i' d, drawOf p i = true → drawOf p' i' = true →
    renderPass p ≠ renderPass p' → index i = some d → index i' ≠ some d

/-- The tile pass has as many draws as the binning pass, and between them there is no draw outside
the tile passes. -/
structure Mirrors (length p b : ℕ) : Prop where
  draws : Nat.count (drawOf p · = true) length = Nat.count (drawOf b · = true) length
  between : ∀ p' i, drawOf p' i = true → tile p' = false → b < i → i < p → p' = b

/-- Each tile pass with a draw has a binning pass that it mirrors. -/
def TilesMirrored (length : ℕ) : Prop :=
  ∀ p i, drawOf p i = true → tile p = true →
    (∃ b, binningOf p b) ∧ ∀ b, binningOf p b → Mirrors drawOf tile length p b

end Identification

namespace CommandHierarchy

variable {H : CommandHierarchy} {i n p b : ℕ}

theorem inPass_iff : inPass H p i = true ↔ isDrawAt H i = true ∧ passAt H i = p := by
  rw [inPass, Bool.and_eq_true, decide_eq_true_eq]

theorem own_iff : own H i = true ↔ ∃ p, inPass H p i = true ∧ isTilePass H p = false := by
  simp only [own, inPass_iff, Bool.and_eq_true, Bool.not_eq_true']
  constructor
  · exact fun h => ⟨_, ⟨h.1, rfl⟩, h.2⟩
  · rintro ⟨p, ⟨hdraw, rfl⟩, htile⟩
    exact ⟨hdraw, htile⟩

theorem lt_of_inPass (hb : H[b]?.any HierarchyNode.starts = true) (h : inPass H b i = true) :
    b < i := by
  obtain ⟨hdraw, hpass⟩ := inPass_iff.mp h
  refine lt_of_le_of_ne (hpass ▸ passAt_le i) fun heq => ?_
  rw [← heq, isDrawAt_of_starts hb] at hdraw
  exact Bool.false_ne_true hdraw

theorem numInPass_start (hb : H[b]?.any HierarchyNode.starts = true) : numInPass H b b = 0 :=
  Nat.count_iff_forall_not.mpr fun _ hi h => absurd (lt_of_inPass hb h) (Nat.not_lt.mpr hi.le)

/-- **The indices of a pass** outside the tile passes follow each other. -/
theorem numOwn_of_inPass (hb : H[b]?.any HierarchyNode.starts = true)
    (htile : isTilePass H b = false) (h : inPass H b i = true) :
    numOwn H i = numOwn H b + numInPass H b i := by
  have hlt := lt_of_inPass hb h
  have hpass := (inPass_iff.mp h).2
  have hcount := (@count_interval (own H) (inPass H b) b i hlt.le fun k _ _ hin =>
    own_iff.mpr ⟨b, hin, htile⟩).2.mpr fun k hk hki hown => by
      obtain ⟨p, hin, -⟩ := own_iff.mp hown
      obtain ⟨hdraw, rfl⟩ := inPass_iff.mp hin
      refine inPass_iff.mpr ⟨hdraw, le_antisymm (hpass ▸ passAt_mono hki.le) ?_⟩
      refine le_passAt hb (lt_of_le_of_ne hk fun heq => ?_)
      rw [← heq, isDrawAt_of_starts hb] at hdraw
      exact Bool.false_ne_true hdraw
  have hzero := numInPass_start hb
  simp only [numOwn, numInPass] at hcount hzero ⊢
  omega

theorem inPass_of_later (hp : H[p]?.any HierarchyNode.starts = true) (hbp : b < p) (hpi : p ≤ i) :
    inPass H b i = false := by
  by_contra hin
  obtain ⟨hdraw, hpass⟩ := inPass_iff.mp (Bool.eq_true_of_not_eq_false hin)
  rcases hpi.lt_or_eq with hlt | rfl
  · have := le_passAt hp hlt
    omega
  · rw [isDrawAt_of_starts hp] at hdraw
    exact Bool.false_ne_true hdraw

/-- **Between two passes**: the draws outside the tile passes are those of the first pass, exactly
when there are no others. -/
theorem numOwn_between (hb : H[b]?.any HierarchyNode.starts = true)
    (htile : isTilePass H b = false) (hp : H[p]?.any HierarchyNode.starts = true) (hbp : b < p)
    (hlen : p ≤ H.length) :
    numOwn H b + numInPass H b H.length ≤ numOwn H p ∧
      (numOwn H b + numInPass H b H.length = numOwn H p ↔
        ∀ p' i, inPass H p' i = true → isTilePass H p' = false → b < i → i < p → p' = b) := by
  obtain ⟨hle, heq⟩ := @count_interval (own H) (inPass H b) b p hbp.le fun k _ _ hin =>
    own_iff.mpr ⟨b, hin, htile⟩
  have hzero := numInPass_start hb
  have hended : numInPass H b H.length = numInPass H b p :=
    count_eq_of_forall hlen fun i hi _ => by simp [inPass_of_later hp hbp hi]
  have hforall : (∀ k, b ≤ k → k < p → own H k = true → inPass H b k = true) ↔
      ∀ p' i, inPass H p' i = true → isTilePass H p' = false → b < i → i < p → p' = b := by
    constructor
    · intro h p' i hin htile' hbi hip
      have hin' := h i hbi.le hip (own_iff.mpr ⟨p', hin, htile'⟩)
      exact (inPass_iff.mp hin).2.symm.trans (inPass_iff.mp hin').2
    · intro h k hk hkp hown
      obtain ⟨p', hin, htile'⟩ := own_iff.mp hown
      rcases hk.lt_or_eq with hlt | rfl
      · exact h p' k hin htile' hlt hkp ▸ hin
      · rw [inPass_iff, isDrawAt_of_starts hb] at hin
        exact absurd hin.1 Bool.false_ne_true
  rw [← hforall, ← heq]
  simp only [numOwn, numInPass] at hle heq hzero hended ⊢
  constructor <;> omega

/-! ## Identification in a hierarchy -/

section Hierarchy

variable {binningOf : ℕ → ℕ → Prop} {renderPass : ℕ → ℕ}

/-- What a binning pass of a tile pass is. -/
structure BinningPasses (H : CommandHierarchy) (binningOf : ℕ → ℕ → Prop)
    (renderPass : ℕ → ℕ) : Prop where
  lt : ∀ p b, binningOf p b → b < p
  starts : ∀ p b, binningOf p b → H[b]?.any HierarchyNode.starts = true
  not_tile : ∀ p b, binningOf p b → isTilePass H b = false
  renderPass_eq : ∀ p b, binningOf p b → renderPass b = renderPass p

theorem drawIndex_of_own (h : own H i = true) : drawIndex H i = some (numOwn H i) := by
  rw [drawIndex, if_pos h]

theorem drawIndex_of_tile (h : inPass H p i = true) (htile : isTilePass H p = true) :
    drawIndex H i = aliasIndex H p i := by
  obtain ⟨hdraw, rfl⟩ := inPass_iff.mp h
  have hown : own H i = false := by rw [own, htile, Bool.not_true, Bool.and_false]
  rw [drawIndex, hown, if_neg Bool.false_ne_true, if_pos hdraw]

theorem length_of_tile (htile : isTilePass H p = true) : p ≤ H.length := by
  obtain ⟨node, hnode, -⟩ := (Option.any_eq_true _ _).mp htile
  exact (List.getElem?_eq_some_iff.mp hnode).1.le

theorem numInPass_lt (h : inPass H p i = true) : numInPass H p i < numInPass H p H.length :=
  Nat.count_strict_mono h (lt_length_of_isDrawAt (inPass_iff.mp h).1)

theorem exists_own_of_tile (h : inPass H p i = true) (htile : isTilePass H p = true) {d : ℕ}
    (hindex : drawIndex H i = some d) : ∃ i', own H i' = true ∧ drawIndex H i' = some d := by
  rw [drawIndex_of_tile h htile, aliasIndex] at hindex
  split_ifs at hindex with hle
  cases hindex
  have hlt := numInPass_lt h
  obtain ⟨i', -, hown, hcount⟩ := @exists_count_eq (own H) p
    (numOwn H p - numInPass H p H.length + numInPass H p i) (by simp only [numOwn] at hle ⊢; omega)
  exact ⟨i', hown, by rw [drawIndex_of_own hown]; exact congrArg some hcount⟩

/-- **One draw of a tile pass that mirrors its binning pass.** -/
theorem drawIndex_of_mirrors (hB : BinningPasses H binningOf renderPass)
    (h : inPass H p i = true) (htile : isTilePass H p = true) (hb : binningOf p b)
    (hmirrors : Mirrors (inPass H) (isTilePass H) H.length p b) :
    drawIndex H i = some (numOwn H b + numInPass H p i) := by
  have hbetween := (numOwn_between (hB.starts p b hb) (hB.not_tile p b hb)
    (starts_of_isTilePass htile) (hB.lt p b hb) (length_of_tile htile)).2.mpr hmirrors.between
  have hdraws : numInPass H p H.length = numInPass H b H.length := hmirrors.draws
  have hle : numInPass H p H.length ≤ numOwn H p := by omega
  rw [drawIndex_of_tile h htile, aliasIndex, if_pos hle]
  congr 1
  omega

/-- **Mirrored tile passes are identified.** -/
theorem identifies_of_mirrored (hB : BinningPasses H binningOf renderPass)
    (h : TilesMirrored (inPass H) (isTilePass H) binningOf H.length) :
    IdentifiesDraws (inPass H) (isTilePass H) (own H) binningOf renderPass (drawIndex H) := by
  -- each index is that of a draw outside the tile passes in the same render pass
  have hown : ∀ p i d, inPass H p i = true → drawIndex H i = some d →
      ∃ p' i', inPass H p' i' = true ∧ own H i' = true ∧ numOwn H i' = d ∧
        renderPass p' = renderPass p := by
    intro p i d hin hd
    by_cases htile : isTilePass H p = true
    · obtain ⟨⟨b, hb⟩, hmirrors⟩ := h p i hin htile
      have hm := hmirrors b hb
      rw [drawIndex_of_mirrors hB hin htile hb hm] at hd
      cases hd
      have hlt := numInPass_lt hin
      obtain ⟨i', -, hin', hcount⟩ := @exists_count_eq (inPass H b) H.length (numInPass H p i)
        (hm.draws ▸ hlt)
      refine ⟨b, i', hin', own_iff.mpr ⟨b, hin', hB.not_tile p b hb⟩, ?_, hB.renderPass_eq p b hb⟩
      rw [numOwn_of_inPass (hB.starts p b hb) (hB.not_tile p b hb) hin']
      exact congrArg (numOwn H b + ·) hcount
    · have hown := own_iff.mpr ⟨p, hin, Bool.eq_false_of_not_eq_true htile⟩
      rw [drawIndex_of_own hown] at hd
      exact ⟨p, i, hin, hown, Option.some.inj hd, rfl⟩
  refine ⟨?numbered, ?binned, ?unbinned, ?apart⟩
  case numbered => exact fun p i hin htile => drawIndex_of_own (own_iff.mpr ⟨p, hin, htile⟩)
  case binned =>
    intro p i b hin htile hb
    have hm := (h p i hin htile).2 b hb
    have hlt := numInPass_lt hin
    obtain ⟨i', -, hin', hcount⟩ := @exists_count_eq (inPass H b) H.length (numInPass H p i)
      (hm.draws ▸ hlt)
    refine ⟨i', hin', hcount, ?_⟩
    rw [drawIndex_of_mirrors hB hin htile hb hm,
      drawIndex_of_own (own_iff.mpr ⟨b, hin', hB.not_tile p b hb⟩),
      numOwn_of_inPass (hB.starts p b hb) (hB.not_tile p b hb) hin']
    exact congrArg (fun j => some (numOwn H b + j)) hcount.symm
  case unbinned =>
    intro p i hin htile hno
    obtain ⟨b, hb⟩ := (h p i hin htile).1
    exact absurd hb (hno b)
  case apart =>
    intro p i p' i' d hin hin' hne hd hd'
    obtain ⟨q, j, hjin, hjown, hj, hq⟩ := hown p i d hin hd
    obtain ⟨q', j', hjin', hjown', hj', hq'⟩ := hown p' i' d hin' hd'
    have heq : j = j' := Nat.count_injective hjown hjown' (hj.trans hj'.symm)
    subst heq
    have hpass : q = q' := (inPass_iff.mp hjin).2.symm.trans (inPass_iff.mp hjin').2
    exact hne (hq.symm.trans ((congrArg renderPass hpass).trans hq'))

/-- **Identified tile passes are mirrored.** -/
theorem mirrored_of_identifies (hB : BinningPasses H binningOf renderPass)
    (h : IdentifiesDraws (inPass H) (isTilePass H) (own H) binningOf renderPass (drawIndex H)) :
    TilesMirrored (inPass H) (isTilePass H) binningOf H.length := by
  intro p i hin htile
  constructor
  · by_contra hno
    obtain ⟨d, hd, hself⟩ := h.unbinned p i hin htile fun b hb => hno ⟨b, hb⟩
    obtain ⟨i', hown, hd'⟩ := exists_own_of_tile hin htile hd
    obtain ⟨p', hin', htile'⟩ := own_iff.mp hown
    have heq := hself p' i' hin' hd'
    subst heq
    have hpass : p' = p := (inPass_iff.mp hin').2.symm.trans (inPass_iff.mp hin).2
    rw [hpass, htile] at htile'
    exact Bool.false_ne_true htile'.symm
  · intro b hb
    have hpos : 0 < numInPass H p H.length := (Nat.zero_le _).trans_lt (numInPass_lt hin)
    -- the index of each draw of the tile pass is that of its counterpart
    have hindex : ∀ j < numInPass H p H.length, j < numInPass H b H.length ∧
        numInPass H p H.length ≤ numOwn H p ∧
        numOwn H p - numInPass H p H.length + j = numOwn H b + j := by
      intro j hj
      obtain ⟨k, -, hk, hcount⟩ := exists_count_eq hj
      obtain ⟨k', hk', hcount', heq⟩ := h.binned p k b hk htile hb
      have hlt := numInPass_lt hk'
      rw [drawIndex_of_tile hk htile, aliasIndex,
        drawIndex_of_own (own_iff.mpr ⟨b, hk', hB.not_tile p b hb⟩),
        numOwn_of_inPass (hB.starts p b hb) (hB.not_tile p b hb) hk'] at heq
      split_ifs at heq with hle
      have heq := Option.some.inj heq
      simp only [numInPass] at hcount hcount' heq hlt hle ⊢
      rw [hcount', hcount] at hlt heq
      exact ⟨hlt, hle, heq⟩
    obtain ⟨hle, hiff⟩ := numOwn_between (hB.starts p b hb) (hB.not_tile p b hb)
      (starts_of_isTilePass htile) (hB.lt p b hb) (length_of_tile htile)
    obtain ⟨hlast, hown, hzero⟩ := hindex (numInPass H p H.length - 1) (by omega)
    have hdraws : numInPass H p H.length = numInPass H b H.length := by omega
    exact ⟨hdraws, hiff.mp (by omega)⟩

end Hierarchy

end CommandHierarchy

/-! ## The hierarchy of a capture -/

namespace FilterCreator

section Nodes

variable (C : FilterCreator) (types : ℕ → EventType)

/-- A node, as the correlator sees it; `GetEventNodeType` is given. -/
def hierarchyNode (node : FilterNode × ℕ) : HierarchyNode :=
  match node.1 with
  | .submit => .kSubmitNode
  | .renderMarker _ _ =>
    .kRenderMarkerNode (decide (node.2 ∈ C.filterExcludeIndices .kBinningPassOnly))
  | .event _ => .kEventNode (types node.2)
  | .other => .other

def hierarchy : CommandHierarchy := C.nodes.zipIdx.map (C.hierarchyNode types)

/-- A draw or dispatch event of a pass. -/
def drawOf (p i : ℕ) : Bool :=
  C.nodes[i]? = some (.event p) && (types i = .kDraw || types i = .kDispatch)

/-- The marker of a tile or resolve pass. -/
def tilePass (p : ℕ) : Bool :=
  match C.nodes[p]? with
  | some (.renderMarker _ m) => m.isTile
  | _ => false

/-- A draw outside the tile passes. -/
def ownDraw (i : ℕ) : Bool :=
  match C.nodes[i]? with
  | some (.event p) => C.drawOf types p i && !C.tilePass p
  | _ => false

/-- The binning pass of the render pass of a tile pass. -/
def BinningOf (renderPass : ℕ → ℕ) (p b : ℕ) : Prop :=
  b < p ∧ renderPass b = renderPass p ∧
    ∃ submit, C.nodes[b]? = some (.renderMarker submit .binVisibility)

/-- The index that the correlator gives a node. -/
def drawFromNode (i : ℕ) : Option ℕ :=
  (analyzeCommands {} (C.hierarchy types)).getDrawFromNode (some i)

/-- **The draws of a capture are identified across passes**, with the nodes of one render pass
under one number. -/
def Identifies (renderPass : ℕ → ℕ) : Prop :=
  IdentifiesDraws (C.drawOf types) C.tilePass (C.ownDraw types) (C.BinningOf renderPass) renderPass
    (C.drawFromNode types)

/-- Each tile pass with draws mirrors its binning pass. -/
def Mirrored (renderPass : ℕ → ℕ) : Prop :=
  TilesMirrored (C.drawOf types) C.tilePass (C.BinningOf renderPass) C.nodes.length

end Nodes

variable {C : FilterCreator} {types : ℕ → EventType}

theorem prefix_onCall (C : FilterCreator) (call : FilterCall) :
    C.nodes <+: (C.onCall call).nodes := by
  cases call with
  | submitStart => exact List.prefix_append _ _
  | nodes n => exact List.prefix_append _ _
  | packet p =>
    have hadd : C.nodes <+: (C.addNodes (1 + p.fields)).nodes := List.prefix_append _ _
    simp only [onCall, onPacket]
    split_ifs
    · exact hadd.trans (List.prefix_append _ _)
    · cases p.marker with
      | none => exact hadd
      | some u32All0 =>
        refine hadd.trans ?_
        simp only [setMarker]
        split_ifs
        · rw [(excludeMarker_nodes _ _ _).1]
          exact List.prefix_append _ _
        · exact List.prefix_rfl

theorem run_root (calls : List FilterCall) : (run calls).nodes[0]? = some .other := by
  induction calls using List.reverseRecOn with
  | nil => rfl
  | append_singleton calls call ih =>
    rw [run, List.foldl_append, List.foldl_cons, List.foldl_nil, ← run]
    obtain ⟨l, hl⟩ := prefix_onCall (run calls) call
    rw [← hl]
    exact (List.getElem?_append_left (List.getElem?_eq_some_iff.mp ih).1).trans ih

theorem getElem?_hierarchy (i : ℕ) :
    (C.hierarchy types)[i]? = C.nodes[i]?.map fun node => C.hierarchyNode types (node, i) := by
  rw [hierarchy, List.getElem?_map, List.getElem?_zipIdx, Option.map_map, Nat.zero_add]
  rfl

theorem starts_hierarchy (i : ℕ) :
    (C.hierarchy types)[i]?.any HierarchyNode.starts = C.nodes[i]?.any FilterNode.starts := by
  rw [getElem?_hierarchy]
  cases C.nodes[i]? with
  | none => rfl
  | some node => cases node <;> rfl

theorem passAt_of_passOf {i p : ℕ} (h : PassOf C.nodes i p) :
    passAt (C.hierarchy types) i = p := by
  obtain ⟨hlt, hstart, hbetween⟩ := h
  induction i, hlt using Nat.le_induction with
  | base =>
    rw [passAt, starts_hierarchy]
    split_ifs with hp
    · rfl
    · rcases hstart with rfl | ⟨node, hnode, hstarts⟩
      · rfl
      · exact absurd (by rw [hnode]; exact hstarts) hp
  | succ i hi ih =>
    rw [passAt, starts_hierarchy, if_neg]
    · exact ih fun k node hpk hk => hbetween k node hpk (hk.trans i.lt_succ_self)
    · intro hany
      obtain ⟨node, hnode, hstarts⟩ := (Option.any_eq_true _ _).mp hany
      rw [hbetween i node hi i.lt_succ_self hnode] at hstarts
      exact Bool.false_ne_true hstarts

theorem isDrawAt_hierarchy (i : ℕ) :
    isDrawAt (C.hierarchy types) i = true ↔ ∃ p, C.drawOf types p i = true := by
  rw [isDrawAt, getElem?_hierarchy]
  cases hnode : C.nodes[i]? with
  | none => simp [drawOf, hnode]
  | some node => cases node <;> simp [drawOf, hnode, hierarchyNode, HierarchyNode.isDraw]

theorem inPass_hierarchy (h : C.Excludes) : inPass (C.hierarchy types) = C.drawOf types := by
  funext p i
  rw [Bool.eq_iff_iff, inPass_iff, isDrawAt_hierarchy]
  have hpass : ∀ q, C.drawOf types q i = true → passAt (C.hierarchy types) i = q := by
    intro q hq
    have hnode : C.nodes[i]? = some (.event q) := of_decide_eq_true (Bool.and_eq_true_iff.mp hq).1
    exact passAt_of_passOf (h.events i q hnode)
  constructor
  · rintro ⟨⟨q, hq⟩, rfl⟩
    rw [hpass q hq]
    exact hq
  · exact fun hp => ⟨⟨p, hp⟩, hpass p hp⟩

theorem isTilePass_hierarchy (h : C.Excludes) : isTilePass (C.hierarchy types) = C.tilePass := by
  funext p
  rw [isTilePass, getElem?_hierarchy, tilePass]
  cases hnode : C.nodes[p]? with
  | none => rfl
  | some node =>
    cases node with
    | renderMarker submit m =>
      simp [hierarchyNode, HierarchyNode.isTile, h.excluded, hnode, Marker.Excluded]
    | submit => rfl
    | event q => rfl
    | other => rfl

theorem own_hierarchy (h : C.Excludes) : own (C.hierarchy types) = C.ownDraw types := by
  funext i
  rw [Bool.eq_iff_iff, own_iff, inPass_hierarchy h, isTilePass_hierarchy h, ownDraw]
  cases hnode : C.nodes[i]? with
  | none => simp [drawOf, hnode]
  | some node => cases node <;> simp [drawOf, hnode]

/-- **Draw identification.** For every sequence of calls of the creator, every type of its events
and every grouping of its passes into render passes, the correlator identifies the draws exactly
when each tile pass with draws mirrors its binning pass. -/
theorem identifiesDraws_iff (calls : List FilterCall) (types : ℕ → EventType)
    (renderPass : ℕ → ℕ) :
    (run calls).Identifies types renderPass ↔ (run calls).Mirrored types renderPass := by
  have h := run_excludes calls
  have hroot : Rooted ((run calls).hierarchy types) := by
    rw [Rooted, starts_hierarchy, run_root]
    rfl
  have hgfxr : ∀ node ∈ (run calls).hierarchy types, node.isGfxrDraw = false := by
    intro node hnode
    obtain ⟨⟨filterNode, i⟩, -, rfl⟩ := List.mem_map.mp hnode
    cases filterNode <;> rfl
  have hindex : (run calls).drawFromNode types = drawIndex ((run calls).hierarchy types) :=
    funext fun i => getDrawFromNode_eq hroot hgfxr {} i
  have hlen : ((run calls).hierarchy types).length = (run calls).nodes.length := by
    simp [hierarchy]
  have hB : BinningPasses ((run calls).hierarchy types) ((run calls).BinningOf renderPass)
      renderPass := by
    refine ⟨fun p b hb => hb.1, fun p b hb => ?_, fun p b hb => ?_, fun p b hb => hb.2.1⟩
    · obtain ⟨-, -, submit, hnode⟩ := hb
      rw [starts_hierarchy, hnode]
      rfl
    · obtain ⟨-, -, submit, hnode⟩ := hb
      rw [isTilePass_hierarchy h, tilePass, hnode]
      rfl
  rw [Identifies, Mirrored, hindex, ← hlen, ← inPass_hierarchy h, ← own_hierarchy h,
    ← @isTilePass_hierarchy (run calls) types h]
  exact ⟨mirrored_of_identifies hB, identifies_of_mirrored hB⟩

/-! ## A tile pass without a binning pass -/

/-- A direct pass with a draw and, in another render pass, a tile pass with a draw. -/
def unbinnedTile : List FilterCall :=
  [.submitStart, .packet { marker := some 1 }, .packet { isEvent := true },
    .packet { marker := some 4 }, .packet { isEvent := true }]

/-- **The draw of a tile pass without a binning pass** has the index of an earlier draw of another
render pass. -/
theorem unbinnedTile_not_identified :
    ¬ (run unbinnedTile).Identifies (fun _ => .kDraw) fun node => node := by
  intro h
  exact h.apart 3 5 7 9 0 (by decide) (by decide) (by decide) (by decide) (by decide)

end FilterCreator

end Dive
