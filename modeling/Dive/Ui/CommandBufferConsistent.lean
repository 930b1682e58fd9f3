import Dive.Ui.CommandBufferScroll

/-!
# The command-buffer view after a selection

* `Consistent`: what is expected of the view.
* `SelectsWell`: the condition on the topology and the kept scroll-to index.
* **`onSelectionChanged_consistent_iff`**: the view is consistent exactly then.
* `nestedEnd_not_consistent`: the end of a selection below a packet with fields.
-/

namespace Dive.CommandBufferModel

open Tours

/-- What is expected of the view after a selection from `startNode` to `endNode`, whose rows are
`rows`. -/
structure Consistent (h : PacketHierarchy) (t : SelectionTopology) (root startNode endNode : ℕ)
    (rows : List Row) (s : State) : Prop where
  parents : ∀ p x row column, IsIndex t s p → index t s row column p = some x →
    x.isValid = true → x.row = some row ∧ ∃ q, parent s x = some q ∧
      (q = p ∨ q.isValid = false ∧ p.isValid = false)
  children : ∀ p, IsIndex t s p → p.column = 0 → ∃ cs shared,
    (if p.isValid then t.children p.internalId = some cs else cs = []) ∧
      t.sharedChildren (nodeOf root p) = some shared ∧
      rowCount t s p = some (cs ++ shared).length ∧
      ∀ row column, row < (cs ++ shared).length → column < columnCount →
        index t s row column p =
          ((cs ++ shared)[row]?).map fun node => createIndex (some row) column node
  selected : ∀ n, isSelected s n = true ↔ Highlighted h t startNode endNode rows n
  scroll : ∃ p row, IsIndex t s p ∧ index t s row 0 p = some s.scrollToIndex ∧
    s.scrollToIndex.isValid = true ∧ (s.scrollToIndex.internalId = endNode ∨
      p.isValid = true ∧ p.internalId = endNode ∧
        lastField t endNode = some s.scrollToIndex.internalId ∧
        isSelected s s.scrollToIndex.internalId = true)

/-- The selection ends where it should, and the view has an index to scroll to: the index that is
kept when a root is selected. -/
structure SelectsWell (h : PacketHierarchy) (t : SelectionTopology)
    (selected root startNode endNode : ℕ) (rows : List Row) (scrollToIndex : QModelIndex) :
    Prop where
  range : EndsRange h t startNode endNode rows
  scroll : if selected = root
    then IsScrollTarget t endNode rows (Highlighted h t startNode endNode rows) scrollToIndex
    else EndsInView h t startNode endNode rows

section Consistency

variable {h : PacketHierarchy} {t : SelectionTopology} {s : State} {m : Maps}
  {startNode endNode root : ℕ} {ev : List (TourEvent Row)}

theorem OnePath.scroll_iff (hpath : OnePath h t root ev) (hshows : Shows t s root) {x : QModelIndex}
    (selected : ℕ → Prop) :
    (∃ p row, IsIndex t s p ∧ index t s row 0 p = some x ∧ x.isValid = true ∧
      (x.internalId = endNode ∨ p.isValid = true ∧ p.internalId = endNode ∧
        lastField t endNode = some x.internalId ∧ selected x.internalId)) ↔
      IsScrollTarget t endNode (entered ev) selected x := by
  constructor
  · rintro ⟨p, row, hp, hx, hvalid, htarget⟩
    have hrowIndex := hpath.isRowIndex hshows hp
    obtain ⟨hcolumn, r, hr, hparent, rfl, rfl⟩ := hpath.exists_row hshows hrowIndex hx hvalid
    refine ⟨r, hr, rfl, htarget.imp_right fun ⟨hvalid, hnode, hlast⟩ => ?_⟩
    rcases hrowIndex with rfl | ⟨e, he, heq⟩
    · cases hvalid
    · rw [heq] at hnode
      refine ⟨e, he, hnode, ?_, hlast⟩
      rw [hparent, heq]
      rfl
  · rintro ⟨r, hr, rfl, htarget⟩
    obtain ⟨p, hp, hindex⟩ := hpath.isIndex_row hshows r hr
    refine ⟨p, r.row, hp, hindex, rfl, htarget.imp_right fun ⟨e, he, hnode, hparent, hlast⟩ => ?_⟩
    obtain ⟨-, r', hr', hparent', -, heq⟩ :=
      hpath.exists_row hshows (hpath.isRowIndex hshows hp) hindex rfl
    obtain rfl := hpath.eq_of_node hr' hr (congrArg QModelIndex.internalId heq).symm
    rw [hparent] at hparent'
    have hrow : some e.row = p.row := congrArg QModelIndex.row hparent'
    have hvalid : p.isValid = true := by
      rw [QModelIndex.isValid, ← hrow]
      rfl
    have hid : e.node = nodeOf root p := congrArg QModelIndex.internalId hparent'
    rw [nodeOf, if_pos hvalid] at hid
    exact ⟨hvalid, hid.symm.trans hnode, hlast⟩

variable (h startNode endNode) in
theorem OnePath.consistent_iff (hpath : OnePath h t root ev) (hshows : Shows t s root)
    (hparents : ∀ r ∈ entered ev, s.parentList[r.node]? = some r.parent) :
    Consistent h t root startNode endNode (entered ev) s ↔
      (∀ n, isSelected s n = true ↔ Highlighted h t startNode endNode (entered ev) n) ∧
        IsScrollTarget t endNode (entered ev) (fun n => isSelected s n = true) s.scrollToIndex := by
  rw [← hpath.scroll_iff hshows]
  refine ⟨fun hcons => ⟨hcons.selected, hcons.scroll⟩, fun ⟨hselected, hscroll⟩ =>
    ⟨fun p x row column hp hx hvalid => ?_, fun p hp hcolumn => ?_, hselected, hscroll⟩⟩
  · exact hpath.parent_index hshows hparents hp hx hvalid
  · exact hpath.rows_eq hshows hp hcolumn

variable (h) in
/-- The maps that a selection starts from. -/
def initialMaps (s : State) : Maps :=
  { parentList := (s.parentList.take h.size.toNat).rightpad h.size.toNat {}
    isSelectedBitList := List.replicate ((h.size.toNat + 7) / 8 * 8) false }

theorem fits_initialMaps (s : State) : (initialMaps h s).Fits h.size.toNat where
  parentList := by
    rw [initialMaps, List.length_rightpad]
    exact Nat.le_max_left _ _
  isSelected := by
    rw [initialMaps, List.length_replicate]
    omega

theorem isSelected_initialMaps (s : State) (n : ℕ) : (initialMaps h s).isSelected n = false := by
  rw [Maps.isSelected, initialMaps, List.getD_eq_getElem?_getD, List.getElem?_replicate]
  split <;> rfl

theorem onSelectionChanged_eq {internalId : ℕ} {source : Option ℕ} {selected fuel : ℕ} {f : Bool}
    (hne : s.selectedNodeIndex ≠ internalId) (hsource : source.getD internalId = selected)
    (hroot : t.getSharedChildRootNodeIndex selected = some root)
    (hstart : t.getStartSharedChildNodeIndex selected = some startNode)
    (hend : t.getEndSharedChildNodeIndex selected = some endNode)
    (hmap : createNodeToParentMap h t startNode endNode fuel none root (false, initialMaps h s) =
      some (f, m)) :
    onSelectionChanged h t fuel s internalId source =
      (if selected = root then some s.scrollToIndex else findScrollTo t m endNode).map
        fun x => ⟨selected, m.parentList, m.isSelectedBitList, x⟩ := by
  rw [initialMaps] at hmap
  rw [onSelectionChanged, if_neg hne, hsource]
  simp only [hroot, hstart, hend, hmap, Option.bind_eq_bind, Option.bind_some, ne_eq, ite_not]
  split
  · rfl
  · cases findScrollTo t m endNode <;> rfl

/-- **The view is consistent after a selection exactly when the selection ends well.** -/
theorem onSelectionChanged_consistent_iff (internalId : ℕ) (source : Option ℕ) {selected : ℕ}
    (hsource : source.getD internalId = selected) (hlt : selected < h.size.toNat)
    (hroot : t.getSharedChildRootNodeIndex selected = some root)
    (hstart : t.getStartSharedChildNodeIndex selected = some startNode)
    (hend : t.getEndSharedChildNodeIndex selected = some endNode)
    (hpath : OnePath h t root ev) :
    ∃ fuel, ∀ more,
      (∃ s', onSelectionChanged h t (fuel + more) s internalId source = some s' ∧
        Consistent h t root startNode endNode (entered ev) s') ↔
      if s.selectedNodeIndex = internalId
        then Consistent h t root startNode endNode (entered ev) s
        else SelectsWell h t selected root startNode endNode (entered ev) s.scrollToIndex := by
  obtain ⟨top, htop, htour⟩ := hpath.tour
  obtain ⟨fuel, hfuel⟩ := exists_createNodeToParentMap h startNode endNode htop htour
  refine ⟨fuel, fun more => ?_⟩
  by_cases hsame : s.selectedNodeIndex = internalId
  · rw [if_pos hsame, onSelectionChanged, if_pos hsame]
    simp
  rw [if_neg hsame]
  obtain ⟨m, hfold, htoured⟩ :=
    (fits_initialMaps s).exists_toured h startNode endNode false ev hpath.node_lt
  have hmap := (hfuel more (initialMaps h s)).trans hfold
  rw [onSelectionChanged_eq hsame hsource hroot hstart hend hmap]
  have hparents := htoured.parent hpath.nodup
  have hselected (n : ℕ) : m.isSelected n = true ↔
      ∃ r ∈ marks h startNode endNode false ev, r.node = n := by
    rw [htoured.isSelected, isSelected_initialMaps, Bool.false_or, List.any_eq_true]
    exact exists_congr fun r => and_congr_right fun _ => by rw [decide_eq_true_eq, eq_comm]
  have hne : selected ≠ kInvalidNodeIndex := by
    have hsize : h.size.toNat < 2 ^ 64 := h.size.toNat_lt
    rw [kInvalidNodeIndex]
    omega
  have hcons (x : QModelIndex) := hpath.consistent_iff h startNode endNode
    (s := ⟨selected, m.parentList, m.isSelectedBitList, x⟩) ⟨hne, hroot⟩ hparents
  have hrange : (∀ n, m.isSelected n = true ↔
      Highlighted h t startNode endNode (entered ev) n) ↔
      EndsRange h t startNode endNode (entered ev) := by
    simp only [hselected]
    exact hpath.highlighted_iff
  have hfun (x : QModelIndex) (hmarks : ∀ n, m.isSelected n = true ↔
      Highlighted h t startNode endNode (entered ev) n) :
      (fun n => isSelected ⟨selected, m.parentList, m.isSelectedBitList, x⟩ n = true) =
        Highlighted h t startNode endNode (entered ev) :=
    funext fun n => propext (hmarks n)
  constructor
  · rintro ⟨s', hrun, hs'⟩
    obtain ⟨x, hx, rfl⟩ := Option.map_eq_some_iff.mp hrun
    obtain ⟨hmarks, htarget⟩ := (hcons x).mp hs'
    have hends := hrange.mp hmarks
    refine ⟨hends, ?_⟩
    split_ifs at hx ⊢ with hsel
    · obtain rfl := Option.some.inj hx
      rw [← hfun s.scrollToIndex hmarks]
      exact htarget
    · exact hpath.endsInView_of_target hparents hselected hends hx htarget
  · rintro ⟨hends, hscroll⟩
    have hmarks := hrange.mpr hends
    split_ifs at hscroll ⊢ with hsel
    · refine ⟨_, rfl, (hcons _).mpr ⟨hmarks, ?_⟩⟩
      rw [hfun s.scrollToIndex hmarks]
      exact hscroll
    · obtain ⟨x, hx, htarget⟩ := hpath.target_of_endsInView hparents hselected hends hscroll
      exact ⟨_, by rw [hx]; rfl, (hcons x).mpr ⟨hmarks, htarget⟩⟩

end Consistency

/-! ## A nested end -/

/-- A submit, node 1, with a packet that calls an indirect buffer; the packet has a field and, in the
buffer, another packet with a field. The last node selects both packets. -/
def nestedTopology : SelectionTopology where
  childrenList := [3, 5]
  nodeChildren := [⟨0, 0⟩, ⟨0, 0⟩, ⟨0, 1⟩, ⟨0, 0⟩, ⟨1, 1⟩, ⟨0, 0⟩, ⟨0, 0⟩]
  sharedChildrenIndices := [2, 4]
  nodeSharedChildren := [⟨0, 0⟩, ⟨0, 1⟩, ⟨1, 1⟩, ⟨0, 0⟩, ⟨0, 0⟩, ⟨0, 0⟩, ⟨0, 0⟩]
  startSharedChild := [0, 0, 0, 0, 0, 0, 2]
  endSharedChild := [0, 0, 0, 0, 0, 0, 4]
  rootNodeIndex := [0, 1, 0, 0, 0, 0, 1]

/-- The inner packet has some opcode. -/
def nestedHierarchy (opcode : UInt8) : PacketHierarchy where
  size := 7
  packetOpcode node := if node = 2 then some 0x3F else if node = 4 then some opcode else none

def outerRow : Row := .packet (createIndex none 0 1) (2, 0)

def innerRow : Row := .packet outerRow.index (4, 1)

def nestedTour : List (TourEvent Row) :=
  [.enter outerRow, .enter (.field outerRow.index (3, 0)), .leave (.field outerRow.index (3, 0)),
    .enter innerRow, .enter (.field innerRow.index (5, 0)), .leave (.field innerRow.index (5, 0)),
    .leave innerRow, .leave outerRow]

theorem nestedTour_onePath (opcode : UInt8) :
    OnePath (nestedHierarchy opcode) nestedTopology 1 nestedTour where
  tour := ⟨[outerRow], rfl, .cons rfl (.cons rfl .nil (.cons rfl (.cons rfl .nil .nil) .nil)) .nil⟩
  nodup := by decide
  node_lt r hr := by
    have hsize : (nestedHierarchy opcode).size.toNat = 7 := rfl
    rw [hsize]
    revert r
    decide

theorem fieldOf_innerRow {n : ℕ} (hn : Relation.ReflTransGen (FieldOf nestedTopology) 4 n) :
    n = 4 ∨ n = 5 := by
  induction hn with
  | refl => exact .inl rfl
  | tail _ hfield ih =>
    obtain ⟨cs, hcs, hmem⟩ := hfield
    rcases ih with rfl | rfl
    · obtain rfl : [5] = cs := Option.some.inj hcs
      exact .inr (List.mem_singleton.mp hmem)
    · obtain rfl : [] = cs := Option.some.inj hcs
      cases hmem

/-- The inner packet draws. -/
theorem nestedDraw_consistent : ∃ fuel, ∀ more, ∃ s',
    onSelectionChanged (nestedHierarchy 0x38) nestedTopology (fuel + more) {} 6 none = some s' ∧
      Consistent (nestedHierarchy 0x38) nestedTopology 1 2 4 (entered nestedTour) s' := by
  obtain ⟨fuel, hfuel⟩ := onSelectionChanged_consistent_iff (s := {}) 6 none rfl (by decide) rfl
    rfl rfl (nestedTour_onePath 0x38)
  refine ⟨fuel, fun more => (hfuel more).mpr ?_⟩
  rw [if_neg (by decide)]
  refine ⟨fun _ => ⟨⟨[outerRow, .field outerRow.index (3, 0), innerRow], ?_, ?_, ?_⟩, .inr ?_⟩, ?_⟩
  · exact ⟨[], [.field innerRow.index (5, 0)], rfl⟩
  · exact ⟨outerRow, rfl, rfl⟩
  · exact ⟨innerRow, rfl, rfl⟩
  · intro n hn
    rcases fieldOf_innerRow hn with rfl | rfl <;> rfl
  · rw [if_neg (by decide)]
    exact ⟨innerRow, by decide, rfl, .inr ⟨by decide, by decide, outerRow, by decide, rfl⟩⟩

/-- What the selection leaves when the inner packet calls an indirect buffer. -/
def nestedState : State where
  selectedNodeIndex := 6
  parentList := [{}, {}, createIndex none 0 1, createIndex (some 0) 0 2, createIndex (some 0) 0 2,
    createIndex (some 1) 0 4, {}]
  isSelectedBitList := [false, false, true, true, true, false, false, false]
  scrollToIndex := createIndex (some 0) 0 4

/-- The inner packet calls an indirect buffer: the view scrolls to its index with the number that
the field of the outer packet has. -/
theorem nestedEnd_not_consistent :
    onSelectionChanged (nestedHierarchy 0x3F) nestedTopology 5 {} 6 none = some nestedState ∧
      index nestedTopology nestedState 0 0 outerRow.index = some (createIndex (some 0) 0 3) ∧
      index nestedTopology nestedState 1 0 outerRow.index = some (createIndex (some 1) 0 4) ∧
      ¬Consistent (nestedHierarchy 0x3F) nestedTopology 1 2 4 (entered nestedTour) nestedState := by
  refine ⟨rfl, rfl, rfl, fun hcons => ?_⟩
  have hshows : Shows nestedTopology nestedState 1 := ⟨by decide, rfl⟩
  obtain ⟨r, hr, hindex, -⟩ := ((nestedTour_onePath 0x3F).scroll_iff hshows
    (x := nestedState.scrollToIndex) fun n => isSelected nestedState n = true).mp hcons.scroll
  revert hindex
  revert r
  decide

end Dive.CommandBufferModel
