import Dive.Ui.CommandBufferRows

/-!
# The indices of the command-buffer view

* `IsIndex`: the indices that the model gives out.
* `OnePath`: each row of a selection is reached by one path.
* `index_eq`: the rows of an index are the rows below its node.
* **`OnePath.parent_index`**: the parent of what `index` returns.
* `OnePath.isIndex_row`: each row is reached.
* **`OnePath.rows_eq`**: the rows of a node.
-/

namespace Dive.CommandBufferModel

open Tours

/-- The indices that the model gives out. -/
inductive IsIndex (t : SelectionTopology) (s : State) : QModelIndex → Prop
  | root : IsIndex t s {}
  | index {p x : QModelIndex} {row column : ℕ} (hp : IsIndex t s p)
      (hx : index t s row column p = some x) (hvalid : x.isValid = true) : IsIndex t s x

/-- The node of an index: the root of the selection for an index that is not valid. -/
def nodeOf (root : ℕ) (p : QModelIndex) : ℕ := if p.isValid then p.internalId else root

/-- Each row of the view is reached by one path from the root of the selection. -/
structure OnePath (h : PacketHierarchy) (t : SelectionTopology) (root : ℕ)
    (ev : List (TourEvent Row)) : Prop where
  tour : ∃ top, rowsBelow t none root = some top ∧ Tour (Row.below t) top ev
  nodup : ((entered ev).map Row.node).Nodup
  node_lt : ∀ r ∈ entered ev, r.node < h.size.toNat

/-! ## Children -/

section Children

variable {t : SelectionTopology} {n : ℕ} {cs : List ℕ}

theorem exists_of_mapM_range {k : Option ℕ} {f : ℕ → Option ℕ}
    (h : (k.bind fun k => (List.range k).mapM f) = some cs) :
    k = some cs.length ∧ ∀ i < cs.length, f i = cs[i]? := by
  obtain ⟨k, rfl, hmap⟩ := Option.bind_eq_some_iff.mp h
  have hlength : cs.length = k := by rw [List.length_of_mapM hmap, List.length_range]
  refine ⟨by rw [hlength], fun i hi => ?_⟩
  have hget := List.getElem?_of_mapM hmap i
  rw [List.getElem?_range (hlength ▸ hi), List.getElem?_eq_getElem hi] at hget
  rw [List.getElem?_eq_getElem hi]
  exact Option.some.inj hget

theorem getNumChildren_of_children (h : t.children n = some cs) :
    t.getNumChildren n = some cs.length := (exists_of_mapM_range h).1

theorem getChildNodeIndex_of_children (h : t.children n = some cs) {i : ℕ} (hi : i < cs.length) :
    t.getChildNodeIndex n i = cs[i]? := (exists_of_mapM_range h).2 i hi

theorem getNumSharedChildren_of_sharedChildren (h : t.sharedChildren n = some cs) :
    t.getNumSharedChildren n = some cs.length := (exists_of_mapM_range h).1

theorem getSharedChildNodeIndex_of_sharedChildren (h : t.sharedChildren n = some cs) {i : ℕ}
    (hi : i < cs.length) : t.getSharedChildNodeIndex n i = cs[i]? := (exists_of_mapM_range h).2 i hi

end Children

/-! ## Rows below a node -/

section Below

variable {t : SelectionTopology} {parentRow : Option ℕ} {node : ℕ} {rows : List Row}

theorem exists_of_rowsBelow (h : rowsBelow t parentRow node = some rows) :
    ∃ cs shared, fieldsBelow t parentRow node = some cs ∧ t.sharedChildren node = some shared ∧
      rows = cs.zipIdx.map (Row.field (createIndex parentRow 0 node)) ++
        (shared.zipIdx cs.length).map (Row.packet (createIndex parentRow 0 node)) := by
  rw [rowsBelow] at h
  obtain ⟨cs, hcs, h⟩ := Option.bind_eq_some_iff.mp h
  obtain ⟨shared, hshared, h⟩ := Option.bind_eq_some_iff.mp h
  exact ⟨cs, shared, hcs, hshared, (Option.some.inj h).symm⟩

theorem map_node_of_rowsBelow (cs shared : List ℕ) (p : QModelIndex) :
    (cs.zipIdx.map (Row.field p) ++ (shared.zipIdx cs.length).map (Row.packet p)).map Row.node =
      cs ++ shared := by
  rw [List.map_append, List.map_map, List.map_map]
  exact congrArg₂ (· ++ ·) (List.zipIdx_map_fst 0 cs) (List.zipIdx_map_fst cs.length shared)

theorem map_row_of_rowsBelow (cs shared : List ℕ) (p : QModelIndex) :
    (cs.zipIdx.map (Row.field p) ++ (shared.zipIdx cs.length).map (Row.packet p)).map Row.row =
      List.range (cs.length + shared.length) := by
  have hfst : (cs.zipIdx.map (Row.field p)).map Row.row = List.range' 0 cs.length := by
    rw [List.map_map]
    exact List.zipIdx_map_snd 0 cs
  have hsnd : ((shared.zipIdx cs.length).map (Row.packet p)).map Row.row =
      List.range' cs.length shared.length := by
    rw [List.map_map]
    exact List.zipIdx_map_snd cs.length shared
  rw [List.map_append, hfst, hsnd, List.range_eq_range', ← List.range'_append_1, Nat.zero_add]

theorem row_of_rowsBelow (h : rowsBelow t parentRow node = some rows) {i : ℕ} {r : Row}
    (hr : rows[i]? = some r) : r.parent = createIndex parentRow 0 node ∧ r.row = i := by
  obtain ⟨cs, shared, -, -, rfl⟩ := exists_of_rowsBelow h
  constructor
  · have hmem := List.mem_of_getElem? hr
    rw [List.mem_append, List.mem_map, List.mem_map] at hmem
    rcases hmem with ⟨c, -, rfl⟩ | ⟨c, -, rfl⟩ <;> rfl
  · have hrow := congrArg (·[i]?) (map_row_of_rowsBelow cs shared
      (createIndex parentRow 0 node))
    obtain ⟨hlt, -⟩ := List.getElem?_eq_some_iff.mp hr
    simp only [List.length_append, List.length_map, List.length_zipIdx] at hlt
    simp only [List.getElem?_map, hr, Option.map_some, List.getElem?_range hlt] at hrow
    exact Option.some.inj hrow

end Below

/-! ## Rows of an index -/

section Index

variable {t : SelectionTopology} {s : State} {root : ℕ} {p : QModelIndex} {rows : List Row}

variable (t s root) in
/-- The model shows the selection under a root. -/
structure Shows : Prop where
  selected : s.selectedNodeIndex ≠ kInvalidNodeIndex
  root : t.getSharedChildRootNodeIndex s.selectedNodeIndex = some root

theorem rowCount_of_column (hcolumn : p.column ≠ 0) : rowCount t s p = some 0 := by
  rw [rowCount, if_pos (by omega)]

theorem index_of_rowCount {row column n : ℕ} (hcount : rowCount t s p = some n)
    (h : ¬(row < n ∧ column < columnCount)) : index t s row column p = some {} := by
  have hindex : hasIndex t s row column p = some false := by
    rw [hasIndex, hcount]
    simp only [Option.bind_eq_bind, Option.bind_some, Option.some.injEq, Bool.and_eq_false_iff,
      decide_eq_false_iff_not]
    exact not_and_or.mp h
  rw [index, hindex]
  rfl

theorem fieldsBelow_of_not_isValid (hvalid : p.isValid = false) (node : ℕ) :
    fieldsBelow t p.row node = some [] := by
  rw [QModelIndex.isValid] at hvalid
  simp [fieldsBelow, hvalid]

theorem fieldsBelow_of_isValid (hvalid : p.isValid = true) (node : ℕ) :
    fieldsBelow t p.row node = t.children node := by
  rw [QModelIndex.isValid] at hvalid
  rw [fieldsBelow, if_pos hvalid]

theorem rowCount_eq (hshows : Shows t s root) (hcolumn : p.column = 0)
    (hrows : rowsBelow t p.row (nodeOf root p) = some rows) : rowCount t s p = some rows.length := by
  obtain ⟨cs, shared, hcs, hshared, rfl⟩ := exists_of_rowsBelow hrows
  have hnum := getNumSharedChildren_of_sharedChildren hshared
  rw [rowCount, if_neg (by omega), if_neg hshows.selected]
  cases hvalid : p.isValid with
  | false =>
    rw [fieldsBelow_of_not_isValid hvalid] at hcs
    obtain rfl := Option.some.inj hcs
    rw [nodeOf, hvalid] at hnum
    simpa [hshows.root] using hnum
  | true =>
    rw [fieldsBelow_of_isValid hvalid] at hcs
    have hfields := getNumChildren_of_children hcs
    rw [nodeOf, hvalid] at hnum hfields
    simp only [if_true] at hnum hfields
    simp [hnum, hfields]

theorem index_eq (hshows : Shows t s root) (hcolumn : p.column = 0)
    (hrows : rowsBelow t p.row (nodeOf root p) = some rows)
    (hnodes : ∀ r ∈ rows, r.node ≠ kInvalidNodeIndex) {row column : ℕ} {r : Row}
    (hr : rows[row]? = some r) (hlt : column < columnCount) :
    index t s row column p = some (createIndex (some row) column r.node) := by
  obtain ⟨hrow, -⟩ := List.getElem?_eq_some_iff.mp hr
  have hindex : hasIndex t s row column p = some true := by
    rw [hasIndex, rowCount_eq hshows hcolumn hrows]
    simp [hrow, hlt]
  have hmem := hnodes r (List.mem_of_getElem? hr)
  obtain ⟨cs, shared, hcs, hshared, rfl⟩ := exists_of_rowsBelow hrows
  have hnode := congrArg (·[row]?) (map_node_of_rowsBelow cs shared
    (createIndex p.row 0 (nodeOf root p)))
  simp only [List.getElem?_map, hr, Option.map_some] at hnode
  simp only [List.length_append, List.length_map, List.length_zipIdx] at hrow
  have hget := getSharedChildNodeIndex_of_sharedChildren hshared (i := row - cs.length)
  have hnum := getNumSharedChildren_of_sharedChildren hshared
  rw [index, hindex]
  cases hvalid : p.isValid with
  | false =>
    rw [fieldsBelow_of_not_isValid hvalid] at hcs
    obtain rfl := Option.some.inj hcs
    rw [nodeOf, hvalid] at hget
    simp only [List.length_nil, Nat.zero_add, Nat.sub_zero] at hget hrow
    have hshare := (hget hrow).trans hnode.symm
    simp only [Bool.false_eq_true, if_false] at hshare
    simp [hshows.root, hshare]
  | true =>
    rw [fieldsBelow_of_isValid hvalid] at hcs
    have hfields := getNumChildren_of_children hcs
    have hfield := getChildNodeIndex_of_children hcs (i := row)
    rw [nodeOf, hvalid] at hnum hfields hget hfield
    simp only [if_true] at hnum hfields hget hfield
    simp only [Bool.not_true, Bool.false_eq_true, if_false, Option.bind_eq_bind, Option.bind_some,
      hfields, hnum]
    by_cases hlt : row < cs.length
    · rw [List.getElem?_append_left hlt] at hnode
      have hchild := (hfield hlt).trans hnode.symm
      simp [hlt, hchild, hmem]
    · have hpos : 0 < shared.length := by omega
      rw [List.getElem?_append_right (by omega)] at hnode
      have hshare := (hget (by omega)).trans hnode.symm
      simp [hlt, hpos, hshare, hmem]

end Index

/-! ## Indices and rows -/

section Paths

variable {h : PacketHierarchy} {t : SelectionTopology} {s : State} {root : ℕ}
  {ev : List (TourEvent Row)} {p x : QModelIndex} {row column : ℕ}

theorem OnePath.node_ne (hpath : OnePath h t root ev) {r : Row} (hr : r ∈ entered ev) :
    r.node ≠ kInvalidNodeIndex := by
  have hlt := hpath.node_lt r hr
  have hsize : h.size.toNat < 2 ^ 64 := h.size.toNat_lt
  rw [kInvalidNodeIndex]
  omega

theorem OnePath.eq_of_node (hpath : OnePath h t root ev) {r r' : Row} (hr : r ∈ entered ev)
    (hr' : r' ∈ entered ev) (hnode : r.node = r'.node) : r = r' :=
  List.inj_on_of_nodup_map hpath.nodup hr hr' hnode

theorem OnePath.exists_below (hpath : OnePath h t root ev) {r : Row} (hr : r ∈ entered ev) :
    ∃ rows, r.below t = some rows ∧ ∀ r' ∈ rows, r' ∈ entered ev := by
  obtain ⟨_, _, htour⟩ := hpath.tour
  exact htour.below_of_mem hr

/-- An index that is not valid, or the one of a row in some column. -/
def IsRowIndex (ev : List (TourEvent Row)) (p : QModelIndex) : Prop :=
  p = {} ∨ ∃ r ∈ entered ev, p = createIndex (some r.row) p.column r.node

theorem OnePath.exists_rows (hpath : OnePath h t root ev) (hp : IsRowIndex ev p) :
    ∃ rows, rowsBelow t p.row (nodeOf root p) = some rows ∧ ∀ r ∈ rows, r ∈ entered ev := by
  rcases hp with rfl | ⟨r, hr, hp⟩
  · obtain ⟨top, htop, htour⟩ := hpath.tour
    exact ⟨top, htop, fun r hr => htour.mem_of_root hr⟩
  · rw [hp]
    exact hpath.exists_below hr

theorem OnePath.exists_row (hpath : OnePath h t root ev) (hshows : Shows t s root)
    (hp : IsRowIndex ev p) (hx : index t s row column p = some x) (hvalid : x.isValid = true) :
    p.column = 0 ∧ ∃ r ∈ entered ev, r.parent = createIndex p.row 0 (nodeOf root p) ∧
      r.row = row ∧ x = createIndex (some row) column r.node := by
  have hne : x ≠ {} := by
    rintro rfl
    cases hvalid
  have hcolumn : p.column = 0 := by
    by_contra hcolumn
    rw [index_of_rowCount (rowCount_of_column hcolumn) (fun hlt => Nat.not_lt_zero _ hlt.1)] at hx
    exact hne (Option.some.inj hx).symm
  obtain ⟨rows, hrows, hmem⟩ := hpath.exists_rows hp
  have hlt : row < rows.length ∧ column < columnCount := by
    by_contra hlt
    rw [index_of_rowCount (rowCount_eq hshows hcolumn hrows) hlt] at hx
    exact hne (Option.some.inj hx).symm
  have hr := List.getElem?_eq_getElem hlt.1
  have hbelow := List.getElem_mem hlt.1
  rw [index_eq hshows hcolumn hrows (fun r hr => hpath.node_ne (hmem r hr)) hr hlt.2] at hx
  obtain ⟨hparent, hnumber⟩ := row_of_rowsBelow hrows hr
  exact ⟨hcolumn, _, hmem _ hbelow, hparent, hnumber, (Option.some.inj hx).symm⟩

theorem OnePath.isRowIndex (hpath : OnePath h t root ev) (hshows : Shows t s root)
    (hx : IsIndex t s x) : IsRowIndex ev x := by
  induction hx with
  | root => exact .inl rfl
  | index _ hx hvalid ih =>
    obtain ⟨-, r, hr, -, rfl, rfl⟩ := hpath.exists_row hshows ih hx hvalid
    exact .inr ⟨r, hr, rfl⟩

/-- **The parent of what `index` returns is the parent that it was asked for.** -/
theorem OnePath.parent_index (hpath : OnePath h t root ev) (hshows : Shows t s root)
    (hparents : ∀ r ∈ entered ev, s.parentList[r.node]? = some r.parent) (hp : IsIndex t s p)
    (hx : index t s row column p = some x) (hvalid : x.isValid = true) :
    x.row = some row ∧ ∃ q, parent s x = some q ∧
      (q = p ∨ q.isValid = false ∧ p.isValid = false) := by
  obtain ⟨hcolumn, r, hr, hparent, -, rfl⟩ :=
    hpath.exists_row hshows (hpath.isRowIndex hshows hp) hx hvalid
  have hq : parent s (createIndex (some row) column r.node) = some r.parent := hparents r hr
  refine ⟨rfl, _, hq, ?_⟩
  rw [hparent]
  cases hp' : p.isValid with
  | false => exact .inr ⟨hp', rfl⟩
  | true =>
    left
    rw [nodeOf, hp', if_pos rfl, ← hcolumn]
    rfl

theorem OnePath.isIndex_row (hpath : OnePath h t root ev) (hshows : Shows t s root) :
    ∀ r ∈ entered ev, ∃ p, IsIndex t s p ∧ index t s r.row 0 p = some r.index := by
  have hstep {p : QModelIndex} (hp : IsIndex t s p) (hcolumn : p.column = 0) {rows : List Row}
      (hrows : rowsBelow t p.row (nodeOf root p) = some rows) :
      ∀ r ∈ rows, r ∈ entered ev → ∃ p, IsIndex t s p ∧ index t s r.row 0 p = some r.index := by
    intro r hr hmem
    obtain ⟨_, hrows', hall⟩ := hpath.exists_rows (hpath.isRowIndex hshows hp)
    obtain rfl := Option.some.inj (hrows.symm.trans hrows')
    obtain ⟨i, hi⟩ := List.mem_iff_getElem?.mp hr
    obtain ⟨-, hrow⟩ := row_of_rowsBelow hrows hi
    refine ⟨p, hp, ?_⟩
    rw [hrow, index_eq hshows hcolumn hrows (fun r hr => hpath.node_ne (hall r hr)) hi (by decide),
      Row.index, hrow]
  obtain ⟨top, htop, htour⟩ := hpath.tour
  have hall : ∀ r ∈ entered ev, r ∈ entered ev ∧
      ∃ p, IsIndex t s p ∧ index t s r.row 0 p = some r.index := by
    refine htour.induct (fun r hr => ?_) (fun a bs ha hbelow b hb => ?_)
    · have hmem := htour.mem_of_root hr
      exact ⟨hmem, hstep .root rfl htop r hr hmem⟩
    · obtain ⟨ha, p, hp, hindex⟩ := ha
      obtain ⟨rows, hrows, hrow⟩ := hpath.exists_below ha
      have hmem : b ∈ entered ev := hrow b (by
        rw [Option.some.inj (hrows.symm.trans hbelow)]
        exact hb)
      exact ⟨hmem, hstep (.index hp hindex rfl) rfl hbelow b hb hmem⟩
  exact fun r hr => (hall r hr).2

/-- **The rows of a node are its children and, after them, its shared children.** -/
theorem OnePath.rows_eq (hpath : OnePath h t root ev) (hshows : Shows t s root)
    (hp : IsIndex t s p) (hcolumn : p.column = 0) :
    ∃ cs shared, (if p.isValid then t.children p.internalId = some cs else cs = []) ∧
      t.sharedChildren (nodeOf root p) = some shared ∧
      rowCount t s p = some (cs ++ shared).length ∧
      ∀ row column, row < (cs ++ shared).length → column < columnCount →
        index t s row column p =
          ((cs ++ shared)[row]?).map fun node => createIndex (some row) column node := by
  obtain ⟨rows, hrows, hall⟩ := hpath.exists_rows (hpath.isRowIndex hshows hp)
  have hcount := rowCount_eq hshows hcolumn hrows
  obtain ⟨cs, shared, hcs, hshared, hrows'⟩ := exists_of_rowsBelow hrows
  have hnodes : rows.map Row.node = cs ++ shared := by
    rw [hrows']
    exact map_node_of_rowsBelow cs shared _
  refine ⟨cs, shared, ?_, hshared, ?_, fun row column hrow hlt => ?_⟩
  · cases hvalid : p.isValid with
    | false =>
      rw [fieldsBelow_of_not_isValid hvalid] at hcs
      exact (Option.some.inj hcs).symm
    | true =>
      rw [fieldsBelow_of_isValid hvalid, nodeOf, hvalid] at hcs
      exact hcs
  · rw [hcount, ← hnodes, List.length_map]
  · rw [← hnodes, List.length_map] at hrow
    have hr := List.getElem?_eq_getElem hrow
    rw [index_eq hshows hcolumn hrows (fun r hr => hpath.node_ne (hall r hr)) hr hlt, ← hnodes,
      List.getElem?_map, hr]
    rfl

end Paths

end Dive.CommandBufferModel
