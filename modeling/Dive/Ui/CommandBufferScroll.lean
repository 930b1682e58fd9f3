import Dive.Ui.CommandBufferSelection

/-!
# Where the command-buffer view scrolls to

* `findScrollTo_eq`: the search for the scroll-to index.
* `IsScrollTarget`: the index of the end of a selection, or of its last field.
* **`OnePath.endsInView_of_target`**, **`OnePath.target_of_endsInView`**: when it is found.
-/

namespace Dive.CommandBufferModel

open Tours
open Relation (ReflTransGen TransGen)

/-! ## The search -/

section Search

variable {t : SelectionTopology} {m : Maps} {endNode : ℕ}

theorem foldlM_zipIdx_of_not_mem {β : Type} {l : List ℕ} {a : ℕ} (ha : a ∉ l)
    (g : ℕ → Option β) (b : β) (start : ℕ) :
    (l.zipIdx start).foldlM (fun b c => if c.1 = a then g c.2 else some b) b = some b := by
  induction l generalizing start with
  | nil => rfl
  | cons x l ih =>
    rw [List.mem_cons, not_or] at ha
    rw [List.zipIdx_cons, List.foldlM_cons, if_neg (Ne.symm ha.1)]
    exact ih ha.2 (start + 1)

theorem foldlM_zipIdx_of_getElem? {β : Type} {l : List ℕ} (hl : l.Nodup) {a k : ℕ}
    (ha : l[k]? = some a) (g : ℕ → Option β) (b : β) (start : ℕ) :
    (l.zipIdx start).foldlM (fun b c => if c.1 = a then g c.2 else some b) b =
      g (start + k) := by
  induction l generalizing start k with
  | nil => simp at ha
  | cons x l ih =>
    obtain ⟨hx, hl⟩ := List.nodup_cons.mp hl
    rw [List.zipIdx_cons, List.foldlM_cons]
    cases k with
    | zero =>
      obtain rfl : x = a := by simpa using ha
      rw [if_pos rfl]
      simp only [foldlM_zipIdx_of_not_mem hx]
      exact Option.bind_fun_some _
    | succ k =>
      rw [List.getElem?_cons_succ] at ha
      have hne : x ≠ a := by
        rintro rfl
        exact hx (List.mem_of_getElem? ha)
      rw [if_neg hne]
      have hrest := ih hl ha (start + 1)
      rw [Nat.add_assoc, Nat.add_comm 1 k] at hrest
      exact hrest

variable (t) in
def lastField (node : ℕ) : Option ℕ := (t.children node).bind List.getLast?

variable (m endNode) in
/-- The index of the end, a shared child with a number, or of its last field. -/
def scrollIndex (cs : List ℕ) (child : ℕ) : QModelIndex :=
  match cs.getLast? with
  | some last =>
    if m.isSelected last then createIndex (some (cs.length - 1)) 0 last
    else createIndex (some child) 0 endNode
  | none => createIndex (some child) 0 endNode

theorem findScrollTo_eq {p : QModelIndex} (hp : m.parentList[endNode]? = some p)
    {shared : List ℕ} (hshared : t.sharedChildren p.internalId = some shared)
    (hnodup : shared.Nodup) {k : ℕ} (hk : shared[k]? = some endNode) {cs : List ℕ}
    (hcs : t.children endNode = some cs) :
    findScrollTo t m endNode = some (scrollIndex m endNode cs k) := by
  have hnum := getNumChildren_of_children hcs
  have hchild := getChildNodeIndex_of_children hcs (i := cs.length - 1)
  rw [findScrollTo, hp]
  simp only [Option.map_some, Option.bind_eq_bind, Option.bind_some, hshared]
  rw [foldlM_zipIdx_of_getElem? hnodup hk, Nat.zero_add, scrollToEnd, hnum]
  simp only [Option.bind_eq_bind, Option.bind_some, scrollIndex]
  rcases List.eq_nil_or_concat cs with rfl | ⟨init, last, rfl⟩
  · rfl
  · rw [List.concat_eq_append] at hchild ⊢
    have hlast : (init ++ [last])[(init ++ [last]).length - 1]? = some last := by simp
    have hpos : 0 < (init ++ [last]).length := by simp
    rw [hlast] at hchild
    rw [if_pos hpos, hchild (by simp), Option.bind_some, List.getLast?_concat]
    exact (apply_ite some _ _ _).symm

theorem findScrollTo_of_not_mem {p : QModelIndex} (hp : m.parentList[endNode]? = some p)
    {shared : List ℕ} (hshared : t.sharedChildren p.internalId = some shared)
    (hmem : endNode ∉ shared) : findScrollTo t m endNode = some {} := by
  rw [findScrollTo, hp]
  simp only [Option.map_some, Option.bind_eq_bind, Option.bind_some, hshared]
  exact foldlM_zipIdx_of_not_mem hmem _ _ 0

end Search

section Scroll

variable {h : PacketHierarchy} {t : SelectionTopology} {m : Maps} {startNode endNode root : ℕ}
  {ev : List (TourEvent Row)} {r : Row}

theorem OnePath.exists_parent (hpath : OnePath h t root ev) (hr : r ∈ entered ev) :
    ∃ parentRow node rows, rowsBelow t parentRow node = some rows ∧ r ∈ rows ∧
      ∀ r' ∈ rows, r' ∈ entered ev := by
  obtain ⟨top, htop, htour⟩ := hpath.tour
  have hall : ∀ r ∈ entered ev, r ∈ entered ev ∧ ∃ parentRow node rows,
      rowsBelow t parentRow node = some rows ∧ r ∈ rows ∧ ∀ r' ∈ rows, r' ∈ entered ev := by
    refine htour.induct (fun r hr => ?_) (fun a bs ha hbelow b hb => ?_)
    · have hmem : ∀ r' ∈ top, r' ∈ entered ev := fun r' => htour.mem_of_root
      exact ⟨hmem r hr, none, root, top, htop, hr, hmem⟩
    · obtain ⟨rows, hrows, hmem⟩ := hpath.exists_below ha.1
      obtain rfl := Option.some.inj (hrows.symm.trans hbelow)
      exact ⟨hmem b hb, some a.row, a.node, rows, hrows, hb, hmem⟩
  exact (hall r hr).2

theorem OnePath.nodup_rows (hpath : OnePath h t root ev) {parentRow : Option ℕ} {node : ℕ}
    {rows : List Row} (hrows : rowsBelow t parentRow node = some rows)
    (hall : ∀ r ∈ rows, r ∈ entered ev) : (rows.map Row.node).Nodup := by
  have hnodup : rows.Nodup := by
    obtain ⟨cs, shared, -, -, rfl⟩ := exists_of_rowsBelow hrows
    refine List.Nodup.of_map Row.row ?_
    rw [map_row_of_rowsBelow]
    exact List.nodup_range
  exact hnodup.map_on fun r hr r' hr' heq => hpath.eq_of_node (hall r hr) (hall r' hr') heq

theorem OnePath.exists_siblings (hpath : OnePath h t root ev) (hr : r ∈ entered ev) :
    ∃ fields shared, fieldsBelow t r.parent.row r.parent.internalId = some fields ∧
      t.sharedChildren r.parent.internalId = some shared ∧ (fields ++ shared).Nodup ∧
      if r.isPacket then ∃ k, shared[k]? = some r.node ∧ r.row = fields.length + k
      else r.node ∈ fields := by
  obtain ⟨parentRow, node, rows, hrows, hmem, hall⟩ := hpath.exists_parent hr
  have hnodup := hpath.nodup_rows hrows hall
  obtain ⟨fields, shared, hfields, hshared, rfl⟩ := exists_of_rowsBelow hrows
  rw [map_node_of_rowsBelow] at hnodup
  rw [List.mem_append, List.mem_map, List.mem_map] at hmem
  rcases hmem with ⟨c, hc, rfl⟩ | ⟨c, hc, rfl⟩
  · have hget := List.mem_zipIdx_iff_getElem?.mp hc
    exact ⟨fields, shared, hfields, hshared, hnodup, List.mem_of_getElem? hget⟩
  · obtain ⟨hle, hget⟩ := List.mem_zipIdx_iff_le_and_getElem?_sub.mp hc
    refine ⟨fields, shared, hfields, hshared, hnodup, c.2 - fields.length, hget, ?_⟩
    exact (Nat.add_sub_cancel' hle).symm

variable (hpath : OnePath h t root ev)
  (hparents : ∀ r ∈ entered ev, m.parentList[r.node]? = some r.parent)
include hpath hparents

theorem OnePath.findScrollTo_packet (hr : r ∈ entered ev) (hend : r.isEnd endNode = true) :
    ∃ cs fields k, t.children endNode = some cs ∧
      fieldsBelow t r.parent.row r.parent.internalId = some fields ∧ r.row = fields.length + k ∧
      findScrollTo t m endNode = some (scrollIndex m endNode cs k) := by
  have hnode := node_of_isEnd hend
  obtain ⟨fields, shared, hfields, hshared, hnodup, hkind⟩ := hpath.exists_siblings hr
  rw [Row.isEnd, Bool.and_eq_true] at hend
  rw [if_pos hend.1, hnode] at hkind
  obtain ⟨k, hk, hrow⟩ := hkind
  obtain ⟨rows, hrows, -⟩ := hpath.exists_below hr
  obtain ⟨cs, -, hcs, -, -⟩ := exists_of_rowsBelow hrows
  rw [hnode] at hcs
  have hp := hparents r hr
  rw [hnode] at hp
  exact ⟨cs, fields, k, hcs, hfields, hrow,
    findScrollTo_eq hp hshared (List.nodup_append'.mp hnodup).2.1 hk hcs⟩

theorem OnePath.findScrollTo_field (hr : r ∈ entered ev) (hkind : r.isPacket = false) :
    findScrollTo t m r.node = some {} := by
  obtain ⟨fields, shared, -, hshared, hnodup, hmem⟩ := hpath.exists_siblings hr
  rw [if_neg (by rw [hkind]; exact Bool.false_ne_true)] at hmem
  refine findScrollTo_of_not_mem (hparents r hr) hshared fun hmem' => ?_
  exact (List.nodup_append'.mp hnodup).2.2 hmem hmem'

omit hpath hparents

/-- The index of the end, or of its last field if that is selected. -/
def IsScrollTarget (t : SelectionTopology) (endNode : ℕ) (rows : List Row) (selected : ℕ → Prop)
    (x : QModelIndex) : Prop :=
  ∃ r ∈ rows, x = r.index ∧
    (r.node = endNode ∨ ∃ e ∈ rows, e.node = endNode ∧ r.parent = e.index ∧
      lastField t endNode = some r.node ∧ selected r.node)

/-- The end is in the view, and either no field precedes the shared children of its parent, or its
last field is selected. -/
def EndsInView (h : PacketHierarchy) (t : SelectionTopology) (startNode endNode : ℕ)
    (rows : List Row) : Prop :=
  ∃ r ∈ rows, r.isEnd endNode = true ∧
    (fieldsBelow t r.parent.row r.parent.internalId = some [] ∨
      callsIb h endNode = false ∧ t.children endNode ≠ some [] ∧
        ∃ s ∈ rows, s.isStart startNode = true)

variable (hselected : ∀ n, m.isSelected n = true ↔
  ∃ r ∈ marks h startNode endNode false ev, r.node = n)
  (hends : EndsRange h t startNode endNode (entered ev))
include hpath hselected hends

theorem OnePath.isSelected_last_iff (hr : r ∈ entered ev) (hend : r.isEnd endNode = true)
    {cs : List ℕ} (hcs : t.children endNode = some cs) {last : ℕ} (hlast : cs.getLast? = some last) :
    m.isSelected last = true ↔
      callsIb h endNode = false ∧ ∃ s ∈ entered ev, s.isStart startNode = true := by
  have hfield : FieldOf t endNode last := ⟨cs, hcs, List.mem_of_getLast? hlast⟩
  rw [hselected, hpath.highlighted_iff_of_endsRange hends]
  constructor
  · rintro ⟨m', hm', ⟨s, hs, rfl⟩ | ⟨hcalls, -⟩⟩
    · obtain ⟨_, inside, _, bs, h₀, hbs, hinside⟩ := hpath.exists_around hr
      rw [← node_of_isEnd hend] at hfield
      obtain ⟨r', hr', heq, -⟩ := exists_field_inside hbs hinside (.single hfield)
      exact absurd heq.symm (h₀.node_ne_of_mem_stretch hend hm' hs hr')
    · exact ⟨hcalls, hm'.exists_start⟩
  · rintro ⟨hcalls, hstart⟩
    obtain ⟨m', hm'⟩ := (hends hstart).1
    exact ⟨m', hm', .inr ⟨hcalls, .single hfield⟩⟩

include hparents

theorem OnePath.endsInView_of_target {x : QModelIndex} (hx : findScrollTo t m endNode = some x)
    (htarget : IsScrollTarget t endNode (entered ev) (fun n => m.isSelected n = true) x) :
    EndsInView h t startNode endNode (entered ev) := by
  obtain ⟨r, hr, rfl, htarget⟩ := htarget
  obtain ⟨e, he, hnode⟩ : ∃ e ∈ entered ev, e.node = endNode := by
    rcases htarget with hnode | ⟨e, he, hnode, -⟩
    · exact ⟨r, hr, hnode⟩
    · exact ⟨e, he, hnode⟩
  have hend : e.isEnd endNode = true := by
    cases hkind : e.isPacket with
    | true => simp [Row.isEnd, hkind, hnode]
    | false =>
      have hnone := hpath.findScrollTo_field hparents he hkind
      rw [hnode, hx] at hnone
      cases hnone
  obtain ⟨cs, fields, k, hcs, hfields, hrow, hscroll⟩ := hpath.findScrollTo_packet hparents he hend
  rw [hx, Option.some.injEq] at hscroll
  refine ⟨e, he, hend, ?_⟩
  -- the index of the end has the number of a shared child
  have hleft (heq : r.index = createIndex (some k) 0 endNode) :
      fieldsBelow t e.parent.row e.parent.internalId = some [] := by
    have hindex : r.node = endNode := congrArg QModelIndex.internalId heq
    obtain rfl := hpath.eq_of_node hr he (hindex.trans hnode.symm)
    have hnumber : some r.row = some k := congrArg QModelIndex.row heq
    rw [Option.some.injEq] at hnumber
    have hlength : fields.length = 0 := by omega
    rw [hfields, List.length_eq_zero_iff.mp hlength]
  rw [scrollIndex] at hscroll
  rcases hlast : cs.getLast? with _ | last
  · rw [hlast] at hscroll
    exact .inl (hleft hscroll)
  · simp only [hlast] at hscroll
    by_cases hmarked : m.isSelected last = true
    · obtain ⟨hcalls, hstart⟩ :=
        (hpath.isSelected_last_iff hselected hends he hend hcs hlast).mp hmarked
      refine .inr ⟨hcalls, ?_, hstart⟩
      rw [hcs]
      rintro heq
      rw [Option.some.inj heq] at hlast
      cases hlast
    · rw [if_neg hmarked] at hscroll
      exact .inl (hleft hscroll)

theorem OnePath.target_of_endsInView (hview : EndsInView h t startNode endNode (entered ev)) :
    ∃ x, findScrollTo t m endNode = some x ∧
      IsScrollTarget t endNode (entered ev) (fun n => m.isSelected n = true) x := by
  obtain ⟨e, he, hend, hview⟩ := hview
  have hnode := node_of_isEnd hend
  obtain ⟨cs, fields, k, hcs, hfields, hrow, hscroll⟩ := hpath.findScrollTo_packet hparents he hend
  refine ⟨_, hscroll, ?_⟩
  have hfirst (hnil : fieldsBelow t e.parent.row e.parent.internalId = some []) :
      IsScrollTarget t endNode (entered ev) (fun n => m.isSelected n = true)
        (createIndex (some k) 0 endNode) := by
    obtain rfl := Option.some.inj (hfields.symm.trans hnil)
    refine ⟨e, he, ?_, .inl hnode⟩
    rw [Row.index, hrow, hnode, List.length_nil, Nat.zero_add]
  rw [scrollIndex]
  rcases hlast : cs.getLast? with _ | last
  · rcases hview with hnil | ⟨-, hne, -⟩
    · exact hfirst hnil
    · rw [List.getLast?_eq_none_iff] at hlast
      exact absurd (hlast ▸ hcs) hne
  · simp only
    have hiff := hpath.isSelected_last_iff hselected hends he hend hcs hlast
    by_cases hmarked : m.isSelected last = true
    · rw [if_pos hmarked]
      obtain ⟨rows, hrows, hall⟩ := hpath.exists_below he
      obtain ⟨cs', shared, hcs', -, rfl⟩ := exists_of_rowsBelow hrows
      rw [hnode] at hcs'
      obtain rfl : cs = cs' := Option.some.inj (hcs.symm.trans hcs')
      have hget : cs[cs.length - 1]? = some last := by rw [← List.getLast?_eq_getElem?, hlast]
      have hmem : (last, cs.length - 1) ∈ cs.zipIdx := List.mk_mem_zipIdx_iff_getElem?.mpr hget
      refine ⟨_, hall _ (List.mem_append_left _ (List.mem_map_of_mem hmem)), rfl, .inr ?_⟩
      refine ⟨e, he, hnode, rfl, ?_, hmarked⟩
      rw [lastField, hcs]
      exact hlast
    · rw [if_neg hmarked]
      rcases hview with hnil | ⟨hcalls, -, hstart⟩
      · exact hfirst hnil
      · exact absurd (hiff.mpr ⟨hcalls, hstart⟩) hmarked

end Scroll

end Dive.CommandBufferModel
