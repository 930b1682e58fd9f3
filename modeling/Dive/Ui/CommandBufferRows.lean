import Dive.Lib.Tour
import Dive.Lib.Traverse
import Dive.Ui.CommandBufferModel

/-!
# The rows of the command-buffer view

* `Row`, `rowsBelow`: a row of the view, with its parent, and the rows below a node.
* **`exists_createNodeToParentMap`**: the recursion is a tour of the rows.
* `flag`, `marks`: the flag that goes through the tour, and the rows that it marks.
* **`Maps.Fits.exists_toured`**: what the maps hold after a tour.
-/

namespace Dive.CommandBufferModel

open Tours

/-! ## Rows -/

/-- A row: the index of its parent, its number, its kind and its node. -/
structure Row where
  parent : QModelIndex
  row : ℕ
  isPacket : Bool
  node : ℕ
  deriving DecidableEq

namespace Row

/-- The index in the first column. -/
def index (r : Row) : QModelIndex := createIndex (some r.row) 0 r.node

def field (parent : QModelIndex) (child : ℕ × ℕ) : Row := ⟨parent, child.2, false, child.1⟩

def packet (parent : QModelIndex) (child : ℕ × ℕ) : Row := ⟨parent, child.2, true, child.1⟩

end Row

section Rows

variable (t : SelectionTopology)

/-- The rows below a node: its children, and after them its shared children. The root, which has no
row, has only the second. -/
def rowsBelow (parentRow : Option ℕ) (node : ℕ) : Option (List Row) := do
  let modelIndex := createIndex parentRow 0 node
  let children ← fieldsBelow t parentRow node
  let shared ← t.sharedChildren node
  some (children.zipIdx.map (Row.field modelIndex) ++
    (shared.zipIdx children.length).map (Row.packet modelIndex))

/-- The rows below a row. -/
def Row.below (r : Row) : Option (List Row) := rowsBelow t (some r.row) r.node

variable (h : PacketHierarchy) (startNode endNode : ℕ)

def Row.isStart (r : Row) : Bool := r.isPacket && r.node = startNode

def Row.isEnd (r : Row) : Bool := r.isPacket && r.node = endNode

/-- The contents of the end node are left out. -/
def Row.stopsAt (r : Row) : Bool := r.node = endNode && callsIb h r.node

def Maps.markIf (m : Maps) (isSelected : Bool) (node : ℕ) : Option Maps :=
  if isSelected then m.setIsSelected node else some m

/-- What happens when the recursion comes to a row. -/
def enterRow (r : Row) : Bool × Maps → Option (Bool × Maps)
  | (isSelected, m) => do
    let m ← m.setParent r.node r.parent
    let isSelected := isSelected || r.isStart startNode
    let m ← m.markIf isSelected r.node
    some (isSelected && !r.stopsAt h endNode, m)

def leaveRow (r : Row) : Bool × Maps → Option (Bool × Maps)
  | (isSelected, m) => some (if r.isEnd endNode then false else isSelected, m)

/-- The tour below a row. -/
abbrev visit (fuel : ℕ) (r : Row) : Bool × Maps → Option (Bool × Maps) :=
  tourM (Row.below t) (enterRow h startNode endNode) (leaveRow endNode) fuel r

variable {t h startNode endNode}

theorem rowsBelow_bind {σ : Type} {parentRow : Option ℕ} {node : ℕ} (f : σ → Row → Option σ)
    (s : σ) : (rowsBelow t parentRow node).bind (·.foldlM f s) =
      (fieldsBelow t parentRow node).bind fun children =>
        (children.zipIdx.foldlM (fun s c => f s (.field (createIndex parentRow 0 node) c)) s).bind
          fun s => (t.sharedChildren node).bind fun shared =>
            (shared.zipIdx children.length).foldlM
              (fun s c => f s (.packet (createIndex parentRow 0 node) c)) s := by
  rw [rowsBelow]
  rcases fieldsBelow t parentRow node with _ | children
  · rfl
  · rcases t.sharedChildren node with _ | shared
    · simp
    · simp [List.foldlM_append, List.foldlM_map]

variable (h t startNode endNode) in
/-- The turns of the two loops, with `fuel` for the recursion, are the tours of the rows. -/
structure Turns (fuel : ℕ) : Prop where
  field : ∀ (modelIndex : QModelIndex) (c : ℕ × ℕ) (f : Bool) (m : Maps),
    ((m.setParent c.1 modelIndex).bind fun m =>
      createNodeToParentMap h t startNode endNode fuel (some c.2) c.1 (f, m)) =
        visit t h startNode endNode fuel (.field modelIndex c) (f, m)
  packet : ∀ (modelIndex : QModelIndex) (c : ℕ × ℕ) (f : Bool) (m : Maps),
    ((m.setParent c.1 modelIndex).bind fun m =>
      (createNodeToParentMap h t startNode endNode fuel (some c.2) c.1
        (f || c.1 = startNode, m)).bind fun s =>
          some (if c.1 = endNode then false else s.1, s.2)) =
        visit t h startNode endNode fuel (.packet modelIndex c) (f, m)

theorem Turns.map_eq {fuel : ℕ} (hturns : Turns t h startNode endNode fuel)
    (parentRow : Option ℕ) (node : ℕ) (f : Bool) (m : Maps) :
    createNodeToParentMap h t startNode endNode (fuel + 1) parentRow node (f, m) =
      (m.markIf f node).bind fun m =>
        (rowsBelow t parentRow node).bind
          (·.foldlM (fun s r => visit t h startNode endNode fuel r s)
            (f && !(node = endNode && callsIb h node), m)) := by
  simp only [rowsBelow_bind, ← hturns.field, ← hturns.packet]
  rw [createNodeToParentMap]
  cases f <;> rfl

theorem turns_zero : Turns t h startNode endNode 0 where
  field modelIndex c f m := by
    cases m.setParent c.1 modelIndex <;> rfl
  packet modelIndex c f m := by
    cases m.setParent c.1 modelIndex <;> rfl

theorem Turns.succ {fuel : ℕ} (hturns : Turns t h startNode endNode fuel) :
    Turns t h startNode endNode (fuel + 1) where
  field modelIndex c f m := by
    simp only [hturns.map_eq, visit, tourM, enterRow, leaveRow, Row.field, Row.isStart, Row.isEnd,
      Row.stopsAt, Row.below, Bool.false_and, Bool.or_false, Bool.false_eq_true, if_false,
      Option.bind_eq_bind, Option.bind_assoc, Option.bind_some, Prod.mk.eta, Option.bind_fun_some]
    rfl
  packet modelIndex c f m := by
    simp only [hturns.map_eq, visit, tourM, enterRow, leaveRow, Row.packet, Row.isStart, Row.isEnd,
      Row.stopsAt, Row.below, Bool.true_and, Option.bind_eq_bind, Option.bind_assoc,
      Option.bind_some]
    by_cases hend : c.1 = endNode
    · simp only [hend, decide_true, if_true]
    · simp only [hend, decide_false, if_false, Bool.false_eq_true]
      rfl

/-- **The recursion is a tour of the rows.** -/
theorem turns (fuel : ℕ) : Turns t h startNode endNode fuel := by
  induction fuel with
  | zero => exact turns_zero
  | succ fuel ih => exact ih.succ

variable (h startNode endNode) in
theorem exists_createNodeToParentMap {root : ℕ} {top : List Row} {ev : List (TourEvent Row)}
    (htop : rowsBelow t none root = some top) (htour : Tour (Row.below t) top ev) :
    ∃ fuel, ∀ more m, createNodeToParentMap h t startNode endNode (fuel + more) none root
      (false, m) = ev.foldlM (eventM (enterRow h startNode endNode) (leaveRow endNode))
        (false, m) := by
  obtain ⟨fuel, hfuel⟩ := Tour.exists_tourM (Row.below t) (enterRow h startNode endNode)
    (leaveRow endNode) htour
  refine ⟨fuel + 1, fun more m => ?_⟩
  have hmore : fuel + 1 + more = fuel + more + 1 := by omega
  rw [hmore, (turns (fuel + more)).map_eq, htop]
  exact hfuel more (false, m)

/-! ## The flag and the rows that it marks -/

variable (h startNode endNode)

/-- The flag after an event. -/
def flagStep (isSelected : Bool) : TourEvent Row → Bool
  | .enter r => (isSelected || r.isStart startNode) && !r.stopsAt h endNode
  | .leave r => if r.isEnd endNode then false else isSelected

def flag (isSelected : Bool) (ev : List (TourEvent Row)) : Bool :=
  ev.foldl (flagStep h startNode endNode) isSelected

/-- The rows that are marked. -/
def marks : Bool → List (TourEvent Row) → List Row
  | _, [] => []
  | isSelected, .enter r :: ev =>
    (if isSelected || r.isStart startNode then [r] else []) ++
      marks (flagStep h startNode endNode isSelected (.enter r)) ev
  | isSelected, .leave r :: ev => marks (flagStep h startNode endNode isSelected (.leave r)) ev

variable {h startNode endNode}

theorem marks_append (f : Bool) (ev ev' : List (TourEvent Row)) :
    marks h startNode endNode f (ev ++ ev') = marks h startNode endNode f ev ++
      marks h startNode endNode (flag h startNode endNode f ev) ev' := by
  induction ev generalizing f with
  | nil => rfl
  | cons e ev ih =>
    cases e with
    | enter r =>
      rw [List.cons_append, marks, marks, ih, List.append_assoc]
      rfl
    | leave r =>
      rw [List.cons_append, marks, marks, ih]
      rfl

variable (h endNode) in
theorem marks_of_no_start {ev : List (TourEvent Row)}
    (hstart : ∀ r ∈ entered ev, r.isStart startNode = false) :
    marks h startNode endNode false ev = [] ∧ flag h startNode endNode false ev = false := by
  induction ev with
  | nil => exact ⟨rfl, rfl⟩
  | cons e ev ih =>
    cases e with
    | enter r =>
      have hr := hstart r List.mem_cons_self
      have hstep : flagStep h startNode endNode false (.enter r) = false := by
        rw [flagStep, hr]
        rfl
      rw [marks, flag, List.foldl_cons, hstep, hr]
      exact ih fun r' hr' => hstart r' (List.mem_cons_of_mem r hr')
    | leave r =>
      have hstep : flagStep h startNode endNode false (.leave r) = false := by
        rw [flagStep, ite_self]
      rw [marks, flag, List.foldl_cons, hstep]
      exact ih hstart

variable (h startNode) in
theorem marks_of_no_end {ev : List (TourEvent Row)} (hent : ∀ r ∈ entered ev, r.node ≠ endNode)
    (hleft : ∀ r ∈ left ev, r.node ≠ endNode) :
    marks h startNode endNode true ev = entered ev ∧ flag h startNode endNode true ev = true := by
  induction ev with
  | nil => exact ⟨rfl, rfl⟩
  | cons e ev ih =>
    cases e with
    | enter r =>
      have hr := hent r List.mem_cons_self
      have hstep : flagStep h startNode endNode true (.enter r) = true := by
        simp [flagStep, Row.stopsAt, hr]
      obtain ⟨hmarks, hflag⟩ :=
        ih (fun r' hr' => hent r' (List.mem_cons_of_mem r hr')) hleft
      rw [marks, flag, List.foldl_cons, hstep, hmarks]
      exact ⟨rfl, hflag⟩
    | leave r =>
      have hr := hleft r List.mem_cons_self
      have hstep : flagStep h startNode endNode true (.leave r) = true := by
        simp [flagStep, Row.isEnd, hr]
      rw [marks, flag, List.foldl_cons, hstep]
      exact ih hent fun r' hr' => hleft r' (List.mem_cons_of_mem r hr')

/-! ## The maps -/

/-- The maps hold `n` nodes. -/
structure Maps.Fits (m : Maps) (n : ℕ) : Prop where
  parentList : n ≤ m.parentList.length
  isSelected : n ≤ m.isSelectedBitList.length

def Maps.isSelected (m : Maps) (node : ℕ) : Bool := m.isSelectedBitList.getD node false

variable {n : ℕ} {m : Maps}

theorem Maps.Fits.setParent (hfits : m.Fits n) {node : ℕ} (hnode : node < n) (p : QModelIndex) :
    ∃ m', m.setParent node p = some m' ∧ m'.Fits n ∧ m'.parentList = m.parentList.set node p ∧
      m'.isSelected = m.isSelected := by
  have hlt : node < m.parentList.length := hnode.trans_le hfits.parentList
  refine ⟨_, if_pos hlt, ⟨?_, hfits.isSelected⟩, rfl, rfl⟩
  rw [List.length_set]
  exact hfits.parentList

theorem Maps.Fits.markIf (hfits : m.Fits n) {node : ℕ} (hnode : node < n) (f : Bool) :
    ∃ m', m.markIf f node = some m' ∧ m'.Fits n ∧ m'.parentList = m.parentList ∧
      ∀ k, m'.isSelected k = (m.isSelected k || (f && k = node)) := by
  cases f with
  | false => exact ⟨m, rfl, hfits, rfl, by simp⟩
  | true =>
    have hlt : node < m.isSelectedBitList.length := hnode.trans_le hfits.isSelected
    refine ⟨_, if_pos hlt, ⟨hfits.parentList, ?_⟩, rfl, fun k => ?_⟩
    · rw [List.length_set]
      exact hfits.isSelected
    · by_cases hk : k = node
      · subst hk
        simp [Maps.isSelected, hlt]
      · simp [Maps.isSelected, hk, List.getD_eq_getElem?_getD, List.getElem?_set_ne (Ne.symm hk)]

/-- What a tour of some rows leaves in the maps. -/
structure Toured (h : PacketHierarchy) (startNode endNode : ℕ) (f : Bool) (ev : List (TourEvent Row))
    (n : ℕ) (m m' : Maps) : Prop where
  fits : m'.Fits n
  isSelected : ∀ k, m'.isSelected k =
    (m.isSelected k || (marks h startNode endNode f ev).any (k = ·.node))
  frame : ∀ k, (∀ r ∈ entered ev, r.node ≠ k) → m'.parentList[k]? = m.parentList[k]?
  parent : ((entered ev).map Row.node).Nodup →
    ∀ r ∈ entered ev, m'.parentList[r.node]? = some r.parent

variable (h startNode endNode) in
theorem Maps.Fits.exists_event (hfits : m.Fits n) (f : Bool) (e : TourEvent Row)
    (hnode : ∀ r, e = .enter r → r.node < n) :
    ∃ m', eventM (enterRow h startNode endNode) (leaveRow endNode) (f, m) e =
        some (flagStep h startNode endNode f e, m') ∧
      Toured h startNode endNode f [e] n m m' := by
  cases e with
  | enter r =>
    obtain ⟨m₁, hset, hfits₁, hparents, hselected⟩ := hfits.setParent (hnode r rfl) r.parent
    obtain ⟨m₂, hmark, hfits₂, hparents₂, hselected₂⟩ :=
      hfits₁.markIf (hnode r rfl) (f || r.isStart startNode)
    have hr : r.node < m.parentList.length := (hnode r rfl).trans_le hfits.parentList
    refine ⟨m₂, ?_, hfits₂, fun k => ?_, fun k hk => ?_, fun _ r' hr' => ?_⟩
    · simp only [eventM, enterRow, hset, Option.bind_eq_bind, Option.bind_some, hmark]
      rfl
    · rw [hselected₂, hselected]
      cases hmarked : f || r.isStart startNode <;> simp [marks, hmarked]
    · have hne : r.node ≠ k := hk r List.mem_cons_self
      rw [hparents₂, hparents, List.getElem?_set_ne hne]
    · obtain rfl : r' = r := List.mem_singleton.mp hr'
      rw [hparents₂, hparents, List.getElem?_set_self hr]
  | leave r =>
    refine ⟨m, rfl, hfits, fun k => ?_, fun _ _ => rfl,
      fun _ _ hr => (List.not_mem_nil hr).elim⟩
    rw [marks, marks, List.any_nil, Bool.or_false]

theorem Toured.append {f : Bool} {ev ev' : List (TourEvent Row)} {m₁ m₂ : Maps}
    (h₁ : Toured h startNode endNode f ev n m m₁)
    (h₂ : Toured h startNode endNode (flag h startNode endNode f ev) ev' n m₁ m₂) :
    Toured h startNode endNode f (ev ++ ev') n m m₂ where
  fits := h₂.fits
  isSelected k := by
    rw [h₂.isSelected, h₁.isSelected, marks_append, List.any_append, Bool.or_assoc]
  frame k hk := by
    rw [entered_append, List.forall_mem_append] at hk
    rw [h₂.frame k hk.2, h₁.frame k hk.1]
  parent hnodup r hr := by
    rw [entered_append, List.map_append, List.nodup_append'] at hnodup
    obtain ⟨hnodup₁, hnodup₂, hdisjoint⟩ := hnodup
    rw [entered_append, List.mem_append] at hr
    rcases hr with hr | hr
    · have hfirst : ∀ r' ∈ entered ev', r'.node ≠ r.node := by
        intro r' hr' heq
        exact hdisjoint (List.mem_map_of_mem hr) (heq ▸ List.mem_map_of_mem hr')
      rw [h₂.frame _ hfirst, h₁.parent hnodup₁ r hr]
    · exact h₂.parent hnodup₂ r hr

variable (h startNode endNode) in
/-- **What the maps hold after a tour.** -/
theorem Maps.Fits.exists_toured (hfits : m.Fits n) (f : Bool) (ev : List (TourEvent Row))
    (hnode : ∀ r ∈ entered ev, r.node < n) :
    ∃ m', ev.foldlM (eventM (enterRow h startNode endNode) (leaveRow endNode)) (f, m) =
        some (flag h startNode endNode f ev, m') ∧ Toured h startNode endNode f ev n m m' := by
  induction ev generalizing f m with
  | nil =>
    refine ⟨m, rfl, hfits, fun k => ?_, fun _ _ => rfl,
      fun _ _ hr => (List.not_mem_nil hr).elim⟩
    rw [marks, List.any_nil, Bool.or_false]
  | cons e ev ih =>
    have hsplit : entered (e :: ev) = entered [e] ++ entered ev := entered_append [e] ev
    rw [hsplit, List.forall_mem_append] at hnode
    obtain ⟨m₁, hstep, htoured₁⟩ := hfits.exists_event h startNode endNode f e (by
      rintro r rfl
      exact hnode.1 r List.mem_cons_self)
    obtain ⟨m₂, hrest, htoured₂⟩ := ih htoured₁.fits (flagStep h startNode endNode f e) hnode.2
    refine ⟨m₂, ?_, htoured₁.append htoured₂⟩
    rw [List.foldlM_cons, hstep]
    exact hrest

end Rows

end Dive.CommandBufferModel
