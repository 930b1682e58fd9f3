import Dive.Gfxr.Attached

/-!
# The tree of the arguments

* `Position`: a value inside a JSON value, with the path to it; `within`, in document order.
* `HasNode`, `ancestors`, `label`: the positions that are shown, and what is above them.
* `ArgForest`: argument nodes in their order; `outline`: each node with what is above it.
* `Adds`: a forest is added below a node, and nothing else.
* **`adds_getArgs`**: the outline of what is added is that of the positions.
* `TakesArgs`: the states in which `GetArgs` is called, alone and in a mixed hierarchy.
* **`argsComplete`**: each leaf is a position, in document order.
-/

namespace Dive

/-! ## Positions -/

namespace Json

/-- A step into a value: the member number `i` of an object, the element number `i` of an array. -/
inductive Step
  | member (i : ℕ) (key : String)
  | element (i : ℕ)
  deriving DecidableEq

def Step.isMember : Step → Bool
  | .member _ _ => true
  | .element _ => false

/-- A value inside a JSON value. -/
structure Position where
  /-- The steps to what holds the value. -/
  outer : List Step
  step : Step
  value : Json

/-- The position seen from one step further out. -/
def Position.under (step : Step) (p : Position) : Position := { p with outer := step :: p.outer }

mutual

/-- The positions inside a value, in document order. -/
def within : Json → List Position
  | .object members => withinMembers 0 members
  | .array elements => withinElements 0 elements
  | _ => []

def withinMembers (i : ℕ) : List (String × Json) → List Position
  | [] => []
  | member :: members => withinMember i member ++ withinMembers (i + 1) members

def withinMember (i : ℕ) : String × Json → List Position
  | (key, value) => ⟨[], .member i key, value⟩ :: value.within.map (.under (.member i key))

def withinElements (i : ℕ) : List Json → List Position
  | [] => []
  | element :: elements =>
    ⟨[], .element i, element⟩ :: element.within.map (.under (.element i)) ++
      withinElements (i + 1) elements

end

def isPrimitive : Json → Bool
  | .array _ => false
  | .object _ => false
  | _ => true

def isArray : Json → Bool
  | .array _ => true
  | _ => false

/-- The first step of the path to a position leads into an object. -/
def Position.beginsInObject (p : Position) : Bool := (p.outer.headD p.step).isMember

theorem beginsInObject_withinMembers : ∀ (i : ℕ) (members : List (String × Json)),
    ∀ p ∈ withinMembers i members, p.beginsInObject = true
  | _, [], p, hp => by
    rw [withinMembers] at hp
    cases hp
  | i, (key, value) :: members, p, hp => by
    rw [withinMembers, withinMember, List.mem_append, List.mem_cons, List.mem_map] at hp
    rcases hp with (rfl | ⟨q, -, rfl⟩) | hp
    · rfl
    · rfl
    · exact beginsInObject_withinMembers (i + 1) members p hp

theorem beginsInObject_withinElements : ∀ (i : ℕ) (elements : List Json),
    ∀ p ∈ withinElements i elements, p.beginsInObject = false
  | _, [], p, hp => by
    rw [withinElements] at hp
    cases hp
  | i, element :: elements, p, hp => by
    rw [withinElements, List.mem_append, List.mem_cons, List.mem_map] at hp
    rcases hp with (rfl | ⟨q, -, rfl⟩) | hp
    · rfl
    · rfl
    · exact beginsInObject_withinElements (i + 1) elements p hp

theorem within_of_isPrimitive {value : Json} (h : value.isPrimitive = true) :
    value.within = [] := by
  cases value <;> first | rfl | cases h

end Json

namespace GfxrVulkanCommandHierarchyCreator

open Json Planting State

/-! ## The positions that are shown -/

/-- The value at the end of a path stands under a key; `held` is that of the empty path. -/
def heldAt (held : Bool) : List Step → Bool
  | [] => held
  | step :: outer => heldAt step.isMember outer

/-- **A position has a node**: a value under a key, a primitive value, and an array that is an
element of an array under a key. -/
def isShown (held : Bool) (p : Position) : Bool :=
  p.step.isMember || p.value.isPrimitive || (p.value.isArray && heldAt held p.outer)

/-- The description of the node of a position. -/
def label (p : Position) : NodeDesc :=
  match p.step with
  | .member _ key => if p.value.isPrimitive then .keyValue key p.value else .key key
  | .element i => if p.value.isPrimitive then .value p.value else .element i

/-- The node for a step of a path that goes on: every key has one, and an element that is an array
if it stands in an array under a key. -/
def stepNode (held : Bool) (step : Step) (intoObject : Bool) : List NodeDesc :=
  match step with
  | .member _ key => [.key key]
  | .element i => if held && !intoObject then [.element i] else []

/-- The nodes above a position, from the outermost on. -/
def ancestors (last : Step) : Bool → List Step → List NodeDesc
  | _, [] => []
  | held, step :: outer =>
    stepNode held step (outer.headD last).isMember ++ ancestors last step.isMember outer

/-- An argument node, with the nodes above it. -/
structure ArgEntry where
  above : List NodeDesc
  desc : NodeDesc
  isLeaf : Bool

def ArgEntry.under (above : List NodeDesc) (e : ArgEntry) : ArgEntry :=
  { e with above := above ++ e.above }

/-- The entry of a position. It is a leaf if nothing inside its value has a node. -/
def positionEntry (held : Bool) (p : Position) : ArgEntry where
  above := ancestors p.step held p.outer
  desc := label p
  isLeaf := (p.value.within.filter (isShown p.step.isMember)).isEmpty

/-- The entries of the positions that have a node. -/
def shownEntries (held : Bool) (positions : List Position) : List ArgEntry :=
  (positions.filter (isShown held)).map (positionEntry held)

section Entries

variable {held : Bool} {positions positions' : List Position} {step : Step} {above : List NodeDesc}

theorem shownEntries_append : shownEntries held (positions ++ positions') =
    shownEntries held positions ++ shownEntries held positions' := by
  rw [shownEntries, List.filter_append, List.map_append]
  rfl

theorem shownEntries_under
    (h : ∀ p ∈ positions, stepNode held step p.beginsInObject = above) :
    shownEntries held (positions.map (.under step)) =
      (shownEntries step.isMember positions).map (.under above) := by
  have hshown : isShown held ∘ Position.under step = isShown step.isMember := rfl
  rw [shownEntries, List.filter_map, hshown, List.map_map, shownEntries, List.map_map]
  apply List.map_congr_left
  intro p hp
  have habove := h p (List.mem_of_mem_filter hp)
  show positionEntry held (p.under step) = (positionEntry step.isMember p).under above
  rw [← habove]
  rfl

theorem map_under_nil (entries : List ArgEntry) : entries.map (.under []) = entries :=
  List.map_id entries

end Entries

/-! ## Forests of nodes -/

/-- The argument nodes below a node, in order. -/
inductive ArgForest
  | nil
  | cons (index : ℕ) (desc : NodeDesc) (children siblings : ArgForest)

namespace ArgForest

def append : ArgForest → ArgForest → ArgForest
  | nil, g => g
  | cons index desc children siblings, g => cons index desc children (siblings.append g)

def isNil : ArgForest → Bool
  | nil => true
  | cons .. => false

/-- The nodes that are not below another one. -/
def roots : ArgForest → List ℕ
  | nil => []
  | cons index _ _ siblings => index :: siblings.roots

/-- All nodes, in preorder. -/
def indices : ArgForest → List ℕ
  | nil => []
  | cons index _ children siblings => index :: children.indices ++ siblings.indices

/-- The entries of the nodes, in preorder. -/
def outline : ArgForest → List ArgEntry
  | nil => []
  | cons _ desc children siblings =>
    ⟨[], desc, children.isNil⟩ :: children.outline.map (.under [desc]) ++ siblings.outline

/-- The leaves, in their order. -/
def leaves (f : ArgForest) : List ArgEntry := f.outline.filter (·.isLeaf)

/-- The creator has these nodes, with these children. -/
def Shown (t : State) : ArgForest → Prop
  | nil => True
  | cons index desc children siblings =>
    t.nodes[index]? = some ⟨.kGfxrVulkanCommandArgNode, desc⟩ ∧
      t.childrenAt index = children.roots ∧ Shown t children ∧ Shown t siblings

variable {f g : ArgForest} {s t : State}

theorem roots_append : (f.append g).roots = f.roots ++ g.roots := by
  induction f with
  | nil => rfl
  | cons index desc children siblings _ ih => exact congrArg (index :: ·) ih

theorem indices_append : (f.append g).indices = f.indices ++ g.indices := by
  induction f with
  | nil => rfl
  | cons index desc children siblings _ ih =>
    rw [append, indices, indices, ih, List.append_assoc]

theorem outline_append : (f.append g).outline = f.outline ++ g.outline := by
  induction f with
  | nil => rfl
  | cons index desc children siblings _ ih =>
    rw [append, outline, outline, ih, List.append_assoc]

theorem isNil_eq_isEmpty_outline : f.isNil = f.outline.isEmpty := by
  cases f <;> rfl

theorem shown_append : (f.append g).Shown t ↔ f.Shown t ∧ g.Shown t := by
  induction f with
  | nil => exact ⟨fun h => ⟨trivial, h⟩, fun h => h.2⟩
  | cons index desc children siblings _ ih =>
    rw [append, Shown, Shown, ih]
    tauto

theorem Shown.mono (h : f.Shown s) (hnodes : s.nodes <+: t.nodes)
    (hchildren : ∀ i ∈ f.indices, t.childrenAt i = s.childrenAt i) : f.Shown t := by
  induction f with
  | nil => trivial
  | cons index desc children siblings ihChildren ihSiblings =>
    obtain ⟨hnode, hroots, hbelow, hbeside⟩ := h
    rw [indices] at hchildren
    refine ⟨?_, ?_, ihChildren hbelow fun i hi => ?_, ihSiblings hbeside fun i hi => ?_⟩
    · obtain ⟨added, hadded⟩ := hnodes
      rw [← hadded, List.getElem?_append_left (List.getElem?_eq_some_iff.mp hnode).1, hnode]
    · rw [hchildren index (List.mem_append_left _ List.mem_cons_self), hroots]
    · exact hchildren i (List.mem_append_left _ (List.mem_cons_of_mem index hi))
    · exact hchildren i (List.mem_append_right _ hi)

theorem Shown.unique (hf : f.Shown t) (hg : g.Shown t) (hroots : f.roots = g.roots) : f = g := by
  induction f generalizing g with
  | nil =>
    cases g with
    | nil => rfl
    | cons => cases hroots
  | cons index desc children siblings ihChildren ihSiblings =>
    cases g with
    | nil => cases hroots
    | cons index' desc' children' siblings' =>
      rw [roots, roots, List.cons.injEq] at hroots
      obtain ⟨rfl, hroots⟩ := hroots
      obtain ⟨hnode, hchildren, hbelow, hbeside⟩ := hf
      obtain ⟨hnode', hchildren', hbelow', hbeside'⟩ := hg
      rw [hnode] at hnode'
      cases hnode'
      rw [ihChildren hbelow hbelow' (hchildren.symm.trans hchildren'),
        ihSiblings hbeside hbeside' hroots]

end ArgForest

/-! ## What is added -/

/-- The nodes `forest` are added below the node `c`, and no other. -/
structure Adds (c : ℕ) (s t : State) (forest : ArgForest) : Prop where
  nodes : s.nodes <+: t.nodes
  indices : forest.indices = List.range' s.nodes.length (t.nodes.length - s.nodes.length)
  shown : forest.Shown t
  children : t.childrenAt c = s.childrenAt c ++ forest.roots
  others : ∀ i < s.nodeChildren.length, i ≠ s.localIndex c →
    t.nodeChildren[i]? = s.nodeChildren[i]?
  localIndex : ∀ n < s.nodes.length, t.localIndex n = s.localIndex n
  attached : t.nodeChildren.flatten.Perm (forest.indices ++ s.nodeChildren.flatten)

/-- The node `c` is one of those that have a child list. -/
structure Place (base : ℕ) (s : State) (c : ℕ) : Prop where
  filled : Filled base s
  base_le : base ≤ c
  lt : c < s.nodes.length

section Adds

variable {base c : ℕ} {s t u : State} {f g : ArgForest} {desc : NodeDesc}

theorem State.Filled.localIndex_eq (h : Filled base s) {n : ℕ} (hbase : base ≤ n)
    (hn : n < s.nodes.length) : s.localIndex n = n - base ∧ n - base < s.nodeChildren.length := by
  have hlength := h.length_nodes
  have hlt : n - base < s.nodeChildren.length := by omega
  have hlocal := h.localIndex_add (n - base) hlt
  rw [Nat.add_sub_cancel' hbase] at hlocal
  exact ⟨hlocal, hlt⟩

theorem localIndex_addArg {n : ℕ} (hn : n < s.nodes.length) :
    (s.addArg c desc).1.localIndex n = s.localIndex n := by
  simp only [State.addArg, localIndex_addChild, localIndex_addNode]
  rw [if_neg]
  omega

theorem Place.localIndex_lt (h : Place base s c) : s.localIndex c < s.nodeChildren.length := by
  obtain ⟨hlocal, hlt⟩ := h.filled.localIndex_eq h.base_le h.lt
  rwa [hlocal]

theorem Place.nodeChildren_addArg (h : Place base s c) : (s.addArg c desc).1.nodeChildren =
    (s.nodeChildren ++ [[]]).modify (s.localIndex c) (· ++ [s.nodes.length]) := by
  have hlt := h.lt
  have hlocal : (s.addNode .kGfxrVulkanCommandArgNode desc).1.localIndex c = s.localIndex c := by
    rw [localIndex_addNode, if_neg]
    omega
  simp only [State.addArg, addNode_index, addChild, addNode_nodeChildren, hlocal]

theorem Place.childrenAt_addArg (h : Place base s c) :
    (s.addArg c desc).1.childrenAt c = s.childrenAt c ++ [s.nodes.length] := by
  have hlists := h.localIndex_lt
  show childrenIn (s.addArg c desc).1.nodeChildren ((s.addArg c desc).1.localIndex c) = _
  rw [localIndex_addArg h.lt, h.nodeChildren_addArg, childrenIn_addChild (by simp; omega), if_pos rfl,
    childrenIn_addNode]
  rfl

theorem Place.childrenAt_new (h : Place base s c) :
    (s.addArg c desc).1.childrenAt s.nodes.length = [] := by
  have hnew : (s.addArg c desc).1.nodes.length = s.nodes.length + 1 := by simp
  have hlength := h.filled.length_nodes
  have hlists := h.localIndex_lt
  obtain ⟨hlocal, -⟩ := (h.filled.addArg c desc).localIndex_eq
    (show base ≤ s.nodes.length by omega) (by omega)
  show childrenIn (s.addArg c desc).1.nodeChildren _ = _
  rw [hlocal, h.nodeChildren_addArg, childrenIn_addChild (by simp; omega), if_neg (by omega),
    childrenIn_addNode, childrenIn_of_length_le (by omega)]

theorem Place.addArg (h : Place base s c) (desc : NodeDesc) :
    Place base (s.addArg c desc).1 s.nodes.length where
  filled := h.filled.addArg c desc
  base_le := by
    have hlength := h.filled.length_nodes
    omega
  lt := by simp

theorem adds_refl (c : ℕ) (s : State) : Adds c s s .nil where
  nodes := List.prefix_rfl
  indices := by rw [Nat.sub_self]; rfl
  shown := trivial
  children := (List.append_nil _).symm
  others := fun _ _ _ => rfl
  localIndex := fun _ _ => rfl
  attached := .refl _

theorem Adds.childrenAt_eq (h : Adds c s t f) (hs : Place base s c) (ht : Filled base t) {n : ℕ}
    (hbase : base ≤ n) (hn : n < s.nodes.length) (hne : n ≠ c) :
    t.childrenAt n = s.childrenAt n := by
  have hlength := h.nodes.length_le
  obtain ⟨hlocal, hlt⟩ := hs.filled.localIndex_eq hbase hn
  rw [State.childrenAt, State.childrenAt, (ht.localIndex_eq hbase (hn.trans_le hlength)).1, hlocal,
    h.others _ hlt]
  rw [(hs.filled.localIndex_eq hs.base_le hs.lt).1]
  have hc := hs.base_le
  omega

theorem Adds.trans (hs : Place base s c) (h : Adds c s t f) (ht : Filled base t)
    (h' : Adds c t u g) (hu : Filled base u) : Adds c s u (f.append g) := by
  have hle := h.nodes.length_le
  have hle' := h'.nodes.length_le
  have hplace : Place base t c := ⟨ht, hs.base_le, hs.lt.trans_le hle⟩
  have hlocal : t.localIndex c = s.localIndex c := h.localIndex c hs.lt
  refine ⟨h.nodes.trans h'.nodes, ?_, ?_, ?_, ?_, ?_, ?_⟩
  · rw [ArgForest.indices_append, h.indices, h'.indices]
    have hsum : u.nodes.length - s.nodes.length =
      (t.nodes.length - s.nodes.length) + (u.nodes.length - t.nodes.length) := by omega
    rw [hsum, ← List.range'_append_1, Nat.add_sub_cancel' hle]
  · refine ArgForest.shown_append.mpr ⟨h.shown.mono h'.nodes fun i hi => ?_, h'.shown⟩
    rw [h.indices, List.mem_range'_1] at hi
    have hbase := hs.filled.length_nodes
    have hc := hs.lt
    exact h'.childrenAt_eq hplace hu (by omega) (by omega) (by omega)
  · rw [h'.children, h.children, ArgForest.roots_append, List.append_assoc]
  · intro i hi hne
    have hlength := hs.filled.length_nodes
    have hlength' := ht.length_nodes
    rw [h'.others i (by omega) (hlocal ▸ hne), h.others i hi hne]
  · intro n hn
    rw [h'.localIndex n (by omega), h.localIndex n hn]
  · rw [ArgForest.indices_append, List.append_assoc]
    refine h'.attached.trans ((h.attached.append_left _).trans ?_)
    rw [← List.append_assoc, ← List.append_assoc]
    exact List.perm_append_comm.append_right _

theorem Adds.node (hs : Place base s c) (h : Adds s.nodes.length (s.addArg c desc).1 t f)
    (ht : Filled base t) : Adds c s t (.cons s.nodes.length desc f .nil) := by
  have hplace := hs.addArg desc
  have hlt := hs.lt
  have hnodes : (s.addArg c desc).1.nodes = s.nodes ++ [⟨.kGfxrVulkanCommandArgNode, desc⟩] :=
    addArg_nodes
  have hnew : (s.addArg c desc).1.nodes.length = s.nodes.length + 1 := by rw [hnodes]; simp
  have hle := h.nodes.length_le
  have hlength := hs.filled.length_nodes
  refine ⟨?_, ?_, ⟨?_, ?_, h.shown, trivial⟩, ?_, ?_, ?_, ?_⟩
  · exact (List.prefix_append _ _).trans (hnodes ▸ h.nodes)
  · have hcount : t.nodes.length - s.nodes.length =
      t.nodes.length - (s.addArg c desc).1.nodes.length + 1 := by omega
    rw [ArgForest.indices, h.indices, ArgForest.indices, List.append_nil, hcount, hnew,
      List.range'_succ]
  · obtain ⟨added, hadded⟩ := h.nodes
    rw [← hadded, hnodes]
    simp
  · rw [h.children, hs.childrenAt_new]
    rfl
  · rw [h.childrenAt_eq hplace ht hs.base_le (by omega) (by omega), hs.childrenAt_addArg]
    rfl
  · intro i hi hne
    have hlocal := (hplace.filled.localIndex_eq hplace.base_le hplace.lt).1
    rw [h.others i (by rw [hs.nodeChildren_addArg]; simp; omega) (by omega),
      hs.nodeChildren_addArg, List.getElem?_modify_ne _ _ hne.symm, List.getElem?_append_left hi]
  · intro n hn
    rw [h.localIndex n (by omega), localIndex_addArg hn]
  · have hlists := hs.localIndex_lt
    have hone : (s.addArg c desc).1.nodeChildren.flatten.Perm
        (s.nodes.length :: s.nodeChildren.flatten) := by
      rw [hs.nodeChildren_addArg]
      refine (flatten_modify_perm (by simp; omega)).trans ?_
      simp
    rw [ArgForest.indices, ArgForest.indices, List.append_nil]
    exact (h.attached.trans (hone.append_left _)).trans List.perm_middle

end Adds

/-! ## The recursion -/

/-- What is added below `c` are nodes for these positions. -/
structure AddsShown (base c : ℕ) (s t : State) (held : Bool) (positions : List Position) : Prop where
  filled : Filled base t
  adds : ∃ forest, Adds c s t forest ∧ forest.outline = shownEntries held positions

section Recursion

variable {base c : ℕ} {s t u : State} {held : Bool} {positions positions' : List Position}
  {step : Step} {value : Json} {i : ℕ}

theorem AddsShown.nodes (h : AddsShown base c s t held positions) : s.nodes <+: t.nodes := by
  obtain ⟨forest, hadds, -⟩ := h.adds
  exact hadds.nodes

theorem Place.mono (h : Place base s c) (ht : AddsShown base c s t held positions) :
    Place base t c :=
  ⟨ht.filled, h.base_le, h.lt.trans_le ht.nodes.length_le⟩

theorem addsShown_nil (h : Filled base s) : AddsShown base c s s held [] :=
  ⟨h, .nil, adds_refl c s, rfl⟩

theorem AddsShown.trans (hs : Place base s c) (h : AddsShown base c s t held positions)
    (h' : AddsShown base c t u held positions') :
    AddsShown base c s u held (positions ++ positions') := by
  obtain ⟨f, hf, houtline⟩ := h.adds
  obtain ⟨g, hg, houtline'⟩ := h'.adds
  refine ⟨h'.filled, f.append g, hf.trans hs h.filled hg h'.filled, ?_⟩
  rw [ArgForest.outline_append, houtline, houtline', shownEntries_append]

theorem AddsShown.node (hs : Place base s c) {p : Position} (hp : p = ⟨[], step, value⟩)
    (hshown : isShown held p = true)
    (hstep : ∀ q ∈ value.within, stepNode held step q.beginsInObject = [label p])
    (h : AddsShown base s.nodes.length (s.addArg c (label p)).1 t step.isMember value.within) :
    AddsShown base c s t held (p :: value.within.map (.under step)) := by
  obtain ⟨f, hf, houtline⟩ := h.adds
  refine ⟨h.filled, .cons s.nodes.length (label p) f .nil, hf.node hs h.filled, ?_⟩
  have hleaf : f.isNil = (value.within.filter (isShown step.isMember)).isEmpty := by
    rw [ArgForest.isNil_eq_isEmpty_outline, houtline, shownEntries, List.isEmpty_map]
  have hentry : positionEntry held p = ⟨[], label p, f.isNil⟩ := by
    rw [hleaf, positionEntry, hp]
    rfl
  have hcons : shownEntries held (p :: value.within.map (.under step)) =
      positionEntry held p :: shownEntries held (value.within.map (.under step)) := by
    rw [shownEntries, List.filter_cons_of_pos hshown, List.map_cons]
    rfl
  rw [ArgForest.outline, ArgForest.outline, List.append_nil, houtline, hcons, hentry,
    shownEntries_under hstep]

theorem addsShown_primitive (hs : Place base s c) (step : Step) (hvalue : value.isPrimitive = true)
    {desc : NodeDesc} (hdesc : label ⟨[], step, value⟩ = desc) :
    AddsShown base c s (s.addArg c desc).1 held
      (⟨[], step, value⟩ :: value.within.map (.under step)) := by
  have hwithin := within_of_isPrimitive hvalue
  rw [← hdesc]
  refine .node hs rfl ?_ (by simp [hwithin]) ?_
  · rw [isShown, hvalue, Bool.or_true, Bool.true_or]
  · rw [hwithin]
    exact addsShown_nil (hs.filled.addArg c _)

theorem AddsShown.skip (hshown : isShown held ⟨[], .element i, value⟩ = false)
    (hstep : ∀ q ∈ value.within, stepNode held (.element i) q.beginsInObject = [])
    (h : AddsShown base c s t false value.within) :
    AddsShown base c s t held
      (⟨[], .element i, value⟩ :: value.within.map (.under (.element i))) := by
  obtain ⟨f, hf, houtline⟩ := h.adds
  refine ⟨h.filled, f, hf, ?_⟩
  have hcons : shownEntries held
      (⟨[], .element i, value⟩ :: value.within.map (.under (.element i))) =
        shownEntries held (value.within.map (.under (.element i))) := by
    rw [shownEntries, List.filter_cons_of_neg (by rw [hshown]; decide)]
    rfl
  rw [houtline, hcons, shownEntries_under hstep, map_under_nil]
  rfl

mutual

theorem getMembers_adds {c : ℕ} {s : State} (hs : Place base s c) (k : ℕ) : ∀ members : List (String × Json),
    ∀ held, AddsShown base c s (getMembers s c members) held (withinMembers k members)
  | [] => fun held => by
    rw [getMembers, withinMembers]
    exact addsShown_nil hs.filled
  | member :: members => fun held => by
    rw [getMembers, withinMembers]
    have hone := getMember_adds hs k member held
    exact hone.trans hs (getMembers_adds (hs.mono hone) (k + 1) members held)

theorem getMember_adds {c : ℕ} {s : State} (hs : Place base s c) (k : ℕ) : ∀ member : String × Json,
    ∀ held, AddsShown base c s (getMember s c member) held (withinMember k member)
  | (key, .object members) => fun held => by
    rw [getMember, withinMember]
    simp only [addArg_index]
    exact .node hs rfl rfl (fun q _ => rfl) (getMembers_adds (hs.addArg _) 0 members true)
  | (key, .array elements) => fun held => by
    rw [getMember, withinMember]
    simp only [addArg_index]
    exact .node hs rfl rfl (fun q _ => rfl) (getValueElements_adds (hs.addArg _) 0 elements)
  | (key, .null) => fun _ => addsShown_primitive hs (.member k key) rfl rfl
  | (key, .boolean v) => fun _ => addsShown_primitive hs (.member k key) rfl rfl
  | (key, .unsigned v) => fun _ => addsShown_primitive hs (.member k key) rfl rfl
  | (key, .integer v) => fun _ => addsShown_primitive hs (.member k key) rfl rfl
  | (key, .float v) => fun _ => addsShown_primitive hs (.member k key) rfl rfl
  | (key, .string v) => fun _ => addsShown_primitive hs (.member k key) rfl rfl

theorem getValueElements_adds {c : ℕ} {s : State} (hs : Place base s c) (k : ℕ) : ∀ elements : List Json,
    AddsShown base c s (getValueElements s c k elements) true (withinElements k elements)
  | [] => by
    rw [getValueElements, withinElements]
    exact addsShown_nil hs.filled
  | element :: elements => by
    rw [getValueElements, withinElements]
    have hone := getValueElement_adds hs k element
    exact hone.trans hs (getValueElements_adds (hs.mono hone) (k + 1) elements)

theorem getValueElement_adds {c : ℕ} {s : State} (hs : Place base s c) (k : ℕ) : ∀ element : Json,
    AddsShown base c s (getValueElement s c k element) true
      (⟨[], .element k, element⟩ :: element.within.map (.under (.element k)))
  | .object members => by
    rw [getValueElement]
    refine .skip rfl (fun q hq => ?_) (getMembers_adds hs 0 members false)
    rw [beginsInObject_withinMembers 0 members q hq]
    rfl
  | .array elements => by
    rw [getValueElement]
    simp only [addArg_index]
    refine .node hs rfl rfl (fun q hq => ?_) (getElements_adds (hs.addArg _) 0 elements)
    rw [beginsInObject_withinElements 0 elements q hq]
    rfl
  | .null => addsShown_primitive hs (.element k) rfl rfl
  | .boolean v => addsShown_primitive hs (.element k) rfl rfl
  | .unsigned v => addsShown_primitive hs (.element k) rfl rfl
  | .integer v => addsShown_primitive hs (.element k) rfl rfl
  | .float v => addsShown_primitive hs (.element k) rfl rfl
  | .string v => addsShown_primitive hs (.element k) rfl rfl

theorem getElements_adds {c : ℕ} {s : State} (hs : Place base s c) (k : ℕ) : ∀ elements : List Json,
    AddsShown base c s (getElements s c elements) false (withinElements k elements)
  | [] => by
    rw [getElements, withinElements]
    exact addsShown_nil hs.filled
  | element :: elements => by
    rw [getElements, withinElements]
    have hone := getElement_adds hs k element
    exact hone.trans hs (getElements_adds (hs.mono hone) (k + 1) elements)

theorem getElement_adds {c : ℕ} {s : State} (hs : Place base s c) (k : ℕ) : ∀ element : Json,
    AddsShown base c s (getElement s c element) false
      (⟨[], .element k, element⟩ :: element.within.map (.under (.element k)))
  | .object members => by
    rw [getElement]
    exact .skip rfl (fun q _ => rfl) (getMembers_adds hs 0 members false)
  | .array elements => by
    rw [getElement]
    exact .skip rfl (fun q _ => rfl) (getElements_adds hs 0 elements)
  | .null => addsShown_primitive hs (.element k) rfl rfl
  | .boolean v => addsShown_primitive hs (.element k) rfl rfl
  | .unsigned v => addsShown_primitive hs (.element k) rfl rfl
  | .integer v => addsShown_primitive hs (.element k) rfl rfl
  | .float v => addsShown_primitive hs (.element k) rfl rfl
  | .string v => addsShown_primitive hs (.element k) rfl rfl

end

/-- **`GetArgs` adds a node for each position that is shown**, and nothing else. -/
theorem adds_getArgs (hs : Place base s c) (args : Json) :
    AddsShown base c s (s.getArgs c args) false args.within := by
  cases args with
  | object members => exact getMembers_adds hs 0 members false
  | array elements => exact getElements_adds hs 0 elements
  | _ => exact addsShown_nil hs.filled

end Recursion

/-! ## Commands -/

/-- The children are nodes of the hierarchy. -/
def ChildrenExist (s : State) : Prop := ∀ c ∈ s.nodeChildren.flatten, c < s.nodes.length

section ChildrenExist

variable {s : State} {c : ℕ}

theorem ChildrenExist.addNode (h : ChildrenExist s) (type : NodeType) (desc : NodeDesc) :
    ChildrenExist (s.addNode type desc).1 := by
  intro c hc
  rw [addNode_nodeChildren, List.flatten_append, List.mem_append] at hc
  rw [addNode_nodes, List.length_append, List.length_singleton]
  rcases hc with hc | hc
  · exact Nat.lt_succ_of_lt (h c hc)
  · simp at hc

theorem ChildrenExist.addChild (h : ChildrenExist s) (p : ℕ) (hc : c < s.nodes.length) :
    ChildrenExist (s.addChild p c) := by
  intro d hd
  show d < s.nodes.length
  unfold State.addChild at hd
  rcases Nat.lt_or_ge (s.localIndex p) s.nodeChildren.length with hlt | hge
  · rw [(flatten_modify_perm hlt).mem_iff, List.mem_cons] at hd
    rcases hd with rfl | hd
    · exact hc
    · exact h d hd
  · rw [List.modify_eq_self hge] at hd
    exact h d hd

theorem ChildrenExist.getArgs (h : ChildrenExist s) (args : Json) :
    ChildrenExist (s.getArgs c args) := by
  have halike := getArgs_alike s s c c args
  suffices hall : ∀ t t', Alike c c s s t t' → ChildrenExist t from hall _ _ halike
  intro t t' halike
  induction halike with
  | start => exact h
  | belowGiven desc _ ih =>
    simpa [State.addArg] using (ih.addNode .kGfxrVulkanCommandArgNode desc).addChild c (by simp)
  | belowNew k desc _ _ ih =>
    simpa [State.addArg] using
      (ih.addNode .kGfxrVulkanCommandArgNode desc).addChild (s.nodes.length + k) (by simp)

theorem ChildrenExist.place (h : ChildrenExist s) (parent : ℕ) (type : NodeType)
    (desc : NodeDesc) (args : Json) : ChildrenExist (s.place parent type desc args) :=
  ((h.addNode type desc).getArgs args).addChild parent (place_length parent args)

theorem ChildrenExist.onCommand (h : ChildrenExist s) (v : DiveAnnotationProcessor.VulkanCommandInfo)
    (n : ℕ) (counts : List ℕ) : ChildrenExist (s.onCommand v n counts).1 := by
  rw [onCommand_eq]
  cases commandNode v n counts with
  | none =>
    show ChildrenExist s.closeLabel
    unfold closeLabel
    split
    · exact h
    · split_ifs <;> exact h
  | some node =>
    have hplace := fun kind => h.place (s.parentFor kind) node.1 node.2 v.args
    show ChildrenExist (moveCursors _ _ _)
    cases commandKind v.name.text <;> exact hplace _

theorem ChildrenExist.onCommands (n : ℕ) (h : ChildrenExist s)
    (vkCmds : List DiveAnnotationProcessor.VulkanCommandInfo) (counts : List ℕ) :
    ChildrenExist (State.onCommands n s vkCmds counts) := by
  induction vkCmds generalizing s counts with
  | nil => exact h
  | cons v vkCmds ih => exact ih (h.onCommand v n counts) _

theorem Reached.childrenExist (h : Reached s) : ChildrenExist s := by
  have hframe : ∀ s : State, ChildrenExist s → ChildrenExist s.addFrame := by
    intro s hs
    rw [addFrame]
    simp only [addNode_index]
    exact (hs.addNode .kGfxrRootFrameNode (.text "Frame")).addChild Topology.kRootNodeIndex
      (by simp)
  induction h with
  | alone =>
    refine hframe _ fun c hc => ?_
    cases hc
  | mixed nodes =>
    refine hframe _ fun c hc => ?_
    cases hc
  | onGfxrSubmit submitIndex submitInfo _ ih =>
    rw [onGfxrSubmit_eq]
    exact (ih.addNode _ _).addChild Topology.kRootNodeIndex (by simp)
  | processVkCmds vkCmds n counts _ ih => exact ih.onCommands n vkCmds counts

end ChildrenExist

/-- The states in which `GetArgs` is called, with the node of the command, in a hierarchy alone and
in a mixed one. The node that begins a command buffer has become the current one. -/
inductive TakesArgs : State → ℕ → Prop
  | command {s t : State} (type : NodeType) (desc : NodeDesc) (drawCallCount : ℕ)
    (vkCmds : List DiveAnnotationProcessor.VulkanCommandInfo)
    (renderPassDrawCallCounts : List ℕ) : Reached s →
    t = onCommands drawCallCount s vkCmds renderPassDrawCallCounts →
    TakesArgs (t.addNode type desc).1 t.nodes.length
  | commandBuffer {s : State} {c : ℕ} : TakesArgs s c → TakesArgs (s.withCommandBuffer c) c

theorem TakesArgs.place {s : State} {c : ℕ} (h : TakesArgs s c) :
    ChildrenExist s ∧ ∃ base, Place base s c := by
  induction h with
  | @command s t type desc n vkCmds counts hs ht =>
    obtain ⟨⟨base, hbase⟩, -⟩ := hs.filled
    have hfilled := (extends_onCommands n s vkCmds counts).filled base hbase
    rw [← ht] at hfilled
    refine ⟨(ht ▸ hs.childrenExist.onCommands n vkCmds counts).addNode type desc, base,
      hfilled.addNode type desc, ?_, by simp⟩
    have hlength := hfilled.length_nodes
    omega
  | @commandBuffer s c _ ih =>
    obtain ⟨hexist, base, hplace⟩ := ih
    exact ⟨hexist, base, (extends_withCommandBuffer s c).filled base hplace.filled, hplace.base_le,
      hplace.lt⟩

/-- The positions that are shown as leaves: nothing inside their value has a node. -/
def leafPositions (args : Json) : List Position :=
  args.within.filter fun p => isShown false p && (positionEntry false p).isLeaf

theorem leaves_eq {forest : ArgForest} {args : Json}
    (h : forest.outline = shownEntries false args.within) :
    forest.leaves = (leafPositions args).map (positionEntry false) := by
  rw [ArgForest.leaves, h, shownEntries, List.filter_map, List.filter_filter, leafPositions]
  congr 1
  apply List.filter_congr
  intro p _
  exact Bool.and_comm _ _

/-- **The tree of the arguments is complete**: what is added below the node of a command is a
forest with one leaf for each of the positions, in document order and below the nodes on the path to
it; each node that is added has one parent, and the other nodes stay. -/
theorem argsComplete {s : State} {c : ℕ} (h : TakesArgs s c) (args : Json) :
    ∃ forest, Adds c s (s.getArgs c args) forest ∧
      (∀ n, s.nodes.length ≤ n → n < (s.getArgs c args).nodes.length →
        (s.getArgs c args).nodeChildren.flatten.count n = 1) ∧
      forest.leaves = (leafPositions args).map (positionEntry false) := by
  obtain ⟨hexist, base, hplace⟩ := h.place
  obtain ⟨-, forest, hadds, houtline⟩ := adds_getArgs hplace args
  refine ⟨forest, hadds, fun n hle hlt => ?_, leaves_eq houtline⟩
  have hold : s.nodeChildren.flatten.count n = 0 :=
    List.count_eq_zero_of_not_mem fun hmem => absurd (hexist n hmem) (not_lt.mpr hle)
  rw [hadds.attached.count_eq, List.count_append, hold, hadds.indices]
  exact List.count_eq_one_of_mem List.nodup_range' (List.mem_range'_1.mpr (by omega))

/-! ## A nested array -/

/-- `{"k": [[1]]}`. -/
def nestedArray : Json := .object [("k", .array [.array [.unsigned 1]])]

/-- A command alone, in a hierarchy with the root and the frame. -/
def oneCommand : State := (alone.addFrame.addNode .kGfxrVulkanCommandNode (.text "vkCmd")).1

theorem takesArgs_oneCommand : TakesArgs oneCommand 2 :=
  .command .kGfxrVulkanCommandNode (.text "vkCmd") 0 [] [] .alone rfl

theorem argsComplete_nestedArray : ∃ forest,
    Adds 2 oneCommand (oneCommand.getArgs 2 nestedArray) forest ∧
      (∀ n, 3 ≤ n → n < 6 →
        (oneCommand.getArgs 2 nestedArray).nodeChildren.flatten.count n = 1) ∧
      forest.leaves = [⟨[.key "k", .element 0], .value (.unsigned 1), true⟩] :=
  argsComplete takesArgs_oneCommand nestedArray

/-- A primitive value, or an empty object or array under a key. -/
def isValueOrEmpty (p : Position) : Bool :=
  p.value.isPrimitive || (p.step.isMember && p.value.within.isEmpty)

/-- The keys on the path to a position. -/
def keysAbove (p : Position) : List NodeDesc :=
  p.outer.filterMap fun
    | .member _ key => some (.key key)
    | .element _ => none

/-- The element of a nested array stands below a node that is not for a key. -/
theorem nestedArray_not_by_keys : TakesArgs oneCommand 2 ∧
    ∀ forest, Adds 2 oneCommand (oneCommand.getArgs 2 nestedArray) forest →
      forest.leaves.map ArgEntry.above ≠
        (nestedArray.within.filter isValueOrEmpty).map keysAbove := by
  refine ⟨takesArgs_oneCommand, fun forest hforest hkeys => ?_⟩
  obtain ⟨-, base, hplace⟩ := takesArgs_oneCommand.place
  obtain ⟨-, other, hother, houtline⟩ := adds_getArgs hplace nestedArray
  have hroots : forest.roots = other.roots :=
    List.append_cancel_left (hforest.children.symm.trans hother.children)
  rw [hforest.shown.unique hother.shown hroots, leaves_eq houtline] at hkeys
  have hlengths := congrArg (List.map List.length) hkeys
  revert hlengths
  decide

end GfxrVulkanCommandHierarchyCreator

end Dive
