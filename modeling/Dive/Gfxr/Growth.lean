import Dive.Gfxr.Hierarchy
import Mathlib.Data.List.GetD

/-!
# How the hierarchy of a GFXR capture grows

* `Filled`: the child lists are those of the nodes from `base` on.
* `Alike`: two creators that add argument nodes in the same places.
* **`getArgs_alike`**: the arguments of a value are added alike, to any two creators.
* `Extends`: nodes and children are only added; `extends_onCommand`, `extends_processVkCmds`.
* `Reached`: the states between two command buffers.
-/

namespace Dive.GfxrVulkanCommandHierarchyCreator

open DiveAnnotationProcessor

namespace State

variable {s t s' t' u : State} {base i n p c : ℕ} {type : NodeType} {desc : NodeDesc}

/-! ## New nodes -/

@[simp] theorem addNode_index : (s.addNode type desc).2 = s.nodes.length := by
  cases hmixed : s.usedInMixedCommandHierarchy <;> simp [addNode, hmixed]

@[simp] theorem addNode_nodes : (s.addNode type desc).1.nodes = s.nodes ++ [⟨type, desc⟩] := by
  cases hmixed : s.usedInMixedCommandHierarchy <;> simp [addNode, hmixed]

@[simp] theorem addNode_nodeChildren :
    (s.addNode type desc).1.nodeChildren = s.nodeChildren ++ [[]] := by
  cases hmixed : s.usedInMixedCommandHierarchy <;> simp [addNode, hmixed]

@[simp] theorem addNode_mixed : (s.addNode type desc).1.usedInMixedCommandHierarchy =
    s.usedInMixedCommandHierarchy := by
  cases hmixed : s.usedInMixedCommandHierarchy <;> simp [addNode, hmixed]

@[simp] theorem addNode_submit :
    (s.addNode type desc).1.curSubmitNodeIndex = s.curSubmitNodeIndex := by
  cases hmixed : s.usedInMixedCommandHierarchy <;> simp [addNode, hmixed]

@[simp] theorem addNode_commandBuffer :
    (s.addNode type desc).1.curCommandBufferNodeIndex = s.curCommandBufferNodeIndex := by
  cases hmixed : s.usedInMixedCommandHierarchy <;> simp [addNode, hmixed]

@[simp] theorem addNode_stack :
    (s.addNode type desc).1.curParentNodeIndexStack = s.curParentNodeIndexStack := by
  cases hmixed : s.usedInMixedCommandHierarchy <;> simp [addNode, hmixed]

theorem localIndex_addNode (n : ℕ) : (s.addNode type desc).1.localIndex n =
    if s.usedInMixedCommandHierarchy = true ∧ n = s.nodes.length then s.nodeChildren.length
    else s.localIndex n := by
  unfold localIndex
  rw [addNode_mixed]
  unfold addNode
  by_cases hmixed : s.usedInMixedCommandHierarchy
  · by_cases hn : n = s.nodes.length <;> simp [hmixed, hn, Function.update]
  · simp [hmixed]

/-! ## New children -/

@[simp] theorem addChild_nodes : (s.addChild p c).nodes = s.nodes := rfl

@[simp] theorem addChild_length :
    (s.addChild p c).nodeChildren.length = s.nodeChildren.length :=
  List.length_modify ..

@[simp] theorem addChild_mixed : (s.addChild p c).usedInMixedCommandHierarchy =
    s.usedInMixedCommandHierarchy := rfl

@[simp] theorem addChild_submit : (s.addChild p c).curSubmitNodeIndex = s.curSubmitNodeIndex := rfl

@[simp] theorem addChild_commandBuffer :
    (s.addChild p c).curCommandBufferNodeIndex = s.curCommandBufferNodeIndex := rfl

@[simp] theorem addChild_stack :
    (s.addChild p c).curParentNodeIndexStack = s.curParentNodeIndexStack := rfl

@[simp] theorem localIndex_addChild (n : ℕ) : (s.addChild p c).localIndex n = s.localIndex n := rfl

theorem getElem?_addChild (i : ℕ) : (s.addChild p c).nodeChildren[i]? =
    (s.nodeChildren[i]?).map fun l => if s.localIndex p = i then l ++ [c] else l := by
  rw [addChild, List.getElem?_modify]
  split_ifs <;> rfl

theorem getNodeType_addNode (h : n < s.nodes.length) :
    (s.addNode type desc).1.getNodeType n = s.getNodeType n := by
  rw [getNodeType, addNode_nodes, List.getElem?_append_left h]
  rfl

@[simp] theorem getNodeType_addNode_self :
    (s.addNode type desc).1.getNodeType s.nodes.length = some type := by
  simp [getNodeType]

/-! ## The child lists -/

/-- The nodes from `base` on have a child list each, in order. -/
structure Filled (base : ℕ) (s : State) : Prop where
  length_nodes : s.nodes.length = base + s.nodeChildren.length
  localIndex_add : ∀ i < s.nodeChildren.length, s.localIndex (base + i) = i
  localIndex_of_lt : ∀ n < base, s.localIndex n = n
  base_eq_zero : s.usedInMixedCommandHierarchy = false → base = 0

theorem Filled.addNode (h : Filled base s) (type : NodeType) (desc : NodeDesc) :
    Filled base (s.addNode type desc).1 where
  length_nodes := by simp [h.length_nodes, Nat.add_assoc]
  localIndex_add := by
    intro i hi
    rw [addNode_nodeChildren, List.length_append, List.length_singleton] at hi
    rw [localIndex_addNode]
    split_ifs with hnew
    · have := h.length_nodes
      omega
    · rcases Nat.lt_or_ge i s.nodeChildren.length with hlt | hge
      · exact h.localIndex_add i hlt
      · have hi' : base + i = s.nodes.length := by
          have := h.length_nodes
          omega
        have hmixed : s.usedInMixedCommandHierarchy = false := by
          by_contra hne
          exact hnew ⟨by simpa using hne, hi'⟩
        simp [localIndex, hmixed, h.base_eq_zero hmixed]
  localIndex_of_lt := by
    intro n hn
    rw [localIndex_addNode, if_neg, h.localIndex_of_lt n hn]
    have := h.length_nodes
    omega
  base_eq_zero := by simpa using h.base_eq_zero

theorem Filled.addChild (h : Filled base s) (p c : ℕ) : Filled base (s.addChild p c) where
  length_nodes := by simpa using h.length_nodes
  localIndex_add := by simpa using h.localIndex_add
  localIndex_of_lt := h.localIndex_of_lt
  base_eq_zero := h.base_eq_zero

theorem Filled.addArg (h : Filled base s) (p : ℕ) (desc : NodeDesc) :
    Filled base (s.addArg p desc).1 :=
  (h.addNode _ _).addChild _ _

theorem Filled.mem_childrenAt_addChild (h : Filled base s) (hbase : base ≤ p)
    (hp : p < s.nodes.length) : c ∈ (s.addChild p c).childrenAt p := by
  obtain ⟨i, rfl⟩ := Nat.exists_eq_add_of_le hbase
  have hi : i < s.nodeChildren.length := by
    have := h.length_nodes
    omega
  rw [childrenAt, localIndex_addChild, getElem?_addChild, h.localIndex_add i hi,
    List.getElem?_eq_getElem hi]
  simp

theorem mem_childrenAt_addChild_of_mem {x : ℕ} (h : x ∈ s.childrenAt p) (q : ℕ) :
    x ∈ (s.addChild q c).childrenAt p := by
  unfold childrenAt at h ⊢
  rw [localIndex_addChild, getElem?_addChild]
  cases hl : s.nodeChildren[s.localIndex p]? with
  | none => simp [hl] at h
  | some l =>
    rw [hl, Option.getD_some] at h
    rw [Option.map_some, Option.getD_some]
    split_ifs
    · exact List.mem_append_left _ h
    · exact h

/-! ## Arguments -/

/-- The creators `t` and `t'`, to which argument nodes have been added since `s` and `s'`: each one
below the given nodes `c` and `c'`, or below the new nodes of the same number. -/
inductive Alike (c c' : ℕ) (s s' : State) : State → State → Prop
  | start : Alike c c' s s' s s'
  | belowGiven {t t' : State} (desc : NodeDesc) : Alike c c' s s' t t' →
    Alike c c' s s' (t.addArg c desc).1 (t'.addArg c' desc).1
  | belowNew {t t' : State} (k : ℕ) (desc : NodeDesc) : Alike c c' s s' t t' →
    s.nodes.length + k < t.nodes.length →
    Alike c c' s s' (t.addArg (s.nodes.length + k) desc).1 (t'.addArg (s'.nodes.length + k) desc).1

/-- Two nodes, in `t` and `t'`, below which argument nodes are added alike. -/
def SamePlace (c c' : ℕ) (s s' t : State) (i i' : ℕ) : Prop :=
  (i = c ∧ i' = c') ∨
    ∃ k, s.nodes.length + k < t.nodes.length ∧ i = s.nodes.length + k ∧ i' = s'.nodes.length + k

section Alike

variable {c' i' : ℕ}

@[simp] theorem addArg_nodes : (s.addArg p desc).1.nodes =
    s.nodes ++ [⟨.kGfxrVulkanCommandArgNode, desc⟩] := by
  simp [addArg]

@[simp] theorem addArg_index : (s.addArg p desc).2 = s.nodes.length := by simp [addArg]

theorem SamePlace.mono (h : SamePlace c c' s s' t i i') (hle : t.nodes.length ≤ u.nodes.length) :
    SamePlace c c' s s' u i i' := by
  rcases h with h | ⟨k, hk, hi⟩
  · exact .inl h
  · exact .inr ⟨k, hk.trans_le hle, hi⟩

namespace Alike

theorem length_nodes (h : Alike c c' s s' t t') :
    ∃ m, t.nodes.length = s.nodes.length + m ∧ t'.nodes.length = s'.nodes.length + m := by
  induction h with
  | start => exact ⟨0, rfl, rfl⟩
  | belowGiven desc _ ih =>
    obtain ⟨m, hm, hm'⟩ := ih
    exact ⟨m + 1, by simp [hm, Nat.add_assoc], by simp [hm', Nat.add_assoc]⟩
  | belowNew k desc _ _ ih =>
    obtain ⟨m, hm, hm'⟩ := ih
    exact ⟨m + 1, by simp [hm, Nat.add_assoc], by simp [hm', Nat.add_assoc]⟩

theorem addArg (h : Alike c c' s s' t t') (hplace : SamePlace c c' s s' t i i')
    (desc : NodeDesc) : Alike c c' s s' (t.addArg i desc).1 (t'.addArg i' desc).1 := by
  rcases hplace with ⟨rfl, rfl⟩ | ⟨k, hk, rfl, rfl⟩
  · exact h.belowGiven desc
  · exact h.belowNew k desc hk

theorem samePlace_addArg (h : Alike c c' s s' t t') (p p' : ℕ) (desc : NodeDesc) :
    SamePlace c c' s s' (t.addArg p desc).1 (t.addArg p desc).2 (t'.addArg p' desc).2 := by
  obtain ⟨m, hm, hm'⟩ := h.length_nodes
  refine .inr ⟨m, ?_, ?_, ?_⟩ <;> simp [hm, hm']

end Alike

/-- What a loop over arguments does to the creators `t` and `t'`. -/
def AlikeFurther (c c' : ℕ) (s s' t u u' : State) : Prop :=
  Alike c c' s s' u u' ∧ t.nodes.length ≤ u.nodes.length

theorem AlikeFurther.of_addArg (h : Alike c c' s s' t t') (hplace : SamePlace c c' s s' t i i')
    (desc : NodeDesc) :
    AlikeFurther c c' s s' t (t.addArg i desc).1 (t'.addArg i' desc).1 :=
  ⟨h.addArg hplace desc, by simp⟩

theorem AlikeFurther.trans {t₁ t₁' t₂ t₂' : State} (h₁ : AlikeFurther c c' s s' t t₁ t₁')
    (h₂ : AlikeFurther c c' s s' t₁ t₂ t₂') : AlikeFurther c c' s s' t t₂ t₂' :=
  ⟨h₂.1, h₁.2.trans h₂.2⟩

mutual

theorem getMembers_alike {t t' : State} {i i' : ℕ} (h : Alike c c' s s' t t')
    (hplace : SamePlace c c' s s' t i i') :
    ∀ members : List (String × Json),
      AlikeFurther c c' s s' t (getMembers t i members) (getMembers t' i' members)
  | [] => by
    rw [getMembers, getMembers]
    exact ⟨h, le_rfl⟩
  | member :: members => by
    rw [getMembers, getMembers]
    have hone := getMember_alike h hplace member
    exact hone.trans (getMembers_alike hone.1 (hplace.mono hone.2) members)

theorem getMember_alike {t t' : State} {i i' : ℕ} (h : Alike c c' s s' t t')
    (hplace : SamePlace c c' s s' t i i') :
    ∀ member : String × Json,
      AlikeFurther c c' s s' t (getMember t i member) (getMember t' i' member)
  | (key, .object members) => by
    rw [getMember, getMember]
    have hnode := AlikeFurther.of_addArg h hplace (.key key)
    exact hnode.trans (getMembers_alike hnode.1 (h.samePlace_addArg i i' _) members)
  | (key, .array elements) => by
    rw [getMember, getMember]
    have hnode := AlikeFurther.of_addArg h hplace (.key key)
    exact hnode.trans (getValueElements_alike hnode.1 (h.samePlace_addArg i i' _) 0 elements)
  | (key, .null) => .of_addArg h hplace (.keyValue key .null)
  | (key, .boolean v) => .of_addArg h hplace (.keyValue key (.boolean v))
  | (key, .unsigned v) => .of_addArg h hplace (.keyValue key (.unsigned v))
  | (key, .integer v) => .of_addArg h hplace (.keyValue key (.integer v))
  | (key, .float v) => .of_addArg h hplace (.keyValue key (.float v))
  | (key, .string v) => .of_addArg h hplace (.keyValue key (.string v))

theorem getValueElements_alike {t t' : State} {i i' : ℕ} (h : Alike c c' s s' t t')
    (hplace : SamePlace c c' s s' t i i') :
    ∀ (k : ℕ) (elements : List Json),
      AlikeFurther c c' s s' t (getValueElements t i k elements) (getValueElements t' i' k elements)
  | _, [] => by
    rw [getValueElements, getValueElements]
    exact ⟨h, le_rfl⟩
  | k, element :: elements => by
    rw [getValueElements, getValueElements]
    have hone := getValueElement_alike h hplace k element
    exact hone.trans (getValueElements_alike hone.1 (hplace.mono hone.2) (k + 1) elements)

theorem getValueElement_alike {t t' : State} {i i' : ℕ} (h : Alike c c' s s' t t')
    (hplace : SamePlace c c' s s' t i i')
    (k : ℕ) : ∀ element : Json,
      AlikeFurther c c' s s' t (getValueElement t i k element) (getValueElement t' i' k element)
  | .object members => by
    rw [getValueElement, getValueElement]
    exact getMembers_alike h hplace members
  | .array elements => by
    rw [getValueElement, getValueElement]
    have hnode := AlikeFurther.of_addArg h hplace (.element k)
    exact hnode.trans (getElements_alike hnode.1 (h.samePlace_addArg i i' _) elements)
  | .null => .of_addArg h hplace (.value .null)
  | .boolean v => .of_addArg h hplace (.value (.boolean v))
  | .unsigned v => .of_addArg h hplace (.value (.unsigned v))
  | .integer v => .of_addArg h hplace (.value (.integer v))
  | .float v => .of_addArg h hplace (.value (.float v))
  | .string v => .of_addArg h hplace (.value (.string v))

theorem getElements_alike {t t' : State} {i i' : ℕ} (h : Alike c c' s s' t t')
    (hplace : SamePlace c c' s s' t i i') :
    ∀ elements : List Json,
      AlikeFurther c c' s s' t (getElements t i elements) (getElements t' i' elements)
  | [] => by
    rw [getElements, getElements]
    exact ⟨h, le_rfl⟩
  | element :: elements => by
    rw [getElements, getElements]
    have hone := getElement_alike h hplace element
    exact hone.trans (getElements_alike hone.1 (hplace.mono hone.2) elements)

theorem getElement_alike {t t' : State} {i i' : ℕ} (h : Alike c c' s s' t t')
    (hplace : SamePlace c c' s s' t i i') :
    ∀ element : Json,
      AlikeFurther c c' s s' t (getElement t i element) (getElement t' i' element)
  | .object members => by
    rw [getElement, getElement]
    exact getMembers_alike h hplace members
  | .array elements => by
    rw [getElement, getElement]
    exact getElements_alike h hplace elements
  | .null => .of_addArg h hplace (.value .null)
  | .boolean v => .of_addArg h hplace (.value (.boolean v))
  | .unsigned v => .of_addArg h hplace (.value (.unsigned v))
  | .integer v => .of_addArg h hplace (.value (.integer v))
  | .float v => .of_addArg h hplace (.value (.float v))
  | .string v => .of_addArg h hplace (.value (.string v))

end

/-- **The arguments of a value are added alike to any two creators.** -/
theorem getArgs_alike (s s' : State) (c c' : ℕ) (args : Json) :
    Alike c c' s s' (s.getArgs c args) (s'.getArgs c' args) := by
  cases args with
  | object members => exact (getMembers_alike .start (.inl ⟨rfl, rfl⟩) members).1
  | array elements => exact (getElements_alike .start (.inl ⟨rfl, rfl⟩) elements).1
  | _ => exact .start

end Alike

/-! ## What is kept -/

/-- Nodes and children are only added, in the same hierarchy. -/
structure Extends (s t : State) : Prop where
  nodes : s.nodes <+: t.nodes
  children : ∀ p < s.nodes.length, ∀ c ∈ s.childrenAt p, c ∈ t.childrenAt p
  filled : ∀ base, Filled base s → Filled base t

/-- The nodes below which the next commands go. -/
structure SameCursors (s t : State) : Prop where
  submit : t.curSubmitNodeIndex = s.curSubmitNodeIndex
  commandBuffer : t.curCommandBufferNodeIndex = s.curCommandBufferNodeIndex
  stack : t.curParentNodeIndexStack = s.curParentNodeIndexStack

theorem SameCursors.trans (h : SameCursors s t) (h' : SameCursors t u) : SameCursors s u :=
  ⟨h'.submit.trans h.submit, h'.commandBuffer.trans h.commandBuffer, h'.stack.trans h.stack⟩

theorem sameCursors_addNode : SameCursors s (s.addNode type desc).1 := by
  constructor <;> simp

theorem sameCursors_addArg (p : ℕ) : SameCursors s (s.addArg p desc).1 := by
  constructor <;> simp [addArg]

namespace Extends

theorem refl (s : State) : Extends s s := ⟨List.prefix_rfl, fun _ _ _ h => h, fun _ h => h⟩

theorem length_le (h : Extends s t) : s.nodes.length ≤ t.nodes.length := h.nodes.length_le

theorem trans (h : Extends s t) (h' : Extends t u) : Extends s u where
  nodes := h.nodes.trans h'.nodes
  children := fun p hp c hc => h'.children p (hp.trans_le h.length_le) c (h.children p hp c hc)
  filled := fun base hbase => h'.filled base (h.filled base hbase)

theorem getNodeType (h : Extends s t) (hn : n < s.nodes.length) :
    t.getNodeType n = s.getNodeType n := by
  obtain ⟨l, hl⟩ := h.nodes
  rw [State.getNodeType, ← hl, List.getElem?_append_left hn]
  rfl

theorem of_nodes (hnodes : t.nodes = s.nodes) (hchildren : t.nodeChildren = s.nodeChildren)
    (hmixed : t.usedInMixedCommandHierarchy = s.usedInMixedCommandHierarchy)
    (hmap : t.diveIndicesToLocalIndicesMap = s.diveIndicesToLocalIndicesMap) : Extends s t := by
  have hlocal : t.localIndex = s.localIndex := by
    funext n
    rw [localIndex, localIndex, hmixed, hmap]
  constructor
  · rw [hnodes]
  · intro p _ c hc
    rw [childrenAt, hchildren, hlocal]
    exact hc
  · intro base h
    refine ⟨?_, ?_, ?_, ?_⟩
    · rw [hnodes, hchildren]
      exact h.length_nodes
    · rw [hchildren, hlocal]
      exact h.localIndex_add
    · rw [hlocal]
      exact h.localIndex_of_lt
    · rw [hmixed]
      exact h.base_eq_zero

end Extends

theorem extends_addNode (type : NodeType) (desc : NodeDesc) :
    Extends s (s.addNode type desc).1 where
  nodes := by simp
  children := by
    intro p hp c hc
    have hold : (s.addNode type desc).1.localIndex p = s.localIndex p := by
      rw [localIndex_addNode, if_neg]
      omega
    rw [childrenAt] at hc
    rw [childrenAt, hold, addNode_nodeChildren]
    cases hl : s.nodeChildren[s.localIndex p]? with
    | none => simp [hl] at hc
    | some l =>
      have hlt := (List.getElem?_eq_some_iff.mp hl).1
      rw [List.getElem?_append_left hlt, hl]
      rwa [hl] at hc
  filled := fun _ h => h.addNode type desc

theorem extends_addChild (p c : ℕ) : Extends s (s.addChild p c) where
  nodes := List.prefix_rfl
  children := fun _ _ _ h => mem_childrenAt_addChild_of_mem h p
  filled := fun _ h => h.addChild p c

theorem extends_addArg (p : ℕ) (desc : NodeDesc) : Extends s (s.addArg p desc).1 :=
  (extends_addNode _ desc).trans (extends_addChild _ _)

theorem Alike.extends {c' : ℕ} (h : Alike c c' s s' t t') : Extends s t ∧ SameCursors s t := by
  induction h with
  | start => exact ⟨.refl s, rfl, rfl, rfl⟩
  | belowGiven desc _ ih =>
    exact ⟨ih.1.trans (extends_addArg _ desc), ih.2.trans (sameCursors_addArg _)⟩
  | belowNew k desc _ _ ih =>
    exact ⟨ih.1.trans (extends_addArg _ desc), ih.2.trans (sameCursors_addArg _)⟩

/-- **Arguments only add nodes**, and move no cursor. -/
theorem extends_getArgs (s : State) (c : ℕ) (args : Json) :
    Extends s (s.getArgs c args) ∧ SameCursors s (s.getArgs c args) :=
  (getArgs_alike s s c c args).extends

/-! ## Commands -/

/-- The node below which a command goes: the scope that is open, or the command buffer. -/
def openParent (s : State) : ℕ := s.curParentNodeIndexStack.headD s.curCommandBufferNodeIndex

theorem conditionallyAddChild_eq (c : ℕ) :
    s.conditionallyAddChild c = s.addChild s.openParent c := by
  unfold conditionallyAddChild openParent
  cases s.curParentNodeIndexStack <;> rfl

/-- What every command that has a node does: the node comes below `parent`, with its arguments. -/
def place (s : State) (parent : ℕ) (type : NodeType) (desc : NodeDesc) (args : Json) : State :=
  ((s.addNode type desc).1.getArgs s.nodes.length args).addChild parent s.nodes.length

theorem addCommand_eq (args : Json) :
    s.addCommand type desc args = (s.place s.openParent type desc args, s.nodes.length) := by
  have hcursors := sameCursors_addNode.trans
    (extends_getArgs (s.addNode type desc).1 s.nodes.length args).2
  rw [addCommand]
  simp only [addNode_index, conditionallyAddChild_eq]
  rw [openParent, hcursors.stack, hcursors.commandBuffer]
  rfl

/-- **A command with a node.** -/
theorem extends_place (s : State) (parent : ℕ) (type : NodeType) (desc : NodeDesc) (args : Json) :
    Extends s (s.place parent type desc args) ∧ SameCursors s (s.place parent type desc args) := by
  have hargs := extends_getArgs (s.addNode type desc).1 s.nodes.length args
  have hcursors := sameCursors_addNode.trans hargs.2
  exact ⟨((extends_addNode type desc).trans hargs.1).trans (extends_addChild _ _),
    hcursors.submit, hcursors.commandBuffer, hcursors.stack⟩

theorem place_length (parent : ℕ) (args : Json) :
    s.nodes.length < (s.place parent type desc args).nodes.length := by
  have hargs := (extends_getArgs (s.addNode type desc).1 s.nodes.length args).1.length_le
  rw [addNode_nodes, List.length_append, List.length_singleton] at hargs
  exact hargs

theorem place_type (parent : ℕ) (args : Json) :
    (s.place parent type desc args).getNodeType s.nodes.length = some type := by
  have hargs := (extends_getArgs (s.addNode type desc).1 s.nodes.length args).1
  have hlt : s.nodes.length < (s.addNode type desc).1.nodes.length := by simp
  exact (hargs.getNodeType hlt).trans getNodeType_addNode_self

theorem Filled.mem_childrenAt_place (h : Filled base s) {parent : ℕ} (hbase : base ≤ parent)
    (hparent : parent < s.nodes.length) (args : Json) :
    s.nodes.length ∈ (s.place parent type desc args).childrenAt parent := by
  have hargs := (extends_addNode type desc).trans
    (extends_getArgs (s.addNode type desc).1 s.nodes.length args).1
  exact (hargs.filled base h).mem_childrenAt_addChild hbase (hparent.trans_le hargs.length_le)

/-! ### All commands alike -/

def withCommandBuffer (s : State) (nodeIndex : ℕ) : State :=
  { s with curCommandBufferNodeIndex := nodeIndex }

theorem extends_withCommandBuffer (s : State) (k : ℕ) : Extends s (s.withCommandBuffer k) :=
  .of_nodes rfl rfl rfl rfl

theorem addArg_withCommandBuffer (p k : ℕ) :
    ((s.withCommandBuffer k).addArg p desc).1 = ((s.addArg p desc).1).withCommandBuffer k := by
  cases hmixed : s.usedInMixedCommandHierarchy <;>
    simp [addArg, addNode, addChild, localIndex, withCommandBuffer, hmixed]

theorem Alike.withCommandBuffer {k : ℕ} (h : Alike c c s (s.withCommandBuffer k) t t') :
    t' = t.withCommandBuffer k := by
  generalize hs' : s.withCommandBuffer k = s' at h
  induction h with
  | start => exact hs'.symm
  | belowGiven desc _ ih => rw [ih, addArg_withCommandBuffer]
  | belowNew i desc _ _ ih =>
    have hlength : s'.nodes.length = s.nodes.length := by rw [← hs', State.withCommandBuffer]
    rw [ih, addArg_withCommandBuffer, hlength]

end State

open State

/-- The type and the description of the node of a command, if it has one. -/
def commandNode (vkCmdInfo : VulkanCommandInfo) (drawCallCount : ℕ)
    (renderPassDrawCallCounts : List ℕ) : Option (NodeType × NodeDesc) :=
  let name := vkCmdInfo.name.text
  let args := vkCmdInfo.args
  match commandKind name with
  | .beginCommandBuffer =>
    some (.kGfxrVulkanBeginCommandBufferNode, .command name args (some drawCallCount))
  | .endCommandBuffer => some (.kGfxrVulkanEndCommandBufferNode, .command name args none)
  | .beginDebugUtilsLabel => some (.kGfxrBeginDebugUtilsLabelCommandNode, .label args)
  | .endDebugUtilsLabel => none
  | .draw => some (.kGfxrVulkanDrawCommandNode, .command name args none)
  | .beginRenderPass => some (.kGfxrVulkanBeginRenderPassCommandNode,
      .command name args (some (renderPassDrawCallCounts.headD drawCallCount)))
  | .endRenderPass => some (.kGfxrVulkanEndRenderPassCommandNode, .command name args none)
  | .other => some (otherNodeType name, .command name args none)

theorem commandNode_ne_none {v : VulkanCommandInfo}
    (h : commandKind v.name.text ≠ .endDebugUtilsLabel) (n : ℕ) (counts : List ℕ) :
    commandNode v n counts ≠ none := by
  unfold commandNode
  cases hkind : commandKind v.name.text <;> simp_all

/-- The render-pass counts that a command leaves. -/
def countsAfter : CommandKind → List ℕ → List ℕ
  | .beginRenderPass, renderPassDrawCallCounts => renderPassDrawCallCounts.tail
  | _, renderPassDrawCallCounts => renderPassDrawCallCounts

namespace State

variable {s t u : State}

/-- The node below which the node of a command comes. -/
def parentFor (s : State) : CommandKind → ℕ
  | .beginCommandBuffer => s.curSubmitNodeIndex
  | .endCommandBuffer => s.curCommandBufferNodeIndex
  | _ => s.openParent

/-- How a command with the given node moves the cursors. -/
def moveCursors (s : State) (nodeIndex : ℕ) : CommandKind → State
  | .beginCommandBuffer => s.withCommandBuffer nodeIndex
  | .beginDebugUtilsLabel => s.push nodeIndex
  | .beginRenderPass => s.push nodeIndex
  | .endRenderPass => s.pop
  | _ => s

/-- The end of a label, which closes only a label. -/
def closeLabel (s : State) : State :=
  match s.curParentNodeIndexStack with
  | [] => s
  | top :: _ => if s.getNodeType top = some .kGfxrBeginDebugUtilsLabelCommandNode then s.pop else s

/-- What a command does, by its kind and its node. -/
def perform (s : State) (kind : CommandKind) (args : Json) : Option (NodeType × NodeDesc) → State
  | none => s.closeLabel
  | some (type, desc) =>
    (s.place (s.parentFor kind) type desc args).moveCursors s.nodes.length kind

theorem getArgs_withCommandBuffer (s : State) (c k : ℕ) (args : Json) :
    (s.withCommandBuffer k).getArgs c args = (s.getArgs c args).withCommandBuffer k :=
  (getArgs_alike s (s.withCommandBuffer k) c c args).withCommandBuffer

/-- **Each command places its node and moves the cursors.** -/
theorem onCommand_eq (s : State) (v : VulkanCommandInfo) (n : ℕ) (counts : List ℕ) :
    s.onCommand v n counts = (s.perform (commandKind v.name.text) v.args (commandNode v n counts),
      countsAfter (commandKind v.name.text) counts) := by
  cases hkind : commandKind v.name.text with
  | beginCommandBuffer =>
    have hcursors := sameCursors_addNode.trans (extends_getArgs
      (s.addNode .kGfxrVulkanBeginCommandBufferNode (.command v.name.text v.args (some n))).1
      s.nodes.length v.args).2
    have hbegin := getArgs_withCommandBuffer
      (s.addNode .kGfxrVulkanBeginCommandBufferNode (.command v.name.text v.args (some n))).1
      s.nodes.length s.nodes.length v.args
    simp only [onCommand, commandNode, countsAfter, hkind, perform, parentFor, moveCursors,
      addNode_index]
    rw [← hcursors.submit]
    refine Prod.ext ?_ rfl
    exact congrArg (fun t : State => t.addChild t.curSubmitNodeIndex s.nodes.length) hbegin
  | endCommandBuffer =>
    have hcursors := sameCursors_addNode.trans (extends_getArgs
      (s.addNode .kGfxrVulkanEndCommandBufferNode (.command v.name.text v.args none)).1
      s.nodes.length v.args).2
    simp only [onCommand, commandNode, countsAfter, hkind, perform, parentFor, moveCursors,
      addNode_index]
    rw [hcursors.commandBuffer]
    rfl
  | endDebugUtilsLabel =>
    simp only [onCommand, commandNode, countsAfter, hkind, perform, closeLabel]
    cases s.curParentNodeIndexStack with
    | nil => rfl
    | cons top stack =>
      simp only
      split_ifs <;> rfl
  | beginDebugUtilsLabel =>
    simp only [onCommand, commandNode, countsAfter, hkind, perform, addCommand_eq]
    rfl
  | draw =>
    simp only [onCommand, commandNode, countsAfter, hkind, perform, addCommand_eq]
    rfl
  | beginRenderPass =>
    simp only [onCommand, commandNode, countsAfter, hkind, perform, addCommand_eq]
    rfl
  | endRenderPass =>
    simp only [onCommand, commandNode, countsAfter, hkind, perform, addCommand_eq]
    rfl
  | other =>
    simp only [onCommand, commandNode, countsAfter, hkind, perform, addCommand_eq]
    rfl

/-! ### Extension -/

theorem extends_moveCursors (s : State) (nodeIndex : ℕ) (kind : CommandKind) :
    Extends s (s.moveCursors nodeIndex kind) := by
  cases kind <;> exact .of_nodes rfl rfl rfl rfl

theorem extends_closeLabel (s : State) : Extends s s.closeLabel := by
  unfold closeLabel
  cases s.curParentNodeIndexStack with
  | nil => exact .refl s
  | cons top stack =>
    simp only
    split_ifs
    · exact .of_nodes rfl rfl rfl rfl
    · exact .refl s

theorem extends_onCommand (s : State) (v : VulkanCommandInfo) (n : ℕ) (counts : List ℕ) :
    Extends s (s.onCommand v n counts).1 := by
  rw [onCommand_eq]
  cases commandNode v n counts with
  | none => exact extends_closeLabel s
  | some node =>
    exact (extends_place s _ node.1 node.2 v.args).1.trans (extends_moveCursors _ _ _)

theorem extends_onCommands (n : ℕ) (s : State) (vkCmds : List VulkanCommandInfo)
    (counts : List ℕ) : Extends s (onCommands n s vkCmds counts) := by
  induction vkCmds generalizing s counts with
  | nil => exact .refl s
  | cons v vkCmds ih => exact (extends_onCommand s v n counts).trans (ih _ _)

theorem extends_processVkCmds (s : State) (vkCmds : List VulkanCommandInfo) (n : ℕ)
    (counts : List ℕ) : Extends s (s.processVkCmds vkCmds n counts) :=
  (extends_onCommands n s vkCmds counts).trans (.of_nodes rfl rfl rfl rfl)

theorem onGfxrSubmit_eq (s : State) (submitIndex : ℕ) (submitInfo : SubmitInfo) :
    s.onGfxrSubmit submitIndex submitInfo =
      { (s.addNode .kGfxrVulkanSubmitNode (.submit submitInfo.name.text submitIndex
          submitInfo.vkCommandBufferHandles.length)).1.addChild Topology.kRootNodeIndex
            s.nodes.length with curSubmitNodeIndex := s.nodes.length } := by
  simp only [onGfxrSubmit, addNode_index]

theorem extends_onGfxrSubmit (s : State) (submitIndex : ℕ) (submitInfo : SubmitInfo) :
    Extends s (s.onGfxrSubmit submitIndex submitInfo) :=
  ((extends_addNode _ _).trans (extends_addChild _ _)).trans (.of_nodes rfl rfl rfl rfl)

theorem extends_addFrame (s : State) : Extends s s.addFrame :=
  (extends_addNode _ _).trans (extends_addChild _ _)

end State

/-! ## Reached states -/

/-- The creator in a mixed hierarchy, in which the nodes of the other creator come first. -/
def mixed (nodes : List CommandHierarchyNode) : State :=
  { nodes, usedInMixedCommandHierarchy := true }

/-- The states of the creator before and after a submit node, a command buffer. -/
inductive Reached : State → Prop
  | alone : Reached alone.addFrame
  | mixed (nodes : List CommandHierarchyNode) : Reached (mixed nodes).addFrame
  | onGfxrSubmit {s : State} (submitIndex : ℕ) (submitInfo : SubmitInfo) :
    Reached s → Reached (s.onGfxrSubmit submitIndex submitInfo)
  | processVkCmds {s : State} (vkCmds : List VulkanCommandInfo) (drawCallCount : ℕ)
    (renderPassDrawCallCounts : List ℕ) :
    Reached s → Reached (s.processVkCmds vkCmds drawCallCount renderPassDrawCallCounts)

theorem filled_alone : State.Filled 0 alone where
  length_nodes := rfl
  localIndex_add := by
    intro i _
    exact Nat.zero_add i
  localIndex_of_lt := by
    intro n hn
    omega
  base_eq_zero := fun _ => rfl

theorem filled_mixed (nodes : List CommandHierarchyNode) :
    State.Filled nodes.length (mixed nodes) where
  length_nodes := rfl
  localIndex_add := by
    intro i hi
    exact absurd hi (Nat.not_lt_zero i)
  localIndex_of_lt := fun _ _ => rfl
  base_eq_zero := by
    intro h
    cases h

/-- **The states reached** have their child lists, and no open scope. -/
theorem Reached.filled {s : State} (h : Reached s) :
    (∃ base, State.Filled base s) ∧ s.curParentNodeIndexStack = [] := by
  induction h with
  | alone => exact ⟨⟨0, (State.extends_addFrame _).filled 0 filled_alone⟩, rfl⟩
  | mixed nodes => exact ⟨⟨_, (State.extends_addFrame _).filled _ (filled_mixed nodes)⟩, rfl⟩
  | onGfxrSubmit submitIndex submitInfo _ ih =>
    obtain ⟨⟨base, hbase⟩, hstack⟩ := ih
    refine ⟨⟨base, (State.extends_onGfxrSubmit ..).filled base hbase⟩, ?_⟩
    simp [State.onGfxrSubmit, hstack]
  | processVkCmds vkCmds n counts _ ih =>
    obtain ⟨⟨base, hbase⟩, -⟩ := ih
    exact ⟨⟨base, (State.extends_processVkCmds ..).filled base hbase⟩, rfl⟩

end Dive.GfxrVulkanCommandHierarchyCreator
