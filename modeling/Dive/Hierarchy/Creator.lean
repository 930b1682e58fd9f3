import Dive.Pm4.Brackets

/-!
# The IB stack of the command hierarchy

* `CommandHierarchyCreator`: the IB stack and the start-node stack of the submit topology.
* `onIbStart`, `onIbEnd`, `onPacket`, `onSubmitStart`: as in the source.
* `Follows`: without chained IBs the creator follows the open IBs.
* **`balanced_iff`**: a successful submit gets the right types, stacks and parents exactly when no
  packet of it chains to an IB.
-/

namespace Dive

/-- A node of the hierarchy, with the `AuxInfo` of submits and IBs. Field and event nodes are
`other`. -/
inductive Node
  | root
  | submit (submitIndex : ℕ)
  | ib (ibIndex : ℕ) (ibType : IbType) (sizeInDwords : UInt32) (fullyCaptured : Bool)
  | packet
  | other
  deriving DecidableEq

def kMaxNumIbsBits : ℕ := 6

/-- `GetIbNodeType`; there is none for other nodes. -/
def ibNodeType (nodes : List Node) (i : ℕ) : Option IbType :=
  match nodes[i]? with
  | some (.ib _ ibType _ _) => some ibType
  | _ => none

/-- `CommandHierarchyCreator`, as far as the IB nodes of the submit topology go. The stacks have
their back first; `ibChildren` lists the parent and the index of each IB node. -/
structure CommandHierarchyCreator where
  nodes : List Node := [.root]
  ibChildren : List (ℕ × ℕ) := []
  ibStack : List ℕ := []
  startNodeStack : List ℕ := []
  newIbStart : Bool := true
  curSubmitNodeIndex : ℕ := 0
  flattenChainNodes : Bool := false
  deriving DecidableEq

namespace CommandHierarchyCreator

/-- The parent of a new IB node. -/
def ibParent (C : CommandHierarchyCreator) (ibType : IbType) : ℕ :=
  let parent := C.ibStack.headD C.curSubmitNodeIndex
  -- the nearest parent that is no chained IB
  if C.flattenChainNodes = true ∧ ibType = .kChain then
    (C.ibStack.find? fun i => ibNodeType C.nodes i ≠ some .kChain).getD parent
  else parent

/-- `OnIbStart`. -/
def onIbStart (C : CommandHierarchyCreator) (ibIndex : ℕ) (info : IndirectBufferInfo)
    (ibType : IbType) : CommandHierarchyCreator :=
  let nodes := C.nodes ++
    -- the field node between the packet and the IB
    if ibType = .kBinPrefix ∨ ibType = .kBinCommon ∨ ibType = .kFixedStrideDrawTable then [.other]
    else []
  { C with
    nodes := nodes ++ [.ib (ibIndex % 2 ^ kMaxNumIbsBits) ibType info.sizeInDwords !info.skip]
    ibChildren := C.ibChildren ++ [(C.ibParent ibType, nodes.length)]
    ibStack := nodes.length :: C.ibStack
    newIbStart := true }

/-- The loop of `OnIbEnd`, which pops the chained IBs off both stacks; none of its reads and pops
may be of an empty stack. -/
def popChained (nodes : List Node) : List ℕ → List ℕ → Option (List ℕ × List ℕ)
  | [], _ => none
  | i :: ibStack, startNodeStack =>
    (ibNodeType nodes i).bind fun ibType =>
      if ibType = .kChain then
        match startNodeStack with
        | [] => none
        | _ :: startNodeStack => popChained nodes ibStack startNodeStack
      else some (i :: ibStack, startNodeStack)

/-- `OnIbEnd`. -/
def onIbEnd (C : CommandHierarchyCreator) : Option CommandHierarchyCreator :=
  let startNodeStack :=
    if C.newIbStart then some C.startNodeStack
    else match C.startNodeStack with
      | [] => none
      | _ :: startNodeStack => some startNodeStack
  (startNodeStack.bind (popChained C.nodes C.ibStack)).map fun (ibStack, startNodeStack) =>
    { C with ibStack := ibStack.tail, startNodeStack := startNodeStack, newIbStart := false }

/-- `OnPacket`; `extra` is the number of nodes that are added after the packet node. -/
def onPacket (C : CommandHierarchyCreator) (extra : ℕ → ℕ) (h : Pm4Header) :
    CommandHierarchyCreator :=
  if h.type ≠ 4 ∧ h.type ≠ 7 then C
  else
    let packetNodeIndex := C.nodes.length
    { C with
      nodes := C.nodes ++ .packet :: List.replicate (extra packetNodeIndex) .other
      startNodeStack :=
        if C.newIbStart then packetNodeIndex :: C.startNodeStack else C.startNodeStack
      newIbStart := false }

/-- `OnSubmitStart`. -/
def onSubmitStart (C : CommandHierarchyCreator) (submitIndex : ℕ) : CommandHierarchyCreator :=
  { C with
    nodes := C.nodes ++ [.submit submitIndex]
    curSubmitNodeIndex := C.nodes.length
    ibStack := []
    startNodeStack := []
    newIbStart := true }

/-- The callbacks of the emulator. -/
def onEvent (extra : ℕ → ℕ) (C : CommandHierarchyCreator) : Event →
    Option CommandHierarchyCreator
  | .ibStart _ ibIndex info ibType => some (C.onIbStart ibIndex info ibType)
  | .ibEnd _ _ => C.onIbEnd
  | .packet _ _ h => some (C.onPacket extra h)

/-! ## The creator and the open IBs -/

/-- From the start of the submit at `base` to `C`, the node of the IB that started after `k`
others. -/
def startedNode (base C : CommandHierarchyCreator) (k : ℕ) : Option ℕ :=
  (C.ibChildren[base.ibChildren.length + k]?).map (·.2)

/-- The node of the innermost open IB, or that of the submit. -/
def enclosingNode (base C : CommandHierarchyCreator) (n : Nesting) : Option ℕ :=
  match n.opened with
  | [] => some base.curSubmitNodeIndex
  | o :: _ => base.startedNode C o.number

/-- The creator is where the open IBs are. -/
structure Follows (base C : CommandHierarchyCreator) (n : Nesting) : Prop where
  submit : C.curSubmitNodeIndex = base.curSubmitNodeIndex
  children : C.ibChildren.length = base.ibChildren.length + n.started
  stack : List.Forall₂ (fun i (o : OpenIb) => base.startedNode C o.number = some i)
    C.ibStack n.opened
  types : ∀ i ∈ C.ibStack, ∃ ibType, ibNodeType C.nodes i = some ibType ∧ ibType ≠ .kChain
  newIbStart : C.newIbStart = n.fresh
  startNodes : C.startNodeStack.length =
    if n.fresh then n.opened.length - 1 else n.opened.length

variable {base C C' : CommandHierarchyCreator} {n n' : Nesting} {extra : ℕ → ℕ} {e : Event}

theorem follows_onSubmitStart (C : CommandHierarchyCreator) (submitIndex : ℕ) :
    Follows (C.onSubmitStart submitIndex) (C.onSubmitStart submitIndex) {} where
  submit := rfl
  children := rfl
  stack := List.Forall₂.nil
  types := fun _ hi => absurd hi List.not_mem_nil
  newIbStart := rfl
  startNodes := rfl

theorem ibNodeType_append {nodes nodes' : List Node} {i : ℕ} {ibType : IbType}
    (h : ibNodeType nodes i = some ibType) : ibNodeType (nodes ++ nodes') i = some ibType := by
  unfold ibNodeType at h ⊢
  cases hi : nodes[i]? with
  | none =>
    rw [hi] at h
    cases h
  | some node =>
    obtain ⟨hlt, -⟩ := List.getElem?_eq_some_iff.mp hi
    rw [List.getElem?_append_left hlt, hi]
    rw [hi] at h
    exact h

theorem startedNode_append {k i p j : ℕ} (h : base.startedNode C k = some i)
    (hC : C'.ibChildren = C.ibChildren ++ [(p, j)]) : base.startedNode C' k = some i := by
  unfold startedNode at h ⊢
  obtain ⟨pair, hpair, hi⟩ := Option.map_eq_some_iff.mp h
  obtain ⟨hlt, -⟩ := List.getElem?_eq_some_iff.mp hpair
  rw [hC, List.getElem?_append_left hlt, hpair]
  exact congrArg some hi

theorem popChained_of_not_chain {nodes : List Node} {i : ℕ} {is ss : List ℕ} {ibType : IbType}
    (hi : ibNodeType nodes i = some ibType) (hc : ibType ≠ .kChain) :
    popChained nodes (i :: is) ss = some (i :: is, ss) := by
  unfold popChained
  rw [hi, Option.bind_some, if_neg hc]

theorem Follows.ibParent (hf : Follows base C n) {ibType : IbType} (hc : ibType ≠ .kChain) :
    base.enclosingNode C n = some (C.ibParent ibType) := by
  unfold CommandHierarchyCreator.ibParent enclosingNode
  dsimp only
  rw [if_neg fun h => hc h.2]
  have hstack := hf.stack
  cases ho : n.opened with
  | nil =>
    rw [ho, List.forall₂_nil_right_iff] at hstack
    rw [hstack, List.headD_nil, hf.submit]
  | cons o os =>
    rw [ho, List.forall₂_cons_right_iff] at hstack
    obtain ⟨i, is, hi, -, his⟩ := hstack
    rw [his, List.headD_cons]
    exact hi

theorem Follows.start (hf : Follows base C n) {q : QueuedIb} {ibIndex : ℕ}
    {info : IndirectBufferInfo} {ibType : IbType} (hc : ibType ≠ .kChain)
    (hfresh : n.opened ≠ [] → n.fresh = false) :
    Follows base (C.onIbStart ibIndex info ibType)
      ⟨n.started + 1, ⟨n.started, q, ibIndex, info⟩ :: n.opened, true⟩ where
  submit := hf.submit
  children := by
    unfold onIbStart
    rw [List.length_append, hf.children]
    rfl
  stack := by
    refine List.Forall₂.cons ?_ (hf.stack.imp fun i o h => startedNode_append h rfl)
    unfold startedNode onIbStart
    dsimp only
    rw [← hf.children, List.getElem?_concat_length]
    rfl
  types := by
    refine List.forall_mem_cons.mpr ⟨⟨ibType, ?_, hc⟩, fun i hi => ?_⟩
    · unfold onIbStart ibNodeType
      dsimp only
      rw [List.getElem?_concat_length]
    · obtain ⟨ty, hty, hne⟩ := hf.types i hi
      exact ⟨ty, ibNodeType_append (ibNodeType_append hty), hne⟩
  newIbStart := rfl
  startNodes := by
    have hlen := hf.startNodes
    unfold onIbStart
    simp only [if_true, List.length_cons, Nat.add_sub_cancel]
    rw [hlen]
    split_ifs with h
    · cases ho : n.opened with
      | nil => rfl
      | cons o os =>
        rw [hfresh (ho ▸ List.cons_ne_nil _ _)] at h
        cases h
    · rfl

theorem Follows.close (hf : Follows base C n) {o : OpenIb} {os : List OpenIb}
    (ho : n.opened = o :: os) :
    ∃ C', C.onIbEnd = some C' ∧ Follows base C' ⟨n.started, os, false⟩ := by
  have hstack := hf.stack
  have hlen := hf.startNodes
  rw [ho, List.forall₂_cons_right_iff] at hstack
  rw [ho, ← hf.newIbStart, List.length_cons] at hlen
  obtain ⟨i, is, hi, hrest, his⟩ := hstack
  obtain ⟨ty, hty, hne⟩ := hf.types i (his ▸ List.mem_cons_self)
  have hpop : ∀ ss, popChained C.nodes C.ibStack ss = some (i :: is, ss) := by
    intro ss
    rw [his]
    exact popChained_of_not_chain hty hne
  have htypes : ∀ j ∈ is, ∃ ibType, ibNodeType C.nodes j = some ibType ∧ ibType ≠ .kChain :=
    fun j hj => hf.types j (his ▸ List.mem_cons_of_mem i hj)
  unfold onIbEnd
  cases hfresh : C.newIbStart with
  | true =>
    rw [hfresh, if_pos rfl, Nat.add_sub_cancel] at hlen
    simp only [if_true, Option.bind_some, hpop, Option.map_some, List.tail_cons]
    exact ⟨_, rfl, hf.submit, hf.children, hrest, htypes, rfl, hlen⟩
  | false =>
    rw [hfresh, if_neg Bool.false_ne_true] at hlen
    obtain ⟨j, ss, hss⟩ := List.exists_cons_of_length_eq_add_one hlen
    rw [hss, List.length_cons, Nat.add_right_cancel_iff] at hlen
    simp only [Bool.false_eq_true, if_false, hss, Option.bind_some, hpop, Option.map_some,
      List.tail_cons]
    exact ⟨_, rfl, hf.submit, hf.children, hrest, htypes, rfl, hlen⟩

theorem Follows.packet (hf : Follows base C n) {o : OpenIb} {os : List OpenIb} {h : Pm4Header}
    (ho : n.opened = o :: os) :
    Follows base (C.onPacket extra h) { n with fresh := n.fresh && !h.isCommand } := by
  have hlen := hf.startNodes
  rw [← hf.newIbStart, ho, List.length_cons] at hlen
  unfold onPacket Pm4Header.isCommand
  dsimp only
  by_cases hh : h.type ≠ 4 ∧ h.type ≠ 7
  · have hcmd : (decide (h.type = 4) || decide (h.type = 7)) = false := by simp [hh]
    rw [if_pos hh, hcmd, Bool.not_false, Bool.and_true]
    exact hf
  · have hcmd : (decide (h.type = 4) || decide (h.type = 7)) = true := by
      rw [Bool.or_eq_true, decide_eq_true_eq, decide_eq_true_eq]
      tauto
    rw [if_neg hh, hcmd, Bool.not_true, Bool.and_false]
    refine ⟨hf.submit, hf.children, hf.stack, fun i hi => ?_, rfl, ?_⟩
    · obtain ⟨ty, hty, hne⟩ := hf.types i hi
      exact ⟨ty, ibNodeType_append hty, hne⟩
    · dsimp only
      rw [ho, if_neg Bool.false_ne_true, List.length_cons]
      cases hfresh : C.newIbStart with
      | true =>
        rw [hfresh, if_pos rfl, Nat.add_sub_cancel] at hlen
        rw [if_pos rfl, List.length_cons, hlen]
      | false =>
        rw [hfresh, if_neg Bool.false_ne_true] at hlen
        rw [if_neg Bool.false_ne_true, hlen]

/-- **The creator follows the open IBs**, as long as none is chained to. -/
theorem Follows.step (hf : Follows base C n) (hn : Nests n e n') (hc : e.startsChain = false)
    (hp : e.PassesOn) : ∃ C', C.onEvent extra e = some C' ∧ Follows base C' n' := by
  cases hn with
  | start hq hfresh => exact ⟨_, rfl, hf.start hp.2.2 hfresh⟩
  | chain hq => exact absurd hq (of_decide_eq_false hc)
  | close ho => exact hf.close rfl
  | packet => exact ⟨_, rfl, hf.packet rfl⟩

theorem follows_run (extra : ℕ → ℕ) {t : List Event} (hn : Monitor.run (nest true) {} t = some n)
    (hc : ∀ e ∈ t, e.startsChain = false) (hp : ∀ e ∈ t, e.PassesOn)
    (hbase : Follows base base {}) :
    ∃ C, Monitor.run (onEvent extra) base t = some C ∧ Follows base C n :=
  Monitor.run_simulation (R := fun n C => Follows base C n) hbase hn
    fun e he _ _ _ hf hstep => hf.step (nests_of_nest hstep) (hc e he) (hp e he)

/-! ## Balance -/

/-- The calls of a submit that the creator sees from `base` on: every start passes on the type of
its entry; at the end the IB stack is empty and the start-node stack as it was; and every IB that is
not chained to gets the node that encloses it as parent. -/
structure Balanced (extra : ℕ → ℕ) (base : CommandHierarchyCreator) (t : List Event) : Prop where
  types : ∀ q ibIndex info ibType, .ibStart q ibIndex info ibType ∈ t → ibType = q.ibType
  emptied : ∃ C, Monitor.run (onEvent extra) base t = some C ∧ C.ibStack = [] ∧
    C.startNodeStack = base.startNodeStack
  parents : ∀ t₁ t₂ q ibIndex info ibType, t = t₁ ++ .ibStart q ibIndex info ibType :: t₂ →
    q.ibType ≠ .kChain → ∃ n C parent node, Monitor.run (nest true) {} t₁ = some n ∧
      Monitor.run (onEvent extra) base t₁ = some C ∧ base.enclosingNode C n = some parent ∧
      (C.onIbStart ibIndex info ibType).ibChildren = C.ibChildren ++ [(parent, node)] ∧
      (C.onIbStart ibIndex info ibType).ibStack = node :: C.ibStack

/-- **The hierarchy of a successful submit** is balanced, whatever was processed before it, exactly
when no packet chains to an IB of nonzero size. -/
theorem balanced_iff {E : Emulation} {ibs : List IndirectBufferInfo} {t : List Event}
    (h : E.Succeeds ibs t) (C : CommandHierarchyCreator) (extra : ℕ → ℕ) (submitIndex : ℕ) :
    Balanced extra (C.onSubmitStart submitIndex) t ↔ ∀ e ∈ t, E.chainsAt e = false := by
  have hruns := Emulation.submitRuns_of_succeeds h
  have hpass := Emulation.passesOn_of_submitRuns hruns fun q hq => Emulation.queued_ok hq
  rw [← Emulation.chainFree_of_submitRuns hruns fun q hq => (Emulation.queued_ok hq).1]
  constructor
  · intro hb e he
    cases e with
    | ibStart q ibIndex info ibType =>
      have htype := hb.types q ibIndex info ibType he
      have hne := (hpass _ he).2.2
      rw [htype] at hne
      exact decide_eq_false hne
    | ibEnd => rfl
    | packet => rfl
  · intro hc
    obtain ⟨k, fresh, hk⟩ := Emulation.closes_of_submitRuns hruns
      (fun q hq => (Emulation.queued_ok hq).1) 0 true
    have hbase := follows_onSubmitStart C submitIndex
    refine ⟨fun q ibIndex info ibType he => ?_, ?_, ?_⟩
    · exact (hpass _ he).2.1 (of_decide_eq_false (hc _ he))
    · obtain ⟨C', hC', hf⟩ := follows_run extra hk hc hpass hbase
      refine ⟨C', hC', List.forall₂_nil_right_iff.mp hf.stack, ?_⟩
      have hlen := hf.startNodes
      rw [List.length_nil, Nat.zero_sub, ite_self] at hlen
      exact List.length_eq_zero_iff.mp hlen
    · rintro t₁ t₂ q ibIndex info ibType rfl hq
      obtain ⟨n, n', hn, hstart, -⟩ := Monitor.run_split hk
      obtain ⟨C', hC', hf⟩ := follows_run extra hn
        (fun e he => hc e (List.mem_append_left _ he))
        (fun e he => hpass e (List.mem_append_left _ he)) hbase
      have hne := (hpass _ (List.mem_append_right _ List.mem_cons_self)).2.2
      exact ⟨n, C', _, _, hn, hC', hf.ibParent hne, rfl, rfl⟩

/-- A submit with a called IB. -/
theorem balanced_callTrace : Balanced (fun _ => 0) (onSubmitStart {} 0) Emulation.callTrace :=
  (balanced_iff Emulation.callTrace_succeeds {} (fun _ => 0) 0).mpr (by decide)

/-! ## A chained IB -/

/-- Two IBs, the first of which chains to another one. -/
def chainFirst : Emulation := Emulation.accepting [
  .ofDwords 0x1000 [0x70578003, 0x2000, 0, 1], .ofDwords 0x2000 [0x70108000],
  .ofDwords 0x3000 [0x70108000]]

def chainFirstIbs : List IndirectBufferInfo :=
  [{ vaAddr := 0x1000, sizeInDwords := 4 }, { vaAddr := 0x3000, sizeInDwords := 1 }]

def chainFirstTrace : List Event := [
  .ibStart ⟨.kNormal, 0x1000, 4, false, 7⟩ 0 ⟨0x1000, 4, 1, 7, false⟩ .kNormal,
  .packet 0 0x1000 ⟨0x70578003⟩,
  .ibStart ⟨.kChain, 0x2000, 1, false, 7⟩ 0 ⟨0x2000, 1, 1, 7, false⟩ .kNormal,
  .packet 0 0x2000 ⟨0x70108000⟩,
  .ibEnd 0 ⟨0x2000, 1, 0, 0, false⟩,
  .ibStart ⟨.kNormal, 0x3000, 1, false, 7⟩ 1 ⟨0x3000, 1, 1, 7, false⟩ .kNormal,
  .packet 1 0x3000 ⟨0x70108000⟩,
  .ibEnd 1 ⟨0x3000, 1, 0, 0, false⟩]

theorem chainFirst_succeeds : chainFirst.Succeeds chainFirstIbs chainFirstTrace := by
  have h : chainFirst.successTrace chainFirstIbs 10 = some chainFirstTrace := by rfl
  exact Emulation.succeeds_of_successTrace h

/-- **A chained IB stays on the stack**: it starts as a normal IB, its end pops one node for the two
IBs, and the second IB of the submit (node 6) becomes a child of the first one (node 2). -/
theorem chainFirst_unbalanced : chainFirst.Succeeds chainFirstIbs chainFirstTrace ∧
    ¬ Balanced (fun _ => 0) (onSubmitStart {} 0) chainFirstTrace ∧
    ∃ C, Monitor.run (onEvent fun _ => 0) (onSubmitStart {} 0) chainFirstTrace = some C ∧
      C.ibStack = [2] ∧ C.startNodeStack = [3] ∧ C.ibChildren = [(1, 2), (2, 4), (2, 6)] := by
  refine ⟨chainFirst_succeeds, fun h => ?_, _, rfl, rfl, rfl, rfl⟩
  have htype := h.types ⟨.kChain, 0x2000, 1, false, 7⟩ 0 ⟨0x2000, 1, 1, 7, false⟩ .kNormal
    (by decide)
  cases htype

end CommandHierarchyCreator

end Dive
