import Dive.Hierarchy.Ranges

/-!
# The ranges of a capture

* `StacksFollow`, `IbsFollow`: the IBs of a submit, with and without chained ones.
* `RangesFollow`: the creator after some calls of a submit; `RangesFollow.step`.
* **`rangesRight_iff`**: the nodes of a submit are right exactly when it closes all of them.
* **`capture_rangesRight_iff`**: the nodes of a capture are right exactly when no submit starts a
  pass, chains to an IB, starts an IB that runs no packet or is followed by a present.
-/

namespace Dive

namespace RangeCreator

open Function (update)

variable {kind : ℕ → PacketKind} {fields : ℕ → ℕ} {C C' : RangeCreator} {h : Pm4Header} {p : ℕ}

/-! ## The submit topology -/

section Ibs

open CommandHierarchyCreator (startedNode)

variable {base : RangeCreator} {n n' : Nesting} {t : List Event} {e : Event}

/-- The nodes of the IBs that have started since `base`. -/
def startedNodes (base C : RangeCreator) : List ℕ :=
  (C.ibChildren.drop base.ibChildren.length).map Prod.snd

theorem startedNode_eq (base C : RangeCreator) (k : ℕ) :
    base.startedNode C.toCommandHierarchyCreator k = (startedNodes base C)[k]? := by
  rw [startedNode, startedNodes, List.getElem?_map, List.getElem?_drop]

/-- The stacks after some calls, whether or not IBs are chained to: one node is left on the IB stack
for each chained IB. -/
structure StacksFollow (base C : RangeCreator) (n : Nesting) (t : List Event) : Prop where
  submit : C.curSubmitNodeIndex = base.curSubmitNodeIndex
  children : base.ibChildren.length ≤ C.ibChildren.length
  started : ∀ node ∈ startedNodes base C, base.curSubmitNodeIndex < node ∧ node < C.nodes.length
  distinct : (startedNodes base C).Nodup
  stack : ∀ node ∈ C.ibStack, node ∈ startedNodes base C ∧ C.submitRanges node = {} ∧
    ∃ ibType, ibNodeType C.nodes node = some ibType ∧ ibType ≠ .kChain
  stackDistinct : C.ibStack.Nodup
  length : C.ibStack.length = n.opened.length + t.countP Event.startsChain
  newIbStart : C.newIbStart = n.fresh
  begun : n.fresh = true → n.opened = [] → C.ibStack = []
  startNodes : C.startNodeStack.length =
    if n.fresh then C.ibStack.length - 1 else C.ibStack.length
  unwritten : ∀ i, C.nodes.length ≤ i → C.submitRanges i = {}
  kept : ∀ i ≤ base.curSubmitNodeIndex, C.submitRanges i = base.submitRanges i

theorem onIbEnd_fresh {node : ℕ} {nodes : List ℕ} {ibType : IbType} (hnew : C.newIbStart = true)
    (hstack : C.ibStack = node :: nodes) (htype : ibNodeType C.nodes node = some ibType)
    (hne : ibType ≠ .kChain) :
    C.onIbEnd = some { C with ibStack := nodes, newIbStart := false } := by
  have hbase : C.toCommandHierarchyCreator.onIbEnd =
      some { C.toCommandHierarchyCreator with ibStack := nodes, newIbStart := false } := by
    rw [CommandHierarchyCreator.onIbEnd, if_pos hnew, hstack]
    simp [CommandHierarchyCreator.popChained_of_not_chain htype hne]
  rw [RangeCreator.onIbEnd, hbase, hnew]
  rfl

theorem onIbEnd_started {node start : ℕ} {nodes starts : List ℕ} {ibType : IbType}
    (hnew : C.newIbStart = false) (hstack : C.ibStack = node :: nodes)
    (hstarts : C.startNodeStack = start :: starts)
    (htype : ibNodeType C.nodes node = some ibType) (hne : ibType ≠ .kChain) :
    C.onIbEnd = some { C with
      ibStack := nodes
      startNodeStack := starts
      newIbStart := false
      submitRanges := update C.submitRanges node
        ⟨some start, some C.lastAddedNodeIndex, some C.curSubmitNodeIndex⟩ } := by
  have hbase : C.toCommandHierarchyCreator.onIbEnd = some { C.toCommandHierarchyCreator with
      ibStack := nodes, startNodeStack := starts, newIbStart := false } := by
    rw [CommandHierarchyCreator.onIbEnd, if_neg (by rw [hnew]; nofun), hstack, hstarts]
    simp [CommandHierarchyCreator.popChained_of_not_chain htype hne]
  rw [RangeCreator.onIbEnd, hbase, hnew, hstack, hstarts]
  rfl

theorem startedNodes_append {p j : ℕ} (hle : base.ibChildren.length ≤ C.ibChildren.length)
    (hC' : C'.ibChildren = C.ibChildren ++ [(p, j)]) :
    startedNodes base C' = startedNodes base C ++ [j] := by
  rw [startedNodes, hC', List.drop_append_of_le_length hle, List.map_append, startedNodes]
  rfl

/-- **The start of an IB.** -/
theorem StacksFollow.start (hs : StacksFollow base C n t)
    (hC : C.curSubmitNodeIndex < C.nodes.length)
    {q : QueuedIb} {ibIndex : ℕ} {info : IndirectBufferInfo} {ibType : IbType}
    (hn : Nests n (.ibStart q ibIndex info ibType) n') (hne : ibType ≠ .kChain) :
    StacksFollow base (C.onIbStart ibIndex info ibType) n'
      (t ++ [.ibStart q ibIndex info ibType]) := by
  have hfresh : n.fresh = true → n.opened = [] := by
    intro hf
    cases hn with
    | start hq hopen =>
      by_contra hne
      rw [hopen hne] at hf
      cases hf
    | chain hq => cases hf
  have hfresh' : n'.fresh = true ∧ n'.opened ≠ [] := by
    cases hn with
    | start hq hopen => exact ⟨rfl, List.cons_ne_nil _ _⟩
    | chain hq => exact ⟨rfl, List.cons_ne_nil _ _⟩
  have hlength : n'.opened.length + (t ++ [Event.ibStart q ibIndex info ibType]).countP
      Event.startsChain = n.opened.length + t.countP Event.startsChain + 1 := by
    rw [List.countP_append, List.countP_singleton]
    cases hn with
    | start hq hopen =>
      rw [if_neg (by simp [Event.startsChain, hq]), List.length_cons]
      omega
    | chain hq =>
      rw [if_pos (by simp [Event.startsChain, hq]), List.length_cons, List.length_cons]
      omega
  generalize hfields : (if ibType = .kBinPrefix ∨ ibType = .kBinCommon ∨
    ibType = .kFixedStrideDrawTable then [Node.other] else []) = field
  have hC' : C.onIbStart ibIndex info ibType = { C with
      nodes := C.nodes ++ field ++
        [.ib (ibIndex % 2 ^ kMaxNumIbsBits) ibType info.sizeInDwords !info.skip]
      ibChildren := C.ibChildren ++ [(C.ibParent ibType, (C.nodes ++ field).length)]
      ibStack := (C.nodes ++ field).length :: C.ibStack
      newIbStart := true } := by
    rw [RangeCreator.onIbStart, CommandHierarchyCreator.onIbStart, hfields]
  rw [hC']
  have hnodes : startedNodes base (C.onIbStart ibIndex info ibType) =
      startedNodes base C ++ [(C.nodes ++ field).length] :=
    startedNodes_append hs.children (by rw [hC'])
  rw [hC'] at hnodes
  have hle : C.nodes.length ≤ (C.nodes ++ field).length := by simp
  have hold : ∀ node ∈ startedNodes base C, node < (C.nodes ++ field).length :=
    fun node hnode => (hs.started node hnode).2.trans_le hle
  refine ⟨hs.submit, ?_, ?_, ?_, ?_, ?_, ?_, hfresh'.1.symm, fun _ hopen => absurd hopen hfresh'.2,
    ?_, fun i hi => hs.unwritten i ?_, hs.kept⟩
  · exact hs.children.trans (by simp)
  · rw [hnodes]
    intro node hnode
    dsimp only
    rw [List.length_append, List.length_singleton]
    rcases List.mem_append.mp hnode with hnode | hnode
    · exact ⟨(hs.started node hnode).1, (hold node hnode).trans (Nat.lt_succ_self _)⟩
    · rw [List.mem_singleton.mp hnode, ← hs.submit]
      exact ⟨hC.trans_le hle, Nat.lt_succ_self _⟩
  · rw [hnodes, List.nodup_append]
    refine ⟨hs.distinct, List.nodup_singleton _, fun x hx y hy heq => ?_⟩
    rw [List.mem_singleton.mp hy] at heq
    exact absurd (hold x hx) (by rw [heq]; exact lt_irrefl _)
  · intro node hnode
    rw [hnodes]
    rcases List.mem_cons.mp hnode with rfl | hnode
    · refine ⟨List.mem_append_right _ (List.mem_singleton_self _), hs.unwritten _ hle, ibType, ?_,
        hne⟩
      rw [ibNodeType]
      dsimp only
      rw [List.getElem?_concat_length]
    · obtain ⟨hmem, hempty, ty, hty, htyne⟩ := hs.stack node hnode
      exact ⟨List.mem_append_left _ hmem, hempty, ty, CommandHierarchyCreator.ibNodeType_append
        (CommandHierarchyCreator.ibNodeType_append hty), htyne⟩
  · refine List.nodup_cons.mpr ⟨fun hmem => ?_, hs.stackDistinct⟩
    exact absurd (hold _ (hs.stack _ hmem).1) (lt_irrefl _)
  · rw [hlength, List.length_cons, hs.length]
  · have hlen := hs.startNodes
    rw [hfresh'.1, if_pos rfl, List.length_cons, Nat.add_sub_cancel]
    refine hlen.trans ?_
    split_ifs with hf
    · rw [hs.begun hf (hfresh hf)]
      rfl
    · rfl
  · dsimp only at hi
    rw [List.length_append] at hi
    omega

/-- **The end of an IB**, which sets the range of its node if it has run packets. -/
theorem StacksFollow.close (hs : StacksFollow base C n t) {ibIndex : ℕ} {info : IndirectBufferInfo}
    (hn : Nests n (.ibEnd ibIndex info) n') : ∃ C' node nodes,
    C.onIbEnd = some C' ∧ C.ibStack = node :: nodes ∧
    StacksFollow base C' n' (t ++ [.ibEnd ibIndex info]) ∧
    C' = { C with
      ibStack := nodes
      startNodeStack := C'.startNodeStack
      newIbStart := false
      submitRanges := C'.submitRanges } ∧
    if n.fresh then C'.startNodeStack = C.startNodeStack ∧ C'.submitRanges = C.submitRanges
    else ∃ start starts, C.startNodeStack = start :: starts ∧ C'.startNodeStack = starts ∧
      C'.submitRanges = update C.submitRanges node
        ⟨some start, some C.lastAddedNodeIndex, some C.curSubmitNodeIndex⟩ := by
  cases hn with
  | @close k o os fresh ibIndex info ho =>
    have hlength := hs.length
    have hstart := hs.startNodes
    rw [List.length_cons] at hlength
    obtain ⟨node, nodes, hstack⟩ : ∃ node nodes, C.ibStack = node :: nodes :=
      List.exists_cons_of_length_pos (by omega)
    have hdistinct := hs.stackDistinct
    rw [hstack, List.nodup_cons] at hdistinct
    obtain ⟨hmem, -, ibType, htype, hne⟩ := hs.stack node (hstack ▸ List.mem_cons_self)
    have hrest : ∀ i ∈ nodes, i ∈ C.ibStack := fun i hi => hstack ▸ List.mem_cons_of_mem node hi
    have hlen : nodes.length = os.length +
        (t ++ [Event.ibEnd ibIndex info]).countP Event.startsChain := by
      rw [List.countP_append, List.countP_singleton, if_neg (by simp [Event.startsChain])]
      rw [hstack, List.length_cons] at hlength
      omega
    rw [hstack, List.length_cons] at hstart
    cases fresh with
    | true =>
      have hend := onIbEnd_fresh hs.newIbStart hstack htype hne
      refine ⟨_, node, nodes, hend, hstack, ⟨hs.submit, hs.children, hs.started, hs.distinct,
        fun i hi => hs.stack i (hrest i hi), hdistinct.2, hlen, rfl, fun hfresh => (by cases hfresh),
        hstart, hs.unwritten, hs.kept⟩, rfl, rfl, rfl⟩
    | false =>
      obtain ⟨start, starts, hstarts⟩ := List.exists_cons_of_length_eq_add_one hstart
      have hend := onIbEnd_started hs.newIbStart hstack hstarts htype hne
      rw [hstarts, List.length_cons] at hstart
      refine ⟨_, node, nodes, hend, hstack, ⟨hs.submit, hs.children, hs.started, hs.distinct,
        fun i hi => ?_, hdistinct.2, hlen, rfl, fun hfresh => (by cases hfresh),
        Nat.succ.inj hstart, fun i hi => ?_, fun i hi => ?_⟩, rfl, start, starts, hstarts, rfl, rfl⟩
      · obtain ⟨hi', hempty, hty⟩ := hs.stack i (hrest i hi)
        refine ⟨hi', ?_, hty⟩
        rw [← hempty]
        exact Function.update_of_ne (fun heq : i = node => hdistinct.1 (heq ▸ hi)) _ _
      · have hlt := (hs.started node hmem).2
        refine (Function.update_of_ne (fun heq => ?_) _ _).trans (hs.unwritten i hi)
        exact absurd hlt (not_lt.mpr (heq ▸ hi))
      · have hlt := (hs.started node hmem).1
        refine (Function.update_of_ne (fun heq => ?_) _ _).trans (hs.kept i hi)
        exact absurd hlt (not_lt.mpr (heq ▸ hi))

/-- **A packet.** -/
theorem StacksFollow.packet (hs : StacksFollow base C n t) {ibIndex : ℕ} {va : UInt64}
    {h : Pm4Header} (hn : Nests n (.packet ibIndex va h) n') (hh : h.isCommand = true)
    (hframe : PacketFrame kind fields C h C') :
    StacksFollow base C' n' (t ++ [.packet ibIndex va h]) := by
  cases hn with
  | @packet k o os fresh va h =>
    have hto := hframe.creator.trans (creator_addPacket hh)
    have hnodes : startedNodes base C' = startedNodes base C := by
      rw [startedNodes, hto, startedNodes]
    have hle : C.nodes.length ≤ C'.nodes.length := by
      rw [hto]
      simp
    have hlength := hs.length
    have hstart := hs.startNodes
    have hpos : C.ibStack.length ≠ 0 := by
      rw [hlength, List.length_cons]
      omega
    refine ⟨?_, ?_, ?_, ?_, ?_, ?_, ?_, ?_, ?_, ?_, ?_, ?_⟩
    · rw [hto]
      exact hs.submit
    · rw [hto]
      exact hs.children
    · rw [hnodes]
      exact fun node hnode => ⟨(hs.started node hnode).1, (hs.started node hnode).2.trans_le hle⟩
    · rw [hnodes]
      exact hs.distinct
    · rw [hnodes, hto, hframe.submitRanges]
      intro node hnode
      obtain ⟨hmem, hempty, ty, hty, hne⟩ := hs.stack node hnode
      exact ⟨hmem, hempty, ty, CommandHierarchyCreator.ibNodeType_append hty, hne⟩
    · rw [hto]
      exact hs.stackDistinct
    · rw [List.countP_append, List.countP_singleton, if_neg (by simp [Event.startsChain]), hto]
      exact hlength
    · rw [hto, hh, Bool.not_true, Bool.and_false]
    · exact fun _ hopen => absurd hopen (List.cons_ne_nil _ _)
    · rw [hto, hh, Bool.not_true, Bool.and_false, if_neg Bool.false_ne_true]
      dsimp only
      rw [hs.newIbStart]
      split_ifs at hstart ⊢ with hfresh
      · rw [List.length_cons, hstart]
        omega
      · exact hstart
    · rw [hframe.submitRanges]
      exact fun i hi => hs.unwritten i (hle.trans hi)
    · rw [hframe.submitRanges]
      exact hs.kept

theorem ibOwns_concat (hrun : Monitor.run (onEvent kind fields) base t = some C)
    (hnest : Monitor.run (nest true) {} t = some n) (k i : ℕ) :
    IbOwns kind fields base (t ++ [e]) k i ↔ IbOwns kind fields base t k i ∨
      ∃ ibIndex va h, e = .packet ibIndex va h ∧ h.isCommand = true ∧ C.nodes.length = i ∧
        k ∈ n.opened.map OpenIb.number := by
  constructor
  · rintro ⟨t₁, ibIndex, va, h, t₂, C₁, n₁, ht, hh, hC₁, hn₁, hi, hk⟩
    rcases List.eq_nil_or_concat t₂ with rfl | ⟨t₃, e', rfl⟩
    · obtain ⟨rfl, he⟩ := List.append_inj' ht rfl
      obtain rfl : C₁ = C := Option.some.inj (hC₁.symm.trans hrun)
      obtain rfl : n₁ = n := Option.some.inj (hn₁.symm.trans hnest)
      exact .inr ⟨ibIndex, va, h, List.head_eq_of_cons_eq he, hh, hi, hk⟩
    · rw [List.concat_eq_append, ← List.cons_append, ← List.append_assoc] at ht
      exact .inl ⟨t₁, ibIndex, va, h, t₃, C₁, n₁, (List.append_inj' ht rfl).1, hh, hC₁, hn₁, hi, hk⟩
  · rintro (⟨t₁, ibIndex, va, h, t₂, C₁, n₁, rfl, hh, hC₁, hn₁, hi, hk⟩ |
      ⟨ibIndex, va, h, rfl, hh, hi, hk⟩)
    · exact ⟨t₁, ibIndex, va, h, t₂ ++ [e], C₁, n₁, by simp, hh, hC₁, hn₁, hi, hk⟩
    · exact ⟨t, ibIndex, va, h, [], C, n, rfl, hh, hrun, hnest, hi, hk⟩

/-- The IBs of a submit that chains to none. -/
structure IbsFollow (kind : ℕ → PacketKind) (fields : ℕ → ℕ) (base C : RangeCreator) (n : Nesting)
    (t : List Event) : Prop where
  follows : CommandHierarchyCreator.Follows base.toCommandHierarchyCreator
    C.toCommandHierarchyCreator n
  owned : ∀ k i, IbOwns kind fields base t k i → C.Executed i ∧ k < n.started
  numbers : (n.opened.map OpenIb.number).Nodup ∧ ∀ o ∈ n.opened, o.number < n.started
  fresh : n.fresh = true → ∀ o os, n.opened = o :: os → ∀ i, ¬ IbOwns kind fields base t o.number i
  starts : List.Forall₂ (fun start (o : OpenIb) => C.Executed start ∧ ∀ i, C.Executed i →
    (start ≤ i ↔ IbOwns kind fields base t o.number i)) C.startNodeStack
      (if n.fresh then n.opened.tail else n.opened)
  closed : ∀ k node, (startedNodes base C)[k]? = some node → k ∉ n.opened.map OpenIb.number →
    ((∃ i, IbOwns kind fields base t k i) →
      C.Selects (C.submitRanges node) (IbOwns kind fields base t k)) ∧
    ((∀ i, ¬ IbOwns kind fields base t k i) → C.submitRanges node = {})

theorem IbsFollow.length_startedNodes (hf : IbsFollow kind fields base C n t) :
    (startedNodes base C).length = n.started := by
  rw [startedNodes, List.length_map, List.length_drop, hf.follows.children]
  omega

theorem selects_eq (hsubmit : C'.curSubmitNodeIndex = C.curSubmitNodeIndex)
    (hex : C'.Executed = C.Executed) : C'.Selects = C.Selects := by
  funext r Owns
  rw [Selects, Selects, hsubmit, hex]

/-- **The start of an IB** that is not chained to. -/
theorem IbsFollow.start (hf : IbsFollow kind fields base C n t)
    (hrun : Monitor.run (onEvent kind fields) base t = some C)
    (hnest : Monitor.run (nest true) {} t = some n) {q : QueuedIb} {ibIndex : ℕ}
    {info : IndirectBufferInfo} {ibType : IbType} (hne : ibType ≠ .kChain)
    (hopen : n.opened ≠ [] → n.fresh = false) :
    IbsFollow kind fields base (C.onIbStart ibIndex info ibType)
      ⟨n.started + 1, ⟨n.started, q, ibIndex, info⟩ :: n.opened, true⟩
      (t ++ [.ibStart q ibIndex info ibType]) := by
  have howns : ∀ k i, IbOwns kind fields base (t ++ [.ibStart q ibIndex info ibType]) k i ↔
      IbOwns kind fields base t k i := by
    intro k i
    rw [ibOwns_concat hrun hnest]
    simp
  have howns' : IbOwns kind fields base (t ++ [.ibStart q ibIndex info ibType]) =
      IbOwns kind fields base t := by
    funext k i
    exact propext (howns k i)
  have hex : (C.onIbStart ibIndex info ibType).Executed = C.Executed := by
    funext i
    obtain ⟨nodes, hnodes, hno⟩ := nodes_onIbStart C ibIndex info ibType
    exact propext (@executed_append C (C.onIbStart ibIndex info ibType) nodes rfl hnodes hno i)
  have hsel : (C.onIbStart ibIndex info ibType).Selects = C.Selects := selects_eq rfl hex
  have hnodes : ∃ j, startedNodes base (C.onIbStart ibIndex info ibType) =
      startedNodes base C ++ [j] := by
    refine ⟨_, startedNodes_append ?_ rfl⟩
    rw [hf.follows.children]
    omega
  obtain ⟨j, hnodes⟩ := hnodes
  refine ⟨hf.follows.start hne hopen, ?_, ⟨?_, ?_⟩, ?_, ?_, ?_⟩
  · rw [howns', hex]
    exact fun k i hi => ⟨(hf.owned k i hi).1, (hf.owned k i hi).2.trans (Nat.lt_succ_self _)⟩
  · refine List.nodup_cons.mpr ⟨fun hmem => ?_, hf.numbers.1⟩
    obtain ⟨o, ho, heq⟩ := List.mem_map.mp hmem
    exact absurd (hf.numbers.2 o ho) (by rw [heq]; exact lt_irrefl _)
  · refine List.forall_mem_cons.mpr ⟨Nat.lt_succ_self _, fun o ho => ?_⟩
    exact (hf.numbers.2 o ho).trans (Nat.lt_succ_self _)
  · rw [howns']
    intro _ o os ho i hi
    cases ho
    exact absurd (hf.owned _ i hi).2 (lt_irrefl _)
  · rw [howns', hex, if_pos rfl, List.tail_cons]
    have hstarts := hf.starts
    split_ifs at hstarts with hfresh
    · have hnil : n.opened = [] := by
        by_contra hne'
        rw [hopen hne'] at hfresh
        cases hfresh
      rw [hnil] at hstarts ⊢
      exact hstarts
    · exact hstarts
  · rw [howns', hsel, hnodes]
    intro k node hk hnot
    have hlen := hf.length_startedNodes
    rcases lt_or_ge k n.started with hlt | hge
    · rw [List.getElem?_append_left (hlen ▸ hlt)] at hk
      exact hf.closed k node hk fun hmem => hnot (List.mem_cons_of_mem _ hmem)
    · have hle : k < (startedNodes base C ++ [j]).length := (List.getElem?_eq_some_iff.mp hk).1
      rw [List.length_append, List.length_singleton, hlen] at hle
      obtain rfl : k = n.started := by omega
      exact absurd List.mem_cons_self hnot

/-- **The end of an IB.** -/
theorem IbsFollow.close (hf : IbsFollow kind fields base C n t) (hs : StacksFollow base C n t)
    (hC : EventsFollow kind fields C) (hrun : Monitor.run (onEvent kind fields) base t = some C)
    (hnest : Monitor.run (nest true) {} t = some n) {ibIndex : ℕ} {info : IndirectBufferInfo}
    (hn : Nests n (.ibEnd ibIndex info) n') {node : ℕ} {nodes : List ℕ}
    (hend : C.onIbEnd = some C') (hstack : C.ibStack = node :: nodes)
    (hC' : C' = { C with
      ibStack := nodes
      startNodeStack := C'.startNodeStack
      newIbStart := false
      submitRanges := C'.submitRanges })
    (hset : if n.fresh then C'.startNodeStack = C.startNodeStack ∧ C'.submitRanges = C.submitRanges
      else ∃ start starts, C.startNodeStack = start :: starts ∧ C'.startNodeStack = starts ∧
        C'.submitRanges = update C.submitRanges node
          ⟨some start, some C.lastAddedNodeIndex, some C.curSubmitNodeIndex⟩) :
    IbsFollow kind fields base C' n' (t ++ [.ibEnd ibIndex info]) := by
  have howns' : IbOwns kind fields base (t ++ [.ibEnd ibIndex info]) =
      IbOwns kind fields base t := by
    funext k i
    refine propext ((ibOwns_concat hrun hnest k i).trans ?_)
    simp
  have hex : C'.Executed = C.Executed := by
    rw [hC']
    rfl
  have hsel : C'.Selects = C.Selects := selects_eq (by rw [hC']) hex
  have hnodes : startedNodes base C' = startedNodes base C := by
    rw [hC']
    rfl
  cases hn with
  | @close k o os fresh ibIndex info ho =>
    obtain ⟨C₁, hC₁, hfollows⟩ := hf.follows.close rfl
    have hcreator : C'.toCommandHierarchyCreator = C₁ := by
      obtain ⟨C₂, hC₂, rfl⟩ := Option.map_eq_some_iff.mp hend
      exact Option.some.inj (hC₂.symm.trans hC₁)
    have hforall := hf.follows.stack
    rw [hstack, List.forall₂_cons] at hforall
    have hnode : (startedNodes base C)[o.number]? = some node := by
      rw [← startedNode_eq]
      exact hforall.1
    have hnumbers := hf.numbers.1
    rw [List.map_cons, List.nodup_cons] at hnumbers
    have hother : ∀ k' node', (startedNodes base C)[k']? = some node' → k' ≠ o.number →
        node' ≠ node := by
      rintro k' node' hk' hne rfl
      have hinj := List.nodup_iff_getElem?_ne_getElem?.mp hs.distinct
      rcases lt_or_gt_of_ne hne with hlt | hgt
      · exact hinj k' o.number hlt (List.getElem?_eq_some_iff.mp hnode).1 (hk'.trans hnode.symm)
      · exact hinj o.number k' hgt (List.getElem?_eq_some_iff.mp hk').1 (hnode.trans hk'.symm)
    refine ⟨hcreator ▸ hfollows, ?_, ⟨hnumbers.2, fun o' ho' => ?_⟩, nofun, ?_, ?_⟩
    · rw [howns', hex]
      exact hf.owned
    · exact hf.numbers.2 o' (List.mem_cons_of_mem o ho')
    · rw [howns', hex, if_neg Bool.false_ne_true]
      have hstarts := hf.starts
      cases fresh with
      | true =>
        rw [(show _ ∧ _ from hset).1]
        exact hstarts
      | false =>
        obtain ⟨start, starts, hold, hnew, -⟩ := hset
        rw [hnew]
        rw [hold, if_neg Bool.false_ne_true, List.forall₂_cons] at hstarts
        exact hstarts.2
    · rw [howns', hsel, hnodes]
      intro k' node' hk' hnot
      by_cases heq : k' = o.number
      · subst heq
        obtain rfl : node' = node := Option.some.inj (hk'.symm.trans hnode)
        cases fresh with
        | true =>
          obtain ⟨-, hranges⟩ : _ ∧ _ := hset
          have hnone := hf.fresh rfl o os rfl
          rw [hranges]
          refine ⟨fun ⟨i, hi⟩ => absurd hi (hnone i), fun _ => ?_⟩
          exact (hs.stack node' (hstack ▸ List.mem_cons_self)).2.1
        | false =>
          obtain ⟨start, starts, hold, -, hranges⟩ := hset
          have hstarts := hf.starts
          rw [hold, if_neg Bool.false_ne_true, List.forall₂_cons] at hstarts
          obtain ⟨⟨hstart, hall⟩, -⟩ := hstarts
          rw [hranges, Function.update_self]
          obtain ⟨hle, hlast⟩ := hC.last start hstart
          refine ⟨fun _ => ⟨start, C.lastAddedNodeIndex, rfl, hstart, hlast, hle, fun i hi => ?_⟩,
            fun hnone => absurd ((hall start hstart).mp le_rfl) (hnone start)⟩
          rw [and_iff_left (hC.last i hi).1, hall i hi]
      · have hranges : C'.submitRanges node' = C.submitRanges node' := by
          cases fresh with
          | true => rw [(show _ ∧ _ from hset).2]
          | false =>
            obtain ⟨start, starts, -, -, hranges⟩ := hset
            rw [hranges, Function.update_of_ne (hother k' node' hk' heq)]
        rw [hranges]
        refine hf.closed k' node' hk' fun hmem => ?_
        rcases List.mem_cons.mp hmem with hmem | hmem
        · exact heq hmem
        · exact hnot hmem

/-- **A packet**, which the open IBs run. -/
theorem IbsFollow.packet (hf : IbsFollow kind fields base C n t)
    (hC : C.curSubmitNodeIndex < C.nodes.length)
    (hrun : Monitor.run (onEvent kind fields) base t = some C)
    (hnest : Monitor.run (nest true) {} t = some n) {ibIndex : ℕ} {va : UInt64} {h : Pm4Header}
    (hn : Nests n (.packet ibIndex va h) n') (hh : h.isCommand = true)
    (hframe : PacketFrame kind fields C h C') :
    IbsFollow kind fields base C' n' (t ++ [.packet ibIndex va h]) := by
  have hto := hframe.creator.trans (creator_addPacket hh)
  have hsubmit : C'.curSubmitNodeIndex = C.curSubmitNodeIndex := by rw [hto]
  have hex : ∀ i, C'.Executed i ↔ C.Executed i ∨ i = C.nodes.length := by
    intro i
    rw [← @executed_addPacket kind fields C h hh hC, Executed, hframe.creator, Executed]
  have howns : ∀ k i, IbOwns kind fields base (t ++ [.packet ibIndex va h]) k i ↔
      IbOwns kind fields base t k i ∨ i = C.nodes.length ∧ k ∈ n.opened.map OpenIb.number := by
    intro k i
    rw [ibOwns_concat hrun hnest]
    refine or_congr_right ⟨?_, ?_⟩
    · rintro ⟨_, _, _, -, -, hi, hk⟩
      exact ⟨hi.symm, hk⟩
    · rintro ⟨hi, hk⟩
      exact ⟨ibIndex, va, h, rfl, hh, hi.symm, hk⟩
  have hnodes : startedNodes base C' = startedNodes base C := by
    rw [startedNodes, hto, startedNodes]
  have hold : ∀ k, ¬ IbOwns kind fields base t k C.nodes.length :=
    fun k hk => absurd (hf.owned k _ hk).1.lt (lt_irrefl _)
  cases hn with
  | @packet k o os fresh va h =>
    have hlt : ∀ o' ∈ o :: os, o'.number < k := hf.numbers.2
    have hfollows : CommandHierarchyCreator.Follows base.toCommandHierarchyCreator
        C'.toCommandHierarchyCreator ⟨k, o :: os, fresh && !h.isCommand⟩ := by
      rw [hframe.creator]
      exact hf.follows.packet rfl
    -- the IBs around a start keep it, and run the packet
    have hkept : ∀ {start : ℕ} {o' : OpenIb}, o' ∈ o :: os → (C.Executed start ∧
        ∀ i, C.Executed i → (start ≤ i ↔ IbOwns kind fields base t o'.number i)) →
        C'.Executed start ∧ ∀ i, C'.Executed i → (start ≤ i ↔
          IbOwns kind fields base (t ++ [.packet o.ibIndex va h]) o'.number i) := by
      rintro start o' ho' ⟨hstart, hall⟩
      refine ⟨(hex start).mpr (.inl hstart), fun i hi => ?_⟩
      rw [howns]
      rcases (hex i).mp hi with hi | rfl
      · rw [hall i hi, or_iff_left fun hnew => absurd hi.lt (by rw [hnew.1]; exact lt_irrefl _)]
      · exact iff_of_true hstart.lt.le (.inr ⟨rfl, List.mem_map_of_mem ho'⟩)
    have hstarts := hf.starts
    refine ⟨hfollows, fun k' i hi => ?_, hf.numbers, ?_, ?_, fun k' node hk' hnot => ?_⟩
    · rcases (howns k' i).mp hi with hi | ⟨rfl, hmem⟩
      · exact ⟨(hex i).mpr (.inl (hf.owned k' i hi).1), (hf.owned k' i hi).2⟩
      · obtain ⟨o', ho', rfl⟩ := List.mem_map.mp hmem
        exact ⟨(hex _).mpr (.inr rfl), hlt o' ho'⟩
    · rw [hh, Bool.not_true, Bool.and_false]
      intro hfresh
      cases hfresh
    · rw [hto, hh, Bool.not_true, Bool.and_false, if_neg Bool.false_ne_true]
      dsimp only
      rw [hf.follows.newIbStart]
      cases fresh with
      | true =>
        rw [if_pos rfl] at hstarts ⊢
        refine List.Forall₂.cons ⟨(hex _).mpr (.inr rfl), fun i hi => ?_⟩ ?_
        · have hnone := hf.fresh rfl o os rfl
          rw [howns, or_iff_right (hnone i)]
          rcases (hex i).mp hi with hi | rfl
          · exact iff_of_false (not_le.mpr hi.lt) fun hnew =>
              absurd hi.lt (by rw [hnew.1]; exact lt_irrefl _)
          · exact iff_of_true le_rfl ⟨rfl, List.mem_cons_self⟩
        · refine List.forall₂_iff_zip.mpr ⟨(List.forall₂_iff_zip.mp hstarts).1, fun hmem => ?_⟩
          exact hkept (List.mem_cons_of_mem o (List.of_mem_zip hmem).2)
            ((List.forall₂_iff_zip.mp hstarts).2 hmem)
      | false =>
        rw [if_neg Bool.false_ne_true] at hstarts ⊢
        refine List.forall₂_iff_zip.mpr ⟨(List.forall₂_iff_zip.mp hstarts).1, fun hmem => ?_⟩
        exact hkept (List.of_mem_zip hmem).2 ((List.forall₂_iff_zip.mp hstarts).2 hmem)
    · rw [hnodes] at hk'
      rw [hframe.submitRanges]
      have hclosed := hf.closed k' node hk' hnot
      have hsame : ∀ i, IbOwns kind fields base (t ++ [.packet o.ibIndex va h]) k' i ↔
          IbOwns kind fields base t k' i :=
        fun i => (howns k' i).trans (or_iff_left fun hnew => hnot hnew.2)
      refine ⟨?_, fun hnone => hclosed.2 fun i hi => hnone i ((hsame i).mpr hi)⟩
      rintro ⟨i, hi⟩
      exact (hclosed.1 ⟨i, (hsame i).mp hi⟩).grow hsubmit hex (fun i _ => hsame i)
        fun hnew => hold k' ((hsame _).mp hnew)

theorem StacksFollow.skip (hs : StacksFollow base C n t) {ibIndex : ℕ} {va : UInt64}
    {h : Pm4Header} (hn : Nests n (.packet ibIndex va h) n') (hh : h.isCommand = false) :
    StacksFollow base C n' (t ++ [.packet ibIndex va h]) := by
  have hcount : (t ++ [Event.packet ibIndex va h]).countP Event.startsChain =
      t.countP Event.startsChain := by
    rw [List.countP_append, List.countP_singleton, if_neg (by simp [Event.startsChain]),
      Nat.add_zero]
  cases hn with
  | packet =>
    rw [hh, Bool.not_false, Bool.and_true]
    exact { hs with length := hcount ▸ hs.length }

theorem IbsFollow.skip (hf : IbsFollow kind fields base C n t)
    (hrun : Monitor.run (onEvent kind fields) base t = some C)
    (hnest : Monitor.run (nest true) {} t = some n) {ibIndex : ℕ} {va : UInt64} {h : Pm4Header}
    (hn : Nests n (.packet ibIndex va h) n') (hh : h.isCommand = false) :
    IbsFollow kind fields base C n' (t ++ [.packet ibIndex va h]) := by
  have howns : IbOwns kind fields base (t ++ [.packet ibIndex va h]) =
      IbOwns kind fields base t := by
    funext k i
    refine propext ((ibOwns_concat hrun hnest k i).trans (or_iff_left ?_))
    rintro ⟨_, _, h', heq, hh', -⟩
    cases heq
    rw [hh] at hh'
    cases hh'
  cases hn with
  | packet =>
    rw [hh, Bool.not_false, Bool.and_true]
    refine ⟨hf.follows, ?_, hf.numbers, ?_, ?_, ?_⟩
    · rw [howns]
      exact hf.owned
    · rw [howns]
      exact hf.fresh
    · rw [howns]
      exact hf.starts
    · rw [howns]
      exact hf.closed

/-! ## Runs -/

/-- The creator after some calls of a submit. -/
structure RangesFollow (kind : ℕ → PacketKind) (fields : ℕ → ℕ) (base C : RangeCreator)
    (n : Nesting) (t : List Event) : Prop where
  events : EventsFollow kind fields C
  ibStacks : StacksFollow base C n t
  ibs : (∀ e ∈ t, e.startsChain = false) → IbsFollow kind fields base C n t
  kept : ∀ i ≤ base.curSubmitNodeIndex, C.eventRanges i = base.eventRanges i

/-- What is not reached is unset. -/
def Unwritten (C : RangeCreator) : Prop :=
  ∀ i, C.nodes.length ≤ i → C.eventRanges i = {} ∧ C.submitRanges i = {}

theorem not_ibOwns_nil (k i : ℕ) : ¬ IbOwns kind fields base [] k i := by
  rintro ⟨t₁, ibIndex, va, h, t₂, C₁, n₁, ht, -⟩
  cases t₁ <;> cases ht

theorem rangesFollow_onSubmitStart (hC : C.Unwritten) (submitIndex : ℕ) :
    RangesFollow kind fields (C.onSubmitStart submitIndex) (C.onSubmitStart submitIndex) {} [] := by
  have hnodes : startedNodes (C.onSubmitStart submitIndex) (C.onSubmitStart submitIndex) = [] := by
    rw [startedNodes, List.drop_length]
    rfl
  refine ⟨eventsFollow_onSubmitStart (fun i hi => (hC i hi).1) submitIndex, ⟨rfl, le_rfl, ?_, ?_,
    fun node hnode => absurd hnode List.not_mem_nil, List.nodup_nil, rfl, rfl, fun _ _ => rfl, rfl,
    fun i hi => ?_, fun _ _ => rfl⟩, fun _ => ⟨CommandHierarchyCreator.follows_onSubmitStart _ _,
    fun k i hi => absurd hi (not_ibOwns_nil k i), ⟨List.nodup_nil, nofun⟩, nofun,
    List.Forall₂.nil, fun k node hk => ?_⟩, fun _ _ => rfl⟩
  · rw [hnodes]
    nofun
  · rw [hnodes]
    exact List.nodup_nil
  · have hi : (C.nodes ++ [Node.submit submitIndex]).length ≤ i := hi
    rw [List.length_append, List.length_singleton] at hi
    show update C.submitRanges C.nodes.length _ i = _
    rw [Function.update_of_ne (by omega), (hC i (by omega)).2]
  · rw [hnodes] at hk
    cases hk

/-- **One call.** -/
theorem RangesFollow.step (hr : RangesFollow kind fields base C n t)
    (hrun : Monitor.run (onEvent kind fields) base t = some C)
    (hnest : Monitor.run (nest true) {} t = some n) (hn : Nests n e n') (hp : e.PassesOn) :
    ∃ C', C.onEvent kind fields e = some C' ∧ RangesFollow kind fields base C' n' (t ++ [e]) := by
  have hchain : (∀ e' ∈ t ++ [e], e'.startsChain = false) →
      (∀ e' ∈ t, e'.startsChain = false) ∧ e.startsChain = false := by
    intro hall
    exact ⟨fun e' he' => hall e' (List.mem_append_left _ he'),
      hall e (List.mem_append_right _ (List.mem_singleton_self e))⟩
  cases e with
  | ibStart q ibIndex info ibType =>
    refine ⟨_, rfl, ?_, hr.ibStacks.start hr.events.submit hn hp.2.2, fun hall => ?_, hr.kept⟩
    · obtain ⟨nodes, hnodes, hno⟩ := nodes_onIbStart C ibIndex info ibType
      exact hr.events.congr rfl hnodes hno rfl rfl rfl rfl rfl
    · obtain ⟨hold, hnew⟩ := hchain hall
      cases hn with
      | start hq hopen => exact (hr.ibs hold).start hrun hnest hp.2.2 hopen
      | chain hq => exact absurd hq (of_decide_eq_false hnew)
  | ibEnd ibIndex info =>
    obtain ⟨C', node, nodes, hend, hstack, hstacks, hC', hset⟩ := hr.ibStacks.close hn
    refine ⟨C', hend, ?_, hstacks, fun hall => ?_, ?_⟩
    · have hnodes : C'.nodes = C.nodes ++ [] := by rw [hC', List.append_nil]
      exact hr.events.congr (by rw [hC']) hnodes List.not_mem_nil (by rw [hC']) (by rw [hC'])
        (by rw [hC']) (by rw [hC']) (by rw [hC'])
    · exact (hr.ibs (hchain hall).1).close hr.ibStacks hr.events hrun hnest hn hend hstack hC' hset
    · rw [hC']
      exact hr.kept
  | packet ibIndex va h =>
    cases hh : h.isCommand with
    | true =>
      obtain ⟨C', hpacket, hevents, hframe⟩ := hr.events.packet hh
      refine ⟨C', hpacket, hevents, hr.ibStacks.packet hn hh hframe, fun hall => ?_, fun i hi => ?_⟩
      · exact (hr.ibs (hchain hall).1).packet hr.events.submit hrun hnest hn hh hframe
      · rw [hframe.eventRanges i (by rw [hr.ibStacks.submit]; exact hi), hr.kept i hi]
    | false =>
      have hcmd : h.type ≠ 4 ∧ h.type ≠ 7 := by
        simpa [Pm4Header.isCommand] using hh
      refine ⟨C, if_pos hcmd, hr.events, ?_, fun hall => ?_, hr.kept⟩
      · exact hr.ibStacks.skip hn hh
      · exact (hr.ibs (hchain hall).1).skip hrun hnest hn hh

theorem rangesFollow_run (hbase : RangesFollow kind fields base base {} []) :
    Monitor.run (nest true) {} t = some n → (∀ e ∈ t, e.PassesOn) →
      ∃ C, Monitor.run (onEvent kind fields) base t = some C ∧
        RangesFollow kind fields base C n t := by
  induction t using List.reverseRecOn generalizing n with
  | nil =>
    intro hn _
    cases hn
    exact ⟨base, rfl, hbase⟩
  | append_singleton t e ih =>
    intro hn hp
    obtain ⟨n₁, n₂, hn₁, hstep, hn₂⟩ := Monitor.run_split hn
    cases hn₂
    obtain ⟨C, hrun, hr⟩ := ih hn₁ fun e' he' => hp e' (List.mem_append_left _ he')
    obtain ⟨C', hC', hr'⟩ := hr.step hrun hn₁ (nests_of_nest hstep)
      (hp e (List.mem_append_right _ (List.mem_singleton_self e)))
    exact ⟨C', (Monitor.run_append_of hrun).trans (Monitor.run_cons_of hC'), hr'⟩

/-! ## A submit -/

/-- No IB is chained to, no packet starts a pass, every IB that starts runs a packet, and no present
follows. -/
structure Closes (kind : ℕ → PacketKind) (fields : ℕ → ℕ) (base C : RangeCreator) (t : List Event)
    (presents : ℕ) : Prop where
  chains : ∀ e ∈ t, e.startsChain = false
  passes : ∀ p, C.Executed p → kind p ≠ .pass
  packets : ∀ k < (startedNodes base C).length, ∃ i, IbOwns kind fields base t k i
  presents : presents = 0

/-- **A submit**: its nodes are right exactly when it closes all of them. -/
theorem nodesRight_iff {presents : ℕ} {final : RangeCreator}
    (hr : RangesFollow kind fields base C n t) (hn : n.opened = [])
    (hroot : (base.submitRanges base.curSubmitNodeIndex).root = some base.curSubmitNodeIndex ∧
      (base.eventRanges base.curSubmitNodeIndex).root = some base.curSubmitNodeIndex)
    (hfinal : ∀ i < C.nodes.length + presents, final.eventRanges i = C.eventRanges i ∧
      final.submitRanges i = C.submitRanges i) :
    NodesRight kind fields base C final t presents ↔ Closes kind fields base C t presents := by
  have hmarker : ∀ p, C.Executed p → kind p ≠ .other →
      final.eventRanges (nodeOf fields p) = C.eventRanges (nodeOf fields p) := by
    intro p hp hk
    exact (hfinal _ ((hr.events.inside p hp hk).trans_le (Nat.le_add_right _ _))).1
  have hib : ∀ k node : ℕ, (startedNodes base C)[k]? = some node →
      final.submitRanges node = C.submitRanges node := by
    intro k node hk
    have hlt := (hr.ibStacks.started node (List.mem_of_getElem? hk)).2
    exact (hfinal node (hlt.trans_le (Nat.le_add_right _ _))).2
  have hnot : ¬ SharedRange.Written {} := fun h => absurd h.1 nofun
  constructor
  · intro hright
    have hchains : ∀ e ∈ t, e.startsChain = false := by
      by_contra hchain
      -- one node is left on the IB stack, and has no range
      have hpos : t.countP Event.startsChain ≠ 0 := by
        rw [Ne, List.countP_eq_zero]
        simpa using hchain
      have hlen := hr.ibStacks.length
      obtain ⟨node, nodes, hstack⟩ : ∃ node nodes, C.ibStack = node :: nodes :=
        List.exists_cons_of_length_pos (by omega)
      obtain ⟨hmem, hempty, -⟩ := hr.ibStacks.stack node (hstack ▸ List.mem_cons_self)
      obtain ⟨k, hk⟩ := List.mem_iff_getElem?.mp hmem
      have hwritten := hright.ibWritten k node ((startedNode_eq base C k).trans hk)
      rw [hib k node hk, hempty] at hwritten
      exact hnot hwritten
    refine ⟨hchains, fun p hp hk => ?_, fun k hk => ?_, ?_⟩
    · cases hm : C.renderMarkerIndex with
      | none => exact hr.events.unmarked hm p hp hk
      | some marker =>
        obtain ⟨-, rest, -, -, hstack⟩ := hr.events.stack
        obtain ⟨q, -, -, -, hq, hkq, hlast⟩ := hstack marker hm
        obtain ⟨start, stop, hrange, -⟩ := hright.pass q hq hkq
        rw [hmarker q hq (by rw [hkq]; nofun), hr.events.lastPass q hq hkq hlast] at hrange
        cases hrange
    · by_contra hnone
      have hnone : ∀ i, ¬ IbOwns kind fields base t k i := fun i hi => hnone ⟨i, hi⟩
      have hnode := List.getElem?_eq_getElem hk
      have hwritten := hright.ibWritten k _ ((startedNode_eq base C k).trans hnode)
      rw [hib k _ hnode, ((hr.ibs hchains).closed k _ hnode (by rw [hn]; nofun)).2 hnone]
        at hwritten
      exact hnot hwritten
    · by_contra hpos
      have hwritten := hright.presentRoot 0 (Nat.pos_of_ne_zero hpos)
      rw [(hfinal _ (Nat.add_lt_add_left (Nat.pos_of_ne_zero hpos) _)).1,
        hr.events.unwritten _ (Nat.le_add_right _ 0)] at hwritten
      cases hwritten
  · intro hclean
    have hibs := hr.ibs hclean.chains
    have hselects : ∀ k node, base.startedNode C.toCommandHierarchyCreator k = some node →
        C.Selects (final.submitRanges node) (IbOwns kind fields base t k) := by
      intro k node hk
      have hk : (startedNodes base C)[k]? = some node := (startedNode_eq base C k).symm.trans hk
      obtain ⟨hlt, -⟩ := List.getElem?_eq_some_iff.mp hk
      rw [hib k node hk]
      exact (hibs.closed k node hk (by rw [hn]; nofun)).1 (hclean.packets k hlt)
    refine ⟨fun p hp hk => ?_, fun p hp hk => absurd hk (hclean.passes p hp),
      fun k node hk _ => hselects k node hk, fun k node hk => ?_, ?_, ?_⟩
    · rw [hmarker p hp (by rw [hk]; nofun)]
      exact hr.events.event p hp hk
    · obtain ⟨start, stop, hrange, -⟩ := hselects k node hk
      rw [hrange]
      exact ⟨rfl, rfl, rfl⟩
    · have hsubmit := hr.ibStacks.submit
      have hlt := hr.events.submit
      rw [(hfinal _ (hlt.trans_le (Nat.le_add_right _ _))).1,
        (hfinal _ (hlt.trans_le (Nat.le_add_right _ _))).2, hsubmit, hr.kept _ le_rfl,
        hr.ibStacks.kept _ le_rfl]
      exact hroot
    · rw [hclean.presents]
      exact fun i hi => absurd hi (Nat.not_lt_zero i)

end Ibs

/-! ## A capture -/

/-- The calls of the emulator for a submit, and the number of presents after it. -/
structure SubmitTrace where
  submitIndex : ℕ
  trace : List Event
  presents : ℕ

/-- The emulator accepts the submit, or does not parse it. -/
def SubmitTrace.Accepted (s : SubmitTrace) : Prop :=
  s.trace = [] ∨ ∃ E ibs, Emulation.Succeeds E ibs s.trace

section Capture

variable (kind : ℕ → PacketKind) (fields : ℕ → ℕ)

/-- The calls of the emulator for a submit. -/
def onSubmit (C : RangeCreator) (s : SubmitTrace) : Option RangeCreator :=
  (Monitor.run (onEvent kind fields) (C.onSubmitStart s.submitIndex) s.trace).map
    (·.onSubmitEnd s.presents)

/-- The submits from `base` on, each with the state `C` at the end of its calls. -/
def Each (P : RangeCreator → RangeCreator → SubmitTrace → Prop) :
    RangeCreator → List SubmitTrace → Prop
  | _, [] => True
  | base, s :: submits => ∃ C,
      Monitor.run (onEvent kind fields) (base.onSubmitStart s.submitIndex) s.trace = some C ∧
        P (base.onSubmitStart s.submitIndex) C s ∧ Each P (C.onSubmitEnd s.presents) submits

variable {kind fields} {s : SubmitTrace} {submits : List SubmitTrace} {final : RangeCreator}

theorem SubmitTrace.Accepted.closes (h : s.Accepted) : (∃ n : Nesting,
    Monitor.run (nest true) {} s.trace = some n ∧ n.opened = []) ∧ ∀ e ∈ s.trace, e.PassesOn := by
  rcases h with h | ⟨E, ibs, h⟩
  · rw [h]
    exact ⟨⟨{}, rfl, rfl⟩, nofun⟩
  · have hruns := Emulation.submitRuns_of_succeeds h
    obtain ⟨k, fresh, hk⟩ := Emulation.closes_of_submitRuns hruns
      (fun q hq => (Emulation.queued_ok hq).1) 0 true
    exact ⟨⟨_, hk, rfl⟩, Emulation.passesOn_of_submitRuns hruns
      fun q hq => Emulation.queued_ok hq⟩

theorem exists_rangesFollow (hC : C.Unwritten) (h : s.Accepted) : ∃ C₁ n,
    Monitor.run (onEvent kind fields) (C.onSubmitStart s.submitIndex) s.trace = some C₁ ∧
      RangesFollow kind fields (C.onSubmitStart s.submitIndex) C₁ n s.trace ∧ n.opened = [] := by
  obtain ⟨⟨n, hn, hopen⟩, hp⟩ := h.closes
  obtain ⟨C₁, hrun, hr⟩ := rangesFollow_run
    (@rangesFollow_onSubmitStart kind fields C hC s.submitIndex) hn hp
  exact ⟨C₁, n, hrun, hr, hopen⟩

theorem RangesFollow.unwritten {base C₁ : RangeCreator} {n : Nesting} {t : List Event}
    (hr : RangesFollow kind fields base C₁ n t) (presents : ℕ) :
    (C₁.onSubmitEnd presents).Unwritten := by
  intro i hi
  have hle : C₁.nodes.length ≤ i := by
    refine le_trans ?_ hi
    rw [onSubmitEnd]
    simp
  exact ⟨hr.events.unwritten i hle, hr.ibStacks.unwritten i hle⟩

theorem RangesFollow.before {C₁ : RangeCreator} {n : Nesting} {t : List Event} {submitIndex : ℕ}
    (hr : RangesFollow kind fields (C.onSubmitStart submitIndex) C₁ n t) (presents : ℕ) :
    C.nodes.length ≤ (C₁.onSubmitEnd presents).nodes.length ∧ ∀ i < C.nodes.length,
      (C₁.onSubmitEnd presents).eventRanges i = C.eventRanges i ∧
        (C₁.onSubmitEnd presents).submitRanges i = C.submitRanges i := by
  have hlt := hr.events.submit
  rw [hr.ibStacks.submit] at hlt
  refine ⟨hlt.le.trans ?_, fun i hi => ⟨?_, ?_⟩⟩
  · rw [onSubmitEnd]
    simp
  · exact (hr.kept i hi.le).trans (Function.update_of_ne hi.ne _ _)
  · exact (hr.ibStacks.kept i hi.le).trans (Function.update_of_ne hi.ne _ _)

theorem root_onSubmitStart (C : RangeCreator) (submitIndex : ℕ) :
    ((C.onSubmitStart submitIndex).submitRanges
      (C.onSubmitStart submitIndex).curSubmitNodeIndex).root =
        some (C.onSubmitStart submitIndex).curSubmitNodeIndex ∧
    ((C.onSubmitStart submitIndex).eventRanges
      (C.onSubmitStart submitIndex).curSubmitNodeIndex).root =
        some (C.onSubmitStart submitIndex).curSubmitNodeIndex :=
  ⟨congrArg SharedRange.root (Function.update_self C.nodes.length _ C.submitRanges),
    congrArg SharedRange.root (Function.update_self C.nodes.length _ C.eventRanges)⟩

theorem exists_run (hC : C.Unwritten) (h : ∀ s ∈ submits, s.Accepted) :
    ∃ final, Monitor.run (onSubmit kind fields) C submits = some final ∧
      ∀ i < C.nodes.length, final.eventRanges i = C.eventRanges i ∧
        final.submitRanges i = C.submitRanges i := by
  induction submits generalizing C with
  | nil => exact ⟨C, rfl, fun _ _ => ⟨rfl, rfl⟩⟩
  | cons s submits ih =>
    obtain ⟨hs, hrest⟩ := List.forall_mem_cons.mp h
    obtain ⟨C₁, n, hrun, hr, -⟩ := @exists_rangesFollow C kind fields s hC hs
    obtain ⟨hle, hkept⟩ := hr.before s.presents
    obtain ⟨final, hfinal, hsame⟩ := ih (hr.unwritten s.presents) hrest
    have hstep : onSubmit kind fields C s = some (C₁.onSubmitEnd s.presents) := by
      rw [onSubmit, hrun]
      rfl
    refine ⟨final, (Monitor.run_cons_of hstep).trans hfinal, fun i hi => ?_⟩
    obtain ⟨hevent, hsubmit⟩ := hsame i (hi.trans_le hle)
    exact ⟨hevent.trans (hkept i hi).1, hsubmit.trans (hkept i hi).2⟩

theorem each_nodesRight_iff (hC : C.Unwritten) (h : ∀ s ∈ submits, s.Accepted) :
    ∃ final, Monitor.run (onSubmit kind fields) C submits = some final ∧
      (Each kind fields (fun base C s => NodesRight kind fields base C final s.trace s.presents) C
        submits ↔
      Each kind fields (fun base C s => Closes kind fields base C s.trace s.presents) C submits) := by
  induction submits generalizing C with
  | nil => exact ⟨C, rfl, Iff.rfl⟩
  | cons s submits ih =>
    obtain ⟨hs, hrest⟩ := List.forall_mem_cons.mp h
    obtain ⟨C₁, n, hrun, hr, hopen⟩ := @exists_rangesFollow C kind fields s hC hs
    have hstep : onSubmit kind fields C s = some (C₁.onSubmitEnd s.presents) := by
      rw [onSubmit, hrun]
      rfl
    obtain ⟨final, hfinal, hiff⟩ := ih (hr.unwritten s.presents) hrest
    obtain ⟨final', hfinal', hsame⟩ :=
      @exists_run _ kind fields submits (hr.unwritten s.presents) hrest
    obtain rfl : final' = final := Option.some.inj (hfinal'.symm.trans hfinal)
    have hright : NodesRight kind fields _ C₁ final' s.trace s.presents ↔ _ :=
      nodesRight_iff hr hopen (root_onSubmitStart C s.submitIndex) fun i hi =>
        hsame i (by rw [onSubmitEnd]; simpa using hi)
    refine ⟨final', (Monitor.run_cons_of hstep).trans hfinal, ?_⟩
    constructor
    · rintro ⟨C₂, hrun₂, h₂, hrest₂⟩
      obtain rfl : C₂ = C₁ := Option.some.inj (hrun₂.symm.trans hrun)
      exact ⟨C₂, hrun, hright.mp h₂, hiff.mp hrest₂⟩
    · rintro ⟨C₂, hrun₂, h₂, hrest₂⟩
      obtain rfl : C₂ = C₁ := Option.some.inj (hrun₂.symm.trans hrun)
      exact ⟨C₂, hrun, hright.mpr h₂, hiff.mpr hrest₂⟩

theorem not_written_submit {C C₁ : RangeCreator} {n : Nesting} {t : List Event} {submitIndex : ℕ}
    (hr : RangesFollow kind fields (C.onSubmitStart submitIndex) C₁ n t)
    (hfinal : final.submitRanges C₁.curSubmitNodeIndex = C₁.submitRanges C₁.curSubmitNodeIndex) :
    ¬ (final.submitRanges C₁.curSubmitNodeIndex).Written := by
  have hsubmit := hr.ibStacks.submit
  have hrange : C₁.submitRanges C₁.curSubmitNodeIndex = { root := some C.nodes.length } := by
    rw [hsubmit, hr.ibStacks.kept _ le_rfl]
    exact Function.update_self C.nodes.length _ C.submitRanges
  rw [hfinal, hrange]
  exact fun h => absurd h.1 nofun

theorem each_rangesRight_iff (hC : C.Unwritten) (h : ∀ s ∈ submits, s.Accepted)
    (hrun : Monitor.run (onSubmit kind fields) C submits = some final) :
    Each kind fields (fun base C s => RangesRight kind fields base C final s.trace s.presents) C
      submits ↔ submits = [] := by
  cases submits with
  | nil => exact iff_of_true trivial rfl
  | cons s submits =>
    obtain ⟨hs, hrest⟩ := List.forall_mem_cons.mp h
    obtain ⟨C₁, n, hrun₁, hr, -⟩ := @exists_rangesFollow C kind fields s hC hs
    obtain ⟨final', hfinal', hsame⟩ :=
      @exists_run _ kind fields submits (hr.unwritten s.presents) hrest
    have hstep : onSubmit kind fields C s = some (C₁.onSubmitEnd s.presents) := by
      rw [onSubmit, hrun₁]
      rfl
    obtain rfl : final' = final :=
      Option.some.inj (((Monitor.run_cons_of hstep).trans hfinal').symm.trans hrun)
    refine iff_of_false ?_ (List.cons_ne_nil _ _)
    rintro ⟨C₂, hrun₂, hright, -⟩
    obtain rfl : C₂ = C₁ := Option.some.inj (hrun₂.symm.trans hrun₁)
    refine not_written_submit hr (hsame _ ?_).2 hright.submit.1
    rw [onSubmitEnd, List.length_append]
    exact Nat.lt_add_right _ hr.events.submit

/-- **The ranges of a capture.** Whatever the packets are, the start nodes are never popped off an
empty stack; but what is read of a submit node is never all set. Apart from that, after the submits
every event, pass and IB selects exactly the packets that are executed while it is open, and all
that is read is set, exactly when no submit chains to an IB, starts a pass, starts an IB that runs no
packet or is followed by a present. -/
theorem capture_rangesRight_iff (kind : ℕ → PacketKind) (fields : ℕ → ℕ)
    (submits : List SubmitTrace) (h : ∀ s ∈ submits, s.Accepted) :
    ∃ final, Monitor.run (onSubmit kind fields) {} submits = some final ∧
      (Each kind fields (fun base C s => RangesRight kind fields base C final s.trace s.presents) {}
        submits ↔ submits = []) ∧
      (Each kind fields (fun base C s => NodesRight kind fields base C final s.trace s.presents) {}
        submits ↔
      Each kind fields (fun base C s => Closes kind fields base C s.trace s.presents) {}
        submits) := by
  have hC : RangeCreator.Unwritten {} := fun _ _ => ⟨rfl, rfl⟩
  obtain ⟨final, hfinal, hiff⟩ := @each_nodesRight_iff _ kind fields submits hC h
  exact ⟨final, hfinal, each_rangesRight_iff hC h hfinal, hiff⟩

/-! ### A render marker -/

/-- A marker that starts a pass, and a draw. -/
def passEmulation : Emulation := Emulation.accepting [
  .ofDwords 0x1000 [0x70e50001, 1, 0x70a48000]]

def passTrace : List Event := [
  .ibStart ⟨.kNormal, 0x1000, 3, false, 7⟩ 0 ⟨0x1000, 3, 1, 7, false⟩ .kNormal,
  .packet 0 0x1000 ⟨0x70e50001⟩, .packet 0 0x1008 ⟨0x70a48000⟩,
  .ibEnd 0 ⟨0x1000, 3, 0, 0, false⟩]

theorem passTrace_succeeds :
    passEmulation.Succeeds [{ vaAddr := 0x1000, sizeInDwords := 3 }] passTrace :=
  Emulation.succeeds_of_successTrace (n := 7) (by rfl)

/-- The marker is packet 3, and the draw is packet 5. -/
def passKind (packetNodeIndex : ℕ) : PacketKind :=
  if packetNodeIndex = 3 then .pass else if packetNodeIndex = 5 then .event else .other

/-- **The last render marker of a submit is not closed.** -/
theorem lastPass_not_closed : SubmitTrace.Accepted ⟨0, passTrace, 0⟩ ∧
    ∃ final, Monitor.run (onSubmit passKind fun _ => 0) {} [⟨0, passTrace, 0⟩] = some final ∧
      ¬ Each passKind (fun _ => 0)
        (fun base C s => RangesRight passKind (fun _ => 0) base C final s.trace s.presents) {}
          [⟨0, passTrace, 0⟩] := by
  refine ⟨.inr ⟨_, _, passTrace_succeeds⟩, _, rfl, ?_⟩
  rintro ⟨C, hC, hright, -⟩
  cases hC
  obtain ⟨start, stop, hrange, -⟩ := hright.pass 3 ⟨by decide, rfl⟩ rfl
  exact absurd hrange nofun

/-- Without the marker, the draw is packet 3. -/
def drawTrace : List Event := [
  .ibStart ⟨.kNormal, 0x1000, 1, false, 7⟩ 0 ⟨0x1000, 1, 1, 7, false⟩ .kNormal,
  .packet 0 0x1000 ⟨0x70a48000⟩, .ibEnd 0 ⟨0x1000, 1, 0, 0, false⟩]

theorem drawTrace_succeeds : (Emulation.accepting [.ofDwords 0x1000 [0x70a48000]]).Succeeds
    [{ vaAddr := 0x1000, sizeInDwords := 1 }] drawTrace :=
  Emulation.succeeds_of_successTrace (n := 5) (by rfl)

def drawKind (packetNodeIndex : ℕ) : PacketKind :=
  if packetNodeIndex = 3 then .event else .other

theorem drawKind_ne_pass (p : ℕ) : drawKind p ≠ .pass := by
  rw [drawKind]
  split_ifs <;> nofun

theorem capture_rangesRight_draw :
    ∃ final, Monitor.run (onSubmit drawKind fun _ => 0) {} [⟨0, drawTrace, 0⟩] = some final ∧
      Each drawKind (fun _ => 0)
        (fun base C s => NodesRight drawKind (fun _ => 0) base C final s.trace s.presents) {}
          [⟨0, drawTrace, 0⟩] ∧
      ¬ Each drawKind (fun _ => 0)
        (fun base C s => RangesRight drawKind (fun _ => 0) base C final s.trace s.presents) {}
          [⟨0, drawTrace, 0⟩] := by
  obtain ⟨final, hfinal, hall, hiff⟩ := capture_rangesRight_iff drawKind (fun _ => 0)
    [⟨0, drawTrace, 0⟩]
    (List.forall_mem_singleton.mpr (.inr ⟨_, _, drawTrace_succeeds⟩))
  refine ⟨final, hfinal, hiff.mpr ⟨_, rfl, ⟨by decide, fun p _ => drawKind_ne_pass p,
    fun k hk => ?_, rfl⟩, trivial⟩, fun hright => List.cons_ne_nil _ _ (hall.mp hright)⟩
  have hk : k < 1 := hk
  obtain rfl : k = 0 := by omega
  exact ⟨3, [_], 0, 0x1000, ⟨0x70a48000⟩, [_], _, _, rfl, by decide, rfl, rfl, rfl,
    List.mem_singleton_self _⟩

end Capture

end RangeCreator

end Dive
