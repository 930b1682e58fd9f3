import Mathlib.Data.List.Forall2
import Mathlib.Data.List.Sort
import Mathlib.Data.List.TakeWhile
import Dive.Hierarchy.SubmitRanges
import Dive.Pm4.Order

/-!
# The order of the children of a submit

* `NarrowSort.restores_iff`: sorting by an index that is cut to `w` values restores the order of a
  list exactly when it has at most `w` elements.
* `SortedChildren`: what the sort of `OnSubmitEnd` may leave.
* `ownStart_of_succeeds`: the IBs of the submit are those that start while no IB is open.
* `ChildrenFollow`: the children of the submit are its IBs up to the first chained one.
* **`childrenInOrder_iff`**: they end up in order exactly when there are at most 64 of them.
-/

namespace Dive

/-! ## Sorting by a narrow index -/

namespace NarrowSort

variable {α : Type*} {l l' : List α} {key : α → ℕ} {w : ℕ}

theorem eq_of_perm (hl : l.Pairwise fun a b => key a < key b) (hp : l'.Perm l)
    (hl' : l'.Pairwise fun a b => key a ≤ key b) : l' = l := by
  refine List.Perm.eq_of_pairwise (fun a b ha hb hab hba => ?_) hl' (hl.imp le_of_lt) hp
  have hinj : (l.map key).Nodup :=
    List.pairwise_map.mpr (hl.imp fun hlt => hlt.ne)
  exact List.inj_on_of_nodup_map hinj (hp.mem_iff.mp ha) hb (le_antisymm hab hba)

/-- **Sorting by the position modulo `w`.** -/
theorem restores_iff (hw : 2 ≤ w) (hkey : ∀ k a, l[k]? = some a → key a = k % w) :
    (∀ l', l'.Perm l → (l'.Pairwise fun a b => key a ≤ key b) → l' = l) ↔ l.length ≤ w := by
  constructor
  · intro h
    by_contra hlt
    -- the second element precedes the one at position `w`
    have hsorted : l.Pairwise fun a b => key a ≤ key b := by
      have hsort : (l.mergeSort fun a b => decide (key a ≤ key b)).Pairwise
          fun a b => key a ≤ key b := by
        refine (List.pairwise_mergeSort (fun a b c hab hbc => ?_) (fun a b => ?_) l).imp
          fun hab => of_decide_eq_true hab
        · exact decide_eq_true ((of_decide_eq_true hab).trans (of_decide_eq_true hbc))
        · rw [Bool.or_eq_true, decide_eq_true_eq, decide_eq_true_eq]
          exact le_total _ _
      rw [← h _ (List.mergeSort_perm l _) hsort]
      exact hsort
    have hle := List.pairwise_iff_getElem.mp hsorted 1 w (by omega) (by omega) (by omega)
    rw [hkey 1 _ (List.getElem?_eq_getElem (by omega)),
      hkey w _ (List.getElem?_eq_getElem (by omega)), Nat.mod_self, Nat.mod_eq_of_lt hw] at hle
    omega
  · intro hlen l' hp hl'
    refine eq_of_perm (List.pairwise_iff_getElem.mpr fun i j hi hj hij => ?_) hp hl'
    rw [hkey i _ (List.getElem?_eq_getElem hi), hkey j _ (List.getElem?_eq_getElem hj),
      Nat.mod_eq_of_lt (by omega), Nat.mod_eq_of_lt (by omega)]
    exact hij

end NarrowSort

/-! ## The IBs of the submit -/

/-- The entry and the index of an IB that starts. -/
def Event.start : Event → Option (QueuedIb × ℕ)
  | .ibStart q ibIndex _ _ => some (q, ibIndex)
  | _ => none

/-- An IB is one of the submit exactly if it starts while none is open. -/
def OwnStart (n : Nesting) (e : Event) : Prop := e.submitStart = none ↔ n.opened ≠ []

namespace Emulation

variable {E : Emulation} {ibs : List IndirectBufferInfo} {t : List Event} {ibIndex level : ℕ}
  {w : Work} {qs : List QueuedIb}

/-- The calls of the work start no IB of the submit, and come while one is open. -/
def Work.Inside (ibIndex level : ℕ) : Work → List Event → Prop
  | .body ib _, t => ∀ k o os fresh, OpenIb.IsAt o ibIndex level ib →
      Monitor.Meets (nest true) OwnStart ⟨k, o :: os, fresh⟩ t
  | .after ib refs _, t => ∀ k o os fresh, OpenIb.IsAt o ibIndex level ib →
      (nonEmpty refs ≠ [] → fresh = false) →
      Monitor.Meets (nest true) OwnStart ⟨k, o :: os, fresh⟩ t
  | .ibs qs, t => (∀ q ∈ qs, q.ibType ≠ .kNormal ∧ q.ibType ≠ .kChain) →
      ∀ n : Nesting, n.opened ≠ [] → (qs ≠ [] → n.fresh = false) →
        Monitor.Meets (nest true) OwnStart n t

theorem ownStart_inside {n : Nesting} {e : Event} (he : e.submitStart = none)
    (hn : n.opened ≠ []) : OwnStart n e := iff_of_true he hn

theorem inside_of_runs (h : Runs E ibIndex level w t) : w.Inside ibIndex level t := by
  induction h with
  | @ended level ib va hend =>
    intro k o os fresh ho
    rw [Monitor.meets_cons (nest_end ho)]
    exact ⟨ownStart_inside rfl (List.cons_ne_nil _ _), trivial⟩
  | packet hin hp h ih =>
    intro k o os fresh ho
    rw [Monitor.meets_cons (nest_packet ho)]
    refine ⟨ownStart_inside rfl (List.cons_ne_nil _ _), ih k o os _ ho fun hne => ?_⟩
    rw [hp.isCommand hne, Bool.not_true, Bool.and_false]
  | called hc h h' ih ih' =>
    intro k o os fresh ho hf
    obtain ⟨k₁, fresh₁, h₁⟩ := closes_of_runs h (fun q hq => (hc q hq).2) ⟨k, o :: os, fresh⟩
      fun hne _ => hf hne
    rw [Monitor.meets_append h₁]
    exact ⟨ih hc _ (List.cons_ne_nil _ _) hf, ih' k₁ o os fresh₁ ho⟩
  | @chained level ib next refs q t hq hc hend h ih =>
    intro k o os fresh ho hf
    obtain rfl := hf (by rw [hq]; exact List.cons_ne_nil _ _)
    have hn : q.ibType ≠ .kNormal := fun hn => IbType.noConfusion (hc.symm.trans hn)
    rw [Monitor.meets_cons (nest_chain ho hc)]
    exact ⟨ownStart_inside (submitStart_enterEvent.trans (if_neg hn)) (List.cons_ne_nil _ _),
      ih _ _ os _ entered_isAt⟩
  | nil => exact fun _ n _ _ => trivial
  | @cons level q qs t t' h h' ih ih' =>
    intro hqs n hn hf
    have hfresh := hf (List.cons_ne_nil _ _)
    have hq := hqs q List.mem_cons_self
    obtain ⟨k₁, h₁⟩ := closes_of_runs h (n.started + 1)
      (entered E q ibIndex level q.ibType n.started) n.opened true entered_isAt
    rw [List.cons_append, Monitor.meets_cons (nest_enter hq.2 fun _ => hfresh),
      Monitor.meets_append h₁]
    exact ⟨ownStart_inside (submitStart_enterEvent.trans (if_neg hq.1)) hn,
      ih _ _ _ _ entered_isAt,
      ih' (fun q' h => hqs q' (List.mem_cons_of_mem q h)) ⟨k₁, n.opened, false⟩ hn fun _ => rfl⟩

theorem ownStart_of_submitRuns (h : SubmitRuns E ibIndex qs t)
    (hqs : ∀ q ∈ qs, q.ibType = .kNormal) :
    ∀ k fresh, Monitor.Meets (nest true) OwnStart ⟨k, [], fresh⟩ t := by
  induction h with
  | nil => exact fun _ _ => trivial
  | @cons ibIndex q qs t t' h h' ih =>
    intro k fresh
    have hq := hqs q List.mem_cons_self
    have hne : q.ibType ≠ .kChain := fun hc => IbType.noConfusion (hq.symm.trans hc)
    obtain ⟨k₁, h₁⟩ := closes_of_runs h (k + 1) (entered E q ibIndex 1 q.ibType k) [] true
      entered_isAt
    have henter : nest true ⟨k, [], fresh⟩ (enterEvent q ibIndex 1 (E.enteredIb q q.ibType)) =
        some ⟨k + 1, [entered E q ibIndex 1 q.ibType k], true⟩ :=
      nest_enter hne fun hne => absurd rfl hne
    rw [List.cons_append, Monitor.meets_cons henter, Monitor.meets_append h₁]
    refine ⟨iff_of_false ?_ fun hne => hne rfl, inside_of_runs h _ _ _ _ entered_isAt,
      ih (fun q' h => hqs q' (List.mem_cons_of_mem q h)) k₁ false⟩
    rw [submitStart_enterEvent, if_pos hq]
    exact Option.some_ne_none _

/-- **The IBs of a submit start while no IB is open**, and all others while one is. -/
theorem ownStart_of_succeeds (h : E.Succeeds ibs t) :
    Monitor.Meets (nest true) OwnStart {} t := by
  refine ownStart_of_submitRuns (submitRuns_of_succeeds h) (fun q hq => ?_) 0 true
  obtain ⟨info, -, rfl⟩ := List.mem_map.mp (mem_nonEmpty.mp hq).1
  rfl

end Emulation

namespace RangeCreator

variable {kind : ℕ → PacketKind} {fields : ℕ → ℕ} {base C C' : RangeCreator} {n n' : Nesting}
  {t : List Event} {e : Event}

/-! ## The sort -/

/-- `GetIbNodeIndex`. -/
def ibNodeIndex (nodes : List Node) (i : ℕ) : ℕ :=
  match nodes[i]? with
  | some (.ib ibIndex _ _ _) => ibIndex
  | _ => 0

/-- The children of the submit node in the submit topology, in the order of `AddChild`. -/
def submitChildren (C : RangeCreator) : List ℕ :=
  (C.ibChildren.filter fun p => p.1 = C.curSubmitNodeIndex).map Prod.snd

/-- What the `std::sort` of `OnSubmitEnd` may leave of the children. -/
structure SortedChildren (C : RangeCreator) (children : List ℕ) : Prop where
  perm : children.Perm C.submitChildren
  sorted : children.Pairwise fun i j => ibNodeIndex C.nodes i ≤ ibNodeIndex C.nodes j

/-- The positions, in the list of a submit, of the IBs that are queued. -/
def positions (ibs : List IndirectBufferInfo) : List ℕ :=
  (ibs.zipIdx.filter fun p => p.1.sizeInDwords ≠ 0).map Prod.snd

/-- The IBs that have started, each with its node. -/
def started (base C : RangeCreator) (t : List Event) : List (ℕ × (QueuedIb × ℕ)) :=
  (startedNodes base C).zip (t.filterMap Event.start)

/-- The node is that of the IB at the position of the submit's list. -/
def IsIbAt (ibs : List IndirectBufferInfo) (base C : RangeCreator) (t : List Event)
    (node position : ℕ) : Prop :=
  ∃ q ibIndex, (node, (q, ibIndex)) ∈ started base C t ∧ q.ibType = .kNormal ∧
    (positions ibs)[ibIndex]? = some position

/-- The nodes are those of IBs of the submit, in the order of their positions. -/
def InOrder (ibs : List IndirectBufferInfo) (base C : RangeCreator) (t : List Event)
    (children : List ℕ) : Prop :=
  (∀ node ∈ children, ∃ position, IsIbAt ibs base C t node position) ∧
    children.Pairwise fun i j => ∃ position position', IsIbAt ibs base C t i position ∧
      IsIbAt ibs base C t j position' ∧ position < position'

/-- The IBs of the submit that start before one is chained to. -/
def headStarts (t : List Event) : List (QueuedIb × ℕ) :=
  (t.takeWhile fun e => !e.startsChain).filterMap Event.submitStart

/-! ## The children as they are added -/

theorem headStarts_concat (t : List Event) (e : Event) : headStarts (t ++ [e]) =
    headStarts t ++ if t.countP Event.startsChain = 0 then e.submitStart.toList else [] := by
  have hchain : e.startsChain = true → e.submitStart = none := by
    intro he
    cases e with
    | ibStart q ibIndex info ibType =>
      have hq : q.ibType = .kChain := of_decide_eq_true he
      exact if_neg fun hn => IbType.noConfusion (hq.symm.trans hn)
    | ibEnd => rfl
    | packet => rfl
  rw [headStarts, headStarts, List.takeWhile_append]
  by_cases ht : t.countP Event.startsChain = 0
  · have hall : t.takeWhile (fun e => !e.startsChain) = t := by
      rw [List.takeWhile_eq_self_iff]
      simpa using List.countP_eq_zero.mp ht
    rw [hall, if_pos rfl, if_pos ht, List.filterMap_append]
    cases he : e.startsChain with
    | true => simp [he, hchain he]
    | false => cases hs : e.submitStart <;> simp [he, hs]
  · rw [if_neg ht, if_neg, List.append_nil]
    intro hlen
    have hall := List.takeWhile_eq_self_iff.mp
      ((List.takeWhile_prefix fun e : Event => !e.startsChain).eq_of_length hlen)
    exact ht (List.countP_eq_zero.mpr fun e he => by simpa using hall e he)

theorem ibNodeIndex_append {nodes nodes' : List Node} {i : ℕ} (hi : i < nodes.length) :
    ibNodeIndex (nodes ++ nodes') i = ibNodeIndex nodes i := by
  rw [ibNodeIndex, ibNodeIndex, List.getElem?_append_left hi]

/-- The parents of the IB nodes are nodes. -/
def ParentsInside (C : RangeCreator) : Prop := ∀ p ∈ C.ibChildren, p.1 < C.nodes.length

/-- The nodes of the IBs after some calls, and the children of the submit among them. -/
structure ChildrenFollow (base C : RangeCreator) (t : List Event) : Prop where
  nodes : List.Forall₂ (fun node (s : QueuedIb × ℕ) =>
    ibNodeIndex C.nodes node = s.2 % 2 ^ kMaxNumIbsBits) (startedNodes base C)
      (t.filterMap Event.start)
  children : List.Forall₂ (fun node s => (node, s) ∈ started base C t) C.submitChildren
    (headStarts t)
  parents : C.ParentsInside

theorem ChildrenFollow.congr (hC : ChildrenFollow base C t) (hs : StacksFollow base C n t)
    (he : e.start = none) {nodes : List Node} (hnodes : C'.nodes = C.nodes ++ nodes)
    (hsubmit : C'.curSubmitNodeIndex = C.curSubmitNodeIndex)
    (hibs : C'.ibChildren = C.ibChildren) : ChildrenFollow base C' (t ++ [e]) := by
  have hstarts : (t ++ [e]).filterMap Event.start = t.filterMap Event.start := by
    rw [List.filterMap_append, List.filterMap_cons_none he, List.filterMap_nil, List.append_nil]
  have hsame : startedNodes base C' = startedNodes base C := by
    rw [startedNodes, hibs, startedNodes]
  have hsub : e.submitStart = none := by
    cases e with
    | ibStart => cases he
    | ibEnd => rfl
    | packet => rfl
  have hhead : headStarts (t ++ [e]) = headStarts t := by
    rw [headStarts_concat, hsub, Option.toList_none, ite_self, List.append_nil]
  refine ⟨?_, ?_, fun p hp => ?_⟩
  · rw [hstarts, hsame]
    refine ((List.forall₂_and_left _ _).mpr ⟨fun node hnode =>
      (hs.started node hnode).2, hC.nodes⟩).imp fun node s h => ?_
    rw [hnodes, ibNodeIndex_append h.1]
    exact h.2
  · rw [hhead, submitChildren, hibs, hsubmit, started, hstarts, hsame]
    exact hC.children
  · rw [hnodes, List.length_append]
    exact (hC.parents p (hibs ▸ hp)).trans_le (Nat.le_add_right _ _)

/-- **The start of an IB** adds a child of the submit exactly if it is one of the submit's and none
has been chained to. -/
theorem ChildrenFollow.start (hC : ChildrenFollow base C t) (hs : StacksFollow base C n t)
    (hlt : C.curSubmitNodeIndex < C.nodes.length)
    {q : QueuedIb} {ibIndex : ℕ} {info : IndirectBufferInfo} {ibType : IbType}
    (hne : ibType ≠ .kChain) (hown : OwnStart n (.ibStart q ibIndex info ibType)) :
    ChildrenFollow base (C.onIbStart ibIndex info ibType)
      (t ++ [.ibStart q ibIndex info ibType]) := by
  generalize hfields : (if ibType = .kBinPrefix ∨ ibType = .kBinCommon ∨
    ibType = .kFixedStrideDrawTable then [Node.other] else []) = field
  have hC' : C.onIbStart ibIndex info ibType = { C with
      nodes := C.nodes ++ field ++
        [.ib (ibIndex % 2 ^ kMaxNumIbsBits) ibType info.sizeInDwords !info.skip]
      ibChildren := C.ibChildren ++ [(C.ibParent ibType, (C.nodes ++ field).length)]
      ibStack := (C.nodes ++ field).length :: C.ibStack
      newIbStart := true } := by
    rw [RangeCreator.onIbStart, CommandHierarchyCreator.onIbStart, hfields]
  have hnew : startedNodes base (C.onIbStart ibIndex info ibType) =
      startedNodes base C ++ [(C.nodes ++ field).length] :=
    startedNodes_append hs.children (by rw [hC'])
  have hstarts : (t ++ [Event.ibStart q ibIndex info ibType]).filterMap Event.start =
      t.filterMap Event.start ++ [(q, ibIndex)] := List.filterMap_append
  have hstarted : started base (C.onIbStart ibIndex info ibType)
      (t ++ [.ibStart q ibIndex info ibType]) =
        started base C t ++ [((C.nodes ++ field).length, (q, ibIndex))] := by
    rw [started, hnew, hstarts, List.zip_append hC.nodes.length_eq]
    rfl
  -- the IB hangs below the submit exactly if it has a head start
  have hparent : (C.ibParent ibType = C.curSubmitNodeIndex) ↔ C.ibStack = [] := by
    rw [CommandHierarchyCreator.ibParent, if_neg fun h => hne h.2]
    cases hstack : C.ibStack with
    | nil => exact iff_of_true rfl rfl
    | cons node nodes =>
      refine iff_of_false (fun heq => ?_) (List.cons_ne_nil _ _)
      have hlt := (hs.started node (hs.stack node (hstack ▸ List.mem_cons_self)).1).1
      rw [← hs.submit] at hlt
      exact hlt.ne' heq
  have hempty : C.ibStack = [] ↔ n.opened = [] ∧ t.countP Event.startsChain = 0 := by
    rw [← List.length_eq_zero_iff, hs.length, Nat.add_eq_zero_iff, List.length_eq_zero_iff]
  have hadd : (C.onIbStart ibIndex info ibType).submitChildren = C.submitChildren ++
      if C.ibStack = [] then [(C.nodes ++ field).length] else [] := by
    rw [submitChildren, hC']
    dsimp only
    rw [List.filter_append, List.map_append, ← submitChildren, List.filter_cons, List.filter_nil]
    simp only [decide_eq_true_eq, hparent]
    split_ifs <;> rfl
  refine ⟨?_, ?_, fun p hp => ?_⟩
  · rw [hnew, hstarts]
    refine List.rel_append (((List.forall₂_and_left _ _).mpr
      ⟨fun node hnode => (hs.started node hnode).2, hC.nodes⟩).imp fun node s h => ?_)
        (List.Forall₂.cons ?_ .nil)
    · rw [hC']
      dsimp only
      rw [List.append_assoc, ibNodeIndex_append h.1]
      exact h.2
    · rw [hC', ibNodeIndex]
      dsimp only
      rw [List.getElem?_concat_length]
  · rw [hadd, hstarted, headStarts_concat]
    refine List.rel_append (hC.children.imp fun node s h => List.mem_append_left _ h) ?_
    by_cases hchain : t.countP Event.startsChain = 0
    · rw [if_pos hchain]
      cases hsub : (Event.ibStart q ibIndex info ibType).submitStart with
      | none =>
        rw [if_neg fun hstack => hown.mp hsub (hempty.mp hstack).1]
        exact .nil
      | some s =>
        have hopen : n.opened = [] := by
          by_contra hopen
          rw [hown.mpr hopen] at hsub
          cases hsub
        rw [if_pos (hempty.mpr ⟨hopen, hchain⟩)]
        rw [Event.submitStart] at hsub
        split_ifs at hsub
        cases hsub
        exact .cons (List.mem_append_right _ (List.mem_singleton_self _)) .nil
    · rw [if_neg hchain, if_neg fun hstack => hchain (hempty.mp hstack).2]
      exact .nil
  · have hle : C.nodes.length ≤ (C.onIbStart ibIndex info ibType).nodes.length := by
      rw [hC']
      simp
    rw [hC'] at hp
    rcases List.mem_append.mp hp with hp | hp
    · exact (hC.parents p hp).trans_le hle
    · rw [List.mem_singleton.mp hp]
      refine lt_of_lt_of_le ?_ hle
      by_cases hstack : C.ibStack = []
      · rw [hparent.mpr hstack]
        exact hlt
      · obtain ⟨node, nodes, hcons⟩ := List.exists_cons_of_ne_nil hstack
        rw [CommandHierarchyCreator.ibParent, if_neg fun h => hne h.2, hcons, List.headD_cons]
        exact (hs.started node (hs.stack node (hcons ▸ List.mem_cons_self)).1).2

theorem ChildrenFollow.step (hC : ChildrenFollow base C t)
    (hr : RangesFollow kind fields base C n t) (hn : Nests n e n') (hp : e.PassesOn)
    (hown : OwnStart n e) (hC' : C.onEvent kind fields e = some C') :
    ChildrenFollow base C' (t ++ [e]) := by
  cases e with
  | ibStart q ibIndex info ibType =>
    cases hC'
    exact hC.start hr.ibStacks hr.events.submit hp.2.2 hown
  | ibEnd ibIndex info =>
    obtain ⟨C'', node, nodes, hend, -, -, hsame, -⟩ := hr.ibStacks.close hn
    obtain rfl : C'' = C' := Option.some.inj (hend.symm.trans hC')
    have hnodes : C''.nodes = C.nodes ++ [] := by rw [hsame, List.append_nil]
    exact hC.congr hr.ibStacks rfl hnodes (by rw [hsame]) (by rw [hsame])
  | packet ibIndex va h =>
    cases hh : h.isCommand with
    | true =>
      obtain ⟨C'', hpacket, -, hframe⟩ := hr.events.packet hh
      obtain rfl : C'' = C' := Option.some.inj (hpacket.symm.trans hC')
      have hto := hframe.creator.trans (creator_addPacket hh)
      exact hC.congr hr.ibStacks rfl (congrArg CommandHierarchyCreator.nodes hto) (by rw [hto])
        (by rw [hto])
    | false =>
      have hcmd : h.type ≠ 4 ∧ h.type ≠ 7 := by
        simpa [Pm4Header.isCommand] using hh
      obtain rfl : C = C' := Option.some.inj ((if_pos hcmd).symm.trans hC')
      exact hC.congr hr.ibStacks rfl (List.append_nil _).symm rfl rfl

/-- **The children of a submit** after its calls. -/
theorem childrenFollow_run (hbase : RangesFollow kind fields base base {} [])
    (hchildren : ChildrenFollow base base []) : Monitor.run (nest true) {} t = some n →
      (∀ e ∈ t, e.PassesOn) → Monitor.Meets (nest true) OwnStart {} t →
        ∃ C, Monitor.run (onEvent kind fields) base t = some C ∧
          RangesFollow kind fields base C n t ∧ ChildrenFollow base C t := by
  induction t using List.reverseRecOn generalizing n with
  | nil =>
    intro hn _ _
    cases hn
    exact ⟨base, rfl, hbase, hchildren⟩
  | append_singleton t e ih =>
    intro hn hp hown
    obtain ⟨n₁, n₂, hn₁, hstep, hn₂⟩ := Monitor.run_split hn
    cases hn₂
    rw [Monitor.meets_append hn₁] at hown
    obtain ⟨C, hrun, hr, hC⟩ := ih hn₁ (fun e' he' => hp e' (List.mem_append_left _ he')) hown.1
    have he := hp e (List.mem_append_right _ (List.mem_singleton_self e))
    obtain ⟨C', hC', hr'⟩ := hr.step hrun hn₁ (nests_of_nest hstep) he
    exact ⟨C', (Monitor.run_append_of hrun).trans (Monitor.run_cons_of hC'), hr',
      hC.step hr (nests_of_nest hstep) he hown.2.1 hC'⟩

theorem childrenFollow_onSubmitStart (hC : C.ParentsInside) (submitIndex : ℕ) :
    ChildrenFollow (C.onSubmitStart submitIndex) (C.onSubmitStart submitIndex) [] := by
  have hnodes : startedNodes (C.onSubmitStart submitIndex) (C.onSubmitStart submitIndex) = [] := by
    rw [startedNodes, List.drop_length]
    rfl
  have hnone : (C.onSubmitStart submitIndex).submitChildren = [] := by
    rw [submitChildren, List.map_eq_nil_iff, List.filter_eq_nil_iff]
    exact fun p hp heq => absurd (hC p hp) ((of_decide_eq_true heq).ge.not_gt)
  refine ⟨?_, ?_, fun p hp => ?_⟩
  · rw [hnodes]
    exact .nil
  · rw [hnone]
    exact .nil
  · refine (hC p hp).trans_le ?_
    show C.nodes.length ≤ (C.nodes ++ [Node.submit submitIndex]).length
    simp

/-! ## The submits of a capture -/

theorem SubmitTrace.Accepted.ownStart {s : SubmitTrace} (h : s.Accepted) :
    Monitor.Meets (nest true) OwnStart {} s.trace := by
  rcases h with h | ⟨E, ibs, h⟩
  · rw [h]
    trivial
  · exact Emulation.ownStart_of_succeeds h

theorem exists_childrenFollow {s : SubmitTrace} (hC : C.Unwritten) (hparents : C.ParentsInside)
    (h : s.Accepted) : ∃ C₁ n,
      Monitor.run (onEvent kind fields) (C.onSubmitStart s.submitIndex) s.trace = some C₁ ∧
        RangesFollow kind fields (C.onSubmitStart s.submitIndex) C₁ n s.trace ∧
          ChildrenFollow (C.onSubmitStart s.submitIndex) C₁ s.trace := by
  obtain ⟨⟨n, hn, -⟩, hp⟩ := h.closes
  obtain ⟨C₁, hrun, hr, hchildren⟩ := childrenFollow_run
    (@rangesFollow_onSubmitStart kind fields C hC s.submitIndex)
    (childrenFollow_onSubmitStart hparents s.submitIndex) hn hp h.ownStart
  exact ⟨C₁, n, hrun, hr, hchildren⟩

theorem exists_ready {submits : List SubmitTrace} (hC : C.Unwritten) (hparents : C.ParentsInside)
    (h : ∀ s ∈ submits, s.Accepted) : ∃ C₁, Monitor.run (onSubmit kind fields) C submits = some C₁ ∧
      C₁.Unwritten ∧ C₁.ParentsInside := by
  induction submits generalizing C with
  | nil => exact ⟨C, rfl, hC, hparents⟩
  | cons s submits ih =>
    obtain ⟨hs, hrest⟩ := List.forall_mem_cons.mp h
    obtain ⟨C₁, n, hrun, hr, hchildren⟩ :=
      @exists_childrenFollow kind fields C s hC hparents hs
    have hstep : onSubmit kind fields C s = some (C₁.onSubmitEnd s.presents) := by
      rw [onSubmit, hrun]
      rfl
    rw [Monitor.run_cons_of hstep]
    refine ih (hr.unwritten s.presents) (fun p hp => ?_) hrest
    refine (hchildren.parents p hp).trans_le ?_
    rw [onSubmitEnd]
    simp

/-! ## The order -/

section Order

variable {E : Emulation} {ibs : List IndirectBufferInfo}

/-- The children of the submit node end up in the order of the submit's list, whatever the sort
leaves. -/
def ChildrenInOrder (ibs : List IndirectBufferInfo) (base C : RangeCreator) (t : List Event) :
    Prop :=
  ∀ children, C.SortedChildren children → InOrder ibs base C t children

theorem positions_increasing (ibs : List IndirectBufferInfo) :
    (positions ibs).Pairwise fun i j => i < j := by
  have hsub : (positions ibs).Sublist (ibs.zipIdx.map Prod.snd) :=
    List.filter_sublist.map Prod.snd
  rw [List.zipIdx_map_snd] at hsub
  exact List.Pairwise.sublist hsub List.pairwise_lt_range'

theorem length_positions (ibs : List IndirectBufferInfo) :
    (positions ibs).length = (nonEmpty (ibs.map (·.queued))).length := by
  have hfst : ibs.zipIdx.map Prod.fst = ibs := List.zipIdx_map_fst 0 ibs
  rw [positions, nonEmpty, List.length_map, ← List.countP_eq_length_filter,
    ← List.countP_eq_length_filter, List.countP_map]
  conv_rhs => rw [← hfst, List.countP_map]
  rfl

theorem headStarts_getElem (h : E.Succeeds ibs t) {k : ℕ} {s : QueuedIb × ℕ}
    (hk : (headStarts t)[k]? = some s) : s.2 = k ∧ s.1.ibType = .kNormal ∧
      ∃ position, (positions ibs)[k]? = some position := by
  obtain ⟨rest, hrest⟩ := (List.takeWhile_prefix fun e : Event => !e.startsChain).filterMap
    Event.submitStart
  have hlt : k < (headStarts t).length := (List.getElem?_eq_some_iff.mp hk).1
  have hget : (t.filterMap Event.submitStart)[k]? = some s := by
    rw [← hrest]
    exact (List.getElem?_append_left hlt).trans hk
  have hstarts := Emulation.submitStarts_of_submitRuns (Emulation.submitRuns_of_succeeds h)
    fun q hq => by
      obtain ⟨info, -, rfl⟩ := List.mem_map.mp (Emulation.mem_nonEmpty.mp hq).1
      rfl
  rw [hstarts, List.getElem?_zipIdx, Nat.zero_add] at hget
  obtain ⟨q, hq, rfl⟩ := Option.map_eq_some_iff.mp hget
  refine ⟨rfl, ?_, _, List.getElem?_eq_getElem ?_⟩
  · obtain ⟨info, -, rfl⟩ := List.mem_map.mp (Emulation.mem_nonEmpty.mp (List.mem_of_getElem? hq)).1
    rfl
  · rw [length_positions]
    exact (List.getElem?_eq_some_iff.mp hq).1

variable (h : E.Succeeds ibs t) (hC : ChildrenFollow base C t) (hs : StacksFollow base C n t)

include hC hs in
theorem ChildrenFollow.unique {node i j : ℕ} (hi : IsIbAt ibs base C t node i)
    (hj : IsIbAt ibs base C t node j) : i = j := by
  obtain ⟨q, k, hmem, -, hk⟩ := hi
  obtain ⟨q', k', hmem', -, hk'⟩ := hj
  have hnodup : ((started base C t).map Prod.fst).Nodup := by
    rw [started, List.map_fst_zip hC.nodes.length_eq.le]
    exact hs.distinct
  have heq := List.inj_on_of_nodup_map hnodup hmem hmem' rfl
  simp only [Prod.mk.injEq, true_and] at heq
  rw [← heq.2, hk] at hk'
  exact Option.some.inj hk'

include h hC in
theorem ChildrenFollow.child {k node : ℕ} (hk : C.submitChildren[k]? = some node) :
    ibNodeIndex C.nodes node = k % 2 ^ kMaxNumIbsBits ∧ ∃ position,
      (positions ibs)[k]? = some position ∧ IsIbAt ibs base C t node position := by
  obtain ⟨hlt, hget⟩ := List.getElem?_eq_some_iff.mp hk
  have hlt' : k < (headStarts t).length := hC.children.length_eq ▸ hlt
  have hmem : (node, (headStarts t)[k]) ∈ started base C t := by
    rw [← hget]
    exact hC.children.get hlt hlt'
  obtain ⟨hindex, htype, position, hpos⟩ := headStarts_getElem h (List.getElem?_eq_getElem hlt')
  refine ⟨?_, position, hpos, (headStarts t)[k].1, (headStarts t)[k].2, hmem, htype, ?_⟩
  · rw [List.forall₂_zip hC.nodes hmem, hindex]
  · rw [hindex]
    exact hpos

include h hC in
theorem ChildrenFollow.inOrder : InOrder ibs base C t C.submitChildren := by
  refine ⟨fun node hnode => ?_, List.pairwise_iff_getElem.mpr fun i j hi hj hij => ?_⟩
  · obtain ⟨k, hk⟩ := List.mem_iff_getElem?.mp hnode
    obtain ⟨-, position, -, hat⟩ := hC.child h hk
    exact ⟨position, hat⟩
  · obtain ⟨-, p, hp, hatp⟩ := hC.child h (List.getElem?_eq_getElem hi)
    obtain ⟨-, p', hp', hatp'⟩ := hC.child h (List.getElem?_eq_getElem hj)
    obtain ⟨hip, hgetp⟩ := List.getElem?_eq_some_iff.mp hp
    obtain ⟨hjp, hgetp'⟩ := List.getElem?_eq_some_iff.mp hp'
    refine ⟨p, p', hatp, hatp', ?_⟩
    rw [← hgetp, ← hgetp']
    exact List.pairwise_iff_getElem.mp (positions_increasing ibs) i j hip hjp hij

include h hC hs in
theorem ChildrenFollow.inOrder_iff {children : List ℕ} (hp : children.Perm C.submitChildren) :
    InOrder ibs base C t children ↔ children = C.submitChildren := by
  constructor
  · intro hin
    refine List.Perm.eq_of_pairwise (fun a b _ _ hab hba => ?_) hin.2 (hC.inOrder h).2 hp
    obtain ⟨i, j, hi, hj, hij⟩ := hab
    obtain ⟨j', i', hj', hi', hji⟩ := hba
    rw [hC.unique hs hi hi', hC.unique hs hj hj'] at hij
    exact absurd hij hji.not_gt
  · rintro rfl
    exact hC.inOrder h

include h hC hs in
theorem ChildrenFollow.childrenInOrder_iff :
    ChildrenInOrder ibs base C t ↔ (headStarts t).length ≤ 2 ^ kMaxNumIbsBits := by
  rw [← hC.children.length_eq, ← NarrowSort.restores_iff (by decide)
    fun k node hk => (hC.child h hk).1]
  constructor
  · exact fun hin l hp hl => (hC.inOrder_iff h hs hp).mp (hin l ⟨hp, hl⟩)
  · exact fun hl l hsort => (hC.inOrder_iff h hs hsort.perm).mpr (hl l hsort.perm hsort.sorted)

end Order

/-- **The order of the children of a submit.** After any submits of a capture and whatever the
packets are, the children of an accepted submit end up in the order of its IBs exactly when at most
64 of these start before a packet chains to an IB. -/
theorem submitChildren_inOrder_iff (kind : ℕ → PacketKind) (fields : ℕ → ℕ)
    (submits : List SubmitTrace) (hsubmits : ∀ s ∈ submits, s.Accepted) {E : Emulation}
    {ibs : List IndirectBufferInfo} {t : List Event} (h : E.Succeeds ibs t) (submitIndex : ℕ) :
    ∃ C C₁, Monitor.run (onSubmit kind fields) {} submits = some C ∧
      Monitor.run (onEvent kind fields) (C.onSubmitStart submitIndex) t = some C₁ ∧
      (ChildrenInOrder ibs (C.onSubmitStart submitIndex) C₁ t ↔
        (headStarts t).length ≤ 2 ^ kMaxNumIbsBits) := by
  obtain ⟨C, hC, hunwritten, hparents⟩ := exists_ready (C := {}) (fun _ _ => ⟨rfl, rfl⟩)
    (fun p hp => absurd hp List.not_mem_nil) hsubmits
  obtain ⟨C₁, n, hrun, hr, hchildren⟩ := @exists_childrenFollow kind fields C ⟨submitIndex, t, 0⟩
    hunwritten hparents (.inr ⟨E, ibs, h⟩)
  exact ⟨C, C₁, hC, hrun, hchildren.childrenInOrder_iff h hr.ibStacks⟩

/-- After a submit with a draw, one with a called IB. -/
theorem submitChildren_inOrder_callTrace : ∃ C C₁,
    Monitor.run (onSubmit drawKind fun _ => 0) {} [⟨0, drawTrace, 0⟩] = some C ∧
    Monitor.run (onEvent drawKind fun _ => 0) (C.onSubmitStart 1) Emulation.callTrace =
      some C₁ ∧
    ChildrenInOrder [{ vaAddr := 0x2000, sizeInDwords := 4 }] (C.onSubmitStart 1) C₁
      Emulation.callTrace := by
  obtain ⟨C, C₁, hC, hrun, hiff⟩ := submitChildren_inOrder_iff drawKind (fun _ => 0)
    [⟨0, drawTrace, 0⟩] (List.forall_mem_singleton.mpr (.inr ⟨_, _, drawTrace_succeeds⟩))
    Emulation.callTrace_succeeds 1
  exact ⟨C, C₁, hC, hrun, hiff.mpr (by decide)⟩

/-! ### More IBs than indices -/

/-- 65 IBs, none of which is captured. -/
def manyIbs : List IndirectBufferInfo := List.replicate 65 { vaAddr := 0x1000, sizeInDwords := 1 }

def manyTrace : List Event := (List.range 65).flatMap fun i => [
  .ibStart ⟨.kNormal, 0x1000, 1, false, 7⟩ i ⟨0x1000, 1, 1, 7, true⟩ .kNormal,
  .ibEnd i ⟨0x1000, 1, 0, 0, true⟩]

theorem manyTrace_succeeds : (Emulation.accepting []).Succeeds manyIbs manyTrace :=
  Emulation.succeeds_of_successTrace (n := 67) (by decide +kernel)

/-- **The 65th IB gets index 0**, and is sorted before the second one. -/
theorem manyIbs_not_inOrder : (Emulation.accepting []).Succeeds manyIbs manyTrace ∧
    ∃ C, Monitor.run (onEvent (fun _ => .other) fun _ => 0) (onSubmitStart {} 0) manyTrace =
      some C ∧ ¬ ChildrenInOrder manyIbs (onSubmitStart {} 0) C manyTrace := by
  obtain ⟨C, n, hrun, hr, hchildren⟩ := @exists_childrenFollow (fun _ => .other) (fun _ => 0) {}
    ⟨0, manyTrace, 0⟩ (fun _ _ => ⟨rfl, rfl⟩) (fun p hp => absurd hp List.not_mem_nil)
    (.inr ⟨_, _, manyTrace_succeeds⟩)
  refine ⟨manyTrace_succeeds, C, hrun, fun hin => ?_⟩
  exact absurd ((hchildren.childrenInOrder_iff manyTrace_succeeds hr.ibStacks).mp hin)
    (by decide +kernel)

end RangeCreator

end Dive
