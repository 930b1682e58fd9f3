import Dive.Lib.Monitor
import Dive.Pm4.Runs

/-!
# IB brackets and enable masks

* `nest`: the IBs that are open after a list of calls; `closes_of_runs`: every IB that starts ends.
* `EmulateStateTracker`: the enable mask and its stack; it follows the open IBs.
* **`brackets_of_succeeds`**: in a successful submit starts and ends are nested, and without
  chained IBs every packet is delivered under the mask of its IB.
-/

namespace Dive

/-! ## Open IBs -/

/-- An IB that has started and not ended; `number` IBs started before it. -/
structure OpenIb where
  number : ℕ
  queued : QueuedIb
  ibIndex : ℕ
  info : IndirectBufferInfo
  deriving DecidableEq

/-- The number of starts so far; the open IBs, innermost first; and whether the innermost one is
`fresh`: no packet of type 4 or 7, and no end, since the last start. -/
structure Nesting where
  started : ℕ := 0
  opened : List OpenIb := []
  fresh : Bool := true
  deriving DecidableEq

/-- The `OnIbEnd` call is for this IB. -/
def OpenIb.EndsWith (o : OpenIb) (ibIndex : ℕ) (info : IndirectBufferInfo) : Prop :=
  o.ibIndex = ibIndex ∧ o.info.vaAddr = info.vaAddr ∧ o.info.sizeInDwords = info.sizeInDwords ∧
    o.info.skip = info.skip ∧ o.info.ibLevel = info.ibLevel + 1

instance (o : OpenIb) (ibIndex : ℕ) (info : IndirectBufferInfo) :
    Decidable (o.EndsWith ibIndex info) := inferInstanceAs (Decidable (_ ∧ _))

/-- The header is of type 4 or 7. -/
def Pm4Header.isCommand (h : Pm4Header) : Bool := h.type = 4 || h.type = 7

/-- The open IBs after a call. A start opens an IB, inside another one only if that is not fresh;
if `chains` is set and the IB is chained to, it takes the place of the innermost one. An end closes
the innermost one, and a packet is one of the innermost one. -/
def nest (chains : Bool) (n : Nesting) : Event → Option Nesting
  | .ibStart q ibIndex info _ =>
    match n.opened with
    | [] => if chains = true ∧ q.ibType = .kChain then none
      else some ⟨n.started + 1, [⟨n.started, q, ibIndex, info⟩], true⟩
    | o :: os =>
      if n.fresh then none
      else if chains = true ∧ q.ibType = .kChain then
        if o.ibIndex = ibIndex ∧ o.info.ibLevel = info.ibLevel then
          some ⟨n.started + 1, ⟨n.started, q, ibIndex, info⟩ :: os, true⟩
        else none
      else some ⟨n.started + 1, ⟨n.started, q, ibIndex, info⟩ :: o :: os, true⟩
  | .ibEnd ibIndex info =>
    match n.opened with
    | [] => none
    | o :: os => if o.EndsWith ibIndex info then some ⟨n.started, os, false⟩ else none
  | .packet ibIndex _ hd =>
    match n.opened with
    | [] => none
    | o :: _ => if o.ibIndex = ibIndex then some { n with fresh := n.fresh && !hd.isCommand } else none

/-- The cases of `nest` with chained IBs. -/
inductive Nests : Nesting → Event → Nesting → Prop
  | start {n : Nesting} {q : QueuedIb} {ibIndex : ℕ} {info : IndirectBufferInfo} {ibType : IbType}
      (hq : q.ibType ≠ .kChain) (hf : n.opened ≠ [] → n.fresh = false) :
      Nests n (.ibStart q ibIndex info ibType)
        ⟨n.started + 1, ⟨n.started, q, ibIndex, info⟩ :: n.opened, true⟩
  | chain {k : ℕ} {o : OpenIb} {os : List OpenIb} {q : QueuedIb} {info : IndirectBufferInfo}
      {ibType : IbType} (hq : q.ibType = .kChain) :
      Nests ⟨k, o :: os, false⟩ (.ibStart q o.ibIndex info ibType)
        ⟨k + 1, ⟨k, q, o.ibIndex, info⟩ :: os, true⟩
  | close {k : ℕ} {o : OpenIb} {os : List OpenIb} {fresh : Bool} {ibIndex : ℕ}
      {info : IndirectBufferInfo} (ho : o.EndsWith ibIndex info) :
      Nests ⟨k, o :: os, fresh⟩ (.ibEnd ibIndex info) ⟨k, os, false⟩
  | packet {k : ℕ} {o : OpenIb} {os : List OpenIb} {fresh : Bool} {va : UInt64} {hd : Pm4Header} :
      Nests ⟨k, o :: os, fresh⟩ (.packet o.ibIndex va hd) ⟨k, o :: os, fresh && !hd.isCommand⟩

theorem nests_of_nest {n n' : Nesting} {e : Event} (h : nest true n e = some n') :
    Nests n e n' := by
  obtain ⟨k, os, fresh⟩ := n
  unfold nest at h
  cases e with
  | ibStart q ibIndex info ibType =>
    cases os with
    | nil =>
      dsimp only at h
      split_ifs at h with hc
      cases h
      exact .start (fun hq => hc ⟨rfl, hq⟩) fun hne => absurd rfl hne
    | cons o os =>
      dsimp only at h
      split_ifs at h with hf hc ho
      · cases h
        obtain ⟨rfl, -⟩ := ho
        rw [Bool.not_eq_true] at hf
        subst hf
        exact .chain hc.2
      · cases h
        exact .start (fun hq => hc ⟨rfl, hq⟩) fun _ => Bool.not_eq_true _ ▸ hf
  | ibEnd ibIndex info =>
    cases os with
    | nil => cases h
    | cons o os =>
      dsimp only at h
      split_ifs at h with ho
      cases h
      exact .close ho
  | packet ibIndex va hd =>
    cases os with
    | nil => cases h
    | cons o os =>
      dsimp only at h
      split_ifs at h with ho
      cases h
      subst ho
      exact .packet

/-- The enable mask of an IB: that of its group for a draw-state IB, otherwise all passes. -/
def QueuedIb.mask (q : QueuedIb) : UInt32 := if q.ibType = .kDrawState then q.enableMask else 7

/-- The open IB is this one, at this level. -/
def OpenIb.IsAt (o : OpenIb) (ibIndex level : ℕ) (ib : CurIb) : Prop :=
  o.ibIndex = ibIndex ∧ o.info.vaAddr = ib.addr ∧ o.info.sizeInDwords = ib.sizeInDwords ∧
    o.info.skip = ib.skip ∧ o.info.ibLevel = level

/-- A start passes on the mask of its entry, and the type of its entry unless it is chained to;
no start passes on `kChain`. -/
def Event.PassesOn : Event → Prop
  | .ibStart q _ info ibType => info.enableMask = q.mask ∧
      (q.ibType ≠ .kChain → ibType = q.ibType) ∧ ibType ≠ .kChain
  | _ => True

/-- The call is the start of a chained IB. -/
def Event.startsChain : Event → Bool
  | .ibStart q _ _ _ => q.ibType = .kChain
  | _ => false

namespace Emulation

variable {E : Emulation} {ibs : List IndirectBufferInfo} {t : List Event} {ibIndex level : ℕ}
  {w : Work} {q : QueuedIb} {qs : List QueuedIb}

/-- The IB that the `OnIbStart` call opens. -/
def entered (E : Emulation) (q : QueuedIb) (ibIndex level : ℕ) (ibType : IbType) (k : ℕ) : OpenIb :=
  ⟨k, q, ibIndex,
    { vaAddr := q.addr, sizeInDwords := (E.enteredIb q ibType).sizeInDwords, ibLevel := level,
      enableMask := (E.enteredIb q ibType).enableMask, skip := (E.enteredIb q ibType).skip }⟩

theorem entered_isAt {ibType : IbType} {k : ℕ} :
    (entered E q ibIndex level ibType k).IsAt ibIndex level (E.enteredIb q ibType) :=
  ⟨rfl, rfl, rfl, rfl, rfl⟩

theorem nest_enter {n : Nesting} (hq : q.ibType ≠ .kChain)
    (hf : n.opened ≠ [] → n.fresh = false) :
    nest true n (enterEvent q ibIndex level (E.enteredIb q q.ibType)) =
      some ⟨n.started + 1, entered E q ibIndex level q.ibType n.started :: n.opened, true⟩ := by
  have hc : ¬ (true = true ∧ q.ibType = .kChain) := fun h => hq h.2
  obtain ⟨k, os, fresh⟩ := n
  unfold nest enterEvent
  cases os with
  | nil => exact if_neg hc
  | cons o os =>
    obtain rfl : fresh = false := hf (List.cons_ne_nil _ _)
    exact if_neg hc

theorem nest_chain {k : ℕ} {o : OpenIb} {os : List OpenIb} {ib : CurIb}
    (ho : o.IsAt ibIndex level ib) (hq : q.ibType = .kChain) {ibType : IbType} :
    nest true ⟨k, o :: os, false⟩ (enterEvent q ibIndex level (E.enteredIb q ibType)) =
      some ⟨k + 1, entered E q ibIndex level ibType k :: os, true⟩ := by
  unfold nest enterEvent
  dsimp only
  rw [if_neg Bool.false_ne_true, if_pos ⟨rfl, hq⟩]
  exact if_pos ⟨ho.1, ho.2.2.2.2⟩

theorem nest_end {k : ℕ} {o : OpenIb} {os : List OpenIb} {fresh : Bool} {ib : CurIb}
    (ho : o.IsAt ibIndex (level + 1) ib) :
    nest true ⟨k, o :: os, fresh⟩ (endEvent ibIndex ib level) = some ⟨k, os, false⟩ := by
  unfold nest endEvent
  exact if_pos ho

theorem nest_packet {k : ℕ} {o : OpenIb} {os : List OpenIb} {fresh : Bool} {va : UInt64}
    {hd : Pm4Header} {ib : CurIb} (ho : o.IsAt ibIndex level ib) :
    nest true ⟨k, o :: os, fresh⟩ (.packet ibIndex va hd) =
      some ⟨k, o :: os, fresh && !hd.isCommand⟩ := by
  unfold nest
  exact if_pos ho.1

theorem PacketAt.isCommand {va next : UInt64} {resets : Bool} {refs : List QueuedIb}
    (hp : PacketAt E va resets refs next) (hne : nonEmpty refs ≠ []) :
    (E.headerAt va).isCommand = true := by
  have htype : ∀ {op}, (E.headerAt va).isOpcode op = true → (E.headerAt va).isCommand = true := by
    intro op hop
    unfold Pm4Header.isOpcode at hop
    unfold Pm4Header.isCommand
    rw [Bool.and_eq_true] at hop
    rw [hop.1, Bool.or_true]
  cases hp with
  | single hv hop =>
    unfold packetRefs at hne
    split_ifs at hne with h₁ h₂ h₃ h₄ h₅
    · exact htype h₂
    · rw [Bool.or_eq_true, Bool.or_eq_true] at h₁
      exact h₁.elim (fun h => h.elim htype htype) htype
    · exact htype h₃
    · exact htype h₄
    · exact htype h₅
    · exact absurd rfl hne
  | bins hv hop hend => exact htype hop

/-- The calls of the work close the IB it is in, and whatever they open. -/
def Closes (ibIndex level : ℕ) : Work → List Event → Prop
  | .body ib _, t => ∀ k o os fresh, OpenIb.IsAt o ibIndex level ib →
      ∃ k', Monitor.run (nest true) ⟨k, o :: os, fresh⟩ t = some ⟨k', os, false⟩
  | .after ib refs _, t => ∀ k o os fresh, OpenIb.IsAt o ibIndex level ib →
      (nonEmpty refs ≠ [] → fresh = false) →
      ∃ k', Monitor.run (nest true) ⟨k, o :: os, fresh⟩ t = some ⟨k', os, false⟩
  | .ibs qs, t => (∀ q ∈ qs, q.ibType ≠ .kChain) →
      ∀ n : Nesting, (qs ≠ [] → n.opened ≠ [] → n.fresh = false) →
        ∃ k' fresh, Monitor.run (nest true) n t = some ⟨k', n.opened, fresh⟩

theorem closes_of_runs (h : Runs E ibIndex level w t) : Closes ibIndex level w t := by
  induction h with
  | @ended level ib va hend =>
    intro k o os fresh ho
    exact ⟨k, Monitor.run_cons_of (nest_end ho)⟩
  | packet hin hp h ih =>
    intro k o os fresh ho
    rw [Monitor.run_cons_of (nest_packet ho)]
    refine ih k o os _ ho fun hne => ?_
    rw [hp.isCommand hne, Bool.not_true, Bool.and_false]
  | called hc h h' ih ih' =>
    intro k o os fresh ho hf
    obtain ⟨k₁, fresh₁, h₁⟩ := ih (fun q hq => (hc q hq).2) ⟨k, o :: os, fresh⟩ fun hne _ => hf hne
    rw [Monitor.run_append_of h₁]
    exact ih' k₁ o os fresh₁ ho
  | chained hq hc hend h ih =>
    intro k o os fresh ho hf
    obtain rfl := hf (by rw [hq]; exact List.cons_ne_nil _ _)
    rw [Monitor.run_cons_of (nest_chain ho hc)]
    exact ih _ _ os _ entered_isAt
  | nil => exact fun _ n _ => ⟨n.started, n.fresh, rfl⟩
  | @cons level q qs t t' h h' ih ih' =>
    intro hqs n hf
    obtain ⟨k₁, h₁⟩ := ih (n.started + 1) (entered E q ibIndex level q.ibType n.started) n.opened
      true entered_isAt
    rw [List.cons_append, Monitor.run_cons_of (nest_enter (hqs q List.mem_cons_self)
      (hf (List.cons_ne_nil _ _))), Monitor.run_append_of h₁]
    exact ih' (fun q' h => hqs q' (List.mem_cons_of_mem q h)) ⟨k₁, n.opened, false⟩ fun _ _ => rfl

theorem closes_of_submitRuns (h : SubmitRuns E ibIndex qs t) (hqs : ∀ q ∈ qs, q.ibType ≠ .kChain) :
    ∀ k fresh, ∃ k' fresh', Monitor.run (nest true) ⟨k, [], fresh⟩ t = some ⟨k', [], fresh'⟩ := by
  induction h with
  | nil => exact fun k fresh => ⟨k, fresh, rfl⟩
  | @cons ibIndex q qs t t' h h' ih =>
    intro k fresh
    obtain ⟨k₁, h₁⟩ := closes_of_runs h (k + 1) (entered E q ibIndex 1 q.ibType k) [] true
      entered_isAt
    have henter : nest true ⟨k, [], fresh⟩ (enterEvent q ibIndex 1 (E.enteredIb q q.ibType)) =
        some ⟨k + 1, [entered E q ibIndex 1 q.ibType k], true⟩ :=
      nest_enter (hqs q List.mem_cons_self) fun hne => absurd rfl hne
    rw [List.cons_append, Monitor.run_cons_of henter, Monitor.run_append_of h₁]
    exact ih (fun q' h => hqs q' (List.mem_cons_of_mem q h)) k₁ false

/-! ## What the starts pass on -/

theorem passesOn_enterEvent {ibType : IbType} (hm : q.enableMask = q.mask)
    (ht : q.ibType ≠ .kChain → ibType = q.ibType) (hc : ibType ≠ .kChain) :
    (enterEvent q ibIndex level (E.enteredIb q ibType)).PassesOn := ⟨hm, ht, hc⟩

theorem packetRefs_mask {hd : Pm4Header} {va : UInt64} (hq : q ∈ E.packetRefs hd va) :
    q.enableMask = q.mask := by
  unfold packetRefs at hq
  split_ifs at hq with h₁ h₂ h₃ h₄ h₅
  · rw [List.mem_singleton] at hq
    subst hq
    rfl
  · rw [List.mem_singleton] at hq
    subst hq
    rfl
  · rw [List.mem_singleton] at hq
    subst hq
    rfl
  · rw [QueuedIb.mask, if_pos (drawStatesFrom_type _ _ _ hq)]
  · obtain ⟨i, -, rfl⟩ := List.mem_map.mp hq
    rfl
  · exact absurd hq List.not_mem_nil

theorem bins_mask {p : Pm4Packet} {va : UInt64} {size : UInt32} (hq : q ∈ p.bins va size) :
    q.enableMask = q.mask := by
  obtain ⟨i, -, hi⟩ := List.mem_flatMap.mp hq
  simp only [List.mem_cons, List.not_mem_nil, or_false] at hi
  rcases hi with rfl | rfl <;> rfl

theorem PacketAt.mask {va next : UInt64} {resets : Bool} {refs : List QueuedIb}
    (hp : PacketAt E va resets refs next) (hq : q ∈ nonEmpty refs) : q.enableMask = q.mask := by
  rw [mem_nonEmpty] at hq
  cases hp with
  | single hv hop => exact packetRefs_mask hq.1
  | bins hv hop hend => exact bins_mask hq.1

/-- What the work needs for its starts to pass on the right things. -/
def Work.Ok : Work → Prop
  | .body ib _ => ib.ibType ≠ .kChain
  | .after ib refs _ => ib.ibType ≠ .kChain ∧ ∀ q ∈ nonEmpty refs, q.enableMask = q.mask
  | .ibs qs => ∀ q ∈ qs, q.ibType ≠ .kChain ∧ q.enableMask = q.mask

theorem passesOn_of_runs (h : Runs E ibIndex level w t) : w.Ok → ∀ e ∈ t, e.PassesOn := by
  induction h with
  | ended hend =>
    intro _ e he
    rw [List.mem_singleton.mp he]
    trivial
  | packet hin hp h ih =>
    intro hok
    exact List.forall_mem_cons.mpr ⟨trivial, ih ⟨hok, fun q hq => hp.mask hq⟩⟩
  | called hc h h' ih ih' =>
    intro hok
    exact List.forall_mem_append.mpr ⟨ih fun q hq => ⟨(hc q hq).2, hok.2 q hq⟩, ih' hok.1⟩
  | @chained level ib next refs q t hq hc hend h ih =>
    intro hok
    have hm := hok.2 q (hq ▸ List.mem_singleton_self q)
    exact List.forall_mem_cons.mpr ⟨passesOn_enterEvent hm (absurd hc) hok.1, ih hok.1⟩
  | nil => exact fun _ e he => absurd he List.not_mem_nil
  | @cons level q qs t t' h h' ih ih' =>
    intro hok
    obtain ⟨⟨hc, hm⟩, hqs⟩ := List.forall_mem_cons.mp hok
    rw [List.cons_append]
    exact List.forall_mem_cons.mpr ⟨passesOn_enterEvent hm (fun _ => rfl) hc,
      List.forall_mem_append.mpr ⟨ih hc, ih' hqs⟩⟩

theorem passesOn_of_submitRuns (h : SubmitRuns E ibIndex qs t)
    (hqs : ∀ q ∈ qs, q.ibType ≠ .kChain ∧ q.enableMask = q.mask) : ∀ e ∈ t, e.PassesOn := by
  induction h with
  | nil => exact fun e he => absurd he List.not_mem_nil
  | @cons ibIndex q qs t t' h h' ih =>
    obtain ⟨⟨hc, hm⟩, hqs⟩ := List.forall_mem_cons.mp hqs
    rw [List.cons_append]
    exact List.forall_mem_cons.mpr ⟨passesOn_enterEvent hm (fun _ => rfl) hc,
      List.forall_mem_append.mpr ⟨passesOn_of_runs h hc, ih hqs⟩⟩

/-! ## Chained IBs -/

/-- The call is for a packet that chains to an IB of nonzero size. -/
def chainsAt (E : Emulation) : Event → Bool
  | .packet _ va hd => hd.isOpcode CP_INDIRECT_BUFFER_CHAIN &&
      ((E.packetAt va 16).indirectBuffer .kChain).sizeInDwords ≠ 0
  | _ => false

theorem packetRefs_chain {hd : Pm4Header} {va : UInt64}
    (hop : hd.isOpcode CP_INDIRECT_BUFFER_CHAIN = true) :
    E.packetRefs hd va = [(E.packetAt va 16).indirectBuffer .kChain] := by
  unfold packetRefs
  rw [hop, Bool.or_true, if_pos rfl, if_pos rfl]

theorem chainsAt_packet {va next : UInt64} {resets : Bool} {refs : List QueuedIb}
    (hp : PacketAt E va resets refs next) :
    E.chainsAt (.packet ibIndex va (E.headerAt va)) = false ↔
      ∀ q ∈ nonEmpty refs, q.ibType ≠ .kChain := by
  unfold chainsAt
  simp only [Bool.and_eq_false_iff, decide_eq_false_iff_not, not_not]
  cases hp with
  | single hv hop =>
    constructor
    · intro h q hq hc
      rw [mem_nonEmpty] at hq
      have hchain := ((packetRefs_type hq.1).2 hc).1
      rw [packetRefs_chain hchain, List.mem_singleton] at hq
      rcases h with h | h
      · exact absurd hchain (by rw [h]; exact Bool.false_ne_true)
      · exact hq.2 (hq.1 ▸ h)
    · intro h
      by_contra hne
      rw [not_or, Bool.not_eq_false] at hne
      refine h ((E.packetAt va 16).indirectBuffer .kChain) (mem_nonEmpty.mpr ⟨?_, hne.2⟩) rfl
      rw [packetRefs_chain hne.1]
      exact List.mem_singleton_self _
  | bins hv hop hend =>
    refine iff_of_true (Or.inl ?_) fun q hq => (bins_type (mem_nonEmpty.mp hq).1).2
    rw [← Bool.not_eq_true]
    exact fun hch => absurd (isOpcode_unique hop hch) (by decide)

/-- The work starts with no chained IB. -/
def Work.chainFree : Work → Prop
  | .body _ _ => True
  | .after _ refs _ => ∀ q ∈ nonEmpty refs, q.ibType ≠ .kChain
  | .ibs qs => ∀ q ∈ qs, q.ibType ≠ .kChain

theorem chainFree_of_runs (h : Runs E ibIndex level w t) :
    (∀ e ∈ t, e.startsChain = false) ↔ w.chainFree ∧ ∀ e ∈ t, E.chainsAt e = false := by
  induction h with
  | ended hend =>
    refine iff_of_true (fun e he => ?_) ⟨trivial, fun e he => ?_⟩ <;>
      rw [List.mem_singleton.mp he] <;> rfl
  | packet hin hp h ih =>
    rw [List.forall_mem_cons, List.forall_mem_cons, ih, chainsAt_packet hp]
    simp only [Work.chainFree, Event.startsChain, true_and]
  | called hc h h' ih ih' =>
    rw [List.forall_mem_append, List.forall_mem_append, ih, ih']
    simp only [Work.chainFree, true_and]
    tauto
  | @chained level ib next refs q t hq hc hend h ih =>
    refine iff_of_false (fun hs => ?_) fun hs => hs.1 q (hq ▸ List.mem_singleton_self q) hc
    have hstart := hs _ List.mem_cons_self
    unfold enterEvent Event.startsChain at hstart
    exact of_decide_eq_false hstart hc
  | nil => simp [Work.chainFree]
  | @cons level q qs t t' h h' ih ih' =>
    rw [List.cons_append, List.forall_mem_cons, List.forall_mem_cons, List.forall_mem_append,
      List.forall_mem_append, ih, ih']
    simp only [Work.chainFree, Event.startsChain, enterEvent, chainsAt, List.forall_mem_cons,
      true_and, decide_eq_false_iff_not]
    tauto

theorem chainFree_of_submitRuns (h : SubmitRuns E ibIndex qs t)
    (hqs : ∀ q ∈ qs, q.ibType ≠ .kChain) :
    (∀ e ∈ t, e.startsChain = false) ↔ ∀ e ∈ t, E.chainsAt e = false := by
  induction h with
  | nil => simp
  | @cons ibIndex q qs t t' h h' ih =>
    obtain ⟨hq, hqs⟩ := List.forall_mem_cons.mp hqs
    rw [List.cons_append, List.forall_mem_cons, List.forall_mem_cons, List.forall_mem_append,
      List.forall_mem_append, chainFree_of_runs h, ih hqs]
    simp only [Work.chainFree, Event.startsChain, enterEvent, chainsAt, true_and,
      decide_eq_false_iff_not]
    tauto

end Emulation

/-! ## The enable mask of the state tracker -/

/-- The enable masks of `EmulateStateTracker`. -/
structure EmulateStateTracker where
  enableMask : UInt32 := 7
  enableMaskStack : List UInt32 := []
  deriving DecidableEq

namespace EmulateStateTracker

/-- `PushEnableMask`. -/
def pushEnableMask (T : EmulateStateTracker) (enableMask : UInt32) : EmulateStateTracker where
  enableMask := enableMask
  enableMaskStack := T.enableMask :: T.enableMaskStack

/-- `PopEnableMask`; it must not be called on an empty stack. -/
def popEnableMask (T : EmulateStateTracker) : Option EmulateStateTracker :=
  match T.enableMaskStack with
  | [] => none
  | m :: ms => some ⟨m, ms⟩

/-- `OnIbStart`, `OnIbEnd` and `OnPacket` of `EmulateCallbacksBase`. -/
def onEvent (T : EmulateStateTracker) : Event → Option EmulateStateTracker
  | .ibStart _ _ info _ => some (T.pushEnableMask info.enableMask)
  | .ibEnd _ _ => T.popEnableMask
  | .packet _ _ _ => some T

/-- The tracker inside the open IBs. -/
def inside (T : EmulateStateTracker) : List OpenIb → EmulateStateTracker
  | [] => T
  | o :: os => (T.inside os).pushEnableMask o.info.enableMask

theorem onEvent_inside {T : EmulateStateTracker} {n n' : Nesting} {e : Event}
    (hc : e.startsChain = false) (hn : Nests n e n') :
    (T.inside n.opened).onEvent e = some (T.inside n'.opened) := by
  cases hn with
  | start hq hf => rfl
  | chain hq => exact absurd hq (of_decide_eq_false hc)
  | close ho => rfl
  | packet => rfl

theorem run_inside {T : EmulateStateTracker} {n : Nesting} {t : List Event}
    (h : Monitor.run (nest true) {} t = some n) (hc : ∀ e ∈ t, e.startsChain = false) :
    Monitor.run onEvent T t = some (T.inside n.opened) := by
  have hsim : ∃ T', Monitor.run onEvent T t = some T' ∧ T' = T.inside n.opened := by
    refine Monitor.run_simulation (R := fun (n : Nesting) T' => T' = T.inside n.opened) rfl h ?_
    rintro e he v w _ rfl hw
    exact ⟨_, onEvent_inside (hc e he) (nests_of_nest hw), rfl⟩
  obtain ⟨T', hT', rfl⟩ := hsim
  exact hT'

end EmulateStateTracker

/-- The open IBs passed on the masks of their entries. -/
def Nesting.MasksOk (n : Nesting) : Prop := ∀ o ∈ n.opened, o.info.enableMask = o.queued.mask

theorem Nests.masksOk {n n' : Nesting} {e : Event} (hn : Nests n e n') (he : e.PassesOn)
    (h : n.MasksOk) : n'.MasksOk := by
  cases hn with
  | start hq hf => exact List.forall_mem_cons.mpr ⟨he.1, h⟩
  | chain hq => exact List.forall_mem_cons.mpr ⟨he.1, (List.forall_mem_cons.mp h).2⟩
  | close ho => exact (List.forall_mem_cons.mp h).2
  | packet => exact h

namespace Emulation

variable {E : Emulation} {ibs : List IndirectBufferInfo} {t : List Event}

theorem queued_ok {q : QueuedIb} (hq : q ∈ nonEmpty (ibs.map (·.queued))) :
    q.ibType ≠ .kChain ∧ q.enableMask = q.mask := by
  obtain ⟨info, -, rfl⟩ := List.mem_map.mp (mem_nonEmpty.mp hq).1
  exact ⟨IbType.noConfusion, rfl⟩

/-- **Brackets and masks.** In a successful submit, every IB that starts ends, in LIFO order, with
one end for a series of chained IBs. If no IB of nonzero size is chained to, the tracker is at the
end as it was at the start, and every packet is delivered under the mask of the innermost IB. -/
theorem brackets_of_succeeds (h : E.Succeeds ibs t) :
    (∃ n, Monitor.run (nest true) {} t = some n ∧ n.opened = []) ∧
      ((∀ e ∈ t, E.chainsAt e = false) → ∀ T : EmulateStateTracker,
        Monitor.run EmulateStateTracker.onEvent T t = some T ∧
        ∀ t₁ t₂ ibIndex va hd, t = t₁ ++ .packet ibIndex va hd :: t₂ → ∃ n o os T',
          Monitor.run (nest true) {} t₁ = some n ∧ n.opened = o :: os ∧
          Monitor.run EmulateStateTracker.onEvent T t₁ = some T' ∧
          T'.enableMask = o.queued.mask) := by
  have hruns := submitRuns_of_succeeds h
  obtain ⟨k, fresh, hk⟩ := closes_of_submitRuns hruns (fun q hq => (queued_ok hq).1) 0 true
  refine ⟨⟨_, hk, rfl⟩, fun hc T => ?_⟩
  have hfree := (chainFree_of_submitRuns hruns fun q hq => (queued_ok hq).1).mpr hc
  have hpass := passesOn_of_submitRuns hruns fun q hq => queued_ok hq
  refine ⟨EmulateStateTracker.run_inside hk hfree, ?_⟩
  rintro t₁ t₂ ibIndex va hd rfl
  obtain ⟨n, n', hn, hpacket, -⟩ := Monitor.run_split hk
  have hmasks : n.MasksOk := by
    refine Monitor.run_invariant (P := Nesting.MasksOk) (fun o ho => absurd ho List.not_mem_nil) hn
      fun e he v w hv hw => (nests_of_nest hw).masksOk (hpass e (List.mem_append_left _ he)) hv
  have htracker := EmulateStateTracker.run_inside (T := T) hn
    fun e he => hfree e (List.mem_append_left _ he)
  cases nests_of_nest hpacket with
  | @packet k o os =>
    exact ⟨_, o, os, _, hn, rfl, htracker, hmasks o List.mem_cons_self⟩

/-! ## A call from a draw-state IB, and a chain -/

/-- A draw-state IB (binning pass only) that calls another IB, and then a chained IB. -/
def maskedCall : Emulation := accepting [
  .ofDwords 0x1000 [0x70438003, 0x00100004, 0x2000, 0, 0x70578003, 0x4000, 0, 1],
  .ofDwords 0x2000 [0x70bf8003, 0x3000, 0, 1], .ofDwords 0x3000 [0x70108000],
  .ofDwords 0x4000 [0x70108000]]

def maskedCallIbs : List IndirectBufferInfo := [{ vaAddr := 0x1000, sizeInDwords := 8 }]

/-- The calls up to the packet of the called IB. -/
def toCalledIb : List Event := [
  .ibStart ⟨.kNormal, 0x1000, 8, false, 7⟩ 0 ⟨0x1000, 8, 1, 7, false⟩ .kNormal,
  .packet 0 0x1000 ⟨0x70438003⟩,
  .ibStart ⟨.kDrawState, 0x2000, 4, false, 1⟩ 0 ⟨0x2000, 4, 2, 1, false⟩ .kDrawState,
  .packet 0 0x2000 ⟨0x70bf8003⟩,
  .ibStart ⟨.kCall, 0x3000, 1, false, 7⟩ 0 ⟨0x3000, 1, 3, 7, false⟩ .kCall]

/-- The calls after it. -/
def fromCalledIb : List Event := [
  .ibEnd 0 ⟨0x3000, 1, 2, 0, false⟩,
  .ibEnd 0 ⟨0x2000, 4, 1, 0, false⟩,
  .packet 0 0x1010 ⟨0x70578003⟩,
  .ibStart ⟨.kChain, 0x4000, 1, false, 7⟩ 0 ⟨0x4000, 1, 1, 7, false⟩ .kNormal,
  .packet 0 0x4000 ⟨0x70108000⟩,
  .ibEnd 0 ⟨0x4000, 1, 0, 0, false⟩]

def maskedCallTrace : List Event := toCalledIb ++ .packet 0 0x3000 ⟨0x70108000⟩ :: fromCalledIb

theorem maskedCall_succeeds : maskedCall.Succeeds maskedCallIbs maskedCallTrace := by
  have h : maskedCall.successTrace maskedCallIbs 15 = some maskedCallTrace := by rfl
  exact succeeds_of_successTrace h

/-- The mask of the innermost draw-state IB; all passes if there is none. -/
def drawStateMask (os : List OpenIb) : UInt32 :=
  ((os.find? fun o => o.queued.ibType = .kDrawState).map fun o => o.queued.enableMask).getD 7

/-- **A chained IB gets no end of its own**, so that one IB stays open and one mask stays pushed;
and the packet of the IB that the draw-state IB calls is delivered for all passes. -/
theorem maskedCall_unbalanced : maskedCall.Succeeds maskedCallIbs maskedCallTrace ∧
    (∃ n, Monitor.run (nest false) {} maskedCallTrace = some n ∧ n.opened.length = 1) ∧
    Monitor.run EmulateStateTracker.onEvent {} maskedCallTrace ≠ some {} ∧
    ∃ n T, Monitor.run (nest false) {} toCalledIb = some n ∧
      Monitor.run EmulateStateTracker.onEvent {} toCalledIb = some T ∧
      drawStateMask n.opened = 1 ∧ T.enableMask = 7 := by
  refine ⟨maskedCall_succeeds, ⟨_, rfl, rfl⟩, by decide, _, _, rfl, rfl, by decide, rfl⟩

/-- The calls for the draw-state IB alone. -/
def callTrace : List Event := [
  .ibStart ⟨.kNormal, 0x2000, 4, false, 7⟩ 0 ⟨0x2000, 4, 1, 7, false⟩ .kNormal,
  .packet 0 0x2000 ⟨0x70bf8003⟩,
  .ibStart ⟨.kCall, 0x3000, 1, false, 7⟩ 0 ⟨0x3000, 1, 2, 7, false⟩ .kCall,
  .packet 0 0x3000 ⟨0x70108000⟩,
  .ibEnd 0 ⟨0x3000, 1, 1, 0, false⟩,
  .ibEnd 0 ⟨0x2000, 4, 0, 0, false⟩]

theorem callTrace_succeeds :
    maskedCall.Succeeds [{ vaAddr := 0x2000, sizeInDwords := 4 }] callTrace := by
  have h : maskedCall.successTrace [{ vaAddr := 0x2000, sizeInDwords := 4 }] 8 = some callTrace := by
    rfl
  exact succeeds_of_successTrace h

/-- Without the chain, brackets and masks are balanced. -/
theorem brackets_callTrace :
    (∃ n, Monitor.run (nest true) {} callTrace = some n ∧ n.opened = []) ∧
    Monitor.run EmulateStateTracker.onEvent {} callTrace = some {} := by
  obtain ⟨hnest, hmask⟩ := brackets_of_succeeds callTrace_succeeds
  exact ⟨hnest, (hmask (by decide) {}).1⟩

end Emulation

end Dive
