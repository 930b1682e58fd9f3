import Dive.Lib.Monitor
import Dive.Pm4.Steps

/-!
# The group of a draw-state IB

* `DrawStatePacket`, `GroupEntry`: a `CP_SET_DRAW_STATE` that is executed, and one of its groups.
* `nonEmpty_drawStates`: the groups that the emulator queues.
* `Provenance`: of each open IB, the groups that are queued and have not started.
* **`fromGroup_reachable`**: every draw-state IB that starts is that of the first of these groups.
-/

namespace Dive

/-! ## Groups -/

/-- The groups `i`, …, `i + n - 1` that are queued and not empty. -/
def Pm4Packet.queuedGroupsFrom (p : Pm4Packet) (i : ℕ) : ℕ → List ℕ
  | 0 => []
  | n + 1 =>
    if p.drawStateBit i 18 ≠ 0 then []
    else if p.drawStateBit i 17 ≠ 0 ∨ (p.drawState i).sizeInDwords = 0 then
      queuedGroupsFrom p (i + 1) n
    else i :: queuedGroupsFrom p (i + 1) n

theorem nonEmpty_drawStatesFrom (p : Pm4Packet) : ∀ (n i : ℕ),
    nonEmpty (p.drawStatesFrom i n) = (p.queuedGroupsFrom i n).map p.drawState
  | 0, _ => rfl
  | n + 1, i => by
    unfold Pm4Packet.drawStatesFrom Pm4Packet.queuedGroupsFrom
    have ih := nonEmpty_drawStatesFrom p n (i + 1)
    by_cases hall : p.drawStateBit i 18 ≠ 0
    · rw [if_pos hall, if_pos hall]
      rfl
    rw [if_neg hall, if_neg hall]
    by_cases hdisable : p.drawStateBit i 17 ≠ 0
    · rw [if_pos hdisable, if_pos (Or.inl hdisable), ih]
    rw [if_neg hdisable, nonEmpty_cons]
    by_cases hempty : (p.drawState i).sizeInDwords = 0
    · rw [if_pos hempty, if_pos (Or.inr hempty), ih]
    · rw [if_neg hempty, if_neg (not_or.mpr ⟨hdisable, hempty⟩), ih, List.map_cons]

/-- A `CP_SET_DRAW_STATE` packet that is executed after the calls `before`. -/
structure DrawStatePacket where
  before : List Event
  vaAddr : UInt64
  header : Pm4Header

/-- `ARRAY[index]` of the packet. -/
structure GroupEntry where
  packet : DrawStatePacket
  index : ℕ

section Entries

variable (E : Emulation)

/-- The packet as it is copied. -/
def DrawStatePacket.contents (p : DrawStatePacket) : Pm4Packet :=
  E.packetAt p.vaAddr ((p.header.type7Count + 1).toUInt64 * 4)

/-- The IB of the group. -/
def GroupEntry.queued (g : GroupEntry) : QueuedIb := (g.packet.contents E).drawState g.index

/-- The groups that are queued and not empty. -/
def DrawStatePacket.entries (p : DrawStatePacket) : List GroupEntry :=
  ((p.contents E).queuedGroupsFrom 0 (p.contents E).drawStateSize).map (⟨p, ·⟩)

theorem nonEmpty_drawStates (p : DrawStatePacket) :
    nonEmpty (p.contents E).drawStates = (p.entries E).map (·.queued E) := by
  rw [Pm4Packet.drawStates, nonEmpty_drawStatesFrom, DrawStatePacket.entries, List.map_map]
  rfl

end Entries

/-! ## Where a draw-state IB comes from -/

/-- The calls so far, the last `CP_SET_DRAW_STATE` and, for the primary ring and each open IB,
innermost first, the groups that are queued there and have not started. -/
structure Provenance where
  calls : List Event := []
  last : Option DrawStatePacket := none
  queues : List (List GroupEntry) := [[]]

namespace Provenance

variable (E : Emulation)

/-- The queues after a call. A packet replaces the groups of its IB, and a draw-state IB takes the
first group of the IB that is open. -/
def nextQueues (s : Provenance) : Event → List (List GroupEntry)
  | .packet _ va h =>
    if h.isOpcode CP_SET_DRAW_STATE then
      (⟨s.calls, va, h⟩ : DrawStatePacket).entries E :: s.queues.tail
    else s.queues
  | .ibStart q _ _ _ =>
    if q.ibType = .kChain then s.queues
    else if q.ibType = .kDrawState then [] :: (s.queues.headD []).tail :: s.queues.tail
    else [] :: s.queues
  | .ibEnd _ _ => s.queues.tail

/-- The last `CP_SET_DRAW_STATE` after a call. -/
def nextLast (s : Provenance) : Event → Option DrawStatePacket
  | .packet _ va h =>
    if h.isOpcode CP_SET_DRAW_STATE then some ⟨s.calls, va, h⟩ else s.last
  | _ => s.last

/-- One call. -/
def next (s : Provenance) (e : Event) : Provenance where
  calls := s.calls ++ [e]
  last := s.nextLast e
  queues := s.nextQueues E e

@[simp] theorem next_queues (s : Provenance) (e : Event) :
    (s.next E e).queues = s.nextQueues E e := rfl

/-- The group that the next draw-state IB is of. -/
def first (s : Provenance) : Option GroupEntry := (s.queues.headD []).head?

end Provenance

/-- The provenance after some calls. -/
def provenance (E : Emulation) (t : List Event) : Provenance := t.foldl (Provenance.next E) {}

/-- A draw-state IB that starts is that of the first group. -/
def FromGroup (E : Emulation) (s : Provenance) : Event → Prop
  | .ibStart q _ info ibType => q.ibType = .kDrawState →
    ∃ g, s.first = some g ∧ q = g.queued E ∧ ibType = .kDrawState ∧ info.vaAddr = q.addr ∧
      info.enableMask = q.enableMask
  | _ => True

@[simp] theorem provenance_nil (E : Emulation) : provenance E [] = {} := rfl

theorem provenance_append (E : Emulation) (t t' : List Event) :
    provenance E (t ++ t') = t'.foldl (Provenance.next E) (provenance E t) :=
  List.foldl_append

@[simp] theorem provenance_concat (E : Emulation) (t : List Event) (e : Event) :
    provenance E (t ++ [e]) = (provenance E t).next E e := provenance_append E t [e]

@[simp] theorem calls_provenance (E : Emulation) (t : List Event) :
    (provenance E t).calls = t := by
  induction t using List.reverseRecOn with
  | nil => rfl
  | append_singleton t e ih =>
    rw [provenance_concat]
    exact congrArg (· ++ [e]) ih

namespace Emulation

variable {E : Emulation} {c c' b : Config} {ibs : List IndirectBufferInfo} {s : Provenance}

/-! ## The queues of the emulator -/

/-- The level has the IBs of these groups pending, and no other draw-state IBs. -/
def Queued (E : Emulation) (queue : List GroupEntry) (l : IbStack) : Prop :=
  queue.map (·.queued E) = l.pending.filter (·.ibType = .kDrawState)

/-- Each level has the IBs of its groups pending. -/
def QueuesMatch (E : Emulation) (queues : List (List GroupEntry)) (s : EmulateState) : Prop :=
  List.Forall₂ (Queued E) queues (s.cur :: s.callers)

theorem queued_nil {l : IbStack} (h : ∀ q ∈ l.pending, q.ibType ≠ .kDrawState) :
    Queued E [] l := by
  rw [Queued, List.map_nil, eq_comm, List.filter_eq_nil_iff]
  exact fun q hq => by simpa using h q hq

theorem nextQueues_startEvent (q : QueuedIb) (state : EmulateState) :
    s.nextQueues E (startEvent q state) =
      if q.ibType = .kChain then s.queues
      else if q.ibType = .kDrawState then [] :: (s.queues.headD []).tail :: s.queues.tail
      else [] :: s.queues := rfl

theorem queuesMatch_iff {queues : List (List GroupEntry)} {s : EmulateState} :
    QueuesMatch E queues s ↔ ∃ queue callers, queues = queue :: callers ∧ Queued E queue s.cur ∧
      List.Forall₂ (Queued E) callers s.callers := by
  rw [QueuesMatch, List.forall₂_cons_right_iff]
  constructor
  · rintro ⟨queue, callers, hcur, hcallers, heq⟩
    exact ⟨queue, callers, heq, hcur, hcallers⟩
  · rintro ⟨queue, callers, heq, hcur, hcallers⟩
    exact ⟨queue, callers, hcur, hcallers, heq⟩

/-- **The start of a queued IB.** -/
theorem queuesMatch_advances (ha : Advances E b c') (h : QueuesMatch E s.queues b.state) :
    ∃ es, c'.trace = b.trace ++ es ∧
      Monitor.Along (Provenance.next E) (FromGroup E) s es ∧
      QueuesMatch E (es.foldl (Provenance.next E) s).queues c'.state := by
  obtain ⟨queue, callers, hqueues, hcur, hcallers⟩ := queuesMatch_iff.mp h
  cases ha with
  | idle hp => exact ⟨[], (List.append_nil _).symm, trivial, h⟩
  | @call q qs hp hq hl hcb =>
    refine ⟨[startEvent q (E.callIb q b.state)], rfl, ?_⟩
    have hentered : Queued E [] (E.callIb q b.state).cur :=
      queued_nil fun q' hq' => absurd hq' List.not_mem_nil
    have htail : (IbStack.pending { b.state.cur with
        ibQueueIndex := b.state.cur.ibQueueIndex + 1 }) = qs := (pending_tail hp).2
    rw [Queued, hp] at hcur
    rw [List.foldl_cons, List.foldl_nil, Provenance.next_queues, nextQueues_startEvent,
      if_neg hq, hqueues]
    by_cases hdraw : q.ibType = .kDrawState
    · -- the IB is that of the first group
      rw [List.filter_cons_of_pos (by simpa using hdraw)] at hcur
      obtain ⟨g, queue, rfl, hg, hqueue⟩ := List.map_eq_cons_iff.mp hcur
      rw [if_pos hdraw]
      refine ⟨⟨fun _ => ⟨g, ?_, hg.symm, hdraw, rfl, rfl⟩, trivial⟩, ?_⟩
      · rw [Provenance.first, hqueues]
        rfl
      · exact .cons hentered (.cons (hqueue.trans (by rw [htail])) hcallers)
    · rw [List.filter_cons_of_neg (by simpa using hdraw)] at hcur
      rw [if_neg hdraw]
      refine ⟨⟨fun hd => absurd hd hdraw, trivial⟩, ?_⟩
      exact .cons hentered (.cons (hcur.trans (by rw [htail])) hcallers)
  | @chain q hp hq hr hend hcb =>
    have hno : q.ibType ≠ .kDrawState := by
      rw [hq]
      nofun
    have htail : (E.chainIb q b.state).cur.pending = [] := (pending_tail hp).2
    rw [Queued, hp, List.filter_cons_of_neg (by simpa using hno), List.filter_nil] at hcur
    refine ⟨[startEvent q (E.chainIb q b.state)], rfl, ⟨fun hd => absurd hd hno, trivial⟩, ?_⟩
    rw [List.foldl_cons, List.foldl_nil, Provenance.next_queues, nextQueues_startEvent,
      if_pos hq, hqueues]
    refine .cons (hcur.trans ?_) hcallers
    rw [started_state, htail, List.filter_nil]

/-! ## Packets -/

theorem queued_packetRefs {va : UInt64} {h : Pm4Header} {before : List Event}
    (hop : h.isOpcode CP_SET_DRAW_STATE = true) :
    ((⟨before, va, h⟩ : DrawStatePacket).entries E).map (·.queued E) =
      (nonEmpty (E.packetRefs h va)).filter (·.ibType = .kDrawState) := by
  have hne : ∀ {op : UInt32}, CP_SET_DRAW_STATE ≠ op → ¬ h.isOpcode op = true :=
    fun hne ho => hne (isOpcode_unique hop ho)
  have hrefs : E.packetRefs h va =
      ((⟨before, va, h⟩ : DrawStatePacket).contents E).drawStates := by
    unfold packetRefs
    rw [if_neg (by
        rw [Bool.or_eq_true, Bool.or_eq_true]
        exact fun ho => ho.elim (fun ho => ho.elim (hne (by decide)) (hne (by decide)))
          (hne (by decide))),
      if_neg (hne (by decide)), if_pos hop]
    rfl
  rw [hrefs, eq_comm, ← nonEmpty_drawStates, List.filter_eq_self]
  intro q hq
  exact decide_eq_true (drawStatesFrom_type _ _ _ (mem_nonEmpty.mp hq).1)

theorem drawState_packetRefs {va : UInt64} {h : Pm4Header}
    (hop : h.isOpcode CP_SET_DRAW_STATE = false) {q : QueuedIb} (hq : q ∈ E.packetRefs h va) :
    q.ibType ≠ .kDrawState := by
  unfold packetRefs at hq
  split_ifs at hq with h₁ h₂ h₃ h₄ h₅
  · rw [List.mem_singleton.mp hq]
    exact IbType.noConfusion
  · rw [List.mem_singleton.mp hq]
    exact IbType.noConfusion
  · rw [List.mem_singleton.mp hq]
    exact IbType.noConfusion
  · rw [hop] at h₄
    cases h₄
  · obtain ⟨i, -, rfl⟩ := List.mem_map.mp hq
    exact IbType.noConfusion
  · exact absurd hq List.not_mem_nil

theorem drawState_bins {p : Pm4Packet} {va : UInt64} {size : UInt32} {q : QueuedIb}
    (hq : q ∈ p.bins va size) : q.ibType ≠ .kDrawState := by
  obtain ⟨i, -, hi⟩ := List.mem_flatMap.mp hq
  simp only [List.mem_cons, List.not_mem_nil, or_false] at hi
  rcases hi with rfl | rfl <;> exact IbType.noConfusion

/-! ## The steps of the emulator -/

theorem queuesMatch_single (hl : c.state.cur.Idle) (h : QueuesMatch E s.queues c.state) :
    QueuesMatch E (s.next E (packetEvent E c)).queues
      (queuedOn (c.state.cur.rebased (E.resetsQueue (E.headerAt c.state.cur.curVa)
          c.state.cur.curVa))
        (E.packetRefs (E.headerAt c.state.cur.curVa) c.state.cur.curVa)
        (c.state.cur.curVa + packetBytes (E.headerAt c.state.cur.curVa))
        (called (packetEvent E c) c)).state := by
  obtain ⟨queue, callers, hqueues, hcur, hcallers⟩ := queuesMatch_iff.mp h
  have hnext : (s.next E (packetEvent E c)).queues =
      if (E.headerAt c.state.cur.curVa).isOpcode CP_SET_DRAW_STATE then
        (⟨s.calls, c.state.cur.curVa, E.headerAt c.state.cur.curVa⟩ : DrawStatePacket).entries E
          :: s.queues.tail
      else s.queues := rfl
  rw [hnext, hqueues]
  cases hop : (E.headerAt c.state.cur.curVa).isOpcode CP_SET_DRAW_STATE with
  | true =>
    refine .cons ?_ hcallers
    rw [Queued, pending_queuedOn (hl.rebased _)]
    exact queued_packetRefs hop
  | false =>
    refine .cons ?_ hcallers
    rw [Queued, hl.pending] at hcur
    rw [List.map_eq_nil_iff.mp hcur]
    refine queued_nil fun q hq => ?_
    rw [pending_queuedOn (hl.rebased _)] at hq
    exact drawState_packetRefs hop (mem_nonEmpty.mp hq).1

theorem queuesMatch_bins {endVa next : UInt64} (hl : c.state.cur.Idle)
    (h : QueuesMatch E s.queues c.state) :
    QueuesMatch E s.queues (queuedOn (c.state.cur.rebased false)
      (E.binRefs c.state.cur.curVa endVa) next c).state := by
  obtain ⟨queue, callers, hqueues, hcur, hcallers⟩ := queuesMatch_iff.mp h
  rw [hqueues]
  refine .cons ?_ hcallers
  rw [Queued, hl.pending] at hcur
  rw [List.map_eq_nil_iff.mp hcur]
  refine queued_nil fun q hq => ?_
  rw [pending_queuedOn (hl.rebased _)] at hq
  exact drawState_bins (mem_nonEmpty.mp hq).1

/-- **One iteration** starts draw-state IBs of the first groups only. -/
theorem queuesMatch_step (hi : Inv E c) (h : QueuesMatch E s.queues c.state)
    (hstep : E.step c = .ok c') :
    ∃ es, c'.trace = c.trace ++ es ∧
      Monitor.Along (Provenance.next E) (FromGroup E) s es ∧
      QueuesMatch E (es.foldl (Provenance.next E) s).queues c'.state := by
  cases stepCase_of_ok hi hstep with
  | @ring ibs _ hc ha =>
    subst hc
    obtain ⟨queue, callers, hqueues, hcur, hcallers⟩ := queuesMatch_iff.mp h
    have hqueue : queue = [] := List.map_eq_nil_iff.mp hcur
    have hring : QueuesMatch E s.queues
        (queuedOn primaryRing (ibs.map (·.queued)) parked (initial ibs)).state := by
      rw [hqueues, hqueue]
      refine .cons (queued_nil fun q hq => ?_) hcallers
      rw [(ready_ring.ring rfl).2 q hq]
      exact IbType.noConfusion
    have hrun := queuesMatch_advances ha hring
    exact hrun
  | goOn hp hs hin => exact ⟨[], (List.append_nil _).symm, trivial, h⟩
  | @leave l ls _ hp hs hend hl ha =>
    obtain ⟨queue, callers, hqueues, hcur, hcallers⟩ := queuesMatch_iff.mp h
    have hleft : QueuesMatch E
        (s.next E (endEvent c.state.ibIndex c.state.cur.curIb ls.length)).queues
        (left l ls c).state := by
      have hnext : (s.next E (endEvent c.state.ibIndex c.state.cur.curIb ls.length)).queues =
          s.queues.tail := rfl
      rw [hnext, hqueues]
      rw [hl] at hcallers
      exact hcallers
    obtain ⟨es, htrace, halong, hmatch⟩ := queuesMatch_advances ha hleft
    refine ⟨endEvent c.state.ibIndex c.state.cur.curIb ls.length :: es, ?_, ⟨trivial, halong⟩,
      hmatch⟩
    rw [htrace]
    exact List.append_assoc _ _ _
  | startBin hp hs hin hv hop hcb =>
    refine ⟨[packetEvent E c], rfl, ⟨trivial, trivial⟩, ?_⟩
    have hno : ¬ (E.headerAt c.state.cur.curVa).isOpcode CP_SET_DRAW_STATE = true := fun ho =>
      absurd (isOpcode_unique hop ho) (by decide)
    have hnext : (s.next E (packetEvent E c)).queues = s.queues := if_neg hno
    rw [List.foldl_cons, List.foldl_nil, hnext]
    exact h
  | lookAhead hp hop => exact ⟨[], (List.append_nil _).symm, trivial, h⟩
  | queue hq hroom ha =>
    have hidle := (hq.stackOk hi).1.idle
    cases hq with
    | single hp hin hv hop hcb =>
      obtain ⟨es, htrace, halong, hmatch⟩ :=
        queuesMatch_advances ha (queuesMatch_single hidle h)
      refine ⟨packetEvent E c :: es, ?_, ⟨trivial, halong⟩, hmatch⟩
      rw [htrace]
      exact List.append_assoc _ _ _
    | @bins _ _ tempVa hp hop =>
      have hbins : QueuesMatch E s.queues (queuedOn (c.state.cur.rebased false)
          (E.binRefs c.state.cur.curVa tempVa) (E.binsNext c.state.cur.curVa tempVa) c).state :=
        queuesMatch_bins hidle h
      have hrun := queuesMatch_advances ha hbins
      exact hrun

/-- **Every draw-state IB that starts is that of the first group** that is queued in the IB that is
open. -/
theorem fromGroup_reachable (h : E.Reachable ibs c) :
    Monitor.Along (Provenance.next E) (FromGroup E) {} c.trace := by
  have hall := Machine.Reaches.invariant (P := fun c => Inv E c ∧
    QueuesMatch E (provenance E c.trace).queues c.state ∧
    Monitor.Along (Provenance.next E) (FromGroup E) {} c.trace) h
    ⟨rfl, .cons (queued_nil fun q hq => absurd hq List.not_mem_nil) .nil, trivial⟩
    fun c c' _ hstep ⟨hi, hm, ha⟩ => by
      obtain ⟨es, htrace, halong, hmatch⟩ := queuesMatch_step hi hm hstep
      rw [htrace, provenance_append, Monitor.along_append]
      exact ⟨inv_step hi hstep, hmatch, ha, halong⟩
  exact hall.2.2

end Emulation

end Dive
