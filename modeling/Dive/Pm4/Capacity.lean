import Dive.Pm4.Steps

/-!
# The capacity of the IB queue

* `openLevels`: the entry that each open IB was started with, and the addresses of its packets.
* `Left`: what these packets leave in the queue; `traced_reachable`: so it is in every run.
* **`packetFits_iff`**: a packet of at most `kMaxPendingIbs` references is not rejected exactly
  when it empties the queue or the references left from earlier packets leave room.
-/

namespace Dive

namespace Emulation

variable {E : Emulation} {b c c' : Config} {ibs : List IndirectBufferInfo} {resets : Bool}
  {refs : List QueuedIb} {next : UInt64}

/-! ## What the queue of a level holds -/

/-- The open IBs after one more call, innermost first, each with the entry that it was started with
and the addresses of its packets, last first. A chained IB takes the place of the one that chains. -/
def nextLevels (levels : List (QueuedIb × List UInt64)) : Event → List (QueuedIb × List UInt64)
  | .ibStart q _ _ _ => (q, []) :: if q.ibType = .kChain then levels.tail else levels
  | .ibEnd _ _ => levels.tail
  | .packet _ va _ => levels.modifyHead fun level => (level.1, va :: level.2)

/-- The open IBs after the calls of the trace. -/
def openLevels (t : List Event) : List (QueuedIb × List UInt64) := t.foldl nextLevels []

theorem openLevels_concat (t : List Event) (e : Event) :
    openLevels (t ++ [e]) = nextLevels (openLevels t) e := List.foldl_concat ..

/-- The queue that the packets at the addresses leave, of an IB that was started with `q`: empty
after a call, and that entry after a chain. -/
inductive Left (E : Emulation) (q : QueuedIb) : List UInt64 → List QueuedIb → Prop
  | start : Left E q [] (if q.ibType = .kChain then [q] else [])
  | packet {vas : List UInt64} {va next : UInt64} {queue refs : List QueuedIb} {resets : Bool}
      (h : Left E q vas queue) (hp : PacketAt E va resets refs next) :
      Left E q (va :: vas) ((if resets then [] else queue) ++ nonEmpty refs)

theorem Left.unique {q : QueuedIb} {vas : List UInt64} {queue queue' : List QueuedIb}
    (h : Left E q vas queue) (h' : Left E q vas queue') : queue = queue' := by
  induction h generalizing queue' with
  | start =>
    cases h'
    rfl
  | packet _ hp ih =>
    cases h' with
    | packet h' hp' =>
      obtain ⟨rfl, rfl, -⟩ := hp.unique hp'
      rw [ih h']

/-- Every level above the primary ring holds what its packets left. -/
def HistoryOk (E : Emulation) : List IbStack → List (QueuedIb × List UInt64) → Prop
  | l :: l' :: ls, level :: levels => Left E level.1 level.2 l.ibQueue ∧
    HistoryOk E (l' :: ls) levels
  | _ :: _ :: _, [] => False
  | _, _ => True

/-- The calls before the packet that the look-ahead is for, or all of them. -/
inductive Settled (E : Emulation) (c : Config) : List Event → Prop
  | all (hp : ∀ h packet va, c.phase ≠ .lookAhead h packet va) : Settled E c c.trace
  | packet {t : List Event} {h : Pm4Header} {packet : Pm4Packet} {va : UInt64}
      (hp : c.phase = .lookAhead h packet va) (ht : c.trace = t ++ [packetEvent E c]) :
      Settled E c t

/-- The levels hold what the calls say. -/
def Traced (E : Emulation) (c : Config) : Prop :=
  ∃ t, Settled E c t ∧ HistoryOk E (c.state.cur :: c.state.callers) (openLevels t)

variable {levels : List (QueuedIb × List UInt64)} {l : IbStack} {ls : List IbStack} {t : List Event}

theorem historyOk_ring (l : IbStack) : HistoryOk E [l] levels := by
  cases levels <;> exact trivial

theorem HistoryOk.congr {l' : IbStack} (h : HistoryOk E (l :: ls) levels)
    (hqueue : l'.ibQueue = l.ibQueue) : HistoryOk E (l' :: ls) levels := by
  cases ls with
  | nil => exact historyOk_ring l'
  | cons l'' ls =>
    cases levels with
    | nil => exact h.elim
    | cons level levels => exact ⟨hqueue ▸ h.1, h.2⟩

theorem HistoryOk.tail (h : HistoryOk E (l :: ls) levels) : HistoryOk E ls levels.tail := by
  cases ls with
  | nil => cases levels.tail <;> exact trivial
  | cons l' ls =>
    cases levels with
    | nil => exact h.elim
    | cons level levels => exact h.2

theorem historyOk_cons {level : QueuedIb × List UInt64}
    (hl : Left E level.1 level.2 l.ibQueue) (h : HistoryOk E ls levels) :
    HistoryOk E (l :: ls) (level :: levels) := by
  cases ls with
  | nil => exact historyOk_ring l
  | cons l' ls => exact ⟨hl, h⟩

theorem HistoryOk.head (h : HistoryOk E (l :: ls) levels) (hne : ls ≠ []) : ∃ q vas levels',
    levels = (q, vas) :: levels' ∧ Left E q vas l.ibQueue ∧ HistoryOk E ls levels' := by
  cases ls with
  | nil => exact absurd rfl hne
  | cons l' ls =>
    cases levels with
    | nil => exact h.elim
    | cons level levels => exact ⟨level.1, level.2, levels, rfl, h.1, h.2⟩

theorem traced_advances (ha : Advances E b c') (hp : ∀ h packet va, b.phase ≠ .lookAhead h packet va)
    (hh : HistoryOk E (b.state.cur :: b.state.callers) (openLevels b.trace)) : Traced E c' := by
  cases ha with
  | idle => exact ⟨b.trace, .all hp, hh⟩
  | @call q qs hpend hq hl hcb =>
    refine ⟨_, .all hp, ?_⟩
    show HistoryOk E _ (openLevels (b.trace ++ [startEvent q (E.callIb q b.state)]))
    rw [openLevels_concat, startEvent, nextLevels, if_neg hq]
    have hleft := @Left.start E q
    rw [if_neg hq] at hleft
    exact historyOk_cons hleft (hh.congr rfl)
  | @chain q hpend hq hr hend hcb =>
    refine ⟨_, .all hp, ?_⟩
    show HistoryOk E _ (openLevels (b.trace ++ [startEvent q (E.chainIb q b.state)]))
    rw [openLevels_concat, startEvent, nextLevels, if_pos hq]
    have hleft := @Left.start E q
    rw [if_pos hq] at hleft
    refine historyOk_cons ?_ hh.tail
    show Left E q [] b.state.cur.ibQueue
    rw [hr]
    exact hleft

theorem historyOk_packet (hh : HistoryOk E (l :: ls) (openLevels t)) (hne : ls ≠ [])
    {ibIndex : ℕ} {h : Pm4Header} (hp : PacketAt E l.curVa resets refs next) :
    HistoryOk E ({ l.rebased resets with
        curVa := next, ibQueue := (l.rebased resets).ibQueue ++ nonEmpty refs } :: ls)
      (openLevels (t ++ [.packet ibIndex l.curVa h])) := by
  obtain ⟨q, vas, levels, hlevels, hleft, hrest⟩ := hh.head hne
  rw [openLevels_concat, hlevels]
  refine historyOk_cons ?_ hrest
  have hleft' := hleft.packet hp
  cases resets <;> exact hleft'

theorem Queues.trace_eq (hq : Queues E c resets refs next b) (ht : Settled E c t) :
    b.trace = t ++ [packetEvent E c] := by
  cases hq with
  | single hp =>
    cases ht with
    | all => rfl
    | packet hp' => cases hp.symm.trans hp'
  | bins hp =>
    cases ht with
    | all hno => exact absurd hp (hno _ _ _)
    | packet _ htrace => exact htrace

theorem traced_step (hi : Inv E c) (h : E.step c = .ok c') (hh : Traced E c) : Traced E c' := by
  obtain ⟨t, ht, hh⟩ := hh
  cases stepCase_of_ok hi h with
  | ring hc ha =>
    subst hc
    exact traced_advances ha nofun (historyOk_ring _)
  | goOn hp =>
    cases ht with
    | all => exact ⟨_, .all nofun, hh⟩
    | packet hp' => cases hp.symm.trans hp'
  | @leave l ls _ hp hs hend hl ha =>
    cases ht with
    | packet hp' => cases hp.symm.trans hp'
    | all hno =>
      refine traced_advances ha hno ?_
      show HistoryOk E (l :: ls) (openLevels (c.trace ++ [endEvent c.state.ibIndex
        c.state.cur.curIb ls.length]))
      rw [openLevels_concat, endEvent, nextLevels, ← hl]
      exact hh.tail
  | startBin hp =>
    cases ht with
    | all => exact ⟨_, .packet rfl rfl, hh⟩
    | packet hp' => cases hp.symm.trans hp'
  | lookAhead hp =>
    cases ht with
    | all hno => exact absurd hp (hno _ _ _)
    | packet hp' htrace => exact ⟨t, .packet rfl htrace, hh⟩
  | @queue resets refs next b _ hq hroom ha =>
    have htrace := hq.trace_eq ht
    refine traced_advances ha nofun ?_
    show HistoryOk E (_ :: b.state.callers) (openLevels b.trace)
    rw [htrace, hq.state_eq]
    exact historyOk_packet hh (hq.stackOk hi).2.1 (hq.packetAt hi)

theorem traced_reachable (hc : E.Reachable ibs c) : Traced E c := by
  refine Machine.Reaches.invariant (P := Traced E) hc ⟨[], .all nofun, trivial⟩
    fun _ _ hu huv hh => traced_step (inv_reachable hu) huv hh

/-! ## When a packet is rejected -/

theorem advanceToQueuedIB_ne_full : E.advanceToQueuedIB c ≠ .error (.failure .queueFull) := by
  have hemit : ∀ e c, E.emit e c ≠ .error (.failure .queueFull) := by
    intro e c
    unfold emit
    split_ifs <;> exact fun h => by cases h
  unfold advanceToQueuedIB
  cases hp : c.state.cur.pending with
  | nil => exact fun h => by cases h
  | cons q qs =>
    dsimp only
    split_ifs
    · exact fun h => by cases h
    · exact hemit _ _
    · exact fun h => by cases h
    · exact hemit _ _

theorem queueAndAdvance_full {l : IbStack} {qs : List QueuedIb} {va : UInt64} :
    E.queueAndAdvance l qs va c ≠ .error (.failure .queueFull) ↔
      l.HasRoom (nonEmpty qs).length := by
  rw [queueAndAdvance_eq]
  split_ifs with hr
  · exact iff_of_true advanceToQueuedIB_ne_full hr
  · exact iff_of_false (fun h => h rfl) hr

/-- **Queue capacity.** In any run, a packet that references at most `kMaxPendingIbs` IBs is not
rejected exactly when it empties the queue first, references none, or fits in after the references
that the packets before it at its level, which the trace has, leave in the queue; and it finds no
such reference counted exactly when it empties the queue or they left none. -/
theorem packetFits_iff (hc : E.Reachable ibs c) (hq : Queues E c resets refs next b)
    (hk : (nonEmpty refs).length ≤ kMaxPendingIbs) : ∃ q vas levels stale,
      openLevels b.trace = (q, c.state.cur.curVa :: vas) :: levels ∧
      (∀ queue, Left E q vas queue ↔ queue = stale) ∧
      (E.step c ≠ .error (.failure .queueFull) ↔ resets = true ∨ nonEmpty refs = [] ∨
        stale.length + (nonEmpty refs).length ≤ kMaxPendingIbs) ∧
      ((c.state.cur.rebased resets).ibQueue = [] ↔ resets = true ∨ stale = []) := by
  have hi := inv_reachable hc
  obtain ⟨t, ht, hh⟩ := traced_reachable hc
  obtain ⟨q, vas, levels, hlevels, hleft, -⟩ := hh.head (hq.stackOk hi).2.1
  refine ⟨q, vas, levels, c.state.cur.ibQueue, ?_, fun queue => ?_, ?_, ?_⟩
  · rw [hq.trace_eq ht, openLevels_concat, hlevels]
    rfl
  · exact ⟨fun h => h.unique hleft, fun h => h ▸ hleft⟩
  · rw [hq.step_eq hi, queueAndAdvance_full]
    unfold IbStack.HasRoom IbStack.rebased
    rw [List.length_eq_zero_iff]
    cases resets with
    | true =>
      refine iff_of_true (Or.inr ?_) (Or.inl rfl)
      rw [if_pos rfl]
      exact (Nat.zero_add _).le.trans hk
    | false => simp only [Bool.false_eq_true, if_false, false_or]
  · unfold IbStack.rebased
    cases resets with
    | true => exact iff_of_true rfl (Or.inl rfl)
    | false => simp only [Bool.false_eq_true, if_false, false_or]

/-! ## Two draw tables -/

theorem step_leave (hacc : ∀ t e, E.callbacks t e = true) {l : IbStack} {ls : List IbStack}
    (hp : c.phase = .check) (hva : c.state.cur.curVa ≠ parked)
    (hend : c.state.cur.endOfCurIb = true) (hl : c.state.callers = l :: ls) :
    E.step c = E.advanceToQueuedIB (left l ls c) := by
  unfold step
  rw [hp]
  dsimp only
  rw [if_pos ⟨hva, hend⟩, advanceOutOfIB, hl]
  dsimp only
  rw [show E.emit (endEvent c.state.ibIndex c.state.cur.curIb ls.length)
      { c with state := { c.state with cur := l, callers := ls } } = .ok (left l ls c) from
    emit_ok.mpr ⟨hacc _ _, rfl⟩]
  rfl

theorem reaches_drained (hacc : ∀ t e, E.callbacks t e = true) : ∀ (qs : List QueuedIb)
    (c : Config) {l : IbStack} {ls : List IbStack}, c.phase = .check →
      c.state.cur.curVa ≠ parked → c.state.cur.curIb.skip = true → c.state.callers = l :: ls →
      l.pending = qs → ls.length + 1 < kTotalIbLevels →
      (∀ q ∈ qs, q.ibType ≠ .kChain ∧ q.ibType ≠ .kNormal ∧ q.addr ≠ parked ∧
        (E.enteredIb q q.ibType).skip = true) →
      ∃ trace, Machine.Reaches E.step c
        { state := { c.state with
            cur := { l with ibQueueIndex := l.ibQueueIndex + qs.length }, callers := ls }
          trace := trace
          phase := .check }
  | [], c, l, ls, hp, hva, hskip, hl, hpend, _, _ => by
    have hend : c.state.cur.endOfCurIb = true := by rw [IbStack.endOfCurIb, hskip, Bool.true_or]
    have hstep := step_leave hacc hp hva hend hl
    rw [advanceToQueuedIB_nil hpend] at hstep
    have hreach := (Machine.Reaches.refl c).tail hstep
    refine ⟨(left l ls c).trace, ?_⟩
    unfold left at hreach ⊢
    rw [hp] at hreach
    exact hreach
  | q :: qs, c, l, ls, hp, hva, hskip, hl, hpend, hlevel, hqs => by
    have hend : c.state.cur.endOfCurIb = true := by rw [IbStack.endOfCurIb, hskip, Bool.true_or]
    obtain ⟨hchain, hnormal, haddr, hq⟩ := hqs q List.mem_cons_self
    have hstep : E.step c = .ok (started q (E.callIb q (left l ls c).state) (left l ls c)) := by
      rw [step_leave hacc hp hva hend hl]
      exact advanceToQueuedIB_call hpend hchain hlevel (hacc _ _)
    obtain ⟨trace, hrest⟩ := reaches_drained hacc qs
      (started q (E.callIb q (left l ls c).state) (left l ls c)) hp haddr hq rfl
      (pending_tail hpend).2 hlevel fun q' h' => hqs q' (List.mem_cons_of_mem _ h')
    refine ⟨trace, ?_⟩
    have hindex : (E.callIb q (left l ls c).state).ibIndex = c.state.ibIndex := if_neg hnormal
    have hlen : l.ibQueueIndex + (q :: qs).length = l.ibQueueIndex + 1 + qs.length := by
      rw [List.length_cons]
      omega
    have hrest' := hrest.head hstep
    unfold started at hrest'
    dsimp only at hrest'
    rw [hindex] at hrest'
    rw [hlen]
    exact hrest'

/-- An IB of two draw tables, one of 600 buffers and one of a single buffer, none captured. -/
def twoTables : Emulation := accepting [.ofDwords 0x1000
  [0x707f0004, 0x8000, 0, 0x100000, 600, 0x707f0004, 0x8000, 0, 0x100000, 1]]

def twoTablesIbs : List IndirectBufferInfo := [{ vaAddr := 0x1000, sizeInDwords := 10 }]

/-- The primary ring after the start of the only IB. -/
def ringAfter (q : QueuedIb) : IbStack := { primaryRing with ibQueue := [q], ibQueueIndex := 1 }

/-- Before the first table. -/
def firstTable : Config where
  state := ⟨0, ⟨0x1000, ⟨0x1000, 10, false, 7, .kNormal⟩, [], 0⟩,
    [ringAfter ⟨.kNormal, 0x1000, 10, false, 7⟩]⟩
  trace := [.ibStart ⟨.kNormal, 0x1000, 10, false, 7⟩ 0 ⟨0x1000, 10, 1, 7, false⟩ .kNormal]
  phase := .fetch

theorem reachable_firstTable : twoTables.Reachable twoTablesIbs firstTable := by
  have hrun : Machine.runFor twoTables.step 2 (initial twoTablesIbs) = .ok firstTable := by rfl
  exact Machine.reaches_of_runFor hrun

theorem queues_firstTable : Queues twoTables firstTable false
    (twoTables.packetAt 0x1000 20).fixedStrideDraws 0x1014
    (called (packetEvent twoTables firstTable) firstTable) :=
  .single rfl ⟨List.cons_ne_nil _ _, by decide⟩ (by decide) (by decide) rfl

theorem nonEmpty_fixedStrideDraws {p : Pm4Packet} (hs : p.u32 12 >>> 20 ≠ 0) :
    nonEmpty p.fixedStrideDraws = p.fixedStrideDraws := by
  refine List.filter_eq_self.mpr fun q hq => ?_
  obtain ⟨draw, -, rfl⟩ := List.mem_map.mp hq
  exact decide_eq_true hs

theorem length_fixedStrideDraws (p : Pm4Packet) :
    p.fixedStrideDraws.length = (p.u32 16).toNat := by
  rw [Pm4Packet.fixedStrideDraws, List.length_map, List.length_range]

theorem length_firstTable :
    (nonEmpty (twoTables.packetAt 0x1000 20).fixedStrideDraws).length = 600 := by
  rw [nonEmpty_fixedStrideDraws (by decide), length_fixedStrideDraws]
  rfl

/-- The first table fits into the queue. -/
theorem packetFits_firstTable : ∃ q vas levels stale,
    openLevels (called (packetEvent twoTables firstTable) firstTable).trace =
      (q, 0x1000 :: vas) :: levels ∧
    (∀ queue, Left twoTables q vas queue ↔ queue = stale) ∧
    (twoTables.step firstTable ≠ .error (.failure .queueFull) ↔ false = true ∨
      nonEmpty (twoTables.packetAt 0x1000 20).fixedStrideDraws = [] ∨
      stale.length + (nonEmpty (twoTables.packetAt 0x1000 20).fixedStrideDraws).length ≤
        kMaxPendingIbs) ∧
    ((firstTable.state.cur.rebased false).ibQueue = [] ↔ false = true ∨ stale = []) :=
  packetFits_iff reachable_firstTable queues_firstTable length_firstTable.le

theorem firstTable_skipped : ∀ q ∈ nonEmpty (twoTables.packetAt 0x1000 20).fixedStrideDraws,
    q.ibType ≠ .kChain ∧ q.ibType ≠ .kNormal ∧ q.addr ≠ parked ∧
      (twoTables.enteredIb q q.ibType).skip = true := by
  have hdraws : ∀ draw < 600, let q := (twoTables.packetAt 0x1000 20).fixedStrideDraw draw
      q.ibType ≠ .kChain ∧ q.ibType ≠ .kNormal ∧ q.addr ≠ parked ∧
        (twoTables.enteredIb q q.ibType).skip = true := by decide +kernel
  intro q hq
  obtain ⟨draw, hdraw, rfl⟩ := List.mem_map.mp (mem_nonEmpty.mp hq).1
  exact hdraws draw (List.mem_range.mp hdraw)

/-- The first table, queued. -/
def firstQueued : Config :=
  queuedOn (firstTable.state.cur.rebased false) (twoTables.packetAt 0x1000 20).fixedStrideDraws
    0x1014 (called (packetEvent twoTables firstTable) firstTable)

theorem pending_firstQueued : firstQueued.state.cur.pending =
    nonEmpty (twoTables.packetAt 0x1000 20).fixedStrideDraws :=
  pending_queuedOn (Eq.refl 0)

/-- The level of the IB between its tables. -/
def betweenTables : IbStack := { firstQueued.state.cur with ibQueueIndex := 600 }

theorem length_betweenTables : betweenTables.ibQueue.length = 600 := by
  have hqueue : betweenTables.ibQueue =
      [] ++ nonEmpty (twoTables.packetAt 0x1000 20).fixedStrideDraws := Eq.refl _
  rw [hqueue, List.nil_append, length_firstTable]

theorem endOfCurIb_betweenTables : betweenTables.endOfCurIb = false := by decide

theorem reaches_betweenTables : ∃ c, twoTables.Reachable twoTablesIbs c ∧ c.phase = .fetch ∧
    c.state.cur = betweenTables ∧ c.state.callers = firstTable.state.callers := by
  have hacc : ∀ t e, twoTables.callbacks t e = true := fun _ _ => rfl
  have hskip := firstTable_skipped
  have hlen := length_firstTable
  have hroom : (firstTable.state.cur.rebased false).HasRoom
      (nonEmpty (twoTables.packetAt 0x1000 20).fixedStrideDraws).length := by
    rw [hlen]
    decide
  have hlevel : firstQueued.state.topOfStack + 1 < kTotalIbLevels := by decide
  obtain ⟨q, qs, hq⟩ : ∃ q qs,
      nonEmpty (twoTables.packetAt 0x1000 20).fixedStrideDraws = q :: qs :=
    List.exists_cons_of_length_pos (hlen ▸ Nat.succ_pos 599)
  have hpend := pending_firstQueued
  rw [hq] at hskip hlen hpend
  obtain ⟨hchain, hnormal, haddr, hqskip⟩ := hskip q List.mem_cons_self
  have hstep : twoTables.step firstTable =
      .ok (started q (twoTables.callIb q firstQueued.state) firstQueued) := by
    rw [queues_firstTable.step_eq (inv_reachable reachable_firstTable), queueAndAdvance_eq,
      if_pos hroom]
    exact advanceToQueuedIB_call hpend hchain hlevel (hacc _ _)
  obtain ⟨trace, hdrained⟩ := reaches_drained hacc qs
    (started q (twoTables.callIb q firstQueued.state) firstQueued) rfl haddr hqskip (Eq.refl _)
    (pending_tail hpend).2 hlevel fun q' h => hskip q' (List.mem_cons_of_mem _ h)
  have hindex : firstQueued.state.cur.ibQueueIndex + 1 + qs.length = 600 := by
    have hzero : firstQueued.state.cur.ibQueueIndex = 0 := Eq.refl 0
    rw [List.length_cons] at hlen
    omega
  dsimp only at hdrained
  rw [hindex] at hdrained
  have hreach := (reachable_firstTable.tail hstep).trans hdrained
  refine ⟨_, hreach.tail (step_goOn rfl ?_), rfl, rfl, rfl⟩
  exact fun h => absurd (endOfCurIb_betweenTables.symm.trans h.2) Bool.false_ne_true

theorem queues_secondTable {c : Config} (hp : c.phase = .fetch) (hcur : c.state.cur = betweenTables)
    (hcallers : c.state.callers ≠ []) : Queues twoTables c false
      (twoTables.packetAt 0x1014 20).fixedStrideDraws 0x1028
      (called (packetEvent twoTables c) c) := by
  have hq := Queues.single (E := twoTables) hp ⟨hcallers, by rw [hcur]; decide⟩
    (by rw [hcur]; decide) (by rw [hcur]; decide) rfl
  rw [hcur] at hq
  exact hq

/-- **Rejected for one reference.** The second table references one buffer, and the 600 entries
that the first one left in the queue, all executed, fill it. -/
theorem secondTable_rejected : ∃ c resets refs next b, twoTables.Reachable twoTablesIbs c ∧
    Queues twoTables c resets refs next b ∧ refs.length = 1 ∧ c.state.cur.pending = [] ∧
    c.state.cur.ibQueue.length = 600 ∧ twoTables.step c = .error (.failure .queueFull) := by
  obtain ⟨c, hc, hp, hcur, hcallers⟩ := reaches_betweenTables
  have hq := queues_secondTable hp hcur (hcallers ▸ List.cons_ne_nil _ _)
  have hi := inv_reachable hc
  have hone : (twoTables.packetAt 0x1014 20).fixedStrideDraws.length = 1 := by
    rw [length_fixedStrideDraws]
    rfl
  have hlen : c.state.cur.ibQueue.length = 600 := by
    rw [hcur]
    exact length_betweenTables
  refine ⟨c, _, _, _, _, hc, hq, hone, (hq.stackOk hi).1.idle.pending, hlen, ?_⟩
  rw [hq.step_eq hi, queueAndAdvance_eq, if_neg]
  rw [nonEmpty_fixedStrideDraws (by decide), hone]
  unfold IbStack.HasRoom IbStack.rebased
  rw [if_neg Bool.false_ne_true, hlen]
  decide

end Emulation

end Dive
