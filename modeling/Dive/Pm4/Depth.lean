import Dive.Pm4.Steps

/-!
# The depth of the IB stack

* `advanceToQueuedIB_outOfRange`: the only access past the IB stack is a call from the last level.
* **`inRange_iff`**: every level of a run is on the stack exactly when no packet at the last level
  calls an IB.
-/

namespace Dive

namespace Emulation

variable {E : Emulation} {c : Config} {ibs : List IndirectBufferInfo}

theorem emit_ne_outOfRange {e : Event} :
    E.emit e c ≠ .error (.failure .levelOutOfRange) := by
  unfold emit
  split_ifs <;> exact fun h => by cases h

theorem advanceToQueuedIB_outOfRange : E.advanceToQueuedIB c = .error (.failure .levelOutOfRange) ↔
    ∃ q qs, c.state.cur.pending = q :: qs ∧ q.ibType ≠ .kChain ∧
      kTotalIbLevels ≤ c.state.topOfStack + 1 := by
  unfold advanceToQueuedIB
  cases hp : c.state.cur.pending with
  | nil => exact iff_of_false (fun h => by cases h) (fun ⟨q, qs, h, _⟩ => by cases h)
  | cons q qs =>
    dsimp only
    split_ifs with hq hl hend
    · exact iff_of_true rfl ⟨q, qs, rfl, hq, hl⟩
    · exact iff_of_false emit_ne_outOfRange fun ⟨_, _, _, _, h⟩ => hl h
    · exact iff_of_false (fun h => by cases h) fun ⟨q', qs', h, h', _⟩ => by cases h; exact hq h'
    · exact iff_of_false emit_ne_outOfRange fun ⟨q', qs', h, h', _⟩ => by cases h; exact hq h'

/-- The last level is reached, and a packet there calls an IB. -/
def CallsTooDeep (E : Emulation) (c : Config) : Prop :=
  c.state.topOfStack + 1 = kTotalIbLevels ∧ ∃ resets refs next b, Queues E c resets refs next b ∧
    (c.state.cur.rebased resets).HasRoom (nonEmpty refs).length ∧
    ∃ q ∈ nonEmpty refs, q.ibType ≠ .kChain

theorem queueAndAdvance_outOfRange {l : IbStack} {qs : List QueuedIb} {va : UInt64}
    (hl : l.Idle) : E.queueAndAdvance l qs va c = .error (.failure .levelOutOfRange) ↔
      l.HasRoom (nonEmpty qs).length ∧ kTotalIbLevels ≤ c.state.topOfStack + 1 ∧
        ∃ q qs', nonEmpty qs = q :: qs' ∧ q.ibType ≠ .kChain := by
  rw [queueAndAdvance_eq]
  split_ifs with hr
  · rw [advanceToQueuedIB_outOfRange, pending_queuedOn hl]
    constructor
    · rintro ⟨q, qs', hq, hc, ht⟩
      exact ⟨hr, ht, q, qs', hq, hc⟩
    · rintro ⟨-, ht, q, qs', hq, hc⟩
      exact ⟨q, qs', hq, hc, ht⟩
  · exact iff_of_false (fun h => by cases h) fun h => hr h.1

theorem advanceOutOfIB_inRange (hs : StackOk c.state) :
    (E.advanceOutOfIB c).bind E.advanceToQueuedIB ≠ .error (.failure .levelOutOfRange) ∨
      c.state.callers = [] := by
  cases hl : c.state.callers with
  | nil => exact Or.inr rfl
  | cons l ls =>
    refine Or.inl fun h => ?_
    unfold advanceOutOfIB at h
    rw [hl] at h
    dsimp only at h
    cases he : E.emit (endEvent c.state.ibIndex c.state.cur.curIb ls.length)
        { c with state := { c.state with cur := l, callers := ls } } with
    | error r =>
      rw [he] at h
      exact emit_ne_outOfRange (he.trans h)
    | ok c₁ =>
      rw [he] at h
      obtain ⟨-, rfl⟩ := emit_ok.mp he
      obtain ⟨-, -, -, -, ht⟩ := advanceToQueuedIB_outOfRange.mp h
      have hd := hs.depth
      unfold EmulateState.topOfStack at hd
      rw [hl, List.length_cons] at hd
      exact absurd hd (not_lt.mpr ht)

theorem step_outOfRange_iff (hi : Inv E c) :
    E.step c = .error (.failure .levelOutOfRange) ↔ CallsTooDeep E c := by
  have hqueue : ∀ {resets refs next b}, Queues E c resets refs next b →
      (E.step c = .error (.failure .levelOutOfRange) ↔
        (c.state.cur.rebased resets).HasRoom (nonEmpty refs).length ∧
          kTotalIbLevels ≤ c.state.topOfStack + 1 ∧
          ∃ q qs, nonEmpty refs = q :: qs ∧ q.ibType ≠ .kChain) := by
    intro resets refs next b hq
    rw [hq.step_eq hi, queueAndAdvance_outOfRange ((hq.stackOk hi).1.idle.rebased resets),
      hq.state_eq]
  have hdeep : ∀ {resets refs next b}, Queues E c resets refs next b →
      E.step c = .error (.failure .levelOutOfRange) → CallsTooDeep E c := by
    intro resets refs next b hq h
    obtain ⟨hroom, ht, q, qs, hmem, hc⟩ := (hqueue hq).mp h
    have hd := (hq.stackOk hi).1.depth
    exact ⟨le_antisymm hd ht, resets, refs, next, b, hq, hroom, q, hmem ▸ List.mem_cons_self, hc⟩
  constructor
  · intro h
    have hi' := hi
    unfold Inv at hi
    unfold step at h
    cases hp : c.phase with
    | start ibs =>
      rw [hp] at h hi
      dsimp only at h hi
      subst hi
      have ht := (queueAndAdvance_outOfRange (l := primaryRing) (Eq.refl _)).mp h
      have hlevel : ¬ kTotalIbLevels ≤ 0 + 1 := by decide
      exact absurd ht.2.1 hlevel
    | check =>
      rw [hp] at h hi
      dsimp only at h hi
      split_ifs at h with hend
      rcases advanceOutOfIB_inRange (E := E) hi with hne | hnil
      · exact absurd h hne
      · exact absurd (hi.ring hnil) hend.1
    | fetch =>
      rw [hp] at h hi
      dsimp only at h hi
      by_cases htop : c.state.topOfStack = 0
      · rw [if_pos htop] at h
        cases h
      have hin := hi.2 fun hn => htop (List.length_eq_zero_iff.mpr hn)
      rw [if_neg htop] at h
      have hpacket := h
      unfold executePacket at h
      dsimp only at h
      by_cases hv : (E.headerAt c.state.cur.curVa).isValid = true
      swap
      · rw [if_neg hv] at h
        cases h
      rw [if_pos hv] at h
      cases he : E.emit (packetEvent E c) c with
      | error r =>
        unfold packetEvent at he
        rw [he] at h
        exact absurd (he.trans h) emit_ne_outOfRange
      | ok c₁ =>
        obtain ⟨hcb, rfl⟩ := emit_ok.mp he
        by_cases hop : (E.headerAt c.state.cur.curVa).isOpcode CP_START_BIN = true
        · unfold packetEvent at he
          rw [he, Except.bind, advanceCb_startBin hop] at h
          cases h
        · rw [Bool.not_eq_true] at hop
          refine hdeep (.single hp hin hv hop hcb) ?_
          unfold step
          rw [hp]
          dsimp only
          rw [if_neg htop, hpacket]
    | lookAhead hd packet tempVa =>
      by_cases hop : (E.headerAt tempVa).isOpcode CP_END_BIN = true
      · refine hdeep (.bins hp hop) ?_
        unfold step
        rw [hp] at h ⊢
        exact h
      · rw [hp] at h
        dsimp only at h
        unfold lookAhead at h
        dsimp only at h
        rw [if_neg hop] at h
        cases h
  · rintro ⟨htop, resets, refs, next, b, hq, hroom, q, hmem, hc⟩
    refine (hqueue hq).mpr ⟨hroom, htop.ge, ?_⟩
    cases hne : nonEmpty refs with
    | nil =>
      rw [hne] at hmem
      exact absurd hmem List.not_mem_nil
    | cons q' qs =>
      refine ⟨q', qs, rfl, fun hc' => ?_⟩
      -- a chained IB would be the only one
      have hone := (hq.chain_alone hi (hne ▸ List.mem_cons_self) hc').1
      rw [hone, List.mem_singleton] at hmem
      exact hc (hmem ▸ hc')

/-- **The IB stack is never left**, in any state of any run, exactly when no packet at the last
level calls an IB. -/
theorem inRange_iff (E : Emulation) (ibs : List IndirectBufferInfo) :
    (∀ c, E.Reachable ibs c → c.state.topOfStack < kTotalIbLevels ∧
        E.step c ≠ .error (.failure .levelOutOfRange)) ↔
      ∀ c, E.Reachable ibs c → ¬ CallsTooDeep E c := by
  constructor
  · intro h c hc hdeep
    exact (h c hc).2 ((step_outOfRange_iff (inv_reachable hc)).mpr hdeep)
  · intro h c hc
    have hi := inv_reachable hc
    exact ⟨hi.depth, fun hs => h c hc ((step_outOfRange_iff hi).mp hs)⟩

/-! ## An indirect buffer that calls itself -/

/-- At `0x1000`, a call of these four dwords. -/
def selfCall : Emulation := accepting [.ofDwords 0x1000 [0x70bf8003, 0x1000, 0, 4]]

/-- The submit of that one IB. -/
def selfCallIbs : List IndirectBufferInfo := [{ vaAddr := 0x1000, sizeInDwords := 4 }]

/-- **The self-call leaves the IB stack**: the fifth nested start writes past its end. -/
theorem selfCall_outOfRange : ∃ c, selfCall.Reachable selfCallIbs c ∧
    selfCall.step c = .error (.failure .levelOutOfRange) := by
  have hrun : Machine.runFor selfCall.step 20 (initial selfCallIbs) =
      .error (.failure .levelOutOfRange) := by rfl
  exact Machine.stopsWith_of_runFor hrun

end Emulation

end Dive
