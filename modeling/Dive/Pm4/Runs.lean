import Dive.Pm4.Steps

/-!
# The traces of successful runs

* `Runs`: the calls that an IB, the rest of an IB, or a list of queued IBs makes, by recursion over
  the references of its packets; `SubmitRuns`: those of a submit.
* `Remaining`: the calls that a configuration still makes, level by level.
* **`submitRuns_of_succeeds`**: the trace of every successful `ExecuteSubmit` is one of its submit.
-/

namespace Dive

namespace Emulation

/-- The condition of the loop of `CheckAndAdvanceIB`. -/
def AtEnd (ib : CurIb) (va : UInt64) : Prop :=
  va ≠ parked ∧ (ib.skip || ib.endAddr ≤ va) = true

/-- The `OnIbStart` call for the IB, at `level`. -/
def enterEvent (q : QueuedIb) (ibIndex level : ℕ) (ib : CurIb) : Event :=
  .ibStart q ibIndex
    { vaAddr := q.addr, sizeInDwords := ib.sizeInDwords, ibLevel := level,
      enableMask := ib.enableMask, skip := ib.skip } ib.ibType

/-- What is left to do: the packets of an IB from an address on; the references of a packet and
then the packets from `next` on; or a list of queued IBs. -/
inductive Work
  | body (ib : CurIb) (va : UInt64)
  | after (ib : CurIb) (refs : List QueuedIb) (next : UInt64)
  | ibs (qs : List QueuedIb)

/-- The calls made by the work, for the IB `ibIndex` of the submit. A body or what follows a packet
is at the level given; a list of IBs is called to that level. -/
inductive Runs (E : Emulation) (ibIndex : ℕ) : ℕ → Work → List Event → Prop
  | ended {level : ℕ} {ib : CurIb} {va : UInt64} (hend : AtEnd ib va) :
      Runs E ibIndex (level + 1) (.body ib va) [endEvent ibIndex ib level]
  | packet {level : ℕ} {ib : CurIb} {va next : UInt64} {resets : Bool} {refs : List QueuedIb}
      {t : List Event} (hin : ¬ AtEnd ib va) (hp : PacketAt E va resets refs next)
      (h : Runs E ibIndex level (.after ib refs next) t) :
      Runs E ibIndex level (.body ib va) (.packet ibIndex va (E.headerAt va) :: t)
  | called {level : ℕ} {ib : CurIb} {next : UInt64} {refs : List QueuedIb} {t t' : List Event}
      (hc : ∀ q ∈ nonEmpty refs, q.ibType ≠ .kNormal ∧ q.ibType ≠ .kChain)
      (h : Runs E ibIndex (level + 1) (.ibs (nonEmpty refs)) t)
      (h' : Runs E ibIndex level (.body ib next) t') :
      Runs E ibIndex level (.after ib refs next) (t ++ t')
  | chained {level : ℕ} {ib : CurIb} {next : UInt64} {refs : List QueuedIb} {q : QueuedIb}
      {t : List Event} (hq : nonEmpty refs = [q]) (hc : q.ibType = .kChain)
      (hend : next = ib.endAddr)
      (h : Runs E ibIndex level (.body (E.enteredIb q ib.ibType) q.addr) t) :
      Runs E ibIndex level (.after ib refs next)
        (enterEvent q ibIndex level (E.enteredIb q ib.ibType) :: t)
  | nil {level : ℕ} : Runs E ibIndex level (.ibs []) []
  | cons {level : ℕ} {q : QueuedIb} {qs : List QueuedIb} {t t' : List Event}
      (h : Runs E ibIndex level (.body (E.enteredIb q q.ibType) q.addr) t)
      (h' : Runs E ibIndex level (.ibs qs) t') :
      Runs E ibIndex level (.ibs (q :: qs))
        (enterEvent q ibIndex level (E.enteredIb q q.ibType) :: t ++ t')

/-- The calls made for the IBs of a submit, the first of which has index `ibIndex`. -/
inductive SubmitRuns (E : Emulation) : ℕ → List QueuedIb → List Event → Prop
  | nil {ibIndex : ℕ} : SubmitRuns E ibIndex [] []
  | cons {ibIndex : ℕ} {q : QueuedIb} {qs : List QueuedIb} {t t' : List Event}
      (h : Runs E ibIndex 1 (.body (E.enteredIb q q.ibType) q.addr) t)
      (h' : SubmitRuns E (ibIndex + 1) qs t') :
      SubmitRuns E ibIndex (q :: qs)
        (enterEvent q ibIndex 1 (E.enteredIb q q.ibType) :: t ++ t')

/-! ## What a configuration still does -/

/-- The calls still made by the levels of a stack, innermost first. -/
def Rest (E : Emulation) (ibIndex : ℕ) : List IbStack → List Event → Prop
  | [], t => t = []
  | [ring], t => SubmitRuns E ring.ibQueueIndex ring.pending t
  | l :: l' :: ls, t => ∃ t₁ t₂ t₃, t = t₁ ++ t₂ ++ t₃ ∧
      Runs E ibIndex ((l' :: ls).length + 1) (.ibs l.pending) t₁ ∧
      Runs E ibIndex (l' :: ls).length (.body l.curIb l.curVa) t₂ ∧ Rest E ibIndex (l' :: ls) t₃

/-- The calls that a configuration still makes. -/
def Remaining (E : Emulation) (c : Config) (t : List Event) : Prop :=
  match c.phase with
  | .start ibs => SubmitRuns E 0 (nonEmpty (ibs.map (·.queued))) t
  | .check => Rest E c.state.ibIndex (c.state.cur :: c.state.callers) t
  | .fetch => Rest E c.state.ibIndex (c.state.cur :: c.state.callers) t
  | .lookAhead _ _ tempVa => ∃ endVa t₁ t₂, EndBin E tempVa endVa ∧ t = t₁ ++ t₂ ∧
      Runs E c.state.ibIndex c.state.topOfStack (.after c.state.cur.curIb
        (E.binRefs c.state.cur.curVa endVa) (E.binsNext c.state.cur.curVa endVa)) t₁ ∧
      Rest E c.state.ibIndex c.state.callers t₂

variable {E : Emulation} {b c c' : Config} {ibs : List IndirectBufferInfo} {t : List Event}

theorem rest_cons {ibIndex : ℕ} {l l' : IbStack} {ls : List IbStack} :
    Rest E ibIndex (l :: l' :: ls) t ↔ ∃ t₁ t₂ t₃, t = t₁ ++ t₂ ++ t₃ ∧
      Runs E ibIndex ((l' :: ls).length + 1) (.ibs l.pending) t₁ ∧
      Runs E ibIndex (l' :: ls).length (.body l.curIb l.curVa) t₂ ∧
      Rest E ibIndex (l' :: ls) t₃ := Iff.rfl

theorem rest_idle {ibIndex : ℕ} {l : IbStack} {ls : List IbStack} (hl : l.Idle) (hls : ls ≠ []) :
    Rest E ibIndex (l :: ls) t ↔ ∃ t₁ t₂, t = t₁ ++ t₂ ∧
      Runs E ibIndex ls.length (.body l.curIb l.curVa) t₁ ∧ Rest E ibIndex ls t₂ := by
  obtain ⟨l', ls, rfl⟩ := List.exists_cons_of_ne_nil hls
  rw [rest_cons, hl.pending]
  constructor
  · rintro ⟨t₁, t₂, t₃, rfl, h₁, h₂, h₃⟩
    cases h₁
    exact ⟨t₂, t₃, rfl, h₂, h₃⟩
  · rintro ⟨t₂, t₃, rfl, h₂, h₃⟩
    exact ⟨[], t₂, t₃, rfl, .nil, h₂, h₃⟩

theorem rest_ring {ibIndex : ℕ} {ring : IbStack} :
    Rest E ibIndex [ring] t ↔ SubmitRuns E ring.ibQueueIndex ring.pending t := Iff.rfl

theorem rest_call {q : QueuedIb} {qs : List QueuedIb} (hr : Ready b.state)
    (hp : b.state.cur.pending = q :: qs)
    (h : Rest E (E.callIb q b.state).ibIndex
      ((E.callIb q b.state).cur :: (E.callIb q b.state).callers) t) :
    Rest E b.state.ibIndex (b.state.cur :: b.state.callers)
      (startEvent q (E.callIb q b.state) :: t) := by
  have hmem : q ∈ b.state.cur.pending := hp ▸ List.mem_cons_self
  have hidle : (E.callIb q b.state).cur.Idle := Eq.refl 0
  obtain ⟨t₁, t₂, rfl, h₁, h₂⟩ := (rest_idle hidle (List.cons_ne_nil _ _)).mp h
  have htail := (pending_tail hp).2
  unfold callIb at h₁ h₂
  dsimp only at h₁ h₂
  unfold startEvent callIb EmulateState.topOfStack
  dsimp only
  cases hc : b.state.callers with
  | nil =>
    have hn := (hr.ring hc).2 q hmem
    rw [hc, if_pos hn] at h₁ h₂
    rw [rest_ring, htail] at h₂
    rw [rest_ring, hp, if_pos hn]
    exact .cons h₁ h₂
  | cons l ls =>
    have hn := hr.called (by rw [hc]; exact List.cons_ne_nil _ _) q hmem
    rw [hc, if_neg hn] at h₁ h₂
    obtain ⟨u₁, u₂, u₃, rfl, hu₁, hu₂, hu₃⟩ := rest_cons.mp h₂
    rw [htail] at hu₁
    rw [rest_cons, hp, if_neg hn]
    refine ⟨_, u₂, u₃, ?_, .cons h₁ hu₁, hu₂, hu₃⟩
    simp only [List.append_assoc, List.cons_append]
    rfl

theorem rest_advances (hr : Ready b.state) (ha : Advances E b c')
    (hch : ∀ q ∈ b.state.cur.pending, q.ibType ≠ .kChain)
    (h : Rest E c'.state.ibIndex (c'.state.cur :: c'.state.callers) t) :
    ∃ es, c'.trace = b.trace ++ es ∧
      Rest E b.state.ibIndex (b.state.cur :: b.state.callers) (es ++ t) := by
  cases ha with
  | idle hp => exact ⟨[], (List.append_nil _).symm, h⟩
  | @call q qs hp hq hl hcb => exact ⟨[_], rfl, rest_call hr hp h⟩
  | @chain q hp hq hr' hend hcb => exact absurd hq (hch q (hp ▸ List.mem_cons_self))

variable {resets : Bool} {refs : List QueuedIb} {next : UInt64}

theorem after_advances (hi : Inv E c) (hq : Queues E c resets refs next b)
    (ha : Advances E (queuedOn (c.state.cur.rebased resets) refs next b) c')
    (h : Rest E c'.state.ibIndex (c'.state.cur :: c'.state.callers) t) :
    ∃ es t₁ t₂, c'.trace = b.trace ++ es ∧ es ++ t = t₁ ++ t₂ ∧
      Runs E c.state.ibIndex c.state.topOfStack (.after c.state.cur.curIb refs next) t₁ ∧
      Rest E c.state.ibIndex c.state.callers t₂ := by
  have hidle := (hq.stackOk hi).1.idle.rebased resets
  have hne := (hq.stackOk hi).2.1
  have hstate := hq.state_eq
  have hpend : (queuedOn (c.state.cur.rebased resets) refs next b).state.cur.pending =
      nonEmpty refs := pending_queuedOn hidle
  by_cases hch : ∃ q ∈ nonEmpty refs, q.ibType = .kChain
  · obtain ⟨q, hmem, hchain⟩ := hch
    obtain ⟨hone, -⟩ := hq.chain_alone hi hmem hchain
    rw [hone] at hpend
    cases ha with
    | idle hp =>
      rw [hp] at hpend
      cases hpend
    | call hp hc hl hcb =>
      rw [hp] at hpend
      cases hpend
      exact absurd hchain hc
    | @chain q' hp hc hr hend hcb =>
      rw [hp, List.cons.injEq] at hpend
      obtain rfl := hpend.1
      have hdone : (E.chainIb q' (queuedOn (c.state.cur.rebased resets) refs next b).state).cur.Idle := by
        have hlen := congrArg List.length hr
        have hlt := (pending_tail hp).1
        unfold chainIb IbStack.Idle
        dsimp only
        rw [List.length_singleton] at hlen
        omega
      rw [queuedOn_curVa, queuedOn_curIb, IbStack.rebased_curIb] at hend
      have hne' : (E.chainIb q' (queuedOn (c.state.cur.rebased resets) refs next b).state).callers
          ≠ [] := by
        rw [chainIb_callers, queuedOn_callers, hstate]
        exact hne
      rw [started_state, rest_idle hdone hne'] at h
      obtain ⟨t₁, t₂, rfl, h₁, h₂⟩ := h
      simp only [chainIb, queuedOn_callers, queuedOn_ibIndex, queuedOn_curIb, IbStack.rebased_curIb,
        hstate] at h₁ h₂
      refine ⟨_, _, t₂, rfl, ?_, .chained hone hchain hend h₁, h₂⟩
      unfold startEvent chainIb EmulateState.topOfStack
      simp only [queuedOn_callers, queuedOn_ibIndex, queuedOn_curIb, IbStack.rebased_curIb,
        hstate]
      rfl
  · obtain ⟨es, htrace, hrest⟩ := rest_advances (hq.ready hi) ha (by
      rw [hpend]
      exact fun q hmem hc => hch ⟨q, hmem, hc⟩) h
    obtain ⟨l, ls, hl⟩ := List.exists_cons_of_ne_nil hne
    rw [queuedOn_callers, queuedOn_ibIndex, hstate, hl] at hrest
    obtain ⟨t₁, t₂, t₃, ht, h₁, h₂, h₃⟩ := rest_cons.mp hrest
    rw [hpend] at h₁
    rw [queuedOn_curVa, queuedOn_curIb, IbStack.rebased_curIb] at h₂
    refine ⟨es, t₁ ++ t₂, t₃, htrace, ht, .called (fun q hmem => ⟨(hq.packetAt hi).not_normal hmem,
      fun hc => hch ⟨q, hmem, hc⟩⟩) ?_ ?_, ?_⟩
    · rw [EmulateState.topOfStack, hl]
      exact h₁
    · rw [EmulateState.topOfStack, hl]
      exact h₂
    · rw [hl]
      exact h₃

/-- **One iteration, read backward.** -/
theorem remaining_step (hi : Inv E c) (hstep : E.step c = .ok c') (h : Remaining E c' t) :
    ∃ es, c'.trace = c.trace ++ es ∧ Remaining E c (es ++ t) := by
  have hi' := inv_step hi hstep
  unfold Remaining
  cases stepCase_of_ok hi hstep with
  | @ring ibs _ hc ha =>
    subst hc
    obtain ⟨-, hp⟩ := stackOk_of_advances ha ready_ring
    unfold Remaining at h
    rw [hp] at h
    have hpend : (queuedOn primaryRing (ibs.map (·.queued)) parked (initial ibs)).state.cur.pending =
        nonEmpty (ibs.map (·.queued)) := pending_queuedOn (Eq.refl 0)
    obtain ⟨es, htrace, hrest⟩ := rest_advances ready_ring ha (fun q hq hc => by
      rw [(ready_ring.ring rfl).2 q hq] at hc
      cases hc) h
    have hrun := rest_ring.mp hrest
    rw [hpend] at hrun
    exact ⟨es, htrace, hrun⟩
  | goOn hp hs hin =>
    rw [hp]
    exact ⟨[], (List.append_nil _).symm, h⟩
  | @leave l ls _ hp hs hend hl ha =>
    obtain ⟨-, hp'⟩ := stackOk_of_advances ha (ready_left hs hl)
    unfold Remaining at h
    rw [hp', show (left l ls c).phase = c.phase from rfl, hp] at h
    have hc := hs.callers
    rw [hl] at hc
    obtain ⟨es, htrace, hrest⟩ := rest_advances (ready_left hs hl) ha
      (callersOk_cons hc).2.2.2.1 h
    rw [hp]
    dsimp only
    refine ⟨endEvent c.state.ibIndex c.state.cur.curIb ls.length :: es, ?_, ?_⟩
    · rw [htrace]
      unfold left
      dsimp only
      rw [List.append_assoc, List.singleton_append]
    · rw [hl, rest_idle hs.idle (List.cons_ne_nil _ _)]
      exact ⟨[_], es ++ t, rfl, .ended hend, hrest⟩
  | startBin hp hs hin hv hop hcb =>
    obtain ⟨endVa, t₁, t₂, hbin, rfl, h₁, h₂⟩ := h
    rw [hp]
    refine ⟨[packetEvent E c], rfl, ?_⟩
    dsimp only
    rw [rest_idle hs.idle hin.1]
    exact ⟨_, t₂, rfl, .packet hin.2 (.bins hv hop hbin) h₁, h₂⟩
  | lookAhead hp hop =>
    obtain ⟨endVa, t₁, t₂, hbin, rfl, h₁, h₂⟩ := h
    rw [hp]
    exact ⟨[], (List.append_nil _).symm, endVa, t₁, t₂, .next hop hbin, rfl, h₁, h₂⟩
  | queue hq hroom ha =>
    obtain ⟨-, hp'⟩ := stackOk_of_advances ha (hq.ready hi)
    unfold Remaining at h
    rw [hp'] at h
    obtain ⟨es, t₁, t₂, htrace, ht, h₁, h₂⟩ := after_advances hi hq ha h
    obtain ⟨hs, hin⟩ := hq.stackOk hi
    have hpk := hq.packetAt hi
    cases hq with
    | single hp _ hv hop hcb =>
      rw [hp]
      refine ⟨packetEvent E c :: es, ?_, ?_⟩
      · rw [htrace]
        unfold called
        dsimp only
        rw [List.append_assoc, List.singleton_append]
      · dsimp only
        rw [List.cons_append, ht, rest_idle hs.idle hin.1]
        exact ⟨_, t₂, rfl, .packet hin.2 hpk h₁, h₂⟩
    | bins hp hop =>
      rw [hp]
      exact ⟨es, htrace, _, t₁, t₂, .found hop, ht, h₁, h₂⟩

/-! ## Success -/

/-- The computation returns no success. -/
def Failing {α : Type} (x : Except Outcome α) : Prop := x ≠ .error .success

theorem failing_ok {α : Type} (a : α) : Failing (.ok a : Except Outcome α) := fun h => by cases h

theorem failing_failure {α : Type} (f : Failure) :
    Failing (.error (.failure f) : Except Outcome α) := fun h => by cases h

theorem failing_bind {α β : Type} {x : Except Outcome α} {f : α → Except Outcome β}
    (hx : Failing x) (hf : ∀ a, Failing (f a)) : Failing (x.bind f) := by
  cases x with
  | error r =>
    intro h
    obtain rfl : r = .success := Except.error.inj h
    exact hx rfl
  | ok a => exact hf a

theorem failing_emit (e : Event) (c : Config) : Failing (E.emit e c) := by
  unfold emit
  split_ifs
  · exact failing_ok _
  · exact failing_failure _

theorem failing_advanceToQueuedIB (c : Config) : Failing (E.advanceToQueuedIB c) := by
  unfold advanceToQueuedIB
  cases c.state.cur.pending with
  | nil => exact failing_ok _
  | cons q qs =>
    dsimp only
    split_ifs
    · exact failing_failure _
    · exact failing_emit _ _
    · exact failing_failure _
    · exact failing_emit _ _

theorem failing_queueAndAdvance (l : IbStack) (qs : List QueuedIb) (va : UInt64) (c : Config) :
    Failing (E.queueAndAdvance l qs va c) := by
  rw [queueAndAdvance_eq]
  split_ifs
  · exact failing_advanceToQueuedIB _
  · exact failing_failure _

theorem failing_advanceCb (h : Pm4Header) (c : Config) : Failing (E.advanceCb h c) := by
  unfold advanceCb
  dsimp only
  split_ifs <;> first | exact failing_queueAndAdvance _ _ _ _ | exact failing_ok _

theorem failing_executePacket (c : Config) : Failing (E.executePacket c) := by
  unfold executePacket
  dsimp only
  split_ifs
  · exact failing_bind (failing_emit _ _) fun c => failing_advanceCb _ c
  · exact failing_failure _

theorem failing_advanceOutOfIB (c : Config) : Failing (E.advanceOutOfIB c) := by
  unfold advanceOutOfIB
  cases c.state.callers with
  | nil => exact failing_failure _
  | cons l ls => exact failing_emit _ _

theorem success_at_ring (h : E.step c = .error .success) :
    c.phase = .fetch ∧ c.state.callers = [] := by
  unfold step at h
  cases hp : c.phase with
  | start ibs =>
    rw [hp] at h
    exact absurd h (failing_queueAndAdvance _ _ _ _)
  | check =>
    rw [hp] at h
    dsimp only at h
    split_ifs at h
    exact absurd h (failing_bind (failing_advanceOutOfIB _) fun c => failing_advanceToQueuedIB c)
  | fetch =>
    rw [hp] at h
    dsimp only at h
    split_ifs at h with htop
    · exact ⟨rfl, List.length_eq_zero_iff.mp htop⟩
    · exact absurd h (failing_executePacket _)
  | lookAhead hd packet tempVa =>
    rw [hp] at h
    dsimp only at h
    unfold lookAhead at h
    dsimp only at h
    split_ifs at h
    exact absurd h (failing_queueAndAdvance _ _ _ _)

/-- **The trace of a successful submit** is one of its IBs of nonzero size, in order. -/
theorem submitRuns_of_succeeds (h : E.Succeeds ibs t) :
    SubmitRuns E 0 (nonEmpty (ibs.map (·.queued))) t := by
  obtain ⟨cf, hreach, hdone, rfl⟩ := h
  have hfinal : Remaining E cf [] := by
    obtain ⟨hp, hcallers⟩ := success_at_ring hdone
    have hi := inv_reachable hreach
    unfold Inv at hi
    unfold Remaining
    rw [hp] at hi ⊢
    dsimp only at hi ⊢
    rw [hcallers, rest_ring, hi.1.idle.pending]
    exact .nil
  have key : ∃ t, cf.trace = (initial ibs).trace ++ t ∧ Remaining E (initial ibs) t := by
    refine Machine.Reaches.backward (P := fun c => ∃ t, cf.trace = c.trace ++ t ∧ Remaining E c t)
      hreach ⟨[], (List.append_nil _).symm, hfinal⟩ ?_
    rintro u v hu huv ⟨t, ht, hrest⟩
    obtain ⟨es, htrace, hrest'⟩ := remaining_step (inv_reachable hu) huv hrest
    exact ⟨es ++ t, by rw [ht, htrace, List.append_assoc], hrest'⟩
  obtain ⟨t, ht, hrest⟩ := key
  rw [ht]
  exact hrest

/-- The calls of a run that succeeds after `n` iterations. -/
def successTrace (E : Emulation) (ibs : List IndirectBufferInfo) (n : ℕ) : Option (List Event) :=
  match Machine.runFor E.step n (initial ibs) with
  | .ok c => if E.step c matches .error .success then some c.trace else none
  | .error _ => none

theorem succeeds_of_successTrace {n : ℕ} (h : E.successTrace ibs n = some t) :
    E.Succeeds ibs t := by
  unfold successTrace at h
  cases hrun : Machine.runFor E.step n (initial ibs) with
  | error r =>
    rw [hrun] at h
    cases h
  | ok c =>
    rw [hrun] at h
    dsimp only at h
    split_ifs at h with hdone
    cases h
    refine ⟨c, Machine.reaches_of_runFor hrun, ?_, rfl⟩
    revert hdone
    split
    · exact fun _ => by assumption
    · exact fun h => absurd h Bool.false_ne_true

end Emulation

end Dive
