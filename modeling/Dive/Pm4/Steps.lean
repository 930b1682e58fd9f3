import Dive.Pm4.Reference

/-!
# What one iteration of the emulator can do

* `Advances`: the cases of `AdvanceToQueuedIB`; `advanceCb_eq`: every packet but `CP_START_BIN`
  queues its references and goes on.
* **`Inv`**, `inv_reachable`: the shape of the IB stack in every reachable configuration.
* **`StepCase`**, `stepCase_of_ok`: the cases of an iteration.
-/

namespace Dive

namespace Emulation

variable {E : Emulation} {c c' : Config} {l : IbStack} {q : QueuedIb} {qs : List QueuedIb}
  {va : UInt64} {h : Pm4Header}

/-! ## The cases of a start -/

/-- The configuration after the call `e`. -/
def called (e : Event) (c : Config) : Config := { c with trace := c.trace ++ [e] }

theorem emit_ok {e : Event} : E.emit e c = .ok c' ↔
    E.callbacks c.trace e = true ∧ c' = called e c := by
  unfold emit called
  split_ifs with h
  · simp [h, eq_comm]
  · simp [h]

/-- The configuration after the start of an IB, at state `s`. -/
def started (q : QueuedIb) (s : EmulateState) (c : Config) : Config :=
  { c with state := s, trace := c.trace ++ [startEvent q s] }

@[simp] theorem started_state (q : QueuedIb) (s : EmulateState) (c : Config) :
    (started q s c).state = s := rfl

@[simp] theorem chainIb_callers (q : QueuedIb) (s : EmulateState) :
    (E.chainIb q s).callers = s.callers := rfl

@[simp] theorem chainIb_ibIndex (q : QueuedIb) (s : EmulateState) :
    (E.chainIb q s).ibIndex = s.ibIndex := rfl

theorem advanceToQueuedIB_nil (hp : c.state.cur.pending = []) : E.advanceToQueuedIB c = .ok c := by
  unfold advanceToQueuedIB
  rw [hp]

theorem advanceToQueuedIB_call (hp : c.state.cur.pending = q :: qs) (hq : q.ibType ≠ .kChain)
    (hl : c.state.topOfStack + 1 < kTotalIbLevels)
    (hcb : E.callbacks c.trace (startEvent q (E.callIb q c.state)) = true) :
    E.advanceToQueuedIB c = .ok (started q (E.callIb q c.state) c) := by
  unfold advanceToQueuedIB
  rw [hp]
  dsimp only
  rw [if_pos hq, if_neg (not_le.mpr hl)]
  exact emit_ok.mpr ⟨hcb, rfl⟩

/-- What `AdvanceToQueuedIB` does to configuration `b` when it succeeds. -/
inductive Advances (E : Emulation) (b : Config) : Config → Prop
  | idle (hp : b.state.cur.pending = []) : Advances E b b
  | call {q : QueuedIb} {qs : List QueuedIb} (hp : b.state.cur.pending = q :: qs)
      (hq : q.ibType ≠ .kChain) (hl : b.state.topOfStack + 1 < kTotalIbLevels)
      (hcb : E.callbacks b.trace (startEvent q (E.callIb q b.state)) = true) :
      Advances E b (started q (E.callIb q b.state) b)
  | chain {q : QueuedIb} (hp : b.state.cur.pending = [q]) (hq : q.ibType = .kChain)
      (hr : b.state.cur.ibQueue = [q]) (hend : b.state.cur.curVa = b.state.cur.curIb.endAddr)
      (hcb : E.callbacks b.trace (startEvent q (E.chainIb q b.state)) = true) :
      Advances E b (started q (E.chainIb q b.state) b)

/-- A pending chained IB is the only entry of the queue. -/
def IbStack.ChainsAlone (l : IbStack) : Prop :=
  ∀ q ∈ l.pending, q.ibType = .kChain → l.pending = [q] ∧ l.ibQueue = [q]

theorem advances_of_ok (hch : IbStack.ChainsAlone c.state.cur)
    (h : E.advanceToQueuedIB c = .ok c') : Advances E c c' := by
  unfold advanceToQueuedIB at h
  cases hp : c.state.cur.pending with
  | nil =>
    rw [hp] at h
    cases h
    exact .idle hp
  | cons q qs =>
    rw [hp] at h
    dsimp only at h
    by_cases hq : q.ibType = .kChain
    · obtain ⟨hp', hr⟩ := hch q (hp ▸ List.mem_cons_self) hq
      rw [if_neg (not_not.mpr hq), hr, List.headD_cons] at h
      split_ifs at h with hend
      obtain ⟨hcb, rfl⟩ := emit_ok.mp h
      exact .chain hp' hq hr (not_not.mp hend) hcb
    · rw [if_pos hq] at h
      split_ifs at h with hl
      obtain ⟨hcb, rfl⟩ := emit_ok.mp h
      exact .call hp hq (not_le.mp hl) hcb

/-- The configuration with the IBs queued on level `l`, which goes on at `va`. -/
def queuedOn (l : IbStack) (qs : List QueuedIb) (va : UInt64) (c : Config) : Config :=
  advancePacket { l with ibQueue := l.ibQueue ++ nonEmpty qs } va c

@[simp] theorem queuedOn_curVa : (queuedOn l qs va c).state.cur.curVa = va := rfl

@[simp] theorem queuedOn_curIb : (queuedOn l qs va c).state.cur.curIb = l.curIb := rfl

@[simp] theorem queuedOn_callers : (queuedOn l qs va c).state.callers = c.state.callers := rfl

@[simp] theorem queuedOn_ibIndex : (queuedOn l qs va c).state.ibIndex = c.state.ibIndex := rfl

@[simp] theorem queuedOn_trace : (queuedOn l qs va c).trace = c.trace := rfl

theorem queueAndAdvance_eq : E.queueAndAdvance l qs va c =
    if l.HasRoom (nonEmpty qs).length then E.advanceToQueuedIB (queuedOn l qs va c)
    else .error (.failure .queueFull) := by
  unfold queueAndAdvance queuedOn advancePacket
  rw [IbStack.queueIBs_eq]
  split_ifs <;> rfl

theorem pending_queuedOn (hl : l.Idle) :
    (queuedOn l qs va c).state.cur.pending = nonEmpty qs := by
  have hi : l.ibQueueIndex = l.ibQueue.length := hl
  unfold queuedOn advancePacket IbStack.pending
  dsimp only
  rw [hi, List.drop_left]

theorem queueAndAdvance_ok (hl : l.Idle)
    (hch : ∀ q ∈ nonEmpty qs, q.ibType = .kChain → nonEmpty qs = [q] ∧ l.ibQueue = [])
    (h : E.queueAndAdvance l qs va c = .ok c') :
    l.HasRoom (nonEmpty qs).length ∧ Advances E (queuedOn l qs va c) c' := by
  rw [queueAndAdvance_eq] at h
  split_ifs at h with hr
  refine ⟨hr, advances_of_ok (fun q hq hc => ?_) h⟩
  rw [pending_queuedOn hl] at hq ⊢
  obtain ⟨hone, hnil⟩ := hch q hq hc
  refine ⟨hone, ?_⟩
  unfold queuedOn advancePacket
  dsimp only
  rw [hnil, hone, List.nil_append]

theorem queuedOn_nil (hq : nonEmpty qs = []) : queuedOn l qs va c = advancePacket l va c := by
  unfold queuedOn
  rw [hq, List.append_nil]

theorem queueAndAdvance_nil (hl : l.Idle) (hq : nonEmpty qs = []) :
    E.queueAndAdvance l qs va c = .ok (advancePacket l va c) := by
  have hr : l.HasRoom (nonEmpty qs).length := Or.inl (by rw [hq]; rfl)
  have hp : (queuedOn l qs va c).state.cur.pending = [] := by rw [pending_queuedOn hl, hq]
  rw [queueAndAdvance_eq, if_pos hr, advanceToQueuedIB_nil hp, queuedOn_nil hq]

theorem advanceCb_startBin (hh : h.isOpcode CP_START_BIN = true) :
    E.advanceCb h c = .ok { c with
      phase := .lookAhead h (E.packetAt c.state.cur.curVa 24) c.state.cur.curVa } := by
  have hne : ∀ {op : UInt32}, CP_START_BIN ≠ op → ¬ h.isOpcode op = true :=
    fun hne ho => hne (isOpcode_unique hh ho)
  unfold advanceCb
  rw [if_neg (by
      rw [Bool.or_eq_true, Bool.or_eq_true]
      exact fun ho => ho.elim (fun ho => ho.elim (hne (by decide)) (hne (by decide)))
        (hne (by decide))),
    if_neg (hne (by decide)), if_neg (hne (by decide)), if_pos hh]

/-- **Every packet but `CP_START_BIN`** queues its references and goes on after it. -/
theorem advanceCb_eq (hl : c.state.cur.Idle) (hh : h.isOpcode CP_START_BIN = false) :
    E.advanceCb h c = E.queueAndAdvance (c.state.cur.rebased (E.resetsQueue h c.state.cur.curVa))
      (E.packetRefs h c.state.cur.curVa) (c.state.cur.curVa + packetBytes h) c := by
  unfold advanceCb IbStack.rebased packetRefs resetsQueue
  dsimp only
  rw [hh]
  by_cases h₁ : (h.isOpcode CP_INDIRECT_BUFFER_PFE || h.isOpcode CP_INDIRECT_BUFFER_PFD ||
      h.isOpcode CP_INDIRECT_BUFFER_CHAIN) = true
  · rw [if_pos h₁, if_pos h₁, h₁, Bool.true_or, Bool.true_or, if_pos rfl]
  rw [if_neg h₁, if_neg h₁]
  rw [Bool.not_eq_true] at h₁
  rw [h₁, Bool.false_or]
  by_cases h₂ : h.isOpcode CP_SET_AMBLE = true
  · have h₃ : h.isOpcode CP_SET_DRAW_STATE = false := by
      rw [← Bool.not_eq_true]
      exact fun h₃ => absurd (isOpcode_unique h₂ h₃) (by decide)
    rw [if_pos h₂, if_pos h₂, h₂, h₃, Bool.true_and, Bool.or_false]
    by_cases hz : (E.packetAt c.state.cur.curVa ((h.type7Count + 1).toUInt64 * 4)).amble.sizeInDwords
        = 0
    · rw [if_neg (not_not.mpr hz), if_neg (by simpa using hz), queueAndAdvance_nil hl]
      rw [nonEmpty_cons, if_pos hz]
      rfl
    · rw [if_pos hz, if_pos (by simpa using hz)]
  rw [if_neg h₂, if_neg h₂]
  rw [Bool.not_eq_true] at h₂
  rw [h₂, Bool.false_and, Bool.false_or]
  by_cases h₃ : h.isOpcode CP_SET_DRAW_STATE = true
  · rw [if_pos h₃, if_pos h₃, if_pos h₃]
    split_ifs with hd
    · rfl
    · rw [queueAndAdvance_nil (IbStack.idle_resetQueue _)]
      rw [not_not.mp hd]
      rfl
  rw [if_neg h₃, if_neg h₃, if_neg h₃, if_neg Bool.false_ne_true]
  split_ifs
  · rfl
  · rw [queueAndAdvance_nil hl rfl]

/-! ## The shape of the IB stack -/

/-- The callers of a level: all queue positions are in bounds; at the bottom is the primary ring,
with normal IBs pending; between are levels with called IBs pending. -/
def CallersOk : List IbStack → Prop
  | [] => True
  | [ring] => ring.curVa = parked ∧ ring.ibQueueIndex ≤ ring.ibQueue.length ∧
      ∀ q ∈ ring.pending, q.ibType = .kNormal
  | l :: l' :: ls => l.ibQueueIndex ≤ l.ibQueue.length ∧
      (∀ q ∈ l.pending, q.ibType ≠ .kNormal ∧ q.ibType ≠ .kChain) ∧ CallersOk (l' :: ls)

/-- The emulator is inside an IB, and not at its end. -/
def Inside (s : EmulateState) : Prop :=
  s.callers ≠ [] ∧ ¬ (s.cur.curVa ≠ parked ∧ s.cur.endOfCurIb = true)

/-- The IB stack when the queue of the current level has run. -/
structure StackOk (s : EmulateState) : Prop where
  idle : s.cur.Idle
  callers : CallersOk s.callers
  ring : s.callers = [] → s.cur.curVa = parked
  depth : s.topOfStack < kTotalIbLevels

variable (E) in
/-- What holds whenever an iteration is about to run. -/
def Inv (c : Config) : Prop :=
  match c.phase with
  | .start ibs => c = initial ibs
  | .check => StackOk c.state
  | .fetch => StackOk c.state ∧ (c.state.callers ≠ [] → Inside c.state)
  | .lookAhead h packet tempVa => StackOk c.state ∧ Inside c.state ∧
      (E.headerAt c.state.cur.curVa).isValid = true ∧
      (E.headerAt c.state.cur.curVa).isOpcode CP_START_BIN = true ∧
      h = E.headerAt c.state.cur.curVa ∧ packet = E.packetAt c.state.cur.curVa 24 ∧
      ∀ endVa, EndBin E tempVa endVa → EndBin E c.state.cur.curVa endVa

theorem callersOk_cons {ls : List IbStack} (hc : CallersOk (l :: ls)) :
    l.ibQueueIndex ≤ l.ibQueue.length ∧ (ls = [] → l.curVa = parked ∧ ∀ q ∈ l.pending,
      q.ibType = .kNormal) ∧ (ls ≠ [] → ∀ q ∈ l.pending, q.ibType ≠ .kNormal) ∧
      (∀ q ∈ l.pending, q.ibType ≠ .kChain) ∧ CallersOk ls := by
  cases ls with
  | nil =>
    obtain ⟨hp, hi, hq⟩ := hc
    exact ⟨hi, fun _ => ⟨hp, hq⟩, fun h => absurd rfl h,
      fun q h h' => IbType.noConfusion ((hq q h).symm.trans h'), trivial⟩
  | cons l' ls =>
    obtain ⟨hi, hq, hls⟩ := hc
    exact ⟨hi, fun h => absurd h (List.cons_ne_nil _ _), fun _ q h => (hq q h).1, fun q h => (hq q h).2, hls⟩

theorem callersOk_of_cons {ls : List IbStack} (hi : l.ibQueueIndex ≤ l.ibQueue.length)
    (hring : ls = [] → l.curVa = parked ∧ ∀ q ∈ l.pending, q.ibType = .kNormal)
    (hcall : ls ≠ [] → ∀ q ∈ l.pending, q.ibType ≠ .kNormal)
    (hchain : ∀ q ∈ l.pending, q.ibType ≠ .kChain) (hls : CallersOk ls) :
    CallersOk (l :: ls) := by
  cases ls with
  | nil => exact ⟨(hring rfl).1, hi, (hring rfl).2⟩
  | cons l' ls =>
    exact ⟨hi, fun q hq => ⟨hcall (List.cons_ne_nil _ _) q hq, hchain q hq⟩, hls⟩

/-- The IB stack when `AdvanceToQueuedIB` is called. -/
structure Ready (s : EmulateState) : Prop where
  index : s.cur.ibQueueIndex ≤ s.cur.ibQueue.length
  callers : CallersOk s.callers
  ring : s.callers = [] → s.cur.curVa = parked ∧ ∀ q ∈ s.cur.pending, q.ibType = .kNormal
  called : s.callers ≠ [] → ∀ q ∈ s.cur.pending, q.ibType ≠ .kNormal
  chains : IbStack.ChainsAlone s.cur
  depth : s.topOfStack < kTotalIbLevels

theorem pending_tail (hp : l.pending = q :: qs) : l.ibQueueIndex < l.ibQueue.length ∧
    IbStack.pending { l with ibQueueIndex := l.ibQueueIndex + 1 } = qs := by
  unfold IbStack.pending at hp ⊢
  constructor
  · by_contra hc
    rw [List.drop_eq_nil_of_le (not_lt.mp hc)] at hp
    cases hp
  · rw [← List.drop_drop, hp, List.drop_succ_cons, List.drop_zero]

theorem stackOk_of_advances {b : Config} (ha : Advances E b c') (hr : Ready b.state) :
    StackOk c'.state ∧ c'.phase = b.phase := by
  cases ha with
  | idle hp =>
    have hlen := congrArg List.length hp
    rw [IbStack.pending, List.length_drop, List.length_nil] at hlen
    have := hr.index
    exact ⟨⟨by unfold IbStack.Idle; omega, hr.callers, fun h => (hr.ring h).1, hr.depth⟩, rfl⟩
  | @call q qs hp hq hl hcb =>
    obtain ⟨hlt, htail⟩ := pending_tail hp
    have hsub : ∀ q' ∈ qs, q' ∈ b.state.cur.pending := fun q' h => hp ▸ List.mem_cons_of_mem q h
    refine ⟨⟨rfl, ?_, fun h => absurd h (List.cons_ne_nil _ _), hl⟩, rfl⟩
    refine callersOk_of_cons hlt (fun h => ⟨(hr.ring h).1, fun q' h' => ?_⟩)
      (fun h q' h' => ?_) (fun q' h' hc => ?_) hr.callers
    · rw [htail] at h'
      exact (hr.ring h).2 q' (hsub q' h')
    · rw [htail] at h'
      exact hr.called h q' (hsub q' h')
    · -- a chained entry would stand alone, so the called one would be it
      rw [htail] at h'
      have hone := (hr.chains q' (hsub q' h') hc).1
      rw [hp, List.cons.injEq] at hone
      rw [hone.2] at h'
      exact absurd h' List.not_mem_nil
  | @chain q hp hq hq' hend hcb =>
    obtain ⟨hlt, -⟩ := pending_tail hp
    have hmem : q ∈ b.state.cur.pending := hp ▸ List.mem_cons_self
    refine ⟨⟨?_, hr.callers, fun h => ?_, hr.depth⟩, rfl⟩
    · have hlen := congrArg List.length hq'
      rw [List.length_singleton] at hlen
      unfold IbStack.Idle started chainIb
      dsimp only
      omega
    · rw [(hr.ring h).2 q hmem] at hq
      cases hq

/-- The configuration after the end of the current IB, above `l` and `ls`. -/
def left (l : IbStack) (ls : List IbStack) (c : Config) : Config :=
  { c with state := { c.state with cur := l, callers := ls },
           trace := c.trace ++ [endEvent c.state.ibIndex c.state.cur.curIb ls.length] }

theorem ready_left {ls : List IbStack} (hs : StackOk c.state) (hl : c.state.callers = l :: ls) :
    Ready (left l ls c).state := by
  have hc := hs.callers
  rw [hl] at hc
  obtain ⟨hi, hring, hcall, hchain, hls⟩ := callersOk_cons hc
  have hd := hs.depth
  unfold EmulateState.topOfStack at hd
  rw [hl, List.length_cons] at hd
  exact ⟨hi, hls, hring, hcall, fun q hq h => absurd h (hchain q hq), Nat.lt_of_succ_lt hd⟩

theorem ready_queuedOn (hs : StackOk c.state) (hl : l.Idle) (hin : c.state.callers ≠ [])
    (hn : ∀ q ∈ nonEmpty qs, q.ibType ≠ .kNormal)
    (hch : ∀ q ∈ nonEmpty qs, q.ibType = .kChain → nonEmpty qs = [q] ∧ l.ibQueue = []) :
    Ready (queuedOn l qs va c).state := by
  refine ⟨?_, hs.callers, fun h => absurd h hin, fun _ => ?_, ?_, hs.depth⟩
  · have hi : l.ibQueueIndex = l.ibQueue.length := hl
    unfold queuedOn advancePacket
    dsimp only
    rw [hi, List.length_append]
    exact Nat.le_add_right _ _
  · rw [pending_queuedOn hl]
    exact hn
  · intro q hq hc
    rw [pending_queuedOn hl] at hq ⊢
    obtain ⟨hone, hnil⟩ := hch q hq hc
    refine ⟨hone, ?_⟩
    unfold queuedOn advancePacket
    dsimp only
    rw [hnil, hone, List.nil_append]

theorem ready_ring {ibs : List IndirectBufferInfo} :
    Ready (queuedOn primaryRing (ibs.map (·.queued)) parked (initial ibs)).state := by
  have hp : (queuedOn primaryRing (ibs.map (·.queued)) parked (initial ibs)).state.cur.pending =
      nonEmpty (ibs.map (·.queued)) := pending_queuedOn (Eq.refl 0)
  have hn : ∀ q ∈ nonEmpty (ibs.map (·.queued)), q.ibType = .kNormal := by
    intro q hq
    obtain ⟨info, -, rfl⟩ := List.mem_map.mp (mem_nonEmpty.mp hq).1
    rfl
  have hd : 0 < kTotalIbLevels := by decide
  refine ⟨Nat.zero_le _, trivial, fun _ => ⟨rfl, hp ▸ hn⟩, fun h => absurd rfl h,
    fun q hq hc => ?_, hd⟩
  rw [hp] at hq
  rw [hn q hq] at hc
  cases hc

theorem Inv.stackOk (hi : Inv E c) : (∃ ibs, c = initial ibs) ∨ StackOk c.state := by
  unfold Inv at hi
  cases hp : c.phase with
  | start ibs =>
    rw [hp] at hi
    exact Or.inl ⟨ibs, hi⟩
  | check =>
    rw [hp] at hi
    exact Or.inr hi
  | fetch =>
    rw [hp] at hi
    exact Or.inr hi.1
  | lookAhead h packet tempVa =>
    rw [hp] at hi
    exact Or.inr hi.1

theorem Inv.depth (hi : Inv E c) : c.state.topOfStack < kTotalIbLevels := by
  rcases hi.stackOk with ⟨ibs, rfl⟩ | hs
  · have h : 0 < kTotalIbLevels := by decide
    exact h
  · exact hs.depth

/-! ## One iteration -/

theorem step_goOn (hp : c.phase = .check)
    (hin : ¬ (c.state.cur.curVa ≠ parked ∧ c.state.cur.endOfCurIb = true)) :
    E.step c = .ok { c with phase := .fetch } := by
  unfold step
  rw [hp]
  dsimp only
  rw [if_neg hin]

/-- The call for the packet at the current address. -/
def packetEvent (E : Emulation) (c : Config) : Event :=
  .packet c.state.ibIndex c.state.cur.curVa (E.headerAt c.state.cur.curVa)

/-- In configuration `c` a packet is about to queue `refs` and to go on at `next`, as in `b`. -/
inductive Queues (E : Emulation) (c : Config) : Bool → List QueuedIb → UInt64 → Config → Prop
  | single (hp : c.phase = .fetch) (hin : Inside c.state)
      (hv : (E.headerAt c.state.cur.curVa).isValid = true)
      (hop : (E.headerAt c.state.cur.curVa).isOpcode CP_START_BIN = false)
      (hcb : E.callbacks c.trace (packetEvent E c) = true) :
      Queues E c (E.resetsQueue (E.headerAt c.state.cur.curVa) c.state.cur.curVa)
        (E.packetRefs (E.headerAt c.state.cur.curVa) c.state.cur.curVa)
        (c.state.cur.curVa + packetBytes (E.headerAt c.state.cur.curVa))
        (called (packetEvent E c) c)
  | bins {h : Pm4Header} {packet : Pm4Packet} {tempVa : UInt64}
      (hp : c.phase = .lookAhead h packet tempVa)
      (hop : (E.headerAt tempVa).isOpcode CP_END_BIN = true) :
      Queues E c false (E.binRefs c.state.cur.curVa tempVa) (E.binsNext c.state.cur.curVa tempVa) c

variable {resets : Bool} {refs : List QueuedIb} {next : UInt64} {b : Config}

theorem Queues.state_eq (hq : Queues E c resets refs next b) : b.state = c.state := by
  cases hq <;> rfl

theorem Queues.stackOk (hi : Inv E c) (hq : Queues E c resets refs next b) :
    StackOk c.state ∧ Inside c.state := by
  unfold Inv at hi
  cases hq with
  | single hp hin hv hop hcb =>
    rw [hp] at hi
    exact ⟨hi.1, hin⟩
  | bins hp hop =>
    rw [hp] at hi
    exact ⟨hi.1, hi.2.1⟩

theorem Queues.packetAt (hi : Inv E c) (hq : Queues E c resets refs next b) :
    PacketAt E c.state.cur.curVa resets refs next := by
  unfold Inv at hi
  cases hq with
  | single hp hin hv hop hcb => exact .single hv hop
  | bins hp hop =>
    rw [hp] at hi
    obtain ⟨-, -, hv, hstart, -, -, hend⟩ := hi
    exact .bins hv hstart (hend _ (.found hop))

theorem Queues.step_eq (hi : Inv E c) (hq : Queues E c resets refs next b) :
    E.step c = E.queueAndAdvance (c.state.cur.rebased resets) refs next b := by
  have hs := (hq.stackOk hi).1
  unfold Inv at hi
  unfold step
  cases hq with
  | single hp hin hv hop hcb =>
    have hemit : E.emit (packetEvent E c) c = .ok (called (packetEvent E c) c) :=
      emit_ok.mpr ⟨hcb, rfl⟩
    unfold packetEvent at hemit
    have htop : ¬ c.state.topOfStack = 0 := fun h => hin.1 (List.length_eq_zero_iff.mp h)
    rw [hp]
    dsimp only
    rw [if_neg htop, executePacket]
    rw [if_pos hv, hemit]
    exact advanceCb_eq (E := E) (c := called (packetEvent E c) c) hs.idle hop
  | bins hp hop =>
    rw [hp] at hi
    obtain ⟨-, -, -, -, rfl, rfl, -⟩ := hi
    rw [hp]
    dsimp only
    rw [lookAhead]
    dsimp only
    rw [if_pos hop]
    rfl

theorem Queues.chain_alone (hi : Inv E c) (hq : Queues E c resets refs next b)
    (hmem : q ∈ nonEmpty refs) (hc : q.ibType = .kChain) :
    nonEmpty refs = [q] ∧ (c.state.cur.rebased resets).ibQueue = [] := by
  obtain ⟨hone, rfl⟩ := (hq.packetAt hi).chain_alone hmem hc
  exact ⟨hone, rfl⟩

theorem Queues.ready (hi : Inv E c) (hq : Queues E c resets refs next b) :
    Ready (queuedOn (c.state.cur.rebased resets) refs next b).state := by
  obtain ⟨hs, hin⟩ := hq.stackOk hi
  have hb : StackOk b.state := hq.state_eq ▸ hs
  refine ready_queuedOn hb (hs.idle.rebased resets) (hq.state_eq ▸ hin.1)
    (fun q hmem => (hq.packetAt hi).not_normal hmem) fun q hmem hc => hq.chain_alone hi hmem hc

theorem Queues.advances (hi : Inv E c) (hq : Queues E c resets refs next b)
    (h : E.step c = .ok c') : (c.state.cur.rebased resets).HasRoom (nonEmpty refs).length ∧
      Advances E (queuedOn (c.state.cur.rebased resets) refs next b) c' := by
  rw [hq.step_eq hi] at h
  exact queueAndAdvance_ok ((hq.stackOk hi).1.idle.rebased resets)
    (fun q hmem hc => hq.chain_alone hi hmem hc) h

/-- What one successful iteration does to `c`. -/
inductive StepCase (E : Emulation) (c : Config) : Config → Prop
  | ring {ibs : List IndirectBufferInfo} {c' : Config} (hc : c = initial ibs)
      (ha : Advances E (queuedOn primaryRing (ibs.map (·.queued)) parked c) c') : StepCase E c c'
  | goOn (hp : c.phase = .check) (hs : StackOk c.state)
      (hin : ¬ (c.state.cur.curVa ≠ parked ∧ c.state.cur.endOfCurIb = true)) :
      StepCase E c { c with phase := .fetch }
  | leave {l : IbStack} {ls : List IbStack} {c' : Config} (hp : c.phase = .check)
      (hs : StackOk c.state) (hend : c.state.cur.curVa ≠ parked ∧ c.state.cur.endOfCurIb = true)
      (hl : c.state.callers = l :: ls) (ha : Advances E (left l ls c) c') : StepCase E c c'
  | startBin (hp : c.phase = .fetch) (hs : StackOk c.state) (hin : Inside c.state)
      (hv : (E.headerAt c.state.cur.curVa).isValid = true)
      (hop : (E.headerAt c.state.cur.curVa).isOpcode CP_START_BIN = true)
      (hcb : E.callbacks c.trace (packetEvent E c) = true) :
      StepCase E c { called (packetEvent E c) c with
        phase := .lookAhead (E.headerAt c.state.cur.curVa) (E.packetAt c.state.cur.curVa 24)
          c.state.cur.curVa }
  | lookAhead {h : Pm4Header} {packet : Pm4Packet} {tempVa : UInt64}
      (hp : c.phase = .lookAhead h packet tempVa)
      (hop : (E.headerAt tempVa).isOpcode CP_END_BIN = false) :
      StepCase E c { c with
        phase := .lookAhead h packet (tempVa + packetBytes (E.headerAt tempVa)) }
  | queue {resets : Bool} {refs : List QueuedIb} {next : UInt64} {b c' : Config}
      (hq : Queues E c resets refs next b)
      (hroom : (c.state.cur.rebased resets).HasRoom (nonEmpty refs).length)
      (ha : Advances E (queuedOn (c.state.cur.rebased resets) refs next b) c') : StepCase E c c'

/-- **The cases of an iteration.** -/
theorem stepCase_of_ok (hi : Inv E c) (h : E.step c = .ok c') : StepCase E c c' := by
  have hqueue : ∀ {resets refs next b}, Queues E c resets refs next b → StepCase E c c' := by
    intro resets refs next b hq
    obtain ⟨hroom, ha⟩ := hq.advances hi h
    exact .queue hq hroom ha
  have hi' := hi
  unfold step at h
  unfold Inv at hi
  cases hp : c.phase with
  | start ibs =>
    rw [hp] at h hi
    dsimp only at h hi
    subst hi
    have hn : ∀ q ∈ nonEmpty (ibs.map (·.queued)), q.ibType ≠ .kChain := by
      intro q hq
      obtain ⟨info, -, rfl⟩ := List.mem_map.mp (mem_nonEmpty.mp hq).1
      exact IbType.noConfusion
    exact .ring rfl (queueAndAdvance_ok (l := primaryRing) (Eq.refl _)
      (fun q hq hc => absurd hc (hn q hq)) h).2
  | check =>
    rw [hp] at h hi
    dsimp only at h hi
    split_ifs at h with hend
    · obtain ⟨c₁, h₁, h₂⟩ := Machine.bind_eq_ok.mp h
      unfold advanceOutOfIB at h₁
      cases hl : c.state.callers with
      | nil => exact absurd (hi.ring hl) hend.1
      | cons l ls =>
        rw [hl] at h₁
        obtain ⟨-, rfl⟩ := emit_ok.mp h₁
        exact .leave hp hi hend hl (advances_of_ok (ready_left hi hl).chains h₂)
    · cases h
      exact .goOn hp hi hend
  | fetch =>
    rw [hp] at h hi
    dsimp only at h hi
    obtain ⟨hs, hin⟩ := hi
    split_ifs at h with htop
    have hin := hin fun hn => htop (List.length_eq_zero_iff.mpr hn)
    unfold executePacket at h
    dsimp only at h
    split_ifs at h with hv
    obtain ⟨c₁, h₁, h₂⟩ := Machine.bind_eq_ok.mp h
    obtain ⟨hcb, rfl⟩ := emit_ok.mp h₁
    by_cases hop : (E.headerAt c.state.cur.curVa).isOpcode CP_START_BIN = true
    · rw [advanceCb_startBin hop] at h₂
      cases h₂
      exact .startBin hp hs hin hv hop hcb
    · rw [Bool.not_eq_true] at hop
      exact hqueue (.single hp hin hv hop hcb)
  | lookAhead hd packet tempVa =>
    rw [hp] at h hi
    dsimp only at h hi
    by_cases hop : (E.headerAt tempVa).isOpcode CP_END_BIN = true
    · exact hqueue (.bins hp hop)
    · unfold lookAhead at h
      dsimp only at h
      rw [if_neg hop] at h
      cases h
      exact .lookAhead hp (Bool.not_eq_true _ ▸ hop)

/-- **The invariant** holds after every iteration. -/
theorem inv_step (hi : Inv E c) (h : E.step c = .ok c') : Inv E c' := by
  cases stepCase_of_ok hi h with
  | ring hc ha =>
    subst hc
    obtain ⟨hs, hp⟩ := stackOk_of_advances ha ready_ring
    unfold Inv
    rw [hp]
    exact hs
  | goOn hp hs hin => exact ⟨hs, fun hne => ⟨hne, hin⟩⟩
  | leave hp hs hend hl ha =>
    obtain ⟨hs', hp'⟩ := stackOk_of_advances ha (ready_left hs hl)
    unfold Inv
    rw [hp', show (left _ _ c).phase = c.phase from rfl, hp]
    exact hs'
  | startBin hp hs hin hv hop hcb => exact ⟨hs, hin, hv, hop, rfl, rfl, fun _ h => h⟩
  | lookAhead hp hop =>
    unfold Inv at hi ⊢
    rw [hp] at hi
    obtain ⟨hs, hin, hv, hstart, hh, hpk, hend⟩ := hi
    exact ⟨hs, hin, hv, hstart, hh, hpk, fun endVa he => hend endVa (.next hop he)⟩
  | queue hq hroom ha =>
    obtain ⟨hs', hp'⟩ := stackOk_of_advances ha (hq.ready hi)
    unfold Inv
    rw [hp']
    exact hs'

theorem inv_reachable {ibs : List IndirectBufferInfo} (h : E.Reachable ibs c) : Inv E c :=
  Machine.Reaches.invariant h rfl fun _ _ _ huv hi => inv_step hi huv

end Emulation

end Dive
