import Dive.Lib.Fuel
import Dive.Pm4.Runs

/-!
# The emulation as a recursive program

* `interpret`: a submit, by recursion over the IBs that its packets reference: an IB is a call, a
  chained IB a jump, and there is no stack.
* `follows_interpretIbs`, `follows_interpretBody`: a queue and an IB of the emulator.
* **`interpret_iff`**: the emulator succeeds with the calls, and fails with the failures, of the
  program.
-/

namespace Dive

namespace Emulation

instance (ib : CurIb) (va : UInt64) : Decidable (AtEnd ib va) :=
  inferInstanceAs (Decidable (_ ∧ _))

/-- What a packet asks for: the IBs to start, on an emptied queue or not, and the address to go on
at. -/
structure Request where
  resets : Bool
  refs : List QueuedIb
  next : UInt64

/-- The IB that the packet jumps to. -/
def Request.chained (r : Request) : Option QueuedIb := r.refs.find? fun q => q.ibType = .kChain

/-- The length of the queue behind the packet, if it was `queued` before. -/
def Request.queued (r : Request) (queued : ℕ) : ℕ :=
  (if r.resets then 0 else queued) + r.refs.length

section

variable (E : Emulation)

/-- A call, after the calls `t`. -/
def call (e : Event) (t : List Event) : Machine.Answer Failure (List Event) :=
  if E.callbacks t e then .ok (t ++ [e]) else .error (some .callbackRefused)

/-- The address of the first `CP_END_BIN` from `va` on. -/
def endBinFrom : ℕ → UInt64 → Machine.Answer Failure UInt64
  | 0, _ => .error none
  | fuel + 1, va =>
    if (E.headerAt va).isOpcode CP_END_BIN then .ok va
    else endBinFrom fuel (va + packetBytes (E.headerAt va))

/-- What the packet at `va` asks for. -/
def requestAt (fuel : ℕ) (va : UInt64) : Machine.Answer Failure Request :=
  if (E.headerAt va).isOpcode CP_START_BIN then
    (E.endBinFrom fuel va).bind fun endVa =>
      .ok ⟨false, nonEmpty (E.binRefs va endVa), E.binsNext va endVa⟩
  else
    .ok ⟨E.resetsQueue (E.headerAt va) va, nonEmpty (E.packetRefs (E.headerAt va) va),
      va + packetBytes (E.headerAt va)⟩

/-- The IBs of a list one after the other, each with its index in the submit; `run` runs an IB from
an address on. -/
def interpretIbs (run : ℕ → CurIb → UInt64 → List Event → Machine.Answer Failure (List Event))
    (level : ℕ) : List (QueuedIb × ℕ) → List Event → Machine.Answer Failure (List Event)
  | [], t => .ok t
  | (q, ibIndex) :: qs, t =>
    if kTotalIbLevels ≤ level + 1 then .error (some .levelOutOfRange)
    else
      (E.call (enterEvent q ibIndex (level + 1) (E.enteredIb q q.ibType)) t).bind fun t =>
        (run ibIndex (E.enteredIb q q.ibType) q.addr t).bind fun t =>
          interpretIbs run level qs t

/-- An IB called from `level`, from the address `va` on, when `queued` IBs are in its queue. -/
def interpretBody : ℕ → ℕ → ℕ → CurIb → ℕ → UInt64 → List Event →
    Machine.Answer Failure (List Event)
  | 0, _, _, _, _, _, _ => .error none
  | fuel + 1, level, ibIndex, ib, queued, va, t =>
    if AtEnd ib va then E.call (endEvent ibIndex ib level) t
    else if (E.headerAt va).isValid then
      (E.call (.packet ibIndex va (E.headerAt va)) t).bind fun t =>
        (E.requestAt fuel va).bind fun r =>
          if r.refs ≠ [] ∧ kMaxPendingIbs < r.queued queued then .error (some .queueFull)
          else
            match r.chained with
            | some q =>
              if r.next = ib.endAddr then
                (E.call (enterEvent q ibIndex (level + 1) (E.enteredIb q ib.ibType)) t).bind
                  fun t => interpretBody fuel level ibIndex (E.enteredIb q ib.ibType)
                    (r.queued queued) q.addr t
              else .error (some .chainNotAtEnd)
            | none =>
              (E.interpretIbs (fun ibIndex ib va t =>
                interpretBody fuel (level + 1) ibIndex ib 0 va t) (level + 1)
                (r.refs.map fun q => (q, ibIndex)) t).bind
                fun t => interpretBody fuel level ibIndex ib (r.queued queued) r.next t
    else .error (some .invalidHeader)

/-- `ExecuteSubmit` as a recursive program. -/
def interpret (fuel : ℕ) (ibs : List IndirectBufferInfo) :
    Machine.Answer Failure (List Event) :=
  let qs := nonEmpty (ibs.map (·.queued))
  if qs ≠ [] ∧ kMaxPendingIbs < qs.length then .error (some .queueFull)
  else
    E.interpretIbs (fun ibIndex ib va t => E.interpretBody fuel 0 ibIndex ib 0 va t) 0 qs.zipIdx []

end

variable {E : Emulation} {b c c' d : Config} {ibs : List IndirectBufferInfo} {t : List Event}
  {fuel : ℕ} {l : IbStack} {ls : List IbStack} {qs : List (QueuedIb × ℕ)}

/-- The program describes the run of the emulator from `c`. -/
abbrev Follows (E : Emulation) (fuel : ℕ) (c : Config) {α : Type}
    (x : Machine.Answer Failure α) (Q : α → Config → Prop) : Prop :=
  Machine.Follows E.step .failure fuel c x Q

/-- The next iteration is `AdvanceToQueuedIB` from `b`. -/
def StartsNext (E : Emulation) (b d : Config) : Prop := E.step d = E.advanceToQueuedIB b

/-! ## Calls -/

theorem bind_call {e : Event} {f : List Event → Machine.Answer Failure (List Event)} :
    (E.call e t).bind f =
      if E.callbacks t e then f (t ++ [e]) else .error (some .callbackRefused) := by
  unfold call
  split_ifs <;> rfl

theorem follows_ended (hp : c.phase = .check) (hl : c.state.callers = l :: ls)
    (hend : AtEnd c.state.cur.curIb c.state.cur.curVa) :
    Follows E fuel c (E.call (endEvent c.state.ibIndex c.state.cur.curIb ls.length) c.trace)
      fun t => StartsNext E ⟨⟨c.state.ibIndex, l, ls⟩, t, .check⟩ := by
  have hstep : E.step c = (E.advanceOutOfIB c).bind E.advanceToQueuedIB := by
    unfold step
    rw [hp]
    exact if_pos hend
  unfold advanceOutOfIB emit at hstep
  rw [hl] at hstep
  dsimp only at hstep
  unfold call
  split_ifs at hstep ⊢ with hcb
  · apply Machine.Follows.done
    unfold StartsNext
    rw [hstep, hp]
    rfl
  · exact Machine.Follows.stop hstep

/-! ## Queues -/

/-- The list gives each pending IB the index that the start gives it. -/
def Numbered : ℕ → ℕ → List (QueuedIb × ℕ) → Prop
  | _, _, [] => True
  | ibIndex, position, (q, i) :: qs =>
    i = (if q.ibType = .kNormal then position else ibIndex) ∧ Numbered i (position + 1) qs

theorem numbered_zipIdx : ∀ {qs : List QueuedIb} {ibIndex position : ℕ},
    (∀ q ∈ qs, q.ibType = .kNormal) → Numbered ibIndex position (qs.zipIdx position)
  | [], _, _, _ => trivial
  | q :: qs, ibIndex, position, h => by
    obtain ⟨hq, hqs⟩ := List.forall_mem_cons.mp h
    exact ⟨(if_pos hq).symm, numbered_zipIdx hqs⟩

theorem numbered_map : ∀ {qs : List QueuedIb} {ibIndex position : ℕ},
    (∀ q ∈ qs, q.ibType ≠ .kNormal) →
      Numbered ibIndex position (qs.map fun q => (q, ibIndex))
  | [], _, _, _ => trivial
  | q :: qs, ibIndex, position, h => by
    obtain ⟨hq, hqs⟩ := List.forall_mem_cons.mp h
    exact ⟨(if_neg hq).symm, numbered_map hqs⟩

/-- All IBs of a queue have run, and the emulator is back at their level, as it was in `b`. -/
structure Drained (b : Config) (qs : List (QueuedIb × ℕ)) (t : List Event) (d : Config) :
    Prop where
  phase : d.phase = .check
  trace : d.trace = t
  callers : d.state.callers = b.state.callers
  cur : d.state.cur = { b.state.cur with ibQueueIndex := b.state.cur.ibQueue.length }
  ibIndex : (∀ p ∈ qs, p.2 = b.state.ibIndex) → d.state.ibIndex = b.state.ibIndex

/-- An IB runs as its program says, wherever it is started. -/
def BodyFollows (E : Emulation) (fuel : ℕ) : Prop :=
  ∀ {c : Config} {l : IbStack} {ls : List IbStack}, StackOk c.state → c.phase = .check →
    c.state.callers = l :: ls →
    Follows E fuel c (E.interpretBody fuel ls.length c.state.ibIndex c.state.cur.curIb
        c.state.cur.ibQueue.length c.state.cur.curVa c.trace)
      fun t => StartsNext E ⟨⟨c.state.ibIndex, l, ls⟩, t, .check⟩

theorem stackOk_callIb {q : QueuedIb} {qs : List QueuedIb} (hr : Ready b.state)
    (hp : b.state.cur.pending = q :: qs) (hch : ∀ q ∈ b.state.cur.pending, q.ibType ≠ .kChain)
    (hl : b.state.topOfStack + 1 < kTotalIbLevels)
    (hcb : E.callbacks b.trace (startEvent q (E.callIb q b.state)) = true) :
    StackOk (E.callIb q b.state) :=
  (stackOk_of_advances (.call hp (hch q (hp ▸ List.mem_cons_self)) hl hcb) hr).1

theorem Ready.tail {q : QueuedIb} {qs : List QueuedIb} {i : ℕ} (hr : Ready b.state)
    (hp : b.state.cur.pending = q :: qs) (hch : ∀ q ∈ b.state.cur.pending, q.ibType ≠ .kChain) :
    Ready ⟨i, { b.state.cur with ibQueueIndex := b.state.cur.ibQueueIndex + 1 },
      b.state.callers⟩ := by
  obtain ⟨hlt, htail⟩ := pending_tail hp
  have hsub : ∀ q' ∈ qs, q' ∈ b.state.cur.pending := fun q' h => hp ▸ List.mem_cons_of_mem q h
  refine ⟨hlt, hr.callers, fun h => ⟨(hr.ring h).1, fun q' h' => ?_⟩, fun h q' h' => ?_,
    fun q' h' hc => ?_, hr.depth⟩
  · rw [htail] at h'
    exact (hr.ring h).2 q' (hsub q' h')
  · rw [htail] at h'
    exact hr.called h q' (hsub q' h')
  · rw [htail] at h'
    exact absurd hc (hch q' (hsub q' h'))

theorem follows_interpretIbs (hbody : BodyFollows E fuel) :
    ∀ {qs : List (QueuedIb × ℕ)} {b d : Config}, StartsNext E b d → b.phase = .check →
      Ready b.state → b.state.cur.pending = qs.map Prod.fst →
      (∀ q ∈ b.state.cur.pending, q.ibType ≠ .kChain) →
      Numbered b.state.ibIndex b.state.cur.ibQueueIndex qs →
      Follows E fuel d (E.interpretIbs (fun ibIndex ib va t =>
          E.interpretBody fuel b.state.topOfStack ibIndex ib 0 va t) b.state.topOfStack qs b.trace)
        (Drained b qs)
  | [], b, d, hd, hphase, hr, hp, hch, hn => by
    have hstep : E.step d = .ok b := Eq.trans hd (advanceToQueuedIB_nil hp)
    refine Machine.Follows.after ((Machine.Reaches.refl d).tail hstep) (Machine.Follows.done ?_)
    have hlen := congrArg List.length hp
    rw [IbStack.pending, List.length_drop, List.map_nil, List.length_nil] at hlen
    have hidx := hr.index
    have hidle : b.state.cur.ibQueueIndex = b.state.cur.ibQueue.length := by omega
    refine ⟨hphase, rfl, rfl, ?_, fun _ => rfl⟩
    rw [← hidle]
  | (q, i) :: qs, b, d, hd, hphase, hr, hp, hch, hn => by
    rw [List.map_cons] at hp
    obtain ⟨hi, hn⟩ := hn
    have hq : q.ibType ≠ .kChain := hch q (hp ▸ List.mem_cons_self)
    have hindex : (E.callIb q b.state).ibIndex = i := hi.symm
    have hstep : E.step d = if kTotalIbLevels ≤ b.state.topOfStack + 1
        then .error (.failure .levelOutOfRange)
        else E.emit (startEvent q (E.callIb q b.state)) { b with state := E.callIb q b.state } := by
      unfold StartsNext advanceToQueuedIB at hd
      rw [hp] at hd
      dsimp only at hd
      rw [if_pos hq] at hd
      exact hd
    have hevent : startEvent q (E.callIb q b.state) =
        enterEvent q i (b.state.topOfStack + 1) (E.enteredIb q q.ibType) := by
      rw [← hindex]
      rfl
    unfold interpretIbs
    rw [bind_call]
    split_ifs at hstep ⊢ with hl hcb
    · exact Machine.Follows.stop hstep
    · rw [← hevent] at hcb ⊢
      have hgo : E.step d = .ok (started q (E.callIb q b.state) b) := by
        rw [hstep]
        exact emit_ok.mpr ⟨hcb, rfl⟩
      have hok : StackOk (started q (E.callIb q b.state) b).state :=
        stackOk_callIb hr hp hch (not_le.mp hl) hcb
      refine Machine.Follows.after ((Machine.Reaches.refl d).tail hgo) ?_
      have hrun := hbody hok hphase rfl
      rw [started_state, hindex] at hrun
      refine Machine.Follows.bind hrun fun t d' hd' => ?_
      -- back at the level, the next IB starts
      let b' : Config := ⟨⟨i, { b.state.cur with ibQueueIndex := b.state.cur.ibQueueIndex + 1 },
        b.state.callers⟩, t, .check⟩
      have hready : Ready b'.state := hr.tail hp hch
      have hstart : StartsNext E b' d' := hd'
      have hpend : b'.state.cur.pending = qs.map Prod.fst := (pending_tail hp).2
      refine (follows_interpretIbs hbody hstart rfl hready hpend ?_ hn).mono fun t e he => ?_
      · intro q' hq'
        rw [hpend] at hq'
        exact hch q' (hp ▸ List.mem_cons_of_mem q hq')
      · exact ⟨he.phase, he.trace, he.callers, he.cur, fun hall => by
          obtain ⟨hq₀, hall⟩ := List.forall_mem_cons.mp hall
          dsimp only at hq₀
          rw [he.ibIndex fun p hp' => (hall p hp').trans hq₀.symm]
          exact hq₀⟩
    · rw [← hevent] at hcb
      refine Machine.Follows.stop ?_
      rw [hstep]
      unfold emit
      rw [if_neg hcb]

/-! ## Packets -/

theorem follows_endBinFrom : ∀ {fuel : ℕ} {c : Config} {h : Pm4Header} {packet : Pm4Packet}
    {tempVa : UInt64}, c.phase = .lookAhead h packet tempVa →
      Follows E fuel c (E.endBinFrom fuel tempVa) fun endVa d =>
        Machine.Reaches E.step c d ∧ d = { c with phase := .lookAhead h packet endVa } ∧
          (E.headerAt endVa).isOpcode CP_END_BIN = true
  | 0, _, _, _, _, _ => Machine.Follows.spent
  | fuel + 1, c, h, packet, tempVa, hp => by
    unfold endBinFrom
    split_ifs with hop
    · refine Machine.Follows.done ⟨Machine.Reaches.refl c, ?_, hop⟩
      rw [← hp]
    · have hstep : E.step c = .ok { c with
          phase := .lookAhead h packet (tempVa + packetBytes (E.headerAt tempVa)) } := by
        unfold step
        rw [hp]
        dsimp only
        unfold lookAhead
        dsimp only
        rw [if_neg hop]
      refine Machine.Follows.next hstep ((follows_endBinFrom rfl).mono fun endVa d hd => ?_)
      obtain ⟨hreach, rfl, hop'⟩ := hd
      exact ⟨hreach.head hstep, rfl, hop'⟩

/-- The packet asks for what `r` says: `d` is about to queue it. -/
def Asks (E : Emulation) (s : EmulateState) (t : List Event) (r : Request) (d : Config) : Prop :=
  ∃ refs b, Inv E d ∧ Queues E d r.resets refs r.next b ∧ r.refs = nonEmpty refs ∧
    d.state = s ∧ b.trace = t

theorem step_fetch (hp : c.phase = .fetch) (hin : c.state.callers ≠ []) :
    E.step c = if (E.headerAt c.state.cur.curVa).isValid then
      (E.emit (packetEvent E c) c).bind (E.advanceCb (E.headerAt c.state.cur.curVa))
    else .error (.failure .invalidHeader) := by
  have htop : ¬ c.state.topOfStack = 0 := fun h => hin (List.length_eq_zero_iff.mp h)
  unfold step
  rw [hp]
  dsimp only
  rw [if_neg htop]
  rfl

theorem follows_requestAt (hi : Inv E c) (hp : c.phase = .fetch) (hin : Inside c.state)
    (hv : (E.headerAt c.state.cur.curVa).isValid = true)
    (hcb : E.callbacks c.trace (packetEvent E c) = true) :
    Follows E fuel c (E.requestAt fuel c.state.cur.curVa)
      (Asks E c.state (c.trace ++ [packetEvent E c])) := by
  unfold requestAt
  split_ifs with hop
  · have hemit : E.emit (packetEvent E c) c = .ok (called (packetEvent E c) c) :=
      emit_ok.mpr ⟨hcb, rfl⟩
    have hstep : E.step c = .ok { called (packetEvent E c) c with
        phase := .lookAhead (E.headerAt c.state.cur.curVa) (E.packetAt c.state.cur.curVa 24)
          c.state.cur.curVa } := by
      rw [step_fetch hp hin.1, if_pos hv, hemit]
      exact advanceCb_startBin hop
    have hi' := inv_step hi hstep
    refine Machine.Follows.after ((Machine.Reaches.refl c).tail hstep)
      ((follows_endBinFrom rfl).bind fun endVa d hd => ?_)
    obtain ⟨hreach, rfl, hop'⟩ := hd
    have hid := hreach.invariant hi' fun _ _ _ huv hu => inv_step hu huv
    exact Machine.Follows.done ⟨_, _, hid, .bins rfl hop', rfl, rfl, rfl⟩
  · rw [Bool.not_eq_true] at hop
    exact Machine.Follows.done ⟨_, _, hi, .single hp hin hv hop hcb, rfl, rfl, rfl⟩

theorem length_rebased {resets : Bool} :
    (l.rebased resets).ibQueue.length = if resets then 0 else l.ibQueue.length := by
  unfold IbStack.rebased
  split_ifs <;> rfl

section

variable {r : Request} {q : QueuedIb} (hbody : BodyFollows E fuel) (hs : StackOk c.state)
  (hl : c.state.callers = l :: ls) (hd : Asks E c.state t r d)

include hd

theorem Asks.step_eq : ∃ refs b, Inv E d ∧ Queues E d r.resets refs r.next b ∧
    r.refs = nonEmpty refs ∧ b.state = c.state ∧ b.trace = t ∧
    E.step d = if r.refs ≠ [] ∧ kMaxPendingIbs < r.queued c.state.cur.ibQueue.length
      then .error (.failure .queueFull)
      else E.advanceToQueuedIB (queuedOn (c.state.cur.rebased r.resets) refs r.next b) := by
  obtain ⟨refs, b, hi, hq, hrefs, hstate, htrace⟩ := hd
  refine ⟨refs, b, hi, hq, hrefs, hq.state_eq.trans hstate, htrace, ?_⟩
  have hroom : (c.state.cur.rebased r.resets).HasRoom (nonEmpty refs).length ↔
      ¬ (r.refs ≠ [] ∧ kMaxPendingIbs < r.queued c.state.cur.ibQueue.length) := by
    unfold IbStack.HasRoom Request.queued
    rw [length_rebased, ← hrefs, ← List.length_pos_iff]
    omega
  rw [hq.step_eq hi, queueAndAdvance_eq, hstate]
  simp only [hroom, ite_not]

variable (hroom : ¬ (r.refs ≠ [] ∧ kMaxPendingIbs < r.queued c.state.cur.ibQueue.length))

include hbody hs hl hroom

theorem follows_chained (hq : r.chained = some q) :
    Follows E fuel d
      (if r.next = c.state.cur.curIb.endAddr then
        (E.call (enterEvent q c.state.ibIndex (ls.length + 1)
          (E.enteredIb q c.state.cur.curIb.ibType)) t).bind fun t =>
            E.interpretBody fuel ls.length c.state.ibIndex
              (E.enteredIb q c.state.cur.curIb.ibType) (r.queued c.state.cur.ibQueue.length)
              q.addr t
      else .error (some .chainNotAtEnd))
      fun t => StartsNext E ⟨⟨c.state.ibIndex, l, ls⟩, t, .check⟩ := by
  obtain ⟨refs, b, hi, hqs, hrefs, hb, htrace, hstep⟩ := hd.step_eq
  rw [if_neg hroom] at hstep
  have hmem : q ∈ nonEmpty refs := hrefs ▸ List.mem_of_find?_eq_some hq
  have hc : q.ibType = .kChain := by simpa using List.find?_some hq
  obtain ⟨hone, hempty⟩ := hqs.chain_alone hi hmem hc
  have hstate : d.state = c.state := hqs.state_eq.symm.trans hb
  rw [hstate] at hempty
  have hidle : (c.state.cur.rebased r.resets).Idle := hs.idle.rebased r.resets
  -- the configuration in which the packet jumps
  let b' := queuedOn (c.state.cur.rebased r.resets) refs r.next b
  have hpend : b'.state.cur.pending = [q] := (pending_queuedOn hidle).trans hone
  have hqueue : b'.state.cur.ibQueue = [q] := by
    show (c.state.cur.rebased r.resets).ibQueue ++ nonEmpty refs = [q]
    rw [hempty, hone, List.nil_append]
  have hib : b'.state.cur.curIb = c.state.cur.curIb := IbStack.rebased_curIb _ _
  have hcallers : b'.state.callers = l :: ls := by
    rw [← hl, ← hb]
    rfl
  have hindex : b'.state.ibIndex = c.state.ibIndex := by
    rw [← hb]
    rfl
  have htrace' : b'.trace = t := htrace
  have hevent : startEvent q (E.chainIb q b'.state) = enterEvent q c.state.ibIndex (ls.length + 1)
      (E.enteredIb q c.state.cur.curIb.ibType) := by
    unfold startEvent EmulateState.topOfStack
    rw [chainIb_callers, chainIb_ibIndex, hcallers, hindex, ← hib]
    rfl
  change E.step d = E.advanceToQueuedIB b' at hstep
  unfold advanceToQueuedIB at hstep
  rw [hpend] at hstep
  dsimp only at hstep
  rw [if_neg (not_not.mpr hc), hqueue, List.headD_cons, hib] at hstep
  change E.step d = if r.next ≠ c.state.cur.curIb.endAddr then _ else _ at hstep
  by_cases hend : r.next = c.state.cur.curIb.endAddr
  · rw [if_neg (not_not.mpr hend)] at hstep
    rw [if_pos hend, bind_call, ← hevent]
    by_cases hcb : E.callbacks t (startEvent q (E.chainIb q b'.state)) = true
    · rw [if_pos hcb]
      have hcb' : E.callbacks b'.trace (startEvent q (E.chainIb q b'.state)) = true :=
        htrace'.symm ▸ hcb
      have hgo : E.step d = .ok (started q (E.chainIb q b'.state) b') :=
        hstep.trans (emit_ok.mpr ⟨hcb', rfl⟩)
      have hready : Ready b'.state := by
        have h := hqs.ready hi
        rwa [hstate] at h
      have hend' : b'.state.cur.curVa = b'.state.cur.curIb.endAddr := by
        rw [hib]
        exact hend
      have hok : StackOk (started q (E.chainIb q b'.state) b').state :=
        (stackOk_of_advances (.chain hpend hc hqueue hend' hcb') hready).1
      refine Machine.Follows.after ((Machine.Reaches.refl d).tail hgo) ?_
      have hlen : b'.state.cur.ibQueue.length = r.queued c.state.cur.ibQueue.length := by
        rw [Request.queued, hrefs, ← length_rebased]
        exact List.length_append
      have hrun := hbody hok rfl hcallers
      rw [started_state, chainIb_ibIndex, hindex] at hrun
      change Follows E fuel _ (E.interpretBody fuel ls.length c.state.ibIndex
        (E.enteredIb q b'.state.cur.curIb.ibType) b'.state.cur.ibQueue.length q.addr
        (b'.trace ++ [startEvent q (E.chainIb q b'.state)])) _ at hrun
      rwa [hib, hlen, htrace'] at hrun
    · rw [if_neg hcb]
      refine Machine.Follows.stop (hstep.trans ?_)
      unfold emit
      exact if_neg (htrace'.symm ▸ hcb)
  · rw [if_pos hend] at hstep
    rw [if_neg hend]
    exact Machine.Follows.stop hstep

theorem follows_called (hq : r.chained = none) :
    Follows E fuel d
      ((E.interpretIbs (fun ibIndex ib va t =>
          E.interpretBody fuel (ls.length + 1) ibIndex ib 0 va t) (ls.length + 1)
          (r.refs.map fun q => (q, c.state.ibIndex)) t).bind fun t =>
        E.interpretBody fuel ls.length c.state.ibIndex c.state.cur.curIb
          (r.queued c.state.cur.ibQueue.length) r.next t)
      fun t => StartsNext E ⟨⟨c.state.ibIndex, l, ls⟩, t, .check⟩ := by
  obtain ⟨refs, b, hi, hqs, hrefs, hb, htrace, hstep⟩ := hd.step_eq
  rw [if_neg hroom] at hstep
  have hidle : (c.state.cur.rebased r.resets).Idle := hs.idle.rebased r.resets
  have hstate : d.state = c.state := hqs.state_eq.symm.trans hb
  let b' := queuedOn (c.state.cur.rebased r.resets) refs r.next b
  have hcallers : b'.state.callers = l :: ls := by
    rw [← hl, ← hb]
    rfl
  have hindex : b'.state.ibIndex = c.state.ibIndex := by
    rw [← hb]
    rfl
  have hpend : b'.state.cur.pending = r.refs := (pending_queuedOn hidle).trans hrefs.symm
  have hready : Ready b'.state := by
    have h := hqs.ready hi
    rwa [hstate] at h
  have hchain : ∀ q ∈ b'.state.cur.pending, q.ibType ≠ .kChain := by
    rw [hpend]
    simpa [Request.chained] using hq
  have hnormal : ∀ q ∈ r.refs, q.ibType ≠ .kNormal := hrefs ▸ fun q hmem =>
    (hqs.packetAt hi).not_normal hmem
  have hmap : b'.state.cur.pending = (r.refs.map fun q => (q, c.state.ibIndex)).map Prod.fst := by
    rw [hpend, List.map_map]
    exact (List.map_id _).symm
  have hruns := follows_interpretIbs (d := d) hbody hstep rfl hready hmap hchain
    (hindex ▸ numbered_map hnormal)
  have htop : b'.state.topOfStack = ls.length + 1 := congrArg List.length hcallers
  have htrace' : b'.trace = t := htrace
  rw [htop, htrace'] at hruns
  refine hruns.bind fun t' e he => ?_
  have hcur := he.cur
  have hib : e.state.cur.curIb = c.state.cur.curIb := by
    rw [hcur]
    exact IbStack.rebased_curIb _ _
  have hva : e.state.cur.curVa = r.next := by
    rw [hcur]
    rfl
  have hlen : e.state.cur.ibQueue.length = r.queued c.state.cur.ibQueue.length := by
    rw [hcur, Request.queued, hrefs, ← length_rebased]
    exact List.length_append
  have hindex' : e.state.ibIndex = c.state.ibIndex := by
    rw [← hindex]
    refine he.ibIndex fun p hp => ?_
    obtain ⟨q, -, rfl⟩ := List.mem_map.mp hp
    exact hindex.symm
  have hok : StackOk e.state := by
    refine ⟨?_, ?_, fun h => ?_, ?_⟩
    · rw [hcur]
      exact Eq.refl b'.state.cur.ibQueue.length
    · rw [he.callers]
      exact hready.callers
    · rw [he.callers, hcallers] at h
      cases h
    · rw [EmulateState.topOfStack, he.callers]
      exact hready.depth
  have hrun := hbody hok he.phase (he.callers.trans hcallers)
  rwa [hib, hva, hlen, hindex', he.trace] at hrun

end

/-- **An IB of the emulator** runs as its program says. -/
theorem bodyFollows (fuel : ℕ) : BodyFollows E fuel := by
  induction fuel with
  | zero =>
    intro c l ls _ _ _
    exact Machine.Follows.spent
  | succ fuel ih =>
    intro c l ls hs hp hl
    unfold interpretBody
    split_ifs with hend hv
    · exact follows_ended hp hl hend
    · have hin : Inside c.state := ⟨by rw [hl]; exact List.cons_ne_nil _ _, hend⟩
      refine Machine.Follows.next (step_goOn hp hend) ?_
      rw [bind_call]
      split_ifs with hcb
      · have hi : Inv E { c with phase := .fetch } := ⟨hs, fun _ => hin⟩
        refine (follows_requestAt hi rfl hin hv hcb).bind fun r d hd => ?_
        by_cases hroom : r.refs ≠ [] ∧ kMaxPendingIbs < r.queued c.state.cur.ibQueue.length
        · obtain ⟨refs, b, -, -, -, -, -, hstep⟩ := hd.step_eq
          rw [if_pos hroom] at hstep ⊢
          exact Machine.Follows.stop hstep
        rw [if_neg hroom]
        cases hq : r.chained with
        | some q => exact follows_chained ih hs hl hd hroom hq
        | none => exact follows_called ih hs hl hd hroom hq
      · refine Machine.Follows.stop ((step_fetch (c := { c with phase := .fetch }) rfl
          hin.1).trans ?_)
        rw [if_pos hv, emit]
        exact congrArg (Except.bind · _) (if_neg hcb)
    · refine Machine.Follows.next (step_goOn hp hend) (Machine.Follows.stop ?_)
      have hne : c.state.callers ≠ [] := by
        rw [hl]
        exact List.cons_ne_nil _ _
      exact (step_fetch (c := { c with phase := .fetch }) rfl hne).trans (if_neg hv)

/-! ## Submits -/

theorem follows_interpret (fuel : ℕ) (ibs : List IndirectBufferInfo) :
    Follows E fuel (initial ibs) (E.interpret fuel ibs)
      fun t d => E.step d = .error .success ∧ d.trace = t := by
  have hstep : E.step (initial ibs) =
      E.queueAndAdvance primaryRing (ibs.map (·.queued)) parked (initial ibs) := rfl
  rw [queueAndAdvance_eq] at hstep
  unfold interpret
  dsimp only
  have hroom : primaryRing.HasRoom (nonEmpty (ibs.map (·.queued))).length ↔
      ¬ (nonEmpty (ibs.map (·.queued)) ≠ [] ∧
        kMaxPendingIbs < (nonEmpty (ibs.map (·.queued))).length) := by
    unfold IbStack.HasRoom
    rw [← List.length_pos_iff, show primaryRing.ibQueue.length = 0 from rfl]
    omega
  by_cases hno : nonEmpty (ibs.map (·.queued)) ≠ [] ∧
      kMaxPendingIbs < (nonEmpty (ibs.map (·.queued))).length
  · rw [if_neg (not_not.mpr hno ∘ hroom.mp)] at hstep
    rw [if_pos hno]
    exact Machine.Follows.stop hstep
  rw [if_pos (hroom.mpr hno)] at hstep
  rw [if_neg hno]
  have hready : Ready (queuedOn primaryRing (ibs.map (·.queued)) parked (initial ibs)).state :=
    ready_ring
  have hpend : (queuedOn primaryRing (ibs.map (·.queued)) parked (initial ibs)).state.cur.pending =
      nonEmpty (ibs.map (·.queued)) := pending_queuedOn (Eq.refl 0)
  have hnormal : ∀ q ∈ nonEmpty (ibs.map (·.queued)), q.ibType = .kNormal :=
    hpend ▸ (hready.ring rfl).2
  have hruns := follows_interpretIbs (bodyFollows fuel) hstep rfl hready
    (hpend.trans (List.zipIdx_map_fst _ _).symm)
    (fun q hq hc => by rw [hnormal q (hpend ▸ hq)] at hc; cases hc) (numbered_zipIdx hnormal)
  refine hruns.goOn fun t d hd => ?_
  -- back at the primary ring
  have hva : d.state.cur.curVa = parked := by
    rw [hd.cur]
    rfl
  have htop : d.state.topOfStack = 0 := congrArg List.length hd.callers
  have hgo : E.step d = .ok { d with phase := .fetch } :=
    step_goOn hd.phase fun h => h.1 hva
  refine ⟨_, (Machine.Reaches.refl d).tail hgo, ?_, hd.trace⟩
  unfold step
  exact if_pos htop

/-- **The emulator is a recursive program**: it succeeds after certain calls, and fails in a certain
way, exactly as the program does with enough fuel, and runs forever exactly if no fuel is enough. -/
theorem interpret_iff :
    (∀ t, E.Succeeds ibs t ↔ ∃ fuel, E.interpret fuel ibs = .ok t) ∧
    (∀ f, Machine.StopsWith E.step (initial ibs) (.failure f) ↔
      ∃ fuel, E.interpret fuel ibs = .error (some f)) ∧
    (¬ Machine.Halts E.step (initial ibs) ↔ ∀ fuel, E.interpret fuel ibs = .error none) := by
  have hx := fun fuel => follows_interpret (E := E) fuel ibs
  have hstop : ∀ t d, E.step d = .error .success ∧ d.trace = t → E.step d = .error .success :=
    fun _ _ h => h.1
  have hdone : ∀ f, Outcome.failure f ≠ .success := fun _ h => Outcome.noConfusion h
  refine ⟨fun t => ?_, fun f => ?_, ?_⟩
  · exact Machine.done_iff_of_follows hx hstop hdone fun _ _ h => h.2
  · exact Machine.stopsWith_iff_of_follows hx hstop hdone fun _ _ h => Outcome.failure.inj h
  · rw [Machine.halts_iff_of_follows hx hstop]
    simp only [not_exists, not_not]

end Emulation

end Dive
