import Mathlib.Data.FinEnum
import Mathlib.Data.Fintype.Prod
import Dive.Pm4.Depth

/-!
# Termination of the emulation

* `References`: the reference graph of the IBs; `Acyclic`: no cycle is reachable from a submit.
* `StepsOver`, `HeaderOk`: the headers that the two loops step over, and when that is an advance.
* `bodyHalts`: an IB ends, by induction on the graph and on the addresses that are left.
* `advanceCbAsks`, `PayloadHeld`: the reads of `AdvanceCb` as long as the packet says.
* **`returns_iff`**: an acyclic submit returns, and every packet advances, exactly when all headers
  stepped over are of type 2, 4 or 7 and do not wrap, no IB is called from the last level, and no
  packet is longer than the local that it is read into.
-/

namespace Dive

/-! ## The reference graph -/

/-- An IB, as it is run. -/
structure IbNode where
  addr : UInt64
  sizeInDwords : UInt32
  skip : Bool
  deriving DecidableEq

instance : Finite IbNode :=
  Finite.of_injective (fun N : IbNode => (N.addr, N.sizeInDwords, N.skip)) fun M N h => by
    cases M
    cases N
    simpa using h

/-- The condition of the loop of `CheckAndAdvanceIB`. -/
def IbNode.AtEnd (N : IbNode) (va : UInt64) : Prop :=
  va ≠ parked ∧ (N.skip || N.addr + N.sizeInDwords.toUInt64 * 4 ≤ va) = true

/-- The IB of a level. -/
def CurIb.node (ib : CurIb) : IbNode := ⟨ib.addr, ib.sizeInDwords, ib.skip⟩

namespace Emulation

variable {E : Emulation} {ibs : List IndirectBufferInfo} {c c' b : Config} {N : IbNode}
  {q : QueuedIb} {va next : UInt64} {resets : Bool} {refs : List QueuedIb}

/-- The IB that a queue entry starts. -/
def nodeOf (E : Emulation) (q : QueuedIb) : IbNode := (E.enteredIb q q.ibType).node

/-- Packet by packet from its start, the IB comes to `va`. -/
inductive Within (E : Emulation) (N : IbNode) : UInt64 → Prop
  | start : Within E N N.addr
  | packet {va next : UInt64} {resets : Bool} {refs : List QueuedIb} (h : Within E N va)
      (hin : ¬ N.AtEnd va) (hp : PacketAt E va resets refs next) : Within E N next

/-- A packet of the IB `N` references the IB `M`. -/
def References (E : Emulation) (N M : IbNode) : Prop :=
  ∃ va resets refs next q, Within E N va ∧ ¬ N.AtEnd va ∧ PacketAt E va resets refs next ∧
    q ∈ nonEmpty refs ∧ E.nodeOf q = M

/-- No IB that the submit reaches references itself, directly or through others. -/
def Acyclic (E : Emulation) (ibs : List IndirectBufferInfo) : Prop :=
  ∀ q ∈ nonEmpty (ibs.map (·.queued)), ∀ N, Relation.ReflTransGen E.References (E.nodeOf q) N →
    ¬ Relation.TransGen E.References N N

theorem acyclic_of_no_references
    (h : ∀ q ∈ nonEmpty (ibs.map (·.queued)), ∀ M, ¬ E.References (E.nodeOf q) M) :
    E.Acyclic ibs := by
  intro q hq N hreach htrans
  rcases Relation.ReflTransGen.cases_head hreach with rfl | ⟨M, hM, -⟩
  · rcases Relation.TransGen.head'_iff.mp htrans with ⟨M, hM, -⟩
    exact h q hq M hM
  · exact h q hq M hM

/-! ## Headers -/

/-- The emulator steps over the packet at `va`: an accepted packet of the main loop, or a packet of
the look-ahead before its end. -/
inductive StepsOver (E : Emulation) (c : Config) : UInt64 → Prop
  | packet (hp : c.phase = .fetch) (hin : c.state.callers ≠ [])
      (hv : (E.headerAt c.state.cur.curVa).isValid = true)
      (hcb : E.callbacks c.trace (packetEvent E c) = true) : StepsOver E c c.state.cur.curVa
  | lookAhead {h : Pm4Header} {packet : Pm4Packet} {tempVa : UInt64}
      (hp : c.phase = .lookAhead h packet tempVa)
      (hop : (E.headerAt tempVa).isOpcode CP_END_BIN = false) : StepsOver E c tempVa

/-- The header at `va` is of a type with a size, and its packet ends in the address space. -/
def HeaderOk (h : Pm4Header) (va : UInt64) : Prop :=
  (h.type = 2 ∨ h.type = 4 ∨ h.type = 7) ∧ va.toNat + 4 * (getPacketSize h).toNat < 2 ^ 64

theorem getPacketSize_eq_zero {h : Pm4Header} :
    getPacketSize h = 0 ↔ ¬ (h.type = 2 ∨ h.type = 4 ∨ h.type = 7) := by
  have hsucc : ∀ x m : UInt32, m.toNat < 2 ^ 16 → (x &&& m) + 1 ≠ 0 := by
    intro x m hm h0
    have hle : (x &&& m).toNat ≤ m.toNat := by
      rw [UInt32.toNat_and]
      exact Nat.and_le_right
    have hnat := congrArg UInt32.toNat h0
    rw [UInt32.toNat_add, UInt32.toNat_one, UInt32.toNat_zero] at hnat
    omega
  unfold getPacketSize
  split_ifs with h₂ h₄ h₇
  · exact iff_of_false (by decide) fun h => h (Or.inl h₂)
  · exact iff_of_false (hsucc _ _ (by decide)) fun h => h (Or.inr (Or.inl h₄))
  · exact iff_of_false (hsucc _ _ (by decide)) fun h => h (Or.inr (Or.inr h₇))
  · exact iff_of_true rfl fun h => h.elim h₂ fun h => h.elim h₄ h₇

theorem toNat_packetBytes (h : Pm4Header) :
    (packetBytes h).toNat = 4 * (getPacketSize h).toNat := by
  have hlt := (getPacketSize h).toNat_lt
  unfold packetBytes
  rw [UInt64.toNat_mul, UInt32.toNat_toUInt64]
  show (getPacketSize h).toNat * 4 % 2 ^ 64 = _
  omega

theorem advances_iff {h : Pm4Header} : va < va + packetBytes h ↔ HeaderOk h va := by
  have hva := va.toNat_lt
  have hsize := (getPacketSize h).toNat_lt
  have hzero : (getPacketSize h).toNat = 0 ↔ ¬ (h.type = 2 ∨ h.type = 4 ∨ h.type = 7) := by
    rw [← getPacketSize_eq_zero, ← UInt32.toNat_inj]
    exact Iff.rfl
  unfold HeaderOk
  rw [UInt64.lt_iff_toNat_lt, UInt64.toNat_add, toNat_packetBytes]
  by_cases htype : h.type = 2 ∨ h.type = 4 ∨ h.type = 7
  · have hpos : (getPacketSize h).toNat ≠ 0 := fun h0 => hzero.mp h0 htype
    rw [and_iff_right htype]
    omega
  · have h0 := hzero.mpr htype
    refine iff_of_false ?_ fun h => htype h.1
    omega

/-! ## Ends of IBs -/

/-- Whenever the IB above this stack ends, the rest of the run is finite. -/
def EndsHalt (E : Emulation) (ibs : List IndirectBufferInfo) (stack : List IbStack) : Prop :=
  ∀ c, E.Reachable ibs c → c.phase = .check → c.state.callers = stack →
    c.state.cur.curIb.node.AtEnd c.state.cur.curVa → Machine.Halts E.step c

/-- From any of its packets on, the IB ends, if the run is finite once it has ended. -/
def BodyHalts (E : Emulation) (ibs : List IndirectBufferInfo) (N : IbNode) : Prop :=
  ∀ c, E.Reachable ibs c → c.phase = .check → c.state.callers ≠ [] → c.state.cur.curIb.node = N →
    Within E N c.state.cur.curVa → EndsHalt E ibs c.state.callers → Machine.Halts E.step c

theorem advances_of_atEnd {l : IbStack} {ls : List IbStack} (hc : E.Reachable ibs c)
    (hp : c.phase = .check) (hl : c.state.callers = l :: ls)
    (hend : c.state.cur.curIb.node.AtEnd c.state.cur.curVa) (hstep : E.step c = .ok c') :
    Advances E (left l ls c) c' := by
  cases stepCase_of_ok (inv_reachable hc) hstep with
  | leave _ _ _ hl' ha =>
    rw [hl, List.cons.injEq] at hl'
    obtain ⟨rfl, rfl⟩ := hl'
    exact ha
  | goOn _ _ hin => exact absurd hend hin
  | ring hinit =>
    rw [hinit] at hp
    cases hp
  | startBin hp' =>
    rw [hp'] at hp
    cases hp
  | lookAhead hp' =>
    rw [hp'] at hp
    cases hp
  | queue hq' =>
    cases hq' with
    | single hp' =>
      rw [hp'] at hp
      cases hp
    | bins hp' =>
      rw [hp'] at hp
      cases hp

theorem endsHalt_drain {l : IbStack} {ls : List IbStack}
    (hgo : ∀ c, E.Reachable ibs c → c.phase = .check → c.state.callers = ls →
      c.state.cur.curVa = l.curVa → c.state.cur.curIb = l.curIb → Machine.Halts E.step c)
    (hq : ∀ q ∈ l.pending, q.ibType ≠ .kChain ∧ BodyHalts E ibs (E.nodeOf q)) :
    EndsHalt E ibs (l :: ls) := by
  induction hqs : l.pending generalizing l with
  | nil =>
    intro c hc hp hl hend
    refine Machine.Halts.of_step fun c' hstep => ?_
    have hc' := hc.tail hstep
    have hpend : (left l ls c).state.cur.pending = [] := hqs
    cases advances_of_atEnd hc hp hl hend hstep with
    | idle => exact hgo _ hc' hp rfl rfl rfl
    | call hp' =>
      rw [hpend] at hp'
      cases hp'
    | chain hp' =>
      rw [hpend] at hp'
      cases hp'
  | cons q qs ih =>
    intro c hc hp hl hend
    refine Machine.Halts.of_step fun c' hstep => ?_
    have hc' := hc.tail hstep
    have hpend : (left l ls c).state.cur.pending = q :: qs := hqs
    obtain ⟨hchain, hbody⟩ := hq q (hqs ▸ List.mem_cons_self)
    cases advances_of_atEnd hc hp hl hend hstep with
    | idle hp' =>
      rw [hpend] at hp'
      cases hp'
    | call hp' =>
      rw [hpend, List.cons.injEq] at hp'
      obtain ⟨rfl, rfl⟩ := hp'
      obtain ⟨-, htail⟩ := pending_tail hqs
      refine hbody _ hc' hp (List.cons_ne_nil _ _) rfl .start ?_
      refine ih (l := { l with ibQueueIndex := l.ibQueueIndex + 1 }) hgo (fun q' h => ?_) htail
      rw [htail] at h
      exact hq q' (hqs ▸ List.mem_cons_of_mem q h)
    | chain hp' hc'' =>
      rw [hpend, List.cons.injEq] at hp'
      obtain ⟨rfl, -⟩ := hp'
      exact absurd hc'' hchain

theorem halts_of_queues (hc : E.Reachable ibs c) (hq : Queues E c resets refs next b)
    (hrefs : ∀ q ∈ nonEmpty refs, BodyHalts E ibs (E.nodeOf q))
    (hends : EndsHalt E ibs c.state.callers)
    (hgo : ∀ c', E.Reachable ibs c' → c'.phase = .check → c'.state.callers = c.state.callers →
      c'.state.cur.curVa = next → c'.state.cur.curIb = c.state.cur.curIb →
      Machine.Halts E.step c') : Machine.Halts E.step c := by
  have hi := inv_reachable hc
  have hstate := hq.state_eq
  have hne := (hq.stackOk hi).2.1
  refine Machine.Halts.of_step fun c' hstep => ?_
  have hc' := hc.tail hstep
  obtain ⟨-, ha⟩ := hq.advances hi hstep
  have hpend : (queuedOn (c.state.cur.rebased resets) refs next b).state.cur.pending =
      nonEmpty refs := pending_queuedOn ((hq.stackOk hi).1.idle.rebased resets)
  have hcallers : (queuedOn (c.state.cur.rebased resets) refs next b).state.callers =
      c.state.callers := by rw [queuedOn_callers, hstate]
  have hib : (queuedOn (c.state.cur.rebased resets) refs next b).state.cur.curIb =
      c.state.cur.curIb := by rw [queuedOn_curIb, IbStack.rebased_curIb]
  cases ha with
  | idle hp => exact hgo _ hc' rfl hcallers rfl hib
  | @call q qs hp hchain hl hcb =>
    have hmem : q ∈ nonEmpty refs := hpend ▸ hp ▸ List.mem_cons_self
    refine hrefs q hmem _ hc' rfl (List.cons_ne_nil _ _) rfl .start ?_
    refine endsHalt_drain (fun c'' hc'' hp'' hl'' hva hib'' => ?_) fun q' h => ?_
    · exact hgo c'' hc'' hp'' (hl''.trans hcallers) hva (hib''.trans hib)
    · rw [(pending_tail hp).2] at h
      have hmem' : q' ∈ nonEmpty refs := hpend ▸ hp ▸ List.mem_cons_of_mem q h
      refine ⟨fun hc'' => ?_, hrefs q' hmem'⟩
      -- a chained IB would be the only reference
      have hone := (hq.chain_alone hi hmem' hc'').1
      rw [← hpend, hp, List.cons.injEq] at hone
      rw [hone.2] at h
      exact List.not_mem_nil h
  | @chain q hp hchain hr hend hcb =>
    have hmem : q ∈ nonEmpty refs := hpend ▸ hp ▸ List.mem_cons_self
    refine hrefs q hmem _ hc' rfl ?_ rfl .start ?_
    · rw [started_state, chainIb_callers, hcallers]
      exact hne
    · rw [started_state, chainIb_callers, hcallers]
      exact hends

/-! ## Packets -/

theorem commonBlockVa_le_binsNext {va endVa : UInt64}
    (hle : commonBlockVa (E.headerAt va) va ≤ endVa) :
    commonBlockVa (E.headerAt va) va ≤ E.binsNext va endVa := by
  unfold binsNext commonBlockDwordSize
  generalize commonBlockVa (E.headerAt va) va = start at hle ⊢
  have hstart := start.toNat_lt
  have hend := endVa.toNat_lt
  rw [UInt64.le_iff_toNat_le] at hle ⊢
  have hsub : (endVa - start).toNat = endVa.toNat - start.toNat :=
    UInt64.toNat_sub_of_le _ _ (UInt64.le_iff_toNat_le.mpr hle)
  have hdiv : ((endVa - start) / 4).toNat = (endVa.toNat - start.toNat) / 4 := by
    rw [UInt64.toNat_div, hsub]
    rfl
  have hsize : (((endVa - start) / 4).toUInt32.toUInt64 * 4).toNat ≤ endVa.toNat - start.toNat := by
    rw [UInt64.toNat_mul, UInt32.toNat_toUInt64, UInt64.toNat_toUInt32, hdiv]
    show (endVa.toNat - start.toNat) / 4 % 2 ^ 32 * 4 % 2 ^ 64 ≤ _
    omega
  rw [UInt64.toNat_add]
  omega

theorem halts_lookAhead {h : Pm4Header} {packet : Pm4Packet} {tempVa : UInt64}
    (hok : ∀ c, E.Reachable ibs c → ∀ va, StepsOver E c va → va < va + packetBytes (E.headerAt va))
    (hc : E.Reachable ibs c) (hp : c.phase = .lookAhead h packet tempVa)
    (htemp : tempVa = c.state.cur.curVa ∨
      commonBlockVa (E.headerAt c.state.cur.curVa) c.state.cur.curVa ≤ tempVa)
    (hend : ∀ c' endVa, E.Reachable ibs c' → c'.phase = .lookAhead h packet endVa →
      c'.state = c.state → (E.headerAt endVa).isOpcode CP_END_BIN = true →
      commonBlockVa (E.headerAt c.state.cur.curVa) c.state.cur.curVa ≤ endVa →
      Machine.Halts E.step c') : Machine.Halts E.step c := by
  induction hk : 2 ^ 64 - tempVa.toNat using Nat.strong_induction_on generalizing c tempVa with
  | _ k ih =>
    have hi := inv_reachable hc
    unfold Inv at hi
    rw [hp] at hi
    obtain ⟨-, -, -, hstart, -⟩ := hi
    by_cases hop : (E.headerAt tempVa).isOpcode CP_END_BIN = true
    · refine hend c tempVa hc hp rfl hop (htemp.resolve_left fun heq => ?_)
      rw [heq] at hop
      exact absurd (isOpcode_unique hop hstart) (by decide)
    rw [Bool.not_eq_true] at hop
    have hlt := hok c hc tempVa (.lookAhead hp hop)
    have hstep : E.step c = .ok { c with
        phase := .lookAhead h packet (tempVa + packetBytes (E.headerAt tempVa)) } := by
      unfold step
      rw [hp]
      dsimp only
      unfold lookAhead
      dsimp only
      rw [hop, if_neg Bool.false_ne_true]
    refine Machine.Halts.next hstep (ih _ ?_ (hc.tail hstep) rfl (Or.inr ?_) hend rfl)
    · have hle := tempVa.toNat_lt
      rw [UInt64.lt_iff_toNat_lt] at hlt
      omega
    · rcases htemp with heq | hle
      · rw [heq]
        exact UInt64.le_refl _
      · exact UInt64.le_trans hle (UInt64.le_of_lt hlt)

theorem bodyHalts (hok : ∀ c, E.Reachable ibs c → ∀ va, StepsOver E c va →
      va < va + packetBytes (E.headerAt va))
    (hacc : Acc (fun M N => E.References N M) N) : BodyHalts E ibs N := by
  induction hacc with
  | intro N _ ihN =>
    intro c hc hp hne hN hw hends
    induction hk : 2 ^ 64 - c.state.cur.curVa.toNat using Nat.strong_induction_on generalizing c with
    | _ k ih =>
      by_cases hend : N.AtEnd c.state.cur.curVa
      · exact hends c hc hp rfl (hN.symm ▸ hend)
      have hin : ¬ (c.state.cur.curVa ≠ parked ∧ c.state.cur.endOfCurIb = true) := by
        rw [← hN] at hend
        exact hend
      have hc₁ : E.Reachable ibs { c with phase := .fetch } := hc.tail (step_goOn hp hin)
      refine Machine.Halts.next (step_goOn hp hin) ?_
      -- what the packet references ends, and the IB goes on after the packet
      have hqueues : ∀ {c' resets refs next b}, E.Reachable ibs c' → c'.state = c.state →
          Queues E c' resets refs next b → c.state.cur.curVa < next → Machine.Halts E.step c' := by
        intro c' resets refs next b hc' hstate hq hlt
        have hpk := hq.packetAt (inv_reachable hc')
        rw [hstate] at hpk
        refine halts_of_queues hc' hq (fun q hmem => ?_) (hstate ▸ hends) ?_
        · exact ihN _ ⟨_, _, _, _, q, hw, hend, hpk, hmem, rfl⟩
        · intro c'' hc'' hp'' hl hva hib
          rw [hstate] at hl hib
          refine ih _ ?_ c'' hc'' hp'' (hl ▸ hne) (hib ▸ hN) (hva ▸ hw.packet hend hpk)
            (hl ▸ hends) rfl
          have hle := c.state.cur.curVa.toNat_lt
          rw [UInt64.lt_iff_toNat_lt] at hlt
          rw [hva]
          omega
      refine Machine.Halts.of_step fun c₂ hstep => ?_
      cases stepCase_of_ok (inv_reachable hc₁) hstep with
      | ring hinit => cases congrArg Config.phase hinit
      | goOn hp' => cases hp'
      | leave hp' => cases hp'
      | lookAhead hp' => cases hp'
      | @queue resets refs next b _ hq =>
        have hlt : c.state.cur.curVa < next := by
          cases hq with
          | single hp' hin' hv hop hcb => exact hok _ hc₁ _ (.packet hp' hne hv hcb)
          | bins hp' => cases hp'
        exact (hqueues hc₁ rfl hq hlt).of_reaches ((Machine.Reaches.refl _).tail hstep)
      | startBin hp' hs hin' hv hop hcb =>
        have hlt := hok _ hc₁ _ (.packet hp' hne hv hcb)
        refine halts_lookAhead hok (hc₁.tail hstep) rfl (Or.inl rfl) ?_
        intro c₃ endVa hc₃ hp₃ hstate hop₃ hle
        have hq := Queues.bins hp₃ hop₃
        have hstate' : c₃.state = c.state := hstate
        refine hqueues hc₃ hstate' hq ?_
        rw [hstate']
        have hnext := commonBlockVa_le_binsNext hle
        rw [UInt64.lt_iff_toNat_lt] at hlt ⊢
        rw [UInt64.le_iff_toNat_le] at hnext
        exact lt_of_lt_of_le hlt hnext

/-! ## Submits -/

theorem halts_at_ring (hp : c.phase = .check) (hl : c.state.callers = [])
    (hva : c.state.cur.curVa = parked) : Machine.Halts E.step c := by
  refine Machine.Halts.next (step_goOn hp fun h => h.1 hva) (Machine.Halts.stop (r := .success) ?_)
  unfold step
  dsimp only
  rw [EmulateState.topOfStack, hl]
  rfl

theorem halts_of_acyclic (hacyclic : E.Acyclic ibs)
    (hok : ∀ c, E.Reachable ibs c → ∀ va, StepsOver E c va →
      va < va + packetBytes (E.headerAt va)) : Machine.Halts E.step (initial ibs) := by
  have hbody : ∀ q ∈ nonEmpty (ibs.map (·.queued)), BodyHalts E ibs (E.nodeOf q) :=
    fun q hq => bodyHalts hok (Machine.acc_of_acyclic (hacyclic q hq))
  refine Machine.Halts.of_step fun c' hstep => ?_
  have hc' := (Machine.Reaches.refl (initial ibs)).tail hstep
  cases stepCase_of_ok (inv_reachable (Machine.Reaches.refl (initial ibs))) hstep with
  | goOn hp => cases hp
  | leave hp => cases hp
  | startBin hp => cases hp
  | lookAhead hp => cases hp
  | queue hq =>
    cases hq with
    | single hp => cases hp
    | bins hp => cases hp
  | @ring ibs' _ hinit ha =>
    obtain rfl : ibs = ibs' := by
      have hphase := congrArg Config.phase hinit
      unfold initial at hphase
      exact Phase.start.inj hphase
    have hpend : (queuedOn primaryRing (ibs.map (·.queued)) parked (initial ibs)).state.cur.pending =
        nonEmpty (ibs.map (·.queued)) := pending_queuedOn (Eq.refl 0)
    have hnormal : ∀ q ∈ nonEmpty (ibs.map (·.queued)), q.ibType = .kNormal := fun q hq =>
      (ready_ring.ring rfl).2 q (hpend ▸ hq)
    cases ha with
    | idle => exact halts_at_ring rfl rfl rfl
    | @call q qs hp hchain hl hcb =>
      refine hbody q (hpend ▸ hp ▸ List.mem_cons_self) _ hc' rfl (List.cons_ne_nil _ _) rfl .start ?_
      refine endsHalt_drain (fun c hc hp' hl' hva _ => halts_at_ring hp' hl' hva) fun q' h => ?_
      rw [(pending_tail hp).2] at h
      have hmem : q' ∈ nonEmpty (ibs.map (·.queued)) := hpend ▸ hp ▸ List.mem_cons_of_mem q h
      refine ⟨fun hc => ?_, hbody q' hmem⟩
      rw [hnormal q' hmem] at hc
      cases hc
    | @chain q hp hchain =>
      rw [hnormal q (hpend ▸ hp ▸ List.mem_cons_self)] at hchain
      cases hchain

/-! ## Reads of `AdvanceCb` -/

/-- The bytes that `AdvanceCb` asks for by the count of the header, and the size of the local that
they are read into. -/
def advanceCbAsks (h : Pm4Header) : Option (UInt64 × ℕ) :=
  if h.isOpcode CP_SET_AMBLE then some ((h.type7Count + 1).toUInt64 * 4, 16)
  else if h.isOpcode CP_SET_DRAW_STATE then some ((h.type7Count + 1).toUInt64 * 4, 1204)
  else none

/-- The payloads that the locals hold. -/
def PayloadHeld (h : Pm4Header) : Prop :=
  (h.isOpcode CP_SET_AMBLE = true → h.type7Count.toNat ≤ 3) ∧
    (h.isOpcode CP_SET_DRAW_STATE = true → h.type7Count.toNat ≤ 300)

/-- `AdvanceCb` is called for the packet of the current address. -/
structure Executes (E : Emulation) (c : Config) : Prop where
  phase : c.phase = .fetch
  inside : c.state.callers ≠ []
  valid : (E.headerAt c.state.cur.curVa).isValid = true
  accepted : E.callbacks c.trace (packetEvent E c) = true

theorem type7Count_lt (h : Pm4Header) : h.type7Count.toNat < 2 ^ 15 := by
  have hand : h.type7Count.toNat = (h.u32All >>> 0).toNat &&& 2 ^ 15 - 1 := UInt32.toNat_and ..
  rw [hand]
  exact Nat.and_lt_two_pow _ (by decide)

theorem toNat_countBytes (h : Pm4Header) :
    ((h.type7Count + 1).toUInt64 * 4).toNat = 4 * (h.type7Count.toNat + 1) := by
  have hlt := type7Count_lt h
  have hcount : (h.type7Count + 1).toNat = h.type7Count.toNat + 1 := by
    rw [UInt32.toNat_add]
    exact Nat.mod_eq_of_lt (by rw [UInt32.toNat_one]; omega)
  rw [UInt64.toNat_mul, UInt32.toNat_toUInt64, hcount, Nat.mod_eq_of_lt]
  · exact Nat.mul_comm ..
  · show (h.type7Count.toNat + 1) * 4 < 2 ^ 64
    omega

theorem asks_iff_payloadHeld (h : Pm4Header) :
    (∀ size capacity, advanceCbAsks h = some (size, capacity) → size.toNat ≤ capacity) ↔
      PayloadHeld h := by
  have hsize := toNat_countBytes h
  have hone : h.isOpcode CP_SET_AMBLE = true → h.isOpcode CP_SET_DRAW_STATE = false := by
    intro hamble
    rw [← Bool.not_eq_true]
    exact fun hstate => absurd (isOpcode_unique hamble hstate) (by decide)
  rw [advanceCbAsks, PayloadHeld]
  split_ifs with hamble hstate
  · simp only [Option.some.injEq, Prod.mk.injEq, hamble, hone hamble]
    constructor
    · intro hall
      have hle := hall _ _ ⟨rfl, rfl⟩
      exact ⟨fun _ => by omega, nofun⟩
    · rintro ⟨hle, -⟩ size capacity ⟨rfl, rfl⟩
      have hle := hle trivial
      omega
  · simp only [Option.some.injEq, Prod.mk.injEq, hamble, hstate]
    constructor
    · intro hall
      have hle := hall _ _ ⟨rfl, rfl⟩
      exact ⟨nofun, fun _ => by omega⟩
    · rintro ⟨-, hle⟩ size capacity ⟨rfl, rfl⟩
      have hle := hle trivial
      omega
  · exact iff_of_true nofun ⟨fun h => absurd h hamble, fun h => absurd h hstate⟩

/-- **Termination.** An acyclic submit returns, on the IB stack, no read of `AdvanceCb` asks for
more than its local holds, and every packet that is stepped over advances, exactly when every header
stepped over is of type 2, 4 or 7 with a packet that does not wrap, no packet at the last level calls
an IB, and every `CP_SET_AMBLE` and `CP_SET_DRAW_STATE` that is executed has a payload that its local
holds. -/
theorem returns_iff (hacyclic : E.Acyclic ibs) :
    ((∃ r, Machine.StopsWith E.step (initial ibs) r ∧ r ≠ .failure .levelOutOfRange) ∧
      (∀ c, E.Reachable ibs c → E.Executes c → ∀ size capacity,
        advanceCbAsks (E.headerAt c.state.cur.curVa) = some (size, capacity) →
          size.toNat ≤ capacity) ∧
      ∀ c, E.Reachable ibs c → ∀ va, StepsOver E c va → va < va + packetBytes (E.headerAt va)) ↔
    (∀ c, E.Reachable ibs c → ∀ va, StepsOver E c va → HeaderOk (E.headerAt va) va) ∧
      (∀ c, E.Reachable ibs c → ¬ CallsTooDeep E c) ∧
      ∀ c, E.Reachable ibs c → E.Executes c → PayloadHeld (E.headerAt c.state.cur.curVa) := by
  simp only [advances_iff, asks_iff_payloadHeld]
  constructor
  · rintro ⟨⟨r, hr, hne⟩, hheld, hok⟩
    refine ⟨hok, fun c hc hdeep => hne ?_, hheld⟩
    have hstop : Machine.StopsWith E.step (initial ibs) (.failure .levelOutOfRange) :=
      ⟨c, hc, (step_outOfRange_iff (inv_reachable hc)).mpr hdeep⟩
    exact hr.unique hstop
  · rintro ⟨hok, hdeep, hheld⟩
    have hhalts := halts_of_acyclic hacyclic fun c hc va hva => advances_iff.mpr (hok c hc va hva)
    obtain ⟨r, c, hc, hr⟩ := hhalts.stopsWith
    refine ⟨⟨r, ⟨c, hc, hr⟩, fun hout => hdeep c hc ?_⟩, hheld, hok⟩
    rw [hout] at hr
    exact (step_outOfRange_iff (inv_reachable hc)).mp hr

/-! ## A dword of type 0 -/

theorem not_references (hop : (E.headerAt N.addr).isOpcode CP_START_BIN = false)
    (hrefs : E.packetRefs (E.headerAt N.addr) N.addr = [])
    (hnext : N.addr + packetBytes (E.headerAt N.addr) = N.addr ∨
      N.AtEnd (N.addr + packetBytes (E.headerAt N.addr))) : ∀ M, ¬ E.References N M := by
  have hwithin : ∀ va, Within E N va → va = N.addr ∨ N.AtEnd va := by
    intro va hva
    induction hva with
    | start => exact Or.inl rfl
    | packet h hin hp ih =>
      obtain rfl := ih.resolve_right hin
      cases hp with
      | single => exact hnext
      | bins hv hop' => exact absurd (hop.symm.trans hop') Bool.noConfusion
  rintro M ⟨va, resets, refs, next, q, hva, hin, hp, hq, -⟩
  obtain rfl := (hwithin va hva).resolve_right hin
  cases hp with
  | single =>
    rw [hrefs] at hq
    exact List.not_mem_nil hq
  | bins hv hop' => exact absurd (hop.symm.trans hop') Bool.noConfusion

/-- A submit of one IB of one dword. -/
def oneDwordIbs : List IndirectBufferInfo := [{ vaAddr := 0x1000, sizeInDwords := 1 }]

/-- The dword is zero. -/
def zeroDword : Emulation := accepting [.ofDwords 0x1000 [0]]

/-- The dword is a `CP_NOP` without payload. -/
def nopDword : Emulation := accepting [.ofDwords 0x1000 [0x70108000]]

theorem acyclic_nopDword : nopDword.Acyclic oneDwordIbs := by
  refine acyclic_of_no_references fun q hq => ?_
  obtain rfl := List.mem_singleton.mp hq
  exact not_references (by decide) (by decide) (Or.inr ⟨by decide, by decide⟩)

/-- At the `CP_NOP`. -/
def AtNop (c : Config) : Prop :=
  c.phase = .fetch → c.state.callers ≠ [] → c.state.cur.curVa = 0x1000

theorem reachable_nopDword {c : Config} (hc : nopDword.Reachable oneDwordIbs c) :
    AtNop c ∧ c.state.topOfStack < 2 ∧ ∀ h packet va, c.phase ≠ .lookAhead h packet va := by
  rcases hc.next (by rfl) with rfl | hc
  · exact ⟨nofun, by decide, nofun⟩
  rcases hc.next (by rfl) with rfl | hc
  · exact ⟨nofun, by decide, nofun⟩
  rcases hc.next (by rfl) with rfl | hc
  · exact ⟨fun _ _ => rfl, by decide, nofun⟩
  rcases hc.next (by rfl) with rfl | hc
  · exact ⟨nofun, by decide, nofun⟩
  rcases hc.next (by rfl) with rfl | hc
  · exact ⟨nofun, by decide, nofun⟩
  obtain rfl := hc.eq_of_error (r := .success) (by rfl)
  exact ⟨fun _ hne => absurd rfl hne, by decide, nofun⟩

/-- The `CP_NOP` is of type 7, and no packet of the submit is read by its count. -/
theorem returns_nopDword :
    (∃ r, Machine.StopsWith nopDword.step (initial oneDwordIbs) r ∧
      r ≠ .failure .levelOutOfRange) ∧
    ∀ c, nopDword.Reachable oneDwordIbs c → ∀ va, StepsOver nopDword c va →
      va < va + packetBytes (nopDword.headerAt va) := by
  have hheader : nopDword.headerAt 0x1000 = ⟨0x70108000⟩ := by rfl
  obtain ⟨hstops, -, hadvances⟩ := (returns_iff acyclic_nopDword).mpr ⟨fun c hc va hva => by
      obtain ⟨hat, -, hlook⟩ := reachable_nopDword hc
      cases hva with
      | packet hp hin =>
        rw [hat hp hin, hheader]
        exact ⟨.inr (.inr (by decide)), by decide⟩
      | lookAhead hp => exact absurd hp (hlook _ _ _),
    fun c hc hdeep => by
      have hlt := (reachable_nopDword hc).2.1
      have hlast := hdeep.1
      rw [kTotalIbLevels] at hlast
      omega,
    fun c hc hexecutes => by
      rw [(reachable_nopDword hc).1 hexecutes.phase hexecutes.inside, hheader]
      exact ⟨fun hop => absurd hop (by decide), fun hop => absurd hop (by decide)⟩⟩
  exact ⟨hstops, hadvances⟩

/-- At the zero dword. -/
def atZeroDword : EmulateState :=
  ⟨0, ⟨0x1000, ⟨0x1000, 1, false, 7, .kNormal⟩, [], 0⟩,
    [{ primaryRing with ibQueue := [⟨.kNormal, 0x1000, 1, false, 7⟩], ibQueueIndex := 1 }]⟩

/-- **The zero dword is processed forever**: its header passes the validity check and has size 0. -/
theorem zeroDword_loops : zeroDword.Acyclic oneDwordIbs ∧
    ¬ ∃ r, Machine.StopsWith zeroDword.step (initial oneDwordIbs) r := by
  constructor
  · refine acyclic_of_no_references fun q hq => ?_
    obtain rfl := List.mem_singleton.mp hq
    exact not_references (by decide) (by decide) (Or.inl (by decide))
  rintro ⟨r, hr⟩
  have hstart : ∃ c, Machine.Reaches zeroDword.step (initial oneDwordIbs) c ∧
      c.state = atZeroDword ∧ c.phase = .check :=
    ⟨_, (Machine.Reaches.refl _).tail rfl, rfl, rfl⟩
  obtain ⟨c, hc, hstate, hp⟩ := hstart
  refine Machine.not_halts_of_trap (P := fun c : Config =>
    c.state = atZeroDword ∧ (c.phase = .check ∨ c.phase = .fetch)) ?_ ⟨hstate, Or.inl hp⟩
    (hr.halts.of_reaches hc)
  rintro ⟨s, t, p⟩ ⟨rfl, rfl | rfl⟩
  · exact ⟨_, rfl, rfl, Or.inr rfl⟩
  · have hstep : zeroDword.step ⟨atZeroDword, t, .fetch⟩ =
        .ok ⟨atZeroDword, t ++ [.packet 0 0x1000 ⟨0⟩], .check⟩ := by
      have hzero : zeroDword.headerAt atZeroDword.cur.curVa = ⟨0⟩ := by rfl
      have hlevel : ¬ atZeroDword.topOfStack = 0 := by decide
      unfold step
      dsimp only
      rw [if_neg hlevel]
      unfold executePacket
      dsimp only
      rw [hzero]
      rfl
    exact ⟨_, hstep, rfl, Or.inl rfl⟩

end Emulation

end Dive
