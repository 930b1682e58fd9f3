import Dive.Memory.Contiguous
import Dive.Pm4.Order
import Dive.Pm4.Termination

/-!
# Packets and the ends of their IBs

* `Contains`: some bytes lie in an IB; `StaysInside`: the packets that are delivered and the headers
  of the look-ahead do, and they are captured.
* `Involves`: the IBs of a submit; `Whole`: an IB that its packets divide without a remainder.
* **`staysInside_of_whole`**: a submit of whole IBs stays inside them, in every run.
* **`whole_of_staysInside`**: in a run that succeeds, nothing else does.
-/

namespace Dive

/-- The address after the IB. -/
def IbNode.endAddr (N : IbNode) : UInt64 := N.addr + N.sizeInDwords.toUInt64 * 4

/-- The `n` bytes at `va` lie in the IB. -/
def IbNode.Contains (N : IbNode) (va : UInt64) (n : ℕ) : Prop :=
  N.addr ≤ va ∧ va.toNat + n ≤ N.endAddr.toNat

/-- The bytes of a packet: its header and its payload. -/
def packetLength (h : Pm4Header) : ℕ := max 4 (packetBytes h).toNat

namespace Emulation

variable {E : Emulation} {ibs : List IndirectBufferInfo} {b c c' : Config} {N : IbNode}
  {q : QueuedIb} {va tempVa next endVa : UInt64} {resets : Bool} {refs : List QueuedIb}

/-- The next call is that for the packet at the current address. -/
def Delivers (E : Emulation) (c : Config) : Prop :=
  c.phase = .fetch ∧ c.state.callers ≠ [] ∧ (E.headerAt c.state.cur.curVa).isValid = true

/-- Every packet that is delivered lies in the current IB and is captured; a packet that does not
lie in it ends the emulation; and so does every header that the look-ahead reads. -/
structure StaysInside (E : Emulation) (m : MemoryManager) (ibs : List IndirectBufferInfo) :
    Prop where
  packets : ∀ c, E.Reachable ibs c → Delivers E c →
    c.state.cur.curIb.node.Contains c.state.cur.curVa
      (packetLength (E.headerAt c.state.cur.curVa)) ∧
    m.CapturedRange E.submitIndex c.state.cur.curVa
      (packetLength (E.headerAt c.state.cur.curVa))
  rejects : ∀ c, E.Reachable ibs c → c.phase = .fetch → c.state.callers ≠ [] →
    ¬ c.state.cur.curIb.node.Contains c.state.cur.curVa
      (packetLength (E.headerAt c.state.cur.curVa)) → ∃ f, E.step c = .error (.failure f)
  lookAhead : ∀ c h packet tempVa, E.Reachable ibs c → c.phase = .lookAhead h packet tempVa →
    c.state.cur.curIb.node.Contains tempVa 4

/-! ## Whole IBs -/

/-- Packet by packet from its start, the emulator comes to `va` in the IB. -/
inductive Comes (E : Emulation) (N : IbNode) : UInt64 → Prop
  | start : Comes E N N.addr
  | packet {va next : UInt64} {resets : Bool} {refs : List QueuedIb} (h : Comes E N va)
      (hin : ¬ N.AtEnd va) (hp : PacketAt E va resets refs next)
      (hc : ∀ q ∈ nonEmpty refs, q.ibType ≠ .kChain) : Comes E N next

/-- The IBs of a submit, and those that their packets reference. -/
inductive Involves (E : Emulation) (ibs : List IndirectBufferInfo) : IbNode → Prop
  | submitted {q : QueuedIb} (hq : q ∈ nonEmpty (ibs.map (·.queued))) :
      Involves E ibs (E.nodeOf q)
  | referenced {N : IbNode} {va next : UInt64} {resets : Bool} {refs : List QueuedIb} {q : QueuedIb}
      (h : Involves E ibs N) (hva : Comes E N va) (hin : ¬ N.AtEnd va)
      (hp : PacketAt E va resets refs next) (hq : q ∈ nonEmpty refs) : Involves E ibs (E.nodeOf q)

/-- The look-ahead from `va` reads the header at `tempVa`. -/
inductive LooksAt (E : Emulation) : UInt64 → UInt64 → Prop
  | first {va : UInt64} : LooksAt E va va
  | next {va tempVa : UInt64} (hop : (E.headerAt va).isOpcode CP_END_BIN = false)
      (h : LooksAt E (va + packetBytes (E.headerAt va)) tempVa) : LooksAt E va tempVa

/-- The packet at `va` ends in the IB; if it is a `CP_START_BIN`, its `CP_END_BIN` comes before the
end of the IB. -/
structure Ends (E : Emulation) (N : IbNode) (va : UInt64) : Prop where
  packet : N.Contains va (packetLength (E.headerAt va))
  bins : (E.headerAt va).isOpcode CP_START_BIN = true → ∀ tempVa, LooksAt E va tempVa →
    N.Contains tempVa 4

/-- The IB is made of whole packets, up to its end or to a header that is not valid. -/
def Whole (E : Emulation) (N : IbNode) : Prop :=
  ∀ va, Comes E N va → ¬ N.AtEnd va → (E.headerAt va).isValid = true → Ends E N va

theorem LooksAt.tail (h : LooksAt E va tempVa)
    (hop : (E.headerAt tempVa).isOpcode CP_END_BIN = false) :
    LooksAt E va (tempVa + packetBytes (E.headerAt tempVa)) := by
  induction h with
  | first => exact .next hop .first
  | next hop' _ ih => exact .next hop' (ih hop)

/-! ## The levels of a run -/

/-- The levels above the primary ring have the property `P`. -/
def Levels (P : IbStack → Prop) : List IbStack → Prop
  | [] => True
  | [_] => True
  | l :: l' :: ls => P l ∧ Levels P (l' :: ls)

variable {P : IbStack → Prop} {l : IbStack} {ls : List IbStack}

theorem levels_cons_iff (hne : ls ≠ []) : Levels P (l :: ls) ↔ P l ∧ Levels P ls := by
  obtain ⟨l', ls, rfl⟩ := List.exists_cons_of_ne_nil hne
  exact Iff.rfl

theorem Levels.tail (h : Levels P (l :: ls)) : Levels P ls := by
  cases ls with
  | nil => trivial
  | cons l' ls => exact h.2

theorem levels_cons (hl : ls ≠ [] → P l) (hls : Levels P ls) : Levels P (l :: ls) := by
  cases ls with
  | nil => trivial
  | cons l' ls => exact ⟨hl (List.cons_ne_nil _ _), hls⟩

/-- A level of the submit: its IB is involved, and the emulator comes to its address in it. -/
def Placed (E : Emulation) (ibs : List IndirectBufferInfo) (l : IbStack) : Prop :=
  Involves E ibs l.curIb.node ∧ Comes E l.curIb.node l.curVa

/-- What every configuration of a run has. -/
structure Located (E : Emulation) (ibs : List IndirectBufferInfo) (c : Config) : Prop where
  start : ∀ ibs', c.phase = .start ibs' → ibs' = ibs
  levels : Levels (Placed E ibs) (c.state.cur :: c.state.callers)
  pending : ∀ l ∈ c.state.cur :: c.state.callers, ∀ q ∈ l.pending, Involves E ibs (E.nodeOf q)
  lookAhead : ∀ h packet tempVa, c.phase = .lookAhead h packet tempVa →
    LooksAt E c.state.cur.curVa tempVa

theorem comes_entered (E : Emulation) (q : QueuedIb) (ibType : IbType) :
    Comes E (E.enteredIb q ibType).node q.addr := .start

theorem located_advances (ha : Advances E b c') (hr : Ready b.state)
    (hcur : b.state.callers ≠ [] → (∀ q ∈ b.state.cur.pending, q.ibType ≠ .kChain) →
      Placed E ibs b.state.cur)
    (hcallers : Levels (Placed E ibs) b.state.callers)
    (hpending : ∀ l ∈ b.state.cur :: b.state.callers, ∀ q ∈ l.pending,
      Involves E ibs (E.nodeOf q)) :
    Levels (Placed E ibs) (c'.state.cur :: c'.state.callers) ∧
      ∀ l ∈ c'.state.cur :: c'.state.callers, ∀ q ∈ l.pending, Involves E ibs (E.nodeOf q) := by
  have hcurPending := hpending _ List.mem_cons_self
  cases ha with
  | idle hp =>
    refine ⟨levels_cons (fun hne => hcur hne fun q hq => ?_) hcallers, hpending⟩
    rw [hp] at hq
    exact absurd hq List.not_mem_nil
  | @call q qs hp hq hl hcb =>
    obtain ⟨-, htail⟩ := pending_tail hp
    have hmem : q ∈ b.state.cur.pending := hp ▸ List.mem_cons_self
    have hno : ∀ q' ∈ b.state.cur.pending, q'.ibType ≠ .kChain := by
      intro q' hq' hc
      have hone := (hr.chains q' hq' hc).1
      rw [hone, List.mem_singleton] at hmem
      exact hq (hmem ▸ hc)
    refine ⟨levels_cons (fun _ => ⟨hcurPending q hmem, comes_entered E q q.ibType⟩)
      (levels_cons (fun hne => hcur hne hno) hcallers), fun l hlev q' hq' => ?_⟩
    rcases List.mem_cons.mp hlev with rfl | hlev
    · exact absurd hq' List.not_mem_nil
    rcases List.mem_cons.mp hlev with rfl | hlev
    · rw [htail] at hq'
      exact hcurPending q' (hp ▸ List.mem_cons_of_mem q hq')
    · exact hpending l (List.mem_cons_of_mem _ hlev) q' hq'
  | @chain q hp hq hq' hend hcb =>
    obtain ⟨-, htail⟩ := pending_tail hp
    have hmem : q ∈ b.state.cur.pending := hp ▸ List.mem_cons_self
    refine ⟨levels_cons (fun _ => ⟨hcurPending q hmem, comes_entered E q _⟩) hcallers,
      fun l hlev q' hq'' => ?_⟩
    rcases List.mem_cons.mp hlev with rfl | hlev
    · have hnil : q' ∈ ([] : List QueuedIb) := htail ▸ hq''
      exact absurd hnil List.not_mem_nil
    · exact hpending l (List.mem_cons_of_mem _ hlev) q' hq''

theorem involves_initial (hq : q ∈ (queuedOn primaryRing (ibs.map (·.queued)) parked
    (initial ibs)).state.cur.pending) : Involves E ibs (E.nodeOf q) := by
  have hpending : (queuedOn primaryRing (ibs.map (·.queued)) parked (initial ibs)).state.cur.pending
      = nonEmpty (ibs.map (·.queued)) := pending_queuedOn (Eq.refl 0)
  rw [hpending] at hq
  exact .submitted hq

/-- **One iteration.** -/
theorem located_step (hi : Inv E c) (h : E.step c = .ok c') (hloc : Located E ibs c) :
    Located E ibs c' := by
  cases stepCase_of_ok hi h with
  | ring hc ha =>
    have hfirst := hloc.start _ (congrArg Config.phase hc)
    subst hc
    subst hfirst
    have hphase := (stackOk_of_advances ha ready_ring).2
    obtain ⟨hlevels, hpending⟩ := located_advances ha ready_ring (fun hne => absurd rfl hne)
      trivial fun l hl q hq => by
        obtain rfl := List.mem_singleton.mp hl
        exact involves_initial hq
    refine ⟨fun _ hp => ?_, hlevels, hpending, fun _ _ _ hp => ?_⟩
    all_goals
      rw [hphase] at hp
      cases hp
  | goOn hp hs hin =>
    exact ⟨fun _ hp => (nomatch hp), hloc.levels, hloc.pending, fun _ _ _ hp => nomatch hp⟩
  | @leave l ls _ hp hs hend hl ha =>
    have hphase := (stackOk_of_advances ha (ready_left hs hl)).2
    have hlevels := hloc.levels.tail
    have hpending := hloc.pending
    rw [hl] at hlevels hpending
    obtain ⟨hlevels', hpending'⟩ := located_advances ha (ready_left hs hl)
      (fun hne _ => ((levels_cons_iff hne).mp hlevels).1) hlevels.tail
      fun l' hl' => hpending l' (List.mem_cons_of_mem _ hl')
    refine ⟨fun _ hp' => ?_, hlevels', hpending', fun _ _ _ hp' => ?_⟩
    all_goals
      rw [hphase, show (left l ls c).phase = c.phase from rfl, hp] at hp'
      cases hp'
  | startBin hp hs hin hv hop hcb =>
    refine ⟨fun _ hp' => (nomatch hp'), hloc.levels, hloc.pending, fun h packet tempVa hp' => ?_⟩
    cases hp'
    exact .first
  | lookAhead hp hop =>
    refine ⟨fun _ hp' => (nomatch hp'), hloc.levels, hloc.pending, fun h packet tempVa hp' => ?_⟩
    cases hp'
    exact (hloc.lookAhead _ _ _ hp).tail hop
  | @queue resets refs next b _ hq hroom ha =>
    have hready := hq.ready hi
    have hphase := (stackOk_of_advances ha hready).2
    obtain ⟨hs, hin⟩ := hq.stackOk hi
    have hpacket := hq.packetAt hi
    have hstate := hq.state_eq
    have hpend : (queuedOn (c.state.cur.rebased resets) refs next b).state.cur.pending =
      nonEmpty refs := pending_queuedOn (hs.idle.rebased resets)
    obtain ⟨hinvolved, hcomes⟩ := ((levels_cons_iff hin.1).mp hloc.levels).1
    have hcallers : Levels (Placed E ibs) b.state.callers := hstate ▸ hloc.levels.tail
    have hatEnd : ¬ c.state.cur.curIb.node.AtEnd c.state.cur.curVa := hin.2
    have hnode : (queuedOn (c.state.cur.rebased resets) refs next b).state.cur.curIb =
        c.state.cur.curIb := by rw [queuedOn_curIb, IbStack.rebased_curIb]
    obtain ⟨hlevels', hpending'⟩ := located_advances ha hready
      (fun _ hno => by
        rw [hpend] at hno
        rw [Placed, hnode]
        exact ⟨hinvolved, .packet hcomes hatEnd hpacket hno⟩) hcallers
      (fun l hl q hq' => by
        rcases List.mem_cons.mp hl with rfl | hl
        · rw [hpend] at hq'
          exact .referenced hinvolved hcomes hatEnd hpacket hq'
        · refine hloc.pending l (List.mem_cons_of_mem _ ?_) q hq'
          rwa [queuedOn_callers, hstate] at hl)
    refine ⟨fun _ hp' => ?_, hlevels', hpending', fun _ _ _ hp' => ?_⟩
    all_goals
      rw [hphase] at hp'
      cases hp'

/-- **Where a run is.** -/
theorem located_reachable (hc : E.Reachable ibs c) : Located E ibs c := by
  have hstart : Located E ibs (initial ibs) := by
    refine ⟨fun ibs' hp => ?_, trivial, fun l hl q hq => ?_, fun h packet tempVa hp => ?_⟩
    · cases hp
      rfl
    · obtain rfl := List.mem_singleton.mp hl
      exact absurd hq List.not_mem_nil
    · cases hp
  exact Machine.Reaches.invariant (P := Located E ibs) hc hstart fun _ _ hu huv hloc =>
    located_step (inv_reachable hu) huv hloc

/-! ## Whole IBs keep a run inside -/

theorem Involves.captured {m : MemoryManager} (hm : E.memManager = m.toInterface)
    (h : Involves E ibs N) (hskip : N.skip = false) :
    m.CapturedRange E.submitIndex N.addr (N.sizeInDwords.toUInt64 * 4).toNat := by
  have hentered : ∃ q : QueuedIb, E.nodeOf q = N := by
    cases h with
    | submitted => exact ⟨_, rfl⟩
    | referenced => exact ⟨_, rfl⟩
  obtain ⟨q, rfl⟩ := hentered
  have hvalid : E.memManager.isValid E.submitIndex q.addr (q.sizeInDwords.toUInt64 * 4) = true := by
    have : (q.skip || !E.memManager.isValid E.submitIndex q.addr
      (q.sizeInDwords.toUInt64 * 4)) = false := hskip
    simpa using (Bool.or_eq_false_iff.mp this).2
  rw [hm] at hvalid
  exact MemoryManager.captured_of_isValid hvalid

theorem captured_of_contains {m : MemoryManager} {submitIndex : UInt32} {n : ℕ}
    (h : N.Contains va n)
    (hcaptured : m.CapturedRange submitIndex N.addr (N.sizeInDwords.toUInt64 * 4).toNat) :
    m.CapturedRange submitIndex va n := by
  obtain ⟨hfirst, hlast⟩ := h
  rw [UInt64.le_iff_toNat_le] at hfirst
  rw [IbNode.endAddr, UInt64.toNat_add] at hlast
  have hva := va.toNat_lt
  have haddr := N.addr.toNat_lt
  have hsize := (N.sizeInDwords.toUInt64 * 4).toNat_lt
  intro k hk
  have hshift : va + UInt64.ofNat k = N.addr + UInt64.ofNat (va.toNat - N.addr.toNat + k) := by
    apply UInt64.toNat_inj.mp
    rw [UInt64.toNat_add, UInt64.toNat_add, UInt64.toNat_ofNat', UInt64.toNat_ofNat']
    omega
  rw [hshift]
  apply hcaptured
  have hbytes : (N.sizeInDwords.toUInt64 * 4).toNat < 2 ^ 35 := by
    have := N.sizeInDwords.toNat_lt
    rw [UInt64.toNat_mul, UInt32.toNat_toUInt64]
    show N.sizeInDwords.toNat * 4 % 2 ^ 64 < _
    omega
  omega

theorem packetLength_pos (h : Pm4Header) : 0 < packetLength h :=
  lt_of_lt_of_le (by decide) (le_max_left 4 _)

theorem not_contains_parked {n : ℕ} (hn : 0 < n) : ¬ N.Contains parked n := by
  rintro ⟨-, hlast⟩
  have hend := N.endAddr.toNat_lt
  have hparked : parked.toNat = 2 ^ 64 - 1 := by decide
  omega

/-- **A submit of whole IBs stays inside them.** -/
theorem staysInside_of_whole {m : MemoryManager} (hm : E.memManager = m.toInterface)
    (h : ∀ N, Involves E ibs N → Whole E N) : StaysInside E m ibs := by
  have hends : ∀ c, E.Reachable ibs c → Delivers E c →
      Involves E ibs c.state.cur.curIb.node ∧ ¬ c.state.cur.curIb.node.AtEnd c.state.cur.curVa ∧
        Ends E c.state.cur.curIb.node c.state.cur.curVa := by
    rintro c hc ⟨hp, hne, hv⟩
    have hi := inv_reachable hc
    unfold Inv at hi
    rw [hp] at hi
    obtain ⟨hinvolved, hcomes⟩ := ((levels_cons_iff hne).mp (located_reachable hc).levels).1
    exact ⟨hinvolved, (hi.2 hne).2, h _ hinvolved _ hcomes (hi.2 hne).2 hv⟩
  have hpackets : ∀ c, E.Reachable ibs c → Delivers E c →
      c.state.cur.curIb.node.Contains c.state.cur.curVa
        (packetLength (E.headerAt c.state.cur.curVa)) := fun c hc hd => (hends c hc hd).2.2.packet
  refine ⟨fun c hc hd => ⟨hpackets c hc hd, ?_⟩, fun c hc hp hne hout => ?_,
    fun c hh packet tempVa hc hp => ?_⟩
  · obtain ⟨hinvolved, hin, -⟩ := hends c hc hd
    have hcontains := hpackets c hc hd
    refine captured_of_contains hcontains (hinvolved.captured hm ?_)
    have hne : c.state.cur.curVa ≠ parked := by
      intro heq
      rw [heq] at hcontains
      exact not_contains_parked (packetLength_pos _) hcontains
    by_contra hskip
    rw [Bool.not_eq_false] at hskip
    exact hin ⟨hne, by rw [hskip, Bool.true_or]⟩
  · have hv : ¬ (E.headerAt c.state.cur.curVa).isValid = true := fun hv =>
      hout (hpackets c hc ⟨hp, hne, hv⟩)
    refine ⟨.invalidHeader, ?_⟩
    have htop : ¬ c.state.topOfStack = 0 := fun h0 => hne (List.length_eq_zero_iff.mp h0)
    unfold step
    rw [hp]
    dsimp only
    rw [if_neg htop, executePacket]
    rw [if_neg hv]
  · have hi := inv_reachable hc
    have hloc := located_reachable hc
    unfold Inv at hi
    rw [hp] at hi
    obtain ⟨-, hin, hv, hop, -⟩ := hi
    obtain ⟨hinvolved, hcomes⟩ := ((levels_cons_iff hin.1).mp hloc.levels).1
    exact (h _ hinvolved _ hcomes hin.2 hv).bins hop tempVa (hloc.lookAhead _ _ _ hp)

/-! ## A run that succeeds inside its IBs -/

/-- From `va` on the IB is made of whole packets, and so are the IBs that these reference. -/
inductive SoundFrom (E : Emulation) : IbNode → UInt64 → Prop
  | ended {N : IbNode} {va : UInt64} (hend : N.AtEnd va) : SoundFrom E N va
  | packet {N : IbNode} {va next : UInt64} {resets : Bool} {refs : List QueuedIb}
      (hin : ¬ N.AtEnd va) (hends : Ends E N va) (hp : PacketAt E va resets refs next)
      (hrefs : ∀ q ∈ nonEmpty refs, SoundFrom E (E.nodeOf q) q.addr)
      (hnext : (∀ q ∈ nonEmpty refs, q.ibType ≠ .kChain) → SoundFrom E N next) :
      SoundFrom E N va

theorem SoundFrom.comes (h : SoundFrom E N N.addr) (hva : Comes E N va) : SoundFrom E N va := by
  induction hva with
  | start => exact h
  | packet _ hin hp hc ih =>
    cases ih with
    | ended hend => exact absurd hend hin
    | packet _ _ hp' _ hnext =>
      obtain ⟨-, rfl, rfl⟩ := hp.unique hp'
      exact hnext hc

theorem Involves.sound (h : Involves E ibs N)
    (hibs : ∀ q ∈ nonEmpty (ibs.map (·.queued)), SoundFrom E (E.nodeOf q) q.addr) :
    SoundFrom E N N.addr := by
  induction h with
  | submitted hq => exact hibs _ hq
  | referenced _ hva hin hp hq ih =>
    cases ih.comes hva with
    | ended hend => exact absurd hend hin
    | packet _ _ hp' hrefs _ =>
      obtain ⟨-, rfl, -⟩ := hp.unique hp'
      exact hrefs _ hq

theorem SoundFrom.whole (h : SoundFrom E N N.addr) : Whole E N := by
  intro va hva hin _
  cases h.comes hva with
  | ended hend => exact absurd hend hin
  | packet _ hends => exact hends

/-- The rest of the IBs on the stack and the queued ones are sound. -/
structure SoundRest (E : Emulation) (stack : List IbStack) : Prop where
  levels : Levels (fun l => SoundFrom E l.curIb.node l.curVa) stack
  pending : ∀ l ∈ stack, ∀ q ∈ l.pending, SoundFrom E (E.nodeOf q) q.addr

/-- What a configuration still emulates is sound. -/
def SoundAhead (E : Emulation) (c : Config) : Prop :=
  match c.phase with
  | .start ibs => ∀ q ∈ nonEmpty (ibs.map (·.queued)), SoundFrom E (E.nodeOf q) q.addr
  | .check => SoundRest E (c.state.cur :: c.state.callers)
  | .fetch => SoundRest E (c.state.cur :: c.state.callers)
  | .lookAhead _ _ tempVa => SoundRest E c.state.callers ∧ ∃ endVa, EndBin E tempVa endVa ∧
      (∀ va, LooksAt E tempVa va → c.state.cur.curIb.node.Contains va 4) ∧
      (∀ q ∈ nonEmpty (E.binRefs c.state.cur.curVa endVa), SoundFrom E (E.nodeOf q) q.addr) ∧
      SoundFrom E c.state.cur.curIb.node (E.binsNext c.state.cur.curVa endVa)

theorem soundRest_advances (ha : Advances E b c') (hr : Ready b.state)
    (h : SoundRest E (c'.state.cur :: c'.state.callers)) :
    (b.state.callers ≠ [] → (∀ q ∈ b.state.cur.pending, q.ibType ≠ .kChain) →
      SoundFrom E b.state.cur.curIb.node b.state.cur.curVa) ∧
    SoundRest E b.state.callers ∧
    ∀ q ∈ b.state.cur.pending, SoundFrom E (E.nodeOf q) q.addr := by
  have htailPending := fun l hl => h.pending l (List.mem_cons_of_mem _ hl)
  cases ha with
  | idle hp =>
    exact ⟨fun hne _ => ((levels_cons_iff hne).mp h.levels).1, ⟨h.levels.tail, htailPending⟩,
      h.pending _ List.mem_cons_self⟩
  | @call q qs hp hq hl hcb =>
    obtain ⟨-, htail⟩ := pending_tail hp
    have hlevels := (levels_cons_iff (List.cons_ne_nil _ _)).mp h.levels
    have hcaller := htailPending _ List.mem_cons_self
    rw [htail] at hcaller
    refine ⟨fun hne _ => ((levels_cons_iff hne).mp hlevels.2).1,
      ⟨hlevels.2.tail, fun l hl => htailPending l (List.mem_cons_of_mem _ hl)⟩, ?_⟩
    rw [hp]
    intro q' hq'
    rcases List.mem_cons.mp hq' with rfl | hq'
    · exact hlevels.1
    · exact hcaller q' hq'
  | @chain q hp hq hq' hend hcb =>
    have hmem : q ∈ b.state.cur.pending := hp ▸ List.mem_cons_self
    refine ⟨fun _ hno => absurd hq (hno q hmem), ⟨h.levels.tail, htailPending⟩, ?_⟩
    rw [hp]
    intro q' hq''
    obtain rfl := List.mem_singleton.mp hq''
    have hne : b.state.callers ≠ [] := by
      intro hnil
      have hnormal := (hr.ring hnil).2 _ hmem
      rw [hq] at hnormal
      cases hnormal
    exact ((levels_cons_iff hne).mp h.levels).1

/-- **One iteration, read backward.** -/
theorem soundAhead_step {m : MemoryManager} (hinside : StaysInside E m ibs)
    (hc : E.Reachable ibs c) (h : E.step c = .ok c') (hahead : SoundAhead E c') :
    SoundAhead E c := by
  have hi := inv_reachable hc
  unfold SoundAhead
  cases stepCase_of_ok hi h with
  | @ring ibs' _ hc ha =>
    subst hc
    have hphase := (stackOk_of_advances ha ready_ring).2
    unfold SoundAhead at hahead
    rw [hphase] at hahead
    have hpending : (queuedOn primaryRing (ibs'.map (·.queued)) parked
        (initial ibs')).state.cur.pending = nonEmpty (ibs'.map (·.queued)) :=
      pending_queuedOn (Eq.refl 0)
    have hqueue := (soundRest_advances ha ready_ring hahead).2.2
    rw [hpending] at hqueue
    exact hqueue
  | goOn hp hs hin =>
    rw [hp]
    exact hahead
  | @leave l ls _ hp hs hend hl ha =>
    have hphase := (stackOk_of_advances ha (ready_left hs hl)).2
    unfold SoundAhead at hahead
    rw [hphase, show (left l ls c).phase = c.phase from rfl, hp] at hahead
    obtain ⟨hcur, hrest, hqueue⟩ := soundRest_advances ha (ready_left hs hl) hahead
    have hno : ∀ q ∈ l.pending, q.ibType ≠ .kChain := by
      have hcallers := hs.callers
      rw [hl] at hcallers
      exact (callersOk_cons hcallers).2.2.2.1
    rw [hp, hl]
    refine ⟨levels_cons (fun _ => .ended hend) (levels_cons (fun hne => hcur hne hno) hrest.levels),
      fun l' hl' q hq => ?_⟩
    rcases List.mem_cons.mp hl' with rfl | hl'
    · rw [hs.idle.pending] at hq
      exact absurd hq List.not_mem_nil
    rcases List.mem_cons.mp hl' with rfl | hl'
    · exact hqueue q hq
    · exact hrest.pending l' hl' q hq
  | startBin hp hs hin hv hop hcb =>
    obtain ⟨hrest, endVa, hbin, hlooks, hrefs, hnext⟩ := hahead
    have hpacket := (hinside.packets c hc ⟨hp, hin.1, hv⟩).1
    rw [hp]
    refine ⟨levels_cons (fun _ => .packet hin.2 ⟨hpacket, fun _ => hlooks⟩ (.bins hv hop hbin)
      hrefs fun _ => hnext) hrest.levels, fun l hl q hq => ?_⟩
    rcases List.mem_cons.mp hl with rfl | hl
    · rw [hs.idle.pending] at hq
      exact absurd hq List.not_mem_nil
    · exact hrest.pending l hl q hq
  | @lookAhead hh packet tempVa hp hop =>
    obtain ⟨hrest, endVa, hbin, hlooks, hrefs, hnext⟩ := hahead
    rw [hp]
    refine ⟨hrest, endVa, .next hop hbin, fun va hva => ?_, hrefs, hnext⟩
    cases hva with
    | first => exact hinside.lookAhead c hh packet tempVa hc hp
    | next _ hva => exact hlooks va hva
  | @queue resets refs next b _ hq hroom ha =>
    have hready := hq.ready hi
    have hphase := (stackOk_of_advances ha hready).2
    obtain ⟨hs, hin⟩ := hq.stackOk hi
    have hstate := hq.state_eq
    have hpend : (queuedOn (c.state.cur.rebased resets) refs next b).state.cur.pending =
      nonEmpty refs := pending_queuedOn (hs.idle.rebased resets)
    have hnode : (queuedOn (c.state.cur.rebased resets) refs next b).state.cur.curIb =
        c.state.cur.curIb := by rw [queuedOn_curIb, IbStack.rebased_curIb]
    unfold SoundAhead at hahead
    rw [hphase] at hahead
    obtain ⟨hcur, hrest, hqueue⟩ := soundRest_advances ha hready hahead
    rw [hpend, hnode, queuedOn_callers, hstate] at hcur
    rw [queuedOn_callers, hstate] at hrest
    rw [hpend] at hqueue
    have hpacketAt := hq.packetAt hi
    cases hq with
    | single hp _ hv hop hcb =>
      have hpacket := (hinside.packets c hc ⟨hp, hin.1, hv⟩).1
      rw [hp]
      refine ⟨levels_cons (fun _ => .packet hin.2 ⟨hpacket, fun hop' =>
        absurd (hop.symm.trans hop') Bool.noConfusion⟩ hpacketAt hqueue (hcur hin.1)) hrest.levels,
        fun l hl q hq => ?_⟩
      rcases List.mem_cons.mp hl with rfl | hl
      · rw [hs.idle.pending] at hq
        exact absurd hq List.not_mem_nil
      · exact hrest.pending l hl q hq
    | @bins hh packet tempVa hp hop =>
      rw [hp]
      refine ⟨hrest, tempVa, .found hop, fun va hva => ?_, hqueue, hcur hin.1 fun q hq =>
        (bins_type (mem_nonEmpty.mp hq).1).2⟩
      cases hva with
      | first => exact hinside.lookAhead c hh packet tempVa hc hp
      | next hop' _ => exact absurd (hop.symm.trans hop') Bool.noConfusion

/-- **A run that succeeds inside its IBs** has whole IBs only. -/
theorem whole_of_staysInside {m : MemoryManager} {t : List Event} (hsucc : E.Succeeds ibs t)
    (hinside : StaysInside E m ibs) : ∀ N, Involves E ibs N → Whole E N := by
  obtain ⟨cf, hreach, hdone, rfl⟩ := hsucc
  have hfinal : SoundAhead E cf := by
    obtain ⟨hp, hcallers⟩ := success_at_ring hdone
    have hi := inv_reachable hreach
    unfold Inv at hi
    unfold SoundAhead
    rw [hp] at hi ⊢
    dsimp only at hi ⊢
    rw [hcallers]
    refine ⟨trivial, fun l hl q hq => ?_⟩
    obtain rfl := List.mem_singleton.mp hl
    rw [hi.1.idle.pending] at hq
    exact absurd hq List.not_mem_nil
  have hstart : SoundAhead E (initial ibs) := hreach.backward (P := SoundAhead E) hfinal
    fun _ _ hu huv hv => soundAhead_step hinside hu huv hv
  exact fun N hN => (hN.sound hstart).whole

/-- **Packets stay inside their IBs** in every run of a submit that involves whole IBs only; in a
run that succeeds they stay inside exactly then. -/
theorem staysInside_iff (m : MemoryManager) (submitIndex : UInt32) (callbacks : Callbacks)
    (ibs : List IndirectBufferInfo) :
    let E : Emulation := ⟨m.toInterface, submitIndex, callbacks⟩
    ((∀ N, Involves E ibs N → Whole E N) → StaysInside E m ibs) ∧
      ∀ t, E.Succeeds ibs t → (StaysInside E m ibs ↔ ∀ N, Involves E ibs N → Whole E N) := by
  intro E
  have hwhole : (∀ N, Involves E ibs N → Whole E N) → StaysInside E m ibs :=
    fun h => staysInside_of_whole rfl h
  exact ⟨hwhole, fun t ht => ⟨fun hinside => whole_of_staysInside ht hinside, hwhole⟩⟩

/-- The memory of `nopDword`. -/
def nopMemory : MemoryManager := { memoryBlocks := [.ofDwords 0x1000 [0x70108000]] }

theorem comes_nopDword {N : IbNode} (hN : N = ⟨0x1000, 1, false⟩) (hva : Comes nopDword N va) :
    va = 0x1000 ∨ N.AtEnd va := by
  induction hva with
  | start => exact .inl (by rw [hN])
  | packet _ hin hp _ ih =>
    obtain rfl := ih.resolve_right hin
    cases hp with
    | single =>
      right
      rw [hN]
      exact ⟨by decide, by decide⟩
    | bins _ hop => exact absurd hop (by decide)

theorem involves_nopDword (h : Involves nopDword oneDwordIbs N) : N = ⟨0x1000, 1, false⟩ := by
  induction h with
  | submitted hq =>
    obtain rfl := List.mem_singleton.mp hq
    decide
  | referenced _ hva hin hp hq ih =>
    obtain rfl := (comes_nopDword ih hva).resolve_right hin
    cases hp with
    | single =>
      have hnone : nonEmpty (nopDword.packetRefs (nopDword.headerAt 0x1000) 0x1000) = [] := by
        decide
      rw [hnone] at hq
      exact absurd hq List.not_mem_nil
    | bins _ hop => exact absurd hop (by decide)

/-- The IB of one `CP_NOP` is whole. -/
theorem staysInside_iff_nopDword : StaysInside nopDword nopMemory oneDwordIbs := by
  refine (staysInside_iff nopMemory 0 (fun _ _ => true) oneDwordIbs).1 fun N hN va hva hin _ => ?_
  obtain rfl := involves_nopDword hN
  obtain rfl := (comes_nopDword rfl hva).resolve_right hin
  exact ⟨⟨by decide, by decide⟩, fun hop => absurd hop (by decide)⟩

/-- A `CP_NOP` with one dword of payload, which is neither in the IB nor captured. -/
def crossingMemory : MemoryManager := { memoryBlocks := [.ofDwords 0x1000 [0x70100001]] }

def crossingNop : Emulation := ⟨crossingMemory.toInterface, 0, fun _ _ => true⟩

/-- A `CP_START_BIN` that is alone in its IB. -/
def openBinMemory : MemoryManager :=
  { memoryBlocks := [.ofDwords 0x1000 [0x70d08000, 0x70518000]] }

def openBin : Emulation := ⟨openBinMemory.toInterface, 0, fun _ _ => true⟩

/-- **A packet that crosses the end of its IB is delivered**, and the emulation succeeds; and the
look-ahead reads a header behind the end of the IB. -/
theorem crossing_delivered :
    (∃ t, crossingNop.Succeeds oneDwordIbs t) ∧
      ¬ StaysInside crossingNop crossingMemory oneDwordIbs ∧
      ¬ StaysInside openBin openBinMemory oneDwordIbs := by
  refine ⟨⟨_, succeeds_of_successTrace (n := 5) rfl⟩, fun h => ?_, fun h => ?_⟩
  · have hc : ∃ c, Machine.runFor crossingNop.step 2 (initial oneDwordIbs) = .ok c ∧ c.phase = .fetch ∧
        c.state.callers ≠ [] ∧ c.state.cur.curVa = 0x1000 ∧
        c.state.cur.curIb.node = ⟨0x1000, 1, false⟩ :=
      ⟨_, rfl, rfl, List.cons_ne_nil _ _, rfl, rfl⟩
    obtain ⟨c, hrun, hp, hne, hva, hnode⟩ := hc
    have hreach := Machine.reaches_of_runFor hrun
    have hcontains := (h.packets c hreach ⟨hp, hne, by rw [hva]; decide⟩).1
    rw [hva, hnode] at hcontains
    exact absurd hcontains.2 (by decide)
  · have hc : ∃ c hh packet, Machine.runFor openBin.step 4 (initial oneDwordIbs) = .ok c ∧
        c.phase = .lookAhead hh packet 0x1004 ∧
        c.state.cur.curIb.node = ⟨0x1000, 1, false⟩ :=
      ⟨_, _, _, rfl, rfl, rfl⟩
    obtain ⟨c, hh, packet, hrun, hp, hnode⟩ := hc
    have hreach := Machine.reaches_of_runFor hrun
    have hcontains := h.lookAhead c hh packet 0x1004 hreach hp
    rw [hnode] at hcontains
    exact absurd hcontains.2 (by decide)

end Emulation

end Dive
