import Dive.Pm4.Emulator

/-!
# What a PM4 packet references

* `queueIBs_eq`: queueing a list of IBs appends those of nonzero size, or fails.
* `packetRefs`, `resetsQueue`: the IBs that a packet references, and whether it empties the queue
  before it queues them; `EndBin`: where the look-ahead of `CP_START_BIN` ends.
* **`PacketAt`**: the references of the packet at an address, and the address the emulator goes on
  at.
-/

namespace Dive

/-! ## Queueing -/

/-- The IBs that `QueueIB` does not pass over. -/
def nonEmpty (qs : List QueuedIb) : List QueuedIb := qs.filter fun q => q.sizeInDwords ≠ 0

theorem nonEmpty_cons (q : QueuedIb) (qs : List QueuedIb) :
    nonEmpty (q :: qs) = if q.sizeInDwords = 0 then nonEmpty qs else q :: nonEmpty qs := by
  unfold nonEmpty
  split_ifs with h
  · rw [List.filter_cons_of_neg (by simpa using h)]
  · rw [List.filter_cons_of_pos (by simpa using h)]

namespace IbStack

/-- `queueIBs` leaves room for `k` more entries or needs none. -/
def HasRoom (l : IbStack) (k : ℕ) : Prop := k = 0 ∨ l.ibQueue.length + k ≤ kMaxPendingIbs

instance (l : IbStack) (k : ℕ) : Decidable (l.HasRoom k) := inferInstanceAs (Decidable (_ ∨ _))

theorem queueIBs_eq : ∀ (qs : List QueuedIb) (l : IbStack), l.queueIBs qs =
    if l.HasRoom (nonEmpty qs).length then .ok { l with ibQueue := l.ibQueue ++ nonEmpty qs }
    else .error (.failure .queueFull)
  | [], l => by
    have hr : l.HasRoom (nonEmpty []).length := Or.inl rfl
    rw [if_pos hr, nonEmpty, List.filter_nil, List.append_nil, queueIBs]
  | q :: qs, l => by
    unfold queueIBs queueIB
    rw [nonEmpty_cons]
    by_cases hz : q.sizeInDwords = 0
    · rw [if_pos hz, if_pos hz]
      exact queueIBs_eq qs l
    rw [if_neg hz, if_neg hz]
    by_cases hf : kMaxPendingIbs ≤ l.ibQueue.length
    · have hr : ¬ l.HasRoom (q :: nonEmpty qs).length := by
        unfold HasRoom
        rw [List.length_cons]
        omega
      rw [if_pos hf, if_neg hr]
      rfl
    · rw [if_neg hf]
      simp only [Except.bind]
      rw [queueIBs_eq qs]
      have hr : HasRoom { l with ibQueue := l.ibQueue ++ [q] } (nonEmpty qs).length ↔
          l.HasRoom (q :: nonEmpty qs).length := by
        unfold HasRoom
        simp only [List.length_append, List.length_cons, List.length_nil]
        omega
      simp only [hr, List.append_assoc, List.singleton_append]

/-- The level on which a packet queues its IBs. -/
def rebased (l : IbStack) (resets : Bool) : IbStack := if resets then l.resetQueue else l

/-- All entries have run. -/
def Idle (l : IbStack) : Prop := l.ibQueueIndex = l.ibQueue.length

theorem Idle.pending (h : Idle l) : l.pending = [] := by
  rw [IbStack.pending, h, List.drop_length]

theorem idle_resetQueue (l : IbStack) : l.resetQueue.Idle := rfl

theorem Idle.rebased {l : IbStack} (h : Idle l) (resets : Bool) : (l.rebased resets).Idle := by
  unfold IbStack.rebased
  split_ifs
  · exact l.idle_resetQueue
  · exact h

@[simp] theorem rebased_curIb (l : IbStack) (resets : Bool) :
    (l.rebased resets).curIb = l.curIb := by
  unfold rebased
  split_ifs <;> rfl

end IbStack

namespace Emulation

variable {E : Emulation} {q : QueuedIb} {qs : List QueuedIb} {va : UInt64} {h : Pm4Header}

/-! ## The references of a packet -/

variable (E) in
/-- The IBs that the packet with header `h` at `va` references; `CP_START_BIN` apart. -/
def packetRefs (h : Pm4Header) (va : UInt64) : List QueuedIb :=
  if h.isOpcode CP_INDIRECT_BUFFER_PFE || h.isOpcode CP_INDIRECT_BUFFER_PFD ||
      h.isOpcode CP_INDIRECT_BUFFER_CHAIN then
    [(E.packetAt va 16).indirectBuffer
      (if h.isOpcode CP_INDIRECT_BUFFER_CHAIN then .kChain else .kCall)]
  else if h.isOpcode CP_SET_AMBLE then
    [(E.packetAt va ((h.type7Count + 1).toUInt64 * 4)).amble]
  else if h.isOpcode CP_SET_DRAW_STATE then
    (E.packetAt va ((h.type7Count + 1).toUInt64 * 4)).drawStates
  else if h.isOpcode CP_FIXED_STRIDE_DRAW_TABLE then (E.packetAt va 20).fixedStrideDraws
  else []

variable (E) in
/-- The packet empties the queue before it queues its IBs. -/
def resetsQueue (h : Pm4Header) (va : UInt64) : Bool :=
  h.isOpcode CP_INDIRECT_BUFFER_PFE || h.isOpcode CP_INDIRECT_BUFFER_PFD ||
    h.isOpcode CP_INDIRECT_BUFFER_CHAIN ||
    (h.isOpcode CP_SET_AMBLE &&
      (E.packetAt va ((h.type7Count + 1).toUInt64 * 4)).amble.sizeInDwords ≠ 0) ||
    h.isOpcode CP_SET_DRAW_STATE

theorem isOpcode_unique {op op' : UInt32} (h₁ : h.isOpcode op = true)
    (h₂ : h.isOpcode op' = true) : op = op' := by
  unfold Pm4Header.isOpcode at h₁ h₂
  rw [Bool.and_eq_true, decide_eq_true_eq, decide_eq_true_eq] at h₁ h₂
  rw [← h₁.2, h₂.2]

theorem drawStatesFrom_type (p : Pm4Packet) : ∀ (n i : ℕ), q ∈ p.drawStatesFrom i n →
    q.ibType = .kDrawState
  | 0, i, hq => absurd hq List.not_mem_nil
  | n + 1, i, hq => by
    unfold Pm4Packet.drawStatesFrom at hq
    split_ifs at hq
    · exact absurd hq List.not_mem_nil
    · exact drawStatesFrom_type p n (i + 1) hq
    · rcases List.mem_cons.mp hq with rfl | hq
      · rfl
      · exact drawStatesFrom_type p n (i + 1) hq

theorem packetRefs_type (hq : q ∈ E.packetRefs h va) : q.ibType ≠ .kNormal ∧
    (q.ibType = .kChain → h.isOpcode CP_INDIRECT_BUFFER_CHAIN = true ∧
      E.packetRefs h va = [q]) := by
  unfold packetRefs at hq ⊢
  split_ifs at hq ⊢ with h₁ h₂ h₃ h₄ h₅
  · rw [List.mem_singleton] at hq
    subst hq
    exact ⟨IbType.noConfusion, fun _ => ⟨h₂, rfl⟩⟩
  · rw [List.mem_singleton] at hq
    subst hq
    exact ⟨IbType.noConfusion, fun h => IbType.noConfusion h⟩
  · rw [List.mem_singleton] at hq
    subst hq
    exact ⟨IbType.noConfusion, fun h => IbType.noConfusion h⟩
  · rw [drawStatesFrom_type _ _ _ hq]
    exact ⟨IbType.noConfusion, fun h => IbType.noConfusion h⟩
  · obtain ⟨i, -, rfl⟩ := List.mem_map.mp hq
    exact ⟨IbType.noConfusion, fun h => IbType.noConfusion h⟩
  · exact absurd hq List.not_mem_nil

theorem bins_type {p : Pm4Packet} {size : UInt32} (hq : q ∈ p.bins va size) :
    q.ibType ≠ .kNormal ∧ q.ibType ≠ .kChain := by
  obtain ⟨i, -, hi⟩ := List.mem_flatMap.mp hq
  simp only [List.mem_cons, List.not_mem_nil, or_false] at hi
  rcases hi with rfl | rfl
  · exact ⟨IbType.noConfusion, IbType.noConfusion⟩
  · exact ⟨IbType.noConfusion, IbType.noConfusion⟩

theorem mem_nonEmpty : q ∈ nonEmpty qs ↔ q ∈ qs ∧ q.sizeInDwords ≠ 0 := by
  rw [nonEmpty, List.mem_filter, decide_eq_true_eq]

/-! ## The packet at an address -/

/-- Packet by packet from `va`, the first `CP_END_BIN` is at `endVa`. -/
inductive EndBin (E : Emulation) : UInt64 → UInt64 → Prop
  | found {va : UInt64} (hop : (E.headerAt va).isOpcode CP_END_BIN = true) : EndBin E va va
  | next {va endVa : UInt64} (hop : (E.headerAt va).isOpcode CP_END_BIN = false)
      (h : EndBin E (va + packetBytes (E.headerAt va)) endVa) : EndBin E va endVa

variable (E) in
/-- The prefix and common blocks of the `CP_START_BIN` at `va`, closed at `endVa`. -/
def binRefs (va endVa : UInt64) : List QueuedIb :=
  (E.packetAt va 24).bins (commonBlockVa (E.headerAt va) va)
    (commonBlockDwordSize (E.headerAt va) va endVa)

variable (E) in
/-- The address after the common block. -/
def binsNext (va endVa : UInt64) : UInt64 :=
  commonBlockVa (E.headerAt va) va +
    (commonBlockDwordSize (E.headerAt va) va endVa).toUInt64 * 4

/-- The valid packet at `va` empties the queue or not, references the IBs `refs` and is followed
by `next`. -/
inductive PacketAt (E : Emulation) (va : UInt64) : Bool → List QueuedIb → UInt64 → Prop
  | single (hv : (E.headerAt va).isValid = true)
      (hop : (E.headerAt va).isOpcode CP_START_BIN = false) :
      PacketAt E va (E.resetsQueue (E.headerAt va) va) (E.packetRefs (E.headerAt va) va)
        (va + packetBytes (E.headerAt va))
  | bins {endVa : UInt64} (hv : (E.headerAt va).isValid = true)
      (hop : (E.headerAt va).isOpcode CP_START_BIN = true) (hend : EndBin E va endVa) :
      PacketAt E va false (E.binRefs va endVa) (E.binsNext va endVa)

variable {resets : Bool} {refs : List QueuedIb} {next : UInt64}

theorem PacketAt.not_normal (hp : PacketAt E va resets refs next) (hq : q ∈ nonEmpty refs) :
    q.ibType ≠ .kNormal := by
  rw [mem_nonEmpty] at hq
  cases hp with
  | single hv hop => exact (packetRefs_type hq.1).1
  | bins hv hop hend => exact (bins_type hq.1).1

theorem PacketAt.chain_alone (hp : PacketAt E va resets refs next) (hq : q ∈ nonEmpty refs)
    (hc : q.ibType = .kChain) : nonEmpty refs = [q] ∧ resets = true := by
  rw [mem_nonEmpty] at hq
  cases hp with
  | single hv hop =>
    obtain ⟨hop, hone⟩ := (packetRefs_type hq.1).2 hc
    constructor
    · rw [hone, nonEmpty_cons, if_neg hq.2]
      rfl
    · unfold resetsQueue
      rw [hop, Bool.or_true, Bool.true_or, Bool.true_or]
  | bins hv hop hend => exact absurd hc (bins_type hq.1).2

/-! ## One packet at an address -/

theorem EndBin.unique {va endVa endVa' : UInt64} (h : EndBin E va endVa)
    (h' : EndBin E va endVa') : endVa = endVa' := by
  induction h with
  | found hop =>
    cases h' with
    | found => rfl
    | next hop' => exact absurd (hop.symm.trans hop') Bool.noConfusion
  | next hop _ ih =>
    cases h' with
    | found hop' => exact absurd (hop.symm.trans hop') Bool.noConfusion
    | next _ h' => exact ih h'

theorem PacketAt.unique {va next' : UInt64} {resets' : Bool} {refs' : List QueuedIb}
    (hp : PacketAt E va resets refs next) (hp' : PacketAt E va resets' refs' next') :
    resets = resets' ∧ refs = refs' ∧ next = next' := by
  cases hp with
  | single _ hop =>
    cases hp' with
    | single => exact ⟨rfl, rfl, rfl⟩
    | bins _ hop' => exact absurd (hop.symm.trans hop') Bool.noConfusion
  | bins _ hop hend =>
    cases hp' with
    | single _ hop' => exact absurd (hop.symm.trans hop') Bool.noConfusion
    | bins _ _ hend' =>
      rw [hend.unique hend']
      exact ⟨rfl, rfl, rfl⟩

end Emulation

end Dive
