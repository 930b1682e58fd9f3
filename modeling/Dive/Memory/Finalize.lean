import Dive.Memory.Retrieve
import Mathlib.Data.List.Sort

/-!
# Finalizing the memory manager

* `MemoryManager.finalize`: the stable sort and, for per-submit lookups, the sweep that keeps the
  larger one of two blocks at the same address (`sweepStep`).
* `sweep_aligned`: while the assertion of the sweep holds, every block swept is represented by a
  kept block at its address.
* **`finalize_correct_iff`**: the assertion holds and the blocks come out separate and with the
  same coverage exactly when overlapping blocks of a submit start at the same address;
  `finalizeCorrect_iff_of_asserts`: the second half alone.
-/

namespace Dive

namespace MemoryManager

/-! ## The sort -/

/-- The comparison passed to `stable_sort`. -/
def sortsBefore (sameSubmitOnly : Bool) (lhs rhs : MemoryBlock) : Bool :=
  if sameSubmitOnly then
    if lhs.submitIndex = rhs.submitIndex then lhs.vaAddr < rhs.vaAddr
    else lhs.submitIndex < rhs.submitIndex
  else lhs.vaAddr < rhs.vaAddr

/-- The block `rhs` is not to stand before `lhs`. -/
def InOrder (sameSubmitOnly : Bool) (lhs rhs : MemoryBlock) : Prop :=
  ¬ sortsBefore sameSubmitOnly rhs lhs = true

instance (sameSubmitOnly : Bool) : DecidableRel (InOrder sameSubmitOnly) :=
  fun _ _ => inferInstanceAs (Decidable (¬ _))

/-- `stable_sort`: blocks that compare equal stay in the order of their capture. -/
def stableSort (sameSubmitOnly : Bool) (blocks : List MemoryBlock) : List MemoryBlock :=
  blocks.insertionSort (InOrder sameSubmitOnly)

/-! ## The sweep -/

/-- The locals of the sweep; `tempMemoryBlocks` has its back first. -/
structure Sweep where
  tempMemoryBlocks : List MemoryBlock := []
  prevAddr : UInt64 := 0
  prevSubmit : UInt64 := 0
  prevSize : UInt32 := 0

/-- The locals after the iteration of block `b`, which left `temp`. -/
def Sweep.past (b : MemoryBlock) (temp : List MemoryBlock) : Sweep :=
  ⟨temp, b.vaAddr, b.submitIndex.toUInt64, b.dataSize⟩

/-- One iteration of the sweep; `none` if it takes the back of an empty vector. -/
def sweepStep (s : Sweep) (b : MemoryBlock) : Option Sweep :=
  if b.submitIndex.toUInt64 ≠ s.prevSubmit then some (.past b (b :: s.tempMemoryBlocks))
  else if s.prevAddr + s.prevSize.toUInt64 ≤ b.vaAddr then
    some (.past b (b :: s.tempMemoryBlocks))
  else
    match s.tempMemoryBlocks with
    | [] => none
    | back :: temp =>
      -- the larger one stays, the later one if they are equal
      if back.dataSize ≤ b.dataSize then some (.past b (b :: temp))
      else some (.past b (back :: temp))

/-- The assertion inside the sweep, where an iteration reaches it. -/
def sweepAsserts (s : Sweep) (b : MemoryBlock) : Bool :=
  b.submitIndex.toUInt64 != s.prevSubmit || s.prevAddr + s.prevSize.toUInt64 ≤ b.vaAddr ||
    b.vaAddr == s.prevAddr

/-- The whole sweep. -/
def sweep : Sweep → List MemoryBlock → Option Sweep
  | s, [] => some s
  | s, b :: bs => (sweepStep s b).bind fun s' => sweep s' bs

/-- The assertion holds in every iteration. -/
def sweepAssertsHold : Sweep → List MemoryBlock → Bool
  | _, [] => true
  | s, b :: bs => sweepAsserts s b && (sweepStep s b).all fun s' => sweepAssertsHold s' bs

/-- `Finalize`. The sweep counts the blocks in a `uint32_t`, which never reaches `2 ^ 32`. -/
def finalize (m : MemoryManager) (sameSubmitOnly : Bool) : Option MemoryManager :=
  let sorted := stableSort sameSubmitOnly m.memoryBlocks
  if sameSubmitOnly then
    if sorted.length < 2 ^ 32 then
      (sweep {} sorted).map fun s =>
        { m with memoryBlocks := s.tempMemoryBlocks.reverse, sameSubmitOnly := true }
    else none
  else some { m with memoryBlocks := sorted, sameSubmitOnly := false }

/-- The assertion inside `Finalize` holds throughout. -/
def finalizeAssertsHold (m : MemoryManager) : Bool :=
  sweepAssertsHold {} (stableSort true m.memoryBlocks)

/-- The manager after loading the blocks, one `AddMemoryBlock` for each. -/
def loaded (blocks : List MemoryBlock) : MemoryManager := blocks.foldl addMemoryBlock {}

theorem memoryBlocks_foldl_add (m : MemoryManager) (blocks : List MemoryBlock) :
    blocks.foldl addMemoryBlock m = { m with memoryBlocks := m.memoryBlocks ++ blocks } := by
  induction blocks generalizing m with
  | nil => rw [List.foldl_nil, List.append_nil]
  | cons b bs ih =>
    rw [List.foldl_cons, ih]
    simp only [addMemoryBlock, List.append_assoc, List.singleton_append]

theorem loaded_eq (blocks : List MemoryBlock) :
    loaded blocks = { memoryBlocks := blocks } := by
  rw [loaded, memoryBlocks_foldl_add, List.nil_append]

/-! ## The order -/

variable {sameSubmitOnly : Bool} {a b c k p : MemoryBlock}

/-- The order of the sorted list, per submit. -/
def Precedes (b c : MemoryBlock) : Prop :=
  b.submitIndex.toNat < c.submitIndex.toNat ∨
    b.submitIndex = c.submitIndex ∧ b.vaAddr.toNat ≤ c.vaAddr.toNat

theorem inOrder_true : InOrder true b c ↔ Precedes b c := by
  unfold InOrder sortsBefore Precedes
  simp only [if_true, ← UInt32.toNat_inj]
  split_ifs with h
  · rw [decide_eq_true_eq, UInt64.lt_iff_toNat_lt]
    omega
  · rw [decide_eq_true_eq, UInt32.lt_iff_toNat_lt]
    omega

theorem inOrder_false : InOrder false b c ↔ b.vaAddr.toNat ≤ c.vaAddr.toNat := by
  unfold InOrder sortsBefore
  simp only [Bool.false_eq_true, if_false, decide_eq_true_eq, UInt64.lt_iff_toNat_lt, not_lt]

theorem Precedes.trans (h : Precedes a b) (h' : Precedes b c) : Precedes a c := by
  simp only [Precedes, ← UInt32.toNat_inj] at h h' ⊢
  omega

theorem Precedes.total (b c : MemoryBlock) : Precedes b c ∨ Precedes c b := by
  simp only [Precedes, ← UInt32.toNat_inj]
  omega

instance : Std.Total (InOrder sameSubmitOnly) where
  total b c := by
    cases sameSubmitOnly
    · simp only [inOrder_false]
      exact le_total _ _
    · simp only [inOrder_true]
      exact Precedes.total b c

instance : IsTrans MemoryBlock (InOrder sameSubmitOnly) where
  trans b c d := by
    cases sameSubmitOnly
    · simp only [inOrder_false]
      exact le_trans
    · simp only [inOrder_true]
      exact Precedes.trans

theorem pairwise_stableSort (blocks : List MemoryBlock) :
    (stableSort true blocks).Pairwise Precedes :=
  (List.pairwise_insertionSort (InOrder true) blocks).imp inOrder_true.mp

theorem mem_stableSort {blocks : List MemoryBlock} :
    b ∈ stableSort sameSubmitOnly blocks ↔ b ∈ blocks :=
  List.mem_insertionSort _

theorem length_stableSort (blocks : List MemoryBlock) :
    (stableSort sameSubmitOnly blocks).length = blocks.length :=
  List.length_insertionSort _ _

/-! ## What the sweep keeps while its assertion holds -/

/-- Block `k` holds all that block `b` holds, from the same address on. -/
def Represents (k b : MemoryBlock) : Prop :=
  k.submitIndex = b.submitIndex ∧ k.vaAddr = b.vaAddr ∧ b.dataSize.toNat ≤ k.dataSize.toNat

theorem Represents.rfl : Represents b b := ⟨Eq.refl _, Eq.refl _, le_refl _⟩

theorem Represents.trans (h : Represents a b) (h' : Represents b c) : Represents a c :=
  ⟨h.1.trans h'.1, h.2.1.trans h'.2.1, h'.2.2.trans h.2.2⟩

theorem Represents.mem (h : Represents k b) {x : ℕ} (hx : x ∈ b.extent) : x ∈ k.extent := by
  obtain ⟨-, ha, hs⟩ := h
  rw [MemoryBlock.mem_extent] at hx ⊢
  rw [ha]
  omega

/-- The sweep has gone past `done` (last block first): it kept only such blocks, each of them is
represented, and the last one is by the back of the vector. -/
structure Swept (done : List MemoryBlock) (s : Sweep) : Prop where
  subset : ∀ k ∈ s.tempMemoryBlocks, k ∈ done
  represented : ∀ b ∈ done, ∃ k ∈ s.tempMemoryBlocks, Represents k b
  last : match done with
    | [] => s = {}
    | p :: _ => ∃ k temp, s = .past p (k :: temp) ∧ Represents k p

theorem swept_nil : Swept [] {} := ⟨fun _ h => h, fun _ h => absurd h List.not_mem_nil, rfl⟩

/-- Block `b` does not start a new range after block `p`. -/
def Reaches (p b : MemoryBlock) : Prop := b.submitIndex = p.submitIndex ∧ ¬ p.endAddr ≤ b.vaAddr

instance (p b : MemoryBlock) : Decidable (Reaches p b) := inferInstanceAs (Decidable (_ ∧ _))

theorem sweepStep_past (temp : List MemoryBlock) :
    sweepStep (.past p (k :: temp)) b = some (.past b (if Reaches p b then
      if k.dataSize ≤ b.dataSize then b :: temp else k :: temp else b :: k :: temp)) := by
  unfold sweepStep
  have hend : (Sweep.past p (k :: temp)).prevAddr + (Sweep.past p (k :: temp)).prevSize.toUInt64 =
      p.endAddr := rfl
  have hsub : b.submitIndex.toUInt64 ≠ (Sweep.past p (k :: temp)).prevSubmit ↔
      ¬ b.submitIndex = p.submitIndex := not_congr UInt32.toUInt64_inj
  have htemp : (Sweep.past p (k :: temp)).tempMemoryBlocks = k :: temp := rfl
  simp only [hend, hsub, htemp]
  by_cases hr : Reaches p b
  · rw [if_pos hr, if_neg (not_not.mpr hr.1), if_neg hr.2]
    split_ifs <;> rfl
  · rw [if_neg hr]
    by_cases h1 : b.submitIndex = p.submitIndex
    · rw [if_neg (not_not.mpr h1), if_pos (not_not.mp fun h2 => hr ⟨h1, h2⟩)]
    · rw [if_pos h1]

theorem sweepAsserts_past (temp : List MemoryBlock) :
    sweepAsserts (.past p temp) b = true ↔ (Reaches p b → b.vaAddr = p.vaAddr) := by
  unfold sweepAsserts Reaches
  have hend : (Sweep.past p temp).prevAddr + (Sweep.past p temp).prevSize.toUInt64 =
      p.endAddr := rfl
  have hsub : b.submitIndex.toUInt64 = (Sweep.past p temp).prevSubmit ↔
      b.submitIndex = p.submitIndex := UInt32.toUInt64_inj
  simp only [hend, Bool.or_eq_true, bne_iff_ne, ne_eq, hsub, decide_eq_true_eq, beq_iff_eq]
  rw [Sweep.past]
  tauto

theorem sweepStep_cases {done : List MemoryBlock} {s : Sweep} (hs : Swept done s)
    (ha : sweepAsserts s b = true) :
    ∃ temp, sweepStep s b = some (.past b temp) ∧
      ((temp = b :: s.tempMemoryBlocks ∧ ∀ p ∈ done.head?, ¬ Reaches p b) ∨
        ∃ k temp', s.tempMemoryBlocks = k :: temp' ∧
          ((Represents b k ∧ temp = b :: temp') ∨ (Represents k b ∧ temp = k :: temp'))) := by
  cases done with
  | nil =>
    obtain rfl : s = {} := hs.last
    refine ⟨[b], ?_, Or.inl ⟨rfl, fun p hp => by cases hp⟩⟩
    unfold sweepStep
    split_ifs with h1 h2
    · rfl
    · rfl
    · exact absurd UInt64.zero_le h2
  | cons p done =>
    obtain ⟨k, temp, rfl, hk⟩ := hs.last
    rw [sweepAsserts_past] at ha
    rw [sweepStep_past]
    refine ⟨_, rfl, ?_⟩
    split_ifs with h1 h2
    · -- the assertion leaves only a block at the address of the previous one
      rw [UInt32.le_iff_toNat_le] at h2
      exact Or.inr ⟨k, temp, rfl, Or.inl ⟨⟨h1.1.trans hk.1.symm, (ha h1).trans hk.2.1.symm, h2⟩,
        rfl⟩⟩
    · rw [UInt32.le_iff_toNat_le, not_le] at h2
      exact Or.inr ⟨k, temp, rfl, Or.inr ⟨⟨hk.1.trans h1.1.symm, hk.2.1.trans (ha h1).symm,
        h2.le⟩, rfl⟩⟩
    · exact Or.inl ⟨rfl, fun q hq => by cases hq; exact h1⟩

theorem swept_step {done : List MemoryBlock} {s : Sweep} (hs : Swept done s)
    (ha : sweepAsserts s b = true) : ∃ s', sweepStep s b = some s' ∧ Swept (b :: done) s' := by
  obtain ⟨temp, hstep, hcase⟩ := sweepStep_cases hs ha
  refine ⟨_, hstep, ?_⟩
  rcases hcase with ⟨rfl, -⟩ | ⟨k, temp', ht, ⟨hb, rfl⟩ | ⟨hk, rfl⟩⟩
  · refine ⟨List.forall_mem_cons.mpr ⟨List.mem_cons_self, fun k hk =>
      List.mem_cons_of_mem _ (hs.subset k hk)⟩, List.forall_mem_cons.mpr
      ⟨⟨b, List.mem_cons_self, Represents.rfl⟩, fun c hc => ?_⟩, b, _, rfl, Represents.rfl⟩
    obtain ⟨k, hk, hkc⟩ := hs.represented c hc
    exact ⟨k, List.mem_cons_of_mem _ hk, hkc⟩
  · have hsub := hs.subset
    rw [ht] at hsub
    refine ⟨List.forall_mem_cons.mpr ⟨List.mem_cons_self, fun k hk =>
      List.mem_cons_of_mem _ (hsub k (List.mem_cons_of_mem _ hk))⟩, List.forall_mem_cons.mpr
      ⟨⟨b, List.mem_cons_self, Represents.rfl⟩, fun c hc => ?_⟩, b, _, rfl, Represents.rfl⟩
    obtain ⟨k', hk', hkc⟩ := hs.represented c hc
    rw [ht] at hk'
    rcases List.mem_cons.mp hk' with rfl | hk'
    · exact ⟨b, List.mem_cons_self, hb.trans hkc⟩
    · exact ⟨k', List.mem_cons_of_mem _ hk', hkc⟩
  · refine ⟨fun k' hk' => List.mem_cons_of_mem _ (hs.subset k' (ht ▸ hk')),
      List.forall_mem_cons.mpr ⟨⟨k, List.mem_cons_self, hk⟩, fun c hc => ?_⟩, k, _, rfl, hk⟩
    obtain ⟨k', hk', hkc⟩ := hs.represented c hc
    exact ⟨k', ht ▸ hk', hkc⟩

/-- **The sweep under its assertion.** It ends, and every block is represented by a kept one. -/
theorem swept_sweep : ∀ (bs : List MemoryBlock) {done : List MemoryBlock} {s : Sweep},
    Swept done s → sweepAssertsHold s bs = true →
      ∃ s', sweep s bs = some s' ∧ Swept (bs.reverse ++ done) s'
  | [], _, s, hs, _ => ⟨s, rfl, hs⟩
  | b :: bs, done, s, hs, ha => by
    rw [sweepAssertsHold, Bool.and_eq_true] at ha
    obtain ⟨s₁, h₁, hs₁⟩ := swept_step hs ha.1
    rw [h₁, Option.all_some] at ha
    obtain ⟨s', h', hs'⟩ := swept_sweep bs hs₁ ha.2
    refine ⟨s', ?_, ?_⟩
    · rw [sweep, h₁, Option.bind_some, h']
    · rw [List.reverse_cons, List.append_assoc]
      exact hs'

/-! ## When the kept blocks are separate -/

/-- Blocks captured for the same submit that share an address start at the same address. -/
def OverlapsAligned (blocks : List MemoryBlock) : Prop :=
  ∀ b ∈ blocks, ∀ c ∈ blocks, b.submitIndex = c.submitIndex →
    ∀ a, a ∈ b.extent → a ∈ c.extent → b.vaAddr = c.vaAddr

/-- The blocks are not empty and their ends do not wrap. -/
def Addable (blocks : List MemoryBlock) : Prop :=
  ∀ b ∈ blocks, 0 < b.dataSize.toNat ∧ b.vaAddr.toNat + b.dataSize.toNat < 2 ^ 64

/-- The kept blocks of each submit, later ones first, are sorted and separate. -/
def Separate (temp : List MemoryBlock) : Prop :=
  temp.Pairwise fun c b => b.submitIndex = c.submitIndex →
    b.vaAddr.toNat ≤ c.vaAddr.toNat ∧ Extent.Apart b.extent c.extent

theorem reaches_iff (hp : p.vaAddr.toNat + p.dataSize.toNat < 2 ^ 64) :
    Reaches p b ↔ b.submitIndex = p.submitIndex ∧
      b.vaAddr.toNat < p.vaAddr.toNat + p.dataSize.toNat := by
  rw [Reaches, UInt64.le_iff_toNat_le, MemoryBlock.toNat_endAddr_of_addressable hp, not_le]

section Aligned

variable {done rest : List MemoryBlock} {s : Sweep}

theorem sweepAsserts_of_aligned (hs : Swept done s) (hal : OverlapsAligned (b :: done))
    (hadd : Addable (b :: done)) (hord : ∀ p ∈ done, Precedes p b) : sweepAsserts s b = true := by
  cases done with
  | nil =>
    obtain rfl : s = {} := hs.last
    unfold sweepAsserts
    rw [Bool.or_eq_true, Bool.or_eq_true]
    exact Or.inl (Or.inr (decide_eq_true UInt64.zero_le))
  | cons p done =>
    obtain ⟨k, temp, rfl, -⟩ := hs.last
    rw [sweepAsserts_past]
    intro hr
    have hp := hadd p (List.mem_cons_of_mem _ List.mem_cons_self)
    have hb := hadd b List.mem_cons_self
    rw [reaches_iff hp.2] at hr
    refine hal b List.mem_cons_self p (List.mem_cons_of_mem _ List.mem_cons_self) hr.1
      b.vaAddr.toNat ?_ ?_
    · rw [MemoryBlock.mem_extent]
      omega
    · have ho := hord p List.mem_cons_self
      simp only [Precedes, ← UInt32.toNat_inj] at ho hr
      rw [MemoryBlock.mem_extent]
      omega

theorem separate_step {s' : Sweep} (hs : Swept done s) (hsep : Separate s.tempMemoryBlocks)
    (hal : OverlapsAligned (b :: done)) (hadd : Addable (b :: done))
    (hord : ∀ p ∈ done, Precedes p b) (hlast : ∀ p ∈ done.head?, ∀ c ∈ done, Precedes c p)
    (ha : sweepAsserts s b = true) (hstep : sweepStep s b = some s') :
    Separate s'.tempMemoryBlocks := by
  obtain ⟨temp, hstep', hcase⟩ := sweepStep_cases hs ha
  rw [hstep', Option.some.injEq] at hstep
  subst hstep
  rcases hcase with ⟨rfl, hnew⟩ | ⟨k, temp', ht, ⟨hb, rfl⟩ | ⟨-, rfl⟩⟩
  · refine List.pairwise_cons.mpr ⟨fun x hx hsub => ?_, hsep⟩
    have hxd := hs.subset x hx
    obtain ⟨p, done', rfl⟩ := List.exists_cons_of_ne_nil (List.ne_nil_of_mem hxd)
    have hxp := hlast p rfl x hxd
    have hpb := hord p List.mem_cons_self
    have hnr := hnew p rfl
    have hp := hadd p (List.mem_cons_of_mem _ List.mem_cons_self)
    rw [reaches_iff hp.2] at hnr
    simp only [Precedes, ← UInt32.toNat_inj] at hxp hpb hnr hsub
    refine ⟨by omega, fun a hax hab => ?_⟩
    have heq := hal x (List.mem_cons_of_mem _ hxd) b List.mem_cons_self
      (UInt32.toNat_inj.mp hsub) a hax hab
    rw [← UInt64.toNat_inj] at heq
    omega
  · rw [ht] at hsep
    obtain ⟨hk, hsep'⟩ := List.pairwise_cons.mp hsep
    refine List.pairwise_cons.mpr ⟨fun x hx hsub => ?_, hsep'⟩
    obtain ⟨hle, hap⟩ := hk x hx (hsub.trans hb.1)
    rw [← hb.2.1] at hle
    refine ⟨hle, fun a hax hab => ?_⟩
    have hmem := hs.subset
    rw [ht] at hmem
    have hxd := List.mem_cons_of_mem b (hmem x (List.mem_cons_of_mem _ hx))
    have hkd := List.mem_cons_of_mem b (hmem k List.mem_cons_self)
    have heq := hal x hxd b List.mem_cons_self hsub a hax hab
    refine hap k.vaAddr.toNat ?_ ?_
    · have hpos := hadd x hxd
      rw [MemoryBlock.mem_extent, heq, hb.2.1]
      omega
    · have hpos := hadd k hkd
      rw [MemoryBlock.mem_extent]
      omega
  · exact ht ▸ hsep

end Aligned

theorem OverlapsAligned.mono {bs cs : List MemoryBlock} (h : OverlapsAligned bs) (hs : cs ⊆ bs) :
    OverlapsAligned cs := fun b hb c hc => h b (hs hb) c (hs hc)

theorem Addable.mono {bs cs : List MemoryBlock} (h : Addable bs) (hs : cs ⊆ bs) :
    Addable cs := fun b hb => h b (hs hb)

/-- **The sweep of aligned blocks** satisfies its assertion and keeps separate blocks. -/
theorem sweep_aligned : ∀ (bs : List MemoryBlock) {done : List MemoryBlock} {s : Sweep},
    Swept done s → Separate s.tempMemoryBlocks → OverlapsAligned (bs ++ done) →
      Addable (bs ++ done) → (done.reverse ++ bs).Pairwise Precedes →
      sweepAssertsHold s bs = true ∧
        ∀ s', sweep s bs = some s' → Separate s'.tempMemoryBlocks
  | [], _, s, _, hsep, _, _, _ => ⟨rfl, fun s' h => by cases h; exact hsep⟩
  | b :: bs, done, s, hs, hsep, hal, hadd, hord => by
    have hsub : b :: done ⊆ b :: bs ++ done :=
      List.cons_subset_cons b (List.subset_append_right bs done)
    obtain ⟨hdone, -, hcross⟩ := List.pairwise_append.mp hord
    have hb : ∀ p ∈ done, Precedes p b := fun p hp =>
      hcross p (List.mem_reverse.mpr hp) b List.mem_cons_self
    have hlast : ∀ p ∈ done.head?, ∀ c ∈ done, Precedes c p := by
      intro p hp c hc
      rw [List.eq_cons_of_mem_head? hp] at hdone hc
      rw [List.pairwise_reverse, List.pairwise_cons] at hdone
      rcases List.mem_cons.mp hc with rfl | hc
      · exact Or.inr ⟨rfl, le_refl _⟩
      · exact hdone.1 c hc
    have ha := sweepAsserts_of_aligned hs (hal.mono hsub) (hadd.mono hsub) hb
    obtain ⟨s₁, h₁, hs₁⟩ := swept_step hs ha
    have hsep₁ := separate_step hs hsep (hal.mono hsub) (hadd.mono hsub) hb hlast ha h₁
    have hperm : bs ++ b :: done ⊆ b :: bs ++ done := by
      intro c hc
      simp only [List.cons_append, List.mem_cons, List.mem_append] at hc ⊢
      tauto
    have hord₁ : ((b :: done).reverse ++ bs).Pairwise Precedes := by
      rw [List.reverse_cons, List.append_assoc]
      exact hord
    obtain ⟨ha', hrest⟩ := sweep_aligned bs hs₁ hsep₁ (hal.mono hperm) (hadd.mono hperm) hord₁
    refine ⟨?_, fun s' h' => ?_⟩
    · rw [sweepAssertsHold, ha, h₁, Bool.true_and, Option.all_some, ha']
    · rw [sweep, h₁] at h'
      exact hrest s' h'

/-! ## What `Finalize` guarantees -/

/-- The blocks captured for a submit. -/
def ofSubmit (blocks : List MemoryBlock) (submitIndex : UInt32) : List MemoryBlock :=
  blocks.filter fun b => b.submitIndex = submitIndex

/-- The finalized manager is fit for lookups, covers per submit what was added for it, and stores
for each address a byte that was added for it. -/
structure Resolves (blocks : List MemoryBlock) (m : MemoryManager) : Prop where
  sameSubmitOnly : m.sameSubmitOnly = true
  finalized : m.Finalized
  covers : ∀ submitIndex a, Extent.Covers ((m.visible submitIndex).map (·.extent)) a ↔
    Extent.Covers ((ofSubmit blocks submitIndex).map (·.extent)) a
  bytes : ∀ b ∈ m.memoryBlocks, ∀ a ∈ b.extent,
    ∃ c ∈ ofSubmit blocks b.submitIndex, a ∈ c.extent ∧ b.byteAt a = c.byteAt a

/-- `Finalize` of the loaded blocks with per-submit lookups is correct. -/
def FinalizeCorrect (blocks : List MemoryBlock) : Prop :=
  ∃ m, (loaded blocks).finalize true = some m ∧ Resolves blocks m

variable {blocks : List MemoryBlock}

theorem finalize_loaded (hlen : blocks.length < 2 ^ 32) :
    (loaded blocks).finalize true = (sweep {} (stableSort true blocks)).map fun s =>
      { memoryBlocks := s.tempMemoryBlocks.reverse, sameSubmitOnly := true } := by
  rw [loaded_eq, finalize, if_pos rfl, length_stableSort, if_pos hlen]

theorem resolves_of_swept {s : Sweep} (hadd : Addable blocks)
    (hs : Swept (stableSort true blocks).reverse s) (hsep : Separate s.tempMemoryBlocks) :
    Resolves blocks { memoryBlocks := s.tempMemoryBlocks.reverse, sameSubmitOnly := true } := by
  have hmem : ∀ b ∈ s.tempMemoryBlocks, b ∈ blocks := fun b hb =>
    mem_stableSort.mp (List.mem_reverse.mp (hs.subset b hb))
  have hvis : ∀ submitIndex b, b ∈ visible
      { memoryBlocks := s.tempMemoryBlocks.reverse, sameSubmitOnly := true } submitIndex ↔
      b ∈ s.tempMemoryBlocks ∧ submitIndex = b.submitIndex := by
    intro submitIndex b
    simp only [visible, validSubmit, List.mem_filter, List.mem_reverse, if_true, beq_iff_eq]
  refine ⟨rfl, ⟨?_, ?_, ?_, ?_⟩, fun submitIndex a => ⟨?_, ?_⟩, ?_⟩
  · exact fun b hb => (hadd b (hmem b (List.mem_reverse.mp hb))).1
  · exact fun b hb => (hadd b (hmem b (List.mem_reverse.mp hb))).2.le
  · refine List.pairwise_reverse.mpr (hsep.imp fun h hv => ?_)
    rw [UInt64.le_iff_toNat_le]
    exact (h (hv rfl)).1
  · exact List.pairwise_reverse.mpr (hsep.imp fun h hv => (h (hv rfl)).2)
  · rintro ⟨e, he, hae⟩
    obtain ⟨b, hb, rfl⟩ := List.mem_map.mp he
    obtain ⟨hb, hsub⟩ := (hvis submitIndex b).mp hb
    exact ⟨b.extent, List.mem_map_of_mem (List.mem_filter.mpr
      ⟨hmem b hb, decide_eq_true hsub.symm⟩), hae⟩
  · rintro ⟨e, he, hae⟩
    obtain ⟨b, hb, rfl⟩ := List.mem_map.mp he
    obtain ⟨hb, hsub⟩ := List.mem_filter.mp hb
    obtain ⟨k, hk, hkb⟩ := hs.represented b (List.mem_reverse.mpr (mem_stableSort.mpr hb))
    exact ⟨k.extent, List.mem_map_of_mem ((hvis submitIndex k).mpr
      ⟨hk, (hkb.1.trans (of_decide_eq_true hsub)).symm⟩), hkb.mem hae⟩
  · intro b hb a hab
    exact ⟨b, List.mem_filter.mpr ⟨hmem b (List.mem_reverse.mp hb), decide_eq_true rfl⟩, hab, rfl⟩

theorem Finalized.eq_of_mem {m : MemoryManager} (hm : m.Finalized) (hb : b ∈ m.memoryBlocks)
    (hc : c ∈ m.memoryBlocks) (hsub : b.submitIndex = c.submitIndex) {x : ℕ} (hxb : x ∈ b.extent)
    (hxc : x ∈ c.extent) : b = c := by
  have hsymm : Std.Symm fun b c => m.SameView b c → Extent.Apart b.extent c.extent :=
    ⟨fun b c h hv => (h fun hs => (hv hs).symm).symm⟩
  by_contra hne
  exact hm.apart.forall hb hc hne (fun _ => hsub) x hxb hxc

theorem aligned_of_swept {s : Sweep} (hs : Swept (stableSort true blocks).reverse s)
    (hfin : Finalized { memoryBlocks := s.tempMemoryBlocks.reverse, sameSubmitOnly := true }) :
    OverlapsAligned blocks := by
  intro b hb c hc hsub a hab hac
  obtain ⟨k, hk, hkb⟩ := hs.represented b (List.mem_reverse.mpr (mem_stableSort.mpr hb))
  obtain ⟨l, hl, hlc⟩ := hs.represented c (List.mem_reverse.mpr (mem_stableSort.mpr hc))
  have hkl : k = l := hfin.eq_of_mem (List.mem_reverse.mpr hk) (List.mem_reverse.mpr hl)
    (hkb.1.trans (hsub.trans hlc.1.symm)) (hkb.mem hab) (hlc.mem hac)
  rw [← hkb.2.1, ← hlc.2.1, hkl]

theorem aligned_of_finalizeCorrect (ha : (loaded blocks).finalizeAssertsHold = true)
    (h : FinalizeCorrect blocks) : blocks.length < 2 ^ 32 ∧ OverlapsAligned blocks := by
  obtain ⟨m, hm, hres⟩ := h
  have hlen : blocks.length < 2 ^ 32 := by
    by_contra hc
    rw [loaded_eq, finalize, if_pos rfl, length_stableSort, if_neg hc] at hm
    cases hm
  rw [finalizeAssertsHold, loaded_eq] at ha
  obtain ⟨s, hsweep, hs⟩ := swept_sweep _ swept_nil ha
  rw [finalize_loaded hlen, hsweep, Option.map_some, Option.some.injEq] at hm
  subst hm
  rw [List.append_nil] at hs
  exact ⟨hlen, aligned_of_swept hs hres.finalized⟩

theorem finalizeCorrect_of_aligned (hadd : Addable blocks) (hlen : blocks.length < 2 ^ 32)
    (hal : OverlapsAligned blocks) :
    (loaded blocks).finalizeAssertsHold = true ∧ FinalizeCorrect blocks := by
  have hperm : stableSort true blocks ++ [] ⊆ blocks := by
    rw [List.append_nil]
    exact fun b hb => mem_stableSort.mp hb
  obtain ⟨ha, hsep⟩ := sweep_aligned (stableSort true blocks) swept_nil List.Pairwise.nil
    (hal.mono hperm) (hadd.mono hperm) (pairwise_stableSort blocks)
  obtain ⟨s, hsweep, hs⟩ := swept_sweep _ swept_nil ha
  rw [List.append_nil] at hs
  refine ⟨by rwa [finalizeAssertsHold, loaded_eq], _, ?_, resolves_of_swept hadd hs (hsep s hsweep)⟩
  rw [finalize_loaded hlen, hsweep, Option.map_some]

/-- **Where the assertion holds, the result is correct** exactly under the condition below. Where it
does not, a block is dropped or takes the place of one that starts elsewhere. -/
theorem finalizeCorrect_iff_of_asserts (hadd : Addable blocks)
    (ha : (loaded blocks).finalizeAssertsHold = true) :
    FinalizeCorrect blocks ↔ blocks.length < 2 ^ 32 ∧ OverlapsAligned blocks :=
  ⟨aligned_of_finalizeCorrect ha, fun h => (finalizeCorrect_of_aligned hadd h.1 h.2).2⟩

/-- **`Finalize`.** Its assertion holds and its result is correct exactly when fewer than `2 ^ 32`
blocks were added and overlapping blocks of a submit start at the same address. -/
theorem finalize_correct_iff (blocks : List MemoryBlock) (hadd : Addable blocks) :
    ((loaded blocks).finalizeAssertsHold = true ∧ FinalizeCorrect blocks) ↔
      blocks.length < 2 ^ 32 ∧ OverlapsAligned blocks :=
  ⟨fun h => aligned_of_finalizeCorrect h.1 h.2, fun h => finalizeCorrect_of_aligned hadd h.1 h.2⟩

/-! ## A dropped duplicate and the block after it -/

/-- Sixteen bytes at `0x1000`, their first eight captured again, and the eight after these. -/
def recaptured : List MemoryBlock :=
  [sixteenBytes, ⟨0x1000, 0, 8, [0, 1, 2, 3, 4, 5, 6, 7], rfl⟩,
    ⟨0x1010, 0, 4, [16, 17, 18, 19], rfl⟩]

theorem finalize_correct_recaptured :
    (loaded recaptured).finalizeAssertsHold = true ∧ FinalizeCorrect recaptured := by
  refine (finalize_correct_iff recaptured ?_).mpr ⟨by decide, ?_⟩
  · unfold Addable recaptured sixteenBytes
    simp
  · intro b hb c hc _ a hab hac
    simp only [recaptured, sixteenBytes, List.mem_cons, List.not_mem_nil, or_false] at hb hc
    rw [MemoryBlock.mem_extent] at hab hac
    rcases hb with rfl | rfl | rfl <;> rcases hc with rfl | rfl | rfl <;>
      first | rfl | (simp at hab hac; omega)

/-- Sixteen bytes at `0x1000`, their first eight captured again, and four inside the sixteen. -/
def capturedInside : List MemoryBlock :=
  [sixteenBytes, ⟨0x1000, 0, 8, [0, 1, 2, 3, 4, 5, 6, 7], rfl⟩,
    ⟨0x1008, 0, 4, [8, 9, 10, 11], rfl⟩]

theorem byteAt_capturedInside (hb : b ∈ capturedInside) {a : ℕ} (ha : a ∈ b.extent) :
    b.byteAt a = UInt8.ofNat (a - 0x1000) := by
  have hbytes : ∀ b ∈ capturedInside, 0x1000 ≤ b.vaAddr.toNat ∧
      ∀ i < b.dataSize.toNat, b.data.getD i 0 = UInt8.ofNat (b.vaAddr.toNat - 0x1000 + i) := by
    decide
  obtain ⟨hle, hdata⟩ := hbytes b hb
  rw [MemoryBlock.mem_extent] at ha
  have haddr : b.vaAddr.toNat - 0x1000 + (a - b.vaAddr.toNat) = a - 0x1000 := by omega
  rw [MemoryBlock.byteAt, hdata (a - b.vaAddr.toNat) (by omega), haddr]

/-- **The dropped duplicate hides the kept block.** The sweep goes on with the size of the block it
dropped, so the assertion holds and the block at `0x1008` is kept inside the one at `0x1000`. -/
theorem finalize_incorrect_capturedInside :
    Addable capturedInside ∧
      (∀ b ∈ capturedInside, ∀ c ∈ capturedInside, ∀ a ∈ b.extent, a ∈ c.extent →
        b.byteAt a = c.byteAt a) ∧
      capturedInside.Pairwise (fun b c => b.vaAddr = c.vaAddr → c.dataSize ≤ b.dataSize) ∧
      (loaded capturedInside).finalizeAssertsHold = true ∧ ¬ FinalizeCorrect capturedInside := by
  refine ⟨?_, fun b hb c hc a hab hac => ?_, by decide, by decide, ?_⟩
  · unfold Addable capturedInside sixteenBytes
    simp
  · rw [byteAt_capturedInside hb hab, byteAt_capturedInside hc hac]
  · rintro ⟨m, hm, hres⟩
    have hfin : (loaded capturedInside).finalize true =
        some { memoryBlocks := [sixteenBytes, ⟨0x1008, 0, 4, [8, 9, 10, 11], rfl⟩] } := by rfl
    rw [hfin, Option.some.injEq] at hm
    subst hm
    have heq := hres.finalized.eq_of_mem List.mem_cons_self
      (List.mem_cons_of_mem _ List.mem_cons_self) rfl (x := 0x1008) (by decide) (by decide)
    exact absurd (congrArg MemoryBlock.vaAddr heq) (by decide)

end MemoryManager

end Dive
