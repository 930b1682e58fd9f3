import Dive.Memory.Retrieve

/-!
# The validity test of the memory manager

* `MemoryManager.Captured`: an address that some block of the submit holds, modulo `2 ^ 64`.
* **`captured_of_isValid`**: all addresses of a range that `isValid` accepts are captured, whatever
  blocks there are.
-/

namespace Dive

namespace MemoryManager

variable {m : MemoryManager} {submitIndex : UInt32} {vaAddr curAddr size : UInt64} {b : MemoryBlock}

/-- A block of the submit holds the address. -/
def Captured (m : MemoryManager) (submitIndex : UInt32) (a : UInt64) : Prop :=
  ∃ b ∈ m.visible submitIndex, (a - b.vaAddr).toNat < b.dataSize.toNat

/-- The `n` bytes at `vaAddr` are captured. -/
def CapturedRange (m : MemoryManager) (submitIndex : UInt32) (vaAddr : UInt64) (n : ℕ) : Prop :=
  ∀ k < n, m.Captured submitIndex (vaAddr + UInt64.ofNat k)

/-- The loop of `getMaxContiguousSize` is at `curAddr`, behind captured addresses. -/
def ComesTo (m : MemoryManager) (submitIndex : UInt32) (vaAddr curAddr : UInt64) : Prop :=
  ∃ n, curAddr = vaAddr + UInt64.ofNat n ∧ m.CapturedRange submitIndex vaAddr n

theorem ComesTo.capturedRange (h : m.ComesTo submitIndex vaAddr curAddr) :
    m.CapturedRange submitIndex vaAddr (curAddr - vaAddr).toNat := by
  obtain ⟨n, rfl, hn⟩ := h
  intro k hk
  refine hn k (lt_of_lt_of_le hk ?_)
  have hsub : vaAddr + UInt64.ofNat n - vaAddr = UInt64.ofNat n := by
    rw [UInt64.add_comm, UInt64.add_sub_cancel]
  rw [hsub, UInt64.toNat_ofNat']
  exact Nat.mod_le _ _

theorem comesTo_first (hb : b ∈ m.visible submitIndex) (hfirst : b.vaAddr ≤ vaAddr)
    (hlast : vaAddr < b.endAddr) : m.ComesTo submitIndex vaAddr b.endAddr := by
  rw [UInt64.le_iff_toNat_le] at hfirst
  rw [UInt64.lt_iff_toNat_lt] at hlast
  have hsize := b.dataSize.toNat_lt
  have hend := b.toNat_endAddr
  have hva := vaAddr.toNat_lt
  refine ⟨b.endAddr.toNat - vaAddr.toNat, ?_, fun k hk => ⟨b, hb, ?_⟩⟩
  · apply UInt64.toNat_inj.mp
    rw [UInt64.toNat_add, UInt64.toNat_ofNat']
    omega
  · rw [UInt64.toNat_sub, UInt64.toNat_add, UInt64.toNat_ofNat']
    omega

theorem comesTo_next (hb : b ∈ m.visible submitIndex)
    (h : m.ComesTo submitIndex vaAddr b.vaAddr) : m.ComesTo submitIndex vaAddr b.endAddr := by
  obtain ⟨n, hn, hcaptured⟩ := h
  have hsize := b.dataSize.toNat_lt
  have haddr := congrArg UInt64.toNat hn
  rw [UInt64.toNat_add, UInt64.toNat_ofNat'] at haddr
  refine ⟨n + b.dataSize.toNat, ?_, fun k hk => ?_⟩
  · apply UInt64.toNat_inj.mp
    rw [b.toNat_endAddr, UInt64.toNat_add, UInt64.toNat_ofNat']
    omega
  · by_cases hlt : k < n
    · exact hcaptured k hlt
    · refine ⟨b, hb, ?_⟩
      rw [UInt64.toNat_sub, UInt64.toNat_add, UInt64.toNat_ofNat']
      omega

/-- **One block of the loop.** -/
theorem comesTo_step (hb : b ∈ m.memoryBlocks) (h : m.ComesTo submitIndex vaAddr curAddr) :
    match m.maxContiguousStep submitIndex vaAddr curAddr b with
    | .ok curAddr => m.ComesTo submitIndex vaAddr curAddr
    | .error size => m.CapturedRange submitIndex vaAddr size.toNat := by
  unfold maxContiguousStep
  by_cases hvalid : m.validSubmit submitIndex b = true
  · have hvisible : b ∈ m.visible submitIndex := List.mem_filter.mpr ⟨hb, hvalid⟩
    rw [if_pos hvalid]
    by_cases hcur : curAddr = vaAddr
    · rw [if_pos hcur]
      split_ifs with hholds
      · exact comesTo_first hvisible hholds.1 hholds.2
      · exact h
    · rw [if_neg hcur]
      split_ifs with hnext
      · exact comesTo_next hvisible (hnext ▸ h)
      · exact h.capturedRange
  · rw [if_neg hvalid]
    exact h

theorem comesTo_foldlM : ∀ (blocks : List MemoryBlock) (curAddr : UInt64),
    (∀ b ∈ blocks, b ∈ m.memoryBlocks) → m.ComesTo submitIndex vaAddr curAddr →
    match blocks.foldlM (m.maxContiguousStep submitIndex vaAddr) curAddr with
    | .ok curAddr => m.ComesTo submitIndex vaAddr curAddr
    | .error size => m.CapturedRange submitIndex vaAddr size.toNat
  | [], curAddr, _, h => h
  | b :: blocks, curAddr, hmem, h => by
    have hstep := comesTo_step (hmem b List.mem_cons_self) h
    rw [List.foldlM_cons]
    cases hb : m.maxContiguousStep submitIndex vaAddr curAddr b with
    | error size =>
      rw [hb] at hstep
      exact hstep
    | ok curAddr' =>
      rw [hb] at hstep
      exact comesTo_foldlM blocks curAddr' (fun b hb => hmem b (List.mem_cons_of_mem _ hb)) hstep

/-- **What `isValid` accepts is captured.** -/
theorem captured_of_isValid (h : m.isValid submitIndex vaAddr size = true) :
    m.CapturedRange submitIndex vaAddr size.toNat := by
  have hstart : m.ComesTo submitIndex vaAddr vaAddr :=
    ⟨0, by simp, fun k hk => absurd hk (Nat.not_lt_zero k)⟩
  have hloop := comesTo_foldlM m.memoryBlocks vaAddr (fun _ hb => hb) hstart
  have hall : m.CapturedRange submitIndex vaAddr
      (m.getMaxContiguousSize submitIndex vaAddr).toNat := by
    unfold getMaxContiguousSize
    cases heq : m.memoryBlocks.foldlM (m.maxContiguousStep submitIndex vaAddr) vaAddr with
    | ok curAddr =>
      rw [heq] at hloop
      exact hloop.capturedRange
    | error size =>
      rw [heq] at hloop
      exact hloop
  rw [isValid, decide_eq_true_eq, UInt64.le_iff_toNat_le] at h
  exact fun k hk => hall k (lt_of_lt_of_le hk h)

end MemoryManager

end Dive
