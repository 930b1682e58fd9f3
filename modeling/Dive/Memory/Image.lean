import Dive.Memory.Retrieve
import Dive.Pm4.Packet

/-!
# Memory images

* `MemoryImage`: the captured bytes that one submit sees, and `retrieve`, the lookup in them.
* **`toInterface_image`**: a finalized memory manager answers as its image does, whatever was looked
  up before.
-/

namespace Dive

/-- The captured byte at each address. -/
def MemoryImage : Type := ℕ → Option UInt8

/-- A read copies what is captured and tells whether all of it is; one that reaches `2 ^ 64` copies
nothing. -/
def MemoryImage.retrieve (I : MemoryImage) (buffer : Buffer) (vaAddr size : UInt64) :
    Bool × Buffer :=
  if vaAddr.toNat + size.toNat < 2 ^ 64 then
    (decide (∀ i < size.toNat, (I (vaAddr.toNat + i)).isSome),
      fun i => if i < size.toNat then (I (vaAddr.toNat + i)).getD (buffer i) else buffer i)
  else (false, buffer)

/-- What a submit sees of the blocks. -/
def MemoryManager.image (m : MemoryManager) (submitIndex : UInt32) : MemoryImage := fun a =>
  ((m.usable submitIndex m.searched.reverse).find? (a ∈ ·.extent)).map (·.byteAt a)

variable {m : MemoryManager}

theorem toInterface_wrapped (hm : m.Finalized) (hl : m.LastReachable)
    (buffer : Buffer) (submitIndex : UInt32) {vaAddr size : UInt64}
    (hq : 2 ^ 64 ≤ vaAddr.toNat + size.toNat) :
    m.toInterface.retrieveMemoryData buffer submitIndex vaAddr size = (false, buffer) := by
  obtain ⟨hmiss, hhit⟩ := MemoryManager.retrieveMemoryData_wrapped hm hl submitIndex hq buffer
  unfold MemoryManager.toInterface
  dsimp only
  by_cases h : m.NoBlockHit submitIndex vaAddr size
  · rw [hmiss h]
  · rw [hhit h]

theorem isSome_image (submitIndex : UInt32) (a : ℕ) :
    (m.image submitIndex a).isSome ↔
      Extent.Covers ((m.usable submitIndex m.searched).map (·.extent)) a := by
  rw [MemoryManager.image, Option.isSome_map, List.find?_isSome]
  simp only [Extent.Covers, List.mem_map, exists_exists_and_eq_and, MemoryManager.usable,
    List.mem_filter, List.mem_reverse, decide_eq_true_eq]

/-- **A finalized memory manager answers as its image does.** -/
theorem toInterface_image (hm : m.Finalized) (hl : m.LastReachable) (buffer : Buffer)
    (submitIndex : UInt32) (vaAddr : UInt64) {size : UInt64} (hs : 0 < size) :
    m.toInterface.retrieveMemoryData buffer submitIndex vaAddr size =
      (m.image submitIndex).retrieve buffer vaAddr size := by
  rw [MemoryImage.retrieve]
  by_cases hq : vaAddr.toNat + size.toNat < 2 ^ 64
  · obtain ⟨ok, m', hread, hok⟩ :=
      @MemoryManager.retrieveMemoryData_short _ submitIndex _ _ hm hl hq
        (UInt64.lt_iff_toNat_lt.mp hs) buffer
    have hcovered : m.CoveredByUsable submitIndex vaAddr size ↔
        ∀ i < size.toNat, (m.image submitIndex (vaAddr.toNat + i)).isSome := by
      simp only [isSome_image]
      constructor
      · intro h i hi
        exact h _ (mem_queried.mpr ⟨by omega, by omega⟩)
      · intro h a ha
        have hbounds := mem_queried.mp ha
        have hcover := h (a - vaAddr.toNat) (by omega)
        rwa [Nat.add_sub_cancel' hbounds.1] at hcover
    have hflag : ok = decide (∀ i < size.toNat,
        (m.image submitIndex (vaAddr.toNat + i)).isSome) := by
      rw [Bool.eq_iff_iff, hok, hcovered, decide_eq_true_eq]
    rw [if_pos hq]
    unfold MemoryManager.toInterface
    dsimp only
    rw [hread, hflag]
    rfl
  · rw [if_neg hq, toInterface_wrapped hm hl buffer submitIndex (by omega)]

end Dive
