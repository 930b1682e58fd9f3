import Dive.Pm4.Packet

/-!
# The memory manager of a raw command stream

* `TempMemoryManager`: the dwords of the stream, at the addresses from 0 on.
* `TempMemoryManager.toInterface_eq`: what it answers below `2 ^ 64`.
* `IMemoryManager.ReadsBytes`: a lookup shows the bytes of a memory.
-/

namespace Dive

/-- The stream, and how many of its dwords may be read. -/
structure TempMemoryManager where
  commandDwords : List UInt32
  sizeInDwords : UInt32
  size_le : sizeInDwords.toNat ≤ commandDwords.length

namespace TempMemoryManager

variable (w : TempMemoryManager)

/-- `command_bytes`. -/
def commandBytes : List UInt8 := w.commandDwords.flatMap dwordBytes

/-- `RetrieveMemoryData`; `none` if the `memcpy` reads past the stream. -/
def retrieveMemoryData (buffer : Buffer) (vaAddr size : UInt64) : Option (Bool × Buffer) :=
  if w.sizeInDwords.toUInt64 * 4 < vaAddr + size then some (false, buffer)
  else (memcpy buffer 0 w.commandBytes vaAddr.toNat size.toNat).map fun buffer => (true, buffer)

/-- The memory manager as the interface sees it; a lookup that reads out of bounds leaves the buffer
alone. -/
def toInterface : IMemoryManager where
  retrieveMemoryData buffer _ vaAddr size :=
    (w.retrieveMemoryData buffer vaAddr size).getD (false, buffer)
  isValid _ _ _ := true

/-- The byte at an address. -/
def byteAt (a : ℕ) : UInt8 := w.commandBytes.getD a 0

variable {w}

theorem length_commandBytes : w.commandBytes.length = 4 * w.commandDwords.length :=
  length_flatMap_dwordBytes w.commandDwords

theorem toNat_size : (w.sizeInDwords.toUInt64 * 4).toNat = 4 * w.sizeInDwords.toNat := by
  have hlt := w.sizeInDwords.toNat_lt
  have h4 : (4 : UInt64).toNat = 4 := by decide
  rw [UInt64.toNat_mul, UInt32.toNat_toUInt64, h4, Nat.mod_eq_of_lt (by omega), Nat.mul_comm]

/-- **A lookup copies all that is asked, or nothing.** -/
theorem toInterface_eq (buffer : Buffer) (submitIndex : UInt32) {vaAddr size : UInt64}
    (h : vaAddr.toNat + size.toNat < 2 ^ 64) :
    w.toInterface.retrieveMemoryData buffer submitIndex vaAddr size =
      if vaAddr.toNat + size.toNat ≤ 4 * w.sizeInDwords.toNat then
        (true, fun i => if i < size.toNat then w.byteAt (vaAddr.toNat + i) else buffer i)
      else (false, buffer) := by
  have hend : (vaAddr + size).toNat = vaAddr.toNat + size.toNat := by
    rw [UInt64.toNat_add, Nat.mod_eq_of_lt h]
  show (w.retrieveMemoryData buffer vaAddr size).getD (false, buffer) = _
  rw [retrieveMemoryData]
  by_cases hle : vaAddr.toNat + size.toNat ≤ 4 * w.sizeInDwords.toNat
  · have hin : ¬ w.sizeInDwords.toUInt64 * 4 < vaAddr + size := by
      rw [UInt64.lt_iff_toNat_lt, toNat_size, hend]
      omega
    have hcopy : vaAddr.toNat + size.toNat ≤ w.commandBytes.length := by
      have := w.size_le
      rw [length_commandBytes]
      omega
    rw [if_neg hin, if_pos hle, memcpy, if_pos hcopy]
    simp only [Option.map_some, Option.getD_some, Nat.zero_le, true_and, Nat.zero_add, Nat.sub_zero]
    rfl
  · have hpast : w.sizeInDwords.toUInt64 * 4 < vaAddr + size := by
      rw [UInt64.lt_iff_toNat_lt, toNat_size, hend]
      omega
    rw [if_pos hpast, if_neg hle]
    rfl

end TempMemoryManager

/-! ## Lookups of bytes -/

section Bytes

variable {mem : IMemoryManager} {submitIndex : UInt32} {byte : ℕ → UInt8} {addr : UInt64}

/-- A lookup into an empty buffer shows the bytes of a memory. -/
def IMemoryManager.ReadsBytes (mem : IMemoryManager) (submitIndex : UInt32) (byte : ℕ → UInt8)
    (addr size : UInt64) : Prop :=
  (mem.retrieveMemoryData Buffer.zero submitIndex addr size).2 =
    fun i => if i < size.toNat then byte (addr.toNat + i) else 0

/-- **A lookup of eight bytes shows what two of four bytes show.** -/
theorem u64_of_readsBytes (hlt : addr.toNat + 8 < 2 ^ 64)
    (h8 : mem.ReadsBytes submitIndex byte addr 8) (h4 : mem.ReadsBytes submitIndex byte addr 4)
    (hnext : mem.ReadsBytes submitIndex byte (addr + 4) 4) :
    (mem.retrieveMemoryData Buffer.zero submitIndex addr 8).2.u64 0 =
      ((mem.retrieveMemoryData Buffer.zero submitIndex addr 4).2.u32 0).toUInt64 |||
        ((mem.retrieveMemoryData Buffer.zero submitIndex (addr + 4) 4).2.u32 0).toUInt64 <<< 32 := by
  have haddr : (addr + 4).toNat = addr.toNat + 4 := by
    rw [UInt64.toNat_add, Nat.mod_eq_of_lt (by have : (4 : UInt64).toNat = 4 := by decide
                                               omega)]
    rfl
  have e8 : (8 : UInt64).toNat = 8 := by decide
  have e4 : (4 : UInt64).toNat = 4 := by decide
  rw [IMemoryManager.ReadsBytes, e8] at h8
  rw [IMemoryManager.ReadsBytes, e4] at h4
  rw [IMemoryManager.ReadsBytes, e4, haddr] at hnext
  rw [h8, h4, hnext]
  simp [Buffer.u64, Buffer.u32, Nat.add_assoc]

variable (byte) in
theorem u64_of_four (h : (mem.retrieveMemoryData Buffer.zero submitIndex addr 4).2 = Buffer.zero ∨
    mem.ReadsBytes submitIndex byte addr 4) :
    (mem.retrieveMemoryData Buffer.zero submitIndex addr 4).2.u64 0 =
      ((mem.retrieveMemoryData Buffer.zero submitIndex addr 4).2.u32 0).toUInt64 := by
  have e4 : (4 : UInt64).toNat = 4 := by decide
  rcases h with h | h
  · rw [h]
    rfl
  · rw [IMemoryManager.ReadsBytes, e4] at h
    rw [h]
    simp [Buffer.u64, Buffer.u32]

end Bytes

end Dive
