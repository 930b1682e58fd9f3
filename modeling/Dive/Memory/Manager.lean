import Dive.Lib.Extent

/-!
# The memory manager of a PM4 capture

* `MemoryBlock`, `MemoryManager`: the captured bytes of all submits, with the block that the
  previous lookup touched last.
* `MemoryManager.retrieveMemoryData`: the lookup, with its fast path (`MemoryBlock.encompasses` of
  the last-used block) and its backward search (`retrieveLoop`).
* `MemoryManager.getMaxContiguousSize`, `MemoryManager.isValid`.

Addresses are `UInt64` and sizes `UInt32`, as in the source, so every sum wraps where the source's
does. A `memcpy` that would read past the source array has no result (`none`).
-/

namespace Dive

/-- The memory a `void*` points to, by offset. -/
abbrev Buffer : Type := ℕ → UInt8

/-- A local structure after `{}`. -/
def Buffer.zero : Buffer := fun _ => 0

/-- The memory after `bytes` were written to its start. -/
def Buffer.overwrite (b : Buffer) (bytes : List UInt8) : Buffer := fun i => bytes[i]?.getD (b i)

theorem Buffer.map_range_overwrite (b : Buffer) {l : List UInt8} {n : ℕ} (h : l.length = n) :
    (List.range n).map (b.overwrite l) = l := by
  subst h
  apply List.ext_getElem (by simp)
  intro i hi hl
  simp [Buffer.overwrite, List.getElem?_eq_getElem hl]

/-- `memcpy(dst + dstOffset, src + srcOffset, n)`; `none` if it reads past the end of `src`. -/
def memcpy (dst : Buffer) (dstOffset : ℕ) (src : List UInt8) (srcOffset n : ℕ) : Option Buffer :=
  if srcOffset + n ≤ src.length then
    some fun i => if dstOffset ≤ i ∧ i < dstOffset + n then src.getD (srcOffset + (i - dstOffset)) 0
      else dst i
  else none

/-- A captured range of memory, with the submit it was captured for. -/
structure MemoryBlock where
  vaAddr : UInt64
  submitIndex : UInt32
  dataSize : UInt32
  data : List UInt8
  length_data : data.length = dataSize.toNat
  deriving DecidableEq

namespace MemoryBlock

/-- `m_va_addr + m_data_size`, in 64 bits. -/
def endAddr (b : MemoryBlock) : UInt64 := b.vaAddr + b.dataSize.toUInt64

/-- The fast path's test: the block holds all of `[vaAddr, vaAddr + size)`. -/
def encompasses (b : MemoryBlock) (vaAddr size : UInt64) : Bool :=
  b.vaAddr ≤ vaAddr && vaAddr + size ≤ b.endAddr

/-- The search's test: the block holds some of `[vaAddr, vaAddr + size)`. -/
def overlaps (b : MemoryBlock) (vaAddr size : UInt64) : Bool :=
  vaAddr < b.endAddr && b.vaAddr < vaAddr + size

/-- The addresses of the block. -/
def extent (b : MemoryBlock) : Extent := ⟨b.vaAddr.toNat, b.dataSize.toNat⟩

/-- The byte stored for address `a`. -/
def byteAt (b : MemoryBlock) (a : ℕ) : UInt8 := b.data.getD (a - b.vaAddr.toNat) 0

end MemoryBlock

/-- All captured memory. `lastUsedBlock` is what `m_last_used_block_ptr` points to. -/
structure MemoryManager where
  memoryBlocks : List MemoryBlock := []
  sameSubmitOnly : Bool := true
  lastUsedBlock : Option MemoryBlock := none
  deriving DecidableEq

namespace MemoryManager

/-- `AddMemoryBlock`. -/
def addMemoryBlock (m : MemoryManager) (b : MemoryBlock) : MemoryManager :=
  { m with memoryBlocks := m.memoryBlocks ++ [b] }

/-- Lookups of `submitIndex` may use the block. -/
def validSubmit (m : MemoryManager) (submitIndex : UInt32) (b : MemoryBlock) : Bool :=
  if m.sameSubmitOnly then submitIndex == b.submitIndex else true

/-- The blocks that the search visits: the loop counts them in a `uint32_t`. -/
def searched (m : MemoryManager) : List MemoryBlock :=
  m.memoryBlocks.take (m.memoryBlocks.length % 2 ^ 32)

/-- The search of `RetrieveMemoryData` over the blocks left to visit, last block first. -/
def retrieveLoop (m : MemoryManager) (submitIndex : UInt32) (vaAddr size : UInt64) :
    List MemoryBlock → UInt64 → Buffer → Option MemoryBlock →
      Option (Bool × Buffer × Option MemoryBlock)
  | [], _, buffer, last => some (false, buffer, last)
  | b :: bs, amountCopied, buffer, last =>
    if m.validSubmit submitIndex b && b.overlaps vaAddr size then
      let maxStartAddr := max vaAddr b.vaAddr
      let minEndAddr := min b.endAddr (vaAddr + size)
      let srcOffset := maxStartAddr - b.vaAddr
      let dstOffset := maxStartAddr - vaAddr
      let sizeToCopy := minEndAddr - maxStartAddr
      (memcpy buffer dstOffset.toNat b.data srcOffset.toNat sizeToCopy.toNat).bind fun buffer =>
        -- no two blocks overlap, so `size` bytes copied means that all of them are
        if amountCopied + sizeToCopy = size then some (true, buffer, some b)
        else retrieveLoop m submitIndex vaAddr size bs (amountCopied + sizeToCopy) buffer (some b)
    else retrieveLoop m submitIndex vaAddr size bs amountCopied buffer last

/-- The manager with another last-used block. -/
def remember (m : MemoryManager) (last : Option MemoryBlock) : MemoryManager :=
  { m with lastUsedBlock := last }

/-- The last-used block, when it serves the lookup without a search. -/
def fastPath (m : MemoryManager) (submitIndex : UInt32) (vaAddr size : UInt64) :
    Option MemoryBlock :=
  m.lastUsedBlock.filter fun b => m.validSubmit submitIndex b && b.encompasses vaAddr size

/-- `RetrieveMemoryData`: the returned flag, the buffer and the manager afterwards. -/
def retrieveMemoryData (m : MemoryManager) (buffer : Buffer) (submitIndex : UInt32)
    (vaAddr size : UInt64) : Option (Bool × Buffer × MemoryManager) :=
  match m.fastPath submitIndex vaAddr size with
  | some b =>
    (memcpy buffer 0 b.data (vaAddr - b.vaAddr).toNat size.toNat).map fun buffer =>
      (true, buffer, m)
  | none =>
    (m.retrieveLoop submitIndex vaAddr size m.searched.reverse 0 buffer m.lastUsedBlock).map
      fun (ok, buffer, last) => (ok, buffer, m.remember last)

/-- The arguments of one lookup. -/
structure Lookup where
  buffer : Buffer
  submitIndex : UInt32
  vaAddr : UInt64
  size : UInt64

/-- The manager after a history of lookups, if none of them read out of bounds. -/
def afterLookups (m : MemoryManager) : List Lookup → Option MemoryManager
  | [] => some m
  | l :: ls =>
    (m.retrieveMemoryData l.buffer l.submitIndex l.vaAddr l.size).bind fun r => r.2.2.afterLookups ls

/-- One iteration of the loop of `GetMaxContiguousSize`; `.error` is its early return. -/
def maxContiguousStep (m : MemoryManager) (submitIndex : UInt32) (vaAddr curAddr : UInt64)
    (b : MemoryBlock) : Except UInt64 UInt64 :=
  if m.validSubmit submitIndex b then
    if curAddr = vaAddr then
      -- the first block just has to contain the address
      if b.vaAddr ≤ vaAddr ∧ vaAddr < b.endAddr then .ok b.endAddr else .ok curAddr
    else if curAddr = b.vaAddr then .ok b.endAddr
    else .error (curAddr - vaAddr)
  else .ok curAddr

/-- `GetMaxContiguousSize`. -/
def getMaxContiguousSize (m : MemoryManager) (submitIndex : UInt32) (vaAddr : UInt64) : UInt64 :=
  match m.memoryBlocks.foldlM (m.maxContiguousStep submitIndex vaAddr) vaAddr with
  | .ok curAddr => curAddr - vaAddr
  | .error size => size

/-- `IsValid`. -/
def isValid (m : MemoryManager) (submitIndex : UInt32) (addr size : UInt64) : Bool :=
  size ≤ m.getMaxContiguousSize submitIndex addr

end MemoryManager

end Dive
