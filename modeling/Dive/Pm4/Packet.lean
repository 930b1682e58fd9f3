import Dive.Memory.Manager

/-!
# PM4 packets

* `IMemoryManager`: what the emulator may ask about the captured memory.
* `Pm4Header`, its bit fields, `calcParity`, `getPacketSize`.
* The packets that reference indirect buffers, read from a `Buffer`.
-/

namespace Dive

/-- The part of the memory interface that the emulator uses. `retrieveMemoryData` returns its flag
and the buffer, which may be partly written when the flag is false. -/
structure IMemoryManager where
  retrieveMemoryData : Buffer → UInt32 → UInt64 → UInt64 → Bool × Buffer
  isValid : UInt32 → UInt64 → UInt64 → Bool

/-- The memory manager as the interface sees it, from its last-used block on; a lookup that reads
out of bounds leaves the buffer alone. -/
def MemoryManager.toInterface (m : MemoryManager) : IMemoryManager where
  retrieveMemoryData buffer submitIndex vaAddr size :=
    match m.retrieveMemoryData buffer submitIndex vaAddr size with
    | some (ok, buffer, _) => (ok, buffer)
    | none => (false, buffer)
  isValid := m.isValid

/-- The bytes of a dword, little-endian. -/
def dwordBytes (w : UInt32) : List UInt8 :=
  [w.toUInt8, (w >>> 8).toUInt8, (w >>> 16).toUInt8, (w >>> 24).toUInt8]

theorem length_flatMap_dwordBytes (ws : List UInt32) :
    (ws.flatMap dwordBytes).length = 4 * ws.length := by
  induction ws with
  | nil => rfl
  | cons w ws ih =>
    rw [List.flatMap_cons, List.length_append, ih, List.length_cons]
    simp only [dwordBytes, List.length_cons, List.length_nil]
    omega

/-- The captured dwords `ws` of submit 0, from `vaAddr` on. -/
def MemoryBlock.ofDwords (vaAddr : UInt64) (ws : List UInt32) : MemoryBlock where
  vaAddr := vaAddr
  submitIndex := 0
  dataSize := UInt32.ofNat (ws.flatMap dwordBytes).length
  data := (ws.flatMap dwordBytes).take (UInt32.ofNat (ws.flatMap dwordBytes).length).toNat
  length_data := by
    rw [List.length_take, UInt32.toNat_ofNat', Nat.min_eq_left (Nat.mod_le _ _)]

namespace Buffer

/-- The little-endian dword at byte `offset`. -/
def u32 (b : Buffer) (offset : ℕ) : UInt32 :=
  (b offset).toUInt32 ||| (b (offset + 1)).toUInt32 <<< 8 ||| (b (offset + 2)).toUInt32 <<< 16 |||
    (b (offset + 3)).toUInt32 <<< 24

/-- The little-endian qword at byte `offset`. -/
def u64 (b : Buffer) (offset : ℕ) : UInt64 :=
  (b.u32 offset).toUInt64 ||| (b.u32 (offset + 4)).toUInt64 <<< 32

end Buffer

/-! ## Headers -/

/-- `Pm4Header`. -/
structure Pm4Header where
  u32All : UInt32
  deriving DecidableEq

namespace Pm4Header

variable (h : Pm4Header)

/-- The bit field of `width` bits from bit `low` on. -/
def bits (low width : UInt32) : UInt32 := (h.u32All >>> low) &&& ((1 <<< width) - 1)

def type : UInt32 := h.bits 28 4

def type4Count : UInt32 := h.bits 0 7

def type4CountParity : UInt32 := h.bits 7 1

def type4Offset : UInt32 := h.bits 8 19

def type4OffsetParity : UInt32 := h.bits 27 1

def type7Count : UInt32 := h.bits 0 15

def type7CountParity : UInt32 := h.bits 15 1

def type7Opcode : UInt32 := h.bits 16 7

def type7OpcodeParity : UInt32 := h.bits 23 1

def type7Zeroes : UInt32 := h.bits 24 4

end Pm4Header

/-- `CalcParity`: odd parity. -/
def calcParity (val : UInt32) : UInt32 :=
  let val := val ^^^ (val >>> 16)
  let val := val ^^^ (val >>> 8)
  let val := val ^^^ (val >>> 4)
  let val := val &&& 0xf
  (~~~0x6996 >>> val) &&& 1

/-- The validity check of `ExecuteSubmit`; it lets headers of other types through. -/
def Pm4Header.isValid (h : Pm4Header) : Bool :=
  if h.type = 4 then
    h.type4OffsetParity = calcParity h.type4Offset && h.type4CountParity = calcParity h.type4Count
  else if h.type = 7 then
    h.type7OpcodeParity = calcParity h.type7Opcode &&
      h.type7CountParity = calcParity h.type7Count && h.type7Zeroes = 0
  else true

/-- `GetPacketSize`, in dwords. -/
def getPacketSize (h : Pm4Header) : UInt32 :=
  if h.type = 2 then 1
  else if h.type = 4 then h.type4Count + 1
  else if h.type = 7 then h.type7Count + 1
  else 0

/-- `GetPacketSize(header) * sizeof(uint32_t)`. -/
def packetBytes (h : Pm4Header) : UInt64 := (getPacketSize h).toUInt64 * 4

/-! ## Opcodes -/

def CP_INDIRECT_BUFFER_PFD : UInt32 := 0x37
def CP_INDIRECT_BUFFER_PFE : UInt32 := 0x3f
def CP_SET_DRAW_STATE : UInt32 := 0x43
def CP_START_BIN : UInt32 := 0x50
def CP_END_BIN : UInt32 := 0x51
def CP_SET_AMBLE : UInt32 := 0x55
def CP_INDIRECT_BUFFER_CHAIN : UInt32 := 0x57
def CP_FIXED_STRIDE_DRAW_TABLE : UInt32 := 0x7f

/-- A type 7 packet with this opcode. -/
def Pm4Header.isOpcode (h : Pm4Header) (opcode : UInt32) : Bool :=
  h.type = 7 && h.type7Opcode = opcode

/-! ## Packets that reference indirect buffers -/

/-- `IbType`. -/
inductive IbType
  | kNormal
  | kCall
  | kChain
  | kContextSwitchIb
  | kDrawState
  | kBinPrefix
  | kBinCommon
  | kFixedStrideDrawTable
  deriving DecidableEq, Repr

/-- One entry of the IB queue. -/
structure QueuedIb where
  ibType : IbType
  addr : UInt64
  sizeInDwords : UInt32
  skip : Bool := false
  enableMask : UInt32 := 7
  deriving DecidableEq

/-- The fields of `PM4_CP_INDIRECT_BUFFER`, `PM4_CP_SET_AMBLE` and so on: a buffer that starts with
the header. -/
abbrev Pm4Packet : Type := Buffer

namespace Pm4Packet

variable (p : Pm4Packet)

/-- `HEADER`. -/
def header : Pm4Header := ⟨p.u32 0⟩

/-- `IB_BASE` and `IB_SIZE` of `CP_INDIRECT_BUFFER_*`. -/
def indirectBuffer (ibType : IbType) : QueuedIb where
  ibType := ibType
  addr := p.u64 4
  sizeInDwords := p.u32 12 &&& 0xfffff

/-- `ADDR` and `DWORDS` of `CP_SET_AMBLE`. -/
def amble : QueuedIb where
  ibType := .kContextSwitchIb
  addr := p.u64 4
  sizeInDwords := p.u32 12 &&& 0xfffff

/-- `ARRAY[i].bitfields0` of `CP_SET_DRAW_STATE`: `DISABLE` is bit 17, `DISABLE_ALL_GROUPS` bit
18. -/
def drawStateBits (i : ℕ) : UInt32 := p.u32 (4 + 12 * i)

/-- One bit of `ARRAY[i].bitfields0`. -/
def drawStateBit (i : ℕ) (bit : UInt32) : UInt32 := (p.drawStateBits i >>> bit) &&& 1

/-- `BINNING | (GMEM << 1) | (SYSMEM << 2)`. -/
def drawStateMask (i : ℕ) : UInt32 :=
  p.drawStateBit i 20 ||| (p.drawStateBit i 21 <<< 1) ||| (p.drawStateBit i 22 <<< 2)

/-- The IB of group `i`. -/
def drawState (i : ℕ) : QueuedIb where
  ibType := .kDrawState
  addr := p.u64 (4 + 12 * i + 4)
  sizeInDwords := p.drawStateBits i &&& 0xffff
  enableMask := p.drawStateMask i

/-- The number of groups, from the header inside the packet. -/
def drawStateSize : ℕ := (p.header.type7Count * 4 / 12).toNat

/-- The groups `i`, `i + 1`, … that are queued: up to `DISABLE_ALL_GROUPS`, those without
`DISABLE`. -/
def drawStatesFrom (i : ℕ) : ℕ → List QueuedIb
  | 0 => []
  | n + 1 =>
    if p.drawStateBit i 18 ≠ 0 then []
    else if p.drawStateBit i 17 ≠ 0 then drawStatesFrom (i + 1) n
    else p.drawState i :: drawStatesFrom (i + 1) n

/-- The IBs of `CP_SET_DRAW_STATE`. -/
def drawStates : List QueuedIb := p.drawStatesFrom 0 p.drawStateSize

/-- `PREFIX_ADDR + bin * PREFIX_DWORDS * sizeof(uint32_t)` of `CP_START_BIN`. -/
def binPrefix (bin : ℕ) : QueuedIb where
  ibType := .kBinPrefix
  addr := p.u64 8 + (UInt32.ofNat bin * p.u32 16).toUInt64 * 4
  sizeInDwords := p.u32 16

/-- The common block of `CP_START_BIN`. -/
def binCommon (commonBlockVa : UInt64) (commonBlockDwordSize : UInt32) : QueuedIb where
  ibType := .kBinCommon
  addr := commonBlockVa
  sizeInDwords := commonBlockDwordSize

/-- The prefix and the common block of each of the `BIN_COUNT` bins. -/
def bins (commonBlockVa : UInt64) (commonBlockDwordSize : UInt32) : List QueuedIb :=
  (List.range (p.u32 4).toNat).flatMap fun bin =>
    [p.binPrefix bin, binCommon commonBlockVa commonBlockDwordSize]

/-- `IB_BASE + draw * STRIDE * sizeof(uint32_t)` of `CP_FIXED_STRIDE_DRAW_TABLE`. -/
def fixedStrideDraw (draw : ℕ) : QueuedIb where
  ibType := .kFixedStrideDrawTable
  addr := p.u64 4 + (UInt32.ofNat draw * (p.u32 12 >>> 20)).toUInt64 * 4
  sizeInDwords := p.u32 12 >>> 20

/-- The `COUNT` buffers of the draw table. -/
def fixedStrideDraws : List QueuedIb := (List.range (p.u32 16).toNat).map p.fixedStrideDraw

end Pm4Packet

end Dive
