import Dive.Memory.Finalize
import Dive.Pm4.Emulator
import Dive.Rd.FileReader

/-!
# Loading an Adreno `.rd` file

* `RdSectType`: the types of the blocks.
* `LoadState`: the locals of `LoadAdrenoRdFile` between two iterations, with the members and globals
  that it writes, and a record of the calls of `Read`.
* `loadGpuAddressAndSize`, `loadMemoryBlockAdreno`, `loadCmdStreamBlockAdreno`: as in the source.
* `nextHeader`, `loadBlock`: the loop's condition with the padding loop, and the `switch`. Together
  they are one `iteration`, the step of a `Machine`; it stops with an `Ending`.

The build is a release one: the assertions about block sizes do nothing.
-/

namespace Dive

namespace Pm4CaptureData

/-- `rd_sect_type`. -/
inductive RdSectType
  | rdNone
  | rdTest
  | rdCmd
  | rdGpuaddr
  | rdContext
  | rdCmdstream
  | rdCmdstreamAddr
  | rdParam
  | rdFlush
  | rdProgram
  | rdVertShader
  | rdFragShader
  | rdBufferContents
  | rdGpuId
  | rdChipId
  deriving DecidableEq

/-- The enumerators, by value. -/
def rdSectTypes : List RdSectType :=
  [.rdNone, .rdTest, .rdCmd, .rdGpuaddr, .rdContext, .rdCmdstream, .rdCmdstreamAddr, .rdParam,
    .rdFlush, .rdProgram, .rdVertShader, .rdFragShader, .rdBufferContents, .rdGpuId, .rdChipId]

/-- The enumerator with the value of `m_block_type`, if there is one. -/
def sectType (blockType : UInt32) : Option RdSectType := rdSectTypes[blockType.toNat]?

/-- `GPUVariantType`. -/
inductive GPUVariantType
  | kGPUVariantNone
  | kA2XX
  | kA3XX
  | kA4XX
  | kA5XX
  | kA6XX
  | kA7XX
  | kA8XX
  deriving DecidableEq

/-- The variant that `SetGPUID` sets. -/
def gpuVariantOf (gpuId : UInt32) : GPUVariantType :=
  match (gpuId / 100).toNat with
  | 2 => .kA2XX
  | 3 => .kA3XX
  | 4 => .kA4XX
  | 5 => .kA5XX
  | 6 => .kA6XX
  | 7 => .kA7XX
  | _ => .kGPUVariantNone

/-- `EngineType`. -/
inductive EngineType
  | kUniversal
  | kCompute
  | kDma
  | kTimer
  | kOther
  | kNone
  deriving DecidableEq

/-- `QueueType`. -/
inductive QueueType
  | kUniversal
  | kCompute
  | kDma
  | kTimer
  | kOther
  | kNone
  deriving DecidableEq

/-- `SubmitInfo`. -/
structure SubmitInfo where
  engineType : EngineType
  queueType : QueueType
  engineIndex : UInt8
  isDummySubmit : Bool
  ibs : List IndirectBufferInfo
  deriving DecidableEq

/-- `AppendIb`. -/
def SubmitInfo.appendIb (s : SubmitInfo) (ib : IndirectBufferInfo) : SubmitInfo :=
  { s with ibs := s.ibs ++ [ib] }

/-- A call of `Read`: for the header or for the payload of a block, with its result. -/
structure ReadCall where
  ofHeader : Bool
  nbytes : ℕ
  returned : ℤ
  deriving DecidableEq

/-- The call wrote every byte it was to write. -/
def ReadCall.Full (c : ReadCall) : Prop := c.returned = c.nbytes

instance (c : ReadCall) : Decidable c.Full := inferInstanceAs (Decidable (_ = _))

/-- The state between two iterations. `blockInfo` keeps its bytes from one to the next. The last
submit is the last of `submits`; `reads` are the calls of the last iteration. -/
structure LoadState where
  file : Archive
  blockInfo : Buffer := Buffer.zero
  curGpuAddr : UInt64 := 0xFFFFFFFFFFFFFFFF
  curSize : UInt32 := 0xFFFFFFFF
  isNewSubmit : Bool := false
  skipCommands : Bool := false
  gpuId : UInt32 := 0
  gpuVariant : GPUVariantType := .kGPUVariantNone
  submits : List SubmitInfo := []
  memory : MemoryManager := {}
  reads : List ReadCall := []

/-- `LoadResult`, as far as `LoadAdrenoRdFile` returns it. -/
inductive LoadResult
  | kSuccess
  | kFileIoError
  | kCorruptData
  deriving DecidableEq

/-- How a load ends: it returns, or does what has no meaning (it writes past a local variable, or
takes the back of an empty vector). -/
inductive Ending
  | returns (result : LoadResult) (s : LoadState)
  | undefined

/-- What the loader does not determine itself: the chip that `fd_dev_info` finds for a chip id, and
the bytes of fresh heap memory. -/
structure LoadEnv where
  chip : UInt64 → UInt8
  heap : LoadState → Buffer

namespace LoadState

/-- `m_block_type`. -/
def blockType (s : LoadState) : UInt32 := s.blockInfo.u32 0

/-- `m_data_size`. -/
def dataSize (s : LoadState) : UInt32 := s.blockInfo.u32 4

/-- What `Read` yields for `nbytes` bytes. -/
def read (s : LoadState) (nbytes : ℕ) : Transfer UInt8 := FileReader.read s.file nbytes

/-- The state after `Read` was called for `nbytes` bytes. -/
def afterRead (s : LoadState) (ofHeader : Bool) (nbytes : ℕ) : LoadState :=
  { s with
    file := (s.read nbytes).rest
    reads := s.reads ++ [⟨ofHeader, nbytes, (s.read nbytes).returned⟩] }

/-- `SetGPUID`. -/
def setGPUID (s : LoadState) (gpuId : UInt32) : LoadState :=
  { s with gpuId := gpuId, gpuVariant := gpuVariantOf gpuId }

/-- The test of `RD_CHIP_ID`: no valid id so far. -/
def needsChipId (s : LoadState) : Bool := s.gpuId = 0 || s.gpuVariant = .kGPUVariantNone

/-- `Read` into a local variable of `size` bytes, zero before; `none` if it writes past it. -/
def readLocal (s : LoadState) (size nbytes : ℕ) : Option (Buffer × LoadState) :=
  if (s.read nbytes).items.length ≤ size then
    some (Buffer.zero.overwrite (s.read nbytes).items, s.afterRead false nbytes)
  else none

end LoadState

/-! ## The handlers

A handler that returns false makes the loader return `kFileIoError`. -/

/-- `if (!capture_file.Read((char*)&dword, sizeof(uint32_t))) return false;` -/
def readDword (s : LoadState) (dword : Buffer) : Except Ending (Buffer × LoadState) :=
  if (s.read 4).returned = 0 then .error (.returns .kFileIoError (s.afterRead false 4))
  else .ok (dword.overwrite (s.read 4).items, s.afterRead false 4)

/-- `LoadGpuAddressAndSize`. The local `dword` keeps its bytes from one read to the next. -/
def loadGpuAddressAndSize (s : LoadState) (blockSize : UInt32) :
    Except Ending (UInt64 × UInt32 × LoadState) := do
  let (lower, s) ← readDword s Buffer.zero
  let (size, s) ← readDword s lower
  if 8 < blockSize then
    let (upper, s) ← readDword s size
    .ok ((lower.u32 0).toUInt64 ||| (upper.u32 0).toUInt64 <<< 32, size.u32 0, s)
  else .ok ((lower.u32 0).toUInt64, size.u32 0, s)

/-- The captured block made of the first `size` bytes of the buffer. -/
def memoryBlock (submitIndex : UInt32) (vaAddr : UInt64) (size : UInt32) (data : Buffer) :
    MemoryBlock where
  vaAddr := vaAddr
  submitIndex := submitIndex
  dataSize := size
  data := (List.range size.toNat).map data
  length_data := by rw [List.length_map, List.length_range]

/-- `LoadMemoryBlockAdreno`. -/
def loadMemoryBlockAdreno (E : LoadEnv) (s : LoadState) (gpuAddr : UInt64) (size : UInt32) :
    Except Ending LoadState :=
  let t := s.afterRead false size.toNat
  if (s.read size.toNat).returned = 0 then .error (.returns .kFileIoError t)
  else
    -- unlike with Dive, the blocks of a submit come before the submit
    .ok { t with memory := s.memory.addMemoryBlock (memoryBlock (UInt32.ofNat s.submits.length)
      gpuAddr size ((E.heap s).overwrite (s.read size.toNat).items)) }

/-- `LoadCmdStreamBlockAdreno`. -/
def loadCmdStreamBlockAdreno (s : LoadState) (blockSize : UInt32)
    (createNewSubmit skipCommands : Bool) : Except Ending LoadState := do
  let (gpuAddr, sizeInDwords, t) ← loadGpuAddressAndSize s blockSize
  let ib : IndirectBufferInfo :=
    { vaAddr := gpuAddr, sizeInDwords := sizeInDwords, skip := skipCommands }
  if createNewSubmit then
    .ok { t with submits := t.submits ++ [⟨.kUniversal, .kUniversal, 0, false, [ib]⟩] }
  else
    match t.submits.getLast? with
    | none => .error .undefined
    | some last => .ok { t with submits := t.submits.dropLast ++ [last.appendIb ib] }

/-- The bytes of a string literal. -/
def literal (s : String) : List UInt8 := s.toList.map fun c => UInt8.ofNat c.toNat

/-- `strcmp(name, s) == 0`, where `literal s` is what is left of `s` from byte `i` on. -/
def equalsFrom (name : Buffer) : ℕ → List UInt8 → Bool
  | i, [] => name i = 0
  | i, c :: cs => name i = c && equalsFrom name (i + 1) cs

/-- The commands of a system process are skipped. -/
def isSystemProcess (name : Buffer) : Bool :=
  equalsFrom name 0 (literal "fdperf") || equalsFrom name 0 (literal "chrome") ||
    equalsFrom name 0 (literal "surfaceflinger") || [name 0] = literal "X"

/-- The case `RD_CMD`. -/
def loadCmd (E : LoadEnv) (s : LoadState) : Except Ending LoadState :=
  let t := s.afterRead false s.dataSize.toNat
  if (s.read s.dataSize.toNat).returned = 0 then
    .error (.returns .kFileIoError { t with skipCommands := false })
  else
    .ok { t with
      skipCommands := isSystemProcess ((E.heap s).overwrite (s.read s.dataSize.toNat).items) }

/-- The case `RD_GPU_ID`. What `Read` returns is not looked at. -/
def loadGpuId (s : LoadState) : Except Ending LoadState :=
  match s.readLocal 4 s.dataSize.toNat with
  | none => .error .undefined
  | some (gpuId, t) => .ok (t.setGPUID (gpuId.u32 0))

/-- The case `RD_CHIP_ID`. -/
def loadChipId (E : LoadEnv) (s : LoadState) : Except Ending LoadState :=
  if s.needsChipId then
    match s.readLocal 8 s.dataSize.toNat with
    | none => .error .undefined
    | some (chipId, t) =>
      let chip := E.chip (chipId.u64 0)
      if chip ≠ 0 then .ok (t.setGPUID (chip.toUInt32 * 100)) else .ok t
  else .ok s

/-- The `switch`. -/
def loadBlock (E : LoadEnv) (s : LoadState) : Except Ending LoadState :=
  match sectType s.blockType with
  | some .rdGpuaddr =>
    (loadGpuAddressAndSize s s.dataSize).map fun (gpuAddr, size, t) =>
      { t with curGpuAddr := gpuAddr, curSize := size, isNewSubmit := true }
  | some .rdCmdstreamAddr =>
    (loadCmdStreamBlockAdreno s s.dataSize s.isNewSubmit s.skipCommands).map fun t =>
      { t with isNewSubmit := false }
  | some .rdBufferContents =>
    if s.dataSize ≠ s.curSize then .error (.returns .kCorruptData s)
    else loadMemoryBlockAdreno E s s.curGpuAddr s.curSize
  | some .rdCmd => loadCmd E s
  | some .rdNone | some .rdTest | some .rdContext | some .rdCmdstream | some .rdParam
  | some .rdFlush | some .rdProgram | some .rdVertShader | some .rdFragShader =>
    .ok (s.afterRead false s.dataSize.toNat)
  | some .rdGpuId => loadGpuId s
  | some .rdChipId => loadChipId E s
  | none => .ok s

/-! ## The loop -/

namespace LoadState

/-- `Read` into `block_info`. -/
def readHeader (s : LoadState) : LoadState :=
  { s.afterRead true 8 with blockInfo := s.blockInfo.overwrite (s.read 8).items }

/-- The header is the `0xffffffff` padding of the block before it. -/
def isPadding (s : LoadState) : Bool := s.blockType = 0xffffffff && s.dataSize = 0xffffffff

end LoadState

/-- The padding loop. An iteration that goes on takes at least one byte from the file. -/
def skipPadding : ℕ → LoadState → Except Ending LoadState
  | 0, s => .error (.returns .kCorruptData s)
  | fuel + 1, s =>
    if s.isPadding then
      if (s.read 8).returned ≤ 0 then .error (.returns .kCorruptData s.readHeader)
      else skipPadding fuel s.readHeader
    else .ok s

/-- `m_memory.Finalize(true, true); return LoadResult::kSuccess;` -/
def finish (s : LoadState) : Ending :=
  match s.memory.finalize true with
  | none => .undefined
  | some memory => .returns .kSuccess { s with memory := memory }

/-- The condition of the loop and the padding loop. -/
def nextHeader (s : LoadState) : Except Ending LoadState :=
  let s := { s with reads := [] }
  if 0 < (s.read 8).returned then skipPadding (s.file.size + 1) s.readHeader
  else .error (finish s.readHeader)

/-- One iteration of the loop of `LoadAdrenoRdFile`. -/
def iteration (E : LoadEnv) (s : LoadState) : Except Ending LoadState :=
  (nextHeader s).bind (loadBlock E)

end Pm4CaptureData

end Dive
