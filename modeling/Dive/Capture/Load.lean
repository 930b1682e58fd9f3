import Dive.Lib.Machine
import Dive.Lib.Reader
import Dive.Pm4.Emulator
import Mathlib.Data.List.DropRight

/-!
# Loading a `.dive` file

* `leNat`: a little-endian field of a struct.
* `StreamReader`, `read`, `getline`: the input stream, inside one block.
* `BlockType`, `CaptureDataHeader`: as in the capture format.
* `CaptureContents`: what the handlers add to the capture; `loadMemoryAllocBlock` to
  `loadVulkanMetaDataBlock` are the handlers.
* `LoadState`, `iteration`: the loop of `LoadCapture`, as the step of a `Machine`.
* `loadCaptureFileStream`: what comes before the loop.

The build is a release one: assertions do nothing.
-/

namespace Dive.DiveCapture

/-! ## The stream -/

/-- A field of `n` bytes at an offset of a struct. -/
def leNat (struct : List UInt8) (offset n : ℕ) : ℕ :=
  ((struct.drop offset).take n).foldr (fun b v => b.toNat + 256 * v) 0

/-- Code that reads a block; it fails where a handler returns `false`. -/
abbrev StreamReader : Type → Type := Reader UInt8 Unit

def fail {α : Type} : StreamReader α := fun _ _ => .error ()

/-- `capture_file.read` of `n` bytes, where a failure makes the caller fail. -/
def read (n : ℕ) : StreamReader (List UInt8) := fun src offset =>
  if offset + n ≤ src.length then .ok ((src.drop offset).take n, offset + n) else .error ()

/-- `std::getline` up to a zero byte. Where there is none it reaches the end of the stream; the next
read of the caller fails then, of however many bytes, so this is a failure already. -/
def getline : StreamReader (List UInt8) := fun src offset =>
  let line := (src.drop offset).takeWhile (· != 0)
  if offset + line.length < src.length then .ok (line, offset + line.length + 1) else .error ()

/-! ## The format -/

/-- `DIVE_MAKE4CC`. -/
def make4cc (c₀ c₁ c₂ c₃ : Char) : ℕ :=
  c₀.toNat + 2 ^ 8 * c₁.toNat + 2 ^ 16 * c₂.toNat + 2 ^ 24 * c₃.toNat

def kDiveFileId : ℕ := make4cc 'D' 'I' 'V' 'E'
def kDiveFileVersion : ℕ := 1
def kCaptureMajorVersion : ℕ := 0
def kCaptureMinorVersion : ℕ := 4
def kCaptureRevision : ℕ := 1

/-- The block types that `LoadCapture` accepts. -/
inductive BlockType
  | kMemoryAlloc
  | kSubmit
  | kMemoryRaw
  | kPresent
  | kWaveState
  | kText
  | kRegisters
  | kVulkanMetadata
  deriving DecidableEq

/-- The block identifiers. -/
def BlockType.value : BlockType → ℕ
  | .kMemoryAlloc => make4cc 'A' 'L' 'L' 'C'
  | .kSubmit => make4cc 'S' 'U' 'B' 'M'
  | .kMemoryRaw => make4cc 'M' 'E' 'M' 'R'
  | .kPresent => make4cc 'P' 'R' 'S' 'T'
  | .kWaveState => make4cc 'W' 'A' 'V' 'E'
  | .kText => make4cc 'T' 'E' 'X' 'T'
  | .kRegisters => make4cc 'R' 'E' 'G' 'S'
  | .kVulkanMetadata => make4cc 'V' 'U' 'L' 'K'

/-- All of them. -/
def blockTypes : List BlockType :=
  [.kMemoryAlloc, .kSubmit, .kMemoryRaw, .kPresent, .kWaveState, .kText, .kRegisters,
    .kVulkanMetadata]

/-- The type with a value; `none` is the default case of the switch. -/
def blockType? (value : ℕ) : Option BlockType := blockTypes.find? (·.value == value)

/-- `BlockType::kCapture`. -/
def kCapture : ℕ := make4cc 'C' 'A' 'P' 'T'

/-- The struct sizes. -/
def sizeofFileHeader : ℕ := 8
def sizeofBlockInfo : ℕ := 16
def sizeofCaptureDataHeader : ℕ := 32
def sizeofMemoryAllocationsDataHeader : ℕ := 8
def sizeofMemoryAllocationData : ℕ := 56
def sizeofSubmitDataHeader : ℕ := 6
def sizeofIndirectBufferData : ℕ := 16
def sizeofMemoryRawDataHeader : ℕ := 16
def sizeofPresentData : ℕ := 32
def sizeofTextBlockHeader : ℕ := 24
def sizeofRegisterBlockHeader : ℕ := 16
def sizeofWaveStateBlockHeader : ℕ := 16
def sizeofWaveState : ℕ := 84

def kMaxNumMemAlloc : ℕ := 24 * 2 ^ 30 / (4 * 1024)
def kMaxMemAllocSize : ℕ := 2 ^ 30
def kMaxStrLen : ℕ := 100 * 2 ^ 20
def kMaxNumWavesPerBlock : ℕ := 2 ^ 20
def kMaxNumSGPRPerWave : ℕ := 2 ^ 20
def kMaxNumVGPRPerWave : ℕ := 2 ^ 20

/-- `CaptureDataHeader`, by its bytes. -/
abbrev CaptureDataHeader : Type := List UInt8

namespace CaptureDataHeader

variable (h : CaptureDataHeader)

def majorVersion : ℕ := leNat h 0 2
def minorVersion : ℕ := leNat h 2 2
def revision : ℕ := leNat h 4 2

/-- The header with its default member initializers. -/
def initial : CaptureDataHeader := [0, 0, 4, 0, 1, 0] ++ List.replicate 26 0

/-- `incompatible`. -/
def incompatible : Bool :=
  h.majorVersion != kCaptureMajorVersion || kCaptureMinorVersion < h.minorVersion ||
    h.majorVersion == 0 && (h.minorVersion == 1 || h.minorVersion == 2)

/-- `later_capture`. -/
def laterCapture : Bool :=
  kCaptureMajorVersion < h.majorVersion ||
    h.majorVersion == kCaptureMajorVersion && kCaptureMinorVersion < h.minorVersion ||
    h.majorVersion == kCaptureMajorVersion && h.minorVersion == kCaptureMinorVersion &&
      kCaptureRevision < h.revision

/-- The temporary registers of a wave are in the capture. -/
def hasTemps (state : List UInt8) : Bool :=
  (leNat state 16 4).testBit 6 &&
    !(h.majorVersion == 0 && h.minorVersion ≤ 3 && h.revision < 11)

end CaptureDataHeader

/-! ## What is loaded -/

/-- A text block. -/
structure TextInfo where
  name : List UInt8
  size : ℕ
  text : List UInt8
  deriving DecidableEq

/-- The state and the registers of a wave. -/
structure WaveStateInfo where
  state : List UInt8
  sgprs : List UInt8
  vgprs : List UInt8
  ttmps : List UInt8
  deriving DecidableEq

/-- A submit with its IBs. -/
structure SubmitInfo where
  engineType : ℕ
  queueType : ℕ
  engineIndex : ℕ
  isDummySubmit : Bool
  ibs : List IndirectBufferInfo
  deriving DecidableEq

/-- The allocations of a block. -/
structure MemoryAllocations where
  submitIndex : ℕ
  type : ℕ
  allocations : List UInt8
  deriving DecidableEq

/-- A block for the memory manager; its size is the number of its bytes. -/
structure RawMemory where
  submitIndex : ℕ
  vaAddr : ℕ
  data : List UInt8
  deriving DecidableEq

/-- `PresentInfo`; the data is there if it is valid. -/
structure PresentInfo where
  submitIndex : ℕ
  data : Option (List UInt8)
  deriving DecidableEq

/-- What the handlers add to. -/
structure CaptureContents where
  memoryAllocations : List MemoryAllocations := []
  submits : List SubmitInfo := []
  memoryBlocks : List RawMemory := []
  presents : List PresentInfo := []
  texts : List TextInfo := []
  waves : List WaveStateInfo := []
  registers : List (List UInt8 × ℕ) := []
  deriving DecidableEq

namespace CaptureContents

variable (c : CaptureContents)

/-- `m_submits.size() - 1`, as an `uint32_t`. -/
def lastSubmitIndex : ℕ := (c.submits.length + 2 ^ 32 - 1) % 2 ^ 32

end CaptureContents

/-! ## The handlers -/

section Handlers

variable (c : CaptureContents)

/-- `LoadMemoryAllocBlock`. -/
def loadMemoryAllocBlock : StreamReader CaptureContents := do
  let header ← read sizeofMemoryAllocationsDataHeader
  let numAllocations := leNat header 0 4
  if kMaxNumMemAlloc < numAllocations then fail
  else do
    let allocations ← read (numAllocations * sizeofMemoryAllocationData % 2 ^ 32)
    return { c with
      memoryAllocations := c.memoryAllocations ++
        [⟨c.submits.length % 2 ^ 32, leNat header 4 4, allocations⟩] }

/-- The `IndirectBufferInfo` of an `IndirectBufferData`. -/
def ibInfo (ib : List UInt8) : IndirectBufferInfo :=
  { vaAddr := UInt64.ofNat (leNat ib 0 8), sizeInDwords := UInt32.ofNat (leNat ib 8 4) }

/-- `LoadSubmitBlock`. -/
def loadSubmitBlock : StreamReader CaptureContents := do
  let header ← read sizeofSubmitDataHeader
  let ibs ← Reader.times (read sizeofIndirectBufferData) (leNat header 0 1)
  return { c with
    submits := c.submits ++
      [⟨leNat header 2 1, leNat header 3 1, leNat header 4 2 % 8, (leNat header 1 1).testBit 7,
        ibs.map ibInfo⟩] }

/-- `LoadMemoryBlock`. -/
def loadMemoryBlock : StreamReader CaptureContents := do
  let header ← read sizeofMemoryRawDataHeader
  let sizeInBytes := leNat header 8 4
  if kMaxMemAllocSize < sizeInBytes then fail
  else do
    let data ← read sizeInBytes
    return { c with
      memoryBlocks := c.memoryBlocks ++ [⟨c.lastSubmitIndex, leNat header 0 8, data⟩] }

/-- `LoadPresentBlock`. -/
def loadPresentBlock : StreamReader CaptureContents := do
  let data ← read sizeofPresentData
  return { c with
    presents := c.presents ++
      [if (leNat data 0 1).testBit 0 then ⟨c.lastSubmitIndex, some data⟩ else ⟨0, none⟩] }

/-- `LoadTextBlock`; the name ends at a zero byte. -/
def loadTextBlock : StreamReader CaptureContents := do
  let header ← read sizeofTextBlockHeader
  let nameLen := leNat header 0 4
  let sizeInBytes := leNat header 8 8
  if kMaxStrLen < nameLen ∨ kMaxMemAllocSize < sizeInBytes then fail
  else do
    let name ← getline
    let data ← read sizeInBytes
    return { c with texts := c.texts ++ [⟨name, sizeInBytes, data⟩] }

/-- An iteration of the loop of `LoadWaveStateBlock`. -/
def loadWave (dataHeader : CaptureDataHeader) : StreamReader WaveStateInfo := do
  let state ← read sizeofWaveState
  let numSgprs := leNat state 4 4
  let numVgprs := leNat state 8 4
  if kMaxNumSGPRPerWave < numSgprs ∨ kMaxNumVGPRPerWave < numVgprs then fail
  else do
    let sgprs ← read (numSgprs * 4)
    let vgprs ← read (numVgprs * 4)
    let ttmps ← read (if dataHeader.hasTemps state then 16 * 4 else 0)
    return ⟨state, sgprs, vgprs, ttmps⟩

/-- `LoadWaveStateBlock`. -/
def loadWaveStateBlock (dataHeader : CaptureDataHeader) : StreamReader CaptureContents := do
  let header ← read sizeofWaveStateBlockHeader
  let numWaves := leNat header 0 4
  if kMaxNumWavesPerBlock < numWaves then fail
  else do
    let waves ← Reader.times (loadWave dataHeader) numWaves
    return { c with waves := waves }

/-- An iteration of the loop of `LoadRegisterBlock`. -/
def loadRegister : StreamReader (List UInt8 × ℕ) := do
  let name ← getline
  let value ← read 4
  return (name, leNat value 0 4)

/-- `regs.emplace`: the first value of a name stays. -/
def emplace (regs : List (List UInt8 × ℕ)) (reg : List UInt8 × ℕ) : List (List UInt8 × ℕ) :=
  if regs.any (·.1 == reg.1) then regs else regs ++ [reg]

/-- `LoadRegisterBlock`. -/
def loadRegisterBlock : StreamReader CaptureContents := do
  let header ← read sizeofRegisterBlockHeader
  let regs ← Reader.times loadRegister (leNat header 0 4)
  return { c with registers := regs.foldl emplace [] }

/-- Nothing is read. -/
def loadVulkanMetaDataBlock : StreamReader CaptureContents := return c

/-- The cases of the switch. -/
def loadBlock (dataHeader : CaptureDataHeader) : BlockType → StreamReader CaptureContents
  | .kMemoryAlloc => loadMemoryAllocBlock c
  | .kSubmit => loadSubmitBlock c
  | .kMemoryRaw => loadMemoryBlock c
  | .kPresent => loadPresentBlock c
  | .kWaveState => loadWaveStateBlock c dataHeader
  | .kText => loadTextBlock c
  | .kRegisters => loadRegisterBlock c
  | .kVulkanMetadata => loadVulkanMetaDataBlock c

end Handlers

/-! ## The loop -/

/-- What a load returns. -/
inductive LoadResult
  | kSuccess
  | kFileIoError
  | kCorruptData
  | kVersionError
  deriving DecidableEq

/-- A capture that is being loaded: the whole stream, the header of the capture. -/
structure CaptureFile where
  bytes : List UInt8
  dataHeader : CaptureDataHeader

/-- The stream at the head of the loop, with the failure of a `seekg`, and what is loaded. -/
structure LoadState where
  offset : ℕ
  failed : Bool := false
  contents : CaptureContents := {}
  deriving DecidableEq

/-- `seekg` by an `m_data_size` from the current position. The size becomes a signed offset; a
position beyond the end is possible, one before the start is not. -/
def seekg (offset size : ℕ) (s : LoadState) : LoadState :=
  let position : ℤ := offset + (if size < 2 ^ 63 then (size : ℤ) else (size : ℤ) - 2 ^ 64)
  if 0 ≤ position then { s with offset := position.toNat }
  else { s with offset := offset, failed := true }

/-- The switch over the type of a block, with the stream behind its header. -/
def switchBlock (f : CaptureFile) (s : LoadState) (blockInfo : List UInt8) (offset : ℕ) :
    Except LoadResult LoadState :=
  match blockType? (leNat blockInfo 0 4) with
  | some type =>
    match (loadBlock s.contents f.dataHeader type).call f.bytes offset with
    | .ok (contents, offset) => .ok { s with offset := offset, contents := contents }
    | .error () => .error .kCorruptData
  | none =>
    if f.dataHeader.laterCapture then .ok (seekg offset (leNat blockInfo 8 8) s)
    else .error .kCorruptData

/-- An iteration of `LoadCapture`. It ends with the result of `LoadCaptureFileStream`: once the read
of a block header has failed, so does that of the next capture block. -/
def iteration (f : CaptureFile) (s : LoadState) : Except LoadResult LoadState :=
  if s.failed ∨ f.bytes.length < s.offset + sizeofBlockInfo then .error .kSuccess
  else
    switchBlock f s ((f.bytes.drop s.offset).take sizeofBlockInfo) (s.offset + sizeofBlockInfo)

/-- Where the capture data begin, and where the first block does. -/
def dataOffset : ℕ := sizeofFileHeader + sizeofBlockInfo

/-- Where the first block is. -/
def blocksOffset : ℕ := dataOffset + sizeofCaptureDataHeader

/-- The bytes of the `CaptureDataHeader`, as many as there are. -/
def extracted (bytes : List UInt8) : List UInt8 :=
  (bytes.drop dataOffset).take sizeofCaptureDataHeader

/-- `m_data_header` after its read, the result of which is not looked at. -/
def dataHeaderOf (bytes : List UInt8) : CaptureDataHeader :=
  extracted bytes ++ CaptureDataHeader.initial.drop (extracted bytes).length

/-- `LoadCaptureFileStream` up to the loop of `LoadCapture`. -/
def loadCaptureFileStream (bytes : List UInt8) : Except LoadResult (CaptureFile × LoadState) :=
  let fileHeader := bytes.take sizeofFileHeader
  let blockInfo := (bytes.drop sizeofFileHeader).take sizeofBlockInfo
  if bytes.length < sizeofFileHeader then .error .kFileIoError
  else if leNat fileHeader 0 4 ≠ kDiveFileId then .error .kCorruptData
  else if leNat fileHeader 4 4 ≠ kDiveFileVersion then .error .kVersionError
  else if bytes.length < dataOffset then .error .kSuccess
  else if leNat blockInfo 0 4 ≠ kCapture then .error .kCorruptData
  else if (dataHeaderOf bytes).incompatible then .error .kVersionError
  else
    .ok (⟨bytes, dataHeaderOf bytes⟩,
      { offset := dataOffset + (extracted bytes).length
        failed := (extracted bytes).length < sizeofCaptureDataHeader })

/-- The load of a stream returns a result. -/
def Returns (bytes : List UInt8) (result : LoadResult) : Prop :=
  match loadCaptureFileStream bytes with
  | .ok (f, s) => Machine.StopsWith (iteration f) s result
  | .error r => r = result

end Dive.DiveCapture
