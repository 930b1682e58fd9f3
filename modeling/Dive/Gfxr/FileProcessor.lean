import Dive.Gfxr.BlockData
import Dive.Gfxr.BlockParser
import Dive.Lib.Machine

/-!
# Processing a `.gfxr` file

* `DiveFileProcessor`: the state of a file processor, with what it dispatched to the decoders.
* `processFrameEndMarker`, `processStateEndMarker`, `storeBlockInfo`: where Dive loops a frame and
  records the blocks.
* `step`: one iteration of the loops of `ProcessAllFrames` and `ProcessBlocks`.
* **`step_block`**, **`step_end`**: what an iteration does with the next block, and at the end.
-/

namespace Dive

/-- What others see of the processing. -/
inductive ReplayEvent
  | dispatch (blockIndex : UInt64) (block : ParsedBlock)
  | startCapture
  | stopCapture
  deriving DecidableEq

/-- `DivePM4Capture`. -/
structure DivePM4Capture where
  isInitialized : Bool := false
  isCapturing : Bool := false
  deriving DecidableEq

/-- Which loop goes on: that over the frames, or that over the blocks of a frame. -/
inductive ProcessingPhase
  | frames
  | blocks
  deriving DecidableEq

/-- `DiveFileProcessor`, with one file active. -/
structure DiveFileProcessor where
  activeFile : FStreamFileInputStream
  phase : ProcessingPhase := .frames
  currentFrameNumber : UInt64 := 0
  firstFrame : UInt64 := 1
  blockIndex : UInt64 := 0
  errorState : BlockIOError := .kErrorNone
  captureUsesFrameMarkers : Bool := false
  pendingCaptureUsesFrameMarkers : Bool := false
  stateEndMarkerBlockIndex : UInt64 := 0
  stateEndMarkerFileOffset : ℤ := 0
  loopSingleFrameCount : UInt64 := 1
  diveBlockData : Option DiveBlockData := none
  runWithoutDecoders : Bool := false
  pm4Capture : DivePM4Capture := {}
  events : List ReplayEvent := []

/-- What the processing relies on: the codecs, the compression types that are built in, and whether
all decoders are done at a block. -/
structure Replay where
  codecs : Codecs
  hasCompressor : UInt32 → Bool
  decodersComplete : UInt64 → Bool

namespace DiveFileProcessor

/-! ## The header of the file -/

/-- `GFXRECON_FOURCC`. -/
def kFourCC : UInt32 := 0x52584647

def kCompressionType : UInt32 := 1

/-- The options, each a key and a value. -/
def readOptions (bytes : List UInt8) (numOptions : ℕ) : List (UInt32 × UInt32) :=
  (List.range numOptions).map fun i =>
    ((Buffer.zero.overwrite bytes).u32 (8 * i), (Buffer.zero.overwrite bytes).u32 (8 * i + 4))

/-- The value of the last option for the compression, `kNone` if there is none. -/
def compressionType (options : List (UInt32 × UInt32)) : UInt32 :=
  options.foldl (fun type option => if option.1 = kCompressionType then option.2 else type) 0

/-- `Initialize`, with `ProcessFileHeader`. -/
def initialized (R : Replay) (bytes : List UInt8) : Except BlockIOError DiveFileProcessor :=
  let (success, header, s) := (FStreamFileInputStream.opened bytes).readBytes 16
  if !success then .error .kErrorReadingFileHeader
  else
    let header := Buffer.zero.overwrite header
    let version := (header.u32 4).toUInt64 <<< 32 ||| (header.u32 8).toUInt64
    if header.u32 0 ≠ kFourCC ∨ 1 < version then .error .kErrorInvalidFourCC
    else
      let numOptions := (header.u32 12).toNat
      let (success, options, s) := s.readBytes (numOptions * 8)
      -- the error state is left alone
      if !success then .error .kErrorNone
      else
        let type := compressionType (readOptions options numOptions)
        if type ≠ 0 ∧ !R.hasCompressor type then .error .kErrorUnsupportedCompressionType
        else .ok { activeFile := s, captureUsesFrameMarkers := 1 ≤ version }

variable (p : DiveFileProcessor)

/-! ## Blocks -/

/-- `SetDiveBlockData`. -/
def setDiveBlockData (d : DiveBlockData) : DiveFileProcessor :=
  { p with diveBlockData := some d, runWithoutDecoders := true }

/-- `StoreBlockInfo`. -/
def storeBlockInfo : DiveFileProcessor :=
  match p.diveBlockData with
  | none => p
  | some d => { p with
      diveBlockData := some
        (d.addOriginalBlock p.blockIndex.toNat (UInt64.ofInt p.activeFile.fileTell)).2 }

/-- `ContinueDecoding`, without a block limit. -/
def continueDecoding (R : Replay) : Bool :=
  p.runWithoutDecoders || !R.decodersComplete p.blockIndex

/-- `HandleBlockReadError`: an incomplete block at the end of the file is no error. -/
def handleBlockReadError (e : BlockIOError) : DiveFileProcessor :=
  if p.activeFile.isEof then p else { p with errorState := e }

/-- `HandleBlockEof`, with one file active: the processing ends. -/
def handleBlockEof : DiveFileProcessor :=
  if p.activeFile.isEof then p else { p with errorState := .kErrorReadingBlockHeader }

def tryStartCapture : DiveFileProcessor :=
  if !p.pm4Capture.isInitialized then p
  else if p.pm4Capture.isCapturing then p
  else { p with
    events := p.events ++ [.startCapture]
    pm4Capture := { p.pm4Capture with isCapturing := true } }

def tryStopCapture : DiveFileProcessor :=
  if !p.pm4Capture.isInitialized then p
  else if !p.pm4Capture.isCapturing then p
  else { p with
    events := p.events ++ [.stopCapture]
    pm4Capture := { p.pm4Capture with isCapturing := false } }

/-- The API calls that end a frame in files without frame markers. -/
def frameDelimiterCalls : List UInt32 := [0x110ae, 0x112dc, 0x21021, 0x2104e, 0x71023]

/-- `IsFrameDelimiter` of an API call. -/
def isFrameDelimiter (callId : UInt32) : Bool :=
  !p.captureUsesFrameMarkers && callId ∈ frameDelimiterCalls

/-- `ProcessStateEndMarker`. -/
def processStateEndMarker (frameNumber : UInt64) : DiveFileProcessor :=
  { p with
    firstFrame := frameNumber
    stateEndMarkerFileOffset := p.activeFile.fileTell
    stateEndMarkerBlockIndex := p.blockIndex }.tryStartCapture

/-- `ProcessFrameDelimiter` of a frame end marker. -/
def processFrameEndMarker : DiveFileProcessor :=
  let p := { p with
    pendingCaptureUsesFrameMarkers :=
      p.pendingCaptureUsesFrameMarkers || !p.captureUsesFrameMarkers }
  let p := p.tryStopCapture
  let loopsDone := p.currentFrameNumber + 1
  if 0 < p.loopSingleFrameCount ∧ p.loopSingleFrameCount ≤ loopsDone then p
  else { p with
    blockIndex := p.stateEndMarkerBlockIndex
    activeFile := (p.activeFile.fileSeek p.stateEndMarkerFileOffset .fileSeekSet).2 }

def kJson : UInt32 := 2

/-- `kAnnotationLabelOperation`. -/
def kAnnotationLabelOperation : List UInt8 :=
  "operation".toList.map fun c => UInt8.ofNat c.toNat

/-- `ProcessAnnotation`. -/
def processAnnotation (R : Replay) (type : UInt32) (label data : List UInt8) :
    DiveFileProcessor :=
  if type = kJson ∧ label = kAnnotationLabelOperation ∧ R.codecs.supportsFrameMarkers data then
    { p with captureUsesFrameMarkers := true }
  else p

/-- `UpdateEndFrameState`. -/
def updateEndFrameState : DiveFileProcessor :=
  let p := if p.pendingCaptureUsesFrameMarkers then { p with
      captureUsesFrameMarkers := true
      pendingCaptureUsesFrameMarkers := false
      currentFrameNumber := 0 }
    else p
  { p with
    currentFrameNumber := p.currentFrameNumber + 1
    blockIndex := p.blockIndex + 1 }

/-- The process visitor: the state after it, and whether the block ends a frame; `none` for a block
that goes on in another file. -/
def visit (R : Replay) : ParsedBlock → Option (DiveFileProcessor × Bool)
  | .functionCall callId _ _ => some (p, p.isFrameDelimiter callId)
  | .methodCall callId _ _ _ => some (p, p.isFrameDelimiter callId)
  | .frameEndMarker _ => some (p.processFrameEndMarker, true)
  | .stateEndMarker frameNumber => some (p.processStateEndMarker frameNumber, false)
  | .annotationArgs type label data => some ( processAnnotation p R type label data, false)
  | .stateBeginMarker _ | .metaData _ => some (p, false)
  | .executeBlocksFromFile _ | .unknown | .invalid _ => none

/-- The dispatch visitor: the decoders are given the index that the block was parsed with. -/
def dispatch (blockIndex : UInt64) (block : ParsedBlock) : DiveFileProcessor :=
  { p with events := p.events ++ [.dispatch blockIndex block] }

/-- The part of an iteration behind the read of a block; `none` if it goes on in another file. -/
def processBlock (R : Replay) (block : ParsedBlock) : Option DiveFileProcessor :=
  match block with
  | .unknown => some { p with blockIndex := p.blockIndex + 1 }
  | .invalid e =>
    let p := e.elim p p.handleBlockReadError
    some { p with blockIndex := p.blockIndex + 1 }
  | block =>
    (p.visit R block).map fun (q, delimits) =>
      let q := q.dispatch p.blockIndex block
      if delimits then { q.updateEndFrameState with phase := .frames }
      else { q with blockIndex := q.blockIndex + 1 }

/-! ## The loops -/

/-- One iteration, and at the end of `ProcessAllFrames` the state it leaves; `none` if the
processing goes on in another file. -/
def step (R : Replay) (p : DiveFileProcessor) :
    Except (Option DiveFileProcessor) DiveFileProcessor :=
  match p.phase with
  | .frames =>
    -- `IsReady`, else the state of the file, which is no error
    if p.activeFile.isEof then .error (some { p with errorState := .kErrorNone })
    else .ok { p with phase := .blocks }
  | .blocks =>
    if p.continueDecoding R then
      let p := p.storeBlockInfo
      match readBlockBuffer p.activeFile with
      | (.ok b, s) =>
        match { p with activeFile := s }.processBlock R (R.codecs.parseBlock b) with
        | none => .error none
        | some p => .ok p
      | (.error e, s) =>
        let p := { p with activeFile := s }
        let p := if e = .kEndOfFile then p else p.handleBlockReadError e
        let p := p.handleBlockEof
        .error (some { p with blockIndex := p.blockIndex + 1 })
    else .error (some { p with blockIndex := p.blockIndex + 1 })

/-! ## One iteration -/

variable {p : DiveFileProcessor} {R : Replay} {b : GfxrBlock} {pre post : List UInt8}

@[simp] theorem storeBlockInfo_activeFile : p.storeBlockInfo.activeFile = p.activeFile := by
  unfold storeBlockInfo
  cases p.diveBlockData <;> rfl

/-- The block as the parser sees it. -/
def parsed (R : Replay) (b : GfxrBlock) : ParsedBlock := R.codecs.parseBlock ⟨b.type, b.data⟩

/-- **The next block** is recorded, read and processed. -/
theorem step_block (hp : p.phase = .blocks) (hc : p.continueDecoding R = true)
    (h : AtCursor p.activeFile ⟨pre ++ b.bytes ++ post, pre.length⟩) :
    ∃ s, AtCursor s ⟨pre ++ b.bytes ++ post, (pre ++ b.bytes).length⟩ ∧
      step R p = match { p.storeBlockInfo with activeFile := s }.processBlock R (parsed R b) with
        | none => .error none
        | some p => .ok p := by
  obtain ⟨hread, htracks⟩ := readBlockBuffer_block h
  refine ⟨(readBlockBuffer p.activeFile).2, htracks, ?_⟩
  have hbuffer : readBlockBuffer p.storeBlockInfo.activeFile =
      (.ok ⟨b.type, b.data⟩, (readBlockBuffer p.activeFile).2) := by
    rw [storeBlockInfo_activeFile, ← hread]
  unfold step
  rw [hp]
  dsimp only
  rw [if_pos hc, hbuffer]
  rfl

/-- **At the end of the file** the processing stops, without an error of its own. -/
theorem step_end (hp : p.phase = .blocks) (hc : p.continueDecoding R = true)
    (h : AtCursor p.activeFile ⟨pre, pre.length⟩) :
    ∃ s, step R p = .error (some
      { p.storeBlockInfo with activeFile := s, blockIndex := p.blockIndex + 1 }) := by
  obtain ⟨hread, heof, -⟩ := readBlockBuffer_end h
  refine ⟨(readBlockBuffer p.activeFile).2, ?_⟩
  have hbuffer : readBlockBuffer p.storeBlockInfo.activeFile =
      (.error .kEndOfFile, (readBlockBuffer p.activeFile).2) := by
    rw [storeBlockInfo_activeFile, ← hread]
  have hindex : p.storeBlockInfo.blockIndex = p.blockIndex := by
    unfold storeBlockInfo
    cases p.diveBlockData <;> rfl
  unfold step
  rw [hp]
  dsimp only
  rw [if_pos hc, hbuffer]
  simp only [if_true, handleBlockEof, heof, hindex]

theorem step_frames (hp : p.phase = .frames) :
    step R p = if p.activeFile.isEof then .error (some { p with errorState := .kErrorNone })
      else .ok { p with phase := .blocks } := by
  unfold step
  rw [hp]

end DiveFileProcessor

/-! ## Files -/

/-- The header of a file. -/
structure GfxrHeader where
  majorVersion : UInt32
  minorVersion : UInt32
  options : List (UInt32 × UInt32)
  length_lt : options.length < 2 ^ 32

namespace GfxrHeader

variable (h : GfxrHeader)

/-- `GFXRECON_MAKE_FILE_VERSION`. -/
def version : UInt64 := h.majorVersion.toUInt64 <<< 32 ||| h.minorVersion.toUInt64

/-- The header as it stands in the file. -/
def bytes : List UInt8 :=
  dwordBytes DiveFileProcessor.kFourCC ++ dwordBytes h.majorVersion ++
    dwordBytes h.minorVersion ++ dwordBytes (UInt32.ofNat h.options.length) ++
    h.options.flatMap fun option => dwordBytes option.1 ++ dwordBytes option.2

/-- The file can be processed: its version is known, and its compression is built in. -/
def Supported (R : Replay) : Prop :=
  h.version ≤ 1 ∧ (DiveFileProcessor.compressionType h.options = 0 ∨
    R.hasCompressor (DiveFileProcessor.compressionType h.options) = true)

/-- The part of the header in front of the options. -/
def fixedBytes : List UInt8 :=
  dwordBytes DiveFileProcessor.kFourCC ++ dwordBytes h.majorVersion ++
    dwordBytes h.minorVersion ++ dwordBytes (UInt32.ofNat h.options.length)

/-- The options as they stand in the file. -/
def optionBytes (options : List (UInt32 × UInt32)) : List UInt8 :=
  options.flatMap fun option => dwordBytes option.1 ++ dwordBytes option.2

theorem bytes_eq : h.bytes = h.fixedBytes ++ optionBytes h.options := rfl

theorem length_fixedBytes : h.fixedBytes.length = 16 := rfl

theorem length_optionBytes (options : List (UInt32 × UInt32)) :
    (optionBytes options).length = options.length * 8 := by
  induction options with
  | nil => rfl
  | cons option options ih =>
    rw [optionBytes, List.flatMap_cons, List.length_append, List.length_cons, ← optionBytes, ih,
      List.length_append, length_dwordBytes, length_dwordBytes]
    omega

theorem readOptions_optionBytes (options : List (UInt32 × UInt32)) :
    DiveFileProcessor.readOptions (optionBytes options) options.length = options := by
  apply List.ext_getElem
  · simp [DiveFileProcessor.readOptions]
  intro i hi hl
  have hsplit : options = options.take i ++ options[i] :: options.drop (i + 1) := by
    rw [List.cons_getElem_drop_succ, List.take_append_drop]
  have hlen : (optionBytes (options.take i)).length = 8 * i := by
    rw [length_optionBytes, List.length_take]
    omega
  have hbytes : optionBytes options = optionBytes (options.take i) ++ dwordBytes options[i].1 ++
      dwordBytes options[i].2 ++ optionBytes (options.drop (i + 1)) := by
    conv_lhs => rw [hsplit]
    unfold optionBytes
    rw [List.flatMap_append, List.flatMap_cons]
    simp only [List.append_assoc]
  have hkey := u32_dwordBytes (optionBytes (options.take i)) options[i].1
    (dwordBytes options[i].2 ++ optionBytes (options.drop (i + 1)))
  have hvalue := u32_dwordBytes (optionBytes (options.take i) ++ dwordBytes options[i].1)
    options[i].2 (optionBytes (options.drop (i + 1)))
  rw [← List.append_assoc, ← hbytes, hlen] at hkey
  rw [← hbytes, List.length_append, hlen, length_dwordBytes] at hvalue
  have hget : (DiveFileProcessor.readOptions (optionBytes options) options.length)[i] =
      ((Buffer.zero.overwrite (optionBytes options)).u32 (8 * i),
        (Buffer.zero.overwrite (optionBytes options)).u32 (8 * i + 4)) := by
    simp [DiveFileProcessor.readOptions]
  rw [hget, hkey, hvalue]

theorem u32_fixedBytes :
    (Buffer.zero.overwrite h.fixedBytes).u32 0 = DiveFileProcessor.kFourCC ∧
    (Buffer.zero.overwrite h.fixedBytes).u32 4 = h.majorVersion ∧
    (Buffer.zero.overwrite h.fixedBytes).u32 8 = h.minorVersion ∧
    (Buffer.zero.overwrite h.fixedBytes).u32 12 = UInt32.ofNat h.options.length := by
  have h0 := u32_dwordBytes [] DiveFileProcessor.kFourCC (dwordBytes h.majorVersion ++
    dwordBytes h.minorVersion ++ dwordBytes (UInt32.ofNat h.options.length))
  have h4 := u32_dwordBytes (dwordBytes DiveFileProcessor.kFourCC) h.majorVersion
    (dwordBytes h.minorVersion ++ dwordBytes (UInt32.ofNat h.options.length))
  have h8 := u32_dwordBytes (dwordBytes DiveFileProcessor.kFourCC ++ dwordBytes h.majorVersion)
    h.minorVersion (dwordBytes (UInt32.ofNat h.options.length))
  have h12 := u32_dwordBytes (dwordBytes DiveFileProcessor.kFourCC ++
    dwordBytes h.majorVersion ++ dwordBytes h.minorVersion) (UInt32.ofNat h.options.length) []
  simp only [List.nil_append, List.append_nil, ← List.append_assoc] at h0 h4 h8 h12
  exact ⟨h0, h4, h8, h12⟩

/-- **A supported file** is opened, and stands behind its header. -/
theorem initialized_bytes {R : Replay} (hs : h.Supported R) (rest : List UInt8) :
    ∃ s, DiveFileProcessor.initialized R (h.bytes ++ rest) =
        .ok { activeFile := s, captureUsesFrameMarkers := 1 ≤ h.version } ∧
      AtCursor s ⟨h.bytes ++ rest, h.bytes.length⟩ := by
  have hbytes : h.bytes ++ rest = h.fixedBytes ++ optionBytes h.options ++ rest := rfl
  obtain ⟨hok, hread, h₁⟩ := (atCursor_opened (h.bytes ++ rest)).readBytes 16
  have hfixed : Cursor.next ⟨h.bytes ++ rest, 0⟩ 16 = h.fixedBytes := by
    have := @Cursor.next_append [] (optionBytes h.options ++ rest) h.fixedBytes 16
      h.length_fixedBytes.ge
    rw [List.nil_append, ← List.append_assoc, ← hbytes] at this
    rw [← List.length_nil (α := UInt8), this, ← h.length_fixedBytes, List.take_length]
  rw [hfixed, h.length_fixedBytes] at hok h₁
  rw [hfixed] at hread
  obtain ⟨hok', hread', h₂⟩ := h₁.readBytes (h.options.length * 8)
  have hlen := length_optionBytes h.options
  have hoptions : Cursor.next (Cursor.skip ⟨h.bytes ++ rest, 0⟩ 16) (h.options.length * 8) =
      optionBytes h.options := by
    have := @Cursor.next_append h.fixedBytes rest (optionBytes h.options) (h.options.length * 8)
      hlen.ge
    rw [← hbytes, h.length_fixedBytes, ← hlen, List.take_length, hlen] at this
    exact this
  rw [hoptions, hlen] at hok' h₂
  rw [hoptions] at hread'
  obtain ⟨hcc, hmajor, hminor, hcount⟩ := h.u32_fixedBytes
  have hnum : (UInt32.ofNat h.options.length).toNat = h.options.length := by
    rw [UInt32.toNat_ofNat', Nat.mod_eq_of_lt h.length_lt]
  have hvalid : ¬ (DiveFileProcessor.kFourCC ≠ DiveFileProcessor.kFourCC ∨
      (1 : UInt64) < h.majorVersion.toUInt64 <<< 32 ||| h.minorVersion.toUInt64) := by
    rw [not_or, not_not, UInt64.not_lt]
    exact ⟨rfl, hs.1⟩
  have hcompressor : ¬ (DiveFileProcessor.compressionType h.options ≠ 0 ∧
      (!R.hasCompressor (DiveFileProcessor.compressionType h.options)) = true) := by
    rintro ⟨hne, hno⟩
    rcases hs.2 with h0 | hyes
    · exact hne h0
    · rw [hyes] at hno
      cases hno
  refine ⟨(((FStreamFileInputStream.opened (h.bytes ++ rest)).readBytes 16).2.2.readBytes
    (h.options.length * 8)).2.2, ?_, ?_⟩
  · unfold DiveFileProcessor.initialized
    dsimp only
    rw [hok.trans (decide_eq_true rfl), hread, Bool.not_true, if_neg Bool.false_ne_true, hcc,
      hmajor, hminor, hcount, hnum]
    rw [if_neg hvalid, hok'.trans (decide_eq_true rfl), hread', Bool.not_true,
      if_neg Bool.false_ne_true, readOptions_optionBytes, if_neg hcompressor, version]
  · have hall : h.bytes.length = 16 + h.options.length * 8 := by
      rw [bytes_eq, List.length_append, hlen, length_fixedBytes]
    rw [hall]
    exact h₂

end GfxrHeader

end Dive
