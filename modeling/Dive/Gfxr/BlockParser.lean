import Dive.Gfxr.InputStream
import Dive.Lib.Bytes
import Dive.Pm4.Packet

/-!
# The blocks of a `.gfxr` stream

* `GfxrBlock`: a block as it stands in a file; `readBlockBuffer`: the next block of a stream.
* `ParsedBlock`, `parseBlock`: what a block says, as far as the file processor looks at it. The
  meta data, the compression and the JSON of annotations are those of a `Codecs`.
* **`readBlockBuffer_block`**, `readBlockBuffer_end`: the stream yields the blocks of its file one
  after the other, and then is at its end; `readBlockBuffer_cutSize`, `readBlockBuffer_cutBody`: a
  last block that is not complete.
-/

namespace Dive

inductive BlockIOError
  | kEndOfFile
  | kErrorNone
  | kErrorInvalidFileDescriptor
  | kErrorReadingFileHeader
  | kErrorReadingBlockHeader
  | kErrorReadingCompressedBlockHeader
  | kErrorReadingBlockData
  | kErrorReadingCompressedBlockData
  | kErrorInvalidFourCC
  | kErrorUnsupportedCompressionType
  deriving DecidableEq

/-! ## Blocks -/

/-- The bytes of a qword, little-endian. -/
def qwordBytes (v : UInt64) : List UInt8 :=
  dwordBytes v.toUInt32 ++ dwordBytes (v >>> 32).toUInt32

/-- `sizeof(format::BlockHeader)`. -/
def kBlockHeaderSize : ℕ := 12

/-- A block in a file: its type, and the bytes behind its header. The header has their number. -/
structure GfxrBlock where
  type : UInt32
  data : List UInt8
  length_lt : data.length < 2 ^ 63
  deriving DecidableEq

/-- The block as it stands in the file. -/
def GfxrBlock.bytes (b : GfxrBlock) : List UInt8 :=
  qwordBytes (UInt64.ofNat b.data.length) ++ dwordBytes b.type ++ b.data

/-- `BlockBuffer`, with the header read. -/
structure BlockBuffer where
  type : UInt32
  data : List UInt8
  deriving DecidableEq

/-- `ReadBlockBuffer`, on a machine whose sizes have 64 bits. An assertion of the source excludes
the sizes for which the total wraps. -/
def readBlockBuffer (s : FStreamFileInputStream) :
    Except BlockIOError BlockBuffer × FStreamFileInputStream :=
  let (peeked, s) := s.peekBytes 8
  if peeked.length = 0 then (.error .kEndOfFile, s)
  else if peeked.length < 8 then (.error .kErrorReadingBlockHeader, s)
  else
    let blockSize := (Buffer.zero.overwrite peeked).u64 0
    let totalBlockSize := blockSize + UInt64.ofNat kBlockHeaderSize
    let (success, span, s) := s.readBytes totalBlockSize.toNat
    if success then
      (.ok ⟨(Buffer.zero.overwrite span).u32 8, span.drop kBlockHeaderSize⟩, s)
    else (.error .kErrorReadingBlockData, s)

/-! ## Parsing -/

/-- What the parser makes of a meta data block. -/
inductive MetaDataBlock
  | dispatched (args : List UInt8)
  | executeBlocksFromFile (args : List UInt8)
  | unknown
  | invalid (error : Option BlockIOError)
  deriving DecidableEq

/-- The code that the parser relies on: the decompressor, the meta data of the decoders, and the
version in an annotation of the operations of the capture. -/
structure Codecs where
  decompress : List UInt8 → UInt64 → Option (List UInt8)
  metaData : UInt32 → List UInt8 → MetaDataBlock
  supportsFrameMarkers : List UInt8 → Bool

/-- `ParsedBlock`, with the arguments of the dispatch. -/
inductive ParsedBlock
  | functionCall (callId : UInt32) (threadId : UInt64) (data : List UInt8)
  | methodCall (callId : UInt32) (objectId threadId : UInt64) (data : List UInt8)
  | metaData (args : List UInt8)
  | executeBlocksFromFile (args : List UInt8)
  | frameEndMarker (frameNumber : UInt64)
  | stateBeginMarker (frameNumber : UInt64)
  | stateEndMarker (frameNumber : UInt64)
  | annotationArgs (type : UInt32) (label data : List UInt8)
  | unknown
  | invalid (error : Option BlockIOError)
  deriving DecidableEq

/-- `BlockBuffer::Read` of a dword, and what is left. -/
def readU32 (data : List UInt8) : Option (UInt32 × List UInt8) :=
  if data.length < 4 then none else some ((Buffer.zero.overwrite data).u32 0, data.drop 4)

/-- `BlockBuffer::Read` of a qword, and what is left. -/
def readU64 (data : List UInt8) : Option (UInt64 × List UInt8) :=
  if data.length < 8 then none else some ((Buffer.zero.overwrite data).u64 0, data.drop 8)

def kCompressedBlockTypeBit : UInt32 := 0x80000000

def isBlockCompressed (type : UInt32) : Bool := type &&& kCompressedBlockTypeBit ≠ 0

def removeCompressedBlockBit (type : UInt32) : UInt32 := type &&& ~~~kCompressedBlockTypeBit

namespace Codecs

variable (K : Codecs)

/-- `ReadParameterBuffer` with the size in the buffer, and `MakeCompressibleParsedBlock`. -/
def parameterBuffer (type : UInt32) (data : List UInt8) : Except BlockIOError (List UInt8) :=
  if isBlockCompressed type then
    match readU64 data with
    | none => .error .kErrorReadingCompressedBlockHeader
    | some (uncompressedSize, rest) =>
      -- an empty rest counts as not compressed
      if rest = [] then .ok []
      else
        match K.decompress rest uncompressedSize with
        | none => .error .kErrorReadingCompressedBlockData
        | some data => .ok data
  else .ok data

/-- The block, or why it is invalid. -/
def visitable (args : Except BlockIOError ParsedBlock) : ParsedBlock :=
  match args with
  | .ok block => block
  | .error e => .invalid (some e)

/-- `ParseFunctionCall`. -/
def parseFunctionCall (b : BlockBuffer) : ParsedBlock :=
  match (do
    let (callId, data) ← readU32 b.data
    let (threadId, data) ← readU64 data
    pure (callId, threadId, data)) with
  | none => .invalid (some .kErrorReadingBlockHeader)
  | some (callId, threadId, data) =>
    visitable ((K.parameterBuffer b.type data).map (.functionCall callId threadId))

/-- `ParseMethodCall`. -/
def parseMethodCall (b : BlockBuffer) : ParsedBlock :=
  match (do
    let (callId, data) ← readU32 b.data
    let (objectId, data) ← readU64 data
    let (threadId, data) ← readU64 data
    pure (callId, objectId, threadId, data)) with
  | none => .invalid (some .kErrorReadingBlockHeader)
  | some (callId, objectId, threadId, data) =>
    visitable ((K.parameterBuffer b.type data).map (.methodCall callId objectId threadId))

/-- `ParseMetaData`. -/
def parseMetaData (b : BlockBuffer) : ParsedBlock :=
  match K.metaData b.type b.data with
  | .dispatched args => .metaData args
  | .executeBlocksFromFile args => .executeBlocksFromFile args
  | .unknown => .unknown
  | .invalid e => .invalid e

def kBeginMarker : UInt32 := 1

def kEndMarker : UInt32 := 2

/-- The part of `ParseFrameMarker` and `ParseStateMarker` that they share. -/
def parseMarker (b : BlockBuffer) (block : UInt32 → UInt64 → ParsedBlock) : ParsedBlock :=
  match readU32 b.data with
  | none => .invalid (some .kErrorReadingBlockHeader)
  | some (markerType, data) =>
    match readU64 data with
    | none => .invalid (some .kErrorReadingBlockData)
    | some (frameNumber, _) => block markerType frameNumber

/-- `ParseFrameMarker`. -/
def parseFrameMarker (b : BlockBuffer) : ParsedBlock :=
  parseMarker b fun markerType frameNumber =>
    if markerType = kEndMarker then .frameEndMarker frameNumber else .unknown

/-- `ParseStateMarker`. -/
def parseStateMarker (b : BlockBuffer) : ParsedBlock :=
  parseMarker b fun markerType frameNumber =>
    if markerType = kBeginMarker then .stateBeginMarker frameNumber
    else if markerType = kEndMarker then .stateEndMarker frameNumber
    else .unknown

/-- `ParseAnnotation`. -/
def parseAnnotation (b : BlockBuffer) : ParsedBlock :=
  match readU32 b.data with
  | none => .invalid (some .kErrorReadingBlockHeader)
  | some (annotationType, data) =>
    match (do
      let (labelLength, data) ← readU32 data
      let (dataLength, data) ← readU64 data
      pure (labelLength, dataLength, data)) with
    | none => .invalid (some .kErrorReadingBlockHeader)
    | some (labelLength, dataLength, data) =>
      if labelLength = 0 ∧ dataLength = 0 then .invalid none
      else
        let totalLength := (labelLength.toUInt64 + dataLength).toNat
        if data.length < totalLength then .invalid (some .kErrorReadingBlockData)
        else
          .annotationArgs annotationType (data.take labelLength.toNat)
            ((data.drop labelLength.toNat).take dataLength.toNat)

/-- `ParseBlock`. -/
def parseBlock (b : BlockBuffer) : ParsedBlock :=
  match (removeCompressedBlockBit b.type).toNat with
  | 4 => K.parseFunctionCall b
  | 6 => K.parseMethodCall b
  | 3 => K.parseMetaData b
  | 1 => parseFrameMarker b
  | 2 => parseStateMarker b
  | 5 => parseAnnotation b
  | _ => .unknown

end Codecs

/-! ## Blocks in a stream -/

@[simp] theorem length_dwordBytes (w : UInt32) : (dwordBytes w).length = 4 := rfl

@[simp] theorem length_qwordBytes (v : UInt64) : (qwordBytes v).length = 8 := rfl

theorem u32_dwordBytes (pre : List UInt8) (w : UInt32) (post : List UInt8) :
    (Buffer.zero.overwrite (pre ++ dwordBytes w ++ post)).u32 pre.length = w := by
  have hbyte : ∀ i (hi : i < 4), Buffer.zero.overwrite (pre ++ dwordBytes w ++ post)
      (pre.length + i) = (dwordBytes w)[i] := by
    intro i hi
    unfold Buffer.overwrite
    rw [List.append_assoc, List.getElem?_append_right (Nat.le_add_right _ _),
      Nat.add_sub_cancel_left, List.getElem?_append_left (by simpa using hi),
      List.getElem?_eq_getElem (by simpa using hi)]
    rfl
  have h0 := hbyte 0 (by decide)
  rw [Nat.add_zero] at h0
  rw [Buffer.u32, h0, hbyte 1 (by decide), hbyte 2 (by decide), hbyte 3 (by decide)]
  exact UInt32.of_bytes w

theorem u64_qwordBytes (v : UInt64) (post : List UInt8) :
    (Buffer.zero.overwrite (qwordBytes v ++ post)).u64 0 = v := by
  have hlow := u32_dwordBytes [] v.toUInt32 (dwordBytes (v >>> 32).toUInt32 ++ post)
  have hhigh := u32_dwordBytes (dwordBytes v.toUInt32) (v >>> 32).toUInt32 post
  rw [List.nil_append, ← List.append_assoc] at hlow
  rw [length_dwordBytes] at hhigh
  have hmask : (v &&& 0xFFFFFFFF).toUInt32 = v.toUInt32 := by
    apply UInt32.toNat_inj.mp
    have hm : (0xFFFFFFFF : UInt64).toNat = 2 ^ 32 - 1 := by decide
    rw [UInt64.toNat_toUInt32, UInt64.toNat_and, hm, Nat.and_two_pow_sub_one_eq_mod,
      Nat.mod_mod, UInt64.toNat_toUInt32]
  have hv := UInt64.of_halves v
  rw [hmask] at hv
  unfold Buffer.u64 qwordBytes
  rw [show (0 : ℕ) = ([] : List UInt8).length from rfl, hlow]
  show _ ||| (Buffer.u32 _ 4).toUInt64 <<< 32 = v
  rw [hhigh, UInt64.or_comm]
  exact hv

theorem GfxrBlock.length_bytes (b : GfxrBlock) :
    b.bytes.length = kBlockHeaderSize + b.data.length := by
  simp [bytes, kBlockHeaderSize]
  omega

variable {s : FStreamFileInputStream} {c : Cursor} {b : GfxrBlock} {pre post : List UInt8}

theorem Cursor.next_append {l : List UInt8} {n : ℕ} (hn : n ≤ l.length) :
    Cursor.next ⟨pre ++ l ++ post, pre.length⟩ n = l.take n := by
  unfold Cursor.next
  dsimp only
  rw [List.append_assoc, List.drop_left, List.take_append_of_le_length hn]

/-- **The next block** is read as it stands in the file. -/
theorem readBlockBuffer_block (h : AtCursor s ⟨pre ++ b.bytes ++ post, pre.length⟩) :
    (readBlockBuffer s).1 = .ok ⟨b.type, b.data⟩ ∧
      AtCursor (readBlockBuffer s).2 ⟨pre ++ b.bytes ++ post, (pre ++ b.bytes).length⟩ := by
  have hlen := b.length_bytes
  have hlt := b.length_lt
  have hk : kBlockHeaderSize = 12 := rfl
  obtain ⟨hpeek, h₁⟩ := h.peekBytes 8
  have hsize : Cursor.next ⟨pre ++ b.bytes ++ post, pre.length⟩ (min 8 kMaxPeekBytes) =
      qwordBytes (UInt64.ofNat b.data.length) := by
    have hmin : min 8 kMaxPeekBytes = 8 := rfl
    rw [hmin, Cursor.next_append (by omega), GfxrBlock.bytes, List.append_assoc]
    exact List.take_left' rfl
  rw [hsize] at hpeek
  obtain ⟨hok, hspan, h₂⟩ := h₁.readBytes (b.data.length + kBlockHeaderSize)
  have hall : b.data.length + kBlockHeaderSize = b.bytes.length := by omega
  rw [hall, Cursor.next_append (le_refl _), List.take_length] at hok hspan h₂
  have hread : (Buffer.zero.overwrite (qwordBytes (UInt64.ofNat b.data.length))).u64 0 =
      UInt64.ofNat b.data.length := by
    have hu := u64_qwordBytes (UInt64.ofNat b.data.length) []
    rwa [List.append_nil] at hu
  have htotal : (UInt64.ofNat b.data.length + UInt64.ofNat kBlockHeaderSize).toNat =
      b.bytes.length := by
    rw [← UInt64.ofNat_add, UInt64.toNat_ofNat', Nat.mod_eq_of_lt (by omega), hall]
  unfold readBlockBuffer
  dsimp only
  rw [hpeek, length_qwordBytes, if_neg (by decide), if_neg (by decide), hread, htotal, hok, hspan]
  constructor
  · have htype := u32_dwordBytes (qwordBytes (UInt64.ofNat b.data.length)) b.type b.data
    have hdata : b.bytes.drop kBlockHeaderSize = b.data := by
      rw [GfxrBlock.bytes]
      exact List.drop_left' rfl
    rw [length_qwordBytes] at htype
    simp only [hdata, decide_true, if_true]
    rw [GfxrBlock.bytes, htype]
  · simp only [decide_true, if_true]
    rw [List.length_append]
    exact h₂

/-- **At the end of the file** there is no block, and the stream knows it. -/
theorem readBlockBuffer_end (h : AtCursor s ⟨pre, pre.length⟩) :
    (readBlockBuffer s).1 = .error .kEndOfFile ∧ (readBlockBuffer s).2.isEof = true ∧
      AtCursor (readBlockBuffer s).2 ⟨pre, pre.length⟩ := by
  obtain ⟨hpeek, h₁⟩ := h.peekBytes 8
  have hnil : Cursor.next ⟨pre, pre.length⟩ (min 8 kMaxPeekBytes) = [] := by
    unfold Cursor.next
    dsimp only
    rw [List.drop_length, List.take_nil]
  rw [hnil] at hpeek
  have heof := h.isEof_peekBytes (le_refl _) (show 0 < 8 by decide)
  unfold readBlockBuffer
  dsimp only
  rw [hpeek, List.length_nil, if_pos rfl]
  exact ⟨rfl, heof, h₁⟩

/-- The size in front of a block that is not complete. -/
def claimedSize (tail : List UInt8) : ℕ :=
  ((Buffer.zero.overwrite (tail.take 8)).u64 0).toNat + kBlockHeaderSize

/-- **A block cut off within its size** is an error, since the stream still holds its bytes. -/
theorem readBlockBuffer_cutSize {tail : List UInt8} (h : AtCursor s ⟨pre ++ tail, pre.length⟩)
    (hne : tail ≠ []) (hlt : tail.length < 8) :
    (readBlockBuffer s).1 = .error .kErrorReadingBlockHeader ∧
      (readBlockBuffer s).2.isEof = false := by
  have hpos := List.length_pos_of_ne_nil hne
  obtain ⟨hpeek, -⟩ := h.peekBytes 8
  have hnext : Cursor.next ⟨pre ++ tail, pre.length⟩ (min 8 kMaxPeekBytes) = tail := by
    unfold Cursor.next
    dsimp only
    rw [List.drop_left, List.take_of_length_le]
    exact hlt.le
  rw [hnext] at hpeek
  have heof := AtCursor.not_isEof_peekBytes (s := s) (n := 8) (hpeek ▸ hne)
  unfold readBlockBuffer
  dsimp only
  rw [hpeek, if_neg (by omega), if_pos hlt]
  exact ⟨rfl, heof⟩

/-- **A block cut off behind its size** is noticed at the end of the file. -/
theorem readBlockBuffer_cutBody {tail : List UInt8} (h : AtCursor s ⟨pre ++ tail, pre.length⟩)
    (hle : 8 ≤ tail.length) (hlt : tail.length < claimedSize tail)
    (hfits : claimedSize tail < 2 ^ 64) :
    (readBlockBuffer s).1 = .error .kErrorReadingBlockData ∧
      (readBlockBuffer s).2.isEof = true := by
  obtain ⟨hpeek, h₁⟩ := h.peekBytes 8
  have hnext : Cursor.next ⟨pre ++ tail, pre.length⟩ (min 8 kMaxPeekBytes) = tail.take 8 := by
    unfold Cursor.next
    dsimp only
    rw [List.drop_left]
    rfl
  rw [hnext] at hpeek
  have hlen : (tail.take 8).length = 8 := by
    rw [List.length_take]
    omega
  have hshort : (Cursor.next ⟨pre ++ tail, pre.length⟩ (claimedSize tail)).length <
      claimedSize tail := by
    rw [Cursor.length_next]
    dsimp only
    rw [List.length_append]
    omega
  obtain ⟨hok, -⟩ := h₁.readBytes (claimedSize tail)
  have heof := h₁.isEof_readBytes hshort
  have htotal : ((Buffer.zero.overwrite (tail.take 8)).u64 0 +
      UInt64.ofNat kBlockHeaderSize).toNat = claimedSize tail := by
    rw [UInt64.toNat_add, claimedSize]
    exact Nat.mod_eq_of_lt hfits
  unfold readBlockBuffer
  dsimp only
  rw [hpeek, hlen, if_neg (by decide), if_neg (by decide), htotal, hok,
    decide_eq_false (ne_of_lt hshort), if_neg Bool.false_ne_true]
  exact ⟨rfl, heof⟩

end Dive
