import Dive.Memory.Manager
import Mathlib

/-!
# The blocks of a `.gfxr` file and their modifications

* `DiveBlockData`: the blocks of the original file, by offset and size, and the modifications of
  each, in an ordered map by secondary id.
* `addOriginalBlock`, `finalizeOriginalBlocksMapSizes`, `addModification`, `removeModification`,
  `clearAllModifications`: as in the source, with the returned flag.
* `BlockVisitor`, `traverseBlocks`, `writeGFXRFile`: the traversal, for any visitor, and the one
  that writes the new file (`writerBlockVisitor`).
-/

namespace Dive

def kDiveBlockBufferSize : ℕ := 4096

/-- `DiveOriginalBlock`. -/
structure DiveOriginalBlock where
  offset : UInt64 := 0
  size : UInt64 := 0
  deriving DecidableEq

/-- A `shared_ptr` to a buffer. The buffer may change after the modification was added. -/
abbrev BlobPtr : Type := ℕ

/-- `DiveModificationBlock`. -/
structure DiveModificationBlock where
  blobPtr : BlobPtr
  deriving DecidableEq

/-- `IDiveBlock`. -/
inductive IDiveBlock
  | original (block : DiveOriginalBlock)
  | modification (block : DiveModificationBlock)
  deriving DecidableEq

/-- `DiveBlockData`. A modification that is `none` is a null pointer, a deletion. -/
structure DiveBlockData where
  originalBlocksMap : List DiveOriginalBlock := []
  originalHeaderBlock : DiveOriginalBlock := {}
  originalBlocksMapLocked : Bool := false
  modificationsMap : Std.TreeMap UInt32 (Std.TreeMap Int32 (Option DiveModificationBlock)) := ∅

namespace DiveBlockData

variable (d : DiveBlockData)

/-- `AddOriginalBlock`. -/
def addOriginalBlock (index : ℕ) (offset : UInt64) : Bool × DiveBlockData :=
  if d.originalBlocksMapLocked then (false, d)
  else if index ≠ d.originalBlocksMap.length then (false, d)
  else (true, { d with originalBlocksMap := d.originalBlocksMap ++ [{ offset := offset }] })

/-- The loop over the block sizes and the size of the last block. The loop returns false at the
first block that starts after the next one. -/
def setSizes (fileSize : UInt64) : List DiveOriginalBlock → Bool × List DiveOriginalBlock
  | [] => (true, [])
  | [last] => (true, [{ last with size := fileSize - last.offset }])
  | block :: next :: blocks =>
    if next.offset < block.offset then (false, block :: next :: blocks)
    else
      let rest := setSizes fileSize (next :: blocks)
      (rest.1, { block with size := next.offset - block.offset } :: rest.2)

/-- `FinalizeOriginalBlocksMapSizes`. -/
def finalizeOriginalBlocksMapSizes (fileSize : UInt64) : Bool × DiveBlockData :=
  if d.originalBlocksMapLocked then (true, d)
  else
    match d.originalBlocksMap with
    | [] => (false, d)
    | first :: blocks =>
      let sized := setSizes fileSize (first :: blocks)
      (sized.1, { d with
        originalBlocksMap := sized.2
        originalHeaderBlock := { offset := 0, size := first.offset }
        originalBlocksMapLocked := sized.1 })

/-- The modifications of one block, empty if there is no entry. -/
def modificationsOf (primaryId : UInt32) : Std.TreeMap Int32 (Option DiveModificationBlock) :=
  d.modificationsMap.getD primaryId ∅

/-- `ModificationExists`. -/
def modificationExists (primaryId : UInt32) (secondaryId : Int32) : Bool :=
  d.modificationsMap.contains primaryId && (d.modificationsOf primaryId).contains secondaryId

/-- `modifications_map_[primary_id][secondary_id] = block`. -/
def setModification (primaryId : UInt32) (secondaryId : Int32)
    (block : Option DiveModificationBlock) : DiveBlockData :=
  { d with modificationsMap :=
      d.modificationsMap.insert primaryId ((d.modificationsOf primaryId).insert secondaryId block) }

/-- `AddModification`. -/
def addModification (primaryId : UInt32) (secondaryId : Int32) (blobPtr : Option BlobPtr) :
    Bool × DiveBlockData :=
  if !d.originalBlocksMapLocked then (false, d)
  else if d.modificationExists primaryId secondaryId then (false, d)
  else if d.originalBlocksMap.length ≤ primaryId.toNat then (false, d)
  else
    match blobPtr with
    | none =>
      if secondaryId ≠ 0 then (false, d)
      else (true, d.setModification primaryId secondaryId none)
    | some blobPtr => (true, d.setModification primaryId secondaryId (some ⟨blobPtr⟩))

/-- `RemoveModification`. The map of the block stays, even when it is empty. -/
def removeModification (primaryId : UInt32) (secondaryId : Int32) : Bool × DiveBlockData :=
  if !d.modificationExists primaryId secondaryId then (false, d)
  else (true, { d with modificationsMap :=
      d.modificationsMap.insert primaryId ((d.modificationsOf primaryId).erase secondaryId) })

/-- `ClearAllModifications`. -/
def clearAllModifications : DiveBlockData := { d with modificationsMap := ∅ }

end DiveBlockData

/-! ## The traversal -/

/-- `BlockVisitor`, with the state of the visitor. -/
structure BlockVisitor (S : Type) where
  visitOriginal : DiveOriginalBlock → S → Bool × S
  visitModification : DiveModificationBlock → S → Bool × S

variable {S : Type}

/-- `Accept`. -/
def IDiveBlock.accept (v : BlockVisitor S) : IDiveBlock → S → Bool × S
  | .original block => v.visitOriginal block
  | .modification block => v.visitModification block

/-- The loop over the blocks to write for one primary id; null pointers are passed over. -/
def acceptAll (v : BlockVisitor S) : List (Option IDiveBlock) → S → Bool × S
  | [], s => (true, s)
  | none :: blocks, s => acceptAll v blocks s
  | some block :: blocks, s =>
    let r := block.accept v s
    if r.1 then acceptAll v blocks r.2 else (false, r.2)

namespace DiveBlockData

/-- `blocks_to_write`: the modifications, with the original block if nothing stands for it. -/
def blocksToWrite (d : DiveBlockData) (primaryId : ℕ) (block : DiveOriginalBlock) :
    Std.TreeMap Int32 (Option IDiveBlock) :=
  ((d.modificationsOf (UInt32.ofNat primaryId)).map fun _ b => b.map .modification).insertIfNew 0
    (some (.original block))

/-- The loop over the blocks from `primaryId` on. -/
def traverseFrom (d : DiveBlockData) (v : BlockVisitor S) :
    ℕ → List DiveOriginalBlock → S → Bool × S
  | _, [], s => (true, s)
  | primaryId, block :: blocks, s =>
    let r := acceptAll v ((d.blocksToWrite primaryId block).toList.map Prod.snd) s
    if r.1 then traverseFrom d v (primaryId + 1) blocks r.2 else (false, r.2)

/-- `TraverseBlocks`. The ids are counted in a `uint32_t`, which never reaches `2 ^ 32`: a traversal
of as many blocks that does not fail does not return. -/
def traverseBlocks (d : DiveBlockData) (v : BlockVisitor S) (s : S) : Option (Bool × S) :=
  let r := d.traverseFrom v 0 (d.originalBlocksMap.take (2 ^ 32)) s
  if r.1 && 2 ^ 32 ≤ d.originalBlocksMap.length then none else some r

end DiveBlockData

/-! ## Writing the new file -/

/-- A file on disk. -/
structure DiskFile where
  bytes : List UInt8
  length_lt : bytes.length < 2 ^ 63

/-- `GetFileSize`. -/
def DiskFile.size (f : DiskFile) : UInt64 := UInt64.ofNat f.bytes.length

/-- `copy_buffer_`, and what was written to the new file. -/
structure WriterState where
  copyBuffer : Buffer := Buffer.zero
  newFile : List UInt8 := []

/-- `FileWrite`. -/
def WriterState.fileWrite (w : WriterState) (bytes : List UInt8) : WriterState :=
  { w with newFile := w.newFile ++ bytes }

/-- The copy loop, at `position` of the original file. An iteration copies at least one byte. -/
def copyLoop (original : List UInt8) : ℕ → ℕ → ℕ → WriterState → WriterState
  | 0, _, _, w => w
  | fuel + 1, position, bytesLeftToCopy, w =>
    if 0 < bytesLeftToCopy then
      let bytesToCopy :=
        if kDiveBlockBufferSize < bytesLeftToCopy then kDiveBlockBufferSize else bytesLeftToCopy
      let chunk := (original.drop position).take bytesToCopy
      -- a short read is not noticed: what the buffer held is written again
      let buffer := w.copyBuffer.overwrite chunk
      copyLoop original fuel (position + chunk.length) (bytesLeftToCopy - bytesToCopy)
        ({ w with copyBuffer := buffer }.fileWrite ((List.range bytesToCopy).map buffer))
    else w

/-- `WriterBlockVisitor`, for buffers that hold `blobs`. A seek fails if the offset is negative as
an `int64_t`. -/
def writerBlockVisitor (original : DiskFile) (blobs : BlobPtr → List UInt8) :
    BlockVisitor WriterState where
  visitOriginal block w :=
    if block.size = 0 then (true, w)
    else if 2 ^ 63 ≤ block.offset.toNat then (false, w)
    else (true, copyLoop original.bytes block.size.toNat block.offset.toNat block.size.toNat w)
  visitModification block w :=
    if blobs block.blobPtr = [] then (false, w)
    else (true, w.fileWrite (blobs block.blobPtr))

/-- `WriteGFXRFile`, where the files can be opened, written and closed: the returned flag and the
bytes of the new file. -/
def DiveBlockData.writeGFXRFile (d : DiveBlockData) (original : DiskFile)
    (blobs : BlobPtr → List UInt8) : Option (Bool × List UInt8) :=
  if !d.originalBlocksMapLocked then some (false, [])
  else
    let writer := writerBlockVisitor original blobs
    let header := writer.visitOriginal d.originalHeaderBlock {}
    if header.1 then
      (d.traverseBlocks writer header.2).map fun r => (r.1, r.2.newFile)
    else some (false, header.2.newFile)

end Dive
