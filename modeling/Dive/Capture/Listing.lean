import Dive.Capture.Load

/-!
# Listing the blocks of a `.dive` file

* `Stream`: a file stream, with its failure; `tellg` and `seekg` in stream offsets.
* `printBlock`, `printBlocks`, `printCaptureFileBlocks`: the listing, with `fuel` for the blocks
  that are open or follow; an `Entry` is what is printed of a block.
* `PrintsTo`, `BlockPrintsTo`: the listing of some blocks, or of one, returns.
* `BlockPrintsTo.ends`, `BlockPrintsTo.next`: **one turn of the loop**.
* `exists_blockPrintsTo`, `BlockPrintsTo.of_capture`: the kinds of blocks.
-/

namespace Dive.DiveCapture.Listing

/-! ## The stream -/

/-- A position in the file, and whether reading has failed. -/
structure Stream where
  offset : ℕ
  failed : Bool := false
  deriving DecidableEq

/-- An `uint64_t` as an offset of a stream. -/
def streamoff (size : ℕ) : ℤ := if size < 2 ^ 63 then size else (size : ℤ) - 2 ^ 64

namespace Stream

variable (bytes : List UInt8) (s : Stream)

/-- `read` of `n` bytes. -/
def read (n : ℕ) : List UInt8 × Stream :=
  if !s.failed && s.offset + n ≤ bytes.length then
    ((bytes.drop s.offset).take n, { s with offset := s.offset + n })
  else ([], { s with failed := true })

/-- `std::getline` up to a zero byte, or to the end if there is a byte left. -/
def getline : Stream :=
  let line := (bytes.drop s.offset).takeWhile (· != 0)
  if !s.failed && s.offset < bytes.length then
    { s with offset := min bytes.length (s.offset + line.length + 1) }
  else { s with failed := true }

/-- `tellg`. -/
def tellg : ℤ := if s.failed then -1 else s.offset

/-- A failed stream stays where it is, a seek before the start fails. -/
def seekg (position : ℤ) : Stream :=
  if s.failed then s
  else if 0 ≤ position then { s with offset := position.toNat }
  else { s with failed := true }

/-- `seekg` from the current position. -/
def seekCur (off : ℤ) : Stream := s.seekg (s.offset + off)

end Stream

/-! ## The listing -/

/-- What is printed of a block: how deep it is, its type, where its data begin and their size. -/
structure Entry where
  depth : ℕ
  type : ℕ
  offset : ℤ
  size : ℕ
  deriving DecidableEq

/-- What a function returns, the stream, and what has been printed. -/
abbrev Printed : Type := LoadResult × Stream × List Entry

section Blocks

variable (bytes : List UInt8)

/-- `PrintBlock`; the blocks of a capture are listed by `print`. -/
def printBlock (print : ℕ → ℤ → Stream → List Entry → Option Printed) (depth : ℕ)
    (blockInfo : List UInt8) (s : Stream) (out : List Entry) : Option Printed :=
  let type := leNat blockInfo 0 4
  let size := leNat blockInfo 8 8
  let blockOffset := s.tellg
  let out := out ++ [⟨depth, type, blockOffset, size⟩]
  if type = kCapture then
    print (depth + 1) (blockOffset + streamoff size) (s.read bytes sizeofCaptureDataHeader).2 out
  else if type = BlockType.kMemoryRaw.value then
    let s := (s.read bytes sizeofMemoryRawDataHeader).2
    some (if s.failed then .kFileIoError else .kSuccess, s, out)
  else if type = BlockType.kText.value then
    let s := (s.read bytes sizeofTextBlockHeader).2
    if s.failed then some (.kFileIoError, s, out)
    else
      let s := s.getline bytes
      some (if s.failed then .kFileIoError else .kSuccess, s, out)
  else some (.kSuccess, s, out)

/-- `PrintBlocks`. -/
def printBlocks : ℕ → ℕ → ℤ → Stream → List Entry → Option Printed
  | 0, _, _, _, _ => none
  | fuel + 1, depth, endPos, s, out =>
    let blockInfo := (s.read bytes sizeofBlockInfo).1
    let s := (s.read bytes sizeofBlockInfo).2
    let off := streamoff (leNat blockInfo 8 8)
    if s.failed then some (.kSuccess, s, out)
    else
      match printBlock bytes (printBlocks fuel) depth blockInfo s out with
      | none => none
      | some (res, s', out) =>
        let t := (s'.seekg s.tellg).seekCur off
        if res ≠ .kSuccess then some (res, s', out)
        else if t.tellg ≠ s.tellg + off then some (.kCorruptData, t, out)
        else if endPos ≠ 0 ∧ endPos ≤ t.tellg then
          some (if endPos < t.tellg then .kCorruptData else .kSuccess, t, out)
        else printBlocks fuel depth endPos t out

/-- `PrintCaptureFileBlocks`: the result, and what is printed before that. -/
def printCaptureFileBlocks (fuel : ℕ) : Option (LoadResult × List Entry) :=
  let fileHeader := bytes.take sizeofFileHeader
  if bytes.length < sizeofFileHeader then some (.kFileIoError, [])
  else if leNat fileHeader 0 4 ≠ kDiveFileId then some (.kCorruptData, [])
  else if leNat fileHeader 4 4 ≠ kDiveFileVersion then some (.kVersionError, [])
  else (printBlocks bytes fuel 0 0 ⟨sizeofFileHeader, false⟩ []).map fun p => (p.1, p.2.2)

/-- The listing returns, however much fuel there is beyond some. -/
def Lists (r : LoadResult) (out : List Entry) : Prop :=
  ∃ fuel, ∀ more, printCaptureFileBlocks bytes (fuel + more) = some (r, out)

/-- The listing of the blocks at a position returns. -/
def PrintsTo (depth : ℕ) (endPos : ℤ) (s : Stream) (out : List Entry) (p : Printed) : Prop :=
  ∃ fuel, ∀ more, printBlocks bytes (fuel + more) depth endPos s out = some p

end Blocks

/-! ## One turn -/

section Turn

variable {bytes info : List UInt8} {depth o size : ℕ} {endPos : ℤ} {out : List Entry} {p : Printed}

theorem streamoff_of_lt (h : size < 2 ^ 63) : streamoff size = size := if_pos h

theorem read_of_le {n : ℕ} (h : o + n ≤ bytes.length) :
    (⟨o, false⟩ : Stream).read bytes n = ((bytes.drop o).take n, ⟨o + n, false⟩) := by
  rw [Stream.read, if_pos]
  simpa using h

theorem read_failed {s : Stream} {n : ℕ} (h : s.failed = true ∨ bytes.length < s.offset + n) :
    (s.read bytes n).2.failed = true := by
  rw [Stream.read, if_neg]
  rcases h with h | h
  · simp [h]
  · simp [h]

theorem PrintsTo.of_short {s : Stream}
    (h : s.failed = true ∨ bytes.length < s.offset + sizeofBlockInfo) :
    ∃ s', s'.failed = true ∧ PrintsTo bytes depth endPos s out (.kSuccess, s', out) := by
  refine ⟨_, read_failed h, 1, fun more => ?_⟩
  rw [Nat.add_comm, printBlocks]
  simp only [read_failed h, if_true]

/-- A block header that is in the file. -/
structure HeaderAt (bytes : List UInt8) (o : ℕ) (info : List UInt8) : Prop where
  le : o + sizeofBlockInfo ≤ bytes.length
  eq : (bytes.drop o).take sizeofBlockInfo = info
  lt : leNat info 8 8 < 2 ^ 63

/-- Where the data of a block end. -/
def nextOffset (o : ℕ) (info : List UInt8) : ℕ := o + sizeofBlockInfo + leNat info 8 8

/-- `PrintBlock` returns, however much fuel there is beyond some. -/
def BlockPrintsTo (bytes : List UInt8) (depth : ℕ) (info : List UInt8) (s : Stream)
    (out : List Entry) (p : Printed) : Prop :=
  ∃ fuel, ∀ more, printBlock bytes (printBlocks bytes (fuel + more)) depth info s out = some p

theorem printBlocks_succ (h : HeaderAt bytes o info) (fuel : ℕ) :
    printBlocks bytes (fuel + 1) depth endPos ⟨o, false⟩ out =
      match printBlock bytes (printBlocks bytes fuel) depth info
        ⟨o + sizeofBlockInfo, false⟩ out with
      | none => none
      | some (res, s', out) =>
        let off := streamoff (leNat info 8 8)
        let t := (s'.seekg ((o + sizeofBlockInfo : ℕ) : ℤ)).seekCur off
        if res ≠ .kSuccess then some (res, s', out)
        else if t.tellg ≠ (o + sizeofBlockInfo : ℕ) + off then some (.kCorruptData, t, out)
        else if endPos ≠ 0 ∧ endPos ≤ t.tellg then
          some (if endPos < t.tellg then .kCorruptData else .kSuccess, t, out)
        else printBlocks bytes fuel depth endPos t out := by
  rw [printBlocks]
  simp only [read_of_le h.le, h.eq, Bool.false_eq_true, if_false]
  rfl

variable {s' : Stream} {out' : List Entry} {r : LoadResult}

theorem seek_next (h : HeaderAt bytes o info) (hs : s'.failed = false) :
    (s'.seekg ((o + sizeofBlockInfo : ℕ) : ℤ)).seekCur (streamoff (leNat info 8 8)) =
      ⟨nextOffset o info, false⟩ := by
  have hpos : (0 : ℤ) ≤ ((o + sizeofBlockInfo : ℕ) : ℤ) := by omega
  have hnext : (0 : ℤ) ≤ ((o + sizeofBlockInfo : ℕ) : ℤ) + (leNat info 8 8 : ℤ) := by omega
  simp only [Stream.seekCur, Stream.seekg, hs, Bool.false_eq_true, if_false, if_pos hpos,
    streamoff_of_lt h.lt, Int.toNat_natCast, if_pos hnext, nextOffset]
  congr 1

section Listed

variable (hb : BlockPrintsTo bytes depth info ⟨o + sizeofBlockInfo, false⟩ out
  (.kSuccess, s', out')) (h : HeaderAt bytes o info) (hs : s'.failed = false)
include hb h hs

theorem BlockPrintsTo.exists_turn (endPos : ℤ) : ∃ fuel, ∀ more,
    printBlocks bytes (fuel + more + 1) depth endPos ⟨o, false⟩ out =
      if endPos ≠ 0 ∧ endPos ≤ (nextOffset o info : ℤ) then
        some (if endPos < (nextOffset o info : ℤ) then .kCorruptData else .kSuccess,
          ⟨nextOffset o info, false⟩, out')
      else printBlocks bytes (fuel + more) depth endPos ⟨nextOffset o info, false⟩ out' := by
  obtain ⟨fuel, hfuel⟩ := hb
  refine ⟨fuel, fun more => ?_⟩
  have htell : ((nextOffset o info : ℕ) : ℤ) =
      ((o + sizeofBlockInfo : ℕ) : ℤ) + streamoff (leNat info 8 8) := by
    rw [streamoff_of_lt h.lt, nextOffset]
    push_cast
    rfl
  rw [printBlocks_succ h, hfuel]
  simp only [ne_eq, not_true_eq_false, if_false, seek_next h hs, Stream.tellg, Bool.false_eq_true,
    ← htell]

theorem BlockPrintsTo.ends (hzero : endPos ≠ 0) (hend : endPos ≤ (nextOffset o info : ℤ)) :
    PrintsTo bytes depth endPos ⟨o, false⟩ out
      (if endPos < (nextOffset o info : ℤ) then .kCorruptData else .kSuccess,
        ⟨nextOffset o info, false⟩, out') := by
  obtain ⟨fuel, hfuel⟩ := hb.exists_turn h hs endPos
  refine ⟨fuel + 1, fun more => ?_⟩
  rw [Nat.add_right_comm, hfuel, if_pos ⟨hzero, hend⟩]

theorem BlockPrintsTo.next (hend : endPos = 0 ∨ (nextOffset o info : ℤ) < endPos)
    (hp : PrintsTo bytes depth endPos ⟨nextOffset o info, false⟩ out' p) :
    PrintsTo bytes depth endPos ⟨o, false⟩ out p := by
  obtain ⟨fuel, hfuel⟩ := hb.exists_turn h hs endPos
  obtain ⟨fuel', hfuel'⟩ := hp
  refine ⟨fuel + fuel' + 1, fun more => ?_⟩
  have hturn : fuel + fuel' + 1 + more = fuel + (fuel' + more) + 1 := by omega
  have hrest : fuel + (fuel' + more) = fuel' + (fuel + more) := by omega
  rw [hturn, hfuel, if_neg (by omega), hrest]
  exact hfuel' (fuel + more)

end Listed

/-! ## Kinds of blocks -/

/-- What `PrintBlock` reads of a block is in the file. -/
def HeadFits (bytes : List UInt8) (o type : ℕ) : Prop :=
  (type = BlockType.kMemoryRaw.value → o + sizeofMemoryRawDataHeader ≤ bytes.length) ∧
    (type = BlockType.kText.value → o + sizeofTextBlockHeader < bytes.length)

/-- The entry of the block at a position behind its header. -/
def entryAt (depth : ℕ) (info : List UInt8) (o : ℕ) : Entry :=
  ⟨depth, leNat info 0 4, o, leNat info 8 8⟩

theorem getline_of_lt (h : o < bytes.length) :
    ((⟨o, false⟩ : Stream).getline bytes).failed = false := by
  rw [Stream.getline, if_pos]
  simpa using h

theorem blockPrintsTo_of_eq {p : Printed} (h : ∀ print,
    printBlock bytes print depth info ⟨o, false⟩ out = some p) :
    BlockPrintsTo bytes depth info ⟨o, false⟩ out p := ⟨0, fun _ => h _⟩

/-- A block that is no capture is listed when what is read of it is there. -/
theorem exists_blockPrintsTo (htype : leNat info 0 4 ≠ kCapture)
    (hfits : HeadFits bytes o (leNat info 0 4)) :
    ∃ s', s'.failed = false ∧ BlockPrintsTo bytes depth info ⟨o, false⟩ out
      (.kSuccess, s', out ++ [entryAt depth info o]) := by
  by_cases hraw : leNat info 0 4 = BlockType.kMemoryRaw.value
  · refine ⟨⟨o + sizeofMemoryRawDataHeader, false⟩, rfl, blockPrintsTo_of_eq fun print => ?_⟩
    rw [printBlock, if_neg htype, if_pos hraw]
    simp only [read_of_le (hfits.1 hraw)]
    rfl
  by_cases htext : leNat info 0 4 = BlockType.kText.value
  · have hline := getline_of_lt (hfits.2 htext)
    refine ⟨_, hline, blockPrintsTo_of_eq fun print => ?_⟩
    rw [printBlock, if_neg htype, if_neg hraw, if_pos htext]
    simp only [read_of_le (hfits.2 htext).le, Bool.false_eq_true, if_false, hline]
    rfl
  · refine ⟨⟨o, false⟩, rfl, blockPrintsTo_of_eq fun print => ?_⟩
    rw [printBlock, if_neg htype, if_neg hraw, if_neg htext]
    rfl

theorem BlockPrintsTo.of_capture (htype : leNat info 0 4 = kCapture)
    (hsize : leNat info 8 8 < 2 ^ 63)
    (hp : PrintsTo bytes (depth + 1) ((o + leNat info 8 8 : ℕ) : ℤ)
      ((⟨o, false⟩ : Stream).read bytes sizeofCaptureDataHeader).2
      (out ++ [entryAt depth info o]) p) :
    BlockPrintsTo bytes depth info ⟨o, false⟩ out p := by
  obtain ⟨fuel, hfuel⟩ := hp
  refine ⟨fuel, fun more => ?_⟩
  have hend : (((⟨o, false⟩ : Stream).tellg : ℤ) + streamoff (leNat info 8 8)) =
      ((o + leNat info 8 8 : ℕ) : ℤ) := by
    rw [streamoff_of_lt hsize]
    rfl
  rw [printBlock, if_pos htype, hend]
  exact hfuel more

end Turn

end Dive.DiveCapture.Listing
