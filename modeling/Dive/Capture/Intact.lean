import Dive.Capture.InStep
import Dive.Capture.Listing

/-!
# The listing and the loader on an intact file

* `Hands`: a run of the loader, with the blocks that it hands to its handlers.
* `Alike`: the listing and the loader agree.
* `KnownBlock`: a block of a known type whose data are laid out for it, of the size that it declares.
* `IntactFile`: one capture, of a supported version, with blocks of this kind.
* **`hands_of_blocks`**, **`printsTo_of_blocks`**: what either does over such blocks.
* **`alike_of_intact`**: they agree on an intact file, on one without a capture and on one that does
  not begin as a `.dive` file.
* `emptyFile_twoFile_not_alike`: a capture without blocks, and two captures.
-/

namespace Dive.DiveCapture.Listing

/-- A block as both name it: its type, where its data begin, and their size. -/
abbrev NamedBlock : Type := ℕ × ℤ × ℕ

/-! ## Runs of the loader -/

section Loader

variable (f : CaptureFile)

/-- The bytes of a block header at a position. -/
def infoAt (o : ℕ) : List UInt8 := (f.bytes.drop o).take sizeofBlockInfo

/-- The block that an iteration hands to a handler. -/
def handed (s : LoadState) : List NamedBlock :=
  if s.failed ∨ f.bytes.length < s.offset + sizeofBlockInfo then []
  else if (blockType? (leNat (infoAt f s.offset) 0 4)).isSome then
    [(leNat (infoAt f s.offset) 0 4, ((s.offset + sizeofBlockInfo : ℕ) : ℤ),
      leNat (infoAt f s.offset) 8 8)]
  else []

/-- A run to its result, with the blocks that are handed to handlers. -/
inductive Hands : LoadState → List NamedBlock → LoadResult → Prop
  | stop {s : LoadState} {r : LoadResult} (h : iteration f s = .error r) : Hands s (handed f s) r
  | next {s t : LoadState} {bs : List NamedBlock} {r : LoadResult} (h : iteration f s = .ok t)
      (ht : Hands t bs r) : Hands s (handed f s ++ bs) r

end Loader

section Both

variable (bytes : List UInt8)

/-- The loader returns, with the blocks that it has handed to its handlers. -/
def LoadsBlocks (r : LoadResult) (bs : List NamedBlock) : Prop :=
  match loadCaptureFileStream bytes with
  | .ok (f, s) => Hands f s bs r
  | .error r' => r' = r ∧ bs = []

/-- The blocks inside captures that are listed. -/
def innerBlocks (out : List Entry) : List NamedBlock :=
  (out.filter (·.depth ≠ 0)).map fun e => (e.type, e.offset, e.size)

/-- **The listing and the loader agree**: whether the file is intact, and on its blocks if it is. -/
def Alike : Prop :=
  ∃ r out r' bs, Lists bytes r out ∧ LoadsBlocks bytes r' bs ∧
    (r = .kSuccess ↔ r' = .kSuccess) ∧ (r = .kSuccess → innerBlocks out = bs)

end Both

/-! ## Intact files -/

/-- A block of a known type, with data that are laid out for it, of the size that it declares. -/
structure KnownBlock (h : CaptureDataHeader) where
  info : List UInt8
  data : List UInt8
  type : BlockType
  length_info : info.length = sizeofBlockInfo
  type_eq : blockType? (leNat info 0 4) = some type
  laidOut : LaidOut h type data
  size_eq : leNat info 8 8 = data.length

/-- The block header and the data. -/
def KnownBlock.bytes {h : CaptureDataHeader} (b : KnownBlock h) : List UInt8 := b.info ++ b.data

/-- The bytes of some blocks. -/
def knownBytes {h : CaptureDataHeader} (bs : List (KnownBlock h)) : List UInt8 :=
  bs.flatMap KnownBlock.bytes

/-- **An intact file**: one capture, of a version that is supported, with at least one block, and less
than a block header behind it. -/
structure IntactFile where
  header : List UInt8
  info : List UInt8
  dataHeader : CaptureDataHeader
  blocks : List (KnownBlock dataHeader)
  rest : List UInt8
  length_header : header.length = sizeofFileHeader
  length_info : info.length = sizeofBlockInfo
  length_dataHeader : dataHeader.length = sizeofCaptureDataHeader
  type_eq : leNat info 0 4 = kCapture
  size_eq : leNat info 8 8 = sizeofCaptureDataHeader + (knownBytes blocks).length
  blocks_ne : blocks ≠ []
  compatible : dataHeader.incompatible = false
  length_rest : rest.length < sizeofBlockInfo
  length_lt : leNat info 8 8 < 2 ^ 63

/-- What is before the blocks. -/
def IntactFile.head (file : IntactFile) : List UInt8 := file.header ++ file.info ++ file.dataHeader

/-- The bytes of the file. -/
def IntactFile.bytes (file : IntactFile) : List UInt8 :=
  file.head ++ (knownBytes file.blocks ++ file.rest)

/-- The names of blocks that begin at a position. -/
def namesAt {h : CaptureDataHeader} : ℕ → List (KnownBlock h) → List NamedBlock
  | _, [] => []
  | o, b :: bs => (leNat b.info 0 4, ((o + sizeofBlockInfo : ℕ) : ℤ), leNat b.info 8 8) ::
    namesAt (o + b.bytes.length) bs

/-- What is printed of them. -/
def entriesAt {h : CaptureDataHeader} (depth : ℕ) : ℕ → List (KnownBlock h) → List Entry
  | _, [] => []
  | o, b :: bs => entryAt depth b.info (o + sizeofBlockInfo) ::
    entriesAt depth (o + b.bytes.length) bs

section Blocks

variable {h : CaptureDataHeader} {b : KnownBlock h} {bs : List (KnownBlock h)} {o : ℕ}

theorem KnownBlock.length_bytes (b : KnownBlock h) :
    b.bytes.length = sizeofBlockInfo + leNat b.info 8 8 := by
  rw [KnownBlock.bytes, List.length_append, b.length_info, b.size_eq]

theorem knownBytes_cons (b : KnownBlock h) (bs : List (KnownBlock h)) :
    knownBytes (b :: bs) = b.bytes ++ knownBytes bs := rfl

theorem length_knownBytes_pos (hne : bs ≠ []) : 0 < (knownBytes bs).length := by
  obtain ⟨b, bs, rfl⟩ := List.exists_cons_of_ne_nil hne
  rw [knownBytes_cons, List.length_append, b.length_bytes, sizeofBlockInfo]
  omega

theorem KnownBlock.type_ne (b : KnownBlock h) : leNat b.info 0 4 ≠ kCapture := by
  have hnone : blockType? kCapture = none := by decide
  intro hcapture
  have htype := b.type_eq
  rw [hcapture, hnone] at htype
  cases htype

theorem blockType?_value (type : BlockType) : blockType? type.value = some type := by
  cases type <;> decide

/-- What the listing reads of a block is part of its layout. -/
theorem KnownBlock.headFits (b : KnownBlock h) {bytes : List UInt8}
    (hle : o + b.data.length ≤ bytes.length) : HeadFits bytes o (leNat b.info 0 4) := by
  obtain ⟨p, hptype, hp, -, hdata⟩ := b.laidOut
  have htype := b.type_eq
  rw [hdata] at hle
  constructor
  · intro hraw
    rw [hraw, blockType?_value, Option.some.injEq] at htype
    rw [← htype] at hptype
    cases p with
    | memoryRaw header data =>
      rw [Payload.bytes, List.length_append, hp.1] at hle
      omega
    | _ => cases hptype
  · intro htext
    rw [htext, blockType?_value, Option.some.injEq] at htype
    rw [← htype] at hptype
    cases p with
    | text header name data =>
      simp only [Payload.bytes, List.length_append, hp.1, List.length_singleton] at hle
      omega
    | _ => cases hptype

theorem innerBlocks_entriesAt (o : ℕ) (bs : List (KnownBlock h)) :
    innerBlocks (entriesAt 1 o bs) = namesAt o bs := by
  induction bs generalizing o with
  | nil => rfl
  | cons b bs ih => exact congrArg (_ :: ·) (ih _)

/-! ## The loader over such blocks -/

section Loads

variable {f : CaptureFile} {s : LoadState} {before after rest : List UInt8}

theorem handed_short (hs : StandsBehind s before) (hf : f.bytes = before ++ rest)
    (hrest : rest.length < sizeofBlockInfo) : handed f s = [] := by
  rw [handed, if_pos]
  right
  rw [hs.offset, hf, List.length_append]
  omega

theorem handed_block (hs : StandsBehind s before) (b : KnownBlock h)
    (hf : f.bytes = before ++ (b.bytes ++ after)) :
    handed f s = [(leNat b.info 0 4, ((before.length + sizeofBlockInfo : ℕ) : ℤ),
      leNat b.info 8 8)] := by
  have hinfo : infoAt f s.offset = b.info := by
    rw [infoAt, hf, hs.offset, List.drop_left, KnownBlock.bytes, List.append_assoc,
      ← b.length_info, List.take_left]
  have hlen := congrArg List.length hf
  rw [List.length_append, List.length_append, b.length_bytes] at hlen
  rw [handed, if_neg, hinfo, b.type_eq, hs.offset]
  · rfl
  · rw [hs.failed, hs.offset, hlen]
    simp only [Bool.false_eq_true, false_or]
    omega

/-- The handler takes the block whole. -/
theorem iteration_known (hs : StandsBehind s before) {b : KnownBlock f.dataHeader}
    (hf : f.bytes = before ++ (b.bytes ++ after)) :
    ∃ t, iteration f s = .ok t ∧ StandsBehind t (before ++ b.bytes) := by
  refine iteration_taken hs hf ⟨b.info, b.data, rfl, b.length_info, ?_⟩
  rw [TakenBody, b.type_eq]
  exact b.laidOut

/-- **The loader hands the blocks to their handlers**, one after the other. -/
theorem hands_of_blocks {bs : List (KnownBlock f.dataHeader)} (hs : StandsBehind s before)
    (hf : f.bytes = before ++ (knownBytes bs ++ rest)) (hrest : rest.length < sizeofBlockInfo) :
    Hands f s (namesAt before.length bs) .kSuccess := by
  induction bs generalizing s before with
  | nil =>
    have hstop := Hands.stop (iteration_short hs hf hrest)
    rwa [handed_short hs hf hrest] at hstop
  | cons b bs ih =>
    rw [knownBytes_cons, List.append_assoc] at hf
    obtain ⟨t, ht, hbehind⟩ := iteration_known hs hf
    have hnext := Hands.next ht (ih hbehind (by rw [hf, List.append_assoc]))
    rw [handed_block hs b hf, List.length_append] at hnext
    exact hnext

end Loads

/-! ## The listing of such blocks -/

section Lists

variable {bytes before after info : List UInt8} {depth : ℕ}

theorem headerAt_of_append (hbytes : bytes = before ++ (info ++ after))
    (hinfo : info.length = sizeofBlockInfo) (hlt : leNat info 8 8 < 2 ^ 63) :
    HeaderAt bytes before.length info := by
  refine ⟨?_, ?_, hlt⟩
  · rw [hbytes, List.length_append, List.length_append, hinfo]
    omega
  · rw [hbytes, List.drop_left, ← hinfo, List.take_left]

theorem nextOffset_block (o : ℕ) (b : KnownBlock h) : nextOffset o b.info = o + b.bytes.length := by
  rw [nextOffset, b.length_bytes]
  omega

/-- **Blocks are listed** to the end of their capture. -/
theorem printsTo_of_blocks (depth : ℕ) (out : List Entry)
    (hbytes : bytes = before ++ (knownBytes bs ++ after))
    (hlt : (knownBytes bs).length < 2 ^ 63) (hne : bs ≠ []) :
    PrintsTo bytes depth (before.length + (knownBytes bs).length : ℕ) ⟨before.length, false⟩ out
      (.kSuccess, ⟨before.length + (knownBytes bs).length, false⟩,
        out ++ entriesAt depth before.length bs) := by
  induction bs generalizing before out with
  | nil => exact absurd rfl hne
  | cons b bs ih =>
    have hbytes' := hbytes
    rw [knownBytes_cons, List.append_assoc] at hbytes
    rw [knownBytes_cons, List.length_append] at hlt ⊢
    have hsize := b.length_bytes
    have hheader : HeaderAt bytes before.length b.info := by
      rw [KnownBlock.bytes, List.append_assoc] at hbytes
      exact headerAt_of_append hbytes b.length_info (by omega)
    have hlen := congrArg List.length hbytes
    rw [List.length_append, List.length_append, hsize, b.size_eq] at hlen
    have hhead : HeadFits bytes (before.length + sizeofBlockInfo) (leNat b.info 0 4) :=
      b.headFits (by omega)
    obtain ⟨s', hs', hblock⟩ := exists_blockPrintsTo b.type_ne hhead
    by_cases hbs : bs = []
    · subst hbs
      have hnext : (nextOffset before.length b.info : ℤ) ≠ 0 := by
        rw [nextOffset, sizeofBlockInfo]
        omega
      have hends := hblock.ends hheader hs' hnext le_rfl
      rw [if_neg (lt_irrefl _), nextOffset_block] at hends
      exact hends
    · have hpos := length_knownBytes_pos hbs
      rw [← List.append_assoc] at hbytes
      have hlast := ih (out ++ [entryAt depth b.info (before.length + sizeofBlockInfo)])
        hbytes (by omega) hbs
      rw [List.length_append, List.append_assoc, Nat.add_assoc] at hlast
      refine hblock.next hheader hs' (.inr ?_) ?_
      · rw [nextOffset_block]
        omega
      · rw [nextOffset_block]
        exact hlast

end Lists

end Blocks

/-! ## Both on a file -/

section Files

variable {bytes : List UInt8}

theorem PrintsTo.lists {p : Printed} (hvalid : ValidFile bytes)
    (hp : PrintsTo bytes 0 0 ⟨sizeofFileHeader, false⟩ [] p) : Lists bytes p.1 p.2.2 := by
  obtain ⟨fuel, hfuel⟩ := hp
  refine ⟨fuel, fun more => ?_⟩
  rw [printCaptureFileBlocks, if_neg (not_lt.mpr hvalid.1), if_neg (not_not.mpr hvalid.2.1),
    if_neg (not_not.mpr hvalid.2.2), hfuel]
  rfl

/-- A file that does not begin as one is refused alike. -/
theorem alike_of_not_validFile (h : ¬ValidFile bytes) : Alike bytes := by
  have hboth (r : LoadResult) (hne : r ≠ .kSuccess)
      (hlist : ∀ fuel, printCaptureFileBlocks bytes fuel = some (r, []))
      (hload : loadCaptureFileStream bytes = .error r) : Alike bytes := by
    refine ⟨r, [], r, [], ⟨0, fun more => hlist _⟩, ?_, Iff.rfl, fun hr => absurd hr hne⟩
    rw [LoadsBlocks, hload]
    exact ⟨rfl, rfl⟩
  by_cases hlen : bytes.length < sizeofFileHeader
  · exact hboth .kFileIoError (by decide) (fun _ => if_pos hlen) (if_pos hlen)
  by_cases hid : leNat (bytes.take sizeofFileHeader) 0 4 = kDiveFileId
  swap
  · refine hboth .kCorruptData (by decide) (fun fuel => ?_) ?_
    · rw [printCaptureFileBlocks, if_neg hlen, if_pos hid]
    · rw [loadCaptureFileStream, if_neg hlen, if_pos hid]
  have hversion : leNat (bytes.take sizeofFileHeader) 4 4 ≠ kDiveFileVersion :=
    fun hversion => h ⟨not_lt.mp hlen, hid, hversion⟩
  refine hboth .kVersionError (by decide) (fun fuel => ?_) ?_
  · rw [printCaptureFileBlocks, if_neg hlen, if_neg (not_not.mpr hid), if_pos hversion]
  · rw [loadCaptureFileStream, if_neg hlen, if_neg (not_not.mpr hid), if_pos hversion]

/-- A file without a capture is listed and loaded. -/
theorem alike_of_short (hvalid : ValidFile bytes) (hshort : bytes.length < dataOffset) :
    Alike bytes := by
  obtain ⟨s', -, hp⟩ : ∃ s', s'.failed = true ∧
      PrintsTo bytes 0 0 ⟨sizeofFileHeader, false⟩ [] (.kSuccess, s', []) :=
    PrintsTo.of_short (.inr hshort)
  refine ⟨_, _, .kSuccess, [], hp.lists hvalid, ?_, Iff.rfl, fun _ => rfl⟩
  have hload : loadCaptureFileStream bytes = .error .kSuccess := by
    rw [loadCaptureFileStream, if_neg (not_lt.mpr hvalid.1), if_neg (not_not.mpr hvalid.2.1),
      if_neg (not_not.mpr hvalid.2.2), if_pos hshort]
  rw [LoadsBlocks, hload]
  exact ⟨rfl, rfl⟩

section Intact

variable (file : IntactFile)

theorem IntactFile.length_head : file.head.length = blocksOffset := by
  rw [IntactFile.head, List.length_append, List.length_append, file.length_header,
    file.length_info, file.length_dataHeader]
  rfl

/-- The header of the capture, and what is behind it. -/
theorem IntactFile.bytes_eq : file.bytes =
    file.header ++ (file.info ++ (file.dataHeader ++ (knownBytes file.blocks ++ file.rest))) := by
  simp only [IntactFile.bytes, IntactFile.head, List.append_assoc]

theorem IntactFile.dataHeaderOf_bytes : dataHeaderOf file.bytes = file.dataHeader := by
  have hlen : dataOffset = (file.header ++ file.info).length := by
    rw [List.length_append, file.length_header, file.length_info]
    rfl
  have hextracted : extracted file.bytes = file.dataHeader := by
    rw [extracted, IntactFile.bytes, IntactFile.head, hlen, List.append_assoc (file.header ++ _),
      List.drop_left, ← file.length_dataHeader, List.take_left]
  rw [dataHeaderOf, hextracted, file.length_dataHeader, List.drop_eq_nil_of_le (by decide),
    List.append_nil]

theorem IntactFile.blocksOffset_le : blocksOffset ≤ file.bytes.length := by
  rw [IntactFile.bytes, List.length_append, file.length_head]
  exact Nat.le_add_right _ _

theorem IntactFile.validCapture (hvalid : ValidFile file.bytes) : ValidCapture file.bytes := by
  refine ⟨hvalid, (Nat.le_add_right _ _).trans file.blocksOffset_le, ?_, ?_⟩
  · rw [file.bytes_eq, ← file.length_header, List.drop_left, ← file.length_info, List.take_left]
    exact file.type_eq
  · rw [file.dataHeaderOf_bytes]
    exact file.compatible

theorem IntactFile.loadsBlocks (hvalid : ValidFile file.bytes) :
    LoadsBlocks file.bytes .kSuccess (namesAt blocksOffset file.blocks) := by
  obtain ⟨s, hs, -, -, hlong⟩ := load_of_valid (file.validCapture hvalid)
  have hbehind := hlong file.blocksOffset_le
  have htake : file.bytes.take blocksOffset = file.head := by
    rw [IntactFile.bytes, ← file.length_head, List.take_left]
  rw [htake] at hbehind
  rw [file.dataHeaderOf_bytes] at hs
  rw [LoadsBlocks, hs, ← file.length_head]
  exact hands_of_blocks (f := ⟨file.bytes, file.dataHeader⟩) hbehind rfl file.length_rest

theorem IntactFile.lists (hvalid : ValidFile file.bytes) :
    ∃ out, Lists file.bytes .kSuccess out ∧ innerBlocks out = namesAt blocksOffset file.blocks := by
  have hsize := file.size_eq
  have hlt := file.length_lt
  have hheader := headerAt_of_append file.bytes_eq file.length_info hlt
  rw [file.length_header] at hheader
  have hend : sizeofFileHeader + sizeofBlockInfo + leNat file.info 8 8 =
      blocksOffset + (knownBytes file.blocks).length := by
    rw [hsize, blocksOffset, dataOffset]
    omega
  -- the listing of the blocks ends where the capture does
  have hblocks := printsTo_of_blocks 1 [entryAt 0 file.info (sizeofFileHeader + sizeofBlockInfo)]
    (show file.bytes = file.head ++ (knownBytes file.blocks ++ file.rest) from rfl) (by omega)
    file.blocks_ne
  have hread : (⟨blocksOffset, false⟩ : Stream) = ((⟨sizeofFileHeader + sizeofBlockInfo, false⟩ :
      Stream).read file.bytes sizeofCaptureDataHeader).2 :=
    (congrArg Prod.snd (read_of_le file.blocksOffset_le)).symm
  rw [file.length_head, ← hend, hread] at hblocks
  have hcapture : BlockPrintsTo file.bytes 0 file.info _ [] _ :=
    .of_capture file.type_eq hlt hblocks
  -- what is behind it is no block header
  have hrest : file.bytes.length < nextOffset sizeofFileHeader file.info + sizeofBlockInfo := by
    have hrest := file.length_rest
    rw [nextOffset, hend, IntactFile.bytes, List.length_append, List.length_append,
      file.length_head]
    omega
  obtain ⟨s', -, hshort⟩ := PrintsTo.of_short
    (s := ⟨nextOffset sizeofFileHeader file.info, false⟩) (.inr hrest)
  have hprints := hcapture.next hheader rfl (.inl rfl) hshort
  exact ⟨_, hprints.lists hvalid, innerBlocks_entriesAt _ _⟩

end Intact

end Files

/-! ## Three files -/

def fileHeader : List UInt8 := [0x44, 0x49, 0x56, 0x45, 1, 0, 0, 0]

def textKnown : KnownBlock .initial where
  info := textBlock.info
  data := textBlock.payload.bytes
  type := .kText
  length_info := rfl
  type_eq := by decide
  laidOut := ⟨textBlock.payload, rfl, ⟨by decide, by decide, by decide⟩, ⟨by decide, by decide⟩, rfl⟩
  size_eq := by decide

/-- The header of a capture with one text block. -/
def textCaptureInfo : List UInt8 := [0x43, 0x41, 0x50, 0x54, 0, 0, 0, 0, 75, 0, 0, 0, 0, 0, 0, 0]

/-- A capture with a text block. -/
def textFile : IntactFile where
  header := fileHeader
  info := textCaptureInfo
  dataHeader := .initial
  blocks := [textKnown]
  rest := []
  length_header := rfl
  length_info := rfl
  length_dataHeader := rfl
  type_eq := by decide
  size_eq := by decide
  blocks_ne := List.cons_ne_nil _ _
  compatible := by decide
  length_rest := by decide
  length_lt := by decide

/-- A capture without blocks. -/
def emptyBytes : List UInt8 :=
  fileHeader ++ ([0x43, 0x41, 0x50, 0x54, 0, 0, 0, 0, 32, 0, 0, 0, 0, 0, 0, 0] ++
    CaptureDataHeader.initial)

/-- Two captures with a text block. -/
def twoBytes : List UInt8 :=
  textFile.bytes ++ (textCaptureInfo ++ (CaptureDataHeader.initial ++ textKnown.bytes))

theorem Lists.unique {bytes : List UInt8} {r r' : LoadResult} {out out' : List Entry}
    (h : Lists bytes r out) (h' : Lists bytes r' out') : r = r' ∧ out = out' := by
  obtain ⟨fuel, hfuel⟩ := h
  obtain ⟨fuel', hfuel'⟩ := h'
  have heq := hfuel' fuel
  rw [Nat.add_comm, hfuel fuel', Option.some.injEq, Prod.mk.injEq] at heq
  exact heq

/-- The listing goes on to a first block that is not there. -/
theorem lists_emptyBytes : Lists emptyBytes .kCorruptData [⟨0, kCapture, 24, 32⟩] := by
  refine ⟨3, fun more => ?_⟩
  rw [Nat.add_comm]
  rfl

set_option maxRecDepth 2048 in
theorem lists_twoBytes : Lists twoBytes .kSuccess
    [⟨0, kCapture, 24, 75⟩, ⟨1, BlockType.kText.value, 72, 27⟩, ⟨0, kCapture, 115, 75⟩,
      ⟨1, BlockType.kText.value, 163, 27⟩] := by
  refine ⟨6, fun more => ?_⟩
  rw [Nat.add_comm]
  rfl

set_option maxRecDepth 2048 in
/-- The loader takes the header of the second capture for a block of an unknown type. -/
theorem loads_twoBytes {r : LoadResult} {bs : List NamedBlock} (h : LoadsBlocks twoBytes r bs) :
    r = .kCorruptData := by
  have hfirst : iteration ⟨twoBytes, .initial⟩ { offset := blocksOffset } =
      .ok { offset := 99, contents := { texts := [⟨[65], 1, [66]⟩] } } := by rfl
  have hsecond : iteration ⟨twoBytes, .initial⟩
      { offset := 99, contents := { texts := [⟨[65], 1, [66]⟩] } } = .error .kCorruptData := by rfl
  have hhands : ∃ bs, Hands ⟨twoBytes, .initial⟩ { offset := blocksOffset } bs r := ⟨bs, h⟩
  obtain ⟨_, hstop | ⟨hnext, ht⟩⟩ := hhands
  · cases hfirst.symm.trans hstop
  rw [← Except.ok.inj (hfirst.symm.trans hnext)] at ht
  cases ht with
  | stop hstop => exact (Except.error.inj (hsecond.symm.trans hstop)).symm
  | next hnext _ => cases hsecond.symm.trans hnext

end Dive.DiveCapture.Listing
