import Dive.Gfxr.FrameLoop
import Dive.Gfxr.Write

/-!
# Loading a `.gfxr` file

* `blockOffsets`: where the blocks of a file start; `Plain`: a block that is read without an error.
* `Recording`: the processor while it records blocks; `reaches_recorded`: up to the last block.
* `Loads`: what `LoadCaptureFile` makes of a file.
* **`loads_blocks`**: a file is loaded with its blocks, and perhaps an empty one at its end;
  **`loads_cut`**: what happens to a file whose last block is cut off.
-/

namespace Dive

open DiveFileProcessor FrameCapture

/-- Where the parts of a file start, the first of them at `position`. -/
def offsetsOf : ℕ → List (List UInt8) → List UInt64
  | _, [] => []
  | position, part :: parts => UInt64.ofNat position :: offsetsOf (position + part.length) parts

/-- The block is no error, and does not go on in another file. -/
def Plain : ParsedBlock → Prop
  | .executeBlocksFromFile _ | .invalid (some _) => False
  | _ => True

instance : DecidablePred Plain
  | .executeBlocksFromFile _ | .invalid (some _) => isFalse id
  | .functionCall _ _ _ | .methodCall _ _ _ _ | .metaData _ | .frameEndMarker _
  | .stateBeginMarker _ | .stateEndMarker _ | .annotationArgs _ _ _ | .unknown
  | .invalid none => isTrue trivial

/-- The object that holds the offsets and nothing else. -/
def recorded (offsets : List UInt64) : DiveBlockData :=
  { originalBlocksMap := unsizedBlocks offsets }

namespace DiveFileProcessor

variable {p q : DiveFileProcessor} {R : Replay} {b : GfxrBlock} {blocks : List GfxrBlock}
  {offsets : List UInt64} {pre post tail : List UInt8} {block : ParsedBlock}

/-- The processor when it has recorded the blocks at the offsets. -/
structure Recording (offsets : List UInt64) (p : DiveFileProcessor) : Prop where
  diveBlockData : p.diveBlockData = some (recorded offsets)
  runWithoutDecoders : p.runWithoutDecoders = true
  loopSingleFrameCount : p.loopSingleFrameCount = 1
  errorState : p.errorState = .kErrorNone
  blockIndex : p.blockIndex.toNat = offsets.length
  currentFrameNumber : p.currentFrameNumber.toNat ≤ offsets.length

/-- What a visit leaves alone while blocks are recorded. -/
structure Keeps (p q : DiveFileProcessor) : Prop where
  activeFile : q.activeFile = p.activeFile
  diveBlockData : q.diveBlockData = p.diveBlockData
  runWithoutDecoders : q.runWithoutDecoders = p.runWithoutDecoders
  loopSingleFrameCount : q.loopSingleFrameCount = p.loopSingleFrameCount
  errorState : q.errorState = p.errorState
  blockIndex : q.blockIndex = p.blockIndex
  currentFrameNumber : q.currentFrameNumber = p.currentFrameNumber

theorem Keeps.refl (p : DiveFileProcessor) : Keeps p p := ⟨rfl, rfl, rfl, rfl, rfl, rfl, rfl⟩

theorem keeps_processFrameEndMarker (hloop : p.loopSingleFrameCount = 1)
    (hnumber : 1 ≤ p.currentFrameNumber + 1) : Keeps p p.processFrameEndMarker := by
  have hlast : (0 : UInt64) < 1 ∧ 1 ≤ p.currentFrameNumber + 1 := ⟨by decide, hnumber⟩
  unfold processFrameEndMarker
  simp only [tryStopCapture_eq, hloop, if_pos hlast]
  exact ⟨rfl, rfl, rfl, hloop.symm, rfl, rfl, rfl⟩

/-- **A visit** leaves alone what counts for the record. -/
theorem visit_keeps (hloop : p.loopSingleFrameCount = 1) (hnumber : 1 ≤ p.currentFrameNumber + 1)
    {delimits : Bool} (hv : p.visit R block = some (q, delimits)) : Keeps p q := by
  cases block with
  | frameEndMarker n =>
    cases hv
    exact keeps_processFrameEndMarker hloop hnumber
  | stateEndMarker n =>
    cases hv
    unfold processStateEndMarker
    rw [tryStartCapture_eq]
    exact ⟨rfl, rfl, rfl, rfl, rfl, rfl, rfl⟩
  | annotationArgs type label data =>
    cases hv
    rw [processAnnotation_eq]
    exact ⟨rfl, rfl, rfl, rfl, rfl, rfl, rfl⟩
  | functionCall =>
    cases hv
    exact Keeps.refl p
  | methodCall =>
    cases hv
    exact Keeps.refl p
  | stateBeginMarker =>
    cases hv
    exact Keeps.refl p
  | metaData =>
    cases hv
    exact Keeps.refl p
  | executeBlocksFromFile => cases hv
  | unknown => cases hv
  | invalid => cases hv

theorem processBlock_visit {delimits : Bool} (hv : p.visit R block = some (q, delimits)) :
    p.processBlock R block = some (
      let q := q.dispatch p.blockIndex block
      if delimits then { q.updateEndFrameState with phase := .frames }
      else { q with blockIndex := q.blockIndex + 1 }) := by
  cases block with
  | unknown => cases hv
  | invalid => cases hv
  | _ => simp only [processBlock, hv, Option.map_some]

namespace Recording

theorem continueDecoding (h : Recording offsets p) : p.continueDecoding R = true := by
  unfold DiveFileProcessor.continueDecoding
  rw [h.runWithoutDecoders]
  rfl

theorem storeBlockInfo (h : Recording offsets p) {bytes : List UInt8} {position : ℕ}
    (ht : AtCursor p.activeFile ⟨bytes, position⟩) : p.storeBlockInfo = { p with
      diveBlockData := some (recorded (offsets ++ [UInt64.ofNat position])) } := by
  have hoffset : UInt64.ofInt p.activeFile.fileTell = UInt64.ofNat position := by
    apply UInt64.toNat_inj.mp
    rw [ht.fileTell, UInt64.ofInt, UInt64.toNat_ofNat', UInt64.toNat_ofNat']
    dsimp only
    omega
  have hlen : (unsizedBlocks offsets).length = offsets.length := List.length_map _
  unfold DiveFileProcessor.storeBlockInfo
  rw [h.diveBlockData]
  dsimp only
  rw [hoffset, h.blockIndex, DiveBlockData.addOriginalBlock]
  simp [recorded, unsizedBlocks]

/-- The processor that goes on with the next block. -/
def advanced (p : DiveFileProcessor) : DiveFileProcessor :=
  { p with blockIndex := p.blockIndex + 1 }

theorem keeps (h : Recording offsets (advanced p)) (hk : Keeps p q) :
    Recording offsets (advanced q) := by
  constructor
  case diveBlockData => exact hk.diveBlockData.trans h.diveBlockData
  case runWithoutDecoders => exact hk.runWithoutDecoders.trans h.runWithoutDecoders
  case loopSingleFrameCount => exact hk.loopSingleFrameCount.trans h.loopSingleFrameCount
  case errorState => exact hk.errorState.trans h.errorState
  case blockIndex => exact (congrArg (fun i => (i + 1).toNat) hk.blockIndex).trans h.blockIndex
  case currentFrameNumber => exact (congrArg _ hk.currentFrameNumber).trans_le h.currentFrameNumber

theorem delimited (h : Recording offsets (advanced p)) (hpos : 0 < offsets.length)
    (hcount : (p.currentFrameNumber + 1).toNat ≤ offsets.length) :
    Recording offsets { p.updateEndFrameState with phase := .frames } ∧
      p.updateEndFrameState.activeFile = p.activeFile := by
  have hfirst : ((0 : UInt64) + 1).toNat ≤ offsets.length := hpos
  unfold updateEndFrameState
  cases p.pendingCaptureUsesFrameMarkers with
  | false => exact ⟨{ h with currentFrameNumber := hcount }, rfl⟩
  | true => exact ⟨{ h with currentFrameNumber := hfirst }, rfl⟩

/-- **A plain block** leads to the next one, in the same file. -/
theorem processBlock (h : Recording offsets (advanced p)) (hpos : 0 < offsets.length)
    (hnext : 1 ≤ p.currentFrameNumber + 1)
    (hcount : (p.currentFrameNumber + 1).toNat ≤ offsets.length) (hplain : Plain block) :
    ∃ q, p.processBlock R block = some q ∧ q.activeFile = p.activeFile ∧ Recording offsets q := by
  have hvisit : ∀ {q delimits}, p.visit R block = some (q, delimits) →
      ∃ r, p.processBlock R block = some r ∧ r.activeFile = p.activeFile ∧
        Recording offsets r := by
    intro q delimits hv
    have hk := visit_keeps (p := p) h.loopSingleFrameCount hnext hv
    have hq := h.keeps hk
    rw [processBlock_visit hv]
    cases delimits with
    | false => exact ⟨_, rfl, hk.activeFile, { hq with }⟩
    | true =>
      have hqcount : (q.currentFrameNumber + 1).toNat ≤ offsets.length := by
        rw [hk.currentFrameNumber]
        exact hcount
      have hdispatch : Recording offsets (advanced (q.dispatch p.blockIndex block)) := { hq with }
      obtain ⟨hrec, hfile⟩ := hdispatch.delimited hpos hqcount
      exact ⟨_, rfl, hfile.trans hk.activeFile, hrec⟩
  cases block with
  | executeBlocksFromFile => exact hplain.elim
  | unknown => exact ⟨_, rfl, rfl, h⟩
  | invalid e =>
    cases e with
    | none => exact ⟨_, rfl, rfl, h⟩
    | some e => exact hplain.elim
  | _ => exact hvisit rfl

/-- **One block** is recorded where it starts. -/
theorem step (h : Recording offsets p) (hp : p.phase = .blocks) (hlt : offsets.length < 2 ^ 63)
    (hplain : Plain (parsed R b))
    (ht : AtCursor p.activeFile ⟨pre ++ b.bytes ++ post, pre.length⟩) :
    ∃ q, DiveFileProcessor.step R p = .ok q ∧
      Recording (offsets ++ [UInt64.ofNat pre.length]) q ∧
      AtCursor q.activeFile ⟨pre ++ b.bytes ++ post, (pre ++ b.bytes).length⟩ := by
  obtain ⟨s, hs, hstep⟩ := step_block hp h.continueDecoding ht
  rw [h.storeBlockInfo ht] at hstep
  have hle := h.currentFrameNumber
  have hlen : (offsets ++ [UInt64.ofNat pre.length]).length = offsets.length + 1 := by
    rw [List.length_append, List.length_singleton]
  have hnumber : (p.currentFrameNumber + 1).toNat = p.currentFrameNumber.toNat + 1 := by
    rw [UInt64.toNat_add, UInt64.toNat_one, Nat.mod_eq_of_lt (by omega)]
  have hindex : (p.blockIndex + 1).toNat = offsets.length + 1 := by
    rw [UInt64.toNat_add, UInt64.toNat_one, h.blockIndex, Nat.mod_eq_of_lt (by omega)]
  have hnext : 1 ≤ p.currentFrameNumber + 1 := by
    rw [UInt64.le_iff_toNat_le, hnumber, UInt64.toNat_one]
    omega
  have hadvanced : Recording (offsets ++ [UInt64.ofNat pre.length]) (advanced { p with
      diveBlockData := some (recorded (offsets ++ [UInt64.ofNat pre.length]))
      activeFile := s }) := by
    constructor
    case diveBlockData => rfl
    case runWithoutDecoders => exact h.runWithoutDecoders
    case loopSingleFrameCount => exact h.loopSingleFrameCount
    case errorState => exact h.errorState
    case blockIndex => exact hindex.trans hlen.symm
    case currentFrameNumber => exact hle.trans (by omega)
  obtain ⟨q, hq, hfile, hrec⟩ := hadvanced.processBlock (R := R) (by omega) hnext
    (by rw [hlen]; exact hnumber.trans_le (by omega)) hplain
  rw [hq] at hstep
  refine ⟨q, hstep, hrec, ?_⟩
  rw [hfile]
  exact hs

theorem reaches_blocks {bytes : List UInt8} {position : ℕ}
    (ht : AtCursor p.activeFile ⟨bytes, position⟩) (hlt : position < bytes.length) :
    Machine.Reaches (DiveFileProcessor.step R) p { p with phase := .blocks } := by
  cases hp : p.phase with
  | frames => exact (Machine.Reaches.refl _).head (step_frames_of_lt hp ht hlt)
  | blocks =>
    rw [← hp]
    exact Machine.Reaches.refl p

/-- **All blocks** are recorded where they start. -/
theorem reaches_recorded : ∀ {blocks : List GfxrBlock} {offsets : List UInt64}
    {p : DiveFileProcessor} {pre : List UInt8}, Recording offsets p →
    offsets.length + blocks.length < 2 ^ 63 → (∀ b ∈ blocks, Plain (parsed R b)) →
    AtCursor p.activeFile ⟨pre ++ blockBytes blocks ++ post, pre.length⟩ →
    ∃ q, Machine.Reaches (DiveFileProcessor.step R) p q ∧
      Recording (offsets ++ offsetsOf pre.length (blocks.map GfxrBlock.bytes)) q ∧
      AtCursor q.activeFile
        ⟨pre ++ blockBytes blocks ++ post, (pre ++ blockBytes blocks).length⟩ := by
  intro blocks
  induction blocks with
  | nil =>
    intro offsets p pre h _ _ ht
    refine ⟨p, Machine.Reaches.refl p, ?_, ?_⟩
    · simpa [offsetsOf] using h
    · simpa [blockBytes] using ht
  | cons b bs ih =>
    intro offsets p pre h hlt hplain ht
    have hsplit : pre ++ blockBytes (b :: bs) ++ post =
        pre ++ b.bytes ++ (blockBytes bs ++ post) := by
      rw [blockBytes_cons]
      simp only [List.append_assoc]
    have hsplit' : pre ++ blockBytes (b :: bs) ++ post =
        pre ++ b.bytes ++ blockBytes bs ++ post := by
      rw [hsplit, List.append_assoc (pre ++ b.bytes)]
    have hposition : pre.length < (pre ++ blockBytes (b :: bs) ++ post).length := by
      have hpos := length_blockBytes_pos (List.cons_ne_nil b bs)
      rw [List.length_append, List.length_append]
      omega
    have hfirst := reaches_blocks (R := R) ht hposition
    rw [hsplit] at ht
    rw [List.length_cons] at hlt
    obtain ⟨q, hstep, hq, hqt⟩ := step (R := R) (p := { p with phase := .blocks }) { h with } rfl
      (by omega) (hplain b List.mem_cons_self) ht
    rw [← hsplit, hsplit'] at hqt
    obtain ⟨r, hreach, hr, hrt⟩ := ih hq (by rw [List.length_append, List.length_singleton]; omega)
      (fun b' hb' => hplain b' (List.mem_cons_of_mem b hb')) hqt
    refine ⟨r, (hfirst.tail hstep).trans hreach, ?_, ?_⟩
    · rw [List.map_cons, offsetsOf, ← List.length_append, List.append_cons]
      exact hr
    · rw [hsplit', blockBytes_cons, ← List.append_assoc pre]
      exact hrt

/-- **At the end of the file**, an empty block may be recorded. -/
theorem stopsWith_end (h : Recording offsets p) (ht : AtCursor p.activeFile ⟨pre, pre.length⟩) :
    ∃ q last, Machine.StopsWith (DiveFileProcessor.step R) p (some q) ∧
      q.errorState = .kErrorNone ∧ (last = [] ∨ last = [[]]) ∧
      q.diveBlockData = some (recorded (offsets ++ offsetsOf pre.length last)) := by
  by_cases heof : p.phase = .frames ∧ p.activeFile.isEof = true
  · refine ⟨{ p with errorState := .kErrorNone }, [], ⟨p, Machine.Reaches.refl p, ?_⟩, rfl,
      Or.inl rfl, ?_⟩
    · rw [step_frames heof.1, if_pos heof.2]
    · rw [offsetsOf, List.append_nil]
      exact h.diveBlockData
  · have hfirst : Machine.Reaches (DiveFileProcessor.step R) p { p with phase := .blocks } := by
      cases hp : p.phase with
      | frames =>
        refine (Machine.Reaches.refl _).head ?_
        rw [step_frames hp, if_neg fun hend => heof ⟨hp, hend⟩]
      | blocks =>
        rw [← hp]
        exact Machine.Reaches.refl p
    have hb : Recording offsets { p with phase := .blocks } := { h with }
    obtain ⟨s, hstop⟩ := step_end (R := R) (p := { p with phase := .blocks }) rfl
      hb.continueDecoding ht
    rw [hb.storeBlockInfo ht] at hstop
    exact ⟨_, [[]], ⟨_, hfirst, hstop⟩, h.errorState, Or.inr rfl, rfl⟩

/-- **A block cut off within its size** is an error. -/
theorem stopsWith_cutSize (h : Recording offsets p)
    (ht : AtCursor p.activeFile ⟨pre ++ tail, pre.length⟩) (hne : tail ≠ [])
    (hlt : tail.length < 8) :
    ∃ q, Machine.StopsWith (DiveFileProcessor.step R) p (some q) ∧
      q.errorState = .kErrorReadingBlockHeader := by
  have hposition : pre.length < (pre ++ tail).length := by
    have hpos := List.length_pos_of_ne_nil hne
    rw [List.length_append]
    omega
  have hb : Recording offsets { p with phase := .blocks } := { h with }
  have hstore := hb.storeBlockInfo ht
  obtain ⟨hread, heof⟩ := readBlockBuffer_cutSize ht hne hlt
  have hstop : ∃ q, DiveFileProcessor.step R { p with phase := .blocks } = .error (some q) ∧
      q.errorState = .kErrorReadingBlockHeader := by
    have hbuffer : readBlockBuffer p.activeFile =
        (.error .kErrorReadingBlockHeader, (readBlockBuffer p.activeFile).2) := by
      rw [← hread]
    unfold DiveFileProcessor.step
    dsimp only
    rw [if_pos hb.continueDecoding, hstore]
    dsimp only
    rw [hbuffer]
    simp [handleBlockReadError, handleBlockEof, heof]
  obtain ⟨q, hq, herror⟩ := hstop
  exact ⟨q, ⟨_, reaches_blocks ht hposition, hq⟩, herror⟩

/-- **A block cut off behind its size** is recorded, without an error. -/
theorem stopsWith_cutBody (h : Recording offsets p)
    (ht : AtCursor p.activeFile ⟨pre ++ tail, pre.length⟩) (hle : 8 ≤ tail.length)
    (hlt : tail.length < claimedSize tail) (hfits : claimedSize tail < 2 ^ 64) :
    ∃ q, Machine.StopsWith (DiveFileProcessor.step R) p (some q) ∧
      q.errorState = .kErrorNone ∧
      q.diveBlockData = some (recorded (offsets ++ offsetsOf pre.length [tail])) := by
  have hposition : pre.length < (pre ++ tail).length := by
    rw [List.length_append]
    omega
  have hb : Recording offsets { p with phase := .blocks } := { h with }
  have hstore := hb.storeBlockInfo ht
  obtain ⟨hread, heof⟩ := readBlockBuffer_cutBody ht hle hlt hfits
  have hstop : ∃ q, DiveFileProcessor.step R { p with phase := .blocks } = .error (some q) ∧
      q.errorState = .kErrorNone ∧
      q.diveBlockData = some (recorded (offsets ++ offsetsOf pre.length [tail])) := by
    have hbuffer : readBlockBuffer p.activeFile =
        (.error .kErrorReadingBlockData, (readBlockBuffer p.activeFile).2) := by
      rw [← hread]
    unfold DiveFileProcessor.step
    dsimp only
    rw [if_pos hb.continueDecoding, hstore]
    dsimp only
    rw [hbuffer]
    simp [handleBlockReadError, handleBlockEof, heof, offsetsOf, h.errorState]
  obtain ⟨q, hq, herror, hdata⟩ := hstop
  exact ⟨q, ⟨_, reaches_blocks ht hposition, hq⟩, herror, hdata⟩

end Recording

end DiveFileProcessor

/-! ## The parts of a file -/

section Parts

variable {file : DiskFile} {pre : List UInt8} {parts : List (List UInt8)}

theorem length_offsetsOf : ∀ (n : ℕ) (parts : List (List UInt8)),
    (offsetsOf n parts).length = parts.length
  | _, [] => rfl
  | n, part :: parts => congrArg (· + 1) (length_offsetsOf (n + part.length) parts)

theorem offsetsOf_append : ∀ (n : ℕ) (parts parts' : List (List UInt8)),
    offsetsOf n (parts ++ parts') = offsetsOf n parts ++ offsetsOf (n + parts.flatten.length) parts'
  | _, [], _ => rfl
  | n, part :: parts, parts' => by
    rw [List.cons_append, offsetsOf, offsetsOf_append, offsetsOf, List.flatten_cons,
      List.length_append, List.cons_append, Nat.add_assoc]

theorem endOffset_offsetsOf (h : file.bytes = pre ++ parts.flatten) :
    endOffset file (offsetsOf pre.length parts) = pre.length := by
  have hlt := file.length_lt
  have hlen := congrArg List.length h
  rw [List.length_append] at hlen
  cases parts with
  | nil => exact hlen
  | cons part parts =>
    show (UInt64.ofNat pre.length).toNat = _
    rw [UInt64.toNat_ofNat', Nat.mod_eq_of_lt (by omega)]

theorem parsed_offsetsOf (h : file.bytes = pre ++ parts.flatten) :
    Parsed file (offsetsOf pre.length parts) := by
  induction parts generalizing pre with
  | nil => exact ⟨List.Pairwise.nil, fun o ho => absurd ho List.not_mem_nil⟩
  | cons part parts ih =>
    have hlt := file.length_lt
    have hlen := congrArg List.length h
    rw [List.length_append, List.flatten_cons, List.length_append] at hlen
    have hrest : file.bytes = pre ++ part ++ parts.flatten := by
      rw [h, List.flatten_cons, List.append_assoc]
    have ih' := ih hrest
    have hhead := endOffset_offsetsOf hrest
    rw [List.length_append] at ih' hhead
    have hstart : (UInt64.ofNat pre.length).toNat = pre.length := by
      rw [UInt64.toNat_ofNat', Nat.mod_eq_of_lt (by omega)]
    constructor
    · rw [offsetsOf, List.pairwise_cons]
      refine ⟨fun o ho => ?_, ih'.nondecreasing⟩
      -- the next offset is the least of the rest
      generalize offsetsOf (pre.length + part.length) parts = offsets at *
      cases offsets with
      | nil => exact absurd ho List.not_mem_nil
      | cons o' offsets =>
        have hnext : o'.toNat = pre.length + part.length := hhead
        have hle : o' ≤ o := by
          rcases List.mem_cons.mp ho with rfl | ho
          · exact UInt64.le_refl o
          · exact (List.pairwise_cons.mp ih'.nondecreasing).1 o ho
        rw [UInt64.le_iff_toNat_le] at hle ⊢
        omega
    · intro o ho
      rcases List.mem_cons.mp ho with rfl | ho
      · rw [hstart]
        omega
      · exact ih'.inFile o ho

/-- The bytes of a block. -/
def DiskFile.contentOf (file : DiskFile) (block : DiveOriginalBlock) : List UInt8 :=
  (file.bytes.drop block.offset.toNat).take block.size.toNat

/-- **The blocks with their sizes** are the parts of the file. -/
theorem contentOf_sizedBlocks (h : file.bytes = pre ++ parts.flatten) :
    (sizedBlocks file (offsetsOf pre.length parts)).map file.contentOf = parts := by
  induction parts generalizing pre with
  | nil => rfl
  | cons part parts ih =>
    have hlt := file.length_lt
    have hlen := congrArg List.length h
    rw [List.length_append, List.flatten_cons, List.length_append] at hlen
    have hrest : file.bytes = pre ++ part ++ parts.flatten := by
      rw [h, List.flatten_cons, List.append_assoc]
    have ih' := ih hrest
    have hhead := endOffset_offsetsOf hrest
    have hsized := toNat_sized (parsed_offsetsOf h)
    rw [List.length_append] at ih' hhead
    rw [hhead] at hsized
    have hstart : (UInt64.ofNat pre.length).toNat = pre.length := by
      rw [UInt64.toNat_ofNat', Nat.mod_eq_of_lt (by omega)]
    rw [offsetsOf, sizedBlocks, List.map_cons, ih', hhead]
    congr 1
    unfold DiskFile.contentOf
    dsimp only
    rw [hsized, hstart, Nat.add_sub_cancel_left, hrest, List.append_assoc, List.drop_left,
      List.take_left]

end Parts

/-! ## `LoadCaptureFile` -/

/-- `LoadCaptureFile` of the file succeeds, and the block data is `d`. -/
def Loads (R : Replay) (file : DiskFile) (d : DiveBlockData) : Prop :=
  ∃ p q blockData, initialized R file.bytes = .ok p ∧
    Machine.StopsWith (step R) (p.setDiveBlockData {}) (some q) ∧ q.errorState = .kErrorNone ∧
    q.diveBlockData = some blockData ∧
    blockData.finalizeOriginalBlocksMapSizes file.size = (true, d)

/-- The block data has the parts of the file as its blocks, behind a header. -/
structure HasBlocks (file : DiskFile) (header : List UInt8) (parts : List (List UInt8))
    (d : DiveBlockData) : Prop where
  bytes : file.bytes = header ++ parts.flatten
  headerBlock : file.contentOf d.originalHeaderBlock = header
  blocks : d.originalBlocksMap.map file.contentOf = parts
  finalized : Dive.finalized file (offsetsOf header.length parts) = (true, d)

section Loading

variable {R : Replay} {h : GfxrHeader} {file : DiskFile} {blocks : List GfxrBlock}
  {tail header : List UInt8} {parts : List (List UInt8)} {d : DiveBlockData}

theorem finalize_recorded (file : DiskFile) (offsets : List UInt64) :
    (recorded offsets).finalizeOriginalBlocksMapSizes file.size = finalized file offsets := by
  have hadd := addAll_eq offsets {} rfl
  have hadd' : addAll 0 offsets {} = recorded offsets := hadd
  rw [finalized, hadd']

theorem HasBlocks.of_finalized (hbytes : file.bytes = header ++ parts.flatten) (hne : parts ≠ []) :
    ∃ d, (recorded (offsetsOf header.length parts)).finalizeOriginalBlocksMapSizes file.size =
      (true, d) ∧ HasBlocks file header parts d := by
  have hoffsets : offsetsOf header.length parts ≠ [] := by
    obtain ⟨part, parts, rfl⟩ := List.exists_cons_of_ne_nil hne
    exact List.cons_ne_nil _ _
  have heq := finalized_eq (parsed_offsetsOf hbytes) hoffsets
  refine ⟨_, (finalize_recorded file _).trans heq, hbytes, ?_, contentOf_sizedBlocks hbytes, heq⟩
  have hlt := file.length_lt
  have hlen := congrArg List.length hbytes
  rw [List.length_append] at hlen
  unfold DiskFile.contentOf
  dsimp only
  rw [endOffset_offsetsOf hbytes, UInt64.toNat_zero, List.drop_zero, UInt64.toNat_ofNat',
    Nat.mod_eq_of_lt (by omega), hbytes, List.take_left]

theorem length_le_blockBytes : ∀ blocks : List GfxrBlock,
    blocks.length ≤ (blockBytes blocks).length
  | [] => Nat.le_refl 0
  | b :: bs => by
    have hle := length_le_blockBytes bs
    have hk : kBlockHeaderSize = 12 := rfl
    rw [blockBytes_cons, List.length_append, b.length_bytes, List.length_cons]
    omega

theorem flatten_map_bytes (blocks : List GfxrBlock) :
    (blocks.map GfxrBlock.bytes).flatten = blockBytes blocks := rfl

/-- **The blocks of a file** are recorded from the start. -/
theorem recording_blocks (hs : h.Supported R) (hplain : ∀ b ∈ blocks, Plain (parsed R b))
    (hfile : file.bytes = h.bytes ++ blockBytes blocks ++ tail) :
    ∃ p q, initialized R file.bytes = .ok p ∧
      Machine.Reaches (step R) (p.setDiveBlockData {}) q ∧
      Recording (offsetsOf h.bytes.length (blocks.map GfxrBlock.bytes)) q ∧
      AtCursor q.activeFile ⟨h.bytes ++ blockBytes blocks ++ tail,
        (h.bytes ++ blockBytes blocks).length⟩ := by
  obtain ⟨s, hp, ht⟩ := h.initialized_bytes hs (blockBytes blocks ++ tail)
  rw [← List.append_assoc] at hp ht
  have hlt : ([] : List UInt64).length + blocks.length < 2 ^ 63 := by
    have hle := length_le_blockBytes blocks
    have hlen := congrArg List.length hfile
    have hsize := file.length_lt
    rw [List.length_append, List.length_append] at hlen
    rw [List.length_nil]
    omega
  have hstart : Recording [] (DiveFileProcessor.setDiveBlockData
      { activeFile := s, captureUsesFrameMarkers := 1 ≤ h.version } {}) :=
    ⟨rfl, rfl, rfl, rfl, rfl, Nat.le_refl 0⟩
  obtain ⟨q, hreach, hq, hqt⟩ := hstart.reaches_recorded hlt hplain ht
  rw [List.nil_append] at hq
  rw [hfile]
  exact ⟨_, q, hp, hreach, hq, hqt⟩

theorem exists_loads (hs : h.Supported R) (hne : blocks ≠ [])
    (hplain : ∀ b ∈ blocks, Plain (parsed R b))
    (hfile : file.bytes = h.bytes ++ blockBytes blocks) :
    ∃ d, Loads R file d ∧ (HasBlocks file h.bytes (blocks.map GfxrBlock.bytes) d ∨
      HasBlocks file h.bytes (blocks.map GfxrBlock.bytes ++ [[]]) d) := by
  have hfile' : file.bytes = h.bytes ++ blockBytes blocks ++ [] := by rw [hfile, List.append_nil]
  obtain ⟨p, q, hp, hreach, hq, ht⟩ := recording_blocks hs hplain hfile'
  rw [List.append_nil] at ht
  obtain ⟨r, last, hstop, herror, hlast, hdata⟩ := hq.stopsWith_end ht
  have hlen : (h.bytes ++ blockBytes blocks).length =
      h.bytes.length + (blocks.map GfxrBlock.bytes).flatten.length := by
    rw [List.length_append, flatten_map_bytes]
  rw [hlen, ← offsetsOf_append] at hdata
  have hflat : last.flatten = [] := by
    rcases hlast with rfl | rfl <;> rfl
  have hbytes : file.bytes = h.bytes ++ (blocks.map GfxrBlock.bytes ++ last).flatten := by
    rw [hfile, List.flatten_append, hflat, List.append_nil, flatten_map_bytes]
  have hparts : blocks.map GfxrBlock.bytes ++ last ≠ [] := by
    intro hnil
    exact hne (List.map_eq_nil_iff.mp (List.append_eq_nil_iff.mp hnil).1)
  obtain ⟨d, hfinal, hd⟩ := HasBlocks.of_finalized hbytes hparts
  refine ⟨d, ⟨p, r, _, hp, hreach.stopsWith hstop, herror, hdata, hfinal⟩, ?_⟩
  rcases hlast with rfl | rfl
  · rw [List.append_nil] at hd
    exact Or.inl hd
  · exact Or.inr hd

theorem HasBlocks.exists_last
    (hd : HasBlocks file header parts d ∨ HasBlocks file header (parts ++ [[]]) d) :
    ∃ last, HasBlocks file header (parts ++ last) d ∧ (last = [] ∨ last = [[]]) := by
  rcases hd with hd | hd
  · refine ⟨[], ?_, Or.inl rfl⟩
    rwa [List.append_nil]
  · exact ⟨[[]], hd, Or.inr rfl⟩

/-- **A file of blocks is loaded** with its blocks, one after the other. An empty block may stand at
its end, as the end of the file is not always noticed with the last block. -/
theorem loads_blocks (hs : h.Supported R) (hne : blocks ≠ [])
    (hplain : ∀ b ∈ blocks, Plain (parsed R b))
    (hfile : file.bytes = h.bytes ++ blockBytes blocks) :
    ∃ d last, Loads R file d ∧ HasBlocks file h.bytes (blocks.map GfxrBlock.bytes ++ last) d ∧
      (last = [] ∨ last = [[]]) := by
  obtain ⟨d, hload, hd⟩ := exists_loads hs hne hplain hfile
  obtain ⟨last, hlast⟩ := HasBlocks.exists_last hd
  exact ⟨d, last, hload, hlast⟩

/-- The blocks of the capture of one call. -/
def oneCallBlocks : List GfxrBlock :=
  oneCall.stateEnd :: oneCall.frame ++ [oneCall.frameEnd]

def oneCallFile : DiskFile := ⟨oneCall.header.bytes ++ blockBytes oneCallBlocks, by decide⟩

theorem loads_oneCallFile : ∃ d last, Loads plainReplay oneCallFile d ∧
    HasBlocks oneCallFile oneCall.header.bytes (oneCallBlocks.map GfxrBlock.bytes ++ last) d ∧
      (last = [] ∨ last = [[]]) :=
  loads_blocks oneCall.supported (by decide) (by decide +kernel) rfl

/-- The first bytes of a frame end marker. -/
def cutMarker : List UInt8 := (markerBlock 1 2 1).bytes.take 14

def cutFile : DiskFile :=
  ⟨oneCall.header.bytes ++ blockBytes oneCallBlocks ++ cutMarker, by decide⟩

end Loading

end Dive
