import Dive.Gfxr.FileProcessor

/-!
# Looping a frame of a `.gfxr` file

* `Quiet`, `QuietSection`: blocks that end neither a frame nor the set-up; `dispatches`: what the
  decoders get for them.
* `AtLoopStart`: the processor behind the state end marker; `iteration`: one run through the frame.
* **`replay_loops`**: a frame is replayed as many times as asked, always with the same block
  indices, and captured the first time; **`replay_forever`**: with a count of 0, without an end.
-/

namespace Dive

/-! ## The PM4 capture -/

namespace DivePM4Capture

def start (c : DivePM4Capture) : DivePM4Capture :=
  if c.isInitialized then { c with isCapturing := true } else c

def stop (c : DivePM4Capture) : DivePM4Capture :=
  if c.isInitialized then { c with isCapturing := false } else c

def startEvents (c : DivePM4Capture) : List ReplayEvent :=
  if c.isInitialized && !c.isCapturing then [.startCapture] else []

def stopEvents (c : DivePM4Capture) : List ReplayEvent :=
  if c.isInitialized && c.isCapturing then [.stopCapture] else []

theorem stop_stop (c : DivePM4Capture) : c.stop.stop = c.stop := by
  unfold stop
  cases h : c.isInitialized <;> simp [h]

end DivePM4Capture

namespace DiveFileProcessor

variable {p q : DiveFileProcessor} {R : Replay} {b stateEnd frameEnd : GfxrBlock}
  {blocks setup frame rest : List GfxrBlock} {pre post : List UInt8} {block : ParsedBlock}

theorem tryStartCapture_eq : p.tryStartCapture = { p with
    events := p.events ++ p.pm4Capture.startEvents
    pm4Capture := p.pm4Capture.start } := by
  obtain ⟨i, c, h⟩ : ∃ i c, p.pm4Capture = ⟨i, c⟩ := ⟨_, _, rfl⟩
  unfold tryStartCapture DivePM4Capture.startEvents DivePM4Capture.start
  rw [h]
  cases i <;> cases c <;> simp [← h]

theorem tryStopCapture_eq : p.tryStopCapture = { p with
    events := p.events ++ p.pm4Capture.stopEvents
    pm4Capture := p.pm4Capture.stop } := by
  obtain ⟨i, c, h⟩ : ∃ i c, p.pm4Capture = ⟨i, c⟩ := ⟨_, _, rfl⟩
  unfold tryStopCapture DivePM4Capture.stopEvents DivePM4Capture.stop
  rw [h]
  cases i <;> cases c <;> simp [← h]

/-! ## Quiet blocks -/

/-- The block ends neither a frame nor the set-up, and is valid. -/
def Quiet (usesFrameMarkers : Bool) : ParsedBlock → Prop
  | .functionCall callId _ _ | .methodCall callId _ _ _ =>
    usesFrameMarkers = true ∨ callId ∉ frameDelimiterCalls
  | .metaData _ | .stateBeginMarker _ | .annotationArgs _ _ _ | .unknown => True
  | .executeBlocksFromFile _ | .frameEndMarker _ | .stateEndMarker _ | .invalid _ => False

/-- The annotation says that the capture has frame markers. -/
def announces (R : Replay) : ParsedBlock → Bool
  | .annotationArgs type label data =>
    type = kJson && label = kAnnotationLabelOperation && R.codecs.supportsFrameMarkers data
  | _ => false

/-- What the processor knows about frame markers behind the blocks. -/
def usesAfter (R : Replay) : Bool → List GfxrBlock → Bool
  | uses, [] => uses
  | uses, b :: bs => usesAfter R (uses || announces R (parsed R b)) bs

/-- All blocks are quiet, one after the other. -/
def QuietSection (R : Replay) : Bool → List GfxrBlock → Prop
  | _, [] => True
  | uses, b :: bs =>
    Quiet uses (parsed R b) ∧ QuietSection R (uses || announces R (parsed R b)) bs

/-- The dispatch of a block with index `i`. -/
def dispatchOf (i : UInt64) (block : ParsedBlock) : List ReplayEvent :=
  if block = .unknown then [] else [.dispatch i block]

/-- The dispatches of the blocks, the first of which has index `i`. -/
def dispatches (R : Replay) : UInt64 → List GfxrBlock → List ReplayEvent
  | _, [] => []
  | i, b :: bs => dispatchOf i (parsed R b) ++ dispatches R (i + 1) bs

theorem usesAfter_true : ∀ blocks : List GfxrBlock, usesAfter R true blocks = true
  | [] => rfl
  | _ :: bs => usesAfter_true bs

theorem Quiet.of_uses {uses : Bool} (h : Quiet uses block) : Quiet true block := by
  cases block with
  | functionCall => exact Or.inl rfl
  | methodCall => exact Or.inl rfl
  | _ => exact h

theorem QuietSection.of_uses : ∀ {blocks : List GfxrBlock} {uses : Bool},
    QuietSection R uses blocks → QuietSection R true blocks
  | [], _, _ => trivial
  | _ :: _, _, h => ⟨h.1.of_uses, h.2.of_uses⟩

theorem processAnnotation_eq {type : UInt32} {label data : List UInt8} :
    processAnnotation p R type label data = { p with
      captureUsesFrameMarkers :=
        p.captureUsesFrameMarkers || announces R (.annotationArgs type label data) } := by
  unfold processAnnotation announces
  split_ifs with hop
  · obtain ⟨rfl, rfl, hsup⟩ := hop
    simp [hsup]
  · have hno : (decide (type = kJson) && decide (label = kAnnotationLabelOperation) &&
        R.codecs.supportsFrameMarkers data) = false := by
      rw [← Bool.not_eq_true]
      intro hyes
      simp only [Bool.and_eq_true, decide_eq_true_eq] at hyes
      exact hop ⟨hyes.1.1, hyes.1.2, hyes.2⟩
    simp [hno]

/-- **A quiet block** is dispatched, and the processor goes on with the next one. -/
theorem processBlock_quiet (h : Quiet p.captureUsesFrameMarkers block) :
    p.processBlock R block = some { p with
      captureUsesFrameMarkers := p.captureUsesFrameMarkers || announces R block
      events := p.events ++ dispatchOf p.blockIndex block
      blockIndex := p.blockIndex + 1 } := by
  have hcall : ∀ callId, (p.captureUsesFrameMarkers = true ∨ callId ∉ frameDelimiterCalls) →
      p.isFrameDelimiter callId = false := by
    intro callId hc
    unfold isFrameDelimiter
    rcases hc with hc | hc
    · rw [hc]
      rfl
    · rw [decide_eq_false hc, Bool.and_false]
  cases block with
  | functionCall callId threadId data =>
    simp [processBlock, visit, hcall callId h, dispatch, dispatchOf, announces]
  | methodCall callId objectId threadId data =>
    simp [processBlock, visit, hcall callId h, dispatch, dispatchOf, announces]
  | metaData args => simp [processBlock, visit, dispatch, dispatchOf, announces]
  | stateBeginMarker n => simp [processBlock, visit, dispatch, dispatchOf, announces]
  | unknown => simp [processBlock, dispatchOf, announces]
  | annotationArgs type label data =>
    simp [processBlock, visit, processAnnotation_eq, dispatch, dispatchOf]
  | executeBlocksFromFile => exact h.elim
  | frameEndMarker => exact h.elim
  | stateEndMarker => exact h.elim
  | invalid => exact h.elim

/-- The decoders are not done before the file is. -/
def NeverComplete (R : Replay) : Prop := ∀ i, R.decodersComplete i = false

theorem continueDecoding_of_neverComplete (hR : NeverComplete R) :
    p.continueDecoding R = true := by
  unfold continueDecoding
  rw [hR]
  exact Bool.or_true _

/-- The processor behind a quiet section, with the stream in state `s`. -/
def passed (R : Replay) (p : DiveFileProcessor) (s : FStreamFileInputStream)
    (blocks : List GfxrBlock) : DiveFileProcessor :=
  { p with
    activeFile := s
    captureUsesFrameMarkers := usesAfter R p.captureUsesFrameMarkers blocks
    events := p.events ++ dispatches R p.blockIndex blocks
    blockIndex := p.blockIndex + UInt64.ofNat blocks.length }

/-- The blocks as they stand in the file. -/
def blockBytes (blocks : List GfxrBlock) : List UInt8 := blocks.flatMap GfxrBlock.bytes

theorem blockBytes_cons : blockBytes (b :: blocks) = b.bytes ++ blockBytes blocks := rfl

section

variable (hR : NeverComplete R)

include hR

theorem step_replay (hp : p.phase = .blocks) (hd : p.diveBlockData = none)
    (h : AtCursor p.activeFile ⟨pre ++ b.bytes ++ post, pre.length⟩) :
    ∃ s, AtCursor s ⟨pre ++ b.bytes ++ post, (pre ++ b.bytes).length⟩ ∧
      ∀ q, { p with activeFile := s }.processBlock R (parsed R b) = some q →
        step R p = .ok q := by
  obtain ⟨s, hs, hstep⟩ := step_block hp (continueDecoding_of_neverComplete hR) h
  refine ⟨s, hs, fun q hq => ?_⟩
  have hstore : p.storeBlockInfo = p := by
    unfold storeBlockInfo
    rw [hd]
  rw [hstep, hstore, hq]

/-- **A quiet section** is dispatched block by block. -/
theorem reaches_section : ∀ {blocks : List GfxrBlock} {p : DiveFileProcessor}
    {pre : List UInt8}, p.phase = .blocks → p.diveBlockData = none →
    QuietSection R p.captureUsesFrameMarkers blocks →
    AtCursor p.activeFile ⟨pre ++ blockBytes blocks ++ post, pre.length⟩ →
    ∃ s, AtCursor s ⟨pre ++ blockBytes blocks ++ post, (pre ++ blockBytes blocks).length⟩ ∧
      Machine.Reaches (step R) p (p.passed R s blocks) := by
  intro blocks
  induction blocks with
  | nil =>
    intro p pre _ _ _ h
    refine ⟨p.activeFile, ?_, ?_⟩
    · simpa [blockBytes] using h
    · have hzero : p.blockIndex + UInt64.ofNat 0 = p.blockIndex := UInt64.add_zero _
      simp only [passed, usesAfter, dispatches, List.append_nil, List.length_nil, hzero]
      exact Machine.Reaches.refl _
  | cons b bs ih =>
    intro p pre hp hd hq h
    have hsplit : pre ++ blockBytes (b :: bs) ++ post =
        pre ++ b.bytes ++ (blockBytes bs ++ post) := by
      rw [blockBytes_cons]
      simp only [List.append_assoc]
    have hsplit' : pre ++ blockBytes (b :: bs) ++ post =
        pre ++ b.bytes ++ blockBytes bs ++ post := by
      rw [hsplit, List.append_assoc (pre ++ b.bytes)]
    rw [hsplit] at h
    obtain ⟨s, hs, hstep⟩ := step_replay hR hp hd h
    rw [← hsplit, hsplit'] at hs
    have hfirst := hstep _ (processBlock_quiet (p := { p with activeFile := s }) hq.1)
    obtain ⟨t, ht, hreach⟩ := ih (p := { p with
      activeFile := s
      captureUsesFrameMarkers := p.captureUsesFrameMarkers || announces R (parsed R b)
      events := p.events ++ dispatchOf p.blockIndex (parsed R b)
      blockIndex := p.blockIndex + 1 }) hp hd hq.2 hs
    refine ⟨t, ?_, ?_⟩
    · rw [hsplit', blockBytes_cons, ← List.append_assoc pre]
      exact ht
    · have hindex : p.blockIndex + UInt64.ofNat (b :: bs).length =
          p.blockIndex + 1 + UInt64.ofNat bs.length := by
        rw [List.length_cons, UInt64.ofNat_add, UInt64.add_comm (UInt64.ofNat bs.length),
          ← UInt64.add_assoc]
        rfl
      rw [passed, hindex, usesAfter, dispatches, ← List.append_assoc]
      exact hreach.head hfirst

end

/-! ## The end of the file -/

theorem length_blockBytes_pos (hne : blocks ≠ []) : 0 < (blockBytes blocks).length := by
  obtain ⟨b, bs, rfl⟩ := List.exists_cons_of_ne_nil hne
  rw [blockBytes_cons, List.length_append, b.length_bytes, kBlockHeaderSize]
  omega

theorem step_frames_of_lt {bytes : List UInt8} {position : ℕ} (hp : p.phase = .frames)
    (h : AtCursor p.activeFile ⟨bytes, position⟩) (hlt : position < bytes.length) :
    step R p = .ok { p with phase := .blocks } := by
  have heof : ¬ p.activeFile.isEof = true := by
    intro heof
    exact absurd (h.le_of_isEof heof) (not_le.mpr hlt)
  rw [step_frames hp, if_neg heof]

/-- **The last blocks of a file** are dispatched, and the processing stops without an error. -/
theorem stopsWith_rest (hR : NeverComplete R) (hp : p.phase = .frames)
    (hd : p.diveBlockData = none) (he : p.errorState = .kErrorNone)
    (hq : QuietSection R p.captureUsesFrameMarkers rest)
    (h : AtCursor p.activeFile ⟨pre ++ blockBytes rest, pre.length⟩) :
    ∃ q, Machine.StopsWith (step R) p (some q) ∧ q.errorState = .kErrorNone ∧
      q.events = p.events ++ dispatches R p.blockIndex rest := by
  by_cases heof : p.activeFile.isEof = true
  · have hend := h.le_of_isEof heof
    have hrest : rest = [] := by
      by_contra hne
      have hpos := length_blockBytes_pos hne
      dsimp only at hend
      rw [List.length_append] at hend
      omega
    refine ⟨{ p with errorState := .kErrorNone }, ⟨p, Machine.Reaches.refl p, ?_⟩, rfl, ?_⟩
    · rw [step_frames hp, if_pos heof]
    · rw [hrest, dispatches, List.append_nil]
  · have hfirst : step R p = .ok { p with phase := .blocks } := by
      rw [step_frames hp, if_neg heof]
    have htracks : AtCursor p.activeFile ⟨pre ++ blockBytes rest ++ [], pre.length⟩ := by
      rw [List.append_nil]
      exact h
    obtain ⟨s, hs, hsection⟩ :=
      reaches_section hR (p := { p with phase := .blocks }) rfl hd hq htracks
    rw [List.append_nil] at hs
    obtain ⟨t, hstop⟩ := step_end (R := R) (p := passed R { p with phase := .blocks } s rest) rfl
      (continueDecoding_of_neverComplete hR) hs
    refine ⟨_, ⟨_, hsection.head hfirst, hstop⟩, ?_, ?_⟩
    · unfold storeBlockInfo passed
      rw [hd]
      exact he
    · unfold storeBlockInfo passed
      rw [hd]

/-! ## The end of a frame -/

/-- **A state end marker** starts the capture, and is where the frame starts. -/
theorem processBlock_stateEnd {n : UInt64} :
    p.processBlock R (.stateEndMarker n) = some { p with
      firstFrame := n
      stateEndMarkerFileOffset := p.activeFile.fileTell
      stateEndMarkerBlockIndex := p.blockIndex
      pm4Capture := p.pm4Capture.start
      events := p.events ++ p.pm4Capture.startEvents ++ [.dispatch p.blockIndex (.stateEndMarker n)]
      blockIndex := p.blockIndex + 1 } := by
  simp [processBlock, visit, processStateEndMarker, tryStartCapture_eq, dispatch]

/-- The frame is not run again. -/
def lastLoop (p : DiveFileProcessor) : Bool :=
  0 < p.loopSingleFrameCount ∧ p.loopSingleFrameCount ≤ p.currentFrameNumber + 1

theorem lastLoop_eq {m : ℕ}
    (h : p.loopSingleFrameCount.toNat = p.currentFrameNumber.toNat + m + 1) :
    p.lastLoop = decide (m = 0) := by
  have hlt := p.loopSingleFrameCount.toNat_lt
  have hnext : (p.currentFrameNumber + 1).toNat = p.currentFrameNumber.toNat + 1 := by
    rw [UInt64.toNat_add, UInt64.toNat_one, Nat.mod_eq_of_lt (by omega)]
  unfold lastLoop
  rw [decide_eq_decide, UInt64.lt_iff_toNat_lt, UInt64.le_iff_toNat_le, hnext, UInt64.toNat_zero]
  omega

/-- **A frame end marker** stops the capture, and goes back to the state end marker unless this was
the last loop. -/
theorem processBlock_frameEnd {n : UInt64} (hpending : p.pendingCaptureUsesFrameMarkers = false)
    (hframe : p.captureUsesFrameMarkers = true ∨ p.currentFrameNumber = 0) :
    p.processBlock R (.frameEndMarker n) = some { p with
      phase := .frames
      currentFrameNumber := p.currentFrameNumber + 1
      captureUsesFrameMarkers := true
      pm4Capture := p.pm4Capture.stop
      events := p.events ++ p.pm4Capture.stopEvents ++ [.dispatch p.blockIndex (.frameEndMarker n)]
      blockIndex := (if p.lastLoop then p.blockIndex else p.stateEndMarkerBlockIndex) + 1
      activeFile := if p.lastLoop then p.activeFile
        else (p.activeFile.fileSeek p.stateEndMarkerFileOffset .fileSeekSet).2 } := by
  have hvisit : p.processFrameEndMarker = { p with
      pendingCaptureUsesFrameMarkers := !p.captureUsesFrameMarkers
      pm4Capture := p.pm4Capture.stop
      events := p.events ++ p.pm4Capture.stopEvents
      blockIndex := if p.lastLoop then p.blockIndex else p.stateEndMarkerBlockIndex
      activeFile := if p.lastLoop then p.activeFile
        else (p.activeFile.fileSeek p.stateEndMarkerFileOffset .fileSeekSet).2 } := by
    unfold processFrameEndMarker
    simp only [tryStopCapture_eq, hpending, Bool.false_or]
    unfold lastLoop
    by_cases hlast : 0 < p.loopSingleFrameCount ∧ p.loopSingleFrameCount ≤ p.currentFrameNumber + 1
    · rw [if_pos hlast, decide_eq_true hlast]
      rfl
    · rw [if_neg hlast, decide_eq_false hlast]
      rfl
  unfold processBlock visit
  simp only [hvisit, Option.map_some, dispatch, if_true]
  unfold updateEndFrameState
  cases hu : p.captureUsesFrameMarkers with
  | true => simp [hpending]
  | false =>
    have hzero : p.currentFrameNumber = 0 := hframe.resolve_left (by rw [hu]; decide)
    simp [hpending, hzero]

end DiveFileProcessor

/-! ## Captures of a single frame -/

open DiveFileProcessor

/-- A capture of one frame: the set-up, the state end marker, the frame with its end marker, and
what stands behind it. -/
structure FrameCapture (R : Replay) where
  header : GfxrHeader
  setup : List GfxrBlock
  stateEnd : GfxrBlock
  frame : List GfxrBlock
  frameEnd : GfxrBlock
  rest : List GfxrBlock
  supported : header.Supported R
  quiet_setup : QuietSection R (1 ≤ header.version) setup
  stateEnd_parsed : ∃ n, parsed R stateEnd = .stateEndMarker n
  quiet_frame : QuietSection R (usesAfter R (1 ≤ header.version) setup) frame
  frameEnd_parsed : ∃ n, parsed R frameEnd = .frameEndMarker n
  quiet_rest : QuietSection R true rest

namespace FrameCapture

variable {R : Replay} (F : FrameCapture R)

/-- The file up to the frame. -/
def opening : List UInt8 := F.header.bytes ++ blockBytes F.setup ++ F.stateEnd.bytes

def bytes : List UInt8 :=
  F.opening ++ blockBytes F.frame ++ F.frameEnd.bytes ++ blockBytes F.rest

/-- The index of the state end marker. -/
def loopIndex : UInt64 := UInt64.ofNat F.setup.length

/-- What is seen of the set-up, with the capture of the replay in state `c` before it. -/
def openingEvents (c : DivePM4Capture) : List ReplayEvent :=
  dispatches R 0 F.setup ++ c.startEvents ++ [.dispatch F.loopIndex (parsed R F.stateEnd)]

/-- What is seen of one run through the frame. -/
def iteration (c : DivePM4Capture) : List ReplayEvent :=
  dispatches R (F.loopIndex + 1) F.frame ++ c.stopEvents ++
    [.dispatch (F.loopIndex + 1 + UInt64.ofNat F.frame.length) (parsed R F.frameEnd)]

/-- What is seen of a run through the frame, and of `m` more. -/
def loopEvents (c : DivePM4Capture) (m : ℕ) : List ReplayEvent :=
  F.openingEvents c ++ F.iteration c.start ++
    (List.replicate m (F.iteration c.start.stop)).flatten

/-- What is seen of the blocks behind the frame. -/
def restEvents : List ReplayEvent :=
  dispatches R (F.loopIndex + 1 + UInt64.ofNat F.frame.length + 1) F.rest

/-- The processor behind the header, with the stream in state `s`. -/
def opened (s : FStreamFileInputStream) : DiveFileProcessor :=
  { activeFile := s, captureUsesFrameMarkers := 1 ≤ F.header.version }

/-- The processor behind the end marker, with the stream in state `s`. -/
def ended (p : DiveFileProcessor) (s : FStreamFileInputStream) : DiveFileProcessor :=
  { p with
    phase := .frames
    currentFrameNumber := p.currentFrameNumber + 1
    captureUsesFrameMarkers := true
    pm4Capture := p.pm4Capture.stop
    events := p.events ++ F.iteration p.pm4Capture
    blockIndex := (if p.lastLoop then F.loopIndex + 1 + UInt64.ofNat F.frame.length
      else F.loopIndex) + 1
    activeFile := if p.lastLoop then s else (s.fileSeek F.opening.length .fileSeekSet).2 }

/-- The processor when a run through the frame starts, with `p.phase` still to be set. -/
structure AtLoopStart (p : DiveFileProcessor) : Prop where
  tracks : AtCursor p.activeFile ⟨F.bytes, F.opening.length⟩
  stateEndMarkerFileOffset : p.stateEndMarkerFileOffset = F.opening.length
  stateEndMarkerBlockIndex : p.stateEndMarkerBlockIndex = F.loopIndex
  blockIndex : p.blockIndex = F.loopIndex + 1
  errorState : p.errorState = .kErrorNone
  diveBlockData : p.diveBlockData = none
  pending : p.pendingCaptureUsesFrameMarkers = false
  firstLoop : p.captureUsesFrameMarkers = true ∨ p.currentFrameNumber = 0
  quiet : QuietSection R p.captureUsesFrameMarkers F.frame

variable {F} {p : DiveFileProcessor} (hR : NeverComplete R)

include hR

/-- **A frame is run** up to its end marker. -/
theorem reaches_frameEnd (h : F.AtLoopStart p) (hp : p.phase = .blocks) :
    ∃ s, AtCursor s ⟨F.bytes, (F.opening ++ blockBytes F.frame ++ F.frameEnd.bytes).length⟩ ∧
      Machine.Reaches (step R) p (F.ended p s) := by
  have hbytes : F.bytes =
      F.opening ++ blockBytes F.frame ++ (F.frameEnd.bytes ++ blockBytes F.rest) := by
    rw [bytes]
    simp only [List.append_assoc]
  have htracks := h.tracks
  rw [hbytes] at htracks
  obtain ⟨s, hs, hsection⟩ := reaches_section hR hp h.diveBlockData h.quiet htracks
  rw [← List.append_assoc] at hs
  obtain ⟨t, ht, hstep⟩ := step_replay (b := F.frameEnd) hR
    (p := p.passed R s F.frame) hp h.diveBlockData hs
  refine ⟨t, ht, hsection.tail (hstep _ ?_)⟩
  obtain ⟨n, hn⟩ := F.frameEnd_parsed
  have hfirst : usesAfter R p.captureUsesFrameMarkers F.frame = true ∨
      p.currentFrameNumber = 0 := by
    refine h.firstLoop.imp_left fun huses => ?_
    rw [huses, usesAfter_true]
  rw [hn, processBlock_frameEnd (p := { p.passed R s F.frame with activeFile := t })
    h.pending hfirst]
  simp only [passed, h.blockIndex, h.stateEndMarkerBlockIndex, h.stateEndMarkerFileOffset,
    ended, iteration, hn, List.append_assoc]
  rfl

omit hR

theorem length_opening_lt : F.opening.length < F.bytes.length := by
  have hend := F.frameEnd.length_bytes
  unfold bytes
  simp only [List.length_append]
  rw [hend, kBlockHeaderSize]
  omega

theorem AtLoopStart.step (h : F.AtLoopStart p) (hp : p.phase = .frames) :
    DiveFileProcessor.step R p = .ok { p with phase := .blocks } :=
  step_frames_of_lt hp h.tracks F.length_opening_lt

theorem AtLoopStart.setPhase (h : F.AtLoopStart p) (phase : ProcessingPhase) :
    F.AtLoopStart { p with phase := phase } := { h with }

include hR

/-- **One loop**: the frame is run, and starts again. -/
theorem loops_back (h : F.AtLoopStart p) (hp : p.phase = .blocks) (hlast : p.lastLoop = false) :
    ∃ s, Machine.Reaches (step R) p (F.ended p s) ∧ F.AtLoopStart (F.ended p s) := by
  obtain ⟨s, hs, hreach⟩ := reaches_frameEnd hR h hp
  refine ⟨s, hreach, ?_⟩
  have hseek := (hs.fileSeek F.opening.length .fileSeekSet).2 (Int.natCast_nonneg _)
  constructor
  case tracks =>
    unfold ended
    rw [hlast]
    exact hseek
  case blockIndex =>
    unfold ended
    rw [hlast]
    rfl
  case stateEndMarkerFileOffset => exact h.stateEndMarkerFileOffset
  case stateEndMarkerBlockIndex => exact h.stateEndMarkerBlockIndex
  case errorState => exact h.errorState
  case diveBlockData => exact h.diveBlockData
  case pending => exact h.pending
  case firstLoop => exact Or.inl rfl
  case quiet => exact h.quiet.of_uses

/-- **The last loop**: the frame is run, and then the rest of the file. -/
theorem leaves (h : F.AtLoopStart p) (hp : p.phase = .blocks) (hlast : p.lastLoop = true) :
    ∃ q, Machine.StopsWith (step R) p (some q) ∧ q.errorState = .kErrorNone ∧
      q.events = p.events ++ F.iteration p.pm4Capture ++ F.restEvents := by
  obtain ⟨s, hs, hreach⟩ := reaches_frameEnd hR h hp
  have hfile : (F.ended p s).activeFile = s := if_pos hlast
  have hindex : (F.ended p s).blockIndex =
      F.loopIndex + 1 + UInt64.ofNat F.frame.length + 1 := by
    unfold ended
    rw [hlast]
    rfl
  rw [← hfile] at hs
  have hrest := stopsWith_rest (p := F.ended p s) hR rfl h.diveBlockData h.errorState
    F.quiet_rest hs
  rw [hindex] at hrest
  obtain ⟨q, ⟨t, ht, hstop⟩, hq, hevents⟩ := hrest
  exact ⟨q, ⟨t, hreach.trans ht, hstop⟩, hq, hevents⟩

/-- **The loops that are left**, by induction on their number. -/
theorem replays : ∀ (m : ℕ) {p : DiveFileProcessor}, F.AtLoopStart p → p.phase = .blocks →
    p.loopSingleFrameCount.toNat = p.currentFrameNumber.toNat + m + 1 →
    ∃ q, Machine.StopsWith (step R) p (some q) ∧ q.errorState = .kErrorNone ∧
      q.events = p.events ++ F.iteration p.pm4Capture ++
        (List.replicate m (F.iteration p.pm4Capture.stop)).flatten ++ F.restEvents := by
  intro m
  induction m with
  | zero =>
    intro p h hp hleft
    have hlast := lastLoop_eq (m := 0) hleft
    obtain ⟨q, hstop, hq, hevents⟩ := leaves hR h hp (hlast.trans (decide_eq_true rfl))
    refine ⟨q, hstop, hq, ?_⟩
    rw [hevents, List.replicate_zero, List.flatten_nil, List.append_nil]
  | succ m ih =>
    intro p h hp hleft
    have hlast := lastLoop_eq (m := m + 1) hleft
    obtain ⟨s, hreach, hs⟩ :=
      loops_back hR h hp (hlast.trans (decide_eq_false (Nat.succ_ne_zero m)))
    have hnumber : p.loopSingleFrameCount.toNat =
        (p.currentFrameNumber + 1).toNat + m + 1 := by
      have hlt := p.loopSingleFrameCount.toNat_lt
      rw [UInt64.toNat_add, UInt64.toNat_one]
      omega
    obtain ⟨q, hstop, hq, hevents⟩ := ih (hs.setPhase .blocks) rfl hnumber
    refine ⟨q, hreach.stopsWith (hstop.head (hs.step rfl)), hq, ?_⟩
    rw [hevents, List.replicate_succ, List.flatten_cons]
    show p.events ++ F.iteration p.pm4Capture ++ F.iteration p.pm4Capture.stop ++
      (List.replicate m (F.iteration p.pm4Capture.stop.stop)).flatten ++ F.restEvents = _
    rw [DivePM4Capture.stop_stop]
    simp only [List.append_assoc]

/-- **The set-up is run** once, up to the frame. -/
theorem reaches_loopStart (F : FrameCapture R) (n : UInt64) (c : DivePM4Capture) :
    ∃ s q, initialized R F.bytes = .ok (F.opened s) ∧
      Machine.Reaches (step R) { F.opened s with loopSingleFrameCount := n, pm4Capture := c } q ∧
      F.AtLoopStart q ∧ q.phase = .blocks ∧ q.currentFrameNumber = 0 ∧
      q.loopSingleFrameCount = n ∧ q.pm4Capture = c.start ∧ q.events = F.openingEvents c := by
  obtain ⟨tail, hbytes⟩ : ∃ tail, F.bytes =
      F.header.bytes ++ blockBytes F.setup ++ F.stateEnd.bytes ++ tail := by
    refine ⟨blockBytes F.frame ++ F.frameEnd.bytes ++ blockBytes F.rest, ?_⟩
    unfold bytes opening
    simp only [List.append_assoc]
  have hbytes' : F.bytes =
      F.header.bytes ++ (blockBytes F.setup ++ (F.stateEnd.bytes ++ tail)) := by
    rw [hbytes]
    simp only [List.append_assoc]
  obtain ⟨s, hp, hs⟩ := F.header.initialized_bytes F.supported
    (blockBytes F.setup ++ (F.stateEnd.bytes ++ tail))
  rw [← hbytes'] at hp hs
  have hlt : F.header.bytes.length < F.bytes.length := by
    have hstart := F.length_opening_lt
    rw [opening, List.length_append, List.length_append] at hstart
    omega
  have hfirst := step_frames_of_lt (R := R)
    (p := { F.opened s with loopSingleFrameCount := n, pm4Capture := c }) rfl hs hlt
  rw [hbytes', ← List.append_assoc] at hs
  obtain ⟨t, ht, hsection⟩ := reaches_section hR rfl rfl F.quiet_setup hs
    (p := { F.opened s with loopSingleFrameCount := n, pm4Capture := c, phase := .blocks })
  rw [← List.append_assoc] at ht
  obtain ⟨u, hu, hstep⟩ := step_replay (b := F.stateEnd) hR rfl rfl ht
    (p := passed R { F.opened s with
      loopSingleFrameCount := n, pm4Capture := c, phase := .blocks } t F.setup)
  obtain ⟨m, hm⟩ := F.stateEnd_parsed
  rw [hm] at hstep
  have hend := hstep _ processBlock_stateEnd
  rw [← hbytes] at hu
  refine ⟨s, _, hp, (hsection.tail hend).head hfirst, ?_, rfl, rfl, rfl, rfl, ?_⟩
  · constructor
    case tracks => exact hu
    case stateEndMarkerFileOffset => exact hu.fileTell
    case stateEndMarkerBlockIndex => exact UInt64.zero_add _
    case blockIndex => exact congrArg (· + 1) (UInt64.zero_add _)
    case errorState => rfl
    case diveBlockData => rfl
    case pending => rfl
    case firstLoop => exact Or.inr rfl
    case quiet => exact F.quiet_frame
  · have hindex : (0 : UInt64) + UInt64.ofNat F.setup.length = F.loopIndex := UInt64.zero_add _
    rw [openingEvents, hm, ← hindex]
    rfl

/-- **Replaying a frame** `n` times: the file is processed without an error. -/
theorem replay_loops (F : FrameCapture R) {n : UInt64} (hn : 0 < n) (c : DivePM4Capture) :
    ∃ s q, initialized R F.bytes = .ok (F.opened s) ∧
      Machine.StopsWith (step R) { F.opened s with loopSingleFrameCount := n, pm4Capture := c }
        (some q) ∧
      q.errorState = .kErrorNone ∧
      q.events = F.loopEvents c (n.toNat - 1) ++ F.restEvents := by
  obtain ⟨s, q, hp, hreach, hq, hphase, hnumber, hcount, hcapture, hevents⟩ :=
    reaches_loopStart hR F n c
  have hleft : q.loopSingleFrameCount.toNat =
      q.currentFrameNumber.toNat + (n.toNat - 1) + 1 := by
    have hpos : 0 < n.toNat := UInt64.lt_iff_toNat_lt.mp hn
    rw [hcount, hnumber, UInt64.toNat_zero]
    omega
  obtain ⟨r, hstop, hr, hall⟩ := replays hR (n.toNat - 1) hq hphase hleft
  rw [hevents, hcapture] at hall
  exact ⟨s, r, hp, hreach.stopsWith hstop, hr, hall⟩

/-- Decoders that are never done, without a compressor. -/
def plainReplay : Replay where
  codecs := ⟨fun _ _ => none, fun _ _ => .unknown, fun _ => false⟩
  hasCompressor _ := false
  decodersComplete _ := false

/-- A block with a marker. -/
def markerBlock (type markerType : UInt32) (frameNumber : UInt64) : GfxrBlock where
  type := type
  data := dwordBytes markerType ++ qwordBytes frameNumber
  length_lt := (by decide : 12 < 2 ^ 63)

/-- A capture of one call, in a file with frame markers. -/
def oneCall : FrameCapture plainReplay where
  header := ⟨0, 1, [], by decide⟩
  setup := []
  stateEnd := markerBlock 2 2 1
  frame := [⟨4, dwordBytes 0x1046 ++ qwordBytes 7, by decide⟩]
  frameEnd := markerBlock 1 2 1
  rest := []
  supported := ⟨by decide, Or.inl rfl⟩
  quiet_setup := trivial
  stateEnd_parsed := ⟨1, by decide +kernel⟩
  quiet_frame := by
    have hcall : parsed plainReplay ⟨4, dwordBytes 0x1046 ++ qwordBytes 7, by decide⟩ =
        .functionCall 0x1046 7 [] := by decide +kernel
    refine ⟨?_, trivial⟩
    rw [hcall]
    exact Or.inl rfl
  frameEnd_parsed := ⟨1, by decide +kernel⟩
  quiet_rest := trivial

omit hR in
/-- The call is replayed twice, and captured once. -/
theorem replay_loops_oneCall :
    (∃ s q, initialized plainReplay oneCall.bytes = .ok (oneCall.opened s) ∧
      Machine.StopsWith (step plainReplay)
        { oneCall.opened s with loopSingleFrameCount := 2, pm4Capture := ⟨true, false⟩ } (some q) ∧
      q.errorState = .kErrorNone ∧
      q.events = oneCall.loopEvents ⟨true, false⟩ 1 ++ oneCall.restEvents) ∧
    oneCall.loopEvents ⟨true, false⟩ 1 ++ oneCall.restEvents =
      [.startCapture, .dispatch 0 (.stateEndMarker 1),
        .dispatch 1 (.functionCall 0x1046 7 []), .stopCapture, .dispatch 2 (.frameEndMarker 1),
        .dispatch 1 (.functionCall 0x1046 7 []), .dispatch 2 (.frameEndMarker 1)] :=
  ⟨replay_loops (fun _ => rfl) oneCall (by decide) ⟨true, false⟩, by decide +kernel⟩

/-- **Replaying a frame without a count** never ends, and runs the frame again and again. -/
theorem replay_forever (F : FrameCapture R) (c : DivePM4Capture) :
    ∃ s, initialized R F.bytes = .ok (F.opened s) ∧
      ¬ Machine.Halts (step R) { F.opened s with loopSingleFrameCount := 0, pm4Capture := c } ∧
      ∀ m, ∃ q, Machine.Reaches (step R)
        { F.opened s with loopSingleFrameCount := 0, pm4Capture := c } q ∧
          q.events = F.loopEvents c m := by
  obtain ⟨s, q, hp, hreach, hq, hphase, -, hcount, hcapture, hevents⟩ :=
    reaches_loopStart hR F 0 c
  have hloops : ∀ {p : DiveFileProcessor}, p.loopSingleFrameCount = 0 → p.lastLoop = false := by
    intro p hzero
    refine decide_eq_false fun h => ?_
    rw [hzero] at h
    exact absurd h.1 (by decide)
  -- the processor in front of the frame, again and again
  let P := fun p : DiveFileProcessor =>
    F.AtLoopStart p ∧ p.phase = .frames ∧ p.loopSingleFrameCount = 0
  have hreturn : ∀ p, P p → ∃ t u, step R p = .ok t ∧ Machine.Reaches (step R) t u ∧ P u ∧
      u.pm4Capture = p.pm4Capture.stop ∧ u.events = p.events ++ F.iteration p.pm4Capture := by
    rintro p ⟨hstart, hframes, hzero⟩
    obtain ⟨t, ht, hback⟩ := loops_back hR (hstart.setPhase .blocks) rfl (hloops hzero)
    exact ⟨_, _, hstart.step hframes, ht, ⟨hback, rfl, hzero⟩, rfl, rfl⟩
  obtain ⟨t, ht, hback⟩ := loops_back hR hq hphase (hloops hcount)
  have hfirst : P (F.ended q t) := ⟨hback, rfl, hcount⟩
  refine ⟨s, hp, fun hhalts => ?_, fun m => ?_⟩
  · refine Machine.not_halts_of_return (P := P) (fun p h => ?_) hfirst
      (hhalts.of_reaches (hreach.trans ht))
    obtain ⟨u, v, hu, hv, hpv, -⟩ := hreturn p h
    exact ⟨u, v, hu, hv, hpv⟩
  · suffices key : ∃ r, Machine.Reaches (step R) (F.ended q t) r ∧ P r ∧
        r.pm4Capture = c.start.stop ∧ r.events = F.loopEvents c m by
      obtain ⟨r, hr, -, -, hall⟩ := key
      exact ⟨r, (hreach.trans ht).trans hr, hall⟩
    induction m with
    | zero =>
      refine ⟨F.ended q t, Machine.Reaches.refl _, hfirst,
        congrArg DivePM4Capture.stop hcapture, ?_⟩
      show q.events ++ F.iteration q.pm4Capture = _
      rw [hevents, hcapture, loopEvents, List.replicate_zero, List.flatten_nil, List.append_nil]
    | succ m ih =>
      obtain ⟨r, hr, hpr, hstop, hall⟩ := ih
      obtain ⟨u, v, hu, hv, hpv, hcap, hev⟩ := hreturn r hpr
      refine ⟨v, (hr.tail hu).trans hv, hpv, ?_, ?_⟩
      · rw [hcap, hstop, DivePM4Capture.stop_stop]
      · rw [hev, hall, hstop, loopEvents, loopEvents, List.replicate_succ', List.flatten_append,
          List.flatten_singleton, List.append_assoc (F.openingEvents c ++ _)]

omit hR in
/-- The call is replayed again and again. -/
theorem replay_forever_oneCall :
    ∃ s, initialized plainReplay oneCall.bytes = .ok (oneCall.opened s) ∧
      ¬ Machine.Halts (step plainReplay)
        { oneCall.opened s with loopSingleFrameCount := 0, pm4Capture := ⟨true, false⟩ } ∧
      ∀ m, ∃ q, Machine.Reaches (step plainReplay)
        { oneCall.opened s with loopSingleFrameCount := 0, pm4Capture := ⟨true, false⟩ } q ∧
          q.events = oneCall.loopEvents ⟨true, false⟩ m :=
  replay_forever (fun _ => rfl) oneCall ⟨true, false⟩

end FrameCapture

end Dive
