import Dive.Lib.Monitor
import Dive.Lib.Text

/-!
# The trace manager of the capture service

* `Libwrap`: the capture library, which the manager switches on and off and tells file names.
* `Call`: what a thread is about to do in `TriggerTrace`, `OnNewFrame` or `WaitForTraceDone`. A
  section under the lock is one step, and so is every access to a member outside of it.
* `History`: the signals, the traces and the returns of a run.
* `State.next`: the next step of a call; `step`: a call begins, or takes its next step.
-/

namespace Dive.AndroidTraceManager

abbrev FilePath := List Char

/-- `kDeviceDownloadPath`. -/
def kDeviceDownloadPath : FilePath := "/data/local/tmp/dive".toList

/-- What `absl::StrCat` gives for a number. -/
def strCat (n : UInt32) : List Char := Text.toText n.toNat

/-- `%s-%04u.rd`. -/
def rdPath (path : FilePath) (n : UInt32) : FilePath :=
  path ++ '-' :: List.replicate (4 - (strCat n).length) '0' ++ strCat n ++ ".rd".toList

/-- `atoi`, as `%u` shows it. -/
def atoi (l : List Char) : UInt32 :=
  let (negative, l) := Text.sign (l.dropWhile Text.isSpace)
  UInt32.ofInt (Text.negateIf negative (Nat.ofDigitChars 10 (l.takeWhile Char.isDigit) 0 : ℤ))

/-! ## The capture library -/

/-- `capture_state`, the environment variables `TESTNAME` and `TESTNUM`, and the files that have
been collected. -/
structure Libwrap where
  captureState : Bool := false
  testName : Option (List Char) := none
  testNum : Option (List Char) := none
  collected : List FilePath := []

namespace Libwrap

variable (w : Libwrap)

/-- The file that a trace is collected in. -/
def capturePath : FilePath :=
  rdPath (w.testName.getD (kDeviceDownloadPath ++ "/trace-frame".toList))
    (atoi (w.testNum.getD "0".toList))

def setCaptureState (state : Bool) : Libwrap :=
  { w with
    collected := if !state && w.captureState then w.collected ++ [w.capturePath] else w.collected
    captureState := state }

def setCaptureName (name frameNum : List Char) : Libwrap :=
  { w with testName := some name, testNum := some frameNum }

end Libwrap

/-! ## Calls -/

inductive TraceState
  | idle
  | triggered
  | tracing
  | finished
  | unknown
  deriving DecidableEq

/-- The index of a call, in the order in which the calls begin. -/
abbrev CallId := ℕ

/-- The next step of a call, with its local variables. -/
inductive Call
  /-- `TriggerTrace` reads `m_frame_num`. -/
  | triggerTrace
  /-- `TraceByFrame`. -/
  | frameNumber
  | framePath (num : UInt32)
  | frameSetPath (num : UInt32) (fullPath : FilePath)
  | frameSetName (num : UInt32) (fullPath : FilePath)
  | frameArm (fullPath : FilePath)
  /-- `TraceByDuration`. -/
  | durationCount
  | durationNumber
  | durationPath (num : UInt32)
  | durationSetName (num : UInt32) (fullPath : FilePath)
  | durationArm (fullPath : FilePath)
  | durationSetPath (fullPath : FilePath)
  | durationStart
  | durationStop
  /-- `OnNewFrame`: the counter, and the section under the lock. -/
  | newFrame
  | frameSection
  /-- `WaitForTraceDone`; `returned` are the triggers that had returned before it. -/
  | waitForTraceDone (returned : List CallId)
  | done
  deriving DecidableEq

inductive CallKind
  | triggerTrace
  | onNewFrame
  | waitForTraceDone
  deriving DecidableEq

/-! ## What has happened -/

/-- The trigger that moves the manager to `Triggered`, and its file name. -/
structure Arming where
  trigger : CallId
  fullPath : FilePath
  deriving DecidableEq

/-- A trace, from the signal that switches the capture on. -/
structure Trace where
  arming : Option Arming
  byFrame : Bool
  frames : ℕ := 0
  finished : Bool := false
  collectedAs : Option FilePath := none
  deriving DecidableEq

/-- A wait that has returned: the triggers that had returned before it began, and those whose traces
had finished when it returned. -/
structure WaitReturn where
  before : List CallId
  finished : List CallId
  deriving DecidableEq

structure History where
  signals : List Bool := []
  arming : Option Arming := none
  traces : List Trace := []
  returned : List CallId := []
  waits : List WaitReturn := []
  deriving DecidableEq

namespace Trace

variable (t : Trace)

/-- A new frame, while the trace is on. -/
def newFrame : Trace := if t.finished then t else { t with frames := t.frames + 1 }

/-- The signal that switches the capture off. -/
def finish (path : Option FilePath) : Trace :=
  if t.finished then t else { t with finished := true, collectedAs := path }

end Trace

namespace History

variable (h : History)

def captureOn (byFrame : Bool) : History :=
  { h with
    signals := h.signals ++ [true]
    traces := h.traces ++ [{ arming := h.arming, byFrame := byFrame }]
    arming := none }

def captureOff (path : Option FilePath) : History :=
  { h with signals := h.signals ++ [false], traces := h.traces.modifyLast (·.finish path) }

/-- The triggers whose traces have finished. -/
def finishedTriggers : List CallId :=
  (h.traces.filter (·.finished)).filterMap fun t => t.arming.map (·.trigger)

end History

/-! ## The manager -/

/-- `AndroidTraceManager`, the capture library, and the calls that have begun. -/
structure State where
  state : TraceState := .idle
  traceFilePath : FilePath := []
  frameNum : UInt32 := 0
  traceStartFrame : UInt32 := 0
  traceNum : UInt32 := 0
  wrap : Libwrap := {}
  calls : List Call := []
  history : History := {}

namespace State

variable (s : State)

/-- The signals to the library; the file of the trace is the one that the library collects. -/
def setCaptureOn (byFrame : Bool) : State :=
  { s with wrap := s.wrap.setCaptureState true, history := s.history.captureOn byFrame }

def setCaptureOff : State :=
  { s with
    wrap := s.wrap.setCaptureState false
    history := s.history.captureOff
      (if s.wrap.captureState then some s.wrap.capturePath else none) }

def goTo (i : CallId) (call : Call) : State := { s with calls := s.calls.set i call }

/-- `m_state = TraceState::Triggered`. -/
def arm (i : CallId) (fullPath : FilePath) : State :=
  { s with
    state := .triggered
    history := { s.history with
      arming := if s.state = .triggered then s.history.arming else some ⟨i, fullPath⟩ } }

/-- `TriggerTrace` returns. -/
def returnTrigger (i : CallId) : State :=
  { s with
    calls := s.calls.set i .done
    history := { s.history with returned := s.history.returned ++ [i] } }

def shouldStartTrace : Bool := s.state = .triggered

def shouldStopTrace (numFrameToTrace : UInt32) : Bool :=
  s.state = .tracing && numFrameToTrace ≤ s.frameNum - s.traceStartFrame

def onTraceStart : State :=
  { s.setCaptureOn true with state := .tracing, traceStartFrame := s.frameNum }

def onTraceStop : State := { s.setCaptureOff with state := .finished }

/-- `m_frame_num++`. -/
def countFrame : State :=
  { s with
    frameNum := s.frameNum + 1
    history := { s.history with traces := s.history.traces.modifyLast Trace.newFrame } }

/-- The section of `OnNewFrame` under the lock. -/
def onNewFrame (numFrameToTrace : UInt32) : State :=
  if s.shouldStartTrace then s.onTraceStart
  else if s.shouldStopTrace numFrameToTrace then s.onTraceStop
  else s

/-- `path` in `TraceByFrame` and in `TraceByDuration`. -/
def framePrefix : FilePath := kDeviceDownloadPath ++ "/trace-frame".toList

def durationPrefix : FilePath := kDeviceDownloadPath ++ "/trace".toList

/-- The next step of a call; a wait takes none before the trace is finished. -/
def next (numFrameToTrace : UInt32) (i : CallId) : Call → Option State
  | .triggerTrace => some (s.goTo i (if 0 < s.frameNum then .frameNumber else .durationCount))
  | .frameNumber => some (s.goTo i (.framePath s.frameNum))
  | .framePath num => some (s.goTo i (.frameSetPath num (rdPath framePrefix s.frameNum)))
  | .frameSetPath num fullPath =>
    some ({ s with traceFilePath := fullPath }.goTo i (.frameSetName num fullPath))
  | .frameSetName num fullPath =>
    some ({ s with wrap := s.wrap.setCaptureName framePrefix (strCat num) }.goTo i
      (.frameArm fullPath))
  | .frameArm fullPath => some ((s.arm i fullPath).returnTrigger i)
  | .durationCount => some ({ s with traceNum := s.traceNum + 1 }.goTo i .durationNumber)
  | .durationNumber => some (s.goTo i (.durationPath s.traceNum))
  | .durationPath num => some (s.goTo i (.durationSetName num (rdPath durationPrefix s.traceNum)))
  | .durationSetName num fullPath =>
    some ({ s with wrap := s.wrap.setCaptureName durationPrefix (strCat num) }.goTo i
      (.durationArm fullPath))
  | .durationArm fullPath => some ((s.arm i fullPath).goTo i (.durationSetPath fullPath))
  | .durationSetPath fullPath =>
    some ({ s with traceFilePath := fullPath }.goTo i .durationStart)
  | .durationStart =>
    some ({ s.setCaptureOn false with state := .tracing }.goTo i .durationStop)
  | .durationStop =>
    some ({ s.setCaptureOff with state := .finished }.returnTrigger i)
  | .newFrame => some (s.countFrame.goTo i .frameSection)
  | .frameSection => some ((s.onNewFrame numFrameToTrace).goTo i .done)
  | .waitForTraceDone returned =>
    if s.state = .finished then
      some { s with
        calls := s.calls.set i .done
        history := { s.history with
          waits := s.history.waits ++ [⟨returned, s.history.finishedTriggers⟩] } }
    else none
  | .done => none

/-- A call that begins. -/
def start : CallKind → Call
  | .triggerTrace => .triggerTrace
  | .onNewFrame => .newFrame
  | .waitForTraceDone => .waitForTraceDone s.history.returned

end State

/-- What happens next: a call begins, or takes a step. -/
inductive Step
  | begin (kind : CallKind)
  | next (i : CallId)
  deriving DecidableEq

def step (numFrameToTrace : UInt32) (s : State) : Step → Option State
  | .begin kind => some { s with calls := s.calls ++ [s.start kind] }
  | .next i => s.calls[i]?.bind (s.next numFrameToTrace i)

/-! ## File names -/

theorem atoi_strCat (n : UInt32) : atoi (strCat n) = n := by
  have hdigits := Text.isDigits_toText n.toNat
  obtain ⟨c, l, heq, hc⟩ := hdigits.eq_cons
  have htake := (Text.takeWhile_isDigit (l := Text.toText n.toNat) (r := []) hdigits.isDigit
    (by simp)).1
  rw [List.append_nil] at htake
  have hsign : Text.sign ((Text.toText n.toNat).dropWhile Text.isSpace) =
      (false, Text.toText n.toNat) := by
    rw [heq]
    exact Text.sign_dropWhile_isSpace hc
  have hvalue : Nat.ofDigitChars 10 (Text.toText n.toNat) 0 = n.toNat :=
    Nat.ofDigitChars_ten_toDigits
  simp only [atoi, strCat, hsign, htake, hvalue, Text.negateIf, Bool.false_eq_true, if_false]
  have hmod : Int.toNat ((n.toNat : ℤ) % 2 ^ 32) = n.toNat := by
    have hlt := n.toNat_lt
    omega
  rw [UInt32.ofInt, hmod, UInt32.ofNat_toNat]

/-- **The library collects a trace under the name that it was told.** -/
theorem capturePath_setCaptureName (w : Libwrap) (name : FilePath) (n : UInt32) :
    (w.setCaptureName name (strCat n)).capturePath = rdPath name n := by
  simp [Libwrap.capturePath, Libwrap.setCaptureName, atoi_strCat]

end Dive.AndroidTraceManager
