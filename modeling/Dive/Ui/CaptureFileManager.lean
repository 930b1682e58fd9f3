import Dive.Capture.Load
import Dive.Lib.Monitor

/-!
# The capture file manager

* `LoadFileRequest`, `LoadFileResult`: a request to load a file, and what is reported for it.
* `loadFileImpl`: the load on the worker thread, with what it leaves in the data core.
* `State`, `next`: the calls on the UI thread, the jobs of the worker, and the events of their ends.
* `Entry`: what happens, in a log.
-/

namespace Dive.CaptureFileManager

open DiveCapture (LoadResult)

/-! ## Requests -/

/-- `LoadFileResult::Status`. -/
inductive Status
  | kSuccess
  | kUnknown
  | kFileIoError
  | kCorruptData
  | kVersionError
  | kParseFailure
  | kFileNotFound
  | kUnsupportedFile
  | kGfxaAssetMissing
  deriving DecidableEq

/-- `LoadFileResult::FileType`. -/
inductive FileType
  | kUnknown
  | kCorrelatedFiles
  | kRdFile
  | kGfxrFile
  deriving DecidableEq

/-- The components that are loaded. -/
structure ComponentFilePaths where
  gfxr : String := ""
  gfxa : String := ""
  pm4Rd : String := ""
  deriving DecidableEq

/-- A request; `id` is the number of the call of `LoadFile`. -/
structure LoadFileRequest where
  id : ℕ
  reference : String
  components : ComponentFilePaths
  deriving DecidableEq

structure LoadFileResult where
  status : Status := .kUnknown
  fileType : FileType := .kUnknown
  request : LoadFileRequest
  deriving DecidableEq

def toLoadFileStatus : LoadResult → Status
  | .kSuccess => .kSuccess
  | .kFileIoError => .kFileIoError
  | .kCorruptData => .kCorruptData
  | .kVersionError => .kVersionError

def loadFileFailed (status : Status) (request : LoadFileRequest) : LoadFileResult :=
  { status, request }

/-! ## The load -/

/-- What a load meets: the files that exist, how the data core loads one and whether it can be
parsed. -/
structure Files where
  exist : String → Bool
  load : FileType → String → LoadResult
  parse : FileType → Bool

/-- The events in the capture metadata of the data core are those of a request. -/
abbrev Metadata : Type := Option ℕ

/-- The statistics are those of the events of a request; without events they are the empty ones. -/
abbrev CaptureStats : Type := Option ℕ

/-- The type of the files that are found. -/
def fileTypeOf (foundGfxrFile foundRdFile : Bool) : FileType :=
  match foundGfxrFile, foundRdFile with
  | true, true => .kCorrelatedFiles
  | true, false => .kGfxrFile
  | false, true => .kRdFile
  | false, false => .kUnknown

/-- The metadata after a load by the data core, which clears them first; a GFXR file alone has none,
and leaves those that are there. -/
def metadataAfter (metadata : Metadata) (request : LoadFileRequest) :
    FileType → LoadResult → Metadata
  | .kUnknown, _ => metadata
  | .kGfxrFile, _ => metadata
  | _, .kSuccess => some request.id
  | _, _ => none

/-- `LoadFileImpl`, in the worker. -/
def loadFileImpl (files : Files) (metadata : Metadata) (request : LoadFileRequest) :
    Metadata × LoadFileResult :=
  let components := request.components
  let foundGfxrFile := components.gfxr != "" && files.exist components.gfxr
  let foundRdFile := components.pm4Rd != "" && files.exist components.pm4Rd
  let assetFileExists := components.gfxa != "" && files.exist components.gfxa
  if foundGfxrFile && !assetFileExists then
    (metadata, loadFileFailed .kGfxaAssetMissing request)
  else
    let fileType := fileTypeOf foundGfxrFile foundRdFile
    let file := if foundGfxrFile then components.gfxr else components.pm4Rd
    match fileType with
    | .kUnknown =>
      if files.exist request.reference then (metadata, loadFileFailed .kUnsupportedFile request)
      else (metadata, loadFileFailed .kFileNotFound request)
    | fileType =>
      let loadRes := files.load fileType file
      let metadata := metadataAfter metadata request fileType loadRes
      if loadRes ≠ .kSuccess then (metadata, loadFileFailed (toLoadFileStatus loadRes) request)
      else if files.parse fileType then
        (metadata, { status := .kSuccess, fileType, request })
      else (metadata, loadFileFailed .kParseFailure request)

/-! ## The manager -/

/-- A functor that is invoked on the worker. -/
inductive Job
  | loadFile (request : LoadFileRequest)
  | gatherTraceStats (context : Option ℕ)
  deriving DecidableEq

/-- A signal of the worker, on its way to the UI thread. -/
inductive Event
  | loadFileDone (result : LoadFileResult)
  | gatherTraceStatsDone
  deriving DecidableEq

/-- What has happened. -/
inductive Entry
  /-- A call of `LoadFile`. -/
  | requested (id : ℕ)
  /-- A gathering has ended; it has no statistics if it was cut short. -/
  | gathered (stats : CaptureStats)
  /-- `LoadFileDone` has come. -/
  | completed (result : LoadFileResult)
  /-- `FileLoadingFinished`. -/
  | finished (result : LoadFileResult)
  /-- `TraceStatsUpdated`. -/
  | updated
  /-- `FillCaptureStatsResult` has returned. -/
  | returned (stats : CaptureStats)
  deriving DecidableEq

/-- The manager after `Start`, its worker, and the events on their way. -/
structure State where
  loadingInProgress : Bool := false
  working : Bool := false
  pendingRequest : Option LoadFileRequest := none
  /-- A context is numbered by the request for which it was created. -/
  captureFileContext : Option ℕ := none
  cancelled : List ℕ := []
  captureStats : CaptureStats := none
  /-- The jobs that wait for the worker, and the one that runs. -/
  queue : List Job := []
  running : Option Job := none
  metadata : Metadata := none
  events : List Event := []
  requests : ℕ := 0
  /-- The latest entry comes first. -/
  log : List Entry := []

namespace State

variable (s : State)

/-- The jobs that are queued or running. -/
def jobs : List Job := s.running.toList ++ s.queue

def record (entry : Entry) : State := { s with log := entry :: s.log }

/-- The worker is given the request. -/
def startLoadFile : State :=
  match s.working, s.pendingRequest with
  | false, some request =>
    { s with
      pendingRequest := none
      working := true
      queue := s.queue ++ [.loadFile request] }
  | _, _ => s

/-- `LoadFile`, up to `StartLoadFile`: what depends on the current capture is cancelled. -/
def replaceRequest (reference : String) (components : ComponentFilePaths) : State :=
  { s with
    loadingInProgress := true
    pendingRequest := some ⟨s.requests, reference, components⟩
    cancelled := s.captureFileContext.toList ++ s.cancelled
    captureFileContext := some s.requests
    requests := s.requests + 1
    log := .requested s.requests :: s.log }

def loadFile (reference : String) (components : ComponentFilePaths) : State :=
  (s.replaceRequest reference components).startLoadFile

def gatherTraceStats : State :=
  if s.working then s
  else
    { s with
      working := true
      queue := s.queue ++ [.gatherTraceStats s.captureFileContext] }

def fillCaptureStatsResult : State :=
  if s.working then s.record (.returned none)
  else s.record (.returned s.captureStats)

def onGatherTraceStatsDone : State :=
  match s.pendingRequest with
  | none => { s with working := false }.record .updated
  | some _ => { s with working := false }.startLoadFile

/-- A newer request is started. -/
def onLoadFileDone (loadedFile : LoadFileResult) : State :=
  match s.pendingRequest with
  | some _ => ({ s with working := false }.record (.completed loadedFile)).startLoadFile
  | none =>
    (({ s with working := false, loadingInProgress := false }).record (.completed loadedFile)).record
      (.finished loadedFile)

variable {s} {request : LoadFileRequest} {loadedFile : LoadFileResult}

theorem onGatherTraceStatsDone_none (h : s.pendingRequest = none) :
    s.onGatherTraceStatsDone = { s with working := false }.record .updated := by
  rw [onGatherTraceStatsDone, h]

theorem onGatherTraceStatsDone_some (h : s.pendingRequest = some request) :
    s.onGatherTraceStatsDone = { s with working := false }.startLoadFile := by
  rw [onGatherTraceStatsDone, h]

theorem onLoadFileDone_none (h : s.pendingRequest = none) : s.onLoadFileDone loadedFile =
    (({ s with working := false, loadingInProgress := false }).record
      (.completed loadedFile)).record (.finished loadedFile) := by
  rw [onLoadFileDone, h]

theorem onLoadFileDone_some (h : s.pendingRequest = some request) : s.onLoadFileDone loadedFile =
    ({ s with working := false }.record (.completed loadedFile)).startLoadFile := by
  rw [onLoadFileDone, h]

end State

/-- A call on the UI thread, the delivery of an event to it, or a step of the worker. -/
inductive Step
  | loadFile (reference : String) (components : ComponentFilePaths)
  | gatherTraceStats
  | fillCaptureStatsResult
  | deliver
  | startJob
  | finishLoad (files : Files)
  /-- The gathering ends; a context that is cancelled may be noticed in time. -/
  | finishGather (noticed : Bool)

/-- The step; `none` where it cannot be taken. -/
def next (s : State) : Step → Option State
  | .loadFile reference components => some (s.loadFile reference components)
  | .gatherTraceStats => some s.gatherTraceStats
  | .fillCaptureStatsResult => some s.fillCaptureStatsResult
  | .deliver =>
    match s.events with
    | [] => none
    | .gatherTraceStatsDone :: events => some { s with events }.onGatherTraceStatsDone
    | .loadFileDone result :: events => some ({ s with events }.onLoadFileDone result)
  | .startJob =>
    match s.running, s.queue with
    | none, job :: queue => some { s with running := some job, queue }
    | _, _ => none
  | .finishLoad files =>
    match s.running with
    | some (.loadFile request) =>
      let (metadata, result) := loadFileImpl files s.metadata request
      some { s with running := none, metadata, events := s.events ++ [.loadFileDone result] }
    | _ => none
  | .finishGather noticed =>
    match s.running with
    | some (.gatherTraceStats context) =>
      if noticed ∧ ¬ context.any (· ∈ s.cancelled) then none
      else
        let captureStats := if noticed then none else s.metadata
        some { s with
          running := none
          captureStats
          events := s.events ++ [.gatherTraceStatsDone]
          log := .gathered captureStats :: s.log }
    | _ => none

end Dive.CaptureFileManager
