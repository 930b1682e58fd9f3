import Dive.Layer.FrameTasks
import Dive.Layer.Recording
import Dive.Lib.Quota
import Mathlib.Algebra.GroupWithZero.Nat

/-!
# The draw-call limit

* `DrawCommand`: the nine draw entry points with their arguments, as they are passed on.
* `DrawLayer`: the configurations and the counter, the maps of the threads, and the draws that the
  driver has been given; `forwardUnlessFiltered`: the two tests of an entry point.
* `DrawLayer.draw`: the entry points; **`draw_spec`**: all of them test, count and forward alike.
* `DrawLayer.passing`: the draws of a sequence of steps that the other filters let through.
* `grants`: what one step of a frame counts and forwards; **`frame_spec`**: the counter and the
  driver at any moment of a frame.
* **`limits_draws`**: the driver is given the first draws of a frame, up to the limit.
-/

namespace Dive.DiveRuntimeLayer

abbrev VkBuffer := ℕ

/-- A draw with the arguments that the application passes, the command buffer apart. -/
inductive DrawCommand
  | draw (vertexCount instanceCount firstVertex firstInstance : UInt32)
  | drawIndexed (indexCount instanceCount firstIndex : UInt32) (vertexOffset : Int32)
      (firstInstance : UInt32)
  | drawIndirect (buffer : VkBuffer) (offset : UInt64) (drawCount stride : UInt32)
  | drawIndexedIndirect (buffer : VkBuffer) (offset : UInt64) (drawCount stride : UInt32)
  | drawIndirectCount (buffer : VkBuffer) (offset : UInt64) (countBuffer : VkBuffer)
      (countBufferOffset : UInt64) (maxDrawCount stride : UInt32)
  | drawIndexedIndirectCount (buffer : VkBuffer) (offset : UInt64) (countBuffer : VkBuffer)
      (countBufferOffset : UInt64) (maxDrawCount stride : UInt32)
  | drawMeshTasksEXT (groupCountX groupCountY groupCountZ : UInt32)
  | drawMeshTasksIndirectEXT (buffer : VkBuffer) (offset : UInt64) (drawCount stride : UInt32)
  | drawMeshTasksIndirectCountEXT (buffer : VkBuffer) (offset : UInt64) (countBuffer : VkBuffer)
      (countBufferOffset : UInt64) (maxDrawCount stride : UInt32)
  deriving DecidableEq

/-- A call of `pfn`, with the thread that makes it. -/
structure ForwardedDraw where
  thread : Thread
  commandBuffer : VkCommandBuffer
  command : DrawCommand
  deriving DecidableEq

/-- A call that changes what the layer knows of pipelines, render passes and command buffers: no
draw, and no frame boundary. -/
def LayerCall.isTracking : LayerCall → Bool
  | .cmdDraw .. | .frameBoundary _ => false
  | _ => true

/-- One atomic step of a thread. -/
inductive LayerStep
  | call (thread : Thread) (call : LayerCall) (tracking : call.isTracking = true)
  | draw (thread : Thread) (commandBuffer : VkCommandBuffer) (command : DrawCommand)
  | handleMessage (request : DrawcallFilterConfig)
  | enqueue (id : ℕ)
  | boundary (thread : Thread)

def LayerStep.isBoundary : LayerStep → Bool
  | .boundary _ => true
  | _ => false

def LayerStep.isDraw : LayerStep → Bool
  | .draw _ _ _ => true
  | _ => false

def sEnableDrawcallLimit : Bool := false
def sEnableDrawcallFilter : Bool := false
def kDrawcallCountLimit : UInt32 := 300
def kVisibilityMaskIndexCount : UInt32 := 42

/-- `DiveRuntimeLayer`, as far as draws go; `driver` lists the draws that have been passed on. -/
structure DrawLayer where
  frames : FrameState := {}
  layer : Layer := {}
  sDrawcallCounter : UInt32 := 0
  driver : List ForwardedDraw := []

namespace DrawLayer

variable (s : DrawLayer)

abbrev config : DrawcallFilterConfig := s.frames.activeFilterConfig

abbrev counter : UInt32 := s.frames.globalDrawcallCounter

/-- `pfn`. -/
def forward (thread : Thread) (cb : VkCommandBuffer) (command : DrawCommand) : DrawLayer :=
  { s with driver := s.driver ++ [⟨thread, cb, command⟩] }

/-- `ShouldFilterDrawCall`, on the maps of the calling thread. -/
def shouldFilterDrawCall (thread : Thread) (cb : VkCommandBuffer) (counts : DrawCall) : Bool :=
  s.config.shouldFilterDrawCall counts
    (((s.layer.threads thread).currentPipelineHasAlpha cb).getD false)
    (((s.layer.threads thread).inFilteredRenderPass cb).getD false)

/-- `CheckAndIncrementDrawcallCount`. -/
def checkAndIncrementDrawcallCount : Bool × DrawLayer :=
  let checked := s.config.checkAndIncrementDrawcallCount s.counter
  (checked.1, { s with frames := { s.frames with globalDrawcallCounter := checked.2 } })

/-- The two tests that an entry point starts with, and what it goes on with. -/
def forwardUnlessFiltered (thread : Thread) (cb : VkCommandBuffer) (counts : DrawCall)
    (goOn : DrawLayer → DrawLayer) : DrawLayer :=
  if s.shouldFilterDrawCall thread cb counts then s
  else
    let checked := s.checkAndIncrementDrawcallCount
    if checked.1 then checked.2 else goOn checked.2

/-! ## The entry points -/

variable (thread : Thread) (cb : VkCommandBuffer)

def cmdDraw (vertexCount instanceCount firstVertex firstInstance : UInt32) : DrawLayer :=
  s.forwardUnlessFiltered thread cb
    { vertexCount := some vertexCount, instanceCount := some instanceCount }
    fun s => s.forward thread cb (.draw vertexCount instanceCount firstVertex firstInstance)

/-- `CmdDrawIndexed` has two more filters, which are compiled in and switched off. -/
def cmdDrawIndexed (indexCount instanceCount firstIndex : UInt32) (vertexOffset : Int32)
    (firstInstance : UInt32) : DrawLayer :=
  s.forwardUnlessFiltered thread cb
    { indexCount := some indexCount, instanceCount := some instanceCount }
    fun s =>
      if sEnableDrawcallFilter && (indexCount == kVisibilityMaskIndexCount ||
          indexCount == kVisibilityMaskIndexCount * 2) then s
      else
        let s := { s with sDrawcallCounter := s.sDrawcallCounter + 1 }
        if sEnableDrawcallLimit && kDrawcallCountLimit < s.sDrawcallCounter then s
        else
          s.forward thread cb
            (.drawIndexed indexCount instanceCount firstIndex vertexOffset firstInstance)

def cmdDrawIndirect (buffer : VkBuffer) (offset : UInt64) (drawCount stride : UInt32) :
    DrawLayer :=
  s.forwardUnlessFiltered thread cb {}
    fun s => s.forward thread cb (.drawIndirect buffer offset drawCount stride)

def cmdDrawIndexedIndirect (buffer : VkBuffer) (offset : UInt64) (drawCount stride : UInt32) :
    DrawLayer :=
  s.forwardUnlessFiltered thread cb {}
    fun s => s.forward thread cb (.drawIndexedIndirect buffer offset drawCount stride)

def cmdDrawIndirectCount (buffer : VkBuffer) (offset : UInt64) (countBuffer : VkBuffer)
    (countBufferOffset : UInt64) (maxDrawCount stride : UInt32) : DrawLayer :=
  s.forwardUnlessFiltered thread cb {} fun s => s.forward thread cb
    (.drawIndirectCount buffer offset countBuffer countBufferOffset maxDrawCount stride)

def cmdDrawIndexedIndirectCount (buffer : VkBuffer) (offset : UInt64) (countBuffer : VkBuffer)
    (countBufferOffset : UInt64) (maxDrawCount stride : UInt32) : DrawLayer :=
  s.forwardUnlessFiltered thread cb {} fun s => s.forward thread cb
    (.drawIndexedIndirectCount buffer offset countBuffer countBufferOffset maxDrawCount stride)

def cmdDrawMeshTasksEXT (groupCountX groupCountY groupCountZ : UInt32) : DrawLayer :=
  s.forwardUnlessFiltered thread cb {}
    fun s => s.forward thread cb (.drawMeshTasksEXT groupCountX groupCountY groupCountZ)

def cmdDrawMeshTasksIndirectEXT (buffer : VkBuffer) (offset : UInt64)
    (drawCount stride : UInt32) : DrawLayer :=
  s.forwardUnlessFiltered thread cb {}
    fun s => s.forward thread cb (.drawMeshTasksIndirectEXT buffer offset drawCount stride)

def cmdDrawMeshTasksIndirectCountEXT (buffer : VkBuffer) (offset : UInt64)
    (countBuffer : VkBuffer) (countBufferOffset : UInt64) (maxDrawCount stride : UInt32) :
    DrawLayer :=
  s.forwardUnlessFiltered thread cb {} fun s => s.forward thread cb
    (.drawMeshTasksIndirectCountEXT buffer offset countBuffer countBufferOffset maxDrawCount
      stride)

/-- The entry point of a draw. -/
def draw : DrawCommand → DrawLayer
  | .draw vertexCount instanceCount firstVertex firstInstance =>
    s.cmdDraw thread cb vertexCount instanceCount firstVertex firstInstance
  | .drawIndexed indexCount instanceCount firstIndex vertexOffset firstInstance =>
    s.cmdDrawIndexed thread cb indexCount instanceCount firstIndex vertexOffset firstInstance
  | .drawIndirect buffer offset drawCount stride =>
    s.cmdDrawIndirect thread cb buffer offset drawCount stride
  | .drawIndexedIndirect buffer offset drawCount stride =>
    s.cmdDrawIndexedIndirect thread cb buffer offset drawCount stride
  | .drawIndirectCount buffer offset countBuffer countBufferOffset maxDrawCount stride =>
    s.cmdDrawIndirectCount thread cb buffer offset countBuffer countBufferOffset maxDrawCount
      stride
  | .drawIndexedIndirectCount buffer offset countBuffer countBufferOffset maxDrawCount stride =>
    s.cmdDrawIndexedIndirectCount thread cb buffer offset countBuffer countBufferOffset
      maxDrawCount stride
  | .drawMeshTasksEXT groupCountX groupCountY groupCountZ =>
    s.cmdDrawMeshTasksEXT thread cb groupCountX groupCountY groupCountZ
  | .drawMeshTasksIndirectEXT buffer offset drawCount stride =>
    s.cmdDrawMeshTasksIndirectEXT thread cb buffer offset drawCount stride
  | .drawMeshTasksIndirectCountEXT buffer offset countBuffer countBufferOffset maxDrawCount
      stride =>
    s.cmdDrawMeshTasksIndirectCountEXT thread cb buffer offset countBuffer countBufferOffset
      maxDrawCount stride

/-! ## Runs -/

/-- The legacy counter starts again with a recording. -/
def legacyCounterAfter : LayerCall → UInt32
  | .beginCommandBuffer _ => 0
  | _ => s.sDrawcallCounter

def step : LayerStep → DrawLayer
  | .call thread call _ =>
    { s with layer := s.layer.step thread call, sDrawcallCounter := s.legacyCounterAfter call }
  | .draw thread cb command => s.draw thread cb command
  | .handleMessage request => { s with frames := s.frames.step (.handleMessage request) }
  | .enqueue id => { s with frames := s.frames.step (.enqueue id) }
  | .boundary thread =>
    let frames := s.frames.step .boundary
    { s with
      frames := frames
      layer := s.layer.step thread (.frameBoundary frames.activeFilterConfig) }

/-- The state after a sequence of steps, of any threads. -/
def after (steps : List LayerStep) : DrawLayer := steps.foldl step {}

end DrawLayer

/-! ## What an entry point does -/

/-- The counts that the entry point of a draw gives to the filters. -/
def DrawCommand.counts : DrawCommand → DrawCall
  | .draw vertexCount instanceCount _ _ =>
    { vertexCount := some vertexCount, instanceCount := some instanceCount }
  | .drawIndexed indexCount instanceCount _ _ _ =>
    { indexCount := some indexCount, instanceCount := some instanceCount }
  | _ => {}

namespace DrawLayer

variable (s : DrawLayer) (thread : Thread) (cb : VkCommandBuffer) (command : DrawCommand)

/-- The draw is over the limit. -/
abbrev isOverLimit : Bool := (s.config.checkAndIncrementDrawcallCount s.counter).1

/-- The draw, with the flags of its command buffer. -/
def filteredDraw (counts : DrawCall) : FilteredDraw where
  call := counts
  hasAlpha := ((s.layer.threads thread).currentPipelineHasAlpha cb).getD false
  inFilteredRenderPass := ((s.layer.threads thread).inFilteredRenderPass cb).getD false

theorem filters_filteredDraw (counts : DrawCall) :
    s.frames.filters (s.filteredDraw thread cb counts) =
      s.shouldFilterDrawCall thread cb counts := rfl

/-- What an entry point does to the layer, if `d` is its call of `pfn`. -/
structure DrawSpec (s s' : DrawLayer) (d : ForwardedDraw) : Prop where
  frames : s'.frames =
    s.frames.draw (s.filteredDraw d.thread d.commandBuffer d.command.counts)
  layer : s'.layer = s.layer
  driver : s'.driver = s.driver ++
    if s.shouldFilterDrawCall d.thread d.commandBuffer d.command.counts || s.isOverLimit then []
    else [d]
  filtered : s.shouldFilterDrawCall d.thread d.commandBuffer d.command.counts → s' = s

theorem drawSpec_forwardUnlessFiltered {counts : DrawCall} {goOn : DrawLayer → DrawLayer}
    (hcounts : command.counts = counts)
    (hframes : ∀ s, (goOn s).frames = s.frames) (hlayer : ∀ s, (goOn s).layer = s.layer)
    (hdriver : ∀ s, (goOn s).driver = s.driver ++ [⟨thread, cb, command⟩]) :
    DrawSpec s (s.forwardUnlessFiltered thread cb counts goOn) ⟨thread, cb, command⟩ := by
  subst hcounts
  unfold forwardUnlessFiltered
  by_cases hfilter : s.shouldFilterDrawCall thread cb command.counts
  · rw [if_pos hfilter]
    refine ⟨?_, rfl, by simp [hfilter], fun _ => rfl⟩
    rw [FrameState.draw, filters_filteredDraw, if_pos hfilter]
  · rw [if_neg hfilter]
    have hframe : s.checkAndIncrementDrawcallCount.2.frames =
        s.frames.draw (s.filteredDraw thread cb command.counts) := by
      rw [FrameState.draw, filters_filteredDraw, if_neg hfilter]
      rfl
    change DrawSpec s (if s.isOverLimit then s.checkAndIncrementDrawcallCount.2
      else goOn s.checkAndIncrementDrawcallCount.2) _
    by_cases hover : s.isOverLimit
    · rw [if_pos hover]
      exact ⟨hframe, rfl, by simp [hover, checkAndIncrementDrawcallCount],
        fun h => absurd h hfilter⟩
    · rw [if_neg hover]
      refine ⟨(hframes _).trans hframe, hlayer _, ?_, fun h => absurd h hfilter⟩
      rw [hdriver, if_neg (by simp [hfilter, hover])]
      rfl

/-- **Every entry point tests, counts and forwards in the same order**; the legacy filters of
`CmdDrawIndexed` let every draw pass. -/
theorem draw_spec : DrawSpec s (s.draw thread cb command) ⟨thread, cb, command⟩ := by
  cases command <;>
  · simp only [draw, cmdDraw, cmdDrawIndexed, cmdDrawIndirect, cmdDrawIndexedIndirect,
      cmdDrawIndirectCount, cmdDrawIndexedIndirectCount, cmdDrawMeshTasksEXT,
      cmdDrawMeshTasksIndirectEXT, cmdDrawMeshTasksIndirectCountEXT]
    apply drawSpec_forwardUnlessFiltered
    · rfl
    all_goals
      intro s
      rfl

/-! ## The draws that the other filters let through -/

/-- The draw of a step, if the other filters let it through. -/
def passed : LayerStep → Option ForwardedDraw
  | .draw thread cb command =>
    if s.shouldFilterDrawCall thread cb command.counts then none else some ⟨thread, cb, command⟩
  | _ => none

/-- The draws of a run that the other filters let through. -/
abbrev passing (steps : List LayerStep) : List ForwardedDraw :=
  Quota.requests step passed s steps

theorem isDraw_of_passed {s : DrawLayer} {x : LayerStep} (h : (s.passed x).isSome) :
    x.isDraw := by
  cases x with
  | draw thread cb command => rfl
  | _ => exact absurd h Bool.false_ne_true

theorem length_passing_le (steps : List LayerStep) :
    (s.passing steps).length ≤ steps.countP LayerStep.isDraw :=
  Quota.length_requests_le step passed (fun _ _ => isDraw_of_passed) s steps

theorem step_of_suppressed {s : DrawLayer} {x : LayerStep} (hx : x.isDraw)
    (hpassed : s.passed x = none) : s.step x = s := by
  cases x with
  | draw thread cb command =>
    apply (draw_spec s thread cb command).filtered
    by_contra hfilter
    rw [passed, if_neg hfilter] at hpassed
    exact Option.some_ne_none _ hpassed
  | _ => exact absurd hx Bool.false_ne_true

/-! ## A frame -/

/-- Within a frame: the configuration stays, and `k` draws have been counted. -/
def Counted (config : DrawcallFilterConfig) (s : DrawLayer) (k : ℕ) : Prop :=
  s.config = config ∧ s.counter = UInt32.ofNat k

variable {config : DrawcallFilterConfig}

theorem Counted.isOverLimit_iff {s : DrawLayer} {k : ℕ} (h : Counted config s k)
    (hlimit : config.enableDrawcallLimit = true) (hk : k < 2 ^ 32) :
    s.isOverLimit = true ↔ ¬ k < config.maxDrawcalls.toNat := by
  rw [isOverLimit, h.1, h.2, DrawcallFilterConfig.checkAndIncrementDrawcallCount, if_pos hlimit,
    decide_eq_true_eq, UInt32.le_iff_toNat_le, UInt32.toNat_ofNat_of_lt' hk]
  omega

/-- **What one step of a frame counts and forwards.** -/
theorem grants (hlimit : config.enableDrawcallLimit = true) :
    Quota.Grants step passed (Counted config) driver (fun x => x.isBoundary = false)
      config.maxDrawcalls.toNat (2 ^ 32) where
  counts := by
    intro s k x h hx
    cases x with
    | draw thread cb command =>
      have hspec := draw_spec s thread cb command
      by_cases hfilter : s.shouldFilterDrawCall thread cb command.counts
      · rw [passed, if_pos hfilter, step, hspec.filtered hfilter]
        exact h
      · have hon : s.frames.activeFilterConfig.enableDrawcallLimit = true := by
          rw [← hlimit, ← h.1]
        rw [passed, if_neg hfilter, step, Counted, DrawLayer.config, counter, hspec.frames,
          FrameState.draw, filters_filteredDraw, if_neg hfilter,
          DrawcallFilterConfig.checkAndIncrementDrawcallCount, if_pos hon]
        refine ⟨h.1, ?_⟩
        rw [Option.toList_some, List.length_singleton, UInt32.ofNat_add, ← h.2]
        rfl
    | boundary thread => exact absurd hx.symm Bool.false_ne_true
    | _ => exact h
  logs := by
    intro s k x h hx hk
    cases x with
    | draw thread cb command =>
      rw [step, (draw_spec s thread cb command).driver, passed]
      by_cases hfilter : s.shouldFilterDrawCall thread cb command.counts
      · simp [hfilter]
      · have hover := h.isOverLimit_iff hlimit hk
        by_cases hlt : k < config.maxDrawcalls.toNat <;> simp [hfilter, hover, hlt]
    | boundary thread => exact absurd hx.symm Bool.false_ne_true
    | _ => simp [step, passed]

theorem after_append (steps steps' : List LayerStep) :
    after (steps ++ steps') = steps'.foldl step (after steps) := List.foldl_append

theorem counter_boundary (steps : List LayerStep) (thread : Thread) :
    (after (steps ++ [.boundary thread])).counter = 0 := by
  rw [after_append]
  change ((after steps).frames.step .boundary).globalDrawcallCounter = 0
  rw [FrameState.step, FrameState.processFrameBoundaryTasks, FrameState.foldl_runTask]

/-- A run up to the start of a frame. -/
def StartsFrame (before : List LayerStep) : Prop :=
  before = [] ∨ ∃ steps thread, before = steps ++ [.boundary thread]

theorem StartsFrame.counter {before : List LayerStep} (h : StartsFrame before) :
    (after before).counter = 0 := by
  rcases h with rfl | ⟨steps, thread, rfl⟩
  · rfl
  · exact counter_boundary steps thread

section Frame

variable {before frame : List LayerStep} (hstart : StartsFrame before)
  (hframe : ∀ x ∈ frame, x.isBoundary = false) (hdraws : frame.countP LayerStep.isDraw < 2 ^ 32)
  (hlimit : (after before).config.enableDrawcallLimit = true)
include hstart hframe hdraws hlimit

/-- **The counter and the driver in a frame.** -/
theorem frame_spec :
    Counted (after before).config (after (before ++ frame)) ((after before).passing frame).length ∧
      (after (before ++ frame)).driver = (after before).driver ++
        ((after before).passing frame).take (after before).config.maxDrawcalls.toNat := by
  rw [after_append]
  exact (grants hlimit).run ⟨rfl, hstart.counter⟩ frame hframe
    ((length_passing_le (after before) frame).trans_lt hdraws)

end Frame

/-- **The driver is given the first draws of a frame, up to the limit, and nothing else counts.** -/
structure LimitsDraws (before frame : List LayerStep) : Prop where
  /-- The first `min N m` of the `m` draws that the other filters let through. -/
  forwarded : (after (before ++ frame)).driver = (after before).driver ++
    ((after before).passing frame).take
      (min (after before).config.maxDrawcalls.toNat ((after before).passing frame).length)
  /-- A draw is forwarded when it comes, or not at all. -/
  each : ∀ u x v d, frame = u ++ x :: v → (after (before ++ u)).passed x = some d →
    (after (before ++ u ++ [x])).driver = (after (before ++ u)).driver ++
      if ((after before).passing u).length < (after before).config.maxDrawcalls.toNat then [d]
      else []
  /-- A draw that another filter suppresses leaves the count and the driver alone. -/
  suppressed : ∀ u x v, frame = u ++ x :: v → x.isDraw → (after (before ++ u)).passed x = none →
    after (before ++ u ++ [x]) = after (before ++ u)
  /-- The next frame counts from zero. -/
  restarts : ∀ thread, (after (before ++ frame ++ [.boundary thread])).counter = 0

/-- **The draw-call limit**, for any calls of any threads between two frame boundaries. -/
theorem limits_draws (before frame : List LayerStep) (hstart : StartsFrame before)
    (hframe : ∀ x ∈ frame, x.isBoundary = false)
    (hdraws : frame.countP LayerStep.isDraw < 2 ^ 32)
    (hlimit : (after before).config.enableDrawcallLimit = true) : LimitsDraws before frame := by
  refine ⟨?_, ?_, ?_, counter_boundary (before ++ frame)⟩
  · rw [(frame_spec hstart hframe hdraws hlimit).2, ← List.take_take, List.take_length]
  · intro u x v d hsplit hpassed
    have hframe' : ∀ y ∈ u, y.isBoundary = false := fun y hy =>
      hframe y (hsplit ▸ List.mem_append_left _ hy)
    have hcount : u.countP LayerStep.isDraw < 2 ^ 32 := by
      rw [hsplit, List.countP_append] at hdraws
      omega
    have hcounted := (frame_spec hstart hframe' hcount hlimit).1
    have hx : x.isBoundary = false := hframe x (hsplit ▸ List.mem_append_right u List.mem_cons_self)
    rw [after_append (before ++ u), List.foldl_cons, List.foldl_nil,
      (grants hlimit).logs hcounted hx
        ((length_passing_le (after before) u).trans_lt hcount), hpassed]
    rfl
  · intro u x v _ hx hpassed
    rw [after_append (before ++ u)]
    exact step_of_suppressed hx hpassed

/-- A limit of one, set two boundaries before two threads draw. -/
theorem limits_draws_two : ∃ before frame, LimitsDraws before frame ∧
    ((after before).passing frame).length = 2 ∧ (after (before ++ frame)).driver.length = 1 := by
  refine ⟨[.handleMessage { maxDrawcalls := 1, enableDrawcallLimit := true }, .boundary 0,
    .boundary 0], [.draw 0 7 (.draw 3 1 0 0), .draw 1 8 (.drawIndirect 5 0 1 16)],
    limits_draws _ _ (Or.inr ⟨[.handleMessage _, .boundary 0], 0, rfl⟩) ?_ ?_ ?_, ?_, ?_⟩
  all_goals decide

/-! ## The configuration of the maps -/

theorem shared_activeFilterConfig (steps : List LayerStep) :
    (after steps).layer.shared.activeFilterConfig = (after steps).config := by
  induction steps using List.reverseRecOn with
  | nil => rfl
  | append_singleton steps x ih =>
    rw [after_append, List.foldl_cons, List.foldl_nil]
    cases x with
    | draw thread cb command =>
      have hspec := draw_spec (after steps) thread cb command
      obtain ⟨n, hn⟩ := FrameState.draw_eq (after steps).frames
        ((after steps).filteredDraw thread cb command.counts)
      rw [step, hspec.layer, ih, config, config, hspec.frames, hn]
    | call thread call tracking =>
      cases call with
      | cmdDraw entry cb d => exact absurd tracking Bool.false_ne_true
      | frameBoundary config => exact absurd tracking Bool.false_ne_true
      | _ => exact ih
    | boundary thread => rfl
    | _ => exact ih

theorem shouldFilterDrawCall_eq (steps : List LayerStep) (thread : Thread) (cb : VkCommandBuffer)
    (counts : DrawCall) : (after steps).shouldFilterDrawCall thread cb counts =
      (after steps).layer.shouldFilterDrawCall thread cb counts := by
  rw [shouldFilterDrawCall, Layer.shouldFilterDrawCall, shared_activeFilterConfig]

end DrawLayer

end Dive.DiveRuntimeLayer
