import Dive.Layer.Filter
import Dive.Lib.Monitor
import Mathlib.Data.Nat.Notation
import Mathlib.Logic.Function.Basic

/-!
# Command buffers in the runtime layer

* `ThreadState`: the `thread_local` maps; `Layer`: those of each thread, and what threads share.
* `Layer.step`: one call of the application, on one of its threads.
* `Recordings`: the pipelines and render passes that the application has made, and what is recorded
  into each command buffer, whatever thread records it and whatever the layer keeps of it.
* `Follows`: the tables of the layer agree with what has been made, and the maps of the thread that
  records a command buffer with its recording.
* `Fits`: the calls that keep it so. A recording stays on the thread that began it, a stale flag is
  not taken over by a new recording, no pool forgets the buffers of another one, and nothing that a
  filter looks for comes from a call that the layer does not see.
* **`draws_follow_recordings`**: the filters judge a draw by its recording.
-/

namespace Dive.DiveRuntimeLayer

abbrev Thread := ℕ
abbrev VkCommandBuffer := ℕ
abbrev VkCommandPool := ℕ
abbrev VkPipeline := ℕ
abbrev VkRenderPass := ℕ
abbrev VkResult := ℤ

def vkSuccess : VkResult := 0

inductive VkPipelineBindPoint
  | graphics
  | compute
  | rayTracing
  deriving DecidableEq

/-- A pipeline that a call has created: `blendEnable` of the attachments in its `pColorBlendState`,
and the pipeline libraries that it is linked from. -/
structure CreatedPipeline where
  pipeline : VkPipeline
  blendEnable : List Bool := []
  libraries : List VkPipeline := []

/-- `has_alpha`. -/
def CreatedPipeline.hasAlpha (p : CreatedPipeline) : Bool := p.blendEnable.any id

/-- The draw commands that the layer intercepts, and those it does not know, such as
`vkCmdDrawMultiEXT`. -/
inductive DrawEntry
  | intercepted
  | unknown
  deriving DecidableEq

/-- A call of the application, with what the driver returns. -/
inductive LayerCall
  | createGraphicsPipelines (result : VkResult) (created : List CreatedPipeline)
  | destroyPipeline (pipeline : VkPipeline)
  | createRenderPass (result : VkResult) (renderPass : VkRenderPass)
  | setRenderPassName (renderPass : VkRenderPass) (name : String)
  | destroyRenderPass (renderPass : VkRenderPass)
  | allocateCommandBuffers (pool : VkCommandPool) (commandBuffers : List VkCommandBuffer)
  | freeCommandBuffers (pool : VkCommandPool) (commandBuffers : List VkCommandBuffer)
  | resetCommandPool (pool : VkCommandPool)
  | destroyCommandPool (pool : VkCommandPool)
  | resetCommandBuffer (commandBuffer : VkCommandBuffer)
  | beginCommandBuffer (commandBuffer : VkCommandBuffer)
  | endCommandBuffer (commandBuffer : VkCommandBuffer)
  | cmdBindPipeline (commandBuffer : VkCommandBuffer) (bindPoint : VkPipelineBindPoint)
      (pipeline : VkPipeline)
  | cmdBeginRenderPass (commandBuffer : VkCommandBuffer) (renderPass : VkRenderPass)
  | cmdEndRenderPass (commandBuffer : VkCommandBuffer)
  | cmdBeginRenderPass2KHR (commandBuffer : VkCommandBuffer) (renderPass : VkRenderPass)
  | cmdEndRenderPass2KHR (commandBuffer : VkCommandBuffer)
  | cmdDraw (entry : DrawEntry) (commandBuffer : VkCommandBuffer) (d : DrawCall)
  | frameBoundary (config : DrawcallFilterConfig)

/-! ## What threads share -/

/-- `m_live_psos`, `m_render_passes` and `m_active_filter_config`. -/
structure Shared where
  livePsos : VkPipeline → Option Bool := fun _ => none
  renderPasses : VkRenderPass → Option String := fun _ => none
  activeFilterConfig : DrawcallFilterConfig := {}

namespace Shared

variable (s : Shared)

/-- The pipelines of a call are entered. -/
def enter (psos : VkPipeline → Option Bool) (created : List CreatedPipeline) :
    VkPipeline → Option Bool :=
  created.foldl (fun psos p => Function.update psos p.pipeline (some p.hasAlpha)) psos

/-- The pipelines, the render passes and the configuration change. -/
def step : LayerCall → Shared
  | .createGraphicsPipelines result created =>
    { s with livePsos := if result = vkSuccess then enter s.livePsos created else s.livePsos }
  | .destroyPipeline pipeline => { s with livePsos := Function.update s.livePsos pipeline none }
  | .createRenderPass result renderPass =>
    { s with
      renderPasses :=
        if result = vkSuccess then
          Function.update s.renderPasses renderPass (some "Unnamed RenderPass")
        else s.renderPasses }
  | .setRenderPassName renderPass name =>
    { s with
      renderPasses := Function.update s.renderPasses renderPass
        ((s.renderPasses renderPass).map fun _ => name) }
  | .destroyRenderPass renderPass =>
    { s with renderPasses := Function.update s.renderPasses renderPass none }
  | .frameBoundary config => { s with activeFilterConfig := config }
  | _ => s

/-- The alpha blending of a pipeline. -/
def hasAlphaBlend (pipeline : VkPipeline) : Bool := (s.livePsos pipeline).getD false

/-- A render pass that the configuration filters. -/
def isFiltered (renderPass : VkRenderPass) : Bool :=
  s.activeFilterConfig.filterByRenderPass &&
    s.renderPasses renderPass == some s.activeFilterConfig.targetRenderPassName

end Shared

/-! ## The maps of a thread -/

/-- `sCmdBufferCurrentPipelineHasAlpha`, `sCmdBufferInFilteredRenderPass` and
`sCommandPoolBuffers`. -/
structure ThreadState where
  currentPipelineHasAlpha : VkCommandBuffer → Option Bool := fun _ => none
  inFilteredRenderPass : VkCommandBuffer → Option Bool := fun _ => none
  commandPoolBuffers : VkCommandPool → Option (List VkCommandBuffer) := fun _ => none

namespace ThreadState

variable (t : ThreadState)

def setAlpha (cb : VkCommandBuffer) (alpha : Option Bool) : ThreadState :=
  { t with currentPipelineHasAlpha := Function.update t.currentPipelineHasAlpha cb alpha }

def setInFiltered (cb : VkCommandBuffer) (inFiltered : Option Bool) : ThreadState :=
  { t with inFilteredRenderPass := Function.update t.inFilteredRenderPass cb inFiltered }

/-- Both flags of a command buffer are erased. -/
def erase (cb : VkCommandBuffer) : ThreadState := (t.setAlpha cb none).setInFiltered cb none

/-- The flags of the command buffers in the list of a pool are erased. -/
def erasePool (pool : VkCommandPool) : ThreadState :=
  ((t.commandPoolBuffers pool).getD []).foldl erase t

/-- `sCommandPoolBuffers[pool].push_back(cb)`. -/
def pushBuffer (pool : VkCommandPool) (cb : VkCommandBuffer) : ThreadState :=
  { t with
    commandPoolBuffers := Function.update t.commandPoolBuffers pool
      (some ((t.commandPoolBuffers pool).getD [] ++ [cb])) }

/-- The entry points of the layer, on the maps of the calling thread. -/
def step (s : Shared) : LayerCall → ThreadState
  | .allocateCommandBuffers pool commandBuffers =>
    commandBuffers.foldl (fun t cb => t.pushBuffer pool cb) t
  | .freeCommandBuffers _ commandBuffers => commandBuffers.foldl erase t
  | .resetCommandPool pool => t.erasePool pool
  | .destroyCommandPool pool =>
    let t := t.erasePool pool
    { t with commandPoolBuffers := Function.update t.commandPoolBuffers pool none }
  | .resetCommandBuffer cb => t.erase cb
  | .beginCommandBuffer cb => t.setAlpha cb (some false)
  | .endCommandBuffer cb => t.setAlpha cb none
  | .cmdBindPipeline cb .graphics pipeline => t.setAlpha cb (some (s.hasAlphaBlend pipeline))
  | .cmdBeginRenderPass cb renderPass => t.setInFiltered cb (some (s.isFiltered renderPass))
  | .cmdEndRenderPass cb => t.setInFiltered cb (some false)
  -- the other calls are passed on as they are, vkCmdBeginRenderPass2KHR and its end among them
  | _ => t

end ThreadState

/-- `DiveRuntimeLayer`, with the maps of each thread. -/
structure Layer where
  shared : Shared := {}
  threads : Thread → ThreadState := fun _ => {}

namespace Layer

variable (s : Layer)

/-- One call, on a thread. -/
def step (thread : Thread) (call : LayerCall) : Layer where
  shared := s.shared.step call
  threads := Function.update s.threads thread ((s.threads thread).step s.shared call)

/-- `ShouldFilterDrawCall` on a thread. -/
def shouldFilterDrawCall (thread : Thread) (cb : VkCommandBuffer) (d : DrawCall) : Bool :=
  s.shared.activeFilterConfig.shouldFilterDrawCall d
    (((s.threads thread).currentPipelineHasAlpha cb).getD false)
    (((s.threads thread).inFilteredRenderPass cb).getD false)

/-- A draw that the layer keeps from the driver. -/
def suppresses (thread : Thread) (entry : DrawEntry) (cb : VkCommandBuffer) (d : DrawCall) : Bool :=
  entry == .intercepted && s.shouldFilterDrawCall thread cb d

end Layer

/-! ## Recordings -/

/-- A command buffer that is being recorded: whether the graphics pipeline that was bound last has
alpha blending, whether a filtered render pass has begun and not ended. -/
structure Recording where
  pipelineHasAlpha : Bool := false
  inFilteredRenderPass : Bool := false
  deriving DecidableEq

/-- **A draw that the filters keep from the driver.** -/
def Recording.Suppresses (rec : Recording) (config : DrawcallFilterConfig) (d : DrawCall) : Prop :=
  config.matchesCounts d ∨ (config.filterByAlphaBlended ∧ rec.pipelineHasAlpha) ∨
    (config.filterByRenderPass ∧ rec.inFilteredRenderPass)

/-- **What the application makes and records**: the configuration that it runs under, the pipelines
that blend, the names of the render passes, the pool of each command buffer. -/
structure Recordings where
  config : DrawcallFilterConfig := {}
  blends : VkPipeline → Bool := fun _ => false
  renderPassName : VkRenderPass → Option String := fun _ => none
  pool : VkCommandBuffer → Option VkCommandPool := fun _ => none
  recording : VkCommandBuffer → Option Recording := fun _ => none

namespace Recordings

variable (r : Recordings)

/-- A new pipeline blends by its own state or by that of a library. -/
def hasAlpha (p : CreatedPipeline) : Bool := p.hasAlpha || p.libraries.any r.blends

/-- A render pass that the configuration filters. -/
def isFiltered (renderPass : VkRenderPass) : Bool :=
  r.config.filterByRenderPass &&
    r.renderPassName renderPass == some r.config.targetRenderPassName

/-- What is recorded into a command buffer changes. -/
def record (cb : VkCommandBuffer) (f : Recording → Recording) : Recordings :=
  { r with recording := Function.update r.recording cb ((r.recording cb).map f) }

/-- Some command buffers have no recording any more. -/
def drop (p : VkCommandBuffer → Prop) [DecidablePred p] : Recordings :=
  { r with recording := fun cb => if p cb then none else r.recording cb }

/-- The pool of some command buffers. -/
def setPool (p : VkCommandBuffer → Prop) [DecidablePred p] (pool : Option VkCommandPool) :
    Recordings :=
  { r with pool := fun cb => if p cb then pool else r.pool cb }

/-- A call, whatever its thread. -/
def step : LayerCall → Recordings
  -- the pipelines that a call has created exist whatever code it returns
  | .createGraphicsPipelines _ created =>
    { r with
      blends := created.foldl (fun b p => Function.update b p.pipeline (r.hasAlpha p)) r.blends }
  | .destroyPipeline pipeline => { r with blends := Function.update r.blends pipeline false }
  | .createRenderPass result renderPass =>
    { r with
      renderPassName :=
        if result = vkSuccess then
          Function.update r.renderPassName renderPass (some "Unnamed RenderPass")
        else r.renderPassName }
  | .setRenderPassName renderPass name =>
    { r with
      renderPassName := Function.update r.renderPassName renderPass
        ((r.renderPassName renderPass).map fun _ => name) }
  | .destroyRenderPass renderPass =>
    { r with renderPassName := Function.update r.renderPassName renderPass none }
  | .frameBoundary config => { r with config := config }
  | .allocateCommandBuffers pool cbs => (r.drop (· ∈ cbs)).setPool (· ∈ cbs) (some pool)
  | .freeCommandBuffers _ cbs => (r.drop (· ∈ cbs)).setPool (· ∈ cbs) none
  | .resetCommandPool pool => r.drop fun cb => r.pool cb = some pool
  | .destroyCommandPool pool =>
    (r.drop fun cb => r.pool cb = some pool).setPool (fun cb => r.pool cb = some pool) none
  | .resetCommandBuffer cb => r.drop (· = cb)
  | .beginCommandBuffer cb => { r with recording := Function.update r.recording cb (some {}) }
  | .endCommandBuffer cb => r.drop (· = cb)
  | .cmdBindPipeline cb .graphics pipeline =>
    r.record cb fun rec => { rec with pipelineHasAlpha := r.blends pipeline }
  | .cmdBeginRenderPass cb renderPass | .cmdBeginRenderPass2KHR cb renderPass =>
    r.record cb fun rec => { rec with inFilteredRenderPass := r.isFiltered renderPass }
  | .cmdEndRenderPass cb | .cmdEndRenderPass2KHR cb =>
    r.record cb fun rec => { rec with inFilteredRenderPass := false }
  | _ => r

end Recordings

/-- The layer beside the recordings; `home` is the thread that began the last recording of a command
buffer. -/
structure World where
  layer : Layer := {}
  recordings : Recordings := {}
  home : VkCommandBuffer → Thread := fun _ => 0

/-- The thread that the recording of a command buffer is begun on. -/
def homeAfter (home : VkCommandBuffer → Thread) (thread : Thread) :
    LayerCall → VkCommandBuffer → Thread
  | .beginCommandBuffer cb => Function.update home cb thread
  | _ => home

/-- A call by a thread. -/
def World.step (w : World) (c : Thread × LayerCall) : World where
  layer := w.layer.step c.1 c.2
  recordings := w.recordings.step c.2
  home := homeAfter w.home c.1 c.2

/-- The world after the calls. -/
def after (calls : List (Thread × LayerCall)) : World := calls.foldl World.step {}

/-- The command buffer that a command is recorded into. -/
def LayerCall.commandBuffer? : LayerCall → Option VkCommandBuffer
  | .cmdBindPipeline cb _ _ | .cmdBeginRenderPass cb _ | .cmdEndRenderPass cb | .cmdDraw _ cb _ =>
    some cb
  | _ => none

/-- The pool whose command buffers lose their recordings. -/
def LayerCall.pool? : LayerCall → Option VkCommandPool
  | .resetCommandPool pool | .destroyCommandPool pool => some pool
  | _ => none

/-- The filtered render pass that a call begins, or `false` where it ends one, unseen by the
layer. -/
def Recordings.unseen (r : Recordings) : LayerCall → Option (VkCommandBuffer × Bool)
  | .cmdBeginRenderPass2KHR cb renderPass => some (cb, r.isFiltered renderPass)
  | .cmdEndRenderPass2KHR cb => some (cb, false)
  | _ => none

/-- **A call that the layer can follow.** -/
structure Fits (w : World) (c : Thread × LayerCall) : Prop where
  /-- A command is recorded on the thread that the recording was begun on. -/
  home : ∀ cb, c.2.commandBuffer? = some cb → (w.recordings.recording cb).isSome →
    w.home cb = c.1
  /-- No earlier recording has left the flag of a filtered render pass behind. -/
  fresh : ∀ cb, c.2 = .beginCommandBuffer cb →
    (w.layer.threads c.1).inFilteredRenderPass cb ≠ some true
  /-- A pool that is reset or destroyed has no buffer in its list that another pool now has and that
  is being recorded. -/
  owned : ∀ pool, c.2.pool? = some pool →
    ∀ cb ∈ ((w.layer.threads c.1).commandPoolBuffers pool).getD [],
      (w.recordings.recording cb).isSome → w.home cb = c.1 → w.recordings.pool cb = some pool
  /-- The pipelines of a successful call blend by their own states only; those of any other call do
  not blend, and their handles are new. -/
  pipelines : ∀ result created, c.2 = .createGraphicsPipelines result created → ∀ p ∈ created,
    if result = vkSuccess then w.recordings.hasAlpha p → p.hasAlpha
    else w.recordings.hasAlpha p = false ∧ w.recordings.blends p.pipeline = false
  /-- The commands of `VK_KHR_create_renderpass2` neither begin nor end a filtered render pass. -/
  unseen : ∀ cb inFiltered rec, w.recordings.unseen c.2 = some (cb, inFiltered) →
    w.recordings.recording cb = some rec → rec.inFilteredRenderPass = inFiltered
  /-- A draw that is to be suppressed is one that the layer intercepts. -/
  draws : ∀ entry cb d rec, c.2 = .cmdDraw entry cb d → w.recordings.recording cb = some rec →
    rec.Suppresses w.recordings.config d → entry = .intercepted

/-- The tables of the layer hold what the application has made. -/
structure Knows (s : Shared) (r : Recordings) : Prop where
  config : s.activeFilterConfig = r.config
  blends : ∀ pipeline, s.hasAlphaBlend pipeline = r.blends pipeline
  renderPasses : s.renderPasses = r.renderPassName

/-- The layer holds what the application has made, and the maps of the thread that records a command
buffer agree with the recording. -/
structure Follows (w : World) : Prop where
  knows : Knows w.layer.shared w.recordings
  maps : ∀ cb rec, w.recordings.recording cb = some rec →
    (w.layer.threads (w.home cb)).currentPipelineHasAlpha cb = some rec.pipelineHasAlpha ∧
      ((w.layer.threads (w.home cb)).inFilteredRenderPass cb).getD false = rec.inFilteredRenderPass

/-! ## What a call leaves alone -/

/-- A call that changes the recording of a command buffer. -/
def LayerCall.touches (pool : VkCommandBuffer → Option VkCommandPool) (cb : VkCommandBuffer) :
    LayerCall → Prop
  | .allocateCommandBuffers _ cbs | .freeCommandBuffers _ cbs => cb ∈ cbs
  | .resetCommandPool p | .destroyCommandPool p => pool cb = some p
  | .resetCommandBuffer id | .beginCommandBuffer id | .endCommandBuffer id
  | .cmdBindPipeline id .graphics _ | .cmdBeginRenderPass id _ | .cmdEndRenderPass id
  | .cmdBeginRenderPass2KHR id _ | .cmdEndRenderPass2KHR id => cb = id
  | _ => False

namespace ThreadState

variable {t : ThreadState} {cb id : VkCommandBuffer}

@[simp] theorem erase_alpha : (t.erase id).currentPipelineHasAlpha cb =
    if cb = id then none else t.currentPipelineHasAlpha cb := by
  simp [erase, setAlpha, setInFiltered, Function.update_apply]

@[simp] theorem erase_inFiltered : (t.erase id).inFilteredRenderPass cb =
    if cb = id then none else t.inFilteredRenderPass cb := by
  simp [erase, setAlpha, setInFiltered, Function.update_apply]

theorem foldl_erase_of_not_mem {cbs : List VkCommandBuffer} (h : cb ∉ cbs) (t : ThreadState) :
    (cbs.foldl erase t).currentPipelineHasAlpha cb = t.currentPipelineHasAlpha cb ∧
      (cbs.foldl erase t).inFilteredRenderPass cb = t.inFilteredRenderPass cb := by
  induction cbs generalizing t with
  | nil => exact ⟨rfl, rfl⟩
  | cons id cbs ih =>
    rw [List.mem_cons, not_or] at h
    simpa [h.1] using ih h.2 (t.erase id)

theorem foldl_pushBuffer (pool : VkCommandPool) (cbs : List VkCommandBuffer) (t : ThreadState) :
    (cbs.foldl (fun t cb => t.pushBuffer pool cb) t).currentPipelineHasAlpha =
        t.currentPipelineHasAlpha ∧
      (cbs.foldl (fun t cb => t.pushBuffer pool cb) t).inFilteredRenderPass =
        t.inFilteredRenderPass := by
  induction cbs generalizing t with
  | nil => exact ⟨rfl, rfl⟩
  | cons id cbs ih => exact ih (t.pushBuffer pool id)

theorem step_of_not_touches {s : Shared} {call : LayerCall}
    {pool : VkCommandBuffer → Option VkCommandPool} (h : ¬ call.touches pool cb)
    (hpool : ∀ p, call.pool? = some p → cb ∉ (t.commandPoolBuffers p).getD []) :
    (t.step s call).currentPipelineHasAlpha cb = t.currentPipelineHasAlpha cb ∧
      (t.step s call).inFilteredRenderPass cb = t.inFilteredRenderPass cb := by
  cases call with
  | allocateCommandBuffers p cbs =>
    obtain ⟨ha, hf⟩ := foldl_pushBuffer p cbs t
    exact ⟨congrFun ha cb, congrFun hf cb⟩
  | freeCommandBuffers p cbs => exact foldl_erase_of_not_mem h t
  | resetCommandPool p => exact foldl_erase_of_not_mem (hpool p rfl) t
  | destroyCommandPool p => exact foldl_erase_of_not_mem (hpool p rfl) t
  | resetCommandBuffer id =>
    have hid : cb ≠ id := h
    simp [step, hid]
  | cmdBindPipeline id bindPoint pipeline =>
    cases bindPoint with
    | graphics =>
      have hid : cb ≠ id := h
      simp [step, setAlpha, hid]
    | compute | rayTracing => exact ⟨rfl, rfl⟩
  | beginCommandBuffer id | endCommandBuffer id =>
    have hid : cb ≠ id := h
    simp [step, setAlpha, hid]
  | cmdBeginRenderPass id renderPass =>
    have hid : cb ≠ id := h
    simp [step, setInFiltered, hid]
  | cmdEndRenderPass id =>
    have hid : cb ≠ id := h
    simp [step, setInFiltered, hid]
  | _ => exact ⟨rfl, rfl⟩

end ThreadState

/-- **Other command buffers and other pools do not matter.** -/
theorem Recordings.step_of_not_touches {r : Recordings} {call : LayerCall}
    {cb : VkCommandBuffer} (h : ¬ call.touches r.pool cb) :
    (r.step call).recording cb = r.recording cb := by
  cases call with
  | allocateCommandBuffers p cbs | freeCommandBuffers p cbs => exact if_neg h
  | resetCommandPool p | destroyCommandPool p => exact if_neg h
  | resetCommandBuffer id | endCommandBuffer id => exact if_neg h
  | beginCommandBuffer id => exact Function.update_of_ne h _ _
  | cmdBindPipeline id bindPoint pipeline =>
    cases bindPoint with
    | graphics => exact Function.update_of_ne h _ _
    | compute | rayTracing => rfl
  | cmdBeginRenderPass id renderPass | cmdBeginRenderPass2KHR id renderPass =>
    exact Function.update_of_ne h _ _
  | cmdEndRenderPass id | cmdEndRenderPass2KHR id => exact Function.update_of_ne h _ _
  | _ => rfl

/-! ## The tables of the layer -/

section Tables

variable {s : Shared} {r : Recordings}

theorem enter_blends {psos : VkPipeline → Option Bool} {created : List CreatedPipeline}
    {b : VkPipeline → Bool} (hs : ∀ pipeline, (psos pipeline).getD false = b pipeline)
    (h : ∀ p ∈ created, r.hasAlpha p = p.hasAlpha) (pipeline : VkPipeline) :
    (Shared.enter psos created pipeline).getD false =
      created.foldl (fun b p => Function.update b p.pipeline (r.hasAlpha p)) b pipeline := by
  induction created generalizing psos b with
  | nil => exact hs pipeline
  | cons p created ih =>
    obtain ⟨hp, hrest⟩ := List.forall_mem_cons.mp h
    refine ih (fun id => ?_) hrest
    by_cases hid : id = p.pipeline
    · subst hid
      simp [hp]
    · simpa [hid] using hs id

theorem foldl_blends {created : List CreatedPipeline} {b : VkPipeline → Bool}
    (h : ∀ p ∈ created, r.hasAlpha p = false ∧ b p.pipeline = false) :
    created.foldl (fun b p => Function.update b p.pipeline (r.hasAlpha p)) b = b := by
  induction created with
  | nil => rfl
  | cons p created ih =>
    obtain ⟨⟨hp, hb⟩, hrest⟩ := List.forall_mem_cons.mp h
    have hsame : Function.update b p.pipeline (r.hasAlpha p) = b := by
      rw [hp, ← hb]
      exact Function.update_eq_self _ _
    rw [List.foldl_cons, hsame]
    exact ih hrest

theorem Knows.isFiltered (h : Knows s r) (renderPass : VkRenderPass) :
    s.isFiltered renderPass = r.isFiltered renderPass := by
  rw [Shared.isFiltered, Recordings.isFiltered, h.config, h.renderPasses]

theorem Knows.of_same {s' : Shared} {r' : Recordings} (h : Knows s r) (hs : s' = s)
    (hconfig : r'.config = r.config) (hblends : r'.blends = r.blends)
    (hnames : r'.renderPassName = r.renderPassName) : Knows s' r' := by
  subst hs
  exact ⟨hconfig ▸ h.config, hblends ▸ h.blends, hnames ▸ h.renderPasses⟩

end Tables

theorem knows_step {w : World} {c : Thread × LayerCall} (h : Knows w.layer.shared w.recordings)
    (hf : Fits w c) : Knows (w.step c).layer.shared (w.step c).recordings := by
  obtain ⟨thread, call⟩ := c
  cases call with
  | createGraphicsPipelines result created =>
    have hp := hf.pipelines result created rfl
    refine ⟨h.config, fun pipeline => ?_, h.renderPasses⟩
    show ((if _ then _ else _ : VkPipeline → Option Bool) pipeline).getD false = _
    split
    next hresult =>
      refine enter_blends h.blends (fun p hmem => ?_) pipeline
      have hown := hp p hmem
      rw [if_pos hresult] at hown
      exact Bool.eq_iff_iff.mpr ⟨hown, fun h => by rw [Recordings.hasAlpha, h]; rfl⟩
    next hresult =>
      refine (h.blends pipeline).trans (congrFun (foldl_blends fun p hmem => ?_) pipeline).symm
      have hnone := hp p hmem
      rwa [if_neg hresult] at hnone
  | destroyPipeline pipeline =>
    refine ⟨h.config, fun id => ?_, h.renderPasses⟩
    by_cases hid : id = pipeline
    · subst hid
      simp [World.step, Layer.step, Shared.step, Recordings.step, Shared.hasAlphaBlend]
    · simpa [World.step, Layer.step, Shared.step, Recordings.step, Shared.hasAlphaBlend, hid] using
        h.blends id
  | createRenderPass result renderPass =>
    exact ⟨h.config, h.blends, by simp [World.step, Layer.step, Shared.step, Recordings.step,
      h.renderPasses]⟩
  | setRenderPassName renderPass name =>
    exact ⟨h.config, h.blends, by simp [World.step, Layer.step, Shared.step, Recordings.step,
      h.renderPasses]⟩
  | destroyRenderPass renderPass =>
    exact ⟨h.config, h.blends, by simp [World.step, Layer.step, Shared.step, Recordings.step,
      h.renderPasses]⟩
  | frameBoundary config => exact ⟨rfl, h.blends, h.renderPasses⟩
  | cmdBindPipeline id bindPoint pipeline =>
    cases bindPoint <;> exact h.of_same rfl rfl rfl rfl
  | _ => exact h.of_same rfl rfl rfl rfl

/-! ## The maps follow the recordings -/

section Steps

variable {w : World} {c : Thread × LayerCall} {cb : VkCommandBuffer} {rec : Recording}

theorem threads_step_self :
    (w.step c).layer.threads c.1 = (w.layer.threads c.1).step w.layer.shared c.2 :=
  Function.update_self _ _ _

theorem threads_step_of_ne {thread : Thread} (h : thread ≠ c.1) :
    (w.step c).layer.threads thread = w.layer.threads thread :=
  Function.update_of_ne h _ _

theorem follows_of_not_touches (hw : Follows w) (hf : Fits w c)
    (h : ¬ c.2.touches w.recordings.pool cb)
    (hrec : (w.step c).recordings.recording cb = some rec) :
    ((w.step c).layer.threads ((w.step c).home cb)).currentPipelineHasAlpha cb =
        some rec.pipelineHasAlpha ∧
      (((w.step c).layer.threads ((w.step c).home cb)).inFilteredRenderPass cb).getD false =
        rec.inFilteredRenderPass := by
  have hold : w.recordings.recording cb = some rec :=
    (Recordings.step_of_not_touches h).symm.trans hrec
  have hhome : (w.step c).home cb = w.home cb := by
    show homeAfter w.home c.1 c.2 cb = w.home cb
    cases hc : c.2 with
    | beginCommandBuffer id =>
      rw [hc] at h
      exact Function.update_of_ne h _ _
    | _ => rfl
  rw [hhome]
  by_cases ht : w.home cb = c.1
  · have hflags := ThreadState.step_of_not_touches (t := w.layer.threads c.1)
      (s := w.layer.shared) h fun p hp hmem => by
        have hpool := hf.owned p hp cb hmem (by rw [hold]; rfl) ht
        cases hc : c.2 <;> simp_all [LayerCall.pool?, LayerCall.touches]
    rw [ht, threads_step_self, hflags.1, hflags.2, ← ht]
    exact hw.maps cb rec hold
  · rw [threads_step_of_ne ht]
    exact hw.maps cb rec hold

theorem of_record {r : Recordings} {f : Recording → Recording}
    (h : (r.record cb f).recording cb = some rec) :
    ∃ old, r.recording cb = some old ∧ f old = rec := by
  simpa [Recordings.record] using h

theorem follows_of_unseen (hw : Follows w) {thread : Thread} {call : LayerCall} {inFiltered : Bool}
    (hf : Fits w (thread, call)) (hcall : w.recordings.unseen call = some (cb, inFiltered))
    (hstep : (w.recordings.step call) =
      w.recordings.record cb fun rec => { rec with inFilteredRenderPass := inFiltered })
    (hlayer : ∀ t : ThreadState, t.step w.layer.shared call = t)
    (hhome : (w.step (thread, call)).home = w.home)
    (hrec : (w.step (thread, call)).recordings.recording cb = some rec) :
    ((w.step (thread, call)).layer.threads
        ((w.step (thread, call)).home cb)).currentPipelineHasAlpha cb = some rec.pipelineHasAlpha ∧
      (((w.step (thread, call)).layer.threads
        ((w.step (thread, call)).home cb)).inFilteredRenderPass cb).getD false =
          rec.inFilteredRenderPass := by
  have hnew : (w.recordings.step call).recording cb = some rec := hrec
  rw [hstep] at hnew
  obtain ⟨old, hold, rfl⟩ := of_record hnew
  have hsame := hf.unseen cb inFiltered old hcall hold
  have hthreads : (w.step (thread, call)).layer.threads = w.layer.threads := by
    show Function.update _ _ _ = _
    rw [hlayer]
    exact Function.update_eq_self _ _
  rw [hthreads, hhome]
  simpa [← hsame] using hw.maps cb old hold

theorem home_of_command (hf : Fits w c) (hc : c.2.commandBuffer? = some cb)
    (hrec : (w.recordings.recording cb).isSome) : (w.step c).home cb = c.1 := by
  have hhome := hf.home cb hc hrec
  show homeAfter w.home c.1 c.2 cb = c.1
  cases h : c.2 with
  | beginCommandBuffer id =>
    rw [h] at hc
    cases hc
  | _ => exact hhome

/-- **One call.** -/
theorem follows_step (hw : Follows w) (hf : Fits w c) : Follows (w.step c) := by
  refine ⟨knows_step hw.knows hf, fun cb rec hrec => ?_⟩
  by_cases h : c.2.touches w.recordings.pool cb
  swap
  · exact follows_of_not_touches hw hf h hrec
  obtain ⟨thread, call⟩ := c
  cases call with
  | allocateCommandBuffers p cbs | freeCommandBuffers p cbs => cases (if_pos h).symm.trans hrec
  | resetCommandPool p | destroyCommandPool p => cases (if_pos h).symm.trans hrec
  | resetCommandBuffer id | endCommandBuffer id => cases (if_pos h).symm.trans hrec
  | beginCommandBuffer id =>
    obtain rfl : cb = id := h
    have hhome : (w.step (thread, .beginCommandBuffer cb)).home cb = thread :=
      Function.update_self _ _ _
    have hnew : rec = {} := by
      simpa [World.step, Recordings.step, eq_comm] using hrec
    have hfresh := hf.fresh cb rfl
    rw [hhome, threads_step_self, hnew]
    refine ⟨Function.update_self _ _ _, ?_⟩
    show ((w.layer.threads thread).inFilteredRenderPass cb).getD false = false
    cases hflag : (w.layer.threads thread).inFilteredRenderPass cb with
    | none => rfl
    | some b =>
      rw [hflag] at hfresh
      simpa using hfresh
  | cmdBindPipeline id bindPoint pipeline =>
    cases bindPoint with
    | compute | rayTracing => exact h.elim
    | graphics =>
      obtain rfl : cb = id := h
      obtain ⟨old, hold, rfl⟩ := of_record hrec
      rw [home_of_command hf rfl (by rw [hold]; rfl), threads_step_self]
      refine ⟨(Function.update_self _ _ _).trans (congrArg some (hw.knows.blends pipeline)), ?_⟩
      rw [← hf.home cb rfl (by rw [hold]; rfl)]
      exact (hw.maps cb old hold).2
  | cmdBeginRenderPass id renderPass =>
    obtain rfl : cb = id := h
    obtain ⟨old, hold, rfl⟩ := of_record hrec
    rw [home_of_command hf rfl (by rw [hold]; rfl), threads_step_self]
    refine ⟨?_, by simp [ThreadState.step, ThreadState.setInFiltered, hw.knows.isFiltered]⟩
    rw [← hf.home cb rfl (by rw [hold]; rfl)]
    exact (hw.maps cb old hold).1
  | cmdBeginRenderPass2KHR id renderPass =>
    obtain rfl : cb = id := h
    exact follows_of_unseen hw hf rfl rfl (fun _ => rfl) rfl hrec
  | cmdEndRenderPass2KHR id =>
    obtain rfl : cb = id := h
    exact follows_of_unseen hw hf rfl rfl (fun _ => rfl) rfl hrec
  | cmdEndRenderPass id =>
    obtain rfl : cb = id := h
    obtain ⟨old, hold, rfl⟩ := of_record hrec
    rw [home_of_command hf rfl (by rw [hold]; rfl), threads_step_self]
    refine ⟨?_, by simp [ThreadState.step, ThreadState.setInFiltered]⟩
    rw [← hf.home cb rfl (by rw [hold]; rfl)]
    exact (hw.maps cb old hold).1
  | _ => exact h.elim

theorem suppresses_iff (hw : Follows w) {thread : Thread} {entry : DrawEntry} {d : DrawCall}
    (hf : Fits w (thread, .cmdDraw entry cb d)) (hrec : w.recordings.recording cb = some rec) :
    w.layer.suppresses thread entry cb d = true ↔ rec.Suppresses w.recordings.config d := by
  obtain ⟨halpha, hpass⟩ := hw.maps cb rec hrec
  rw [hf.home cb rfl (by rw [hrec]; rfl)] at halpha hpass
  have hfilter : w.layer.shouldFilterDrawCall thread cb d = true ↔
      rec.Suppresses w.recordings.config d := by
    rw [Layer.shouldFilterDrawCall, halpha, hpass, hw.knows.config,
      DrawcallFilterConfig.shouldFilterDrawCall, Recording.Suppresses]
    simp [or_assoc]
  rw [Layer.suppresses, Bool.and_eq_true, hfilter, beq_iff_eq]
  exact ⟨And.right, fun h => ⟨hf.draws entry cb d rec rfl hrec h, h⟩⟩

end Steps

theorem follows_after {calls : List (Thread × LayerCall)}
    (h : Monitor.Along World.step Fits {} calls) : Follows (after calls) :=
  Monitor.foldl_along (fun _ _ hw hf => follows_step hw hf)
    ⟨⟨rfl, fun _ => rfl, rfl⟩, by rintro cb rec ⟨⟩⟩ h

/-- **Each draw is judged by its recording**, in every run whose calls the layer can follow. The
threads of the calls do not matter to the recording, nor do the calls on other command buffers and
pools. -/
theorem draws_follow_recordings (calls : List (Thread × LayerCall)) (thread : Thread)
    (entry : DrawEntry) (cb : VkCommandBuffer) (d : DrawCall)
    (h : Monitor.Along World.step Fits {} (calls ++ [(thread, .cmdDraw entry cb d)])) :
    (∀ rec, (after calls).recordings.recording cb = some rec →
      ((after calls).layer.suppresses thread entry cb d = true ↔
        rec.Suppresses (after calls).recordings.config d)) ∧
      ∀ t t' call, (after (calls ++ [(t, call)])).recordings =
          (after (calls ++ [(t', call)])).recordings ∧
        (¬ LayerCall.touches (after calls).recordings.pool cb call →
          (after (calls ++ [(t, call)])).recordings.recording cb =
            (after calls).recordings.recording cb) := by
  obtain ⟨hcalls, hf⟩ := Monitor.along_concat.mp h
  refine ⟨fun rec hrec => suppresses_iff (follows_after hcalls) hf hrec,
    fun t t' call => ⟨?_, fun hcall => ?_⟩⟩
  · simp [after, World.step]
  · simpa [after, World.step] using Recordings.step_of_not_touches hcall

/-- A buffer of one pool, which a thread records and draws into. -/
def oneThread : List (Thread × LayerCall) :=
  [(1, .frameBoundary { filterByAlphaBlended := true }),
    (1, .createGraphicsPipelines vkSuccess [⟨7, [true], []⟩]),
    (1, .allocateCommandBuffers 10 [5]), (1, .beginCommandBuffer 5),
    (1, .cmdBindPipeline 5 .graphics 7)]

theorem draws_follow_recordings_oneThread :
    Monitor.Along World.step Fits {} (oneThread ++ [(1, .cmdDraw .intercepted 5 {})]) ∧
      (after oneThread).layer.suppresses 1 .intercepted 5 {} = true := by
  have h : Monitor.Along World.step Fits {} (oneThread ++ [(1, .cmdDraw .intercepted 5 {})]) := by
    refine ⟨?_, ?_, ?_, ?_, ?_, ?_, trivial⟩ <;> refine ⟨?_, ?_, ?_, ?_, ?_, ?_⟩
    any_goals (rintro _ ⟨⟩; done)
    any_goals (rintro _ _ ⟨⟩; done)
    any_goals (rintro _ _ _ ⟨⟩; done)
    any_goals (rintro _ _ _ _ ⟨⟩; done)
    · rintro result created ⟨⟩ p hp
      obtain rfl := List.mem_singleton.mp hp
      exact fun _ => rfl
    · rintro cb ⟨⟩ _
      rfl
    · rintro cb ⟨⟩ _
      rfl
    · rintro entry cb d rec ⟨⟩ _ _
      rfl
  refine ⟨h, ((draws_follow_recordings oneThread 1 .intercepted 5 {} h).1 ⟨true, false⟩
    (by rfl)).mpr ?_⟩
  exact .inr (.inl ⟨rfl, rfl⟩)

/-- The buffer `5` is freed and comes back from another pool; then the first pool is reset. -/
def reusedHandle : List (Thread × LayerCall) :=
  [(1, .frameBoundary { filterByAlphaBlended := true }),
    (1, .createGraphicsPipelines vkSuccess [⟨7, [true], []⟩]),
    (1, .allocateCommandBuffers 10 [5]), (1, .freeCommandBuffers 10 [5]),
    (1, .allocateCommandBuffers 11 [5]), (1, .beginCommandBuffer 5),
    (1, .cmdBindPipeline 5 .graphics 7), (1, .resetCommandPool 10)]

/-- **The draw is not suppressed.** -/
theorem reusedHandle_not_suppressed :
    (after reusedHandle).recordings.recording 5 = some ⟨true, false⟩ ∧
      Recording.Suppresses ⟨true, false⟩ (after reusedHandle).recordings.config {} ∧
      (after reusedHandle).layer.suppresses 1 .intercepted 5 {} = false :=
  ⟨rfl, .inr (.inl ⟨rfl, rfl⟩), rfl⟩

end Dive.DiveRuntimeLayer
