import Dive.GpuTime.Tracking

/-!
# The frames that reach the metrics

* `FrameMetrics.add`: `AddFrameData` with the data of one frame.
* `addedFrame`: what a callback adds to the metrics, if it adds anything; `frames`: what a run adds.
* `Quiet`: the callbacks that are no submit and no boundary leave the metrics, make no frame valid
  and put nothing into the frame.
* **`metrics_step`**, **`metrics_run`**: the metrics after a run are those of its frames, in order.
* **`balanced_of_addedFrame`**: a frame has one count for each command buffer, and they add up to
  its render passes.
-/

namespace Dive

namespace FrameMetrics

variable {τ : Type}

/-- `AddFrameData` on the data of a frame. -/
def add (m : FrameMetrics τ) (data : GPUTime.FrameData τ) : FrameMetrics τ :=
  m.addFrameData data.frameTime data.cmdsTime data.renderpassesTime data.cmdRenderpassCountVec

end FrameMetrics

namespace GPUTime

variable {τ : Type} {g g' g'' : GPUTime τ} {cmd : VkCommandBuffer} {info : CommandBufferInfo}

/-! ## Callbacks between the boundaries -/

/-- The metrics stay, an invalid frame stays invalid and the frame has no new command buffers. -/
structure Quiet (g g' : GPUTime τ) : Prop where
  metrics : g'.metrics = g.metrics
  valid : g'.validFrame = true → g.validFrame = true
  frameCmds : g'.frameCmds ⊆ g.frameCmds

namespace Quiet

theorem of_eq (hmetrics : g'.metrics = g.metrics) (hvalid : g'.validFrame = g.validFrame)
    (hframe : g'.frameCmds = g.frameCmds) : Quiet g g' :=
  ⟨hmetrics, fun h => hvalid ▸ h, hframe ▸ List.Subset.refl _⟩

theorem refl (g : GPUTime τ) : Quiet g g := of_eq rfl rfl rfl

theorem trans (h : Quiet g g') (h' : Quiet g' g'') : Quiet g g'' where
  metrics := h'.metrics.trans h.metrics
  valid hv := h.valid (h'.valid hv)
  frameCmds _ hc := h.frameCmds (h'.frameCmds hc)

end Quiet

theorem quiet_removeCmd (g : GPUTime τ) (cmd : VkCommandBuffer) :
    Quiet g (g.removeCmdFromFrameCache cmd) := by
  refine ⟨?_, ?_, frameCmds_removeCmd_subset⟩
  · unfold removeCmdFromFrameCache
    split <;> rfl
  · unfold removeCmdFromFrameCache
    split <;> exact id

theorem quiet_eraseCmd (hl : g.cmds.lookup cmd = some info) : Quiet g (g.eraseCmd cmd info) := by
  rw [eraseCmd_of_lookup hl]
  exact ⟨rfl, id, fun c hc => (List.mem_filter.mp hc).1⟩

theorem quiet_allocateCmds (pool : VkCommandPool) : ∀ (buffers : List VkCommandBuffer)
    (g : GPUTime τ), Quiet g (allocateCmds pool buffers g).1
  | [], g => .refl g
  | cmd :: rest, g => by
    by_cases hmem : cmd ∈ g.cmds
    · rw [allocateCmds, if_pos hmem]
      exact ⟨rfl, Bool.noConfusion, List.Subset.refl _⟩
    · cases allocatesCmd pool rest hmem with
      | tracked b e allocator _ _ _ _ _ heq =>
        have hrest := quiet_allocateCmds pool rest
          { g with
            timestampAllocator := allocator
            cmds := g.cmds.insert cmd (allocatedInfo pool b e) }
        rw [heq]
        exact ⟨hrest.metrics, hrest.valid, hrest.frameCmds⟩
      | half b allocator _ _ _ heq =>
        rw [heq]
        exact .of_eq rfl rfl rfl
      | full _ heq =>
        rw [heq]
        exact .refl g

theorem quiet_onBeginCommandBuffer (g : GPUTime τ) (cmd : VkCommandBuffer) (flags : UInt32) :
    Quiet g (g.onBeginCommandBuffer cmd flags).1 := by
  cases beginsCmd g cmd flags with
  | idle _ heq =>
    rw [heq]
    exact .refl g
  | begun i _ _ heq =>
    rw [heq]
    exact .of_eq rfl rfl rfl

theorem quiet_onEndCommandBuffer (g : GPUTime τ) (cmd : VkCommandBuffer) :
    Quiet g (g.onEndCommandBuffer cmd).1 := by
  unfold onEndCommandBuffer
  split_ifs
  · exact .refl g
  · split
    · exact .refl g
    · exact .of_eq rfl rfl rfl

theorem quiet_writeRenderPassSlot (g : GPUTime τ) (stage : PipelineStage) (cmd : VkCommandBuffer) :
    Quiet g (g.writeRenderPassSlot stage cmd).1 := by
  cases writesPass g stage cmd with
  | idle _ heq =>
    rw [heq]
    exact .refl g
  | taken i slot allocator _ _ _ _ _ heq =>
    rw [heq]
    exact .of_eq rfl rfl rfl
  | full i _ _ _ heq =>
    rw [heq]
    exact .of_eq rfl rfl rfl

/-! ## Submits -/

/-- The status of a submit, up to the boundary. -/
def succeeds (g : GPUTime τ) (submits : List VkSubmitInfo) : Bool :=
  match (g.submitCmds submits).2 with
  | some status => status.gpuTimeStatus.success
  | none => true

/-- A submit leaves the metrics; a failing one makes the frame invalid. -/
structure Pushes (l : List VkCommandBuffer) (g : GPUTime τ)
    (r : GPUTime τ × Option SubmitStatus) : Prop where
  metrics : r.1.metrics = g.metrics
  valid : r.1.validFrame = true → g.validFrame = true ∧ r.2 = none
  frameCmds : r.1.frameCmds ⊆ g.frameCmds ++ l
  enable : r.1.enable = g.enable
  failed : ∀ status, r.2 = some status → status.gpuTimeStatus.success = false ∧
    r.1.validFrame = false

theorem pushes_pushCmds : ∀ (l : List VkCommandBuffer) (g : GPUTime τ),
    Pushes l g (pushCmds l g)
  | [], g => ⟨rfl, fun h => ⟨h, rfl⟩, by simp [pushCmds], rfl, fun status h => nomatch h⟩
  | cmd :: rest, g => by
    unfold pushCmds
    split
    next =>
      refine ⟨rfl, Bool.noConfusion, List.subset_append_left _ _, rfl, fun status h => ?_⟩
      cases h
      exact ⟨rfl, rfl⟩
    next info h =>
      split_ifs
      · refine ⟨rfl, Bool.noConfusion, List.subset_append_left _ _, rfl, fun status h => ?_⟩
        cases h
        exact ⟨rfl, rfl⟩
      · have hrest := pushes_pushCmds rest { g with frameCmds := g.frameCmds ++ [cmd] }
        refine ⟨hrest.metrics, hrest.valid, fun c hc => ?_, hrest.enable, hrest.failed⟩
        simpa using hrest.frameCmds hc

/-! ## Reading the query results -/

/-- The metrics and the mark of the frame stay. -/
structure Reads (g g' : GPUTime τ) : Prop where
  metrics : g'.metrics = g.metrics
  valid : g'.validFrame = g.validFrame

theorem Reads.trans (h : Reads g g') (h' : Reads g' g'') : Reads g g'' :=
  ⟨h'.metrics.trans h.metrics, h'.valid.trans h.valid⟩

theorem reads_allTimestampsAvailable : ∀ (l : List VkCommandBuffer) (g : GPUTime τ),
    Reads g (allTimestampsAvailable l g).1
  | [], g => ⟨rfl, rfl⟩
  | cmd :: rest, g => by
    unfold allTimestampsAvailable
    split
    next => exact reads_allTimestampsAvailable rest g
    next info h =>
      dsimp only
      split_ifs
      · exact reads_allTimestampsAvailable rest g
      · exact ⟨rfl, rfl⟩
      · have hrest := reads_allTimestampsAvailable rest (g.record
          [.query info.endTimestampOffset, .query info.beginTimestampOffset])
        exact ⟨hrest.metrics, hrest.valid⟩

theorem reads_queryUntilAvailable (answers : ℕ → QueryPoolResults) : ∀ (n : ℕ) (g : GPUTime τ),
    Reads g (queryUntilAvailable answers n g).1
  | 0, g => ⟨rfl, rfl⟩
  | n + 1, g => by
    have hpass := reads_allTimestampsAvailable g.frameCmds g
    unfold queryUntilAvailable
    dsimp only
    split_ifs
    · exact hpass
    · have hrest := reads_queryUntilAvailable answers n ((allTimestampsAvailable g.frameCmds
        g).1.getQueryPoolResults (answers (kMaxQueryCount - n)))
      exact hpass.trans ⟨hrest.metrics, hrest.valid⟩

theorem reads_unavailableLines : ∀ (index : ℕ) (l : List VkCommandBuffer) (g : GPUTime τ),
    Reads g (unavailableLines index l g).1
  | _, [], g => ⟨rfl, rfl⟩
  | index, cmd :: rest, g => by
    have hinfo : Reads g (g.cmdInfo cmd).1 := by
      unfold cmdInfo
      split <;> exact ⟨rfl, rfl⟩
    unfold unavailableLines
    dsimp only
    split_ifs
    · have hrest := reads_unavailableLines (index + 1) rest ((g.cmdInfo cmd).1.record
        [.query (g.cmdInfo cmd).2.endTimestampOffset, .query (g.cmdInfo cmd).2.beginTimestampOffset])
      exact hinfo.trans ⟨hrest.metrics, hrest.valid⟩
    · exact hinfo.trans (reads_unavailableLines (index + 1) rest _)

theorem reads_getTimeDuration {b e : ℕ} {d : Option UInt64}
    (h : g.getTimeDuration b e = (g', d)) : Reads g g' := by
  unfold getTimeDuration at h
  dsimp only at h
  split_ifs at h <;> cases h <;> exact ⟨rfl, rfl⟩

theorem aggregateRenderPasses_spec (cmd : VkCommandBuffer) (info : CommandBufferInfo) (r : ℕ)
    (slots : List RenderPassSlot) (g : GPUTime τ) (data : FrameData τ) :
    (aggregateRenderPasses cmd info r slots g data).1.metrics = g.metrics ∧
      ∀ data', (aggregateRenderPasses cmd info r slots g data).2 = .ok data' →
        (aggregateRenderPasses cmd info r slots g data).1.validFrame = g.validFrame ∧
        data'.cmdsTime = data.cmdsTime ∧
        data'.cmdRenderpassCountVec = data.cmdRenderpassCountVec ∧
        data'.renderpassesTime.length = data.renderpassesTime.length + slots.length / 2 := by
  fun_induction aggregateRenderPasses cmd info r slots g data with
  | case1 r b e rest g data g' hd =>
    have hreads : Reads g g' := reads_getTimeDuration hd
    refine ⟨hreads.metrics, ?_⟩
    rintro data' ⟨⟩
  | case2 r b e rest g data g' increments hd ih =>
    have hreads : Reads g g' := reads_getTimeDuration hd
    refine ⟨ih.1.trans hreads.metrics, fun data' h => ?_⟩
    obtain ⟨h0, h1, h2, h3⟩ := ih.2 data' h
    refine ⟨h0.trans hreads.valid, h1, h2, h3.trans ?_⟩
    simp only [List.length_append, List.length_cons, List.length_nil]
    omega
  | case3 slots r g data hslots =>
    refine ⟨rfl, fun data' h => ?_⟩
    cases h
    refine ⟨rfl, rfl, rfl, ?_⟩
    rcases slots with _ | ⟨b, _ | ⟨e, rest⟩⟩
    · rfl
    · simp
    · exact absurd rfl (hslots b e rest)

/-- What is collected of a frame. -/
structure FrameData.Balanced (data : FrameData τ) : Prop where
  length : data.cmdRenderpassCountVec.length = data.cmdsTime.length
  sum : data.cmdRenderpassCountVec.sum = data.renderpassesTime.length

variable [Add τ]

/-- **The times of a frame are collected with their counts.** -/
theorem aggregateCmds_spec (l : List VkCommandBuffer) (g : GPUTime τ) (data : FrameData τ)
    (hdata : data.Balanced) :
    (aggregateCmds l g data).1.metrics = g.metrics ∧
      ∀ data', (aggregateCmds l g data).2 = .ok data' →
        (aggregateCmds l g data).1.validFrame = g.validFrame ∧ data'.Balanced := by
  fun_induction aggregateCmds l g data with
  | case1 => exact ⟨rfl, fun data' h => ⟨rfl, Except.ok.inj h ▸ hdata⟩⟩
  | case2 cmd rest g data h ih => exact ih hdata
  | case3 cmd rest g data info h g' hd =>
    have hreads : Reads g g' := reads_getTimeDuration hd
    refine ⟨hreads.metrics, ?_⟩
    rintro data' ⟨⟩
  | case4 cmd rest g data info h g' increments hd data' g'' status hpasses =>
    have hreads : Reads g g' := reads_getTimeDuration hd
    have hspec := (aggregateRenderPasses_spec cmd info 0 info.renderpassSlots
      (g'.record [.aggregate cmd info.renderpassSlots]) data').1
    rw [hpasses] at hspec
    refine ⟨hspec.trans hreads.metrics, ?_⟩
    rintro data' ⟨⟩
  | case5 cmd rest g data info h g' increments hd data' g'' data'' hpasses ih =>
    have hreads : Reads g g' := reads_getTimeDuration hd
    obtain ⟨hmetrics, hspec⟩ := aggregateRenderPasses_spec cmd info 0 info.renderpassSlots
      (g'.record [.aggregate cmd info.renderpassSlots]) data'
    rw [hpasses] at hmetrics hspec
    obtain ⟨hvalid, hcmds, hcounts, hpasses'⟩ := hspec data'' rfl
    have hbalanced : data''.Balanced := by
      constructor
      · rw [hcmds, hcounts]
        simp [data', hdata.length]
      · rw [hcounts, hpasses']
        simp [data', hdata.sum]
    refine ⟨(ih hbalanced).1.trans (hmetrics.trans hreads.metrics), fun d hd => ?_⟩
    obtain ⟨hvalid', hd'⟩ := (ih hbalanced).2 d hd
    exact ⟨hvalid'.trans (hvalid.trans hreads.valid), hd'⟩

variable [Zero τ]

/-! ## The frame of a boundary -/

/-- The frame's data, where all its time stamps are available. -/
def collectedFrame (g : GPUTime τ) : Option (FrameData τ) :=
  (aggregateCmds g.frameCmds g { frameTime := 0 }).2.toOption

/-- The frame that `UpdateFrameMetrics` adds. -/
def updatedFrame (g : GPUTime τ) (answers : ℕ → QueryPoolResults) : Option (FrameData τ) :=
  let g := g.getQueryPoolResults (answers 0)
  if (answers 0).result = vkSuccess then g.collectedFrame
  else if (answers 0).result = vkNotReady then
    match queryUntilAvailable answers kMaxQueryCount g with
    | (g, true) => g.collectedFrame
    | (_, false) => none
  else none

/-- The frame that `OnFrameBoundary` adds. -/
def boundaryFrame (g : GPUTime τ) (answers : ℕ → QueryPoolResults) : Option (FrameData τ) :=
  if g.validFrame then g.updatedFrame answers else none

/-- The frame that a callback adds to the metrics. -/
def addedFrame (g : GPUTime τ) : Callback → Option (FrameData τ)
  | .frameBoundary answers => g.boundaryFrame answers
  | .queuePresent answers => if g.enable then g.boundaryFrame answers else none
  | _ => none

/-- The frames that a run adds, in order. -/
def frames (g : GPUTime τ) : List Callback → List (FrameData τ)
  | [] => []
  | callback :: rest => (g.addedFrame callback).toList ++ frames (g.step callback) rest

theorem frames_append : ∀ (l l' : List Callback) (g : GPUTime τ),
    g.frames (l ++ l') = g.frames l ++ (g.run l).frames l'
  | [], _, _ => rfl
  | callback :: l, l', g => by
    rw [List.cons_append, frames, frames, frames_append l l', List.append_assoc]
    rfl

theorem frames_concat (l : List Callback) (callback : Callback) (g : GPUTime τ) :
    g.frames (l ++ [callback]) = g.frames l ++ ((g.run l).addedFrame callback).toList := by
  rw [frames_append, frames, frames, List.append_nil]

theorem balanced_collectedFrame {data : FrameData τ} (h : g.collectedFrame = some data) :
    data.Balanced := by
  unfold collectedFrame at h
  cases heq : (aggregateCmds g.frameCmds g { frameTime := 0 }).2 with
  | error status => simp [heq, Except.toOption] at h
  | ok data' =>
    obtain rfl : data' = data := by simpa [heq, Except.toOption] using h
    exact ((aggregateCmds_spec g.frameCmds g { frameTime := 0 } ⟨rfl, rfl⟩).2 data' heq).2

theorem balanced_updatedFrame {answers : ℕ → QueryPoolResults} {data : FrameData τ}
    (h : g.updatedFrame answers = some data) : data.Balanced := by
  unfold updatedFrame at h
  dsimp only at h
  split_ifs at h
  · exact balanced_collectedFrame h
  · split at h
    next => exact balanced_collectedFrame h
    next => cases h

/-- **A frame has one count for each command buffer, and they add up to its render passes.** -/
theorem balanced_of_addedFrame {callback : Callback} {data : FrameData τ}
    (h : g.addedFrame callback = some data) : data.Balanced := by
  have hboundary : ∀ {answers}, g.boundaryFrame answers = some data → data.Balanced := by
    intro answers h
    unfold boundaryFrame at h
    split_ifs at h
    exact balanced_updatedFrame h
  cases callback with
  | frameBoundary answers => exact hboundary h
  | queuePresent answers =>
    rw [addedFrame] at h
    split_ifs at h
    exact hboundary h
  | _ => cases h

/-! ## The metrics of a run -/

theorem metrics_addFrame (hvalid : g.validFrame = true) :
    g.addFrame.1.metrics = g.collectedFrame.elim g.metrics g.metrics.add := by
  obtain ⟨hmetrics, hdata⟩ := aggregateCmds_spec g.frameCmds g { frameTime := 0 } ⟨rfl, rfl⟩
  unfold addFrame collectedFrame
  split
  next g' status heq =>
    rw [heq] at hmetrics ⊢
    exact hmetrics
  next g' data heq =>
    rw [heq] at hmetrics hdata ⊢
    rw [if_pos ((hdata data rfl).1.trans hvalid)]
    show FrameMetrics.add g'.metrics data = g.metrics.add data
    rw [hmetrics]

theorem metrics_updateFrameMetrics (answers : ℕ → QueryPoolResults) (hvalid : g.validFrame = true) :
    (g.updateFrameMetrics answers).1.metrics =
      (g.updatedFrame answers).elim g.metrics g.metrics.add := by
  unfold updateFrameMetrics updatedFrame
  dsimp only
  split_ifs
  · exact metrics_addFrame hvalid
  · have hwait := reads_queryUntilAvailable answers kMaxQueryCount
      (g.getQueryPoolResults (answers 0))
    cases heq : queryUntilAvailable answers kMaxQueryCount (g.getQueryPoolResults (answers 0)) with
    | mk g' available =>
      rw [heq] at hwait
      cases available with
      | true =>
        show g'.addFrame.1.metrics = g'.collectedFrame.elim g.metrics g.metrics.add
        rw [metrics_addFrame (hwait.valid.trans hvalid), show g'.metrics = g.metrics from hwait.metrics]
      | false =>
        exact (reads_unavailableLines 0 g'.frameCmds { g' with validFrame := false }).metrics.trans
          hwait.metrics
  · rfl

theorem metrics_onFrameBoundary (g : GPUTime τ) (answers : ℕ → QueryPoolResults) :
    (g.onFrameBoundary answers).1.metrics =
      (g.boundaryFrame answers).elim g.metrics g.metrics.add := by
  unfold onFrameBoundary boundaryFrame
  by_cases hvalid : g.validFrame = true
  · rw [if_pos hvalid, if_pos hvalid]
    exact metrics_updateFrameMetrics answers hvalid
  · rw [if_neg hvalid, if_neg hvalid]
    rfl

/-- Does the callback run the frame boundary? -/
def isBoundary (g : GPUTime τ) : Callback → Bool
  | .frameBoundary _ => true
  | .queuePresent _ => g.enable
  | _ => false

/-- Is the callback a submit that fails? -/
def failsSubmit (g : GPUTime τ) : Callback → Bool
  | .queueSubmit submits => !g.succeeds submits
  | _ => false

/-- The command buffers that a callback submits. -/
def submitted : Callback → List VkCommandBuffer
  | .queueSubmit submits => submittedCmds submits
  | _ => []

/-- What a callback does to the frame: nothing that counts, a submit, or the boundary. -/
inductive FrameEffect (g : GPUTime τ) (callback : Callback) : Prop
  | quiet (hframe : g.addedFrame callback = none) (hboundary : g.isBoundary callback = false)
      (hfails : g.failsSubmit callback = false) (hquiet : Quiet g (g.step callback))
  | submit (submits : List VkSubmitInfo) (hcallback : callback = .queueSubmit submits)
      (henable : g.enable = true)
      (hpushes : Pushes (submittedCmds submits) g (g.submitCmds submits))
  | boundary (answers : ℕ → QueryPoolResults) (hboundary : g.isBoundary callback = true)
      (hframe : g.addedFrame callback = g.boundaryFrame answers)
      (hstep : g.step callback = (g.onFrameBoundary answers).1)

theorem frameEffect (g : GPUTime τ) (callback : Callback) : FrameEffect g callback := by
  cases callback with
  | setEnable enable => exact .quiet rfl rfl rfl (.of_eq rfl rfl rfl)
  | allocateCommandBuffers level pool buffers =>
    refine .quiet rfl rfl rfl ?_
    show Quiet g (g.onAllocateCommandBuffers level pool buffers).1
    unfold onAllocateCommandBuffers
    dsimp only
    split_ifs
    · exact .of_eq rfl rfl rfl
    · have hloop := quiet_allocateCmds pool buffers { g with
        boundaryDetector := g.boundaryDetector.onAllocateCommandBuffers level pool buffers }
      exact ⟨hloop.metrics, hloop.valid, hloop.frameCmds⟩
  | freeCommandBuffers buffers =>
    refine .quiet rfl rfl rfl ?_
    exact foldl_freeCmd (P := Quiet g) (fun _ _ _ hl h => h.trans (quiet_eraseCmd hl)) buffers
      (.of_eq rfl rfl rfl)
  | resetCommandBuffer cmd =>
    have hremove := quiet_removeCmd
      { g with boundaryDetector := g.boundaryDetector.onResetCommandBuffer cmd } cmd
    exact .quiet rfl rfl rfl ⟨hremove.metrics, hremove.valid, hremove.frameCmds⟩
  | resetCommandPool pool =>
    refine .quiet rfl rfl rfl ?_
    exact foldl_resetPoolCmd (P := Quiet g) (fun _ cmd h => h.trans (quiet_removeCmd _ cmd)) _
      (.of_eq rfl rfl rfl)
  | destroyCommandPool pool =>
    refine .quiet rfl rfl rfl ?_
    exact preserves_onDestroyCommandPool (P := Quiet g)
      (fun _ _ _ hl h => h.trans (quiet_eraseCmd hl)) pool (.refl g)
  | beginCommandBuffer cmd flags => exact .quiet rfl rfl rfl (quiet_onBeginCommandBuffer g cmd flags)
  | endCommandBuffer cmd => exact .quiet rfl rfl rfl (quiet_onEndCommandBuffer g cmd)
  | beginRenderPass cmd => exact .quiet rfl rfl rfl (quiet_writeRenderPassSlot g .topOfPipe cmd)
  | endRenderPass cmd => exact .quiet rfl rfl rfl (quiet_writeRenderPassSlot g .bottomOfPipe cmd)
  | insertDebugUtilsLabel cmd label => exact .quiet rfl rfl rfl (.of_eq rfl rfl rfl)
  | queueSubmit submits =>
    by_cases henable : g.enable = true
    · refine .submit submits rfl henable ?_
      rw [submitCmds, henable]
      exact pushes_pushCmds _ g
    · have hidle : g.submitCmds submits = (g, some ⟨{}, false⟩) := by
        rw [submitCmds, if_pos (by simpa using henable)]
      refine .quiet rfl rfl ?_ ?_
      · rw [failsSubmit, succeeds, hidle]
        rfl
      · rw [step, hidle]
        exact .refl g
  | frameBoundary answers => exact .boundary answers rfl rfl rfl
  | queuePresent answers =>
    by_cases henable : g.enable = true
    · refine .boundary answers henable (if_pos henable) ?_
      rw [step, onQueuePresent, if_neg (by simpa using henable)]
    · refine .quiet (if_neg henable) (by simpa [isBoundary] using henable) rfl ?_
      rw [step, onQueuePresent, if_pos (by simpa using henable)]
      exact .refl g
  | clearFrameCache => exact .quiet rfl rfl rfl ⟨rfl, id, List.nil_subset _⟩

/-- **A callback adds its frame to the metrics, or leaves them.** -/
theorem metrics_step (g : GPUTime τ) (callback : Callback) :
    (g.step callback).metrics = (g.addedFrame callback).elim g.metrics g.metrics.add := by
  cases frameEffect g callback with
  | quiet hframe _ _ hquiet => rw [hframe, hquiet.metrics, Option.elim_none]
  | submit submits hcallback _ hpushes =>
    subst hcallback
    exact hpushes.metrics
  | boundary answers _ hframe hstep => rw [hstep, hframe, metrics_onFrameBoundary]

/-- **The metrics after a run are those of its frames.** -/
theorem metrics_run : ∀ (callbacks : List Callback) (g : GPUTime τ),
    (g.run callbacks).metrics = (g.frames callbacks).foldl FrameMetrics.add g.metrics
  | [], g => rfl
  | callback :: rest, g => by
    show ((g.step callback).run rest).metrics = _
    rw [metrics_run rest, metrics_step, frames, List.foldl_append]
    cases g.addedFrame callback <;> rfl

theorem balanced_frames {data : FrameData τ} : ∀ (callbacks : List Callback) (g : GPUTime τ),
    data ∈ g.frames callbacks → data.Balanced
  | callback :: rest, g, h => by
    rcases List.mem_append.mp h with h | h
    · exact balanced_of_addedFrame (Option.mem_toList.mp h)
    · exact balanced_frames rest _ h

end GPUTime

end Dive
