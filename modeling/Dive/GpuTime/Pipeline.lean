import Dive.GpuTime.AvailableGpuTiming
import Dive.GpuTime.Csv

/-!
# From the layer's metrics to the loaded timings

* `timingRows`: the rows that the text of the layer stands for.
* `Delivers`: what the loaded object has to have.
* **`pipeline_iff`**: it has it exactly when the numbers of the objects and of the lines are in the
  range of the reader.
-/

namespace Dive.GPUTime

open Text AvailableGpuTiming

def gpuTimeStatsCsvHeaderStr : List Char := "Type,Id,Mean [ms],Median [ms]\n".toList

/-- `GetGPUTimeStatsCSVStr`, right after the layer's text was stored. -/
def getGPUTimeStatsCSVStr (g : GPUTime ℚ) : List Char :=
  gpuTimeStatsCsvHeaderStr ++ g.getStatsCSVString

/-- A row with statistics of the layer. -/
def timingRow (objectType : ObjectType) (id : ℕ) (stats : Stats) : Row :=
  ⟨objectType, id, stats.average, stats.median⟩

def commandBufferTimings (m : FrameMetrics ℚ) (c : ℕ) : List Row :=
  timingRow .kCommandBuffer c (m.getFrameCmdTimeStats c) ::
    (passIds m.cmdRenderpassCountVec c).map fun i =>
      timingRow .kRenderPass i (m.getFrameRenderPassTimeStats i)

/-- The rows of the text. -/
def timingRows (g : GPUTime ℚ) : List Row :=
  timingRow .kFrame g.frameIndex.toNat g.metrics.getFrameTimeStats ::
    (List.range g.metrics.cmdTimeVec.length).flatMap (commandBufferTimings g.metrics)

/-- The statistics as they are written. -/
def Stats.written (stats : Stats) : AvailableGpuTiming.Stats :=
  ⟨.finite (fixedValue 3 stats.average), .finite (fixedValue 3 stats.median)⟩

variable {g : GPUTime ℚ}

theorem csvLine_eq (objectType : ObjectType) (id : ℕ) (stats : Stats) :
    csvLine (getObjectTypeString objectType) id stats =
      (timingRow objectType id stats).line ++ ['\n'] := by
  simp [csvLine, timingRow, Row.line]

theorem csvLines_eq (g : GPUTime ℚ) :
    csvLines g = (timingRows g).map fun r => r.line ++ ['\n'] := by
  have hcommand : ∀ c, commandBufferLines g.metrics c =
      (commandBufferTimings g.metrics c).map fun r => r.line ++ ['\n'] := by
    intro c
    rw [commandBufferLines, commandBufferTimings, List.map_cons, List.map_map,
      ← csvLine_eq .kCommandBuffer]
    refine congrArg _ (List.map_congr_left fun i _ => ?_)
    exact csvLine_eq .kRenderPass i _
  rw [csvLines, timingRows, List.map_cons, ← csvLine_eq .kFrame, List.map_flatMap]
  refine congrArg _ ?_
  congr 1
  funext c
  exact hcommand c

/-- **The text is that of the rows.** -/
theorem getGPUTimeStatsCSVStr_eq (h : g.metrics.Balanced) :
    g.getGPUTimeStatsCSVStr =
      header ++ '\n' :: (timingRows g).flatMap fun r => r.line ++ ['\n'] := by
  have hheader : gpuTimeStatsCsvHeaderStr = header ++ ['\n'] := by decide
  rw [getGPUTimeStatsCSVStr, getStatsCSVString_eq h, csvLines_eq, hheader, List.append_assoc,
    List.flatMap_def]
  rfl

/-! ## The rows are numbered -/

theorem ofType_flatMap (l : List ℕ) (f : ℕ → List Row) (objectType : ObjectType) :
    ofType (l.flatMap f) objectType = l.flatMap fun c => ofType (f c) objectType := by
  induction l with
  | nil => rfl
  | cons c l ih => rw [List.flatMap_cons, List.flatMap_cons, ofType_append, ih]

theorem ofType_map (l : List ℕ) (f : ℕ → Row) {t : ObjectType} (h : ∀ i, (f i).objectType = t)
    (objectType : ObjectType) :
    ofType (l.map f) objectType = if t = objectType then l.map f else [] := by
  rw [ofType]
  split_ifs with ht
  · refine List.filter_eq_self.mpr fun r hr => ?_
    obtain ⟨i, -, rfl⟩ := List.mem_map.mp hr
    simp [h i, ht]
  · refine List.filter_eq_nil_iff.mpr fun r hr => ?_
    obtain ⟨i, -, rfl⟩ := List.mem_map.mp hr
    simp [h i, ht]

theorem ofType_commandBufferTimings (m : FrameMetrics ℚ) (c : ℕ) (objectType : ObjectType) :
    ofType (commandBufferTimings m c) objectType =
      (if ObjectType.kCommandBuffer = objectType then
        [timingRow .kCommandBuffer c (m.getFrameCmdTimeStats c)] else []) ++
      if ObjectType.kRenderPass = objectType then
        (passIds m.cmdRenderpassCountVec c).map fun i =>
          timingRow .kRenderPass i (m.getFrameRenderPassTimeStats i)
      else [] := by
  have hpasses := ofType_map (passIds m.cmdRenderpassCountVec c)
    (fun i => timingRow .kRenderPass i (m.getFrameRenderPassTimeStats i)) (fun _ => rfl) objectType
  rw [commandBufferTimings, ← List.singleton_append, ofType_append, ofType_singleton, hpasses]
  rfl

theorem ofType_timingRows (g : GPUTime ℚ) (objectType : ObjectType) :
    ofType (timingRows g) objectType =
      (if ObjectType.kFrame = objectType then
        [timingRow .kFrame g.frameIndex.toNat g.metrics.getFrameTimeStats] else []) ++
      (List.range g.metrics.cmdTimeVec.length).flatMap fun c =>
        ofType (commandBufferTimings g.metrics c) objectType := by
  rw [timingRows, ← List.singleton_append, ofType_append, ofType_singleton, ofType_flatMap]
  rfl

/-- The numbers of the rows of a type. -/
def typeIds (m : FrameMetrics ℚ) : ObjectType → List ℕ
  | .kFrame => [0]
  | .kCommandBuffer => List.range m.cmdTimeVec.length
  | .kRenderPass => List.range m.renderpassTimeVec.length

theorem perFrameIds (h : g.metrics.Balanced) (objectType : ObjectType) :
    (ofType (timingRows g) objectType).map Row.perFrameId = typeIds g.metrics objectType := by
  simp only [ofType_timingRows, ofType_commandBufferTimings]
  cases objectType with
  | kFrame => simp [typeIds, timingRow, Row.perFrameId]
  | kCommandBuffer => simp [typeIds, timingRow, Row.perFrameId, List.map_flatMap]
  | kRenderPass =>
    have hpasses := flatMap_passIds g.metrics.cmdRenderpassCountVec _ le_rfl
    rw [List.take_length, h.sum, h.length] at hpasses
    rw [typeIds, ← hpasses]
    simp [timingRow, Row.perFrameId, List.map_flatMap, Function.comp_def]

/-- **The rows are numbered.** -/
theorem numbered_timingRows (h : g.metrics.Balanced) : Numbered (timingRows g) := by
  intro objectType
  have hlength := congrArg List.length (perFrameIds h objectType)
  rw [List.length_map] at hlength
  rw [hlength, perFrameIds h]
  cases objectType with
  | kFrame => rfl
  | kCommandBuffer => rw [typeIds, List.length_range]
  | kRenderPass => rw [typeIds, List.length_range]

/-- The numbers of the objects and of the lines are in the range of the reader. -/
structure Fits (m : FrameMetrics ℚ) : Prop where
  commandBuffers : m.cmdTimeVec.length ≤ 2 ^ 31
  renderPasses : m.renderpassTimeVec.length ≤ 2 ^ 31
  lines : 1 + (m.cmdTimeVec.length + m.renderpassTimeVec.length) < 2 ^ 32

theorem length_timingRows (h : g.metrics.Balanced) :
    (timingRows g).length =
      1 + (g.metrics.cmdTimeVec.length + g.metrics.renderpassTimeVec.length) := by
  have hlength : ∀ objectType, (ofType (timingRows g) objectType).length =
      (typeIds g.metrics objectType).length := by
    intro objectType
    rw [← perFrameIds h, List.length_map]
  rw [← length_ofType, hlength, hlength, hlength]
  simp [typeIds]

/-- **The range of the numbers.** -/
theorem fits_iff (h : g.metrics.Balanced) (hframe : g.frameIndex.toNat < 2 ^ 31) :
    ((∀ r ∈ timingRows g, r.id < 2 ^ 31) ∧ (timingRows g).length < 2 ^ 32) ↔
      Fits g.metrics := by
  have hids : ∀ objectType n, objectType ≠ .kFrame → typeIds g.metrics objectType = List.range n →
      ((∀ r ∈ timingRows g, r.objectType = objectType → r.id < 2 ^ 31) ↔ n ≤ 2 ^ 31) := by
    intro objectType n hne hn
    have hmem : ∀ i, i < n ↔ ∃ r ∈ timingRows g, r.objectType = objectType ∧ r.id = i := by
      intro i
      rw [← List.mem_range, ← hn, ← perFrameIds h, List.mem_map]
      constructor
      · rintro ⟨r, hr, rfl⟩
        obtain ⟨hr, htype⟩ := List.mem_filter.mp hr
        have htype := of_decide_eq_true htype
        exact ⟨r, hr, htype, by rw [Row.perFrameId, if_neg (htype ▸ hne)]⟩
      · rintro ⟨r, hr, htype, rfl⟩
        exact ⟨r, List.mem_filter.mpr ⟨hr, decide_eq_true htype⟩,
          by rw [Row.perFrameId, if_neg (htype ▸ hne)]⟩
    constructor
    · intro hall
      by_contra hlt
      obtain ⟨r, hr, htype, hid⟩ := (hmem (2 ^ 31)).mp (by omega)
      have := hall r hr htype
      omega
    · intro hle r hr htype
      have := (hmem r.id).mpr ⟨r, hr, htype, rfl⟩
      omega
  have hframes : ∀ r ∈ timingRows g, r.objectType = .kFrame → r.id < 2 ^ 31 := by
    intro r hr htype
    have hmem : r ∈ ofType (timingRows g) .kFrame :=
      List.mem_filter.mpr ⟨hr, decide_eq_true htype⟩
    simp only [ofType_timingRows, ofType_commandBufferTimings] at hmem
    have heq : r = timingRow .kFrame g.frameIndex.toNat g.metrics.getFrameTimeStats := by
      simpa using hmem
    rw [heq]
    exact hframe
  rw [length_timingRows h]
  constructor
  · rintro ⟨hall, hlen⟩
    exact ⟨(hids .kCommandBuffer _ (by decide) rfl).mp fun r hr _ => hall r hr,
      (hids .kRenderPass _ (by decide) rfl).mp fun r hr _ => hall r hr, hlen⟩
  · intro hfits
    refine ⟨fun r hr => ?_, hfits.lines⟩
    cases htype : r.objectType with
    | kFrame => exact hframes r hr htype
    | kCommandBuffer =>
      exact (hids .kCommandBuffer _ (by decide) rfl).mpr hfits.commandBuffers r hr htype
    | kRenderPass => exact (hids .kRenderPass _ (by decide) rfl).mpr hfits.renderPasses r hr htype

/-! ## What is delivered -/

/-- The rows of the metrics: the frame, and each command buffer before its render passes. -/
def metricsEntries (m : FrameMetrics ℚ) : List Entry :=
  ⟨.kFrame, 0⟩ :: (List.range m.cmdTimeVec.length).flatMap fun c =>
    ⟨.kCommandBuffer, c⟩ :: (passIds m.cmdRenderpassCountVec c).map fun i => ⟨.kRenderPass, i⟩

/-- The statistics of an object. -/
def objectStats (m : FrameMetrics ℚ) (entry : Entry) : Stats :=
  match entry.objectType with
  | .kFrame => m.getFrameTimeStats
  | .kCommandBuffer => m.getFrameCmdTimeStats entry.perFrameId
  | .kRenderPass => m.getFrameRenderPassTimeStats entry.perFrameId

/-- What was loaded is what the metrics are: one frame row, the command buffers in order, all render
passes in order behind their command buffers, and the statistics of each row. -/
structure Delivers (m : FrameMetrics ℚ) (t : AvailableGpuTiming) : Prop where
  valid : t.valid = true
  entries : t.orderedEntries = metricsEntries m
  renderPasses : (List.range m.cmdTimeVec.length).flatMap (passIds m.cmdRenderpassCountVec) =
    List.range m.renderpassTimeVec.length
  stats : ∀ i (h : i < t.orderedEntries.length),
    t.getStatsByType t.orderedEntries[i].objectType t.orderedEntries[i].perFrameId =
      some (objectStats m t.orderedEntries[i]).written ∧
    t.getStatsByRow (i + 1) = some (objectStats m t.orderedEntries[i]).written

theorem entries_timingRows (g : GPUTime ℚ) :
    (timingRows g).map Row.entry = metricsEntries g.metrics := by
  simp [timingRows, metricsEntries, commandBufferTimings, timingRow, Row.entry, Row.perFrameId,
    List.map_flatMap, Function.comp_def]

theorem stats_of_mem {r : Row} (hr : r ∈ timingRows g) :
    r.stats = (objectStats g.metrics r.entry).written := by
  simp only [timingRows, commandBufferTimings, List.mem_cons, List.mem_flatMap, List.mem_map] at hr
  rcases hr with rfl | ⟨c, -, rfl | ⟨i, -, rfl⟩⟩ <;> rfl

theorem delivers_ofRows (h : g.metrics.Balanced) :
    Delivers g.metrics (ofRows (timingRows g)) := by
  have hentries : (ofRows (timingRows g)).orderedEntries = (timingRows g).map Row.entry := rfl
  have hpasses := flatMap_passIds g.metrics.cmdRenderpassCountVec _ le_rfl
  rw [List.take_length, h.sum, h.length] at hpasses
  refine ⟨rfl, hentries.trans (entries_timingRows g), hpasses, fun i hi => ?_⟩
  have hlt : i < (timingRows g).length := by
    rw [hentries, List.length_map] at hi
    exact hi
  have hget : (ofRows (timingRows g)).orderedEntries[i] = (timingRows g)[i].entry := by
    simp only [hentries, List.getElem_map]
  rw [hget, ← stats_of_mem (List.getElem_mem hlt)]
  exact getStats_ofRows (numbered_timingRows h) hlt

theorem getStatsByType_frame (h : g.metrics.Balanced) (objectId : ℕ) :
    ((ofRows (timingRows g)).getStatsByType .kFrame objectId).isSome ↔ objectId = 0 := by
  have hlen : (ofType (timingRows g) .kFrame).length = 1 := by
    have := congrArg List.length (perFrameIds h .kFrame)
    rwa [List.length_map] at this
  have hstats : (ofRows (timingRows g)).getStatsByType .kFrame objectId =
      ((ofType (timingRows g) .kFrame).map Row.stats)[objectId]? := rfl
  obtain ⟨r, hr⟩ := List.length_eq_one_iff.mp hlen
  rw [hstats, hr]
  cases objectId <;> simp

/-- **The text is accepted exactly when it fits**, and is loaded as its rows. -/
theorem loadFromString_csv (h : g.metrics.Balanced) (hframe : g.frameIndex.toNat < 2 ^ 31) :
    (Fits g.metrics →
      loadFromString {} g.getGPUTimeStatsCSVStr = (ofRows (timingRows g), true)) ∧
    (¬ Fits g.metrics → (loadFromString {} g.getGPUTimeStatsCSVStr).2 = false) := by
  have hrows := loadFromString_rows (numbered_timingRows h)
  rwa [fits_iff h hframe, ← getGPUTimeStatsCSVStr_eq h] at hrows

section Resubmitted

variable {cmd : VkCommandBuffer} {info : CommandBufferInfo}

theorem pushCmds_replicate (h : g.cmds.lookup cmd = some info) (hreusable : info.reusable = false)
    (k : ℕ) : pushCmds (List.replicate k cmd) g =
      ({ g with frameCmds := g.frameCmds ++ List.replicate k cmd }, none) := by
  induction k generalizing g with
  | zero => simp [pushCmds]
  | succ k ih =>
    rw [List.replicate_succ, pushCmds, h]
    simp only [hreusable]
    rw [if_neg (by simp), ih (g := { g with frameCmds := g.frameCmds ++ [cmd] }) h]
    simp

theorem aggregateCmds_replicate (h : g.cmds.lookup cmd = some info)
    (hpasses : info.renderpassSlots = []) (hbegin : info.beginTimestampOffset ≠ kInvalidIndex)
    (hend : info.endTimestampOffset ≠ kInvalidIndex) (havailable : ∀ slot, g.availability slot ≠ 0)
    (k : ℕ) (data : FrameData ℚ) :
    ∃ g' data', aggregateCmds (List.replicate k cmd) g data = (g', .ok data') ∧
      g'.validFrame = g.validFrame ∧ g'.frameIndex = g.frameIndex ∧
      data'.cmdsTime.length = data.cmdsTime.length + k := by
  induction k generalizing g data with
  | zero => exact ⟨g, data, rfl, rfl, rfl, rfl⟩
  | succ k ih =>
    have hduration : g.getTimeDuration info.beginTimestampOffset info.endTimestampOffset =
        (g.record [.query info.endTimestampOffset, .query info.beginTimestampOffset],
          some (g.timestamp info.endTimestampOffset -
            g.timestamp info.beginTimestampOffset)) := by
      have hrecord : ∀ slot, (g.record [.query info.endTimestampOffset,
          .query info.beginTimestampOffset]).availability slot ≠ 0 := havailable
      rw [getTimeDuration, if_neg (not_or.mpr ⟨hbegin, hend⟩)]
      dsimp only
      rw [if_neg (not_or.mpr ⟨hrecord _, hrecord _⟩)]
      rfl
    rw [List.replicate_succ, aggregateCmds, h]
    simp only [hduration, hpasses, aggregateRenderPasses]
    obtain ⟨g', data', heq, hvalid, hindex, hlength⟩ := ih (g := (g.record
      [.query info.endTimestampOffset, .query info.beginTimestampOffset]).record
        [.aggregate cmd []]) h havailable _
    refine ⟨g', data', heq, hvalid, hindex, hlength.trans ?_⟩
    simp only [List.length_append, List.length_singleton]
    omega

theorem length_addFrameData (m : FrameMetrics ℚ) (frameTime : ℚ) (cmdTimes renderpassTimes : List ℚ)
    (counts : List ℕ) :
    (m.addFrameData frameTime cmdTimes renderpassTimes counts).cmdTimeVec.length =
      cmdTimes.length := by
  unfold FrameMetrics.addFrameData
  by_cases hreset : m.cmdTimeVec.length ≠ cmdTimes.length ∨
      m.renderpassTimeVec.length ≠ renderpassTimes.length
  · simp only [hreset, if_true]
    split_ifs <;> simp
  · have hlength := not_not.mp (not_or.mp hreset).1
    simp only [hreset, if_false]
    split_ifs <;> simp [hlength]

theorem onFrameBoundary_fst (h : g.validFrame = true) (answers : ℕ → QueryPoolResults) :
    (g.onFrameBoundary answers).1 = { (g.updateFrameMetrics answers).1 with
      frameIndex := (g.updateFrameMetrics answers).1.frameIndex + 1
      frameCmds := []
      validFrame := true } := by
  rw [onFrameBoundary, if_pos h]

/-- **The frame has a time for each submission.** -/
theorem length_resubmitted (henable : g.enable = true) (hvalid : g.validFrame = true)
    (hframe : g.frameCmds = []) (h : g.cmds.lookup cmd = some info)
    (hreusable : info.reusable = false) (hpasses : info.renderpassSlots = [])
    (hbegin : info.beginTimestampOffset ≠ kInvalidIndex)
    (hend : info.endTimestampOffset ≠ kInvalidIndex) (k : ℕ) :
    let g' := (g.step (.queueSubmit [⟨some (List.replicate k cmd)⟩])).step
      (.queuePresent fun _ => ⟨vkSuccess, fun _ => 1⟩)
    g'.metrics.cmdTimeVec.length = k ∧ g'.frameIndex = g.frameIndex + 1 := by
  have hcmds : submittedCmds [⟨some (List.replicate k cmd)⟩] = List.replicate k cmd := by
    simp [submittedCmds]
  have hsubmit : g.step (.queueSubmit [⟨some (List.replicate k cmd)⟩]) =
      { g with frameCmds := List.replicate k cmd } := by
    show (g.submitCmds _).1 = _
    rw [submitCmds, if_neg (by simp [henable]), hcmds, pushCmds_replicate h hreusable, hframe,
      List.nil_append]
  have havailable : ∀ slot, (getQueryPoolResults { g with frameCmds := List.replicate k cmd }
      ⟨vkSuccess, fun _ => 1⟩).availability slot ≠ 0 := fun _ => by
    show (1 : UInt64) ≠ 0
    decide
  obtain ⟨g', data', heq, hvalid', hindex, hlength⟩ := aggregateCmds_replicate
    (g := getQueryPoolResults { g with frameCmds := List.replicate k cmd } ⟨vkSuccess, fun _ => 1⟩)
    h hpasses hbegin hend havailable k { frameTime := 0 }
  have hvalid'' : g'.validFrame = true := hvalid'.trans hvalid
  have hupdate : (updateFrameMetrics { g with frameCmds := List.replicate k cmd }
      fun _ => ⟨vkSuccess, fun _ => 1⟩).1 = { g' with
        metrics := g'.metrics.addFrameData data'.frameTime data'.cmdsTime data'.renderpassesTime
          data'.cmdRenderpassCountVec } := by
    rw [updateFrameMetrics]
    simp only [if_true, addFrame]
    rw [show (getQueryPoolResults { g with frameCmds := List.replicate k cmd }
      ⟨vkSuccess, fun _ => 1⟩).frameCmds = List.replicate k cmd from rfl, heq]
    simp only [hvalid'', if_true]
  have hpresent : (onQueuePresent { g with frameCmds := List.replicate k cmd }
      fun _ => ⟨vkSuccess, fun _ => 1⟩).1 = { g' with
        metrics := g'.metrics.addFrameData data'.frameTime data'.cmdsTime data'.renderpassesTime
          data'.cmdRenderpassCountVec
        frameIndex := g'.frameIndex + 1
        frameCmds := []
        validFrame := true } := by
    have hsubmitted : ({ g with frameCmds := List.replicate k cmd } : GPUTime ℚ).validFrame = true :=
      hvalid
    rw [onQueuePresent, if_neg (by simp [henable]), onFrameBoundary_fst hsubmitted, hupdate]
  rw [hsubmit]
  show (onQueuePresent { g with frameCmds := List.replicate k cmd } _).1.metrics.cmdTimeVec.length =
    k ∧ (onQueuePresent { g with frameCmds := List.replicate k cmd } _).1.frameIndex = _
  rw [hpresent]
  refine ⟨?_, ?_⟩
  · show (FrameMetrics.addFrameData _ _ _ _ _).cmdTimeVec.length = k
    rw [length_addFrameData, hlength]
    simp
  · show g'.frameIndex + 1 = _
    rw [hindex]
    rfl

end Resubmitted

/-- A command buffer that is submitted `k` times in a frame. -/
def resubmitted (k : ℕ) : List Callback :=
  [.setEnable true, .allocateCommandBuffers .primary 1 [7]] ++
    [.queueSubmit [⟨some (List.replicate k 7)⟩], .queuePresent fun _ => ⟨vkSuccess, fun _ => 1⟩]

/-- The milliseconds of time stamps in microseconds. -/
def milliseconds (increments : UInt64) : ℚ := increments.toNat / 1000

theorem run_pair (g : GPUTime ℚ) (a b : Callback) : g.run [a, b] = (g.step a).step b := rfl

theorem run_resubmitted (k : ℕ) :
    ((start milliseconds).run (resubmitted k)).metrics.cmdTimeVec.length = k ∧
      ((start milliseconds).run (resubmitted k)).frameIndex = 1 := by
  rw [resubmitted, run_append]
  have henable : ((start milliseconds).run
    [.setEnable true, .allocateCommandBuffers .primary 1 [7]]).enable = true := by decide +kernel
  have hvalid : ((start milliseconds).run
    [.setEnable true, .allocateCommandBuffers .primary 1 [7]]).validFrame = true := by
    decide +kernel
  have hframe : ((start milliseconds).run
    [.setEnable true, .allocateCommandBuffers .primary 1 [7]]).frameCmds = [] := by decide +kernel
  have hindex : ((start milliseconds).run
    [.setEnable true, .allocateCommandBuffers .primary 1 [7]]).frameIndex = 0 := by decide +kernel
  have hany : (((start milliseconds).run
      [.setEnable true, .allocateCommandBuffers .primary 1 [7]]).cmds.lookup 7).any
      (fun info => info.renderpassSlots.isEmpty && info.beginTimestampOffset != kInvalidIndex &&
        info.endTimestampOffset != kInvalidIndex && !info.reusable) = true := by decide +kernel
  generalize (start milliseconds).run
    [.setEnable true, .allocateCommandBuffers .primary 1 [7]] = g at *
  cases hlookup : g.cmds.lookup 7 with
  | none =>
    rw [hlookup] at hany
    cases hany
  | some info =>
    rw [hlookup] at hany
    have hinfo : ((info.renderpassSlots = [] ∧ info.beginTimestampOffset ≠ kInvalidIndex) ∧
        info.endTimestampOffset ≠ kInvalidIndex) ∧ info.reusable = false := by
      simpa using hany
    rw [run_pair]
    have hstep := length_resubmitted henable hvalid hframe hlookup hinfo.2 hinfo.1.1.1 hinfo.1.1.2
      hinfo.1.2 k
    rw [hindex] at hstep
    exact hstep

/-- **One frame with more submits than the reader has numbers for** is not accepted. -/
theorem resubmitted_not_accepted {k : ℕ} (hk : 2 ^ 31 < k) :
    (loadFromString {} ((start milliseconds).run (resubmitted k)).getGPUTimeStatsCSVStr).2 =
      false := by
  have hrun := run_resubmitted k
  have hbalanced := balanced_run milliseconds (resubmitted k)
  have hframe : ((start milliseconds).run (resubmitted k)).frameIndex.toNat < 2 ^ 31 := by
    rw [hrun.2]
    decide
  have hrows := loadFromString_csv hbalanced hframe
  refine hrows.2 fun hfits => ?_
  have := hfits.commandBuffers
  omega

theorem fits_resubmitted : Fits ((start milliseconds).run (resubmitted 2)).metrics := by
  have hcommands := (run_resubmitted 2).1
  have hpasses : ((start milliseconds).run (resubmitted 2)).metrics.renderpassTimeVec.length = 0 := by
    decide +kernel
  refine ⟨?_, ?_, ?_⟩
  · rw [hcommands]
    norm_num
  · rw [hpasses]
    norm_num
  · rw [hcommands, hpasses]
    norm_num

end Dive.GPUTime
