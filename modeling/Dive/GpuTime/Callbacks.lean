import Dive.GpuTime.Slots

/-!
# The callbacks of the GPU-time layer

* `FrameBoundaryDetector`, `FrameMetrics`, `CommandBufferInfo`, **`GPUTime`**.
* One function for each callback that touches command buffers, slots or frames. The functions that
  run with the mutex held are whole steps; `onQueueSubmit` releases it once, between `submitCmds`
  and `onFrameBoundary`.
* `accesses` records what the callbacks do with slot numbers; no function reads it.
-/

namespace Dive

/-- A handle. -/
abbrev VkCommandBuffer := ℕ

/-- A handle. -/
abbrev VkCommandPool := ℕ

/-- A result code. -/
abbrev VkResult := ℤ

/-- `VK_NULL_HANDLE`. -/
def vkNullHandle : ℕ := 0

/-- `VK_SUCCESS`. -/
def vkSuccess : VkResult := 0

/-- `VK_NOT_READY`. -/
def vkNotReady : VkResult := 1

/-- `VK_COMMAND_BUFFER_USAGE_ONE_TIME_SUBMIT_BIT`. -/
def oneTimeSubmitBit : UInt32 := 0x1

/-- `VK_COMMAND_BUFFER_USAGE_SIMULTANEOUS_USE_BIT`. -/
def simultaneousUseBit : UInt32 := 0x4

/-- Only primary command buffers are tracked. -/
inductive VkCommandBufferLevel
  | primary
  | secondary
  deriving DecidableEq

/-- `VK_PIPELINE_STAGE_TOP_OF_PIPE_BIT` and `VK_PIPELINE_STAGE_BOTTOM_OF_PIPE_BIT`. -/
inductive PipelineStage
  | topOfPipe
  | bottomOfPipe
  deriving DecidableEq

/-- One `VkSubmitInfo`; `none` is a null `pCommandBuffers`. -/
structure VkSubmitInfo where
  commandBuffers : Option (List VkCommandBuffer)

/-- What a callback returns. -/
structure GpuTimeStatus where
  message : String := ""
  success : Bool := true
  deriving DecidableEq

/-- What `OnQueueSubmit` returns. -/
structure SubmitStatus where
  gpuTimeStatus : GpuTimeStatus
  containsFrameBoundary : Bool := false

/-- A handle, as a stream prints a pointer. -/
def pointerText (p : ℕ) : String := "0x" ++ String.ofList (Nat.toDigits 16 p)

/-- The last four hexadecimal digits of a handle. -/
def toHexString (cmd : VkCommandBuffer) : String :=
  let digits := Nat.toDigits 16 (cmd % 0x10000)
  String.ofList (List.replicate (4 - digits.length) '0' ++ digits)

/-! ## Frame boundaries -/

namespace FrameBoundaryDetector

/-- A tracked command buffer. -/
structure CommandBufferInfo where
  pool : VkCommandPool
  isFrameboundary : Bool

end FrameBoundaryDetector

/-- The command buffers, with those that hold a delimiter. -/
structure FrameBoundaryDetector where
  cmds : AList fun _ : VkCommandBuffer => FrameBoundaryDetector.CommandBufferInfo := ∅

namespace FrameBoundaryDetector

/-- The label that ends a frame. -/
def kVulkanVrFrameDelimiterString : String := "vr-marker,frame_end,type,application"

/-- New command buffers hold no delimiter. -/
def onAllocateCommandBuffers (d : FrameBoundaryDetector) (level : VkCommandBufferLevel)
    (pool : VkCommandPool) (buffers : List VkCommandBuffer) : FrameBoundaryDetector :=
  if level = .secondary then d
  else { d with cmds := buffers.foldl (fun cmds cmd => cmds.insert cmd ⟨pool, false⟩) d.cmds }

/-- Forgets the command buffers. -/
def onFreeCommandBuffers (d : FrameBoundaryDetector) (buffers : List VkCommandBuffer) :
    FrameBoundaryDetector :=
  { d with cmds := buffers.foldl (fun cmds cmd => cmds.erase cmd) d.cmds }

/-- Its delimiter is gone. -/
def onResetCommandBuffer (d : FrameBoundaryDetector) (cmd : VkCommandBuffer) :
    FrameBoundaryDetector :=
  match d.cmds.lookup cmd with
  | some info => { d with cmds := d.cmds.insert cmd { info with isFrameboundary := false } }
  | none => d

/-- Resets the command buffers of the pool. -/
def onResetCommandPool (d : FrameBoundaryDetector) (pool : VkCommandPool) :
    FrameBoundaryDetector :=
  d.cmds.keys.foldl
    (fun d cmd => match d.cmds.lookup cmd with
      | some info => if info.pool = pool then d.onResetCommandBuffer cmd else d
      | none => d) d

/-- `OnCmdInsertDebugUtilsLabel`. -/
def markBoundary (d : FrameBoundaryDetector) (cmd : VkCommandBuffer) (label : Option String) :
    FrameBoundaryDetector × GpuTimeStatus :=
  match label with
  | none => (d, ⟨"label_info_ptr or label_info_ptr->pLabelName is null!", false⟩)
  | some name =>
    if name = kVulkanVrFrameDelimiterString then
      match d.cmds.lookup cmd with
      | some info =>
        ({ d with cmds := d.cmds.insert cmd { info with isFrameboundary := true } }, {})
      | none =>
        (d, ⟨"command_buffer is not in the cmd cache (a frame boundary should be always in " ++
          "a primary command buffer)", false⟩)
    else (d, {})

/-- It holds a delimiter. -/
def isFrameBoundary (d : FrameBoundaryDetector) (cmd : VkCommandBuffer) : Bool :=
  match d.cmds.lookup cmd with
  | some info => info.isFrameboundary
  | none => false

/-- Some submitted command buffer holds a delimiter. -/
def containsFrameBoundary (d : FrameBoundaryDetector) (submits : List VkSubmitInfo) : Bool :=
  submits.any fun submit => (submit.commandBuffers.getD []).any d.isFrameBoundary

end FrameBoundaryDetector

/-! ## Frame metrics -/

/-- The samples of the last frames; `τ` stands for the `double` milliseconds. -/
structure FrameMetrics (τ : Type) where
  frameTime : List τ := []
  cmdRenderpassCountVec : List ℕ := []
  cmdTimeVec : List (List τ) := []
  renderpassTimeVec : List (List τ) := []

namespace FrameMetrics

variable {τ : Type}

/-- The frames that are kept. -/
def kFrameMetricsLimit : ℕ := 1000

/-- Forgets all frames. -/
def reset (m : FrameMetrics τ) : FrameMetrics τ :=
  { m with frameTime := [], cmdTimeVec := [], renderpassTimeVec := [] }

/-- Adds a frame; one of another shape forgets those before it. -/
def addFrameData (m : FrameMetrics τ) (frameTime : τ) (cmdTimes renderpassTimes : List τ)
    (cmdRenderpassCounts : List ℕ) : FrameMetrics τ :=
  let m :=
    if m.cmdTimeVec.length ≠ cmdTimes.length ∨
        m.renderpassTimeVec.length ≠ renderpassTimes.length then
      { m.reset with
        cmdTimeVec := List.replicate cmdTimes.length []
        renderpassTimeVec := List.replicate renderpassTimes.length []
        cmdRenderpassCountVec := cmdRenderpassCounts }
    else m
  let m :=
    if m.frameTime.length = kFrameMetricsLimit then
      { m with
        frameTime := m.frameTime.tail
        cmdTimeVec := m.cmdTimeVec.map List.tail
        renderpassTimeVec := m.renderpassTimeVec.map List.tail }
    else m
  { m with
    frameTime := m.frameTime ++ [frameTime]
    cmdTimeVec := List.zipWith (fun times t => times ++ [t]) m.cmdTimeVec cmdTimes
    renderpassTimeVec :=
      List.zipWith (fun times t => times ++ [t]) m.renderpassTimeVec renderpassTimes }

end FrameMetrics

/-! ## The layer -/

/-- A slot of `renderpass_slots`. The source keeps the number; the stage its time stamp is written
at stands beside it for the statements only. -/
structure RenderPassSlot where
  slot : ℕ
  stage : PipelineStage
  deriving DecidableEq

/-- A tracked command buffer with its slots. -/
structure CommandBufferInfo where
  renderpassSlots : List RenderPassSlot := []
  pool : VkCommandPool := vkNullHandle
  beginTimestampOffset : ℕ := kInvalidIndex
  endTimestampOffset : ℕ := kInvalidIndex
  usageOneSubmit : Bool := false
  reusable : Bool := false

/-- Does not reset the offsets. -/
def CommandBufferInfo.reset (info : CommandBufferInfo) : CommandBufferInfo :=
  { info with usageOneSubmit := false, reusable := false }

/-- What a callback does with slot numbers: `pfn_cmd_write_timestamp`, one slot given to
`FreeSlots`, the query results of one slot read, the render-pass slots of a command buffer
aggregated. -/
inductive SlotAccess
  | write (cmd : VkCommandBuffer) (stage : PipelineStage) (slot : ℕ)
  | free (slot : ℕ)
  | query (slot : ℕ)
  | aggregate (cmd : VkCommandBuffer) (slots : List RenderPassSlot)
  deriving DecidableEq

/-- What one call of `vkGetQueryPoolResults` returns and leaves in the array. -/
structure QueryPoolResults where
  result : VkResult
  timestampsWithAvailability : ℕ → UInt64

/-- The members of `GPUTime`, with a log of what is done with the slots. -/
structure GPUTime (τ : Type) where
  boundaryDetector : FrameBoundaryDetector := {}
  timestampsWithAvailability : ℕ → UInt64 := fun _ => 0
  metrics : FrameMetrics τ := {}
  cmds : AList fun _ : VkCommandBuffer => CommandBufferInfo := ∅
  frameCmds : List VkCommandBuffer := []
  timestampAllocator : TimeStampSlotAllocator := {}
  /-- The milliseconds of a number of increments, from `m_timestamp_period`. -/
  elapsedTimeInMs : UInt64 → τ
  frameIndex : UInt64 := 0
  validFrame : Bool := true
  enable : Bool := false
  accesses : List SlotAccess := []

namespace GPUTime

variable {τ : Type}

/-- `SetEnable`. -/
def setEnable (g : GPUTime τ) (enable : Bool) : GPUTime τ := { g with enable := enable }

/-- Adds to the log. -/
def record (g : GPUTime τ) (l : List SlotAccess) : GPUTime τ :=
  { g with accesses := g.accesses ++ l }

/-- Gives slots back. -/
def freeSlots (g : GPUTime τ) (slots : List ℕ) : GPUTime τ :=
  { g.record (slots.map .free) with timestampAllocator := g.timestampAllocator.freeSlots slots }

/-- Forgets the command buffers of the frame. -/
def clearFrameCache (g : GPUTime τ) : GPUTime τ := { g with frameCmds := [] }

/-- Gives its slots of render passes back and takes it from the frame. -/
def removeCmdFromFrameCache (g : GPUTime τ) (cmd : VkCommandBuffer) : GPUTime τ :=
  match g.cmds.lookup cmd with
  | none => g
  | some info =>
    let g := g.freeSlots (info.renderpassSlots.map (·.slot))
    { g with
      cmds := g.cmds.insert cmd { info with renderpassSlots := [] }.reset
      frameCmds := g.frameCmds.filter (· ≠ cmd) }

/-- The three calls that `OnDestroyCommandPool` and `OnFreeCommandBuffers` make for one entry. -/
def eraseCmd (g : GPUTime τ) (cmd : VkCommandBuffer) (info : CommandBufferInfo) : GPUTime τ :=
  let g := g.freeSlots [info.beginTimestampOffset, info.endTimestampOffset]
  let g := g.removeCmdFromFrameCache cmd
  { g with cmds := g.cmds.erase cmd }

/-- One iteration of `OnDestroyCommandPool`. -/
def destroyPoolCmd (pool : VkCommandPool) (g : GPUTime τ) (cmd : VkCommandBuffer) : GPUTime τ :=
  match g.cmds.lookup cmd with
  | none => g
  | some info => if info.pool = pool then g.eraseCmd cmd info else g

/-- `OnDestroyCommandPool`. -/
def onDestroyCommandPool (g : GPUTime τ) (pool : VkCommandPool) : GPUTime τ × GpuTimeStatus :=
  if pool = vkNullHandle then (g, {})
  else (g.cmds.keys.foldl (destroyPoolCmd pool) g, {})

/-- The loop of `OnAllocateCommandBuffers`. -/
def allocateCmds (pool : VkCommandPool) : List VkCommandBuffer → GPUTime τ →
    GPUTime τ × GpuTimeStatus
  | [], g => (g, {})
  | cmd :: rest, g =>
    if cmd ∈ g.cmds then
      ({ g with validFrame := false }, ⟨pointerText cmd ++ " has been already added!", false⟩)
    else
      let (beginSlot, allocator) := g.timestampAllocator.allocateSlot
      let (endSlot, allocator) := allocator.allocateSlot
      let g := { g with timestampAllocator := allocator }
      if beginSlot = kInvalidIndex ∨ endSlot = kInvalidIndex then
        (g, ⟨"Exceeded maximum number of query slots.", false⟩)
      else
        allocateCmds pool rest
          { g with
            cmds := g.cmds.insert cmd
              { pool := pool, beginTimestampOffset := beginSlot, endTimestampOffset := endSlot } }

/-- `OnAllocateCommandBuffers`. -/
def onAllocateCommandBuffers (g : GPUTime τ) (level : VkCommandBufferLevel) (pool : VkCommandPool)
    (buffers : List VkCommandBuffer) : GPUTime τ × GpuTimeStatus :=
  let g := { g with
    boundaryDetector := g.boundaryDetector.onAllocateCommandBuffers level pool buffers }
  if level = .secondary then (g, {}) else allocateCmds pool buffers g

/-- One iteration of `OnFreeCommandBuffers`. -/
def freeCmd (g : GPUTime τ) (cmd : VkCommandBuffer) : GPUTime τ :=
  match g.cmds.lookup cmd with
  | none => g
  | some info => g.eraseCmd cmd info

/-- `OnFreeCommandBuffers`. -/
def onFreeCommandBuffers (g : GPUTime τ) (buffers : List VkCommandBuffer) :
    GPUTime τ × GpuTimeStatus :=
  let g := { g with boundaryDetector := g.boundaryDetector.onFreeCommandBuffers buffers }
  (buffers.foldl freeCmd g, {})

/-- `OnResetCommandBuffer`. -/
def onResetCommandBuffer (g : GPUTime τ) (cmd : VkCommandBuffer) : GPUTime τ × GpuTimeStatus :=
  let g := { g with boundaryDetector := g.boundaryDetector.onResetCommandBuffer cmd }
  (g.removeCmdFromFrameCache cmd, {})

/-- One iteration of `OnResetCommandPool`. -/
def resetPoolCmd (pool : VkCommandPool) (g : GPUTime τ) (cmd : VkCommandBuffer) : GPUTime τ :=
  match g.cmds.lookup cmd with
  | none => g
  | some info => if info.pool = pool then g.removeCmdFromFrameCache cmd else g

/-- `OnResetCommandPool`. -/
def onResetCommandPool (g : GPUTime τ) (pool : VkCommandPool) : GPUTime τ × GpuTimeStatus :=
  let g := { g with boundaryDetector := g.boundaryDetector.onResetCommandPool pool }
  (g.cmds.keys.foldl (resetPoolCmd pool) g, {})

/-- Resets the slot pair and writes the first time stamp. -/
def onBeginCommandBuffer (g : GPUTime τ) (cmd : VkCommandBuffer) (flags : UInt32) :
    GPUTime τ × GpuTimeStatus :=
  if !g.enable then (g, {})
  else match g.cmds.lookup cmd with
    | none => (g, {})
    | some info =>
      let g := g.freeSlots (info.renderpassSlots.map (·.slot))
      let info := { info with renderpassSlots := [] }
      let info := if info.usageOneSubmit then info.reset else info
      let info := { info with
        usageOneSubmit := flags &&& oneTimeSubmitBit != 0
        reusable := flags &&& simultaneousUseBit != 0 }
      ({ g with cmds := g.cmds.insert cmd info }.record
        [.write cmd .topOfPipe info.beginTimestampOffset], {})

/-- Writes the second time stamp. -/
def onEndCommandBuffer (g : GPUTime τ) (cmd : VkCommandBuffer) : GPUTime τ × GpuTimeStatus :=
  if !g.enable then (g, {})
  else match g.cmds.lookup cmd with
    | none => (g, {})
    | some info => (g.record [.write cmd .bottomOfPipe info.endTimestampOffset], {})

/-- `BeginRenderPass` and `EndRenderPass`, which differ in the stage only. -/
def writeRenderPassSlot (g : GPUTime τ) (stage : PipelineStage) (cmd : VkCommandBuffer) :
    GPUTime τ × GpuTimeStatus :=
  if !g.enable then (g, {})
  else match g.cmds.lookup cmd with
    | none => (g, {})
    | some info =>
      let (slot, allocator) := g.timestampAllocator.allocateSlot
      let info := { info with renderpassSlots := info.renderpassSlots ++ [⟨slot, stage⟩] }
      ({ g with timestampAllocator := allocator, cmds := g.cmds.insert cmd info }.record
        [.write cmd stage slot], {})

/-- `OnCmdBeginRenderPass` and its siblings. -/
def beginRenderPass (g : GPUTime τ) (cmd : VkCommandBuffer) : GPUTime τ × GpuTimeStatus :=
  g.writeRenderPassSlot .topOfPipe cmd

/-- `OnCmdEndRenderPass` and its siblings. -/
def endRenderPass (g : GPUTime τ) (cmd : VkCommandBuffer) : GPUTime τ × GpuTimeStatus :=
  g.writeRenderPassSlot .bottomOfPipe cmd

/-- Only the detector looks at labels. -/
def onCmdInsertDebugUtilsLabel (g : GPUTime τ) (cmd : VkCommandBuffer) (label : Option String) :
    GPUTime τ × GpuTimeStatus :=
  let (detector, status) := g.boundaryDetector.markBoundary cmd label
  ({ g with boundaryDetector := detector }, status)

/-! ## Frame metrics of the frame -/

/-- The time stamps of a slot and whether they are available. -/
def timestamp (g : GPUTime τ) (slot : ℕ) : UInt64 := g.timestampsWithAvailability (slot * 2)

/-- The word behind a time stamp. -/
def availability (g : GPUTime τ) (slot : ℕ) : UInt64 := g.timestampsWithAvailability (slot * 2 + 1)

/-- Copies what the device answers. -/
def getQueryPoolResults (g : GPUTime τ) (answer : QueryPoolResults) : GPUTime τ :=
  { g with timestampsWithAvailability := answer.timestampsWithAvailability }

/-- The pass over `m_frame_cmds` in the wait loop: are all time stamps available? -/
def allTimestampsAvailable : List VkCommandBuffer → GPUTime τ → GPUTime τ × Bool
  | [], g => (g, true)
  | cmd :: rest, g =>
    match g.cmds.lookup cmd with
    | none => allTimestampsAvailable rest g
    | some info =>
      if info.beginTimestampOffset = kInvalidIndex ∨ info.endTimestampOffset = kInvalidIndex then
        allTimestampsAvailable rest g
      else
        let g := g.record [.query info.endTimestampOffset, .query info.beginTimestampOffset]
        if g.availability info.beginTimestampOffset = 0 ∨
            g.availability info.endTimestampOffset = 0 then (g, false)
        else allTimestampsAvailable rest g

/-- The calls of the wait loop. -/
def kMaxQueryCount : ℕ := 5

/-- The wait loop, with `n` calls of `vkGetQueryPoolResults` left. -/
def queryUntilAvailable (answers : ℕ → QueryPoolResults) : ℕ → GPUTime τ → GPUTime τ × Bool
  | 0, g => (g, false)
  | n + 1, g =>
    let (g, available) := allTimestampsAvailable g.frameCmds g
    if available then (g, true)
    else queryUntilAvailable answers n (g.getQueryPoolResults (answers (kMaxQueryCount - n)))

/-- `m_cmds[cmd]`, which adds a default entry for a handle that has none. -/
def cmdInfo (g : GPUTime τ) (cmd : VkCommandBuffer) : GPUTime τ × CommandBufferInfo :=
  match g.cmds.lookup cmd with
  | some info => (g, info)
  | none => ({ g with cmds := g.cmds.insert cmd {} }, {})

/-- The lines of the message about time stamps that stay unavailable. -/
def unavailableLines : ℕ → List VkCommandBuffer → GPUTime τ → GPUTime τ × String
  | _, [], g => (g, "")
  | index, cmd :: rest, g =>
    let (g, info) := g.cmdInfo cmd
    let valid := info.beginTimestampOffset ≠ kInvalidIndex ∧ info.endTimestampOffset ≠ kInvalidIndex
    let g := if valid then
        g.record [.query info.endTimestampOffset, .query info.beginTimestampOffset]
      else g
    let mark :=
      if valid ∧ g.availability info.beginTimestampOffset ≠ 0 ∧
          g.availability info.endTimestampOffset ≠ 0 then "_A : "
      else "_NA: "
    let line := toString index ++ mark ++ "0x" ++ toHexString cmd ++ " : S" ++
      toString info.beginTimestampOffset ++ " : E" ++ toString info.endTimestampOffset ++ "\n"
    let (g, text) := unavailableLines (index + 1) rest g
    (g, line ++ text)

/-- `GetTimeDuration`, in increments. -/
def getTimeDuration (g : GPUTime τ) (beginOffset endOffset : ℕ) : GPUTime τ × Option UInt64 :=
  if beginOffset = kInvalidIndex ∨ endOffset = kInvalidIndex then (g, none)
  else
    let g := g.record [.query endOffset, .query beginOffset]
    if g.availability beginOffset = 0 ∨ g.availability endOffset = 0 then (g, none)
    else (g, some (g.timestamp endOffset - g.timestamp beginOffset))

/-- The frame's times as they are collected. -/
structure FrameData (τ : Type) where
  frameTime : τ
  cmdsTime : List τ := []
  renderpassesTime : List τ := []
  cmdRenderpassCountVec : List ℕ := []

/-- The loop over the render passes of a command buffer. The source reads past the end of a list of
odd length; the model stops there. -/
def aggregateRenderPasses (cmd : VkCommandBuffer) (info : CommandBufferInfo) :
    ℕ → List RenderPassSlot → GPUTime τ → FrameData τ → GPUTime τ × Except GpuTimeStatus (FrameData τ)
  | r, b :: e :: rest, g, data =>
    match g.getTimeDuration b.slot e.slot with
    | (g, none) =>
      ({ g with validFrame := false }, .error
        ⟨"Query result is not available for renderpass " ++ toString r ++ " in the cmd " ++
          pointerText cmd ++ " Begin Offset:" ++ toString info.beginTimestampOffset ++
          " End Offset:" ++ toString info.endTimestampOffset, false⟩)
    | (g, some increments) =>
      aggregateRenderPasses cmd info (r + 2) rest g
        { data with renderpassesTime := data.renderpassesTime ++ [g.elapsedTimeInMs increments] }
  | _, _, g, data => (g, .ok data)

variable [Add τ]

/-- The loop over `m_frame_cmds`. -/
def aggregateCmds : List VkCommandBuffer → GPUTime τ → FrameData τ →
    GPUTime τ × Except GpuTimeStatus (FrameData τ)
  | [], g, data => (g, .ok data)
  | cmd :: rest, g, data =>
    match g.cmds.lookup cmd with
    | none => aggregateCmds rest g data
    | some info =>
      match g.getTimeDuration info.beginTimestampOffset info.endTimestampOffset with
      | (g, none) =>
        ({ g with validFrame := false }, .error
          ⟨"Query result is not available for cmd " ++ pointerText cmd ++ " Begin Offset:" ++
            toString info.beginTimestampOffset ++ " End Offset:" ++
            toString info.endTimestampOffset, false⟩)
      | (g, some increments) =>
        let data := { data with
          cmdsTime := data.cmdsTime ++ [g.elapsedTimeInMs increments]
          frameTime := data.frameTime + g.elapsedTimeInMs increments
          cmdRenderpassCountVec := data.cmdRenderpassCountVec ++ [info.renderpassSlots.length / 2] }
        match aggregateRenderPasses cmd info 0 info.renderpassSlots
            (g.record [.aggregate cmd info.renderpassSlots]) data with
        | (g, .error status) => (g, .error status)
        | (g, .ok data) => aggregateCmds rest g data

variable [Zero τ]

/-- The part of `UpdateFrameMetrics` after the results have come. -/
def addFrame (g : GPUTime τ) : GPUTime τ × GpuTimeStatus :=
  match aggregateCmds g.frameCmds g { frameTime := 0 } with
  | (g, .error status) => (g, status)
  | (g, .ok data) =>
    (if g.validFrame then
      { g with
        metrics := g.metrics.addFrameData data.frameTime data.cmdsTime data.renderpassesTime
          data.cmdRenderpassCountVec }
    else g, {})

/-- `UpdateFrameMetrics`; `answers` are the calls of `vkGetQueryPoolResults`. -/
def updateFrameMetrics (g : GPUTime τ) (answers : ℕ → QueryPoolResults) :
    GPUTime τ × GpuTimeStatus :=
  let g := g.getQueryPoolResults (answers 0)
  if (answers 0).result = vkSuccess then g.addFrame
  else if (answers 0).result = vkNotReady then
    match queryUntilAvailable answers kMaxQueryCount g with
    | (g, true) => g.addFrame
    | (g, false) =>
      let (g, text) := unavailableLines 0 g.frameCmds { g with validFrame := false }
      (g, ⟨toString g.frameCmds.length ++ " cmds:\n" ++ text, false⟩)
  else
    ({ g with validFrame := false },
      ⟨"vkGetQueryPoolResults failed with VkResult: " ++ toString (answers 0).result, false⟩)

/-- `OnFrameBoundary`: the next frame begins without command buffers. -/
def onFrameBoundary (g : GPUTime τ) (answers : ℕ → QueryPoolResults) : GPUTime τ × GpuTimeStatus :=
  let (g, status) := if g.validFrame then g.updateFrameMetrics answers else (g, {})
  ({ g with frameIndex := g.frameIndex + 1, frameCmds := [], validFrame := true }, status)

/-- The loops of `OnQueueSubmit`; a buffer that cannot be submitted ends them. -/
def pushCmds : List VkCommandBuffer → GPUTime τ → GPUTime τ × Option SubmitStatus
  | [], g => (g, none)
  | cmd :: rest, g =>
    match g.cmds.lookup cmd with
    | none =>
      ({ g with validFrame := false },
        some ⟨⟨pointerText cmd ++ " is not in the cmd cache!", false⟩, false⟩)
    | some info =>
      if info.reusable then
        ({ g with validFrame := false },
          some ⟨⟨pointerText cmd ++ " Reusable cmd is not supported!", false⟩,
            g.boundaryDetector.isFrameBoundary cmd⟩)
      else pushCmds rest { g with frameCmds := g.frameCmds ++ [cmd] }

/-- The command buffers of the submits, if the first submit has any. -/
def submittedCmds (submits : List VkSubmitInfo) : List VkCommandBuffer :=
  match submits with
  | ⟨some _⟩ :: _ => submits.flatMap fun submit => submit.commandBuffers.getD []
  | _ => []

/-- `OnQueueSubmit` up to the wait. -/
def submitCmds (g : GPUTime τ) (submits : List VkSubmitInfo) : GPUTime τ × Option SubmitStatus :=
  if !g.enable then (g, some ⟨{}, false⟩) else pushCmds (submittedCmds submits) g

/-- `OnQueueSubmit`. -/
def onQueueSubmit (g : GPUTime τ) (submits : List VkSubmitInfo) (answers : ℕ → QueryPoolResults) :
    GPUTime τ × SubmitStatus :=
  match g.submitCmds submits with
  | (g, some status) => (g, status)
  | (g, none) =>
    if g.boundaryDetector.containsFrameBoundary submits then
      let (g, status) := g.onFrameBoundary answers
      (g, ⟨status, true⟩)
    else (g, ⟨{}, false⟩)

/-- `OnQueuePresent`. -/
def onQueuePresent (g : GPUTime τ) (answers : ℕ → QueryPoolResults) : GPUTime τ × GpuTimeStatus :=
  if !g.enable then (g, {}) else g.onFrameBoundary answers

end GPUTime

/-! ## Runs -/

/-- The callbacks, one constructor for each stretch that runs with the mutex held. -/
inductive Callback
  | setEnable (enable : Bool)
  | allocateCommandBuffers (level : VkCommandBufferLevel) (pool : VkCommandPool)
      (buffers : List VkCommandBuffer)
  | freeCommandBuffers (buffers : List VkCommandBuffer)
  | resetCommandBuffer (cmd : VkCommandBuffer)
  | resetCommandPool (pool : VkCommandPool)
  | destroyCommandPool (pool : VkCommandPool)
  | beginCommandBuffer (cmd : VkCommandBuffer) (flags : UInt32)
  | endCommandBuffer (cmd : VkCommandBuffer)
  | beginRenderPass (cmd : VkCommandBuffer)
  | endRenderPass (cmd : VkCommandBuffer)
  | insertDebugUtilsLabel (cmd : VkCommandBuffer) (label : Option String)
  | queueSubmit (submits : List VkSubmitInfo)
  | frameBoundary (answers : ℕ → QueryPoolResults)
  | queuePresent (answers : ℕ → QueryPoolResults)
  | clearFrameCache

namespace GPUTime

variable {τ : Type} [Add τ] [Zero τ]

/-- What a callback changes. -/
def step (g : GPUTime τ) : Callback → GPUTime τ
  | .setEnable enable => g.setEnable enable
  | .allocateCommandBuffers level pool buffers => (g.onAllocateCommandBuffers level pool buffers).1
  | .freeCommandBuffers buffers => (g.onFreeCommandBuffers buffers).1
  | .resetCommandBuffer cmd => (g.onResetCommandBuffer cmd).1
  | .resetCommandPool pool => (g.onResetCommandPool pool).1
  | .destroyCommandPool pool => (g.onDestroyCommandPool pool).1
  | .beginCommandBuffer cmd flags => (g.onBeginCommandBuffer cmd flags).1
  | .endCommandBuffer cmd => (g.onEndCommandBuffer cmd).1
  | .beginRenderPass cmd => (g.beginRenderPass cmd).1
  | .endRenderPass cmd => (g.endRenderPass cmd).1
  | .insertDebugUtilsLabel cmd label => (g.onCmdInsertDebugUtilsLabel cmd label).1
  | .queueSubmit submits => (g.submitCmds submits).1
  | .frameBoundary answers => (g.onFrameBoundary answers).1
  | .queuePresent answers => (g.onQueuePresent answers).1
  | .clearFrameCache => g.clearFrameCache

/-- The layer before its first callback. -/
def start (elapsedTimeInMs : UInt64 → τ) : GPUTime τ := { elapsedTimeInMs := elapsedTimeInMs }

/-- A run of callbacks. -/
def run (g : GPUTime τ) (callbacks : List Callback) : GPUTime τ := callbacks.foldl step g

theorem run_append (g : GPUTime τ) (l l' : List Callback) : g.run (l ++ l') = (g.run l).run l' :=
  List.foldl_append

end GPUTime

end Dive
