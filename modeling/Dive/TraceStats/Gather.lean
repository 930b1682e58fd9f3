import Dive.Hierarchy.EventState
import Dive.Lib.OrderedSet
import Dive.Lib.Significand

/-!
# Trace statistics

* `Stats`, `CaptureStats`: the statistics of a capture.
* `referenceLt`, `viewportLt`, `windowScissorLt`: the comparisons of the sets.
* `gatherEvent`: what an event adds; `typeStats`: the statistics that its type counts in.
* `gatherTotalMinMaxMedian`: the order statistics of a list.
* `gatherTraceStats`: the statistics of the metadata of a capture.
-/

namespace Dive.TraceStats

/-- `Stats::Type`. -/
inductive Stats
  | kNumBinningPasses
  | kNumTilingPasses
  | kBinningDraws
  | kDirectDraws
  | kTiledDraws
  | kDispatches
  | kWaitMemWrites
  | kWaitForIdle
  | kWaitForMe
  | kDepthTestEnabled
  | kDepthWriteEnabled
  | kEarlyZ
  | kLateZ
  | kEarlyZLateZ
  | kLrzEnabled
  | kLrzWriteEnabled
  | kCullModeEnabled
  | kTotalIndices
  | kMinIndices
  | kMaxIndices
  | kMedianIndices
  | kShaders
  | kBinningVS
  | kNonBinningVS
  | kNonVS
  | kTotalInstructions
  | kMinInstructions
  | kMaxInstructions
  | kMedianInstructions
  | kTotalGPRs
  | kMinGPRs
  | kMaxGPRs
  | kMedianGPRs
  | kTotalResolves
  | kColorSysMemToGmemResolves
  | kColorGmemToSysMemResolves
  | kDepthSysMemToGmemResolves
  | kDepthGmemToSysMemResolves
  | kColorClearGmemResolves
  | kDepthClearGmemResolves
  deriving DecidableEq

/-! ## Metadata -/

/-- `EventInfo`, with the fields that the statistics read. -/
structure TracedEvent extends EventInfo where
  shaderReferences : List ShaderReference
  numIndices : UInt32

/-- What a disassembled shader has. -/
structure ShaderCounts where
  numInstructions : UInt64
  gprCount : UInt32

/-- `UINT32_MAX`. -/
def noShaderIndex : UInt32 := 0xffffffff

/-- The references of an event that are gathered. -/
def TracedEvent.references (event : TracedEvent) : List ShaderReference :=
  event.shaderReferences.filter fun ref => ref.shaderIndex ≠ noShaderIndex

/-- `CaptureMetadata`: references are inside the list of shaders, and there are no more events than
`size_t` can count. -/
structure CaptureMetadata where
  eventInfo : List TracedEvent
  eventState : UInt32 → EventStateInfo
  shaders : List ShaderCounts
  size_lt : eventInfo.length < 2 ^ 64
  references_lt : ∀ event ∈ eventInfo, ∀ ref ∈ event.references,
    ref.shaderIndex.toNat < shaders.length

/-! ## Comparisons -/

/-- The number of a stage. -/
def stageNumber : ShaderStage → ℕ
  | .kShaderStageCs => 0
  | .kShaderStageGs => 1
  | .kShaderStageHs => 2
  | .kShaderStagePs => 3
  | .kShaderStageVs => 4

/-- `ShaderReference::operator<`. -/
def referenceLt (a b : ShaderReference) : Bool :=
  if a.shaderIndex ≠ b.shaderIndex then a.shaderIndex < b.shaderIndex
  else if a.stage ≠ b.stage then stageNumber a.stage < stageNumber b.stage
  else a.enableMask < b.enableMask

/-- `Viewport::operator<`. -/
def viewportLt (a b : VkViewport) : Bool :=
  if a.x != b.x then a.x < b.x
  else if a.y != b.y then a.y < b.y
  else if a.width != b.width then a.width < b.width
  else if a.height != b.height then a.height < b.height
  else if a.minDepth != b.minDepth then a.minDepth < b.minDepth
  else a.maxDepth < b.maxDepth

structure WindowScissor where
  tlX : UInt32
  tlY : UInt32
  brX : UInt32
  brY : UInt32

/-- `WindowScissor::operator<`. -/
def windowScissorLt (a b : WindowScissor) : Bool :=
  let area := (a.brX - a.tlX) * (a.brY - a.tlY)
  let otherArea := (b.brX - b.tlX) * (b.brY - b.tlY)
  if area ≠ otherArea then area < otherArea
  else if a.tlY ≠ b.tlY then a.tlY < b.tlY
  else if a.tlX ≠ b.tlX then a.tlX < b.tlX
  else if a.brY ≠ b.brY then a.brY < b.brY
  else a.brX < b.brX

/-! ## Statistics -/

/-- `m_stats_list` counts in 64 bits: no more than the events, or a shader for each reference. -/
structure CaptureStats where
  statsList : Stats → ℕ := fun _ => 0
  eventNumIndices : List UInt32 := []
  shaderRefSet : List ShaderReference := []
  viewports : List VkViewport := []
  windowScissors : List WindowScissor := []
  numBinningPasses : UInt32 := 0
  numTilingPasses : UInt32 := 0

namespace CaptureStats

/-- `stats_list[stat] = value`. -/
def assign (c : CaptureStats) (stat : Stats) (value : ℕ) : CaptureStats :=
  { c with statsList := Function.update c.statsList stat value }

/-- `stats_list[stat]++`. -/
def increment (c : CaptureStats) (stat : Stats) : CaptureStats :=
  c.assign stat (c.statsList stat + 1)

end CaptureStats

/-- `GatherResolves`. -/
def gatherResolves (resolveType : Stats) : List Stats := [.kTotalResolves, resolveType]

/-- `CHECK_AND_TRACK_STATE`: the states are set, and they are true. -/
def checkAndTrackState (stat : Stats) (states : List (Option Bool)) : List Stats :=
  if states.all (· == some true) then [stat] else []

def checkAndTrackStateEqual (stat : Stats) (state : Option UInt32) (value : UInt32) :
    List Stats :=
  if state == some value then [stat] else []

def checkAndTrackStateNotEqual (stat : Stats) (state : Option UInt32) (value : UInt32) :
    List Stats :=
  if state.any (· != value) then [stat] else []

/-- The statistics that a draw counts in. -/
def drawStats (renderMode : RenderModeType) (state : EventStateInfo) : List Stats :=
  (if renderMode = .kBinningVis then [.kBinningDraws]
    else if renderMode = .kDirect ∨ renderMode = .kBinningDirect then [.kDirectDraws]
    else if renderMode = .kTiled then [.kTiledDraws]
    else []) ++
  (if renderMode = .kDirect ∨ renderMode = .kBinningVis ∨ renderMode = .kBinningDirect ∨
      renderMode = .kTiled then
    checkAndTrackState .kDepthTestEnabled [state.depth.depthTestEnabled] ++
    checkAndTrackState .kDepthWriteEnabled
      [state.depth.depthTestEnabled, state.depth.depthWriteEnabled] ++
    if state.depth.depthTestEnabled.getD false then
      -- A6XX_EARLY_Z, A6XX_LATE_Z, A6XX_EARLY_Z_LATE_Z
      checkAndTrackStateEqual .kEarlyZ state.hardware.zTestMode 0 ++
      checkAndTrackStateEqual .kLateZ state.hardware.zTestMode 1 ++
      checkAndTrackStateEqual .kEarlyZLateZ state.hardware.zTestMode 2
    else []
  else []) ++
  (if renderMode = .kBinningVis then
    checkAndTrackState .kLrzEnabled [state.depth.depthTestEnabled, state.hardware.lrzEnabled] ++
    checkAndTrackState .kLrzWriteEnabled
      [state.depth.depthTestEnabled, state.depth.depthWriteEnabled, state.hardware.lrzWrite]
  else []) ++
  checkAndTrackStateNotEqual .kCullModeEnabled state.rasterizer.cullMode 0

/-- The statistics that an event counts in: the chain of alternatives over its type. -/
def typeStats (info : EventInfo) (state : EventStateInfo) : List Stats :=
  if info.type = .kDispatch then [.kDispatches]
  else if info.type = .kWaitMemWrites then [.kWaitMemWrites]
  else if info.type = .kWaitForIdle then [.kWaitForIdle]
  else if info.type = .kWaitForMe then [.kWaitForMe]
  else if info.type = .kColorSysMemToGmemResolve then gatherResolves .kColorSysMemToGmemResolves
  else if info.type = .kColorGmemToSysMemResolve ∨
      info.type = .kColorGmemToSysMemResolveAndClear then
    gatherResolves .kColorGmemToSysMemResolves
  else if info.type = .kDepthSysMemToGmemResolve then gatherResolves .kDepthSysMemToGmemResolves
  else if info.type = .kDepthGmemToSysMemResolve ∨
      info.type = .kDepthGmemToSysMemResolveAndClear then
    gatherResolves .kDepthGmemToSysMemResolves
  else if info.type = .kColorClearGmem ∨ info.type = .kColorGmemToSysMemResolveAndClear then
    gatherResolves .kColorClearGmemResolves
  else if info.type = .kDepthClearGmem ∨ info.type = .kDepthGmemToSysMemResolveAndClear then
    gatherResolves .kDepthClearGmemResolves
  else if info.type = .kDraw then drawStats info.renderMode state
  else []

/-- The window scissor of a state that has one. -/
def windowScissorOf (state : EventStateInfo) : Option WindowScissor := do
  let tlX ← state.hardware.windowScissorTLX
  let tlY ← state.hardware.windowScissorTLY
  let brX ← state.hardware.windowScissorBRX
  let brY ← state.hardware.windowScissorBRY
  some { tlX, tlY, brX, brY }

/-- The passes that begin with an event. -/
def gatherPass (c : CaptureStats) (curType renderMode : RenderModeType) : CaptureStats :=
  if renderMode ≠ curType then
    if renderMode = .kBinningVis then { c with numBinningPasses := c.numBinningPasses + 1 }
    else if renderMode = .kTiled then { c with numTilingPasses := c.numTilingPasses + 1 }
    else c
  else c

/-- What a draw adds besides. -/
def gatherDraw (c : CaptureStats) (numIndices : UInt32) (state : EventStateInfo) : CaptureStats :=
  { c with
    eventNumIndices :=
      if numIndices ≠ 0 then c.eventNumIndices ++ [numIndices] else c.eventNumIndices
    viewports := OrderedSet.insertAll viewportLt
      ((List.range 16).filterMap state.viewport.viewport) c.viewports
    windowScissors := (windowScissorOf state).elim c.windowScissors fun windowScissor =>
      OrderedSet.insert windowScissorLt windowScissor c.windowScissors }

/-- One event, and the render mode of the event before. -/
def gatherEvent (eventState : UInt32 → EventStateInfo) (st : CaptureStats × RenderModeType)
    (event : TracedEvent × ℕ) : CaptureStats × RenderModeType :=
  let info := event.1
  let state := eventState (UInt32.ofNat event.2)
  let c := gatherPass st.1 st.2 info.renderMode
  let c := (typeStats info.toEventInfo state).foldl CaptureStats.increment c
  let c := if info.type = .kDraw then gatherDraw c info.numIndices state else c
  ({ c with shaderRefSet := OrderedSet.insertAll referenceLt info.references c.shaderRefSet },
    info.renderMode)

/-! ## Order statistics -/

structure OrderStats where
  median : ℕ
  min : ℕ
  max : ℕ
  total : ℕ

/-- `GATHER_TOTAL_MIN_MAX_MEDIAN`, for elements of `w` bits. The mean of two elements is their sum
in the type of the elements, as a `float`, halved and rounded down. -/
def gatherTotalMinMaxMedian {w : ℕ} (array : List (BitVec w)) : OrderStats :=
  let sorted := (array.map BitVec.toNat).mergeSort
  let n := sorted.length
  { median :=
      if n % 2 ≠ 0 then sorted.getD (n / 2) 0
      else
        let mid1 := sorted.getD (n / 2 - 1) 0
        let mid2 := sorted.getD (n / 2) 0
        Significand.round 24 ((mid1 + mid2) % 2 ^ w) / 2
    min := sorted.tail.foldl min (sorted.headD 0)
    max := sorted.tail.foldl max (sorted.headD 0)
    total := sorted.foldl (fun sum x => (sum + x) % 2 ^ 64) 0 }

/-! ## All statistics -/

/-- A shader of the set. -/
def gatherShader (c : CaptureStats) (ref : ShaderReference) : CaptureStats :=
  if ref.stage = .kShaderStageVs then
    -- ShaderEnableBitMask::kBINNING
    if ref.enableMask &&& 1 ≠ 0 then c.increment .kBinningVS else c.increment .kNonBinningVS
  else c.increment .kNonVS

/-- The shader of a reference. -/
def CaptureMetadata.shader (m : CaptureMetadata) (index : UInt32) : ShaderCounts :=
  m.shaders.getD index.toNat ⟨0, 0⟩

/-- `shaders_num_instructions`. -/
def shadersNumInstructions (m : CaptureMetadata) (refs : List ShaderReference) :
    List (BitVec 64) :=
  refs.map fun ref => (m.shader ref.shaderIndex).numInstructions.toBitVec

/-- `shaders_num_gprs`. -/
def shadersNumGprs (m : CaptureMetadata) (refs : List ShaderReference) : List (BitVec 32) :=
  refs.map fun ref => (m.shader ref.shaderIndex).gprCount.toBitVec

/-- The statistics of a list that is not empty. -/
def gatherOrder {w : ℕ} (c : CaptureStats) (median min max total : Stats)
    (array : List (BitVec w)) : CaptureStats :=
  if array = [] then c
  else
    let stats := gatherTotalMinMaxMedian array
    (((c.assign median stats.median).assign min stats.min).assign max stats.max).assign total
      stats.total

/-- The events of a capture. -/
def gatherEvents (m : CaptureMetadata) : CaptureStats :=
  (m.eventInfo.zipIdx.foldl (gatherEvent m.eventState) ({}, .kUnknown)).1

/-- The statistics behind the events. -/
def gatherIndices (m : CaptureMetadata) : CaptureStats :=
  let c := gatherEvents m
  let c := (c.assign .kNumBinningPasses c.numBinningPasses.toNat).assign .kNumTilingPasses
    c.numTilingPasses.toNat
  let c := gatherOrder c .kMedianIndices .kMinIndices .kMaxIndices .kTotalIndices
    (c.eventNumIndices.map UInt32.toBitVec)
  c.assign .kShaders m.shaders.length

/-- The statistics behind the shaders. -/
def gatherShaders (m : CaptureMetadata) (c : CaptureStats) : CaptureStats :=
  let refs := c.shaderRefSet
  let c := refs.foldl gatherShader c
  let c := gatherOrder c .kMedianInstructions .kMinInstructions .kMaxInstructions
    .kTotalInstructions (shadersNumInstructions m refs)
  gatherOrder c .kMedianGPRs .kMinGPRs .kMaxGPRs .kTotalGPRs (shadersNumGprs m refs)

/-- `GatherTraceStats`; `context n` is what the `n`-th question to the context is answered. -/
def gatherTraceStats (context : ℕ → Bool) (m : CaptureMetadata) : CaptureStats :=
  let c := gatherIndices m
  let n := m.eventInfo.length
  if (List.range (n + c.shaderRefSet.length)).any context then {} else gatherShaders m c

end Dive.TraceStats
