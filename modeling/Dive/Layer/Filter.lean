import Mathlib.Data.Option.Basic

/-!
# The draw-call filter of the runtime layer

* `DrawcallFilterConfig`: what a client may ask for.
* `shouldFilterDrawCall`, `checkAndIncrementDrawcallCount`: the two tests before a draw is passed on
  to the driver.
-/

namespace Dive

/-- `DrawcallFilterConfig`. -/
structure DrawcallFilterConfig where
  targetRenderPassName : String := ""
  targetVertexCount : UInt32 := 0
  targetIndexCount : UInt32 := 0
  targetInstanceCount : UInt32 := 0
  maxDrawcalls : UInt32 := 0
  filterByVertexCount : Bool := false
  filterByIndexCount : Bool := false
  filterByInstanceCount : Bool := false
  enableDrawcallLimit : Bool := false
  filterByAlphaBlended : Bool := false
  filterByRenderPass : Bool := false
  deriving DecidableEq

/-- The counts that an entry point passes on: `vkCmdDraw` has no index count, the indirect and mesh
draws have none at all. -/
structure DrawCall where
  vertexCount : Option UInt32 := none
  indexCount : Option UInt32 := none
  instanceCount : Option UInt32 := none
  deriving DecidableEq

namespace DrawcallFilterConfig

variable (config : DrawcallFilterConfig)

/-- The counts of the draw match a filter. -/
def matchesCounts (d : DrawCall) : Bool :=
  (config.filterByVertexCount && d.vertexCount == some config.targetVertexCount) ||
    (config.filterByIndexCount && d.indexCount == some config.targetIndexCount) ||
    (config.filterByInstanceCount && d.instanceCount == some config.targetInstanceCount)

/-- `ShouldFilterDrawCall`, with the flags of the command buffer. -/
def shouldFilterDrawCall (d : DrawCall) (hasAlpha inFilteredRenderPass : Bool) : Bool :=
  config.matchesCounts d || (config.filterByAlphaBlended && hasAlpha) ||
    (config.filterByRenderPass && inFilteredRenderPass)

/-- `CheckAndIncrementDrawcallCount`: the draw is over the limit, and the counter afterwards. -/
def checkAndIncrementDrawcallCount (counter : UInt32) : Bool × UInt32 :=
  if config.enableDrawcallLimit then (config.maxDrawcalls ≤ counter, counter + 1)
  else (false, counter)

end DrawcallFilterConfig

end Dive
