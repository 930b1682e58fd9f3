import Dive.Hierarchy.StateReads

/-!
# The state that is recorded for an event

* `BitField` and the fields of the registers, as `a6xx.xml` has them.
* `readSet`, `fillWhileSet`: a register that is read where it is set, and a loop over a group of
  registers.
* `EventStateInfo`: the state of an event, by the categories of `event_state.json`; what is not set
  is `none`.
* `fillDrawEventStateInfo` and its parts, `fillResolveOrClearEventStateInfo`,
  `fillResolveEventStateInfo`: the values that the functions record.
* **`group_apply`**: an element is recorded when its register and all before it are set.
-/

namespace Dive

open Pm4CaptureData (GPUVariantType)

/-! ## Bit fields -/

/-- The lowest and the highest bit of a field. -/
structure BitField where
  low : ℕ
  high : ℕ

/-- `bitfields.NAME` of a register value. -/
def BitField.of (f : BitField) (u32All : UInt32) : UInt32 :=
  UInt32.ofNat ((u32All.toNat >>> f.low) % 2 ^ (f.high + 1 - f.low))

/-- The bit of a field of one bit. -/
def BitField.isOn (f : BitField) (u32All : UInt32) : Bool := u32All.toNat.testBit f.low

/-- The restart index ends a primitive. -/
def VPC_PC_CNTL.PRIMITIVE_RESTART : BitField := ⟨0, 0⟩

/-- The control points of a patch. -/
def PC_HS_PARAM_1.SIZE : BitField := ⟨0, 10⟩

-- `GRAS_SC_VIEWPORT_SCISSOR_TL` and `GRAS_SC_VIEWPORT_SCISSOR_BR`.
namespace GRAS_SC_VIEWPORT_SCISSOR
/-- The column of the corner. -/
def X : BitField := ⟨0, 15⟩
/-- The row of the corner. -/
def Y : BitField := ⟨16, 31⟩
end GRAS_SC_VIEWPORT_SCISSOR

-- `RB_RESOLVE_CNTL_1`, `RB_RESOLVE_CNTL_2` and the window scissors.
namespace A6XX_REG_XY
/-- The column of the corner. -/
def X : BitField := ⟨0, 13⟩
/-- The row of the corner. -/
def Y : BitField := ⟨16, 29⟩
end A6XX_REG_XY

/-- Depths are clamped. -/
def GRAS_CL_CNTL.Z_CLAMP_ENABLE : BitField := ⟨5, 5⟩

/-- Nothing is rasterized. -/
def VPC_RAST_STREAM_CNTL.DISCARD : BitField := ⟨2, 2⟩

/-- The polygon mode. -/
def PC_DGEN_RAST_CNTL.MODE : BitField := ⟨0, 1⟩

namespace GRAS_SU_CNTL
/-- Front faces are culled. -/
def CULL_FRONT : BitField := ⟨0, 0⟩
/-- Back faces are culled. -/
def CULL_BACK : BitField := ⟨1, 1⟩
/-- Clockwise faces are the front. -/
def FRONT_CW : BitField := ⟨2, 2⟩
/-- Half the line width. -/
def LINEHALFWIDTH : BitField := ⟨3, 10⟩
/-- Depths are biased. -/
def POLY_OFFSET : BitField := ⟨11, 11⟩
end GRAS_SU_CNTL

/-- The logarithm of the samples. -/
def GRAS_SC_RAS_MSAA_CNTL.SAMPLES : BitField := ⟨0, 1⟩

/-- The alpha decides the coverage. -/
def RB_BLEND_CNTL.ALPHA_TO_COVERAGE : BitField := ⟨10, 10⟩

namespace RB_DEPTH_CNTL
/-- Depths are tested. -/
def Z_TEST_ENABLE : BitField := ⟨0, 0⟩
/-- Depths are written. -/
def Z_WRITE_ENABLE : BitField := ⟨1, 1⟩
/-- How depths are compared. -/
def ZFUNC : BitField := ⟨2, 4⟩
/-- Depths are tested for bounds. -/
def Z_BOUNDS_ENABLE : BitField := ⟨7, 7⟩
end RB_DEPTH_CNTL

namespace RB_STENCIL_CNTL
/-- Stencils are tested. -/
def STENCIL_ENABLE : BitField := ⟨0, 0⟩
/-- The comparison of the front. -/
def FUNC : BitField := ⟨8, 10⟩
/-- What a failed stencil test does. -/
def FAIL : BitField := ⟨11, 13⟩
/-- What a passed depth test does. -/
def ZPASS : BitField := ⟨14, 16⟩
/-- What a failed depth test does. -/
def ZFAIL : BitField := ⟨17, 19⟩
/-- The comparison of the back. -/
def FUNC_BF : BitField := ⟨20, 22⟩
/-- `FAIL` of the back. -/
def FAIL_BF : BitField := ⟨23, 25⟩
/-- `ZPASS` of the back. -/
def ZPASS_BF : BitField := ⟨26, 28⟩
/-- `ZFAIL` of the back. -/
def ZFAIL_BF : BitField := ⟨29, 31⟩
end RB_STENCIL_CNTL

-- `RB_STENCIL_REF_CNTL`, `RB_STENCIL_MASK` and `RB_STENCIL_WRITE_MASK`: a byte for the front and
-- a byte for the back.
namespace RB_STENCIL_BYTES
/-- The byte of the front. -/
def FRONT : BitField := ⟨0, 7⟩
/-- The byte of the back. -/
def BACK : BitField := ⟨8, 15⟩
end RB_STENCIL_BYTES

namespace RB_MRT_CONTROL
/-- The attachment is blended. -/
def BLEND : BitField := ⟨0, 0⟩
/-- The logic operation is on. -/
def ROP_ENABLE : BitField := ⟨2, 2⟩
/-- The logic operation. -/
def ROP_CODE : BitField := ⟨3, 6⟩
/-- The components that are written. -/
def COMPONENT_ENABLE : BitField := ⟨7, 10⟩
end RB_MRT_CONTROL

namespace RB_MRT_BLEND_CONTROL
/-- The factor of the source color. -/
def RGB_SRC_FACTOR : BitField := ⟨0, 4⟩
/-- How colors are blended. -/
def RGB_BLEND_OPCODE : BitField := ⟨5, 7⟩
/-- The factor of the old color. -/
def RGB_DEST_FACTOR : BitField := ⟨8, 12⟩
/-- The factor of the source alpha. -/
def ALPHA_SRC_FACTOR : BitField := ⟨16, 20⟩
/-- How alphas are blended. -/
def ALPHA_BLEND_OPCODE : BitField := ⟨21, 23⟩
/-- The factor of the old alpha. -/
def ALPHA_DEST_FACTOR : BitField := ⟨24, 28⟩
end RB_MRT_BLEND_CONTROL

namespace GRAS_LRZ_CNTL
/-- Low-resolution depths are in use. -/
def ENABLE : BitField := ⟨0, 0⟩
/-- They are written. -/
def LRZ_WRITE : BitField := ⟨1, 1⟩
/-- Their direction. -/
def DIR : BitField := ⟨6, 7⟩
/-- The direction is written. -/
def DIR_WRITE : BitField := ⟨8, 8⟩
end GRAS_LRZ_CNTL

/-- When depths are tested. -/
def GRAS_SU_DEPTH_PLANE_CNTL.Z_MODE : BitField := ⟨0, 1⟩

-- Of two registers of one name the header has the first, that of `A6XX-A7XX`.
namespace GRAS_SC_BIN_CNTL
/-- The width of a bin. -/
def BINW : BitField := ⟨0, 5⟩
/-- The height of a bin. -/
def BINH : BitField := ⟨8, 14⟩
/-- The mode of rendering. -/
def RENDER_MODE : BitField := ⟨18, 20⟩
/-- Where the buffers are. -/
def BUFFERS_LOCATION : BitField := ⟨22, 23⟩
end GRAS_SC_BIN_CNTL

namespace SP_PS_CNTL_0
/-- The size of a wave. -/
def THREADSIZE : BitField := ⟨20, 20⟩
/-- All helper lanes run. -/
def LODPIXMASK : BitField := ⟨23, 23⟩
/-- Some helper lanes run. -/
def PIXLODENABLE : BitField := ⟨26, 26⟩
end SP_PS_CNTL_0

-- The header has the register with more fields, that of `A7XX-`.
namespace RB_MRT_BUF_INFO
/-- The tile mode; `TILE6_3` is compressed. -/
def COLOR_TILE_MODE : BitField := ⟨8, 9⟩
/-- Lossless compression is on. -/
def LOSSLESSCOMPEN : BitField := ⟨11, 11⟩
end RB_MRT_BUF_INFO

namespace RB_DEPTH_BUFFER_INFO
/-- The tile mode; `TILE6_3` is compressed. -/
def TILEMODE : BitField := ⟨5, 6⟩
/-- Lossless compression is on. -/
def LOSSLESSCOMPEN : BitField := ⟨7, 7⟩
end RB_DEPTH_BUFFER_INFO

/-- `TILE6_3`. -/
def TILE6_3 : UInt32 := 3

/-! ## Recorded values -/

/-- A viewport with its depths. -/
structure VkViewport where
  x : Float32
  y : Float32
  width : Float32
  height : Float32
  minDepth : Float32
  maxDepth : Float32

/-- A corner. -/
structure VkOffset2D where
  x : Int32
  y : Int32

/-- A size. -/
structure VkExtent2D where
  width : UInt32
  height : UInt32

/-- A rectangle. -/
structure VkRect2D where
  offset : VkOffset2D
  extent : VkExtent2D

/-- How polygons are drawn. -/
inductive VkPolygonMode
  | VK_POLYGON_MODE_FILL
  | VK_POLYGON_MODE_LINE
  | VK_POLYGON_MODE_POINT

/-- Which faces are the front. -/
inductive VkFrontFace
  | VK_FRONT_FACE_COUNTER_CLOCKWISE
  | VK_FRONT_FACE_CLOCKWISE

/-- The members that no register fills are not initialised. -/
structure VkStencilOpState where
  failOp : UInt32
  passOp : UInt32
  depthFailOp : UInt32
  compareOp : UInt32
  compareMask : Option UInt32
  writeMask : Option UInt32
  reference : Option UInt32

/-- How an attachment is blended. -/
structure VkPipelineColorBlendAttachmentState where
  blendEnable : Bool
  srcColorBlendFactor : UInt32
  dstColorBlendFactor : UInt32
  colorBlendOp : UInt32
  srcAlphaBlendFactor : UInt32
  dstAlphaBlendFactor : UInt32
  alphaBlendOp : UInt32
  colorWriteMask : UInt32

/-- The logic operations, by their Vulkan values. -/
inductive VkLogicOp
  | VK_LOGIC_OP_CLEAR
  | VK_LOGIC_OP_AND
  | VK_LOGIC_OP_AND_REVERSE
  | VK_LOGIC_OP_COPY
  | VK_LOGIC_OP_AND_INVERTED
  | VK_LOGIC_OP_NO_OP
  | VK_LOGIC_OP_XOR
  | VK_LOGIC_OP_OR
  | VK_LOGIC_OP_NOR
  | VK_LOGIC_OP_EQUIVALENT
  | VK_LOGIC_OP_INVERT
  | VK_LOGIC_OP_OR_REVERSE
  | VK_LOGIC_OP_COPY_INVERTED
  | VK_LOGIC_OP_OR_INVERTED
  | VK_LOGIC_OP_NAND
  | VK_LOGIC_OP_SET

/-- `lookup`. -/
def VkLogicOp.lookup : List VkLogicOp := [
  .VK_LOGIC_OP_CLEAR, .VK_LOGIC_OP_NOR, .VK_LOGIC_OP_AND_INVERTED, .VK_LOGIC_OP_COPY_INVERTED,
  .VK_LOGIC_OP_AND_REVERSE, .VK_LOGIC_OP_INVERT, .VK_LOGIC_OP_XOR, .VK_LOGIC_OP_NAND,
  .VK_LOGIC_OP_AND, .VK_LOGIC_OP_EQUIVALENT, .VK_LOGIC_OP_NO_OP, .VK_LOGIC_OP_OR_INVERTED,
  .VK_LOGIC_OP_COPY, .VK_LOGIC_OP_OR_REVERSE, .VK_LOGIC_OP_OR, .VK_LOGIC_OP_SET]

/-! ## Registers that are read where they are set -/

namespace RegisterTracker

variable (t : RegisterTracker) (plane : ShaderEnableBit)

/-- `if (IsRegSet(offset)) { reg.u32All = GetRegValue(offset); ... }`, in a mode. -/
def readSet (offset : UInt32) : Option UInt32 :=
  if t.regIsSet plane offset then some (t.reg plane offset) else none

/-- The register of an element of a group. -/
def groupReg (start stride : UInt32) (id : ℕ) : UInt32 := start + stride * UInt32.ofNat id

/-- `while (id < n && IsRegSet(start + stride * id)) { Set...(id, body); ++id; }`, in a mode, with
`fuel` elements to go. -/
def fillWhileSet {α : Type} (start stride : UInt32) (body : UInt32 → α) :
    ℕ → ℕ → (ℕ → Option α) → ℕ → Option α
  | 0, _, elements => elements
  | fuel + 1, id, elements =>
    if t.regIsSet plane (groupReg start stride id) then
      fillWhileSet start stride body fuel (id + 1)
        (Function.update elements id (some (body (groupReg start stride id))))
    else elements

/-- A loop over the first `n` elements of a group. -/
def group {α : Type} (start stride : UInt32) (n : ℕ) (body : UInt32 → α) : ℕ → Option α :=
  t.fillWhileSet plane start stride body n 0 fun _ => none

/-- The registers of the group are set, for the element. -/
def groupSet (start stride : UInt32) (id : ℕ) : Bool :=
  t.regIsSet plane (groupReg start stride id)

end RegisterTracker

/-! ## Loops over a group -/

namespace RegisterTracker

variable {t : RegisterTracker} {plane : ShaderEnableBit} {α : Type} {start stride : UInt32}
  {body : UInt32 → α}

theorem fillWhileSet_of_lt (fuel : ℕ) {id i : ℕ} (h : i < id) (elements : ℕ → Option α) :
    t.fillWhileSet plane start stride body fuel id elements i = elements i := by
  induction fuel generalizing id elements with
  | zero => rfl
  | succ fuel ih =>
    rw [fillWhileSet]
    split_ifs
    · rw [ih (h.trans (Nat.lt_succ_self id)), Function.update_of_ne h.ne]
    · rfl

theorem fillWhileSet_apply (fuel id k : ℕ) (elements : ℕ → Option α) :
    t.fillWhileSet plane start stride body fuel id elements (id + k) =
      if k < fuel ∧ ∀ j ≤ k, t.groupSet plane start stride (id + j) = true then
        some (body (groupReg start stride (id + k)))
      else elements (id + k) := by
  induction fuel generalizing id k elements with
  | zero => simp [fillWhileSet]
  | succ fuel ih =>
    rw [fillWhileSet]
    by_cases hset : t.regIsSet plane (groupReg start stride id) = true
    · rw [if_pos hset]
      cases k with
      | zero =>
        rw [Nat.add_zero id, fillWhileSet_of_lt fuel id.lt_add_one, Function.update_self, if_pos]
        exact ⟨Nat.succ_pos fuel, fun j hj => by rw [Nat.le_zero.mp hj]; exact hset⟩
      | succ k =>
        have hnext : id + (k + 1) = id + 1 + k := by omega
        have hne : id + 1 + k ≠ id := by omega
        rw [hnext, ih, Function.update_of_ne hne]
        refine if_congr (and_congr Nat.succ_lt_succ_iff.symm ?_) rfl rfl
        constructor
        · intro h j hj
          cases j with
          | zero => exact hset
          | succ j => rw [← Nat.succ_add_eq_add_succ]; exact h j (Nat.succ_le_succ_iff.mp hj)
        · intro h j hj
          rw [Nat.succ_add_eq_add_succ]
          exact h (j + 1) (Nat.succ_le_succ hj)
    · rw [if_neg hset, if_neg]
      exact fun h => hset (h.2 0 (Nat.zero_le k))

/-- **The elements of a group**: those in front of the first register that is not set. -/
theorem group_apply (n i : ℕ) :
    t.group plane start stride n body i =
      if i < n ∧ ∀ j ≤ i, t.groupSet plane start stride j = true then
        some (body (groupReg start stride i))
      else none := by
  have h := @fillWhileSet_apply t plane α start stride body n 0 i fun _ => none
  rw [group]
  simpa only [Nat.zero_add] using h

end RegisterTracker

/-! ## The state of an event -/

/-- The category `Input Assembly`. -/
structure InputAssemblyState where
  primRestartEnabled : Option Bool

/-- The category `Tessellation`. -/
structure TessellationState where
  patchControlPoints : Option UInt32

/-- The category `Viewport`, for each of 16 viewports. -/
structure ViewportState where
  viewport : ℕ → Option VkViewport
  scissor : ℕ → Option VkRect2D

/-- The category `Rasterizer`. -/
structure RasterizerState where
  depthClampEnabled : Option Bool
  rasterizerDiscardEnabled : Option Bool
  polygonMode : Option VkPolygonMode
  cullMode : Option UInt32
  frontFace : Option VkFrontFace
  depthBiasEnabled : Option Bool
  lineWidth : Option Float32
  depthBiasConstantFactor : Option Float32
  depthBiasClamp : Option Float32
  depthBiasSlopeFactor : Option Float32

/-- The category `Msaa`. -/
structure MultisamplingState where
  rasterizationSamples : Option UInt32
  alphaToCoverageEnabled : Option Bool

/-- The categories `Depth` and `Stencil`. -/
structure DepthState where
  depthTestEnabled : Option Bool
  depthWriteEnabled : Option Bool
  depthCompareOp : Option UInt32
  depthBoundsTestEnabled : Option Bool
  minDepthBounds : Option Float32
  maxDepthBounds : Option Float32
  stencilTestEnabled : Option Bool
  stencilOpStateFront : Option VkStencilOpState
  stencilOpStateBack : Option VkStencilOpState

/-- The category `Color Blend`, for each of 8 attachments. -/
structure ColorBlendState where
  attachment : ℕ → Option VkPipelineColorBlendAttachmentState
  logicOpEnabled : ℕ → Option Bool
  logicOp : ℕ → Option VkLogicOp
  blendConstant : Option (Float32 × Float32 × Float32 × Float32)

/-- The category `GPU-specific`. -/
structure HardwareSpecificStates where
  lrzEnabled : Option Bool
  lrzWrite : Option Bool
  lrzDirStatus : Option UInt32
  lrzDirWrite : Option Bool
  zTestMode : Option UInt32
  binW : Option UInt32
  binH : Option UInt32
  renderMode : Option UInt32
  buffersLocation : Option UInt32
  windowScissorTLX : Option UInt32
  windowScissorTLY : Option UInt32
  windowScissorBRX : Option UInt32
  windowScissorBRY : Option UInt32
  threadSize : Option UInt32
  enableAllHelperLanes : Option Bool
  enablePartialHelperLanes : Option Bool
  ubwcEnabled : ℕ → Option Bool
  ubwcLosslessEnabled : ℕ → Option Bool
  ubwcEnabledOnDS : Option Bool
  ubwcLosslessEnabledOnDS : Option Bool

/-- The state of a draw. -/
structure EventStateInfo where
  inputAssembly : InputAssemblyState
  tessellation : TessellationState
  viewport : ViewportState
  rasterizer : RasterizerState
  multisampling : MultisamplingState
  depth : DepthState
  colorBlend : ColorBlendState
  hardware : HardwareSpecificStates

/-- The state of a resolve or a clear. -/
structure ResolveState where
  resolveBaseGmem : Option UInt32
  resolveScissor : Option VkRect2D
  resolveBaseSysmem : Option UInt64

/-- What the description of `GRAS_SC_BIN_CNTL` says of its fields. -/
structure BinCntlInfo where
  /-- `m_shr` of `BINW`. -/
  shrW : UInt32
  /-- `m_shr` of `BINH`. -/
  shrH : UInt32
  /-- `IsFieldEnabled` of `BUFFERS_LOCATION`. -/
  buffersLocation : Bool

namespace CaptureMetadataCreator

section Fill

variable (regOffset : String → UInt32) (t : RegisterTracker) (plane : ShaderEnableBit)

/-- `if (IsRegSet(GetRegOffsetByName(name)))`. -/
def named (name : String) : Option UInt32 := t.readSet plane (regOffset name)

/-- `FillInputAssemblyState`. -/
def fillInputAssemblyState : InputAssemblyState where
  primRestartEnabled := (named regOffset t plane "PC_CNTL").map fun u32All =>
    VPC_PC_CNTL.PRIMITIVE_RESTART.of u32All == 1

/-- `FillTessellationState`. -/
def fillTessellationState : TessellationState where
  patchControlPoints := (named regOffset t plane "PC_HS_PARAM_1").map PC_HS_PARAM_1.SIZE.of

/-- The viewport of six registers. -/
def viewportAt (viewportReg : UInt32) : VkViewport :=
  let f32All (i : UInt32) := Float32.ofBits (t.reg plane (viewportReg + i))
  let xOffset := f32All 0
  let xScale := f32All 1
  let yOffset := f32All 2
  let yScale := f32All 3
  let zOffset := f32All 4
  let zScale := f32All 5
  { x := xOffset - xScale
    width := xScale * 2
    y := yOffset - yScale
    height := yScale * 2
    minDepth := zOffset
    maxDepth := zScale + zOffset }

/-- The rectangle of two registers. -/
def scissorAt (scissorReg : UInt32) : VkRect2D :=
  let tl := t.reg plane scissorReg
  let br := t.reg plane (scissorReg + 1)
  { offset :=
      ⟨(GRAS_SC_VIEWPORT_SCISSOR.X.of tl).toInt32, (GRAS_SC_VIEWPORT_SCISSOR.Y.of tl).toInt32⟩
    extent :=
      ⟨GRAS_SC_VIEWPORT_SCISSOR.X.of br - GRAS_SC_VIEWPORT_SCISSOR.X.of tl,
        GRAS_SC_VIEWPORT_SCISSOR.Y.of br - GRAS_SC_VIEWPORT_SCISSOR.Y.of tl⟩ }

/-- `FillViewportState`: both loops over the groups. -/
def fillViewportState : ViewportState where
  viewport := t.group plane (regOffset "GRAS_CL_VIEWPORT0_XOFFSET") 6 16 (viewportAt t plane)
  scissor := t.group plane (regOffset "GRAS_SC_VIEWPORT_SCISSOR0_TL") 2 16 (scissorAt t plane)

/-- The mode of a polygon; `none` is only an assertion. -/
def polygonModeOf (mode : UInt32) : Option VkPolygonMode :=
  if mode = 3 then some .VK_POLYGON_MODE_FILL
  else if mode = 2 then some .VK_POLYGON_MODE_LINE
  else if mode = 1 then some .VK_POLYGON_MODE_POINT
  else none

/-- `FillRasterizerState`. -/
def fillRasterizerState : RasterizerState :=
  let suCntl := named regOffset t plane "GRAS_SU_CNTL"
  { depthClampEnabled := (named regOffset t plane "GRAS_CL_CNTL").map fun u32All =>
      GRAS_CL_CNTL.Z_CLAMP_ENABLE.of u32All != 1
    rasterizerDiscardEnabled := (named regOffset t plane "VPC_RAST_STREAM_CNTL").map fun u32All =>
      VPC_RAST_STREAM_CNTL.DISCARD.of u32All == 1
    polygonMode := (named regOffset t plane "PC_DGEN_RAST_CNTL").bind fun u32All =>
      polygonModeOf (PC_DGEN_RAST_CNTL.MODE.of u32All)
    cullMode := suCntl.map fun u32All =>
      (if GRAS_SU_CNTL.CULL_FRONT.of u32All != 0 then 1 else 0) |||
        (if GRAS_SU_CNTL.CULL_BACK.of u32All != 0 then 2 else 0)
    frontFace := suCntl.map fun u32All =>
      if GRAS_SU_CNTL.FRONT_CW.of u32All == 0 then .VK_FRONT_FACE_COUNTER_CLOCKWISE
      else .VK_FRONT_FACE_CLOCKWISE
    depthBiasEnabled := suCntl.map fun u32All => GRAS_SU_CNTL.POLY_OFFSET.of u32All == 1
    lineWidth := suCntl.map fun u32All => (GRAS_SU_CNTL.LINEHALFWIDTH.of u32All).toFloat32 * 2
    depthBiasConstantFactor :=
      (named regOffset t plane "GRAS_SU_POLY_OFFSET_OFFSET").map Float32.ofBits
    depthBiasClamp :=
      (named regOffset t plane "GRAS_SU_POLY_OFFSET_OFFSET_CLAMP").map Float32.ofBits
    depthBiasSlopeFactor :=
      (named regOffset t plane "GRAS_SU_POLY_OFFSET_SCALE").map Float32.ofBits }

/-- `FillMultisamplingState`. -/
def fillMultisamplingState : MultisamplingState where
  rasterizationSamples := (named regOffset t plane "GRAS_SC_RAS_MSAA_CNTL").map fun u32All =>
    1 <<< GRAS_SC_RAS_MSAA_CNTL.SAMPLES.of u32All
  alphaToCoverageEnabled := (named regOffset t plane "RB_BLEND_CNTL").map fun u32All =>
    RB_BLEND_CNTL.ALPHA_TO_COVERAGE.of u32All != 1

/-- `FillDepthState`; the bounds are read below `RB_DEPTH_CNTL`. -/
def fillDepthState : DepthState :=
  let depthCntl := named regOffset t plane "RB_DEPTH_CNTL"
  let stencilCntl := named regOffset t plane "RB_STENCIL_CNTL"
  let byte (field : BitField) (name : String) := (named regOffset t plane name).map field.of
  { depthTestEnabled := depthCntl.map fun u32All => RB_DEPTH_CNTL.Z_TEST_ENABLE.of u32All != 0
    depthWriteEnabled := depthCntl.map fun u32All => RB_DEPTH_CNTL.Z_WRITE_ENABLE.of u32All != 0
    depthCompareOp := depthCntl.map RB_DEPTH_CNTL.ZFUNC.of
    depthBoundsTestEnabled := depthCntl.map fun u32All =>
      RB_DEPTH_CNTL.Z_BOUNDS_ENABLE.of u32All == 1
    minDepthBounds := depthCntl.bind fun _ =>
      (named regOffset t plane "RB_DEPTH_BOUND_MIN").map Float32.ofBits
    maxDepthBounds := depthCntl.bind fun _ =>
      (named regOffset t plane "RB_DEPTH_BOUND_MAX").map Float32.ofBits
    stencilTestEnabled := stencilCntl.map fun u32All =>
      RB_STENCIL_CNTL.STENCIL_ENABLE.of u32All == 1
    stencilOpStateFront := stencilCntl.map fun u32All =>
      { failOp := RB_STENCIL_CNTL.FAIL.of u32All
        passOp := RB_STENCIL_CNTL.ZPASS.of u32All
        depthFailOp := RB_STENCIL_CNTL.ZFAIL.of u32All
        compareOp := RB_STENCIL_CNTL.FUNC.of u32All
        reference := byte RB_STENCIL_BYTES.FRONT "RB_STENCIL_REF_CNTL"
        compareMask := byte RB_STENCIL_BYTES.FRONT "RB_STENCIL_MASK"
        writeMask := byte RB_STENCIL_BYTES.FRONT "RB_STENCIL_WRITE_MASK" }
    stencilOpStateBack := stencilCntl.map fun u32All =>
      { failOp := RB_STENCIL_CNTL.FAIL_BF.of u32All
        passOp := RB_STENCIL_CNTL.ZPASS_BF.of u32All
        depthFailOp := RB_STENCIL_CNTL.ZFAIL_BF.of u32All
        compareOp := RB_STENCIL_CNTL.FUNC_BF.of u32All
        reference := byte RB_STENCIL_BYTES.BACK "RB_STENCIL_REF_CNTL"
        compareMask := byte RB_STENCIL_BYTES.BACK "RB_STENCIL_MASK"
        writeMask := byte RB_STENCIL_BYTES.BACK "RB_STENCIL_WRITE_MASK" } }

/-- The attachment of two registers. -/
def attachmentAt (mrtReg : UInt32) : VkPipelineColorBlendAttachmentState :=
  let control := t.reg plane mrtReg
  let blendControl := t.reg plane (mrtReg + 1)
  { blendEnable := RB_MRT_CONTROL.BLEND.of control == 1
    srcColorBlendFactor := RB_MRT_BLEND_CONTROL.RGB_SRC_FACTOR.of blendControl
    dstColorBlendFactor := RB_MRT_BLEND_CONTROL.RGB_DEST_FACTOR.of blendControl
    colorBlendOp := RB_MRT_BLEND_CONTROL.RGB_BLEND_OPCODE.of blendControl
    srcAlphaBlendFactor := RB_MRT_BLEND_CONTROL.ALPHA_SRC_FACTOR.of blendControl
    dstAlphaBlendFactor := RB_MRT_BLEND_CONTROL.ALPHA_DEST_FACTOR.of blendControl
    alphaBlendOp := RB_MRT_BLEND_CONTROL.ALPHA_BLEND_OPCODE.of blendControl
    colorWriteMask := RB_MRT_CONTROL.COMPONENT_ENABLE.of control }

/-- The logic operation of a register, where the look-up table has its code. -/
def logicOpAt (mrtReg : UInt32) : Option (Bool × VkLogicOp) :=
  let control := t.reg plane mrtReg
  VkLogicOp.lookup[(RB_MRT_CONTROL.ROP_CODE.of control).toNat]?.map fun op =>
    (RB_MRT_CONTROL.ROP_ENABLE.of control == 1, op)

/-- `FillColorBlendState`: the attachments and the blend constant. -/
def fillColorBlendState : ColorBlendState :=
  let mrt0Control := regOffset "RB_MRT0_CONTROL"
  let logicOps := t.group plane mrt0Control 8 8 (logicOpAt t plane)
  { attachment := t.group plane mrt0Control 8 8 (attachmentAt t plane)
    logicOpEnabled := fun rtId => (logicOps rtId).join.map Prod.fst
    logicOp := fun rtId => (logicOps rtId).join.map Prod.snd
    blendConstant := (named regOffset t plane "RB_BLEND_CONSTANT_RED_FP32").map fun red =>
      (Float32.ofBits red,
        Float32.ofBits (t.reg plane (regOffset "RB_BLEND_CONSTANT_GREEN_FP32")),
        Float32.ofBits (t.reg plane (regOffset "RB_BLEND_CONSTANT_BLUE_FP32")),
        Float32.ofBits (t.reg plane (regOffset "RB_BLEND_CONSTANT_ALPHA_FP32"))) }

/-- `GetGPUVariantType() >= kA7XX`. -/
def hasLossless (variant : GPUVariantType) : Bool := Pm4Info.fromA7XX variant

/-- `FillHardwareSpecificStates`. -/
def fillHardwareSpecificStates (variant : GPUVariantType) (binInfo : BinCntlInfo) :
    HardwareSpecificStates :=
  let lrzCntl := named regOffset t plane "GRAS_LRZ_CNTL"
  -- `if (lrz_enabled)`
  let lrzOn := lrzCntl.filter fun u32All => GRAS_LRZ_CNTL.ENABLE.of u32All != 0
  let binCntl := named regOffset t plane "GRAS_SC_BIN_CNTL"
  let scissorTL := named regOffset t plane "GRAS_SC_WINDOW_SCISSOR_TL"
  let scissorBR := named regOffset t plane "GRAS_SC_WINDOW_SCISSOR_BR"
  let psCntl := named regOffset t plane "SP_PS_CNTL_0"
  let mrt0BufInfo := regOffset "RB_MRT0_BUF_INFO"
  let depthBufInfo :=
    if hasLossless variant then named regOffset t plane "RB_DEPTH_BUFFER_INFO" else none
  { lrzEnabled := lrzCntl.map fun u32All => GRAS_LRZ_CNTL.ENABLE.of u32All != 0
    lrzWrite := lrzOn.map fun u32All => GRAS_LRZ_CNTL.LRZ_WRITE.of u32All != 0
    lrzDirStatus := lrzOn.map GRAS_LRZ_CNTL.DIR.of
    lrzDirWrite := lrzOn.map fun u32All => GRAS_LRZ_CNTL.DIR_WRITE.of u32All != 0
    zTestMode :=
      (named regOffset t plane "GRAS_SU_DEPTH_PLANE_CNTL").map GRAS_SU_DEPTH_PLANE_CNTL.Z_MODE.of
    binW := binCntl.map fun u32All => GRAS_SC_BIN_CNTL.BINW.of u32All <<< binInfo.shrW
    binH := binCntl.map fun u32All => GRAS_SC_BIN_CNTL.BINH.of u32All <<< binInfo.shrH
    renderMode := binCntl.map GRAS_SC_BIN_CNTL.RENDER_MODE.of
    buffersLocation := if binInfo.buffersLocation then
      binCntl.map GRAS_SC_BIN_CNTL.BUFFERS_LOCATION.of else none
    windowScissorTLX := scissorTL.map A6XX_REG_XY.X.of
    windowScissorTLY := scissorTL.map A6XX_REG_XY.Y.of
    windowScissorBRX := scissorBR.map A6XX_REG_XY.X.of
    windowScissorBRY := scissorBR.map A6XX_REG_XY.Y.of
    threadSize := psCntl.map SP_PS_CNTL_0.THREADSIZE.of
    enableAllHelperLanes := psCntl.map fun u32All => SP_PS_CNTL_0.LODPIXMASK.of u32All != 0
    enablePartialHelperLanes := psCntl.map fun u32All => SP_PS_CNTL_0.PIXLODENABLE.of u32All != 0
    ubwcEnabled := t.group plane mrt0BufInfo 8 8 fun mrtReg =>
      RB_MRT_BUF_INFO.COLOR_TILE_MODE.of (t.reg plane mrtReg) == TILE6_3
    ubwcLosslessEnabled := if hasLossless variant then
        t.group plane mrt0BufInfo 8 8 fun mrtReg =>
          RB_MRT_BUF_INFO.LOSSLESSCOMPEN.of (t.reg plane mrtReg) == 1
      else fun _ => none
    ubwcEnabledOnDS := depthBufInfo.map fun u32All =>
      RB_DEPTH_BUFFER_INFO.TILEMODE.of u32All == TILE6_3
    ubwcLosslessEnabledOnDS := depthBufInfo.map fun u32All =>
      RB_DEPTH_BUFFER_INFO.LOSSLESSCOMPEN.of u32All == 1 }

/-- `FillDrawEventStateInfo`, category by category. -/
def fillDrawEventStateInfo (variant : GPUVariantType) (binInfo : BinCntlInfo) : EventStateInfo where
  inputAssembly := fillInputAssemblyState regOffset t plane
  tessellation := fillTessellationState regOffset t plane
  viewport := fillViewportState regOffset t plane
  rasterizer := fillRasterizerState regOffset t plane
  multisampling := fillMultisamplingState regOffset t plane
  depth := fillDepthState regOffset t plane
  colorBlend := fillColorBlendState regOffset t plane
  hardware := fillHardwareSpecificStates regOffset t plane variant binInfo

/-- The rectangle of `RB_RESOLVE_CNTL_1` and `RB_RESOLVE_CNTL_2`. -/
def resolveRect (cntl1 cntl2 : UInt32) : VkRect2D :=
  let x := (A6XX_REG_XY.X.of cntl1).toInt32
  let y := (A6XX_REG_XY.Y.of cntl1).toInt32
  { offset := ⟨x, y⟩
    extent := ⟨A6XX_REG_XY.X.of cntl2 - x.toUInt32, A6XX_REG_XY.Y.of cntl2 - y.toUInt32⟩ }

/-- `FillResolveOrClearEventStateInfo`, and for a resolve also `FillResolveEventStateInfo`. -/
def fillResolveOrClearEventStateInfo (isResolve : Bool) : ResolveState where
  resolveBaseGmem := named regOffset t plane "RB_RESOLVE_GMEM_BUFFER_BASE"
  resolveScissor := do
    let cntl1 ← named regOffset t plane "RB_RESOLVE_CNTL_1"
    let cntl2 ← named regOffset t plane "RB_RESOLVE_CNTL_2"
    some (resolveRect cntl1 cntl2)
  resolveBaseSysmem := do
    guard isResolve
    let base := regOffset "RB_RESOLVE_SYSTEM_BUFFER_BASE"
    let low ← t.readSet plane base
    some (low.toUInt64 ||| (t.reg plane (base + 1)).toUInt64 <<< 32)

/-- The states of a draw and of a resolve or a clear, in the mode of the tracker. -/
def recordedStates (variant : GPUVariantType) (binInfo : BinCntlInfo) (isResolve : Bool) :
    Option (EventStateInfo × ResolveState) :=
  t.shaderEnableBit.map fun plane =>
    (fillDrawEventStateInfo regOffset t plane variant binInfo,
      fillResolveOrClearEventStateInfo regOffset t plane isResolve)

end Fill

end CaptureMetadataCreator

end Dive
