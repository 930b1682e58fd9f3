import Dive.Hierarchy.EventState
import Dive.Hierarchy.RegisterIndices

/-!
# What the recorded state says of the registers

* `RegGroup`, `Enable`, `GroupEnable`: the register groups, and the booleans with the registers
  that enable them.
* `FollowsRegisters`: elements are recorded where their registers are set, extents are differences
  of corners, and booleans are the enables of their registers.
* `Regular`: the registers of a group are set without a gap, corners come in order, and the two
  registers that are read the other way round are not set.
* **`followsRegisters_iff`**: the state follows the registers exactly when they are regular.
* **`depthClamp_not_follows`**: a tracker with the depth clamp on.
-/

namespace Dive

open Pm4CaptureData (GPUVariantType)

/-! ## Bits -/

theorem BitField.toNat_of (f : BitField) (u32All : UInt32) :
    (f.of u32All).toNat = (u32All.toNat >>> f.low) % 2 ^ (f.high + 1 - f.low) := by
  rw [BitField.of, UInt32.toNat_ofNat']
  refine Nat.mod_eq_of_lt ?_
  calc (u32All.toNat >>> f.low) % 2 ^ (f.high + 1 - f.low)
      ≤ u32All.toNat >>> f.low := Nat.mod_le _ _
    _ ≤ u32All.toNat := Nat.shiftRight_le _ _
    _ < 2 ^ 32 := u32All.toNat_lt

theorem BitField.of_bit {f : BitField} (hf : f.high = f.low) (u32All : UInt32) :
    f.of u32All = if f.isOn u32All then 1 else 0 := by
  apply UInt32.toNat_inj.mp
  rw [toNat_of, hf, Nat.add_sub_cancel_left, pow_one, Nat.shiftRight_eq_div_pow, BitField.isOn,
    Nat.testBit_eq_decide_div_mod_eq]
  rcases Nat.mod_two_eq_zero_or_one (u32All.toNat / 2 ^ f.low) with h | h <;> simp [h]

theorem BitField.eq_one {f : BitField} (hf : f.high = f.low) (u32All : UInt32) :
    (f.of u32All == 1) = f.isOn u32All := by
  rw [of_bit hf]
  cases f.isOn u32All <;> rfl

theorem BitField.ne_zero {f : BitField} (hf : f.high = f.low) (u32All : UInt32) :
    (f.of u32All != 0) = f.isOn u32All := by
  rw [of_bit hf]
  cases f.isOn u32All <;> rfl

theorem BitField.ne_one {f : BitField} (hf : f.high = f.low) (u32All : UInt32) :
    (f.of u32All != 1) = !f.isOn u32All := by
  rw [of_bit hf]
  cases f.isOn u32All <;> rfl

theorem BitField.of_lt {f : BitField} {n : ℕ} (hf : f.high + 1 - f.low ≤ n) (u32All : UInt32) :
    (f.of u32All).toNat < 2 ^ n := by
  rw [toNat_of]
  exact (Nat.mod_lt _ (Nat.two_pow_pos _)).trans_le (Nat.pow_le_pow_right Nat.two_pos hf)

theorem toNat_sub_eq_iff {a b : UInt32} : ((b - a).toNat : ℤ) = b.toNat - a.toNat ↔ a ≤ b := by
  have ha := a.toNat_lt
  have hb := b.toNat_lt
  rw [UInt32.toNat_sub, UInt32.le_iff_toNat_le]
  omega

/-- The extent of a rectangle is the difference of two corners. -/
def VkRect2D.Spans (rect : VkRect2D) (x y : BitField) (tl br : UInt32) : Prop :=
  (rect.extent.width.toNat : ℤ) = (x.of br).toNat - (x.of tl).toNat ∧
    (rect.extent.height.toNat : ℤ) = (y.of br).toNat - (y.of tl).toNat

namespace CaptureMetadataCreator

/-! ## What the state has to say -/

/-- A group of registers, by the name of the first. -/
structure RegGroup where
  first : String
  stride : UInt32
  count : ℕ

namespace RegGroup

def viewports : RegGroup := ⟨"GRAS_CL_VIEWPORT0_XOFFSET", 6, 16⟩
def scissors : RegGroup := ⟨"GRAS_SC_VIEWPORT_SCISSOR0_TL", 2, 16⟩
def mrtControls : RegGroup := ⟨"RB_MRT0_CONTROL", 8, 8⟩
def mrtBufInfos : RegGroup := ⟨"RB_MRT0_BUF_INFO", 8, 8⟩

def all : List RegGroup := [viewports, scissors, mrtControls, mrtBufInfos]

end RegGroup

/-- A boolean of a state, with its register and what of it is the enable. -/
structure Enable where
  recorded : EventStateInfo → Option Bool
  reg : String
  on : UInt32 → Bool

/-- The booleans of a state. -/
def enables : List Enable := [
  ⟨fun s => s.inputAssembly.primRestartEnabled, "PC_CNTL", VPC_PC_CNTL.PRIMITIVE_RESTART.isOn⟩,
  ⟨fun s => s.rasterizer.depthClampEnabled, "GRAS_CL_CNTL", GRAS_CL_CNTL.Z_CLAMP_ENABLE.isOn⟩,
  ⟨fun s => s.rasterizer.rasterizerDiscardEnabled, "VPC_RAST_STREAM_CNTL",
    VPC_RAST_STREAM_CNTL.DISCARD.isOn⟩,
  ⟨fun s => s.rasterizer.depthBiasEnabled, "GRAS_SU_CNTL", GRAS_SU_CNTL.POLY_OFFSET.isOn⟩,
  ⟨fun s => s.multisampling.alphaToCoverageEnabled, "RB_BLEND_CNTL",
    RB_BLEND_CNTL.ALPHA_TO_COVERAGE.isOn⟩,
  ⟨fun s => s.depth.depthTestEnabled, "RB_DEPTH_CNTL", RB_DEPTH_CNTL.Z_TEST_ENABLE.isOn⟩,
  ⟨fun s => s.depth.depthWriteEnabled, "RB_DEPTH_CNTL", RB_DEPTH_CNTL.Z_WRITE_ENABLE.isOn⟩,
  ⟨fun s => s.depth.depthBoundsTestEnabled, "RB_DEPTH_CNTL", RB_DEPTH_CNTL.Z_BOUNDS_ENABLE.isOn⟩,
  ⟨fun s => s.depth.stencilTestEnabled, "RB_STENCIL_CNTL", RB_STENCIL_CNTL.STENCIL_ENABLE.isOn⟩,
  ⟨fun s => s.hardware.lrzEnabled, "GRAS_LRZ_CNTL", GRAS_LRZ_CNTL.ENABLE.isOn⟩,
  ⟨fun s => s.hardware.lrzWrite, "GRAS_LRZ_CNTL", GRAS_LRZ_CNTL.LRZ_WRITE.isOn⟩,
  ⟨fun s => s.hardware.lrzDirWrite, "GRAS_LRZ_CNTL", GRAS_LRZ_CNTL.DIR_WRITE.isOn⟩,
  ⟨fun s => s.hardware.enableAllHelperLanes, "SP_PS_CNTL_0", SP_PS_CNTL_0.LODPIXMASK.isOn⟩,
  ⟨fun s => s.hardware.enablePartialHelperLanes, "SP_PS_CNTL_0", SP_PS_CNTL_0.PIXLODENABLE.isOn⟩,
  ⟨fun s => s.hardware.ubwcEnabledOnDS, "RB_DEPTH_BUFFER_INFO",
    fun u32All => RB_DEPTH_BUFFER_INFO.TILEMODE.of u32All == TILE6_3⟩,
  ⟨fun s => s.hardware.ubwcLosslessEnabledOnDS, "RB_DEPTH_BUFFER_INFO",
    RB_DEPTH_BUFFER_INFO.LOSSLESSCOMPEN.isOn⟩]

/-- A boolean of each element of a group. -/
structure GroupEnable where
  recorded : EventStateInfo → ℕ → Option Bool
  group : RegGroup
  on : UInt32 → Bool

def groupEnables : List GroupEnable := [
  ⟨fun s i => (s.colorBlend.attachment i).map (·.blendEnable), .mrtControls,
    RB_MRT_CONTROL.BLEND.isOn⟩,
  ⟨fun s => s.colorBlend.logicOpEnabled, .mrtControls, RB_MRT_CONTROL.ROP_ENABLE.isOn⟩,
  ⟨fun s => s.hardware.ubwcEnabled, .mrtBufInfos,
    fun u32All => RB_MRT_BUF_INFO.COLOR_TILE_MODE.of u32All == TILE6_3⟩,
  ⟨fun s => s.hardware.ubwcLosslessEnabled, .mrtBufInfos, RB_MRT_BUF_INFO.LOSSLESSCOMPEN.isOn⟩]

section Law

variable (regOffset : String → UInt32) (t : RegisterTracker) (plane : ShaderEnableBit)

/-- The register of an element. -/
def RegGroup.reg (G : RegGroup) (i : ℕ) : UInt32 :=
  RegisterTracker.groupReg (regOffset G.first) G.stride i

/-- The registers of an element are set; they are all set, or none. -/
def RegGroup.isSet (G : RegGroup) (i : ℕ) : Bool := t.regIsSet plane (G.reg regOffset i)

/-- The elements are recorded where their registers are set. -/
def RegGroup.Records {α : Type} (G : RegGroup) (elements : ℕ → Option α) : Prop :=
  ∀ i < G.count, (elements i).isSome = G.isSet regOffset t plane i

/-- **The state follows the registers.** -/
structure FollowsRegisters (variant : GPUVariantType) (s : EventStateInfo) (r : ResolveState) :
    Prop where
  viewport : RegGroup.viewports.Records regOffset t plane s.viewport.viewport
  scissor : RegGroup.scissors.Records regOffset t plane s.viewport.scissor
  attachment : RegGroup.mrtControls.Records regOffset t plane s.colorBlend.attachment
  logicOpEnabled : RegGroup.mrtControls.Records regOffset t plane s.colorBlend.logicOpEnabled
  logicOp : RegGroup.mrtControls.Records regOffset t plane s.colorBlend.logicOp
  ubwcEnabled : RegGroup.mrtBufInfos.Records regOffset t plane s.hardware.ubwcEnabled
  /-- Where the registers have the flag. -/
  ubwcLosslessEnabled : hasLossless variant = true →
    RegGroup.mrtBufInfos.Records regOffset t plane s.hardware.ubwcLosslessEnabled
  scissorExtent : ∀ i < 16, ∀ rect, s.viewport.scissor i = some rect →
    rect.Spans GRAS_SC_VIEWPORT_SCISSOR.X GRAS_SC_VIEWPORT_SCISSOR.Y
      (t.reg plane (RegGroup.scissors.reg regOffset i))
      (t.reg plane (RegGroup.scissors.reg regOffset i + 1))
  resolveExtent : ∀ rect, r.resolveScissor = some rect →
    rect.Spans A6XX_REG_XY.X A6XX_REG_XY.Y (t.reg plane (regOffset "RB_RESOLVE_CNTL_1"))
      (t.reg plane (regOffset "RB_RESOLVE_CNTL_2"))
  enable : ∀ e ∈ enables, ∀ b, e.recorded s = some b → b = e.on (t.reg plane (regOffset e.reg))
  groupEnable : ∀ e ∈ groupEnables, ∀ i < e.group.count, ∀ b, e.recorded s i = some b →
    b = e.on (t.reg plane (e.group.reg regOffset i))

/-- The registers of an element are only set when those of the elements before are. -/
def RegGroup.Gapless (G : RegGroup) : Prop :=
  ∀ i < G.count, G.isSet regOffset t plane i = true → ∀ j < i, G.isSet regOffset t plane j = true

/-- The corner at the top left is not past the one at the bottom right. -/
def CornersInOrder (x y : BitField) (tl br : UInt32) : Prop :=
  x.of tl ≤ x.of br ∧ y.of tl ≤ y.of br

instance (x y : BitField) (tl br : UInt32) : Decidable (CornersInOrder x y tl br) :=
  inferInstanceAs (Decidable (_ ∧ _))

/-- The registers are such that the state follows them. -/
structure Regular : Prop where
  gapless : ∀ G ∈ RegGroup.all, G.Gapless regOffset t plane
  scissors : ∀ i < 16, RegGroup.scissors.isSet regOffset t plane i = true →
    CornersInOrder GRAS_SC_VIEWPORT_SCISSOR.X GRAS_SC_VIEWPORT_SCISSOR.Y
      (t.reg plane (RegGroup.scissors.reg regOffset i))
      (t.reg plane (RegGroup.scissors.reg regOffset i + 1))
  resolve : t.regIsSet plane (regOffset "RB_RESOLVE_CNTL_1") = true →
    t.regIsSet plane (regOffset "RB_RESOLVE_CNTL_2") = true →
      CornersInOrder A6XX_REG_XY.X A6XX_REG_XY.Y (t.reg plane (regOffset "RB_RESOLVE_CNTL_1"))
        (t.reg plane (regOffset "RB_RESOLVE_CNTL_2"))
  clamp : t.regIsSet plane (regOffset "GRAS_CL_CNTL") = false
  coverage : t.regIsSet plane (regOffset "RB_BLEND_CNTL") = false

end Law

/-! ## Groups -/

variable {regOffset : String → UInt32} {t : RegisterTracker} {plane : ShaderEnableBit}

theorem RegGroup.group_apply {α : Type} (G : RegGroup) (body : UInt32 → α) (i : ℕ) :
    t.group plane (regOffset G.first) G.stride G.count body i =
      if i < G.count ∧ ∀ j ≤ i, G.isSet regOffset t plane j = true then
        some (body (G.reg regOffset i))
      else none :=
  RegisterTracker.group_apply G.count i

theorem RegGroup.records_iff {α : Type} (G : RegGroup) (body : UInt32 → α) :
    G.Records regOffset t plane
        (t.group plane (regOffset G.first) G.stride G.count body) ↔
      G.Gapless regOffset t plane := by
  refine forall₂_congr fun i hi => ?_
  rw [G.group_apply, Bool.eq_iff_iff]
  split_ifs with h
  · exact ⟨fun _ _ j hj => h.2 j hj.le, fun _ => ⟨fun _ => h.2 i le_rfl, fun _ => rfl⟩⟩
  · constructor
    · exact fun hiff hset => absurd (hiff.mpr hset) Bool.false_ne_true
    · refine fun hgap => ⟨fun hnone => absurd hnone Bool.false_ne_true, fun hset => ?_⟩
      refine absurd ⟨hi, fun j hj => ?_⟩ h
      rcases hj.lt_or_eq with hlt | rfl
      · exact hgap hset j hlt
      · exact hset

theorem RegGroup.records_congr {α β : Type} {G : RegGroup} {a : ℕ → Option α} {b : ℕ → Option β}
    (h : ∀ i, (a i).isSome = (b i).isSome) :
    G.Records regOffset t plane a ↔ G.Records regOffset t plane b :=
  forall₂_congr fun i _ => by rw [h i]

theorem RegGroup.eq_of_group {α : Type} {G : RegGroup} {body : UInt32 → α} {i : ℕ} {a : α}
    (h : t.group plane (regOffset G.first) G.stride G.count body i = some a) :
    a = body (G.reg regOffset i) ∧ G.isSet regOffset t plane i = true := by
  rw [G.group_apply] at h
  split_ifs at h with hset
  exact ⟨(Option.some.inj h).symm, hset.2 i le_rfl⟩

/-! ## Single registers -/

theorem eq_of_map {α : Type} {offset : UInt32} {f : UInt32 → α} {a : α}
    (h : (t.readSet plane offset).map f = some a) :
    a = f (t.reg plane offset) ∧ t.regIsSet plane offset = true := by
  rw [RegisterTracker.readSet] at h
  split_ifs at h with hset
  · exact ⟨(Option.some.inj h).symm, hset⟩
  · exact absurd h.symm (Option.some_ne_none a)

theorem eq_of_filter {α : Type} {offset : UInt32} {p : UInt32 → Bool} {f : UInt32 → α} {a : α}
    (h : ((t.readSet plane offset).filter p).map f = some a) : a = f (t.reg plane offset) := by
  obtain ⟨u32All, hu32All, rfl⟩ := Option.map_eq_some_iff.mp h
  rw [Option.filter_eq_some_iff, RegisterTracker.readSet] at hu32All
  split_ifs at hu32All with hset
  · rw [Option.some.inj hu32All.1]
  · exact absurd hu32All.1 (by simp)

theorem eq_of_ite {α : Type} {p : Prop} [Decidable p] {offset : UInt32} {f : UInt32 → α} {a : α}
    (h : (if p then t.readSet plane offset else none).map f = some a) :
    a = f (t.reg plane offset) := by
  split_ifs at h
  · exact (eq_of_map h).1
  · exact absurd h.symm (Option.some_ne_none a)

theorem logicOpAt_eq (mrtReg : UInt32) : ∃ op,
    logicOpAt t plane mrtReg =
      some (RB_MRT_CONTROL.ROP_ENABLE.of (t.reg plane mrtReg) == 1, op) := by
  have hcode : (RB_MRT_CONTROL.ROP_CODE.of (t.reg plane mrtReg)).toNat <
      VkLogicOp.lookup.length := BitField.of_lt (n := 4) (by decide) _
  exact ⟨_, by rw [logicOpAt, List.getElem?_eq_getElem hcode]; rfl⟩

/-! ## Rectangles -/

theorem scissorAt_spans_iff (scissorReg : UInt32) :
    (scissorAt t plane scissorReg).Spans GRAS_SC_VIEWPORT_SCISSOR.X GRAS_SC_VIEWPORT_SCISSOR.Y
        (t.reg plane scissorReg) (t.reg plane (scissorReg + 1)) ↔
      CornersInOrder GRAS_SC_VIEWPORT_SCISSOR.X GRAS_SC_VIEWPORT_SCISSOR.Y
        (t.reg plane scissorReg) (t.reg plane (scissorReg + 1)) :=
  and_congr toNat_sub_eq_iff toNat_sub_eq_iff

theorem resolveRect_spans_iff (cntl1 cntl2 : UInt32) :
    (resolveRect cntl1 cntl2).Spans A6XX_REG_XY.X A6XX_REG_XY.Y cntl1 cntl2 ↔
      CornersInOrder A6XX_REG_XY.X A6XX_REG_XY.Y cntl1 cntl2 :=
  and_congr toNat_sub_eq_iff toNat_sub_eq_iff

theorem resolveScissor_eq_some_iff {isResolve : Bool} {rect : VkRect2D} :
    (fillResolveOrClearEventStateInfo regOffset t plane isResolve).resolveScissor = some rect ↔
      t.regIsSet plane (regOffset "RB_RESOLVE_CNTL_1") = true ∧
      t.regIsSet plane (regOffset "RB_RESOLVE_CNTL_2") = true ∧
      rect = resolveRect (t.reg plane (regOffset "RB_RESOLVE_CNTL_1"))
        (t.reg plane (regOffset "RB_RESOLVE_CNTL_2")) := by
  simp only [fillResolveOrClearEventStateInfo, named, RegisterTracker.readSet]
  by_cases h₁ : t.regIsSet plane (regOffset "RB_RESOLVE_CNTL_1") = true
  · by_cases h₂ : t.regIsSet plane (regOffset "RB_RESOLVE_CNTL_2") = true
    · simp [h₁, h₂, eq_comm]
    · simp [h₁, h₂]
  · simp [h₁]

/-! ## Booleans -/

section Booleans

variable {variant : GPUVariantType} {binInfo : BinCntlInfo}

theorem enable_of_unset (hclamp : t.regIsSet plane (regOffset "GRAS_CL_CNTL") = false)
    (hcoverage : t.regIsSet plane (regOffset "RB_BLEND_CNTL") = false) {e : Enable}
    (he : e ∈ enables) {b : Bool}
    (hb : e.recorded (fillDrawEventStateInfo regOffset t plane variant binInfo) = some b) :
    b = e.on (t.reg plane (regOffset e.reg)) := by
  simp only [enables, List.mem_cons, List.not_mem_nil, or_false] at he
  rcases he with rfl | rfl | rfl | rfl | rfl | rfl | rfl | rfl | rfl | rfl | rfl | rfl | rfl |
    rfl | rfl | rfl
  · exact (eq_of_map hb).1.trans (BitField.eq_one rfl _)
  · exact absurd (hclamp.symm.trans (eq_of_map hb).2) Bool.false_ne_true
  · exact (eq_of_map hb).1.trans (BitField.eq_one rfl _)
  · exact (eq_of_map hb).1.trans (BitField.eq_one rfl _)
  · exact absurd (hcoverage.symm.trans (eq_of_map hb).2) Bool.false_ne_true
  · exact (eq_of_map hb).1.trans (BitField.ne_zero rfl _)
  · exact (eq_of_map hb).1.trans (BitField.ne_zero rfl _)
  · exact (eq_of_map hb).1.trans (BitField.eq_one rfl _)
  · exact (eq_of_map hb).1.trans (BitField.eq_one rfl _)
  · exact (eq_of_map hb).1.trans (BitField.ne_zero rfl _)
  · exact (eq_of_filter hb).trans (BitField.ne_zero rfl _)
  · exact (eq_of_filter hb).trans (BitField.ne_zero rfl _)
  · exact (eq_of_map hb).1.trans (BitField.ne_zero rfl _)
  · exact (eq_of_map hb).1.trans (BitField.ne_zero rfl _)
  · exact eq_of_ite hb
  · exact (eq_of_ite hb).trans (BitField.eq_one rfl _)

theorem not_of_enable (field : BitField) {offset : UInt32} (hfield : field.high = field.low)
    (h : ∀ b, (t.readSet plane offset).map (fun u32All => field.of u32All != 1) = some b →
      b = field.isOn (t.reg plane offset)) : t.regIsSet plane offset = false := by
  by_contra hset
  have hread : t.readSet plane offset = some (t.reg plane offset) :=
    if_pos (by simpa using hset)
  have hb : (field.of (t.reg plane offset) != 1) = _ := h _ (by rw [hread]; rfl)
  rw [BitField.ne_one hfield] at hb
  exact Bool.not_ne_self _ hb

theorem groupEnable {e : GroupEnable} (he : e ∈ groupEnables) {i : ℕ} {b : Bool}
    (hb : e.recorded (fillDrawEventStateInfo regOffset t plane variant binInfo) i = some b) :
    b = e.on (t.reg plane (e.group.reg regOffset i)) := by
  simp only [groupEnables, List.mem_cons, List.not_mem_nil, or_false] at he
  rcases he with rfl | rfl | rfl | rfl
  · obtain ⟨attach, hattach, rfl⟩ := Option.map_eq_some_iff.mp hb
    rw [(RegGroup.eq_of_group (G := .mrtControls) hattach).1]
    exact BitField.eq_one rfl _
  · obtain ⟨⟨enabled, op⟩, hop, rfl⟩ := Option.map_eq_some_iff.mp hb
    obtain ⟨op', hop'⟩ := @logicOpAt_eq t plane (RegGroup.mrtControls.reg regOffset i)
    have hat := (RegGroup.eq_of_group (G := .mrtControls) (Option.join_eq_some_iff.mp hop)).1
    rw [hop'] at hat
    cases hat
    exact BitField.eq_one rfl _
  · exact (RegGroup.eq_of_group (G := .mrtBufInfos) hb).1
  · have hlossless : hasLossless variant = true := by
      by_contra hno
      simp [fillDrawEventStateInfo, fillHardwareSpecificStates, hno] at hb
    simp only [fillDrawEventStateInfo, fillHardwareSpecificStates, hlossless, if_true] at hb
    exact (RegGroup.eq_of_group (G := .mrtBufInfos) hb).1.trans (BitField.eq_one rfl _)

end Booleans

/-! ## The state and the registers -/

section States

variable (variant : GPUVariantType) (binInfo : BinCntlInfo)

theorem logicOp_isSome (i : ℕ) :
    ((fillColorBlendState regOffset t plane).logicOpEnabled i).isSome =
        ((fillColorBlendState regOffset t plane).attachment i).isSome ∧
      ((fillColorBlendState regOffset t plane).logicOp i).isSome =
        ((fillColorBlendState regOffset t plane).attachment i).isSome := by
  have hops : t.group plane (regOffset "RB_MRT0_CONTROL") 8 8 (logicOpAt t plane) i = _ :=
    RegGroup.mrtControls.group_apply (logicOpAt t plane) i
  have hattach : t.group plane (regOffset "RB_MRT0_CONTROL") 8 8 (attachmentAt t plane) i = _ :=
    RegGroup.mrtControls.group_apply (attachmentAt t plane) i
  obtain ⟨op, hop⟩ := @logicOpAt_eq t plane (RegGroup.mrtControls.reg regOffset i)
  simp only [fillColorBlendState]
  rw [hops, hattach, hop]
  by_cases hset : i < RegGroup.mrtControls.count ∧
      ∀ j ≤ i, RegGroup.mrtControls.isSet regOffset t plane j = true
  · rw [if_pos hset, if_pos hset]
    exact ⟨rfl, rfl⟩
  · rw [if_neg hset, if_neg hset]
    exact ⟨rfl, rfl⟩

variable (isResolve : Bool)

/-- **The state follows the registers** of a mode exactly when they are regular. -/
theorem follows_iff_regular : FollowsRegisters regOffset t plane variant
      (fillDrawEventStateInfo regOffset t plane variant binInfo)
      (fillResolveOrClearEventStateInfo regOffset t plane isResolve) ↔
    Regular regOffset t plane := by
  constructor
  · intro h
    have hscissors := (RegGroup.scissors.records_iff (scissorAt t plane)).mp h.scissor
    refine ⟨?gapless, ?scissors, ?resolve, ?clamp, ?coverage⟩
    case gapless =>
      simp only [RegGroup.all, List.forall_mem_cons, List.not_mem_nil, false_implies,
        implies_true, and_true]
      exact ⟨(RegGroup.viewports.records_iff _).mp h.viewport, hscissors,
        (RegGroup.mrtControls.records_iff _).mp h.attachment,
        (RegGroup.mrtBufInfos.records_iff _).mp h.ubwcEnabled⟩
    case scissors =>
      intro i hi hset
      obtain ⟨rect, hrect⟩ := Option.isSome_iff_exists.mp ((h.scissor i hi).trans hset)
      have hspans := h.scissorExtent i hi rect hrect
      rw [(RegGroup.eq_of_group (G := .scissors) hrect).1] at hspans
      exact (scissorAt_spans_iff _).mp hspans
    case resolve =>
      intro h₁ h₂
      exact (resolveRect_spans_iff _ _).mp
        (h.resolveExtent _ (resolveScissor_eq_some_iff.mpr ⟨h₁, h₂, rfl⟩))
    case clamp =>
      refine not_of_enable GRAS_CL_CNTL.Z_CLAMP_ENABLE rfl fun b hb => ?_
      exact h.enable _ (List.mem_of_getElem? (i := 1) rfl) b hb
    case coverage =>
      refine not_of_enable RB_BLEND_CNTL.ALPHA_TO_COVERAGE rfl fun b hb => ?_
      exact h.enable _ (List.mem_of_getElem? (i := 4) rfl) b hb
  · intro h
    have hmrt := h.gapless .mrtControls (List.mem_of_getElem? (i := 2) rfl)
    have hbufInfo := h.gapless .mrtBufInfos (List.mem_of_getElem? (i := 3) rfl)
    have hattach : RegGroup.mrtControls.Records regOffset t plane
        (fillColorBlendState regOffset t plane).attachment :=
      (RegGroup.mrtControls.records_iff (attachmentAt t plane)).mpr hmrt
    refine ⟨?viewport, ?scissor, hattach, ?logicOpEnabled, ?logicOp, ?ubwc, ?lossless,
      ?scissorExtent, ?resolveExtent, ?enable, ?groupEnable⟩
    case viewport =>
      exact (RegGroup.viewports.records_iff (viewportAt t plane)).mpr
        (h.gapless _ (List.mem_of_getElem? (i := 0) rfl))
    case scissor =>
      exact (RegGroup.scissors.records_iff (scissorAt t plane)).mpr
        (h.gapless _ (List.mem_of_getElem? (i := 1) rfl))
    case logicOpEnabled =>
      exact (RegGroup.records_congr fun i => (logicOp_isSome i).1).mpr hattach
    case logicOp => exact (RegGroup.records_congr fun i => (logicOp_isSome i).2).mpr hattach
    case ubwc => exact (RegGroup.mrtBufInfos.records_iff _).mpr hbufInfo
    case lossless =>
      intro hlossless
      simp only [fillDrawEventStateInfo, fillHardwareSpecificStates, hlossless, if_true]
      exact (RegGroup.mrtBufInfos.records_iff _).mpr hbufInfo
    case scissorExtent =>
      intro i hi rect hrect
      obtain ⟨rfl, hset⟩ := RegGroup.eq_of_group (G := .scissors) hrect
      exact (scissorAt_spans_iff _).mpr (h.scissors i hi hset)
    case resolveExtent =>
      intro rect hrect
      obtain ⟨h₁, h₂, rfl⟩ := resolveScissor_eq_some_iff.mp hrect
      exact (resolveRect_spans_iff _ _).mpr (h.resolve h₁ h₂)
    case enable => exact fun e he b hb => enable_of_unset h.clamp h.coverage he hb
    case groupEnable => exact fun e he i _ b hb => groupEnable he hb

end States

/-- **The recorded state.** For every tracker with a render mode, the states of a draw and of a
resolve or a clear follow the registers of the mode exactly when these are regular. -/
theorem followsRegisters_iff (regOffset : String → UInt32) (variant : GPUVariantType)
    (binInfo : BinCntlInfo) (isResolve : Bool) {t : RegisterTracker} {plane : ShaderEnableBit}
    (h : t.shaderEnableBit = some plane) :
    ∃ s r, recordedStates regOffset t variant binInfo isResolve = some (s, r) ∧
      (FollowsRegisters regOffset t plane variant s r ↔ Regular regOffset t plane) :=
  ⟨_, _, by rw [recordedStates, h]; rfl, follows_iff_regular variant binInfo isResolve⟩

/-! ## Two trackers -/

/-- The first of the registers of a name. -/
def firstOffset (name : String) : UInt32 :=
  ((registerOffsets.find? (·.1 == name)).bind fun entry => entry.2.head?).getD kInvalidRegOffset

/-- What the description of `GRAS_SC_BIN_CNTL` says on A6XX. -/
def a6xxBinInfo : BinCntlInfo := ⟨5, 4, true⟩

/-- A direct pass with registers and their values. -/
def directPass (registers : List (UInt32 × UInt32)) : RegisterTracker where
  reg := fun _ r => (lastValue registers r).getD 0
  regIsSet := fun _ r => (lastValue registers r).isSome
  shaderEnableBit := some .kSYSMEM

/-- The restart of primitives, and two scissors of 64 by 64. -/
def twoScissors : RegisterTracker :=
  directPass [(0x9b00, 1), (0x80d0, 0), (0x80d1, 0x400040), (0x80d2, 0x400040), (0x80d3, 0x800080)]

theorem twoScissors_follows : ∃ s r,
    recordedStates firstOffset twoScissors .kA6XX a6xxBinInfo false = some (s, r) ∧
      FollowsRegisters firstOffset twoScissors .kSYSMEM .kA6XX s r := by
  obtain ⟨s, r, hrecorded, hiff⟩ := @followsRegisters_iff firstOffset .kA6XX a6xxBinInfo false
    twoScissors .kSYSMEM rfl
  refine ⟨s, r, hrecorded, hiff.mpr ⟨?_, ?_, ?_, ?_, ?_⟩⟩
  · simp only [RegGroup.all, List.forall_mem_cons, List.not_mem_nil, false_implies,
      implies_true, and_true]
    unfold RegGroup.Gapless
    decide +kernel
  · decide +kernel
  · decide +kernel
  · decide +kernel
  · decide +kernel

/-- `GRAS_CL_CNTL` with its `Z_CLAMP_ENABLE` bit. -/
def clamping : RegisterTracker := directPass [(0x8000, 0x20)]

/-- **The depth clamp** is on, and is recorded as off. -/
theorem depthClamp_not_follows : ∃ s r,
    recordedStates firstOffset clamping .kA6XX a6xxBinInfo false = some (s, r) ∧
      ¬ FollowsRegisters firstOffset clamping .kSYSMEM .kA6XX s r := by
  refine ⟨_, _, rfl, fun h => ?_⟩
  exact Bool.false_ne_true
    (h.enable _ (List.mem_of_getElem? (i := 1) rfl) false (by decide +kernel))

end CaptureMetadataCreator

end Dive
