import Dive.Hierarchy.Shaders

/-!
# Registers that an event reads

* `RegAccess`: one use of a register number.
* `fillDrawEventStateInfo` and its parts, `handleShadersAccesses`, `syncTypeAccesses`: the registers
  that the functions use, in their order; `metadataAccesses`: all of them, for one packet.
* `ReadsInMode`: no register is read in the mode of the tracker when it has none.
* `HasMode`: the last marker that starts or ends a mode starts one.
* **`readsInMode_iff`**: at any point of a submit, modes are known exactly when every draw and every
  resolve comes in a mode.
* **`unmarkedDraw_not_inMode`**: a draw without a marker.
-/

namespace Dive

open Pm4CaptureData (GPUVariantType)

/-- A register number in use. Where no render mode is named, it is that of the tracker. -/
inductive RegAccess
  | setReg (offset : UInt32)
  | getRegInfo (offset : UInt32)
  | isRegSet (offset : UInt32)
  | getRegValue (offset : UInt32)
  | isRegSetIn (enableBit : ShaderEnableBit) (offset : UInt32)
  | getRegValueIn (enableBit : ShaderEnableBit) (offset : UInt32)
  deriving DecidableEq

/-- The register is read in the mode of the tracker. -/
def RegAccess.readsMode : RegAccess → Bool
  | .isRegSet _ => true
  | .getRegValue _ => true
  | _ => false

namespace RegisterTracker

variable (t : RegisterTracker)

/-- `if (IsRegSet(offset)) { ... }`. -/
def ifSet (offset : UInt32) (body : List RegAccess) : List RegAccess :=
  .isRegSet offset :: if t.isRegSet offset = some true then body else []

/-- `while (id < n && IsRegSet(start + stride * id)) { ... }`. -/
def whileSet (stride : UInt32) (body : UInt32 → List RegAccess) : ℕ → UInt32 → List RegAccess
  | 0, _ => []
  | n + 1, reg =>
    .isRegSet reg ::
      if t.isRegSet reg = some true then body reg ++ whileSet stride body n (reg + stride) else []

/-- `GetReg64Value`. -/
def getReg64ValueAccesses (offset : UInt32) : List RegAccess :=
  [.getRegValue offset, .getRegValue (offset + 1)]

/-- `GetCurShaderAddr`. -/
def getCurShaderAddrAccesses (stage : ShaderStage) (enableBit : ShaderEnableBit) :
    List RegAccess :=
  .isRegSetIn enableBit stage.objStart ::
    if t.regIsSet enableBit stage.objStart then
      [.getRegValueIn enableBit stage.objStart, .getRegValueIn enableBit (stage.objStart + 1)]
    else []

/-- The registers of `HandleShaders`. -/
def handleShadersAccesses : List RegAccess :=
  shaderStages.flatMap fun stage => shaderEnableBits.flatMap fun enableBit =>
    t.getCurShaderAddrAccesses stage enableBit

/-- The tracker with a mode; `plane` is what is in the place of the mode when it has none. -/
def inMode (plane : ShaderEnableBit) : RegisterTracker :=
  { t with shaderEnableBit := some (t.shaderEnableBit.getD plane) }

end RegisterTracker

/-! ## The state of a draw -/

namespace Pm4Info

variable (info : Pm4Info) (variant : GPUVariantType) (t : RegisterTracker)

/-- A register that is read where it is set. -/
def readNamed (name : String) : List RegAccess :=
  t.ifSet (info.regOffsetByName name) [.getRegValue (info.regOffsetByName name)]

def fillInputAssemblyState : List RegAccess := info.readNamed t "PC_CNTL"

def fillTessellationState : List RegAccess := info.readNamed t "PC_HS_PARAM_1"

def fillViewportState : List RegAccess :=
  t.whileSet 6 (fun viewportReg => [.getRegValue viewportReg, .getRegValue (viewportReg + 1),
      .getRegValue (viewportReg + 2), .getRegValue (viewportReg + 3),
      .getRegValue (viewportReg + 4), .getRegValue (viewportReg + 5)]) 16
    (info.regOffsetByName "GRAS_CL_VIEWPORT0_XOFFSET") ++
  t.whileSet 2 (fun scissorReg => [.getRegValue scissorReg, .getRegValue (scissorReg + 1)]) 16
    (info.regOffsetByName "GRAS_SC_VIEWPORT_SCISSOR0_TL")

def fillRasterizerState : List RegAccess :=
  info.readNamed t "GRAS_CL_CNTL" ++ info.readNamed t "VPC_RAST_STREAM_CNTL" ++
    info.readNamed t "PC_DGEN_RAST_CNTL" ++ info.readNamed t "GRAS_SU_CNTL" ++
    info.readNamed t "GRAS_SU_POLY_OFFSET_OFFSET" ++
    info.readNamed t "GRAS_SU_POLY_OFFSET_OFFSET_CLAMP" ++
    info.readNamed t "GRAS_SU_POLY_OFFSET_SCALE"

def fillMultisamplingState : List RegAccess :=
  info.readNamed t "GRAS_SC_RAS_MSAA_CNTL" ++ info.readNamed t "RB_BLEND_CNTL"

def fillDepthState : List RegAccess :=
  t.ifSet (info.regOffsetByName "RB_DEPTH_CNTL")
    (.getRegValue (info.regOffsetByName "RB_DEPTH_CNTL") ::
      (info.readNamed t "RB_DEPTH_BOUND_MIN" ++ info.readNamed t "RB_DEPTH_BOUND_MAX")) ++
  t.ifSet (info.regOffsetByName "RB_STENCIL_CNTL")
    (.getRegValue (info.regOffsetByName "RB_STENCIL_CNTL") ::
      (info.readNamed t "RB_STENCIL_REF_CNTL" ++ info.readNamed t "RB_STENCIL_MASK" ++
        info.readNamed t "RB_STENCIL_WRITE_MASK"))

def fillColorBlendState : List RegAccess :=
  t.whileSet 8 (fun mrtReg => [.getRegValue mrtReg, .getRegValue (mrtReg + 1)]) 8
    (info.regOffsetByName "RB_MRT0_CONTROL") ++
  t.ifSet (info.regOffsetByName "RB_BLEND_CONSTANT_RED_FP32")
    [.getRegValue (info.regOffsetByName "RB_BLEND_CONSTANT_RED_FP32"),
      .getRegValue (info.regOffsetByName "RB_BLEND_CONSTANT_GREEN_FP32"),
      .getRegValue (info.regOffsetByName "RB_BLEND_CONSTANT_BLUE_FP32"),
      .getRegValue (info.regOffsetByName "RB_BLEND_CONSTANT_ALPHA_FP32")]

/-- `GetGPUVariantType() >= kA7XX`. -/
def fromA7XX : Bool := variant = .kA7XX || variant = .kA8XX

def fillHardwareSpecificStates : List RegAccess :=
  info.readNamed t "GRAS_LRZ_CNTL" ++ info.readNamed t "GRAS_SU_DEPTH_PLANE_CNTL" ++
  t.ifSet (info.regOffsetByName "GRAS_SC_BIN_CNTL")
    [.getRegInfo (info.regOffsetByName "GRAS_SC_BIN_CNTL"),
      .getRegValue (info.regOffsetByName "GRAS_SC_BIN_CNTL")] ++
  info.readNamed t "GRAS_SC_WINDOW_SCISSOR_TL" ++ info.readNamed t "GRAS_SC_WINDOW_SCISSOR_BR" ++
  info.readNamed t "SP_PS_CNTL_0" ++
  t.whileSet 8 (fun mrtReg => [.getRegValue mrtReg]) 8
    (info.regOffsetByName "RB_MRT0_BUF_INFO") ++
  if fromA7XX variant then info.readNamed t "RB_DEPTH_BUFFER_INFO" else []

def fillDrawEventStateInfo : List RegAccess :=
  info.fillInputAssemblyState t ++ info.fillTessellationState t ++ info.fillViewportState t ++
    info.fillRasterizerState t ++ info.fillMultisamplingState t ++ info.fillDepthState t ++
    info.fillColorBlendState t ++ info.fillHardwareSpecificStates variant t

/-! ## The state of a resolve -/

def fillResolveOrClearEventStateInfo : List RegAccess :=
  info.readNamed t "RB_RESOLVE_GMEM_BUFFER_BASE" ++
  t.ifSet (info.regOffsetByName "RB_RESOLVE_CNTL_1")
    (t.ifSet (info.regOffsetByName "RB_RESOLVE_CNTL_2")
      [.getRegValue (info.regOffsetByName "RB_RESOLVE_CNTL_1"),
        .getRegValue (info.regOffsetByName "RB_RESOLVE_CNTL_2")])

def fillResolveEventStateInfo : List RegAccess :=
  t.ifSet (info.regOffsetByName "RB_RESOLVE_SYSTEM_BUFFER_BASE")
    (RegisterTracker.getReg64ValueAccesses (info.regOffsetByName "RB_RESOLVE_SYSTEM_BUFFER_BASE"))

end Pm4Info

/-- `EventInfo::IsResolve`. -/
def EventType.isResolve : EventType → Bool
  | .kColorSysMemToGmemResolve => true
  | .kColorGmemToSysMemResolve => true
  | .kColorGmemToSysMemResolveAndClear => true
  | .kDepthSysMemToGmemResolve => true
  | .kDepthGmemToSysMemResolve => true
  | .kDepthGmemToSysMemResolveAndClear => true
  | .kSysmemToGmemResolve => true
  | _ => false

/-- `EventInfo::IsGmemClear`. -/
def EventType.isGmemClear : EventType → Bool
  | .kColorGmemToSysMemResolveAndClear => true
  | .kColorClearGmem => true
  | .kDepthGmemToSysMemResolveAndClear => true
  | .kDepthClearGmem => true
  | _ => false

/-! ## Packets -/

namespace CapturedPacket

variable (info : Pm4Info) (variant : GPUVariantType) (t : RegisterTracker) (p : CapturedPacket)

/-- The packet is a resolve, for `GetSyncType`. -/
def isCcuResolve : Bool :=
  p.header.isOpcode CP_EVENT_WRITE7 && p.eventField = Util.ccuResolve

/-- The packet is a draw. -/
def isDraw : Bool := p.header.type = 7 && isDrawEventOpcode p.header.type7Opcode

/-- `GetSyncType`. -/
def syncTypeAccesses : List RegAccess :=
  if p.isCcuResolve then info.readNamed t "RB_RESOLVE_OPERATION" else []

/-- `IsEvent`. -/
def isEventAccesses : List RegAccess :=
  if isDrawDispatchEventOpcode p.header.type7Opcode || p.header.type7Opcode = CP_BLIT then []
  else p.syncTypeAccesses info t

/-- `GetEventType`. -/
def getEventTypeAccesses : List RegAccess :=
  if isDrawDispatchEventOpcode p.header.type7Opcode || p.header.type7Opcode = CP_BLIT then []
  else p.syncTypeAccesses info t

/-- `GetEventString`. -/
def getEventStringAccesses : List RegAccess :=
  if p.header.type7Opcode = CP_EVENT_WRITE7 then p.syncTypeAccesses info t else []

/-- The state of an event of the packet, by its type. -/
def stateAccesses (type : EventType) : List RegAccess :=
  if type = .kDraw ∨ type = .kDispatch then
    (if type = .kDraw then info.fillDrawEventStateInfo variant t else []) ++
      t.handleShadersAccesses
  else if type.isResolve then
    info.fillResolveOrClearEventStateInfo t ++ info.fillResolveEventStateInfo t
  else if type.isGmemClear then info.fillResolveOrClearEventStateInfo t
  else []

/-- The event part of `CaptureMetadataCreator::OnPacket`. -/
def metadataAccesses : List RegAccess :=
  if p.header.type = 7 then
    p.isEventAccesses info t ++
      if Util.isEvent info p p.header.type7Opcode t = some true then
        p.getEventTypeAccesses info t ++ p.getEventStringAccesses info t ++
          (Util.getEventType info p p.header.type7Opcode t).elim []
            (stateAccesses info variant t)
      else []
  else []

/-- The packet makes the metadata pass read registers in the mode of the tracker. -/
def readsState : Bool := p.isDraw || p.isCcuResolve

/-- A marker after which the tracker has a mode. -/
def startsMode : Bool :=
  p.header.isOpcode CP_SET_MARKER && [1, 2, 3, 4, 6].contains (p.markerDword &&& 0xf).toNat

/-- A marker after which the tracker has no mode. -/
def endsMode : Bool :=
  p.header.isOpcode CP_SET_MARKER && [5, 7].contains (p.markerDword &&& 0xf).toNat

end CapturedPacket

/-! ## Modes of a submit -/

namespace Emulation

variable (E : Emulation)

/-- **Modes are known** when registers are read: at each packet, with the tracker after it. -/
def ReadsInMode (info : Pm4Info) (variant : GPUVariantType) (t : RegisterTracker)
    (events : List Event) : Prop :=
  ∀ es ibIndex va hd es' t', events = es ++ .packet ibIndex va hd :: es' →
    Monitor.run (RegisterTracker.onEvent E info.regInfo) t (es ++ [.packet ibIndex va hd]) =
      some t' →
    ∀ plane, ∀ a ∈ (E.capturedPacket va hd).metadataAccesses info variant (t'.inMode plane),
      a.readsMode = true → t'.shaderEnableBit.isSome = true

/-- Some marker has started a mode, and none has ended it since. -/
def HasMode (events : List Event) : Prop :=
  ∃ es ibIndex va hd es', events = es ++ .packet ibIndex va hd :: es' ∧
    (E.capturedPacket va hd).startsMode = true ∧
    ∀ ibIndex va hd, .packet ibIndex va hd ∈ es' → (E.capturedPacket va hd).endsMode = false

/-- The registers that the packets write are there. -/
def WritesThere (table : RegTable) (events : List Event) : Prop :=
  ∀ ibIndex va hd, .packet ibIndex va hd ∈ events →
    ∀ w ∈ (E.capturedPacket va hd).regWrites table, w.offset.toNat < kNumRegs

/-- Every draw and every resolve comes in a mode, up to a register write past the arrays. -/
def DrawsInMode (table : RegTable) (events : List Event) : Prop :=
  ∀ es ibIndex va hd es', events = es ++ .packet ibIndex va hd :: es' → E.WritesThere table es →
    (E.capturedPacket va hd).readsState = true → E.HasMode es

end Emulation

/-! ## Which packets read in the mode of the tracker -/

namespace CapturedPacket

variable {info : Pm4Info} {variant : GPUVariantType} {t : RegisterTracker} {p : CapturedPacket}

theorem handleShaders_readsMode {a : RegAccess} (h : a ∈ t.handleShadersAccesses) :
    a.readsMode = false := by
  obtain ⟨stage, -, h⟩ := List.mem_flatMap.mp h
  obtain ⟨enableBit, -, h⟩ := List.mem_flatMap.mp h
  unfold RegisterTracker.getCurShaderAddrAccesses at h
  split_ifs at h
  · simp only [List.mem_cons, List.not_mem_nil, or_false] at h
    rcases h with rfl | rfl | rfl <;> rfl
  · simp only [List.mem_singleton] at h
    rw [h]
    rfl

theorem syncEventType_of_not_ccu (hccu : p.isCcuResolve = false) (h7 : p.header.type = 7)
    {syncType : SyncType} (h : Util.getSyncType info p p.header.type7Opcode t = some syncType) :
    (Util.syncEventType syncType).isResolve = false ∧
      (Util.syncEventType syncType).isGmemClear = false ∧
      Util.syncEventType syncType ≠ .kDraw := by
  unfold Util.getSyncType at h
  by_cases hop : p.header.type7Opcode = CP_EVENT_WRITE7
  · have hevent : ¬ p.eventField = Util.ccuResolve := by
      simpa [isCcuResolve, Pm4Header.isOpcode, h7, hop] using hccu
    rw [if_pos hop, if_neg hevent] at h
    cases h
    exact ⟨rfl, rfl, EventType.noConfusion⟩
  · rw [if_neg hop] at h
    split_ifs at h <;> cases h <;> exact ⟨rfl, rfl, EventType.noConfusion⟩

theorem getEventType_of_other (hccu : p.isCcuResolve = false) (hdraw : p.isDraw = false)
    (h7 : p.header.type = 7) {type : EventType}
    (h : Util.getEventType info p p.header.type7Opcode t = some type) :
    type.isResolve = false ∧ type.isGmemClear = false ∧ type ≠ .kDraw := by
  have hdraw' : ¬ isDrawEventOpcode p.header.type7Opcode = true := by
    simpa [isDraw, h7] using hdraw
  unfold Util.getEventType at h
  rw [if_neg hdraw'] at h
  split_ifs at h
  · cases h
    exact ⟨rfl, rfl, EventType.noConfusion⟩
  · cases h
    exact ⟨rfl, rfl, EventType.noConfusion⟩
  · obtain ⟨syncType, hsync, rfl⟩ := Option.map_eq_some_iff.mp h
    exact syncEventType_of_not_ccu hccu h7 hsync

theorem mem_handleShaders_of_other (hno : p.readsState = false) {a : RegAccess}
    (h : a ∈ p.metadataAccesses info variant t) : a ∈ t.handleShadersAccesses := by
  obtain ⟨hdraw, hccu⟩ := Bool.or_eq_false_iff.mp hno
  have hsync : p.syncTypeAccesses info t = [] := by simp [syncTypeAccesses, hccu]
  unfold metadataAccesses at h
  split_ifs at h with h7 hevent
  · simp only [isEventAccesses, getEventTypeAccesses, getEventStringAccesses, hsync, ite_self,
      List.nil_append] at h
    cases htype : Util.getEventType info p p.header.type7Opcode t with
    | none => simp [htype] at h
    | some type =>
      obtain ⟨hresolve, hclear, hne⟩ := getEventType_of_other hccu hdraw h7 htype
      simp only [htype, Option.elim_some, stateAccesses, if_neg hne, hresolve, hclear,
        Bool.false_eq_true, if_false, List.nil_append] at h
      split_ifs at h
      · exact h
      · simp at h
  · simp [isEventAccesses, hsync] at h
  · simp at h

theorem readsMode_of_ccuResolve (hccu : p.isCcuResolve = true) :
    .isRegSet (info.regOffsetByName "RB_RESOLVE_OPERATION") ∈
      p.metadataAccesses info variant t := by
  have hop := (Bool.and_eq_true_iff.mp hccu).1
  obtain ⟨h7, hopcode⟩ : p.header.type = 7 ∧ p.header.type7Opcode = CP_EVENT_WRITE7 := by
    simpa [Pm4Header.isOpcode] using hop
  have hevent : p.isEventAccesses info t = info.readNamed t "RB_RESOLVE_OPERATION" := by
    rw [isEventAccesses, hopcode, if_neg (by decide), syncTypeAccesses, if_pos hccu]
  rw [metadataAccesses, if_pos h7, hevent]
  exact List.mem_append_left _ List.mem_cons_self

theorem readsMode_of_draw (hdraw : p.isDraw = true) :
    .isRegSet (info.regOffsetByName "PC_CNTL") ∈ p.metadataAccesses info variant t := by
  obtain ⟨h7, hopcode⟩ : p.header.type = 7 ∧ isDrawEventOpcode p.header.type7Opcode = true := by
    simpa [isDraw] using hdraw
  have hevent : Util.isEvent info p p.header.type7Opcode t = some true := by
    rw [Util.isEvent, isDrawDispatchEventOpcode, hopcode]
    rfl
  have htype : Util.getEventType info p p.header.type7Opcode t = some .kDraw := by
    rw [Util.getEventType, if_pos hopcode]
  rw [metadataAccesses, if_pos h7, if_pos hevent, htype]
  refine List.mem_append_right _ (List.mem_append_right _ ?_)
  show _ ∈ stateAccesses info variant t .kDraw
  rw [stateAccesses, if_pos (Or.inl rfl), if_pos rfl]
  refine List.mem_append_left _ ?_
  simp [Pm4Info.fillDrawEventStateInfo, Pm4Info.fillInputAssemblyState, Pm4Info.readNamed,
    RegisterTracker.ifSet]

/-- **A packet reads in the mode of the tracker** exactly when it is a draw or a resolve. -/
theorem exists_readsMode_iff : (∃ a ∈ p.metadataAccesses info variant t, a.readsMode = true) ↔
    p.readsState = true := by
  constructor
  · rintro ⟨a, ha, hreads⟩
    by_contra hno
    rw [handleShaders_readsMode (mem_handleShaders_of_other (by simpa using hno) ha)] at hreads
    exact Bool.false_ne_true hreads
  · intro h
    rcases Bool.or_eq_true_iff.mp h with hdraw | hccu
    · exact ⟨_, readsMode_of_draw hdraw, rfl⟩
    · exact ⟨_, readsMode_of_ccuResolve hccu, rfl⟩

/-! ## The mode after a packet -/

theorem setMarker_isSome (t : RegisterTracker) (u32All0 : UInt32) :
    (t.setMarker u32All0).shaderEnableBit.isSome = true ↔
      [1, 2, 3, 4, 6].contains (u32All0 &&& 0xf).toNat = true ∨
        [5, 7].contains (u32All0 &&& 0xf).toNat = false ∧ t.shaderEnableBit.isSome = true := by
  unfold RegisterTracker.setMarker
  generalize (u32All0 &&& 0xf).toNat = marker
  split
  iterate 7 simp
  next h₁ h₂ h₃ h₄ h₅ h₆ h₇ =>
    simp only [List.contains_cons, List.contains_nil, Bool.or_false, Bool.or_eq_true,
      Bool.or_eq_false_iff, beq_iff_eq, beq_eq_false_iff_ne]
    tauto

theorem marked_isSome (p : CapturedPacket) (t : RegisterTracker) :
    (p.marked t).shaderEnableBit.isSome = true ↔
      p.startsMode = true ∨ p.endsMode = false ∧ t.shaderEnableBit.isSome = true := by
  unfold marked startsMode endsMode
  cases hop : p.header.isOpcode CP_SET_MARKER with
  | true => simpa using setMarker_isSome t p.markerDword
  | false => simp

theorem onPacket_isSome {t' : RegisterTracker} {table : RegTable}
    (h : t.onPacket table p = some t') :
    t'.shaderEnableBit.isSome = true ↔
      p.startsMode = true ∨ p.endsMode = false ∧ t.shaderEnableBit.isSome = true := by
  rw [onPacket_eq] at h
  split_ifs at h
  cases h
  exact marked_isSome p t

end CapturedPacket

/-! ## The modes of a submit -/

namespace Emulation

variable {E : Emulation} {table : RegTable} {events : List Event} {t t' : RegisterTracker}

theorem not_hasMode_nil : ¬ E.HasMode [] := by
  rintro ⟨es, ibIndex, va, hd, es', heq, -⟩
  simp at heq

theorem hasMode_concat_packet {ibIndex : ℕ} {va : UInt64} {hd : Pm4Header} :
    E.HasMode (events ++ [.packet ibIndex va hd]) ↔
      (E.capturedPacket va hd).startsMode = true ∨
        (E.capturedPacket va hd).endsMode = false ∧ E.HasMode events := by
  constructor
  · rintro ⟨es, i, v, d, es', heq, hstarts, hlater⟩
    rcases List.eq_nil_or_concat' es' with rfl | ⟨es'', e, rfl⟩
    · rw [List.append_cons, List.append_nil] at heq
      obtain ⟨-, heq⟩ := List.append_inj' heq rfl
      cases heq
      exact .inl hstarts
    · rw [← List.cons_append, ← List.append_assoc] at heq
      obtain ⟨rfl, he⟩ := List.append_inj' heq rfl
      cases he
      refine .inr ⟨hlater ibIndex va hd (by simp), es, i, v, d, es'', rfl, hstarts, ?_⟩
      exact fun i v d hmem => hlater i v d (by simp [hmem])
  · rintro (hstarts | ⟨hends, es, i, v, d, es', rfl, hstarts, hlater⟩)
    · exact ⟨events, ibIndex, va, hd, [], rfl, hstarts, by simp⟩
    · refine ⟨es, i, v, d, es' ++ [.packet ibIndex va hd], by simp, hstarts, ?_⟩
      intro i v d hmem
      rcases List.mem_append.mp hmem with hmem | hmem
      · exact hlater i v d hmem
      · cases List.mem_singleton.mp hmem
        exact hends

theorem hasMode_concat_other {e : Event} (he : ∀ ibIndex va hd, e ≠ .packet ibIndex va hd) :
    E.HasMode (events ++ [e]) ↔ E.HasMode events := by
  constructor
  · rintro ⟨es, i, v, d, es', heq, hstarts, hlater⟩
    rcases List.eq_nil_or_concat' es' with rfl | ⟨es'', e', rfl⟩
    · rw [List.append_cons, List.append_nil] at heq
      obtain ⟨-, heq⟩ := List.append_inj' heq rfl
      exact absurd (List.singleton_inj.mp heq) (he i v d)
    · rw [← List.cons_append, ← List.append_assoc] at heq
      obtain ⟨rfl, -⟩ := List.append_inj' heq rfl
      refine ⟨es, i, v, d, es'', rfl, hstarts, ?_⟩
      exact fun i v d hmem => hlater i v d (by simp [hmem])
  · rintro ⟨es, i, v, d, es', rfl, hstarts, hlater⟩
    refine ⟨es, i, v, d, es' ++ [e], by simp, hstarts, fun i v d hmem => ?_⟩
    rcases List.mem_append.mp hmem with hmem | hmem
    · exact hlater i v d hmem
    · exact absurd (List.mem_singleton.mp hmem).symm (he i v d)

/-- **The tracker has a mode** exactly when the markers say so. -/
theorem isSome_iff_hasMode (ht : t.shaderEnableBit = none)
    (hrun : Monitor.run (RegisterTracker.onEvent E table) t events = some t') :
    t'.shaderEnableBit.isSome = true ↔ E.HasMode events := by
  refine @Monitor.run_history _ _ (RegisterTracker.onEvent E table) t t' events
    (fun es u => u.shaderEnableBit.isSome = true ↔ E.HasMode es) ?_ ?_ hrun
  · simp [ht, not_hasMode_nil]
  · intro es u e u' ih hstep
    cases e with
    | ibStart q ibIndex ib ibType =>
      cases hstep
      rw [hasMode_concat_other (by simp)]
      exact ih
    | ibEnd ibIndex ib =>
      obtain ⟨masks, -, rfl⟩ := Option.map_eq_some_iff.mp hstep
      rw [hasMode_concat_other (by simp)]
      exact ih
    | packet ibIndex va hd =>
      rw [CapturedPacket.onPacket_isSome hstep, hasMode_concat_packet, ih]

/-! ## Runs of the tracker -/

theorem onEvent_of_there {e : Event} {masks : EmulateStateTracker}
    (h : t.toEmulateStateTracker.onEvent e = some masks)
    (he : ∀ ibIndex va hd, e = .packet ibIndex va hd →
      ∀ w ∈ (E.capturedPacket va hd).regWrites table, w.offset.toNat < kNumRegs) :
    ∃ u, t.onEvent E table e = some u ∧ masks = u.toEmulateStateTracker := by
  cases e with
  | ibStart q ibIndex ib ibType =>
    cases h
    exact ⟨_, rfl, rfl⟩
  | ibEnd ibIndex ib => exact ⟨_, congrArg (Option.map _) h, rfl⟩
  | packet ibIndex va hd =>
    cases h
    refine ⟨_, (CapturedPacket.onPacket_eq t).trans (if_pos (he ibIndex va hd rfl)), ?_⟩
    obtain ⟨mode, hmarked, -⟩ := (E.capturedPacket va hd).marked_eq t
    rw [hmarked]
    rfl

theorem run_of_there {masks : EmulateStateTracker}
    (h : Monitor.run EmulateStateTracker.onEvent t.toEmulateStateTracker events = some masks)
    (hthere : E.WritesThere table events) :
    ∃ u, Monitor.run (RegisterTracker.onEvent E table) t events = some u := by
  obtain ⟨u, hu, -⟩ := @Monitor.run_simulation _ _ _ EmulateStateTracker.onEvent
    (RegisterTracker.onEvent E table) masks (fun m v => m = v.toEmulateStateTracker) events
    t.toEmulateStateTracker t rfl h fun e he m w v hm hw => by
      subst hm
      exact onEvent_of_there hw fun ibIndex va hd heq => hthere ibIndex va hd (heq ▸ he)
  exact ⟨u, hu⟩

theorem there_of_run (h : Monitor.run (RegisterTracker.onEvent E table) t events = some t') :
    E.WritesThere table events := by
  intro ibIndex va hd hmem
  obtain ⟨es, es', rfl⟩ := List.append_of_mem hmem
  obtain ⟨v, w, -, hw, -⟩ := Monitor.run_split h
  have hpacket := (CapturedPacket.onPacket_eq v).symm.trans hw
  split_ifs at hpacket with hthere
  exact hthere

theorem of_readsState {p : CapturedPacket} (h : p.readsState = true) :
    p.regWrites table = [] ∧ p.startsMode = false ∧ p.endsMode = false := by
  have hopcode : p.header.type = 7 ∧ (isDrawEventOpcode p.header.type7Opcode = true ∨
      p.header.type7Opcode = CP_EVENT_WRITE7) := by
    rcases Bool.or_eq_true_iff.mp h with hdraw | hccu
    · have hboth : p.header.type = 7 ∧ isDrawEventOpcode p.header.type7Opcode = true := by
        simpa [CapturedPacket.isDraw] using hdraw
      exact ⟨hboth.1, .inl hboth.2⟩
    · have hop := (Bool.and_eq_true_iff.mp hccu).1
      have hboth : p.header.type = 7 ∧ p.header.type7Opcode = CP_EVENT_WRITE7 := by
        simpa [Pm4Header.isOpcode] using hop
      exact ⟨hboth.1, .inr hboth.2⟩
  have hmarker : p.header.isOpcode CP_SET_MARKER = false := by
    by_contra hmarker
    have hop : p.header.type7Opcode = CP_SET_MARKER := by
      simpa [Pm4Header.isOpcode, hopcode.1] using hmarker
    rw [hop] at hopcode
    revert hopcode
    simp [isDrawEventOpcode, CP_SET_MARKER, CP_DRAW_INDX, CP_DRAW_INDX_OFFSET, CP_DRAW_INDIRECT,
      CP_DRAW_INDX_INDIRECT, CP_DRAW_INDIRECT_MULTI, CP_DRAW_AUTO, CP_EVENT_WRITE7]
  have hbunch : p.header.isOpcode CP_CONTEXT_REG_BUNCH = false := by
    by_contra hbunch
    have hop : p.header.type7Opcode = CP_CONTEXT_REG_BUNCH := by
      simpa [Pm4Header.isOpcode, hopcode.1] using hbunch
    rw [hop] at hopcode
    revert hopcode
    simp [isDrawEventOpcode, CP_CONTEXT_REG_BUNCH, CP_DRAW_INDX, CP_DRAW_INDX_OFFSET,
      CP_DRAW_INDIRECT, CP_DRAW_INDX_INDIRECT, CP_DRAW_INDIRECT_MULTI, CP_DRAW_AUTO,
      CP_EVENT_WRITE7]
  refine ⟨?_, by simp [CapturedPacket.startsMode, hmarker],
    by simp [CapturedPacket.endsMode, hmarker]⟩
  rw [CapturedPacket.regWrites, hbunch, hopcode.1]
  rfl

/-! ## Known modes -/

/-- **Known modes.** At any point of a submit, whatever the tracker was before it, registers are
only read in a mode that the tracker has exactly when every draw and every resolve comes in a
mode. -/
theorem readsInMode_iff {ibs : List IndirectBufferInfo} {c : Config} (h : E.Reachable ibs c)
    (info : Pm4Info) (variant : GPUVariantType) (t : RegisterTracker) :
    E.ReadsInMode info variant t.reset c.trace ↔ E.DrawsInMode info.regInfo c.trace := by
  constructor
  · intro hlaw es ibIndex va hd es' heq hthere hreads
    obtain ⟨hwrites, hstarts, hends⟩ := @of_readsState info.regInfo _ hreads
    obtain ⟨masks, hmasks, -⟩ := masksOnStack_reachable h t.reset.toEmulateStateTracker
    rw [heq] at hmasks
    obtain ⟨masks', hmasks'⟩ := Monitor.run_prefix hmasks
    obtain ⟨u, hu⟩ := run_of_there hmasks' hthere
    have hpacket : u.onEvent E info.regInfo (.packet ibIndex va hd) = some _ :=
      (CapturedPacket.onPacket_eq u).trans (if_pos (by simp [hwrites]))
    have hrun : Monitor.run (RegisterTracker.onEvent E info.regInfo) t.reset
        (es ++ [.packet ibIndex va hd]) = some _ :=
      (Monitor.run_append_of hu).trans (Monitor.run_cons_of hpacket)
    obtain ⟨a, ha, hmode⟩ := CapturedPacket.exists_readsMode_iff.mpr hreads
    have hsome := hlaw es ibIndex va hd es' _ heq hrun .kBINNING a ha hmode
    rw [CapturedPacket.onPacket_isSome hpacket, hstarts, hends] at hsome
    exact (isSome_iff_hasMode rfl hu).mp (by simpa using hsome)
  · intro hdraws es ibIndex va hd es' t' heq hrun plane a ha hmode
    have hreads := CapturedPacket.exists_readsMode_iff.mp ⟨a, ha, hmode⟩
    obtain ⟨-, hstarts, hends⟩ := @of_readsState info.regInfo _ hreads
    obtain ⟨u, w, hu, hw, hlast⟩ := Monitor.run_split hrun
    cases hlast
    have hmodes := hdraws es ibIndex va hd es' heq (there_of_run hu) hreads
    rw [CapturedPacket.onPacket_isSome hw, hstarts, hends, isSome_iff_hasMode rfl hu]
    exact .inr ⟨rfl, hmodes⟩

/-- A draw after the marker of a direct pass. -/
theorem readsInMode_drawn : ∃ c,
    Reachable ⟨drawnMemory, 0, fun _ _ => true⟩ drawnSubmit.ibs c ∧ c.trace = drawnTrace ∧
      ReadsInMode ⟨drawnMemory, 0, fun _ _ => true⟩ noInfo .kA6XX
        (RegisterTracker.reset {}) c.trace := by
  obtain ⟨c, hc, -, htrace⟩ := drawn_succeeds
  refine ⟨c, hc, htrace, (readsInMode_iff hc noInfo .kA6XX {}).mpr ?_⟩
  rw [htrace]
  intro es ibIndex va hd es' heq _ hreads
  rcases es with _ | ⟨e₀, _ | ⟨e₁, _ | ⟨e₂, _ | ⟨e₃, es⟩⟩⟩⟩
  · simp [drawnTrace] at heq
  · obtain ⟨-, ⟨rfl, rfl, rfl⟩, -⟩ := by simpa [drawnTrace] using heq
    exact absurd hreads (by decide)
  · obtain ⟨-, -, ⟨rfl, rfl, rfl⟩, -⟩ := by simpa [drawnTrace] using heq
    exact absurd hreads (by decide)
  · obtain ⟨rfl, rfl, rfl, -⟩ := by simpa [drawnTrace] using heq
    refine ⟨[_], 0, 0x1000, ⟨0x70e50001⟩, [_], rfl, by decide, fun ibIndex va hd hmem => ?_⟩
    cases List.mem_singleton.mp hmem
    decide
  · rcases es with _ | ⟨e₄, es⟩ <;> simp [drawnTrace] at heq

/-! ## A draw without a marker -/

/-- At `0x1000`, a `CP_DRAW_AUTO` packet and nothing else. -/
def unmarkedDraw : Emulation := accepting [.ofDwords 0x1000 [0x70a48000]]

def unmarkedIbs : List IndirectBufferInfo := [{ vaAddr := 0x1000, sizeInDwords := 1 }]

def unmarkedTrace : List Event := [
  .ibStart ⟨.kNormal, 0x1000, 1, false, 7⟩ 0 ⟨0x1000, 1, 1, 7, false⟩ .kNormal,
  .packet 0 0x1000 ⟨0x70a48000⟩, .ibEnd 0 ⟨0x1000, 1, 0, 0, false⟩]

/-- **A draw without a marker** reads registers, and the tracker has no mode. -/
theorem unmarkedDraw_not_inMode : unmarkedDraw.Succeeds unmarkedIbs unmarkedTrace ∧
    ¬ unmarkedDraw.ReadsInMode noInfo .kA6XX (RegisterTracker.reset {}) unmarkedTrace := by
  refine ⟨succeeds_of_successTrace (n := 5) (by rfl), fun hlaw => ?_⟩
  have hsome := hlaw [_] 0 0x1000 ⟨0x70a48000⟩ [_] _ rfl rfl .kBINNING _
    (CapturedPacket.readsMode_of_draw (by decide)) rfl
  exact Bool.false_ne_true hsome

end Emulation

end Dive
