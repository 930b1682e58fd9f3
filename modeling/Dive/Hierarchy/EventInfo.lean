import Dive.Pm4.Tracker

/-!
# Events of a capture

* `SyncType`, `EventType`: what `GetSyncType` and `GetEventType` tell apart.
* `getSyncType`: the markers and resolves, from the packet and the registers of the render mode.
* `isEvent`, `getEventType`, `shouldIgnoreEventDuringCorrelation`: as in the source.
* `getEventType_of_isEvent`: every event has a type.

A register is read in the current render mode; without one, or past the register array, there is
nothing to read (`none`).
-/

namespace Dive

/-! ## Opcodes -/

def CP_WAIT_MEM_WRITES : UInt32 := 0x12
def CP_WAIT_FOR_ME : UInt32 := 0x13
def CP_DRAW_INDX : UInt32 := 0x22
def CP_DRAW_AUTO : UInt32 := 0x24
def CP_WAIT_FOR_IDLE : UInt32 := 0x26
def CP_DRAW_INDIRECT : UInt32 := 0x28
def CP_DRAW_INDX_INDIRECT : UInt32 := 0x29
def CP_DRAW_INDIRECT_MULTI : UInt32 := 0x2a
def CP_BLIT : UInt32 := 0x2c
def CP_EXEC_CS : UInt32 := 0x33
def CP_DRAW_INDX_OFFSET : UInt32 := 0x38
def CP_EXEC_CS_INDIRECT : UInt32 := 0x41
def CP_EVENT_WRITE7 : UInt32 := 0x46

/-- `UINT32_MAX`, the opcode of a packet that is not of type 7. -/
def noOpcode : UInt32 := 0xffffffff

def isDispatchEventOpcode (opcode : UInt32) : Bool :=
  opcode = CP_EXEC_CS_INDIRECT || opcode = CP_EXEC_CS

def isDrawEventOpcode (opcode : UInt32) : Bool :=
  opcode = CP_DRAW_INDX || opcode = CP_DRAW_INDX_OFFSET || opcode = CP_DRAW_INDIRECT ||
    opcode = CP_DRAW_INDX_INDIRECT || opcode = CP_DRAW_INDIRECT_MULTI || opcode = CP_DRAW_AUTO

def isDrawDispatchEventOpcode (opcode : UInt32) : Bool :=
  isDrawEventOpcode opcode || isDispatchEventOpcode opcode

/-! ## Types -/

/-- The values of `SyncType` that `GetSyncType` returns. -/
inductive SyncType
  | kColorSysMemToGmemResolve
  | kColorGmemToSysMemResolve
  | kColorGmemToSysMemResolveAndClear
  | kColorClearGmem
  | kDepthSysMemToGmemResolve
  | kDepthGmemToSysMemResolve
  | kDepthGmemToSysMemResolveAndClear
  | kDepthClearGmem
  | kWaitMemWrites
  | kWaitForIdle
  | kWaitForMe
  | kNone
  deriving DecidableEq

inductive EventType
  | kUnknown
  | kDraw
  | kDispatch
  | kBlit
  | kColorSysMemToGmemResolve
  | kColorGmemToSysMemResolve
  | kColorGmemToSysMemResolveAndClear
  | kColorClearGmem
  | kDepthSysMemToGmemResolve
  | kDepthGmemToSysMemResolve
  | kDepthGmemToSysMemResolveAndClear
  | kDepthClearGmem
  | kSysmemToGmemResolve
  | kWaitMemWrites
  | kWaitForIdle
  | kWaitForMe
  | kEventWriteStart
  | kEventWriteEnd
  deriving DecidableEq

/-- What the build generates from the register descriptions: `GetRegInfo`, and
`GetRegOffsetByName`. -/
structure Pm4Info where
  regInfo : RegTable
  regOffsetByName : String → UInt32

namespace RegisterTracker

variable (t : RegisterTracker)

/-- `IsRegSet`, whose bits fill whole bytes. -/
def isRegSet (offset : UInt32) : Option Bool :=
  t.shaderEnableBit.bind fun plane =>
    if offset.toNat / 8 < kNumRegs / 8 + 1 then some (t.regIsSet plane offset) else none

/-- `GetRegValue`. -/
def getRegValue (offset : UInt32) : Option UInt32 :=
  t.shaderEnableBit.bind fun plane =>
    if offset.toNat < kNumRegs then some (t.reg plane offset) else none

end RegisterTracker

namespace CapturedPacket

variable (p : CapturedPacket)

/-- `EVENT` of `PM4_CP_EVENT_WRITE`. -/
def eventField : UInt32 :=
  (p.memManager.retrieveMemoryData Buffer.zero p.submitIndex p.vaAddr 20).2.u32 4 &&& 0xff

/-- `PRIM_TYPE` of `PM4_CP_DRAW_INDX_OFFSET`. -/
def primTypeField : UInt32 :=
  (p.memManager.retrieveMemoryData Buffer.zero p.submitIndex p.vaAddr
    ((p.header.type7Count + 1).toUInt64 * 4)).2.u32 4 &&& 0x3f

end CapturedPacket

/-! ## Functions of `Util` -/

namespace Util

/-- `CCU_RESOLVE`. -/
def ccuResolve : UInt32 := 30

/-- The resolve that `RB_RESOLVE_OPERATION` describes: `TYPE` is bits 0 and 1, `DEPTH` bit 3. -/
def resolveType (rbResolveOperation : UInt32) : SyncType :=
  let depth := rbResolveOperation &&& 8 != 0
  match (rbResolveOperation &&& 3).toNat with
  -- BLIT_EVENT_STORE
  | 0 => if depth then .kDepthGmemToSysMemResolve else .kColorGmemToSysMemResolve
  -- BLIT_EVENT_STORE_AND_CLEAR
  | 1 => if depth then .kDepthGmemToSysMemResolveAndClear else .kColorGmemToSysMemResolveAndClear
  -- BLIT_EVENT_CLEAR
  | 2 => if depth then .kDepthClearGmem else .kColorClearGmem
  -- BLIT_EVENT_LOAD
  | _ => if depth then .kDepthSysMemToGmemResolve else .kColorSysMemToGmemResolve

/-- A resolve, or one of the waits. -/
def getSyncType (info : Pm4Info) (p : CapturedPacket) (opcode : UInt32) (t : RegisterTracker) :
    Option SyncType :=
  if opcode = CP_EVENT_WRITE7 then
    if p.eventField = ccuResolve then
      let offset := info.regOffsetByName "RB_RESOLVE_OPERATION"
      (t.isRegSet offset).bind fun isSet =>
        if isSet then (t.getRegValue offset).map resolveType else some .kNone
    else some .kNone
  else if opcode = CP_WAIT_MEM_WRITES then some .kWaitMemWrites
  else if opcode = CP_WAIT_FOR_IDLE then some .kWaitForIdle
  else if opcode = CP_WAIT_FOR_ME then some .kWaitForMe
  else some .kNone

def isEvent (info : Pm4Info) (p : CapturedPacket) (opcode : UInt32) (t : RegisterTracker) :
    Option Bool :=
  if isDrawDispatchEventOpcode opcode then some true
  else if opcode = CP_BLIT then some true
  else (getSyncType info p opcode t).map fun syncType => syncType ≠ .kNone

/-- The `switch` of `GetEventType`. -/
def syncEventType : SyncType → EventType
  | .kColorSysMemToGmemResolve => .kColorSysMemToGmemResolve
  | .kColorGmemToSysMemResolve => .kColorGmemToSysMemResolve
  | .kColorGmemToSysMemResolveAndClear => .kColorGmemToSysMemResolveAndClear
  | .kColorClearGmem => .kColorClearGmem
  | .kDepthSysMemToGmemResolve => .kDepthSysMemToGmemResolve
  | .kDepthGmemToSysMemResolve => .kDepthGmemToSysMemResolve
  | .kDepthGmemToSysMemResolveAndClear => .kDepthGmemToSysMemResolveAndClear
  | .kDepthClearGmem => .kDepthClearGmem
  | .kWaitMemWrites => .kWaitMemWrites
  | .kWaitForIdle => .kWaitForIdle
  | .kWaitForMe => .kWaitForMe
  -- only an assertion
  | .kNone => .kUnknown

def getEventType (info : Pm4Info) (p : CapturedPacket) (opcode : UInt32) (t : RegisterTracker) :
    Option EventType :=
  if isDrawEventOpcode opcode then some .kDraw
  else if isDispatchEventOpcode opcode then some .kDispatch
  else if opcode = CP_BLIT then some .kBlit
  else (getSyncType info p opcode t).map syncEventType

/-- The driver draws with `DI_PT_RECTLIST` for its own operations. -/
def shouldIgnoreEventDuringCorrelation (p : CapturedPacket) : Bool :=
  p.header.type7Opcode = CP_DRAW_INDX_OFFSET && p.primTypeField = 8

variable {info : Pm4Info} {p : CapturedPacket} {opcode : UInt32} {t : RegisterTracker}

theorem syncEventType_eq_unknown {syncType : SyncType} :
    syncEventType syncType = .kUnknown ↔ syncType = .kNone := by
  cases syncType <;> simp [syncEventType]

/-- **Every event has a type.** -/
theorem getEventType_of_isEvent (h : isEvent info p opcode t = some true) :
    ∃ eventType, getEventType info p opcode t = some eventType ∧ eventType ≠ .kUnknown := by
  unfold isEvent isDrawDispatchEventOpcode at h
  unfold getEventType
  by_cases hdraw : isDrawEventOpcode opcode = true
  · simp [hdraw]
  by_cases hdispatch : isDispatchEventOpcode opcode = true
  · simp [hdraw, hdispatch]
  by_cases hblit : opcode = CP_BLIT
  · rw [if_neg hdraw, if_neg hdispatch, if_pos hblit]
    exact ⟨_, rfl, EventType.noConfusion⟩
  · rw [if_neg (by simp [hdraw, hdispatch]), if_neg hblit] at h
    obtain ⟨syncType, hsync, hne⟩ := Option.map_eq_some_iff.mp h
    rw [if_neg hdraw, if_neg hdispatch, if_neg hblit, hsync]
    exact ⟨_, rfl, fun hunknown => of_decide_eq_true hne (syncEventType_eq_unknown.mp hunknown)⟩

end Util

end Dive
