import Dive.Hierarchy.Passes
import Dive.Lib.Queries
import Dive.Memory.Image

/-!
# Reading the packets of events

* `PacketType`: the generated structures that packets are read into, with their sizes.
* `MemoryRead`, `PacketRead`: a read into a structure, and code that makes reads.
* `PacketRead.isEvent`, `getEventType`, `getEventString`, `getIndexCount`, `getTopology`,
  `shouldIgnoreEventDuringCorrelation`, `setMarker`: as in the source; `interpret` puts them
  together as `OnPacket` does.
* `run_isEvent`, `run_getEventType`, `run_shouldIgnore`, `run_onMarker`: they are the functions
  of `Util` and of the trackers, with their reads made visible.
-/

namespace Dive

/-- The generated structures that are read. -/
inductive PacketType
  | CP_DRAW_INDX
  | CP_DRAW_INDX_OFFSET
  | CP_DRAW_INDIRECT
  | CP_DRAW_INDX_INDIRECT
  | CP_DRAW_INDIRECT_MULTI_INDIRECT_OP_NORMAL
  | CP_DRAW_INDIRECT_MULTI_INDEXED
  | CP_DRAW_INDIRECT_MULTI_INDIRECT
  | CP_DRAW_INDIRECT_MULTI_INDIRECT_INDEXED
  | CP_DRAW_AUTO
  | CP_EXEC_CS_INDIRECT
  | CP_EXEC_CS
  | CP_BLIT
  | CP_EVENT_WRITE
  | CP_SET_MARKER
  | CP_SET_AMBLE
  | CP_SET_DRAW_STATE
  deriving DecidableEq, Repr

/-- `sizeof`. -/
def PacketType.bytes : PacketType → ℕ
  | CP_DRAW_INDX => 24
  | CP_DRAW_INDX_OFFSET => 32
  | CP_DRAW_INDIRECT => 16
  | CP_DRAW_INDX_INDIRECT => 28
  | CP_DRAW_INDIRECT_MULTI_INDIRECT_OP_NORMAL => 28
  | CP_DRAW_INDIRECT_MULTI_INDEXED => 40
  | CP_DRAW_INDIRECT_MULTI_INDIRECT => 36
  | CP_DRAW_INDIRECT_MULTI_INDIRECT_INDEXED => 48
  | CP_DRAW_AUTO => 28
  | CP_EXEC_CS_INDIRECT => 20
  | CP_EXEC_CS => 20
  | CP_BLIT => 24
  | CP_EVENT_WRITE => 20
  | CP_SET_MARKER => 8
  | CP_SET_AMBLE => 16
  | CP_SET_DRAW_STATE => 1204

/-- A call of `RetrieveMemoryData`, with the size of the destination. -/
structure MemoryRead where
  vaAddr : UInt64
  size : UInt64
  capacity : ℕ
  deriving DecidableEq, Repr

/-- Code that reads memory; the answer to a read is the flag and the destination. -/
abbrev PacketRead := Query MemoryRead (Bool × Buffer)

/-- How a memory interface answers; the destination is zero before. -/
def IMemoryManager.answer (memManager : IMemoryManager) (submitIndex : UInt32) (r : MemoryRead) :
    Bool × Buffer :=
  memManager.retrieveMemoryData Buffer.zero submitIndex r.vaAddr r.size

/-- How an image answers. -/
def MemoryImage.answer (I : MemoryImage) (r : MemoryRead) : Bool × Buffer :=
  I.retrieve Buffer.zero r.vaAddr r.size

/-- The `VkPrimitiveTopology` values that `GetTopology` returns. -/
inductive VkPrimitiveTopology
  | POINT_LIST
  | LINE_LIST
  | LINE_STRIP
  | TRIANGLE_LIST
  | TRIANGLE_STRIP
  | TRIANGLE_FAN
  | LINE_LIST_WITH_ADJACENCY
  | LINE_STRIP_WITH_ADJACENCY
  | TRIANGLE_LIST_WITH_ADJACENCY
  | TRIANGLE_STRIP_WITH_ADJACENCY
  deriving DecidableEq, Repr

/-! ## Texts -/

/-- A number in decimal. -/
def decimal (n : ℕ) : String := toString n

/-- A number after `0x` and `std::hex`. -/
def hex (n : ℕ) : String := "0x" ++ String.ofList (Nat.toDigits 16 n)

/-- The bits `low` to `low + width - 1`. -/
def bitsOf (dword : UInt32) (low width : UInt32) : ℕ :=
  ((dword >>> low) &&& ((1 <<< width) - 1)).toNat

namespace Pm4Packet

variable (packet : Pm4Packet)

/-- The dword at an offset of the packet. -/
def field (offset : ℕ) : UInt32 := packet.u32 (4 * (offset + 1))

/-- The address at an offset of the packet. -/
def address (offset : ℕ) : UInt64 := packet.u64 (4 * (offset + 1))

def drawIndxText : String :=
  "DrawIndexOffset(NumIndices:" ++ decimal (packet.field 2).toNat ++ ")"

def drawIndxOffsetText : String :=
  "DrawIndexOffset(" ++
    match bitsOf (packet.field 0) 6 2 with
    -- DI_SRC_SEL_AUTO_INDEX
    | 2 => "AutoIndex,NumIndices:" ++ decimal (packet.field 2).toNat ++
        ",NumInstances:" ++ decimal (packet.field 1).toNat ++ ")"
    -- DI_SRC_SEL_DMA
    | 0 => "NumIndices:" ++ decimal (packet.field 2).toNat ++
        ",NumInstances:" ++ decimal (packet.field 1).toNat ++
        ",IndexBase:" ++ hex (packet.address 4).toNat ++ ")"
    | _ => ")"

/-- The stream is not set to `std::hex` here. -/
def drawIndirectText : String :=
  "DrawIndirect(Indirect:0x" ++ decimal (packet.address 1).toNat ++ ")"

def drawIndxIndirectText : String :=
  "DrawIndexIndirect(IndexBase:" ++ hex (packet.address 1).toNat ++
    ",MaxIndices:" ++ decimal (packet.field 3).toNat ++
    ",Indirect:" ++ hex (packet.address 4).toNat ++ ")"

/-- `OPCODE` of `CP_DRAW_INDIRECT_MULTI`. -/
def multiOpcode : ℕ := bitsOf (packet.field 1) 0 4

/-- `DST_OFF`. -/
def dstOffText : String := ",DstOff:" ++ decimal (bitsOf (packet.field 1) 8 14) ++ ")"

def multiNormalText : String :=
  "DrawIndirectMulti(DrawCount:" ++ decimal (packet.field 2).toNat ++
    ",Indirect:" ++ hex (packet.address 3).toNat ++
    ",Stride:" ++ decimal (packet.field 5).toNat ++ packet.dstOffText

def multiIndexedText : String :=
  "DrawIndirectMultiIndexed(DrawCount:" ++ decimal (packet.field 2).toNat ++
    ",Index:" ++ hex (packet.address 3).toNat ++
    ",MaxIndices:" ++ decimal (packet.field 5).toNat ++
    ",Indirect:" ++ hex (packet.address 6).toNat ++
    ",Stride:" ++ decimal (packet.field 8).toNat ++ packet.dstOffText

def multiIndirectText : String :=
  "DrawIndirectMultiIndirect(DrawCount:" ++ decimal (packet.field 2).toNat ++
    ",Indirect:" ++ hex (packet.address 3).toNat ++
    ",IndirectCount:" ++ decimal (packet.address 5).toNat ++
    ",Stride:" ++ decimal (packet.field 7).toNat ++ packet.dstOffText

def multiIndirectIndexedText : String :=
  "DrawIndirectMultiIndirectIndexed(DrawCount:" ++ decimal (packet.field 2).toNat ++
    ",Index:" ++ hex (packet.address 3).toNat ++
    ",MaxIndices:" ++ decimal (packet.field 5).toNat ++
    ",Indirect:" ++ hex (packet.address 6).toNat ++
    ",IndirectCount:" ++ decimal (packet.address 8).toNat ++
    ",Stride:" ++ decimal (packet.field 10).toNat ++ packet.dstOffText

def drawAutoText : String :=
  "DrawAuto(NumInstances:" ++ decimal (packet.field 1).toNat ++
    ",CounterBuffer:" ++ decimal (packet.address 2).toNat ++ ")"

def execCsIndirectText : String :=
  "ExecCsIndirect(x:" ++ decimal (bitsOf (packet.field 3) 2 10) ++
    ",y:" ++ decimal (bitsOf (packet.field 3) 12 10) ++
    ",z:" ++ decimal (bitsOf (packet.field 3) 22 10) ++
    ",Addr:" ++ hex (packet.address 1).toNat ++ ")"

def execCsText : String :=
  "ExecCsIndirect(x:" ++ decimal (packet.field 1).toNat ++
    ",y:" ++ decimal (packet.field 2).toNat ++
    ",z:" ++ decimal (packet.field 3).toNat ++ ")"

/-- The name of `OP`. -/
def blitOp : String :=
  match bitsOf (packet.field 0) 0 4 with
  | 0 => "BLIT_OP_FILL"
  | 1 => "BLIT_OP_COPY"
  | 3 => "BLIT_OP_SCALE"
  | _ => ""

/-- The coordinates of a dword of `CP_BLIT`. -/
def blitPoint (offset : ℕ) (x y : String) : String :=
  "," ++ x ++ ":" ++ decimal (bitsOf (packet.field offset) 0 14) ++
    "," ++ y ++ ":" ++ decimal (bitsOf (packet.field offset) 16 14)

def blitText (header : Pm4Header) : String :=
  "CpBlit(op:" ++ packet.blitOp ++
    (if header.type7Count > 2 then
      packet.blitPoint 1 "srcX1" "srcY1" ++ packet.blitPoint 2 "srcX2" "srcY2" ++
        packet.blitPoint 3 "dstX1" "dstX1" ++ packet.blitPoint 4 "dstX2" "dstX2"
    else "") ++ ")"

end Pm4Packet

/-- The texts of the resolves and clears. -/
def SyncType.resolveText : SyncType → Option String
  | .kColorSysMemToGmemResolve => some "Resolve(Color,SysMem-To-Gmem)"
  | .kColorGmemToSysMemResolve => some "Resolve(Color,Gmem-To-SysMem)"
  | .kColorGmemToSysMemResolveAndClear => some "Resolve(Color,Gmem-To-SysMem,ClearGmem)"
  | .kColorClearGmem => some "Resolve(Color,ClearGmem)"
  | .kDepthSysMemToGmemResolve => some "Resolve(Depth,SysMem-To-Gmem)"
  | .kDepthGmemToSysMemResolve => some "Resolve(Depth,Gmem-To-SysMem)"
  | .kDepthGmemToSysMemResolveAndClear => some "Resolve(Depth,Gmem-To-SysMem,ClearGmem)"
  | .kDepthClearGmem => some "Resolve(Depth,ClearGmem)"
  -- no event
  | _ => none

namespace PacketRead

/-! ## The reads -/

/-- A read of `size` bytes into a structure. -/
def retrieve (vaAddr size : UInt64) (type : PacketType) : PacketRead Pm4Packet :=
  Prod.snd <$> Query.question ⟨vaAddr, size, type.bytes⟩

/-- A read of a whole structure. -/
def retrieveWhole (vaAddr : UInt64) (type : PacketType) : PacketRead Pm4Packet :=
  retrieve vaAddr (UInt64.ofNat type.bytes) type

/-- `(header.count + 1) * sizeof(uint32_t)`. -/
def ownBytes (header : Pm4Header) : UInt64 := (header.type7Count + 1).toUInt64 * 4

section Readers

variable (info : Pm4Info) (vaAddr : UInt64) (header : Pm4Header) (t : RegisterTracker)

/-- `GetSyncType` after `EVENT` is read. -/
def eventWriteType (event : UInt32) : Option SyncType :=
  if event = Util.ccuResolve then
    let offset := info.regOffsetByName "RB_RESOLVE_OPERATION"
    (t.isRegSet offset).bind fun isSet =>
      if isSet then (t.getRegValue offset).map Util.resolveType else some .kNone
  else some .kNone

def getSyncType (opcode : UInt32) : PacketRead (Option SyncType) :=
  if opcode = CP_EVENT_WRITE7 then do
    let packet ← retrieveWhole vaAddr .CP_EVENT_WRITE
    pure (eventWriteType info t (packet.field 0 &&& 0xff))
  else if opcode = CP_WAIT_MEM_WRITES then pure (some .kWaitMemWrites)
  else if opcode = CP_WAIT_FOR_IDLE then pure (some .kWaitForIdle)
  else if opcode = CP_WAIT_FOR_ME then pure (some .kWaitForMe)
  else pure (some .kNone)

def isEvent (opcode : UInt32) : PacketRead (Option Bool) :=
  if isDrawDispatchEventOpcode opcode then pure (some true)
  else if opcode = CP_BLIT then pure (some true)
  else do
    let syncType ← getSyncType info vaAddr t opcode
    pure (syncType.map fun syncType => syncType ≠ .kNone)

def getEventType (opcode : UInt32) : PacketRead (Option EventType) :=
  if isDrawEventOpcode opcode then pure (some .kDraw)
  else if isDispatchEventOpcode opcode then pure (some .kDispatch)
  else if opcode = CP_BLIT then pure (some .kBlit)
  else do
    let syncType ← getSyncType info vaAddr t opcode
    pure (syncType.map Util.syncEventType)

/-- The text of a `CP_DRAW_INDIRECT_MULTI`. -/
def multiString : PacketRead String := do
  let basePacket ← retrieveWhole vaAddr .CP_DRAW_INDIRECT_MULTI_INDIRECT_OP_NORMAL
  if basePacket.multiOpcode = 2 then pure basePacket.multiNormalText
  else if basePacket.multiOpcode = 4 then
    let packet ← retrieveWhole vaAddr .CP_DRAW_INDIRECT_MULTI_INDEXED
    pure packet.multiIndexedText
  else if basePacket.multiOpcode = 6 then
    let packet ← retrieveWhole vaAddr .CP_DRAW_INDIRECT_MULTI_INDIRECT
    pure packet.multiIndirectText
  else if basePacket.multiOpcode = 7 then
    let packet ← retrieveWhole vaAddr .CP_DRAW_INDIRECT_MULTI_INDIRECT_INDEXED
    pure packet.multiIndirectIndexedText
  else pure ""

/-- `GetEventString`; `none` for what is only asserted not to happen. -/
def getEventString : PacketRead (Option String) :=
  let opcode := header.type7Opcode
  if opcode = CP_DRAW_INDX then
    (some ·.drawIndxText) <$> retrieveWhole vaAddr .CP_DRAW_INDX
  else if opcode = CP_DRAW_INDX_OFFSET then
    (some ·.drawIndxOffsetText) <$> retrieve vaAddr (ownBytes header) .CP_DRAW_INDX_OFFSET
  else if opcode = CP_DRAW_INDIRECT then
    (some ·.drawIndirectText) <$> retrieveWhole vaAddr .CP_DRAW_INDIRECT
  else if opcode = CP_DRAW_INDX_INDIRECT then
    (some ·.drawIndxIndirectText) <$> retrieveWhole vaAddr .CP_DRAW_INDX_INDIRECT
  else if opcode = CP_DRAW_INDIRECT_MULTI then some <$> multiString vaAddr
  else if opcode = CP_DRAW_AUTO then
    (some ·.drawAutoText) <$> retrieveWhole vaAddr .CP_DRAW_AUTO
  else if opcode = CP_EXEC_CS_INDIRECT then
    (some ·.execCsIndirectText) <$> retrieveWhole vaAddr .CP_EXEC_CS_INDIRECT
  else if opcode = CP_EXEC_CS then
    (some ·.execCsText) <$> retrieveWhole vaAddr .CP_EXEC_CS
  else if opcode = CP_BLIT then
    (fun packet => some (packet.blitText header)) <$> retrieve vaAddr (ownBytes header) .CP_BLIT
  else if opcode = CP_EVENT_WRITE7 then do
    let syncType ← getSyncType info vaAddr t opcode
    pure (syncType.bind SyncType.resolveText)
  else if opcode = CP_WAIT_MEM_WRITES then pure (some "CpWaitMemWrites()")
  else if opcode = CP_WAIT_FOR_IDLE then pure (some "CpWaitForIdle()")
  else if opcode = CP_WAIT_FOR_ME then pure (some "CpWaitForMe()")
  else pure none

def shouldIgnoreEventDuringCorrelation : PacketRead Bool :=
  if header.type7Opcode ≠ CP_DRAW_INDX_OFFSET then pure false
  else do
    let packet ← retrieve vaAddr (ownBytes header) .CP_DRAW_INDX_OFFSET
    -- DI_PT_RECTLIST
    pure (packet.field 0 &&& 0x3f = 8)

def getIndexCount : PacketRead UInt32 :=
  if header.type7Opcode = CP_DRAW_INDX then
    (·.field 2) <$> retrieveWhole vaAddr .CP_DRAW_INDX
  else if header.type7Opcode = CP_DRAW_INDX_OFFSET then
    (·.field 2) <$> retrieve vaAddr (ownBytes header) .CP_DRAW_INDX_OFFSET
  else pure 0

/-- `pc_di_primtype` as a topology. -/
def topologyOf (gpuType : UInt32) : Option VkPrimitiveTopology :=
  match gpuType.toNat with
  | 2 => some .LINE_LIST
  | 3 => some .LINE_STRIP
  | 4 => some .TRIANGLE_LIST
  | 5 => some .TRIANGLE_FAN
  | 6 => some .TRIANGLE_STRIP
  | 9 => some .POINT_LIST
  | 0xa => some .LINE_LIST_WITH_ADJACENCY
  | 0xb => some .LINE_STRIP_WITH_ADJACENCY
  | 0xc => some .TRIANGLE_LIST_WITH_ADJACENCY
  | 0xd => some .TRIANGLE_STRIP_WITH_ADJACENCY
  | _ => none

/-- `prim_dword_addr`. -/
def primDwordAddr : UInt64 :=
  if header.type7Opcode = CP_DRAW_INDX then vaAddr + 4 + 4 else vaAddr + 4

def getTopology : PacketRead (Option VkPrimitiveTopology) := do
  let (_, primDword) ← Query.question ⟨primDwordAddr vaAddr header, 4, 4⟩
  pure (topologyOf (primDword.u32 0 &&& 0x3f))

/-- The `CP_SET_MARKER` part of `OnPacket`, of a tracker and of the metadata pass. -/
def onMarker {α : Type} (setMarker : α → UInt32 → α) (a : α) : PacketRead α :=
  if header.type7Opcode = CP_SET_MARKER then do
    let packet ← retrieveWhole vaAddr .CP_SET_MARKER
    pure (setMarker a (packet.field 0))
  else pure a

/-- What an event is taken to be. -/
structure Description where
  type : Option EventType
  text : Option String
  ignored : Bool
  /-- The index count and the topology of a draw. -/
  draw : Option (UInt32 × Option VkPrimitiveTopology)

/-- What a packet is taken to be. -/
structure Interpretation where
  tracker : RegisterTracker
  renderMode : RenderModeType
  event : Option Bool
  description : Option Description

/-- The readers for an event. -/
def describe : PacketRead Description := do
  let type ← getEventType info vaAddr t header.type7Opcode
  let text ← getEventString info vaAddr header t
  let ignored ← shouldIgnoreEventDuringCorrelation vaAddr header
  if type = some .kDraw then
    let indexCount ← getIndexCount vaAddr header
    let topology ← getTopology vaAddr header
    pure ⟨type, text, ignored, some (indexCount, topology)⟩
  else pure ⟨type, text, ignored, none⟩

/-- The readers of a packet: the markers, and for an event what it is. -/
def interpret (renderMode : RenderModeType) : PacketRead Interpretation := do
  let tracker ← onMarker vaAddr header RegisterTracker.setMarker t
  let renderMode ← onMarker vaAddr header (fun _ => RenderModeType.ofMarker) renderMode
  let event ← isEvent info vaAddr t header.type7Opcode
  if event = some true then
    let description ← describe info vaAddr header t
    pure ⟨tracker, renderMode, event, some description⟩
  else pure ⟨tracker, renderMode, event, none⟩

end Readers

/-! ## The functions of `Util` -/

section Functions

variable (info : Pm4Info) (p : CapturedPacket) (t : RegisterTracker) (opcode : UInt32)

/-- How the memory of a packet answers. -/
abbrev answers (p : CapturedPacket) : MemoryRead → Bool × Buffer :=
  p.memManager.answer p.submitIndex

theorem run_getSyncType :
    (getSyncType info p.vaAddr t opcode).run (answers p) = Util.getSyncType info p opcode t := by
  simp only [getSyncType, Query.run_ite, Query.run_bind, Query.run_pure]
  rfl

theorem run_isEvent :
    (isEvent info p.vaAddr t opcode).run (answers p) = Util.isEvent info p opcode t := by
  simp only [isEvent, Query.run_ite, Query.run_bind, Query.run_pure, run_getSyncType]
  rfl

theorem run_getEventType :
    (getEventType info p.vaAddr t opcode).run (answers p) = Util.getEventType info p opcode t := by
  simp only [getEventType, Query.run_ite, Query.run_bind, Query.run_pure, run_getSyncType]
  rfl

theorem run_shouldIgnore :
    (shouldIgnoreEventDuringCorrelation p.vaAddr p.header).run (answers p) =
      Util.shouldIgnoreEventDuringCorrelation p := by
  simp only [shouldIgnoreEventDuringCorrelation, Util.shouldIgnoreEventDuringCorrelation,
    Query.run_ite, Query.run_bind, Query.run_pure]
  by_cases h : p.header.type7Opcode = CP_DRAW_INDX_OFFSET
  · rw [if_neg (not_not_intro h), decide_eq_true h, Bool.true_and]
    rfl
  · rw [if_pos h, decide_eq_false h, Bool.false_and]

theorem run_onMarker {α : Type} (setMarker : α → UInt32 → α) (a : α) :
    (onMarker p.vaAddr p.header setMarker a).run (answers p) =
      if p.header.type7Opcode = CP_SET_MARKER then setMarker a p.markerDword else a := by
  simp only [onMarker, Query.run_ite, Query.run_bind, Query.run_pure]
  rfl

end Functions

end PacketRead

end Dive
