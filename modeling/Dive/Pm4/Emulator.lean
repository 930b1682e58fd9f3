import Dive.Lib.Machine
import Dive.Pm4.Packet

/-!
# The PM4 emulator

* `IbStack`, `EmulateState`: one IB level, and all of them.
* `Event`, `Callbacks`: the calls the emulator makes, and the replies to them.
* `queueIB`, `advanceToQueuedIB`, `advanceOutOfIB`, `advanceCb`: as in the source.
* `step`: one iteration of one of the three loops of `ExecuteSubmit`: its own, that of
  `CheckAndAdvanceIB`, and the look-ahead of `CP_START_BIN`.

The build is a release one: `DIVE_ASSERT` does nothing and `DIVE_VERIFY` ignores the result.
-/

namespace Dive

/-- `UINT64_MAX`, the address at which the primary ring is parked. -/
def parked : UInt64 := 0xFFFFFFFFFFFFFFFF

def kMaxPendingIbs : ℕ := 600

/-- The primary ring and four levels of indirect buffers. -/
def kTotalIbLevels : ℕ := 5

/-- The `m_cur_ib_*` fields of a level. -/
structure CurIb where
  addr : UInt64
  sizeInDwords : UInt32
  skip : Bool
  enableMask : UInt32
  ibType : IbType
  deriving DecidableEq

/-- `m_size_in_dwords * sizeof(uint32_t)`. -/
def CurIb.bytes (ib : CurIb) : UInt64 := ib.sizeInDwords.toUInt64 * 4

/-- The address after the IB. -/
def CurIb.endAddr (ib : CurIb) : UInt64 := ib.addr + ib.bytes

/-- One IB level. The queue holds `m_ib_queue_size` entries; those before the index have run. -/
structure IbStack where
  curVa : UInt64
  curIb : CurIb
  ibQueue : List QueuedIb := []
  ibQueueIndex : ℕ := 0
  deriving DecidableEq

namespace IbStack

/-- `EndOfCurIb`. -/
def endOfCurIb (l : IbStack) : Bool := l.curIb.skip || l.curIb.endAddr ≤ l.curVa

/-- `m_ib_queue_index = m_ib_queue_size = 0`. -/
def resetQueue (l : IbStack) : IbStack := { l with ibQueue := [], ibQueueIndex := 0 }

/-- The entries that have not run. -/
def pending (l : IbStack) : List QueuedIb := l.ibQueue.drop l.ibQueueIndex

end IbStack

/-- `IndirectBufferInfo`. -/
structure IndirectBufferInfo where
  vaAddr : UInt64
  sizeInDwords : UInt32
  ibLevel : ℕ := 0
  enableMask : UInt32 := 0
  skip : Bool := false
  deriving DecidableEq

/-- The calls of the emulator. The queue entry in `ibStart` is not passed to the callback: it is
the one that the start takes from the queue. -/
inductive Event
  | ibStart (queued : QueuedIb) (ibIndex : ℕ) (info : IndirectBufferInfo) (ibType : IbType)
  | ibEnd (ibIndex : ℕ) (info : IndirectBufferInfo)
  | packet (ibIndex : ℕ) (vaAddr : UInt64) (header : Pm4Header)
  deriving DecidableEq

/-- The reply to a call, after the calls before it. -/
abbrev Callbacks : Type := List Event → Event → Bool

/-- Why `ExecuteSubmit` returns false; `levelOutOfRange` is an access past the IB stack. -/
inductive Failure
  | invalidHeader
  | queueFull
  | chainNotAtEnd
  | callbackRefused
  | levelOutOfRange
  deriving DecidableEq

/-- What `ExecuteSubmit` returns. -/
inductive Outcome
  | success
  | failure (f : Failure)
  deriving DecidableEq

/-- `EmulateState`: the levels below the top of the stack are the callers, innermost first. -/
structure EmulateState where
  ibIndex : ℕ
  cur : IbStack
  callers : List IbStack
  deriving DecidableEq

/-- `m_top_of_stack`. -/
def EmulateState.topOfStack (s : EmulateState) : ℕ := s.callers.length

/-- Which loop runs next. -/
inductive Phase
  | start (ibs : List IndirectBufferInfo)
  | check
  | fetch
  | lookAhead (header : Pm4Header) (packet : Pm4Packet) (tempVa : UInt64)

/-- The emulation under way, with the calls made so far. -/
structure Config where
  state : EmulateState
  trace : List Event
  phase : Phase

/-- The arguments of `ExecuteSubmit` but the IBs. -/
structure Emulation where
  memManager : IMemoryManager
  submitIndex : UInt32
  callbacks : Callbacks

/-! ## Queueing -/

/-- `QueueIB`. -/
def IbStack.queueIB (l : IbStack) (q : QueuedIb) : Except Outcome IbStack :=
  if q.sizeInDwords = 0 then .ok l
  else if kMaxPendingIbs ≤ l.ibQueue.length then .error (.failure .queueFull)
  else .ok { l with ibQueue := l.ibQueue ++ [q] }

/-- One `QueueIB` after the other. -/
def IbStack.queueIBs (l : IbStack) : List QueuedIb → Except Outcome IbStack
  | [] => .ok l
  | q :: qs => (l.queueIB q).bind fun l => l.queueIBs qs

/-- The entry for an IB of the submit. -/
def IndirectBufferInfo.queued (info : IndirectBufferInfo) : QueuedIb where
  ibType := .kNormal
  addr := info.vaAddr
  sizeInDwords := info.sizeInDwords
  skip := info.skip

namespace Emulation

variable (E : Emulation)

/-- A call, with the reply that lets the emulation go on. -/
def emit (e : Event) (c : Config) : Except Outcome Config :=
  if E.callbacks c.trace e then .ok { c with trace := c.trace ++ [e] }
  else .error (.failure .callbackRefused)

/-! ## Moving between levels -/

/-- A level's fields for the queued IB; an IB that is not captured is skipped. -/
def enteredIb (q : QueuedIb) (ibType : IbType) : CurIb where
  addr := q.addr
  sizeInDwords := q.sizeInDwords
  skip := q.skip || !E.memManager.isValid E.submitIndex q.addr (q.sizeInDwords.toUInt64 * 4)
  enableMask := q.enableMask
  ibType := ibType

/-- The `OnIbStart` call for the current level. -/
def startEvent (q : QueuedIb) (s : EmulateState) : Event :=
  .ibStart q s.ibIndex
    { vaAddr := s.cur.curVa, sizeInDwords := s.cur.curIb.sizeInDwords, ibLevel := s.topOfStack,
      enableMask := s.cur.curIb.enableMask, skip := s.cur.curIb.skip } s.cur.curIb.ibType

/-- The CALL branch of `AdvanceToQueuedIB`. -/
def callIb (q : QueuedIb) (s : EmulateState) : EmulateState where
  -- only the primary ring queues normal IBs
  ibIndex := if q.ibType = .kNormal then s.cur.ibQueueIndex else s.ibIndex
  cur := { curVa := q.addr, curIb := E.enteredIb q q.ibType }
  callers := { s.cur with ibQueueIndex := s.cur.ibQueueIndex + 1 } :: s.callers

/-- The CHAIN branch of `AdvanceToQueuedIB`, which takes entry 0 and leaves the IB type. -/
def chainIb (q : QueuedIb) (s : EmulateState) : EmulateState :=
  { s with cur := { s.cur with
      curVa := q.addr
      curIb := E.enteredIb q s.cur.curIb.ibType
      ibQueueIndex := s.cur.ibQueueIndex + 1 } }

/-- `AdvanceToQueuedIB`. -/
def advanceToQueuedIB (c : Config) : Except Outcome Config :=
  match c.state.cur.pending with
  | [] => .ok c
  | q :: _ =>
    if q.ibType ≠ .kChain then
      -- only an assertion guards the level
      if kTotalIbLevels ≤ c.state.topOfStack + 1 then .error (.failure .levelOutOfRange)
      else
        let s := E.callIb q c.state
        E.emit (startEvent q s) { c with state := s }
    else if c.state.cur.curVa ≠ c.state.cur.curIb.endAddr then .error (.failure .chainNotAtEnd)
    else
      let q := c.state.cur.ibQueue.headD q
      let s := E.chainIb q c.state
      E.emit (startEvent q s) { c with state := s }

/-- The `OnIbEnd` call for the IB, back at `level`. -/
def endEvent (ibIndex : ℕ) (ib : CurIb) (level : ℕ) : Event :=
  .ibEnd ibIndex
    { vaAddr := ib.addr, sizeInDwords := ib.sizeInDwords, ibLevel := level, skip := ib.skip }

/-- `AdvanceOutOfIB`. -/
def advanceOutOfIB (c : Config) : Except Outcome Config :=
  match c.state.callers with
  | [] => .error (.failure .levelOutOfRange)
  | l :: ls =>
    E.emit (endEvent c.state.ibIndex c.state.cur.curIb ls.length)
      { c with state := { c.state with cur := l, callers := ls } }

/-! ## Packets -/

/-- The header at an address; all zero if the memory is not captured. -/
def headerAt (va : UInt64) : Pm4Header :=
  ⟨(E.memManager.retrieveMemoryData Buffer.zero E.submitIndex va 4).2.u32 0⟩

/-- The packet at an address, of which `size` bytes are read. -/
def packetAt (va size : UInt64) : Pm4Packet :=
  (E.memManager.retrieveMemoryData Buffer.zero E.submitIndex va size).2

/-- Queue the IBs on `l`, which replaces the current level, go on from `va` on it, and start the
first queued IB. -/
def queueAndAdvance (l : IbStack) (qs : List QueuedIb) (va : UInt64) (c : Config) :
    Except Outcome Config :=
  (l.queueIBs qs).bind fun l =>
    E.advanceToQueuedIB { c with state := { c.state with cur := { l with curVa := va } },
                                 phase := .check }

/-- `AdvancePacket`, with nothing queued. -/
def advancePacket (l : IbStack) (va : UInt64) (c : Config) : Config :=
  { c with state := { c.state with cur := { l with curVa := va } }, phase := .check }

/-- `AdvanceCb`, up to the look-ahead of `CP_START_BIN`. -/
def advanceCb (h : Pm4Header) (c : Config) : Except Outcome Config :=
  let l := c.state.cur
  let next := l.curVa + packetBytes h
  if h.isOpcode CP_INDIRECT_BUFFER_PFE || h.isOpcode CP_INDIRECT_BUFFER_PFD ||
      h.isOpcode CP_INDIRECT_BUFFER_CHAIN then
    let packet := E.packetAt l.curVa 16
    let ibType := if h.isOpcode CP_INDIRECT_BUFFER_CHAIN then .kChain else .kCall
    E.queueAndAdvance l.resetQueue [packet.indirectBuffer ibType] next c
  else if h.isOpcode CP_SET_AMBLE then
    let packet := E.packetAt l.curVa ((h.type7Count + 1).toUInt64 * 4)
    -- the packet serves other purposes too
    if packet.amble.sizeInDwords ≠ 0 then E.queueAndAdvance l.resetQueue [packet.amble] next c
    else .ok (advancePacket l next c)
  else if h.isOpcode CP_SET_DRAW_STATE then
    let packet := E.packetAt l.curVa ((h.type7Count + 1).toUInt64 * 4)
    if packet.drawStates ≠ [] then E.queueAndAdvance l.resetQueue packet.drawStates next c
    else .ok (advancePacket l.resetQueue next c)
  else if h.isOpcode CP_START_BIN then
    .ok { c with phase := .lookAhead h (E.packetAt l.curVa 24) l.curVa }
  else if h.isOpcode CP_FIXED_STRIDE_DRAW_TABLE then
    let packet := E.packetAt l.curVa 20
    E.queueAndAdvance l packet.fixedStrideDraws next c
  else .ok (advancePacket l next c)

/-- The address after the header `h` of a `CP_START_BIN` at `va`. -/
def commonBlockVa (h : Pm4Header) (va : UInt64) : UInt64 := va + packetBytes h

/-- The size of the common block that a `CP_END_BIN` at `endVa` closes. -/
def commonBlockDwordSize (h : Pm4Header) (va endVa : UInt64) : UInt32 :=
  ((endVa - commonBlockVa h va) / 4).toUInt32

/-- One iteration of the look-ahead of `CP_START_BIN`, and what follows it. -/
def lookAhead (h : Pm4Header) (packet : Pm4Packet) (tempVa : UInt64) (c : Config) :
    Except Outcome Config :=
  let tempHeader := E.headerAt tempVa
  if tempHeader.isOpcode CP_END_BIN then
    let va := commonBlockVa h c.state.cur.curVa
    let size := commonBlockDwordSize h c.state.cur.curVa tempVa
    -- the queue is not reset
    E.queueAndAdvance c.state.cur (packet.bins va size) (va + size.toUInt64 * 4) c
  else .ok { c with phase := .lookAhead h packet (tempVa + packetBytes tempHeader) }

/-- The body of the loop of `ExecuteSubmit`. -/
def executePacket (c : Config) : Except Outcome Config :=
  let h := E.headerAt c.state.cur.curVa
  if h.isValid then
    (E.emit (.packet c.state.ibIndex c.state.cur.curVa h) c).bind (E.advanceCb h)
  else .error (.failure .invalidHeader)

/-! ## The loops -/

/-- The primary ring before anything is queued. -/
def primaryRing : IbStack where
  curVa := parked
  curIb := ⟨0, 0, false, 0, .kNormal⟩

/-- `ExecuteSubmit` before its first iteration. -/
def initial (ibs : List IndirectBufferInfo) : Config where
  state := ⟨0, primaryRing, []⟩
  trace := []
  phase := .start ibs

/-- One iteration. -/
def step (c : Config) : Except Outcome Config :=
  match c.phase with
  | .start ibs =>
    E.queueAndAdvance c.state.cur (ibs.map (·.queued)) c.state.cur.curVa c
  | .check =>
    if c.state.cur.curVa ≠ parked ∧ c.state.cur.endOfCurIb = true then
      (E.advanceOutOfIB c).bind E.advanceToQueuedIB
    else .ok { c with phase := .fetch }
  | .fetch => if c.state.topOfStack = 0 then .error .success else E.executePacket c
  | .lookAhead h packet tempVa => E.lookAhead h packet tempVa c

/-- The configurations that `ExecuteSubmit` passes. -/
def Reachable (ibs : List IndirectBufferInfo) (c : Config) : Prop :=
  Machine.Reaches E.step (initial ibs) c

/-- The emulation of submit 0 over captured memory, with callbacks that accept every call. -/
def accepting (memoryBlocks : List MemoryBlock) : Emulation where
  memManager := MemoryManager.toInterface { memoryBlocks := memoryBlocks }
  submitIndex := 0
  callbacks := fun _ _ => true

/-- `ExecuteSubmit` returns true after the calls of the trace. -/
def Succeeds (ibs : List IndirectBufferInfo) (trace : List Event) : Prop :=
  ∃ c, E.Reachable ibs c ∧ E.step c = .error .success ∧ c.trace = trace

end Emulation

end Dive
