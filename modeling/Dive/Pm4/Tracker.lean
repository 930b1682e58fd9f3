import Dive.Pm4.Brackets

/-!
# The register tracker

* `RegisterTracker`: the enable masks of `EmulateStateTracker` with the registers of each render
  mode, and the render mode.
* `type4Writes`, `bunchWrites`: the `SetReg` calls of a packet, with the dword each value is read
  from.
* `onPacket`: markers and register writes; a register past the array is not there.
* `onEvent`: the calls of the emulator.
* **`setRegs_eq`**: a list of writes leaves the last value in each register.
-/

namespace Dive

def CP_CONTEXT_REG_BUNCH : UInt32 := 0x5c

def CP_SET_MARKER : UInt32 := 0x65

/-- What the packet code reads of the generated register description. -/
structure RegInfo where
  is64Bit : Bool

/-- `GetRegInfo`, a table that the build generates. -/
abbrev RegTable : Type := UInt32 → Option RegInfo

/-- `reg_info_ptr && reg_info_ptr->m_is_64_bit`. -/
def RegTable.is64Bit (table : RegTable) (offset : UInt32) : Bool :=
  (table offset).any RegInfo.is64Bit

inductive ShaderEnableBit
  | kBINNING
  | kGMEM
  | kSYSMEM
  deriving DecidableEq

def ShaderEnableBit.toUInt32 : ShaderEnableBit → UInt32
  | .kBINNING => 0
  | .kGMEM => 1
  | .kSYSMEM => 2

def kNumRegs : ℕ := 0xffff + 1

/-- The whole of the class `EmulateStateTracker`. -/
structure RegisterTracker extends EmulateStateTracker where
  reg : ShaderEnableBit → UInt32 → UInt32 := fun _ _ => 0
  regIsSet : ShaderEnableBit → UInt32 → Bool := fun _ _ => false
  shaderEnableBit : Option ShaderEnableBit := none

/-- One call of `SetReg`: the register, its value, and the dword of the payload that the value is
read from. -/
structure RegWrite where
  offset : UInt32
  dword : ℕ
  value : UInt32
  deriving DecidableEq

/-! ## Reading a packet -/

/-- A packet in captured memory. -/
structure CapturedPacket where
  memManager : IMemoryManager
  submitIndex : UInt32
  vaAddr : UInt64
  header : Pm4Header

/-- The packet that the emulator passes to `OnPacket`. -/
def Emulation.capturedPacket (E : Emulation) (va : UInt64) (header : Pm4Header) : CapturedPacket :=
  ⟨E.memManager, E.submitIndex, va, header⟩

namespace CapturedPacket

variable (p : CapturedPacket)

/-- `va_addr + sizeof(header) + dword * sizeof(uint32_t)`. -/
def dwordAddr (dword : ℕ) : UInt64 := p.vaAddr + 4 + UInt64.ofNat dword * 4

/-- A dword of the payload. -/
def payloadDword (dword : ℕ) : UInt32 :=
  (p.memManager.retrieveMemoryData Buffer.zero p.submitIndex (p.dwordAddr dword) 4).2.u32 0

/-- A `RegPair` of the payload: the dword and the one after it. -/
def regPair (dword : ℕ) : UInt32 × UInt32 :=
  let buffer :=
    (p.memManager.retrieveMemoryData Buffer.zero p.submitIndex (p.dwordAddr dword) 8).2
  (buffer.u32 0, buffer.u32 4)

/-- `PM4_CP_SET_MARKER::u32All0`. -/
def markerDword : UInt32 :=
  (p.memManager.retrieveMemoryData Buffer.zero p.submitIndex p.vaAddr 8).2.u32 4

/-- The loop over a type 4 packet, from `dword` on. -/
def type4Writes (table : RegTable) (dword : ℕ) : List RegWrite :=
  if dword < p.header.type4Count.toNat then
    let offset := p.header.type4Offset + UInt32.ofNat dword
    let sizeInDwords := if table.is64Bit offset then 2 else 1
    ((List.range sizeInDwords).map fun i =>
      ⟨offset + UInt32.ofNat i, dword + i, p.payloadDword (dword + i)⟩) ++
      type4Writes table (dword + sizeInDwords)
  else []
termination_by p.header.type4Count.toNat - dword
decreasing_by
  split <;> omega

/-- The loop over a `CP_CONTEXT_REG_BUNCH` packet, from `dword` on. The value of a pair is the
second of its dwords. -/
def bunchWrites (table : RegTable) (dword : ℕ) : List RegWrite :=
  if dword < p.header.type7Count.toNat then
    let pair := p.regPair dword
    let next := p.regPair (dword + 2)
    if table.is64Bit pair.1 && next.1 = pair.1 + 1 then
      ⟨pair.1, dword + 1, pair.2⟩ :: ⟨next.1, dword + 3, next.2⟩ :: bunchWrites table (dword + 4)
    else ⟨pair.1, dword + 1, pair.2⟩ :: bunchWrites table (dword + 2)
  else []
termination_by p.header.type7Count.toNat - dword

/-- The register writes of a packet. -/
def regWrites (table : RegTable) : List RegWrite :=
  if p.header.isOpcode CP_CONTEXT_REG_BUNCH then p.bunchWrites table 0
  else if p.header.type = 4 then p.type4Writes table 0
  else []

end CapturedPacket

/-! ## The tracker -/

namespace RegisterTracker

/-- `m_enable_mask & (1u << i)`. -/
def enables (t : RegisterTracker) (plane : ShaderEnableBit) : Bool :=
  t.enableMask &&& (1 <<< plane.toUInt32) != 0

/-- `SetReg`; past the end of the arrays there is no register. Under an enable mask of 0 the source
looks at none. -/
def setReg (t : RegisterTracker) (offset value : UInt32) : Option RegisterTracker :=
  if offset.toNat < kNumRegs then
    some { t with
      reg := fun plane r => if t.enables plane && r = offset then value else t.reg plane r
      regIsSet := fun plane r => (t.enables plane && r = offset) || t.regIsSet plane r }
  else none

/-- `Reset`, which keeps the enable masks. -/
def reset (t : RegisterTracker) : RegisterTracker :=
  { t with reg := fun _ _ => 0, regIsSet := fun _ _ => false, shaderEnableBit := none }

/-- The `CP_SET_MARKER` part of `OnPacket`. -/
def setMarker (t : RegisterTracker) (u32All0 : UInt32) : RegisterTracker :=
  match (u32All0 &&& 0xf).toNat with
  -- RM6_DIRECT_RENDER
  | 1 => { t with shaderEnableBit := some .kSYSMEM }
  -- RM6_BIN_VISIBILITY, RM6_BIN_DIRECT
  | 2 | 3 => { t with shaderEnableBit := some .kBINNING }
  -- RM6_BIN_RENDER_START
  | 4 => { t with shaderEnableBit := some .kGMEM }
  -- RM6_BIN_END_OF_DRAWS
  | 5 => { t with shaderEnableBit := none }
  -- RM6_BIN_RESOLVE
  | 6 => { t with shaderEnableBit := some .kGMEM }
  -- RM6_BIN_RENDER_END
  | 7 => { t with shaderEnableBit := none }
  | _ => t

theorem setMarker_eq (t : RegisterTracker) (u32All0 : UInt32) :
    t.setMarker u32All0 = { t with shaderEnableBit := (t.setMarker u32All0).shaderEnableBit } := by
  unfold setMarker
  split <;> rfl

/-- `OnPacket`, which always returns true. -/
def onPacket (t : RegisterTracker) (table : RegTable) (p : CapturedPacket) :
    Option RegisterTracker :=
  let t := if p.header.isOpcode CP_SET_MARKER then t.setMarker p.markerDword else t
  (p.regWrites table).foldlM (fun t w => t.setReg w.offset w.value) t

/-- `OnIbStart` of `EmulateCallbacksBase`. -/
def onIbStart (t : RegisterTracker) (info : IndirectBufferInfo) : RegisterTracker :=
  { t with toEmulateStateTracker := t.pushEnableMask info.enableMask }

/-- `OnIbEnd` of `EmulateCallbacksBase`. -/
def onIbEnd (t : RegisterTracker) : Option RegisterTracker :=
  t.popEnableMask.map fun masks => { t with toEmulateStateTracker := masks }

/-- The calls of the emulator; the replies of `EmulateCallbacksBase` are always true. -/
def onEvent (E : Emulation) (table : RegTable) (t : RegisterTracker) :
    Event → Option RegisterTracker
  | .ibStart _ _ info _ => some (t.onIbStart info)
  | .ibEnd _ _ => t.onIbEnd
  | .packet _ va hd => t.onPacket table (E.capturedPacket va hd)

end RegisterTracker

/-! ## Lists of writes -/

/-- The value that register/value pairs leave in a register: the last one wins. -/
def lastValue (pairs : List (UInt32 × UInt32)) (r : UInt32) : Option UInt32 :=
  (pairs.reverse.find? fun pair => pair.1 = r).map Prod.snd

@[simp] theorem lastValue_nil (r : UInt32) : lastValue [] r = none := rfl

theorem lastValue_cons (pair : UInt32 × UInt32) (pairs : List (UInt32 × UInt32)) (r : UInt32) :
    lastValue (pair :: pairs) r =
      (lastValue pairs r).or (if pair.1 = r then some pair.2 else none) := by
  rw [lastValue, List.reverse_cons, List.find?_append, Option.map_or, lastValue]
  by_cases h : pair.1 = r <;> simp [h]

theorem lastValue_concat (pairs : List (UInt32 × UInt32)) (pair : UInt32 × UInt32) (r : UInt32) :
    lastValue (pairs ++ [pair]) r = if pair.1 = r then some pair.2 else lastValue pairs r := by
  rw [lastValue, List.reverse_append, List.reverse_singleton, List.singleton_append, lastValue]
  by_cases h : pair.1 = r <;> simp [h]

def RegWrite.pair (w : RegWrite) : UInt32 × UInt32 := (w.offset, w.value)

namespace RegisterTracker

/-- The tracker after register/value pairs. -/
def store (t : RegisterTracker) (pairs : List (UInt32 × UInt32)) : RegisterTracker :=
  { t with
    reg := fun plane r =>
      if t.enables plane then (lastValue pairs r).getD (t.reg plane r) else t.reg plane r
    regIsSet := fun plane r =>
      (t.enables plane && (lastValue pairs r).isSome) || t.regIsSet plane r }

theorem store_nil (t : RegisterTracker) : t.store [] = t := by
  simp [store, lastValue_nil]

theorem store_cons (t : RegisterTracker) (pair : UInt32 × UInt32)
    (pairs : List (UInt32 × UInt32)) : t.store (pair :: pairs) = (t.store [pair]).store pairs := by
  have hlast : ∀ r, lastValue (pair :: pairs) r =
      (lastValue pairs r).or (lastValue [pair] r) := fun r => by
    rw [lastValue_cons, lastValue_cons, lastValue_nil, Option.none_or]
  have hreg : (t.store (pair :: pairs)).reg = ((t.store [pair]).store pairs).reg := by
    funext plane r
    show (if t.enables plane then _ else _) = if t.enables plane then
      (lastValue pairs r).getD (if t.enables plane then _ else _)
        else if t.enables plane then _ else _
    cases t.enables plane <;> cases h : lastValue pairs r <;> simp [hlast, h]
  have hset : (t.store (pair :: pairs)).regIsSet = ((t.store [pair]).store pairs).regIsSet := by
    funext plane r
    show (t.enables plane && _ || _) = (t.enables plane && _ || (t.enables plane && _ || _))
    cases t.enables plane <;> cases h : lastValue pairs r <;> simp [hlast, h]
  exact congrArg₂ (fun reg regIsSet => { t with reg := reg, regIsSet := regIsSet }) hreg hset

theorem setReg_eq (t : RegisterTracker) (offset value : UInt32) :
    t.setReg offset value =
      if offset.toNat < kNumRegs then some (t.store [(offset, value)]) else none := by
  have hlast : ∀ r, lastValue [(offset, value)] r = if r = offset then some value else none :=
    fun r => by simp [lastValue_cons, eq_comm]
  unfold setReg store
  simp only [hlast]
  congr 3
  · funext plane r
    by_cases h : r = offset <;> simp [h]
  · funext plane r
    by_cases h : r = offset <;> simp [h]

/-- **A list of writes**, as long as the registers are there. -/
theorem setRegs_eq (ws : List RegWrite) (t : RegisterTracker) :
    ws.foldlM (fun t w => t.setReg w.offset w.value) t =
      if ∀ w ∈ ws, w.offset.toNat < kNumRegs then some (t.store (ws.map RegWrite.pair))
      else none := by
  induction ws generalizing t with
  | nil => simp [store_nil]
  | cons w ws ih =>
    rw [List.foldlM_cons, setReg_eq]
    by_cases hw : w.offset.toNat < kNumRegs
    · have hws : (∀ x ∈ w :: ws, x.offset.toNat < kNumRegs) ↔
          ∀ x ∈ ws, x.offset.toNat < kNumRegs := by simp [hw]
      rw [if_pos hw, Option.bind_eq_bind, Option.bind_some, ih, ← store_cons]
      simp only [hws]
      rfl
    · simp [hw]

end RegisterTracker

end Dive
