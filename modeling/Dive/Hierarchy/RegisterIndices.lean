import Dive.Hierarchy.StateReads

/-!
# Register numbers in their bounds

* `visited`: the dwords at which a loop with a variable step stands; `described`: the registers
  that the loops over a packet look up.
* `Pm4Tables`: the generated tables; `getRegOffsetByName`; `Generated`: what the register
  descriptions say of them.
* `trackerAccesses`, `hierarchyAccesses`: the register numbers that the tracker and the hierarchy
  pass use, besides `metadataAccesses`.
* `InTable`: the registers that a packet names are inside the description table.
* **`indicesInBounds_iff`**: at any point of a submit, all register numbers are in bounds exactly
  when packets name registers inside the table, and read no register by name without a GPU variant.
* **`highRegister_not_inBounds`**: a type 4 packet with a register past the arrays.
-/

namespace Dive

open Pm4CaptureData (GPUVariantType)

/-- The size of `g_sRegInfo`: one entry for each offset up to the highest register. -/
def kRegInfoSize : ℕ := 0xfc01

/-- The register number is one of the array, or of the table. -/
def RegAccess.InBounds : RegAccess → Prop
  | .setReg offset => offset.toNat < kNumRegs
  | .getRegInfo offset => offset.toNat < kRegInfoSize
  | .isRegSet offset => offset.toNat < kNumRegs
  | .getRegValue offset => offset.toNat < kNumRegs
  | .isRegSetIn _ offset => offset.toNat < kNumRegs
  | .getRegValueIn _ offset => offset.toNat < kNumRegs

/-! ## The loops over a packet -/

/-- The values of `dword` in `while (dword < count) { ...; dword += step; }`, for positive steps. -/
def visited (step : ℕ → ℕ) (count dword : ℕ) : List ℕ :=
  if dword < count ∧ 0 < step dword then
    dword :: visited step count (dword + step dword)
  else []
termination_by count - dword

namespace CapturedPacket

variable (p : CapturedPacket) (table : RegTable)

/-- The register at a dword of the loop over a type 4 packet. -/
def type4Reg (dword : ℕ) : UInt32 := p.header.type4Offset + UInt32.ofNat dword

/-- What the loop over a type 4 packet adds to `dword`. -/
def type4Step (dword : ℕ) : ℕ := if table.is64Bit (p.type4Reg dword) then 2 else 1

/-- The register at a dword of the loop over a `CP_CONTEXT_REG_BUNCH` packet. -/
def bunchReg (dword : ℕ) : UInt32 := (p.regPair dword).1

/-- What the loop over a `CP_CONTEXT_REG_BUNCH` packet adds to `dword`. -/
def bunchStep (dword : ℕ) : ℕ :=
  if table.is64Bit (p.bunchReg dword) && p.bunchReg (dword + 2) = p.bunchReg dword + 1 then 4
  else 2

/-- The registers that the loops over a packet look up with `GetRegInfo`: those of
`EmulateStateTracker::OnPacket`, and those of `AppendRegNodes`. -/
def described : List UInt32 :=
  if p.header.isOpcode CP_CONTEXT_REG_BUNCH then
    (visited (p.bunchStep table) p.header.type7Count.toNat 0).map p.bunchReg
  else if p.header.type = 4 then
    (visited (p.type4Step table) p.header.type4Count.toNat 0).map p.type4Reg
  else []

/-- `EmulateStateTracker::OnPacket`, the lookups first. -/
def trackerAccesses : List RegAccess :=
  (p.described table).map .getRegInfo ++ (p.regWrites table).map fun w => .setReg w.offset

end CapturedPacket

/-! ## The generated tables -/

/-- `kInvalidRegOffset`. -/
def kInvalidRegOffset : UInt32 := 0xffffffff

/-- `GetGPUStr`. -/
def getGPUStr : GPUVariantType → String
  | .kA2XX => "A2XX"
  | .kA3XX => "A3XX"
  | .kA4XX => "A4XX"
  | .kA5XX => "A5XX"
  | .kA6XX => "A6XX"
  | .kA7XX => "A7XX"
  | .kA8XX => "A8XX"
  -- only an assertion
  | .kGPUVariantNone => ""

/-- What the build generates from the register descriptions: `GetRegInfo` for each variant, and
`g_sRegNameToIndex`. -/
structure Pm4Tables where
  regInfo : GPUVariantType → RegTable
  regNameToIndex : String → Option UInt32

namespace Pm4Tables

variable (T : Pm4Tables) (variant : GPUVariantType)

def getRegOffsetByName (name : String) : UInt32 :=
  if variant = .kGPUVariantNone then kInvalidRegOffset
  else ((T.regNameToIndex name).or
    (T.regNameToIndex (name ++ "_" ++ getGPUStr variant))).getD kInvalidRegOffset

/-- The tables under a variant. -/
def info : Pm4Info := ⟨T.regInfo variant, T.getRegOffsetByName variant⟩

end Pm4Tables

/-- The registers that are looked up by name, with their offsets in `a6xx.xml`. Some depend on the
variant; the index has one of them under the plain name. -/
def registerOffsets : List (String × List UInt32) := [
  ("PC_CNTL", [0x9b00, 0x9b01]),
  ("PC_HS_PARAM_1", [0x9801, 0x9b11]),
  ("GRAS_CL_VIEWPORT0_XOFFSET", [0x8010, 0x82d0]),
  ("GRAS_SC_VIEWPORT_SCISSOR0_TL", [0x80d0, 0x8270]),
  ("GRAS_CL_CNTL", [0x8000, 0x8200]),
  ("VPC_RAST_STREAM_CNTL", [0x9980, 0x9107, 0x930d]),
  ("PC_DGEN_RAST_CNTL", [0x9981, 0x9809, 0x9812]),
  ("GRAS_SU_CNTL", [0x8090, 0x8209]),
  ("GRAS_SU_POLY_OFFSET_OFFSET", [0x8096, 0x808b]),
  ("GRAS_SU_POLY_OFFSET_OFFSET_CLAMP", [0x8097, 0x808c]),
  ("GRAS_SU_POLY_OFFSET_SCALE", [0x8095, 0x808a]),
  ("GRAS_SC_RAS_MSAA_CNTL", [0x80a2, 0x8232]),
  ("RB_BLEND_CNTL", [0x8865]),
  ("RB_DEPTH_CNTL", [0x8871]),
  ("RB_DEPTH_BOUND_MIN", [0x8878]),
  ("RB_DEPTH_BOUND_MAX", [0x8879]),
  ("RB_STENCIL_CNTL", [0x8880]),
  ("RB_STENCIL_REF_CNTL", [0x8887]),
  ("RB_STENCIL_MASK", [0x8888]),
  ("RB_STENCIL_WRITE_MASK", [0x8889]),
  ("RB_MRT0_CONTROL", [0x8820]),
  ("RB_BLEND_CONSTANT_RED_FP32", [0x8860]),
  ("RB_BLEND_CONSTANT_GREEN_FP32", [0x8861]),
  ("RB_BLEND_CONSTANT_BLUE_FP32", [0x8862]),
  ("RB_BLEND_CONSTANT_ALPHA_FP32", [0x8863]),
  ("GRAS_LRZ_CNTL", [0x8100, 0x8212]),
  ("GRAS_SU_DEPTH_PLANE_CNTL", [0x8094, 0x8089]),
  ("GRAS_SC_BIN_CNTL", [0x80a1, 0x8231]),
  ("GRAS_SC_WINDOW_SCISSOR_TL", [0x80f0, 0x8235]),
  ("GRAS_SC_WINDOW_SCISSOR_BR", [0x80f1, 0x8236]),
  ("SP_PS_CNTL_0", [0xa980]),
  ("RB_MRT0_BUF_INFO", [0x8822]),
  ("RB_DEPTH_BUFFER_INFO", [0x8872]),
  ("RB_RESOLVE_GMEM_BUFFER_BASE", [0x88d6]),
  ("RB_RESOLVE_CNTL_1", [0x88d1]),
  ("RB_RESOLVE_CNTL_2", [0x88d2]),
  ("RB_RESOLVE_SYSTEM_BUFFER_BASE", [0x88d8]),
  ("RB_RESOLVE_OPERATION", [0x88e3]),
  ("HLSQ_CS_BINDLESS_BASE0_DESCRIPTOR", [0xb9c0]),
  ("HLSQ_BINDLESS_BASE0_DESCRIPTOR", [0xbb20])]

def registerNames : List String := registerOffsets.map Prod.fst

/-- The tables are those of `a6xx.xml`: it has the registers by their names, and no register at
`0xfbff`. -/
structure Pm4Tables.Generated (T : Pm4Tables) : Prop where
  index : ∀ entry ∈ registerOffsets, ∃ offset ∈ entry.2, T.regNameToIndex entry.1 = some offset
  gap : ∀ variant, T.regInfo variant 0xfbff = none

/-! ## The hierarchy pass -/

def CP_LOAD_STATE6_GEOM : UInt32 := 0x32
def CP_LOAD_STATE6_FRAG : UInt32 := 0x34
def CP_LOAD_STATE6 : UInt32 := 0x36
def CP_MEM_TO_REG : UInt32 := 0x42

def isLoadStateOpcode (opcode : UInt32) : Bool :=
  opcode = CP_LOAD_STATE6 || opcode = CP_LOAD_STATE6_GEOM || opcode = CP_LOAD_STATE6_FRAG

namespace CapturedPacket

variable (info : Pm4Info) (variant : GPUVariantType) (t : RegisterTracker) (p : CapturedPacket)

/-- The dword at `byte` of `PM4_CP_LOAD_STATE6`, or of `PM4_CP_MEM_TO_REG`. -/
def field16 (byte : ℕ) : UInt32 :=
  (p.memManager.retrieveMemoryData Buffer.zero p.submitIndex p.vaAddr 16).2.u32 byte

/-- `STATE_SRC` is `SS6_BINDLESS`. -/
def isBindless : Bool := ((p.field16 4 >>> 16) &&& 3) = 1

/-- `STATE_BLOCK` is `SB6_CS_TEX`, `SB6_CS_SHADER` or `SB6_CS_UAV`. -/
def isCompute : Bool := ([5, 0xd, 0xf] : List UInt32).contains ((p.field16 4 >>> 18) &&& 0xf)

/-- `base_reg`. -/
def bindlessBase : UInt32 :=
  if p.isCompute then info.regOffsetByName "HLSQ_CS_BINDLESS_BASE0_DESCRIPTOR"
  else info.regOffsetByName "HLSQ_BINDLESS_BASE0_DESCRIPTOR"

/-- `packet.u32All1 >> 28`. -/
def bindlessIndex : UInt32 := p.field16 8 >>> 28

/-- `AppendLoadStateExtBufferNode`. -/
def loadStateAccesses : List RegAccess :=
  if p.isBindless then
    RegisterTracker.getReg64ValueAccesses (p.bindlessBase info + p.bindlessIndex * 2)
  else []

/-- `REG` of `PM4_CP_MEM_TO_REG`. -/
def memToRegField : UInt32 := p.field16 4 &&& 0x3ffff

/-- `CommandHierarchyCreator::OnPacket`. -/
def hierarchyAccesses : List RegAccess :=
  (p.described info.regInfo).map .getRegInfo ++
    if p.header.type = 7 then
      p.isEventAccesses info t ++
        if Util.isEvent info p p.header.type7Opcode t = some true then
          p.getEventStringAccesses info t ++ p.getEventTypeAccesses info t
        else if isLoadStateOpcode p.header.type7Opcode then p.loadStateAccesses info
        else if p.header.type7Opcode = CP_MEM_TO_REG then [.getRegInfo p.memToRegField]
        else []
    else []

/-- The packet makes a pass read registers of a name that has no offset without a variant. -/
def readsNames : Bool :=
  p.readsState || (p.header.type = 7 && isLoadStateOpcode p.header.type7Opcode && p.isBindless &&
    p.bindlessIndex = 0)

/-! ## The registers that a packet names -/

/-- The dwords from one register of the packet to the next. -/
def regUnit : ℕ := if p.header.isOpcode CP_CONTEXT_REG_BUNCH then 2 else 1

/-- The dwords with registers. -/
def regCount : ℕ :=
  if p.header.isOpcode CP_CONTEXT_REG_BUNCH then p.header.type7Count.toNat
  else if p.header.type = 4 then p.header.type4Count.toNat
  else 0

/-- The register at a dword. -/
def regAt (dword : ℕ) : UInt32 :=
  if p.header.isOpcode CP_CONTEXT_REG_BUNCH then p.bunchReg dword else p.type4Reg dword

end CapturedPacket

/-- The register at a dword is inside the table, or the upper half of the last one in it, right
after the lower half. -/
def RegFits (table : RegTable) (reg : ℕ → UInt32) (unit dword : ℕ) : Prop :=
  (reg dword).toNat < kRegInfoSize ∨
    unit ≤ dword ∧ reg (dword - unit) = 0xfc00 ∧ reg dword = 0xfc01 ∧ table.is64Bit 0xfc00 = true

/-- **The registers that a packet names are inside the table.** -/
def CapturedPacket.InTable (p : CapturedPacket) (table : RegTable) : Prop :=
  ∀ k, p.regUnit * k < p.regCount → RegFits table p.regAt p.regUnit (p.regUnit * k)

/-! ## The law -/

namespace Emulation

variable (E : Emulation)

/-- **Register numbers are in bounds**: at each packet, those of the tracker, and those of the
passes with the tracker after the packet. -/
def IndicesInBounds (info : Pm4Info) (variant : GPUVariantType) (t : RegisterTracker)
    (events : List Event) : Prop :=
  ∀ es ibIndex va hd es' u, events = es ++ .packet ibIndex va hd :: es' →
    Monitor.run (RegisterTracker.onEvent E info.regInfo) t es = some u →
    (∀ a ∈ (E.capturedPacket va hd).trackerAccesses info.regInfo, a.InBounds) ∧
    ∀ u', u.onPacket info.regInfo (E.capturedPacket va hd) = some u' → ∀ plane,
      (∀ a ∈ (E.capturedPacket va hd).metadataAccesses info variant (u'.inMode plane),
        a.InBounds) ∧
      ∀ a ∈ (E.capturedPacket va hd).hierarchyAccesses info (u'.inMode plane), a.InBounds

/-- What a packet has to be like. -/
structure RightIndices (table : RegTable) (variant : GPUVariantType) (p : CapturedPacket) :
    Prop where
  inTable : p.InTable table
  names : p.readsNames = true → variant ≠ .kGPUVariantNone
  memToReg : p.header.isOpcode CP_MEM_TO_REG = true → p.memToRegField.toNat < kRegInfoSize

end Emulation

/-! ## Loops that take one register or two -/

section Loop

variable {table : RegTable} {reg : ℕ → UInt32} {step : ℕ → ℕ} {unit count : ℕ}

theorem visited_of_lt {dword : ℕ} (h : dword < count) (hstep : 0 < step dword) :
    visited step count dword = dword :: visited step count (dword + step dword) := by
  rw [visited, if_pos ⟨h, hstep⟩]

theorem visited_of_le {dword : ℕ} (h : count ≤ dword) : visited step count dword = [] := by
  rw [visited, if_neg fun hlt => absurd hlt.1 (not_lt.mpr h)]

/-- The loop takes two registers that are the halves of one. -/
def TakesHalves (table : RegTable) (reg : ℕ → UInt32) (unit : ℕ) (step : ℕ → ℕ) : Prop :=
  ∀ dword, step dword =
    if table.is64Bit (reg dword) = true ∧ reg (dword + unit) = reg dword + 1 then 2 * unit else unit

theorem toNat_succ {r : UInt32} (h : r.toNat < kRegInfoSize) : (r + 1).toNat = r.toNat + 1 := by
  rw [UInt32.toNat_add]
  unfold kRegInfoSize at h
  simp only [UInt32.reduceToNat]
  omega

theorem fits_of_visited (hstep : TakesHalves table reg unit step) (hunit : 0 < unit) (n : ℕ) :
    ∀ dword, count ≤ dword + n →
    (∀ d ∈ visited step count dword, (reg d).toNat < kRegInfoSize) →
    ∀ k, dword + unit * k < count → RegFits table reg unit (dword + unit * k) := by
  induction n using Nat.strong_induction_on with
  | _ n ih =>
    intro dword hn h k hk
    have hlt : dword < count := by omega
    have hpos : 0 < step dword := by
      rw [hstep]
      split_ifs <;> omega
    rw [visited_of_lt hlt hpos] at h
    obtain ⟨hfirst, hrest⟩ := List.forall_mem_cons.mp h
    match k with
    | 0 => exact .inl hfirst
    | k + 1 =>
      by_cases hpair : table.is64Bit (reg dword) = true ∧ reg (dword + unit) = reg dword + 1
      · rw [hstep, if_pos hpair] at hrest
        match k with
        | 0 =>
          have hsecond : (reg (dword + unit)).toNat = (reg dword).toNat + 1 := by
            rw [hpair.2, toNat_succ hfirst]
          rw [zero_add, mul_one]
          by_cases hlast : reg dword = 0xfc00
          · refine .inr ⟨Nat.le_add_left _ _, by rw [Nat.add_sub_cancel, hlast], ?_, hlast ▸ hpair.1⟩
            rw [hpair.2, hlast]
            rfl
          · refine .inl ?_
            have hne : (reg dword).toNat ≠ 0xfc00 := fun heq => hlast (UInt32.toNat_inj.mp heq)
            unfold kRegInfoSize at hfirst ⊢
            omega
        | k + 1 =>
          have hk' : dword + 2 * unit + unit * k = dword + unit * (k + 1 + 1) := by
            simp only [Nat.mul_succ]
            omega
          rw [← hk'] at hk ⊢
          exact ih (n - 2 * unit) (by omega) (dword + 2 * unit) (by omega) hrest k hk
      · rw [hstep, if_neg hpair] at hrest
        have hk' : dword + unit + unit * k = dword + unit * (k + 1) := by
          rw [Nat.mul_succ]
          omega
        rw [← hk'] at hk ⊢
        exact ih (n - unit) (by omega) (dword + unit) (by omega) hrest k hk

theorem visited_of_fits (hstep : TakesHalves table reg unit step) (hunit : 0 < unit)
    (hgap : table.is64Bit 0xfbff = false) (n : ℕ) :
    ∀ dword, count ≤ dword + n → (reg dword).toNat < kRegInfoSize →
    (∀ k, dword + unit * k < count → RegFits table reg unit (dword + unit * k)) →
    ∀ d ∈ visited step count dword, (reg d).toNat < kRegInfoSize := by
  induction n using Nat.strong_induction_on with
  | _ n ih =>
    intro dword hn hfirst h
    by_cases hlt : dword < count
    · have hpos : 0 < step dword := by
        rw [hstep]
        split_ifs <;> omega
      rw [visited_of_lt hlt hpos]
      refine List.forall_mem_cons.mpr ⟨hfirst, ?_⟩
      by_cases hpair : table.is64Bit (reg dword) = true ∧ reg (dword + unit) = reg dword + 1
      · rw [hstep, if_pos hpair]
        by_cases hmore : dword + 2 * unit < count
        · refine ih (n - 2 * unit) (by omega) (dword + 2 * unit) (by omega) ?_ fun k hk => ?_
          · rcases h 2 (by omega) with hin | ⟨-, hlow, -, -⟩
            · rwa [Nat.mul_comm] at hin
            · -- the register before the last one would be of 64 bits
              rw [show dword + unit * 2 - unit = dword + unit by omega, hpair.2] at hlow
              have hprev : reg dword = 0xfbff := by
                rw [← UInt32.toNat_inj, ← Nat.add_right_cancel_iff (n := 1), ← toNat_succ hfirst,
                  hlow]
                rfl
              rw [hprev, hgap] at hpair
              exact absurd hpair.1 Bool.false_ne_true
          · have hk' : dword + 2 * unit + unit * k = dword + unit * (k + 2) := by
              simp only [Nat.mul_succ]
              omega
            rw [hk'] at hk ⊢
            exact h (k + 2) hk
        · rw [visited_of_le (by omega)]
          simp
      · rw [hstep, if_neg hpair]
        by_cases hmore : dword + unit < count
        · refine ih (n - unit) (by omega) (dword + unit) (by omega) ?_ fun k hk => ?_
          · rcases h 1 (by omega) with hin | ⟨-, hlow, hhigh, h64⟩
            · rwa [Nat.mul_one] at hin
            · -- the loop would have taken both halves
              rw [Nat.mul_one, Nat.add_sub_cancel] at hlow
              rw [Nat.mul_one] at hhigh
              exact absurd ⟨hlow ▸ h64, by rw [hlow, hhigh]; rfl⟩ hpair
          · have hk' : dword + unit + unit * k = dword + unit * (k + 1) := by
              rw [Nat.mul_succ]
              omega
            rw [hk'] at hk ⊢
            exact h (k + 1) hk
        · rw [visited_of_le (by omega)]
          simp
    · rw [visited_of_le (by omega)]
      simp

end Loop

/-! ## The tracker -/

namespace CapturedPacket

variable {p : CapturedPacket} {table : RegTable}

theorem takesHalves_bunch : TakesHalves table p.bunchReg 2 (p.bunchStep table) := by
  intro dword
  simp [bunchStep]

theorem takesHalves_type4 : TakesHalves table p.type4Reg 1 (p.type4Step table) := by
  intro dword
  have hnext : p.type4Reg (dword + 1) = p.type4Reg dword + 1 := by
    simp [type4Reg, UInt32.add_assoc]
  simp [type4Step, hnext]

theorem forall_visited_iff {reg : ℕ → UInt32} {step : ℕ → ℕ} {unit count : ℕ}
    (hstep : TakesHalves table reg unit step) (hunit : 0 < unit)
    (hgap : table.is64Bit 0xfbff = false) :
    (∀ d ∈ visited step count 0, (reg d).toNat < kRegInfoSize) ↔
      ∀ k, unit * k < count → RegFits table reg unit (unit * k) := by
  constructor
  · intro h k hk
    have hfits := fits_of_visited hstep hunit count 0 (by omega) h k (by omega)
    rwa [Nat.zero_add] at hfits
  · intro h
    by_cases hcount : 0 < count
    · refine visited_of_fits hstep hunit hgap count 0 (by omega) ?_ fun k hk => ?_
      · rcases h 0 (by omega) with hin | ⟨hle, -⟩
        · rwa [Nat.mul_zero] at hin
        · omega
      · rw [Nat.zero_add] at hk ⊢
        exact h k hk
    · rw [visited_of_le (by omega)]
      simp

/-- **The lookups of a packet** are inside the table exactly when its registers are. -/
theorem described_iff (hgap : table.is64Bit 0xfbff = false) :
    (∀ r ∈ p.described table, r.toNat < kRegInfoSize) ↔ p.InTable table := by
  unfold described InTable regUnit regCount regAt
  by_cases hb : p.header.isOpcode CP_CONTEXT_REG_BUNCH = true
  · simp only [if_pos hb, List.forall_mem_map]
    exact forall_visited_iff takesHalves_bunch (by omega) hgap
  · simp only [if_neg hb]
    by_cases h4 : p.header.type = 4
    · simp only [if_pos h4, List.forall_mem_map]
      exact forall_visited_iff takesHalves_type4 (by omega) hgap
    · simp [h4]

theorem type4Writes_described (dword : ℕ) : ∀ w ∈ p.type4Writes table dword,
    ∃ d ∈ visited (p.type4Step table) p.header.type4Count.toNat dword,
      w.offset = p.type4Reg d ∨ w.offset = p.type4Reg d + 1 := by
  fun_induction p.type4Writes table dword with
  | case1 dword hlt offset size ih =>
    have hsize : p.type4Step table dword = size := rfl
    rw [visited_of_lt hlt (by rw [hsize]; simp only [size]; split <;> omega), hsize]
    intro w hw
    rcases List.mem_append.mp hw with hw | hw
    · obtain ⟨i, hi, rfl⟩ := List.mem_map.mp hw
      refine ⟨dword, List.mem_cons_self, ?_⟩
      have hi2 : i < 2 := by
        have := List.mem_range.mp hi
        simp only [size] at this
        split at this <;> omega
      match i, hi2 with
      | 0, _ => exact .inl (UInt32.add_zero _)
      | 1, _ => exact .inr rfl
    · obtain ⟨d, hd, hoffset⟩ := ih w hw
      exact ⟨d, List.mem_cons_of_mem _ hd, hoffset⟩
  | case2 dword hlt => simp

theorem bunchWrites_described (dword : ℕ) : ∀ w ∈ p.bunchWrites table dword,
    ∃ d ∈ visited (p.bunchStep table) p.header.type7Count.toNat dword,
      w.offset = p.bunchReg d ∨ w.offset = p.bunchReg d + 1 := by
  fun_induction p.bunchWrites table dword with
  | case1 dword hlt pair next hpair ih =>
    have hstep : p.bunchStep table dword = 4 := if_pos hpair
    have hnext : next.1 = pair.1 + 1 := of_decide_eq_true (Bool.and_eq_true_iff.mp hpair).2
    rw [visited_of_lt hlt (by omega), hstep]
    intro w hw
    simp only [List.mem_cons] at hw
    rcases hw with rfl | rfl | hw
    · exact ⟨dword, List.mem_cons_self, .inl rfl⟩
    · exact ⟨dword, List.mem_cons_self, .inr hnext⟩
    · obtain ⟨d, hd, hoffset⟩ := ih w hw
      exact ⟨d, List.mem_cons_of_mem _ hd, hoffset⟩
  | case2 dword hlt pair next hpair ih =>
    have hstep : p.bunchStep table dword = 2 := if_neg hpair
    rw [visited_of_lt hlt (by omega), hstep]
    intro w hw
    rcases List.mem_cons.mp hw with rfl | hw
    · exact ⟨dword, List.mem_cons_self, .inl rfl⟩
    · obtain ⟨d, hd, hoffset⟩ := ih w hw
      exact ⟨d, List.mem_cons_of_mem _ hd, hoffset⟩
  | case3 dword hlt => simp

/-- **Each write** is of a register that the packet looks up, or of the one after it. -/
theorem regWrites_described : ∀ w ∈ p.regWrites table,
    ∃ r ∈ p.described table, w.offset = r ∨ w.offset = r + 1 := by
  intro w hw
  unfold regWrites at hw
  unfold described
  split_ifs at hw ⊢ with hb h4
  · obtain ⟨d, hd, hoffset⟩ := bunchWrites_described 0 w hw
    exact ⟨_, List.mem_map_of_mem hd, hoffset⟩
  · obtain ⟨d, hd, hoffset⟩ := type4Writes_described 0 w hw
    exact ⟨_, List.mem_map_of_mem hd, hoffset⟩
  · simp at hw

/-- **The register numbers of the tracker** are in bounds exactly when the packet's registers are
inside the table. -/
theorem tracker_inBounds_iff (hgap : table.is64Bit 0xfbff = false) :
    (∀ a ∈ p.trackerAccesses table, a.InBounds) ↔ p.InTable table := by
  rw [← described_iff hgap, trackerAccesses, List.forall_mem_append, List.forall_mem_map,
    List.forall_mem_map]
  refine ⟨And.left, fun h => ⟨h, fun w hw => ?_⟩⟩
  obtain ⟨r, hr, hoffset⟩ := regWrites_described w hw
  have hlt : r.toNat < kRegInfoSize := h r hr
  have hnext := toNat_succ hlt
  show w.offset.toNat < kNumRegs
  unfold kRegInfoSize at hlt
  unfold kNumRegs
  rcases hoffset with hoffset | hoffset <;> rw [hoffset] <;> omega

end CapturedPacket

/-! ## Registers by name -/

/-- The names have offsets well inside the table. -/
def Pm4Info.NamesInside (info : Pm4Info) : Prop :=
  ∀ name ∈ registerNames, (info.regOffsetByName name).toNat ≤ 0xbb20

theorem namesInside {T : Pm4Tables} (hT : T.Generated) {variant : GPUVariantType}
    (hvariant : variant ≠ .kGPUVariantNone) : (T.info variant).NamesInside := by
  have hoffsets : ∀ entry ∈ registerOffsets,
      entry.2.all (fun offset => offset.toNat ≤ 0xbb20) = true := by
    decide +kernel
  intro name hname
  obtain ⟨entry, hentry, rfl⟩ := List.mem_map.mp hname
  obtain ⟨offset, hoffset, hindex⟩ := hT.index entry hentry
  have hlookup : T.getRegOffsetByName variant entry.1 = offset := by
    rw [Pm4Tables.getRegOffsetByName, if_neg hvariant, hindex]
    rfl
  show (T.getRegOffsetByName variant entry.1).toNat ≤ 0xbb20
  rw [hlookup]
  exact of_decide_eq_true (List.all_eq_true.mp (hoffsets entry hentry) offset hoffset)

theorem getRegOffsetByName_none (T : Pm4Tables) (name : String) :
    (T.info .kGPUVariantNone).regOffsetByName name = kInvalidRegOffset := rfl

section Names

variable {info : Pm4Info} {variant : GPUVariantType} {t : RegisterTracker} {offset : UInt32}
  {a : RegAccess}

theorem lt_kNumRegs_of_le (h : offset.toNat ≤ 0xbb20) : offset.toNat < kNumRegs := by
  unfold kNumRegs
  omega

theorem inBounds_ifSet {body : List RegAccess} (hoffset : offset.toNat ≤ 0xbb20)
    (hbody : ∀ a ∈ body, a.InBounds) : ∀ a ∈ t.ifSet offset body, a.InBounds := by
  unfold RegisterTracker.ifSet
  refine List.forall_mem_cons.mpr ⟨lt_kNumRegs_of_le hoffset, ?_⟩
  split_ifs
  · exact hbody
  · simp

theorem inBounds_whileSet {stride : UInt32} {body : UInt32 → List RegAccess}
    (hstride : stride.toNat ≤ 8) (hbody : ∀ r : UInt32, r.toNat < 0xf000 →
      ∀ a ∈ body r, a.InBounds) : ∀ (n : ℕ) (reg : UInt32), reg.toNat + 8 * n < 0xf000 →
      ∀ a ∈ t.whileSet stride body n reg, a.InBounds
  | 0, _, _ => by simp [RegisterTracker.whileSet]
  | n + 1, reg, hreg => by
    have hnext : (reg + stride).toNat = reg.toNat + stride.toNat := by
      rw [UInt32.toNat_add]
      omega
    unfold RegisterTracker.whileSet
    refine List.forall_mem_cons.mpr ⟨?_, ?_⟩
    · show reg.toNat < kNumRegs
      unfold kNumRegs
      omega
    · split_ifs
      · refine List.forall_mem_append.mpr ⟨hbody reg (by omega), ?_⟩
        exact inBounds_whileSet hstride hbody n (reg + stride) (by omega)
      · simp

theorem inBounds_getRegValue {r k : UInt32} (hr : r.toNat < 0xf000) (hk : k.toNat ≤ 31) :
    (RegAccess.getRegValue (r + k)).InBounds := by
  show (r + k).toNat < kNumRegs
  unfold kNumRegs
  rw [UInt32.toNat_add]
  omega

theorem inBounds_readNamed (hnames : info.NamesInside) {name : String}
    (hname : name ∈ registerNames) : ∀ a ∈ info.readNamed t name, a.InBounds :=
  inBounds_ifSet (hnames name hname)
    (List.forall_mem_singleton.mpr (lt_kNumRegs_of_le (hnames name hname)))

theorem inBounds_handleShaders (h : a ∈ t.handleShadersAccesses) : a.InBounds := by
  obtain ⟨stage, -, h⟩ := List.mem_flatMap.mp h
  obtain ⟨enableBit, -, h⟩ := List.mem_flatMap.mp h
  have hstage : ∀ s : ShaderStage, s.objStart.toNat < 0xf000 := by
    intro s
    cases s <;> decide
  have hnext := inBounds_getRegValue (hstage stage) (k := 1) (by decide)
  have hfirst : stage.objStart.toNat < kNumRegs := by
    have := hstage stage
    unfold kNumRegs
    omega
  unfold RegisterTracker.getCurShaderAddrAccesses at h
  split_ifs at h
  · simp only [List.mem_cons, List.not_mem_nil, or_false] at h
    rcases h with rfl | rfl | rfl
    · exact hfirst
    · exact hfirst
    · exact hnext
  · cases List.mem_singleton.mp h
    exact hfirst

theorem inBounds_first {r : UInt32} (hr : r.toNat < 0xf000) : (RegAccess.getRegValue r).InBounds := by
  show r.toNat < kNumRegs
  unfold kNumRegs
  omega

theorem inBounds_six (r : UInt32) (hr : r.toNat < 0xf000) : ∀ a ∈ [RegAccess.getRegValue r,
    .getRegValue (r + 1), .getRegValue (r + 2), .getRegValue (r + 3), .getRegValue (r + 4),
    .getRegValue (r + 5)], a.InBounds := by
  simp only [List.forall_mem_cons]
  refine ⟨inBounds_first hr, ?_, ?_, ?_, ?_, ?_, by simp⟩
  all_goals exact inBounds_getRegValue hr (by decide)

theorem inBounds_two (r : UInt32) (hr : r.toNat < 0xf000) :
    ∀ a ∈ [RegAccess.getRegValue r, .getRegValue (r + 1)], a.InBounds := by
  simp only [List.forall_mem_cons]
  exact ⟨inBounds_first hr, inBounds_getRegValue hr (by decide), by simp⟩

theorem inBounds_loop (hnames : info.NamesInside) {stride : UInt32} (hstride : stride.toNat ≤ 8)
    {body : UInt32 → List RegAccess}
    (hbody : ∀ r : UInt32, r.toNat < 0xf000 → ∀ a ∈ body r, a.InBounds) {n : ℕ} (hn : n ≤ 16)
    {name : String} (hname : name ∈ registerNames) :
    ∀ a ∈ t.whileSet stride body n (info.regOffsetByName name), a.InBounds := by
  have hle := hnames name hname
  exact inBounds_whileSet hstride hbody n _ (by omega)

theorem inBounds_viewport (hnames : info.NamesInside) :
    ∀ a ∈ info.fillViewportState t, a.InBounds := by
  refine List.forall_mem_append.mpr ⟨?_, ?_⟩
  · exact inBounds_loop hnames (by decide) inBounds_six (by decide) (by decide)
  · exact inBounds_loop hnames (by decide) inBounds_two (by decide) (by decide)

theorem inBounds_rasterizer (hnames : info.NamesInside) :
    ∀ a ∈ info.fillRasterizerState t, a.InBounds := by
  simp only [Pm4Info.fillRasterizerState, List.forall_mem_append, and_assoc]
  refine ⟨?_, ?_, ?_, ?_, ?_, ?_, ?_⟩
  all_goals exact inBounds_readNamed hnames (by decide)

theorem inBounds_depth (hnames : info.NamesInside) :
    ∀ a ∈ info.fillDepthState t, a.InBounds := by
  refine List.forall_mem_append.mpr ⟨?_, ?_⟩
  · refine inBounds_ifSet (hnames _ (by decide)) ?_
    simp only [List.forall_mem_cons, List.forall_mem_append]
    refine ⟨lt_kNumRegs_of_le (hnames _ (by decide)), ?_, ?_⟩
    all_goals exact inBounds_readNamed hnames (by decide)
  · refine inBounds_ifSet (hnames _ (by decide)) ?_
    simp only [List.forall_mem_cons, List.forall_mem_append, and_assoc]
    refine ⟨lt_kNumRegs_of_le (hnames _ (by decide)), ?_, ?_, ?_⟩
    all_goals exact inBounds_readNamed hnames (by decide)

theorem inBounds_colorBlend (hnames : info.NamesInside) :
    ∀ a ∈ info.fillColorBlendState t, a.InBounds := by
  refine List.forall_mem_append.mpr ⟨?_, ?_⟩
  · exact inBounds_loop hnames (by decide) inBounds_two (by decide) (by decide)
  · refine inBounds_ifSet (hnames _ (by decide)) ?_
    simp only [List.forall_mem_cons]
    refine ⟨?_, ?_, ?_, ?_, by simp⟩
    all_goals exact lt_kNumRegs_of_le (hnames _ (by decide))

theorem inBounds_hardware (hnames : info.NamesInside) :
    ∀ a ∈ info.fillHardwareSpecificStates variant t, a.InBounds := by
  have hbin := hnames "GRAS_SC_BIN_CNTL" (by decide)
  have hone : ∀ r : UInt32, r.toNat < 0xf000 → ∀ a ∈ [RegAccess.getRegValue r], a.InBounds :=
    fun r hr => List.forall_mem_singleton.mpr (inBounds_first hr)
  simp only [Pm4Info.fillHardwareSpecificStates, List.forall_mem_append, and_assoc]
  refine ⟨?_, ?_, inBounds_ifSet hbin ?_, ?_, ?_, ?_, ?_, ?_⟩
  · exact inBounds_readNamed hnames (by decide)
  · exact inBounds_readNamed hnames (by decide)
  · simp only [List.forall_mem_cons]
    refine ⟨?_, lt_kNumRegs_of_le hbin, by simp⟩
    show (info.regOffsetByName "GRAS_SC_BIN_CNTL").toNat < kRegInfoSize
    unfold kRegInfoSize
    omega
  · exact inBounds_readNamed hnames (by decide)
  · exact inBounds_readNamed hnames (by decide)
  · exact inBounds_readNamed hnames (by decide)
  · exact inBounds_loop hnames (by decide) hone (by decide) (by decide)
  · split_ifs
    · exact inBounds_readNamed hnames (by decide)
    · simp

theorem inBounds_draw (hnames : info.NamesInside) :
    ∀ a ∈ info.fillDrawEventStateInfo variant t, a.InBounds := by
  simp only [Pm4Info.fillDrawEventStateInfo, List.forall_mem_append, and_assoc]
  refine ⟨?_, ?_, inBounds_viewport hnames, inBounds_rasterizer hnames, ?_, inBounds_depth hnames,
    inBounds_colorBlend hnames, inBounds_hardware hnames⟩
  · exact inBounds_readNamed hnames (by decide)
  · exact inBounds_readNamed hnames (by decide)
  · simp only [Pm4Info.fillMultisamplingState, List.forall_mem_append]
    refine ⟨?_, ?_⟩
    all_goals exact inBounds_readNamed hnames (by decide)

theorem inBounds_resolveOrClear (hnames : info.NamesInside) :
    ∀ a ∈ info.fillResolveOrClearEventStateInfo t, a.InBounds := by
  refine List.forall_mem_append.mpr ⟨inBounds_readNamed hnames (by decide), ?_⟩
  refine inBounds_ifSet (hnames _ (by decide)) (inBounds_ifSet (hnames _ (by decide)) ?_)
  simp only [List.forall_mem_cons]
  refine ⟨?_, ?_, by simp⟩
  all_goals exact lt_kNumRegs_of_le (hnames _ (by decide))

theorem inBounds_resolve (hnames : info.NamesInside) :
    ∀ a ∈ info.fillResolveEventStateInfo t, a.InBounds := by
  have hle := hnames "RB_RESOLVE_SYSTEM_BUFFER_BASE" (by decide)
  exact inBounds_ifSet hle (inBounds_two _ (by omega))

/-! ## Packets -/

namespace CapturedPacket

variable {p : CapturedPacket}

theorem inBounds_syncType (hnames : p.isCcuResolve = true → info.NamesInside) :
    ∀ a ∈ p.syncTypeAccesses info t, a.InBounds := by
  unfold syncTypeAccesses
  split_ifs with hccu
  · exact inBounds_readNamed (hnames hccu) (by decide)
  · simp

theorem inBounds_state (hnames : info.NamesInside) (type : EventType) :
    ∀ a ∈ stateAccesses info variant t type, a.InBounds := by
  unfold stateAccesses
  split_ifs
  · exact List.forall_mem_append.mpr ⟨inBounds_draw hnames, fun _ => inBounds_handleShaders⟩
  · exact List.forall_mem_append.mpr ⟨by simp, fun _ => inBounds_handleShaders⟩
  · exact List.forall_mem_append.mpr ⟨inBounds_resolveOrClear hnames, inBounds_resolve hnames⟩
  · exact inBounds_resolveOrClear hnames
  · simp

theorem inBounds_events (hnames : p.isCcuResolve = true → info.NamesInside) :
    (∀ a ∈ p.isEventAccesses info t, a.InBounds) ∧
      (∀ a ∈ p.getEventTypeAccesses info t, a.InBounds) ∧
      ∀ a ∈ p.getEventStringAccesses info t, a.InBounds := by
  have hsync := inBounds_syncType (t := t) hnames
  unfold isEventAccesses getEventTypeAccesses getEventStringAccesses
  split_ifs <;> simp_all

theorem inBounds_metadata (hnames : p.readsState = true → info.NamesInside) :
    ∀ a ∈ p.metadataAccesses info variant t, a.InBounds := by
  by_cases hreads : p.readsState = true
  · have hN := hnames hreads
    obtain ⟨hevent, htype, hstring⟩ := inBounds_events (t := t) (p := p) fun _ => hN
    unfold metadataAccesses
    split_ifs
    · simp only [List.forall_mem_append]
      refine ⟨hevent, ⟨htype, hstring⟩, ?_⟩
      cases Util.getEventType info p p.header.type7Opcode t with
      | none => simp
      | some type => exact inBounds_state hN type
    · simpa using hevent
    · simp
  · intro a ha
    exact inBounds_handleShaders (mem_handleShaders_of_other (by simpa using hreads) ha)

theorem inBounds_bindless {base index : UInt32} (hindex : index.toNat ≤ 15)
    (hbase : base.toNat ≤ 0xbb20 ∨ base = kInvalidRegOffset ∧ index ≠ 0) :
    ∀ a ∈ RegisterTracker.getReg64ValueAccesses (base + index * 2), a.InBounds := by
  refine inBounds_two _ ?_
  have hdouble : (index * 2).toNat = index.toNat * 2 := by
    rw [UInt32.toNat_mul]
    simp only [UInt32.reduceToNat]
    omega
  rw [UInt32.toNat_add, hdouble]
  rcases hbase with hle | ⟨rfl, hne⟩
  · omega
  · have hpos : index.toNat ≠ 0 := fun h => hne (UInt32.toNat_inj.mp h)
    have hinvalid : kInvalidRegOffset.toNat = 4294967295 := rfl
    omega

theorem bindlessIndex_le (p : CapturedPacket) : p.bindlessIndex.toNat ≤ 15 := by
  have hlt := (p.field16 8).toNat_lt
  rw [bindlessIndex, UInt32.toNat_shiftRight]
  simp only [UInt32.reduceToNat, Nat.reduceMod, Nat.shiftRight_eq_div_pow, Nat.reducePow]
  omega

end CapturedPacket

end Names

/-! ## Right packets -/

namespace CapturedPacket

variable {T : Pm4Tables} {variant : GPUVariantType} {t : RegisterTracker} {p : CapturedPacket}

theorem names_of_right (hT : T.Generated)
    (h : p.readsNames = true → variant ≠ .kGPUVariantNone) (hreads : p.readsState = true) :
    (T.info variant).NamesInside :=
  namesInside hT (h (by simp [readsNames, hreads]))

theorem inBounds_loadState (hT : T.Generated) (h7 : p.header.type = 7)
    (hop : isLoadStateOpcode p.header.type7Opcode = true)
    (h : p.readsNames = true → variant ≠ .kGPUVariantNone) :
    ∀ a ∈ p.loadStateAccesses (T.info variant), a.InBounds := by
  unfold loadStateAccesses
  split_ifs with hbindless
  · refine inBounds_bindless p.bindlessIndex_le ?_
    by_cases hvariant : variant = .kGPUVariantNone
    · refine .inr ⟨?_, fun hzero => ?_⟩
      · rw [bindlessBase, hvariant, getRegOffsetByName_none, getRegOffsetByName_none, ite_self]
      · exact h (by simp [readsNames, h7, hop, hbindless, hzero]) hvariant
    · have hN := namesInside hT hvariant
      refine .inl ?_
      unfold bindlessBase
      split_ifs
      · exact hN _ (by decide)
      · exact hN _ (by decide)
  · simp

theorem inBounds_hierarchy (hT : T.Generated)
    (h : Emulation.RightIndices (T.regInfo variant) variant p) :
    ∀ a ∈ p.hierarchyAccesses (T.info variant) t, a.InBounds := by
  have hgap : (T.regInfo variant).is64Bit 0xfbff = false := by
    rw [RegTable.is64Bit, hT.gap]
    rfl
  obtain ⟨hevent, htype, hstring⟩ := inBounds_events (t := t) (p := p) fun hccu =>
    names_of_right hT h.names (by simp [readsState, hccu])
  refine List.forall_mem_append.mpr ⟨?_, ?_⟩
  · exact List.forall_mem_map.mpr ((described_iff hgap).mpr h.inTable)
  · split_ifs with h7 hisEvent hload hmem
    · exact List.forall_mem_append.mpr ⟨hevent, List.forall_mem_append.mpr ⟨hstring, htype⟩⟩
    · exact List.forall_mem_append.mpr ⟨hevent, inBounds_loadState hT h7 hload h.names⟩
    · refine List.forall_mem_append.mpr ⟨hevent, List.forall_mem_singleton.mpr ?_⟩
      exact h.memToReg (by simp [Pm4Header.isOpcode, h7, hmem])
    · exact List.forall_mem_append.mpr ⟨hevent, by simp⟩
    · simp

theorem isEvent_of_load {info : Pm4Info} (h : isLoadStateOpcode p.header.type7Opcode = true ∨
    p.header.type7Opcode = CP_MEM_TO_REG) :
    Util.isEvent info p p.header.type7Opcode t = some false := by
  have hopcode : p.header.type7Opcode ∈
      [CP_LOAD_STATE6, CP_LOAD_STATE6_GEOM, CP_LOAD_STATE6_FRAG, CP_MEM_TO_REG] := by
    rcases h with h | h
    · simp only [isLoadStateOpcode, Bool.or_eq_true, decide_eq_true_eq] at h
      simp only [List.mem_cons]
      tauto
    · simp [h]
  generalize p.header.type7Opcode = opcode at hopcode
  simp only [List.mem_cons, List.not_mem_nil, or_false] at hopcode
  rcases hopcode with rfl | rfl | rfl | rfl <;> rfl

theorem memToReg_mem {info : Pm4Info} (hop : p.header.isOpcode CP_MEM_TO_REG = true) :
    .getRegInfo p.memToRegField ∈ p.hierarchyAccesses info t := by
  obtain ⟨h7, hopcode⟩ : p.header.type = 7 ∧ p.header.type7Opcode = CP_MEM_TO_REG := by
    simpa [Pm4Header.isOpcode] using hop
  have hload : ¬ isLoadStateOpcode p.header.type7Opcode = true := by
    rw [hopcode]
    decide
  rw [hierarchyAccesses, if_pos h7, isEvent_of_load (.inr hopcode), if_neg (by simp),
    if_neg hload, if_pos hopcode]
  exact List.mem_append_right _ (List.mem_append_right _ List.mem_cons_self)

theorem exists_not_inBounds (hreads : p.readsNames = true) :
    ∃ a, (a ∈ p.metadataAccesses (T.info .kGPUVariantNone) variant t ∨
      a ∈ p.hierarchyAccesses (T.info .kGPUVariantNone) t) ∧ ¬ a.InBounds := by
  have hpast : ¬ kInvalidRegOffset.toNat < kNumRegs := by decide
  rcases Bool.or_eq_true_iff.mp hreads with hstate | hload
  · rcases Bool.or_eq_true_iff.mp hstate with hdraw | hccu
    · exact ⟨_, .inl (readsMode_of_draw hdraw), hpast⟩
    · exact ⟨_, .inl (readsMode_of_ccuResolve hccu), hpast⟩
  · obtain ⟨⟨⟨h7, hop⟩, hbindless⟩, hzero⟩ : ((p.header.type = 7 ∧
        isLoadStateOpcode p.header.type7Opcode = true) ∧ p.isBindless = true) ∧
        p.bindlessIndex = 0 := by simpa using hload
    have hbase : p.bindlessBase (T.info .kGPUVariantNone) = kInvalidRegOffset := by
      rw [bindlessBase, getRegOffsetByName_none, getRegOffsetByName_none, ite_self]
    refine ⟨.getRegValue kInvalidRegOffset, .inr ?_, hpast⟩
    rw [hierarchyAccesses, if_pos h7, isEvent_of_load (.inl hop), if_neg (by simp), if_pos hop,
      loadStateAccesses, if_pos hbindless, hbase, hzero]
    exact List.mem_append_right _ (List.mem_append_right _ List.mem_cons_self)

end CapturedPacket

/-! ## Submits -/

namespace Emulation

variable {E : Emulation} {T : Pm4Tables} {variant : GPUVariantType} {t : RegisterTracker}
  {events : List Event}

theorem IndicesInBounds.of_append {info : Pm4Info} {more : List Event}
    (h : E.IndicesInBounds info variant t (events ++ more)) :
    E.IndicesInBounds info variant t events := by
  intro es ibIndex va hd es' u heq hu
  exact h es ibIndex va hd (es' ++ more) u (by rw [heq]; simp) hu

theorem there_of_inBounds {masks : EmulateStateTracker}
    (hmasks : Monitor.run EmulateStateTracker.onEvent t.toEmulateStateTracker events = some masks)
    (h : E.IndicesInBounds (T.info variant) variant t events) :
    E.WritesThere (T.regInfo variant) events := by
  induction events using List.reverseRecOn generalizing masks with
  | nil => exact fun _ _ _ hmem => absurd hmem List.not_mem_nil
  | append_singleton es e ih =>
    obtain ⟨masks', hmasks'⟩ := Monitor.run_prefix hmasks
    have hbefore := ih hmasks' h.of_append
    obtain ⟨u, hu⟩ := run_of_there hmasks' hbefore
    intro ibIndex va hd hmem w hw
    rcases List.mem_append.mp hmem with hmem | hmem
    · exact hbefore ibIndex va hd hmem w hw
    · cases List.mem_singleton.mp hmem
      exact (h es ibIndex va hd [] u rfl hu).1 (.setReg w.offset)
        (List.mem_append_right _ (List.mem_map_of_mem hw))

/-- **Register numbers.** At any point of a submit, whatever the tracker was before it, every
register number in use is in bounds exactly when every packet names registers inside the table and
reads none by name without a GPU variant. -/
theorem indicesInBounds_iff {ibs : List IndirectBufferInfo} {c : Config} (h : E.Reachable ibs c)
    (hT : T.Generated) (variant : GPUVariantType) (t : RegisterTracker) :
    E.IndicesInBounds (T.info variant) variant t.reset c.trace ↔
      ∀ ibIndex va hd, .packet ibIndex va hd ∈ c.trace →
        RightIndices (T.regInfo variant) variant (E.capturedPacket va hd) := by
  have hgap : (T.regInfo variant).is64Bit 0xfbff = false := by
    rw [RegTable.is64Bit, hT.gap]
    rfl
  constructor
  · intro hlaw ibIndex va hd hmem
    obtain ⟨masks, hmasks, -⟩ := masksOnStack_reachable h t.reset.toEmulateStateTracker
    have hthere := there_of_inBounds hmasks hlaw
    obtain ⟨es, es', heq⟩ := List.append_of_mem hmem
    rw [heq] at hmasks
    obtain ⟨masks', hmasks'⟩ := Monitor.run_prefix hmasks
    obtain ⟨u, hu⟩ := run_of_there hmasks' fun i v d hbefore =>
      hthere i v d (heq ▸ List.mem_append_left _ hbefore)
    obtain ⟨htracker, hpasses⟩ := hlaw es ibIndex va hd es' u heq hu
    obtain ⟨hmeta, hhier⟩ := hpasses _ ((CapturedPacket.onPacket_eq u).trans
      (if_pos (hthere ibIndex va hd hmem))) .kBINNING
    refine ⟨(CapturedPacket.tracker_inBounds_iff hgap).mp htracker, ?_, ?_⟩
    · rintro hreads rfl
      obtain ⟨a, ha, hnot⟩ := CapturedPacket.exists_not_inBounds hreads
      exact hnot (ha.elim (hmeta a) (hhier a))
    · exact fun hop => hhier _ (CapturedPacket.memToReg_mem hop)
  · intro hright es ibIndex va hd es' u heq hu
    have hpacket := hright ibIndex va hd (heq ▸ List.mem_append_right _ List.mem_cons_self)
    refine ⟨(CapturedPacket.tracker_inBounds_iff hgap).mpr hpacket.inTable, fun u' hu' plane => ?_⟩
    refine ⟨CapturedPacket.inBounds_metadata (CapturedPacket.names_of_right hT hpacket.names), ?_⟩
    exact CapturedPacket.inBounds_hierarchy hT hpacket

/-- The register names with the first of their offsets, and no description. -/
def nameTables : Pm4Tables where
  regInfo := fun _ _ => none
  regNameToIndex := fun name =>
    (registerOffsets.find? fun entry => entry.1 = name).bind fun entry => entry.2.head?

theorem nameTables_generated : nameTables.Generated := ⟨by decide, fun _ => rfl⟩

/-- A wait and a draw, on a GPU of the series 6. -/
theorem indicesInBounds_drawn : ∃ c,
    Reachable ⟨drawnMemory, 0, fun _ _ => true⟩ drawnSubmit.ibs c ∧ c.trace = drawnTrace ∧
      IndicesInBounds ⟨drawnMemory, 0, fun _ _ => true⟩ (nameTables.info .kA6XX) .kA6XX
        (RegisterTracker.reset {}) c.trace := by
  obtain ⟨c, hc, -, htrace⟩ := drawn_succeeds
  refine ⟨c, hc, htrace, (indicesInBounds_iff hc nameTables_generated .kA6XX {}).mpr ?_⟩
  rw [htrace]
  intro ibIndex va hd hmem
  have hheader : hd = ⟨0x70e50001⟩ ∨ hd = ⟨0x70138000⟩ ∨ hd = ⟨0x70a48000⟩ := by
    simp only [drawnTrace, List.mem_cons, List.not_mem_nil, reduceCtorEq, Event.packet.injEq,
      false_or, or_false] at hmem
    tauto
  obtain ⟨hbunch, h4, hopcode⟩ : hd.isOpcode CP_CONTEXT_REG_BUNCH = false ∧ hd.type ≠ 4 ∧
      hd.isOpcode CP_MEM_TO_REG = false := by
    rcases hheader with rfl | rfl | rfl <;> decide
  have hcount : (capturedPacket ⟨drawnMemory, 0, fun _ _ => true⟩ va hd).regCount = 0 := by
    simp [CapturedPacket.regCount, capturedPacket, hbunch, h4]
  refine ⟨fun k hk => ?_, fun _ => by decide, fun hop => ?_⟩
  · rw [hcount] at hk
    exact absurd hk (Nat.not_lt_zero _)
  · exact absurd (hop.symm.trans hopcode) (by decide)

/-! ## A register past the arrays -/

/-- At `0x1000`, a type 4 packet that writes the register `0x10000`. -/
def highRegister : Emulation := accepting [.ofDwords 0x1000 [0x41000001, 0]]

def highIbs : List IndirectBufferInfo := [{ vaAddr := 0x1000, sizeInDwords := 2 }]

def highTrace : List Event := [
  .ibStart ⟨.kNormal, 0x1000, 2, false, 7⟩ 0 ⟨0x1000, 2, 1, 7, false⟩ .kNormal,
  .packet 0 0x1000 ⟨0x41000001⟩, .ibEnd 0 ⟨0x1000, 2, 0, 0, false⟩]

/-- **A type 4 packet with a register past the arrays** is accepted. -/
theorem highRegister_not_inBounds : highRegister.Succeeds highIbs highTrace ∧
    ¬ highRegister.IndicesInBounds (nameTables.info .kA6XX) .kA6XX (RegisterTracker.reset {})
      highTrace := by
  refine ⟨succeeds_of_successTrace (n := 5) (by rfl), fun hlaw => ?_⟩
  have htracker := (hlaw [_] 0 0x1000 ⟨0x41000001⟩ [_] _ rfl rfl).1
  have htable := (CapturedPacket.tracker_inBounds_iff rfl).mp htracker
  rcases htable 0 (by decide) with hin | ⟨hle, -⟩
  · exact absurd hin (by decide)
  · exact absurd hle (by decide)

end Emulation

end Dive
