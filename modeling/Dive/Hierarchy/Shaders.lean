import Mathlib.Data.List.Dedup
import Dive.Hierarchy.Passes
import Dive.Lib.Intern
import Dive.Pm4.Registers

/-!
# Shader references

* `getCurShaderAddr`, `handleShaders`: the shaders of an event, found by their addresses;
  `Disassembly.data`: what the disassembler gets.
* `ShaderMetadataCreator`: the metadata pass with its shaders.
* `EventMetadata.Right`: an event references each of its shaders once, with the modes that use it
  and with the bytes that its own submit sees.
* **`right_iff`**: after any calls, all events are right exactly when submits that use an address
  see the same bytes there, and there are at most `2 ^ 32` addresses.

The disassembler itself and the log are left out.
-/

namespace Dive

open Pm4CaptureData (SubmitInfo)

inductive ShaderStage
  | kShaderStageCs
  | kShaderStageGs
  | kShaderStageHs
  | kShaderStagePs
  | kShaderStageVs
  deriving DecidableEq

/-- The register that holds the address of the shader. -/
def ShaderStage.objStart : ShaderStage → UInt32
  | .kShaderStageCs => 0xa9b4
  | .kShaderStageGs => 0xa88d
  | .kShaderStageHs => 0xa834
  | .kShaderStagePs => 0xa983
  | .kShaderStageVs => 0xa81c

def shaderStages : List ShaderStage :=
  [.kShaderStageCs, .kShaderStageGs, .kShaderStageHs, .kShaderStagePs, .kShaderStageVs]

def shaderEnableBits : List ShaderEnableBit := [.kBINNING, .kGMEM, .kSYSMEM]

/-- `UINT64_MAX`. -/
def noShaderAddr : UInt64 := 0xFFFFFFFFFFFFFFFF

namespace RegisterTracker

variable (t : RegisterTracker)

def getReg64Value (offset : UInt32) (enableBit : ShaderEnableBit) : UInt64 :=
  (t.reg enableBit offset).toUInt64 ||| ((t.reg enableBit (offset + 1)).toUInt64 <<< 32)

def getCurShaderAddr (stage : ShaderStage) (enableBit : ShaderEnableBit) : UInt64 :=
  if t.regIsSet enableBit stage.objStart then t.getReg64Value stage.objStart enableBit
  else noShaderAddr

end RegisterTracker

/-! ## Shaders -/

/-- The members of `Disassembly` that say what is disassembled. -/
structure Disassembly where
  submitIndex : UInt32
  address : UInt64
  deriving DecidableEq

def kMaxSizeLimit : UInt64 := 64 * 1024

/-- What `Disassemble` passes to the disassembler. Of the array, which the source does not
initialize, bytes that are not retrieved are zero here. -/
def Disassembly.data (d : Disassembly) (m : MemoryManager) : List UInt8 :=
  let maxSize := min (m.getMaxContiguousSize d.submitIndex d.address) kMaxSizeLimit
  (List.range maxSize.toNat).map
    (m.toInterface.retrieveMemoryData Buffer.zero d.submitIndex d.address maxSize).2

structure ShaderReference where
  shaderIndex : UInt32
  stage : ShaderStage
  enableMask : UInt32
  deriving DecidableEq

/-- A shader that an event uses, in one stage and one mode. -/
structure ShaderUse where
  stage : ShaderStage
  enableBit : ShaderEnableBit
  address : UInt64
  deriving DecidableEq

/-- `m_shader_addrs` and `m_shaders`. -/
structure ShaderTable where
  shaderAddrs : UInt64 → Option UInt32 := fun _ => none
  shaders : List Disassembly := []

/-- `is_valid_shader`. -/
def isValidShader (opcode : UInt32) (stage : ShaderStage) : Bool :=
  (isDispatchEventOpcode opcode && stage = .kShaderStageCs) ||
    (!isDispatchEventOpcode opcode && stage ≠ .kShaderStageCs)

/-- What passes the test in the loops of `HandleShaders`, in their order. -/
def shaderUses (t : RegisterTracker) (opcode : UInt32) : List ShaderUse :=
  (shaderStages.flatMap fun stage => shaderEnableBits.map fun enableBit =>
    (⟨stage, enableBit, t.getCurShaderAddr stage enableBit⟩ : ShaderUse)).filter fun u =>
      isValidShader opcode u.stage && u.address ≠ noShaderAddr && u.address ≠ 0

/-- A reference to a shader that was seen before. -/
def addReference (references : List ShaderReference) (reference : ShaderReference) :
    List ShaderReference :=
  if references.any (fun r => r.shaderIndex = reference.shaderIndex) then
    references.map fun r => if r.shaderIndex = reference.shaderIndex then
      { r with enableMask := r.enableMask ||| reference.enableMask } else r
  else references ++ [reference]

/-- The body of the loops of `HandleShaders`. -/
def handleShader (submitIndex : UInt32) (st : ShaderTable × List ShaderReference) (u : ShaderUse) :
    ShaderTable × List ShaderReference :=
  let enableMask := 1 <<< u.enableBit.toUInt32
  match st.1.shaderAddrs u.address with
  | some shaderIndex => (st.1, addReference st.2 ⟨shaderIndex, u.stage, enableMask⟩)
  | none =>
    let shaderIndex := UInt32.ofNat st.1.shaders.length
    ({ shaderAddrs := fun a => if a = u.address then some shaderIndex else st.1.shaderAddrs a
       shaders := st.1.shaders ++ [⟨submitIndex, u.address⟩] },
      st.2 ++ [⟨shaderIndex, u.stage, enableMask⟩])

/-- `HandleShaders`: the tables and the references of the event. -/
def handleShaders (submitIndex : UInt32) (uses : List ShaderUse) (table : ShaderTable) :
    ShaderTable × List ShaderReference :=
  uses.foldl (handleShader submitIndex) (table, [])

/-! ## The pass -/

/-- `EventInfo` with its shader references. No function reads `shaderUses`. -/
structure EventMetadata extends EventInfo where
  shaderReferences : List ShaderReference := []
  shaderUses : List ShaderUse := []

/-- `CaptureMetadataCreator` with its shaders. -/
structure ShaderMetadataCreator extends CaptureMetadataCreator where
  table : ShaderTable := {}
  events : List EventMetadata := []

namespace ShaderMetadataCreator

variable (s : ShaderMetadataCreator) (info : Pm4Info)

/-- The shader part of `OnPacket`, for the event that the packet has added. -/
def addShaders (p : CapturedPacket) (event : EventInfo) : ShaderMetadataCreator :=
  if event.type = .kDraw ∨ event.type = .kDispatch then
    let uses := shaderUses s.stateTracker p.header.type7Opcode
    let (table, references) := handleShaders p.submitIndex uses s.table
    { s with
      table := table
      events := s.events ++ [{ event with shaderReferences := references, shaderUses := uses }] }
  else { s with events := s.events ++ [{ event with }] }

/-- `OnPacket`. -/
def onPacket (p : CapturedPacket) : Option (Bool × ShaderMetadataCreator) :=
  (s.toCaptureMetadataCreator.onPacket info p).map fun (reply, m) =>
    let s' := { s with toCaptureMetadataCreator := m }
    match m.eventInfo.drop s.eventInfo.length with
    | [] => (reply, s')
    | event :: _ => (reply, s'.addShaders p event)

/-- The callbacks of the pass. -/
def callbacks : EmulateCallbacks ShaderMetadataCreator where
  onSubmitStart := fun _ s =>
    { s with toCaptureMetadataCreator := s.toCaptureMetadataCreator.onSubmitStart }
  onIbStart := fun s _ ib _ => some (true, { s with stateTracker := s.stateTracker.onIbStart ib })
  onIbEnd := fun s _ _ => s.stateTracker.onIbEnd.map fun t => (true, { s with stateTracker := t })
  onPacket := fun s _ p => s.onPacket info p
  onSubmitEnd := fun _ s => s

end ShaderMetadataCreator

/-! ## Right references -/

/-- The address of the shader of a reference. -/
def ShaderReference.address (shaders : List Disassembly) (r : ShaderReference) : Option UInt64 :=
  (shaders[r.shaderIndex.toNat]?).map Disassembly.address

/-- The address is used in a mode. -/
def usedIn (uses : List ShaderUse) (a : UInt64) (enableBit : ShaderEnableBit) : Bool :=
  uses.any fun u => u.address = a && u.enableBit = enableBit

/-- The modes in which an address is used. -/
def usedMask (uses : List ShaderUse) (a : UInt64) : UInt32 :=
  (if usedIn uses a .kBINNING then 1 else 0) ||| (if usedIn uses a .kGMEM then 2 else 0) |||
    (if usedIn uses a .kSYSMEM then 4 else 0)

/-- Every shader that is used is referenced once, with the modes in which it is used, and nothing
else is referenced. -/
structure References (shaders : List Disassembly) (uses : List ShaderUse)
    (references : List ShaderReference) : Prop where
  once : (references.map (·.address shaders)).Nodup
  found : none ∉ references.map (·.address shaders)
  used : ∀ a, some a ∈ references.map (·.address shaders) ↔ a ∈ uses.map ShaderUse.address
  masks : ∀ r ∈ references, ∀ a, r.address shaders = some a → r.enableMask = usedMask uses a

/-- The references of an event are right, and what is disassembled for them is what the submit of
the event sees. -/
structure EventMetadata.Right (m : MemoryManager) (shaders : List Disassembly) (e : EventMetadata) :
    Prop where
  references : References shaders e.shaderUses e.shaderReferences
  data : ∀ r ∈ e.shaderReferences, ∀ d, shaders[r.shaderIndex.toNat]? = some d →
    d.data m = (⟨e.submitIndex, d.address⟩ : Disassembly).data m

/-! ## The modes of an address -/

section References

variable {uses : List ShaderUse} {u : ShaderUse} {a : UInt64} {shaders new : List Disassembly}
  {references : List ShaderReference} {reference : ShaderReference}

theorem usedIn_concat (uses : List ShaderUse) (u : ShaderUse) (a : UInt64)
    (enableBit : ShaderEnableBit) : usedIn (uses ++ [u]) a enableBit =
      (usedIn uses a enableBit || (u.address = a && u.enableBit = enableBit)) := by
  simp [usedIn]

theorem usedMask_concat_self (uses : List ShaderUse) (u : ShaderUse) :
    usedMask (uses ++ [u]) u.address =
      usedMask uses u.address ||| 1 <<< u.enableBit.toUInt32 := by
  simp only [usedMask, usedIn_concat]
  generalize usedIn uses u.address .kBINNING = b₀
  generalize usedIn uses u.address .kGMEM = b₁
  generalize usedIn uses u.address .kSYSMEM = b₂
  cases u.enableBit <;> cases b₀ <;> cases b₁ <;> cases b₂ <;> simp <;> decide

theorem usedMask_concat_of_ne (uses : List ShaderUse) (h : a ≠ u.address) :
    usedMask (uses ++ [u]) a = usedMask uses a := by
  simp [usedMask, usedIn_concat, Ne.symm h]

theorem usedMask_of_notMem (h : a ∉ uses.map ShaderUse.address) : usedMask uses a = 0 := by
  have hno : ∀ enableBit, usedIn uses a enableBit = false := by
    intro enableBit
    rw [← Bool.not_eq_true, usedIn, List.any_eq_true]
    rintro ⟨u, hu, heq⟩
    have hboth : u.address = a ∧ u.enableBit = enableBit := by simpa using heq
    exact h (hboth.1 ▸ List.mem_map_of_mem hu)
  simp [usedMask, hno]

/-! ## One use -/

theorem References.address_append (h : References shaders uses references)
    {r : ShaderReference} (hr : r ∈ references) (new : List Disassembly) :
    r.address (shaders ++ new) = r.address shaders := by
  have hfound : r.address shaders ≠ none := fun hnone =>
    h.found (hnone ▸ List.mem_map_of_mem hr)
  have hlt : r.shaderIndex.toNat < shaders.length := by
    by_contra hle
    refine hfound ?_
    rw [ShaderReference.address, List.getElem?_eq_none (not_lt.mp hle)]
    rfl
  rw [ShaderReference.address, ShaderReference.address, List.getElem?_append_left hlt]

theorem References.append_shaders (h : References shaders uses references)
    (new : List Disassembly) : References (shaders ++ new) uses references := by
  have hmap : references.map (·.address (shaders ++ new)) = references.map (·.address shaders) :=
    List.map_congr_left fun r hr => h.address_append hr new
  refine ⟨hmap ▸ h.once, hmap ▸ h.found, hmap ▸ h.used, fun r hr a ha => ?_⟩
  rw [h.address_append hr] at ha
  exact h.masks r hr a ha

theorem References.concat (h : References shaders uses references)
    (hnew : u.address ∉ uses.map ShaderUse.address)
    (haddress : reference.address shaders = some u.address)
    (hmask : reference.enableMask = 1 <<< u.enableBit.toUInt32) :
    References shaders (uses ++ [u]) (references ++ [reference]) := by
  have hnot : some u.address ∉ references.map (·.address shaders) := (h.used _).not.mpr hnew
  refine ⟨?_, ?_, fun a => ?_, fun r hr a ha => ?_⟩
  · rw [List.map_append, List.nodup_append]
    refine ⟨h.once, List.nodup_singleton _, fun x hx y hy heq => ?_⟩
    rw [List.map_singleton, List.mem_singleton, haddress] at hy
    exact hnot (hy ▸ heq ▸ hx)
  · simp [haddress, h.found]
  · rw [List.map_append, List.mem_append, h.used, List.map_append, List.mem_append]
    simp [haddress, eq_comm]
  · rcases List.mem_append.mp hr with hr | hr
    · have hne : a ≠ u.address := fun heq => hnot (heq ▸ ha ▸ List.mem_map_of_mem hr)
      rw [usedMask_concat_of_ne _ hne]
      exact h.masks r hr a ha
    · rw [List.mem_singleton] at hr
      subst hr
      obtain rfl : u.address = a := Option.some.inj (haddress.symm.trans ha)
      rw [usedMask_concat_self, usedMask_of_notMem hnew, UInt32.zero_or]
      exact hmask

theorem References.merge (h : References shaders uses references) {index mask : UInt32}
    (hindex : ∀ r ∈ references, r.shaderIndex = index ↔ r.address shaders = some u.address)
    (hmem : ∃ r ∈ references, r.shaderIndex = index) (hmask : mask = 1 <<< u.enableBit.toUInt32) :
    References shaders (uses ++ [u]) (references.map fun r =>
      if r.shaderIndex = index then { r with enableMask := r.enableMask ||| mask } else r) := by
  have hmap : (references.map fun r => if r.shaderIndex = index then
      { r with enableMask := r.enableMask ||| mask } else r).map (·.address shaders) =
      references.map (·.address shaders) := by
    rw [List.map_map]
    refine List.map_congr_left fun r _ => ?_
    rw [Function.comp_apply]
    split_ifs <;> rfl
  have huse : u.address ∈ uses.map ShaderUse.address := by
    obtain ⟨r, hr, hri⟩ := hmem
    rw [← h.used, ← (hindex r hr).mp hri]
    exact List.mem_map_of_mem hr
  refine ⟨hmap ▸ h.once, hmap ▸ h.found, fun a => ?_, fun r' hr' a ha => ?_⟩
  · rw [hmap, h.used, List.map_append, List.mem_append, List.map_singleton, List.mem_singleton]
    exact ⟨.inl, fun ha => ha.elim id fun ha => ha ▸ huse⟩
  · obtain ⟨r, hr, rfl⟩ := List.mem_map.mp hr'
    by_cases hri : r.shaderIndex = index
    · simp only [if_pos hri] at ha ⊢
      have hr₁ := (hindex r hr).mp hri
      obtain rfl : u.address = a := Option.some.inj (hr₁.symm.trans ha)
      rw [usedMask_concat_self, h.masks r hr _ hr₁, hmask]
    · simp only [if_neg hri] at ha ⊢
      have hne : a ≠ u.address := fun heq => hri ((hindex r hr).mpr (heq ▸ ha))
      rw [usedMask_concat_of_ne _ hne]
      exact h.masks r hr a ha

end References

/-! ## The loops -/

/-- The tables and the references after some uses, from the table `start`. -/
structure Handled (submitIndex : UInt32) (start : ShaderTable) (uses : List ShaderUse)
    (st : ShaderTable × List ShaderReference) : Prop where
  interned : Interned UInt32.ofNat st.1.shaderAddrs (st.1.shaders.map Disassembly.address)
  grown : ∃ new, st.1.shaders = start.shaders ++ new ∧
    ∀ d ∈ new, d.submitIndex = submitIndex ∧ d.address ∈ uses.map ShaderUse.address
  covered : ∀ u ∈ uses, u.address ∈ st.1.shaders.map Disassembly.address
  references : st.1.shaders.length ≤ 2 ^ 32 → References st.1.shaders uses st.2

variable {submitIndex : UInt32} {start : ShaderTable} {uses : List ShaderUse} {u : ShaderUse}
  {st : ShaderTable × List ShaderReference}

theorem references_nil (shaders : List Disassembly) : References shaders [] [] :=
  ⟨List.nodup_nil, List.not_mem_nil, fun a => by simp, fun r hr => absurd hr List.not_mem_nil⟩

/-- **One use.** -/
theorem Handled.step (h : Handled submitIndex start uses st) (u : ShaderUse) :
    Handled submitIndex start (uses ++ [u]) (handleShader submitIndex st u) := by
  obtain ⟨new, hnew, hmem⟩ := h.grown
  have hlast : u.address ∈ (uses ++ [u]).map ShaderUse.address := by simp
  have hmore : ∀ a ∈ uses.map ShaderUse.address, a ∈ (uses ++ [u]).map ShaderUse.address := by
    intro a ha
    rw [List.map_append]
    exact List.mem_append_left _ ha
  rw [handleShader]
  cases hlookup : st.1.shaderAddrs u.address with
  | some index =>
    dsimp only
    obtain ⟨k, hk, rfl⟩ := (h.interned.lookup _ _).mp hlookup
    have hmemAddr : u.address ∈ st.1.shaders.map Disassembly.address := List.mem_of_getElem? hk
    refine ⟨h.interned, ⟨new, hnew, fun d hd => ⟨(hmem d hd).1, hmore _ (hmem d hd).2⟩⟩,
      fun u' hu' => ?_, fun hlen => ?_⟩
    · rcases List.mem_append.mp hu' with hu' | hu'
      · exact h.covered u' hu'
      · rw [List.mem_singleton.mp hu']
        exact hmemAddr
    · have hlen : st.1.shaders.length ≤ 2 ^ 32 := hlen
      have href := h.references hlen
      have hklt : k < 2 ^ 32 := by
        have := (List.getElem?_eq_some_iff.mp hk).1
        rw [List.length_map] at this
        omega
      have hkNat : (UInt32.ofNat k).toNat = k := by
        rw [UInt32.toNat_ofNat', Nat.mod_eq_of_lt hklt]
      have hindex : ∀ r : ShaderReference, r.shaderIndex = UInt32.ofNat k ↔
          r.address st.1.shaders = some u.address := by
        intro r
        rw [ShaderReference.address, ← List.getElem?_map]
        constructor
        · intro heq
          rw [heq, hkNat, hk]
        · intro heq
          rw [← h.interned.position_unique heq hk, UInt32.ofNat_toNat]
      rw [addReference]
      split_ifs with hany
      · obtain ⟨r, hr, heq⟩ := List.any_eq_true.mp hany
        exact href.merge (fun r _ => hindex r) ⟨r, hr, of_decide_eq_true heq⟩ rfl
      · refine href.concat (fun huse => hany ?_) ((hindex _).mp rfl) rfl
        obtain ⟨r, hr, heq⟩ := List.mem_map.mp ((href.used _).mpr huse)
        exact List.any_eq_true.mpr ⟨r, hr, decide_eq_true ((hindex r).mpr heq)⟩
  | none =>
    dsimp only
    have hnot := h.interned.eq_none_iff.mp hlookup
    refine ⟨?_, ⟨new ++ [⟨submitIndex, u.address⟩], ?_, fun d hd => ?_⟩, fun u' hu' => ?_,
      fun hlen => ?_⟩
    · have hadd := h.interned.add hlookup
      rw [List.length_map] at hadd
      simpa using hadd
    · rw [← List.append_assoc, ← hnew]
    · rcases List.mem_append.mp hd with hd | hd
      · exact ⟨(hmem d hd).1, hmore _ (hmem d hd).2⟩
      · rw [List.mem_singleton.mp hd]
        exact ⟨rfl, hlast⟩
    · rw [List.map_append]
      rcases List.mem_append.mp hu' with hu' | hu'
      · exact List.mem_append_left _ (h.covered u' hu')
      · rw [List.mem_singleton.mp hu']
        exact List.mem_append_right _ (List.mem_singleton_self _)
    · have hlt : st.1.shaders.length < 2 ^ 32 := by
        rw [List.length_append, List.length_singleton] at hlen
        omega
      refine ((h.references hlt.le).append_shaders _).concat (fun huse => ?_) ?_ rfl
      · obtain ⟨u', hu', heq⟩ := List.mem_map.mp huse
        exact hnot (heq ▸ h.covered u' hu')
      · rw [ShaderReference.address, UInt32.toNat_ofNat', Nat.mod_eq_of_lt hlt]
        simp

/-- **All uses of an event.** -/
theorem handled_handleShaders {table : ShaderTable}
    (h : Interned UInt32.ofNat table.shaderAddrs (table.shaders.map Disassembly.address))
    (submitIndex : UInt32) (uses : List ShaderUse) :
    Handled submitIndex table uses (handleShaders submitIndex uses table) := by
  induction uses using List.reverseRecOn with
  | nil =>
    exact ⟨h, ⟨[], (List.append_nil _).symm, fun d hd => absurd hd List.not_mem_nil⟩,
      fun u hu => absurd hu List.not_mem_nil, fun _ => references_nil _⟩
  | append_singleton uses u ih =>
    rw [handleShaders, List.foldl_append]
    exact ih.step u

/-! ## A run of the pass -/

theorem CaptureMetadataCreator.eventInfo_onPacket {info : Pm4Info} {p : CapturedPacket}
    {m m' : CaptureMetadataCreator} {reply : Bool} (h : m.onPacket info p = some (reply, m')) :
    m'.eventInfo = m.eventInfo ∨
      ∃ event, m'.eventInfo = m.eventInfo ++ [event] ∧ event.submitIndex = p.submitIndex := by
  obtain ⟨t, -, h⟩ := Option.bind_eq_some_iff.mp h
  dsimp only at h
  split_ifs at h
  · cases h
    exact .inl rfl
  · obtain ⟨m₁, hadd, h⟩ := Option.map_eq_some_iff.mp h
    cases h
    have hmarker : ∀ m : CaptureMetadataCreator, (m.setMarker p).eventInfo = m.eventInfo := by
      intro m
      unfold setMarker
      split_ifs <;> rfl
    obtain ⟨isEvent, -, hadd⟩ := Option.bind_eq_some_iff.mp hadd
    cases isEvent with
    | false =>
      cases hadd
      exact .inl (hmarker _)
    | true =>
      obtain ⟨type, -, rfl⟩ := Option.map_eq_some_iff.mp hadd
      refine .inr ⟨_, congrArg (· ++ _) (hmarker _), rfl⟩

namespace ShaderMetadataCreator

variable {s s' : ShaderMetadataCreator} {info : Pm4Info} {memManager : IMemoryManager}

/-- What every state of the pass has. -/
structure Recorded (s : ShaderMetadataCreator) : Prop where
  interned : Interned UInt32.ofNat s.table.shaderAddrs (s.table.shaders.map Disassembly.address)
  used : ∀ d ∈ s.table.shaders, ∃ e ∈ s.events, e.submitIndex = d.submitIndex ∧
    d.address ∈ e.shaderUses.map ShaderUse.address
  covered : ∀ e ∈ s.events, ∀ u ∈ e.shaderUses,
    u.address ∈ s.table.shaders.map Disassembly.address
  references : s.table.shaders.length ≤ 2 ^ 32 →
    ∀ e ∈ s.events, References s.table.shaders e.shaderUses e.shaderReferences

theorem recorded_start : Recorded {} :=
  ⟨.empty, fun _ hd => absurd hd List.not_mem_nil, fun _ he => absurd he List.not_mem_nil,
    fun _ _ he => absurd he List.not_mem_nil⟩

/-- **One event.** -/
theorem Recorded.addShaders (h : Recorded s) {p : CapturedPacket} {event : EventInfo}
    (hsubmit : event.submitIndex = p.submitIndex) : Recorded (s.addShaders p event) := by
  unfold ShaderMetadataCreator.addShaders
  split_ifs
  · generalize shaderUses s.stateTracker p.header.type7Opcode = uses
    have hhandled := handled_handleShaders h.interned p.submitIndex uses
    dsimp only
    generalize handleShaders p.submitIndex uses s.table = st at hhandled
    obtain ⟨new, hnew, hmem⟩ := hhandled.grown
    refine ⟨hhandled.interned, fun d hd => ?_, fun e he u hu => ?_, fun hlen e he => ?_⟩
    · change d ∈ st.1.shaders at hd
      rw [hnew] at hd
      rcases List.mem_append.mp hd with hd | hd
      · obtain ⟨e, he, huse⟩ := h.used d hd
        exact ⟨e, List.mem_append_left _ he, huse⟩
      · refine ⟨_, List.mem_append_right _ (List.mem_singleton_self _), ?_, (hmem d hd).2⟩
        exact hsubmit.trans (hmem d hd).1.symm
    · change u.address ∈ st.1.shaders.map Disassembly.address
      rcases List.mem_append.mp he with he | he
      · rw [hnew, List.map_append]
        exact List.mem_append_left _ (h.covered e he u hu)
      · rw [List.mem_singleton.mp he] at hu
        exact hhandled.covered u hu
    · change st.1.shaders.length ≤ 2 ^ 32 at hlen
      change References st.1.shaders _ _
      rcases List.mem_append.mp he with he | he
      · rw [hnew] at hlen ⊢
        rw [List.length_append] at hlen
        exact (h.references (by omega) e he).append_shaders new
      · rw [List.mem_singleton.mp he]
        exact hhandled.references hlen
  · refine ⟨h.interned, fun d hd => ?_, fun e he u hu => ?_, fun hlen e he => ?_⟩
    · obtain ⟨e, he, huse⟩ := h.used d hd
      exact ⟨e, List.mem_append_left _ he, huse⟩
    · rcases List.mem_append.mp he with he | he
      · exact h.covered e he u hu
      · rw [List.mem_singleton.mp he] at hu
        exact absurd hu List.not_mem_nil
    · rcases List.mem_append.mp he with he | he
      · exact h.references hlen e he
      · rw [List.mem_singleton.mp he]
        exact references_nil _

/-- **One call.** -/
theorem Recorded.next (h : Recorded s) {c : Call}
    (hstep : (callbacks info).next memManager s c = some s') : Recorded s' := by
  obtain ⟨⟨reply, s₁⟩, hreply, rfl⟩ := Option.map_eq_some_iff.mp hstep
  cases c with
  | submitStart submitIndex =>
    cases hreply
    exact ⟨h.interned, h.used, h.covered, h.references⟩
  | submitEnd submitIndex =>
    cases hreply
    exact h
  | event submitIndex e =>
    cases e with
    | ibStart q ibIndex ib ibType =>
      cases hreply
      exact ⟨h.interned, h.used, h.covered, h.references⟩
    | ibEnd ibIndex ib =>
      obtain ⟨t, -, hreply⟩ := Option.map_eq_some_iff.mp hreply
      cases hreply
      exact ⟨h.interned, h.used, h.covered, h.references⟩
    | packet ibIndex va hd =>
      obtain ⟨⟨reply', m⟩, hm, hreply⟩ := Option.map_eq_some_iff.mp hreply
      have hbase : Recorded { s with toCaptureMetadataCreator := m } :=
        ⟨h.interned, h.used, h.covered, h.references⟩
      dsimp only at hreply
      rcases CaptureMetadataCreator.eventInfo_onPacket hm with hsame | ⟨event, hadd, hsubmit⟩
      · rw [hsame, List.drop_length] at hreply
        cases hreply
        exact hbase
      · rw [hadd, List.drop_left] at hreply
        cases hreply
        exact hbase.addShaders hsubmit

theorem recorded_run {calls : List Call}
    (h : Monitor.run ((callbacks info).next memManager) {} calls = some s) : Recorded s :=
  Monitor.run_invariant recorded_start h fun _ _ _ _ hv hw => hv.next hw

/-! ## What is right -/

/-- The addresses of the shaders that the events use. -/
def usedAddresses (s : ShaderMetadataCreator) : List UInt64 :=
  (s.events.flatMap fun e => e.shaderUses.map ShaderUse.address).dedup

/-- Where events use the same address, their submits see the same bytes. -/
def SameBytes (m : MemoryManager) (s : ShaderMetadataCreator) : Prop :=
  ∀ e ∈ s.events, ∀ e' ∈ s.events, ∀ u ∈ e.shaderUses, ∀ u' ∈ e'.shaderUses,
    u.address = u'.address → (⟨e.submitIndex, u.address⟩ : Disassembly).data m =
      (⟨e'.submitIndex, u.address⟩ : Disassembly).data m

theorem Recorded.length_usedAddresses (h : Recorded s) :
    s.usedAddresses.length = s.table.shaders.length := by
  have hperm : s.usedAddresses.Perm (s.table.shaders.map Disassembly.address) := by
    refine (List.perm_ext_iff_of_nodup (List.nodup_dedup _) h.interned.nodup).mpr fun a => ?_
    rw [List.mem_dedup, List.mem_flatMap]
    constructor
    · rintro ⟨e, he, ha⟩
      obtain ⟨u, hu, rfl⟩ := List.mem_map.mp ha
      exact h.covered e he u hu
    · intro ha
      obtain ⟨d, hd, rfl⟩ := List.mem_map.mp ha
      obtain ⟨e, he, -, huse⟩ := h.used d hd
      exact ⟨e, he, huse⟩
  rw [hperm.length_eq, List.length_map]

theorem exists_shader {shaders : List Disassembly} {uses : List ShaderUse}
    {references : List ShaderReference} (h : References shaders uses references) {u : ShaderUse}
    (hu : u ∈ uses) : ∃ r ∈ references, ∃ d, shaders[r.shaderIndex.toNat]? = some d ∧
      d.address = u.address := by
  obtain ⟨r, hr, ha⟩ := List.mem_map.mp ((h.used _).mpr (List.mem_map_of_mem hu))
  obtain ⟨d, hd, ha⟩ := Option.map_eq_some_iff.mp ha
  exact ⟨r, hr, d, hd, ha⟩

/-- **Shader references.** After any calls, every event references each of its shaders once, with
the modes that use it and the bytes that its own submit sees, exactly when events that use the same
address see the same bytes there and the number of addresses is in the range of a shader index. -/
theorem right_iff (info : Pm4Info) (m : MemoryManager) (calls : List Call)
    (s : ShaderMetadataCreator)
    (hrun : Monitor.run ((callbacks info).next m.toInterface) {} calls = some s) :
    (∀ e ∈ s.events, e.Right m s.table.shaders) ↔
      SameBytes m s ∧ s.usedAddresses.length ≤ 2 ^ 32 := by
  have h := recorded_run hrun
  rw [h.length_usedAddresses]
  constructor
  · intro hright
    refine ⟨fun e he e' he' u hu u' hu' heq => ?_, ?_⟩
    · -- both events reference the one shader of the address
      obtain ⟨r, hr, d, hd, ha⟩ := exists_shader (hright e he).references hu
      obtain ⟨r', hr', d', hd', ha'⟩ := exists_shader (hright e' he').references hu'
      have hsame : d = d' := by
        have hk : (s.table.shaders.map Disassembly.address)[r.shaderIndex.toNat]? =
            some u.address := by rw [List.getElem?_map, hd, Option.map_some, ha]
        have hk' : (s.table.shaders.map Disassembly.address)[r'.shaderIndex.toNat]? =
            some u.address := by rw [List.getElem?_map, hd', Option.map_some, ha', heq]
        rw [h.interned.position_unique hk hk', hd'] at hd
        exact (Option.some.inj hd).symm
      subst hsame
      rw [← ha, ← (hright e he).data r hr d hd, ← (hright e' he').data r' hr' d hd']
    · by_contra hlt
      obtain ⟨d, hd⟩ : ∃ d, s.table.shaders[2 ^ 32]? = some d :=
        ⟨_, List.getElem?_eq_getElem (not_le.mp hlt)⟩
      obtain ⟨e, he, -, huse⟩ := h.used d (List.mem_of_getElem? hd)
      obtain ⟨u, hu, ha⟩ := List.mem_map.mp huse
      obtain ⟨r, hr, d', hd', ha'⟩ := exists_shader (hright e he).references hu
      have hk : (s.table.shaders.map Disassembly.address)[2 ^ 32]? = some u.address := by
        rw [List.getElem?_map, hd, Option.map_some, ha]
      have hk' : (s.table.shaders.map Disassembly.address)[r.shaderIndex.toNat]? =
          some u.address := by rw [List.getElem?_map, hd', Option.map_some, ha']
      have hpos := h.interned.position_unique hk hk'
      have hrange := r.shaderIndex.toNat_lt
      omega
  · rintro ⟨hsame, hlen⟩ e he
    have hreferences := h.references hlen e he
    refine ⟨hreferences, fun r hr d hd => ?_⟩
    obtain ⟨e', he', hsubmit, huse'⟩ := h.used d (List.mem_of_getElem? hd)
    obtain ⟨u', hu', ha'⟩ := List.mem_map.mp huse'
    have ha : r.address s.table.shaders = some d.address := by
      rw [ShaderReference.address, hd, Option.map_some]
    obtain ⟨u, hu, huse⟩ := List.mem_map.mp ((hreferences.used d.address).mp
      (List.mem_map.mpr ⟨r, hr, ha⟩))
    have hbytes := hsame e' he' e he u' hu' u hu (ha'.trans huse.symm)
    rw [ha', hsubmit] at hbytes
    exact hbytes

/-! ## Two submits -/

theorem alwaysGoesOn (info : Pm4Info) (memManager : IMemoryManager) :
    (callbacks info).AlwaysGoesOn memManager := by
  intro s c reply h
  cases c with
  | submitStart submitIndex =>
    cases h
    rfl
  | submitEnd submitIndex =>
    cases h
    rfl
  | event submitIndex e =>
    cases e with
    | ibStart q ibIndex ib ibType =>
      cases h
      rfl
    | ibEnd ibIndex ib =>
      obtain ⟨t, -, rfl⟩ := Option.map_eq_some_iff.mp h
      rfl
    | packet ibIndex va hd =>
      obtain ⟨⟨reply', m⟩, hm, rfl⟩ := Option.map_eq_some_iff.mp h
      have hreply : reply' = true := CaptureMetadataCreator.alwaysGoesOn info memManager
        s.toCaptureMetadataCreator (.event submitIndex (.packet ibIndex va hd)) _ hm
      dsimp only
      split <;> exact hreply

theorem next_write {submitIndex : UInt32} {ibIndex dword : ℕ} {va : UInt64} {hd : Pm4Header}
    {offset value : UInt32} (h7 : hd.type ≠ 7)
    (hwrites : (⟨memManager, submitIndex, va, hd⟩ : CapturedPacket).regWrites info.regInfo =
      [⟨offset, dword, value⟩]) (hoffset : offset.toNat < kNumRegs) :
    (callbacks info).next memManager s (.event submitIndex (.packet ibIndex va hd)) = some { s with
      numPm4Packets := s.numPm4Packets + 1
      stateTracker := { s.stateTracker with
        reg := fun plane r => if s.stateTracker.enables plane && r = offset then value
          else s.stateTracker.reg plane r
        regIsSet := fun plane r => (s.stateTracker.enables plane && r = offset) ||
          s.stateTracker.regIsSet plane r } } := by
  have hmarker : hd.isOpcode CP_SET_MARKER = false := by simp [Pm4Header.isOpcode, h7]
  have htracker : s.stateTracker.onPacket info.regInfo ⟨memManager, submitIndex, va, hd⟩ =
      s.stateTracker.setReg offset value := by
    rw [RegisterTracker.onPacket, hmarker, hwrites]
    simp
  have hbase : s.toCaptureMetadataCreator.onPacket info ⟨memManager, submitIndex, va, hd⟩ =
      some (true, { s.toCaptureMetadataCreator with
        numPm4Packets := s.numPm4Packets + 1
        stateTracker := { s.stateTracker with
          reg := fun plane r => if s.stateTracker.enables plane && r = offset then value
            else s.stateTracker.reg plane r
          regIsSet := fun plane r => (s.stateTracker.enables plane && r = offset) ||
            s.stateTracker.regIsSet plane r } }) := by
    rw [CaptureMetadataCreator.onPacket, htracker, RegisterTracker.setReg, if_pos hoffset,
      Option.bind_some]
    exact if_pos h7
  show (s.onPacket info ⟨memManager, submitIndex, va, hd⟩).map Prod.snd = _
  rw [ShaderMetadataCreator.onPacket, hbase, Option.map_some, Option.map_some]
  dsimp only
  rw [List.drop_length]

/-- In either submit, the address of a vertex shader and a draw. -/
def shaderDwords : List UInt32 := [0x48a81c01, 0x2000, 0x70a48000]

/-- Two submits with different bytes at the address of the shader. -/
def reusedMemory : MemoryManager := { memoryBlocks :=
  [.ofDwords 0x1000 shaderDwords, .ofDwords 0x2000 [1],
    { MemoryBlock.ofDwords 0x1000 shaderDwords with submitIndex := 1 },
    { MemoryBlock.ofDwords 0x2000 [2] with submitIndex := 1 }] }

def shaderSubmit : SubmitInfo :=
  ⟨.kUniversal, .kUniversal, 0, false, [{ vaAddr := 0x1000, sizeInDwords := 3 }]⟩

def shaderTrace : List Event := [
  .ibStart ⟨.kNormal, 0x1000, 3, false, 7⟩ 0 ⟨0x1000, 3, 1, 7, false⟩ .kNormal,
  .packet 0 0x1000 ⟨0x48a81c01⟩, .packet 0 0x1008 ⟨0x70a48000⟩,
  .ibEnd 0 ⟨0x1000, 3, 0, 0, false⟩]

def shaderCalls (submitIndex : UInt32) : List Call :=
  .submitStart submitIndex :: shaderTrace.map (.event submitIndex) ++ [.submitEnd submitIndex]

theorem shader_succeeds (submitIndex : UInt32) (h : submitIndex = 0 ∨ submitIndex = 1) :
    Emulation.Succeeds ⟨reusedMemory.toInterface, submitIndex, fun _ _ => true⟩ shaderSubmit.ibs
      shaderTrace := by
  rcases h with rfl | rfl
  · exact Emulation.succeeds_of_successTrace (n := 7) (by rfl)
  · exact Emulation.succeeds_of_successTrace (n := 7) (by rfl)

theorem shader_writes (submitIndex : UInt32) (h : submitIndex = 0 ∨ submitIndex = 1) :
    (⟨reusedMemory.toInterface, submitIndex, 0x1000, ⟨0x48a81c01⟩⟩ : CapturedPacket).regWrites
      noInfo.regInfo = [⟨0xa81c, 0, 0x2000⟩] := by
  have hvalue : (⟨reusedMemory.toInterface, submitIndex, 0x1000, ⟨0x48a81c01⟩⟩ :
      CapturedPacket).type4Write 0 = ⟨0xa81c, 0, 0x2000⟩ := by
    rcases h with rfl | rfl
    · rfl
    · rfl
  have hcount : 1 = (⟨0x48a81c01⟩ : Pm4Header).type4Count.toNat := by decide
  have hopcode : (⟨0x48a81c01⟩ : Pm4Header).isOpcode CP_CONTEXT_REG_BUNCH = false := by decide
  have htype : (⟨0x48a81c01⟩ : Pm4Header).type = 4 := by decide
  generalize hp : (⟨reusedMemory.toInterface, submitIndex, 0x1000, ⟨0x48a81c01⟩⟩ :
    CapturedPacket) = p at hvalue ⊢
  have hheader : p.header = ⟨0x48a81c01⟩ := by rw [← hp]
  rw [← hheader] at hcount hopcode htype
  rw [CapturedPacket.regWrites_type4 hopcode htype,
    CapturedPacket.type4Writes_of_whole 1 0 hcount (by rfl), ← hvalue]
  rfl

theorem next_draw (s : ShaderMetadataCreator) (submitIndex : UInt32) (va : UInt64) :
    (callbacks noInfo).next memManager s (.event submitIndex (.packet 0 va ⟨0x70a48000⟩)) =
      some (addShaders { s with
        numPm4Packets := s.numPm4Packets + 1
        eventInfo := s.eventInfo ++ [⟨submitIndex, .kDraw, s.currentRenderMode⟩] }
        ⟨memManager, submitIndex, va, ⟨0x70a48000⟩⟩
        ⟨submitIndex, .kDraw, s.currentRenderMode⟩) := by
  have htype : (⟨0x70a48000⟩ : Pm4Header).type = 7 := by decide
  have hopcode₁ : (⟨0x70a48000⟩ : Pm4Header).isOpcode CP_SET_MARKER = false := by decide
  have hopcode₂ : (⟨0x70a48000⟩ : Pm4Header).isOpcode CP_CONTEXT_REG_BUNCH = false := by decide
  have hmarker : (⟨0x70a48000⟩ : Pm4Header).type7Opcode ≠ CP_SET_MARKER := by decide
  have hevent : isDrawDispatchEventOpcode (⟨0x70a48000⟩ : Pm4Header).type7Opcode = true := by decide
  have hdraw : isDrawEventOpcode (⟨0x70a48000⟩ : Pm4Header).type7Opcode = true := by decide
  have htracker : s.stateTracker.onPacket noInfo.regInfo
      ⟨memManager, submitIndex, va, ⟨0x70a48000⟩⟩ = some s.stateTracker := by
    simp [RegisterTracker.onPacket, CapturedPacket.regWrites, hopcode₁, hopcode₂, htype]
  have hbase : s.toCaptureMetadataCreator.onPacket noInfo ⟨memManager, submitIndex, va,
      ⟨0x70a48000⟩⟩ = some (true, { s.toCaptureMetadataCreator with
        numPm4Packets := s.numPm4Packets + 1
        eventInfo := s.eventInfo ++ [⟨submitIndex, .kDraw, s.currentRenderMode⟩] }) := by
    simp [CaptureMetadataCreator.onPacket, htracker, htype, CaptureMetadataCreator.setMarker,
      hmarker, CaptureMetadataCreator.addEvent, Util.isEvent, hevent, Util.getEventType, hdraw]
  show (s.onPacket noInfo ⟨memManager, submitIndex, va, ⟨0x70a48000⟩⟩).map Prod.snd = _
  rw [ShaderMetadataCreator.onPacket, hbase, Option.map_some, Option.map_some]
  dsimp only
  rw [List.drop_left]

/-- The vertex shader, in all modes. -/
def vertexUses : List ShaderUse :=
  shaderEnableBits.map fun enableBit => ⟨.kShaderStageVs, enableBit, 0x2000⟩

def vertexTracker : RegisterTracker :=
  { reg := fun _ r => if r = 0xa81c then 0x2000 else 0
    regIsSet := fun _ r => r = 0xa81c }

theorem shaderUses_congr {t t' : RegisterTracker} (hreg : t.reg = t'.reg)
    (hset : t.regIsSet = t'.regIsSet) (opcode : UInt32) :
    shaderUses t opcode = shaderUses t' opcode := by
  have haddr : t.getCurShaderAddr = t'.getCurShaderAddr := by
    funext stage enableBit
    simp [RegisterTracker.getCurShaderAddr, RegisterTracker.getReg64Value, hreg, hset]
  rw [shaderUses, haddr, shaderUses]

theorem run_vertex (s : ShaderMetadataCreator) (submitIndex : UInt32)
    (h : submitIndex = 0 ∨ submitIndex = 1) :
    ∃ s', Monitor.run ((callbacks noInfo).next reusedMemory.toInterface) s
        [.submitStart submitIndex,
          .event submitIndex (.ibStart ⟨.kNormal, 0x1000, 3, false, 7⟩ 0 ⟨0x1000, 3, 1, 7, false⟩
            .kNormal),
          .event submitIndex (.packet 0 0x1000 ⟨0x48a81c01⟩)] = some s' ∧
      s'.table = s.table ∧ s'.events = s.events ∧ s'.currentRenderMode = .kUnknown ∧
      s'.stateTracker.enableMaskStack ≠ [] ∧
      shaderUses s'.stateTracker (⟨0x70a48000⟩ : Pm4Header).type7Opcode = vertexUses := by
  let started : ShaderMetadataCreator := { s with
    stateTracker := s.stateTracker.reset.onIbStart ⟨0x1000, 3, 1, 7, false⟩
    currentRenderMode := .kUnknown }
  have hstart : Monitor.run ((callbacks noInfo).next reusedMemory.toInterface) s
      [.submitStart submitIndex,
        .event submitIndex (.ibStart ⟨.kNormal, 0x1000, 3, false, 7⟩ 0 ⟨0x1000, 3, 1, 7, false⟩
          .kNormal)] = some started := rfl
  refine ⟨_, (Monitor.run_append_of hstart).trans <| Monitor.run_cons_of <|
    next_write (s := started) (by decide) (shader_writes submitIndex h) (by decide),
    rfl, rfl, rfl, List.cons_ne_nil _ _, ?_⟩
  have henables : ∀ plane, ({ toEmulateStateTracker := s.stateTracker.pushEnableMask 7 } :
      RegisterTracker).enables plane = true := by
    intro plane
    show ((7 : UInt32) &&& (1 <<< plane.toUInt32) != 0) = true
    cases plane <;> decide
  refine (@shaderUses_congr _ vertexTracker ?_ ?_ _).trans (by decide)
  · funext plane r
    simp [henables, vertexTracker, started, RegisterTracker.onIbStart, RegisterTracker.reset]
  · funext plane r
    simp [henables, vertexTracker, started, RegisterTracker.onIbStart, RegisterTracker.reset]

theorem run_shaderCalls (s : ShaderMetadataCreator) (submitIndex : UInt32)
    (h : submitIndex = 0 ∨ submitIndex = 1) :
    ∃ s', Monitor.run ((callbacks noInfo).next reusedMemory.toInterface) s
        (shaderCalls submitIndex) = some s' ∧
      s'.table = (handleShaders submitIndex vertexUses s.table).1 ∧
      s'.events = s.events ++ [⟨⟨submitIndex, .kDraw, .kUnknown⟩,
        (handleShaders submitIndex vertexUses s.table).2, vertexUses⟩] := by
  obtain ⟨s₁, hrun, htable, hevents, hmode, hstack, huses⟩ := run_vertex s submitIndex h
  obtain ⟨mask, masks, hmasks⟩ := List.exists_cons_of_ne_nil hstack
  have hadded := @next_draw reusedMemory.toInterface s₁ submitIndex 0x1008
  rw [addShaders, if_pos (.inl rfl)] at hadded
  dsimp only at hadded
  rw [huses, htable, hevents, hmode] at hadded
  generalize hs₂ : ShaderMetadataCreator.mk _ _ _ = s₂ at hadded
  have hend : (callbacks noInfo).next reusedMemory.toInterface s₂
      (.event submitIndex (.ibEnd 0 ⟨0x1000, 3, 0, 0, false⟩)) = some { s₂ with
        stateTracker := { s₂.stateTracker with
          toEmulateStateTracker := ⟨mask, masks⟩ } } := by
    subst hs₂
    show ((RegisterTracker.onIbEnd _).map _).map Prod.snd = _
    rw [RegisterTracker.onIbEnd, EmulateStateTracker.popEnableMask]
    dsimp only
    rw [hmasks]
    rfl
  subst hs₂
  exact ⟨_, (Monitor.run_append_of hrun).trans <| (Monitor.run_cons_of hadded).trans <|
    (Monitor.run_cons_of hend).trans rfl, rfl, rfl⟩

theorem shaderCalls_of_submit (s : ShaderMetadataCreator) (submitIndex : UInt32)
    (h : submitIndex = 0 ∨ submitIndex = 1) :
    (callbacks noInfo).SubmitCalls reusedMemory.toInterface submitIndex shaderSubmit s
      (shaderCalls submitIndex) := by
  refine ⟨shaderTrace, rfl, ?_⟩
  have hparses : EmulateCallbacks.parses shaderSubmit = true := by decide
  rw [if_pos hparses, (alwaysGoesOn _ _).emulation_eq]
  exact shader_succeeds submitIndex h

/-- The second submit references the shader of the first one. -/
theorem reused_shader : ∃ calls s, (callbacks noInfo).ProcessSubmits reusedMemory.toInterface 0
    [shaderSubmit, shaderSubmit] {} calls s ∧
    ¬ ∀ e ∈ s.events, e.Right reusedMemory s.table.shaders := by
  obtain ⟨s₁, hrun₁, htable₁, hevents₁⟩ := run_shaderCalls {} 0 (.inl rfl)
  obtain ⟨s₂, hrun₂, htable₂, hevents₂⟩ := run_shaderCalls s₁ 1 (.inr rfl)
  refine ⟨_, s₂, .cons (shaderCalls_of_submit _ _ (.inl rfl)) hrun₁ <|
    .cons (shaderCalls_of_submit _ _ (.inr rfl)) hrun₂ (.nil _ _), fun hright => ?_⟩
  rw [htable₁] at htable₂ hevents₂
  have hevent := hright _ (hevents₂ ▸ List.mem_append_right _ (List.mem_singleton_self _))
  have hdata := hevent.data ⟨0, .kShaderStageVs, 7⟩ (by decide) ⟨0, 0x2000⟩
    (htable₂ ▸ (by decide))
  exact absurd hdata (by decide)

/-- In one submit an address has one shader, which is found for it. -/
theorem right_iff_oneSubmit : ∃ s,
    Monitor.run ((callbacks noInfo).next reusedMemory.toInterface) {} (shaderCalls 0) = some s ∧
      s.events ≠ [] ∧ ∀ e ∈ s.events, e.Right reusedMemory s.table.shaders := by
  obtain ⟨s, hrun, -, hevents⟩ := run_shaderCalls {} 0 (.inl rfl)
  refine ⟨s, hrun, by simp [hevents], (right_iff noInfo reusedMemory (shaderCalls 0) s hrun).mpr
    ⟨fun e he e' he' u _ u' _ _ => ?_, ?_⟩⟩
  · rw [hevents] at he he'
    rw [List.mem_singleton.mp he, List.mem_singleton.mp he']
  · rw [usedAddresses, hevents]
    decide

end ShaderMetadataCreator

end Dive
