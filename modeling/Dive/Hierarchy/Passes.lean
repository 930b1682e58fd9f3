import Dive.Hierarchy.Creator
import Dive.Hierarchy.EventInfo
import Dive.Memory.Image
import Dive.Pm4.Order
import Dive.Rd.Load

/-!
# The metadata pass and the hierarchy pass

* `EmulateCallbacks`: a class derived from `EmulateCallbacksBase`; `ProcessSubmits` emulates the
  submits one after the other and makes the calls.
* `CaptureMetadataCreator`, `HierarchyPass`: the two passes, each with a tracker of its own.
* `Agree`: the `k`-th event node has the type of the `k`-th entry of the event info.
* **`passes_agree`**: both passes get the same calls, and agree after each of them.
* `toInterface_afterLookups`: what one pass looks up does not change what the other one reads.
-/

namespace Dive

open Pm4CaptureData (SubmitInfo)

/-! ## Callbacks -/

/-- The calls over all submits. -/
inductive Call
  | submitStart (submitIndex : UInt32)
  | event (submitIndex : UInt32) (e : Event)
  | submitEnd (submitIndex : UInt32)

/-- The virtual functions of `EmulateCallbacksBase`: the reply, where there is one, and the state
afterwards. -/
structure EmulateCallbacks (S : Type) where
  onSubmitStart : UInt32 → S → S
  onIbStart : S → ℕ → IndirectBufferInfo → IbType → Option (Bool × S)
  onIbEnd : S → ℕ → IndirectBufferInfo → Option (Bool × S)
  onPacket : S → ℕ → CapturedPacket → Option (Bool × S)
  onSubmitEnd : UInt32 → S → S

namespace EmulateCallbacks

variable {S : Type} (C : EmulateCallbacks S) (memManager : IMemoryManager)

/-- One call and the reply to it. -/
def onCall (s : S) : Call → Option (Bool × S)
  | .submitStart submitIndex => some (true, C.onSubmitStart submitIndex s)
  | .event _ (.ibStart _ ibIndex info ibType) => C.onIbStart s ibIndex info ibType
  | .event _ (.ibEnd ibIndex info) => C.onIbEnd s ibIndex info
  | .event submitIndex (.packet ibIndex va hd) =>
    C.onPacket s ibIndex ⟨memManager, submitIndex, va, hd⟩
  | .submitEnd submitIndex => some (true, C.onSubmitEnd submitIndex s)

/-- The state after one call. -/
def next (s : S) (c : Call) : Option S := (C.onCall memManager s c).map Prod.snd

/-- The emulation of a submit from `s` on, which depends on the replies. -/
def emulation (submitIndex : UInt32) (s : S) : Emulation where
  memManager := memManager
  submitIndex := submitIndex
  callbacks := fun trace e =>
    ((Monitor.run (C.next memManager) s (trace.map (.event submitIndex))).bind fun s =>
      C.onCall memManager s (.event submitIndex e)).elim true Prod.fst

/-- Only graphics and compute submits are parsed, and no dummy ones. -/
def parses (submit : SubmitInfo) : Bool :=
  !submit.isDummySubmit && (submit.engineType = .kUniversal || submit.engineType = .kCompute)

/-- The calls for one submit, if `ExecuteSubmit` returns true on it. -/
def SubmitCalls (submitIndex : UInt32) (submit : SubmitInfo) (s : S) (calls : List Call) : Prop :=
  ∃ trace : List Event,
    calls = .submitStart submitIndex :: trace.map (.event submitIndex) ++ [.submitEnd submitIndex] ∧
    if parses submit then
      (C.emulation memManager submitIndex (C.onSubmitStart submitIndex s)).Succeeds submit.ibs trace
    else trace = []

/-- `ProcessSubmits` returns true, after these calls; the first submit has the index `k`. -/
inductive ProcessSubmits : ℕ → List SubmitInfo → S → List Call → S → Prop
  | nil (k : ℕ) (s : S) : ProcessSubmits k [] s [] s
  | cons {k : ℕ} {submit : SubmitInfo} {submits : List SubmitInfo} {s s' s'' : S}
      {calls calls' : List Call} (hcalls : C.SubmitCalls memManager (UInt32.ofNat k) submit s calls)
      (hrun : Monitor.run (C.next memManager) s calls = some s')
      (hrest : ProcessSubmits (k + 1) submits s' calls' s'') :
      ProcessSubmits k (submit :: submits) s (calls ++ calls') s''

end EmulateCallbacks

/-! ## The metadata pass -/

inductive RenderModeType
  | kDirect
  | kBinningVis
  | kBinningDirect
  | kTiled
  | kResolve
  | kDispatch
  | kUnknown
  deriving DecidableEq

/-- The render mode after a marker. -/
def RenderModeType.ofMarker (u32All0 : UInt32) : RenderModeType :=
  match (u32All0 &&& 0xf).toNat with
  -- RM6_DIRECT_RENDER
  | 1 => .kDirect
  -- RM6_BIN_VISIBILITY
  | 2 => .kBinningVis
  -- RM6_BIN_DIRECT
  | 3 => .kBinningDirect
  -- RM6_BIN_RENDER_START
  | 4 => .kTiled
  -- RM6_BIN_END_OF_DRAWS
  | 5 => .kUnknown
  -- RM6_BIN_RESOLVE
  | 6 => .kResolve
  -- RM6_BIN_RENDER_END
  | 7 => .kUnknown
  -- RM6_COMPUTE
  | 8 => .kDispatch
  | _ => .kUnknown

/-- `EventInfo`, without what describes the event further. -/
structure EventInfo where
  submitIndex : UInt32
  type : EventType
  renderMode : RenderModeType
  deriving DecidableEq

/-- `CaptureMetadataCreator`, with the metadata that it fills. -/
structure CaptureMetadataCreator where
  stateTracker : RegisterTracker := {}
  currentRenderMode : RenderModeType := .kUnknown
  numPm4Packets : ℕ := 0
  eventInfo : List EventInfo := []

namespace CaptureMetadataCreator

variable (m : CaptureMetadataCreator) (info : Pm4Info)

/-- `OnSubmitStart`. -/
def onSubmitStart : CaptureMetadataCreator :=
  { m with stateTracker := m.stateTracker.reset, currentRenderMode := .kUnknown }

/-- The `CP_SET_MARKER` part of `OnPacket`. -/
def setMarker (p : CapturedPacket) : CaptureMetadataCreator :=
  if p.header.type7Opcode = CP_SET_MARKER then
    { m with currentRenderMode := .ofMarker p.markerDword }
  else m

/-- The event part of `OnPacket`. -/
def addEvent (p : CapturedPacket) : Option CaptureMetadataCreator :=
  (Util.isEvent info p p.header.type7Opcode m.stateTracker).bind fun isEvent =>
    if isEvent then
      (Util.getEventType info p p.header.type7Opcode m.stateTracker).map fun type =>
        { m with eventInfo := m.eventInfo ++ [⟨p.submitIndex, type, m.currentRenderMode⟩] }
    else some m

/-- `OnPacket`. -/
def onPacket (p : CapturedPacket) : Option (Bool × CaptureMetadataCreator) :=
  (m.stateTracker.onPacket info.regInfo p).bind fun stateTracker =>
    let m := { m with numPm4Packets := m.numPm4Packets + 1, stateTracker := stateTracker }
    if p.header.type ≠ 7 then some (true, m)
    else ((m.setMarker p).addEvent info p).map fun m => (true, m)

/-- The callbacks of the pass. -/
def callbacks : EmulateCallbacks CaptureMetadataCreator where
  onSubmitStart := fun _ m => m.onSubmitStart
  onIbStart := fun m _ ib _ => some (true, { m with stateTracker := m.stateTracker.onIbStart ib })
  onIbEnd := fun m _ _ => m.stateTracker.onIbEnd.map fun t => (true, { m with stateTracker := t })
  onPacket := fun m _ p => m.onPacket info p
  onSubmitEnd := fun _ m => m

end CaptureMetadataCreator

/-! ## The hierarchy pass -/

/-- The `AuxInfo` of an event node. -/
structure EventNode where
  eventId : UInt32
  type : EventType
  ignoreDuringCorrelation : Bool
  deriving DecidableEq

/-- `CommandHierarchyCreator` with its tracker, and the event nodes in order of creation. -/
structure HierarchyPass extends CommandHierarchyCreator where
  stateTracker : RegisterTracker := {}
  numEvents : UInt32 := 0
  eventNodes : List EventNode := []

namespace HierarchyPass

variable (h : HierarchyPass) (info : Pm4Info)

/-- `OnSubmitStart`. -/
def onSubmitStart (submitIndex : UInt32) : HierarchyPass :=
  { h with
    toCommandHierarchyCreator := h.toCommandHierarchyCreator.onSubmitStart submitIndex.toNat
    stateTracker := h.stateTracker.reset }

/-- The event part of `OnPacket`. -/
def addEvent (p : CapturedPacket) : Option HierarchyPass :=
  let opcode := if p.header.type = 7 then p.header.type7Opcode else noOpcode
  (Util.isEvent info p opcode h.stateTracker).bind fun isEvent =>
    if isEvent then
      (Util.getEventType info p opcode h.stateTracker).map fun type =>
        { h with
          numEvents := h.numEvents + 1
          eventNodes := h.eventNodes ++
            [⟨h.numEvents, type, Util.shouldIgnoreEventDuringCorrelation p⟩] }
    else some h

/-- `OnPacket`; `extra` is the number of nodes that are added after the packet node. -/
def onPacket (extra : ℕ → ℕ) (p : CapturedPacket) : Option (Bool × HierarchyPass) :=
  (h.stateTracker.onPacket info.regInfo p).bind fun stateTracker =>
    let h := { h with
      toCommandHierarchyCreator := h.toCommandHierarchyCreator.onPacket extra p.header
      stateTracker := stateTracker }
    if p.header.type ≠ 4 ∧ p.header.type ≠ 7 then some (true, h)
    else (h.addEvent info p).map fun h => (true, h)

/-- `OnIbEnd`. -/
def onIbEnd : Option (Bool × HierarchyPass) :=
  h.stateTracker.onIbEnd.bind fun stateTracker =>
    h.toCommandHierarchyCreator.onIbEnd.map fun C =>
      (true, { h with toCommandHierarchyCreator := C, stateTracker := stateTracker })

/-- `OnSubmitEnd` adds a node for each of the `presents` after the submit. -/
def onSubmitEnd (presents : UInt32 → ℕ) (submitIndex : UInt32) : HierarchyPass :=
  { h with nodes := h.nodes ++ List.replicate (presents submitIndex) .other }

/-- The callbacks of the pass. -/
def callbacks (extra : ℕ → ℕ) (presents : UInt32 → ℕ) : EmulateCallbacks HierarchyPass where
  onSubmitStart := fun submitIndex h => h.onSubmitStart submitIndex
  onIbStart := fun h ibIndex ib ibType => some (true, { h with
    toCommandHierarchyCreator := h.toCommandHierarchyCreator.onIbStart ibIndex ib ibType
    stateTracker := h.stateTracker.onIbStart ib })
  onIbEnd := fun h _ _ => h.onIbEnd
  onPacket := fun h _ p => h.onPacket info extra p
  onSubmitEnd := fun submitIndex h => h.onSubmitEnd presents submitIndex

end HierarchyPass

/-! ## Replies -/

namespace EmulateCallbacks

variable {S S' : Type} {C : EmulateCallbacks S} {C' : EmulateCallbacks S'}
  {memManager : IMemoryManager} {submitIndex : UInt32} {submit : SubmitInfo}

/-- The pass lets the emulation go on after every call. -/
def AlwaysGoesOn (C : EmulateCallbacks S) (memManager : IMemoryManager) : Prop :=
  ∀ s c reply, C.onCall memManager s c = some reply → reply.1 = true

theorem AlwaysGoesOn.emulation_eq (h : C.AlwaysGoesOn memManager) (submitIndex : UInt32) (s : S) :
    C.emulation memManager submitIndex s = ⟨memManager, submitIndex, fun _ _ => true⟩ := by
  unfold emulation
  congr 1
  funext trace e
  cases hreply : (Monitor.run (C.next memManager) s (trace.map (.event submitIndex))).bind fun s =>
      C.onCall memManager s (.event submitIndex e) with
  | none => rfl
  | some reply =>
    obtain ⟨s', -, hs'⟩ := Option.bind_eq_some_iff.mp hreply
    exact h s' _ reply hs'

theorem SubmitCalls.unique (h : C.AlwaysGoesOn memManager) (h' : C'.AlwaysGoesOn memManager)
    {s : S} {s' : S'} {calls calls' : List Call}
    (hcalls : C.SubmitCalls memManager submitIndex submit s calls)
    (hcalls' : C'.SubmitCalls memManager submitIndex submit s' calls') : calls = calls' := by
  obtain ⟨trace, rfl, htrace⟩ := hcalls
  obtain ⟨trace', rfl, htrace'⟩ := hcalls'
  rw [h.emulation_eq] at htrace
  rw [h'.emulation_eq] at htrace'
  split_ifs at htrace htrace'
  · rw [(Emulation.submitRuns_of_succeeds htrace).unique (Emulation.submitRuns_of_succeeds htrace')]
  · rw [htrace, htrace']

theorem ProcessSubmits.run {k : ℕ} {submits : List SubmitInfo} {s s' : S} {calls : List Call}
    (h : C.ProcessSubmits memManager k submits s calls s') :
    Monitor.run (C.next memManager) s calls = some s' := by
  induction h with
  | nil k s => rfl
  | cons hcalls hrun hrest ih => rw [Monitor.run_append_of hrun, ih]

theorem ProcessSubmits.calls_unique (h : C.AlwaysGoesOn memManager)
    (h' : C'.AlwaysGoesOn memManager) {k : ℕ} {submits : List SubmitInfo} {s u : S} {s' u' : S'}
    {calls calls' : List Call} (hp : C.ProcessSubmits memManager k submits s calls u)
    (hp' : C'.ProcessSubmits memManager k submits s' calls' u') : calls = calls' := by
  induction hp generalizing s' calls' with
  | nil k s =>
    cases hp'
    rfl
  | cons hcalls hrun hrest ih =>
    cases hp' with
    | cons hcalls' hrun' hrest' => rw [hcalls.unique h h' hcalls', ih hrest']

end EmulateCallbacks

variable {info : Pm4Info} {extra : ℕ → ℕ} {presents : UInt32 → ℕ} {memManager : IMemoryManager}

theorem CaptureMetadataCreator.alwaysGoesOn (info : Pm4Info) (memManager : IMemoryManager) :
    (callbacks info).AlwaysGoesOn memManager := by
  intro m c reply h
  cases c with
  | submitStart submitIndex =>
    cases h
    rfl
  | submitEnd submitIndex =>
    cases h
    rfl
  | event submitIndex e =>
    cases e with
    | ibStart q ibIndex ib ibType =>
      cases h
      rfl
    | ibEnd ibIndex ib =>
      obtain ⟨t, -, rfl⟩ := Option.map_eq_some_iff.mp h
      rfl
    | packet ibIndex va hd =>
      obtain ⟨t, -, h⟩ := Option.bind_eq_some_iff.mp h
      dsimp only at h
      split_ifs at h
      · cases h
        rfl
      · obtain ⟨m', -, rfl⟩ := Option.map_eq_some_iff.mp h
        rfl

theorem HierarchyPass.alwaysGoesOn (info : Pm4Info) (extra : ℕ → ℕ) (presents : UInt32 → ℕ)
    (memManager : IMemoryManager) : (callbacks info extra presents).AlwaysGoesOn memManager := by
  intro m c reply h
  cases c with
  | submitStart submitIndex =>
    cases h
    rfl
  | submitEnd submitIndex =>
    cases h
    rfl
  | event submitIndex e =>
    cases e with
    | ibStart q ibIndex ib ibType =>
      cases h
      rfl
    | ibEnd ibIndex ib =>
      obtain ⟨t, -, h⟩ := Option.bind_eq_some_iff.mp h
      obtain ⟨C, -, rfl⟩ := Option.map_eq_some_iff.mp h
      rfl
    | packet ibIndex va hd =>
      obtain ⟨t, -, h⟩ := Option.bind_eq_some_iff.mp h
      dsimp only at h
      split_ifs at h
      · cases h
        rfl
      · obtain ⟨m', -, rfl⟩ := Option.map_eq_some_iff.mp h
        rfl

/-! ## Agreement -/

/-- **The `k`-th event node** has the number `k` (modulo `2 ^ 32`) and the type of the `k`-th entry
of the event info, and there are no others. -/
def Agree (m : CaptureMetadataCreator) (h : HierarchyPass) : Prop :=
  h.eventNodes.map (fun node => (node.eventId, node.type)) =
    m.eventInfo.zipIdx.map fun entry => (UInt32.ofNat entry.2, entry.1.type)

/-- The passes have the same registers and the same events. -/
structure InStep (m : CaptureMetadataCreator) (h : HierarchyPass) : Prop where
  tracker : m.stateTracker = h.stateTracker
  count : h.numEvents = UInt32.ofNat m.eventInfo.length
  agree : Agree m h

theorem InStep.addEvent {m m' : CaptureMetadataCreator} {h h' : HierarchyPass}
    {p : CapturedPacket} (hs : InStep m h) (h7 : p.header.type = 7)
    (hm : m.addEvent info p = some m') (hh : h.addEvent info p = some h') : InStep m' h' := by
  unfold CaptureMetadataCreator.addEvent at hm
  unfold HierarchyPass.addEvent at hh
  rw [if_pos h7, ← hs.tracker] at hh
  dsimp only at hh
  obtain ⟨isEvent, hevent, hm⟩ := Option.bind_eq_some_iff.mp hm
  rw [hevent, Option.bind_some] at hh
  cases isEvent with
  | false =>
    cases hm
    cases hh
    exact hs
  | true =>
    obtain ⟨type, htype, rfl⟩ := Option.map_eq_some_iff.mp hm
    rw [if_pos rfl, htype] at hh
    cases hh
    refine ⟨rfl, ?_, ?_⟩
    · simp [hs.count]
    · have hagree := hs.agree
      unfold Agree at hagree ⊢
      simp [hagree, hs.count, List.zipIdx_append]

theorem InStep.packet {m m' : CaptureMetadataCreator} {h h' : HierarchyPass}
    {p : CapturedPacket} {reply reply' : Bool} (hs : InStep m h)
    (hm : m.onPacket info p = some (reply, m'))
    (hh : h.onPacket info extra p = some (reply', h')) : InStep m' h' := by
  unfold CaptureMetadataCreator.onPacket at hm
  unfold HierarchyPass.onPacket at hh
  obtain ⟨t, ht, hm⟩ := Option.bind_eq_some_iff.mp hm
  rw [← hs.tracker, ht, Option.bind_some] at hh
  dsimp only at hm hh
  by_cases h7 : p.header.type = 7
  · rw [if_neg (not_not.mpr h7)] at hm
    rw [if_neg fun h => h.2 h7] at hh
    obtain ⟨m₁, hm₁, hm⟩ := Option.map_eq_some_iff.mp hm
    obtain ⟨h₁, hh₁, hh⟩ := Option.map_eq_some_iff.mp hh
    cases hm
    cases hh
    refine InStep.addEvent ⟨?_, ?_, ?_⟩ h7 hm₁ hh₁
    · unfold CaptureMetadataCreator.setMarker
      split_ifs <;> rfl
    · unfold CaptureMetadataCreator.setMarker
      split_ifs <;> exact hs.count
    · unfold CaptureMetadataCreator.setMarker
      split_ifs <;> exact hs.agree
  · rw [if_pos h7] at hm
    cases hm
    by_cases h4 : p.header.type = 4
    · -- the opcode of a packet of type 4 is `UINT32_MAX`
      rw [if_neg fun h => h.1 h4] at hh
      obtain ⟨h₁, hh₁, hh⟩ := Option.map_eq_some_iff.mp hh
      cases hh
      unfold HierarchyPass.addEvent at hh₁
      rw [if_neg h7] at hh₁
      cases hh₁
      exact ⟨rfl, hs.count, hs.agree⟩
    · rw [if_pos ⟨h4, h7⟩] at hh
      cases hh
      exact ⟨rfl, hs.count, hs.agree⟩

/-- **One call keeps the passes in step.** -/
theorem InStep.next {m m' : CaptureMetadataCreator} {h h' : HierarchyPass} {c : Call}
    (hs : InStep m h)
    (hm : (CaptureMetadataCreator.callbacks info).next memManager m c = some m')
    (hh : (HierarchyPass.callbacks info extra presents).next memManager h c = some h') :
    InStep m' h' := by
  obtain ⟨⟨reply, m₁⟩, hm₁, rfl⟩ := Option.map_eq_some_iff.mp hm
  obtain ⟨⟨reply', h₁⟩, hh₁, rfl⟩ := Option.map_eq_some_iff.mp hh
  cases c with
  | submitStart submitIndex =>
    cases hm₁
    cases hh₁
    exact ⟨congrArg RegisterTracker.reset hs.tracker, hs.count, hs.agree⟩
  | submitEnd submitIndex =>
    cases hm₁
    cases hh₁
    exact ⟨hs.tracker, hs.count, hs.agree⟩
  | event submitIndex e =>
    cases e with
    | ibStart q ibIndex ib ibType =>
      cases hm₁
      cases hh₁
      exact ⟨congrArg (RegisterTracker.onIbStart · ib) hs.tracker, hs.count, hs.agree⟩
    | ibEnd ibIndex ib =>
      obtain ⟨t, ht, hm₁⟩ := Option.map_eq_some_iff.mp hm₁
      obtain ⟨t', ht', hh₁⟩ := Option.bind_eq_some_iff.mp hh₁
      obtain ⟨C, -, hh₁⟩ := Option.map_eq_some_iff.mp hh₁
      cases hm₁
      cases hh₁
      rw [← hs.tracker, ht] at ht'
      exact ⟨Option.some.inj ht', hs.count, hs.agree⟩
    | packet ibIndex va hd => exact hs.packet hm₁ hh₁

/-- **Both passes recognise the same events.** On any memory and any submits, they get the same
calls, and after every one of them the event nodes are those that the event info describes. -/
theorem passes_agree {submits : List SubmitInfo} {flattenChainNodes : Bool}
    {calls calls' : List Call} {m : CaptureMetadataCreator} {h : HierarchyPass}
    (hm : (CaptureMetadataCreator.callbacks info).ProcessSubmits memManager 0 submits {} calls m)
    (hh : (HierarchyPass.callbacks info extra presents).ProcessSubmits memManager 0 submits
      { flattenChainNodes := flattenChainNodes } calls' h) :
    calls = calls' ∧ Agree m h ∧ ∀ cs, cs <+: calls → ∃ m₁ h₁,
      Monitor.run ((CaptureMetadataCreator.callbacks info).next memManager) {} cs = some m₁ ∧
      Monitor.run ((HierarchyPass.callbacks info extra presents).next memManager)
        { flattenChainNodes := flattenChainNodes } cs = some h₁ ∧ Agree m₁ h₁ := by
  have hsame : calls = calls' := hm.calls_unique (CaptureMetadataCreator.alwaysGoesOn info _)
    (HierarchyPass.alwaysGoesOn info extra presents _) hh
  subst hsame
  have hstart : InStep {} { flattenChainNodes := flattenChainNodes } := ⟨rfl, rfl, rfl⟩
  have hrelated : ∀ {cs m₁ h₁},
      Monitor.run ((CaptureMetadataCreator.callbacks info).next memManager) {} cs = some m₁ →
      Monitor.run ((HierarchyPass.callbacks info extra presents).next memManager)
        { flattenChainNodes := flattenChainNodes } cs = some h₁ → InStep m₁ h₁ :=
    fun hm₁ hh₁ => Monitor.run_related hstart hm₁ hh₁ fun _ _ _ _ _ _ hs hv hw => hs.next hv hw
  refine ⟨rfl, (hrelated hm.run hh.run).agree, ?_⟩
  rintro cs ⟨cs', rfl⟩
  obtain ⟨m₁, hm₁⟩ := Monitor.run_prefix hm.run
  obtain ⟨h₁, hh₁⟩ := Monitor.run_prefix hh.run
  exact ⟨m₁, h₁, hm₁, hh₁, (hrelated hm₁ hh₁).agree⟩

/-- **Both passes read the same memory.** Whatever was looked up before, in this pass or in the
other one, the emulator reads the same bytes from a finalized memory manager. -/
theorem toInterface_afterLookups {cold m : MemoryManager} (hm : cold.Finalized)
    (hcold : cold.lastUsedBlock = none) {history : List MemoryManager.Lookup}
    (hist : cold.afterLookups history = some m) (buffer : Buffer) (submitIndex : UInt32)
    (vaAddr : UInt64) {size : UInt64} (hs : 0 < size) :
    m.toInterface.retrieveMemoryData buffer submitIndex vaAddr size =
      cold.toInterface.retrieveMemoryData buffer submitIndex vaAddr size := by
  have hl0 : cold.LastReachable := fun b hb => by rw [hcold] at hb; cases hb
  obtain ⟨last, rfl, hl⟩ := MemoryManager.lastUsed_reachable hm hl0 history hist
  rw [toInterface_image hm.remember hl buffer submitIndex vaAddr hs,
    toInterface_image hm hl0 buffer submitIndex vaAddr hs]
  rfl

/-! ## A wait and a draw -/

/-- At `0x1000`, a marker, a `CP_WAIT_FOR_ME` and a draw. -/
def drawnMemory : IMemoryManager :=
  MemoryManager.toInterface { memoryBlocks :=
    [.ofDwords 0x1000 [0x70e50001, 1, 0x70138000, 0x70a48000]] }

def drawnSubmit : SubmitInfo :=
  ⟨.kUniversal, .kUniversal, 0, false, [{ vaAddr := 0x1000, sizeInDwords := 4 }]⟩

def drawnTrace : List Event := [
  .ibStart ⟨.kNormal, 0x1000, 4, false, 7⟩ 0 ⟨0x1000, 4, 1, 7, false⟩ .kNormal,
  .packet 0 0x1000 ⟨0x70e50001⟩, .packet 0 0x1008 ⟨0x70138000⟩, .packet 0 0x100c ⟨0x70a48000⟩,
  .ibEnd 0 ⟨0x1000, 4, 0, 0, false⟩]

def drawnCalls : List Call := .submitStart 0 :: drawnTrace.map (.event 0) ++ [.submitEnd 0]

/-- No register is described. -/
def noInfo : Pm4Info := ⟨fun _ => none, fun _ => 0xffffffff⟩

theorem drawn_succeeds :
    Emulation.Succeeds ⟨drawnMemory, 0, fun _ _ => true⟩ drawnSubmit.ibs drawnTrace :=
  Emulation.succeeds_of_successTrace (n := 9) (by rfl)

theorem drawn_metadata : (Monitor.run
    ((CaptureMetadataCreator.callbacks noInfo).next drawnMemory) {} drawnCalls).map
      (fun m => m.eventInfo.map EventInfo.type) = some [.kWaitForMe, .kDraw] := by rfl

theorem drawn_hierarchy : (Monitor.run
    ((HierarchyPass.callbacks noInfo (fun _ => 1) (fun _ => 0)).next drawnMemory) {}
      drawnCalls).isSome = true := by rfl

/-- A submit with a wait and a draw. -/
theorem passes_agree_drawn : ∃ m h,
    (CaptureMetadataCreator.callbacks noInfo).ProcessSubmits drawnMemory 0 [drawnSubmit] {}
      drawnCalls m ∧ m.eventInfo.map EventInfo.type = [.kWaitForMe, .kDraw] ∧ Agree m h := by
  obtain ⟨m, hm, htypes⟩ := Option.map_eq_some_iff.mp drawn_metadata
  obtain ⟨h, hh⟩ := Option.isSome_iff_exists.mp drawn_hierarchy
  have hmeta : (CaptureMetadataCreator.callbacks noInfo).ProcessSubmits drawnMemory 0 [drawnSubmit]
      {} (drawnCalls ++ []) m := by
    refine .cons ⟨drawnTrace, rfl, ?_⟩ hm (.nil 1 m)
    rw [(CaptureMetadataCreator.alwaysGoesOn noInfo drawnMemory).emulation_eq]
    exact drawn_succeeds
  have hhier : (HierarchyPass.callbacks noInfo (fun _ => 1) fun _ => 0).ProcessSubmits drawnMemory 0
      [drawnSubmit] {} (drawnCalls ++ []) h := by
    refine .cons ⟨drawnTrace, rfl, ?_⟩ hh (.nil 1 h)
    rw [(HierarchyPass.alwaysGoesOn noInfo _ _ drawnMemory).emulation_eq]
    exact drawn_succeeds
  rw [List.append_nil] at hmeta hhier
  exact ⟨m, h, hmeta, htypes, (passes_agree hmeta hhier).2.1⟩

end Dive
