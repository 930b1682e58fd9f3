import Dive.Gfxr.Json
import Dive.Lib.Monitor
import Dive.Lib.Since
import Mathlib.Data.List.Infix

/-!
# The annotation processor

* `DiveFunctionData`: one annotated Vulkan call, and what its name says (`begins`,
  `beginsRenderPass`, `endsRenderPass`, `draws`).
* **`writeBlockEnd`**: what the processor keeps of a call; `run`, of a sequence of calls.
* `recording`: what was recorded into a command buffer since it was last begun.
* **`writeBlockEnd_command`**, `writeBlockEnd_other`, `writeBlockEnd_submit`: what one call does.
-/

namespace Dive

/-! ## Calls -/

/-- The occurrences that the processor looks for in a name. -/
def keywords : List String :=
  ["vkBeginCommandBuffer", "vkCmdBeginRenderPass", "vkCmdEndRenderPass", "vkCmdDraw"]

/-- `std::string::find`, as a test. -/
def find (name keyword : String) : Bool := decide (keyword.toList <:+: name.toList)

/-- The name of a Vulkan function, which has at most one of the keywords. -/
structure FunctionName where
  text : String
  exclusive : (keywords.filter (find text)).length ≤ 1

namespace FunctionName

def vkBeginCommandBuffer : FunctionName := ⟨"vkBeginCommandBuffer", by decide⟩
def vkEndCommandBuffer : FunctionName := ⟨"vkEndCommandBuffer", by decide⟩
def vkCmdBeginRenderPass : FunctionName := ⟨"vkCmdBeginRenderPass", by decide⟩
def vkCmdEndRenderPass : FunctionName := ⟨"vkCmdEndRenderPass", by decide⟩
def vkCmdDraw : FunctionName := ⟨"vkCmdDraw", by decide⟩
def vkCmdBeginDebugUtilsLabelEXT : FunctionName := ⟨"vkCmdBeginDebugUtilsLabelEXT", by decide⟩
def vkCmdEndDebugUtilsLabelEXT : FunctionName := ⟨"vkCmdEndDebugUtilsLabelEXT", by decide⟩
def vkQueueSubmit : FunctionName := ⟨"vkQueueSubmit", by decide⟩
def vkQueueSubmit2 : FunctionName := ⟨"vkQueueSubmit2", by decide⟩
def vkQueueWaitIdle : FunctionName := ⟨"vkQueueWaitIdle", by decide⟩

end FunctionName

/-- A decoded call. -/
structure DiveFunctionData where
  name : FunctionName
  cmdBufferIndex : UInt32
  blockIndex : UInt64
  args : Json

namespace DiveFunctionData

variable (c : DiveFunctionData)

/-- `vkQueueSubmit` or `vkQueueSubmit2`. -/
def isSubmit : Bool := c.name.text == "vkQueueSubmit" || c.name.text == "vkQueueSubmit2"

/-- The argument `commandBuffer`; `none` also where its conversion throws. -/
def handle? : Option UInt64 := (c.args.get? "commandBuffer").bind Json.toUInt64?

/-- The call records a command into command buffer `h`. -/
def recordsInto (h : UInt64) : Bool := !c.isSubmit && c.handle? == some h

variable {c}

theorem recordsInto_iff {h : UInt64} :
    c.recordsInto h ↔ c.isSubmit = false ∧ c.handle? = some h := by
  simp [recordsInto]

theorem recordsInto_unique {h h' : UInt64} (hc : c.recordsInto h) (hc' : c.recordsInto h') :
    h = h' :=
  Option.some.inj ((recordsInto_iff.mp hc).2.symm.trans (recordsInto_iff.mp hc').2)

end DiveFunctionData

namespace DiveAnnotationProcessor

/-- A command, as it is stored. -/
structure VulkanCommandInfo where
  args : Json
  name : FunctionName
  index : UInt32

namespace VulkanCommandInfo

def of (c : DiveFunctionData) : VulkanCommandInfo := ⟨c.args, c.name, c.cmdBufferIndex⟩

variable (v : VulkanCommandInfo)

def begins : Bool := find v.name.text "vkBeginCommandBuffer"
def beginsRenderPass : Bool := find v.name.text "vkCmdBeginRenderPass"
def endsRenderPass : Bool := find v.name.text "vkCmdEndRenderPass"
def draws : Bool := find v.name.text "vkCmdDraw"

theorem exclusive_le : v.begins.toNat + v.beginsRenderPass.toNat + v.endsRenderPass.toNat +
    v.draws.toNat ≤ 1 := by
  have h := v.name.exclusive
  rw [← List.countP_eq_length_filter] at h
  simp only [keywords, List.countP_cons, List.countP_nil] at h
  have htoNat : ∀ b : Bool, b.toNat = if b then 1 else 0 := by
    intro b
    cases b <;> rfl
  simp only [begins, beginsRenderPass, endsRenderPass, draws, htoNat]
  omega

variable {v}

theorem of_begins (h : v.begins) :
    v.beginsRenderPass = false ∧ v.endsRenderPass = false ∧ v.draws = false := by
  have hle := v.exclusive_le
  rw [h, Bool.toNat_true] at hle
  simp only [← Bool.toNat_eq_zero]
  omega

theorem of_beginsRenderPass (h : v.beginsRenderPass) :
    v.begins = false ∧ v.endsRenderPass = false ∧ v.draws = false := by
  have hle := v.exclusive_le
  rw [h, Bool.toNat_true] at hle
  simp only [← Bool.toNat_eq_zero]
  omega

theorem of_draws (h : v.draws) :
    v.begins = false ∧ v.beginsRenderPass = false ∧ v.endsRenderPass = false := by
  have hle := v.exclusive_le
  rw [h, Bool.toNat_true] at hle
  simp only [← Bool.toNat_eq_zero]
  omega

end VulkanCommandInfo

/-! ## The state -/

structure SubmitInfo where
  /-- The commands before this submit that belong to no command buffer. -/
  noneCmdVkCommands : List VulkanCommandInfo
  vkCommandBufferHandles : List UInt64
  name : FunctionName

structure DrawCallCounts where
  /-- The draws of a command buffer. -/
  beginCommandBufferDrawCallCount : ℕ := 0
  /-- The draws of each of its render passes. -/
  renderPassDrawCallCounts : List ℕ := []
deriving DecidableEq

instance : Inhabited DrawCallCounts := ⟨{}⟩

/-- The members of `DiveAnnotationProcessor`. -/
structure State where
  noneCmdVkCommandsPerSubmitCache : List VulkanCommandInfo := []
  cmdVkCommandsCache : UInt64 → Option (List VulkanCommandInfo) := fun _ => none
  drawCallCountsMap : UInt64 → Option DrawCallCounts := fun _ => none
  submits : List SubmitInfo := []

/-- `operator[]` of a map, which adds an entry where there is none, and a change of the entry. -/
def modify {α : Type} [Inhabited α] (m : UInt64 → Option α) (key : UInt64) (f : α → α) :
    UInt64 → Option α :=
  Function.update m key (some (f ((m key).getD default)))

section Modify

variable {α : Type} [Inhabited α] (m : UInt64 → Option α) {key key' : UInt64} (f g : α → α)

@[simp] theorem modify_same : modify m key f key = some (f ((m key).getD default)) := by
  simp [modify]

@[simp] theorem modify_of_ne (h : key' ≠ key) : modify m key f key' = m key' := by
  simp [modify, h]

@[simp] theorem modify_modify : modify (modify m key f) key g = modify m key (g ∘ f) := by
  simp [modify]

end Modify

/-! ## The calls -/

/-- The handles in `pCommandBuffers` of the elements of `pSubmits`. -/
def submittedHandles (args : Json) : Option (List UInt64) :=
  if args.count "submitCount" then do
    let submits ← args.get? "pSubmits"
    let handles ← submits.values.mapM fun submit =>
      match submit.get? "pCommandBuffers" with
      | some commandBuffers => commandBuffers.values.mapM Json.toUInt64?
      | none => some []
    some handles.flatten
  else
    some []

namespace State

variable (s : State)

/-- A submit takes the commands before it. -/
def submit (handles : List UInt64) (name : FunctionName) : State :=
  { s with
    noneCmdVkCommandsPerSubmitCache := []
    submits := s.submits ++ [⟨s.noneCmdVkCommandsPerSubmitCache, handles, name⟩] }

/-- A command of a command buffer. -/
def recordCommand (cmdHandle : UInt64) (vkCmd : VulkanCommandInfo) : State :=
  let s :=
    if vkCmd.begins then
      { s with
        cmdVkCommandsCache := modify s.cmdVkCommandsCache cmdHandle fun _ => []
        drawCallCountsMap := modify s.drawCallCountsMap cmdHandle fun d =>
          { d with beginCommandBufferDrawCallCount := 0 } }
    else if vkCmd.beginsRenderPass then
      { s with
        drawCallCountsMap := modify s.drawCallCountsMap cmdHandle fun d =>
          { d with renderPassDrawCallCounts := d.renderPassDrawCallCounts ++ [0] } }
    else s
  let s :=
    { s with cmdVkCommandsCache := modify s.cmdVkCommandsCache cmdHandle (· ++ [vkCmd]) }
  if vkCmd.draws then
    { s with
      drawCallCountsMap := modify s.drawCallCountsMap cmdHandle fun d =>
        ⟨d.beginCommandBufferDrawCallCount + 1, d.renderPassDrawCallCounts.modifyLast (· + 1)⟩ }
  else s

/-- A command of no command buffer. -/
def noneCommand (vkCmd : VulkanCommandInfo) : State :=
  { s with noneCmdVkCommandsPerSubmitCache := s.noneCmdVkCommandsPerSubmitCache ++ [vkCmd] }

end State

/-- The end of a call. `none` is an exception. -/
def writeBlockEnd (s : State) (functionData : DiveFunctionData) : Option State :=
  if functionData.isSubmit then
    (submittedHandles functionData.args).map fun handles => s.submit handles functionData.name
  else if functionData.args.count "commandBuffer" then
    functionData.handle?.map fun cmdHandle =>
      s.recordCommand cmdHandle (VulkanCommandInfo.of functionData)
  else
    some (s.noneCommand (VulkanCommandInfo.of functionData))

/-- The state after a sequence of calls. -/
def run (cs : List DiveFunctionData) : Option State := Monitor.run writeBlockEnd {} cs

variable {s s' : State} {c : DiveFunctionData}

/-- **What one call does.** -/
theorem writeBlockEnd_cases (h : writeBlockEnd s c = some s') :
    (∃ handles, c.isSubmit = true ∧ submittedHandles c.args = some handles ∧
      s' = s.submit handles c.name) ∨
    (∃ key, c.recordsInto key ∧ s' = s.recordCommand key (VulkanCommandInfo.of c)) ∨
    (c.isSubmit = false ∧ c.handle? = none ∧ s' = s.noneCommand (VulkanCommandInfo.of c)) := by
  unfold writeBlockEnd at h
  split_ifs at h with hsubmit hcount
  · obtain ⟨handles, hhandles, rfl⟩ := Option.map_eq_some_iff.mp h
    exact .inl ⟨handles, hsubmit, hhandles, rfl⟩
  · obtain ⟨key, hkey, rfl⟩ := Option.map_eq_some_iff.mp h
    have hsubmit' := Bool.not_eq_true _ ▸ hsubmit
    exact .inr (.inl ⟨key, DiveFunctionData.recordsInto_iff.mpr ⟨hsubmit', hkey⟩, rfl⟩)
  · have hnone : c.args.get? "commandBuffer" = none := by simpa [Json.count] using hcount
    refine .inr (.inr ⟨Bool.not_eq_true _ ▸ hsubmit, ?_, (Option.some.inj h).symm⟩)
    rw [DiveFunctionData.handle?, hnone]
    rfl

/-! ## Recordings -/

section Recording

variable (key : UInt64)

/-- The commands that a sequence of calls records into a command buffer. -/
def commandsOn (cs : List DiveFunctionData) : List VulkanCommandInfo :=
  (cs.filter (·.recordsInto key)).map VulkanCommandInfo.of

/-- **The current recording of a command buffer**: its commands since it was last begun. -/
def recording (cs : List DiveFunctionData) : List VulkanCommandInfo :=
  (commandsOn key cs).sinceLast VulkanCommandInfo.begins

variable {key} {cs : List DiveFunctionData}

theorem commandsOn_append (cs cs' : List DiveFunctionData) :
    commandsOn key (cs ++ cs') = commandsOn key cs ++ commandsOn key cs' := by
  simp [commandsOn]

theorem commandsOn_singleton_of (h : c.recordsInto key) :
    commandsOn key [c] = [VulkanCommandInfo.of c] := by
  simp [commandsOn, h]

theorem commandsOn_singleton_of_not (h : c.recordsInto key = false) : commandsOn key [c] = [] := by
  simp [commandsOn, h]

theorem recording_concat (h : c.recordsInto key) :
    recording key (cs ++ [c]) = if (VulkanCommandInfo.of c).begins then [VulkanCommandInfo.of c]
      else recording key cs ++ [VulkanCommandInfo.of c] := by
  rw [recording, commandsOn_append, commandsOn_singleton_of h, List.sinceLast_concat]
  rfl

theorem recording_concat_of_not (h : c.recordsInto key = false) :
    recording key (cs ++ [c]) = recording key cs := by
  rw [recording, commandsOn_append, commandsOn_singleton_of_not h, List.append_nil]
  rfl

end Recording

/-- A command of command buffer `key` without further arguments. -/
def createCommandData (name : FunctionName) (key : UInt64) : DiveFunctionData :=
  ⟨name, 0, 0, .object [("commandBuffer", .unsigned key)]⟩

/-! ## One command buffer -/

section Key

variable {key key' : UInt64} {v : VulkanCommandInfo} {cs : List DiveFunctionData} {p : State}

theorem State.recordCommand_cache : (s.recordCommand key v).cmdVkCommandsCache =
    modify s.cmdVkCommandsCache key fun l => if v.begins then [v] else l ++ [v] := by
  by_cases hb : v.begins <;> by_cases hr : v.beginsRenderPass <;> by_cases hd : v.draws <;>
    simp [State.recordCommand, hb, hr, hd, Function.comp_def]

theorem State.recordCommand_counts_of_ne (hkey : key' ≠ key) :
    (s.recordCommand key v).drawCallCountsMap key' = s.drawCallCountsMap key' := by
  by_cases hb : v.begins <;> by_cases hr : v.beginsRenderPass <;> by_cases hd : v.draws <;>
    simp [State.recordCommand, hb, hr, hd, hkey]

@[simp] theorem State.recordCommand_submits : (s.recordCommand key v).submits = s.submits := by
  by_cases hb : v.begins <;> by_cases hr : v.beginsRenderPass <;> by_cases hd : v.draws <;>
    simp [State.recordCommand, hb, hr, hd]

theorem writeBlockEnd_of_recordsInto (hc : c.recordsInto key) (h : writeBlockEnd s c = some s') :
    s' = s.recordCommand key (VulkanCommandInfo.of c) := by
  have hiff := DiveFunctionData.recordsInto_iff.mp hc
  obtain ⟨handles, hsubmit, -, -⟩ | ⟨k, hk, rfl⟩ | ⟨-, hnone, -⟩ := writeBlockEnd_cases h
  · rw [hiff.1] at hsubmit
    cases hsubmit
  · rw [DiveFunctionData.recordsInto_unique hc hk]
  · rw [hiff.2] at hnone
    cases hnone

theorem writeBlockEnd_of_not (hc : c.recordsInto key = false) (h : writeBlockEnd s c = some s') :
    s'.cmdVkCommandsCache key = s.cmdVkCommandsCache key ∧
      s'.drawCallCountsMap key = s.drawCallCountsMap key := by
  obtain ⟨handles, -, -, rfl⟩ | ⟨k, hk, rfl⟩ | ⟨-, -, rfl⟩ := writeBlockEnd_cases h
  · exact ⟨rfl, rfl⟩
  · have hkey : key ≠ k := by
      rintro rfl
      rw [hk] at hc
      cases hc
    refine ⟨?_, State.recordCommand_counts_of_ne hkey⟩
    rw [State.recordCommand_cache, modify_of_ne _ _ hkey]
  · exact ⟨rfl, rfl⟩

/-- **The cache holds the current recordings.** -/
theorem cache_eq_recording (h : run cs = some p) :
    p.cmdVkCommandsCache key =
      if commandsOn key cs = [] then none else some (recording key cs) := by
  refine Monitor.run_history (P := fun cs p => p.cmdVkCommandsCache key =
      if commandsOn key cs = [] then none else some (recording key cs)) rfl ?_ h
  intro t v a w ih hw
  by_cases ha : a.recordsInto key
  · rw [writeBlockEnd_of_recordsInto ha hw, State.recordCommand_cache, modify_same, ih,
      recording_concat ha, commandsOn_append, commandsOn_singleton_of ha]
    by_cases hempty : commandsOn key t = []
    · have hnil : recording key t = [] := by simp [recording, hempty]
      simp [hempty, hnil, default]
    · simp [hempty]
  · rw [(writeBlockEnd_of_not (Bool.not_eq_true _ ▸ ha) hw).1, ih,
      recording_concat_of_not (Bool.not_eq_true _ ▸ ha), commandsOn_append,
      commandsOn_singleton_of_not (Bool.not_eq_true _ ▸ ha), List.append_nil]

end Key

end DiveAnnotationProcessor

end Dive
