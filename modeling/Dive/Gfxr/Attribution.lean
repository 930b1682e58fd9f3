import Dive.Gfxr.Hierarchy

/-!
# Submitted command buffers

* `VkSubmitInfo`, `VkSubmitInfo2`, `QueueSubmit`: the arguments of a submit, and the JSON that the
  annotation writes for them (`toJson`).
* `VulkanCall`: a call of a capture; `submitted`: the handles that it submits, `found`: those that
  the processor finds; **`submits_handles`**: what it keeps of a capture.
* `Attributed`: each submit has its handles, in order, and the hierarchy is built.
* **`attributed_iff`**: the exact condition; `submittedWithInfo2_not_attributed` does not meet it.
-/

namespace List

variable {α β : Type*} {f g : α → Option β}

theorem filterMap_eq_filterMap_iff (h : ∀ a, (f a).isSome = (g a).isSome) {l : List α} :
    l.filterMap f = l.filterMap g ↔ ∀ a ∈ l, f a = g a := by
  induction l with
  | nil => simp
  | cons a l ih =>
    have ha := h a
    rw [forall_mem_cons, ← ih]
    cases hf : f a <;> cases hg : g a
    · rw [filterMap_cons_none hf, filterMap_cons_none hg, eq_self, true_and]
    · simp [hf, hg] at ha
    · simp [hf, hg] at ha
    · rw [filterMap_cons_some hf, filterMap_cons_some hg, cons.injEq, Option.some.injEq]

end List

namespace Dive.VulkanExportDiveConsumer

open DiveAnnotationProcessor GfxrVulkanCommandHierarchyCreator

/-! ## Arguments -/

/-- `FieldToJson` of an array. Nothing is written for an empty one. -/
def arrayToJson : List Json → Json
  | [] => .null
  | elements => .array elements

/-- `HandleToJson` of an array. -/
def handlesToJson (handles : List UInt64) : Json := arrayToJson (handles.map Json.unsigned)

def countToJson {α : Type} (l : List α) : Json := .unsigned (UInt64.ofNat l.length)

@[simp] theorem values_arrayToJson (elements : List Json) :
    (arrayToJson elements).values = elements := by
  cases elements <;> rfl

theorem toUInt64_handlesToJson (handles : List UInt64) :
    (handlesToJson handles).values.mapM Json.toUInt64? = some handles := by
  rw [handlesToJson, values_arrayToJson, List.mapM_eq_some_iff, List.map_map]
  rfl

structure VkSubmitInfo where
  pWaitSemaphores : List UInt64
  pWaitDstStageMask : Json
  pCommandBuffers : List UInt64
  pSignalSemaphores : List UInt64
  pNext : Json

def VkSubmitInfo.toJson (info : VkSubmitInfo) : Json :=
  .object [
    ("sType", .string "VK_STRUCTURE_TYPE_SUBMIT_INFO"),
    ("waitSemaphoreCount", countToJson info.pWaitSemaphores),
    ("pWaitSemaphores", handlesToJson info.pWaitSemaphores),
    ("pWaitDstStageMask", info.pWaitDstStageMask),
    ("commandBufferCount", countToJson info.pCommandBuffers),
    ("pCommandBuffers", handlesToJson info.pCommandBuffers),
    ("signalSemaphoreCount", countToJson info.pSignalSemaphores),
    ("pSignalSemaphores", handlesToJson info.pSignalSemaphores),
    ("pNext", info.pNext)]

structure VkCommandBufferSubmitInfo where
  commandBuffer : UInt64
  deviceMask : UInt32
  pNext : Json

def VkCommandBufferSubmitInfo.toJson (info : VkCommandBufferSubmitInfo) : Json :=
  .object [
    ("sType", .string "VK_STRUCTURE_TYPE_COMMAND_BUFFER_SUBMIT_INFO"),
    ("commandBuffer", .unsigned info.commandBuffer),
    ("deviceMask", .unsigned info.deviceMask.toUInt64),
    ("pNext", info.pNext)]

structure VkSubmitInfo2 where
  flags : Json
  pWaitSemaphoreInfos : List Json
  pCommandBufferInfos : List VkCommandBufferSubmitInfo
  pSignalSemaphoreInfos : List Json
  pNext : Json

def VkSubmitInfo2.toJson (info : VkSubmitInfo2) : Json :=
  .object [
    ("sType", .string "VK_STRUCTURE_TYPE_SUBMIT_INFO_2"),
    ("flags", info.flags),
    ("waitSemaphoreInfoCount", countToJson info.pWaitSemaphoreInfos),
    ("pWaitSemaphoreInfos", arrayToJson info.pWaitSemaphoreInfos),
    ("commandBufferInfoCount", countToJson info.pCommandBufferInfos),
    ("pCommandBufferInfos",
      arrayToJson (info.pCommandBufferInfos.map VkCommandBufferSubmitInfo.toJson)),
    ("signalSemaphoreInfoCount", countToJson info.pSignalSemaphoreInfos),
    ("pSignalSemaphoreInfos", arrayToJson info.pSignalSemaphoreInfos),
    ("pNext", info.pNext)]

/-- The parameters of a submit. -/
structure QueueSubmit (Info : Type) where
  queue : UInt64
  pSubmits : List Info
  fence : UInt64

def QueueSubmit.args {Info : Type} (infoToJson : Info → Json) (submit : QueueSubmit Info) : Json :=
  .object [
    ("queue", .unsigned submit.queue),
    ("submitCount", countToJson submit.pSubmits),
    ("pSubmits", arrayToJson (submit.pSubmits.map infoToJson)),
    ("fence", .unsigned submit.fence)]

/-- **What the processor finds in `pSubmits`.** -/
theorem submittedHandles_args {Info : Type} {infoToJson : Info → Json} {found : Info → List UInt64}
    (hfound : ∀ info, (match (infoToJson info).get? "pCommandBuffers" with
      | some commandBuffers => commandBuffers.values.mapM Json.toUInt64?
      | none => some []) = some (found info)) (submit : QueueSubmit Info) :
    submittedHandles (submit.args infoToJson) = some (submit.pSubmits.flatMap found) := by
  have hcount : (submit.args infoToJson).count "submitCount" := rfl
  have hsubmits : (submit.args infoToJson).get? "pSubmits" =
      some (arrayToJson (submit.pSubmits.map infoToJson)) := rfl
  have hall : (submit.pSubmits.map infoToJson).mapM (fun info =>
      match info.get? "pCommandBuffers" with
      | some commandBuffers => commandBuffers.values.mapM Json.toUInt64?
      | none => some []) = some (submit.pSubmits.map found) := by
    rw [List.mapM_map, List.mapM_eq_some_map_iff]
    exact fun info _ => hfound info
  rw [submittedHandles, if_pos hcount, hsubmits]
  simp only [Option.bind_eq_bind, Option.bind_some, values_arrayToJson]
  rw [List.flatMap_def]
  exact Option.bind_eq_some_iff.mpr ⟨_, hall, rfl⟩

/-! ## Calls -/

/-- A call other than the two submits, whose argument `commandBuffer` is a number where it has
one. -/
structure OtherCall where
  data : DiveFunctionData
  isSubmit_eq : data.isSubmit = false
  isSome_handle : data.args.count "commandBuffer" → data.handle?.isSome

inductive VulkanCall
  | queueSubmit (blockIndex : UInt64) (submit : QueueSubmit VkSubmitInfo)
  | queueSubmit2 (blockIndex : UInt64) (submit : QueueSubmit VkSubmitInfo2)
  | other (call : OtherCall)

namespace VulkanCall

def toFunctionData : VulkanCall → DiveFunctionData
  | queueSubmit blockIndex submit =>
    ⟨.vkQueueSubmit, 0, blockIndex, submit.args VkSubmitInfo.toJson⟩
  | queueSubmit2 blockIndex submit =>
    ⟨.vkQueueSubmit2, 0, blockIndex, submit.args VkSubmitInfo2.toJson⟩
  | other call => call.data

/-- **The handles that a call submits**, in order; `none` where it is not a submit. -/
def submitted : VulkanCall → Option (List UInt64)
  | queueSubmit _ submit => some (submit.pSubmits.flatMap VkSubmitInfo.pCommandBuffers)
  | queueSubmit2 _ submit => some (submit.pSubmits.flatMap fun info =>
      info.pCommandBufferInfos.map VkCommandBufferSubmitInfo.commandBuffer)
  | other _ => none

/-- The handles that the processor finds. -/
def found : VulkanCall → Option (List UInt64)
  | queueSubmit _ submit => some (submit.pSubmits.flatMap VkSubmitInfo.pCommandBuffers)
  | queueSubmit2 _ _ => some []
  | other _ => none

theorem isSome_found (call : VulkanCall) : call.found.isSome = call.submitted.isSome := by
  cases call <;> rfl

theorem isSubmit_toFunctionData (call : VulkanCall) :
    call.toFunctionData.isSubmit = call.found.isSome := by
  cases call with
  | queueSubmit => rfl
  | queueSubmit2 => rfl
  | other call => exact call.isSubmit_eq

theorem submittedHandles_toFunctionData {call : VulkanCall} {handles : List UInt64}
    (h : call.found = some handles) :
    submittedHandles call.toFunctionData.args = some handles := by
  cases call with
  | queueSubmit _ submit =>
    rw [← h]
    apply submittedHandles_args
    intro info
    exact toUInt64_handlesToJson info.pCommandBuffers
  | queueSubmit2 _ submit =>
    have hnone := @submittedHandles_args _ VkSubmitInfo2.toJson (fun _ => []) (fun _ => rfl) submit
    rw [List.flatMap_eq_nil_iff.mpr fun _ _ => rfl] at hnone
    rw [← h]
    exact hnone
  | other call => cases h

theorem isSome_writeBlockEnd (s : DiveAnnotationProcessor.State) (call : VulkanCall) :
    (writeBlockEnd s call.toFunctionData).isSome := by
  unfold writeBlockEnd
  split_ifs with hsubmit hcount
  · rw [isSubmit_toFunctionData] at hsubmit
    obtain ⟨handles, hhandles⟩ := Option.isSome_iff_exists.mp hsubmit
    rw [submittedHandles_toFunctionData hhandles]
    rfl
  · rw [Option.isSome_map]
    cases call with
    | queueSubmit => cases hsubmit rfl
    | queueSubmit2 => cases hsubmit rfl
    | other call => exact call.isSome_handle hcount
  · rfl

end VulkanCall

variable {stream : List VulkanCall}

theorem isSome_run_stream (stream : List VulkanCall) :
    (run (stream.map VulkanCall.toFunctionData)).isSome := by
  unfold run
  generalize ({} : DiveAnnotationProcessor.State) = s
  induction stream generalizing s with
  | nil => rfl
  | cons call stream ih =>
    obtain ⟨w, hw⟩ := Option.isSome_iff_exists.mp (call.isSome_writeBlockEnd s)
    rw [List.map_cons, Monitor.run_cons_of hw]
    exact ih w

/-! ## The submits of the processor -/

/-- A call adds its handles, if it is a submit. -/
theorem writeBlockEnd_submits {s t : DiveAnnotationProcessor.State} {call : VulkanCall}
    (h : writeBlockEnd s call.toFunctionData = some t) :
    t.submits.map SubmitInfo.vkCommandBufferHandles =
      s.submits.map SubmitInfo.vkCommandBufferHandles ++ call.found.toList := by
  have hsubmit := call.isSubmit_toFunctionData
  obtain ⟨handles, hyes, hhandles, rfl⟩ | ⟨key, hkey, rfl⟩ | ⟨hno, -, rfl⟩ :=
    writeBlockEnd_cases h
  · rw [hyes] at hsubmit
    obtain ⟨found, hfound⟩ := Option.isSome_iff_exists.mp hsubmit.symm
    have hsame := (VulkanCall.submittedHandles_toFunctionData hfound).symm.trans hhandles
    rw [hfound, ← Option.some.inj hsame]
    exact List.map_append
  · rw [(DiveFunctionData.recordsInto_iff.mp hkey).1, eq_comm, Option.isSome_eq_false_iff,
      Option.isNone_iff_eq_none] at hsubmit
    rw [hsubmit, State.recordCommand_submits, Option.toList_none, List.append_nil]
  · rw [hno, eq_comm, Option.isSome_eq_false_iff, Option.isNone_iff_eq_none] at hsubmit
    rw [hsubmit, Option.toList_none, List.append_nil]
    rfl

/-- **The processor keeps the handles that it finds in the submits.** -/
theorem submits_handles {p : DiveAnnotationProcessor.State}
    (h : run (stream.map VulkanCall.toFunctionData) = some p) :
    p.submits.map SubmitInfo.vkCommandBufferHandles = stream.filterMap VulkanCall.found := by
  suffices hall : ∀ s : DiveAnnotationProcessor.State,
      Monitor.run writeBlockEnd s (stream.map VulkanCall.toFunctionData) = some p →
      p.submits.map SubmitInfo.vkCommandBufferHandles =
        s.submits.map SubmitInfo.vkCommandBufferHandles ++ stream.filterMap VulkanCall.found from
    hall {} h
  intro s hrun
  clear h
  induction stream generalizing s with
  | nil =>
    cases hrun
    exact (List.append_nil _).symm
  | cons call stream ih =>
    obtain ⟨t, ht, hrest⟩ := Option.bind_eq_some_iff.mp hrun
    rw [ih t hrest, writeBlockEnd_submits ht, List.append_assoc, List.filterMap_cons]
    cases call.found <;> rfl

/-! ## Attribution -/

/-- The calls are processed, **each submit has the handles that it submits**, in order, and the
hierarchy of all of them is built. -/
def Attributed (stream : List VulkanCall) : Prop :=
  ∃ p, run (stream.map VulkanCall.toFunctionData) = some p ∧
    p.submits.map SubmitInfo.vkCommandBufferHandles = stream.filterMap VulkanCall.submitted ∧
    (alone.processGfxrSubmits (GfxrCaptureData.take p)).isSome

/-- Nothing is submitted through `vkQueueSubmit2`, and each submitted command buffer has been begun,
begins a render pass or draws somewhere in the capture. -/
def Attributable (stream : List VulkanCall) : Prop :=
  (∀ blockIndex submit, .queueSubmit2 blockIndex submit ∈ stream →
    (VulkanCall.queueSubmit2 blockIndex submit).submitted = some []) ∧
  ∀ call ∈ stream, ∀ handles, call.submitted = some handles → ∀ handle ∈ handles,
    Counted handle (stream.map VulkanCall.toFunctionData)

theorem found_eq_submitted_iff : stream.filterMap VulkanCall.found =
    stream.filterMap VulkanCall.submitted ↔ ∀ blockIndex submit,
      .queueSubmit2 blockIndex submit ∈ stream →
        (VulkanCall.queueSubmit2 blockIndex submit).submitted = some [] := by
  rw [List.filterMap_eq_filterMap_iff VulkanCall.isSome_found]
  constructor
  · intro h blockIndex submit hmem
    exact (h _ hmem).symm
  · intro h call hmem
    cases call with
    | queueSubmit => rfl
    | queueSubmit2 blockIndex submit => exact (h blockIndex submit hmem).symm
    | other => rfl

theorem isSome_processGfxrSubmits_iff {cs : List DiveFunctionData}
    {p : DiveAnnotationProcessor.State} (h : run cs = some p) :
    (alone.processGfxrSubmits (GfxrCaptureData.take p)).isSome ↔
      ∀ handles ∈ p.submits.map SubmitInfo.vkCommandBufferHandles, ∀ handle ∈ handles,
        Counted handle cs := by
  rw [isSome_processGfxrSubmits, List.forall_mem_map]
  simp only [isSome_resolve_iff h]
  rfl

/-- **Each submit gets its command buffers exactly when none goes through `vkQueueSubmit2` and all
are recorded in the capture.** -/
theorem attributed_iff (stream : List VulkanCall) : Attributed stream ↔ Attributable stream := by
  obtain ⟨p, hrun⟩ := Option.isSome_iff_exists.mp (isSome_run_stream stream)
  have hsubmits := submits_handles hrun
  have hfound : (∀ blockIndex submit, .queueSubmit2 blockIndex submit ∈ stream →
      (VulkanCall.queueSubmit2 blockIndex submit).submitted = some []) →
      p.submits.map SubmitInfo.vkCommandBufferHandles = stream.filterMap VulkanCall.submitted :=
    fun h => hsubmits.trans (found_eq_submitted_iff.mpr h)
  have hbuilt := isSome_processGfxrSubmits_iff hrun
  constructor
  · rintro ⟨p', hrun', hhandles, hsome⟩
    obtain rfl := Option.some.inj (hrun.symm.trans hrun')
    refine ⟨found_eq_submitted_iff.mp (hsubmits.symm.trans hhandles), ?_⟩
    intro call hmem handles hcall
    rw [hhandles] at hbuilt
    exact hbuilt.mp hsome handles (List.mem_filterMap.mpr ⟨call, hmem, hcall⟩)
  · rintro ⟨hnone, hcounted⟩
    refine ⟨p, hrun, hfound hnone, ?_⟩
    rw [hfound hnone] at hbuilt
    refine hbuilt.mpr fun handles hhandles => ?_
    obtain ⟨call, hmem, hcall⟩ := List.mem_filterMap.mp hhandles
    exact hcounted call hmem handles hcall

/-- A recorded command buffer that is submitted through `vkQueueSubmit2`. -/
def submittedWithInfo2 : List VulkanCall :=
  [.other ⟨createCommandData .vkBeginCommandBuffer 1001, rfl, fun _ => rfl⟩,
    .other ⟨createCommandData .vkEndCommandBuffer 1001, rfl, fun _ => rfl⟩,
    .queueSubmit2 3 ⟨7, [⟨.unsigned 0, [], [⟨1001, 0, .null⟩], [], .null⟩], 0⟩]

/-- The submit has no command buffer. -/
theorem submittedWithInfo2_not_attributed : ¬ Attributed submittedWithInfo2 := by
  rintro ⟨p, hrun, hhandles, -⟩
  have hsubmits := submits_handles hrun
  exact absurd (hsubmits.symm.trans hhandles) (by decide)

end Dive.VulkanExportDiveConsumer
