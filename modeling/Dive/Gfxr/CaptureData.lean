import Dive.Gfxr.Annotation

/-!
# What the capture data keeps of a GFXR capture

* `GfxrCaptureData`: the submits, the recordings and the draw-call counts of the processor;
  `resolve`: what the hierarchy takes for a handle of a submit.
* `Counted`: the command buffers with draw-call counts.
* **`resolve_eq_iff`**: a handle has the recording that it has at the end of the capture.
-/

namespace Dive

open DiveAnnotationProcessor

/-- What the capture data takes from the processor. -/
structure GfxrCaptureData where
  gfxrSubmits : List SubmitInfo
  gfxrCommandBuffers : UInt64 → Option (List VulkanCommandInfo)
  gfxrDrawCallCounts : UInt64 → Option DrawCallCounts

def GfxrCaptureData.take (p : State) : GfxrCaptureData :=
  ⟨p.submits, p.cmdVkCommandsCache, p.drawCallCountsMap⟩

/-- What the hierarchy takes for a handle. `none` is the exception of `at` for a handle that is
missing from a map. -/
def GfxrCaptureData.resolve (d : GfxrCaptureData) (handle : UInt64) :
    Option (List VulkanCommandInfo) :=
  (d.gfxrDrawCallCounts handle).bind fun _ => d.gfxrCommandBuffers handle

/-- The command is one that the draw-call counts have an entry for. -/
def DiveAnnotationProcessor.VulkanCommandInfo.counted (v : VulkanCommandInfo) : Bool :=
  v.begins || v.beginsRenderPass || v.draws

/-- The command buffer is begun somewhere, begins a render pass or draws. -/
def Counted (key : UInt64) (cs : List DiveFunctionData) : Prop :=
  (commandsOn key cs).any VulkanCommandInfo.counted

variable {cs : List DiveFunctionData} {p : State} {key : UInt64}

theorem isSome_recordCommand (s : State) (v : VulkanCommandInfo) :
    ((s.recordCommand key v).drawCallCountsMap key).isSome =
      ((s.drawCallCountsMap key).isSome || v.counted) := by
  by_cases hb : v.begins <;> by_cases hr : v.beginsRenderPass <;> by_cases hd : v.draws <;>
    simp [State.recordCommand, VulkanCommandInfo.counted, hb, hr, hd]

theorem counts_isSome_iff (h : run cs = some p) :
    (p.drawCallCountsMap key).isSome ↔ Counted key cs := by
  refine Monitor.run_history (P := fun cs p => (p.drawCallCountsMap key).isSome ↔ Counted key cs)
    (by simp [Counted, commandsOn]) ?_ h
  intro t v a w ih hw
  unfold Counted at ih ⊢
  rw [commandsOn_append, List.any_append, Bool.or_eq_true, ← ih]
  by_cases ha : a.recordsInto key
  · rw [writeBlockEnd_of_recordsInto ha hw, commandsOn_singleton_of ha, isSome_recordCommand]
    simp
  · rw [Bool.not_eq_true] at ha
    rw [(writeBlockEnd_of_not ha hw).2, commandsOn_singleton_of_not ha]
    simp

/-- **The hierarchy takes the last recording of a command buffer.** -/
theorem resolve_eq_iff (h : run cs = some p) (l : List VulkanCommandInfo) :
    (GfxrCaptureData.take p).resolve key = some l ↔ Counted key cs ∧ recording key cs = l := by
  have hcache : (GfxrCaptureData.take p).gfxrCommandBuffers key =
      if commandsOn key cs = [] then none else some (recording key cs) := cache_eq_recording h
  constructor
  · intro hl
    obtain ⟨counts, hcounts, hcmds⟩ := Option.bind_eq_some_iff.mp hl
    refine ⟨(counts_isSome_iff h).mp (Option.isSome_iff_exists.mpr ⟨counts, hcounts⟩), ?_⟩
    rw [hcache] at hcmds
    split_ifs at hcmds
    exact Option.some.inj hcmds
  · rintro ⟨hcounted, rfl⟩
    obtain ⟨counts, hcounts⟩ := Option.isSome_iff_exists.mp ((counts_isSome_iff h).mpr hcounted)
    have hne : commandsOn key cs ≠ [] := by
      intro hnil
      rw [Counted, hnil] at hcounted
      cases hcounted
    refine Option.bind_eq_some_iff.mpr ⟨counts, hcounts, ?_⟩
    rw [hcache, if_neg hne]

theorem isSome_resolve_iff (h : run cs = some p) (handle : UInt64) :
    ((GfxrCaptureData.take p).resolve handle).isSome ↔ Counted handle cs := by
  rw [Option.isSome_iff_exists]
  simp only [resolve_eq_iff h, exists_and_left, exists_eq', and_true]

end Dive
