import Dive.GpuTime.Frames
import Dive.Lib.Monitor

/-!
# Valid frames

* `losesBoundary`: a submit that fails, and whose command buffers have a frame boundary, goes back
  to its caller before `OnFrameBoundary`.
* `OnlyValid`: a boundary adds a frame only if every submit since the boundary before it succeeded,
  and the frame has command buffers of these submits only.
* `StartsClean`: behind each boundary the frame is empty and valid.
* **`onlyValid`**: a run adds valid frames only.
* **`startsClean_iff`**: each frame of a run starts clean exactly when no submit loses a boundary.
-/

namespace Dive

namespace GPUTime

open Monitor

variable {τ : Type} [Add τ] [Zero τ] {g : GPUTime τ} {callback : Callback}
  {callbacks before frame : List Callback}

/-- A failing submit that has a frame boundary. -/
def losesBoundary (g : GPUTime τ) : Callback → Bool
  | .queueSubmit submits => !g.succeeds submits && g.boundaryDetector.containsFrameBoundary submits
  | _ => false

/-- Does a frame end with the callback? -/
def endsFrame (g : GPUTime τ) (callback : Callback) : Bool :=
  g.isBoundary callback || g.losesBoundary callback

/-- A frame that is empty and valid. -/
def Clean (g : GPUTime τ) : Prop := g.frameCmds = [] ∧ g.validFrame = true

/-- `frame` is what has come since the latest boundary, or since the start. -/
structure SinceBoundary (g : GPUTime τ) (before frame : List Callback) : Prop where
  first : before = [] ∨
    ∃ l callback, before = l ++ [callback] ∧ (g.run l).endsFrame callback = true
  noBoundary : Along step (fun g callback => g.endsFrame callback = false) (g.run before) frame

/-- Every submit of the frame succeeds, and the frame has their command buffers only. -/
structure ValidFrame (g : GPUTime τ) (frame : List Callback) : Prop where
  submits : Along step (fun g callback => g.failsSubmit callback = false) g frame
  frameCmds : (g.run frame).frameCmds ⊆ frame.flatMap submitted

/-- The frames that reach the metrics are valid. -/
def OnlyValid (g : GPUTime τ) (callbacks : List Callback) : Prop :=
  ∀ before frame callback rest, callbacks = before ++ frame ++ callback :: rest →
    SinceBoundary g before frame → ((g.run (before ++ frame)).addedFrame callback).isSome →
      ValidFrame (g.run before) frame

/-- The next frame starts empty and valid. -/
def StartsClean (g : GPUTime τ) (callbacks : List Callback) : Prop :=
  Along step (fun g callback => g.endsFrame callback = true → (g.step callback).Clean) g callbacks

/-! ## Steps -/

theorem clean_onFrameBoundary (g : GPUTime τ) (answers : ℕ → QueryPoolResults) :
    (g.onFrameBoundary answers).1.Clean := ⟨rfl, rfl⟩

theorem valid_of_addedFrame (h : (g.addedFrame callback).isSome) : g.validFrame = true := by
  cases frameEffect g callback with
  | quiet hframe _ _ _ =>
    rw [hframe] at h
    cases h
  | submit submits hcallback _ _ =>
    subst hcallback
    cases h
  | boundary answers _ hframe _ =>
    rw [hframe, boundaryFrame] at h
    by_contra hvalid
    rw [if_neg hvalid] at h
    cases h

theorem valid_step_failsSubmit (h : g.failsSubmit callback = true) :
    (g.step callback).validFrame = false := by
  cases frameEffect g callback with
  | quiet _ _ hfails _ =>
    rw [h] at hfails
    cases hfails
  | submit submits hcallback _ hpushes =>
    subst hcallback
    cases hstatus : (g.submitCmds submits).2 with
    | none => simp [failsSubmit, succeeds, hstatus] at h
    | some status => exact (hpushes.failed status hstatus).2
  | boundary answers hboundary _ _ =>
    cases callback with
    | queueSubmit submits => cases hboundary
    | _ => cases h

omit [Add τ] [Zero τ] in
theorem failsSubmit_of_losesBoundary (h : g.losesBoundary callback = true) :
    g.failsSubmit callback = true := by
  cases callback with
  | queueSubmit submits => exact (Bool.and_eq_true_iff.mp h).1
  | _ => cases h

theorem clean_step (h : g.isBoundary callback = true) : (g.step callback).Clean := by
  cases frameEffect g callback with
  | quiet _ hboundary _ _ =>
    rw [h] at hboundary
    cases hboundary
  | submit submits hcallback _ _ =>
    subst hcallback
    cases h
  | boundary answers _ _ hstep =>
    rw [hstep]
    exact clean_onFrameBoundary g answers

/-- **What comes between the boundaries keeps the frame of the submits.** -/
theorem ValidFrame.step (h : (g.run frame).validFrame = true → ValidFrame g frame)
    (hboundary : (g.run frame).endsFrame callback = false)
    (hvalid : ((g.run frame).step callback).validFrame = true) :
    ValidFrame g (frame ++ [callback]) := by
  have hrun : g.run (frame ++ [callback]) = (g.run frame).step callback := run_append g frame _
  cases frameEffect (g.run frame) callback with
  | quiet _ _ hfails hquiet =>
    have hframe := h (hquiet.valid hvalid)
    refine ⟨along_concat.mpr ⟨hframe.submits, hfails⟩, ?_⟩
    rw [hrun, List.flatMap_append]
    exact fun c hc => List.mem_append_left _ (hframe.frameCmds (hquiet.frameCmds hc))
  | submit submits hcallback _ hpushes =>
    subst hcallback
    obtain ⟨hbefore, hnone⟩ := hpushes.valid hvalid
    have hframe := h hbefore
    have hfails : (g.run frame).failsSubmit (.queueSubmit submits) = false := by
      rw [failsSubmit, succeeds, hnone]
      rfl
    refine ⟨along_concat.mpr ⟨hframe.submits, hfails⟩, ?_⟩
    rw [hrun, List.flatMap_append, List.flatMap_singleton]
    intro c hc
    rcases List.mem_append.mp (hpushes.frameCmds hc) with hc | hc
    · exact List.mem_append_left _ (hframe.frameCmds hc)
    · exact List.mem_append_right _ hc
  | boundary answers hruns _ _ =>
    rw [endsFrame, hruns] at hboundary
    cases hboundary

/-- **A run from a frame that is invalid or empty.** -/
theorem validFrame_run (hstart : g.validFrame = true → g.frameCmds = []) (frame : List Callback)
    (hframe : Along GPUTime.step (fun g callback => g.endsFrame callback = false) g frame) :
    (g.run frame).validFrame = true → ValidFrame g frame := by
  induction frame using List.reverseRecOn with
  | nil =>
    intro hvalid
    refine ⟨trivial, ?_⟩
    rw [show g.run [] = g from rfl, hstart hvalid]
    exact List.nil_subset _
  | append_singleton frame callback ih =>
    obtain ⟨hinit, hlast⟩ := along_concat.mp hframe
    intro hvalid
    rw [run_append] at hvalid
    exact .step (ih hinit) hlast hvalid

/-! ## Runs -/

variable (elapsedTimeInMs : UInt64 → τ)

theorem frameCmds_of_sinceBoundary
    (h : SinceBoundary (start elapsedTimeInMs) before frame)
    (hvalid : ((start elapsedTimeInMs).run before).validFrame = true) :
    ((start elapsedTimeInMs).run before).frameCmds = [] := by
  rcases h.first with rfl | ⟨l, callback, rfl, hends⟩
  · rfl
  · have hrun : (start elapsedTimeInMs).run (l ++ [callback]) =
        ((start elapsedTimeInMs).run l).step callback := run_append _ l [callback]
    rw [hrun] at hvalid ⊢
    rcases Bool.or_eq_true_iff.mp hends with hruns | hloses
    · exact (clean_step hruns).1
    · rw [valid_step_failsSubmit (failsSubmit_of_losesBoundary hloses)] at hvalid
      cases hvalid

/-- **A run adds valid frames only.** -/
theorem onlyValid (callbacks : List Callback) : OnlyValid (start elapsedTimeInMs) callbacks := by
  intro before frame callback rest _ hsince hadded
  refine validFrame_run (frameCmds_of_sinceBoundary elapsedTimeInMs hsince) frame hsince.noBoundary ?_
  rw [← run_append]
  exact valid_of_addedFrame hadded

/-- **Invalid frames add nothing, and each frame starts clean exactly when no submit loses a
boundary.** An odd list of render-pass slots is cut short, where the source reads on. -/
theorem startsClean_iff (callbacks : List Callback) :
    OnlyValid (start elapsedTimeInMs) callbacks ∧ StartsClean (start elapsedTimeInMs) callbacks ↔
      Along step (fun g callback => g.losesBoundary callback = false) (start elapsedTimeInMs)
        callbacks := by
  rw [and_iff_right (onlyValid elapsedTimeInMs callbacks), StartsClean, along_iff, along_iff]
  refine forall₄_congr fun before callback after hcallbacks => ?_
  constructor
  · intro h
    by_contra hloses
    rw [Bool.not_eq_false] at hloses
    have hclean := h (Bool.or_eq_true_iff.mpr (Or.inr hloses))
    have hinvalid := valid_step_failsSubmit (failsSubmit_of_losesBoundary hloses)
    rw [hclean.2] at hinvalid
    cases hinvalid
  · intro hloses hends
    rw [endsFrame, hloses, Bool.or_false] at hends
    exact clean_step hends

/-- The frame boundary is in a command buffer that may be pending more than once. -/
def reusableBoundary : List Callback :=
  [.setEnable true, .allocateCommandBuffers .primary 1 [1], .beginCommandBuffer 1 simultaneousUseBit,
    .insertDebugUtilsLabel 1 (some FrameBoundaryDetector.kVulkanVrFrameDelimiterString),
    .endCommandBuffer 1]

/-- The submit of the boundary fails, says that it was a boundary, and leaves the frame invalid. -/
theorem reusableBoundary_not_clean :
    (((start UInt64.toNat).run reusableBoundary).submitCmds [⟨some [1]⟩]).2.map
        (fun status => (status.gpuTimeStatus.success, status.containsFrameBoundary)) =
        some (false, true) ∧
      ¬(OnlyValid (start UInt64.toNat) (reusableBoundary ++ [.queueSubmit [⟨some [1]⟩]]) ∧
        StartsClean (start UInt64.toNat) (reusableBoundary ++ [.queueSubmit [⟨some [1]⟩]])) := by
  refine ⟨by decide +kernel, fun ⟨_, h⟩ => ?_⟩
  have hclean := along_iff.mp h reusableBoundary (.queueSubmit [⟨some [1]⟩]) [] rfl
    (by decide +kernel)
  exact absurd hclean.2 (by decide +kernel)

end GPUTime

end Dive
