import Dive.Gfxr.Annotation
import Mathlib.Data.List.ModifyLast

/-!
# Draw-call counts of a command buffer

* `passCounts`: the draws between the begin and the end of each render pass of a recording.
* `Describes`: draw-call counts that are those of a recording.
* `Accounted`: the calls that keep the counts right. A command buffer that is begun again has no
  earlier render pass, and nothing is drawn behind a render pass.
* **`counts_describe_iff`**: the counts are right after each call exactly when the calls are
  accounted.
-/

namespace List

variable {α : Type*} {f : α → α}

theorem modifyLast_cons {l : List α} (a : α) (h : l ≠ []) :
    (a :: l).modifyLast f = a :: l.modifyLast f := by
  rw [← dropLast_append_getLast h, ← cons_append, modifyLast_concat, modifyLast_concat, cons_append]

theorem modifyLast_ne {l : List α} (hf : ∀ a, f a ≠ a) (h : l ≠ []) : l.modifyLast f ≠ l := by
  rw [← dropLast_append_getLast h, modifyLast_concat]
  intro he
  exact hf (l.getLast h) (by simpa using he)

end List

namespace Dive.DiveAnnotationProcessor

open VulkanCommandInfo

/-! ## Render passes of a recording -/

/-- Where a render pass ends. Another one cannot begin inside it. -/
def VulkanCommandInfo.bounds (v : VulkanCommandInfo) : Bool :=
  v.beginsRenderPass || v.endsRenderPass

/-- The draws between the begin and the end of each render pass. -/
def passCounts : List VulkanCommandInfo → List ℕ
  | [] => []
  | v :: l =>
    if v.beginsRenderPass then (l.takeWhile (!·.bounds)).countP (·.draws) :: passCounts l
    else passCounts l

/-- A render pass has begun and not ended. -/
def inPass : List VulkanCommandInfo → Bool
  | [] => false
  | v :: l => inPass l || (v.beginsRenderPass && !l.any (·.bounds))

variable {l : List VulkanCommandInfo} {v : VulkanCommandInfo}

theorem passCounts_eq_nil_iff : passCounts l = [] ↔ l.any (·.beginsRenderPass) = false := by
  induction l with
  | nil => simp [passCounts]
  | cons u l ih => by_cases hu : u.beginsRenderPass <;> simp [passCounts, hu, ih]

theorem any_bounds_of_inPass (h : inPass l = true) : l.any (·.bounds) = true := by
  induction l with
  | nil => cases h
  | cons u l ih =>
    rw [inPass, Bool.or_eq_true, Bool.and_eq_true] at h
    rw [List.any_cons, Bool.or_eq_true]
    rcases h with h | h
    · exact .inr (ih h)
    · exact .inl (by simp [bounds, h.1])

theorem passCounts_ne_nil_of_inPass (h : inPass l = true) : passCounts l ≠ [] := by
  induction l with
  | nil => cases h
  | cons u l ih =>
    rw [inPass, Bool.or_eq_true, Bool.and_eq_true] at h
    by_cases hu : u.beginsRenderPass
    · simp [passCounts, hu]
    · simpa [passCounts, hu] using ih (h.resolve_right fun h => hu h.1)

theorem inPass_eq_false_of_not_any (h : l.any (·.bounds) = false) : inPass l = false := by
  rw [← Bool.not_eq_true]
  intro hin
  rw [any_bounds_of_inPass hin] at h
  cases h

theorem passCounts_eq_nil_of_not_any (h : l.any (·.bounds) = false) : passCounts l = [] := by
  rw [passCounts_eq_nil_iff, List.any_eq_false]
  intro v hv hr
  exact List.any_eq_false.mp h v hv (by simp [bounds, hr])

theorem bounds_of_draws (h : v.draws) : v.bounds = false := by
  simp [bounds, of_draws h]

theorem countP_takeWhile_concat : ((l ++ [v]).takeWhile (!·.bounds)).countP (·.draws) =
    (l.takeWhile (!·.bounds)).countP (·.draws) +
      if v.draws && !l.any (·.bounds) then 1 else 0 := by
  induction l with
  | nil =>
    by_cases hd : v.draws
    · simp [hd, bounds_of_draws hd]
    · by_cases hb : v.bounds <;> simp [hd, hb]
  | cons u l ih =>
    by_cases hu : u.bounds
    · simp [hu]
    · simp only [List.cons_append, List.takeWhile_cons, hu, Bool.not_false, if_true,
        List.countP_cons, ih, List.any_cons, Bool.false_or]
      omega

/-- **One more command.** -/
theorem passCounts_concat (l : List VulkanCommandInfo) (v : VulkanCommandInfo) :
    passCounts (l ++ [v]) = if v.beginsRenderPass then passCounts l ++ [0]
      else if v.draws && inPass l then (passCounts l).modifyLast (· + 1) else passCounts l := by
  induction l with
  | nil => by_cases hv : v.beginsRenderPass <;> simp [passCounts, inPass, hv]
  | cons u l ih =>
    rw [List.cons_append, passCounts, ih, countP_takeWhile_concat, passCounts, inPass]
    by_cases hu : u.beginsRenderPass
    · by_cases hany : l.any (·.bounds)
      · -- the pass of `u` has ended or another one began: only a later pass can grow
        by_cases hin : inPass l
        · have hne := passCounts_ne_nil_of_inPass hin
          by_cases hv : v.beginsRenderPass <;> by_cases hd : v.draws <;>
            simp [hu, hany, hin, hv, hd, List.modifyLast_cons _ hne]
        · by_cases hv : v.beginsRenderPass <;> simp [hu, hany, hin, hv]
      · -- the pass of `u` is the last one
        rw [Bool.not_eq_true] at hany
        have hlast : ∀ n : ℕ, [n].modifyLast (· + 1) = [n + 1] := fun n =>
          List.modifyLast_concat (· + 1) n []
        have hpc := passCounts_eq_nil_of_not_any hany
        have hin := inPass_eq_false_of_not_any hany
        by_cases hd : v.draws
        · simp [hu, hany, hin, hpc, hd, (of_draws hd).2.1, hlast]
        · by_cases hv : v.beginsRenderPass <;> simp [hu, hany, hin, hpc, hd, hv]
    · simp [hu]

/-! ## Counts -/

/-- The counts are those of the recording. -/
def Describes (d : DrawCallCounts) (l : List VulkanCommandInfo) : Prop :=
  d.beginCommandBufferDrawCallCount = l.countP (·.draws) ∧
    d.renderPassDrawCallCounts = passCounts l

/-- The counts after a command. -/
def DrawCallCounts.after (d : DrawCallCounts) (v : VulkanCommandInfo) : DrawCallCounts :=
  if v.begins then ⟨0, d.renderPassDrawCallCounts⟩
  else if v.beginsRenderPass then
    ⟨d.beginCommandBufferDrawCallCount, d.renderPassDrawCallCounts ++ [0]⟩
  else if v.draws then
    ⟨d.beginCommandBufferDrawCallCount + 1, d.renderPassDrawCallCounts.modifyLast (· + 1)⟩
  else d

/-- The recording after a command. -/
def recordingAfter (l : List VulkanCommandInfo) (v : VulkanCommandInfo) : List VulkanCommandInfo :=
  if v.begins then [v] else l ++ [v]

/-- The command keeps the counts right: it does not begin a command buffer again that has render
passes, and it does not draw behind a render pass. -/
def Accounted (l : List VulkanCommandInfo) (v : VulkanCommandInfo) : Prop :=
  (v.begins → l.any (·.beginsRenderPass) = false) ∧
    (v.draws → inPass l ∨ l.any (·.beginsRenderPass) = false)

variable {d : DrawCallCounts}

/-- **The counts stay right exactly where the command is accounted.** -/
theorem describes_after_iff (h : Describes d l) :
    Describes (d.after v) (recordingAfter l v) ↔ Accounted l v := by
  obtain ⟨htotal, hpasses⟩ := h
  unfold Describes DrawCallCounts.after recordingAfter Accounted
  by_cases hb : v.begins
  · obtain ⟨hr, -, hd⟩ := of_begins hb
    simp [hb, hr, hd, passCounts, hpasses, passCounts_eq_nil_iff]
  by_cases hr : v.beginsRenderPass
  · have hd := (of_beginsRenderPass hr).2.2
    simp [hb, hr, hd, htotal, hpasses, passCounts_concat]
  by_cases hd : v.draws
  · have hpc := passCounts_concat l v
    by_cases hin : inPass l
    · have hlast : passCounts (l ++ [v]) = (passCounts l).modifyLast (· + 1) := by
        simpa [hr, hd, hin] using hpc
      simp [hb, hr, hd, htotal, hpasses, hin, hlast]
    · have hsame : passCounts (l ++ [v]) = passCounts l := by
        simpa [hr, hd, hin] using hpc
      have hiff : (passCounts l).modifyLast (· + 1) = passCounts l ↔
          l.any (·.beginsRenderPass) = false := by
        rw [← passCounts_eq_nil_iff]
        refine ⟨fun h => ?_, fun h => by rw [h]; rfl⟩
        by_contra hne
        exact List.modifyLast_ne (fun n => n.succ_ne_self) hne h
      simp only [hb, hr, hd, htotal, hpasses, hin, hsame, hiff, if_true, if_false,
        Bool.false_eq_true, List.countP_append]
      simp [hd]
  · simp [hb, hr, hd, htotal, hpasses, passCounts_concat]

/-! ## Runs -/

section Run

variable {s s' p : State} {c : DiveFunctionData} {cs : List DiveFunctionData} {key : UInt64}

namespace State

/-- The counts kept for a command buffer. -/
def counts (s : State) (key : UInt64) : DrawCallCounts := (s.drawCallCountsMap key).getD default

theorem recordCommand_counts : (s.recordCommand key v).counts key = (s.counts key).after v := by
  unfold counts recordCommand DrawCallCounts.after
  by_cases hb : v.begins
  · have hd := (of_begins hb).2.2
    simp [hb, hd]
  by_cases hr : v.beginsRenderPass
  · have hd := (of_beginsRenderPass hr).2.2
    simp [hb, hr, hd]
  by_cases hd : v.draws <;> simp [hb, hr, hd]

end State

theorem recording_after (h : c.recordsInto key) :
    recording key (cs ++ [c]) = recordingAfter (recording key cs) (of c) :=
  recording_concat h

/-- **The draw-call accounting**, after each call of a run, for each command buffer. -/
def CountsDescribe (cs : List DiveFunctionData) : Prop :=
  ∀ t u, t <+: cs → run t = some u → ∀ key, Describes (u.counts key) (recording key t)

/-- Each command is accounted in the recording of its command buffer. -/
def AllAccounted (cs : List DiveFunctionData) : Prop :=
  ∀ t c t' key, cs = t ++ c :: t' → c.recordsInto key → Accounted (recording key t) (of c)

/-- **The counts are right after each call exactly when the calls are accounted.** -/
theorem counts_describe_iff (h : run cs = some p) : CountsDescribe cs ↔ AllAccounted cs := by
  constructor
  · rintro hcounts t c t' key rfl hc
    obtain ⟨u, w, hu, hw, -⟩ := Monitor.run_split h
    have hbefore := hcounts t u (List.prefix_append _ _) hu key
    have hrun : run (t ++ [c]) = some w := by
      rw [run, Monitor.run_append_of hu, Monitor.run_cons_of hw, Monitor.run_nil]
    have hafter := hcounts (t ++ [c]) w ⟨t', by simp⟩ hrun key
    rw [writeBlockEnd_of_recordsInto hc hw, State.recordCommand_counts,
      recording_after hc] at hafter
    exact (describes_after_iff hbefore).mp hafter
  · intro hall t u ht hu
    revert ht
    refine Monitor.run_history (P := fun t u => t <+: cs →
      ∀ key, Describes (u.counts key) (recording key t)) ?_ ?_ hu
    · intro _ key
      exact ⟨rfl, rfl⟩
    · rintro t u c w ih hw ⟨t', rfl⟩ key
      have hbefore := ih ⟨c :: t', by simp⟩ key
      by_cases hc : c.recordsInto key
      · rw [writeBlockEnd_of_recordsInto hc hw, State.recordCommand_counts, recording_after hc]
        exact (describes_after_iff hbefore).mpr (hall t c t' key (by simp) hc)
      · rw [Bool.not_eq_true] at hc
        rw [State.counts, (writeBlockEnd_of_not hc hw).2, recording_concat_of_not hc]
        exact hbefore

/-- One command buffer, recorded twice, the second time without a render pass. -/
def reRecorded : List DiveFunctionData :=
  [createCommandData .vkBeginCommandBuffer 1001,
    createCommandData .vkCmdBeginRenderPass 1001,
    createCommandData .vkCmdDraw 1001,
    createCommandData .vkCmdEndRenderPass 1001,
    createCommandData .vkEndCommandBuffer 1001,
    createCommandData .vkBeginCommandBuffer 1001]

theorem reRecorded_accepted : (run reRecorded).isSome := by decide

theorem counts_describe_iff_reRecorded : CountsDescribe reRecorded ↔ AllAccounted reRecorded :=
  counts_describe_iff (Option.some_get reRecorded_accepted).symm

/-- The render pass of the first recording is still listed. -/
theorem reRecorded_not_describe : ¬ CountsDescribe reRecorded := by
  intro hcounts
  have hrun := (Option.some_get reRecorded_accepted).symm
  have hpasses := (hcounts _ _ List.prefix_rfl hrun 1001).2
  exact absurd hpasses (by decide)

end Run

end Dive.DiveAnnotationProcessor
