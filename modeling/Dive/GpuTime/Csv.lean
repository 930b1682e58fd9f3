import Dive.GpuTime.Frames
import Dive.Lib.Text
import Mathlib.Data.List.Range

/-!
# The CSV text of the GPU-time layer

* `FrameMetrics.getStatistics` and **`GPUTime.getStatsCSVString`**, on exact times.
* **`balanced_run`**: in every state that is reached the render-pass counts of the command buffers
  add up to the render passes, also where they are those of an earlier frame.
* **`getStatsCSVString_eq`**: the text is made of `csvLines`, one line for each object.
-/

namespace Dive

open Text

/-! ## Statistics -/

/-- The statistics that the text has. -/
structure GPUTime.Stats where
  average : ℚ := 0
  median : ℚ := 0

namespace FrameMetrics

/-- `size_t` has 64 bits. -/
def kInvalidRenderPassCount : ℕ := 2 ^ 64 - 1

def calculateAverage (data : List ℚ) : ℚ :=
  if data = [] then 0 else data.foldl (· + ·) 0 / data.length

def calculateMedian (data : List ℚ) : ℚ :=
  if data = [] then 0
  else
    let sortedData := data.mergeSort fun a b => decide (a ≤ b)
    let size := sortedData.length
    if size % 2 = 0 then (sortedData.getD (size / 2 - 1) 0 + sortedData.getD (size / 2) 0) / 2
    else sortedData.getD (size / 2) 0

def getStatistics (data : List ℚ) : GPUTime.Stats where
  average := calculateAverage data
  median := calculateMedian data

variable (m : FrameMetrics ℚ)

def getFrameTimeStats : GPUTime.Stats := getStatistics m.frameTime

def getFrameCmdTimeStats (index : ℕ) : GPUTime.Stats :=
  if m.cmdTimeVec.length ≤ index then {} else getStatistics (m.cmdTimeVec.getD index [])

def getFrameRenderPassTimeStats (index : ℕ) : GPUTime.Stats :=
  if m.renderpassTimeVec.length ≤ index then {}
  else getStatistics (m.renderpassTimeVec.getD index [])

def getFrameCmdCount : ℕ := m.cmdTimeVec.length

def getCmdRenderPassCount (index : ℕ) : ℕ :=
  if m.cmdRenderpassCountVec.length ≤ index then kInvalidRenderPassCount
  else m.cmdRenderpassCountVec.getD index 0

/-- The counts of the command buffers add up to the render passes. -/
structure Balanced {τ : Type} (m : FrameMetrics τ) : Prop where
  length : m.cmdRenderpassCountVec.length = m.cmdTimeVec.length
  sum : m.cmdRenderpassCountVec.sum = m.renderpassTimeVec.length

end FrameMetrics

namespace GPUTime

/-! ## The text -/

def csvLine (type : String) (id : ℕ) (stats : Stats) : List Char :=
  type.toList ++ ',' :: toText id ++ ',' :: fixedText 3 stats.average ++
    ',' :: fixedText 3 stats.median ++ ['\n']

/-- The line of the next render pass, behind the text so far. -/
def csvRenderPass (m : FrameMetrics ℚ) (st : List Char × ℕ) : List Char × ℕ :=
  (st.1 ++ csvLine "RenderPass" st.2 (m.getFrameRenderPassTimeStats st.2), st.2 + 1)

def csvCommandBuffer (m : FrameMetrics ℚ) (st : List Char × ℕ) (cmdIndex : ℕ) : List Char × ℕ :=
  (List.range (m.getCmdRenderPassCount cmdIndex)).foldl (fun st _ => csvRenderPass m st)
    (st.1 ++ csvLine "CommandBuffer" cmdIndex (m.getFrameCmdTimeStats cmdIndex), st.2)

/-- `GetStatsCSVString`; the second component is `rp_index`. -/
def getStatsCSVString (g : GPUTime ℚ) : List Char :=
  ((List.range g.metrics.getFrameCmdCount).foldl (csvCommandBuffer g.metrics)
    (csvLine "Frame" g.frameIndex.toNat g.metrics.getFrameTimeStats, 0)).1

/-! ## The lines -/

/-- The render passes of a command buffer, by the counts of the metrics. -/
def passIds (counts : List ℕ) (cmdIndex : ℕ) : List ℕ :=
  List.range' (counts.take cmdIndex).sum (counts.getD cmdIndex 0)

def renderPassLine (m : FrameMetrics ℚ) (rpIndex : ℕ) : List Char :=
  csvLine "RenderPass" rpIndex (m.getFrameRenderPassTimeStats rpIndex)

/-- A command buffer with its render passes. -/
def commandBufferLines (m : FrameMetrics ℚ) (cmdIndex : ℕ) : List (List Char) :=
  csvLine "CommandBuffer" cmdIndex (m.getFrameCmdTimeStats cmdIndex) ::
    (passIds m.cmdRenderpassCountVec cmdIndex).map (renderPassLine m)

/-- The lines that the text is made of. -/
def csvLines (g : GPUTime ℚ) : List (List Char) :=
  csvLine "Frame" g.frameIndex.toNat g.metrics.getFrameTimeStats ::
    (List.range g.metrics.cmdTimeVec.length).flatMap (commandBufferLines g.metrics)

theorem foldl_csvRenderPass (m : FrameMetrics ℚ) (text : List Char) (start n : ℕ) :
    (List.range n).foldl (fun st _ => csvRenderPass m st) (text, start) =
      (text ++ ((List.range' start n).map (renderPassLine m)).flatten, start + n) := by
  induction n with
  | zero => simp
  | succ n ih =>
    rw [List.range_succ, List.foldl_append, ih, List.range'_concat]
    simp [csvRenderPass, renderPassLine, Nat.add_assoc]

theorem sum_take_succ {counts : List ℕ} {n : ℕ} (h : n < counts.length) :
    (counts.take (n + 1)).sum = (counts.take n).sum + counts.getD n 0 := by
  rw [List.take_succ_eq_append_getElem h, List.sum_append, List.sum_singleton]
  simp [List.getD_eq_getElem?_getD, h]

theorem foldl_csvCommandBuffer {m : FrameMetrics ℚ} (h : m.Balanced) (text : List Char) :
    ∀ n, n ≤ m.cmdTimeVec.length →
      (List.range n).foldl (csvCommandBuffer m) (text, 0) =
        (text ++ ((List.range n).flatMap (commandBufferLines m)).flatten,
          (m.cmdRenderpassCountVec.take n).sum)
  | 0, _ => by simp
  | n + 1, hn => by
    have hlt : n < m.cmdRenderpassCountVec.length := by
      rw [h.length]
      exact hn
    have hcount : m.getCmdRenderPassCount n = m.cmdRenderpassCountVec.getD n 0 := by
      rw [FrameMetrics.getCmdRenderPassCount, if_neg (by omega)]
    have hsum := sum_take_succ hlt
    rw [List.range_succ, List.foldl_append, foldl_csvCommandBuffer h text n (by omega),
      List.foldl_cons, List.foldl_nil, csvCommandBuffer, foldl_csvRenderPass, hcount, hsum]
    simp [commandBufferLines, passIds]

/-- **The text is made of its lines.** -/
theorem getStatsCSVString_eq {g : GPUTime ℚ} (h : g.metrics.Balanced) :
    g.getStatsCSVString = (csvLines g).flatten := by
  rw [getStatsCSVString, FrameMetrics.getFrameCmdCount, foldl_csvCommandBuffer h _ _ le_rfl]
  rfl

theorem flatMap_passIds (counts : List ℕ) : ∀ n, n ≤ counts.length →
    (List.range n).flatMap (passIds counts) = List.range (counts.take n).sum
  | 0, _ => rfl
  | n + 1, hn => by
    have hlt : n < counts.length := hn
    have happend := @List.range'_append 0 (counts.take n).sum (counts.getD n 0) 1
    rw [List.range_succ, List.flatMap_append, flatMap_passIds counts n (by omega),
      sum_take_succ hlt, List.range_eq_range', List.range_eq_range', List.flatMap_singleton, passIds]
    simpa using happend

/-! ## Balanced metrics -/

section Balanced

variable {τ : Type} {g : GPUTime τ}

/-- **A frame keeps the balance**, also where the counts of an earlier frame stay. -/
theorem balanced_addFrameData {m : FrameMetrics τ} (h : m.Balanced) (frameTime : τ)
    {cmdTimes renderpassTimes : List τ} {counts : List ℕ} (hlength : counts.length = cmdTimes.length)
    (hsum : counts.sum = renderpassTimes.length) :
    (m.addFrameData frameTime cmdTimes renderpassTimes counts).Balanced := by
  unfold FrameMetrics.addFrameData
  by_cases hreset : m.cmdTimeVec.length ≠ cmdTimes.length ∨
      m.renderpassTimeVec.length ≠ renderpassTimes.length
  · have hframe : ([] : List τ).length ≠ FrameMetrics.kFrameMetricsLimit := by
      rw [FrameMetrics.kFrameMetricsLimit]
      simp
    simp only [hreset, if_true, FrameMetrics.reset, hframe, if_false]
    constructor <;> simp [hlength, hsum]
  · obtain ⟨hcmds, hpasses⟩ := not_or.mp hreset
    rw [not_not] at hcmds hpasses
    have hlen := h.length
    have hsum' := h.sum
    simp only [hreset, if_false]
    split_ifs
    · constructor <;> simp <;> omega
    · constructor <;> simp <;> omega

variable [Add τ] [Zero τ]

theorem balanced_step (h : g.metrics.Balanced) (callback : Callback) :
    (g.step callback).metrics.Balanced := by
  rw [metrics_step]
  cases hframe : g.addedFrame callback with
  | none => exact h
  | some data =>
    have hdata := balanced_of_addedFrame hframe
    exact balanced_addFrameData h data.frameTime hdata.length hdata.sum

/-- **The metrics that are reached are balanced.** -/
theorem balanced_run (elapsedTimeInMs : UInt64 → τ) (callbacks : List Callback) :
    ((start elapsedTimeInMs).run callbacks).metrics.Balanced := by
  have hstart : (start elapsedTimeInMs).metrics.Balanced := ⟨rfl, rfl⟩
  refine List.foldlRecOn callbacks step (motive := fun g : GPUTime τ => g.metrics.Balanced) hstart ?_
  exact fun g hg callback _ => balanced_step hg callback

end Balanced

end GPUTime

end Dive
