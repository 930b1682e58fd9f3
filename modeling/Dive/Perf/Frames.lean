import Dive.Perf.Metrics
import Mathlib.Algebra.BigOperators.Group.List.Basic

/-!
# The records at a position of the template

* `frames`, `template`, `matching`: the maximal runs of equal frame ids, the first longest one, and
  those with its draws.
* **`analyzeRecords_eq`**, `analyzeRecords_eq_none`: what the correlator finds.
* **`bucket_eq`**: the records that are summed at a position are those of the matching frames.
* **`accumulate_foldl`**: the sums and the count they leave.
-/

namespace Dive.PerfMetricsDataProvider

open Segments Correlator

/-- The maximal runs of records with one frame id. -/
def frames (records : List PerfMetricsRecord) : List (List PerfMetricsRecord) :=
  runs PerfMetricsRecord.frameId records

/-- The first longest frame. -/
def template (records : List PerfMetricsRecord) : List PerfMetricsRecord :=
  ((frames records).argmax List.length).getD []

/-- The frames with the command buffer ids and draw ids of the template. -/
def matching (records : List PerfMetricsRecord) : List (List PerfMetricsRecord) :=
  (frames records).filter (matchDrawSignatures (template records))

/-- The records at a position of the matching frames. -/
def recordsAt (records : List PerfMetricsRecord) (i : ℕ) : List PerfMetricsRecord :=
  (matching records).filterMap (·[i]?)

theorem matchDrawSignatures_self (frame : List PerfMetricsRecord) :
    matchDrawSignatures frame frame = true := by
  rw [matchDrawSignatures, beq_self_eq_true, Bool.true_and, List.all_eq_true]
  intro p hp
  have hmem := List.of_mem_zip hp
  obtain ⟨i, hi, hget⟩ := List.mem_iff_getElem.mp hp
  rw [List.getElem_zip] at hget
  simp [← hget]

theorem length_eq_of_matchDrawSignatures {signatures frame : List PerfMetricsRecord}
    (h : matchDrawSignatures signatures frame = true) : frame.length = signatures.length := by
  rw [matchDrawSignatures, Bool.and_eq_true, beq_iff_eq] at h
  exact h.1.symm

theorem template_mem {records : List PerfMetricsRecord} (h : records ≠ []) :
    template records ∈ frames records := by
  rw [template]
  cases hmax : (frames records).argmax List.length with
  | none => exact absurd ((runs_eq_nil _).mp (List.argmax_eq_none.mp hmax)) h
  | some t => exact List.argmax_mem hmax

theorem template_mem_matching {records : List PerfMetricsRecord} (h : records ≠ []) :
    template records ∈ matching records :=
  List.mem_filter.mpr ⟨template_mem h, matchDrawSignatures_self _⟩

@[simp] theorem template_nil : template [] = [] := rfl

theorem ne_nil_of_lt_template {records : List PerfMetricsRecord} {i : ℕ}
    (h : i < (template records).length) : records ≠ [] := by
  rintro rfl
  simp at h

theorem length_recordsAt {records : List PerfMetricsRecord} {i : ℕ}
    (h : i < (template records).length) :
    (recordsAt records i).length = (matching records).length := by
  rw [recordsAt]
  refine List.filterMap_length_eq_length.mpr fun frame hframe => ?_
  rw [matching, List.mem_filter] at hframe
  rw [List.getElem?_eq_getElem (by rw [length_eq_of_matchDrawSignatures hframe.2]; exact h)]
  rfl

/-! ## The records that match -/

/-- The positions of the records of a frame in the template. -/
def positions (template frame : List PerfMetricsRecord) : List IndexWrapper :=
  if matchDrawSignatures template frame then (List.range frame.length).map some
  else List.replicate frame.length none

theorem length_positions (template frame : List PerfMetricsRecord) :
    (positions template frame).length = frame.length := by
  rw [positions]
  split_ifs
  · simp
  · exact List.length_replicate

theorem set_foldl (done : List IndexWrapper) (m : ℕ) : ∀ n, n ≤ m →
    (List.range n).foldl (fun l i => l.set (done.length + i) (some i))
        (done ++ List.replicate m none) =
      done ++ (List.range n).map some ++ List.replicate (m - n) none
  | 0, _ => by simp
  | n + 1, h => by
    rw [List.range_succ, List.foldl_append, set_foldl done m n (by omega), List.foldl_cons,
      List.foldl_nil]
    have hrest : m - n = m - (n + 1) + 1 := by omega
    have hlen : (done ++ (List.range n).map some).length = done.length + n := by simp
    rw [hrest, List.replicate_succ, ← hlen, List.set_append_right _ _ le_rfl, Nat.sub_self,
      List.set_cons_zero, List.map_append]
    simp

/-- **The frames are matched one by one.** -/
theorem emitAll_matchFrame (records : List PerfMetricsRecord)
    {template : List PerfMetricsRecord} (hsize : template.length < 2 ^ 31) (gs : List (List PerfMetricsRecord))
    (done : List IndexWrapper) (h : records.drop done.length = gs.flatten) :
    emitAll (matchFrame records template)
        (some (done ++ List.replicate gs.flatten.length none)) done.length gs =
      some (done ++ gs.flatMap (positions template)) := by
  induction gs generalizing done with
  | nil => simp [emitAll]
  | cons g gs ih =>
    have hslice : slice records done.length g.length = g := by
      rw [slice, h, List.flatten_cons, List.take_left]
    have hstep : matchFrame records template
        (some (done ++ List.replicate (g :: gs).flatten.length none)) done.length
          (done.length + g.length) =
        some (done ++ positions template g ++ List.replicate gs.flatten.length none) := by
      rw [matchFrame, Option.bind_some, Nat.add_sub_cancel_left, hslice, positions]
      have hsum : (g :: gs).flatten.length = g.length + gs.flatten.length := by simp
      by_cases hmatch : matchDrawSignatures template g = true
      · rw [if_pos hmatch, if_pos hmatch,
          if_pos (by rw [length_eq_of_matchDrawSignatures hmatch]; exact hsize), hsum,
          set_foldl done _ _ (by omega), Nat.add_sub_cancel_left]
      · rw [if_neg hmatch, if_neg hmatch, hsum, List.replicate_add, List.append_assoc]
    have hlen : (done ++ positions template g).length = done.length + g.length := by
      rw [List.length_append, length_positions]
    rw [emitAll, hstep, ← hlen, ih, List.flatMap_cons, List.append_assoc]
    rw [hlen, ← List.drop_drop, h, List.flatten_cons, List.drop_left]

theorem emitAll_matchFrame_eq_none {records template : List PerfMetricsRecord}
    (gs : List (List PerfMetricsRecord)) (start : ℕ) (m : Option (List IndexWrapper))
    (h : records.drop start = gs.flatten) (hmem : template ∈ gs)
    (hsize : ¬ template.length < 2 ^ 31) :
    emitAll (matchFrame records template) m start gs = none := by
  have hnone : ∀ (gs : List (List PerfMetricsRecord)) start,
      emitAll (matchFrame records template) none start gs = none := by
    intro gs
    induction gs with
    | nil => exact fun _ => rfl
    | cons g gs ih => exact fun start => ih _
  induction gs generalizing start m with
  | nil => cases hmem
  | cons g gs ih =>
    rw [emitAll]
    by_cases hg : g = template
    · subst hg
      have hslice : slice records start g.length = g := by
        rw [slice, h, List.flatten_cons, List.take_left]
      have hstep : matchFrame records g m start (start + g.length) = none := by
        cases m with
        | none => rfl
        | some m =>
          rw [matchFrame, Option.bind_some, Nat.add_sub_cancel_left, hslice,
            if_pos (matchDrawSignatures_self g), if_neg hsize]
      rw [hstep, hnone]
    · refine ih _ _ ?_ ((List.mem_cons.mp hmem).resolve_left fun h => hg h.symm)
      rw [← List.drop_drop, h, List.flatten_cons, List.drop_left]

theorem slice_best {records : List PerfMetricsRecord} (h : records ≠ []) :
    slice records (walk PerfMetricsRecord.frameId keepLongest records (0, 0)).1
      (walk PerfMetricsRecord.frameId keepLongest records (0, 0)).2 = template records := by
  have hspec := (longest_spec (frames records)).2.1
  rw [frames, flatten_runs] at hspec
  rw [walk_eq _ _ h]
  exact hspec

/-- **What the correlator finds in the records.** -/
theorem analyzeRecords_eq {c : Correlator} {records : List PerfMetricsRecord} (h : records ≠ [])
    (hsize : (template records).length < 2 ^ 31) :
    c.analyzeRecords records = some { c with
      recordToMetric := (frames records).flatMap (positions (template records))
      drawToMetric := (indexDraws (template records)).1
      metricToDraw := (indexDraws (template records)).2 } := by
  have hflat := flatten_runs PerfMetricsRecord.frameId records
  have hmatch := emitAll_matchFrame records hsize (frames records) [] hflat.symm
  rw [frames, hflat, List.nil_append] at hmatch
  rw [analyzeRecords, if_neg h]
  simp only [slice_best h]
  rw [walk_eq _ _ h]
  simp only [List.length_nil] at hmatch
  rw [hmatch]
  rfl

theorem analyzeRecords_eq_none {c : Correlator} {records : List PerfMetricsRecord}
    (h : records ≠ []) (hsize : ¬ (template records).length < 2 ^ 31) :
    c.analyzeRecords records = none := by
  rw [analyzeRecords, if_neg h]
  have hnone := emitAll_matchFrame_eq_none (frames records) 0
    (some (List.replicate records.length none))
    (flatten_runs PerfMetricsRecord.frameId records).symm (template_mem h) hsize
  simp only [slice_best h]
  rw [walk_eq _ _ h, ← frames, hnone]
  rfl

/-! ## The records at a position -/

theorem filter_zip_positions (template frame : List PerfMetricsRecord) (i : ℕ) :
    ((frame.zip (positions template frame)).filter (·.2 == some i)).map Prod.fst =
      if matchDrawSignatures template frame then frame[i]?.toList else [] := by
  rw [positions]
  split_ifs with hmatch
  · clear hmatch
    induction frame using List.reverseRecOn with
    | nil => simp
    | append_singleton frame record ih =>
      have hlen : frame.length = ((List.range frame.length).map some).length := by simp
      rw [List.length_append, List.length_singleton, List.range_succ, List.map_append,
        List.zip_append hlen, List.filter_append, List.map_append, ih]
      rcases Nat.lt_trichotomy i frame.length with hlt | heq | hgt
      · rw [List.getElem?_append_left hlt]
        simp [Nat.ne_of_gt hlt]
      · subst heq
        simp
      · have hne : frame.length ≠ i := Nat.ne_of_lt hgt
        rw [List.getElem?_eq_none (by omega), List.getElem?_eq_none (by simp; omega)]
        simp [hne]
  · rw [List.filter_eq_nil_iff.mpr]
    · rfl
    · intro p hp
      have := List.eq_of_mem_replicate (List.of_mem_zip hp).2
      simp [this]

/-- **The records that are summed at a position** are those of the matching frames. -/
theorem bucket_eq (template : List PerfMetricsRecord) (gs : List (List PerfMetricsRecord)) (i : ℕ) :
    ((gs.flatten.zip (gs.flatMap (positions template))).filter (·.2 == some i)).map Prod.fst =
      (gs.filter (matchDrawSignatures template)).filterMap (·[i]?) := by
  induction gs with
  | nil => rfl
  | cons g gs ih =>
    rw [List.flatten_cons, List.flatMap_cons, List.zip_append (length_positions _ _).symm,
      List.filter_append, List.map_append, ih, filter_zip_positions]
    by_cases hmatch : matchDrawSignatures template g = true
    · rw [if_pos hmatch, List.filter_cons_of_pos hmatch, List.filterMap_cons]
      cases g[i]? <;> rfl
    · rw [if_neg hmatch, List.filter_cons_of_neg hmatch]
      rfl

/-! ## The sums at a position -/

/-- The sum of a metric over records. -/
def metricSum (rs : List PerfMetricsRecord) (k : ℕ) : ℚ :=
  (rs.map fun r => r.metricValues.getD k 0).sum

theorem resize_length {α : Type} (l : List α) (n : ℕ) (a : α) : (resize l n a).length = n := by
  simp only [resize, List.length_append, List.length_take, List.length_replicate]
  omega

theorem resize_of_length {α : Type} {l : List α} {n : ℕ} (a : α) (h : l.length = n) :
    resize l n a = l := by
  subst h
  simp [resize]

/-- **The sums at a position**, and the record that is kept. -/
theorem accumulate_foldl {numMetrics : ℕ} {rs : List PerfMetricsRecord} (hne : rs ≠ [])
    (h : ∀ r ∈ rs, r.metricValues.length = numMetrics) (computed : PerfMetricsRecord) :
    let cell := rs.foldl (fun cell r => accumulate numMetrics r cell) (computed, {})
    cell.1 ∈ rs ∧ cell.2.recordCount = rs.length % 2 ^ 32 ∧
      cell.2.metricSums = (List.range numMetrics).map (metricSum rs) := by
  induction rs using List.reverseRecOn with
  | nil => exact absurd rfl hne
  | append_singleton rs r ih =>
    have hr := h r (by simp)
    simp only [List.foldl_append, List.foldl_cons, List.foldl_nil]
    have hsums : ∀ sums : List ℚ, sums = (List.range numMetrics).map (metricSum rs) →
        List.zipWith (· + ·) sums r.metricValues =
          (List.range numMetrics).map (metricSum (rs ++ [r])) := by
      rintro _ rfl
      apply List.ext_getElem
      · simp [hr]
      · intro k h1 h2
        have hk : k < r.metricValues.length := by
          rw [hr]
          simpa using h2
        simp [metricSum, hk]
    by_cases hnil : rs = []
    · subst hnil
      have hzero : resize ([] : List ℚ) numMetrics 0 =
          (List.range numMetrics).map (metricSum []) := by
        apply List.ext_getElem
        · simp [resize]
        · intro k h1 h2
          simp [resize, metricSum]
      simp only [List.foldl_nil, accumulate, if_true, hr]
      exact ⟨by simp, by simp, hsums _ hzero⟩
    · obtain ⟨hmem, hcount, hold⟩ := ih hnil fun r' hr' => h r' (List.mem_append_left _ hr')
      generalize rs.foldl (fun cell r => accumulate numMetrics r cell) (computed, {}) = cell at *
      have hlen : cell.2.metricSums.length = numMetrics := by simp [hold]
      simp only [accumulate, hr, if_true, List.length_append, List.length_singleton]
      by_cases hzero : cell.2.recordCount = 0
      · simp only [hzero, if_true, resize_of_length 0 hlen]
        refine ⟨by simp, ?_, hsums _ hold⟩
        omega
      · simp only [hzero, if_false]
        refine ⟨List.mem_append_left _ hmem, ?_, hsums _ hold⟩
        omega

end Dive.PerfMetricsDataProvider
