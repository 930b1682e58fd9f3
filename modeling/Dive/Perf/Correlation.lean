import Dive.Perf.Frames
import Mathlib.Tactic.FieldSimp
import Mathlib.Tactic.Linarith

/-!
# Aggregation and correlation

* `Aggregates`: one record for each position of the template, with the averages at that position.
* `Correlates`: the draws and the draw positions of the template are in bijection, in order.
* `run`: any sequence of `Update` and `Analyze`; `lastInputs`: what its last inputs are.
* **`analyze_iff`**: when the averages are right, and that a state is one of its last inputs.
-/

namespace Dive.PerfMetricsDataProvider

open Segments Correlator

/-! ## The draws of the template -/

/-- The `d`-th draw of the frame is its `i`-th record. -/
def DrawAt (frame : List PerfMetricsRecord) (d i : ℕ) : Prop :=
  ∃ h : i < frame.length, isMetricsRecordDrawOrDispatch frame[i] = true ∧
    (frame.take i).countP isMetricsRecordDrawOrDispatch = d

section Draws

variable {frame : List PerfMetricsRecord} {record : PerfMetricsRecord} {d d' i i' : ℕ}

theorem countP_take_succ (h : i < frame.length) :
    (frame.take (i + 1)).countP isMetricsRecordDrawOrDispatch =
      (frame.take i).countP isMetricsRecordDrawOrDispatch +
        if isMetricsRecordDrawOrDispatch frame[i] then 1 else 0 := by
  rw [List.take_succ_eq_append_getElem h, List.countP_append, List.countP_singleton]

theorem countP_take_mono (frame : List PerfMetricsRecord) {i i' : ℕ} (h : i ≤ i') :
    (frame.take i).countP isMetricsRecordDrawOrDispatch ≤
      (frame.take i').countP isMetricsRecordDrawOrDispatch :=
  (List.take_sublist_take_left h).countP_le

/-- **Later draws stand at later positions.** -/
theorem DrawAt.lt_iff (h : DrawAt frame d i) (h' : DrawAt frame d' i') : d < d' ↔ i < i' := by
  obtain ⟨hi, hdraw, rfl⟩ := h
  obtain ⟨hi', hdraw', rfl⟩ := h'
  have hsucc := countP_take_succ hi
  rw [if_pos hdraw] at hsucc
  constructor
  · intro hlt
    by_contra hle
    have := countP_take_mono frame (not_lt.mp hle)
    omega
  · intro hlt
    have := countP_take_mono frame (Nat.lt_iff_add_one_le.mp hlt)
    omega

theorem DrawAt.lt (h : DrawAt frame d i) :
    d < frame.countP isMetricsRecordDrawOrDispatch := by
  obtain ⟨hi, hdraw, rfl⟩ := h
  have hsucc := countP_take_succ hi
  have hle := countP_take_mono frame (Nat.lt_iff_add_one_le.mp hi)
  rw [List.take_length] at hle
  rw [if_pos hdraw] at hsucc
  omega

theorem drawAt_concat :
    DrawAt (frame ++ [record]) d i ↔ DrawAt frame d i ∨
      (i = frame.length ∧ isMetricsRecordDrawOrDispatch record = true ∧
        frame.countP isMetricsRecordDrawOrDispatch = d) := by
  rcases Nat.lt_trichotomy i frame.length with hlt | rfl | hgt
  · simp only [DrawAt, List.length_append, List.length_singleton, hlt, Nat.lt_succ_of_lt,
      List.getElem_append_left, List.take_append_of_le_length hlt.le, Nat.ne_of_lt hlt, false_and,
      or_false, exists_true_left]
  · simp [DrawAt]
  · have hne : i ≠ frame.length := by omega
    simp only [DrawAt, List.length_append, List.length_singleton, hne, false_and, or_false]
    constructor
    · rintro ⟨h, -⟩
      omega
    · rintro ⟨h, -⟩
      omega

theorem exists_drawAt (h : d < frame.countP isMetricsRecordDrawOrDispatch) :
    ∃ i, DrawAt frame d i := by
  induction frame using List.reverseRecOn with
  | nil => simp at h
  | append_singleton frame record ih =>
    rw [List.countP_append, List.countP_singleton] at h
    by_cases hd : d < frame.countP isMetricsRecordDrawOrDispatch
    · obtain ⟨i, hi⟩ := ih hd
      exact ⟨i, drawAt_concat.mpr (.inl hi)⟩
    · split_ifs at h with hdraw
      · exact ⟨frame.length, drawAt_concat.mpr (.inr ⟨rfl, hdraw, by omega⟩)⟩
      · omega

end Draws

/-- **The two index maps** of a frame, filled up to a part of it. -/
theorem indexDraws_foldl (frame : List PerfMetricsRecord) (n : ℕ) (hn : frame.length ≤ n) :
    let maps := frame.zipIdx.foldl (fun (drawToMetric, metricToDraw) (record, i) =>
      if isMetricsRecordDrawOrDispatch record then
        (drawToMetric ++ [some i], metricToDraw.set i (some drawToMetric.length))
      else (drawToMetric, metricToDraw))
        (([], List.replicate n none) : List IndexWrapper × List IndexWrapper)
    maps.1.length = frame.countP isMetricsRecordDrawOrDispatch ∧ maps.2.length = n ∧
      (∀ d i, maps.1.getD d none = some i ↔ DrawAt frame d i) ∧
      ∀ d i, maps.2.getD i none = some d ↔ DrawAt frame d i := by
  induction frame using List.reverseRecOn with
  | nil =>
    refine ⟨rfl, List.length_replicate, ?_, ?_⟩
    · simp [DrawAt]
    · intro d i
      have hnone : (List.replicate n (none : IndexWrapper)).getD i none = none := by
        by_cases hi : i < n
        · exact List.getD_replicate none hi
        · exact List.getD_eq_default _ _ (by simpa using hi)
      simp only [List.zipIdx_nil, List.foldl_nil, hnone]
      simp [DrawAt]
  | append_singleton frame record ih =>
    rw [List.length_append, List.length_singleton] at hn
    obtain ⟨hlen, hlen', hdraws, hmetrics⟩ := ih (by omega)
    simp only [List.zipIdx_append, List.foldl_append, List.zipIdx_singleton, List.foldl_cons,
      List.foldl_nil, Nat.zero_add, drawAt_concat, List.countP_append, List.countP_singleton]
    generalize frame.zipIdx.foldl _ _ = maps at hlen hlen' hdraws hmetrics ⊢
    by_cases hdraw : isMetricsRecordDrawOrDispatch record = true
    · simp only [hdraw, if_true, true_and, List.length_append, List.length_singleton,
        List.length_set, hlen, hlen']
      refine ⟨fun d i => ?_, fun d i => ?_⟩
      · rw [← hdraws]
        rcases Nat.lt_trichotomy d maps.1.length with hlt | rfl | hgt
        · rw [List.getD_append _ _ _ _ hlt]
          have hne : ¬ (i = frame.length ∧ List.countP isMetricsRecordDrawOrDispatch frame = d) := by
            rintro ⟨-, rfl⟩
            omega
          simp only [hne, or_false]
        · rw [List.getD_append_right _ _ _ _ le_rfl, Nat.sub_self,
            List.getD_eq_default maps.1 _ le_rfl]
          simp [hlen, eq_comm]
        · have hne : List.countP isMetricsRecordDrawOrDispatch frame ≠ d := by omega
          rw [List.getD_eq_default _ _ (by simp; omega), List.getD_eq_default _ _ hgt.le]
          simp [hne]
      · rw [← hmetrics]
        by_cases hi : i = frame.length
        · subst hi
          have hold : ¬ maps.2.getD frame.length none = some d := by
            rw [hmetrics]
            rintro ⟨h, -⟩
            omega
          have hlt : frame.length < maps.2.length := by omega
          simp only [hold, false_or]
          simp [List.getD_eq_getElem?_getD, hlt]
        · simp [List.getD_eq_getElem?_getD, List.getElem?_set_ne (Ne.symm hi), hi]
    · rw [Bool.not_eq_true] at hdraw
      simp only [hdraw, Bool.false_eq_true, if_false, false_and, and_false, or_false, Nat.add_zero]
      exact ⟨hlen, hlen', hdraws, hmetrics⟩

theorem indexDraws_spec (frame : List PerfMetricsRecord) :
    (indexDraws frame).1.length = frame.countP isMetricsRecordDrawOrDispatch ∧
      (indexDraws frame).2.length = frame.length ∧
      (∀ d i, (indexDraws frame).1.getD d none = some i ↔ DrawAt frame d i) ∧
      ∀ d i, (indexDraws frame).2.getD i none = some d ↔ DrawAt frame d i :=
  indexDraws_foldl frame frame.length le_rfl

/-- The draws and the draw positions of the template are in bijection, in order, as soon as there
are as many of them. -/
structure Correlates (template : List PerfMetricsRecord) (c : Correlator) : Prop where
  enabled : c.correlationEnabled = true ↔
    c.drawToNode.length = template.countP isMetricsRecordDrawOrDispatch
  draws : ∀ d, (∃ i, c.getMetricFromDraw (some d) = some i) ↔
    c.correlationEnabled = true ∧ d < c.drawToNode.length
  metrics : ∀ i, (∃ d, c.getDrawFromMetric (some i) = some d) ↔
    c.correlationEnabled = true ∧
      ∃ h : i < template.length, isMetricsRecordDrawOrDispatch template[i] = true
  inverse : ∀ d i, c.getMetricFromDraw (some d) = some i ↔ c.getDrawFromMetric (some i) = some d
  monotone : ∀ d i d' i', c.getMetricFromDraw (some d) = some i →
    c.getMetricFromDraw (some d') = some i' → (d < d' ↔ i < i')
  invalid : c.getMetricFromDraw none = none ∧ c.getDrawFromMetric none = none

theorem correlates_of_indexDraws {template : List PerfMetricsRecord} {c : Correlator}
    (hne : c.drawToNode ≠ []) (hdraws : c.drawToMetric = (indexDraws template).1)
    (hmetrics : c.metricToDraw = (indexDraws template).2) : Correlates template c := by
  obtain ⟨hlen, -, hd, hm⟩ := indexDraws_spec template
  have henabled : c.correlationEnabled = true ↔
      c.drawToNode.length = template.countP isMetricsRecordDrawOrDispatch := by
    rw [correlationEnabled, hdraws, hlen, Bool.or_eq_true, List.isEmpty_iff, beq_iff_eq]
    simp only [hne, false_or]
    exact eq_comm
  have hmetric : ∀ d i, c.getMetricFromDraw (some d) = some i ↔
      c.correlationEnabled = true ∧ DrawAt template d i := by
    intro d i
    rw [getMetricFromDraw, requireCorrelationEnabled, hdraws, ← hd]
    by_cases h : c.correlationEnabled = true <;> simp [h, IndexWrapper.into]
  have hdraw : ∀ i d, c.getDrawFromMetric (some i) = some d ↔
      c.correlationEnabled = true ∧ DrawAt template d i := by
    intro i d
    rw [getDrawFromMetric, requireCorrelationEnabled, hmetrics, ← hm]
    by_cases h : c.correlationEnabled = true <;> simp [h, IndexWrapper.into]
  refine ⟨henabled, fun d => ?_, fun i => ?_, fun d i => ?_, fun d i d' i' h h' => ?_, ?_⟩
  · simp only [hmetric]
    constructor
    · rintro ⟨i, h, hat⟩
      exact ⟨h, by rw [henabled.mp h]; exact hat.lt⟩
    · rintro ⟨h, hlt⟩
      rw [henabled.mp h] at hlt
      obtain ⟨i, hat⟩ := exists_drawAt hlt
      exact ⟨i, h, hat⟩
  · simp only [hdraw]
    constructor
    · rintro ⟨d, h, hi, hat, -⟩
      exact ⟨h, hi, hat⟩
    · rintro ⟨h, hi, hat⟩
      exact ⟨_, h, hi, hat, rfl⟩
  · rw [hmetric, hdraw]
  · exact ((hmetric d i).mp h).2.lt_iff ((hmetric d' i').mp h').2
  · simp [getMetricFromDraw, getDrawFromMetric, requireCorrelationEnabled, IndexWrapper.into]

/-! ## The averages -/

/-- The averages of the metrics over records. -/
def averages (numMetrics : ℕ) (rs : List PerfMetricsRecord) : List ℚ :=
  (List.range numMetrics).map fun k => metricSum rs k / rs.length

/-- One record for each position of the template: one that stands there in a matching frame, with
the averages over those that do. -/
structure Aggregates (data : PerfMetricsData) (computed : List PerfMetricsRecord) : Prop where
  length : computed.length = (template data.records).length
  averaged : ∀ i (h : i < computed.length), ∃ r ∈ recordsAt data.records i,
    computed[i] = { r with
      frameId := 0
      metricValues := averages data.metricNames.length (recordsAt data.records i) }

/-- The loop variable over the template and the record counts do not overflow, or only where the
sums are zero anyway. -/
structure Countable (data : PerfMetricsData) : Prop where
  indexable : (template data.records).length < 2 ^ 31
  counted : (matching data.records).length < 2 ^ 32 ∨
    ∀ i < (template data.records).length, ∀ k < data.metricNames.length,
      metricSum (recordsAt data.records i) k = 0 ∧ (matching data.records).length % 2 ^ 32 ≠ 0

/-- **When the average of a cell is right.** -/
theorem average_eq_iff {numMetrics : ℕ} {rs : List PerfMetricsRecord} (hne : rs ≠ [])
    {cell : PerfMetricsRecord × MetricSumWithRecordCount}
    (hcount : cell.2.recordCount = rs.length % 2 ^ 32)
    (hsums : cell.2.metricSums = (List.range numMetrics).map (metricSum rs)) :
    (average numMetrics cell).metricValues = averages numMetrics rs ↔
      (rs.length < 2 ^ 32 ∨ ∀ k < numMetrics, metricSum rs k = 0 ∧ rs.length % 2 ^ 32 ≠ 0) := by
  have hpos := List.length_pos_iff.mpr hne
  rw [average, averages, hcount, hsums]
  simp only
  rcases Nat.eq_zero_or_pos numMetrics with rfl | hn
  · simp
  have hsome : (List.range numMetrics).map (metricSum rs) ≠ [] := by
    simpa using Nat.ne_of_gt hn
  simp only [hsome, or_false]
  by_cases hzero : rs.length % 2 ^ 32 = 0
  · rw [if_pos hzero]
    constructor
    · intro h
      have := congrArg List.length h
      simp only [List.length_nil, List.length_map, List.length_range] at this
      omega
    · rintro (h | h)
      · omega
      · exact absurd hzero (h 0 hn).2
  · rw [if_neg hzero, List.map_inj_left]
    have hget : ∀ k < numMetrics, ((List.range numMetrics).map (metricSum rs)).getD k 0 =
        metricSum rs k := by
      intro k hk
      simp [List.getD_eq_getElem?_getD, hk]
    have hmod : ((rs.length % 2 ^ 32 : ℕ) : ℚ) ≠ 0 := by exact_mod_cast hzero
    have hlen : ((rs.length : ℕ) : ℚ) ≠ 0 := by exact_mod_cast Nat.ne_of_gt hpos
    constructor
    · intro h
      by_cases hlt : rs.length < 2 ^ 32
      · exact .inl hlt
      right
      intro k hk
      refine ⟨?_, hzero⟩
      have hk' := h k (List.mem_range.mpr hk)
      rw [hget k hk, div_eq_div_iff hmod hlen] at hk'
      by_contra hsum
      have hcast := mul_left_cancel₀ hsum hk'
      have : rs.length = rs.length % 2 ^ 32 := by exact_mod_cast hcast
      omega
    · rintro (hlt | h) k hk
      · rw [hget k (List.mem_range.mp hk), Nat.mod_eq_of_lt hlt]
      · rw [hget k (List.mem_range.mp hk), (h k (List.mem_range.mp hk)).1, zero_div, zero_div]

/-- **The records that reach a cell.** -/
theorem filter_matchOf {c : Correlator} {records : List PerfMetricsRecord}
    (h : c.recordToMetric = (frames records).flatMap (positions (template records))) (i : ℕ) :
    (records.zipIdx.filter fun r => c.matchOf (some r.2) == some i).map Prod.fst =
      recordsAt records i := by
  have hflat : (frames records).flatten = records := flatten_runs _ _
  have hlen : c.recordToMetric.length = records.length := by
    rw [h, List.length_flatMap]
    simp only [length_positions]
    rw [← List.length_flatten, hflat]
  have hzip : records.zip c.recordToMetric =
      records.zipIdx.map fun r => (r.1, c.matchOf (some r.2)) := by
    apply List.ext_getElem
    · simp [hlen]
    · intro j h1 h2
      have hj : j < c.recordToMetric.length := by
        rw [List.length_zip] at h1
        omega
      simp [matchOf, IndexWrapper.into, List.getD_eq_getElem?_getD, hj]
  have hbucket := bucket_eq (template records) (frames records) i
  rw [hflat, ← h, hzip, List.filter_map, List.map_map] at hbucket
  exact hbucket

theorem getElem?_sumRecords {c : Correlator} {records : List PerfMetricsRecord}
    (h : c.recordToMetric = (frames records).flatMap (positions (template records)))
    (numMetrics : ℕ) (computed : List PerfMetricsRecord) (i : ℕ) :
    (sumRecords c numMetrics records computed)[i]? = computed[i]?.map fun record =>
      (recordsAt records i).foldl (fun cell r => accumulate numMetrics r cell) (record, {}) := by
  have hcells := getElem?_foldl_modify
    (fun r : PerfMetricsRecord × ℕ => c.matchOf (some r.2)) (fun r => accumulate numMetrics r.1)
    records.zipIdx (computed.map fun record => (record, ({} : MetricSumWithRecordCount))) i
  rw [List.getElem?_map, Option.map_map] at hcells
  rw [← filter_matchOf h]
  simp only [List.foldl_map]
  exact hcells

theorem length_sumRecords (c : Correlator) (numMetrics : ℕ)
    (records computed : List PerfMetricsRecord) :
    (sumRecords c numMetrics records computed).length = computed.length := by
  have hlength := length_foldl_modify
    (fun r : PerfMetricsRecord × ℕ => c.matchOf (some r.2)) (fun r => accumulate numMetrics r.1)
    records.zipIdx (computed.map fun record => (record, ({} : MetricSumWithRecordCount)))
  rw [List.length_map] at hlength
  exact hlength

theorem accumulate_foldl_start {numMetrics : ℕ} {rs : List PerfMetricsRecord} (hne : rs ≠ [])
    (a b : PerfMetricsRecord) :
    rs.foldl (fun cell r => accumulate numMetrics r cell) (a, {}) =
      rs.foldl (fun cell r => accumulate numMetrics r cell) (b, {}) := by
  obtain ⟨r, rs, rfl⟩ := List.exists_cons_of_ne_nil hne
  rfl

theorem recordsAt_ne_nil {records : List PerfMetricsRecord} {i : ℕ}
    (h : i < (template records).length) : recordsAt records i ≠ [] := by
  rw [← List.length_pos_iff, length_recordsAt h]
  exact List.length_pos_of_mem (template_mem_matching (ne_nil_of_lt_template h))

/-! ## One analysis -/

/-- The correlator before the records are analyzed. -/
def commandCorrelator (commandHierarchy : Option CommandHierarchy) : Correlator :=
  match commandHierarchy with
  | none => {}
  | some commandHierarchy => Correlator.analyzeCommands {} commandHierarchy

variable {p : PerfMetricsDataProvider} {data : PerfMetricsData}
  {commandHierarchy : Option CommandHierarchy}

theorem commandCorrelator_metricToDraw :
    (commandCorrelator commandHierarchy).metricToDraw = [] ∧
      (commandCorrelator commandHierarchy).drawToMetric = [] := by
  cases commandHierarchy <;> exact ⟨rfl, rfl⟩

/-- What the correlator has after the records are analyzed. -/
structure Analyzed (data : PerfMetricsData) (commandHierarchy : Option CommandHierarchy)
    (c : Correlator) : Prop where
  drawToNode : c.drawToNode = (commandCorrelator commandHierarchy).drawToNode
  drawToMetric : c.drawToMetric = (indexDraws (template data.records)).1
  metricToDraw : c.metricToDraw = (indexDraws (template data.records)).2
  recordToMetric : c.recordToMetric =
    (frames data.records).flatMap (positions (template data.records))

/-- **The correlator of an analysis.** -/
theorem analyzeRecords_commandCorrelator
    (h : (template data.records).length < 2 ^ 31) :
    ∃ c, (commandCorrelator commandHierarchy).analyzeRecords data.records = some c ∧
      Analyzed data commandHierarchy c := by
  by_cases hnil : data.records = []
  · refine ⟨{ commandCorrelator commandHierarchy with recordToMetric := [] }, ?_, rfl, ?_, ?_, ?_⟩
    · rw [analyzeRecords, if_pos hnil]
    · rw [hnil]
      exact commandCorrelator_metricToDraw.2
    · rw [hnil]
      exact commandCorrelator_metricToDraw.1
    · rw [hnil]
      rfl
  · exact ⟨_, analyzeRecords_eq hnil h, rfl, rfl, rfl, rfl⟩

theorem analyze_of_none (h : p.rawData = none) : p.analyze commandHierarchy = some p := by
  cases p
  cases h
  rfl

theorem analyze_of_some (h : p.rawData = some data) :
    p.analyze commandHierarchy =
      ((commandCorrelator commandHierarchy).analyzeRecords data.records).map fun c => { p with
        correlator := c
        computedRecords := (sumRecords c data.metricNames.length data.records
          (resize p.computedRecords c.getPatternSize {})).map
            (average data.metricNames.length) } := by
  cases p
  cases h
  cases commandHierarchy <;> rfl

theorem analyze_eq (hdata : p.rawData = some data)
    (h : (template data.records).length < 2 ^ 31) :
    ∃ c, Analyzed data commandHierarchy c ∧ p.analyze commandHierarchy = some { p with
      correlator := c
      computedRecords := (sumRecords c data.metricNames.length data.records
        (resize p.computedRecords (template data.records).length {})).map
          (average data.metricNames.length) } := by
  obtain ⟨c, hc, hanalyzed⟩ :=
    @analyzeRecords_commandCorrelator data commandHierarchy h
  refine ⟨c, hanalyzed, ?_⟩
  have hsize : c.getPatternSize = (template data.records).length := by
    rw [getPatternSize, hanalyzed.metricToDraw]
    exact (indexDraws_spec _).2.1
  rw [analyze_of_some hdata, hc, Option.map_some, hsize]

theorem analyze_eq_none (hdata : p.rawData = some data)
    (h : ¬ (template data.records).length < 2 ^ 31) : p.analyze commandHierarchy = none := by
  have hne : data.records ≠ [] := by
    intro hnil
    rw [hnil] at h
    exact h (by norm_num)
  rw [analyze_of_some hdata, analyzeRecords_eq_none hne h]
  rfl

theorem computedRecords_getElem {c : Correlator} (hc : Analyzed data commandHierarchy c) {i : ℕ}
    (h : i < (template data.records).length) :
    ∃ cell : PerfMetricsRecord × MetricSumWithRecordCount,
      ((sumRecords c data.metricNames.length data.records
        (resize p.computedRecords (template data.records).length {})).map
          (average data.metricNames.length))[i]? = some (average data.metricNames.length cell) ∧
      cell.1 ∈ recordsAt data.records i ∧
      cell.2.recordCount = (recordsAt data.records i).length % 2 ^ 32 ∧
      cell.2.metricSums = (List.range data.metricNames.length).map
        (metricSum (recordsAt data.records i)) := by
  have hcomplete : ∀ r ∈ recordsAt data.records i,
      r.metricValues.length = data.metricNames.length := by
    intro r hr
    obtain ⟨frame, hframe, hget⟩ := List.mem_filterMap.mp hr
    apply data.complete
    have hflat : (frames data.records).flatten = data.records := flatten_runs _ _
    rw [← hflat]
    exact List.mem_flatten_of_mem (List.mem_filter.mp hframe).1 (List.mem_of_getElem? hget)
  have hstart : i < (resize p.computedRecords (template data.records).length {}).length := by
    rw [resize_length]
    exact h
  obtain ⟨hmem, hcount, hsums⟩ := accumulate_foldl (recordsAt_ne_nil h) hcomplete
    ((resize p.computedRecords (template data.records).length {})[i])
  refine ⟨_, ?_, hmem, hcount, hsums⟩
  rw [List.getElem?_map, getElem?_sumRecords hc.recordToMetric, List.getElem?_eq_getElem hstart]
  rfl

/-- **The averages of an analysis are right** exactly when the counts are. -/
theorem aggregates_iff {c : Correlator} (hc : Analyzed data commandHierarchy c) :
    Aggregates data ((sumRecords c data.metricNames.length data.records
        (resize p.computedRecords (template data.records).length {})).map
          (average data.metricNames.length)) ↔
      ((matching data.records).length < 2 ^ 32 ∨
        ∀ i < (template data.records).length, ∀ k < data.metricNames.length,
          metricSum (recordsAt data.records i) k = 0 ∧
            (matching data.records).length % 2 ^ 32 ≠ 0) := by
  have hlength : ((sumRecords c data.metricNames.length data.records
        (resize p.computedRecords (template data.records).length {})).map
          (average data.metricNames.length)).length = (template data.records).length := by
    rw [List.length_map, length_sumRecords, resize_length]
  have haverage : ∀ i, i < (template data.records).length →
      ∃ cell : PerfMetricsRecord × MetricSumWithRecordCount,
        ((sumRecords c data.metricNames.length data.records
          (resize p.computedRecords (template data.records).length {})).map
            (average data.metricNames.length))[i]? = some (average data.metricNames.length cell) ∧
        cell.1 ∈ recordsAt data.records i ∧
        ((average data.metricNames.length cell).metricValues =
            averages data.metricNames.length (recordsAt data.records i) ↔
          ((matching data.records).length < 2 ^ 32 ∨ ∀ k < data.metricNames.length,
            metricSum (recordsAt data.records i) k = 0 ∧
              (matching data.records).length % 2 ^ 32 ≠ 0)) := by
    intro i hi
    obtain ⟨cell, hget, hmem, hcount, hsums⟩ := @computedRecords_getElem p data _ c hc i hi
    refine ⟨cell, hget, hmem, ?_⟩
    have := average_eq_iff (recordsAt_ne_nil hi) hcount hsums
    rwa [length_recordsAt hi] at this
  constructor
  · intro h
    by_contra hc'
    rw [not_or] at hc'
    apply hc'.2
    intro i hi
    obtain ⟨cell, hget, -, hiff⟩ := haverage i hi
    obtain ⟨r, -, heq⟩ := h.averaged i (by rw [h.length]; exact hi)
    rw [List.getElem?_eq_getElem (by rw [h.length]; exact hi), heq] at hget
    have hvalues := congrArg PerfMetricsRecord.metricValues (Option.some.inj hget)
    exact (hiff.mp hvalues.symm).resolve_left hc'.1
  · intro h
    refine ⟨hlength, fun i hi => ?_⟩
    obtain ⟨cell, hget, hmem, hiff⟩ := haverage i (by rwa [hlength] at hi)
    refine ⟨cell.1, hmem, ?_⟩
    rw [List.getElem?_eq_getElem hi] at hget
    rw [Option.some.inj hget, ← hiff.mpr (h.imp_right fun h => h i (by rwa [hlength] at hi))]
    rfl

/-- **An analysis depends on its inputs only**, not on what an earlier one left. -/
theorem analyze_fresh (hdata : p.rawData = some data) :
    p.analyze commandHierarchy =
      analyze { rawData := some data } commandHierarchy := by
  by_cases h : (template data.records).length < 2 ^ 31
  swap
  · rw [analyze_eq_none hdata h, analyze_eq_none rfl h]
  rw [analyze_of_some hdata, analyze_of_some rfl]
  obtain ⟨c, hc, hanalyzed⟩ := @analyzeRecords_commandCorrelator data commandHierarchy h
  have hsize : c.getPatternSize = (template data.records).length := by
    rw [getPatternSize, hanalyzed.metricToDraw]
    exact (indexDraws_spec _).2.1
  rw [hc, Option.map_some, Option.map_some, hsize]
  have hcells : sumRecords c data.metricNames.length data.records
        (resize p.computedRecords (template data.records).length {}) =
      sumRecords c data.metricNames.length data.records
        (resize [] (template data.records).length {}) := by
    apply List.ext_getElem?
    intro i
    rw [getElem?_sumRecords hanalyzed.recordToMetric, getElem?_sumRecords hanalyzed.recordToMetric]
    by_cases hi : i < (template data.records).length
    · rw [List.getElem?_eq_getElem (by rw [resize_length]; exact hi),
        List.getElem?_eq_getElem (by rw [resize_length]; exact hi), Option.map_some,
        Option.map_some]
      exact congrArg some (accumulate_foldl_start (recordsAt_ne_nil hi) _ _)
    · rw [List.getElem?_eq_none (by rw [resize_length]; exact not_lt.mp hi),
        List.getElem?_eq_none (by rw [resize_length]; exact not_lt.mp hi)]
  rw [hcells]
  cases p
  cases hdata
  rfl

/-! ## Runs -/

inductive Operation
  | update (data : Option PerfMetricsData)
  | analyze (commandHierarchy : Option CommandHierarchy)

def perform (p : PerfMetricsDataProvider) : Operation → Option PerfMetricsDataProvider
  | .update data => some (p.update data)
  | .analyze commandHierarchy => p.analyze commandHierarchy

/-- A new provider after some operations. -/
def run (ops : List Operation) : Option PerfMetricsDataProvider :=
  ops.foldlM perform {}

/-- The data, and the hierarchy it was last analyzed with. -/
abbrev Inputs := Option (PerfMetricsData × Option (Option CommandHierarchy))

def input (last : Inputs) : Operation → Inputs
  | .update none => last
  | .update (some data) => some (data, none)
  | .analyze commandHierarchy => last.map fun inputs => (inputs.1, some commandHierarchy)

/-- **The last inputs** of some operations. -/
def lastInputs (ops : List Operation) : Inputs :=
  ops.foldl input none

/-- The state that belongs to the inputs. -/
def stateOf : Inputs → Option PerfMetricsDataProvider
  | none => some {}
  | some (data, none) => some { rawData := some data }
  | some (data, some commandHierarchy) => analyze { rawData := some data } commandHierarchy

theorem rawData_of_analyze {p' : PerfMetricsDataProvider}
    (h : p.analyze commandHierarchy = some p') : p'.rawData = p.rawData := by
  cases hdata : p.rawData with
  | none =>
    rw [analyze_of_none hdata] at h
    rw [← Option.some.inj h, hdata]
  | some data =>
    rw [analyze_of_some hdata] at h
    obtain ⟨c, -, rfl⟩ := Option.map_eq_some_iff.mp h
    exact hdata

theorem rawData_of_stateOf {last : Inputs} (h : stateOf last = some p) :
    p.rawData = last.map Prod.fst := by
  rcases last with _ | ⟨data, _ | commandHierarchy⟩
  · rw [← Option.some.inj h]
    rfl
  · rw [← Option.some.inj h]
    rfl
  · rw [stateOf] at h
    exact rawData_of_analyze h

theorem stateOf_input {last : Inputs} {op : Operation} (h : stateOf last = some p) :
    perform p op = stateOf (input last op) := by
  have hraw := rawData_of_stateOf h
  cases op with
  | update data =>
    cases data with
    | none => exact h.symm
    | some data => rfl
  | analyze commandHierarchy =>
    rcases last with _ | ⟨data, hierarchy⟩
    · rw [perform, analyze_of_none hraw]
      exact h.symm
    · exact analyze_fresh hraw

/-- **The state of a run is that of its last inputs.** -/
theorem stateOf_lastInputs {ops : List Operation} (h : run ops = some p) :
    stateOf (lastInputs ops) = some p := by
  induction ops using List.reverseRecOn generalizing p with
  | nil => exact h
  | append_singleton ops op ih =>
    rw [run, List.foldlM_append] at h
    obtain ⟨p₀, h₀, hop⟩ := Option.bind_eq_some_iff.mp h
    rw [lastInputs, List.foldl_append, List.foldl_cons, List.foldl_nil, ← lastInputs,
      ← stateOf_input (ih h₀)]
    simpa using hop

theorem update_mem_of_lastInputs {ops : List Operation} {last : Option (Option CommandHierarchy)}
    (h : lastInputs ops = some (data, last)) : .update (some data) ∈ ops := by
  induction ops using List.reverseRecOn generalizing last with
  | nil => cases h
  | append_singleton ops op ih =>
    rw [lastInputs, List.foldl_append, List.foldl_cons, List.foldl_nil, ← lastInputs] at h
    rcases op with (_ | data') | commandHierarchy
    · exact List.mem_append_left _ (ih h)
    · cases h
      exact List.mem_append_right _ (List.mem_singleton_self _)
    · obtain ⟨inputs, hinputs, heq⟩ := Option.map_eq_some_iff.mp h
      cases heq
      exact List.mem_append_left _ (ih hinputs)

theorem exists_run {ops : List Operation} (h : ∀ data, .update (some data) ∈ ops →
    (template data.records).length < 2 ^ 31) : ∃ p, run ops = some p := by
  induction ops using List.reverseRecOn with
  | nil => exact ⟨{}, rfl⟩
  | append_singleton ops op ih =>
    obtain ⟨p, hp⟩ := ih fun data hdata => h data (List.mem_append_left _ hdata)
    rw [run, List.foldlM_append, ← run, hp]
    simp only [Option.bind_eq_bind, Option.bind_some, List.foldlM_cons, List.foldlM_nil,
      Option.pure_def, Option.bind_fun_some]
    cases op with
    | update data => exact ⟨_, rfl⟩
    | analyze commandHierarchy =>
      have hraw := rawData_of_stateOf (stateOf_lastInputs hp)
      cases hlast : lastInputs ops with
      | none =>
        rw [hlast] at hraw
        exact ⟨p, analyze_of_none hraw⟩
      | some inputs =>
        rw [hlast] at hraw
        have hmem := List.mem_append_left [Operation.analyze commandHierarchy]
          (@update_mem_of_lastInputs inputs.1 ops inputs.2 hlast)
        obtain ⟨c, -, hc⟩ := @analyze_eq p inputs.1 commandHierarchy hraw (h _ hmem)
        exact ⟨_, hc⟩

/-- **Aggregation and correlation.** An analysis averages the records of the matching frames, and
correlates the draws with those of the template, exactly when its counts do not overflow. Any
sequence of updates and analyses has a result when its frames are not too large, and this depends
on the last inputs only. -/
theorem analyze_iff (p : PerfMetricsDataProvider) (data : PerfMetricsData)
    (commandHierarchy : Option CommandHierarchy) :
    (p.rawData = some data →
      ((∃ p', p.analyze commandHierarchy = some p' ∧ Aggregates data p'.computedRecords ∧
        p'.correlator.drawToNode = (commandCorrelator commandHierarchy).drawToNode ∧
        (p'.correlator.drawToNode ≠ [] →
          Correlates (template data.records) p'.correlator)) ↔ Countable data)) ∧
    (∀ ops : List Operation, (∀ data, .update (some data) ∈ ops →
      (template data.records).length < 2 ^ 31) → ∃ p, run ops = some p) ∧
    ∀ (ops ops' : List Operation) (p p' : PerfMetricsDataProvider), run ops = some p →
      run ops' = some p' → lastInputs ops = lastInputs ops' → p = p' := by
  refine ⟨fun hdata => ?_, fun ops h => exists_run h, fun ops ops' p p' h h' heq => ?_⟩
  · by_cases h : (template data.records).length < 2 ^ 31
    · obtain ⟨c, hc, heq⟩ := @analyze_eq p data commandHierarchy hdata h
      rw [heq]
      constructor
      · rintro ⟨p', hp', haggregates, -⟩
        rw [← Option.some.inj hp'] at haggregates
        exact ⟨h, (aggregates_iff hc).mp haggregates⟩
      · intro hcountable
        exact ⟨_, rfl, (aggregates_iff hc).mpr hcountable.counted, hc.drawToNode,
          fun hne => correlates_of_indexDraws hne hc.drawToMetric hc.metricToDraw⟩
    · rw [analyze_eq_none hdata h]
      constructor
      · rintro ⟨p', hp', -⟩
        cases hp'
      · exact fun hcountable => absurd hcountable.indexable h
  · have h1 := stateOf_lastInputs h
    have h2 := stateOf_lastInputs h'
    rw [heq, h2] at h1
    exact (Option.some.inj h1).symm

/-- A frame with a draw and a frame with the same draw. -/
def twoFrames : PerfMetricsData where
  metricNames := ["COUNTER_A"]
  records :=
    [{ frameId := 1, drawId := 1, drawType := 1, metricValues := [3] },
      { frameId := 2, drawId := 1, drawType := 1, metricValues := [5] }]
  complete := by decide

theorem analyze_iff_twoFrames :
    (∃ p', analyze { rawData := some twoFrames } (some [.kEventNode .kDraw]) = some p' ∧
      Aggregates twoFrames p'.computedRecords ∧
      p'.correlator.drawToNode = (commandCorrelator (some [.kEventNode .kDraw])).drawToNode ∧
      (p'.correlator.drawToNode ≠ [] →
        Correlates (template twoFrames.records) p'.correlator)) ∧
    ∃ p, run [.update (some twoFrames), .analyze none] = some p ∧
      run [.update (some twoFrames), .analyze (some []), .update none, .analyze none] = some p := by
  have hsize : (template twoFrames.records).length < 2 ^ 31 := by decide
  have hall := analyze_iff { rawData := some twoFrames } twoFrames (some [.kEventNode .kDraw])
  refine ⟨(hall.1 rfl).mpr ⟨hsize, .inl (by decide)⟩, ?_⟩
  obtain ⟨p, hp⟩ := hall.2.1 [.update (some twoFrames), .analyze none] (by simpa using hsize)
  obtain ⟨p', hp'⟩ := hall.2.1
    [.update (some twoFrames), .analyze (some []), .update none, .analyze none]
    (by simpa using hsize)
  exact ⟨p, hp, by rw [hp', hall.2.2 _ _ _ _ hp' hp rfl]⟩

/-- A record of a frame of its own. -/
def singleRecord (i : ℕ) : PerfMetricsRecord := { frameId := i, metricValues := [1] }

/-- Many frames of a single record. -/
def manyFrames (n : ℕ) : PerfMetricsData where
  metricNames := ["COUNTER_A"]
  records := (List.range n).map singleRecord
  complete := by
    intro r hr
    obtain ⟨i, -, rfl⟩ := List.mem_map.mp hr
    rfl

theorem frames_manyFrames (n : ℕ) :
    frames (manyFrames n).records = (List.range n).map fun i => [singleRecord i] := by
  induction n with
  | zero => rfl
  | succ n ih =>
    rw [manyFrames, frames] at ih ⊢
    simp only [List.range_succ, List.map_append, List.map_singleton] at ih ⊢
    rw [runs_concat_of_ne, ih]
    intro r hr
    obtain ⟨i, hi, rfl⟩ := List.mem_map.mp (List.mem_of_getLast? hr)
    exact Nat.ne_of_lt (List.mem_range.mp hi)

theorem matching_manyFrames {n : ℕ} (h : 0 < n) :
    (matching (manyFrames n).records).length = n ∧
      (template (manyFrames n).records).length = 1 := by
  have hne : (manyFrames n).records ≠ [] := by simpa [manyFrames] using Nat.ne_of_gt h
  have htemplate := template_mem hne
  rw [frames_manyFrames] at htemplate
  obtain ⟨j, -, hj⟩ := List.mem_map.mp htemplate
  rw [matching, frames_manyFrames, ← hj, List.filter_eq_self.mpr]
  · exact ⟨by simp, rfl⟩
  · intro frame hframe
    obtain ⟨i, -, rfl⟩ := List.mem_map.mp hframe
    rfl

theorem not_aggregates_manyFrames {n : ℕ} (hpos : 0 < n) (hn : n % 2 ^ 32 = 0) : ¬ ∃ p',
    analyze { rawData := some (manyFrames n) } none = some p' ∧
      Aggregates (manyFrames n) p'.computedRecords := by
  obtain ⟨hmatching, htemplate⟩ := matching_manyFrames hpos
  rintro ⟨p', hp', haggregates⟩
  obtain ⟨c, hc, heq⟩ := @analyze_eq { rawData := some (manyFrames n) } _ none rfl
    (by rw [htemplate]; norm_num)
  rw [heq] at hp'
  rw [← Option.some.inj hp'] at haggregates
  rcases (aggregates_iff hc).mp haggregates with h | h
  · omega
  · have := (h 0 (by omega) 0 (by simp [manyFrames])).2
    omega

/-- There is no average over `2 ^ 32` matching frames. -/
theorem manyFrames_not_aggregated : ¬ ∃ p',
    analyze { rawData := some (manyFrames (2 ^ 32)) } none = some p' ∧
      Aggregates (manyFrames (2 ^ 32)) p'.computedRecords :=
  not_aggregates_manyFrames (by norm_num) (by norm_num)

end Dive.PerfMetricsDataProvider
