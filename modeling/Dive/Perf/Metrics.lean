import Dive.Hierarchy.EventInfo
import Dive.Lib.Segments
import Mathlib.Algebra.Order.Field.Rat
import Mathlib.Logic.Function.Basic

/-!
# Performance metrics: loading, correlation, aggregation

* `PerfMetricsData.loadFromCsv`: the records of a file, each with a value for each metric.
* `Correlator.extractDraws`: the draws of a command hierarchy, without those of the tile passes.
* `Correlator.analyzeRecords`: the template frame, its draws and the records that match it.
* `PerfMetricsDataProvider.analyze`, `PerfMetricsDataProvider.update`.

Metric values are rationals. An index is `none` where the source has `kInvalid`.
-/

namespace Dive

open Segments

/-! ## Records -/

structure PerfMetricsRecord where
  contextId : ℕ := 0
  processId : ℕ := 0
  frameId : ℕ := 0
  cmdBufferId : ℕ := 0
  drawId : ℕ := 0
  drawLabel : ℕ := 0
  programId : ℕ := 0
  drawType : ℕ := 0
  lrzState : ℕ := 0
  metricValues : List ℚ := []
  deriving DecidableEq, Inhabited

def isMetricsRecordDrawOrDispatch (record : PerfMetricsRecord) : Bool :=
  record.drawType == 1 || record.drawType == 3

inductive MetricType
  | kUnknown
  | kCount
  | kPercent
  deriving DecidableEq

/-- The type of a metric; the texts are not read here. -/
structure MetricInfo where
  metricType : MetricType

/-- `SafeConvertFromString` at the types of the fields. -/
structure Conversions where
  toUint64 : String → Option ℕ
  toUint32 : String → Option ℕ
  toUint8 : String → Option ℕ
  toDouble : String → Option ℚ

/-- The headers of the fixed columns. -/
def kFixedHeaders : List String :=
  ["ContextID", "ProcessID", "FrameID", "CmdBufferID", "DrawID", "DrawType", "DrawLabel",
    "ProgramID", "LRZState"]

def kFixedPerfMetricsDataHeaderCount : ℕ := kFixedHeaders.length

/-- The names of the metrics, behind the fixed headers. -/
def parseHeaders (header : List String) : Option (List String) :=
  if header.take kFixedPerfMetricsDataHeaderCount = kFixedHeaders then
    some (header.drop kFixedPerfMetricsDataHeaderCount)
  else none

section Load

variable (c : Conversions)

def parseRecordFixedFields (fields : List String) : Option PerfMetricsRecord := do
  if fields.length < kFixedPerfMetricsDataHeaderCount then none
  let contextId ← c.toUint64 (fields.getD 0 "")
  let processId ← c.toUint64 (fields.getD 1 "")
  let frameId ← c.toUint64 (fields.getD 2 "")
  let cmdBufferId ← c.toUint64 (fields.getD 3 "")
  let drawId ← c.toUint32 (fields.getD 4 "")
  let drawType ← c.toUint8 (fields.getD 5 "")
  let drawLabel ← c.toUint32 (fields.getD 6 "")
  let programId ← c.toUint64 (fields.getD 7 "")
  let lrzState ← c.toUint8 (fields.getD 8 "")
  some { contextId, processId, frameId, cmdBufferId, drawId, drawLabel, programId, drawType
         lrzState }

/-- One value of the loop in `ParseMetrics`. -/
def parseMetric (fields : List String) (record : PerfMetricsRecord)
    (info : Option MetricInfo × ℕ) : Option PerfMetricsRecord := do
  let _ ← info.1
  let value ← c.toDouble (fields.getD (kFixedPerfMetricsDataHeaderCount + info.2) "")
  some { record with metricValues := record.metricValues ++ [value] }

def parseMetrics (fields : List String) (metricInfos : List (Option MetricInfo))
    (record : PerfMetricsRecord) : Option PerfMetricsRecord :=
  metricInfos.zipIdx.foldlM (parseMetric c fields) record

/-- One line of the file; a malformed one is skipped. -/
def parseLine (metricInfos : List (Option MetricInfo)) (fields : List String) :
    Option PerfMetricsRecord :=
  if fields.length ≠ kFixedPerfMetricsDataHeaderCount + metricInfos.length then none
  else (parseRecordFixedFields c fields).bind (parseMetrics c fields metricInfos)

variable {c}

theorem parseMetrics_length {fields : List String} {metricInfos : List (Option MetricInfo)}
    {record record' : PerfMetricsRecord}
    (h : parseMetrics c fields metricInfos record = some record') :
    record'.metricValues.length = record.metricValues.length + metricInfos.length := by
  rw [parseMetrics] at h
  have hlen : metricInfos.length = metricInfos.zipIdx.length := by simp
  rw [hlen]
  clear hlen
  generalize metricInfos.zipIdx = infos at h
  induction infos generalizing record with
  | nil => simp [← Option.some.inj h]
  | cons info infos ih =>
    simp only [List.foldlM_cons, parseMetric, Option.bind_eq_bind, Option.bind_eq_some_iff,
      Option.some.injEq] at h
    obtain ⟨_, ⟨_, -, _, -, rfl⟩, hrest⟩ := h
    have := ih hrest
    simp only [List.length_append, List.length_cons, List.length_nil] at this ⊢
    omega

theorem parseRecordFixedFields_metricValues {fields : List String} {record : PerfMetricsRecord}
    (h : parseRecordFixedFields c fields = some record) : record.metricValues = [] := by
  rw [parseRecordFixedFields] at h
  split_ifs at h
  · cases h
  · simp only [Option.bind_eq_bind, Option.bind_eq_some_iff, Option.some.injEq] at h
    obtain ⟨_, -, _, -, _, -, _, -, _, -, _, -, _, -, _, -, _, -, rfl⟩ := h
    rfl

theorem parseLine_length {metricInfos : List (Option MetricInfo)} {fields : List String}
    {record : PerfMetricsRecord} (h : parseLine c metricInfos fields = some record) :
    record.metricValues.length = metricInfos.length := by
  rw [parseLine] at h
  split_ifs at h
  obtain ⟨record₀, hfixed, hmetrics⟩ := Option.bind_eq_some_iff.mp h
  rw [parseMetrics_length hmetrics, parseRecordFixedFields_metricValues hfixed]
  exact Nat.zero_add _

end Load

/-- The records of a file: each has a value for each metric. -/
structure PerfMetricsData where
  metricNames : List String
  records : List PerfMetricsRecord
  complete : ∀ r ∈ records, r.metricValues.length = metricNames.length

/-- `LoadFromCsv` on the fields of the header line and of the lines behind it. -/
def PerfMetricsData.loadFromCsv (c : Conversions) (availableMetrics : String → Option MetricInfo)
    (header : List String) (lines : List (List String)) : Option PerfMetricsData := do
  let metricNames ← parseHeaders header
  let metricInfos := metricNames.map availableMetrics
  if metricInfos.all fun info => info.any fun info => info.metricType != .kUnknown then
    some {
      metricNames
      records := lines.filterMap (parseLine c metricInfos)
      complete := by
        intro r hr
        obtain ⟨fields, -, hline⟩ := List.mem_filterMap.mp hr
        rw [parseLine_length hline, List.length_map] }
  else none

/-! ## The correlator -/

/-- A node of the command hierarchy, as the extraction of draws sees it: a render marker may be in
the filter list of the binning passes. -/
inductive HierarchyNode
  | kSubmitNode
  | kRenderMarkerNode (binningPassOnlyExcluded : Bool)
  | kGfxrVulkanDrawCommandNode
  | kEventNode (type : EventType)
  | other

abbrev CommandHierarchy := List HierarchyNode

/-- An index; `none` is `kInvalid`. -/
abbrev IndexWrapper := Option ℕ

/-- `Into` for an array. -/
def IndexWrapper.into (index : IndexWrapper) (v : List IndexWrapper) : IndexWrapper :=
  index.bind fun i => v.getD i none

/-- Draws of the capture, nodes and records. -/
structure Correlator where
  drawToNode : List IndexWrapper := []
  nodeToDraw : ℕ → IndexWrapper := fun _ => none
  drawToMetric : List IndexWrapper := []
  metricToDraw : List IndexWrapper := []
  recordToMetric : List IndexWrapper := []

namespace Correlator

def getPatternSize (c : Correlator) : ℕ := c.metricToDraw.length

def matchOf (c : Correlator) (index : IndexWrapper) : IndexWrapper := index.into c.recordToMetric

def correlationEnabled (c : Correlator) : Bool :=
  c.drawToNode.isEmpty || c.drawToMetric.length == c.drawToNode.length

def requireCorrelationEnabled (c : Correlator) (index : IndexWrapper) : IndexWrapper :=
  if c.correlationEnabled then index else none

def getDrawFromMetric (c : Correlator) (index : IndexWrapper) : IndexWrapper :=
  (c.requireCorrelationEnabled index).into c.metricToDraw

def getMetricFromDraw (c : Correlator) (index : IndexWrapper) : IndexWrapper :=
  (c.requireCorrelationEnabled index).into c.drawToMetric

def getDrawFromNode (c : Correlator) (index : IndexWrapper) : IndexWrapper :=
  index.bind c.nodeToDraw

/-- The local variables of `ExtractDraws`; `draws` points to the alias draws or to the actual
ones. -/
structure Extraction where
  nodeToDraw : ℕ → IndexWrapper := fun _ => none
  gfxrDraws : List ℕ := []
  actualDraws : List ℕ := []
  aliasDraws : List ℕ := []
  drawsIsAlias : Bool := false

/-- Gives the `i`-th node of `draws` the draw index `base + i`. -/
def assignDraws (nodeToDraw : ℕ → IndexWrapper) (base : ℕ) (draws : List ℕ) : ℕ → IndexWrapper :=
  draws.zipIdx.foldl (fun m (node, i) => Function.update m node (some (base + i))) nodeToDraw

/-- A tile pass has the draws of the binning pass before it. -/
def dedupe (s : Extraction) : Extraction :=
  let base := s.actualDraws.length - s.aliasDraws.length
  { s with
    nodeToDraw :=
      if s.aliasDraws.length ≤ s.actualDraws.length then
        assignDraws s.nodeToDraw base s.aliasDraws
      else s.nodeToDraw
    aliasDraws := []
    drawsIsAlias := false }

/-- One node in `ExtractDraws`. -/
def extractNode (s : Extraction) (node : HierarchyNode × ℕ) : Extraction :=
  match node.1 with
  | .kSubmitNode => dedupe s
  | .kRenderMarkerNode binningPassOnlyExcluded =>
    let s := dedupe s
    if binningPassOnlyExcluded then { s with drawsIsAlias := true } else s
  | .kGfxrVulkanDrawCommandNode => { s with gfxrDraws := s.gfxrDraws ++ [node.2] }
  | .kEventNode type =>
    if type = .kDraw ∨ type = .kDispatch then
      if s.drawsIsAlias then { s with aliasDraws := s.aliasDraws ++ [node.2] }
      else { s with actualDraws := s.actualDraws ++ [node.2] }
    else s
  | .other => s

/-- The draws, in order, and the draw of each node. -/
def extractDraws (commandHierarchy : CommandHierarchy) : List IndexWrapper × (ℕ → IndexWrapper) :=
  let s := dedupe (commandHierarchy.zipIdx.foldl extractNode {})
  let nodeToDraw := assignDraws (assignDraws s.nodeToDraw 0 s.actualDraws) 0 s.gfxrDraws
  ((if s.actualDraws ≠ [] then s.actualDraws else s.gfxrDraws).map some, nodeToDraw)

def analyzeCommands (c : Correlator) (commandHierarchy : CommandHierarchy) : Correlator :=
  { c with
    drawToNode := (extractDraws commandHierarchy).1
    nodeToDraw := (extractDraws commandHierarchy).2 }

def matchDrawSignatures (signatures frame : List PerfMetricsRecord) : Bool :=
  signatures.length == frame.length && (signatures.zip frame).all fun (signature, record) =>
    record.cmdBufferId == signature.cmdBufferId && record.drawId == signature.drawId

/-- The draws of the template frame: `draw_to_metric`, `metric_to_draw`. -/
def indexDraws (template : List PerfMetricsRecord) : List IndexWrapper × List IndexWrapper :=
  template.zipIdx.foldl (fun (drawToMetric, metricToDraw) (record, i) =>
    if isMetricsRecordDrawOrDispatch record then
      (drawToMetric ++ [some i], metricToDraw.set i (some drawToMetric.length))
    else (drawToMetric, metricToDraw)) ([], List.replicate template.length none)

/-- The second `emit_frame`. Its loop variable is an `int`: a frame with `2 ^ 31` records makes it
overflow, and the rest has no defined result. -/
def matchFrame (records template : List PerfMetricsRecord)
    (recordToMetric : Option (List IndexWrapper)) (start stop : ℕ) : Option (List IndexWrapper) :=
  recordToMetric.bind fun recordToMetric =>
    if matchDrawSignatures template (slice records start (stop - start)) then
      if stop - start < 2 ^ 31 then
        some ((List.range (stop - start)).foldl (fun m i => m.set (start + i) (some i))
          recordToMetric)
      else none
    else some recordToMetric

def analyzeRecords (c : Correlator) (records : List PerfMetricsRecord) : Option Correlator :=
  if records = [] then some { c with recordToMetric := [] }
  else
    let best := walk PerfMetricsRecord.frameId keepLongest records (0, 0)
    let template := slice records best.1 best.2
    let recordToMetric := walk PerfMetricsRecord.frameId (matchFrame records template) records
      (some (List.replicate records.length none))
    recordToMetric.map fun recordToMetric =>
      { c with
        recordToMetric
        drawToMetric := (indexDraws template).1
        metricToDraw := (indexDraws template).2 }

end Correlator

/-! ## The provider -/

structure PerfMetricsDataProvider where
  rawData : Option PerfMetricsData := none
  computedRecords : List PerfMetricsRecord := []
  correlator : Correlator := {}

/-- `m_record_count` is a `uint32_t`. -/
structure MetricSumWithRecordCount where
  metricSums : List ℚ := []
  recordCount : ℕ := 0

/-- `std::vector::resize`. -/
def resize {α : Type} (l : List α) (n : ℕ) (a : α) : List α :=
  l.take n ++ List.replicate (n - l.length) a

namespace PerfMetricsDataProvider

/-- One record, added to the computed record and the sums at its position. -/
def accumulate (numMetrics : ℕ) (record : PerfMetricsRecord)
    (cell : PerfMetricsRecord × MetricSumWithRecordCount) :
    PerfMetricsRecord × MetricSumWithRecordCount :=
  let cell :=
    if cell.2.recordCount = 0 then
      (record, { cell.2 with metricSums := resize cell.2.metricSums numMetrics 0 })
    else cell
  if record.metricValues.length = numMetrics then
    (cell.1,
      { metricSums := List.zipWith (· + ·) cell.2.metricSums record.metricValues
        recordCount := (cell.2.recordCount + 1) % 2 ^ 32 })
  else cell

/-- The averaged record at a position. -/
def average (numMetrics : ℕ) (cell : PerfMetricsRecord × MetricSumWithRecordCount) :
    PerfMetricsRecord :=
  { cell.1 with
    frameId := 0
    metricValues :=
      if cell.2.recordCount = 0 ∨ cell.2.metricSums = [] then []
      else (List.range numMetrics).map fun i => cell.2.metricSums.getD i 0 / cell.2.recordCount }

/-- The data are replaced. -/
def update (p : PerfMetricsDataProvider) (data : Option PerfMetricsData) :
    PerfMetricsDataProvider :=
  match data with
  | none => p
  | some data => { rawData := some data, computedRecords := [], correlator := {} }

/-- The sums over the records, from the computed records that are there. -/
def sumRecords (correlator : Correlator) (numMetrics : ℕ) (records : List PerfMetricsRecord)
    (computedRecords : List PerfMetricsRecord) :
    List (PerfMetricsRecord × MetricSumWithRecordCount) :=
  records.zipIdx.foldl
    (fun cells record =>
      match correlator.matchOf (some record.2) with
      | none => cells
      | some patternIndex => cells.modify patternIndex (accumulate numMetrics record.1))
    (computedRecords.map fun record => (record, {}))

/-- `Analyze`; the computed records of an earlier call are still there. -/
def analyze (p : PerfMetricsDataProvider) (commandHierarchy : Option CommandHierarchy) :
    Option PerfMetricsDataProvider :=
  match p.rawData with
  | none => some p
  | some data =>
    let numMetrics := data.metricNames.length
    let correlator : Correlator :=
      match commandHierarchy with
      | none => {}
      | some commandHierarchy => Correlator.analyzeCommands {} commandHierarchy
    (correlator.analyzeRecords data.records).map fun correlator =>
      let cells := sumRecords correlator numMetrics data.records
        (resize p.computedRecords correlator.getPatternSize {})
      { p with
        correlator
        computedRecords := cells.map (average numMetrics) }

end PerfMetricsDataProvider

end Dive
