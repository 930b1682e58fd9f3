import Dive.TraceStats.Gather
import Dive.Lib.Segments
import Mathlib.Data.Prod.Lex

/-!
# What the statistics of a trace count

* `category`: the events that a statistic counts by their type.
* `CountsOnce`: each event counts once in each category that it belongs to, the passes are the runs
  of a mode, and each shader counts once for each stage that it is referenced in.
* `count_typeStats`: what the chain of alternatives gives.
* `Gathered`: the invariant of the loop over the events, kept by `Gathered.gatherEvent`.
* `CountsAll`: no event is missed, no counter overflows, no shader has two masks in one stage.
* **`countsOnce_iff`**: the statistics count each thing once exactly for the captures that
  `CountsAll` describes.
* **`resolveAndClear_not_countsOnce`**: the clear of a resolve that clears.
-/

namespace Dive.TraceStats

/-! ## The law -/

/-- The events that a statistic counts by their type. -/
def category : Stats → Option (EventInfo → Bool)
  | .kBinningDraws => some fun info => info.type = .kDraw ∧ info.renderMode = .kBinningVis
  | .kDirectDraws => some fun info =>
    info.type = .kDraw ∧ (info.renderMode = .kDirect ∨ info.renderMode = .kBinningDirect)
  | .kTiledDraws => some fun info => info.type = .kDraw ∧ info.renderMode = .kTiled
  | .kDispatches => some fun info => info.type = .kDispatch
  | .kWaitMemWrites => some fun info => info.type = .kWaitMemWrites
  | .kWaitForIdle => some fun info => info.type = .kWaitForIdle
  | .kWaitForMe => some fun info => info.type = .kWaitForMe
  | .kTotalResolves => some fun info => info.type.isResolve ∨ info.type.isGmemClear
  | .kColorSysMemToGmemResolves => some fun info => info.type = .kColorSysMemToGmemResolve
  | .kColorGmemToSysMemResolves => some fun info =>
    info.type = .kColorGmemToSysMemResolve ∨ info.type = .kColorGmemToSysMemResolveAndClear
  | .kDepthSysMemToGmemResolves => some fun info => info.type = .kDepthSysMemToGmemResolve
  | .kDepthGmemToSysMemResolves => some fun info =>
    info.type = .kDepthGmemToSysMemResolve ∨ info.type = .kDepthGmemToSysMemResolveAndClear
  | .kColorClearGmemResolves => some fun info =>
    info.type = .kColorClearGmem ∨ info.type = .kColorGmemToSysMemResolveAndClear
  | .kDepthClearGmemResolves => some fun info =>
    info.type = .kDepthClearGmem ∨ info.type = .kDepthGmemToSysMemResolveAndClear
  | _ => none

/-- The maximal runs of events in a render mode. -/
def passes (renderMode : RenderModeType) (events : List TracedEvent) : ℕ :=
  (Segments.runs (fun event => event.renderMode) events).countP fun run =>
    run.all fun event => event.renderMode = renderMode

/-- The shader and the stage of a reference. -/
def shaderStage (ref : ShaderReference) : UInt32 × ShaderStage := (ref.shaderIndex, ref.stage)

namespace CaptureMetadata

variable (m : CaptureMetadata)

/-- The references of all events. -/
def references : List ShaderReference := m.eventInfo.flatMap TracedEvent.references

/-- The shaders that are referenced, with their stages. -/
def shaderStages : List (UInt32 × ShaderStage) :=
  (m.references.map shaderStage).dedup

/-- Some event uses the shader in the binning pass. -/
def isBinning (shader : UInt32 × ShaderStage) : Bool :=
  m.references.any fun ref => shaderStage ref = shader ∧ ref.enableMask &&& 1 ≠ 0

end CaptureMetadata

/-- The statistics are the order statistics of the list, and zero if it is empty. -/
def IsOrderOf {w : ℕ} (c : CaptureStats) (median min max total : Stats)
    (array : List (BitVec w)) : Prop :=
  ∀ stat ∈ [median, min, max, total],
    c.statsList stat = (gatherOrder {} median min max total array).statsList stat

/-- Each thing is counted once. -/
structure CountsOnce (m : CaptureMetadata) (c : CaptureStats) : Prop where
  events : ∀ stat belongs, category stat = some belongs →
    c.statsList stat = m.eventInfo.countP fun event => belongs event.toEventInfo
  binningPasses : c.statsList .kNumBinningPasses = passes .kBinningVis m.eventInfo
  tilingPasses : c.statsList .kNumTilingPasses = passes .kTiled m.eventInfo
  binningVS : c.statsList .kBinningVS =
    m.shaderStages.countP fun shader => shader.2 = .kShaderStageVs ∧ m.isBinning shader
  nonBinningVS : c.statsList .kNonBinningVS =
    m.shaderStages.countP fun shader => shader.2 = .kShaderStageVs ∧ ¬m.isBinning shader
  nonVS : c.statsList .kNonVS =
    m.shaderStages.countP fun shader => shader.2 ≠ .kShaderStageVs
  instructions : IsOrderOf c .kMedianInstructions .kMinInstructions .kMaxInstructions
    .kTotalInstructions
    (m.shaderStages.map fun shader => (m.shader shader.1).numInstructions.toBitVec)
  gprs : IsOrderOf c .kMedianGPRs .kMinGPRs .kMaxGPRs .kTotalGPRs
    (m.shaderStages.map fun shader => (m.shader shader.1).gprCount.toBitVec)

/-- The captures without events that the chain of alternatives misses, with few passes, and with one
mask for each shader and stage. -/
structure CountsAll (m : CaptureMetadata) : Prop where
  types : ∀ event ∈ m.eventInfo, event.type ≠ .kColorGmemToSysMemResolveAndClear ∧
    event.type ≠ .kDepthGmemToSysMemResolveAndClear ∧ event.type ≠ .kSysmemToGmemResolve
  binningPasses : passes .kBinningVis m.eventInfo < 2 ^ 32
  tilingPasses : passes .kTiled m.eventInfo < 2 ^ 32
  masks : ∀ a ∈ m.references, ∀ b ∈ m.references, a.shaderIndex = b.shaderIndex →
    a.stage = b.stage → a.enableMask = b.enableMask

/-! ## One event -/

/-- The events of a category that the chain of alternatives misses. -/
def missed : Stats → EventType → Bool
  | .kTotalResolves, type => type = .kSysmemToGmemResolve
  | .kColorClearGmemResolves, type => type = .kColorGmemToSysMemResolveAndClear
  | .kDepthClearGmemResolves, type => type = .kDepthGmemToSysMemResolveAndClear
  | _, _ => false

/-- The statistics that depend on the state of a draw. -/
def stateStats : List Stats :=
  [.kDepthTestEnabled, .kDepthWriteEnabled, .kEarlyZ, .kLateZ, .kEarlyZLateZ, .kLrzEnabled,
    .kLrzWriteEnabled, .kCullModeEnabled]

variable {stat : Stats}

theorem count_ite_singleton_of_ne {s : Stats} {p : Prop} [Decidable p] (h : s ≠ stat) :
    (if p then [s] else []).count stat = 0 := by
  split_ifs
  · exact List.count_eq_zero.mpr fun hmem => h (List.mem_singleton.mp hmem).symm
  · rfl

theorem count_drawStats (h : stat ∉ stateStats) (renderMode : RenderModeType)
    (state : EventStateInfo) : (drawStats renderMode state).count stat =
      if (stat = .kBinningDraws ∧ renderMode = .kBinningVis) ∨
        (stat = .kDirectDraws ∧ (renderMode = .kDirect ∨ renderMode = .kBinningDirect)) ∨
        (stat = .kTiledDraws ∧ renderMode = .kTiled) then 1 else 0 := by
  have hne : ∀ s, s ∈ stateStats → s ≠ stat := fun s hs hstat => h (hstat ▸ hs)
  have hstates : ∀ s, s ∈ stateStats → ∀ states, (checkAndTrackState s states).count stat = 0 :=
    fun s hs states => count_ite_singleton_of_ne (hne s hs)
  have hequal : ∀ s, s ∈ stateStats → ∀ st value,
      (checkAndTrackStateEqual s st value).count stat = 0 :=
    fun s hs st value => count_ite_singleton_of_ne (hne s hs)
  have hnot : ∀ s, s ∈ stateStats → ∀ st value,
      (checkAndTrackStateNotEqual s st value).count stat = 0 :=
    fun s hs st value => count_ite_singleton_of_ne (hne s hs)
  rw [drawStats]
  simp only [List.count_append, apply_ite (List.count stat), List.count_nil,
    hstates .kDepthTestEnabled (by decide), hstates .kDepthWriteEnabled (by decide),
    hequal .kEarlyZ (by decide), hequal .kLateZ (by decide), hequal .kEarlyZLateZ (by decide),
    hstates .kLrzEnabled (by decide), hstates .kLrzWriteEnabled (by decide),
    hnot .kCullModeEnabled (by decide), ite_self, Nat.add_zero, List.count_singleton]
  cases renderMode <;> simp [@eq_comm _ stat]

/-- **What the chain of alternatives gives**: one for each category, but for what it misses. -/
theorem count_typeStats {belongs : EventInfo → Bool} (h : category stat = some belongs)
    (info : EventInfo) (state : EventStateInfo) :
    (typeStats info state).count stat =
      if belongs info ∧ missed stat info.type = false then 1 else 0 := by
  have hdraw := fun hstat => @count_drawStats stat hstat info.renderMode state
  rw [typeStats]
  cases stat <;> cases h <;> cases htype : info.type <;> simp [htype, gatherResolves, missed, hdraw,
    stateStats, EventType.isResolve, EventType.isGmemClear]

/-- The statistics that no event counts in: those behind the loop. -/
def laterStats : List Stats :=
  [.kNumBinningPasses, .kNumTilingPasses, .kBinningVS, .kNonBinningVS, .kNonVS,
    .kTotalInstructions, .kMinInstructions, .kMaxInstructions, .kMedianInstructions, .kTotalGPRs,
    .kMinGPRs, .kMaxGPRs, .kMedianGPRs]

theorem count_typeStats_of_later (h : stat ∈ laterStats) (info : EventInfo)
    (state : EventStateInfo) : (typeStats info state).count stat = 0 := by
  have hdraw := fun hstat => @count_drawStats stat hstat info.renderMode state
  rw [typeStats]
  simp only [laterStats, List.mem_cons, List.not_mem_nil, or_false] at h
  rcases h with rfl | rfl | rfl | rfl | rfl | rfl | rfl | rfl | rfl | rfl | rfl | rfl | rfl <;>
    simp [apply_ite (List.count _), gatherResolves, hdraw, stateStats]

namespace CaptureStats

variable (c : CaptureStats) (value : ℕ)

@[simp] theorem assign_statsList_self : (c.assign stat value).statsList stat = value :=
  Function.update_self ..

theorem assign_statsList_of_ne {s : Stats} (h : s ≠ stat) :
    (c.assign stat value).statsList s = c.statsList s :=
  Function.update_of_ne h ..

@[simp] theorem assign_shaderRefSet : (c.assign stat value).shaderRefSet = c.shaderRefSet := rfl

theorem foldl_increment (stats : List Stats) : stats.foldl increment c =
    { c with statsList := fun s => c.statsList s + stats.count s } := by
  induction stats generalizing c with
  | nil => rfl
  | cons s stats ih =>
    rw [List.foldl_cons, ih]
    simp only [increment, assign, mk.injEq, and_true]
    funext t
    rw [List.count_cons]
    by_cases h : s = t
    · subst h
      rw [Function.update_self, beq_self_eq_true, if_pos rfl]
      omega
    · rw [Function.update_of_ne (Ne.symm h), beq_eq_false_iff_ne.mpr h, if_neg Bool.false_ne_true,
        Nat.add_zero]

end CaptureStats

/-! ## The loop over the events -/

section Event

variable (eventState : UInt32 → EventStateInfo) (st : CaptureStats × RenderModeType)
  (event : TracedEvent × ℕ)

theorem gatherPass_statsList (c : CaptureStats) (curType renderMode : RenderModeType) :
    (gatherPass c curType renderMode).statsList = c.statsList := by
  rw [gatherPass]
  split_ifs <;> rfl

theorem gatherPass_shaderRefSet (c : CaptureStats) (curType renderMode : RenderModeType) :
    (gatherPass c curType renderMode).shaderRefSet = c.shaderRefSet := by
  rw [gatherPass]
  split_ifs <;> rfl

theorem gatherEvent_statsList : (gatherEvent eventState st event).1.statsList stat =
    st.1.statsList stat +
      (typeStats event.1.toEventInfo (eventState (UInt32.ofNat event.2))).count stat := by
  have hpass := congrFun (gatherPass_statsList st.1 st.2 event.1.renderMode) stat
  rw [← hpass]
  simp only [gatherEvent, CaptureStats.foldl_increment]
  split_ifs <;> rfl

theorem gatherEvent_shaderRefSet : (gatherEvent eventState st event).1.shaderRefSet =
    OrderedSet.insertAll referenceLt event.1.references st.1.shaderRefSet := by
  rw [← gatherPass_shaderRefSet st.1 st.2 event.1.renderMode]
  simp only [gatherEvent, CaptureStats.foldl_increment]
  split_ifs <;> rfl

theorem gatherEvent_numBinningPasses : (gatherEvent eventState st event).1.numBinningPasses =
    (gatherPass st.1 st.2 event.1.renderMode).numBinningPasses := by
  simp only [gatherEvent, CaptureStats.foldl_increment]
  split_ifs <;> rfl

theorem gatherEvent_numTilingPasses : (gatherEvent eventState st event).1.numTilingPasses =
    (gatherPass st.1 st.2 event.1.renderMode).numTilingPasses := by
  simp only [gatherEvent, CaptureStats.foldl_increment]
  split_ifs <;> rfl

end Event

/-- The render mode that an event is compared with. -/
def lastMode (events : List TracedEvent) : RenderModeType :=
  events.getLast?.elim .kUnknown fun event => event.renderMode

theorem passes_concat {renderMode : RenderModeType} (h : renderMode ≠ .kUnknown)
    (events : List TracedEvent) (event : TracedEvent) :
    passes renderMode (events ++ [event]) = passes renderMode events +
      if event.renderMode = renderMode ∧ lastMode events ≠ renderMode then 1 else 0 := by
  have hlast : events.getLast?.map (fun event => event.renderMode) ≠ some renderMode ↔
      lastMode events ≠ renderMode := by
    rw [lastMode]
    cases events.getLast? with
    | none => exact iff_of_true (Option.some_ne_none _).symm h.symm
    | some last => exact not_congr Option.some_inj
  rw [passes, Segments.countP_runs_concat]
  congr 1
  exact if_congr (and_congr_right' hlast) rfl rfl

theorem ofNat_passes_concat {renderMode : RenderModeType} (h : renderMode ≠ .kUnknown)
    (events : List TracedEvent) (event : TracedEvent) :
    UInt32.ofNat (passes renderMode (events ++ [event])) =
      if event.renderMode ≠ lastMode events ∧ event.renderMode = renderMode then
        UInt32.ofNat (passes renderMode events) + 1
      else UInt32.ofNat (passes renderMode events) := by
  rw [passes_concat h]
  by_cases hmode : event.renderMode = renderMode ∧ lastMode events ≠ renderMode
  · rw [if_pos hmode, if_pos ⟨hmode.1.trans_ne hmode.2.symm, hmode.1⟩, UInt32.ofNat_add]
    rfl
  · rw [if_neg hmode, if_neg fun hne => hmode ⟨hne.2, (hne.2.symm.trans_ne hne.1).symm⟩,
      Nat.add_zero]

/-- What holds after the events of a list. -/
structure Gathered (events : List TracedEvent) (st : CaptureStats × RenderModeType) : Prop where
  counts : ∀ stat belongs, category stat = some belongs → st.1.statsList stat =
    events.countP fun event => belongs event.toEventInfo ∧ missed stat event.type = false
  later : ∀ stat ∈ laterStats, st.1.statsList stat = 0
  binningPasses : st.1.numBinningPasses = UInt32.ofNat (passes .kBinningVis events)
  tilingPasses : st.1.numTilingPasses = UInt32.ofNat (passes .kTiled events)
  mode : st.2 = lastMode events
  shaderRefSet : st.1.shaderRefSet =
    OrderedSet.insertAll referenceLt (events.flatMap TracedEvent.references) []

theorem Gathered.nil : Gathered [] ({}, .kUnknown) where
  counts _ _ _ := rfl
  later _ _ := rfl
  binningPasses := rfl
  tilingPasses := rfl
  mode := rfl
  shaderRefSet := rfl

/-- **One event.** -/
theorem Gathered.gatherEvent {events : List TracedEvent} {st : CaptureStats × RenderModeType}
    (h : Gathered events st) (eventState : UInt32 → EventStateInfo) (event : TracedEvent) (n : ℕ) :
    Gathered (events ++ [event]) (gatherEvent eventState st (event, n)) where
  counts stat belongs hbelongs := by
    rw [gatherEvent_statsList, h.counts stat belongs hbelongs, count_typeStats hbelongs,
      List.countP_append, List.countP_singleton]
    simp only [decide_eq_true_eq]
  later stat hstat := by
    rw [gatherEvent_statsList, h.later stat hstat, count_typeStats_of_later hstat]
  binningPasses := by
    rw [gatherEvent_numBinningPasses, ofNat_passes_concat (by decide), ← h.binningPasses, ← h.mode,
      gatherPass, ite_and]
    split_ifs <;> rfl
  tilingPasses := by
    rw [gatherEvent_numTilingPasses, ofNat_passes_concat (by decide), ← h.tilingPasses, ← h.mode,
      gatherPass, ite_and]
    split_ifs with hne hbinning htiled
    · exact absurd (hbinning.symm.trans htiled) (by decide)
    all_goals rfl
  mode := by rw [lastMode, List.getLast?_concat]; rfl
  shaderRefSet := by
    rw [gatherEvent_shaderRefSet, h.shaderRefSet, List.flatMap_append, List.flatMap_singleton,
      OrderedSet.insertAll, OrderedSet.insertAll, OrderedSet.insertAll, List.foldl_append]

/-- **All events.** -/
theorem gathered (eventState : UInt32 → EventStateInfo) (events : List TracedEvent) :
    Gathered events (events.zipIdx.foldl (TraceStats.gatherEvent eventState) ({}, .kUnknown)) := by
  induction events using List.reverseRecOn with
  | nil => exact Gathered.nil
  | append_singleton events event ih =>
    rw [List.zipIdx_append, List.foldl_append]
    exact ih.gatherEvent eventState event _

/-! ## The statistics behind the loop -/

section Later

variable {w : ℕ} {median min max total : Stats}

theorem gatherOrder_statsList (c : CaptureStats) (array : List (BitVec w))
    (h : stat ∉ [median, min, max, total]) :
    (gatherOrder c median min max total array).statsList stat = c.statsList stat := by
  simp only [List.mem_cons, List.not_mem_nil, or_false, not_or] at h
  rw [gatherOrder]
  split_ifs
  · rfl
  · rw [CaptureStats.assign_statsList_of_ne _ _ h.2.2.2,
      CaptureStats.assign_statsList_of_ne _ _ h.2.2.1,
      CaptureStats.assign_statsList_of_ne _ _ h.2.1, CaptureStats.assign_statsList_of_ne _ _ h.1]

theorem gatherOrder_shaderRefSet (c : CaptureStats) (array : List (BitVec w)) :
    (gatherOrder c median min max total array).shaderRefSet = c.shaderRefSet := by
  rw [gatherOrder]
  split_ifs <;> rfl

theorem isOrderOf_gatherOrder {c : CaptureStats} (array : List (BitVec w))
    (h : ∀ stat ∈ [median, min, max, total], c.statsList stat = 0) :
    IsOrderOf (gatherOrder c median min max total array) median min max total array := by
  intro stat hstat
  rw [gatherOrder, gatherOrder]
  split_ifs
  · exact h stat hstat
  · simp only [CaptureStats.assign, Function.update_apply]
    split_ifs with htotal hmax hmin hmedian
    all_goals first
      | rfl
      | exact h stat hstat

theorem gatherTotalMinMaxMedian_of_perm {a b : List (BitVec w)} (h : a.Perm b) :
    gatherTotalMinMaxMedian a = gatherTotalMinMaxMedian b := by
  have hsort : (a.map BitVec.toNat).mergeSort = (b.map BitVec.toNat).mergeSort := by
    refine List.Perm.eq_of_sortedLE List.sortedLE_mergeSort List.sortedLE_mergeSort ?_
    exact (List.mergeSort_perm _ _).trans ((h.map _).trans (List.mergeSort_perm _ _).symm)
  rw [gatherTotalMinMaxMedian, gatherTotalMinMaxMedian, hsort]

theorem IsOrderOf.of_perm {c : CaptureStats} {a b : List (BitVec w)} (h : a.Perm b)
    (ha : IsOrderOf c median min max total a) : IsOrderOf c median min max total b := by
  intro stat hstat
  rw [ha stat hstat, gatherOrder, gatherOrder, gatherTotalMinMaxMedian_of_perm h]
  exact congrArg (fun c : CaptureStats => c.statsList stat)
    (if_congr ⟨fun ha => List.perm_nil.mp (ha ▸ h.symm), fun hb => List.perm_nil.mp (hb ▸ h)⟩
      rfl rfl)

end Later

/-! ## The shaders -/

section Shaders

/-- The key of `ShaderReference::operator<`. -/
def referenceKey (ref : ShaderReference) : ℕ ×ₗ ℕ ×ₗ ℕ :=
  toLex (ref.shaderIndex.toNat, toLex (stageNumber ref.stage, ref.enableMask.toNat))

theorem stageNumber_injective : Function.Injective stageNumber := by
  intro a b h
  cases a <;> cases b <;> first | rfl | exact absurd h (by decide)

theorem referenceKey_injective : Function.Injective referenceKey := by
  intro a b h
  have hpair := Prod.ext_iff.mp (toLex.injective h)
  have hrest := Prod.ext_iff.mp (toLex.injective hpair.2)
  rw [ShaderReference.mk.injEq]
  exact ⟨UInt32.toNat_inj.mp hpair.1, stageNumber_injective hrest.1, UInt32.toNat_inj.mp hrest.2⟩

theorem referenceLt_iff (a b : ShaderReference) :
    referenceLt a b = true ↔ referenceKey a < referenceKey b := by
  rw [referenceKey, referenceKey, Prod.Lex.toLex_lt_toLex, Prod.Lex.toLex_lt_toLex, referenceLt]
  split_ifs with hindex hstage
  · -- other shaders
    rw [decide_eq_true_eq, UInt32.lt_iff_toNat_lt]
    exact (or_iff_left fun h => hindex (UInt32.toNat_inj.mp h.1)).symm
  · -- other stages
    rw [not_not] at hindex
    rw [decide_eq_true_eq, hindex, or_iff_right (Nat.lt_irrefl _), and_iff_right rfl]
    exact (or_iff_left fun h => hstage (stageNumber_injective h.1)).symm
  · rw [not_not] at hindex hstage
    rw [decide_eq_true_eq, UInt32.lt_iff_toNat_lt, hindex, hstage, or_iff_right (Nat.lt_irrefl _),
      and_iff_right rfl, or_iff_right (Nat.lt_irrefl _), and_iff_right rfl]

theorem isStrictOrder_referenceLt : OrderedSet.IsStrictOrder referenceLt :=
  .of_key referenceKey_injective referenceLt_iff

/-- The statistic that a reference counts in. -/
def shaderStat (ref : ShaderReference) : Stats :=
  if ref.stage = .kShaderStageVs then
    if ref.enableMask &&& 1 ≠ 0 then .kBinningVS else .kNonBinningVS
  else .kNonVS

theorem gatherShader_eq (c : CaptureStats) (ref : ShaderReference) :
    gatherShader c ref = c.increment (shaderStat ref) := by
  rw [gatherShader, shaderStat]
  split_ifs <;> rfl

theorem foldl_gatherShader (c : CaptureStats) (refs : List ShaderReference) :
    refs.foldl gatherShader c =
      { c with statsList := fun s => c.statsList s + (refs.map shaderStat).count s } := by
  have hstep : gatherShader = fun c ref => c.increment (shaderStat ref) := by
    funext c ref
    exact gatherShader_eq c ref
  rw [← CaptureStats.foldl_increment, List.foldl_map, hstep]

theorem shaderStat_mem (ref : ShaderReference) :
    shaderStat ref ∈ [Stats.kBinningVS, .kNonBinningVS, .kNonVS] := by
  rw [shaderStat]
  split_ifs <;> decide

theorem count_shaderStat_of_notMem (h : stat ∉ [Stats.kBinningVS, .kNonBinningVS, .kNonVS])
    (refs : List ShaderReference) : (refs.map shaderStat).count stat = 0 := by
  refine List.count_eq_zero.mpr fun hmem => ?_
  obtain ⟨ref, -, hstat⟩ := List.mem_map.mp hmem
  exact h (hstat ▸ shaderStat_mem ref)

theorem count_shaderStat (refs : List ShaderReference) :
    (refs.map shaderStat).count .kBinningVS + (refs.map shaderStat).count .kNonBinningVS +
      (refs.map shaderStat).count .kNonVS = refs.length := by
  induction refs with
  | nil => rfl
  | cons ref refs ih =>
    have hmem := shaderStat_mem ref
    simp only [List.mem_cons, List.not_mem_nil, or_false] at hmem
    simp only [List.map_cons, List.count_cons, List.length_cons]
    rcases hmem with h | h | h <;> rw [h] <;> simp <;> omega

end Shaders

/-! ## All statistics -/

section All

variable (m : CaptureMetadata)

theorem gatherTraceStats_eq :
    gatherTraceStats (fun _ => false) m = gatherShaders m (gatherIndices m) := by
  rw [gatherTraceStats, List.any_eq_false.mpr fun _ _ => Bool.false_ne_true,
    if_neg Bool.false_ne_true]

theorem gatherIndices_shaderRefSet :
    (gatherIndices m).shaderRefSet = OrderedSet.insertAll referenceLt m.references [] := by
  rw [gatherIndices, CaptureStats.assign_shaderRefSet, gatherOrder_shaderRefSet,
    CaptureStats.assign_shaderRefSet, CaptureStats.assign_shaderRefSet]
  exact (gathered m.eventState m.eventInfo).shaderRefSet

theorem shaderRefSet_perm : (gatherIndices m).shaderRefSet.Perm m.references.dedup := by
  rw [gatherIndices_shaderRefSet]
  exact OrderedSet.insertAll_perm_dedup isStrictOrder_referenceLt _

theorem gatherIndices_statsList (h : stat ∉ [Stats.kNumBinningPasses, .kNumTilingPasses, .kShaders])
    (horder : stat ∉ [Stats.kMedianIndices, .kMinIndices, .kMaxIndices, .kTotalIndices]) :
    (gatherIndices m).statsList stat = (gatherEvents m).statsList stat := by
  simp only [List.mem_cons, List.not_mem_nil, or_false, not_or] at h
  rw [gatherIndices, CaptureStats.assign_statsList_of_ne _ _ h.2.2,
    gatherOrder_statsList _ _ horder, CaptureStats.assign_statsList_of_ne _ _ h.2.1,
    CaptureStats.assign_statsList_of_ne _ _ h.1]

theorem gatherIndices_numBinningPasses : (gatherIndices m).statsList .kNumBinningPasses =
    passes .kBinningVis m.eventInfo % 2 ^ 32 := by
  rw [gatherIndices, CaptureStats.assign_statsList_of_ne _ _ (by decide),
    gatherOrder_statsList _ _ (by decide), CaptureStats.assign_statsList_of_ne _ _ (by decide),
    CaptureStats.assign_statsList_self, gatherEvents,
    (gathered m.eventState m.eventInfo).binningPasses, UInt32.toNat_ofNat']

theorem gatherIndices_numTilingPasses : (gatherIndices m).statsList .kNumTilingPasses =
    passes .kTiled m.eventInfo % 2 ^ 32 := by
  rw [gatherIndices, CaptureStats.assign_statsList_of_ne _ _ (by decide),
    gatherOrder_statsList _ _ (by decide), CaptureStats.assign_statsList_self,
    gatherEvents, (gathered m.eventState m.eventInfo).tilingPasses, UInt32.toNat_ofNat']

theorem gatherShaders_statsList (c : CaptureStats)
    (hinstructions : stat ∉ [Stats.kMedianInstructions, .kMinInstructions, .kMaxInstructions,
      .kTotalInstructions])
    (hgprs : stat ∉ [Stats.kMedianGPRs, .kMinGPRs, .kMaxGPRs, .kTotalGPRs]) :
    (gatherShaders m c).statsList stat =
      c.statsList stat + (c.shaderRefSet.map shaderStat).count stat := by
  rw [gatherShaders, gatherOrder_statsList _ _ hgprs, gatherOrder_statsList _ _ hinstructions,
    foldl_gatherShader]

end All

/-! ## When everything is counted once -/

section Exact

variable {m : CaptureMetadata}

theorem mem_shaderStages {shader : UInt32 × ShaderStage} :
    shader ∈ m.shaderStages ↔ ∃ ref ∈ m.references, shaderStage ref = shader :=
  List.mem_dedup.trans List.mem_map

theorem mem_map_shaderRefSet {shader : UInt32 × ShaderStage} :
    shader ∈ (gatherIndices m).shaderRefSet.map shaderStage ↔ shader ∈ m.shaderStages := by
  rw [mem_shaderStages, List.mem_map]
  exact exists_congr fun ref => and_congr_left' ((shaderRefSet_perm m).mem_iff.trans List.mem_dedup)

theorem map_shaderStage_perm_iff :
    ((gatherIndices m).shaderRefSet.map shaderStage).Perm m.shaderStages ↔
      ∀ a ∈ m.references, ∀ b ∈ m.references, a.shaderIndex = b.shaderIndex →
        a.stage = b.stage → a.enableMask = b.enableMask := by
  have hmem : ∀ ref, ref ∈ (gatherIndices m).shaderRefSet ↔ ref ∈ m.references := fun ref =>
    (shaderRefSet_perm m).mem_iff.trans List.mem_dedup
  have hnodup : (gatherIndices m).shaderRefSet.Nodup :=
    (shaderRefSet_perm m).nodup_iff.mpr (List.nodup_dedup _)
  constructor
  · intro h a ha b hb hindex hstage
    have hmap := h.nodup_iff.mpr (List.nodup_dedup _)
    have hab := List.inj_on_of_nodup_map hmap ((hmem a).mpr ha) ((hmem b).mpr hb)
      (Prod.ext hindex hstage)
    rw [hab]
  · intro h
    refine (List.perm_ext_iff_of_nodup (hnodup.map_on fun a ha b hb hab => ?_)
      (List.nodup_dedup _)).mpr fun shader => mem_map_shaderRefSet
    have hpair := Prod.ext_iff.mp hab
    rw [ShaderReference.mk.injEq]
    exact ⟨hpair.1, hpair.2, h a ((hmem a).mp ha) b ((hmem b).mp hb) hpair.1 hpair.2⟩

theorem map_shaderStage_perm_of_length
    (h : (gatherIndices m).shaderRefSet.length = m.shaderStages.length) :
    ((gatherIndices m).shaderRefSet.map shaderStage).Perm m.shaderStages := by
  have hdedup : ((gatherIndices m).shaderRefSet.map shaderStage).dedup.Perm m.shaderStages :=
    (List.perm_ext_iff_of_nodup (List.nodup_dedup _) (List.nodup_dedup _)).mpr fun shader =>
      List.mem_dedup.trans mem_map_shaderRefSet
  have hlen := hdedup.length_eq
  rw [← h, ← List.length_map shaderStage] at hlen
  rwa [(List.dedup_sublist _).eq_of_length hlen] at hdedup

theorem countP_and_iff {α : Type} (p q : α → Bool) (l : List α) :
    (l.countP fun a => p a ∧ q a = false) = l.countP p ↔ ∀ a ∈ l, p a = true → q a = false := by
  induction l with
  | nil => simp
  | cons a l ih =>
    have hle : (l.countP fun a => p a ∧ q a = false) ≤ l.countP p :=
      List.countP_mono_left fun b _ hb => (of_decide_eq_true hb).1
    rw [List.countP_cons, List.countP_cons, List.forall_mem_cons, ← ih]
    generalize (l.countP fun a => p a ∧ q a = false) = n at hle ⊢
    cases p a <;> cases q a <;> simp
    omega

theorem countP_add_countP_add_countP {α : Type} (p q : α → Prop) [DecidablePred p]
    [DecidablePred q] (l : List α) :
    (l.countP fun a => p a ∧ q a) + (l.countP fun a => p a ∧ ¬q a) + (l.countP fun a => ¬p a) =
      l.length := by
  induction l with
  | nil => rfl
  | cons a l ih =>
    simp only [List.countP_cons, List.length_cons, decide_eq_true_eq, ← ih]
    by_cases hp : p a <;> by_cases hq : q a <;>
      simp only [hp, hq, and_true, and_false, not_true, not_false_iff, if_true, if_false] <;> omega

theorem gatherEvents_statsList_iff {belongs : EventInfo → Bool} (h : category stat = some belongs) :
    ((gatherEvents m).statsList stat = m.eventInfo.countP fun event => belongs event.toEventInfo) ↔
      ∀ event ∈ m.eventInfo, belongs event.toEventInfo = true → missed stat event.type = false := by
  rw [gatherEvents, (gathered m.eventState m.eventInfo).counts stat belongs h]
  exact countP_and_iff _ _ _

theorem notMem_of_category {belongs : EventInfo → Bool} (h : category stat = some belongs) :
    stat ∉ Stats.kShaders :: laterStats ∧
      stat ∉ [Stats.kMedianIndices, .kMinIndices, .kMaxIndices, .kTotalIndices] := by
  cases stat <;> cases h <;> decide

theorem statsList_of_category {belongs : EventInfo → Bool} (h : category stat = some belongs) :
    (gatherTraceStats (fun _ => false) m).statsList stat = (gatherEvents m).statsList stat := by
  have hnot := notMem_of_category h
  have hlater : ∀ l : List Stats, l ⊆ Stats.kShaders :: laterStats → stat ∉ l :=
    fun l hl hmem => hnot.1 (hl hmem)
  rw [gatherTraceStats_eq, gatherShaders_statsList _ _ (hlater _ (by decide))
    (hlater _ (by decide)), count_shaderStat_of_notMem (hlater _ (by decide)), Nat.add_zero,
    gatherIndices_statsList _ (hlater _ (by decide)) hnot.2]

/-- **The events of all categories.** -/
theorem events_iff : (∀ stat belongs, category stat = some belongs →
      (gatherTraceStats (fun _ => false) m).statsList stat =
        m.eventInfo.countP fun event => belongs event.toEventInfo) ↔
    ∀ event ∈ m.eventInfo, event.type ≠ .kColorGmemToSysMemResolveAndClear ∧
      event.type ≠ .kDepthGmemToSysMemResolveAndClear ∧ event.type ≠ .kSysmemToGmemResolve := by
  constructor
  · intro h event hevent
    have hstat : ∀ stat belongs, category stat = some belongs →
        belongs event.toEventInfo = true → missed stat event.type = false := by
      intro stat belongs hcategory
      have hcount := h stat belongs hcategory
      rw [statsList_of_category hcategory] at hcount
      exact (gatherEvents_statsList_iff hcategory).mp hcount event hevent
    refine ⟨fun htype => ?_, fun htype => ?_, fun htype => ?_⟩
    · have := hstat .kColorClearGmemResolves _ rfl
      simp [htype, missed] at this
    · have := hstat .kDepthClearGmemResolves _ rfl
      simp [htype, missed] at this
    · have := hstat .kTotalResolves _ rfl
      simp [htype, missed, EventType.isResolve] at this
  · intro h stat belongs hcategory
    rw [statsList_of_category hcategory, gatherEvents_statsList_iff hcategory]
    intro event hevent _
    have htype := h event hevent
    cases stat <;> simp [missed, htype]

theorem binningPasses_iff : (gatherTraceStats (fun _ => false) m).statsList .kNumBinningPasses =
    passes .kBinningVis m.eventInfo ↔ passes .kBinningVis m.eventInfo < 2 ^ 32 := by
  rw [gatherTraceStats_eq, gatherShaders_statsList _ _ (by decide) (by decide),
    count_shaderStat_of_notMem (by decide), Nat.add_zero, gatherIndices_numBinningPasses]
  exact Nat.mod_eq_iff_lt (by decide)

theorem tilingPasses_iff : (gatherTraceStats (fun _ => false) m).statsList .kNumTilingPasses =
    passes .kTiled m.eventInfo ↔ passes .kTiled m.eventInfo < 2 ^ 32 := by
  rw [gatherTraceStats_eq, gatherShaders_statsList _ _ (by decide) (by decide),
    count_shaderStat_of_notMem (by decide), Nat.add_zero, gatherIndices_numTilingPasses]
  exact Nat.mod_eq_iff_lt (by decide)

theorem statsList_of_shaderStat (h : stat ∈ [Stats.kBinningVS, .kNonBinningVS, .kNonVS]) :
    (gatherTraceStats (fun _ => false) m).statsList stat =
      ((gatherIndices m).shaderRefSet.map shaderStat).count stat := by
  have hlater : ∀ l : List Stats,
      (∀ s ∈ l, s ∉ [Stats.kBinningVS, .kNonBinningVS, .kNonVS]) → stat ∉ l :=
    fun l hl hmem => hl stat hmem h
  have hzero : (gatherEvents m).statsList stat = 0 := by
    refine (gathered m.eventState m.eventInfo).later stat ?_
    exact List.Subset.trans (by decide) (List.Subset.refl laterStats) h
  rw [gatherTraceStats_eq, gatherShaders_statsList _ _ (hlater _ (by decide))
    (hlater _ (by decide)), gatherIndices_statsList _ (hlater _ (by decide))
    (hlater _ (by decide)), hzero, Nat.zero_add]

theorem CountsAll.count_eq {p : UInt32 × ShaderStage → Bool}
    (hperm : ((gatherIndices m).shaderRefSet.map shaderStage).Perm m.shaderStages)
    (h : ∀ ref ∈ m.references, p (shaderStage ref) = true ↔ shaderStat ref = stat) :
    ((gatherIndices m).shaderRefSet.map shaderStat).count stat = m.shaderStages.countP p := by
  rw [← hperm.countP_eq, List.countP_map, List.count, List.countP_map]
  refine List.countP_congr fun ref href => ?_
  rw [Function.comp_apply, Function.comp_apply, beq_iff_eq]
  exact (h ref (List.mem_dedup.mp ((shaderRefSet_perm m).mem_iff.mp href))).symm

theorem CountsAll.isBinning_iff (h : CountsAll m) {ref : ShaderReference}
    (href : ref ∈ m.references) :
    m.isBinning (shaderStage ref) = true ↔ ref.enableMask &&& 1 ≠ 0 := by
  rw [CaptureMetadata.isBinning, List.any_eq_true]
  constructor
  · rintro ⟨other, hother, hmask⟩
    have hmask := of_decide_eq_true hmask
    have hpair := Prod.ext_iff.mp hmask.1
    rw [← h.masks other hother ref href hpair.1 hpair.2]
    exact hmask.2
  · intro hmask
    exact ⟨ref, href, decide_eq_true ⟨rfl, hmask⟩⟩

theorem foldl_gatherShader_statsList_eq_zero
    (h : stat ∈ [Stats.kTotalInstructions, .kMinInstructions, .kMaxInstructions,
      .kMedianInstructions, .kTotalGPRs, .kMinGPRs, .kMaxGPRs, .kMedianGPRs]) :
    ((gatherIndices m).shaderRefSet.foldl gatherShader (gatherIndices m)).statsList stat = 0 := by
  have hlater : stat ∈ laterStats := List.Subset.trans (by decide) (List.Subset.refl laterStats) h
  have hnot : ∀ l : List Stats, (∀ s ∈ [Stats.kTotalInstructions, .kMinInstructions,
      .kMaxInstructions, .kMedianInstructions, .kTotalGPRs, .kMinGPRs, .kMaxGPRs, .kMedianGPRs],
      s ∉ l) → stat ∉ l := fun l hl => hl stat h
  rw [foldl_gatherShader]
  dsimp only
  rw [count_shaderStat_of_notMem (hnot _ (by decide)), Nat.add_zero,
    gatherIndices_statsList _ (hnot _ (by decide)) (hnot _ (by decide))]
  exact (gathered m.eventState m.eventInfo).later stat hlater

theorem isOrderOf_instructions : IsOrderOf (gatherTraceStats (fun _ => false) m)
    .kMedianInstructions .kMinInstructions .kMaxInstructions .kTotalInstructions
    (shadersNumInstructions m (gatherIndices m).shaderRefSet) := by
  have hzero : ∀ stat ∈ [Stats.kMedianInstructions, .kMinInstructions, .kMaxInstructions,
      .kTotalInstructions], ((gatherIndices m).shaderRefSet.foldl gatherShader
        (gatherIndices m)).statsList stat = 0 := fun stat hstat =>
    foldl_gatherShader_statsList_eq_zero
      (List.Subset.trans (by decide) (List.Subset.refl _) hstat)
  intro stat hstat
  have hnot : stat ∉ [Stats.kMedianGPRs, .kMinGPRs, .kMaxGPRs, .kTotalGPRs] := by
    have hall : ∀ s ∈ [Stats.kMedianInstructions, .kMinInstructions, .kMaxInstructions,
      .kTotalInstructions], s ∉ [Stats.kMedianGPRs, .kMinGPRs, .kMaxGPRs, .kTotalGPRs] := by decide
    exact hall stat hstat
  rw [gatherTraceStats_eq, gatherShaders, gatherOrder_statsList _ _ hnot]
  exact isOrderOf_gatherOrder _ hzero stat hstat

theorem isOrderOf_gprs : IsOrderOf (gatherTraceStats (fun _ => false) m)
    .kMedianGPRs .kMinGPRs .kMaxGPRs .kTotalGPRs
    (shadersNumGprs m (gatherIndices m).shaderRefSet) := by
  rw [gatherTraceStats_eq, gatherShaders]
  refine isOrderOf_gatherOrder _ fun stat hstat => ?_
  have hnot : stat ∉ [Stats.kMedianInstructions, .kMinInstructions, .kMaxInstructions,
      .kTotalInstructions] := by
    have hall : ∀ s ∈ [Stats.kMedianGPRs, .kMinGPRs, .kMaxGPRs, .kTotalGPRs],
      s ∉ [Stats.kMedianInstructions, .kMinInstructions, .kMaxInstructions,
        .kTotalInstructions] := by decide
    exact hall stat hstat
  rw [gatherOrder_statsList _ _ hnot]
  exact foldl_gatherShader_statsList_eq_zero
    (List.Subset.trans (by decide) (List.Subset.refl _) hstat)

/-- **The captures with one mask for each shader and stage** are those whose references are as many
as the shaders and stages. -/
theorem masks_iff_length :
    (gatherIndices m).shaderRefSet.length = m.shaderStages.length ↔
      ∀ a ∈ m.references, ∀ b ∈ m.references, a.shaderIndex = b.shaderIndex →
        a.stage = b.stage → a.enableMask = b.enableMask := by
  rw [← map_shaderStage_perm_iff]
  constructor
  · exact map_shaderStage_perm_of_length
  · intro h
    rw [← h.length_eq, List.length_map]

/-- **Each thing is counted once** exactly for the captures that nothing is missed in. -/
theorem countsOnce_iff (m : CaptureMetadata) :
    CountsOnce m (gatherTraceStats (fun _ => false) m) ↔ CountsAll m := by
  constructor
  · intro h
    refine ⟨events_iff.mp h.events, binningPasses_iff.mp h.binningPasses,
      tilingPasses_iff.mp h.tilingPasses, masks_iff_length.mp ?_⟩
    -- the three counts are all references, and they are to be all shaders and stages
    have hrefs := count_shaderStat (gatherIndices m).shaderRefSet
    have hshaders : m.shaderStages.countP (fun shader =>
          shader.2 = .kShaderStageVs ∧ m.isBinning shader) +
        m.shaderStages.countP (fun shader => shader.2 = .kShaderStageVs ∧ ¬m.isBinning shader) +
        m.shaderStages.countP (fun shader => shader.2 ≠ .kShaderStageVs) =
          m.shaderStages.length :=
      countP_add_countP_add_countP _ _ _
    rw [← hrefs, ← hshaders, ← h.binningVS, ← h.nonBinningVS, ← h.nonVS,
      statsList_of_shaderStat (by decide), statsList_of_shaderStat (by decide),
      statsList_of_shaderStat (by decide)]
  · intro h
    have hperm := map_shaderStage_perm_iff.mpr h.masks
    refine ⟨events_iff.mpr h.types, binningPasses_iff.mpr h.binningPasses,
      tilingPasses_iff.mpr h.tilingPasses, ?_, ?_, ?_, ?_, ?_⟩
    · rw [statsList_of_shaderStat (by decide)]
      refine CountsAll.count_eq hperm fun ref href => ?_
      rw [decide_eq_true_eq, h.isBinning_iff href, shaderStat]
      split_ifs <;> simp_all [shaderStage]
    · rw [statsList_of_shaderStat (by decide)]
      refine CountsAll.count_eq hperm fun ref href => ?_
      rw [decide_eq_true_eq, h.isBinning_iff href, shaderStat]
      split_ifs <;> simp_all [shaderStage]
    · rw [statsList_of_shaderStat (by decide)]
      refine CountsAll.count_eq hperm fun ref href => ?_
      rw [decide_eq_true_eq, shaderStat]
      split_ifs <;> simp_all [shaderStage]
    · refine isOrderOf_instructions.of_perm ?_
      have := hperm.map fun shader => (m.shader shader.1).numInstructions.toBitVec
      rwa [List.map_map] at this
    · refine isOrderOf_gprs.of_perm ?_
      have := hperm.map fun shader => (m.shader shader.1).gprCount.toBitVec
      rwa [List.map_map] at this

/-- A capture of one event that resolves a colour buffer and clears it. -/
def resolveAndClear : CaptureMetadata where
  eventInfo := [⟨⟨0, .kColorGmemToSysMemResolveAndClear, .kResolve⟩, [], 0⟩]
  eventState _ :=
    CaptureMetadataCreator.fillDrawEventStateInfo (fun _ => 0) {} .kSYSMEM .kA6XX ⟨0, 0, false⟩
  shaders := []
  size_lt := by decide
  references_lt event hevent := by
    rw [List.mem_singleton.mp hevent]
    exact fun _ href => absurd href List.not_mem_nil

/-- Its clear is not counted. -/
theorem resolveAndClear_not_countsOnce :
    ¬CountsOnce resolveAndClear (gatherTraceStats (fun _ => false) resolveAndClear) := fun h =>
  (events_iff.mp h.events _ (List.mem_singleton.mpr rfl)).1 rfl

end Exact

end Dive.TraceStats
