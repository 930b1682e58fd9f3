import Dive.GpuTime.Tracking

/-!
# Which submits end a frame

* `Recorded`, `recordings`: the command buffers that are allocated after a sequence of calls, and
  whether the latest recording of each inserted the frame delimiter.
* `boundaryDetector_step_…`: the callbacks that leave the detector alone; `lookup_on…`: what the
  others do to the flag of a handle.
* `Detects`: a submit of primary command buffers is reported exactly if one of them inserted the
  delimiter.
* **`detects_iff`**: so it is in every state of a run, exactly if no command buffer is begun again
  while its recording with the delimiter was not reset.
-/

namespace Dive

open FrameBoundaryDetector

/-! ## Recordings -/

/-- An allocated command buffer, and whether the delimiter was inserted since it was last
allocated, begun or reset. -/
structure Recorded where
  pool : VkCommandPool
  level : VkCommandBufferLevel
  delimited : Bool
  deriving DecidableEq

/-- The allocated command buffers, by handle. -/
abbrev Recordings : Type := VkCommandBuffer → Option Recorded

namespace Recordings

/-- The recording starts anew. -/
def clear (r : Recordings) (cmd : VkCommandBuffer) : Recordings := fun c =>
  if c = cmd then (r c).map fun x => { x with delimited := false } else r c

/-- The command buffers after a call. Destroying a pool frees its command buffers. -/
def after (r : Recordings) : Callback → Recordings
  | .allocateCommandBuffers level pool buffers => fun c =>
    if c ∈ buffers then some ⟨pool, level, false⟩ else r c
  | .freeCommandBuffers buffers => fun c => if c ∈ buffers then none else r c
  | .resetCommandBuffer cmd => r.clear cmd
  | .resetCommandPool pool => fun c =>
    (r c).map fun x => if x.pool = pool then { x with delimited := false } else x
  | .destroyCommandPool pool => fun c => (r c).filter fun x => x.pool ≠ pool
  | .beginCommandBuffer cmd _ => r.clear cmd
  | .insertDebugUtilsLabel cmd label => fun c =>
    if c = cmd ∧ label = some kVulkanVrFrameDelimiterString then
      (r c).map fun x => { x with delimited := true }
    else r c
  | _ => r

end Recordings

/-- The command buffers after the calls. -/
def recordings (callbacks : List Callback) : Recordings :=
  callbacks.foldl Recordings.after fun _ => none

/-- The handle stands for a primary command buffer. -/
def Recordings.Primary (r : Recordings) (cmd : VkCommandBuffer) : Prop :=
  ∃ x, r cmd = some x ∧ x.level = .primary

/-- The latest recording inserted the delimiter. -/
def Recordings.Delimited (r : Recordings) (cmd : VkCommandBuffer) : Prop :=
  ∃ x, r cmd = some x ∧ x.delimited = true

/-! ## The detector -/

namespace FrameBoundaryDetector

variable {d : FrameBoundaryDetector} {cmd c : VkCommandBuffer} {pool : VkCommandPool}

/-- The entry without its flag. -/
def CommandBufferInfo.clear (info : CommandBufferInfo) : CommandBufferInfo :=
  { info with isFrameboundary := false }

theorem lookup_onAllocateCommandBuffers (buffers : List VkCommandBuffer) :
    (d.onAllocateCommandBuffers .primary pool buffers).cmds.lookup c =
      if c ∈ buffers then some ⟨pool, false⟩ else d.cmds.lookup c := by
  have hfold : ∀ (buffers : List VkCommandBuffer)
      (cmds : AList fun _ : VkCommandBuffer => CommandBufferInfo),
      (buffers.foldl (fun cmds cmd => cmds.insert cmd ⟨pool, false⟩) cmds).lookup c =
        if c ∈ buffers then some ⟨pool, false⟩ else cmds.lookup c := by
    intro buffers
    induction buffers with
    | nil => simp
    | cons cmd buffers ih =>
      intro cmds
      rw [List.foldl_cons, ih]
      by_cases hc : c = cmd
      · subst hc
        simp
      · simp [hc, AList.lookup_insert_ne hc]
  exact hfold buffers d.cmds

theorem lookup_onFreeCommandBuffers (buffers : List VkCommandBuffer) :
    (d.onFreeCommandBuffers buffers).cmds.lookup c =
      if c ∈ buffers then none else d.cmds.lookup c := by
  have hfold : ∀ (buffers : List VkCommandBuffer)
      (cmds : AList fun _ : VkCommandBuffer => CommandBufferInfo),
      (buffers.foldl (fun cmds cmd => cmds.erase cmd) cmds).lookup c =
        if c ∈ buffers then none else cmds.lookup c := by
    intro buffers
    induction buffers with
    | nil => simp
    | cons cmd buffers ih =>
      intro cmds
      rw [List.foldl_cons, ih]
      by_cases hc : c = cmd
      · subst hc
        simp
      · simp [hc, AList.lookup_erase_ne hc]
  exact hfold buffers d.cmds

theorem lookup_onResetCommandBuffer :
    (d.onResetCommandBuffer cmd).cmds.lookup c =
      if c = cmd then (d.cmds.lookup c).map CommandBufferInfo.clear else d.cmds.lookup c := by
  unfold onResetCommandBuffer
  by_cases hc : c = cmd
  · subst hc
    cases h : d.cmds.lookup c with
    | none => simp [h]
    | some info => simp [CommandBufferInfo.clear]
  · cases h : d.cmds.lookup cmd with
    | none => simp [hc]
    | some info => simp [hc, AList.lookup_insert_ne hc]

/-- The step of the pass of `onResetCommandPool`. -/
def resetInPool (pool : VkCommandPool) (d : FrameBoundaryDetector) (cmd : VkCommandBuffer) :
    FrameBoundaryDetector :=
  match d.cmds.lookup cmd with
  | some info => if info.pool = pool then d.onResetCommandBuffer cmd else d
  | none => d

/-- An entry of the pool is cleared. -/
def clearInPool (pool : VkCommandPool) (info : CommandBufferInfo) : CommandBufferInfo :=
  if info.pool = pool then info.clear else info

theorem lookup_resetInPool :
    (d.resetInPool pool cmd).cmds.lookup c =
      if c = cmd then (d.cmds.lookup c).map (clearInPool pool) else d.cmds.lookup c := by
  unfold resetInPool clearInPool
  by_cases hc : c = cmd
  · subst hc
    cases h : d.cmds.lookup c with
    | none => simp [h]
    | some info =>
      by_cases hp : info.pool = pool
      · simp [hp, lookup_onResetCommandBuffer, h]
      · simp [hp, h]
  · cases h : d.cmds.lookup cmd with
    | none => simp [hc]
    | some info =>
      by_cases hp : info.pool = pool
      · simp [hp, hc, lookup_onResetCommandBuffer]
      · simp [hp, hc]

theorem lookup_onResetCommandPool :
    (d.onResetCommandPool pool).cmds.lookup c =
      (d.cmds.lookup c).map fun info => if info.pool = pool then info.clear else info := by
  have hidem : ∀ o : Option CommandBufferInfo,
      (o.map (clearInPool pool)).map (clearInPool pool) = o.map (clearInPool pool) := by
    rintro (_ | info)
    · rfl
    · by_cases hp : info.pool = pool
      · simp [clearInPool, hp, CommandBufferInfo.clear]
      · simp [clearInPool, hp]
  have hfold : ∀ (l : List VkCommandBuffer) (d : FrameBoundaryDetector),
      (l.foldl (resetInPool pool) d).cmds.lookup c =
        if c ∈ l then (d.cmds.lookup c).map (clearInPool pool) else d.cmds.lookup c := by
    intro l
    induction l with
    | nil => simp
    | cons cmd l ih =>
      intro d
      rw [List.foldl_cons, ih, lookup_resetInPool]
      by_cases hc : c = cmd
      · rw [if_pos hc, hidem, ite_self, if_pos (by rw [hc]; exact List.mem_cons_self)]
      · simp [hc]
  refine (hfold d.cmds.keys d).trans ?_
  split_ifs with hc
  · rfl
  · rw [AList.lookup_eq_none.mpr hc]
    rfl

theorem lookup_markBoundary (label : Option String) :
    (d.markBoundary cmd label).1.cmds.lookup c =
      if c = cmd ∧ label = some kVulkanVrFrameDelimiterString then
        (d.cmds.lookup c).map fun info => { info with isFrameboundary := true }
      else d.cmds.lookup c := by
  unfold markBoundary
  cases label with
  | none => simp
  | some name =>
    by_cases hname : name = kVulkanVrFrameDelimiterString
    · by_cases hc : c = cmd
      · subst hc
        cases h : d.cmds.lookup c with
        | none => simp [hname, h]
        | some info => simp [hname]
      · cases h : d.cmds.lookup cmd with
        | none => simp [hname, hc]
        | some info => simp [hname, hc, AList.lookup_insert_ne hc]
    · simp [hname]

end FrameBoundaryDetector

/-! ## The callbacks that leave the detector alone -/

namespace GPUTime

variable {τ : Type} {g : GPUTime τ}

@[simp]
theorem boundaryDetector_removeCmdFromFrameCache (g : GPUTime τ) (cmd : VkCommandBuffer) :
    (g.removeCmdFromFrameCache cmd).boundaryDetector = g.boundaryDetector := by
  unfold removeCmdFromFrameCache
  split
  · rfl
  · rfl

@[simp]
theorem boundaryDetector_eraseCmd (g : GPUTime τ) (cmd : VkCommandBuffer)
    (info : CommandBufferInfo) : (g.eraseCmd cmd info).boundaryDetector = g.boundaryDetector := by
  simp [eraseCmd, freeSlots, record]

theorem boundaryDetector_foldl {f : GPUTime τ → VkCommandBuffer → GPUTime τ}
    (hf : ∀ g cmd, (f g cmd).boundaryDetector = g.boundaryDetector) (l : List VkCommandBuffer)
    (g : GPUTime τ) : (l.foldl f g).boundaryDetector = g.boundaryDetector := by
  induction l generalizing g with
  | nil => rfl
  | cons cmd l ih => rw [List.foldl_cons, ih, hf]

@[simp]
theorem boundaryDetector_destroyPoolCmd (pool : VkCommandPool) (g : GPUTime τ)
    (cmd : VkCommandBuffer) :
    (destroyPoolCmd pool g cmd).boundaryDetector = g.boundaryDetector := by
  unfold destroyPoolCmd
  split
  · rfl
  · split_ifs
    · simp
    · rfl

@[simp]
theorem boundaryDetector_resetPoolCmd (pool : VkCommandPool) (g : GPUTime τ)
    (cmd : VkCommandBuffer) :
    (resetPoolCmd pool g cmd).boundaryDetector = g.boundaryDetector := by
  unfold resetPoolCmd
  split
  · rfl
  · split_ifs
    · simp
    · rfl

@[simp]
theorem boundaryDetector_freeCmd (g : GPUTime τ) (cmd : VkCommandBuffer) :
    (g.freeCmd cmd).boundaryDetector = g.boundaryDetector := by
  unfold freeCmd
  split
  · rfl
  · simp

@[simp]
theorem boundaryDetector_allocateCmds (pool : VkCommandPool) (buffers : List VkCommandBuffer)
    (g : GPUTime τ) : (allocateCmds pool buffers g).1.boundaryDetector = g.boundaryDetector := by
  fun_induction allocateCmds pool buffers g with
  | case1 => rfl
  | case2 => rfl
  | case3 => rfl
  | case4 _ _ _ _ _ _ _ _ _ _ _ _ ih => exact ih

@[simp]
theorem boundaryDetector_pushCmds (l : List VkCommandBuffer) (g : GPUTime τ) :
    (pushCmds l g).1.boundaryDetector = g.boundaryDetector := by
  fun_induction pushCmds l g with
  | case1 => rfl
  | case2 => rfl
  | case3 => rfl
  | case4 => simp_all

@[simp]
theorem boundaryDetector_onBeginCommandBuffer (g : GPUTime τ) (cmd : VkCommandBuffer)
    (flags : UInt32) : (g.onBeginCommandBuffer cmd flags).1.boundaryDetector =
      g.boundaryDetector := by
  unfold onBeginCommandBuffer
  split_ifs
  · rfl
  · split
    · rfl
    · rfl

@[simp]
theorem boundaryDetector_onEndCommandBuffer (g : GPUTime τ) (cmd : VkCommandBuffer) :
    (g.onEndCommandBuffer cmd).1.boundaryDetector = g.boundaryDetector := by
  unfold onEndCommandBuffer
  split_ifs
  · rfl
  · split
    · rfl
    · rfl

@[simp]
theorem boundaryDetector_writeRenderPassSlot (g : GPUTime τ) (stage : PipelineStage)
    (cmd : VkCommandBuffer) :
    (g.writeRenderPassSlot stage cmd).1.boundaryDetector = g.boundaryDetector := by
  unfold writeRenderPassSlot
  split_ifs
  · rfl
  · split
    · rfl
    · rfl

/-! ### The metrics of a frame -/

@[simp]
theorem boundaryDetector_allTimestampsAvailable (l : List VkCommandBuffer) (g : GPUTime τ) :
    (allTimestampsAvailable l g).1.boundaryDetector = g.boundaryDetector := by
  fun_induction allTimestampsAvailable l g with
  | case1 => rfl
  | case2 _ _ _ _ ih => exact ih
  | case3 _ _ _ _ _ _ ih => exact ih
  | case4 => rfl
  | case5 _ _ _ _ _ _ _ _ ih => exact ih

@[simp]
theorem boundaryDetector_queryUntilAvailable (answers : ℕ → QueryPoolResults) (n : ℕ)
    (g : GPUTime τ) :
    (queryUntilAvailable answers n g).1.boundaryDetector = g.boundaryDetector := by
  induction n generalizing g with
  | zero => rfl
  | succ n ih =>
    unfold queryUntilAvailable
    dsimp only
    split_ifs
    · simp
    · rw [ih]
      exact boundaryDetector_allTimestampsAvailable g.frameCmds g

@[simp]
theorem boundaryDetector_cmdInfo (g : GPUTime τ) (cmd : VkCommandBuffer) :
    (g.cmdInfo cmd).1.boundaryDetector = g.boundaryDetector := by
  unfold cmdInfo
  split
  · rfl
  · rfl

@[simp]
theorem boundaryDetector_unavailableLines (index : ℕ) (l : List VkCommandBuffer)
    (g : GPUTime τ) : (unavailableLines index l g).1.boundaryDetector = g.boundaryDetector := by
  induction l generalizing index g with
  | nil => rfl
  | cons cmd l ih =>
    unfold unavailableLines
    dsimp only
    rw [ih]
    split_ifs
    · exact boundaryDetector_cmdInfo g cmd
    · exact boundaryDetector_cmdInfo g cmd

@[simp]
theorem boundaryDetector_getTimeDuration (g : GPUTime τ) (b e : ℕ) :
    (g.getTimeDuration b e).1.boundaryDetector = g.boundaryDetector := by
  unfold getTimeDuration
  dsimp only
  split_ifs
  · rfl
  · rfl
  · rfl

theorem boundaryDetector_aggregateRenderPasses (cmd : VkCommandBuffer) (info : CommandBufferInfo)
    (r : ℕ) (slots : List RenderPassSlot) (g : GPUTime τ) (data : FrameData τ) :
    (aggregateRenderPasses cmd info r slots g data).1.boundaryDetector = g.boundaryDetector := by
  fun_induction aggregateRenderPasses cmd info r slots g data with
  | case1 r b e rest g data g' hd =>
    have hpair := boundaryDetector_getTimeDuration g b.slot e.slot
    rw [hd] at hpair
    exact hpair
  | case2 r b e rest g data g' increments hd ih =>
    have hpair := boundaryDetector_getTimeDuration g b.slot e.slot
    rw [hd] at hpair
    exact ih.trans hpair
  | case3 => rfl

variable [Add τ]

theorem boundaryDetector_aggregateCmds (l : List VkCommandBuffer) (g : GPUTime τ)
    (data : FrameData τ) :
    (aggregateCmds l g data).1.boundaryDetector = g.boundaryDetector := by
  fun_induction aggregateCmds l g data with
  | case1 => rfl
  | case2 cmd rest g data h ih => exact ih
  | case3 cmd rest g data info h g' hd =>
    have hpair := boundaryDetector_getTimeDuration g info.beginTimestampOffset
      info.endTimestampOffset
    rw [hd] at hpair
    exact hpair
  | case4 cmd rest g data info h g' increments hd data' g'' status hpasses =>
    have hpair := boundaryDetector_getTimeDuration g info.beginTimestampOffset
      info.endTimestampOffset
    have hcmd := boundaryDetector_aggregateRenderPasses cmd info 0 info.renderpassSlots
      (g'.record [.aggregate cmd info.renderpassSlots]) data'
    rw [hd] at hpair
    rw [hpasses] at hcmd
    exact hcmd.trans hpair
  | case5 cmd rest g data info h g' increments hd data' g'' data'' hpasses ih =>
    have hpair := boundaryDetector_getTimeDuration g info.beginTimestampOffset
      info.endTimestampOffset
    have hcmd := boundaryDetector_aggregateRenderPasses cmd info 0 info.renderpassSlots
      (g'.record [.aggregate cmd info.renderpassSlots]) data'
    rw [hd] at hpair
    rw [hpasses] at hcmd
    exact ih.trans (hcmd.trans hpair)

variable [Zero τ]

theorem boundaryDetector_addFrame (g : GPUTime τ) :
    g.addFrame.1.boundaryDetector = g.boundaryDetector := by
  have hframe := boundaryDetector_aggregateCmds g.frameCmds g { frameTime := 0 }
  unfold addFrame
  split
  next g' status h =>
    rw [h] at hframe
    exact hframe
  next g' data h =>
    rw [h] at hframe
    dsimp only
    split_ifs
    · exact hframe
    · exact hframe

theorem boundaryDetector_updateFrameMetrics (g : GPUTime τ) (answers : ℕ → QueryPoolResults) :
    (g.updateFrameMetrics answers).1.boundaryDetector = g.boundaryDetector := by
  have hwait := boundaryDetector_queryUntilAvailable answers kMaxQueryCount
    (g.getQueryPoolResults (answers 0))
  unfold updateFrameMetrics
  dsimp only
  split_ifs
  · exact boundaryDetector_addFrame _
  · split
    next g' h =>
      rw [h] at hwait
      exact (boundaryDetector_addFrame g').trans hwait
    next g' h =>
      rw [h] at hwait
      exact (boundaryDetector_unavailableLines 0 g'.frameCmds _).trans hwait
  · rfl

theorem boundaryDetector_onFrameBoundary (g : GPUTime τ) (answers : ℕ → QueryPoolResults) :
    (g.onFrameBoundary answers).1.boundaryDetector = g.boundaryDetector := by
  unfold onFrameBoundary
  cases g.validFrame with
  | true => exact boundaryDetector_updateFrameMetrics g answers
  | false => rfl

end GPUTime

/-! ## The law -/

/-- The handles of the submits. -/
def allCmds (submits : List VkSubmitInfo) : List VkCommandBuffer :=
  submits.flatMap fun submit => submit.commandBuffers.getD []

/-- A submit of primary command buffers is reported as a frame boundary exactly if the latest
recording of one of them inserted the delimiter. -/
def Detects (d : FrameBoundaryDetector) (r : Recordings) : Prop :=
  ∀ submits, (∀ c ∈ allCmds submits, r.Primary c) →
    (d.containsFrameBoundary submits = true ↔ ∃ c ∈ allCmds submits, r.Delimited c)

/-- The detector has an entry with the right flag for each primary command buffer. -/
def Follows (d : FrameBoundaryDetector) (r : Recordings) : Prop :=
  ∀ c x, r c = some x → x.level = .primary → d.cmds.lookup c = some ⟨x.pool, x.delimited⟩

variable {d : FrameBoundaryDetector} {r : Recordings}

theorem containsFrameBoundary_iff (submits : List VkSubmitInfo) :
    d.containsFrameBoundary submits = true ↔
      ∃ c ∈ allCmds submits, d.isFrameBoundary c = true := by
  simp only [containsFrameBoundary, List.any_eq_true, allCmds, List.mem_flatMap]
  constructor
  · rintro ⟨submit, hsubmit, c, hc, hflag⟩
    exact ⟨c, ⟨submit, hsubmit, hc⟩, hflag⟩
  · rintro ⟨c, ⟨submit, hsubmit, hc⟩, hflag⟩
    exact ⟨submit, hsubmit, c, hc, hflag⟩

theorem Follows.detects (h : Follows d r) : Detects d r := by
  intro submits hprimary
  rw [containsFrameBoundary_iff]
  refine exists_congr fun c => and_congr_right fun hc => ?_
  obtain ⟨x, hx, hlevel⟩ := hprimary c hc
  have hlookup := h c x hx hlevel
  simp [isFrameBoundary, hlookup, Recordings.Delimited, hx]

theorem Follows.clear (h : Follows d r) {cmd : VkCommandBuffer}
    (hbegin : r.Primary cmd → ¬ r.Delimited cmd) : Follows d (r.clear cmd) := by
  intro c x hx hlevel
  unfold Recordings.clear at hx
  split_ifs at hx with hc
  · obtain ⟨y, hy, rfl⟩ := Option.map_eq_some_iff.mp hx
    rw [hc] at hy ⊢
    have hflag : y.delimited = false := by
      rw [← Bool.not_eq_true]
      exact fun htrue => hbegin ⟨y, hy, hlevel⟩ ⟨y, hy, htrue⟩
    rw [h cmd y hy hlevel, hflag]
  · exact h c x hx hlevel

section Step

variable {τ : Type} [Add τ] [Zero τ] {g : GPUTime τ}

/-- **Each call** sets the flags that it should, unless it begins a command buffer whose flag is
set. -/
theorem Follows.step (h : Follows g.boundaryDetector r) (callback : Callback)
    (hbegin : ∀ cmd flags, callback = .beginCommandBuffer cmd flags → r.Primary cmd →
      ¬ r.Delimited cmd) :
    Follows (g.step callback).boundaryDetector (r.after callback) := by
  cases callback with
  | allocateCommandBuffers level pool buffers =>
    intro c x hx hlevel
    simp only [Recordings.after] at hx
    have hdetector : (g.step (.allocateCommandBuffers level pool buffers)).boundaryDetector =
        g.boundaryDetector.onAllocateCommandBuffers level pool buffers := by
      simp only [GPUTime.step, GPUTime.onAllocateCommandBuffers]
      split_ifs
      · rfl
      · simp
    rw [hdetector]
    split_ifs at hx with hc
    · obtain rfl := Option.some.inj hx
      obtain rfl : level = .primary := hlevel
      rw [lookup_onAllocateCommandBuffers, if_pos hc]
    · cases level with
      | primary =>
        rw [lookup_onAllocateCommandBuffers, if_neg hc]
        exact h c x hx hlevel
      | secondary => exact h c x hx hlevel
  | freeCommandBuffers buffers =>
    intro c x hx hlevel
    simp only [Recordings.after] at hx
    have hdetector : (g.step (.freeCommandBuffers buffers)).boundaryDetector =
        g.boundaryDetector.onFreeCommandBuffers buffers := by
      simp only [GPUTime.step, GPUTime.onFreeCommandBuffers]
      exact GPUTime.boundaryDetector_foldl GPUTime.boundaryDetector_freeCmd _ _
    split_ifs at hx with hc
    rw [hdetector, lookup_onFreeCommandBuffers, if_neg hc]
    exact h c x hx hlevel
  | resetCommandBuffer cmd =>
    intro c x hx hlevel
    have hdetector : (g.step (.resetCommandBuffer cmd)).boundaryDetector =
        g.boundaryDetector.onResetCommandBuffer cmd := by
      simp [GPUTime.step, GPUTime.onResetCommandBuffer]
    simp only [Recordings.after, Recordings.clear] at hx
    rw [hdetector, lookup_onResetCommandBuffer]
    split_ifs at hx ⊢ with hc
    · obtain ⟨y, hy, rfl⟩ := Option.map_eq_some_iff.mp hx
      rw [h c y hy hlevel]
      rfl
    · exact h c x hx hlevel
  | resetCommandPool pool =>
    intro c x hx hlevel
    have hdetector : (g.step (.resetCommandPool pool)).boundaryDetector =
        g.boundaryDetector.onResetCommandPool pool := by
      simp only [GPUTime.step, GPUTime.onResetCommandPool]
      exact GPUTime.boundaryDetector_foldl (GPUTime.boundaryDetector_resetPoolCmd pool) _ _
    obtain ⟨y, hy, rfl⟩ := Option.map_eq_some_iff.mp hx
    have hyLevel : y.level = .primary := by
      split_ifs at hlevel
      · exact hlevel
      · exact hlevel
    rw [hdetector, lookup_onResetCommandPool, h c y hy hyLevel]
    by_cases hp : y.pool = pool
    · simp [hp, CommandBufferInfo.clear]
    · simp [hp]
  | destroyCommandPool pool =>
    intro c x hx hlevel
    have hdetector : (g.step (.destroyCommandPool pool)).boundaryDetector =
        g.boundaryDetector := by
      simp only [GPUTime.step, GPUTime.onDestroyCommandPool]
      split_ifs
      · rfl
      · exact GPUTime.boundaryDetector_foldl (GPUTime.boundaryDetector_destroyPoolCmd pool) _ _
    rw [hdetector]
    exact h c x (Option.filter_eq_some_iff.mp hx).1 hlevel
  | beginCommandBuffer cmd flags =>
    rw [show (g.step (.beginCommandBuffer cmd flags)).boundaryDetector = g.boundaryDetector from
      GPUTime.boundaryDetector_onBeginCommandBuffer g cmd flags]
    exact h.clear (hbegin cmd flags rfl)
  | insertDebugUtilsLabel cmd label =>
    intro c x hx hlevel
    have hdetector : (g.step (.insertDebugUtilsLabel cmd label)).boundaryDetector =
        (g.boundaryDetector.markBoundary cmd label).1 := rfl
    simp only [Recordings.after] at hx
    rw [hdetector, lookup_markBoundary]
    split_ifs at hx ⊢ with hc
    · obtain ⟨y, hy, rfl⟩ := Option.map_eq_some_iff.mp hx
      rw [h c y hy hlevel]
      rfl
    · exact h c x hx hlevel
  | setEnable enable => exact h
  | endCommandBuffer cmd =>
    rw [show (g.step (.endCommandBuffer cmd)).boundaryDetector = g.boundaryDetector from
      GPUTime.boundaryDetector_onEndCommandBuffer g cmd]
    exact h
  | beginRenderPass cmd =>
    rw [show (g.step (.beginRenderPass cmd)).boundaryDetector = g.boundaryDetector from
      GPUTime.boundaryDetector_writeRenderPassSlot g _ cmd]
    exact h
  | endRenderPass cmd =>
    rw [show (g.step (.endRenderPass cmd)).boundaryDetector = g.boundaryDetector from
      GPUTime.boundaryDetector_writeRenderPassSlot g _ cmd]
    exact h
  | queueSubmit submits =>
    have hdetector : (g.step (.queueSubmit submits)).boundaryDetector = g.boundaryDetector := by
      simp only [GPUTime.step, GPUTime.submitCmds]
      split_ifs
      · rfl
      · simp
    rw [hdetector]
    exact h
  | frameBoundary answers =>
    rw [show (g.step (.frameBoundary answers)).boundaryDetector = g.boundaryDetector from
      GPUTime.boundaryDetector_onFrameBoundary g answers]
    exact h
  | queuePresent answers =>
    have hdetector : (g.step (.queuePresent answers)).boundaryDetector = g.boundaryDetector := by
      simp only [GPUTime.step, GPUTime.onQueuePresent]
      split_ifs
      · rfl
      · exact GPUTime.boundaryDetector_onFrameBoundary g answers
    rw [hdetector]
    exact h
  | clearFrameCache => exact h

/-- **A run** in which no delimited recording is begun anew. -/
theorem follows_run (elapsedTimeInMs : UInt64 → τ) {callbacks before : List Callback}
    (hinitial : before <+: callbacks)
    (hbegin : ∀ before cmd flags, before ++ [.beginCommandBuffer cmd flags] <+: callbacks →
      (recordings before).Primary cmd → ¬ (recordings before).Delimited cmd) :
    Follows ((GPUTime.start elapsedTimeInMs).run before).boundaryDetector (recordings before) := by
  induction before using List.reverseRecOn with
  | nil => exact fun c x hx => by cases hx
  | append_singleton before callback ih =>
    have hrest := ih ((List.prefix_append before [callback]).trans hinitial)
    rw [GPUTime.run_append, recordings, List.foldl_append]
    apply hrest.step
    rintro cmd flags rfl
    exact hbegin before cmd flags hinitial

/-- **Frame boundaries are detected** in every state of a run, exactly if the run never begins a
primary command buffer whose latest recording inserted the delimiter: it has to be reset, freed or
allocated first. -/
theorem detects_iff (elapsedTimeInMs : UInt64 → τ) (callbacks : List Callback) :
    (∀ before, before <+: callbacks →
        Detects ((GPUTime.start elapsedTimeInMs).run before).boundaryDetector
          (recordings before)) ↔
      ∀ before cmd flags, before ++ [.beginCommandBuffer cmd flags] <+: callbacks →
        (recordings before).Primary cmd → ¬ (recordings before).Delimited cmd := by
  constructor
  · rintro h before cmd flags hinitial ⟨x, hx, hlevel⟩ hdelimited
    have hcmds : allCmds [⟨some [cmd]⟩] = [cmd] := rfl
    have hcleared : recordings (before ++ [.beginCommandBuffer cmd flags]) =
        (recordings before).clear cmd := by
      rw [recordings, List.foldl_append]
      rfl
    have hnew : (recordings before).clear cmd cmd = some { x with delimited := false } := by
      simp [Recordings.clear, hx]
    have hsame : ((GPUTime.start elapsedTimeInMs).run
        (before ++ [.beginCommandBuffer cmd flags])).boundaryDetector =
          ((GPUTime.start elapsedTimeInMs).run before).boundaryDetector := by
      rw [GPUTime.run_append]
      exact GPUTime.boundaryDetector_onBeginCommandBuffer _ cmd flags
    have hbefore := h before ((List.prefix_append _ _).trans hinitial) [⟨some [cmd]⟩]
    have hafter := h _ hinitial [⟨some [cmd]⟩]
    rw [hcmds] at hbefore hafter
    rw [hcleared, hsame] at hafter
    have hreported := (hbefore (by
      intro c hc
      rw [List.mem_singleton.mp hc]
      exact ⟨x, hx, hlevel⟩)).mpr ⟨cmd, List.mem_singleton_self cmd, hdelimited⟩
    obtain ⟨c, hc, y, hy, htrue⟩ := (hafter (by
      intro c hc
      rw [List.mem_singleton.mp hc]
      exact ⟨_, hnew, hlevel⟩)).mp hreported
    rw [List.mem_singleton.mp hc, hnew] at hy
    rw [← Option.some.inj hy] at htrue
    cases htrue
  · intro hbegin before hinitial
    exact (follows_run elapsedTimeInMs hinitial hbegin).detects

end Step

/-- A command buffer with the delimiter that is begun again, without it. -/
def rerecordedFrame : List Callback :=
  [.allocateCommandBuffers .primary 1 [7], .beginCommandBuffer 7 0,
    .insertDebugUtilsLabel 7 (some kVulkanVrFrameDelimiterString), .endCommandBuffer 7,
    .queueSubmit [⟨some [7]⟩], .beginCommandBuffer 7 0, .endCommandBuffer 7]

/-- **The old delimiter is still reported.** -/
theorem rerecordedFrame_not_detected :
    ¬ Detects ((GPUTime.start fun _ => (0 : ℕ)).run rerecordedFrame).boundaryDetector
      (recordings rerecordedFrame) := by
  intro h
  have hrecorded : recordings rerecordedFrame 7 = some ⟨1, .primary, false⟩ := by decide +kernel
  have hreported : ((GPUTime.start fun _ => (0 : ℕ)).run
      rerecordedFrame).boundaryDetector.containsFrameBoundary [⟨some [7]⟩] = true := by
    decide +kernel
  have hcmds : allCmds [⟨some [7]⟩] = [7] := rfl
  have hiff := h [⟨some [7]⟩]
  rw [hcmds] at hiff
  obtain ⟨c, hc, x, hx, htrue⟩ := (hiff (by
    intro c hc
    rw [List.mem_singleton.mp hc]
    exact ⟨_, hrecorded, rfl⟩)).mp hreported
  rw [List.mem_singleton.mp hc, hrecorded] at hx
  rw [← Option.some.inj hx] at htrue
  cases htrue

end Dive
