import Dive.GpuTime.Ownership

/-!
# Slot bounds and render-pass pairs

* `SlotAccess.Safe`: a slot number in range, render-pass slots in begin/end pairs.
* `Watched`: the layer and, for each command buffer, where its render-pass callbacks stand.
* `Settled`: a render pass finds a free slot; a frame ends outside the render passes of its command
  buffers.
* **`run_safe`**: a settled run makes safe accesses only.
* **`rerecorded_unsafe`**: a command buffer of the frame is recorded again, up to a begin.
-/

namespace Dive

/-- Pairs of a slot written when a render pass begins and one written when it ends. -/
def CompletePairs : List RenderPassSlot → Prop
  | [] => True
  | [_] => False
  | b :: e :: rest => b.stage = .topOfPipe ∧ e.stage = .bottomOfPipe ∧ CompletePairs rest

/-- **A slot number in range; complete pairs.** -/
def SlotAccess.Safe : SlotAccess → Prop
  | .write _ _ slot | .free slot | .query slot => slot < kTotalSlots
  | .aggregate _ slots => CompletePairs slots

/-- Where the render-pass callbacks of a recording stand; `broken` is a begin inside a render pass
or an end outside. -/
inductive PassPhase
  | outside
  | inside
  | broken
  deriving DecidableEq

namespace PassPhase

def next : PassPhase → PipelineStage → PassPhase
  | .outside, .topOfPipe => .inside
  | .inside, .bottomOfPipe => .outside
  | _, _ => .broken

def after (p : PassPhase) (slots : List RenderPassSlot) : PassPhase :=
  slots.foldl (fun p s => p.next s.stage) p

theorem after_broken : ∀ slots : List RenderPassSlot, broken.after slots = broken
  | [] => rfl
  | _ :: slots => after_broken slots

theorem after_append (p : PassPhase) (slots : List RenderPassSlot) (s : RenderPassSlot) :
    p.after (slots ++ [s]) = (p.after slots).next s.stage := by
  simp [after]

theorem completePairs : ∀ {slots : List RenderPassSlot}, outside.after slots = outside →
    CompletePairs slots
  | [], _ => trivial
  | [⟨_, .topOfPipe⟩], h => nomatch h
  | [⟨_, .bottomOfPipe⟩], h => nomatch h
  | ⟨_, .topOfPipe⟩ :: ⟨_, .bottomOfPipe⟩ :: _, h => ⟨rfl, rfl, completePairs h⟩
  | ⟨_, .topOfPipe⟩ :: ⟨_, .topOfPipe⟩ :: rest, h => nomatch (after_broken rest).symm.trans h
  | ⟨_, .bottomOfPipe⟩ :: e :: rest, h => nomatch (after_broken (e :: rest)).symm.trans h

end PassPhase

namespace GPUTime

variable {τ : Type} {g g' : GPUTime τ} {cmd c : VkCommandBuffer} {info : CommandBufferInfo}
  {pool : VkCommandPool}

/-! ## Slot numbers -/

/-- Every slot number that is recorded or was used is in range. -/
structure Careful (g : GPUTime τ) : Prop where
  bounded : ∀ cmd info, g.cmds.lookup cmd = some info → ∀ slot ∈ info.slots, slot < kTotalSlots
  safe : ∀ a ∈ g.accesses, a.Safe

namespace Careful

theorem change (h : g.Careful)
    (hlookup : ∀ c i, g'.cmds.lookup c = some i → g.cmds.lookup c = some i ∨
      ∀ slot ∈ i.slots, slot < kTotalSlots)
    (haccess : ∀ a ∈ g'.accesses, a ∈ g.accesses ∨ a.Safe) : g'.Careful where
  bounded c i hi := (hlookup c i hi).elim (h.bounded c i) id
  safe a ha := (haccess a ha).elim (h.safe a) id

theorem congr (h : g.Careful) (hcmds : g'.cmds = g.cmds) (haccess : g'.accesses = g.accesses) :
    g'.Careful :=
  h.change (fun _ _ hi => Or.inl (hcmds ▸ hi)) fun _ ha => Or.inl (haccess ▸ ha)

theorem freed (h : g.Careful) (hl : g.cmds.lookup cmd = some info) {slots : List ℕ}
    (hsub : ∀ slot ∈ slots, slot ∈ info.slots) : ∀ a ∈ slots.map SlotAccess.free, a.Safe := by
  intro a ha
  obtain ⟨slot, hslot, rfl⟩ := List.mem_map.mp ha
  exact h.bounded cmd info hl slot (hsub slot hslot)

end Careful

theorem mem_slots_of_mem_passes (info : CommandBufferInfo) :
    ∀ slot ∈ info.renderpassSlots.map (·.slot), slot ∈ info.slots :=
  fun _ h => List.mem_cons_of_mem _ (List.mem_cons_of_mem _ h)

theorem slots_cleared (info : CommandBufferInfo) : ∀ slot ∈ info.cleared.slots, slot ∈ info.slots := by
  intro slot h
  simp only [CommandBufferInfo.slots, CommandBufferInfo.cleared, CommandBufferInfo.reset,
    List.map_nil, List.mem_cons, List.not_mem_nil, or_false] at h ⊢
  exact h.elim Or.inl fun h => Or.inr (Or.inl h)

theorem careful_removeCmd (h : g.Careful) : (g.removeCmdFromFrameCache cmd).Careful := by
  cases hl : g.cmds.lookup cmd with
  | none => rwa [removeCmd_of_lookup_none hl]
  | some info =>
    refine h.change (fun c i hi => ?_) fun a ha => ?_
    · rw [lookup_removeCmd] at hi
      split_ifs at hi with hc
      · rw [hc, hl] at hi
        obtain rfl := Option.some.inj hi
        exact Or.inr fun slot hs => h.bounded cmd info hl slot (slots_cleared info slot hs)
      · exact Or.inl hi
    · rw [removeCmd_of_lookup hl] at ha
      exact (List.mem_append.mp ha).imp_right (h.freed hl (mem_slots_of_mem_passes info) a)

theorem careful_eraseCmd (h : g.Careful) (hl : g.cmds.lookup cmd = some info) :
    (g.eraseCmd cmd info).Careful := by
  refine h.change (fun c i hi => ?_) fun a ha => ?_
  · rw [lookup_eraseCmd hl] at hi
    split_ifs at hi
    exact Or.inl hi
  · rw [eraseCmd_of_lookup hl] at ha
    rcases List.mem_append.mp ha with ha | ha
    · refine (List.mem_append.mp ha).imp_right (h.freed hl (fun slot hs => ?_) a)
      simp only [CommandBufferInfo.slots, List.mem_cons, List.not_mem_nil, or_false] at hs ⊢
      exact hs.imp_right Or.inl
    · exact Or.inr (h.freed hl (mem_slots_of_mem_passes info) a ha)

theorem Careful.consulted (h : g.Careful) (hpairs : ∀ cmd ∈ g.frameCmds, ∀ info,
    g.cmds.lookup cmd = some info → CompletePairs info.renderpassSlots) {a : SlotAccess}
    (ha : Consulted g a) : a.Safe := by
  cases ha with
  | beginSlot hl => exact h.bounded _ _ hl _ List.mem_cons_self
  | endSlot hl => exact h.bounded _ _ hl _ (List.mem_cons_of_mem _ List.mem_cons_self)
  | renderPassSlot hl hs =>
    exact h.bounded _ _ hl _ (mem_slots_of_mem_passes _ _ (List.mem_map_of_mem hs))
  | passes hframe hl => exact hpairs _ hframe _ hl

theorem Careful.insert {i : CommandBufferInfo} (h : g.Careful)
    (hcmds : g'.cmds = g.cmds.insert cmd i) (hi : ∀ slot ∈ i.slots, slot < kTotalSlots)
    (haccess : ∀ a ∈ g'.accesses, a ∈ g.accesses ∨ a.Safe) : g'.Careful := by
  refine h.change (fun c j hj => ?_) haccess
  rw [hcmds] at hj
  by_cases hc : c = cmd
  · rw [hc, AList.lookup_insert, Option.some.injEq] at hj
    exact Or.inr (hj ▸ hi)
  · exact Or.inl ((AList.lookup_insert_ne hc).symm.trans hj)

theorem careful_onBeginCommandBuffer (h : g.Careful) (flags : UInt32) :
    (g.onBeginCommandBuffer cmd flags).1.Careful := by
  cases beginsCmd g cmd flags with
  | idle _ heq => rwa [heq]
  | begun i _ hl heq =>
    rw [heq]
    refine h.insert rfl (fun slot hs => h.bounded cmd i hl slot (slots_cleared i slot hs)) ?_
    intro a ha
    rcases List.mem_append.mp ha with ha | ha
    · exact (List.mem_append.mp ha).imp_right (h.freed hl (mem_slots_of_mem_passes i) a)
    · rw [List.mem_singleton.mp ha]
      exact Or.inr (h.bounded cmd i hl _ List.mem_cons_self)

theorem careful_onEndCommandBuffer (h : g.Careful) : (g.onEndCommandBuffer cmd).1.Careful := by
  unfold onEndCommandBuffer
  split_ifs
  · exact h
  · split
    next => exact h
    next info hl =>
      refine h.change (fun c i hi => Or.inl hi) fun a ha => ?_
      refine (List.mem_append.mp ha).imp_right fun ha => ?_
      rw [List.mem_singleton.mp ha]
      exact h.bounded cmd info hl _ (List.mem_cons_of_mem _ List.mem_cons_self)

theorem careful_writeRenderPassSlot {stage : PipelineStage} (h : g.Careful)
    (hroom : g.enable = true → cmd ∈ g.cmds → 0 < g.timestampAllocator.free) :
    (g.writeRenderPassSlot stage cmd).1.Careful := by
  cases writesPass g stage cmd with
  | idle _ heq => rwa [heq]
  | full i henable hl hfull heq =>
    have hpos := hroom henable (mem_cmds_iff.mpr ⟨i, hl⟩)
    omega
  | taken i slot allocator _ hl hlt _ _ heq =>
    rw [heq]
    refine h.insert rfl (fun s hs => ?_) fun a ha => ?_
    · rw [slots_withPass, List.mem_append, List.mem_singleton] at hs
      exact hs.elim (h.bounded cmd i hl s) fun hs => hs ▸ hlt
    · refine (List.mem_append.mp ha).imp_right fun ha => ?_
      rw [List.mem_singleton.mp ha]
      exact hlt

theorem careful_allocateCmds (h : g.Careful) (buffers : List VkCommandBuffer) :
    (allocateCmds pool buffers g).1.Careful := by
  refine h.change (fun c i hi => ?_) fun a ha => ?_
  · refine (lookup_allocateCmds pool buffers g hi).imp_right ?_
    rintro ⟨-, -, b, hb, e, he, rfl⟩ slot hs
    simp only [CommandBufferInfo.slots, allocatedInfo, List.map_nil, List.mem_cons,
      List.not_mem_nil, or_false] at hs
    rcases hs with rfl | rfl
    · exact hb
    · exact he
  · rw [(allocateCmds_keeps pool buffers g).2] at ha
    exact Or.inl ha

theorem careful_onFrameBoundary [Add τ] [Zero τ] (h : g.Careful) (hcached : g.Cached)
    (hpairs : g.validFrame = true → ∀ cmd ∈ g.frameCmds, ∀ info,
      g.cmds.lookup cmd = some info → CompletePairs info.renderpassSlots)
    (answers : ℕ → QueryPoolResults) : (g.onFrameBoundary answers).1.Careful := by
  have hbounds := bounds_onFrameBoundary answers hcached
  obtain ⟨l, hl, hall⟩ := hbounds.accesses
  refine h.change (fun c i hi => Or.inl (hbounds.cmds ▸ hi)) fun a ha => ?_
  rw [hl] at ha
  refine (List.mem_append.mp ha).imp_right fun ha => ?_
  obtain ⟨hvalid, hconsulted⟩ := hall a ha
  exact h.consulted (hpairs hvalid) hconsulted

/-! ## Where the recordings stand -/

/-- The render-pass callbacks that a command buffer has seen since its recording was last started or
dropped. Nothing is recorded while the layer is disabled. -/
def phaseStep (g : GPUTime τ) (phase : VkCommandBuffer → PassPhase) :
    Callback → VkCommandBuffer → PassPhase
  | .allocateCommandBuffers _ _ _ => fun c => if c ∈ g.cmds then phase c else .outside
  | .resetCommandBuffer cmd => Function.update phase cmd .outside
  | .resetCommandPool pool => fun c =>
    if (g.cmds.lookup c).any (·.pool = pool) then .outside else phase c
  | .beginCommandBuffer cmd _ => if g.enable then Function.update phase cmd .outside else phase
  | .beginRenderPass cmd =>
    if g.enable then Function.update phase cmd ((phase cmd).next .topOfPipe) else phase
  | .endRenderPass cmd =>
    if g.enable then Function.update phase cmd ((phase cmd).next .bottomOfPipe) else phase
  | _ => phase

/-- The slots of each tracked command buffer are those of its callbacks. -/
def Phased (g : GPUTime τ) (phase : VkCommandBuffer → PassPhase) : Prop :=
  ∀ cmd info, g.cmds.lookup cmd = some info →
    phase cmd = PassPhase.outside.after info.renderpassSlots

variable {phase phase' : VkCommandBuffer → PassPhase}

theorem Phased.insert {i : CommandBufferInfo} (h : g.Phased phase)
    (hcmds : g'.cmds = g.cmds.insert cmd i) {p : PassPhase}
    (hp : p = PassPhase.outside.after i.renderpassSlots) :
    g'.Phased (Function.update phase cmd p) := by
  intro c j hj
  rw [hcmds] at hj
  by_cases hc : c = cmd
  · rw [hc, AList.lookup_insert, Option.some.injEq] at hj
    rw [hc, Function.update_self, ← hj, hp]
  · rw [Function.update_of_ne hc]
    exact h c j ((AList.lookup_insert_ne hc).symm.trans hj)

theorem Phased.update_untracked (h : g.Phased phase) (hcmd : cmd ∉ g.cmds) (p : PassPhase) :
    g.Phased (Function.update phase cmd p) := by
  intro c i hi
  have hc : c ≠ cmd := fun hc => hcmd (hc ▸ mem_cmds_iff.mpr ⟨i, hi⟩)
  rw [Function.update_of_ne hc]
  exact h c i hi

theorem phased_writeRenderPassSlot (h : g.Phased phase) (stage : PipelineStage) :
    (g.writeRenderPassSlot stage cmd).1.Phased
      (if g.enable then Function.update phase cmd ((phase cmd).next stage) else phase) := by
  have hnext : ∀ (i : CommandBufferInfo) (slot : ℕ), g.cmds.lookup cmd = some i →
      (phase cmd).next stage = PassPhase.outside.after (i.withPass slot stage).renderpassSlots :=
    fun i slot hl => by
      rw [h cmd i hl]
      exact (PassPhase.after_append _ _ ⟨slot, stage⟩).symm
  cases writesPass g stage cmd with
  | idle hidle heq =>
    rw [heq]
    split_ifs with henable
    · exact h.update_untracked (fun hc => hidle ⟨henable, hc⟩) _
    · exact h
  | taken i slot allocator henable hl _ _ _ heq =>
    rw [heq, if_pos henable]
    exact h.insert rfl (hnext i slot hl)
  | full i henable hl _ heq =>
    rw [heq, if_pos henable]
    exact h.insert rfl (hnext i _ hl)

theorem phased_step [Add τ] [Zero τ] (h : g.Phased phase) (hcached : g.Cached)
    (callback : Callback) : (g.step callback).Phased (phaseStep g phase callback) := by
  cases callback with
  | setEnable enable => exact h
  | allocateCommandBuffers level pool buffers =>
    intro c i hi
    have hnew : g.cmds.lookup c = some i ∨ (c ∉ g.cmds ∧ i.renderpassSlots = []) := by
      cases level with
      | primary =>
        refine (lookup_allocateCmds pool buffers _ hi).imp_right ?_
        rintro ⟨hc, -, b, -, e, -, rfl⟩
        exact ⟨hc, rfl⟩
      | secondary => exact Or.inl hi
    rcases hnew with hold | ⟨hc, hslots⟩
    · exact (if_pos (mem_cmds_iff.mpr ⟨i, hold⟩)).trans (h c i hold)
    · rw [hslots]
      exact if_neg hc
  | freeCommandBuffers buffers =>
    intro c i hi
    rw [step, lookup_onFreeCommandBuffers] at hi
    split_ifs at hi
    exact h c i hi
  | resetCommandBuffer cmd =>
    intro c i hi
    rw [step, onResetCommandBuffer, lookup_removeCmd] at hi
    by_cases hc : c = cmd
    · rw [if_pos hc, Option.map_eq_some_iff] at hi
      obtain ⟨j, -, rfl⟩ := hi
      rw [hc]
      exact Function.update_self cmd _ _
    · rw [if_neg hc] at hi
      exact (Function.update_of_ne hc _ _).trans (h c i hi)
  | resetCommandPool pool =>
    intro c i hi
    rw [step, lookup_onResetCommandPool, Option.map_eq_some_iff] at hi
    obtain ⟨j, hj, rfl⟩ := hi
    by_cases hpool : j.pool = pool
    · simp [phaseStep, hj, hpool, PassPhase.after, CommandBufferInfo.cleared,
        CommandBufferInfo.reset]
    · simpa [phaseStep, hj, hpool] using h c j hj
  | destroyCommandPool pool =>
    intro c i hi
    by_cases hpool : pool = vkNullHandle
    · rw [step, onDestroyCommandPool, if_pos hpool] at hi
      exact h c i hi
    · rw [step, lookup_onDestroyCommandPool hpool, Option.filter_eq_some_iff] at hi
      exact h c i hi.1
  | beginCommandBuffer cmd flags =>
    show (g.onBeginCommandBuffer cmd flags).1.Phased
      (if g.enable then Function.update phase cmd .outside else phase)
    cases beginsCmd g cmd flags with
    | idle hidle heq =>
      rw [heq]
      split_ifs with henable
      · exact h.update_untracked (fun hc => hidle ⟨henable, hc⟩) _
      · exact h
    | begun i henable hl heq =>
      rw [heq, if_pos henable]
      exact h.insert rfl rfl
  | endCommandBuffer cmd =>
    show (g.onEndCommandBuffer cmd).1.Phased phase
    unfold onEndCommandBuffer
    split_ifs
    · exact h
    · split <;> exact h
  | beginRenderPass cmd => exact phased_writeRenderPassSlot h .topOfPipe
  | endRenderPass cmd => exact phased_writeRenderPassSlot h .bottomOfPipe
  | insertDebugUtilsLabel cmd label => exact h
  | queueSubmit submits =>
    intro c i hi
    rw [step, (submits_submitCmds g submits).cmds] at hi
    exact h c i hi
  | frameBoundary answers =>
    intro c i hi
    rw [step, (bounds_onFrameBoundary answers hcached).cmds] at hi
    exact h c i hi
  | queuePresent answers =>
    intro c i hi
    have hcmds : (g.onQueuePresent answers).1.cmds = g.cmds := by
      unfold onQueuePresent
      split_ifs
      · rfl
      · exact (bounds_onFrameBoundary answers hcached).cmds
    rw [step, hcmds] at hi
    exact h c i hi
  | clearFrameCache => exact h

end GPUTime

/-! ## Settled runs -/

/-- The layer, beside where the recordings stand. -/
structure Watched (τ : Type) where
  gpu : GPUTime τ
  phase : VkCommandBuffer → PassPhase

namespace Watched

variable {τ : Type} {w : Watched τ}

/-- The frame ends outside the render passes of its command buffers. -/
def OutsidePasses (w : Watched τ) : Prop :=
  w.gpu.validFrame = true → ∀ cmd ∈ w.gpu.frameCmds, w.phase cmd = .outside

/-- A render pass finds a free slot; a frame ends outside render passes, also one whose queries fail
before any of them is looked at. -/
def Settled (w : Watched τ) : Callback → Prop
  | .beginRenderPass cmd | .endRenderPass cmd =>
    w.gpu.enable = true → cmd ∈ w.gpu.cmds → 0 < w.gpu.timestampAllocator.free
  | .frameBoundary _ => w.OutsidePasses
  | .queuePresent _ => w.gpu.enable = true → w.OutsidePasses
  | _ => True

/-- What holds along a settled run. -/
structure Sound (w : Watched τ) : Prop where
  cached : w.gpu.Cached
  careful : w.gpu.Careful
  phased : w.gpu.Phased w.phase

theorem Sound.completePairs (h : w.Sound) (hframe : w.OutsidePasses)
    (hvalid : w.gpu.validFrame = true) : ∀ cmd ∈ w.gpu.frameCmds, ∀ info,
      w.gpu.cmds.lookup cmd = some info → CompletePairs info.renderpassSlots := fun cmd hcmd info hl =>
  PassPhase.completePairs ((h.phased cmd info hl).symm.trans (hframe hvalid cmd hcmd))

def start (elapsedTimeInMs : UInt64 → τ) : Watched τ :=
  ⟨GPUTime.start elapsedTimeInMs, fun _ => .outside⟩

theorem sound_start (elapsedTimeInMs : UInt64 → τ) : (start elapsedTimeInMs).Sound where
  cached := GPUTime.cached_start elapsedTimeInMs
  careful := ⟨(fun _ _ h => nomatch h), (fun _ h => nomatch h)⟩
  phased := fun _ _ h => nomatch h

variable [Add τ] [Zero τ]

def step (w : Watched τ) (callback : Callback) : Watched τ :=
  ⟨w.gpu.step callback, w.gpu.phaseStep w.phase callback⟩

theorem gpu_foldl (callbacks : List Callback) (w : Watched τ) :
    (callbacks.foldl step w).gpu = w.gpu.run callbacks := by
  induction callbacks generalizing w with
  | nil => rfl
  | cons callback callbacks ih => exact ih (w.step callback)

theorem careful_step (h : w.Sound) (callback : Callback) (hsettled : w.Settled callback) :
    (w.gpu.step callback).Careful := by
  have hg := h.careful
  have hdetector : ∀ d, GPUTime.Careful { w.gpu with boundaryDetector := d } :=
    fun _ => hg.congr rfl rfl
  cases callback with
  | setEnable enable => exact hg.congr rfl rfl
  | allocateCommandBuffers level pool buffers =>
    cases level with
    | primary =>
      exact GPUTime.careful_allocateCmds (hdetector _) buffers
    | secondary => exact hdetector _
  | freeCommandBuffers buffers =>
    exact GPUTime.foldl_freeCmd (P := GPUTime.Careful)
      (fun _ _ _ hl hg => GPUTime.careful_eraseCmd hg hl) buffers (hdetector _)
  | resetCommandBuffer cmd =>
    exact GPUTime.careful_removeCmd (hdetector _)
  | resetCommandPool pool =>
    exact GPUTime.foldl_resetPoolCmd (P := GPUTime.Careful)
      (fun _ _ hg => GPUTime.careful_removeCmd hg) _ (hdetector _)
  | destroyCommandPool pool =>
    exact GPUTime.preserves_onDestroyCommandPool (P := GPUTime.Careful)
      (fun _ _ _ hl hg => GPUTime.careful_eraseCmd hg hl) pool hg
  | beginCommandBuffer cmd flags => exact GPUTime.careful_onBeginCommandBuffer hg flags
  | endCommandBuffer cmd => exact GPUTime.careful_onEndCommandBuffer hg
  | beginRenderPass cmd => exact GPUTime.careful_writeRenderPassSlot hg hsettled
  | endRenderPass cmd => exact GPUTime.careful_writeRenderPassSlot hg hsettled
  | insertDebugUtilsLabel cmd label => exact hdetector _
  | queueSubmit submits =>
    have hsubmit := GPUTime.submits_submitCmds w.gpu submits
    exact hg.congr hsubmit.cmds hsubmit.accesses
  | frameBoundary answers =>
    exact GPUTime.careful_onFrameBoundary hg h.cached (h.completePairs hsettled) answers
  | queuePresent answers =>
    show (w.gpu.onQueuePresent answers).1.Careful
    unfold GPUTime.onQueuePresent
    split_ifs with hdisabled
    · exact hg
    · have henable : w.gpu.enable = true := by simpa using hdisabled
      exact GPUTime.careful_onFrameBoundary hg h.cached (h.completePairs (hsettled henable)) answers
  | clearFrameCache => exact hg.congr rfl rfl

theorem sound_step (w : Watched τ) (callback : Callback) (h : w.Sound)
    (hsettled : w.Settled callback) : (w.step callback).Sound where
  cached := GPUTime.cached_step h.cached callback
  careful := careful_step h callback hsettled
  phased := GPUTime.phased_step h.phased h.cached callback

end Watched

/-- **Slot bounds and pairing.** Along a settled run every slot number used is in range, and every
command buffer aggregated has its render passes in pairs. -/
theorem run_safe {τ : Type} [Add τ] [Zero τ] (elapsedTimeInMs : UInt64 → τ)
    (callbacks : List Callback)
    (h : Monitor.Along Watched.step Watched.Settled (Watched.start elapsedTimeInMs) callbacks) :
    ∀ a ∈ ((GPUTime.start elapsedTimeInMs).run callbacks).accesses, a.Safe := by
  have hsound := Monitor.foldl_along Watched.sound_step (Watched.sound_start elapsedTimeInMs) h
  have hgpu := Watched.gpu_foldl callbacks (Watched.start elapsedTimeInMs)
  exact fun a ha => hsound.careful.safe a (hgpu ▸ ha)

/-- A frame with one command buffer and one render pass. -/
def onePass : List Callback :=
  [.setEnable true, .allocateCommandBuffers .primary 7 [1], .beginCommandBuffer 1 1,
    .beginRenderPass 1, .endRenderPass 1, .endCommandBuffer 1, .queueSubmit [⟨some [1]⟩],
    .queuePresent fun _ => ⟨vkSuccess, fun _ => 1⟩]

theorem run_safe_onePass : ((GPUTime.start UInt64.toNat).run onePass).accesses ≠ [] ∧
    ∀ a ∈ ((GPUTime.start UInt64.toNat).run onePass).accesses, a.Safe := by
  refine ⟨by decide +kernel, ?_⟩
  refine run_safe UInt64.toNat onePass ⟨trivial, trivial, trivial, fun _ _ => ?_, fun _ _ => ?_,
    trivial, trivial, fun _ _ => ?_, trivial⟩
  · exact @TimeStampSlotAllocator.free_pos _ 5 (by decide) (by decide +kernel)
  · exact @TimeStampSlotAllocator.free_pos _ 5 (by decide) (by decide +kernel)
  · decide +kernel

/-- The recording after a submit stops inside a render pass when the frame ends. -/
def rerecorded : List Callback :=
  [.setEnable true, .allocateCommandBuffers .primary 7 [1], .beginCommandBuffer 1 0,
    .endCommandBuffer 1, .queueSubmit [⟨some [1]⟩], .beginCommandBuffer 1 0, .beginRenderPass 1,
    .queuePresent fun _ => ⟨vkSuccess, fun _ => 1⟩]

/-- **One slot is aggregated as a pair.** -/
theorem rerecorded_unsafe :
    ¬ ∀ a ∈ ((GPUTime.start UInt64.toNat).run rerecorded).accesses, a.Safe := by
  intro h
  exact h (.aggregate 1 [⟨2, .topOfPipe⟩]) (by decide +kernel)

end Dive
