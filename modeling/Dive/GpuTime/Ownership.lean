import Dive.GpuTime.Tracking
import Dive.Lib.Monitor

/-!
# Who owns the slots

* `Owned`: the slots marked used are those the tracked command buffers record, each once.
* `Roomy`: the callback finds the slots it needs, or none where it allocates two.
* **`owned_iff_roomy`**: a run keeps the ownership exactly when all its callbacks find room.
* **`lastSlot_leaked`**: one slot left, and a command buffer to allocate.
-/

namespace Dive

/-- The slots that an entry records. -/
def CommandBufferInfo.slots (info : CommandBufferInfo) : List ℕ :=
  info.beginTimestampOffset :: info.endTimestampOffset :: info.renderpassSlots.map (·.slot)

namespace GPUTime

variable {τ : Type} {g g' : GPUTime τ} {cmd : VkCommandBuffer} {info info' : CommandBufferInfo}
  {pool : VkCommandPool}

/-- The slots that the tracked command buffers record. -/
def recorded (g : GPUTime τ) : List ℕ := Ledger.collect CommandBufferInfo.slots g.cmds

/-- **No slot is leaked, owned twice, or freed while recorded.** -/
def Owned (g : GPUTime τ) : Prop := Ledger.Holds g.timestampAllocator.used g.recorded

/-- How many of the buffers are new, up to the first that is not. -/
def untracked (tracked : List VkCommandBuffer) : List VkCommandBuffer → ℕ
  | [] => 0
  | cmd :: rest => if cmd ∈ tracked then 0 else untracked (cmd :: tracked) rest + 1

/-- A render pass finds a free slot; an allocation never meets a single one. -/
def Roomy (g : GPUTime τ) : Callback → Prop
  | .allocateCommandBuffers .primary _ buffers =>
    ¬ (g.timestampAllocator.free % 2 = 1 ∧
      g.timestampAllocator.free < 2 * untracked g.cmds.keys buffers)
  | .beginRenderPass cmd | .endRenderPass cmd =>
    g.enable = true → cmd ∈ g.cmds → 0 < g.timestampAllocator.free
  | _ => True

/-! ## Giving back -/

theorem recorded_perm (h : g.cmds.lookup cmd = some info) :
    g.recorded.Perm (info.renderpassSlots.map (·.slot) ++
      ([info.beginTimestampOffset, info.endTimestampOffset] ++
        Ledger.collect CommandBufferInfo.slots (g.cmds.erase cmd))) := by
  refine (Ledger.collect_of_lookup h).trans ?_
  rw [← List.append_assoc]
  exact List.Perm.append_right _ (@List.perm_append_comm _ [_, _] _)

theorem Owned.dropPasses (h : g.Owned) (hl : g.cmds.lookup cmd = some info)
    (hcmds : g'.cmds = g.cmds.insert cmd info')
    (hinfo : info'.slots = [info.beginTimestampOffset, info.endTimestampOffset])
    (hslots : g'.timestampAllocator =
      g.timestampAllocator.freeSlots (info.renderpassSlots.map (·.slot))) : g'.Owned := by
  rw [Owned, recorded, hcmds, Ledger.collect_insert, hinfo, hslots,
    TimeStampSlotAllocator.used_freeSlots]
  exact (h.perm (recorded_perm hl)).giveBack

theorem owned_removeCmd (h : g.Owned) : (g.removeCmdFromFrameCache cmd).Owned := by
  cases hl : g.cmds.lookup cmd with
  | none => rwa [removeCmd_of_lookup_none hl]
  | some info =>
    rw [removeCmd_of_lookup hl]
    exact h.dropPasses hl rfl rfl rfl

theorem owned_eraseCmd (h : g.Owned) (hl : g.cmds.lookup cmd = some info) :
    (g.eraseCmd cmd info).Owned := by
  have hslots : (g.eraseCmd cmd info).timestampAllocator.used =
      (g.timestampAllocator.used \ (info.renderpassSlots.map (·.slot)).toFinset) \
        [info.beginTimestampOffset, info.endTimestampOffset].toFinset := by
    rw [eraseCmd_of_lookup hl, sdiff_right_comm]
    exact (TimeStampSlotAllocator.used_freeSlots _).trans
      (congrArg (· \ _) (TimeStampSlotAllocator.used_freeSlots _))
  rw [Owned, hslots, recorded, eraseCmd_of_lookup hl]
  exact (h.perm (recorded_perm hl)).giveBack.giveBack.perm Ledger.collect_erase_insert.symm

theorem owned_onBeginCommandBuffer (h : g.Owned) (flags : UInt32) :
    (g.onBeginCommandBuffer cmd flags).1.Owned := by
  cases beginsCmd g cmd flags with
  | idle _ heq => rwa [heq]
  | begun i _ hl heq =>
    rw [heq]
    exact h.dropPasses hl rfl rfl rfl

/-! ## Taking -/

theorem slots_withPass (info : CommandBufferInfo) (slot : ℕ) (stage : PipelineStage) :
    (info.withPass slot stage).slots = info.slots ++ [slot] := by
  simp [CommandBufferInfo.slots, CommandBufferInfo.withPass]

theorem Owned.takePass {slot : ℕ} {stage : PipelineStage} (h : g.Owned)
    (hl : g.cmds.lookup cmd = some info) (hclear : slot ∉ g.timestampAllocator.used)
    (hused : g'.timestampAllocator.used = insert slot g.timestampAllocator.used)
    (hcmds : g'.cmds = g.cmds.insert cmd (info.withPass slot stage)) : g'.Owned := by
  rw [Owned, hused, recorded, hcmds, Ledger.collect_insert, slots_withPass]
  refine (h.take hclear).perm (((Ledger.collect_of_lookup hl).cons slot).trans ?_)
  rw [← List.cons_append]
  exact List.Perm.append_right _ (List.perm_append_singleton slot info.slots).symm

theorem owned_writeRenderPassSlot {stage : PipelineStage} (h : g.Owned) :
    (g.writeRenderPassSlot stage cmd).1.Owned ↔
      (g.enable = true → cmd ∈ g.cmds → 0 < g.timestampAllocator.free) := by
  cases writesPass g stage cmd with
  | idle hidle heq =>
    rw [heq]
    exact iff_of_true h fun henable hcmd => absurd ⟨henable, hcmd⟩ hidle
  | taken i slot allocator _ hl _ hclear hused heq =>
    have hfree := TimeStampSlotAllocator.free_of_insert hclear hused
    rw [heq]
    exact iff_of_true (h.takePass hl hclear hused rfl) fun _ _ => by omega
  | full i henable hl hfull heq =>
    rw [heq]
    refine iff_of_false (fun hc => ?_) fun hc => ?_
    · have hmarker : kInvalidIndex ∈ g.timestampAllocator.used := by
        refine hc.mem_iff.mpr (Ledger.mem_collect.mpr ⟨cmd, _, AList.lookup_insert _, ?_⟩)
        simp [slots_withPass]
      have hlt := TimeStampSlotAllocator.lt_of_mem_used hmarker
      exact hlt.not_gt TimeStampSlotAllocator.kTotalSlots_lt_kInvalidIndex
    · have hpos := hc henable (mem_cmds_iff.mpr ⟨i, hl⟩)
      omega

theorem Owned.takeCmd {b e : ℕ} {allocator : TimeStampSlotAllocator} (h : g.Owned)
    (hcmd : cmd ∉ g.cmds) (hclear : b ∉ g.timestampAllocator.used)
    (hclear' : e ∉ insert b g.timestampAllocator.used)
    (hused : allocator.used = insert e (insert b g.timestampAllocator.used)) :
    Owned { g with
      timestampAllocator := allocator
      cmds := g.cmds.insert cmd (allocatedInfo pool b e) } := by
  rw [Owned, recorded, Ledger.collect_insert_of_notMem hcmd]
  show Ledger.Holds allocator.used (b :: e :: g.recorded)
  rw [hused]
  exact ((h.take hclear).take hclear').perm (List.Perm.swap b e _)

/-- **The loop of `OnAllocateCommandBuffers`** leaks a slot exactly when it meets a single one. -/
theorem owned_allocateCmds (pool : VkCommandPool) (buffers : List VkCommandBuffer) (h : g.Owned) :
    (allocateCmds pool buffers g).1.Owned ↔ ¬ (g.timestampAllocator.free % 2 = 1 ∧
      g.timestampAllocator.free < 2 * untracked g.cmds.keys buffers) := by
  induction buffers generalizing g with
  | nil => exact iff_of_true h fun hc => Nat.not_lt_zero _ hc.2
  | cons cmd rest ih =>
    by_cases hcmd : cmd ∈ g.cmds
    · have hstay : (allocateCmds pool (cmd :: rest) g).1 = { g with validFrame := false } := by
        rw [allocateCmds, if_pos hcmd]
      rw [hstay, untracked, if_pos (AList.mem_keys.mp hcmd)]
      exact iff_of_true h fun hc => Nat.not_lt_zero _ hc.2
    · have hkeys : cmd ∉ g.cmds.keys := fun hc => hcmd (AList.mem_keys.mpr hc)
      rw [untracked, if_neg hkeys]
      cases allocatesCmd pool rest hcmd with
      | tracked b e allocator _ _ hclear hclear' hused heq =>
        have hfree := TimeStampSlotAllocator.free_of_insert₂ hclear hclear' hused
        rw [heq, ih (h.takeCmd hcmd hclear hclear' hused), AList.keys_insert,
          List.erase_of_not_mem hkeys]
        dsimp only
        omega
      | half b allocator hclear hused hfull heq =>
        have hfree := TimeStampSlotAllocator.free_of_insert hclear hused
        rw [heq]
        refine iff_of_false (fun hc => ?_) fun hc => hc ⟨by omega, by omega⟩
        have hcard := hc.card
        rw [hused, Finset.card_insert_of_notMem hclear, h.card] at hcard
        exact absurd hcard (Nat.succ_ne_self _)
      | full hfull heq =>
        rw [heq]
        exact iff_of_true h fun hc => by omega

/-! ## Every callback -/

theorem owned_of_eq (h : g.Owned) (hcmds : g'.cmds = g.cmds)
    (hslots : g'.timestampAllocator = g.timestampAllocator) : g'.Owned := by
  rwa [Owned, recorded, hcmds, hslots]

theorem owned_start (elapsedTimeInMs : UInt64 → τ) : (start elapsedTimeInMs).Owned :=
  ⟨List.nodup_nil, TimeStampSlotAllocator.used_init.symm⟩

theorem cached_start (elapsedTimeInMs : UInt64 → τ) : (start elapsedTimeInMs).Cached :=
  fun _ hc => nomatch hc

section Steps

variable [Add τ] [Zero τ]

/-- **A callback keeps the ownership exactly when it finds room.** -/
theorem owned_step (h : g.Owned) (hcached : g.Cached) (callback : Callback) :
    (g.step callback).Owned ↔ g.Roomy callback := by
  cases callback with
  | setEnable enable => exact iff_of_true (owned_of_eq h rfl rfl) trivial
  | allocateCommandBuffers level pool buffers =>
    cases level with
    | primary => exact owned_allocateCmds pool buffers (owned_of_eq h rfl rfl)
    | secondary => exact iff_of_true (owned_of_eq h rfl rfl) trivial
  | freeCommandBuffers buffers =>
    exact iff_of_true (foldl_freeCmd (P := Owned) (fun _ _ _ hl hg => owned_eraseCmd hg hl) buffers
      (owned_of_eq h rfl rfl)) trivial
  | resetCommandBuffer cmd =>
    exact iff_of_true (owned_removeCmd (owned_of_eq h rfl rfl)) trivial
  | resetCommandPool pool =>
    exact iff_of_true (foldl_resetPoolCmd (P := Owned) (fun _ _ hg => owned_removeCmd hg) _
      (owned_of_eq h rfl rfl)) trivial
  | destroyCommandPool pool =>
    exact iff_of_true (preserves_onDestroyCommandPool (P := Owned)
      (fun _ _ _ hl hg => owned_eraseCmd hg hl) pool h) trivial
  | beginCommandBuffer cmd flags => exact iff_of_true (owned_onBeginCommandBuffer h flags) trivial
  | endCommandBuffer cmd =>
    refine iff_of_true ?_ trivial
    show (g.onEndCommandBuffer cmd).1.Owned
    unfold onEndCommandBuffer
    split_ifs
    · exact h
    · split <;> exact h
  | beginRenderPass cmd => exact owned_writeRenderPassSlot h
  | endRenderPass cmd => exact owned_writeRenderPassSlot h
  | insertDebugUtilsLabel cmd label => exact iff_of_true (owned_of_eq h rfl rfl) trivial
  | queueSubmit submits =>
    have hsubmit := submits_submitCmds g submits
    exact iff_of_true (owned_of_eq h hsubmit.cmds hsubmit.timestampAllocator) trivial
  | frameBoundary answers =>
    have hbounds := bounds_onFrameBoundary answers hcached
    exact iff_of_true (owned_of_eq h hbounds.cmds hbounds.timestampAllocator) trivial
  | queuePresent answers =>
    refine iff_of_true ?_ trivial
    show (g.onQueuePresent answers).1.Owned
    unfold onQueuePresent
    split_ifs
    · exact h
    · have hbounds := bounds_onFrameBoundary answers hcached
      exact owned_of_eq h hbounds.cmds hbounds.timestampAllocator
  | clearFrameCache => exact iff_of_true (owned_of_eq h rfl rfl) trivial

/-- **Slot ownership.** In every state of a run the slots marked used are exactly those recorded,
each once, if and only if every callback of the run finds room. -/
theorem owned_iff_roomy (elapsedTimeInMs : UInt64 → τ) (callbacks : List Callback) :
    (∀ l, l <+: callbacks → ((start elapsedTimeInMs).run l).Owned) ↔
      Monitor.Along step Roomy (start elapsedTimeInMs) callbacks :=
  Monitor.good_iff_along (I := fun g : GPUTime τ => g.Owned ∧ g.Cached) (fun _ h => h.1)
    (fun _ callback h hroom => ⟨(owned_step h.1 h.2 callback).mpr hroom, cached_step h.2 callback⟩)
    (fun _ callback h hgood => (owned_step h.1 h.2 callback).mp hgood)
    ⟨owned_start elapsedTimeInMs, cached_start elapsedTimeInMs⟩

end Steps

/-! ## The last slot -/

theorem run_passes [Add τ] [Zero τ] (passes : List Callback)
    (hpasses : ∀ p ∈ passes, p = .beginRenderPass cmd ∨ p = .endRenderPass cmd) (h : g.Owned)
    (henable : g.enable = true) (hkeys : g.cmds.keys = [cmd])
    (hlen : passes.length ≤ g.timestampAllocator.free) :
    (g.run passes).Owned ∧ (g.run passes).cmds.keys = [cmd] ∧
      (g.run passes).timestampAllocator.free + passes.length = g.timestampAllocator.free := by
  induction passes generalizing g with
  | nil => exact ⟨h, hkeys, Nat.add_zero _⟩
  | cons p passes ih =>
    have hcmd : cmd ∈ g.cmds := AList.mem_keys.mpr (hkeys ▸ List.mem_singleton.mpr rfl)
    obtain ⟨stage, hp⟩ : ∃ stage, g.step p = (g.writeRenderPassSlot stage cmd).1 := by
      rcases hpasses p List.mem_cons_self with rfl | rfl
      · exact ⟨.topOfPipe, rfl⟩
      · exact ⟨.bottomOfPipe, rfl⟩
    have hrun : g.run (p :: passes) = (g.writeRenderPassSlot stage cmd).1.run passes := by
      rw [← hp]
      rfl
    rw [List.length_cons] at hlen
    cases writesPass g stage cmd with
    | idle hidle => exact absurd ⟨henable, hcmd⟩ hidle
    | full i _ _ hfull => omega
    | taken i slot allocator _ hl hlt hclear hused heq =>
      have hfree := TimeStampSlotAllocator.free_of_insert hclear hused
      have hkeys' : (g.cmds.insert cmd (i.withPass slot stage)).keys = [cmd] := by
        simp [AList.keys_insert, hkeys]
      have hlen' : passes.length ≤ allocator.free := by omega
      have howned : Owned ({ g with
          timestampAllocator := allocator
          cmds := g.cmds.insert cmd (i.withPass slot stage) }.record [.write cmd stage slot]) :=
        h.takePass hl hclear hused rfl
      obtain ⟨hg, hk, hf⟩ := ih (fun q hq => hpasses q (List.mem_cons_of_mem p hq)) howned henable
        hkeys' hlen'
      rw [hrun, heq, List.length_cons, hfree, ← add_assoc]
      exact ⟨hg, hk, congrArg (· + 1) hf⟩

/-- A command buffer that records `n` render passes and begins one more. -/
def passCallbacks (n : ℕ) : List Callback :=
  (List.replicate n [Callback.beginRenderPass 1, .endRenderPass 1]).flatten ++ [.beginRenderPass 1]

theorem length_passCallbacks (n : ℕ) : (passCallbacks n).length = 2 * n + 1 := by
  simp [passCallbacks, mul_comm]

theorem mem_passCallbacks {n : ℕ} :
    ∀ p ∈ passCallbacks n, p = .beginRenderPass 1 ∨ p = .endRenderPass 1 := by
  intro p hp
  simp only [passCallbacks, List.mem_append, List.mem_flatten, List.mem_replicate,
    List.mem_singleton] at hp
  rcases hp with ⟨l, ⟨-, rfl⟩, hp⟩ | rfl
  · simpa using hp
  · exact Or.inl rfl

def oneBuffer : List Callback := [.setEnable true, .allocateCommandBuffers .primary 1 [1]]

/-- A first command buffer that records, and a second one. -/
def secondBuffer (n : ℕ) : List Callback :=
  oneBuffer ++ passCallbacks n ++ [.allocateCommandBuffers .primary 1 [2]]

theorem free_oneBuffer (h : ((start UInt64.toNat).run oneBuffer).Owned) :
    ((start UInt64.toNat).run oneBuffer).timestampAllocator.free = 8190 := by
  have hrecorded : ((start UInt64.toNat).run oneBuffer).recorded = [0, 1] := by decide +kernel
  have hcard := h.card
  rw [hrecorded] at hcard
  exact (TimeStampSlotAllocator.free_of_card hcard).trans (by decide)

theorem notOwned_of_oneSlot [Add τ] [Zero τ] (h : g.Owned) (hcached : g.Cached)
    (hkeys : g.cmds.keys = [1]) (hfree : g.timestampAllocator.free = 1) :
    ¬ (g.step (.allocateCommandBuffers .primary 1 [2])).Owned := by
  rw [owned_step h hcached]
  simp [Roomy, hkeys, hfree, untracked]

theorem secondBuffer_notOwned {n : ℕ} (hn : n = 4094) :
    ¬ ∀ l, l <+: secondBuffer n → ((start UInt64.toNat).run l).Owned := by
  intro hall
  have hone := hall oneBuffer ⟨passCallbacks n ++ [.allocateCommandBuffers .primary 1 [2]],
    (List.append_assoc _ _ _).symm⟩
  have hrecorded := hall (oneBuffer ++ passCallbacks n) (List.prefix_append _ _)
  have hlast := hall (secondBuffer n) (List.prefix_refl _)
  have hkeys : ((start UInt64.toNat).run oneBuffer).cmds.keys = [1] := by decide +kernel
  have hfree := free_oneBuffer hone
  have hlen := length_passCallbacks n
  have hrun := run_passes (passCallbacks n) mem_passCallbacks hone (by decide +kernel) hkeys
    (by omega)
  rw [secondBuffer, run_append] at hlast
  rw [← run_append] at hrun
  exact notOwned_of_oneSlot hrecorded (cached_run (cached_start _) _) hrun.2.1 (by omega) hlast

/-- **The last slot is leaked**, to a second command buffer that needs two. -/
theorem lastSlot_leaked :
    ¬ ∀ l, l <+: secondBuffer 4094 → ((start UInt64.toNat).run l).Owned :=
  secondBuffer_notOwned rfl

end GPUTime

end Dive
