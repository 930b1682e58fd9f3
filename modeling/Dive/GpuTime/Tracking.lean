import Dive.GpuTime.Callbacks

/-!
# The tracked command buffers

* What each callback does to the entry of a command buffer: `lookup_removeCmd`, `lookup_eraseCmd`,
  `lookup_foldl`, `lookup_allocateCmds`.
* `Consults`: the functions of a frame boundary read the table and the slots it records.
* **`cached_step`**: the command buffers of the frame are tracked.
-/

namespace Dive

/-- An entry whose recording is dropped. -/
def CommandBufferInfo.cleared (info : CommandBufferInfo) : CommandBufferInfo :=
  { info with renderpassSlots := [] }.reset

/-- An entry whose recording starts again. -/
def CommandBufferInfo.begun (info : CommandBufferInfo) (flags : UInt32) : CommandBufferInfo :=
  { info with
    renderpassSlots := []
    usageOneSubmit := flags &&& oneTimeSubmitBit != 0
    reusable := flags &&& simultaneousUseBit != 0 }

/-- An entry with one more render-pass slot. -/
def CommandBufferInfo.withPass (info : CommandBufferInfo) (slot : ℕ) (stage : PipelineStage) :
    CommandBufferInfo :=
  { info with renderpassSlots := info.renderpassSlots ++ [⟨slot, stage⟩] }

namespace GPUTime

variable {τ : Type} {g g' g'' : GPUTime τ} {cmd c : VkCommandBuffer}
  {info : CommandBufferInfo} {pool : VkCommandPool}

theorem mem_cmds_iff : c ∈ g.cmds ↔ ∃ info, g.cmds.lookup c = some info := by
  rw [← AList.lookup_isSome, Option.isSome_iff_exists]

/-! ## One entry -/

theorem removeCmd_of_lookup (h : g.cmds.lookup cmd = some info) :
    g.removeCmdFromFrameCache cmd =
      { g.freeSlots (info.renderpassSlots.map (·.slot)) with
        cmds := g.cmds.insert cmd info.cleared
        frameCmds := g.frameCmds.filter (· ≠ cmd) } := by
  unfold removeCmdFromFrameCache
  rw [h]
  rfl

theorem removeCmd_of_lookup_none (h : g.cmds.lookup cmd = none) :
    g.removeCmdFromFrameCache cmd = g := by
  unfold removeCmdFromFrameCache
  rw [h]

theorem eraseCmd_of_lookup (h : g.cmds.lookup cmd = some info) :
    g.eraseCmd cmd info =
      { (g.freeSlots [info.beginTimestampOffset, info.endTimestampOffset]).freeSlots
          (info.renderpassSlots.map (·.slot)) with
        cmds := (g.cmds.insert cmd info.cleared).erase cmd
        frameCmds := g.frameCmds.filter (· ≠ cmd) } :=
  congrArg (fun g : GPUTime τ => { g with cmds := g.cmds.erase cmd })
    (removeCmd_of_lookup (g := g.freeSlots _) h)

theorem lookup_removeCmd (g : GPUTime τ) (cmd c : VkCommandBuffer) :
    (g.removeCmdFromFrameCache cmd).cmds.lookup c =
      if c = cmd then (g.cmds.lookup c).map CommandBufferInfo.cleared else g.cmds.lookup c := by
  cases h : g.cmds.lookup cmd with
  | none =>
    rw [removeCmd_of_lookup_none h]
    split_ifs with hc
    · rw [hc, h]
      rfl
    · rfl
  | some info =>
    rw [removeCmd_of_lookup h]
    split_ifs with hc
    · rw [hc, h]
      exact AList.lookup_insert g.cmds
    · exact AList.lookup_insert_ne hc

theorem lookup_eraseCmd (h : g.cmds.lookup cmd = some info) (c : VkCommandBuffer) :
    (g.eraseCmd cmd info).cmds.lookup c = if c = cmd then none else g.cmds.lookup c := by
  rw [eraseCmd_of_lookup h]
  split_ifs with hc
  · rw [hc]
    exact AList.lookup_erase cmd _
  · exact (AList.lookup_erase_ne hc).trans (AList.lookup_insert_ne hc)

theorem frameCmds_removeCmd_subset :
    (g.removeCmdFromFrameCache cmd).frameCmds ⊆ g.frameCmds := by
  cases h : g.cmds.lookup cmd with
  | none => rw [removeCmd_of_lookup_none h]; exact List.Subset.refl _
  | some info => rw [removeCmd_of_lookup h]; exact fun x hx => (List.mem_filter.mp hx).1

/-! ## Many entries -/

theorem lookup_foldl {f : GPUTime τ → VkCommandBuffer → GPUTime τ}
    {φ : Option CommandBufferInfo → Option CommandBufferInfo} (hφ : ∀ o, φ (φ o) = φ o)
    (hf : ∀ g cmd c, (f g cmd).cmds.lookup c =
      if c = cmd then φ (g.cmds.lookup c) else g.cmds.lookup c) (c : VkCommandBuffer) :
    ∀ (l : List VkCommandBuffer) (g : GPUTime τ), (l.foldl f g).cmds.lookup c =
      if c ∈ l then φ (g.cmds.lookup c) else g.cmds.lookup c
  | [], g => by simp
  | cmd :: l, g => by
    rw [List.foldl_cons, lookup_foldl hφ hf c l (f g cmd), hf]
    by_cases hc : c = cmd
    · simp [hc, hφ]
    · simp [hc]

theorem lookup_foldl_keys {f : GPUTime τ → VkCommandBuffer → GPUTime τ}
    {φ : Option CommandBufferInfo → Option CommandBufferInfo} (hφ : ∀ o, φ (φ o) = φ o)
    (hf : ∀ g cmd c, (f g cmd).cmds.lookup c =
      if c = cmd then φ (g.cmds.lookup c) else g.cmds.lookup c) (hnone : φ none = none)
    (g : GPUTime τ) (c : VkCommandBuffer) :
    (g.cmds.keys.foldl f g).cmds.lookup c = φ (g.cmds.lookup c) := by
  rw [lookup_foldl hφ hf]
  split_ifs with hc
  · rfl
  · rw [AList.lookup_eq_none.mpr hc, hnone]

theorem lookup_freeCmd (g : GPUTime τ) (cmd c : VkCommandBuffer) :
    (g.freeCmd cmd).cmds.lookup c = if c = cmd then none else g.cmds.lookup c := by
  unfold freeCmd
  split
  next h =>
    split_ifs with hc
    · rw [hc, h]
    · rfl
  next info h => exact lookup_eraseCmd h c

theorem lookup_destroyPoolCmd (pool : VkCommandPool) (g : GPUTime τ) (cmd c : VkCommandBuffer) :
    (destroyPoolCmd pool g cmd).cmds.lookup c =
      if c = cmd then (g.cmds.lookup c).filter fun info => info.pool ≠ pool
      else g.cmds.lookup c := by
  unfold destroyPoolCmd
  split
  next h =>
    split_ifs with hc
    · rw [hc, h]
      rfl
    · rfl
  next info h =>
    by_cases hpool : info.pool = pool
    · rw [if_pos hpool, lookup_eraseCmd h]
      split_ifs with hc
      · rw [hc, h]
        simp [Option.filter, hpool]
      · rfl
    · rw [if_neg hpool]
      split_ifs with hc
      · rw [hc, h]
        simp [Option.filter, hpool]
      · rfl

theorem lookup_resetPoolCmd (pool : VkCommandPool) (g : GPUTime τ) (cmd c : VkCommandBuffer) :
    (resetPoolCmd pool g cmd).cmds.lookup c =
      if c = cmd then
        (g.cmds.lookup c).map fun info => if info.pool = pool then info.cleared else info
      else g.cmds.lookup c := by
  unfold resetPoolCmd
  split
  next h =>
    split_ifs with hc
    · rw [hc, h]
      rfl
    · rfl
  next info h =>
    by_cases hpool : info.pool = pool
    · rw [if_pos hpool, lookup_removeCmd]
      split_ifs with hc
      · rw [hc, h]
        simp [hpool]
      · rfl
    · rw [if_neg hpool]
      split_ifs with hc
      · rw [hc, h]
        simp [hpool]
      · rfl

theorem lookup_onFreeCommandBuffers (g : GPUTime τ) (buffers : List VkCommandBuffer)
    (c : VkCommandBuffer) : (g.onFreeCommandBuffers buffers).1.cmds.lookup c =
      if c ∈ buffers then none else g.cmds.lookup c :=
  lookup_foldl (φ := fun _ => none) (fun _ => rfl) lookup_freeCmd c buffers _

theorem lookup_onDestroyCommandPool (hpool : pool ≠ vkNullHandle) (g : GPUTime τ)
    (c : VkCommandBuffer) : (g.onDestroyCommandPool pool).1.cmds.lookup c =
      (g.cmds.lookup c).filter fun info => info.pool ≠ pool := by
  rw [onDestroyCommandPool, if_neg hpool]
  refine lookup_foldl_keys (fun o => ?_) (lookup_destroyPoolCmd pool) rfl g c
  cases o with
  | none => rfl
  | some info => by_cases h : info.pool = pool <;> simp [Option.filter, h]

theorem lookup_onResetCommandPool (g : GPUTime τ) (pool : VkCommandPool) (c : VkCommandBuffer) :
    (g.onResetCommandPool pool).1.cmds.lookup c =
      (g.cmds.lookup c).map fun info => if info.pool = pool then info.cleared else info := by
  refine lookup_foldl_keys (fun o => ?_) (lookup_resetPoolCmd pool) rfl _ c
  cases o with
  | none => rfl
  | some info => by_cases h : info.pool = pool <;> simp [h, CommandBufferInfo.cleared,
      CommandBufferInfo.reset]

/-! ## What erasing and clearing preserve -/

section Preserves

variable {P : GPUTime τ → Prop}

theorem foldl_freeCmd
    (herase : ∀ g cmd info, g.cmds.lookup cmd = some info → P g → P (g.eraseCmd cmd info))
    (buffers : List VkCommandBuffer) (h : P g) : P (buffers.foldl freeCmd g) := by
  refine List.foldlRecOn buffers freeCmd h fun g hg cmd _ => ?_
  unfold freeCmd
  split
  next => exact hg
  next info hl => exact herase g cmd info hl hg

theorem foldl_destroyPoolCmd
    (herase : ∀ g cmd info, g.cmds.lookup cmd = some info → P g → P (g.eraseCmd cmd info))
    (buffers : List VkCommandBuffer) (h : P g) : P (buffers.foldl (destroyPoolCmd pool) g) := by
  refine List.foldlRecOn buffers (destroyPoolCmd pool) h fun g hg cmd _ => ?_
  unfold destroyPoolCmd
  split
  next => exact hg
  next info hl =>
    split_ifs
    · exact herase g cmd info hl hg
    · exact hg

theorem foldl_resetPoolCmd (hremove : ∀ g cmd, P g → P (g.removeCmdFromFrameCache cmd))
    (buffers : List VkCommandBuffer) (h : P g) : P (buffers.foldl (resetPoolCmd pool) g) := by
  refine List.foldlRecOn buffers (resetPoolCmd pool) h fun g hg cmd _ => ?_
  unfold resetPoolCmd
  split
  next => exact hg
  next info hl =>
    split_ifs
    · exact hremove g cmd hg
    · exact hg

theorem preserves_onDestroyCommandPool
    (herase : ∀ g cmd info, g.cmds.lookup cmd = some info → P g → P (g.eraseCmd cmd info))
    (pool : VkCommandPool) (h : P g) : P (g.onDestroyCommandPool pool).1 := by
  unfold onDestroyCommandPool
  split_ifs
  · exact h
  · exact foldl_destroyPoolCmd herase _ h

end Preserves

/-- The entry that `OnAllocateCommandBuffers` makes. -/
def allocatedInfo (pool : VkCommandPool) (beginSlot endSlot : ℕ) : CommandBufferInfo :=
  { pool := pool, beginTimestampOffset := beginSlot, endTimestampOffset := endSlot }

/-- What the loop of `OnAllocateCommandBuffers` does with a handle that is not tracked. -/
inductive AllocatesCmd (pool : VkCommandPool) (cmd : VkCommandBuffer)
    (rest : List VkCommandBuffer) (g : GPUTime τ) : Prop
  | tracked (beginSlot endSlot : ℕ) (allocator : TimeStampSlotAllocator)
      (hbegin : beginSlot < kTotalSlots) (hend : endSlot < kTotalSlots)
      (hclear : beginSlot ∉ g.timestampAllocator.used)
      (hclear' : endSlot ∉ insert beginSlot g.timestampAllocator.used)
      (hused : allocator.used = insert endSlot (insert beginSlot g.timestampAllocator.used))
      (heq : allocateCmds pool (cmd :: rest) g = allocateCmds pool rest
        { g with
          timestampAllocator := allocator
          cmds := g.cmds.insert cmd (allocatedInfo pool beginSlot endSlot) })
  | half (beginSlot : ℕ) (allocator : TimeStampSlotAllocator)
      (hclear : beginSlot ∉ g.timestampAllocator.used)
      (hused : allocator.used = insert beginSlot g.timestampAllocator.used)
      (hfull : allocator.free = 0)
      (heq : (allocateCmds pool (cmd :: rest) g).1 = { g with timestampAllocator := allocator })
  | full (hfull : g.timestampAllocator.free = 0)
      (heq : (allocateCmds pool (cmd :: rest) g).1 = g)

theorem allocatesCmd (pool : VkCommandPool) (rest : List VkCommandBuffer) (h : cmd ∉ g.cmds) :
    AllocatesCmd pool cmd rest g := by
  have hne : ∀ {slot}, slot < kTotalSlots → slot ≠ kInvalidIndex := fun hlt =>
    (hlt.trans TimeStampSlotAllocator.kTotalSlots_lt_kInvalidIndex).ne
  obtain ⟨beginSlot, a, ha⟩ : ∃ b a, g.timestampAllocator.allocateSlot = (b, a) := ⟨_, _, rfl⟩
  obtain ⟨endSlot, b, hb⟩ : ∃ e b, a.allocateSlot = (e, b) := ⟨_, _, rfl⟩
  have heq : allocateCmds pool (cmd :: rest) g =
      if beginSlot = kInvalidIndex ∨ endSlot = kInvalidIndex then
        ({ g with timestampAllocator := b },
          ⟨"Exceeded maximum number of query slots.", false⟩)
      else allocateCmds pool rest
        { g with
          timestampAllocator := b
          cmds := g.cmds.insert cmd (allocatedInfo pool beginSlot endSlot) } := by
    rw [allocateCmds, if_neg h, ha]
    simp only [hb]
    rfl
  have hbegin := ha ▸ g.timestampAllocator.allocateSlot_spec
  have hend := hb ▸ a.allocateSlot_spec
  cases hbegin with
  | taken _ _ hlt hclear hused =>
    cases hend with
    | taken _ _ hlt' hclear' hused' =>
      rw [hused] at hclear' hused'
      refine .tracked beginSlot endSlot b hlt hlt' hclear hclear' hused' ?_
      rw [heq, if_neg (not_or.mpr ⟨hne hlt, hne hlt'⟩)]
    | full hfull =>
      refine .half beginSlot a hclear hused hfull ?_
      rw [heq, if_pos (Or.inr rfl)]
  | full hfull =>
    cases hend with
    | taken _ _ hlt hclear hused =>
      have hfree := TimeStampSlotAllocator.free_of_insert hclear hused
      omega
    | full =>
      refine .full hfull ?_
      rw [heq, if_pos (Or.inl rfl)]

theorem lookup_allocateCmds (pool : VkCommandPool) : ∀ (buffers : List VkCommandBuffer)
    (g : GPUTime τ), (allocateCmds pool buffers g).1.cmds.lookup c = some info →
      g.cmds.lookup c = some info ∨ (c ∉ g.cmds ∧ c ∈ buffers ∧ ∃ b < kTotalSlots,
        ∃ e < kTotalSlots, info = allocatedInfo pool b e)
  | [], g, h => Or.inl h
  | cmd :: rest, g, h => by
    by_cases hmem : cmd ∈ g.cmds
    · rw [allocateCmds, if_pos hmem] at h
      exact Or.inl h
    · cases allocatesCmd pool rest hmem with
      | tracked b e allocator hb he _ _ _ heq =>
        rw [heq] at h
        by_cases hc : c = cmd
        · subst hc
          right
          rcases lookup_allocateCmds pool rest _ h with hold | ⟨hnew, -⟩
          · refine ⟨hmem, List.mem_cons_self, b, hb, e, he, ?_⟩
            rw [AList.lookup_insert] at hold
            exact (Option.some.inj hold).symm
          · exact absurd ((AList.mem_insert g.cmds).mpr (Or.inl rfl)) hnew
        · rcases lookup_allocateCmds pool rest _ h with hold | ⟨hnew, hin, hinfo⟩
          · exact Or.inl ((AList.lookup_insert_ne hc).symm.trans hold)
          · exact Or.inr ⟨fun hold => hnew ((AList.mem_insert g.cmds).mpr (Or.inr hold)),
              List.mem_cons_of_mem cmd hin, hinfo⟩
      | half b allocator _ _ _ heq =>
        rw [heq] at h
        exact Or.inl h
      | full _ heq =>
        rw [heq] at h
        exact Or.inl h

theorem mem_allocateCmds (pool : VkCommandPool) : ∀ (buffers : List VkCommandBuffer)
    (g : GPUTime τ), c ∈ g.cmds → c ∈ (allocateCmds pool buffers g).1.cmds
  | [], g, h => h
  | cmd :: rest, g, h => by
    by_cases hmem : cmd ∈ g.cmds
    · rwa [allocateCmds, if_pos hmem]
    · cases allocatesCmd pool rest hmem with
      | tracked b e allocator _ _ _ _ _ heq =>
        rw [heq]
        exact mem_allocateCmds pool rest _ ((AList.mem_insert g.cmds).mpr (Or.inr h))
      | half b allocator _ _ _ heq =>
        rw [heq]
        exact h
      | full _ heq =>
        rw [heq]
        exact h

theorem allocateCmds_keeps (pool : VkCommandPool) : ∀ (buffers : List VkCommandBuffer)
    (g : GPUTime τ), (allocateCmds pool buffers g).1.frameCmds = g.frameCmds ∧
      (allocateCmds pool buffers g).1.accesses = g.accesses
  | [], g => ⟨rfl, rfl⟩
  | cmd :: rest, g => by
    by_cases hmem : cmd ∈ g.cmds
    · rw [allocateCmds, if_pos hmem]
      exact ⟨rfl, rfl⟩
    · cases allocatesCmd pool rest hmem with
      | tracked b e allocator _ _ _ _ _ heq =>
        rw [heq]
        exact allocateCmds_keeps pool rest _
      | half b allocator _ _ _ heq =>
        rw [heq]
        exact ⟨rfl, rfl⟩
      | full _ heq =>
        rw [heq]
        exact ⟨rfl, rfl⟩

/-! ## Recordings -/

/-- What `OnBeginCommandBuffer` can do. -/
inductive BeginsCmd (g : GPUTime τ) (cmd : VkCommandBuffer) (flags : UInt32) : Prop
  | idle (hidle : ¬ (g.enable = true ∧ cmd ∈ g.cmds))
      (heq : (g.onBeginCommandBuffer cmd flags).1 = g)
  | begun (i : CommandBufferInfo) (henable : g.enable = true) (hl : g.cmds.lookup cmd = some i)
      (heq : (g.onBeginCommandBuffer cmd flags).1 =
        { g.freeSlots (i.renderpassSlots.map RenderPassSlot.slot) with
          cmds := g.cmds.insert cmd (i.begun flags) }.record
          [.write cmd .topOfPipe i.beginTimestampOffset])

theorem beginsCmd (g : GPUTime τ) (cmd : VkCommandBuffer) (flags : UInt32) :
    BeginsCmd g cmd flags := by
  by_cases henable : g.enable = true
  · cases hl : g.cmds.lookup cmd with
    | none =>
      refine .idle (fun hc => AList.lookup_eq_none.mp hl hc.2) ?_
      simp [onBeginCommandBuffer, henable, hl]
    | some info =>
      refine .begun info henable hl ?_
      -- the flags that a reset clears are overwritten
      unfold onBeginCommandBuffer
      simp only [henable, hl]
      cases info.usageOneSubmit <;> rfl
  · refine .idle (fun hc => henable hc.1) ?_
    simp [onBeginCommandBuffer, henable]

/-- What `BeginRenderPass` and `EndRenderPass` can do. -/
inductive WritesPass (g : GPUTime τ) (stage : PipelineStage) (cmd : VkCommandBuffer) : Prop
  | idle (hidle : ¬ (g.enable = true ∧ cmd ∈ g.cmds))
      (heq : (g.writeRenderPassSlot stage cmd).1 = g)
  | taken (i : CommandBufferInfo) (slot : ℕ) (allocator : TimeStampSlotAllocator)
      (henable : g.enable = true) (hl : g.cmds.lookup cmd = some i) (hlt : slot < kTotalSlots)
      (hclear : slot ∉ g.timestampAllocator.used)
      (hused : allocator.used = insert slot g.timestampAllocator.used)
      (heq : (g.writeRenderPassSlot stage cmd).1 =
        { g with
          timestampAllocator := allocator
          cmds := g.cmds.insert cmd (i.withPass slot stage) }.record [.write cmd stage slot])
  | full (i : CommandBufferInfo) (henable : g.enable = true) (hl : g.cmds.lookup cmd = some i)
      (hfull : g.timestampAllocator.free = 0)
      (heq : (g.writeRenderPassSlot stage cmd).1 =
        { g with cmds := g.cmds.insert cmd (i.withPass kInvalidIndex stage) }.record
          [.write cmd stage kInvalidIndex])

theorem writesPass (g : GPUTime τ) (stage : PipelineStage) (cmd : VkCommandBuffer) :
    WritesPass g stage cmd := by
  by_cases henable : g.enable = true
  · cases hl : g.cmds.lookup cmd with
    | none =>
      refine .idle (fun hc => AList.lookup_eq_none.mp hl hc.2) ?_
      simp [writeRenderPassSlot, henable, hl]
    | some info =>
      obtain ⟨slot, a, ha⟩ : ∃ s a, g.timestampAllocator.allocateSlot = (s, a) := ⟨_, _, rfl⟩
      have hspec := ha ▸ g.timestampAllocator.allocateSlot_spec
      have heq : (g.writeRenderPassSlot stage cmd).1 =
          { g with
            timestampAllocator := a
            cmds := g.cmds.insert cmd (info.withPass slot stage) }.record
            [.write cmd stage slot] := by
        simp [writeRenderPassSlot, henable, hl, ha, CommandBufferInfo.withPass]
      cases hspec with
      | taken _ _ hlt hclear hused => exact .taken info slot a henable hl hlt hclear hused heq
      | full hfull => exact .full info henable hl hfull heq
  · refine .idle (fun hc => henable hc.1) ?_
    simp [writeRenderPassSlot, henable]

/-! ## The frame's command buffers -/

/-- The command buffers of the frame are tracked. -/
def Cached (g : GPUTime τ) : Prop := ∀ cmd ∈ g.frameCmds, cmd ∈ g.cmds

/-- A submit adds to the frame only. -/
structure Submits (g g' : GPUTime τ) : Prop where
  cmds : g'.cmds = g.cmds
  timestampAllocator : g'.timestampAllocator = g.timestampAllocator
  accesses : g'.accesses = g.accesses
  cached : g.Cached → g'.Cached

theorem submits_pushCmds : ∀ (l : List VkCommandBuffer) (g : GPUTime τ),
    Submits g (pushCmds l g).1
  | [], g => ⟨rfl, rfl, rfl, id⟩
  | cmd :: rest, g => by
    unfold pushCmds
    split
    next => exact ⟨rfl, rfl, rfl, id⟩
    next info h =>
      split_ifs
      · exact ⟨rfl, rfl, rfl, id⟩
      · have hrest := submits_pushCmds rest { g with frameCmds := g.frameCmds ++ [cmd] }
        refine ⟨hrest.cmds, hrest.timestampAllocator, hrest.accesses, fun hg => hrest.cached ?_⟩
        intro c hc
        rcases List.mem_append.mp hc with hc | hc
        · exact hg c hc
        · rw [List.mem_singleton.mp hc]
          exact mem_cmds_iff.mpr ⟨info, h⟩

theorem submits_submitCmds (g : GPUTime τ) (submits : List VkSubmitInfo) :
    Submits g (g.submitCmds submits).1 := by
  unfold submitCmds
  split_ifs
  · exact ⟨rfl, rfl, rfl, id⟩
  · exact submits_pushCmds _ g

theorem Cached.of_lookup (h : g.Cached) (hframe : g'.frameCmds ⊆ g.frameCmds)
    (hcmds : ∀ c ∈ g'.frameCmds, c ∈ g.cmds → c ∈ g'.cmds) : g'.Cached :=
  fun c hc => hcmds c hc (h c (hframe hc))

theorem cached_insert {info : CommandBufferInfo} (h : g.Cached) (hframe : g'.frameCmds = g.frameCmds)
    (hcmds : g'.cmds = g.cmds.insert cmd info) : g'.Cached := by
  refine h.of_lookup (fun c hc => hframe ▸ hc) fun c _ hc => ?_
  rw [hcmds]
  exact (AList.mem_insert g.cmds).mpr (Or.inr hc)

theorem cached_removeCmd (h : g.Cached) : (g.removeCmdFromFrameCache cmd).Cached := by
  refine h.of_lookup frameCmds_removeCmd_subset fun c _ hc => ?_
  rw [← AList.lookup_isSome] at hc ⊢
  rw [lookup_removeCmd]
  split_ifs
  · simpa using hc
  · exact hc

theorem cached_eraseCmd (h : g.Cached) (hl : g.cmds.lookup cmd = some info) :
    (g.eraseCmd cmd info).Cached := by
  have hframe : (g.eraseCmd cmd info).frameCmds = g.frameCmds.filter (· ≠ cmd) := by
    rw [eraseCmd_of_lookup hl]
  refine h.of_lookup (hframe ▸ fun c hc => (List.mem_filter.mp hc).1) fun c hc htracked => ?_
  rw [hframe, List.mem_filter] at hc
  rw [← AList.lookup_isSome] at htracked ⊢
  rwa [lookup_eraseCmd hl, if_neg (by simpa using hc.2)]

theorem cached_writeRenderPassSlot {stage : PipelineStage} (h : g.Cached) :
    (g.writeRenderPassSlot stage cmd).1.Cached := by
  cases writesPass g stage cmd with
  | idle _ heq => rwa [heq]
  | taken i slot allocator _ _ _ _ _ heq =>
    rw [heq]
    exact cached_insert h rfl rfl
  | full i _ _ _ heq =>
    rw [heq]
    exact cached_insert h rfl rfl

/-! ## Frame boundaries -/

/-- A slot that an entry records, or the render-pass slots of a command buffer of the frame. -/
inductive Consulted (g : GPUTime τ) : SlotAccess → Prop
  | beginSlot {k : VkCommandBuffer} {i : CommandBufferInfo} (h : g.cmds.lookup k = some i) :
      Consulted g (.query i.beginTimestampOffset)
  | endSlot {k : VkCommandBuffer} {i : CommandBufferInfo} (h : g.cmds.lookup k = some i) :
      Consulted g (.query i.endTimestampOffset)
  | renderPassSlot {k : VkCommandBuffer} {i : CommandBufferInfo} {s : RenderPassSlot}
      (h : g.cmds.lookup k = some i) (hs : s ∈ i.renderpassSlots) : Consulted g (.query s.slot)
  | passes {k : VkCommandBuffer} {i : CommandBufferInfo} (hframe : k ∈ g.frameCmds)
      (h : g.cmds.lookup k = some i) : Consulted g (.aggregate k i.renderpassSlots)

/-- The table, the slots and the frame stay, and what is read is recorded there. -/
structure Consults (g g' : GPUTime τ) : Prop where
  cmds : g'.cmds = g.cmds
  timestampAllocator : g'.timestampAllocator = g.timestampAllocator
  frameCmds : g'.frameCmds = g.frameCmds
  accesses : ∃ l, g'.accesses = g.accesses ++ l ∧ ∀ a ∈ l, Consulted g a

namespace Consults

theorem of_eq (hcmds : g'.cmds = g.cmds) (hslots : g'.timestampAllocator = g.timestampAllocator)
    (hframe : g'.frameCmds = g.frameCmds) (haccess : g'.accesses = g.accesses) : Consults g g' :=
  ⟨hcmds, hslots, hframe, [], by simpa using haccess, by simp⟩

theorem refl (g : GPUTime τ) : Consults g g := of_eq rfl rfl rfl rfl

theorem record {l : List SlotAccess} (h : ∀ a ∈ l, Consulted g a) : Consults g (g.record l) :=
  ⟨rfl, rfl, rfl, l, rfl, h⟩

theorem consulted {a : SlotAccess} (h : Consults g g') (ha : Consulted g' a) : Consulted g a := by
  cases ha with
  | beginSlot hl => exact .beginSlot (h.cmds ▸ hl)
  | endSlot hl => exact .endSlot (h.cmds ▸ hl)
  | renderPassSlot hl hs => exact .renderPassSlot (h.cmds ▸ hl) hs
  | passes hframe hl => exact .passes (h.frameCmds ▸ hframe) (h.cmds ▸ hl)

theorem trans (h : Consults g g') (h' : Consults g' g'') : Consults g g'' := by
  obtain ⟨l, hl, hall⟩ := h.accesses
  obtain ⟨l', hl', hall'⟩ := h'.accesses
  refine ⟨h'.cmds.trans h.cmds, h'.timestampAllocator.trans h.timestampAllocator,
    h'.frameCmds.trans h.frameCmds, l ++ l', by rw [hl', hl, List.append_assoc], ?_⟩
  intro a ha
  rcases List.mem_append.mp ha with ha | ha
  · exact hall a ha
  · exact h.consulted (hall' a ha)

end Consults

theorem consults_queries (h : g.cmds.lookup cmd = some info) :
    Consults g
      (g.record [.query info.endTimestampOffset, .query info.beginTimestampOffset]) := by
  refine .record fun a ha => ?_
  simp only [List.mem_cons, List.not_mem_nil, or_false] at ha
  rcases ha with rfl | rfl
  · exact .endSlot h
  · exact .beginSlot h

theorem consults_allTimestampsAvailable : ∀ (l : List VkCommandBuffer) (g : GPUTime τ),
    Consults g (allTimestampsAvailable l g).1
  | [], g => .refl g
  | cmd :: rest, g => by
    unfold allTimestampsAvailable
    split
    next => exact consults_allTimestampsAvailable rest g
    next info h =>
      dsimp only
      split_ifs
      · exact consults_allTimestampsAvailable rest g
      · exact consults_queries h
      · exact (consults_queries h).trans (consults_allTimestampsAvailable rest _)

theorem consults_getQueryPoolResults (answer : QueryPoolResults) :
    Consults g (g.getQueryPoolResults answer) :=
  .of_eq rfl rfl rfl rfl

theorem consults_queryUntilAvailable (answers : ℕ → QueryPoolResults) : ∀ (n : ℕ) (g : GPUTime τ),
    Consults g (queryUntilAvailable answers n g).1
  | 0, g => .refl g
  | n + 1, g => by
    have hpass := consults_allTimestampsAvailable g.frameCmds g
    unfold queryUntilAvailable
    dsimp only
    split_ifs
    · exact hpass
    · exact (hpass.trans (consults_getQueryPoolResults _)).trans
        (consults_queryUntilAvailable answers n _)

theorem consults_unavailableLines : ∀ (index : ℕ) (l : List VkCommandBuffer) (g : GPUTime τ),
    (∀ cmd ∈ l, cmd ∈ g.cmds) → Consults g (unavailableLines index l g).1
  | _, [], g, _ => .refl g
  | index, cmd :: rest, g, hl => by
    obtain ⟨info, h⟩ := mem_cmds_iff.mp (hl cmd List.mem_cons_self)
    have hinfo : g.cmdInfo cmd = (g, info) := by rw [cmdInfo, h]
    have hrest : ∀ c ∈ rest, c ∈ g.cmds := fun c hc => hl c (List.mem_cons_of_mem cmd hc)
    unfold unavailableLines
    rw [hinfo]
    dsimp only
    split_ifs
    all_goals first
      | exact (consults_queries h).trans (consults_unavailableLines _ rest _ hrest)
      | exact consults_unavailableLines _ rest _ hrest

theorem consults_getTimeDuration {b e : ℕ} (hb : Consulted g (.query b))
    (he : Consulted g (.query e)) : Consults g (g.getTimeDuration b e).1 := by
  have hrecord : Consults g (g.record [.query e, .query b]) := by
    refine .record fun a ha => ?_
    simp only [List.mem_cons, List.not_mem_nil, or_false] at ha
    rcases ha with rfl | rfl
    · exact he
    · exact hb
  unfold getTimeDuration
  dsimp only
  split_ifs
  · exact .refl g
  · exact hrecord
  · exact hrecord

theorem Consults.markInvalid (h : Consults g g') : Consults g { g' with validFrame := false } :=
  h.trans (.of_eq rfl rfl rfl rfl)

theorem consults_aggregateRenderPasses (cmd : VkCommandBuffer) (info : CommandBufferInfo) (r : ℕ)
    (slots : List RenderPassSlot) (g : GPUTime τ) (data : FrameData τ)
    (h : g.cmds.lookup cmd = some info) (hsub : slots ⊆ info.renderpassSlots) :
    Consults g (aggregateRenderPasses cmd info r slots g data).1 := by
  fun_induction aggregateRenderPasses cmd info r slots g data with
  | case1 r b e rest g data g' hd =>
    have hpair := consults_getTimeDuration (g := g) (.renderPassSlot h (hsub List.mem_cons_self))
      (.renderPassSlot h (hsub (List.mem_cons_of_mem b List.mem_cons_self)))
    rw [hd] at hpair
    exact hpair.markInvalid
  | case2 r b e rest g data g' increments hd ih =>
    have hpair := consults_getTimeDuration (g := g) (.renderPassSlot h (hsub List.mem_cons_self))
      (.renderPassSlot h (hsub (List.mem_cons_of_mem b List.mem_cons_self)))
    rw [hd] at hpair
    exact hpair.trans (ih (hpair.cmds ▸ h) fun s hs =>
      hsub (List.mem_cons_of_mem b (List.mem_cons_of_mem e hs)))
  | case3 => exact .refl _

theorem consults_aggregateCmd {data : FrameData τ} {increments : UInt64}
    (hframe : cmd ∈ g.frameCmds) (h : g.cmds.lookup cmd = some info)
    (hd : g.getTimeDuration info.beginTimestampOffset info.endTimestampOffset =
      (g', some increments)) :
    Consults g (aggregateRenderPasses cmd info 0 info.renderpassSlots
      (g'.record [.aggregate cmd info.renderpassSlots]) data).1 := by
  have hpair := consults_getTimeDuration (g := g) (.beginSlot h) (.endSlot h)
  rw [hd] at hpair
  have hrecord : Consults g' (g'.record [.aggregate cmd info.renderpassSlots]) := by
    refine .record fun a ha => ?_
    rw [List.mem_singleton] at ha
    rw [ha]
    exact .passes (hpair.frameCmds ▸ hframe) (hpair.cmds ▸ h)
  exact (hpair.trans hrecord).trans
    (consults_aggregateRenderPasses cmd info 0 _ _ data (hpair.cmds ▸ h) (List.Subset.refl _))

variable [Add τ]

theorem consults_aggregateCmds (l : List VkCommandBuffer) (g : GPUTime τ) (data : FrameData τ)
    (hl : l ⊆ g.frameCmds) : Consults g (aggregateCmds l g data).1 := by
  fun_induction aggregateCmds l g data with
  | case1 => exact .refl _
  | case2 cmd rest g data h ih => exact ih fun c hc => hl (List.mem_cons_of_mem cmd hc)
  | case3 cmd rest g data info h g' hd =>
    have hpair := consults_getTimeDuration (g := g) (.beginSlot h) (.endSlot h)
    rw [hd] at hpair
    exact hpair.markInvalid
  | case4 cmd rest g data info h g' increments hd data' g'' status hpasses =>
    have hcmd := @consults_aggregateCmd _ _ _ _ _ data' _ (hl List.mem_cons_self) h hd
    rwa [hpasses] at hcmd
  | case5 cmd rest g data info h g' increments hd data' g'' data'' hpasses ih =>
    have hcmd := @consults_aggregateCmd _ _ _ _ _ data' _ (hl List.mem_cons_self) h hd
    rw [hpasses] at hcmd
    exact hcmd.trans (ih fun c hc => hcmd.frameCmds ▸ hl (List.mem_cons_of_mem cmd hc))

variable [Zero τ]

theorem consults_addFrame (g : GPUTime τ) : Consults g g.addFrame.1 := by
  have hframe := consults_aggregateCmds g.frameCmds g { frameTime := 0 } (List.Subset.refl _)
  unfold addFrame
  split
  next g' status h =>
    rw [h] at hframe
    exact hframe
  next g' data h =>
    rw [h] at hframe
    dsimp only
    split_ifs
    · exact hframe.trans (.of_eq rfl rfl rfl rfl)
    · exact hframe

/-- **The metrics of a frame are read from the table.** -/
theorem consults_updateFrameMetrics (answers : ℕ → QueryPoolResults) (hg : g.Cached) :
    Consults g (g.updateFrameMetrics answers).1 := by
  have hfirst := consults_getQueryPoolResults (g := g) (answers 0)
  unfold updateFrameMetrics
  dsimp only
  split_ifs
  · exact hfirst.trans (consults_addFrame _)
  · have hwait := hfirst.trans
      (consults_queryUntilAvailable answers kMaxQueryCount (g.getQueryPoolResults (answers 0)))
    split
    next g' h =>
      rw [h] at hwait
      exact hwait.trans (consults_addFrame g')
    next g' h =>
      rw [h] at hwait
      refine hwait.markInvalid.trans (consults_unavailableLines 0 g'.frameCmds _ fun c hc => ?_)
      show c ∈ g'.cmds
      rw [hwait.cmds]
      exact hg c (hwait.frameCmds ▸ hc)
  · exact hfirst.markInvalid

/-- What a frame boundary leaves. -/
structure Bounds (g g' : GPUTime τ) : Prop where
  cmds : g'.cmds = g.cmds
  timestampAllocator : g'.timestampAllocator = g.timestampAllocator
  frameCmds : g'.frameCmds = []
  accesses : ∃ l, g'.accesses = g.accesses ++ l ∧ ∀ a ∈ l, g.validFrame = true ∧ Consulted g a

theorem bounds_onFrameBoundary (answers : ℕ → QueryPoolResults) (hg : g.Cached) :
    Bounds g (g.onFrameBoundary answers).1 := by
  have hupdate := consults_updateFrameMetrics answers hg
  unfold onFrameBoundary
  by_cases hvalid : g.validFrame = true
  · obtain ⟨l, hl, hall⟩ := hupdate.accesses
    rw [if_pos hvalid]
    exact ⟨hupdate.cmds, hupdate.timestampAllocator, rfl, l, hl, fun a ha => ⟨hvalid, hall a ha⟩⟩
  · rw [if_neg hvalid]
    exact ⟨rfl, rfl, rfl, [], (List.append_nil _).symm, by simp⟩

/-! ## Every callback -/

/-- **The command buffers of a frame are tracked.** -/
theorem cached_step (h : g.Cached) (callback : Callback) : (g.step callback).Cached := by
  cases callback with
  | setEnable enable => exact h
  | allocateCommandBuffers level pool buffers =>
    show (g.onAllocateCommandBuffers level pool buffers).1.Cached
    unfold onAllocateCommandBuffers
    dsimp only
    split_ifs
    · exact h
    · refine Cached.of_lookup (g := g) h (fun c hc => ?_)
        fun c _ hc => mem_allocateCmds pool buffers _ hc
      rwa [(allocateCmds_keeps pool buffers _).1] at hc
  | freeCommandBuffers buffers =>
    exact foldl_freeCmd (P := Cached) (fun _ _ _ hl hg => cached_eraseCmd hg hl) buffers h
  | resetCommandBuffer cmd => exact cached_removeCmd h
  | resetCommandPool pool =>
    exact foldl_resetPoolCmd (P := Cached) (fun _ _ hg => cached_removeCmd hg) _ h
  | destroyCommandPool pool =>
    exact preserves_onDestroyCommandPool (P := Cached) (fun _ _ _ hl hg => cached_eraseCmd hg hl)
      pool h
  | beginCommandBuffer cmd flags =>
    show (g.onBeginCommandBuffer cmd flags).1.Cached
    cases beginsCmd g cmd flags with
    | idle _ heq => rwa [heq]
    | begun i _ _ heq =>
      rw [heq]
      exact cached_insert h rfl rfl
  | endCommandBuffer cmd =>
    show (g.onEndCommandBuffer cmd).1.Cached
    unfold onEndCommandBuffer
    split_ifs
    · exact h
    · split <;> exact h
  | beginRenderPass cmd => exact cached_writeRenderPassSlot h
  | endRenderPass cmd => exact cached_writeRenderPassSlot h
  | insertDebugUtilsLabel cmd label => exact h
  | queueSubmit submits => exact (submits_submitCmds g submits).cached h
  | frameBoundary answers =>
    intro c hc
    rw [step, (bounds_onFrameBoundary answers h).frameCmds] at hc
    cases hc
  | queuePresent answers =>
    show (g.onQueuePresent answers).1.Cached
    unfold onQueuePresent
    split_ifs
    · exact h
    · intro c hc
      rw [(bounds_onFrameBoundary answers h).frameCmds] at hc
      cases hc
  | clearFrameCache =>
    intro c hc
    cases hc

theorem cached_run (h : g.Cached) (l : List Callback) : (g.run l).Cached :=
  List.foldlRecOn l step (motive := Cached) h fun _ hg c _ => cached_step hg c

end GPUTime

end Dive
