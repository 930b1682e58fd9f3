import Dive.Rd.Reads

/-!
# The GPU id during a load

* `withGpu`: a state with another GPU id, as an earlier load may leave it.
* `SetsId`, `SkipsId`: the load sets the id, or skips a chip id for the one it finds, first.
* `nextHeader_withGpu`, `loadBlock_withGpu`: one iteration from either id.
* **`load_of_setsId`**: a load that sets the id does not depend on the one it finds;
  **`load_of_keeps`**: a load that neither sets it nor skips a chip id only carries it along.
* `load_paired`: the register variant is always that of the id.
-/

namespace Dive

namespace Pm4CaptureData

open Machine

/-- The state with another GPU id. -/
def LoadState.withGpu (s : LoadState) (gpuId : UInt32) (gpuVariant : GPUVariantType) : LoadState :=
  { s with gpuId := gpuId, gpuVariant := gpuVariant }

/-- The same, of the state that a load returns with. -/
def Ending.withGpu (gpuId : UInt32) (gpuVariant : GPUVariantType) : Ending → Ending
  | .returns result s => .returns result (s.withGpu gpuId gpuVariant)
  | .undefined => .undefined

/-- The same, of what a step yields; `f` carries it into the value. -/
def carry {α : Type} (gpuId : UInt32) (gpuVariant : GPUVariantType) (f : α → α) :
    Except Ending α → Except Ending α
  | .ok a => .ok (f a)
  | .error e => .error (e.withGpu gpuId gpuVariant)

/-- The block is an `RD_GPU_ID`, or an `RD_CHIP_ID` that is needed and has a known chip. -/
def setsGpu (E : LoadEnv) (t : LoadState) : Prop :=
  sectType t.blockType = some .rdGpuId ∨
    (sectType t.blockType = some .rdChipId ∧ t.needsChipId = true ∧
      ∀ chipId u, t.readLocal 8 t.dataSize.toNat = some (chipId, u) → E.chip (chipId.u64 0) ≠ 0)

/-- The block is an `RD_CHIP_ID` that is not needed. -/
def skipsChip (t : LoadState) : Prop :=
  sectType t.blockType = some .rdChipId ∧ t.needsChipId = false

/-- The load sets the GPU id, and skips no chip id before. -/
inductive SetsId (E : LoadEnv) : LoadState → Prop
  | here {s t : LoadState} (ht : nextHeader s = .ok t) (hset : setsGpu E t) : SetsId E s
  | later {s t u : LoadState} (ht : nextHeader s = .ok t) (hskip : ¬skipsChip t)
      (hu : loadBlock E t = .ok u) (hsets : SetsId E u) : SetsId E s

/-- The load skips a chip id before it sets the GPU id. -/
inductive SkipsId (E : LoadEnv) : LoadState → Prop
  | here {s t : LoadState} (ht : nextHeader s = .ok t) (hskip : skipsChip t) : SkipsId E s
  | later {s t u : LoadState} (ht : nextHeader s = .ok t) (hset : ¬setsGpu E t)
      (hu : loadBlock E t = .ok u) (hskips : SkipsId E u) : SkipsId E s

/-- Fresh heap memory has the same bytes for either id. -/
def LoadEnv.HeapApart (E : LoadEnv) : Prop :=
  ∀ s gpuId gpuVariant, E.heap (s.withGpu gpuId gpuVariant) = E.heap s

variable {E : LoadEnv} {s t u : LoadState} {gpuId : UInt32} {gpuVariant : GPUVariantType}

/-! ## One iteration -/

theorem carry_bind {α β : Type} {f : α → α} {f' : β → β} {k k' : α → Except Ending β}
    (hk : ∀ a, k' (f a) = carry gpuId gpuVariant f' (k a)) (x : Except Ending α) :
    (carry gpuId gpuVariant f x).bind k' = carry gpuId gpuVariant f' (x.bind k) := by
  cases x with
  | error e => rfl
  | ok a => exact hk a

theorem finish_withGpu (s : LoadState) :
    finish (s.withGpu gpuId gpuVariant) = (finish s).withGpu gpuId gpuVariant := by
  have hmemory : (s.withGpu gpuId gpuVariant).memory = s.memory := rfl
  rw [finish, finish, hmemory]
  cases s.memory.finalize true <;> rfl

theorem skipPadding_withGpu (fuel : ℕ) (s : LoadState) :
    skipPadding fuel (s.withGpu gpuId gpuVariant) =
      carry gpuId gpuVariant (·.withGpu gpuId gpuVariant) (skipPadding fuel s) := by
  induction fuel generalizing s with
  | zero => rfl
  | succ fuel ih =>
    rw [skipPadding, skipPadding]
    by_cases hpad : s.isPadding = true
    · rw [if_pos hpad, if_pos (show (s.withGpu gpuId gpuVariant).isPadding = true from hpad)]
      by_cases hread : (s.read 8).returned ≤ 0
      · rw [if_pos hread,
          if_pos (show ((s.withGpu gpuId gpuVariant).read 8).returned ≤ 0 from hread)]
        rfl
      · rw [if_neg hread,
          if_neg (show ¬((s.withGpu gpuId gpuVariant).read 8).returned ≤ 0 from hread)]
        exact ih s.readHeader
    · rw [if_neg hpad, if_neg (show ¬(s.withGpu gpuId gpuVariant).isPadding = true from hpad)]
      rfl

theorem nextHeader_withGpu (s : LoadState) :
    nextHeader (s.withGpu gpuId gpuVariant) =
      carry gpuId gpuVariant (·.withGpu gpuId gpuVariant) (nextHeader s) := by
  rw [nextHeader_eq, nextHeader_eq]
  show (if 0 < (s.read 8).returned then
      skipPadding (s.file.size + 1) (s.fresh.readHeader.withGpu gpuId gpuVariant)
    else .error (finish (s.fresh.readHeader.withGpu gpuId gpuVariant))) = _
  rw [skipPadding_withGpu, finish_withGpu]
  split_ifs <;> rfl

theorem readDword_withGpu (s : LoadState) (d : Buffer) :
    readDword (s.withGpu gpuId gpuVariant) d =
      carry gpuId gpuVariant (Prod.map id (·.withGpu gpuId gpuVariant)) (readDword s d) := by
  rw [readDword, readDword]
  show (if (s.read 4).returned = 0 then _ else _) = _
  split_ifs <;> rfl

theorem loadGpuAddressAndSize_withGpu (s : LoadState) (blockSize : UInt32) :
    loadGpuAddressAndSize (s.withGpu gpuId gpuVariant) blockSize =
      carry gpuId gpuVariant (Prod.map id (Prod.map id (·.withGpu gpuId gpuVariant)))
        (loadGpuAddressAndSize s blockSize) := by
  rw [loadGpuAddressAndSize, loadGpuAddressAndSize, readDword_withGpu]
  refine carry_bind (fun (lower, s) => ?_) _
  simp only [Prod.map_apply, id_eq, readDword_withGpu]
  refine carry_bind (fun (size, s) => ?_) _
  simp only [Prod.map_apply, id_eq, readDword_withGpu]
  by_cases hsize : 8 < blockSize
  · simp only [if_pos hsize]
    cases readDword s size <;> rfl
  · simp only [if_neg hsize]
    rfl

theorem loadCmdStreamBlockAdreno_withGpu (s : LoadState) (blockSize : UInt32)
    (createNewSubmit skipCommands : Bool) :
    loadCmdStreamBlockAdreno (s.withGpu gpuId gpuVariant) blockSize createNewSubmit skipCommands =
      carry gpuId gpuVariant (·.withGpu gpuId gpuVariant)
        (loadCmdStreamBlockAdreno s blockSize createNewSubmit skipCommands) := by
  rw [loadCmdStreamBlockAdreno, loadCmdStreamBlockAdreno, loadGpuAddressAndSize_withGpu]
  refine carry_bind (fun a => ?_) _
  cases createNewSubmit with
  | true => rfl
  | false =>
    have hsubmits : (a.2.2.withGpu gpuId gpuVariant).submits = a.2.2.submits := rfl
    cases hlast : a.2.2.submits.getLast? <;> simp [hlast, hsubmits, carry] <;> rfl

theorem loadMemoryBlockAdreno_withGpu (s : LoadState)
    (hE : E.heap (s.withGpu gpuId gpuVariant) = E.heap s) (gpuAddr : UInt64) (size : UInt32) :
    loadMemoryBlockAdreno E (s.withGpu gpuId gpuVariant) gpuAddr size =
      carry gpuId gpuVariant (·.withGpu gpuId gpuVariant)
        (loadMemoryBlockAdreno E s gpuAddr size) := by
  rw [loadMemoryBlockAdreno, loadMemoryBlockAdreno, hE]
  show (if (s.read size.toNat).returned = 0 then _ else _) = _
  split_ifs <;> rfl

theorem loadCmd_withGpu (s : LoadState) (hE : E.heap (s.withGpu gpuId gpuVariant) = E.heap s) :
    loadCmd E (s.withGpu gpuId gpuVariant) =
      carry gpuId gpuVariant (·.withGpu gpuId gpuVariant) (loadCmd E s) := by
  rw [loadCmd, loadCmd, hE]
  show (if (s.read s.dataSize.toNat).returned = 0 then _ else _) = _
  split_ifs <;> rfl

theorem readLocal_withGpu (s : LoadState) (size nbytes : ℕ) :
    (s.withGpu gpuId gpuVariant).readLocal size nbytes =
      (s.readLocal size nbytes).map (Prod.map id (·.withGpu gpuId gpuVariant)) := by
  rw [LoadState.readLocal, LoadState.readLocal]
  show (if (s.read nbytes).items.length ≤ size then _ else _) = _
  split_ifs <;> rfl

@[simp] theorem dataSize_withGpu (s : LoadState) :
    (s.withGpu gpuId gpuVariant).dataSize = s.dataSize := rfl

@[simp] theorem blockType_withGpu (s : LoadState) :
    (s.withGpu gpuId gpuVariant).blockType = s.blockType := rfl

theorem loadGpuId_withGpu (s : LoadState) :
    loadGpuId (s.withGpu gpuId gpuVariant) = loadGpuId s := by
  rw [loadGpuId, loadGpuId, readLocal_withGpu, dataSize_withGpu]
  cases s.readLocal 4 s.dataSize.toNat <;> rfl

theorem loadChipId_of_known (hs : s.needsChipId = true)
    (hg : (s.withGpu gpuId gpuVariant).needsChipId = true)
    (hchip : ∀ chipId u, s.readLocal 8 s.dataSize.toNat = some (chipId, u) →
      E.chip (chipId.u64 0) ≠ 0) :
    loadChipId E (s.withGpu gpuId gpuVariant) = loadChipId E s := by
  simp only [loadChipId, if_pos hs, if_pos hg, readLocal_withGpu, dataSize_withGpu]
  cases hread : s.readLocal 8 s.dataSize.toNat with
  | none => rfl
  | some x =>
    have hknown := hchip x.1 x.2 hread
    simp only [Option.map_some, Prod.map, id_eq, if_pos hknown]
    rfl

theorem loadChipId_of_unknown (hs : s.needsChipId = true)
    (hg : (s.withGpu gpuId gpuVariant).needsChipId = true)
    (hchip : ∃ chipId u, s.readLocal 8 s.dataSize.toNat = some (chipId, u) ∧
      E.chip (chipId.u64 0) = 0) :
    loadChipId E (s.withGpu gpuId gpuVariant) =
      carry gpuId gpuVariant (·.withGpu gpuId gpuVariant) (loadChipId E s) := by
  obtain ⟨chipId, u, hread, h0⟩ := hchip
  simp only [loadChipId, if_pos hs, if_pos hg, readLocal_withGpu, dataSize_withGpu, hread,
    Option.map_some, Prod.map, id_eq, h0, ne_eq, not_true_eq_false, if_false]
  rfl

theorem loadBlock_other (hE : E.heap (t.withGpu gpuId gpuVariant) = E.heap t)
    (hgpu : sectType t.blockType ≠ some .rdGpuId)
    (hchip : sectType t.blockType ≠ some .rdChipId) :
    loadBlock E (t.withGpu gpuId gpuVariant) =
      carry gpuId gpuVariant (·.withGpu gpuId gpuVariant) (loadBlock E t) := by
  rw [loadBlock, loadBlock, blockType_withGpu]
  cases htype : sectType t.blockType with
  | none => rfl
  | some ty =>
    cases ty with
    | rdGpuId => exact absurd htype hgpu
    | rdChipId => exact absurd htype hchip
    | rdGpuaddr =>
      simp only [dataSize_withGpu, loadGpuAddressAndSize_withGpu]
      cases loadGpuAddressAndSize t t.dataSize <;> rfl
    | rdCmdstreamAddr =>
      simp only [dataSize_withGpu]
      show (loadCmdStreamBlockAdreno (t.withGpu gpuId gpuVariant) t.dataSize t.isNewSubmit
        t.skipCommands).map _ = _
      rw [loadCmdStreamBlockAdreno_withGpu]
      cases loadCmdStreamBlockAdreno t t.dataSize t.isNewSubmit t.skipCommands <;> rfl
    | rdBufferContents =>
      show (if t.dataSize ≠ t.curSize then Except.error (Ending.returns .kCorruptData _)
        else loadMemoryBlockAdreno E (t.withGpu gpuId gpuVariant) t.curGpuAddr t.curSize) = _
      rw [loadMemoryBlockAdreno_withGpu t hE]
      simp only []
      split_ifs <;> rfl
    | rdCmd => exact loadCmd_withGpu t hE
    | rdNone | rdTest | rdContext | rdCmdstream | rdParam | rdFlush | rdProgram | rdVertShader
    | rdFragShader => rfl

theorem loadBlock_withGpu (hE : E.HeapApart) (ht : t.needsChipId = true)
    (hset : ¬setsGpu E (t.withGpu gpuId gpuVariant))
    (hskip : ¬skipsChip (t.withGpu gpuId gpuVariant)) :
    loadBlock E (t.withGpu gpuId gpuVariant) =
        carry gpuId gpuVariant (·.withGpu gpuId gpuVariant) (loadBlock E t) ∧
      loadBlock E t =
        carry t.gpuId t.gpuVariant (·.withGpu t.gpuId t.gpuVariant) (loadBlock E t) := by
  have hgpu : sectType t.blockType ≠ some .rdGpuId := fun h => hset (.inl h)
  by_cases hchip : sectType t.blockType = some .rdChipId
  · have hg : (t.withGpu gpuId gpuVariant).needsChipId = true := by
      by_contra hg
      exact hskip ⟨hchip, Bool.not_eq_true _ ▸ hg⟩
    have hunknown : ∃ chipId u, t.readLocal 8 t.dataSize.toNat = some (chipId, u) ∧
        E.chip (chipId.u64 0) = 0 := by
      by_contra hno
      refine hset (.inr ⟨hchip, hg, fun chipId u hread h0 => ?_⟩)
      rw [readLocal_withGpu, dataSize_withGpu] at hread
      obtain ⟨x, hx, hmap⟩ := Option.map_eq_some_iff.mp hread
      refine hno ⟨x.1, x.2, hx, ?_⟩
      cases hmap
      exact h0
    have hblock : ∀ g v, loadBlock E (t.withGpu g v) = loadChipId E (t.withGpu g v) := by
      intro g v
      rw [loadBlock, blockType_withGpu, hchip]
    rw [hblock, show loadBlock E t = loadChipId E t from hblock t.gpuId t.gpuVariant]
    exact ⟨loadChipId_of_unknown ht hg hunknown,
      @loadChipId_of_unknown E t t.gpuId t.gpuVariant ht ht hunknown⟩
  · exact ⟨loadBlock_other (hE t gpuId gpuVariant) hgpu hchip,
      @loadBlock_other E t t.gpuId t.gpuVariant rfl hgpu hchip⟩

theorem loadBlock_of_sets (ht : t.needsChipId = true)
    (hset : setsGpu E (t.withGpu gpuId gpuVariant)) :
    loadBlock E (t.withGpu gpuId gpuVariant) = loadBlock E t := by
  rw [loadBlock, loadBlock, blockType_withGpu]
  rcases hset with hgpu | ⟨hchip, hg, hknown⟩
  · rw [blockType_withGpu] at hgpu
    rw [hgpu]
    exact loadGpuId_withGpu t
  · rw [blockType_withGpu] at hchip
    rw [hchip]
    refine loadChipId_of_known ht hg fun chipId u hread => ?_
    refine hknown chipId (u.withGpu gpuId gpuVariant) ?_
    rw [readLocal_withGpu, dataSize_withGpu, hread]
    rfl

/-! ## The whole load -/

theorem load_of_error {e : Ending} (h : iteration E s = .error e) : loadAdrenoRdFile E s = e :=
  StopsWith.eq_of_error h (stopsWith_loadAdrenoRdFile E s)

theorem load_of_ok (h : iteration E s = .ok u) : loadAdrenoRdFile E s = loadAdrenoRdFile E u :=
  StopsWith.unique (stopsWith_loadAdrenoRdFile E s)
    (StopsWith.head h (stopsWith_loadAdrenoRdFile E u))

theorem load_congr {s' : LoadState} (h : iteration E s' = iteration E s) :
    loadAdrenoRdFile E s' = loadAdrenoRdFile E s := by
  cases hs : iteration E s with
  | error e => rw [load_of_error hs, load_of_error (h.trans hs)]
  | ok u => rw [load_of_ok hs, load_of_ok (h.trans hs)]

theorem carry_eq_ok {x : Except Ending LoadState} {v : LoadState}
    (h : carry gpuId gpuVariant (·.withGpu gpuId gpuVariant) x = .ok v) :
    ∃ u, x = .ok u ∧ u.withGpu gpuId gpuVariant = v := by
  cases x with
  | error e => cases h
  | ok u => exact ⟨u, rfl, Except.ok.inj h⟩

theorem needsChipId_of_own {x : Except Ending LoadState}
    (h : x = carry s.gpuId s.gpuVariant (·.withGpu s.gpuId s.gpuVariant) x) (hu : x = .ok u) :
    u.gpuId = s.gpuId ∧ u.gpuVariant = s.gpuVariant ∧ u.needsChipId = s.needsChipId := by
  subst hu
  have hown : u = u.withGpu s.gpuId s.gpuVariant := Except.ok.inj h
  rw [hown]
  exact ⟨rfl, rfl, rfl⟩

theorem nextHeader_own (h : nextHeader s = .ok t) :
    t.gpuId = s.gpuId ∧ t.gpuVariant = s.gpuVariant ∧ t.needsChipId = s.needsChipId :=
  needsChipId_of_own (@nextHeader_withGpu s.gpuId s.gpuVariant s) h

/-- **A load that sets the id does not depend on the one it finds.** -/
theorem load_of_setsId (hE : E.HeapApart) (hs : s.needsChipId = true)
    (h : SetsId E (s.withGpu gpuId gpuVariant)) :
    loadAdrenoRdFile E (s.withGpu gpuId gpuVariant) = loadAdrenoRdFile E s := by
  generalize hs' : s.withGpu gpuId gpuVariant = s' at h
  induction h generalizing s with
  | @here s' t' ht' hset =>
    subst hs'
    have hcarry := ht'
    rw [nextHeader_withGpu] at hcarry
    obtain ⟨t, ht, rfl⟩ := carry_eq_ok hcarry
    refine load_congr ?_
    rw [iteration, iteration, ht', ht]
    exact loadBlock_of_sets ((nextHeader_own ht).2.2.trans hs) hset
  | @later s' t' u' ht' hskip hu' _ ih =>
    subst hs'
    have hcarry := ht'
    rw [nextHeader_withGpu] at hcarry
    obtain ⟨t, ht, rfl⟩ := carry_eq_ok hcarry
    have hneeds := (nextHeader_own ht).2.2.trans hs
    by_cases hset : setsGpu E (t.withGpu gpuId gpuVariant)
    · refine load_congr ?_
      rw [iteration, iteration, ht', ht]
      exact loadBlock_of_sets hneeds hset
    · obtain ⟨hblock, hown⟩ := loadBlock_withGpu hE hneeds hset hskip
      rw [hblock] at hu'
      obtain ⟨u, hu, rfl⟩ := carry_eq_ok hu'
      have hsu : iteration E s = .ok u := by
        rw [iteration, ht]
        exact hu
      have hsu' : iteration E (s.withGpu gpuId gpuVariant) = .ok (u.withGpu gpuId gpuVariant) := by
        rw [iteration, ht']
        exact hblock.trans hu'
      rw [load_of_ok hsu, load_of_ok hsu']
      exact ih ((needsChipId_of_own hown hu).2.2.trans hneeds) rfl

theorem loadBlock_of_keeps (hE : E.HeapApart) (hs : s.needsChipId = true)
    (hset : ¬SetsId E (s.withGpu gpuId gpuVariant))
    (hskip : ¬SkipsId E (s.withGpu gpuId gpuVariant)) (ht : nextHeader s = .ok t) :
    nextHeader (s.withGpu gpuId gpuVariant) = .ok (t.withGpu gpuId gpuVariant) ∧
      loadBlock E (t.withGpu gpuId gpuVariant) =
        carry gpuId gpuVariant (·.withGpu gpuId gpuVariant) (loadBlock E t) ∧
      loadBlock E t =
        carry t.gpuId t.gpuVariant (·.withGpu t.gpuId t.gpuVariant) (loadBlock E t) := by
  have hother : nextHeader (s.withGpu gpuId gpuVariant) = .ok (t.withGpu gpuId gpuVariant) := by
    rw [nextHeader_withGpu, ht]
    rfl
  refine ⟨hother, loadBlock_withGpu hE ((nextHeader_own ht).2.2.trans hs) ?_ ?_⟩
  · exact fun h => hset (.here hother h)
  · exact fun h => hskip (.here hother h)

/-- **A load that neither sets the id nor skips a chip id carries it along.** -/
theorem load_of_keeps (hE : E.HeapApart) (hs : s.needsChipId = true)
    (hset : ¬SetsId E (s.withGpu gpuId gpuVariant))
    (hskip : ¬SkipsId E (s.withGpu gpuId gpuVariant)) :
    loadAdrenoRdFile E (s.withGpu gpuId gpuVariant) =
        (loadAdrenoRdFile E s).withGpu gpuId gpuVariant ∧
      loadAdrenoRdFile E s = (loadAdrenoRdFile E s).withGpu s.gpuId s.gpuVariant := by
  have hhalts := load_halts E s
  induction hhalts with
  | @stop s e he =>
    have hcarried : iteration E (s.withGpu gpuId gpuVariant) = .error (e.withGpu gpuId gpuVariant) ∧
        e = e.withGpu s.gpuId s.gpuVariant := by
      cases hnext : nextHeader s with
      | error e' =>
        rw [iteration, hnext] at he
        obtain rfl : e' = e := Except.error.inj he
        have hown := @nextHeader_withGpu s.gpuId s.gpuVariant s
        rw [show s.withGpu s.gpuId s.gpuVariant = s from rfl, hnext] at hown
        rw [iteration, nextHeader_withGpu, hnext]
        exact ⟨rfl, Except.error.inj hown⟩
      | ok t =>
        rw [iteration, hnext] at he
        obtain ⟨hother, hblock, hown⟩ := loadBlock_of_keeps hE hs hset hskip hnext
        rw [show loadBlock E t = .error e from he] at hblock hown
        rw [iteration, hother, ← (nextHeader_own hnext).1, ← (nextHeader_own hnext).2.1]
        exact ⟨hblock, Except.error.inj hown⟩
    rw [load_of_error he, load_of_error hcarried.1]
    exact ⟨rfl, hcarried.2⟩
  | @next s u hu _ ih =>
    cases hnext : nextHeader s with
    | error e =>
      rw [iteration, hnext] at hu
      cases hu
    | ok t =>
      have hu' : loadBlock E t = .ok u := by
        rw [iteration, hnext] at hu
        exact hu
      obtain ⟨hother, hblock, hown⟩ := loadBlock_of_keeps hE hs hset hskip hnext
      have hkept := needsChipId_of_own hown hu'
      rw [hu'] at hblock
      have hcarried : iteration E (s.withGpu gpuId gpuVariant) =
          .ok (u.withGpu gpuId gpuVariant) := by
        rw [iteration, hother]
        exact hblock
      have hids : u.gpuId = s.gpuId ∧ u.gpuVariant = s.gpuVariant :=
        ⟨hkept.1.trans (nextHeader_own hnext).1, hkept.2.1.trans (nextHeader_own hnext).2.1⟩
      rw [load_of_ok hu, load_of_ok hcarried, ← hids.1, ← hids.2]
      refine ih (hkept.2.2.trans ((nextHeader_own hnext).2.2.trans hs)) (fun h => hset ?_)
        fun h => hskip ?_
      · exact .later hother (fun hchip => hskip (.here hother hchip)) hblock h
      · exact .later hother (fun hsets => hset (.here hother hsets)) hblock h

/-! ## The id and the variant -/

/-- The variant is that of the id. -/
def LoadState.Paired (s : LoadState) : Prop := s.gpuVariant = gpuVariantOf s.gpuId

/-- The state that a step goes on or returns with. -/
def Leaves (P : LoadState → Prop) : Except Ending LoadState → Prop
  | .ok u => P u
  | .error (.returns _ u) => P u
  | .error .undefined => True

theorem leaves_of_own {x : Except Ending LoadState} (hs : s.Paired)
    (h : x = carry s.gpuId s.gpuVariant (·.withGpu s.gpuId s.gpuVariant) x) :
    Leaves LoadState.Paired x := by
  rw [h]
  cases x with
  | ok u => exact hs
  | error e =>
    cases e with
    | returns result u => exact hs
    | undefined => trivial

theorem readLocal_gpu {size nbytes : ℕ} {d : Buffer}
    (h : s.readLocal size nbytes = some (d, u)) :
    u.gpuId = s.gpuId ∧ u.gpuVariant = s.gpuVariant := by
  rw [LoadState.readLocal] at h
  split_ifs at h
  cases h
  exact ⟨rfl, rfl⟩

theorem loadGpuId_paired (s : LoadState) : Leaves LoadState.Paired (loadGpuId s) := by
  rw [loadGpuId]
  cases s.readLocal 4 s.dataSize.toNat with
  | none => trivial
  | some x => rfl

theorem loadChipId_paired (hs : s.Paired) : Leaves LoadState.Paired (loadChipId E s) := by
  rw [loadChipId]
  by_cases hneeds : s.needsChipId = true
  · rw [if_pos hneeds]
    cases hread : s.readLocal 8 s.dataSize.toNat with
    | none => trivial
    | some x =>
      have hkept := readLocal_gpu hread
      by_cases hchip : E.chip (x.1.u64 0) ≠ 0
      · simp only [if_pos hchip]
        rfl
      · simp only [if_neg hchip]
        show x.2.gpuVariant = gpuVariantOf x.2.gpuId
        rw [hkept.1, hkept.2]
        exact hs
  · rw [if_neg hneeds]
    exact hs

theorem loadBlock_paired (ht : t.Paired) :
    Leaves LoadState.Paired (loadBlock E t) := by
  by_cases hgpu : sectType t.blockType = some .rdGpuId
  · rw [loadBlock, hgpu]
    exact loadGpuId_paired t
  · by_cases hchip : sectType t.blockType = some .rdChipId
    · rw [loadBlock, hchip]
      exact loadChipId_paired ht
    · exact leaves_of_own ht (@loadBlock_other E t t.gpuId t.gpuVariant rfl hgpu hchip)

theorem nextHeader_paired (hs : s.Paired) : Leaves LoadState.Paired (nextHeader s) :=
  leaves_of_own hs (@nextHeader_withGpu s.gpuId s.gpuVariant s)

theorem iteration_paired (hs : s.Paired) :
    Leaves LoadState.Paired (iteration E s) := by
  have hnext := nextHeader_paired hs
  rw [iteration]
  cases h : nextHeader s with
  | error e =>
    rw [h] at hnext
    exact hnext
  | ok t =>
    rw [h] at hnext
    exact loadBlock_paired hnext

theorem load_paired (hs : s.Paired) :
    Leaves LoadState.Paired (.error (loadAdrenoRdFile E s)) := by
  have hhalts := load_halts E s
  induction hhalts with
  | @stop s e he =>
    rw [load_of_error he, ← he]
    exact iteration_paired hs
  | @next s u hu _ ih =>
    rw [load_of_ok hu]
    refine ih ?_
    have hleaves := iteration_paired (E := E) hs
    rw [hu] at hleaves
    exact hleaves

end Pm4CaptureData

end Dive
