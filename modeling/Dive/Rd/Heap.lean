import Dive.Rd.GpuId

/-!
# Fresh heap memory during a load

* `withHeap`: the loader with other bytes in fresh heap memory.
* `FullPayload`, `ReadsInFull`: no byte of a buffer that the file did not fill is looked at.
* **`load_heap`**: a load that reads its payloads in full does not depend on these bytes.
* `readsInFull_fresh`: a load from another GPU id reads them in full, too; `load_fresh_of_setsId`,
  `load_fresh_of_keeps`: what it has in common with the load from the own one.
-/

namespace Dive

namespace Pm4CaptureData

open Machine

/-- The loader with these bytes in fresh heap memory. -/
def LoadEnv.withHeap (E : LoadEnv) (heap : LoadState → Buffer) : LoadEnv := { E with heap := heap }

/-- The file fills what is looked at of the buffer for a payload: all of a memory block, and the
name of a process with its end. -/
def FullPayload (t : LoadState) : Prop :=
  (sectType t.blockType = some .rdBufferContents → (t.read t.curSize.toNat).returned ≠ 0 →
    (t.read t.curSize.toNat).items.length = t.curSize.toNat) ∧
  (sectType t.blockType = some .rdCmd → (t.read t.dataSize.toNat).returned ≠ 0 →
    0 ∈ (t.read t.dataSize.toNat).items)

/-- All payloads of the load are read in full. -/
def ReadsInFull (E : LoadEnv) (s : LoadState) : Prop :=
  ∀ u t, Reaches (iteration E) s u → nextHeader u = .ok t → FullPayload t

variable {E : LoadEnv} {s t u : LoadState} {gpuId : UInt32} {gpuVariant : GPUVariantType}
  {heap : LoadState → Buffer} {b b' : Buffer} {items : List UInt8}

/-! ## A buffer that is filled -/

theorem memoryBlock_overwrite {submitIndex : UInt32} {vaAddr : UInt64} {size : UInt32}
    (h : items.length = size.toNat) : memoryBlock submitIndex vaAddr size (b.overwrite items) =
      memoryBlock submitIndex vaAddr size (b'.overwrite items) := by
  simp only [memoryBlock, Buffer.map_range_overwrite _ h]

theorem equalsFrom_congr {k : ℕ} (hb : ∀ i ≤ k, b i = b' i) (hend : b k = 0) :
    ∀ (l : List UInt8) (i : ℕ), 0 ∉ l → i ≤ k → equalsFrom b i l = equalsFrom b' i l
  | [], i, _, hi => by rw [equalsFrom, equalsFrom, hb i hi]
  | c :: l, i, hl, hi => by
    rw [equalsFrom, equalsFrom, hb i hi]
    by_cases hc : b' i = c
    · have hne : i ≠ k := by
        rintro rfl
        rw [← hb i hi, hend] at hc
        exact hl (hc ▸ List.mem_cons_self)
      rw [equalsFrom_congr hb hend l (i + 1) (fun h => hl (List.mem_cons_of_mem c h)) (by omega)]
    · rw [decide_eq_false hc, Bool.false_and, Bool.false_and]

theorem isSystemProcess_overwrite (h : 0 ∈ items) :
    isSystemProcess (b.overwrite items) = isSystemProcess (b'.overwrite items) := by
  obtain ⟨k, hk, hend⟩ := List.mem_iff_getElem.mp h
  have hagree : ∀ i ≤ k, b.overwrite items i = b'.overwrite items i := by
    intro i hi
    rw [Buffer.overwrite, Buffer.overwrite, List.getElem?_eq_getElem (hi.trans_lt hk)]
    rfl
  have hzero : b.overwrite items k = 0 := by
    rw [Buffer.overwrite, List.getElem?_eq_getElem hk, hend]
    rfl
  rw [isSystemProcess, isSystemProcess, hagree 0 (Nat.zero_le k),
    equalsFrom_congr hagree hzero _ 0 (by decide) (Nat.zero_le k),
    equalsFrom_congr hagree hzero _ 0 (by decide) (Nat.zero_le k),
    equalsFrom_congr hagree hzero _ 0 (by decide) (Nat.zero_le k)]

/-! ## A load -/

theorem loadBlock_heap (h : FullPayload t) : loadBlock (E.withHeap heap) t = loadBlock E t := by
  rw [loadBlock, loadBlock]
  cases htype : sectType t.blockType with
  | none => rfl
  | some ty =>
    cases ty with
    | rdBufferContents =>
      have hfull := h.1 htype
      simp only [loadMemoryBlockAdreno]
      by_cases hsize : t.dataSize ≠ t.curSize
      · rw [if_pos hsize, if_pos hsize]
      · rw [if_neg hsize, if_neg hsize]
        by_cases hread : (t.read t.curSize.toNat).returned = 0
        · rw [if_pos hread, if_pos hread]
        · rw [if_neg hread, if_neg hread, memoryBlock_overwrite (hfull hread)]
    | rdCmd =>
      have hfull := h.2 htype
      simp only [loadCmd]
      by_cases hread : (t.read t.dataSize.toNat).returned = 0
      · rw [if_pos hread, if_pos hread]
      · rw [if_neg hread, if_neg hread, isSystemProcess_overwrite (hfull hread)]
    | _ => rfl

theorem ReadsInFull.iteration_eq (h : ReadsInFull E s) :
    iteration (E.withHeap heap) s = iteration E s := by
  rw [iteration, iteration]
  cases hnext : nextHeader s with
  | error e => rfl
  | ok t => exact loadBlock_heap (h s t (Reaches.refl s) hnext)

theorem ReadsInFull.tail (h : ReadsInFull E s) (hu : iteration E s = .ok u) : ReadsInFull E u :=
  fun v t hv => h v t (hv.head hu)

theorem readsInFull_of (hs : ∀ t, nextHeader s = .ok t → FullPayload t)
    (htail : ∀ u, iteration E s = .ok u → ReadsInFull E u) : ReadsInFull E s := by
  intro v t hv hnext
  rcases Relation.ReflTransGen.cases_head hv with rfl | ⟨u, hu, huv⟩
  · exact hs t hnext
  · exact htail u hu v t huv hnext

variable (heap) in
/-- **Read in full, a load does not depend on the bytes of fresh memory.** -/
theorem load_heap (h : ReadsInFull E s) :
    loadAdrenoRdFile (E.withHeap heap) s = loadAdrenoRdFile E s := by
  have hhalts := load_halts E s
  induction hhalts with
  | stop he => rw [load_of_error he, load_of_error (h.iteration_eq.trans he)]
  | next hu _ ih =>
    rw [load_of_ok hu, load_of_ok (h.iteration_eq.trans hu)]
    exact ih (h.tail hu)

theorem ReadsInFull.withHeap (h : ReadsInFull E s) : ReadsInFull (E.withHeap heap) s := by
  have hhalts := load_halts E s
  induction hhalts with
  | @stop s e he =>
    refine readsInFull_of (fun t => h s t (Reaches.refl s)) fun u hu => ?_
    cases (h.iteration_eq.symm.trans hu).symm.trans he
  | @next s u hu _ ih =>
    refine readsInFull_of (fun t => h s t (Reaches.refl s)) fun v hv => ?_
    rw [← Except.ok.inj (hu.symm.trans (h.iteration_eq.symm.trans hv))]
    exact ih (h.tail hu)

variable (heap) in
theorem setsId_heap (h : ReadsInFull E s) (hsets : SetsId E s) : SetsId (E.withHeap heap) s := by
  induction hsets with
  | here ht hset => exact .here ht hset
  | @later s t u ht hskip hu _ ih =>
    have hfull := h s t (Reaches.refl s) ht
    refine .later ht hskip ((loadBlock_heap hfull).trans hu) (ih (h.tail ?_))
    rw [iteration, ht]
    exact hu

variable (heap) in
theorem skipsId_heap (h : ReadsInFull E s) (hskips : SkipsId E s) :
    SkipsId (E.withHeap heap) s := by
  induction hskips with
  | here ht hskip => exact .here ht hskip
  | @later s t u ht hset hu _ ih =>
    have hfull := h s t (Reaches.refl s) ht
    refine .later ht hset ((loadBlock_heap hfull).trans hu) (ih (h.tail ?_))
    rw [iteration, ht]
    exact hu

/-! ## From another GPU id -/

theorem readsInFull_fresh (hE : E.HeapApart) (hs : s.needsChipId = true)
    (h : SetsId E (s.withGpu gpuId gpuVariant) ∨ ¬SkipsId E (s.withGpu gpuId gpuVariant))
    (hfull : ReadsInFull E (s.withGpu gpuId gpuVariant)) : ReadsInFull E s := by
  have hnext : ∀ {s t}, nextHeader s = .ok t →
      nextHeader (s.withGpu gpuId gpuVariant) = .ok (t.withGpu gpuId gpuVariant) := by
    intro s t ht
    rw [nextHeader_withGpu, ht]
    rfl
  have hhalts := load_halts E s
  induction hhalts with
  | @stop s e he =>
    refine readsInFull_of (fun t ht => ?_) fun u hu => by cases hu.symm.trans he
    exact hfull _ (t.withGpu gpuId gpuVariant) (Reaches.refl _) (hnext ht)
  | @next s u hu _ ih =>
    refine readsInFull_of (fun t ht =>
      hfull _ (t.withGpu gpuId gpuVariant) (Reaches.refl _) (hnext ht)) fun v hv => ?_
    obtain rfl : u = v := Except.ok.inj (hu.symm.trans hv)
    cases ht : nextHeader s with
    | error e =>
      rw [iteration, ht] at hu
      cases hu
    | ok t =>
      have hneeds := (nextHeader_own ht).2.2.trans hs
      have hblock : loadBlock E t = .ok u := by
        rw [iteration, ht] at hu
        exact hu
      have hother : ∀ {w}, loadBlock E (t.withGpu gpuId gpuVariant) = .ok w →
          iteration E (s.withGpu gpuId gpuVariant) = .ok w := by
        intro w hw
        rw [iteration, hnext ht]
        exact hw
      by_cases hset : setsGpu E (t.withGpu gpuId gpuVariant)
      · exact hfull.tail (hother ((loadBlock_of_sets hneeds hset).trans hblock))
      · have hskip : ¬skipsChip (t.withGpu gpuId gpuVariant) := by
          intro hskip
          rcases h with h | h
          · cases h with
            | here ht' hset' =>
              rw [← Except.ok.inj ((hnext ht).symm.trans ht')] at hset'
              exact hset hset'
            | later ht' hskip' =>
              rw [← Except.ok.inj ((hnext ht).symm.trans ht')] at hskip'
              exact hskip' hskip
          · exact h (.here (hnext ht) hskip)
        obtain ⟨hcarry, hown⟩ := loadBlock_withGpu hE hneeds hset hskip
        rw [hblock] at hcarry
        refine ih ((needsChipId_of_own hown hblock).2.2.trans hneeds) ?_ (hfull.tail (hother hcarry))
        rcases h with h | h
        · cases h with
          | here ht' hset' =>
            rw [← Except.ok.inj ((hnext ht).symm.trans ht')] at hset'
            exact absurd hset' hset
          | later ht' hskip' hu' hsets =>
            rw [← Except.ok.inj ((hnext ht).symm.trans ht')] at hu'
            rw [← Except.ok.inj (hcarry.symm.trans hu')] at hsets
            exact .inl hsets
        · exact .inr fun hskips => h (.later (hnext ht) hset hcarry hskips)

theorem heapApart_zero : (E.withHeap fun _ => Buffer.zero).HeapApart := fun _ _ _ => rfl

variable (heap) in
/-- **A load that sets the id does not depend on the one it finds**, nor on fresh memory. -/
theorem load_fresh_of_setsId (hs : s.needsChipId = true)
    (hfull : ReadsInFull E (s.withGpu gpuId gpuVariant))
    (h : SetsId E (s.withGpu gpuId gpuVariant)) :
    loadAdrenoRdFile E (s.withGpu gpuId gpuVariant) = loadAdrenoRdFile (E.withHeap heap) s := by
  have hzero := setsId_heap (fun _ => Buffer.zero) hfull h
  have hfresh := readsInFull_fresh heapApart_zero hs (.inl hzero) hfull.withHeap
  calc loadAdrenoRdFile E (s.withGpu gpuId gpuVariant)
      = loadAdrenoRdFile (E.withHeap fun _ => Buffer.zero) (s.withGpu gpuId gpuVariant) :=
        (load_heap _ hfull).symm
    _ = loadAdrenoRdFile (E.withHeap fun _ => Buffer.zero) s :=
        load_of_setsId heapApart_zero hs hzero
    _ = loadAdrenoRdFile (E.withHeap heap) s := (load_heap heap hfresh).symm

variable (heap) in
/-- **A load that neither sets the id nor skips a chip id carries it along**, whatever is in fresh
memory. -/
theorem load_fresh_of_keeps (hs : s.needsChipId = true)
    (hfull : ReadsInFull E (s.withGpu gpuId gpuVariant))
    (hset : ¬SetsId E (s.withGpu gpuId gpuVariant))
    (hskip : ¬SkipsId E (s.withGpu gpuId gpuVariant)) :
    loadAdrenoRdFile E (s.withGpu gpuId gpuVariant) =
        (loadAdrenoRdFile (E.withHeap heap) s).withGpu gpuId gpuVariant ∧
      loadAdrenoRdFile (E.withHeap heap) s =
        (loadAdrenoRdFile (E.withHeap heap) s).withGpu s.gpuId s.gpuVariant := by
  have hzero : ReadsInFull (E.withHeap fun _ => Buffer.zero) (s.withGpu gpuId gpuVariant) :=
    hfull.withHeap
  have hset₀ : ¬SetsId (E.withHeap fun _ => Buffer.zero) (s.withGpu gpuId gpuVariant) :=
    fun h => hset (setsId_heap E.heap (E := E.withHeap fun _ => Buffer.zero) hzero h)
  have hskip₀ : ¬SkipsId (E.withHeap fun _ => Buffer.zero) (s.withGpu gpuId gpuVariant) :=
    fun h => hskip (skipsId_heap E.heap (E := E.withHeap fun _ => Buffer.zero) hzero h)
  have hfresh := readsInFull_fresh heapApart_zero hs (.inr hskip₀) hzero
  have hsame : loadAdrenoRdFile (E.withHeap heap) s =
      loadAdrenoRdFile (E.withHeap fun _ => Buffer.zero) s := load_heap heap hfresh
  rw [hsame, ← load_heap (fun _ => Buffer.zero) hfull]
  exact load_of_keeps heapApart_zero hs hset₀ hskip₀

end Pm4CaptureData

end Dive
