import Dive.Gfxr.Edits

/-!
# Writing a `.gfxr` file

* `copyLoop_eq`, `acceptAll_writer`: what the writer writes, and when it accepts all the blocks.
* `Parsed`, `finalized`: a file parsed into blocks, and its `DiveBlockData`.
* `expectedFile`: the header, and for each block the modifications before it, what stands for it,
  and the modifications after it.
* **`writeGFXRFile_edited`**: after any history of edits, `WriteGFXRFile` succeeds exactly when all
  the modifications in force have data, and then writes the expected file.
-/

namespace Dive

/-! ## What the writer writes -/

section Writer

variable {file : DiskFile} {blobs : BlobPtr → List UInt8} {w : WriterState}

/-- **The copy loop** copies the bytes of the block. -/
theorem copyLoop_eq {original : List UInt8} {fuel position left : ℕ} (hfuel : left ≤ fuel)
    (hlen : position + left ≤ original.length) :
    (copyLoop original fuel position left w).newFile =
      w.newFile ++ (original.drop position).take left := by
  induction fuel generalizing position left w with
  | zero =>
    obtain rfl : left = 0 := by omega
    simp [copyLoop]
  | succ fuel ih =>
    by_cases h0 : 0 < left
    · have hk : kDiveBlockBufferSize = 4096 := rfl
      obtain ⟨n, hn, hpos, hle⟩ : ∃ n, (if kDiveBlockBufferSize < left then kDiveBlockBufferSize
          else left) = n ∧ 0 < n ∧ n ≤ left := by
        refine ⟨_, rfl, ?_, ?_⟩ <;> split_ifs <;> omega
      have hchunk : ((original.drop position).take n).length = n := by
        rw [List.length_take, List.length_drop]
        omega
      rw [copyLoop, if_pos h0]
      simp only [hn, hchunk, Buffer.map_range_overwrite _ hchunk]
      rw [ih (by omega) (by omega)]
      simp only [WriterState.fileWrite, List.append_assoc]
      congr 1
      have hsplit : left = n + (left - n) := by omega
      conv_rhs => rw [hsplit, List.take_add, List.drop_drop]
    · obtain rfl : left = 0 := by omega
      simp [copyLoop]

/-- The block lies within the file. -/
def InFile (file : DiskFile) (block : DiveOriginalBlock) : Prop :=
  block.offset.toNat + block.size.toNat ≤ file.bytes.length

/-- The bytes that stand for a block in the new file. -/
def content (file : DiskFile) (blobs : BlobPtr → List UInt8) : Option IDiveBlock → List UInt8
  | none => []
  | some (.original block) => (file.bytes.drop block.offset.toNat).take block.size.toNat
  | some (.modification block) => blobs block.blobPtr

theorem visitOriginal_eq {block : DiveOriginalBlock} (h : InFile file block) :
    ((writerBlockVisitor file blobs).visitOriginal block w).1 = true ∧
      ((writerBlockVisitor file blobs).visitOriginal block w).2.newFile =
        w.newFile ++ content file blobs (some (.original block)) := by
  have hlt := file.length_lt
  unfold InFile at h
  simp only [writerBlockVisitor, content]
  by_cases hsize : block.size = 0
  · simp [hsize]
  · rw [if_neg hsize, if_neg (by omega)]
    exact ⟨rfl, copyLoop_eq (le_refl _) h⟩

/-- The modification blocks of the list have a buffer with data. -/
def Filled (blobs : BlobPtr → List UInt8) (l : List (Option IDiveBlock)) : Prop :=
  ∀ block, some (.modification block) ∈ l → blobs block.blobPtr ≠ []

/-- **The writer** accepts all the blocks if every modification has data, and then writes one after
the other. -/
theorem acceptAll_writer {l : List (Option IDiveBlock)}
    (hfile : ∀ block, some (.original block) ∈ l → InFile file block) :
    ((acceptAll (writerBlockVisitor file blobs) l w).1 = true ↔ Filled blobs l) ∧
      (Filled blobs l → (acceptAll (writerBlockVisitor file blobs) l w).2.newFile =
        w.newFile ++ l.flatMap (content file blobs)) := by
  induction l generalizing w with
  | nil => simp [acceptAll, Filled]
  | cons b l ih =>
    have hrest : ∀ block, some (.original block) ∈ l → InFile file block :=
      fun block hb => hfile block (List.mem_cons_of_mem _ hb)
    rcases b with _ | block | block
    · have hfilled : Filled blobs (none :: l) ↔ Filled blobs l := by simp [Filled]
      rw [hfilled]
      exact ih hrest
    · have hfilled : Filled blobs (some (.original block) :: l) ↔ Filled blobs l := by
        simp [Filled]
      obtain ⟨h1, h2⟩ := @visitOriginal_eq file blobs w block (hfile block List.mem_cons_self)
      simp only [acceptAll, IDiveBlock.accept, h1, if_true, List.flatMap_cons]
      rw [hfilled, ← List.append_assoc, ← h2]
      exact ih hrest
    · have hfilled : Filled blobs (some (.modification block) :: l) ↔
          blobs block.blobPtr ≠ [] ∧ Filled blobs l := by
        simp [Filled]
      rw [hfilled]
      by_cases hblob : blobs block.blobPtr = []
      · simp [acceptAll, IDiveBlock.accept, writerBlockVisitor, hblob]
      · obtain ⟨h1, h2⟩ := ih (w := w.fileWrite (blobs block.blobPtr)) hrest
        simp only [acceptAll, IDiveBlock.accept, writerBlockVisitor, List.flatMap_cons,
          ne_eq, hblob, not_false_eq_true, true_and]
        refine ⟨h1, fun hl => (h2 hl).trans ?_⟩
        rw [WriterState.fileWrite, List.append_assoc]
        rfl

end Writer

/-! ## The parsed file -/

/-- The blocks of the file start at the offsets, one after the other. -/
structure Parsed (file : DiskFile) (offsets : List UInt64) : Prop where
  nondecreasing : offsets.Pairwise (· ≤ ·)
  inFile : ∀ o ∈ offsets, o.toNat ≤ file.bytes.length

/-- The object after the blocks were added, the first of them as number `index`. -/
def addAll : ℕ → List UInt64 → DiveBlockData → DiveBlockData
  | _, [], d => d
  | index, o :: offsets, d => addAll (index + 1) offsets (d.addOriginalBlock index o).2

/-- The finalized object of the parsed file, and whether that succeeded. -/
def finalized (file : DiskFile) (offsets : List UInt64) : Bool × DiveBlockData :=
  (addAll 0 offsets {}).finalizeOriginalBlocksMapSizes file.size

variable {file : DiskFile} {offsets : List UInt64} {blobs : BlobPtr → List UInt8}

/-- The blocks before their sizes are set. -/
def unsizedBlocks (offsets : List UInt64) : List DiveOriginalBlock :=
  offsets.map fun o => { offset := o }

theorem addAll_eq (offsets : List UInt64) (d : DiveBlockData)
    (hlocked : d.originalBlocksMapLocked = false) :
    addAll d.originalBlocksMap.length offsets d =
      { d with originalBlocksMap := d.originalBlocksMap ++ unsizedBlocks offsets } := by
  induction offsets generalizing d with
  | nil => simp [addAll, unsizedBlocks]
  | cons o offsets ih =>
    have hadd : (d.addOriginalBlock d.originalBlocksMap.length o).2 =
        { d with originalBlocksMap := d.originalBlocksMap ++ [{ offset := o }] } := by
      simp [DiveBlockData.addOriginalBlock, hlocked]
    rw [addAll, hadd]
    have := ih { d with originalBlocksMap := d.originalBlocksMap ++ [{ offset := o }] } hlocked
    simp only [List.length_append, List.length_singleton] at this
    rw [this]
    simp [unsizedBlocks]

/-- Where the block at the head of the offsets ends. -/
def endOffset (file : DiskFile) (offsets : List UInt64) : ℕ :=
  offsets.head?.elim file.bytes.length UInt64.toNat

/-- The new bytes of the blocks from number `i` on: modifications with a negative secondary id, the
replacement of the block, nothing, or the block itself, and modifications with a positive one. -/
def expectedFrom (file : DiskFile) (m : Modifications) (blobs : BlobPtr → List UInt8)
    (neg pos : ℕ → List Int32) : ℕ → List UInt64 → List UInt8
  | _, [] => []
  | i, o :: offsets =>
    let blob := fun q => ((m (UInt32.ofNat i) q).getD none).elim [] blobs
    (neg i).flatMap blob ++
      (match m (UInt32.ofNat i) 0 with
        | some b => b.elim [] blobs
        | none => (file.bytes.drop o.toNat).take (endOffset file offsets - o.toNat)) ++
      (pos i).flatMap blob ++ expectedFrom file m blobs neg pos (i + 1) offsets

/-- The new file: the header, and then the blocks. -/
def expectedFile (file : DiskFile) (offsets : List UInt64) (m : Modifications)
    (blobs : BlobPtr → List UInt8) (neg pos : ℕ → List Int32) : List UInt8 :=
  file.bytes.take (endOffset file offsets) ++ expectedFrom file m blobs neg pos 0 offsets

theorem toNat_size : file.size.toNat = file.bytes.length := by
  have := file.length_lt
  rw [DiskFile.size, UInt64.toNat_ofNat', Nat.mod_eq_of_lt (by omega)]

theorem Parsed.tail {o : UInt64} (h : Parsed file (o :: offsets)) : Parsed file offsets :=
  ⟨h.nondecreasing.of_cons, fun o' ho' => h.inFile o' (List.mem_cons_of_mem _ ho')⟩

theorem Parsed.le_endOffset {o : UInt64} (h : Parsed file (o :: offsets)) :
    o.toNat ≤ endOffset file offsets ∧ endOffset file offsets ≤ file.bytes.length := by
  cases offsets with
  | nil => exact ⟨h.inFile o List.mem_cons_self, le_refl _⟩
  | cons o' offsets =>
    have hle := (List.pairwise_cons.mp h.nondecreasing).1 o' List.mem_cons_self
    exact ⟨UInt64.le_iff_toNat_le.mp hle, h.inFile o' (by simp)⟩

/-- The blocks of the file with their sizes. -/
def sizedBlocks (file : DiskFile) : List UInt64 → List DiveOriginalBlock
  | [] => []
  | o :: offsets => ⟨o, UInt64.ofNat (endOffset file offsets - o.toNat)⟩ :: sizedBlocks file offsets

/-- **The sizes of the blocks** of a parsed file. -/
theorem setSizes_eq (h : Parsed file offsets) :
    DiveBlockData.setSizes file.size (unsizedBlocks offsets) =
      (true, sizedBlocks file offsets) := by
  have hsub : ∀ {a b : UInt64}, b.toNat ≤ a.toNat → a - b = UInt64.ofNat (a.toNat - b.toNat) := by
    intro a b hle
    apply UInt64.toNat_inj.mp
    rw [UInt64.toNat_sub_of_le _ _ (UInt64.le_iff_toNat_le.mpr hle), UInt64.toNat_ofNat',
      Nat.mod_eq_of_lt (by have := a.toNat_lt; omega)]
  induction offsets with
  | nil => rfl
  | cons o offsets ih =>
    have hle := h.le_endOffset.1
    cases offsets with
    | nil =>
      have hlast : o.toNat ≤ file.size.toNat := by rwa [toNat_size]
      simp only [unsizedBlocks, List.map_cons, List.map_nil, DiveBlockData.setSizes, sizedBlocks,
        hsub hlast, toNat_size]
      rfl
    | cons o' offsets =>
      have hle' : o.toNat ≤ o'.toNat := hle
      have hnlt : ¬ o' < o := by
        rw [UInt64.lt_iff_toNat_lt]
        omega
      have ih := ih h.tail
      rw [unsizedBlocks, List.map_cons] at ih
      rw [unsizedBlocks, List.map_cons, List.map_cons, DiveBlockData.setSizes, if_neg hnlt, ih,
        hsub hle']
      rfl

theorem toNat_sized {o : UInt64} (h : Parsed file (o :: offsets)) :
    (UInt64.ofNat (endOffset file offsets - o.toNat)).toNat =
      endOffset file offsets - o.toNat := by
  have := h.le_endOffset
  have := file.length_lt
  rw [UInt64.toNat_ofNat', Nat.mod_eq_of_lt (by omega)]

theorem inFile_sizedBlocks (h : Parsed file offsets) :
    ∀ block ∈ sizedBlocks file offsets, InFile file block := by
  induction offsets with
  | nil => simp [sizedBlocks]
  | cons o offsets ih =>
    intro block hblock
    rcases List.mem_cons.mp hblock with rfl | hblock
    · have := h.le_endOffset
      show o.toNat + (UInt64.ofNat (endOffset file offsets - o.toNat)).toNat ≤ _
      rw [toNat_sized h]
      omega
    · exact ih h.tail block hblock

theorem length_sizedBlocks : (sizedBlocks file offsets).length = offsets.length := by
  induction offsets with
  | nil => rfl
  | cons o offsets ih => rw [sizedBlocks, List.length_cons, List.length_cons, ih]

/-- **The finalized object** of a parsed file that has blocks. -/
theorem finalized_eq (h : Parsed file offsets) (hne : offsets ≠ []) :
    finalized file offsets = (true, {
      originalBlocksMap := sizedBlocks file offsets
      originalHeaderBlock := ⟨0, UInt64.ofNat (endOffset file offsets)⟩
      originalBlocksMapLocked := true }) := by
  have hadd := addAll_eq offsets {} rfl
  have hsizes := setSizes_eq h
  cases offsets with
  | nil => exact absurd rfl hne
  | cons o offsets =>
    have hadd' : addAll 0 (o :: offsets) {} =
        { originalBlocksMap := unsizedBlocks (o :: offsets) } := hadd
    rw [unsizedBlocks, List.map_cons] at hsizes hadd'
    rw [finalized, hadd', DiveBlockData.finalizeOriginalBlocksMapSizes]
    simp only [Bool.false_eq_true, if_false, hsizes]
    congr
    exact UInt64.ofNat_toNat.symm

/-! ## The law -/

variable {d : DiveBlockData} {m : Modifications} {neg pos : ℕ → List Int32}

/-- The lists hold, for each block up to number `n`, the secondary ids of its modifications. -/
structure Lists (n : ℕ) (m : Modifications) (neg pos : ℕ → List Int32) : Prop where
  neg : ∀ i < n, Ascending (fun q => q < 0 ∧ (m (UInt32.ofNat i) q).isSome) (neg i)
  pos : ∀ i < n, Ascending (fun q => 0 < q ∧ (m (UInt32.ofNat i) q).isSome) (pos i)

/-- **The blocks in order** make up the expected bytes. -/
theorem flatMap_blocksInOrder (h : Parsed file offsets) (hm : d.lookup = m) {i n : ℕ}
    (hn : n = i + offsets.length) (hlists : Lists n m neg pos) :
    (d.blocksInOrder i (sizedBlocks file offsets)).flatMap (content file blobs) =
      expectedFrom file m blobs neg pos i offsets := by
  have hcontent : ∀ b : Option (Option BlobPtr),
      content file blobs (b.elim none DiveBlockData.written) = (b.getD none).elim [] blobs := by
    rintro (_ | _ | b) <;> rfl
  have hself : ∀ (block : DiveOriginalBlock) (b : Option (Option BlobPtr)),
      content file blobs (b.elim (some (.original block)) DiveBlockData.written) =
        match b with
        | some b => b.elim [] blobs
        | none => (file.bytes.drop block.offset.toNat).take block.size.toNat := by
    rintro block (_ | _ | b) <;> rfl
  induction offsets generalizing i with
  | nil => rfl
  | cons o offsets ih =>
    rw [List.length_cons] at hn
    have hi : i < n := by omega
    rw [sizedBlocks, DiveBlockData.blocksInOrder, List.flatMap_append, ih h.tail (by omega),
      DiveBlockData.toList_blocksToWrite (m (UInt32.ofNat i)) (by rw [hm]) (hlists.neg i hi)
        (hlists.pos i hi), expectedFrom]
    simp only [List.flatMap_append, List.flatMap_cons, List.flatMap_map, hcontent, hself,
      toNat_sized h, List.append_assoc]

theorem mem_blocksInOrder (hm : d.lookup = m) {i : ℕ} {blocks : List DiveOriginalBlock}
    {b : DiveModificationBlock} : some (.modification b) ∈ d.blocksInOrder i blocks ↔
      ∃ j < blocks.length, ∃ q, m (UInt32.ofNat (i + j)) q = some (some b.blobPtr) := by
  induction blocks generalizing i with
  | nil => simp [DiveBlockData.blocksInOrder]
  | cons block blocks ih =>
    have hhead : some (.modification b) ∈ (d.blocksToWrite i block).toList.map Prod.snd ↔
        ∃ q, m (UInt32.ofNat i) q = some (some b.blobPtr) := by
      have hwritten : ∀ x : Option BlobPtr,
          DiveBlockData.written x = some (.modification b) ↔ x = some b.blobPtr := by
        rintro (_ | x)
        · simp [DiveBlockData.written]
        · constructor
          · rintro ⟨⟩
            rfl
          · rintro ⟨⟩
            rfl
      have hq : ∀ q, (d.blocksToWrite i block)[q]? = some (some (.modification b)) ↔
          m (UInt32.ofNat i) q = some (some b.blobPtr) := by
        intro q
        rw [DiveBlockData.getElem?_blocksToWrite (m (UInt32.ofNat i)) (by rw [hm])]
        by_cases h0 : q = 0
        · subst h0
          rcases m (UInt32.ofNat i) 0 with _ | x
          · simp
          · simp [hwritten]
        · rcases m (UInt32.ofNat i) q with _ | x
          · simp [h0]
          · simp [h0, hwritten]
      simp only [List.mem_map, Prod.exists, exists_eq_right,
        Std.TreeMap.mem_toList_iff_getElem?_eq_some, hq]
    rw [DiveBlockData.blocksInOrder, List.mem_append, hhead, ih]
    constructor
    · rintro (hq | ⟨j, hj, hq⟩)
      · exact ⟨0, Nat.succ_pos _, hq⟩
      · refine ⟨j + 1, Nat.succ_lt_succ hj, ?_⟩
        rwa [Nat.add_right_comm] at hq
    · rintro ⟨j, hj, hq⟩
      cases j with
      | zero => exact Or.inl hq
      | succ j =>
        refine Or.inr ⟨j, Nat.lt_of_succ_lt_succ hj, ?_⟩
        rwa [Nat.add_right_comm]

theorem mem_of_mem_blocksInOrder {i : ℕ} {blocks : List DiveOriginalBlock}
    {block : DiveOriginalBlock} (h : some (.original block) ∈ d.blocksInOrder i blocks) :
    block ∈ blocks := by
  induction blocks generalizing i with
  | nil => simp [DiveBlockData.blocksInOrder] at h
  | cons block' blocks ih =>
    rcases List.mem_append.mp h with h | h
    · simp only [List.mem_map, Prod.exists, exists_eq_right,
        Std.TreeMap.mem_toList_iff_getElem?_eq_some] at h
      obtain ⟨q, hq⟩ := h
      rw [DiveBlockData.getElem?_blocksToWrite _ rfl] at hq
      have hne : ∀ x : Option BlobPtr, DiveBlockData.written x ≠ some (.original block) := by
        rintro (_ | x) <;> simp [DiveBlockData.written]
      split_ifs at hq
      · cases h0 : d.lookup (UInt32.ofNat i) 0 with
        | none =>
          rw [h0] at hq
          simp only [Option.elim, Option.some.injEq, IDiveBlock.original.injEq] at hq
          exact hq ▸ List.mem_cons_self
        | some x =>
          rw [h0] at hq
          exact absurd (Option.some.inj hq) (hne x)
      · obtain ⟨x, -, hx⟩ := Option.map_eq_some_iff.mp hq
        exact absurd hx (hne x)
    · exact List.mem_cons_of_mem _ (ih h)

theorem inForce_lt {n : ℕ} {edits : List Edit} {p : UInt32} {q : Int32}
    (h : (inForce n edits p q).isSome) : p.toNat < n := by
  have key : ∀ (edits : List Edit) (m : Modifications), (∀ p q, (m p q).isSome → p.toNat < n) →
      (edits.foldl (Modifications.edit n) m p q).isSome → p.toNat < n := by
    intro edits
    induction edits with
    | nil => exact fun m hm => hm p q
    | cons e edits ih =>
      intro m hm
      rw [List.foldl_cons]
      apply ih
      intro p' q' hs
      cases e with
      | add p₀ q₀ b =>
        simp only [Modifications.edit] at hs
        split_ifs at hs with hc
        · exact hm p' q' hs
        · rw [Modifications.set] at hs
          split_ifs at hs with heq
          · rw [heq.1]
            omega
          · exact hm p' q' hs
      | remove p₀ q₀ =>
        simp only [Modifications.edit, Modifications.set] at hs
        split_ifs at hs with heq
        · simp at hs
        · exact hm p' q' hs
      | clear => simp [Modifications.edit] at hs
  exact key edits _ (by simp) h

theorem expectedFrom_none (h : Parsed file offsets) (hm : ∀ p q, m p q = none) {i n : ℕ}
    (hn : n = i + offsets.length) (hlists : Lists n m neg pos) :
    expectedFrom file m blobs neg pos i offsets = file.bytes.drop (endOffset file offsets) := by
  induction offsets generalizing i with
  | nil => simp [expectedFrom, endOffset]
  | cons o offsets ih =>
    rw [List.length_cons] at hn
    have hnil : neg i = [] ∧ pos i = [] := by
      have hneg := (hlists.neg i (by omega)).mem
      have hpos := (hlists.pos i (by omega)).mem
      simp only [hm, Option.isSome_none, Bool.false_eq_true, and_false, iff_false] at hneg hpos
      exact ⟨List.eq_nil_iff_forall_not_mem.mpr hneg, List.eq_nil_iff_forall_not_mem.mpr hpos⟩
    have hle := h.le_endOffset.1
    rw [expectedFrom, ih h.tail (by omega), hnil.1, hnil.2, hm]
    simp only [List.flatMap_nil, List.nil_append, List.append_nil]
    have hsplit : endOffset file offsets = o.toNat + (endOffset file offsets - o.toNat) := by omega
    conv_lhs => rw [hsplit, ← List.drop_drop]
    rw [Nat.add_sub_cancel_left, List.take_append_drop]
    rfl

theorem endOffset_le (h : Parsed file offsets) : endOffset file offsets ≤ file.bytes.length ∧
    (UInt64.ofNat (endOffset file offsets)).toNat = endOffset file offsets := by
  have hle : endOffset file offsets ≤ file.bytes.length := by
    cases offsets with
    | nil => exact le_refl _
    | cons o offsets => exact h.inFile o List.mem_cons_self
  have := file.length_lt
  rw [UInt64.toNat_ofNat', Nat.mod_eq_of_lt (by omega)]
  exact ⟨hle, rfl⟩

theorem content_header (h : Parsed file offsets) : content file blobs (some (.original
    ⟨0, UInt64.ofNat (endOffset file offsets)⟩)) = file.bytes.take (endOffset file offsets) := by
  show (file.bytes.drop 0).take (UInt64.ofNat (endOffset file offsets)).toNat = _
  rw [(endOffset_le h).2, List.drop_zero]

theorem writeGFXRFile_eq (h : Parsed file offsets) (hlt : offsets.length < 2 ^ 32)
    (hlocked : d.originalBlocksMapLocked = true)
    (hheader : d.originalHeaderBlock = ⟨0, UInt64.ofNat (endOffset file offsets)⟩)
    (hmap : d.originalBlocksMap = sizedBlocks file offsets) : ∃ ok out,
      d.writeGFXRFile file blobs = some (ok, out) ∧
        (ok = true ↔ Filled blobs (d.blocksInOrder 0 (sizedBlocks file offsets))) ∧
        (ok = true → out = file.bytes.take (endOffset file offsets) ++
          (d.blocksInOrder 0 (sizedBlocks file offsets)).flatMap (content file blobs)) := by
  have hend := endOffset_le h
  have hin : InFile file ⟨0, UInt64.ofNat (endOffset file offsets)⟩ := by
    show (0 : UInt64).toNat + (UInt64.ofNat (endOffset file offsets)).toNat ≤ _
    rw [hend.2]
    exact (Nat.zero_add _).trans_le hend.1
  obtain ⟨hh1, hh2⟩ := @visitOriginal_eq file blobs {} _ hin
  obtain ⟨w, hw⟩ : ∃ w, ((writerBlockVisitor file blobs).visitOriginal
      ⟨0, UInt64.ofNat (endOffset file offsets)⟩ {}).2 = w := ⟨_, rfl⟩
  rw [content_header h, hw] at hh2
  obtain ⟨hok, hout⟩ := @acceptAll_writer file blobs w _ fun block hb =>
    inFile_sizedBlocks h block (@mem_of_mem_blocksInOrder d 0 _ block hb)
  obtain ⟨r, hr⟩ : ∃ r, acceptAll (writerBlockVisitor file blobs)
      (d.blocksInOrder 0 (sizedBlocks file offsets)) w = r := ⟨_, rfl⟩
  rw [hr] at hok hout
  refine ⟨r.1, r.2.newFile, ?_, hok, fun htrue => ?_⟩
  · have hlen := @length_sizedBlocks file offsets
    have htake : (sizedBlocks file offsets).take (2 ^ 32) = sizedBlocks file offsets :=
      List.take_of_length_le (by omega)
    have hnot : ¬ 2 ^ 32 ≤ (sizedBlocks file offsets).length := by omega
    rw [DiveBlockData.writeGFXRFile, hlocked, hheader]
    simp only [Bool.not_true, Bool.false_eq_true, if_false, hh1, if_true, hw,
      DiveBlockData.traverseBlocks, hmap, htake, DiveBlockData.traverseFrom_eq, hr]
    rw [decide_eq_false hnot, Bool.and_false]
    rfl
  · rw [hout (hok.mp htrue), hh2]
    rfl

/-- There are such lists for the modifications that a map holds. -/
theorem exists_lists (n : ℕ) (d : DiveBlockData) : ∃ neg pos, Lists n d.lookup neg pos := by
  have hasc : ∀ (P : Int32 → Bool) (i : ℕ),
      Ascending (fun q => P q = true ∧ (d.lookup (UInt32.ofNat i) q).isSome)
        ((d.modificationsOf (UInt32.ofNat i)).keys.filter P) := by
    intro P i
    constructor
    · exact (Std.TreeMap.ordered_keys.imp fun h => Std.compare_eq_lt.mp h).filter P
    · intro q
      rw [List.mem_filter, Std.TreeMap.mem_keys, Std.TreeMap.mem_iff_isSome_getElem?, and_comm,
        DiveBlockData.lookup, Option.isSome_map]
  refine ⟨fun i => (d.modificationsOf (UInt32.ofNat i)).keys.filter fun q => q < 0,
    fun i => (d.modificationsOf (UInt32.ofNat i)).keys.filter fun q => 0 < q,
    fun i _ => ?_, fun i _ => ?_⟩
  · simpa using hasc (fun q => q < 0) i
  · simpa using hasc (fun q => 0 < q) i

/-- **The edited object**: the blocks of the parsed file, and the modifications in force. -/
theorem edited_finalized (h : Parsed file offsets) (hfin : (finalized file offsets).1 = true)
    (edits : List Edit) :
    ((finalized file offsets).2.edited edits).lookup = inForce offsets.length edits ∧
      ((finalized file offsets).2.edited edits).originalBlocksMap = sizedBlocks file offsets ∧
      ((finalized file offsets).2.edited edits).originalHeaderBlock =
        ⟨0, UInt64.ofNat (endOffset file offsets)⟩ ∧
      ((finalized file offsets).2.edited edits).originalBlocksMapLocked = true := by
  have hne : offsets ≠ [] := by
    rintro rfl
    cases hfin
  obtain ⟨d, hd⟩ : ∃ d, (finalized file offsets).2 = d := ⟨_, rfl⟩
  have hfields := congrArg Prod.snd (finalized_eq h hne)
  rw [hd] at hfields ⊢
  have hlen : d.originalBlocksMap.length = offsets.length := by
    rw [hfields]
    exact length_sizedBlocks
  have hlookup : d.lookup = fun _ _ => none := by
    rw [hfields]
    funext p q
    simp [DiveBlockData.lookup, DiveBlockData.modificationsOf]
  obtain ⟨hm, hmap, hheader, hlocked⟩ := DiveBlockData.lookup_edited (d := d)
    (by rw [hfields]) edits
  rw [hlen, hlookup] at hm
  refine ⟨hm, ?_, ?_, hlocked⟩
  · rw [hmap, hfields]
  · rw [hheader, hfields]

/-- **The edit-and-write law.** After any history of edits of a parsed and finalized file,
`WriteGFXRFile` succeeds exactly when the modifications in force have data, and then writes the
header, and for each block the modifications before it, what stands for it, and the modifications
after it. Without modifications it writes the file again. -/
theorem writeGFXRFile_edited (file : DiskFile) (offsets : List UInt64) (h : Parsed file offsets)
    (hfin : (finalized file offsets).1 = true) (hlt : offsets.length < 2 ^ 32)
    (edits : List Edit) (blobs : BlobPtr → List UInt8) (neg pos : ℕ → List Int32)
    (hlists : Lists offsets.length (inForce offsets.length edits) neg pos) :
    ∃ ok out, ((finalized file offsets).2.edited edits).writeGFXRFile file blobs = some (ok, out) ∧
      (ok = true ↔ ∀ p q r, inForce offsets.length edits p q = some (some r) → blobs r ≠ []) ∧
      (ok = true →
        out = expectedFile file offsets (inForce offsets.length edits) blobs neg pos) ∧
      ((∀ p q, inForce offsets.length edits p q = none) → ok = true ∧ out = file.bytes) := by
  obtain ⟨hm, hmap, hheader, hlocked⟩ := edited_finalized h hfin edits
  obtain ⟨d, hd⟩ : ∃ d, (finalized file offsets).2 = d := ⟨_, rfl⟩
  rw [hd] at hm hmap hheader hlocked ⊢
  have hfilled : Filled blobs ((d.edited edits).blocksInOrder 0 (sizedBlocks file offsets)) ↔
      ∀ p q r, inForce offsets.length edits p q = some (some r) → blobs r ≠ [] := by
    unfold Filled
    simp only [mem_blocksInOrder hm, length_sizedBlocks, Nat.zero_add]
    constructor
    · intro hf p q r hr
      refine hf ⟨r⟩ ⟨p.toNat, inForce_lt (q := q) (by rw [hr]; rfl), q, ?_⟩
      rw [UInt32.ofNat_toNat, hr]
    · rintro hf ⟨r⟩ ⟨j, -, q, hq⟩
      exact hf _ q r hq
  obtain ⟨ok, out, hwrite, hok, hout⟩ := @writeGFXRFile_eq file offsets blobs _ h hlt hlocked
    hheader hmap
  rw [flatMap_blocksInOrder h hm (Nat.zero_add _).symm hlists] at hout
  refine ⟨ok, out, hwrite, hok.trans hfilled, hout, fun hnone => ?_⟩
  have htrue : ok = true := by
    refine (hok.trans hfilled).mpr fun p q r hr => ?_
    rw [hnone] at hr
    cases hr
  refine ⟨htrue, ?_⟩
  rw [hout htrue, expectedFrom_none h hnone (Nat.zero_add _).symm hlists, List.take_append_drop]

/-- A header byte and two blocks. -/
def twoBlocks : DiskFile := ⟨[10, 20, 21, 30], by decide⟩

theorem parsed_twoBlocks : Parsed twoBlocks [1, 3] := by
  constructor
  · simp
  · simp [twoBlocks]

theorem finalized_twoBlocks : (finalized twoBlocks [1, 3]).1 = true := by decide +kernel

/-- The second block gets a modification before it, and is deleted. -/
def someEdits : List Edit := [.add 1 0 none, .add 1 (-3) (some 0), .add 0 1 none]

theorem inForce_someEdits : inForce 2 someEdits = fun p q =>
    if p = 1 ∧ q = -3 then some (some 0) else if p = 1 ∧ q = 0 then some none else none := by
  simp [inForce, someEdits, Modifications.edit, Modifications.set]
  rfl

theorem lists_someEdits : Lists 2 (inForce 2 someEdits)
    (fun i => if i = 1 then [-3] else []) (fun _ => []) := by
  have hcases : ∀ i < 2, i = 0 ∨ i = 1 := by
    intro i hi
    omega
  rw [inForce_someEdits]
  constructor <;> intro i hi <;> rcases hcases i hi with rfl | rfl
  · exact ⟨by simp, fun q => by simp⟩
  · refine ⟨by simp, fun q => ?_⟩
    by_cases h3 : q = -3
    · rw [h3]
      decide
    · by_cases h0 : q = 0
      · rw [h0]
        decide
      · simp [h3, h0]
  · exact ⟨by simp, fun q => by simp⟩
  · refine ⟨by simp, fun q => ?_⟩
    by_cases h3 : q = -3
    · rw [h3]
      decide
    · by_cases h0 : q = 0
      · rw [h0]
        decide
      · simp [h3, h0]

theorem writeGFXRFile_someEdits : ∃ ok out, ((finalized twoBlocks [1, 3]).2.edited
    someEdits).writeGFXRFile twoBlocks (fun _ => [7, 8]) = some (ok, out) ∧
      ok = true ∧ out = [10, 20, 21, 7, 8] := by
  obtain ⟨ok, out, hwrite, hok, hout, -⟩ := writeGFXRFile_edited twoBlocks [1, 3]
    parsed_twoBlocks finalized_twoBlocks (by decide) someEdits (fun _ => [7, 8]) _ _ lists_someEdits
  have htrue : ok = true := by
    rw [hok]
    exact fun _ _ _ _ => List.cons_ne_nil _ _
  refine ⟨ok, out, hwrite, htrue, ?_⟩
  rw [hout htrue]
  show expectedFile twoBlocks [1, 3] (inForce 2 someEdits) _ _ _ = _
  rw [inForce_someEdits]
  rfl

/-- **An empty buffer** before the first block: the traversal stops after the header. -/
theorem emptyBuffer_notWritten :
    ((finalized twoBlocks [1, 3]).2.edited [.add 0 (-1) (some 0)]).writeGFXRFile twoBlocks
      (fun _ => []) = some (false, [10]) := by
  decide +kernel

end Dive
