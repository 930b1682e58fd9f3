import Dive.Rd.Reads

/-!
# Truncated files

* `ReadInFull`: an iteration got all the bytes it asked for, and asked for all of the payload;
  `memory` and `ibs`: then what it captured are bytes of the file.
* `Supplied`: the file still holds whole headers and all that the handler of the block reads, or is
  exactly at its end.
* **`loadsInFull_iff`**: a load that succeeds read everything in full exactly when this is so before
  each of its iterations.
-/

namespace Dive

namespace Pm4CaptureData

open Machine LoadState

variable {E : LoadEnv} {s t u v : LoadState}

/-- The bytes asked for in calls for the payload. -/
def payloadAsked (reads : List ReadCall) : ℕ :=
  ((reads.filter fun c => !c.ofHeader).map (·.nbytes)).sum

/-- The IBs of all submits. -/
def LoadState.ibs (s : LoadState) : List IndirectBufferInfo := s.submits.flatMap (·.ibs)

/-- The address and the size that the payload `w` of an address block holds. -/
def addressAndSize (w : List UInt8) : UInt64 × UInt32 :=
  (if 8 < w.length then (dwordAt w 0).toUInt64 ||| (dwordAt w 8).toUInt64 <<< 32
    else (dwordAt w 0).toUInt64, dwordAt w 4)

/-- The iteration from `u` to `v` got every byte it asked for, and asked for the whole payload of
its block. What it captured are bytes of the file. -/
structure ReadInFull (u v : LoadState) : Prop where
  full : ∀ c ∈ v.reads, c.Full
  payload : v.dataSize.toNat ≤ payloadAsked v.reads
  memory : ∀ b ∈ v.memory.memoryBlocks, b ∈ u.memory.memoryBlocks ∨ b.data <:+: u.file.items
  ibs : ∀ ib ∈ v.ibs, ib ∈ u.ibs ∨
    ∃ w, w <:+: u.file.items ∧ 8 ≤ w.length ∧ (ib.vaAddr, ib.sizeInDwords) = addressAndSize w

/-- Every iteration of the load read in full, and the last header read was at the end. -/
def LoadsInFull (E : LoadEnv) (s : LoadState) : Prop :=
  ∀ u, Reaches (iteration E) s u →
    (∀ v, iteration E u = .ok v → ReadInFull u v) ∧
      ∀ v, iteration E u = .error (.returns .kSuccess v) → v.reads = [⟨true, 8, 0⟩]

/-- The handler of a block with `dataSize` bytes of payload asks for all of them. -/
def Covered (s : LoadState) (blockType dataSize : UInt32) : Prop :=
  match sectType blockType with
  | some .rdGpuaddr | some .rdCmdstreamAddr => dataSize ≤ 12
  | some .rdChipId => s.needsChipId = true ∨ dataSize = 0
  | some _ => True
  | none => dataSize = 0

/-- The file holds all that the iteration from `s` reads: nothing at all, or whole headers up to
that of a block whose handler asks for the whole payload, and what it asks for. -/
def Supplied (s : LoadState) : Prop :=
  s.file.items = [] ∧ s.file.stop = none ∨
    ∃ ty sz rest, HeaderAt s.file.items ty sz rest ∧ Covered s ty sz ∧
      (requests s ty sz).sum ≤ rest.length

theorem covered_iff {ty sz : UInt32} : Covered s ty sz ↔ sz.toNat ≤ (requests s ty sz).sum := by
  have hzero : sz = 0 ↔ sz.toNat ≤ 0 := by
    rw [Nat.le_zero, ← UInt32.toNat_inj]
    rfl
  have hdwords : sz ≤ 12 ↔ sz.toNat ≤ (dwordReads sz).sum := by
    unfold dwordReads
    rw [UInt32.le_iff_toNat_le]
    split_ifs with h
    · rfl
    · rw [UInt32.lt_iff_toNat_lt, show (8 : UInt32).toNat = 8 from rfl] at h
      simp
      omega
  unfold Covered requests
  cases sectType ty with
  | none => exact hzero
  | some ty =>
    cases ty with
    | rdGpuaddr | rdCmdstreamAddr => exact hdwords
    | rdChipId =>
      by_cases h : s.needsChipId = true
      · simp [h]
      · simp [h, hzero]
    | _ => simp

/-! ## What a block captures -/

theorem dwordAt_drop (l : List UInt8) (k i : ℕ) : dwordAt (l.drop k) i = dwordAt l (k + i) := by
  have hbyte : ∀ j, Buffer.zero.overwrite (l.drop k) j = Buffer.zero.overwrite l (k + j) := by
    intro j
    simp [Buffer.overwrite, Buffer.zero]
  unfold dwordAt Buffer.u32
  rw [hbyte, hbyte, hbyte, hbyte]
  rfl

theorem u32_readDword {d d' : Buffer} (h : readDword s d = .ok (d', v))
    (hlen : 4 ≤ s.file.items.length) : d'.u32 0 = dwordAt s.file.items 0 := by
  obtain ⟨-, rfl, -⟩ := readDword_ok h
  have hitems : (s.read 4).items = s.file.items.take 4 := FileReader.read_items
  rw [hitems, u32_overwrite _ (by rw [List.length_take]; omega), dwordAt_take (by omega)]

theorem addressAndSize_of_full {blockSize z : UInt32} {a : UInt64}
    (h : loadGpuAddressAndSize s blockSize = .ok (a, z, v))
    (hlen : (dwordReads blockSize).sum ≤ s.file.items.length) :
    (a, z) = addressAndSize (s.file.items.take (dwordReads blockSize).sum) := by
  have hsum : 8 ≤ (dwordReads blockSize).sum := by
    unfold dwordReads
    split_ifs <;> decide
  unfold loadGpuAddressAndSize at h
  obtain ⟨⟨d₁, s₁⟩, h₁, h⟩ := bind_eq_ok.mp h
  obtain ⟨⟨d₂, s₂⟩, h₂, h⟩ := bind_eq_ok.mp h
  have hd₁ := u32_readDword h₁ (by omega)
  obtain ⟨-, -, rfl⟩ := readDword_ok h₁
  have hr₁ : (s.afterRead false 4).file.items = s.file.items.drop 4 :=
    (FileReader.read_rest (Or.inl (by omega))).1
  have hl₁ : (s.afterRead false 4).file.items.length = s.file.items.length - 4 := by
    rw [hr₁, List.length_drop]
  have hd₂ := u32_readDword h₂ (by omega)
  obtain ⟨-, -, rfl⟩ := readDword_ok h₂
  have hr₂ : ((s.afterRead false 4).afterRead false 4).file.items = s.file.items.drop 8 := by
    rw [afterRead_file, LoadState.read, (FileReader.read_rest (Or.inl (by omega))).1, hr₁, List.drop_drop]
  rw [hr₁, dwordAt_drop] at hd₂
  unfold addressAndSize
  rw [List.length_take, Nat.min_eq_left hlen]
  by_cases hsize : 8 < blockSize
  · have hr : dwordReads blockSize = [4, 4, 4] := if_pos hsize
    rw [hr, show [4, 4, 4].sum = 12 from rfl] at hlen ⊢
    simp only [if_pos hsize] at h
    obtain ⟨⟨d₃, s₃⟩, h₃, h⟩ := bind_eq_ok.mp h
    have hd₃ := u32_readDword h₃ (by rw [hr₂, List.length_drop]; omega)
    rw [hr₂, dwordAt_drop] at hd₃
    cases h
    rw [hd₁, hd₂, hd₃, if_pos (by decide), dwordAt_take (by omega), dwordAt_take (by omega),
      dwordAt_take (by omega)]
  · have hr : dwordReads blockSize = [4, 4] := if_neg hsize
    rw [hr, show [4, 4].sum = 8 from rfl] at hlen ⊢
    simp only [if_neg hsize] at h
    cases h
    rw [hd₁, hd₂, if_neg (by decide), dwordAt_take (by omega), dwordAt_take (by omega)]

theorem memory_of_full (h : loadBlock E s = .ok v)
    (hlen : (requests s s.blockType s.dataSize).sum ≤ s.file.items.length) :
    ∀ b ∈ v.memory.memoryBlocks, b ∈ s.memory.memoryBlocks ∨ b.data <:+: s.file.items := by
  intro b hb
  rcases (loadBlock_effect h).memory with hm | ⟨hty, submitIndex, hm⟩
  · rw [hm] at hb
    exact Or.inl hb
  · rw [hm] at hb
    simp only [requests, hty, List.sum_singleton] at hlen
    rcases List.mem_append.mp hb with hb | hb
    · exact Or.inl hb
    · right
      have hitems : (s.read s.dataSize.toNat).items = s.file.items.take s.dataSize.toNat :=
        FileReader.read_items
      have hdata : b.data = s.file.items.take s.dataSize.toNat := by
        rw [List.mem_singleton.mp hb, hitems]
        exact Buffer.map_range_overwrite _ (by rw [List.length_take]; omega)
      rw [hdata]
      exact (List.take_prefix _ _).isInfix

theorem ibs_of_full (h : loadBlock E s = .ok v)
    (hlen : (requests s s.blockType s.dataSize).sum ≤ s.file.items.length) :
    ∀ ib ∈ v.ibs, ib ∈ s.ibs ∨ ∃ w, w <:+: s.file.items ∧ 8 ≤ w.length ∧
      (ib.vaAddr, ib.sizeInDwords) = addressAndSize w := by
  intro ib hib
  unfold LoadState.ibs at hib ⊢
  rcases (loadBlock_effect h).submits with hs | ⟨hty, w, hw, hs⟩
  · rw [hs] at hib
    exact Or.inl hib
  · rw [hs] at hib
    simp only [requests, hty] at hlen
    obtain ⟨a, z, t, ht, -, hsub⟩ := loadCmdStreamBlockAdreno_ok hw
    have ht' : t.submits = s.submits := by rw [loadGpuAddressAndSize_ok ht, afterReads_submits]
    have hnew : ib ∈ s.submits.flatMap (·.ibs) ∨
        ib = { vaAddr := a, sizeInDwords := z, skip := s.skipCommands } := by
      split_ifs at hsub
      · rw [hsub, ht', List.flatMap_append, List.mem_append] at hib
        simpa using hib
      · obtain ⟨last, hlast, hsub⟩ := hsub
        rw [ht'] at hlast hsub
        have hsplit : s.submits = s.submits.dropLast ++ [last] :=
          (List.dropLast_append_getLast? last hlast).symm
        rw [hsub, List.flatMap_append, List.mem_append] at hib
        rw [hsplit, List.flatMap_append, List.mem_append]
        simpa [SubmitInfo.appendIb, or_assoc] using hib
    rcases hnew with hold | rfl
    · exact Or.inl hold
    · refine Or.inr ⟨s.file.items.take (dwordReads s.dataSize).sum,
        (List.take_prefix _ _).isInfix, ?_, addressAndSize_of_full ht hlen⟩
      rw [List.length_take, Nat.min_eq_left hlen]
      unfold dwordReads
      split_ifs <;> decide

/-! ## One iteration -/

theorem requests_congr (h : t.needsChipId = s.needsChipId) (ty sz : UInt32) :
    requests t ty sz = requests s ty sz := by
  unfold requests
  rw [h]

theorem payloadAsked_afterReads (h : ∀ c ∈ s.reads, c.ofHeader = true) (sizes : List ℕ) :
    payloadAsked (s.afterReads sizes).reads = sizes.sum := by
  have key : ∀ s : LoadState, payloadAsked (s.afterReads sizes).reads =
      payloadAsked s.reads + sizes.sum := by
    induction sizes with
    | nil => exact fun s => rfl
    | cons n sizes ih =>
      intro s
      show payloadAsked ((s.afterRead false n).afterReads sizes).reads = _
      rw [ih, afterRead_reads, List.sum_cons, ← Nat.add_assoc]
      congr 1
      simp [payloadAsked]
  have hnone : payloadAsked s.reads = 0 := by
    have hfilter : s.reads.filter (fun c => !c.ofHeader) = [] := by
      rw [List.filter_eq_nil_iff]
      intro c hc
      simp [h c hc]
    rw [payloadAsked, hfilter]
    rfl
  rw [key, hnone, Nat.zero_add]

theorem HeaderAt.suffix {l rest : List UInt8} {ty sz : UInt32} (h : HeaderAt l ty sz rest) :
    rest <:+ l := by
  induction h with
  | header _ _ => exact List.drop_suffix _ _
  | padding _ _ _ ih => exact ih.trans (List.drop_suffix _ _)

/-- **An iteration that goes on** reads in full exactly when the file holds all that it reads. -/
theorem readInFull_iff (h : iteration E u = .ok v) : ReadInFull u v ↔ Supplied u := by
  obtain ⟨t, ht, hv⟩ := bind_eq_ok.mp h
  obtain ⟨hframe, hheader, -⟩ := nextHeader_frame ht
  have heffect := loadBlock_effect hv
  have hneeds : t.needsChipId = u.needsChipId := by rw [hframe]; rfl
  have hmemory : t.memory = u.memory := by rw [hframe]
  have hibs : t.ibs = u.ibs := by rw [hframe]; rfl
  have hsize : v.dataSize = t.dataSize := by rw [dataSize, heffect.blockInfo]; rfl
  have hfull : (∀ c ∈ v.reads, c.Full) ↔ (∀ c ∈ t.reads, c.Full) ∧
      (requests u t.blockType t.dataSize).sum ≤ t.file.items.length := by
    rw [heffect.reads, afterReads_full_iff, requests_congr hneeds]
  have hasked : payloadAsked v.reads = (requests u t.blockType t.dataSize).sum := by
    rw [heffect.reads, payloadAsked_afterReads hheader, requests_congr hneeds]
  constructor
  · intro hread
    obtain ⟨hheaders, hlen⟩ := hfull.mp hread.full
    obtain ⟨rest, hat, hrest, -⟩ := (nextHeader_full_iff ht).mp hheaders
    refine Or.inr ⟨_, _, rest, hat, covered_iff.mpr ?_, hrest ▸ hlen⟩
    rw [← hasked, ← hsize]
    exact hread.payload
  · rintro (⟨hnil, hstop⟩ | ⟨ty, sz, rest, hat, hcov, hlen⟩)
    · have hret := (nextHeader_ok ht).1
      have hzero : (u.read 8).returned = 0 :=
        (FileReader.read_zero_iff (by decide)).mpr ⟨hnil, hstop⟩
      omega
    · obtain ⟨t', ht', rfl, rfl, hrest, hstop⟩ := nextHeader_of_headerAt hat
      rw [ht, Except.ok.injEq] at ht'
      subst ht'
      have hlen' : (requests u t.blockType t.dataSize).sum ≤ t.file.items.length :=
        hrest.symm ▸ hlen
      have hsuffix : t.file.items <:+ u.file.items := hrest.symm ▸ hat.suffix
      have hlen'' := hlen'
      rw [← requests_congr hneeds] at hlen''
      refine ⟨?_, ?_, ?_, ?_⟩
      · exact hfull.mpr ⟨(nextHeader_full_iff ht).mpr ⟨rest, hat, hrest, hstop⟩, hlen'⟩
      · rw [hasked, hsize]
        exact covered_iff.mp hcov
      · intro b hb
        rw [← hmemory]
        exact (memory_of_full hv hlen'' b hb).imp_right fun hin => hin.trans hsuffix.isInfix
      · intro ib hib
        rw [← hibs]
        refine (ibs_of_full hv hlen'' ib hib).imp_right ?_
        rintro ⟨w, hw, hwlen, hwib⟩
        exact ⟨w, hw.trans hsuffix.isInfix, hwlen, hwib⟩

/-! ## The end of the load -/

/-- The computation does not end the load with success. -/
def Unfinished {α : Type} (x : Except Ending α) : Prop := ∀ v, x ≠ .error (.returns .kSuccess v)

theorem Unfinished.bind {α β : Type} {x : Except Ending α} {f : α → Except Ending β}
    (hx : Unfinished x) (hf : ∀ a, Unfinished (f a)) : Unfinished (x.bind f) := by
  cases x with
  | error e => exact fun v h => hx v (by simpa [Except.bind] using h)
  | ok a => exact hf a

theorem Unfinished.map {α β : Type} {x : Except Ending α} {f : α → β} (hx : Unfinished x) :
    Unfinished (x.map f) := by
  cases x with
  | error e => exact fun v h => hx v (by simpa [Except.map] using h)
  | ok a => exact fun v h => by cases h

theorem unfinished_ok {α : Type} (a : α) : Unfinished (.ok a : Except Ending α) :=
  fun v h => by cases h

theorem unfinished_skipPadding : ∀ (fuel : ℕ) (s : LoadState), Unfinished (skipPadding fuel s)
  | 0, s => by simp [Unfinished, skipPadding]
  | fuel + 1, s => by
    unfold skipPadding
    split_ifs
    · simp [Unfinished]
    · exact unfinished_skipPadding fuel _
    · exact unfinished_ok s

theorem unfinished_readDword (s : LoadState) (d : Buffer) : Unfinished (readDword s d) := by
  unfold readDword Unfinished
  split_ifs <;> simp

theorem unfinished_loadGpuAddressAndSize (s : LoadState) (blockSize : UInt32) :
    Unfinished (loadGpuAddressAndSize s blockSize) := by
  refine (unfinished_readDword _ _).bind fun ⟨d₁, s₁⟩ => ?_
  refine (unfinished_readDword _ _).bind fun ⟨d₂, s₂⟩ => ?_
  simp only
  split_ifs
  · exact (unfinished_readDword _ _).bind fun ⟨d₃, s₃⟩ => unfinished_ok _
  · exact unfinished_ok _

theorem unfinished_loadCmdStreamBlockAdreno (s : LoadState) (blockSize : UInt32)
    (create skip : Bool) : Unfinished (loadCmdStreamBlockAdreno s blockSize create skip) := by
  refine (unfinished_loadGpuAddressAndSize _ _).bind fun ⟨a, z, t⟩ => ?_
  simp only
  split_ifs
  · exact unfinished_ok _
  · split <;> simp [Unfinished]

theorem unfinished_loadBlock (E : LoadEnv) (s : LoadState) : Unfinished (loadBlock E s) := by
  unfold loadBlock
  split
  · exact (unfinished_loadGpuAddressAndSize _ _).map
  · exact (unfinished_loadCmdStreamBlockAdreno _ _ _ _).map
  · unfold loadMemoryBlockAdreno Unfinished
    split_ifs <;> simp
  · unfold loadCmd Unfinished
    split_ifs <;> simp
  -- the types whose payload is only passed over
  iterate 9 exact unfinished_ok _
  · unfold loadGpuId Unfinished
    split <;> simp
  · unfold loadChipId Unfinished
    split_ifs
    · split
      · simp
      · dsimp only
        split_ifs <;> simp
    · simp
  · exact unfinished_ok _

theorem reads_of_success (h : iteration E u = .error (.returns .kSuccess v)) :
    (u.read 8).returned ≤ 0 ∧ v.reads = [⟨true, 8, (u.read 8).returned⟩] := by
  cases ht : nextHeader u with
  | ok t =>
    rw [iteration, ht] at h
    exact absurd h (unfinished_loadBlock E t v)
  | error e =>
    rw [iteration, ht] at h
    have he : e = .returns .kSuccess v := by simpa [Except.bind] using h
    rw [nextHeader_eq] at ht
    split_ifs at ht with hret
    · rw [he] at ht
      exact absurd ht (unfinished_skipPadding _ _ v)
    · refine ⟨not_lt.mp hret, ?_⟩
      rw [Except.error.injEq] at ht
      rw [he] at ht
      unfold finish at ht
      split at ht
      · cases ht
      · cases ht
        rfl

/-- **The iteration that ends the load with success** was at the end of the file exactly when the
file was supplied. -/
theorem ended_iff (h : iteration E u = .error (.returns .kSuccess v)) :
    v.reads = [⟨true, 8, 0⟩] ↔ Supplied u := by
  obtain ⟨hret, hreads⟩ := reads_of_success h
  have hzero : (u.read 8).returned = 0 ↔ u.file.items = [] ∧ u.file.stop = none :=
    FileReader.read_zero_iff (by decide)
  have hiff : v.reads = [⟨true, 8, 0⟩] ↔ (u.read 8).returned = 0 := by
    rw [hreads]
    simp
  rw [hiff, hzero]
  refine ⟨Or.inl, ?_⟩
  rintro (hend | ⟨ty, sz, rest, hat, -, -⟩)
  · exact hend
  · have hfull : (u.read 8).returned = 8 := FileReader.read_full_iff.mpr hat.length
    omega

/-- **A load that succeeds read its file in full** exactly when, before each iteration, the file
was supplied. -/
theorem loadsInFull_iff (h : loadAdrenoRdFile E s = .returns .kSuccess v) :
    LoadsInFull E s ↔ ∀ u, Reaches (iteration E) s u → Supplied u := by
  have hstop := stopsWith_loadAdrenoRdFile E s
  rw [h] at hstop
  refine forall₂_congr fun u hu => ?_
  cases hi : iteration E u with
  | ok w => simp [readInFull_iff hi]
  | error e =>
    obtain rfl : e = .returns .kSuccess v := StopsWith.unique ⟨u, hu, hi⟩ hstop
    simp [ended_iff hi]

/-- An address block for four bytes at 0x1000, and a block with these four bytes. -/
def capturedBytes : List UInt8 :=
  headerBytes 3 8 ++ dwordBytes 0x1000 ++ dwordBytes 4 ++ headerBytes 12 4 ++ [1, 2, 3, 4]

/-- What the load returns. -/
def Ending.result : Ending → Option LoadResult
  | .returns result _ => some result
  | .undefined => none

theorem Ending.eq_of_result {e : Ending} {r : LoadResult} (h : e.result = some r) :
    ∃ v, e = .returns r v := by
  cases e with
  | returns result v =>
    obtain rfl : result = r := by simpa [Ending.result] using h
    exact ⟨v, rfl⟩
  | undefined => cases h

theorem loadsInFull_capturedBytes : ∃ v,
    loadAdrenoRdFile plainEnv (loadOf capturedBytes) = .returns .kSuccess v ∧
      (LoadsInFull plainEnv (loadOf capturedBytes) ↔
        ∀ u, Reaches (iteration plainEnv) (loadOf capturedBytes) u → Supplied u) := by
  obtain ⟨v, hv⟩ := Ending.eq_of_result (show (loadAdrenoRdFile plainEnv
    (loadOf capturedBytes)).result = some .kSuccess by decide)
  exact ⟨v, hv, loadsInFull_iff hv⟩

theorem LoadsInFull.reads (h : LoadsInFull E s) {n : ℕ}
    (hv : runFor (iteration E) (n + 1) s = .ok v) : ∀ c ∈ v.reads, c.Full := by
  rcases Relation.ReflTransGen.cases_tail (reaches_of_runFor hv) with rfl | ⟨u, hu, huv⟩
  · have := size_of_runFor hv
    omega
  · exact ((h u hu).1 v huv).full

/-- **A truncated file is accepted**: half of the last payload is missing. -/
theorem truncated_accepted : ∃ v,
    loadAdrenoRdFile plainEnv (loadOf (capturedBytes.take 26)) = .returns .kSuccess v ∧
      ¬ LoadsInFull plainEnv (loadOf (capturedBytes.take 26)) := by
  obtain ⟨v, hv⟩ := Ending.eq_of_result (show (loadAdrenoRdFile plainEnv
    (loadOf (capturedBytes.take 26))).result = some .kSuccess by decide)
  refine ⟨v, hv, fun h => ?_⟩
  obtain ⟨u, hu, hreads⟩ : ∃ u, runFor (iteration plainEnv) 2 (loadOf (capturedBytes.take 26)) =
      .ok u ∧ u.reads = [⟨true, 8, 8⟩, ⟨false, 4, 2⟩] := ⟨_, rfl, by decide⟩
  have hfull := h.reads hu ⟨false, 4, 2⟩ (by rw [hreads]; simp)
  cases hfull

end Pm4CaptureData

end Dive
