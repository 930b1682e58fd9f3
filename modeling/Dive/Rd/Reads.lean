import Dive.Lib.Bytes
import Dive.Rd.Load

/-!
# What an iteration reads

* `requests`: how many bytes the handler of a block asks for, call by call; `BlockEffect`: these
  are the calls it makes when it does not end the load.
* `HeaderAt`: a whole header after whole paddings; **`nextHeader_full_iff`**: what it means that
  every header was read in full.
* **`load_halts`**: the load ends on every file. `loadAdrenoRdFile` is its result.
-/

namespace Dive

namespace Pm4CaptureData

open Machine LoadState

variable {E : LoadEnv} {s t u v : LoadState} {n : ℕ} {ofHeader : Bool}

/-! ## Dwords -/

/-- The dword at byte `i` of a list. -/
def dwordAt (l : List UInt8) (i : ℕ) : UInt32 := (Buffer.zero.overwrite l).u32 i

theorem u32_overwrite (b : Buffer) {l : List UInt8} {i : ℕ} (h : i + 4 ≤ l.length) :
    (b.overwrite l).u32 i = dwordAt l i := by
  have hbyte : ∀ j < l.length, b.overwrite l j = Buffer.zero.overwrite l j := by
    intro j hj
    simp [Buffer.overwrite, List.getElem?_eq_getElem hj]
  unfold dwordAt Buffer.u32
  rw [hbyte i (by omega), hbyte (i + 1) (by omega), hbyte (i + 2) (by omega),
    hbyte (i + 3) (by omega)]

theorem dwordAt_take {l : List UInt8} {i : ℕ} (h : i + 4 ≤ n) :
    dwordAt (l.take n) i = dwordAt l i := by
  have hbyte : ∀ j < n, Buffer.zero.overwrite (l.take n) j = Buffer.zero.overwrite l j := by
    intro j hj
    simp [Buffer.overwrite, hj]
  unfold dwordAt Buffer.u32
  rw [hbyte i (by omega), hbyte (i + 1) (by omega), hbyte (i + 2) (by omega),
    hbyte (i + 3) (by omega)]

/-- The header of a block of type `ty` with `sz` bytes of payload. -/
def headerBytes (ty sz : UInt32) : List UInt8 := dwordBytes ty ++ dwordBytes sz

theorem dwordAt_headerBytes (ty sz : UInt32) (l : List UInt8) :
    dwordAt (headerBytes ty sz ++ l) 0 = ty ∧ dwordAt (headerBytes ty sz ++ l) 4 = sz :=
  ⟨UInt32.of_bytes ty, UInt32.of_bytes sz⟩

/-! ## Single reads -/

namespace LoadState

@[simp] theorem afterRead_file : (s.afterRead ofHeader n).file = (s.read n).rest := rfl

@[simp] theorem afterRead_blockInfo : (s.afterRead ofHeader n).blockInfo = s.blockInfo := rfl

@[simp] theorem afterRead_reads : (s.afterRead ofHeader n).reads =
    s.reads ++ [⟨ofHeader, n, (s.read n).returned⟩] := rfl

/-- The state after the payload was read in calls of the sizes given. -/
def afterReads (s : LoadState) (sizes : List ℕ) : LoadState :=
  sizes.foldl (fun s n => s.afterRead false n) s

theorem afterReads_of_stop {sizes : List ℕ} (h : s.file.stop = none) :
    (s.afterReads sizes).file.items = s.file.items.drop sizes.sum ∧
      (s.afterReads sizes).file.stop = none := by
  induction sizes generalizing s with
  | nil => simp [afterReads, h]
  | cons n sizes ih =>
    have hrest := @FileReader.read_rest s.file n (Or.inr h)
    have := @ih (s.afterRead false n) (by rw [afterRead_file, read, hrest.2, h])
    rw [afterRead_file, read, hrest.1, List.drop_drop] at this
    exact this

theorem afterReads_full_iff {sizes : List ℕ} :
    (∀ c ∈ (s.afterReads sizes).reads, c.Full) ↔
      (∀ c ∈ s.reads, c.Full) ∧ sizes.sum ≤ s.file.items.length := by
  induction sizes generalizing s with
  | nil => simp [afterReads]
  | cons n sizes ih =>
    have hcons : s.afterReads (n :: sizes) = (s.afterRead false n).afterReads sizes := rfl
    rw [hcons, ih, afterRead_reads, List.sum_cons]
    simp only [List.mem_append, List.mem_singleton, or_imp, forall_and, forall_eq, and_assoc]
    refine and_congr_right fun _ => ?_
    have hfull : (⟨false, n, (s.read n).returned⟩ : ReadCall).Full ↔ n ≤ s.file.items.length :=
      FileReader.read_full_iff
    rw [hfull]
    constructor
    · rintro ⟨hn, hle⟩
      rw [afterRead_file, read, (FileReader.read_rest (Or.inl hn)).1, List.length_drop] at hle
      omega
    · intro hle
      have hn : n ≤ s.file.items.length := by omega
      refine ⟨hn, ?_⟩
      rw [afterRead_file, read, (FileReader.read_rest (Or.inl hn)).1, List.length_drop]
      omega

@[simp] theorem afterReads_blockInfo (sizes : List ℕ) :
    (s.afterReads sizes).blockInfo = s.blockInfo := by
  induction sizes generalizing s with
  | nil => rfl
  | cons n sizes ih => exact @ih (s.afterRead false n)

@[simp] theorem afterReads_memory (sizes : List ℕ) :
    (s.afterReads sizes).memory = s.memory := by
  induction sizes generalizing s with
  | nil => rfl
  | cons n sizes ih => exact @ih (s.afterRead false n)

@[simp] theorem afterReads_submits (sizes : List ℕ) :
    (s.afterReads sizes).submits = s.submits := by
  induction sizes generalizing s with
  | nil => rfl
  | cons n sizes ih => exact @ih (s.afterRead false n)

theorem afterReads_size_le (sizes : List ℕ) :
    (s.afterReads sizes).file.size ≤ s.file.size := by
  induction sizes generalizing s with
  | nil => exact le_refl _
  | cons n sizes ih =>
    have h := @FileReader.read_size s.file n
    have h' := @ih (s.afterRead false n)
    rw [afterRead_file, read] at h'
    exact h'.trans (by omega)

end LoadState

/-! ## The handlers, when they do not end the load -/

/-- The reads of `LoadGpuAddressAndSize`. -/
def dwordReads (blockSize : UInt32) : List ℕ := if 8 < blockSize then [4, 4, 4] else [4, 4]

/-- The reads of the payload of a block, for the handler of its type. -/
def requests (s : LoadState) (blockType dataSize : UInt32) : List ℕ :=
  match sectType blockType with
  | some .rdGpuaddr | some .rdCmdstreamAddr => dwordReads dataSize
  | some .rdChipId => if s.needsChipId then [dataSize.toNat] else []
  | some _ => [dataSize.toNat]
  | none => []

theorem readDword_ok {d d' : Buffer} (h : readDword s d = .ok (d', v)) :
    (s.read 4).returned ≠ 0 ∧ d' = d.overwrite (s.read 4).items ∧ v = s.afterRead false 4 := by
  unfold readDword at h
  split_ifs at h with h0
  cases h
  exact ⟨h0, rfl, rfl⟩

theorem loadGpuAddressAndSize_ok {blockSize z : UInt32} {a : UInt64}
    (h : loadGpuAddressAndSize s blockSize = .ok (a, z, v)) :
    v = s.afterReads (dwordReads blockSize) := by
  unfold loadGpuAddressAndSize at h
  obtain ⟨⟨d₁, s₁⟩, h₁, h⟩ := bind_eq_ok.mp h
  obtain ⟨⟨d₂, s₂⟩, h₂, h⟩ := bind_eq_ok.mp h
  obtain ⟨-, -, rfl⟩ := readDword_ok h₁
  obtain ⟨-, -, rfl⟩ := readDword_ok h₂
  unfold dwordReads
  split_ifs at h ⊢
  · obtain ⟨⟨d₃, s₃⟩, h₃, h⟩ := bind_eq_ok.mp h
    obtain ⟨-, -, rfl⟩ := readDword_ok h₃
    cases h
    rfl
  · cases h
    rfl

theorem loadCmdStreamBlockAdreno_ok {blockSize : UInt32} {create skip : Bool}
    (h : loadCmdStreamBlockAdreno s blockSize create skip = .ok v) :
    ∃ a z t, loadGpuAddressAndSize s blockSize = .ok (a, z, t) ∧
      v = { t with submits := v.submits } ∧
      (if create then v.submits = t.submits ++
          [⟨.kUniversal, .kUniversal, 0, false, [{ vaAddr := a, sizeInDwords := z, skip := skip }]⟩]
        else ∃ last, t.submits.getLast? = some last ∧ v.submits = t.submits.dropLast ++
          [last.appendIb { vaAddr := a, sizeInDwords := z, skip := skip }]) := by
  unfold loadCmdStreamBlockAdreno at h
  obtain ⟨⟨a, z, t⟩, h₁, h⟩ := bind_eq_ok.mp h
  refine ⟨a, z, t, h₁, ?_⟩
  cases create with
  | true =>
    cases h
    exact ⟨rfl, rfl⟩
  | false =>
    cases hlast : t.submits.getLast? with
    | none =>
      simp only [hlast] at h
      cases h
    | some last =>
      simp only [hlast] at h
      cases h
      exact ⟨rfl, last, rfl, rfl⟩

theorem readLocal_ok {size nbytes : ℕ} {b : Buffer} (h : s.readLocal size nbytes = some (b, v)) :
    (s.read nbytes).items.length ≤ size ∧ v = s.afterRead false nbytes := by
  unfold LoadState.readLocal at h
  split_ifs at h with hle
  cases h
  exact ⟨hle, rfl⟩

/-- What a block does that does not end the load: its reads, and what it captures. -/
structure BlockEffect (E : LoadEnv) (s v : LoadState) : Prop where
  file : v.file = (s.afterReads (requests s s.blockType s.dataSize)).file
  reads : v.reads = (s.afterReads (requests s s.blockType s.dataSize)).reads
  blockInfo : v.blockInfo = s.blockInfo
  memory : v.memory = s.memory ∨ sectType s.blockType = some .rdBufferContents ∧
    ∃ submitIndex, v.memory = s.memory.addMemoryBlock (memoryBlock submitIndex s.curGpuAddr
      s.dataSize ((E.heap s).overwrite (s.read s.dataSize.toNat).items))
  submits : v.submits = s.submits ∨ sectType s.blockType = some .rdCmdstreamAddr ∧
    ∃ w, loadCmdStreamBlockAdreno s s.dataSize s.isNewSubmit s.skipCommands = .ok w ∧
      v.submits = w.submits

/-- **A block that does not end the load**, for every type. -/
theorem loadBlock_effect (h : loadBlock E s = .ok v) : BlockEffect E s v := by
  unfold loadBlock at h
  have hreq : requests s s.blockType s.dataSize = requests s s.blockType s.dataSize := rfl
  conv_rhs at hreq => unfold requests
  cases hty : sectType s.blockType with
  | none =>
    rw [hty] at h hreq
    cases h
    exact ⟨by rw [hreq]; rfl, by rw [hreq]; rfl, rfl, Or.inl rfl, Or.inl rfl⟩
  | some ty =>
    rw [hty] at h hreq
    cases ty with
    | rdGpuaddr =>
      obtain ⟨⟨a, z, t⟩, h₁, rfl⟩ := map_eq_ok.mp h
      rw [loadGpuAddressAndSize_ok h₁]
      refine ⟨by rw [hreq], by rw [hreq], afterReads_blockInfo _, Or.inl ?_, Or.inl ?_⟩
      · exact afterReads_memory _
      · exact afterReads_submits _
    | rdCmdstreamAddr =>
      obtain ⟨w, h₁, rfl⟩ := map_eq_ok.mp h
      obtain ⟨a, z, t, ht, hw, -⟩ := loadCmdStreamBlockAdreno_ok h₁
      have ht' := loadGpuAddressAndSize_ok ht
      refine ⟨?_, ?_, ?_, Or.inl ?_, Or.inr ⟨hty, w, h₁, rfl⟩⟩ <;> rw [hw, ht']
      · rw [hreq]
      · rw [hreq]
      · exact afterReads_blockInfo _
      · exact afterReads_memory _
    | rdBufferContents =>
      simp only [ne_eq, ite_not] at h
      split_ifs at h with hsize
      unfold loadMemoryBlockAdreno at h
      rw [← hsize] at h
      split_ifs at h
      cases h
      exact ⟨by rw [hreq]; rfl, by rw [hreq]; rfl, rfl, Or.inr ⟨hty, _, rfl⟩, Or.inl rfl⟩
    | rdCmd =>
      simp only [loadCmd] at h
      split_ifs at h
      cases h
      exact ⟨by rw [hreq]; rfl, by rw [hreq]; rfl, rfl, Or.inl rfl, Or.inl rfl⟩
    | rdGpuId =>
      simp only [loadGpuId] at h
      split at h
      · cases h
      · next b t hread =>
        obtain ⟨-, rfl⟩ := readLocal_ok hread
        cases h
        exact ⟨by rw [hreq]; rfl, by rw [hreq]; rfl, rfl, Or.inl rfl, Or.inl rfl⟩
    | rdChipId =>
      simp only [loadChipId] at h
      by_cases hneeds : s.needsChipId = true
      · rw [if_pos hneeds] at h
        simp only [if_pos hneeds] at hreq
        split at h
        · cases h
        · next b t hread =>
          obtain ⟨-, rfl⟩ := readLocal_ok hread
          split_ifs at h <;> cases h <;>
            exact ⟨by rw [hreq]; rfl, by rw [hreq]; rfl, rfl, Or.inl rfl, Or.inl rfl⟩
      · rw [if_neg hneeds] at h
        simp only [if_neg hneeds] at hreq
        cases h
        exact ⟨by rw [hreq]; rfl, by rw [hreq]; rfl, rfl, Or.inl rfl, Or.inl rfl⟩
    | _ =>
      cases h
      exact ⟨by rw [hreq]; rfl, by rw [hreq]; rfl, rfl, Or.inl rfl, Or.inl rfl⟩

/-! ## Headers -/

/-- The bytes start with the header of a padding. -/
def PaddingAt (l : List UInt8) : Prop := dwordAt l 0 = 0xffffffff ∧ dwordAt l 4 = 0xffffffff

/-- After whole paddings, the bytes go on with the whole header of a block of type `ty` with
`sz` bytes of payload, and then with `rest`. -/
inductive HeaderAt : List UInt8 → UInt32 → UInt32 → List UInt8 → Prop
  | header {l : List UInt8} (h : 8 ≤ l.length) (hpad : ¬ PaddingAt l) :
      HeaderAt l (dwordAt l 0) (dwordAt l 4) (l.drop 8)
  | padding {l rest : List UInt8} {ty sz : UInt32} (h : 8 ≤ l.length) (hpad : PaddingAt l)
      (hrest : HeaderAt (l.drop 8) ty sz rest) : HeaderAt l ty sz rest

theorem HeaderAt.length {l rest : List UInt8} {ty sz : UInt32} (h : HeaderAt l ty sz rest) :
    8 ≤ l.length := by
  cases h with
  | header h _ => exact h
  | padding h _ _ => exact h

/-- The header in `blockInfo` was read in full from the bytes `l`, and the rest of them is left. -/
structure Headed (s : LoadState) (l : List UInt8) : Prop where
  length : 8 ≤ l.length
  blockType : s.blockType = dwordAt l 0
  dataSize : s.dataSize = dwordAt l 4
  items : s.file.items = l.drop 8

theorem Headed.isPadding_iff {l : List UInt8} (h : Headed s l) :
    s.isPadding = true ↔ PaddingAt l := by
  rw [LoadState.isPadding, Bool.and_eq_true, decide_eq_true_eq, decide_eq_true_eq, h.blockType,
    h.dataSize, PaddingAt]

theorem headed_readHeader (h : 8 ≤ s.file.items.length) :
    Headed s.readHeader s.file.items ∧ s.readHeader.file.stop = s.file.stop ∧
      s.readHeader.reads = s.reads ++ [⟨true, 8, 8⟩] := by
  have hrest := @FileReader.read_rest s.file 8 (Or.inl h)
  have hret : (s.read 8).returned = 8 := FileReader.read_full_iff.mpr h
  have hitems : (s.read 8).items = s.file.items.take 8 := FileReader.read_items
  have hlen : (s.file.items.take 8).length = 8 := by
    rw [List.length_take]
    omega
  refine ⟨⟨h, ?_, ?_, hrest.1⟩, hrest.2, ?_⟩
  · show (s.blockInfo.overwrite (s.read 8).items).u32 0 = _
    rw [hitems, u32_overwrite _ (by omega), dwordAt_take (by omega)]
  · show (s.blockInfo.overwrite (s.read 8).items).u32 4 = _
    rw [hitems, u32_overwrite _ (by omega), dwordAt_take (by omega)]
  · show s.reads ++ [⟨true, 8, (s.read 8).returned⟩] = _
    rw [hret]

theorem skipPadding_frame {fuel : ℕ} (h : skipPadding fuel s = .ok t) :
    t = { s with file := t.file, blockInfo := t.blockInfo, reads := t.reads } ∧
      (∃ rs, t.reads = s.reads ++ rs ∧ ∀ c ∈ rs, c.ofHeader = true) ∧
      t.file.size ≤ s.file.size := by
  induction fuel generalizing s with
  | zero => cases h
  | succ fuel ih =>
    unfold skipPadding at h
    split_ifs at h with hpad hret
    · obtain ⟨h1, ⟨rs, h2, h3⟩, h4⟩ := ih h
      have hsize := @FileReader.read_size s.file 8
      refine ⟨h1, ⟨⟨true, 8, (s.read 8).returned⟩ :: rs, ?_, ?_⟩, h4.trans ?_⟩
      · rw [h2]
        show s.reads ++ [⟨true, 8, (s.read 8).returned⟩] ++ rs = _
        rw [List.append_assoc, List.singleton_append]
      · simpa using h3
      · show (FileReader.read s.file 8).rest.size ≤ s.file.size
        omega
    · cases h
      exact ⟨rfl, ⟨[], (List.append_nil _).symm, by simp⟩, le_refl _⟩

/-- The state before the first header of an iteration is read. -/
def LoadState.fresh (s : LoadState) : LoadState := { s with reads := [] }

theorem nextHeader_eq (s : LoadState) : nextHeader s =
    if 0 < (s.read 8).returned then skipPadding (s.file.size + 1) s.fresh.readHeader
    else .error (finish s.fresh.readHeader) := rfl

theorem nextHeader_ok (h : nextHeader s = .ok t) : 0 < (s.read 8).returned ∧
    skipPadding (s.file.size + 1) s.fresh.readHeader = .ok t := by
  rw [nextHeader_eq] at h
  split_ifs at h with hret
  exact ⟨hret, h⟩

theorem nextHeader_frame (h : nextHeader s = .ok t) :
    t = { s with file := t.file, blockInfo := t.blockInfo, reads := t.reads } ∧
      (∀ c ∈ t.reads, c.ofHeader = true) ∧ t.file.size < s.file.size := by
  obtain ⟨hret, h⟩ := nextHeader_ok h
  obtain ⟨h1, ⟨rs, h2, h3⟩, h4⟩ := skipPadding_frame h
  refine ⟨h1, ?_, ?_⟩
  · rw [h2]
    show ∀ c ∈ [⟨true, 8, (s.read 8).returned⟩] ++ rs, c.ofHeader = true
    simpa using h3
  · have hsize := @FileReader.read_size s.file 8
    have hpos := FileReader.read_pos hret
    have h5 : t.file.size ≤ (FileReader.read s.file 8).rest.size := h4
    omega

theorem headerAt_of_skipPadding {fuel : ℕ} {l : List UInt8} (h : skipPadding fuel s = .ok t)
    (hl : Headed s l) (hfull : ∀ c ∈ t.reads, c.Full) :
    HeaderAt l t.blockType t.dataSize t.file.items ∧ t.file.stop = s.file.stop := by
  induction fuel generalizing s l with
  | zero => cases h
  | succ fuel ih =>
    unfold skipPadding at h
    split_ifs at h with hpad hret
    · obtain ⟨-, ⟨rs, hrs, -⟩, -⟩ := skipPadding_frame h
      have hread : (⟨true, 8, (s.read 8).returned⟩ : ReadCall).Full := by
        apply hfull
        rw [hrs]
        exact List.mem_append_left _ (List.mem_append_right _ (List.mem_singleton_self _))
      have hlen : 8 ≤ s.file.items.length := FileReader.read_full_iff.mp hread
      obtain ⟨hhead, hstop, -⟩ := headed_readHeader hlen
      obtain ⟨h1, h2⟩ := ih h hhead
      rw [hl.items] at h1
      exact ⟨.padding hl.length (hl.isPadding_iff.mp hpad) h1, h2.trans hstop⟩
    · cases h
      rw [hl.blockType, hl.dataSize, hl.items]
      exact ⟨.header hl.length (hl.isPadding_iff.not.mp hpad), rfl⟩

theorem skipPadding_of_headerAt {fuel : ℕ} {l rest : List UInt8} {ty sz : UInt32}
    (hat : HeaderAt l ty sz rest) (hl : Headed s l) (hfuel : s.file.size < fuel)
    (hfull : ∀ c ∈ s.reads, c.Full) :
    ∃ t, skipPadding fuel s = .ok t ∧ t.blockType = ty ∧ t.dataSize = sz ∧
      t.file.items = rest ∧ t.file.stop = s.file.stop ∧ ∀ c ∈ t.reads, c.Full := by
  induction hat generalizing s fuel with
  | header h hpad =>
    obtain ⟨fuel, rfl⟩ : ∃ f, fuel = f + 1 := ⟨fuel - 1, by omega⟩
    refine ⟨s, ?_, hl.blockType, hl.dataSize, hl.items, rfl, hfull⟩
    unfold skipPadding
    rw [if_neg (hl.isPadding_iff.not.mpr hpad)]
  | @padding l rest ty sz h hpad hrest ih =>
    obtain ⟨fuel, rfl⟩ : ∃ f, fuel = f + 1 := ⟨fuel - 1, by omega⟩
    have hlen : 8 ≤ s.file.items.length := by
      rw [hl.items]
      exact hrest.length
    have hret : (s.read 8).returned = 8 := FileReader.read_full_iff.mpr hlen
    have hsize := @FileReader.read_size s.file 8
    rw [List.length_take] at hsize
    obtain ⟨hhead, hstop, hreads⟩ := headed_readHeader hlen
    have hsmall : s.readHeader.file.size < fuel := by
      show (FileReader.read s.file 8).rest.size < fuel
      omega
    rw [hl.items] at hhead
    obtain ⟨t, ht, h1, h2, h3, h4, h5⟩ := ih hhead hsmall (by
      rw [hreads]
      simpa [ReadCall.Full, or_imp, forall_and] using hfull)
    refine ⟨t, ?_, h1, h2, h3, h4.trans hstop, h5⟩
    unfold skipPadding
    rw [if_pos (hl.isPadding_iff.mpr hpad), if_neg (by omega), ht]

/-- **Every header was read in full** exactly when the file had whole ones. -/
theorem nextHeader_full_iff (h : nextHeader s = .ok t) :
    (∀ c ∈ t.reads, c.Full) ↔ ∃ rest, HeaderAt s.file.items t.blockType t.dataSize rest ∧
      t.file.items = rest ∧ t.file.stop = s.file.stop := by
  obtain ⟨hret, h⟩ := nextHeader_ok h
  constructor
  · intro hfull
    obtain ⟨-, ⟨rs, hrs, -⟩, -⟩ := skipPadding_frame h
    have hread : (⟨true, 8, (s.read 8).returned⟩ : ReadCall).Full := by
      apply hfull
      rw [hrs]
      exact List.mem_append_left _ (List.mem_append_right _ (List.mem_singleton_self _))
    obtain ⟨hhead, hstop, -⟩ := @headed_readHeader s.fresh (FileReader.read_full_iff.mp hread)
    obtain ⟨h1, h2⟩ := headerAt_of_skipPadding h hhead hfull
    exact ⟨_, h1, rfl, h2.trans hstop⟩
  · rintro ⟨rest, hat, -, -⟩
    have hlen : 8 ≤ s.fresh.file.items.length := hat.length
    obtain ⟨hhead, -, hreads⟩ := headed_readHeader hlen
    have hsize := @FileReader.read_size s.file 8
    have hsmall : s.fresh.readHeader.file.size < s.file.size + 1 := by
      show (FileReader.read s.file 8).rest.size < s.file.size + 1
      omega
    obtain ⟨t', ht', -, -, -, -, hfull⟩ := skipPadding_of_headerAt hat hhead hsmall (by
      rw [hreads]
      simp [LoadState.fresh, ReadCall.Full])
    rw [h, Except.ok.injEq] at ht'
    exact ht' ▸ hfull

theorem nextHeader_of_headerAt {ty sz : UInt32} {rest : List UInt8}
    (hat : HeaderAt s.file.items ty sz rest) :
    ∃ t, nextHeader s = .ok t ∧ t.blockType = ty ∧ t.dataSize = sz ∧ t.file.items = rest ∧
      t.file.stop = s.file.stop := by
  have hlen : 8 ≤ s.fresh.file.items.length := hat.length
  obtain ⟨hhead, hstop, hreads⟩ := headed_readHeader hlen
  have hsize := @FileReader.read_size s.file 8
  have hsmall : s.fresh.readHeader.file.size < s.file.size + 1 := by
    show (FileReader.read s.file 8).rest.size < s.file.size + 1
    omega
  obtain ⟨t, ht, h1, h2, h3, h4, -⟩ := skipPadding_of_headerAt hat hhead hsmall (by
    rw [hreads]
    simp [LoadState.fresh, ReadCall.Full])
  refine ⟨t, ?_, h1, h2, h3, h4.trans hstop⟩
  have hret : (s.read 8).returned = 8 := FileReader.read_full_iff.mpr hlen
  rw [nextHeader_eq, if_pos (by omega)]
  exact ht

/-! ## The whole load -/

theorem size_lt_of_iteration (h : iteration E s = .ok v) : v.file.size < s.file.size := by
  obtain ⟨t, ht, hv⟩ := bind_eq_ok.mp h
  have hlt := (nextHeader_frame ht).2.2
  rw [(loadBlock_effect hv).file]
  exact (afterReads_size_le _).trans_lt hlt

/-- **The load ends**, whatever the file. -/
theorem load_halts (E : LoadEnv) (s : LoadState) : Halts (iteration E) s := by
  induction hn : s.file.size using Nat.strong_induction_on generalizing s with
  | h n ih =>
    subst hn
    exact Halts.of_step fun v hv => ih _ (size_lt_of_iteration hv) v rfl

/-- `LoadAdrenoRdFile`: no load has more iterations than the file has bytes. -/
def loadAdrenoRdFile (E : LoadEnv) (s : LoadState) : Ending :=
  match runFor (iteration E) (s.file.size + 1) s with
  | .error ending => ending
  | .ok _ => .undefined

theorem size_of_runFor : ∀ {n : ℕ} {s : LoadState}, runFor (iteration E) n s = .ok v →
    v.file.size + n ≤ s.file.size
  | 0, s, h => by
    cases h
    exact le_refl _
  | n + 1, s, h => by
    obtain ⟨u, hu, hv⟩ := bind_eq_ok.mp h
    have := size_lt_of_iteration hu
    have := size_of_runFor hv
    omega

theorem stopsWith_loadAdrenoRdFile (E : LoadEnv) (s : LoadState) :
    StopsWith (iteration E) s (loadAdrenoRdFile E s) := by
  unfold loadAdrenoRdFile
  cases h : runFor (iteration E) (s.file.size + 1) s with
  | error ending => exact stopsWith_of_runFor h
  | ok v =>
    have := size_of_runFor h
    omega

/-- The chips are unknown, and fresh memory is zero. -/
def plainEnv : LoadEnv := ⟨fun _ => 0, fun _ => Buffer.zero⟩

/-- A load of the bytes, from a new object. -/
def loadOf (bytes : List UInt8) : LoadState := { file := Source.ofList bytes }

end Pm4CaptureData

end Dive
