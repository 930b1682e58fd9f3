import Dive.Rd.Reads

/-!
# The framing of a well-formed file

* `Block`, `encode`: a file is its blocks laid end to end, each a header and as many bytes of
  payload as that says.
* `InStep`: each iteration interprets the header of the next block and takes exactly that block, or
  ends the load.
* `Framed`: the sizes for which the handler of a block takes exactly its payload.
* **`inStep_iff`**: a load stays in step exactly when every block it comes to is framed.
-/

namespace Dive

namespace Pm4CaptureData

open Machine LoadState

variable {E : LoadEnv} {s t u v : LoadState}

/-- A block of the file. Its type need not be one of `RdSectType`. -/
structure Block where
  blockType : UInt32
  payload : List UInt8
  length_lt : payload.length < 2 ^ 32

namespace Block

/-- `m_data_size`, the number of bytes that follow the header. -/
def dataSize (B : Block) : UInt32 := UInt32.ofNat B.payload.length

/-- The bytes of the block. -/
def encode (B : Block) : List UInt8 := headerBytes B.blockType B.dataSize ++ B.payload

end Block

/-- The bytes of a file. -/
def encode (blocks : List Block) : List UInt8 := blocks.flatMap Block.encode

/-- After `k` iterations, if the load got there, the rest of the file is what follows the first `k`
blocks, and the next iteration interprets the header of the next block and does something that
has a meaning. -/
def InStep (E : LoadEnv) (s : LoadState) (blocks : List Block) : Prop :=
  ∀ k u, runFor (iteration E) k s = .ok u → u.file.items = encode (blocks.drop k) ∧
    ∀ B, blocks[k]? = some B → iteration E u ≠ .error .undefined ∧
      ∃ t, nextHeader u = .ok t ∧ t.blockType = B.blockType ∧ t.dataSize = B.dataSize

/-- The handler of the block takes exactly its payload, or fails: the two fixed-size dwords and the
third are what an address block holds (or the file ends there), the local variable is large enough,
a submit is there to append to, and no payload is passed over unread. -/
def Framed (s : LoadState) (B : Block) (last : Prop) : Prop :=
  match sectType B.blockType with
  | some .rdGpuaddr => B.dataSize = 8 ∨ B.dataSize = 12 ∨ last ∧ B.dataSize < 12
  | some .rdCmdstreamAddr => (B.dataSize = 8 ∨ B.dataSize = 12 ∨ last ∧ B.dataSize < 12) ∧
      (s.isNewSubmit = true ∨ s.submits ≠ [] ∨ last ∧ B.dataSize ≤ 4)
  | some .rdGpuId => B.dataSize ≤ 4
  | some .rdChipId => if s.needsChipId then B.dataSize ≤ 8 else B.dataSize = 0
  | some _ => True
  | none => B.dataSize = 0

variable {B : Block} {blocks rest : List Block}

theorem Block.toNat_dataSize (B : Block) : B.dataSize.toNat = B.payload.length := by
  rw [Block.dataSize, UInt32.toNat_ofNat', Nat.mod_eq_of_lt B.length_lt]

theorem encode_cons : encode (B :: rest) =
    headerBytes B.blockType B.dataSize ++ (B.payload ++ encode rest) := by
  rw [encode, List.flatMap_cons, Block.encode, List.append_assoc]
  rfl

theorem encode_eq_nil_or : rest = [] ∨ 8 ≤ (encode rest).length := by
  cases rest with
  | nil => exact Or.inl rfl
  | cons B rest =>
    right
    rw [encode_cons, List.length_append]
    exact Nat.le_add_right 8 _

/-! ## The header -/

theorem nextHeader_of_encode (hfile : u.file.items = encode (B :: rest))
    (hpad : ¬ (B.blockType = 0xffffffff ∧ B.dataSize = 0xffffffff)) :
    ∃ t, nextHeader u = .ok t ∧ t.blockType = B.blockType ∧ t.dataSize = B.dataSize ∧
      t.file.items = B.payload ++ encode rest ∧ t.file.stop = u.file.stop := by
  apply nextHeader_of_headerAt
  rw [hfile, encode_cons]
  obtain ⟨h0, h4⟩ := dwordAt_headerBytes B.blockType B.dataSize (B.payload ++ encode rest)
  have hat := @HeaderAt.header (headerBytes B.blockType B.dataSize ++ (B.payload ++ encode rest))
    (by rw [List.length_append]; exact Nat.le_add_right 8 _)
    (by rw [PaddingAt, h0, h4]; exact hpad)
  rw [h0, h4] at hat
  exact hat

theorem not_isPadding_of_nextHeader (h : nextHeader s = .ok t) : ¬ t.isPadding = true := by
  have key : ∀ {fuel : ℕ} {s : LoadState}, skipPadding fuel s = .ok t → ¬ t.isPadding = true := by
    intro fuel
    induction fuel with
    | zero => exact fun h => by cases h
    | succ fuel ih =>
      intro s h
      unfold skipPadding at h
      split_ifs at h with hpad
      · exact ih h
      · cases h
        exact hpad
  exact key (nextHeader_ok h).2

/-! ## The payload -/

theorem drop_append_eq_right_iff {α : Type} {p r : List α} {n : ℕ} :
    (p ++ r).drop n = r ↔ n = p.length ∨ r = [] ∧ p.length ≤ n := by
  constructor
  · intro h
    have hlen := congrArg List.length h
    rw [List.length_drop, List.length_append] at hlen
    rw [← List.length_eq_zero_iff]
    omega
  · rintro (rfl | ⟨rfl, hle⟩)
    · exact List.drop_left
    · rw [List.append_nil, List.drop_eq_nil_of_le hle]

theorem readDword_of_stop {d : Buffer} (hs : s.file.stop = none) :
    if 0 < s.file.items.length then ∃ d', readDword s d = .ok (d', s.afterRead false 4)
    else ∃ w, readDword s d = .error (.returns .kFileIoError w) := by
  have hzero : (s.read 4).returned = 0 ↔ ¬ 0 < s.file.items.length := by
    rw [LoadState.read, FileReader.read_zero_iff (by decide), ← List.length_eq_zero_iff]
    simp [hs]
  unfold readDword
  split_ifs with hlen h0 h0
  · exact absurd hlen (hzero.mp h0)
  · exact ⟨_, rfl⟩
  · exact ⟨_, rfl⟩
  · exact absurd (hzero.mpr hlen) h0

/-- The bytes that `LoadGpuAddressAndSize` needs in order not to fail. -/
def Addressable (s : LoadState) (blockSize : UInt32) : Prop :=
  4 < s.file.items.length ∧ (8 < blockSize → 8 < s.file.items.length)

theorem loadGpuAddressAndSize_of_stop {blockSize : UInt32} (hs : s.file.stop = none) :
    (Addressable s blockSize → ∃ r, loadGpuAddressAndSize s blockSize = .ok r) ∧
      (¬ Addressable s blockSize →
        ∃ w, loadGpuAddressAndSize s blockSize = .error (.returns .kFileIoError w)) := by
  have hr₁ := @FileReader.read_rest s.file 4 (Or.inr hs)
  have hs₁ : (s.afterRead false 4).file.stop = none := by rw [afterRead_file, LoadState.read, hr₁.2, hs]
  have hl₁ : (s.afterRead false 4).file.items.length = s.file.items.length - 4 := by
    rw [afterRead_file, LoadState.read, hr₁.1, List.length_drop]
  have hr₂ := @FileReader.read_rest (s.afterRead false 4).file 4 (Or.inr hs₁)
  have hs₂ : ((s.afterRead false 4).afterRead false 4).file.stop = none := by
    rw [afterRead_file, LoadState.read, hr₂.2, hs₁]
  have hl₂ : ((s.afterRead false 4).afterRead false 4).file.items.length =
      s.file.items.length - 8 := by
    rw [afterRead_file, LoadState.read, hr₂.1, List.length_drop, hl₁]
    omega
  have h₁ := @readDword_of_stop s Buffer.zero hs
  unfold Addressable loadGpuAddressAndSize
  split_ifs at h₁ with hlen₁
  · obtain ⟨d₁, h₁⟩ := h₁
    have h₂ := @readDword_of_stop _ d₁ hs₁
    rw [h₁]
    simp only [bind, Except.bind]
    split_ifs at h₂ with hlen₂
    · obtain ⟨d₂, h₂⟩ := h₂
      have h₃ := @readDword_of_stop _ d₂ hs₂
      rw [h₂]
      simp only
      by_cases hsize : 8 < blockSize
      · simp only [if_pos hsize]
        split_ifs at h₃ with hlen₃
        · obtain ⟨d₃, h₃⟩ := h₃
          rw [h₃]
          exact ⟨fun _ => ⟨_, rfl⟩, fun hn => absurd ⟨by omega, fun _ => by omega⟩ hn⟩
        · obtain ⟨w, h₃⟩ := h₃
          rw [h₃]
          refine ⟨fun h => ?_, fun _ => ⟨w, rfl⟩⟩
          have := h.2 hsize
          omega
      · simp only [if_neg hsize]
        exact ⟨fun _ => ⟨_, rfl⟩, fun hn => absurd ⟨by omega, fun h => absurd h hsize⟩ hn⟩
    · obtain ⟨w, h₂⟩ := h₂
      rw [h₂]
      exact ⟨fun h => by omega, fun _ => ⟨w, rfl⟩⟩
  · obtain ⟨w, h₁⟩ := h₁
    rw [h₁]
    exact ⟨fun h => by omega, fun _ => ⟨w, rfl⟩⟩

theorem readLocal_of_le {size nbytes : ℕ} (h : nbytes ≤ s.file.items.length) :
    (∃ r, s.readLocal size nbytes = some r) ↔ nbytes ≤ size := by
  have hlen : (s.read nbytes).items.length = nbytes := by
    rw [LoadState.read, FileReader.read_items, List.length_take, Nat.min_eq_left h]
  unfold LoadState.readLocal
  rw [hlen]
  split_ifs with hle
  · simp [hle]
  · simp [hle]

theorem encode_eq_nil_iff : encode rest = [] ↔ rest = [] := by
  rcases @encode_eq_nil_or rest with rfl | h
  · simp [encode]
  · constructor
    · intro hnil
      rw [hnil] at h
      simp at h
    · rintro rfl
      rfl

/-- A block that does not end the load takes exactly its payload. -/
def TakesPayload (E : LoadEnv) (t : LoadState) (rest : List Block) : Prop :=
  loadBlock E t ≠ .error .undefined ∧
    ∀ v, loadBlock E t = .ok v → v.file.items = encode rest

/-- The header `B` was read into `t`, and the rest of the file follows. -/
structure AtPayload (t : LoadState) (B : Block) (rest : List Block) : Prop where
  blockType : t.blockType = B.blockType
  dataSize : t.dataSize = B.dataSize
  items : t.file.items = B.payload ++ encode rest
  stop : t.file.stop = none

theorem AtPayload.items_iff (h : AtPayload t B rest) (hv : loadBlock E t = .ok v) :
    v.file.items = encode rest ↔ (requests t B.blockType B.dataSize).sum = B.payload.length ∨
      rest = [] ∧ B.payload.length ≤ (requests t B.blockType B.dataSize).sum := by
  rw [(loadBlock_effect hv).file, (afterReads_of_stop h.stop).1, h.items, h.blockType, h.dataSize,
    drop_append_eq_right_iff, encode_eq_nil_iff]

theorem AtPayload.takesPayload_of_one (h : AtPayload t B rest)
    (hreq : requests t B.blockType B.dataSize = [B.dataSize.toNat])
    (hdef : loadBlock E t ≠ .error .undefined) : TakesPayload E t rest := by
  refine ⟨hdef, fun v hv => (h.items_iff hv).mpr (Or.inl ?_)⟩
  rw [hreq, List.sum_singleton, B.toNat_dataSize]

theorem AtPayload.length_items (h : AtPayload t B rest) :
    t.file.items.length = B.payload.length + (encode rest).length := by
  rw [h.items, List.length_append]

theorem AtPayload.addressable_iff (h : AtPayload t B rest) :
    Addressable t B.dataSize ↔ ¬ (rest = [] ∧ B.dataSize ≤ 4) := by
  unfold Addressable
  rw [h.length_items, UInt32.le_iff_toNat_le, UInt32.lt_iff_toNat_lt, B.toNat_dataSize,
    show (4 : UInt32).toNat = 4 from rfl, show (8 : UInt32).toNat = 8 from rfl]
  rcases @encode_eq_nil_or rest with rfl | hlen
  · simp only [encode, List.flatMap_nil, List.length_nil, true_and]
    omega
  · have hne : rest ≠ [] := by
      rintro rfl
      simp [encode] at hlen
    simp only [hne, false_and, not_false_eq_true, iff_true]
    omega

theorem dwordReads_iff : (B.dataSize = 8 ∨ B.dataSize = 12 ∨ rest = [] ∧ B.dataSize < 12) ↔
    (¬ (rest = [] ∧ B.dataSize ≤ 4) → (dwordReads B.dataSize).sum = B.payload.length ∨
      rest = [] ∧ B.payload.length ≤ (dwordReads B.dataSize).sum) := by
  have h8 : B.dataSize = 8 ↔ B.payload.length = 8 := by
    rw [← UInt32.toNat_inj, B.toNat_dataSize]
    rfl
  have h12 : B.dataSize = 12 ↔ B.payload.length = 12 := by
    rw [← UInt32.toNat_inj, B.toNat_dataSize]
    rfl
  have hsum : (dwordReads B.dataSize).sum = if 8 < B.payload.length then 12 else 8 := by
    have hlt : 8 < B.dataSize ↔ 8 < B.payload.length := by
      rw [UInt32.lt_iff_toNat_lt, B.toNat_dataSize]
      rfl
    by_cases h : 8 < B.payload.length
    · rw [dwordReads, if_pos (hlt.mpr h), if_pos h]
      rfl
    · rw [dwordReads, if_neg (hlt.not.mpr h), if_neg h]
      rfl
  rw [h8, h12, hsum, UInt32.lt_iff_toNat_lt, UInt32.le_iff_toNat_le, B.toNat_dataSize,
    show (12 : UInt32).toNat = 12 from rfl, show (4 : UInt32).toNat = 4 from rfl]
  by_cases hr : rest = []
  · simp only [hr, true_and]
    split_ifs <;> omega
  · simp only [hr, false_and, or_false, not_false_eq_true, true_implies]
    split_ifs <;> omega

theorem AtPayload.takesPayload_gpuaddr (h : AtPayload t B rest)
    (hty : sectType B.blockType = some .rdGpuaddr) : TakesPayload E t rest ↔
      (¬ (rest = [] ∧ B.dataSize ≤ 4) → (dwordReads B.dataSize).sum = B.payload.length ∨
        rest = [] ∧ B.payload.length ≤ (dwordReads B.dataSize).sum) := by
  have hload : loadBlock E t = (loadGpuAddressAndSize t B.dataSize).map fun r =>
      { r.2.2 with curGpuAddr := r.1, curSize := r.2.1, isNewSubmit := true } := by
    rw [loadBlock, h.blockType, hty, h.dataSize]
  have hreq : requests t B.blockType B.dataSize = dwordReads B.dataSize := by
    rw [requests, hty]
  obtain ⟨hok, herr⟩ := @loadGpuAddressAndSize_of_stop t B.dataSize h.stop
  unfold TakesPayload
  rw [← h.addressable_iff, ← hreq]
  by_cases hadd : Addressable t B.dataSize
  · obtain ⟨r, hr⟩ := hok hadd
    rw [hr] at hload
    simp only [hadd, true_implies]
    constructor
    · intro htake
      exact (h.items_iff hload).mp (htake.2 _ hload)
    · intro hsum
      refine ⟨by rw [hload]; simp [Except.map], fun v hv => (h.items_iff hv).mpr hsum⟩
  · obtain ⟨w, hw⟩ := herr hadd
    rw [hw] at hload
    rw [hload]
    simp [hadd, Except.map]

theorem AtPayload.takesPayload_cmdstreamAddr (h : AtPayload t B rest)
    (hty : sectType B.blockType = some .rdCmdstreamAddr) : TakesPayload E t rest ↔
      (¬ (rest = [] ∧ B.dataSize ≤ 4) → ((dwordReads B.dataSize).sum = B.payload.length ∨
        rest = [] ∧ B.payload.length ≤ (dwordReads B.dataSize).sum) ∧
          (t.isNewSubmit = true ∨ t.submits ≠ [])) := by
  have hload : loadBlock E t = (loadCmdStreamBlockAdreno t B.dataSize t.isNewSubmit
      t.skipCommands).map fun t => { t with isNewSubmit := false } := by
    rw [loadBlock, h.blockType, hty, h.dataSize]
  have hreq : requests t B.blockType B.dataSize = dwordReads B.dataSize := by
    rw [requests, hty]
  obtain ⟨hok, herr⟩ := @loadGpuAddressAndSize_of_stop t B.dataSize h.stop
  unfold TakesPayload
  rw [← h.addressable_iff, ← hreq]
  by_cases hadd : Addressable t B.dataSize
  · obtain ⟨⟨a, z, w⟩, hr⟩ := hok hadd
    have hsubmits : w.submits = t.submits := by
      rw [loadGpuAddressAndSize_ok hr, afterReads_submits]
    rw [loadCmdStreamBlockAdreno, hr] at hload
    simp only [hadd, true_implies]
    by_cases hnew : t.isNewSubmit = true
    · simp only [hnew, bind, Except.bind, if_true, Except.map] at hload
      simp only [hnew, true_or, and_true]
      constructor
      · intro htake
        exact (h.items_iff hload).mp (htake.2 _ hload)
      · intro hsum
        exact ⟨by rw [hload]; simp, fun v hv => (h.items_iff hv).mpr hsum⟩
    · simp only [hnew, bind, Except.bind, hsubmits, Except.map] at hload
      simp only [hnew]
      cases hlast : t.submits.getLast? with
      | none =>
        rw [List.getLast?_eq_none_iff.mp hlast] at hload ⊢
        rw [hload]
        simp
      | some last =>
        simp only [hlast] at hload
        have hne : t.submits ≠ [] := by
          intro hnil
          rw [hnil] at hlast
          cases hlast
        constructor
        · intro htake
          exact ⟨(h.items_iff hload).mp (htake.2 _ hload), Or.inr hne⟩
        · intro hsum
          exact ⟨by rw [hload]; simp, fun v hv => (h.items_iff hv).mpr hsum.1⟩
  · obtain ⟨w, hw⟩ := herr hadd
    rw [loadCmdStreamBlockAdreno, hw] at hload
    rw [hload]
    simp [hadd, Except.map, bind, Except.bind]

theorem AtPayload.length_le (h : AtPayload t B rest) :
    t.dataSize.toNat ≤ t.file.items.length := by
  rw [h.dataSize, B.toNat_dataSize, h.length_items]
  omega

theorem AtPayload.takesPayload_gpuId (h : AtPayload t B rest)
    (hty : sectType B.blockType = some .rdGpuId) :
    TakesPayload E t rest ↔ B.dataSize ≤ 4 := by
  have hload : loadBlock E t = loadGpuId t := by rw [loadBlock, h.blockType, hty]
  have hlocal := @readLocal_of_le t 4 _ h.length_le
  rw [UInt32.le_iff_toNat_le, ← h.dataSize, show (4 : UInt32).toNat = 4 from rfl, ← hlocal]
  constructor
  · rintro ⟨hdef, -⟩
    by_contra hnone
    apply hdef
    rw [hload, loadGpuId, Option.eq_none_iff_forall_ne_some.mpr fun r hr => hnone ⟨r, hr⟩]
  · rintro ⟨⟨b, w⟩, hr⟩
    apply h.takesPayload_of_one
    · rw [requests, hty]
    · rw [hload, loadGpuId, hr]
      simp

theorem AtPayload.takesPayload_of_none (h : AtPayload t B rest)
    (hload : loadBlock E t = .ok t) : TakesPayload E t rest ↔ B.dataSize = 0 := by
  have hzero : B.dataSize = 0 ↔ B.payload = [] := by
    rw [← UInt32.toNat_inj, B.toNat_dataSize, ← List.length_eq_zero_iff]
    rfl
  unfold TakesPayload
  rw [hload, hzero]
  constructor
  · rintro ⟨-, hitems⟩
    have := hitems t rfl
    rw [h.items] at this
    simpa using this
  · intro hnil
    refine ⟨by simp, fun v hv => ?_⟩
    cases hv
    rw [h.items, hnil, List.nil_append]

theorem AtPayload.takesPayload_chipId (h : AtPayload t B rest)
    (hty : sectType B.blockType = some .rdChipId) : TakesPayload E t rest ↔
      if t.needsChipId then B.dataSize ≤ 8 else B.dataSize = 0 := by
  have hload : loadBlock E t = loadChipId E t := by rw [loadBlock, h.blockType, hty]
  by_cases hneeds : t.needsChipId = true
  · have hlocal := @readLocal_of_le t 8 _ h.length_le
    rw [if_pos hneeds, UInt32.le_iff_toNat_le, ← h.dataSize, show (8 : UInt32).toNat = 8 from rfl,
      ← hlocal]
    rw [loadChipId, if_pos hneeds] at hload
    constructor
    · rintro ⟨hdef, -⟩
      by_contra hnone
      apply hdef
      rw [hload, Option.eq_none_iff_forall_ne_some.mpr fun r hr => hnone ⟨r, hr⟩]
    · rintro ⟨⟨b, w⟩, hr⟩
      apply h.takesPayload_of_one
      · rw [requests, hty]
        exact if_pos hneeds
      · rw [hload, hr]
        dsimp only
        split_ifs <;> simp
  · rw [if_neg hneeds]
    apply h.takesPayload_of_none
    rw [hload, loadChipId, if_neg hneeds]

/-- **The handler takes exactly the payload** of the block, or fails, exactly when the block is
framed. -/
theorem framed_iff (h : AtPayload t B rest) :
    Framed t B (rest = []) ↔ TakesPayload E t rest := by
  unfold Framed
  cases hty : sectType B.blockType with
  | none =>
    symm
    apply h.takesPayload_of_none
    rw [loadBlock, h.blockType, hty]
  | some ty =>
    cases ty with
    | rdGpuaddr => rw [h.takesPayload_gpuaddr hty, ← dwordReads_iff]
    | rdCmdstreamAddr =>
      rw [h.takesPayload_cmdstreamAddr hty]
      simp only [dwordReads_iff]
      by_cases hlast : rest = [] ∧ B.dataSize ≤ 4
      · simp [hlast]
      · simp [hlast, and_comm]
    | rdGpuId => exact (h.takesPayload_gpuId hty).symm
    | rdChipId => exact (h.takesPayload_chipId hty).symm
    | rdBufferContents =>
      refine iff_of_true trivial (h.takesPayload_of_one (by rw [requests, hty]) ?_)
      rw [loadBlock, h.blockType, hty]
      dsimp only
      unfold loadMemoryBlockAdreno
      split_ifs <;> simp
    | rdCmd =>
      refine iff_of_true trivial (h.takesPayload_of_one (by rw [requests, hty]) ?_)
      rw [loadBlock, h.blockType, hty]
      dsimp only
      unfold loadCmd
      split_ifs <;> simp
    | _ =>
      refine iff_of_true trivial (h.takesPayload_of_one (by rw [requests, hty]) ?_)
      rw [loadBlock, h.blockType, hty]
      simp

/-! ## The whole file -/

theorem framed_congr (ht : nextHeader u = .ok t) (last : Prop) :
    Framed t B last ↔ Framed u B last := by
  rw [(nextHeader_frame ht).1]
  rfl

theorem not_padding_of_framed {last : Prop} (h : Framed u B last) :
    ¬ (B.blockType = 0xffffffff ∧ B.dataSize = 0xffffffff) := by
  rintro ⟨hty, hsz⟩
  unfold Framed at h
  rw [hty, hsz] at h
  cases h

theorem framed_iff_iteration (hfile : u.file.items = encode (B :: rest))
    (hs : u.file.stop = none) : Framed u B (rest = []) ↔
      (iteration E u ≠ .error .undefined ∧
        (∃ t, nextHeader u = .ok t ∧ t.blockType = B.blockType ∧ t.dataSize = B.dataSize) ∧
          ∀ v, iteration E u = .ok v → v.file.items = encode rest) := by
  constructor
  · intro hframed
    obtain ⟨t, ht, hty, hsz, hitems, hstop⟩ :=
      nextHeader_of_encode hfile (not_padding_of_framed hframed)
    have hload : iteration E u = loadBlock E t := by rw [iteration, ht]; rfl
    have htake := (framed_iff (E := E) ⟨hty, hsz, hitems, hstop.trans hs⟩).mp
      ((framed_congr ht _).mpr hframed)
    rw [hload]
    exact ⟨htake.1, ⟨t, ht, hty, hsz⟩, htake.2⟩
  · rintro ⟨hdef, ⟨t, ht, hty, hsz⟩, hitems⟩
    have hpad : ¬ (B.blockType = 0xffffffff ∧ B.dataSize = 0xffffffff) := by
      have := not_isPadding_of_nextHeader ht
      rwa [isPadding, Bool.and_eq_true, decide_eq_true_eq, decide_eq_true_eq, hty, hsz] at this
    obtain ⟨t', ht', -, -, hfile', hstop⟩ := nextHeader_of_encode hfile hpad
    rw [ht, Except.ok.injEq] at ht'
    subst ht'
    have hload : iteration E u = loadBlock E t := by rw [iteration, ht]; rfl
    rw [hload] at hdef hitems
    exact (framed_congr ht _).mp
      ((framed_iff ⟨hty, hsz, hfile', hstop.trans hs⟩).mpr ⟨hdef, hitems⟩)

theorem stop_of_iteration (h : iteration E u = .ok v) (hs : u.file.stop = none) :
    v.file.stop = none := by
  have hheader : ∀ s : LoadState, s.file.stop = none → s.readHeader.file.stop = none :=
    fun s hs => (FileReader.read_rest (Or.inr hs)).2.trans hs
  have hskip : ∀ {fuel : ℕ} {s t : LoadState}, skipPadding fuel s = .ok t →
      s.file.stop = none → t.file.stop = none := by
    intro fuel
    induction fuel with
    | zero => exact fun h => by cases h
    | succ fuel ih =>
      intro s t h hs
      unfold skipPadding at h
      split_ifs at h
      · exact ih h (hheader s hs)
      · cases h
        exact hs
  obtain ⟨t, ht, hv⟩ := bind_eq_ok.mp h
  have hts : t.file.stop = none := hskip (nextHeader_ok ht).2 (hheader u.fresh hs)
  rw [(loadBlock_effect hv).file]
  exact (afterReads_of_stop hts).2

theorem iteration_of_nil (hnil : u.file.items = []) (hs : u.file.stop = none) :
    iteration E u ≠ .ok v := by
  intro h
  obtain ⟨t, ht, -⟩ := bind_eq_ok.mp h
  have hret := (nextHeader_ok ht).1
  have hzero : (u.read 8).returned = 0 := (FileReader.read_zero_iff (by decide)).mpr ⟨hnil, hs⟩
  omega

theorem drop_eq_cons {k : ℕ} (h : blocks[k]? = some B) :
    blocks.drop k = B :: blocks.drop (k + 1) := by
  obtain ⟨hk, rfl⟩ := List.getElem?_eq_some_iff.mp h
  exact List.drop_eq_getElem_cons hk

theorem drop_eq_nil_iff_last {k : ℕ} (h : blocks[k]? = some B) :
    blocks.drop (k + 1) = [] ↔ k + 1 = blocks.length := by
  obtain ⟨hk, -⟩ := List.getElem?_eq_some_iff.mp h
  rw [List.drop_eq_nil_iff]
  omega

theorem items_of_framed (hs : s.file.stop = none) (hfile : s.file.items = encode blocks)
    (hframed : ∀ k u B, runFor (iteration E) k s = .ok u → blocks[k]? = some B →
      Framed u B (k + 1 = blocks.length)) :
    ∀ k u, runFor (iteration E) k s = .ok u →
      u.file.items = encode (blocks.drop k) ∧ u.file.stop = none := by
  intro k
  induction k with
  | zero =>
    intro u hu
    cases hu
    exact ⟨hfile, hs⟩
  | succ k ih =>
    intro v hv
    rw [runFor_succ] at hv
    obtain ⟨u, hu, huv⟩ := bind_eq_ok.mp hv
    obtain ⟨hitems, hstop⟩ := ih u hu
    refine ⟨?_, stop_of_iteration huv hstop⟩
    cases hB : blocks[k]? with
    | none =>
      rw [List.drop_eq_nil_of_le (List.getElem?_eq_none_iff.mp hB)] at hitems
      exact absurd huv (iteration_of_nil hitems hstop)
    | some B =>
      have hf := hframed k u B hu hB
      rw [← drop_eq_nil_iff_last hB] at hf
      rw [drop_eq_cons hB] at hitems
      exact ((framed_iff_iteration hitems hstop).mp hf).2.2 v huv

/-- **A load stays in step with the blocks of its file** exactly when every block it comes to is
framed. -/
theorem inStep_iff (E : LoadEnv) (s : LoadState) (blocks : List Block) (hs : s.file.stop = none)
    (hfile : s.file.items = encode blocks) : InStep E s blocks ↔
      ∀ k u B, runFor (iteration E) k s = .ok u → blocks[k]? = some B →
        Framed u B (k + 1 = blocks.length) := by
  constructor
  · intro h k u B hu hB
    obtain ⟨hitems, hnext⟩ := h k u hu
    obtain ⟨hdef, hheader⟩ := hnext B hB
    rw [drop_eq_cons hB] at hitems
    have hstop : u.file.stop = none :=
      (reaches_of_runFor hu).invariant hs fun _ _ _ hst hstop => stop_of_iteration hst hstop
    rw [← drop_eq_nil_iff_last hB]
    refine (framed_iff_iteration (E := E) hitems hstop).mpr ⟨hdef, hheader, fun v hv => ?_⟩
    refine (h (k + 1) v ?_).1
    rw [runFor_succ, hu]
    exact hv
  · intro hframed k u hu
    obtain ⟨hitems, hstop⟩ := items_of_framed hs hfile hframed k u hu
    refine ⟨hitems, fun B hB => ?_⟩
    have hf := hframed k u B hu hB
    rw [← drop_eq_nil_iff_last hB] at hf
    rw [drop_eq_cons hB] at hitems
    obtain ⟨hdef, hheader, -⟩ := (framed_iff_iteration (E := E) hitems hstop).mp hf
    exact ⟨hdef, hheader⟩

/-- A file of one `RD_TEST` block. -/
def testFile : List Block := [⟨1, [65, 66, 67], by decide⟩]

/-- The whole file is read in step with its blocks. -/
theorem inStep_testFile : InStep plainEnv (loadOf (encode testFile)) testFile := by
  refine (inStep_iff plainEnv (loadOf (encode testFile)) testFile (by decide) (by decide)).mpr ?_
  intro k u B _ hB
  obtain ⟨hk, rfl⟩ := List.getElem?_eq_some_iff.mp hB
  obtain rfl : k = 0 := Nat.lt_one_iff.mp hk
  exact trivial

/-- The GPU id 730. -/
def gpuIdBlock : Block := ⟨13, [0xda, 2, 0, 0], by decide⟩

/-- The GPU id, and then a chip id. -/
def chipIdFile : List Block :=
  [gpuIdBlock, ⟨14, [1, 0, 7, 0x43, 0, 0, 0, 0], by decide⟩]

/-- **A chip id that is not needed is not read**: the next header is made of its bytes. -/
theorem chipIdFile_outOfStep : ¬ InStep plainEnv (loadOf (encode chipIdFile)) chipIdFile := by
  intro h
  obtain ⟨u, hu, hitems⟩ : ∃ u, runFor (iteration plainEnv) 2 (loadOf (encode chipIdFile)) =
      .ok u ∧ u.file.items = [1, 0, 7, 0x43, 0, 0, 0, 0] := ⟨_, rfl, by decide⟩
  have hrest := (h 2 u hu).1
  rw [hitems] at hrest
  cases hrest

end Pm4CaptureData

end Dive
