import Dive.Memory.Retrieve

/-!
# Range queries of the memory manager

* `getMemoryOfUnknownSizeViaCallback`: the blocks from an address on, handed to a callback.
* `chunks`: what a callback gets that never stops; `feed`: a callback over a list of chunks.
* **`getMemory_eq`**, **`getMaxContiguousSize_eq`**: both loops go through the chunks.
* `Delivered`: chunks follow each other from the address on, with the captured bytes.
* `RangeQueriesAgree`: the largest retrievable size, the validity test and the callback fit
  together; **`rangeQueriesAgree_iff`**: exactly when the range is in reach of the search, and
  sizes that are empty or reach `2 ^ 64` meet the right blocks.
* **`emptyRange_not_agree`**: an empty range at the start of a block.
-/

namespace Dive

/-- The arguments of a call of `PfnGetMemory`: what `data_ptr` points to, `va_addr` and `size`. -/
structure Chunk where
  data : List UInt8
  vaAddr : UInt64
  size : UInt64
  deriving DecidableEq

namespace MemoryManager

/-! ## The callback -/

section Callback

variable {σ : Type} (m : MemoryManager) (submitIndex : UInt32) (vaAddr : UInt64)
  (callback : Chunk → σ → Bool × σ)

/-- The first block just has to contain the address. -/
def holdsFirst (vaAddr : UInt64) (b : MemoryBlock) : Bool :=
  b.vaAddr ≤ vaAddr && vaAddr < b.endAddr

/-- What the callback gets of the first block. -/
def firstChunk (vaAddr : UInt64) (b : MemoryBlock) : Chunk :=
  ⟨b.data.drop (vaAddr - b.vaAddr).toNat, vaAddr, b.endAddr - vaAddr⟩

/-- What the callback gets of another block. -/
def wholeChunk (b : MemoryBlock) : Chunk := ⟨b.data, b.vaAddr, b.dataSize.toUInt64⟩

/-- One call of the callback, which may end the loop (`.error`). -/
def handOver (chunk : Chunk) (next : UInt64) (user : σ) : Except σ (UInt64 × σ) :=
  if (callback chunk user).1 then .ok (next, (callback chunk user).2)
  else .error (callback chunk user).2

/-- One iteration of the loop of `GetMemoryOfUnknownSizeViaCallback`; `user` is what `user_ptr`
points to. -/
def callbackStep (s : UInt64 × σ) (b : MemoryBlock) : Except σ (UInt64 × σ) :=
  if m.validSubmit submitIndex b then
    if s.1 = vaAddr then
      if holdsFirst vaAddr b then handOver callback (firstChunk vaAddr b) b.endAddr s.2 else .ok s
    else if s.1 = b.vaAddr then handOver callback (wholeChunk b) b.endAddr s.2
    else .error s.2
  else .ok s

/-- What a loop leaves in `user`. -/
def leftBy : Except σ (UInt64 × σ) → σ
  | .ok s => s.2
  | .error user => user

/-- `GetMemoryOfUnknownSizeViaCallback`, which always returns true. -/
def getMemoryOfUnknownSizeViaCallback (user : σ) : σ :=
  leftBy (m.memoryBlocks.foldlM (m.callbackStep submitIndex vaAddr callback) (vaAddr, user))

/-! ## Chunks -/

/-- The chunks from `vaAddr` on, for blocks that may be read. -/
def chunksOf (vaAddr : UInt64) (blocks : List MemoryBlock) : List Chunk :=
  match blocks.dropWhile fun b => !holdsFirst vaAddr b with
  | [] => []
  | b :: bs =>
    firstChunk vaAddr b :: (Extent.chain MemoryBlock.extent b.extent.stop bs).map wholeChunk

/-- All chunks of a submit from `vaAddr` on. -/
def chunks : List Chunk := chunksOf vaAddr (m.visible submitIndex)

/-- A callback over a list of chunks. -/
def feed : List Chunk → σ → σ
  | [], user => user
  | c :: cs, user => if (callback c user).1 then feed cs (callback c user).2 else (callback c user).2

/-- The sizes of some chunks. -/
def total (cs : List Chunk) : ℕ := (cs.map fun c => c.size.toNat).sum

/-- A callback that keeps what it gets and stops after `s` bytes. -/
def collect (s : ℕ) (c : Chunk) (cs : List Chunk) : Bool × List Chunk :=
  (total (cs ++ [c]) < s, cs ++ [c])

end Callback

/-! ## The law -/

variable (m : MemoryManager) (submitIndex : UInt32) (vaAddr size : UInt64)

/-- A lookup of the range succeeds. -/
def Retrieves : Prop := ∃ buffer' m',
  m.retrieveMemoryData Buffer.zero submitIndex vaAddr size = some (true, buffer', m')

/-- Each of the `n` bytes from `vaAddr` on can be retrieved. -/
def Retrievable (n : ℕ) : Prop :=
  vaAddr.toNat + n ≤ 2 ^ 64 ∧
    ∀ k < n, m.Retrieves submitIndex (UInt64.ofNat (vaAddr.toNat + k)) 1

/-- The bytes of some chunks. -/
def bytes (cs : List Chunk) : List UInt8 := cs.flatMap Chunk.data

/-- A callback that stops after `s` bytes gets chunks that follow each other from `vaAddr` on, with
the captured bytes, inside the `n` bytes from there, and it gets no chunk more or less than it
takes. -/
structure Delivered (n s : ℕ) (cs : List Chunk) : Prop where
  consecutive : ∀ before c after, cs = before ++ c :: after →
    c.vaAddr.toNat = vaAddr.toNat + (bytes before).length
  sizes : ∀ c ∈ cs, c.size.toNat = c.data.length ∧ 0 < c.data.length
  inside : (bytes cs).length ≤ n
  captured : ∀ k < (bytes cs).length, ∀ b ∈ m.visible submitIndex,
    vaAddr.toNat + k ∈ b.extent → (bytes cs)[k]? = some (b.byteAt (vaAddr.toNat + k))
  enough : min s n ≤ (bytes cs).length
  stops : ∀ before c after, cs = before ++ c :: after → before ≠ [] → (bytes before).length < s

/-- **The three queries agree with the lookup.** -/
structure RangeQueriesAgree : Prop where
  maxSize : IsGreatest {n | m.Retrievable submitIndex vaAddr n}
    (m.getMaxContiguousSize submitIndex vaAddr).toNat
  valid : ∃ ok buffer' m',
    m.retrieveMemoryData Buffer.zero submitIndex vaAddr size = some (ok, buffer', m') ∧
      ok = m.isValid submitIndex vaAddr size
  callback : ∀ s, m.Delivered submitIndex vaAddr
    (m.getMaxContiguousSize submitIndex vaAddr).toNat s
    (m.getMemoryOfUnknownSizeViaCallback submitIndex vaAddr (collect s) [])

/-- The block that holds the address ends below `2 ^ 64`. -/
def FirstAddressable : Prop :=
  ∃ b ∈ m.visible submitIndex, vaAddr.toNat ∈ b.extent ∧ b.Addressable

/-- Some block holds each of the `n` addresses from `vaAddr` on. -/
def HeldBy (blocks : List MemoryBlock) (n : ℕ) : Prop :=
  ∀ k < n, Extent.Covers (blocks.map (·.extent)) (vaAddr.toNat + k)

/-- What the captured memory has to be like for a query. -/
structure QueryInReach : Prop where
  usable : m.FirstAddressable submitIndex vaAddr → ∀ n, HeldBy vaAddr (m.visible submitIndex) n →
    HeldBy vaAddr (m.usable submitIndex m.searched) n
  empty : size = 0 → ¬ m.NoBlockHit submitIndex vaAddr 0
  past : 2 ^ 64 ≤ vaAddr.toNat + size.toNat → m.NoBlockHit submitIndex vaAddr size

/-! ## The loops over the chunks -/

section Loops

variable {σ : Type} {m : MemoryManager} {submitIndex : UInt32} {vaAddr : UInt64}
  {callback : Chunk → σ → Bool × σ} {b : MemoryBlock} {blocks : List MemoryBlock} {user : σ}

/-- The blocks come in order, and none reaches past the address space. -/
structure Ordered (blocks : List MemoryBlock) : Prop where
  pos : ∀ b ∈ blocks, 0 < b.extent.len
  noWrap : ∀ b ∈ blocks, b.extent.stop ≤ 2 ^ 64
  inOrder : blocks.Pairwise fun b c => b.extent.stop ≤ c.extent.start

theorem Ordered.tail (h : Ordered (b :: blocks)) : Ordered blocks :=
  ⟨fun c hc => h.pos c (List.mem_cons_of_mem b hc),
    fun c hc => h.noWrap c (List.mem_cons_of_mem b hc), h.inOrder.of_cons⟩

theorem Ordered.le_start (h : Ordered (b :: blocks)) :
    ∀ c ∈ blocks, b.extent.stop ≤ c.extent.start :=
  (List.pairwise_cons.mp h.inOrder).1

theorem ordered_visible (hm : m.Finalized) (submitIndex : UInt32) :
    Ordered (m.visible submitIndex) := by
  refine ⟨fun b hb => hm.pos b (List.mem_of_mem_filter hb),
    fun b hb => hm.noWrap b (List.mem_of_mem_filter hb), ?_⟩
  rw [visible, List.pairwise_filter]
  refine (hm.sorted.and hm.apart).imp_of_mem fun {b c} _ hc h hb' hc' => ?_
  have hview := sameView_of_valid hb' hc'
  exact (h.2 hview).stop_le (hm.pos c hc) (UInt64.le_iff_toNat_le.mp (h.1 hview))

theorem endAddr_eq (b : MemoryBlock) : b.endAddr = UInt64.ofNat b.extent.stop := by
  rw [← UInt64.toNat_inj, b.toNat_endAddr, UInt64.toNat_ofNat']
  rfl

theorem holdsFirst_iff (hb : b.extent.stop ≤ 2 ^ 64) :
    holdsFirst vaAddr b = true ↔ vaAddr.toNat ∈ b.extent ∧ b.Addressable := by
  have hend := b.toNat_endAddr
  have hstop : b.extent.stop = b.vaAddr.toNat + b.dataSize.toNat := rfl
  rw [holdsFirst, Bool.and_eq_true, decide_eq_true_eq, decide_eq_true_eq, UInt64.le_iff_toNat_le,
    UInt64.lt_iff_toNat_lt, MemoryBlock.mem_extent, MemoryBlock.Addressable]
  omega

theorem callback_chain : ∀ (blocks : List MemoryBlock) (cur : ℕ) (user : σ),
    Ordered (blocks.filter (m.validSubmit submitIndex)) →
    (∀ b ∈ blocks.filter (m.validSubmit submitIndex), cur ≤ b.extent.start) →
    vaAddr.toNat < cur →
    leftBy (blocks.foldlM (m.callbackStep submitIndex vaAddr callback) (UInt64.ofNat cur, user)) =
      feed callback ((Extent.chain MemoryBlock.extent cur
        (blocks.filter (m.validSubmit submitIndex))).map wholeChunk) user
  | [], _, _, _, _, _ => rfl
  | b :: blocks, cur, user, hord, hle, hva => by
    rw [List.foldlM_cons]
    by_cases hvalid : m.validSubmit submitIndex b = true
    · rw [List.filter_cons_of_pos hvalid] at hord hle ⊢
      have hcur : cur ≤ b.vaAddr.toNat := hle b List.mem_cons_self
      have hlt := b.vaAddr.toNat_lt
      have htoNat : (UInt64.ofNat cur).toNat = cur := by
        rw [UInt64.toNat_ofNat', Nat.mod_eq_of_lt (by omega)]
      have hne : UInt64.ofNat cur ≠ vaAddr := by
        rintro rfl
        omega
      rw [callbackStep, if_pos hvalid, if_neg hne, Extent.chain]
      by_cases hnext : b.extent.start = cur
      · have heq : UInt64.ofNat cur = b.vaAddr := by
          rw [← UInt64.toNat_inj, htoNat]
          exact hnext.symm
        have hstop : vaAddr.toNat < b.extent.stop := by
          have hpos := hord.pos b List.mem_cons_self
          show _ < b.extent.start + b.extent.len
          omega
        rw [if_pos heq, if_pos hnext, List.map_cons, feed, handOver]
        split_ifs with hgo
        · rw [endAddr_eq]
          exact callback_chain blocks _ _ hord.tail hord.le_start hstop
        · rfl
      · have hno : UInt64.ofNat cur ≠ b.vaAddr := fun heq => hnext (by
          rw [← htoNat, heq]
          rfl)
        rw [if_neg hno, if_neg hnext]
        rfl
    · rw [List.filter_cons_of_neg hvalid] at hord hle ⊢
      rw [callbackStep, if_neg hvalid]
      exact callback_chain blocks cur user hord hle hva

theorem callback_first : ∀ (blocks : List MemoryBlock) (user : σ),
    Ordered (blocks.filter (m.validSubmit submitIndex)) →
    leftBy (blocks.foldlM (m.callbackStep submitIndex vaAddr callback) (vaAddr, user)) =
      feed callback (chunksOf vaAddr (blocks.filter (m.validSubmit submitIndex))) user
  | [], _, _ => rfl
  | b :: blocks, user, hord => by
    rw [List.foldlM_cons]
    by_cases hvalid : m.validSubmit submitIndex b = true
    · rw [List.filter_cons_of_pos hvalid] at hord ⊢
      rw [callbackStep, if_pos hvalid, if_pos rfl, chunksOf]
      cases hfirst : holdsFirst vaAddr b with
      | true =>
        have hstop := ((holdsFirst_iff (hord.noWrap b List.mem_cons_self)).mp hfirst).1.2
        rw [if_pos rfl, List.dropWhile_cons_of_neg (by simp [hfirst]), feed, handOver]
        split_ifs with hgo
        · rw [endAddr_eq]
          exact callback_chain blocks _ _ hord.tail hord.le_start hstop
        · rfl
      | false =>
        rw [if_neg Bool.false_ne_true, List.dropWhile_cons_of_pos (by simp [hfirst])]
        exact callback_first blocks user hord.tail
    · rw [List.filter_cons_of_neg hvalid] at hord ⊢
      rw [callbackStep, if_neg hvalid]
      exact callback_first blocks user hord

/-- **The callback** gets the chunks, one after the other, until it stops. -/
theorem getMemory_eq (hm : m.Finalized) (submitIndex : UInt32) (vaAddr : UInt64)
    (callback : Chunk → σ → Bool × σ) (user : σ) :
    m.getMemoryOfUnknownSizeViaCallback submitIndex vaAddr callback user =
      feed callback (m.chunks submitIndex vaAddr) user :=
  callback_first m.memoryBlocks user (ordered_visible hm submitIndex)

/-- A callback that keeps the address behind the chunk. -/
def keepEnd (c : Chunk) (_ : UInt64) : Bool × UInt64 := (true, c.vaAddr + c.size)

theorem maxContiguousStep_cases (m : MemoryManager) (submitIndex : UInt32)
    (vaAddr cur : UInt64) (b : MemoryBlock) :
    (∃ next, m.maxContiguousStep submitIndex vaAddr cur b = .ok next ∧
      m.callbackStep submitIndex vaAddr keepEnd (cur, cur) b = .ok (next, next)) ∨
    m.maxContiguousStep submitIndex vaAddr cur b = .error (cur - vaAddr) ∧
      m.callbackStep submitIndex vaAddr keepEnd (cur, cur) b = .error cur := by
  have hfirst : handOver keepEnd (firstChunk vaAddr b) b.endAddr cur =
      .ok (b.endAddr, b.endAddr) := by
    show Except.ok (b.endAddr, vaAddr + (b.endAddr - vaAddr)) = _
    rw [UInt64.add_comm, UInt64.sub_add_cancel]
  have hwhole : handOver keepEnd (wholeChunk b) b.endAddr cur = .ok (b.endAddr, b.endAddr) := rfl
  have hholds : holdsFirst vaAddr b = true ↔ b.vaAddr ≤ vaAddr ∧ vaAddr < b.endAddr := by
    simp [holdsFirst]
  unfold maxContiguousStep callbackStep
  simp only [hholds, hfirst, hwhole]
  split_ifs
  · exact .inl ⟨_, rfl, rfl⟩
  · exact .inl ⟨_, rfl, rfl⟩
  · exact .inl ⟨_, rfl, rfl⟩
  · exact .inr ⟨rfl, rfl⟩
  · exact .inl ⟨_, rfl, rfl⟩

theorem maxContiguous_callback : ∀ (blocks : List MemoryBlock) (cur : UInt64),
    (match blocks.foldlM (m.maxContiguousStep submitIndex vaAddr) cur with
      | .ok cur => cur - vaAddr
      | .error size => size) =
    leftBy (blocks.foldlM (m.callbackStep submitIndex vaAddr keepEnd) (cur, cur)) - vaAddr
  | [], _ => rfl
  | b :: blocks, cur => by
    rw [List.foldlM_cons, List.foldlM_cons]
    rcases maxContiguousStep_cases m submitIndex vaAddr cur b with ⟨next, hmax, hcb⟩ | ⟨hmax, hcb⟩
    · rw [hmax, hcb]
      exact maxContiguous_callback blocks next
    · rw [hmax, hcb]
      rfl

/-- **The largest size** is where a callback gets that never stops. -/
theorem getMaxContiguousSize_eq (hm : m.Finalized) (submitIndex : UInt32) (vaAddr : UInt64) :
    m.getMaxContiguousSize submitIndex vaAddr =
      feed keepEnd (m.chunks submitIndex vaAddr) vaAddr - vaAddr := by
  rw [← getMemory_eq hm]
  exact maxContiguous_callback m.memoryBlocks vaAddr

end Loops

/-! ## Chunks that follow each other -/

section Chunks

variable {vaAddr : UInt64} {c : Chunk} {cs cs' : List Chunk} {b : MemoryBlock}
  {blocks : List MemoryBlock}

@[simp] theorem bytes_nil : bytes [] = [] := rfl

@[simp] theorem bytes_cons : bytes (c :: cs) = c.data ++ bytes cs := rfl

@[simp] theorem bytes_append : bytes (cs ++ cs') = bytes cs ++ bytes cs' := List.flatMap_append

/-- The chunks follow each other, from the address `a` on. -/
def Consecutive : ℕ → List Chunk → Prop
  | _, [] => True
  | a, c :: cs => c.vaAddr.toNat = a ∧ c.size.toNat = c.data.length ∧ 0 < c.data.length ∧
    Consecutive (a + c.data.length) cs

theorem Consecutive.left : ∀ {a : ℕ} {cs : List Chunk}, Consecutive a (cs ++ cs') → Consecutive a cs
  | _, [], _ => trivial
  | _, _ :: _, ⟨haddr, hsize, hpos, hrest⟩ => ⟨haddr, hsize, hpos, Consecutive.left hrest⟩

theorem Consecutive.right : ∀ {a : ℕ} {cs : List Chunk}, Consecutive a (cs ++ cs') →
    Consecutive (a + (bytes cs).length) cs'
  | _, [], h => h
  | a, c :: cs, ⟨_, _, _, hrest⟩ => by
    rw [bytes_cons, List.length_append, ← Nat.add_assoc]
    exact Consecutive.right hrest

theorem Consecutive.sizes : ∀ {a : ℕ} {cs : List Chunk}, Consecutive a cs →
    ∀ c ∈ cs, c.size.toNat = c.data.length ∧ 0 < c.data.length
  | _, [], _ => by simp
  | _, _ :: _, ⟨_, hsize, hpos, hrest⟩ =>
    List.forall_mem_cons.mpr ⟨⟨hsize, hpos⟩, Consecutive.sizes hrest⟩

theorem feed_keepEnd : ∀ {a : ℕ} {cs : List Chunk}, Consecutive a cs →
    feed keepEnd cs (UInt64.ofNat a) = UInt64.ofNat (a + (bytes cs).length)
  | _, [], _ => rfl
  | a, c :: cs, ⟨haddr, hsize, _, hrest⟩ => by
    have hend : c.vaAddr + c.size = UInt64.ofNat (a + c.data.length) := by
      rw [UInt64.ofNat_add, ← haddr, ← hsize, UInt64.ofNat_toNat, UInt64.ofNat_toNat]
    rw [feed, keepEnd, if_pos rfl, hend, feed_keepEnd hrest, bytes_cons, List.length_append,
      Nat.add_assoc]

theorem consecutive_chain : ∀ (cur : ℕ) (blocks : List MemoryBlock),
    (∀ b ∈ blocks, 0 < b.extent.len) →
    Consecutive cur ((Extent.chain MemoryBlock.extent cur blocks).map wholeChunk)
  | _, [], _ => trivial
  | cur, b :: blocks, hpos => by
    obtain ⟨hb, hrest⟩ := List.forall_mem_cons.mp hpos
    unfold Extent.chain
    split_ifs with hstart
    · refine ⟨hstart, ?_, ?_, ?_⟩
      · show b.dataSize.toUInt64.toNat = b.data.length
        rw [b.length_data, UInt32.toNat_toUInt64]
      · show 0 < b.data.length
        rw [b.length_data]
        exact hb
      · have hnext : cur + (wholeChunk b).data.length = b.extent.stop := by
          show cur + b.data.length = _
          rw [b.length_data, ← hstart]
          rfl
        rw [hnext]
        exact consecutive_chain _ blocks hrest
    · trivial

theorem length_chain (cur : ℕ) (blocks : List MemoryBlock) :
    cur + (bytes ((Extent.chain MemoryBlock.extent cur blocks).map wholeChunk)).length =
      Extent.chainStop MemoryBlock.extent cur blocks := by
  rw [Extent.chainStop_eq_add, bytes, List.flatMap_map, List.length_flatMap]
  congr 2
  exact List.map_congr_left fun b _ => b.length_data

theorem captured_chain : ∀ (cur : ℕ) (blocks : List MemoryBlock) (k : ℕ),
    k < (bytes ((Extent.chain MemoryBlock.extent cur blocks).map wholeChunk)).length →
    ∃ b ∈ blocks, cur + k ∈ b.extent ∧
      (bytes ((Extent.chain MemoryBlock.extent cur blocks).map wholeChunk))[k]? =
        some (b.byteAt (cur + k))
  | _, [], _, hk => absurd hk (Nat.not_lt_zero _)
  | cur, b :: blocks, k, hk => by
    unfold Extent.chain at hk ⊢
    split_ifs at hk ⊢ with hstart
    · have hdata : (wholeChunk b).data = b.data := rfl
      have hlen := b.length_data
      have hstart' : b.vaAddr.toNat = cur := hstart
      rw [List.map_cons, bytes_cons, hdata] at hk ⊢
      by_cases hin : k < b.data.length
      · refine ⟨b, List.mem_cons_self, MemoryBlock.mem_extent.mpr (by omega), ?_⟩
        rw [List.getElem?_append_left hin, MemoryBlock.byteAt, hstart', Nat.add_sub_cancel_left,
          List.getD_eq_getElem?_getD, List.getElem?_eq_getElem hin]
        rfl
      · rw [List.length_append] at hk
        obtain ⟨c, hc, hmem, hbyte⟩ := captured_chain b.extent.stop blocks (k - b.data.length)
          (by omega)
        have hsum : b.extent.stop + (k - b.data.length) = cur + k := by
          show b.vaAddr.toNat + b.dataSize.toNat + _ = _
          omega
        rw [hsum] at hmem hbyte
        refine ⟨c, List.mem_cons_of_mem b hc, hmem, ?_⟩
        rw [List.getElem?_append_right (not_lt.mp hin), hbyte]
    · exact absurd hk (Nat.not_lt_zero _)

/-! ## The chunks from an address on -/

theorem chunksOf_cases (vaAddr : UInt64) (blocks : List MemoryBlock) :
    (chunksOf vaAddr blocks = [] ∧ ∀ b ∈ blocks, holdsFirst vaAddr b = false) ∨
    ∃ before b after, blocks = before ++ b :: after ∧ holdsFirst vaAddr b = true ∧
      chunksOf vaAddr blocks = firstChunk vaAddr b ::
        (Extent.chain MemoryBlock.extent b.extent.stop after).map wholeChunk := by
  induction blocks with
  | nil => exact .inl ⟨rfl, by simp⟩
  | cons b blocks ih =>
    cases hb : holdsFirst vaAddr b with
    | true =>
      refine .inr ⟨[], b, blocks, rfl, hb, ?_⟩
      rw [chunksOf, List.dropWhile_cons_of_neg (by simp [hb])]
    | false =>
      have hdrop : chunksOf vaAddr (b :: blocks) = chunksOf vaAddr blocks := by
        rw [chunksOf, List.dropWhile_cons_of_pos (by simp [hb]), chunksOf]
      rw [hdrop]
      rcases ih with ⟨hnil, hno⟩ | ⟨before, c, after, rfl, hc, heq⟩
      · exact .inl ⟨hnil, List.forall_mem_cons.mpr ⟨hb, hno⟩⟩
      · exact .inr ⟨b :: before, c, after, rfl, hc, heq⟩

theorem firstChunk_data (hfirst : holdsFirst vaAddr b = true) (hb : b.extent.stop ≤ 2 ^ 64) :
    (firstChunk vaAddr b).size.toNat = (firstChunk vaAddr b).data.length ∧
      vaAddr.toNat + (firstChunk vaAddr b).data.length = b.extent.stop := by
  obtain ⟨hmem, haddr⟩ := (holdsFirst_iff hb).mp hfirst
  have hmem' := MemoryBlock.mem_extent.mp hmem
  have hend := MemoryBlock.toNat_endAddr_of_addressable haddr
  have hle : b.vaAddr ≤ vaAddr := UInt64.le_iff_toNat_le.mpr hmem'.1
  have hle' : vaAddr ≤ b.endAddr := UInt64.le_iff_toNat_le.mpr (by omega)
  have hsize : (b.endAddr - vaAddr).toNat = b.endAddr.toNat - vaAddr.toNat :=
    UInt64.toNat_sub_of_le _ _ hle'
  have hdata : (firstChunk vaAddr b).data.length =
      b.data.length - (vaAddr.toNat - b.vaAddr.toNat) := by
    rw [firstChunk, List.length_drop, UInt64.toNat_sub_of_le _ _ hle]
  have hlen := b.length_data
  have hstop : b.extent.stop = b.vaAddr.toNat + b.dataSize.toNat := rfl
  refine ⟨?_, by omega⟩
  show (b.endAddr - vaAddr).toNat = _
  omega

/-- **The chunks follow each other.** -/
theorem consecutive_chunksOf (hord : Ordered blocks) :
    Consecutive vaAddr.toNat (chunksOf vaAddr blocks) := by
  rcases chunksOf_cases vaAddr blocks with ⟨hnil, -⟩ | ⟨before, b, after, rfl, hfirst, heq⟩
  · rw [hnil]
    trivial
  · have hmem : b ∈ before ++ b :: after := by simp
    obtain ⟨hsize, hstop⟩ := firstChunk_data hfirst (hord.noWrap b hmem)
    have hholds := ((holdsFirst_iff (hord.noWrap b hmem)).mp hfirst).1.2
    rw [heq]
    refine ⟨rfl, hsize, by omega, ?_⟩
    rw [hstop]
    exact consecutive_chain _ after fun c hc => hord.pos c (by simp [hc])

/-- **The bytes of the chunks** are those of the blocks. -/
theorem captured_chunksOf (hord : Ordered blocks) {k : ℕ}
    (hk : k < (bytes (chunksOf vaAddr blocks)).length) : ∃ b ∈ blocks,
      vaAddr.toNat + k ∈ b.extent ∧
        (bytes (chunksOf vaAddr blocks))[k]? = some (b.byteAt (vaAddr.toNat + k)) := by
  rcases chunksOf_cases vaAddr blocks with ⟨hnil, -⟩ | ⟨before, b, after, rfl, hfirst, heq⟩
  · rw [hnil] at hk
    exact absurd hk (Nat.not_lt_zero _)
  · have hb : b ∈ before ++ b :: after := by simp
    obtain ⟨-, hstop⟩ := firstChunk_data hfirst (hord.noWrap b hb)
    have hholds := ((holdsFirst_iff (hord.noWrap b hb)).mp hfirst).1
    have hle := (MemoryBlock.mem_extent.mp hholds).1
    have hextent : b.extent.stop = b.vaAddr.toNat + b.dataSize.toNat := rfl
    rw [heq, bytes_cons] at hk ⊢
    by_cases hin : k < (firstChunk vaAddr b).data.length
    · refine ⟨b, hb, MemoryBlock.mem_extent.mpr (by omega), ?_⟩
      have hoffset : (vaAddr - b.vaAddr).toNat = vaAddr.toNat - b.vaAddr.toNat :=
        UInt64.toNat_sub_of_le _ _ (UInt64.le_iff_toNat_le.mpr hle)
      have hindex : vaAddr.toNat + k - b.vaAddr.toNat = vaAddr.toNat - b.vaAddr.toNat + k := by
        omega
      have hlt : vaAddr.toNat - b.vaAddr.toNat + k < b.data.length := by
        have := b.length_data
        omega
      rw [List.getElem?_append_left hin, firstChunk, List.getElem?_drop, hoffset,
        MemoryBlock.byteAt, hindex, List.getD_eq_getElem?_getD, List.getElem?_eq_getElem hlt]
      rfl
    · rw [List.length_append] at hk
      obtain ⟨c, hc, hmem, hbyte⟩ := captured_chain b.extent.stop after
        (k - (firstChunk vaAddr b).data.length) (by omega)
      have hsum : b.extent.stop + (k - (firstChunk vaAddr b).data.length) = vaAddr.toNat + k := by
        omega
      rw [hsum] at hmem hbyte
      refine ⟨c, by simp [hc], hmem, ?_⟩
      rw [List.getElem?_append_right (not_lt.mp hin), hbyte]

/-- **Where the chunks end**, no block holds the address. -/
theorem not_covers_end (hord : Ordered blocks)
    (hfirst : ∃ b ∈ blocks, holdsFirst vaAddr b = true) :
    ¬ Extent.Covers (blocks.map (·.extent))
      (vaAddr.toNat + (bytes (chunksOf vaAddr blocks)).length) := by
  rcases chunksOf_cases vaAddr blocks with ⟨-, hno⟩ | ⟨before, b, after, rfl, hb, heq⟩
  · obtain ⟨b, hb, hholds⟩ := hfirst
    rw [hno b hb] at hholds
    exact absurd hholds Bool.false_ne_true
  · have hmem : b ∈ before ++ b :: after := by simp
    obtain ⟨-, hstop⟩ := firstChunk_data hb (hord.noWrap b hmem)
    have hholds := ((holdsFirst_iff (hord.noWrap b hmem)).mp hb).1
    obtain ⟨-, hafter, hsplit⟩ := List.pairwise_append.mp hord.inOrder
    obtain ⟨hle, hrest⟩ := List.pairwise_cons.mp hafter
    have hend : vaAddr.toNat + (bytes (chunksOf vaAddr (before ++ b :: after))).length =
        Extent.chainStop MemoryBlock.extent b.extent.stop after := by
      rw [heq, bytes_cons, List.length_append, ← Nat.add_assoc, hstop, length_chain]
    have hge : b.extent.stop ≤ Extent.chainStop MemoryBlock.extent b.extent.stop after :=
      Extent.le_chainStop _ after
    rw [hend]
    rintro ⟨e, he, ha⟩
    obtain ⟨c, hc, rfl⟩ := List.mem_map.mp he
    have hc' := Extent.mem_def.mp ha
    have hcstop : c.extent.stop = c.extent.start + c.extent.len := rfl
    rcases List.mem_append.mp hc with hbefore | hc
    · have hbelow := hsplit c hbefore b List.mem_cons_self
      have hbstop : b.extent.stop = b.extent.start + b.extent.len := rfl
      omega
    · rcases List.mem_cons.mp hc with rfl | hc
      · omega
      · exact Extent.not_covers_chainStop hrest hle ⟨_, List.mem_map_of_mem hc, ha⟩

/-! ## A callback that stops -/

theorem total_eq (h : ∀ c ∈ cs, c.size.toNat = c.data.length ∧ 0 < c.data.length) :
    total cs = (bytes cs).length := by
  rw [total, bytes, List.length_flatMap]
  congr 1
  exact List.map_congr_left fun c hc => (h c hc).1

theorem feed_collect (s : ℕ) : ∀ cs acc : List Chunk, ∃ taken rest, cs = taken ++ rest ∧
    feed (collect s) cs acc = acc ++ taken ∧ (rest = [] ∨ s ≤ total (acc ++ taken)) ∧
    ∀ before c after, taken = before ++ c :: after → before ≠ [] → total (acc ++ before) < s
  | [], acc => ⟨[], [], rfl, (List.append_nil acc).symm, .inl rfl, by simp⟩
  | c :: cs, acc => by
    by_cases hgo : total (acc ++ [c]) < s
    · obtain ⟨taken, rest, rfl, hfeed, henough, hstops⟩ := feed_collect s cs (acc ++ [c])
      have happend : ∀ l, acc ++ [c] ++ l = acc ++ c :: l := fun l => by simp
      refine ⟨c :: taken, rest, rfl, ?_, ?_, ?_⟩
      · rw [feed, collect, if_pos (decide_eq_true hgo), hfeed, happend]
      · rwa [happend] at henough
      · intro before d after hsplit hne
        cases before with
        | nil => exact absurd rfl hne
        | cons e before =>
          obtain ⟨rfl, htaken⟩ := List.cons_eq_cons.mp hsplit
          by_cases hnil : before = []
          · rw [hnil]
            exact hgo
          · rw [← happend]
            exact hstops before d after htaken hnil
    · refine ⟨[c], cs, rfl, ?_, .inr (not_lt.mp hgo), ?_⟩
      · rw [feed, collect, if_neg (by simpa using hgo)]
      · intro before d after hsplit hne
        have hlen := congrArg List.length hsplit
        rw [List.length_append, List.length_cons, List.length_cons, List.length_nil] at hlen
        have hpos := List.length_pos_iff.mpr hne
        omega

end Chunks

/-! ## Agreement -/

section Agreement

variable {m : MemoryManager} {submitIndex : UInt32} {vaAddr size : UInt64}

/-- The bytes from an address on. -/
def reach (m : MemoryManager) (submitIndex : UInt32) (vaAddr : UInt64) : ℕ :=
  (bytes (m.chunks submitIndex vaAddr)).length

/-- **The callback** gets what it takes. -/
theorem delivered_of_reach (hm : m.Finalized) (submitIndex : UInt32) (vaAddr : UInt64) (s : ℕ) :
    m.Delivered submitIndex vaAddr (m.reach submitIndex vaAddr) s
      (m.getMemoryOfUnknownSizeViaCallback submitIndex vaAddr (collect s) []) := by
  have hord := ordered_visible hm submitIndex
  have hcons : Consecutive vaAddr.toNat (m.chunks submitIndex vaAddr) := consecutive_chunksOf hord
  obtain ⟨taken, rest, hsplit, hfeed, henough, hstops⟩ :=
    feed_collect s (m.chunks submitIndex vaAddr) []
  have hbytes : bytes (m.chunks submitIndex vaAddr) = bytes taken ++ bytes rest := by
    rw [hsplit, bytes_append]
  have hlength : m.reach submitIndex vaAddr = (bytes taken).length + (bytes rest).length := by
    rw [reach, hbytes, List.length_append]
  have htaken : Consecutive vaAddr.toNat taken := by
    rw [hsplit] at hcons
    exact hcons.left
  rw [getMemory_eq hm, hfeed, List.nil_append]
  refine ⟨?_, htaken.sizes, by omega, ?_, ?_, ?_⟩
  · rintro before c after rfl
    exact htaken.right.1
  · intro k hk b hb hmem
    have hk' : k < (bytes (chunksOf vaAddr (m.visible submitIndex))).length := by
      rw [reach] at hlength
      exact hlength.symm ▸ Nat.lt_of_lt_of_le hk (Nat.le_add_right _ _)
    obtain ⟨c, hc, hmem', hbyte⟩ := captured_chunksOf hord hk'
    have hfb := find?_of_apart (blocksApart_visible hm) hb hmem
    have hfc := find?_of_apart (blocksApart_visible hm) hc hmem'
    obtain rfl : c = b := Option.some.inj (hfc.symm.trans hfb)
    rw [← hbyte, show chunksOf vaAddr (m.visible submitIndex) = m.chunks submitIndex vaAddr from rfl,
      hbytes, List.getElem?_append_left hk]
  · rcases henough with rfl | hle
    · rw [hlength]
      exact min_le_right _ _
    · rw [List.nil_append, total_eq htaken.sizes] at hle
      exact (min_le_left _ _).trans hle
  · intro before c after hsplit' hne
    have hlt := hstops before c after hsplit' hne
    rw [List.nil_append] at hlt
    rwa [total_eq (fun d hd => htaken.sizes d (by rw [hsplit']; simp [hd]))] at hlt

/-- **The largest size**, modulo `2 ^ 64`. -/
theorem getMaxContiguousSize_reach (hm : m.Finalized) (submitIndex : UInt32) (vaAddr : UInt64) :
    m.getMaxContiguousSize submitIndex vaAddr = UInt64.ofNat (m.reach submitIndex vaAddr) := by
  have hfeed := feed_keepEnd (@consecutive_chunksOf vaAddr _ (ordered_visible hm submitIndex))
  rw [UInt64.ofNat_toNat, UInt64.ofNat_add, UInt64.ofNat_toNat] at hfeed
  rw [getMaxContiguousSize_eq hm, chunks, hfeed, UInt64.add_comm, UInt64.add_sub_cancel]
  rfl

theorem firstAddressable_iff (hm : m.Finalized) : m.FirstAddressable submitIndex vaAddr ↔
    ∃ b ∈ m.visible submitIndex, holdsFirst vaAddr b = true := by
  refine exists_congr fun b => and_congr_right fun hb => ?_
  exact (holdsFirst_iff ((ordered_visible hm submitIndex).noWrap b hb)).symm

/-- **What is held from an address on**, if the first block is addressable. -/
theorem heldBy_iff (hm : m.Finalized) (hfirst : m.FirstAddressable submitIndex vaAddr) (n : ℕ) :
    HeldBy vaAddr (m.visible submitIndex) n ↔ n ≤ m.reach submitIndex vaAddr := by
  have hord := ordered_visible hm submitIndex
  constructor
  · intro h
    by_contra hlt
    exact not_covers_end hord ((firstAddressable_iff hm).mp hfirst) (h _ (not_le.mp hlt))
  · intro hle k hk
    obtain ⟨b, hb, hmem, -⟩ := captured_chunksOf hord (lt_of_lt_of_le hk hle)
    exact ⟨b.extent, List.mem_map_of_mem hb, hmem⟩

theorem reach_of_not_first (hm : m.Finalized) (hfirst : ¬ m.FirstAddressable submitIndex vaAddr) :
    m.reach submitIndex vaAddr = 0 := by
  rw [firstAddressable_iff hm] at hfirst
  rcases chunksOf_cases vaAddr (m.visible submitIndex) with ⟨hnil, -⟩ | ⟨before, b, after, heq, hb, -⟩
  · rw [reach, chunks, hnil]
    rfl
  · exact absurd ⟨b, by rw [heq]; simp, hb⟩ hfirst

theorem firstAddressable_of_usable {a : ℕ} (ha : a = vaAddr.toNat)
    (h : Extent.Covers ((m.usable submitIndex m.searched).map (·.extent)) a) :
    m.FirstAddressable submitIndex vaAddr := by
  obtain ⟨e, he, hmem⟩ := h
  obtain ⟨b, hb, rfl⟩ := List.mem_map.mp he
  exact ⟨b, usable_sublist_visible.subset hb, ha ▸ hmem, (mem_usable.mp hb).2.2⟩

/-- **A byte can be retrieved** exactly when a usable block holds it. -/
theorem retrieves_byte_iff (hm : m.Finalized) (hl : m.LastReachable) {a : ℕ} (ha : a < 2 ^ 64) :
    m.Retrieves submitIndex (UInt64.ofNat a) 1 ↔
      Extent.Covers ((m.usable submitIndex m.searched).map (·.extent)) a := by
  have htoNat : (UInt64.ofNat a).toNat = a := by
    rw [UInt64.toNat_ofNat', Nat.mod_eq_of_lt ha]
  by_cases hq : (UInt64.ofNat a).toNat + (1 : UInt64).toNat < 2 ^ 64
  · have hshort : ∃ ok m', m.retrieveMemoryData Buffer.zero submitIndex (UInt64.ofNat a) 1 =
        some (ok, _, m') ∧ (ok = true ↔ m.CoveredByUsable submitIndex (UInt64.ofNat a) 1) :=
      retrieveMemoryData_short hm hl hq (by decide) Buffer.zero
    obtain ⟨ok, m', hr, hok⟩ := hshort
    have hbyte : m.CoveredByUsable submitIndex (UInt64.ofNat a) 1 ↔
        Extent.Covers ((m.usable submitIndex m.searched).map (·.extent)) a := by
      constructor
      · intro h
        exact h a (mem_queried.mpr ⟨htoNat.le, by rw [htoNat]; exact Nat.lt_succ_self a⟩)
      · intro h x hx
        obtain rfl : x = a := by
          have := mem_queried.mp hx
          rw [htoNat] at this
          have h1 : (1 : UInt64).toNat = 1 := rfl
          omega
        exact h
    rw [← hbyte, ← hok]
    constructor
    · rintro ⟨buffer', m'', h⟩
      rw [hr] at h
      cases h
      rfl
    · rintro rfl
      exact ⟨_, m', hr⟩
  · rw [not_lt] at hq
    obtain ⟨hnone, hhit⟩ := retrieveMemoryData_wrapped hm hl submitIndex hq Buffer.zero
    constructor
    · rintro ⟨buffer', m', h⟩
      by_cases hno : m.NoBlockHit submitIndex (UInt64.ofNat a) 1
      · rw [hnone hno] at h
        cases h
      · rw [hhit hno] at h
        cases h
    · rintro ⟨e, he, hmem⟩
      obtain ⟨b, hb, rfl⟩ := List.mem_map.mp he
      have haddr : b.vaAddr.toNat + b.dataSize.toNat < 2 ^ 64 := (mem_usable.mp hb).2.2
      have hmem' := MemoryBlock.mem_extent.mp hmem
      have h1 : (1 : UInt64).toNat = 1 := rfl
      omega

/-! ## Empty ranges -/

theorem retrieveLoop_empty : ∀ (bs : List MemoryBlock) (buffer : Buffer)
    (last : Option MemoryBlock), (∀ b ∈ bs, b.extent.stop ≤ 2 ^ 64) → ∃ buffer' last',
    m.retrieveLoop submitIndex vaAddr 0 bs 0 buffer last =
      some (decide (∃ b ∈ bs, m.validSubmit submitIndex b = true ∧ b.overlaps vaAddr 0 = true),
        buffer', last')
  | [], buffer, last, _ => ⟨buffer, last, by simp [retrieveLoop]⟩
  | b :: bs, buffer, last, hwrap => by
    obtain ⟨hb, hrest⟩ := List.forall_mem_cons.mp hwrap
    unfold retrieveLoop
    by_cases hhit : (m.validSubmit submitIndex b && b.overlaps vaAddr 0) = true
    · obtain ⟨hvalid, hoverlaps⟩ := Bool.and_eq_true_iff.mp hhit
      have haddr := MemoryBlock.addressable_of_overlaps hb hoverlaps
      have hin := (MemoryBlock.overlaps_iff haddr (by simpa using vaAddr.toNat_lt)).mp hoverlaps
      rw [UInt64.toNat_zero, Nat.add_zero] at hin
      have hend := MemoryBlock.toNat_endAddr_of_addressable haddr
      have hlen := b.length_data
      have hstart : max vaAddr b.vaAddr = vaAddr := by
        rw [← UInt64.toNat_inj, toNat_max]
        omega
      have hstop : min b.endAddr vaAddr = vaAddr := by
        rw [← UInt64.toNat_inj, toNat_min]
        omega
      have hoffset : (vaAddr - b.vaAddr).toNat = vaAddr.toNat - b.vaAddr.toNat :=
        UInt64.toNat_sub_of_le _ _ (UInt64.le_iff_toNat_le.mpr (by omega))
      have hall : ∃ c ∈ b :: bs, m.validSubmit submitIndex c = true ∧ c.overlaps vaAddr 0 = true :=
        ⟨b, List.mem_cons_self, hvalid, hoverlaps⟩
      simp only [if_pos hhit, UInt64.add_zero, hstart, hstop, UInt64.sub_self, UInt64.toNat_zero,
        hoffset]
      rw [memcpy, if_pos (by omega), decide_eq_true hall]
      exact ⟨_, _, rfl⟩
    · obtain ⟨buffer', last', h⟩ := retrieveLoop_empty bs buffer last hrest
      refine ⟨buffer', last', ?_⟩
      rw [if_neg hhit, h]
      have hno : ¬ (m.validSubmit submitIndex b = true ∧ b.overlaps vaAddr 0 = true) := by
        simpa using hhit
      simp [hno]

/-- **An empty range** is found exactly when some block passes a test of the lookup. -/
theorem retrieve_empty (hm : m.Finalized) (hl : m.LastReachable) (submitIndex : UInt32)
    (vaAddr : UInt64) : ∃ ok buffer' m',
    m.retrieveMemoryData Buffer.zero submitIndex vaAddr 0 = some (ok, buffer', m') ∧
      (ok = true ↔ ¬ m.NoBlockHit submitIndex vaAddr 0) := by
  have hwrap : ∀ b ∈ m.searched.reverse, b.extent.stop ≤ 2 ^ 64 := fun b hb =>
    hm.noWrap b (mem_memoryBlocks_of_searched (List.mem_reverse.mp hb))
  unfold retrieveMemoryData NoBlockHit
  cases hfast : m.fastPath submitIndex vaAddr 0 with
  | some b =>
    obtain ⟨hlast, htest⟩ := Option.filter_eq_some_iff.mp hfast
    rw [Bool.and_eq_true, MemoryBlock.encompasses, Bool.and_eq_true, decide_eq_true_eq,
      decide_eq_true_eq, UInt64.add_zero, UInt64.le_iff_toNat_le, UInt64.le_iff_toNat_le] at htest
    have hend := MemoryBlock.toNat_endAddr_of_addressable (hl b hlast).2
    have hlen := b.length_data
    have hoffset : (vaAddr - b.vaAddr).toNat = vaAddr.toNat - b.vaAddr.toNat :=
      UInt64.toNat_sub_of_le _ _ (UInt64.le_iff_toNat_le.mpr htest.2.1)
    dsimp only
    rw [memcpy, hoffset, UInt64.toNat_zero, if_pos (by omega)]
    exact ⟨true, _, m, rfl, by simp⟩
  | none =>
    obtain ⟨buffer', last', h⟩ := @retrieveLoop_empty m submitIndex vaAddr m.searched.reverse
      Buffer.zero m.lastUsedBlock hwrap
    dsimp only
    rw [h]
    exact ⟨_, _, _, rfl, by simp⟩

/-! ## When the queries agree -/

/-- **The retrievable bytes** are those that usable blocks hold. -/
theorem retrievable_iff (hm : m.Finalized) (hl : m.LastReachable) (n : ℕ) :
    m.Retrievable submitIndex vaAddr n ↔ HeldBy vaAddr (m.usable submitIndex m.searched) n := by
  constructor
  · rintro ⟨hle, hbytes⟩ k hk
    exact (retrieves_byte_iff hm hl (by omega)).mp (hbytes k hk)
  · intro h
    -- a usable block ends below `2 ^ 64`
    have hlt : ∀ k < n, vaAddr.toNat + k < 2 ^ 64 := by
      intro k hk
      obtain ⟨e, he, hmem⟩ := h k hk
      obtain ⟨b, hb, rfl⟩ := List.mem_map.mp he
      have haddr : b.vaAddr.toNat + b.dataSize.toNat < 2 ^ 64 := (mem_usable.mp hb).2.2
      have hmem' := MemoryBlock.mem_extent.mp hmem
      omega
    refine ⟨?_, fun k hk => (retrieves_byte_iff hm hl (hlt k hk)).mpr (h k hk)⟩
    by_contra hgt
    have hva := vaAddr.toNat_lt
    exact absurd (hlt (n - 1) (by omega)) (by omega)

theorem coveredByUsable_iff : m.CoveredByUsable submitIndex vaAddr size ↔
    HeldBy vaAddr (m.usable submitIndex m.searched) size.toNat := by
  constructor
  · intro h k hk
    exact h _ (mem_queried.mpr ⟨Nat.le_add_right _ _, by omega⟩)
  · intro h a ha
    have hrange := mem_queried.mp ha
    have hk := h (a - vaAddr.toNat) (by omega)
    rwa [Nat.add_sub_cancel' hrange.1] at hk

theorem HeldBy.mono {blocks : List MemoryBlock} {n n' : ℕ} (h : HeldBy vaAddr blocks n')
    (hle : n ≤ n') : HeldBy vaAddr blocks n := fun k hk => h k (lt_of_lt_of_le hk hle)

theorem heldBy_visible {n : ℕ} (h : HeldBy vaAddr (m.usable submitIndex m.searched) n) :
    HeldBy vaAddr (m.visible submitIndex) n := fun k hk =>
  (h k hk).mono (usable_sublist_visible.map _).subset

/-- **In reach**, the usable blocks hold what there is, and it ends below `2 ^ 64`. -/
theorem held_iff_of_usable (hm : m.Finalized)
    (husable : m.FirstAddressable submitIndex vaAddr → ∀ n,
      HeldBy vaAddr (m.visible submitIndex) n → HeldBy vaAddr (m.usable submitIndex m.searched) n)
    (n : ℕ) : HeldBy vaAddr (m.usable submitIndex m.searched) n ↔
      n ≤ m.reach submitIndex vaAddr := by
  by_cases hfirst : m.FirstAddressable submitIndex vaAddr
  · rw [← heldBy_iff hm hfirst]
    exact ⟨heldBy_visible, husable hfirst n⟩
  · rw [reach_of_not_first hm hfirst]
    constructor
    · intro h
      by_contra hpos
      exact hfirst (firstAddressable_of_usable (Nat.add_zero _) (h 0 (by omega)))
    · intro hle k hk
      omega

theorem end_lt_of_usable {n : ℕ} (hpos : 0 < n)
    (h : HeldBy vaAddr (m.usable submitIndex m.searched) n) : vaAddr.toNat + n < 2 ^ 64 := by
  obtain ⟨e, he, hmem⟩ := h (n - 1) (by omega)
  obtain ⟨b, hb, rfl⟩ := List.mem_map.mp he
  have haddr : b.vaAddr.toNat + b.dataSize.toNat < 2 ^ 64 := (mem_usable.mp hb).2.2
  have hmem' := MemoryBlock.mem_extent.mp hmem
  omega

theorem reach_lt (hm : m.Finalized)
    (husable : m.FirstAddressable submitIndex vaAddr → ∀ n,
      HeldBy vaAddr (m.visible submitIndex) n → HeldBy vaAddr (m.usable submitIndex m.searched) n) :
    vaAddr.toNat + m.reach submitIndex vaAddr < 2 ^ 64 := by
  have hva := vaAddr.toNat_lt
  by_cases hzero : m.reach submitIndex vaAddr = 0
  · omega
  · exact end_lt_of_usable (Nat.pos_of_ne_zero hzero)
      ((held_iff_of_usable hm husable _).mpr le_rfl)

theorem QueryInReach.agree (hm : m.Finalized) (hl : m.LastReachable)
    (h : m.QueryInReach submitIndex vaAddr size) :
    m.RangeQueriesAgree submitIndex vaAddr size := by
  have hheld := held_iff_of_usable hm h.usable
  have hlt := reach_lt hm h.usable
  have hmax : (m.getMaxContiguousSize submitIndex vaAddr).toNat = m.reach submitIndex vaAddr := by
    rw [getMaxContiguousSize_reach hm, UInt64.toNat_ofNat', Nat.mod_eq_of_lt (by omega)]
  have hvalid : m.isValid submitIndex vaAddr size = true ↔
      size.toNat ≤ m.reach submitIndex vaAddr := by
    rw [isValid, decide_eq_true_eq, UInt64.le_iff_toNat_le, hmax]
  refine ⟨?_, ?_, fun s => ?_⟩
  · rw [hmax]
    constructor
    · exact (retrievable_iff hm hl _).mpr ((hheld _).mpr le_rfl)
    · intro n hn
      exact (hheld n).mp ((retrievable_iff hm hl n).mp hn)
  · by_cases hsize : size = 0
    · subst hsize
      obtain ⟨ok, buffer', m', hr, hok⟩ := retrieve_empty hm hl submitIndex vaAddr
      refine ⟨ok, buffer', m', hr, Bool.eq_iff_iff.mpr ?_⟩
      rw [hok, hvalid, UInt64.toNat_zero]
      exact ⟨fun _ => Nat.zero_le _, fun _ => h.empty rfl⟩
    · have hpos : 0 < size.toNat := Nat.pos_of_ne_zero fun hz => hsize (UInt64.toNat_inj.mp hz)
      by_cases hq : vaAddr.toNat + size.toNat < 2 ^ 64
      · obtain ⟨ok, m', hr, hok⟩ := retrieveMemoryData_short hm hl hq hpos Buffer.zero
        refine ⟨ok, _, m', hr, Bool.eq_iff_iff.mpr ?_⟩
        rw [hok, hvalid, coveredByUsable_iff, hheld]
      · rw [not_lt] at hq
        have hno := h.past hq
        refine ⟨false, _, _, (retrieveMemoryData_wrapped hm hl submitIndex hq Buffer.zero).1 hno, ?_⟩
        refine (Bool.eq_false_iff.mpr fun hyes => ?_).symm
        rw [hvalid] at hyes
        omega
  · rw [hmax]
    exact delivered_of_reach hm submitIndex vaAddr s

theorem RangeQueriesAgree.inReach (hm : m.Finalized) (hl : m.LastReachable)
    (h : m.RangeQueriesAgree submitIndex vaAddr size) : m.QueryInReach submitIndex vaAddr size := by
  have hmax : (m.getMaxContiguousSize submitIndex vaAddr).toNat = m.reach submitIndex vaAddr := by
    -- a callback that does not stop gets all there is
    have hinside := (h.callback (m.reach submitIndex vaAddr)).inside
    have henough := (delivered_of_reach hm submitIndex vaAddr
      (m.reach submitIndex vaAddr)).enough
    have hle : (m.getMaxContiguousSize submitIndex vaAddr).toNat ≤ m.reach submitIndex vaAddr := by
      rw [getMaxContiguousSize_reach hm, UInt64.toNat_ofNat']
      exact Nat.mod_le _ _
    rw [min_self] at henough
    omega
  obtain ⟨ok, buffer', m', hr, hok⟩ := h.valid
  refine ⟨fun hfirst n hn => ?_, ?_, fun hq => ?_⟩
  · have hall := (retrievable_iff hm hl _).mp h.maxSize.1
    rw [hmax] at hall
    exact hall.mono ((heldBy_iff hm hfirst n).mp hn)
  · rintro rfl
    obtain ⟨ok', buffer'', m'', hr', hok'⟩ := retrieve_empty hm hl submitIndex vaAddr
    rw [hr] at hr'
    cases hr'
    refine hok'.mp (hok.trans ?_)
    rw [isValid, decide_eq_true_eq, UInt64.le_iff_toNat_le, UInt64.toNat_zero]
    exact Nat.zero_le _
  · by_contra hno
    rw [(retrieveMemoryData_wrapped hm hl submitIndex hq Buffer.zero).2 hno] at hr
    cases hr

end Agreement

/-- **Range queries.** After any history of lookups, the range queries agree with the lookup exactly
when the query is in reach. -/
theorem rangeQueriesAgree_iff {cold m : MemoryManager} (hm : cold.Finalized)
    (hcold : cold.lastUsedBlock = none) (history : List Lookup)
    (hist : cold.afterLookups history = some m) (submitIndex : UInt32) (vaAddr size : UInt64) :
    m.RangeQueriesAgree submitIndex vaAddr size ↔ m.QueryInReach submitIndex vaAddr size := by
  have hl0 : cold.LastReachable := fun b hb => by
    rw [hcold] at hb
    cases hb
  obtain ⟨last, rfl, hl⟩ := lastUsed_reachable hm hl0 history hist
  exact ⟨fun h => h.inReach hm.remember hl, fun h => h.agree hm.remember hl⟩

/-- Eight bytes inside a block that has been used. -/
theorem rangeQueriesAgree_inside :
    (oneBlock.remember (some sixteenBytes)).RangeQueriesAgree 0 0x1004 8 := by
  refine (rangeQueriesAgree_iff finalized_oneBlock rfl [firstDword] afterLookups_firstDword 0
    0x1004 8).mpr ⟨fun _ n h => ?_, fun hzero => ?_, fun hpast => ?_⟩
  · have hall : (oneBlock.remember (some sixteenBytes)).usable 0
        (oneBlock.remember (some sixteenBytes)).searched =
        (oneBlock.remember (some sixteenBytes)).visible 0 := by decide
    rw [hall]
    exact h
  · exact absurd hzero (by decide)
  · exact absurd hpast (by decide)

/-! ## An empty range -/

/-- **An empty range** that no block is around, such as the code of a shader that was not captured:
it is valid, but its lookup fails. -/
theorem emptyRange_not_agree : oneBlock.Finalized ∧ oneBlock.lastUsedBlock = none ∧
    oneBlock.getMaxContiguousSize 0 0x3000 = 0 ∧ oneBlock.isValid 0 0x3000 0 = true ∧
    (oneBlock.retrieveMemoryData Buffer.zero 0 0x3000 0).map (fun r => r.1) = some false ∧
    ¬ oneBlock.RangeQueriesAgree 0 0x3000 0 := by
  have hlookup : (oneBlock.retrieveMemoryData Buffer.zero 0 0x3000 0).map (fun r => r.1) =
      some false := by rfl
  refine ⟨finalized_oneBlock, rfl, by rfl, by rfl, hlookup, fun h => ?_⟩
  obtain ⟨ok, buffer', m', hr, hok⟩ := h.valid
  rw [hr] at hlookup
  have hvalid : oneBlock.isValid 0 0x3000 0 = true := by rfl
  rw [hvalid] at hok
  cases hlookup
  exact Bool.false_ne_true hok

end MemoryManager

end Dive
