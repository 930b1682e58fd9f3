import Dive.Memory.Manager

/-!
# Lookups in a finalized memory manager

* `MemoryManager.Finalized`: the shape of the block list that lookups rely on.
* `retrieveLoop_eq`: the search, on a query that ends below `2 ^ 64`, counts the covered bytes and
  fills them in; `retrieveLoop_wrapped`: on any other query.
* `lastUsed_reachable`: what the last-used block can be after any history of lookups.
* **`retrieveMemoryData_correct_iff`**: after any history, a lookup answers coverage, returns the
  stored bytes and does not depend on the history, exactly when `LookupInRange` holds.
-/

namespace Dive

/-! ## Addresses of one block -/

namespace MemoryBlock

/-- The address after the block fits in 64 bits. -/
def Addressable (b : MemoryBlock) : Prop := b.vaAddr.toNat + b.dataSize.toNat < 2 ^ 64

instance (b : MemoryBlock) : Decidable b.Addressable := inferInstanceAs (Decidable (_ < _))

theorem toNat_endAddr (b : MemoryBlock) :
    b.endAddr.toNat = (b.vaAddr.toNat + b.dataSize.toNat) % 2 ^ 64 := by
  rw [endAddr, UInt64.toNat_add, UInt32.toNat_toUInt64]

theorem toNat_endAddr_of_addressable {b : MemoryBlock} (hb : b.Addressable) :
    b.endAddr.toNat = b.vaAddr.toNat + b.dataSize.toNat := by
  rw [toNat_endAddr, Nat.mod_eq_of_lt hb]

theorem mem_extent {b : MemoryBlock} {a : ℕ} :
    a ∈ b.extent ↔ b.vaAddr.toNat ≤ a ∧ a < b.vaAddr.toNat + b.dataSize.toNat := Iff.rfl

theorem overlaps_iff {b : MemoryBlock} (hb : b.Addressable) {vaAddr size : UInt64}
    (hq : vaAddr.toNat + size.toNat < 2 ^ 64) : b.overlaps vaAddr size = true ↔
      vaAddr.toNat < b.vaAddr.toNat + b.dataSize.toNat ∧
        b.vaAddr.toNat < vaAddr.toNat + size.toNat := by
  simp only [overlaps, Bool.and_eq_true, decide_eq_true_eq, UInt64.lt_iff_toNat_lt,
    toNat_endAddr_of_addressable hb, UInt64.toNat_add, Nat.mod_eq_of_lt hq]

theorem addressable_of_overlaps {b : MemoryBlock}
    (hw : b.vaAddr.toNat + b.dataSize.toNat ≤ 2 ^ 64) {vaAddr size : UInt64}
    (ho : b.overlaps vaAddr size = true) : b.Addressable := by
  by_contra hb
  have h : b.endAddr.toNat = 0 := by
    rw [Addressable] at hb
    rw [toNat_endAddr]
    omega
  simp [overlaps, UInt64.lt_iff_toNat_lt, h] at ho

end MemoryBlock

theorem toNat_max (a b : UInt64) : (max a b).toNat = max a.toNat b.toNat := by
  rw [show max a b = if a ≤ b then b else a from rfl]
  split_ifs with h <;> rw [UInt64.le_iff_toNat_le] at h <;> omega

theorem toNat_min (a b : UInt64) : (min a b).toNat = min a.toNat b.toNat := by
  rw [show min a b = if a ≤ b then a else b from rfl]
  split_ifs with h <;> rw [UInt64.le_iff_toNat_le] at h <;> omega

/-- The queried addresses. -/
def queried (vaAddr size : UInt64) : Extent := ⟨vaAddr.toNat, size.toNat⟩

theorem mem_queried {vaAddr size : UInt64} {a : ℕ} :
    a ∈ queried vaAddr size ↔ vaAddr.toNat ≤ a ∧ a < vaAddr.toNat + size.toNat := Iff.rfl

/-! ## What a search writes -/

/-- Blocks of a list have no address in common. -/
abbrev BlocksApart (bs : List MemoryBlock) : Prop :=
  bs.Pairwise fun b c => Extent.Apart b.extent c.extent

/-- The buffer after the bytes that `bs` hold for the query are copied into it. -/
def fill (bs : List MemoryBlock) (vaAddr size : UInt64) (buffer : Buffer) : Buffer := fun i =>
  if i < size.toNat then
    ((bs.find? fun b => vaAddr.toNat + i ∈ b.extent).map (·.byteAt (vaAddr.toNat + i))).getD (buffer i)
  else buffer i

theorem find?_of_apart {bs : List MemoryBlock} (h : BlocksApart bs) {b : MemoryBlock}
    (hb : b ∈ bs) {a : ℕ} (ha : a ∈ b.extent) : bs.find? (fun b => a ∈ b.extent) = some b := by
  induction bs with
  | nil => cases hb
  | cons c bs ih =>
    rw [BlocksApart, List.pairwise_cons] at h
    rcases List.mem_cons.mp hb with rfl | hb
    · rw [List.find?_cons_of_pos (by simpa using ha)]
    · rw [List.find?_cons_of_neg (by simpa using (h.1 b hb).symm a ha), ih h.2 hb]

theorem find?_eq_none_of_not_covers {bs : List MemoryBlock} {a : ℕ}
    (h : ¬ Extent.Covers (bs.map (·.extent)) a) : bs.find? (fun b => a ∈ b.extent) = none := by
  simp only [List.find?_eq_none, decide_eq_true_eq]
  exact fun b hb ha => h ⟨b.extent, List.mem_map_of_mem hb, ha⟩

theorem fill_nil (vaAddr size : UInt64) (buffer : Buffer) : fill [] vaAddr size buffer = buffer := by
  funext i
  simp [fill]

theorem fill_cons {b : MemoryBlock} {bs : List MemoryBlock} (h : BlocksApart (b :: bs))
    (vaAddr size : UInt64) (buffer : Buffer) :
    fill bs vaAddr size (fill [b] vaAddr size buffer) = fill (b :: bs) vaAddr size buffer := by
  rw [BlocksApart, List.pairwise_cons] at h
  funext i
  by_cases hi : i < size.toNat
  · simp only [fill, if_pos hi, List.find?_cons]
    by_cases ha : vaAddr.toNat + i ∈ b.extent
    · rw [find?_eq_none_of_not_covers]
      · simp [ha]
      · rintro ⟨e, he, hae⟩
        obtain ⟨c, hc, rfl⟩ := List.mem_map.mp he
        exact h.1 c hc _ ha hae
    · simp [ha]
  · simp only [fill, if_neg hi]

theorem fill_of_overlap_zero {bs : List MemoryBlock} {vaAddr size : UInt64}
    (h : ((bs.map (·.extent)).map (Extent.overlap (queried vaAddr size))).sum = 0)
    (buffer : Buffer) : fill bs vaAddr size buffer = buffer := by
  funext i
  by_cases hi : i < size.toNat
  · rw [fill, if_pos hi, find?_eq_none_of_not_covers]
    · rfl
    · rintro ⟨e, he, hae⟩
      have h0 : Extent.overlap (queried vaAddr size) e = 0 :=
        List.sum_eq_zero_iff_forall_eq_nat.mp h _ (List.mem_map_of_mem he)
      exact Extent.overlap_eq_zero h0 (mem_queried.mpr (by omega)) hae
  · rw [fill, if_neg hi]

theorem memcpy_overlap {b : MemoryBlock} (hb : b.Addressable) {vaAddr size : UInt64}
    (hq : vaAddr.toNat + size.toNat < 2 ^ 64)
    (ho : b.overlaps vaAddr size = true) (buffer : Buffer) :
    (min b.endAddr (vaAddr + size) - max vaAddr b.vaAddr).toNat =
        Extent.overlap (queried vaAddr size) b.extent ∧
      memcpy buffer (max vaAddr b.vaAddr - vaAddr).toNat b.data
          (max vaAddr b.vaAddr - b.vaAddr).toNat
          (min b.endAddr (vaAddr + size) - max vaAddr b.vaAddr).toNat =
        some (fill [b] vaAddr size buffer) := by
  have hqe : (vaAddr + size).toNat = vaAddr.toNat + size.toNat := by
    rw [UInt64.toNat_add, Nat.mod_eq_of_lt hq]
  have hend := MemoryBlock.toNat_endAddr_of_addressable hb
  rw [MemoryBlock.overlaps_iff hb hq] at ho
  have hsrc : (max vaAddr b.vaAddr - b.vaAddr).toNat =
      max vaAddr.toNat b.vaAddr.toNat - b.vaAddr.toNat := by
    rw [UInt64.toNat_sub_of_le, toNat_max]
    rw [UInt64.le_iff_toNat_le, toNat_max]; omega
  have hdst : (max vaAddr b.vaAddr - vaAddr).toNat =
      max vaAddr.toNat b.vaAddr.toNat - vaAddr.toNat := by
    rw [UInt64.toNat_sub_of_le, toNat_max]
    rw [UInt64.le_iff_toNat_le, toNat_max]; omega
  have hlen : (min b.endAddr (vaAddr + size) - max vaAddr b.vaAddr).toNat =
      Extent.overlap (queried vaAddr size) b.extent := by
    rw [UInt64.toNat_sub_of_le, toNat_max, toNat_min, hend, hqe]
    · simp only [Extent.overlap, Extent.stop, queried, MemoryBlock.extent]
      omega
    · rw [UInt64.le_iff_toNat_le, toNat_max, toNat_min, hend, hqe]
      omega
  refine ⟨hlen, ?_⟩
  have hov : Extent.overlap (queried vaAddr size) b.extent =
      min (b.vaAddr.toNat + b.dataSize.toNat) (vaAddr.toNat + size.toNat) -
        max b.vaAddr.toNat vaAddr.toNat := rfl
  have hdata := b.length_data
  rw [hlen, hsrc, hdst, memcpy, if_pos (by omega)]
  congr 1
  funext i
  by_cases hi : i < size.toNat
  · rw [fill, if_pos hi, List.find?_cons]
    by_cases ha : vaAddr.toNat + i ∈ b.extent
    · rw [MemoryBlock.mem_extent] at ha
      rw [if_pos (by omega)]
      simp only [MemoryBlock.mem_extent, ha, and_self, decide_true, Option.map_some,
        Option.getD_some, MemoryBlock.byteAt]
      congr 1
      omega
    · rw [if_neg (by rw [MemoryBlock.mem_extent] at ha; omega)]
      simp [ha]
  · rw [fill, if_neg hi, if_neg (by omega)]

theorem memcpy_wrapped {b : MemoryBlock} (hb : b.Addressable) {vaAddr size : UInt64}
    (hv : b.vaAddr.toNat ≤ vaAddr.toNat) (hq : 2 ^ 64 ≤ vaAddr.toNat + size.toNat)
    (buffer : Buffer) (dstOffset : ℕ) :
    memcpy buffer dstOffset b.data (vaAddr - b.vaAddr).toNat size.toNat = none := by
  have hdata := b.length_data
  rw [MemoryBlock.Addressable] at hb
  rw [memcpy, if_neg]
  rw [UInt64.toNat_sub_of_le _ _ (UInt64.le_iff_toNat_le.mpr hv)]
  omega

/-! ## The search -/

namespace MemoryManager

variable (m : MemoryManager) (submitIndex : UInt32) (vaAddr size : UInt64)

/-- The blocks of a list that a search for the submit can use. -/
def usable (bs : List MemoryBlock) : List MemoryBlock :=
  bs.filter fun b => m.validSubmit submitIndex b && decide b.Addressable

/-- How many queried bytes the usable blocks of a list hold. -/
def usableBytes (bs : List MemoryBlock) : ℕ :=
  (((m.usable submitIndex bs).map (·.extent)).map (Extent.overlap (queried vaAddr size))).sum

variable {m submitIndex vaAddr size}

theorem mem_usable {bs : List MemoryBlock} {b : MemoryBlock} :
    b ∈ m.usable submitIndex bs ↔ b ∈ bs ∧ m.validSubmit submitIndex b = true ∧ b.Addressable := by
  simp [usable]

theorem usable_cons_of_mem {b : MemoryBlock} {bs : List MemoryBlock}
    (hv : m.validSubmit submitIndex b = true) (hb : b.Addressable) :
    m.usable submitIndex (b :: bs) = b :: m.usable submitIndex bs := by
  simp [usable, hv, hb]

theorem usableBytes_cons_of_overlaps {b : MemoryBlock} {bs : List MemoryBlock}
    (hv : m.validSubmit submitIndex b = true) (hb : b.Addressable) :
    m.usableBytes submitIndex vaAddr size (b :: bs) =
      Extent.overlap (queried vaAddr size) b.extent + m.usableBytes submitIndex vaAddr size bs := by
  rw [usableBytes, usable_cons_of_mem hv hb]
  rfl

theorem fill_usable_cons_of_skip {b : MemoryBlock} (hq : vaAddr.toNat + size.toNat < 2 ^ 64)
    (h : (m.validSubmit submitIndex b && b.overlaps vaAddr size) = false)
    (bs : List MemoryBlock) (buffer : Buffer) :
    m.usableBytes submitIndex vaAddr size (b :: bs) = m.usableBytes submitIndex vaAddr size bs ∧
      fill (m.usable submitIndex (b :: bs)) vaAddr size buffer =
        fill (m.usable submitIndex bs) vaAddr size buffer := by
  by_cases hu : m.validSubmit submitIndex b = true ∧ b.Addressable
  · obtain ⟨hv, hb⟩ := hu
    have ho : ¬ b.overlaps vaAddr size = true := by simpa [hv] using h
    rw [MemoryBlock.overlaps_iff hb hq] at ho
    refine ⟨?_, ?_⟩
    · rw [usableBytes_cons_of_overlaps hv hb]
      simp only [Extent.overlap, Extent.stop, queried, MemoryBlock.extent]
      omega
    · rw [usable_cons_of_mem hv hb]
      funext i
      by_cases hi : i < size.toNat
      · simp only [fill, if_pos hi]
        rw [List.find?_cons_of_neg]
        simp only [MemoryBlock.mem_extent, decide_eq_true_eq]
        omega
      · simp only [fill, if_neg hi]
  · have hn : m.usable submitIndex (b :: bs) = m.usable submitIndex bs := by
      rw [usable, usable, List.filter_cons_of_neg]
      simpa using hu
    exact ⟨by rw [usableBytes, usableBytes, hn], by rw [hn]⟩

/-- **The search counts and copies the usable bytes**, and reports whether they are all there. -/
theorem retrieveLoop_eq (hq : vaAddr.toNat + size.toNat < 2 ^ 64) :
    ∀ (bs : List MemoryBlock), (∀ b ∈ bs, b.vaAddr.toNat + b.dataSize.toNat ≤ 2 ^ 64) →
      BlocksApart (m.usable submitIndex bs) → ∀ (amount : UInt64) (buffer : Buffer)
      (last : Option MemoryBlock), amount.toNat < size.toNat →
      amount.toNat + m.usableBytes submitIndex vaAddr size bs ≤ size.toNat →
      ∃ last', m.retrieveLoop submitIndex vaAddr size bs amount buffer last =
        some (decide (amount.toNat + m.usableBytes submitIndex vaAddr size bs = size.toNat),
          fill (m.usable submitIndex bs) vaAddr size buffer, last') := by
  intro bs
  induction bs with
  | nil =>
    intro _ _ amount buffer last hlt _
    refine ⟨last, ?_⟩
    rw [retrieveLoop, decide_eq_false (by simp [usableBytes, usable]; omega)]
    rw [show m.usable submitIndex [] = [] from rfl, fill_nil]
  | cons b bs ih =>
    intro hw hap amount buffer last hlt hle
    have hw' : ∀ c ∈ bs, c.vaAddr.toNat + c.dataSize.toNat ≤ 2 ^ 64 :=
      fun c hc => hw c (List.mem_cons_of_mem _ hc)
    by_cases h : (m.validSubmit submitIndex b && b.overlaps vaAddr size) = true
    · rw [retrieveLoop, if_pos h]
      rw [Bool.and_eq_true] at h
      obtain ⟨hv, ho⟩ := h
      have hb := MemoryBlock.addressable_of_overlaps (hw b List.mem_cons_self) ho
      obtain ⟨hlen, hcpy⟩ := memcpy_overlap hb hq ho buffer
      rw [usable_cons_of_mem hv hb] at hap
      rw [usableBytes_cons_of_overlaps hv hb] at hle ⊢
      rw [usable_cons_of_mem hv hb]
      dsimp only
      rw [hcpy, Option.bind_some]
      generalize min b.endAddr (vaAddr + size) - max vaAddr b.vaAddr = n at hlen ⊢
      have hsz := size.toNat_lt
      have hadd : (amount + n).toNat =
          amount.toNat + Extent.overlap (queried vaAddr size) b.extent := by
        rw [UInt64.toNat_add, hlen, Nat.mod_eq_of_lt (by omega)]
      by_cases hdone : amount + n = size
      · -- every queried byte is copied: the blocks left to visit hold none of them
        have heq := congrArg UInt64.toNat hdone
        rw [hadd] at heq
        have hrest : m.usableBytes submitIndex vaAddr size bs = 0 := by omega
        refine ⟨some b, ?_⟩
        rw [if_pos hdone, hrest, ← fill_cons hap, fill_of_overlap_zero hrest,
          decide_eq_true (by omega)]
      · rw [if_neg hdone]
        have hne : (amount + n).toNat ≠ size.toNat := fun e => hdone (UInt64.toNat_inj.mp e)
        obtain ⟨last', hrec⟩ := ih hw' (List.pairwise_cons.mp hap).2 (amount + n)
          (fill [b] vaAddr size buffer) (some b) (by omega) (by omega)
        refine ⟨last', ?_⟩
        rw [hrec, hadd, fill_cons hap, Nat.add_assoc]
    · rw [Bool.not_eq_true] at h
      obtain ⟨hb0, hf0⟩ := fill_usable_cons_of_skip hq h bs buffer
      rw [retrieveLoop, if_neg (by rw [h]; exact Bool.false_ne_true), hb0, hf0]
      rw [hb0] at hle
      exact ih hw' (hap.sublist ((List.sublist_cons_self _ _).filter _)) amount buffer last hlt hle

/-- **The search of a query that reaches `2 ^ 64`** reads out of bounds at the first block that
passes the overlap test, and finds nothing when no block does. -/
theorem retrieveLoop_wrapped (m : MemoryManager) (submitIndex : UInt32)
    (hq : 2 ^ 64 ≤ vaAddr.toNat + size.toNat) :
    ∀ (bs : List MemoryBlock), (∀ b ∈ bs, b.vaAddr.toNat + b.dataSize.toNat ≤ 2 ^ 64) →
      ∀ (amount : UInt64) (buffer : Buffer) (last : Option MemoryBlock),
      m.retrieveLoop submitIndex vaAddr size bs amount buffer last =
        if ∃ b ∈ bs, m.validSubmit submitIndex b = true ∧ b.overlaps vaAddr size = true then none
        else some (false, buffer, last) := by
  intro bs
  induction bs with
  | nil => intro _ amount buffer last; simp [retrieveLoop]
  | cons b bs ih =>
    intro hw amount buffer last
    by_cases h : (m.validSubmit submitIndex b && b.overlaps vaAddr size) = true
    · have h' := h
      rw [Bool.and_eq_true] at h'
      rw [if_pos ⟨b, List.mem_cons_self, h'⟩, retrieveLoop, if_pos h]
      have hb := MemoryBlock.addressable_of_overlaps (hw b List.mem_cons_self) h'.2
      obtain ⟨hlow, ho⟩ : vaAddr < b.endAddr ∧ b.vaAddr < vaAddr + size := by
        simpa [MemoryBlock.overlaps] using h'.2
      rw [UInt64.lt_iff_toNat_lt] at hlow ho
      have hsz := size.toNat_lt
      have hva := vaAddr.toNat_lt
      -- the wrapped end lies below the start, so the copied length is all of `size`
      have hend : (vaAddr + size).toNat = vaAddr.toNat + size.toNat - 2 ^ 64 := by
        rw [UInt64.toNat_add]
        omega
      have hsub : vaAddr + size - vaAddr = size := by
        rw [UInt64.add_comm, UInt64.add_sub_cancel]
      have hmax : max vaAddr b.vaAddr = vaAddr := by
        rw [← UInt64.toNat_inj, toNat_max]
        omega
      have hmin : min b.endAddr (vaAddr + size) = vaAddr + size := by
        rw [← UInt64.toNat_inj, toNat_min]
        omega
      dsimp only
      rw [hmax, hmin, hsub, memcpy_wrapped hb (by omega) hq]
      rfl
    · rw [retrieveLoop, if_neg h, ih (fun c hc => hw c (List.mem_cons_of_mem _ hc))]
      rw [Bool.not_eq_true] at h
      refine if_congr ?_ rfl rfl
      simp only [List.mem_cons, exists_eq_or_imp]
      constructor
      · exact Or.inr
      · rintro (⟨hv, ho⟩ | h')
        · rw [hv, ho] at h; exact Bool.noConfusion h
        · exact h'

/-! ## Histories of lookups -/

/-- A lookup that can use one of the blocks can use the other. -/
def SameView (m : MemoryManager) (b c : MemoryBlock) : Prop :=
  m.sameSubmitOnly = true → b.submitIndex = c.submitIndex

/-- What `Finalize` is for: per submit, or globally for a flattened list, the blocks are sorted by
address and separate; none is empty and none wraps the address space. -/
structure Finalized (m : MemoryManager) : Prop where
  pos : ∀ b ∈ m.memoryBlocks, 0 < b.dataSize.toNat
  noWrap : ∀ b ∈ m.memoryBlocks, b.vaAddr.toNat + b.dataSize.toNat ≤ 2 ^ 64
  sorted : m.memoryBlocks.Pairwise fun b c => m.SameView b c → b.vaAddr ≤ c.vaAddr
  apart : m.memoryBlocks.Pairwise fun b c => m.SameView b c → Extent.Apart b.extent c.extent

section Remember

variable (m : MemoryManager) (last : Option MemoryBlock)

@[simp] theorem memoryBlocks_remember : (m.remember last).memoryBlocks = m.memoryBlocks := rfl
@[simp] theorem lastUsedBlock_remember : (m.remember last).lastUsedBlock = last := rfl
@[simp] theorem searched_remember : (m.remember last).searched = m.searched := rfl
@[simp] theorem validSubmit_remember : (m.remember last).validSubmit = m.validSubmit := rfl
@[simp] theorem remember_remember (l : Option MemoryBlock) :
    (m.remember last).remember l = m.remember l := rfl

variable {m last}

theorem Finalized.remember (h : m.Finalized) : (m.remember last).Finalized :=
  ⟨h.pos, h.noWrap, h.sorted, h.apart⟩

end Remember

/-- What the last-used block can be: a block the search visits, with an end below `2 ^ 64`. -/
def LastReachable (m : MemoryManager) : Prop :=
  ∀ b, m.lastUsedBlock = some b → b ∈ m.searched ∧ b.Addressable

theorem mem_memoryBlocks_of_searched {b : MemoryBlock} (h : b ∈ m.searched) :
    b ∈ m.memoryBlocks := List.mem_of_mem_take h

theorem retrieveLoop_last : ∀ (bs : List MemoryBlock) (amount : UInt64) (buffer : Buffer)
    (last : Option MemoryBlock) {r : Bool × Buffer × Option MemoryBlock},
    m.retrieveLoop submitIndex vaAddr size bs amount buffer last = some r →
      r.2.2 = last ∨ ∃ b ∈ bs, r.2.2 = some b ∧ b.overlaps vaAddr size = true := by
  intro bs
  induction bs with
  | nil =>
    intro amount buffer last r h
    rw [retrieveLoop, Option.some.injEq] at h
    exact Or.inl (by rw [← h])
  | cons b bs ih =>
    intro amount buffer last r h
    rw [retrieveLoop] at h
    have hrest : ∀ l, (r.2.2 = l ∨ ∃ c ∈ bs, r.2.2 = some c ∧ c.overlaps vaAddr size = true) →
        l = last ∨ (l = some b ∧ b.overlaps vaAddr size = true) →
        r.2.2 = last ∨ ∃ c ∈ b :: bs, r.2.2 = some c ∧ c.overlaps vaAddr size = true := by
      rintro l (hl | ⟨c, hc, hr⟩) (rfl | ⟨rfl, ho⟩)
      · exact Or.inl hl
      · exact Or.inr ⟨b, List.mem_cons_self, hl, ho⟩
      · exact Or.inr ⟨c, List.mem_cons_of_mem _ hc, hr⟩
      · exact Or.inr ⟨c, List.mem_cons_of_mem _ hc, hr⟩
    split_ifs at h with ht
    · rw [Bool.and_eq_true] at ht
      obtain ⟨buffer', -, h⟩ := Option.bind_eq_some_iff.mp h
      split_ifs at h with hd
      · rw [Option.some.injEq] at h
        exact hrest (some b) (Or.inl (by rw [← h])) (Or.inr ⟨rfl, ht.2⟩)
      · exact hrest (some b) (ih _ _ _ h) (Or.inr ⟨rfl, ht.2⟩)
    · exact hrest last (ih _ _ _ h) (Or.inl rfl)

theorem lastUsed_step (hm : m.Finalized) (hl : m.LastReachable) {buffer : Buffer}
    {r : Bool × Buffer × MemoryManager}
    (h : m.retrieveMemoryData buffer submitIndex vaAddr size = some r) :
    ∃ last, r.2.2 = m.remember last ∧ (m.remember last).LastReachable := by
  rw [retrieveMemoryData] at h
  split at h
  · obtain ⟨buffer', -, rfl⟩ := Option.map_eq_some_iff.mp h
    exact ⟨m.lastUsedBlock, rfl, hl⟩
  · obtain ⟨⟨ok, buffer', last⟩, hloop, rfl⟩ := Option.map_eq_some_iff.mp h
    refine ⟨last, rfl, fun b hb => ?_⟩
    rw [lastUsedBlock_remember] at hb
    subst hb
    rcases retrieveLoop_last _ _ _ _ hloop with he | ⟨c, hc, he, ho⟩
    · exact hl b he.symm
    · cases he
      rw [List.mem_reverse] at hc
      exact ⟨hc, MemoryBlock.addressable_of_overlaps
        (hm.noWrap b (mem_memoryBlocks_of_searched hc)) ho⟩

/-- **After any history**, the manager differs from the one before it in a reachable last-used
block only. -/
theorem lastUsed_reachable (hm : m.Finalized) (hl : m.LastReachable) {m' : MemoryManager} :
    ∀ history, m.afterLookups history = some m' →
      ∃ last, m' = m.remember last ∧ m'.LastReachable := by
  intro history
  induction history generalizing m with
  | nil =>
    intro h
    rw [afterLookups, Option.some.injEq] at h
    subst h
    exact ⟨m.lastUsedBlock, rfl, hl⟩
  | cons l ls ih =>
    intro h
    rw [afterLookups] at h
    obtain ⟨r, hr, h⟩ := Option.bind_eq_some_iff.mp h
    obtain ⟨last, hrl, hreach⟩ := lastUsed_step hm hl hr
    rw [hrl] at h
    obtain ⟨last', h', hreach'⟩ := ih hm.remember hreach h
    exact ⟨last', by rw [h', remember_remember], hreach'⟩

/-! ## The answer of a lookup -/

/-- The blocks a submit may read. -/
def visible (m : MemoryManager) (submitIndex : UInt32) : List MemoryBlock :=
  m.memoryBlocks.filter (m.validSubmit submitIndex)

/-- Every queried address is in a block that the submit may read. -/
def Covered (m : MemoryManager) (submitIndex : UInt32) (vaAddr size : UInt64) : Prop :=
  ∀ a ∈ queried vaAddr size, Extent.Covers ((m.visible submitIndex).map (·.extent)) a

/-- Every queried address is in a block that the search can find. -/
def CoveredByUsable (m : MemoryManager) (submitIndex : UInt32) (vaAddr size : UInt64) : Prop :=
  ∀ a ∈ queried vaAddr size, Extent.Covers ((m.usable submitIndex m.searched).map (·.extent)) a

theorem sameView_of_valid {b c : MemoryBlock} (hb : m.validSubmit submitIndex b = true)
    (hc : m.validSubmit submitIndex c = true) : m.SameView b c := by
  intro hs
  simp only [validSubmit, hs, if_true, beq_iff_eq] at hb hc
  rw [← hb, hc]

theorem blocksApart_visible (hm : m.Finalized) : BlocksApart (m.visible submitIndex) := by
  rw [BlocksApart, visible, List.pairwise_filter]
  exact hm.apart.imp fun h hb hc => h (sameView_of_valid hb hc)

theorem usable_sublist_visible :
    (m.usable submitIndex m.searched).Sublist (m.visible submitIndex) := by
  rw [usable, ← List.filter_filter, searched]
  refine List.Sublist.trans ?_ (List.filter_sublist (p := fun b => decide b.Addressable))
  rw [visible, List.filter_filter, List.filter_filter]
  simp only [Bool.and_comm]
  exact (List.take_sublist _ _).filter _

theorem blocksApart_usable_reverse (hm : m.Finalized) (submitIndex : UInt32) :
    BlocksApart (m.usable submitIndex m.searched.reverse) := by
  rw [usable, List.filter_reverse, BlocksApart, List.pairwise_reverse]
  exact ((blocksApart_visible hm).sublist usable_sublist_visible).imp fun h => h.symm

theorem usableBytes_eq_iff (hm : m.Finalized) :
    m.usableBytes submitIndex vaAddr size m.searched.reverse = size.toNat ↔
      m.CoveredByUsable submitIndex vaAddr size := by
  have h := blocksApart_usable_reverse hm submitIndex
  have hp : ((m.usable submitIndex m.searched.reverse).map (·.extent)).Pairwise Extent.Apart :=
    List.pairwise_map.mpr h
  rw [usableBytes, show size.toNat = (queried vaAddr size).len from rfl,
    Extent.sum_overlap_eq_iff _ hp]
  simp only [CoveredByUsable, Extent.Covers, List.mem_map, mem_usable, List.mem_reverse]

/-- **A lookup that ends below `2 ^ 64`**, on either path. -/
theorem retrieveMemoryData_short (hm : m.Finalized) (hl : m.LastReachable)
    (hq : vaAddr.toNat + size.toNat < 2 ^ 64) (hs : 0 < size.toNat) (buffer : Buffer) :
    ∃ ok m', m.retrieveMemoryData buffer submitIndex vaAddr size =
        some (ok, fill (m.usable submitIndex m.searched.reverse) vaAddr size buffer, m') ∧
      (ok = true ↔ m.CoveredByUsable submitIndex vaAddr size) := by
  have hap := blocksApart_usable_reverse hm submitIndex
  cases hf : m.fastPath submitIndex vaAddr size with
  | none =>
    have hle : m.usableBytes submitIndex vaAddr size m.searched.reverse ≤ size.toNat :=
      Extent.sum_overlap_le (queried vaAddr size) (List.pairwise_map.mpr hap)
    obtain ⟨last', hloop⟩ := retrieveLoop_eq hq m.searched.reverse
      (fun b hb => hm.noWrap b (mem_memoryBlocks_of_searched (List.mem_reverse.mp hb))) hap 0 buffer
      m.lastUsedBlock hs (by simpa using hle)
    rw [UInt64.toNat_zero, Nat.zero_add] at hloop
    refine ⟨decide (m.usableBytes submitIndex vaAddr size m.searched.reverse = size.toNat),
      m.remember last', ?_, ?_⟩
    · rw [retrieveMemoryData, hf]
      simp only [hloop, Option.map_some]
    · rw [decide_eq_true_eq, usableBytes_eq_iff hm]
  | some b =>
    obtain ⟨hlast, ht⟩ := Option.filter_eq_some_iff.mp hf
    rw [Bool.and_eq_true, MemoryBlock.encompasses, Bool.and_eq_true, decide_eq_true_eq,
      decide_eq_true_eq, UInt64.le_iff_toNat_le, UInt64.le_iff_toNat_le, UInt64.toNat_add,
      Nat.mod_eq_of_lt hq] at ht
    obtain ⟨hv, hlo, hhi⟩ := ht
    obtain ⟨hb, hba⟩ := hl b hlast
    rw [MemoryBlock.toNat_endAddr_of_addressable hba] at hhi
    have hmem : b ∈ m.usable submitIndex m.searched := mem_usable.mpr ⟨hb, hv, hba⟩
    have hdata := b.length_data
    have hoff : (vaAddr - b.vaAddr).toNat = vaAddr.toNat - b.vaAddr.toNat :=
      UInt64.toNat_sub_of_le _ _ (UInt64.le_iff_toNat_le.mpr hlo)
    refine ⟨true, m, ?_, ?_⟩
    · rw [retrieveMemoryData, hf]
      dsimp only
      rw [hoff, memcpy, if_pos (by omega), Option.map_some]
      congr 3
      funext i
      by_cases hi : i < size.toNat
      · rw [if_pos (by omega), fill, if_pos hi, find?_of_apart hap (b := b)]
        · simp only [Option.map_some, Option.getD_some, MemoryBlock.byteAt]
          congr 1
          omega
        · rw [usable, List.filter_reverse, List.mem_reverse]
          exact hmem
        · rw [MemoryBlock.mem_extent]; omega
      · rw [if_neg (by omega), fill, if_neg hi]
    · refine iff_of_true rfl fun a ha => ⟨b.extent, List.mem_map_of_mem hmem, ?_⟩
      rw [mem_queried] at ha
      rw [MemoryBlock.mem_extent]
      omega

/-- No block passes the test of the fast path or of the search. -/
def NoBlockHit (m : MemoryManager) (submitIndex : UInt32) (vaAddr size : UInt64) : Prop :=
  m.fastPath submitIndex vaAddr size = none ∧
    ¬ ∃ b ∈ m.searched, m.validSubmit submitIndex b = true ∧ b.overlaps vaAddr size = true

/-- **A lookup that reaches `2 ^ 64`** reads out of bounds as soon as some block passes a test. -/
theorem retrieveMemoryData_wrapped (hm : m.Finalized) (hl : m.LastReachable)
    (submitIndex : UInt32) (hq : 2 ^ 64 ≤ vaAddr.toNat + size.toNat) (buffer : Buffer) :
    (m.NoBlockHit submitIndex vaAddr size → m.retrieveMemoryData buffer submitIndex vaAddr size =
        some (false, buffer, m.remember m.lastUsedBlock)) ∧
      (¬ m.NoBlockHit submitIndex vaAddr size →
        m.retrieveMemoryData buffer submitIndex vaAddr size = none) := by
  have hloop := retrieveLoop_wrapped m submitIndex hq m.searched.reverse
    (fun b hb => hm.noWrap b (mem_memoryBlocks_of_searched (List.mem_reverse.mp hb))) 0 buffer
    m.lastUsedBlock
  simp only [List.mem_reverse] at hloop
  cases hf : m.fastPath submitIndex vaAddr size with
  | none =>
    simp only [NoBlockHit, hf, true_and, retrieveMemoryData, hloop]
    constructor
    · intro h
      rw [if_neg h]
      rfl
    · intro h
      rw [if_pos (not_not.mp h)]
      rfl
  | some b =>
    refine ⟨fun h => absurd (hf.symm.trans h.1) (Option.some_ne_none b), fun _ => ?_⟩
    obtain ⟨hlast, ht⟩ := Option.filter_eq_some_iff.mp hf
    rw [Bool.and_eq_true, MemoryBlock.encompasses, Bool.and_eq_true, decide_eq_true_eq,
      UInt64.le_iff_toNat_le] at ht
    rw [retrieveMemoryData, hf]
    dsimp only
    rw [memcpy_wrapped (hl b hlast).2 ht.2.1 hq]
    rfl

/-- The lookup answers whether the range is covered, returns the covering blocks' bytes, and gives
what it gives without any history (`cold` is the manager before the first lookup). -/
def LookupCorrect (cold m : MemoryManager) (buffer : Buffer) (submitIndex : UInt32)
    (vaAddr size : UInt64) : Prop :=
  ∃ ok buffer' m', m.retrieveMemoryData buffer submitIndex vaAddr size = some (ok, buffer', m') ∧
    (ok = true ↔ cold.Covered submitIndex vaAddr size) ∧
    (ok = true → ∀ k < size.toNat, ∀ b ∈ cold.visible submitIndex,
      vaAddr.toNat + k ∈ b.extent → buffer' k = b.byteAt (vaAddr.toNat + k)) ∧
    (cold.retrieveMemoryData buffer submitIndex vaAddr size).map (fun r => (r.1, r.2.1)) =
      some (ok, buffer')

/-- The range ends below `2 ^ 64` and, if covered at all, is covered by blocks that the search can
find; or it reaches `2 ^ 64`, is not covered, and passes no test of the lookup. -/
def LookupInRange (m : MemoryManager) (submitIndex : UInt32) (vaAddr size : UInt64) : Prop :=
  if vaAddr.toNat + size.toNat < 2 ^ 64 then
    m.Covered submitIndex vaAddr size → m.CoveredByUsable submitIndex vaAddr size
  else ¬ m.Covered submitIndex vaAddr size ∧ m.NoBlockHit submitIndex vaAddr size

theorem CoveredByUsable.covered (h : m.CoveredByUsable submitIndex vaAddr size) :
    m.Covered submitIndex vaAddr size := fun a ha =>
  (h a ha).mono (usable_sublist_visible.map _).subset

theorem fill_of_covered (hm : m.Finalized) (hc : m.CoveredByUsable submitIndex vaAddr size)
    (buffer : Buffer) {k : ℕ} (hk : k < size.toNat) {b : MemoryBlock}
    (hb : b ∈ m.visible submitIndex) (ha : vaAddr.toNat + k ∈ b.extent) :
    fill (m.usable submitIndex m.searched.reverse) vaAddr size buffer k =
      b.byteAt (vaAddr.toNat + k) := by
  obtain ⟨e, he, hae⟩ := hc (vaAddr.toNat + k) (mem_queried.mpr (by omega))
  obtain ⟨c, hcu, rfl⟩ := List.mem_map.mp he
  have hfc := find?_of_apart (blocksApart_visible hm) (usable_sublist_visible.subset hcu) hae
  have hfb := find?_of_apart (blocksApart_visible hm) hb ha
  have hcb : c = b := Option.some.inj (hfc.symm.trans hfb)
  subst hcb
  rw [fill, if_pos hk, find?_of_apart (blocksApart_usable_reverse hm submitIndex) (b := c) _ hae]
  · rfl
  · rw [usable, List.filter_reverse, List.mem_reverse]
    exact hcu

/-- **Lookup correctness.** After any history of lookups, a lookup is correct exactly when it is in
range. -/
theorem retrieveMemoryData_correct_iff {cold m : MemoryManager} (hm : cold.Finalized)
    (hcold : cold.lastUsedBlock = none) (history : List Lookup)
    (hist : cold.afterLookups history = some m) (buffer : Buffer) (submitIndex : UInt32)
    (vaAddr size : UInt64) (hs : 0 < size) :
    LookupCorrect cold m buffer submitIndex vaAddr size ↔
      m.LookupInRange submitIndex vaAddr size := by
  have hl0 : cold.LastReachable := fun b hb => by rw [hcold] at hb; cases hb
  obtain ⟨last, rfl, hl⟩ := lastUsed_reachable hm hl0 history hist
  have hs' : 0 < size.toNat := UInt64.lt_iff_toNat_lt.mp hs
  rw [LookupInRange]
  split_ifs with hq
  · -- both managers fill in the same bytes
    obtain ⟨ok, m', hr, hok⟩ := retrieveMemoryData_short hm.remember hl hq hs' buffer
    obtain ⟨ok₀, m₀, hr₀, hok₀⟩ := retrieveMemoryData_short hm hl0 hq hs' buffer
    have hsame : ok₀ = ok := Bool.eq_iff_iff.mpr (hok₀.trans hok.symm)
    subst hsame
    constructor
    · rintro ⟨ok', buffer', m'', hr', hcov, -, -⟩ hc
      rw [hr, Option.some.injEq, Prod.mk.injEq] at hr'
      rw [← hok, hr'.1]
      exact hcov.mpr hc
    · intro hc
      refine ⟨ok₀, _, m', hr, ⟨fun h => (hok₀.mp h).covered, fun h => hok.mpr (hc h)⟩,
        fun h k hk b hb ha => fill_of_covered hm (hok₀.mp h) buffer hk hb ha, ?_⟩
      rw [hr₀]
      rfl
  · rw [not_lt] at hq
    obtain ⟨hnone, hhit⟩ := retrieveMemoryData_wrapped hm.remember hl submitIndex hq buffer
    constructor
    · rintro ⟨ok', buffer', m'', hr', hcov, -, -⟩
      by_cases hb : (cold.remember last).NoBlockHit submitIndex vaAddr size
      · rw [hnone hb, Option.some.injEq, Prod.mk.injEq] at hr'
        refine ⟨fun h => ?_, hb⟩
        have := hcov.mpr h
        rw [← hr'.1] at this
        exact Bool.noConfusion this
      · rw [hhit hb] at hr'
        cases hr'
    · rintro ⟨hc, hb⟩
      have hb0 : cold.NoBlockHit submitIndex vaAddr size := by
        refine ⟨?_, hb.2⟩
        rw [fastPath, hcold]
        rfl
      refine ⟨false, buffer, _, hnone hb, iff_of_false Bool.false_ne_true hc,
        fun h => Bool.noConfusion h, ?_⟩
      rw [(retrieveMemoryData_wrapped hm hl0 submitIndex hq buffer).1 hb0]
      rfl

/-! ## A lookup past the end of the address space -/

/-- Sixteen bytes at `0x1000`. -/
def sixteenBytes : MemoryBlock :=
  ⟨0x1000, 0, 16, [0, 1, 2, 3, 4, 5, 6, 7, 8, 9, 10, 11, 12, 13, 14, 15], rfl⟩

/-- A capture of one block. -/
def oneBlock : MemoryManager := { memoryBlocks := [sixteenBytes] }

theorem finalized_oneBlock : oneBlock.Finalized where
  pos := by decide
  noWrap := by decide
  sorted := List.pairwise_singleton _ _
  apart := List.pairwise_singleton _ _

/-- The four bytes at `0x1000`. -/
def firstDword : Lookup := ⟨Buffer.zero, 0, 0x1000, 4⟩

theorem afterLookups_firstDword :
    oneBlock.afterLookups [firstDword] = some (oneBlock.remember (some sixteenBytes)) := by rfl

/-- A lookup inside the block is correct after the block has been used. -/
theorem retrieveMemoryData_correct_inside :
    LookupCorrect oneBlock (oneBlock.remember (some sixteenBytes)) Buffer.zero 0 0x1004 8 := by
  refine (retrieveMemoryData_correct_iff finalized_oneBlock rfl [firstDword]
    afterLookups_firstDword Buffer.zero 0 0x1004 8 (by decide)).mpr ?_
  rw [LookupInRange, if_pos (by decide)]
  intro _ a ha
  refine ⟨sixteenBytes.extent, by decide, ?_⟩
  rw [mem_queried] at ha
  rw [MemoryBlock.mem_extent]
  revert ha
  simp only [sixteenBytes]
  exact fun ⟨h1, h2⟩ => ⟨le_trans (by decide) h1, lt_of_lt_of_le h2 (by decide)⟩

/-- **The wrapped end of a range slips through the fast path.** After one lookup of the block, the
eight bytes from `2 ^ 64 - 4` pass the test of the last-used block, although no block holds any of
them and a manager without history reports them missing. -/
theorem retrieveMemoryData_incorrect_past_end :
    oneBlock.Finalized ∧ oneBlock.lastUsedBlock = none ∧
      oneBlock.afterLookups [firstDword] = some (oneBlock.remember (some sixteenBytes)) ∧
      (oneBlock.remember (some sixteenBytes)).fastPath 0 0xFFFFFFFFFFFFFFFC 8 =
        some sixteenBytes ∧
      (oneBlock.retrieveMemoryData Buffer.zero 0 0xFFFFFFFFFFFFFFFC 8).map (fun r => r.1) =
        some false ∧
      ¬ oneBlock.Covered 0 0xFFFFFFFFFFFFFFFC 8 ∧
      ¬ LookupCorrect oneBlock (oneBlock.remember (some sixteenBytes)) Buffer.zero 0
        0xFFFFFFFFFFFFFFFC 8 := by
  refine ⟨finalized_oneBlock, rfl, afterLookups_firstDword, by rfl, by rfl, ?_, ?_⟩
  · intro h
    obtain ⟨e, he, ha⟩ := h (2 ^ 64) (by decide)
    rw [show ((oneBlock.visible 0).map (·.extent)) = [sixteenBytes.extent] from rfl,
      List.mem_singleton] at he
    subst he
    exact absurd ha (by decide)
  · rintro ⟨ok, buffer', m', hr, -⟩
    have hnone : (oneBlock.remember (some sixteenBytes)).retrieveMemoryData Buffer.zero 0
        0xFFFFFFFFFFFFFFFC 8 = none := by rfl
    rw [hnone] at hr
    cases hr

end MemoryManager

end Dive
