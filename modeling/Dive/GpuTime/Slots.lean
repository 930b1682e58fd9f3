import Dive.Lib.Bitmap
import Dive.Lib.Ledger

/-!
# The time stamp slot allocator

* `TimeStampSlotAllocator.allocateSlot` and `freeSlots`, over 128 words of 64 bits.
* **`allocateSlot_spec`**: a slot that was clear, or `kInvalidIndex` when none is.
* `AllocatorRun`: a sequence of calls, with the slots that their results say are in use.
* **`allocates_correctly`**: after any calls, the masks and the next call are right about these.

The calls to the allocator are made under one mutex, so a `compare_exchange_weak` that fails is
repeated with the same words. Slot numbers are natural numbers: none overflows 32 bits.
-/

namespace Dive

def kSlotsPerBlock : ℕ := 64

def kNumBlocks : ℕ := 128

def kTotalSlots : ℕ := kSlotsPerBlock * kNumBlocks

/-- `static_cast<uint32_t>(-1)`. -/
def kInvalidIndex : ℕ := 0xFFFFFFFF

structure TimeStampSlotAllocator where
  masks : Vector UInt64 kNumBlocks := Vector.replicate kNumBlocks 0
  cur : ℕ := 0

namespace TimeStampSlotAllocator

/-- The first clear slot from `m_cur` on, in a ring. -/
def allocateSlot (a : TimeStampSlotAllocator) : ℕ × TimeStampSlotAllocator :=
  match ((List.range' 0 kTotalSlots).map fun i => (a.cur + i) % kTotalSlots).find?
      fun slot => !Bitmap.test a.masks slot with
  | some slot =>
    (slot, { masks := Bitmap.mark a.masks slot, cur := (slot + 1) % kTotalSlots })
  | none => (kInvalidIndex, a)

/-- A slot past the last block is outside the array of the source; here its word is not there. -/
def freeSlots (a : TimeStampSlotAllocator) (slots : List ℕ) : TimeStampSlotAllocator :=
  { a with masks := slots.foldl Bitmap.clear a.masks }

/-- The slots marked used. -/
def used (a : TimeStampSlotAllocator) : Finset ℕ := Bitmap.members a.masks

/-- The number of slots not marked used. -/
def free (a : TimeStampSlotAllocator) : ℕ := kTotalSlots - a.used.card

variable {a : TimeStampSlotAllocator}

theorem lt_of_mem_used {slot : ℕ} (h : slot ∈ a.used) : slot < kTotalSlots :=
  Bitmap.lt_of_mem_members h

theorem card_used_le : a.used.card ≤ kTotalSlots := Bitmap.card_members_le a.masks

theorem kTotalSlots_lt_kInvalidIndex : kTotalSlots < kInvalidIndex := by decide

theorem used_init : ({} : TimeStampSlotAllocator).used = ∅ := Bitmap.members_replicate

theorem mem_ring (cur : ℕ) {slot : ℕ} (h : slot < kTotalSlots) :
    slot ∈ (List.range' 0 kTotalSlots).map fun i => (cur + i) % kTotalSlots := by
  have hpos : 0 < kTotalSlots := by decide
  have hcur := Nat.mod_lt cur hpos
  refine List.mem_map.mpr ⟨(slot + (kTotalSlots - cur % kTotalSlots)) % kTotalSlots, ?_, ?_⟩
  · simpa using Nat.mod_lt _ hpos
  · rw [Nat.add_mod_mod, ← Nat.mod_add_mod,
      show cur % kTotalSlots + (slot + (kTotalSlots - cur % kTotalSlots)) = slot + kTotalSlots by
        omega, Nat.add_mod_right, Nat.mod_eq_of_lt h]

/-- What `AllocateSlot` can do. -/
inductive Allocates (a : TimeStampSlotAllocator) : ℕ × TimeStampSlotAllocator → Prop
  | taken (slot : ℕ) (b : TimeStampSlotAllocator) (hlt : slot < kTotalSlots)
      (hclear : slot ∉ a.used) (hused : b.used = insert slot a.used) : Allocates a (slot, b)
  | full (h : a.free = 0) : Allocates a (kInvalidIndex, a)

/-- **A slot is allocated as long as one is clear.** -/
theorem allocateSlot_spec (a : TimeStampSlotAllocator) : Allocates a a.allocateSlot := by
  unfold allocateSlot
  split
  next slot h =>
    have hclear := List.find?_some h
    obtain ⟨i, -, rfl⟩ := List.mem_map.mp (List.mem_of_find?_eq_some h)
    have hlt : (a.cur + i) % kTotalSlots < kTotalSlots := Nat.mod_lt _ (by decide)
    refine .taken _ _ hlt (fun hc => ?_) (Bitmap.members_mark hlt)
    rw [used, Bitmap.mem_members] at hc
    simp [hc] at hclear
  next h =>
    refine .full (Nat.sub_eq_zero_of_le (not_lt.mp fun hc => ?_))
    obtain ⟨slot, hlt, hclear⟩ := Bitmap.exists_test_eq_false hc
    have hnone := List.find?_eq_none.mp h slot (mem_ring a.cur hlt)
    simp [hclear] at hnone

theorem free_of_card {n : ℕ} (h : a.used.card = n) : a.free = kTotalSlots - n := by
  rw [free, h]

theorem free_of_insert {b : TimeStampSlotAllocator} {slot : ℕ} (hclear : slot ∉ a.used)
    (hused : b.used = insert slot a.used) : a.free = b.free + 1 := by
  have hb := card_used_le (a := b)
  have hcard : b.used.card = a.used.card + 1 := by rw [hused, Finset.card_insert_of_notMem hclear]
  unfold free
  omega

theorem free_of_insert₂ {b : TimeStampSlotAllocator} {slot slot' : ℕ} (hclear : slot ∉ a.used)
    (hclear' : slot' ∉ insert slot a.used) (hused : b.used = insert slot' (insert slot a.used)) :
    a.free = b.free + 2 := by
  have hb := card_used_le (a := b)
  have hcard : b.used.card = a.used.card + 2 := by
    rw [hused, Finset.card_insert_of_notMem hclear', Finset.card_insert_of_notMem hclear]
  unfold free
  omega

theorem used_freeSlots (slots : List ℕ) : (a.freeSlots slots).used = a.used \ slots.toFinset :=
  Bitmap.members_foldl_clear slots a.masks

theorem free_pos {slot : ℕ} (hlt : slot < kTotalSlots) (h : Bitmap.test a.masks slot = false) :
    0 < a.free := by
  refine Nat.pos_of_ne_zero fun hc => ?_
  have hcard : a.used.card = kTotalSlots :=
    le_antisymm card_used_le (Nat.sub_eq_zero_iff_le.mp hc)
  rw [Bitmap.test_of_card hcard hlt] at h
  cases h

-- The count of clear slots is only ever compared, never evaluated.
attribute [irreducible] free

end TimeStampSlotAllocator

/-! ## Sequences of calls -/

/-- A call, with slots in range. -/
inductive AllocatorCall
  | allocateSlot
  | freeSlots (slots : List (Fin kTotalSlots))

/-- The allocator, and the slots in use: those that were returned and have not been freed since. -/
structure AllocatorRun where
  allocator : TimeStampSlotAllocator := {}
  inUse : Finset ℕ := ∅

namespace AllocatorRun

/-- The slots of a call of `FreeSlots`, as numbers. -/
def numbers (slots : List (Fin kTotalSlots)) : List ℕ := slots.map Fin.val

def next (r : AllocatorRun) : AllocatorCall → AllocatorRun
  | .allocateSlot =>
    let (slot, allocator) := r.allocator.allocateSlot
    ⟨allocator, if slot = kInvalidIndex then r.inUse else insert slot r.inUse⟩
  | .freeSlots slots =>
    ⟨r.allocator.freeSlots (numbers slots), r.inUse \ (numbers slots).toFinset⟩

/-- **The allocator is right about the slots in use**, and so is its next call. -/
structure Correct (r : AllocatorRun) : Prop where
  masks : ∀ slot < kTotalSlots, Bitmap.test r.allocator.masks slot ↔ slot ∈ r.inUse
  range : ∀ slot ∈ r.inUse, slot < kTotalSlots
  returns_iff : r.allocator.allocateSlot.1 < kTotalSlots ↔ r.inUse.card < kTotalSlots
  takes : r.allocator.allocateSlot.1 < kTotalSlots →
    r.allocator.allocateSlot.1 ∉ r.inUse ∧
      r.allocator.allocateSlot.2.used = insert r.allocator.allocateSlot.1 r.inUse
  refuses : ¬ r.allocator.allocateSlot.1 < kTotalSlots →
    r.allocator.allocateSlot = (kInvalidIndex, r.allocator)
  frees : ∀ slots : List (Fin kTotalSlots),
    (r.allocator.freeSlots (numbers slots)).used = r.inUse \ (numbers slots).toFinset

variable {r : AllocatorRun}

theorem used_next (h : r.allocator.used = r.inUse) (call : AllocatorCall) :
    (r.next call).allocator.used = (r.next call).inUse := by
  cases call with
  | allocateSlot =>
    have hspec := r.allocator.allocateSlot_spec
    unfold next
    cases hcall : r.allocator.allocateSlot with
    | mk slot allocator =>
      rw [hcall] at hspec
      cases hspec with
      | taken _ _ hlt _ hused =>
        have hne : slot ≠ kInvalidIndex :=
          (hlt.trans TimeStampSlotAllocator.kTotalSlots_lt_kInvalidIndex).ne
        show allocator.used = if slot = kInvalidIndex then r.inUse else insert slot r.inUse
        rw [if_neg hne, hused, h]
      | full _ =>
        show r.allocator.used =
          if kInvalidIndex = kInvalidIndex then r.inUse else insert kInvalidIndex r.inUse
        rw [if_pos rfl, h]
  | freeSlots slots =>
    show (r.allocator.freeSlots (numbers slots)).used = r.inUse \ (numbers slots).toFinset
    rw [TimeStampSlotAllocator.used_freeSlots, h]

theorem correct_of_used (h : r.allocator.used = r.inUse) : r.Correct := by
  have hspec := r.allocator.allocateSlot_spec
  have hcard := TimeStampSlotAllocator.card_used_le (a := r.allocator)
  have hbound := TimeStampSlotAllocator.kTotalSlots_lt_kInvalidIndex
  refine ⟨fun slot _ => ?masks, fun slot hslot => ?range, ?returns, fun hlt => ?takes,
    fun hge => ?refuses, fun slots => ?frees⟩
  case masks => rw [← h, TimeStampSlotAllocator.used, Bitmap.mem_members]
  case range => exact TimeStampSlotAllocator.lt_of_mem_used (h ▸ hslot)
  case frees => rw [TimeStampSlotAllocator.used_freeSlots, h]
  all_goals cases hcall : r.allocator.allocateSlot with | mk slot allocator => ?_
  all_goals rw [hcall] at hspec
  case returns =>
    cases hspec with
    | taken _ _ hlt hclear _ =>
      have hroom := Finset.card_lt_card
        (Finset.ssubset_insert (h ▸ hclear : slot ∉ r.inUse))
      have hsub : insert slot r.inUse ⊆ Finset.range kTotalSlots := by
        intro other hother
        rcases Finset.mem_insert.mp hother with rfl | hother
        · exact Finset.mem_range.mpr hlt
        · exact Finset.mem_range.mpr (TimeStampSlotAllocator.lt_of_mem_used (h ▸ hother))
      have hle := (Finset.card_le_card hsub).trans (Finset.card_range _).le
      exact iff_of_true hlt (hroom.trans_le hle)
    | full hfree =>
      rw [TimeStampSlotAllocator.free_of_card rfl, h] at hfree
      exact iff_of_false (by dsimp only; omega) (by omega)
  case takes =>
    rw [hcall] at hlt
    cases hspec with
    | taken _ _ _ hclear hused => exact ⟨h ▸ hclear, h ▸ hused⟩
    | full _ => exact absurd hlt (by dsimp only; omega)
  case refuses =>
    rw [hcall] at hge
    cases hspec with
    | taken _ _ hlt _ _ => exact absurd hlt hge
    | full _ => rfl

/-- **Over every sequence of calls**, `AllocateSlot` returns a slot exactly if one is not in use,
takes that one alone, and `FreeSlots` gives back what it lists. -/
theorem allocates_correctly (calls : List AllocatorCall) :
    (calls.foldl next ({} : AllocatorRun)).Correct := by
  refine correct_of_used ?_
  induction calls using List.reverseRecOn with
  | nil => exact TimeStampSlotAllocator.used_init
  | append_singleton calls call ih =>
    rw [List.foldl_append]
    exact used_next ih call

end AllocatorRun

end Dive
