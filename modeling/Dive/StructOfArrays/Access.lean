import Dive.StructOfArrays.Generated

/-!
# Where the fields of an element are

* `Cell.slot`: the number of a cell in its element; **`slot_injective`**.
* `Fits`: an element is below the capacity, and its numbers do not overflow an identifier.
* `blockPtr`, `ptr_eq`: the arrays of one field, element by element; **`block_apart`**,
  **`cell_apart`**: no two of them overlap; `cell_inside`: they are inside of the allocation.
* `get_write_self`, `get_write_of_ne`, `get_writeBlock_self`, `get_writeBlock_of_ne`: what a write
  changes.
* `isFieldSet_mark_self`, `isFieldSet_mark_of_ne`: what a mark changes.
-/

namespace Dive

namespace StructOfArrays

open Memory MixedRadix

variable {L : Layout} {s : Soa} {id id' : ℕ} {i j : Fin L.length} {c d : Cell L}
  {value : List UInt8}

/-! ## The layout -/

theorem fieldOffset_add_le (i : Fin L.length) {j : ℕ} (h : i < j) :
    fieldOffset L i + (L.get i).bytes ≤ fieldOffset L j := by
  have hsum := List.sum_take_add_le (l := L.map Field.bytes) (i := i) (by simp) h
  simpa [fieldOffset] using hsum

theorem fieldIndex_add_le (i : Fin L.length) {j : ℕ} (h : i < j) :
    fieldIndex L i + (L.get i).arrayCount ≤ fieldIndex L j := by
  have hsum := List.sum_take_add_le (l := L.map Field.arrayCount) (i := i) (by simp) h
  simpa [fieldIndex] using hsum

theorem fieldIndex_add_le_kNumFields (i : Fin L.length) :
    fieldIndex L i + (L.get i).arrayCount ≤ kNumFields L := by
  have hsum := List.sum_take_add_le_sum (l := L.map Field.arrayCount) (i := i) (by simp)
  simpa [fieldIndex, kNumFields] using hsum

/-- The position of a cell in its array. -/
def Cell.flat (c : Cell L) : ℕ := flatten (L.get c.field).dims c.index

/-- The number of a cell in its element. -/
def Cell.slot (c : Cell L) : ℕ := fieldIndex L c.field + c.flat

theorem Cell.flat_lt (c : Cell L) : c.flat < (L.get c.field).arrayCount := flatten_lt c.within

theorem Cell.ext_flat (hfield : c.field = d.field) (hflat : c.flat = d.flat) : c = d := by
  obtain ⟨i, idx, h⟩ := c
  obtain ⟨i', idx', h'⟩ := d
  obtain rfl : i = i' := hfield
  obtain rfl : idx = idx' := flatten_injective h h' hflat
  rfl

theorem Cell.slot_lt (c : Cell L) : c.slot < kNumFields L := by
  have hle := fieldIndex_add_le_kNumFields c.field
  have hflat := c.flat_lt
  rw [slot]
  omega

/-- **Different cells have different numbers.** -/
theorem Cell.slot_injective (h : c.slot = d.slot) : c = d := by
  have hc := c.flat_lt
  have hd := d.flat_lt
  rw [slot, slot] at h
  rcases lt_trichotomy (c.field : ℕ) d.field with hlt | heq | hlt
  · have hle := fieldIndex_add_le c.field hlt
    omega
  · have hfield : c.field = d.field := Fin.ext heq
    refine Cell.ext_flat hfield ?_
    rw [hfield] at h
    omega
  · have hle := fieldIndex_add_le d.field hlt
    omega

/-! ## One element -/

/-- The element is below the capacity, and its numbers do not overflow an identifier. -/
structure Fits (L : Layout) (s : Soa) (id : ℕ) : Prop where
  lt_cap : id < s.cap
  numbers_le : (id + 1) * kNumFields L ≤ 2 ^ 32

theorem Fits.number_lt (h : Fits L s id) {n : ℕ} (hn : n < kNumFields L) :
    id * kNumFields L + n < 2 ^ 32 := by
  have hle := h.numbers_le
  rw [Nat.succ_mul] at hle
  omega

theorem bit_eq (h : Fits L s id) (c : Cell L) :
    bit L c.field id c.index = id * kNumFields L + c.slot :=
  Nat.mod_eq_of_lt (h.number_lt c.slot_lt)

/-- Where the array of a field of an element begins. -/
def blockPtr (L : Layout) (cap : ℕ) (i : Fin L.length) (id : ℕ) : ℕ :=
  fieldOffset L i * cap + id * (L.get i).bytes

theorem Fits.position_lt (h : Fits L s id) {n : ℕ} (hn : n < (L.get i).arrayCount) :
    id * (L.get i).arrayCount + n < 2 ^ 32 := by
  have hle : (L.get i).arrayCount ≤ kNumFields L :=
    (Nat.le_add_left _ _).trans (fieldIndex_add_le_kNumFields i)
  have hscale : (id + 1) * (L.get i).arrayCount ≤ (id + 1) * kNumFields L :=
    Nat.mul_le_mul_left _ hle
  have hbound := hscale.trans h.numbers_le
  rw [Nat.succ_mul] at hbound
  omega

theorem ptr_eq (h : Fits L s id) (c : Cell L) :
    ptr L s c.field id c.index =
      blockPtr L s.cap c.field id + c.flat * (L.get c.field).size := by
  have hflat : flattenFrom id (L.get c.field).dims c.index =
      id * (L.get c.field).arrayCount + c.flat := flattenFrom_eq c.within
  rw [ptr, hflat, basic, Nat.mod_eq_of_lt (h.position_lt c.flat_lt), blockPtr, Field.bytes]
  rw [Nat.add_mul, Nat.mul_assoc, Nat.mul_comm (L.get c.field).size, Nat.add_assoc]

theorem Field.arrayCount_pos (f : Field) : 0 < f.arrayCount :=
  List.prod_pos_iff_forall_pos_nat.mpr f.dims_pos

theorem ptr_zero (h : Fits L s id) (i : Fin L.length) :
    ptr L s i id ((L.get i).dims.map fun _ => 0) = blockPtr L s.cap i id := by
  have hflat : flattenFrom id (L.get i).dims ((L.get i).dims.map fun _ => 0) =
      id * (L.get i).arrayCount + 0 := flattenFrom_zero _ id
  rw [ptr, hflat, basic, Nat.mod_eq_of_lt (h.position_lt (L.get i).arrayCount_pos), blockPtr,
    Field.bytes, Nat.add_zero, Nat.mul_assoc, Nat.mul_comm (L.get i).size]

theorem Cell.range_le (c : Cell L) :
    c.flat * (L.get c.field).size + (L.get c.field).size ≤ (L.get c.field).bytes := by
  have hle : (c.flat + 1) * (L.get c.field).size ≤
      (L.get c.field).arrayCount * (L.get c.field).size := Nat.mul_le_mul_right _ c.flat_lt
  rw [Nat.succ_mul, Nat.mul_comm (L.get c.field).arrayCount] at hle
  exact hle

theorem block_le (cap : ℕ) (h : id < cap) (i : Fin L.length) :
    blockPtr L cap i id + (L.get i).bytes ≤ (fieldOffset L i + (L.get i).bytes) * cap := by
  have hle : (id + 1) * (L.get i).bytes ≤ cap * (L.get i).bytes := Nat.mul_le_mul_right _ h
  rw [Nat.succ_mul] at hle
  rw [blockPtr, Nat.add_mul, Nat.mul_comm (L.get i).bytes cap]
  omega

/-- **The arrays of different fields or elements do not overlap.** -/
theorem block_apart {cap : ℕ} (h : id < cap) (h' : id' < cap) (hne : id' ≠ id ∨ j ≠ i) :
    blockPtr L cap j id' + (L.get j).bytes ≤ blockPtr L cap i id ∨
      blockPtr L cap i id + (L.get i).bytes ≤ blockPtr L cap j id' := by
  -- an array of one field ends before those of the next field begin
  have hbefore : ∀ {i j : Fin L.length} {id id' : ℕ}, id < cap → (i : ℕ) < j →
      blockPtr L cap i id + (L.get i).bytes ≤ blockPtr L cap j id' := by
    intro i j id id' hid hij
    have hle := Nat.mul_le_mul_right cap (fieldOffset_add_le i hij)
    exact ((block_le cap hid i).trans hle).trans (Nat.le_add_right _ _)
  rcases lt_trichotomy (i : ℕ) j with hlt | heq | hlt
  · exact .inr (hbefore h hlt)
  · obtain rfl : i = j := Fin.ext heq
    have hid : id' ≠ id := hne.resolve_right fun hc => hc rfl
    rcases lt_or_gt_of_ne hid with hlt | hlt
    · refine .inl ?_
      have hle : (id' + 1) * (L.get i).bytes ≤ id * (L.get i).bytes := Nat.mul_le_mul_right _ hlt
      rw [Nat.succ_mul] at hle
      rw [blockPtr, blockPtr]
      omega
    · refine .inr ?_
      have hle : (id + 1) * (L.get i).bytes ≤ id' * (L.get i).bytes := Nat.mul_le_mul_right _ hlt
      rw [Nat.succ_mul] at hle
      rw [blockPtr, blockPtr]
      omega
  · exact .inl (hbefore h' hlt)

/-- **Different cells do not overlap.** -/
theorem cell_apart (h : Fits L s id) (h' : Fits L s id') (hne : id' ≠ id ∨ d ≠ c) :
    ptr L s d.field id' d.index + (L.get d.field).size ≤ ptr L s c.field id c.index ∨
      ptr L s c.field id c.index + (L.get c.field).size ≤ ptr L s d.field id' d.index := by
  have hc := c.range_le
  have hd := d.range_le
  rw [ptr_eq h, ptr_eq h']
  by_cases hsame : id' = id ∧ d.field = c.field
  · obtain ⟨rfl, hfield⟩ := hsame
    have hflat : d.flat ≠ c.flat := fun heq =>
      (hne.resolve_left fun hc => hc rfl) (Cell.ext_flat hfield heq)
    rw [hfield]
    rcases lt_or_gt_of_ne hflat with hlt | hlt
    · refine .inl ?_
      have hle := Nat.mul_le_mul_right (L.get c.field).size hlt
      rw [Nat.succ_mul] at hle
      omega
    · refine .inr ?_
      have hle := Nat.mul_le_mul_right (L.get c.field).size hlt
      rw [Nat.succ_mul] at hle
      omega
  · have hblock := block_apart (L := L) (i := c.field) (j := d.field) h.lt_cap h'.lt_cap
      (by tauto)
    omega

/-! ## Values -/

theorem get_write_self (c : Cell L) (hv : value.length = (L.get c.field).size) :
    get L (write L s c.field id c.index value) c.field id c.index = value := by
  show load (store s.buffer _ value) (ptr L s c.field id c.index) _ = value
  rw [← hv]
  exact load_store_self

theorem get_write_of_ne (h : Fits L s id) (h' : Fits L s id') (hne : id' ≠ id ∨ d ≠ c)
    (hv : value.length = (L.get c.field).size) :
    get L (write L s c.field id c.index value) d.field id' d.index =
      get L s d.field id' d.index := by
  refine load_store_apart ?_
  have hapart := cell_apart h h' hne
  rw [hv]
  exact hapart

/-- The part of a field that a cell is. -/
def Cell.part (c : Cell L) (value : List UInt8) : List UInt8 :=
  (value.drop (c.flat * (L.get c.field).size)).take (L.get c.field).size

theorem get_writeBlock_self (h : Fits L s id) (c : Cell L)
    (hv : value.length = (L.get c.field).bytes) :
    get L (write L s c.field id ((L.get c.field).dims.map fun _ => 0) value) c.field id c.index =
      c.part value := by
  have hle := c.range_le
  show load (store s.buffer _ value) (ptr L s c.field id c.index) _ = _
  rw [ptr_eq h, ptr_zero h]
  exact load_store_inside (hv ▸ hle)

theorem get_writeBlock_of_ne (h : Fits L s id) (h' : Fits L s id')
    (hne : id' ≠ id ∨ d.field ≠ i) (hv : value.length = (L.get i).bytes) :
    get L (write L s i id ((L.get i).dims.map fun _ => 0) value) d.field id' d.index =
      get L s d.field id' d.index := by
  have hd := d.range_le
  have hblock := block_apart (L := L) h.lt_cap h'.lt_cap hne
  refine load_store_apart ?_
  show ptr L s d.field id' d.index + _ ≤ _ ∨ _ ≤ ptr L s d.field id' d.index
  rw [ptr_zero h, ptr_eq h', hv]
  omega

theorem part_load (h : Fits L s id) (c : Cell L) :
    c.part (load s.buffer (blockPtr L s.cap c.field id) (L.get c.field).bytes) =
      get L s c.field id c.index := by
  rw [Cell.part, drop_take_load c.range_le, get, ptr_eq h]

/-! ## Flags -/

theorem bit_inside (h : Fits L s id) (hbits : s.cap * kNumFields L / 8 < s.isSetBuffer.length)
    (c : Cell L) : bit L c.field id c.index / 8 < s.isSetBuffer.length := by
  have hlt := c.slot_lt
  have hle : (id + 1) * kNumFields L ≤ s.cap * kNumFields L := Nat.mul_le_mul_right _ h.lt_cap
  rw [Nat.succ_mul] at hle
  rw [bit_eq h]
  omega

theorem bit_injective (h : Fits L s id) (h' : Fits L s id')
    (heq : bit L d.field id' d.index = bit L c.field id c.index) : id' = id ∧ d = c := by
  rw [bit_eq h, bit_eq h'] at heq
  obtain ⟨hid, hslot⟩ := digits_unique d.slot_lt c.slot_lt heq
  exact ⟨hid, Cell.slot_injective hslot⟩

theorem isFieldSet_mark_self (h : Fits L s id)
    (hbits : s.cap * kNumFields L / 8 < s.isSetBuffer.length) (c : Cell L) :
    isFieldSet L (markFieldSet L s c.field id c.index) c.field id c.index = true := by
  rw [isFieldSet, markFieldSet, PackedBits.test_mark (bit_inside h hbits c)]
  simp

theorem isFieldSet_mark_of_ne (h : Fits L s id) (h' : Fits L s id')
    (hbits : s.cap * kNumFields L / 8 < s.isSetBuffer.length) (hne : id' ≠ id ∨ d ≠ c) :
    isFieldSet L (markFieldSet L s c.field id c.index) d.field id' d.index =
      isFieldSet L s d.field id' d.index := by
  have hbit : bit L d.field id' d.index ≠ bit L c.field id c.index := fun heq => by
    have hsame := bit_injective h h' heq
    tauto
  rw [isFieldSet, markFieldSet, PackedBits.test_mark (bit_inside h hbits c)]
  simp [hbit, isFieldSet]

end StructOfArrays

end Dive
