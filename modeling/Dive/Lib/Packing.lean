import Mathlib.Algebra.BigOperators.Group.List.Basic
import Mathlib.Algebra.GroupWithZero.Nat
import Mathlib.Algebra.Order.BigOperators.Group.List
import Mathlib.Algebra.Order.Group.Nat
import Mathlib.Data.List.GetD
import Mathlib.Data.List.TakeDrop

/-!
# Values packed into bytes, positions into numbers, flags into bits

* `Memory.load`, `Memory.store`: a range of bytes; **`load_store_inside`** and
  **`load_store_apart`**: what a load finds after a store, `load_foldl_store_inside`: after many.
* `MixedRadix.flatten`: the number of a position in an array of several dimensions;
  **`flatten_lt`**, **`flatten_injective`**; `indices` are all positions.
* `PackedBits.test`, `PackedBits.mark`: one bit of a list of bytes; **`test_mark`**.
* `List.sum_take_add_le`: the parts of a sum do not overlap.
-/

/-! ## Memory -/

/-- The bytes by their addresses. -/
abbrev Memory : Type := ℕ → UInt8

namespace Memory

variable {m : Memory} {a b n k : ℕ} {bytes : List UInt8}

/-- The `n` bytes from an address on. -/
def load (m : Memory) (a n : ℕ) : List UInt8 := (List.range n).map fun k => m (a + k)

/-- The bytes put at an address. -/
def store (m : Memory) (a : ℕ) (bytes : List UInt8) : Memory := fun x =>
  if a ≤ x ∧ x < a + bytes.length then bytes.getD (x - a) 0 else m x

@[simp] theorem length_load (m : Memory) (a n : ℕ) : (load m a n).length = n := by simp [load]

theorem getElem?_load (h : k < n) : (load m a n)[k]? = some (m (a + k)) := by
  simp [load, h]

theorem load_congr {m' : Memory} (h : ∀ k < n, m (a + k) = m' (b + k)) :
    load m a n = load m' b n :=
  List.map_congr_left fun k hk => h k (List.mem_range.mp hk)

theorem drop_take_load (h : k + n ≤ b) : ((load m a b).drop k).take n = load m (a + k) n := by
  apply List.ext_getElem?
  intro j
  by_cases hj : j < n
  · rw [List.getElem?_take_of_lt hj, List.getElem?_drop, getElem?_load (by omega),
      getElem?_load hj, Nat.add_assoc]
  · rw [List.getElem?_eq_none (by simp; omega), List.getElem?_eq_none (by simp; omega)]

/-- **A load inside of what was stored.** -/
theorem load_store_inside (h : k + n ≤ bytes.length) :
    load (store m a bytes) (a + k) n = (bytes.drop k).take n := by
  apply List.ext_getElem?
  intro j
  by_cases hj : j < n
  · have hin : a ≤ a + k + j ∧ a + k + j < a + bytes.length := by omega
    have hsub : a + k + j - a = k + j := by omega
    rw [getElem?_load hj, List.getElem?_take_of_lt hj, List.getElem?_drop, store, if_pos hin, hsub,
      List.getD_eq_getElem _ _ (show k + j < bytes.length by omega),
      List.getElem?_eq_getElem (show k + j < bytes.length by omega)]
  · rw [List.getElem?_eq_none (by simp; omega), List.getElem?_eq_none (by simp; omega)]

theorem load_store_self : load (store m a bytes) a bytes.length = bytes := by
  have h := @load_store_inside m a bytes.length 0 bytes (by omega)
  simpa using h

/-- **A load apart from what was stored.** -/
theorem load_store_apart (h : b + n ≤ a ∨ a + bytes.length ≤ b) :
    load (store m a bytes) b n = load m b n := by
  apply load_congr
  intro k hk
  rw [store, if_neg (by omega)]

section Fold

variable {ι : Type*} {addr : ι → ℕ} {data : ι → List UInt8} {j : ι}

theorem load_foldl_store_apart : ∀ {l : List ι} {m : Memory},
    (∀ i ∈ l, b + n ≤ addr i ∨ addr i + (data i).length ≤ b) →
    load (l.foldl (fun m i => store m (addr i) (data i)) m) b n = load m b n
  | [], _, _ => rfl
  | i :: l, m, h => by
    rw [List.foldl_cons, load_foldl_store_apart fun i hi => h i (List.mem_cons_of_mem _ hi)]
    exact load_store_apart (h i List.mem_cons_self)

/-- **A load inside of one of the ranges stored**, where the others are apart from it. -/
theorem load_foldl_store_inside (addr : ι → ℕ) (data : ι → List UInt8)
    (hk : k + n ≤ (data j).length) : ∀ {l : List ι} {m : Memory}, j ∈ l →
    (∀ i ∈ l, i ≠ j → addr j + k + n ≤ addr i ∨ addr i + (data i).length ≤ addr j + k) →
    load (l.foldl (fun m i => store m (addr i) (data i)) m) (addr j + k) n =
      ((data j).drop k).take n
  | i :: l, m, hj, h => by
    have hrest := fun i hi => h i (List.mem_cons_of_mem _ hi)
    rw [List.foldl_cons]
    by_cases hmem : j ∈ l
    · exact load_foldl_store_inside addr data hk hmem hrest
    · obtain rfl : j = i := (List.mem_cons.mp hj).resolve_right hmem
      rw [load_foldl_store_apart fun i hi => hrest i hi fun hc => hmem (hc ▸ hi)]
      exact load_store_inside hk

end Fold

end Memory

/-! ## Positions -/

namespace MixedRadix

/-- A position in an array of these dimensions. -/
def Within (dims idx : List ℕ) : Prop := List.Forall₂ (fun i d => i < d) idx dims

/-- The number of a position, the last index counting fastest; `acc` is what the indices before
give. -/
def flattenFrom : ℕ → List ℕ → List ℕ → ℕ
  | acc, d :: dims, i :: idx => flattenFrom (acc * d + i) dims idx
  | acc, _, _ => acc

def flatten (dims idx : List ℕ) : ℕ := flattenFrom 0 dims idx

/-- All positions. -/
def indices : List ℕ → List (List ℕ)
  | [] => [[]]
  | d :: dims => (List.range d).flatMap fun i => (indices dims).map (i :: ·)

variable {dims idx idx' : List ℕ} {acc i : ℕ}

theorem mem_indices : ∀ {dims idx : List ℕ}, idx ∈ indices dims ↔ Within dims idx
  | [], idx => by simp [indices, Within, List.forall₂_nil_right_iff]
  | d :: dims, [] => by simp [indices, Within]
  | d :: dims, i :: idx => by
    have ih := @mem_indices dims idx
    rw [Within] at ih
    simp [indices, Within, ih]

theorem flattenFrom_eq : ∀ {dims idx : List ℕ} {acc : ℕ}, Within dims idx →
    flattenFrom acc dims idx = acc * dims.prod + flatten dims idx
  | [], [], acc, _ => by simp [flattenFrom, flatten]
  | d :: dims, i :: idx, acc, h => by
    have hrest := (List.forall₂_cons.mp h).2
    rw [flatten, flattenFrom, flattenFrom, flattenFrom_eq hrest, flattenFrom_eq hrest,
      List.prod_cons]
    simp only [Nat.zero_mul, Nat.zero_add, Nat.add_mul, Nat.mul_assoc, Nat.add_assoc]

theorem flatten_cons {d : ℕ} (h : Within (d :: dims) (i :: idx)) :
    flatten (d :: dims) (i :: idx) = i * dims.prod + flatten dims idx := by
  rw [flatten, flattenFrom, flattenFrom_eq (List.forall₂_cons.mp h).2, Nat.zero_mul, Nat.zero_add]

/-- **Every position has a number below the size.** -/
theorem flatten_lt : ∀ {dims idx : List ℕ}, Within dims idx → flatten dims idx < dims.prod
  | [], [], _ => by simp [flatten, flattenFrom]
  | d :: dims, i :: idx, h => by
    obtain ⟨hi, hrest⟩ := List.forall₂_cons.mp h
    have ih := flatten_lt hrest
    have hscale : (i + 1) * dims.prod ≤ d * dims.prod := Nat.mul_le_mul_right _ hi
    rw [flatten_cons h, List.prod_cons]
    rw [Nat.succ_mul] at hscale
    omega

theorem digits_unique {a a' b r r' : ℕ} (hr : r < b) (hr' : r' < b)
    (h : a * b + r = a' * b + r') : a = a' ∧ r = r' := by
  have hb : 0 < b := by omega
  have hdiv := congrArg (· / b) h
  have hmod := congrArg (· % b) h
  simp only [Nat.mul_comm _ b, Nat.mul_add_div hb, Nat.mul_add_mod, Nat.div_eq_of_lt hr,
    Nat.div_eq_of_lt hr', Nat.mod_eq_of_lt hr, Nat.mod_eq_of_lt hr', Nat.add_zero] at hdiv hmod
  exact ⟨hdiv, hmod⟩

/-- **Different positions have different numbers.** -/
theorem flatten_injective : ∀ {dims idx idx' : List ℕ}, Within dims idx → Within dims idx' →
    flatten dims idx = flatten dims idx' → idx = idx'
  | [], [], [], _, _, _ => rfl
  | d :: dims, i :: idx, i' :: idx', h, h', heq => by
    have hrest := (List.forall₂_cons.mp h).2
    have hrest' := (List.forall₂_cons.mp h').2
    rw [flatten_cons h, flatten_cons h'] at heq
    obtain ⟨rfl, hflat⟩ := digits_unique (flatten_lt hrest) (flatten_lt hrest') heq
    rw [flatten_injective hrest hrest' hflat]

theorem flattenFrom_zero : ∀ (dims : List ℕ) (acc : ℕ),
    flattenFrom acc dims (dims.map fun _ => 0) = acc * dims.prod
  | [], acc => by simp [flattenFrom]
  | d :: dims, acc => by
    rw [List.map_cons, flattenFrom, Nat.add_zero, flattenFrom_zero, List.prod_cons, Nat.mul_assoc]

end MixedRadix

/-! ## Bits -/

namespace PackedBits

variable {bits : List UInt8} {i j : ℕ}

/-- The mask of a bit in its byte. -/
def mask (i : ℕ) : UInt8 := 1 <<< (i % 8).toUInt8

/-- The byte of a bit. -/
def byte (bits : List UInt8) (i : ℕ) : UInt8 := bits.getD (i / 8) 0

def test (bits : List UInt8) (i : ℕ) : Bool := byte bits i &&& mask i != 0

def mark (bits : List UInt8) (i : ℕ) : List UInt8 := bits.modify (i / 8) (· ||| mask i)

theorem toBitVec_mask (i : ℕ) : (mask i).toBitVec = BitVec.twoPow 8 (i % 8) := by
  have h : i % 8 < 8 := Nat.mod_lt i (by omega)
  apply BitVec.eq_of_toNat_eq
  simp [mask, BitVec.twoPow, BitVec.toNat_shiftLeft]

theorem test_eq (bits : List UInt8) (i : ℕ) :
    test bits i = (byte bits i).toBitVec.getLsbD (i % 8) := by
  have h : i % 8 < 8 := Nat.mod_lt i (by omega)
  have hpow : BitVec.twoPow 8 (i % 8) ≠ 0#8 := fun hc => by
    have hbit := BitVec.getLsbD_twoPow (w := 8) (i % 8) (i % 8)
    simp [hc, h] at hbit
  rw [test, Bool.eq_iff_iff, bne_iff_ne, Ne, ← UInt8.toBitVec_inj, UInt8.toBitVec_and,
    toBitVec_mask, BitVec.and_twoPow]
  cases (byte bits i).toBitVec.getLsbD (i % 8) with
  | false => simp
  | true => simpa using hpow

/-- The flags that come later are clear. -/
def resize (bits : List UInt8) (n : ℕ) : List UInt8 :=
  bits.take n ++ List.replicate (n - bits.length) 0

@[simp] theorem length_resize (bits : List UInt8) (n : ℕ) : (resize bits n).length = n := by
  simp only [resize, List.length_append, List.length_take, List.length_replicate]
  omega

theorem test_resize {n : ℕ} (h : i / 8 < n) : test (resize bits n) i = test bits i := by
  have hbyte : byte (resize bits n) i = byte bits i := by
    rw [byte, byte, resize, List.getD_eq_getElem?_getD, List.getD_eq_getElem?_getD]
    by_cases hi : i / 8 < bits.length
    · rw [List.getElem?_append_left (by simp; omega), List.getElem?_take_of_lt h]
    · rw [List.getElem?_append_right (by simp; omega), List.getElem?_replicate,
        List.getElem?_eq_none (not_lt.mp hi)]
      split_ifs <;> rfl
  rw [test, test, hbyte]

@[simp] theorem test_nil (i : ℕ) : test [] i = false := by simp [test, byte]

theorem length_mark (bits : List UInt8) (i : ℕ) : (mark bits i).length = bits.length := by
  simp [mark]

theorem byte_mark (h : i / 8 < bits.length) (j : ℕ) :
    byte (mark bits i) j = if i / 8 = j / 8 then byte bits j ||| mask i else byte bits j := by
  rw [byte, byte, mark, List.getD_eq_getElem?_getD, List.getD_eq_getElem?_getD,
    List.getElem?_modify]
  split_ifs with hij
  · rw [← hij, List.getElem?_eq_getElem h]
    simp
  · simp

/-- **A mark sets its bit and no other.** -/
theorem test_mark (h : i / 8 < bits.length) (j : ℕ) :
    test (mark bits i) j = (decide (j = i) || test bits j) := by
  have hmod : i % 8 < 8 := Nat.mod_lt i (by omega)
  have hmod' : j % 8 < 8 := Nat.mod_lt j (by omega)
  have hij : j = i ↔ i / 8 = j / 8 ∧ i % 8 = j % 8 := by omega
  rw [test_eq, test_eq, byte_mark h]
  split_ifs with hb
  · simp [toBitVec_mask, hmod', hij, hb, Bool.or_comm, eq_comm]
  · simp [hij, hb]

end PackedBits

/-! ## Sums -/

theorem List.sum_take_add_le {l : List ℕ} {i j : ℕ} (hi : i < l.length) (hij : i < j) :
    (l.take i).sum + l[i] ≤ (l.take j).sum := by
  rw [← List.sum_take_succ l i hi]
  exact ((List.take_sublist_take_left hij).sum_le_sum fun _ _ => Nat.zero_le _)

theorem List.sum_take_add_le_sum {l : List ℕ} {i : ℕ} (hi : i < l.length) :
    (l.take i).sum + l[i] ≤ l.sum := by
  have h := List.sum_take_add_le hi hi
  rwa [List.take_length] at h
