import Mathlib.Data.Finset.Range
import Mathlib.Data.Finset.Filter
import Mathlib.Data.Finset.Card
import Mathlib.Tactic.Ring

/-!
# Bitmaps of 64-bit words

* `Bitmap.test`, `Bitmap.mark`, `Bitmap.clear`: one bit, by a mask on its word.
* `Bitmap.members`: the set a bitmap stands for; **`members_mark`** and **`members_clear`**.
-/

namespace Bitmap

variable {n i j : ℕ}

/-- The mask of a bit in its word. -/
def mask (i : ℕ) : UInt64 := 1 <<< (i % 64).toUInt64

/-- The word of a bit. -/
def word (b : Vector UInt64 n) (i : ℕ) : UInt64 := b[i / 64]?.getD 0

def test (b : Vector UInt64 n) (i : ℕ) : Bool := word b i &&& mask i != 0

def mark (b : Vector UInt64 n) (i : ℕ) : Vector UInt64 n :=
  b.setIfInBounds (i / 64) (word b i ||| mask i)

def clear (b : Vector UInt64 n) (i : ℕ) : Vector UInt64 n :=
  b.setIfInBounds (i / 64) (word b i &&& ~~~ mask i)

/-- The set that a bitmap stands for. -/
def members (b : Vector UInt64 n) : Finset ℕ := {i ∈ Finset.range (64 * n) | test b i}

/-! ## One word -/

theorem toBitVec_mask (i : ℕ) : (mask i).toBitVec = BitVec.twoPow 64 (i % 64) := by
  have h : i % 64 < 64 := Nat.mod_lt i (by omega)
  apply BitVec.eq_of_toNat_eq
  simp [mask, BitVec.twoPow, BitVec.toNat_shiftLeft]

theorem and_mask_eq_zero (w : UInt64) (i : ℕ) :
    w &&& mask i = 0 ↔ w.toBitVec.getLsbD (i % 64) = false := by
  have h : i % 64 < 64 := Nat.mod_lt i (by omega)
  have hpow : BitVec.twoPow 64 (i % 64) ≠ 0#64 := fun hc => by
    have hbit := BitVec.getLsbD_twoPow (w := 64) (i % 64) (i % 64)
    simp [hc, h] at hbit
  rw [← UInt64.toBitVec_inj, UInt64.toBitVec_and, toBitVec_mask, BitVec.and_twoPow]
  cases w.toBitVec.getLsbD (i % 64) with
  | false => simp
  | true => simpa using hpow

theorem getLsbD_mask (i j : ℕ) : (mask i).toBitVec.getLsbD (j % 64) = decide (i % 64 = j % 64) := by
  have h : i % 64 < 64 := Nat.mod_lt i (by omega)
  simp [toBitVec_mask, BitVec.getLsbD_twoPow, h]

theorem test_eq (b : Vector UInt64 n) (i : ℕ) :
    test b i = (word b i).toBitVec.getLsbD (i % 64) := by
  rw [test, Bool.eq_iff_iff, bne_iff_ne, Ne, and_mask_eq_zero, Bool.not_eq_false]

/-! ## All words -/

theorem word_set (b : Vector UInt64 n) (i j : ℕ) (w : UInt64) (h : i < 64 * n) :
    word (b.setIfInBounds (i / 64) w) j = if i / 64 = j / 64 then w else word b j := by
  have hi : i / 64 < n := by omega
  simp only [word, Vector.getElem?_setIfInBounds, hi, if_true]
  split_ifs <;> rfl

theorem test_eq_false_of_le (b : Vector UInt64 n) (h : 64 * n ≤ i) : test b i = false := by
  have hi : n ≤ i / 64 := by omega
  simp [test, word, Vector.getElem?_eq_none hi]

theorem test_mark (b : Vector UInt64 n) (h : i < 64 * n) (j : ℕ) :
    test (mark b i) j = (decide (j = i) || test b j) := by
  have hij : j = i ↔ i / 64 = j / 64 ∧ i % 64 = j % 64 := by omega
  rw [test_eq, test_eq, mark, word_set b i j _ h]
  split_ifs with hw
  · have hword : word b i = word b j := by rw [word, word, hw]
    simp [getLsbD_mask, hij, hw, hword, Bool.or_comm]
  · simp [hij, hw]

theorem test_clear (b : Vector UInt64 n) (i j : ℕ) :
    test (clear b i) j = (!decide (j = i) && test b j) := by
  have hij : j = i ↔ i / 64 = j / 64 ∧ i % 64 = j % 64 := by omega
  by_cases h : i < 64 * n
  · rw [test_eq, test_eq, clear, word_set b i j _ h]
    split_ifs with hw
    · have hword : word b i = word b j := by rw [word, word, hw]
      have hj : j % 64 < 64 := Nat.mod_lt j (by omega)
      rw [UInt64.toBitVec_and, UInt64.toBitVec_not, BitVec.getLsbD_and, BitVec.getLsbD_not,
        getLsbD_mask, hword]
      simp [hij, hw, hj, Bool.and_comm]
    · simp [hij, hw]
  · have hn : n ≤ i / 64 := by omega
    have hid : clear b i = b := by
      rw [clear, Vector.setIfInBounds_eq_of_size_le hn]
    rw [hid]
    by_cases hc : j = i
    · simp [hc, test_eq_false_of_le b (not_lt.mp h)]
    · simp [hc]

/-! ## The set -/

theorem mem_members {b : Vector UInt64 n} : i ∈ members b ↔ test b i = true := by
  rw [members, Finset.mem_filter, Finset.mem_range, and_iff_right_iff_imp]
  intro h
  by_contra hc
  rw [test_eq_false_of_le b (not_lt.mp hc)] at h
  cases h

theorem lt_of_mem_members {b : Vector UInt64 n} (h : i ∈ members b) : i < 64 * n :=
  Finset.mem_range.mp (Finset.mem_filter.mp h).1

theorem members_replicate : members (Vector.replicate n 0) = ∅ := by
  ext i
  have hword : word (Vector.replicate n 0) i = 0 := by
    rw [word, Vector.getElem?_replicate]
    split_ifs <;> rfl
  simp [members, test, hword]

theorem members_mark {b : Vector UInt64 n} (h : i < 64 * n) :
    members (mark b i) = insert i (members b) := by
  ext j
  rw [mem_members, test_mark b h, Finset.mem_insert, mem_members]
  simp

theorem members_clear {b : Vector UInt64 n} : members (clear b i) = (members b).erase i := by
  ext j
  rw [mem_members, test_clear, Finset.mem_erase, mem_members]
  simp

theorem members_foldl_clear (l : List ℕ) : ∀ b : Vector UInt64 n,
    members (l.foldl clear b) = members b \ l.toFinset := by
  induction l with
  | nil => simp
  | cons i l ih =>
    intro b
    rw [List.foldl_cons, ih, members_clear, List.toFinset_cons]
    ext x
    simp only [Finset.mem_sdiff, Finset.mem_erase, Finset.mem_insert]
    tauto

theorem card_members_le (b : Vector UInt64 n) : (members b).card ≤ 64 * n :=
  (Finset.card_filter_le _ _).trans (Finset.card_range _).le

theorem exists_test_eq_false {b : Vector UInt64 n} (h : (members b).card < 64 * n) :
    ∃ i < 64 * n, test b i = false := by
  by_contra hc
  push Not at hc
  have hall : members b = Finset.range (64 * n) :=
    Finset.filter_true_of_mem fun i hi => by simpa using hc i (Finset.mem_range.mp hi)
  rw [hall, Finset.card_range] at h
  exact lt_irrefl _ h

theorem test_of_card {b : Vector UInt64 n} (h : (members b).card = 64 * n) (hi : i < 64 * n) :
    test b i = true := by
  have hall : members b = Finset.range (64 * n) :=
    Finset.eq_of_subset_of_card_le (Finset.filter_subset _ _) (by simp [h])
  rw [← mem_members, hall]
  exact Finset.mem_range.mpr hi

end Bitmap
