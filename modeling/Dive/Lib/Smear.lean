import Mathlib.Algebra.GroupWithZero.Nat
import Mathlib.Data.Nat.Size

/-!
# Smeared bits

* `Smeared n k m`: a bit of `m` is set when one of the `k` bits of `n` from there on is.
* `Smeared.shift`: one `m |= m >> k` doubles `k`.
* **`Smeared.add_one`**: once all bits are smeared, the next number is a power of two.
-/

namespace Smear

/-- Bit `i` of `m` is set when one of the bits `i`, …, `i + k - 1` of `n` is. -/
def Smeared (n k m : ℕ) : Prop := ∀ i, m.testBit i = true ↔ ∃ j < k, n.testBit (i + j) = true

variable {n k m : ℕ}

theorem smeared_one : Smeared n 1 n := by
  intro i
  simp

theorem Smeared.shift (h : Smeared n k m) : Smeared n (k + k) (m ||| m >>> k) := by
  intro i
  rw [Nat.testBit_or, Nat.testBit_shiftRight, Bool.or_eq_true, h, h]
  constructor
  · rintro (⟨j, hj, hbit⟩ | ⟨j, hj, hbit⟩)
    · exact ⟨j, by omega, hbit⟩
    · refine ⟨k + j, by omega, ?_⟩
      rwa [← add_assoc, add_comm i k]
  · rintro ⟨j, hj, hbit⟩
    by_cases hlt : j < k
    · exact .inl ⟨j, hlt, hbit⟩
    · refine .inr ⟨j - k, by omega, ?_⟩
      rwa [show k + i + (j - k) = i + j by omega]

theorem Smeared.testBit (h : Smeared n k m) (hn : n < 2 ^ k) (i : ℕ) :
    m.testBit i = true ↔ 2 ^ i ≤ n := by
  rw [h]
  constructor
  · rintro ⟨j, _, hbit⟩
    exact Nat.le_trans (Nat.pow_le_pow_right Nat.two_pos (Nat.le_add_right i j))
      (Nat.ge_two_pow_of_testBit hbit)
  · intro hle
    obtain ⟨j, hj, hbit⟩ := Nat.exists_ge_and_testBit_of_ge_two_pow hle
    have hlt : 2 ^ j < 2 ^ k := Nat.lt_of_le_of_lt (Nat.ge_two_pow_of_testBit hbit) hn
    have hjk : j < k := (Nat.pow_lt_pow_iff_right Nat.one_lt_two).mp hlt
    exact ⟨j - i, by omega, by rwa [show i + (j - i) = j by omega]⟩

/-- **The number after the smeared one is the least power of two above `n`.** -/
theorem Smeared.add_one (h : Smeared n k m) (hn : n < 2 ^ k) : m + 1 = 2 ^ n.size := by
  have hm : m = 2 ^ n.size - 1 := by
    apply Nat.eq_of_testBit_eq
    intro i
    rw [Nat.testBit_two_pow_sub_one, Bool.eq_iff_iff, h.testBit hn, decide_eq_true_iff, Nat.lt_size]
  have hpos : 0 < 2 ^ n.size := Nat.two_pow_pos _
  omega

end Smear
