import Mathlib.Algebra.Order.Ring.Int
import Mathlib.Data.Nat.Bitwise
import Mathlib.Tactic.Linarith
import Mathlib.Tactic.Ring

/-!
# Fields of a word and their two's complement values

* `Nat.ones_shiftRight`, `Nat.and_ones_shiftRight`: masks and the fields that they cut out.
* `signedValue`: the value of so many bits as two's complement.
* `truncate_eq_signedValue_iff`: when a shifted field that is cut to a word has the value of the
  field.
-/

theorem Nat.ones_shiftRight {a b : ℕ} (h : b ≤ a) : (2 ^ a - 1) >>> (a - b) = 2 ^ b - 1 := by
  have hpow : 2 ^ a = 2 ^ (a - b) * 2 ^ b := by rw [← Nat.pow_add, Nat.sub_add_cancel h]
  have hpos : 0 < 2 ^ b := Nat.two_pow_pos b
  have hpos' : 0 < 2 ^ (a - b) := Nat.two_pow_pos (a - b)
  rw [Nat.shiftRight_eq_div_pow]
  apply Nat.div_eq_of_lt_le
  · rw [hpow, Nat.sub_mul, Nat.one_mul, Nat.mul_comm]
    exact Nat.sub_le_sub_left hpos' _
  · rw [Nat.sub_add_cancel hpos, hpow, Nat.mul_comm]
    exact Nat.sub_lt (Nat.mul_pos hpos hpos') Nat.one_pos

theorem Nat.and_ones_shiftRight (x bits low : ℕ) :
    (x &&& (2 ^ bits - 1) <<< low) >>> low = x / 2 ^ low % 2 ^ bits := by
  rw [← Nat.and_two_pow_sub_one_eq_mod, ← Nat.shiftRight_eq_div_pow, Nat.shiftRight_and_distrib,
    Nat.shiftLeft_shiftRight]

/-- The value of `bits` bits as two's complement. -/
def signedValue (bits n : ℕ) : ℤ := Int.bmod n (2 ^ bits)

section

variable {bits n : ℕ}

theorem signedValue_of_lt (h : n < 2 ^ bits) : signedValue (bits + 1) n = n := by
  unfold signedValue
  apply Int.bmod_eq_of_le_mul_two
  · omega
  · rw [Nat.pow_succ]
    omega

theorem signedValue_of_le (h : 2 ^ bits ≤ n) (hlt : n < 2 ^ (bits + 1)) :
    signedValue (bits + 1) n = n - 2 ^ (bits + 1) := by
  unfold signedValue
  rw [Int.bmod_eq_iff (Nat.two_pow_pos _)]
  rw [Nat.pow_succ] at hlt ⊢
  have hcast : (2 : ℤ) ^ (bits + 1) = ((2 ^ bits * 2 : ℕ) : ℤ) := by
    push_cast
    rw [pow_succ]
  rw [hcast]
  refine ⟨by omega, by omega, ?_⟩
  rw [show (n : ℤ) - ((2 ^ bits * 2 : ℕ) : ℤ) - n = -((2 ^ bits * 2 : ℕ) : ℤ) by ring]
  exact Int.dvd_neg.mpr (Int.dvd_refl _)

theorem signedValue_nonneg_iff (hlt : n < 2 ^ (bits + 1)) :
    0 ≤ signedValue (bits + 1) n ↔ n < 2 ^ bits := by
  rcases Nat.lt_or_ge n (2 ^ bits) with h | h
  · rw [signedValue_of_lt h]
    omega
  · rw [signedValue_of_le h hlt]
    have hcast : ((2 ^ (bits + 1) : ℕ) : ℤ) = 2 ^ (bits + 1) := by push_cast; rfl
    rw [← hcast]
    omega

theorem dvd_shifted_sub_iff {s m : ℕ} (hlt : n < 2 ^ (bits + 1)) :
    (2 : ℤ) ^ (m + 1) ∣ signedValue (bits + 1) n * 2 ^ s - ((n * 2 ^ s : ℕ) : ℤ) ↔
      0 ≤ signedValue (bits + 1) n ∨ m ≤ bits + s := by
  push_cast
  rw [signedValue_nonneg_iff hlt]
  rcases Nat.lt_or_ge n (2 ^ bits) with h | h
  · rw [signedValue_of_lt h, sub_self]
    exact iff_of_true (dvd_zero _) (.inl h)
  · have hdiff : (signedValue (bits + 1) n * 2 ^ s - n * 2 ^ s : ℤ) = -2 ^ (bits + 1 + s) := by
      rw [signedValue_of_le h hlt, pow_add 2 (bits + 1) s]
      ring
    rw [hdiff, Int.dvd_neg, or_iff_right (not_lt.mpr h)]
    constructor
    · intro hdvd
      have hle : 2 ^ (m + 1) ∣ 2 ^ (bits + 1 + s) := by exact_mod_cast hdvd
      have := (Nat.pow_dvd_pow_iff_le_right (by decide)).mp hle
      omega
    · intro hle
      exact pow_dvd_pow 2 (by omega)

/-- **A shifted field in a word.** It has the value of the field, shifted, exactly if this value
fits and a sign comes to the top of the word. -/
theorem truncate_eq_signedValue_iff {s m M : ℕ} (hm : m < M) (hlt : n < 2 ^ (bits + 1)) :
    signedValue (m + 1) (n * 2 ^ s % 2 ^ M) = signedValue (bits + 1) n * 2 ^ s ↔
      (-2 ^ m ≤ signedValue (bits + 1) n * 2 ^ s ∧ signedValue (bits + 1) n * 2 ^ s < 2 ^ m) ∧
        (0 ≤ signedValue (bits + 1) n ∨ m ≤ bits + s) := by
  have hhalf : ((2 ^ (m + 1) : ℕ) : ℤ) = 2 * 2 ^ m := by
    push_cast
    rw [pow_succ, mul_comm]
  have hword : ((n * 2 ^ s % 2 ^ M : ℕ) : ℤ) =
      (n * 2 ^ s : ℕ) - 2 ^ (m + 1) * (2 ^ (M - (m + 1)) * ((n * 2 ^ s : ℕ) / 2 ^ M)) := by
    rw [Int.natCast_emod, Int.emod_def, ← mul_assoc, ← pow_add, Nat.add_sub_cancel' hm]
    push_cast
    rfl
  rw [← dvd_shifted_sub_iff hlt, signedValue, Int.bmod_eq_iff (Nat.two_pow_pos _), hhalf, hword,
    and_assoc]
  apply and_congr
  · rw [Int.mul_ediv_cancel_left _ (by decide)]
  apply and_congr
  · rw [show (2 * 2 ^ m + 1 : ℤ) / 2 = 2 ^ m by omega]
  · rw [← sub_add, ← hhalf]
    push_cast
    exact Int.dvd_add_left (dvd_mul_right _ _)

end
