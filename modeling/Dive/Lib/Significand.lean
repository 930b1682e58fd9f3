import Mathlib.Data.Nat.Size
import Mathlib.Tactic.Ring

/-!
# Rounding a natural number to a significand

* `roundToMultiple u x`: the multiple of `u` nearest to `x`, ties to the even one.
* `ulp p x`, `round p x`: the distance of the numbers with `p` significant bits around `x`, and the
  nearest of them.
* `two_mul_round_le`: rounding adds at most a half.
* `KeepsHalf`; **`round_div_two_iff`**: half of the rounded number, rounded down, is half of the
  number.
-/

namespace Dive.Significand

/-- The nearest multiple, ties to even. -/
def roundToMultiple (u x : ℕ) : ℕ :=
  if 2 * (x % u) < u ∨ (2 * (x % u) = u ∧ x / u % 2 = 0) then x / u * u else (x / u + 1) * u

/-- The unit in the last of `p` places. -/
def ulp (p x : ℕ) : ℕ := 2 ^ (x.size - p)

/-- The nearest number with `p` significant bits, ties to even. -/
def round (p x : ℕ) : ℕ := roundToMultiple (ulp p x) x

/-- The number is a multiple of its unit, or one more without a tie that goes up. -/
def KeepsHalf (p x : ℕ) : Prop :=
  x % ulp p x = 0 ∨ (x % ulp p x = 1 ∧ (ulp p x = 2 → x % 4 = 1))

instance (p x : ℕ) : Decidable (KeepsHalf p x) := inferInstanceAs (Decidable (_ ∨ _))

variable {p u x : ℕ}

theorem roundToMultiple_of_mod_eq_zero (hu : 0 < u) (h : x % u = 0) : roundToMultiple u x = x := by
  rw [roundToMultiple, h, if_pos (.inl hu)]
  exact Nat.div_mul_cancel (Nat.dvd_of_mod_eq_zero h)

theorem round_of_lt (h : x < 2 ^ p) : round p x = x := by
  have hulp : ulp p x = 1 := by
    rw [ulp, Nat.sub_eq_zero_of_le (Nat.size_le.mpr h), pow_zero]
  rw [round, hulp]
  exact roundToMultiple_of_mod_eq_zero Nat.one_pos (Nat.mod_one x)

theorem roundToMultiple_le (hu : u ≤ x) : 2 * roundToMultiple u x ≤ 3 * x := by
  have hx := Nat.div_mul_le_self x u
  rw [roundToMultiple]
  split_ifs with hdown
  · omega
  · -- it goes up from the second half of the unit
    have hmod := Nat.div_add_mod x u
    rw [Nat.mul_comm] at hmod
    rw [Nat.add_one_mul (x / u)]
    omega

theorem two_mul_round_le (hp : 0 < p) (x : ℕ) : 2 * round p x ≤ 3 * x := by
  by_cases h : x < 2 ^ p
  · rw [round_of_lt h]
    omega
  · refine roundToMultiple_le ?_
    have hsize : p < x.size := Nat.lt_size.mpr (Nat.not_lt.mp h)
    have hpos : x.size - 1 < x.size := by omega
    calc ulp p x ≤ 2 ^ (x.size - 1) := Nat.pow_le_pow_right Nat.two_pos (by omega)
      _ ≤ x := Nat.lt_size.mp hpos

theorem div_two_iff {k : ℕ} : x / (2 * k) * (2 * k) / 2 = x / 2 ↔ x % (2 * k) ≤ 1 := by
  have hx := Nat.div_add_mod x (2 * k)
  generalize x % (2 * k) = r at hx ⊢
  have hq : x / (2 * k) * (2 * k) = 2 * (k * (x / (2 * k))) := by ring
  rw [mul_assoc] at hx
  rw [hq]
  omega

theorem succ_div_two_ne {k : ℕ} (hk : 0 < k) : (x / (2 * k) + 1) * (2 * k) / 2 ≠ x / 2 := by
  have hx := Nat.div_add_mod x (2 * k)
  have hr := Nat.mod_lt x (Nat.mul_pos Nat.two_pos hk)
  generalize x % (2 * k) = r at hx hr
  have hq : (x / (2 * k) + 1) * (2 * k) = 2 * (k * (x / (2 * k)) + k) := by ring
  rw [mul_assoc] at hx
  rw [hq]
  omega

theorem roundToMultiple_div_two_iff {k : ℕ} (hk : 0 < k) :
    roundToMultiple (2 * k) x / 2 = x / 2 ↔
      x % (2 * k) = 0 ∨ (x % (2 * k) = 1 ∧ (2 * k = 2 → x % 4 = 1)) := by
  rw [roundToMultiple]
  split_ifs with hdown
  · rw [div_two_iff]
    constructor
    · intro hle
      rcases Nat.le_one_iff_eq_zero_or_eq_one.mp hle with h | h
      · exact .inl h
      · refine .inr ⟨h, fun htwo => ?_⟩
        have hone : k = 1 := by omega
        subst hone
        omega
    · rintro (h | ⟨h, -⟩) <;> omega
  · refine iff_of_false (succ_div_two_ne hk) ?_
    rintro (h | ⟨h, htie⟩)
    · omega
    · by_cases hone : k = 1
      · subst hone
        have := htie rfl
        omega
      · omega

/-- **Half of the rounded number**, rounded down. -/
theorem round_div_two_iff : round p x / 2 = x / 2 ↔ KeepsHalf p x := by
  rw [round, KeepsHalf]
  rcases Nat.eq_zero_or_pos (x.size - p) with h | h
  · have hulp : ulp p x = 1 := by rw [ulp, h, pow_zero]
    rw [hulp, roundToMultiple_of_mod_eq_zero Nat.one_pos (Nat.mod_one x)]
    exact iff_of_true rfl (.inl (Nat.mod_one x))
  · have hulp : ulp p x = 2 * 2 ^ (x.size - p - 1) := by
      rw [ulp, ← pow_succ', Nat.sub_add_cancel h]
    rw [hulp]
    exact roundToMultiple_div_two_iff (Nat.two_pow_pos _)

end Dive.Significand
