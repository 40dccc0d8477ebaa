import RuleCheck.Number.Decimal28
import Mathlib.Data.Rat.Floor
import Mathlib.Algebra.Order.Floor.Semifield
import Mathlib.Tactic.Ring

/-! # Exact decimal arithmetic

A number of at most 28 significant digits is its own rounding, however many zeros its coefficient ends in.
So a product or a sum is exact if its exact value has no more digits than that.
-/

namespace RuleCheck.Number

theorem roundHalfEven_mul (q : Nat) {den : Nat} (hden : 0 < den) : roundHalfEven (q * den) den = q := by
  simp [roundHalfEven, Nat.mul_div_cancel _ hden, hden]

namespace Decimal28

def value (x : Decimal28) : ℚ :=
  x.coefficient * 10 ^ x.exponent

/-- Whether an exact value has at most 28 significant digits. -/
def IsShort (q : ℚ) : Prop :=
  ∃ (digits : ℕ) (exponent : ℤ), digits < 10 ^ precision ∧ q = digits * 10 ^ exponent

theorem isShort_natCast {n : ℕ} (h : n < 10 ^ precision) : IsShort n :=
  ⟨n, 0, h, by simp⟩

theorem value_zeros (coefficient zeros : ℕ) (exponent : ℤ) :
    value ⟨coefficient * 10 ^ zeros, exponent⟩ = value ⟨coefficient, exponent + zeros⟩ := by
  simp only [value]
  rw [zpow_add₀ (by norm_num), zpow_natCast]
  push_cast
  ring

/-- Of a short value, the digits that are too many are zeros. -/
theorem dvd_of_isShort {coefficient : ℕ} {exponent : ℤ} (h : IsShort (value ⟨coefficient, exponent⟩))
    {excess : Nat} (hlong : 10 ^ (precision + excess) ≤ 10 * coefficient) : 10 ^ excess ∣ coefficient := by
  obtain ⟨digits, place, hdigits, hvalue⟩ := h
  have hten : (0 : ℚ) < 10 ^ exponent := zpow_pos (by norm_num) exponent
  by_cases hzeros : exponent + excess ≤ place
  · obtain ⟨more, rfl⟩ := Int.le.dest hzeros
    have hsame : value ⟨coefficient, exponent⟩ = value ⟨digits * 10 ^ more * 10 ^ excess, exponent⟩ := by
      rw [value_zeros, value_zeros, hvalue]
      rfl
    refine ⟨digits * 10 ^ more, ?_⟩
    rw [Nat.mul_comm]
    exact_mod_cast mul_right_cancel₀ hten.ne' hsame
  · -- the coefficient would have fewer digits than it has
    have hbelow : (10 : ℚ) ^ (place + 1) ≤ 10 ^ (exponent + excess) :=
      zpow_le_zpow_right₀ (by norm_num) (by omega)
    have hfew : (10 * coefficient) * (10 : ℚ) ^ exponent ≤ (digits * 10 ^ excess) * 10 ^ exponent := by
      calc (10 * coefficient) * (10 : ℚ) ^ exponent
          = 10 * value ⟨coefficient, exponent⟩ := mul_assoc ..
        _ = digits * 10 ^ (place + 1) := by rw [hvalue, zpow_add_one₀ (by norm_num)]; ring
        _ ≤ digits * 10 ^ (exponent + excess) := mul_le_mul_of_nonneg_left hbelow digits.cast_nonneg
        _ = (digits * 10 ^ excess) * 10 ^ exponent := by rw [zpow_add₀ (by norm_num), zpow_natCast]; ring
    have hcount : 10 * coefficient ≤ digits * 10 ^ excess := by
      exact_mod_cast le_of_mul_le_mul_right hfew hten
    have hless : digits * 10 ^ excess < 10 ^ precision * 10 ^ excess :=
      Nat.mul_lt_mul_of_pos_right hdigits (Nat.pow_pos (by decide))
    rw [← Nat.pow_add] at hless
    omega

theorem value_rounded {x : Decimal28} (h : IsShort x.value) : x.rounded.value = x.value := by
  obtain ⟨coefficient, exponent⟩ := x
  unfold rounded
  generalize hexcess : (Nat.toDigits 10 coefficient).length - precision = excess
  cases excess with
  | zero => rfl
  | succ excess =>
      have hpos : 0 < precision + excess := by simp [precision]
      have hdigits : ¬ (Nat.toDigits 10 coefficient).length ≤ precision + excess := by omega
      rw [Nat.length_toDigits_le_iff (by decide) hpos] at hdigits
      have hlong : 10 ^ (precision + (excess + 1)) ≤ 10 * coefficient := by
        rw [← Nat.add_assoc, Nat.pow_succ]
        omega
      obtain ⟨q, rfl⟩ := dvd_of_isShort h hlong
      rw [if_neg (Nat.succ_ne_zero excess), Nat.pow_eq, Nat.mul_comm,
        roundHalfEven_mul q (Nat.pow_pos (by decide)), value_zeros]

theorem value_mul {x y : Decimal28} (h : IsShort (x.value * y.value)) :
    (x.mul y).value = x.value * y.value := by
  have hexact : value ⟨x.coefficient * y.coefficient, x.exponent + y.exponent⟩ = x.value * y.value := by
    simp only [value, zpow_add₀ (show (10 : ℚ) ≠ 0 by norm_num)]
    push_cast
    ring
  rw [← hexact] at h ⊢
  exact value_rounded h

theorem value_add {x y : Decimal28} (h : IsShort (x.value + y.value)) :
    (x.add y).value = x.value + y.value := by
  have hlevel (z : Decimal28) (exponent : ℤ) (hlow : exponent ≤ z.exponent) :
      value ⟨z.coefficient * 10 ^ (z.exponent - exponent).toNat, exponent⟩ = z.value := by
    rw [value_zeros, Int.toNat_of_nonneg (by omega), add_sub_cancel]
  generalize hexponent : min x.exponent y.exponent = exponent
  have hexact : value ⟨x.coefficient * 10 ^ (x.exponent - exponent).toNat +
      y.coefficient * 10 ^ (y.exponent - exponent).toNat, exponent⟩ = x.value + y.value := by
    rw [← hlevel x exponent (by omega), ← hlevel y exponent (by omega)]
    simp only [value, Nat.cast_add, add_mul]
  rw [← hexact] at h ⊢
  rw [add, hexponent]
  exact value_rounded h

theorem whole_eq (x : Decimal28) : x.whole = ⌊x.value⌋₊ := by
  obtain ⟨coefficient, exponent⟩ := x
  unfold whole
  by_cases hneg : exponent < 0
  · obtain ⟨places, rfl⟩ : ∃ places : ℕ, exponent = -places := ⟨exponent.natAbs, by omega⟩
    have hvalue : value ⟨coefficient, -places⟩ = (coefficient : ℚ) / (10 ^ places : ℕ) := by
      simp [value, div_eq_mul_inv]
    rw [if_pos hneg, hvalue, Nat.floor_div_eq_div]
    simp
  · obtain ⟨places, rfl⟩ : ∃ places : ℕ, exponent = places := ⟨exponent.toNat, by omega⟩
    have hvalue : value ⟨coefficient, places⟩ = (coefficient * 10 ^ places : ℕ) := by simp [value]
    rw [if_neg hneg, hvalue, Nat.floor_natCast]
    simp

end Decimal28

end RuleCheck.Number
