import InlinePolicy.Proofs.Binary64.Operations

/-!
# Whole numbers

Up to `2 ^ 53` a `Float` counts like a natural number: words convert exactly
(`isWhole_toFloat`, `isWhole_ofSignedWord`), products are exact as long as they stay in that range
(`IsWhole.mul`), whole parts change nothing (`IsWhole.trunc`), and comparisons are those of the
natural numbers (`IsWhole.lt_iff`, `IsWhole.le_iff`).
-/

namespace InlinePolicy.Binary64

/-- A float is finite and equals a natural number. -/
structure IsWhole (x : Float) (n : ℕ) : Prop where
  finite : x.isFinite = true
  units_eq : units x = n * one

/-! ## Conversions -/

/-- `2 ^ 53` has more than 53 bits, but all of them are zero except the first. -/
theorem round_mul_one_of_le {n : ℕ} (h : n ≤ 2 ^ 53) : round 0 (n * one) = n * one := by
  rcases h.eq_or_lt with rfl | lt
  · have power : 2 ^ 53 * one = 1 * 2 ^ (53 + unitBits) := by rw [one, pow_add, one_mul]
    have bound : 2 ^ 53 * one < overflow := mul_one_lt_overflow (by norm_num)
    rw [← Nat.cast_mul, round_natCast, power,
      rounded_mul_two_pow (by norm_num) (Nat.zero_le _), Nat.sub_zero, ← power,
      saturate_of_lt bound]
  · exact round_mul_one lt

/-- Numbers of this size do not overflow. -/
theorem isWhole_of_units {x : Float} {n : ℕ} (number : x.isNaN = false) (small : n ≤ 2 ^ 53)
    (units_eq : units x = n * one) : IsWhole x n := by
  have bound : n * one < overflow := mul_one_lt_overflow (small.trans (by norm_num))
  have upper : units x < overflow := by
    rw [units_eq]
    exact_mod_cast bound
  have lower : -(overflow : ℤ) < units x := by
    have : (0 : ℤ) < overflow := by exact_mod_cast overflow_pos
    have : (0 : ℤ) ≤ n * one := by positivity
    omega
  exact ⟨isFinite_iff.2 ⟨number, lower, upper⟩, units_eq⟩

theorem isWhole_toFloat {n : UInt64} (small : n.toNat ≤ 2 ^ 53) : IsWhole n.toFloat n.toNat :=
  isWhole_of_units (isNaN_toFloat n) small (by rw [units_toFloat, round_mul_one_of_le small])

theorem isWhole_ofSignedWord {n : Int64} {m : ℕ} (value : n.toInt = m) (small : m ≤ 2 ^ 53) :
    IsWhole (ofSignedWord n) m :=
  isWhole_of_units (isNaN_ofSignedWord n) small
    (by rw [units_ofSignedWord, value, round_mul_one_of_le small])

theorem isWhole_one : IsWhole 1.0 1 := ⟨rfl, by rw [units_one, Nat.cast_one, one_mul]⟩

namespace IsWhole

variable {x y : Float} {m n : ℕ}

theorem isNaN_eq_false (hx : IsWhole x m) : x.isNaN = false := isNaN_eq_false_of_isFinite hx.finite

/-! ## Operations -/

/-- A product is exact if it is small; one of the factors may be large if the other is zero. -/
theorem mul (hx : IsWhole x m) (hy : IsWhole y n) (small : m * n ≤ 2 ^ 53) :
    IsWhole (x * y) (m * n) := by
  have number : (x * y).isNaN = false :=
    isNaN_mul_eq_false_iff.2
      ⟨hx.isNaN_eq_false, hy.isNaN_eq_false, .inl hx.finite, .inl hy.finite⟩
  refine isWhole_of_units number small ?_
  have product : (m * one : ℤ) * (n * one) = ((m * n : ℕ) * one) * (2 ^ unitBits : ℕ) := by
    rw [← one]
    push_cast
    ring
  rw [units_mul number, hx.units_eq, hy.units_eq, product, round_mul_unit,
    round_mul_one_of_le small]

theorem trunc (hx : IsWhole x m) : IsWhole (trunc x) m := by
  have number := (isNaN_trunc x).trans hx.isNaN_eq_false
  have ne : (one : ℤ) ≠ 0 := by exact_mod_cast one_pos.ne'
  have same : units (Binary64.trunc x) = units x := by
    rw [units_trunc, hx.units_eq, Int.mul_tdiv_cancel _ ne]
  have bounds := (isFinite_iff.1 hx.finite).2
  rw [← same] at bounds
  exact ⟨isFinite_iff.2 ⟨number, bounds⟩, same.trans hx.units_eq⟩

/-! ## Comparisons -/

theorem lt_iff (hx : IsWhole x m) (hy : IsWhole y n) : x < y ↔ m < n := by
  have pos : (0 : ℤ) < one := by exact_mod_cast one_pos
  rw [Binary64.lt_iff, and_iff_right hx.isNaN_eq_false, and_iff_right hy.isNaN_eq_false,
    hx.units_eq, hy.units_eq, mul_lt_mul_iff_left₀ pos, Nat.cast_lt]

theorem le_iff (hx : IsWhole x m) (hy : IsWhole y n) : x ≤ y ↔ m ≤ n := by
  have pos : (0 : ℤ) < one := by exact_mod_cast one_pos
  rw [Binary64.le_iff, and_iff_right hx.isNaN_eq_false, and_iff_right hy.isNaN_eq_false,
    hx.units_eq, hy.units_eq, mul_le_mul_iff_left₀ pos, Nat.cast_le]

end IsWhole

end InlinePolicy.Binary64
