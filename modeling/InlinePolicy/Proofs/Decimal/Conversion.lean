import InlinePolicy.Decimal.Basic
import InlinePolicy.Proofs.Binary64.Quotients

/-!
# Decimals in units

A decimal without places is converted by one product (`units_toFloat_of_nonneg`), and one with
places by one quotient.  Where the quotient has no rest, the result is the exact number, rounded
(`units_toFloat_of_exact`).  That covers the two decimals that a number is written with if no
shorter one will do: a whole number with a zero behind the point (`toFloat_tenfold`), and all
digits of a binary fraction.
-/

namespace InlinePolicy.Decimal

open Float.Model Binary64

/-! ## Quotients without a rest -/

/-- The exponent that a quotient is computed with. -/
def quotientExponent (m d : ℕ) : ℤ := min 0 (max ((m.log2 : ℤ) - d.log2 - 53) (-1074))

theorem least_quotientExponent (m d : ℕ) :
    -1074 ≤ quotientExponent m d ∧ quotientExponent m d ≤ 0 := by
  unfold quotientExponent
  omega

theorem log2_mul_le (m n : ℕ) : (m * n).log2 ≤ m.log2 + n.log2 + 1 := by
  rcases Nat.eq_zero_or_pos (m * n) with zero | pos
  · simp [zero]
  · refine Nat.le_of_lt_succ ((Nat.log2_lt pos.ne').2 ?_)
    calc m * n < 2 ^ (m.log2 + 1) * 2 ^ (n.log2 + 1) :=
          Nat.mul_lt_mul_of_lt_of_le Nat.lt_log2_self Nat.lt_log2_self.le (by positivity)
      _ = 2 ^ (m.log2 + n.log2 + 1 + 1) := by ring

theorem quotientExponent_eq (m d : ℕ) :
    quotientExponent m d = Binary64.quotientExponent m 0 d 0 := by
  unfold quotientExponent Binary64.quotientExponent
  congr 2
  ring

/-- A quotient without a rest is a whole number of quarters. -/
theorem unpackedUnits_div {m d q : ℕ} {posM : 0 < m} {posD : 0 < d}
    (exactly : m * 2 ^ (-quotientExponent m d).toNat = q * d) :
    unpackedUnits (UnpackedFloat.unpack .binary64 (UnpackedFloat.pack .binary64
      (.div .binary64 (.finite .positive m 0 posM) (.finite .positive d 0 posD)))) =
      Binary64.round 0 (q * 2 ^ (quotientExponent m d + 1074).toNat : ℕ) := by
  have bounds := least_quotientExponent m d
  have bits := unitBits_eq
  have multiple : dividend m 0 d 0 = q * d := by
    rw [dividend, ← quotientExponent_eq, sub_zero, zero_sub, exactly]
  have power : quotientBits m 0 d 0 = (quotientExponent m d + 1074).toNat + unitBits := by
    rw [quotientBits, ← quotientExponent_eq]
    omega
  rw [Binary64.unpackedUnits_div (by omega) (by omega), multiple, quarters_mul posD,
    ← mul_two_pow_sub_two q (by omega), power, pow_add, ← mul_assoc, rounded_mul_unit,
    Binary64.round_natCast]

/-! ## Decimals -/

theorem units_toFloat_eq (d : Decimal) :
    units d.toFloat = unpackedUnits (UnpackedFloat.unpack .binary64
      (UnpackedFloat.pack .binary64 (.ofScientific .binary64 d.digits d.exponent))) :=
  rfl

theorem ofScientific_of_nonneg {m k : ℕ} (pos : 0 < m) (short : k ≤ 2 ^ 11) :
    UnpackedFloat.ofScientific .binary64 m k =
      .mul .binary64 (.finite .positive (m <<< 53) (-53) (Nat.shiftLeft_pos_iff.2 pos))
        (.finite .positive (10 ^ k) 0 (Nat.pow_pos (by norm_num))) := by
  have bits : Format.binary64.exponentBits = 11 := rfl
  unfold UnpackedFloat.ofScientific
  rw [dif_neg pos.ne', bits, if_neg (by omega), if_neg (by omega), if_pos (Int.natCast_nonneg k)]
  rfl

theorem ofScientific_of_neg {m k : ℕ} (pos : 0 < m) (posK : 0 < k) (short : k ≤ 2 ^ 11) :
    UnpackedFloat.ofScientific .binary64 m (-k) =
      .div .binary64 (.finite .positive m 0 pos)
        (.finite .positive (10 ^ k) 0 (Nat.pow_pos (by norm_num))) := by
  have bits : Format.binary64.exponentBits = 11 := rfl
  unfold UnpackedFloat.ofScientific
  rw [dif_neg pos.ne', bits, if_neg (by omega), if_neg (by omega), if_neg (by omega)]
  simp only [neg_neg, Int.toNat_natCast]

theorem ofScientific_zero (e : ℤ) :
    UnpackedFloat.ofScientific .binary64 0 e = .zero .positive := by
  rw [UnpackedFloat.ofScientific, dif_pos rfl]

theorem units_toFloat_zero (e : ℤ) : units (toFloat ⟨0, e⟩) = 0 := by
  rw [units_toFloat_eq, ofScientific_zero]
  rfl

theorem toFloat_zero (e : ℤ) : toFloat ⟨0, e⟩ = toFloat ⟨0, 0⟩ := by
  have model (e : ℤ) : toFloat ⟨0, e⟩ = .ofModel (.pack (.zero .positive)) :=
    congrArg (fun u => Float.ofModel (Float.Model.pack u)) (ofScientific_zero e)
  rw [model, model]

/-- A decimal without places is its number, rounded. -/
theorem units_toFloat_of_nonneg {m k : ℕ} (pos : 0 < m) (short : k ≤ 2 ^ 11) :
    units (toFloat ⟨m, k⟩) = Binary64.round 0 (m * 10 ^ k * one : ℕ) := by
  have posM : 0 < m <<< 53 * 10 ^ k := Nat.mul_pos (Nat.shiftLeft_pos_iff.2 pos) (by positivity)
  have enough : 53 ≤ (m <<< 53 * 10 ^ k).log2 := by
    refine (Nat.le_log2 posM.ne').2 ?_
    rw [Nat.shiftLeft_eq]
    calc 2 ^ 53 ≤ m * 2 ^ 53 := Nat.le_mul_of_pos_left _ pos
      _ ≤ m * 2 ^ 53 * 10 ^ k := Nat.le_mul_of_pos_right _ (by positivity)
  obtain ⟨j, bits⟩ : ∃ j, unitBits = 53 + j := ⟨1021, unitBits_eq⟩
  have power : (-53 + 1074 + ((0 : ℕ) : ℤ)).toNat = j := by
    have := unitBits_eq
    omega
  have units : m <<< 53 * 10 ^ k * 2 ^ j = m * 10 ^ k * one := by
    rw [Nat.shiftLeft_eq, one, bits, pow_add]
    ring
  have rounding := unpackedUnits_roundWithAccuracy 0 posM (s := .positive) (e := -53)
    (by omega) (by omega)
  rw [power, units] at rounding
  rw [units_toFloat_eq, ofScientific_of_nonneg pos short, Binary64.round_natCast]
  exact rounding

/-- A decimal with places is its number, rounded, if the quotient has no rest. -/
theorem units_toFloat_of_exact {m k q : ℕ} (pos : 0 < m) (posK : 0 < k) (short : k ≤ 2 ^ 11)
    (exactly : m * 2 ^ (-quotientExponent m (10 ^ k)).toNat = q * 10 ^ k) :
    units (toFloat ⟨m, -k⟩) =
      Binary64.round 0 (q * 2 ^ (quotientExponent m (10 ^ k) + 1074).toNat : ℕ) := by
  rw [units_toFloat_eq, ofScientific_of_neg pos posK short]
  exact unpackedUnits_div exactly

theorem round_mul_one_ne_zero {n : ℕ} (pos : 0 < n) : Binary64.round 0 (n * one : ℕ) ≠ 0 := by
  have unit : Binary64.round 0 ((1 : ℕ) * one) = (1 : ℕ) * one := round_mul_one (by norm_num)
  have le : Binary64.round 0 ((1 : ℕ) * one) ≤ Binary64.round 0 (n * one : ℕ) := by
    refine round_mono 0 ?_
    exact_mod_cast Nat.mul_le_mul_right one pos
  have : (0 : ℤ) < one := by exact_mod_cast one_pos
  rw [unit, Nat.cast_one, one_mul] at le
  exact (this.trans_le le).ne'

/-- The places of a quotient exponent and those of a unit add up. -/
theorem mul_two_pow_quotientExponent (n m d : ℕ) :
    n * 2 ^ (-quotientExponent m d).toNat * 2 ^ (quotientExponent m d + 1074).toNat =
      n * one := by
  have bits := unitBits_eq
  have bounds := least_quotientExponent m d
  rw [mul_assoc, ← pow_add, one]
  congr 2
  omega

/-- Another zero behind the point changes nothing. -/
theorem toFloat_tenfold {m k : ℕ} (pos : 0 < m) (short : k ≤ 2 ^ 11) :
    toFloat ⟨m * 10 ^ k * 10, -1⟩ = toFloat ⟨m, k⟩ := by
  have posN : 0 < m * 10 ^ k := Nat.mul_pos pos (by positivity)
  have exactly : m * 10 ^ k * 10 * 2 ^ (-quotientExponent (m * 10 ^ k * 10) (10 ^ 1)).toNat =
      m * 10 ^ k * 2 ^ (-quotientExponent (m * 10 ^ k * 10) (10 ^ 1)).toNat * 10 ^ 1 := by
    ring
  have quotient := units_toFloat_of_exact (Nat.mul_pos posN (by norm_num)) Nat.one_pos
    (by norm_num) exactly
  rw [mul_two_pow_quotientExponent] at quotient
  have product := units_toFloat_of_nonneg pos short
  exact eq_of_units_eq (quotient.trans product.symm)
    (quotient.trans_ne (round_mul_one_ne_zero posN))

end InlinePolicy.Decimal
