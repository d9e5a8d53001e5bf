import InlinePolicy.Decimal.Written
import InlinePolicy.Proofs.Decimal.Conversion

/-!
# Shortest decimals read back

Whatever decimal the search for a short one ends with, it reads back as the number that is to be
written (`toFloat_shortestOf`): a decimal on a grid was tried, and the exact one has exactly the
units of the number (`toFloat_exact`).
-/

namespace InlinePolicy.Decimal

open Float.Model Binary64
open Float.Model.UnpackedFloat (Sign)

variable {x : Float} {m : ℕ} {e : ℤ} {pos : 0 < m}

theorem units_of_unpack (h : x.toModel.unpack = .finite .positive m e pos) :
    units x = (m * 2 ^ (e + 1074).toNat : ℕ) := by
  rw [units, h]
  rfl

theorem units_ne_zero_of_unpack (h : x.toModel.unpack = .finite .positive m e pos) :
    units x ≠ 0 := by
  have := magnitude_pos e pos
  rw [units_of_unpack h]
  omega

/-- A quotient by a power of ten keeps all bits of a binary fraction. -/
theorem quotientExponent_fives_le {k : ℕ} (pos : 0 < m) (upper : m < 2 ^ 53)
    (least : k ≤ 1074) : quotientExponent (m * 5 ^ k) (10 ^ k) ≤ -k := by
  have tens : m * 5 ^ k * 2 ^ k = m * 10 ^ k := by
    rw [mul_assoc, ← mul_pow]
    norm_num
  have short : m.log2 ≤ 52 := Nat.le_of_lt_succ ((Nat.log2_lt pos.ne').2 upper)
  have product := log2_mul_le m (10 ^ k)
  rw [← tens, log2_mul_two_pow (Nat.mul_pos pos (by positivity))] at product
  unfold quotientExponent
  omega

theorem toFloat_exact (h : x.toModel.unpack = .finite .positive m e pos) :
    (exact m e).toFloat = x := by
  have canonical := canonical_unpack_toModel x
  rw [h] at canonical
  obtain ⟨upper, least, largest, -⟩ := canonical
  have bits := unitBits_eq
  have same : units (exact m e).toFloat = units x := by
    rw [← round_units x, units_of_unpack h, exact]
    split_ifs with nonneg
    · have whole := units_toFloat_of_nonneg (m := m <<< e.toNat) (k := 0)
        (Nat.shiftLeft_pos_iff.2 pos) (by norm_num)
      rw [pow_zero, mul_one, Nat.shiftLeft_eq, mul_assoc, one, ← pow_add,
        show e.toNat + unitBits = (e + 1074).toNat by omega] at whole
      rw [Nat.shiftLeft_eq]
      exact whole
    · obtain ⟨k, rfl⟩ : ∃ k : ℕ, e = -k := ⟨(-e).toNat, by omega⟩
      have shift := quotientExponent_fives_le pos upper (k := k) (by omega)
      have bounds := least_quotientExponent (m * 5 ^ k) (10 ^ k)
      obtain ⟨j, shift_eq⟩ : ∃ j, (-quotientExponent (m * 5 ^ k) (10 ^ k)).toNat = j + k :=
        ⟨_, (Nat.sub_add_cancel (by omega)).symm⟩
      have exactly : m * 5 ^ k * 2 ^ (-quotientExponent (m * 5 ^ k) (10 ^ k)).toNat =
          m * 2 ^ j * 10 ^ k := by
        rw [shift_eq, pow_add, show 10 = 5 * 2 from rfl, mul_pow]
        ring
      have quotient := units_toFloat_of_exact (Nat.mul_pos pos (by positivity)) (by omega)
        (by omega) exactly
      rw [mul_assoc, ← pow_add, show j + (quotientExponent (m * 5 ^ k) (10 ^ k) + 1074).toNat =
        (-(k : ℤ) + 1074).toNat by omega] at quotient
      rw [show (- -(k : ℤ)).toNat = k by omega]
      exact quotient
  exact eq_of_units_eq same (same ▸ units_ne_zero_of_unpack h)

/-! ## The search -/

theorem toFloat_onGrid? {tie : Tie} {grid : ℤ} {d : Decimal} (ne : units x ≠ 0)
    (h : onGrid? tie x m e grid = some d) : d.toFloat = x := by
  unfold onGrid? at h
  have found := List.find?_some h
  have same := units_eq_of_beq found
  exact eq_of_units_eq same (same ▸ ne)

theorem toFloat_search (tie : Tie) (bottom : ℤ) (steps : ℕ)
    (h : x.toModel.unpack = .finite .positive m e pos) :
    (search tie x m e bottom steps).toFloat = x := by
  induction steps with
  | zero => exact toFloat_exact h
  | succ steps ih =>
    rw [search]
    split
    · next d found => exact toFloat_onGrid? (units_ne_zero_of_unpack h) found
    · exact ih

theorem toFloat_shortestOf (tie : Tie) (h : x.toModel.unpack = .finite .positive m e pos) :
    (shortestOf tie x m e).toFloat = x :=
  toFloat_search tie _ _ h

/-! ## Signs -/

theorem unpack_magnitude {s : Sign} (h : x.toModel.unpack = .finite s m e pos) :
    (if isNegative x then -x else x).toModel.unpack = .finite .positive m e pos := by
  rw [isNegative_of_finite h]
  cases s with
  | positive => exact h
  | negative =>
    refine (unpack_neg x).trans ?_
    rw [h]
    rfl

/-- The shortest decimal of the magnitude of a number, behind its sign, is the number. -/
theorem toSignedFloat_shortest (tie : Tie) (finite : x.isFinite = true) :
    (shortest tie x).toSignedFloat (isNegative x) = x := by
  change x.toModel.unpack.isFinite = true at finite
  unfold shortest
  cases h : x.toModel.unpack with
  | notANumber | infinity s => rw [h] at finite; cases finite
  | zero s =>
    refine eq_of_unpack_eq ?_
    rw [isNegative, h]
    cases s with
    | positive =>
      show (toFloat ⟨0, 0⟩).toModel.unpack = .zero .positive
      rfl
    | negative =>
      show (-toFloat ⟨0, 0⟩).toModel.unpack = .zero .negative
      rfl
  | finite s m e pos =>
    have magnitude := toFloat_shortestOf tie (unpack_magnitude h)
    dsimp only
    rw [toSignedFloat, magnitude]
    split_ifs
    · exact float_neg_neg x
    · rfl

theorem digits_shortestOf_pos (tie : Tie) (h : x.toModel.unpack = .finite .positive m e pos) :
    0 < (shortestOf tie x m e).digits := by
  refine Nat.pos_of_ne_zero fun zero => units_ne_zero_of_unpack h ?_
  rw [← toFloat_shortestOf tie h]
  generalize shortestOf tie x m e = d at zero
  obtain ⟨digits, exponent⟩ := d
  obtain rfl : digits = 0 := zero
  exact units_toFloat_zero exponent

/-- The shortest decimal is zero only if all of it is. -/
theorem digits_shortest_pos (tie : Tie) (x : Float) :
    0 < (shortest tie x).digits ∨ shortest tie x = ⟨0, 0⟩ := by
  unfold shortest
  cases h : x.toModel.unpack with
  | notANumber | infinity s | zero s => exact .inr rfl
  | finite s m e pos => exact .inl (digits_shortestOf_pos tie (unpack_magnitude h))

end InlinePolicy.Decimal
