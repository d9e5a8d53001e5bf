import InlinePolicy.Proofs.Binary64.Operations

/-!
# Equal floats

A float is what it unpacks to (`eq_of_unpack_eq`), and a number other than zero is determined by its
units (`eq_of_units_eq`), so that two computations with the same rounded result give the same
float.
-/

namespace InlinePolicy.Binary64

open Float.Model
open Float.Model.UnpackedFloat (Sign)

theorem eq_of_unpack_eq {x y : Float} (h : x.toModel.unpack = y.toModel.unpack) : x = y := by
  obtain ⟨⟨bits, valid⟩⟩ := x
  obtain ⟨⟨bits', valid'⟩⟩ := y
  have same : bits.toBitVec = bits'.toBitVec := by
    have packed := congrArg (UnpackedFloat.pack .binary64) h
    exact (UnpackedFloat.pack_unpack_of_valid valid).symm.trans
      (packed.trans (UnpackedFloat.pack_unpack_of_valid valid'))
  obtain rfl := UInt64.toBitVec_inj.1 same
  rfl

theorem eq_of_then_compare_eq {d e : ℤ} {m n : ℕ}
    (h : (compare d e).then (compare m n) = .eq) : d = e ∧ m = n := by
  obtain ⟨exponents, mantissas⟩ := Ordering.then_eq_eq.1 h
  exact ⟨compare_eq_iff_eq.1 exponents, compare_eq_iff_eq.1 mantissas⟩

/-- Numbers that compare as equal have the same parts, zeros apart. -/
theorem unpacked_eq_of_compare_eq {x y : UnpackedFloat} (h : x.compare y = some .eq)
    (ne : unpackedUnits x ≠ 0) : x = y := by
  cases x with
  | notANumber | zero s => exact absurd rfl ne
  | infinity s =>
    cases y with
    | notANumber => cases h
    | zero t | finite t n e pos => cases s <;> cases h
    | infinity t =>
      cases s <;> cases t
      · rfl
      · cases h
      · cases h
      · rfl
  | finite s m d pos =>
    cases y with
    | notANumber => cases h
    | infinity t => cases t <;> cases h
    | zero t => cases s <;> cases h
    | finite t n e pos' =>
      cases s <;> cases t
      · obtain ⟨rfl, rfl⟩ := eq_of_then_compare_eq (Ordering.swap_eq_eq.1 (Option.some.inj h))
        rfl
      · cases h
      · cases h
      · obtain ⟨rfl, rfl⟩ := eq_of_then_compare_eq (Option.some.inj h)
        rfl

theorem units_eq_of_beq {x y : Float} (h : (x == y) = true) : units x = units y := by
  have same : x.toModel.unpack.compare y.toModel.unpack = some .eq := beq_iff_eq.1 h
  rw [compare_toModel] at same
  split_ifs at same with nan
  exact compare_eq_iff_eq.1 (Option.some.inj same)

theorem isNaN_eq_false_of_units_ne {x : Float} (h : units x ≠ 0) : x.isNaN = false :=
  Bool.eq_false_of_not_eq_true fun nan => h (units_of_isNaN nan)

theorem eq_of_units_eq {x y : Float} (h : units x = units y) (ne : units x ≠ 0) : x = y := by
  have numbers : ¬ (x.isNaN = true ∨ y.isNaN = true) :=
    not_isNaN_or_isNaN.2 ⟨isNaN_eq_false_of_units_ne ne, isNaN_eq_false_of_units_ne (h ▸ ne)⟩
  refine eq_of_unpack_eq (unpacked_eq_of_compare_eq ?_ ne)
  rw [compare_toModel, if_neg numbers, h, compare_eq_iff_eq.2 rfl]

/-- Two changes of sign undo each other. -/
theorem float_neg_neg (x : Float) : - -x = x := by
  refine eq_of_unpack_eq ?_
  rw [unpack_neg, unpack_neg]
  cases x.toModel.unpack with
  | notANumber => rfl
  | zero s | infinity s | finite s m e pos => cases s <;> rfl

theorem units_one_mul {x : Float} (number : x.isNaN = false) : units (1.0 * x) = units x := by
  have ne : units 1.0 ≠ 0 := by
    rw [units_one]
    exact_mod_cast one_pos.ne'
  have product : (1.0 * x).isNaN = false :=
    isNaN_mul_eq_false_iff.2 ⟨rfl, number, .inl rfl, .inr ne⟩
  rw [units_mul product, units_one, Int.mul_comm]
  exact (round_mul_unit unitBits (units x)).trans (round_units x)

/-- The factor 1 changes nothing, and no zero loses its sign. -/
theorem float_one_mul (x : Float) : 1.0 * x = x := by
  have parts : units x = unpackedUnits x.toModel.unpack := rfl
  have product : (1.0 * x).toModel.unpack = UnpackedFloat.unpack .binary64
      (UnpackedFloat.pack .binary64
        (UnpackedFloat.mul .binary64 (1.0 : Float).toModel.unpack x.toModel.unpack)) := rfl
  have of_ne (ne : units x ≠ 0) : 1.0 * x = x :=
    (eq_of_units_eq (units_one_mul (isNaN_eq_false_of_units_ne ne)).symm ne).symm
  cases hx : x.toModel.unpack with
  | notANumber =>
    refine eq_of_unpack_eq ?_
    rw [product, hx]
    rfl
  | zero s =>
    refine eq_of_unpack_eq ?_
    rw [product, hx]
    cases s <;> rfl
  | infinity s =>
    refine of_ne ?_
    rw [parts, hx]
    exact unpackedUnits_infinity_ne_zero s
  | finite s m e pos =>
    refine of_ne ?_
    rw [parts, hx]
    exact unpackedUnits_finite_ne_zero s m e pos

end InlinePolicy.Binary64
