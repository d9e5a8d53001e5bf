import Mathlib
import InlinePolicy.Binary64
import InlinePolicy.Proofs.Binary64.Rounding

/-!
# Floats in units

`units x` is the number `x` in units of `2 ^ (-1074)`, the smallest positive number.  Zeros of
either sign have no units, infinities have `infinity` units, and NaN, which is no number, has none
either.  The main statements say that the order of numbers is the order of their units (`lt_iff`,
`le_iff`) and that a packed result has the units of the number it stands for (`units_pack`).
-/

namespace InlinePolicy.Binary64

open Float.Model
open Float.Model.UnpackedFloat (Sign packComponents unpackSign)

/-! ## Packing -/

theorem toNat_one_append (mantissa : BitVec 52) :
    (1#1 ++ mantissa).toNat = 2 ^ 52 + mantissa.toNat := by
  rw [BitVec.toNat_append, ← Nat.shiftLeft_add_eq_or_of_lt mantissa.isLt]
  rfl

theorem toNat_pos_of_ne_zero {mantissa : BitVec 52} (h : mantissa ≠ 0#52) : 0 < mantissa.toNat :=
  Nat.pos_of_ne_zero fun zero => h (BitVec.eq_of_toNat_eq zero)

/-- What the three fields of a `Float` stand for. -/
theorem unpack_packComponents (s : Sign) (exponent : BitVec 11) (mantissa : BitVec 52) :
    UnpackedFloat.unpack .binary64 (packComponents .binary64 s exponent mantissa) =
      if exponent = -1#11 then if mantissa = 0#52 then .infinity s else .notANumber
      else if exponent = 0#11 then
        if h : mantissa = 0#52 then .zero s
        else .finite s mantissa.toNat (-1074) (toNat_pos_of_ne_zero h)
      else .finite s (2 ^ 52 + mantissa.toNat) ((exponent.toNat : ℤ) - 1075) (by omega) := by
  unfold UnpackedFloat.unpack
  simp only [UnpackedFloat.unpackMantissa_packComponents,
    UnpackedFloat.unpackExponent_packComponents, UnpackedFloat.unpackSign_packComponents,
    Sign.ofBitVec_toBitVec]
  split_ifs with h1 h2 h3 h4
  · rfl
  · rfl
  · rfl
  · subst h3
    rfl
  · congr 1
    exact toNat_one_append mantissa

/-- The mantissa of a `Float` has at most 53 bits, and no fewer unless its exponent is the least. -/
def Canonical : UnpackedFloat → Prop
  | .finite _ m e _ => m < 2 ^ 53 ∧ -1074 ≤ e ∧ e ≤ 971 ∧ (2 ^ 52 ≤ m ∨ e = -1074)
  | _ => True

theorem canonical_unpack (b : BitVec Format.binary64.numBits) :
    Canonical (UnpackedFloat.unpack .binary64 b) := by
  unfold UnpackedFloat.unpack
  have mantissa : (UnpackedFloat.unpackMantissa b).toNat < 2 ^ 52 := BitVec.isLt _
  have exponent : (UnpackedFloat.unpackExponent b).toNat < 2 ^ 11 := BitVec.isLt _
  have append : (1#1 ++ UnpackedFloat.unpackMantissa b).toNat =
      2 ^ 52 + (UnpackedFloat.unpackMantissa b).toNat := toNat_one_append _
  have bias : (Format.binary64.exponentBias : ℤ) = 1023 := rfl
  dsimp only
  split_ifs with largest zeroMantissa least zeroMantissa
  · trivial
  · trivial
  · trivial
  · have zero : (UnpackedFloat.unpackExponent b).toNat = 0 := by rw [least]; rfl
    simp only [Canonical, zero, bias]
    omega
  · have ne_largest : (UnpackedFloat.unpackExponent b).toNat ≠ 2 ^ 11 - 1 :=
      fun eq => largest (BitVec.eq_of_toNat_eq eq)
    have ne_least : (UnpackedFloat.unpackExponent b).toNat ≠ 0 :=
      fun eq => least (BitVec.eq_of_toNat_eq eq)
    simp only [Canonical, append, bias]
    omega

theorem log2_eq_of_bits {m : ℕ} (lower : 2 ^ 52 ≤ m) (upper : m < 2 ^ 53) : m.log2 = 52 :=
  (Nat.log2_eq_iff (by omega)).2 ⟨lower, upper⟩

theorem unpack_pack_of_canonical {x : UnpackedFloat} (h : Canonical x) :
    UnpackedFloat.unpack .binary64 (UnpackedFloat.pack .binary64 x) = x := by
  cases x with
  | notANumber => rfl
  | infinity s => cases s <;> rfl
  | zero s => cases s <;> rfl
  | finite s m e pos =>
    obtain ⟨upper, least, largest, normal⟩ := h
    have bias : (Format.binary64.exponentBias : ℤ) = 1023 := rfl
    have bits : Format.binary64.mantissaBits = 53 := rfl
    simp only [UnpackedFloat.pack, bias, bits]
    rw [if_neg (by omega)]
    by_cases lower : 2 ^ 52 ≤ m
    · rw [if_pos (by rw [log2_eq_of_bits lower upper]), unpack_packComponents]
      have exponent : (BitVec.ofNat 11 (e + 1023 + (52 : ℕ)).toNat).toNat = (e + 1075).toNat := by
        rw [BitVec.toNat_ofNat, Nat.mod_eq_of_lt (by omega)]
        omega
      have mantissa : (BitVec.ofNat 52 m).toNat = m - 2 ^ 52 := by
        rw [BitVec.toNat_ofNat]
        omega
      have ne_largest : BitVec.ofNat 11 (e + 1023 + (52 : ℕ)).toNat ≠ -1#11 := by
        intro eq
        rw [eq] at exponent
        have : (-1#11).toNat = 2047 := rfl
        omega
      have ne_least : BitVec.ofNat 11 (e + 1023 + (52 : ℕ)).toNat ≠ 0#11 := by
        intro eq
        rw [eq] at exponent
        have : (0#11).toNat = 0 := rfl
        omega
      rw [if_neg ne_largest, if_neg ne_least]
      simp only [exponent, mantissa, UnpackedFloat.finite.injEq, true_and]
      omega
    · have short : m.log2 < 52 := (Nat.log2_lt pos.ne').2 (by omega)
      have mantissa : (BitVec.ofNat 52 m).toNat = m := by
        rw [BitVec.toNat_ofNat, Nat.mod_eq_of_lt (by omega)]
      have ne_zero : BitVec.ofNat 52 m ≠ 0#52 := by
        intro eq
        rw [eq] at mantissa
        exact pos.ne mantissa
      rw [if_neg (by omega), unpack_packComponents, if_neg (by decide), if_pos rfl, dif_neg ne_zero]
      simp only [mantissa, UnpackedFloat.finite.injEq, true_and]
      omega

/-- An exponent that is too large makes an infinity. -/
theorem unpack_pack_of_large {s : Sign} {m : ℕ} {e : ℤ} {pos : 0 < m} (h : 972 ≤ e) :
    UnpackedFloat.unpack .binary64 (UnpackedFloat.pack .binary64 (.finite s m e pos)) =
      .infinity s := by
  have bias : (Format.binary64.exponentBias : ℤ) = 1023 := rfl
  simp only [UnpackedFloat.pack, bias]
  rw [if_pos (by omega)]
  cases s <;> rfl

/-! ## Units -/

/-- The units of a number that is given by its parts. -/
def unpackedUnits : UnpackedFloat → ℤ
  | .notANumber => 0
  | .zero _ => 0
  | .infinity s => s.apply infinity
  | .finite s m e _ => s.apply (m * 2 ^ (e + 1074).toNat : ℕ)

/-- A number in units of `2 ^ (-1074)`. -/
def units (x : Float) : ℤ := unpackedUnits x.toModel.unpack

theorem canonical_unpack_toModel (x : Float) : Canonical x.toModel.unpack := canonical_unpack _

theorem magnitude_lt_overflow {m : ℕ} {e : ℤ} (upper : m < 2 ^ 53) (largest : e ≤ 971) :
    m * 2 ^ (e + 1074).toNat < overflow := by
  calc m * 2 ^ (e + 1074).toNat < 2 ^ 53 * 2 ^ (e + 1074).toNat :=
        Nat.mul_lt_mul_of_pos_right upper (Nat.two_pow_pos _)
    _ = 2 ^ (53 + (e + 1074).toNat) := by rw [pow_add]
    _ ≤ overflow := by
        have := unitBits_eq
        exact Nat.pow_le_pow_right (by norm_num) (by omega)

/-- Of two magnitudes the one with the larger exponent is larger. -/
theorem magnitude_lt_of_exponent_lt {m n : ℕ} {d e : ℤ} (upper : m < 2 ^ 53) (least : -1074 ≤ d)
    (normal : 2 ^ 52 ≤ n ∨ e = -1074) (h : d < e) :
    m * 2 ^ (d + 1074).toNat < n * 2 ^ (e + 1074).toNat := by
  have lower : 2 ^ 52 ≤ n := by omega
  calc m * 2 ^ (d + 1074).toNat < 2 ^ 53 * 2 ^ (d + 1074).toNat :=
        Nat.mul_lt_mul_of_pos_right upper (Nat.two_pow_pos _)
    _ = 2 ^ 52 * 2 ^ ((d + 1074).toNat + 1) := by ring
    _ ≤ n * 2 ^ (e + 1074).toNat :=
        Nat.mul_le_mul lower (Nat.pow_le_pow_right (by omega) (by omega))

theorem compare_magnitude {s t : Sign} {m n : ℕ} {d e : ℤ} {hm : 0 < m} {hn : 0 < n}
    (hx : Canonical (.finite s m d hm)) (hy : Canonical (.finite t n e hn)) :
    compare ((m * 2 ^ (d + 1074).toNat : ℕ) : ℤ) (n * 2 ^ (e + 1074).toNat : ℕ) =
      (compare d e).then (compare m n) := by
  obtain ⟨upperX, leastX, -, normalX⟩ := hx
  obtain ⟨upperY, leastY, -, normalY⟩ := hy
  rcases lt_trichotomy d e with lt | rfl | gt
  · have := magnitude_lt_of_exponent_lt upperX leastX normalY lt
    rw [compare_lt_iff_lt.2 lt, compare_lt_iff_lt.2 (by exact_mod_cast this)]
    rfl
  · have pos : 0 < 2 ^ (d + 1074).toNat := Nat.two_pow_pos _
    rw [compare_eq_iff_eq.2 rfl]
    rcases lt_trichotomy m n with lt | rfl | gt
    · rw [compare_lt_iff_lt.2 lt,
        compare_lt_iff_lt.2 (by exact_mod_cast Nat.mul_lt_mul_of_pos_right lt pos)]
      rfl
    · rw [compare_eq_iff_eq.2 rfl, compare_eq_iff_eq.2 rfl]
      rfl
    · rw [compare_gt_iff_gt.2 gt,
        compare_gt_iff_gt.2 (by exact_mod_cast Nat.mul_lt_mul_of_pos_right gt pos)]
      rfl
  · have := magnitude_lt_of_exponent_lt upperY leastY normalX gt
    rw [compare_gt_iff_gt.2 gt, compare_gt_iff_gt.2 (by exact_mod_cast this)]
    rfl

theorem magnitude_pos {m : ℕ} (e : ℤ) (pos : 0 < m) : 0 < m * 2 ^ (e + 1074).toNat :=
  Nat.mul_pos pos (Nat.two_pow_pos _)

theorem unpackedUnits_finite_lt {s : Sign} {m : ℕ} {e : ℤ} {pos : 0 < m}
    (h : Canonical (.finite s m e pos)) :
    -(overflow : ℤ) < unpackedUnits (.finite s m e pos) ∧
      unpackedUnits (.finite s m e pos) < overflow := by
  have := magnitude_lt_overflow h.1 h.2.2.1
  cases s <;> simp only [unpackedUnits, Sign.apply] <;> omega

theorem unpackedUnits_infinity (s : Sign) : unpackedUnits (.infinity s) = s.apply infinity := rfl

theorem some_lt_eq_compare {a b : ℤ} (h : a < b) : some .lt = some (compare a b) := by
  rw [compare_lt_iff_lt.2 h]

theorem some_gt_eq_compare {a b : ℤ} (h : b < a) : some .gt = some (compare a b) := by
  rw [compare_gt_iff_gt.2 h]

theorem some_eq_eq_compare (a : ℤ) : some .eq = some (compare a a) := by
  rw [compare_eq_iff_eq.2 rfl]

theorem compare_neg_neg (a b : ℤ) : compare (-a) (-b) = (compare a b).swap := by
  rw [Int.compare_swap]
  rcases lt_trichotomy a b with lt | rfl | gt
  · rw [compare_gt_iff_gt.2 lt, compare_gt_iff_gt.2 (neg_lt_neg lt)]
  · rw [compare_eq_iff_eq.2 rfl, compare_eq_iff_eq.2 rfl]
  · rw [compare_lt_iff_lt.2 gt, compare_lt_iff_lt.2 (neg_lt_neg gt)]

/-- An infinity is beyond all other numbers of its sign. -/
theorem compare_infinity (s : Sign) {y : UnpackedFloat} (hy : Canonical y)
    (number : y.isNaN = false) :
    (UnpackedFloat.infinity s).compare y =
      some (compare (s.apply infinity) (unpackedUnits y)) := by
  have pos : (0 : ℤ) < infinity := Int.natCast_pos.2 infinity_pos
  have large : (overflow : ℤ) ≤ infinity := Int.ofNat_le.2 overflow_le_infinity
  cases y with
  | notANumber => cases number
  | infinity t =>
    cases s <;> cases t
    · exact some_eq_eq_compare _
    · exact some_lt_eq_compare (by simp only [unpackedUnits, Sign.apply]; omega)
    · exact some_gt_eq_compare (by simp only [unpackedUnits, Sign.apply]; omega)
    · exact some_eq_eq_compare _
  | zero t =>
    cases s
    · exact some_lt_eq_compare (by simp only [unpackedUnits, Sign.apply]; omega)
    · exact some_gt_eq_compare (by simp only [unpackedUnits, Sign.apply]; omega)
  | finite t n e posY =>
    have := unpackedUnits_finite_lt hy
    cases s
    · exact some_lt_eq_compare (by simp only [Sign.apply]; omega)
    · exact some_gt_eq_compare (by simp only [Sign.apply]; omega)

/-- Zeros of either sign are between the negative and the positive numbers. -/
theorem compare_zero (s : Sign) {y : UnpackedFloat} (number : y.isNaN = false) :
    (UnpackedFloat.zero s).compare y = some (compare 0 (unpackedUnits y)) := by
  have pos : (0 : ℤ) < infinity := Int.natCast_pos.2 infinity_pos
  cases y with
  | notANumber => cases number
  | infinity t =>
    cases t
    · exact some_gt_eq_compare (by simp only [unpackedUnits, Sign.apply]; omega)
    · exact some_lt_eq_compare (by simp only [unpackedUnits, Sign.apply]; omega)
  | zero t => exact some_eq_eq_compare _
  | finite t n e posY =>
    have := magnitude_pos e posY
    cases t
    · exact some_gt_eq_compare (by simp only [unpackedUnits, Sign.apply]; omega)
    · exact some_lt_eq_compare (by simp only [unpackedUnits, Sign.apply]; omega)

section

variable {s t : Sign} {m n : ℕ} {d e : ℤ} {posX : 0 < m} {posY : 0 < n}

theorem compare_finite_infinity (hx : Canonical (.finite s m d posX)) (t : Sign) :
    (UnpackedFloat.finite s m d posX).compare (.infinity t) =
      some (compare (unpackedUnits (.finite s m d posX)) (t.apply infinity)) := by
  have large : (overflow : ℤ) ≤ infinity := Int.ofNat_le.2 overflow_le_infinity
  have := unpackedUnits_finite_lt hx
  cases t
  · exact some_gt_eq_compare (by simp only [Sign.apply]; omega)
  · exact some_lt_eq_compare (by simp only [Sign.apply]; omega)

theorem compare_finite_zero (t : Sign) :
    (UnpackedFloat.finite s m d posX).compare (.zero t) =
      some (compare (unpackedUnits (.finite s m d posX)) 0) := by
  have := magnitude_pos d posX
  cases s
  · exact some_lt_eq_compare (by simp only [unpackedUnits, Sign.apply]; omega)
  · exact some_gt_eq_compare (by simp only [unpackedUnits, Sign.apply]; omega)

/-- Of two numbers of one sign, the magnitudes decide. -/
theorem compare_finite (hx : Canonical (.finite s m d posX))
    (hy : Canonical (.finite t n e posY)) :
    (UnpackedFloat.finite s m d posX).compare (.finite t n e posY) =
      some (compare (unpackedUnits (.finite s m d posX)) (unpackedUnits (.finite t n e posY))) := by
  have := magnitude_pos d posX
  have := magnitude_pos e posY
  have magnitudes := compare_magnitude hx hy
  cases s <;> cases t
  · refine congrArg some ?_
    rw [← magnitudes, ← compare_neg_neg]
    rfl
  · exact some_lt_eq_compare (by simp only [unpackedUnits, Sign.apply]; omega)
  · exact some_gt_eq_compare (by simp only [unpackedUnits, Sign.apply]; omega)
  · exact congrArg some magnitudes.symm

end

/-- The order of numbers that are given by their parts. -/
theorem compare_eq_compare_unpackedUnits {x y : UnpackedFloat} (hx : Canonical x)
    (hy : Canonical y) (numberX : x.isNaN = false) (numberY : y.isNaN = false) :
    x.compare y = some (compare (unpackedUnits x) (unpackedUnits y)) := by
  cases x with
  | notANumber => cases numberX
  | infinity s => exact compare_infinity s hy numberY
  | zero s => exact compare_zero s numberY
  | finite s m d posX =>
    cases y with
    | notANumber => cases numberY
    | infinity t => exact compare_finite_infinity hx t
    | zero t => exact compare_finite_zero t
    | finite t n e posY => exact compare_finite hx hy

/-! ## The order of floats -/

theorem compare_eq_none_of_isNaN {x y : UnpackedFloat} (h : x.isNaN = true ∨ y.isNaN = true) :
    x.compare y = none := by
  rcases h with h | h
  · cases x with
    | notANumber => rfl
    | _ => cases h
  · cases y with
    | notANumber => cases x <;> rfl
    | _ => cases h

theorem compare_toModel (x y : Float) :
    x.toModel.unpack.compare y.toModel.unpack =
      if x.isNaN = true ∨ y.isNaN = true then none else some (compare (units x) (units y)) := by
  split_ifs with nan
  · exact compare_eq_none_of_isNaN nan
  · simp only [not_or, Bool.not_eq_true] at nan
    exact compare_eq_compare_unpackedUnits (canonical_unpack_toModel x)
      (canonical_unpack_toModel y) nan.1 nan.2

theorem not_isNaN_or_isNaN {x y : Float} :
    ¬ (x.isNaN = true ∨ y.isNaN = true) ↔ x.isNaN = false ∧ y.isNaN = false := by
  rw [not_or, Bool.not_eq_true, Bool.not_eq_true]

theorem lt_iff {x y : Float} :
    x < y ↔ x.isNaN = false ∧ y.isNaN = false ∧ units x < units y := by
  have : x < y ↔ (x.toModel.unpack.compare y.toModel.unpack == some .lt) = true :=
    decide_eq_true_iff
  rw [this, compare_toModel, ← and_assoc, ← not_isNaN_or_isNaN]
  split_ifs with nan
  · exact iff_of_false Bool.false_ne_true fun h => h.1 nan
  · rw [beq_iff_eq, Option.some.injEq, compare_lt_iff_lt, and_iff_right nan]

theorem le_iff {x y : Float} :
    x ≤ y ↔ x.isNaN = false ∧ y.isNaN = false ∧ units x ≤ units y := by
  have : x ≤ y ↔ (x.toModel.unpack.compare y.toModel.unpack).any (·.isLE) = true :=
    decide_eq_true_iff
  rw [this, compare_toModel, ← and_assoc, ← not_isNaN_or_isNaN]
  split_ifs with nan
  · exact iff_of_false Bool.false_ne_true fun h => h.1 nan
  · rw [Option.any_some, Int.isLE_compare, and_iff_right nan]

theorem isNaN_eq_false_of_isFinite {x : Float} (h : x.isFinite = true) : x.isNaN = false := by
  have h : x.toModel.unpack.isFinite = true := h
  have goal : x.toModel.unpack.isNaN = false := by
    cases hx : x.toModel.unpack with
    | notANumber => simp [hx, UnpackedFloat.isFinite] at h
    | _ => rfl
  exact goal

theorem isFinite_iff {x : Float} :
    x.isFinite = true ↔
      x.isNaN = false ∧ -(overflow : ℤ) < units x ∧ units x < overflow := by
  have large : (0 : ℤ) < overflow ∧ (overflow : ℤ) ≤ infinity :=
    ⟨by exact_mod_cast overflow_pos, by exact_mod_cast overflow_le_infinity⟩
  have canonical := canonical_unpack_toModel x
  change x.toModel.unpack.isFinite = true ↔ x.toModel.unpack.isNaN = false ∧
    -(overflow : ℤ) < unpackedUnits x.toModel.unpack ∧ unpackedUnits x.toModel.unpack < overflow
  cases hx : x.toModel.unpack with
  | notANumber => simp [UnpackedFloat.isFinite, UnpackedFloat.isNaN]
  | infinity s =>
    refine iff_of_false (by simp [UnpackedFloat.isFinite]) ?_
    rintro ⟨-, bounds⟩
    cases s <;> simp only [unpackedUnits_infinity, Sign.apply] at bounds <;> omega
  | zero s =>
    refine iff_of_true rfl ⟨rfl, ?_⟩
    simp only [unpackedUnits]
    omega
  | finite s m e pos =>
    rw [hx] at canonical
    simp [UnpackedFloat.isFinite, UnpackedFloat.isNaN, unpackedUnits_finite_lt canonical]

theorem units_eq_infinity {x : Float} (number : x.isNaN = false) (infinite : x.isFinite = false)
    (nonneg : 0 ≤ units x) : units x = infinity := by
  have large : (0 : ℤ) < infinity := Int.natCast_pos.2 infinity_pos
  change x.toModel.unpack.isNaN = false at number
  change x.toModel.unpack.isFinite = false at infinite
  unfold units at nonneg ⊢
  cases hx : x.toModel.unpack with
  | notANumber => simp [hx, UnpackedFloat.isNaN] at number
  | zero s => simp [hx, UnpackedFloat.isFinite] at infinite
  | finite s m e pos => simp [hx, UnpackedFloat.isFinite] at infinite
  | infinity s =>
    rw [hx, unpackedUnits_infinity] at nonneg
    cases s
    · simp only [Sign.apply] at nonneg
      omega
    · rfl

end InlinePolicy.Binary64
