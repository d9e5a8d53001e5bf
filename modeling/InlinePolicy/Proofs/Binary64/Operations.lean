import InlinePolicy.Proofs.Binary64.Arithmetic

/-!
# The operations of the policy in units

Conversion of words, whole parts and the lesser of two numbers keep the order of their arguments,
and words convert to numbers that are not negative.  Whole numbers of at most 53 bits convert
exactly (`units_toFloat_of_lt`), so that the whole part of a number is exact (`units_trunc`).
-/

namespace InlinePolicy.Binary64

open Float.Model
open Float.Model.UnpackedFloat (Sign)

/-! ## Words -/

theorem units_toFloat_nonneg (n : UInt64) : 0 ≤ units n.toFloat := by
  rw [units_toFloat]
  exact round_nonneg _ (by positivity)

theorem units_toFloat_mono {m n : UInt64} (h : m ≤ n) : units m.toFloat ≤ units n.toFloat := by
  have : (m.toNat : ℤ) ≤ n.toNat := by exact_mod_cast UInt64.le_iff_toNat_le.1 h
  rw [units_toFloat, units_toFloat]
  exact round_mono 0 (mul_le_mul_of_nonneg_right this (Int.natCast_nonneg _))

/-- A whole number of ones with at most 53 bits stays what it is. -/
theorem rounded_mul_one {n : ℕ} (h : n < 2 ^ 53) : rounded 0 (n * one) = n * one :=
  rounded_mul_two_pow h (Nat.zero_le _)

theorem mul_one_lt_overflow {n : ℕ} (h : n ≤ 2 ^ 64) : n * one < overflow := by
  calc n * one ≤ 2 ^ 64 * one := Nat.mul_le_mul_right _ h
    _ = 2 ^ (64 + unitBits) := (pow_add 2 64 unitBits).symm
    _ < overflow := Nat.pow_lt_pow_right (by norm_num) (by omega)

theorem round_mul_one {n : ℕ} (h : n < 2 ^ 53) : round 0 (n * one) = n * one := by
  have bound : n * one < overflow := mul_one_lt_overflow (h.le.trans (by norm_num))
  rw [← Nat.cast_mul, round_natCast, rounded_mul_one h, saturate_of_lt bound]

theorem units_toFloat_of_lt {n : UInt64} (h : n.toNat < 2 ^ 53) :
    units n.toFloat = n.toNat * one := by
  rw [units_toFloat, round_mul_one h]

theorem units_ofSignedWord_mono {m n : Int64} (h : m ≤ n) :
    units (ofSignedWord m) ≤ units (ofSignedWord n) := by
  have : m.toInt ≤ n.toInt := Int64.le_iff_toInt_le.1 h
  rw [units_ofSignedWord, units_ofSignedWord]
  exact round_mono 0 (mul_le_mul_of_nonneg_right this (Int.natCast_nonneg _))

theorem units_ofSignedWord_pos {n : Int64} (h : 0 < n) : 0 < units (ofSignedWord n) := by
  have pos : 0 < n.toInt := Int64.lt_iff_toInt_lt.1 h
  have unit : units (ofSignedWord 1) = one := by
    rw [units_ofSignedWord]
    exact (round_mul_one (n := 1) (by norm_num)).trans (by norm_num)
  have : (0 : ℤ) < one := by exact_mod_cast one_pos
  calc (0 : ℤ) < units (ofSignedWord 1) := by rw [unit]; exact this
    _ ≤ units (ofSignedWord n) := units_ofSignedWord_mono (Int64.le_iff_toInt_le.2 pos)

/-! ## Whole parts -/

theorem unpack_neg (x : Float) : (-x).toModel.unpack = x.toModel.unpack.neg := by
  have canonical : Canonical x.toModel.unpack.neg := by
    have h := canonical_unpack_toModel x
    cases hx : x.toModel.unpack with
    | finite s m e pos => rwa [hx] at h
    | _ => trivial
  exact unpack_pack_of_canonical canonical

theorem units_neg (x : Float) : units (-x) = -units x := by
  rw [units, units, unpack_neg]
  cases x.toModel.unpack with
  | notANumber => rfl
  | zero s => rfl
  | infinity s | finite s m e pos =>
    cases s
    · exact (neg_neg _).symm
    · rfl

theorem isNaN_neg (x : Float) : (-x).isNaN = x.isNaN := by
  show (-x).toModel.unpack.isNaN = x.toModel.unpack.isNaN
  rw [unpack_neg]
  cases x.toModel.unpack <;> rfl

theorem units_toFloat_toUInt64 {n : ℕ} (h : n < 2 ^ 53) :
    units n.toUInt64.toFloat = n * one := by
  have word : n.toUInt64.toNat = n := UInt64.toNat_ofNat_of_lt (h.trans (by norm_num))
  rw [units_toFloat_of_lt (by rwa [word]), word]

theorem units_ofSigned {s : Sign} {n : ℕ} (h : n < 2 ^ 53) :
    units (ofSigned (s == .negative) n) = s.apply (n * one : ℕ) := by
  have magnitude : units n.toUInt64.toFloat = (n * one : ℕ) := by
    rw [units_toFloat_toUInt64 h, Nat.cast_mul]
  cases s
  · rw [ofSigned, if_pos (by decide), units_neg, magnitude, Sign.apply]
  · rw [ofSigned, if_neg (by decide), magnitude, Sign.apply]

theorem isNegative_of_finite {x : Float} {s : Sign} {m : ℕ} {e : ℤ} {pos : 0 < m}
    (h : x.toModel.unpack = .finite s m e pos) : isNegative x = (s == .negative) := by
  rw [isNegative, h]
  cases s <;> rfl

theorem apply_tdiv_mul (s : Sign) (n d : ℕ) :
    (s.apply n).tdiv d * d = s.apply (n / d * d : ℕ) := by
  cases s <;> simp [Sign.apply, Int.neg_tdiv]

/-- A magnitude with an exponent that is not negative is a whole number of ones. -/
theorem magnitude_div_of_nonneg {e : ℤ} (m : ℕ) (h : 0 ≤ e) :
    m * 2 ^ (e + 1074).toNat / one * one = m * 2 ^ (e + 1074).toNat := by
  have bits := unitBits_eq
  have split : (e + 1074).toNat = e.toNat + unitBits := by omega
  rw [split, pow_add, ← mul_assoc, ← one]
  exact Nat.div_mul_cancel (Dvd.intro_left _ rfl)

/-- The other magnitudes have `-e` bits below those of 1. -/
theorem magnitude_div_of_neg {e : ℤ} (m : ℕ) (least : -1074 ≤ e) (h : e < 0) :
    m * 2 ^ (e + 1074).toNat / one = m >>> (-e).toNat := by
  have bits := unitBits_eq
  have split : one = 2 ^ (-e).toNat * 2 ^ (e + 1074).toNat := by
    rw [one, ← pow_add]
    congr 1
    omega
  rw [split, Nat.mul_div_mul_right _ _ (Nat.two_pow_pos _), Nat.shiftRight_eq_div_pow]

/-- Infinities are whole numbers of ones too. -/
theorem infinity_div : infinity / one * one = infinity := by
  rw [infinity, Nat.mul_div_cancel _ one_pos]

theorem units_trunc (x : Float) : units (trunc x) = (units x).tdiv one * one := by
  have canonical := canonical_unpack_toModel x
  have parts : units x = unpackedUnits x.toModel.unpack := rfl
  cases hx : x.toModel.unpack with
  | notANumber | zero =>
    have whole : trunc x = x := by rw [trunc, hx]
    rw [whole, parts, hx]
    exact (Int.mul_eq_zero.2 (.inl (Int.zero_tdiv _))).symm
  | infinity s =>
    have whole : trunc x = x := by rw [trunc, hx]
    rw [whole, parts, hx, unpackedUnits_infinity, apply_tdiv_mul, infinity_div]
  | finite s m e pos =>
    rw [hx] at canonical
    by_cases nonneg : 0 ≤ e
    · have whole : trunc x = x := by rw [trunc, hx]; exact if_pos nonneg
      rw [whole, parts, hx, unpackedUnits, apply_tdiv_mul, magnitude_div_of_nonneg m nonneg]
    · have whole : trunc x = ofSigned (s == .negative) (m >>> (-e).toNat) := by
        rw [trunc, hx, ← isNegative_of_finite hx]
        exact if_neg nonneg
      have short : m >>> (-e).toNat < 2 ^ 53 := (Nat.shiftRight_le _ _).trans_lt canonical.1
      rw [whole, parts, hx, unpackedUnits, apply_tdiv_mul,
        magnitude_div_of_neg m canonical.2.1 (not_le.1 nonneg), units_ofSigned short]

theorem isNaN_trunc (x : Float) : (trunc x).isNaN = x.isNaN := by
  unfold trunc
  split
  · next s m e pos hx =>
    have number : x.isNaN = false := by
      show x.toModel.unpack.isNaN = false
      rw [hx]
      rfl
    split_ifs
    · rfl
    · rw [number, ofSigned]
      split_ifs
      · rw [isNaN_neg, isNaN_toFloat]
      · exact isNaN_toFloat _
  · rfl

theorem units_trunc_mono {x y : Float} (h : units x ≤ units y) :
    units (trunc x) ≤ units (trunc y) := by
  have pos : (0 : ℤ) < one := by exact_mod_cast one_pos
  rw [units_trunc, units_trunc]
  exact Int.mul_le_mul_of_nonneg_right (Int.tdiv_le_tdiv pos h) pos.le

theorem units_trunc_nonneg {x : Float} (h : 0 ≤ units x) : 0 ≤ units (trunc x) := by
  rw [units_trunc]
  exact Int.mul_nonneg (Int.tdiv_nonneg h (Int.natCast_nonneg _)) (Int.natCast_nonneg _)

/-! ## The lesser of two numbers -/

theorem isNaN_lesser {x : Float} (hx : x.isNaN = false) (y : Float) :
    (lesser x y).isNaN = false := by
  unfold lesser
  split_ifs with lt nan
  · exact hx
  · exact hx
  · simpa using nan

theorem lesser_of_isNaN (x : Float) {y : Float} (hy : y.isNaN = true) : lesser x y = x := by
  unfold lesser
  split_ifs <;> rfl

theorem lesser_of_not_lt {x y : Float} (hy : y.isNaN = false) (h : ¬ x < y) : lesser x y = y := by
  unfold lesser
  rw [if_neg h, hy]
  rfl

theorem units_lesser {x y : Float} (hx : x.isNaN = false) (hy : y.isNaN = false) :
    units (lesser x y) = min (units x) (units y) := by
  unfold lesser
  simp only [lt_iff, hx, hy, true_and, Bool.false_eq_true, if_false]
  split_ifs with lt
  · exact (min_eq_left lt.le).symm
  · exact (min_eq_right (not_lt.1 lt)).symm

theorem units_lesser_le {x : Float} (hx : x.isNaN = false) (y : Float) :
    units (lesser x y) ≤ units x := by
  cases hy : y.isNaN with
  | true => rw [lesser_of_isNaN x hy]
  | false =>
    rw [units_lesser hx hy]
    exact min_le_left _ _

theorem units_lesser_mono {x x' : Float} (y : Float) (hx : x.isNaN = false)
    (hx' : x'.isNaN = false) (h : units x ≤ units x') :
    units (lesser x y) ≤ units (lesser x' y) := by
  cases hy : y.isNaN with
  | true => rwa [lesser_of_isNaN x hy, lesser_of_isNaN x' hy]
  | false =>
    rw [units_lesser hx hy, units_lesser hx' hy]
    exact min_le_min_right _ h

/-! ## Comparisons and products -/

theorem units_of_isNaN {x : Float} (h : x.isNaN = true) : units x = 0 := by
  have h : x.toModel.unpack.isNaN = true := h
  have parts : units x = unpackedUnits x.toModel.unpack := rfl
  rw [parts]
  cases hx : x.toModel.unpack with
  | notANumber => rfl
  | _ => simp [hx, UnpackedFloat.isNaN] at h

theorem units_zero : units 0.0 = 0 := rfl

theorem zero_lt_iff {x : Float} : 0.0 < x ↔ x.isNaN = false ∧ 0 < units x := by
  rw [lt_iff, units_zero]
  exact and_iff_right rfl

theorem zero_le_iff {x : Float} : 0.0 ≤ x ↔ x.isNaN = false ∧ 0 ≤ units x := by
  rw [le_iff, units_zero]
  exact and_iff_right rfl

theorem le_trans_le {x y z : Float} (h : x ≤ y) (h' : y ≤ z) : x ≤ z := by
  obtain ⟨hx, -, xy⟩ := le_iff.1 h
  obtain ⟨-, hz, yz⟩ := le_iff.1 h'
  exact le_iff.2 ⟨hx, hz, xy.trans yz⟩

theorem le_trans_lt {x y z : Float} (h : x ≤ y) (h' : y < z) : x < z := by
  obtain ⟨hx, -, xy⟩ := le_iff.1 h
  obtain ⟨-, hz, yz⟩ := lt_iff.1 h'
  exact lt_iff.2 ⟨hx, hz, xy.trans_lt yz⟩

theorem lt_trans_le {x y z : Float} (h : x < y) (h' : y ≤ z) : x < z := by
  obtain ⟨hx, -, xy⟩ := lt_iff.1 h
  obtain ⟨-, hz, yz⟩ := le_iff.1 h'
  exact lt_iff.2 ⟨hx, hz, xy.trans_le yz⟩

/-- Numbers can be compared. -/
theorem le_of_not_lt {x y : Float} (hx : x.isNaN = false) (hy : y.isNaN = false) (h : ¬ x < y) :
    y ≤ x :=
  le_iff.2 ⟨hy, hx, not_lt.1 fun lt => h (lt_iff.2 ⟨hx, hy, lt⟩)⟩

theorem toFloat_nonneg (n : UInt64) : 0.0 ≤ n.toFloat :=
  zero_le_iff.2 ⟨isNaN_toFloat n, units_toFloat_nonneg n⟩

theorem toFloat_le_toFloat {m n : UInt64} (h : m ≤ n) : m.toFloat ≤ n.toFloat :=
  le_iff.2 ⟨isNaN_toFloat m, isNaN_toFloat n, units_toFloat_mono h⟩

theorem ofSignedWord_le_ofSignedWord {m n : Int64} (h : m ≤ n) :
    ofSignedWord m ≤ ofSignedWord n :=
  le_iff.2 ⟨isNaN_ofSignedWord m, isNaN_ofSignedWord n, units_ofSignedWord_mono h⟩

theorem trunc_le_trunc {x y : Float} (h : x ≤ y) : trunc x ≤ trunc y := by
  obtain ⟨hx, hy, le⟩ := le_iff.1 h
  refine le_iff.2 ⟨?_, ?_, units_trunc_mono le⟩
  · rwa [isNaN_trunc]
  · rwa [isNaN_trunc]

theorem isFinite_of_le {x y : Float} (nonneg : 0.0 ≤ x) (h : x ≤ y) (finite : y.isFinite = true) :
    x.isFinite = true := by
  have above := (isFinite_iff.1 finite).2.2
  have below := (zero_le_iff.1 nonneg).2
  have le := (le_iff.1 h).2.2
  have large : (0 : ℤ) < overflow := by exact_mod_cast overflow_pos
  exact isFinite_iff.2 ⟨(le_iff.1 h).1, by omega, by omega⟩

theorem trunc_nonneg {x : Float} (h : 0.0 ≤ x) : 0.0 ≤ trunc x := by
  rw [zero_le_iff] at h ⊢
  rw [isNaN_trunc]
  exact ⟨h.1, units_trunc_nonneg h.2⟩

theorem trunc_le {x : Float} (h : 0.0 ≤ x) : trunc x ≤ x := by
  obtain ⟨number, nonneg⟩ := zero_le_iff.1 h
  refine le_iff.2 ⟨(isNaN_trunc x).trans number, number, ?_⟩
  rw [units_trunc, Int.tdiv_eq_ediv_of_nonneg nonneg]
  exact Int.ediv_mul_le _ (by exact_mod_cast one_pos.ne')

theorem lesser_nonneg {x y : Float} (hx : 0.0 ≤ x) (hy : 0.0 ≤ y) : 0.0 ≤ lesser x y := by
  rw [zero_le_iff] at hx hy ⊢
  refine ⟨isNaN_lesser hx.1 y, ?_⟩
  rw [units_lesser hx.1 hy.1]
  exact le_min hx.2 hy.2

theorem lesser_le {x : Float} (hx : x.isNaN = false) (y : Float) : lesser x y ≤ x :=
  le_iff.2 ⟨isNaN_lesser hx y, hx, units_lesser_le hx y⟩

/-- NaN is not below a number, so the number is the lesser of the two. -/
theorem lesser_le_right (x : Float) {y : Float} (hy : y.isNaN = false) : lesser x y ≤ y := by
  by_cases lt : x < y
  · rw [lesser, if_pos lt]
    obtain ⟨hx, -, below⟩ := lt_iff.1 lt
    exact le_iff.2 ⟨hx, hy, below.le⟩
  · rw [lesser_of_not_lt hy lt]
    exact le_iff.2 ⟨hy, hy, le_rfl⟩

theorem lesser_le_lesser {x x' : Float} (y : Float) (h : x ≤ x') : lesser x y ≤ lesser x' y := by
  obtain ⟨hx, hx', le⟩ := le_iff.1 h
  exact le_iff.2 ⟨isNaN_lesser hx y, isNaN_lesser hx' y, units_lesser_mono y hx hx' le⟩

theorem units_mul_nonneg {x y : Float} (hx : 0 ≤ units x) (hy : 0 ≤ units y) :
    0 ≤ units (x * y) := by
  cases number : (x * y).isNaN with
  | true => exact (units_of_isNaN number).ge
  | false =>
    rw [units_mul number]
    exact round_nonneg _ (mul_nonneg hx hy)

/-- An infinity keeps its size in products, so that one with a negative number is negative. -/
theorem units_mul_neg_of_infinity {x y : Float} (number : (x * y).isNaN = false)
    (hx : units x = infinity) (hy : units y < 0) : units (x * y) < 0 := by
  have large : (0 : ℤ) < infinity := Int.natCast_pos.2 infinity_pos
  have magnitude : units y = Sign.negative.apply (units y).natAbs := by
    simp only [Sign.apply]
    omega
  have product : round unitBits (infinity * units y) = -infinity := by
    rw [magnitude]
    exact round_infinity_mul .positive .negative (Int.natAbs_pos.2 hy.ne)
  rw [units_mul number, hx, product]
  exact neg_lt_zero.2 large

theorem units_mul_infinity {x y : Float} (number : (x * y).isNaN = false) (hx : 0 < units x)
    (hy : units y = infinity) : units (x * y) = infinity := by
  have magnitude : units x = Sign.positive.apply (units x).natAbs := by
    simp only [Sign.apply]
    omega
  rw [units_mul number, hy, Int.mul_comm, magnitude]
  exact round_infinity_mul .positive .positive (Int.natAbs_pos.2 hx.ne')

/-- Only an infinity times zero is no number. -/
theorem isNaN_mul_of_isFinite {x y : Float} (hx : x.isNaN = false) (hy : y.isFinite = true)
    (h : x.isFinite = true ∨ units y ≠ 0) : (x * y).isNaN = false :=
  isNaN_mul_eq_false_iff.2 ⟨hx, isNaN_eq_false_of_isFinite hy, h, .inl hy⟩

theorem mul_le_mul_of_nonneg {x y x' y' : Float} (number : (x * y).isNaN = false)
    (number' : (x' * y').isNaN = false) (hx : x ≤ x') (hy : y ≤ y') (nonneg : 0.0 ≤ x)
    (nonneg' : 0.0 ≤ y) : x * y ≤ x' * y' := by
  have le := (le_iff.1 hx).2.2
  have le' := (le_iff.1 hy).2.2
  have pos := (zero_le_iff.1 nonneg).2
  have pos' := (zero_le_iff.1 nonneg').2
  exact le_iff.2 ⟨number, number',
    units_mul_mono number number' (Int.mul_le_mul le le' pos' (pos.trans le))⟩

/-! ## Products with a factor of at most 1 -/

theorem units_one : units 1.0 = one := by
  have word : (1.0 : Float) = UInt64.toFloat 1 := by decide
  rw [word, units_toFloat_of_lt (by decide)]
  exact one_mul _

/-- An infinity stays above 1 in products with factors that are not negative, and the product with
zero is NaN. -/
theorem lesser_mul_infinity {x y : Float} (nonneg : 0.0 ≤ x) (nonneg' : 0.0 ≤ y)
    (infinite : y.isFinite = false) : lesser (x * y) 1.0 = 1.0 := by
  refine lesser_of_not_lt rfl fun below => ?_
  obtain ⟨number, -, lt⟩ := lt_iff.1 below
  obtain ⟨-, number', -, finite_or⟩ := isNaN_mul_eq_false_iff.1 number
  have size := units_eq_infinity number' infinite (zero_le_iff.1 nonneg').2
  have ne : units x ≠ 0 := finite_or.resolve_left (Bool.eq_false_iff.1 infinite)
  have pos : 0 < units x := lt_of_le_of_ne (zero_le_iff.1 nonneg).2 ne.symm
  rw [units_mul_infinity number pos size, units_one] at lt
  have : one ≤ infinity := Nat.le_mul_of_pos_left one overflow_pos
  omega

/-- A number that is not negative does not grow where it is scaled by a factor of at most 1, be it
infinite or the factor negative. -/
theorem units_mul_le {x y : Float} (number : (x * y).isNaN = false) (nonneg : 0 ≤ units x)
    (small : units y ≤ one) : units (x * y) ≤ units x := by
  calc units (x * y) = round unitBits (units x * units y) := units_mul number
    _ ≤ round unitBits (units x * one) := round_mono _ (Int.mul_le_mul_of_nonneg_left small nonneg)
    _ = round 0 (units x) := round_mul_unit unitBits (units x)
    _ = units x := round_units x

/-- No finite number overflows where it is made smaller. -/
theorem isFinite_mul_of_le_one {x y : Float} (nonneg : 0.0 ≤ x) (finite : x.isFinite = true)
    (nonneg' : 0.0 ≤ y) (small : y ≤ 1.0) : (x * y).isFinite = true := by
  have finite' := isFinite_of_le nonneg' small rfl
  have number := isNaN_mul_of_isFinite (isNaN_eq_false_of_isFinite finite) finite' (.inl finite)
  have pos := (zero_le_iff.1 nonneg).2
  have product_nonneg := units_mul_nonneg pos (zero_le_iff.1 nonneg').2
  have bound : units x < overflow := (isFinite_iff.1 finite).2.2
  have factor := (le_iff.1 small).2.2
  rw [units_one] at factor
  have le := units_mul_le number pos factor
  have : (0 : ℤ) < overflow := by exact_mod_cast overflow_pos
  exact isFinite_iff.2 ⟨number, by omega, by omega⟩

end InlinePolicy.Binary64
