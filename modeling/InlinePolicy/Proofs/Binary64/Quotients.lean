import InlinePolicy.Proofs.Binary64.Equality

/-!
# Quotients

Division keeps the whole part of a quotient of mantissas and, of the rest, only how it compares to
a half.  That is a number of quarters (`quarters`), which rounding takes for an exact result
(`roundWithAccuracy_eq_exact`).  Quarters stand on the same side of a whole number as the quotient
itself, and so the rounded quotient stands on the same side of every `Float` as the exact one
(`units_div_le`, `le_units_div`): a quotient of numbers that are not negative is between 0 and 1 if
the divisor is not the smaller one, and it is exact there if it is 0 or 1.
-/

namespace InlinePolicy.Binary64

open Float.Model
open Float.Model.UnpackedFloat (Sign Accuracy ExtendedMantissa roundWithAccuracy
  shiftToTargetExponent accuracyOfFraction divCore)

/-! ## Rests in quarters -/

/-- What is left of a mantissa, in quarters of a unit: less than a half counts as one of them, and
more than a half as three. -/
def residue : Accuracy → ℕ
  | .exact => 0
  | .inexact .lt => 1
  | .inexact .eq => 2
  | .inexact .gt => 3

theorem residue_lt (accuracy : Accuracy) : residue accuracy < 4 := by
  cases accuracy with
  | exact => decide
  | inexact order => cases order <;> decide

theorem residue_eq_zero_iff (n d : ℕ) : residue (accuracyOfFraction n d) = 0 ↔ n = 0 := by
  unfold accuracyOfFraction
  split_ifs with zero
  · exact iff_of_true rfl zero
  · refine iff_of_false ?_ zero
    cases compare (2 * n) d <;> decide

theorem repeat_add_two {α : Type} (f : α → α) (n : ℕ) (a : α) :
    (n + 2).repeat f a = n.repeat f (f (f a)) := by
  induction n with
  | zero => rfl
  | succ n ih => exact congrArg f ih

/-- The two bits of an extended mantissa are the quarters that a shift by two leaves behind. -/
theorem shiftRightOne_quarters (m : ℕ) (accuracy : Accuracy) :
    ExtendedMantissa.shiftRightOne
        (ExtendedMantissa.shiftRightOne ⟨4 * m + residue accuracy, false, false⟩) =
      ExtendedMantissa.ofMantissaAndAccuracy m accuracy := by
  have small := residue_lt accuracy
  have whole : (4 * m + residue accuracy) / 2 / 2 = m := by omega
  have high : (4 * m + residue accuracy) / 2 % 2 = residue accuracy / 2 := by omega
  have low : (4 * m + residue accuracy) % 2 = residue accuracy % 2 := by omega
  simp only [ExtendedMantissa.shiftRightOne, whole, high, low, Bool.or_false]
  cases accuracy with
  | exact => rfl
  | inexact order => cases order <;> rfl

theorem targetExponent_quarters {m r : ℕ} {e : ℤ} (small : r < 4)
    (le : e ≤ max (m.log2 + e - 52) (-1074)) :
    max (((4 * m + r).log2 : ℤ) + (e - 2) - 52) (-1074) = max (m.log2 + e - 52) (-1074) := by
  rcases Nat.eq_zero_or_pos m with rfl | pos
  · have : (4 * 0 + r).log2 < 2 := by
      interval_cases r <;> decide
    rw [Nat.log2_zero] at le ⊢
    omega
  · have bits : (4 * m + r).log2 = m.log2 + 2 := by
      have lower := Nat.log2_self_le pos.ne'
      have upper := @Nat.lt_log2_self m
      rw [Nat.log2_eq_iff (by omega)]
      rw [pow_succ] at upper
      simp only [pow_succ]
      omega
    rw [bits]
    push_cast
    omega

/-- A mantissa with a rest is rounded like the exact number of quarters. -/
theorem roundWithAccuracy_eq_exact {s : Sign} {m : ℕ} {e : ℤ} (accuracy : Accuracy)
    (le : e ≤ max (m.log2 + e - 52) (-1074)) :
    roundWithAccuracy .binary64 s m e accuracy =
      roundWithAccuracy .binary64 s (4 * m + residue accuracy) (e - 2) .exact := by
  obtain ⟨t, target⟩ : ∃ t : ℤ, t = max (m.log2 + e - 52) (-1074) := ⟨_, rfl⟩
  have quarters := (targetExponent_quarters (residue_lt accuracy) le).trans target.symm
  have shift : (t - (e - 2)).toNat = (t - e).toNat + 2 := by omega
  have inexact : shiftToTargetExponent .binary64 m e accuracy =
      ((t - e).toNat.repeat ExtendedMantissa.shiftRightOne
        (ExtendedMantissa.ofMantissaAndAccuracy m accuracy), e + (t - e).toNat) := by
    rw [shiftToTargetExponent, targetExponent_eq, ← target]
    rfl
  have same : shiftToTargetExponent .binary64 m e accuracy =
      shiftToTargetExponent .binary64 (4 * m + residue accuracy) (e - 2) .exact := by
    rw [inexact, shiftToTargetExponent_exact quarters.symm, shift, repeat_add_two,
      shiftRightOne_quarters]
    push_cast
    congr 1
    ring
  rw [roundWithAccuracy, roundWithAccuracy, same]

/-- The quotient `a / d` in quarters, as exactly as rounding has to know it. -/
def quarters (a d : ℕ) : ℕ := 4 * (a / d) + residue (accuracyOfFraction (a % d) d)

theorem quarters_le_iff {a d : ℕ} (pos : 0 < d) (n : ℕ) : quarters a d ≤ 4 * n ↔ a ≤ n * d := by
  have small := residue_lt (accuracyOfFraction (a % d) d)
  have zero := residue_eq_zero_iff (a % d) d
  have split := Nat.div_add_mod' a d
  have rest := Nat.mod_lt a pos
  unfold quarters
  rcases lt_trichotomy (a / d) n with lt | rfl | gt
  · have : (a / d + 1) * d ≤ n * d := Nat.mul_le_mul_right d lt
    rw [Nat.add_mul, Nat.one_mul] at this
    exact iff_of_true (by omega) (by omega)
  · omega
  · have : (n + 1) * d ≤ a / d * d := Nat.mul_le_mul_right d gt
    rw [Nat.add_mul, Nat.one_mul] at this
    exact iff_of_false (by omega) (by omega)

theorem le_quarters_iff {a d : ℕ} (pos : 0 < d) (n : ℕ) : 4 * n ≤ quarters a d ↔ n * d ≤ a := by
  have small := residue_lt (accuracyOfFraction (a % d) d)
  rw [← Nat.le_div_iff_mul_le pos, quarters]
  omega

theorem quarters_pos {a d : ℕ} (hd : 0 < d) (ha : 0 < a) : 0 < quarters a d := by
  have := (quarters_le_iff hd (a := a) 0).not
  omega

theorem quarters_mul {d : ℕ} (pos : 0 < d) (q : ℕ) : quarters (q * d) d = 4 * q :=
  le_antisymm ((quarters_le_iff pos q).2 le_rfl) ((le_quarters_iff pos q).2 le_rfl)

/-! ## The quotient of two mantissas -/

/-- The exponent of the quotient of two mantissas. -/
def quotientExponent (m : ℕ) (d : ℤ) (n : ℕ) (e : ℤ) : ℤ :=
  min (d - e) (max (m.log2 + d - n.log2 - e - 53) (-1074))

/-- The dividend, as long as the exponent of the quotient asks for. -/
def dividend (m : ℕ) (d : ℤ) (n : ℕ) (e : ℤ) : ℕ := m * 2 ^ (d - e - quotientExponent m d n e).toNat

theorem divCore_eq (m : ℕ) (d : ℤ) (n : ℕ) (e : ℤ) :
    divCore .binary64 m d n e =
      (dividend m d n e / n, quotientExponent m d n e,
        accuracyOfFraction (dividend m d n e % n) n) := by
  have bits : (Format.binary64.mantissaBits : ℤ) = 53 := rfl
  have least : Format.binary64.minExponent = -1074 := rfl
  have target : min (d - e) (Format.binary64.targetExponent
      (totalExponent m d - totalExponent n e)) = quotientExponent m d n e := by
    rw [Format.targetExponent, totalExponent, totalExponent, bits, least, quotientExponent]
    congr 2
    ring
  rw [divCore, target, dividend, ← Nat.shiftLeft_eq]

variable {m n : ℕ} {d e : ℤ}

/-- The whole part of a quotient has all the bits that a mantissa needs, unless its exponent is as
small as that of a subnormal number. -/
theorem mul_le_dividend (posX : 0 < m) (normal : -1074 < quotientExponent m d n e) :
    2 ^ 52 * n ≤ dividend m d n e := by
  have power : 53 + n.log2 ≤ m.log2 + (d - e - quotientExponent m d n e).toNat := by
    unfold quotientExponent at normal ⊢
    omega
  calc 2 ^ 52 * n ≤ 2 ^ 52 * 2 ^ (n.log2 + 1) := Nat.mul_le_mul_left _ Nat.lt_log2_self.le
    _ = 2 ^ (53 + n.log2) := by rw [← pow_add]; congr 1; omega
    _ ≤ 2 ^ (m.log2 + (d - e - quotientExponent m d n e).toNat) :=
        Nat.pow_le_pow_right (by omega) power
    _ = 2 ^ m.log2 * 2 ^ (d - e - quotientExponent m d n e).toNat := pow_add _ _ _
    _ ≤ dividend m d n e := Nat.mul_le_mul_right _ (Nat.log2_self_le posX.ne')

theorem quotientExponent_le_target (posX : 0 < m) (posY : 0 < n) :
    quotientExponent m d n e ≤
      max ((dividend m d n e / n).log2 + quotientExponent m d n e - 52) (-1074) := by
  rcases le_or_gt (quotientExponent m d n e) (-1074) with small | normal
  · exact le_max_of_le_right small
  · have long := (Nat.le_div_iff_mul_le posY).2 (mul_le_dividend posX normal)
    have : 52 ≤ (dividend m d n e / n).log2 := (Nat.le_log2 (by omega)).2 long
    omega

/-- In units of `2 ^ (-2148)` the quotient is `dividend m d n e / n` times this power of two. -/
def quotientBits (m : ℕ) (d : ℤ) (n : ℕ) (e : ℤ) : ℕ :=
  (quotientExponent m d n e + 1074 + unitBits).toNat

theorem dividend_mul (hx : -1074 ≤ d) (hy : -1074 ≤ e) (largest : e ≤ 971) :
    dividend m d n e * 2 ^ quotientBits m d n e * (n * 2 ^ (e + 1074).toNat) =
      m * 2 ^ (d + 1074).toNat * one * (2 ^ unitBits * n) := by
  have bits := unitBits_eq
  have power : (d - e - quotientExponent m d n e).toNat + quotientBits m d n e +
      (e + 1074).toNat = (d + 1074).toNat + unitBits + unitBits := by
    unfold quotientBits quotientExponent
    omega
  calc dividend m d n e * 2 ^ quotientBits m d n e * (n * 2 ^ (e + 1074).toNat)
      = m * n * 2 ^ ((d - e - quotientExponent m d n e).toNat + quotientBits m d n e +
          (e + 1074).toNat) := by rw [dividend, pow_add, pow_add]; ring
    _ = m * 2 ^ (d + 1074).toNat * one * (2 ^ unitBits * n) := by
        rw [power, pow_add, pow_add, one]; ring

/-- A quotient is its quarters, rounded. -/
theorem unpackedUnits_div {posX : 0 < m} {posY : 0 < n} (least : -1074 ≤ d) (largest : e ≤ 971) :
    unpackedUnits (UnpackedFloat.unpack .binary64 (UnpackedFloat.pack .binary64
        (UnpackedFloat.div .binary64 (.finite .positive m d posX) (.finite .positive n e posY)))) =
      saturate (rounded unitBits
        (quarters (dividend m d n e) n * 2 ^ (quotientBits m d n e - 2))) := by
  have bits := unitBits_eq
  have target := quotientExponent_le_target (d := d) (e := e) posX posY
  have lower : -2045 ≤ quotientExponent m d n e := by
    unfold quotientExponent
    omega
  have pos : 0 < quarters (dividend m d n e) n :=
    quarters_pos posY (Nat.mul_pos posX (Nat.two_pow_pos _))
  have target' := targetExponent_quarters (residue_lt
    (accuracyOfFraction (dividend m d n e % n) n)) target
  have power : (quotientExponent m d n e - 2 + 1074 + unitBits).toNat =
      quotientBits m d n e - 2 := by
    unfold quotientBits
    omega
  have quotient : UnpackedFloat.div .binary64 (.finite .positive m d posX)
      (.finite .positive n e posY) =
      roundWithAccuracy .binary64 .positive (quarters (dividend m d n e) n)
        (quotientExponent m d n e - 2) .exact := by
    rw [UnpackedFloat.div, divCore_eq]
    exact roundWithAccuracy_eq_exact _ target
  rw [quotient, unpackedUnits_roundWithAccuracy unitBits pos (by unfold quarters; omega) (by omega),
    power]
  rfl

/-! ## The side of a quotient -/

/-- A number of at most 53 bits is a whole number of larger units, or it has fewer bits than such a
unit takes to make up a mantissa. -/
theorem dvd_or_lt_of_bits {a j k u : ℕ} (small : a < 2 ^ 53) :
    2 ^ k ∣ a * 2 ^ j * 2 ^ u ∨ u < k ∧ a * 2 ^ j * 2 ^ u < 2 ^ 52 * 2 ^ k := by
  rw [mul_assoc, ← pow_add]
  rcases le_or_gt k (j + u) with le | gt
  · exact .inl (dvd_mul_of_dvd_right (pow_dvd_pow 2 le) a)
  · refine .inr ⟨by omega, ?_⟩
    calc a * 2 ^ (j + u) < 2 ^ 53 * 2 ^ (j + u) :=
          Nat.mul_lt_mul_of_pos_right small (Nat.two_pow_pos _)
      _ = 2 ^ 52 * 2 ^ (j + u + 1) := by ring
      _ ≤ 2 ^ 52 * 2 ^ k := Nat.mul_le_mul_left _ (Nat.pow_le_pow_right (by omega) gt)

section

variable {a k v : ℕ}

theorem mul_two_pow_sub_two (w : ℕ) (two_le : 2 ≤ k) : w * 2 ^ k = 4 * w * 2 ^ (k - 2) := by
  obtain ⟨k, rfl⟩ := Nat.exists_eq_add_of_le' two_le
  rw [Nat.add_sub_cancel, pow_add]
  ring

theorem quarters_mul_two_pow_le (pos : 0 < n) (two_le : 2 ≤ k)
    (side : 2 ^ k ∣ v ∨ 2 ^ 52 * n ≤ a ∧ v < 2 ^ 52 * 2 ^ k) (h : a * 2 ^ k ≤ v * n) :
    quarters a n * 2 ^ (k - 2) ≤ v := by
  rcases side with ⟨w, rfl⟩ | ⟨long, small⟩
  · have le : a ≤ w * n := by
      refine Nat.le_of_mul_le_mul_right (h.trans_eq ?_) (Nat.two_pow_pos k)
      ring
    rw [mul_comm (2 ^ k) w, mul_two_pow_sub_two w two_le]
    exact Nat.mul_le_mul_right _ ((quarters_le_iff pos w).2 le)
  · have : v * n < a * 2 ^ k :=
      calc v * n < 2 ^ 52 * 2 ^ k * n := Nat.mul_lt_mul_of_pos_right small pos
        _ = 2 ^ 52 * n * 2 ^ k := by ring
        _ ≤ a * 2 ^ k := Nat.mul_le_mul_right _ long
    exact absurd h this.not_ge

theorem le_quarters_mul_two_pow (pos : 0 < n) (two_le : 2 ≤ k)
    (side : 2 ^ k ∣ v ∨ 2 ^ 52 * n ≤ a ∧ v < 2 ^ 52 * 2 ^ k) (h : v * n ≤ a * 2 ^ k) :
    v ≤ quarters a n * 2 ^ (k - 2) := by
  rcases side with ⟨w, rfl⟩ | ⟨long, small⟩
  · have le : w * n ≤ a := by
      refine Nat.le_of_mul_le_mul_right (Eq.trans_le ?_ h) (Nat.two_pow_pos k)
      ring
    rw [mul_comm (2 ^ k) w, mul_two_pow_sub_two w two_le]
    exact Nat.mul_le_mul_right _ ((le_quarters_iff pos w).2 le)
  · rw [mul_two_pow_sub_two (2 ^ 52) two_le] at small
    exact small.le.trans (Nat.mul_le_mul_right _ ((le_quarters_iff pos _).2 long))

end

/-- No number that is not negative has more than 53 bits, not even an infinity. -/
theorem exists_bits {z : Float} (nonneg : 0 ≤ units z) :
    ∃ a j : ℕ, a < 2 ^ 53 ∧ units z = (a * 2 ^ j : ℕ) := by
  have canonical := canonical_unpack_toModel z
  unfold units at nonneg ⊢
  cases hz : z.toModel.unpack with
  | notANumber | zero s => exact ⟨0, 0, by norm_num, rfl⟩
  | infinity s =>
    rw [hz, unpackedUnits_infinity] at nonneg
    have pos : (0 : ℤ) < infinity := Int.natCast_pos.2 infinity_pos
    cases s with
    | negative => exact absurd nonneg (neg_lt_zero.2 pos).not_ge
    | positive =>
      refine ⟨1, 1024 + unitBits + unitBits, by norm_num, ?_⟩
      rw [one_mul, pow_add]
      rfl
  | finite s m e pos =>
    rw [hz] at nonneg canonical
    have := magnitude_pos e pos
    cases s with
    | negative =>
      simp only [unpackedUnits, Sign.apply] at nonneg
      omega
    | positive => exact ⟨m, (e + 1074).toNat, canonical.1, rfl⟩

/-- A positive finite number in its parts. -/
theorem exists_unpack_eq {x : Float} (finite : x.isFinite = true) (positive : 0 < units x) :
    ∃ m e, ∃ pos : 0 < m, x.toModel.unpack = .finite .positive m e pos := by
  change x.toModel.unpack.isFinite = true at finite
  unfold units at positive
  cases hx : x.toModel.unpack with
  | notANumber | infinity s => simp [hx, UnpackedFloat.isFinite] at finite
  | zero s => simp [hx, unpackedUnits] at positive
  | finite s m e pos =>
    rw [hx] at positive
    cases s with
    | negative =>
      simp only [unpackedUnits, Sign.apply] at positive
      omega
    | positive => exact ⟨m, e, pos, rfl⟩

theorem saturate_rounded_units {z : Float} {n : ℕ} (h : units z = n) :
    (saturate (rounded unitBits (n * 2 ^ unitBits)) : ℤ) = units z := by
  rw [rounded_mul_unit, ← round_natCast, ← h, round_units]

section

variable {x y z : Float}

theorem unpack_div (x y : Float) :
    (x / y).toModel.unpack = UnpackedFloat.unpack .binary64 (UnpackedFloat.pack .binary64
      (UnpackedFloat.div .binary64 x.toModel.unpack y.toModel.unpack)) := rfl

/-- The quotient of positive numbers is that of two whole numbers, `a / n`, in units of a power of
two.  There the numbers of at most 53 bits are found on the same side of the quotient and of its
quarters. -/
theorem exists_units_div_eq (finite : x.isFinite = true) (posX : 0 < units x)
    (finite' : y.isFinite = true) (posY : 0 < units y) :
    ∃ a k n : ℕ, 0 < n ∧ 2 ≤ k ∧ (unitBits < k → 2 ^ 52 * n ≤ a) ∧
      (a * 2 ^ k : ℕ) * units y = units x * one * (2 ^ unitBits * n : ℕ) ∧
      units (x / y) = saturate (rounded unitBits (quarters a n * 2 ^ (k - 2))) := by
  obtain ⟨m, d, pos, partsX⟩ := exists_unpack_eq finite posX
  obtain ⟨n, e, pos', partsY⟩ := exists_unpack_eq finite' posY
  have canonX := canonical_unpack_toModel x
  have canonY := canonical_unpack_toModel y
  rw [partsX] at canonX
  rw [partsY] at canonY
  have bits := unitBits_eq
  have unitsX : units x = (m * 2 ^ (d + 1074).toNat : ℕ) := congrArg unpackedUnits partsX
  have unitsY : units y = (n * 2 ^ (e + 1074).toNat : ℕ) := congrArg unpackedUnits partsY
  refine ⟨dividend m d n e, quotientBits m d n e, n, pos', ?_, fun normal => ?_, ?_, ?_⟩
  · have := canonX.2.1
    have := canonY.2.2.1
    unfold quotientBits quotientExponent
    omega
  · refine mul_le_dividend pos ?_
    unfold quotientBits at normal
    omega
  · rw [unitsX, unitsY]
    exact_mod_cast dividend_mul canonX.2.1 canonY.2.1 canonY.2.2.1
  · rw [units, unpack_div, partsX, partsY]
    exact unpackedUnits_div canonX.2.1 canonY.2.2.1

/-- The quotient and a third number are both rounded from whole numbers of the same unit, which
stand in the order of the exact numbers. -/
theorem exists_rounded_sides (finite : x.isFinite = true) (posX : 0 < units x)
    (finite' : y.isFinite = true) (posY : 0 < units y) (nonneg : 0 ≤ units z) :
    ∃ q v : ℕ, units (x / y) = saturate (rounded unitBits q) ∧
      units z = saturate (rounded unitBits v) ∧
      (units x * one ≤ units z * units y → q ≤ v) ∧
      (units z * units y ≤ units x * one → v ≤ q) := by
  obtain ⟨a, k, n, pos, two_le, long, dividend, quotient⟩ :=
    exists_units_div_eq finite posX finite' posY
  obtain ⟨b, j, small, unitsZ⟩ := exists_bits nonneg
  have side := (dvd_or_lt_of_bits (j := j) (k := k) (u := unitBits) small).imp_right
    fun ⟨normal, lt⟩ => And.intro (long normal) lt
  -- both sides of a comparison are multiplied by the same number
  have scale : (0 : ℤ) ≤ (2 ^ unitBits * n : ℕ) := Int.natCast_nonneg _
  have multiple : (b * 2 ^ j * 2 ^ unitBits * n : ℕ) * units y =
      units z * units y * (2 ^ unitBits * n : ℕ) := by
    rw [unitsZ]
    push_cast
    ring
  refine ⟨_, b * 2 ^ j * 2 ^ unitBits, quotient, (saturate_rounded_units unitsZ).symm,
    fun h => quarters_mul_two_pow_le pos two_le side ?_,
    fun h => le_quarters_mul_two_pow pos two_le side ?_⟩
  · have := mul_le_mul_of_nonneg_right h scale
    rw [← dividend, ← multiple] at this
    exact_mod_cast le_of_mul_le_mul_right this posY
  · have := mul_le_mul_of_nonneg_right h scale
    rw [← dividend, ← multiple] at this
    exact_mod_cast le_of_mul_le_mul_right this posY

theorem units_zero_div (zero : units x = 0) (finite : x.isFinite = true)
    (finite' : y.isFinite = true) (posY : 0 < units y) : units (x / y) = 0 := by
  obtain ⟨n, e, pos, partsY⟩ := exists_unpack_eq finite' posY
  change x.toModel.unpack.isFinite = true at finite
  unfold units at zero ⊢
  rw [unpack_div, partsY]
  cases partsX : x.toModel.unpack with
  | notANumber | infinity s => simp [partsX, UnpackedFloat.isFinite] at finite
  | zero s => exact unpackedUnits_pack_zero _
  | finite s m d pos' =>
    rw [partsX] at zero
    exact absurd zero (unpackedUnits_finite_ne_zero s m d pos')

/-- A quotient is at most as large as any number that the exact quotient is at most as large as. -/
theorem units_div_le (finite : x.isFinite = true) (nonneg : 0 ≤ units x)
    (finite' : y.isFinite = true) (posY : 0 < units y)
    (h : units x * one ≤ units z * units y) : units (x / y) ≤ units z := by
  have nonnegZ : 0 ≤ units z :=
    nonneg_of_mul_nonneg_left ((mul_nonneg nonneg (Int.natCast_nonneg one)).trans h) posY
  rcases nonneg.eq_or_lt with zero | posX
  · rwa [units_zero_div zero.symm finite finite' posY]
  · obtain ⟨q, v, quotient, bound, le, -⟩ :=
      exists_rounded_sides finite posX finite' posY nonnegZ
    rw [quotient, bound]
    exact_mod_cast saturate_mono (rounded_mono unitBits (le h))

/-- A quotient is at least as large as any number that the exact quotient is at least as large
as. -/
theorem le_units_div (finite : x.isFinite = true) (posX : 0 < units x)
    (finite' : y.isFinite = true) (posY : 0 < units y) (nonnegZ : 0 ≤ units z)
    (h : units z * units y ≤ units x * one) : units z ≤ units (x / y) := by
  obtain ⟨q, v, quotient, bound, -, le⟩ := exists_rounded_sides finite posX finite' posY nonnegZ
  rw [quotient, bound]
  exact_mod_cast saturate_mono (rounded_mono unitBits (le h))

theorem isNaN_div (finite : x.isFinite = true) (finite' : y.isFinite = true)
    (ne : units y ≠ 0) : (x / y).isNaN = false := by
  refine (isNaN_unpack_pack _).trans ?_
  change x.toModel.unpack.isFinite = true at finite
  change y.toModel.unpack.isFinite = true at finite'
  unfold units at ne
  cases partsY : y.toModel.unpack with
  | notANumber | infinity s => simp [partsY, UnpackedFloat.isFinite] at finite'
  | zero s => simp [partsY, unpackedUnits] at ne
  | finite t n e pos' =>
    cases partsX : x.toModel.unpack with
    | notANumber | infinity s => simp [partsX, UnpackedFloat.isFinite] at finite
    | zero s => rfl
    | finite s m d pos =>
      simp only [UnpackedFloat.div, roundWithAccuracy]
      split_ifs <;> rfl

end

/-! ## Parts of a whole -/

section

variable {x y : Float}

theorem div_nonneg_le_one (nonneg : 0.0 ≤ x) (le : x ≤ y) (finite : y.isFinite = true)
    (pos : 0.0 < y) : 0.0 ≤ x / y ∧ x / y ≤ 1.0 := by
  have finiteX := isFinite_of_le nonneg le finite
  have nonnegX := (zero_le_iff.1 nonneg).2
  have posY := (zero_lt_iff.1 pos).2
  have number := isNaN_div finiteX finite posY.ne'
  refine ⟨zero_le_iff.2 ⟨number, ?_⟩, le_iff.2 ⟨number, rfl, ?_⟩⟩
  · rcases nonnegX.eq_or_lt with zero | posX
    · rw [units_zero_div zero.symm finiteX finite posY]
    · refine le_units_div (z := 0.0) finiteX posX finite posY le_rfl ?_
      rw [units_zero, zero_mul]
      positivity
  · refine units_div_le finiteX nonnegX finite posY ?_
    rw [units_one, mul_comm]
    exact mul_le_mul_of_nonneg_left (le_iff.1 le).2.2 (Int.natCast_nonneg one)

theorem div_self_eq_one (finite : x.isFinite = true) (pos : 0.0 < x) : x / x = 1.0 := by
  have posX := (zero_lt_iff.1 pos).2
  have units_eq : units (x / x) = units 1.0 := by
    refine le_antisymm (units_div_le finite posX.le finite posX ?_)
      (le_units_div finite posX finite posX (by rw [units_one]; positivity) ?_)
    · rw [units_one, mul_comm]
    · rw [units_one, mul_comm]
  refine eq_of_units_eq units_eq ?_
  rw [units_eq, units_one]
  exact_mod_cast one_pos.ne'

/-- A quotient does not vanish unless it is smaller than every positive number. -/
theorem zero_lt_div (finite : x.isFinite = true) (posX : 0.0 < x) (finite' : y.isFinite = true)
    (posY : 0.0 < y) (h : units y ≤ units x * one) : 0.0 < x / y := by
  have posX := (zero_lt_iff.1 posX).2
  have posY := (zero_lt_iff.1 posY).2
  have smallest : units (Float.ofBits 1) = 1 := rfl
  have le := le_units_div (z := Float.ofBits 1) finite posX finite' posY (by omega)
    (by rwa [smallest, one_mul])
  exact zero_lt_iff.2 ⟨isNaN_div finite finite' posY.ne', by omega⟩

end

/-! ## Quotients of words -/

section

variable {m n : UInt64}

theorem units_toFloat_le (n : UInt64) : units n.toFloat ≤ (2 ^ 64 * one : ℕ) := by
  have exactly : round 0 (2 ^ 64 * one : ℕ) = (2 ^ 64 * one : ℕ) := by
    have power : 2 ^ 64 * one = 1 * 2 ^ (64 + unitBits) := by rw [one, pow_add, one_mul]
    rw [round_natCast, power, rounded_mul_two_pow (by norm_num) (Nat.zero_le _), Nat.sub_zero,
      ← power, saturate_of_lt (mul_one_lt_overflow le_rfl)]
  rw [units_toFloat, ← exactly]
  refine round_mono 0 ?_
  exact_mod_cast Nat.mul_le_mul_right one n.toNat_lt.le

theorem isFinite_toFloat (n : UInt64) : n.toFloat.isFinite = true := by
  have lower := units_toFloat_nonneg n
  have upper := units_toFloat_le n
  have bound := mul_one_lt_overflow (n := 2 ^ 64) le_rfl
  exact isFinite_iff.2 ⟨isNaN_toFloat n, by omega, by omega⟩

theorem one_le_units_toFloat (pos : 0 < n) : (one : ℤ) ≤ units n.toFloat := by
  have unit : units (UInt64.toFloat 1) = one :=
    (units_toFloat_of_lt (by decide)).trans (one_mul _)
  rw [← unit]
  exact units_toFloat_mono (UInt64.le_iff_toNat_le.2 (UInt64.lt_iff_toNat_lt.1 pos))

theorem zero_lt_toFloat (pos : 0 < n) : 0.0 < n.toFloat := by
  have := one_le_units_toFloat pos
  have : (0 : ℤ) < one := by exact_mod_cast one_pos
  exact zero_lt_iff.2 ⟨isNaN_toFloat n, by omega⟩

theorem toFloat_div_nonneg_le_one (pos : 0 < n) (le : m ≤ n) :
    0.0 ≤ m.toFloat / n.toFloat ∧ m.toFloat / n.toFloat ≤ 1.0 :=
  div_nonneg_le_one (toFloat_nonneg m) (toFloat_le_toFloat le) (isFinite_toFloat n)
    (zero_lt_toFloat pos)

theorem toFloat_div_self (pos : 0 < n) : n.toFloat / n.toFloat = 1.0 :=
  div_self_eq_one (isFinite_toFloat n) (zero_lt_toFloat pos)

theorem zero_toFloat_div (pos : 0 < n) : UInt64.toFloat 0 / n.toFloat = 0.0 := by
  obtain ⟨m, e, posM, parts⟩ :=
    exists_unpack_eq (isFinite_toFloat n) (zero_lt_iff.1 (zero_lt_toFloat pos)).2
  refine eq_of_unpack_eq ?_
  rw [unpack_div, parts]
  rfl

/-- No quotient of words is so small that it vanishes. -/
theorem zero_lt_toFloat_div (posM : 0 < m) (posN : 0 < n) : 0.0 < m.toFloat / n.toFloat := by
  refine zero_lt_div (isFinite_toFloat m) (zero_lt_toFloat posM) (isFinite_toFloat n)
    (zero_lt_toFloat posN) ?_
  have large : 2 ^ 64 * one ≤ one * one :=
    Nat.mul_le_mul_right one (Nat.pow_le_pow_right (by omega) (by rw [unitBits_eq]; omega))
  calc units n.toFloat ≤ (2 ^ 64 * one : ℕ) := units_toFloat_le n
    _ ≤ (one * one : ℕ) := by exact_mod_cast large
    _ ≤ units m.toFloat * one := by
        rw [Nat.cast_mul]
        exact mul_le_mul_of_nonneg_right (one_le_units_toFloat posM) (Int.natCast_nonneg one)

theorem toFloat_div_eq_zero_iff (pos : 0 < n) : m.toFloat / n.toFloat = 0.0 ↔ m = 0 := by
  constructor
  · intro zero
    by_contra ne
    have posM : 0 < m := UInt64.pos_iff_ne_zero.2 ne
    have := (zero_lt_iff.1 (zero ▸ zero_lt_toFloat_div posM pos)).2
    exact absurd this (lt_irrefl _)
  · rintro rfl
    exact zero_toFloat_div pos

end

end InlinePolicy.Binary64
