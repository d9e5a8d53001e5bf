import InlinePolicy.Proofs.Binary64.Units

/-!
# Arithmetic in units

The result of an operation on floats is the exact result in units, rounded: `units_mul` for
products, `units_toFloat` and `units_ofSignedWord` for conversions of words, and `units_trunc` for
whole parts.  A product is no number only if a factor is none or if an infinity meets a zero
(`isNaN_mul_iff`).
-/

namespace InlinePolicy.Binary64

open Float.Model
open Float.Model.UnpackedFloat (Sign Accuracy ExtendedMantissa roundWithAccuracy shiftToExponent
  shiftToTargetExponent decreaseExponent)

/-! ## Shifting mantissas -/

/-- The bits that a shift leaves behind compare the rest to a half. -/
theorem repeat_shiftRightOne (m k : ℕ) :
    (k.repeat ExtendedMantissa.shiftRightOne ⟨m, false, false⟩).mantissa = m / 2 ^ k ∧
    ((k.repeat ExtendedMantissa.shiftRightOne ⟨m, false, false⟩).roundBit = true ↔
      2 ^ k ≤ 2 * (m % 2 ^ k)) ∧
    ((k.repeat ExtendedMantissa.shiftRightOne ⟨m, false, false⟩).stickyBit = true ↔
      2 * (m % 2 ^ k) % 2 ^ k ≠ 0) := by
  induction k with
  | zero => simp [Nat.repeat, Nat.mod_one]
  | succ k ih =>
    obtain ⟨mantissa, roundBit, stickyBit⟩ := ih
    have rest : m % 2 ^ (k + 1) = m % 2 ^ k + 2 ^ k * (m / 2 ^ k % 2) := by
      rw [pow_succ, Nat.mod_mul]
    have small : m % 2 ^ k < 2 ^ k := Nat.mod_lt _ (Nat.two_pow_pos k)
    have double : 2 ^ (k + 1) = 2 * 2 ^ k := by ring
    simp only [Nat.repeat, ExtendedMantissa.shiftRightOne, mantissa, Bool.or_eq_true, roundBit,
      stickyBit, bne_iff_ne, rest]
    refine ⟨by rw [Nat.div_div_eq_div_mul, pow_succ], ?_, ?_⟩
    · rcases Nat.mod_two_eq_zero_or_one (m / 2 ^ k) with even | odd
      · simp only [even]
        omega
      · simp only [odd]
        omega
    · have whole : 2 * (m % 2 ^ k + 2 ^ k * (m / 2 ^ k % 2)) % 2 ^ (k + 1) = 2 * (m % 2 ^ k) := by
        rw [double, Nat.mul_mod_mul_left, Nat.add_mul_mod_self_left, Nat.mod_eq_of_lt small]
      rw [whole]
      by_cases half : 2 ^ k ≤ 2 * (m % 2 ^ k)
      · have := Nat.two_pow_pos k
        exact iff_of_true (Or.inl half) (by omega)
      · have : 2 * (m % 2 ^ k) % 2 ^ k = 2 * (m % 2 ^ k) := Nat.mod_eq_of_lt (by omega)
        rw [this]
        omega

theorem roundedMantissa_repeat_shiftRightOne (m k : ℕ) :
    (k.repeat ExtendedMantissa.shiftRightOne ⟨m, false, false⟩).roundedMantissa =
      nearest m k := by
  obtain ⟨mantissa, roundBit, stickyBit⟩ := repeat_shiftRightOne m k
  have pos := Nat.two_pow_pos k
  have small : m % 2 ^ k < 2 ^ k := Nat.mod_lt _ pos
  rw [nearest_eq]
  generalize k.repeat ExtendedMantissa.shiftRightOne ⟨m, false, false⟩ = shifted at *
  obtain ⟨quotient, half, rest⟩ := shifted
  dsimp only at mantissa roundBit stickyBit
  subst mantissa
  unfold ExtendedMantissa.roundedMantissa
  cases half
  · -- less than a half is left, whatever the rest
    simp only [Bool.false_eq_true, false_iff, not_le] at roundBit
    rw [if_neg (by omega)]
    cases rest <;> rfl
  · simp only [true_iff] at roundBit
    cases rest
    · simp only [Bool.false_eq_true, false_iff, not_not] at stickyBit
      have tie : 2 * (m % 2 ^ k) = 2 ^ k := by
        rw [Nat.mod_eq_sub_mod roundBit, Nat.mod_eq_of_lt (by omega)] at stickyBit
        omega
      rw [tie]
      simp only [ExtendedMantissa.accuracy, Accuracy.roundToNearestEven]
      split_ifs <;> omega
    · simp only [true_iff] at stickyBit
      have above : 2 ^ k < 2 * (m % 2 ^ k) := by
        rcases roundBit.eq_or_lt with tie | above
        · rw [← tie, Nat.mod_self] at stickyBit
          exact absurd rfl stickyBit
        · exact above
      rw [if_pos (by omega)]
      rfl

/-! ## Rounding mantissas -/

theorem targetExponent_eq (m : ℕ) (e : ℤ) :
    Format.binary64.targetExponent (totalExponent m e) = max (m.log2 + e - 52) (-1074) := by
  have bits : (Format.binary64.mantissaBits : ℤ) = 53 := rfl
  have least : Format.binary64.minExponent = -1074 := rfl
  rw [Format.targetExponent, totalExponent, bits, least]
  congr 1
  ring

theorem shiftToTargetExponent_exact {m : ℕ} {e t : ℤ}
    (target : t = max (m.log2 + e - 52) (-1074)) :
    shiftToTargetExponent .binary64 m e .exact =
      ((t - e).toNat.repeat ExtendedMantissa.shiftRightOne ⟨m, false, false⟩,
        e + (t - e).toNat) := by
  rw [shiftToTargetExponent, targetExponent_eq, ← target]
  rfl

/-- A float from a mantissa that rounding may have carried to `2 ^ 53`. -/
def carry (s : Sign) (r : ℕ) (t : ℤ) : UnpackedFloat :=
  if h : r = 0 then .zero s
  else if r < 2 ^ 53 then .finite s r t (Nat.pos_of_ne_zero h)
  else .finite s (2 ^ 52) (t + 1) (Nat.two_pow_pos 52)

theorem roundWithAccuracy_exact {s : Sign} {m : ℕ} {e t : ℤ}
    (target : t = max (m.log2 + e - 52) (-1074)) (le : e ≤ t) :
    roundWithAccuracy .binary64 s m e .exact = carry s (nearest m (t - e).toNat) t := by
  have exponent : e + (t - e).toNat = t := by omega
  have upper : nearest m (t - e).toNat ≤ 2 ^ 53 := by
    apply nearest_le_of_le_mul
    rw [← pow_add]
    exact Nat.lt_log2_self.le.trans (Nat.pow_le_pow_right (by omega) (by omega))
  rw [roundWithAccuracy, shiftToTargetExponent_exact target]
  dsimp only
  rw [exponent, roundedMantissa_repeat_shiftRightOne]
  generalize nearest m (t - e).toNat = r at upper ⊢
  rcases upper.eq_or_lt with rfl | small
  · -- the carry makes one bit too many, which is cut off again
    have above : t + 1 = max (((2 ^ 53 : ℕ).log2 : ℤ) + t - 52) (-1074) := by
      rw [Nat.log2_two_pow]
      omega
    rw [shiftToTargetExponent_exact above, show t + 1 - t = 1 by ring]
    rfl
  · have bits : r.log2 ≤ 52 := by
      rcases Nat.eq_zero_or_pos r with rfl | pos
      · simp
      · exact Nat.le_of_lt_succ ((Nat.log2_lt pos.ne').2 small)
    have same : max ((r.log2 : ℤ) + t - 52) (-1074) ≤ t := by omega
    have none : (max ((r.log2 : ℤ) + t - 52) (-1074) - t).toNat = 0 := by omega
    rw [shiftToTargetExponent_exact rfl, none]
    simp only [Nat.repeat, carry, small, if_true, Nat.cast_zero, add_zero]

/-! ## Packing results -/

theorem isNaN_unpack_pack (x : UnpackedFloat) :
    (UnpackedFloat.unpack .binary64 (UnpackedFloat.pack .binary64 x)).isNaN = x.isNaN := by
  cases x with
  | notANumber => rfl
  | infinity s => cases s <;> rfl
  | zero s => cases s <;> rfl
  | finite s m e pos =>
    simp only [UnpackedFloat.pack]
    split_ifs with large normal
    · cases s <;> rfl
    · have : BitVec.ofNat 11 (e + Format.binary64.exponentBias + (52 : ℕ)).toNat ≠ -1#11 := by
        intro eq
        have := congrArg BitVec.toNat eq
        rw [BitVec.toNat_ofNat, show (-1#11).toNat = 2047 from rfl] at this
        omega
      rw [unpack_packComponents, if_neg this]
      split_ifs <;> rfl
    · rw [unpack_packComponents, if_neg (by decide), if_pos rfl]
      split_ifs <;> rfl

theorem apply_saturate_zero (s : Sign) : s.apply (saturate 0) = 0 := by
  rw [saturate_of_lt overflow_pos]
  cases s <;> rfl

theorem unpackedUnits_pack_finite {s : Sign} {m : ℕ} {e : ℤ} {pos : 0 < m} (upper : m < 2 ^ 53)
    (least : -1074 ≤ e) (normal : 2 ^ 52 ≤ m ∨ e = -1074) :
    unpackedUnits (UnpackedFloat.unpack .binary64 (UnpackedFloat.pack .binary64
        (.finite s m e pos))) =
      s.apply (saturate (m * 2 ^ (e + 1074).toNat)) := by
  rcases le_or_gt e 971 with small | large
  · have canonical : Canonical (.finite s m e pos) := ⟨upper, least, small, normal⟩
    rw [unpack_pack_of_canonical canonical, saturate_of_lt (magnitude_lt_overflow upper small)]
    rfl
  · have overflows : overflow ≤ m * 2 ^ (e + 1074).toNat := by
      have := unitBits_eq
      calc overflow = 2 ^ (52 + (972 + unitBits)) := by rw [overflow, ← add_assoc]
        _ = 2 ^ 52 * 2 ^ (972 + unitBits) := pow_add _ _ _
        _ ≤ m * 2 ^ (e + 1074).toNat :=
            Nat.mul_le_mul (by omega) (Nat.pow_le_pow_right (by omega) (by omega))
    rw [unpack_pack_of_large (by omega), saturate_of_le overflows]
    rfl

theorem unpackedUnits_pack_carry {s : Sign} {r : ℕ} {t : ℤ} (upper : r ≤ 2 ^ 53)
    (least : -1074 ≤ t) (normal : 2 ^ 52 ≤ r ∨ t = -1074) :
    unpackedUnits (UnpackedFloat.unpack .binary64 (UnpackedFloat.pack .binary64 (carry s r t))) =
      s.apply (saturate (r * 2 ^ (t + 1074).toNat)) := by
  unfold carry
  split_ifs with zero small
  · rw [zero, zero_mul, apply_saturate_zero]
    cases s <;> rfl
  · exact unpackedUnits_pack_finite small least normal
  · have power : (t + 1 + 1074).toNat = (t + 1074).toNat + 1 := by omega
    rw [unpackedUnits_pack_finite (by norm_num) (by omega) (Or.inl le_rfl), power,
      show r = 2 ^ 53 by omega]
    congr 3
    ring

/-- Rounding a mantissa is rounding in units. -/
theorem unpackedUnits_roundWithAccuracy {s : Sign} {m : ℕ} {e : ℤ} (u : ℕ) (pos : 0 < m)
    (le : e ≤ max (m.log2 + e - 52) (-1074)) (fits : 0 ≤ e + 1074 + u) :
    unpackedUnits (UnpackedFloat.unpack .binary64 (UnpackedFloat.pack .binary64
        (roundWithAccuracy .binary64 s m e .exact))) =
      s.apply (saturate (rounded u (m * 2 ^ (e + 1074 + u).toNat))) := by
  obtain ⟨t, target⟩ : ∃ t : ℤ, t = max (m.log2 + e - 52) (-1074) := ⟨_, rfl⟩
  rw [← target] at le
  have cuts : cut u (m * 2 ^ (e + 1074 + u).toNat) = (t - e).toNat + (e + 1074 + u).toNat := by
    unfold cut
    rw [log2_mul_two_pow pos]
    omega
  have whole : nearest (m * 2 ^ (e + 1074 + u).toNat) (cut u (m * 2 ^ (e + 1074 + u).toNat)) =
      nearest m (t - e).toNat := by
    rw [cuts, nearest_mul_two_pow]
  have upper := nearest_cut_le u (m * 2 ^ (e + 1074 + u).toNat)
  have normal : 2 ^ 52 ≤ nearest m (t - e).toNat ∨ t = -1074 := by
    by_cases least : t = -1074
    · exact Or.inr least
    · rw [← whole]
      exact Or.inl (le_nearest_cut (by omega))
  rw [whole] at upper
  have power : cut u (m * 2 ^ (e + 1074 + u).toNat) - u = (t + 1074).toNat := by omega
  rw [roundWithAccuracy_exact target le, unpackedUnits_pack_carry upper (by omega) normal,
    rounded, whole, power]

/-! ## Rounding in units -/

theorem round_apply (u n : ℕ) (s : Sign) :
    round u (s.apply n) = s.apply (saturate (rounded u n)) := by
  cases s <;> simp [Sign.apply]

/-- A number in canonical form is rounded to itself. -/
theorem round_unpackedUnits {x : UnpackedFloat} (h : Canonical x) :
    round 0 (unpackedUnits x) = unpackedUnits x := by
  cases x with
  | notANumber | zero s => exact round_zero 0
  | infinity s =>
    have large : overflow ≤ rounded 0 infinity :=
      overflow_le_rounded (by simpa using overflow_le_infinity)
    rw [unpackedUnits_infinity, round_apply, saturate_of_le large]
  | finite s m e pos =>
    have bound := magnitude_lt_overflow h.1 h.2.2.1
    rw [unpackedUnits, round_apply, rounded_mul_two_pow h.1 (Nat.zero_le _), Nat.sub_zero,
      saturate_of_lt bound]

theorem round_units (x : Float) : round 0 (units x) = units x :=
  round_unpackedUnits (canonical_unpack_toModel x)

/-! ## Products -/

theorem apply_mul_apply (s t : Sign) (m n : ℕ) :
    s.apply m * t.apply n = (s * t).apply (m * n : ℕ) := by
  cases s <;> cases t
  · show -(m : ℤ) * -(n : ℤ) = (m * n : ℕ)
    push_cast
    ring
  · show -(m : ℤ) * (n : ℤ) = -(m * n : ℕ)
    push_cast
    ring
  · show (m : ℤ) * -(n : ℤ) = -(m * n : ℕ)
    push_cast
    ring
  · show (m : ℤ) * (n : ℤ) = (m * n : ℕ)
    push_cast
    rfl

theorem mul_comm_sign (s t : Sign) : s * t = t * s := by
  cases s <;> cases t <;> rfl

theorem round_infinity_mul (s t : Sign) {m : ℕ} (pos : 0 < m) :
    round unitBits (s.apply infinity * t.apply m) = (s * t).apply infinity := by
  have large : overflow * 2 ^ unitBits ≤ infinity * m := Nat.le_mul_of_pos_right _ pos
  rw [apply_mul_apply, round_apply, saturate_of_le (overflow_le_rounded large)]

theorem mantissas_le_target {m n : ℕ} {d e : ℤ} (posX : 0 < m) (posY : 0 < n)
    (normalX : 2 ^ 52 ≤ m ∨ d = -1074) (normalY : 2 ^ 52 ≤ n ∨ e = -1074) :
    d + e ≤ max (((m * n).log2 : ℤ) + (d + e) - 52) (-1074) := by
  by_cases normal : 2 ^ 52 ≤ m * n
  · have : 52 ≤ (m * n).log2 := (Nat.le_log2 (Nat.mul_pos posX posY).ne').2 normal
    omega
  · have smallX : m < 2 ^ 52 := (Nat.le_mul_of_pos_right m posY).trans_lt (by omega)
    have smallY : n < 2 ^ 52 := (Nat.le_mul_of_pos_left n posX).trans_lt (by omega)
    omega

theorem unpackedUnits_pack_infinity (s : Sign) :
    unpackedUnits (UnpackedFloat.unpack .binary64 (UnpackedFloat.pack .binary64
        (.infinity s))) = s.apply infinity := by
  rw [unpack_pack_of_canonical (show Canonical (.infinity s) from trivial),
    unpackedUnits_infinity]

theorem unpackedUnits_pack_zero (s : Sign) :
    unpackedUnits (UnpackedFloat.unpack .binary64 (UnpackedFloat.pack .binary64
        (.zero s))) = 0 :=
  congrArg unpackedUnits (unpack_pack_of_canonical (x := .zero s) trivial)

theorem unpackedUnits_mul_finite {s t : Sign} {m n : ℕ} {d e : ℤ} {posX : 0 < m} {posY : 0 < n}
    (hx : Canonical (.finite s m d posX)) (hy : Canonical (.finite t n e posY)) :
    unpackedUnits (UnpackedFloat.unpack .binary64 (UnpackedFloat.pack .binary64
        (UnpackedFloat.mul .binary64 (.finite s m d posX) (.finite t n e posY)))) =
      round unitBits
        (unpackedUnits (.finite s m d posX) * unpackedUnits (.finite t n e posY)) := by
  obtain ⟨-, leastX, -, normalX⟩ := hx
  obtain ⟨-, leastY, -, normalY⟩ := hy
  have bits := unitBits_eq
  have exponents : (d + e + 1074 + unitBits).toNat =
      (d + 1074).toNat + (e + 1074).toNat := by omega
  have target := mantissas_le_target posX posY normalX normalY
  have product : m * n * (2 ^ (d + 1074).toNat * 2 ^ (e + 1074).toNat) =
      m * 2 ^ (d + 1074).toNat * (n * 2 ^ (e + 1074).toNat) := by ring
  refine (unpackedUnits_roundWithAccuracy unitBits (Nat.mul_pos posX posY) target
    (by omega)).trans ?_
  simp only [unpackedUnits]
  rw [apply_mul_apply, round_apply, exponents, pow_add, product]

/-- A product is the exact product, rounded. -/
theorem unpackedUnits_mul {x y : UnpackedFloat} (hx : Canonical x) (hy : Canonical y)
    (number : (UnpackedFloat.mul .binary64 x y).isNaN = false) :
    unpackedUnits (UnpackedFloat.unpack .binary64 (UnpackedFloat.pack .binary64
        (UnpackedFloat.mul .binary64 x y))) =
      round unitBits (unpackedUnits x * unpackedUnits y) := by
  have zero (t : Sign) : unpackedUnits (.zero t) = 0 := rfl
  cases x with
  | notANumber => cases number
  | infinity s =>
    cases y with
    | notANumber | zero t => cases number
    | infinity t =>
      exact (unpackedUnits_pack_infinity _).trans (round_infinity_mul s t infinity_pos).symm
    | finite t n e pos =>
      exact (unpackedUnits_pack_infinity _).trans
        (round_infinity_mul s t (magnitude_pos e pos)).symm
  | zero s =>
    rw [zero, zero_mul, round_zero]
    cases y with
    | notANumber | infinity t => cases number
    | zero t | finite t n e pos => exact unpackedUnits_pack_zero _
  | finite s m d posX =>
    cases y with
    | notANumber => cases number
    | infinity t =>
      rw [mul_comm, unpackedUnits_infinity]
      refine Eq.trans ?_ (round_infinity_mul t s (magnitude_pos d posX)).symm
      rw [mul_comm_sign]
      exact unpackedUnits_pack_infinity _
    | zero t =>
      rw [zero, mul_zero, round_zero]
      exact unpackedUnits_pack_zero _
    | finite t n e posY => exact unpackedUnits_mul_finite hx hy

theorem unpackedUnits_infinity_ne_zero (s : Sign) : unpackedUnits (.infinity s) ≠ 0 := by
  have : (0 : ℤ) < infinity := Int.natCast_pos.2 infinity_pos
  cases s <;> simp only [unpackedUnits_infinity, Sign.apply] <;> omega

theorem unpackedUnits_finite_ne_zero (s : Sign) (m : ℕ) (e : ℤ) (pos : 0 < m) :
    unpackedUnits (.finite s m e pos) ≠ 0 := by
  have := magnitude_pos e pos
  cases s <;> simp only [unpackedUnits, Sign.apply] <;> omega

theorem isNaN_unpacked_mul_eq_false_iff (x y : UnpackedFloat) :
    (UnpackedFloat.mul .binary64 x y).isNaN = false ↔
      x.isNaN = false ∧ y.isNaN = false ∧ (x.isFinite = true ∨ unpackedUnits y ≠ 0) ∧
        (y.isFinite = true ∨ unpackedUnits x ≠ 0) := by
  have zero (s : Sign) : unpackedUnits (.zero s) = 0 := rfl
  have number (s : Sign) (m : ℕ) (e : ℤ) :
      (roundWithAccuracy .binary64 s m e .exact).isNaN = false := by
    unfold roundWithAccuracy
    dsimp only
    split_ifs <;> rfl
  cases x <;> cases y <;>
    simp [UnpackedFloat.mul, UnpackedFloat.isNaN, UnpackedFloat.isFinite, zero,
      unpackedUnits_infinity_ne_zero, unpackedUnits_finite_ne_zero]
  exact number _ _ _

theorem isNaN_mul_eq_false_iff {x y : Float} :
    (x * y).isNaN = false ↔
      x.isNaN = false ∧ y.isNaN = false ∧ (x.isFinite = true ∨ units y ≠ 0) ∧
        (y.isFinite = true ∨ units x ≠ 0) := by
  have packed : (x * y).isNaN =
      (UnpackedFloat.mul .binary64 x.toModel.unpack y.toModel.unpack).isNaN :=
    isNaN_unpack_pack _
  rw [packed]
  exact isNaN_unpacked_mul_eq_false_iff _ _

theorem units_mul {x y : Float} (number : (x * y).isNaN = false) :
    units (x * y) = round unitBits (units x * units y) := by
  have packed : (x * y).isNaN =
      (UnpackedFloat.mul .binary64 x.toModel.unpack y.toModel.unpack).isNaN :=
    isNaN_unpack_pack _
  rw [packed] at number
  exact unpackedUnits_mul (canonical_unpack_toModel x) (canonical_unpack_toModel y) number

theorem units_mul_mono {x y x' y' : Float} (number : (x * y).isNaN = false)
    (number' : (x' * y').isNaN = false) (h : units x * units y ≤ units x' * units y') :
    units (x * y) ≤ units (x' * y') := by
  rw [units_mul number, units_mul number']
  exact round_mono _ h

/-! ## Conversions -/

theorem unpackedUnits_round {s : Sign} {m : ℕ} {e : ℤ} (u : ℕ) (pos : 0 < m)
    (fits : 0 ≤ e + 1074 + u) :
    unpackedUnits (UnpackedFloat.unpack .binary64 (UnpackedFloat.pack .binary64
        (UnpackedFloat.round .binary64 s m e))) =
      s.apply (saturate (rounded u (m * 2 ^ (e + 1074 + u).toNat))) := by
  rw [UnpackedFloat.round, targetExponent_eq]
  obtain ⟨k, shift⟩ : ∃ k : ℕ, k = (e - max (m.log2 + e - 52) (-1074)).toNat := ⟨_, rfl⟩
  rw [decreaseExponent, ← shift, Nat.shiftLeft_eq]
  have bits := log2_mul_two_pow pos k
  have same : m * 2 ^ k * 2 ^ (e - k + 1074 + u).toNat = m * 2 ^ (e + 1074 + u).toNat := by
    rw [mul_assoc, ← pow_add]
    congr 2
    omega
  rw [← same]
  apply unpackedUnits_roundWithAccuracy u (Nat.mul_pos pos (Nat.two_pow_pos k))
  · rw [bits]
    omega
  · omega

theorem unpackedUnits_normalize (z : ℤ) {e : ℤ} (fits : -1074 ≤ e) :
    unpackedUnits (UnpackedFloat.unpack .binary64 (UnpackedFloat.pack .binary64
        (UnpackedFloat.normalize .binary64 z e .positive))) =
      round 0 (z * (2 ^ (e + 1074).toNat : ℕ)) := by
  have shift : (e + 1074 + (0 : ℕ)).toNat = (e + 1074).toNat := by rw [Nat.cast_zero, add_zero]
  unfold UnpackedFloat.normalize
  rcases lt_trichotomy z 0 with neg | rfl | pos
  · obtain ⟨n, rfl⟩ : ∃ n : ℕ, z = -n := ⟨z.natAbs, by omega⟩
    rw [compare_lt_iff_lt.2 neg, neg_neg, Int.toNat_natCast]
    refine (unpackedUnits_round 0 (by omega) (by omega)).trans ?_
    rw [shift, neg_mul, round_neg, ← Nat.cast_mul, round_natCast]
    rfl
  · rw [compare_eq_iff_eq.2 rfl, zero_mul, round_zero]
    exact unpackedUnits_pack_zero .positive
  · obtain ⟨n, rfl⟩ := Int.eq_ofNat_of_zero_le pos.le
    rw [compare_gt_iff_gt.2 pos, Int.toNat_natCast]
    refine (unpackedUnits_round 0 (by omega) (by omega)).trans ?_
    rw [shift, ← Nat.cast_mul, round_natCast]
    rfl

theorem isNaN_normalize (z e : ℤ) (s : Sign) :
    (UnpackedFloat.normalize .binary64 z e s).isNaN = false := by
  have number (s : Sign) (m : ℕ) (e : ℤ) :
      (UnpackedFloat.round .binary64 s m e).isNaN = false := by
    unfold UnpackedFloat.round roundWithAccuracy
    dsimp only
    split_ifs <;> rfl
  unfold UnpackedFloat.normalize
  split
  · exact number _ _ _
  · rfl
  · exact number _ _ _

theorem unpackedUnits_ofInt (z : ℤ) :
    unpackedUnits (UnpackedFloat.unpack .binary64 (UnpackedFloat.pack .binary64
        (UnpackedFloat.ofInt .binary64 z))) = round 0 (z * one) := by
  have power : ((0 : ℤ) + 1074).toNat = unitBits := by rw [unitBits_eq]; rfl
  rw [UnpackedFloat.ofInt, unpackedUnits_normalize z (by norm_num), power, one]

theorem units_toFloat (n : UInt64) : units n.toFloat = round 0 (n.toNat * one) :=
  unpackedUnits_ofInt n.toNat

theorem isNaN_toFloat (n : UInt64) : n.toFloat.isNaN = false :=
  (isNaN_unpack_pack _).trans (isNaN_normalize _ _ _)

theorem units_ofSignedWord (n : Int64) : units (ofSignedWord n) = round 0 (n.toInt * one) :=
  unpackedUnits_ofInt n.toInt

theorem isNaN_ofSignedWord (n : Int64) : (ofSignedWord n).isNaN = false :=
  (isNaN_unpack_pack _).trans (isNaN_normalize _ _ _)

end InlinePolicy.Binary64
