import InlinePolicy.Proofs.Binary64.Operations

/-!
# Sums

Adding a finite number gives the exact sum in units, rounded (`units_add`), also where it is added
to an infinity.  So a sum of finite numbers is a number (`isNaN_sum`), it is not negative if none
of them is (`sum_nonneg`), and it does not fall if one more number that is not negative is put
anywhere between them (`sum_le_sum_insert`).
-/

namespace InlinePolicy.Binary64

open Float.Model
open Float.Model.UnpackedFloat (Sign)

/-! ## One addition -/

/-- An infinity is so large that no finite number moves it below the overflow. -/
theorem round_infinity_add (s : Sign) {z : ℤ} (lower : -(overflow : ℤ) < z) (upper : z < overflow) :
    round 0 (s.apply infinity + z) = s.apply infinity := by
  have large : 2 * overflow ≤ infinity := by
    rw [infinity, mul_comm]
    refine Nat.mul_le_mul_left _ ?_
    rw [one]
    exact Nat.le_self_pow (by rw [unitBits_eq]; norm_num) 2
  have saturated {n : ℕ} (h : overflow ≤ n) : round 0 n = infinity := by
    rw [round_natCast, saturate_of_le (overflow_le_rounded (by simpa using h))]
  cases s with
  | positive =>
    obtain ⟨n, sum⟩ : ∃ n : ℕ, (infinity : ℤ) + z = n := ⟨(infinity + z).toNat, by omega⟩
    have reached : overflow ≤ n := by omega
    simp only [Sign.apply, sum]
    exact saturated reached
  | negative =>
    obtain ⟨n, sum⟩ : ∃ n : ℕ, -(infinity : ℤ) + z = -n := ⟨(infinity - z).toNat, by omega⟩
    have reached : overflow ≤ n := by omega
    simp only [Sign.apply, sum, round_neg]
    rw [saturated reached]

/-- A mantissa for a smaller exponent stands for the same number of units. -/
theorem apply_shiftLeft_mul (s : Sign) (m : ℕ) {e t : ℤ} (least : -1074 ≤ t) (le : t ≤ e) :
    s.apply (m <<< (e - t).toNat : ℕ) * (2 ^ (t + 1074).toNat : ℕ) =
      s.apply (m * 2 ^ (e + 1074).toNat : ℕ) := by
  have split : (e + 1074).toNat = (e - t).toNat + (t + 1074).toNat := by omega
  rw [Nat.shiftLeft_eq, split, pow_add, ← mul_assoc]
  cases s
  · exact (neg_mul _ _).trans (congrArg Neg.neg (Nat.cast_mul _ _).symm)
  · exact (Nat.cast_mul _ _).symm

theorem isNaN_unpacked_add {x y : UnpackedFloat} (number : x.isNaN = false)
    (finite : y.isFinite = true) : (UnpackedFloat.add .binary64 x y).isNaN = false := by
  cases y with
  | notANumber | infinity t => cases finite
  | zero t =>
    cases x with
    | notANumber => cases number
    | zero s => cases s <;> cases t <;> rfl
    | infinity s | finite s m d pos => rfl
  | finite t n e pos' =>
    cases x with
    | notANumber => cases number
    | zero s | infinity s => rfl
    | finite s m d pos => exact isNaN_normalize _ _ _

theorem unpackedUnits_add_finite {s t : Sign} {m n : ℕ} {d e : ℤ} {pos : 0 < m} {pos' : 0 < n}
    (least : -1074 ≤ d) (least' : -1074 ≤ e) :
    unpackedUnits (UnpackedFloat.unpack .binary64 (UnpackedFloat.pack .binary64
        (UnpackedFloat.add .binary64 (.finite s m d pos) (.finite t n e pos')))) =
      round 0 (unpackedUnits (.finite s m d pos) + unpackedUnits (.finite t n e pos')) := by
  have smaller : -1074 ≤ min d e := le_min least least'
  refine (unpackedUnits_normalize _ smaller).trans ?_
  rw [add_mul, apply_shiftLeft_mul s m smaller (min_le_left d e),
    apply_shiftLeft_mul t n smaller (min_le_right d e)]
  rfl

theorem unpackedUnits_add {x y : UnpackedFloat} (hx : Canonical x) (hy : Canonical y)
    (number : x.isNaN = false) (finite : y.isFinite = true) :
    unpackedUnits (UnpackedFloat.unpack .binary64 (UnpackedFloat.pack .binary64
        (UnpackedFloat.add .binary64 x y))) =
      round 0 (unpackedUnits x + unpackedUnits y) := by
  have packed {z : UnpackedFloat} (h : Canonical z) :
      unpackedUnits (UnpackedFloat.unpack .binary64 (UnpackedFloat.pack .binary64 z)) =
        round 0 (unpackedUnits z) := by
    rw [unpack_pack_of_canonical h, round_unpackedUnits h]
  have infinite (s : Sign) {z : ℤ} (lower : -(overflow : ℤ) < z) (upper : z < overflow) :
      unpackedUnits (UnpackedFloat.unpack .binary64 (UnpackedFloat.pack .binary64
          (.infinity s))) = round 0 (unpackedUnits (.infinity s) + z) := by
    rw [unpackedUnits_pack_infinity, unpackedUnits_infinity, round_infinity_add s lower upper]
  have large : (0 : ℤ) < overflow := by exact_mod_cast overflow_pos
  cases y with
  | notANumber | infinity t => cases finite
  | zero t =>
    rw [show unpackedUnits (.zero t) = 0 from rfl, add_zero]
    cases x with
    | notANumber => cases number
    | zero s => cases s <;> cases t <;> exact packed trivial
    | infinity s =>
      have same := infinite s (neg_lt_zero.2 large) large
      rwa [add_zero] at same
    | finite s m d pos => exact packed hx
  | finite t n e pos' =>
    cases x with
    | notANumber => cases number
    | zero s =>
      rw [show unpackedUnits (.zero s) = 0 from rfl, zero_add]
      exact packed hy
    | infinity s =>
      have bounds := unpackedUnits_finite_lt hy
      exact infinite s bounds.1 bounds.2
    | finite s m d pos => exact unpackedUnits_add_finite hx.2.1 hy.2.1

section

variable {x y z : Float}

theorem isNaN_add (number : x.isNaN = false) (finite : y.isFinite = true) :
    (x + y).isNaN = false :=
  (isNaN_unpack_pack _).trans (isNaN_unpacked_add number finite)

theorem units_add (number : x.isNaN = false) (finite : y.isFinite = true) :
    units (x + y) = round 0 (units x + units y) :=
  unpackedUnits_add (canonical_unpack_toModel x) (canonical_unpack_toModel y) number finite

theorem units_add_mono (number : x.isNaN = false) (number' : z.isNaN = false)
    (finite : y.isFinite = true) (h : units x ≤ units z) : units (x + y) ≤ units (z + y) := by
  rw [units_add number finite, units_add number' finite]
  exact round_mono 0 (by omega)

/-- A number that is not negative makes no sum smaller. -/
theorem units_le_units_add (number : x.isNaN = false) (finite : y.isFinite = true)
    (nonneg : 0 ≤ units y) : units x ≤ units (x + y) := by
  rw [units_add number finite]
  calc units x = round 0 (units x) := (round_units x).symm
    _ ≤ round 0 (units x + units y) := round_mono 0 (by omega)

end

/-! ## Sums of lists -/

section

variable {start start' : Float} {xs : List Float}

theorem isNaN_foldl_add (number : start.isNaN = false) (finite : ∀ x ∈ xs, x.isFinite = true) :
    (xs.foldl (· + ·) start).isNaN = false := by
  induction xs generalizing start with
  | nil => exact number
  | cons x xs ih =>
    obtain ⟨first, others⟩ := List.forall_mem_cons.1 finite
    exact ih (isNaN_add number first) others

theorem units_foldl_add_mono (number : start.isNaN = false) (number' : start'.isNaN = false)
    (finite : ∀ x ∈ xs, x.isFinite = true) (h : units start ≤ units start') :
    units (xs.foldl (· + ·) start) ≤ units (xs.foldl (· + ·) start') := by
  induction xs generalizing start start' with
  | nil => exact h
  | cons x xs ih =>
    obtain ⟨first, others⟩ := List.forall_mem_cons.1 finite
    exact ih (isNaN_add number first) (isNaN_add number' first) others
      (units_add_mono number number' first h)

theorem units_foldl_add_nonneg (number : start.isNaN = false)
    (finite : ∀ x ∈ xs, x.isFinite = true) (nonneg : ∀ x ∈ xs, 0 ≤ units x)
    (h : 0 ≤ units start) : 0 ≤ units (xs.foldl (· + ·) start) := by
  induction xs generalizing start with
  | nil => exact h
  | cons x xs ih =>
    obtain ⟨first, others⟩ := List.forall_mem_cons.1 finite
    obtain ⟨first_nonneg, others_nonneg⟩ := List.forall_mem_cons.1 nonneg
    exact ih (isNaN_add number first) others others_nonneg
      (h.trans (units_le_units_add number first first_nonneg))

end

section

variable {xs before after : List Float} {x : Float}

theorem isNaN_sum (finite : ∀ x ∈ xs, x.isFinite = true) : (sum xs).isNaN = false :=
  isNaN_foldl_add rfl finite

theorem sum_nonneg (finite : ∀ x ∈ xs, x.isFinite = true) (nonneg : ∀ x ∈ xs, 0.0 ≤ x) :
    0.0 ≤ sum xs :=
  zero_le_iff.2 ⟨isNaN_sum finite, units_foldl_add_nonneg rfl finite
    (fun x mem => (zero_le_iff.1 (nonneg x mem)).2) le_rfl⟩

/-- Every partial sum from the new number on is at least the one without it. -/
theorem sum_le_sum_insert (finite : ∀ y ∈ before ++ x :: after, y.isFinite = true)
    (nonneg : 0.0 ≤ x) : sum (before ++ after) ≤ sum (before ++ x :: after) := by
  obtain ⟨finite_before, finite_rest⟩ := List.forall_mem_append.1 finite
  obtain ⟨finite_x, finite_after⟩ := List.forall_mem_cons.1 finite_rest
  have start : (sum before).isNaN = false := isNaN_sum finite_before
  have grows := units_le_units_add start finite_x (zero_le_iff.1 nonneg).2
  refine le_iff.2 ⟨isNaN_sum (List.forall_mem_append.2 ⟨finite_before, finite_after⟩),
    isNaN_sum finite, ?_⟩
  rw [sum, sum, List.foldl_append, List.foldl_append]
  exact units_foldl_add_mono start (isNaN_add start finite_x) finite_after grows

end

end InlinePolicy.Binary64
