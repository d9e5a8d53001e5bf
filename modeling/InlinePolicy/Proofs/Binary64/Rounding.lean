import Mathlib.Algebra.Order.Group.Int
import Mathlib.Algebra.Order.Ring.Int
import Mathlib.Tactic.Linarith
import Mathlib.Tactic.Ring

/-!
# Rounding to 53 bits

A finite `Float` is a multiple of `2 ^ (-1074)`, so that its magnitude is a natural number of such
units.  Sums and conversions have an exact result in the same units, and products have one in units
of `2 ^ (-2148)`.  `rounded u n` is the magnitude, in units of `2 ^ (-1074)`, to which `n` units of
`2 ^ (-1074 - u)` are rounded: to 53 significant bits and to whole units, the nearest such number
and the even one of two.  The main statements say that rounding is monotone (`rounded_mono`) and
changes no number that fits already (`rounded_mul_two_pow`).

Magnitudes from `overflow` on are those of an infinity.  An infinity counts as `infinity` units, so
many that its product with the smallest positive number still overflows; `round` is the rounding of
signed numbers that follows this rule.
-/

namespace InlinePolicy.Binary64

/-! ## Rounding to a whole number -/

/-- `n / 2 ^ k`, rounded to the nearest whole number, and to the even one of two. -/
def nearest (n k : ℕ) : ℕ := (2 * n + (2 ^ k - 1) + n / 2 ^ k % 2) / 2 ^ (k + 1)

theorem nearest_mono {m n : ℕ} (k : ℕ) (h : m ≤ n) : nearest m k ≤ nearest n k := by
  apply Nat.div_le_div_right
  rcases h.eq_or_lt with rfl | lt
  · exact le_rfl
  · omega

theorem mul_two_pow_sub_one_add_div (a c j : ℕ) (hc : c ≤ 1) (ha : 0 < a) :
    (a * 2 ^ j - 1 + c) / 2 ^ j = a - 1 + c := by
  have pos : 0 < 2 ^ j := Nat.two_pow_pos j
  have split : a * 2 ^ j = (a - 1) * 2 ^ j + 2 ^ j := by
    rw [← Nat.succ_mul, Nat.succ_eq_add_one, Nat.sub_add_cancel ha]
  have sum : a * 2 ^ j - 1 + c = (2 ^ j - 1 + c) + (a - 1) * 2 ^ j := by omega
  rw [sum, Nat.add_mul_div_right _ _ pos, add_comm]
  congr 1
  obtain rfl | rfl : c = 0 ∨ c = 1 := by omega
  · exact Nat.div_eq_of_lt (by omega)
  · rw [Nat.sub_add_cancel pos, Nat.div_self pos]

/-- A power of two in the numerator cancels. -/
theorem nearest_mul_two_pow (n k j : ℕ) : nearest (n * 2 ^ j) (k + j) = nearest n k := by
  have quotient : n * 2 ^ j / 2 ^ (k + j) = n / 2 ^ k := by
    rw [pow_add, Nat.mul_div_mul_right _ _ (Nat.two_pow_pos j)]
  have pos : 0 < 2 ^ k := Nat.two_pow_pos k
  have pos' : 0 < 2 ^ (k + j) := Nat.two_pow_pos _
  have parity : n / 2 ^ k % 2 ≤ 1 := by omega
  have sum : 2 * (n * 2 ^ j) + (2 ^ (k + j) - 1) = (2 * n + 2 ^ k) * 2 ^ j - 1 := by
    have : 2 * (n * 2 ^ j) + 2 ^ (k + j) = (2 * n + 2 ^ k) * 2 ^ j := by ring
    omega
  unfold nearest
  rw [quotient, sum, show k + j + 1 = j + (k + 1) by ring, pow_add, ← Nat.div_div_eq_div_mul,
    mul_two_pow_sub_one_add_div _ _ _ parity (by omega)]
  congr 1
  omega

@[simp] theorem nearest_zero_right (n : ℕ) : nearest n 0 = n := by
  unfold nearest
  rw [pow_zero, Nat.div_one]
  omega

theorem nearest_two_pow_mul (n k : ℕ) : nearest (n * 2 ^ k) k = n := by
  simpa using nearest_mul_two_pow n 0 k

theorem nearest_le_of_le_mul {n m k : ℕ} (h : n ≤ m * 2 ^ k) : nearest n k ≤ m := by
  simpa [nearest_two_pow_mul] using nearest_mono k h

theorem le_nearest_of_mul_le {n m k : ℕ} (h : m * 2 ^ k ≤ n) : m ≤ nearest n k := by
  simpa [nearest_two_pow_mul] using nearest_mono k h

/-- The whole part goes up by one if the rest is more than a half, or a half that is odd. -/
theorem nearest_eq (n k : ℕ) :
    nearest n k =
      if 2 ^ k < 2 * (n % 2 ^ k) + n / 2 ^ k % 2 then n / 2 ^ k + 1 else n / 2 ^ k := by
  have pos : 0 < 2 ^ k := Nat.two_pow_pos k
  have rest : n % 2 ^ k < 2 ^ k := Nat.mod_lt n pos
  have whole := Nat.div_add_mod n (2 ^ k)
  have sum : 2 * n + (2 ^ k - 1) + n / 2 ^ k % 2 =
      (2 * (n % 2 ^ k) + (2 ^ k - 1) + n / 2 ^ k % 2) + n / 2 ^ k * 2 ^ (k + 1) := by
    rw [pow_succ]
    linarith
  have double : 2 ^ (k + 1) = 2 * 2 ^ k := by ring
  unfold nearest
  rw [sum, Nat.add_mul_div_right _ _ (Nat.two_pow_pos _)]
  split_ifs with up
  · have one : (2 * (n % 2 ^ k) + (2 ^ k - 1) + n / 2 ^ k % 2) / 2 ^ (k + 1) = 1 :=
      Nat.div_eq_of_lt_le (by omega) (by omega)
    rw [one, add_comm]
  · rw [Nat.div_eq_of_lt (by omega), zero_add]

/-! ## Rounding to 53 bits -/

/-- How many bits are cut off from `n` so that at most 53 stay, and at least `u`. -/
def cut (u n : ℕ) : ℕ := max (n.log2 - 52) u

/-- `n` units of `2 ^ (-1074 - u)`, rounded to at most 53 bits of units of `2 ^ (-1074)`. -/
def rounded (u n : ℕ) : ℕ := nearest n (cut u n) * 2 ^ (cut u n - u)

theorem le_cut (u n : ℕ) : u ≤ cut u n := le_max_right _ _

theorem log2_mono {m n : ℕ} (h : m ≤ n) : m.log2 ≤ n.log2 := by
  rcases Nat.eq_zero_or_pos m with rfl | pos
  · simp
  · exact (Nat.le_log2 (by omega)).2 ((Nat.log2_self_le (by omega)).trans h)

theorem lt_two_pow_cut (u n : ℕ) : n < 2 ^ 53 * 2 ^ cut u n := by
  have bits : n.log2 + 1 ≤ 53 + cut u n := by
    unfold cut
    omega
  rw [← pow_add]
  exact Nat.lt_log2_self.trans_le (Nat.pow_le_pow_right (by omega) bits)

theorem two_pow_cut_le {u n : ℕ} (h : u < cut u n) : 2 ^ 52 * 2 ^ cut u n ≤ n := by
  have bits : n.log2 = 52 + cut u n := by
    unfold cut at h ⊢
    omega
  have ne : n ≠ 0 := by
    rintro rfl
    simp at bits
    omega
  rw [← pow_add, ← bits]
  exact Nat.log2_self_le ne

theorem nearest_cut_le (u n : ℕ) : nearest n (cut u n) ≤ 2 ^ 53 :=
  nearest_le_of_le_mul (lt_two_pow_cut u n).le

theorem le_nearest_cut {u n : ℕ} (h : u < cut u n) : 2 ^ 52 ≤ nearest n (cut u n) :=
  le_nearest_of_mul_le (two_pow_cut_le h)

/-- Between numbers that lose differently many bits there is a power of two, which neither of them
crosses. -/
theorem rounded_mono {m n : ℕ} (u : ℕ) (h : m ≤ n) : rounded u m ≤ rounded u n := by
  have cuts : cut u m ≤ cut u n := by
    have := log2_mono h
    unfold cut
    omega
  rcases cuts.eq_or_lt with eq | lt
  · unfold rounded
    rw [eq]
    exact Nat.mul_le_mul_right _ (nearest_mono _ h)
  · have above : u < cut u n := (le_cut u m).trans_lt lt
    calc rounded u m ≤ 2 ^ 53 * 2 ^ (cut u m - u) :=
          Nat.mul_le_mul_right _ (nearest_cut_le u m)
      _ = 2 ^ 52 * 2 ^ (cut u m - u + 1) := by ring
      _ ≤ 2 ^ 52 * 2 ^ (cut u n - u) := by
          have := le_cut u m
          exact Nat.mul_le_mul_left _ (Nat.pow_le_pow_right (by omega) (by omega))
      _ ≤ rounded u n := Nat.mul_le_mul_right _ (le_nearest_cut above)

@[simp] theorem rounded_zero (u : ℕ) : rounded u 0 = 0 := by
  have zero : nearest 0 (cut u 0) = 0 := by simpa using nearest_two_pow_mul 0 (cut u 0)
  rw [rounded, zero, zero_mul]

theorem log2_mul_two_pow {m : ℕ} (pos : 0 < m) (j : ℕ) : (m * 2 ^ j).log2 = m.log2 + j := by
  have ne : m * 2 ^ j ≠ 0 := (Nat.mul_pos pos (Nat.two_pow_pos j)).ne'
  rw [Nat.log2_eq_iff ne, pow_add, show m.log2 + j + 1 = m.log2 + 1 + j by ring, pow_add]
  exact ⟨Nat.mul_le_mul_right _ (Nat.log2_self_le pos.ne'),
    Nat.mul_lt_mul_of_pos_right Nat.lt_log2_self (Nat.two_pow_pos j)⟩

/-- A whole number of units with at most 53 bits stays what it is. -/
theorem rounded_mul_two_pow {u m j : ℕ} (small : m < 2 ^ 53) (h : u ≤ j) :
    rounded u (m * 2 ^ j) = m * 2 ^ (j - u) := by
  rcases Nat.eq_zero_or_pos m with rfl | pos
  · simp
  have bits : m.log2 < 53 := (Nat.log2_lt pos.ne').2 small
  have le : cut u (m * 2 ^ j) ≤ j := by
    unfold cut
    rw [log2_mul_two_pow pos]
    omega
  have ge := le_cut u (m * 2 ^ j)
  unfold rounded
  generalize cut u (m * 2 ^ j) = k at le ge ⊢
  have power : 2 ^ j = 2 ^ (j - k) * 2 ^ k := by rw [← pow_add, Nat.sub_add_cancel le]
  rw [power, ← mul_assoc, nearest_two_pow_mul, mul_assoc, ← pow_add]
  congr 2
  omega

/-- Rounding does not depend on the unit that numbers are counted in. -/
theorem rounded_mul_unit (u n : ℕ) : rounded u (n * 2 ^ u) = rounded 0 n := by
  rcases Nat.eq_zero_or_pos n with rfl | pos
  · simp
  have bits : cut u (n * 2 ^ u) = cut 0 n + u := by
    unfold cut
    rw [log2_mul_two_pow pos]
    omega
  rw [rounded, rounded, bits, nearest_mul_two_pow, Nat.add_sub_cancel, Nat.sub_zero]

/-! ## Overflow and signs -/

/-- The smallest positive number is `2 ^ (-unitBits)`. -/
@[irreducible] def unitBits : ℕ := 1074

theorem unitBits_eq : unitBits = 1074 := by
  unfold unitBits
  rfl

/-- The number 1 in units. -/
def one : ℕ := 2 ^ unitBits

/-- `2 ^ 1024`, the least magnitude that overflows, in units. -/
def overflow : ℕ := 2 ^ (1024 + unitBits)

/-- As many units as an infinity counts for. -/
def infinity : ℕ := overflow * one

/-- The magnitude of a rounded result: from `overflow` on it is that of an infinity. -/
def saturate (n : ℕ) : ℕ := if n < overflow then n else infinity

/-- The rounding of a signed number of units of `2 ^ (-1074 - u)`. -/
def round (u : ℕ) (z : ℤ) : ℤ := z.sign * saturate (rounded u z.natAbs)

theorem one_pos : 0 < one := Nat.two_pow_pos _

theorem overflow_pos : 0 < overflow := Nat.two_pow_pos _

theorem overflow_le_infinity : overflow ≤ infinity := Nat.le_mul_of_pos_right _ one_pos

theorem infinity_pos : 0 < infinity := overflow_pos.trans_le overflow_le_infinity

theorem saturate_of_lt {n : ℕ} (h : n < overflow) : saturate n = n := if_pos h

theorem saturate_of_le {n : ℕ} (h : overflow ≤ n) : saturate n = infinity := if_neg h.not_gt

theorem saturate_mono {m n : ℕ} (h : m ≤ n) : saturate m ≤ saturate n := by
  rcases lt_or_ge n overflow with small | large
  · rwa [saturate_of_lt small, saturate_of_lt (h.trans_lt small)]
  · rw [saturate_of_le large]
    unfold saturate
    split_ifs with small
    · exact small.le.trans overflow_le_infinity
    · exact le_rfl

/-- Products with an infinity overflow, however small the other factor. -/
theorem overflow_le_rounded {u n : ℕ} (h : overflow * 2 ^ u ≤ n) : overflow ≤ rounded u n := by
  have exactly : rounded u (1 * 2 ^ (1024 + unitBits + u)) = overflow := by
    rw [rounded_mul_two_pow (by norm_num) (by omega), one_mul, Nat.add_sub_cancel, overflow]
  rw [← exactly]
  apply rounded_mono
  rwa [one_mul, pow_add]

@[simp] theorem round_natCast (u n : ℕ) : round u n = saturate (rounded u n) := by
  rcases Nat.eq_zero_or_pos n with rfl | pos
  · simp [round, saturate_of_lt overflow_pos]
  · rw [round, Int.sign_natCast_of_ne_zero pos.ne', one_mul, Int.natAbs_natCast]

@[simp] theorem round_zero (u : ℕ) : round u 0 = 0 := by
  rw [round, Int.sign_zero, zero_mul]

@[simp] theorem round_neg (u : ℕ) (z : ℤ) : round u (-z) = -round u z := by
  rw [round, round, Int.sign_neg, Int.natAbs_neg, neg_mul]

theorem round_mul_unit (u : ℕ) (z : ℤ) : round u (z * (2 ^ u : ℕ)) = round 0 z := by
  have sign : (z * (2 ^ u : ℕ)).sign = z.sign := by
    rw [Int.sign_mul, Int.sign_natCast_of_ne_zero (Nat.two_pow_pos u).ne', mul_one]
  rw [round, round, sign, Int.natAbs_mul, Int.natAbs_natCast, rounded_mul_unit]

theorem round_nonneg (u : ℕ) {z : ℤ} (h : 0 ≤ z) : 0 ≤ round u z := by
  obtain ⟨n, rfl⟩ := Int.eq_ofNat_of_zero_le h
  rw [round_natCast]
  exact Int.natCast_nonneg _

theorem round_mono_of_nonneg (u : ℕ) {y z : ℤ} (hy : 0 ≤ y) (h : y ≤ z) :
    round u y ≤ round u z := by
  obtain ⟨m, rfl⟩ := Int.eq_ofNat_of_zero_le hy
  obtain ⟨n, rfl⟩ := Int.eq_ofNat_of_zero_le (hy.trans h)
  rw [round_natCast, round_natCast]
  exact_mod_cast saturate_mono (rounded_mono u (by exact_mod_cast h))

theorem round_mono (u : ℕ) {y z : ℤ} (h : y ≤ z) : round u y ≤ round u z := by
  rcases le_total 0 y with hy | hy
  · exact round_mono_of_nonneg u hy h
  rcases le_total 0 z with hz | hz
  · have := round_nonneg u (neg_nonneg.2 hy)
    rw [round_neg] at this
    linarith [round_nonneg u hz]
  · have := round_mono_of_nonneg u (neg_nonneg.2 hz) (neg_le_neg h)
    rwa [round_neg, round_neg, neg_le_neg_iff] at this

end InlinePolicy.Binary64
