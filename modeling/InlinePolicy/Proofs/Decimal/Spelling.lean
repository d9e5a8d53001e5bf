import Mathlib
import InlinePolicy.Json.Printer
import InlinePolicy.Json.Token
import InlinePolicy.Proofs.Decimal.Shortest

/-!
# Spelled numbers

`Literal.text` spells a literal, and a literal with a proper spelling is what is read from it
(`scanNumber_text`).
-/

namespace InlinePolicy.Decimal

/-! ## Digits -/

/-- Digits are split off where no further digit follows. -/
theorem spanDigits_of_digits {digits rest : List Char} (all : ∀ c ∈ digits, c.isDigit = true)
    (ends : ∀ c ∈ rest.head?, c.isDigit = false) :
    spanDigits (digits ++ rest) = (digits, rest) := by
  have none : rest.takeWhile Char.isDigit = [] ∧ rest.dropWhile Char.isDigit = rest := by
    cases rest with
    | nil => exact ⟨rfl, rfl⟩
    | cons c rest =>
      have stop := ends c rfl
      exact ⟨List.takeWhile_cons_of_neg (by simp [stop]),
        List.dropWhile_cons_of_neg (by simp [stop])⟩
  rw [spanDigits, List.takeWhile_append_of_pos all, List.dropWhile_append_of_pos all, none.1,
    none.2, List.append_nil]

theorem digitChars_ne_nil (n : ℕ) : digitChars n ≠ [] := Nat.toDigits_ne_nil

/-- Only zero starts with the digit zero. -/
theorem head?_digitChars {n : ℕ} (pos : 0 < n) : (digitChars n).head? ≠ some '0' := by
  induction n using Nat.strong_induction_on with
  | h n ih =>
    unfold digitChars
    rw [Nat.toDigits_eq_if (by norm_num)]
    split_ifs with small
    · interval_cases n <;> decide
    · have shorter := ih (n / 10) (Nat.div_lt_self pos (by norm_num)) (by omega)
      exact (List.head?_append_of_ne_nil _ (digitChars_ne_nil (n / 10))).trans_ne shorter

/-! ## Literals -/

/-- The spelling of a power of ten. -/
def powerText : Option ℤ → List Char
  | none => []
  | some power => 'e' :: (if power < 0 then '-' else '+') :: digitChars power.natAbs

/-- The spelling of the digits behind the point. -/
def fractionText : List Char → List Char
  | [] => []
  | place :: places => '.' :: place :: places

/-- The spelling of a literal without its sign. -/
def Literal.text (l : Literal) : List Char :=
  l.whole ++ (fractionText l.fraction ++ powerText l.exponent)

/-- A literal that has a spelling: its parts are digits, at least one of them before the point, and
a zero in front only if it is the only one there. -/
structure Literal.Spelled (l : Literal) : Prop where
  nonempty : l.whole ≠ []
  whole : ∀ c ∈ l.whole, c.isDigit = true
  fraction : ∀ c ∈ l.fraction, c.isDigit = true
  leading : l.whole.head? = some '0' → l.whole = ['0']

/-- A text that does not go on with a number. -/
def EndsNumber (rest : List Char) : Prop :=
  ∀ c ∈ rest.head?, c.isDigit = false ∧ c ≠ '.' ∧ c ≠ 'e' ∧ c ≠ 'E'

theorem scanPower_append (negated : Bool) (n : ℕ) {rest : List Char}
    (ends : ∀ c ∈ rest.head?, c.isDigit = false) :
    scanPower negated (digitChars n ++ rest) = some (if negated then -(n : ℤ) else n, rest) := by
  unfold scanPower
  rw [spanDigits_of_digits (fun c => isDigit_of_mem_digitChars) ends]
  dsimp only
  rw [if_neg (by simpa using digitChars_ne_nil n), ofDigitChars_digitChars]

theorem scanExponent_of_ends {rest : List Char} (ends : EndsNumber rest) :
    scanExponent rest = some (none, rest) := by
  cases rest with
  | nil => rfl
  | cons c rest =>
    obtain ⟨-, -, small, large⟩ := ends c rfl
    exact if_neg (by simp [small, large])

theorem scanExponent_powerText (power : Option ℤ) {rest : List Char} (ends : EndsNumber rest) :
    scanExponent (powerText power ++ rest) = some (power, rest) := by
  cases power with
  | none => exact scanExponent_of_ends ends
  | some power =>
    have digits (negated : Bool) := scanPower_append negated power.natAbs
      fun c mem => (ends c mem).1
    unfold powerText scanExponent
    by_cases negative : power < 0
    · have value : -|power| = power := by rw [abs_of_neg negative, neg_neg]
      simp [negative, digits, value]
    · have value : |power| = power := abs_of_nonneg (not_lt.1 negative)
      simp [negative, digits, value]

theorem endsDigits_powerText (power : Option ℤ) {rest : List Char} (ends : EndsNumber rest) :
    ∀ c ∈ (powerText power ++ rest).head?, c.isDigit = false ∧ c ≠ '.' := by
  cases power with
  | none => exact fun c mem => ⟨(ends c mem).1, (ends c mem).2.1⟩
  | some power =>
    rintro c mem
    obtain rfl : 'e' = c := Option.some.inj mem
    decide

/-- A spelled literal is read back, up to where the number ends. -/
theorem scanNumber_text {l : Literal} (spelled : l.Spelled) {rest : List Char}
    (ends : EndsNumber rest) : Json.scanNumber l.negative (l.text ++ rest) = some (l, rest) := by
  obtain ⟨negative, whole, fraction, power⟩ := l
  obtain ⟨nonempty, digits, fractions, leading⟩ := spelled
  dsimp only at nonempty digits fractions leading
  have proper : ¬ (whole.isEmpty = true ∨ whole.head? = some '0' ∧ whole ≠ ['0']) := by
    rintro (empty | ⟨zero, more⟩)
    · exact nonempty (List.isEmpty_iff.1 empty)
    · exact more (leading zero)
  have behind := endsDigits_powerText power ends
  have exponent := scanExponent_powerText power ends
  unfold Json.scanNumber Literal.text
  dsimp only
  rw [List.append_assoc, List.append_assoc]
  generalize powerText power ++ rest = tail at behind exponent ⊢
  cases fraction with
  | nil =>
    rw [fractionText, List.nil_append, spanDigits_of_digits digits fun c mem => (behind c mem).1]
    dsimp only
    rw [if_neg proper]
    split
    · exact absurd rfl (behind '.' rfl).2
    · rw [exponent]
  | cons place places =>
    rw [fractionText, List.cons_append, spanDigits_of_digits digits (by simp)]
    dsimp only
    rw [if_neg proper]
    split
    case h_1 others point =>
      cases point
      rw [spanDigits_of_digits fractions fun c mem => (behind c mem).1]
      dsimp only
      rw [if_neg (by simp), exponent]
    case h_2 other => exact absurd rfl (other _)

/-! ## Written decimals -/

theorem ofDigitChars_zeros (n : ℕ) (digits : List Char) :
    ofDigitChars (List.replicate n '0' ++ digits) = ofDigitChars digits := by
  unfold ofDigitChars
  rw [Nat.ofDigitChars_append, Nat.ofDigitChars_replicate_zero, mul_zero]

theorem isDigit_of_mem_zeros {n : ℕ} {c : Char} (h : c ∈ List.replicate n '0') :
    c.isDigit = true := by
  rw [List.eq_of_mem_replicate h]
  rfl

/-- The digits of a whole number, without a sign. -/
theorem spelled_whole (negative : Bool) (n : ℕ) :
    Literal.Spelled ⟨negative, digitChars n, [], none⟩ where
  nonempty := digitChars_ne_nil n
  whole c := isDigit_of_mem_digitChars
  fraction c mem := by cases mem
  leading zero := by
    rcases Nat.eq_zero_or_pos n with rfl | pos
    · rfl
    · exact absurd zero (head?_digitChars pos)

/-- A literal that a decimal is written as.  It is no whole number: it has a point or an
exponent. -/
structure WrittenAs (d : Decimal) (text : List Char) (l : Literal) : Prop where
  text : text = l.text
  spelled : l.Spelled
  value : l.magnitude.toFloat = d.toFloat
  real : l.fraction ≠ [] ∨ l.exponent ≠ none

variable (negative : Bool) {d : Decimal}

theorem writtenAs_scientific (d : Decimal) :
    WrittenAs d (writeScientific d)
      ⟨negative, (digitChars d.digits).take 1, (digitChars d.digits).drop 1,
        some (d.exponent + (digitChars d.digits).length - 1)⟩ := by
  have same := ofDigitChars_digitChars d.digits
  have digits (c) : c ∈ digitChars d.digits → c.isDigit = true := isDigit_of_mem_digitChars
  unfold writeScientific
  cases h : digitChars d.digits with
  | nil => exact absurd h (digitChars_ne_nil d.digits)
  | cons digit places =>
    rw [h] at same digits
    have power : d.exponent + ((digit :: places).length : ℤ) - 1 - places.length = d.exponent := by
      rw [List.length_cons]
      push_cast
      ring
    have magnitude : Literal.magnitude ⟨negative, [digit], places,
        some (d.exponent + (digit :: places).length - 1)⟩ = d := by
      rw [Literal.magnitude, Option.getD_some, power, List.singleton_append, same]
    refine ⟨?_, ⟨List.cons_ne_nil _ _, ?_, ?_, ?_⟩, congrArg toFloat magnitude,
      .inr (Option.some_ne_none _)⟩
    · cases places <;> simp [Literal.text, fractionText, powerText]
    · exact fun c mem => digits c (List.mem_of_mem_take mem)
    · exact fun c mem => digits c (List.mem_of_mem_drop mem)
    · simp

/-- A number without places gets a zero behind the point. -/
theorem writtenAs_whole (pos : 0 < d.digits) (nonneg : 0 ≤ d.exponent)
    (short : d.exponent ≤ 2 ^ 11) :
    WrittenAs d (writePositional true d)
      ⟨negative, digitChars d.digits ++ List.replicate d.exponent.toNat '0', ['0'], none⟩ := by
  refine ⟨?_, ⟨?_, ?_, ?_, ?_⟩, ?_, .inl (List.cons_ne_nil _ _)⟩
  · rw [writePositional, if_pos nonneg, if_pos rfl]
    simp [Literal.text, fractionText, powerText]
  · exact List.append_ne_nil_of_left_ne_nil (digitChars_ne_nil _) _
  · exact fun c mem => (List.mem_append.1 mem).elim isDigit_of_mem_digitChars isDigit_of_mem_zeros
  · exact fun c mem => isDigit_of_mem_zeros (n := 1) mem
  · intro zero
    rw [List.head?_append_of_ne_nil _ (digitChars_ne_nil _)] at zero
    exact absurd zero (head?_digitChars pos)
  · obtain ⟨digits, exponent⟩ := d
    obtain ⟨k, rfl⟩ := Int.eq_ofNat_of_zero_le nonneg
    have zeros : ofDigitChars (digitChars digits ++ List.replicate k '0' ++ ['0']) =
        digits * 10 ^ k * 10 := by
      have last : List.replicate k '0' ++ ['0'] = List.replicate (k + 1) '0' :=
        List.replicate_succ'.symm
      have value : Nat.ofDigitChars 10 (digitChars digits) 0 = digits :=
        ofDigitChars_digitChars digits
      rw [List.append_assoc, last, ofDigitChars, Nat.ofDigitChars_append,
        Nat.ofDigitChars_replicate_zero, value]
      ring
    rw [← toFloat_tenfold pos (Int.ofNat_le.1 short), ← zeros]
    rfl

theorem writtenAs_zero :
    WrittenAs ⟨0, 0⟩ (writePositional true ⟨0, 0⟩) ⟨negative, ['0'], ['0'], none⟩ where
  text := rfl
  spelled :=
    { nonempty := List.cons_ne_nil _ _
      whole := fun _ mem => isDigit_of_mem_zeros (n := 1) mem
      fraction := fun _ mem => isDigit_of_mem_zeros (n := 1) mem
      leading := fun _ => rfl }
  value := toFloat_zero _
  real := .inl (List.cons_ne_nil _ _)

theorem writtenAs_split (pos : 0 < d.digits) (neg : d.exponent < 0)
    (split : (-d.exponent).toNat < (digitChars d.digits).length) :
    WrittenAs d (writePositional true d)
      ⟨negative, (digitChars d.digits).take ((digitChars d.digits).length - (-d.exponent).toNat),
        (digitChars d.digits).drop ((digitChars d.digits).length - (-d.exponent).toNat), none⟩ := by
  have same := ofDigitChars_digitChars d.digits
  have leading := head?_digitChars pos
  have digits (c) : c ∈ digitChars d.digits → c.isDigit = true := isDigit_of_mem_digitChars
  rw [writePositional, if_neg (not_le.2 neg), if_pos split]
  generalize digitChars d.digits = text at *
  obtain ⟨n, places⟩ : ∃ n, text.length - (-d.exponent).toNat = n + 1 :=
    Nat.exists_eq_succ_of_ne_zero (by omega)
  rw [places]
  have length : (text.drop (n + 1)).length = (-d.exponent).toNat := by
    rw [List.length_drop]
    omega
  have nonempty : text.drop (n + 1) ≠ [] := by
    rw [← List.length_pos_iff, length]
    omega
  refine ⟨?_, ⟨?_, ?_, ?_, ?_⟩, congrArg toFloat ?_, .inl nonempty⟩
  · cases h : text.drop (n + 1) with
    | nil => exact absurd h nonempty
    | cons place places => simp [Literal.text, fractionText, powerText]
  · rw [← List.length_pos_iff, List.length_take]
    omega
  · exact fun c mem => digits c (List.mem_of_mem_take mem)
  · exact fun c mem => digits c (List.mem_of_mem_drop mem)
  · intro zero
    rw [List.head?_take, if_neg n.succ_ne_zero] at zero
    exact absurd zero leading
  · rw [Literal.magnitude, Option.getD_none, length, List.take_append_drop, same,
      Int.toNat_of_nonneg (by omega), zero_sub, neg_neg]

theorem writtenAs_fraction (neg : d.exponent < 0)
    (split : (digitChars d.digits).length ≤ (-d.exponent).toNat) :
    WrittenAs d (writePositional true d)
      ⟨negative, ['0'], List.replicate ((-d.exponent).toNat - (digitChars d.digits).length) '0' ++
        digitChars d.digits, none⟩ := by
  have length : (List.replicate ((-d.exponent).toNat - (digitChars d.digits).length) '0' ++
      digitChars d.digits).length = (-d.exponent).toNat := by
    rw [List.length_append, List.length_replicate, Nat.sub_add_cancel split]
  have value (n : ℕ) : ofDigitChars (['0'] ++ (List.replicate n '0' ++ digitChars d.digits)) =
      d.digits := by
    rw [← List.append_assoc, List.singleton_append, ← List.replicate_succ, ofDigitChars_zeros,
      ofDigitChars_digitChars]
  have nonempty := List.append_ne_nil_of_right_ne_nil
    (List.replicate ((-d.exponent).toNat - (digitChars d.digits).length) '0')
    (digitChars_ne_nil d.digits)
  refine ⟨?_, ⟨List.cons_ne_nil _ _, ?_, ?_, fun _ => rfl⟩, congrArg toFloat ?_, .inl nonempty⟩
  · rw [writePositional, if_neg (not_le.2 neg), if_neg (not_lt.2 split)]
    rw [List.cons_append, List.cons_append]
    cases h : List.replicate ((-d.exponent).toNat - (digitChars d.digits).length) '0' ++
        digitChars d.digits with
    | nil => exact absurd h nonempty
    | cons place places => simp [Literal.text, fractionText, powerText]
  · exact fun c mem => isDigit_of_mem_zeros (n := 1) mem
  · exact fun c mem => (List.mem_append.1 mem).elim isDigit_of_mem_zeros isDigit_of_mem_digitChars
  · rw [Literal.magnitude, Option.getD_none, length, value, Int.toNat_of_nonneg (by omega),
      zero_sub, neg_neg]

/-- What is written for a decimal in data is the spelling of a literal. -/
theorem exists_writtenAs (h : 0 < d.digits ∨ d = ⟨0, 0⟩) :
    ∃ l : Literal, l.negative = negative ∧ WrittenAs d (Json.numberStyle.writeDecimal d) l := by
  unfold Style.writeDecimal
  split_ifs with positional
  · rcases h with pos | rfl
    · rcases le_or_gt 0 d.exponent with nonneg | neg
      · have short := (of_decide_eq_true positional).2
        have := List.length_pos_iff.2 (digitChars_ne_nil d.digits)
        exact ⟨_, rfl, writtenAs_whole negative pos nonneg (by omega)⟩
      · rcases lt_or_ge (-d.exponent).toNat (digitChars d.digits).length with split | split
        · exact ⟨_, rfl, writtenAs_split negative pos neg split⟩
        · exact ⟨_, rfl, writtenAs_fraction negative neg split⟩
    · exact ⟨_, rfl, writtenAs_zero negative⟩
  · exact ⟨_, rfl, writtenAs_scientific negative d⟩

end InlinePolicy.Decimal
