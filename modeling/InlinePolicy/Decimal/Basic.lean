/-!
# Decimal numbers

A `Decimal` is a non-negative number `digits · 10^exponent`, the common ground of reading and
writing: a literal in a text stands for a decimal, and a decimal stands for the `Float` nearest to
it.
-/

namespace InlinePolicy

/-- The number `digits · 10^exponent`. -/
structure Decimal where
  digits : Nat
  exponent : Int
deriving DecidableEq, Repr

namespace Decimal

/-- The power of ten with a natural exponent. -/
def ten (k : Nat) : Nat := Nat.pow 10 k

/-- The float nearest to a decimal, the even one of two equally near; infinite past the range. -/
def toFloat (d : Decimal) : Float := .ofModel (.ofScientific d.digits d.exponent)

/-- The float nearest to a decimal with a sign in front. -/
def toSignedFloat (negative : Bool) (d : Decimal) : Float :=
  if negative then -d.toFloat else d.toFloat

/-! ## Rounding -/

/-- Where a number goes that lies halfway between two neighbours. -/
inductive Tie where
  /-- To the neighbour that is even. -/
  | even
  /-- To the neighbour with the larger magnitude. -/
  | away
deriving DecidableEq, Repr

/-- Whether `numerator / denominator` is rounded down to a whole number. -/
def roundsDown (tie : Tie) (numerator denominator : Nat) : Bool :=
  let twiceRest := 2 * (numerator % denominator)
  let halfwayDown := tie == .even && numerator / denominator % 2 == 0
  twiceRest < denominator || (twiceRest == denominator && halfwayDown)

/-- The whole number nearest to `numerator / denominator`. -/
def roundDiv (tie : Tie) (numerator denominator : Nat) : Nat :=
  let quotient := numerator / denominator
  if roundsDown tie numerator denominator then quotient else quotient + 1

/-! ## Digits -/

/-- The decimal digits of a number, without leading zeros. -/
def digitChars (n : Nat) : List Char := Nat.toDigits 10 n

/-- The number that a list of decimal digits stands for. -/
def ofDigitChars (cs : List Char) : Nat := Nat.ofDigitChars 10 cs 0

theorem ofDigitChars_digitChars (n : Nat) : ofDigitChars (digitChars n) = n :=
  Nat.ofDigitChars_ten_toDigits

theorem isDigit_of_mem_digitChars {n : Nat} {c : Char} (h : c ∈ digitChars n) : c.isDigit :=
  Nat.isDigit_of_mem_toDigits (by decide) (by decide) h

end Decimal

end InlinePolicy
