/-!
# Binary64 arithmetic

Probabilities, bonuses and size bounds are `Float`s.  Addition, multiplication, comparison and
conversion from words are those of `Float`; this file adds the operations that the policy needs
besides them: conversion from signed words, rounding toward zero, the lesser of two numbers, and
sums.
-/

namespace InlinePolicy.Binary64

open Float.Model

/-- The number nearest to a signed word. -/
def ofSignedWord (n : Int64) : Float := .ofModel (.ofInt64 n)

/-- The number with magnitude `n` and the given sign; zero keeps its sign too. -/
def ofSigned (negative : Bool) (n : Nat) : Float :=
  let magnitude := n.toUInt64.toFloat
  if negative then -magnitude else magnitude

/-- Whether a number carries a minus sign, as `-0.0` does. -/
def isNegative (x : Float) : Bool :=
  match x.toModel.unpack with
  | .notANumber => false
  | .infinity .negative | .zero .negative | .finite .negative .. => true
  | .infinity .positive | .zero .positive | .finite .positive .. => false

/-- The whole part of a number, rounded toward zero.  A number `±m·2^e` with `0 ≤ e` is whole
already, and otherwise its whole part is `m` without its last `-e` bits; infinities and NaN stay
what they are, and a number between -1 and 1 becomes a zero of its sign. -/
def trunc (x : Float) : Float :=
  match x.toModel.unpack with
  | .finite _ m e _ => if 0 ≤ e then x else ofSigned (isNegative x) (m >>> (-e).toNat)
  | _ => x

/-- The lesser of two numbers; NaN only if both are NaN, and the second of two zeros. -/
def lesser (x y : Float) : Float :=
  if x < y then x else if y.isNaN then x else y

/-- The sum of a list, from the left.  It starts at `-0.0`, the neutral element of addition, so the
sum of no numbers is `-0.0`. -/
def sum (xs : List Float) : Float := xs.foldl (· + ·) (-0.0)

end InlinePolicy.Binary64
