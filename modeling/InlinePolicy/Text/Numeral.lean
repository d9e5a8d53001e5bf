import InlinePolicy.Decimal.Literal
import InlinePolicy.Word

/-!
# Values in settings

The texts of truth values, whole numbers and numbers in a setting.  A whole number is digits with
an optional plus sign, and a minus sign where negative numbers are in range.  A number is a
decimal, whose point may be its first or last character, or one of the words `inf`, `infinity` and
`nan` in any case.
-/

namespace InlinePolicy.Text

open Decimal

/-- Reads a truth value. -/
def readBool? (s : List Char) : Option Bool :=
  if s = "true".toList then some true
  else if s = "false".toList then some false
  else none

/-- Reads digits, at least one. -/
def readDigits? (s : List Char) : Option Nat :=
  if !s.isEmpty && s.all Char.isDigit then some (ofDigitChars s) else none

/-- Reads a whole number that fits an unsigned word. -/
def readWord? (s : List Char) : Option UInt64 := do
  let n ← match s with
    | '+' :: digits => readDigits? digits
    | digits => readDigits? digits
  Word.ofNat? n

/-- Reads a whole number that fits a signed word. -/
def readSignedWord? (s : List Char) : Option Int64 := do
  let n : Int ← match s with
    | '+' :: digits => (readDigits? digits).map Int.ofNat
    | '-' :: digits => (readDigits? digits).map fun n => -Int.ofNat n
    | digits => (readDigits? digits).map Int.ofNat
  Word.ofSigned? n

/-- Reads a number without a sign: a word, or digits around an optional point with an optional
exponent. -/
def readMagnitude? (s : List Char) : Option Float :=
  let word := s.map Char.toLower
  if word = "inf".toList ∨ word = "infinity".toList then some (Float.ofBits 0x7ff0000000000000)
  else if word = "nan".toList then some (Float.ofBits 0x7ff8000000000000)
  else
    let (whole, afterWhole) := spanDigits s
    let (fraction, afterFraction) :=
      match afterWhole with
      | '.' :: rest => spanDigits rest
      | rest => ([], rest)
    if whole.isEmpty && fraction.isEmpty then none
    else
      match scanExponent afterFraction with
      | some (exponent, []) => some (Literal.toFloat ⟨false, whole, fraction, exponent⟩)
      | _ => none

/-- Reads a number with an optional sign. -/
def readNumber? (s : List Char) : Option Float :=
  match s with
  | '-' :: rest => (readMagnitude? rest).map fun x => -x
  | '+' :: rest => readMagnitude? rest
  | rest => readMagnitude? rest

end InlinePolicy.Text
