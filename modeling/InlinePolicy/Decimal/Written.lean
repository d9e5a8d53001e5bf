import InlinePolicy.Binary64
import InlinePolicy.Decimal.Shortest

/-!
# Written numbers

Two ways to write a `Float`: with its shortest decimal (`Style.write`), in a notation that a
`Style` chooses, and with a fixed number of places (`fixed`), rounded from the exact value with
ties to the even neighbour.
-/

namespace InlinePolicy.Decimal

open Float.Model

/-- How a shortest decimal is written. -/
structure Style where
  /-- Whether a number `d.ddd·10^k` is written without an exponent, given `k`. -/
  positional : Int → Bool
  /-- Whether a whole number written without an exponent ends in `.0`. -/
  wholePoint : Bool
  /-- Which of two shortest decimals is written if both are equally near. -/
  tie : Tie

/-- Writes a decimal without an exponent. -/
def writePositional (wholePoint : Bool) (d : Decimal) : List Char :=
  let digits := digitChars d.digits
  if 0 ≤ d.exponent then
    digits ++ List.replicate d.exponent.toNat '0' ++ (if wholePoint then ['.', '0'] else [])
  else
    let places := (-d.exponent).toNat
    if places < digits.length then
      digits.take (digits.length - places) ++ '.' :: digits.drop (digits.length - places)
    else
      '0' :: '.' :: List.replicate (places - digits.length) '0' ++ digits

/-- Writes a decimal with one digit before the point and a signed exponent: `1.5e-7`, `1e+16`. -/
def writeScientific (d : Decimal) : List Char :=
  let digits := digitChars d.digits
  let exponent := d.exponent + digits.length - 1
  let sign := if exponent < 0 then '-' else '+'
  let rest := digits.drop 1
  digits.take 1 ++ (if rest.isEmpty then [] else '.' :: rest) ++
    'e' :: sign :: digitChars exponent.natAbs

/-- Writes a decimal in a style. -/
def Style.writeDecimal (style : Style) (d : Decimal) : List Char :=
  if style.positional (d.exponent + (digitChars d.digits).length - 1) then
    writePositional style.wholePoint d
  else
    writeScientific d

/-- Puts a minus sign in front of the text of a negative number. -/
def signed (negative : Bool) (text : List Char) : List Char :=
  if negative then '-' :: text else text

/-- The magnitude of a finite number by its shortest decimal. -/
def shortest (tie : Tie) (x : Float) : Decimal :=
  match x.toModel.unpack with
  | .finite _ m e _ => shortestOf tie (if Binary64.isNegative x then -x else x) m e
  | _ => ⟨0, 0⟩

/-- Writes a number with its shortest decimal in a style. -/
def Style.write (style : Style) (x : Float) : List Char :=
  match x.toModel.unpack with
  | .notANumber => "NaN".toList
  | .infinity _ => signed (Binary64.isNegative x) "inf".toList
  | .zero _ | .finite .. =>
    signed (Binary64.isNegative x) (style.writeDecimal (shortest style.tie x))

/-- Numbers in messages have no exponent, and no point if they are whole. -/
def Style.plain : Style := ⟨fun _ => true, false, .away⟩

/-- The digits of `n / 10^places`, with at least one digit before the point. -/
def writeScaled (places n : Nat) : List Char :=
  let digits := digitChars n
  let padded := List.replicate (places + 1 - digits.length) '0' ++ digits
  padded.take (padded.length - places) ++ '.' :: padded.drop (padded.length - places)

/-- Writes a number with the given number of places after the point. -/
def fixed (places : Nat) (x : Float) : String :=
  String.ofList <|
    match x.toModel.unpack with
    | .notANumber => "NaN".toList
    | .infinity _ => signed (Binary64.isNegative x) "inf".toList
    | .zero _ => signed (Binary64.isNegative x) (writeScaled places 0)
    | .finite _ m e _ =>
      signed (Binary64.isNegative x) <| writeScaled places <|
        roundDiv .even ((m <<< e.toNat) * ten places) (1 <<< (-e).toNat)

end InlinePolicy.Decimal
