import InlinePolicy.Decimal.Basic

/-!
# Number literals

What a text may spell a number with: a sign, digits before and after a point, and a power of ten.
Which of these may be missing is the business of the format that uses a literal.
-/

namespace InlinePolicy.Decimal

/-- A number as a text spells it. -/
structure Literal where
  negative : Bool
  whole : List Char
  fraction : List Char
  exponent : Option Int
deriving Repr

/-- The magnitude that a literal spells. -/
def Literal.magnitude (l : Literal) : Decimal :=
  ⟨ofDigitChars (l.whole ++ l.fraction), l.exponent.getD 0 - l.fraction.length⟩

/-- The float nearest to what a literal spells. -/
def Literal.toFloat (l : Literal) : Float := l.magnitude.toSignedFloat l.negative

/-- Splits a text after its leading decimal digits. -/
def spanDigits (s : List Char) : List Char × List Char :=
  (s.takeWhile Char.isDigit, s.dropWhile Char.isDigit)

/-- Reads digits, at least one, as a power of ten or, negated, as a negative one. -/
def scanPower (negated : Bool) (s : List Char) : Option (Int × List Char) :=
  let (digits, rest) := spanDigits s
  if digits.isEmpty then none
  else
    let power : Int := ofDigitChars digits
    some (if negated then -power else power, rest)

/-- Reads an exponent, if the text starts with the letter of one: fails if no digits follow. -/
def scanExponent (s : List Char) : Option (Option Int × List Char) :=
  match s with
  | c :: rest =>
    if c = 'e' ∨ c = 'E' then
      let power :=
        match rest with
        | '-' :: rest => scanPower true rest
        | '+' :: rest => scanPower false rest
        | rest => scanPower false rest
      power.map fun (power, rest) => (some power, rest)
    else some (none, s)
  | [] => some (none, s)

/-- Splitting a text loses nothing. -/
theorem spanDigits_append (s : List Char) : (spanDigits s).1 ++ (spanDigits s).2 = s :=
  List.takeWhile_append_dropWhile

theorem length_spanDigits (s : List Char) :
    (spanDigits s).1.length + (spanDigits s).2.length = s.length := by
  rw [← List.length_append, spanDigits_append]

theorem length_scanPower {negated : Bool} {s rest : List Char} {power : Int}
    (h : scanPower negated s = some (power, rest)) : rest.length ≤ s.length := by
  unfold scanPower at h
  dsimp only at h
  split at h
  · cases h
  · obtain ⟨-, rfl⟩ := Prod.mk.inj (Option.some.inj h)
    have := length_spanDigits s
    omega

theorem length_scanExponent {s rest : List Char} {power : Option Int}
    (h : scanExponent s = some (power, rest)) : rest.length ≤ s.length := by
  unfold scanExponent at h
  split at h
  · next c tail =>
    split at h
    · obtain ⟨⟨p, r⟩, hp, he⟩ := Option.map_eq_some_iff.1 h
      obtain ⟨-, rfl⟩ := Prod.mk.inj he
      have bound : r.length ≤ tail.length := by
        split at hp
        · exact Nat.le_trans (length_scanPower hp) (Nat.le_succ _)
        · exact Nat.le_trans (length_scanPower hp) (Nat.le_succ _)
        · exact length_scanPower hp
      exact Nat.le_trans bound (Nat.le_succ _)
    · obtain ⟨-, rfl⟩ := Prod.mk.inj (Option.some.inj h)
      exact Nat.le_refl _
  · obtain ⟨-, rfl⟩ := Prod.mk.inj (Option.some.inj h)
    exact Nat.le_refl _

end InlinePolicy.Decimal
