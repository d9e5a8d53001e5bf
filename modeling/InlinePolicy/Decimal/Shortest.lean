import InlinePolicy.Decimal.Basic

/-!
# Shortest decimals

`Decimal.shortestOf` finds the decimal with the fewest digits that reads back as a finite positive
number `x`.  For each power of ten, from one above `x` downwards, the two multiples of it around
`x` are tried, the nearer one first; if both are equally near, a `Tie` says which one.  The
coarsest grid with a multiple that reads back gives the fewest digits.  The last grid holds `x`
itself, so there is always an answer.
-/

namespace InlinePolicy.Decimal

/-- Of the multiples of `10^grid` just below and just above `m·2^e`, the nearer one if it reads
back as `x`, else the other one if that does. -/
def onGrid? (tie : Tie) (x : Float) (m : Nat) (e grid : Int) : Option Decimal :=
  let numerator := (m <<< e.toNat) * ten (-grid).toNat
  let denominator := (1 <<< (-e).toNat) * ten grid.toNat
  let quotient := numerator / denominator
  let below : Decimal := ⟨quotient, grid⟩
  let above : Decimal := ⟨quotient + 1, grid⟩
  let candidates :=
    if roundsDown tie numerator denominator then [below, above] else [above, below]
  candidates.find? fun d => d.toFloat == x

/-- The decimal that equals `m·2^e`. -/
def exact (m : Nat) (e : Int) : Decimal :=
  if 0 ≤ e then ⟨m <<< e.toNat, 0⟩ else ⟨m * Nat.pow 5 (-e).toNat, e⟩

/-- Tries the grids `bottom + steps`, …, `bottom + 1`, and then takes the exact decimal. -/
def search (tie : Tie) (x : Float) (m : Nat) (e bottom : Int) : Nat → Decimal
  | 0 => exact m e
  | steps + 1 =>
    match onGrid? tie x m e (bottom + (steps + 1 : Nat)) with
    | some d => d
    | none => search tie x m e bottom steps

/-- The decimal with the fewest digits that reads back as `x = m·2^e`. -/
def shortestOf (tie : Tie) (x : Float) (m : Nat) (e : Int) : Decimal :=
  -- `m·2^e < 2^bits ≤ 10^top`, as `log₁₀ 2 < 0.30103`
  let bits : Int := m.log2 + 1 + e
  let top := bits * 30103 / 100000 + 1
  let bottom := min e 0
  search tie x m e bottom (top - bottom).toNat

end InlinePolicy.Decimal
