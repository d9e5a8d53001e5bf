/-!
# Words

Sizes, depths and tallies are 64-bit words.  A number that does not fit a word is no word
(`ofNat?`, `ofInt?`, `ofSigned?`).  A sum that does not fit is an error where a tally would
otherwise be wrong (`add?`, `sum?`), and stops at the largest word where only the order of
magnitude matters (`saturatingAdd`).
-/

namespace InlinePolicy.Word

/-- The word that equals a natural number. -/
def ofNat? (n : Nat) : Option UInt64 := if n < UInt64.size then some (UInt64.ofNat n) else none

/-- The word that equals an integer. -/
def ofInt? (n : Int) : Option UInt64 := if 0 ≤ n then ofNat? n.toNat else none

/-- The signed word that equals an integer. -/
def ofSigned? (n : Int) : Option Int64 :=
  if Int64.minValue.toInt ≤ n ∧ n ≤ Int64.maxValue.toInt then some (Int64.ofInt n) else none

/-- The sum of two words, if it fits a word. -/
def add? (a b : UInt64) : Option UInt64 := ofNat? (a.toNat + b.toNat)

/-- The sum of a list of words, if every partial sum fits a word. -/
def sum? (words : List UInt64) : Option UInt64 := words.foldlM add? 0

/-- The largest word. -/
def largest : UInt64 := UInt64.ofNat (UInt64.size - 1)

/-- The sum of two words, or the largest word if that is smaller. -/
def saturatingAdd (a b : UInt64) : UInt64 := (add? a b).getD largest

/-- What a sum that must fit a word says when it does not. -/
def overflowMessage : String := "attempt to add with overflow"

theorem ofNat?_eq_some_iff {n : Nat} {w : UInt64} : ofNat? n = some w ↔ w.toNat = n := by
  unfold ofNat?
  constructor
  · intro h
    split at h
    · next fits =>
      obtain rfl := Option.some.inj h
      exact UInt64.toNat_ofNat_of_lt fits
    · cases h
  · rintro rfl
    rw [if_pos w.toNat_lt_size, UInt64.ofNat_toNat]

theorem ofNat?_eq_none_iff {n : Nat} : ofNat? n = none ↔ UInt64.size ≤ n := by
  simp [ofNat?]

theorem add?_eq_some_iff {a b c : UInt64} : add? a b = some c ↔ c.toNat = a.toNat + b.toNat :=
  ofNat?_eq_some_iff

theorem toNat_saturatingAdd (a b : UInt64) :
    (saturatingAdd a b).toNat = min (a.toNat + b.toNat) (UInt64.size - 1) := by
  unfold saturatingAdd
  cases h : add? a b with
  | some c =>
    have exactly := add?_eq_some_iff.1 h
    have := c.toNat_lt_size
    simp only [Option.getD_some]
    omega
  | none =>
    have large := ofNat?_eq_none_iff.1 h
    have : largest.toNat = UInt64.size - 1 := rfl
    simp only [Option.getD_none]
    omega

end InlinePolicy.Word
