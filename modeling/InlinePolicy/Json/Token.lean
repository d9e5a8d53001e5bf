import InlinePolicy.Decimal.Literal
import InlinePolicy.Json.Basic
import InlinePolicy.Word

/-!
# JSON tokens

A JSON text is a sequence of tokens with blanks between them.  `Token.ofText?` reads a text to its
end and fails on anything that is not a token; what the tokens say together is not its concern.
-/

namespace InlinePolicy.Json

open Decimal

/-- A token: a punctuation mark, a value without parts, or a string (none if it holds half of a
surrogate pair). -/
inductive Token where
  | openArray
  | closeArray
  | openObject
  | closeObject
  | colon
  | comma
  | atom (value : Json)
  | text (content : Option String)

/-- Whether a character may stand between tokens. -/
def isBlank (c : Char) : Bool := c == ' ' || c == '\t' || c == '\n' || c == '\r'

/-! ## Strings -/

/-- A part of a string: a character, or a code unit written as `\uXXXX`. -/
inductive Element where
  | char (c : Char)
  | unit (n : Nat)

/-- The value of a hexadecimal digit. -/
def hexDigit? (c : Char) : Option Nat :=
  if c.isDigit then some (c.toNat - '0'.toNat)
  else if 'a' ≤ c ∧ c ≤ 'f' then some (c.toNat - 'a'.toNat + 10)
  else if 'A' ≤ c ∧ c ≤ 'F' then some (c.toNat - 'A'.toNat + 10)
  else none

/-- The code unit with four hexadecimal digits. -/
def codeUnit? (a b c d : Char) : Option Nat := do
  let a ← hexDigit? a
  let b ← hexDigit? b
  let c ← hexDigit? c
  let d ← hexDigit? d
  return ((a * 16 + b) * 16 + c) * 16 + d

/-- The character that a backslash and a letter stand for. -/
def escaped? : Char → Option Char
  | '"' => some '"'
  | '\\' => some '\\'
  | '/' => some '/'
  | 'b' => some '\x08'
  | 'f' => some '\x0c'
  | 'n' => some '\n'
  | 'r' => some '\r'
  | 't' => some '\t'
  | _ => none

/-- Reads a string after its opening quote, up to its closing one. -/
def scanString : List Char → Option (List Element × List Char)
  | [] => none
  | '"' :: rest => some ([], rest)
  | '\\' :: 'u' :: a :: b :: c :: d :: rest => do
    let n ← codeUnit? a b c d
    let (elements, rest) ← scanString rest
    return (.unit n :: elements, rest)
  | '\\' :: e :: rest => do
    let c ← escaped? e
    let (elements, rest) ← scanString rest
    return (.char c :: elements, rest)
  | c :: rest =>
    if c = '\\' ∨ c < ' ' then none
    else do
      let (elements, rest) ← scanString rest
      return (.char c :: elements, rest)

/-- The characters of a string.  Two code units that form a surrogate pair are one character; half
of a pair is none. -/
def joinElements : List Element → Option (List Char)
  | [] => some []
  | .char c :: rest => (joinElements rest).map (c :: ·)
  | .unit high :: .unit low :: rest =>
    if 0xd800 ≤ high ∧ high < 0xdc00 ∧ 0xdc00 ≤ low ∧ low < 0xe000 then
      let n := 0x10000 + (high - 0xd800) * 0x400 + (low - 0xdc00)
      (joinElements rest).map (Char.ofNat n :: ·)
    else if 0xd800 ≤ high ∧ high < 0xe000 then none
    else (joinElements (.unit low :: rest)).map (Char.ofNat high :: ·)
  | .unit n :: rest =>
    if 0xd800 ≤ n ∧ n < 0xe000 then none
    else (joinElements rest).map (Char.ofNat n :: ·)

/-! ## Numbers -/

/-- Reads a number without its sign: digits without a leading zero, then a point with digits or
none, then an exponent or none. -/
def scanNumber (negative : Bool) (s : List Char) : Option (Literal × List Char) :=
  let (whole, rest) := spanDigits s
  if whole.isEmpty ∨ (whole.head? = some '0' ∧ whole ≠ ['0']) then none
  else
    match rest with
    | '.' :: rest =>
      let (fraction, rest) := spanDigits rest
      if fraction.isEmpty then none
      else
        match scanExponent rest with
        | some (exponent, rest) => some (⟨negative, whole, fraction, exponent⟩, rest)
        | none => none
    | rest =>
      match scanExponent rest with
      | some (exponent, rest) => some (⟨negative, whole, [], exponent⟩, rest)
      | none => none

/-- The value of a number. -/
def ofLiteral (l : Literal) : Json :=
  let n : Int := if l.negative then -ofDigitChars l.whole else ofDigitChars l.whole
  let isWhole := l.fraction.isEmpty && l.exponent.isNone && !(l.negative && n == 0)
  let isWord := (Word.ofInt? n).isSome || (Word.ofSigned? n).isSome
  if isWhole && isWord then .integer n
  else if h : l.toFloat.isFinite then
    if isWhole then .integer n else .real l.toFloat h
  else .unreadable

/-! ## Tokens -/

/-- Reads the token that starts with the given character. -/
def Token.scan (c : Char) (rest : List Char) : Option (Token × List Char) :=
  match c with
  | '[' => some (.openArray, rest)
  | ']' => some (.closeArray, rest)
  | '\x7b' => some (.openObject, rest)
  | '\x7d' => some (.closeObject, rest)
  | ':' => some (.colon, rest)
  | ',' => some (.comma, rest)
  | 'n' =>
    match rest with
    | 'u' :: 'l' :: 'l' :: rest => some (.atom .null, rest)
    | _ => none
  | 't' =>
    match rest with
    | 'r' :: 'u' :: 'e' :: rest => some (.atom (.bool true), rest)
    | _ => none
  | 'f' =>
    match rest with
    | 'a' :: 'l' :: 's' :: 'e' :: rest => some (.atom (.bool false), rest)
    | _ => none
  | '"' => (scanString rest).map fun (elements, rest) =>
      (.text ((joinElements elements).map String.ofList), rest)
  | '-' => (scanNumber true rest).map fun (l, rest) => (.atom (ofLiteral l), rest)
  | c =>
    if c.isDigit then
      (scanNumber false (c :: rest)).map fun (l, rest) => (.atom (ofLiteral l), rest)
    else none

/-! Every token takes at least one character, so reading comes to an end. -/

theorem length_scanString {s rest : List Char} {elements : List Element}
    (h : scanString s = some (elements, rest)) : rest.length ≤ s.length := by
  fun_induction scanString s generalizing elements rest with
  | case1 => cases h
  | case2 s =>
    obtain ⟨-, rfl⟩ := Prod.mk.inj (Option.some.inj h)
    exact Nat.le_succ _
  | case3 a b c d s ih =>
    obtain ⟨n, -, h⟩ := Option.bind_eq_some_iff.1 h
    obtain ⟨⟨es, r⟩, hr, h⟩ := Option.bind_eq_some_iff.1 h
    obtain ⟨-, rfl⟩ := Prod.mk.inj (Option.some.inj h)
    have := ih hr
    simp only [List.length_cons]
    omega
  | case4 e s _ ih =>
    obtain ⟨c, -, h⟩ := Option.bind_eq_some_iff.1 h
    obtain ⟨⟨es, r⟩, hr, h⟩ := Option.bind_eq_some_iff.1 h
    obtain ⟨-, rfl⟩ := Prod.mk.inj (Option.some.inj h)
    have := ih hr
    simp only [List.length_cons]
    omega
  | case5 => cases h
  | case6 c s _ _ _ _ ih =>
    obtain ⟨⟨es, r⟩, hr, h⟩ := Option.bind_eq_some_iff.1 h
    obtain ⟨-, rfl⟩ := Prod.mk.inj (Option.some.inj h)
    exact Nat.le_trans (ih hr) (Nat.le_succ _)

theorem length_scanNumber {negative : Bool} {s rest : List Char} {l : Literal}
    (h : scanNumber negative s = some (l, rest)) : rest.length < s.length := by
  unfold scanNumber at h
  dsimp only at h
  have outer := length_spanDigits s
  split at h
  · cases h
  · next nonempty =>
    have : (spanDigits s).1.length ≠ 0 := fun e => nonempty (Or.inl (by simp_all))
    split at h
    · next tail heq =>
      rw [heq] at outer
      split at h
      · cases h
      · split at h
        · next power r he =>
          obtain ⟨-, rfl⟩ := Prod.mk.inj (Option.some.inj h)
          have inner := length_spanDigits tail
          have last := length_scanExponent he
          simp only [List.length_cons] at outer
          omega
        · cases h
    · split at h
      · next power r he =>
        obtain ⟨-, rfl⟩ := Prod.mk.inj (Option.some.inj h)
        have last := length_scanExponent he
        omega
      · cases h

theorem length_scanToken {c : Char} {s rest : List Char} {t : Token}
    (h : Token.scan c s = some (t, rest)) : rest.length ≤ s.length := by
  unfold Token.scan at h
  split at h
  iterate 6
    · obtain ⟨-, rfl⟩ := Prod.mk.inj (Option.some.inj h)
      exact Nat.le_refl _
  iterate 3
    · split at h
      · obtain ⟨-, rfl⟩ := Prod.mk.inj (Option.some.inj h)
        simp only [List.length_cons]
        omega
      · cases h
  · obtain ⟨⟨es, r⟩, hr, he⟩ := Option.map_eq_some_iff.1 h
    obtain ⟨-, rfl⟩ := Prod.mk.inj he
    exact length_scanString hr
  · obtain ⟨⟨l, r⟩, hr, he⟩ := Option.map_eq_some_iff.1 h
    obtain ⟨-, rfl⟩ := Prod.mk.inj he
    exact Nat.le_of_lt (length_scanNumber hr)
  · split at h
    · obtain ⟨⟨l, r⟩, hr, he⟩ := Option.map_eq_some_iff.1 h
      obtain ⟨-, rfl⟩ := Prod.mk.inj he
      exact Nat.le_of_lt_succ (length_scanNumber hr)
    · cases h

/-- The tokens of a text. -/
def Token.ofText? : List Char → Option (List Token)
  | [] => some []
  | c :: s =>
    if isBlank c then ofText? s
    else
      match _found : Token.scan c s with
      | some (token, rest) => (ofText? rest).map (token :: ·)
      | none => none
termination_by s => s.length
decreasing_by
  · exact Nat.lt_succ_self _
  · exact Nat.lt_succ_of_le (length_scanToken (by assumption))

end InlinePolicy.Json
