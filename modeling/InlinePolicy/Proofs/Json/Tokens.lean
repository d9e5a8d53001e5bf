import Mathlib
import InlinePolicy.Json.Printer
import InlinePolicy.Json.Token
import InlinePolicy.Proofs.Decimal.Spelling

/-!
# Printed tokens

A printed string is one token with the content of the string (`isToken_writeString`), and so is a
printed number with its value (`isToken_writeInteger`, `isToken_write`).
-/

namespace InlinePolicy.Json

open Decimal Binary64

/-- A text that is read as one token, wherever it stands in a text. -/
def IsToken (text : List Char) (token : Token) : Prop :=
  ∃ c tail, text = c :: tail ∧ isBlank c = false ∧
    ∀ rest, EndsNumber rest → Token.scan c (tail ++ rest) = some (token, rest)

/-! ## Strings -/

/-- A code unit below the surrogates is a character of its own, whatever follows. -/
theorem joinElements_unit {n : ℕ} (small : n < 0xd800) (rest : List Element) :
    joinElements (.unit n :: rest) = (joinElements rest).map (Char.ofNat n :: ·) := by
  have high (low : ℕ) : ¬ (0xd800 ≤ n ∧ n < 0xdc00 ∧ 0xdc00 ≤ low ∧ low < 0xe000) := by omega
  have surrogate : ¬ (0xd800 ≤ n ∧ n < 0xe000) := by omega
  rcases rest with _ | ⟨c | low, rest⟩
  · exact if_neg surrogate
  · exact if_neg surrogate
  · rw [joinElements, if_neg (high low), if_neg surrogate]

/-- A control character is below 32. -/
theorem toNat_lt_of_control {c : Char} (control : c < ' ') : c.toNat < 32 := control

/-- The code unit of a control character. -/
theorem codeUnit?_control {c : Char} (control : c < ' ') :
    codeUnit? '0' '0' (hexChar (c.toNat / 16)) (hexChar (c.toNat % 16)) = some c.toNat := by
  have small := toNat_lt_of_control control
  generalize c.toNat = n at small
  decide +revert

/-- A character that needs no escape stands for itself. -/
theorem scanString_plain {c : Char} (quote : c ≠ '"') (backslash : c ≠ '\\') (plain : ¬ c < ' ')
    (s : List Char) :
    scanString (c :: s) =
      (scanString s).map fun (elements, rest) => (.char c :: elements, rest) := by
  rw [scanString, if_neg (by simp [backslash, plain])]
  · cases scanString s <;> rfl
  all_goals simp [quote, backslash]

/-- A character behind a backslash stands for another one. -/
theorem scanString_escaped {letter c : Char} (letter_ne : letter ≠ 'u')
    (value : escaped? letter = some c) (s : List Char) :
    scanString ('\\' :: letter :: s) =
      (scanString s).map fun (elements, rest) => (.char c :: elements, rest) := by
  rw [scanString, value]
  · cases scanString s <;> rfl
  · simp [letter_ne]

theorem scanString_control {c : Char} (control : c < ' ') (s : List Char) :
    scanString ('\\' :: 'u' :: '0' :: '0' :: hexChar (c.toNat / 16) :: hexChar (c.toNat % 16) ::
        s) =
      (scanString s).map fun (elements, rest) => (.unit c.toNat :: elements, rest) := by
  rw [scanString, codeUnit?_control control]
  cases scanString s <;> rfl

/-- The text of a character in a string is one element, and that is the character. -/
theorem exists_element (c : Char) :
    ∃ element : Element,
      (∀ s, scanString (escapeChar c ++ s) =
        (scanString s).map fun (elements, rest) => (element :: elements, rest)) ∧
      ∀ elements, joinElements (element :: elements) = (joinElements elements).map (c :: ·) := by
  unfold escapeChar
  split
  case h_8 quote backslash _ _ _ _ _ =>
    split_ifs with control
    · refine ⟨.unit c.toNat, scanString_control control, fun elements => ?_⟩
      have small := toNat_lt_of_control control
      rw [joinElements_unit (by omega), Char.ofNat_toNat]
    · exact ⟨.char c, scanString_plain quote backslash control, fun _ => rfl⟩
  all_goals exact ⟨.char _, scanString_escaped (by decide) rfl, fun _ => rfl⟩

/-- A string is read back from its text, up to the closing quote. -/
theorem scanString_flatMap (s rest : List Char) :
    ∃ elements, scanString (s.flatMap escapeChar ++ '"' :: rest) = some (elements, rest) ∧
      joinElements elements = some s := by
  induction s with
  | nil => exact ⟨[], rfl, rfl⟩
  | cons c s ih =>
    obtain ⟨elements, scanned, joined⟩ := ih
    obtain ⟨element, scan, join⟩ := exists_element c
    refine ⟨element :: elements, ?_, ?_⟩
    · rw [List.flatMap_cons, List.append_assoc, scan, scanned]
      rfl
    · rw [join, joined]
      rfl

theorem isToken_writeString (s : String) : IsToken (writeString s) (.text (some s)) := by
  refine ⟨_, s.toList.flatMap escapeChar ++ ['"'], rfl, rfl, fun rest _ => ?_⟩
  obtain ⟨elements, scanned, joined⟩ := scanString_flatMap s.toList rest
  rw [List.append_assoc]
  change (scanString (s.toList.flatMap escapeChar ++ '"' :: rest)).map _ = _
  rw [scanned, Option.map_some]
  dsimp only
  rw [joined, Option.map_some, String.ofList_toList]

/-! ## Numbers -/

theorem scan_of_isDigit {c : Char} (digit : c.isDigit = true) (rest : List Char) :
    Token.scan c rest =
      (scanNumber false (c :: rest)).map fun (l, rest) => (.atom (ofLiteral l), rest) := by
  unfold Token.scan
  split
  case h_12 => exact if_pos digit
  all_goals cases digit

theorem not_isBlank_of_isDigit {c : Char} (digit : c.isDigit = true) : isBlank c = false := by
  unfold isBlank
  simp only [Bool.or_eq_false_iff, beq_eq_false_iff_ne]
  refine ⟨⟨⟨?_, ?_⟩, ?_⟩, ?_⟩ <;> rintro rfl <;> cases digit

/-- A spelled literal is a token. -/
theorem isToken_literal {l : Literal} (spelled : l.Spelled) :
    IsToken (signed l.negative l.text) (.atom (ofLiteral l)) := by
  have scanned (rest) (ends : EndsNumber rest) := scanNumber_text spelled ends
  cases negative : l.negative with
  | true =>
    refine ⟨'-', l.text, rfl, rfl, fun rest ends => ?_⟩
    change (scanNumber true (l.text ++ rest)).map _ = _
    rw [← negative, scanned rest ends]
    rfl
  | false =>
    obtain ⟨digit, digits, whole⟩ := List.exists_cons_of_ne_nil spelled.nonempty
    have isDigit := spelled.whole digit (whole ▸ List.mem_cons_self)
    have text : l.text =
        digit :: (digits ++ (fractionText l.fraction ++ powerText l.exponent)) := by
      rw [Literal.text, whole, List.cons_append]
    refine ⟨digit, _, text, not_isBlank_of_isDigit isDigit, fun rest ends => ?_⟩
    rw [scan_of_isDigit isDigit, ← List.cons_append, ← text, ← negative, scanned rest ends]
    rfl

/-- An integer that fits a word or a signed word is read back. -/
theorem isToken_writeInteger {n : ℤ}
    (fits : (Word.ofInt? n).isSome ∨ (Word.ofSigned? n).isSome) :
    IsToken (writeInteger n) (.atom (.integer n)) := by
  have whole := isToken_literal (spelled_whole (n < 0) n.natAbs)
  have value : (if decide (n < 0) = true then -(ofDigitChars (digitChars n.natAbs) : ℤ)
      else ofDigitChars (digitChars n.natAbs)) = n := by
    rw [ofDigitChars_digitChars]
    split_ifs with negative
    · have := of_decide_eq_true negative
      omega
    · have := of_decide_eq_false (Bool.not_eq_true _ ▸ negative)
      omega
  have signless : (decide (n < 0) && n == 0) = false := by
    rw [Bool.and_eq_false_iff, decide_eq_false_iff_not, beq_eq_false_iff_ne]
    omega
  have literal : ofLiteral ⟨n < 0, digitChars n.natAbs, [], none⟩ = .integer n := by
    unfold ofLiteral
    dsimp only
    rw [value, signless]
    exact if_pos (by simpa using fits)
  rwa [literal, Literal.text, fractionText, powerText, List.append_nil, List.append_nil] at whole

/-- A finite number is read back. -/
theorem isToken_write {x : Float} (finite : x.isFinite = true) :
    IsToken (numberStyle.write x) (.atom (.real x finite)) := by
  obtain ⟨l, sign, written⟩ :=
    exists_writtenAs (isNegative x) (digits_shortest_pos numberStyle.tie x)
  have token := isToken_literal written.spelled
  have text : numberStyle.write x = signed l.negative l.text := by
    have unpacked : x.toModel.unpack.isFinite = true := finite
    rw [sign, ← written.text, Style.write]
    cases h : x.toModel.unpack with
    | notANumber | infinity s => rw [h] at unpacked; cases unpacked
    | zero s | finite s m e pos => rfl
  have value : l.toFloat = x := by
    rw [Literal.toFloat, toSignedFloat, written.value, sign, ← toSignedFloat]
    exact toSignedFloat_shortest numberStyle.tie finite
  have real : (l.fraction.isEmpty && l.exponent.isNone) = false := by
    rcases written.real with places | power
    · rw [List.isEmpty_eq_false_iff.2 places, Bool.false_and]
    · rw [Option.isNone_eq_false_iff.2 (Option.isSome_iff_ne_none.2 power), Bool.and_false]
  have literal : ofLiteral l = .real x finite := by
    unfold ofLiteral
    dsimp only
    simp only [real, value, Bool.false_and, Bool.false_eq_true, if_false]
    exact dif_pos finite
  rw [text, ← literal]
  exact token

end InlinePolicy.Json
