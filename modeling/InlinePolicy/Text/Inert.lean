/-!
# Inert texts

A terminal takes some control characters for a command or the start of one: bell, backspace, form
feed, escape, delete, and those from U+0080 to U+009F.  An inert text has none of them: each is
spelled out by its code.  All other characters stand for themselves, line breaks and tabs among
them.
-/

namespace InlinePolicy.Text

/-- A character as it stands in an inert text. -/
def inertChar (c : Char) : List Char :=
  match c with
  | '\x07' => "\\x07".toList
  | '\x08' => "\\x08".toList
  | '\x0c' => "\\x0c".toList
  | '\x1b' => "\\x1b".toList
  | '\x7f' => "\\x7f".toList
  | c =>
    if 0x80 ≤ c.toNat ∧ c.toNat ≤ 0x9f then
      '\\' :: 'u' :: '\x7b' :: Nat.toDigits 16 c.toNat ++ ['\x7d']
    else [c]

/-- A text without commands to a terminal. -/
def inert (text : String) : String := String.ofList (text.toList.flatMap inertChar)

end InlinePolicy.Text
