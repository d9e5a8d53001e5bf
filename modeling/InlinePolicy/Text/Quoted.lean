import InlinePolicy.Text.Invisible

/-!
# Quoted texts

A text between double quotes, in which every character can be seen: quotes, backslashes, and
characters without a visible form are escaped.
-/

namespace InlinePolicy.Text

/-- A character as it stands between quotes. -/
def quoteChar (c : Char) : List Char :=
  match c with
  | '"' => ['\\', '"']
  | '\\' => ['\\', '\\']
  | '\x00' => ['\\', '0']
  | '\t' => ['\\', 't']
  | '\n' => ['\\', 'n']
  | '\r' => ['\\', 'r']
  | c =>
    if isInvisible c then '\\' :: 'u' :: '\x7b' :: Nat.toDigits 16 c.toNat ++ ['\x7d'] else [c]

/-- A text with its quotes. -/
def quoted (text : String) : String := String.ofList ('"' :: text.toList.flatMap quoteChar ++ ['"'])

end InlinePolicy.Text
