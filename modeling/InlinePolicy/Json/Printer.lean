import InlinePolicy.Decimal.Written
import InlinePolicy.Json.Basic

/-!
# Printing JSON

A value is printed on one line without blanks (`compact`), or with every item and member on a line
of its own, indented by two blanks for each open container (`pretty`).  Both are one function of a
`Layout`, and differ in blanks only.
-/

namespace InlinePolicy.Json

open Decimal

/-- Numbers `d.ddd·10^k` have no exponent for `k` from -5 to 15, and always a point or an
exponent. -/
def numberStyle : Style := ⟨fun k => -5 ≤ k ∧ k ≤ 15, true, .even⟩

/-- The hexadecimal digit of a number below 16. -/
def hexChar (n : Nat) : Char := Nat.digitChar n

/-- A character as it stands in a string: quotes, backslashes and controls are escaped. -/
def escapeChar (c : Char) : List Char :=
  match c with
  | '"' => ['\\', '"']
  | '\\' => ['\\', '\\']
  | '\x08' => ['\\', 'b']
  | '\x0c' => ['\\', 'f']
  | '\n' => ['\\', 'n']
  | '\r' => ['\\', 'r']
  | '\t' => ['\\', 't']
  | c => if c < ' ' then ['\\', 'u', '0', '0', hexChar (c.toNat / 16), hexChar (c.toNat % 16)]
    else [c]

/-- A string with its quotes. -/
def writeString (s : String) : List Char := '"' :: s.toList.flatMap escapeChar ++ ['"']

/-- The digits of an integer, after a minus sign if it is negative. -/
def writeInteger (n : Int) : List Char := signed (n < 0) (digitChars n.natAbs)

/-- The blanks of a printed value. -/
structure Layout where
  /-- What stands before an item, and before the end of a container, at a given depth. -/
  lineBreak : Nat → List Char
  /-- What stands between the colon and the value of a member. -/
  gap : List Char

/-- No blanks. -/
def Layout.compact : Layout := ⟨fun _ => [], []⟩

/-- A line for each item, indented by two blanks for each container around it. -/
def Layout.pretty : Layout := ⟨fun depth => '\n' :: List.replicate (2 * depth) ' ', [' ']⟩

mutual

/-- Prints a value at a depth of open containers. -/
def write (layout : Layout) (depth : Nat) : Json → List Char
  | .null => "null".toList
  | .bool true => "true".toList
  | .bool false => "false".toList
  | .integer n => writeInteger n
  | .real x _ => numberStyle.write x
  | .string s => writeString s
  | .array [] => ['[', ']']
  | .array (item :: items) =>
    '[' :: layout.lineBreak (depth + 1) ++ write layout (depth + 1) item ++
      writeItems layout (depth + 1) items ++ layout.lineBreak depth ++ [']']
  | .object [] => ['\x7b', '\x7d']
  | .object ((name, value) :: members) =>
    '\x7b' :: layout.lineBreak (depth + 1) ++ writeString name ++ ':' :: layout.gap ++
      write layout (depth + 1) value ++
      writeMembers layout (depth + 1) members ++ layout.lineBreak depth ++ ['\x7d']
  | .unreadable | .unreadableObject => "null".toList

/-- Prints the items after the first one. -/
def writeItems (layout : Layout) (depth : Nat) : List Json → List Char
  | [] => []
  | item :: items =>
    ',' :: layout.lineBreak depth ++ write layout depth item ++ writeItems layout depth items

/-- Prints the members after the first one. -/
def writeMembers (layout : Layout) (depth : Nat) : List (String × Json) → List Char
  | [] => []
  | (name, value) :: members =>
    ',' :: layout.lineBreak depth ++ writeString name ++ ':' :: layout.gap ++
      write layout depth value ++ writeMembers layout depth members

end

/-- The text of a value without blanks. -/
def compact (value : Json) : String := String.ofList (write .compact 0 value)

/-- The text of a value with a line for each item. -/
def pretty (value : Json) : String := String.ofList (write .pretty 0 value)

end InlinePolicy.Json
