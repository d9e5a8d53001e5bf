/-!
# JSON values

The values that JSON texts denote.  Members of an object keep their order and may repeat a name;
what a repeated name means is decided where the object is decoded.
-/

namespace InlinePolicy

/-- A JSON value.  A number is an integer if it is written without point and exponent (`-0` apart,
which is a float), and otherwise the float nearest to what is written.  A text may be well-formed
and yet denote no value: a number beyond the largest float, or a string with half of a surrogate
pair, or an object with such a name.  It is then unreadable, which matters only if somebody looks
at it. -/
inductive Json where
  | null
  | bool (b : Bool)
  | integer (n : Int)
  | real (x : Float) (finite : x.isFinite)
  | string (s : String)
  | array (items : List Json)
  | object (members : List (String × Json))
  /-- A number or a string that denotes no value. -/
  | unreadable
  /-- An object with a name that denotes no string. -/
  | unreadableObject

namespace Json

/-- Why a text does not decode. -/
inductive Error where
  /-- The text is not JSON, or holds something unreadable where it matters. -/
  | malformed
  /-- The text is JSON, but does not fit the type. -/
  | mismatch
deriving DecidableEq, Repr

/-- Whether a text is at fault or only what it says. -/
def Error.kind : Error → String
  | .malformed => "syntax"
  | .mismatch => "data"

/-- The text of an error. -/
def Error.message (e : Error) : String := "json: " ++ e.kind

/-- What is wrong with a value that does not fit the type. -/
def misfit : Json → Error
  | .unreadable => .malformed
  | _ => .mismatch

/-- The value of a float: its number, or `null` if it has none. -/
def ofFloat (x : Float) : Json := if h : x.isFinite then .real x h else .null

end Json

end InlinePolicy
