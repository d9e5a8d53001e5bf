import InlinePolicy.Json.Token

/-!
# Reading JSON

A text denotes a value if its tokens, taken one after the other, build exactly one value.  Between
two tokens the containers that are still open form a stack, innermost first; the `Place` says what
may follow.
-/

namespace InlinePolicy.Json

/-- The members of an object, last first; a name is none if it is unreadable. -/
abbrev Members := List (Option String × Json)

/-- A container that is still open, with what it holds so far, last first. -/
inductive Frame where
  | array (items : List Json)
  | object (members : Members)
  /-- An object whose member with this name has no value yet. -/
  | member (name : Option String) (members : Members)

/-- A place between two tokens, with the containers around it. -/
inductive Place where
  | beforeValue (stack : List Frame)
  /-- After the opening bracket of the innermost container. -/
  | opened (stack : List Frame)
  /-- Before the name of a further member. -/
  | beforeName (stack : List Frame)
  | afterName (stack : List Frame)
  /-- After an item or a member of the innermost container. -/
  | afterItem (stack : List Frame)
  /-- After the value of the whole text. -/
  | complete (value : Json)

/-- The object with the given members.  An unreadable name makes the object unreadable. -/
def ofMembers (members : Members) : Json :=
  match members.reverse.mapM fun (name, value) => name.map fun name => (name, value) with
  | some members => .object members
  | none => .unreadableObject

/-- The string with the given content. -/
def ofText : Option String → Json
  | some s => .string s
  | none => .unreadable

/-- The place after a value, which fills the innermost container, or is that of the whole text if
no container is open. -/
def Place.after (value : Json) : List Frame → Place
  | [] => .complete value
  | .array items :: outer => .afterItem (.array (value :: items) :: outer)
  | .object members :: outer => .afterItem (.object members :: outer)
  | .member name members :: outer => .afterItem (.object ((name, value) :: members) :: outer)

/-- The place after the first token of a value. -/
def Place.begin (stack : List Frame) : Token → Option Place
  | .openArray => some (.opened (.array [] :: stack))
  | .openObject => some (.opened (.object [] :: stack))
  | .atom value => some (after value stack)
  | .text content => some (after (ofText content) stack)
  | _ => none

/-- The place after one more token; none if the token may not stand here. -/
def Place.next : Place → Token → Option Place
  | .beforeValue stack, token => begin stack token
  | .opened (.array items :: outer), .closeArray => some (after (.array items.reverse) outer)
  | .opened (.array items :: outer), token => begin (.array items :: outer) token
  | .opened (.object members :: outer), .closeObject => some (after (ofMembers members) outer)
  | .opened (.object members :: outer), .text name =>
    some (.afterName (.member name members :: outer))
  | .beforeName (.object members :: outer), .text name =>
    some (.afterName (.member name members :: outer))
  | .afterName stack, .colon => some (.beforeValue stack)
  | .afterItem (.array items :: outer), .comma => some (.beforeValue (.array items :: outer))
  | .afterItem (.array items :: outer), .closeArray => some (after (.array items.reverse) outer)
  | .afterItem (.object members :: outer), .comma => some (.beforeName (.object members :: outer))
  | .afterItem (.object members :: outer), .closeObject => some (after (ofMembers members) outer)
  | _, _ => none

/-- The value that a list of tokens spells. -/
def ofTokens? (tokens : List Token) : Option Json :=
  match tokens.foldlM Place.next (.beforeValue []) with
  | some (.complete value) => some value
  | _ => none

/-- The value that a text denotes. -/
def parse? (text : String) : Option Json := Token.ofText? text.toList >>= ofTokens?

end InlinePolicy.Json
