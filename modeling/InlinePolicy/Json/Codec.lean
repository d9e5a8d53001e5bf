import InlinePolicy.Decimal.Basic
import InlinePolicy.Json.Printer
import InlinePolicy.Json.Reader
import InlinePolicy.Word

/-!
# Encoding and decoding

`ToJson` and `FromJson` tie types to JSON values.  A record is an object, whose unknown members are
ignored and whose fields stand in any order, or an array with the fields in the order of their
declaration.  `Fields` gives a decoder one view of both.
-/

namespace InlinePolicy

/-- Types whose values have a JSON form. -/
class ToJson (α : Type) where
  toJson : α → Json

/-- Types whose values can be read from JSON. -/
class FromJson (α : Type) where
  fromJson : Json → Except Json.Error α

export ToJson (toJson)
export FromJson (fromJson)

namespace Json

/-- Reads a value of a type from a text. -/
def decode {α : Type} [FromJson α] (text : String) : Except Error α :=
  match parse? text with
  | some value => fromJson value
  | none => .error .malformed

/-! ## Values without parts -/

instance : ToJson Bool := ⟨.bool⟩

instance : FromJson Bool where
  fromJson
    | .bool b => .ok b
    | value => .error value.misfit

instance : ToJson String := ⟨.string⟩

instance : FromJson String where
  fromJson
    | .string s => .ok s
    | value => .error value.misfit

instance : ToJson UInt64 := ⟨fun n => .integer n.toNat⟩

instance : FromJson UInt64 where
  fromJson
    | .integer n => (Word.ofInt? n).elim (.error .mismatch) .ok
    | value => .error value.misfit

instance : ToJson Int64 := ⟨fun n => .integer n.toInt⟩

instance : FromJson Int64 where
  fromJson
    | .integer n => (Word.ofSigned? n).elim (.error .mismatch) .ok
    | value => .error value.misfit

instance : ToJson Float := ⟨ofFloat⟩

/-- A float may be written as an integer. -/
instance : FromJson Float where
  fromJson
    | .real x _ => .ok x
    | .integer n =>
      let x := Decimal.toSignedFloat (n < 0) ⟨n.natAbs, 0⟩
      if x.isFinite then .ok x else .error .malformed
    | value => .error value.misfit

/-! ## Lists and options -/

instance {α : Type} [ToJson α] : ToJson (List α) := ⟨fun items => .array (items.map toJson)⟩

instance {α : Type} [FromJson α] : FromJson (List α) where
  fromJson
    | .array items => items.mapM fromJson
    | value => .error value.misfit

instance {α : Type} [ToJson α] : ToJson (Option α) where
  toJson
    | some a => toJson a
    | none => .null

instance {α : Type} [FromJson α] : FromJson (Option α) where
  fromJson
    | .null => .ok none
    | value => some <$> fromJson value

/-! ## Records -/

/-- What a record says about one of its fields. -/
inductive Slot where
  | given (value : Json)
  /-- The record is an object without this member. -/
  | omitted
  /-- The record is an array that ends before this field. -/
  | beyondEnd

/-- The fields of a record by name. -/
abbrev Fields := String → Slot

/-- The field that the members of an object give, which must not give it twice. -/
def slotOfMembers (members : List (String × Json)) (name : String) : Slot :=
  match members.find? fun member => member.1 == name with
  | some (_, value) => .given value
  | none => .omitted

/-- The field that the items of an array give, with the names of the fields in order. -/
def slotOfItems (names : List String) (items : List Json) (name : String) : Slot :=
  match (names.zip items).find? fun field => field.1 == name with
  | some (_, value) => .given value
  | none => .beyondEnd

/-- Whether an object has at most one member with the name. -/
def givenOnce (members : List (String × Json)) (name : String) : Bool :=
  members.countP (fun member => member.1 == name) ≤ 1

/-- Decodes a record with the given field names, in the order of their declaration. -/
def record {α : Type} (names : List String) (build : Fields → Except Error α) :
    Json → Except Error α
  | .object members =>
    if names.all (givenOnce members) then build (slotOfMembers members) else .error .mismatch
  | .array items => do
    let result ← build (slotOfItems names items)
    -- text after the last field is no longer part of the record
    if items.length ≤ names.length then .ok result else .error .malformed
  | .unreadableObject => .error .malformed
  | value => .error value.misfit

/-- A field that must be given. -/
def Fields.required {α : Type} [FromJson α] (fields : Fields) (name : String) : Except Error α :=
  match fields name with
  | .given value => fromJson value
  | .omitted | .beyondEnd => .error .mismatch

/-- A field that has a default. -/
def Fields.withDefault {α : Type} [FromJson α] (fields : Fields) (name : String) (default : α) :
    Except Error α :=
  match fields name with
  | .given value => fromJson value
  | .omitted | .beyondEnd => .ok default

/-- A field that an object may omit for none, but an array must hold. -/
def Fields.nullable {α : Type} [FromJson α] (fields : Fields) (name : String) :
    Except Error (Option α) :=
  match fields name with
  | .given value => fromJson value
  | .omitted => .ok none
  | .beyondEnd => .error .mismatch

/-- A member for each field that has a value. -/
def presentMembers (members : List (String × Option Json)) : List (String × Json) :=
  members.filterMap fun (name, value) => value.map fun value => (name, value)

end Json

end InlinePolicy
