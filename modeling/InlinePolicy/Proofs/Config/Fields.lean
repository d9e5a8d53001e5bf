import InlinePolicy.Config.Overrides
import InlinePolicy.Proofs.Binary64.Operations

/-!
# Fields and their variables

A configuration is a table of fields, and each field is overridden by a variable of its own.  A
lookup supplies a field if the text of its variable is well-formed (`Field.supplied?`), and a text
that is not is an error of the field (`Field.error?`).  An override is exactly that, field by field:
the values are those that are supplied (`get_override`), and the errors stand in the order of the
fields (`errors_override`).
-/

namespace InlinePolicy

/-- The lookup of the variables in a list. -/
def Lookup.ofList (settings : List (String × String)) : Lookup := fun name => settings.lookup name

namespace Config

open Binary64
open Float.Model (UnpackedFloat)
open Float.Model.UnpackedFloat (Sign)

/-- The thresholds, as names of the fields of a configuration. -/
inductive Field where
  | inlineEverything
  | maximumDesiredSize
  | maximumInliningSize
  | trivialInliningSize
  | smallCompiledSize
  | limitInlinedInvokes
deriving DecidableEq, Repr

namespace Field

/-- The fields, in the order of a configuration. -/
def all : List Field :=
  [inlineEverything, maximumDesiredSize, maximumInliningSize, trivialInliningSize,
    smallCompiledSize, limitInlinedInvokes]

theorem mem_all (field : Field) : field ∈ all := by
  cases field <;> decide

/-- What a field holds. -/
abbrev Value : Field → Type
  | inlineEverything => Bool
  | maximumDesiredSize | maximumInliningSize | trivialInliningSize => UInt64
  | smallCompiledSize => Int64
  | limitInlinedInvokes => Float

/-- The variable that overrides a field. -/
def variableName : Field → String
  | inlineEverything => everythingVariable
  | maximumDesiredSize => maximumDesiredSizeVariable
  | maximumInliningSize => maximumInliningSizeVariable
  | trivialInliningSize => trivialSizeVariable
  | smallCompiledSize => smallCompiledSizeVariable
  | limitInlinedInvokes => limitInvokesVariable

/-- No variable overrides two fields. -/
theorem variableName_injective : Function.Injective variableName := by
  intro field field' same
  cases field <;> cases field' <;> first | rfl | exact absurd same (by decide)

/-- The value of a field. -/
def get : (field : Field) → Config → field.Value
  | inlineEverything, config => config.inlineEverything
  | maximumDesiredSize, config => config.maximumDesiredSize
  | maximumInliningSize, config => config.maximumInliningSize
  | trivialInliningSize, config => config.trivialInliningSize
  | smallCompiledSize, config => config.smallCompiledSize
  | limitInlinedInvokes, config => config.limitInlinedInvokes

/-- Reads a well-formed text without blanks around it.  A limit must be finite. -/
def read? : (field : Field) → List Char → Option field.Value
  | inlineEverything => Text.readBool?
  | maximumDesiredSize | maximumInliningSize | trivialInliningSize => Text.readWord?
  | smallCompiledSize => Text.readSignedWord?
  | limitInlinedInvokes => fun text => (Text.readNumber? text).filter Float.isFinite

/-- The value that a lookup supplies for a field, if its variable is set to a well-formed text. -/
def supplied? (field : Field) (lookup : Lookup) : Option field.Value :=
  (lookup field.variableName).bind fun text => field.read? (Text.trim text.toList)

/-- The text that the variable of a field is set to, if it is malformed. -/
def malformed? (field : Field) (lookup : Lookup) : Option String :=
  (lookup field.variableName).filter fun text => (field.read? (Text.trim text.toList)).isNone

/-- How an error shows a malformed text: as it is, blanks included, or as the number that it spells
if this is a limit that is not finite. -/
def shown : Field → String → String
  | limitInlinedInvokes, text =>
    match Text.readNumber? (Text.trim text.toList) with
    | some limit => if limit.isNaN then "NaN" else if 0.0 < limit then "inf" else "-inf"
    | none => text
  | _, text => text

/-- The error of a field whose variable is set to a malformed text. -/
def error? (field : Field) (lookup : Lookup) : Option ConfigError :=
  (field.malformed? lookup).map fun text => .invalidValue field.variableName (field.shown text)

end Field

theorem ext_get {config config' : Config}
    (same : ∀ field : Field, field.get config = field.get config') : config = config' := by
  cases config
  cases config'
  simp only [mk.injEq]
  exact ⟨same .inlineEverything, same .maximumDesiredSize, same .maximumInliningSize,
    same .trivialInliningSize, same .smallCompiledSize, same .limitInlinedInvokes⟩

/-! ## One variable -/

namespace Override

variable {α : Type} (lookup : Lookup) (name : String) (read? : List Char → Option α)

theorem value_ofLookup (initial : α) :
    (ofLookup lookup name read?).value initial =
      ((lookup name).bind fun text => read? (Text.trim text.toList)).getD initial := by
  unfold ofLookup
  cases lookup name with
  | none => rfl
  | some text =>
    dsimp only [Option.bind_some]
    cases read? (Text.trim text.toList) <;> rfl

theorem errors_ofLookup :
    (ofLookup lookup name read?).errors name =
      (((lookup name).filter fun text => (read? (Text.trim text.toList)).isNone).map
        (ConfigError.invalidValue name)).toList := by
  unfold ofLookup
  cases lookup name with
  | none => rfl
  | some text =>
    cases value : read? (Text.trim text.toList) <;> simp [Option.filter, errors, value]

end Override

/-! ## Values -/

/-- The limit goes through a test of its own: one that is not finite is dropped after it is read,
wherever it comes from. -/
theorem limit_override (config : Config) (lookup : Lookup) :
    (config.override lookup).1.limitInlinedInvokes =
      (Field.limitInlinedInvokes.supplied? lookup).getD config.limitInlinedInvokes := by
  change (if ((Override.ofLookup lookup limitInvokesVariable Text.readNumber?).value
    config.limitInlinedInvokes).isFinite then _ else _) = _
  rw [Override.value_ofLookup, Field.supplied?, Field.variableName]
  cases lookup limitInvokesVariable with
  | none => simp
  | some text =>
    simp only [Option.bind_some, Field.read?]
    cases Text.readNumber? (Text.trim text.toList) with
    | none => simp
    | some limit => by_cases finite : limit.isFinite <;> simp [Option.filter, finite]

/-- Each field has the value that is supplied for it, or else keeps its own. -/
theorem get_override (field : Field) (config : Config) (lookup : Lookup) :
    field.get (config.override lookup).1 = (field.supplied? lookup).getD (field.get config) := by
  cases field with
  | limitInlinedInvokes => exact limit_override config lookup
  | inlineEverything | maximumDesiredSize | maximumInliningSize | trivialInliningSize
  | smallCompiledSize => exact Override.value_ofLookup lookup _ _ _

/-! ## Errors -/

/-- A number that is not finite has one of three texts. -/
theorem limitText_of_isFinite_eq_false {limit : Float} (h : limit.isFinite = false) :
    limitText limit = if limit.isNaN then "NaN" else if 0.0 < limit then "inf" else "-inf" := by
  have isNaN_eq : limit.isNaN = limit.toModel.unpack.isNaN := rfl
  have isFinite_eq : limit.isFinite = limit.toModel.unpack.isFinite := rfl
  have units_eq : units limit = unpackedUnits limit.toModel.unpack := rfl
  have large := infinity_pos
  simp only [limitText, Decimal.Style.write, isNegative, zero_lt_iff, isNaN_eq, units_eq]
  rw [isFinite_eq] at h
  revert h
  cases limit.toModel.unpack with
  | notANumber => exact fun _ => rfl
  | infinity s =>
    rintro -
    rw [unpackedUnits_infinity]
    cases s with
    | positive => exact (if_pos ⟨rfl, Int.natCast_pos.2 large⟩).symm
    | negative => exact (if_neg fun less => absurd less.2 (by simp [Sign.apply])).symm
  | zero s | finite s m e pos =>
    intro finite
    cases finite

/-- A limit that is not finite is an error too if the field had it before, and the lookup has no
number to replace it. -/
def inheritedError? (config : Config) (lookup : Lookup) : Option ConfigError :=
  if config.limitInlinedInvokes.isFinite ∨
      ((lookup limitInvokesVariable).bind fun text =>
        Text.readNumber? (Text.trim text.toList)).isSome then none
  else some (.invalidValue limitInvokesVariable (limitText config.limitInlinedInvokes))

/-- A text that is no number and a limit that is not finite are reported in two places, but no text
is reported twice. -/
theorem errors_limit (config : Config) (lookup : Lookup) :
    let invokes := Override.ofLookup lookup limitInvokesVariable Text.readNumber?
    let limit := invokes.value config.limitInlinedInvokes
    invokes.errors limitInvokesVariable ++
        (if limit.isFinite then [] else [.invalidValue limitInvokesVariable (limitText limit)]) =
      (Field.limitInlinedInvokes.error? lookup).toList ++
        (config.inheritedError? lookup).toList := by
  dsimp only
  rw [Override.value_ofLookup, Override.errors_ofLookup, Field.error?, Field.malformed?,
    Field.variableName, inheritedError?]
  cases lookup limitInvokesVariable with
  | none => by_cases finite : config.limitInlinedInvokes.isFinite <;> simp [finite]
  | some text =>
    cases read : Text.readNumber? (Text.trim text.toList) with
    | none =>
      by_cases finite : config.limitInlinedInvokes.isFinite <;>
        simp [Option.filter, Field.read?, Field.shown, read, finite]
    | some limit =>
      cases infinite : limit.isFinite with
      | true => simp [Option.filter, Field.read?, read, infinite]
      | false =>
        simp [Option.filter, Field.read?, Field.shown, read, infinite,
          limitText_of_isFinite_eq_false infinite]

/-- The errors are those of the fields, in their order, and that of the limit they start from. -/
theorem errors_override_eq_append (config : Config) (lookup : Lookup) :
    (config.override lookup).2 =
      (Field.all.filterMap fun field => field.error? lookup) ++
        (config.inheritedError? lookup).toList := by
  simp only [List.filterMap_eq_flatMap_toList, Field.all, List.flatMap_cons, List.flatMap_nil,
    List.append_nil, List.append_assoc]
  rw [← errors_limit config lookup]
  simp only [override, List.append_assoc, Override.errors_ofLookup]
  rfl

/-- If the limit is finite to begin with, the errors are those of the fields, in their order. -/
theorem errors_override {config : Config} (finite : config.limitInlinedInvokes.isFinite = true)
    (lookup : Lookup) :
    (config.override lookup).2 = Field.all.filterMap fun field => field.error? lookup := by
  rw [errors_override_eq_append, inheritedError?, if_pos (.inl finite), Option.toList_none,
    List.append_nil]

/-! ## Strict overrides -/

section

variable {config resolved : Config} {lookup : Lookup} {error : ConfigError}

theorem override?_eq_ok_iff :
    config.override? lookup = .ok resolved ↔
      (config.override lookup).2 = [] ∧ resolved = (config.override lookup).1 := by
  unfold override?
  rcases config.override lookup with ⟨overridden, _ | ⟨first, others⟩⟩
  · simp [eq_comm]
  · simp

theorem override?_eq_error_iff :
    config.override? lookup = .error error ↔
      (config.override lookup).2.head? = some error := by
  unfold override?
  rcases config.override lookup with ⟨overridden, _ | ⟨first, others⟩⟩
  · simp
  · simp

end

end Config

end InlinePolicy
