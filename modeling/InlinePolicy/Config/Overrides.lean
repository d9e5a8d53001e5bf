import InlinePolicy.Config.Basic
import InlinePolicy.Decimal.Written
import InlinePolicy.Text.Blank
import InlinePolicy.Text.Numeral

/-!
# Overrides

Each threshold has a variable that overrides it.  A lookup says which variables are set and to
what text.  `Config.override` applies every well-formed value and reports the others, in the order
of the fields; `Config.override?` gives up on the first malformed one.
-/

namespace InlinePolicy

/-- The texts of the variables that are set. -/
abbrev Lookup := String → Option String

/-- Why a configuration cannot be resolved. -/
inductive ConfigError where
  | invalidValue (name value : String)
  /-- Configuration files are not supported. -/
  | filesDisabled
deriving DecidableEq, Repr

/-- The text of an error. -/
def ConfigError.message : ConfigError → String
  | .invalidValue name value => s!"invalid value `{value}` for `{name}`"
  | .filesDisabled => "TOML support not enabled. Enable the 'toml-config' feature."

namespace Config

/-! ## The variables -/

/-- Overrides `inlineEverything`. -/
def everythingVariable : String := "OTTER_INLINE_EVERYTHING"

/-- Overrides `maximumDesiredSize`. -/
def maximumDesiredSizeVariable : String := "OTTER_INLINE_MAX_DESIRED_SIZE"

/-- Overrides `maximumInliningSize`. -/
def maximumInliningSizeVariable : String := "OTTER_INLINE_MAX_INLINING_SIZE"

/-- Overrides `trivialInliningSize`. -/
def trivialSizeVariable : String := "OTTER_INLINE_TRIVIAL_SIZE"

/-- Overrides `smallCompiledSize`. -/
def smallCompiledSizeVariable : String := "OTTER_INLINE_SMALL_COMPILED_SIZE"

/-- Overrides `limitInlinedInvokes`. -/
def limitInvokesVariable : String := "OTTER_INLINE_LIMIT_INVOKES"

/-- The variables that override a threshold, in the order of the fields. -/
def variableNames : List String :=
  [everythingVariable, maximumDesiredSizeVariable, maximumInliningSizeVariable,
    trivialSizeVariable, smallCompiledSizeVariable, limitInvokesVariable]

/-! ## Overriding -/

/-- What a lookup says about a value. -/
inductive Override (α : Type) where
  | unset
  | set (value : α)
  | malformed (text : String)

/-- The value of a variable, read from its text without the blanks around it. -/
def Override.ofLookup {α : Type} (lookup : Lookup) (name : String)
    (read? : List Char → Option α) : Override α :=
  match lookup name with
  | none => .unset
  | some text =>
    match read? (Text.trim text.toList) with
    | some value => .set value
    | none => .malformed text

/-- The value after an override. -/
def Override.value {α : Type} (initial : α) : Override α → α
  | .set value => value
  | .unset | .malformed _ => initial

/-- The errors of an override. -/
def Override.errors {α : Type} (name : String) : Override α → List ConfigError
  | .malformed text => [.invalidValue name text]
  | .unset | .set _ => []

/-- The text of a limit that is not finite. -/
def limitText (limit : Float) : String :=
  String.ofList (Decimal.Style.plain.write limit)

/-- Applies the well-formed values of a lookup, and reports the malformed ones.  A limit on the
invokes must be finite in the end: otherwise the field keeps its value, and that is an error
too. -/
def override (config : Config) (lookup : Lookup) : Config × List ConfigError :=
  let everything := Override.ofLookup lookup everythingVariable Text.readBool?
  let desired := Override.ofLookup lookup maximumDesiredSizeVariable Text.readWord?
  let inlining := Override.ofLookup lookup maximumInliningSizeVariable Text.readWord?
  let trivialSize := Override.ofLookup lookup trivialSizeVariable Text.readWord?
  let compiled := Override.ofLookup lookup smallCompiledSizeVariable Text.readSignedWord?
  let invokes := Override.ofLookup lookup limitInvokesVariable Text.readNumber?
  let limit := invokes.value config.limitInlinedInvokes
  let overridden : Config :=
    { inlineEverything := everything.value config.inlineEverything
      maximumDesiredSize := desired.value config.maximumDesiredSize
      maximumInliningSize := inlining.value config.maximumInliningSize
      trivialInliningSize := trivialSize.value config.trivialInliningSize
      smallCompiledSize := compiled.value config.smallCompiledSize
      limitInlinedInvokes := if limit.isFinite then limit else config.limitInlinedInvokes }
  let errors :=
    everything.errors everythingVariable ++ desired.errors maximumDesiredSizeVariable ++
      inlining.errors maximumInliningSizeVariable ++ trivialSize.errors trivialSizeVariable ++
      compiled.errors smallCompiledSizeVariable ++ invokes.errors limitInvokesVariable ++
      (if limit.isFinite then [] else [.invalidValue limitInvokesVariable (limitText limit)])
  (overridden, errors)

/-- Applies a lookup all of whose values are well-formed; otherwise gives the first error. -/
def override? (config : Config) (lookup : Lookup) : Except ConfigError Config :=
  match config.override lookup with
  | (overridden, []) => .ok overridden
  | (_, error :: _) => .error error

/-- The configuration in a file. -/
def ofFile (_path : String) : Except ConfigError Config := .error .filesDisabled

end Config

end InlinePolicy
