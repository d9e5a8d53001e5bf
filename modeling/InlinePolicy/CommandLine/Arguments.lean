import InlinePolicy.Text.Numeral

/-!
# Arguments

The grammar of the command line: a command and its options.  An option is a flag, or has a value
in the same argument after `=` or in the next one, which must not look like an option.  No option
occurs twice, and nothing else may be left.
-/

namespace InlinePolicy.CommandLine

/-- Where thresholds come from. -/
structure ConfigOptions where
  /-- A file with thresholds. -/
  file : Option String := none
  /-- Whether a malformed override is an error. -/
  strict : Bool := false
deriving DecidableEq, Repr

/-- The options of an evaluation. -/
structure EvaluateOptions where
  config : ConfigOptions := {}
  /-- The file with the scenario. -/
  scenario : String
  /-- The size of the caller's graph, instead of the scenario's. -/
  graphNodes : Option UInt64 := none
  fullyProcessed : Bool := false
  /-- Whether the report is JSON instead of text. -/
  json : Bool := false
deriving DecidableEq, Repr

/-- What a run is asked to do. -/
inductive Command where
  | config (options : ConfigOptions)
  | evaluate (options : EvaluateOptions)
  | version
deriving DecidableEq, Repr

/-- Whether an option has a value. -/
inductive Arity where
  | flag
  | value
deriving DecidableEq

/-- The options of a command. -/
abbrev Grammar := List (String × Arity)

/-- The options that are given, with their values. -/
abbrev Options := List (String × Option String)

/-- The options that choose a configuration. -/
def configGrammar : Grammar := [("config", .value), ("strict-env", .flag)]

/-- The options of an evaluation. -/
def evaluateGrammar : Grammar :=
  [("candidates", .value), ("graph-nodes", .value), ("fully-processed", .flag), ("json", .flag)] ++
    configGrammar

/-- The name of a long option, and what follows its first `=`. -/
def splitOption? (argument : String) : Option (String × Option String) :=
  match argument.toList with
  | '-' :: '-' :: rest =>
    let name := rest.takeWhile (· ≠ '=')
    let value := rest.drop name.length
    some (String.ofList name, if value.isEmpty then none else some (String.ofList (value.drop 1)))
  | _ => none

/-- Whether an argument can be the value of the option before it. -/
def isValue (argument : String) : Bool := argument = "-" || argument.toList.head? ≠ some '-'

/-- Reads options.  Two dashes end them. -/
def readOptions (grammar : Grammar) : List String → Option Options
  | [] => some []
  | ["--"] => some []
  | argument :: rest => do
    let (name, inline) ← splitOption? argument
    match ← grammar.lookup name, inline, rest with
    | .flag, none, rest => ((name, none) :: ·) <$> readOptions grammar rest
    | .flag, some _, _ => none
    | .value, some value, rest => ((name, some value) :: ·) <$> readOptions grammar rest
    | .value, none, value :: rest =>
      if isValue value then ((name, some value) :: ·) <$> readOptions grammar rest else none
    | .value, none, [] => none

namespace Options

/-- Whether an option is given. -/
def has (options : Options) (name : String) : Bool := options.any fun option => option.1 == name

/-- The value of an option, if it is given. -/
def value? (options : Options) (name : String) : Option String := (options.lookup name).join

/-- A path is not empty. -/
def path? (options : Options) (name : String) : Option (Option String) :=
  match options.value? name with
  | none => some none
  | some path => if path.isEmpty then none else some (some path)

/-- A count is a whole number that fits a word. -/
def count? (options : Options) (name : String) : Option (Option UInt64) :=
  match options.value? name with
  | none => some none
  | some text => some <$> Text.readWord? text.toList

/-- Whether no option is given twice. -/
def areDistinct (options : Options) : Bool := (options.map Prod.fst).Nodup

end Options

/-- The options that choose a configuration. -/
def configOptions? (options : Options) : Option ConfigOptions := do
  return { file := ← options.path? "config", strict := options.has "strict-env" }

/-- The options of an evaluation; the scenario must be given. -/
def evaluateOptions? (options : Options) : Option EvaluateOptions := do
  return {
    config := ← configOptions? options
    scenario := ← (← options.path? "candidates")
    graphNodes := ← options.count? "graph-nodes"
    fullyProcessed := options.has "fully-processed"
    json := options.has "json" }

/-- Whether an argument asks for the version: the long option, or short options that start with
it.  What comes after it does not matter. -/
def asksVersion (argument : String) : Bool :=
  argument = "--version" || "-V".toList.isPrefixOf argument.toList

/-- The command that a list of arguments spells; none if it is refused. -/
def Command.ofArguments? : List String → Option Command
  | "config" :: arguments => do
    let options ← readOptions configGrammar arguments
    guard options.areDistinct
    .config <$> configOptions? options
  | "evaluate" :: arguments => do
    let options ← readOptions evaluateGrammar arguments
    guard options.areDistinct
    .evaluate <$> evaluateOptions? options
  | argument :: _ => if asksVersion argument then some .version else none
  | [] => none

end InlinePolicy.CommandLine
