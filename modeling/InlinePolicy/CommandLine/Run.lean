import InlinePolicy.CommandLine.Arguments
import InlinePolicy.Config.Json
import InlinePolicy.Config.Overrides
import InlinePolicy.Log.Filter
import InlinePolicy.Report.Json
import InlinePolicy.Report.Text
import InlinePolicy.Scenario.Json

/-!
# Runs

A run is a function of its `World`: arguments are read before, and what a run prints and logs is
its `Outcome`.
-/

namespace InlinePolicy.CommandLine

/-- Why a file cannot be read. -/
inductive FileError where
  | notFound
  | notADirectory
  | isADirectory
  | other (message : String)
deriving DecidableEq, Repr

/-- The text of an error. -/
def FileError.message : FileError → String
  | notFound => "No such file or directory (os error 2)"
  | notADirectory => "Not a directory (os error 20)"
  | isADirectory => "Is a directory (os error 21)"
  | other message => message

/-- What a run can see. -/
structure World where
  environment : Lookup
  /-- The content of a file. -/
  content : String → Except FileError String
  /-- Whether the output goes to a terminal. -/
  terminal : Bool

/-- Why a run fails. -/
inductive Failure where
  | configFile (path : String) (error : ConfigError)
  | override (error : ConfigError)
  | scenarioFile (path : String) (error : FileError)
  | scenario (path : String) (error : Scenario.LoadError)
  | overflow
deriving DecidableEq

/-- What a run that fails says: what it could not do, and why. -/
def Failure.chain : Failure → List String
  | configFile path error => [s!"failed to load inlining config {path}", error.message]
  | override error => ["invalid inlining override", error.message]
  | scenarioFile path error => [s!"failed to read scenario {path}", error.message]
  | scenario path error => [s!"failed to parse scenario {path}", error.message]
  | overflow => [Word.overflowMessage]

/-- What a run prints, or why it fails, and what it may log. -/
structure Outcome where
  events : List Log.Event
  result : Except Failure String

/-- Puts events in front of those of an outcome. -/
def Outcome.after (events : List Log.Event) (outcome : Outcome) : Outcome :=
  { outcome with events := events ++ outcome.events }

/-- An outcome that is a failure. -/
def Outcome.fail (failure : Failure) : Outcome := ⟨[], .error failure⟩

/-! ## Configuration -/

/-- The configuration that the options and the environment give, and the overrides that were
ignored. -/
def resolveConfig (environment : Lookup) (options : ConfigOptions) :
    Except Failure (Config × List ConfigError) := do
  let base ←
    match options.file with
    | none => .ok {}
    | some path => (Config.ofFile path).mapError (.configFile path)
  if options.strict then
    let config ← (base.override? environment).mapError .override
    return (config, [])
  else
    return base.override environment

/-- Goes on with the configuration, after a warning about each override that was ignored. -/
def withConfig (world : World) (options : ConfigOptions) (next : Config → Outcome) : Outcome :=
  match resolveConfig world.environment options with
  | .error failure => .fail failure
  | .ok (config, ignored) => (next config).after (ignored.map .overrideIgnored)

/-! ## Evaluation -/

/-- Whether the output has colors: if they are forced, or on a terminal unless they are
declined. -/
def wantsColors (world : World) : Bool :=
  (world.environment "CLICOLOR_FORCE").any (· ≠ "0") ||
    ((world.environment "NO_COLOR").isNone &&
      (world.environment "CLICOLOR").all (· ≠ "0") && world.terminal)

/-- The events of an evaluation. -/
def evaluationEvents (report : Report) (traces : List Trace) : List Log.Event :=
  (if report.continued then [.evaluating traces.length] else []) ++ traces.map .recorded

/-- Evaluates a scenario and prints the report. -/
def evaluateScenario (world : World) (options : EvaluateOptions) (config : Config)
    (scenario : Scenario) : Outcome :=
  let report := scenario.evaluate config options.graphNodes options.fullyProcessed
  let traces := scenario.traces config options.graphNodes options.fullyProcessed
  let result :=
    if options.json then .ok (report.json ++ "\n")
    else
      match report.text? (wantsColors world) with
      | some text => .ok text
      | none => .error .overflow
  ⟨evaluationEvents report traces, result⟩

/-- Goes on with the scenario in a file, after a warning about each repeated call site. -/
def withScenario (world : World) (path : String) (next : Scenario → Outcome) : Outcome :=
  match world.content path with
  | .error error => .fail (.scenarioFile path error)
  | .ok text =>
    let (repeated, loaded) := Scenario.load text
    let outcome : Outcome :=
      match loaded with
      | .error error => .fail (.scenario path error)
      | .ok scenario => next scenario
    outcome.after (repeated.map .siteRepeated)

/-! ## Commands -/

/-- The name and the version of the program. -/
def versionText : String := "otter-inline 0.1.0\n"

/-- Does what a command asks for. -/
def run (world : World) : Command → Outcome
  | .config options =>
    withConfig world options fun config => ⟨[], .ok ((toJson config).pretty ++ "\n")⟩
  | .evaluate options =>
    withConfig world options.config fun config =>
      withScenario world options.scenario fun scenario =>
        evaluateScenario world options config scenario
  | .version => ⟨[], .ok versionText⟩

/-- The lines that a run logs. -/
def Outcome.log (world : World) (outcome : Outcome) : List String :=
  (Log.Filter.ofSetting (world.environment "RUST_LOG")).lines outcome.events

end InlinePolicy.CommandLine
