import InlinePolicy.CommandLine.Run
import InlinePolicy.Proofs.Config.Fields

/-!
# Strict and lenient resolution

An override that is strict succeeds if no text is malformed, and then it does what the lenient one
does (`Config.override?_eq_ok_iff`); otherwise it gives the error of the first malformed field.  So
a run resolves its configuration, strictly or not, to the defaults with the overrides
(`CommandLine.eq_override_of_resolves`), and one that is strict does the same without being strict
(`Config.strict_agrees`).
-/

namespace InlinePolicy

namespace CommandLine

/-- What a run sees if these variables are set and there are no files. -/
def World.ofSettings (settings : List (String × String)) : World where
  environment := Lookup.ofList settings
  content _ := .error .notFound
  terminal := false

/-- The options of a command that choose its configuration, if it has one. -/
def Command.configOptions? : Command → Option ConfigOptions
  | .config options => some options
  | .evaluate options => some options.config
  | .version => none

/-- The same command, but malformed overrides are ignored. -/
def Command.lenient : Command → Command
  | .config options => .config { options with strict := false }
  | .evaluate options =>
    .evaluate { options with config := { options.config with strict := false } }
  | .version => .version

/-- What a command does with its configuration. -/
def Command.body (world : World) : Command → Config → Outcome
  | .config _, resolved => ⟨[], .ok ((toJson resolved).pretty ++ "\n")⟩
  | .evaluate options, resolved =>
    withScenario world options.scenario fun scenario =>
      evaluateScenario world options resolved scenario
  | .version, _ => ⟨[], .ok versionText⟩

section

variable {world : World} {command : Command} {options : ConfigOptions}

theorem run_eq_withConfig (given : command.configOptions? = some options) :
    run world command = withConfig world options (command.body world) := by
  cases command with
  | config _ | evaluate _ =>
    obtain rfl := Option.some.inj given
    rfl
  | version => cases given

theorem configOptions?_lenient (given : command.configOptions? = some options) :
    command.lenient.configOptions? = some { options with strict := false } := by
  cases command with
  | config _ | evaluate _ =>
    obtain rfl := Option.some.inj given
    rfl
  | version => cases given

theorem body_lenient (world : World) (command : Command) :
    command.lenient.body world = command.body world := by
  cases command <;> rfl

end

section

variable {environment : Lookup} {options : ConfigOptions} {resolved : Config × List ConfigError}

/-- Files are not supported, so a configuration is resolved from the defaults. -/
theorem file_eq_none (resolves : resolveConfig environment options = .ok resolved) :
    options.file = none := by
  rw [resolveConfig] at resolves
  cases given : options.file with
  | none => rfl
  | some path =>
    rw [given] at resolves
    cases resolves

theorem resolveConfig_lenient (default : options.file = none) (lenient : options.strict = false) :
    resolveConfig environment options = .ok (({} : Config).override environment) := by
  rw [resolveConfig, default, lenient]
  rfl

theorem resolveConfig_strict (default : options.file = none) (strict : options.strict = true) :
    resolveConfig environment options =
      ((({} : Config).override? environment).map fun config => (config, [])).mapError
        .override := by
  rw [resolveConfig, default, strict]
  change ((({} : Config).override? environment).mapError Failure.override >>= fun config =>
    pure (config, [])) = _
  cases ({} : Config).override? environment <;> rfl

variable {config : Config} {ignored : List ConfigError}

/-- A strict resolution that succeeds has nothing to ignore. -/
theorem resolveConfig_strict_eq_ok_iff (default : options.file = none)
    (strict : options.strict = true) :
    resolveConfig environment options = .ok (config, ignored) ↔
      ({} : Config).override? environment = .ok config ∧ ignored = [] := by
  rw [resolveConfig_strict default strict]
  cases ({} : Config).override? environment <;> simp [Except.map, Except.mapError, eq_comm]

theorem resolveConfig_strict_eq_error_iff {failure : Failure} (default : options.file = none)
    (strict : options.strict = true) :
    resolveConfig environment options = .error failure ↔
      ∃ error, ({} : Config).override? environment = .error error ∧ failure = .override error := by
  rw [resolveConfig_strict default strict]
  cases ({} : Config).override? environment <;> simp [Except.map, Except.mapError, eq_comm]

theorem resolveConfig_lenient_of_strict (strict : options.strict = true)
    (resolves : resolveConfig environment options = .ok (config, ignored)) :
    ignored = [] ∧
      resolveConfig environment { options with strict := false } = .ok (config, []) := by
  have default := file_eq_none resolves
  obtain ⟨succeeds, rfl⟩ := (resolveConfig_strict_eq_ok_iff default strict).1 resolves
  obtain ⟨none_malformed, rfl⟩ := Config.override?_eq_ok_iff.1 succeeds
  have lenient : resolveConfig environment { options with strict := false } = _ :=
    resolveConfig_lenient default rfl
  refine ⟨rfl, ?_⟩
  rw [lenient, ← none_malformed]

/-- Strictly or not, a configuration that is resolved is the default with the overrides. -/
theorem eq_override_of_resolves
    (resolves : resolveConfig environment options = .ok (config, ignored)) :
    config = (({} : Config).override environment).1 := by
  have default := file_eq_none resolves
  cases strict : options.strict with
  | false =>
    rw [resolveConfig_lenient default strict] at resolves
    exact congrArg Prod.fst (Except.ok.inj resolves).symm
  | true =>
    have succeeds := ((resolveConfig_strict_eq_ok_iff default strict).1 resolves).1
    exact (Config.override?_eq_ok_iff.1 succeeds).2

/-- Without a file, a configuration that is not resolved has been refused strictly. -/
theorem cause_of_unresolved {failure : Failure} (default : options.file = none)
    (fails : resolveConfig environment options = .error failure) :
    options.strict = true ∧
      ∃ error, ({} : Config).override? environment = .error error ∧ failure = .override error := by
  cases strict : options.strict with
  | false =>
    rw [resolveConfig_lenient default strict] at fails
    cases fails
  | true => exact ⟨rfl, (resolveConfig_strict_eq_error_iff default strict).1 fails⟩

/-- Without a file, a strict resolution succeeds exactly if the strict override does. -/
theorem exists_resolved_iff (default : options.file = none) (strict : options.strict = true) :
    (∃ resolved, resolveConfig environment options = .ok resolved) ↔
      ∃ config, ({} : Config).override? environment = .ok config := by
  constructor
  · rintro ⟨⟨config, ignored⟩, resolves⟩
    exact ⟨config, ((resolveConfig_strict_eq_ok_iff default strict).1 resolves).1⟩
  · rintro ⟨config, succeeds⟩
    exact ⟨(config, []), (resolveConfig_strict_eq_ok_iff default strict).2 ⟨succeeds, rfl⟩⟩

end

end CommandLine

namespace Config

open CommandLine

theorem override?_eq_ok_iff_malformed? {config : Config}
    (finite : config.limitInlinedInvokes.isFinite = true) (lookup : Lookup) (resolved : Config) :
    config.override? lookup = .ok resolved ↔
      (∀ field : Field, field.malformed? lookup = none) ∧
        resolved = (config.override lookup).1 := by
  rw [override?_eq_ok_iff, errors_override finite lookup, List.filterMap_eq_nil_iff]
  simp [Field.error?, Field.mem_all]

/-- If the limit is finite to begin with, an override reports each malformed text once, in the order
of the fields, the strict one succeeds exactly if there is none, with the same configuration, and
else fails for the first.  So a strict run without a file resolves its configuration exactly if no
text is malformed.  And whatever a run does that is strict and resolves its configuration, to the
defaults with the overrides, the lenient one does as well. -/
theorem strict_agrees {config : Config}
    (finite : config.limitInlinedInvokes.isFinite = true) (lookup : Lookup) :
    (config.override lookup).2 = Field.all.filterMap (fun field => field.error? lookup) ∧
    (∀ resolved : Config, config.override? lookup = .ok resolved ↔
      (∀ field : Field, field.malformed? lookup = none) ∧
        resolved = (config.override lookup).1) ∧
    (∀ error : ConfigError, config.override? lookup = .error error ↔
      (Field.all.filterMap fun field => field.error? lookup).head? = some error) ∧
    (∀ (environment : Lookup) (options : ConfigOptions),
      options.file = none → options.strict = true →
      ((∃ resolved, resolveConfig environment options = .ok resolved) ↔
        ∀ field : Field, field.malformed? environment = none)) ∧
    ∀ (world : World) (command : Command) (options : ConfigOptions) (resolved : Config)
      (ignored : List ConfigError),
      command.configOptions? = some options → options.strict = true →
      resolveConfig world.environment options = .ok (resolved, ignored) →
      ignored = [] ∧ resolved = (({} : Config).override world.environment).1 ∧
      command.lenient.configOptions? = some { options with strict := false } ∧
      resolveConfig world.environment { options with strict := false } = .ok (resolved, []) ∧
      run world command.lenient = run world command := by
  have errors := errors_override finite lookup
  refine ⟨errors, override?_eq_ok_iff_malformed? finite lookup, fun error => ?_,
    fun environment options default strict => ?_, ?_⟩
  · rw [override?_eq_error_iff, errors]
  · have finite : ({} : Config).limitInlinedInvokes.isFinite = true := by decide
    have ok := override?_eq_ok_iff_malformed? finite environment
    rw [exists_resolved_iff default strict]
    exact ⟨fun ⟨config, succeeds⟩ => ((ok config).1 succeeds).1,
      fun well_formed => ⟨_, (ok _).2 ⟨well_formed, rfl⟩⟩⟩
  · intro world command options resolved ignored given strict resolves
    obtain ⟨rfl, same⟩ := resolveConfig_lenient_of_strict strict resolves
    have lenient := configOptions?_lenient given
    refine ⟨rfl, eq_override_of_resolves resolves, lenient, same, ?_⟩
    rw [run_eq_withConfig given, run_eq_withConfig lenient, body_lenient, withConfig, withConfig,
      resolves, same]

/-- Two malformed texts, of which the strict override reports the first, and a size that is applied
strictly or not. -/
theorem strict_agrees_settings :
    let malformed := Lookup.ofList [(limitInvokesVariable, "-Infinity"),
      (trivialSizeVariable, " tiny ")]
    let world := World.ofSettings [(maximumInliningSizeVariable, "150")]
    (({} : Config).override malformed).2 =
        [.invalidValue trivialSizeVariable " tiny ", .invalidValue limitInvokesVariable "-inf"] ∧
      ({} : Config).override? malformed = .error (.invalidValue trivialSizeVariable " tiny ") ∧
      (∃ resolved, resolveConfig world.environment { strict := true } = .ok resolved) ∧
      (({} : Config).override world.environment).1 = { maximumInliningSize := 150 } ∧
      run world (.config { strict := false }) = run world (.config { strict := true }) := by
  intro malformed world
  have overridden : ({} : Config).override? world.environment =
      .ok { maximumInliningSize := 150 } := by decide
  have resolves : resolveConfig world.environment { strict := true } =
      .ok ({ maximumInliningSize := 150 }, []) :=
    (resolveConfig_strict_eq_ok_iff rfl rfl).2 ⟨overridden, rfl⟩
  obtain ⟨errors, -, first, resolved_iff, agree⟩ := @strict_agrees {} (by decide) malformed
  obtain ⟨-, applied, -, -, same⟩ := agree world (.config { strict := true }) _ _ _ rfl rfl resolves
  have well_formed (field : Field) : field.malformed? world.environment = none := by
    cases field <;> decide
  exact ⟨errors.trans (by decide), (first _).2 (by decide),
    (resolved_iff world.environment _ rfl rfl).2 well_formed, applied.symm, same⟩

end Config

end InlinePolicy
