import InlinePolicy.Proofs.CommandLine.Resolution

/-!
# Warnings about overrides

A lenient run has an event for each malformed override, but whether they are logged depends on the
filter alone.  If it shows the part of the program that resolves configurations, the log has one
warning for each malformed field; the default filter does not, and then the log has none
(`CommandLine.warnings_run`).
-/

namespace InlinePolicy

namespace Log

/-- What the line of a warning about an override says before the error. -/
def overrideWarning : String := "WARN ignoring inlining override err="

/-- Whether a line is a warning about an override. -/
def isOverrideWarning (line : String) : Bool := overrideWarning.toList.isPrefixOf line.toList

namespace Event

/-- Whether an event is about an override. -/
def isOverride : Event → Bool
  | overrideIgnored _ => true
  | siteRepeated _ | evaluating _ | recorded _ => false

theorem line_overrideIgnored (error : ConfigError) :
    (overrideIgnored error).line = overrideWarning ++ error.message := by
  rw [← String.toList_inj]
  simp [line, level, message, fields, Level.name, overrideWarning, toString]

/-- A line starts with the level and the message. -/
theorem exists_line_eq (event : Event) :
    ∃ rest, event.line.toList =
      event.level.name.toList ++ ' ' :: (event.message.toList ++ rest) := by
  unfold line
  generalize event.fields.map _ = texts
  cases texts with
  | nil => exact ⟨[], by simp⟩
  | cons text texts => exact ⟨' ' :: (" ".intercalate (text :: texts)).toList, by simp⟩

/-- The lines of other events differ from these warnings in their level or in their message. -/
theorem isOverrideWarning_line (event : Event) :
    isOverrideWarning event.line = event.isOverride := by
  cases event with
  | overrideIgnored error =>
    rw [line_overrideIgnored, isOverrideWarning, String.toList_append]
    exact List.isPrefixOf_iff_prefix.2 (List.prefix_append _ _)
  | siteRepeated repetition =>
    obtain ⟨rest, starts⟩ := (siteRepeated repetition).exists_line_eq
    rw [isOverrideWarning, starts, level, message]
    rfl
  | evaluating candidates =>
    obtain ⟨rest, starts⟩ := (evaluating candidates).exists_line_eq
    rw [isOverrideWarning, starts, level]
    rfl
  | recorded trace =>
    obtain ⟨rest, starts⟩ := (recorded trace).exists_line_eq
    rw [isOverrideWarning, starts, level]
    split_ifs <;> rfl

end Event

namespace Filter

/-- Whether a filter shows warnings of the part of the program that resolves configurations. -/
def showsOverrides (filter : Filter) : Bool :=
  (filter.directive? "otterc_config::inlining").any fun directive =>
    Level.warn.verbosity ≤ directive.verbosity

theorem passes_overrideIgnored (filter : Filter) (error : ConfigError) :
    filter.passes (.overrideIgnored error) = filter.showsOverrides := by
  rw [passes, showsOverrides, Event.target, Event.level]
  cases filter.directive? "otterc_config::inlining" <;> rfl

theorem showsOverrides_unset : (ofSetting none).showsOverrides = false := by decide

/-- The level of warnings, as a number, is asked for in all parts of the program. -/
theorem showsOverrides_warn : (ofSetting (some "2")).showsOverrides = true := by
  have words : "2".splitOn "," = ["2"] := by cbv
  have directives : read? "2" = some [⟨"", Level.warn.verbosity⟩] := by
    rw [read?, words]
    decide
  rw [ofSetting, Option.bind_some, directives]
  decide

/-- The warnings about overrides in the lines of events are the lines of the events about
overrides. -/
theorem filter_lines (filter : Filter) (events : List Event) :
    (filter.lines events).filter isOverrideWarning =
      filter.lines (events.filter Event.isOverride) := by
  rw [lines, lines, List.filter_map, List.filter_filter, List.filter_filter]
  congr 2
  funext event
  rw [Function.comp_apply, event.isOverrideWarning_line, Bool.and_comm]

theorem lines_overrideIgnored (filter : Filter) (errors : List ConfigError) :
    filter.lines (errors.map .overrideIgnored) =
      if filter.showsOverrides then errors.map fun error => overrideWarning ++ error.message
      else [] := by
  rw [lines, List.filter_map, List.map_map]
  have passes : filter.passes ∘ Event.overrideIgnored = fun _ => filter.showsOverrides :=
    funext filter.passes_overrideIgnored
  rw [passes]
  cases filter.showsOverrides with
  | false => simp
  | true => simp [Event.line_overrideIgnored]

end Filter

end Log

namespace CommandLine

open Log

variable {world : World} {command : Command} {options : ConfigOptions}

/-- Overrides are not looked at any more once the configuration is resolved. -/
theorem filter_events_body (world : World) (command : Command) (config : Config) :
    (command.body world config).events.filter Event.isOverride = [] := by
  cases command with
  | config _ | version => rfl
  | evaluate options =>
    rw [Command.body, withScenario]
    cases world.content options.scenario with
    | error error => rfl
    | ok text =>
      have repeated (sites : List RepeatedSite) :
          (sites.map Event.siteRepeated).filter Event.isOverride = [] := by
        simp [Event.isOverride]
      dsimp only [Outcome.after]
      rw [List.filter_append, repeated, List.nil_append]
      cases (Scenario.load text).2 with
      | error error => rfl
      | ok scenario =>
        dsimp only [evaluateScenario, evaluationEvents]
        split_ifs <;> simp [Event.isOverride]

/-- A lenient run without a file has a warning in its log for each malformed override, in the order
of the fields, if the filter shows them, and else none.  The filter that holds if none is asked for
does not show them. -/
theorem warnings_run (given : command.configOptions? = some options)
    (lenient : options.strict = false) (default : options.file = none) :
    ((run world command).log world).filter isOverrideWarning =
      (if (Filter.ofSetting (world.environment "RUST_LOG")).showsOverrides then
        (Config.Field.all.filterMap fun field => field.error? world.environment).map fun error =>
          overrideWarning ++ error.message
      else []) ∧
    (world.environment "RUST_LOG" = none →
      ((run world command).log world).filter isOverrideWarning = []) := by
  have warnings : ((run world command).log world).filter isOverrideWarning =
      if (Filter.ofSetting (world.environment "RUST_LOG")).showsOverrides then
        (Config.Field.all.filterMap fun field => field.error? world.environment).map fun error =>
          overrideWarning ++ error.message
      else [] := by
    rw [Outcome.log, Filter.filter_lines, run_eq_withConfig given, withConfig,
      resolveConfig_lenient default lenient]
    dsimp only [Outcome.after]
    rw [List.filter_append, filter_events_body, List.append_nil, List.filter_map]
    have all : Event.isOverride ∘ Event.overrideIgnored = fun _ => true := rfl
    rw [all, List.filter_true, Filter.lines_overrideIgnored, Config.errors_override (by decide)]
  refine ⟨warnings, fun unset => ?_⟩
  rw [warnings, unset, Filter.showsOverrides_unset]
  rfl

/-- A filter that shows the warnings gives one for the size and one for the limit. -/
theorem warnings_run_shown :
    let world := World.ofSettings
      [(Config.limitInvokesVariable, "-infinity"), ("RUST_LOG", "2"),
        (Config.trivialSizeVariable, " tiny")]
    ((run world (.config {})).log world).filter isOverrideWarning =
      [overrideWarning ++ "invalid value ` tiny` for `OTTER_INLINE_TRIVIAL_SIZE`",
        overrideWarning ++ "invalid value `-inf` for `OTTER_INLINE_LIMIT_INVOKES`"] := by
  intro world
  obtain ⟨warnings, -⟩ := @warnings_run world (.config {}) {} rfl rfl rfl
  rw [warnings, show world.environment "RUST_LOG" = some "2" from rfl, Filter.showsOverrides_warn]
  decide

/-- If no filter is asked for, a malformed override is ignored and nothing at all is logged. -/
theorem log_of_malformed :
    let world := World.ofSettings [(Config.trivialSizeVariable, "tiny")]
    world.environment "RUST_LOG" = none ∧
      Config.Field.trivialInliningSize.malformed? world.environment = some "tiny" ∧
      (run world (.config {})).log world = [] := by
  decide

end CommandLine

end InlinePolicy
