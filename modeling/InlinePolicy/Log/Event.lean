import InlinePolicy.Config.Overrides
import InlinePolicy.Decision.Text
import InlinePolicy.Scenario.Basic
import InlinePolicy.Text.Inert
import InlinePolicy.Text.Quoted

/-!
# Events

What a run may log, with the level and the target by which a filter selects it, and the text of
its line: level, message, and fields as `key=value`.
-/

namespace InlinePolicy.Log

/-- How important an event is. -/
inductive Level where
  | error
  | warn
  | info
  | debug
  | trace
deriving DecidableEq, Repr

namespace Level

/-- Less important levels have larger numbers. -/
def verbosity : Level → Nat
  | error => 1
  | warn => 2
  | info => 3
  | debug => 4
  | trace => 5

/-- The word for a level in a line. -/
def name : Level → String
  | error => "ERROR"
  | warn => "WARN"
  | info => "INFO"
  | debug => "DEBUG"
  | trace => "TRACE"

end Level

/-- Whether a trace is about a unit that was stopped at its maximum size. -/
def isCutOff (trace : Trace) : Bool := trace.decision.reason = .maximumDesiredSize

/-- Something that a run may log. -/
inductive Event where
  | overrideIgnored (error : ConfigError)
  | siteRepeated (repetition : RepeatedSite)
  | evaluating (candidates : Nat)
  | recorded (trace : Trace)

namespace Event

/-- The level of an event; a unit that is stopped matters more than any other decision. -/
def level : Event → Level
  | overrideIgnored _ | siteRepeated _ => .warn
  | evaluating _ => .debug
  | recorded trace => if isCutOff trace then .info else .debug

/-- The part of the program that an event comes from. -/
def target : Event → String
  | overrideIgnored _ => "otterc_config::inlining"
  | siteRepeated _ => "otter_inline::scenario"
  | evaluating _ => "otter_inline"
  | recorded _ => "otterc_metrics::inlining"

/-- What an event says, without commands to the terminal that shows the log. -/
def message : Event → String
  | overrideIgnored _ => "ignoring inlining override"
  | siteRepeated _ => "call site listed twice"
  | evaluating _ => "evaluating candidates"
  | recorded trace =>
    if isCutOff trace then "inlining is cut off by maximum desired size" else Text.inert trace.text

/-- The fields that have a value. -/
def fields : Event → List (String × String)
  | overrideIgnored error => [("err", error.message)]
  | siteRepeated repetition =>
    [("call_site", repetition.callSite.text), ("first", toString repetition.first),
      ("second", toString repetition.second)]
  | evaluating candidates => [("candidates", toString candidates)]
  | recorded trace =>
    let decision := trace.decision
    if isCutOff trace then
      (decision.context.graphNodes.map fun n => ("graph_nodes", toString n)).toList ++
        (decision.context.maximumDesiredSize.map fun n => ("limit", toString n)).toList
    else
      [("callee", Text.quoted (trace.callee.getD "<unit>")), ("depth", toString trace.depth),
        ("accepted", toString decision.accepted), ("reason", Text.quoted decision.reason.tag)]

/-- The line of an event. -/
def line (event : Event) : String :=
  " ".intercalate <|
    event.level.name :: event.message :: event.fields.map fun (key, value) => s!"{key}={value}"

end Event

end InlinePolicy.Log
