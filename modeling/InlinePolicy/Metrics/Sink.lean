import InlinePolicy.Metrics.Tally
import InlinePolicy.Policy

/-!
# The sink

A `Sink` receives what happens during a session: traces of decisions and increments of counters.
It keeps a tally for each reason, the counters, and the most recent traces.
-/

namespace InlinePolicy

/-- What has been received since the start or the last clearing. -/
structure Sink where
  /-- How many traces are kept. -/
  historySize : Nat := 1000
  perReason : Std.ExtTreeMap Reason Tally := ∅
  counters : Counters := {}
  /-- The most recent traces, oldest first. -/
  history : List Trace := []

/-- A history of at most `n` traces with one more: a full history loses its oldest trace, and the
history of size 0 stays empty. -/
def remember (n : Nat) (history : List Trace) (trace : Trace) : List Trace :=
  if n = 0 then history
  else (if n ≤ history.length then history.tail else history) ++ [trace]

namespace Sink

/-- The counter of units that were stopped at their maximum size. -/
def stoppedCounter : String := "InliningStoppedByMaxDesiredSize"

/-- Receives the trace of a decision. -/
def record (sink : Sink) (trace : Trace) : Sink :=
  { sink with
    perReason := sink.perReason.alter trace.decision.reason fun tally =>
      some ((tally.getD {}).count trace.decision.accepted)
    history := remember sink.historySize sink.history trace }

/-- Receives traces one after the other. -/
def recordAll (sink : Sink) (traces : List Trace) : Sink := traces.foldl record sink

/-- Receives an increment of a counter. -/
def increment (sink : Sink) (name : String) : Sink :=
  { sink with counters := sink.counters.increment name }

/-- Forgets everything that was received. -/
def clear (sink : Sink) : Sink := { historySize := sink.historySize }

/-- The tally of a reason. -/
def tally (sink : Sink) (reason : Reason) : Tally := sink.perReason[reason]?.getD {}

/-- The tallies and counters of this moment. -/
def stats (sink : Sink) : Stats := { perReason := sink.perReason, counters := sink.counters }

/-! ## Queries of the policy that are reported -/

/-- Whether the unit may grow further.  A refusal is recorded and counted. -/
def continueInlining (sink : Sink) (config : Config) (graphNodes : UInt64) : Bool × Sink :=
  match config.checkBudget graphNodes with
  | some decision => (false, (sink.record (.unit decision)).increment stoppedCounter)
  | none => (true, sink)

/-- Whether a call is worth inlining. -/
def isWorthInlining (sink : Sink) (policy : Policy) (config : Config) (invocation : Invocation)
    (depth : UInt64) (fullyProcessed : Bool) : Decision × Sink :=
  let trace := policy.trace config invocation depth fullyProcessed
  (trace.decision, sink.record trace)

/-- The decisions about independent calls of one unit. -/
def evaluateAll (sink : Sink) (policy : Policy) (config : Config) (candidates : List Invocation)
    (fullyProcessed : Bool) : List Decision × Sink :=
  let traces := policy.traces config candidates fullyProcessed
  (traces.map Trace.decision, sink.recordAll traces)

end Sink

end InlinePolicy
