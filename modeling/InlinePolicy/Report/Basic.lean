import InlinePolicy.Metrics.Sink
import InlinePolicy.Scenario.Basic

/-!
# Reports

A `Report` is the outcome of a scenario: whether the unit may grow, the decision about each
candidate, and the statistics of a sink that has seen this scenario alone.
-/

namespace InlinePolicy

/-- The decision about a candidate. -/
structure Report.Entry where
  callee : String
  depth : UInt64
  decision : Decision
deriving DecidableEq

/-- The outcome of a scenario. -/
structure Report where
  /-- The size of the caller's graph. -/
  graphNodes : UInt64
  /-- Whether the unit may grow. -/
  continued : Bool
  /-- The decisions in the order of the candidates, if the unit may grow. -/
  entries : List Report.Entry
  stats : Stats

namespace Scenario

/-- The policy that a scenario describes. -/
def policy (scenario : Scenario) : Policy := .ofProfile scenario.scorer scenario.registry

/-- The size of the caller's graph: the given one, or that of the scenario, or 0. -/
def graphSize (scenario : Scenario) (graphNodes : Option UInt64) : UInt64 :=
  (graphNodes.or scenario.graphNodes).getD 0

/-- The traces of a scenario: one of the decision to stop, or one for each candidate. -/
def traces (scenario : Scenario) (config : Config) (graphNodes : Option UInt64)
    (fullyProcessed : Bool) : List Trace :=
  match config.checkBudget (scenario.graphSize graphNodes) with
  | some decision => [.unit decision]
  | none => scenario.policy.traces config scenario.candidates fullyProcessed

/-- Runs the budget and then every candidate through the policy. -/
def evaluate (scenario : Scenario) (config : Config) (graphNodes : Option UInt64)
    (fullyProcessed : Bool) : Report :=
  let size := scenario.graphSize graphNodes
  match ({} : Sink).continueInlining config size with
  | (false, sink) =>
    { graphNodes := size, continued := false, entries := [], stats := sink.stats }
  | (true, sink) =>
    let (decisions, sink) :=
      sink.evaluateAll scenario.policy config scenario.candidates fullyProcessed
    let entries := (decisions.zip scenario.candidates).map fun (decision, candidate) =>
      { callee := candidate.callee.name, depth := candidate.depth, decision }
    { graphNodes := size, continued := true, entries, stats := sink.stats }

end Scenario

end InlinePolicy
