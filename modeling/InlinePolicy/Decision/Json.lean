import InlinePolicy.Candidate.Json
import InlinePolicy.Decision.Basic

/-!
# Decisions in JSON

A context has a member for each number that is present.
-/

namespace InlinePolicy

open Json

instance : ToJson Reason := ⟨fun reason => toJson reason.name⟩

/-- The reason with a name, which must be one. -/
def Reason.fromName (name : String) : Except Json.Error Reason :=
  match ofName? name with
  | some reason => .ok reason
  | none => .error .mismatch

/-- A reason is its name, or an object with the name alone and no value.  Anything else does not
even start like a reason. -/
instance : FromJson Reason where
  fromJson
    | .string name => Reason.fromName name
    | .object ((name, value) :: others) => do
      let reason ← Reason.fromName name
      match value, others with
      | .null, [] => .ok reason
      | .null, _ => .error .malformed
      | value, _ => .error value.misfit
    | _ => .error .malformed

/-! ## Contexts -/

/-- The names of a context's fields. -/
def Context.fieldNames : List String :=
  ["relevance", "probability", "bonus", "nodes", "low_level_graph_size", "invoke_probability",
    "maximum_nodes", "graph_nodes", "maximum_desired_size"]

instance : ToJson Context where
  toJson c := .object <| presentMembers
    [("relevance", c.relevance.map toJson),
      ("probability", c.probability.map toJson),
      ("bonus", c.bonus.map toJson),
      ("nodes", c.nodes.map toJson),
      ("low_level_graph_size", c.previousSize.map toJson),
      ("invoke_probability", c.invokeProbability.map toJson),
      ("maximum_nodes", c.maximumNodes.map toJson),
      ("graph_nodes", c.graphNodes.map toJson),
      ("maximum_desired_size", c.maximumDesiredSize.map toJson)]

instance : FromJson Context where
  fromJson := record Context.fieldNames fun fields => do
    return {
      relevance := ← fields.withDefault "relevance" none
      probability := ← fields.withDefault "probability" none
      bonus := ← fields.withDefault "bonus" none
      nodes := ← fields.withDefault "nodes" none
      previousSize := ← fields.withDefault "low_level_graph_size" none
      invokeProbability := ← fields.withDefault "invoke_probability" none
      maximumNodes := ← fields.withDefault "maximum_nodes" none
      graphNodes := ← fields.withDefault "graph_nodes" none
      maximumDesiredSize := ← fields.withDefault "maximum_desired_size" none }

/-! ## Decisions and traces -/

/-- The names of a decision's fields. -/
def Decision.fieldNames : List String := ["accepted", "reason", "context"]

/-- The members of a decision. -/
def Decision.members (d : Decision) : List (String × Json) :=
  [("accepted", toJson d.accepted), ("reason", toJson d.reason), ("context", toJson d.context)]

instance : ToJson Decision := ⟨fun d => .object d.members⟩

instance : FromJson Decision where
  fromJson := record Decision.fieldNames fun fields => do
    return {
      accepted := ← fields.required "accepted"
      reason := ← fields.required "reason"
      context := ← fields.required "context" }

/-- The names of a trace's fields. -/
def Trace.fieldNames : List String :=
  ["callee", "call_site", "depth", "fully_processed", "decision"]

instance : ToJson Trace where
  toJson t := .object
    [("callee", toJson t.callee),
      ("call_site", toJson t.callSite),
      ("depth", toJson t.depth),
      ("fully_processed", toJson t.fullyProcessed),
      ("decision", toJson t.decision)]

instance : FromJson Trace where
  fromJson := record Trace.fieldNames fun fields => do
    return {
      callee := ← fields.nullable "callee"
      callSite := ← fields.nullable "call_site"
      depth := ← fields.required "depth"
      fullyProcessed := ← fields.required "fully_processed"
      decision := ← fields.required "decision" }

end InlinePolicy
