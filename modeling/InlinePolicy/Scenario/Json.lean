import InlinePolicy.Candidate.Json
import InlinePolicy.Scenario.Basic

/-!
# Scenarios in JSON

Every field of a scenario may be missing.  Reading a scenario from a text includes validation.
-/

namespace InlinePolicy

open Json

/-- The names of a hint's fields. -/
def BonusHint.fieldNames : List String := ["call_site", "bonus"]

instance : ToJson BonusHint where
  toJson hint := .object [("call_site", toJson hint.callSite), ("bonus", toJson hint.bonus)]

instance : FromJson BonusHint where
  fromJson := record BonusHint.fieldNames fun fields => do
    return { callSite := ← fields.required "call_site", bonus := ← fields.required "bonus" }

namespace Scenario

/-- The names of a scenario's fields. -/
def fieldNames : List String := ["graph_nodes", "hints", "intrinsics", "candidates"]

instance : ToJson Scenario where
  toJson scenario := .object
    [("graph_nodes", toJson scenario.graphNodes),
      ("hints", toJson scenario.hints),
      ("intrinsics", toJson scenario.intrinsics),
      ("candidates", toJson scenario.candidates)]

instance : FromJson Scenario where
  fromJson := record fieldNames fun fields => do
    let default : Scenario := {}
    return {
      graphNodes := ← fields.withDefault "graph_nodes" default.graphNodes
      hints := ← fields.withDefault "hints" default.hints
      intrinsics := ← fields.withDefault "intrinsics" default.intrinsics
      candidates := ← fields.withDefault "candidates" default.candidates }

/-- Why a text is no scenario. -/
inductive LoadError where
  | json (error : Json.Error)
  | invalid (error : ScenarioError)
deriving DecidableEq

/-- The text of an error. -/
def LoadError.message : LoadError → String
  | .json error => error.message
  | .invalid error => error.message

/-- Reads a scenario from a text and validates it.  The repeated call sites come first, as they
are noticed even if something else is wrong. -/
def load (text : String) : List RepeatedSite × Except LoadError Scenario :=
  match decode text with
  | .error error => ([], .error (.json error))
  | .ok (scenario : Scenario) =>
    (scenario.repeatedSites,
      match scenario.validate with
      | .error error => .error (.invalid error)
      | .ok () => .ok scenario)

/-- The valid scenario that a text denotes. -/
def ofText (text : String) : Except LoadError Scenario := (load text).2

end Scenario

end InlinePolicy
