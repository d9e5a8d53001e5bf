import InlinePolicy.Metrics.Json
import InlinePolicy.Report.Basic

/-!
# Reports in JSON

An entry has the members of its decision beside its own.
-/

namespace InlinePolicy

open Json

instance : ToJson Report.Entry where
  toJson entry := .object <|
    ("callee", toJson entry.callee) :: ("depth", toJson entry.depth) :: entry.decision.members

instance : ToJson Report where
  toJson report := .object
    [("graph_nodes", toJson report.graphNodes),
      ("continued", toJson report.continued),
      ("decisions", toJson report.entries),
      ("stats", toJson report.stats)]

/-- The report as a JSON text, with a line for each item. -/
def Report.json (report : Report) : String := (toJson report).pretty

end InlinePolicy
