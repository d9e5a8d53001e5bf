import InlinePolicy.Decision.Json
import InlinePolicy.Metrics.Tally

/-!
# Statistics in JSON
-/

namespace InlinePolicy

open Json

instance : ToJson Tally where
  toJson tally := .object
    [("accepted", toJson tally.accepted), ("rejected", toJson tally.rejected)]

instance : ToJson Counters where
  toJson counters := .object (counters.snapshot.map fun (name, value) => (name, toJson value))

instance : ToJson Stats where
  toJson stats := .object
    [("per_reason",
        .object (stats.entries.map fun (reason, tally) => (reason.name, toJson tally))),
      ("counters", toJson stats.counters)]

end InlinePolicy
