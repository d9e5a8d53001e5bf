import Std.Data.ExtTreeMap
import InlinePolicy.Decision.Basic
import InlinePolicy.Metrics.Counters
import InlinePolicy.Word

/-!
# Tallies

How many decisions were accepted and rejected for each reason, and what that says in total.
-/

namespace InlinePolicy

/-- Accepted and rejected decisions. -/
structure Tally where
  accepted : UInt64 := 0
  rejected : UInt64 := 0
deriving DecidableEq

/-- A tally with one more decision. -/
def Tally.count (tally : Tally) (accepted : Bool) : Tally :=
  if accepted then { tally with accepted := tally.accepted + 1 }
  else { tally with rejected := tally.rejected + 1 }

/-- All decisions of a tally, if their number fits a word. -/
def Tally.total? (tally : Tally) : Option UInt64 := Word.add? tally.accepted tally.rejected

/-- The tallies of the reasons that have been seen, and the counters, at one moment. -/
structure Stats where
  perReason : Std.ExtTreeMap Reason Tally := ∅
  counters : Counters := {}

namespace Stats

/-- The tallies with their reasons, in order of the reasons. -/
def entries (stats : Stats) : List (Reason × Tally) := stats.perReason.toList

/-- The tallies in order of the reasons. -/
def tallies (stats : Stats) : List Tally := stats.entries.map Prod.snd

/-- The number of decisions, if it fits a word. -/
def total? (stats : Stats) : Option UInt64 := stats.tallies.mapM Tally.total? >>= Word.sum?

/-- The number of accepted decisions, if it fits a word. -/
def accepted? (stats : Stats) : Option UInt64 := Word.sum? (stats.tallies.map Tally.accepted)

/-- The number of rejected decisions, if it fits a word. -/
def rejected? (stats : Stats) : Option UInt64 := Word.sum? (stats.tallies.map Tally.rejected)

/-- The fraction of the decisions that were accepted, 0 if there are none. -/
def acceptanceRate? (stats : Stats) : Option Float := do
  let total ← stats.total?
  if total = 0 then return 0.0
  let accepted ← stats.accepted?
  return accepted.toFloat / total.toFloat

/-- The numbers that sum up the tallies. -/
structure Totals where
  total : UInt64
  accepted : UInt64
  rejected : UInt64
  acceptanceRate : Float

/-- All sums of the tallies, if they fit a word. -/
def totals? (stats : Stats) : Option Totals := do
  return {
    total := ← stats.total?
    accepted := ← stats.accepted?
    rejected := ← stats.rejected?
    acceptanceRate := ← stats.acceptanceRate? }

end Stats

end InlinePolicy
