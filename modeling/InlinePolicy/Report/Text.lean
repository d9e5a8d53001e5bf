import InlinePolicy.Decision.Text
import InlinePolicy.Report.Basic

/-!
# Reports as text

Two lines for each decision, and a summary.  On a terminal, words that matter are styled.
-/

namespace InlinePolicy

namespace Report

/-! ## Styles -/

/-- How a word may look on a terminal. -/
inductive Look where
  | bold
  | dim
  | red
  | green
  | yellow
deriving DecidableEq

/-- The codes of a look; colors are bold too. -/
def Look.codes : Look → String
  | .bold => "1"
  | .dim => "2"
  | .red => "1;31"
  | .green => "1;32"
  | .yellow => "1;33"

/-- The start of a look. -/
def Look.start (look : Look) : String := s!"\x1b[{look.codes}m"

/-- The end of any look. -/
def plain : String := "\x1b[0m"

/-- A text with a look, or as it is without colors.  A text that ends its look by itself is given
it again. -/
def styled (colors : Bool) (look : Look) (text : String) : String :=
  if colors then look.start ++ text.replace plain (plain ++ look.start) ++ plain else text

/-! ## Columns -/

/-- A text with blanks in front, up to the width. -/
def padStart (width : Nat) (text : String) : String :=
  String.ofList (text.toList.leftpad width ' ')

/-- A text with blanks behind it, up to the width. -/
def padEnd (width : Nat) (text : String) : String :=
  String.ofList (text.toList.rightpad width ' ')

/-! ## Lines -/

/-- The share of accepted decisions in percent has one place. -/
def percentText (rate : Float) : String := Decimal.fixed 1 (rate * 100.0)

/-- The lines about a decision. -/
def entryLines (colors : Bool) (entry : Entry) : List String :=
  let verdict :=
    if entry.decision.accepted then styled colors .green (padStart 6 "inline")
    else styled colors .yellow (padStart 6 "skip")
  let callee := styled colors .bold entry.callee
  let tag := styled colors .dim entry.decision.reason.tag
  [s!"{verdict}  {Trace.indent entry.depth}{callee}  {tag}",
    s!"        {entry.decision.context.text}"]

/-- The line about a reason. -/
def reasonLine (reason : Reason) (tally : Tally) : String :=
  let accepted := padStart 5 (toString tally.accepted)
  let rejected := padStart 5 (toString tally.rejected)
  s!"  {padEnd 36 reason.tag} {accepted} accepted {rejected} rejected"

/-- The lines that sum up the statistics, after an empty one. -/
def summaryLines (colors : Bool) (stats : Stats) (totals : Stats.Totals) : List String :=
  let title := styled colors .bold "summary:"
  let stopped := stats.counters.get Sink.stoppedCounter
  let share := percentText totals.acceptanceRate
  ["", s!"{title} {totals.total} decisions, {totals.accepted} inlined, " ++
      s!"{totals.rejected} rejected ({share}% accepted)"] ++
    stats.entries.map (fun (reason, tally) => reasonLine reason tally) ++
    (if 0 < stopped then [s!"  {Sink.stoppedCounter}: {stopped}"] else [])

/-- The line about a unit that may not grow. -/
def stoppedLine (colors : Bool) (graphNodes : UInt64) : String :=
  let title := styled colors .red "stopped:"
  s!"{title} caller graph has {graphNodes} nodes, inlining is cut off"

/-- The report as text, if its sums fit a word. -/
def text? (colors : Bool) (report : Report) : Option String := do
  let totals ← report.stats.totals?
  let lines :=
    (if report.continued then [] else [stoppedLine colors report.graphNodes]) ++
      report.entries.flatMap (entryLines colors) ++ summaryLines colors report.stats totals
  return String.join (lines.map fun line => line ++ "\n")

end Report

end InlinePolicy
