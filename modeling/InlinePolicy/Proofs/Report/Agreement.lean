import Mathlib
import InlinePolicy.Proofs.Metrics.Session
import InlinePolicy.Proofs.Scenario.Policy
import InlinePolicy.Report.Text

/-!
# The parts of a report agree

A report has the decisions of a scenario twice: one by one, and counted by a sink.  Both are the
same decisions (`evaluate_agrees`), so the statistics are those of the listed entries, or of the
one decision to stop if the unit may not grow.
-/

namespace InlinePolicy

open Sink (Event Reflects occurrences)

/-! ## Statistics of a list of decisions -/

/-- Statistics that count the decisions of a list, and no others. -/
structure Stats.Counts (stats : Stats) (decisions : List Decision) : Prop where
  /-- Only the reasons in the list have a tally, and it is exact. -/
  tally (reason : Reason) (tally : Tally) : stats.perReason[reason]? = some tally ↔
    (∃ decision ∈ decisions, decision.reason = reason) ∧
      tally.accepted.toNat = decisions.countP
        (fun decision => decision.reason = reason ∧ decision.accepted = true) ∧
      tally.rejected.toNat = decisions.countP
        (fun decision => decision.reason = reason ∧ decision.accepted = false)
  /-- The sums of the tallies fit a word and are exact. -/
  totals : ∃ totals, stats.totals? = some totals ∧
    totals.total.toNat = decisions.length ∧
      totals.accepted.toNat = decisions.countP (fun decision => decision.accepted = true) ∧
      totals.rejected.toNat = decisions.countP (fun decision => decision.accepted = false)

section

variable {n : ℕ} {log : List Event} {sink : Sink}

theorem counts_tally (h : Reflects n log sink) (fits : (Sink.traces log).length < 2 ^ 64)
    (reason : Reason) (tally : Tally) : sink.stats.perReason[reason]? = some tally ↔
      (∃ trace ∈ Sink.traces log, trace.decision.reason = reason) ∧
        tally.accepted.toNat = occurrences (Sink.traces log) reason true ∧
        tally.rejected.toNat = occurrences (Sink.traces log) reason false := by
  have accepted := Sink.toNat_occurrences fits reason true
  have rejected := Sink.toNat_occurrences fits reason false
  rw [Sink.stats, h.perReason, Sink.tallyOf, Option.ite_none_right_eq_some, Option.some.injEq]
  refine and_congr_right fun _ => ?_
  constructor
  · rintro rfl
    exact ⟨accepted, rejected⟩
  · rintro ⟨accepted', rejected'⟩
    rw [← accepted] at accepted'
    rw [← rejected] at rejected'
    rw [← UInt64.toNat_inj.1 accepted', ← UInt64.toNat_inj.1 rejected']

/-- The statistics of a sink count the decisions that it has received. -/
theorem counts_of_reflects (h : Reflects n log sink) (fits : (Sink.traces log).length < 2 ^ 64) :
    sink.stats.Counts ((Sink.traces log).map Trace.decision) where
  tally reason tally := by
    rw [counts_tally h fits]
    simp only [occurrences, List.countP_map, List.mem_map, exists_exists_and_eq_and]
    rfl
  totals := by
    obtain ⟨total, accepted, rejected, total_eq, accepted_eq, rejected_eq, size, both, positive⟩ :=
      Sink.totals_of_reflects h fits
    obtain ⟨rate, totals_eq⟩ := Stats.totals?_eq_some total_eq accepted_eq rejected_eq
    have outcomes := Sink.countP_accepted_add_countP_rejected (Sink.traces log)
    refine ⟨_, totals_eq, ?_, ?_, ?_⟩
    · rw [List.length_map, size]
    · rw [List.countP_map, positive]
      rfl
    · rw [List.countP_map]
      show rejected.toNat = (Sink.traces log).countP fun trace => trace.decision.accepted = false
      omega

end

/-! ## Reports -/

/-- The summary of a report up to the share of accepted decisions. -/
def Report.summaryStart (colors : Bool) (total accepted rejected : ℕ) : String :=
  styled colors .bold "summary:" ++
    s!" {total} decisions, {accepted} inlined, {rejected} rejected ("

/-- The decisions that a report is about: those of its entries, or the one to stop. -/
def Report.decisions (report : Report) (config : Config) : List Decision :=
  if report.continued then report.entries.map Report.Entry.decision
  else (config.checkBudget report.graphNodes).toList

/-- The entry of a candidate. -/
def Policy.entry (policy : Policy) (config : Config) (candidate : Invocation)
    (fullyProcessed : Bool) : Report.Entry where
  callee := candidate.callee.name
  depth := candidate.depth
  decision := policy.evaluate config candidate fullyProcessed

/-- A report about a scenario whose parts agree. -/
structure Report.Agrees (report : Report) (scenario : Scenario) (config : Config)
    (graphNodes : Option UInt64) (fullyProcessed : Bool) : Prop where
  graphNodes : report.graphNodes = (graphNodes.or scenario.graphNodes).getD 0
  continued : report.continued = true ↔ report.graphNodes < config.maximumDesiredSize
  /-- A unit that may grow has an entry for each candidate, in the same order. -/
  entries : report.continued = true →
    report.entries = scenario.candidates.map fun candidate =>
      scenario.listedPolicy.entry config candidate fullyProcessed
  counters : report.continued = true → report.stats.counters.snapshot = []
  /-- A unit that is stopped has no entries, and its statistics hold the decision to stop. -/
  stopped : report.continued = false →
    report.entries = [] ∧
      report.stats.entries = [(.maximumDesiredSize, { accepted := 0, rejected := 1 })] ∧
      report.stats.counters.snapshot = [(Sink.stoppedCounter, 1)]
  stats : report.stats.Counts (report.decisions config)
  /-- The summary shows the numbers of the decisions. -/
  summary (colors : Bool) : ∃ before after, report.text? colors = some (before ++
    Report.summaryStart colors (report.decisions config).length
      ((report.decisions config).countP fun decision => decision.accepted = true)
      ((report.decisions config).countP fun decision => decision.accepted = false) ++ after)

/-- Whatever a line of a text starts with occurs in the text. -/
theorem Report.exists_join_eq {lines : List String} {start rest : String}
    (mem : start ++ rest ∈ lines) :
    ∃ before after,
      String.join (lines.map fun line => line ++ "\n") = before ++ start ++ after := by
  obtain ⟨earlier, later, rfl⟩ := List.append_of_mem mem
  refine ⟨String.join (earlier.map fun line => line ++ "\n"),
    rest ++ "\n" ++ String.join (later.map fun line => line ++ "\n"), ?_⟩
  rw [List.map_append, String.join_append, List.map_cons, String.join_cons]
  simp only [String.append_assoc]

theorem Report.summaryStart_mem (colors : Bool) (stats : Stats) (totals : Stats.Totals) :
    summaryStart colors totals.total.toNat totals.accepted.toNat totals.rejected.toNat ++
      (percentText totals.acceptanceRate ++ "% accepted)") ∈ summaryLines colors stats totals := by
  have line : summaryStart colors totals.total.toNat totals.accepted.toNat totals.rejected.toNat ++
      (percentText totals.acceptanceRate ++ "% accepted)") =
      let heading := styled colors .bold "summary:"
      s!"{heading} {totals.total} decisions, {totals.accepted} inlined, " ++
        s!"{totals.rejected} rejected ({percentText totals.acceptanceRate}% accepted)" := by
    unfold summaryStart
    simp only [String.append_assoc]
    rfl
  rw [line]
  exact List.mem_append_left _ (List.mem_append_left _ (.tail _ (.head _)))

/-- The text of a report shows the sums of its statistics. -/
theorem Report.exists_text?_eq (report : Report) (colors : Bool) {decisions : List Decision}
    (counts : report.stats.Counts decisions) :
    ∃ before after, report.text? colors = some (before ++
      summaryStart colors decisions.length
        (decisions.countP fun decision => decision.accepted = true)
        (decisions.countP fun decision => decision.accepted = false) ++ after) := by
  obtain ⟨totals, totals_eq, total, accepted, rejected⟩ := counts.totals
  rw [text?, totals_eq, ← total, ← accepted, ← rejected]
  obtain ⟨before, after, text⟩ := exists_join_eq <|
    List.mem_append_right _ (summaryStart_mem colors report.stats totals)
  exact ⟨before, after, congrArg some text⟩

/-! ## The report of a scenario -/

namespace Scenario

/-- The statistics of a sink that has received nothing but traces. -/
theorem counts_recordAll (traces : List Trace) (fits : traces.length < 2 ^ 64) :
    (({} : Sink).recordAll traces).stats.Counts (traces.map Trace.decision) := by
  have uncleared : Event.clear ∉ traces.map Event.trace := by simp
  have reflects := Sink.reflects_append (Sink.reflects_nil 1000) uncleared
  rw [Sink.foldl_receive_map_trace, List.nil_append] at reflects
  have counts := counts_of_reflects reflects (by rwa [Sink.traces_map_trace])
  rwa [Sink.traces_map_trace] at counts

/-- The statistics of a sink that has stopped a unit. -/
theorem counts_stopped (decision : Decision) :
    ((({} : Sink).record (.unit decision)).increment Sink.stoppedCounter).stats.Counts
      [decision] := by
  have reflects := Sink.reflects_increment
    (Sink.reflects_record (Sink.reflects_nil 1000) (.unit decision)) Sink.stoppedCounter
  exact counts_of_reflects reflects (by simp [Sink.traces])

theorem counters_recordAll (sink : Sink) (traces : List Trace) :
    (sink.recordAll traces).counters = sink.counters := by
  induction traces generalizing sink with
  | nil => rfl
  | cons trace traces ih => exact ih (sink.record trace)

/-- Each decision meets its own candidate. -/
theorem map_zip_eq_map_entry (policy : Policy) (config : Config) (candidates : List Invocation)
    (fullyProcessed : Bool) :
    (((policy.traces config candidates fullyProcessed).map Trace.decision).zip candidates).map
        (fun (decision, candidate) =>
          ({ callee := candidate.callee.name, depth := candidate.depth, decision } :
            Report.Entry)) =
      candidates.map fun candidate => policy.entry config candidate fullyProcessed := by
  induction candidates with
  | nil => rfl
  | cons candidate candidates ih => exact congrArg (List.cons _) ih

section

variable {scenario : Scenario} {config : Config} {graphNodes : Option UInt64}

theorem evaluate_of_continued (fullyProcessed : Bool)
    (h : config.checkBudget (scenario.graphSize graphNodes) = none) :
    scenario.evaluate config graphNodes fullyProcessed =
      { graphNodes := scenario.graphSize graphNodes
        continued := true
        entries := scenario.candidates.map fun candidate =>
          scenario.listedPolicy.entry config candidate fullyProcessed
        stats := (({} : Sink).recordAll
          (scenario.policy.traces config scenario.candidates fullyProcessed)).stats } := by
  have gate : ({} : Sink).continueInlining config (scenario.graphSize graphNodes) =
      (true, {}) := by
    rw [Sink.continueInlining, h]
  rw [← policy_eq_listedPolicy, ← map_zip_eq_map_entry]
  dsimp only [evaluate]
  rw [gate]
  rfl

theorem evaluate_of_stopped (fullyProcessed : Bool) {decision : Decision}
    (h : config.checkBudget (scenario.graphSize graphNodes) = some decision) :
    scenario.evaluate config graphNodes fullyProcessed =
      { graphNodes := scenario.graphSize graphNodes
        continued := false
        entries := []
        stats := ((({} : Sink).record (.unit decision)).increment Sink.stoppedCounter).stats } := by
  have gate : ({} : Sink).continueInlining config (scenario.graphSize graphNodes) =
      (false, (({} : Sink).record (.unit decision)).increment Sink.stoppedCounter) := by
    rw [Sink.continueInlining, h]
  dsimp only [evaluate]
  rw [gate]

end

/-- The parts of the report of a scenario agree. -/
theorem evaluate_agrees (scenario : Scenario) (config : Config) (graphNodes : Option UInt64)
    (fullyProcessed : Bool) (fits : scenario.candidates.length < 2 ^ 64) :
    (scenario.evaluate config graphNodes fullyProcessed).Agrees scenario config graphNodes
      fullyProcessed := by
  by_cases full : config.maximumDesiredSize ≤ scenario.graphSize graphNodes
  · have gate : config.checkBudget (scenario.graphSize graphNodes) = some _ := if_pos full
    have counts := counts_stopped
      { accepted := false
        reason := .maximumDesiredSize
        context :=
          { graphNodes := some (scenario.graphSize graphNodes)
            maximumDesiredSize := some config.maximumDesiredSize } }
    have decisions : (config.checkBudget (scenario.graphSize graphNodes)).toList = [_] :=
      congrArg Option.toList gate
    rw [← decisions] at counts
    rw [evaluate_of_stopped fullyProcessed gate]
    exact
      { graphNodes := rfl
        continued := iff_of_false Bool.false_ne_true (UInt64.not_lt.2 full)
        entries := fun continued => by cases continued
        counters := fun continued => by cases continued
        stopped := fun _ => ⟨rfl, rfl, rfl⟩
        stats := counts
        summary := fun colors => Report.exists_text?_eq _ colors counts }
  · have gate : config.checkBudget (scenario.graphSize graphNodes) = none := if_neg full
    have counts := counts_recordAll
      (scenario.policy.traces config scenario.candidates fullyProcessed)
      (by rwa [Policy.traces, List.length_map])
    have decisions : (scenario.policy.traces config scenario.candidates fullyProcessed).map
        Trace.decision = (scenario.candidates.map fun candidate =>
          scenario.listedPolicy.entry config candidate fullyProcessed).map
            Report.Entry.decision := by
      rw [policy_eq_listedPolicy, Policy.traces, List.map_map, List.map_map]
      rfl
    rw [decisions] at counts
    rw [evaluate_of_continued fullyProcessed gate]
    exact
      { graphNodes := rfl
        continued := iff_of_true rfl (UInt64.not_le.1 full)
        entries := fun _ => rfl
        counters := fun _ => by
          rw [Sink.stats, counters_recordAll]
          rfl
        stopped := fun stopped => by cases stopped
        stats := counts
        summary := fun colors => Report.exists_text?_eq _ colors counts }

/-- Two candidates at one call site, whose first hint is overridden, and an intrinsic one. -/
def crowded : Scenario where
  graphNodes := some 30000
  hints := [⟨⟨7⟩, 2.0⟩, ⟨⟨7⟩, 0.5⟩]
  intrinsics := ["Math.abs"]
  candidates :=
    [{ callee := { name := "Math.abs", callSite := ⟨1⟩, nodeCount := 400 }
       probability := 0.2
       relevance := 0.2 },
     { callee := { name := "Parser.parse", callSite := ⟨7⟩, nodeCount := 150 }
       probability := 1.0
       relevance := 1.0 },
     { callee := { name := "Parser.parse", callSite := ⟨7⟩, nodeCount := 151 }
       probability := 1.0
       relevance := 1.0
       depth := 1 }]

/-- The size that is given lets the unit grow, although the scenario's own would stop it. -/
theorem evaluate_agrees_crowded :
    crowded.candidates.length < 2 ^ 64 ∧
      (crowded.evaluate {} (some 19999) true).Agrees crowded {} (some 19999) true :=
  ⟨by decide, evaluate_agrees crowded {} (some 19999) true (by decide)⟩

end Scenario

end InlinePolicy
