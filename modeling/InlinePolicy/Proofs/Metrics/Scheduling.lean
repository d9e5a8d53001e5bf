import InlinePolicy.Proofs.Metrics.Session

/-!
# Operations at the same time

Several units may report to one sink at the same time.  Their events then arrive in some order: any
permutation of those that the operations report one after the other.  The tallies and the counters
do not depend on that order, as the updates of a table commute (`Stats.receive_comm`); the history
keeps the end of it (`run_interleaved`).
-/

namespace InlinePolicy

/-! ## Updates that commute -/

/-- Updates of a table commute if those of one and the same key do. -/
theorem alter_comm {α β : Type} [Ord α] [Std.TransOrd α] [Std.LawfulEqOrd α]
    (table : Std.ExtTreeMap α β) {key key' : α} {f g : Option β → Option β}
    (comm : key = key' → ∀ value, f (g value) = g (f value)) :
    (table.alter key f).alter key' g = (table.alter key' g).alter key f := by
  refine Std.ExtTreeMap.ext_getElem? fun other => ?_
  simp only [Std.ExtTreeMap.getElem?_alter, Std.LawfulEqCmp.compare_eq_iff_eq]
  by_cases here : key = other
  · by_cases there : key' = other
    · subst here
      simp [there, comm there.symm]
    · simp [here, there]
  · by_cases there : key' = other
    · simp [here, there]
    · simp [here, there]

theorem Counters.add_comm (counters : Counters) (name name' : String) (delta delta' : UInt64) :
    (counters.add name delta).add name' delta' = (counters.add name' delta').add name delta := by
  refine congrArg Counters.mk (alter_comm counters.table fun _ value => ?_)
  simp only [Option.getD_some, UInt64.add_assoc, UInt64.add_comm delta]

/-- Outcomes are counted apart from each other, or by the same addition. -/
theorem Tally.count_comm (tally : Tally) (accepted accepted' : Bool) :
    (tally.count accepted).count accepted' = (tally.count accepted').count accepted := by
  cases accepted <;> cases accepted' <;> rfl

namespace Stats

/-- Statistics after one more event. -/
def receive (stats : Stats) : Sink.Event → Stats
  | .trace trace =>
    { stats with
      perReason := stats.perReason.alter trace.decision.reason fun tally =>
        some ((tally.getD {}).count trace.decision.accepted) }
  | .increment name => { stats with counters := stats.counters.increment name }
  | .clear => {}

/-- Without a clearing between them, two events may arrive in either order, also if the first of
them is the first with its reason or its name. -/
theorem receive_comm (stats : Stats) {event event' : Sink.Event} (h : event ≠ .clear)
    (h' : event' ≠ .clear) :
    (stats.receive event).receive event' = (stats.receive event').receive event := by
  cases event with
  | clear => exact absurd rfl h
  | trace trace =>
    cases event' with
    | clear => exact absurd rfl h'
    | increment name => rfl
    | trace trace' =>
      refine congrArg (fun perReason => Stats.mk perReason stats.counters) ?_
      refine alter_comm stats.perReason fun _ tally => ?_
      simp only [Option.getD_some, Tally.count_comm]
  | increment name =>
    cases event' with
    | clear => exact absurd rfl h'
    | trace trace' => rfl
    | increment name' =>
      exact congrArg (Stats.mk stats.perReason) (stats.counters.add_comm name name' 1 1)

end Stats

namespace Sink

theorem stats_receive (sink : Sink) (event : Event) :
    (sink.receive event).stats = sink.stats.receive event := by
  cases event <;> rfl

theorem stats_foldl_receive (sink : Sink) (events : List Event) :
    (events.foldl receive sink).stats = events.foldl Stats.receive sink.stats :=
  (List.foldl_hom stats fun sink event => (stats_receive sink event).symm).symm

theorem stats_eq_of_perm (sink : Sink) {arrivals events : List Event}
    (order : arrivals.Perm events) (uncleared : .clear ∉ arrivals) :
    (arrivals.foldl receive sink).stats = (events.foldl receive sink).stats := by
  rw [stats_foldl_receive, stats_foldl_receive]
  refine order.foldl_eq' (fun event mem event' mem' stats => ?_) sink.stats
  exact stats.receive_comm (ne_of_mem_of_not_mem mem uncleared)
    (ne_of_mem_of_not_mem mem' uncleared)

/-! ## Operations one after the other -/

/-- The events of an operation that nothing interrupts. -/
def Operation.events : Operation → List Event
  | .record trace => [.trace trace]
  | .increment name => [.increment name]
  | .continueInlining config graphNodes => budgetEvents config graphNodes
  | .isWorthInlining policy config invocation depth fullyProcessed =>
    [.trace (policy.trace config invocation depth fullyProcessed)]
  | .evaluateAll policy config candidates fullyProcessed =>
    (policy.traces config candidates fullyProcessed).map .trace
  | .clear => [.clear]

/-- The sink after an operation that nothing interrupts. -/
def perform (sink : Sink) : Operation → Sink
  | .record trace => sink.record trace
  | .increment name => sink.increment name
  | .continueInlining config graphNodes => (sink.continueInlining config graphNodes).2
  | .isWorthInlining policy config invocation depth fullyProcessed =>
    (sink.isWorthInlining policy config invocation depth fullyProcessed).2
  | .evaluateAll policy config candidates fullyProcessed =>
    (sink.evaluateAll policy config candidates fullyProcessed).2
  | .clear => sink.clear

theorem step_perform (sink : Sink) (op : Operation) : Step sink op op.events (sink.perform op) := by
  cases op with
  | record trace => exact .record trace
  | increment name => exact .increment name
  | continueInlining config graphNodes => exact .continueInlining config graphNodes
  | isWorthInlining policy config invocation depth fullyProcessed =>
    exact .isWorthInlining policy config invocation depth fullyProcessed
  | evaluateAll policy config candidates fullyProcessed =>
    exact step_evaluateAll sink policy config candidates fullyProcessed
  | clear => exact .clear

theorem foldl_perform (sink : Sink) (ops : List Operation) :
    ops.foldl perform sink = (ops.flatMap Operation.events).foldl receive sink := by
  rw [List.foldl_flatMap]
  congr 1
  funext sink op
  exact eq_foldl_receive_of_step (step_perform sink op)

theorem clear_not_mem_events {op : Operation} (unclear : op.isClear = false) :
    .clear ∉ op.events := by
  cases op with
  | clear => cases unclear
  | continueInlining config graphNodes => exact clear_not_mem_budgetEvents config graphNodes
  | _ => simp [Operation.events]

/-! ## Operations at the same time -/

/-- Each candidate of a batch has one trace in a log, with its own name, call site and depth and the
decision about it.  The traces stand in some order, with others between them. -/
def Lists (log : List Trace) (policy : Policy) (config : Config) (candidates : List Invocation)
    (fullyProcessed : Bool) : Prop :=
  ∃ reached : List Invocation, reached.Perm candidates ∧
    (reached.map fun candidate =>
      ({ callee := some candidate.callee.name
         callSite := some candidate.callee.callSite
         depth := candidate.depth
         fullyProcessed := fullyProcessed
         decision := policy.evaluate config candidate fullyProcessed } : Trace)).Sublist log

theorem lists_of_perm {arrivals others : List Trace} {policy : Policy} {config : Config}
    {candidates : List Invocation} {fullyProcessed : Bool}
    (order : arrivals.Perm (policy.traces config candidates fullyProcessed ++ others)) :
    Lists arrivals policy config candidates fullyProcessed := by
  have batch := List.sublist_append_left (policy.traces config candidates fullyProcessed) others
  obtain ⟨own, perm, sublist⟩ := batch.subperm.trans order.symm.subperm
  obtain ⟨reached, rfl, same⟩ :=
    (congrFun (congrFun (List.eq_map_comp_perm _) own) candidates).mpr perm
  exact ⟨reached, same, sublist⟩

theorem lists_of_mem {ops : List Operation} {arrivals : List Event}
    (order : arrivals.Perm (ops.flatMap Operation.events)) {policy : Policy} {config : Config}
    {candidates : List Invocation} {fullyProcessed : Bool}
    (mem : .evaluateAll policy config candidates fullyProcessed ∈ ops) :
    Lists (traces arrivals) policy config candidates fullyProcessed := by
  obtain ⟨before, after, rfl⟩ := List.append_of_mem mem
  have first : (before ++ .evaluateAll policy config candidates fullyProcessed :: after).Perm
      (.evaluateAll policy config candidates fullyProcessed :: (before ++ after)) :=
    List.perm_middle
  have events := order.trans (first.flatMap_right Operation.events)
  rw [List.flatMap_cons, Operation.events] at events
  have reported : (traces arrivals).Perm _ := events.filterMap _
  rw [← traces, traces_append, traces_map_trace] at reported
  exact lists_of_perm reported

/-- Operations that go on at the same time on a sink with a past leave the statistics that they
leave one after the other, and a history of the last traces as they arrived, where each candidate of
a batch has its own.  The answers to a batch are the decisions about its candidates in their order,
whatever the sink holds. -/
theorem run_interleaved {n : ℕ} {earlier : List Operation} {events : List Event} {sink : Sink}
    (run : Run { historySize := n } earlier events sink) {ops : List Operation}
    (unclear : ∀ op ∈ ops, op.isClear = false) {arrivals : List Event}
    (order : arrivals.Perm (ops.flatMap Operation.events))
    (fits : (traces (sinceClear events ++ arrivals)).length < 2 ^ 64) :
    (∀ (asked : Sink) (policy : Policy) (config : Config) (candidates : List Invocation)
      (fullyProcessed : Bool), (asked.evaluateAll policy config candidates fullyProcessed).1 =
        candidates.map fun candidate => policy.evaluate config candidate fullyProcessed) ∧
    (arrivals.foldl receive sink).stats = (ops.foldl perform sink).stats ∧
    (∃ totals, (arrivals.foldl receive sink).stats.totals? = some totals) ∧
    (arrivals.foldl receive sink).history = (traces (sinceClear events ++ arrivals)).rtake n ∧
    ∀ (policy : Policy) (config : Config) (candidates : List Invocation) (fullyProcessed : Bool),
      .evaluateAll policy config candidates fullyProcessed ∈ ops →
      Lists (traces arrivals) policy config candidates fullyProcessed := by
  have uncleared : .clear ∉ arrivals := by
    rw [order.mem_iff, List.mem_flatMap]
    rintro ⟨op, mem, cleared⟩
    exact clear_not_mem_events (unclear op mem) cleared
  have reflects := reflects_append (reflects_of_run run) uncleared
  obtain ⟨total, accepted, rejected, total_eq, accepted_eq, rejected_eq, -⟩ :=
    totals_of_reflects reflects fits
  obtain ⟨rate, totals⟩ := Stats.totals?_eq_some total_eq accepted_eq rejected_eq
  refine ⟨fun asked policy config candidates fullyProcessed => ?_, ?_, ⟨_, totals⟩,
    reflects.history, fun _ _ _ _ mem => lists_of_mem order mem⟩
  · exact List.map_map
  · rw [foldl_perform]
    exact stats_eq_of_perm sink order uncleared

/-- A call of a method with the given size. -/
def callOf (nodes : UInt64) : Invocation where
  callee := { name := "A.m", callSite := ⟨7⟩, nodeCount := nodes }
  probability := 1.0
  relevance := 1.0

/-- A batch of two candidates and a unit that is stopped at the same time, on a sink that keeps two
traces.  The traces of the batch arrive in the other order, with the refusal between them, and its
increment comes last. -/
theorem run_interleaved_batch :
    let policy := Policy.ofProfile {} {}
    let small := policy.trace {} (callOf 5) 0 true
    let large := policy.trace {} (callOf 500) 0 true
    let refusal := Trace.unit {
      accepted := false
      reason := .maximumDesiredSize
      context := { graphNodes := some 20000, maximumDesiredSize := some 20000 } }
    let ops : List Operation :=
      [.evaluateAll policy {} [callOf 5, callOf 500] true, .continueInlining {} 20000]
    let arrivals : List Event :=
      [.trace large, .trace refusal, .trace small, .increment stoppedCounter]
    ∃ sink, Run { historySize := 2 } [.record small] [.trace small] sink ∧
      arrivals.Perm (ops.flatMap Operation.events) ∧
      (arrivals.foldl receive sink).stats = (ops.foldl perform sink).stats ∧
      (arrivals.foldl receive sink).history = [refusal, small] := by
  intro policy small large refusal ops arrivals
  have fresh : Run { historySize := 2 } [] [] { historySize := 2 } := .start
  have run := fresh.step (.record small)
  have order : arrivals.Perm (ops.flatMap Operation.events) := by
    let earlier : List Event := [.trace large, .trace refusal]
    let later : List Event := [.increment stoppedCounter]
    change (earlier ++ Event.trace small :: later).Perm (Event.trace small :: (earlier ++ later))
    exact List.perm_middle
  obtain ⟨-, stats, -, history, -⟩ := run_interleaved run (by decide) order (by decide)
  exact ⟨_, run, order, stats, history⟩

end Sink

end InlinePolicy
