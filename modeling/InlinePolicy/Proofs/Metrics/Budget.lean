import InlinePolicy.Proofs.Metrics.Session
import InlinePolicy.Proofs.Policy.Rules

/-!
# The budget in a session

In a session that only asks the policy and clears the sink, a refusal to let a unit grow is reported
twice: as a trace about the whole unit, and as an increment of a counter.  Nothing else is reported
in either way (`Guarded`), so the tally of the reason and the counter both say how many units were
refused since the last clearing (`run_budget`).
-/

namespace InlinePolicy

/-! ## Two kinds of traces -/

namespace Trace

/-- The trace of a unit that may not grow. -/
def IsRefusal (trace : Trace) : Prop :=
  ∃ maximum graphNodes : UInt64, maximum ≤ graphNodes ∧
    trace = .unit {
      accepted := false
      reason := .maximumDesiredSize
      context := { graphNodes := some graphNodes, maximumDesiredSize := some maximum } }

/-- The trace of a decision about a call. -/
def IsCall (trace : Trace) : Prop :=
  ∃ (policy : Policy) (config : Config) (invocation : Invocation) (depth : UInt64)
    (fullyProcessed : Bool), trace = policy.trace config invocation depth fullyProcessed

/-- No rule about calls decides for the reason that stops a unit. -/
theorem IsCall.reason_ne {trace : Trace} (call : trace.IsCall) :
    trace.decision.reason ≠ .maximumDesiredSize := by
  obtain ⟨policy, config, invocation, depth, fullyProcessed, rfl⟩ := call
  obtain ⟨reason, settles⟩ := @Policy.exists_settles policy config invocation fullyProcessed
  show (policy.evaluate config invocation fullyProcessed).reason ≠ .maximumDesiredSize
  rw [Policy.evaluate_of_settles settles]
  rintro rfl
  exact settles.1

theorem reason_eq_iff {trace : Trace} (kind : trace.IsRefusal ∨ trace.IsCall) :
    trace.decision.reason = .maximumDesiredSize ↔ trace.callee = none ∧ trace.callSite = none := by
  rcases kind with ⟨maximum, graphNodes, -, rfl⟩ | call
  · exact iff_of_true rfl ⟨rfl, rfl⟩
  · refine iff_of_false call.reason_ne ?_
    obtain ⟨policy, config, invocation, depth, fullyProcessed, rfl⟩ := call
    exact fun unnamed => Option.some_ne_none _ unnamed.1

end Trace

namespace Sink

/-! ## Operations -/

/-- Whether an operation bypasses the policy. -/
def Operation.isDirect : Operation → Bool
  | .record _ | .increment _ => true
  | _ => false

/-- Whether an operation asks if a unit may grow that may not. -/
def Operation.isRefused : Operation → Bool
  | .continueInlining config graphNodes => config.maximumDesiredSize ≤ graphNodes
  | _ => false

/-- How often a unit was not allowed to grow since the last clearing. -/
def refusals (ops : List Operation) : ℕ :=
  (ops.rtakeWhile fun op => !op.isClear).countP Operation.isRefused

theorem refusals_concat_clear {op : Operation} (clear : op.isClear = true)
    (ops : List Operation) : refusals (ops ++ [op]) = 0 := by
  rw [refusals, List.rtakeWhile_concat_neg _ _ _ (by simpa using clear)]
  rfl

theorem refusals_concat {op : Operation} (unclear : op.isClear = false) (ops : List Operation) :
    refusals (ops ++ [op]) = refusals ops + if op.isRefused then 1 else 0 := by
  rw [refusals, List.rtakeWhile_concat_pos _ _ _ (by simpa using unclear), List.countP_append,
    List.countP_singleton, refusals]

theorem continueInlining_eq (sink : Sink) (config : Config) (graphNodes : UInt64) :
    ((sink.continueInlining config graphNodes).1 = false ↔
      config.maximumDesiredSize ≤ graphNodes) ∧
    ((sink.continueInlining config graphNodes).1 = true →
      (sink.continueInlining config graphNodes).2 = sink) := by
  unfold continueInlining Config.checkBudget
  split_ifs with full
  · exact ⟨iff_of_true rfl full, fun allowed => by cases allowed⟩
  · exact ⟨iff_of_false not_false full, fun _ => rfl⟩

/-! ## Logs of refusals and calls -/

/-- A log in which a number of refusals are reported twice, once as a trace and once by the counter,
and else only calls are reported. -/
structure Guarded (refused : ℕ) (log : List Event) : Prop where
  counted : log.count (.increment stoppedCounter) = refused
  traced : occurrences (traces log) .maximumDesiredSize false = refused
  kinds : ∀ trace ∈ traces log, trace.IsRefusal ∨ trace.IsCall

theorem guarded_nil : Guarded 0 [] := ⟨rfl, rfl, fun _ mem => by cases mem⟩

theorem Guarded.append {refused refused' : ℕ} {log log' : List Event} (h : Guarded refused log)
    (h' : Guarded refused' log') : Guarded (refused + refused') (log ++ log') where
  counted := by rw [List.count_append, h.counted, h'.counted]
  traced := by
    rw [traces_append, occurrences, List.countP_append]
    exact congrArg₂ (· + ·) h.traced h'.traced
  kinds trace mem := by
    rw [traces_append, List.mem_append] at mem
    exact mem.elim (h.kinds trace) (h'.kinds trace)

/-- Calls are no refusals, in whatever order they are reported. -/
theorem guarded_calls {calls : List Trace} (kind : ∀ trace ∈ calls, trace.IsCall) :
    Guarded 0 (calls.map .trace) where
  counted := List.count_eq_zero.2 (by simp)
  traced := by
    rw [traces_map_trace]
    exact occurrences_eq_zero (fun ⟨trace, mem, same⟩ => (kind trace mem).reason_ne same) false
  kinds trace mem := by
    rw [traces_map_trace] at mem
    exact .inr (kind trace mem)

theorem guarded_budgetEvents (config : Config) (graphNodes : UInt64) :
    Guarded (if config.maximumDesiredSize ≤ graphNodes then 1 else 0)
      (budgetEvents config graphNodes) := by
  unfold budgetEvents Config.checkBudget
  split_ifs with full
  · refine ⟨rfl, rfl, fun trace mem => .inl ⟨_, _, full, ?_⟩⟩
    exact List.mem_singleton.1 mem
  · exact guarded_nil

/-- What one operation reports, unless it bypasses the policy or clears the sink. -/
theorem guarded_of_step {sink last : Sink} {op : Operation} {reported : List Event}
    (step : Step sink op reported last) (indirect : op.isDirect = false)
    (unclear : op.isClear = false) :
    Guarded (if op.isRefused then 1 else 0) reported ∧ .clear ∉ reported := by
  cases step with
  | record | increment => cases indirect
  | clear => cases unclear
  | continueInlining config graphNodes =>
    simp only [Operation.isRefused, decide_eq_true_eq]
    exact ⟨guarded_budgetEvents config graphNodes, clear_not_mem_budgetEvents config graphNodes⟩
  | isWorthInlining policy config invocation depth fullyProcessed =>
    have call : ∀ trace ∈ [policy.trace config invocation depth fullyProcessed], trace.IsCall :=
      List.forall_mem_singleton.2 ⟨policy, config, invocation, depth, fullyProcessed, rfl⟩
    exact ⟨guarded_calls call, by simp⟩
  | evaluateAll policy config candidates fullyProcessed order =>
    refine ⟨guarded_calls fun trace mem => ?_, by simp⟩
    obtain ⟨candidate, -, rfl⟩ := List.mem_map.1 (order.mem_iff.1 mem)
    exact ⟨policy, config, candidate, candidate.depth, fullyProcessed, rfl⟩

/-- The log of a session is guarded: each operation adds what it reports, and a clearing starts
anew. -/
theorem guarded_of_run {sink last : Sink} {ops : List Operation} {events : List Event}
    (run : Run sink ops events last) (indirect : ∀ op ∈ ops, op.isDirect = false) :
    Guarded (refusals ops) (sinceClear events) := by
  induction run with
  | start => exact guarded_nil
  | @step ops events reported middle last op run step ih =>
    rw [List.forall_mem_append, List.forall_mem_singleton] at indirect
    cases clear : op.isClear with
    | true =>
      cases step with
      | clear =>
        rw [refusals_concat_clear clear, sinceClear_concat_clear]
        exact guarded_nil
      | _ => cases clear
    | false =>
      obtain ⟨guarded, uncleared⟩ := guarded_of_step step indirect.2 clear
      rw [refusals_concat clear, sinceClear_append uncleared]
      exact (ih indirect.1).append guarded

/-! ## What can be observed -/

/-- What a sink says about the budget after a number of refusals. -/
structure Refused (refused : ℕ) (sink : Sink) : Prop where
  counter : (sink.counters.get stoppedCounter).toNat = refused
  rejected : (sink.tally .maximumDesiredSize).rejected.toNat = refused
  accepted : (sink.tally .maximumDesiredSize).accepted = 0
  unit : ∀ trace ∈ sink.history, trace.decision.reason = .maximumDesiredSize ↔
    trace.callee = none ∧ trace.callSite = none
  context : ∀ trace ∈ sink.history, trace.decision.reason = .maximumDesiredSize →
    ∃ graphNodes maximum, maximum ≤ graphNodes ∧ trace.decision.context =
      { graphNodes := some graphNodes, maximumDesiredSize := some maximum }

theorem Guarded.occurrences_accepted {refused : ℕ} {log : List Event} (h : Guarded refused log) :
    occurrences (traces log) .maximumDesiredSize true = 0 := by
  rw [occurrences, List.countP_eq_zero]
  intro trace mem
  rw [decide_eq_true_eq]
  rintro ⟨reason, accepted⟩
  rcases h.kinds trace mem with ⟨maximum, graphNodes, -, rfl⟩ | call
  · cases accepted
  · exact call.reason_ne reason

theorem refused_of_guarded {n refused : ℕ} {log : List Event} {sink : Sink}
    (reflects : Reflects n log sink) (guarded : Guarded refused log)
    (fits : (traces log).length < 2 ^ 64) : Refused refused sink := by
  have rejected := toNat_occurrences fits .maximumDesiredSize false
  have received : ∀ trace ∈ sink.history, trace ∈ traces log := fun trace mem => by
    rw [reflects.history] at mem
    exact List.mem_of_mem_drop mem
  refine ⟨?_, ?_, ?_, fun trace mem => ?_, fun trace mem reason => ?_⟩
  · rw [reflects.counter, guarded.counted, ← guarded.traced, rejected]
  · rw [tally_eq reflects, rejected, guarded.traced]
  · rw [tally_eq reflects, guarded.occurrences_accepted]
    rfl
  · exact Trace.reason_eq_iff (guarded.kinds trace (received trace mem))
  · rcases guarded.kinds trace (received trace mem) with ⟨maximum, graphNodes, le, rfl⟩ | call
    · exact ⟨graphNodes, maximum, le, rfl⟩
    · exact absurd reason call.reason_ne

/-- In a session without direct records and increments, the counter and the tally of the reason both
say how many queries of the budget were refused since the last clearing, and the traces with the
reason are those about whole units.  The query is refused exactly if the graph has reached the
maximum size, and otherwise leaves the sink as it is. -/
theorem run_budget {n : ℕ} {ops : List Operation} {events : List Event} {sink : Sink}
    (run : Run { historySize := n } ops events sink)
    (indirect : ∀ op ∈ ops, op.isDirect = false)
    (fits : (traces (sinceClear events)).length < 2 ^ 64) :
    Refused (refusals ops) sink ∧
      ∀ (asked : Sink) (config : Config) (graphNodes : UInt64),
        ((asked.continueInlining config graphNodes).1 = false ↔
          config.maximumDesiredSize ≤ graphNodes) ∧
        ((asked.continueInlining config graphNodes).1 = true →
          (asked.continueInlining config graphNodes).2 = asked) :=
  ⟨refused_of_guarded (reflects_of_run run) (guarded_of_run run indirect) fits, continueInlining_eq⟩

/-- A unit is refused before and after the sink is cleared, and another one may grow and gets a
decision about a call; a history of one trace has forgotten the refusal. -/
theorem run_budget_cleared :
    let policy := Policy.ofProfile {} {}
    let call : Invocation :=
      { callee := { name := "A.m", callSite := ⟨7⟩, nodeCount := 500 }
        probability := 1.0
        relevance := 1.0 }
    ∃ events sink, Run { historySize := 1 }
      [.continueInlining {} 20000, .clear, .continueInlining {} 20001,
        .continueInlining {} 19999, .isWorthInlining policy {} call 0 false] events sink ∧
      sink.history = [policy.trace {} call 0 false] ∧ Refused 1 sink := by
  intro policy call
  have fresh : Run { historySize := 1 } [] [] { historySize := 1 } := .start
  have cleared := (fresh.step (.continueInlining {} 20000)).step .clear
  have refused := cleared.step (.continueInlining {} 20001)
  have allowed := refused.step (.continueInlining {} 19999)
  have run := allowed.step (.isWorthInlining policy {} call 0 false)
  exact ⟨_, _, run, rfl, (run_budget run (by decide) (by decide)).1⟩

end Sink

end InlinePolicy
