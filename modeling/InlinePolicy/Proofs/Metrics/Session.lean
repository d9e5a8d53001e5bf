import Mathlib
import InlinePolicy.Metrics.Sink
import InlinePolicy.Proofs.Metrics.Totals

/-!
# Sessions

A session is a run of operations on one sink.  Each operation is a list of events that the sink
receives, so that the log of the events since the last clearing explains all that can be observed
of the sink (`run_accounts`): tallies, totals, counters and history.  The tallies and the counters
are kept modulo `2 ^ 64` in any case (`Reflects`); the totals are exact as long as the log has fewer
than `2 ^ 64` traces.
-/

namespace InlinePolicy.Sink

/-! ## Operations and events -/

/-- What a sink receives. -/
inductive Event where
  | trace (trace : Trace)
  | increment (name : String)
  | clear
deriving DecidableEq

/-- What can be done with a sink. -/
inductive Operation where
  | record (trace : Trace)
  | increment (name : String)
  | continueInlining (config : Config) (graphNodes : UInt64)
  | isWorthInlining (policy : Policy) (config : Config) (invocation : Invocation) (depth : UInt64)
    (fullyProcessed : Bool)
  | evaluateAll (policy : Policy) (config : Config) (candidates : List Invocation)
    (fullyProcessed : Bool)
  | clear

/-- Whether an operation clears the sink. -/
def Operation.isClear : Operation → Bool
  | .clear => true
  | _ => false

/-- A sink that has received one more event. -/
def receive (sink : Sink) : Event → Sink
  | .trace trace => sink.record trace
  | .increment name => sink.increment name
  | .clear => sink.clear

/-- What the budget of a unit reports: nothing unless it is used up. -/
def budgetEvents (config : Config) (graphNodes : UInt64) : List Event :=
  match config.checkBudget graphNodes with
  | some decision => [.trace (.unit decision), .increment stoppedCounter]
  | none => []

/-- One operation, with the events it reports and the sink after it.  The candidates of
`evaluateAll` are independent of each other, so their traces arrive in any order. -/
inductive Step (sink : Sink) : Operation → List Event → Sink → Prop
  | record (trace : Trace) : Step sink (.record trace) [.trace trace] (sink.record trace)
  | increment (name : String) :
    Step sink (.increment name) [.increment name] (sink.increment name)
  | continueInlining (config : Config) (graphNodes : UInt64) :
    Step sink (.continueInlining config graphNodes) (budgetEvents config graphNodes)
      (sink.continueInlining config graphNodes).2
  | isWorthInlining (policy : Policy) (config : Config) (invocation : Invocation) (depth : UInt64)
      (fullyProcessed : Bool) :
    Step sink (.isWorthInlining policy config invocation depth fullyProcessed)
      [.trace (policy.trace config invocation depth fullyProcessed)]
      (sink.isWorthInlining policy config invocation depth fullyProcessed).2
  | evaluateAll (policy : Policy) (config : Config) (candidates : List Invocation)
      (fullyProcessed : Bool) {arrivals : List Trace}
      (order : arrivals.Perm (policy.traces config candidates fullyProcessed)) :
    Step sink (.evaluateAll policy config candidates fullyProcessed) (arrivals.map .trace)
      (sink.recordAll arrivals)
  | clear : Step sink .clear [.clear] sink.clear

/-- A run of operations, with all events in the order they were reported. -/
inductive Run (sink : Sink) : List Operation → List Event → Sink → Prop
  | start : Run sink [] [] sink
  | step {ops : List Operation} {events reported : List Event} {middle last : Sink}
      {op : Operation} (run : Run sink ops events middle) (step : Step middle op reported last) :
    Run sink (ops ++ [op]) (events ++ reported) last

theorem foldl_receive_map_trace (sink : Sink) (traces : List Trace) :
    (traces.map Event.trace).foldl receive sink = sink.recordAll traces :=
  List.foldl_map

theorem continueInlining_eq_foldl_receive (sink : Sink) (config : Config) (graphNodes : UInt64) :
    (sink.continueInlining config graphNodes).2 =
      (budgetEvents config graphNodes).foldl receive sink := by
  unfold continueInlining budgetEvents
  cases config.checkBudget graphNodes <;> rfl

theorem clear_not_mem_budgetEvents (config : Config) (graphNodes : UInt64) :
    .clear ∉ budgetEvents config graphNodes := by
  unfold budgetEvents
  cases config.checkBudget graphNodes <;> simp

theorem eq_foldl_receive_of_step {sink last : Sink} {op : Operation} {reported : List Event}
    (h : Step sink op reported last) : last = reported.foldl receive sink := by
  cases h with
  | record | increment | isWorthInlining | clear => rfl
  | continueInlining config graphNodes =>
    exact continueInlining_eq_foldl_receive sink config graphNodes
  | evaluateAll => exact (foldl_receive_map_trace sink _).symm

theorem eq_foldl_receive_of_run {sink last : Sink} {ops : List Operation} {events : List Event}
    (h : Run sink ops events last) : last = events.foldl receive sink := by
  induction h with
  | start => rfl
  | step run step ih => rw [List.foldl_append, ← ih, eq_foldl_receive_of_step step]

/-- The candidates may well be evaluated one after the other. -/
theorem step_evaluateAll (sink : Sink) (policy : Policy) (config : Config)
    (candidates : List Invocation) (fullyProcessed : Bool) :
    Step sink (.evaluateAll policy config candidates fullyProcessed)
      ((policy.traces config candidates fullyProcessed).map .trace)
      (sink.evaluateAll policy config candidates fullyProcessed).2 :=
  .evaluateAll policy config candidates fullyProcessed (List.Perm.refl _)

theorem exists_step (sink : Sink) (op : Operation) :
    ∃ reported last, Step sink op reported last := by
  cases op with
  | record trace => exact ⟨_, _, .record trace⟩
  | increment name => exact ⟨_, _, .increment name⟩
  | continueInlining config graphNodes => exact ⟨_, _, .continueInlining config graphNodes⟩
  | isWorthInlining policy config invocation depth fullyProcessed =>
    exact ⟨_, _, .isWorthInlining policy config invocation depth fullyProcessed⟩
  | evaluateAll policy config candidates fullyProcessed =>
    exact ⟨_, _, step_evaluateAll sink policy config candidates fullyProcessed⟩
  | clear => exact ⟨_, _, .clear⟩

/-- Every sequence of operations has a run. -/
theorem exists_run (sink : Sink) (ops : List Operation) :
    ∃ events last, Run sink ops events last := by
  induction ops using List.reverseRecOn with
  | nil => exact ⟨_, _, .start⟩
  | append_singleton ops op ih =>
    obtain ⟨events, middle, run⟩ := ih
    obtain ⟨reported, last, step⟩ := exists_step middle op
    exact ⟨_, _, run.step step⟩

/-! ## Logs -/

/-- The events after the last clearing. -/
def sinceClear (events : List Event) : List Event := events.rtakeWhile fun event => event ≠ .clear

/-- The traces of a log. -/
def traces (log : List Event) : List Trace :=
  log.filterMap fun
    | .trace trace => some trace
    | _ => none

/-- The number of traces with a reason and an outcome. -/
def occurrences (traces : List Trace) (reason : Reason) (accepted : Bool) : ℕ :=
  traces.countP fun trace => trace.decision.reason = reason ∧ trace.decision.accepted = accepted

/-- The tally of a reason in a log; a reason without traces has none. -/
def tallyOf (traces : List Trace) (reason : Reason) : Option Tally :=
  if ∃ trace ∈ traces, trace.decision.reason = reason then
    some {
      accepted := .ofNat (occurrences traces reason true)
      rejected := .ofNat (occurrences traces reason false) }
  else none

/-- A sink of history size `n` holds what a log without clearings says. -/
structure Reflects (n : ℕ) (log : List Event) (sink : Sink) : Prop where
  historySize : sink.historySize = n
  perReason (reason : Reason) : sink.perReason[reason]? = tallyOf (traces log) reason
  counter (name : String) : sink.counters.get name = .ofNat (log.count (.increment name))
  history : sink.history = (traces log).rtake n

theorem traces_concat_trace (log : List Event) (trace : Trace) :
    traces (log ++ [.trace trace]) = traces log ++ [trace] := by
  simp [traces]

theorem traces_concat_increment (log : List Event) (name : String) :
    traces (log ++ [.increment name]) = traces log := by
  simp [traces]

theorem traces_append (log log' : List Event) : traces (log ++ log') = traces log ++ traces log' :=
  List.filterMap_append

theorem traces_map_trace (arrivals : List Trace) : traces (arrivals.map .trace) = arrivals := by
  rw [traces, List.filterMap_map]
  exact List.filterMap_some

theorem occurrences_concat (traces : List Trace) (trace : Trace) (reason : Reason)
    (accepted : Bool) :
    occurrences (traces ++ [trace]) reason accepted =
      occurrences traces reason accepted +
        if trace.decision.reason = reason ∧ trace.decision.accepted = accepted then 1 else 0 := by
  rw [occurrences, List.countP_append, List.countP_singleton]
  simp only [decide_eq_true_eq]
  rfl

theorem occurrences_eq_zero {traces : List Trace} {reason : Reason}
    (h : ¬ ∃ trace ∈ traces, trace.decision.reason = reason) (accepted : Bool) :
    occurrences traces reason accepted = 0 := by
  rw [occurrences, List.countP_eq_zero]
  intro trace mem
  rw [decide_eq_true_eq]
  exact fun found => h ⟨trace, mem, found.1⟩

/-- Also where a reason has no tally yet, the next one starts from the occurrences. -/
theorem getD_tallyOf (traces : List Trace) (reason : Reason) :
    (tallyOf traces reason).getD {} =
      { accepted := .ofNat (occurrences traces reason true)
        rejected := .ofNat (occurrences traces reason false) } := by
  unfold tallyOf
  split_ifs with seen
  · rfl
  · rw [occurrences_eq_zero seen, occurrences_eq_zero seen]
    rfl

theorem tallyOf_concat (traces : List Trace) (trace : Trace) (reason : Reason) :
    tallyOf (traces ++ [trace]) reason =
      if trace.decision.reason = reason then
        some (((tallyOf traces reason).getD {}).count trace.decision.accepted)
      else tallyOf traces reason := by
  by_cases same : trace.decision.reason = reason
  · have seen : ∃ t ∈ traces ++ [trace], t.decision.reason = reason :=
      ⟨trace, List.mem_append_right _ (List.mem_singleton_self _), same⟩
    rw [if_pos same, getD_tallyOf, tallyOf, if_pos seen, occurrences_concat, occurrences_concat]
    cases trace.decision.accepted <;> simp [same, Tally.count, UInt64.ofNat_add]
  · rw [if_neg same, tallyOf, tallyOf, occurrences_concat, occurrences_concat]
    simp [same]

/-- A full history gives up its oldest trace for the next one. -/
theorem remember_rtake (n : ℕ) (traces : List Trace) (trace : Trace) :
    remember n (traces.rtake n) trace = (traces ++ [trace]).rtake n := by
  cases n with
  | zero => rw [remember, if_pos rfl, List.rtake_zero, List.rtake_zero]
  | succ n =>
    rw [remember, if_neg (Nat.succ_ne_zero n), List.rtake_concat_succ]
    congr 1
    simp only [List.rtake, List.length_drop, List.tail_drop]
    split_ifs with full
    · congr 1
      omega
    · congr 1
      omega

/-! ## The sink reflects its log -/

theorem reflects_nil (n : ℕ) : Reflects n [] { historySize := n } where
  historySize := rfl
  perReason reason := by simp [tallyOf, traces]
  counter name := Counters.get_empty name
  history := (List.rtake_nil n).symm

theorem reflects_record {n : ℕ} {log : List Event} {sink : Sink} (h : Reflects n log sink)
    (trace : Trace) : Reflects n (log ++ [.trace trace]) (sink.record trace) where
  historySize := h.historySize
  perReason reason := by
    rw [traces_concat_trace, tallyOf_concat, record, Std.ExtTreeMap.getElem?_alter]
    by_cases same : trace.decision.reason = reason
    · subst same
      rw [if_pos Std.ReflCmp.compare_self, if_pos rfl, h.perReason]
    · rw [if_neg (mt Std.LawfulEqCmp.eq_of_compare same), if_neg same, h.perReason]
  counter name := by
    have absent : Event.trace trace ≠ .increment name := Event.noConfusion
    rw [List.count_append, List.count_singleton, beq_false_of_ne absent]
    exact h.counter name
  history := by
    rw [traces_concat_trace, ← remember_rtake, ← h.history]
    exact congrArg (fun size => remember size sink.history trace) h.historySize

theorem reflects_increment {n : ℕ} {log : List Event} {sink : Sink} (h : Reflects n log sink)
    (name : String) : Reflects n (log ++ [.increment name]) (sink.increment name) where
  historySize := h.historySize
  perReason reason := by
    rw [traces_concat_increment]
    exact h.perReason reason
  counter other := by
    have stepped := Counters.get_add sink.counters name other 1
    rw [increment, Counters.increment, stepped, h.counter, List.count_append,
      List.count_singleton, UInt64.ofNat_add]
    by_cases same : name = other
    · simp [same]
    · simp [same]
  history := by
    rw [traces_concat_increment]
    exact h.history

theorem sinceClear_concat_clear (events : List Event) : sinceClear (events ++ [.clear]) = [] :=
  List.rtakeWhile_concat_neg _ _ _ (by simp)

theorem sinceClear_concat {event : Event} (h : event ≠ .clear) (events : List Event) :
    sinceClear (events ++ [event]) = sinceClear events ++ [event] :=
  List.rtakeWhile_concat_pos _ _ _ (by simpa using h)

theorem sinceClear_append {reported : List Event} (uncleared : .clear ∉ reported)
    (events : List Event) : sinceClear (events ++ reported) = sinceClear events ++ reported := by
  induction reported using List.reverseRecOn with
  | nil => rw [List.append_nil, List.append_nil]
  | append_singleton reported event ih =>
    rw [List.mem_append, List.mem_singleton, not_or] at uncleared
    rw [← List.append_assoc, sinceClear_concat (Ne.symm uncleared.2), ih uncleared.1,
      List.append_assoc]

/-- Each event keeps the sink in agreement with the log. -/
theorem reflects_receive {n : ℕ} {events : List Event} {sink : Sink}
    (h : Reflects n (sinceClear events) sink) (event : Event) :
    Reflects n (sinceClear (events ++ [event])) (sink.receive event) := by
  cases event with
  | trace trace =>
    rw [sinceClear_concat Event.noConfusion]
    exact reflects_record h trace
  | increment name =>
    rw [sinceClear_concat Event.noConfusion]
    exact reflects_increment h name
  | clear =>
    rw [sinceClear_concat_clear]
    have fresh := reflects_nil n
    rw [← h.historySize] at fresh ⊢
    exact fresh

theorem reflects_foldl_receive (n : ℕ) (events : List Event) :
    Reflects n (sinceClear events) (events.foldl receive { historySize := n }) := by
  induction events using List.reverseRecOn with
  | nil => exact reflects_nil n
  | append_singleton events event ih =>
    rw [List.foldl_append]
    exact reflects_receive ih event

/-- Events that do not clear the sink are added to its log. -/
theorem reflects_append {n : ℕ} {log arrivals : List Event} {sink : Sink}
    (h : Reflects n log sink) (uncleared : .clear ∉ arrivals) :
    Reflects n (log ++ arrivals) (arrivals.foldl receive sink) := by
  induction arrivals using List.reverseRecOn with
  | nil => rwa [List.append_nil]
  | append_singleton arrivals event ih =>
    rw [List.mem_append, List.mem_singleton, not_or] at uncleared
    rw [List.foldl_append, ← List.append_assoc]
    cases event with
    | trace trace => exact reflects_record (ih uncleared.1) trace
    | increment name => exact reflects_increment (ih uncleared.1) name
    | clear => exact absurd rfl uncleared.2

theorem reflects_of_run {n : ℕ} {ops : List Operation} {events : List Event} {sink : Sink}
    (run : Run { historySize := n } ops events sink) : Reflects n (sinceClear events) sink := by
  rw [eq_foldl_receive_of_run run]
  exact reflects_foldl_receive n events

/-! ## Totals -/

/-- Counting by reason counts everything, if each reason that occurs is counted once. -/
theorem sum_occurrences {reasons : List Reason} (nodup : reasons.Nodup) (accepted : Bool)
    {traces : List Trace} (covered : ∀ trace ∈ traces, trace.decision.reason ∈ reasons) :
    (reasons.map fun reason => occurrences traces reason accepted).sum =
      traces.countP fun trace => trace.decision.accepted = accepted := by
  rw [← List.sum_toFinset _ nodup]
  induction traces using List.reverseRecOn with
  | nil => exact Finset.sum_const_zero
  | append_singleton traces trace ih =>
    have here : trace.decision.reason ∈ reasons.toFinset :=
      List.mem_toFinset.2 (covered trace (List.mem_append_right _ (List.mem_singleton_self _)))
    have before := ih fun earlier mem => covered earlier (List.mem_append_left _ mem)
    simp only [occurrences_concat, Finset.sum_add_distrib, before, List.countP_append,
      List.countP_singleton, ite_and, Finset.sum_ite_eq, here, if_true, decide_eq_true_eq]

theorem countP_accepted_add_countP_rejected (traces : List Trace) :
    (traces.countP fun trace => trace.decision.accepted = true) +
      (traces.countP fun trace => trace.decision.accepted = false) = traces.length := by
  rw [List.length_eq_countP_add_countP fun trace => trace.decision.accepted]
  simp

section

variable {n : ℕ} {log : List Event} {sink : Sink}

theorem mem_perReason_iff (h : Reflects n log sink) {reason : Reason} :
    reason ∈ sink.stats.perReason ↔ ∃ trace ∈ traces log, trace.decision.reason = reason := by
  rw [stats, Std.ExtTreeMap.mem_iff_isSome_getElem?, h.perReason, tallyOf]
  split_ifs with seen
  · exact iff_of_true rfl seen
  · exact iff_of_false Bool.false_ne_true seen

theorem toNat_occurrences (fits : (traces log).length < 2 ^ 64) (reason : Reason)
    (accepted : Bool) :
    (UInt64.ofNat (occurrences (traces log) reason accepted)).toNat =
      occurrences (traces log) reason accepted :=
  UInt64.toNat_ofNat_of_lt (List.countP_le_length.trans_lt fits)

theorem tally_eq (h : Reflects n log sink) (reason : Reason) :
    sink.tally reason =
      { accepted := .ofNat (occurrences (traces log) reason true)
        rejected := .ofNat (occurrences (traces log) reason false) } := by
  rw [tally, h.perReason, getD_tallyOf]

/-- A sum over the tallies is the sum of the occurrences that they count. -/
theorem sum_tallies (h : Reflects n log sink) (accepted : Bool) (f : Tally → ℕ)
    (hf : ∀ reason, f (sink.tally reason) = occurrences (traces log) reason accepted) :
    (sink.stats.tallies.map f).sum =
      (traces log).countP fun trace => trace.decision.accepted = accepted := by
  have covered : ∀ trace ∈ traces log, trace.decision.reason ∈ sink.stats.perReason.keys :=
    fun trace mem => Std.ExtTreeMap.mem_keys.2 ((mem_perReason_iff h).2 ⟨trace, mem, rfl⟩)
  rw [← sum_occurrences Std.ExtTreeMap.nodup_keys accepted covered, Stats.tallies_eq_map_keys,
    List.map_map]
  exact congrArg List.sum (List.map_congr_left fun reason _ => hf reason)

theorem totals_of_reflects (h : Reflects n log sink) (fits : (traces log).length < 2 ^ 64) :
    ∃ total accepted rejected : UInt64,
      sink.stats.total? = some total ∧ sink.stats.accepted? = some accepted ∧
        sink.stats.rejected? = some rejected ∧ total.toNat = (traces log).length ∧
        accepted.toNat + rejected.toNat = (traces log).length ∧
        accepted.toNat = (traces log).countP fun trace => trace.decision.accepted = true := by
  have accepted_sum := sum_tallies h true (fun tally => tally.accepted.toNat) fun reason => by
    rw [tally_eq h, toNat_occurrences fits]
  have rejected_sum := sum_tallies h false (fun tally => tally.rejected.toNat) fun reason => by
    rw [tally_eq h, toNat_occurrences fits]
  have both := countP_accepted_add_countP_rejected (traces log)
  obtain ⟨total, total_eq, total_toNat⟩ := Word.exists_ofNat?_eq_some fits
  obtain ⟨accepted, accepted_eq, accepted_toNat⟩ :=
    Word.exists_ofNat?_eq_some (List.countP_le_length.trans_lt fits)
  obtain ⟨rejected, rejected_eq, rejected_toNat⟩ :=
    Word.exists_ofNat?_eq_some (List.countP_le_length.trans_lt fits)
  refine ⟨total, accepted, rejected, ?_, ?_, ?_, total_toNat, ?_, accepted_toNat⟩
  · rw [Stats.total?_eq_ofNat?, Stats.sum_size_eq_add, accepted_sum, rejected_sum, both, total_eq]
  · rw [Stats.accepted?_eq_ofNat?, accepted_sum, accepted_eq]
  · rw [Stats.rejected?_eq_ofNat?, rejected_sum, rejected_eq]
  · rw [accepted_toNat, rejected_toNat, both]

end

/-! ## What can be observed -/

/-- The observations of a sink are those of the log. -/
structure Accounts (n : ℕ) (log : List Event) (sink : Sink) : Prop where
  accepted (reason : Reason) :
    (sink.tally reason).accepted.toNat = occurrences (traces log) reason true
  rejected (reason : Reason) :
    (sink.tally reason).rejected.toNat = occurrences (traces log) reason false
  reasons (reason : Reason) :
    reason ∈ sink.stats.perReason ↔ ∃ trace ∈ traces log, trace.decision.reason = reason
  totals : ∃ total accepted rejected : UInt64,
    sink.stats.total? = some total ∧ sink.stats.accepted? = some accepted ∧
      sink.stats.rejected? = some rejected ∧ total.toNat = (traces log).length ∧
      accepted.toNat + rejected.toNat = (traces log).length ∧
      accepted.toNat = (traces log).countP fun trace => trace.decision.accepted = true
  counters (name : String) :
    (sink.counters.get name).toNat = log.count (.increment name) % 2 ^ 64
  history : sink.history <:+ traces log
  history_length : sink.history.length = min n (traces log).length

theorem accounts_of_reflects {n : ℕ} {log : List Event} {sink : Sink} (h : Reflects n log sink)
    (fits : (traces log).length < 2 ^ 64) : Accounts n log sink where
  accepted reason := by rw [tally_eq h, toNat_occurrences fits]
  rejected reason := by rw [tally_eq h, toNat_occurrences fits]
  reasons reason := mem_perReason_iff h
  totals := totals_of_reflects h fits
  counters name := by
    rw [h.counter]
    exact UInt64.toNat_ofNat'
  history := by
    rw [h.history]
    exact List.drop_suffix _ _
  history_length := by
    rw [h.history, List.rtake, List.length_drop]
    omega

/-- A session is accounted for by the events since its last clearing, and a cleared sink goes on as
a new one does. -/
theorem run_accounts {n : ℕ} {ops : List Operation} {events : List Event} {sink : Sink}
    (run : Run { historySize := n } ops events sink)
    (fits : (traces (sinceClear events)).length < 2 ^ 64) :
    Accounts n (sinceClear events) sink ∧
      ∀ later reported last, Run sink.clear later reported last ↔
        Run { historySize := n } later reported last := by
  have reflects := reflects_of_run run
  refine ⟨accounts_of_reflects reflects fits, fun later reported last => ?_⟩
  rw [clear, reflects.historySize]

/-- A unit is stopped, the sink is cleared, and a history of one trace keeps the last of two. -/
theorem run_accounts_short :
    ∃ sink, Run { historySize := 1 }
      [.continueInlining {} 20000, .clear, .increment "calls",
        .record (.unit { accepted := true, reason := .relevanceBased }),
        .record (.unit { accepted := false, reason := .relevanceBased })]
      (budgetEvents {} 20000 ++ [.clear, .increment "calls",
        .trace (.unit { accepted := true, reason := .relevanceBased }),
        .trace (.unit { accepted := false, reason := .relevanceBased })]) sink ∧
      Accounts 1 [.increment "calls",
        .trace (.unit { accepted := true, reason := .relevanceBased }),
        .trace (.unit { accepted := false, reason := .relevanceBased })] sink := by
  have fresh : Run { historySize := 1 } [] [] { historySize := 1 } := .start
  have stopped := (fresh.step (.continueInlining {} 20000)).step .clear
  have counted := stopped.step (.increment "calls")
  have accepted := counted.step (.record (.unit { accepted := true, reason := .relevanceBased }))
  have run := accepted.step (.record (.unit { accepted := false, reason := .relevanceBased }))
  exact ⟨_, run, (run_accounts run (by decide)).1⟩

end InlinePolicy.Sink
