import InlinePolicy.Proofs.Metrics.Scheduling
import InlinePolicy.Proofs.Report.Agreement

/-!
# The order of a scenario

The report of a scenario depends on what its lists mean, and not on how they are written.  Lists
that mean the same give the same report (`Equivalent.evaluate_eq`), and so does any number of
rewriting steps (`Rewrite`).  Candidates are decided independently: their decisions move with them,
and the statistics do not see their order (`Report.Reorders`).
-/

namespace InlinePolicy

/-! ## What a decision depends on -/

/-- Two policies that know the same about a callee. -/
structure Policy.AgreeOn (policy policy' : Policy) (callee : Callee) : Prop where
  bonus : policy'.scorer.bonus callee = policy.scorer.bonus callee
  previousSize : policy'.scorer.previousSize callee = policy.scorer.previousSize callee
  invokeProbability :
    policy'.scorer.invokeProbability callee = policy.scorer.invokeProbability callee
  maximumSize : policy'.scorer.maximumSize = policy.scorer.maximumSize
  isIntrinsic : policy'.isIntrinsic callee = policy.isIntrinsic callee

theorem Policy.AgreeOn.evaluate_eq {policy policy' : Policy} {invocation : Invocation}
    (agree : policy.AgreeOn policy' invocation.callee) (config : Config) (fullyProcessed : Bool) :
    policy'.evaluate config invocation fullyProcessed =
      policy.evaluate config invocation fullyProcessed := by
  have previous : policy'.oversizedPrevious config invocation.callee =
      policy.oversizedPrevious config invocation.callee := by
    simp only [oversizedPrevious, agree.previousSize, agree.bonus]
  have trivial : policy'.isTrivial config invocation.callee =
      policy.isTrivial config invocation.callee := by
    rw [isTrivial, agree.bonus, isTrivial]
  have invokes : policy'.excessiveInvokes config invocation.callee =
      policy.excessiveInvokes config invocation.callee := by
    simp only [excessiveInvokes, agree.invokeProbability, agree.bonus]
  have maximum : policy'.maximumNodes config invocation =
      policy.maximumNodes config invocation := by
    rw [maximumNodes, agree.maximumSize, agree.bonus, maximumNodes]
  have numbers : policy'.context invocation = policy.context invocation := by
    rw [context, agree.bonus, context]
  simp only [evaluate, agree.isIntrinsic, previous, trivial, invokes, maximum, numbers]

/-- The statistics of traces do not depend on their order. -/
theorem Sink.stats_recordAll_of_perm (sink : Sink) {traces traces' : List Trace}
    (order : traces'.Perm traces) :
    (sink.recordAll traces').stats = (sink.recordAll traces).stats := by
  have uncleared : Event.clear ∉ traces'.map Event.trace := by simp
  have events := stats_eq_of_perm sink (order.map Event.trace) uncleared
  rwa [foldl_receive_map_trace, foldl_receive_map_trace] at events

namespace Scenario

variable {scenario scenario' : Scenario} {config : Config} {graphNodes : Option UInt64}

/-! ## Scenarios that mean the same -/

/-- Scenarios with the same candidates, the same bonus for each of their call sites, and the same
intrinsics. -/
structure Equivalent (scenario scenario' : Scenario) : Prop where
  graphNodes : scenario'.graphNodes = scenario.graphNodes
  candidates : scenario'.candidates = scenario.candidates
  lastHint : ∀ candidate ∈ scenario.candidates,
    scenario'.lastHint? candidate.callee.callSite = scenario.lastHint? candidate.callee.callSite
  intrinsics : ∀ method, method ∈ scenario'.intrinsics ↔ method ∈ scenario.intrinsics

namespace Equivalent

theorem refl (scenario : Scenario) : scenario.Equivalent scenario :=
  ⟨rfl, rfl, fun _ _ => rfl, fun _ => Iff.rfl⟩

theorem trans {scenario'' : Scenario} (first : scenario.Equivalent scenario')
    (second : scenario'.Equivalent scenario'') : scenario.Equivalent scenario'' where
  graphNodes := second.graphNodes.trans first.graphNodes
  candidates := second.candidates.trans first.candidates
  lastHint candidate mem :=
    (second.lastHint candidate (first.candidates ▸ mem)).trans (first.lastHint candidate mem)
  intrinsics method := (second.intrinsics method).trans (first.intrinsics method)

theorem agreeOn (same : scenario.Equivalent scenario') {candidate : Invocation}
    (mem : candidate ∈ scenario.candidates) :
    scenario.listedPolicy.AgreeOn scenario'.listedPolicy candidate.callee where
  bonus := congrArg (Option.getD · 1.0) (same.lastHint candidate mem)
  previousSize := rfl
  invokeProbability := rfl
  maximumSize := rfl
  isIntrinsic := by
    have contains (method : String) :
        scenario'.intrinsics.contains method = scenario.intrinsics.contains method := by
      rw [Bool.eq_iff_iff, List.contains_iff_mem, List.contains_iff_mem]
      exact same.intrinsics method
    simp only [listedPolicy, contains]

theorem graphSize_eq (same : scenario.Equivalent scenario') :
    scenario'.graphSize graphNodes = scenario.graphSize graphNodes := by
  rw [graphSize, graphSize, same.graphNodes]

/-- Equivalent scenarios have the same report. -/
theorem evaluate_eq (same : scenario.Equivalent scenario') (config : Config)
    (graphNodes : Option UInt64) (fullyProcessed : Bool) :
    scenario'.evaluate config graphNodes fullyProcessed =
      scenario.evaluate config graphNodes fullyProcessed := by
  cases gate : config.checkBudget (scenario.graphSize graphNodes) with
  | some decision =>
    have gate' := same.graphSize_eq.symm ▸ gate
    rw [evaluate_of_stopped fullyProcessed gate, evaluate_of_stopped fullyProcessed gate',
      same.graphSize_eq]
  | none =>
    have gate' := same.graphSize_eq.symm ▸ gate
    have decision {candidate : Invocation} (mem : candidate ∈ scenario.candidates) :=
      (same.agreeOn mem).evaluate_eq config fullyProcessed
    have entries : (scenario.candidates.map fun candidate =>
          scenario'.listedPolicy.entry config candidate fullyProcessed) =
        scenario.candidates.map fun candidate =>
          scenario.listedPolicy.entry config candidate fullyProcessed :=
      List.map_congr_left fun candidate mem => by rw [Policy.entry, decision mem, Policy.entry]
    have traces : scenario'.policy.traces config scenario.candidates fullyProcessed =
        scenario.policy.traces config scenario.candidates fullyProcessed := by
      rw [policy_eq_listedPolicy, policy_eq_listedPolicy]
      exact List.map_congr_left fun candidate mem => by
        rw [Policy.trace, decision mem, Policy.trace]
    rw [evaluate_of_continued fullyProcessed gate, evaluate_of_continued fullyProcessed gate',
      same.graphSize_eq, same.candidates, entries, traces]

end Equivalent

/-! ## Rewriting -/

/-- Steps that change how a scenario is written. -/
inductive Rewrite (scenario : Scenario) : Scenario → Prop where
  /-- The intrinsics are listed in another order, or more or less often. -/
  | relist {methods : List String}
      (same : ∀ method, method ∈ methods ↔ method ∈ scenario.intrinsics) :
      Rewrite scenario { scenario with intrinsics := methods }
  /-- The hints for each call site keep their order, and those for different ones need not. -/
  | rearrange {hints : List BonusHint}
      (same : ∀ site, (hints.filter fun hint => hint.callSite = site) =
        scenario.hints.filter fun hint => hint.callSite = site) :
      Rewrite scenario { scenario with hints }
  /-- A hint is left out if no candidate has its call site. -/
  | dropUnused {before after : List BonusHint} {hint : BonusHint}
      (hints : scenario.hints = before ++ hint :: after)
      (unused : ∀ candidate ∈ scenario.candidates, candidate.callee.callSite ≠ hint.callSite) :
      Rewrite scenario { scenario with hints := before ++ after }
  /-- A hint is left out if there is a later one for its call site. -/
  | dropOverridden {before after : List BonusHint} {hint : BonusHint}
      (hints : scenario.hints = before ++ hint :: after)
      (overridden : ∃ later ∈ after, later.callSite = hint.callSite) :
      Rewrite scenario { scenario with hints := before ++ after }

theorem lastHint?_eq_of_ne {before after : List BonusHint} {hint : BonusHint} {site : CallSite}
    (hints : scenario.hints = before ++ hint :: after) (ne : site ≠ hint.callSite) :
    { scenario with hints := before ++ after }.lastHint? site = scenario.lastHint? site := by
  simp [lastHint?, hints, ne.symm]

theorem lastHint?_eq_of_later {before after : List BonusHint} {hint later : BonusHint}
    (hints : scenario.hints = before ++ hint :: after) (mem : later ∈ after) :
    { scenario with hints := before ++ after }.lastHint? later.callSite =
      scenario.lastHint? later.callSite := by
  have mem' : later ∈ after.filter fun other => other.callSite = later.callSite := by simp [mem]
  have last := List.getLast?_eq_some_getLast (List.ne_nil_of_mem mem')
  rw [lastHint?, lastHint?, hints, List.append_cons, List.filter_append, List.filter_append,
    List.getLast?_append, List.getLast?_append, last, Option.some_or, Option.some_or]

/-- A step keeps what the scenario means. -/
theorem Rewrite.equivalent (step : scenario.Rewrite scenario') : scenario.Equivalent scenario' := by
  cases step with
  | relist same => exact ⟨rfl, rfl, fun _ _ => rfl, same⟩
  | rearrange same =>
    refine ⟨rfl, rfl, fun candidate _ => ?_, fun _ => Iff.rfl⟩
    rw [lastHint?, same, lastHint?]
  | dropUnused hints unused =>
    exact ⟨rfl, rfl, fun candidate mem => lastHint?_eq_of_ne hints (unused candidate mem),
      fun _ => Iff.rfl⟩
  | @dropOverridden before after hint hints overridden =>
    refine ⟨rfl, rfl, fun candidate _ => ?_, fun _ => Iff.rfl⟩
    obtain ⟨later, mem, same⟩ := overridden
    by_cases site : candidate.callee.callSite = hint.callSite
    · rw [site, ← same]
      exact lastHint?_eq_of_later hints mem
    · exact lastHint?_eq_of_ne hints site

theorem equivalent_of_rewrites (steps : Relation.ReflTransGen Rewrite scenario scenario') :
    scenario.Equivalent scenario' := by
  induction steps with
  | refl => exact .refl scenario
  | tail _ step ih => exact ih.trans step.equivalent

/-! ## Candidates in another order -/

/-- The scenario with its candidates in another order. -/
def reordered (scenario : Scenario) (order : Equiv.Perm (Fin scenario.candidates.length)) :
    Scenario :=
  { scenario with candidates := List.ofFn fun i => scenario.candidates.get (order i) }

theorem candidates_reordered_perm (order : Equiv.Perm (Fin scenario.candidates.length)) :
    (scenario.reordered order).candidates.Perm scenario.candidates := by
  have perm := Equiv.Perm.ofFn_comp_perm order scenario.candidates.get
  rwa [List.ofFn_get] at perm

end Scenario

/-- Of two reports, the second one has the entries of the first one in another order.  The tallies
and counters are the same, and with them their JSON and their sums, which exist. -/
structure Report.Reorders {n : ℕ} (report report' : Report) (order : Equiv.Perm (Fin n)) :
    Prop where
  graphNodes : report'.graphNodes = report.graphNodes
  continued : report'.continued = report.continued
  length : report'.entries.length = report.entries.length
  entries (i : Fin n) : report'.entries[i.val]? = report.entries[(order i).val]?
  stats : report'.stats = report.stats
  totals : ∃ totals, report'.stats.totals? = some totals

namespace Scenario

theorem entries_reordered (scenario : Scenario)
    (order : Equiv.Perm (Fin scenario.candidates.length)) (entry : Invocation → Report.Entry)
    (i : Fin scenario.candidates.length) :
    ((scenario.reordered order).candidates.map entry)[i.val]? =
      (scenario.candidates.map entry)[(order i).val]? := by
  simp [reordered]

/-- Each decision follows its candidate, and the statistics stay. -/
theorem reorders_reordered (scenario : Scenario) (config : Config) (graphNodes : Option UInt64)
    (fullyProcessed : Bool) (order : Equiv.Perm (Fin scenario.candidates.length))
    (fits : scenario.candidates.length < 2 ^ 64) :
    (scenario.evaluate config graphNodes fullyProcessed).Reorders
      ((scenario.reordered order).evaluate config graphNodes fullyProcessed) order := by
  have perm := candidates_reordered_perm order
  cases gate : config.checkBudget (scenario.graphSize graphNodes) with
  | some decision =>
    have gate' : config.checkBudget ((scenario.reordered order).graphSize graphNodes) =
      some decision := gate
    obtain ⟨totals, totals_eq, -⟩ := (counts_stopped decision).totals
    rw [evaluate_of_stopped fullyProcessed gate', evaluate_of_stopped fullyProcessed gate]
    exact ⟨rfl, rfl, rfl, fun _ => rfl, rfl, totals, totals_eq⟩
  | none =>
    have gate' : config.checkBudget ((scenario.reordered order).graphSize graphNodes) = none := gate
    have traces := perm.map fun candidate =>
      scenario.policy.trace config candidate candidate.depth fullyProcessed
    obtain ⟨totals, totals_eq, -⟩ := (counts_recordAll
      (scenario.policy.traces config (scenario.reordered order).candidates fullyProcessed)
      (by rw [Policy.traces, List.length_map, perm.length_eq]; exact fits)).totals
    rw [evaluate_of_continued fullyProcessed gate', evaluate_of_continued fullyProcessed gate]
    refine ⟨rfl, rfl, (perm.map _).length_eq, ?_, ?_, totals, totals_eq⟩
    · exact scenario.entries_reordered order _
    · exact Sink.stats_recordAll_of_perm {} traces

/-- The report of a scenario does not depend on how the scenario is written.  If its candidates are
permuted, the decisions are permuted in the same way. -/
theorem evaluate_meaning (scenario : Scenario) (config : Config) (graphNodes : Option UInt64)
    (fullyProcessed : Bool) (fits : scenario.candidates.length < 2 ^ 64) :
    (∀ order : Equiv.Perm (Fin scenario.candidates.length),
      (scenario.evaluate config graphNodes fullyProcessed).Reorders
        ((scenario.reordered order).evaluate config graphNodes fullyProcessed) order) ∧
    ∀ scenario', Relation.ReflTransGen Rewrite scenario scenario' →
      scenario'.evaluate config graphNodes fullyProcessed =
        scenario.evaluate config graphNodes fullyProcessed :=
  ⟨fun order => reorders_reordered scenario config graphNodes fullyProcessed order fits,
    fun _ steps => (equivalent_of_rewrites steps).evaluate_eq config graphNodes fullyProcessed⟩

/-- The candidates turned round, and then again without the hint that is overridden and with an
intrinsic that is listed twice. -/
theorem evaluate_meaning_crowded :
    crowded.candidates.length < 2 ^ 64 ∧
    (crowded.evaluate {} (some 19999) true).Reorders (n := 3)
      ((crowded.reordered Fin.revPerm).evaluate {} (some 19999) true) Fin.revPerm ∧
    { crowded with hints := [⟨⟨7⟩, 0.5⟩], intrinsics := ["Math.abs", "Math.abs"] }.evaluate {}
        (some 19999) true =
      crowded.evaluate {} (some 19999) true := by
  obtain ⟨reorders, rewrites⟩ := evaluate_meaning crowded {} (some 19999) true (by decide)
  have drop : crowded.Rewrite { crowded with hints := [] ++ [⟨⟨7⟩, 0.5⟩] } :=
    .dropOverridden rfl (by simp)
  have relist : Rewrite { crowded with hints := [⟨⟨7⟩, 0.5⟩] }
      { crowded with hints := [⟨⟨7⟩, 0.5⟩], intrinsics := ["Math.abs", "Math.abs"] } :=
    .relist (by simp [crowded])
  have steps := (Relation.ReflTransGen.single drop).tail relist
  exact ⟨by decide, reorders Fin.revPerm, rewrites _ steps⟩

end Scenario

end InlinePolicy
