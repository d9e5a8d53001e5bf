import Mathlib
import InlinePolicy.Proofs.Decision.Json
import InlinePolicy.Proofs.Policy.Rules
import InlinePolicy.Proofs.Report.Agreement
import InlinePolicy.Proofs.Scenario.Json
import InlinePolicy.Report.Json

/-!
# Decisions read from a report

The decisions that the JSON text of a report lists are those of the report, of which only numbers
that are not finite are lost.  In a report about a scenario that was read from a text, these can
only be a sum of probabilities or a bound on the size (`Scenario.decode_report_json`), as each of
the other numbers is one of the scenario.
-/

namespace InlinePolicy

open Json Binary64

/-! ## Readable forms -/

instance : ReadableJson Tally where
  readable tally := .object (by simp [readable])

instance : ReadableJson Counters where
  readable counters := .object fun member mem => by
    obtain ⟨⟨name, value⟩, -, rfl⟩ := List.mem_map.1 mem
    exact readable value

instance : ReadableJson Stats where
  readable stats := .object (by
    simp only [List.forall_mem_cons]
    refine ⟨.object fun member mem => ?_, readable stats.counters, List.forall_mem_nil _⟩
    obtain ⟨⟨reason, tally⟩, -, rfl⟩ := List.mem_map.1 mem
    exact readable tally)

instance : ReadableJson Report.Entry where
  readable entry := .object (by simp [Decision.members, readable])

instance : ReadableJson Report where
  readable report := .object (by simp [readable])

/-! ## The listed decisions -/

/-- What a report says about its candidates. -/
structure Report.Listing where
  decisions : List Decision

/-- The decisions of a report are read without its other members, and without the names and the
depths of the candidates. -/
instance : FromJson Report.Listing where
  fromJson := record ["decisions"] fun fields => do
    return { decisions := ← fields.required "decisions" }

theorem fromJson_toJson_entry (entry : Report.Entry) :
    fromJson (toJson entry) = .ok entry.decision.finitePart := by
  have distinct : DistinctNames
      (("callee", toJson entry.callee) :: ("depth", toJson entry.depth) ::
        entry.decision.members) :=
    show ("callee" :: "depth" :: Decision.fieldNames).Nodup by decide
  exact fromJson_object_decision distinct fun member mem => .tail _ (.tail _ mem)

theorem decode_json (report : Report) :
    decode report.json =
      .ok (⟨report.entries.map fun entry => entry.decision.finitePart⟩ : Report.Listing) := by
  have entries := fromJson_toJson_list fun entry (_ : entry ∈ report.entries) =>
    fromJson_toJson_entry entry
  refine (decode_pretty (readable report)).trans ?_
  refine record_of_members
    (show ["graph_nodes", "continued", "decisions", "stats"].Nodup by decide) fun slots given => ?_
  simp only [List.forall_mem_cons] at given
  obtain ⟨-, -, decisions, -⟩ := given
  rw [required_of_given decisions entries]
  rfl

/-! ## What may be lost -/

/-- A decision without a sum of probabilities or a bound on the size that is not finite. -/
def Decision.boundedPart (d : Decision) : Decision :=
  { d with
    context :=
      { d.context with
        invokeProbability := d.context.invokeProbability.filter Float.isFinite
        maximumNodes := d.context.maximumNodes.filter Float.isFinite } }

section

variable {policy : Policy} {config : Config} {invocation : Invocation}

/-- The numbers that are not computed are finite if those of the query are. -/
theorem finitePart_evaluate (fullyProcessed : Bool)
    (relevance : invocation.relevance.isFinite = true)
    (probability : invocation.probability.isFinite = true)
    (bonus : (policy.bonus invocation).isFinite = true) :
    (policy.evaluate config invocation fullyProcessed).finitePart =
      (policy.evaluate config invocation fullyProcessed).boundedPart := by
  obtain ⟨reason, settles⟩ :=
    @Policy.exists_settles policy config invocation fullyProcessed
  have bonus : (policy.scorer.bonus invocation.callee).isFinite = true := bonus
  rw [Policy.evaluate_of_settles settles]
  cases reason <;>
    simp [Decision.finitePart, Decision.boundedPart, Context.finitePart, Policy.verdict,
      Policy.evidence, Policy.context, Option.filter, relevance, probability, bonus]

/-- A sum of probabilities stands only in the decisions of the rule about it, and a bound on the
size only in those of the last rule. -/
theorem boundedPart_evaluate_eq_iff (policy : Policy) (config : Config) (invocation : Invocation)
    (fullyProcessed : Bool) :
    (policy.evaluate config invocation fullyProcessed).boundedPart =
        policy.evaluate config invocation fullyProcessed ↔
      ((policy.evaluate config invocation fullyProcessed).reason = .invokeProbabilityTooHigh →
        (policy.scorer.invokeProbability invocation.callee).isFinite = true) ∧
      ((policy.evaluate config invocation fullyProcessed).reason = .relevanceBased →
        (policy.sizeBound config invocation).isFinite = true) := by
  obtain ⟨reason, settles⟩ :=
    @Policy.exists_settles policy config invocation fullyProcessed
  rw [Policy.evaluate_of_settles settles]
  cases reason <;>
    simp [Decision.boundedPart, Policy.verdict, Policy.evidence, Policy.context]

/-- A bound on the size is finite if it was before the relevance scaled it, as the relevance counts
for at most 1. -/
theorem isFinite_mul_lesser {base relevance : Float} (nonneg : 0.0 ≤ base)
    (finite : base.isFinite = true) (relevance_nonneg : 0.0 ≤ relevance) :
    (trunc base * lesser relevance 1.0).isFinite = true := by
  have number := (zero_le_iff.1 relevance_nonneg).1
  have small : lesser relevance 1.0 ≤ 1.0 := by
    refine le_iff.2 ⟨isNaN_lesser number 1.0, rfl, ?_⟩
    rw [units_lesser number rfl]
    exact min_le_right _ _
  exact isFinite_mul_of_le_one (trunc_nonneg nonneg)
    (isFinite_of_le (trunc_nonneg nonneg) (trunc_le nonneg) finite)
    (lesser_nonneg relevance_nonneg (by decide)) small

end

namespace Scenario

variable {scenario : Scenario}

/-- The bonus of a call is that of a hint, or 1. -/
theorem bonus_listedPolicy {P : Float → Prop} (one : P 1.0)
    (hints : ∀ hint ∈ scenario.hints, P hint.bonus) (invocation : Invocation) :
    P (scenario.listedPolicy.bonus invocation) := by
  change P ((scenario.lastHint? invocation.callee.callSite).getD 1.0)
  cases last : scenario.lastHint? invocation.callee.callSite with
  | none => exact one
  | some bonus =>
    obtain ⟨hint, listed, rfl⟩ := Option.map_eq_some_iff.1 last
    exact hints hint (List.mem_filter.1 (List.mem_of_getLast? listed)).1

theorem entries_evaluate (config : Config) (graphNodes : Option UInt64) (fullyProcessed : Bool) :
    (scenario.evaluate config graphNodes fullyProcessed).entries = [] ∨
      (scenario.evaluate config graphNodes fullyProcessed).entries =
        scenario.candidates.map fun candidate =>
          scenario.listedPolicy.entry config candidate fullyProcessed := by
  cases gate : config.checkBudget (scenario.graphSize graphNodes) with
  | some decision => exact .inl (by rw [evaluate_of_stopped fullyProcessed gate])
  | none => exact .inr (by rw [evaluate_of_continued fullyProcessed gate])

/-- The entry of a candidate, if the unit may grow. -/
theorem entry_of_getElem? {config : Config} {graphNodes : Option UInt64} {fullyProcessed : Bool}
    {index : ℕ} {candidate : Invocation} {entry : Report.Entry}
    (candidate_at : scenario.candidates[index]? = some candidate)
    (entry_at : (scenario.evaluate config graphNodes fullyProcessed).entries[index]? =
      some entry) :
    entry = scenario.listedPolicy.entry config candidate fullyProcessed := by
  rcases entries_evaluate config graphNodes fullyProcessed with stopped | continued
  · rw [stopped] at entry_at
    cases entry_at
  · rw [continued, List.getElem?_map, candidate_at] at entry_at
    exact (Option.some.inj entry_at).symm

/-- The text of the report about a scenario that was read from a text lists the decisions, of which
only a sum of probabilities or a bound on the size may be lost: the one that the rule looked at
which settled the decision, if it is not finite.  Nothing is lost as long as neither the sum nor
the product with the bonus overflows. -/
theorem decode_report_json {text : String} (loaded : ofText text = .ok scenario) (config : Config)
    (graphNodes : Option UInt64) (fullyProcessed : Bool) :
    decode (scenario.evaluate config graphNodes fullyProcessed).json =
        .ok (⟨(scenario.evaluate config graphNodes fullyProcessed).entries.map fun entry =>
          entry.decision.boundedPart⟩ : Report.Listing) ∧
      ∀ (index : ℕ) (candidate : Invocation) (entry : Report.Entry),
        scenario.candidates[index]? = some candidate →
        (scenario.evaluate config graphNodes fullyProcessed).entries[index]? = some entry →
        (entry.decision.boundedPart = entry.decision ↔
          (entry.decision.reason = .invokeProbabilityTooHigh →
            (Binary64.sum candidate.callee.nestedInvokes).isFinite = true) ∧
          (entry.decision.reason = .relevanceBased →
            (scenario.policy.maximumNodes config candidate).isFinite = true)) ∧
        ((Binary64.sum candidate.callee.nestedInvokes).isFinite = true →
          (config.maximumInliningSize.toFloat *
            scenario.policy.scorer.bonus candidate.callee).isFinite = true →
          entry.decision.boundedPart = entry.decision) := by
  obtain ⟨decoded, valid⟩ := ofText_eq_ok_iff.1 loaded
  obtain ⟨finite, -⟩ := decodes.decode decoded
  obtain ⟨relevances, hints⟩ := sound_of_validate valid
  rw [policy_eq_listedPolicy]
  refine ⟨?_, fun index candidate entry candidate_at entry_at => ?_⟩
  · rw [decode_json]
    congr 2
    refine List.map_congr_left fun entry mem => ?_
    rcases entries_evaluate config graphNodes fullyProcessed with stopped | continued
    · rw [stopped] at mem
      cases mem
    · rw [continued] at mem
      obtain ⟨candidate, candidate_mem, rfl⟩ := List.mem_map.1 mem
      have numbers := finite.candidates candidate candidate_mem
      exact finitePart_evaluate fullyProcessed numbers.relevance numbers.probability
        (bonus_listedPolicy (P := fun x => x.isFinite = true) rfl finite.hints candidate)
  · obtain rfl := entry_of_getElem? candidate_at entry_at
    have mem := List.mem_of_getElem? candidate_at
    have exactly := boundedPart_evaluate_eq_iff scenario.listedPolicy config candidate
      fullyProcessed
    refine ⟨exactly, fun sum product => exactly.2 ⟨fun _ => sum, fun _ => ?_⟩⟩
    have positive := bonus_listedPolicy (P := fun x => 0.0 < x) (by decide) hints candidate
    have nonneg := zero_le_iff.2 ⟨isNaN_eq_false_of_isFinite product,
      units_mul_nonneg (units_toFloat_nonneg _) (zero_lt_iff.1 positive).2.le⟩
    exact isFinite_mul_lesser nonneg product (relevances candidate mem)

/-- A call of a method with calls of the given probabilities in it. -/
def nesting (site : UInt64) (nestedInvokes : List Float) : Invocation where
  callee :=
    { name := "Parser.parse"
      callSite := ⟨site⟩
      nodeCount := 50
      targets := [{ method := "Parser.parse", nestedInvokes }] }
  probability := 1.0
  relevance := 1.0

theorem finite_nesting (site : UInt64) {nestedInvokes : List Float}
    (finite : ∀ x ∈ nestedInvokes, x.isFinite = true) : (nesting site nestedInvokes).Finite := by
  have certain : (1.0 : Float).isFinite = true := by decide
  exact ⟨List.forall_mem_singleton.2 finite, certain, certain⟩

/-- The largest number. -/
def largest : Float := Float.ofBits 0x7fefffffffffffff

/-- A bonus with which the bound on the size overflows, a sum of probabilities that overflows, and
one that does not. -/
def overflowing : Scenario where
  hints := [⟨⟨1⟩, largest⟩]
  candidates := [nesting 1 [], nesting 2 [largest, largest], nesting 3 [3.0, 2.5]]

theorem ofText_overflowing : ofText (toJson overflowing).compact = .ok overflowing := by
  have finite : overflowing.Finite :=
    { hints := by decide
      candidates := List.forall_mem_cons.2
        ⟨finite_nesting 1 (by decide), List.forall_mem_cons.2
          ⟨finite_nesting 2 (by decide), List.forall_mem_singleton.2
            (finite_nesting 3 (by decide))⟩⟩ }
  exact ofText_compact finite (by unfold HasTargets; decide) (by decide)

/-- A bound and a sum that are infinite are not read back, although the scenario is valid and the
limit on the sum is finite. -/
theorem decode_report_json_ne :
    ofText (toJson overflowing).compact = .ok overflowing ∧
      ({ trivialInliningSize := 0 } : Config).limitInlinedInvokes.isFinite = true ∧
      decode (overflowing.evaluate { trivialInliningSize := 0 } none true).json ≠
        .ok (⟨(overflowing.evaluate { trivialInliningSize := 0 } none true).entries.map
          Report.Entry.decision⟩ : Report.Listing) := by
  refine ⟨ofText_overflowing, by decide, fun same => ?_⟩
  have gate : ({ trivialInliningSize := 0 } : Config).checkBudget
      (overflowing.graphSize none) = none := by decide
  rw [decode_json, evaluate_of_continued true gate] at same
  have decisions := Report.Listing.mk.inj (Except.ok.inj same)
  revert decisions
  decide

/-- The sum that does not overflow is read back, beside the numbers that are lost. -/
theorem decode_report_json_overflowing :
    ofText (toJson overflowing).compact = .ok overflowing ∧
      decode (overflowing.evaluate { trivialInliningSize := 0 } none true).json =
        .ok (⟨(overflowing.evaluate { trivialInliningSize := 0 } none true).entries.map
          fun entry => entry.decision.boundedPart⟩ : Report.Listing) ∧
      ∀ entry, (overflowing.evaluate { trivialInliningSize := 0 } none true).entries[2]? =
          some entry →
        entry.decision.boundedPart = entry.decision := by
  obtain ⟨listed, each⟩ :=
    decode_report_json ofText_overflowing { trivialInliningSize := 0 } none true
  refine ⟨ofText_overflowing, listed, fun entry entry_at => ?_⟩
  have bonus : overflowing.policy.scorer.bonus (nesting 3 [3.0, 2.5]).callee = 1.0 := by
    rw [policy_eq_listedPolicy]
    rfl
  refine (each 2 (nesting 3 [3.0, 2.5]) entry rfl entry_at).2 (by decide) ?_
  rw [bonus]
  decide

end Scenario

end InlinePolicy
