import InlinePolicy.Proofs.Binary64.Whole
import InlinePolicy.Proofs.Policy.Monotone
import InlinePolicy.Proofs.Scenario.Policy
import InlinePolicy.Proofs.Scorer.PreviousSize

/-!
# Decisions on whole numbers

If the bonus is a whole number and no size or bound is above `2 ^ 53`, the rules about sizes compare
natural numbers: each threshold is the configured one times the bonus (`Config.sizeBounds`), and the
decision is the one that these bounds say (`SizeBounds.outcome`, `evaluate_exact`).  A bonus that is
twice as large makes all bounds twice as large.
-/

namespace InlinePolicy

open Binary64

/-! ## Bounds as natural numbers -/

/-- The bounds on sizes that a configuration and a bonus make. -/
structure SizeBounds where
  /-- The largest previous compilation, if there is a limit on it. -/
  previous : Option ℕ
  /-- Callees below this size are trivial. -/
  trivialSize : ℕ
  /-- The largest callee that is not trivial. -/
  maximum : ℕ
deriving DecidableEq

/-- The thresholds of a configuration, multiplied by a whole bonus. -/
def Config.sizeBounds (config : Config) (bonus : ℕ) : SizeBounds where
  previous :=
    if 0 < config.smallCompiledSize then some (config.smallCompiledSize.toInt.toNat * bonus)
    else none
  trivialSize := config.trivialInliningSize.toNat * bonus
  maximum := config.maximumInliningSize.toNat * bonus

namespace SizeBounds

/-- Bounds that are twice as large. -/
def double (bounds : SizeBounds) : SizeBounds where
  previous := bounds.previous.map (2 * ·)
  trivialSize := 2 * bounds.trivialSize
  maximum := 2 * bounds.maximum

/-- Whether a previous compilation is known and above the limit. -/
def isExceededBy (bounds : SizeBounds) (previous : Option ℕ) : Bool :=
  bounds.previous.any fun limit => previous.any fun size => limit < size

/-- The rule that bounds make apply to a callee of the given size, and whether it accepts. -/
def outcome (bounds : SizeBounds) (previous : Option ℕ) (nodes : ℕ) : Reason × Bool :=
  if bounds.isExceededBy previous then (.tooLargePreviousGraph, false)
  else if nodes < bounds.trivialSize then (.trivialSize, true)
  else (.relevanceBased, nodes ≤ bounds.maximum)

end SizeBounds

/-- A bonus scales each bound alike. -/
theorem Config.sizeBounds_two_mul (config : Config) (bonus : ℕ) :
    config.sizeBounds (2 * bonus) = (config.sizeBounds bonus).double := by
  unfold sizeBounds SizeBounds.double
  simp only [mul_left_comm _ 2, SizeBounds.mk.injEq, and_true]
  split_ifs <;> rfl

/-! ## Queries on whole numbers -/

/-- The reason of a decision, and whether it accepts. -/
def Decision.outcome (decision : Decision) : Reason × Bool := (decision.reason, decision.accepted)

/-- A query that the rules about sizes settle, with a whole bonus and with sizes and bounds up to
`2 ^ 53`. -/
structure Query.Exact (query : Query) (config : Config) (scorer : ProfileScorer) (factor : ℕ) :
    Prop where
  inlineEverything : config.inlineEverything = false
  intrinsic : query.intrinsics.isIntrinsic query.callee = false
  forceInline : query.callee.forceInline = false
  invokes : query.fullyProcessed = false ∨ ¬ 0.0 < config.limitInlinedInvokes
  relevance : 1.0 ≤ query.invocation.relevance
  relevanceCap : scorer.relevanceCap = 1.0
  bonus : IsWhole (scorer.toScorer.bonus query.callee) factor
  factor_pos : 1 ≤ factor
  nodes : query.callee.nodeCount.toNat ≤ 2 ^ 53
  compiled : query.callee.compiledSizes.sum ≤ 2 ^ 53
  previous : ∀ limit ∈ (config.sizeBounds factor).previous, limit ≤ 2 ^ 53
  trivialSize : (config.sizeBounds factor).trivialSize ≤ 2 ^ 53
  maximum : (config.sizeBounds factor).maximum ≤ 2 ^ 53

namespace Query.Exact

variable {query : Query} {config : Config} {scorer : ProfileScorer} {factor : ℕ}

/-- A threshold is no larger than its product with the bonus, so it is exact if that is. -/
theorem isWhole_toFloat_mul (exact : query.Exact config scorer factor) {n : UInt64}
    (small : n.toNat * factor ≤ 2 ^ 53) :
    IsWhole (n.toFloat * scorer.toScorer.bonus query.callee) (n.toNat * factor) := by
  have le := Nat.le_mul_of_pos_right n.toNat exact.factor_pos
  exact (isWhole_toFloat (le.trans small)).mul exact.bonus small

theorem isWhole_limit (exact : query.Exact config scorer factor)
    (limited : 0 < config.smallCompiledSize) :
    IsWhole (ofSignedWord config.smallCompiledSize * scorer.toScorer.bonus query.callee)
      (config.smallCompiledSize.toInt.toNat * factor) := by
  have small := exact.previous _ (if_pos limited)
  have le := Nat.le_mul_of_pos_right config.smallCompiledSize.toInt.toNat exact.factor_pos
  have value : config.smallCompiledSize.toInt = config.smallCompiledSize.toInt.toNat := by
    have : 0 < config.smallCompiledSize.toInt := Int64.lt_iff_toInt_lt.1 limited
    omega
  exact (isWhole_ofSignedWord value (le.trans small)).mul exact.bonus small

/-- A relevance of 1 or more counts as 1, and so does an infinite one. -/
theorem isWhole_sizeBound (exact : query.Exact config scorer factor) :
    IsWhole ((Policy.ofProfile scorer query.intrinsics).sizeBound config query.invocation)
      (config.sizeBounds factor).maximum := by
  have factor : lesser query.invocation.relevance scorer.relevanceCap = 1.0 := by
    obtain ⟨-, -, le⟩ := le_iff.1 exact.relevance
    rw [exact.relevanceCap]
    exact lesser_of_not_lt rfl fun lt => by
      obtain ⟨-, -, lt⟩ := lt_iff.1 lt
      omega
  have base := (exact.isWhole_toFloat_mul exact.maximum).trunc
  have product := base.mul isWhole_one ((mul_one _).trans_le exact.maximum)
  rw [mul_one, ← factor] at product
  exact product

/-! ## The rules about sizes -/

theorem previousSize_iff (exact : query.Exact config scorer factor) :
    (Policy.ofProfile scorer query.intrinsics).Applies config query.invocation
        query.fullyProcessed .tooLargePreviousGraph ↔
      (config.sizeBounds factor).isExceededBy query.callee.compiledTotal? = true := by
  have fits : query.callee.compiledSizes.sum < UInt64.size :=
    exact.compiled.trans_lt (by decide)
  have total := ProfileScorer.map_toNat_previousSize fits
  have known (size : UInt64) (h : ProfileScorer.previousSize query.callee = some size) :
      IsWhole size.toFloat size.toNat := by
    refine isWhole_toFloat ?_
    rw [h, Option.map_some, Callee.compiledTotal?] at total
    split_ifs at total
    rw [Option.some.inj total]
    exact exact.compiled
  rw [← total]
  by_cases limited : 0 < config.smallCompiledSize
  · have limit := exact.isWhole_limit limited
    change (0 < config.smallCompiledSize ∧ ∃ size,
      ProfileScorer.previousSize query.callee = some size ∧
        ofSignedWord config.smallCompiledSize * scorer.toScorer.bonus query.callee <
          size.toFloat) ↔ _
    simp only [SizeBounds.isExceededBy, Config.sizeBounds, limited, if_true, true_and]
    cases h : ProfileScorer.previousSize query.callee with
    | none => simp
    | some size =>
      simpa using limit.lt_iff (known size h)
  · refine iff_of_false (fun applies => limited applies.1) ?_
    simp [SizeBounds.isExceededBy, Config.sizeBounds, limited]

theorem trivialSize_iff (exact : query.Exact config scorer factor) :
    (Policy.ofProfile scorer query.intrinsics).Applies config query.invocation
        query.fullyProcessed .trivialSize ↔
      query.callee.nodeCount.toNat < (config.sizeBounds factor).trivialSize :=
  (isWhole_toFloat exact.nodes).lt_iff (exact.isWhole_toFloat_mul exact.trivialSize)

theorem maximum_iff (exact : query.Exact config scorer factor) :
    query.callee.nodeCount.toFloat ≤
        (Policy.ofProfile scorer query.intrinsics).sizeBound config query.invocation ↔
      query.callee.nodeCount.toNat ≤ (config.sizeBounds factor).maximum :=
  (isWhole_toFloat exact.nodes).le_iff exact.isWhole_sizeBound

/-- No other rule settles the query, so the decision is that of the bounds. -/
theorem outcome_decision (exact : query.Exact config scorer factor) :
    (query.decision config scorer).outcome =
      (config.sizeBounds factor).outcome query.callee.compiledTotal?
        query.callee.nodeCount.toNat := by
  obtain ⟨reason, applies, first⟩ := @Policy.exists_settles
    (.ofProfile scorer query.intrinsics) config query.invocation query.fullyProcessed
  rw [Query.decision, Policy.evaluate_of_settles ⟨applies, first⟩]
  cases reason with
  | maximumDesiredSize => exact applies.elim
  | inlineEverything => exact absurd applies (by simp [Policy.Applies, exact.inlineEverything])
  | intrinsic => exact absurd applies (Bool.eq_false_iff.1 exact.intrinsic)
  | forcedInlining => exact absurd applies (Bool.eq_false_iff.1 exact.forceInline)
  | tooLargePreviousGraph =>
    rw [SizeBounds.outcome, if_pos (exact.previousSize_iff.1 applies)]
    rfl
  | trivialSize =>
    have small := mt exact.previousSize_iff.2 (first .tooLargePreviousGraph (by decide))
    rw [SizeBounds.outcome, if_neg small, if_pos (exact.trivialSize_iff.1 applies)]
    rfl
  | invokeProbabilityTooHigh =>
    obtain ⟨processed, limited, -⟩ := applies
    rcases exact.invokes with unprocessed | unlimited
    · rw [processed] at unprocessed
      cases unprocessed
    · exact absurd limited unlimited
  | relevanceBased =>
    have small := mt exact.previousSize_iff.2 (first .tooLargePreviousGraph (by decide))
    have proper := mt exact.trivialSize_iff.2 (first .trivialSize (by decide))
    rw [SizeBounds.outcome, if_neg small, if_neg proper]
    exact Prod.ext rfl (decide_eq_decide.2 exact.maximum_iff)

end Query.Exact

/-- On whole numbers up to `2 ^ 53` the decision is the one that exact bounds say, and a bonus that
is twice as large makes the bounds exactly twice as large. -/
theorem evaluate_exact {query : Query} {config : Config} {scorer : ProfileScorer} {factor : ℕ}
    (exact : query.Exact config scorer factor) :
    (query.decision config scorer).outcome =
        (config.sizeBounds factor).outcome query.callee.compiledTotal?
          query.callee.nodeCount.toNat ∧
      ∀ scorer' : ProfileScorer, query.Exact config scorer' (2 * factor) →
        (query.decision config scorer').outcome =
          (config.sizeBounds factor).double.outcome query.callee.compiledTotal?
            query.callee.nodeCount.toNat := by
  refine ⟨exact.outcome_decision, fun scorer' exact' => ?_⟩
  rw [exact'.outcome_decision, config.sizeBounds_two_mul]

/-- A query about a call of infinite relevance, to two targets that were compiled before. -/
def Query.evenlySplit : Query where
  intrinsics := {}
  invocation :=
    { callee :=
        { name := "A.m", callSite := ⟨7⟩, nodeCount := 20
          targets :=
            [{ method := "A.m", compiledSize := some 300 },
              { method := "B.m", compiledSize := some 300 }] }
      probability := 1.0
      relevance := 1.0 / 0.0 }
  fullyProcessed := false

/-- A scorer with a whole bonus at one call site. -/
def ProfileScorer.hinting (bonus : UInt64) : ProfileScorer :=
  .ofHints [(⟨7⟩, bonus.toFloat)] 1.0

/-- With a bonus of 2 the callee is exactly as large as both bounds: not trivial, and not too large
before.  With a bonus of 4 it is trivial. -/
theorem evaluate_exact_evenlySplit :
    Query.evenlySplit.Exact {} (.hinting 2) 2 ∧
    (Query.evenlySplit.decision {} (.hinting 2)).outcome = (.relevanceBased, true) ∧
    Query.evenlySplit.Exact {} (.hinting 4) (2 * 2) ∧
    (Query.evenlySplit.decision {} (.hinting 4)).outcome = (.trivialSize, true) := by
  have two : Query.evenlySplit.Exact {} (.hinting 2) 2 :=
    ⟨rfl, by decide, rfl, .inl rfl, by decide, rfl, isWhole_toFloat (n := 2) (by decide),
      by decide, by decide, by decide, by decide, by decide, by decide⟩
  have four : Query.evenlySplit.Exact {} (.hinting 4) (2 * 2) :=
    ⟨rfl, by decide, rfl, .inl rfl, by decide, rfl, isWhole_toFloat (n := 4) (by decide),
      by decide, by decide, by decide, by decide, by decide, by decide⟩
  obtain ⟨doubled, more⟩ := evaluate_exact two
  exact ⟨two, doubled.trans (by decide), four, (more _ four).trans (by decide)⟩

end InlinePolicy
