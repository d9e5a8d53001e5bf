import InlinePolicy.Proofs.Policy.Monotone
import InlinePolicy.Proofs.Scenario.Policy

/-!
# Sizes of accepted calls

The last rule scales its bound by the relevance of a call, which may be any float.  If the scorer
caps relevances at 1 or less, the scaled bound is no number, or below the one it is made from
(`le_of_le_mul_lesser`).  So whatever the rules about sizes accept is small, and its previous
compilation was small too (`small_of_accepted`).
-/

namespace InlinePolicy

open Binary64

/-- The reasons of the rules that do not look at sizes. -/
def Reason.IsExemption (reason : Reason) : Prop :=
  reason = .inlineEverything ∨ reason = .intrinsic ∨ reason = .forcedInlining

instance (reason : Reason) : Decidable reason.IsExemption :=
  inferInstanceAs (Decidable (_ ∨ _ ∨ _))

namespace Policy

/-- The callee of a call is trivial or within the size bound that does not depend on the relevance,
and so is its previous compilation, if there is one and a limit on it. -/
structure Small (policy : Policy) (config : Config) (invocation : Invocation) : Prop where
  size :
    invocation.callee.nodeCount.toFloat <
        config.trivialInliningSize.toFloat * policy.bonus invocation ∨
      invocation.callee.nodeCount.toFloat ≤
        trunc (config.maximumInliningSize.toFloat * policy.bonus invocation)
  previousSize : 0 < config.smallCompiledSize →
    ∀ size, policy.scorer.previousSize invocation.callee = some size →
      size.toFloat ≤ ofSignedWord config.smallCompiledSize * policy.bonus invocation

variable {policy : Policy} {config : Config} {invocation : Invocation} {fullyProcessed : Bool}

/-- A limit on previous compilations stays a number when a positive bonus scales it, even an
infinite one. -/
theorem isNaN_limit_mul (limited : 0 < config.smallCompiledSize)
    (pos : 0.0 < policy.bonus invocation) :
    (ofSignedWord config.smallCompiledSize * policy.bonus invocation).isNaN = false := by
  obtain ⟨number, bonus_pos⟩ := zero_lt_iff.1 pos
  exact isNaN_mul_eq_false_iff.2 ⟨isNaN_ofSignedWord _, number, .inr bonus_pos.ne',
    .inr (units_ofSignedWord_pos limited).ne'⟩

/-- Where the rule about previous compilations does not apply, there is none above the limit. -/
theorem previousSize_le (pos : 0.0 < policy.bonus invocation)
    (small : ¬ policy.Applies config invocation fullyProcessed .tooLargePreviousGraph)
    (limited : 0 < config.smallCompiledSize) {size : UInt64}
    (known : policy.scorer.previousSize invocation.callee = some size) :
    size.toFloat ≤ ofSignedWord config.smallCompiledSize * policy.bonus invocation := by
  refine le_of_not_lt (isNaN_limit_mul limited pos) (isNaN_toFloat size) fun exceeds => ?_
  exact small ⟨limited, size, known, exceeds⟩

/-- A trivial callee is rejected for its previous compilation or not at all. -/
theorem reason_of_rejected_trivial
    (little : policy.Applies config invocation fullyProcessed .trivialSize)
    (rejected : (policy.evaluate config invocation fullyProcessed).accepted = false) :
    (policy.evaluate config invocation fullyProcessed).reason = .tooLargePreviousGraph := by
  obtain ⟨reason, applies, first⟩ := @exists_settles policy config invocation fullyProcessed
  rw [evaluate_of_settles ⟨applies, first⟩] at rejected ⊢
  cases reason with
  | maximumDesiredSize => exact applies.elim
  | inlineEverything | intrinsic | forcedInlining | trivialSize => cases rejected
  | tooLargePreviousGraph => rfl
  | invokeProbabilityTooHigh | relevanceBased =>
    exact absurd little (first .trivialSize (by decide))

end Policy

/-- A bound that is scaled by a relevance capped at 1 or less is no number, or no larger than it
was, be it infinite. -/
theorem le_of_le_mul_lesser {size base relevance cap : Float} (base_nonneg : 0 ≤ units base)
    (capped : cap ≤ 1.0) (within : size ≤ base * lesser relevance cap) : size ≤ base := by
  obtain ⟨size_number, number, le⟩ := le_iff.1 within
  have factor := le_trans_le (lesser_le_right relevance (le_iff.1 capped).1) capped
  have factor_le := (le_iff.1 factor).2.2
  rw [units_one] at factor_le
  have base_number := (isNaN_mul_eq_false_iff.1 number).1
  exact le_iff.2 ⟨size_number, base_number, le.trans (units_mul_le number base_nonneg factor_le)⟩

/-- What is accepted and not exempt is small, whatever its relevance is; and a trivial callee is
rejected only for its previous compilation. -/
theorem small_of_accepted {config : Config} {scorer : ProfileScorer} {query : Query}
    (capped : scorer.relevanceCap ≤ 1.0)
    (hints : ∀ site bonus, scorer.hint? site = some bonus → 0.0 < bonus) :
    ((query.decision config scorer).accepted = true →
        ¬ (query.decision config scorer).reason.IsExemption →
        (Policy.ofProfile scorer query.intrinsics).Small config query.invocation) ∧
      (query.callee.nodeCount.toFloat < config.trivialInliningSize.toFloat *
          (Policy.ofProfile scorer query.intrinsics).bonus query.invocation →
        (query.decision config scorer).accepted = false →
        (query.decision config scorer).reason = .tooLargePreviousGraph) := by
  refine ⟨fun accepted regular => ?_, Policy.reason_of_rejected_trivial⟩
  have pos : 0.0 < (Policy.ofProfile scorer query.intrinsics).bonus query.invocation :=
    bonus_pos hints
  obtain ⟨reason, applies, first⟩ := @Policy.exists_settles
    (.ofProfile scorer query.intrinsics) config query.invocation query.fullyProcessed
  rw [Query.decision, Policy.evaluate_of_settles ⟨applies, first⟩] at accepted regular
  cases reason with
  | maximumDesiredSize => exact applies.elim
  | inlineEverything => exact absurd (.inl rfl) regular
  | intrinsic => exact absurd (.inr (.inl rfl)) regular
  | forcedInlining => exact absurd (.inr (.inr rfl)) regular
  | tooLargePreviousGraph | invokeProbabilityTooHigh => cases accepted
  | trivialSize =>
    have small := first .tooLargePreviousGraph (by decide)
    exact ⟨.inl applies, fun limited size => Policy.previousSize_le pos small limited⟩
  | relevanceBased =>
    have small := first .tooLargePreviousGraph (by decide)
    have within := of_decide_eq_true accepted
    exact ⟨.inr (le_of_le_mul_lesser (units_base_nonneg _ pos) capped within),
      fun limited size => Policy.previousSize_le pos small limited⟩

/-- A query about a trivial method with a large compilation, whose relevance is no number. -/
def Query.recompiled : Query where
  intrinsics := {}
  invocation :=
    { callee :=
        { name := "A.m", callSite := ⟨7⟩, nodeCount := 5
          targets := [{ method := "A.m", compiledSize := some 700 }] }
      probability := 1.0
      relevance := 0.0 / 0.0 }
  fullyProcessed := true

/-- A query about a call of infinite relevance. -/
def Query.hottest : Query := .plain 600 (1.0 / 0.0) true

/-- A scorer that doubles all bounds at one call site. -/
def ProfileScorer.doubling : ProfileScorer := .ofHints [(⟨7⟩, 2.0)] 1.0

/-- If the bounds are doubled, a call of infinite relevance is accepted if its callee has exactly
600 nodes, and a trivial callee is rejected if its compilation has more. -/
theorem small_of_accepted_hinted :
    ProfileScorer.doubling.relevanceCap ≤ 1.0 ∧
    (∀ site bonus, ProfileScorer.doubling.hint? site = some bonus → 0.0 < bonus) ∧
    (Query.hottest.decision {} .doubling).accepted = true ∧
    ¬ (Query.hottest.decision {} .doubling).reason.IsExemption ∧
    (Policy.ofProfile .doubling {}).Small {} Query.hottest.invocation ∧
    (Query.recompiled.decision {} .doubling).accepted = false ∧
    (Query.recompiled.decision {} .doubling).reason = .tooLargePreviousGraph := by
  have capped : ProfileScorer.doubling.relevanceCap ≤ 1.0 := by decide
  have hints (site : CallSite) (bonus : Float)
      (known : ProfileScorer.doubling.hint? site = some bonus) : 0.0 < bonus :=
    ProfileScorer.forall_hint_ofHints (by decide) known
  have accepted : (Query.hottest.decision {} .doubling).accepted = true := by decide
  have regular : ¬ (Query.hottest.decision {} .doubling).reason.IsExemption := by decide
  have rejected : (Query.recompiled.decision {} .doubling).accepted = false := by decide
  exact ⟨capped, hints, accepted, regular, (small_of_accepted capped hints).1 accepted regular,
    rejected, (small_of_accepted capped hints).2 (by decide) rejected⟩

end InlinePolicy
