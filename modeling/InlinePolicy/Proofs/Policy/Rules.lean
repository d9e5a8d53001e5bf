import Mathlib.Order.WellFounded
import InlinePolicy.Policy

/-!
# The first rule that applies

`Applies` says when each rule has an opinion, whatever the rules before it say, and `Settles` adds
that none of those has one.  Exactly one rule settles a query (`exists_settles`,
`eq_of_settles`), and the decision is the verdict of that rule (`evaluate_of_settles`): its reason,
whether it accepts, and the numbers that it looked at.
-/

namespace InlinePolicy.Policy

variable (policy : Policy) (config : Config) (invocation : Invocation) (fullyProcessed : Bool)

/-- The bonus of the callee of a call. -/
def bonus : Float := policy.scorer.bonus invocation.callee

/-- What makes a rule apply.  The budget of the unit is no rule about calls, and the last rule
always applies. -/
def Applies : Reason → Prop
  | .maximumDesiredSize => False
  | .inlineEverything => config.inlineEverything = true
  | .intrinsic => policy.isIntrinsic invocation.callee = true
  | .forcedInlining => invocation.callee.forceInline = true
  | .tooLargePreviousGraph =>
    0 < config.smallCompiledSize ∧
      ∃ size, policy.scorer.previousSize invocation.callee = some size ∧
        Binary64.ofSignedWord config.smallCompiledSize * policy.bonus invocation < size.toFloat
  | .trivialSize =>
    invocation.callee.nodeCount.toFloat <
      config.trivialInliningSize.toFloat * policy.bonus invocation
  | .invokeProbabilityTooHigh =>
    fullyProcessed = true ∧ 0.0 < config.limitInlinedInvokes ∧
      config.limitInlinedInvokes * policy.bonus invocation <
        policy.scorer.invokeProbability invocation.callee
  | .relevanceBased => True

/-- A rule applies and none before it does. -/
def Settles (reason : Reason) : Prop :=
  policy.Applies config invocation fullyProcessed reason ∧
    ∀ earlier : Reason, earlier.rank < reason.rank →
      ¬ policy.Applies config invocation fullyProcessed earlier

/-- The bound of the last rule, which asks the scorer with a whole number of nodes. -/
def sizeBound : Float :=
  policy.scorer.maximumSize invocation.relevance
    (Binary64.trunc (config.maximumInliningSize.toFloat * policy.bonus invocation))

/-- Whether a rule that settles a query accepts the call. -/
def accepts : Reason → Bool
  | .inlineEverything | .intrinsic | .forcedInlining | .trivialSize => true
  | .maximumDesiredSize | .tooLargePreviousGraph | .invokeProbabilityTooHigh => false
  | .relevanceBased => invocation.callee.nodeCount.toFloat ≤ policy.sizeBound config invocation

/-- The numbers that a rule looked at; the first three rules look at none. -/
def evidence : Reason → Context
  | .maximumDesiredSize | .inlineEverything | .intrinsic | .forcedInlining => {}
  | .tooLargePreviousGraph =>
    { policy.context invocation with
      previousSize := policy.scorer.previousSize invocation.callee }
  | .trivialSize => policy.context invocation
  | .invokeProbabilityTooHigh =>
    { policy.context invocation with
      invokeProbability := some (policy.scorer.invokeProbability invocation.callee) }
  | .relevanceBased =>
    { policy.context invocation with
      maximumNodes := some (policy.sizeBound config invocation) }

/-- The decision of a rule that settles a query. -/
def verdict (reason : Reason) : Decision where
  accepted := policy.accepts config invocation reason
  reason := reason
  context := policy.evidence config invocation reason

variable {policy config invocation fullyProcessed}

/-! ## One rule settles a query -/

theorem exists_settles : ∃ reason, policy.Settles config invocation fullyProcessed reason := by
  obtain ⟨reason, applies, least⟩ := (measure Reason.rank).wf.has_min
    {reason | policy.Applies config invocation fullyProcessed reason} ⟨.relevanceBased, trivial⟩
  exact ⟨reason, applies, fun earlier lt applies' => least earlier applies' lt⟩

theorem eq_of_settles {reason reason' : Reason}
    (h : policy.Settles config invocation fullyProcessed reason)
    (h' : policy.Settles config invocation fullyProcessed reason') : reason = reason' := by
  rcases lt_trichotomy reason.rank reason'.rank with lt | eq | gt
  · exact absurd h.1 (h'.2 reason lt)
  · exact Reason.rank_injective eq
  · exact absurd h'.1 (h.2 reason' gt)

/-- No rule but the last one looks at more of a call than its callee. -/
theorem applies_congr {invocation' : Invocation}
    (callee : invocation'.callee = invocation.callee) (reason : Reason) :
    policy.Applies config invocation' fullyProcessed reason ↔
      policy.Applies config invocation fullyProcessed reason := by
  cases reason <;> simp only [Applies, bonus, callee]

/-! ## The tests of the rules -/

theorem oversizedPrevious_eq_some_iff {size : UInt64} :
    policy.oversizedPrevious config invocation.callee = some size ↔
      0 < config.smallCompiledSize ∧ policy.scorer.previousSize invocation.callee = some size ∧
        Binary64.ofSignedWord config.smallCompiledSize * policy.bonus invocation <
          size.toFloat := by
  unfold oversizedPrevious Config.previousSizeLimit bonus
  by_cases limited : 0 < config.smallCompiledSize
  · cases known : policy.scorer.previousSize invocation.callee with
    | none => simp [limited]
    | some previous =>
      simp only [limited, if_true, Option.ite_none_right_eq_some, Option.some.injEq, true_and]
      constructor
      · rintro ⟨lt, rfl⟩
        exact ⟨rfl, lt⟩
      · rintro ⟨rfl, lt⟩
        exact ⟨lt, rfl⟩
  · simp [limited]

theorem oversizedPrevious_eq_none_iff :
    policy.oversizedPrevious config invocation.callee = none ↔
      ¬ policy.Applies config invocation fullyProcessed .tooLargePreviousGraph := by
  simp only [Option.eq_none_iff_forall_ne_some, ne_eq, oversizedPrevious_eq_some_iff, Applies,
    not_and, not_exists]
  exact ⟨fun h limited size => h size limited, fun h size limited => h limited size⟩

theorem isTrivial_iff :
    policy.isTrivial config invocation.callee = true ↔
      policy.Applies config invocation fullyProcessed .trivialSize :=
  decide_eq_true_iff

theorem excessiveInvokes_eq :
    policy.excessiveInvokes config invocation.callee =
      if 0.0 < config.limitInlinedInvokes ∧
          config.limitInlinedInvokes * policy.bonus invocation <
            policy.scorer.invokeProbability invocation.callee then
        some (policy.scorer.invokeProbability invocation.callee)
      else none := by
  unfold excessiveInvokes Config.invokeProbabilityLimit bonus
  by_cases limited : 0.0 < config.limitInlinedInvokes
  · simp only [limited, if_true, true_and]
  · simp only [limited, if_false, false_and]

/-! ## The decision is the verdict of that rule -/

/-- From the fourth rule on, none of the first three applies. -/
theorem not_exempt {reason : Reason}
    (first : ∀ earlier : Reason, earlier.rank < reason.rank →
      ¬ policy.Applies config invocation fullyProcessed earlier)
    (later : Reason.rank .forcedInlining < reason.rank) :
    config.inlineEverything = false ∧ policy.isIntrinsic invocation.callee = false ∧
      invocation.callee.forceInline = false := by
  refine ⟨?_, ?_, ?_⟩
  · exact Bool.eq_false_of_not_eq_true (first .inlineEverything (lt_trans (by decide) later))
  · exact Bool.eq_false_of_not_eq_true (first .intrinsic (lt_trans (by decide) later))
  · exact Bool.eq_false_of_not_eq_true (first .forcedInlining later)

theorem evaluate_of_settles {reason : Reason}
    (h : policy.Settles config invocation fullyProcessed reason) :
    policy.evaluate config invocation fullyProcessed =
      policy.verdict config invocation reason := by
  obtain ⟨applies, first⟩ := h
  cases reason with
  | maximumDesiredSize => exact applies.elim
  | inlineEverything => exact if_pos applies
  | intrinsic =>
    have everything := first .inlineEverything (by decide)
    exact (if_neg everything).trans (if_pos applies)
  | forcedInlining =>
    have everything := first .inlineEverything (by decide)
    have intrinsic := first .intrinsic (by decide)
    exact (if_neg everything).trans ((if_neg intrinsic).trans (if_pos applies))
  | tooLargePreviousGraph =>
    obtain ⟨everything, intrinsic, forced⟩ := not_exempt first (by decide)
    obtain ⟨limited, size, known, exceeds⟩ := applies
    have large := oversizedPrevious_eq_some_iff.2 ⟨limited, known, exceeds⟩
    simp [evaluate, everything, intrinsic, forced, large, verdict, accepts, evidence, known]
  | trivialSize =>
    obtain ⟨everything, intrinsic, forced⟩ := not_exempt first (by decide)
    have small := oversizedPrevious_eq_none_iff.2 (first .tooLargePreviousGraph (by decide))
    have little := isTrivial_iff.2 applies
    simp [evaluate, everything, intrinsic, forced, small, little, verdict, accepts, evidence]
  | invokeProbabilityTooHigh =>
    obtain ⟨everything, intrinsic, forced⟩ := not_exempt first (by decide)
    have small := oversizedPrevious_eq_none_iff.2 (first .tooLargePreviousGraph (by decide))
    have proper := mt isTrivial_iff.1 (first .trivialSize (by decide))
    obtain ⟨processed, exceeds⟩ := applies
    have excess := excessiveInvokes_eq.trans (if_pos exceeds)
    simp [evaluate, everything, intrinsic, forced, small, proper, processed, excess, verdict,
      accepts, evidence]
  | relevanceBased =>
    obtain ⟨everything, intrinsic, forced⟩ := not_exempt first (by decide)
    have small := oversizedPrevious_eq_none_iff.2 (first .tooLargePreviousGraph (by decide))
    have proper := mt isTrivial_iff.1 (first .trivialSize (by decide))
    have few (processed : fullyProcessed = true) :
        policy.excessiveInvokes config invocation.callee = none :=
      excessiveInvokes_eq.trans <| if_neg fun exceeds =>
        first .invokeProbabilityTooHigh (by decide) ⟨processed, exceeds⟩
    have tame : (if fullyProcessed then policy.excessiveInvokes config invocation.callee
        else none) = none := ite_eq_right_iff.2 few
    simp only [evaluate, everything, intrinsic, forced, small, proper, tame, Bool.false_eq_true,
      if_false]
    rfl

/-- The reason of a decision is the rule that settles the query, and tells the rest of it. -/
theorem evaluate_certifies :
    (∀ reason, (policy.evaluate config invocation fullyProcessed).reason = reason ↔
        policy.Settles config invocation fullyProcessed reason) ∧
      (policy.evaluate config invocation fullyProcessed).accepted =
        policy.accepts config invocation
          (policy.evaluate config invocation fullyProcessed).reason ∧
      (policy.evaluate config invocation fullyProcessed).context =
        policy.evidence config invocation
          (policy.evaluate config invocation fullyProcessed).reason ∧
      (policy.evaluate config invocation fullyProcessed).reason ≠ .maximumDesiredSize := by
  obtain ⟨reason, settles⟩ := @exists_settles policy config invocation fullyProcessed
  rw [evaluate_of_settles settles]
  refine ⟨fun other => ⟨?_, ?_⟩, rfl, rfl, ?_⟩
  · rintro rfl
    exact settles
  · exact fun settles' => eq_of_settles settles settles'
  · rintro rfl
    exact settles.1

/-! ## Acceptance -/

theorem accepted_of_settles {reason : Reason}
    (h : policy.Settles config invocation fullyProcessed reason) :
    (policy.evaluate config invocation fullyProcessed).accepted =
      policy.accepts config invocation reason := by
  rw [evaluate_of_settles h]
  rfl

/-- An exempt call is accepted; any other one must pass two tests, and the second of them only if
it is not trivial. -/
theorem accepted_iff :
    (policy.evaluate config invocation fullyProcessed).accepted = true ↔
      policy.Applies config invocation fullyProcessed .inlineEverything ∨
      policy.Applies config invocation fullyProcessed .intrinsic ∨
      policy.Applies config invocation fullyProcessed .forcedInlining ∨
      ¬ policy.Applies config invocation fullyProcessed .tooLargePreviousGraph ∧
        (policy.Applies config invocation fullyProcessed .trivialSize ∨
          ¬ policy.Applies config invocation fullyProcessed .invokeProbabilityTooHigh ∧
            invocation.callee.nodeCount.toFloat ≤ policy.sizeBound config invocation) := by
  obtain ⟨reason, applies, first⟩ := @exists_settles policy config invocation fullyProcessed
  rw [accepted_of_settles ⟨applies, first⟩]
  cases reason with
  | maximumDesiredSize => exact applies.elim
  | inlineEverything => exact iff_of_true rfl (.inl applies)
  | intrinsic => exact iff_of_true rfl (.inr (.inl applies))
  | forcedInlining => exact iff_of_true rfl (.inr (.inr (.inl applies)))
  | tooLargePreviousGraph =>
    refine iff_of_false Bool.false_ne_true ?_
    rintro (everything | intrinsic | forced | ⟨small, -⟩)
    · exact first .inlineEverything (by decide) everything
    · exact first .intrinsic (by decide) intrinsic
    · exact first .forcedInlining (by decide) forced
    · exact small applies
  | trivialSize =>
    have small := first .tooLargePreviousGraph (by decide)
    exact iff_of_true rfl (.inr (.inr (.inr ⟨small, .inl applies⟩)))
  | invokeProbabilityTooHigh =>
    refine iff_of_false Bool.false_ne_true ?_
    rintro (everything | intrinsic | forced | ⟨-, trivially | ⟨few, -⟩⟩)
    · exact first .inlineEverything (by decide) everything
    · exact first .intrinsic (by decide) intrinsic
    · exact first .forcedInlining (by decide) forced
    · exact first .trivialSize (by decide) trivially
    · exact few applies
  | relevanceBased =>
    have small := first .tooLargePreviousGraph (by decide)
    have few := first .invokeProbabilityTooHigh (by decide)
    rw [accepts, decide_eq_true_iff]
    constructor
    · exact fun within => .inr (.inr (.inr ⟨small, .inr ⟨few, within⟩⟩))
    · rintro (everything | intrinsic | forced | ⟨-, trivially | ⟨-, within⟩⟩)
      · exact absurd everything (first .inlineEverything (by decide))
      · exact absurd intrinsic (first .intrinsic (by decide))
      · exact absurd forced (first .forcedInlining (by decide))
      · exact absurd trivially (first .trivialSize (by decide))
      · exact within

end InlinePolicy.Policy
