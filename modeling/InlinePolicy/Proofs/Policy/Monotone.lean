import InlinePolicy.Proofs.Binary64.Operations
import InlinePolicy.Proofs.Policy.Rules

/-!
# Acceptance is monotone

A call that is accepted stays accepted if the facts about the candidate improve
(`accepted_of_improvesOn`) and if the thresholds are relaxed (`accepted_of_relaxes`).  The rule
that settles the query may change on the way, so both statements compare the rules one by one and
join the comparisons by `accepted_iff`.
-/

namespace InlinePolicy

open Binary64

/-- What is asked about a call, besides the thresholds and the scores. -/
structure Query where
  intrinsics : Intrinsics
  invocation : Invocation
  fullyProcessed : Bool

namespace Query

/-- The callee of the call. -/
def callee (query : Query) : Callee := query.invocation.callee

/-- The decision for given thresholds and profile scores. -/
def decision (query : Query) (config : Config) (scorer : ProfileScorer) : Decision :=
  (Policy.ofProfile scorer query.intrinsics).evaluate config query.invocation query.fullyProcessed

/-- The facts about a candidate speak for inlining it at least as much as those of another query
about the same targets. -/
structure ImprovesOn (query' query : Query) : Prop where
  callSite : query'.callee.callSite = query.callee.callSite
  targets : query'.callee.targets = query.callee.targets
  finite : query'.invocation.relevance.isFinite = true
  relevance : query.invocation.relevance ≤ query'.invocation.relevance
  nodeCount : query'.callee.nodeCount ≤ query.callee.nodeCount
  fullyProcessed : query'.fullyProcessed = true → query.fullyProcessed = true
  forceInline : query.callee.forceInline = true → query'.callee.forceInline = true
  intrinsics : ∀ method, query.intrinsics.contains method = true →
    query'.intrinsics.contains method = true

end Query

/-! ## Scores from profiles -/

theorem isIntrinsic_mono {intrinsics intrinsics' : Intrinsics} {callee callee' : Callee}
    (targets : callee'.targets = callee.targets)
    (subset : ∀ method, intrinsics.contains method = true → intrinsics'.contains method = true)
    (h : intrinsics.isIntrinsic callee = true) : intrinsics'.isIntrinsic callee' = true := by
  unfold Intrinsics.isIntrinsic at h ⊢
  rw [targets]
  rw [Bool.and_eq_true, List.all_eq_true] at h ⊢
  exact ⟨h.1, fun target mem => subset _ (h.2 target mem)⟩

/-- The default bonus is 1, so all bonuses are positive if the hints are. -/
theorem bonus_pos {scorer : ProfileScorer} {intrinsics : Intrinsics} {invocation : Invocation}
    (hints : ∀ site bonus, scorer.hint? site = some bonus → 0.0 < bonus) :
    0.0 < (Policy.ofProfile scorer intrinsics).bonus invocation := by
  show 0.0 < (scorer.hint? invocation.callee.callSite).getD 1.0
  cases h : scorer.hint? invocation.callee.callSite with
  | none => decide
  | some bonus => exact hints _ _ h

section

variable {size base relevance relevance' cap : Float}

/-- An infinite bound times a negative factor would be below any size. -/
theorem units_nonneg_of_le_mul (size_nonneg : 0 ≤ units size) (base_nonneg : 0 ≤ units base)
    (infinite : base.isFinite = false) {factor : Float} (h : size ≤ base * factor) :
    0 ≤ units factor := by
  obtain ⟨-, number, le⟩ := le_iff.1 h
  by_contra negative
  have base_units := units_eq_infinity (isNaN_mul_eq_false_iff.1 number).1 infinite base_nonneg
  have product_neg := units_mul_neg_of_infinity number base_units (not_le.1 negative)
  omega

/-- The bound may be an infinity and the cap anything: where a product with the larger relevance is
no number, the one with the smaller relevance is none either, or is below any size. -/
theorem isNaN_mul_lesser (size_nonneg : 0 ≤ units size) (base_nonneg : 0 ≤ units base)
    (finite : relevance'.isFinite = true) (grows : relevance ≤ relevance')
    (h : size ≤ base * lesser relevance cap) : (base * lesser relevance' cap).isNaN = false := by
  obtain ⟨number, number', relevance_le⟩ := le_iff.1 grows
  have factor_le := units_lesser_mono cap number number' relevance_le
  obtain ⟨base_number, -, finite_or, or_finite⟩ := isNaN_mul_eq_false_iff.1 (le_iff.1 h).2.1
  refine isNaN_mul_eq_false_iff.2 ⟨base_number, isNaN_lesser number' cap, ?_, ?_⟩
  · by_cases bounded : base.isFinite = true
    · exact .inl bounded
    · have infinite := Bool.eq_false_of_not_eq_true bounded
      have factor_nonneg := units_nonneg_of_le_mul size_nonneg base_nonneg infinite h
      have factor_ne := finite_or.resolve_left bounded
      exact .inr (by omega)
  · by_cases zero : units base = 0
    · have below := (isFinite_iff.1 (or_finite.resolve_right (not_not_intro zero))).2.1
      have above := (isFinite_iff.1 finite).2.2
      have capped := units_lesser_le number' cap
      exact .inl (isFinite_iff.2 ⟨isNaN_lesser number' cap, by omega, by omega⟩)
    · exact .inr zero

/-- A bound that is scaled by a capped relevance grows with the relevance. -/
theorem le_mul_lesser (size_nonneg : 0 ≤ units size) (base_nonneg : 0 ≤ units base)
    (finite : relevance'.isFinite = true) (grows : relevance ≤ relevance')
    (h : size ≤ base * lesser relevance cap) : size ≤ base * lesser relevance' cap := by
  obtain ⟨size_number, number, le⟩ := le_iff.1 h
  obtain ⟨relevance_number, relevance_number', relevance_le⟩ := le_iff.1 grows
  have number' := isNaN_mul_lesser size_nonneg base_nonneg finite grows h
  have factor_le := units_lesser_mono cap relevance_number relevance_number' relevance_le
  refine le_iff.2 ⟨size_number, number', le.trans ?_⟩
  exact units_mul_mono number number' (mul_le_mul_of_nonneg_left factor_le base_nonneg)

end

/-- The size bound before the relevance scales it is not negative. -/
theorem units_base_nonneg (n : UInt64) {b : Float} (h : 0.0 < b) :
    0 ≤ units (trunc (n.toFloat * b)) :=
  units_trunc_nonneg (units_mul_nonneg (units_toFloat_nonneg n) (zero_lt_iff.1 h).2.le)

/-! ## The facts about the candidate -/

theorem previousSize_congr {callee callee' : Callee} (targets : callee'.targets = callee.targets) :
    ProfileScorer.previousSize callee' = ProfileScorer.previousSize callee := by
  unfold ProfileScorer.previousSize ProfileScorer.knownSizes
  rw [targets]

theorem nestedInvokes_congr {callee callee' : Callee} (targets : callee'.targets = callee.targets) :
    callee'.nestedInvokes = callee.nestedInvokes := by
  unfold Callee.nestedInvokes
  rw [targets]

/-- A call stays accepted if the facts about the candidate improve. -/
theorem accepted_of_improvesOn {config : Config} {scorer : ProfileScorer} {query query' : Query}
    (hints : ∀ site bonus, scorer.hint? site = some bonus → 0.0 < bonus)
    (improves : query'.ImprovesOn query)
    (accepted : (query.decision config scorer).accepted = true) :
    (query'.decision config scorer).accepted = true := by
  have bonus : (Policy.ofProfile scorer query'.intrinsics).bonus query'.invocation =
      (Policy.ofProfile scorer query.intrinsics).bonus query.invocation :=
    congrArg (fun site => (scorer.hint? site).getD 1.0) improves.callSite
  have sizes : scorer.toScorer.previousSize query'.callee =
      scorer.toScorer.previousSize query.callee := previousSize_congr improves.targets
  have probability : scorer.toScorer.invokeProbability query'.callee =
      scorer.toScorer.invokeProbability query.callee :=
    congrArg Binary64.sum (nestedInvokes_congr improves.targets)
  have nodes := toFloat_le_toFloat improves.nodeCount
  rw [Query.decision, Policy.accepted_iff] at accepted ⊢
  refine accepted.imp id (Or.imp ?intrinsic (Or.imp improves.forceInline
    (And.imp (mt ?previous) (Or.imp ?trivially (And.imp (mt ?invokes) ?bound)))))
  case intrinsic => exact isIntrinsic_mono improves.targets improves.intrinsics
  case previous =>
    rintro ⟨limited, size, known, exceeds⟩
    rw [bonus] at exceeds
    exact ⟨limited, size, sizes.symm.trans known, exceeds⟩
  case trivially =>
    intro little
    refine le_trans_lt nodes ?_
    rw [bonus]
    exact little
  case invokes =>
    rintro ⟨processed, limited, exceeds⟩
    refine ⟨improves.fullyProcessed processed, limited, ?_⟩
    rw [bonus] at exceeds
    exact exceeds.trans_eq probability
  case bound =>
    intro within
    refine le_trans_le nodes ?_
    rw [Policy.sizeBound, bonus]
    exact le_mul_lesser (units_toFloat_nonneg _) (units_base_nonneg _ (bonus_pos hints))
      improves.finite improves.relevance within

/-- A query about a call of one method that has not been compiled yet. -/
def Query.plain (nodes : UInt64) (relevance : Float) (fullyProcessed : Bool) : Query where
  intrinsics := {}
  invocation :=
    { callee := { name := "A.m", callSite := ⟨7⟩, nodeCount := nodes }
      probability := 1.0
      relevance := relevance }
  fullyProcessed := fullyProcessed

/-- The last rule accepts a call of 500 nodes if the bonus is 2, and the trivial size one of 15. -/
theorem accepted_plain_of_improvesOn :
    (∀ site bonus, (ProfileScorer.ofHints [(⟨7⟩, 2.0)] 1.0).hint? site = some bonus →
      0.0 < bonus) ∧
    (Query.plain 15 1.5 false).ImprovesOn (Query.plain 500 0.9 true) ∧
    ((Query.plain 500 0.9 true).decision {} (.ofHints [(⟨7⟩, 2.0)] 1.0)).accepted = true ∧
    ((Query.plain 15 1.5 false).decision {} (.ofHints [(⟨7⟩, 2.0)] 1.0)).accepted = true := by
  have hints (site : CallSite) (bonus : Float)
      (h : (ProfileScorer.ofHints [(⟨7⟩, 2.0)] 1.0).hint? site = some bonus) : 0.0 < bonus := by
    have table : (ProfileScorer.ofHints [(⟨7⟩, 2.0)] 1.0).hint? site =
        if compare 7 site.id = .eq then some 2.0 else none :=
      Std.ExtTreeMap.getElem?_insert.trans (by rw [Std.ExtTreeMap.getElem?_empty])
    rw [table, Option.ite_none_right_eq_some] at h
    rw [← Option.some.inj h.2]
    decide
  have improves : (Query.plain 15 1.5 false).ImprovesOn (Query.plain 500 0.9 true) :=
    { callSite := rfl
      targets := rfl
      finite := by decide
      relevance := by decide
      nodeCount := by decide
      fullyProcessed := by decide
      forceInline := by decide
      intrinsics := fun _ h => h }
  have accepted :
      ((Query.plain 500 0.9 true).decision {} (.ofHints [(⟨7⟩, 2.0)] 1.0)).accepted = true := by
    decide
  exact ⟨hints, improves, accepted, accepted_of_improvesOn hints improves accepted⟩

/-! ## The thresholds -/

/-- The thresholds and the bonuses of call sites. -/
structure Tuning where
  config : Config
  hints : Std.ExtTreeMap UInt64 Float

namespace Tuning

/-- The profile scores with a given relevance cap. -/
def scorer (tuning : Tuning) (cap : Float) : ProfileScorer := ⟨tuning.hints, cap⟩

/-- The bonus of a call site. -/
def bonus (tuning : Tuning) (site : CallSite) : Float := tuning.hints[site.id]?.getD 1.0

/-- The thresholds for a call site are at least as generous as others.  The limits that zero or
less switches off are the most generous when they are off. -/
structure Relaxes (tuning' tuning : Tuning) (site : CallSite) : Prop where
  pos : 0.0 < tuning.bonus site
  finite : (tuning'.bonus site).isFinite = true
  bonus : tuning.bonus site ≤ tuning'.bonus site
  trivialSize : tuning.config.trivialInliningSize ≤ tuning'.config.trivialInliningSize
  maximumSize : tuning.config.maximumInliningSize ≤ tuning'.config.maximumInliningSize
  previousSize : tuning'.config.smallCompiledSize ≤ 0 ∨
    0 < tuning.config.smallCompiledSize ∧
      tuning.config.smallCompiledSize ≤ tuning'.config.smallCompiledSize
  invokes : ¬ 0.0 < tuning'.config.limitInlinedInvokes ∨
    0.0 < tuning.config.limitInlinedInvokes ∧
      tuning.config.limitInlinedInvokes ≤ tuning'.config.limitInlinedInvokes
  inlineEverything : tuning.config.inlineEverything = true →
    tuning'.config.inlineEverything = true
  bounded : (tuning'.config.maximumInliningSize.toFloat * tuning'.bonus site).isFinite = true

end Tuning

theorem mul_bonus_le {x x' b b' : Float} (nonneg : 0.0 ≤ x) (hx : x ≤ x') (pos : 0.0 < b)
    (hb : b ≤ b') (finite : b'.isFinite = true) : x * b ≤ x' * b' := by
  obtain ⟨number, units_pos⟩ := zero_lt_iff.1 pos
  have nonneg' : 0.0 ≤ b := zero_le_iff.2 ⟨number, units_pos.le⟩
  have finite_b := isFinite_of_le nonneg' hb finite
  have units_pos' := units_pos.trans_le (le_iff.1 hb).2.2
  exact mul_le_mul_of_nonneg
    (isNaN_mul_of_isFinite (le_iff.1 hx).1 finite_b (.inr units_pos.ne'))
    (isNaN_mul_of_isFinite (le_iff.1 hx).2.1 finite (.inr units_pos'.ne')) hx hb nonneg nonneg'

theorem trunc_mul_le {x x' factor : Float} (nonneg : 0.0 ≤ x) (le : x ≤ x')
    (finite : x'.isFinite = true) (factor_nonneg : 0.0 ≤ factor)
    (factor_finite : factor.isFinite = true) : trunc x * factor ≤ trunc x' * factor := by
  have nonneg' := le_trans_le nonneg le
  have trunc_finite' := isFinite_of_le (trunc_nonneg nonneg') (trunc_le nonneg') finite
  have trunc_le := trunc_le_trunc le
  have trunc_finite := isFinite_of_le (trunc_nonneg nonneg) trunc_le trunc_finite'
  have number := isNaN_eq_false_of_isFinite factor_finite
  exact mul_le_mul_of_nonneg
    (isNaN_mul_of_isFinite (le_iff.1 trunc_le).1 factor_finite (.inl trunc_finite))
    (isNaN_mul_of_isFinite (le_iff.1 trunc_le).2.1 factor_finite (.inl trunc_finite'))
    trunc_le (le_iff.2 ⟨number, number, le_rfl⟩) (trunc_nonneg nonneg) factor_nonneg

/-- A call stays accepted if the thresholds are relaxed. -/
theorem accepted_of_relaxes {query : Query} {tuning tuning' : Tuning} {cap : Float}
    (finite : query.invocation.relevance.isFinite = true)
    (nonneg : 0.0 ≤ query.invocation.relevance) (nonneg_cap : 0.0 ≤ cap)
    (relaxes : tuning'.Relaxes tuning query.callee.callSite)
    (accepted : (query.decision tuning.config (tuning.scorer cap)).accepted = true) :
    (query.decision tuning'.config (tuning'.scorer cap)).accepted = true := by
  have scaled {x x' : Float} (hx : 0.0 ≤ x) (le : x ≤ x') :
      x * tuning.bonus query.callee.callSite ≤ x' * tuning'.bonus query.callee.callSite :=
    mul_bonus_le hx le relaxes.pos relaxes.bonus relaxes.finite
  rw [Query.decision, Policy.accepted_iff] at accepted ⊢
  refine accepted.imp relaxes.inlineEverything (Or.imp id (Or.imp id
    (And.imp (mt ?previous) (Or.imp ?trivially (And.imp (mt ?invokes) ?bound)))))
  case previous =>
    rintro ⟨limited', size, known, exceeds⟩
    rcases relaxes.previousSize with off | ⟨limited, le⟩
    · exact absurd limited' (Int64.not_lt.2 off)
    · have limit_nonneg : 0.0 ≤ ofSignedWord tuning.config.smallCompiledSize :=
        zero_le_iff.2 ⟨isNaN_ofSignedWord _, (units_ofSignedWord_pos limited).le⟩
      exact ⟨limited, size, known,
        le_trans_lt (scaled limit_nonneg (ofSignedWord_le_ofSignedWord le)) exceeds⟩
  case trivially =>
    intro little
    exact lt_trans_le little
      (scaled (toFloat_nonneg _) (toFloat_le_toFloat relaxes.trivialSize))
  case invokes =>
    rintro ⟨processed, limited', exceeds⟩
    rcases relaxes.invokes with off | ⟨limited, le⟩
    · exact absurd limited' off
    · have limit_nonneg := zero_le_iff.2 ((zero_lt_iff.1 limited).imp id le_of_lt)
      exact ⟨processed, limited, le_trans_lt (scaled limit_nonneg le) exceeds⟩
  case bound =>
    intro within
    refine le_trans_le within ?_
    have product_le :=
      scaled (toFloat_nonneg _) (toFloat_le_toFloat relaxes.maximumSize)
    have product_nonneg := zero_le_iff.2 ⟨(le_iff.1 product_le).1,
      units_mul_nonneg (units_toFloat_nonneg _) (zero_lt_iff.1 relaxes.pos).2.le⟩
    have factor_nonneg := lesser_nonneg nonneg nonneg_cap
    have factor_finite := isFinite_of_le factor_nonneg (lesser_le (le_iff.1 nonneg).2.1 cap) finite
    exact trunc_mul_le product_nonneg product_le relaxes.bounded factor_nonneg factor_finite

/-- Thresholds with a bonus for the call of a plain query. -/
def Tuning.plain (config : Config) (bonus : Float) : Tuning := ⟨config, {(7, bonus)}⟩

/-- The last rule accepts a call of 250 nodes, and still does with a larger bonus, without a limit
on the previous size and with a larger one on the calls in the callee. -/
theorem accepted_plain_of_relaxes :
    (Tuning.plain { smallCompiledSize := 0, limitInlinedInvokes := 6.0 } 1.5).Relaxes
      (Tuning.plain {} 1.0) ⟨7⟩ ∧
    ((Query.plain 250 0.9 true).decision {} ((Tuning.plain {} 1.0).scorer 1.0)).accepted = true ∧
    ((Query.plain 250 0.9 true).decision { smallCompiledSize := 0, limitInlinedInvokes := 6.0 }
      ((Tuning.plain { smallCompiledSize := 0, limitInlinedInvokes := 6.0 } 1.5).scorer
        1.0)).accepted = true := by
  have relaxes : (Tuning.plain { smallCompiledSize := 0, limitInlinedInvokes := 6.0 } 1.5).Relaxes
      (Tuning.plain {} 1.0) ⟨7⟩ :=
    { pos := by decide
      finite := by decide
      bonus := by decide
      trivialSize := by decide
      maximumSize := by decide
      previousSize := by decide
      invokes := by decide
      inlineEverything := by decide
      bounded := by decide }
  have accepted :
      ((Query.plain 250 0.9 true).decision {} ((Tuning.plain {} 1.0).scorer 1.0)).accepted =
        true := by
    decide
  exact ⟨relaxes, accepted,
    accepted_of_relaxes (by decide) (by decide) (by decide) relaxes accepted⟩

end InlinePolicy
