import Mathlib
import InlinePolicy.Proofs.Binary64.Sums
import InlinePolicy.Proofs.Policy.Rules
import InlinePolicy.Proofs.Report.Json
import InlinePolicy.Proofs.Scenario.Json

/-!
# Calls nested in a candidate

Validation checks the numbers of a candidate and the bonuses, but not the probabilities of the calls
in its targets (`Scenario.validate_withCall`).  So the scores of a candidate in a valid scenario are
as the policy relies on, only the summed probability may be negative (`Scenario.sound_of_ofText`).
One more call whose probability is not negative keeps a rejection for probable calls, and one with a
negative probability may turn it into an acceptance (`Scenario.accepted_of_negative_call`).
-/

namespace InlinePolicy

open Json Binary64

/-! ## One more call -/

/-- A target with one more call. -/
def Target.withCall (target : Target) (probability : Float) : Target :=
  { target with nestedInvokes := target.nestedInvokes ++ [probability] }

/-- A callee with one more call in the target at an index. -/
def Callee.withCall (callee : Callee) (index : ℕ) (probability : Float) : Callee :=
  { callee with targets := callee.targets.modify index fun target => target.withCall probability }

/-- A candidate with one more call in the target of its callee at an index. -/
def Invocation.withCall (invocation : Invocation) (index : ℕ) (probability : Float) : Invocation :=
  { invocation with callee := invocation.callee.withCall index probability }

/-- A scenario with one more call in a target of the candidate at a place. -/
def Scenario.withCall (scenario : Scenario) (place index : ℕ) (probability : Float) : Scenario :=
  { scenario with
    candidates :=
      scenario.candidates.modify place fun candidate => candidate.withCall index probability }

theorem forall_mem_modify {α : Type} {P : α → Prop} {f : α → α} {xs : List α}
    (each : ∀ x ∈ xs, P x) (kept : ∀ x, P x → P (f x)) (index : ℕ) :
    ∀ x ∈ xs.modify index f, P x := by
  intro x mem
  obtain ⟨place, at_place⟩ := List.mem_iff_getElem?.1 mem
  rw [List.getElem?_modify, Option.map_eq_map, Option.map_eq_some_iff] at at_place
  obtain ⟨y, y_at, rfl⟩ := at_place
  have holds := each y (List.mem_of_getElem? y_at)
  split_ifs
  · exact kept y holds
  · exact holds

/-- A search that does not see a change finds the same. -/
theorem findSome?_zipIdx_modify {α β : Type} {f : α → α} {check : α × ℕ → Option β}
    (blind : ∀ x index, check (f x, index) = check (x, index)) {xs : List α} {place : ℕ} :
    (xs.modify place f).zipIdx.findSome? check = xs.zipIdx.findSome? check := by
  by_cases inside : place < xs.length
  · obtain ⟨earlier, x, later, before, -, after⟩ := List.exists_of_modify f inside
    rw [after, before]
    simp only [List.zipIdx_append, List.zipIdx_cons, List.findSome?_append, List.findSome?_cons,
      blind]
  · rw [List.modify_eq_self (not_lt.1 inside)]

namespace Callee

variable {callee : Callee} (index : ℕ) (probability : Float)

/-- The targets around the one that changes stay where they are. -/
theorem targets_withCall :
    (callee.withCall index probability).targets = callee.targets ∨
      ∃ earlier target later, callee.targets = earlier ++ target :: later ∧
        (callee.withCall index probability).targets =
          earlier ++ target.withCall probability :: later := by
  by_cases inside : index < callee.targets.length
  · obtain ⟨earlier, target, later, before, -, after⟩ :=
      List.exists_of_modify (fun target : Target => target.withCall probability) inside
    exact .inr ⟨earlier, target, later, before, after⟩
  · exact .inl (List.modify_eq_self (not_lt.1 inside))

theorem previousSize_withCall :
    ProfileScorer.previousSize (callee.withCall index probability) =
      ProfileScorer.previousSize callee := by
  unfold ProfileScorer.previousSize ProfileScorer.knownSizes
  rcases callee.targets_withCall index probability with same | ⟨earlier, target, later, old, new⟩
  · rw [same]
  · rw [old, new]
    simp only [List.filterMap_append, List.filterMap_cons, Target.withCall]

theorem isIntrinsic_withCall (intrinsics : Intrinsics) :
    intrinsics.isIntrinsic (callee.withCall index probability) =
      intrinsics.isIntrinsic callee := by
  unfold Intrinsics.isIntrinsic
  rcases callee.targets_withCall index probability with same | ⟨earlier, target, later, old, new⟩
  · rw [same]
  · rw [old, new]
    cases earlier <;> simp [Target.withCall]

/-- The new call stands somewhere among the others. -/
theorem nestedInvokes_withCall :
    (callee.withCall index probability).nestedInvokes = callee.nestedInvokes ∨
      ∃ before after, callee.nestedInvokes = before ++ after ∧
        (callee.withCall index probability).nestedInvokes = before ++ probability :: after := by
  unfold nestedInvokes
  rcases callee.targets_withCall index probability with same | ⟨earlier, target, later, old, new⟩
  · exact .inl (by rw [same])
  · refine .inr ⟨(earlier.flatMap fun target => target.nestedInvokes) ++ target.nestedInvokes,
      later.flatMap fun target => target.nestedInvokes, ?_, ?_⟩
    · rw [old]
      simp
    · rw [new]
      simp [Target.withCall]

theorem finite_withCall (finite : callee.Finite) (number : probability.isFinite = true) :
    (callee.withCall index probability).Finite := by
  refine forall_mem_modify finite (fun target finite x mem => ?_) index
  rcases List.mem_append.1 mem with old | new
  · exact finite x old
  · rwa [List.mem_singleton.1 new]

theorem isFinite_of_mem_nestedInvokes (finite : callee.Finite) :
    ∀ x ∈ callee.nestedInvokes, x.isFinite = true := by
  intro x mem
  obtain ⟨target, target_mem, x_mem⟩ := List.mem_flatMap.1 mem
  exact finite target target_mem x x_mem

theorem sum_le_sum_withCall (finite : callee.Finite) (number : probability.isFinite = true)
    (nonneg : 0.0 ≤ probability) :
    sum callee.nestedInvokes ≤ sum (callee.withCall index probability).nestedInvokes := by
  have each := isFinite_of_mem_nestedInvokes (finite_withCall index probability finite number)
  rcases callee.nestedInvokes_withCall index probability with same | ⟨before, after, old, new⟩
  · have number := isNaN_sum each
    rw [same] at number ⊢
    exact le_iff.2 ⟨number, number, le_rfl⟩
  · rw [new] at each
    rw [old, new]
    exact sum_le_sum_insert each nonneg

end Callee

/-! ## Rejections for probable calls -/

/-- The rules before the one about nested calls do not look at them, and it still applies if their
sum does not fall. -/
theorem Policy.settles_withCall {scorer : ProfileScorer} {intrinsics : Intrinsics}
    {config : Config} {invocation : Invocation} {fullyProcessed : Bool} {index : ℕ}
    {probability : Float}
    (settles : (ofProfile scorer intrinsics).Settles config invocation fullyProcessed
      .invokeProbabilityTooHigh)
    (le : sum invocation.callee.nestedInvokes ≤
      sum (invocation.withCall index probability).callee.nestedInvokes) :
    (ofProfile scorer intrinsics).Settles config (invocation.withCall index probability)
      fullyProcessed .invokeProbabilityTooHigh := by
  obtain ⟨⟨processed, limited, exceeds⟩, first⟩ := settles
  refine ⟨⟨processed, limited, lt_trans_le exceeds le⟩, fun earlier lt applies => ?_⟩
  refine first earlier lt ?_
  cases earlier with
  | maximumDesiredSize | inlineEverything | forcedInlining | trivialSize => exact applies
  | intrinsic =>
    exact (Callee.isIntrinsic_withCall index probability intrinsics).symm.trans applies
  | tooLargePreviousGraph =>
    obtain ⟨limited, size, known, exceeds⟩ := applies
    exact ⟨limited, size, (Callee.previousSize_withCall index probability).symm.trans known,
      exceeds⟩
  | invokeProbabilityTooHigh => exact absurd lt (lt_irrefl _)
  | relevanceBased => exact absurd lt (by decide)

namespace Scenario

variable {scenario : Scenario}

/-- Validation does not look at the calls in a target. -/
theorem validate_withCall (scenario : Scenario) (place index : ℕ) (probability : Float) :
    (scenario.withCall place index probability).validate = scenario.validate := by
  rw [validate, validate, firstError?, firstError?]
  dsimp only [withCall]
  rw [findSome?_zipIdx_modify]
  exact fun candidate index => rfl

theorem ofText_withCall (finite : scenario.Finite) (targets : scenario.HasTargets)
    (valid : scenario.validate = .ok ()) (place index : ℕ) {probability : Float}
    (number : probability.isFinite = true) :
    ofText (toJson (scenario.withCall place index probability)).compact =
      .ok (scenario.withCall place index probability) := by
  refine ofText_compact ⟨finite.hints, ?_⟩ ?_ ((scenario.validate_withCall _ _ _).trans valid)
  · have kept (candidate : Invocation) (finite : candidate.Finite) :
        (candidate.withCall index probability).Finite :=
      ⟨Callee.finite_withCall index probability finite.callee number, finite.probability,
        finite.relevance⟩
    exact forall_mem_modify finite.candidates kept place
  · have kept (candidate : Invocation) (nonempty : candidate.callee.targets ≠ []) :
        (candidate.withCall index probability).callee.targets ≠ [] :=
      fun empty => nonempty (List.modify_eq_nil_iff.1 empty)
    exact forall_mem_modify targets kept place

/-- The scores of a candidate in a scenario that was read from a text are as the policy relies on;
only the summed probability of its calls, which is a number, may be negative if one of them is.  A
scenario stays valid whatever call is added, and as long as the probability of this call is not
negative, a rejection for probable calls stays one. -/
theorem sound_of_ofText {text : String} (loaded : ofText text = .ok scenario) :
    ∀ (place : ℕ) (candidate : Invocation), scenario.candidates[place]? = some candidate →
      (0.0 ≤ candidate.probability ∧ candidate.probability ≤ 1.0) ∧
      0.0 ≤ candidate.relevance ∧
      0.0 < scenario.policy.scorer.bonus candidate.callee ∧
      (scenario.policy.scorer.invokeProbability candidate.callee).isNaN = false ∧
      ((∀ probability ∈ candidate.callee.nestedInvokes, 0.0 ≤ probability) →
        0.0 ≤ scenario.policy.scorer.invokeProbability candidate.callee) ∧
      ∀ (index : ℕ) (probability : Float), probability.isFinite = true →
        ofText (toJson (scenario.withCall place index probability)).compact =
            .ok (scenario.withCall place index probability) ∧
          (scenario.withCall place index probability).candidates[place]? =
            some (candidate.withCall index probability) ∧
          (0.0 ≤ probability → ∀ (config : Config) (fullyProcessed : Bool),
            (scenario.policy.evaluate config candidate fullyProcessed).reason =
              .invokeProbabilityTooHigh →
            ((scenario.withCall place index probability).policy.evaluate config
              (candidate.withCall index probability) fullyProcessed).reason =
                .invokeProbabilityTooHigh ∧
            ((scenario.withCall place index probability).policy.evaluate config
              (candidate.withCall index probability) fullyProcessed).accepted = false) := by
  obtain ⟨decoded, valid⟩ := ofText_eq_ok_iff.1 loaded
  obtain ⟨finite, targets⟩ := decodes.decode decoded
  obtain ⟨relevances, hints⟩ := sound_of_validate valid
  intro place candidate candidate_at
  have mem := List.mem_of_getElem? candidate_at
  have callee_finite := (finite.candidates candidate mem).callee
  have each := Callee.isFinite_of_mem_nestedInvokes callee_finite
  have bonus := bonus_listedPolicy (P := fun x => 0.0 < x) (by decide) hints candidate
  rw [← policy_eq_listedPolicy] at bonus
  refine ⟨probability_of_validate valid mem, relevances candidate mem, bonus, isNaN_sum each,
    sum_nonneg each, fun index probability number => ?_⟩
  refine ⟨ofText_withCall finite targets valid place index number, ?_, ?_⟩
  · rw [withCall, List.getElem?_modify_eq, candidate_at]
    rfl
  · intro nonneg config fullyProcessed reason
    have le := Callee.sum_le_sum_withCall index probability callee_finite number nonneg
    obtain ⟨settled, settles⟩ :=
      @Policy.exists_settles scenario.policy config candidate fullyProcessed
    rw [Policy.evaluate_of_settles settles] at reason
    obtain rfl : settled = .invokeProbabilityTooHigh := reason
    have decision := Policy.evaluate_of_settles (Policy.settles_withCall settles le)
    exact ⟨congrArg Decision.reason decision, congrArg Decision.accepted decision⟩

/-- A call of a method whose own calls are too probable for the default limit of 5. -/
def probable : Scenario where
  candidates := [nesting 1 [6.0]]

theorem finite_probable : probable.Finite where
  hints := List.forall_mem_nil _
  candidates := List.forall_mem_singleton.2 (finite_nesting 1 (by decide))

theorem hasTargets_probable : probable.HasTargets := List.forall_mem_singleton.2 (by decide)

theorem ofText_probable : ofText (toJson probable).compact = .ok probable :=
  ofText_compact finite_probable hasTargets_probable (by decide)

theorem reason_probable :
    (probable.policy.evaluate {} (nesting 1 [6.0]) true).reason = .invokeProbabilityTooHigh := by
  rw [policy_eq_listedPolicy]
  decide

/-- A call with the probability 2 leaves the sum above the limit. -/
theorem sound_of_ofText_probable :
    ofText (toJson probable).compact = .ok probable ∧
      0.0 ≤ probable.policy.scorer.invokeProbability (nesting 1 [6.0]).callee ∧
      (probable.policy.evaluate {} (nesting 1 [6.0]) true).reason = .invokeProbabilityTooHigh ∧
      ((probable.withCall 0 0 2.0).policy.evaluate {} ((nesting 1 [6.0]).withCall 0 2.0)
        true).accepted = false := by
  obtain ⟨-, -, -, -, nonneg, added⟩ :=
    sound_of_ofText ofText_probable 0 (nesting 1 [6.0]) rfl
  obtain ⟨-, -, kept⟩ := added 0 2.0 (by decide)
  exact ⟨ofText_probable, nonneg (by decide), reason_probable,
    (kept (by decide) {} true reason_probable).2⟩

/-- A negative probability is not refused.  It makes the sum negative, and turns the rejection into
an acceptance. -/
theorem accepted_of_negative_call :
    ofText (toJson probable).compact = .ok probable ∧
      ofText (toJson (probable.withCall 0 0 (-7.0))).compact =
        .ok (probable.withCall 0 0 (-7.0)) ∧
      (probable.withCall 0 0 (-7.0)).policy.scorer.invokeProbability
        ((nesting 1 [6.0]).withCall 0 (-7.0)).callee < 0.0 ∧
      (probable.policy.evaluate {} (nesting 1 [6.0]) true).reason = .invokeProbabilityTooHigh ∧
      (probable.policy.evaluate {} (nesting 1 [6.0]) true).accepted = false ∧
      ((probable.withCall 0 0 (-7.0)).policy.evaluate {} ((nesting 1 [6.0]).withCall 0 (-7.0))
        true).accepted = true := by
  have read := ofText_withCall finite_probable hasTargets_probable (by decide) 0 0
    (show (-7.0 : Float).isFinite = true by decide)
  refine ⟨ofText_probable, read, by decide, reason_probable, ?_, ?_⟩
  · rw [policy_eq_listedPolicy]
    decide
  · rw [policy_eq_listedPolicy]
    decide

end Scenario

end InlinePolicy
