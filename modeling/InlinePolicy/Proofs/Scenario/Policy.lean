import Mathlib
import InlinePolicy.Proofs.Intrinsics.Registration
import InlinePolicy.Report.Basic

/-!
# The policy of a scenario

The policy that evaluates a scenario looks hints and intrinsics up in tables.  `listedPolicy` says
the same of the lists that the scenario holds: the last hint for a call site counts, and a method
is intrinsic if it is listed (`policy_eq_listedPolicy`).
-/

namespace InlinePolicy

/-! ## Tables made from lists -/

/-- Of several hints for one call site, the last one holds. -/
theorem ProfileScorer.hint?_ofHints (hints : List (CallSite × Float)) (cap : Float)
    (site : CallSite) :
    (ofHints hints cap).hint? site =
      ((hints.filter fun hint => hint.1 = site).getLast?).map Prod.snd := by
  unfold hint? ofHints
  induction hints using List.reverseRecOn with
  | nil => simp
  | append_singleton hints hint ih =>
    rw [List.foldl_concat, Std.ExtTreeMap.getElem?_insert, ih, List.filter_append]
    by_cases same : hint.1 = site
    · simp [same]
    · have different : compare hint.1.id site.id ≠ .eq := fun eq =>
        same (congrArg CallSite.mk (Std.LawfulEqCmp.eq_of_compare eq))
      simp [same, different]

theorem ProfileScorer.forall_hint_ofHints {P : Float → Prop} {hints : List (CallSite × Float)}
    {cap : Float} (each : ∀ hint ∈ hints, P hint.2) {site : CallSite} {bonus : Float}
    (h : (ofHints hints cap).hint? site = some bonus) : P bonus := by
  rw [hint?_ofHints, Option.map_eq_some_iff] at h
  obtain ⟨hint, last, rfl⟩ := h
  exact each hint (List.mem_of_mem_filter (List.mem_of_getLast? last))

theorem Intrinsics.contains_ofList (methods : List String) (method : String) :
    (ofList methods).contains method = methods.contains method := by
  rw [Bool.eq_iff_iff, (holds_ofList methods).contains, List.contains_iff_mem]

namespace Scenario

/-! ## The policy read off the lists -/

/-- The bonus of the last hint for a call site. -/
def lastHint? (scenario : Scenario) (site : CallSite) : Option Float :=
  ((scenario.hints.filter fun hint => hint.callSite = site).getLast?).map BonusHint.bonus

/-- The policy that a scenario describes, in terms of its lists.  A call site without a hint has the
bonus 1. -/
def listedPolicy (scenario : Scenario) : Policy where
  scorer :=
    { bonus := fun callee => (scenario.lastHint? callee.callSite).getD 1.0
      previousSize := ProfileScorer.previousSize
      invokeProbability := fun callee => Binary64.sum callee.nestedInvokes
      maximumSize := fun relevance base => base * Binary64.lesser relevance 1.0 }
  isIntrinsic callee :=
    !callee.targets.isEmpty &&
      callee.targets.all fun target => scenario.intrinsics.contains target.method

theorem hint?_scorer (scenario : Scenario) (site : CallSite) :
    scenario.scorer.hint? site = scenario.lastHint? site := by
  rw [scorer, ProfileScorer.hint?_ofHints, List.filter_map, List.getLast?_map, Option.map_map]
  rfl

theorem policy_eq_listedPolicy (scenario : Scenario) : scenario.policy = scenario.listedPolicy := by
  have bonus : scenario.scorer.toScorer.bonus = scenario.listedPolicy.scorer.bonus :=
    funext fun callee => congrArg (Option.getD · 1.0) (scenario.hint?_scorer callee.callSite)
  have scorer : scenario.scorer.toScorer = scenario.listedPolicy.scorer := by
    exact (Scorer.mk.injEq ..).mpr ⟨bonus, rfl, rfl, rfl⟩
  have intrinsic : scenario.registry.isIntrinsic = scenario.listedPolicy.isIntrinsic := by
    funext callee
    unfold Intrinsics.isIntrinsic registry listedPolicy
    simp only [Intrinsics.contains_ofList]
  exact congrArg₂ Policy.mk scorer intrinsic

end Scenario

end InlinePolicy
