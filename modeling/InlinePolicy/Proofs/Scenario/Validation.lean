import InlinePolicy.Proofs.Candidate.Chain
import InlinePolicy.Scenario.Basic

/-!
# What validation refuses

Validation asks of a candidate what a chain asks of a call: a probability from 0 to 1, and a
relevance that is a number and not negative.  It succeeds if that holds of all candidates and all
bonuses are positive (`Scenario.validate_eq_ok_iff`), and otherwise reports the first candidate that
is wrong, or the first bonus if no candidate is (`Scenario.validate_eq_error_iff`).
-/

namespace InlinePolicy

open Binary64

/-! ## Candidates -/

/-- The call that an invocation makes. -/
def Invocation.call (invocation : Invocation) : Call :=
  ⟨invocation.callee, invocation.probability, invocation.relevance⟩

/-- What is wrong with the candidate at an index: its probability, or else its relevance. -/
inductive Invocation.Fault (index : ℕ) (candidate : Invocation) : ScenarioError → Prop
  | probability (wrong : ¬ (0.0 ≤ candidate.probability ∧ candidate.probability ≤ 1.0)) :
    Fault index candidate (.probability index candidate.callee.name candidate.probability)
  | relevance (right : 0.0 ≤ candidate.probability ∧ candidate.probability ≤ 1.0)
      (wrong : ¬ 0.0 ≤ candidate.relevance) :
    Fault index candidate (.relevance index candidate.callee.name candidate.relevance)

theorem Call.inRange_iff (call : Call) :
    call.InRange ↔ (0.0 ≤ call.probability ∧ call.probability ≤ 1.0) ∧ 0.0 ≤ call.relevance := by
  constructor
  · intro valid
    exact ⟨⟨valid.probability_nonneg, valid.probability_le_one⟩, valid.relevance_nonneg⟩
  · intro ⟨⟨nonneg, le⟩, relevance⟩
    exact ⟨nonneg, le, relevance⟩

/-- A call is in range if it can be made in the method that is compiled. -/
theorem Call.inRange_iff_exists_root (call : Call) :
    call.InRange ↔ ∃ invocation,
      Invocation.root call.callee call.probability call.relevance = .ok invocation := by
  constructor
  · intro valid
    exact exists_inside valid none (by decide)
  · intro ⟨invocation, root⟩
    have inside : call.inside none = .ok invocation := root
    exact (inside_eq_ok_iff.1 inside).1

/-- A relevance is not refused if it is a number that is not negative. -/
theorem not_isNaN_or_lt_zero {x : Float} : ¬ (x.isNaN = true ∨ x < 0.0) ↔ 0.0 ≤ x := by
  constructor
  · intro right
    obtain ⟨number, nonneg⟩ := not_or.1 right
    exact le_of_not_lt (Bool.eq_false_of_not_eq_true number) rfl nonneg
  · rintro le (nan | negative)
    · exact Bool.eq_false_iff.1 (le_iff.1 le).2.1 nan
    · exact not_le.2 (lt_iff.1 negative).2.2 (le_iff.1 le).2.2

namespace Scenario

theorem candidateError?_eq_some_iff {index : ℕ} {candidate : Invocation} {error : ScenarioError} :
    candidateError? index candidate = some error ↔ candidate.Fault index error := by
  unfold candidateError?
  constructor
  · intro found
    split_ifs at found with probability relevance
    · obtain rfl := Option.some.inj found
      exact .relevance probability fun right => not_isNaN_or_lt_zero.2 right relevance
    · obtain rfl := Option.some.inj found
      exact .probability probability
  · intro fault
    cases fault with
    | probability wrong => rw [if_pos wrong]
    | relevance right wrong =>
      have refused := not_not.1 (mt not_isNaN_or_lt_zero.1 wrong)
      rw [if_neg (not_not_intro right), if_pos refused]

/-- Nothing is wrong with a candidate if a chain takes its call. -/
theorem candidateError?_eq_none_iff {index : ℕ} {candidate : Invocation} :
    candidateError? index candidate = none ↔ candidate.call.InRange := by
  rw [Call.inRange_iff, Option.eq_none_iff_forall_ne_some]
  simp only [ne_eq, candidateError?_eq_some_iff]
  constructor
  · intro sound
    have probability := not_not.1 fun wrong => sound _ (.probability wrong)
    exact ⟨probability, not_not.1 fun wrong => sound _ (.relevance probability wrong)⟩
  · rintro ⟨probability, relevance⟩ error (wrong | ⟨-, wrong⟩)
    · exact wrong probability
    · exact wrong relevance

theorem hintError?_eq_none_iff {hint : BonusHint} : hintError? hint = none ↔ 0.0 < hint.bonus := by
  unfold hintError?
  split_ifs with positive
  · exact iff_of_true rfl positive
  · exact iff_of_false (by simp) positive

theorem hintError?_eq_some_iff {hint : BonusHint} {error : ScenarioError} :
    hintError? hint = some error ↔ ¬ 0.0 < hint.bonus ∧ error = .bonus hint.callSite := by
  unfold hintError?
  split_ifs with positive
  · simp [positive]
  · simp [positive, eq_comm]

/-! ## The first fault -/

/-- A scenario that nothing is wrong with. -/
structure Valid (scenario : Scenario) : Prop where
  candidates : ∀ candidate ∈ scenario.candidates, candidate.call.InRange
  hints : ∀ hint ∈ scenario.hints, 0.0 < hint.bonus

/-- What is reported about a scenario: the fault of the first candidate that is out of range, or if
there is none, the first bonus that is not positive. -/
inductive FirstFault (scenario : Scenario) : ScenarioError → Prop
  | candidate {earlier later : List Invocation} {candidate : Invocation} {error : ScenarioError}
      (split : scenario.candidates = earlier ++ candidate :: later)
      (first : ∀ other ∈ earlier, other.call.InRange)
      (fault : candidate.Fault earlier.length error) : FirstFault scenario error
  | hint {earlier later : List BonusHint} {hint : BonusHint}
      (candidates : ∀ candidate ∈ scenario.candidates, candidate.call.InRange)
      (split : scenario.hints = earlier ++ hint :: later)
      (first : ∀ other ∈ earlier, 0.0 < other.bonus)
      (fault : ¬ 0.0 < hint.bonus) : FirstFault scenario (.bonus hint.callSite)

variable {scenario : Scenario} {error : ScenarioError}

theorem forall_zipIdx_candidateError? {candidates : List Invocation} :
    (∀ candidate index, (candidate, index) ∈ candidates.zipIdx →
        candidateError? index candidate = none) ↔
      ∀ candidate ∈ candidates, candidate.call.InRange := by
  simp only [candidateError?_eq_none_iff]
  constructor
  · intro each candidate mem
    obtain ⟨index, at_index⟩ := List.mem_iff_getElem?.1 mem
    exact each candidate index (List.mk_mem_zipIdx_iff_getElem?.2 at_index)
  · intro each candidate index mem
    exact each candidate (List.mem_of_getElem? (List.mk_mem_zipIdx_iff_getElem?.1 mem))

/-- The search through the candidates stops at the first one that is out of range. -/
theorem findSome?_candidateError? {candidates : List Invocation} :
    (candidates.zipIdx.findSome? fun (candidate, index) => candidateError? index candidate) =
        some error ↔
      ∃ earlier candidate later, candidates = earlier ++ candidate :: later ∧
        (∀ other ∈ earlier, other.call.InRange) ∧ candidate.Fault earlier.length error := by
  simp only [List.findSome?_eq_some_iff, ← forall_zipIdx_candidateError?]
  constructor
  · rintro ⟨before, ⟨candidate, index⟩, after, split, found, first⟩
    obtain ⟨earlier, rest, rfl, rfl, at_rest⟩ := List.zipIdx_eq_append_iff.1 split
    cases rest with
    | nil => cases at_rest
    | cons other later =>
      rw [List.zipIdx_cons, Nat.zero_add] at at_rest
      obtain ⟨same, -⟩ := List.cons.inj at_rest
      obtain ⟨rfl, rfl⟩ := Prod.mk.inj same
      exact ⟨earlier, candidate, later, rfl, fun other index mem => first (other, index) mem,
        candidateError?_eq_some_iff.1 found⟩
  · rintro ⟨earlier, candidate, later, rfl, first, fault⟩
    refine ⟨earlier.zipIdx, (candidate, earlier.length), later.zipIdx (earlier.length + 1), ?_,
      candidateError?_eq_some_iff.2 fault, fun (other, index) mem => first other index mem⟩
    rw [List.zipIdx_append, List.zipIdx_cons, Nat.zero_add]

theorem firstError?_eq_none_iff : scenario.firstError? = none ↔ scenario.Valid := by
  rw [firstError?, Option.or_eq_none_iff, List.findSome?_eq_none_iff, List.findSome?_eq_none_iff,
    Prod.forall, forall_zipIdx_candidateError?]
  simp only [hintError?_eq_none_iff]
  exact ⟨fun ⟨candidates, hints⟩ => ⟨candidates, hints⟩, fun valid => ⟨valid.1, valid.2⟩⟩

theorem firstError?_eq_some_iff :
    scenario.firstError? = some error ↔ scenario.FirstFault error := by
  rw [firstError?, Option.or_eq_some_iff, findSome?_candidateError?, List.findSome?_eq_none_iff,
    Prod.forall, forall_zipIdx_candidateError?, List.findSome?_eq_some_iff]
  simp only [hintError?_eq_none_iff, hintError?_eq_some_iff]
  constructor
  · rintro (⟨earlier, candidate, later, split, first, fault⟩ |
      ⟨candidates, earlier, hint, later, split, ⟨fault, rfl⟩, first⟩)
    · exact .candidate split first fault
    · exact .hint candidates split first fault
  · rintro (⟨split, first, fault⟩ | ⟨candidates, split, first, fault⟩)
    · exact .inl ⟨_, _, _, split, first, fault⟩
    · exact .inr ⟨candidates, _, _, _, split, ⟨fault, rfl⟩, first⟩

theorem validate_eq_ok_iff : scenario.validate = .ok () ↔ scenario.Valid := by
  rw [← firstError?_eq_none_iff, validate]
  cases scenario.firstError? <;> simp

theorem validate_eq_error_iff : scenario.validate = .error error ↔ scenario.FirstFault error := by
  rw [← firstError?_eq_some_iff, validate]
  cases scenario.firstError? <;> simp

/-! ## What validation does not look at -/

/-- A scenario whose candidates have other call sites. -/
def withSites (scenario : Scenario) (sites : ℕ → CallSite) : Scenario :=
  { scenario with
    candidates := scenario.candidates.mapIdx fun index candidate =>
      { candidate with callee := { candidate.callee with callSite := sites index } } }

/-- A search that does not see a change of every element finds the same. -/
theorem findSome?_zipIdx_mapIdx {α β : Type} {change : ℕ → α → α} {check : α × ℕ → Option β}
    (blind : ∀ place x index, check (change place x, index) = check (x, index)) {xs : List α}
    (start : ℕ) :
    ((xs.mapIdx change).zipIdx start).findSome? check = (xs.zipIdx start).findSome? check := by
  induction xs generalizing change start with
  | nil => rfl
  | cons x xs ih =>
    rw [List.mapIdx_cons, List.zipIdx_cons, List.zipIdx_cons, List.findSome?_cons,
      List.findSome?_cons, blind, ih fun place => blind (place + 1)]

theorem validate_withSites (scenario : Scenario) (sites : ℕ → CallSite) :
    (scenario.withSites sites).validate = scenario.validate := by
  rw [validate, validate, firstError?, firstError?]
  dsimp only [withSites]
  rw [findSome?_zipIdx_mapIdx]
  exact fun place candidate index => rfl

/-- Validation succeeds if every candidate is such that its call can be made and every bonus is
positive, and otherwise reports the first fault.  Which call sites the candidates have, and whether
two of them have the same one, makes no difference. -/
theorem validate_first_fault (scenario : Scenario) :
    (scenario.validate = .ok () ↔
      (∀ candidate ∈ scenario.candidates,
        (0.0 ≤ candidate.probability ∧ candidate.probability ≤ 1.0) ∧
          candidate.relevance.isNaN = false ∧ 0.0 ≤ candidate.relevance) ∧
      ∀ hint ∈ scenario.hints, hint.bonus.isNaN = false ∧ 0.0 < hint.bonus) ∧
    (∀ candidate : Invocation,
      (0.0 ≤ candidate.probability ∧ candidate.probability ≤ 1.0) ∧
          candidate.relevance.isNaN = false ∧ 0.0 ≤ candidate.relevance ↔
        ∃ invocation, Invocation.root candidate.callee candidate.probability candidate.relevance =
          .ok invocation) ∧
    (∀ error, scenario.validate = .error error ↔ scenario.FirstFault error) ∧
    ∀ sites, (scenario.withSites sites).validate = scenario.validate := by
  have number {x : Float} : x.isNaN = false ∧ 0.0 ≤ x ↔ 0.0 ≤ x :=
    and_iff_right_of_imp fun le => (le_iff.1 le).2.1
  have positive {x : Float} : x.isNaN = false ∧ 0.0 < x ↔ 0.0 < x :=
    and_iff_right_of_imp fun lt => (lt_iff.1 lt).2.1
  simp only [number, positive]
  refine ⟨?_, fun candidate => ?_, fun error => validate_eq_error_iff, validate_withSites scenario⟩
  · rw [validate_eq_ok_iff]
    constructor
    · intro valid
      exact ⟨fun candidate mem => candidate.call.inRange_iff.1 (valid.candidates candidate mem),
        valid.hints⟩
    · intro ⟨candidates, hints⟩
      exact ⟨fun candidate mem => candidate.call.inRange_iff.2 (candidates candidate mem), hints⟩
  · exact candidate.call.inRange_iff.symm.trans candidate.call.inRange_iff_exists_root

end Scenario

end InlinePolicy
