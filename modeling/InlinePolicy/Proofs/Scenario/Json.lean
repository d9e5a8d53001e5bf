import Mathlib
import InlinePolicy.Proofs.Candidate.Json
import InlinePolicy.Proofs.Scenario.Validation
import InlinePolicy.Scenario.Json

/-!
# Scenarios read back

The normal form of a scenario gives each callee without targets the one that it has by default.
A scenario whose numbers are finite is read back from each of its spellings in normal form
(`Scenario.readsAs`), if it is valid also from the text (`Scenario.ofText_normalForm`).  Whatever
scenario is read from a text is in normal form already.
-/

namespace InlinePolicy

open Json

/-! ## Hints -/

instance : ReadableJson BonusHint where
  readable hint := .object (by simp [readable])

/-- The fields of a hint. -/
def BonusHint.spellings (hint : BonusHint) : List FieldSpelling :=
  [.required "call_site" (Verbatim hint.callSite), .required "bonus" (Verbatim hint.bonus)]

/-- The objects that spell a hint. -/
def BonusHint.Spelling (hint : BonusHint) : Json → Prop := Spells hint.spellings

theorem BonusHint.spelling_toJson (hint : BonusHint) : hint.Spelling (toJson hint) :=
  Gives.spells (.given rfl (.given rfl .nil))

theorem BonusHint.readsAs {hint : BonusHint} (finite : hint.bonus.isFinite = true) :
    ReadsAs hint.Spelling hint := by
  intro value spelling
  refine record_of_spells spelling (show fieldNames.Nodup by decide) fun slots holds => ?_
  simp only [spellings, List.forall_mem_cons] at holds
  obtain ⟨callSite, bonus, -⟩ := holds
  rw [ReadsAs.required (.verbatim (fromJson_toJson_callSite hint.callSite)) callSite,
    ReadsAs.required (.verbatim (fromJson_toJson_float finite)) bonus]
  rfl

theorem decodes_hint : Decodes fun hint : BonusHint => hint.bonus.isFinite = true := by
  intro value hint decoded
  obtain ⟨fields, built⟩ := fields_of_record decoded
  obtain ⟨callSite, -, built⟩ := ok_of_bind built
  obtain ⟨bonus, given, built⟩ := ok_of_bind built
  obtain rfl := Except.ok.inj built
  exact decodes_float.required given

/-! ## Scenarios -/

namespace Scenario

/-- All numbers of a scenario are finite. -/
structure Finite (scenario : Scenario) : Prop where
  hints : ∀ hint ∈ scenario.hints, hint.bonus.isFinite = true
  candidates : ∀ candidate ∈ scenario.candidates, candidate.Finite

/-- No callee of a scenario is without targets. -/
def HasTargets (scenario : Scenario) : Prop :=
  ∀ candidate ∈ scenario.candidates, candidate.callee.targets ≠ []

/-- A scenario in which each callee without targets has one that is named after it. -/
def normalForm (scenario : Scenario) : Scenario :=
  { scenario with candidates := scenario.candidates.map Invocation.withOwnTarget }

theorem normalForm_eq_self {scenario : Scenario} (targets : scenario.HasTargets) :
    scenario.normalForm = scenario := by
  have each : scenario.candidates.map Invocation.withOwnTarget = scenario.candidates := by
    refine (List.map_congr_left (g := id) fun candidate mem => ?_).trans (List.map_id _)
    rw [Invocation.withOwnTarget, Callee.withOwnTarget_eq_self (targets candidate mem), id]
  rw [normalForm, each]

instance : ReadableJson Scenario where
  readable scenario := .object (by simp [readable])

/-- The fields of a scenario, each of which may be left out. -/
def spellings (scenario : Scenario) : List FieldSpelling :=
  let default : Scenario := {}
  [.withDefault "graph_nodes" (Verbatim scenario.graphNodes) scenario.graphNodes
      default.graphNodes,
    .withDefault "hints" (Listed BonusHint.Spelling scenario.hints) scenario.hints default.hints,
    .withDefault "intrinsics" (Verbatim scenario.intrinsics) scenario.intrinsics
      default.intrinsics,
    .withDefault "candidates" (Listed Invocation.Spelling scenario.candidates)
      scenario.candidates default.candidates]

/-- The objects that spell a scenario. -/
def Spelling (scenario : Scenario) : Json → Prop := Spells scenario.spellings

theorem spelling_toJson (scenario : Scenario) : scenario.Spelling (toJson scenario) := by
  have hints : Listed BonusHint.Spelling scenario.hints (toJson scenario.hints) :=
    listed_toJson fun hint _ => hint.spelling_toJson
  have candidates : Listed Invocation.Spelling scenario.candidates (toJson scenario.candidates) :=
    listed_toJson fun candidate _ => candidate.spelling_toJson
  exact Gives.spells (.given rfl (.given hints (.given rfl (.given candidates .nil))))

theorem readsAs {scenario : Scenario} (finite : scenario.Finite) :
    ReadsAs scenario.Spelling scenario.normalForm := by
  intro value spelling
  refine record_of_spells spelling (show fieldNames.Nodup by decide) fun slots holds => ?_
  simp only [spellings, List.forall_mem_cons] at holds
  obtain ⟨graphNodes, hints, intrinsics, candidates, -⟩ := holds
  have hint := ReadsAs.listed_self fun hint mem => BonusHint.readsAs (finite.hints hint mem)
  have method := fromJson_toJson_list_self fun name (_ : name ∈ scenario.intrinsics) =>
    fromJson_toJson_string name
  have candidate := ReadsAs.listed fun candidate mem =>
    Invocation.readsAs (finite.candidates candidate mem)
  have noCandidates (empty : scenario.candidates = []) :
      scenario.candidates.map Invocation.withOwnTarget = [] := by
    rw [empty, List.map_nil]
  dsimp only
  rw [ReadsAs.withDefault (.verbatim (fromJson_toJson_option_self fromJson_toJson_some_word
      scenario.graphNodes)) graphNodes,
    hint.withDefault hints, ReadsAs.withDefault (.verbatim method) intrinsics,
    candidate.withDefault_of candidates noCandidates]
  rfl

theorem decodes : Decodes fun scenario : Scenario => scenario.Finite ∧ scenario.HasTargets := by
  intro value scenario decoded
  obtain ⟨fields, built⟩ := fields_of_record decoded
  obtain ⟨graphNodes, -, built⟩ := ok_of_bind built
  obtain ⟨hints, hintsGiven, built⟩ := ok_of_bind built
  obtain ⟨intrinsics, -, built⟩ := ok_of_bind built
  obtain ⟨candidates, candidatesGiven, built⟩ := ok_of_bind built
  obtain rfl := Except.ok.inj built
  have finite := decodes_hint.list.withDefault (List.forall_mem_nil _) hintsGiven
  have each := decodes_invocation.list.withDefault (List.forall_mem_nil _) candidatesGiven
  exact ⟨⟨finite, fun candidate mem => (each candidate mem).1⟩,
    fun candidate mem => (each candidate mem).2⟩

/-! ## Validation -/

/-- A candidate is as valid with a target as without. -/
theorem candidateError?_withOwnTarget (index : ℕ) (candidate : Invocation) :
    candidateError? index candidate.withOwnTarget = candidateError? index candidate := by
  have name : candidate.withOwnTarget.callee.name = candidate.callee.name :=
    candidate.callee.name_withOwnTarget
  rw [candidateError?, candidateError?, name]
  rfl

theorem firstError?_normalForm (scenario : Scenario) :
    scenario.normalForm.firstError? = scenario.firstError? := by
  rw [firstError?, firstError?]
  dsimp only [normalForm]
  rw [List.zipIdx_map, List.findSome?_map]
  congr 2
  funext indexed
  exact candidateError?_withOwnTarget indexed.2 indexed.1

theorem validate_normalForm (scenario : Scenario) :
    scenario.normalForm.validate = scenario.validate := by
  rw [validate, validate, firstError?_normalForm]

theorem probability_of_validate {scenario : Scenario} (valid : scenario.validate = .ok ())
    {candidate : Invocation} (mem : candidate ∈ scenario.candidates) :
    0.0 ≤ candidate.probability ∧ candidate.probability ≤ 1.0 :=
  (candidate.call.inRange_iff.1 ((validate_eq_ok_iff.1 valid).candidates candidate mem)).1

/-- What the policy relies on. -/
theorem sound_of_validate {scenario : Scenario} (valid : scenario.validate = .ok ()) :
    (∀ candidate ∈ scenario.candidates, 0.0 ≤ candidate.relevance) ∧
      ∀ hint ∈ scenario.hints, 0.0 < hint.bonus := by
  obtain ⟨candidates, hints⟩ := validate_eq_ok_iff.1 valid
  exact ⟨fun candidate mem => (candidates candidate mem).relevance_nonneg, hints⟩

theorem ofText_eq_ok_iff {text : String} {scenario : Scenario} :
    ofText text = .ok scenario ↔ decode text = .ok scenario ∧ scenario.validate = .ok () := by
  unfold ofText load
  cases (decode text : Except Json.Error Scenario) with
  | error e =>
    refine iff_of_false (fun loaded => ?_) fun ⟨decoded, _⟩ => ?_
    · cases loaded
    · cases decoded
  | ok decoded =>
    dsimp only
    cases valid : decoded.validate with
    | error e =>
      refine iff_of_false (fun loaded => ?_) fun ⟨same, other⟩ => ?_
      · cases loaded
      · obtain rfl := Except.ok.inj same
        cases valid.symm.trans other
    | ok done =>
      refine ⟨fun loaded => ?_, fun ⟨same, _⟩ => ?_⟩
      · obtain rfl := Except.ok.inj loaded
        exact ⟨rfl, valid⟩
      · obtain rfl := Except.ok.inj same
        rfl

/-- A valid scenario in normal form is read back from its compact text. -/
theorem ofText_compact {scenario : Scenario} (finite : scenario.Finite)
    (targets : scenario.HasTargets) (valid : scenario.validate = .ok ()) :
    ofText (toJson scenario).compact = .ok scenario := by
  have decoded := (decode_compact (readable scenario)).trans
    (readsAs finite _ scenario.spelling_toJson)
  rw [normalForm_eq_self targets] at decoded
  exact ofText_eq_ok_iff.2 ⟨decoded, valid⟩

/-- Whichever way it is printed, a valid scenario whose numbers are finite is read back in normal
form; and a scenario that was read from some text is read back as it is. -/
theorem ofText_normalForm :
    (∀ scenario : Scenario, scenario.Finite → scenario.validate = .ok () →
      ofText (toJson scenario).compact = .ok scenario.normalForm ∧
      ofText (toJson scenario).pretty = .ok scenario.normalForm) ∧
    ∀ (text : String) (scenario : Scenario), ofText text = .ok scenario →
      scenario.Finite ∧ scenario.HasTargets ∧
      ofText (toJson scenario).compact = .ok scenario ∧
      ofText (toJson scenario).pretty = .ok scenario := by
  have printed (scenario : Scenario) (finite : scenario.Finite)
      (valid : scenario.validate = .ok ()) :
      ofText (toJson scenario).compact = .ok scenario.normalForm ∧
      ofText (toJson scenario).pretty = .ok scenario.normalForm := by
    have decoded := readsAs finite _ scenario.spelling_toJson
    rw [← validate_normalForm] at valid
    exact ⟨ofText_eq_ok_iff.2 ⟨(decode_compact (readable scenario)).trans decoded, valid⟩,
      ofText_eq_ok_iff.2 ⟨(decode_pretty (readable scenario)).trans decoded, valid⟩⟩
  refine ⟨printed, fun text scenario loaded => ?_⟩
  obtain ⟨decoded, valid⟩ := ofText_eq_ok_iff.1 loaded
  obtain ⟨finite, targets⟩ := decodes.decode decoded
  have again := printed scenario finite valid
  rw [normalForm_eq_self targets] at again
  exact ⟨finite, targets, again⟩

/-- A candidate without targets, whose probability is a negative zero. -/
def bare : Scenario where
  hints := [⟨⟨7⟩, 0.5⟩]
  candidates :=
    [{ callee := { name := "Parser.parse", callSite := ⟨7⟩, nodeCount := 150, targets := [] }
       probability := -0.0
       relevance := 2.5 }]

/-- What is read from the text of a bare scenario is read again from its own. -/
theorem ofText_normalForm_bare :
    bare.Finite ∧ bare.validate = .ok () ∧
      ofText (toJson bare).compact = .ok bare.normalForm ∧
      ofText (toJson bare.normalForm).compact = .ok bare.normalForm := by
  have finite : bare.Finite :=
    { hints := by decide
      candidates := List.forall_mem_singleton.2
        ⟨List.forall_mem_nil _, by decide, by decide⟩ }
  have valid : bare.validate = .ok () := by decide
  have printed := (ofText_normalForm.1 bare finite valid).1
  exact ⟨finite, valid, printed, (ofText_normalForm.2 _ _ printed).2.2.1⟩

end Scenario

end InlinePolicy
