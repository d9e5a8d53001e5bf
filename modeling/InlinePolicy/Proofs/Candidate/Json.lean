import Mathlib
import InlinePolicy.Candidate.Json
import InlinePolicy.Proofs.Json.Spelling

/-!
# Candidates read back

A candidate whose numbers are finite is read back from each of its spellings, its JSON form among
them; a callee without targets then has the one that it has by default (`Invocation.readsAs`).
Whatever candidate is read has finite numbers and a target (`decodes_invocation`).
-/

namespace InlinePolicy

open Json

/-! ## Call sites -/

instance : ReadableJson CallSite := ⟨fun site => readable site.id⟩

theorem fromJson_toJson_callSite (site : CallSite) : fromJson (toJson site) = .ok site := by
  change CallSite.mk <$> (fromJson (toJson site.id) : Except Error UInt64) = .ok site
  rw [fromJson_toJson_word]
  rfl

theorem fromJson_toJson_some_callSite (site : CallSite) :
    fromJson (toJson site) = .ok (some site) := by
  rw [fromJson_option (by rintro ⟨⟩), fromJson_toJson_callSite]
  rfl

/-! ## Targets -/

/-- All numbers of a target are finite. -/
def Target.Finite (target : Target) : Prop := ∀ x ∈ target.nestedInvokes, x.isFinite = true

instance : ReadableJson Target where
  readable target := .object (by simp [readable])

/-- The fields of a target, each of which may be left out. -/
def Target.spellings (target : Target) : List FieldSpelling :=
  let default : Target := {}
  [.withDefault "method" (Verbatim target.method) target.method default.method,
    .withDefault "compiled_ir_size" (Verbatim target.compiledSize) target.compiledSize
      default.compiledSize,
    .withDefault "nested_invoke_probabilities" (Verbatim target.nestedInvokes)
      target.nestedInvokes default.nestedInvokes]

/-- The objects that spell a target. -/
def Target.Spelling (target : Target) : Json → Prop := Spells target.spellings

theorem Target.spelling_toJson (target : Target) : target.Spelling (toJson target) :=
  Gives.spells (.given rfl (.given rfl (.given rfl .nil)))

theorem Target.readsAs {target : Target} (finite : target.Finite) :
    ReadsAs target.Spelling target := by
  intro value spelling
  refine record_of_spells spelling (show fieldNames.Nodup by decide) fun slots holds => ?_
  simp only [spellings, List.forall_mem_cons] at holds
  obtain ⟨method, compiledSize, nestedInvokes, -⟩ := holds
  have nested := fromJson_toJson_list_self fun x mem => fromJson_toJson_float (finite x mem)
  dsimp only
  rw [ReadsAs.withDefault (.verbatim (fromJson_toJson_string target.method)) method,
    ReadsAs.withDefault (.verbatim (fromJson_toJson_option_self fromJson_toJson_some_word
      target.compiledSize)) compiledSize,
    ReadsAs.withDefault (.verbatim nested) nestedInvokes]
  rfl

theorem decodes_target : Decodes Target.Finite := by
  intro value target decoded
  obtain ⟨fields, built⟩ := fields_of_record decoded
  obtain ⟨method, -, built⟩ := ok_of_bind built
  obtain ⟨compiledSize, -, built⟩ := ok_of_bind built
  obtain ⟨nestedInvokes, nested, built⟩ := ok_of_bind built
  obtain rfl := Except.ok.inj built
  exact decodes_float.list.withDefault (List.forall_mem_nil _) nested

/-! ## Callees -/

/-- All numbers of a callee are finite. -/
def Callee.Finite (callee : Callee) : Prop := ∀ target ∈ callee.targets, target.Finite

/-- A callee with one target, named after it, if it has none. -/
def Callee.withOwnTarget (callee : Callee) : Callee :=
  if callee.targets = [] then { callee with targets := [{ method := callee.name }] } else callee

@[simp]
theorem Callee.name_withOwnTarget (callee : Callee) : callee.withOwnTarget.name = callee.name := by
  unfold withOwnTarget
  split_ifs <;> rfl

theorem Callee.targets_withOwnTarget (callee : Callee) : callee.withOwnTarget.targets ≠ [] := by
  unfold withOwnTarget
  split_ifs with empty
  · exact List.cons_ne_nil _ _
  · exact empty

theorem Callee.finite_withOwnTarget {callee : Callee} (finite : callee.Finite) :
    callee.withOwnTarget.Finite := by
  unfold withOwnTarget
  split_ifs
  · exact List.forall_mem_singleton.2 (List.forall_mem_nil _)
  · exact finite

/-- A callee that is read with the given targets. -/
theorem Callee.withTargets_eq (name : String) (callSite : CallSite) (nodeCount : UInt64)
    (forceInline : Bool) (targets : List Target) :
    Callee.withTargets { name, callSite, nodeCount, forceInline } targets =
      Callee.withOwnTarget { name, callSite, nodeCount, forceInline, targets } := by
  cases targets <;> rfl

theorem Callee.withOwnTarget_eq_self {callee : Callee} (nonempty : callee.targets ≠ []) :
    callee.withOwnTarget = callee :=
  if_neg nonempty

instance : ReadableJson Callee where
  readable callee := .object (by simp [readable])

/-- A callee has no target but the one that it has by default. -/
def Callee.HasOwnTarget (callee : Callee) : Prop := callee.targets = [{ method := callee.name }]

/-- A callee that has no target but its own needs to list none. -/
def Callee.targetsSpelling (callee : Callee) : FieldSpelling where
  name := "targets"
  Spelling value :=
    Listed Target.Spelling callee.targets value ∨ callee.HasOwnTarget ∧ value = .array []
  Omissible := callee.HasOwnTarget

/-- The fields of a callee. -/
def Callee.spellings (callee : Callee) : List FieldSpelling :=
  [.required "name" (Verbatim callee.name),
    .required "call_site" (Verbatim callee.callSite),
    .required "node_count" (Verbatim callee.nodeCount),
    .withDefault "force_inline" (Verbatim callee.forceInline) callee.forceInline false,
    callee.targetsSpelling]

/-- The objects that spell a callee. -/
def Callee.Spelling (callee : Callee) : Json → Prop := Spells callee.spellings

theorem Callee.spelling_toJson (callee : Callee) : callee.Spelling (toJson callee) := by
  have targets : callee.targetsSpelling.Spelling (toJson callee.targets) :=
    .inl (listed_toJson fun target _ => target.spelling_toJson)
  exact Gives.spells (.given rfl (.given rfl (.given rfl (.given rfl (.given targets .nil)))))

theorem Callee.withOwnTarget_of_hasOwnTarget {callee : Callee} (own : callee.HasOwnTarget) :
    Callee.withOwnTarget { callee with targets := [] } = callee.withOwnTarget := by
  rw [callee.withOwnTarget_eq_self (own ▸ List.cons_ne_nil _ _), withOwnTarget, if_pos rfl]
  exact congrArg (fun targets => { callee with targets }) own.symm

/-- Listing no targets is the same as listing the own one. -/
theorem Callee.targets_of_holds {callee : Callee} (finite : callee.Finite) {slots : Fields}
    (holds : callee.targetsSpelling.Holds (slots "targets")) :
    ∃ targets : List Target, slots.withDefault "targets" [] = .ok targets ∧
      Callee.withOwnTarget { callee with targets } = callee.withOwnTarget := by
  unfold Fields.withDefault
  cases slot : slots "targets" with
  | given value =>
    rw [slot] at holds
    have reads := ReadsAs.listed_self fun target mem => Target.readsAs (finite target mem)
    rcases holds with listed | ⟨own, rfl⟩
    · exact ⟨callee.targets, reads value listed, rfl⟩
    · exact ⟨[], rfl, withOwnTarget_of_hasOwnTarget own⟩
  | omitted =>
    rw [slot] at holds
    exact ⟨[], rfl, withOwnTarget_of_hasOwnTarget holds⟩
  | beyondEnd =>
    rw [slot] at holds
    exact holds.elim

theorem Callee.readsAs {callee : Callee} (finite : callee.Finite) :
    ReadsAs callee.Spelling callee.withOwnTarget := by
  intro value spelling
  refine record_of_spells spelling (show fieldNames.Nodup by decide) fun slots holds => ?_
  simp only [spellings, List.forall_mem_cons] at holds
  obtain ⟨name, callSite, nodeCount, forceInline, targets, -⟩ := holds
  obtain ⟨listed, decoded, same⟩ := targets_of_holds finite targets
  rw [ReadsAs.required (.verbatim (fromJson_toJson_string callee.name)) name,
    ReadsAs.required (.verbatim (fromJson_toJson_callSite callee.callSite)) callSite,
    ReadsAs.required (.verbatim (fromJson_toJson_word callee.nodeCount)) nodeCount,
    ReadsAs.withDefault (.verbatim (fromJson_toJson_bool callee.forceInline)) forceInline, decoded,
    ← same]
  exact congrArg Except.ok (Callee.withTargets_eq callee.name callee.callSite callee.nodeCount
    callee.forceInline listed)

theorem decodes_callee :
    Decodes fun callee : Callee => callee.Finite ∧ callee.targets ≠ [] := by
  intro value callee decoded
  obtain ⟨fields, built⟩ := fields_of_record decoded
  obtain ⟨name, -, built⟩ := ok_of_bind built
  obtain ⟨callSite, -, built⟩ := ok_of_bind built
  obtain ⟨nodeCount, -, built⟩ := ok_of_bind built
  obtain ⟨forceInline, -, built⟩ := ok_of_bind built
  obtain ⟨targets, listed, built⟩ := ok_of_bind built
  obtain rfl := Except.ok.inj built
  rw [Callee.withTargets_eq]
  have finite := decodes_target.list.withDefault (List.forall_mem_nil _) listed
  exact ⟨Callee.finite_withOwnTarget finite, Callee.targets_withOwnTarget _⟩

/-! ## Invocations -/

/-- All numbers of a candidate are finite. -/
structure Invocation.Finite (invocation : Invocation) : Prop where
  callee : invocation.callee.Finite
  probability : invocation.probability.isFinite = true
  relevance : invocation.relevance.isFinite = true

/-- A candidate whose callee has a target. -/
def Invocation.withOwnTarget (invocation : Invocation) : Invocation :=
  { invocation with callee := invocation.callee.withOwnTarget }

instance : ReadableJson Invocation where
  readable invocation := .object (by simp [readable])

/-- The fields of an invocation. -/
def Invocation.spellings (invocation : Invocation) : List FieldSpelling :=
  [.required "callee" invocation.callee.Spelling,
    .required "probability" (Verbatim invocation.probability),
    .required "relevance" (Verbatim invocation.relevance),
    .withDefault "inlining_depth" (Verbatim invocation.depth) invocation.depth 0]

/-- The objects that spell an invocation. -/
def Invocation.Spelling (invocation : Invocation) : Json → Prop := Spells invocation.spellings

theorem Invocation.spelling_toJson (invocation : Invocation) :
    invocation.Spelling (toJson invocation) :=
  Gives.spells
    (.given invocation.callee.spelling_toJson (.given rfl (.given rfl (.given rfl .nil))))

theorem Invocation.readsAs {invocation : Invocation} (finite : invocation.Finite) :
    ReadsAs invocation.Spelling invocation.withOwnTarget := by
  intro value spelling
  refine record_of_spells spelling (show fieldNames.Nodup by decide) fun slots holds => ?_
  simp only [spellings, List.forall_mem_cons] at holds
  obtain ⟨callee, probability, relevance, depth, -⟩ := holds
  rw [ReadsAs.required (Callee.readsAs finite.callee) callee,
    ReadsAs.required (.verbatim (fromJson_toJson_float finite.probability)) probability,
    ReadsAs.required (.verbatim (fromJson_toJson_float finite.relevance)) relevance,
    ReadsAs.withDefault (.verbatim (fromJson_toJson_word invocation.depth)) depth]
  rfl

theorem decodes_invocation :
    Decodes fun invocation : Invocation =>
      invocation.Finite ∧ invocation.callee.targets ≠ [] := by
  intro value invocation decoded
  obtain ⟨fields, built⟩ := fields_of_record decoded
  obtain ⟨callee, calleeGiven, built⟩ := ok_of_bind built
  obtain ⟨probability, probabilityGiven, built⟩ := ok_of_bind built
  obtain ⟨relevance, relevanceGiven, built⟩ := ok_of_bind built
  obtain ⟨depth, -, built⟩ := ok_of_bind built
  obtain rfl := Except.ok.inj built
  obtain ⟨finite, targets⟩ := decodes_callee.required calleeGiven
  exact ⟨⟨finite, decodes_float.required probabilityGiven, decodes_float.required relevanceGiven⟩,
    targets⟩

end InlinePolicy
