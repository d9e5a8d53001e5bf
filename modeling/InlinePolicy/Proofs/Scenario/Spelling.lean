import Mathlib
import InlinePolicy.Proofs.Config.Spelling
import InlinePolicy.Proofs.Scenario.Json

/-!
# Inputs in every spelling

What is read from an input does not depend on how the input is spelled: on the order of its fields,
on members with unknown names, and on whether a field that has its default is given
(`reads_every_spelling`).
-/

namespace InlinePolicy

open Json

/-- A callee of which only the required fields are given is the one that is made from them. -/
theorem Callee.spelling_required (name : String) (callSite : CallSite) (nodeCount : UInt64)
    {members : List (String × Json)}
    (order : members.Perm
      [("name", toJson name), ("call_site", toJson callSite), ("node_count", toJson nodeCount)]) :
    Callee.Spelling { name, callSite, nodeCount } (.object members) := by
  refine .intro ?_ (List.forall_mem_nil _) (order.trans (.of_eq (List.append_nil _).symm))
  exact .given rfl (.given rfl (.given rfl (.omitted rfl (.omitted rfl .nil))))

/-- A callee, a candidate or a configuration is read from each of its spellings, which include its
JSON form, and so is a scenario, also from a text if it is valid.  Among the spellings are that of a
callee by its required fields and that of a configuration by some of its fields. -/
theorem reads_every_spelling :
    (∀ config : Config, config.limitInlinedInvokes.isFinite = true →
      config.Spelling (toJson config) ∧ ReadsAs config.Spelling config) ∧
    (∀ callee : Callee, callee.Finite → callee.targets ≠ [] →
      callee.Spelling (toJson callee) ∧ ReadsAs callee.Spelling callee) ∧
    (∀ invocation : Invocation, invocation.Finite → invocation.callee.targets ≠ [] →
      invocation.Spelling (toJson invocation) ∧ ReadsAs invocation.Spelling invocation) ∧
    (∀ scenario : Scenario, scenario.Finite → scenario.HasTargets →
      scenario.Spelling (toJson scenario) ∧ ReadsAs scenario.Spelling scenario ∧
      (scenario.validate = .ok () → ∀ (text : String) (value : Json), parse? text = some value →
        scenario.Spelling value → Scenario.ofText text = .ok scenario)) ∧
    (∀ (name : String) (callSite : CallSite) (nodeCount : UInt64)
      (members : List (String × Json)), members.Perm
        [("name", toJson name), ("call_site", toJson callSite), ("node_count", toJson nodeCount)] →
      fromJson (.object members) = .ok ({ name, callSite, nodeCount } : Callee)) ∧
    (∀ (config : Config) (given : List Config.Field) (others members : List (String × Json)),
      config.limitInlinedInvokes.isFinite = true → given.Nodup →
      (∀ other ∈ others, other.1 ∉ Config.fieldNames) →
      members.Perm (given.map (Config.Field.member config) ++ others) →
      ∃ resolved : Config, fromJson (.object members) = .ok resolved ∧
        ∀ field : Config.Field, field.get resolved =
          if field ∈ given then field.get config else field.get {}) := by
  have callees (callee : Callee) (finite : callee.Finite) (targets : callee.targets ≠ []) :
      ReadsAs callee.Spelling callee := by
    have reads := Callee.readsAs finite
    rwa [Callee.withOwnTarget_eq_self targets] at reads
  refine ⟨?_, ?_, ?_, ?_, ?_, ?_⟩
  · intro config finite
    exact ⟨config.spelling_toJson, Config.readsAs finite⟩
  · intro callee finite targets
    exact ⟨callee.spelling_toJson, callees callee finite targets⟩
  · intro invocation finite targets
    have reads := Invocation.readsAs finite
    rw [Invocation.withOwnTarget, Callee.withOwnTarget_eq_self targets] at reads
    exact ⟨invocation.spelling_toJson, reads⟩
  · intro scenario finite targets
    have reads := Scenario.readsAs finite
    rw [Scenario.normalForm_eq_self targets] at reads
    refine ⟨scenario.spelling_toJson, reads, fun valid text value parsed spelling => ?_⟩
    refine Scenario.ofText_eq_ok_iff.2 ⟨?_, valid⟩
    rw [decode, parsed]
    exact reads value spelling
  · intro name callSite nodeCount members order
    refine callees _ ?_ (List.cons_ne_nil _ _) _ (Callee.spelling_required _ _ _ order)
    exact List.forall_mem_singleton.2 (List.forall_mem_nil _)
  · intro config given others members finite distinct unknown order
    exact ⟨config.replaced given, Config.readsAs (Config.finite_replaced finite given) _
      (Config.spelling_replaced distinct unknown order), Config.get_replaced given config⟩

namespace Callee

/-- A callee with nothing but what every callee has. -/
def plain : Callee := { name := "Map.get", callSite := ⟨7⟩, nodeCount := 64 }

/-- The callee with its fields in reverse, no targets, and a field that no callee has. -/
def plainObject : Json :=
  .object [("loops", toJson (2 : UInt64)), ("targets", .array []),
    ("node_count", toJson (64 : UInt64)), ("call_site", toJson (7 : UInt64)),
    ("name", toJson "Map.get")]

theorem finite_plain : plain.Finite := List.forall_mem_singleton.2 (List.forall_mem_nil _)

theorem spelling_plainObject : plain.Spelling plainObject := by
  have gives : Gives plain.spellings [("name", toJson "Map.get"),
      ("call_site", toJson (7 : UInt64)), ("node_count", toJson (64 : UInt64)),
      ("targets", .array [])] :=
    .given rfl (.given rfl (.given rfl (.omitted rfl (.given (.inr ⟨rfl, rfl⟩) .nil))))
  exact @Spells.intro _ _ [("loops", toJson (2 : UInt64))] _ gives (by decide)
    (List.reverse_perm _).symm

end Callee

namespace Scenario

/-- A call of the callee that nearly always happens. -/
def hotCall : Invocation := { callee := Callee.plain, probability := 0.9, relevance := 0.7 }

/-- The hot call, with a hint. -/
def hot : Scenario where
  hints := [⟨⟨7⟩, 0.5⟩]
  candidates := [hotCall]

/-- The hot call without what it has by default, last fields first, with notes. -/
def hotObject : Json :=
  .object [("note", .null), ("note", toJson "twice"),
    ("candidates", .array [.object [("line", toJson (12 : UInt64)),
      ("relevance", toJson (0.7 : Float)), ("probability", toJson (0.9 : Float)),
      ("callee", Callee.plainObject)]]),
    ("hints", .array [.object [("bonus", toJson (0.5 : Float)),
      ("call_site", toJson (7 : UInt64))]])]

theorem spelling_hotObject : hot.Spelling hotObject := by
  have hint : BonusHint.Spelling ⟨⟨7⟩, 0.5⟩ (.object [("bonus", toJson (0.5 : Float)),
      ("call_site", toJson (7 : UInt64))]) :=
    .intro (.given rfl (.given rfl .nil)) (List.forall_mem_nil _) (List.reverse_perm _).symm
  have candidate : hotCall.Spelling
      (.object [("line", toJson (12 : UInt64)), ("relevance", toJson (0.7 : Float)),
        ("probability", toJson (0.9 : Float)), ("callee", Callee.plainObject)]) :=
    @Spells.intro _ _ [("line", toJson (12 : UInt64))] _
      (.given Callee.spelling_plainObject (.given rfl (.given rfl (.omitted rfl .nil))))
      (by decide) (List.reverse_perm _).symm
  exact @Spells.intro _ _ [("note", toJson "twice"), ("note", .null)] _
    (.omitted rfl (.given (.intro (.cons hint .nil)) (.omitted rfl
      (.given (.intro (.cons candidate .nil)) .nil))))
    (by decide) (List.reverse_perm _).symm

theorem readable_hotObject : hotObject.Readable := by
  have callee : Callee.plainObject.Readable := .object (by simp [readable, Readable.array])
  refine .object ?_
  simp [readable, callee, Readable.null, Readable.array, Readable.object]

theorem finite_hot : hot.Finite where
  hints := by decide
  candidates := List.forall_mem_singleton.2
    { callee := Callee.finite_plain
      probability := by decide
      relevance := by decide }

end Scenario

/-- The hot call is read from the text of its object, the callee from its own, and a configuration
with one field from the object that gives this field. -/
theorem reads_every_spelling_hot :
    Scenario.hot.Finite ∧ Scenario.hot.HasTargets ∧ Scenario.hot.validate = .ok () ∧
      Scenario.hot.Spelling Scenario.hotObject ∧
      Scenario.ofText Scenario.hotObject.compact = .ok Scenario.hot ∧
      fromJson Callee.plainObject = .ok Callee.plain ∧
      fromJson (.object [("trivial_inlining_size", toJson (25 : UInt64))]) =
        .ok ({ trivialInliningSize := 25 } : Config) := by
  obtain ⟨-, callees, -, scenarios, -, configs⟩ := reads_every_spelling
  have targets : Scenario.hot.HasTargets := by
    unfold Scenario.HasTargets
    decide
  have valid : Scenario.hot.validate = .ok () := by decide
  refine ⟨Scenario.finite_hot, targets, valid, Scenario.spelling_hotObject, ?_, ?_, ?_⟩
  · exact (scenarios _ Scenario.finite_hot targets).2.2 valid _ _
      (parse?_compact Scenario.readable_hotObject) Scenario.spelling_hotObject
  · exact (callees Callee.plain Callee.finite_plain (List.cons_ne_nil _ _)).2 _
      Callee.spelling_plainObject
  · obtain ⟨resolved, decoded, values⟩ := configs { trivialInliningSize := 25 }
      [.trivialInliningSize] [] _ (by decide) (List.nodup_singleton _) (List.forall_mem_nil _)
      (.refl _)
    have same : resolved = { trivialInliningSize := 25 } :=
      Config.ext_get fun field => (values field).trans (by cases field <;> rfl)
    exact same ▸ decoded

end InlinePolicy
