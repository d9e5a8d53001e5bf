import Mathlib
import InlinePolicy.Decision.Json
import InlinePolicy.Proofs.Candidate.Json

/-!
# Decisions read back

A context, a decision and a trace are read back from their JSON texts with the finite numbers of
the context and without the others (`readsBack_traces`).
-/

namespace InlinePolicy

open Json

variable {α : Type}

/-! ## Reading back -/

/-- What the JSON texts of a type say about its values: reading one back gives the part of the
value that a text can express, which is the value itself exactly if it is `Expressible`, and
expressible values have texts of their own. -/
structure ReadsBack (α : Type) [ToJson α] [FromJson α] (part : α → α) (Expressible : α → Prop) :
    Prop where
  compact (a : α) : decode (toJson a).compact = .ok (part a)
  pretty (a : α) : decode (toJson a).pretty = .ok (part a)
  part_eq_iff (a : α) : part a = a ↔ Expressible a
  compact_inj {a b : α} : Expressible a → Expressible b →
    (toJson a).compact = (toJson b).compact → a = b
  pretty_inj {a b : α} : Expressible a → Expressible b →
    (toJson a).pretty = (toJson b).pretty → a = b

/-- Values that are their own part are told apart by what is read back from them. -/
theorem ReadsBack.of_fromJson [ToJson α] [FromJson α] [ReadableJson α] {part : α → α}
    {Expressible : α → Prop} (decoded : ∀ a, fromJson (toJson a) = .ok (part a))
    (part_eq_iff : ∀ a, part a = a ↔ Expressible a) : ReadsBack α part Expressible := by
  have compact (a : α) : decode (toJson a).compact = .ok (part a) :=
    (decode_compact (readable a)).trans (decoded a)
  have pretty (a : α) : decode (toJson a).pretty = .ok (part a) :=
    (decode_pretty (readable a)).trans (decoded a)
  refine ⟨compact, pretty, part_eq_iff, fun {a b} ha hb same => ?_, fun {a b} ha hb same => ?_⟩
  · have parts := (compact a).symm.trans ((congrArg decode same).trans (compact b))
    rw [(part_eq_iff a).2 ha, (part_eq_iff b).2 hb] at parts
    exact Except.ok.inj parts
  · have parts := (pretty a).symm.trans ((congrArg decode same).trans (pretty b))
    rw [(part_eq_iff a).2 ha, (part_eq_iff b).2 hb] at parts
    exact Except.ok.inj parts

/-! ## Reasons -/

instance : ReadableJson Reason := ⟨fun reason => .string reason.name⟩

theorem fromJson_toJson_reason (reason : Reason) : fromJson (toJson reason) = .ok reason := by
  cases reason <;> rfl

/-! ## Contexts -/

/-- The numbers of a context that may be infinite or none at all. -/
def Context.floats (c : Context) : List Float :=
  [c.relevance, c.probability, c.bonus, c.invokeProbability, c.maximumNodes].filterMap id

/-- All numbers of a context are finite. -/
def Context.Finite (c : Context) : Prop := ∀ x ∈ c.floats, x.isFinite = true

/-- A context without the numbers that are not finite. -/
def Context.finitePart (c : Context) : Context :=
  { c with
    relevance := c.relevance.filter Float.isFinite
    probability := c.probability.filter Float.isFinite
    bonus := c.bonus.filter Float.isFinite
    invokeProbability := c.invokeProbability.filter Float.isFinite
    maximumNodes := c.maximumNodes.filter Float.isFinite }

theorem filter_eq_self_iff {p : α → Bool} {o : Option α} :
    o.filter p = o ↔ ∀ a, some a = o → p a = true := by
  cases o <;> simp [Option.filter]

theorem Context.finitePart_eq_iff (c : Context) : c.finitePart = c ↔ c.Finite := by
  have each : c.finitePart = c ↔ c.relevance.filter Float.isFinite = c.relevance ∧
      c.probability.filter Float.isFinite = c.probability ∧
      c.bonus.filter Float.isFinite = c.bonus ∧
      c.invokeProbability.filter Float.isFinite = c.invokeProbability ∧
      c.maximumNodes.filter Float.isFinite = c.maximumNodes := by
    obtain ⟨_, _, _, _, _, _, _, _, _⟩ := c
    simp [finitePart]
  rw [each]
  simp only [filter_eq_self_iff, Finite, floats]
  simp [or_imp, forall_and]

instance : ReadableJson Context where
  readable c := readable_presentMembers (by
    simp only [List.forall_mem_cons]
    exact ⟨readable_of_mem_map, readable_of_mem_map, readable_of_mem_map, readable_of_mem_map,
      readable_of_mem_map, readable_of_mem_map, readable_of_mem_map, readable_of_mem_map,
      readable_of_mem_map, List.forall_mem_nil _⟩)

theorem fromJson_toJson_context (c : Context) : fromJson (toJson c) = .ok c.finitePart := by
  refine record_of_presentMembers (show Context.fieldNames.Nodup by decide) fun slots given => ?_
  simp only [List.forall_mem_cons] at given
  obtain ⟨relevance, probability, bonus, nodes, previousSize, invokeProbability, maximumNodes,
    graphNodes, maximumDesiredSize, -⟩ := given
  rw [withDefault_float relevance, withDefault_float probability, withDefault_float bonus,
    withDefault_word nodes, withDefault_word previousSize, withDefault_float invokeProbability,
    withDefault_float maximumNodes, withDefault_word graphNodes,
    withDefault_word maximumDesiredSize]
  rfl

/-! ## Decisions and traces -/

/-- All numbers of a decision are finite. -/
def Decision.Finite (d : Decision) : Prop := d.context.Finite

/-- A decision without the numbers that are not finite. -/
def Decision.finitePart (d : Decision) : Decision := { d with context := d.context.finitePart }

theorem Decision.finitePart_eq_iff (d : Decision) : d.finitePart = d ↔ d.Finite := by
  obtain ⟨accepted, reason, context⟩ := d
  rw [Finite, ← Context.finitePart_eq_iff, finitePart, Decision.mk.injEq]
  simp

instance : ReadableJson Decision where
  readable d := .object (by simp [Decision.members, readable])

/-- A decision is read from any object that has its members. -/
theorem fromJson_object_decision {members : List (String × Json)} (distinct : DistinctNames members)
    {d : Decision} (has : d.members ⊆ members) :
    fromJson (.object members) = .ok d.finitePart := by
  refine record_of_members distinct fun slots given => ?_
  have given (member) (mem : member ∈ d.members) := given member (has mem)
  simp only [Decision.members, List.forall_mem_cons] at given
  obtain ⟨accepted, reason, context, -⟩ := given
  rw [required_of_given accepted (fromJson_toJson_bool d.accepted),
    required_of_given reason (fromJson_toJson_reason d.reason),
    required_of_given context (fromJson_toJson_context d.context)]
  rfl

theorem fromJson_toJson_decision (d : Decision) : fromJson (toJson d) = .ok d.finitePart := by
  have distinct : DistinctNames d.members := show Decision.fieldNames.Nodup by decide
  exact fromJson_object_decision distinct (List.Subset.refl d.members)

/-- All numbers of a trace are finite. -/
def Trace.Finite (t : Trace) : Prop := t.decision.Finite

/-- A trace without the numbers that are not finite. -/
def Trace.finitePart (t : Trace) : Trace := { t with decision := t.decision.finitePart }

theorem Trace.finitePart_eq_iff (t : Trace) : t.finitePart = t ↔ t.Finite := by
  obtain ⟨callee, callSite, depth, fullyProcessed, decision⟩ := t
  rw [Finite, ← Decision.finitePart_eq_iff, finitePart, Trace.mk.injEq]
  simp

instance : ReadableJson Trace where
  readable t := .object (by simp [readable])

theorem fromJson_toJson_trace (t : Trace) : fromJson (toJson t) = .ok t.finitePart := by
  refine record_of_members (show Trace.fieldNames.Nodup by decide) fun slots given => ?_
  simp only [List.forall_mem_cons] at given
  obtain ⟨callee, callSite, depth, fullyProcessed, decision, -⟩ := given
  rw [nullable_of_given callee (fromJson_toJson_option_self fromJson_toJson_some_string t.callee),
    nullable_of_given callSite
      (fromJson_toJson_option_self fromJson_toJson_some_callSite t.callSite),
    required_of_given depth (fromJson_toJson_word t.depth),
    required_of_given fullyProcessed (fromJson_toJson_bool t.fullyProcessed),
    required_of_given decision (fromJson_toJson_decision t.decision)]
  rfl

/-- Whatever its numbers are, a trace, a decision or a context is read back with those that are
finite; so the texts of traces whose numbers are finite tell them apart. -/
theorem readsBack_traces :
    ReadsBack Trace Trace.finitePart Trace.Finite ∧
    ReadsBack Decision Decision.finitePart Decision.Finite ∧
    ReadsBack Context Context.finitePart Context.Finite :=
  ⟨.of_fromJson fromJson_toJson_trace Trace.finitePart_eq_iff,
    .of_fromJson fromJson_toJson_decision Decision.finitePart_eq_iff,
    .of_fromJson fromJson_toJson_context Context.finitePart_eq_iff⟩

end InlinePolicy
