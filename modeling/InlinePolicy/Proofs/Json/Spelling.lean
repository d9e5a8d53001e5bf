import Mathlib
import InlinePolicy.Proofs.Json.Codec

/-!
# Spellings

A record may be spelled in many ways: the fields stand in any order, members with unknown names may
stand between them, and a field that has its default may be left out (`Spells`).  Its decoder builds
the same from all of them (`record_of_spells`), as each slot holds what the spelling of its field
allows, and nothing else is looked at.
-/

namespace InlinePolicy.Json

variable {α β : Type} {a default : α} {name : String} {value : Json}
  {members given others : List (String × Json)}

/-! ## Values and lists -/

/-- A value is spelled as it is encoded. -/
def Verbatim [ToJson α] (a : α) (value : Json) : Prop := value = toJson a

/-- A list is spelled item by item. -/
inductive Listed (Spelling : α → Json → Prop) (items : List α) : Json → Prop
  | intro {values : List Json} (each : List.Forall₂ Spelling items values) :
    Listed Spelling items (.array values)

/-- Every spelling decodes to the same value. -/
def ReadsAs [FromJson α] (Spelling : Json → Prop) (a : α) : Prop :=
  ∀ value, Spelling value → fromJson value = .ok a

theorem ReadsAs.verbatim [ToJson α] [FromJson α] (decoded : fromJson (toJson a) = .ok a) :
    ReadsAs (Verbatim a) a := by
  rintro _ rfl
  exact decoded

theorem listed_toJson [ToJson α] {Spelling : α → Json → Prop} {items : List α}
    (each : ∀ a ∈ items, Spelling a (toJson a)) : Listed Spelling items (toJson items) := by
  refine .intro ?_
  rw [List.forall₂_map_right_iff, List.forall₂_same]
  exact each

theorem ReadsAs.listed [FromJson β] {Spelling : α → Json → Prop} {items : List α}
    {decoded : α → β} (each : ∀ a ∈ items, ReadsAs (Spelling a) (decoded a)) :
    ReadsAs (Listed Spelling items) (items.map decoded) := by
  rintro _ ⟨spelled⟩
  refine fromJson_array (List.Forall₂.imp ?_ ((List.forall₂_and_left _ _).2 ⟨each, spelled⟩))
  intro a value ⟨reads, spelled⟩
  exact reads value spelled

theorem ReadsAs.listed_self [FromJson α] {Spelling : α → Json → Prop} {items : List α}
    (each : ∀ a ∈ items, ReadsAs (Spelling a) a) : ReadsAs (Listed Spelling items) items := by
  have reads := ReadsAs.listed each
  rwa [List.map_id'] at reads

/-! ## Fields -/

/-- How a field of a record may be spelled. -/
structure FieldSpelling where
  name : String
  /-- The values that it may be given. -/
  Spelling : Json → Prop
  /-- Whether it may be left out. -/
  Omissible : Prop

namespace FieldSpelling

/-- A field that must be given. -/
def required (name : String) (Spelling : Json → Prop) : FieldSpelling := ⟨name, Spelling, False⟩

/-- A field that may be left out if it has its default. -/
def withDefault (name : String) (Spelling : Json → Prop) (a default : α) : FieldSpelling :=
  ⟨name, Spelling, a = default⟩

/-- What the decoder of a record may find in the slot of a field. -/
def Holds (field : FieldSpelling) : Slot → Prop
  | .given value => field.Spelling value
  | .omitted => field.Omissible
  | .beyondEnd => False

end FieldSpelling

section

variable {Spelling : Json → Prop} {slots : Fields}

theorem ReadsAs.required [FromJson α] (reads : ReadsAs Spelling a)
    (holds : (FieldSpelling.required name Spelling).Holds (slots name)) :
    slots.required name = .ok a := by
  unfold Fields.required
  cases slot : slots name with
  | given value =>
    rw [slot] at holds
    exact reads value holds
  | omitted | beyondEnd =>
    rw [slot] at holds
    exact holds.elim

/-- A field whose default is read as the default. -/
theorem ReadsAs.withDefault_of [FromJson β] {b default' : β} (reads : ReadsAs Spelling b)
    (holds : (FieldSpelling.withDefault name Spelling a default).Holds (slots name))
    (omitted : a = default → b = default') : slots.withDefault name default' = .ok b := by
  unfold Fields.withDefault
  cases slot : slots name with
  | given value =>
    rw [slot] at holds
    exact reads value holds
  | omitted =>
    rw [slot] at holds
    rw [omitted holds]
  | beyondEnd =>
    rw [slot] at holds
    exact holds.elim

theorem ReadsAs.withDefault [FromJson α] (reads : ReadsAs Spelling a)
    (holds : (FieldSpelling.withDefault name Spelling a default).Holds (slots name)) :
    slots.withDefault name default = .ok a :=
  reads.withDefault_of holds id

end

/-! ## Records -/

/-- The members that spell some fields in their order, less those that are left out. -/
inductive Gives : List FieldSpelling → List (String × Json) → Prop
  | nil : Gives [] []
  | given {field : FieldSpelling} {fields : List FieldSpelling} {value : Json}
      {members : List (String × Json)} (spelled : field.Spelling value)
      (others : Gives fields members) : Gives (field :: fields) ((field.name, value) :: members)
  | omitted {field : FieldSpelling} {fields : List FieldSpelling}
      {members : List (String × Json)} (omissible : field.Omissible)
      (others : Gives fields members) : Gives (field :: fields) members

/-- The objects that spell a record with the given fields: in any order, and with any members that
have other names. -/
inductive Spells (fields : List FieldSpelling) : Json → Prop
  | intro {given others members : List (String × Json)} (gives : Gives fields given)
      (unknown : ∀ other ∈ others, other.1 ∉ fields.map FieldSpelling.name)
      (order : members.Perm (given ++ others)) : Spells fields (.object members)

variable {fields : List FieldSpelling} {field : FieldSpelling}

theorem Gives.spells (gives : Gives fields members) : Spells fields (.object members) := by
  refine .intro gives (List.forall_mem_nil _) ?_
  rw [List.append_nil]

theorem Gives.map_fst_sublist (gives : Gives fields members) :
    (members.map Prod.fst).Sublist (fields.map FieldSpelling.name) := by
  induction gives with
  | nil => exact List.Sublist.refl []
  | given _ _ ih => exact ih.cons_cons _
  | omitted _ _ ih => exact ih.cons _

/-- A field is given by a member of its own, or else it is left out. -/
theorem Gives.given_or_omitted (gives : Gives fields given)
    (distinct : (fields.map FieldSpelling.name).Nodup) (mem : field ∈ fields) :
    (∃ value, field.Spelling value ∧ (field.name, value) ∈ given) ∨
      field.Omissible ∧ field.name ∉ given.map Prod.fst := by
  induction gives with
  | nil => cases mem
  | @given first fields value members spelled others ih =>
    obtain ⟨fresh, distinct⟩ := List.nodup_cons.1 distinct
    rcases List.mem_cons.1 mem with rfl | mem
    · exact .inl ⟨value, spelled, List.mem_cons_self⟩
    · rcases ih distinct mem with ⟨value, spelled, found⟩ | ⟨omissible, absent⟩
      · exact .inl ⟨value, spelled, List.mem_cons_of_mem _ found⟩
      · refine .inr ⟨omissible, ?_⟩
        rw [List.map_cons, List.mem_cons, not_or]
        have other : field.name ≠ first.name := fun same =>
          fresh (same ▸ List.mem_map_of_mem mem)
        exact ⟨other, absent⟩
  | omitted omissible others ih =>
    obtain ⟨fresh, distinct⟩ := List.nodup_cons.1 distinct
    rcases List.mem_cons.1 mem with rfl | mem
    · exact .inr ⟨omissible, fun found => fresh (others.map_fst_sublist.mem found)⟩
    · exact ih distinct mem

/-- A spelling has at most one member for each field: unknown names may repeat, these may not. -/
theorem givenOnce_of_perm (gives : Gives fields given)
    (distinct : (fields.map FieldSpelling.name).Nodup)
    (unknown : ∀ other ∈ others, other.1 ∉ fields.map FieldSpelling.name)
    (order : members.Perm (given ++ others)) :
    ∀ name ∈ fields.map FieldSpelling.name, givenOnce members name = true := by
  intro name known
  have once : givenOnce given name = true :=
    givenOnce_of_distinct (distinct.sublist gives.map_fst_sublist) name
  have absent : others.countP (fun member => member.1 == name) = 0 := by
    refine List.countP_eq_zero.2 fun other mem same => unknown other mem ?_
    rwa [eq_of_beq same]
  rw [givenOnce] at once ⊢
  rwa [order.countP_eq, List.countP_append, absent, Nat.add_zero]

/-- The decoder of a record builds the same from each of its spellings. -/
theorem record_of_spells {build : Fields → Except Error β} {b : β}
    (spells : Spells fields value) (distinct : (fields.map FieldSpelling.name).Nodup)
    (built : ∀ slots : Fields, (∀ field ∈ fields, field.Holds (slots field.name)) →
      build slots = .ok b) :
    record (fields.map FieldSpelling.name) build value = .ok b := by
  obtain ⟨gives, unknown, order⟩ := spells
  have once := givenOnce_of_perm gives distinct unknown order
  rw [record_object once]
  refine built _ fun field mem => ?_
  have known : field.name ∈ fields.map FieldSpelling.name := List.mem_map_of_mem mem
  rcases gives.given_or_omitted distinct mem with ⟨value, spelled, found⟩ | ⟨omissible, absent⟩
  · rw [slotOfMembers_of_mem (once _ known) (order.mem_iff.2 (List.mem_append_left _ found))]
    exact spelled
  · rw [slotOfMembers_of_not_mem]
    · exact omissible
    · rw [(order.map Prod.fst).mem_iff, List.map_append, List.mem_append, not_or]
      refine ⟨absent, fun found => ?_⟩
      obtain ⟨other, mem, same⟩ := List.mem_map.1 found
      exact unknown other mem (same ▸ known)

end InlinePolicy.Json
