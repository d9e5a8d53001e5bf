import InlinePolicy.Config.Json
import InlinePolicy.Proofs.Config.Fields
import InlinePolicy.Proofs.Json.Spelling

/-!
# Configurations read back

A configuration with a finite limit is read back from each of its spellings (`readsAs`).  An object
that gives only some fields spells the default configuration with these fields replaced
(`spelling_replaced`).
-/

namespace InlinePolicy.Config

open Json

namespace Field

/-- The name of the member that gives a field. -/
def memberName : Field → String
  | inlineEverything => "inline_everything"
  | maximumDesiredSize => "maximum_desired_size"
  | maximumInliningSize => "maximum_inlining_size"
  | trivialInliningSize => "trivial_inlining_size"
  | smallCompiledSize => "small_compiled_low_level_graph_size"
  | limitInlinedInvokes => "limit_inlined_invokes"

instance : (field : Field) → ToJson field.Value
  | inlineEverything => inferInstanceAs (ToJson Bool)
  | maximumDesiredSize | maximumInliningSize | trivialInliningSize =>
    inferInstanceAs (ToJson UInt64)
  | smallCompiledSize => inferInstanceAs (ToJson Int64)
  | limitInlinedInvokes => inferInstanceAs (ToJson Float)

/-- The member that gives a field of a configuration. -/
def member (config : Config) (field : Field) : String × Json :=
  (field.memberName, toJson (field.get config))

/-- A field may be left out if it has its default. -/
def spelling (config : Config) (field : Field) : FieldSpelling :=
  .withDefault field.memberName (Verbatim (field.get config)) (field.get config) (field.get {})

end Field

variable (config : Config) {given fields : List Field} {members others : List (String × Json)}

/-- The objects that spell a configuration. -/
def Spelling : Json → Prop := Spells (Field.all.map (Field.spelling config))

theorem spelling_toJson : config.Spelling (toJson config) :=
  Gives.spells (.given rfl (.given rfl (.given rfl (.given rfl (.given rfl (.given rfl .nil))))))

variable {config}

theorem readsAs (finite : config.limitInlinedInvokes.isFinite = true) :
    ReadsAs config.Spelling config := by
  intro value spelling
  refine record_of_spells spelling (show fieldNames.Nodup by decide) fun slots holds => ?_
  simp only [Field.all, List.map_cons, List.forall_mem_cons, Field.spelling, Field.memberName,
    Field.get] at holds
  obtain ⟨inlineEverything, maximumDesiredSize, maximumInliningSize, trivialInliningSize,
    smallCompiledSize, limitInlinedInvokes, -⟩ := holds
  dsimp only
  rw [ReadsAs.withDefault (.verbatim (fromJson_toJson_bool config.inlineEverything))
      inlineEverything,
    ReadsAs.withDefault (.verbatim (fromJson_toJson_word config.maximumDesiredSize))
      maximumDesiredSize,
    ReadsAs.withDefault (.verbatim (fromJson_toJson_word config.maximumInliningSize))
      maximumInliningSize,
    ReadsAs.withDefault (.verbatim (fromJson_toJson_word config.trivialInliningSize))
      trivialInliningSize,
    ReadsAs.withDefault (.verbatim (fromJson_toJson_signedWord config.smallCompiledSize))
      smallCompiledSize,
    ReadsAs.withDefault (.verbatim (fromJson_toJson_float finite)) limitInlinedInvokes]
  rfl

/-! ## Some of the fields -/

/-- The configuration with the given values. -/
def ofValues (values : (field : Field) → field.Value) : Config where
  inlineEverything := values .inlineEverything
  maximumDesiredSize := values .maximumDesiredSize
  maximumInliningSize := values .maximumInliningSize
  trivialInliningSize := values .trivialInliningSize
  smallCompiledSize := values .smallCompiledSize
  limitInlinedInvokes := values .limitInlinedInvokes

@[simp]
theorem get_ofValues (values : (field : Field) → field.Value) (field : Field) :
    field.get (ofValues values) = values field := by
  cases field <;> rfl

/-- The default configuration in which some fields have the values that they have in another. -/
def replaced (given : List Field) (config : Config) : Config :=
  ofValues fun field => if field ∈ given then field.get config else field.get {}

theorem get_replaced (given : List Field) (config : Config) (field : Field) :
    field.get (config.replaced given) =
      if field ∈ given then field.get config else field.get {} :=
  get_ofValues _ field

theorem finite_replaced (finite : config.limitInlinedInvokes.isFinite = true)
    (given : List Field) : (config.replaced given).limitInlinedInvokes.isFinite = true := by
  have limit : (config.replaced given).limitInlinedInvokes =
      if .limitInlinedInvokes ∈ given then config.limitInlinedInvokes else 5.0 :=
    get_replaced given config .limitInlinedInvokes
  rw [limit]
  split_ifs
  · exact finite
  · decide

/-- The fields that are not given are left out. -/
theorem gives_replaced (config : Config) (given fields : List Field) :
    Gives (fields.map (Field.spelling (config.replaced given)))
      ((fields.filter (· ∈ given)).map (Field.member config)) := by
  induction fields with
  | nil => exact .nil
  | cons field fields ih =>
    have value := get_replaced given config field
    by_cases mem : field ∈ given
    · rw [if_pos mem] at value
      rw [List.filter_cons_of_pos (by simpa using mem)]
      refine .given ?_ ih
      exact congrArg toJson value.symm
    · rw [if_neg mem] at value
      rw [List.filter_cons_of_neg (by simpa using mem)]
      exact .omitted value ih

/-- An object that gives only some fields spells the default with these fields replaced. -/
theorem spelling_replaced (distinct : given.Nodup)
    (unknown : ∀ other ∈ others, other.1 ∉ fieldNames)
    (order : members.Perm (given.map (Field.member config) ++ others)) :
    (config.replaced given).Spelling (.object members) := by
  have same : given.Perm (Field.all.filter (· ∈ given)) := by
    refine (List.perm_ext_iff_of_nodup distinct (List.Nodup.filter _ (by decide))).2 fun field => ?_
    simp [Field.mem_all]
  exact .intro (gives_replaced config given Field.all) unknown
    (order.trans ((same.map (Field.member config)).append_right others))

end InlinePolicy.Config
