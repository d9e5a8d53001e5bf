import InlinePolicy.Proofs.Config.Layers

/-!
# Errors and their repair

An error of an override names a variable.  If the limit on the invokes is finite, or the lookup
supplies a finite one, then the errors name different variables that are set, and with these unset
the strict override gives what the lenient one gave before.  Otherwise the limit is an error that no
text caused, and that no unset variable repairs (`override_repairable_iff`).
-/

namespace InlinePolicy

/-- The variable that an error is about. -/
def ConfigError.variable? : ConfigError → Option String
  | .invalidValue name _ => some name
  | .filesDisabled => none

/-- A lookup in which the variables that errors are about are unset. -/
def Lookup.without (lookup : Lookup) (errors : List ConfigError) : Lookup := fun name =>
  if some name ∈ errors.map ConfigError.variable? then none else lookup name

namespace Config

/-- Each error is about a variable that is set, none is about the same one as another, and without
these variables the strict override gives what the lenient one gives with them. -/
structure Repairable (config : Config) (lookup : Lookup) : Prop where
  set : ∀ error ∈ (config.override lookup).2, ∃ (field : Field) (shown text : String),
    error = .invalidValue field.variableName shown ∧ lookup field.variableName = some text
  distinct : ((config.override lookup).2.map ConfigError.variable?).Nodup
  repaired : config.override? (lookup.without (config.override lookup).2) =
    .ok (config.override lookup).1

variable {config : Config} {lookup : Lookup} {error : ConfigError}

/-! ## The variables of the errors -/

theorem Field.error?_eq_some_iff {field : Field} :
    field.error? lookup = some error ↔
      ∃ text, field.malformed? lookup = some text ∧
        error = .invalidValue field.variableName (field.shown text) := by
  rw [Field.error?, Option.map_eq_some_iff]
  simp only [eq_comm]

theorem Field.lookup_of_malformed? {field : Field} {text : String}
    (malformed : field.malformed? lookup = some text) : lookup field.variableName = some text :=
  (Option.filter_eq_some_iff.1 malformed).1

/-- The fields have different variables, and each field has at most one error. -/
theorem nodup_variables (lookup : Lookup) :
    ((Field.all.filterMap fun field => field.error? lookup).map ConfigError.variable?).Nodup := by
  rw [List.map_filterMap]
  refine List.Nodup.filterMap (fun field field' name named named' => ?_) (by decide)
  obtain ⟨error, raised, rfl⟩ := Option.map_eq_some_iff.1 named
  obtain ⟨error', raised', same⟩ := Option.map_eq_some_iff.1 named'
  obtain ⟨text, -, rfl⟩ := Field.error?_eq_some_iff.1 raised
  obtain ⟨text', -, rfl⟩ := Field.error?_eq_some_iff.1 raised'
  exact Field.variableName_injective (Option.some.inj same).symm

/-- A limit that is an error of its own has no readable text in the lookup. -/
theorem lookup_limit_of_inheritedError? (inherited : config.inheritedError? lookup = some error)
    (wellFormed : (Field.limitInlinedInvokes.malformed? lookup).isSome = false) :
    lookup limitInvokesVariable = none := by
  cases set : lookup limitInvokesVariable with
  | none => rfl
  | some text =>
    rw [inheritedError?, set, Option.bind_some] at inherited
    rw [Field.malformed?, Field.variableName, set] at wellFormed
    cases read : Text.readNumber? (Text.trim text.toList) with
    | none => simp [Option.filter, Field.read?, read] at wellFormed
    | some limit => simp [read] at inherited

/-- Leaving the variables of all errors unset leaves exactly the malformed texts out. -/
theorem without_errors (config : Config) (lookup : Lookup) :
    lookup.without (config.override lookup).2 = wellFormed lookup := by
  funext name
  rw [Lookup.without, wellFormed, errors_override_eq_append]
  by_cases malformed :
      ∃ field ∈ Field.all, field.variableName = name ∧ (field.malformed? lookup).isSome
  · obtain ⟨field, mem, rfl, isSome⟩ := id malformed
    obtain ⟨text, found⟩ := Option.isSome_iff_exists.1 isSome
    have raised : ConfigError.invalidValue field.variableName (field.shown text) ∈
        Field.all.filterMap fun field => field.error? lookup :=
      List.mem_filterMap.2 ⟨field, mem, Field.error?_eq_some_iff.2 ⟨text, found, rfl⟩⟩
    rw [if_pos malformed]
    exact if_pos (List.mem_map.2 ⟨_, List.mem_append_left _ raised, rfl⟩)
  · rw [if_neg malformed]
    refine ite_eq_right_iff.2 fun named => ?_
    obtain ⟨error, listed, about⟩ := List.mem_map.1 named
    rcases List.mem_append.1 listed with listed | listed
    · obtain ⟨field, mem, raised⟩ := List.mem_filterMap.1 listed
      obtain ⟨text, found, rfl⟩ := Field.error?_eq_some_iff.1 raised
      exact absurd ⟨field, mem, Option.some.inj about, Option.isSome_of_eq_some found⟩ malformed
    · have inherited := Option.mem_toList.1 listed
      obtain rfl := Option.some.inj (Option.ite_none_left_eq_some.1 inherited).2
      obtain rfl : limitInvokesVariable = name := Option.some.inj about
      refine (lookup_limit_of_inheritedError? inherited ?_).symm
      exact Bool.eq_false_of_not_eq_true fun isSome =>
        malformed ⟨.limitInlinedInvokes, Field.mem_all _, rfl, isSome⟩

/-! ## Without the malformed texts -/

theorem error?_wellFormed (field : Field) (lookup : Lookup) :
    field.error? (wellFormed lookup) = none := by
  rw [Field.error?, Field.malformed?, Field.wellFormed_variableName]
  cases malformed : field.malformed? lookup with
  | some text => rfl
  | none =>
    rw [Field.malformed?] at malformed
    rw [Option.isSome_none, if_neg Bool.false_ne_true, malformed, Option.map_none]

/-- A number that is left without the malformed texts is a finite one. -/
theorem isSome_limit_wellFormed (lookup : Lookup) :
    ((wellFormed lookup limitInvokesVariable).bind fun text =>
        Text.readNumber? (Text.trim text.toList)).isSome =
      (Field.limitInlinedInvokes.supplied? lookup).isSome := by
  have set := Field.wellFormed_variableName .limitInlinedInvokes lookup
  rw [Field.variableName] at set
  rw [set, Field.malformed?, Field.supplied?, Field.variableName]
  cases lookup limitInvokesVariable with
  | none => rfl
  | some text =>
    cases read : Text.readNumber? (Text.trim text.toList) with
    | none => simp [Option.filter, Field.read?, read]
    | some limit =>
      cases finite : limit.isFinite <;> simp [Option.filter, Field.read?, read, finite]

theorem override_wellFormed (config : Config) (lookup : Lookup) :
    config.override (wellFormed lookup) =
      ((config.override lookup).1,
        if config.limitInlinedInvokes.isFinite ∨
            (Field.limitInlinedInvokes.supplied? lookup).isSome then []
        else [.invalidValue limitInvokesVariable (limitText config.limitInlinedInvokes)]) := by
  refine Prod.ext (ext_get fun field => ?_) ?_
  · rw [get_override, get_override, Field.supplied?_wellFormed]
  · rw [errors_override_eq_append, List.filterMap_eq_nil_iff.2 fun field _ =>
      error?_wellFormed field lookup, List.nil_append, inheritedError?, isSome_limit_wellFormed]
    split_ifs <;> rfl

/-! ## Repair -/

theorem inheritedError?_eq_none (limited : config.limitInlinedInvokes.isFinite = true ∨
    (Field.limitInlinedInvokes.supplied? lookup).isSome = true) :
    config.inheritedError? lookup = none := by
  refine if_pos (limited.imp id fun supplied => ?_)
  obtain ⟨limit, given⟩ := Option.isSome_iff_exists.1 supplied
  obtain ⟨text, set, read⟩ := Option.bind_eq_some_iff.1 given
  rw [Field.variableName] at set
  rw [set, Option.bind_some]
  exact Option.isSome_of_eq_some (Option.filter_eq_some_iff.1 read).1

theorem repaired_iff : config.override? (lookup.without (config.override lookup).2) =
      .ok (config.override lookup).1 ↔
    config.limitInlinedInvokes.isFinite = true ∨
      (Field.limitInlinedInvokes.supplied? lookup).isSome = true := by
  rw [override?_eq_ok_iff, without_errors, override_wellFormed, and_iff_left rfl]
  split_ifs with limited
  · exact iff_of_true rfl limited
  · exact iff_of_false not_false limited

theorem repairable_of_limited (limited : config.limitInlinedInvokes.isFinite = true ∨
    (Field.limitInlinedInvokes.supplied? lookup).isSome = true) : config.Repairable lookup := by
  have errors : (config.override lookup).2 =
      Field.all.filterMap fun field => field.error? lookup := by
    rw [errors_override_eq_append, inheritedError?_eq_none limited, Option.toList_none,
      List.append_nil]
  refine ⟨fun error listed => ?_, ?_, repaired_iff.2 limited⟩
  · rw [errors] at listed
    obtain ⟨field, -, raised⟩ := List.mem_filterMap.1 listed
    obtain ⟨text, malformed, rfl⟩ := Field.error?_eq_some_iff.1 raised
    exact ⟨field, _, text, rfl, Field.lookup_of_malformed? malformed⟩
  · rw [errors]
    exact nodup_variables lookup

/-- A lookup that sets no variable has no malformed texts. -/
theorem errors_override_of_unset (config : Config)
    (unset : ∀ field : Field, lookup field.variableName = none) :
    (config.override lookup).2 = if config.limitInlinedInvokes.isFinite then []
      else [.invalidValue limitInvokesVariable (limitText config.limitInlinedInvokes)] := by
  have none_set : wellFormed lookup = lookup := by
    funext name
    refine ite_eq_right_iff.2 ?_
    rintro ⟨field, -, rfl, -⟩
    exact (unset field).symm
  have overridden := congrArg Prod.snd (override_wellFormed config lookup)
  rw [none_set, Field.supplied?_eq_none _ (unset .limitInlinedInvokes)] at overridden
  simpa using overridden

/-- The errors of an override can be repaired if and only if the limit is finite or the lookup
supplies a finite one.  In particular a lookup that sets no variable gives no error if the limit is
finite, and otherwise one, about a variable that is not set. -/
theorem override_repairable_iff (config : Config) (lookup : Lookup) :
    (config.Repairable lookup ↔ config.limitInlinedInvokes.isFinite = true ∨
      (Field.limitInlinedInvokes.supplied? lookup).isSome = true) ∧
    ((∀ field : Field, lookup field.variableName = none) →
      (config.override lookup).2 = if config.limitInlinedInvokes.isFinite then []
        else [.invalidValue limitInvokesVariable (limitText config.limitInlinedInvokes)]) := by
  refine ⟨⟨fun repairable => ?_, repairable_of_limited⟩, errors_override_of_unset config⟩
  exact repaired_iff.1 repairable.repaired

/-- Two malformed texts and a limit in place of one that is no number, and no text at all. -/
theorem override_repairable_settings :
    let malformed := Lookup.ofList [(trivialSizeVariable, "tiny"), (limitInvokesVariable, " 2.5 "),
      (maximumInliningSizeVariable, "-1")]
    ({ limitInlinedInvokes := 0.0 / 0.0 } : Config).Repairable malformed ∧
      (({ limitInlinedInvokes := -1.0 } : Config).override fun _ => none).2 = [] := by
  intro malformed
  obtain ⟨repairable, -⟩ := override_repairable_iff { limitInlinedInvokes := 0.0 / 0.0 } malformed
  obtain ⟨-, unset⟩ := override_repairable_iff { limitInlinedInvokes := -1.0 } fun _ => none
  exact ⟨repairable.2 (.inr (by decide)), (unset fun _ => rfl).trans (if_pos (by decide))⟩

/-- A configuration without a limit on the invokes gives an error about a variable that is not set,
so that the strict override fails whatever variables are left out. -/
theorem not_repairable_of_infinite :
    let unlimited : Config := { limitInlinedInvokes := 1.0 / 0.0 }
    let unset := Lookup.ofList []
    (∀ name, unset name = none) ∧
      (unlimited.override unset).2 = [.invalidValue limitInvokesVariable "inf"] ∧
      unlimited.override? unset = .error (.invalidValue limitInvokesVariable "inf") ∧
      ¬ unlimited.Repairable unset := by
  intro unlimited unset
  have errors : (unlimited.override unset).2 = [.invalidValue limitInvokesVariable "inf"] := by
    decide
  refine ⟨fun _ => rfl, errors, by decide, fun repairable => ?_⟩
  obtain ⟨field, shown, text, -, set⟩ := repairable.set _ (errors ▸ List.mem_singleton_self _)
  cases set

end Config

end InlinePolicy
