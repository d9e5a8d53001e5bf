import InlinePolicy.Proofs.Config.Fields

/-!
# Layers of overrides

Lookups may be applied one after the other.  In the end each field has the last value that is
supplied for it, or the one that it had at first (`get_overrideAll`), so the fields do not influence
each other and malformed texts have no effect at all (`overrideAll_layers`).
-/

namespace InlinePolicy.Config

/-- The configuration after overrides by lookups, one after the other. -/
def overrideAll (config : Config) (lookups : List Lookup) : Config :=
  lookups.foldl (fun config lookup => (config.override lookup).1) config

/-- The last value that lookups supply for a field. -/
def Field.lastSupplied? (field : Field) (lookups : List Lookup) : Option field.Value :=
  (lookups.filterMap field.supplied?).getLast?

/-- A lookup without its malformed texts. -/
def wellFormed (lookup : Lookup) : Lookup := fun name =>
  if ∃ field ∈ Field.all, field.variableName = name ∧ (field.malformed? lookup).isSome then none
  else lookup name

variable {lookups lookups' : List Lookup}

/-- What one override does to a field, a run of them does with the last value. -/
theorem get_overrideAll (field : Field) (config : Config) (lookups : List Lookup) :
    field.get (config.overrideAll lookups) =
      (field.lastSupplied? lookups).getD (field.get config) := by
  induction lookups generalizing config with
  | nil => rfl
  | cons lookup lookups ih =>
    refine (ih (config.override lookup).1).trans ?_
    rw [get_override, Field.lastSupplied?, Field.lastSupplied?, List.filterMap_cons]
    cases field.supplied? lookup with
    | none => rfl
    | some value =>
      rw [List.getLast?_cons]
      rfl

theorem overrideAll_congr
    (same : ∀ field : Field, field.lastSupplied? lookups = field.lastSupplied? lookups')
    (config : Config) : config.overrideAll lookups = config.overrideAll lookups' :=
  ext_get fun field => by rw [get_overrideAll, get_overrideAll, same field]

namespace Field

variable (field : Field)

theorem lastSupplied?_append (lookups lookups' : List Lookup) :
    field.lastSupplied? (lookups ++ lookups') =
      (field.lastSupplied? lookups').or (field.lastSupplied? lookups) := by
  simp only [lastSupplied?, List.filterMap_append, List.getLast?_append]

/-- Only the texts of its own variable matter for a field. -/
theorem lastSupplied?_congr
    (same : lookups.map (fun lookup => lookup field.variableName) =
      lookups'.map fun lookup => lookup field.variableName) :
    field.lastSupplied? lookups = field.lastSupplied? lookups' := by
  have read (lookups : List Lookup) :
      lookups.filterMap field.supplied? =
        (lookups.map fun lookup => lookup field.variableName).filterMap fun text? =>
          text?.bind fun text => field.read? (Text.trim text.toList) := by
    rw [List.filterMap_map]
    rfl
  rw [lastSupplied?, lastSupplied?, read, read, same]

theorem wellFormed_variableName (lookup : Lookup) :
    wellFormed lookup field.variableName =
      if (field.malformed? lookup).isSome then none else lookup field.variableName := by
  unfold wellFormed
  congr 1
  refine propext ⟨?_, fun malformed => ⟨field, mem_all field, rfl, malformed⟩⟩
  rintro ⟨other, -, same, malformed⟩
  rwa [← variableName_injective same]

theorem supplied?_wellFormed (lookup : Lookup) :
    field.supplied? (wellFormed lookup) = field.supplied? lookup := by
  rw [supplied?, wellFormed_variableName, supplied?, malformed?]
  cases lookup field.variableName with
  | none => rfl
  | some text =>
    cases value : field.read? (Text.trim text.toList) <;> simp [Option.filter, value]

theorem supplied?_eq_none {lookup : Lookup} (unset : lookup field.variableName = none) :
    field.supplied? lookup = none := by
  rw [supplied?, unset, Option.bind_none]

end Field

/-- Whatever lookups are applied, each field ends up with the last well-formed value of its own
variable.  So malformed texts change nothing, a field depends on nothing but itself and its
variable, a repetition changes nothing, and lookups that set different variables commute. -/
theorem overrideAll_layers (config : Config) (lookups : List Lookup) :
    (∀ field : Field, field.get (config.overrideAll lookups) =
      (field.lastSupplied? lookups).getD (field.get config)) ∧
    config.overrideAll (lookups.map wellFormed) = config.overrideAll lookups ∧
    (∀ (field : Field) (config' : Config) (lookups' : List Lookup),
      field.get config = field.get config' →
      lookups.map (fun lookup => lookup field.variableName) =
        lookups'.map (fun lookup => lookup field.variableName) →
      field.get (config.overrideAll lookups) = field.get (config'.overrideAll lookups')) ∧
    (∀ before after : List Lookup,
      config.overrideAll (before ++ lookups ++ lookups ++ after) =
        config.overrideAll (before ++ lookups ++ after)) ∧
    ∀ (first second : Lookup) (after : List Lookup),
      (∀ field : Field, first field.variableName = none ∨ second field.variableName = none) →
      config.overrideAll (lookups ++ first :: second :: after) =
        config.overrideAll (lookups ++ second :: first :: after) := by
  refine ⟨fun field => get_overrideAll field config lookups, ?_, ?_, ?_, ?_⟩
  · refine overrideAll_congr (fun field => ?_) config
    rw [Field.lastSupplied?, List.filterMap_map, Field.lastSupplied?]
    congr 2
    exact funext field.supplied?_wellFormed
  · intro field config' lookups' same sameTexts
    rw [get_overrideAll, get_overrideAll, same, field.lastSupplied?_congr sameTexts]
  · intro before after
    refine overrideAll_congr (fun field => ?_) config
    simp only [Field.lastSupplied?_append]
    cases field.lastSupplied? lookups <;> rfl
  · intro first second after disjoint
    refine overrideAll_congr (fun field => ?_) config
    rw [field.lastSupplied?_append, field.lastSupplied?_append]
    congr 1
    simp only [Field.lastSupplied?, List.filterMap_cons]
    rcases disjoint field with unset | unset
    · rw [field.supplied?_eq_none unset]
    · rw [field.supplied?_eq_none unset]

/-- A malformed size does not hide the one before it, a limit that is not a number does not touch
it, and another limit may be set before or after it. -/
theorem overrideAll_layers_settings :
    let size := Lookup.ofList [(trivialSizeVariable, " 25 ")]
    let malformed := Lookup.ofList [(trivialSizeVariable, "tiny"), (limitInvokesVariable, "NaN")]
    let limit := Lookup.ofList [(limitInvokesVariable, "2.5")]
    (overrideAll {} [size, malformed]).trivialInliningSize = 25 ∧
      (overrideAll {} [size]).trivialInliningSize =
        (overrideAll { limitInlinedInvokes := 0.0 / 0.0 } [size]).trivialInliningSize ∧
      overrideAll {} [malformed, size, limit] = overrideAll {} [malformed, limit, size] := by
  intro size malformed limit
  obtain ⟨each, -⟩ := overrideAll_layers {} [size, malformed]
  obtain ⟨-, -, own, -⟩ := overrideAll_layers {} [size]
  obtain ⟨-, -, -, -, commute⟩ := overrideAll_layers {} [malformed]
  exact ⟨(each .trivialInliningSize).trans (by decide), own .trivialInliningSize _ _ rfl rfl,
    commute size limit [] fun field => by cases field <;> decide⟩

end InlinePolicy.Config
