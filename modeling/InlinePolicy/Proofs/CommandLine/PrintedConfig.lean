import InlinePolicy.Proofs.CommandLine.Resolution
import InlinePolicy.Proofs.Config.Spelling

/-!
# Printed configurations

A configuration is read back from its text if its limit on the invokes is finite, and only then: the
text of any other limit is `null`, which is no number (`fromJson_toJson_config`).  An override never
makes that limit infinite (`finite_override`), so whatever the program prints as its configuration
is read back (`decode_printed`).
-/

namespace InlinePolicy

open Json CommandLine

namespace Config

instance : ReadableJson Config where
  readable config := by
    refine .object ?_
    simp only [List.forall_mem_cons, List.not_mem_nil, false_imp_iff, implies_true, and_true]
    exact ⟨readable config.inlineEverything, readable config.maximumDesiredSize,
      readable config.maximumInliningSize, readable config.trivialInliningSize,
      readable config.smallCompiledSize, readable config.limitInlinedInvokes⟩

/-- A limit that is not finite has the form `null`, and there is nothing else wrong. -/
theorem fromJson_toJson_infinite {config : Config}
    (infinite : config.limitInlinedInvokes.isFinite = false) :
    fromJson (α := Config) (toJson config) = .error .mismatch := by
  have distinct : DistinctNames (Field.all.map (Field.member config)) := by
    change (Field.all.map Field.memberName).Nodup
    decide
  let slots : Fields := slotOfMembers (Field.all.map (Field.member config))
  have given (field : Field) : slots field.memberName = .given (toJson (field.get config)) :=
    slotOfMembers_of_mem (givenOnce_of_distinct distinct _) (List.mem_map_of_mem field.mem_all)
  have inlineEverything : slots "inline_everything" = .given (toJson config.inlineEverything) :=
    given .inlineEverything
  have maximumDesiredSize :
      slots "maximum_desired_size" = .given (toJson config.maximumDesiredSize) :=
    given .maximumDesiredSize
  have maximumInliningSize :
      slots "maximum_inlining_size" = .given (toJson config.maximumInliningSize) :=
    given .maximumInliningSize
  have trivialInliningSize :
      slots "trivial_inlining_size" = .given (toJson config.trivialInliningSize) :=
    given .trivialInliningSize
  have smallCompiledSize :
      slots "small_compiled_low_level_graph_size" = .given (toJson config.smallCompiledSize) :=
    given .smallCompiledSize
  have limitInlinedInvokes : slots "limit_inlined_invokes" = .given .null := by
    have lost : toJson config.limitInlinedInvokes = .null := dif_neg (by simp [infinite])
    exact (given .limitInlinedInvokes).trans (congrArg Slot.given lost)
  change record fieldNames _ (.object (Field.all.map (Field.member config))) = _
  rw [record_object fun name _ => givenOnce_of_distinct distinct name]
  dsimp only
  rw [withDefault_of_given inlineEverything, withDefault_of_given maximumDesiredSize,
    withDefault_of_given maximumInliningSize, withDefault_of_given trivialInliningSize,
    withDefault_of_given smallCompiledSize, withDefault_of_given limitInlinedInvokes,
    fromJson_toJson_bool, fromJson_toJson_word, fromJson_toJson_word, fromJson_toJson_word,
    fromJson_toJson_signedWord]
  rfl

/-- Only a limit without a finite value gets lost. -/
theorem fromJson_toJson_config (config : Config) :
    fromJson (toJson config) =
      if config.limitInlinedInvokes.isFinite then .ok config else .error .mismatch := by
  split_ifs with finite
  · exact readsAs finite _ (spelling_toJson config)
  · exact fromJson_toJson_infinite (Bool.eq_false_of_not_eq_true finite)

variable {config resolved : Config} {lookup : Lookup}

/-! ## Finite limits -/

theorem finite_override (finite : config.limitInlinedInvokes.isFinite = true) (lookup : Lookup) :
    (config.override lookup).1.limitInlinedInvokes.isFinite = true := by
  rw [limit_override]
  cases supplied : Field.limitInlinedInvokes.supplied? lookup with
  | none => exact finite
  | some limit =>
    obtain ⟨text, -, read⟩ := Option.bind_eq_some_iff.1 supplied
    exact (Option.filter_eq_some_iff.1 read).2

theorem finite_override? (finite : config.limitInlinedInvokes.isFinite = true)
    (succeeds : config.override? lookup = .ok resolved) :
    resolved.limitInlinedInvokes.isFinite = true := by
  obtain ⟨-, rfl⟩ := override?_eq_ok_iff.1 succeeds
  exact finite_override finite lookup

end Config

/-! ## Printed output -/

namespace CommandLine

variable {options : ConfigOptions} {resolved : Config} {ignored : List ConfigError}

/-- What the program prints for its configuration is that configuration. -/
theorem decode_of_resolves (world : World)
    (resolves : resolveConfig world.environment options = .ok (resolved, ignored)) :
    ∃ output, (run world (.config options)).result = .ok output ∧
      decode output = .ok resolved := by
  refine ⟨(toJson resolved).pretty ++ "\n", ?_, ?_⟩
  · rw [run, withConfig, resolves]
    rfl
  · have finite : resolved.limitInlinedInvokes.isFinite = true := by
      rw [eq_override_of_resolves resolves]
      exact Config.finite_override (by decide) world.environment
    rw [decode_pretty_line (readable resolved), Config.fromJson_toJson_config, if_pos finite]

end CommandLine

/-- A configuration is read back from its text if its limit is finite, and else does not fit.  The
limit is finite in each configuration that the defaults and a lookup give, strictly or not.  So a
run that is asked for its configuration prints a text that gives the same configuration, and with it
the same limits, unless it fails to resolve one: for a file, or strictly for a malformed text. -/
theorem decode_printed :
    (∀ config : Config, ∀ text ∈ [(toJson config).compact, (toJson config).pretty],
      decode text =
        if config.limitInlinedInvokes.isFinite then .ok config else .error .mismatch) ∧
    (∀ lookup : Lookup, (({} : Config).override lookup).1.limitInlinedInvokes.isFinite = true) ∧
    (∀ (lookup : Lookup) (resolved : Config), ({} : Config).override? lookup = .ok resolved →
      resolved.limitInlinedInvokes.isFinite = true) ∧
    ∀ (world : World) (options : ConfigOptions),
      (∃ failure, resolveConfig world.environment options = .error failure ∧
        (run world (.config options)).result = .error failure ∧
        (options.file = none → options.strict = true ∧ ∃ error,
          ({} : Config).override? world.environment = .error error ∧
            failure = .override error)) ∨
      ∃ resolved ignored output,
        resolveConfig world.environment options = .ok (resolved, ignored) ∧
          resolved = (({} : Config).override world.environment).1 ∧
          (run world (.config options)).result = .ok output ∧ decode output = .ok resolved := by
  have finite : ({} : Config).limitInlinedInvokes.isFinite = true := by decide
  refine ⟨fun config => ?_, Config.finite_override finite,
    fun lookup resolved => Config.finite_override? finite, fun world options => ?_⟩
  · rw [List.forall_mem_cons, List.forall_mem_singleton, decode_compact (readable config),
      decode_pretty (readable config)]
    exact ⟨config.fromJson_toJson_config, config.fromJson_toJson_config⟩
  · cases resolves : resolveConfig world.environment options with
    | error failure =>
      refine .inl ⟨failure, rfl, ?_, fun default => cause_of_unresolved default resolves⟩
      rw [run, withConfig, resolves]
      rfl
    | ok result =>
      obtain ⟨output, printed, read⟩ := decode_of_resolves world resolves
      exact .inr ⟨result.1, result.2, output, rfl, eq_override_of_resolves resolves, printed,
        read⟩

/-- An infinite limit is an error, or else is ignored, and then the default is printed.  One that
is finite is accepted strictly. -/
theorem decode_printed_limits :
    let world := World.ofSettings [(Config.limitInvokesVariable, "inf")]
    let small := Lookup.ofList [(Config.limitInvokesVariable, "75e-2")]
    let error := ConfigError.invalidValue Config.limitInvokesVariable "inf"
    ({} : Config).override? world.environment = .error error ∧
      (run world (.config { strict := true })).result = .error (.override error) ∧
      (∃ output, (run world (.config {})).result = .ok output ∧
        decode output = .ok ({} : Config)) ∧
      ∃ resolved : Config, ({} : Config).override? small = .ok resolved ∧
        resolved.limitInlinedInvokes.isFinite = true := by
  intro world small error
  have rejected : ({} : Config).override? world.environment = .error error := by decide
  have default : (({} : Config).override world.environment).1 = {} := by decide
  have accepted : ({} : Config).override? small = .ok { limitInlinedInvokes := 0.75 } := by decide
  obtain ⟨-, -, strict, prints⟩ := decode_printed
  refine ⟨rejected, ?_, ?_, _, accepted, strict small _ accepted⟩
  · rcases prints world { strict := true } with ⟨failure, -, fails, cause⟩ |
      ⟨resolved, ignored, output, resolves, -⟩
    · obtain ⟨-, error', rejected', rfl⟩ := cause rfl
      obtain rfl := Except.error.inj (rejected.symm.trans rejected')
      exact fails
    · have accepts := ((resolveConfig_strict_eq_ok_iff rfl rfl).1 resolves).1
      cases rejected.symm.trans accepts
  · rcases prints world {} with ⟨failure, -, -, cause⟩ |
      ⟨resolved, ignored, output, -, overridden, printed, read⟩
    · cases (cause rfl).1
    · rw [overridden, default] at read
      exact ⟨output, printed, read⟩

end InlinePolicy
