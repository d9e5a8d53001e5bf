import InlinePolicy.Config.Basic
import InlinePolicy.Json.Codec

/-!
# Configurations in JSON

Every field of a configuration may be missing; it then has its default.
-/

namespace InlinePolicy.Config

open Json

/-- The names of the fields. -/
def fieldNames : List String :=
  ["inline_everything", "maximum_desired_size", "maximum_inlining_size", "trivial_inlining_size",
    "small_compiled_low_level_graph_size", "limit_inlined_invokes"]

instance : ToJson Config where
  toJson c := .object
    [("inline_everything", toJson c.inlineEverything),
      ("maximum_desired_size", toJson c.maximumDesiredSize),
      ("maximum_inlining_size", toJson c.maximumInliningSize),
      ("trivial_inlining_size", toJson c.trivialInliningSize),
      ("small_compiled_low_level_graph_size", toJson c.smallCompiledSize),
      ("limit_inlined_invokes", toJson c.limitInlinedInvokes)]

instance : FromJson Config where
  fromJson := record fieldNames fun fields => do
    let default : Config := {}
    return {
      inlineEverything := ← fields.withDefault "inline_everything" default.inlineEverything
      maximumDesiredSize := ← fields.withDefault "maximum_desired_size" default.maximumDesiredSize
      maximumInliningSize := ←
        fields.withDefault "maximum_inlining_size" default.maximumInliningSize
      trivialInliningSize := ←
        fields.withDefault "trivial_inlining_size" default.trivialInliningSize
      smallCompiledSize := ←
        fields.withDefault "small_compiled_low_level_graph_size" default.smallCompiledSize
      limitInlinedInvokes := ←
        fields.withDefault "limit_inlined_invokes" default.limitInlinedInvokes }

end InlinePolicy.Config
