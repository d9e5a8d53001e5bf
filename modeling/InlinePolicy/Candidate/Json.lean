import InlinePolicy.Candidate.Basic
import InlinePolicy.Json.Codec

/-!
# Candidates in JSON

A callee without targets has one target, named after it.
-/

namespace InlinePolicy

open Json

instance : ToJson CallSite := ⟨fun site => toJson site.id⟩

instance : FromJson CallSite := ⟨fun value => CallSite.mk <$> fromJson value⟩

/-! ## Targets -/

/-- The names of a target's fields. -/
def Target.fieldNames : List String := ["method", "compiled_ir_size", "nested_invoke_probabilities"]

instance : ToJson Target where
  toJson target := .object
    [("method", toJson target.method),
      ("compiled_ir_size", toJson target.compiledSize),
      ("nested_invoke_probabilities", toJson target.nestedInvokes)]

instance : FromJson Target where
  fromJson := record Target.fieldNames fun fields => do
    let default : Target := {}
    return {
      method := ← fields.withDefault "method" default.method
      compiledSize := ← fields.withDefault "compiled_ir_size" default.compiledSize
      nestedInvokes := ← fields.withDefault "nested_invoke_probabilities" default.nestedInvokes }

/-! ## Callees -/

/-- The names of a callee's fields. -/
def Callee.fieldNames : List String :=
  ["name", "call_site", "node_count", "force_inline", "targets"]

/-- A callee with the given targets, or with the one it has by default if there are none. -/
def Callee.withTargets (callee : Callee) (targets : List Target) : Callee :=
  if targets.isEmpty then callee else { callee with targets }

instance : ToJson Callee where
  toJson callee := .object
    [("name", toJson callee.name),
      ("call_site", toJson callee.callSite),
      ("node_count", toJson callee.nodeCount),
      ("force_inline", toJson callee.forceInline),
      ("targets", toJson callee.targets)]

instance : FromJson Callee where
  fromJson := record Callee.fieldNames fun fields => do
    let name ← fields.required "name"
    let callSite ← fields.required "call_site"
    let nodeCount ← fields.required "node_count"
    let forceInline ← fields.withDefault "force_inline" false
    let targets ← fields.withDefault "targets" []
    let callee : Callee := { name, callSite, nodeCount, forceInline }
    return callee.withTargets targets

/-! ## Invocations -/

/-- The names of an invocation's fields. -/
def Invocation.fieldNames : List String := ["callee", "probability", "relevance", "inlining_depth"]

instance : ToJson Invocation where
  toJson invocation := .object
    [("callee", toJson invocation.callee),
      ("probability", toJson invocation.probability),
      ("relevance", toJson invocation.relevance),
      ("inlining_depth", toJson invocation.depth)]

instance : FromJson Invocation where
  fromJson := record Invocation.fieldNames fun fields => do
    return {
      callee := ← fields.required "callee"
      probability := ← fields.required "probability"
      relevance := ← fields.required "relevance"
      depth := ← fields.withDefault "inlining_depth" 0 }

end InlinePolicy
