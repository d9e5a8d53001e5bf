import InlinePolicy.Binary64

/-!
# Thresholds

A `Config` holds the thresholds that the inlining policy consults.  It is resolved once per
compilation unit, before any decision is made.
-/

namespace InlinePolicy

/-- The thresholds of the policy. -/
structure Config where
  /-- Inline every candidate, whatever its size. -/
  inlineEverything : Bool := false
  /-- The size of the caller graph, in nodes, at which inlining stops for the unit. -/
  maximumDesiredSize : UInt64 := 20000
  /-- The size bound of a callee before bonus and relevance scale it. -/
  maximumInliningSize : UInt64 := 300
  /-- Callees below this size are always cheap enough. -/
  trivialInliningSize : UInt64 := 10
  /-- The largest previous compilation of a callee; zero or less means no limit. -/
  smallCompiledSize : Int64 := 300
  /-- The largest summed probability of the calls in a callee; zero or less means no limit. -/
  limitInlinedInvokes : Float := 5.0
deriving DecidableEq

namespace Config

/-- The limit on the previous compilation of a callee, if there is one. -/
def previousSizeLimit (c : Config) : Option Float :=
  if 0 < c.smallCompiledSize then some (Binary64.ofSignedWord c.smallCompiledSize) else none

/-- The limit on the summed probability of the calls in a callee, if there is one. -/
def invokeProbabilityLimit (c : Config) : Option Float :=
  if 0.0 < c.limitInlinedInvokes then some c.limitInlinedInvokes else none

end Config

end InlinePolicy
