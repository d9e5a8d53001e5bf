import InlinePolicy.Binary64
import InlinePolicy.Config.Basic
import InlinePolicy.Decision.Basic
import InlinePolicy.Intrinsics
import InlinePolicy.Scorer

/-!
# The greedy policy

The policy decides whether a unit may still grow (`checkBudget`), and whether a call is worth
inlining (`Policy.evaluate`).  The latter asks seven rules in a fixed order, and the first one that
has an opinion settles the decision:

1. a switch accepts every call;
2. intrinsic callees are accepted;
3. callees that must be inlined are accepted;
4. callees whose previous compilation was too large are rejected;
5. trivial callees are accepted;
6. callees whose own calls are too probable are rejected, once those calls have been looked at;
7. otherwise the callee must not exceed a bound that grows with the relevance of the call.

From the fourth rule on, every threshold is multiplied by the bonus of the callee.
-/

namespace InlinePolicy

/-- The decision to stop a unit whose graph has reached its maximum size. -/
def Config.checkBudget (config : Config) (graphNodes : UInt64) : Option Decision :=
  if config.maximumDesiredSize ≤ graphNodes then
    some {
      accepted := false
      reason := .maximumDesiredSize
      context :=
        { graphNodes := some graphNodes, maximumDesiredSize := some config.maximumDesiredSize } }
  else none

/-- What the policy asks about a callee. -/
structure Policy where
  scorer : Scorer
  isIntrinsic : Callee → Bool

namespace Policy

/-- The policy that scores by profiles and knows the given intrinsics. -/
def ofProfile (scorer : ProfileScorer) (intrinsics : Intrinsics) : Policy :=
  ⟨scorer.toScorer, intrinsics.isIntrinsic⟩

/-- The size of the callee's previous compilation, if it is above the limit. -/
def oversizedPrevious (policy : Policy) (config : Config) (callee : Callee) : Option UInt64 :=
  match config.previousSizeLimit, policy.scorer.previousSize callee with
  | some limit, some size =>
    if limit * policy.scorer.bonus callee < size.toFloat then some size else none
  | _, _ => none

/-- Whether the callee is below the trivial size. -/
def isTrivial (policy : Policy) (config : Config) (callee : Callee) : Bool :=
  callee.nodeCount.toFloat < config.trivialInliningSize.toFloat * policy.scorer.bonus callee

/-- The summed probability of the calls in the callee, if it is above the limit. -/
def excessiveInvokes (policy : Policy) (config : Config) (callee : Callee) : Option Float :=
  match config.invokeProbabilityLimit with
  | some limit =>
    let invokes := policy.scorer.invokeProbability callee
    if limit * policy.scorer.bonus callee < invokes then some invokes else none
  | none => none

/-- The bound on the callee's size, from a whole number of nodes. -/
def maximumNodes (policy : Policy) (config : Config) (invocation : Invocation) : Float :=
  policy.scorer.maximumSize invocation.relevance
    (Binary64.trunc (config.maximumInliningSize.toFloat * policy.scorer.bonus invocation.callee))

/-- The numbers that the rules from the fourth one on have in common. -/
def context (policy : Policy) (invocation : Invocation) : Context where
  relevance := some invocation.relevance
  probability := some invocation.probability
  bonus := some (policy.scorer.bonus invocation.callee)
  nodes := some invocation.callee.nodeCount

/-- Whether a call is worth inlining.  The callee is `fullyProcessed` when its own calls have been
looked at. -/
def evaluate (policy : Policy) (config : Config) (invocation : Invocation)
    (fullyProcessed : Bool) : Decision :=
  let callee := invocation.callee
  let context := policy.context invocation
  if config.inlineEverything then
    { accepted := true, reason := .inlineEverything }
  else if policy.isIntrinsic callee then
    { accepted := true, reason := .intrinsic }
  else if callee.forceInline then
    { accepted := true, reason := .forcedInlining }
  else if let some size := policy.oversizedPrevious config callee then
    { accepted := false
      reason := .tooLargePreviousGraph
      context := { context with previousSize := some size } }
  else if policy.isTrivial config callee then
    { accepted := true, reason := .trivialSize, context }
  else if let some invokes :=
      if fullyProcessed then policy.excessiveInvokes config callee else none then
    { accepted := false
      reason := .invokeProbabilityTooHigh
      context := { context with invokeProbability := some invokes } }
  else
    let maximum := policy.maximumNodes config invocation
    { accepted := callee.nodeCount.toFloat ≤ maximum
      reason := .relevanceBased
      context := { context with maximumNodes := some maximum } }

/-- The trace of the decision about a call. -/
def trace (policy : Policy) (config : Config) (invocation : Invocation) (depth : UInt64)
    (fullyProcessed : Bool) : Trace where
  callee := some invocation.callee.name
  callSite := some invocation.callee.callSite
  depth := depth
  fullyProcessed := fullyProcessed
  decision := policy.evaluate config invocation fullyProcessed

/-- The traces of the decisions about independent calls of one unit, each at its own depth. -/
def traces (policy : Policy) (config : Config) (candidates : List Invocation)
    (fullyProcessed : Bool) : List Trace :=
  candidates.map fun candidate => policy.trace config candidate candidate.depth fullyProcessed

end Policy

end InlinePolicy
