/-!
# Candidates

A candidate is a call that may be inlined: an `Invocation` of a `Callee` at a call site, with its
probability, its relevance and the number of inlined frames around it.  A callee has a target for
each method that its call site may dispatch to.
-/

namespace InlinePolicy

/-- The identity of a call site in the graph of the caller. -/
structure CallSite where
  id : UInt64
deriving DecidableEq

/-- The text of a call site. -/
def CallSite.text (site : CallSite) : String := s!"#{site.id}"

/-- A method that a call site may dispatch to. -/
structure Target where
  method : String := ""
  /-- The size of a previous compilation of the method on its own, if there was one. -/
  compiledSize : Option UInt64 := none
  /-- The probability of each call in the method, relative to its entry. -/
  nestedInvokes : List Float := []
deriving DecidableEq

/-- What is known about the callee of a call site. -/
structure Callee where
  name : String
  callSite : CallSite
  /-- The size of the callee's graph. -/
  nodeCount : UInt64
  /-- Whether the callee must be inlined. -/
  forceInline : Bool := false
  /-- The methods that the call site may dispatch to. -/
  targets : List Target := [{ method := name }]
deriving DecidableEq

/-- Whether a call site may dispatch to more than one method. -/
def Callee.isPolymorphic (callee : Callee) : Bool := 1 < callee.targets.length

/-- A call under evaluation. -/
structure Invocation where
  callee : Callee
  /-- The fraction of the caller's executions that reach the call. -/
  probability : Float
  /-- The probability composed along the inlined frames around the call. -/
  relevance : Float
  /-- The number of inlined frames around the call. -/
  depth : UInt64 := 0
deriving DecidableEq

/-- The probabilities of the calls in all targets of a callee, target by target. -/
def Callee.nestedInvokes (callee : Callee) : List Float :=
  callee.targets.flatMap fun target => target.nestedInvokes

end InlinePolicy
