import InlinePolicy.Binary64
import InlinePolicy.Candidate.Basic
import InlinePolicy.Word

/-!
# Chains of invocations

An invocation is either in the method that is being compiled (`Invocation.root`) or in the body of
an invocation that has been inlined (`Invocation.nestedIn`).  Probabilities multiply along a chain.
-/

namespace InlinePolicy

/-- Why a call is no candidate. -/
inductive ChainError where
  | probabilityOutOfRange
  | negativeRelevance
  /-- The depth of the call does not fit a word. -/
  | depthOverflow
deriving DecidableEq, Repr

/-- The text of an error. -/
def ChainError.message : ChainError → String
  | .probabilityOutOfRange => "probability out of range"
  | .negativeRelevance => "negative relevance"
  | .depthOverflow => Word.overflowMessage

namespace Invocation

/-- A probability is a number from 0 to 1, and a relevance is at least 0. -/
def checkRange (probability relevance : Float) : Except ChainError Unit :=
  if ¬ (0.0 ≤ probability ∧ probability ≤ 1.0) then .error .probabilityOutOfRange
  else if ¬ 0.0 ≤ relevance then .error .negativeRelevance
  else .ok ()

/-- A call in the method that is being compiled. -/
def root (callee : Callee) (probability relevance : Float) : Except ChainError Invocation := do
  checkRange probability relevance
  return { callee, probability, relevance }

/-- A call in the body of `parent`'s callee.  The relevance that it inherits is at most 1, so that
a hot parent does not make its children hotter than they are. -/
def nestedIn (parent : Invocation) (callee : Callee) (probability relevance : Float) :
    Except ChainError Invocation := do
  checkRange probability relevance
  match Word.add? parent.depth 1 with
  | some depth =>
    return {
      callee
      probability := parent.probability * probability
      relevance := Binary64.lesser parent.relevance 1.0 * relevance
      depth }
  | none => throw .depthOverflow

end Invocation

end InlinePolicy
