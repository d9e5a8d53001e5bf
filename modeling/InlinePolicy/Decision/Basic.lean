import InlinePolicy.Candidate.Basic

/-!
# Decisions

A `Decision` says whether a call is inlined, which rule settled that, and which numbers the rule
looked at.  A `Trace` is a decision with the place where it was made.
-/

namespace InlinePolicy

/-- The rule that settled a decision. -/
inductive Reason where
  | maximumDesiredSize
  | inlineEverything
  | intrinsic
  | forcedInlining
  | tooLargePreviousGraph
  | trivialSize
  | invokeProbabilityTooHigh
  | relevanceBased
deriving DecidableEq, Repr

namespace Reason

/-- All reasons, in order. -/
def all : List Reason :=
  [.maximumDesiredSize, .inlineEverything, .intrinsic, .forcedInlining, .tooLargePreviousGraph,
    .trivialSize, .invokeProbabilityTooHigh, .relevanceBased]

/-- Reasons are ordered as the budget and the rules are consulted. -/
def rank (reason : Reason) : Nat := reason.ctorIdx

/-- The words that stand for a reason in a report. -/
def tag : Reason → String
  | .maximumDesiredSize => "cut off by maximum desired size"
  | .inlineEverything => "inline everything"
  | .intrinsic => "intrinsic"
  | .forcedInlining => "forced inlining"
  | .tooLargePreviousGraph => "too large previous low-level graph"
  | .trivialSize => "trivial"
  | .invokeProbabilityTooHigh => "callee invoke probability too high"
  | .relevanceBased => "relevance-based"

/-- The name of a reason in data. -/
def name : Reason → String
  | .maximumDesiredSize => "maximum_desired_size"
  | .inlineEverything => "inline_everything"
  | .intrinsic => "intrinsic"
  | .forcedInlining => "forced_inlining"
  | .tooLargePreviousGraph => "too_large_previous_low_level_graph"
  | .trivialSize => "trivial"
  | .invokeProbabilityTooHigh => "invoke_probability_too_high"
  | .relevanceBased => "relevance_based"

/-- The reason with a name. -/
def ofName? (name : String) : Option Reason := all.find? fun reason => reason.name == name

theorem mem_all (reason : Reason) : reason ∈ all := by cases reason <;> decide

theorem rank_injective {r s : Reason} (h : r.rank = s.rank) : r = s := by
  revert h; cases r <;> cases s <;> decide

instance : Ord Reason := ⟨compareOn rank⟩

instance : Std.TransOrd Reason := inferInstanceAs (Std.TransCmp (compareOn rank))

instance : Std.LawfulEqOrd Reason where
  eq_of_compare h := rank_injective (Nat.compare_eq_eq.1 h)

end Reason

/-- The numbers that a rule looked at. -/
structure Context where
  relevance : Option Float := none
  probability : Option Float := none
  bonus : Option Float := none
  nodes : Option UInt64 := none
  previousSize : Option UInt64 := none
  invokeProbability : Option Float := none
  maximumNodes : Option Float := none
  graphNodes : Option UInt64 := none
  maximumDesiredSize : Option UInt64 := none
deriving DecidableEq

/-- The outcome of one query. -/
structure Decision where
  accepted : Bool
  reason : Reason
  context : Context := {}
deriving DecidableEq

/-- A decision and where it was made. -/
structure Trace where
  /-- The name of the callee; none if the decision is about the whole unit. -/
  callee : Option String := none
  callSite : Option CallSite := none
  depth : UInt64 := 0
  fullyProcessed : Bool := false
  decision : Decision
deriving DecidableEq

/-- The trace of a decision about the whole unit. -/
def Trace.unit (decision : Decision) : Trace := { decision }

end InlinePolicy
