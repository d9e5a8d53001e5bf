import InlinePolicy.Decimal.Written
import InlinePolicy.Intrinsics
import InlinePolicy.Scorer

/-!
# Scenarios

A `Scenario` is what one compilation unit has to decide: candidates, bonus hints, intrinsics, and
perhaps the size of the caller's graph.  `Scenario.validate` refuses what the policy relies on not
to occur.
-/

namespace InlinePolicy

/-- The bonus of a call site. -/
structure BonusHint where
  callSite : CallSite
  bonus : Float
deriving DecidableEq

/-- The candidates of one compilation unit. -/
structure Scenario where
  /-- The size of the caller's graph. -/
  graphNodes : Option UInt64 := none
  hints : List BonusHint := []
  /-- The methods that the compiler replaces. -/
  intrinsics : List String := []
  candidates : List Invocation := []
deriving DecidableEq

/-- What is wrong with a scenario. -/
inductive ScenarioError where
  | probability (index : Nat) (callee : String) (value : Float)
  | relevance (index : Nat) (callee : String) (value : Float)
  | bonus (callSite : CallSite)
deriving DecidableEq

namespace ScenarioError

/-- The text of a number in an error. -/
def numberText (x : Float) : String := String.ofList (Decimal.Style.plain.write x)

/-- The text of an error. -/
def message : ScenarioError → String
  | probability index callee value =>
    s!"candidate {index} ({callee}): probability {numberText value} is outside [0, 1]"
  | relevance index callee value =>
    s!"candidate {index} ({callee}): relevance {numberText value} is negative"
  | bonus callSite => s!"bonus for call site {callSite.text} must be positive"

end ScenarioError

/-- A call site that two candidates have. -/
structure RepeatedSite where
  callSite : CallSite
  /-- The last candidate before the second one with this call site. -/
  first : Nat
  second : Nat
deriving DecidableEq

namespace Scenario

/-- What is wrong with a candidate: its probability must be from 0 to 1, and its relevance a number
that is not negative. -/
def candidateError? (index : Nat) (candidate : Invocation) : Option ScenarioError :=
  if ¬ (0.0 ≤ candidate.probability ∧ candidate.probability ≤ 1.0) then
    some (.probability index candidate.callee.name candidate.probability)
  else if candidate.relevance.isNaN ∨ candidate.relevance < 0.0 then
    some (.relevance index candidate.callee.name candidate.relevance)
  else none

/-- What is wrong with a hint: its bonus must be positive. -/
def hintError? (hint : BonusHint) : Option ScenarioError :=
  if 0.0 < hint.bonus then none else some (.bonus hint.callSite)

/-- The first thing that is wrong: with a candidate, or else with a hint. -/
def firstError? (scenario : Scenario) : Option ScenarioError :=
  let inCandidates :=
    scenario.candidates.zipIdx.findSome? fun (candidate, index) => candidateError? index candidate
  inCandidates.or (scenario.hints.findSome? hintError?)

/-- A scenario is valid if nothing is wrong with it. -/
def validate (scenario : Scenario) : Except ScenarioError Unit :=
  match scenario.firstError? with
  | some error => .error error
  | none => .ok ()

/-- The candidates before the first one that is wrong. -/
def soundCandidates (scenario : Scenario) : List Invocation :=
  scenario.candidates.takeWhile fun candidate => (candidateError? 0 candidate).isNone

/-- Each call site in a list that occurs before, with the place where it did so last.  `seen` has
the last place of each call site before `index`, where the list starts. -/
def repeatedFrom (seen : Std.ExtTreeMap UInt64 Nat) (index : Nat) :
    List CallSite → List RepeatedSite
  | [] => []
  | site :: sites =>
    let rest := repeatedFrom (seen.insert site.id index) (index + 1) sites
    match seen[site.id]? with
    | some first => { callSite := site, first, second := index } :: rest
    | none => rest

/-- Each candidate whose call site an earlier candidate has, as long as nothing is wrong. -/
def repeatedSites (scenario : Scenario) : List RepeatedSite :=
  repeatedFrom ∅ 0 (scenario.soundCandidates.map fun candidate => candidate.callee.callSite)

/-- The scorer that a scenario describes. -/
def scorer (scenario : Scenario) : ProfileScorer :=
  .ofHints (scenario.hints.map fun hint => (hint.callSite, hint.bonus)) 1.0

/-- The intrinsics that a scenario describes. -/
def registry (scenario : Scenario) : Intrinsics := .ofList scenario.intrinsics

end Scenario

end InlinePolicy
