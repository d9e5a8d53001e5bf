import Std.Data.ExtTreeMap
import InlinePolicy.Binary64
import InlinePolicy.Candidate.Basic
import InlinePolicy.Word

/-!
# Scorers

A `Scorer` estimates sizes and frequencies of callees for the policy.  `ProfileScorer` takes them
from the profile that a callee carries and from bonus hints for call sites.
-/

namespace InlinePolicy

/-- Estimates about a callee. -/
structure Scorer where
  /-- The factor on every size threshold. -/
  bonus : Callee → Float
  /-- The size of the callee's previous compilation, if it is known. -/
  previousSize : Callee → Option UInt64
  /-- The summed probability of the calls in the callee. -/
  invokeProbability : Callee → Float
  /-- The size bound for a call of the given relevance, from a bound that does not know it. -/
  maximumSize : Float → Float → Float

/-- Scores from profiles: the bonus of each call site that has one, and the relevance above which
the size bound no longer grows. -/
structure ProfileScorer where
  hints : Std.ExtTreeMap UInt64 Float := ∅
  relevanceCap : Float := 1.0

namespace ProfileScorer

/-- The scorer with the given hints; of several for one call site, the last one holds. -/
def ofHints (hints : List (CallSite × Float)) (relevanceCap : Float) : ProfileScorer :=
  ⟨hints.foldl (fun table (site, bonus) => table.insert site.id bonus) ∅, relevanceCap⟩

/-- The hint for a call site. -/
def hint? (scorer : ProfileScorer) (site : CallSite) : Option Float := scorer.hints[site.id]?

/-- The sizes that count: those that are known and not zero. -/
def knownSizes (callee : Callee) : List UInt64 :=
  (callee.targets.filterMap fun target => target.compiledSize).filter fun size => 0 < size

/-- The sum of the known sizes, or the largest word if that is smaller; none if none is known. -/
def previousSize (callee : Callee) : Option UInt64 :=
  match knownSizes callee with
  | [] => none
  | size :: sizes => some (sizes.foldl Word.saturatingAdd size)

/-- The scorer that the policy sees. -/
def toScorer (scorer : ProfileScorer) : Scorer where
  bonus callee := (scorer.hint? callee.callSite).getD 1.0
  previousSize := previousSize
  invokeProbability callee := Binary64.sum callee.nestedInvokes
  maximumSize relevance base := base * Binary64.lesser relevance scorer.relevanceCap

end ProfileScorer

/-- Scores that do not depend on the callee. -/
structure ConstantScorer where
  bonus : Float
  previous : Option UInt64
  invokes : Float
  /-- The size bound; without it, the bound grows with the relevance up to 1. -/
  maximum : Option Float

/-- The scorer that the policy sees. -/
def ConstantScorer.toScorer (scorer : ConstantScorer) : Scorer where
  bonus _ := scorer.bonus
  previousSize _ := scorer.previous
  invokeProbability _ := scorer.invokes
  maximumSize relevance base := scorer.maximum.getD (base * Binary64.lesser relevance 1.0)

end InlinePolicy
