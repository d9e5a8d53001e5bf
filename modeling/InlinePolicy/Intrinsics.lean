import Std.Data.ExtTreeSet
import InlinePolicy.Candidate.Basic

/-!
# Intrinsics

The methods that the compiler replaces by code of its own.
-/

namespace InlinePolicy

/-- A set of methods with a replacement. -/
structure Intrinsics where
  methods : Std.ExtTreeSet String := ∅

namespace Intrinsics

/-- The set of the given methods. -/
def ofList (methods : List String) : Intrinsics :=
  ⟨methods.foldl (fun set m => set.insert m) ∅⟩

/-- Whether a method has a replacement. -/
def contains (intrinsics : Intrinsics) (method : String) : Bool :=
  intrinsics.methods.contains method

/-- The number of methods. -/
def size (intrinsics : Intrinsics) : Nat := intrinsics.methods.size

/-- Whether no method has a replacement. -/
def isEmpty (intrinsics : Intrinsics) : Bool := intrinsics.methods.isEmpty

/-- Adds a method, and says whether it is new. -/
def register (intrinsics : Intrinsics) (method : String) : Bool × Intrinsics :=
  (!intrinsics.contains method, ⟨intrinsics.methods.insert method⟩)

/-- A callee is intrinsic if each of its targets has a replacement, as otherwise some calls would
still be made, and if it has a target at all. -/
def isIntrinsic (intrinsics : Intrinsics) (callee : Callee) : Bool :=
  !callee.targets.isEmpty && callee.targets.all fun target => intrinsics.contains target.method

end Intrinsics

end InlinePolicy
