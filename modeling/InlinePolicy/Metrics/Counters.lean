import Std.Data.ExtTreeMap

/-!
# Counters

Counters have names and come into being when they are first added to.  They wrap at `2^64`.
-/

namespace InlinePolicy

/-- The values of the counters that have been added to. -/
structure Counters where
  table : Std.ExtTreeMap String UInt64 := ∅

namespace Counters

/-- Adds to a counter, which starts at zero. -/
def add (counters : Counters) (name : String) (delta : UInt64) : Counters :=
  ⟨counters.table.alter name fun value => some (value.getD 0 + delta)⟩

/-- Adds one to a counter. -/
def increment (counters : Counters) (name : String) : Counters := counters.add name 1

/-- The value of a counter, zero if it has never been added to. -/
def get (counters : Counters) (name : String) : UInt64 := counters.table[name]?.getD 0

/-- The counters that have been added to, with their values, in order of their names. -/
def snapshot (counters : Counters) : List (String × UInt64) := counters.table.toList

@[simp] theorem get_empty (name : String) : ({} : Counters).get name = 0 := by simp [get]

theorem get_add (counters : Counters) (name other : String) (delta : UInt64) :
    (counters.add name delta).get other =
      if name = other then counters.get other + delta else counters.get other := by
  unfold add get
  rw [Std.ExtTreeMap.getElem?_alter]
  by_cases h : name = other
  · subst h
    simp
  · simp [h, Std.LawfulEqCmp.compare_eq_iff_eq]

end Counters

end InlinePolicy
