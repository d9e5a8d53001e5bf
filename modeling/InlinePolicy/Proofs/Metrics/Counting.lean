import InlinePolicy.Proofs.Metrics.Scheduling
import InlinePolicy.Proofs.Text.ByteOrder

/-!
# Counting

Counters are added to by name, one by one, and cleared together.  What they hold is told by the
additions since the last clearing: each counter is the sum of its additions modulo `2 ^ 64`, and a
counter is listed once it has been added to, be it zero (`run_sums`).  An addition finds its counter
or has to make it first (`Step`), which makes no difference (`step_iff`).
-/

namespace InlinePolicy.Counters

/-! ## Operations -/

/-- What can be done with counters. -/
inductive Operation where
  | increment (name : String)
  | add (name : String) (delta : UInt64)
  | clear
deriving DecidableEq

/-- The counters after an operation. -/
def perform (counters : Counters) : Operation → Counters
  | .increment name => counters.increment name
  | .add name delta => counters.add name delta
  | .clear => {}

/-- One operation.  An addition looks for its counter and adds to it.  If it was not found, it is
made at zero, unless that has been done in the meantime, and then added to. -/
inductive Step (counters : Counters) : Operation → Counters → Prop
  | found {name : String} {delta value : UInt64} (here : counters.table[name]? = some value) :
    Step counters (.add name delta) ⟨counters.table.insert name (value + delta)⟩
  | made (name : String) (delta : UInt64) :
    Step counters (.add name delta)
      ⟨(counters.table.insertIfNew name 0).modify name (· + delta)⟩
  | increment {name : String} {next : Counters} (step : Step counters (.add name 1) next) :
    Step counters (.increment name) next
  | clear : Step counters .clear {}

/-- A run of operations on new counters. -/
inductive Run : List Operation → Counters → Prop
  | start : Run [] {}
  | step {ops : List Operation} {op : Operation} {counters next : Counters}
      (run : Run ops counters) (step : Step counters op next) : Run (ops ++ [op]) next

theorem getElem?_add (counters : Counters) (name other : String) (delta : UInt64) :
    (counters.add name delta).table[other]? =
      if name = other then some (counters.get other + delta) else counters.table[other]? := by
  unfold add get
  rw [Std.ExtTreeMap.getElem?_alter]
  simp only [Std.LawfulEqCmp.compare_eq_iff_eq]
  split_ifs with same
  · rw [same]
  · rfl

theorem eq_of_getElem? {counters counters' : Counters}
    (same : ∀ name : String, counters.table[name]? = counters'.table[name]?) :
    counters = counters' :=
  congrArg Counters.mk (Std.ExtTreeMap.ext_getElem? same)

theorem found_eq_add {counters : Counters} {name : String} {value : UInt64}
    (here : counters.table[name]? = some value) (delta : UInt64) :
    ⟨counters.table.insert name (value + delta)⟩ = counters.add name delta := by
  refine eq_of_getElem? fun other => ?_
  rw [getElem?_add, Std.ExtTreeMap.getElem?_insert]
  simp only [Std.LawfulEqCmp.compare_eq_iff_eq]
  split_ifs with same
  · rw [← same, get, here, Option.getD_some]
  · rfl

/-- It may be that the counter is there already. -/
theorem made_eq_add (counters : Counters) (name : String) (delta : UInt64) :
    ⟨(counters.table.insertIfNew name 0).modify name (· + delta)⟩ = counters.add name delta := by
  refine eq_of_getElem? fun other => ?_
  rw [getElem?_add, Std.ExtTreeMap.getElem?_modify, Std.ExtTreeMap.getElem?_insertIfNew,
    Std.ExtTreeMap.getElem?_insertIfNew]
  simp only [Std.LawfulEqCmp.compare_eq_iff_eq]
  by_cases same : name = other
  · subst same
    simp only [Std.ExtTreeMap.mem_iff_isSome_getElem?, get, if_true, true_and]
    cases counters.table[name]? <;> rfl
  · rw [if_neg same, if_neg same, if_neg fun made => same made.1]

theorem step_iff {counters next : Counters} {op : Operation} :
    Step counters op next ↔ next = counters.perform op := by
  constructor
  · intro step
    induction step with
    | found here => exact found_eq_add here _
    | made name delta => exact made_eq_add counters name delta
    | increment _ ih => exact ih
    | clear => rfl
  · rintro rfl
    have made (name : String) (delta : UInt64) :
        Step counters (.add name delta) (counters.add name delta) :=
      made_eq_add counters name delta ▸ .made name delta
    cases op with
    | increment name => exact .increment (made name 1)
    | add name delta => exact made name delta
    | clear => exact .clear

theorem run_iff {ops : List Operation} {counters : Counters} :
    Run ops counters ↔ counters = ops.foldl perform {} := by
  constructor
  · intro run
    induction run with
    | start => rfl
    | step _ step ih => rw [List.foldl_concat, ← ih, step_iff.1 step]
  · rintro rfl
    induction ops using List.reverseRecOn with
    | nil => exact .start
    | append_singleton ops op ih =>
      rw [List.foldl_concat]
      exact ih.step (step_iff.2 rfl)

/-! ## Sums of additions -/

/-- The counter that an operation adds to, and how much. -/
def Operation.addition? : Operation → Option (String × UInt64)
  | .increment name => some (name, 1)
  | .add name delta => some (name, delta)
  | .clear => none

/-- The additions since the last clearing. -/
def additions (ops : List Operation) : List (String × UInt64) :=
  (ops.rtakeWhile fun op => op ≠ .clear).filterMap Operation.addition?

/-- The exact sum of what is added to a counter. -/
def sumOf (additions : List (String × UInt64)) (name : String) : ℕ :=
  ((additions.filter fun addition => addition.1 = name).map fun addition => addition.2.toNat).sum

/-- New counters after additions. -/
def ofAdditions (additions : List (String × UInt64)) : Counters :=
  additions.foldl (fun counters addition => counters.add addition.1 addition.2) {}

theorem ofAdditions_concat (additions : List (String × UInt64)) (name : String) (delta : UInt64) :
    ofAdditions (additions ++ [(name, delta)]) = (ofAdditions additions).add name delta :=
  List.foldl_concat ..

theorem additions_concat_clear (ops : List Operation) : additions (ops ++ [.clear]) = [] := by
  rw [additions, List.rtakeWhile_concat_neg _ _ _ (by simp), List.filterMap_nil]

theorem additions_concat {op : Operation} {addition : String × UInt64}
    (adds : op.addition? = some addition) (ops : List Operation) :
    additions (ops ++ [op]) = additions ops ++ [addition] := by
  have uncleared : op ≠ .clear := by
    rintro rfl
    cases adds
  rw [additions, List.rtakeWhile_concat_pos _ _ _ (by simpa using uncleared),
    List.filterMap_append, List.filterMap_cons_some adds, List.filterMap_nil, additions]

theorem foldl_perform (ops : List Operation) :
    ops.foldl perform {} = ofAdditions (additions ops) := by
  induction ops using List.reverseRecOn with
  | nil => rfl
  | append_singleton ops op ih =>
    rw [List.foldl_concat, ih]
    cases op with
    | increment name =>
      rw [additions_concat rfl, ofAdditions_concat]
      rfl
    | add name delta =>
      rw [additions_concat rfl, ofAdditions_concat]
      rfl
    | clear =>
      rw [additions_concat_clear]
      rfl

theorem sumOf_concat (additions : List (String × UInt64)) (name other : String)
    (delta : UInt64) :
    sumOf (additions ++ [(name, delta)]) other =
      sumOf additions other + if name = other then delta.toNat else 0 := by
  rw [sumOf, List.filter_append, List.map_append, List.sum_append, ← sumOf]
  by_cases same : name = other <;> simp [same]

/-- A counter that has not been added to has the sum zero. -/
theorem get_ofAdditions (additions : List (String × UInt64)) (name : String) :
    (ofAdditions additions).get name = .ofNat (sumOf additions name) := by
  induction additions using List.reverseRecOn with
  | nil => exact get_empty name
  | append_singleton additions addition ih =>
    obtain ⟨other, delta⟩ := addition
    rw [ofAdditions_concat, get_add, sumOf_concat, ih]
    split_ifs with same
    · rw [UInt64.ofNat_add, UInt64.ofNat_toNat]
    · rfl

theorem getElem?_ofAdditions (additions : List (String × UInt64)) (name : String) :
    (ofAdditions additions).table[name]? =
      if name ∈ additions.map Prod.fst then some (.ofNat (sumOf additions name)) else none := by
  induction additions using List.reverseRecOn with
  | nil => simp [ofAdditions]
  | append_singleton additions addition ih =>
    obtain ⟨other, delta⟩ := addition
    rw [ofAdditions_concat, getElem?_add, get_ofAdditions, ih, sumOf_concat]
    by_cases same : other = name
    · simp [same, UInt64.ofNat_add]
    · simp [same, Ne.symm same]

/-- The additions may come in any order. -/
theorem ofAdditions_eq_of_perm {additions additions' : List (String × UInt64)}
    (order : additions'.Perm additions) : ofAdditions additions' = ofAdditions additions :=
  order.foldl_eq' (fun first _ second _ counters =>
    Counters.add_comm counters first.1 second.1 first.2 second.2) {}

/-! ## What the additions say -/

/-- What counters say about the additions that they have received. -/
structure Sums (additions : List (String × UInt64)) (counters : Counters) : Prop where
  get (name : String) : (counters.get name).toNat = sumOf additions name % 2 ^ 64
  ordered : (counters.snapshot.map fun entry => Text.bytes entry.1).Pairwise (· < ·)
  names (name : String) :
    name ∈ counters.snapshot.map Prod.fst ↔ name ∈ additions.map Prod.fst
  values : ∀ entry ∈ counters.snapshot, entry.2 = counters.get entry.1

theorem ordered_snapshot (counters : Counters) :
    (counters.snapshot.map fun entry => Text.bytes entry.1).Pairwise (· < ·) := by
  rw [List.pairwise_map]
  refine Std.ExtTreeMap.ordered_keys_toList.imp fun before => ?_
  exact Text.bytes_lt_bytes (compare_lt_iff_lt.1 before)

theorem sums_ofAdditions (additions : List (String × UInt64)) :
    Sums additions (ofAdditions additions) where
  get name := by
    rw [get_ofAdditions]
    exact UInt64.toNat_ofNat'
  ordered := ordered_snapshot _
  names name := by
    rw [snapshot, Std.ExtTreeMap.map_fst_toList_eq_keys, Std.ExtTreeMap.mem_keys,
      Std.ExtTreeMap.mem_iff_isSome_getElem?, getElem?_ofAdditions]
    split_ifs with added
    · exact iff_of_true rfl added
    · exact iff_of_false Bool.false_ne_true added
  values entry mem := by
    have found := Std.ExtTreeMap.mem_toList_iff_getElem?_eq_some.1 mem
    rw [Counters.get, found, Option.getD_some]

/-- Whichever way its additions take, a run ends in the same counters.  They are the sums of what
has been added since the last clearing, whatever the order. -/
theorem run_sums (ops : List Operation) :
    (∀ counters, Run ops counters ↔ counters = ops.foldl perform {}) ∧
    Sums (additions ops) (ops.foldl perform {}) ∧
    ∀ ops', (additions ops').Perm (additions ops) →
      ops'.foldl perform {} = ops.foldl perform {} := by
  refine ⟨fun counters => run_iff, ?_, fun ops' order => ?_⟩
  · rw [foldl_perform]
    exact sums_ofAdditions _
  · rw [foldl_perform, foldl_perform]
    exact ofAdditions_eq_of_perm order

/-- A counter that comes round to zero and one that only zero is added to, after a clearing, and the
same additions in another order. -/
theorem run_sums_wrapped :
    let ops : List Operation :=
      [.add "Calls" 3, .clear, .add "Odd" 18446744073709551615, .add "Even" 0, .increment "Odd"]
    let ops' : List Operation :=
      [.increment "Odd", .add "Odd" 18446744073709551615, .add "Even" 0]
    Run ops (ops.foldl perform {}) ∧
    (ops.foldl perform {}).snapshot = [("Even", 0), ("Odd", 0)] ∧
    ((ops.foldl perform {}).get "Odd").toNat = (18446744073709551615 + 1) % 2 ^ 64 ∧
    ops'.foldl perform {} = ops.foldl perform {} := by
  intro ops ops'
  obtain ⟨runs, sums, orders⟩ := run_sums ops
  have order : (additions ops').Perm (additions ops) := by decide
  exact ⟨(runs _).2 rfl, by decide, sums.get "Odd", orders ops' order⟩

end InlinePolicy.Counters
