import Mathlib
import InlinePolicy.Proofs.Policy.Rules

/-!
# Registering intrinsics

A set of intrinsics starts from a collection of names and takes up others one by one.  It always
holds the names that were given, whether collected or registered, and each of them once (`Holds`),
so that the answers to registrations, the size and the test of a callee can all be read off the
names alone (`registerAll_accounts`).  As no name is ever given up, an intrinsic callee stays one.
-/

namespace InlinePolicy.Intrinsics

/-! ## One registration -/

/-- A set of intrinsics holds the names of a list, in which some may be repeated. -/
structure Holds (intrinsics : Intrinsics) (names : List String) : Prop where
  contains (method : String) : intrinsics.contains method = true ↔ method ∈ names
  size : intrinsics.size = names.toFinset.card

theorem holds_empty : ({} : Intrinsics).Holds [] where
  contains method := by simp [contains]
  size := Std.ExtTreeSet.size_empty

theorem contains_register (intrinsics : Intrinsics) (method other : String) :
    (intrinsics.register method).2.contains other = true ↔
      intrinsics.contains other = true ∨ other = method := by
  rw [register, contains, Std.ExtTreeSet.contains_insert, Bool.or_eq_true, beq_iff_eq,
    Std.LawfulEqCmp.compare_eq_iff_eq, or_comm, eq_comm (a := method)]
  rfl

/-- The set grows by one exactly where the answer is that the method is new. -/
theorem size_register (intrinsics : Intrinsics) (method : String) :
    (intrinsics.register method).2.size =
      intrinsics.size + (intrinsics.register method).1.toNat := by
  rw [register, size, Std.ExtTreeSet.size_insert, contains]
  cases intrinsics.methods.contains method <;> rfl

section

variable {intrinsics : Intrinsics} {names : List String}

theorem Holds.register_fst (holds : intrinsics.Holds names) (method : String) :
    (intrinsics.register method).1 = decide (method ∉ names) := by
  rw [register, Bool.eq_iff_iff, decide_eq_true_eq, Bool.not_eq_true', ← Bool.not_eq_true,
    holds.contains]

theorem Holds.register (holds : intrinsics.Holds names) (method : String) :
    (intrinsics.register method).2.Holds (names ++ [method]) where
  contains other := by
    rw [contains_register, holds.contains, List.mem_append, List.mem_singleton]
  size := by
    have grown : (names ++ [method]).toFinset = insert method names.toFinset := by
      rw [List.toFinset_append, Finset.union_comm]
      rfl
    rw [size_register, holds.register_fst, holds.size, grown]
    by_cases known : method ∈ names
    · have mem := List.mem_toFinset.2 known
      rw [Finset.insert_eq_of_mem mem]
      simp [known]
    · have fresh := mt List.mem_toFinset.1 known
      rw [Finset.card_insert_of_notMem fresh]
      simp [known]

theorem holds_ofList (names : List String) : (ofList names).Holds names := by
  induction names using List.reverseRecOn with
  | nil => exact holds_empty
  | append_singleton names name ih =>
    have step : ofList (names ++ [name]) = ((ofList names).register name).2 :=
      congrArg Intrinsics.mk (List.foldl_concat ..)
    rw [step]
    exact ih.register name

end

/-! ## One registration after the other -/

/-- Registers methods one after the other, and collects the answers. -/
def registerAll (intrinsics : Intrinsics) : List String → List Bool × Intrinsics
  | [] => ([], intrinsics)
  | method :: methods =>
    let (isNew, next) := intrinsics.register method
    let (answers, last) := next.registerAll methods
    (isNew :: answers, last)

section

variable {intrinsics : Intrinsics} {names : List String}

theorem Holds.registerAll (holds : intrinsics.Holds names) (methods : List String) :
    (intrinsics.registerAll methods).2.Holds (names ++ methods) := by
  induction methods generalizing intrinsics names with
  | nil => rwa [List.append_nil]
  | cons method methods ih =>
    rw [List.append_cons]
    exact ih (holds.register method)

theorem length_registerAll (intrinsics : Intrinsics) (methods : List String) :
    (intrinsics.registerAll methods).1.length = methods.length := by
  induction methods generalizing intrinsics with
  | nil => rfl
  | cons method methods ih => exact congrArg (· + 1) (ih _)

/-- The answers count how often the set grew. -/
theorem size_registerAll (intrinsics : Intrinsics) (methods : List String) :
    (intrinsics.registerAll methods).2.size =
      intrinsics.size + (intrinsics.registerAll methods).1.count true := by
  induction methods generalizing intrinsics with
  | nil => rfl
  | cons method methods ih =>
    have rest := ih (intrinsics.register method).2
    rw [size_register] at rest
    refine rest.trans ?_
    rw [Intrinsics.registerAll, List.count_cons, Nat.add_assoc, Nat.add_comm (Bool.toNat _)]
    cases (intrinsics.register method).1 <;> rfl

theorem Holds.answer (holds : intrinsics.Holds names) {methods : List String} {i : ℕ}
    {method : String} (called : methods[i]? = some method) :
    (intrinsics.registerAll methods).1[i]? =
      some (decide (method ∉ names ++ methods.take i)) := by
  induction methods generalizing intrinsics names i with
  | nil => cases called
  | cons first methods ih =>
    cases i with
    | zero =>
      obtain rfl : first = method := Option.some.inj called
      rw [List.take_zero, List.append_nil, ← holds.register_fst]
      rfl
    | succ i =>
      rw [List.take_succ_cons, List.append_cons]
      exact ih (holds.register first) called

theorem isIntrinsic_iff {callee : Callee} :
    intrinsics.isIntrinsic callee = true ↔
      callee.targets ≠ [] ∧
        ∀ target ∈ callee.targets, intrinsics.contains target.method = true := by
  rw [isIntrinsic, Bool.and_eq_true, Bool.not_eq_true', List.isEmpty_eq_false_iff, List.all_eq_true]

end

/-! ## What the names say -/

/-- What a set of intrinsics says about the names that it was made from and the methods that were
registered afterwards, and about callees. -/
structure Accounts (initial calls : List String) (answers : List Bool) (intrinsics : Intrinsics) :
    Prop where
  length : answers.length = calls.length
  answer (i : ℕ) (method : String) : calls[i]? = some method →
    (answers[i]? = some true ↔ method ∉ initial ∧ method ∉ calls.take i)
  size : intrinsics.size = (initial ++ calls).toFinset.card
  size_eq_add : intrinsics.size = initial.toFinset.card + answers.count true
  isEmpty : intrinsics.isEmpty = true ↔ intrinsics.size = 0
  contains (method : String) :
    intrinsics.contains method = true ↔ method ∈ initial ∨ method ∈ calls
  isIntrinsic (callee : Callee) : intrinsics.isIntrinsic callee = true ↔
    callee.targets ≠ [] ∧
      ∀ target ∈ callee.targets, target.method ∈ initial ∨ target.method ∈ calls
  anonymous (callee : Callee) (name : String) :
    intrinsics.isIntrinsic { callee with name } = intrinsics.isIntrinsic callee

theorem accounts_registerAll (initial calls : List String) :
    Accounts initial calls ((ofList initial).registerAll calls).1
      ((ofList initial).registerAll calls).2 := by
  have start := holds_ofList initial
  have holds := start.registerAll calls
  have contains (method : String) :
      ((ofList initial).registerAll calls).2.contains method = true ↔
        method ∈ initial ∨ method ∈ calls := by
    rw [holds.contains, List.mem_append]
  refine
    { length := length_registerAll _ calls
      answer := fun i method called => ?_
      size := holds.size
      size_eq_add := by rw [size_registerAll, start.size]
      isEmpty := ?_
      contains := contains
      isIntrinsic := fun callee => by simp only [isIntrinsic_iff, contains]
      anonymous := fun callee name => rfl }
  · rw [start.answer called, Option.some_inj, decide_eq_true_eq, List.mem_append, not_or]
  · rw [Intrinsics.isEmpty, Std.ExtTreeSet.isEmpty_eq_size_beq_zero, beq_iff_eq, Intrinsics.size]

/-- The answers to registrations and all that a set of intrinsics says follow from the names, and
no later registration makes a policy reject an intrinsic callee. -/
theorem registerAll_accounts (initial calls : List String) :
    Accounts initial calls ((ofList initial).registerAll calls).1
      ((ofList initial).registerAll calls).2 ∧
    ∀ (later : List String) (invocation : Invocation),
      ((ofList initial).registerAll calls).2.isIntrinsic invocation.callee = true →
      ((ofList initial).registerAll (calls ++ later)).2.isIntrinsic invocation.callee = true ∧
      ∀ (scorer : Scorer) (config : Config) (fullyProcessed : Bool),
        (Policy.evaluate ⟨scorer, ((ofList initial).registerAll (calls ++ later)).2.isIntrinsic⟩
          config invocation fullyProcessed).accepted = true := by
  refine ⟨accounts_registerAll initial calls, fun later invocation intrinsic => ?_⟩
  have targets := ((accounts_registerAll initial calls).isIntrinsic invocation.callee).1 intrinsic
  have still : ((ofList initial).registerAll (calls ++ later)).2.isIntrinsic invocation.callee =
      true := by
    refine ((accounts_registerAll initial (calls ++ later)).isIntrinsic invocation.callee).2
      ⟨targets.1, fun target mem => ?_⟩
    exact (targets.2 target mem).imp_right (List.mem_append_left later)
  exact ⟨still, fun scorer config fullyProcessed => Policy.accepted_iff.2 (.inr (.inl still))⟩

/-- A call with two targets, where one method was collected twice and the other is registered
twice. -/
theorem registerAll_accounts_polymorphic :
    let initial := ["Math.abs", "Math.abs"]
    let calls := ["Math.sqrt", "Math.abs", "Math.sqrt"]
    let invocation : Invocation :=
      { callee :=
          { name := "Vec.norm", callSite := ⟨7⟩, nodeCount := 500
            targets := [{ method := "Math.sqrt" }, { method := "Math.abs" }] }
        probability := 1.0
        relevance := 0.0 }
    ((ofList initial).registerAll calls).1 = [true, false, false] ∧
    ((ofList initial).registerAll calls).2.size = 2 ∧
    ((ofList initial).registerAll calls).2.isIntrinsic invocation.callee = true ∧
    (Policy.evaluate ⟨ProfileScorer.toScorer {},
        ((ofList initial).registerAll (calls ++ ["Vec.len"])).2.isIntrinsic⟩
      {} invocation true).accepted = true := by
  intro initial calls invocation
  obtain ⟨accounts, stays⟩ := registerAll_accounts initial calls
  have answers : ((ofList initial).registerAll calls).1 = [true, false, false] := by decide
  have intrinsic : ((ofList initial).registerAll calls).2.isIntrinsic invocation.callee = true :=
    (accounts.isIntrinsic _).2 (by decide)
  refine ⟨answers, ?_, intrinsic, (stays ["Vec.len"] invocation intrinsic).2 _ {} true⟩
  rw [accounts.size_eq_add, answers]
  rfl

end InlinePolicy.Intrinsics
