import InlinePolicy.Proofs.Scenario.Validation

/-!
# The frames of a chain

A chain lists a call in the method that is compiled, a call in its body, a call in the body of that
one, and so on.  A frame keeps what the next one relies on: a probability that is at most that of
its call (`Call.Placed.steady`), and a relevance that is at most that of its call
(`Call.Placed.cool`).  By induction the frames of a chain get no more probable and are valid
candidates, and only their depth ends a chain of calls in range (`Call.chain_invariant`).
-/

namespace InlinePolicy

open Binary64

/-- The frames in the body of a parent, outermost first: each call is in the body of the frame
before it. -/
def Invocation.frames (parent : Invocation) : List Call → Except ChainError (List Invocation)
  | [] => .ok []
  | call :: calls => do
    let frame ← call.inside (some parent)
    let inner ← frame.frames calls
    return frame :: inner

namespace Call

/-- The frames of a chain that starts at a depth, outermost first: the call itself in the method
that is compiled, and each of the others in the body of the frame before it. -/
def chain (outermost : Call) (depth : UInt64) (calls : List Call) :
    Except ChainError (List Invocation) := do
  let first ← outermost.inside none
  let inner ← { first with depth }.frames calls
  return { first with depth } :: inner

/-- The callee of a frame is that of its call, and its probability is one, but not above that of the
call. -/
structure Steady (call : Call) (frame : Invocation) : Prop where
  callee : frame.callee = call.callee
  probability_nonneg : 0.0 ≤ frame.probability
  probability_le_one : frame.probability ≤ 1.0
  probability_le : frame.probability ≤ call.probability

/-- The relevance of a frame is a finite number that is not negative, and not above that of its
call. -/
structure Cool (call : Call) (frame : Invocation) : Prop where
  relevance_finite : frame.relevance.isFinite = true
  relevance_nonneg : 0.0 ≤ frame.relevance
  relevance_le : frame.relevance ≤ call.relevance

variable {call : Call} {parent : Invocation} {frame : Invocation} {calls : List Call}
  {frames : List Invocation}

/-! ## One frame -/

/-- The product of two probabilities is one, and no larger than either. -/
theorem mul_probability {x y : Float} (hx : 0.0 ≤ x) (hx' : x ≤ 1.0) (hy : 0.0 ≤ y)
    (hy' : y ≤ 1.0) : 0.0 ≤ x * y ∧ x * y ≤ x ∧ x * y ≤ y := by
  obtain ⟨x_number, x_nonneg⟩ := zero_le_iff.1 hx
  obtain ⟨y_number, y_nonneg⟩ := zero_le_iff.1 hy
  have finite := isFinite_of_le hx hx' rfl
  have number := isNaN_mul_of_isFinite x_number (isFinite_of_le hy hy' rfl) (.inl finite)
  have small := (le_iff.1 hy').2.2
  rw [units_one] at small
  have one_number : (1.0 * y).isNaN = false := by rwa [float_one_mul]
  have le := mul_le_mul_of_nonneg number one_number hx' (le_iff.2 ⟨y_number, y_number, le_rfl⟩)
    hx hy
  rw [float_one_mul] at le
  exact ⟨zero_le_iff.2 ⟨number, units_mul_nonneg x_nonneg y_nonneg⟩,
    le_iff.2 ⟨number, x_number, units_mul_le number x_nonneg small⟩, le⟩

theorem Placed.probability_le (valid : call.InRange) (nonneg : 0.0 ≤ parent.probability)
    (le_one : parent.probability ≤ 1.0) (placed : call.Placed (some parent) frame) :
    frame.probability ≤ parent.probability := by
  rw [placed.probability]
  exact (mul_probability nonneg le_one valid.probability_nonneg valid.probability_le_one).2.1

/-- A frame whose parent has a probability has one too. -/
theorem Placed.steady (valid : call.InRange) (nonneg : 0.0 ≤ parent.probability)
    (le_one : parent.probability ≤ 1.0) (placed : call.Placed (some parent) frame) :
    call.Steady frame := by
  obtain ⟨product_nonneg, le, le_own⟩ :=
    mul_probability nonneg le_one valid.probability_nonneg valid.probability_le_one
  have probability : frame.probability = parent.probability * call.probability := placed.probability
  rw [← probability] at product_nonneg le le_own
  exact ⟨placed.callee, product_nonneg, le_trans_le le le_one, le_own⟩

/-- A frame inherits no relevance that could make it hotter than its call. -/
theorem Placed.cool {parent : Option Invocation} (valid : call.InRange)
    (finite : call.relevance.isFinite = true) (nonneg : 0.0 ≤ inherited parent)
    (placed : call.Placed parent frame) : call.Cool frame :=
  ⟨placed.isFinite_relevance valid finite nonneg, placed.relevance_nonneg valid finite nonneg,
    placed.relevance_le_own valid finite nonneg⟩

theorem Cool.inherited_nonneg (cool : call.Cool frame) : 0.0 ≤ inherited (some frame) :=
  lesser_nonneg cool.relevance_nonneg (by decide)

/-! ## All frames in the body of a parent -/

section

variable {α β : Type} {x : Except ChainError α} {f : α → Except ChainError β}

theorem bind_eq_ok_iff {b : β} : x >>= f = .ok b ↔ ∃ a, x = .ok a ∧ f a = .ok b := by
  cases x <;> simp [bind, Except.bind]

theorem bind_eq_error_iff {e : ChainError} :
    x >>= f = .error e ↔ x = .error e ∨ ∃ a, x = .ok a ∧ f a = .error e := by
  cases x <;> simp [bind, Except.bind]

end

theorem frames_cons_eq_ok_iff :
    parent.frames (call :: calls) = .ok frames ↔
      ∃ frame, call.inside (some parent) = .ok frame ∧
        ∃ inner, frame.frames calls = .ok inner ∧ frame :: inner = frames := by
  simp only [Invocation.frames, bind_eq_ok_iff, pure, Except.pure, Except.ok.injEq]

theorem frames_cons_eq_error_iff {refusal : ChainError} :
    parent.frames (call :: calls) = .error refusal ↔
      call.inside (some parent) = .error refusal ∨
        ∃ frame, call.inside (some parent) = .ok frame ∧ frame.frames calls = .error refusal := by
  simp only [Invocation.frames, bind_eq_error_iff, pure, Except.pure, reduceCtorEq, and_false,
    exists_false, or_false]

/-- Each frame is one deeper than the one before it. -/
theorem depth_frames (run : parent.frames calls = .ok frames) :
    (frames.map fun frame => frame.depth.toNat) =
      List.range' (parent.depth.toNat + 1) calls.length := by
  induction calls generalizing parent frames with
  | nil =>
    obtain rfl := Except.ok.inj run
    rfl
  | cons call calls ih =>
    obtain ⟨frame, inside, inner, rest, rfl⟩ := frames_cons_eq_ok_iff.1 run
    have depth : frame.depth.toNat = parent.depth.toNat + 1 := (inside_eq_ok_iff.1 inside).2.depth
    rw [List.map_cons, ih rest, depth, List.length_cons, List.range'_succ]

/-- The probabilities of the frames do not rise. -/
theorem steady_frames (nonneg : 0.0 ≤ parent.probability) (le_one : parent.probability ≤ 1.0)
    (run : parent.frames calls = .ok frames) :
    List.Forall₂ Steady calls frames ∧
      (parent :: frames).Pairwise fun outer inner => inner.probability ≤ outer.probability := by
  induction calls generalizing parent frames with
  | nil =>
    obtain rfl := Except.ok.inj run
    exact ⟨.nil, List.pairwise_singleton _ _⟩
  | cons call calls ih =>
    obtain ⟨frame, inside, inner, rest, rfl⟩ := frames_cons_eq_ok_iff.1 run
    obtain ⟨valid, placed⟩ := inside_eq_ok_iff.1 inside
    have steady := placed.steady valid nonneg le_one
    obtain ⟨each, falling⟩ := ih steady.probability_nonneg steady.probability_le_one rest
    refine ⟨.cons steady each, List.pairwise_cons.2 ⟨?_, falling⟩⟩
    have le := placed.probability_le valid nonneg le_one
    intro deeper mem
    rcases List.mem_cons.1 mem with rfl | mem
    · exact le
    · exact le_trans_le ((List.pairwise_cons.1 falling).1 deeper mem) le

/-- Frames whose calls have finite relevances are no hotter than their calls. -/
theorem cool_frames (nonneg : 0.0 ≤ inherited (some parent))
    (finite : ∀ call ∈ calls, call.relevance.isFinite = true)
    (run : parent.frames calls = .ok frames) : List.Forall₂ Cool calls frames := by
  induction calls generalizing parent frames with
  | nil =>
    obtain rfl := Except.ok.inj run
    exact .nil
  | cons call calls ih =>
    rw [List.forall_mem_cons] at finite
    obtain ⟨frame, inside, inner, rest, rfl⟩ := frames_cons_eq_ok_iff.1 run
    obtain ⟨valid, placed⟩ := inside_eq_ok_iff.1 inside
    have cool := placed.cool valid finite.1 nonneg
    exact .cons cool (ih cool.inherited_nonneg finite.2 rest)

/-- Calls in range have frames as long as their depths fit a word. -/
theorem exists_frames_iff :
    (∃ frames, parent.frames calls = .ok frames) ↔
      (∀ call ∈ calls, call.InRange) ∧ parent.depth.toNat + calls.length < UInt64.size := by
  induction calls generalizing parent with
  | nil => exact iff_of_true ⟨[], rfl⟩ ⟨List.forall_mem_nil _, parent.depth.toNat_lt_size⟩
  | cons call calls ih =>
    rw [List.forall_mem_cons, List.length_cons]
    constructor
    · rintro ⟨frames, run⟩
      obtain ⟨frame, inside, inner, rest, rfl⟩ := frames_cons_eq_ok_iff.1 run
      obtain ⟨valid, placed⟩ := inside_eq_ok_iff.1 inside
      obtain ⟨each, room⟩ := ih.1 ⟨inner, rest⟩
      have depth : frame.depth.toNat = parent.depth.toNat + 1 := placed.depth
      exact ⟨⟨valid, each⟩, by omega⟩
    · rintro ⟨⟨valid, each⟩, room⟩
      obtain ⟨frame, inside⟩ := exists_inside valid (some parent) (by rw [framesAround]; omega)
      have depth : frame.depth.toNat = parent.depth.toNat + 1 := (inside_eq_ok_iff.1 inside).2.depth
      have room : frame.depth.toNat + calls.length < UInt64.size := by omega
      obtain ⟨inner, rest⟩ := ih.2 ⟨each, room⟩
      exact ⟨frame :: inner, frames_cons_eq_ok_iff.2 ⟨frame, inside, inner, rest, rfl⟩⟩

/-- What is too deep is a call in range at the end of frames that take up all depths. -/
theorem frames_eq_overflow_iff :
    parent.frames calls = .error .depthOverflow ↔
      ∃ earlier call later, calls = earlier ++ call :: later ∧
        (∀ other ∈ earlier ++ [call], other.InRange) ∧
          parent.depth.toNat + earlier.length + 1 = UInt64.size := by
  induction calls generalizing parent with
  | nil => exact iff_of_false (fun h => nomatch h) fun ⟨_, _, _, split, _⟩ => by simp at split
  | cons call calls ih =>
    rw [frames_cons_eq_error_iff, inside_eq_overflow_iff]
    constructor
    · rintro (⟨valid, full⟩ | ⟨frame, inside, refused⟩)
      · refine ⟨[], call, calls, rfl, List.forall_mem_singleton.2 valid, ?_⟩
        have := parent.depth.toNat_lt_size
        rw [framesAround] at full
        simp only [List.length_nil]
        omega
      · obtain ⟨valid, placed⟩ := inside_eq_ok_iff.1 inside
        obtain ⟨earlier, last, later, rfl, each, full⟩ := ih.1 refused
        have depth : frame.depth.toNat = parent.depth.toNat + 1 := placed.depth
        refine ⟨call :: earlier, last, later, rfl, List.forall_mem_cons.2 ⟨valid, each⟩, ?_⟩
        rw [List.length_cons]
        omega
    · rintro ⟨earlier, last, later, split, each, full⟩
      cases earlier with
      | nil =>
        obtain ⟨rfl, rfl⟩ := List.cons.inj split
        refine .inl ⟨each call (List.mem_singleton_self call), ?_⟩
        rw [framesAround]
        simp only [List.length_nil] at full
        omega
      | cons first earlier =>
        obtain ⟨rfl, rfl⟩ := List.cons.inj split
        rw [List.cons_append, List.forall_mem_cons] at each
        rw [List.length_cons] at full
        obtain ⟨frame, inside⟩ := exists_inside each.1 (some parent) (by rw [framesAround]; omega)
        have depth : frame.depth.toNat = parent.depth.toNat + 1 :=
          (inside_eq_ok_iff.1 inside).2.depth
        exact .inr ⟨frame, inside, ih.2 ⟨earlier, last, later, rfl, each.2, by omega⟩⟩

/-! ## Whole chains -/

theorem chain_eq_ok_iff {outermost : Call} {depth : UInt64} :
    outermost.chain depth calls = .ok frames ↔
      ∃ first, outermost.inside none = .ok first ∧
        ∃ inner, Invocation.frames { first with depth } calls = .ok inner ∧
          { first with depth } :: inner = frames := by
  simp only [chain, bind_eq_ok_iff, pure, Except.pure, Except.ok.injEq]

theorem chain_eq_overflow_iff {outermost : Call} {depth : UInt64} :
    outermost.chain depth calls = .error .depthOverflow ↔
      ∃ first, outermost.inside none = .ok first ∧
        Invocation.frames { first with depth } calls = .error .depthOverflow := by
  have shallow : ¬ UInt64.size ≤ framesAround none := by decide
  simp only [chain, bind_eq_error_iff, inside_eq_overflow_iff, shallow, and_false, false_or, pure,
    Except.pure, reduceCtorEq, exists_false, or_false]

/-- In the method that is compiled, a call keeps its probability, at whatever depth. -/
theorem Placed.steady_none (valid : call.InRange) (placed : call.Placed none frame)
    (depth : UInt64) : call.Steady { frame with depth } := by
  have own : frame.probability = call.probability :=
    placed.probability.trans (float_one_mul call.probability)
  obtain ⟨nonneg, le_one, -⟩ := valid
  have number := (le_iff.1 nonneg).2.1
  refine ⟨placed.callee, ?_, ?_, ?_⟩
  · rwa [own]
  · rwa [own]
  · rw [own]
    exact le_iff.2 ⟨number, number, le_rfl⟩

theorem forall_mem_of_forall₂ {α β : Type} {R : α → β → Prop} {P : β → Prop} {as : List α}
    {bs : List β} (holds : ∀ a b, R a b → P b) (each : List.Forall₂ R as bs) : ∀ b ∈ bs, P b := by
  induction each with
  | nil => exact List.forall_mem_nil P
  | cons related _ ih => exact List.forall_mem_cons.2 ⟨holds _ _ related, ih⟩

/-- Frames that are steady and cool are candidates that nothing is wrong with. -/
theorem validate_of_steady_of_cool (steady : List.Forall₂ Steady calls frames)
    (cool : List.Forall₂ Cool calls frames) :
    ({ candidates := frames } : Scenario).validate = .ok () := by
  have probability : ∀ frame ∈ frames, 0.0 ≤ frame.probability ∧ frame.probability ≤ 1.0 :=
    forall_mem_of_forall₂
      (fun call frame steady => ⟨steady.probability_nonneg, steady.probability_le_one⟩) steady
  have relevance : ∀ frame ∈ frames, 0.0 ≤ frame.relevance :=
    forall_mem_of_forall₂ (fun call frame cool => cool.relevance_nonneg) cool
  refine Scenario.validate_eq_ok_iff.2 ⟨fun frame mem => ?_, List.forall_mem_nil _⟩
  exact frame.call.inRange_iff.2 ⟨probability frame mem, relevance frame mem⟩

/-- A chain of calls in range is built as long as its depths fit a word, and its frames have them
one after the other.  Their probabilities are at most those of their calls and never rise; and if
all relevances are finite, no frame is hotter than its call, and all of them are valid
candidates. -/
theorem chain_invariant (outermost : Call) (depth : UInt64) (calls : List Call) :
    (∀ frames, outermost.chain depth calls = .ok frames →
      (frames.map fun frame => frame.depth.toNat) =
        List.range' depth.toNat (calls.length + 1) ∧
      List.Forall₂ Steady (outermost :: calls) frames ∧
      (frames.Pairwise fun outer inner => inner.probability ≤ outer.probability) ∧
      ((∀ call ∈ outermost :: calls, call.relevance.isFinite = true) →
        List.Forall₂ Cool (outermost :: calls) frames ∧
        ({ candidates := frames } : Scenario).validate = .ok ())) ∧
    ((∃ frames, outermost.chain depth calls = .ok frames) ↔
      (∀ call ∈ outermost :: calls, call.InRange) ∧
        depth.toNat + calls.length < UInt64.size) ∧
    (outermost.chain depth calls = .error .depthOverflow ↔
      ∃ earlier call later, calls = earlier ++ call :: later ∧
        (∀ other ∈ outermost :: earlier ++ [call], other.InRange) ∧
          depth.toNat + earlier.length + 1 = UInt64.size) := by
  refine ⟨fun frames run => ?_, ?_, ?_⟩
  · obtain ⟨first, inside, inner, rest, rfl⟩ := chain_eq_ok_iff.1 run
    obtain ⟨valid, placed⟩ := inside_eq_ok_iff.1 inside
    have steady := placed.steady_none valid depth
    obtain ⟨each, falling⟩ :=
      steady_frames steady.probability_nonneg steady.probability_le_one rest
    refine ⟨?_, .cons steady each, falling, fun finite => ?_⟩
    · rw [List.map_cons, depth_frames rest, List.range'_succ]
    · rw [List.forall_mem_cons] at finite
      have own := placed.cool valid finite.1 (by decide)
      have cool : outermost.Cool { first with depth } :=
        ⟨own.relevance_finite, own.relevance_nonneg, own.relevance_le⟩
      have all := List.Forall₂.cons cool (cool_frames cool.inherited_nonneg finite.2 rest)
      exact ⟨all, validate_of_steady_of_cool (.cons steady each) all⟩
  · rw [List.forall_mem_cons]
    constructor
    · rintro ⟨frames, run⟩
      obtain ⟨first, inside, inner, rest, rfl⟩ := chain_eq_ok_iff.1 run
      obtain ⟨each, room⟩ := exists_frames_iff.1 ⟨inner, rest⟩
      exact ⟨⟨(inside_eq_ok_iff.1 inside).1, each⟩, room⟩
    · rintro ⟨⟨valid, each⟩, room⟩
      obtain ⟨first, inside⟩ := exists_inside valid none (by decide)
      have deeper : (∀ call ∈ calls, call.InRange) ∧
          ({ first with depth } : Invocation).depth.toNat + calls.length < UInt64.size :=
        ⟨each, room⟩
      obtain ⟨inner, rest⟩ := exists_frames_iff.2 deeper
      exact ⟨_, chain_eq_ok_iff.2 ⟨first, inside, inner, rest, rfl⟩⟩
  · simp only [chain_eq_overflow_iff, frames_eq_overflow_iff, List.cons_append,
      List.forall_mem_cons]
    constructor
    · rintro ⟨first, inside, earlier, call, later, split, each, full⟩
      exact ⟨earlier, call, later, split, ⟨(inside_eq_ok_iff.1 inside).1, each⟩, full⟩
    · rintro ⟨earlier, call, later, split, ⟨valid, each⟩, full⟩
      obtain ⟨first, inside⟩ := exists_inside valid none (by decide)
      exact ⟨first, inside, earlier, call, later, split, each, full⟩

/-- A call of a method with 40 nodes. -/
def small (probability relevance : Float) : Call where
  callee := { name := "A.m", callSite := ⟨7⟩, nodeCount := 40 }
  probability := probability
  relevance := relevance

/-- The relevance of seven frames underflows to zero, and the last of them has the largest depth. -/
theorem chain_invariant_deep :
    (∀ call ∈ small 1.0 8.0 :: List.replicate 7 (small 0.5 1e-50), call.InRange) ∧
    (∃ frames,
      (small 1.0 8.0).chain 18446744073709551608 (List.replicate 7 (small 0.5 1e-50)) =
        .ok frames ∧
      (frames.map fun frame => frame.depth.toNat) = List.range' 18446744073709551608 8 ∧
      frames.getLast?.map Invocation.relevance = some 0.0 ∧
      ({ candidates := frames } : Scenario).validate = .ok ()) ∧
    (small 1.0 8.0).chain 18446744073709551608 (List.replicate 8 (small 0.5 1e-50)) =
      .error .depthOverflow := by
  have hot : (small 1.0 8.0).InRange := ⟨by decide, by decide, by decide⟩
  have cold : (small 0.5 1e-50).InRange := ⟨by decide, by decide, by decide⟩
  have each (n : ℕ) : ∀ call ∈ small 1.0 8.0 :: List.replicate n (small 0.5 1e-50), call.InRange :=
    List.forall_mem_cons.2 ⟨hot, fun call mem => List.eq_of_mem_replicate mem ▸ cold⟩
  have finite : ∀ call ∈ small 1.0 8.0 :: List.replicate 7 (small 0.5 1e-50),
      call.relevance.isFinite = true := by
    decide
  obtain ⟨built, exists_iff, -⟩ :=
    chain_invariant (small 1.0 8.0) 18446744073709551608 (List.replicate 7 (small 0.5 1e-50))
  obtain ⟨-, -, overflow_iff⟩ :=
    chain_invariant (small 1.0 8.0) 18446744073709551608 (List.replicate 8 (small 0.5 1e-50))
  obtain ⟨frames, run⟩ := exists_iff.2 ⟨each 7, by decide⟩
  obtain ⟨depths, -, -, cool⟩ := built frames run
  refine ⟨each 7, ⟨frames, run, depths, ?_, (cool finite).2⟩, overflow_iff.2 ?_⟩
  · obtain rfl := Except.ok.inj run
    decide +kernel
  · refine ⟨List.replicate 7 (small 0.5 1e-50), small 0.5 1e-50, [], rfl, ?_, by decide⟩
    rw [List.cons_append, ← List.replicate_succ']
    exact each 8

end Call

end InlinePolicy
