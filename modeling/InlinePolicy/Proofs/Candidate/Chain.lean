import InlinePolicy.Candidate.Chain
import InlinePolicy.Proofs.Binary64.Equality

/-!
# Calls in chains

A call inherits a factor of at most 1 from its parent, and the factor 1 where it has none
(`inherited`).  In a parent that hands less down, a frame is cooler and hands less down itself
(`Call.Placed.cooler`), even where an infinite relevance meets a zero one and their product is NaN.
By induction over the frames, the same holds of the innermost one (`Call.cooler_descend`), and so of
a chain that is put into more frames (`Call.cooler_of_outer`).

A parent is an `Option Invocation` here: without one, a call is in the method that is compiled.
-/

namespace InlinePolicy

open Binary64

/-! ## What a call inherits -/

/-- The factor that a call inherits from its parent, or from the method that is being compiled. -/
def inherited : Option Invocation → Float
  | none => 1.0
  | some parent => lesser parent.relevance 1.0

/-- The fraction of the executions that reach the body of a parent. -/
def reached : Option Invocation → Float
  | none => 1.0
  | some parent => parent.probability

/-- The number of frames around a call with the given parent. -/
def framesAround : Option Invocation → ℕ
  | none => 0
  | some parent => parent.depth.toNat + 1

theorem inherited_le_one (parent : Option Invocation) : inherited parent ≤ 1.0 := by
  cases parent with
  | none => decide
  | some parent => exact lesser_le_right parent.relevance rfl

theorem isFinite_inherited {parent : Option Invocation} (nonneg : 0.0 ≤ inherited parent) :
    (inherited parent).isFinite = true :=
  isFinite_of_le nonneg (inherited_le_one parent) rfl

theorem framesAround_lt {parent : Invocation} (room : parent.depth < Word.largest) :
    framesAround (some parent) < UInt64.size := by
  have bound : parent.depth.toNat < UInt64.size - 1 := UInt64.lt_iff_toNat_lt.1 room
  rw [framesAround]
  omega

/-- A parent hands no more down than another one. -/
structure Cooler (parent parent' : Option Invocation) : Prop where
  nonneg : 0.0 ≤ inherited parent
  le : inherited parent ≤ inherited parent'

/-- No parent hands down more than a call has without one. -/
theorem cooler_none {parent : Option Invocation} (nonneg : 0.0 ≤ inherited parent) :
    Cooler parent none :=
  ⟨nonneg, inherited_le_one parent⟩

theorem cooler_of_relevance_le {parent parent' : Invocation} (nonneg : 0.0 ≤ parent.relevance)
    (le : parent.relevance ≤ parent'.relevance) : Cooler (some parent) (some parent') :=
  ⟨lesser_nonneg nonneg (by decide), lesser_le_lesser 1.0 le⟩

/-! ## Calls in a chain -/

/-- A call as its call site describes it. -/
structure Call where
  callee : Callee
  probability : Float
  relevance : Float

namespace Call

/-- The numbers of a call are such as a chain takes. -/
structure InRange (call : Call) : Prop where
  probability_nonneg : 0.0 ≤ call.probability
  probability_le_one : call.probability ≤ 1.0
  relevance_nonneg : 0.0 ≤ call.relevance

/-- The call in the body of its parent, or in the method that is being compiled. -/
def inside (call : Call) : Option Invocation → Except ChainError Invocation
  | none => Invocation.root call.callee call.probability call.relevance
  | some parent => parent.nestedIn call.callee call.probability call.relevance

/-- The innermost of some frames, each in the body of the one before it. -/
def descend (parent : Option Invocation) (frames : List Call) :
    Except ChainError (Option Invocation) :=
  frames.foldlM (fun parent frame => some <$> frame.inside parent) parent

/-- The call with frames around it, the outermost first. -/
def within (call : Call) (frames : List Call) : Except ChainError Invocation := do
  call.inside (← descend none frames)

/-- What an invocation of the call is in the body of its parent. -/
structure Placed (call : Call) (parent : Option Invocation) (invocation : Invocation) : Prop where
  callee : invocation.callee = call.callee
  probability : invocation.probability = reached parent * call.probability
  relevance : invocation.relevance = inherited parent * call.relevance
  depth : invocation.depth.toNat = framesAround parent

variable {call : Call} {parent parent' : Option Invocation} {invocation invocation' : Invocation}

theorem checkRange_eq_ok_iff :
    Invocation.checkRange call.probability call.relevance = .ok () ↔ call.InRange := by
  unfold Invocation.checkRange
  constructor
  · intro h
    split_ifs at h with probability relevance
    exact ⟨probability.1, probability.2, relevance⟩
  · intro ⟨nonneg, le, relevance⟩
    rw [if_neg (not_not_intro ⟨nonneg, le⟩), if_neg (not_not_intro relevance)]

/-- A call in range finds its place if its depth fits a word. -/
theorem inside_of_inRange (valid : call.InRange) (parent : Option Invocation) :
    call.inside parent =
      match Word.ofNat? (framesAround parent) with
      | some depth =>
        .ok ⟨call.callee, reached parent * call.probability, inherited parent * call.relevance,
          depth⟩
      | none => .error .depthOverflow := by
  have checked := checkRange_eq_ok_iff.2 valid
  cases parent with
  | none =>
    simp only [inside, Invocation.root, checked, reached, inherited, float_one_mul]
    rfl
  | some parent =>
    simp only [inside, Invocation.nestedIn, checked]
    rfl

/-- A call out of range is refused for that, whatever its depth. -/
theorem inside_of_not_inRange (invalid : ¬ call.InRange) (parent : Option Invocation) :
    ∃ refusal, call.inside parent = .error refusal ∧ refusal ≠ .depthOverflow := by
  cases checked : Invocation.checkRange call.probability call.relevance with
  | ok => exact absurd (checkRange_eq_ok_iff.1 checked) invalid
  | error refusal =>
    refine ⟨refusal, ?_, ?_⟩
    · cases parent <;> simp only [inside, Invocation.root, Invocation.nestedIn, checked] <;> rfl
    · rintro rfl
      unfold Invocation.checkRange at checked
      split_ifs at checked <;> cases checked

/-- Without a parent, a call is what its call site says. -/
theorem placed_none : call.Placed none ⟨call.callee, call.probability, call.relevance, 0⟩ :=
  ⟨rfl, (float_one_mul _).symm, (float_one_mul _).symm, rfl⟩

/-- There is one place in a parent. -/
theorem placed_iff {depth : UInt64} (fits : Word.ofNat? (framesAround parent) = some depth) :
    call.Placed parent invocation ↔
      ⟨call.callee, reached parent * call.probability, inherited parent * call.relevance, depth⟩ =
        invocation := by
  have room := Word.ofNat?_eq_some_iff.1 fits
  constructor
  · intro placed
    cases invocation
    congr 1
    · exact placed.callee.symm
    · exact placed.probability.symm
    · exact placed.relevance.symm
    · exact UInt64.toNat_inj.1 (room.trans placed.depth.symm)
  · rintro rfl
    exact ⟨rfl, rfl, rfl, room⟩

/-- A call that is out of range is refused, and every other one is put in its place. -/
theorem inside_eq_ok_iff :
    call.inside parent = .ok invocation ↔ call.InRange ∧ call.Placed parent invocation := by
  by_cases valid : call.InRange
  · rw [and_iff_right valid, inside_of_inRange valid]
    cases fits : Word.ofNat? (framesAround parent) with
    | some depth => rw [placed_iff fits, Except.ok.injEq]
    | none =>
      refine iff_of_false (fun h => nomatch h) fun placed => ?_
      exact Option.some_ne_none _ ((Word.ofNat?_eq_some_iff.2 placed.depth).symm.trans fits)
  · obtain ⟨refusal, refused, -⟩ := inside_of_not_inRange valid parent
    rw [refused]
    exact iff_of_false (fun h => nomatch h) fun h => valid h.1

/-- The depth of a call in range does not fit a word exactly where that is why it is refused. -/
theorem inside_eq_overflow_iff :
    call.inside parent = .error .depthOverflow ↔
      call.InRange ∧ UInt64.size ≤ framesAround parent := by
  by_cases valid : call.InRange
  · rw [and_iff_right valid, inside_of_inRange valid, ← Word.ofNat?_eq_none_iff]
    cases Word.ofNat? (framesAround parent) <;> simp
  · obtain ⟨refusal, refused, other⟩ := inside_of_not_inRange valid parent
    rw [refused]
    exact iff_of_false (fun h => other (Except.error.inj h)) fun h => valid h.1

/-- A call in range finds its place as long as the depth fits a word. -/
theorem exists_inside (valid : call.InRange) (parent : Option Invocation)
    (room : framesAround parent < UInt64.size) :
    ∃ invocation, call.inside parent = .ok invocation := by
  have placed : call.Placed parent ⟨call.callee, reached parent * call.probability,
      inherited parent * call.relevance, UInt64.ofNat (framesAround parent)⟩ :=
    ⟨rfl, rfl, rfl, UInt64.toNat_ofNat_of_lt room⟩
  exact ⟨_, inside_eq_ok_iff.2 ⟨valid, placed⟩⟩

/-! ## One step down -/

/-- A parent that hands less down makes the call cooler. -/
theorem Placed.relevance_le (valid : call.InRange) (finite : call.relevance.isFinite = true)
    (cooler : Cooler parent parent') (placed : call.Placed parent invocation)
    (placed' : call.Placed parent' invocation') :
    invocation.relevance ≤ invocation'.relevance := by
  have number := isNaN_eq_false_of_isFinite finite
  have factor := isFinite_inherited cooler.nonneg
  have factor' := isFinite_inherited (le_trans_le cooler.nonneg cooler.le)
  rw [placed.relevance, placed'.relevance]
  exact mul_le_mul_of_nonneg
    (isNaN_mul_of_isFinite (isNaN_eq_false_of_isFinite factor) finite (.inl factor))
    (isNaN_mul_of_isFinite (isNaN_eq_false_of_isFinite factor') finite (.inl factor'))
    cooler.le (le_iff.2 ⟨number, number, le_rfl⟩) cooler.nonneg valid.relevance_nonneg

/-- No parent makes a call hotter than it is on its own. -/
theorem Placed.relevance_le_own (valid : call.InRange) (finite : call.relevance.isFinite = true)
    (nonneg : 0.0 ≤ inherited parent) (placed : call.Placed parent invocation) :
    invocation.relevance ≤ call.relevance :=
  (placed.relevance_le valid finite (cooler_none nonneg) placed_none :)

theorem Placed.relevance_nonneg (valid : call.InRange) (finite : call.relevance.isFinite = true)
    (nonneg : 0.0 ≤ inherited parent) (placed : call.Placed parent invocation) :
    0.0 ≤ invocation.relevance := by
  have factor := isFinite_inherited nonneg
  rw [placed.relevance]
  exact zero_le_iff.2
    ⟨isNaN_mul_of_isFinite (isNaN_eq_false_of_isFinite factor) finite (.inl factor),
      units_mul_nonneg (zero_le_iff.1 nonneg).2 (zero_le_iff.1 valid.relevance_nonneg).2⟩

theorem Placed.isFinite_relevance (valid : call.InRange) (finite : call.relevance.isFinite = true)
    (nonneg : 0.0 ≤ inherited parent) (placed : call.Placed parent invocation) :
    invocation.relevance.isFinite = true :=
  isFinite_of_le (placed.relevance_nonneg valid finite nonneg)
    (placed.relevance_le_own valid finite nonneg) finite

/-- A frame of infinite relevance hands 1 down wherever it stands. -/
theorem Placed.inherited_of_infinite (valid : call.InRange)
    (infinite : call.relevance.isFinite = false) (nonneg : 0.0 ≤ inherited parent)
    (placed : call.Placed parent invocation) : inherited (some invocation) = 1.0 := by
  rw [inherited, placed.relevance]
  exact lesser_mul_infinity nonneg valid.relevance_nonneg infinite

/-- A frame in a cooler parent hands less down. -/
theorem Placed.cooler (valid : call.InRange) (cooler : Cooler parent parent')
    (placed : call.Placed parent invocation) (placed' : call.Placed parent' invocation') :
    Cooler (some invocation) (some invocation') := by
  by_cases finite : call.relevance.isFinite = true
  · exact cooler_of_relevance_le (placed.relevance_nonneg valid finite cooler.nonneg)
      (placed.relevance_le valid finite cooler placed')
  · -- The relevance of the invocations may be NaN here, which no comparison of them survives.
    have infinite := Bool.eq_false_of_not_eq_true finite
    have nonneg' := le_trans_le cooler.nonneg cooler.le
    have one := placed.inherited_of_infinite valid infinite cooler.nonneg
    have one' := placed'.inherited_of_infinite valid infinite nonneg'
    refine ⟨?_, ?_⟩
    · rw [one]
      decide
    · rw [one, one']
      decide

/-! ## Whole chains -/

theorem descend_cons (parent : Option Invocation) (frame : Call) (frames : List Call) :
    descend parent (frame :: frames) =
      frame.inside parent >>= fun child => descend (some child) frames := by
  rw [descend, List.foldlM_cons]
  cases frame.inside parent <;> rfl

theorem descend_cons_eq_ok {frame : Call} {frames : List Call} {innermost : Option Invocation}
    (run : descend parent (frame :: frames) = .ok innermost) :
    ∃ child, frame.inside parent = .ok child ∧ descend (some child) frames = .ok innermost := by
  rw [descend_cons] at run
  cases inside : frame.inside parent with
  | error refusal =>
    rw [inside] at run
    cases run
  | ok child =>
    rw [inside] at run
    exact ⟨child, rfl, run⟩

theorem descend_append_eq_ok {outer inner : List Call} {innermost : Option Invocation}
    (run : descend parent (outer ++ inner) = .ok innermost) :
    ∃ middle, descend parent outer = .ok middle ∧ descend middle inner = .ok innermost := by
  rw [descend, List.foldlM_append, ← descend] at run
  cases outer_run : descend parent outer with
  | error refusal =>
    rw [outer_run] at run
    cases run
  | ok middle =>
    rw [outer_run] at run
    exact ⟨middle, rfl, run⟩

/-- Frames in range find their places as long as their depths fit a word. -/
theorem exists_descend {frames : List Call} (valid : ∀ frame ∈ frames, frame.InRange)
    (parent : Option Invocation) (room : framesAround parent + frames.length ≤ UInt64.size) :
    ∃ innermost, descend parent frames = .ok innermost ∧
      framesAround innermost = framesAround parent + frames.length := by
  induction frames generalizing parent with
  | nil => exact ⟨parent, rfl, rfl⟩
  | cons frame frames ih =>
    rw [List.forall_mem_cons] at valid
    rw [List.length_cons] at room ⊢
    obtain ⟨child, inside⟩ := exists_inside valid.1 parent (by omega)
    have around : framesAround (some child) = framesAround parent + 1 := by
      rw [framesAround, (inside_eq_ok_iff.1 inside).2.depth]
    obtain ⟨innermost, run, depth⟩ := ih valid.2 (some child) (by omega)
    refine ⟨innermost, ?_, by omega⟩
    rw [descend_cons, inside]
    exact run

/-- The same frames hand less down in a cooler parent. -/
theorem cooler_descend {frames : List Call} {innermost innermost' : Option Invocation}
    (cooler : Cooler parent parent') (run : descend parent frames = .ok innermost)
    (run' : descend parent' frames = .ok innermost') : Cooler innermost innermost' := by
  induction frames generalizing parent parent' with
  | nil =>
    obtain rfl := Except.ok.inj run
    obtain rfl := Except.ok.inj run'
    exact cooler
  | cons frame frames ih =>
    obtain ⟨child, inside, rest⟩ := descend_cons_eq_ok run
    obtain ⟨child', inside', rest'⟩ := descend_cons_eq_ok run'
    obtain ⟨valid, placed⟩ := inside_eq_ok_iff.1 inside
    obtain ⟨-, placed'⟩ := inside_eq_ok_iff.1 inside'
    exact ih (placed.cooler valid cooler placed') rest rest'

/-- Frames around a chain make its innermost frame hand less down. -/
theorem cooler_of_outer {outer inner : List Call} (run : descend none (outer ++ inner) = .ok parent)
    (run' : descend none inner = .ok parent') : Cooler parent parent' := by
  obtain ⟨middle, outer_run, inner_run⟩ := descend_append_eq_ok run
  -- Only what hands down a number of at least 0 is as cool as itself, so the same start twice
  -- shows that the outer frames do.
  have nonneg := (cooler_descend (cooler_none (by decide)) outer_run outer_run).nonneg
  exact cooler_descend (cooler_none nonneg) inner_run run'

/-- A call in range finds its place in frames in range, as long as their number fits a word. -/
theorem exists_within (valid : call.InRange) {frames : List Call}
    (each : ∀ frame ∈ frames, frame.InRange) (room : frames.length < UInt64.size) :
    ∃ parent nested, descend none frames = .ok parent ∧ call.inside parent = .ok nested ∧
      call.within frames = .ok nested := by
  have depth_none : framesAround none + frames.length = frames.length := Nat.zero_add _
  obtain ⟨parent, run, depth⟩ := exists_descend each none (by omega)
  obtain ⟨nested, inside⟩ := exists_inside valid parent (by omega)
  refine ⟨parent, nested, run, inside, ?_⟩
  rw [within, run]
  exact inside

end Call

end InlinePolicy
