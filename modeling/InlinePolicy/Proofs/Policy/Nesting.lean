import InlinePolicy.Proofs.Candidate.Chain
import InlinePolicy.Proofs.Policy.Monotone
import InlinePolicy.Proofs.Scenario.Policy

/-!
# Verdicts in chains

Only the last rule looks at the relevance of a call, and its bound grows with it.  So of two
invocations of one call, the cooler one is the harder to accept
(`Setting.accepts_of_relevance_le`), and `Cooler` parents make cooler invocations.  The frames that
are added to a chain go around all of it: between two frames of a chain, one of relevance above 1
may make up for a cold one outside it.
-/

namespace InlinePolicy

open Binary64

/-- What a verdict depends on besides the call. -/
structure Setting where
  config : Config
  scorer : ProfileScorer
  intrinsics : Intrinsics
  fullyProcessed : Bool

namespace Setting

/-- The policy accepts an invocation. -/
def Accepts (setting : Setting) (invocation : Invocation) : Prop :=
  ((Policy.ofProfile setting.scorer setting.intrinsics).evaluate setting.config invocation
    setting.fullyProcessed).accepted = true

instance (setting : Setting) (invocation : Invocation) : Decidable (setting.Accepts invocation) :=
  inferInstanceAs (Decidable (_ = true))

/-- All bonus hints are positive. -/
def PositiveHints (setting : Setting) : Prop :=
  ∀ site bonus, setting.scorer.hint? site = some bonus → 0.0 < bonus

variable {setting : Setting} {call : Call} {parent parent' : Option Invocation}
  {invocation invocation' : Invocation}

/-- Of two calls of one callee, the hotter one is accepted if the cooler one is. -/
theorem accepts_of_relevance_le (hints : setting.PositiveHints)
    (callee : invocation'.callee = invocation.callee)
    (finite : invocation'.relevance.isFinite = true)
    (le : invocation.relevance ≤ invocation'.relevance) (accepts : setting.Accepts invocation) :
    setting.Accepts invocation' := by
  rw [Accepts, Policy.accepted_iff] at accepts ⊢
  simp only [Policy.applies_congr callee]
  refine accepts.imp id (Or.imp id (Or.imp id (And.imp id (Or.imp id (And.imp id ?_)))))
  intro within
  have bonus : (Policy.ofProfile setting.scorer setting.intrinsics).bonus invocation' =
      (Policy.ofProfile setting.scorer setting.intrinsics).bonus invocation := by
    rw [Policy.bonus, Policy.bonus, callee]
  rw [callee, Policy.sizeBound, bonus]
  exact le_mul_lesser (units_toFloat_nonneg _) (units_base_nonneg _ (bonus_pos hints)) finite le
    within

/-- A call that is accepted in a parent is accepted in every one that hands more down. -/
theorem accepts_of_cooler (hints : setting.PositiveHints) (finite : call.relevance.isFinite = true)
    (cooler : Cooler parent parent') (inside : call.inside parent = .ok invocation)
    (inside' : call.inside parent' = .ok invocation') (accepts : setting.Accepts invocation) :
    setting.Accepts invocation' := by
  obtain ⟨valid, placed⟩ := Call.inside_eq_ok_iff.1 inside
  obtain ⟨-, placed'⟩ := Call.inside_eq_ok_iff.1 inside'
  have nonneg' := le_trans_le cooler.nonneg cooler.le
  exact accepts_of_relevance_le hints (placed'.callee.trans placed.callee.symm)
    (placed'.isFinite_relevance valid finite nonneg')
    (placed.relevance_le valid finite cooler placed') accepts

/-- A hotter parent makes a call no harder to accept, and no parent makes it easier than in the
method that is being compiled.  So it gets no easier to accept with more frames around its chain. -/
theorem nesting_only_hardens (hints : setting.PositiveHints) (valid : call.InRange)
    (finite : call.relevance.isFinite = true) :
    (∀ parent parent' : Invocation, 0.0 ≤ parent.relevance →
      parent.relevance ≤ parent'.relevance →
      parent.depth < Word.largest → parent'.depth < Word.largest →
      ∃ nested nested' plain,
        parent.nestedIn call.callee call.probability call.relevance = .ok nested ∧
        parent'.nestedIn call.callee call.probability call.relevance = .ok nested' ∧
        Invocation.root call.callee call.probability call.relevance = .ok plain ∧
        (setting.Accepts nested → setting.Accepts nested') ∧
        (setting.Accepts nested' → setting.Accepts plain)) ∧
    ∀ outer inner : List Call, (∀ frame ∈ outer ++ inner, frame.InRange) →
      (outer ++ inner).length < UInt64.size →
      ∃ nested nested',
        call.within (outer ++ inner) = .ok nested ∧ call.within inner = .ok nested' ∧
        (setting.Accepts nested → setting.Accepts nested') := by
  refine ⟨fun parent parent' nonneg le room room' => ?parents,
    fun outer inner frames room => ?chains⟩
  case parents =>
    have cooler := cooler_of_relevance_le nonneg le
    have cooler' : Cooler (some parent') none :=
      cooler_none (le_trans_le cooler.nonneg cooler.le)
    obtain ⟨nested, inside⟩ := Call.exists_inside valid (some parent) (framesAround_lt room)
    obtain ⟨nested', inside'⟩ := Call.exists_inside valid (some parent') (framesAround_lt room')
    obtain ⟨plain, plain_inside⟩ := Call.exists_inside valid none (by decide)
    exact ⟨nested, nested', plain, inside, inside', plain_inside,
      accepts_of_cooler hints finite cooler inside inside',
      accepts_of_cooler hints finite cooler' inside' plain_inside⟩
  case chains =>
    have inner_frames := (List.forall_mem_append.1 frames).2
    have inner_room : inner.length < UInt64.size := by
      rw [List.length_append] at room
      omega
    obtain ⟨parent, nested, run, inside, within⟩ := Call.exists_within valid frames room
    obtain ⟨parent', nested', run', inside', within'⟩ :=
      Call.exists_within valid inner_frames inner_room
    exact ⟨nested, nested', within, within',
      accepts_of_cooler hints finite (Call.cooler_of_outer run run') inside inside'⟩

/-- The default thresholds with one bonus hint, of 2. -/
def hinted : Setting where
  config := {}
  scorer := .ofHints [(⟨7⟩, 2.0)] 1.0
  intrinsics := {}
  fullyProcessed := true

/-- A call of the given relevance at the call site with the hint. -/
def hintedCall (relevance : Float) : Call where
  callee := { name := "A.m", callSite := ⟨7⟩, nodeCount := 500 }
  probability := 0.5
  relevance := relevance

theorem inRange_hintedCall {relevance : Float} (nonneg : 0.0 ≤ relevance) :
    (hintedCall relevance).InRange :=
  ⟨(by decide : (0.0 : Float) ≤ 0.5), (by decide : (0.5 : Float) ≤ 1.0), nonneg⟩

/-- The call is accepted in a cold frame, in a hot one, in both and in none. -/
theorem nesting_hinted :
    hinted.PositiveHints ∧ (hintedCall 0.95).InRange ∧ (0.95 : Float).isFinite = true ∧
    (∃ nested nested' plain,
      (Query.plain 40 0.9 true).invocation.nestedIn (hintedCall 0.95).callee 0.5 0.95 =
        .ok nested ∧
      (Query.plain 40 (1.0 / 0.0) true).invocation.nestedIn (hintedCall 0.95).callee 0.5 0.95 =
        .ok nested' ∧
      Invocation.root (hintedCall 0.95).callee 0.5 0.95 = .ok plain ∧
      hinted.Accepts nested ∧ hinted.Accepts nested' ∧ hinted.Accepts plain) ∧
    ∃ nested nested',
      (hintedCall 0.95).within [hintedCall 0.9, hintedCall (1.0 / 0.0)] = .ok nested ∧
      (hintedCall 0.95).within [hintedCall (1.0 / 0.0)] = .ok nested' ∧
      hinted.Accepts nested ∧ hinted.Accepts nested' := by
  have hints : hinted.PositiveHints := fun site bonus known =>
    ProfileScorer.forall_hint_ofHints (by decide) known
  have valid : (hintedCall 0.95).InRange := inRange_hintedCall (by decide)
  have frames : ∀ frame ∈ [hintedCall 0.9] ++ [hintedCall (1.0 / 0.0)], frame.InRange := by
    intro frame mem
    rw [List.singleton_append, List.mem_cons, List.mem_singleton] at mem
    rcases mem with rfl | rfl
    · exact inRange_hintedCall (by decide)
    · exact inRange_hintedCall (by decide)
  obtain ⟨parents, chains⟩ := nesting_only_hardens hints valid (by decide)
  obtain ⟨nested, nested', plain, inside, inside', plain_inside, carries, carries'⟩ :=
    parents (Query.plain 40 0.9 true).invocation (Query.plain 40 (1.0 / 0.0) true).invocation
      (by decide) (by decide) (by decide) (by decide)
  have accepts : hinted.Accepts nested := by
    obtain rfl := Except.ok.inj inside
    decide
  obtain ⟨deep, deep', run, run', carries_deep⟩ :=
    chains [hintedCall 0.9] [hintedCall (1.0 / 0.0)] frames (by decide)
  have accepts_deep : hinted.Accepts deep := by
    obtain rfl := Except.ok.inj run
    decide
  exact ⟨hints, valid, by decide,
    ⟨nested, nested', plain, inside, inside', plain_inside, accepts, carries accepts,
      carries' (carries accepts)⟩,
    ⟨deep, deep', run, run', accepts_deep, carries_deep accepts_deep⟩⟩

end Setting

end InlinePolicy
