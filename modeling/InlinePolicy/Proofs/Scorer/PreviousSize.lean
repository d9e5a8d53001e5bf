import Mathlib
import InlinePolicy.Scorer

/-!
# The size of a previous compilation

The sizes of a callee's targets are added up in words that stop at the largest one.  As no partial
sum is larger than the whole, the result is the exact sum, or the largest word if that is smaller
(`previousSize_eq_map`).  The exact sum settles the rest: the result is never zero, neither the
order of the targets nor one without a size makes a difference, and more targets or larger sizes
never make it smaller, not even where it is the largest word already (`previousSize_capped`).
-/

namespace InlinePolicy

/-- A sum that stops at the largest word does so wherever it gets there. -/
theorem Word.toNat_foldl_saturatingAdd (size : UInt64) (sizes : List UInt64) :
    (sizes.foldl saturatingAdd size).toNat =
      min (size.toNat + (sizes.map UInt64.toNat).sum) (UInt64.size - 1) := by
  induction sizes generalizing size with
  | nil =>
    have := size.toNat_lt_size
    simp only [List.foldl_nil, List.map_nil, List.sum_nil]
    omega
  | cons next sizes ih =>
    rw [List.foldl_cons, ih, toNat_saturatingAdd, List.map_cons, List.sum_cons]
    omega

/-- The sizes of previous compilations of a callee's targets that are known and positive. -/
def Callee.compiledSizes (callee : Callee) : List ℕ :=
  (callee.targets.filterMap fun target => target.compiledSize.map UInt64.toNat).filter (0 < ·)

/-- The exact sum of these sizes, if there are any. -/
def Callee.compiledTotal? (callee : Callee) : Option ℕ :=
  if callee.compiledSizes = [] then none else some callee.compiledSizes.sum

namespace ProfileScorer

theorem map_toNat_knownSizes (callee : Callee) :
    (knownSizes callee).map UInt64.toNat = callee.compiledSizes := by
  have positive : (fun size : UInt64 => decide (0 < size)) =
      (fun n : ℕ => decide (0 < n)) ∘ UInt64.toNat := by
    funext size
    simp [UInt64.lt_iff_toNat_lt]
  have sizes : callee.targets.filterMap (fun target => target.compiledSize.map UInt64.toNat) =
      (callee.targets.filterMap fun target => target.compiledSize).map UInt64.toNat :=
    List.map_filterMap.symm
  rw [knownSizes, positive, ← List.filter_map, Callee.compiledSizes, sizes]

theorem previousSize_eq_map (callee : Callee) :
    previousSize callee =
      callee.compiledTotal?.map fun total => .ofNat (min total (UInt64.size - 1)) := by
  unfold previousSize Callee.compiledTotal?
  rw [← map_toNat_knownSizes]
  cases knownSizes callee with
  | nil => rfl
  | cons size sizes =>
    have total := Word.toNat_foldl_saturatingAdd size sizes
    simp only [List.map_cons, List.sum_cons, reduceCtorEq, if_false, Option.map_some]
    rw [← total, UInt64.ofNat_toNat]

/-- A sum that fits a word is exact. -/
theorem map_toNat_previousSize {callee : Callee} (fits : callee.compiledSizes.sum < UInt64.size) :
    (previousSize callee).map UInt64.toNat = callee.compiledTotal? := by
  rw [previousSize_eq_map, Option.map_map, Callee.compiledTotal?]
  split_ifs with none_known
  · rfl
  · have exact : min callee.compiledSizes.sum (UInt64.size - 1) = callee.compiledSizes.sum := by
      omega
    simp only [Option.map_some, Function.comp_apply, exact]
    rw [UInt64.toNat_ofNat_of_lt' fits]

end ProfileScorer

/-! ## What counts for the size -/

/-- The size of the previous compilation of a target, zero if there was none. -/
def Target.knownSize (target : Target) : ℕ := (target.compiledSize.map UInt64.toNat).getD 0

/-- The size of the previous compilation of a target is unknown or zero. -/
def Target.IsUncompiled (target : Target) : Prop :=
  target.compiledSize = none ∨ target.compiledSize = some 0

theorem Target.knownSize_eq_zero_iff {target : Target} :
    target.knownSize = 0 ↔ target.IsUncompiled := by
  unfold knownSize IsUncompiled
  cases target.compiledSize with
  | none => simp
  | some size => simp [← UInt64.toNat_inj]

namespace Callee

/-- Zeros add nothing, so all targets may be counted. -/
theorem sum_compiledSizes (callee : Callee) :
    callee.compiledSizes.sum = (callee.targets.map Target.knownSize).sum := by
  unfold compiledSizes
  induction callee.targets with
  | nil => rfl
  | cons target targets ih =>
    rw [List.map_cons, List.sum_cons, ← ih, List.filterMap_cons, Target.knownSize]
    cases target.compiledSize with
    | none => simp
    | some size =>
      simp only [Option.map_some, Option.getD_some, List.filter_cons, decide_eq_true_eq]
      split_ifs with pos
      · rw [List.sum_cons]
      · rw [Nat.eq_zero_of_not_pos pos, Nat.zero_add]

theorem compiledSizes_eq_nil_iff {callee : Callee} :
    callee.compiledSizes = [] ↔ callee.compiledSizes.sum = 0 := by
  rw [List.sum_eq_zero_iff]
  constructor
  · intro none_known size mem
    rw [none_known] at mem
    cases mem
  · intro zeros
    refine List.eq_nil_iff_forall_not_mem.2 fun size mem => ?_
    have pos := of_decide_eq_true (List.mem_filter.1 mem).2
    exact pos.ne' (zeros size mem)

variable {callee callee' : Callee}

theorem sum_compiledSizes_of_perm (order : callee'.targets.Perm callee.targets) :
    callee'.compiledSizes.sum = callee.compiledSizes.sum := by
  rw [sum_compiledSizes, sum_compiledSizes]
  exact (order.map Target.knownSize).sum_eq

theorem sum_compiledSizes_of_insert {before after : List Target} {target : Target}
    (without : callee.targets = before ++ after)
    (inserted : callee'.targets = before ++ target :: after) (uncompiled : target.IsUncompiled) :
    callee'.compiledSizes.sum = callee.compiledSizes.sum := by
  have zero := Target.knownSize_eq_zero_iff.2 uncompiled
  rw [sum_compiledSizes, sum_compiledSizes, without, inserted]
  simp [zero]

/-- More targets and larger sizes make the sum larger. -/
theorem sum_knownSize_mono {targets targets' : List Target}
    (grown : List.SublistForall₂ (fun target target' => target.knownSize ≤ target'.knownSize)
      targets targets') :
    (targets.map Target.knownSize).sum ≤ (targets'.map Target.knownSize).sum := by
  induction grown with
  | nil => exact Nat.zero_le _
  | cons larger _ ih =>
    rw [List.map_cons, List.map_cons, List.sum_cons, List.sum_cons]
    exact Nat.add_le_add larger ih
  | cons_right _ ih =>
    rw [List.map_cons, List.sum_cons]
    exact Nat.le_add_left_of_le ih

end Callee

namespace ProfileScorer

variable {callee callee' : Callee}

theorem previousSize_eq_ite (callee : Callee) :
    previousSize callee =
      if callee.compiledSizes.sum = 0 then none
      else some (.ofNat (min callee.compiledSizes.sum (2 ^ 64 - 1))) := by
  rw [previousSize_eq_map, Callee.compiledTotal?]
  by_cases zero : callee.compiledSizes.sum = 0
  · rw [if_pos zero, if_pos (Callee.compiledSizes_eq_nil_iff.2 zero), Option.map_none]
  · rw [if_neg zero, if_neg (mt Callee.compiledSizes_eq_nil_iff.1 zero), Option.map_some]
    rfl

theorem previousSize_eq_none_iff :
    previousSize callee = none ↔ ∀ target ∈ callee.targets, target.IsUncompiled := by
  rw [previousSize_eq_ite, ite_eq_left_iff, Callee.sum_compiledSizes, List.sum_eq_zero_iff,
    List.forall_mem_map]
  simp only [reduceCtorEq, imp_false, not_not, Target.knownSize_eq_zero_iff]

theorem previousSize_eq_some_iff {size : UInt64} :
    previousSize callee = some size ↔
      0 < callee.compiledSizes.sum ∧
        size.toNat = min callee.compiledSizes.sum (2 ^ 64 - 1) := by
  have capped : (UInt64.ofNat (min callee.compiledSizes.sum (2 ^ 64 - 1))).toNat =
      min callee.compiledSizes.sum (2 ^ 64 - 1) :=
    UInt64.toNat_ofNat_of_lt' ((min_le_right _ _).trans_lt (by decide))
  rw [previousSize_eq_ite, Option.ite_none_left_eq_some, Nat.pos_iff_ne_zero, Option.some_inj,
    ← UInt64.toNat_inj, capped, eq_comm (a := size.toNat)]

theorem previousSize_congr_sum (same : callee'.compiledSizes.sum = callee.compiledSizes.sum) :
    previousSize callee' = previousSize callee := by
  rw [previousSize_eq_ite, previousSize_eq_ite, same]

theorem previousSize_mono {size : UInt64}
    (le : callee.compiledSizes.sum ≤ callee'.compiledSizes.sum)
    (known : previousSize callee = some size) :
    ∃ size', previousSize callee' = some size' ∧ size ≤ size' := by
  obtain ⟨pos, size_eq⟩ := previousSize_eq_some_iff.1 known
  have capped : min callee'.compiledSizes.sum (2 ^ 64 - 1) < UInt64.size :=
    (min_le_right _ _).trans_lt (by decide)
  refine ⟨.ofNat (min callee'.compiledSizes.sum (2 ^ 64 - 1)), ?_, ?_⟩
  · exact previousSize_eq_some_iff.2 ⟨pos.trans_le le, UInt64.toNat_ofNat_of_lt' capped⟩
  · rw [UInt64.le_iff_toNat_le, size_eq, UInt64.toNat_ofNat_of_lt' capped]
    exact min_le_min_right _ le

/-- The size of a previous compilation is the exact sum of the sizes that are known and positive,
up to the largest word, and none if there are no such sizes.  So it is never zero, it depends
neither on the order of the targets nor on those without a size, and it does not fall where targets
are added or sizes grow. -/
theorem previousSize_capped (callee : Callee) :
    (previousSize callee = none ↔ ∀ target ∈ callee.targets, target.IsUncompiled) ∧
    (∀ size, previousSize callee = some size →
      size ≠ 0 ∧ size.toNat = min callee.compiledSizes.sum (2 ^ 64 - 1)) ∧
    (∀ callee' : Callee, callee'.targets.Perm callee.targets →
      previousSize callee' = previousSize callee) ∧
    (∀ (callee' : Callee) (before after : List Target) (target : Target),
      callee.targets = before ++ after → callee'.targets = before ++ target :: after →
      target.IsUncompiled → previousSize callee' = previousSize callee) ∧
    ∀ callee' : Callee,
      List.SublistForall₂ (fun target target' => target.knownSize ≤ target'.knownSize)
        callee.targets callee'.targets →
      ∀ size, previousSize callee = some size →
        ∃ size', previousSize callee' = some size' ∧ size ≤ size' := by
  refine ⟨previousSize_eq_none_iff, fun size known => ?_, fun callee' order => ?_,
    fun callee' before after target without inserted uncompiled => ?_,
    fun callee' grown size known => ?_⟩
  · obtain ⟨pos, size_eq⟩ := previousSize_eq_some_iff.1 known
    refine ⟨?_, size_eq⟩
    rintro rfl
    exact (lt_min pos (by decide)).ne size_eq
  · exact previousSize_congr_sum (Callee.sum_compiledSizes_of_perm order)
  · exact previousSize_congr_sum (Callee.sum_compiledSizes_of_insert without inserted uncompiled)
  · refine previousSize_mono ?_ known
    rw [Callee.sum_compiledSizes, Callee.sum_compiledSizes]
    exact Callee.sum_knownSize_mono grown

/-- A callee with targets of the given sizes. -/
def calleeOfSizes (sizes : List (Option UInt64)) : Callee where
  name := "A.m"
  callSite := ⟨7⟩
  nodeCount := 20
  targets := sizes.map fun size => { method := "A.m", compiledSize := size }

/-- Two targets that together exceed the largest word, in either order, with one between them that
was never compiled, and with a size that grows past saturation. -/
theorem previousSize_capped_saturated :
    previousSize (calleeOfSizes [some 18446744073709551614, some 5]) = some Word.largest ∧
    previousSize (calleeOfSizes [some 5, some 18446744073709551614]) = some Word.largest ∧
    previousSize (calleeOfSizes [some 18446744073709551614, none, some 5]) = some Word.largest ∧
    ∃ size, previousSize (calleeOfSizes [some 0, some 18446744073709551614, some 9]) = some size ∧
      Word.largest ≤ size := by
  obtain ⟨-, -, perm, insert, mono⟩ :=
    previousSize_capped (calleeOfSizes [some 18446744073709551614, some 5])
  have known : previousSize (calleeOfSizes [some 18446744073709551614, some 5]) =
      some Word.largest := by decide
  refine ⟨known, ?_, ?_, ?_⟩
  · exact (perm _ (List.Perm.swap _ _ [])).trans known
  · exact (insert _ [{ method := "A.m", compiledSize := some 18446744073709551614 }]
      [{ method := "A.m", compiledSize := some 5 }] { method := "A.m" } rfl rfl
      (.inl rfl)).trans known
  · exact mono _ (.cons_right (.cons (by decide) (.cons (by decide) .nil))) _ known

end ProfileScorer

end InlinePolicy
