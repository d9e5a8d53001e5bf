import InlinePolicy.Proofs.Binary64.Quotients
import InlinePolicy.Proofs.Metrics.Totals

/-!
# The acceptance rate

The tallies of all reasons have an exact sum.  If it does not fit a word there is no total, and if
it does there are all other totals too: the accepted and the rejected decisions make up the whole,
and the acceptance rate is a number between 0 and 1 that tells whether any decision was accepted
(`total?_and_isRate`), although both counts lose digits on their way to a `Float`.
-/

namespace InlinePolicy.Stats

open Binary64

/-- The exact number of decisions. -/
def size (stats : Stats) : ℕ := (Reason.all.map fun reason => (stats.tally reason).size).sum

/-- Empty tallies add nothing, so the reasons that have not been seen may be counted too. -/
theorem sum_map_tallies (stats : Stats) (f : Tally → ℕ) (empty : f {} = 0) :
    (stats.tallies.map f).sum = (Reason.all.map fun reason => f (stats.tally reason)).sum := by
  have nodup : Reason.all.Nodup := by decide
  rw [tallies_eq_map_keys, List.map_map, ← List.sum_toFinset _ Std.ExtTreeMap.nodup_keys,
    ← List.sum_toFinset _ nodup]
  refine Finset.sum_subset (fun reason _ => List.mem_toFinset.2 reason.mem_all) ?_
  intro reason _ unseen
  rw [List.mem_toFinset, Std.ExtTreeMap.mem_keys] at unseen
  rw [Function.comp_apply, tally, Std.ExtTreeMap.getElem?_eq_none unseen]
  exact empty

theorem total?_eq_ofNat?_size (stats : Stats) : stats.total? = Word.ofNat? stats.size := by
  rw [total?_eq_ofNat?, sum_map_tallies stats _ rfl, size]

/-- A rate belongs to the counts of accepted, rejected and all decisions. -/
structure IsRate (accepted rejected total : UInt64) (rate : Float) : Prop where
  /-- Nothing is divided by zero. -/
  quotient : total = 0 ∧ rate = 0.0 ∨
    0.0 < total.toFloat ∧ rate = accepted.toFloat / total.toFloat
  nonneg : 0.0 ≤ rate
  le_one : rate ≤ 1.0
  eq_zero_iff : rate = 0.0 ↔ accepted = 0
  zero_lt_iff : 0.0 < rate ↔ 0 < accepted
  eq_one : rejected = 0 → 0 < total → rate = 1.0

theorem isRate_zero (rejected : UInt64) : IsRate 0 rejected 0 0.0 where
  quotient := .inl ⟨rfl, rfl⟩
  nonneg := by decide
  le_one := by decide
  eq_zero_iff := iff_of_true rfl rfl
  zero_lt_iff := by decide
  eq_one _ pos := absurd pos (by decide)

theorem isRate_div {accepted rejected total : UInt64}
    (sum : accepted.toNat + rejected.toNat = total.toNat) (pos : 0 < total) :
    IsRate accepted rejected total (accepted.toFloat / total.toFloat) where
  quotient := .inr ⟨zero_lt_toFloat pos, rfl⟩
  nonneg := (toFloat_div_nonneg_le_one pos (UInt64.le_iff_toNat_le.2 (by omega))).1
  le_one := (toFloat_div_nonneg_le_one pos (UInt64.le_iff_toNat_le.2 (by omega))).2
  eq_zero_iff := toFloat_div_eq_zero_iff pos
  zero_lt_iff := by
    refine ⟨fun h => UInt64.pos_iff_ne_zero.2 ?_, fun posA => zero_lt_toFloat_div posA pos⟩
    rintro rfl
    rw [zero_toFloat_div pos] at h
    exact absurd h (by decide)
  eq_one none _ := by
    obtain rfl : accepted = total := by
      rw [none] at sum
      exact UInt64.toNat_inj.1 sum
    exact toFloat_div_self pos

/-- Where there is a total, there is a rate that belongs to it. -/
theorem exists_acceptanceRate?_eq_some {stats : Stats} {total accepted rejected : UInt64}
    (total_eq : stats.total? = some total) (accepted_eq : stats.accepted? = some accepted)
    (sum : accepted.toNat + rejected.toNat = total.toNat) :
    ∃ rate, stats.acceptanceRate? = some rate ∧ IsRate accepted rejected total rate := by
  unfold acceptanceRate?
  rw [total_eq, accepted_eq]
  by_cases zero : total = 0
  · subst zero
    have none : accepted.toNat = 0 := Nat.eq_zero_of_add_eq_zero_right sum
    obtain rfl : accepted = 0 := UInt64.toNat_inj.1 none
    exact ⟨0.0, rfl, isRate_zero rejected⟩
  · exact ⟨_, if_neg zero, isRate_div sum (UInt64.pos_iff_ne_zero.2 zero)⟩

/-- There is no total exactly if the decisions are too many for a word.  Otherwise nothing else
overflows, and the rate belongs to the counts. -/
theorem total?_and_isRate (stats : Stats) :
    (stats.total? = none ↔ 2 ^ 64 - 1 < stats.size) ∧
      ∀ total, stats.total? = some total → ∃ accepted rejected rate,
        stats.accepted? = some accepted ∧ stats.rejected? = some rejected ∧
        stats.acceptanceRate? = some rate ∧
        stats.totals? = some ⟨total, accepted, rejected, rate⟩ ∧
        total.toNat = stats.size ∧ accepted.toNat + rejected.toNat = total.toNat ∧
        IsRate accepted rejected total rate := by
  refine ⟨?_, fun total total_eq => ?_⟩
  · rw [total?_eq_ofNat?_size, Word.ofNat?_eq_none_iff]
    exact Nat.lt_iff_add_one_le.symm
  · have toNat_total : total.toNat = (stats.tallies.map Tally.size).sum :=
      Word.ofNat?_eq_some_iff.1 ((total?_eq_ofNat? stats).symm.trans total_eq)
    have parts := sum_size_eq_add stats.tallies
    have fits := total.toNat_lt_size
    obtain ⟨accepted, accepted_eq, toNat_accepted⟩ := Word.exists_ofNat?_eq_some
      (n := (stats.tallies.map fun tally => tally.accepted.toNat).sum) (by omega)
    obtain ⟨rejected, rejected_eq, toNat_rejected⟩ := Word.exists_ofNat?_eq_some
      (n := (stats.tallies.map fun tally => tally.rejected.toNat).sum) (by omega)
    rw [← accepted?_eq_ofNat?] at accepted_eq
    rw [← rejected?_eq_ofNat?] at rejected_eq
    have sum : accepted.toNat + rejected.toNat = total.toNat := by omega
    obtain ⟨rate, rate_eq, isRate⟩ := exists_acceptanceRate?_eq_some total_eq accepted_eq sum
    refine ⟨accepted, rejected, rate, accepted_eq, rejected_eq, rate_eq,
      totals?_eq_of_eq_some total_eq accepted_eq rejected_eq rate_eq, ?_, sum, isRate⟩
    rw [toNat_total, sum_map_tallies stats _ rfl, size]

/-- So many decisions that one more would be too many. -/
def fullTallies : Stats where
  perReason := (Std.ExtTreeMap.empty.insert .trivialSize ⟨9223372036854775807, 0⟩).insert
    .relevanceBased ⟨9223372036854775807, 1⟩

theorem total?_fullTallies : fullTallies.total? = some 18446744073709551615 := by decide

theorem total?_and_isRate_fullTallies :
    ∃ accepted rejected rate, fullTallies.accepted? = some accepted ∧
      fullTallies.rejected? = some rejected ∧ fullTallies.acceptanceRate? = some rate ∧
      accepted.toNat + rejected.toNat = 2 ^ 64 - 1 ∧
      IsRate accepted rejected 18446744073709551615 rate := by
  obtain ⟨accepted, rejected, rate, accepted_eq, rejected_eq, rate_eq, -, -, sum, isRate⟩ :=
    (total?_and_isRate fullTallies).2 18446744073709551615 total?_fullTallies
  exact ⟨accepted, rejected, rate, accepted_eq, rejected_eq, rate_eq, sum, isRate⟩

/-- The rate does not tell one rejected decision from none: both counts become the same number. -/
example : fullTallies.rejected? = some 1 ∧ fullTallies.acceptanceRate? = some 1.0 := by
  decide +kernel

end InlinePolicy.Stats
