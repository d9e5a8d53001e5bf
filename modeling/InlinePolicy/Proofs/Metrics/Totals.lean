import Mathlib
import InlinePolicy.Metrics.Tally

/-!
# Sums of tallies

The sums over all reasons are the exact sums wherever these fit a word: a partial sum that does
not fit makes the whole one too large as well (`sum?_eq_ofNat?`, `total?_eq_ofNat?`).
-/

namespace InlinePolicy

namespace Word

theorem add?_eq_none_iff {a b : UInt64} : add? a b = none ↔ UInt64.size ≤ a.toNat + b.toNat :=
  ofNat?_eq_none_iff

theorem ofNat?_toNat (w : UInt64) : ofNat? w.toNat = some w := ofNat?_eq_some_iff.2 rfl

theorem exists_ofNat?_eq_some {n : ℕ} (h : n < UInt64.size) :
    ∃ w, ofNat? n = some w ∧ w.toNat = n :=
  ⟨.ofNat n, if_pos h, UInt64.toNat_ofNat_of_lt h⟩

theorem foldlM_add?_eq_ofNat? (a : UInt64) (words : List UInt64) :
    words.foldlM add? a = ofNat? (a.toNat + (words.map UInt64.toNat).sum) := by
  induction words generalizing a with
  | nil => exact (ofNat?_toNat a).symm
  | cons word words ih =>
    rw [List.foldlM_cons, List.map_cons, List.sum_cons, ← Nat.add_assoc]
    cases step : add? a word with
    | some b =>
      rw [← add?_eq_some_iff.1 step]
      exact ih b
    | none =>
      have large := add?_eq_none_iff.1 step
      exact (ofNat?_eq_none_iff.2 (Nat.le_add_right_of_le large)).symm

theorem sum?_eq_ofNat? (words : List UInt64) :
    sum? words = ofNat? (words.map UInt64.toNat).sum := by
  rw [sum?, foldlM_add?_eq_ofNat?]
  exact congrArg ofNat? (Nat.zero_add _)

end Word

/-- The exact number of decisions of a tally. -/
def Tally.size (tally : Tally) : ℕ := tally.accepted.toNat + tally.rejected.toNat

theorem Tally.total?_eq_ofNat? (tally : Tally) : tally.total? = Word.ofNat? tally.size := rfl

namespace Stats

/-- The tally of a reason, which is empty unless the reason has been seen. -/
def tally (stats : Stats) (reason : Reason) : Tally := stats.perReason[reason]?.getD {}

theorem tallies_eq_map_keys (stats : Stats) :
    stats.tallies = stats.perReason.keys.map stats.tally := by
  rw [tallies, entries, ← Std.ExtTreeMap.map_fst_toList_eq_keys, List.map_map]
  refine List.map_congr_left fun entry mem => ?_
  have found := Std.ExtTreeMap.mem_toList_iff_getElem?_eq_some.1 mem
  exact (congrArg (fun tally => tally.getD {}) found).symm

theorem map_toNat_of_mapM_total? {tallies : List Tally} {words : List UInt64}
    (h : tallies.mapM Tally.total? = some words) :
    words.map UInt64.toNat = tallies.map Tally.size := by
  induction tallies generalizing words with
  | nil =>
    obtain rfl : [] = words := Option.some.inj h
    rfl
  | cons tally tallies ih =>
    rw [List.mapM_cons] at h
    obtain ⟨word, first, h⟩ := Option.bind_eq_some_iff.1 h
    obtain ⟨words', rest, h⟩ := Option.bind_eq_some_iff.1 h
    obtain rfl : word :: words' = words := Option.some.inj h
    rw [List.map_cons, List.map_cons, ih rest]
    exact congrArg (· :: _) (Word.ofNat?_eq_some_iff.1 first)

theorem size_le_sum_of_mapM_total? {tallies : List Tally}
    (h : tallies.mapM Tally.total? = none) :
    UInt64.size ≤ (tallies.map Tally.size).sum := by
  induction tallies with
  | nil => cases h
  | cons tally tallies ih =>
    rw [List.map_cons, List.sum_cons]
    rw [List.mapM_cons] at h
    cases first : tally.total? with
    | none =>
      have := Word.ofNat?_eq_none_iff.1 (tally.total?_eq_ofNat?.symm.trans first)
      omega
    | some word =>
      cases rest : tallies.mapM Tally.total? with
      | none =>
        have := ih rest
        omega
      | some words =>
        rw [first, rest] at h
        cases h

theorem total?_eq_ofNat? (stats : Stats) :
    stats.total? = Word.ofNat? (stats.tallies.map Tally.size).sum := by
  unfold total?
  cases h : stats.tallies.mapM Tally.total? with
  | none => exact (Word.ofNat?_eq_none_iff.2 (size_le_sum_of_mapM_total? h)).symm
  | some words =>
    rw [← map_toNat_of_mapM_total? h]
    exact Word.sum?_eq_ofNat? words

theorem accepted?_eq_ofNat? (stats : Stats) :
    stats.accepted? = Word.ofNat? (stats.tallies.map fun tally => tally.accepted.toNat).sum := by
  rw [accepted?, Word.sum?_eq_ofNat?, List.map_map]
  rfl

theorem rejected?_eq_ofNat? (stats : Stats) :
    stats.rejected? = Word.ofNat? (stats.tallies.map fun tally => tally.rejected.toNat).sum := by
  rw [rejected?, Word.sum?_eq_ofNat?, List.map_map]
  rfl

theorem sum_size_eq_add (tallies : List Tally) :
    (tallies.map Tally.size).sum =
      (tallies.map fun tally => tally.accepted.toNat).sum +
        (tallies.map fun tally => tally.rejected.toNat).sum :=
  List.sum_map_add

section

variable {stats : Stats} {total accepted rejected : UInt64} (total_eq : stats.total? = some total)
  (accepted_eq : stats.accepted? = some accepted) (rejected_eq : stats.rejected? = some rejected)
include total_eq accepted_eq rejected_eq

theorem totals?_eq_of_eq_some {rate : Float} (rate_eq : stats.acceptanceRate? = some rate) :
    stats.totals? = some ⟨total, accepted, rejected, rate⟩ := by
  rw [totals?, total_eq, accepted_eq, rejected_eq, rate_eq]
  rfl

/-- If the sums fit a word, so does everything that is computed from them. -/
theorem totals?_eq_some : ∃ rate, stats.totals? = some ⟨total, accepted, rejected, rate⟩ := by
  have rate : ∃ rate, stats.acceptanceRate? = some rate := by
    unfold acceptanceRate?
    rw [total_eq, accepted_eq]
    by_cases zero : total = 0
    · exact ⟨0.0, if_pos zero⟩
    · exact ⟨_, if_neg zero⟩
  obtain ⟨rate, rate_eq⟩ := rate
  exact ⟨rate, totals?_eq_of_eq_some total_eq accepted_eq rejected_eq rate_eq⟩

end

end Stats

end InlinePolicy
