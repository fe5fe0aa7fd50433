import Xprobe.Correlator.Checked

/-!
# Percentiles

`statistics` reports percentiles by nearest rank: the value at position `⌈p n / 100⌉` of the sorted
latencies. At least p percent of the latencies are at most this value, and fewer than p percent are
below it. These two counts are what a percentile means, whatever values repeat and however short the
list is.
-/

namespace Xprobe.Correlator

open Foundation Protocol

/-- A value of the list that at least p percent of it do not exceed, and fewer than p percent are
    below. -/
structure NearestRank (values : List UInt64) (percent : Nat) (value : UInt64) : Prop where
  mem : value ∈ values
  reached : percent * values.length ≤ 100 * values.countP (fun v => decide (v ≤ value))
  first : 100 * values.countP (fun v => decide (v < value)) < percent * values.length

theorem NearestRank.perm {values values' : List UInt64} {percent : Nat} {value : UInt64}
    (h : NearestRank values percent value) (hperm : values.Perm values') :
    NearestRank values' percent value where
  mem := hperm.subset h.mem
  reached := by
    rw [← hperm.length_eq, ← hperm.countP_eq]
    exact h.reached
  first := by
    rw [← hperm.length_eq, ← hperm.countP_eq]
    exact h.first

/-- A higher percentile is not a smaller value. -/
theorem NearestRank.mono {values : List UInt64} {low high : Nat} {value value' : UInt64}
    (h : NearestRank values low value) (h' : NearestRank values high value')
    (hle : low ≤ high) : value ≤ value' := by
  by_contra hlt
  -- what does not exceed the higher one would be below the lower one
  have hcount : values.countP (fun v => decide (v ≤ value')) ≤
      values.countP (fun v => decide (v < value)) := by
    refine List.countP_mono_left ?_
    intro v _ hv
    exact decide_eq_true (lt_of_le_of_lt (of_decide_eq_true hv) (not_le.mp hlt))
  have hreached := h'.reached
  have hfirst := h.first
  have hlengths := Nat.mul_le_mul_right values.length hle
  omega

section Sorted

variable {sorted : List UInt64}

/-- The rank of a percentile is a position of the list. -/
theorem percentile_nearestRank (hsorted : SortedBy id sorted) (hne : sorted ≠ []) {percent : Nat}
    (hpos : 0 < percent) (hle : percent ≤ 100) :
    ∃ value, percentile sorted percent = some value ∧ NearestRank sorted percent value := by
  have hlength : 0 < sorted.length := List.length_pos_of_ne_nil hne
  have hproduct : 0 < percent * sorted.length := Nat.mul_pos hpos hlength
  have hbound : percent * sorted.length ≤ 100 * sorted.length := Nat.mul_le_mul_right _ hle
  -- the ceiling, shifted to a position
  obtain ⟨i, hi, hrank⟩ : ∃ i, i < sorted.length ∧
      (percent * sorted.length + 99) / 100 = i + 1 :=
    ⟨(percent * sorted.length + 99) / 100 - 1, by omega, by omega⟩
  refine ⟨sorted[i], ?_, List.getElem_mem hi, ?_, ?_⟩
  · rw [percentile, hrank, Nat.add_sub_cancel, List.getElem?_eq_getElem hi]
  · have hcount : i < sorted.countP (fun v => decide (v ≤ sorted[i])) :=
      hsorted.lt_countP hi (fun v hv => by simpa using hv)
    omega
  · have hcount : sorted.countP (fun v => decide (v < sorted[i])) ≤ i :=
      hsorted.countP_le hi (fun v hv => by simpa using hv)
    omega

theorem head?_le_of_sorted (hsorted : SortedBy id sorted) {value first : UInt64}
    (hfirst : sorted.head? = some first) (hvalue : value ∈ sorted) : first ≤ value := by
  cases sorted with
  | nil => cases hvalue
  | cons head rest =>
    cases hfirst
    rcases List.mem_cons.mp hvalue with rfl | hmem
    · exact le_refl _
    · exact List.rel_of_pairwise_cons hsorted hmem

theorem le_getLast?_of_sorted (hsorted : SortedBy id sorted) {value last : UInt64}
    (hlast : sorted.getLast? = some last) (hvalue : value ∈ sorted) : value ≤ last := by
  rw [SortedBy, ← List.dropLast_append_getLast? last hlast] at hsorted
  rw [← List.dropLast_append_getLast? last hlast] at hvalue
  rcases List.mem_append.mp hvalue with hfront | hend
  · exact (List.pairwise_append.mp hsorted).2.2 value hfront last List.mem_cons_self
  · rw [List.mem_singleton.mp hend]

end Sorted

/-- The statistics of latencies in any order: percentiles by nearest rank, in order between the
    least and the greatest, and the same for every order of the list. The machine arithmetic of the
    source computes them as long as the products with the length fit. -/
theorem statistics_nearestRank {values : List UInt64} (hne : values ≠ []) :
    ∃ stats, statistics values = some stats ∧
      NearestRank values 50 stats.p50 ∧ NearestRank values 90 stats.p90 ∧
      NearestRank values 95 stats.p95 ∧ NearestRank values 99 stats.p99 ∧
      stats.min ≤ stats.p50 ∧ stats.p50 ≤ stats.p90 ∧ stats.p90 ≤ stats.p95 ∧
      stats.p95 ≤ stats.p99 ∧ stats.p99 ≤ stats.max ∧
      (∀ values' : List UInt64, values.Perm values' → statistics values' = some stats) ∧
      (values.length < 2 ^ 57 → statisticsChecked values = some stats) := by
  have hperm := sortByKey_perm id values
  have hsorted := sortByKey_sorted id values
  have hneSorted : sortByKey id values ≠ [] := by
    intro hnil
    rw [hnil] at hperm
    exact hne (List.nil_perm.mp hperm)
  obtain ⟨p50, h50, hrank50⟩ :=
    @percentile_nearestRank _ hsorted hneSorted 50 (by decide) (by decide)
  obtain ⟨p90, h90, hrank90⟩ :=
    @percentile_nearestRank _ hsorted hneSorted 90 (by decide) (by decide)
  obtain ⟨p95, h95, hrank95⟩ :=
    @percentile_nearestRank _ hsorted hneSorted 95 (by decide) (by decide)
  obtain ⟨p99, h99, hrank99⟩ :=
    @percentile_nearestRank _ hsorted hneSorted 99 (by decide) (by decide)
  obtain ⟨first, hfirst⟩ := Option.isSome_iff_exists.mp (List.isSome_head?.mpr hneSorted)
  obtain ⟨last, hlast⟩ := Option.isSome_iff_exists.mp (List.getLast?_isSome.mpr hneSorted)
  have hstats : ∀ values' : List UInt64, values.Perm values' → statistics values' =
      some ⟨first, ⟨((sortByKey id values).map UInt64.toNat).sum, (sortByKey id values).length⟩,
        p50, p90, p95, p99, last⟩ := by
    intro values' hvalues
    -- equal latencies cannot be told apart, so every order is sorted to the same list
    have hsame : sortByKey id values' = sortByKey id values := by
      have hperm' := (sortByKey_perm id values').trans (hvalues.symm.trans hperm.symm)
      exact hperm'.eq_of_pairwise (fun a b _ _ => le_antisymm) (sortByKey_sorted id values') hsorted
    simp only [statistics, hsame, hfirst, hlast, h50, h90, h95, h99, some_bind]
  refine ⟨_, hstats values (List.Perm.refl _), hrank50.perm hperm, hrank90.perm hperm,
    hrank95.perm hperm, hrank99.perm hperm, head?_le_of_sorted hsorted hfirst hrank50.mem,
    hrank50.mono hrank90 (by decide), hrank90.mono hrank95 (by decide),
    hrank95.mono hrank99 (by decide), le_getLast?_of_sorted hsorted hlast hrank99.mem, hstats, ?_⟩
  intro hlength
  rw [statisticsChecked_eq hlength]
  exact hstats values (List.Perm.refl _)

/-- Of three latencies, two of them equal, all percentiles from 90 on are the greatest. -/
theorem statistics_nearestRank_three :
    ∃ stats, statistics [5, 9, 5] = some stats ∧ NearestRank [5, 9, 5] 50 stats.p50 ∧
      stats.p50 = 5 ∧ stats.p90 = 9 := by
  obtain ⟨stats, hstats, h50, -⟩ := @statistics_nearestRank [5, 9, 5] (List.cons_ne_nil _ _)
  have heval : statistics [5, 9, 5] = some ⟨5, ⟨19, 3⟩, 5, 9, 9, 9, 9⟩ := by decide
  cases heval.symm.trans hstats
  exact ⟨_, heval, h50, rfl, rfl⟩

end Xprobe.Correlator
