import Xprobe.Foundation.StableSort

/-!
# Unions of intervals

`interval_union_ns` in `skills/xprobe-measure-latency/scripts/analyze_trace.py`: how long at least one
of some intervals lasts. One sweep over the sorted intervals extends the segment that is open or
closes it. What it returns is the number of points in the union of the half-open intervals.
-/

namespace Xprobe.Cli

open Foundation

/-! ## The source -/

/-- The variables of the loop. -/
structure Sweep where
  union : ℤ
  currentStart : ℤ
  currentEnd : ℤ

/-- One turn of the loop. -/
def sweepStep (sweep : Sweep) (interval : ℤ × ℤ) : Sweep :=
  if interval.1 ≤ sweep.currentEnd then
    { sweep with currentEnd := max sweep.currentEnd interval.2 }
  else
    { union := sweep.union + (sweep.currentEnd - sweep.currentStart)
      currentStart := interval.1
      currentEnd := interval.2 }

/-- `interval_union_ns`. Tuples are sorted by their first component, then by their second. -/
def intervalUnionNs (intervals : List (ℤ × ℤ)) : ℤ :=
  match sortByKey toLex intervals with
  | [] => 0
  | first :: rest =>
    let sweep := rest.foldl sweepStep ⟨0, first.1, first.2⟩
    sweep.union + sweep.currentEnd - sweep.currentStart

/-! ## The sweep counts points -/

/-- The points in the union of the half-open intervals. -/
noncomputable def coveredPoints (intervals : List (ℤ × ℤ)) : Finset ℤ :=
  intervals.toFinset.biUnion (fun interval => Finset.Ico interval.1 interval.2)

variable {intervals : List (ℤ × ℤ)}

theorem mem_coveredPoints {point : ℤ} : point ∈ coveredPoints intervals ↔
      ∃ interval ∈ intervals, interval.1 ≤ point ∧ point < interval.2 := by
  simp [coveredPoints]

/-- The union counts the points before the open segment, and the segment has the others. -/
structure Swept (done : List (ℤ × ℤ)) (sweep : Sweep) : Prop where
  forward : sweep.currentStart ≤ sweep.currentEnd
  points : ∃ before : Finset ℤ, (∀ point ∈ before, point < sweep.currentStart) ∧
    (before.card : ℤ) = sweep.union ∧
    coveredPoints done = before ∪ Finset.Ico sweep.currentStart sweep.currentEnd

theorem card_before_union {before : Finset ℤ} {first last : ℤ}
    (hbefore : ∀ point ∈ before, point < first) (hforward : first ≤ last) :
    ((before ∪ Finset.Ico first last).card : ℤ) = before.card + (last - first) := by
  have hdisjoint : Disjoint before (Finset.Ico first last) := by
    rw [Finset.disjoint_left]
    intro point hpoint hsegment
    exact absurd (Finset.mem_Ico.mp hsegment).1 (not_le.mpr (hbefore point hpoint))
  rw [Finset.card_union_of_disjoint hdisjoint, Nat.cast_add, Int.card_Ico,
    Int.toNat_of_nonneg (by omega)]

/-- The next interval starts where the open segment does, or later. -/
theorem Swept.step {done : List (ℤ × ℤ)} {sweep : Sweep} (h : Swept done sweep)
    {interval : ℤ × ℤ} (hforward : interval.1 ≤ interval.2)
    (hnext : sweep.currentStart ≤ interval.1) :
    Swept (interval :: done) (sweepStep sweep interval) := by
  obtain ⟨hsegment, before, hbefore, hcard, hdone⟩ := h
  have hcovered : coveredPoints (interval :: done) =
      before ∪ Finset.Ico sweep.currentStart sweep.currentEnd ∪
        Finset.Ico interval.1 interval.2 := by
    rw [coveredPoints, List.toFinset_cons, Finset.biUnion_insert, Finset.union_comm, ← hdone]
    rfl
  rw [sweepStep]
  split_ifs with htouches
  · -- the interval touches the segment and may extend it
    refine ⟨hsegment.trans (le_max_left _ _), before, hbefore, hcard, ?_⟩
    rw [hcovered, Finset.union_assoc]
    congr 1
    ext point
    simp only [Finset.mem_union, Finset.mem_Ico, lt_max_iff]
    omega
  · -- the segment is closed, and its points come before the new one
    refine ⟨hforward, before ∪ Finset.Ico sweep.currentStart sweep.currentEnd, ?_, ?_, hcovered⟩
    · intro point hpoint
      rcases Finset.mem_union.mp hpoint with hold | hsegment
      · exact (hbefore point hold).trans_le hnext
      · exact (Finset.mem_Ico.mp hsegment).2.trans (not_le.mp htouches)
    · rw [card_before_union hbefore hsegment, hcard]

theorem Swept.foldl {done todo : List (ℤ × ℤ)} {sweep : Sweep} (h : Swept done sweep)
    (hforward : ∀ interval ∈ todo, interval.1 ≤ interval.2)
    (hstarts : ∀ interval ∈ todo, sweep.currentStart ≤ interval.1)
    (hsorted : todo.Pairwise (fun a b => a.1 ≤ b.1)) :
    Swept (todo.reverse ++ done) (todo.foldl sweepStep sweep) := by
  induction todo generalizing done sweep with
  | nil => exact h
  | cons interval rest ih =>
    obtain ⟨hlater, hsorted⟩ := List.pairwise_cons.mp hsorted
    have hstart : (sweepStep sweep interval).currentStart ≤ interval.1 := by
      rw [sweepStep]
      split_ifs
      · exact hstarts interval List.mem_cons_self
      · exact le_rfl
    rw [List.reverse_cons, List.append_assoc, List.foldl_cons]
    refine ih (h.step (hforward interval List.mem_cons_self)
      (hstarts interval List.mem_cons_self)) ?_ ?_ hsorted
    · exact fun other hother => hforward other (List.mem_cons_of_mem _ hother)
    · exact fun other hother => hstart.trans (hlater other hother)

theorem intervalUnionNs_eq_card (h : ∀ interval ∈ intervals, interval.1 ≤ interval.2) :
    intervalUnionNs intervals = (coveredPoints intervals).card := by
  have hpoints : coveredPoints (sortByKey toLex intervals) = coveredPoints intervals := by
    ext point
    simp [mem_coveredPoints]
  have hforward : ∀ interval ∈ sortByKey toLex intervals, interval.1 ≤ interval.2 :=
    fun interval hmem => h interval (mem_sortByKey.mp hmem)
  have hsorted : (sortByKey toLex intervals).Pairwise (fun a b => a.1 ≤ b.1) := by
    refine (sortByKey_sorted toLex intervals).imp ?_
    intro a b hab
    exact (Prod.Lex.le_iff.mp hab).elim le_of_lt (fun hfirst => le_of_eq hfirst.1)
  rw [← hpoints, intervalUnionNs]
  cases hordered : sortByKey toLex intervals with
  | nil => rfl
  | cons first rest =>
    rw [hordered] at hforward hsorted
    obtain ⟨hlater, hsorted⟩ := List.pairwise_cons.mp hsorted
    have hfirst : Swept [first] ⟨0, first.1, first.2⟩ := by
      refine ⟨hforward first List.mem_cons_self, ∅, by simp, rfl, ?_⟩
      simp [coveredPoints]
    obtain ⟨hsegment, before, hbefore, hcard, hdone⟩ := hfirst.foldl
      (fun interval hmem => hforward interval (List.mem_cons_of_mem _ hmem)) hlater hsorted
    have hall : coveredPoints (first :: rest) = coveredPoints (rest.reverse ++ [first]) := by
      ext point
      simp [mem_coveredPoints, or_comm]
    rw [hall, hdone, card_before_union hbefore hsegment, hcard]
    dsimp only
    ring

/-! ## The law -/

theorem card_coveredPoints_le_sum (h : ∀ interval ∈ intervals, interval.1 ≤ interval.2) :
    ((coveredPoints intervals).card : ℤ) ≤
      (intervals.map (fun interval => interval.2 - interval.1)).sum := by
  induction intervals with
  | nil => rfl
  | cons interval rest ih =>
    obtain ⟨hfirst, hrest⟩ := List.forall_mem_cons.mp h
    have hsplit : coveredPoints (interval :: rest) =
        Finset.Ico interval.1 interval.2 ∪ coveredPoints rest := by
      rw [coveredPoints, List.toFinset_cons, Finset.biUnion_insert]
      rfl
    have hcard := Finset.card_union_le (Finset.Ico interval.1 interval.2) (coveredPoints rest)
    have hlength : ((Finset.Ico interval.1 interval.2).card : ℤ) = interval.2 - interval.1 := by
      rw [Int.card_Ico, Int.toNat_of_nonneg (by omega)]
    have hih := ih hrest
    rw [hsplit, List.map_cons, List.sum_cons]
    omega

/-- The result is the number of points that the intervals cover. So the order of the intervals and
    repetitions do not matter, and the result is at most the sum of the lengths and at most the
    distance from the smallest start to the largest end. -/
theorem intervalUnionNs_measures (intervals : List (ℤ × ℤ))
    (h : ∀ interval ∈ intervals, interval.1 ≤ interval.2) :
    intervalUnionNs intervals = (coveredPoints intervals).card ∧
    (∀ others : List (ℤ × ℤ), (∀ interval, interval ∈ others ↔ interval ∈ intervals) →
      intervalUnionNs others = intervalUnionNs intervals) ∧
    intervalUnionNs intervals ≤ (intervals.map (fun interval => interval.2 - interval.1)).sum ∧
    ∀ first ∈ intervals, ∀ last ∈ intervals, (∀ interval ∈ intervals, first.1 ≤ interval.1) →
      (∀ interval ∈ intervals, interval.2 ≤ last.2) →
      intervalUnionNs intervals ≤ last.2 - first.1 := by
  have hcard := intervalUnionNs_eq_card h
  refine ⟨hcard, ?_, ?_, ?_⟩
  · intro others hsame
    have hothers := intervalUnionNs_eq_card (fun interval hmem => h interval ((hsame _).mp hmem))
    have hpoints : coveredPoints others = coveredPoints intervals := by
      ext point
      simp [mem_coveredPoints, hsame]
    rw [hothers, hcard, hpoints]
  · rw [hcard]
    exact card_coveredPoints_le_sum h
  · intro first hfirst last hlast hstarts hends
    have hinside : coveredPoints intervals ⊆ Finset.Ico first.1 last.2 := by
      intro point hpoint
      obtain ⟨interval, hmem, hstart, hend⟩ := mem_coveredPoints.mp hpoint
      exact Finset.mem_Ico.mpr ⟨(hstarts _ hmem).trans hstart, hend.trans_le (hends _ hmem)⟩
    have hdistance : first.1 ≤ last.2 := (h first hfirst).trans (hends first hfirst)
    have hle := Finset.card_le_card hinside
    rw [Int.card_Ico] at hle
    rw [hcard]
    omega

/-- Touching, nested, repeated and empty intervals. -/
theorem intervalUnionNs_measures_touching :
    intervalUnionNs [(4, 6), (0, 2), (2, 4), (9, 9), (1, 3), (4, 6)] = 6 ∧
      ((coveredPoints [(4, 6), (0, 2), (2, 4), (9, 9), (1, 3), (4, 6)]).card : ℤ) = 6 := by
  have hunion : intervalUnionNs [(4, 6), (0, 2), (2, 4), (9, 9), (1, 3), (4, 6)] = 6 := by decide
  have hlaw := (intervalUnionNs_measures [(4, 6), (0, 2), (2, 4), (9, 9), (1, 3), (4, 6)]
    (by decide)).1
  exact ⟨hunion, hlaw.symm.trans hunion⟩

end Xprobe.Cli
