import Xprobe.Correlator.Soundness
import Xprobe.Correlator.Checked.Scans

/-!
# The measurement in machine arithmetic

`measure` with the arithmetic of the source, on top of the pairing algorithms of
`Correlator.Checked.Keyed` and `Correlator.Checked.Scans`.

`measureChecked_eq` says that it does not panic for fewer than `2 ^ 57` events, and that it returns
what the model of the other modules returns. The bound comes from `percentile`, which multiplies the
number of pairs by up to 99.
-/

namespace Xprobe.Correlator

open Foundation Protocol

/-! ## Every policy -/

/-- `correlate_selected`. -/
def correlateSelectedChecked (starts ends : List EventRef) (policy : MatchPolicy)
    (limit : Option Nat) (lifecycles : LifecycleKinds) : Option Outcome :=
  match policy with
  | .exact =>
    if lifecycles.syscall || lifecycles.pythonGc then
      correlateLifecycleChecked (fun event => some (threadKey event)) starts ends limit
    else if lifecycles.nvtx then correlateLifecycleChecked correlationKey starts ends limit
    else correlateExactChecked starts ends limit
  | .firstAfter => correlateFirstAfterChecked starts ends limit
  | .nearest => correlateNearestChecked starts ends limit
  | .stackNested => correlateStackNestedChecked starts ends limit
  | .streamOrder => correlateStreamOrderChecked starts ends limit

/-- No pairing algorithm panics, and each counts what its model counts. -/
theorem correlateSelectedChecked_eq {starts ends : List EventRef} (h : Countable starts ends)
    (policy : MatchPolicy) (limit : Option Nat) (lifecycles : LifecycleKinds) :
    ∃ outcome, correlateSelectedChecked starts ends policy limit lifecycles = some outcome ∧
      correlateSelected starts ends policy limit lifecycles = some outcome ∧
      outcome.Bounded starts ends := by
  cases policy with
  | exact =>
    simp only [correlateSelectedChecked, correlateSelected]
    split_ifs
    · exact ⟨_, correlateLifecycleChecked_eq _ h limit, rfl, correlateLifecycle_bounded ..⟩
    · exact ⟨_, correlateLifecycleChecked_eq _ h limit, rfl, correlateLifecycle_bounded ..⟩
    · exact ⟨_, correlateExactChecked_eq h limit, rfl, correlateExact_bounded ..⟩
  | firstAfter => exact correlateFirstAfterChecked_eq h limit
  | nearest => exact correlateNearestChecked_eq h limit
  | stackNested => exact correlateStackNestedChecked_eq h limit
  | streamOrder => exact correlateStreamOrderChecked_eq h limit

/-! ## Statistics -/

/-- `percentile`: the product is a `usize`, and the rank indexes the slice. -/
def percentileChecked (sorted : List UInt64) (percent : Nat) : Option UInt64 := do
  let product ← mulU64 percent sorted.length
  sorted[(product + 99) / 100 - 1]?

/-- `statistics`: the sum is a `u128`. -/
def statisticsChecked (values : List UInt64) : Option LatencyStatistics := do
  let sorted := sortByKey id values
  let sum ← sumFitting 128 (sorted.map UInt64.toNat)
  some
    { min := ← sorted.head?
      mean := ⟨sum, sorted.length⟩
      p50 := ← percentileChecked sorted 50
      p90 := ← percentileChecked sorted 90
      p95 := ← percentileChecked sorted 95
      p99 := ← percentileChecked sorted 99
      max := ← sorted.getLast? }

theorem percentileChecked_eq {sorted : List UInt64} (h : sorted.length < 2 ^ 57) {percent : Nat}
    (hpercent : percent < 128) : percentileChecked sorted percent = percentile sorted percent := by
  have hproduct : percent * sorted.length < 2 ^ 64 :=
    calc percent * sorted.length ≤ 127 * sorted.length :=
          Nat.mul_le_mul_right _ (Nat.le_of_lt_succ hpercent)
      _ < 2 ^ 64 := by omega
  simp only [percentileChecked, mulU64_of_lt hproduct, some_bind]
  rfl

theorem sum_toNat_lt {values : List UInt64} (h : values.length < 2 ^ 57) :
    (values.map UInt64.toNat).sum < 2 ^ 128 := by
  have hsum : (values.map UInt64.toNat).sum ≤ values.length * 2 ^ 64 := by
    have hle := List.sum_le_card_nsmul (values.map UInt64.toNat) (2 ^ 64) (by
      intro n hn
      obtain ⟨value, -, rfl⟩ := List.mem_map.mp hn
      exact Nat.le_of_lt value.toNat_lt)
    rwa [List.length_map, smul_eq_mul] at hle
  have hproduct : values.length * 2 ^ 64 ≤ 2 ^ 57 * 2 ^ 64 := Nat.mul_le_mul_right _ (le_of_lt h)
  omega

theorem statisticsChecked_eq {values : List UInt64} (h : values.length < 2 ^ 57) :
    statisticsChecked values = statistics values := by
  have hlength : (sortByKey id values).length < 2 ^ 57 := by rwa [length_sortByKey]
  have hpercentile : ∀ percent, percent < 128 →
      percentileChecked (sortByKey id values) percent = percentile (sortByKey id values) percent :=
    fun percent hpercent => percentileChecked_eq hlength hpercent
  simp only [statisticsChecked, statistics, sumFitting_of_lt (sum_toNat_lt hlength),
    hpercentile 50 (by decide), hpercentile 90 (by decide), hpercentile 95 (by decide),
    hpercentile 99 (by decide), some_bind]

/-! ## The measurement -/

/-- `collection_event_counts`. -/
def collectionEventCountsChecked (events : List Event) : Option (Nat × Nat) := do
  let host := (events.filter (fun event => event.source == .ebpf)).length
  let cuda ← subU64 events.length host
  some (host, cuda)

/-- The sum under the correlation score. -/
def denominatorChecked (outcome : Outcome) : Option Nat := do
  let sum ← addU64 outcome.pairs.length outcome.unmatchedStart
  let sum ← addU64 sum outcome.unmatchedEnd
  addU64 sum outcome.ambiguous

/-- The end of `measure`. -/
def reportChecked (events : List Event) (options : MeasureOptions) (selected : Selected)
    (outcome : Outcome) : Option MeasurementResult := do
  let denominator ← denominatorChecked outcome
  let (hostEvents, cudaEvents) ← collectionEventCountsChecked events
  let latencyNs ← statisticsChecked (outcome.pairs.map Pair.latencyNs)
  some (measurementResult options selected outcome denominator hostEvents cudaEvents latencyNs)

/-- `measure`. -/
def measureChecked (regexNew : RegexEngine) (events : List Event) (options : MeasureOptions) :
    Option (Except MeasureError MeasurementResult) :=
  match select regexNew events options with
  | .error error => some (.error error)
  | .ok selected => do
    let outcome ← correlateSelectedChecked selected.starts selected.ends options.matchPolicy
      options.samples selected.lifecycles
    if outcome.pairs.isEmpty then some (.error .noMatchedSamples)
    else
      let result ← reportChecked events options selected outcome
      some (.ok result)

theorem collectionEventCountsChecked_eq (events : List Event) :
    collectionEventCountsChecked events = some (collectionEventCounts events) := by
  have hle : (events.filter (fun event => event.source == .ebpf)).length ≤ events.length :=
    List.length_filter_le ..
  simp only [collectionEventCountsChecked, subU64_of_le hle, some_bind]
  rfl

section

variable {events : List Event} {options : MeasureOptions} {selected : Selected} {outcome : Outcome}

theorem reportChecked_eq (hstarts : selected.starts.length < 2 ^ 57)
    (hends : selected.ends.length < 2 ^ 57)
    (hbounded : outcome.Bounded selected.starts selected.ends) :
    reportChecked events options selected outcome = report events options selected outcome := by
  obtain ⟨hpairs, hstart, hend, hambiguous⟩ := hbounded
  have hdenominator : denominatorChecked outcome = some (outcome.pairs.length +
      outcome.unmatchedStart + outcome.unmatchedEnd + outcome.ambiguous) := by
    rw [denominatorChecked, addU64_of_lt (by omega), some_bind,
      addU64_of_lt (by omega), some_bind, addU64_of_lt (by omega)]
  have hstatistics : statisticsChecked (outcome.pairs.map Pair.latencyNs) =
      statistics (outcome.pairs.map Pair.latencyNs) := by
    refine statisticsChecked_eq ?_
    rw [List.length_map]
    omega
  simp only [reportChecked, report, hdenominator, hstatistics, collectionEventCountsChecked_eq,
    some_bind]

end

/-- For fewer than `2 ^ 57` events `measure` returns: no addition, subtraction or product overflows,
    no index is out of range, and no `expect` fails. What it returns is what the model returns. -/
theorem measureChecked_eq (regexNew : RegexEngine) (events : List Event)
    (options : MeasureOptions) (h : events.length < 2 ^ 57) :
    ∃ answer, measureChecked regexNew events options = some answer ∧
      measure regexNew events options = some answer := by
  unfold measureChecked measure measureSelected
  cases hselect : select regexNew events options with
  | error error => exact ⟨.error error, rfl, rfl⟩
  | ok selected =>
    obtain ⟨hsubStarts, hsubEnds, -⟩ := applyDurationWindow_ok (select_eq_ok hselect).window_ok
    have hstarts : selected.starts.length < 2 ^ 57 :=
      (hsubStarts.length_le.trans (length_selectEvents_le _ events)).trans_lt h
    have hends : selected.ends.length < 2 ^ 57 :=
      (hsubEnds.length_le.trans (length_selectEvents_le _ events)).trans_lt h
    have hcountable : Countable selected.starts selected.ends := by
      unfold Countable
      omega
    obtain ⟨outcome, hchecked, hrun, hbounded⟩ := correlateSelectedChecked_eq hcountable
      options.matchPolicy options.samples selected.lifecycles
    simp only [hchecked, hrun, some_bind]
    by_cases hempty : outcome.pairs = []
    · exact ⟨.error .noMatchedSamples, by simp [hempty], by simp [hempty]⟩
    · obtain ⟨result, hreport⟩ := report_isSome events options selected hempty
      refine ⟨.ok result, ?_, ?_⟩
      · simp [hempty, reportChecked_eq hstarts hends hbounded, hreport]
      · simp [hempty, hreport]

/-- The greatest timestamp, twice, and without a payload. -/
theorem measureChecked_eq_lastTimestamp : ∃ answer, measureChecked noRegex
        [readEvent .syscallEntry (2 ^ 64 - 1), readEvent .syscallExit (2 ^ 64 - 1),
          { readEvent .syscallExit 0 with host := none }]
        readOptions = some answer := by
  obtain ⟨answer, hchecked, -⟩ := measureChecked_eq noRegex
    [readEvent .syscallEntry (2 ^ 64 - 1), readEvent .syscallExit (2 ^ 64 - 1),
      { readEvent .syscallExit 0 with host := none }] readOptions (by norm_num)
  exact ⟨answer, hchecked⟩

end Xprobe.Correlator
