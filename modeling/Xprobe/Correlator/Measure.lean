import Xprobe.Foundation.Fallible
import Xprobe.Protocol.Measurement
import Xprobe.Protocol.Process
import Xprobe.Correlator.Selector
import Xprobe.Correlator.Exact
import Xprobe.Correlator.Greedy
import Xprobe.Correlator.Nearest
import Xprobe.Correlator.StackNested

/-!
# The measurement

`measure`: check the options, parse the selectors, select and window the events, pair them by the
policy, and report. `select` is the part before the pairing, `report` the part after it.

The result is an `Option`: `none` would be a panic of the source.
-/

namespace Xprobe.Correlator

open Foundation Protocol

/-! ## Options -/

/-- `MeasureOptions`. A duration is its number of nanoseconds. -/
structure MeasureOptions where
  sessionId : String
  name : Option String
  startSelector : String
  endSelector : String
  matchPolicy : MatchPolicy
  samples : Option Nat
  duration : Option Nat
  maxEvents : Nat
  droppedEvents : UInt64

def invalidLimit {α : Type} (reason : String) : Except MeasureError α :=
  .error (.invalidLimit (Message.of reason))

/-- `validate_options`. -/
def validateOptions (options : MeasureOptions) : Except MeasureError Unit :=
  if options.samples.isNone ∧ options.duration.isNone then
    invalidLimit "at least one of samples or duration must be set"
  else if options.samples = some 0 then invalidLimit "samples must be greater than zero"
  else if options.duration = some 0 then invalidLimit "duration must be greater than zero"
  else if options.maxEvents = 0 then invalidLimit "max-events must be greater than zero"
  else if options.sessionId = "" then invalidLimit "session ID must not be empty"
  else .ok ()

/-- `validate_policy`. -/
def validatePolicy (startSelector endSelector : Selector) (policy : MatchPolicy) :
    Except MeasureError Unit :=
  let message :=
    match policy with
    | .exact =>
      if !startSelector.supportsExact endSelector then
        some "exact matching requires endpoints with a deterministic correlation key"
      else none
    | .stackNested =>
      if !startSelector.supportsStackNested endSelector then
        some "stack-nested requires entry and return selectors for the same host function"
      else none
    | .streamOrder =>
      if !startSelector.isGpuActivity || !endSelector.isGpuActivity then
        some "stream-order requires two GPU activity selectors"
      else none
    | _ => none
  match message with
  | some message => .error (.invalidPolicy (Message.of message))
  | none => .ok ()

/-! ## Clocks -/

/-- `clock_group`. -/
def clockGroup : ClockDomain → Nat
  | .hostMonotonic => 0
  | .cuptiNormalizedToHostMonotonic => 0
  | .cupti => 1

/-- The loop of `common_clock_domain` over the events after the first. -/
def checkClockGroup (first : ClockDomain) : List EventRef → Bool → Except MeasureError Bool
  | [], hasNormalized => .ok hasNormalized
  | ref :: rest, hasNormalized =>
    if clockGroup ref.event.clockDomain ≠ clockGroup first then
      .error (.clockDomainsDiffer first ref.event.clockDomain)
    else
      checkClockGroup first rest
        (hasNormalized || ref.event.clockDomain == .cuptiNormalizedToHostMonotonic)

/-- `common_clock_domain`. -/
def commonClockDomain (starts ends : List EventRef) : Except MeasureError ClockDomain :=
  match starts ++ ends with
  | [] => .error .noMatchedSamples
  | first :: rest => do
    let domain := first.event.clockDomain
    let hasNormalized ←
      checkClockGroup domain rest (domain == .cuptiNormalizedToHostMonotonic)
    if clockGroup domain = 1 then .ok .cupti
    else if hasNormalized then .ok .cuptiNormalizedToHostMonotonic
    else .ok .hostMonotonic

/-! ## The duration window -/

def firstTimestamp (starts ends : List EventRef) : Option UInt64 :=
  match starts.head?, ends.head? with
  | some s, some e => some (min s.timestampNs e.timestampNs)
  | some s, none => some s.timestampNs
  | none, some e => some e.timestampNs
  | none, none => none

/-- `apply_duration_window`. -/
def applyDurationWindow (starts ends : List EventRef) (duration : Option Nat) :
    Except MeasureError (List EventRef × List EventRef) :=
  match duration with
  | none => .ok (starts, ends)
  | some duration =>
    match firstTimestamp starts ends with
    | none => .ok (starts, ends)
    | some first =>
      if 2 ^ 64 ≤ duration then invalidLimit "duration exceeds nanosecond range"
      else
        match checkedAdd first (UInt64.ofNat duration) with
        | none => invalidLimit "duration window overflows timestamp range"
        | some last =>
          .ok (starts.filter (fun ref => decide (ref.timestampNs ≤ last)),
            ends.filter (fun ref => decide (ref.timestampNs ≤ last)))

/-! ## Selection -/

/-- The input events with their positions. -/
def eventRefs (events : List Event) : List EventRef :=
  events.zipIdx.map (fun (event, index) => ⟨index, event⟩)

/-- The events a selector matches, sorted by time. -/
def selectEvents (selector : Selector) (events : List Event) : List EventRef :=
  sortByKey EventRef.timestampNs
    ((eventRefs events).filter (fun ref => selector.matchesEvent ref.event))

theorem length_selectEvents_le (selector : Selector) (events : List Event) :
    (selectEvents selector events).length ≤ events.length := by
  rw [selectEvents, length_sortByKey]
  refine (List.length_filter_le ..).trans_eq ?_
  simp [eventRefs]

/-- What `measure` works on after selection. -/
structure Selected where
  startSelector : Selector
  endSelector : Selector
  starts : List EventRef
  ends : List EventRef
  clockDomain : ClockDomain

/-- The two checks of `measure` on the capture itself. -/
def checkCapture (events : List Event) (options : MeasureOptions) : Except MeasureError Unit :=
  if options.maxEvents < events.length then
    .error (.eventLimitExceeded events.length options.maxEvents)
  else if options.droppedEvents ≠ 0 then .error (.eventsDropped options.droppedEvents)
  else .ok ()

/-- The checks and the selection at the beginning of `measure`. -/
def select (regexNew : RegexEngine) (events : List Event) (options : MeasureOptions) :
    Except MeasureError Selected := do
  validateOptions options
  checkCapture events options
  let startSelector ← Selector.parse regexNew options.startSelector
  let endSelector ← Selector.parse regexNew options.endSelector
  validatePolicy startSelector endSelector options.matchPolicy
  let starts := selectEvents startSelector events
  let ends := selectEvents endSelector events
  let clockDomain ← commonClockDomain starts ends
  let (starts, ends) ← applyDurationWindow starts ends options.duration
  return { startSelector, endSelector, starts, ends, clockDomain }

/-! ## Pairing -/

/-- `LifecycleKinds`. -/
structure LifecycleKinds where
  syscall : Bool
  nvtx : Bool
  pythonGc : Bool
  deriving Repr, DecidableEq

def lifecycleKinds (startSelector endSelector : Selector) : LifecycleKinds :=
  { syscall := startSelector.isSyscallLifecycle endSelector
    nvtx := startSelector.isNvtxLifecycle endSelector
    pythonGc := startSelector.isPythonGcLifecycle endSelector }

abbrev Selected.lifecycles (selected : Selected) : LifecycleKinds :=
  lifecycleKinds selected.startSelector selected.endSelector

/-- `correlate_selected`. -/
def correlateSelected (starts ends : List EventRef) (policy : MatchPolicy) (limit : Option Nat)
    (lifecycles : LifecycleKinds) : Option Outcome :=
  match policy with
  | .exact =>
    if lifecycles.syscall || lifecycles.pythonGc then
      some (correlateThreadLifecycle starts ends limit)
    else if lifecycles.nvtx then some (correlateNvtxLifecycle starts ends limit)
    else some (correlateExact starts ends limit)
  | .firstAfter => correlateFirstAfter starts ends limit
  | .nearest => correlateNearest starts ends limit
  | .stackNested => correlateStackNested starts ends limit
  | .streamOrder => correlateStreamOrder starts ends limit

/-! ## Report -/

/-- `correlation_metadata`. -/
def correlationMetadata (policy : MatchPolicy) (lifecycles : LifecycleKinds) :
    String × CorrelationConfidence :=
  match policy with
  | .exact =>
    if lifecycles.syscall then ("exact_syscall_tid_lifecycle", .exact)
    else if lifecycles.nvtx then ("exact_nvtx_range_id", .exact)
    else if lifecycles.pythonGc then ("exact_python_gc_tid_lifecycle", .exact)
    else ("exact_cupti_correlation_id", .exact)
  | .firstAfter => ("first_after", .heuristic)
  | .nearest => ("nearest", .heuristic)
  | .stackNested => ("stack_nested_tid_lifo", .high)
  | .streamOrder => ("cuda_stream_order", .high)

/-- `percentile`. -/
def percentile (sorted : List UInt64) (percent : Nat) : Option UInt64 :=
  let rank := (percent * sorted.length + 99) / 100
  sorted[rank - 1]?

/-- `statistics`; an empty list panics. -/
def statistics (values : List UInt64) : Option LatencyStatistics := do
  let sorted := sortByKey id values
  let sum := (sorted.map UInt64.toNat).sum
  some
    { min := ← sorted.head?
      mean := ⟨sum, sorted.length⟩
      p50 := ← percentile sorted 50
      p90 := ← percentile sorted 90
      p95 := ← percentile sorted 95
      p99 := ← percentile sorted 99
      max := ← sorted.getLast? }

/-- The error bound of one event: an unknown bound of a normalized timestamp stays unknown. -/
def timestampError (event : Event) : Option UInt64 :=
  if event.clockDomain = .cuptiNormalizedToHostMonotonic then event.timestampErrorNs
  else some (event.timestampErrorNs.getD 0)

/-- `maximum_timestamp_error`. -/
def maximumTimestampError (pairs : List Pair) : Option UInt64 :=
  (pairs.flatMap (fun pair => [pair.startEvent.event, pair.endEvent.event])).foldlM
    (fun maximum event => (timestampError event).map (max maximum)) 0

/-- `collection_event_counts`. -/
def collectionEventCounts (events : List Event) : Nat × Nat :=
  let host := (events.filter (fun event => event.source == .ebpf)).length
  (host, events.length - host)

/-- `warning`. -/
def warning (code message : String) : Warning := { code, message, details := .empty }

/-- `measurement_warnings`. -/
def measurementWarnings (options : MeasureOptions) (starts ends : List EventRef) : List Warning :=
  let heuristic :=
    if options.matchPolicy = .firstAfter ∨ options.matchPolicy = .nearest then
      [warning "HEURISTIC_CORRELATION" "temporal matching does not prove request-level causality"]
    else []
  let clock :=
    if (starts ++ ends).any (fun ref =>
        ref.event.clockDomain == .cuptiNormalizedToHostMonotonic
          && ref.event.timestampErrorNs.isNone) then
      [warning "CLOCK_ERROR_UNAVAILABLE"
        "CUPTI does not report an error bound for GPU-to-host timestamp interpolation"]
    else []
  heuristic ++ clock

def clockAlignment : ClockDomain → String
  | .hostMonotonic => "host_monotonic"
  | .cupti => "cupti_same_domain"
  | .cuptiNormalizedToHostMonotonic => "cupti_normalized_to_host_monotonic"

def Pair.toEvidence (pair : Pair) : MatchedEventPair :=
  { startEvent := pair.startEvent.event
    endEvent := pair.endEvent.event
    latencyNs := pair.latencyNs }

/-- What `measure` returns, given what it counted. -/
def measurementResult (options : MeasureOptions) (selected : Selected) (outcome : Outcome)
    (denominator hostEvents cudaEvents : Nat) (latencyNs : LatencyStatistics) :
    MeasurementResult :=
  let matched := outcome.pairs.length
  let (method, confidence) := correlationMetadata options.matchPolicy selected.lifecycles
  { schemaVersion := .current
    ok := true
    sessionId := options.sessionId
    status := .completed
    measurement :=
      { name := options.name
        samples :=
          { matched
            unmatchedStart := outcome.unmatchedStart
            unmatchedEnd := outcome.unmatchedEnd
            ambiguous := outcome.ambiguous
            dropped := options.droppedEvents }
        latencyNs }
    correlation := { method, confidence, score := ⟨matched, denominator⟩ }
    clock :=
      { alignment := clockAlignment selected.clockDomain
        estimatedErrorNs := maximumTimestampError outcome.pairs }
    collection :=
      { completeness := .complete
        hostEvents
        cudaEvents
        droppedEvents := options.droppedEvents
        cupti := none }
    evidence := outcome.pairs.map Pair.toEvidence
    warnings := measurementWarnings options selected.starts selected.ends }

/-- The end of `measure`: the result for an outcome with at least one pair. -/
def report (events : List Event) (options : MeasureOptions) (selected : Selected)
    (outcome : Outcome) : Option MeasurementResult := do
  let denominator :=
    outcome.pairs.length + outcome.unmatchedStart + outcome.unmatchedEnd + outcome.ambiguous
  let (hostEvents, cudaEvents) := collectionEventCounts events
  let latencyNs ← statistics (outcome.pairs.map Pair.latencyNs)
  some (measurementResult options selected outcome denominator hostEvents cudaEvents latencyNs)

/-- `measure` after the selection. -/
def measureSelected (events : List Event) (options : MeasureOptions) :
    Except MeasureError Selected → Option (Except MeasureError MeasurementResult)
  | .error error => some (.error error)
  | .ok selected => do
    let outcome ← correlateSelected selected.starts selected.ends options.matchPolicy
      options.samples selected.lifecycles
    if outcome.pairs.isEmpty then some (.error .noMatchedSamples)
    else
      let result ← report events options selected outcome
      some (.ok result)

/-- `measure`. -/
def measure (regexNew : RegexEngine) (events : List Event) (options : MeasureOptions) :
    Option (Except MeasureError MeasurementResult) :=
  measureSelected events options (select regexNew events options)

/-! ## Errors -/

/-- `MeasureError::code`. -/
def MeasureError.code : MeasureError → ErrorCode
  | .invalidSelector _ => .invalidEventSelector
  | .invalidPolicy _ => .invalidCorrelationPolicy
  | .invalidLimit _ => .sessionLimitExceeded
  | .eventLimitExceeded _ _ => .eventRateTooHigh
  | .eventsDropped _ => .eventsDropped
  | .clockDomainsDiffer _ _ => .clockAlignmentFailed
  | .noMatchedSamples => .noMatchedSamples

/-- `MeasureError::recoverable`. -/
def MeasureError.recoverable : MeasureError → Bool
  | _ => true

/-- The name of a clock domain as `{:?}` prints it. -/
def debugClockDomain : ClockDomain → String
  | .hostMonotonic => "HostMonotonic"
  | .cupti => "Cupti"
  | .cuptiNormalizedToHostMonotonic => "CuptiNormalizedToHostMonotonic"

/-- The text of a `MeasureError`. -/
def MeasureError.message : MeasureError → Message
  | .invalidSelector reason => .lit "invalid event selector: " :: reason
  | .invalidPolicy reason => .lit "invalid correlation policy: " :: reason
  | .invalidLimit reason => .lit "invalid measurement limit: " :: reason
  | .eventLimitExceeded actual maximum =>
    [.lit "capture contains ", .display (toString actual), .lit " events, exceeding the maximum of ",
      .display (toString maximum)]
  | .eventsDropped count =>
    [.lit "capture dropped ", .display (toString count), .lit " events before correlation"]
  | .clockDomainsDiffer startDomain endDomain =>
    [.lit "cannot subtract unaligned ", .lit (debugClockDomain startDomain), .lit " and ",
      .lit (debugClockDomain endDomain), .lit " timestamps"]
  | .noMatchedSamples => Message.of "no event pairs matched the selectors"

/-! ## What a successful selection gives -/

/-- The steps of a successful selection. -/
structure SelectOk (regexNew : RegexEngine) (events : List Event) (options : MeasureOptions)
    (selected : Selected) : Prop where
  options_ok : validateOptions options = .ok ()
  capture_ok : checkCapture events options = .ok ()
  start_parse : Selector.parse regexNew options.startSelector = .ok selected.startSelector
  end_parse : Selector.parse regexNew options.endSelector = .ok selected.endSelector
  policy_ok :
    validatePolicy selected.startSelector selected.endSelector options.matchPolicy = .ok ()
  clock_ok : commonClockDomain (selectEvents selected.startSelector events)
    (selectEvents selected.endSelector events) = .ok selected.clockDomain
  window_ok : applyDurationWindow (selectEvents selected.startSelector events)
    (selectEvents selected.endSelector events) options.duration = .ok (selected.starts, selected.ends)

variable {events : List Event} {options : MeasureOptions} {regexNew : RegexEngine}
  {selected : Selected}

theorem select_eq_ok (h : select regexNew events options = .ok selected) :
    SelectOk regexNew events options selected := by
  unfold select at h
  obtain ⟨_, hoptions, h⟩ := of_bind h
  obtain ⟨_, hcapture, h⟩ := of_bind h
  obtain ⟨startSelector, hstart, h⟩ := of_bind h
  obtain ⟨endSelector, hend, h⟩ := of_bind h
  obtain ⟨_, hpolicy, h⟩ := of_bind h
  obtain ⟨clockDomain, hclock, h⟩ := of_bind h
  obtain ⟨⟨starts, ends⟩, hwindow, h⟩ := of_bind h
  cases h
  exact ⟨hoptions, hcapture, hstart, hend, hpolicy, hclock, hwindow⟩

variable {result : MeasurementResult}

/-- The steps of a successful measurement. -/
theorem measure_eq_ok (h : measure regexNew events options = some (.ok result)) :
    ∃ selected outcome, SelectOk regexNew events options selected ∧
      correlateSelected selected.starts selected.ends options.matchPolicy options.samples
        selected.lifecycles = some outcome ∧
      outcome.pairs ≠ [] ∧ report events options selected outcome = some result := by
  unfold measure measureSelected at h
  cases hselect : select regexNew events options with
  | error error => simp [hselect] at h
  | ok selected =>
    simp only [hselect, Option.bind_eq_bind, Option.bind_eq_some_iff] at h
    obtain ⟨outcome, hcorrelate, h⟩ := h
    split_ifs at h with hempty
    · cases h
    · obtain ⟨result', hreport, h⟩ := Option.bind_eq_some_iff.mp h
      cases h
      exact ⟨selected, outcome, select_eq_ok hselect, hcorrelate, by simpa using hempty, hreport⟩

variable {outcome : Outcome}

/-- The evidence and the matched count of a report are those of the outcome. -/
theorem report_eq_some (h : report events options selected outcome = some result) :
    result.evidence = outcome.pairs.map Pair.toEvidence ∧
      result.measurement.samples.matched = outcome.pairs.length := by
  unfold report at h
  obtain ⟨latencyNs, -, h⟩ := Option.bind_eq_some_iff.mp h
  cases h
  exact ⟨rfl, rfl⟩

/-- Every result says that its collection is complete and that no more was dropped than announced. -/
theorem collection_of_measure (h : measure regexNew events options = some (.ok result)) :
    result.collection =
      { completeness := .complete
        hostEvents := (collectionEventCounts events).1
        cudaEvents := (collectionEventCounts events).2
        droppedEvents := options.droppedEvents
        cupti := none } := by
  obtain ⟨selected, outcome, -, -, -, hreport⟩ := measure_eq_ok h
  unfold report at hreport
  obtain ⟨latencyNs, -, hreport⟩ := Option.bind_eq_some_iff.mp hreport
  cases hreport
  rfl

/-! ## When a measurement succeeds -/

private theorem percentile_isSome {sorted : List UInt64} (hne : sorted ≠ []) {percent : Nat}
    (hle : percent ≤ 100) : ∃ value, percentile sorted percent = some value := by
  have hlength : 0 < sorted.length := List.length_pos_of_ne_nil hne
  have hproduct : percent * sorted.length ≤ 100 * sorted.length := Nat.mul_le_mul_right _ hle
  have hrank : (percent * sorted.length + 99) / 100 - 1 < sorted.length := by omega
  exact ⟨_, List.getElem?_eq_getElem hrank⟩

private theorem statistics_isSome {values : List UInt64} (hne : values ≠ []) :
    ∃ result, statistics values = some result := by
  have hsorted : sortByKey id values ≠ [] := by
    intro h
    have hlength := length_sortByKey id values
    rw [h] at hlength
    exact hne (List.length_eq_zero_iff.mp hlength.symm)
  obtain ⟨p50, h50⟩ := @percentile_isSome _ hsorted 50 (by decide)
  obtain ⟨p90, h90⟩ := @percentile_isSome _ hsorted 90 (by decide)
  obtain ⟨p95, h95⟩ := @percentile_isSome _ hsorted 95 (by decide)
  obtain ⟨p99, h99⟩ := @percentile_isSome _ hsorted 99 (by decide)
  simp only [statistics, h50, h90, h95, h99, List.head?_eq_some_head hsorted,
    List.getLast?_eq_some_getLast hsorted, some_bind]
  exact ⟨_, rfl⟩

/-- A report is written for every outcome with a pair. -/
theorem report_isSome (events : List Event) (options : MeasureOptions) (selected : Selected)
    (hne : outcome.pairs ≠ []) :
    ∃ result, report events options selected outcome = some result := by
  have hvalues : outcome.pairs.map Pair.latencyNs ≠ [] := by simpa using hne
  obtain ⟨latencyNs, hstatistics⟩ := statistics_isSome hvalues
  simp only [report, hstatistics, some_bind]
  exact ⟨_, rfl⟩

/-- The steps of a selection make a selection. -/
theorem select_of_selectOk (h : SelectOk regexNew events options selected) :
    select regexNew events options = .ok selected := by
  simp only [select, h.options_ok, h.capture_ok, h.start_parse, h.end_parse, h.policy_ok,
    h.clock_ok, h.window_ok, ok_bind]
  rfl

/-- A selection whose pairing gives at least one pair is a measurement of exactly these pairs. -/
theorem measure_ok_of_pairs (hselect : SelectOk regexNew events options selected)
    (hcorrelate : correlateSelected selected.starts selected.ends options.matchPolicy
      options.samples selected.lifecycles = some outcome)
    (hne : outcome.pairs ≠ []) :
    ∃ result, measure regexNew events options = some (.ok result) ∧
      result.evidence = outcome.pairs.map Pair.toEvidence := by
  obtain ⟨result, hresult⟩ := report_isSome events options selected hne
  refine ⟨result, ?_, (report_eq_some hresult).1⟩
  simp [measure, measureSelected, select_of_selectOk hselect, hcorrelate, hne, hresult]

end Xprobe.Correlator
