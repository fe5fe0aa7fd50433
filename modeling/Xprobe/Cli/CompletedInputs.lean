import Xprobe.Collector.Artifact
import Xprobe.Collector.Merge
import Xprobe.Cupti.Accepted
import Xprobe.Cli.ArmConfig

/-!
# Measuring completed captures

`measure_completed_inputs` (`xprobe/cli/src/main.rs`): read the capture files, merge them, reject
what is known to be incomplete, and measure the rest. The part after the merge is shared with the
live measurement, which differs in its texts and in what it requires.

A result always says that the collection is complete. What it does not look at is how many records
were observed and where a capture begins: `measureCompletedInputs_nothing_missing_iff` says for
which files nothing is missing, in terms of the counters in their headers.
-/

namespace Xprobe.Cli

open Foundation Protocol Cupti Collector Correlator

/-! ## Failures -/

/-- `CommandFailure::with_detail`. -/
def CommandFailure.withDetail (failure : CommandFailure) (key : String) (value : Value) :
    CommandFailure :=
  { failure with details := failure.details.insert key value }

/-- `CommandFailure::with_artifact_events`. -/
def CommandFailure.withArtifactEvents (failure : CommandFailure) (events : List Event) :
    CommandFailure :=
  { failure with artifactEvents := some events }

/-- A number in the details of a failure. -/
def countValue (count : Nat) : Value := .number count

/-- `match_policy_name`. -/
def matchPolicyName : MatchPolicy → String
  | .exact => "exact"
  | .firstAfter => "first-after"
  | .nearest => "nearest"
  | .stackNested => "stack-nested"
  | .streamOrder => "stream-order"

/-- `clock_domain_name`. -/
def clockDomainName : ClockDomain → String
  | .hostMonotonic => "host_monotonic"
  | .cupti => "cupti"
  | .cuptiNormalizedToHostMonotonic => "cupti_normalized_to_host_monotonic"

/-- What `measurement_failure` adds for the single errors. -/
def explainMeasureError (failure : CommandFailure) (events : List Event) :
    MeasureError → CommandFailure
  | .invalidSelector _ => failure.withHint "run xprobe validate with the exact selector text"
  | .invalidPolicy _ =>
    failure.withHint "use policy_recommendation.compatible_policies from xprobe validate"
  | .invalidLimit _ =>
    failure.withHint "set positive samples or duration, timeout, and max-events bounds"
  | .eventLimitExceeded actual maximum =>
    ((failure.withDetail "observed_events" (countValue actual)).withDetail "max_events"
      (countValue maximum)).withHint "narrow the selectors or explicitly increase max-events"
  | .eventsDropped count =>
    (failure.withDetail "dropped_events" (countValue count.toNat)).withHint
      "reduce the event rate or explicitly increase the capture capacity"
  | .clockDomainsDiffer startDomain endDomain =>
    ((failure.withDetail "start_clock" (.string (clockDomainName startDomain))).withDetail
      "end_clock" (.string (clockDomainName endDomain))).withHint
      "use endpoints in one clock domain or a CUPTI capture normalized to host monotonic time"
  | .noMatchedSamples =>
    let (hostEvents, cudaEvents) := collectionEventCounts events
    (((failure.withDetail "captured_events" (countValue events.length)).withDetail "host_events"
      (countValue hostEvents)).withDetail "cuda_events" (countValue cudaEvents)).withHint
      ("inspect the events-out artifact, then adjust selectors or choose an explicitly " ++
        "compatible policy")

/-- `measurement_failure`. -/
def measurementFailure (error : MeasureError) (options : MeasureOptions) (events : List Event)
    (preserveArtifact : Bool) : CommandFailure :=
  let failure := CommandFailure.new error.code error.message error.recoverable
    |>.withDetail "start_selector" (.string options.startSelector)
    |>.withDetail "end_selector" (.string options.endSelector)
    |>.withDetail "match_policy" (.string (matchPolicyName options.matchPolicy))
  let failure := if preserveArtifact then failure.withArtifactEvents events else failure
  explainMeasureError failure events error

/-! ## The merged capture -/

/-- The text that tells a live capture from a completed one. -/
def liveText (live : Bool) : String := if live then "live " else ""

/-- `reject_incomplete_capture`. -/
def rejectIncompleteCapture (capture : CompletedCapture) (live requireComplete : Bool) :
    Except CommandFailure Unit :=
  if capture.captureFailed then
    .error (CommandFailure.new .cuptiNotAvailable
      [.lit (liveText live), .lit "CUPTI capture entered a failed state"] true
      |>.withDetail "capture_state" (.string "failed")
      |>.withHint "inspect target CUDA/CUPTI compatibility and retry a fresh bounded capture")
  else
    match capture.recordLimitReached with
    | some capacity =>
      let failure := CommandFailure.new .eventRateTooHigh
        [.lit "capture reached its configured limit of ", .display (toString capacity),
          .lit " records"] true
        |>.withDetail "record_capacity" (countValue capacity.toNat)
        |>.withHint "narrow the selectors or explicitly increase max-events"
      match capture.cupti with
      | some cupti =>
        .error (failure
          |>.withDetail "observed_records" (countValue cupti.observedRecords.toNat)
          |>.withDetail "retained_records" (countValue capture.events.length)
          |>.withDetail "dropped_records" (countValue cupti.droppedRecords.toNat))
      | none => .error failure
    | none =>
      if requireComplete && capture.cupti.any (fun cupti => !cupti.complete) then
        .error (CommandFailure.new .cuptiNotAvailable
          [.lit (liveText live), .lit "CUPTI capture was not stopped before measurement"] true
          |>.withDetail "capture_state" (.string "active")
          |>.withHint "stop the CUPTI capture before using it as completed input")
      else .ok ()

/-- `utilization`. -/
def utilization (retained capacity : UInt64) : Ratio :=
  if capacity = 0 then ⟨0, 1⟩ else ⟨retained.toNat, capacity.toNat⟩

/-- `apply_collection_summary`. -/
def applyCollectionSummary (result : MeasurementResult) (capture : CompletedCapture) :
    MeasurementResult :=
  match capture.cupti with
  | none => result
  | some cupti =>
    let retainedRecords := UInt64.ofNat result.collection.cudaEvents
    { result with
      collection :=
        { result.collection with
          cupti := some
            { recordCapacity := cupti.recordCapacity
              observedRecords := cupti.observedRecords
              retainedRecords
              droppedRecords := cupti.droppedRecords
              bufferUtilization := utilization retainedRecords cupti.recordCapacity } } }

structure MeasurementExecution where
  result : MeasurementResult
  events : List Event

/-- The outcome of a measuring command; `none` is a panic. -/
abbrev Execution := Option (Except CommandFailure MeasurementExecution)

variable (regexNew : RegexEngine)

/-- The end of `measure_completed_inputs` and `measure_live_capture`: measure the merged events. -/
def measureMergedEvents (preserveArtifact : Bool) (capture : CompletedCapture)
    (options : MeasureOptions) : Execution :=
  let options := { options with droppedEvents := capture.droppedRecords }
  match measure regexNew capture.events options with
  | none => none
  | some (.error error) =>
    some (.error (measurementFailure error options capture.events preserveArtifact))
  | some (.ok result) => some (.ok ⟨applyCollectionSummary result capture, capture.events⟩)

/-- The failure for records that the collector does not know. -/
def unknownRecordsFailure (capture : CompletedCapture) (live : Bool) : CommandFailure :=
  CommandFailure.new .traceExportFailed
    [.lit (liveText live), .lit "capture contains ", .display (toString capture.unknownRecords),
      .lit " unknown CUPTI activity records"] false
    |>.withDetail "unknown_records" (countValue capture.unknownRecords.toNat)
    |>.withHint "rebuild xprobe and the CUPTI Agent from the same release"
    |>.withArtifactEvents capture.events

/-- `measure_completed_inputs` and `measure_live_capture` after the merge. -/
def measureCapture (live requireComplete : Bool) (capture : CompletedCapture)
    (options : MeasureOptions) : Execution :=
  match rejectIncompleteCapture capture live requireComplete with
  | .error failure => some (.error (failure.withArtifactEvents capture.events))
  | .ok () =>
    if capture.unknownRecords ≠ 0 then some (.error (unknownRecordsFailure capture live))
    else measureMergedEvents regexNew requireComplete capture options

/-! ## The files -/

variable (json : SerdeJson) (readFile : String → Except String (List UInt8))

/-- Read and decode one capture file. A path is its displayed text. -/
def loadCapture (sessionId path : String) : Except CommandFailure CompletedCapture := do
  let bytes ← (readFile path).mapError (fun error =>
    CommandFailure.new .traceExportFailed
      [.lit "failed to read ", .display path, .lit ": ", .display error] false)
  (decode json bytes sessionId).mapError (fun error =>
    CommandFailure.new .traceExportFailed
      ([.lit "failed to decode ", .display path, .lit ": "] ++ error.message) false)

/-- The loop of `measure_completed_inputs` over its input. -/
def loadCaptures (sessionId : String) : List String → Except CommandFailure (List CompletedCapture)
  | [] => .ok []
  | path :: rest => do
    let capture ← loadCapture json readFile sessionId path
    let others ← loadCaptures sessionId rest
    return capture :: others

/-- The first part of `measure_completed_inputs`: the merged capture. -/
def mergeInputs (input : List String) (sessionId : String) :
    Except CommandFailure CompletedCapture := do
  let captures ← loadCaptures json readFile sessionId input
  (merge captures sessionId).mapError (fun error =>
    CommandFailure.new .traceExportFailed error.message false)

/-- `measure_completed_inputs`. -/
def measureCompletedInputs (input : List String) (options : MeasureOptions) : Execution :=
  match mergeInputs json readFile input options.sessionId with
  | .error failure => some (.error failure)
  | .ok capture => measureCapture regexNew false true capture options

/-- `export_measurement_capture` in the JSONL format: the text of the artifact. -/
def exportMeasurementCapture (events : List Event) : Except CommandFailure String :=
  (eventsToJsonl json events).mapError (fun error =>
    CommandFailure.new .traceExportFailed [.display error] false)

/-! ## What a successful measurement went through -/

variable {regexNew json readFile}

/-- A capture passes when nothing is known to be missing from it. -/
theorem rejectIncompleteCapture_eq_ok_iff {capture : CompletedCapture} {live requireComplete : Bool} :
    rejectIncompleteCapture capture live requireComplete = .ok () ↔
      capture.captureFailed = false ∧ capture.recordLimitReached = none ∧
        (requireComplete = true → ∀ cupti ∈ capture.cupti, cupti.complete = true) := by
  unfold rejectIncompleteCapture
  cases capture.captureFailed with
  | true => simp
  | false =>
    cases capture.recordLimitReached with
    | some capacity =>
      cases capture.cupti with
      | none => simp
      | some cupti => simp
    | none =>
      cases requireComplete with
      | false => simp
      | true =>
        cases capture.cupti with
        | none => simp
        | some cupti => cases hcomplete : cupti.complete <;> simp [hcomplete]

variable {options : MeasureOptions} {execution : MeasurementExecution} {input : List String}

/-- The steps of a successful measurement of a merged capture. -/
theorem measureCapture_eq_ok {live requireComplete : Bool} {capture : CompletedCapture}
    (h : measureCapture regexNew live requireComplete capture options = some (.ok execution)) :
    rejectIncompleteCapture capture live requireComplete = .ok () ∧ capture.unknownRecords = 0 ∧
      ∃ result,
        measure regexNew capture.events { options with droppedEvents := capture.droppedRecords } =
          some (.ok result) ∧
        execution = ⟨applyCollectionSummary result capture, capture.events⟩ := by
  unfold measureCapture at h
  cases hreject : rejectIncompleteCapture capture live requireComplete with
  | error failure => simp [hreject] at h
  | ok _ =>
    simp only [hreject] at h
    split_ifs at h with hunknown
    · cases h
    · refine ⟨rfl, not_not.mp hunknown, ?_⟩
      unfold measureMergedEvents at h
      dsimp only at h
      split at h
      · cases h
      · cases h
      · rename_i result hmeasure
        cases h
        exact ⟨result, hmeasure, rfl⟩

theorem measureCompletedInputs_eq_ok
    (h : measureCompletedInputs regexNew json readFile input options = some (.ok execution)) :
    ∃ captures merged, loadCaptures json readFile options.sessionId input = .ok captures ∧
      merge captures options.sessionId = .ok merged ∧
      measureCapture regexNew false true merged options = some (.ok execution) := by
  unfold measureCompletedInputs at h
  cases hinputs : mergeInputs json readFile input options.sessionId with
  | error failure => simp [hinputs] at h
  | ok merged =>
    rw [hinputs] at h
    obtain ⟨captures, hload, hmerge⟩ := of_bind hinputs
    exact ⟨captures, merged, hload, mapError_eq_ok_iff.mp hmerge, h⟩

/-- Every result says that its collection is complete. -/
theorem completeness_of_measureCompletedInputs
    (h : measureCompletedInputs regexNew json readFile input options = some (.ok execution)) :
    execution.result.collection.completeness = .complete := by
  obtain ⟨captures, merged, -, -, hmeasured⟩ := measureCompletedInputs_eq_ok h
  obtain ⟨-, -, result, hmeasure, rfl⟩ := measureCapture_eq_ok hmeasured
  have hcollection := collection_of_measure hmeasure
  unfold applyCollectionSummary
  cases merged.cupti with
  | none => rw [hcollection]
  | some cupti => rw [hcollection]

theorem measureCompletedInputs_of_merge {captures : List CompletedCapture} {merged : CompletedCapture}
    (hload : loadCaptures json readFile options.sessionId input = .ok captures)
    (hmerge : merge captures options.sessionId = .ok merged) :
    measureCompletedInputs regexNew json readFile input options =
      measureCapture regexNew false true merged options := by
  have hinputs : mergeInputs json readFile input options.sessionId = .ok merged := by
    rw [mergeInputs, hload, ok_bind, hmerge]
    rfl
  rw [measureCompletedInputs, hinputs]

/-! ## CUPTI files -/

def HoldsCapture (readFile : String → Except String (List UInt8)) (sessionId path : String)
    (capture : CuptiCapture) : Prop :=
  ∃ bytes, readFile path = .ok bytes ∧ decodeCapture bytes sessionId = .ok capture

variable {captures : List CuptiCapture}

theorem loadCaptures_of_holdsCapture {sessionId : String}
    (h : List.Forall₂ (HoldsCapture readFile sessionId) input captures) :
    loadCaptures json readFile sessionId input = .ok (captures.map .ofCupti) := by
  induction h with
  | nil => rfl
  | cons hfirst _ ih =>
    obtain ⟨bytes, hbytes, hcapture⟩ := hfirst
    simp only [loadCaptures, loadCapture, hbytes, Except.mapError, ok_bind,
      decode_of_decodeCapture hcapture, ih]
    rfl

/-- A measurement of CUPTI captures is always complete, so it is missing nothing exactly when the
    header of every file says that all observed records were sent. -/
theorem measureCompletedInputs_nothing_missing_iff {input : List String} {options : MeasureOptions}
    {execution : MeasurementExecution} {captures : List CuptiCapture}
    (hcaptures : List.Forall₂ (HoldsCapture readFile options.sessionId) input captures)
    (hok : measureCompletedInputs regexNew json readFile input options = some (.ok execution)) :
    (execution.result.collection.completeness = .complete →
        ∀ capture ∈ captures, capture.recordOffset = 0 ∧
          capture.observedRecords.toNat = capture.events.length) ↔
      ∀ path ∈ input, ∀ bytes, readFile path = .ok bytes → SentWhole bytes := by
  have hcomplete := completeness_of_measureCompletedInputs hok
  constructor
  · intro h path hpath bytes hbytes
    obtain ⟨capture, hcapture, bytes', hbytes', hdecode⟩ := exists_right_of_forall₂ hcaptures hpath
    cases hbytes.symm.trans hbytes'
    exact (sentWhole_iff hdecode).mp (h hcomplete capture hcapture)
  · intro h _ capture hcapture
    obtain ⟨path, hpath, bytes, hbytes, hdecode⟩ := exists_left_of_forall₂ hcaptures hcapture
    exact (sentWhole_iff hdecode).mpr (h path hpath bytes hbytes)

/-! ## A capture of one copy -/

/-- The end of the copy that `copyStart` begins. -/
def copyEnd (timestampNs : UInt64) (h : timestampNs ≠ 0) : AgentRecord :=
  { copyStart timestampNs h with
    record := { (copyStart timestampNs h).record with kind := RecordKind.gpuMemcpyEnd.code }
    kind := .gpuMemcpyEnd
    kind_eq := rfl
    range_kind := nofun
    range_id := nofun
    start_thread := nofun
    complete_flag := nofun }

def copyRecords : List AgentRecord := [copyStart 20 twenty_ne_zero, copyEnd 30 thirty_ne_zero]

/-- The header of a stopped capture that retains two records. -/
def copyHeader (recordOffset observedRecords droppedRecords : UInt64) : OutputHeader :=
  { featureFlags := featureTransferRecords ||| featureNvtxRecords
    captureState := CaptureState.stopped.code
    stopReason := StopReason.requested.code
    recordCount := 2
    recordCapacity := 16
    observedRecords
    agentDroppedRecords := droppedRecords
    cuptiDroppedRecords := 0
    unknownRecords := 0
    recordOffset }

def copyCapture (recordOffset observedRecords droppedRecords : UInt64)
    (hcapacity : recordOffset.toNat + 2 ≤ 16)
    (hobserved : recordOffset.toNat + 2 ≤ observedRecords.toNat) : SentCapture where
  header := copyHeader recordOffset observedRecords droppedRecords
  state := .stopped
  reason := .requested
  records := copyRecords
  bytes :=
    { toList := captureBytes (copyHeader recordOffset observedRecords droppedRecords) copyRecords
      length_le := by
        rw [captureBytes, length_encodeCapture]
        decide }
  bytes_eq := rfl
  valid :=
    { supported := (by decide :
        (featureTransferRecords ||| featureNvtxRecords) &&& ~~~supportedFeatures = 0)
      exact_mode := (by decide :
        hasFeature (featureTransferRecords ||| featureNvtxRecords) featureAggregateRecords = false)
      announced := (by decide : ∀ r ∈ copyRecords,
        r.kind.announced (featureTransferRecords ||| featureNvtxRecords) = true)
      state_code := rfl
      reason_code := rfl
      count := rfl
      capacity := hcapacity
      observed := hobserved
      drops := by
        have := droppedRecords.toNat_lt
        show droppedRecords.toNat + 0 < 2 ^ 64
        omega }

theorem pid_copyCapture (capture : SentCapture) (h : capture.records = copyRecords)
    (sessionId : String) : ∀ event ∈ (capture.image sessionId).events, event.pid = 7 := by
  apply pid_image_events
  intro r hr
  rw [h] at hr
  rcases List.mem_pair.mp hr with rfl | rfl <;> rfl

/-- The duration of copies. -/
def copyOptions : MeasureOptions :=
  { sessionId := "s", name := none, startSelector := "cuda:memcpy_start"
    endSelector := "cuda:memcpy_end", matchPolicy := .exact, samples := some 1, duration := none
    maxEvents := 8, droppedEvents := 0 }

def onlyFile (capture : SentCapture) : String → Except String (List UInt8) :=
  fun _ => .ok capture.bytes.toList

theorem holdsCapture_onlyFile (capture : SentCapture) (sessionId path : String) :
    HoldsCapture (onlyFile capture) sessionId path (capture.image sessionId) :=
  ⟨capture.bytes.toList, rfl, capture.decode_eq sessionId⟩

/-- The measurement of a file with the copy. -/
theorem measureCompletedInputs_copy (capture : SentCapture) (h : capture.records = copyRecords)
    (hpasses : (measureCapture regexNew false true
      { CompletedCapture.ofCupti (capture.image "s") with
        events := renumbered "s" (sortByKey Event.timestampNs (capture.image "s").events) }
      copyOptions).any Except.isOk = true) :
    ∃ execution, measureCompletedInputs regexNew json (onlyFile capture) ["copy"] copyOptions =
      some (.ok execution) := by
  have hload := @loadCaptures_of_holdsCapture json _ _ _ _
    (.cons (holdsCapture_onlyFile capture "s" "copy") .nil)
  have hlength : (capture.image "s").events.length ≤ 2 ^ 64 := by
    rw [capture.length_image_events, h]
    decide
  have hmerge := @merge_singleton_eq (.ofCupti (capture.image "s")) 7
    (pid_copyCapture capture h "s") hlength "s"
  rw [@measureCompletedInputs_of_merge regexNew json _ copyOptions _ _ _ hload hmerge]
  exact exists_ok_of_isOk hpasses

/-- A `serde_json` that reads and writes nothing. -/
def noJson : SerdeJson :=
  { eventToString := fun _ => .error "", documents := fun _ => []
    eventFromValue := fun _ => .error "", hostCaptureFromValue := fun _ => .error "" }

theorem two_le_capacity : (0 : UInt64).toNat + 2 ≤ 16 := by decide

theorem two_le_observed : (0 : UInt64).toNat + 2 ≤ (2 : UInt64).toNat := by decide

/-- A capture of everything that was observed. -/
def wholeCopy : SentCapture := copyCapture 0 2 0 two_le_capacity two_le_observed

theorem measureCompletedInputs_nothing_missing_wholeCopy : ∃ execution,
      measureCompletedInputs (fun _ => .error "") noJson (onlyFile wholeCopy) ["copy"]
        copyOptions = some (.ok execution) ∧
      ((execution.result.collection.completeness = .complete →
          ∀ capture ∈ [wholeCopy.image "s"], capture.recordOffset = 0 ∧
            capture.observedRecords.toNat = capture.events.length) ↔
        ∀ path ∈ ["copy"], ∀ bytes, onlyFile wholeCopy path = .ok bytes → SentWhole bytes) := by
  obtain ⟨execution, hexecution⟩ := @measureCompletedInputs_copy (fun _ => .error "") noJson
    wholeCopy rfl (by decide)
  have hholds : List.Forall₂ (HoldsCapture (onlyFile wholeCopy) copyOptions.sessionId) ["copy"]
      [wholeCopy.image "s"] := .cons (holdsCapture_onlyFile wholeCopy "s" "copy") .nil
  exact ⟨execution, hexecution, measureCompletedInputs_nothing_missing_iff hholds hexecution⟩

/-- A capture that begins at the sixth record and ends two records before the last one. -/
def lateCopy : SentCapture := copyCapture 5 9 0 (by decide) (by decide)

/-- Seven of nine records are missing from the capture, and the result is complete. -/
theorem measureCompletedInputs_complete_lateCopy :
    HoldsCapture (onlyFile lateCopy) "s" "copy" (lateCopy.image "s") ∧
      (lateCopy.image "s").recordOffset = 5 ∧ (lateCopy.image "s").observedRecords = 9 ∧
      (lateCopy.image "s").events.length = 2 ∧
      ∃ execution,
        measureCompletedInputs (fun _ => .error "") noJson (onlyFile lateCopy) ["copy"]
          copyOptions = some (.ok execution) ∧
        execution.result.collection.completeness = .complete := by
  obtain ⟨execution, hexecution⟩ := @measureCompletedInputs_copy (fun _ => .error "") noJson
    lateCopy rfl (by decide)
  exact ⟨holdsCapture_onlyFile lateCopy "s" "copy", rfl, rfl, by decide, execution, hexecution, rfl⟩

end Xprobe.Cli
