import Xprobe.Correlator.Pairable
import Xprobe.Cli.CompletedInputs

/-!
# Measuring an artifact

The artifact of a measurement is the stream of its merged events. Measuring it again gives the same
outcome as measuring those events (`measureCompletedInputs_artifact`), because a merged stream is
merged to itself. That is as it should be for a clean capture; but the stream says nothing about
what its capture lost, so the artifact of a capture that was rejected for its losses is measured as
if nothing had been lost, unless the policy can join no start and end among the retained events.
-/

namespace Xprobe.Cli

open Foundation Protocol Cupti Collector Correlator

variable {regexNew : RegexEngine} {json : SerdeJson} {readFile : String → Except String (List UInt8)}

/-! ## Reading an artifact -/

structure HoldsArtifact (json : SerdeJson) (readFile : String → Except String (List UInt8))
    (path : String) (events : List Event) : Prop where
  reads_back : json.ReadsBack events
  written : ∃ text, exportMeasurementCapture json events = .ok text ∧
    readFile path = .ok (utf8Bytes text)

theorem loadCaptures_artifact {path : String} {events : List Event}
    (h : HoldsArtifact json readFile path events) (hne : events ≠ []) (sessionId : String) :
    loadCaptures json readFile sessionId [path] = .ok [.ofEvents events] := by
  obtain ⟨text, htext, hfile⟩ := h.written
  have hdecode := decode_eventsToJsonl h.reads_back hne (mapError_eq_ok_iff.mp htext) sessionId
  simp only [loadCaptures, loadCapture, hfile, Except.mapError, ok_bind, hdecode]
  rfl

/-- An artifact without events is refused. -/
theorem measureCompletedInputs_artifact_nil {path : String}
    (h : HoldsArtifact json readFile path []) (options : MeasureOptions)
    (execution : MeasurementExecution) :
    measureCompletedInputs regexNew json readFile [path] options ≠ some (.ok execution) := by
  intro hok
  obtain ⟨captures, merged, hload, -⟩ := measureCompletedInputs_eq_ok hok
  obtain ⟨text, htext, hfile⟩ := h.written
  have hdecode := decode_eventsToJsonl_nil (mapError_eq_ok_iff.mp htext) options.sessionId
  simp only [loadCaptures, loadCapture, hfile, Except.mapError, ok_bind, hdecode] at hload
  cases hload

/-- Nothing stands between a stream of events and its measurement. -/
theorem measureCapture_ofEvents (live requireComplete : Bool) (events : List Event)
    (options : MeasureOptions) :
    measureCapture regexNew live requireComplete (.ofEvents events) options =
      measureMergedEvents regexNew requireComplete (.ofEvents events) options := by
  have hpass : rejectIncompleteCapture (.ofEvents events) live requireComplete = .ok () :=
    rejectIncompleteCapture_eq_ok_iff.mpr ⟨rfl, rfl, fun _ cupti hcupti => by cases hcupti⟩
  rw [measureCapture, hpass]
  rfl

/-- The artifact of a merged capture is measured as the events of that capture. -/
theorem measureCompletedInputs_artifact {captures : List CompletedCapture} {sessionId : String}
    {merged : CompletedCapture} (hmerge : merge captures sessionId = .ok merged)
    (hne : merged.events ≠ []) {path : String}
    (hartifact : HoldsArtifact json readFile path merged.events) (options : MeasureOptions) :
    measureCompletedInputs regexNew json readFile [path] options =
      measureMergedEvents regexNew true
        (.ofEvents (renumbered options.sessionId merged.events)) options := by
  have hload := loadCaptures_artifact hartifact hne options.sessionId
  have hagain := merge_merged hmerge options.sessionId
  rw [measureCompletedInputs_of_merge hload hagain]
  exact measureCapture_ofEvents false true _ options

/-! ## Clean captures -/

/-- A result without the numbers that only a CUPTI file provides. -/
def withoutCuptiSummary (execution : MeasurementExecution) : MeasurementExecution :=
  { execution with
    result :=
      { execution.result with collection := { execution.result.collection with cupti := none } } }

variable {capture : CompletedCapture}

/-- A successful measurement of the merged events. -/
theorem measureMergedEvents_of_ok {options : MeasureOptions} {result : MeasurementResult}
    {preserveArtifact : Bool}
    (h : measure regexNew capture.events { options with droppedEvents := capture.droppedRecords } = some (.ok result)) :

    measureMergedEvents regexNew preserveArtifact capture options =
      some (.ok ⟨applyCollectionSummary result capture, capture.events⟩) := by
  rw [measureMergedEvents, h]

theorem withoutCuptiSummary_applyCollectionSummary {result : MeasurementResult}
    (h : result.collection.cupti = none) (capture : CompletedCapture) (events : List Event) :
    withoutCuptiSummary ⟨applyCollectionSummary result capture, events⟩ = ⟨result, events⟩ := by
  have hcollection : { result.collection with cupti := none } = result.collection := by rw [← h]
  unfold applyCollectionSummary withoutCuptiSummary
  cases capture.cupti with
  | none => dsimp only; rw [hcollection]
  | some cupti => dsimp only; rw [hcollection]

/-- Measuring the events of a capture without drops, with and without its statistics. -/
theorem measureMergedEvents_ofEvents {preserveArtifact : Bool}
    (hdropped : capture.droppedRecords = 0) (options : MeasureOptions) :
    measureMergedEvents regexNew preserveArtifact (.ofEvents capture.events) options =
      (measureMergedEvents regexNew preserveArtifact capture options).map
        (Except.map withoutCuptiSummary) := by
  rw [measureMergedEvents, measureMergedEvents, hdropped]
  dsimp only [CompletedCapture.ofEvents, emptyCapture]
  cases hmeasure : measure regexNew capture.events { options with droppedEvents := 0 } with
  | none => rfl
  | some outcome =>
    cases outcome with
    | error error => rfl
    | ok result =>
      have hcupti : result.collection.cupti = none := by rw [collection_of_measure hmeasure]
      show _ = some (Except.ok (withoutCuptiSummary _))
      rw [withoutCuptiSummary_applyCollectionSummary hcupti]
      rfl

/-- Replay of a clean capture: the artifact of a merged capture without drops, limit or failure is
    measured as its merged events are, with the same error or a result that differs in the CUPTI
    summary alone. When the capture was also stopped and has no unknown records, it is measured as
    the capture itself. -/
theorem measureCompletedInputs_replay {captures : List CompletedCapture} {options : MeasureOptions}
    {merged : CompletedCapture} {path : String}
    (hmerge : merge captures options.sessionId = .ok merged) (hne : merged.events ≠ [])
    (hdropped : merged.droppedRecords = 0) (hlimit : merged.recordLimitReached = none)
    (hfailed : merged.captureFailed = false)
    (hartifact : HoldsArtifact json readFile path merged.events) :
    measureCompletedInputs regexNew json readFile [path] options =
        (measureMergedEvents regexNew true merged options).map (Except.map withoutCuptiSummary) ∧
      (merged.unknownRecords = 0 → (∀ cupti ∈ merged.cupti, cupti.complete = true) →
        measureCompletedInputs regexNew json readFile [path] options =
          (measureCapture regexNew false true merged options).map
            (Except.map withoutCuptiSummary)) := by
  have hreplay : measureCompletedInputs regexNew json readFile [path] options =
      (measureMergedEvents regexNew true merged options).map (Except.map withoutCuptiSummary) := by
    rw [measureCompletedInputs_artifact hmerge hne hartifact, renumbered_merged hmerge,
      measureMergedEvents_ofEvents hdropped]
  refine ⟨hreplay, fun hunknown hcomplete => ?_⟩
  have hpass : rejectIncompleteCapture merged false true = .ok () :=
    rejectIncompleteCapture_eq_ok_iff.mpr ⟨hfailed, hlimit, fun _ => hcomplete⟩
  have hmeasure : measureCapture regexNew false true merged options =
      measureMergedEvents regexNew true merged options := by
    simp [measureCapture, hpass, hunknown]
  rw [hmeasure, hreplay]

/-! ## Captures that were rejected -/

theorem artifactEvents_explainMeasureError (failure : CommandFailure) (events : List Event)
    (error : MeasureError) :
    (explainMeasureError failure events error).artifactEvents = failure.artifactEvents := by
  cases error <;> rfl

theorem artifactEvents_measurementFailure (error : MeasureError) (options : MeasureOptions)
    (events : List Event) (preserveArtifact : Bool) :
    (measurementFailure error options events preserveArtifact).artifactEvents =
      if preserveArtifact then some events else none := by
  rw [measurementFailure, artifactEvents_explainMeasureError]
  cases preserveArtifact <;> rfl

/-- The capture lost records, reached its limit or failed. -/
def Lossy (capture : CompletedCapture) : Prop :=
  capture.captureFailed = true ∨ capture.recordLimitReached ≠ none ∨ capture.droppedRecords ≠ 0

/-- Dropped records are always an error of the measurement, though not always the first one. -/
theorem measure_of_dropped {events : List Event} {options : MeasureOptions}
    (h : options.droppedEvents ≠ 0) :
    ∃ error, measure regexNew events options = some (.error error) := by
  cases hselect : select regexNew events options with
  | error error => exact ⟨error, by rw [Correlator.measure, hselect, Correlator.measureSelected]⟩
  | ok selected =>
    have hcapture := (select_eq_ok hselect).capture_ok
    unfold checkCapture at hcapture
    split_ifs at hcapture

/-- A lossy capture is rejected. The artifact of the failure, if there is one, is the stream of its
    merged events. -/
theorem measureCapture_of_lossy (h : Lossy capture) (live requireComplete : Bool)
    (options : MeasureOptions) :
    ∃ failure, measureCapture regexNew live requireComplete capture options =
        some (.error failure) ∧
      (failure.artifactEvents = some capture.events ∨
        requireComplete = false ∧ failure.artifactEvents = none) := by
  unfold measureCapture
  cases hreject : rejectIncompleteCapture capture live requireComplete with
  | error failure => exact ⟨_, rfl, .inl rfl⟩
  | ok _ =>
    dsimp only
    split_ifs with hunknown
    · exact ⟨_, rfl, .inl rfl⟩
    · -- neither failed nor at its limit, so records were dropped
      obtain ⟨hfailed, hlimit, -⟩ := rejectIncompleteCapture_eq_ok_iff.mp hreject
      have hdropped : capture.droppedRecords ≠ 0 := by
        rcases h with hfail | hreached | hdropped
        · rw [hfailed] at hfail
          cases hfail
        · exact absurd hlimit hreached
        · exact hdropped
      obtain ⟨error, herror⟩ := @measure_of_dropped regexNew capture.events
        { options with droppedEvents := capture.droppedRecords } hdropped
      refine ⟨_, by rw [measureMergedEvents, herror], ?_⟩
      rw [artifactEvents_measurementFailure]
      cases requireComplete with
      | true => exact .inl rfl
      | false => exact .inr ⟨rfl, rfl⟩

/-- Nothing is measured without events. -/
theorem measure_nil (regexNew : RegexEngine) (options : MeasureOptions)
    (result : MeasurementResult) : measure regexNew [] options ≠ some (.ok result) := by
  intro h
  obtain ⟨selected, outcome, hselect, -⟩ := measure_eq_ok h
  cases hselect.clock_ok

/-- A measurement of an artifact succeeds when its events can be measured, and then it is complete
    and without drops. -/
theorem measureCompletedInputs_artifact_eq_ok_iff {captures : List CompletedCapture}
    {sessionId : String} {merged : CompletedCapture}
    (hmerge : merge captures sessionId = .ok merged) {path : String}
    (hartifact : HoldsArtifact json readFile path merged.events) (options : MeasureOptions) :
    (∃ execution, measureCompletedInputs regexNew json readFile [path] options =
          some (.ok execution) ∧ execution.result.collection.completeness = .complete ∧
        execution.result.collection.droppedEvents = 0) ↔
      ∃ result, measure regexNew (renumbered options.sessionId merged.events)
        { options with droppedEvents := 0 } = some (.ok result) := by
  by_cases hne : merged.events = []
  · rw [hne] at hartifact ⊢
    constructor
    · rintro ⟨execution, hok, -⟩
      exact absurd hok (measureCompletedInputs_artifact_nil hartifact options execution)
    · rintro ⟨result, hmeasure⟩
      exact absurd hmeasure (measure_nil regexNew _ result)
  · rw [measureCompletedInputs_artifact hmerge hne hartifact]
    constructor
    · rintro ⟨execution, hok, -⟩
      rw [← measureCapture_ofEvents false] at hok
      obtain ⟨-, -, result, hmeasure, -⟩ := measureCapture_eq_ok hok
      exact ⟨result, hmeasure⟩
    · rintro ⟨result, hmeasure⟩
      refine ⟨⟨result, renumbered options.sessionId merged.events⟩, ?_, ?_, ?_⟩
      · exact @measureMergedEvents_of_ok regexNew
          (.ofEvents (renumbered options.sessionId merged.events)) options result true hmeasure
      · rw [collection_of_measure hmeasure]
      · rw [collection_of_measure hmeasure]

/-- A lossy capture is rejected. Measuring its artifact never gives a complete result without drops
    exactly when, among the retained events that the options select, no start and end can be joined
    by the policy. -/
theorem artifact_of_lossy_capture_iff {captures : List CompletedCapture} {options : MeasureOptions}
    {merged : CompletedCapture} {path : String}
    (hmerge : merge captures options.sessionId = .ok merged) (hlossy : Lossy merged)
    (hartifact : HoldsArtifact json readFile path merged.events)
    (live requireComplete : Bool) (sessionId : String) :
    (∃ failure, measureCapture regexNew live requireComplete merged options =
          some (.error failure) ∧
        (failure.artifactEvents = some merged.events ∨
          requireComplete = false ∧ failure.artifactEvents = none)) ∧
      ((∀ execution,
          measureCompletedInputs regexNew json readFile [path] { options with sessionId } =
            some (.ok execution) →
          ¬(execution.result.collection.completeness = .complete ∧
            execution.result.collection.droppedEvents = 0)) ↔
        ∀ selected,
          select regexNew (renumbered sessionId merged.events)
            { options with sessionId, droppedEvents := 0 } = .ok selected →
          ¬ CanJoin options.matchPolicy selected) := by
  refine ⟨measureCapture_of_lossy hlossy live requireComplete options, ?_⟩
  have hiff := @measureCompletedInputs_artifact_eq_ok_iff regexNew _ _ _ _ _ hmerge _ hartifact
    { options with sessionId }
  rw [measure_ok_iff] at hiff
  constructor
  · intro hnever selected hselect hjoin
    obtain ⟨execution, hok, hcomplete⟩ := hiff.mpr ⟨selected, hselect, hjoin⟩
    exact hnever execution hok hcomplete
  · intro hnone execution hok hcomplete
    obtain ⟨selected, hselect, hjoin⟩ := hiff.mp ⟨execution, hok, hcomplete⟩
    exact hnone selected hselect hjoin

/-! ## Artifacts of one copy -/

def mergedCopy (capture : SentCapture) : CompletedCapture :=
  { CompletedCapture.ofCupti (capture.image "s") with
    events := renumbered "s" (sortByKey Event.timestampNs (capture.image "s").events) }

theorem merge_copy (capture : SentCapture) (h : capture.records = copyRecords) :
    merge [.ofCupti (capture.image "s")] copyOptions.sessionId = .ok (mergedCopy capture) := by
  have hlength : (capture.image "s").events.length ≤ 2 ^ 64 := by
    rw [capture.length_image_events, h]
    decide
  exact @merge_singleton_eq (.ofCupti (capture.image "s")) 7 (pid_copyCapture capture h "s")
    hlength "s"

/-- The members of the JSON object for the start (at 20) or the end (at 30) of the copy. -/
def copyMembers (isEnd : Bool) : String :=
  let number := if isEnd then "1" else "0"
  let boundary := if isEnd then "end" else "start"
  let time := if isEnd then "30" else "20"
  "\"schema_version\":\"2.0\",\"session_id\":\"s\",\"event_id\":\"evt_" ++ number ++
    "\",\"sequence\":" ++ number ++ ",\"source\":\"cupti_activity\",\"event_type\":\"gpu_memcpy_" ++
    boundary ++ "\",\"pid\":7,\"tid\":7,\"cpu\":null,\"timestamp_raw\":" ++ time ++
    ",\"timestamp_ns\":" ++ time ++ ",\"clock_domain\":\"cupti\",\"timestamp_error_ns\":null," ++
    "\"process_start_time\":null,\"host\":null,\"cuda\":\x7b\"device_id\":0,\"context_id\":1," ++
    "\"stream_id\":3,\"correlation_id\":9,\"runtime_correlation_id\":null," ++
    "\"callback_domain\":null,\"callback_id\":null,\"kernel_name\":null," ++
    "\"kernel_name_mangled\":null,\"start_ns\":" ++ (if isEnd then "null" else "20") ++
    ",\"end_ns\":" ++ (if isEnd then "30" else "null") ++ ",\"grid\":null,\"block\":null," ++
    "\"bytes\":4294967297,\"memcpy_kind\":\"HtoD\"\x7d,\"nvtx\":null,\"attributes\":\x7b\x7d\x7d"

/-- The line of the artifact for that object. -/
def copyLine (isEnd : Bool) : String := "\x7b" ++ copyMembers isEnd

def copyObject (isEnd : Bool) : Value :=
  let time := if isEnd then 30 else 20
  .object
    [("attributes", .object []), ("clock_domain", .string "cupti"), ("cpu", .null),
      ("cuda", .object
        [("block", .null), ("bytes", .number 4294967297), ("callback_domain", .null),
          ("callback_id", .null), ("context_id", .number 1), ("correlation_id", .number 9),
          ("device_id", .number 0), ("end_ns", if isEnd then .number 30 else .null),
          ("grid", .null), ("kernel_name", .null), ("kernel_name_mangled", .null),
          ("memcpy_kind", .string "HtoD"), ("runtime_correlation_id", .null),
          ("start_ns", if isEnd then .null else .number 20), ("stream_id", .number 3)]),
      ("event_id", .string (if isEnd then "evt_1" else "evt_0")),
      ("event_type", .string (if isEnd then "gpu_memcpy_end" else "gpu_memcpy_start")),
      ("host", .null), ("nvtx", .null), ("pid", .number 7), ("process_start_time", .null),
      ("schema_version", .string "2.0"), ("sequence", .number (if isEnd then 1 else 0)),
      ("session_id", .string "s"), ("source", .string "cupti_activity"), ("tid", .number 7),
      ("timestamp_error_ns", .null), ("timestamp_ns", .number time),
      ("timestamp_raw", .number time)]

/-- What `serde_json` does with the two events of the copy, their lines and their objects. -/
def copyJson (capture : SentCapture) : SerdeJson :=
  { eventToString := fun event => .ok (copyLine (event.eventType == .gpuMemcpyEnd))
    documents := fun bytes =>
      if bytes = utf8Bytes (copyLine false ++ "\n" ++ (copyLine true ++ "\n" ++ "")) then
        [.ok (copyObject false), .ok (copyObject true)]
      else [.error "another text"]
    eventFromValue := fun value =>
      match (getMember value "event_type").bind Value.asStr with
      | some "gpu_memcpy_start" => okOr (mergedCopy capture).events[0]? "no start"
      | some "gpu_memcpy_end" => okOr (mergedCopy capture).events[1]? "no end"
      | _ => .error "unknown event type"
    hostCaptureFromValue := fun _ => .error "not a host capture" }

/-- The file that holds the artifact, whatever its name. -/
def copyArtifact (capture : SentCapture) : String → Except String (List UInt8) :=
  fun _ => (eventsToJsonl (copyJson capture) (mergedCopy capture).events).map utf8Bytes

theorem holdsArtifact_copy {capture : SentCapture}
    (h : (mergedCopy capture).events.map Event.eventType = [.gpuMemcpyStart, .gpuMemcpyEnd])
    (path : String) :
    HoldsArtifact (copyJson capture) (copyArtifact capture) path (mergedCopy capture).events := by
  obtain ⟨start, finish, hevents, hstart, hfinish⟩ : ∃ start finish,
      (mergedCopy capture).events = [start, finish] ∧ start.eventType = .gpuMemcpyStart ∧
        finish.eventType = .gpuMemcpyEnd := by
    obtain ⟨start, rest, hevents, hstart, hrest⟩ := List.map_eq_cons_iff.mp h
    obtain ⟨finish, rest, rfl, hfinish, hrest⟩ := List.map_eq_cons_iff.mp hrest
    cases List.map_eq_nil_iff.mp hrest
    exact ⟨start, finish, hevents, hstart, hfinish⟩
  have htext : eventsToJsonl (copyJson capture) (mergedCopy capture).events =
      .ok (copyLine false ++ "\n" ++ (copyLine true ++ "\n" ++ "")) := by
    rw [hevents, eventsToJsonl, eventsToJsonl, eventsToJsonl]
    simp only [copyJson, hstart, hfinish]
    rfl
  refine ⟨fun text hwritten => ?_, _, by rw [exportMeasurementCapture, htext]; rfl, by
    rw [copyArtifact, htext]; rfl⟩
  cases htext.symm.trans hwritten
  refine ⟨[copyObject false, copyObject true], by simp only [copyJson, if_true]; rfl, fun _ => ?_,
    ?_⟩
  · have hbrace : utf8Bytes "\x7b" = [0x7b] := by decide
    rw [copyLine, String.append_assoc, String.append_assoc, utf8Bytes_append, hbrace,
      List.singleton_append, List.head?_cons]
  · have hread : ∀ isEnd, getMember (copyObject isEnd) "events" = none := by decide
    rw [hevents]
    refine .cons ⟨hread false, ?_⟩ (.cons ⟨hread true, ?_⟩ .nil)
    · show okOr (mergedCopy capture).events[0]? "no start" = .ok start
      rw [hevents]
      rfl
    · show okOr (mergedCopy capture).events[1]? "no end" = .ok finish
      rw [hevents]
      rfl

theorem measureCompletedInputs_replay_wholeCopy :
    measureCompletedInputs (fun _ => .error "") (copyJson wholeCopy) (copyArtifact wholeCopy)
        ["artifact"] copyOptions =
      (measureMergedEvents (fun _ => .error "") true (mergedCopy wholeCopy) copyOptions).map
        (Except.map withoutCuptiSummary) :=
  (measureCompletedInputs_replay (merge_copy wholeCopy rfl) (by decide) rfl rfl rfl
    (holdsArtifact_copy (by decide) "artifact")).1

/-- A capture that dropped a record. -/
def lossyCopy : SentCapture := copyCapture 0 2 1 two_le_capacity two_le_observed

theorem artifact_of_lossy_capture_lossyCopy : Lossy (mergedCopy lossyCopy) ∧ ((∀ execution,
          measureCompletedInputs (fun _ => .error "") (copyJson lossyCopy) (copyArtifact lossyCopy)
            ["artifact"] { copyOptions with sessionId := "again" } = some (.ok execution) →
          ¬(execution.result.collection.completeness = .complete ∧
            execution.result.collection.droppedEvents = 0)) ↔
        ∀ selected,
          select (fun _ => .error "") (renumbered "again" (mergedCopy lossyCopy).events)
            { copyOptions with sessionId := "again", droppedEvents := 0 } = .ok selected →
          ¬ CanJoin copyOptions.matchPolicy selected) := by
  have hlossy : Lossy (mergedCopy lossyCopy) := .inr (.inr (by decide))
  exact ⟨hlossy, (artifact_of_lossy_capture_iff (merge_copy lossyCopy rfl) hlossy
    (holdsArtifact_copy (by decide) "artifact") false true "again").2⟩

def failureCode : Execution → Option ErrorCode
  | some (.error failure) => some failure.code
  | _ => none

/-- The capture is rejected for its dropped record, and its artifact is measured as complete and
    without drops. -/
theorem artifact_of_lossyCopy_complete :
    measureCompletedInputs (fun _ => .error "") noJson (onlyFile lossyCopy) ["copy"] copyOptions =
        measureCapture (fun _ => .error "") false true (mergedCopy lossyCopy) copyOptions ∧
      failureCode (measureCapture (fun _ => .error "") false true (mergedCopy lossyCopy)
        copyOptions) = some .eventsDropped ∧
      (copyJson lossyCopy).ReadsBack (mergedCopy lossyCopy).events ∧
      ∃ execution,
        measureCompletedInputs (fun _ => .error "") (copyJson lossyCopy) (copyArtifact lossyCopy)
          ["artifact"] copyOptions = some (.ok execution) ∧
        execution.result.collection.completeness = .complete ∧
        execution.result.collection.droppedEvents = 0 := by
  have hload := @loadCaptures_of_holdsCapture noJson _ _ _ _
    (.cons (holdsCapture_onlyFile lossyCopy "s" "copy") .nil)
  refine ⟨measureCompletedInputs_of_merge hload (merge_copy lossyCopy rfl), by decide,
    (holdsArtifact_copy (by decide) "artifact").reads_back, ?_⟩
  have hmeasure : (measure (fun _ => .error "") (renumbered "s" (mergedCopy lossyCopy).events)
      { copyOptions with droppedEvents := 0 }).any Except.isOk = true := by decide
  exact (measureCompletedInputs_artifact_eq_ok_iff (merge_copy lossyCopy rfl)
    (holdsArtifact_copy (by decide) "artifact") copyOptions).mpr (exists_ok_of_isOk hmeasure)

end Xprobe.Cli
