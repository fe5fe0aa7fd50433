import Xprobe.Cupti.RoundTrip

/-!
# Completed captures

Merging captures of one target into one stream of measurement events
(`xprobe/collector/src/completed.rs`).

`merge` keeps every event, in a stable order by time, and overwrites what the single captures wrote
into the session, the sequence number and the identifier. So its result does not depend on those
fields (`renumbered_eq_of_bare`), which is what makes captures that were numbered separately
comparable after the merge.
-/

namespace Xprobe.Collector

open Foundation Protocol Cupti

/-! ## Model -/

structure CompletedCuptiStatistics where
  complete : Bool
  recordCapacity : UInt64
  observedRecords : UInt64
  droppedRecords : UInt64
  deriving Repr, DecidableEq

structure CompletedCapture where
  droppedRecords : UInt64
  unknownRecords : UInt64
  recordLimitReached : Option UInt64
  captureFailed : Bool
  cupti : Option CompletedCuptiStatistics
  events : List Event

inductive CompletedCaptureError where
  | emptyInput
  | cupti (error : CuptiDecodeError)
  | json (error : String)
  | hostCaptureFollowedByAnotherDocument
  | hostCaptureInsideEventStream
  | counterOverflow
  | targetMismatch (expected actual : UInt32)

/-- The completed capture that `decode` makes of a decoded CUPTI capture. -/
def CompletedCapture.ofCupti (capture : CuptiCapture) : CompletedCapture :=
  { droppedRecords := capture.droppedRecords
    unknownRecords := capture.unknownRecords
    recordLimitReached :=
      if capture.state = .limitReached then some capture.recordCapacity else none
    captureFailed := capture.state = .idle ∨ capture.state = .failed
    cupti := some
      { complete := capture.state = .stopped
        recordCapacity := capture.recordCapacity
        observedRecords := capture.observedRecords
        droppedRecords := capture.droppedRecords }
    events := capture.events }

/-- A sum of counters in `merge`. -/
def addCounter (a b : UInt64) : Except CompletedCaptureError UInt64 :=
  okOr (checkedAdd a b) .counterOverflow

/-- The CUPTI statistics of `merge`: the first ones are kept, later ones are added. -/
def mergeStatistics : Option CompletedCuptiStatistics → Option CompletedCuptiStatistics →
      Except CompletedCaptureError (Option CompletedCuptiStatistics)
  | existing, none => .ok existing
  | none, some cupti => .ok (some cupti)
  | some existing, some cupti => do
    let recordCapacity ← addCounter existing.recordCapacity cupti.recordCapacity
    let observedRecords ← addCounter existing.observedRecords cupti.observedRecords
    let droppedRecords ← addCounter existing.droppedRecords cupti.droppedRecords
    return some
      { complete := existing.complete && cupti.complete
        recordCapacity, observedRecords, droppedRecords }

/-- `Option::max`, where `None` is below every value. -/
def optionMax : Option UInt64 → Option UInt64 → Option UInt64
  | none, b => b
  | a, none => a
  | some a, some b => some (max a b)

/-- What `merge` has gathered, with the process it expects once it has seen an event. -/
structure MergeState where
  merged : CompletedCapture
  targetPid : Option UInt32

/-- The inner loop of `merge`: take over the events of one capture. -/
def pushEvents : MergeState → List Event → Except CompletedCaptureError MergeState
  | state, [] => .ok state
  | state, event :: rest => do
    match state.targetPid with
    | some expected => ensure (event.pid = expected) (.targetMismatch expected event.pid)
    | none => pure ()
    pushEvents
      { merged := { state.merged with events := state.merged.events ++ [event] }
        targetPid := some (state.targetPid.getD event.pid) }
      rest

/-- The body of the outer loop of `merge`. -/
def mergeCapture (state : MergeState) (capture : CompletedCapture) :
    Except CompletedCaptureError MergeState := do
  let droppedRecords ← addCounter state.merged.droppedRecords capture.droppedRecords
  let unknownRecords ← addCounter state.merged.unknownRecords capture.unknownRecords
  let cupti ← mergeStatistics state.merged.cupti capture.cupti
  pushEvents
    { state with
      merged :=
        { droppedRecords
          unknownRecords
          recordLimitReached :=
            optionMax state.merged.recordLimitReached capture.recordLimitReached
          captureFailed := state.merged.captureFailed || capture.captureFailed
          cupti
          events := state.merged.events } }
    capture.events

/-- An event as it leaves `merge` at a position of the merged stream. -/
def renumber (sessionId : String) (event : Event) (sequence : UInt64) : Event :=
  numbered { event with sessionId } sequence

/-- The loop of `merge` that renumbers the sorted events, the first one at a given index. -/
def renumberEvents (sessionId : String) :
    Nat → List Event → Except CompletedCaptureError (List Event)
  | _, [] => .ok []
  | index, event :: rest => do
    -- `u64::try_from` of an index
    ensure (index < 2 ^ 64) .counterOverflow
    let others ← renumberEvents sessionId (index + 1) rest
    return renumber sessionId event (UInt64.ofNat index) :: others

def emptyCapture : CompletedCapture :=
  { droppedRecords := 0
    unknownRecords := 0
    recordLimitReached := none
    captureFailed := false
    cupti := none
    events := [] }

/-- The completed capture that `decode` makes of a stream of events. -/
def CompletedCapture.ofEvents (events : List Event) : CompletedCapture :=
  { emptyCapture with events }

/-- `merge`. -/
def merge (captures : List CompletedCapture) (sessionId : String) :
    Except CompletedCaptureError CompletedCapture := do
  let state ← captures.foldlM mergeCapture { merged := emptyCapture, targetPid := none }
  let events ← renumberEvents sessionId 0 (sortByKey Event.timestampNs state.merged.events)
  return { state.merged with events }

/-! ## The merged events -/

/-- The events that `merge` makes of a sorted stream. -/
def renumbered (sessionId : String) (events : List Event) : List Event :=
  events.mapIdx (fun i event => renumber sessionId event (UInt64.ofNat i))

/-- An event without the fields that `merge` overwrites. -/
def bare (event : Event) : Event :=
  { event with sessionId := "", sequence := 0, eventId := "" }

@[simp] theorem bare_timestampNs (event : Event) : (bare event).timestampNs = event.timestampNs :=
  rfl

@[simp] theorem bare_numbered (event : Event) (sequence : UInt64) :
    bare (numbered event sequence) = bare event := rfl

@[simp] theorem renumber_bare (sessionId : String) (event : Event) (sequence : UInt64) :
    renumber sessionId (bare event) sequence = renumber sessionId event sequence := rfl

theorem map_bare_numberedFrom (offset : UInt64) (events : List Event) :
    (numberedFrom offset events).map bare = events.map bare := by
  apply List.ext_getElem
  · simp [numberedFrom]
  · intro i _ _
    simp [numberedFrom]

theorem map_bare_renumbered (sessionId : String) (events : List Event) :
    (renumbered sessionId events).map bare = events.map bare := by
  apply List.ext_getElem
  · simp [renumbered]
  · intro i _ _
    simp [renumbered, renumber, bare, numbered]

theorem map_bare_sortByKey (events : List Event) : (sortByKey Event.timestampNs events).map bare =
      sortByKey Event.timestampNs (events.map bare) :=
  (sortByKey_map bare Event.timestampNs events).symm

theorem renumbered_eq_of_bare (sessionId : String) {events events' : List Event}
    (h : events.map bare = events'.map bare) :
    renumbered sessionId events = renumbered sessionId events' := by
  have hbare : ∀ l : List Event, renumbered sessionId l = renumbered sessionId (l.map bare) := by
    intro l
    apply List.ext_getElem
    · simp [renumbered]
    · intro i _ _
      simp [renumbered]
  rw [hbare events, h, ← hbare events']

private theorem renumberEvents_eq (sessionId : String) (events : List Event) (index : Nat)
    (h : index + events.length ≤ 2 ^ 64) :
    renumberEvents sessionId index events =
      .ok (events.mapIdx (fun i event => renumber sessionId event (UInt64.ofNat (index + i)))) := by
  induction events generalizing index with
  | nil => rfl
  | cons event rest ih =>
    rw [List.length_cons] at h
    have hindex : index < 2 ^ 64 := by omega
    have hshift : ∀ i, index + 1 + i = index + (i + 1) := by omega
    rw [renumberEvents, ensure_of hindex, ok_bind, ih (index + 1) (by omega), ok_bind,
      List.mapIdx_cons]
    simp only [hshift]
    rfl

/-- A stream that fits in memory is renumbered from zero. -/
theorem renumberEvents_zero {sessionId : String} {events : List Event}
    (h : events.length ≤ 2 ^ 64) :
    renumberEvents sessionId 0 events = .ok (renumbered sessionId events) := by
  rw [renumberEvents_eq sessionId events 0 (by omega)]
  simp only [Nat.zero_add]
  rfl

/-! ## The events of one capture -/

/-- The images of the records of a capture, without what the merge overwrites. -/
def bareImages (capture : SentCapture) (sessionId : String) : List Event :=
  capture.records.map (fun r => bare (r.image capture.header.featureFlags sessionId))

theorem map_bare_image_events (capture : SentCapture) (sessionId : String) :
    (capture.image sessionId).events.map bare =
      sortByKey Event.timestampNs (bareImages capture sessionId) := by
  show (numberedFrom _ (sortByKey _ _)).map bare = _
  rw [map_bare_numberedFrom, map_bare_sortByKey, List.map_map]
  rfl

theorem pid_image_events {capture : SentCapture} {sessionId : String} {pid : UInt32}
    (h : ∀ r ∈ capture.records, r.record.pid = pid) :
    ∀ event ∈ (capture.image sessionId).events, event.pid = pid := by
  intro event hevent
  obtain ⟨i, hi, rfl⟩ := List.mem_mapIdx.mp hevent
  have hmem := List.getElem_mem hi
  rw [mem_sortByKey] at hmem
  obtain ⟨r, hr, himage⟩ := List.mem_map.mp hmem
  show (List.get _ ⟨i, hi⟩ : Event).pid = pid
  rw [List.get_eq_getElem, ← himage]
  exact h r hr

/-! ## One capture of one process -/

/-- Events of the expected process are all taken over, in their order. -/
theorem pushEvents_of_onePid {pid : UInt32} {events : List Event}
    (h : ∀ event ∈ events, event.pid = pid) (state : MergeState)
    (hstate : ∀ expected ∈ state.targetPid, expected = pid) :
    ∃ state', pushEvents state events = .ok state' ∧
      state'.merged = { state.merged with events := state.merged.events ++ events } := by
  induction events generalizing state with
  | nil => exact ⟨state, rfl, by simp⟩
  | cons event rest ih =>
    have hpid : event.pid = pid := h event List.mem_cons_self
    have hrest : ∀ event ∈ rest, event.pid = pid :=
      fun event hevent => h event (List.mem_cons_of_mem _ hevent)
    -- the first event is accepted, and from then on this process is the expected one
    have hpush : pushEvents state (event :: rest) = pushEvents
        { merged := { state.merged with events := state.merged.events ++ [event] }
          targetPid := some pid } rest := by
      rw [pushEvents]
      cases hknown : state.targetPid with
      | none => simp [hpid]
      | some expected =>
        have hexpected : expected = pid := hstate expected (by simp [hknown])
        simp [hpid, hexpected]
    obtain ⟨state', hrun, hmerged⟩ := ih hrest
      { merged := { state.merged with events := state.merged.events ++ [event] }
        targetPid := some pid } (by simp)
    refine ⟨state', by rw [hpush, hrun], ?_⟩
    rw [hmerged]
    simp

private theorem addCounter_zero (b : UInt64) : addCounter 0 b = .ok b := by
  have h : checkedAdd 0 b = some b := by
    refine checkedAdd_eq_some.mpr ⟨?_, (UInt64.zero_add b).symm⟩
    have := b.toNat_lt
    simpa using this
  rw [addCounter, h, okOr_some]

/-- A single capture of one process is merged to itself, with its events sorted and renumbered. -/
theorem merge_singleton_eq {capture : CompletedCapture} {pid : UInt32}
    (hpid : ∀ event ∈ capture.events, event.pid = pid)
    (hlength : capture.events.length ≤ 2 ^ 64) (sessionId : String) :
    merge [capture] sessionId =
      .ok { capture with
        events := renumbered sessionId (sortByKey Event.timestampNs capture.events) } := by
  have hstatistics : mergeStatistics none capture.cupti = .ok capture.cupti := by
    cases capture.cupti <;> rfl
  have hlimit : optionMax none capture.recordLimitReached = capture.recordLimitReached := by
    cases capture.recordLimitReached <;> rfl
  obtain ⟨state, hrun, hmerged⟩ := pushEvents_of_onePid hpid
    { merged := { capture with events := [] }, targetPid := none } (by simp)
  have hgather : mergeCapture { merged := emptyCapture, targetPid := none } capture =
      .ok state := by
    simp only [mergeCapture, emptyCapture, addCounter_zero, hstatistics, hlimit, ok_bind,
      Bool.false_or]
    exact hrun
  rw [merge, List.foldlM_cons, hgather, ok_bind, List.foldlM_nil]
  simp only [pure, Except.pure, ok_bind, hmerged, List.nil_append]
  rw [renumberEvents_zero (by rw [length_sortByKey]; exact hlength), ok_bind]

theorem merge_singleton {capture : CompletedCapture} {pid : UInt32}
    (hpid : ∀ event ∈ capture.events, event.pid = pid)
    (hlength : capture.events.length ≤ 2 ^ 64) (sessionId : String) :
    ∃ merged, merge [capture] sessionId = .ok merged ∧
      merged.events =
        renumbered sessionId (sortByKey Event.timestampNs capture.events) :=
  ⟨_, merge_singleton_eq hpid hlength sessionId, rfl⟩

end Xprobe.Collector
