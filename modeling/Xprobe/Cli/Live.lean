import Xprobe.Collector.Completed
import Xprobe.Cli.ArmConfig

/-!
# Live collection

A live measurement asks the agent again and again for the records it has not seen, and accumulates
the answers (`append_cuda_capture` in `xprobe/cli/src/main.rs`).

Each answer is sorted and numbered on its own and the accumulated list is not sorted, so it differs
from the capture that one request for all records would give. The merge at the end removes the
difference: both give the same events, ties in time included.
-/

namespace Xprobe.Cli

open Foundation Protocol Cupti Collector

/-! ## Accumulating captures -/

/-- The part of `LiveCollection` that accumulates CUPTI captures. -/
structure LiveCollection where
  latestCuda : Option CuptiCapture
  cudaRecordOffset : UInt64

/-- The collection of a measurement that has just armed the agent. -/
def LiveCollection.armed : LiveCollection := { latestCuda := none, cudaRecordOffset := 0 }

def LiveCollection.events (collection : LiveCollection) : List Event :=
  collection.latestCuda.elim [] CuptiCapture.events

/-- A failure of `append_cuda_capture`. -/
def traceExportFailed (message : Message) : CommandFailure := .new .traceExportFailed message false

structure Continues (accumulated capture : CuptiCapture) : Prop where
  capacity : accumulated.recordCapacity = capture.recordCapacity
  observed : accumulated.observedRecords ≤ capture.observedRecords
  agentDropped : accumulated.agentDroppedRecords ≤ capture.agentDroppedRecords
  cuptiDropped : accumulated.cuptiDroppedRecords ≤ capture.cuptiDroppedRecords
  unknown : accumulated.unknownRecords ≤ capture.unknownRecords

/-- What `append_cuda_capture` checks against the capture accumulated so far, if there is one. -/
def checkContinues (latest : Option CuptiCapture) (capture : CuptiCapture) :
    Except CommandFailure Unit :=
  match latest with
  | none => .ok ()
  | some accumulated => do
    ensure (accumulated.recordCapacity = capture.recordCapacity)
      (traceExportFailed
        [.lit "CUPTI record capacity changed from ",
          .display (toString accumulated.recordCapacity), .lit " to ",
          .display (toString capture.recordCapacity), .lit " during capture"])
    ensure (¬(capture.observedRecords < accumulated.observedRecords ∨
        capture.agentDroppedRecords < accumulated.agentDroppedRecords ∨
        capture.cuptiDroppedRecords < accumulated.cuptiDroppedRecords ∨
        capture.unknownRecords < accumulated.unknownRecords))
      (traceExportFailed (.of "CUPTI incremental counters moved backwards"))

def extendCapture (accumulated capture : CuptiCapture) : CuptiCapture :=
  { accumulated with
    state := capture.state
    stopReason := capture.stopReason
    observedRecords := capture.observedRecords
    agentDroppedRecords := capture.agentDroppedRecords
    cuptiDroppedRecords := capture.cuptiDroppedRecords
    droppedRecords := capture.droppedRecords
    unknownRecords := capture.unknownRecords
    events := accumulated.events ++ capture.events }

/-- The value of `latest_cuda` after a capture was accepted. -/
def extendLatest (latest : Option CuptiCapture) (capture : CuptiCapture) : CuptiCapture :=
  match latest with
  | some accumulated => extendCapture accumulated capture
  | none => { capture with recordOffset := 0 }

/-- `append_cuda_capture`. Every check comes before the first assignment, so a refused capture
    leaves the collection as it was. -/
def appendCudaCapture (collection : LiveCollection) (capture : CuptiCapture) :
    Except CommandFailure LiveCollection := do
  ensure (capture.recordOffset = collection.cudaRecordOffset)
    (traceExportFailed
      [.lit "CUPTI incremental capture started at record ",
        .display (toString capture.recordOffset), .lit ", expected ",
        .display (toString collection.cudaRecordOffset)])
  -- `u64::try_from` of the number of events
  ensure (capture.events.length < 2 ^ 64)
    (traceExportFailed
      [.lit "CUPTI incremental event count exceeds u64: ",
        .display "out of range integral type conversion attempted"])
  let nextOffset ← okOr (checkedAdd capture.recordOffset (UInt64.ofNat capture.events.length))
    (traceExportFailed (.of "CUPTI incremental record offset overflowed"))
  checkContinues collection.latestCuda capture
  return { latestCuda := some (extendLatest collection.latestCuda capture)
           cudaRecordOffset := nextOffset }

/-! ## When a capture is accepted -/

variable {capture : CuptiCapture}

theorem checkContinues_eq_ok_iff {latest : Option CuptiCapture} :
    checkContinues latest capture = .ok () ↔
      ∀ accumulated ∈ latest, Continues accumulated capture := by
  cases latest with
  | none => simp [checkContinues]
  | some accumulated =>
    rw [checkContinues, bind_unit_eq_ok_iff, ensure_eq_ok_iff, ensure_eq_ok_iff]
    simp only [not_or, not_lt, Option.mem_some_iff, forall_eq']
    constructor
    · rintro ⟨hcapacity, hobserved, hagent, hcupti, hunknown⟩
      exact ⟨hcapacity, hobserved, hagent, hcupti, hunknown⟩
    · rintro ⟨hcapacity, hobserved, hagent, hcupti, hunknown⟩
      exact ⟨hcapacity, hobserved, hagent, hcupti, hunknown⟩

/-- What `append_cuda_capture` requires of a capture. -/
structure Appendable (collection : LiveCollection) (capture : CuptiCapture) : Prop where
  offset : capture.recordOffset = collection.cudaRecordOffset
  fits : capture.recordOffset.toNat + capture.events.length < 2 ^ 64
  continues : ∀ accumulated ∈ collection.latestCuda, Continues accumulated capture

def appended (collection : LiveCollection) (capture : CuptiCapture) : LiveCollection :=
  { latestCuda := some (extendLatest collection.latestCuda capture)
    cudaRecordOffset := capture.recordOffset + UInt64.ofNat capture.events.length }

variable {collection : LiveCollection}

theorem appendCudaCapture_eq_ok_iff {collection' : LiveCollection} :
    appendCudaCapture collection capture = .ok collection' ↔
      Appendable collection capture ∧ collection' = appended collection capture := by
  have hnext : ∀ {next : UInt64}, capture.events.length < 2 ^ 64 →
      (checkedAdd capture.recordOffset (UInt64.ofNat capture.events.length) = some next ↔
        capture.recordOffset.toNat + capture.events.length < 2 ^ 64 ∧
          next = capture.recordOffset + UInt64.ofNat capture.events.length) := by
    intro next hlength
    rw [checkedAdd_eq_some, UInt64.toNat_ofNat_of_lt' hlength]
  rw [appendCudaCapture, bind_unit_eq_ok_iff, bind_unit_eq_ok_iff, bind_eq_ok_iff,
    ensure_eq_ok_iff, ensure_eq_ok_iff]
  constructor
  · rintro ⟨hoffset, hlength, next, hadd, hrest⟩
    rw [okOr_eq_ok_iff] at hadd
    obtain ⟨hfits, rfl⟩ := (hnext hlength).mp hadd
    obtain ⟨_, hcontinues, hresult⟩ := of_bind hrest
    refine ⟨⟨hoffset, hfits, checkContinues_eq_ok_iff.mp hcontinues⟩, ?_⟩
    cases hresult
    rfl
  · rintro ⟨⟨hoffset, hfits, hcontinues⟩, rfl⟩
    have hlength : capture.events.length < 2 ^ 64 := by omega
    refine ⟨hoffset, hlength, _, okOr_eq_ok_iff.mpr ((hnext hlength).mpr ⟨hfits, rfl⟩), ?_⟩
    exact bind_unit_eq_ok_iff.mpr ⟨checkContinues_eq_ok_iff.mpr hcontinues, rfl⟩

theorem appended_offset_toNat (h : Appendable collection capture) :
    (appended collection capture).cudaRecordOffset.toNat =
      collection.cudaRecordOffset.toNat + capture.events.length := by
  have hfits := h.fits
  have hlength : capture.events.length < 2 ^ 64 := by omega
  rw [appended, UInt64.toNat_add, UInt64.toNat_ofNat_of_lt' hlength, Nat.mod_eq_of_lt hfits,
    h.offset]

theorem events_appended (collection : LiveCollection) (capture : CuptiCapture) :
    (appended collection capture).latestCuda.elim [] CuptiCapture.events =
      collection.latestCuda.elim [] CuptiCapture.events ++ capture.events := by
  cases hlatest : collection.latestCuda with
  | none => simp [appended, extendLatest, hlatest]
  | some accumulated => simp [appended, extendLatest, extendCapture, hlatest]

/-! ## Deltas -/

/-- Each delta starts at the number of records already sent. -/
def Consecutive : Nat → List SentCapture → Prop
  | _, [] => True
  | sent, delta :: rest =>
    delta.header.recordOffset.toNat = sent ∧ Consecutive (sent + delta.records.length) rest

/-- No counter moves backwards from one header to the next. -/
structure CountersGrow (earlier later : OutputHeader) : Prop where
  observed : earlier.observedRecords ≤ later.observedRecords
  agentDropped : earlier.agentDroppedRecords ≤ later.agentDroppedRecords
  cuptiDropped : earlier.cuptiDroppedRecords ≤ later.cuptiDroppedRecords
  unknown : earlier.unknownRecords ≤ later.unknownRecords

/-- The records of one capture, sent piece by piece. -/
structure SplitOf (whole : SentCapture) (deltas : List SentCapture) : Prop where
  whole_offset : whole.header.recordOffset = 0
  records : deltas.flatMap SentCapture.records = whole.records
  consecutive : Consecutive 0 deltas
  same_flags : ∀ delta ∈ deltas, delta.header.featureFlags = whole.header.featureFlags
  same_capacity : ∀ delta ∈ deltas, delta.header.recordCapacity = whole.header.recordCapacity
  counters : deltas.IsChain (fun earlier later => CountersGrow earlier.header later.header)

/-! ## Accumulating deltas -/

inductive LiveError where
  | decode (error : CuptiDecodeError)
  | append (failure : CommandFailure)

/-- Decode one answer of the agent and accumulate it. -/
def appendBytes (sessionId : String) (collection : LiveCollection) (bytes : Slice UInt8) :
    Except LiveError LiveCollection := do
  let capture ← (decodeCapture bytes.toList sessionId).mapError .decode
  (appendCudaCapture collection capture).mapError .append

def accumulate (sessionId : String) (collection : LiveCollection) (answers : List (Slice UInt8)) :
    Except LiveError LiveCollection :=
  answers.foldlM (appendBytes sessionId) collection

variable {sessionId : String} {delta : SentCapture}

theorem appendBytes_delta (h : Appendable collection (delta.image sessionId)) :
    appendBytes sessionId collection delta.bytes =
      .ok (appended collection (delta.image sessionId)) := by
  rw [appendBytes, delta.decode_eq]
  show (appendCudaCapture collection (delta.image sessionId)).mapError LiveError.append = _
  exact mapError_eq_ok_iff.mpr (appendCudaCapture_eq_ok_iff.mpr ⟨h, rfl⟩)

structure ShowsLast (accumulated : CuptiCapture) (last : OutputHeader) : Prop where
  capacity : accumulated.recordCapacity = last.recordCapacity
  observed : accumulated.observedRecords = last.observedRecords
  agentDropped : accumulated.agentDroppedRecords = last.agentDroppedRecords
  cuptiDropped : accumulated.cuptiDroppedRecords = last.cuptiDroppedRecords
  unknown : accumulated.unknownRecords = last.unknownRecords

variable {accumulated : CuptiCapture} {last : OutputHeader}

theorem ShowsLast.continues (h : ShowsLast accumulated last)
    (hcapacity : delta.header.recordCapacity = last.recordCapacity)
    (hgrow : CountersGrow last delta.header) (sessionId : String) :
    Continues accumulated (delta.image sessionId) where
  capacity := h.capacity.trans hcapacity.symm
  observed := h.observed ▸ hgrow.observed
  agentDropped := h.agentDropped ▸ hgrow.agentDropped
  cuptiDropped := h.cuptiDropped ▸ hgrow.cuptiDropped
  unknown := h.unknown ▸ hgrow.unknown

theorem ShowsLast.extend (h : ShowsLast accumulated last)
    (hcapacity : delta.header.recordCapacity = last.recordCapacity) (sessionId : String) :
    ShowsLast (extendCapture accumulated (delta.image sessionId)) delta.header :=
  ⟨h.capacity.trans hcapacity.symm, rfl, rfl, rfl, rfl⟩

/-- A delta that starts where the collection stands fits behind it. -/
private theorem delta_fits (delta : SentCapture) (sessionId : String) :
    (delta.image sessionId).recordOffset.toNat + (delta.image sessionId).events.length <
      2 ^ 64 := by
  rw [delta.length_image_events]
  exact lt_of_le_of_lt delta.valid.capacity delta.header.recordCapacity.toNat_lt

/-- One more delta behind others: it is accepted, and its events follow those accumulated. -/
theorem appendBytes_next {offset : UInt64} (hlast : ShowsLast accumulated last)
    (hoffset : delta.header.recordOffset.toNat = offset.toNat)
    (hcapacity : delta.header.recordCapacity = last.recordCapacity)
    (hgrow : CountersGrow last delta.header) :
    ∃ accumulated' offset',
      appendBytes sessionId ⟨some accumulated, offset⟩ delta.bytes =
        .ok ⟨some accumulated', offset'⟩ ∧
      ShowsLast accumulated' delta.header ∧
      accumulated'.events = accumulated.events ++ (delta.image sessionId).events ∧
      offset'.toNat = offset.toNat + delta.records.length := by
  have happend : Appendable ⟨some accumulated, offset⟩ (delta.image sessionId) :=
    { offset := UInt64.toNat_inj.mp hoffset
      fits := delta_fits delta sessionId
      continues := by
        intro accumulated' haccumulated
        cases haccumulated
        exact hlast.continues hcapacity hgrow sessionId }
  refine ⟨_, _, appendBytes_delta happend, hlast.extend hcapacity sessionId, rfl, ?_⟩
  rw [← delta.length_image_events sessionId]
  exact appended_offset_toNat happend

variable {deltas : List SentCapture}

/-- Any number of deltas behind others. -/
theorem accumulate_next {offset : UInt64} {last : SentCapture}
    (hlast : ShowsLast accumulated last.header) (hconsecutive : Consecutive offset.toNat deltas)
    (hcapacity : ∀ delta ∈ deltas, delta.header.recordCapacity = last.header.recordCapacity)
    (hcounters : (last :: deltas).IsChain
      (fun earlier later => CountersGrow earlier.header later.header)) :
    ∃ accumulated' offset',
      accumulate sessionId ⟨some accumulated, offset⟩ (deltas.map SentCapture.bytes) =
        .ok ⟨some accumulated', offset'⟩ ∧
      accumulated'.events =
        accumulated.events ++ deltas.flatMap (fun delta => (delta.image sessionId).events) := by
  -- the last delta and the offset move along, so both are general in the induction
  induction deltas generalizing accumulated offset last with
  | nil => exact ⟨accumulated, offset, rfl, by simp⟩
  | cons delta rest ih =>
    obtain ⟨hoffset, hrest⟩ := hconsecutive
    obtain ⟨hgrow, hchain⟩ := List.isChain_cons_cons.mp hcounters
    have hdelta := hcapacity delta List.mem_cons_self
    obtain ⟨accumulated', offset', hrun, hlast', hevents, hnext⟩ :=
      @appendBytes_next sessionId _ _ _ _ hlast hoffset hdelta hgrow
    obtain ⟨result, final, hresult, hall⟩ := ih hlast' (by rw [hnext]; exact hrest)
      (fun d hd => (hcapacity d (List.mem_cons_of_mem _ hd)).trans hdelta.symm) hchain
    refine ⟨result, final, ?_, ?_⟩
    · show List.foldlM _ _ (delta.bytes :: rest.map SentCapture.bytes) = _
      rw [List.foldlM_cons, hrun, ok_bind]
      exact hresult
    · rw [hall, hevents, List.append_assoc, List.flatMap_cons]

variable {whole : SentCapture}

variable (h : SplitOf whole deltas)

include h

/-- A split accumulates to the events of its deltas, one delta after the other. -/
theorem accumulate_split (sessionId : String) : ∃ collection,
      accumulate sessionId .armed (deltas.map SentCapture.bytes) = .ok collection ∧
      collection.latestCuda.elim [] CuptiCapture.events =
        deltas.flatMap (fun delta => (delta.image sessionId).events) := by
  cases deltas with
  | nil => exact ⟨.armed, rfl, rfl⟩
  | cons first rest =>
    obtain ⟨hoffset, hrest⟩ := h.consecutive
    have happend : Appendable .armed (first.image sessionId) :=
      { offset := UInt64.toNat_inj.mp hoffset
        fits := delta_fits first sessionId
        continues := nofun }
    -- the first delta is stored as it is, the others are appended to it
    obtain ⟨accumulated, offset, hrun, hevents⟩ := @accumulate_next sessionId
      { first.image sessionId with recordOffset := 0 } rest
      (appended .armed (first.image sessionId)).cudaRecordOffset first
      ⟨rfl, rfl, rfl, rfl, rfl⟩
      (by
        rw [appended_offset_toNat happend, first.length_image_events]
        exact hrest)
      (fun delta hdelta => (h.same_capacity delta (List.mem_cons_of_mem _ hdelta)).trans
        (h.same_capacity first List.mem_cons_self).symm)
      h.counters
    refine ⟨⟨some accumulated, offset⟩, ?_, hevents⟩
    show List.foldlM _ _ (first.bytes :: rest.map SentCapture.bytes) = _
    rw [List.foldlM_cons, appendBytes_delta happend, ok_bind]
    exact hrun

/-! ## Incremental collection equals one-shot collection -/

theorem SplitOf.flatMap_bareImages (sessionId : String) :
    (deltas.map (fun delta => bareImages delta sessionId)).flatten =
      bareImages whole sessionId := by
  have hflags : deltas.map (fun delta => bareImages delta sessionId) =
      deltas.map (fun delta => delta.records.map
        (fun r => bare (r.image whole.header.featureFlags sessionId))) := by
    apply List.map_congr_left
    intro delta hdelta
    rw [bareImages, h.same_flags delta hdelta]
  rw [hflags, bareImages, ← h.records, List.map_flatMap, List.flatMap_def]

/-- Three stable sorts compose: the events of the deltas, sorted again, are those of the whole
    capture up to what the merge overwrites. -/
theorem SplitOf.sort_bare (sessionId : String) : (sortByKey Event.timestampNs
        (deltas.flatMap (fun delta => (delta.image sessionId).events))).map bare =
      (sortByKey Event.timestampNs (whole.image sessionId).events).map bare := by
  have hpieces : (deltas.flatMap (fun delta => (delta.image sessionId).events)).map bare =
      (deltas.map (fun delta => bareImages delta sessionId)).flatMap
        (sortByKey Event.timestampNs) := by
    rw [List.map_flatMap, List.flatMap_map]
    simp only [map_bare_image_events]
  calc (sortByKey Event.timestampNs
          (deltas.flatMap (fun delta => (delta.image sessionId).events))).map bare
      = sortByKey Event.timestampNs
          ((deltas.map (fun delta => bareImages delta sessionId)).flatMap
            (sortByKey Event.timestampNs)) := by rw [map_bare_sortByKey, hpieces]
    _ = sortByKey Event.timestampNs (bareImages whole sessionId) := by
          rw [sortByKey_flatMap_sortByKey, h.flatMap_bareImages]
    _ = (sortByKey Event.timestampNs (whole.image sessionId).events).map bare := by
          rw [map_bare_sortByKey, map_bare_image_events, sortByKey_sortByKey]

theorem SplitOf.length_events (sessionId : String) :
    (deltas.flatMap (fun delta => (delta.image sessionId).events)).length =
      whole.records.length := by
  rw [← h.records, List.length_flatMap, List.length_flatMap]
  simp only [SentCapture.length_image_events]

omit h

/-- The accumulated capture, or none, merges to its own events. -/
private theorem merge_latest {latest : Option CuptiCapture} {pid : UInt32}
    (hpid : ∀ event ∈ latest.elim [] CuptiCapture.events, event.pid = pid)
    (hlength : (latest.elim [] CuptiCapture.events).length ≤ 2 ^ 64) (sessionId : String) :
    ∃ merged, merge (latest.toList.map CompletedCapture.ofCupti) sessionId = .ok merged ∧
      merged.events = renumbered sessionId
        (sortByKey Event.timestampNs (latest.elim [] CuptiCapture.events)) := by
  cases latest with
  | none => exact ⟨emptyCapture, rfl, rfl⟩
  | some capture =>
    exact @merge_singleton (.ofCupti capture) pid hpid hlength sessionId

/-- Accumulating the answers one by one and merging them gives the events of a single capture of
    all records, merged: the same order, also among equal times, the same numbers and the same
    identifiers. -/
theorem merge_accumulate_eq_merge_whole (whole : SentCapture) (deltas : List SentCapture)
    (sessionId : String) (pid : UInt32) (hsplit : SplitOf whole deltas)
    (hpid : ∀ r ∈ whole.records, r.record.pid = pid) :
    ∃ collection capture merged merged',
      accumulate sessionId .armed (deltas.map SentCapture.bytes) = .ok collection ∧
      decodeCapture whole.bytes.toList sessionId = .ok capture ∧
      merge (collection.latestCuda.toList.map CompletedCapture.ofCupti) sessionId = .ok merged ∧
      merge [CompletedCapture.ofCupti capture] sessionId = .ok merged' ∧
      merged.events = merged'.events := by
  obtain ⟨collection, haccumulate, hevents⟩ := accumulate_split hsplit sessionId
  -- every delta holds records of the one process
  have hdeltas : ∀ delta ∈ deltas, ∀ r ∈ delta.records, r.record.pid = pid := by
    intro delta hdelta r hr
    apply hpid
    rw [← hsplit.records]
    exact List.mem_flatMap.mpr ⟨delta, hdelta, hr⟩
  have hbound : whole.records.length ≤ 2 ^ 64 := by
    have hcapacity := whole.valid.capacity
    have := whole.header.recordCapacity.toNat_lt
    omega
  obtain ⟨merged, hmerge, hmerged⟩ := @merge_latest collection.latestCuda pid
    (by
      rw [hevents]
      intro event hevent
      obtain ⟨delta, hdelta, hmem⟩ := List.mem_flatMap.mp hevent
      exact pid_image_events (hdeltas delta hdelta) event hmem)
    (by rw [hevents, hsplit.length_events]; exact hbound) sessionId
  obtain ⟨merged', hmerge', hmerged'⟩ := @merge_latest (some (whole.image sessionId)) pid
    (pid_image_events hpid) (by rw [Option.elim, whole.length_image_events]; exact hbound)
    sessionId
  refine ⟨collection, whole.image sessionId, merged, merged', haccumulate,
    whole.decode_eq sessionId, hmerge, hmerge', ?_⟩
  rw [hmerged, hmerged', hevents]
  exact renumbered_eq_of_bare sessionId (hsplit.sort_bare sessionId)

def threeCopies : List AgentRecord :=
  [copyStart 30 thirty_ne_zero, copyStart 20 twenty_ne_zero, copyStart 20 twenty_ne_zero]

def wholeCopies : SentCapture :=
  stoppedCapture threeCopies 3 0
    ⟨rfl, rfl, by decide, rfl, rfl, rfl, by decide, by decide, by decide⟩

def splitCopies : List SentCapture :=
  [stoppedCapture (threeCopies.take 2) 2 0
      ⟨rfl, rfl, by decide, rfl, rfl, rfl, by decide, by decide, by decide⟩,
    stoppedCapture (threeCopies.drop 2) 1 2
      ⟨rfl, rfl, by decide, rfl, rfl, rfl, by decide, by decide, by decide⟩]

theorem merge_accumulate_eq_merge_whole_copies : SplitOf wholeCopies splitCopies ∧
    ∃ collection capture merged merged',
      accumulate "s" .armed (splitCopies.map SentCapture.bytes) = .ok collection ∧
      decodeCapture wholeCopies.bytes.toList "s" = .ok capture ∧
      merge (collection.latestCuda.toList.map CompletedCapture.ofCupti) "s" = .ok merged ∧
      merge [CompletedCapture.ofCupti capture] "s" = .ok merged' ∧
      merged.events = merged'.events := by
  have hsplit : SplitOf wholeCopies splitCopies :=
    { whole_offset := rfl
      records := rfl
      consecutive := ⟨rfl, rfl, trivial⟩
      same_flags := by
        intro delta hdelta
        rcases List.mem_pair.mp hdelta with rfl | rfl <;> rfl
      same_capacity := by
        intro delta hdelta
        rcases List.mem_pair.mp hdelta with rfl | rfl <;> rfl
      counters := .cons_cons ⟨le_rfl, le_rfl, le_rfl, le_rfl⟩ (.singleton _) }
  have hpid : ∀ r ∈ wholeCopies.records, r.record.pid = 7 := by
    intro r hr
    simp only [wholeCopies, stoppedCapture, threeCopies, List.mem_cons, List.not_mem_nil,
      or_false] at hr
    rcases hr with rfl | rfl | rfl <;> rfl
  exact ⟨hsplit, merge_accumulate_eq_merge_whole wholeCopies splitCopies "s" 7 hsplit hpid⟩

end Xprobe.Cli
