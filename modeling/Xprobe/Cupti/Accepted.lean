import Xprobe.Cupti.RoundTrip

/-!
# What an accepted capture holds

The converse of the round trip: whatever bytes `decode_capture` accepts, its result holds the
header's fields, its counters pass the checks, and there is one event for every record of the
payload.
-/

namespace Xprobe.Cupti

open Foundation Protocol

/-! ## The header -/

/-- What `decode_capture` has established about the bytes when it returns a capture. -/
structure DecodedFrom (bytes : List UInt8) (sessionId : String) (capture : CuptiCapture) :
    Prop where
  offset : capture.recordOffset = readU64 bytes 80
  capacity : capture.recordCapacity = readU64 bytes 40
  observed : capture.observedRecords = readU64 bytes 48
  agentDropped : capture.agentDroppedRecords = readU64 bytes 56
  cuptiDropped : capture.cuptiDroppedRecords = readU64 bytes 64
  unknown : capture.unknownRecords = readU64 bytes 72
  fits : (readU64 bytes 80).toNat + (readU64 bytes 32).toNat ≤ (readU64 bytes 40).toNat
  counted : (readU64 bytes 80).toNat + (readU64 bytes 32).toNat ≤ (readU64 bytes 48).toNat
  length : bytes.length = headerSize + (readU64 bytes 32).toNat * recordSize
  payload : decodePayload bytes (readU64 bytes 80) sessionId (readU32 bytes 20) =
    .ok (capture.events, capture.aggregateGroups)

variable {sessionId : String} {bytes : List UInt8} {capture : CuptiCapture} {flags : UInt32}

theorem decodedFrom_of_decodeCapture (h : decodeCapture bytes sessionId = .ok capture) :
    DecodedFrom bytes sessionId capture := by
  obtain ⟨state, reason, hchecked⟩ := headerChecked_of_decodeCapture h
  rw [hchecked.decodeCapture_eq] at h
  obtain ⟨payload, hpayload, h⟩ := of_bind h
  obtain ⟨_, -, h⟩ := of_bind h
  cases h
  have hcounters := hchecked.counters
  rw [UInt64.le_iff_toNat_le, UInt64.le_iff_toNat_le,
    toNat_of_checkedAdd hchecked.committed] at hcounters
  exact
    { offset := rfl
      capacity := rfl
      observed := rfl
      agentDropped := rfl
      cuptiDropped := rfl
      unknown := rfl
      fits := hcounters.1
      counted := hcounters.2
      length := hchecked.length
      payload := hpayload }

/-! ## The payload -/

variable {index : Nat}

/-- The records are decoded one by one. -/
theorem forall₂_of_decodeRecords {α : Type} {decode : List UInt8 → Nat → Except CuptiDecodeError α}
    {pieces : List (List UInt8)} {results : List α}
    (h : decodeRecords decode pieces index = .ok results) :
    List.Forall₂ (fun piece result => ∃ index, decode piece index = .ok result) pieces results := by
  induction pieces generalizing index results with
  | nil =>
    cases h
    exact .nil
  | cons piece rest ih =>
    rw [decodeRecords] at h
    obtain ⟨first, hfirst, h⟩ := of_bind h
    obtain ⟨others, hothers, h⟩ := of_bind h
    cases h
    exact .cons ⟨index, hfirst⟩ (ih hothers)

variable {events : List Event}

/-- Numbering changes nothing but the number of an event. -/
theorem forall₂_of_numberEvents {sequence : UInt64} {result : List Event}
    (h : numberEvents sequence events = .ok result) :
    List.Forall₂ (fun event event' => ∃ sequence, event' = numbered event sequence)
      events result := by
  induction events generalizing sequence result with
  | nil =>
    cases h
    exact .nil
  | cons event rest ih =>
    rw [numberEvents] at h
    obtain ⟨next, -, h⟩ := of_bind h
    obtain ⟨others, hothers, h⟩ := of_bind h
    cases h
    exact .cons ⟨sequence, rfl⟩ (ih hothers)

/-- In aggregate mode there are only groups. -/
theorem decodePayload_aggregate {offset : UInt64} {groups : List CuptiAggregateGroup}
    (hmode : hasFeature flags featureAggregateRecords = true)
    (h : decodePayload bytes offset sessionId flags = .ok (events, groups)) :
    events = [] ∧ decodeRecords decodeAggregateRecord
      (chunksExact recordSize (bytes.drop headerSize)) 0 = .ok groups := by
  rw [decodePayload, if_pos hmode] at h
  obtain ⟨groups', hgroups, h⟩ := of_bind h
  cases h
  exact ⟨rfl, hgroups⟩

/-- In exact mode there are only events, and they are the decoded records in order of time. -/
theorem decodePayload_exact {offset : UInt64} {groups : List CuptiAggregateGroup}
    (hmode : hasFeature flags featureAggregateRecords = false)
    (h : decodePayload bytes offset sessionId flags = .ok (events, groups)) :
    groups = [] ∧ ∃ decoded,
      decodeRecords (decodeRecord · · sessionId flags)
        (chunksExact recordSize (bytes.drop headerSize)) 0 = .ok decoded ∧
      numberEvents offset (sortByKey Event.timestampNs decoded) = .ok events := by
  rw [decodePayload, if_neg (by rw [hmode]; exact Bool.false_ne_true)] at h
  obtain ⟨decoded, hdecoded, h⟩ := of_bind h
  obtain ⟨events', hevents, h⟩ := of_bind h
  cases h
  exact ⟨rfl, decoded, hdecoded, hevents⟩

/-! ## Retained and observed records -/

theorem exists_left_of_forall₂ {α β : Type} {R : α → β → Prop} {l : List α} {l' : List β}
    (h : List.Forall₂ R l l') {b : β} (hb : b ∈ l') : ∃ a ∈ l, R a b := by
  induction h with
  | nil => cases hb
  | cons hab _ ih =>
    rcases List.mem_cons.mp hb with rfl | hrest
    · exact ⟨_, List.mem_cons_self, hab⟩
    · obtain ⟨a, ha, hR⟩ := ih hrest
      exact ⟨a, List.mem_cons_of_mem _ ha, hR⟩

theorem exists_right_of_forall₂ {α β : Type} {R : α → β → Prop} {l : List α} {l' : List β}
    (h : List.Forall₂ R l l') {a : α} (ha : a ∈ l) : ∃ b ∈ l', R a b :=
  exists_left_of_forall₂ h.flip ha

/-- Groups are always sent from the first one on. -/
theorem recordOffset_of_aggregate (h : decodeCapture bytes sessionId = .ok capture)
    (hmode : hasFeature (readU32 bytes 20) featureAggregateRecords = true) :
    readU64 bytes 80 = 0 := by
  obtain ⟨_, _, hchecked⟩ := headerChecked_of_decodeCapture h
  by_contra hne
  exact hchecked.mode ⟨hmode, hne⟩

/-- The kind of a decoded record. -/
theorem exists_kind_of_decodeRecordKind {kind : UInt32} {result : EventSource × EventType}
    (h : decodeRecordKind kind index flags = .ok result) :
    ∃ known : RecordKind, kind = known.code ∧ result = known.eventKind := by
  have hkind : ∀ (known : RecordKind), kind.toNat = known.code.toNat → kind = known.code :=
    fun known hnat => UInt32.toNat_inj.mp hnat
  simp only [decodeRecordKind] at h
  split at h
  case h_1 hnat => cases h; exact ⟨.cudaApiEntry, hkind _ hnat, rfl⟩
  case h_2 hnat => cases h; exact ⟨.cudaApiExit, hkind _ hnat, rfl⟩
  case h_3 hnat => cases h; exact ⟨.gpuKernelStart, hkind _ hnat, rfl⟩
  case h_4 hnat => cases h; exact ⟨.gpuKernelEnd, hkind _ hnat, rfl⟩
  case h_5 hnat => split_ifs at h; cases h; exact ⟨.gpuMemcpyStart, hkind _ hnat, rfl⟩
  case h_6 hnat => split_ifs at h; cases h; exact ⟨.gpuMemcpyEnd, hkind _ hnat, rfl⟩
  case h_7 hnat => split_ifs at h; cases h; exact ⟨.gpuMemsetStart, hkind _ hnat, rfl⟩
  case h_8 hnat => split_ifs at h; cases h; exact ⟨.gpuMemsetEnd, hkind _ hnat, rfl⟩
  case h_9 hnat => split_ifs at h; cases h; exact ⟨.nvtxRangeStart, hkind _ hnat, rfl⟩
  case h_10 hnat => split_ifs at h; cases h; exact ⟨.nvtxRangeEnd, hkind _ hnat, rfl⟩
  case h_11 => cases h

variable {event : Event}

/-- The event of a record has the source, the type and the clock of its kind. -/
theorem decodeRecord_eq_ok (h : decodeRecord bytes index sessionId flags = .ok event) :
    ∃ kind : RecordKind, readU32 bytes 8 = kind.code ∧
      (event.source, event.eventType) = kind.eventKind ∧
      event.clockDomain = decodeClockDomain kind.code flags ∧
      (fromUtf8 (cString (sliceAt bytes 72 nameLength))).isSome = true := by
  rw [decodeRecord] at h
  obtain ⟨result, hkind, h⟩ := of_bind h
  obtain ⟨_, -, h⟩ := of_bind h
  obtain ⟨name, hname, h⟩ := of_bind h
  obtain ⟨nvtx, -, h⟩ := of_bind h
  cases h
  obtain ⟨kind, hcode, rfl⟩ := exists_kind_of_decodeRecordKind hkind
  refine ⟨kind, hcode, rfl, congrArg (decodeClockDomain · flags) hcode, ?_⟩
  rw [okOr_eq_ok_iff.mp hname]
  rfl

section Accepted

variable (h : decodeCapture bytes sessionId = .ok capture)

include h

/-- Every event of a capture is a numbered event that a piece of the payload decodes to. -/
theorem exists_decodeRecord_of_mem (hevent : event ∈ capture.events) :
    ∃ piece index decoded sequence,
      decodeRecord piece index sessionId (readU32 bytes 20) = .ok decoded ∧
        event = numbered decoded sequence := by
  have hpayload := (decodedFrom_of_decodeCapture h).payload
  cases hmode : hasFeature (readU32 bytes 20) featureAggregateRecords with
  | true =>
    rw [(decodePayload_aggregate hmode hpayload).1] at hevent
    cases hevent
  | false =>
    obtain ⟨-, decoded, hrecords, hnumber⟩ := decodePayload_exact hmode hpayload
    obtain ⟨sorted, hsorted, sequence, heq⟩ :=
      exists_left_of_forall₂ (forall₂_of_numberEvents hnumber) hevent
    obtain ⟨piece, -, index, hdecode⟩ :=
      exists_left_of_forall₂ (forall₂_of_decodeRecords hrecords) (mem_sortByKey.mp hsorted)
    exact ⟨piece, index, sorted, sequence, hdecode, heq⟩

/-- There is an event for every announced record in exact mode and none in aggregate mode. -/
theorem length_events_of_decodeCapture : capture.events.length =
      if hasFeature (readU32 bytes 20) featureAggregateRecords = true then 0
      else (readU64 bytes 32).toNat := by
  have hdecoded := decodedFrom_of_decodeCapture h
  cases hmode : hasFeature (readU32 bytes 20) featureAggregateRecords with
  | true => rw [(decodePayload_aggregate hmode hdecoded.payload).1, if_pos rfl, List.length_nil]
  | false =>
    obtain ⟨-, decoded, hrecords, hnumber⟩ := decodePayload_exact hmode hdecoded.payload
    have hlength := (forall₂_of_decodeRecords hrecords).length_eq
    -- the payload is cut into as many pieces as the header announces
    rw [length_chunksExact, List.length_drop, hdecoded.length, Nat.add_sub_cancel_left,
      Nat.mul_div_cancel _ (by decide)] at hlength
    rw [← (forall₂_of_numberEvents hnumber).length_eq, length_sortByKey, ← hlength,
      if_neg Bool.false_ne_true]

/-- The retained events and those before the offset were all observed. -/
theorem recordOffset_add_length_le :
    capture.recordOffset.toNat + capture.events.length ≤ capture.observedRecords.toNat := by
  have hdecoded := decodedFrom_of_decodeCapture h
  have hcounted := hdecoded.counted
  rw [hdecoded.offset, hdecoded.observed, length_events_of_decodeCapture h]
  split_ifs <;> omega

/-- The header says that what was observed was sent: `observed_records` is `record_count`, and a
    capture in aggregate mode, which has no events, observed nothing. -/
def SentWhole (bytes : List UInt8) : Prop :=
  readU64 bytes 48 = readU64 bytes 32 ∧
    (hasFeature (readU32 bytes 20) featureAggregateRecords = true → readU64 bytes 32 = 0)

/-- A decoded capture starts at its first record and retains all it observed exactly when its
    header says so. The offset needs no condition of its own: the decoder checks that offset and
    count stay within what was observed. -/
theorem sentWhole_iff :
    (capture.recordOffset = 0 ∧ capture.observedRecords.toNat = capture.events.length) ↔
      SentWhole bytes := by
  have hdecoded := decodedFrom_of_decodeCapture h
  have hcounted := hdecoded.counted
  rw [length_events_of_decodeCapture h, hdecoded.offset, hdecoded.observed, SentWhole]
  simp only [← UInt64.toNat_inj, UInt64.toNat_zero]
  split_ifs with hmode
  · have hoffset := congrArg UInt64.toNat (recordOffset_of_aggregate h hmode)
    rw [UInt64.toNat_zero] at hoffset
    simp only [hmode, true_implies]
    omega
  · simp only [hmode, Bool.false_eq_true, false_implies, and_true]
    omega

end Accepted

/-! ## Captures that were encoded -/

/-- The pieces of the payload of an encoded capture are its encoded records. -/
theorem chunksExact_encodeCapture (header : OutputHeader) (records : List Record) :
    chunksExact recordSize ((encodeCapture header records).drop headerSize) =
      records.map Record.encode := by
  rw [encodeCapture, ← header.length_encode, List.drop_left]
  refine chunksExact_flatten (by decide) ?_
  intro piece hpiece
  obtain ⟨record, -, rfl⟩ := List.mem_map.mp hpiece
  exact record.length_encode

/-- A capture in exact mode that is accepted has one event for every record. -/
theorem length_events_of_decode_encodeCapture {header : OutputHeader} {records : List Record}
    (hmode : hasFeature header.featureFlags featureAggregateRecords = false)
    (h : decodeCapture (encodeCapture header records) sessionId = .ok capture) :
    capture.events.length = records.length := by
  have hdecoded := decodedFrom_of_decodeCapture h
  have hflags : readU32 (encodeCapture header records) 20 = header.featureFlags :=
    (header.layout_encode _).featureFlags
  have hpayload := hdecoded.payload
  rw [hflags] at hpayload
  obtain ⟨-, decoded, hrecords, hnumber⟩ := decodePayload_exact hmode hpayload
  have hlength := (forall₂_of_decodeRecords hrecords).length_eq
  rw [chunksExact_encodeCapture, List.length_map] at hlength
  rw [← (forall₂_of_numberEvents hnumber).length_eq, length_sortByKey, hlength]

/-! ## Activities -/

def isActivityEvent (event : Event) : Bool :=
  match event.eventType with
  | .gpuKernelStart | .gpuKernelEnd | .gpuMemcpyStart | .gpuMemcpyEnd | .gpuMemsetStart
  | .gpuMemsetEnd => true
  | _ => false

def isActivityKind (kind : UInt32) : Bool :=
  RecordKind.gpuKernelStart.code ≤ kind && kind ≤ RecordKind.gpuMemsetEnd.code

def captureClock (flags : UInt32) : ClockDomain :=
  if hasFeature flags featureHostMonotonicTimestamps then .cuptiNormalizedToHostMonotonic
  else .cupti

/-- The events of activities are those of activity records, and their clock is the one that the
    flags of the capture announce. -/
theorem clock_of_decodeRecord (h : decodeRecord bytes index sessionId flags = .ok event) :
    isActivityEvent event = isActivityKind (readU32 bytes 8) ∧
      (isActivityEvent event = true → event.clockDomain = captureClock flags) := by
  obtain ⟨kind, hcode, hkind, hclock, -⟩ := decodeRecord_eq_ok h
  rw [hclock, hcode, isActivityEvent, (Prod.mk.inj hkind).2]
  cases kind <;> first
    | exact ⟨rfl, fun hfalse => absurd hfalse Bool.false_ne_true⟩
    | exact ⟨rfl, fun _ => rfl⟩

/-- The event is the one that the record decodes to, apart from its number. -/
def Shows (sessionId : String) (flags : UInt32) (record : Record) (event : Event) : Prop :=
  ∃ index decoded sequence, decodeRecord record.encode index sessionId flags = .ok decoded ∧
    event = numbered decoded sequence

theorem Shows.activity {record : Record} (h : Shows sessionId flags record event) :
    isActivityEvent event = isActivityKind record.kind ∧
      (isActivityEvent event = true → event.clockDomain = captureClock flags) := by
  obtain ⟨index, decoded, sequence, hdecoded, rfl⟩ := h
  have hclock := clock_of_decodeRecord hdecoded
  rw [record.layout_encode.kind] at hclock
  exact hclock

section ExactCapture

variable {header : OutputHeader} {records : List Record}
  (hmode : hasFeature header.featureFlags featureAggregateRecords = false)
  (h : decodeCapture (encodeCapture header records) sessionId = .ok capture)
include hmode h

/-- The events of an accepted capture in exact mode show its records, in the order of the times. -/
theorem shows_of_decode_encodeCapture : ∃ order, order.Perm records ∧
      List.Forall₂ (Shows sessionId header.featureFlags) order capture.events := by
  have hflags : readU32 (encodeCapture header records) 20 = header.featureFlags :=
    (header.layout_encode _).featureFlags
  have hpayload := (decodedFrom_of_decodeCapture h).payload
  rw [hflags] at hpayload
  obtain ⟨-, decoded, hrecords, hnumber⟩ := decodePayload_exact hmode hpayload
  rw [chunksExact_encodeCapture] at hrecords
  have hpieces := List.forall₂_map_left_iff.mp (forall₂_of_decodeRecords hrecords)
  -- the decoder sorts the events by time; the records are put in the same order
  obtain ⟨order, hsorted, hperm⟩ :=
    List.perm_comp_forall₂ (sortByKey_perm Event.timestampNs decoded) hpieces.flip
  refine ⟨order, hperm, ?_⟩
  have hnumbered := forall₂_of_numberEvents hnumber
  generalize sortByKey Event.timestampNs decoded = sorted at hsorted hnumbered
  generalize capture.events = events at hnumbered
  clear hperm
  induction hsorted generalizing events with
  | nil =>
    cases hnumbered
    exact .nil
  | cons hdecoded _ ih =>
    cases hnumbered with
    | cons hnumber hrest =>
      obtain ⟨index, hdecoded⟩ := hdecoded
      obtain ⟨sequence, rfl⟩ := hnumber
      exact .cons ⟨index, _, sequence, hdecoded, rfl⟩ (ih _ hrest)

/-- What an accepted capture in exact mode says about the activities among its records. -/
theorem activities_of_decode_encodeCapture :
    ((∃ event ∈ capture.events, isActivityEvent event = true) ↔
        ∃ record ∈ records, isActivityKind record.kind = true) ∧
      ∀ event ∈ capture.events, isActivityEvent event = true →
        event.clockDomain = captureClock header.featureFlags := by
  obtain ⟨order, hperm, hshows⟩ := shows_of_decode_encodeCapture hmode h
  refine ⟨⟨?_, ?_⟩, ?_⟩
  · rintro ⟨event, hevent, hactivity⟩
    obtain ⟨record, hrecord, hshown⟩ := exists_left_of_forall₂ hshows hevent
    exact ⟨record, hperm.mem_iff.mp hrecord, hshown.activity.1 ▸ hactivity⟩
  · rintro ⟨record, hrecord, hactivity⟩
    obtain ⟨event, hevent, hshown⟩ := exists_right_of_forall₂ hshows (hperm.mem_iff.mpr hrecord)
    exact ⟨event, hevent, hshown.activity.1 ▸ hactivity⟩
  · intro event hevent
    obtain ⟨record, -, hshown⟩ := exists_left_of_forall₂ hshows hevent
    exact hshown.activity.2

end ExactCapture

end Xprobe.Cupti
