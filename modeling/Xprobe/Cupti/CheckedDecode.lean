import Xprobe.Foundation.CheckedBytes
import Xprobe.Cupti.Accepted

/-!
# Decoding any bytes

`decode_capture` once more, now with every way in which it could panic: a field outside the bytes, a
slice out of range, a division by zero, a counter that overflows. The functions follow the source
statement for statement. Each agrees with its total counterpart on the bytes it is given, so
decoding never panics, whatever the bytes are; what an accepted capture holds then follows from its
checks.
-/

namespace Xprobe.Cupti

open Foundation Protocol

/-! ## The decoder with its panics -/

/-- `decode_dim`. -/
def decodeDimChecked (record : List UInt8) (offset : Nat) : Option (Option Dim3) := do
  let x ← readU32At record offset
  let yOffset ← addU64 offset 4
  let y ← readU32At record yOffset
  let zOffset ← addU64 offset 8
  let z ← readU32At record zOffset
  return optionalDim x y z

/-- `read_split_u64`. -/
def readSplitU64Checked (record : List UInt8) (offset : Nat) : Option UInt64 := do
  let low ← readU32At record offset
  let highOffset ← addU64 offset 4
  let high ← readU32At record highOffset
  return joinHalves low high

/-- The bytes of the name field before its first NUL. -/
def nameBytesChecked (record : List UInt8) : Option (List UInt8) := do
  let nameBytes ← sliceRange record 72 200
  sliceRange nameBytes 0 (nulPosition nameBytes)

/-- `decode_nvtx_event`. -/
def decodeNvtxEventChecked (record : List UInt8) (index : Nat) (isNvtx : Bool) (name : String) :
    Panicking CuptiDecodeError (Option NvtxEvent) :=
  let invalid (message : String) : CuptiDecodeError := .invalidNvtxRecord index message
  if !isNvtx then returned (.ok none)
  else do
    let rangeKindRaw ← readU32At record 52
    let rangeKind ← okOr (decodeRangeKind rangeKindRaw)
      (invalid "range kind is neither thread nor process")
    let rangeId ← readSplitU64Checked record 44
    ensure (rangeId ≠ 0) (invalid "range ID is zero")
    let startTid ← readU32At record 56
    ensure (startTid ≠ 0) (invalid "start thread ID is zero")
    let nameComplete ← readU32At record 60
    ensure (nameComplete ≤ 1) (invalid "name completeness flag is not boolean")
    return some { name, nameComplete := nameComplete != 0, rangeKind, rangeId, startTid }

def decodeAttributesChecked (record : List UInt8) (kind : UInt32) (name : String) :
    Option (BTreeMap String Value) :=
  if kind = 1 ∨ kind = 2 then do
    let domain ← readU32At record 36
    return (BTreeMap.empty.insert "cuda_api_name" (.string name)).insert "cuda_api_domain"
      (.string (apiDomainName domain))
  else if kind = 7 ∨ kind = 8 then do
    let value ← readU32At record 56
    return BTreeMap.empty.insert "memset_value" (.number value.toNat)
  else some .empty

def decodeCudaEventChecked (record : List UInt8) (kind : UInt32) (timestampNs : UInt64)
    (name : String) : Option CudaEvent := do
  let isKernel := kind = 3 ∨ kind = 4
  let deviceId ← readU32At record 20
  let contextId ← readU32At record 24
  let streamId ← readU32At record 28
  let correlationId ← readU32At record 32
  let runtimeCorrelationId ← readU32At record 68
  let callbackDomain ← readU32At record 36
  let callbackId ← readU32At record 40
  let grid ← thenRead isKernel (decodeDimChecked record 44)
  let block ← thenRead isKernel (decodeDimChecked record 56)
  let bytes ← thenRead (kind = 5 ∨ kind = 6 ∨ kind = 7 ∨ kind = 8) (readSplitU64Checked record 44)
  let memcpyKind ← thenRead (kind = 5 ∨ kind = 6) (readU32At record 52)
  return {
    deviceId := optionalUnknown deviceId
    contextId := optionalUnknown contextId
    streamId := (optionalUnknown streamId).map UInt32.toUInt64
    correlationId := optionalNonzero correlationId
    runtimeCorrelationId := optionalNonzero runtimeCorrelationId
    callbackDomain := optionalNonzero callbackDomain
    callbackId := optionalNonzero callbackId
    kernelName := if isKernel then some name else none
    kernelNameMangled := none
    startNs := if kind = 3 ∨ kind = 5 ∨ kind = 7 then some timestampNs else none
    endNs := if kind = 4 ∨ kind = 6 ∨ kind = 8 then some timestampNs else none
    grid := grid.join
    block := block.join
    bytes
    memcpyKind := memcpyKind.map decodeMemcpyKind }

/-- `decode_record`. -/
def decodeRecordChecked (record : List UInt8) (index : Nat) (sessionId : String) (flags : UInt32) :
    Panicking CuptiDecodeError Event := do
  let kind ← readU32At record 8
  let (source, eventType) ← decodeRecordKind kind index flags
  let timestampRaw ← readU64At record 0
  ensure (timestampRaw ≠ 0) (CuptiDecodeError.invalidTimestamp index kind)
  let nameBytes ← nameBytesChecked record
  let name ← okOr (fromUtf8 nameBytes) (CuptiDecodeError.invalidName index)
  let isNvtx := kind == 9 || kind == 10
  let attributes ← decodeAttributesChecked record kind name
  let nvtx ← decodeNvtxEventChecked record index isNvtx name
  let pid ← readU32At record 12
  let tid ← readU32At record 16
  let cuda ← thenRead (isNvtx = false) (decodeCudaEventChecked record kind timestampRaw name)
  return {
    schemaVersion := .current
    sessionId
    eventId := ""
    sequence := 0
    source
    eventType
    pid
    tid
    cpu := none
    timestampRaw
    timestampNs := timestampRaw
    clockDomain := decodeClockDomain kind flags
    timestampErrorNs := none
    processStartTime := none
    host := none
    cuda
    nvtx
    attributes }

/-- `decode_aggregate_record`. -/
def decodeAggregateRecordChecked (record : List UInt8) (index : Nat) :
    Panicking CuptiDecodeError CuptiAggregateGroup := do
  let invalid (message : String) : CuptiDecodeError := .invalidAggregateRecord index message
  let count ← readU64At record 0
  let totalDurationNs ← readU64At record 8
  let minDurationNs ← readU64At record 16
  let maxDurationNs ← readU64At record 24
  ensure (count ≠ 0) (invalid "count is zero")
  let mean ← divU64 totalDurationNs count
  ensure (minDurationNs ≤ maxDurationNs ∧ minDurationNs ≤ mean ∧ mean ≤ maxDurationNs)
    (invalid "duration counters are inconsistent")
  let kind ← readU32At record 40
  let (activity, hasName, hasBytes) ← okOr (aggregateActivity kind)
    (invalid "activity kind is unsupported")
  let nameBytes ← nameBytesChecked record
  let name ← okOr (fromUtf8 nameBytes) (CuptiDecodeError.invalidName index)
  ensure (¬(hasName = true ∧ name = "")) (invalid "kernel name is empty")
  let memcpyKind ← thenRead (activity = .memcpy) (readU32At record 48)
  let terminated ← addU64 nameBytes.length 1
  let deviceId ← readU32At record 44
  let totalBytes ← thenRead (hasBytes = true) (readU64At record 32)
  return {
    activity
    name := if hasName then some name else none
    nameComplete := if hasName then some (decide (terminated < nameLength)) else none
    deviceId := optionalUnknown deviceId
    memcpyKind := memcpyKind.map decodeSemanticMemcpyKind
    count
    totalDurationNs
    minDurationNs
    maxDurationNs
    totalBytes }

/-- Decode consecutive records. The counter of `enumerate` is one of the things that could
    overflow. -/
def decodeRecordsChecked {α : Type} (decode : List UInt8 → Nat → Panicking CuptiDecodeError α) :
    List (List UInt8) → Nat → Panicking CuptiDecodeError (List α)
  | [], _ => returned (.ok [])
  | record :: rest, index => do
    let next ← addU64 index 1
    let first ← decode record index
    let others ← decodeRecordsChecked decode rest next
    return first :: others

/-- `decode_payload`. -/
def decodePayloadChecked (bytes : List UInt8) (recordOffset : UInt64) (sessionId : String)
    (flags : UInt32) : Panicking CuptiDecodeError (List Event × List CuptiAggregateGroup) := do
  let payload ← sliceFrom bytes headerSize
  let chunks := chunksExact recordSize payload
  if hasFeature flags featureAggregateRecords then
    let groups ← decodeRecordsChecked decodeAggregateRecordChecked chunks 0
    return ([], groups)
  else
    let events ← decodeRecordsChecked (decodeRecordChecked · · sessionId flags) chunks 0
    let events ← numberEvents recordOffset (sortByKey Event.timestampNs events)
    return (events, [])

/-- `decode_capture`. -/
def decodeCaptureChecked (bytes : List UInt8) (sessionId : String) :
    Panicking CuptiDecodeError CuptiCapture := do
  ensure (headerSize ≤ bytes.length) (CuptiDecodeError.headerTooShort bytes.length)
  let magic ← sliceRange bytes 0 8
  ensure (magic = outputMagic) CuptiDecodeError.invalidMagic
  let version ← readU32At bytes 8
  ensure (version = abiVersion) (CuptiDecodeError.unsupportedAbi version)
  let actualHeaderSize ← readU32At bytes 12
  ensure (actualHeaderSize = UInt32.ofNat headerSize)
    (CuptiDecodeError.invalidHeaderSize version actualHeaderSize (UInt32.ofNat headerSize))
  let actualRecordSize ← readU32At bytes 16
  ensure (actualRecordSize = UInt32.ofNat recordSize)
    (CuptiDecodeError.invalidRecordSize actualRecordSize)
  let flags ← readU32At bytes 20
  let unsupported := flags &&& ~~~supportedFeatures
  ensure (unsupported = 0) (CuptiDecodeError.unsupportedFeatureFlags unsupported)
  let rawState ← readU32At bytes 24
  let state ← decodeCaptureState rawState
  let rawStopReason ← readU32At bytes 28
  let stopReason ← decodeStopReason rawStopReason
  let recordCount ← readU64At bytes 32
  let recordCapacity ← readU64At bytes 40
  let observedRecords ← readU64At bytes 48
  let recordOffset ← readU64At bytes 80
  let invalidCounters : CuptiDecodeError :=
    .invalidCounters recordOffset recordCount recordCapacity observedRecords
  let committedRecords ← okOr (checkedAdd recordOffset recordCount) CuptiDecodeError.counterOverflow
  ensure (committedRecords ≤ recordCapacity ∧ committedRecords ≤ observedRecords) invalidCounters
  let payloadSize := recordCount.toNat * recordSize
  ensure (payloadSize ≤ usizeMax) CuptiDecodeError.captureLengthOverflow
  let expectedSize := headerSize + payloadSize
  ensure (expectedSize ≤ usizeMax) CuptiDecodeError.captureLengthOverflow
  ensure (bytes.length = expectedSize)
    (CuptiDecodeError.invalidCaptureLength expectedSize bytes.length)
  let aggregate := hasFeature flags featureAggregateRecords
  ensure (¬(aggregate = true ∧ recordOffset ≠ 0)) invalidCounters
  let (events, aggregateGroups) ← decodePayloadChecked bytes recordOffset sessionId flags
  let agentDroppedRecords ← readU64At bytes 56
  let cuptiDroppedRecords ← readU64At bytes 64
  let droppedRecords ← okOr (checkedAdd agentDroppedRecords cuptiDroppedRecords)
    CuptiDecodeError.counterOverflow
  let unknownRecords ← readU64At bytes 72
  return {
    nvtxCallbacksActive := hasFeature flags featureNvtxRecords
    recordOffset
    state
    stopReason
    recordCapacity
    observedRecords
    agentDroppedRecords
    cuptiDroppedRecords
    droppedRecords
    unknownRecords
    events
    aggregateGroups }

/-! ## No panic in a record -/

private theorem join_ite_some {α : Type} {p : Prop} [Decidable p] (x : Option α) :
    (if p then some x else none).join = if p then x else none := by
  split_ifs <;> rfl

private theorem map_ite_some {α β : Type} {p : Prop} [Decidable p] (f : α → β) (x : α) :
    (if p then some x else none).map f = if p then some (f x) else none := by
  split_ifs <;> rfl

section Record

variable {record : List UInt8}

theorem decodeDimChecked_eq {offset : Nat} (hfits : offset + 12 < 2 ^ 64)
    (h : offset + 12 ≤ record.length) :
    decodeDimChecked record offset = some (decodeDim record offset) := by
  simp (disch := omega) only [decodeDimChecked, readU32At_of_le, addU64_of_lt,
    some_bind]
  rfl

theorem readSplitU64Checked_eq {offset : Nat} (hfits : offset + 8 < 2 ^ 64)
    (h : offset + 8 ≤ record.length) :
    readSplitU64Checked record offset = some (readSplitU64 record offset) := by
  simp (disch := omega) only [readSplitU64Checked, readU32At_of_le, addU64_of_lt,
    some_bind]
  rfl

variable (hrecord : record.length = recordSize)
include hrecord

theorem nameBytesChecked_eq :
    nameBytesChecked record = some (cString (sliceAt record 72 nameLength)) := by
  have hfield : sliceRange record 72 200 = some (sliceAt record 72 nameLength) :=
    sliceRange_of_le (by decide) (le_of_eq hrecord.symm)
  rw [nameBytesChecked, hfield, some_bind,
    sliceRange_of_le (Nat.zero_le _) (nulPosition_le _), Nat.sub_zero, sliceAt, List.drop_zero,
    take_nulPosition]

theorem decodeNvtxEventChecked_eq (index : Nat) (isNvtx : Bool) (name : String) :
    decodeNvtxEventChecked record index isNvtx name =
      returned (decodeNvtxEvent record index isNvtx name) := by
  have hlength : record.length = 200 := hrecord
  unfold decodeNvtxEventChecked decodeNvtxEvent
  cases isNvtx with
  | false => rfl
  | true =>
    simp (disch := omega) only [Bool.not_true, Bool.false_eq_true, ite_false, readU32At_of_le,
      readSplitU64Checked_eq, liftM_some, liftM_except, returned_ok_bind, pure_eq_returned]
    refine returned_bind fun rangeKind _ => ?_
    refine returned_bind fun _ _ => ?_
    refine returned_bind fun _ _ => ?_
    refine returned_bind fun _ _ => rfl

theorem decodeAttributesChecked_eq (kind : UInt32) (name : String) :
    decodeAttributesChecked record kind name = some (decodeAttributes record kind name) := by
  have hlength : record.length = 200 := hrecord
  simp (disch := omega) only [decodeAttributesChecked, decodeAttributes, readU32At_of_le]
  split_ifs <;> rfl

theorem decodeCudaEventChecked_eq (kind : UInt32) (timestampNs : UInt64) (name : String) :
    decodeCudaEventChecked record kind timestampNs name =
      some (decodeCudaEvent record kind timestampNs name) := by
  have hlength : record.length = 200 := hrecord
  simp (disch := omega) only [decodeCudaEventChecked, decodeCudaEvent, readU32At_of_le,
    decodeDimChecked_eq, readSplitU64Checked_eq, thenRead_some, some_bind, join_ite_some, map_ite_some]
  rfl

theorem decodeRecordChecked_eq (index : Nat) (sessionId : String) (flags : UInt32) :
    decodeRecordChecked record index sessionId flags =
      returned (decodeRecord record index sessionId flags) := by
  have hlength : record.length = 200 := hrecord
  unfold decodeRecordChecked decodeRecord decodeName
  simp (disch := omega) only [readU32At_of_le, readU64At_of_le, nameBytesChecked_eq hrecord,
    decodeNvtxEventChecked_eq hrecord, decodeAttributesChecked_eq hrecord,
    decodeCudaEventChecked_eq hrecord, thenRead_some, liftM_some, liftM_except, returned_ok_bind,
    pure_eq_returned]
  refine returned_bind fun kind _ => ?_
  refine returned_bind fun _ _ => ?_
  refine returned_bind fun name _ => ?_
  refine returned_bind fun nvtx _ => ?_
  -- the source asks for a record that is not an NVTX one, the total reading for one that is
  cases readU32 record 8 == 9 || readU32 record 8 == 10 <;> rfl

theorem decodeAggregateRecordChecked_eq (index : Nat) : decodeAggregateRecordChecked record index =
      returned (decodeAggregateRecord record index) := by
  have hlength : record.length = 200 := hrecord
  have hname : (cString (sliceAt record 72 nameLength)).length ≤ nameLength := by
    rw [length_cString]
    refine (nulPosition_le _).trans (le_of_eq (length_sliceAt ?_))
    exact le_of_eq hrecord.symm
  have hterminated : (cString (sliceAt record 72 nameLength)).length + 1 < 2 ^ 64 :=
    lt_of_le_of_lt (Nat.succ_le_succ hname) (by decide)
  unfold decodeAggregateRecordChecked decodeAggregateRecord
  simp (disch := omega) only [readU32At_of_le, readU64At_of_le, nameBytesChecked_eq hrecord,
    addU64_of_lt hterminated, thenRead_some, liftM_some, liftM_except, returned_ok_bind,
    pure_eq_returned]
  refine returned_bind fun _ hcount => ?_
  -- the count has been checked, so the division is defined
  rw [divU64_of_ne (ensure_eq_ok_iff.mp hcount), liftM_some, returned_ok_bind]
  refine returned_bind fun _ _ => ?_
  refine returned_bind fun kind _ => ?_
  refine returned_bind fun name _ => ?_
  refine returned_bind fun _ _ => ?_
  simp only [map_ite_some]
  rfl

end Record

/-! ## No panic in a capture -/

/-- The loop over the records, whose counter stays below their number. -/
theorem decodeRecordsChecked_eq {α : Type}
    {decodeChecked : List UInt8 → Nat → Panicking CuptiDecodeError α}
    {decode : List UInt8 → Nat → Except CuptiDecodeError α} {pieces : List (List UInt8)}
    (h : ∀ piece ∈ pieces, ∀ index, decodeChecked piece index = returned (decode piece index))
    (index : Nat) (hfits : index + pieces.length < 2 ^ 64) :
    decodeRecordsChecked decodeChecked pieces index =
      returned (decodeRecords decode pieces index) := by
  induction pieces generalizing index with
  | nil => rfl
  | cons piece rest ih =>
    rw [List.length_cons] at hfits
    have hrest := ih (fun p hp => h p (List.mem_cons_of_mem _ hp)) (index + 1) (by omega)
    rw [decodeRecordsChecked, decodeRecords, addU64_of_lt (by omega), liftM_some,
      returned_ok_bind, h piece List.mem_cons_self, hrest]
    refine returned_bind fun first _ => ?_
    refine returned_bind fun others _ => rfl

variable {bytes : List UInt8} {sessionId : String} {capture : CuptiCapture}

theorem decodePayloadChecked_eq (hheader : headerSize ≤ bytes.length)
    (hfits : bytes.length ≤ usizeMax) (recordOffset : UInt64) (sessionId : String) (flags : UInt32) :
    decodePayloadChecked bytes recordOffset sessionId flags =
      returned (decodePayload bytes recordOffset sessionId flags) := by
  have hcount : 0 + (chunksExact recordSize (bytes.drop headerSize)).length < 2 ^ 64 := by
    have hle : (bytes.length - headerSize) / recordSize ≤ usizeMax :=
      (Nat.div_le_self _ _).trans ((Nat.sub_le _ _).trans hfits)
    rw [Nat.zero_add, length_chunksExact, List.length_drop]
    exact lt_of_le_of_lt hle (by decide)
  rw [decodePayloadChecked, decodePayload, sliceFrom_of_le hheader, liftM_some, returned_ok_bind]
  dsimp only
  split_ifs with hmode
  · rw [decodeRecordsChecked_eq (fun _ hpiece index =>
      decodeAggregateRecordChecked_eq (length_of_mem_chunksExact hpiece) index) 0 hcount]
    exact returned_bind fun groups _ => rfl
  · rw [decodeRecordsChecked_eq (fun _ hpiece index =>
      decodeRecordChecked_eq (length_of_mem_chunksExact hpiece) index sessionId flags) 0 hcount]
    refine returned_bind fun events _ => ?_
    exact returned_bind fun numberedEvents _ => rfl

/-- Decoding runs to a result or an error on any bytes. -/
theorem decodeCaptureChecked_eq (bytes : List UInt8) (sessionId : String) :
    decodeCaptureChecked bytes sessionId = returned (decodeCapture bytes sessionId) := by
  rw [decodeCaptureChecked, decodeCapture, decodeHeader, liftM_except]
  simp only [bind_assoc, pure_bind]
  refine returned_bind fun _ hensure => ?_
  -- from here on the header is there, so every field of it can be read
  have hheader : headerSize ≤ bytes.length := ensure_eq_ok_iff.mp hensure
  have hlength : 88 ≤ bytes.length := hheader
  have hmagic : sliceRange bytes 0 8 = some (sliceAt bytes 0 8) :=
    sliceRange_of_le (by decide) (by omega)
  simp (disch := omega) only [hmagic, readU32At_of_le, readU64At_of_le, liftM_some, liftM_except,
    returned_ok_bind, pure_eq_returned]
  refine returned_bind fun _ _ => ?_
  refine returned_bind fun _ _ => ?_
  refine returned_bind fun _ _ => ?_
  refine returned_bind fun _ _ => ?_
  refine returned_bind fun _ _ => ?_
  refine returned_bind fun state _ => ?_
  refine returned_bind fun stopReason _ => ?_
  refine returned_bind fun committedRecords _ => ?_
  refine returned_bind fun _ _ => ?_
  refine returned_bind fun _ _ => ?_
  refine returned_bind fun _ hsize => ?_
  refine returned_bind fun _ hexpected => ?_
  refine returned_bind fun _ _ => ?_
  have hfits : bytes.length ≤ usizeMax :=
    (ensure_eq_ok_iff.mp hexpected).le.trans (ensure_eq_ok_iff.mp hsize)
  rw [decodePayloadChecked_eq hheader hfits]
  refine returned_bind fun payload _ => ?_
  exact returned_bind fun dropped _ => rfl

/-! ## Accepted captures are consistent -/

/-- The capture agrees with the bytes it was decoded from and with itself. -/
structure CuptiCapture.Consistent (bytes : List UInt8) (capture : CuptiCapture) : Prop where
  length : bytes.length = 88 + 200 * (capture.events.length + capture.aggregateGroups.length)
  capacity : capture.recordOffset.toNat + (capture.events.length + capture.aggregateGroups.length) ≤
    capture.recordCapacity.toNat
  observed : capture.recordOffset.toNat + (capture.events.length + capture.aggregateGroups.length) ≤
    capture.observedRecords.toNat
  aggregate : hasFeature (readU32 bytes 20) featureAggregateRecords = true →
    capture.recordOffset = 0 ∧ capture.events = []
  exact : hasFeature (readU32 bytes 20) featureAggregateRecords = false →
    capture.aggregateGroups = []
  sorted : SortedBy Event.timestampNs capture.events
  sequences : capture.events.map (fun event => event.sequence.toNat) =
    List.range' capture.recordOffset.toNat capture.events.length
  groups : ∀ group ∈ capture.aggregateGroups, 1 ≤ group.count.toNat ∧
    group.minDurationNs.toNat ≤ group.totalDurationNs.toNat / group.count.toNat ∧
    group.totalDurationNs.toNat / group.count.toNat ≤ group.maxDurationNs.toNat

/-- The numbers are consecutive, and the last one has a successor. -/
theorem sequences_of_numberEvents {sequence : UInt64} {events result : List Event}
    (h : numberEvents sequence events = .ok result) :
    result.map (·.sequence.toNat) =
      List.range' sequence.toNat result.length := by
  induction events generalizing sequence result with
  | nil =>
    cases h
    rfl
  | cons event rest ih =>
    rw [numberEvents] at h
    obtain ⟨next, hnext, h⟩ := of_bind h
    obtain ⟨others, hothers, h⟩ := of_bind h
    cases h
    have hsucc : next.toNat = sequence.toNat + 1 := toNat_of_checkedAdd (okOr_eq_ok_iff.mp hnext)
    rw [List.map_cons, List.length_cons, List.range'_succ, ih hothers, hsucc]
    rfl

/-- Numbering leaves the events in order of time. -/
theorem sorted_of_numberEvents {sequence : UInt64} {events result : List Event}
    (h : numberEvents sequence events = .ok result) (hsorted : SortedBy Event.timestampNs events) :
    SortedBy Event.timestampNs result := by
  have htimes : events.map Event.timestampNs = result.map Event.timestampNs := by
    have hall := forall₂_of_numberEvents h
    clear h hsorted
    induction hall with
    | nil => rfl
    | cons hhead _ ih =>
      obtain ⟨number, rfl⟩ := hhead
      rw [List.map_cons, List.map_cons, ih]
      rfl
  have hpairwise : (result.map Event.timestampNs).Pairwise (· ≤ ·) := by
    rw [← htimes]
    exact List.pairwise_map.mpr hsorted
  exact List.pairwise_map.mp hpairwise

/-- The counters of an accepted group are those of at least one duration. -/
theorem counters_of_decodeAggregateRecord {record : List UInt8} {index : Nat}
    {group : CuptiAggregateGroup} (h : decodeAggregateRecord record index = .ok group) :
    1 ≤ group.count.toNat ∧
      group.minDurationNs.toNat ≤ group.totalDurationNs.toNat / group.count.toNat ∧
      group.totalDurationNs.toNat / group.count.toNat ≤ group.maxDurationNs.toNat := by
  rw [decodeAggregateRecord] at h
  obtain ⟨_, hcount, h⟩ := of_bind h
  obtain ⟨_, hdurations, h⟩ := of_bind h
  obtain ⟨activity, -, h⟩ := of_bind h
  obtain ⟨name, -, h⟩ := of_bind h
  obtain ⟨_, -, h⟩ := of_bind h
  cases h
  obtain ⟨-, hmin, hmax⟩ := ensure_eq_ok_iff.mp hdurations
  have hpositive : (readU64 record 0).toNat ≠ 0 := by
    intro hzero
    exact ensure_eq_ok_iff.mp hcount (UInt64.toNat_inj.mp hzero)
  refine ⟨Nat.one_le_iff_ne_zero.mpr hpositive, ?_, ?_⟩
  · rw [← UInt64.toNat_div]
    exact UInt64.le_iff_toNat_le.mp hmin
  · rw [← UInt64.toNat_div]
    exact UInt64.le_iff_toNat_le.mp hmax

/-- The payload of an accepted capture has as many pieces as its header announces. -/
theorem length_chunksExact_payload (h : DecodedFrom bytes sessionId capture) :
    (chunksExact recordSize (bytes.drop headerSize)).length = (readU64 bytes 32).toNat := by
  rw [length_chunksExact, List.length_drop, h.length, Nat.add_sub_cancel_left,
    Nat.mul_div_cancel _ (by decide)]

/-- The number of records of an accepted capture, counted in its result. -/
private theorem sizes_of_count (h : DecodedFrom bytes sessionId capture) {count : Nat}
    (hcount : count = (readU64 bytes 32).toNat) :
    bytes.length = 88 + 200 * count ∧
      capture.recordOffset.toNat + count ≤ capture.recordCapacity.toNat ∧
      capture.recordOffset.toNat + count ≤ capture.observedRecords.toNat := by
  rw [hcount, h.offset, h.capacity, h.observed]
  refine ⟨?_, h.fits, h.counted⟩
  rw [h.length, Nat.mul_comm]
  rfl

variable (h : decodeCapture bytes sessionId = .ok capture)

include h

theorem consistent_of_aggregate
    (hmode : hasFeature (readU32 bytes 20) featureAggregateRecords = true) :
    capture.Consistent bytes := by
  have hdecoded := decodedFrom_of_decodeCapture h
  obtain ⟨hevents, hgroups⟩ := decodePayload_aggregate hmode hdecoded.payload
  have hpieces := forall₂_of_decodeRecords hgroups
  have hcount : capture.events.length + capture.aggregateGroups.length =
      (readU64 bytes 32).toNat := by
    rw [hevents, List.length_nil, Nat.zero_add, ← hpieces.length_eq,
      length_chunksExact_payload hdecoded]
  obtain ⟨hlength, hcapacity, hobserved⟩ := sizes_of_count hdecoded hcount
  have hoffset : capture.recordOffset = 0 :=
    hdecoded.offset.trans (recordOffset_of_aggregate h hmode)
  exact
    { length := hlength
      capacity := hcapacity
      observed := hobserved
      aggregate := fun _ => ⟨hoffset, hevents⟩
      exact := fun hexact => absurd (hmode.symm.trans hexact) (by decide)
      sorted := by rw [hevents]; exact List.Pairwise.nil
      sequences := by rw [hevents]; rfl
      groups := by
        intro group hgroup
        obtain ⟨piece, -, index, hgroup⟩ := exists_left_of_forall₂ hpieces hgroup
        exact counters_of_decodeAggregateRecord hgroup }

theorem consistent_of_exact
    (hmode : hasFeature (readU32 bytes 20) featureAggregateRecords = false) :
    capture.Consistent bytes := by
  have hdecoded := decodedFrom_of_decodeCapture h
  obtain ⟨hgroups, decoded, hrecords, hnumber⟩ := decodePayload_exact hmode hdecoded.payload
  have hcount : capture.events.length + capture.aggregateGroups.length =
      (readU64 bytes 32).toNat := by
    rw [hgroups, List.length_nil, Nat.add_zero, ← (forall₂_of_numberEvents hnumber).length_eq,
      length_sortByKey, ← (forall₂_of_decodeRecords hrecords).length_eq,
      length_chunksExact_payload hdecoded]
  obtain ⟨hlength, hcapacity, hobserved⟩ := sizes_of_count hdecoded hcount
  exact
    { length := hlength
      capacity := hcapacity
      observed := hobserved
      aggregate := fun haggregate => absurd (hmode.symm.trans haggregate) (by decide)
      exact := fun _ => hgroups
      sorted := sorted_of_numberEvents hnumber (sortByKey_sorted _ _)
      sequences := by
        rw [hdecoded.offset]
        exact sequences_of_numberEvents hnumber
      groups := by
        rw [hgroups]
        intro group hgroup
        cases hgroup }

/-- What an accepted capture holds, in either mode. -/
theorem consistent_of_decodeCapture : capture.Consistent bytes := by
  cases hmode : hasFeature (readU32 bytes 20) featureAggregateRecords with
  | true => exact consistent_of_aggregate h hmode
  | false => exact consistent_of_exact h hmode

omit h

/-- Decoding any bytes ends without a panic, and what it accepts is consistent. -/
theorem decodeCapture_safe (bytes : List UInt8) (sessionId : String) :
    ∃ answer, (decodeCaptureChecked bytes sessionId).run = some answer ∧
      ∀ capture, answer = .ok capture → capture.Consistent bytes := by
  refine ⟨decodeCapture bytes sessionId, ?_, ?_⟩
  · rw [decodeCaptureChecked_eq]
    rfl
  · intro capture h
    exact consistent_of_decodeCapture h

end Xprobe.Cupti
