import Xprobe.Foundation.StableSort
import Xprobe.Foundation.Fallible
import Xprobe.Protocol.Event
import Xprobe.Cupti.Abi

/-!
# Decoding a capture

`decode_capture` and the functions it calls (`xprobe/collector/src/cupti.rs`). Fields are read with
`readU32` and `readU64`, which never fall outside the bytes once their length has been checked.
-/

namespace Xprobe.Cupti

open Foundation Protocol

/-! ## Results and errors -/

inductive CuptiAggregateActivity where
  | kernel
  | memcpy
  | memset
  deriving Repr, DecidableEq

structure CuptiAggregateGroup where
  activity : CuptiAggregateActivity
  name : Option String
  nameComplete : Option Bool
  deviceId : Option UInt32
  memcpyKind : Option MemcpyKind
  count : UInt64
  totalDurationNs : UInt64
  minDurationNs : UInt64
  maxDurationNs : UInt64
  totalBytes : Option UInt64
  deriving Repr, DecidableEq

structure CuptiCapture where
  nvtxCallbacksActive : Bool
  recordOffset : UInt64
  state : CaptureState
  stopReason : StopReason
  recordCapacity : UInt64
  observedRecords : UInt64
  agentDroppedRecords : UInt64
  cuptiDroppedRecords : UInt64
  droppedRecords : UInt64
  unknownRecords : UInt64
  events : List Event
  aggregateGroups : List CuptiAggregateGroup

inductive CuptiDecodeError where
  | headerTooShort (actual : Nat)
  | invalidMagic
  | unsupportedAbi (version : UInt32)
  | unsupportedFeatureFlags (flags : UInt32)
  | invalidHeaderSize (version actual expected : UInt32)
  | invalidRecordSize (size : UInt32)
  | captureLengthOverflow
  | invalidCaptureLength (expected actual : Nat)
  | unknownRecordKind (index : Nat) (kind : UInt32)
  | invalidName (index : Nat)
  | invalidTimestamp (index : Nat) (kind : UInt32)
  | invalidNvtxRecord (index : Nat) (message : String)
  | invalidAggregateRecord (index : Nat) (message : String)
  | invalidCaptureState (state : UInt32)
  | invalidStopReason (reason : UInt32)
  | invalidCounters (offset records capacity observed : UInt64)
  | counterOverflow
  deriving Repr, DecidableEq

/-! ## Enumerations -/

/-- `decode_capture_state`. -/
def decodeCaptureState (value : UInt32) : Except CuptiDecodeError CaptureState :=
  match value.toNat with
  | 0 => .ok .idle
  | 1 => .ok .active
  | 2 => .ok .limitReached
  | 3 => .ok .stopped
  | 4 => .ok .failed
  | _ => .error (.invalidCaptureState value)

/-- `decode_stop_reason`. -/
def decodeStopReason (value : UInt32) : Except CuptiDecodeError StopReason :=
  match value.toNat with
  | 0 => .ok .none
  | 1 => .ok .requested
  | 2 => .ok .recordLimit
  | 3 => .ok .cuptiError
  | 4 => .ok .outputError
  | _ => .error (.invalidStopReason value)

/-- `decode_record_kind`. -/
def decodeRecordKind (kind : UInt32) (index : Nat) (flags : UInt32) :
    Except CuptiDecodeError (EventSource × EventType) :=
  let unknown := .error (.unknownRecordKind index kind)
  let transfer (eventType : EventType) :=
    if hasFeature flags featureTransferRecords then .ok (.cuptiActivity, eventType) else unknown
  let nvtx (eventType : EventType) :=
    if hasFeature flags featureNvtxRecords then .ok (.cuptiCallback, eventType) else unknown
  match kind.toNat with
  | 1 => .ok (.cuptiCallback, .cudaApiEntry)
  | 2 => .ok (.cuptiCallback, .cudaApiExit)
  | 3 => .ok (.cuptiActivity, .gpuKernelStart)
  | 4 => .ok (.cuptiActivity, .gpuKernelEnd)
  | 5 => transfer .gpuMemcpyStart
  | 6 => transfer .gpuMemcpyEnd
  | 7 => transfer .gpuMemsetStart
  | 8 => transfer .gpuMemsetEnd
  | 9 => nvtx .nvtxRangeStart
  | 10 => nvtx .nvtxRangeEnd
  | _ => unknown

/-- `decode_memcpy_kind`. -/
def decodeMemcpyKind (kind : UInt32) : MemcpyKind :=
  match kind.toNat with
  | 1 => .hostToDevice
  | 3 => .hostToDevice
  | 2 => .deviceToHost
  | 4 => .deviceToHost
  | 5 => .deviceToDevice
  | 6 => .deviceToDevice
  | 7 => .deviceToDevice
  | 8 => .deviceToDevice
  | 9 => .hostToHost
  | 10 => .peerToPeer
  | _ => .unknown

/-- `decode_semantic_memcpy_kind`. -/
def decodeSemanticMemcpyKind (kind : UInt32) : MemcpyKind :=
  match kind.toNat with
  | 1 => .hostToDevice
  | 2 => .deviceToHost
  | 3 => .deviceToDevice
  | 4 => .hostToHost
  | 5 => .peerToPeer
  | _ => .unknown

/-! ## Fields -/

/-- `optional_unknown`. -/
def optionalUnknown (value : UInt32) : Option UInt32 :=
  if value = valueUnknown then none else some value

/-- `optional_nonzero`. -/
def optionalNonzero (value : UInt32) : Option UInt32 :=
  if value = 0 then none else some value

/-- A dimension of three sizes, absent when all are zero. -/
def optionalDim (x y z : UInt32) : Option Dim3 :=
  if x ≠ 0 ∨ y ≠ 0 ∨ z ≠ 0 then some ⟨x, y, z⟩ else none

/-- `decode_dim`. -/
def decodeDim (record : List UInt8) (offset : Nat) : Option Dim3 :=
  optionalDim (readU32 record offset) (readU32 record (offset + 4)) (readU32 record (offset + 8))

/-- A 64-bit value from its low and its high half. -/
def joinHalves (low high : UInt32) : UInt64 := low.toUInt64 ||| (high.toUInt64 <<< 32)

/-- `read_split_u64`. -/
def readSplitU64 (record : List UInt8) (offset : Nat) : UInt64 :=
  joinHalves (readU32 record offset) (readU32 record (offset + 4))

def decodeName (record : List UInt8) (index : Nat) : Except CuptiDecodeError String :=
  okOr (fromUtf8 (cString (sliceAt record 72 nameLength))) (.invalidName index)

/-! ## Records -/

def decodeRangeKind (value : UInt32) : Option NvtxRangeKind :=
  match value.toNat with
  | 1 => some .thread
  | 2 => some .process
  | _ => none

/-- `decode_nvtx_event`. -/
def decodeNvtxEvent (record : List UInt8) (index : Nat) (isNvtx : Bool) (name : String) :
    Except CuptiDecodeError (Option NvtxEvent) :=
  let invalid (message : String) : CuptiDecodeError := .invalidNvtxRecord index message
  if !isNvtx then .ok none
  else do
    let rangeKind ← okOr (decodeRangeKind (readU32 record 52))
      (invalid "range kind is neither thread nor process")
    let rangeId := readSplitU64 record 44
    ensure (rangeId ≠ 0) (invalid "range ID is zero")
    let startTid := readU32 record 56
    ensure (startTid ≠ 0) (invalid "start thread ID is zero")
    let nameComplete := readU32 record 60
    ensure (nameComplete ≤ 1) (invalid "name completeness flag is not boolean")
    return some { name, nameComplete := nameComplete != 0, rangeKind, rangeId, startTid }

def apiDomainName (domain : UInt32) : String :=
  match domain.toNat with
  | 1 => "driver_api"
  | 2 => "runtime_api"
  | _ => "unknown"

/-- The attributes of a record: the call of an API record, the value of a memset record. -/
def decodeAttributes (record : List UInt8) (kind : UInt32) (name : String) :
    BTreeMap String Value :=
  if kind = 1 ∨ kind = 2 then
    (BTreeMap.empty.insert "cuda_api_name" (.string name)).insert "cuda_api_domain"
      (.string (apiDomainName (readU32 record 36)))
  else if kind = 7 ∨ kind = 8 then
    BTreeMap.empty.insert "memset_value" (.number (readU32 record 56).toNat)
  else .empty

def decodeClockDomain (kind flags : UInt32) : ClockDomain :=
  if kind = 1 ∨ kind = 2 ∨ kind = 9 ∨ kind = 10 then .hostMonotonic
  else if hasFeature flags featureHostMonotonicTimestamps then .cuptiNormalizedToHostMonotonic
  else .cupti

def decodeCudaEvent (record : List UInt8) (kind : UInt32) (timestampNs : UInt64) (name : String) :
    CudaEvent :=
  let isKernel := kind = 3 ∨ kind = 4
  { deviceId := optionalUnknown (readU32 record 20)
    contextId := optionalUnknown (readU32 record 24)
    streamId := (optionalUnknown (readU32 record 28)).map UInt32.toUInt64
    correlationId := optionalNonzero (readU32 record 32)
    runtimeCorrelationId := optionalNonzero (readU32 record 68)
    callbackDomain := optionalNonzero (readU32 record 36)
    callbackId := optionalNonzero (readU32 record 40)
    kernelName := if isKernel then some name else none
    kernelNameMangled := none
    startNs := if kind = 3 ∨ kind = 5 ∨ kind = 7 then some timestampNs else none
    endNs := if kind = 4 ∨ kind = 6 ∨ kind = 8 then some timestampNs else none
    grid := if isKernel then decodeDim record 44 else none
    block := if isKernel then decodeDim record 56 else none
    bytes :=
      if kind = 5 ∨ kind = 6 ∨ kind = 7 ∨ kind = 8 then some (readSplitU64 record 44) else none
    memcpyKind :=
      if kind = 5 ∨ kind = 6 then some (decodeMemcpyKind (readU32 record 52)) else none }

/-- `decode_record`. -/
def decodeRecord (record : List UInt8) (index : Nat) (sessionId : String) (flags : UInt32) :
    Except CuptiDecodeError Event := do
  let kind := readU32 record 8
  let (source, eventType) ← decodeRecordKind kind index flags
  let timestampRaw := readU64 record 0
  ensure (timestampRaw ≠ 0) (.invalidTimestamp index kind)
  let name ← decodeName record index
  let isNvtx := kind == 9 || kind == 10
  let nvtx ← decodeNvtxEvent record index isNvtx name
  return {
    schemaVersion := .current
    sessionId
    eventId := ""
    sequence := 0
    source
    eventType
    pid := readU32 record 12
    tid := readU32 record 16
    cpu := none
    timestampRaw
    timestampNs := timestampRaw
    clockDomain := decodeClockDomain kind flags
    timestampErrorNs := none
    processStartTime := none
    host := none
    cuda := if isNvtx then none else some (decodeCudaEvent record kind timestampRaw name)
    nvtx
    attributes := decodeAttributes record kind name }

/-- The activity of an aggregate record, and whether it has a name and a byte count. -/
def aggregateActivity (kind : UInt32) : Option (CuptiAggregateActivity × Bool × Bool) :=
  match kind.toNat with
  | 3 => some (.kernel, true, false)
  | 5 => some (.memcpy, false, true)
  | 7 => some (.memset, false, true)
  | _ => none

/-- `decode_aggregate_record`. -/
def decodeAggregateRecord (record : List UInt8) (index : Nat) :
    Except CuptiDecodeError CuptiAggregateGroup := do
  let invalid (message : String) : CuptiDecodeError := .invalidAggregateRecord index message
  let count := readU64 record 0
  let totalDurationNs := readU64 record 8
  let minDurationNs := readU64 record 16
  let maxDurationNs := readU64 record 24
  ensure (count ≠ 0) (invalid "count is zero")
  ensure (minDurationNs ≤ maxDurationNs ∧ minDurationNs ≤ totalDurationNs / count ∧
    totalDurationNs / count ≤ maxDurationNs) (invalid "duration counters are inconsistent")
  let (activity, hasName, hasBytes) ← okOr (aggregateActivity (readU32 record 40))
    (invalid "activity kind is unsupported")
  let nameBytes := cString (sliceAt record 72 nameLength)
  let name ← okOr (fromUtf8 nameBytes) (.invalidName index)
  ensure (¬(hasName = true ∧ name = "")) (invalid "kernel name is empty")
  return {
    activity
    name := if hasName then some name else none
    nameComplete := if hasName then some (decide (nameBytes.length + 1 < nameLength)) else none
    deviceId := optionalUnknown (readU32 record 44)
    memcpyKind :=
      if activity = .memcpy then some (decodeSemanticMemcpyKind (readU32 record 48)) else none
    count
    totalDurationNs
    minDurationNs
    maxDurationNs
    totalBytes := if hasBytes then some (readU64 record 32) else none }

/-! ## The payload -/

/-- Decode consecutive records, the first one with the given index. -/
def decodeRecords {α : Type} (decode : List UInt8 → Nat → Except CuptiDecodeError α) :
    List (List UInt8) → Nat → Except CuptiDecodeError (List α)
  | [], _ => .ok []
  | record :: rest, index => do
    let first ← decode record index
    let others ← decodeRecords decode rest (index + 1)
    return first :: others

/-- An event with its place in the capture. -/
def numbered (event : Event) (sequence : UInt64) : Event :=
  { event with sequence, eventId := "evt_" ++ toString sequence.toNat }

/-- The loop of `decode_payload` that numbers the sorted events. -/
def numberEvents : UInt64 → List Event → Except CuptiDecodeError (List Event)
  | _, [] => .ok []
  | sequence, event :: rest => do
    let next ← okOr (checkedAdd sequence 1) .captureLengthOverflow
    let others ← numberEvents next rest
    return numbered event sequence :: others

/-- `decode_payload`. -/
def decodePayload (bytes : List UInt8) (recordOffset : UInt64) (sessionId : String)
    (flags : UInt32) : Except CuptiDecodeError (List Event × List CuptiAggregateGroup) := do
  let chunks := chunksExact recordSize (bytes.drop headerSize)
  if hasFeature flags featureAggregateRecords then
    let groups ← decodeRecords decodeAggregateRecord chunks 0
    return ([], groups)
  else
    let events ← decodeRecords (decodeRecord · · sessionId flags) chunks 0
    let events ← numberEvents recordOffset (sortByKey Event.timestampNs events)
    return (events, [])

/-! ## The capture -/

/-- The beginning of `decode_capture`: the checks in front of the records. -/
def decodeHeader (bytes : List UInt8) : Except CuptiDecodeError (CaptureState × StopReason) := do
  ensure (headerSize ≤ bytes.length) (.headerTooShort bytes.length)
  ensure (sliceAt bytes 0 8 = outputMagic) .invalidMagic
  let version := readU32 bytes 8
  ensure (version = abiVersion) (.unsupportedAbi version)
  let actualHeaderSize := readU32 bytes 12
  ensure (actualHeaderSize = UInt32.ofNat headerSize)
    (.invalidHeaderSize version actualHeaderSize (UInt32.ofNat headerSize))
  let actualRecordSize := readU32 bytes 16
  ensure (actualRecordSize = UInt32.ofNat recordSize) (.invalidRecordSize actualRecordSize)
  let flags := readU32 bytes 20
  let unsupported := flags &&& ~~~supportedFeatures
  ensure (unsupported = 0) (.unsupportedFeatureFlags unsupported)
  let state ← decodeCaptureState (readU32 bytes 24)
  let stopReason ← decodeStopReason (readU32 bytes 28)
  let recordCount := readU64 bytes 32
  let recordCapacity := readU64 bytes 40
  let observedRecords := readU64 bytes 48
  let recordOffset := readU64 bytes 80
  let invalidCounters : CuptiDecodeError :=
    .invalidCounters recordOffset recordCount recordCapacity observedRecords
  let committedRecords ← okOr (checkedAdd recordOffset recordCount) .counterOverflow
  ensure (committedRecords ≤ recordCapacity ∧ committedRecords ≤ observedRecords) invalidCounters
  -- the two checked operations on `usize`, which has 64 bits
  let payloadSize := recordCount.toNat * recordSize
  ensure (payloadSize ≤ usizeMax) .captureLengthOverflow
  let expectedSize := headerSize + payloadSize
  ensure (expectedSize ≤ usizeMax) .captureLengthOverflow
  ensure (bytes.length = expectedSize) (.invalidCaptureLength expectedSize bytes.length)
  let aggregate := hasFeature flags featureAggregateRecords
  ensure (¬(aggregate = true ∧ recordOffset ≠ 0)) invalidCounters
  return (state, stopReason)

/-- `decode_capture`. -/
def decodeCapture (bytes : List UInt8) (sessionId : String) :
    Except CuptiDecodeError CuptiCapture := do
  let (state, stopReason) ← decodeHeader bytes
  let flags := readU32 bytes 20
  let recordOffset := readU64 bytes 80
  let (events, aggregateGroups) ← decodePayload bytes recordOffset sessionId flags
  let agentDroppedRecords := readU64 bytes 56
  let cuptiDroppedRecords := readU64 bytes 64
  let droppedRecords ← okOr (checkedAdd agentDroppedRecords cuptiDroppedRecords) .counterOverflow
  return {
    nvtxCallbacksActive := hasFeature flags featureNvtxRecords
    recordOffset
    state
    stopReason
    recordCapacity := readU64 bytes 40
    observedRecords := readU64 bytes 48
    agentDroppedRecords
    cuptiDroppedRecords
    droppedRecords
    unknownRecords := readU64 bytes 72
    events
    aggregateGroups }

end Xprobe.Cupti
