import Xprobe.Cupti.Decode

/-!
# Decoding undoes encoding

What the collector reads back from a capture that the agent wrote in exact mode. `RecordLayout` and
`HeaderLayout` say that bytes hold a structure's fields at the offsets the decoder reads; encoded
structures satisfy them. An `AgentRecord` is a record as the agent writes it, and `image` is the
event it stands for, field by field.
-/

namespace Xprobe.Cupti

open Foundation Protocol

/-! ## Layouts -/

/-- The bytes hold the fields of a record at the decoder's offsets. -/
structure RecordLayout (bytes : List UInt8) (record : Record) : Prop where
  timestampNs : readU64 bytes 0 = record.timestampNs
  kind : readU32 bytes 8 = record.kind
  pid : readU32 bytes 12 = record.pid
  tid : readU32 bytes 16 = record.tid
  deviceId : readU32 bytes 20 = record.deviceId
  contextId : readU32 bytes 24 = record.contextId
  streamId : readU32 bytes 28 = record.streamId
  correlationId : readU32 bytes 32 = record.correlationId
  callbackDomain : readU32 bytes 36 = record.callbackDomain
  callbackId : readU32 bytes 40 = record.callbackId
  gridX : readU32 bytes 44 = record.gridX
  gridY : readU32 bytes 48 = record.gridY
  gridZ : readU32 bytes 52 = record.gridZ
  blockX : readU32 bytes 56 = record.blockX
  blockY : readU32 bytes 60 = record.blockY
  blockZ : readU32 bytes 64 = record.blockZ
  runtimeCorrelationId : readU32 bytes 68 = record.runtimeCorrelationId
  name : sliceAt bytes 72 nameLength = record.name

/-- The name is the last field of a record. -/
theorem sliceAt_name {front name : List UInt8} (hfront : front.length = 72)
    (hname : name.length = nameLength) : sliceAt (front ++ name) 72 nameLength = name := by
  rw [sliceAt_append_right _ (le_of_eq hfront), hfront, Nat.sub_self, ← hname]
  simpa using sliceAt_append_left name []

theorem Record.layout_encode (record : Record) : RecordLayout record.encode record := by
  constructor
  case name =>
    simp only [Record.encode, ← List.append_assoc]
    exact sliceAt_name (by simp) record.name_length
  all_goals simp [Record.encode, readU32_append]

/-- The bytes start with a header at the decoder's offsets. -/
structure HeaderLayout (bytes : List UInt8) (header : OutputHeader) : Prop where
  magic : sliceAt bytes 0 8 = outputMagic
  abiVersion : readU32 bytes 8 = abiVersion
  headerSize : readU32 bytes 12 = UInt32.ofNat headerSize
  recordSize : readU32 bytes 16 = UInt32.ofNat recordSize
  featureFlags : readU32 bytes 20 = header.featureFlags
  captureState : readU32 bytes 24 = header.captureState
  stopReason : readU32 bytes 28 = header.stopReason
  recordCount : readU64 bytes 32 = header.recordCount
  recordCapacity : readU64 bytes 40 = header.recordCapacity
  observedRecords : readU64 bytes 48 = header.observedRecords
  agentDroppedRecords : readU64 bytes 56 = header.agentDroppedRecords
  cuptiDroppedRecords : readU64 bytes 64 = header.cuptiDroppedRecords
  unknownRecords : readU64 bytes 72 = header.unknownRecords
  recordOffset : readU64 bytes 80 = header.recordOffset

theorem OutputHeader.layout_encode (header : OutputHeader) (payload : List UInt8) :
    HeaderLayout (header.encode ++ payload) header := by
  have hmagic : outputMagic.length = 8 := rfl
  constructor
  case magic =>
    rw [OutputHeader.encode, List.append_assoc, ← hmagic]
    exact sliceAt_append_left _ _
  all_goals simp [OutputHeader.encode, hmagic, readU32_append, readU64_append]

/-! ## What a record stands for -/

namespace RecordKind

def eventKind : RecordKind → EventSource × EventType
  | .cudaApiEntry => (.cuptiCallback, .cudaApiEntry)
  | .cudaApiExit => (.cuptiCallback, .cudaApiExit)
  | .gpuKernelStart => (.cuptiActivity, .gpuKernelStart)
  | .gpuKernelEnd => (.cuptiActivity, .gpuKernelEnd)
  | .gpuMemcpyStart => (.cuptiActivity, .gpuMemcpyStart)
  | .gpuMemcpyEnd => (.cuptiActivity, .gpuMemcpyEnd)
  | .gpuMemsetStart => (.cuptiActivity, .gpuMemsetStart)
  | .gpuMemsetEnd => (.cuptiActivity, .gpuMemsetEnd)
  | .nvtxRangeStart => (.cuptiCallback, .nvtxRangeStart)
  | .nvtxRangeEnd => (.cuptiCallback, .nvtxRangeEnd)

def isApi : RecordKind → Bool
  | .cudaApiEntry | .cudaApiExit => true
  | _ => false

def isKernel : RecordKind → Bool
  | .gpuKernelStart | .gpuKernelEnd => true
  | _ => false

def isMemcpy : RecordKind → Bool
  | .gpuMemcpyStart | .gpuMemcpyEnd => true
  | _ => false

def isMemset : RecordKind → Bool
  | .gpuMemsetStart | .gpuMemsetEnd => true
  | _ => false

def isNvtx : RecordKind → Bool
  | .nvtxRangeStart | .nvtxRangeEnd => true
  | _ => false

def isActivityStart : RecordKind → Bool
  | .gpuKernelStart | .gpuMemcpyStart | .gpuMemsetStart => true
  | _ => false

def isActivityEnd : RecordKind → Bool
  | .gpuKernelEnd | .gpuMemcpyEnd | .gpuMemsetEnd => true
  | _ => false

def announced (flags : UInt32) (kind : RecordKind) : Bool :=
  if kind.isMemcpy || kind.isMemset then hasFeature flags featureTransferRecords
  else if kind.isNvtx then hasFeature flags featureNvtxRecords
  else true

end RecordKind

/-- A 64-bit value stored as two halves. -/
def wide (low high : UInt32) : UInt64 := UInt64.ofNat (low.toNat + 2 ^ 32 * high.toNat)

/-- A record as the agent writes it: a known kind, a nonzero timestamp, a terminated UTF-8 name,
    and for NVTX records a valid range. The bytes after the terminator are arbitrary. -/
structure AgentRecord where
  record : Record
  kind : RecordKind
  name : String
  kind_eq : record.kind = kind.code
  timestamp_ne : record.timestampNs ≠ 0
  name_eq : ∃ padding, record.name = utf8Bytes name ++ 0 :: padding
  name_nul_free : 0 ∉ utf8Bytes name
  range_kind : kind.isNvtx = true → record.gridZ = 1 ∨ record.gridZ = 2
  range_id : kind.isNvtx = true → wide record.gridX record.gridY ≠ 0
  start_thread : kind.isNvtx = true → record.blockX ≠ 0
  complete_flag : kind.isNvtx = true → record.blockY = 0 ∨ record.blockY = 1

namespace AgentRecord

def cudaImage (r : AgentRecord) : CudaEvent :=
  { deviceId := if r.record.deviceId = valueUnknown then none else some r.record.deviceId
    contextId := if r.record.contextId = valueUnknown then none else some r.record.contextId
    streamId :=
      if r.record.streamId = valueUnknown then none else some r.record.streamId.toUInt64
    correlationId := if r.record.correlationId = 0 then none else some r.record.correlationId
    runtimeCorrelationId :=
      if r.record.runtimeCorrelationId = 0 then none else some r.record.runtimeCorrelationId
    callbackDomain := if r.record.callbackDomain = 0 then none else some r.record.callbackDomain
    callbackId := if r.record.callbackId = 0 then none else some r.record.callbackId
    kernelName := if r.kind.isKernel then some r.name else none
    kernelNameMangled := none
    startNs := if r.kind.isActivityStart then some r.record.timestampNs else none
    endNs := if r.kind.isActivityEnd then some r.record.timestampNs else none
    grid :=
      if r.kind.isKernel then optionalDim r.record.gridX r.record.gridY r.record.gridZ else none
    block :=
      if r.kind.isKernel then optionalDim r.record.blockX r.record.blockY r.record.blockZ
      else none
    bytes :=
      if r.kind.isMemcpy || r.kind.isMemset then some (wide r.record.gridX r.record.gridY)
      else none
    memcpyKind := if r.kind.isMemcpy then some (decodeMemcpyKind r.record.gridZ) else none }

def nvtxImage (r : AgentRecord) : NvtxEvent :=
  { name := r.name
    nameComplete := decide (r.record.blockY = 1)
    rangeKind := if r.record.gridZ = 1 then .thread else .process
    rangeId := wide r.record.gridX r.record.gridY
    startTid := r.record.blockX }

def apiDomain (r : AgentRecord) : String :=
  if r.record.callbackDomain = 1 then "driver_api"
  else if r.record.callbackDomain = 2 then "runtime_api"
  else "unknown"

def attributes (r : AgentRecord) : BTreeMap String Value :=
  if r.kind.isApi then
    (BTreeMap.empty.insert "cuda_api_name" (.string r.name)).insert "cuda_api_domain"
      (.string r.apiDomain)
  else if r.kind.isMemset then
    BTreeMap.empty.insert "memset_value" (.number r.record.blockX.toNat)
  else .empty

/-- The clock of a record's event: callbacks use the host clock, activities the CUPTI clock unless
    it was normalized. -/
def clockDomain (flags : UInt32) (r : AgentRecord) : ClockDomain :=
  if r.kind.isApi || r.kind.isNvtx then .hostMonotonic
  else if hasFeature flags featureHostMonotonicTimestamps then .cuptiNormalizedToHostMonotonic
  else .cupti

/-- The event that a record stands for, not yet numbered. -/
def image (flags : UInt32) (sessionId : String) (r : AgentRecord) : Event :=
  { schemaVersion := .current
    sessionId
    eventId := ""
    sequence := 0
    source := r.kind.eventKind.1
    eventType := r.kind.eventKind.2
    pid := r.record.pid
    tid := r.record.tid
    cpu := none
    timestampRaw := r.record.timestampNs
    timestampNs := r.record.timestampNs
    clockDomain := r.clockDomain flags
    timestampErrorNs := none
    processStartTime := none
    host := none
    cuda := if r.kind.isNvtx then none else some r.cudaImage
    nvtx := if r.kind.isNvtx then some r.nvtxImage else none
    attributes := r.attributes }

end AgentRecord

/-! ## Decoding one record -/

theorem joinHalves_eq_wide (low high : UInt32) : joinHalves low high = wide low high := by
  apply UInt64.toNat_inj.mp
  have hlow := low.toNat_lt
  have hhigh := high.toNat_lt
  have hshift : high.toNat <<< 32 % 2 ^ 64 = 2 ^ 32 * high.toNat := by
    rw [Nat.shiftLeft_eq, Nat.mul_comm]
    exact Nat.mod_eq_of_lt (by omega)
  have hor : low.toNat ||| 2 ^ 32 * high.toNat = 2 ^ 32 * high.toNat + low.toNat := by
    rw [Nat.or_comm]
    exact (Nat.two_pow_add_eq_or_of_lt hlow high.toNat).symm
  have hbound : low.toNat + 2 ^ 32 * high.toNat < UInt64.size := by
    rw [UInt64.size]
    omega
  simp only [joinHalves, wide, UInt64.toNat_or, UInt64.toNat_shiftLeft, UInt32.toNat_toUInt64]
  rw [UInt64.toNat_ofNat_of_lt' hbound]
  have h32 : (32 : UInt64).toNat % 64 = 32 := rfl
  rw [h32, hshift, hor, Nat.add_comm]

variable {bytes : List UInt8} {r : AgentRecord} {state : CaptureState} {header : OutputHeader}
  {reason : StopReason}

private theorem decodeName_of_layout (h : RecordLayout bytes r.record) (index : Nat) :
    decodeName bytes index = .ok r.name := by
  obtain ⟨padding, hname⟩ := r.name_eq
  rw [decodeName, h.name, hname, cString_append_nul r.name_nul_free, fromUtf8_utf8Bytes, okOr_some]

variable {flags : UInt32}

private theorem decodeRecordKind_code {kind : RecordKind} (index : Nat)
    (h : kind.announced flags = true) :
    decodeRecordKind kind.code index flags = .ok kind.eventKind := by
  cases kind <;>
    simp_all [RecordKind.announced, RecordKind.isMemcpy, RecordKind.isMemset, RecordKind.isNvtx,
      decodeRecordKind, RecordKind.code, RecordKind.eventKind]

/-! The decoder tests kind codes; the image tests kinds. -/

private theorem code_isApi (kind : RecordKind) :
    (kind.code = 1 ∨ kind.code = 2) ↔ kind.isApi = true := by
  cases kind <;> decide

private theorem code_activity (kind : RecordKind) :
    ((kind.code = 3 ∨ kind.code = 4) ↔ kind.isKernel = true) ∧
      ((kind.code = 5 ∨ kind.code = 6) ↔ kind.isMemcpy = true) ∧
      ((kind.code = 5 ∨ kind.code = 6 ∨ kind.code = 7 ∨ kind.code = 8) ↔
        (kind.isMemcpy || kind.isMemset) = true) ∧
      ((kind.code = 3 ∨ kind.code = 5 ∨ kind.code = 7) ↔ kind.isActivityStart = true) ∧
      ((kind.code = 4 ∨ kind.code = 6 ∨ kind.code = 8) ↔ kind.isActivityEnd = true) := by
  cases kind <;> decide

private theorem code_isMemset (kind : RecordKind) :
    (kind.code = 7 ∨ kind.code = 8) ↔ kind.isMemset = true := by
  cases kind <;> decide

private theorem code_isNvtx (kind : RecordKind) :
    (kind.code == 9 || kind.code == 10) = kind.isNvtx := by
  cases kind <;> decide

private theorem code_isCallback (kind : RecordKind) :
    (kind.code = 1 ∨ kind.code = 2 ∨ kind.code = 9 ∨ kind.code = 10) ↔
      (kind.isApi || kind.isNvtx) = true := by
  cases kind <;> decide

private theorem decodeCudaEvent_of_layout (h : RecordLayout bytes r.record) :
    decodeCudaEvent bytes r.kind.code r.record.timestampNs r.name = r.cudaImage := by
  have hstream : (optionalUnknown r.record.streamId).map UInt32.toUInt64 =
      if r.record.streamId = valueUnknown then none else some r.record.streamId.toUInt64 := by
    unfold optionalUnknown
    split_ifs <;> rfl
  simp only [decodeCudaEvent, AgentRecord.cudaImage, decodeDim, readSplitU64, h.deviceId,
    h.contextId, h.streamId, h.correlationId, h.runtimeCorrelationId, h.callbackDomain,
    h.callbackId, h.gridX, h.gridY, h.gridZ, h.blockX, h.blockY, h.blockZ, joinHalves_eq_wide,
    code_activity, hstream]
  simp only [optionalUnknown, optionalNonzero]

private theorem decodeNvtxEvent_of_layout (h : RecordLayout bytes r.record) (index : Nat) :
    decodeNvtxEvent bytes index r.kind.isNvtx r.name =
      .ok (if r.kind.isNvtx then some r.nvtxImage else none) := by
  cases hnvtx : r.kind.isNvtx with
  | false => rfl
  | true =>
    have hrange : decodeRangeKind r.record.gridZ =
        some (if r.record.gridZ = 1 then .thread else .process) := by
      rcases r.range_kind hnvtx with hkind | hkind
      · rw [hkind]
        rfl
      · rw [hkind]
        rfl
    have hflag : r.record.blockY ≤ 1 := by
      rcases r.complete_flag hnvtx with hzero | hone
      · rw [hzero]
        decide
      · rw [hone]
    have hcomplete : (r.record.blockY != 0) = decide (r.record.blockY = 1) := by
      rcases r.complete_flag hnvtx with hzero | hone
      · rw [hzero]
        rfl
      · rw [hone]
        rfl
    simp only [decodeNvtxEvent, readSplitU64, h.gridX, h.gridY, h.gridZ, h.blockX, h.blockY,
      joinHalves_eq_wide, hrange, okOr_some, ok_bind, ensure_of (r.range_id hnvtx),
      ensure_of (r.start_thread hnvtx), ensure_of hflag, hcomplete]
    rfl

private theorem apiDomainName_eq (r : AgentRecord) :
    apiDomainName r.record.callbackDomain = r.apiDomain := by
  have hone : r.record.callbackDomain = 1 ↔ r.record.callbackDomain.toNat = 1 := by
    rw [← UInt32.toNat_inj]
    rfl
  have htwo : r.record.callbackDomain = 2 ↔ r.record.callbackDomain.toNat = 2 := by
    rw [← UInt32.toNat_inj]
    rfl
  simp only [apiDomainName, AgentRecord.apiDomain, hone, htwo]
  split <;> simp_all

private theorem decodeAttributes_of_layout (h : RecordLayout bytes r.record) :
    decodeAttributes bytes r.kind.code r.name = r.attributes := by
  simp only [decodeAttributes, AgentRecord.attributes, h.callbackDomain, h.blockX,
    apiDomainName_eq, code_isApi, code_isMemset]

/-- A record that the feature flags announce decodes to its image. -/
theorem decodeRecord_of_layout (h : RecordLayout bytes r.record)
    (hannounced : r.kind.announced flags = true) (index : Nat) (sessionId : String) :
    decodeRecord bytes index sessionId flags = .ok (r.image flags sessionId) := by
  have hclock : decodeClockDomain r.kind.code flags = r.clockDomain flags := by
    simp only [decodeClockDomain, AgentRecord.clockDomain, code_isCallback]
  have hcuda : (if r.kind.isNvtx = true then none else some r.cudaImage) =
      (r.image flags sessionId).cuda := rfl
  simp only [decodeRecord, h.kind, h.timestampNs, h.pid, h.tid, r.kind_eq,
    decodeRecordKind_code index hannounced, ok_bind, ensure_of r.timestamp_ne,
    decodeName_of_layout h, code_isNvtx, decodeNvtxEvent_of_layout h, decodeCudaEvent_of_layout h,
    decodeAttributes_of_layout h, hclock, hcuda]
  rfl

/-! ## Decoding the payload -/

/-- The bytes of the records, one piece each. -/
def encodeRecords (records : List AgentRecord) : List (List UInt8) :=
  records.map (fun r => r.record.encode)

variable {records : List AgentRecord}

private theorem decodeRecords_encode (h : ∀ r ∈ records, r.kind.announced flags = true)
    (sessionId : String) (index : Nat) :
    decodeRecords (decodeRecord · · sessionId flags) (encodeRecords records) index =
      .ok (records.map (fun r => r.image flags sessionId)) := by
  induction records generalizing index with
  | nil => rfl
  | cons r rest ih =>
    have hfirst := decodeRecord_of_layout r.record.layout_encode (h r List.mem_cons_self) index
      sessionId
    have hrest := ih (fun r' hr' => h r' (List.mem_cons_of_mem _ hr')) (index + 1)
    simp only [encodeRecords] at hrest
    simp only [encodeRecords, List.map_cons, decodeRecords, hfirst, hrest, ok_bind]
    rfl

def numberedFrom (offset : UInt64) (events : List Event) : List Event :=
  events.mapIdx (fun i event => numbered event (offset + UInt64.ofNat i))

theorem numberEvents_eq {offset : UInt64} {events : List Event}
    (h : offset.toNat + events.length < 2 ^ 64) :
    numberEvents offset events = .ok (numberedFrom offset events) := by
  induction events generalizing offset with
  | nil => rfl
  | cons event rest ih =>
    rw [List.length_cons] at h
    have hone : (1 : UInt64).toNat = 1 := rfl
    have hnext : checkedAdd offset 1 = some (offset + 1) :=
      checkedAdd_eq_some.mpr ⟨by omega, rfl⟩
    have hnat := toNat_of_checkedAdd hnext
    have hrest := @ih (offset + 1) (by omega)
    rw [numberEvents, hnext, okOr_some, ok_bind, hrest, ok_bind]
    simp only [numberedFrom, List.mapIdx_cons]
    have hshift : ∀ i, offset + 1 + UInt64.ofNat i = offset + UInt64.ofNat (i + 1) := by
      intro i
      rw [UInt64.ofNat_add, UInt64.add_assoc, UInt64.add_comm 1]
      rfl
    have hzero : offset + UInt64.ofNat 0 = offset := UInt64.add_zero offset
    simp only [hshift, hzero]
    rfl

/-! ## Decoding the capture -/

/-- A header that announces the given records in exact mode, with consistent counters. -/
structure ExactHeader (header : OutputHeader) (state : CaptureState) (reason : StopReason)
    (records : List AgentRecord) : Prop where
  supported : header.featureFlags &&& ~~~supportedFeatures = 0
  exact_mode : hasFeature header.featureFlags featureAggregateRecords = false
  announced : ∀ r ∈ records, r.kind.announced header.featureFlags = true
  state_code : header.captureState = state.code
  reason_code : header.stopReason = reason.code
  count : header.recordCount.toNat = records.length
  capacity : header.recordOffset.toNat + records.length ≤ header.recordCapacity.toNat
  observed : header.recordOffset.toNat + records.length ≤ header.observedRecords.toNat
  drops : header.agentDroppedRecords.toNat + header.cuptiDroppedRecords.toNat < 2 ^ 64

def captureBytes (header : OutputHeader) (records : List AgentRecord) : List UInt8 :=
  encodeCapture header (records.map AgentRecord.record)

/-- The capture that a header and its records stand for: the images of the records sorted by time,
    ties in the order of the records, and numbered from the offset; every counter as it is. -/
def captureImage (header : OutputHeader) (state : CaptureState) (reason : StopReason)
    (records : List AgentRecord) (sessionId : String) : CuptiCapture :=
  { nvtxCallbacksActive := hasFeature header.featureFlags featureNvtxRecords
    recordOffset := header.recordOffset
    state
    stopReason := reason
    recordCapacity := header.recordCapacity
    observedRecords := header.observedRecords
    agentDroppedRecords := header.agentDroppedRecords
    cuptiDroppedRecords := header.cuptiDroppedRecords
    droppedRecords := header.agentDroppedRecords + header.cuptiDroppedRecords
    unknownRecords := header.unknownRecords
    events := numberedFrom header.recordOffset
      (sortByKey Event.timestampNs
        (records.map (fun r => r.image header.featureFlags sessionId)))
    aggregateGroups := [] }

private theorem decodePayload_encode (h : ExactHeader header state reason records)
    (sessionId : String) :
    decodePayload (captureBytes header records) header.recordOffset sessionId
        header.featureFlags =
      .ok ((captureImage header state reason records sessionId).events, []) := by
  have hpayload : (captureBytes header records).drop headerSize =
      (encodeRecords records).flatten := by
    rw [captureBytes, encodeCapture, ← header.length_encode, List.drop_left, List.map_map]
    rfl
  have hpieces : ∀ piece ∈ encodeRecords records, piece.length = recordSize := by
    intro piece hpiece
    obtain ⟨r, -, rfl⟩ := List.mem_map.mp hpiece
    exact r.record.length_encode
  have hchunks := chunksExact_flatten (by decide : 0 < recordSize) hpieces
  have hnumber : numberEvents header.recordOffset (sortByKey Event.timestampNs
      (records.map (fun r => r.image header.featureFlags sessionId))) =
      .ok (captureImage header state reason records sessionId).events := by
    refine numberEvents_eq ?_
    have hlength := h.capacity
    have hbound := header.recordCapacity.toNat_lt
    rw [length_sortByKey, List.length_map]
    omega
  simp only [decodePayload, hpayload, hchunks, h.exact_mode, Bool.false_eq_true, if_false,
    decodeRecords_encode h.announced, ok_bind, hnumber]
  rfl

/-! ## The checks on the header -/

/-- The checks of `decode_capture` on the header. The one on the dropped records stands behind the
    records in the source. -/
def checkHeader (bytes : List UInt8) : Except CuptiDecodeError Unit := do
  let _ ← decodeHeader bytes
  let _ ← okOr (checkedAdd (readU64 bytes 56) (readU64 bytes 64)) .counterOverflow

/-- What the checks in front of the payload establish. -/
structure HeaderChecked (bytes : List UInt8) (state : CaptureState) (reason : StopReason) : Prop where
  present : headerSize ≤ bytes.length
  magic : sliceAt bytes 0 8 = outputMagic
  version : readU32 bytes 8 = abiVersion
  header_size : readU32 bytes 12 = UInt32.ofNat headerSize
  record_size : readU32 bytes 16 = UInt32.ofNat recordSize
  supported : readU32 bytes 20 &&& ~~~supportedFeatures = 0
  state : decodeCaptureState (readU32 bytes 24) = .ok state
  reason : decodeStopReason (readU32 bytes 28) = .ok reason
  committed : checkedAdd (readU64 bytes 80) (readU64 bytes 32) =
    some (readU64 bytes 80 + readU64 bytes 32)
  counters : readU64 bytes 80 + readU64 bytes 32 ≤ readU64 bytes 40 ∧
    readU64 bytes 80 + readU64 bytes 32 ≤ readU64 bytes 48
  payload_fits : (readU64 bytes 32).toNat * recordSize ≤ usizeMax
  fits : headerSize + (readU64 bytes 32).toNat * recordSize ≤ usizeMax
  length : bytes.length = headerSize + (readU64 bytes 32).toNat * recordSize
  mode : ¬(hasFeature (readU32 bytes 20) featureAggregateRecords = true ∧ readU64 bytes 80 ≠ 0)

theorem decodeHeader_eq_ok_iff :
    decodeHeader bytes = .ok (state, reason) ↔ HeaderChecked bytes state reason := by
  constructor
  · intro h
    simp only [decodeHeader, bind_eq_ok_iff, ensure_eq_ok_iff, okOr_eq_ok_iff, exists_const] at h
    obtain ⟨h₁, h₂, h₃, h₄, h₅, h₆, state, h₇, reason, h₈, committed, h₉, h₁₀, h₁₁, h₁₂, h₁₃, h₁₄,
      hresult⟩ := h
    cases hresult
    cases (checkedAdd_eq_some.mp h₉).2
    exact ⟨h₁, h₂, h₃, h₄, h₅, h₆, h₇, h₈, h₉, h₁₀, h₁₁, h₁₂, h₁₃, h₁₄⟩
  · intro h
    simp only [decodeHeader, h.magic, h.version, h.header_size, h.record_size, h.state, h.reason,
      h.committed, okOr_some, ok_bind, ensure_true, ensure_of h.present, ensure_of h.supported,
      ensure_of h.counters, ensure_of h.payload_fits, ensure_of h.fits, ensure_of h.length,
      ensure_of h.mode]
    rfl

theorem checkHeader_eq_ok_iff : checkHeader bytes = .ok () ↔
    (∃ state reason, HeaderChecked bytes state reason) ∧
      checkedAdd (readU64 bytes 56) (readU64 bytes 64) =
        some (readU64 bytes 56 + readU64 bytes 64) := by
  simp only [checkHeader, bind_eq_ok_iff, okOr_eq_ok_iff, Prod.exists, decodeHeader_eq_ok_iff]
  constructor
  · rintro ⟨state, reason, hchecked, dropped, hdropped, -⟩
    exact ⟨⟨state, reason, hchecked⟩, (checkedAdd_eq_some.mp hdropped).2 ▸ hdropped⟩
  · rintro ⟨⟨state, reason, hchecked⟩, hdropped⟩
    exact ⟨state, reason, hchecked, _, hdropped, rfl⟩

/-- The header of a capture that was returned has passed the checks. -/
theorem headerChecked_of_decodeCapture {sessionId : String} {capture : CuptiCapture}
    (h : decodeCapture bytes sessionId = .ok capture) :
    ∃ state reason, HeaderChecked bytes state reason := by
  obtain ⟨⟨state, reason⟩, hheader, -⟩ := of_bind h
  exact ⟨state, reason, decodeHeader_eq_ok_iff.mp hheader⟩

/-- `decode_capture` once the header has passed the checks. -/
theorem HeaderChecked.decodeCapture_eq (h : HeaderChecked bytes state reason) (sessionId : String) :
    decodeCapture bytes sessionId = (do
      let payload ← decodePayload bytes (readU64 bytes 80) sessionId (readU32 bytes 20)
      let dropped ← okOr (checkedAdd (readU64 bytes 56) (readU64 bytes 64)) .counterOverflow
      return { nvtxCallbacksActive := hasFeature (readU32 bytes 20) featureNvtxRecords
               recordOffset := readU64 bytes 80
               state
               stopReason := reason
               recordCapacity := readU64 bytes 40
               observedRecords := readU64 bytes 48
               agentDroppedRecords := readU64 bytes 56
               cuptiDroppedRecords := readU64 bytes 64
               droppedRecords := dropped
               unknownRecords := readU64 bytes 72
               events := payload.1
               aggregateGroups := payload.2 }) := by
  simp only [decodeCapture, decodeHeader_eq_ok_iff.mpr h, ok_bind]

/-- `decode_capture` returns a capture exactly when the header passes its checks and the records can
    be decoded. -/
theorem decodeCapture_ok_iff (bytes : List UInt8) (sessionId : String) :
    (∃ capture, decodeCapture bytes sessionId = .ok capture) ↔
      checkHeader bytes = .ok () ∧
        ∃ payload, decodePayload bytes (readU64 bytes 80) sessionId (readU32 bytes 20) =
          .ok payload := by
  rw [checkHeader_eq_ok_iff]
  constructor
  · rintro ⟨capture, h⟩
    obtain ⟨state, reason, hchecked⟩ := headerChecked_of_decodeCapture h
    rw [hchecked.decodeCapture_eq] at h
    obtain ⟨payload, hpayload, h⟩ := of_bind h
    obtain ⟨dropped, hdropped, -⟩ := of_bind h
    have hsum := okOr_eq_ok_iff.mp hdropped
    exact ⟨⟨⟨state, reason, hchecked⟩, (checkedAdd_eq_some.mp hsum).2 ▸ hsum⟩, payload, hpayload⟩
  · rintro ⟨⟨⟨state, reason, hchecked⟩, hdropped⟩, payload, hpayload⟩
    rw [hchecked.decodeCapture_eq, hpayload, hdropped]
    exact ⟨_, rfl⟩

private theorem decodeCaptureState_code (state : CaptureState) :
    decodeCaptureState state.code = .ok state := by
  cases state <;> rfl

private theorem decodeStopReason_code (reason : StopReason) :
    decodeStopReason reason.code = .ok reason := by
  cases reason <;> rfl

/-- A header that announces supported features, with counters that agree. -/
structure ConsistentHeader (header : OutputHeader) (state : CaptureState) (reason : StopReason) :
    Prop where
  supported : header.featureFlags &&& ~~~supportedFeatures = 0
  state_code : header.captureState = state.code
  reason_code : header.stopReason = reason.code
  capacity : header.recordOffset.toNat + header.recordCount.toNat ≤ header.recordCapacity.toNat
  observed : header.recordOffset.toNat + header.recordCount.toNat ≤ header.observedRecords.toNat
  drops : header.agentDroppedRecords.toNat + header.cuptiDroppedRecords.toNat < 2 ^ 64
  mode : ¬(hasFeature header.featureFlags featureAggregateRecords = true ∧ header.recordOffset ≠ 0)

section Layout

variable {bytes : Slice UInt8} (h : ConsistentHeader header state reason)
  (hlayout : HeaderLayout bytes.toList header)
  (hlength : bytes.toList.length = headerSize + header.recordCount.toNat * recordSize)

include h hlayout hlength

theorem headerChecked_of_layout : HeaderChecked bytes.toList state reason := by
  have hcommitted : checkedAdd header.recordOffset header.recordCount =
      some (header.recordOffset + header.recordCount) := by
    have := header.recordCapacity.toNat_lt
    have := h.capacity
    exact checkedAdd_eq_some.mpr ⟨by omega, rfl⟩
  have hcounters : header.recordOffset + header.recordCount ≤ header.recordCapacity ∧
      header.recordOffset + header.recordCount ≤ header.observedRecords := by
    rw [UInt64.le_iff_toNat_le, UInt64.le_iff_toNat_le, toNat_of_checkedAdd hcommitted]
    exact ⟨h.capacity, h.observed⟩
  -- the lengths fit because the capture itself is a slice in memory
  have hexpected : headerSize + header.recordCount.toNat * recordSize ≤ usizeMax := by
    rw [← hlength]
    exact le_of_lt bytes.length_lt_usizeMax
  constructor
  case present => omega
  case state => rw [hlayout.captureState, h.state_code, decodeCaptureState_code]
  case reason => rw [hlayout.stopReason, h.reason_code, decodeStopReason_code]
  case payload_fits =>
    rw [hlayout.recordCount]
    exact le_trans (Nat.le_add_left _ _) hexpected
  all_goals simp only [hlayout.magic, hlayout.abiVersion, hlayout.headerSize, hlayout.recordSize,
    hlayout.featureFlags, hlayout.recordCount, hlayout.recordCapacity, hlayout.observedRecords,
    hlayout.recordOffset, h.supported, hcommitted, hcounters, hexpected, hlength, h.mode,
    not_false_eq_true, and_self]

/-- A header with consistent counters passes the checks. -/
theorem checkHeader_of_layout : checkHeader bytes.toList = .ok () := by
  refine checkHeader_eq_ok_iff.mpr ⟨⟨_, _, headerChecked_of_layout h hlayout hlength⟩, ?_⟩
  rw [hlayout.agentDroppedRecords, hlayout.cuptiDroppedRecords]
  exact checkedAdd_eq_some.mpr ⟨h.drops, rfl⟩

/-- A header with consistent counters and a payload that can be decoded make a capture. -/
theorem decodeCapture_of_layout {sessionId : String} {events : List Event}
    {groups : List CuptiAggregateGroup}
    (hpayload : decodePayload bytes.toList header.recordOffset sessionId header.featureFlags =
      .ok (events, groups)) :
    decodeCapture bytes.toList sessionId =
      .ok { captureImage header state reason [] sessionId with
            events, aggregateGroups := groups } := by
  rw [(headerChecked_of_layout h hlayout hlength).decodeCapture_eq, hlayout.featureFlags,
    hlayout.recordOffset, hpayload, hlayout.recordCapacity, hlayout.observedRecords,
    hlayout.agentDroppedRecords, hlayout.cuptiDroppedRecords, hlayout.unknownRecords,
    checkedAdd_eq_some.mpr ⟨h.drops, rfl⟩]
  rfl

end Layout

/-- A capture in exact mode decodes to its image. -/
theorem decodeCapture_eq_image {bytes : Slice UInt8} (h : ExactHeader header state reason records)
    (hbytes : bytes.toList = captureBytes header records) (sessionId : String) :
    decodeCapture bytes.toList sessionId =
      .ok (captureImage header state reason records sessionId) := by
  have hlength : bytes.toList.length = headerSize + header.recordCount.toNat * recordSize := by
    rw [hbytes, captureBytes, length_encodeCapture, List.length_map, h.count]
  have hlayout : HeaderLayout bytes.toList header := by
    rw [hbytes, captureBytes, encodeCapture]
    exact header.layout_encode _
  have hpayload := decodePayload_encode h sessionId
  rw [← hbytes] at hpayload
  refine decodeCapture_of_layout ⟨h.supported, h.state_code, h.reason_code, ?_, ?_, h.drops, ?_⟩
    hlayout hlength hpayload
  · rw [h.count]
    exact h.capacity
  · rw [h.count]
    exact h.observed
  · simp [h.exact_mode]

/-- A capture as the agent sends it: a header, the records it announces and the bytes of both. -/
structure SentCapture where
  header : OutputHeader
  state : CaptureState
  reason : StopReason
  records : List AgentRecord
  bytes : Slice UInt8
  bytes_eq : bytes.toList = captureBytes header records
  valid : ExactHeader header state reason records

/-- The capture that the collector decodes it to. -/
def SentCapture.image (capture : SentCapture) (sessionId : String) : CuptiCapture :=
  captureImage capture.header capture.state capture.reason capture.records sessionId

theorem SentCapture.decode_eq (capture : SentCapture) (sessionId : String) :
    decodeCapture capture.bytes.toList sessionId = .ok (capture.image sessionId) :=
  decodeCapture_eq_image capture.valid capture.bytes_eq sessionId

@[simp] theorem SentCapture.length_image_events (capture : SentCapture) (sessionId : String) :
    (capture.image sessionId).events.length = capture.records.length := by
  simp [SentCapture.image, captureImage, numberedFrom]

/-- Decoding undoes encoding: a capture in exact mode is accepted, its events are the images of its
    records sorted by time and numbered from the offset, and its counters are the header's. -/
theorem decodeCapture_encodeCapture (header : OutputHeader) (state : CaptureState)
    (reason : StopReason) (records : List AgentRecord) (bytes : Slice UInt8) (sessionId : String)
    (hflags : header.featureFlags = featureTransferRecords ||| featureNvtxRecords ∨
      header.featureFlags =
        featureHostMonotonicTimestamps ||| featureTransferRecords ||| featureNvtxRecords)
    (hstate : header.captureState = state.code) (hreason : header.stopReason = reason.code)
    (hcount : header.recordCount.toNat = records.length)
    (hcapacity : header.recordOffset.toNat + header.recordCount.toNat ≤
      header.recordCapacity.toNat)
    (hobserved : header.recordOffset.toNat + header.recordCount.toNat ≤
      header.observedRecords.toNat)
    (hdrops : header.agentDroppedRecords.toNat + header.cuptiDroppedRecords.toNat < 2 ^ 64)
    (hbytes : bytes.toList = encodeCapture header (records.map AgentRecord.record)) :
    ∃ capture, decodeCapture bytes.toList sessionId = .ok capture ∧
      capture.events = numberedFrom header.recordOffset
        (sortByKey Event.timestampNs
          (records.map (fun r => r.image header.featureFlags sessionId))) ∧
      capture.aggregateGroups = [] ∧
      capture.state = state ∧
      capture.stopReason = reason ∧
      capture.nvtxCallbacksActive = true ∧
      capture.recordOffset = header.recordOffset ∧
      capture.recordCapacity = header.recordCapacity ∧
      capture.observedRecords = header.observedRecords ∧
      capture.agentDroppedRecords = header.agentDroppedRecords ∧
      capture.cuptiDroppedRecords = header.cuptiDroppedRecords ∧
      capture.droppedRecords.toNat =
        header.agentDroppedRecords.toNat + header.cuptiDroppedRecords.toNat ∧
      capture.unknownRecords = header.unknownRecords := by
  have hbits : header.featureFlags &&& ~~~supportedFeatures = 0 ∧
      hasFeature header.featureFlags featureAggregateRecords = false ∧
      hasFeature header.featureFlags featureTransferRecords = true ∧
      hasFeature header.featureFlags featureNvtxRecords = true := by
    rcases hflags with hflags | hflags <;> rw [hflags] <;> decide
  obtain ⟨hsupported, hexact, htransfer, hnvtx⟩ := hbits
  have h : ExactHeader header state reason records :=
    { supported := hsupported
      exact_mode := hexact
      -- both optional features are set, so every kind is announced
      announced := fun r _ => by simp [RecordKind.announced, htransfer, hnvtx]
      state_code := hstate
      reason_code := hreason
      count := hcount
      capacity := by rw [← hcount]; exact hcapacity
      observed := by rw [← hcount]; exact hobserved
      drops := hdrops }
  refine ⟨captureImage header state reason records sessionId, decodeCapture_eq_image h hbytes _,
    rfl, rfl, rfl, rfl, hnvtx, rfl, rfl, rfl, rfl, rfl, ?_, rfl⟩
  exact toNat_of_checkedAdd (checkedAdd_eq_some.mpr ⟨hdrops, rfl⟩)

/-- A copy of 4 GiB and one byte to the device, started at a given time. -/
def copyStart (timestampNs : UInt64) (h : timestampNs ≠ 0) : AgentRecord :=
  { record :=
      { timestampNs, kind := RecordKind.gpuMemcpyStart.code, pid := 7, tid := 7, deviceId := 0
        contextId := 1, streamId := 3, correlationId := 9, callbackDomain := 0, callbackId := 0
        gridX := 1, gridY := 1, gridZ := 1, blockX := 0, blockY := 0, blockZ := 0
        runtimeCorrelationId := 0, name := List.replicate nameLength 0
        name_length := length_zeroName }
    kind := .gpuMemcpyStart
    name := ""
    kind_eq := rfl
    timestamp_ne := h
    name_eq := ⟨List.replicate 127 0, rfl⟩
    name_nul_free := by decide
    range_kind := nofun
    range_id := nofun
    start_thread := nofun
    complete_flag := nofun }

theorem twenty_ne_zero : (20 : UInt64) ≠ 0 := by decide

theorem thirty_ne_zero : (30 : UInt64) ≠ 0 := by decide

def stoppedHeader (recordCount recordOffset : UInt64) : OutputHeader :=
  { featureFlags := featureTransferRecords ||| featureNvtxRecords
    captureState := CaptureState.stopped.code
    stopReason := StopReason.requested.code
    recordCount
    recordCapacity := 10
    observedRecords := 13
    agentDroppedRecords := 1
    cuptiDroppedRecords := 2
    unknownRecords := 0
    recordOffset }

theorem decodeCapture_encodeCapture_copies : ∃ bytes : Slice UInt8,
      (decodeCapture bytes.toList "s").map (fun capture =>
          (capture.events.map (fun event => (event.sequence, event.timestampNs)),
            capture.droppedRecords)) =
        .ok ([(4, 20), (5, 30)], 3) := by
  let records := [copyStart 30 (by decide), copyStart 20 (by decide)]
  let bytes : Slice UInt8 :=
    ⟨encodeCapture (stoppedHeader 2 4) (records.map AgentRecord.record), by
      rw [length_encodeCapture]; decide⟩
  obtain ⟨capture, hdecode, hevents, -, -, -, -, -, -, -, -, -, hdropped, -⟩ :=
    decodeCapture_encodeCapture (stoppedHeader 2 4) .stopped .requested records bytes "s"
      (.inl rfl) rfl rfl rfl (by decide) (by decide) (by decide) rfl
  refine ⟨bytes, ?_⟩
  have hthree : capture.droppedRecords = 3 := UInt64.toNat_inj.mp hdropped
  rw [hdecode, Except.map, hevents, hthree]
  decide

theorem length_stoppedCapture {recordCount recordOffset : UInt64}
    (valid : ExactHeader (stoppedHeader recordCount recordOffset) .stopped .requested records) :
    (captureBytes (stoppedHeader recordCount recordOffset) records).length ≤ isizeMax := by
  have hcount : recordOffset.toNat + records.length ≤ 10 := valid.capacity
  rw [captureBytes, length_encodeCapture, List.length_map]
  simp only [headerSize, recordSize, isizeMax]
  omega

def stoppedCapture (records : List AgentRecord) (recordCount recordOffset : UInt64)
    (valid : ExactHeader (stoppedHeader recordCount recordOffset) .stopped .requested records) :
    SentCapture where
  header := stoppedHeader recordCount recordOffset
  state := .stopped
  reason := .requested
  records
  bytes :=
    { toList := captureBytes (stoppedHeader recordCount recordOffset) records
      length_le := length_stoppedCapture valid }
  bytes_eq := rfl
  valid

end Xprobe.Cupti
