import Xprobe.Foundation.Bytes

/-!
# The binary interface of the CUPTI agent

The structures that the agent and the collector exchange (`cupti/include/xprobe/cupti_agent.h`) and
their layout on a little-endian host. A structure is encoded as the concatenation of its fields; the
header and the record have no padding.
-/

namespace Xprobe.Cupti

open Foundation

/-! ## Constants -/

/-- `XPROBE_CUPTI_OUTPUT_MAGIC` with its terminator. -/
def outputMagic : List UInt8 := [0x58, 0x50, 0x43, 0x55, 0x50, 0x54, 0x49, 0]

def abiVersion : UInt32 := 4

def headerSize : Nat := 88

def recordSize : Nat := 200

/-- `XPROBE_CUPTI_NAME_LENGTH`. -/
def nameLength : Nat := 128

theorem length_zeroName : (List.replicate nameLength (0 : UInt8)).length = nameLength :=
  List.length_replicate

theorem length_paddedName {name : List UInt8} (h : name.length ≤ nameLength) :
    (name ++ List.replicate (nameLength - name.length) 0).length = nameLength := by
  rw [List.length_append, List.length_replicate]
  omega

def featureHostMonotonicTimestamps : UInt32 := 1

def featureTransferRecords : UInt32 := 2

def featureAggregateRecords : UInt32 := 4

def featureNvtxRecords : UInt32 := 8

/-- `SUPPORTED_FEATURES`. -/
def supportedFeatures : UInt32 :=
  featureHostMonotonicTimestamps ||| featureTransferRecords ||| featureAggregateRecords |||
    featureNvtxRecords

/-- `XPROBE_CUPTI_VALUE_UNKNOWN`. -/
def valueUnknown : UInt32 := 0xFFFFFFFF

def hasFeature (flags feature : UInt32) : Bool := flags &&& feature != 0

/-! ## Enumerations -/

/-- `enum xprobe_cupti_record_kind`. -/
inductive RecordKind where
  | cudaApiEntry
  | cudaApiExit
  | gpuKernelStart
  | gpuKernelEnd
  | gpuMemcpyStart
  | gpuMemcpyEnd
  | gpuMemsetStart
  | gpuMemsetEnd
  | nvtxRangeStart
  | nvtxRangeEnd
  deriving Repr, DecidableEq

def RecordKind.code : RecordKind → UInt32
  | .cudaApiEntry => 1
  | .cudaApiExit => 2
  | .gpuKernelStart => 3
  | .gpuKernelEnd => 4
  | .gpuMemcpyStart => 5
  | .gpuMemcpyEnd => 6
  | .gpuMemsetStart => 7
  | .gpuMemsetEnd => 8
  | .nvtxRangeStart => 9
  | .nvtxRangeEnd => 10

/-- `enum xprobe_cupti_capture_state`. -/
inductive CaptureState where
  | idle
  | active
  | limitReached
  | stopped
  | failed
  deriving Repr, DecidableEq

def CaptureState.code : CaptureState → UInt32
  | .idle => 0
  | .active => 1
  | .limitReached => 2
  | .stopped => 3
  | .failed => 4

/-- `enum xprobe_cupti_stop_reason`. -/
inductive StopReason where
  | none
  | requested
  | recordLimit
  | cuptiError
  | outputError
  deriving Repr, DecidableEq

def StopReason.code : StopReason → UInt32
  | .none => 0
  | .requested => 1
  | .recordLimit => 2
  | .cuptiError => 3
  | .outputError => 4

/-! ## The output header -/

/-- `struct xprobe_cupti_output_header`, without the fields that `initialize_output_header` fills
    with constants. -/
structure OutputHeader where
  featureFlags : UInt32
  captureState : UInt32
  stopReason : UInt32
  recordCount : UInt64
  recordCapacity : UInt64
  observedRecords : UInt64
  agentDroppedRecords : UInt64
  cuptiDroppedRecords : UInt64
  unknownRecords : UInt64
  recordOffset : UInt64
  deriving Repr, DecidableEq

def OutputHeader.encode (header : OutputHeader) : List UInt8 :=
  outputMagic ++ (leU32 abiVersion ++ (leU32 (UInt32.ofNat headerSize) ++
    (leU32 (UInt32.ofNat recordSize) ++ (leU32 header.featureFlags ++
    (leU32 header.captureState ++ (leU32 header.stopReason ++
    (leU64 header.recordCount ++ (leU64 header.recordCapacity ++
    (leU64 header.observedRecords ++ (leU64 header.agentDroppedRecords ++
    (leU64 header.cuptiDroppedRecords ++ (leU64 header.unknownRecords ++
    leU64 header.recordOffset))))))))))))

theorem OutputHeader.length_encode (header : OutputHeader) : header.encode.length = headerSize := by
  simp [OutputHeader.encode, outputMagic, headerSize]

/-! ## Records -/

/-- `struct xprobe_cupti_record`. The name is the whole character array. -/
structure Record where
  timestampNs : UInt64
  kind : UInt32
  pid : UInt32
  tid : UInt32
  deviceId : UInt32
  contextId : UInt32
  streamId : UInt32
  correlationId : UInt32
  callbackDomain : UInt32
  callbackId : UInt32
  gridX : UInt32
  gridY : UInt32
  gridZ : UInt32
  blockX : UInt32
  blockY : UInt32
  blockZ : UInt32
  runtimeCorrelationId : UInt32
  name : List UInt8
  name_length : name.length = nameLength

def Record.encode (record : Record) : List UInt8 :=
  leU64 record.timestampNs ++ (leU32 record.kind ++ (leU32 record.pid ++
    (leU32 record.tid ++ (leU32 record.deviceId ++ (leU32 record.contextId ++
    (leU32 record.streamId ++ (leU32 record.correlationId ++
    (leU32 record.callbackDomain ++ (leU32 record.callbackId ++
    (leU32 record.gridX ++ (leU32 record.gridY ++ (leU32 record.gridZ ++
    (leU32 record.blockX ++ (leU32 record.blockY ++ (leU32 record.blockZ ++
    (leU32 record.runtimeCorrelationId ++ record.name))))))))))))))))

theorem Record.length_encode (record : Record) : record.encode.length = recordSize := by
  simp [Record.encode, record.name_length, recordSize, nameLength]

def encodeCapture (header : OutputHeader) (records : List Record) : List UInt8 :=
  header.encode ++ (records.map Record.encode).flatten

theorem length_encodeCapture (header : OutputHeader) (records : List Record) :
    (encodeCapture header records).length = headerSize + records.length * recordSize := by
  have hpieces : ∀ piece ∈ records.map Record.encode, piece.length = recordSize := by
    intro piece hpiece
    obtain ⟨record, -, rfl⟩ := List.mem_map.mp hpiece
    exact record.length_encode
  rw [encodeCapture, List.length_append, OutputHeader.length_encode,
    length_flatten_of_forall hpieces, List.length_map]

end Xprobe.Cupti
