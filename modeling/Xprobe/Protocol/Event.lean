import Xprobe.Foundation.Word
import Xprobe.Foundation.BTreeMap

/-!
# Events

The event record that every collector produces and that the correlator consumes
(`xprobe/protocol/src/event.rs`).
-/

namespace Xprobe.Protocol

open Foundation

/-- The JSON values that event attributes hold. Collectors only write integers, so a number is an
    integer here. -/
inductive Value where
  | null
  | bool (value : Bool)
  | number (value : Int)
  | string (value : String)
  | array (values : List Value)
  | object (members : List (String × Value))

/-- `serde_json::Value::as_str`. -/
def Value.asStr : Value → Option String
  | .string value => some value
  | _ => none

inductive SchemaVersion where
  | v2
  deriving Repr, DecidableEq

def SchemaVersion.current : SchemaVersion := .v2

inductive EventSource where
  | ebpf
  | cuptiCallback
  | cuptiActivity
  | marker
  deriving Repr, DecidableEq

inductive EventType where
  | hostFunctionEntry
  | hostFunctionExit
  | kernelFunctionEntry
  | kernelFunctionExit
  | tracepoint
  | syscallEntry
  | syscallExit
  | cudaApiEntry
  | cudaApiExit
  | gpuKernelStart
  | gpuKernelEnd
  | gpuMemcpyStart
  | gpuMemcpyEnd
  | gpuMemsetStart
  | gpuMemsetEnd
  | nvtxRangeStart
  | nvtxRangeEnd
  | pythonGcStart
  | pythonGcEnd
  | marker
  deriving Repr, DecidableEq

inductive ClockDomain where
  | hostMonotonic
  | cupti
  | cuptiNormalizedToHostMonotonic
  deriving Repr, DecidableEq

inductive HostProbeKind where
  | uprobe
  | uretprobe
  | kprobe
  | kretprobe
  | tracepoint
  | syscall
  | usdt
  deriving Repr, DecidableEq

structure ArgumentValue where
  index : UInt16
  abiType : String
  value : Option Value
  readError : Option String

structure HostEvent where
  probeKind : HostProbeKind
  binaryPath : Option String
  buildId : Option String
  symbol : Option String
  symbolDemangled : Option String
  offset : Option UInt64
  returnValue : Option Int64
  arguments : List ArgumentValue

structure Dim3 where
  x : UInt32
  y : UInt32
  z : UInt32
  deriving Repr, DecidableEq

inductive MemcpyKind where
  | hostToDevice
  | deviceToHost
  | deviceToDevice
  | hostToHost
  | peerToPeer
  | unknown
  deriving Repr, DecidableEq

structure CudaEvent where
  deviceId : Option UInt32
  contextId : Option UInt32
  streamId : Option UInt64
  correlationId : Option UInt32
  runtimeCorrelationId : Option UInt32
  callbackDomain : Option UInt32
  callbackId : Option UInt32
  kernelName : Option String
  kernelNameMangled : Option String
  startNs : Option UInt64
  endNs : Option UInt64
  grid : Option Dim3
  block : Option Dim3
  bytes : Option UInt64
  memcpyKind : Option MemcpyKind
  deriving Repr, DecidableEq

inductive NvtxRangeKind where
  | thread
  | process
  deriving Repr, DecidableEq

structure NvtxEvent where
  name : String
  nameComplete : Bool
  rangeKind : NvtxRangeKind
  rangeId : UInt64
  startTid : UInt32
  deriving Repr, DecidableEq

structure Event where
  schemaVersion : SchemaVersion
  sessionId : String
  eventId : String
  sequence : UInt64
  source : EventSource
  eventType : EventType
  pid : UInt32
  tid : UInt32
  cpu : Option UInt32
  timestampRaw : UInt64
  timestampNs : UInt64
  clockDomain : ClockDomain
  timestampErrorNs : Option UInt64
  processStartTime : Option UInt64
  host : Option HostEvent
  cuda : Option CudaEvent
  nvtx : Option NvtxEvent
  attributes : BTreeMap String Value

/-- The text value of an attribute: `attributes.get(name).and_then(Value::as_str)`. -/
def Event.attributeStr (event : Event) (name : String) : Option String :=
  (event.attributes.get? name).bind Value.asStr

end Xprobe.Protocol
