import Xprobe.Protocol.Event

/-!
# Processes and resolved probes

The inspected process and the probes resolved against it (`xprobe/protocol/src/process.rs`,
`capability.rs`, `resolve.rs` and `error.rs`). A process report keeps the fields that resolution
and validation read.
-/

namespace Xprobe.Protocol

inductive ErrorCode where
  | permissionDenied
  | targetNotFound
  | targetExited
  | targetReused
  | ambiguousTarget
  | symbolNotFound
  | binaryNotMapped
  | invalidEventSelector
  | invalidCorrelationPolicy
  | cuptiNotAvailable
  | cuptiAgentNotLoaded
  | cudaContextNotFound
  | unsupportedCudaVersion
  | eventRateTooHigh
  | sessionLimitExceeded
  | noMatchedSamples
  | highUnmatchedRate
  | eventsDropped
  | clockAlignmentFailed
  | traceExportFailed
  | cleanupFailed
  | internal
  deriving Repr, DecidableEq

structure TargetIdentity where
  pid : UInt32
  processStartTime : UInt64
  deriving Repr, DecidableEq

structure Capabilities where
  uprobe : Bool
  uretprobe : Bool
  tracepoint : Bool
  cudaCallback : Bool
  cudaActivity : Bool
  runtimeInjection : Bool
  deriving Repr, DecidableEq

structure ProcessCudaState where
  libcudaLoaded : Bool
  libcudartLoaded : Bool
  xprobeCuptiLoaded : Bool
  deriving Repr, DecidableEq

structure ProcessReport where
  target : TargetIdentity
  executable : String
  cuda : ProcessCudaState
  capabilities : Capabilities
  deriving Repr, DecidableEq

inductive ElfObjectKind where
  | executable
  | positionIndependentExecutable
  | sharedLibrary
  deriving Repr, DecidableEq

structure ProcessMapping where
  startAddress : UInt64
  endAddress : UInt64
  fileOffset : UInt64
  deriving Repr, DecidableEq

structure ResolvedProbe where
  schemaVersion : SchemaVersion
  ok : Bool
  target : TargetIdentity
  selector : String
  binaryPath : String
  buildId : Option String
  objectKind : ElfObjectKind
  probeKind : HostProbeKind
  symbol : Option String
  symbolDemangled : Option String
  symbolVirtualAddress : Option UInt64
  symbolSize : Option UInt64
  fileOffset : UInt64
  runtimeAddress : UInt64
  mapping : ProcessMapping
  deriving Repr, DecidableEq

end Xprobe.Protocol
