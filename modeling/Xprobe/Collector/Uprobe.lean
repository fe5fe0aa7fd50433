import Xprobe.Core.Resolve

/-!
# The uprobe collector

`xprobe/collector/src/uprobe.rs`: a request is checked, raw records arrive through a BPF ring
buffer, and every record becomes an event. What the kernel contributes to a capture is a `BpfRun`.
Durations are in nanoseconds.
-/

namespace Xprobe.Collector

open Foundation Protocol
open Xprobe.Core (PathBuf IoError)

structure UprobeRequest where
  target : TargetIdentity
  binary : PathBuf
  symbol : Option String
  symbolDemangled : Option String
  offset : UInt64
  probeKind : HostProbeKind
  probeId : UInt32
  samples : Nat
  timeout : Nat
  deriving Repr, DecidableEq

inductive UprobeError where
  | invalidRequest (message : String)
  | targetNamespace (path : PathBuf) (source : IoError)
  | missingObjectMember (kind name : String)
  | libbpf (operation source : String)
  | malformedEvent (expected actual : Nat)
  deriving Repr, DecidableEq

structure HostCaptureResult where
  schemaVersion : SchemaVersion
  ok : Bool
  sessionId : String
  target : TargetIdentity
  probeId : UInt32
  captured : Nat
  dropped : UInt64
  timedOut : Bool
  recordLimitReached : Bool
  events : List Event

/-! ## Raw records -/

structure RawEvent where
  timestampNs : UInt64
  sequence : UInt64
  pid : UInt32
  tid : UInt32
  cpu : UInt32
  probeId : UInt32
  deriving Repr, DecidableEq

def rawEventSize : Nat := 32

/-- `RawEvent::decode`. -/
def RawEvent.decode (bytes : List UInt8) : Except UprobeError RawEvent := do
  ensure (bytes.length = rawEventSize) (.malformedEvent rawEventSize bytes.length)
  return {
    timestampNs := readU64 bytes 0
    sequence := readU64 bytes 8
    pid := readU32 bytes 16
    tid := readU32 bytes 20
    cpu := readU32 bytes 24
    probeId := readU32 bytes 28 }

/-- The ring-buffer callback: once enough samples arrived, further records are ignored. -/
def receiveRecord (limit : Nat) (events : List RawEvent) (bytes : List UInt8) :
    Except UprobeError (List RawEvent) :=
  if limit ≤ events.length then .ok events
  else do
    let event ← RawEvent.decode bytes
    return events ++ [event]

/-! ## Captures -/

/-- `validate_request`. -/
def validateRequest (request : UprobeRequest) : Except UprobeError Unit := do
  ensure (request.samples ≠ 0) (.invalidRequest "samples must be greater than zero")
  ensure (request.timeout ≠ 0) (.invalidRequest "timeout must be greater than zero")
  ensure (request.symbol ≠ some "") (.invalidRequest "symbol must not be empty")
  ensure (request.probeKind = .uprobe ∨ request.probeKind = .uretprobe)
    (.invalidRequest "userspace collector requires uprobe or uretprobe kind")

/-- `normalize_event`. -/
def normalizeEvent (raw : RawEvent) (request : UprobeRequest) (sessionId binaryPath : String) :
    Event :=
  let sequence := raw.sequence
  { schemaVersion := .current
    sessionId
    eventId := s!"evt_{sequence}"
    sequence
    source := .ebpf
    eventType :=
      if request.probeKind = .uretprobe then .hostFunctionExit else .hostFunctionEntry
    pid := raw.pid
    tid := raw.tid
    cpu := some raw.cpu
    timestampRaw := raw.timestampNs
    timestampNs := raw.timestampNs
    clockDomain := .hostMonotonic
    timestampErrorNs := none
    processStartTime := some request.target.processStartTime
    host := some
      { probeKind := request.probeKind
        binaryPath := some binaryPath
        buildId := none
        symbol := request.symbol
        symbolDemangled := request.symbolDemangled
        offset := if request.symbol.isNone then some request.offset else none
        returnValue := none
        arguments := [] }
    cuda := none
    nvtx := none
    attributes := .empty }

/-- What the kernel contributes to a capture: whether the deadline can be represented, whether the
    program loads and attaches, the records it delivers before the capture ends, and the drop
    counter. -/
structure BpfRun where
  deadlineFits : Bool
  attach : Except UprobeError Unit
  records : List (List UInt8)
  dropped : Except UprobeError UInt64

/-- `uprobe::capture`. -/
def capture (request : UprobeRequest) (bpf : BpfRun) (sessionId : String) :
    Except UprobeError HostCaptureResult := do
  validateRequest request
  ensure (bpf.deadlineFits = true) (.invalidRequest "timeout exceeds Instant range")
  ensure (request.target.pid.toNat < 2 ^ 31) (.invalidRequest "PID exceeds i32 range")
  let binaryPath ← okOr request.binary.toStr (.invalidRequest "binary path is not valid UTF-8")
  bpf.attach
  let rawEvents ← bpf.records.foldlM (receiveRecord request.samples) []
  let dropped ← bpf.dropped
  let events := rawEvents.map (normalizeEvent · request sessionId binaryPath)
  return {
    schemaVersion := .current
    ok := true
    sessionId
    target := request.target
    probeId := request.probeId
    captured := events.length
    dropped
    timedOut := decide (events.length < request.samples)
    recordLimitReached := false
    events }

/-- Every captured event is a normalized record, under the path of the request. -/
theorem capture_eq_ok {request : UprobeRequest} {bpf : BpfRun} {sessionId : String}
    {result : HostCaptureResult} (h : capture request bpf sessionId = .ok result) :
    ∃ binaryPath, request.binary.toStr = some binaryPath ∧
      ∀ event ∈ result.events, ∃ raw, event = normalizeEvent raw request sessionId binaryPath := by
  unfold capture at h
  obtain ⟨_, -, h⟩ := of_bind h
  obtain ⟨_, -, h⟩ := of_bind h
  obtain ⟨_, -, h⟩ := of_bind h
  obtain ⟨binaryPath, hpath, h⟩ := of_bind h
  obtain ⟨_, -, h⟩ := of_bind h
  obtain ⟨rawEvents, -, h⟩ := of_bind h
  obtain ⟨dropped, -, h⟩ := of_bind h
  cases h
  refine ⟨binaryPath, okOr_eq_ok_iff.mp hpath, ?_⟩
  intro event hevent
  obtain ⟨raw, -, rfl⟩ := List.mem_map.mp hevent
  exact ⟨raw, rfl⟩

end Xprobe.Collector
