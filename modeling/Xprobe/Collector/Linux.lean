import Xprobe.Protocol.Validation
import Xprobe.Collector.Uprobe

/-!
# The Linux collector

`xprobe/collector/src/linux.rs`: one or two syscall, tracepoint or USDT endpoints are captured
through one BPF ring buffer. The kernel tags each record with the number of its endpoint, and the
endpoint gives the event its type.
-/

namespace Xprobe.Collector.Linux

open Foundation Protocol
open Xprobe.Core (PathBuf IoError)

structure LinuxCaptureRequest where
  target : TargetIdentity
  probes : List ResolvedLinuxSelector
  eventLimit : Nat
  capacityLimit : Bool
  timeout : Nat
  deriving Repr, DecidableEq

inductive LinuxCaptureError where
  | invalidRequest (message : String)
  | targetNamespace (path : PathBuf) (source : IoError)
  | missingObjectMember (kind name : String)
  | libbpf (operation source : String)
  | malformedEvent (expected actual : Nat)
  | unknownProbeId (probeId : UInt32)
  deriving Repr, DecidableEq

/-! ## Raw records -/

structure RawEvent where
  timestampNs : UInt64
  sequence : UInt64
  values : Vector UInt64 6
  pid : UInt32
  tid : UInt32
  cpu : UInt32
  probeId : UInt32
  deriving Repr, DecidableEq

/-- `RAW_EVENT_SIZE`. -/
def rawEventSize : Nat := 80

/-- `RawEvent::decode`. -/
def RawEvent.decode (bytes : List UInt8) : Except LinuxCaptureError RawEvent := do
  ensure (bytes.length = rawEventSize) (.malformedEvent rawEventSize bytes.length)
  return {
    timestampNs := readU64 bytes 0
    sequence := readU64 bytes 8
    values := Vector.ofFn (fun index => readU64 bytes (16 + index.val * 8))
    pid := readU32 bytes 64
    tid := readU32 bytes 68
    cpu := readU32 bytes 72
    probeId := readU32 bytes 76 }

/-- The ring-buffer callback: once the limit is reached, further records are ignored. -/
def receiveRecord (limit : Nat) (events : List RawEvent) (bytes : List UInt8) :
    Except LinuxCaptureError (List RawEvent) :=
  if limit ≤ events.length then .ok events
  else do
    let event ← RawEvent.decode bytes
    return events ++ [event]

/-! ## Requests -/

/-- The metadata of an endpoint fits its probe kind. -/
def validProbe (probe : ResolvedLinuxSelector) : Bool :=
  let valid :=
    match probe.probeKind with
    | .syscall =>
      (probe.eventType == .syscallEntry || probe.eventType == .syscallExit) &&
        probe.category == "syscalls" && probe.syscallNumber.isSome && probe.binaryPath.isNone &&
        probe.provider.isNone
    | .tracepoint =>
      probe.eventType == .tracepoint && probe.syscallNumber.isNone && probe.binaryPath.isNone &&
        probe.provider.isNone
    | .usdt =>
      (probe.eventType == .pythonGcStart || probe.eventType == .pythonGcEnd) &&
        probe.category == "python" && probe.syscallNumber.isNone &&
        probe.binaryPath.any (· ≠ "") && probe.provider == some "python"
    | _ => false
  valid && probe.category ≠ "" && probe.name ≠ ""

/-- `validate_request`. -/
def validateRequest (request : LinuxCaptureRequest) : Except LinuxCaptureError Unit := do
  ensure (¬(request.probes = [] ∨ 2 < request.probes.length))
    (.invalidRequest "Linux collector requires one or two endpoints")
  ensure (request.eventLimit ≠ 0) (.invalidRequest "max-events must be greater than zero")
  ensure (request.timeout ≠ 0) (.invalidRequest "timeout must be greater than zero")
  ensure (request.probes.all validProbe = true)
    (.invalidRequest "Linux endpoint metadata is inconsistent")

/-- The ring size of `load_object`: the records, rounded up to a power of two. -/
def ringBytes (eventLimit : Nat) : Nat :=
  let rounded := (eventLimit * rawEventSize).nextPowerOfTwo
  max (256 * 1024) (if rounded < 2 ^ 64 then rounded else usizeMax)

/-! ## Captures -/

/-- `normalize_event`. -/
def normalizeEvent (raw : RawEvent) (request : LinuxCaptureRequest) (sessionId : String) :
    Except LinuxCaptureError Event := do
  let probe ← okOr request.probes[raw.probeId.toNat - 1]? (.unknownProbeId raw.probeId)
  let sequence := raw.sequence
  return {
    schemaVersion := .current
    sessionId
    eventId := s!"evt_{sequence}"
    sequence
    source := .ebpf
    eventType := probe.eventType
    pid := raw.pid
    tid := raw.tid
    cpu := some raw.cpu
    timestampRaw := raw.timestampNs
    timestampNs := raw.timestampNs
    clockDomain := .hostMonotonic
    timestampErrorNs := none
    processStartTime := some request.target.processStartTime
    host := some
      { probeKind := probe.probeKind
        binaryPath := probe.binaryPath
        buildId := none
        symbol := some probe.name
        symbolDemangled := none
        offset := none
        returnValue :=
          if probe.eventType = .syscallExit then some raw.values[0].toInt64 else none
        arguments :=
          if probe.eventType = .syscallEntry then
            raw.values.toList.mapIdx (fun index value =>
              { index := UInt16.ofNat index, abiType := "u64", value := some (.number value.toNat)
                readError := none })
          else [] }
    cuda := none
    nvtx := none
    attributes :=
      if probe.probeKind = .usdt then
        BTreeMap.empty.insert "usdt_provider" (.string (probe.provider.getD ""))
      else BTreeMap.empty.insert "tracepoint_category" (.string probe.category) }

/-- What the kernel contributes to a capture, as for the uprobe collector. -/
structure BpfRun where
  deadlineFits : Bool
  attach : Except LinuxCaptureError Unit
  records : List (List UInt8)
  dropped : Except LinuxCaptureError UInt64

/-- `linux::capture`. -/
def capture (request : LinuxCaptureRequest) (bpf : BpfRun) (sessionId : String) :
    Except LinuxCaptureError HostCaptureResult := do
  validateRequest request
  ensure (bpf.deadlineFits = true) (.invalidRequest "timeout exceeds Instant range")
  ensure (ringBytes request.eventLimit < 2 ^ 32)
    (.invalidRequest "max-events requires a Linux ring buffer larger than u32")
  bpf.attach
  let rawEvents ← bpf.records.foldlM (receiveRecord request.eventLimit) []
  let dropped ← bpf.dropped
  let events ← rawEvents.mapM (normalizeEvent · request sessionId)
  return {
    schemaVersion := .current
    ok := true
    sessionId
    target := request.target
    probeId := 0
    captured := events.length
    dropped
    timedOut := decide (events.length < request.eventLimit)
    recordLimitReached := request.capacityLimit && decide (events.length = request.eventLimit)
    events }

/-- Every captured event is a normalized record of a valid request. -/
theorem capture_eq_ok {request : LinuxCaptureRequest} {bpf : BpfRun} {sessionId : String}
    {result : HostCaptureResult} (h : capture request bpf sessionId = .ok result) :
    request.probes.all validProbe = true ∧
      ∀ event ∈ result.events, ∃ raw, normalizeEvent raw request sessionId = .ok event := by
  unfold capture at h
  obtain ⟨_, hvalid, h⟩ := of_bind h
  obtain ⟨_, -, h⟩ := of_bind h
  obtain ⟨_, -, h⟩ := of_bind h
  obtain ⟨_, -, h⟩ := of_bind h
  obtain ⟨rawEvents, -, h⟩ := of_bind h
  obtain ⟨dropped, -, h⟩ := of_bind h
  obtain ⟨events, hevents, h⟩ := of_bind h
  cases h
  unfold validateRequest at hvalid
  obtain ⟨_, -, hvalid⟩ := of_bind hvalid
  obtain ⟨_, -, hvalid⟩ := of_bind hvalid
  obtain ⟨_, -, hvalid⟩ := of_bind hvalid
  refine ⟨ensure_eq_ok_iff.mp hvalid, ?_⟩
  intro event hevent
  have hmem : Except.ok event ∈ rawEvents.map (normalizeEvent · request sessionId) := by
    rw [mapM_eq_ok_iff.mp hevents]
    exact List.mem_map_of_mem hevent
  obtain ⟨raw, -, hraw⟩ := List.mem_map.mp hmem
  exact ⟨raw, hraw⟩

end Xprobe.Collector.Linux
