import Xprobe.Core.Agreement
import Xprobe.Collector.Uprobe

/-!
# Host collectors of a live measurement

`start_host_collectors` (`xprobe/cli/src/main.rs`) turns the resolved probes of a validated
measurement into requests to the uprobe collector. An event that the collector produces carries the
canonical path of its binary, and the correlator compares it with the path in the selector's text.
-/

namespace Xprobe.Cli

open Foundation Protocol
open Xprobe.Core Xprobe.Collector
open Correlator (RegexEngine Selector MeasureOptions)

/-! ## Requests -/

/-- The probes of the two endpoints, one for each selector text. -/
def hostProbes (validation : ValidationResult) : List ResolvedProbe :=
  [validation.startEndpoint, validation.endEndpoint].foldl (fun probes endpoint =>
    match endpoint.host with
    | some probe =>
      if probes.any (fun existing => existing.selector == probe.selector) then probes
      else probes ++ [probe]
    | none => probes) []

/-- How long the host collectors run. -/
def hostTimeout (options : MeasureOptions) (timeout : Nat) : Nat :=
  match options.duration with
  | some duration => min duration timeout
  | none => timeout

/-- How many samples each host collector takes. -/
def hostSamples (options : MeasureOptions) : Nat := options.samples.getD options.maxEvents

/-- The request for one probe. A probe of a symbol is attached by name, at offset zero. -/
def uprobeRequest (report : ProcessReport) (options : MeasureOptions) (timeout index : Nat)
    (probe : ResolvedProbe) : UprobeRequest :=
  { target := report.target
    binary := .ofString probe.binaryPath
    symbol := probe.symbol
    symbolDemangled := probe.symbolDemangled
    offset := if probe.symbol.isSome then 0 else probe.fileOffset
    probeKind := probe.probeKind
    probeId := UInt32.ofNat (index + 1)
    samples := hostSamples options
    timeout := hostTimeout options timeout }

/-- The uprobe part of `start_host_collectors`: the probes, each with its request. -/
def uprobeRequests (report : ProcessReport) (validation : ValidationResult)
    (options : MeasureOptions) (timeout : Nat) : List (ResolvedProbe × UprobeRequest) :=
  (hostProbes validation).mapIdx (fun index probe =>
    (probe, uprobeRequest report options timeout index probe))

/-! ## Events of a probe -/

/-- The canonical path of a selector's binary is written like the path in the selector. -/
def CanonicalText (system : System) (selector : HostSelector) : Prop :=
  (system.canonicalize selector.binary).map system.toStringLossy =
    .ok (system.toStringLossy selector.binary)

/-- An event of a probe's request is matched exactly when the paths are the same text: its type,
    its kind and its target always fit the selector. -/
private theorem matchesEvent_iff {system : System} {report : ProcessReport} {text : String}
    {probe : ResolvedProbe} {selector : HostSelector} {canonical : PathBuf}
    (h : Resolution system text probe selector canonical) (options : MeasureOptions)
    (timeout index : Nat) (raw : RawEvent) (sessionId binaryPath binary : String) :
    (Selector.host selector.boundary.eventType selector.boundary.probeKind binary
        selector.target.toHostTarget).matchesEvent
        (normalizeEvent raw (uprobeRequest report options timeout index probe) sessionId
          binaryPath) = true ↔ binaryPath = binary := by
  have htype : (if selector.boundary.probeKind = .uretprobe then EventType.hostFunctionExit
      else .hostFunctionEntry) = selector.boundary.eventType := by
    cases selector.boundary <;> rfl
  unfold Selector.matchesEvent
  cases htarget : selector.target with
  | symbol name =>
    obtain ⟨mangled, hsymbol, hname⟩ := h.named name htarget
    have hmatched : probe.symbol = some name ∨ probe.symbolDemangled = some name :=
      hname.imp_left (fun heq => hsymbol.trans (congrArg some heq))
    simp [htype, ProbeTarget.toHostTarget, normalizeEvent, uprobeRequest, h.probe_kind, hmatched]
  | fileOffset offset =>
    obtain ⟨hsymbol, hoffset⟩ := h.located offset htarget
    simp [htype, ProbeTarget.toHostTarget, normalizeEvent, uprobeRequest, h.probe_kind, hsymbol,
      hoffset]

/-- Every event of a resolved probe is matched by the correlator's selector of the same text exactly
    when canonicalization does not change how the path is written. -/
theorem uprobe_event_matched_iff (regexNew : RegexEngine) (system : System)
    (report : ProcessReport) (text : String) (probe : ResolvedProbe)
    (validation : ValidationResult) (options : MeasureOptions) (timeout : Nat)
    (request : UprobeRequest) (bpf : BpfRun) (sessionId : String) (result : HostCaptureResult)
    (hresolve : resolveRun system report text = .ok probe)
    (hrequest : (probe, request) ∈ uprobeRequests report validation options timeout)
    (hcapture : capture request bpf sessionId = .ok result) :
    ∃ selector hostSelector, Selector.parse regexNew text = .ok selector ∧
      parseSelector text = .ok hostSelector ∧
      ∀ event ∈ result.events,
        (selector.matchesEvent event = true ↔ CanonicalText system hostSelector) := by
  obtain ⟨hostSelector, canonical, h⟩ := resolveRun_eq_ok hresolve
  obtain ⟨binary, hbinary, hparse⟩ := parse_of_parseSelector h.parsed regexNew
  refine ⟨_, hostSelector, hparse, h.parsed, ?_⟩
  intro event hevent
  obtain ⟨binaryPath, hpath, hnormalized⟩ := capture_eq_ok hcapture
  obtain ⟨raw, rfl⟩ := hnormalized event hevent
  obtain ⟨index, hindex, hpair⟩ := List.mem_mapIdx.mp hrequest
  obtain ⟨hprobe, hrequest⟩ := Prod.mk.inj hpair
  rw [hprobe] at hrequest
  subst hrequest
  have hwritten : binaryPath = system.toStringLossy canonical := by
    rw [← h.binary_path]
    simpa [uprobeRequest, PathBuf.toStr, PathBuf.ofString] using hpath.symm
  rw [matchesEvent_iff h, hwritten, CanonicalText, h.canonical, hbinary, toStringLossy_ofString]
  exact ⟨fun heq => congrArg Except.ok heq, fun heq => Except.ok.inj heq⟩

/-- The probe of the entry of `read`, resolved from a selector. -/
def readProbe (selector : String) : ResolvedProbe :=
  { schemaVersion := .current, ok := true, target := exampleReport.target, selector
    binaryPath := "/usr/lib/libc.so", buildId := none, objectKind := .sharedLibrary
    probeKind := .uprobe, symbol := some "read", symbolDemangled := none
    symbolVirtualAddress := some 16, symbolSize := some 8, fileOffset := 16
    runtimeAddress := 0x1010
    mapping := { startAddress := 0x1000, endAddress := 0x2000, fileOffset := 0 } }

/-- A measurement from the entry of `read` to any kernel. -/
def readValidation (selector : String) : ValidationResult :=
  { schemaVersion := .current, ok := true, valid := true, target := exampleReport.target
    startEndpoint :=
      { selector, source := .host, eventType := .hostFunctionEntry, collectable := true
        host := some (readProbe selector), linux := none, cuda := none }
    endEndpoint :=
      { selector := "cuda:kernel_start", source := .cuda, eventType := .gpuKernelStart
        collectable := true, host := none, linux := none
        cuda := some (plainCudaSelector .gpuKernelStart) }
    matchPolicy := .firstAfter
    policyRecommendation :=
      { policy := .firstAfter, reason := .temporalOrderOnly
        compatiblePolicies := [.firstAfter, .nearest] }
    requirements :=
      { needsEbpf := true, needsCupti := true, needsCuptiCallback := false
        needsCuptiActivity := true, needsNvtx := false, needsClockAlignment := true
        agentActivation := .alreadyLoaded, targetMutation := false }
    issues := []
    warnings := [] }

def readOptions (selector : String) : MeasureOptions :=
  { sessionId := "s", name := none, startSelector := selector, endSelector := "cuda:kernel_start"
    matchPolicy := .firstAfter, samples := some 1, duration := none, maxEvents := 10
    droppedEvents := 0 }

def oneRecord : BpfRun :=
  { deadlineFits := true, attach := .ok (), records := [List.replicate 32 0], dropped := .ok 0 }

/-- The request for the probe of `read`. -/
def readRequest (selector : String) : UprobeRequest :=
  uprobeRequest exampleReport (readOptions selector) 1000 0 (readProbe selector)

/-- The event that the record becomes. -/
def readEvent (selector : String) : Event :=
  normalizeEvent ⟨0, 0, 0, 0, 0, 0⟩ (readRequest selector) "s" "/usr/lib/libc.so"

theorem uprobe_event_matched_canonical :
    ∃ selector, Selector.parse Core.anyRegex "uprobe:/usr/lib/libc.so:read:entry" = .ok selector ∧
      selector.matchesEvent (readEvent "uprobe:/usr/lib/libc.so:read:entry") = true := by
  have hresolve : resolveRun libcSystem.toSystem exampleReport
      "uprobe:/usr/lib/libc.so:read:entry" =
      .ok (readProbe "uprobe:/usr/lib/libc.so:read:entry") := by decide
  obtain ⟨selector, hostSelector, hparse, hhost, hmatched⟩ :=
    uprobe_event_matched_iff Core.anyRegex libcSystem.toSystem exampleReport
      "uprobe:/usr/lib/libc.so:read:entry" _ (readValidation "uprobe:/usr/lib/libc.so:read:entry")
      (readOptions "uprobe:/usr/lib/libc.so:read:entry") 1000
      (readRequest "uprobe:/usr/lib/libc.so:read:entry") oneRecord "s" _ hresolve
      List.mem_cons_self rfl
  refine ⟨selector, hparse, (hmatched _ List.mem_cons_self).mpr ?_⟩
  cases hhost
  rfl

/-- Through a symbolic link the function is resolved and its event collected, but the correlator
    does not match the event. -/
theorem uprobe_event_unmatched_link :
    resolveRun libcSystem.toSystem exampleReport "uprobe:/lib/libc.so:read:entry" =
        .ok (readProbe "uprobe:/lib/libc.so:read:entry") ∧
      (readProbe "uprobe:/lib/libc.so:read:entry",
        readRequest "uprobe:/lib/libc.so:read:entry") ∈
        uprobeRequests exampleReport (readValidation "uprobe:/lib/libc.so:read:entry")
          (readOptions "uprobe:/lib/libc.so:read:entry") 1000 ∧
      (∃ result, capture (readRequest "uprobe:/lib/libc.so:read:entry") oneRecord "s" =
          .ok result ∧
        readEvent "uprobe:/lib/libc.so:read:entry" ∈ result.events) ∧
      ∃ selector, Selector.parse Core.anyRegex "uprobe:/lib/libc.so:read:entry" = .ok selector ∧
        selector.matchesEvent (readEvent "uprobe:/lib/libc.so:read:entry") = false := by
  refine ⟨by decide, List.mem_cons_self, ⟨_, rfl, List.mem_cons_self⟩, _, rfl, by decide⟩

end Xprobe.Cli
