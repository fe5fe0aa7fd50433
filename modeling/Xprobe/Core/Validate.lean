import Xprobe.Protocol.Validation
import Xprobe.Core.Resolve
import Xprobe.Correlator.Selector

/-!
# Validation of a measurement

`xprobe/core/src/validate.rs`: both selectors are parsed and resolved, and the endpoints are
compared with the correlation policy and the capabilities of the target. The parsers are separate
from the correlator's; only the pattern helpers `regex_literal` and `is_bounded_name_regex`, which
the source repeats word for word, are shared here.
-/

namespace Xprobe.Core

open Foundation Protocol
open Correlator (RegexEngine validLinuxComponent isBoundedNameRegex)

/-! ## Endpoints -/

/-- The text of a `UsdtError`. -/
structure UsdtError where
  text : String
  deriving Repr, DecidableEq

inductive ValidateError where
  | inspect (error : InspectError)
  | resolve (endpoint : String) (source : ResolveError)
  | usdt (error : UsdtError)
  | invalidSelector (reason : Message)
  | invalidCorrelationPolicy (policy : String)
  deriving Repr, DecidableEq

inductive EndpointKind where
  | hostEntry
  | hostReturn
  | syscallEntry (name : String)
  | syscallExit (name : String)
  | tracepoint
  | pythonGcStart
  | pythonGcEnd
  | cudaApi (domain name : String)
  | kernel
  | memcpy
  | memset
  | nvtxRange (nameRegex : String)
  deriving Repr, DecidableEq

namespace EndpointKind

/-- `EndpointKind::needs_callback`. -/
def needsCallback : EndpointKind → Bool
  | cudaApi .. | nvtxRange .. => true
  | _ => false

/-- `EndpointKind::needs_activity`. -/
def needsActivity : EndpointKind → Bool
  | kernel | memcpy | memset => true
  | _ => false

/-- `EndpointKind::is_host`. -/
def isHost : EndpointKind → Bool
  | hostEntry | hostReturn | syscallEntry .. | syscallExit .. | tracepoint | pythonGcStart
  | pythonGcEnd => true
  | _ => false

/-- `EndpointKind::uses_host_clock`. -/
def usesHostClock : EndpointKind → Bool
  | hostEntry | hostReturn | syscallEntry .. | syscallExit .. | tracepoint | pythonGcStart
  | pythonGcEnd | cudaApi .. | nvtxRange .. => true
  | _ => false

/-- `EndpointKind::needs_nvtx`. -/
def needsNvtx : EndpointKind → Bool
  | nvtxRange .. => true
  | _ => false

def isHostFunction : EndpointKind → Bool
  | hostEntry | hostReturn => true
  | _ => false

end EndpointKind

abbrev ProbelessKind := { kind : EndpointKind // kind.isHostFunction = false }

/-- `Endpoint`: a host function endpoint has a resolved probe. -/
structure Endpoint where
  validated : ValidatedEndpoint
  kind : EndpointKind
  host_isSome : kind.isHostFunction = true → validated.host.isSome = true

def Endpoint.probe (endpoint : Endpoint) (h : endpoint.kind.isHostFunction = true) :
    ResolvedProbe :=
  endpoint.validated.host.get (endpoint.host_isSome h)

def invalidSelector {α : Type} (reason : String) : Except ValidateError α :=
  .error (.invalidSelector (Message.of reason))

/-! ## Linux selectors -/

/-- The table of `syscall_number`, for x86-64. -/
def syscallNumbers : List (String × UInt32) :=
  [("read", 0), ("write", 1), ("close", 3), ("fstat", 5), ("poll", 7), ("lseek", 8), ("mmap", 9),
    ("mprotect", 10), ("munmap", 11), ("brk", 12), ("ioctl", 16), ("pread64", 17),
    ("pwrite64", 18), ("readv", 19), ("writev", 20), ("sched_yield", 24), ("mremap", 25),
    ("msync", 26), ("mincore", 27), ("madvise", 28), ("nanosleep", 35), ("getpid", 39),
    ("socket", 41), ("connect", 42), ("accept", 43), ("sendto", 44), ("recvfrom", 45),
    ("sendmsg", 46), ("recvmsg", 47), ("clone", 56), ("fork", 57), ("vfork", 58),
    ("execve", 59), ("exit", 60), ("wait4", 61), ("fcntl", 72), ("flock", 73), ("fsync", 74),
    ("fdatasync", 75), ("getdents", 78), ("futex", 202), ("sched_setaffinity", 203),
    ("sched_getaffinity", 204), ("gettid", 186), ("epoll_wait", 232), ("epoll_ctl", 233),
    ("tgkill", 234), ("openat", 257), ("newfstatat", 262), ("pselect6", 270), ("ppoll", 271),
    ("unshare", 272), ("splice", 275), ("epoll_pwait", 281), ("accept4", 288),
    ("eventfd2", 290), ("epoll_create1", 291), ("dup3", 292), ("pipe2", 293), ("preadv", 295),
    ("pwritev", 296), ("perf_event_open", 298), ("recvmmsg", 299), ("prlimit64", 302),
    ("sendmmsg", 307), ("getcpu", 309), ("process_vm_readv", 310), ("process_vm_writev", 311),
    ("sched_setattr", 314), ("sched_getattr", 315), ("seccomp", 317), ("getrandom", 318),
    ("memfd_create", 319), ("bpf", 321), ("execveat", 322), ("userfaultfd", 323),
    ("membarrier", 324), ("mlock2", 325), ("copy_file_range", 326), ("preadv2", 327),
    ("pwritev2", 328), ("statx", 332), ("rseq", 334), ("pidfd_send_signal", 424),
    ("io_uring_setup", 425), ("io_uring_enter", 426), ("io_uring_register", 427),
    ("pidfd_open", 434), ("clone3", 435), ("close_range", 436), ("openat2", 437),
    ("pidfd_getfd", 438), ("faccessat2", 439), ("process_madvise", 440), ("epoll_pwait2", 441),
    ("futex_waitv", 449)]

/-- `syscall_number`. -/
def syscallNumber (name : String) : Option UInt32 := syscallNumbers.lookup name

/-- `valid_tracepoint_component`, the same test as the correlator's `valid_linux_component`. -/
def validTracepointComponent (value : String) : Bool := validLinuxComponent value

def parseSyscallBoundary (name boundary : String) :
    Except ValidateError (EventType × ProbelessKind) :=
  match boundary with
  | "entry" => .ok (.syscallEntry, ⟨.syscallEntry name, rfl⟩)
  | "exit" => .ok (.syscallExit, ⟨.syscallExit name, rfl⟩)
  | _ => invalidSelector "syscall boundary must be entry or exit"

/-- The form of a syscall selector. -/
def syscallUsage : String := "syscall selector must be syscall:<name>:<entry|exit>"

/-- The form of a tracepoint selector. -/
def tracepointUsage : String := "tracepoint selector must be tracepoint:<category>:<name>"

/-- `parse_linux_selector`, compiled for x86-64. -/
def parseLinuxSelector (selector : String) :
    Except ValidateError (ResolvedLinuxSelector × ProbelessKind) :=
  match Text.split ':' selector with
  | ["syscall", name, boundary] =>
    if !validTracepointComponent name then invalidSelector syscallUsage
    else do
      let syscallNumber ← okOr (syscallNumber name)
        (.invalidSelector [.lit "syscall ", .debug name, .lit " is not supported on x86_64"])
      let (eventType, kind) ← parseSyscallBoundary name boundary
      return (
        { eventType, probeKind := .syscall, category := "syscalls", name
          syscallNumber := some syscallNumber, binaryPath := none, provider := none },
        kind)
  | "syscall" :: _ => invalidSelector syscallUsage
  | ["tracepoint", category, name] =>
    if !(validTracepointComponent category && validTracepointComponent name) then
      invalidSelector tracepointUsage
    else
      .ok (
        { eventType := .tracepoint, probeKind := .tracepoint, category, name
          syscallNumber := none, binaryPath := none, provider := none },
        ⟨.tracepoint, rfl⟩)
  | "tracepoint" :: _ => invalidSelector tracepointUsage
  | _ => invalidSelector "expected uprobe:, syscall:, tracepoint:, python:, or cuda: prefix"

/-- The markers of the garbage collector. -/
def parsePythonMarker (selector : String) :
    Except ValidateError (EventType × ProbelessKind × String) :=
  match selector with
  | "python:gc_start" => .ok (.pythonGcStart, ⟨.pythonGcStart, rfl⟩, "gc__start")
  | "python:gc_end" => .ok (.pythonGcEnd, ⟨.pythonGcEnd, rfl⟩, "gc__done")
  | _ => invalidSelector "Python selector must be python:<gc_start|gc_end>"

/-- `parse_python_selector`. `probes` is the answer of `usdt::find_python_gc_probes`: the binary
    that has the probes, if any. -/
def parsePythonSelector (probes : Except UsdtError (Option String)) (selector : String) :
    Except ValidateError (ResolvedLinuxSelector × ProbelessKind × Bool) := do
  let (eventType, kind, name) ← parsePythonMarker selector
  let binaryPath ← probes.mapError .usdt
  return (
    { eventType, probeKind := .usdt, category := "python", name, syscallNumber := none
      binaryPath, provider := some "python" },
    kind, binaryPath.isSome)

/-! ## CUDA selectors -/

def plainCudaSelector (eventType : EventType) : ResolvedCudaSelector :=
  { eventType, apiDomain := none, apiName := none, kernelNameRegex := none, nvtxNameRegex := none
    memcpyKind := none }

def parseKernelPattern (regexNew : RegexEngine) (filter : String) :
    Except ValidateError String := do
  let pattern ← okOr (Text.stripPrefix filter "name~")
    (.invalidSelector (Message.of "kernel filter must use name~<regular-expression>"))
  ensure (pattern ≠ "")
    (.invalidSelector (Message.of "kernel name regular expression must not be empty"))
  let _ ← (regexNew pattern).mapError (fun error =>
    .invalidSelector [.lit "invalid kernel name regular expression: ", .display error])
  return pattern

/-- `parse_kernel_selector`, the event name already read. -/
def parseKernelSelector (regexNew : RegexEngine) (eventType : EventType)
    (filter : Option String) : Except ValidateError (ResolvedCudaSelector × ProbelessKind × Bool) :=
  match filter with
  | none => .ok (plainCudaSelector eventType, ⟨.kernel, rfl⟩, true)
  | some filter => do
    let pattern ← parseKernelPattern regexNew filter
    return ({ plainCudaSelector eventType with kernelNameRegex := some pattern }, ⟨.kernel, rfl⟩, true)

/-- The copy kind of a memory-copy filter. -/
def parseMemcpyKind (kind : String) : Option MemcpyKind :=
  match kind with
  | "HtoD" => some .hostToDevice
  | "DtoH" => some .deviceToHost
  | "DtoD" => some .deviceToDevice
  | "HtoH" => some .hostToHost
  | "PtoP" => some .peerToPeer
  | _ => none

/-- `parse_memcpy_selector`, the event name already read. -/
def parseMemcpySelector (eventType : EventType) (filter : Option String) :
    Except ValidateError (ResolvedCudaSelector × ProbelessKind × Bool) :=
  match filter with
  | none => .ok (plainCudaSelector eventType, ⟨.memcpy, rfl⟩, true)
  | some filter => do
    let kind ← okOr (Text.stripPrefix filter "kind=")
      (.invalidSelector (Message.of "memcpy filter must use kind=<HtoD|DtoH|DtoD|HtoH|PtoP>"))
    let memcpyKind ← okOr (parseMemcpyKind kind)
      (.invalidSelector [.lit "unsupported memcpy kind ", .debug kind])
    return ({ plainCudaSelector eventType with memcpyKind := some memcpyKind }, ⟨.memcpy, rfl⟩, true)

/-- `parse_memset_selector`, the event name already read. -/
def parseMemsetSelector (selector : String) (eventType : EventType) (filter : Option String) :
    Except ValidateError (ResolvedCudaSelector × ProbelessKind × Bool) :=
  match filter with
  | none => .ok (plainCudaSelector eventType, ⟨.memset, rfl⟩, true)
  | some _ =>
    .error (.invalidSelector
      [.lit "memset selector ", .debug selector, .lit " does not accept a filter"])

/-- The name pattern of an NVTX filter: it must compile before it must be bounded. -/
def parseNvtxPattern (regexNew : RegexEngine) (filter : String) : Except ValidateError String := do
  let pattern ← okOr (Text.stripPrefix filter "name~")
    (.invalidSelector
      (Message.of "NVTX range filter must use name~<bounded-regular-expression>"))
  let _ ← (regexNew pattern).mapError (fun error =>
    .invalidSelector [.lit "invalid NVTX range name regular expression: ", .display error])
  ensure (isBoundedNameRegex pattern = true)
    (.invalidSelector (Message.of "NVTX range name must reduce to one nonempty exact, prefix, suffix, or contains filter shorter than 128 bytes"))
  return pattern

/-- `parse_nvtx_selector`, the event name already read. -/
def parseNvtxSelector (regexNew : RegexEngine) (eventType : EventType) (filter : Option String) :
    Except ValidateError (ResolvedCudaSelector × ProbelessKind × Bool) := do
  let filter ← okOr filter
    (.invalidSelector
      (Message.of "NVTX range selector requires name~<bounded-regular-expression>"))
  let pattern ← parseNvtxPattern regexNew filter
  return ({ plainCudaSelector eventType with nvtxNameRegex := some pattern },
    ⟨.nvtxRange pattern, rfl⟩, true)

def parseApiBoundary (boundary : String) : Except ValidateError EventType :=
  match boundary with
  | "entry" => .ok .cudaApiEntry
  | "exit" => .ok .cudaApiExit
  | _ => invalidSelector "CUDA API boundary must be entry or exit"

/-- `parse_api_selector`. -/
def parseApiSelector (selector : String) :
    Except ValidateError (ResolvedCudaSelector × ProbelessKind × Bool) :=
  let usage := "CUDA API selector must be cuda:<runtime_api|driver_api>:<name>:<entry|exit>"
  match Text.split ':' selector with
  | [_, domain, name, boundary] =>
    if name = "" then invalidSelector usage
    else do
      let eventType ← parseApiBoundary boundary
      let collectable := domain == "runtime_api" || domain == "driver_api"
      return (
        { plainCudaSelector eventType with apiDomain := some domain, apiName := some name },
        ⟨.cudaApi domain name, rfl⟩, collectable)
  | _ => invalidSelector usage

def parseCudaEvent (regexNew : RegexEngine) (selector event : String) (filter : Option String) :
    Except ValidateError (ResolvedCudaSelector × ProbelessKind × Bool) :=
  match event with
  | "kernel_start" => parseKernelSelector regexNew .gpuKernelStart filter
  | "kernel_end" => parseKernelSelector regexNew .gpuKernelEnd filter
  | "memcpy_start" => parseMemcpySelector .gpuMemcpyStart filter
  | "memcpy_end" => parseMemcpySelector .gpuMemcpyEnd filter
  | "memset_start" => parseMemsetSelector selector .gpuMemsetStart filter
  | "memset_end" => parseMemsetSelector selector .gpuMemsetEnd filter
  | "nvtx_range_start" => parseNvtxSelector regexNew .nvtxRangeStart filter
  | "nvtx_range_end" => parseNvtxSelector regexNew .nvtxRangeEnd filter
  | "runtime_api" => parseApiSelector selector
  | "driver_api" => parseApiSelector selector
  | event => .error (.invalidSelector [.lit "unsupported CUDA event ", .debug event])

/-- `parse_cuda_selector`. -/
def parseCudaSelector (regexNew : RegexEngine) (selector : String) :
    Except ValidateError (ResolvedCudaSelector × ProbelessKind × Bool) :=
  match Text.splitn 3 ':' selector with
  | "cuda" :: event :: rest => parseCudaEvent regexNew selector event rest.head?
  | _ => invalidSelector "expected uprobe:, syscall:, tracepoint:, or cuda: prefix"

/-! ## Endpoints of a measurement -/

/-- What the resolution of one endpoint asks its environment. -/
structure EndpointSystem extends System where
  pythonGcProbes : Except UsdtError (Option String)

/-- The event type and the kind of a host function endpoint. Resolution returns no other probe
    kinds, and the source has `unreachable!` for them. -/
def hostFunctionKind (probeKind : HostProbeKind) : EventType × EndpointKind :=
  match probeKind with
  | .uretprobe => (.hostFunctionExit, .hostReturn)
  | _ => (.hostFunctionEntry, .hostEntry)

def probelessEndpoint (selector : String) (source : EndpointSource) (eventType : EventType)
    (collectable : Bool) (linux : Option ResolvedLinuxSelector)
    (cuda : Option ResolvedCudaSelector) (kind : ProbelessKind) : Endpoint :=
  { validated := { selector, source, eventType, collectable, host := none, linux, cuda }
    kind := kind.val
    host_isSome := fun h => absurd h (by simp [kind.property]) }

/-- `resolve_endpoint`. -/
def resolveEndpoint (regexNew : RegexEngine) (system : EndpointSystem) (report : ProcessReport)
    (selector endpoint : String) : Except ValidateError Endpoint :=
  if Text.startsWith selector "uprobe:" then do
    let host ← (resolveRun system.toSystem report selector).mapError (.resolve endpoint)
    let (eventType, kind) := hostFunctionKind host.probeKind
    return {
      validated :=
        { selector, source := .host, eventType, collectable := true, host := some host
          linux := none, cuda := none }
      kind
      host_isSome := fun _ => rfl }
  else if Text.startsWith selector "syscall:" || Text.startsWith selector "tracepoint:" then do
    let (linux, kind) ← parseLinuxSelector selector
    return probelessEndpoint selector .host linux.eventType true (some linux) none kind
  else if Text.startsWith selector "python:" then do
    let (linux, kind, collectable) ← parsePythonSelector system.pythonGcProbes selector
    return probelessEndpoint selector .host linux.eventType collectable (some linux) none kind
  else do
    let (cuda, kind, collectable) ← parseCudaSelector regexNew selector
    return probelessEndpoint selector .cuda cuda.eventType collectable none (some cuda) kind

/-! ## Policies -/

/-- `parse_match_policy`. -/
def parseMatchPolicy (policy : String) : Except ValidateError MatchPolicy :=
  match policy with
  | "exact" => .ok .exact
  | "first-after" | "first_after" => .ok .firstAfter
  | "nearest" => .ok .nearest
  | "stack-nested" | "stack_nested" => .ok .stackNested
  | "stream-order" | "stream_order" => .ok .streamOrder
  | _ => .error (.invalidCorrelationPolicy policy)

/-- The API call launches a kernel. -/
def isLaunch (domain name : String) : Bool :=
  (domain == "runtime_api" && name == "cudaLaunchKernel") ||
    (domain == "driver_api" && name == "cuLaunchKernel")

/-- `supports_exact`. -/
def supportsExact : EndpointKind → EndpointKind → Bool
  | .cudaApi startDomain startName, .cudaApi endDomain endName =>
    startDomain == endDomain && startName == endName
  | .kernel, .kernel | .memcpy, .memcpy | .memset, .memset | .pythonGcStart, .pythonGcEnd => true
  | .nvtxRange startName, .nvtxRange endName
  | .syscallEntry startName, .syscallExit endName => startName == endName
  | .cudaApi domain name, .kernel | .kernel, .cudaApi domain name => isLaunch domain name
  | _, _ => false

/-- `supports_stack_nested`. -/
def supportsStackNested (startPoint endPoint : Endpoint) : Bool :=
  if h : startPoint.kind = .hostEntry ∧ endPoint.kind = .hostReturn then
    let startProbe := startPoint.probe (by rw [h.1]; rfl)
    let endProbe := endPoint.probe (by rw [h.2]; rfl)
    startProbe.binaryPath == endProbe.binaryPath && startProbe.fileOffset == endProbe.fileOffset
  else false

/-- `supports_stream_order`. -/
def supportsStreamOrder (startKind endKind : EndpointKind) : Bool :=
  startKind.needsActivity && endKind.needsActivity

/-- `warning`. -/
def warning (code message : String) : Warning := { code, message, details := .empty }

/-- `check_policy`: the issues and the warnings that it adds. -/
def checkPolicy (startPoint endPoint : Endpoint) (policy : MatchPolicy) :
    List ValidationIssue × List Warning :=
  let incompatible (message : String) : List ValidationIssue × List Warning :=
    ([{ code := .invalidCorrelationPolicy, message }], [])
  match policy with
  | .exact =>
    if supportsExact startPoint.kind endPoint.kind then ([], [])
    else
      incompatible "exact matching requires endpoints that share a deterministic correlation key"
  | .firstAfter =>
    ([], [warning "HEURISTIC_CORRELATION"
      "first-after matching does not prove request-level causality"])
  | .nearest =>
    ([], [warning "HEURISTIC_CORRELATION"
      "nearest-event matching does not prove request-level causality"])
  | .stackNested =>
    if supportsStackNested startPoint endPoint then ([], [])
    else
      incompatible
        "stack-nested matching requires entry and return probes for the same host function"
  | .streamOrder =>
    if supportsStreamOrder startPoint.kind endPoint.kind then ([], [])
    else incompatible "stream-order matching requires two GPU activity endpoints"

/-- `recommend_policy`. -/
def recommendPolicy (startPoint endPoint : Endpoint) : PolicyRecommendation :=
  let compatiblePolicies :=
    (if supportsStackNested startPoint endPoint then [MatchPolicy.stackNested] else []) ++
      (if supportsExact startPoint.kind endPoint.kind then [.exact] else []) ++
      (if supportsStreamOrder startPoint.kind endPoint.kind then [.streamOrder] else []) ++
      [.firstAfter, .nearest]
  let (policy, reason) : MatchPolicy × PolicyRecommendationReason :=
    if MatchPolicy.stackNested ∈ compatiblePolicies then (.stackNested, .hostCallFrame)
    else if MatchPolicy.exact ∈ compatiblePolicies then (.exact, .deterministicCorrelationKey)
    else if MatchPolicy.streamOrder ∈ compatiblePolicies then (.streamOrder, .cudaStreamOrder)
    else (.firstAfter, .temporalOrderOnly)
  { policy, reason, compatiblePolicies }

/-! ## Capabilities -/

/-- `check_collectability`. -/
def checkCollectability (endpoint : Endpoint) (name : String) : List ValidationIssue :=
  let selector := endpoint.validated.selector
  if endpoint.validated.collectable then []
  else
    match endpoint.kind with
    | .pythonGcStart | .pythonGcEnd =>
      [{ code := .invalidEventSelector
         message := s!"{name} selector {selector} requires mapped CPython ELF metadata exposing python:gc__start and python:gc__done USDT probes" }]
    | _ =>
      [{ code := .invalidEventSelector
         message := s!"{name} selector {selector} is recognized but not collected by this build" }]

def eitherKind (startPoint endPoint : Endpoint) (test : EndpointKind → Bool) : Bool :=
  test startPoint.kind || test endPoint.kind

/-- The eBPF part of `check_capabilities`. -/
def checkEbpfCapabilities (report : ProcessReport) (startPoint endPoint : Endpoint) :
    List ValidationIssue :=
  let needsUprobe := eitherKind startPoint endPoint (· == .hostEntry)
  let needsUretprobe := eitherKind startPoint endPoint (· == .hostReturn)
  let needsUsdt := eitherKind startPoint endPoint
    (fun kind => kind == .pythonGcStart || kind == .pythonGcEnd)
  let needsTracepoint := eitherKind startPoint endPoint (fun kind =>
    match kind with
    | .syscallEntry _ | .syscallExit _ | .tracepoint => true
    | _ => false)
  if ((needsUprobe || needsUsdt) && !report.capabilities.uprobe) ||
      (needsUretprobe && !report.capabilities.uretprobe) ||
      (needsTracepoint && !report.capabilities.tracepoint) then
    [{ code := .permissionDenied, message := "required eBPF probe capability is unavailable" }]
  else []

/-- The CUPTI part of `check_capabilities`. -/
def checkCuptiCapabilities (report : ProcessReport) (requirements : ValidationRequirements) :
    List ValidationIssue × List Warning :=
  let unavailable : List ValidationIssue :=
    (if requirements.needsCuptiCallback && !report.capabilities.cudaCallback then
      [{ code := .cuptiNotAvailable
         message := "CUPTI callback collection is unavailable for the target" }]
    else []) ++
    (if requirements.needsCuptiActivity && !report.capabilities.cudaActivity then
      [{ code := .cuptiNotAvailable
         message := "CUPTI activity collection is unavailable for the target" }]
    else [])
  match requirements.agentActivation with
  | .injectionRequired =>
    ([], [warning "TARGET_PROCESS_WILL_BE_MODIFIED"
      "measure must inject the xprobe CUPTI agent into the target process"])
  | .startupRequired =>
    ([{ code := .cuptiAgentNotLoaded
        message := "NVTX ranges cannot be enabled by online attach after NVTX initialization; restart the target with NVTX_INJECTION64_PATH set to the xprobe CUPTI agent" }], [])
  | .notRequired | .alreadyLoaded => (unavailable, [])

/-- `check_selector_breadth`. -/
def checkSelectorBreadth (endpoint : Endpoint) (name : String) : List Warning :=
  let broadKernel := endpoint.kind == .kernel &&
    endpoint.validated.cuda.any (fun cuda =>
      cuda.kernelNameRegex.all (fun pattern => pattern == ".*" || pattern == "^.*$"))
  if broadKernel then
    [warning "BROAD_EVENT_SELECTOR" s!"{name} selector matches every CUDA kernel activity"]
  else []

/-! ## Validation -/

def requirementsOf (report : ProcessReport) (startPoint endPoint : Endpoint) :
    ValidationRequirements :=
  let needsCuptiCallback := eitherKind startPoint endPoint EndpointKind.needsCallback
  let needsCuptiActivity := eitherKind startPoint endPoint EndpointKind.needsActivity
  let needsNvtx := eitherKind startPoint endPoint EndpointKind.needsNvtx
  let needsCupti := needsCuptiCallback || needsCuptiActivity
  let agentActivation : AgentActivation :=
    if !needsCupti then .notRequired
    else if report.cuda.xprobeCuptiLoaded then .alreadyLoaded
    else if needsNvtx then .startupRequired
    else .injectionRequired
  { needsEbpf := eitherKind startPoint endPoint EndpointKind.isHost
    needsCupti
    needsCuptiCallback
    needsCuptiActivity
    needsNvtx
    needsClockAlignment := startPoint.kind.usesHostClock != endPoint.kind.usesHostClock
    agentActivation
    targetMutation := agentActivation == .injectionRequired }

/-- What validation asks its environment: the start time of the target is read before and after,
    and each endpoint is resolved on its own. `targetMajor` is the answer of
    `cupti_compat::target_major`, its error as the issue it becomes. -/
structure ValidateSystem where
  startTimeBefore : Except InspectError UInt64
  startTimeAfter : Except InspectError UInt64
  startSystem : EndpointSystem
  endSystem : EndpointSystem
  targetMajor : Except ValidationIssue (Option UInt32)

/-- `check_cupti_compatibility`. -/
def checkCuptiCompatibility (targetMajor : Except ValidationIssue (Option UInt32))
    (requirements : ValidationRequirements) : List ValidationIssue :=
  if !requirements.needsCupti then []
  else
    match targetMajor with
    | .ok _ => []
    | .error issue => [issue]

/-- `validate::run`. -/
def validateRun (regexNew : RegexEngine) (system : ValidateSystem) (report : ProcessReport)
    (startSelector endSelector matchPolicy : String) :
    Except ValidateError ValidationResult := do
  (verifyTarget system.startTimeBefore report.target).mapError .inspect
  let startPoint ← resolveEndpoint regexNew system.startSystem report startSelector "start"
  let endPoint ← resolveEndpoint regexNew system.endSystem report endSelector "end"
  let matchPolicy ← parseMatchPolicy matchPolicy
  let requirements := requirementsOf report startPoint endPoint
  let ebpfIssues :=
    if requirements.needsEbpf then checkEbpfCapabilities report startPoint endPoint else []
  let (cuptiIssues, cuptiWarnings) := checkCuptiCapabilities report requirements
  let (policyIssues, policyWarnings) := checkPolicy startPoint endPoint matchPolicy
  let issues := checkCollectability startPoint "start" ++ checkCollectability endPoint "end" ++
    ebpfIssues ++ cuptiIssues ++ checkCuptiCompatibility system.targetMajor requirements ++
    policyIssues
  (verifyTarget system.startTimeAfter report.target).mapError .inspect
  return {
    schemaVersion := .current
    ok := true
    valid := issues.isEmpty
    target := report.target
    startEndpoint := startPoint.validated
    endEndpoint := endPoint.validated
    matchPolicy
    policyRecommendation := recommendPolicy startPoint endPoint
    requirements
    issues
    warnings := cuptiWarnings ++ policyWarnings ++ checkSelectorBreadth startPoint "start" ++
      checkSelectorBreadth endPoint "end" }

/-! ## What a validated measurement says -/

/-- A validated measurement has the endpoints that its selectors resolve to, and their
    requirements. -/
theorem validateRun_eq_ok {regexNew : RegexEngine} {system : ValidateSystem}
    {report : ProcessReport} {startSelector endSelector matchPolicy : String}
    {validation : ValidationResult}
    (h : validateRun regexNew system report startSelector endSelector matchPolicy =
      .ok validation) :
    ∃ startPoint endPoint,
      resolveEndpoint regexNew system.startSystem report startSelector "start" = .ok startPoint ∧
      resolveEndpoint regexNew system.endSystem report endSelector "end" = .ok endPoint ∧
      validation.startEndpoint = startPoint.validated ∧
      validation.endEndpoint = endPoint.validated ∧
      validation.requirements = requirementsOf report startPoint endPoint := by
  unfold validateRun at h
  obtain ⟨_, -, h⟩ := of_bind h
  obtain ⟨startPoint, hstart, h⟩ := of_bind h
  obtain ⟨endPoint, hend, h⟩ := of_bind h
  obtain ⟨policy, -, h⟩ := of_bind h
  obtain ⟨_, -, h⟩ := of_bind h
  cases h
  exact ⟨startPoint, endPoint, hstart, hend, rfl, rfl, rfl⟩

end Xprobe.Core
