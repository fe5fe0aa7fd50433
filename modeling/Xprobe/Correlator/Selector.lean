import Xprobe.Foundation.Text
import Xprobe.Protocol.Event

/-!
# Selectors of the correlator

`Selector::parse`, `Selector::matches` and the compatibility tests between two selectors
(`xprobe/correlator/src/lib.rs`). The regular-expression crate is a parameter: a `RegexEngine`
compiles a pattern or reports why it cannot.
-/

namespace Xprobe.Correlator

open Foundation Protocol

/-! ## Regular expressions -/

/-- A compiled regular expression. -/
structure Regex where
  isMatch : String → Bool

/-- `Regex::new`: the compiled expression, or the text of the error. -/
abbrev RegexEngine := String → Except String Regex

/-! ## Errors -/

inductive MeasureError where
  | invalidSelector (reason : Message)
  | invalidPolicy (reason : Message)
  | invalidLimit (reason : Message)
  | eventLimitExceeded (actual maximum : Nat)
  | eventsDropped (count : UInt64)
  | clockDomainsDiffer (startDomain endDomain : ClockDomain)
  | noMatchedSamples
  deriving Repr, DecidableEq

def invalidSelector {α : Type} (reason : String) : Except MeasureError α :=
  .error (.invalidSelector (Message.of reason))

/-! ## Selectors -/

inductive HostTarget where
  | symbol (name : String)
  | offset (value : UInt64)
  deriving Repr, DecidableEq

inductive Selector where
  | host (eventType : EventType) (probeKind : HostProbeKind) (binaryPath : String)
      (target : HostTarget)
  | syscall (eventType : EventType) (name : String)
  | tracepoint (category name : String)
  | pythonGc (eventType : EventType) (marker : String)
  | api (eventType : EventType) (domain name : String)
  | kernel (eventType : EventType) (name : Option Regex)
  | memcpy (eventType : EventType) (kind : Option MemcpyKind)
  | memset (eventType : EventType)
  | nvtx (eventType : EventType) (name : Regex) (pattern : String)

/-! ## Bounded name patterns -/

/-- `valid_linux_component`. A byte test in the source; a character outside ASCII has no
    alphanumeric byte, so it is a character test here. -/
def validLinuxComponent (value : String) : Bool :=
  !value.toList.isEmpty && value.toList.all (fun c => Text.isAsciiAlphanumeric c || c == '_')

/-- The literal text of a pattern without operators, escapes resolved. -/
def regexLiteralChars : List Char → Option (List Char)
  | [] => some []
  | '\\' :: [] => none
  | '\\' :: escaped :: rest =>
    if Text.isAsciiAlphanumeric escaped then none
    else (regexLiteralChars rest).map (escaped :: ·)
  | c :: rest =>
    if (".+*?()|[]\x7b\x7d^$".toList).contains c then none
    else (regexLiteralChars rest).map (c :: ·)

/-- `regex_literal`. -/
def regexLiteral (pattern : String) : Option String :=
  (regexLiteralChars pattern.toList).map String.ofList

/-- The anchors around a literal that `is_bounded_name_regex` tries, in its order. -/
def boundedNameCandidates : List (String × String) :=
  [("^", "$"), ("^", ".*"), (".*", "$"), (".*", ".*"), ("^", ""), ("", "$"), (".*", ""), ("", "")]

def anchoredLiteral (pattern : String) (anchors : String × String) : Option String :=
  ((Text.stripPrefix pattern anchors.1).bind (Text.stripSuffix · anchors.2)).bind regexLiteral

/-- `is_bounded_name_regex`. -/
def isBoundedNameRegex (pattern : String) : Bool :=
  boundedNameCandidates.any (fun anchors =>
    match anchoredLiteral pattern anchors with
    | some literal => literal != "" && decide (literal.utf8ByteSize < 128)
    | none => false)

namespace Selector

/-! ## Parsing -/

/-- The target after the binary path of a host selector. -/
def parseHostTarget (target : String) : Except MeasureError HostTarget :=
  match Text.stripPrefix target "+0x" with
  | some hex =>
    match Text.fromStrRadix16 hex with
    | some offset => .ok (.offset offset)
    | none => invalidSelector "uprobe offset must be hexadecimal after +0x"
  | none =>
    if Text.startsWith target "+" then
      invalidSelector "uprobe offset must use +0x hexadecimal syntax"
    else .ok (.symbol target)

def parseHostBoundary (boundary : String) : Except MeasureError (EventType × HostProbeKind) :=
  match boundary with
  | "entry" => .ok (.hostFunctionEntry, .uprobe)
  | "return" => .ok (.hostFunctionExit, .uretprobe)
  | _ => invalidSelector "uprobe boundary must be entry or return"

/-- The binary path and the target text of a host selector: cut at the first `:symbol=`, otherwise
    at the last colon. -/
def splitHostTarget (binaryAndTarget : String) : Except MeasureError (String × String) :=
  match Text.splitOnceStr binaryAndTarget ":symbol=" with
  | some parts => .ok parts
  | none =>
    match Text.rsplitOnce binaryAndTarget ':' with
    | some parts => .ok parts
    | none => invalidSelector "uprobe selector requires a binary path and symbol or offset"

/-- `Selector::parse_host`, on the text after `uprobe:`. -/
def parseHost (rest : String) : Except MeasureError Selector :=
  match Text.rsplitOnce rest ':' with
  | none => invalidSelector "uprobe selector requires an entry or return boundary"
  | some (binaryAndTarget, boundary) => do
    let (eventType, probeKind) ← parseHostBoundary boundary
    let (binaryPath, target) ← splitHostTarget binaryAndTarget
    if binaryPath = "" ∨ target = "" then
      invalidSelector "uprobe binary path and target must not be empty"
    else
      let target ← parseHostTarget target
      .ok (.host eventType probeKind binaryPath target)

/-- `Selector::parse_api`. -/
def parseApi (text : String) : Except MeasureError Selector :=
  let usage := "API selector must be cuda:<runtime_api|driver_api>:<name>:<entry|exit>"
  match Text.split ':' text with
  | [_, domain, name, boundary] =>
    if name = "" then invalidSelector usage
    else
      match boundary with
      | "entry" => .ok (.api .cudaApiEntry domain name)
      | "exit" => .ok (.api .cudaApiExit domain name)
      | _ => invalidSelector "CUDA API boundary must be entry or exit"
  | _ => invalidSelector usage

/-- `Selector::parse_syscall`. -/
def parseSyscall (text : String) : Except MeasureError Selector :=
  match Text.split ':' text with
  | ["syscall", name, boundary] =>
    if !validLinuxComponent name then
      invalidSelector "syscall name must contain only letters, digits, and underscores"
    else
      match boundary with
      | "entry" => .ok (.syscall .syscallEntry name)
      | "exit" => .ok (.syscall .syscallExit name)
      | _ => invalidSelector "syscall boundary must be entry or exit"
  | _ => invalidSelector "syscall selector must be syscall:<name>:<entry|exit>"

/-- `Selector::parse_tracepoint`. -/
def parseTracepoint (text : String) : Except MeasureError Selector :=
  match Text.split ':' text with
  | ["tracepoint", category, name] =>
    if !validLinuxComponent category || !validLinuxComponent name then
      invalidSelector
        "tracepoint category and name must contain only letters, digits, and underscores"
    else .ok (.tracepoint category name)
  | _ => invalidSelector "tracepoint selector must be tracepoint:<category>:<name>"

/-- `Selector::parse_python`. -/
def parsePython (text : String) : Except MeasureError Selector :=
  match text with
  | "python:gc_start" => .ok (.pythonGc .pythonGcStart "gc__start")
  | "python:gc_end" => .ok (.pythonGc .pythonGcEnd "gc__done")
  | _ => invalidSelector "Python selector must be python:<gc_start|gc_end>"

/-- `Selector::parse_kernel`, the event name already read. -/
def parseKernel (regexNew : RegexEngine) (eventType : EventType) (filter : Option String) :
    Except MeasureError Selector :=
  match filter with
  | none => .ok (.kernel eventType none)
  | some filter =>
    match Text.stripPrefix filter "name~" with
    | none => invalidSelector "kernel filter must use name~<regular-expression>"
    | some pattern =>
      if pattern = "" then invalidSelector "kernel name regular expression must not be empty"
      else
        match regexNew pattern with
        | .ok regex => .ok (.kernel eventType (some regex))
        | .error error =>
          .error (.invalidSelector
            [.lit "invalid kernel name regular expression: ", .display error])

/-- The copy kind of a memory-copy filter. -/
def parseMemcpyKind (kind : String) : Option MemcpyKind :=
  match kind with
  | "HtoD" => some .hostToDevice
  | "DtoH" => some .deviceToHost
  | "DtoD" => some .deviceToDevice
  | "HtoH" => some .hostToHost
  | "PtoP" => some .peerToPeer
  | _ => none

/-- `Selector::parse_memcpy`, the event name already read. -/
def parseMemcpy (eventType : EventType) (filter : Option String) : Except MeasureError Selector :=
  match filter with
  | none => .ok (.memcpy eventType none)
  | some filter =>
    match Text.stripPrefix filter "kind=" with
    | none => invalidSelector "memcpy filter must use kind=<HtoD|DtoH|DtoD|HtoH|PtoP>"
    | some kind =>
      match parseMemcpyKind kind with
      | some kind => .ok (.memcpy eventType (some kind))
      | none => .error (.invalidSelector [.lit "unsupported memcpy kind ", .debug kind])

/-- `Selector::parse_memset`, the event name already read. -/
def parseMemset (text : String) (eventType : EventType) (filter : Option String) :
    Except MeasureError Selector :=
  match filter with
  | none => .ok (.memset eventType)
  | some _ =>
    .error (.invalidSelector
      [.lit "memset selector ", .debug text, .lit " does not accept a filter"])

/-- `Selector::parse_nvtx`, the event name already read. -/
def parseNvtx (regexNew : RegexEngine) (eventType : EventType) (filter : Option String) :
    Except MeasureError Selector :=
  match filter with
  | none => invalidSelector "NVTX range selector requires name~<bounded-regular-expression>"
  | some filter =>
    match Text.stripPrefix filter "name~" with
    | none => invalidSelector "NVTX range filter must use name~<bounded-regular-expression>"
    | some pattern =>
      if !isBoundedNameRegex pattern then
        invalidSelector "NVTX range name must reduce to one nonempty exact, prefix, suffix, or contains filter shorter than 128 bytes"
      else
        match regexNew pattern with
        | .ok regex => .ok (.nvtx eventType regex pattern)
        | .error error =>
          .error (.invalidSelector
            [.lit "invalid NVTX range name regular expression: ", .display error])

/-- The `cuda:` selectors, by event name. -/
def parseCuda (regexNew : RegexEngine) (text event : String) (filter : Option String) :
    Except MeasureError Selector :=
  match event with
  | "runtime_api" => parseApi text
  | "driver_api" => parseApi text
  | "kernel_start" => parseKernel regexNew .gpuKernelStart filter
  | "kernel_end" => parseKernel regexNew .gpuKernelEnd filter
  | "memcpy_start" => parseMemcpy .gpuMemcpyStart filter
  | "memcpy_end" => parseMemcpy .gpuMemcpyEnd filter
  | "memset_start" => parseMemset text .gpuMemsetStart filter
  | "memset_end" => parseMemset text .gpuMemsetEnd filter
  | "nvtx_range_start" => parseNvtx regexNew .nvtxRangeStart filter
  | "nvtx_range_end" => parseNvtx regexNew .nvtxRangeEnd filter
  | event =>
    .error (.invalidSelector
      [.lit "event ", .debug event, .lit " is not present in completed CUPTI captures"])

/-- `Selector::parse`. -/
def parse (regexNew : RegexEngine) (text : String) : Except MeasureError Selector :=
  match Text.stripPrefix text "uprobe:" with
  | some rest => parseHost rest
  | none =>
    if Text.startsWith text "syscall:" then parseSyscall text
    else if Text.startsWith text "tracepoint:" then parseTracepoint text
    else if Text.startsWith text "python:" then parsePython text
    else
      -- at most three fields, so the filter keeps its own colons
      match Text.splitn 3 ':' text with
      | "cuda" :: event :: rest => parseCuda regexNew text event rest.head?
      | _ =>
        invalidSelector
          "completed captures require a uprobe:, syscall:, tracepoint:, python:, or cuda: selector"

/-! ## Matching events -/

/-- `Selector::matches`. -/
def matchesEvent (selector : Selector) (event : Event) : Bool :=
  match selector with
  | host eventType probeKind binaryPath target =>
    event.eventType == eventType &&
      event.host.any (fun host =>
        host.probeKind == probeKind && host.binaryPath == some binaryPath &&
          match target with
          | .symbol name => host.symbol == some name || host.symbolDemangled == some name
          | .offset offset => host.offset == some offset)
  | api eventType domain name =>
    event.eventType == eventType &&
      event.attributeStr "cuda_api_name" == some name &&
      event.attributeStr "cuda_api_domain" == some domain
  | kernel eventType name =>
    event.eventType == eventType &&
      name.all (fun pattern =>
        (event.cuda.bind (·.kernelName)).any (fun kernel => pattern.isMatch kernel))
  | syscall eventType name =>
    event.eventType == eventType &&
      event.host.any (fun host => host.probeKind == .syscall && host.symbol == some name)
  | tracepoint category name =>
    event.eventType == .tracepoint &&
      event.host.any (fun host => host.probeKind == .tracepoint && host.symbol == some name) &&
      event.attributeStr "tracepoint_category" == some category
  | pythonGc eventType marker =>
    event.eventType == eventType &&
      event.host.any (fun host => host.probeKind == .usdt && host.symbol == some marker) &&
      event.attributeStr "usdt_provider" == some "python"
  | memcpy eventType kind =>
    event.eventType == eventType &&
      kind.all (fun kind => event.cuda.bind (·.memcpyKind) == some kind)
  | memset eventType => event.eventType == eventType
  | nvtx eventType name _ =>
    event.eventType == eventType && event.nvtx.any (fun nvtx => name.isMatch nvtx.name)

/-! ## Compatibility of two selectors -/

/-- `Selector::is_syscall_lifecycle`. -/
def isSyscallLifecycle : Selector → Selector → Bool
  | syscall .syscallEntry startName, syscall .syscallExit endName => startName == endName
  | _, _ => false

/-- `Selector::is_nvtx_lifecycle`. -/
def isNvtxLifecycle : Selector → Selector → Bool
  | nvtx .nvtxRangeStart _ startPattern, nvtx .nvtxRangeEnd _ endPattern =>
    startPattern == endPattern
  | _, _ => false

/-- `Selector::is_python_gc_lifecycle`. -/
def isPythonGcLifecycle : Selector → Selector → Bool
  | pythonGc .pythonGcStart _, pythonGc .pythonGcEnd _ => true
  | _, _ => false

/-- The selectors that have no correlation key of their own. -/
def isUnkeyed : Selector → Bool
  | host .. | tracepoint .. | nvtx .. | pythonGc .. => true
  | _ => false

/-- `Selector::supports_exact`. -/
def supportsExact (startSelector endSelector : Selector) : Bool :=
  match startSelector, endSelector with
  | syscall .syscallEntry startName, syscall .syscallExit endName => startName == endName
  | nvtx .nvtxRangeStart _ startPattern, nvtx .nvtxRangeEnd _ endPattern =>
    startPattern == endPattern
  | pythonGc .pythonGcStart _, pythonGc .pythonGcEnd _ => true
  | startSelector, endSelector => !(startSelector.isUnkeyed || endSelector.isUnkeyed)

/-- `Selector::supports_stack_nested`. -/
def supportsStackNested : Selector → Selector → Bool
  | host .hostFunctionEntry _ startBinary startTarget,
    host .hostFunctionExit _ endBinary endTarget =>
    startBinary == endBinary && startTarget == endTarget
  | _, _ => false

/-- `Selector::is_gpu_activity`. -/
def isGpuActivity : Selector → Bool
  | kernel .. | memcpy .. | memset .. => true
  | _ => false

end Selector

end Xprobe.Correlator
