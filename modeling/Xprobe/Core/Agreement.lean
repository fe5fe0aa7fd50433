import Xprobe.Core.Validate
import Xprobe.Correlator.Measure

/-!
# Validator and correlator read the same selectors

The validator and the correlator parse selectors separately and decide separately which pairs of
endpoints a policy supports. `Agrees` relates an endpoint of the validator to the selector that the
correlator parses from the same text. The two decisions differ in two places: under `exact` the
validator ignores which end of an NVTX range a selector names, and under `stack-nested` it compares
resolved addresses where the correlator compares texts.
-/

namespace Xprobe.Core

open Foundation Protocol
open Correlator (RegexEngine Selector HostTarget validatePolicy)

/-! ## Host selectors -/

/-- The correlator's form of a probe target. -/
def ProbeTarget.toHostTarget : ProbeTarget → HostTarget
  | .symbol name => .symbol name
  | .fileOffset value => .offset value

theorem ProbeTarget.toHostTarget_injective : Function.Injective ProbeTarget.toHostTarget := by
  intro left right h
  cases left <;> cases right <;> cases h <;> rfl

def Boundary.eventType : Boundary → EventType
  | .entry => .hostFunctionEntry
  | .return => .hostFunctionExit

theorem PathBuf.ofString_injective : Function.Injective PathBuf.ofString := by
  intro left right h
  have hbytes : utf8Bytes left = utf8Bytes right := congrArg PathBuf.bytes h
  have htext : fromUtf8 (utf8Bytes left) = fromUtf8 (utf8Bytes right) := by rw [hbytes]
  rw [fromUtf8_utf8Bytes, fromUtf8_utf8Bytes] at htext
  exact Option.some.inj htext

variable {text : String}

private theorem parseHostBoundary_of {boundary : Boundary} (h : parseBoundary text = .ok boundary) :
    Selector.parseHostBoundary text = .ok (boundary.eventType, boundary.probeKind) := by
  unfold parseBoundary at h
  split at h
  · cases h
    rfl
  · cases h
    rfl
  · cases h

private theorem splitHostTarget_of {parts : String × String} (h : splitTarget text = .ok parts) :
    Selector.splitHostTarget text = .ok parts := by
  cases hcut : Text.splitOnceStr text ":symbol=" with
  | some cut =>
    simp only [splitTarget, hcut] at h
    simp only [Selector.splitHostTarget, hcut]
    exact congrArg Except.ok (Except.ok.inj h)
  | none =>
    simp only [splitTarget, hcut, okOr_eq_ok_iff] at h
    simp only [Selector.splitHostTarget, hcut, h]

private theorem parseHostTarget_of {target : ProbeTarget} (h : parseTarget text = .ok target) :
    Selector.parseHostTarget text = .ok target.toHostTarget := by
  cases hstrip : Text.stripPrefix text "+0x" with
  | some hex =>
    cases hoffset : Text.fromStrRadix16 hex with
    | some offset =>
      simp only [parseTarget, hstrip, hoffset] at h
      cases h
      simp only [Selector.parseHostTarget, hstrip, hoffset, ProbeTarget.toHostTarget]
    | none =>
      simp only [parseTarget, hstrip, hoffset] at h
      cases h
  | none =>
    simp only [parseTarget, hstrip] at h
    split_ifs at h with hplus
    cases h
    simp [Selector.parseHostTarget, hstrip, hplus, ProbeTarget.toHostTarget]

/-- Both parsers read the same binary, target and boundary from a host selector. -/
theorem parse_of_parseSelector {selector : HostSelector} (h : parseSelector text = .ok selector)
    (regexNew : RegexEngine) :
    ∃ binary, selector.binary = .ofString binary ∧
      Selector.parse regexNew text =
        .ok (.host selector.boundary.eventType selector.boundary.probeKind binary
          selector.target.toHostTarget) := by
  unfold parseSelector at h
  obtain ⟨rest, hrest, h⟩ := of_bind h
  obtain ⟨⟨binaryAndTarget, boundaryText⟩, hsplit, h⟩ := of_bind h
  obtain ⟨boundary, hboundary, h⟩ := of_bind h
  obtain ⟨⟨binary, targetText⟩, htarget, h⟩ := of_bind h
  obtain ⟨_, hnonempty, h⟩ := of_bind h
  obtain ⟨target, hparse, h⟩ := of_bind h
  cases h
  rw [okOr_eq_ok_iff] at hrest hsplit
  rw [ensure_eq_ok_iff] at hnonempty
  refine ⟨binary, rfl, ?_⟩
  simp only [Selector.parse, hrest, Selector.parseHost, hsplit, parseHostBoundary_of hboundary,
    splitHostTarget_of htarget, ok_bind, if_neg hnonempty, parseHostTarget_of hparse]

/-! ## All selectors -/

/-- A selector of the correlator names the same events as an endpoint of the validator, both read
    from the same text. -/
inductive Agrees (text : String) : EndpointKind → EventType → Selector → Prop
  | hostEntry (selector : HostSelector) (binary : String)
      (hparse : parseSelector text = .ok selector) (hbinary : selector.binary = .ofString binary) :
      Agrees text .hostEntry .hostFunctionEntry
        (.host .hostFunctionEntry .uprobe binary selector.target.toHostTarget)
  | hostReturn (selector : HostSelector) (binary : String)
      (hparse : parseSelector text = .ok selector) (hbinary : selector.binary = .ofString binary) :
      Agrees text .hostReturn .hostFunctionExit
        (.host .hostFunctionExit .uretprobe binary selector.target.toHostTarget)
  | syscallEntry (name : String) :
      Agrees text (.syscallEntry name) .syscallEntry (.syscall .syscallEntry name)
  | syscallExit (name : String) :
      Agrees text (.syscallExit name) .syscallExit (.syscall .syscallExit name)
  | tracepoint (category name : String) :
      Agrees text .tracepoint .tracepoint (.tracepoint category name)
  | pythonGcStart : Agrees text .pythonGcStart .pythonGcStart (.pythonGc .pythonGcStart "gc__start")
  | pythonGcEnd : Agrees text .pythonGcEnd .pythonGcEnd (.pythonGc .pythonGcEnd "gc__done")
  | cudaApi (eventType : EventType) (domain name : String) :
      Agrees text (.cudaApi domain name) eventType (.api eventType domain name)
  | kernel (eventType : EventType) (name : Option Correlator.Regex) :
      Agrees text .kernel eventType (.kernel eventType name)
  | memcpy (eventType : EventType) (kind : Option MemcpyKind) :
      Agrees text .memcpy eventType (.memcpy eventType kind)
  | memset (eventType : EventType) : Agrees text .memset eventType (.memset eventType)
  | nvtxRange (eventType : EventType) (name : Correlator.Regex) (pattern : String) :
      Agrees text (.nvtxRange pattern) eventType (.nvtx eventType name pattern)

def isActivityType : EventType → Bool
  | .gpuKernelStart | .gpuKernelEnd | .gpuMemcpyStart | .gpuMemcpyEnd | .gpuMemsetStart
  | .gpuMemsetEnd => true
  | _ => false

/-- The correlator reads an agreeing selector, and the clock of the endpoint is that of its events. -/
def Reads (text : String) (kind : EndpointKind) (eventType : EventType)
    (parsed : Except Correlator.MeasureError Selector) : Prop :=
  (∃ selector, parsed = .ok selector ∧ Agrees text kind eventType selector) ∧
    kind.usesHostClock = !isActivityType eventType

/-- What both parsers read from a CUDA selector: the conditions and the kind of the endpoint, and the
    selector of the correlator. -/
inductive CudaReading : ResolvedCudaSelector → EndpointKind → Selector → Prop
  | api (eventType : EventType) (domain name : String)
      (htype : eventType = .cudaApiEntry ∨ eventType = .cudaApiExit) :
      CudaReading { plainCudaSelector eventType with apiDomain := some domain, apiName := some name }
        (.cudaApi domain name) (.api eventType domain name)
  | kernel (eventType : EventType) (pattern : Option String) (name : Option Correlator.Regex)
      (htype : eventType = .gpuKernelStart ∨ eventType = .gpuKernelEnd) :
      CudaReading { plainCudaSelector eventType with kernelNameRegex := pattern } .kernel
        (.kernel eventType name)
  | memcpy (eventType : EventType) (kind : Option MemcpyKind)
      (htype : eventType = .gpuMemcpyStart ∨ eventType = .gpuMemcpyEnd)
      (hkind : kind ≠ some .unknown) :
      CudaReading { plainCudaSelector eventType with memcpyKind := kind } .memcpy
        (.memcpy eventType kind)
  | memset (eventType : EventType)
      (htype : eventType = .gpuMemsetStart ∨ eventType = .gpuMemsetEnd) :
      CudaReading (plainCudaSelector eventType) .memset (.memset eventType)
  | nvtxRange (eventType : EventType) (name : Correlator.Regex) (pattern : String)
      (htype : eventType = .nvtxRangeStart ∨ eventType = .nvtxRangeEnd) :
      CudaReading { plainCudaSelector eventType with nvtxNameRegex := some pattern }
        (.nvtxRange pattern) (.nvtx eventType name pattern)

theorem CudaReading.reads {cuda : ResolvedCudaSelector} {kind : EndpointKind} {selector : Selector}
    (h : CudaReading cuda kind selector) (text : String) :
    Reads text kind cuda.eventType (.ok selector) := by
  refine ⟨⟨selector, rfl, ?_⟩, ?_⟩
  · cases h <;> constructor
  · cases h with
    | api _ _ _ htype => rcases htype with rfl | rfl <;> rfl
    | kernel _ _ _ htype => rcases htype with rfl | rfl <;> rfl
    | memcpy _ _ htype => rcases htype with rfl | rfl <;> rfl
    | memset _ htype => rcases htype with rfl | rfl <;> rfl
    | nvtxRange _ _ _ htype => rcases htype with rfl | rfl <;> rfl

section Parsers

variable {text : String} {regexNew : RegexEngine} {eventType : EventType} {filter : Option String}
  {cuda : ResolvedCudaSelector} {kind : ProbelessKind} {collectable : Bool}

variable {linux : ResolvedLinuxSelector}

private theorem parseSyscall_of (hstarts : Text.startsWith text "syscall:" = true)
    (h : parseLinuxSelector text = .ok (linux, kind)) :
    Reads text kind.val linux.eventType (Selector.parseSyscall text) := by
  obtain ⟨rest, hfields⟩ := Text.split_of_startsWith (by decide : "syscall:".toList =
    "syscall".toList ++ [':']) (by decide) hstarts
  unfold parseLinuxSelector at h
  unfold Selector.parseSyscall
  rw [hfields] at h ⊢
  split at h
  · next name boundary heq =>
    cases heq
    split_ifs at h with hvalid
    · cases h
    obtain ⟨number, -, h⟩ := of_bind h
    obtain ⟨⟨eventType, kind⟩, hboundary, h⟩ := of_bind h
    cases h
    simp only [validTracepointComponent] at hvalid
    unfold parseSyscallBoundary at hboundary
    split at hboundary
    · cases hboundary
      exact ⟨⟨.syscall .syscallEntry name, by simp [hvalid], .syscallEntry name⟩, rfl⟩
    · cases hboundary
      exact ⟨⟨.syscall .syscallExit name, by simp [hvalid], .syscallExit name⟩, rfl⟩
    · cases hboundary
  · cases h
  · next heq => simp at heq
  · next heq => simp at heq
  · cases h

private theorem parseTracepoint_of (hstarts : Text.startsWith text "tracepoint:" = true)
    (h : parseLinuxSelector text = .ok (linux, kind)) :
    Reads text kind.val linux.eventType (Selector.parseTracepoint text) := by
  obtain ⟨rest, hfields⟩ := Text.split_of_startsWith (by decide : "tracepoint:".toList =
    "tracepoint".toList ++ [':']) (by decide) hstarts
  unfold parseLinuxSelector at h
  unfold Selector.parseTracepoint
  rw [hfields] at h ⊢
  split at h
  · next heq => simp at heq
  · next heq => simp at heq
  · next category name heq =>
    cases heq
    split_ifs at h with hvalid
    · cases h
    cases h
    simp only [validTracepointComponent] at hvalid
    refine ⟨⟨.tracepoint category name, ?_, .tracepoint category name⟩, rfl⟩
    simp at hvalid
    simp [hvalid]
  · cases h
  · cases h

private theorem parsePython_of {probes : Except UsdtError (Option String)}
    (h : parsePythonSelector probes text = .ok (linux, kind, collectable)) :
    Reads text kind.val linux.eventType (Selector.parsePython text) := by
  obtain ⟨⟨eventType, marker, name⟩, hmarker, h⟩ := of_bind h
  obtain ⟨binaryPath, -, h⟩ := of_bind h
  cases h
  unfold parsePythonMarker at hmarker
  split at hmarker
  · cases hmarker
    exact ⟨⟨_, rfl, .pythonGcStart⟩, rfl⟩
  · cases hmarker
    exact ⟨⟨_, rfl, .pythonGcEnd⟩, rfl⟩
  · cases hmarker

private theorem parseKernel_of (htype : eventType = .gpuKernelStart ∨ eventType = .gpuKernelEnd)
    (h : parseKernelSelector regexNew eventType filter = .ok (cuda, kind, collectable)) :
    ∃ selector, Selector.parseKernel regexNew eventType filter = .ok selector ∧
      CudaReading cuda kind.val selector := by
  unfold parseKernelSelector at h
  cases filter with
  | none =>
    cases h
    exact ⟨_, rfl, .kernel eventType none none htype⟩
  | some filter =>
    obtain ⟨pattern, hpattern, h⟩ := of_bind h
    cases h
    obtain ⟨_, hstrip, hpattern⟩ := of_bind hpattern
    obtain ⟨_, hnonempty, hpattern⟩ := of_bind hpattern
    obtain ⟨regex, hregex, hpattern⟩ := of_bind hpattern
    cases hpattern
    rw [okOr_eq_ok_iff] at hstrip
    rw [ensure_eq_ok_iff] at hnonempty
    rw [mapError_eq_ok_iff] at hregex
    refine ⟨.kernel eventType (some regex), ?_, .kernel eventType _ _ htype⟩
    simp [Selector.parseKernel, hstrip, hnonempty, hregex]

private theorem parseMemcpy_of (htype : eventType = .gpuMemcpyStart ∨ eventType = .gpuMemcpyEnd)
    (h : parseMemcpySelector eventType filter = .ok (cuda, kind, collectable)) :
    ∃ selector, Selector.parseMemcpy eventType filter = .ok selector ∧
      CudaReading cuda kind.val selector := by
  unfold parseMemcpySelector at h
  cases filter with
  | none =>
    cases h
    exact ⟨_, rfl, .memcpy eventType none htype (by simp)⟩
  | some filter =>
    obtain ⟨kindText, hstrip, h⟩ := of_bind h
    obtain ⟨memcpyKind, hkind, h⟩ := of_bind h
    cases h
    rw [okOr_eq_ok_iff] at hstrip hkind
    have hsame : Selector.parseMemcpyKind kindText = some memcpyKind := hkind
    -- no text names the unknown kind
    have hknown : some memcpyKind ≠ some MemcpyKind.unknown := by
      intro hunknown
      rw [hunknown] at hkind
      unfold parseMemcpyKind at hkind
      split at hkind <;> cases hkind
    refine ⟨.memcpy eventType (some memcpyKind), ?_, .memcpy eventType _ htype hknown⟩
    simp [Selector.parseMemcpy, hstrip, hsame]

private theorem parseMemset_of (htype : eventType = .gpuMemsetStart ∨ eventType = .gpuMemsetEnd)
    (h : parseMemsetSelector text eventType filter = .ok (cuda, kind, collectable)) :
    ∃ selector, Selector.parseMemset text eventType filter = .ok selector ∧
      CudaReading cuda kind.val selector := by
  cases filter with
  | none =>
    cases h
    exact ⟨_, rfl, .memset eventType htype⟩
  | some filter => cases h

private theorem parseNvtx_of (htype : eventType = .nvtxRangeStart ∨ eventType = .nvtxRangeEnd)
    (h : parseNvtxSelector regexNew eventType filter = .ok (cuda, kind, collectable)) :
    ∃ selector, Selector.parseNvtx regexNew eventType filter = .ok selector ∧
      CudaReading cuda kind.val selector := by
  obtain ⟨filterText, hfilter, h⟩ := of_bind h
  obtain ⟨pattern, hpattern, h⟩ := of_bind h
  cases h
  obtain ⟨_, hstrip, hpattern⟩ := of_bind hpattern
  obtain ⟨regex, hregex, hpattern⟩ := of_bind hpattern
  obtain ⟨_, hbounded, hpattern⟩ := of_bind hpattern
  cases hpattern
  rw [okOr_eq_ok_iff] at hfilter hstrip
  rw [ensure_eq_ok_iff] at hbounded
  rw [mapError_eq_ok_iff] at hregex
  refine ⟨.nvtx eventType regex pattern, ?_, .nvtxRange eventType regex pattern htype⟩
  simp [Selector.parseNvtx, hfilter, hstrip, hbounded, hregex]

private theorem parseApi_of (h : parseApiSelector text = .ok (cuda, kind, collectable)) :
    ∃ selector, Selector.parseApi text = .ok selector ∧ CudaReading cuda kind.val selector := by
  unfold parseApiSelector at h
  split at h
  · next first domain name boundary hfields =>
    split_ifs at h with hname
    · cases h
    obtain ⟨eventType, hboundary, h⟩ := of_bind h
    cases h
    simp only [Selector.parseApi, hfields, if_neg hname]
    unfold parseApiBoundary at hboundary
    split at hboundary
    · cases hboundary
      exact ⟨_, rfl, .api .cudaApiEntry domain name (.inl rfl)⟩
    · cases hboundary
      exact ⟨_, rfl, .api .cudaApiExit domain name (.inr rfl)⟩
    · cases hboundary
  · cases h

private theorem parseCuda_of {event : String}
    (h : parseCudaEvent regexNew text event filter = .ok (cuda, kind, collectable)) :
    ∃ selector, Selector.parseCuda regexNew text event filter = .ok selector ∧
      CudaReading cuda kind.val selector := by
  unfold parseCudaEvent at h
  split at h
  · exact parseKernel_of (.inl rfl) h
  · exact parseKernel_of (.inr rfl) h
  · exact parseMemcpy_of (.inl rfl) h
  · exact parseMemcpy_of (.inr rfl) h
  · exact parseMemset_of (.inl rfl) h
  · exact parseMemset_of (.inr rfl) h
  · exact parseNvtx_of (.inl rfl) h
  · exact parseNvtx_of (.inr rfl) h
  · exact parseApi_of h
  · exact parseApi_of h
  · cases h

private theorem parseCudaSelector_of (huprobe : ¬Text.startsWith text "uprobe:" = true)
    (hlinux : ¬(Text.startsWith text "syscall:" || Text.startsWith text "tracepoint:") = true)
    (hpython : ¬Text.startsWith text "python:" = true)
    (h : parseCudaSelector regexNew text = .ok (cuda, kind, collectable)) :
    ∃ selector, Selector.parse regexNew text = .ok selector ∧
      CudaReading cuda kind.val selector := by
  have hstrip := Text.stripPrefix_eq_none (Bool.not_eq_true _ ▸ huprobe)
  rw [Bool.or_eq_true, not_or] at hlinux
  unfold parseCudaSelector at h
  split at h
  · next event rest hfields =>
    simp only [Selector.parse, hstrip, if_neg hlinux.1, if_neg hlinux.2, if_neg hpython, hfields]
    exact parseCuda_of h
  · cases h

end Parsers

/-- The correlator parses every selector that the validator resolves, as an agreeing one. -/
theorem resolveEndpoint_reads {regexNew : RegexEngine} {system : EndpointSystem}
    {report : ProcessReport} {name : String} {endpoint : Endpoint}
    (h : resolveEndpoint regexNew system report text name = .ok endpoint) :
    Reads text endpoint.kind endpoint.validated.eventType (Selector.parse regexNew text) := by
  unfold resolveEndpoint at h
  split_ifs at h with huprobe hlinux hpython
  -- host functions: `resolve` has parsed the selector
  · obtain ⟨probe, hrun, h⟩ := of_bind h
    rw [mapError_eq_ok_iff] at hrun
    cases h
    obtain ⟨selector, canonical, hresolution⟩ := resolveRun_eq_ok hrun
    obtain ⟨binary, hbinary, hparse⟩ := parse_of_parseSelector hresolution.parsed regexNew
    rw [hparse]
    show Reads text (hostFunctionKind probe.probeKind).2 (hostFunctionKind probe.probeKind).1 _
    rw [hresolution.probe_kind]
    cases selector.boundary with
    | entry => exact ⟨⟨_, rfl, .hostEntry selector binary hresolution.parsed hbinary⟩, rfl⟩
    | «return» => exact ⟨⟨_, rfl, .hostReturn selector binary hresolution.parsed hbinary⟩, rfl⟩
  -- system calls and tracepoints share a parser, told apart by the correlator
  · have hstrip := Text.stripPrefix_eq_none (Bool.not_eq_true _ ▸ huprobe)
    obtain ⟨⟨linux, kind⟩, hparse, h⟩ := of_bind h
    cases h
    simp only [Selector.parse, hstrip]
    by_cases hsyscall : Text.startsWith text "syscall:" = true
    · rw [if_pos hsyscall]
      exact parseSyscall_of hsyscall hparse
    · have htracepoint : Text.startsWith text "tracepoint:" = true := by
        simpa [hsyscall] using hlinux
      rw [if_neg hsyscall, if_pos htracepoint]
      exact parseTracepoint_of htracepoint hparse
  -- Python collections
  · have hstrip := Text.stripPrefix_eq_none (Bool.not_eq_true _ ▸ huprobe)
    rw [Bool.or_eq_true, not_or] at hlinux
    obtain ⟨⟨linux, kind, collectable⟩, hparse, h⟩ := of_bind h
    cases h
    simp only [Selector.parse, hstrip, if_neg hlinux.1, if_neg hlinux.2, if_pos hpython]
    exact parsePython_of hparse
  -- what is left is CUDA
  · obtain ⟨⟨cuda, kind, collectable⟩, hparse, h⟩ := of_bind h
    cases h
    obtain ⟨selector, hselector, hreading⟩ := parseCudaSelector_of huprobe hlinux hpython hparse
    rw [hselector]
    exact hreading.reads text

/-- Both sides read a CUDA selector alike. -/
theorem reading_of_resolveEndpoint {regexNew : RegexEngine} {system : EndpointSystem}
    {report : ProcessReport} {name : String} {endpoint : Endpoint} {cuda : ResolvedCudaSelector}
    (h : resolveEndpoint regexNew system report text name = .ok endpoint)
    (hcuda : endpoint.validated.cuda = some cuda) :
    ∃ selector, Selector.parse regexNew text = .ok selector ∧
      CudaReading cuda endpoint.kind selector := by
  unfold resolveEndpoint at h
  split_ifs at h with huprobe hlinux hpython
  -- the other endpoints have no CUDA selector
  · obtain ⟨probe, -, h⟩ := of_bind h
    cases h
    cases hcuda
  · obtain ⟨⟨linux, kind⟩, -, h⟩ := of_bind h
    cases h
    cases hcuda
  · obtain ⟨⟨linux, kind, collectable⟩, -, h⟩ := of_bind h
    cases h
    cases hcuda
  · obtain ⟨⟨parsed, kind, collectable⟩, hparse, h⟩ := of_bind h
    cases h
    cases hcuda
    exact parseCudaSelector_of huprobe hlinux hpython hparse

/-! ## Policies -/

def CorrelatorAccepts (regexNew : RegexEngine) (startText endText : String)
    (policy : MatchPolicy) : Prop :=
  ∃ startSelector endSelector, Selector.parse regexNew startText = .ok startSelector ∧
    Selector.parse regexNew endText = .ok endSelector ∧
    validatePolicy startSelector endSelector policy = .ok ()

/-- What the validator does not look at. Under `exact`, NVTX endpoints are the start and the end of
    a range, in this order. Under `stack-nested`, the texts name the same binary and target. -/
def SameProbeText (startText endText : String) (startPoint endPoint : Endpoint) : MatchPolicy → Prop
  | .exact => startPoint.kind.needsNvtx = true →
      startPoint.validated.eventType = .nvtxRangeStart ∧
        endPoint.validated.eventType = .nvtxRangeEnd
  | .stackNested => ∃ startSelector endSelector, parseSelector startText = .ok startSelector ∧
      parseSelector endText = .ok endSelector ∧ startSelector.binary = endSelector.binary ∧
      startSelector.target = endSelector.target
  | .firstAfter | .nearest | .streamOrder => True

section Policies

variable {startText endText : String} {startKind endKind : EndpointKind}
  {startType endType : EventType} {startSelector endSelector : Selector}

private theorem nvtx_supportsExact_iff (startName endName : Correlator.Regex)
    (startPattern endPattern : String) :
    (Selector.nvtx startType startName startPattern).supportsExact
        (.nvtx endType endName endPattern) = true ↔
      startType = .nvtxRangeStart ∧ endType = .nvtxRangeEnd ∧ startPattern = endPattern := by
  unfold Selector.supportsExact
  split
  · next heq _ => cases heq
  · next heq heq' =>
    cases heq
    cases heq'
    simp
  · next heq _ => cases heq
  · next hother _ =>
    -- no other pair of NVTX selectors has a key
    simp only [Selector.isUnkeyed, Bool.or_true, Bool.not_true, Bool.false_eq_true, false_iff]
    rintro ⟨rfl, rfl, -⟩
    exact hother _ _ _ _ rfl rfl

/-- On pairs that the validator supports, the correlator asks more of NVTX ranges only. -/
private theorem supportsExact_iff (hstart : Agrees startText startKind startType startSelector)
    (hend : Agrees endText endKind endType endSelector)
    (h : supportsExact startKind endKind = true) :
    startSelector.supportsExact endSelector = true ↔
      (startKind.needsNvtx = true → startType = .nvtxRangeStart ∧ endType = .nvtxRangeEnd) := by
  cases hstart with
  | nvtxRange startType startName startPattern =>
    cases hend with
    | nvtxRange endType endName endPattern =>
      have hpattern : startPattern = endPattern := by simpa [supportsExact] using h
      rw [nvtx_supportsExact_iff]
      simp [EndpointKind.needsNvtx, hpattern]
    | _ => simp [supportsExact] at h
  | _ =>
    -- every other pair that the validator supports has a key in the correlator as well
    cases hend <;>
      simp_all [supportsExact, Selector.supportsExact, Selector.isUnkeyed,
        EndpointKind.needsNvtx]

private theorem supportsStreamOrder_iff
    (hstart : Agrees startText startKind startType startSelector)
    (hend : Agrees endText endKind endType endSelector) :
    supportsStreamOrder startKind endKind =
      (startSelector.isGpuActivity && endSelector.isGpuActivity) := by
  have hsame : ∀ {text kind type selector}, Agrees text kind type selector →
      kind.needsActivity = selector.isGpuActivity := by
    intro text kind type selector hagrees
    cases hagrees <;> rfl
  rw [supportsStreamOrder, hsame hstart, hsame hend]

/-- On an entry and a return, the correlator compares the texts. -/
private theorem supportsStackNested_iff
    (hstart : Agrees startText .hostEntry startType startSelector)
    (hend : Agrees endText .hostReturn endType endSelector) :
    startSelector.supportsStackNested endSelector = true ↔
      ∃ startHost endHost, parseSelector startText = .ok startHost ∧
        parseSelector endText = .ok endHost ∧ startHost.binary = endHost.binary ∧
        startHost.target = endHost.target := by
  cases hstart with
  | hostEntry startHost startBinary hstartParse hstartBinary =>
    cases hend with
    | hostReturn endHost endBinary hendParse hendBinary =>
      have hbinary : startBinary = endBinary ↔ startHost.binary = endHost.binary := by
        rw [hstartBinary, hendBinary, PathBuf.ofString_injective.eq_iff]
      have htarget := ProbeTarget.toHostTarget_injective.eq_iff (a := startHost.target)
        (b := endHost.target)
      simp [Selector.supportsStackNested, hstartParse, hendParse, hbinary, htarget]

end Policies

/-- The correlator parses both texts of a pair without policy issues, and accepts the pair exactly
    when the texts agree in what the validator does not look at. -/
theorem validated_pair_accepted_iff (regexNew : RegexEngine) (startSystem endSystem : EndpointSystem)
    (report : ProcessReport) (startText endText : String) (policy : MatchPolicy)
    (startPoint endPoint : Endpoint)
    (hstart : resolveEndpoint regexNew startSystem report startText "start" = .ok startPoint)
    (hend : resolveEndpoint regexNew endSystem report endText "end" = .ok endPoint)
    (hpolicy : (checkPolicy startPoint endPoint policy).1 = []) :
    (∃ startSelector, Selector.parse regexNew startText = .ok startSelector) ∧
      (∃ endSelector, Selector.parse regexNew endText = .ok endSelector) ∧
      (CorrelatorAccepts regexNew startText endText policy ↔
        SameProbeText startText endText startPoint endPoint policy) := by
  obtain ⟨⟨startSelector, hstartParse, hstartAgrees⟩, -⟩ := resolveEndpoint_reads hstart
  obtain ⟨⟨endSelector, hendParse, hendAgrees⟩, -⟩ := resolveEndpoint_reads hend
  refine ⟨⟨_, hstartParse⟩, ⟨_, hendParse⟩, ?_⟩
  have haccepts : CorrelatorAccepts regexNew startText endText policy ↔
      validatePolicy startSelector endSelector policy = .ok () := by
    simp [CorrelatorAccepts, hstartParse, hendParse]
  -- what the validator demands of the kinds leaves the correlator one question: the text
  rw [haccepts]
  cases policy with
  | exact =>
    have hexact : supportsExact startPoint.kind endPoint.kind = true := by
      by_contra hunsupported
      simp [checkPolicy, hunsupported] at hpolicy
    have hiff := supportsExact_iff hstartAgrees hendAgrees hexact
    simp only [SameProbeText, ← hiff]
    cases hkey : startSelector.supportsExact endSelector <;> simp [validatePolicy, hkey]
  | firstAfter => simp [validatePolicy, SameProbeText]
  | nearest => simp [validatePolicy, SameProbeText]
  | stackNested =>
    have hnested : supportsStackNested startPoint endPoint = true := by
      by_contra hunsupported
      simp [checkPolicy, hunsupported] at hpolicy
    -- only host functions nest
    have hkinds : startPoint.kind = .hostEntry ∧ endPoint.kind = .hostReturn := by
      by_contra hother
      simp [supportsStackNested, hother] at hnested
    rw [hkinds.1] at hstartAgrees
    rw [hkinds.2] at hendAgrees
    have hiff := supportsStackNested_iff hstartAgrees hendAgrees
    simp only [SameProbeText, ← hiff]
    cases hkey : startSelector.supportsStackNested endSelector <;> simp [validatePolicy, hkey]
  | streamOrder =>
    have horder : supportsStreamOrder startPoint.kind endPoint.kind = true := by
      by_contra hunsupported
      simp [checkPolicy, hunsupported] at hpolicy
    rw [supportsStreamOrder_iff hstartAgrees hendAgrees, Bool.and_eq_true] at horder
    simp [validatePolicy, SameProbeText, horder]

/-! ## Examples -/

/-- An engine that compiles every pattern. -/
def anyRegex : RegexEngine := fun _ => .ok ⟨fun _ => true⟩

/-- A shared library with one function, mapped by the target under its canonical path. -/
def libcSystem : EndpointSystem :=
  { startTimeBefore := .ok 5
    startTimeAfter := .ok 5
    canonicalize := fun _ => .ok (.ofString "/usr/lib/libc.so")
    readToString := fun _ => .ok "1000-2000 r-xp 0 08:01 42 /usr/lib/libc.so\n"
    read := fun _ => .ok []
    parseElf := fun _ => .ok
      { kind := .dynamic
        buildId := .ok none
        segments := [{ address := 0, fileOffset := 0, fileSize := 4096 }]
        dynamicSymbols :=
          [{ isDefinition := true, isText := true, name := some "read", address := 16
             size := 8 }]
        symbols := [] }
    demangle := fun _ => none
    replaceInvalid := fun _ => ""
    pythonGcProbes := .ok none }

def exampleReport : ProcessReport :=
  { target := { pid := 7, processStartTime := 5 }
    executable := "/usr/bin/app"
    cuda := { libcudaLoaded := true, libcudartLoaded := true, xprobeCuptiLoaded := true }
    capabilities :=
      { uprobe := true, uretprobe := true, tracepoint := true, cudaCallback := true
        cudaActivity := true, runtimeInjection := true } }

theorem validated_pair_accepted_kernel :
    CorrelatorAccepts anyRegex "cuda:kernel_start" "cuda:kernel_end:name~gemm" .exact := by
  obtain ⟨startPoint, hstart⟩ : ∃ startPoint, resolveEndpoint anyRegex libcSystem exampleReport
    "cuda:kernel_start" "start" = .ok startPoint := ⟨_, rfl⟩
  obtain ⟨endPoint, hend⟩ : ∃ endPoint, resolveEndpoint anyRegex libcSystem exampleReport
    "cuda:kernel_end:name~gemm" "end" = .ok endPoint := ⟨_, rfl⟩
  cases hstart
  cases hend
  exact (validated_pair_accepted_iff anyRegex libcSystem libcSystem exampleReport
    "cuda:kernel_start" "cuda:kernel_end:name~gemm" .exact _ _ rfl rfl rfl).2.2.mpr nofun

/-- Two starts of NVTX ranges pass validation under `exact`, and so do an entry and a return of one
    function through different paths under `stack-nested`; the correlator refuses both pairs. -/
theorem validated_pairs_refused : (∃ startPoint endPoint,
      resolveEndpoint anyRegex libcSystem exampleReport "cuda:nvtx_range_start:name~^step$"
        "start" = .ok startPoint ∧
      resolveEndpoint anyRegex libcSystem exampleReport "cuda:nvtx_range_start:name~^step$"
        "end" = .ok endPoint ∧
      (checkPolicy startPoint endPoint .exact).1 = [] ∧
      ¬CorrelatorAccepts anyRegex "cuda:nvtx_range_start:name~^step$"
        "cuda:nvtx_range_start:name~^step$" .exact) ∧
    ∃ startPoint endPoint,
      resolveEndpoint anyRegex libcSystem exampleReport "uprobe:/lib/libc.so:read:entry"
        "start" = .ok startPoint ∧
      resolveEndpoint anyRegex libcSystem exampleReport "uprobe:/usr/lib/libc.so:read:return"
        "end" = .ok endPoint ∧
      (checkPolicy startPoint endPoint .stackNested).1 = [] ∧
      ¬CorrelatorAccepts anyRegex "uprobe:/lib/libc.so:read:entry"
        "uprobe:/usr/lib/libc.so:read:return" .stackNested := by
  constructor
  · refine ⟨_, _, rfl, rfl, rfl, ?_⟩
    rintro ⟨startSelector, endSelector, hstart, hend, hpolicy⟩
    cases hstart
    cases hend
    cases hpolicy
  · refine ⟨_, _, rfl, rfl, rfl, ?_⟩
    rintro ⟨startSelector, endSelector, hstart, hend, hpolicy⟩
    cases hstart
    cases hend
    cases hpolicy

end Xprobe.Core
