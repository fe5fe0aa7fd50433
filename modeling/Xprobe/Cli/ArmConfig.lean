import Xprobe.Core.Agreement
import Xprobe.Cupti.Control

/-!
# Arming the agent for a validated measurement

How the command line turns validated endpoints into the filters of an ARM request
(`xprobe/cli/src/main.rs`), and that the agent reads the request back as it was meant, filters for
aggregation included.
-/

namespace Xprobe.Cli

open Foundation Protocol Cupti
open Xprobe.Core (validateRun ValidateSystem anyRegex libcSystem exampleReport)
open Correlator (RegexEngine anchoredLiteral)

/-! ## Failures -/

structure CommandFailure where
  code : ErrorCode
  message : Message
  recoverable : Bool
  details : BTreeMap String Value
  hints : List String
  artifactEvents : Option (List Event)

/-- `CommandFailure::new`. -/
def CommandFailure.new (code : ErrorCode) (message : Message) (recoverable : Bool) :
    CommandFailure :=
  { code, message, recoverable, details := .empty, hints := [], artifactEvents := none }

/-- `CommandFailure::with_hint`. -/
def CommandFailure.withHint (failure : CommandFailure) (hint : String) : CommandFailure :=
  { failure with hints := failure.hints ++ [hint] }

/-! ## Filters -/

/-- The anchors that `bounded_kernel_name_filter` tries, in its order, and the filter of each. -/
def kernelNameCandidates : List ((String × String) × (String → CuptiNameFilter)) :=
  [(("^", "$"), .exact), (("^", ".*"), .prefixed), ((".*", "$"), .suffixed),
    ((".*", ".*"), .contains), (("^", ""), .prefixed), (("", "$"), .suffixed),
    ((".*", ""), .contains), (("", ""), .contains)]

/-- `bounded_kernel_name_filter`. -/
def boundedKernelNameFilter (pattern : String) : CuptiNameFilter :=
  if pattern = ".*" then .any
  else
    (kernelNameCandidates.findSome? (fun (anchors, filter) => do
      let literal ← anchoredLiteral pattern anchors
      if literal = "" ∨ nameLength ≤ literal.utf8ByteSize then none
      else some (filter literal))).getD .any

def selectedRecordKind : EventType → Option RecordKind
  | .cudaApiEntry => some .cudaApiEntry
  | .cudaApiExit => some .cudaApiExit
  | .gpuKernelStart => some .gpuKernelStart
  | .gpuKernelEnd => some .gpuKernelEnd
  | .gpuMemcpyStart => some .gpuMemcpyStart
  | .gpuMemcpyEnd => some .gpuMemcpyEnd
  | .gpuMemsetStart => some .gpuMemsetStart
  | .gpuMemsetEnd => some .gpuMemsetEnd
  | .nvtxRangeStart => some .nvtxRangeStart
  | .nvtxRangeEnd => some .nvtxRangeEnd
  | _ => none

def selectedApiDomain (domain : Option String) : Except CommandFailure CuptiApiDomain :=
  match domain with
  | none => .ok .any
  | some "driver_api" => .ok .driver
  | some "runtime_api" => .ok .runtime
  | some domain =>
    .error (.new .invalidEventSelector
      [.lit "validated CUDA endpoint has unsupported API domain ", .debug domain] false)

def selectedMemcpyKind : Option MemcpyKind → CuptiMemcpyKind
  | none | some .unknown => .any
  | some .hostToDevice => .hostToDevice
  | some .deviceToHost => .deviceToHost
  | some .deviceToDevice => .deviceToDevice
  | some .hostToHost => .hostToHost
  | some .peerToPeer => .peerToPeer

def selectedName (selector : ResolvedCudaSelector) : CuptiNameFilter :=
  match selector.apiName with
  | some name => .exact name
  | none =>
    match selector.kernelNameRegex with
    | some pattern => boundedKernelNameFilter pattern
    | none =>
      match selector.nvtxNameRegex with
      | some pattern => boundedKernelNameFilter pattern
      | none => .any

/-- `cupti_event_filter`. -/
def cuptiEventFilter (selector : ResolvedCudaSelector) :
    Except CommandFailure CuptiEventFilter := do
  let recordKind ← okOr (selectedRecordKind selector.eventType)
    (.new .invalidEventSelector
      (Message.of "validated CUDA endpoint has a non-CUDA event type") false)
  let apiDomain ← selectedApiDomain selector.apiDomain
  return {
    recordKind
    apiDomain
    memcpyKind := selectedMemcpyKind selector.memcpyKind
    name := selectedName selector }

def captureModeOf : MeasurementMode → CaptureMode
  | .exact => .exact
  | .aggregate => .aggregate

/-- `cupti_arm_config`. -/
def cuptiArmConfig (validation : ValidationResult) (maxEvents : Nat) (mode : MeasurementMode) :
    Except CommandFailure (Option CuptiArmConfig) :=
  if !validation.requirements.needsCupti then .ok none
  else do
    let selectors := [validation.startEndpoint, validation.endEndpoint].filterMap (·.cuda)
    let filters ← selectors.mapM cuptiEventFilter
    ensure (maxEvents < 2 ^ 64)
      (.new .sessionLimitExceeded
        [.lit "max-events exceeds the CUPTI Agent range: ",
          .display "out of range integral type conversion attempted"] true)
    return some
      { recordCapacity := UInt64.ofNat maxEvents, captureMode := captureModeOf mode, filters }

/-! ## Aggregate measurements -/

/-- Start and end of one kind of activity. -/
def isPairedActivity : EventType → EventType → Bool
  | .gpuKernelStart, .gpuKernelEnd => true
  | .gpuMemcpyStart, .gpuMemcpyEnd => true
  | .gpuMemsetStart, .gpuMemsetEnd => true
  | _, _ => false

/-- The agent can apply a kernel pattern. -/
def isBoundedPattern (pattern : Option String) : Bool :=
  match pattern with
  | none => true
  | some pattern => pattern == ".*" || boundedKernelNameFilter pattern != .any

/-- `validate_aggregate_selection`. -/
def validateAggregateSelection (validation : ValidationResult) : Except CommandFailure Unit :=
  let invalid (message : String) : CommandFailure :=
    .new .invalidEventSelector (Message.of message) true
  match validation.startEndpoint.cuda, validation.endEndpoint.cuda with
  | some startSelector, some endSelector => do
    ensure (¬(isPairedActivity startSelector.eventType endSelector.eventType = false ∨
        startSelector.apiDomain ≠ endSelector.apiDomain ∨
        startSelector.apiName ≠ endSelector.apiName ∨
        startSelector.kernelNameRegex ≠ endSelector.kernelNameRegex ∨
        startSelector.memcpyKind ≠ endSelector.memcpyKind))
      (invalid "aggregate measurement requires matching kernel, memcpy, or memset start/end selectors")
    ensure (isBoundedPattern startSelector.kernelNameRegex = true)
      ((invalid "aggregate kernel regex must be an exact, prefix, suffix, or contains pattern that the CUPTI Agent can apply").withHint
        "use ^literal$, ^literal.*, .*literal$, or .*literal.*")
  | _, _ => .error (invalid "aggregate measurement supports CUPTI activity endpoints only")

private theorem validateAggregateSelection_eq_ok {validation : ValidationResult}
    (h : validateAggregateSelection validation = .ok ()) :
    ∃ startSelector endSelector, validation.startEndpoint.cuda = some startSelector ∧
      validation.endEndpoint.cuda = some endSelector ∧
      isPairedActivity startSelector.eventType endSelector.eventType = true ∧
      startSelector.apiDomain = endSelector.apiDomain ∧
      startSelector.apiName = endSelector.apiName ∧
      startSelector.kernelNameRegex = endSelector.kernelNameRegex ∧
      startSelector.memcpyKind = endSelector.memcpyKind := by
  unfold validateAggregateSelection at h
  split at h
  · next startSelector endSelector hstart hend =>
    obtain ⟨_, hsame, -⟩ := of_bind h
    rw [ensure_eq_ok_iff] at hsame
    simp only [not_or, not_not, Bool.not_eq_false] at hsame
    exact ⟨startSelector, endSelector, hstart, hend, hsame⟩
  · cases h

private theorem cuptiArmConfig_filters {validation : ValidationResult} {maxEvents : Nat}
    {mode : MeasurementMode} {config : CuptiArmConfig}
    {startSelector endSelector : ResolvedCudaSelector}
    (hstart : validation.startEndpoint.cuda = some startSelector)
    (hend : validation.endEndpoint.cuda = some endSelector)
    (h : cuptiArmConfig validation maxEvents mode = .ok (some config)) :
    ∃ first second, cuptiEventFilter startSelector = .ok first ∧
      cuptiEventFilter endSelector = .ok second ∧ config.filters = [first, second] := by
  unfold cuptiArmConfig at h
  split_ifs at h
  · cases h
  obtain ⟨filters, hfilters, h⟩ := of_bind h
  obtain ⟨_, -, h⟩ := of_bind h
  cases h
  simp only [List.filterMap_cons, hstart, hend, List.filterMap_nil, List.mapM_cons,
    List.mapM_nil] at hfilters
  obtain ⟨first, hfirst, hfilters⟩ := of_bind hfilters
  obtain ⟨rest, hrest, hfilters⟩ := of_bind hfilters
  obtain ⟨second, hsecond, hrest⟩ := of_bind hrest
  cases hrest
  cases hfilters
  exact ⟨first, second, hfirst, hsecond, rfl⟩

/-- The configuration was made for an aggregate measurement of two validated selectors. -/
def FromAggregateSelection (config : CuptiArmConfig) : Prop :=
  ∃ (regexNew : RegexEngine) (system : ValidateSystem) (report : ProcessReport)
    (startText endText policy : String) (validation : ValidationResult) (maxEvents : Nat)
    (mode : MeasurementMode),
    validateRun regexNew system report startText endText policy = .ok validation ∧
    validateAggregateSelection validation = .ok () ∧
    cuptiArmConfig validation maxEvents mode = .ok (some config)

private theorem selectedRecordKind_paired {startType endType : EventType}
    (h : isPairedActivity startType endType = true) {startKind endKind : RecordKind}
    (hstart : selectedRecordKind startType = some startKind)
    (hend : selectedRecordKind endType = some endKind) :
    isActivityPair startKind.code endKind.code = true := by
  unfold isPairedActivity at h
  split at h
  case h_4 => cases h
  all_goals
    cases hstart
    cases hend
    decide

/-- Only selectors of NVTX ranges have an NVTX name pattern. -/
private theorem nvtxNameRegex_of_reading {cuda : ResolvedCudaSelector} {kind : Core.EndpointKind}
    {selector : Correlator.Selector} (h : Core.CudaReading cuda kind selector)
    (htype : cuda.eventType ≠ .nvtxRangeStart ∧ cuda.eventType ≠ .nvtxRangeEnd) :
    cuda.nvtxNameRegex = none := by
  cases h with
  | nvtxRange _ _ _ hnvtx => exact absurd hnvtx (not_or.mpr htype)
  | _ => rfl

/-- The filters of an aggregate measurement differ in the ends of the activity only. -/
private theorem aggregate_filters_valid {config : CuptiArmConfig}
    (h : FromAggregateSelection config) :
    validAggregateFilters (agentFilters config.filters) = true := by
  obtain ⟨regexNew, system, report, startText, endText, policy, validation, maxEvents, mode,
    hvalidate, hselect, hconfig⟩ := h
  obtain ⟨startPoint, endPoint, hstartPoint, hendPoint, hstartEq, hendEq, -⟩ :=
    Core.validateRun_eq_ok hvalidate
  obtain ⟨startSelector, endSelector, hstart, hend, hpaired, hdomain, hname, hkernel, hmemcpy⟩ :=
    validateAggregateSelection_eq_ok hselect
  obtain ⟨first, second, hfirst, hsecond, hfilters⟩ := cuptiArmConfig_filters hstart hend hconfig
  obtain ⟨startKind, hstartKind, hfirst⟩ := of_bind hfirst
  obtain ⟨startDomain, hstartDomain, hfirst⟩ := of_bind hfirst
  obtain ⟨endKind, hendKind, hsecond⟩ := of_bind hsecond
  obtain ⟨endDomain, hendDomain, hsecond⟩ := of_bind hsecond
  rw [okOr_eq_ok_iff] at hstartKind hendKind
  cases hfirst
  cases hsecond
  -- neither selector names an NVTX range, so their names come from the compared fields
  rw [hstartEq] at hstart
  rw [hendEq] at hend
  have hactivity : ∀ {eventType eventType'}, isPairedActivity eventType eventType' = true →
      (eventType ≠ .nvtxRangeStart ∧ eventType ≠ .nvtxRangeEnd) ∧
        eventType' ≠ .nvtxRangeStart ∧ eventType' ≠ .nvtxRangeEnd := by
    intro eventType eventType' hpair
    unfold isPairedActivity at hpair
    split at hpair
    case h_4 => cases hpair
    all_goals simp
  obtain ⟨hstartType, hendType⟩ := hactivity hpaired
  obtain ⟨_, -, hstartReading⟩ := Core.reading_of_resolveEndpoint hstartPoint hstart
  have hstartNvtx := nvtxNameRegex_of_reading hstartReading hstartType
  obtain ⟨_, -, hendReading⟩ := Core.reading_of_resolveEndpoint hendPoint hend
  have hendNvtx := nvtxNameRegex_of_reading hendReading hendType
  rw [hfilters]
  refine validAggregateFilters_toFilter (selectedRecordKind_paired hpaired hstartKind hendKind)
    ?_ ?_ ?_
  · rw [hdomain, hendDomain] at hstartDomain
    exact (Except.ok.inj hstartDomain).symm
  · rw [hmemcpy]
  · simp only [selectedName, hname, hkernel, hstartNvtx, hendNvtx]

/-! ## The request of the agent -/

/-- The agent reads a filter of the collector back: the same kind, domain, copy kind and match kind,
    and the same name as a C string. -/
structure ReadsBack (read : Filter) (filter : CuptiEventFilter) : Prop where
  recordKind : read.recordKind = filter.recordKind.code
  apiDomain : read.apiDomain = filter.apiDomain.code
  memcpyKind : read.memcpyKind = filter.memcpyKind.code
  nameMatch : read.nameMatch = filter.name.encoded.1.code
  name : cString read.name = utf8Bytes filter.name.encoded.2

structure ArmReadsBack (request : ControlRequest) (config : CuptiArmConfig) : Prop where
  well_formed : request.isWellFormed = true
  command : request.command = ControlCommand.arm.code
  offset : request.recordOffset = 0
  capacity : request.recordCapacity = config.recordCapacity
  mode : request.captureMode = config.captureMode.code
  first_valid : validFilter request.filters.1 = true
  second_valid : validFilter request.filters.2 = true
  first_filter : ∀ filter, config.filters[0]? = some filter → ReadsBack request.filters.1 filter
  second_filter : ∀ filter, config.filters[1]? = some filter → ReadsBack request.filters.2 filter
  no_second_filter : config.filters[1]? = none → ∀ recordKind apiDomain memcpyKind name,
    filterMatchesValues request.filters.2 recordKind apiDomain memcpyKind name = false
  aggregate : FromAggregateSelection config → validAggregateFilters request.filters = true

private theorem readsBack_toFilter {filter : CuptiEventFilter} (h : filter.NameFits) :
    ReadsBack filter.toFilter filter :=
  ⟨rfl, rfl, rfl, rfl, cString_toFilter_name h⟩

private theorem armReadsBack_toRequest {config : CuptiArmConfig} (h : config.Acceptable) :
    ArmReadsBack config.toRequest config := by
  have hnames : ∀ {index : Nat} {filter}, config.filters[index]? = some filter →
      filter.NameFits := fun hfilter => h.names_fit _ (List.mem_of_getElem? hfilter)
  have hfirst : ∃ first, config.filters[0]? = some first :=
    ⟨_, List.getElem?_eq_getElem (List.length_pos_iff.mpr h.filters_ne)⟩
  constructor
  case well_formed => exact toRequest_isWellFormed config
  case first_valid =>
    obtain ⟨first, hfirst⟩ := hfirst
    show validFilter (agentFilters config.filters).1 = true
    rw [agentFilters_first hfirst]
    exact validFilter_toFilter (hnames hfirst)
  case second_valid =>
    show validFilter (agentFilters config.filters).2 = true
    cases hsecond : config.filters[1]? with
    -- an absent filter is the zero filter, which is valid and accepts nothing
    | none =>
      rw [agentFilters_no_second hsecond]
      exact validFilter_emptyFilter
    | some second =>
      rw [agentFilters_second hsecond]
      exact validFilter_toFilter (hnames hsecond)
  case first_filter =>
    intro filter hfilter
    show ReadsBack (agentFilters config.filters).1 filter
    rw [agentFilters_first hfilter]
    exact readsBack_toFilter (hnames hfilter)
  case second_filter =>
    intro filter hfilter
    show ReadsBack (agentFilters config.filters).2 filter
    rw [agentFilters_second hfilter]
    exact readsBack_toFilter (hnames hfilter)
  case no_second_filter =>
    intro hnone
    show ∀ recordKind apiDomain memcpyKind name, filterMatchesValues
      (agentFilters config.filters).2 recordKind apiDomain memcpyKind name = false
    rw [agentFilters_no_second hnone]
    exact filterMatchesValues_of_kind_zero rfl
  case aggregate => exact aggregate_filters_valid
  all_goals rfl

/-- `encode_control` accepts the ARM configurations with a positive capacity, one or two filters and
    names that fit, and the agent reads every accepted one back. -/
theorem encodeControl_arm_readsBack (config : CuptiArmConfig) :
    ((∃ bytes, encodeControl ControlCommand.arm.code 0 (some config) = .ok bytes) ↔
      config.recordCapacity ≠ 0 ∧ (config.filters.length = 1 ∨ config.filters.length = 2) ∧
        ∀ filter ∈ config.filters, (utf8Bytes filter.name.encoded.2).length < 128 ∧
          0 ∉ utf8Bytes filter.name.encoded.2) ∧
    ∀ bytes, encodeControl ControlCommand.arm.code 0 (some config) = .ok bytes →
      ∃ h : bytes.length = controlSize, ArmReadsBack (.ofBytes bytes h) config := by
  constructor
  · have haccept : (∃ bytes, encodeControl ControlCommand.arm.code 0 (some config) =
        .ok bytes) ↔ config.Acceptable := by
      simp [encodeControl_arm_eq_ok_iff]
    rw [haccept]
    have hlength : config.filters ≠ [] ↔ 0 < config.filters.length := List.length_pos_iff.symm
    constructor
    · intro h
      have hpos := hlength.mp h.filters_ne
      have hle := h.filters_le
      exact ⟨h.capacity_ne, by omega, h.names_fit⟩
    · rintro ⟨hcapacity, hcount, hnames⟩
      exact ⟨hcapacity, hlength.mpr (by omega), by omega, hnames⟩
  · intro bytes hbytes
    obtain ⟨haccept, rfl⟩ := (encodeControl_arm_eq_ok_iff config bytes).mp hbytes
    refine ⟨ControlRequest.length_encode rfl, ?_⟩
    rw [ControlRequest.ofBytes_encode rfl]
    exact armReadsBack_toRequest haccept

/-- An aggregate request for one kernel. -/
def gemmConfig : CuptiArmConfig :=
  { recordCapacity := 64
    captureMode := .aggregate
    filters :=
      [{ recordKind := .gpuKernelStart, apiDomain := .any, memcpyKind := .any
         name := .exact "gemm" },
       { recordKind := .gpuKernelEnd, apiDomain := .any, memcpyKind := .any
         name := .exact "gemm" }] }

/-- A system on which the target keeps its identity. -/
def gemmSystem : ValidateSystem :=
  { startTimeBefore := .ok 5, startTimeAfter := .ok 5, startSystem := libcSystem
    endSystem := libcSystem, targetMajor := .ok none }

theorem encodeControl_arm_readsBack_gemm :
    ∃ request, ArmReadsBack request gemmConfig ∧ validAggregateFilters request.filters = true := by
  have hread := encodeControl_arm_readsBack gemmConfig
  obtain ⟨bytes, hbytes⟩ := hread.1.mpr (by decide)
  obtain ⟨h, hrequest⟩ := hread.2 bytes hbytes
  refine ⟨_, hrequest, hrequest.aggregate ?_⟩
  exact ⟨anyRegex, gemmSystem, exampleReport, "cuda:kernel_start:name~^gemm$",
    "cuda:kernel_end:name~^gemm$", "exact", _, 64, .aggregate, rfl, rfl, rfl⟩

end Xprobe.Cli
