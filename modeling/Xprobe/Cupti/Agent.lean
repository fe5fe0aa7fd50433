import Xprobe.Foundation.Word
import Xprobe.Cupti.Filter

/-!
# The agent

The state of the CUPTI agent and what it does on a control request (`cupti/src/cupti_agent.c`).

The global variables are split in two: the `CaptureStore` has the arrays, their capacity, the mode
and the counters, the `AgentControl` the rest. Functions that only talk to CUPTI take and return the
control part, so they cannot touch the store.

What the environment decides (the allocator, CUPTI, the clock, the locks) is a record of answers for
one request. An array is the list of its entries; a null pointer is an array without entries.
-/

namespace Xprobe.Cupti

open Foundation

/-! ## State -/

/-- `enum xprobe_cupti_agent_status`. -/
inductive AgentStatus where
  | ready
  | unavailable
  | cuptiError
  | outputError
  deriving Repr, DecidableEq

/-- `struct xprobe_cupti_aggregate_slot`. -/
structure AggregateSlot where
  state : UInt64
  count : UInt64
  totalDurationNs : UInt64
  minDurationNs : UInt64
  maxDurationNs : UInt64
  totalBytes : UInt64
  kind : UInt32
  deviceId : UInt32
  memcpyKind : UInt32
  name : List UInt8
  name_length : name.length = nameLength

/-- `struct xprobe_nvtx_range_slot`. -/
structure NvtxRangeSlot where
  state : UInt64
  rangeId : UInt64
  rangeKind : UInt32
  startTid : UInt32
  nameComplete : UInt32
  name : List UInt8
  name_length : name.length = nameLength

/-- The memory that a capture is written to, with its counters. -/
structure CaptureStore where
  records : List Record
  recordReady : List Bool
  aggregateSlots : List AggregateSlot
  nvtxRangeSlots : List NvtxRangeSlot
  nvtxRangeCapacity : UInt64
  recordCapacity : UInt64
  captureMode : UInt32
  recordCount : UInt64
  committedRecordCount : UInt64
  agentDroppedRecords : UInt64
  cuptiDroppedRecords : UInt64
  unknownRecords : UInt64

/-- The bits of `enabled_activity_mask`. -/
inductive ActivityKind where
  | kernel
  | memcpy
  | memset
  deriving Repr, DecidableEq

/-- The status of the agent, its subscription and its filters. -/
structure AgentControl where
  agentStatus : AgentStatus
  captureState : CaptureState
  stopReason : StopReason
  captureStartTimestampNs : UInt64
  subscriberActive : Bool
  enabledActivityMask : Finset ActivityKind
  captureFilters : Filter × Filter
  captureFilterEnabled : Bool
  nvtxInjectionActive : Bool
  snapshotThreadStop : Bool

structure AgentState where
  store : CaptureStore
  control : AgentControl

/-! ## Errors -/

/-- `remember_cupti_error`. -/
def AgentControl.rememberCuptiError (control : AgentControl) : AgentControl :=
  { control with agentStatus := .cuptiError, captureState := .failed, stopReason := .cuptiError }

/-- `remember_output_error`. -/
def AgentControl.rememberOutputError (control : AgentControl) : AgentControl :=
  { control with agentStatus := .outputError, captureState := .failed, stopReason := .outputError }

/-! ## Allocation -/

/-- Which arrays the allocator grants. -/
structure AllocatorAnswers where
  records : Bool
  recordReady : Bool
  aggregateSlots : Bool
  nvtxRangeSlots : Bool

/-- `sizeof(struct xprobe_cupti_aggregate_slot)`. -/
def aggregateSlotSize : Nat := 192

/-- `sizeof(struct xprobe_nvtx_range_slot)`. -/
def nvtxRangeSlotSize : Nat := 160

def zeroRecord : Record :=
  { timestampNs := 0, kind := 0, pid := 0, tid := 0, deviceId := 0, contextId := 0, streamId := 0
    correlationId := 0, callbackDomain := 0, callbackId := 0, gridX := 0, gridY := 0, gridZ := 0
    blockX := 0, blockY := 0, blockZ := 0, runtimeCorrelationId := 0
    name := List.replicate nameLength 0, name_length := length_zeroName }

def zeroAggregateSlot : AggregateSlot :=
  { state := 0, count := 0, totalDurationNs := 0, minDurationNs := 0, maxDurationNs := 0
    totalBytes := 0, kind := 0, deviceId := 0, memcpyKind := 0
    name := List.replicate nameLength 0, name_length := length_zeroName }

def zeroNvtxRangeSlot : NvtxRangeSlot :=
  { state := 0, rangeId := 0, rangeKind := 0, startTid := 0, nameComplete := 0
    name := List.replicate nameLength 0, name_length := length_zeroName }

/-- The capacity passes the size checks of `allocate_capture`. The check for `record_ready`, whose
    entries are single bytes, follows from the one for `records`. -/
def capacityFits (capacity : UInt64) (mode : UInt32) (needsNvtx : Bool) : Bool :=
  capacity ≠ 0 ∧ capacity.toNat ≤ usizeMax / recordSize ∧
    (mode = CaptureMode.aggregate.code → capacity.toNat ≤ usizeMax / aggregateSlotSize) ∧
    (needsNvtx = true → capacity.toNat ≤ usizeMax / nvtxRangeSlotSize)

/-- The allocator grants every array that `allocate_capture` checks for. -/
def AllocatorAnswers.grant (answers : AllocatorAnswers) (mode : UInt32) (needsNvtx : Bool) : Bool :=
  !(mode == CaptureMode.aggregate.code && !answers.aggregateSlots) &&
    !(mode == CaptureMode.exact.code && (!answers.records || !answers.recordReady)) &&
    !(needsNvtx && !answers.nvtxRangeSlots)

/-- `allocate_capture`: the store with new arrays, or nothing when it fails and keeps the old
    ones. -/
def allocateCapture (answers : AllocatorAnswers) (capacity : UInt64) (needsNvtx : Bool)
    (store : CaptureStore) : Option CaptureStore :=
  if !capacityFits capacity store.captureMode needsNvtx then none
  else if !answers.grant store.captureMode needsNvtx then none
  else
    let aggregate := store.captureMode == CaptureMode.aggregate.code
    some
      { store with
        records :=
          if !aggregate && answers.records then List.replicate capacity.toNat zeroRecord else []
        recordReady :=
          if !aggregate && answers.recordReady then List.replicate capacity.toNat false else []
        aggregateSlots :=
          if aggregate then List.replicate capacity.toNat zeroAggregateSlot else []
        nvtxRangeSlots :=
          if needsNvtx then List.replicate capacity.toNat zeroNvtxRangeSlot else []
        nvtxRangeCapacity := if needsNvtx then capacity else 0
        recordCapacity := capacity }

/-- What `reset_capture` does to the store: no slot is used and every counter is zero. -/
def CaptureStore.reset (store : CaptureStore) : CaptureStore :=
  { store with
    aggregateSlots :=
      if store.captureMode = CaptureMode.aggregate.code then
        store.aggregateSlots.map (fun slot => { slot with state := 0 })
      else store.aggregateSlots
    recordReady :=
      if store.captureMode = CaptureMode.aggregate.code then store.recordReady
      else store.recordReady.map (fun _ => false)
    nvtxRangeSlots := store.nvtxRangeSlots.map (fun slot => { slot with state := 0 })
    recordCount := 0
    committedRecordCount := 0
    agentDroppedRecords := 0
    cuptiDroppedRecords := 0
    unknownRecords := 0 }

/-- `reset_capture`. -/
def resetCapture (state : AgentState) : AgentState :=
  { store := state.store.reset
    control := { state.control with captureState := .idle, stopReason := .none } }

/-! ## Shutting down -/

/-- The answers of CUPTI and of the locks to one `shutdown_agent`. -/
structure ShutdownAnswers where
  disable : ActivityKind → Bool
  lock : Bool
  disableDomains : Bool
  unsubscribe : Bool
  unlock : Bool

/-- The body of the loop of `disable_activities`. -/
def disableActivity (answers : ShutdownAnswers) (result : AgentStatus × AgentControl)
    (kind : ActivityKind) : AgentStatus × AgentControl :=
  if kind ∉ result.2.enabledActivityMask then result
  else if answers.disable kind then
    (result.1,
      { result.2 with enabledActivityMask := result.2.enabledActivityMask.erase kind })
  else (.cuptiError, result.2.rememberCuptiError)

/-- `disable_activities`. -/
def disableActivities (answers : ShutdownAnswers) (control : AgentControl) :
    AgentStatus × AgentControl :=
  [ActivityKind.memset, .memcpy, .kernel].foldl (disableActivity answers) (.ready, control)

/-- The part of `shutdown_agent` under its lock. An agent that routes NVTX calls stays subscribed. -/
def releaseSubscriber (answers : ShutdownAnswers) (status : AgentStatus) (control : AgentControl) :
    AgentStatus × AgentControl :=
  if !control.subscriberActive then (status, control)
  else if control.nvtxInjectionActive then
    if answers.disableDomains then (status, control)
    else (.cuptiError, control.rememberCuptiError)
  else if answers.unsubscribe then (status, { control with subscriberActive := false })
  else (.cuptiError, { control.rememberCuptiError with subscriberActive := false })

/-- `shutdown_agent`. -/
def shutdownAgent (answers : ShutdownAnswers) (control : AgentControl) :
    AgentStatus × AgentControl :=
  let (status, control) := disableActivities answers control
  if !answers.lock then (.outputError, control.rememberOutputError)
  else
    let (status, control) := releaseSubscriber answers status control
    if !answers.unlock then (.outputError, control.rememberOutputError) else (status, control)

/-! ## Activation -/

/-- `CUPTI_CB_DOMAIN_DRIVER_API`. -/
def callbackDomainDriverApi : UInt32 := 1

/-- How setting up the activity clock ends. -/
inductive ActivityClockAnswer where
  | ready
  | cuptiError
  | hostClockError
  | offsetTooLarge
  deriving Repr, DecidableEq

/-- How enabling the API callbacks of a domain ends. -/
inductive CallbackAnswer where
  | ready
  | cuptiError
  | noneMatched
  deriving Repr, DecidableEq

/-- The answers to one `activate_capture`. -/
structure ActivateAnswers where
  getVersion : Bool
  monotonicTimestampNs : Option UInt64
  lock : Bool
  subscribe : Bool
  unlock : Bool
  activityClock : ActivityClockAnswer
  registerCallbacks : Bool
  enable : ActivityKind → Bool
  runtimeCallbacks : CallbackAnswer
  driverCallbacks : CallbackAnswer
  nvtxCallbacks : Bool
  shutdown : ShutdownAnswers

/-- `capture_needs_record_kind`. -/
def AgentControl.needsRecordKind (control : AgentControl) (first second : RecordKind) : Bool :=
  !control.captureFilterEnabled ||
    [control.captureFilters.1, control.captureFilters.2].any (fun filter =>
      filter.recordKind == first.code || filter.recordKind == second.code)

/-- `capture_needs_api_domain`. -/
def AgentControl.needsApiDomain (control : AgentControl) (domain : UInt32) : Bool :=
  control.needsRecordKind .cudaApiEntry .cudaApiExit &&
    (!control.captureFilterEnabled ||
      [control.captureFilters.1, control.captureFilters.2].any (fun filter =>
        (filter.recordKind == RecordKind.cudaApiEntry.code ||
            filter.recordKind == RecordKind.cudaApiExit.code) &&
          (filter.apiDomain == 0 || filter.apiDomain == domain)))

/-- `capture_needs_nvtx_records`. -/
def AgentControl.needsNvtxRecords (control : AgentControl) : Bool :=
  control.captureFilterEnabled && control.needsRecordKind .nvtxRangeStart .nvtxRangeEnd

/-- A step of `activate_capture`: go on with the control part, or return from the function. -/
abbrev Activation := Except (AgentStatus × AgentControl) AgentControl

/-- Shut down and return a status. -/
def ActivateAnswers.giveUp (answers : ActivateAnswers) (status : AgentStatus)
    (control : AgentControl) : Activation :=
  .error (status, (shutdownAgent answers.shutdown control).2)

/-- NVTX records need an agent that was loaded through NVTX. -/
def checkNvtxRouting (control : AgentControl) : Activation :=
  if control.needsNvtxRecords && !control.nvtxInjectionActive then
    .error (.unavailable,
      { control with
        agentStatus := .unavailable, captureState := .failed, stopReason := .cuptiError })
  else .ok control

/-- The version of CUPTI and the time at which the capture starts. -/
def startCaptureClock (answers : ActivateAnswers) (control : AgentControl) : Activation :=
  if !answers.getVersion then .error (.cuptiError, control.rememberCuptiError)
  else
    match answers.monotonicTimestampNs with
    | none => .error (.outputError, control.rememberOutputError)
    | some now => .ok { control with captureStartTimestampNs := now }

/-- `ensure_subscriber`. -/
def ensureSubscriber (answers : ActivateAnswers) (control : AgentControl) :
    AgentStatus × AgentControl :=
  if !answers.lock then (.outputError, control.rememberOutputError)
  else
    let (status, control) :=
      if control.subscriberActive then (.ready, control)
      else if answers.subscribe then (.ready, { control with subscriberActive := true })
      else (AgentStatus.cuptiError, control.rememberCuptiError)
    if !answers.unlock then (.outputError, control.rememberOutputError) else (status, control)

/-- Callbacks of any kind need a subscription. Every failure is returned as a CUPTI error. -/
def subscribeCallbacks (answers : ActivateAnswers) (control : AgentControl) : Activation :=
  if control.needsApiDomain callbackDomainRuntimeApi ||
      control.needsApiDomain callbackDomainDriverApi || control.needsNvtxRecords then
    match ensureSubscriber answers control with
    | (.ready, control) => .ok control
    | (_, control) => .error (.cuptiError, control)
  else .ok control

/-- The activity clock and the buffer callbacks. -/
def registerActivities (answers : ActivateAnswers) (control : AgentControl) : Activation :=
  if control.needsRecordKind .gpuKernelStart .gpuKernelEnd ||
      control.needsRecordKind .gpuMemcpyStart .gpuMemcpyEnd ||
      control.needsRecordKind .gpuMemsetStart .gpuMemsetEnd then
    match answers.activityClock with
    | .cuptiError => answers.giveUp .cuptiError control.rememberCuptiError
    | .hostClockError => answers.giveUp .outputError control.rememberOutputError
    | .offsetTooLarge => answers.giveUp .outputError control
    | .ready =>
      if answers.registerCallbacks then .ok control
      else answers.giveUp .cuptiError control.rememberCuptiError
  else .ok control

/-- `enable_activity`, for records of two kinds. -/
def enableActivity (answers : ActivateAnswers) (kind : ActivityKind) (first second : RecordKind)
    (control : AgentControl) : Activation :=
  if control.needsRecordKind first second then
    if answers.enable kind then
      .ok { control with enabledActivityMask := insert kind control.enabledActivityMask }
    else answers.giveUp .cuptiError control.rememberCuptiError
  else .ok control

/-- `enable_api_callbacks`, for one domain. The status returned is the one remembered. -/
def enableApiCallbacks (answers : ActivateAnswers) (domain : UInt32) (answer : CallbackAnswer)
    (control : AgentControl) : Activation :=
  if control.needsApiDomain domain then
    match answer with
    | .ready => .ok control
    | .cuptiError =>
      let control := (shutdownAgent answers.shutdown control.rememberCuptiError).2
      .error (control.agentStatus, control)
    | .noneMatched =>
      let control := (shutdownAgent answers.shutdown control.rememberOutputError).2
      .error (control.agentStatus, control)
  else .ok control

def enableNvtxCallbacks (answers : ActivateAnswers) (control : AgentControl) : Activation :=
  if control.needsNvtxRecords && !answers.nvtxCallbacks then
    answers.giveUp .cuptiError control.rememberCuptiError
  else .ok control

/-- The steps of `activate_capture` before it sets the capture active. -/
def activationSteps (answers : ActivateAnswers) (control : AgentControl) : Activation := do
  let control ← checkNvtxRouting control
  let control ← startCaptureClock answers control
  let control ← subscribeCallbacks answers control
  let control ← registerActivities answers control
  let control ← enableActivity answers .kernel .gpuKernelStart .gpuKernelEnd control
  let control ← enableActivity answers .memcpy .gpuMemcpyStart .gpuMemcpyEnd control
  let control ← enableActivity answers .memset .gpuMemsetStart .gpuMemsetEnd control
  let control ← enableApiCallbacks answers callbackDomainRuntimeApi answers.runtimeCallbacks control
  let control ← enableApiCallbacks answers callbackDomainDriverApi answers.driverCallbacks control
  enableNvtxCallbacks answers control

/-- `activate_capture`. -/
def activateCapture (answers : ActivateAnswers) (control : AgentControl) :
    AgentStatus × AgentControl :=
  match activationSteps answers control with
  | .error result => result
  | .ok control => (.ready, { control with agentStatus := .ready, captureState := .active })

/-! ## Arming -/

structure RequestAnswers where
  flushLock : Bool
  shutdown : ShutdownAnswers
  allocator : AllocatorAnswers
  activate : ActivateAnswers
  /-- `cuptiActivityFlushAll` succeeds. -/
  flushAll : Bool
  /-- The activity buffers come back in time. -/
  buffersReturned : Bool
  /-- How many records CUPTI reports as dropped, if it answers. -/
  numDropped : Option UInt64
  /-- The time at which the capture is written, if the clock can be read. -/
  captureEndTimestampNs : Option UInt64

def filtersNeedNvtx (filters : Filter × Filter) : Bool :=
  [filters.1, filters.2].any (fun filter =>
    filter.recordKind == RecordKind.nvtxRangeStart.code ||
      filter.recordKind == RecordKind.nvtxRangeEnd.code)

/-- The checks of `arm_capture` on the filters of a request. -/
def ControlRequest.hasValidFilters (request : ControlRequest) : Bool :=
  validFilter request.filters.1 && validFilter request.filters.2 &&
    (request.captureMode != CaptureMode.aggregate.code || validAggregateFilters request.filters)

/-- The shutdown at the beginning of `arm_capture`, for an agent that still captures. -/
def shutdownForArm (answers : RequestAnswers) (control : AgentControl) :
    AgentStatus × AgentControl :=
  if control.subscriberActive || control.enabledActivityMask ≠ ∅ then
    shutdownAgent answers.shutdown control
  else (.ready, control)

/-- The end of `arm_capture`, once the new arrays are there. -/
def startCapture (answers : RequestAnswers) (request : ControlRequest) (state : AgentState) :
    AgentStatus × AgentState :=
  let state := resetCapture state
  let (status, control) := activateCapture answers.activate
    { state.control with captureFilters := request.filters, captureFilterEnabled := true }
  (status, { state with control })

/-- `arm_capture`. The mode is switched before the arrays are allocated. -/
def armCapture (answers : RequestAnswers) (request : ControlRequest) (state : AgentState) :
    AgentStatus × AgentState :=
  if !request.hasValidFilters then
    (.outputError, { state with control := state.control.rememberOutputError })
  else
    match shutdownForArm answers state.control with
    | (.ready, control) =>
      let store := { state.store with captureMode := request.captureMode }
      match allocateCapture answers.allocator request.recordCapacity
        (filtersNeedNvtx request.filters) store with
      | none => (.outputError, { store, control := control.rememberOutputError })
      | some store => startCapture answers request { store, control }
    | (status, control) => (status, { state with control })

/-! ## Flushing and stopping -/

/-- `flush_activity_buffers`. The records that the flush delivers are recorded before it. -/
def flushActivityBuffers (answers : RequestAnswers) (state : AgentState) :
    AgentStatus × AgentState :=
  if !answers.flushAll || !answers.buffersReturned then
    (.cuptiError, { state with control := state.control.rememberCuptiError })
  else
    match answers.numDropped with
    | none => (.cuptiError, { state with control := state.control.rememberCuptiError })
    | some dropped =>
      (state.control.agentStatus,
        { state with
          store :=
            { state.store with cuptiDroppedRecords := state.store.cuptiDroppedRecords + dropped } })

/-- `stop_capture`. -/
def stopCapture (answers : RequestAnswers) (state : AgentState) : AgentStatus × AgentState :=
  let (status, state) :=
    if state.control.enabledActivityMask ≠ ∅ then flushActivityBuffers answers state
    else (.ready, state)
  let (status, state) :=
    if status = .ready ∧
        (state.control.subscriberActive = true ∨ state.control.enabledActivityMask ≠ ∅) then
      let (status, control) := shutdownAgent answers.shutdown state.control
      (status, { state with control })
    else (status, state)
  if status = .ready ∧ state.control.captureState = .active then
    (status,
      { state with
        control := { state.control with captureState := .stopped, stopReason := .requested } })
  else (status, state)

/-! ## Recording -/

/-- `capture_filter_matches`. -/
def AgentControl.filterMatches (control : AgentControl) (record : Record) : Bool :=
  !control.captureFilterEnabled ||
    [control.captureFilters.1, control.captureFilters.2].any (recordMatchesFilter record)

/-- The loop of `enqueue_record` that commits the records that are ready, run to its end. -/
def CaptureStore.commitReady (store : CaptureStore) : CaptureStore :=
  let ready := (store.recordReady.take store.recordCapacity.toNat).drop
    store.committedRecordCount.toNat
  { store with
    committedRecordCount :=
      store.committedRecordCount + UInt64.ofNat (ready.takeWhile id).length }

/-- `enqueue_record`, run alone. -/
def enqueueRecord (state : AgentState) (record : Record) : AgentState :=
  if state.control.captureState ≠ .active then state
  else if !state.control.filterMatches record then state
  else
    let index := state.store.recordCount
    let store := { state.store with recordCount := index + 1 }
    if store.recordCapacity ≤ index then
      { store
        control := { state.control with stopReason := .recordLimit, captureState := .limitReached } }
    else
      { state with
        store := CaptureStore.commitReady
          { store with
            records := store.records.set index.toNat record
            recordReady := store.recordReady.set index.toNat true } }

/-! ## Writing a capture -/

/-- What `write_capture` does: it refuses the offset, reads past the end of an array, or sends
    bytes. -/
inductive WriteOutcome where
  | refused
  | outOfBounds
  | sent (bytes : List UInt8)
  deriving DecidableEq

/-- A slot that holds a group. -/
def AggregateSlot.isUsed (slot : AggregateSlot) : Bool := 2 ≤ slot.state

/-- The record that `write_aggregate_records` sends for a slot. -/
def AggregateSlot.encode (slot : AggregateSlot) : List UInt8 :=
  leU64 slot.count ++ (leU64 slot.totalDurationNs ++ (leU64 slot.minDurationNs ++
    (leU64 slot.maxDurationNs ++ (leU64 slot.totalBytes ++ (leU32 slot.kind ++
    (leU32 slot.deviceId ++ (leU32 slot.memcpyKind ++ (List.replicate 20 0 ++ slot.name))))))))

/-- The loop of `aggregate_observed_records`: the sum of the counts of the used slots, unless it
    exceeds `UINT64_MAX`. -/
def sumCounts : List AggregateSlot → UInt64 → Option UInt64
  | [], observed => some observed
  | slot :: rest, observed =>
    if slot.isUsed then (checkedAdd observed slot.count).bind (sumCounts rest)
    else sumCounts rest observed

/-- `aggregate_observed_records`, without the error it remembers. -/
def CaptureStore.aggregateObservedRecords (store : CaptureStore) : Option UInt64 :=
  (sumCounts (store.aggregateSlots.take store.recordCapacity.toNat) 0).bind
    (checkedAdd · store.agentDroppedRecords)

/-- `XPROBE_CUPTI_CLOCK_MARGIN_NS`. -/
def clockMarginNs : UInt64 := 1000000000

/-- `XPROBE_CUPTI_CORRELATION_CLOCK_MARGIN_NS`. -/
def correlationClockMarginNs : UInt64 := 1000000

def Record.isActivity (record : Record) : Bool :=
  RecordKind.gpuKernelStart.code ≤ record.kind && record.kind ≤ RecordKind.gpuMemsetEnd.code

def outsideCapture (startNs endNs timestampNs : UInt64) : Bool :=
  (timestampNs < startNs && startNs - timestampNs > clockMarginNs) ||
    (timestampNs > endNs && timestampNs - endNs > clockMarginNs)

/-- The first kernel starts too long before the call that launched it. -/
def launchedTooLate (records : List Record) : Bool :=
  match records.find? (fun record => record.kind == RecordKind.gpuKernelStart.code) with
  | none => false
  | some kernel =>
    match records.find? (fun record => record.kind == RecordKind.cudaApiEntry.code &&
        record.correlationId == kernel.correlationId) with
    | none => false
    | some call =>
      kernel.timestampNs < call.timestampNs &&
        call.timestampNs - kernel.timestampNs > correlationClockMarginNs

/-- `activity_timestamps_are_host_monotonic`, once the clock was read. -/
def activityTimestampsAreHostMonotonic (records : List Record) (startNs endNs : UInt64) : Bool :=
  !records.any (fun record =>
      record.isActivity && outsideCapture startNs endNs record.timestampNs) &&
    !launchedTooLate records

/-- The feature flags that `initialize_output_header` sets, and the control part after it. -/
def featureFlagsOf (answers : RequestAnswers) (store : CaptureStore) (control : AgentControl) :
    UInt32 × AgentControl :=
  let base := featureTransferRecords |||
    (if control.nvtxInjectionActive then featureNvtxRecords else 0)
  if store.captureMode = CaptureMode.aggregate.code then (base ||| featureAggregateRecords, control)
  else
    match answers.captureEndTimestampNs with
    | none => (base, control.rememberOutputError)
    | some endNs =>
      if activityTimestampsAreHostMonotonic
          (store.records.take store.committedRecordCount.toNat) control.captureStartTimestampNs
          endNs then
        (base ||| featureHostMonotonicTimestamps, control)
      else (base, control)

/-- The observed records that the header reports, and the control part after they were counted. -/
def observedRecordsOf (store : CaptureStore) (control : AgentControl) : UInt64 × AgentControl :=
  if store.captureMode = CaptureMode.aggregate.code then
    match store.aggregateObservedRecords with
    | some observed => (observed, control)
    | none => (UInt64.ofNat (2 ^ 64 - 1), control.rememberOutputError)
  else (store.recordCount, control)

/-- `initialize_output_header`. -/
def initializeOutputHeader (answers : RequestAnswers) (state : AgentState) (recordOffset : UInt64) :
    OutputHeader × AgentControl :=
  let store := state.store
  let (observedRecords, control) := observedRecordsOf store state.control
  let (featureFlags, control) := featureFlagsOf answers store control
  ({ featureFlags
     captureState := control.captureState.code
     stopReason := control.stopReason.code
     recordCount := store.committedRecordCount - recordOffset
     recordCapacity := store.recordCapacity
     observedRecords
     agentDroppedRecords := store.agentDroppedRecords
     cuptiDroppedRecords := store.cuptiDroppedRecords
     unknownRecords := store.unknownRecords
     recordOffset }, control)

/-- `write_capture` to a socket that takes all bytes. -/
def writeCapture (answers : RequestAnswers) (state : AgentState) (recordOffset : UInt64) :
    WriteOutcome × AgentState :=
  let store := state.store
  if (store.captureMode = CaptureMode.aggregate.code ∧ recordOffset ≠ 0) ∨
      store.committedRecordCount < recordOffset then (.refused, state)
  else if store.captureMode = CaptureMode.aggregate.code then
    if store.aggregateSlots.length < store.recordCapacity.toNat then (.outOfBounds, state)
    else
      let (header, control) := initializeOutputHeader answers state recordOffset
      let slots := (store.aggregateSlots.take store.recordCapacity.toNat).filter AggregateSlot.isUsed
      (.sent (header.encode ++ (slots.map AggregateSlot.encode).flatten), { state with control })
  else if store.records.length < store.committedRecordCount.toNat then (.outOfBounds, state)
  else
    let (header, control) := initializeOutputHeader answers state recordOffset
    let records := (store.records.take store.committedRecordCount.toNat).drop recordOffset.toNat
    (.sent (encodeCapture header records), { state with control })

/-! ## Control requests -/

/-- The command of a request in `serve_snapshots`. The status it returns is not used. -/
def runCommand (answers : RequestAnswers) (request : ControlRequest) (state : AgentState) :
    AgentState :=
  if request.command = ControlCommand.arm.code then
    if request.recordOffset ≠ 0 then state else (armCapture answers request state).2
  else if request.command = ControlCommand.snapshot.code then
    if state.control.captureState = .active then (flushActivityBuffers answers state).2 else state
  else (stopCapture answers state).2

/-- One turn of `serve_snapshots`: the command, then the capture, whether the command succeeded or
    not. Nothing is sent for an invalid request. -/
def serveRequest (answers : RequestAnswers) (request : ControlRequest) (state : AgentState) :
    Option WriteOutcome × AgentState :=
  if state.control.snapshotThreadStop || !request.isWellFormed || !answers.flushLock then
    (none, state)
  else
    let (outcome, state) :=
      writeCapture answers (runCommand answers request state) request.recordOffset
    let closeRequested := request.command == ControlCommand.close.code
    (some outcome,
      { state with
        control :=
          { state.control with
            snapshotThreadStop := state.control.snapshotThreadStop || closeRequested } })

end Xprobe.Cupti
