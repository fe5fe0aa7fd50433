import Xprobe.Cupti.Agent

/-!
# The memory of a capture

The representation invariant of the agent: the arrays of the current mode have as many entries as
the capacity says. `write_capture` reads the arrays up to the capacity or the committed count, so
this invariant is what keeps it inside them.

`arm_capture` switches the mode before it allocates. If the allocation then fails, the old arrays
stay, under a mode they may not belong to.
-/

namespace Xprobe.Cupti

open Foundation

/-! ## The invariant -/

/-- The arrays of the mode have the entries that the capacity promises. -/
structure Consistent (store : CaptureStore) : Prop where
  aggregate : store.captureMode = CaptureMode.aggregate.code →
    store.aggregateSlots.length = store.recordCapacity.toNat
  records : store.captureMode = CaptureMode.exact.code →
    store.records.length = store.recordCapacity.toNat
  recordReady : store.captureMode = CaptureMode.exact.code →
    store.recordReady.length = store.recordCapacity.toNat

/-- In a consistent store whose committed records fit the capacity, and in one of the two modes, a
    capture is written without leaving an array. -/
theorem writeCapture_inBounds {answers : RequestAnswers} {state : AgentState}
    {recordOffset : UInt64} (h : Consistent state.store)
    (hmode : state.store.captureMode = CaptureMode.aggregate.code ∨
      state.store.captureMode = CaptureMode.exact.code)
    (hcommitted : state.store.committedRecordCount ≤ state.store.recordCapacity) :
    (writeCapture answers state recordOffset).1 ≠ .outOfBounds := by
  rw [writeCapture]
  rcases hmode with haggregate | hexact
  · have hslots := h.aggregate haggregate
    simp only [haggregate, hslots, lt_irrefl, if_true, if_false]
    split_ifs <;> simp
  · have hrecords := h.records hexact
    have hne : CaptureMode.exact.code ≠ CaptureMode.aggregate.code := by decide
    have hfits : ¬ state.store.records.length < state.store.committedRecordCount.toNat := by
      rw [hrecords, not_lt]
      exact UInt64.le_iff_toNat_le.mp hcommitted
    simp only [hexact, hne, hfits, if_false]
    split_ifs <;> simp

/-! ## Allocation -/

/-- An allocation that succeeds: the capacity fits, the allocator grants the arrays, and they replace
    the old ones. -/
theorem allocateCapture_eq_some {answers : AllocatorAnswers} {capacity : UInt64} {needsNvtx : Bool}
    {store store' : CaptureStore}
    (h : allocateCapture answers capacity needsNvtx store = some store') :
    capacityFits capacity store.captureMode needsNvtx = true ∧
      answers.grant store.captureMode needsNvtx = true ∧
      store' =
        { store with
          records :=
            if !(store.captureMode == CaptureMode.aggregate.code) && answers.records then
              List.replicate capacity.toNat zeroRecord else []
          recordReady :=
            if !(store.captureMode == CaptureMode.aggregate.code) && answers.recordReady then
              List.replicate capacity.toNat false else []
          aggregateSlots :=
            if store.captureMode == CaptureMode.aggregate.code then
              List.replicate capacity.toNat zeroAggregateSlot else []
          nvtxRangeSlots :=
            if needsNvtx then List.replicate capacity.toNat zeroNvtxRangeSlot else []
          nvtxRangeCapacity := if needsNvtx then capacity else 0
          recordCapacity := capacity } := by
  rw [allocateCapture] at h
  by_cases hfits : capacityFits capacity store.captureMode needsNvtx = true
  swap
  · simp [hfits] at h
  by_cases hgrant : answers.grant store.captureMode needsNvtx = true
  swap
  · simp [hfits, hgrant] at h
  rw [hfits, hgrant, Bool.not_true, if_neg Bool.false_ne_true, if_neg Bool.false_ne_true] at h
  exact ⟨hfits, hgrant, (Option.some.inj h).symm⟩

/-- What an allocation that succeeds leaves behind. -/
structure Allocated (store : CaptureStore) (capacity : UInt64) (store' : CaptureStore) : Prop where
  consistent : Consistent store'
  captureMode : store'.captureMode = store.captureMode
  recordCapacity : store'.recordCapacity = capacity
  no_records : store.captureMode = CaptureMode.aggregate.code →
    store'.records = [] ∧ store'.recordReady = []

theorem allocated_of_eq_some {answers : AllocatorAnswers} {capacity : UInt64} {needsNvtx : Bool}
    {store store' : CaptureStore}
    (h : allocateCapture answers capacity needsNvtx store = some store') :
    Allocated store capacity store' := by
  obtain ⟨-, hgrant, rfl⟩ := allocateCapture_eq_some h
  have hne : (CaptureMode.exact.code == CaptureMode.aggregate.code) = false := by decide
  refine ⟨⟨?_, ?_, ?_⟩, rfl, rfl, ?_⟩
  · intro hmode
    change store.captureMode = _ at hmode
    simp [hmode]
  · -- in exact mode both arrays were granted
    intro hmode
    change store.captureMode = _ at hmode
    simp only [AllocatorAnswers.grant, hmode, hne] at hgrant
    have hrecords : answers.records = true := by
      cases hr : answers.records with
      | true => rfl
      | false => simp [hr] at hgrant
    simp [hmode, hne, hrecords]
  · intro hmode
    change store.captureMode = _ at hmode
    simp only [AllocatorAnswers.grant, hmode, hne] at hgrant
    have hready : answers.recordReady = true := by
      cases hr : answers.recordReady with
      | true => rfl
      | false => simp [hr] at hgrant
    simp [hmode, hne, hready]
  · intro hmode
    simp [hmode]

theorem Consistent.reset {store : CaptureStore} (h : Consistent store) :
    Consistent store.reset := by
  have hne : CaptureMode.exact.code ≠ CaptureMode.aggregate.code := by decide
  refine ⟨?_, ?_, ?_⟩
  · intro hmode
    change store.captureMode = _ at hmode
    simp only [CaptureStore.reset, hmode, if_true, List.length_map]
    exact h.aggregate hmode
  · intro hmode
    exact h.records hmode
  · intro hmode
    change store.captureMode = _ at hmode
    simp only [CaptureStore.reset, hmode, hne, if_false, List.length_map]
    exact h.recordReady hmode

/-! ## Arming -/

def CaptureStore.withMode (store : CaptureStore) (request : ControlRequest) : CaptureStore :=
  { store with captureMode := request.captureMode }

/-- The ARM request passes every check before the mode is switched: its offset is zero, its filters
    are valid, and an agent that still captures can be shut down. -/
def ReachesAllocation (answers : RequestAnswers) (request : ControlRequest) (state : AgentState) :
    Prop :=
  request.recordOffset = 0 ∧ request.hasValidFilters = true ∧
    (shutdownForArm answers state.control).1 = .ready

instance (answers : RequestAnswers) (request : ControlRequest) (state : AgentState) :
    Decidable (ReachesAllocation answers request state) := by
  unfold ReachesAllocation
  infer_instance

def armAllocation (answers : RequestAnswers) (request : ControlRequest) (store : CaptureStore) :
    Option CaptureStore :=
  allocateCapture answers.allocator request.recordCapacity (filtersNeedNvtx request.filters)
    (store.withMode request)

variable {answers : RequestAnswers} {request : ControlRequest} {state : AgentState}

/-- `arm_capture` in one piece: what it does depends on how far it comes. -/
theorem armCapture_eq (hoffset : request.recordOffset = 0) : armCapture answers request state =
      if ReachesAllocation answers request state then
        match armAllocation answers request state.store with
        | none => (.outputError, ⟨state.store.withMode request,
            (shutdownForArm answers state.control).2.rememberOutputError⟩)
        | some store =>
          startCapture answers request ⟨store, (shutdownForArm answers state.control).2⟩
      else if request.hasValidFilters = true then
        ((shutdownForArm answers state.control).1,
          { state with control := (shutdownForArm answers state.control).2 })
      else (.outputError, { state with control := state.control.rememberOutputError }) := by
  rw [armCapture]
  by_cases hfilters : request.hasValidFilters = true
  · simp only [hfilters, Bool.not_true, Bool.false_eq_true, if_false, if_true]
    -- the shutdown decides whether the mode is switched at all
    cases hshutdown : shutdownForArm answers state.control with
    | mk status control =>
      have hreach : ReachesAllocation answers request state ↔ status = .ready := by
        simp [ReachesAllocation, hoffset, hfilters, hshutdown]
      simp only [hreach]
      cases status <;> rfl
  · have hreach : ¬ ReachesAllocation answers request state := fun h => hfilters h.2.1
    simp [hfilters, hreach]

/-- What an ARM request does to the store. -/
theorem runCommand_arm_store (harm : request.command = ControlCommand.arm.code) :
    (runCommand answers request state).store =
      if ReachesAllocation answers request state then
        (armAllocation answers request state.store).elim (state.store.withMode request)
          CaptureStore.reset
      else state.store := by
  rw [runCommand, if_pos harm]
  by_cases hoffset : request.recordOffset = 0
  · rw [if_neg (not_not.mpr hoffset), armCapture_eq hoffset]
    split_ifs
    · cases armAllocation answers request state.store <;> rfl
    · rfl
    · rfl
  · have hreach : ¬ ReachesAllocation answers request state := fun h => hoffset h.1
    rw [if_neg hreach, if_pos hoffset]

/-- When a capture is written after an ARM request, the arrays fit the mode exactly when the request
    was refused before the mode was switched and they fitted already, or the allocation succeeded,
    or the old arrays happen to fit the new mode. -/
theorem arm_consistent_iff (answers : RequestAnswers) (request : ControlRequest)
    (state : AgentState) (harm : request.command = ControlCommand.arm.code) :
    Consistent (runCommand answers request state).store ↔
      if ReachesAllocation answers request state then
        (armAllocation answers request state.store).isSome = true ∨
          Consistent (state.store.withMode request)
      else Consistent state.store := by
  rw [runCommand_arm_store harm]
  by_cases hreach : ReachesAllocation answers request state
  · rw [if_pos hreach, if_pos hreach]
    cases halloc : armAllocation answers request state.store with
    | none => simp
    | some store =>
      have hstore := (allocated_of_eq_some halloc).consistent
      simp [hstore.reset]
  · rw [if_neg hreach, if_neg hreach]

/-! ## A failed allocation -/

/-- The agent before its first request. -/
def idleAgent : AgentState :=
  { store :=
      { records := [], recordReady := [], aggregateSlots := [], nvtxRangeSlots := []
        nvtxRangeCapacity := 0, recordCapacity := 0, captureMode := CaptureMode.exact.code
        recordCount := 0, committedRecordCount := 0, agentDroppedRecords := 0
        cuptiDroppedRecords := 0, unknownRecords := 0 }
    control :=
      { agentStatus := .ready, captureState := .idle, stopReason := .none
        captureStartTimestampNs := 0, subscriberActive := false, enabledActivityMask := ∅
        captureFilters := (zeroFilter 0, zeroFilter 0), captureFilterEnabled := false
        nvtxInjectionActive := false, snapshotThreadStop := false } }
where
  /-- A filter for every record of a kind. -/
  zeroFilter (kind : UInt32) : Filter :=
    { recordKind := kind, apiDomain := 0, memcpyKind := 0, nameMatch := NameMatch.any.code
      name := List.replicate nameLength 0, name_length := length_zeroName }

/-- An environment in which everything succeeds. -/
def willingEnvironment : RequestAnswers :=
  { flushLock := true
    shutdown := willing
    allocator :=
      { records := true, recordReady := true, aggregateSlots := true, nvtxRangeSlots := true }
    activate :=
      { getVersion := true, monotonicTimestampNs := some 0, lock := true, subscribe := true
        unlock := true, activityClock := .ready, registerCallbacks := true
        enable := fun _ => true, runtimeCallbacks := .ready, driverCallbacks := .ready
        nvtxCallbacks := true, shutdown := willing }
    flushAll := true
    buffersReturned := true
    numDropped := some 0
    captureEndTimestampNs := some 100 }
where
  willing : ShutdownAnswers :=
    { disable := fun _ => true, lock := true, disableDomains := true, unsubscribe := true
      unlock := true }

def armKernels (mode : CaptureMode) (capacity : UInt64) : ControlRequest :=
  { magic := controlMagic
    version := controlVersion
    command := ControlCommand.arm.code
    recordCapacity := capacity
    recordOffset := 0
    captureMode := mode.code
    reserved := 0
    filters :=
      (idleAgent.zeroFilter RecordKind.gpuKernelStart.code,
        idleAgent.zeroFilter RecordKind.gpuKernelEnd.code) }

/-- The agent after it was armed to record two kernel events exactly. -/
def exactAgent : AgentState := runCommand willingEnvironment (armKernels .exact 2) idleAgent

/-- A second ARM request whose allocation succeeds keeps the invariant. -/
theorem arm_consistent_aggregate :
    Consistent (runCommand willingEnvironment (armKernels .aggregate 3) exactAgent).store := by
  have hreach : ReachesAllocation willingEnvironment (armKernels .aggregate 3) exactAgent := by
    decide
  rw [arm_consistent_iff willingEnvironment (armKernels .aggregate 3) exactAgent rfl,
    if_pos hreach]
  exact .inl rfl

/-- A second ARM request, for aggregates and without capacity, leaves an agent that would read two
    aggregate slots where there are none. -/
theorem arm_inconsistent_aggregate : ¬ Consistent
        (runCommand willingEnvironment (armKernels .aggregate 0) exactAgent).store ∧
      (serveRequest willingEnvironment (armKernels .aggregate 0) exactAgent).1 =
        some .outOfBounds := by
  refine ⟨fun h => ?_, rfl⟩
  have hslots := h.aggregate rfl
  exact absurd hslots (by decide)

end Xprobe.Cupti
