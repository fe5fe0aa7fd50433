import Xprobe.Cupti.Accepted
import Xprobe.Cupti.AgentMemory

/-!
# What a request does to the recorded capture

Said once for every control request: an ARM request that reaches `reset_capture` leaves an empty
capture, and every other request keeps the arrays and the committed records as they are. Capturing
is never resumed except by such an ARM request.
-/

namespace Xprobe.Cupti

open Foundation

/-! ## Shutting down -/

/-- The control part did not start to capture. -/
def NotRevived (before after : AgentControl) : Prop :=
  after.captureState = .active → before.captureState = .active

theorem NotRevived.refl (control : AgentControl) : NotRevived control control := id

theorem notRevived_rememberCuptiError (before control : AgentControl) :
    NotRevived before control.rememberCuptiError := nofun

theorem notRevived_rememberOutputError (before control : AgentControl) :
    NotRevived before control.rememberOutputError := nofun

/-- The state of the capture stays as it was, or the capture failed. -/
def SameOrFailed (before after : AgentControl) : Prop :=
  after.captureState = before.captureState ∨ after.captureState = .failed

theorem SameOrFailed.trans {a b c : AgentControl} (hab : SameOrFailed a b)
    (hbc : SameOrFailed b c) : SameOrFailed a c := by
  rcases hbc with hsame | hfailed
  · exact hab.imp hsame.trans hsame.trans
  · exact .inr hfailed

theorem SameOrFailed.notRevived {before after : AgentControl} (h : SameOrFailed before after) :
    NotRevived before after := by
  intro hactive
  rcases h with hsame | hfailed
  · exact hsame.symm.trans hactive
  · rw [hfailed] at hactive
    cases hactive

theorem sameOrFailed_disableActivity (answers : ShutdownAnswers)
    (result : AgentStatus × AgentControl) (kind : ActivityKind) :
    SameOrFailed result.2 (disableActivity answers result kind).2 := by
  unfold disableActivity
  split_ifs
  · exact .inl rfl
  · exact .inr rfl
  · exact .inl rfl

theorem sameOrFailed_disableActivities (answers : ShutdownAnswers) (control : AgentControl) :
    SameOrFailed control (disableActivities answers control).2 := by
  have hstep := sameOrFailed_disableActivity answers
  exact ((hstep _ .memset).trans (hstep _ .memcpy)).trans (hstep _ .kernel)

theorem sameOrFailed_releaseSubscriber (answers : ShutdownAnswers) (status : AgentStatus)
    (control : AgentControl) :
    SameOrFailed control (releaseSubscriber answers status control).2 := by
  unfold releaseSubscriber
  split_ifs
  · exact .inl rfl
  · exact .inl rfl
  · exact .inr rfl
  · exact .inl rfl
  · exact .inr rfl

theorem sameOrFailed_shutdownAgent (answers : ShutdownAnswers) (control : AgentControl) :
    SameOrFailed control (shutdownAgent answers control).2 := by
  have hdisable := sameOrFailed_disableActivities answers control
  unfold shutdownAgent
  cases hresult : disableActivities answers control with
  | mk status control' =>
    rw [hresult] at hdisable
    have hrelease := sameOrFailed_releaseSubscriber answers status control'
    dsimp only
    split_ifs
    · exact .inr rfl
    · exact .inr rfl
    · exact hdisable.trans hrelease

theorem notRevived_shutdownAgent (answers : ShutdownAnswers) (control : AgentControl) :
    NotRevived control (shutdownAgent answers control).2 :=
  (sameOrFailed_shutdownAgent answers control).notRevived

theorem notRevived_shutdownForArm (answers : RequestAnswers) (control : AgentControl) :
    NotRevived control (shutdownForArm answers control).2 := by
  unfold shutdownForArm
  split_ifs
  · exact notRevived_shutdownAgent _ _
  · exact .refl _

/-! ## Requests that keep the capture -/

/-- The arrays and the committed records are the same. An agent that captures now did so before,
    and in the same mode. -/
structure Kept (before after : AgentState) : Prop where
  records : after.store.records = before.store.records
  recordReady : after.store.recordReady = before.store.recordReady
  committed : after.store.committedRecordCount = before.store.committedRecordCount
  active : after.control.captureState = .active →
    before.control.captureState = .active ∧ after.store.captureMode = before.store.captureMode

theorem Kept.refl (state : AgentState) : Kept state state := ⟨rfl, rfl, rfl, fun h => ⟨h, rfl⟩⟩

theorem Kept.trans {a b c : AgentState} (hab : Kept a b) (hbc : Kept b c) : Kept a c where
  records := hbc.records.trans hab.records
  recordReady := hbc.recordReady.trans hab.recordReady
  committed := hbc.committed.trans hab.committed
  active h := by
    obtain ⟨hactive, hmode⟩ := hbc.active h
    obtain ⟨hactive', hmode'⟩ := hab.active hactive
    exact ⟨hactive', hmode.trans hmode'⟩

variable {answers : RequestAnswers} {state : AgentState} {request : ControlRequest}

/-- Only the control part changed. -/
theorem kept_of_control {control : AgentControl} (h : NotRevived state.control control) :
    Kept state { state with control } :=
  ⟨rfl, rfl, rfl, fun hactive => ⟨h hactive, rfl⟩⟩

/-! ## Requests that do not arm -/

/-- What a request other than ARM can do: the count of records that CUPTI dropped may change, and
    the capture may fail or be stopped. -/
structure WindsDown (before after : AgentState) : Prop where
  store : ∃ dropped, after.store = { before.store with cuptiDroppedRecords := dropped }
  captureState : after.control.captureState = before.control.captureState ∨
    after.control.captureState = .failed ∨
    before.control.captureState = .active ∧ after.control.captureState = .stopped

theorem WindsDown.refl (state : AgentState) : WindsDown state state := ⟨⟨_, rfl⟩, .inl rfl⟩

theorem WindsDown.trans {a b c : AgentState} (hab : WindsDown a b) (hbc : WindsDown b c) :
    WindsDown a c := by
  obtain ⟨dropped, hb⟩ := hab.store
  obtain ⟨dropped', hc⟩ := hbc.store
  refine ⟨⟨dropped', by rw [hc, hb]⟩, ?_⟩
  rcases hbc.captureState with hsame | hfailed | ⟨hactive, hstopped⟩
  · rw [hsame]
    exact hab.captureState
  · exact .inr (.inl hfailed)
  · -- only an active capture is stopped, so it was active all along
    rcases hab.captureState with hsame | hfailed | ⟨-, hstopped'⟩
    · exact .inr (.inr ⟨hsame.symm.trans hactive, hstopped⟩)
    · rw [hfailed] at hactive
      cases hactive
    · rw [hstopped'] at hactive
      cases hactive

theorem WindsDown.kept {before after : AgentState} (h : WindsDown before after) :
    Kept before after := by
  obtain ⟨dropped, hstore⟩ := h.store
  refine ⟨by rw [hstore], by rw [hstore], by rw [hstore], fun hactive => ⟨?_, by rw [hstore]⟩⟩
  rcases h.captureState with hsame | hfailed | ⟨-, hstopped⟩
  · exact hsame.symm.trans hactive
  · rw [hfailed] at hactive
    cases hactive
  · rw [hstopped] at hactive
    cases hactive

/-- Only the control part changed. -/
theorem windsDown_of_control {control : AgentControl} (h : SameOrFailed state.control control) :
    WindsDown state { state with control } :=
  ⟨⟨_, rfl⟩, h.imp id Or.inl⟩

theorem windsDown_flushActivityBuffers (answers : RequestAnswers) (state : AgentState) :
    WindsDown state (flushActivityBuffers answers state).2 := by
  unfold flushActivityBuffers
  split_ifs
  · exact windsDown_of_control (.inr rfl)
  · cases answers.numDropped with
    | none => exact windsDown_of_control (.inr rfl)
    | some dropped => exact ⟨⟨_, rfl⟩, .inl rfl⟩

/-- The flush at the beginning of `stop_capture`. -/
def stopFlush (answers : RequestAnswers) (state : AgentState) : AgentStatus × AgentState :=
  if state.control.enabledActivityMask ≠ ∅ then flushActivityBuffers answers state
  else (.ready, state)

/-- The shutdown of `stop_capture`, after its flush. -/
def stopShutdown (answers : RequestAnswers) (flushed : AgentStatus × AgentState) :
    AgentStatus × AgentState :=
  if flushed.1 = .ready ∧ (flushed.2.control.subscriberActive = true ∨
      flushed.2.control.enabledActivityMask ≠ ∅) then
    ((shutdownAgent answers.shutdown flushed.2.control).1,
      { flushed.2 with control := (shutdownAgent answers.shutdown flushed.2.control).2 })
  else flushed

/-- The end of `stop_capture`: a capture that was active is stopped. -/
def stopFinish (stopped : AgentStatus × AgentState) : AgentStatus × AgentState :=
  if stopped.1 = .ready ∧ stopped.2.control.captureState = .active then
    (stopped.1,
      { stopped.2 with
        control :=
          { stopped.2.control with captureState := .stopped, stopReason := .requested } })
  else stopped

theorem stopCapture_eq (answers : RequestAnswers) (state : AgentState) :
    stopCapture answers state = stopFinish (stopShutdown answers (stopFlush answers state)) := by
  unfold stopCapture stopFlush
  -- one part after the other, so that nothing is unfolded further
  generalize (if state.control.enabledActivityMask ≠ ∅ then flushActivityBuffers answers state
    else (AgentStatus.ready, state)) = flushed
  obtain ⟨status, flushed⟩ := flushed
  unfold stopShutdown
  dsimp only
  generalize (if status = .ready ∧
      (flushed.control.subscriberActive = true ∨ flushed.control.enabledActivityMask ≠ ∅) then
    ((shutdownAgent answers.shutdown flushed.control).1,
      { flushed with control := (shutdownAgent answers.shutdown flushed.control).2 })
    else (status, flushed)) = stopped
  obtain ⟨status, stopped⟩ := stopped
  rfl

theorem windsDown_stopCapture (answers : RequestAnswers) (state : AgentState) :
    WindsDown state (stopCapture answers state).2 := by
  have hflush : WindsDown state (stopFlush answers state).2 := by
    unfold stopFlush
    split_ifs
    · exact windsDown_flushActivityBuffers answers state
    · exact .refl state
  have hshutdown : ∀ flushed, WindsDown flushed.2 (stopShutdown answers flushed).2 := by
    intro flushed
    unfold stopShutdown
    split_ifs
    · exact windsDown_of_control (sameOrFailed_shutdownAgent _ _)
    · exact .refl _
  have hfinish : ∀ stopped, WindsDown stopped.2 (stopFinish stopped).2 := by
    intro stopped
    unfold stopFinish
    split_ifs with hactive
    · exact ⟨⟨_, rfl⟩, .inr (.inr ⟨hactive.2, rfl⟩)⟩
    · exact .refl _
  rw [stopCapture_eq]
  exact (hflush.trans (hshutdown _)).trans (hfinish _)

theorem windsDown_runCommand (h : request.command ≠ ControlCommand.arm.code)
    (answers : RequestAnswers) (state : AgentState) :
    WindsDown state (runCommand answers request state) := by
  rw [runCommand, if_neg h]
  split_ifs
  · exact windsDown_flushActivityBuffers answers state
  · exact .refl state
  · exact windsDown_stopCapture answers state

/-! ## Requests that renew the capture -/

/-- The request is an ARM request whose arrays are allocated. -/
def Resets (answers : RequestAnswers) (request : ControlRequest) (state : AgentState) : Prop :=
  request.command = ControlCommand.arm.code ∧ ReachesAllocation answers request state ∧
    (armAllocation answers request state.store).isSome = true

instance (answers : RequestAnswers) (request : ControlRequest) (state : AgentState) :
    Decidable (Resets answers request state) :=
  inferInstanceAs (Decidable (_ ∧ _ ∧ _))

/-- Only ARM resets. -/
theorem not_resets (h : request.command ≠ ControlCommand.arm.code) :
    ¬ Resets answers request state :=
  fun hresets => h hresets.1

theorem kept_armCapture (hoffset : request.recordOffset = 0)
    (h : ReachesAllocation answers request state → armAllocation answers request state.store = none) :
    Kept state (armCapture answers request state).2 := by
  rw [armCapture_eq hoffset]
  split_ifs with hreach
  · -- the mode is switched, but the failed allocation ends the capture
    rw [h hreach]
    exact ⟨rfl, rfl, rfl, nofun⟩
  · exact kept_of_control (notRevived_shutdownForArm answers state.control)
  · exact kept_of_control (notRevived_rememberOutputError _ _)

/-- A request that does not reset the capture keeps it. -/
theorem kept_runCommand (h : ¬ Resets answers request state) :
    Kept state (runCommand answers request state) := by
  by_cases harm : request.command = ControlCommand.arm.code
  swap
  · exact (windsDown_runCommand harm answers state).kept
  rw [runCommand, if_pos harm]
  split_ifs with hoffset
  · exact .refl state
  · refine kept_armCapture (not_not.mp hoffset) fun hreach => ?_
    cases halloc : armAllocation answers request state.store with
    | none => rfl
    | some store => exact absurd ⟨harm, hreach, by rw [halloc]; rfl⟩ h

/-- An empty capture: nothing is committed and no record is ready. -/
structure Renewed (store : CaptureStore) : Prop where
  committed : store.committedRecordCount = 0
  ready : ∀ ready ∈ store.recordReady, ready = false
  lengths : store.recordReady.length = store.records.length
  no_records : store.captureMode = CaptureMode.aggregate.code →
    store.records = [] ∧ store.recordReady = []

/-- A request that resets the capture leaves an empty one. -/
theorem renewed_runCommand (h : Resets answers request state)
    (hmode : request.captureMode = CaptureMode.aggregate.code ∨
      request.captureMode = CaptureMode.exact.code) :
    Renewed (runCommand answers request state).store := by
  obtain ⟨harm, hreach, halloc⟩ := h
  obtain ⟨store, hstore⟩ := Option.isSome_iff_exists.mp halloc
  have hallocated := allocated_of_eq_some hstore
  have hstoreMode : store.captureMode = request.captureMode := hallocated.captureMode
  rw [runCommand_arm_store harm, if_pos hreach, hstore]
  show Renewed store.reset
  rcases hmode with haggregate | hexact
  · obtain ⟨hrecords, hready⟩ := hallocated.no_records haggregate
    rw [haggregate] at hstoreMode
    refine ⟨rfl, ?_, ?_, ?_⟩
    · simp [CaptureStore.reset, hstoreMode, hready]
    · simp [CaptureStore.reset, hstoreMode, hready, hrecords]
    · intro _
      simp [CaptureStore.reset, hstoreMode, hready, hrecords]
  · have hne : CaptureMode.exact.code ≠ CaptureMode.aggregate.code := by decide
    rw [hexact] at hstoreMode
    have hlengths := hallocated.consistent
    refine ⟨rfl, ?_, ?_, ?_⟩
    · simp [CaptureStore.reset, hstoreMode, hne]
    · simp [CaptureStore.reset, hstoreMode, hne, hlengths.records hstoreMode,
        hlengths.recordReady hstoreMode]
    · intro hmode
      exact absurd (hstoreMode.symm.trans hmode) hne

/-- A request that passes the checks of `serve_snapshots` asks for one of the two modes. -/
theorem mode_of_isWellFormed (h : request.isWellFormed = true) :
    request.captureMode = CaptureMode.aggregate.code ∨
      request.captureMode = CaptureMode.exact.code := by
  simp only [ControlRequest.isWellFormed, Bool.and_eq_true, Bool.not_eq_true',
    decide_eq_false_iff_not, not_lt] at h
  have hmode := UInt32.le_iff_toNat_le.mp h.1.2
  change request.captureMode.toNat ≤ 1 at hmode
  rcases Nat.le_one_iff_eq_zero_or_eq_one.mp hmode with hzero | hone
  · exact .inr (UInt32.toNat_inj.mp hzero)
  · exact .inl (UInt32.toNat_inj.mp hone)

/-! ## Writing the answer -/

/-- An answer either leaves the control part as it is or remembers an output error. -/
def KeptOrFailed (before after : AgentControl) : Prop :=
  after = before ∨ after = before.rememberOutputError

theorem KeptOrFailed.trans {a b c : AgentControl} (hab : KeptOrFailed a b)
    (hbc : KeptOrFailed b c) : KeptOrFailed a c := by
  rcases hab with rfl | rfl
  · exact hbc
  · -- remembering the error again changes nothing
    rcases hbc with rfl | rfl <;> exact .inr rfl

theorem observedRecordsOf_control (store : CaptureStore) (control : AgentControl) :
    KeptOrFailed control (observedRecordsOf store control).2 := by
  unfold observedRecordsOf
  split_ifs
  · cases store.aggregateObservedRecords with
    | none => exact .inr rfl
    | some observed => exact .inl rfl
  · exact .inl rfl

theorem featureFlagsOf_control (answers : RequestAnswers) (store : CaptureStore)
    (control : AgentControl) : KeptOrFailed control (featureFlagsOf answers store control).2 := by
  by_cases hmode : store.captureMode = CaptureMode.aggregate.code
  · rw [featureFlagsOf, if_pos hmode]
    exact .inl rfl
  · rw [featureFlagsOf, if_neg hmode]
    cases answers.captureEndTimestampNs with
    | none => exact .inr rfl
    | some endNs =>
      have hsame : ∀ (p : Prop) [Decidable p] (flags flags' : UInt32),
          (if p then (flags, control) else (flags', control)).2 = control := by
        intro p _ flags flags'
        split_ifs <;> rfl
      exact .inl (hsame _ _ _)

theorem initializeOutputHeader_control (answers : RequestAnswers) (state : AgentState)
    (recordOffset : UInt64) :
    KeptOrFailed state.control (initializeOutputHeader answers state recordOffset).2 :=
  (observedRecordsOf_control state.store state.control).trans
    (featureFlagsOf_control answers state.store _)

theorem writeCapture_control (answers : RequestAnswers) (state : AgentState)
    (recordOffset : UInt64) :
    KeptOrFailed state.control (writeCapture answers state recordOffset).2.control := by
  have hheader := initializeOutputHeader_control answers state recordOffset
  simp only [writeCapture]
  split_ifs
  · exact .inl rfl
  · exact .inl rfl
  · exact hheader
  · exact .inl rfl
  · exact hheader

/-- Writing a capture leaves the store as it is. -/
theorem writeCapture_store (answers : RequestAnswers) (state : AgentState) (recordOffset : UInt64) :
    (writeCapture answers state recordOffset).2.store = state.store := by
  simp only [writeCapture]
  split_ifs <;> rfl

theorem windsDown_writeCapture (answers : RequestAnswers) (state : AgentState)
    (recordOffset : UInt64) : WindsDown state (writeCapture answers state recordOffset).2 := by
  refine ⟨⟨_, writeCapture_store answers state recordOffset⟩, ?_⟩
  rcases writeCapture_control answers state recordOffset with hsame | hfailed
  · exact .inl (by rw [hsame])
  · exact .inr (.inl (by rw [hfailed]; rfl))

/-! ## What a client reads from the answer -/

/-- The records that an answer in exact mode holds. -/
def CaptureStore.delta (store : CaptureStore) (recordOffset : UInt64) : List Record :=
  (store.records.take store.committedRecordCount.toNat).drop recordOffset.toNat

/-- The flags: transfers always, NVTX for an agent that routes its calls, and one for the mode or for
    the clock. -/
theorem featureFlagsOf_eq (answers : RequestAnswers) (store : CaptureStore)
    (control : AgentControl) :
    ∃ clock : Bool, (featureFlagsOf answers store control).1 =
      featureTransferRecords ||| (if control.nvtxInjectionActive then featureNvtxRecords else 0) |||
        (if store.captureMode = CaptureMode.aggregate.code then featureAggregateRecords
          else if clock then featureHostMonotonicTimestamps else 0) := by
  by_cases hmode : store.captureMode = CaptureMode.aggregate.code
  · refine ⟨false, ?_⟩
    rw [featureFlagsOf, if_pos hmode, if_pos hmode]
  simp only [featureFlagsOf, if_neg hmode]
  cases answers.captureEndTimestampNs with
  | none => exact ⟨false, UInt32.or_zero.symm⟩
  | some endNs =>
    dsimp only
    generalize activityTimestampsAreHostMonotonic
      (store.records.take store.committedRecordCount.toNat) control.captureStartTimestampNs
      endNs = clock
    cases clock with
    | false => exact ⟨false, UInt32.or_zero.symm⟩
    | true => exact ⟨true, rfl⟩

theorem featureFlagsOf_aggregate {store : CaptureStore} {control : AgentControl}
    (h : store.captureMode = CaptureMode.aggregate.code) :
    hasFeature (featureFlagsOf answers store control).1 featureAggregateRecords = true := by
  have hflags : ∀ nvtx : Bool, hasFeature (featureTransferRecords |||
      (if nvtx then featureNvtxRecords else 0) ||| featureAggregateRecords)
      featureAggregateRecords = true := by decide
  obtain ⟨clock, heq⟩ := featureFlagsOf_eq answers store control
  rw [heq, if_pos h]
  exact hflags control.nvtxInjectionActive

theorem featureFlagsOf_exact {store : CaptureStore} {control : AgentControl}
    (h : store.captureMode ≠ CaptureMode.aggregate.code) :
    hasFeature (featureFlagsOf answers store control).1 featureAggregateRecords = false := by
  have hflags : ∀ nvtx clock : Bool, hasFeature (featureTransferRecords |||
      (if nvtx then featureNvtxRecords else 0) |||
      (if clock then featureHostMonotonicTimestamps else 0)) featureAggregateRecords = false := by
    decide
  obtain ⟨clock, heq⟩ := featureFlagsOf_eq answers store control
  rw [heq, if_neg h]
  exact hflags control.nvtxInjectionActive clock

/-- The client knows every flag that the agent sets. -/
theorem featureFlagsOf_supported (answers : RequestAnswers) (store : CaptureStore)
    (control : AgentControl) :
    (featureFlagsOf answers store control).1 &&& ~~~supportedFeatures = 0 := by
  have hflags : ∀ nvtx aggregate clock : Bool, (featureTransferRecords |||
      (if nvtx then featureNvtxRecords else 0) |||
      (if aggregate then featureAggregateRecords
        else if clock then featureHostMonotonicTimestamps else 0)) &&& ~~~supportedFeatures = 0 := by
    decide
  obtain ⟨clock, heq⟩ := featureFlagsOf_eq answers store control
  have hsupported := hflags control.nvtxInjectionActive
    (store.captureMode = CaptureMode.aggregate.code) clock
  simp only [decide_eq_true_eq] at hsupported
  rw [heq]
  exact hsupported

/-- The answer of the agent: its header, and behind it the records in exact mode. -/
theorem writeCapture_eq_sent {recordOffset : UInt64} {bytes : List UInt8}
    (h : (writeCapture answers state recordOffset).1 = .sent bytes) :
    recordOffset ≤ state.store.committedRecordCount ∧
    ∃ payload,
      bytes = (initializeOutputHeader answers state recordOffset).1.encode ++ payload ∧
      (state.store.captureMode ≠ CaptureMode.aggregate.code →
        state.store.committedRecordCount.toNat ≤ state.store.records.length ∧
        payload = ((state.store.delta recordOffset).map Record.encode).flatten) := by
  simp only [writeCapture] at h
  split_ifs at h with hrefused haggregate hslots hbounds
  · cases h
    refine ⟨?_, _, rfl, fun hmode => absurd haggregate hmode⟩
    exact not_lt.mp (not_or.mp hrefused).2
  · cases h
    refine ⟨?_, _, rfl, fun _ => ⟨not_lt.mp hbounds, rfl⟩⟩
    exact not_lt.mp (not_or.mp hrefused).2

/-- What a client learns from an answer that it can decode. -/
structure AnswerOf (store : CaptureStore) (recordOffset : UInt64) (capture : CuptiCapture) :
    Prop where
  offset : capture.recordOffset = recordOffset
  capacity : capture.recordCapacity = store.recordCapacity
  agentDropped : capture.agentDroppedRecords = store.agentDroppedRecords
  cuptiDropped : capture.cuptiDroppedRecords = store.cuptiDroppedRecords
  unknown : capture.unknownRecords = store.unknownRecords
  observed : store.captureMode ≠ CaptureMode.aggregate.code →
    capture.observedRecords = store.recordCount
  no_events : store.captureMode = CaptureMode.aggregate.code → capture.events = []
  events : store.captureMode ≠ CaptureMode.aggregate.code →
    capture.events.length = (store.delta recordOffset).length
  in_bounds : store.captureMode ≠ CaptureMode.aggregate.code →
    store.committedRecordCount.toNat ≤ store.records.length
  fits : capture.recordOffset.toNat + capture.events.length < 2 ^ 64

theorem answerOf_decode {recordOffset : UInt64} {bytes : List UInt8} {sessionId : String}
    {capture : CuptiCapture} (hsent : (writeCapture answers state recordOffset).1 = .sent bytes)
    (hdecode : decodeCapture bytes sessionId = .ok capture) :
    AnswerOf state.store recordOffset capture := by
  obtain ⟨-, payload, rfl, hpayload⟩ := writeCapture_eq_sent hsent
  have hlayout := (initializeOutputHeader answers state recordOffset).1.layout_encode payload
  have hfrom := decodedFrom_of_decodeCapture hdecode
  have hflags : readU32 ((initializeOutputHeader answers state recordOffset).1.encode ++ payload)
      20 = (featureFlagsOf answers state.store
        (observedRecordsOf state.store state.control).2).1 := hlayout.featureFlags
  -- an aggregate payload decodes to groups, an exact one to the records behind the offset
  have hno : state.store.captureMode = CaptureMode.aggregate.code → capture.events = [] := by
    intro hmode
    have hread := hfrom.payload
    rw [hflags] at hread
    exact (decodePayload_aggregate (featureFlagsOf_aggregate hmode) hread).1
  have hevents : state.store.captureMode ≠ CaptureMode.aggregate.code →
      capture.events.length = (state.store.delta recordOffset).length := by
    intro hmode
    obtain ⟨-, rfl⟩ := hpayload hmode
    exact length_events_of_decode_encodeCapture (featureFlagsOf_exact hmode) hdecode
  refine
    { offset := hfrom.offset.trans hlayout.recordOffset
      capacity := hfrom.capacity.trans hlayout.recordCapacity
      agentDropped := hfrom.agentDropped.trans hlayout.agentDroppedRecords
      cuptiDropped := hfrom.cuptiDropped.trans hlayout.cuptiDroppedRecords
      unknown := hfrom.unknown.trans hlayout.unknownRecords
      observed := ?_
      no_events := hno
      events := hevents
      in_bounds := fun hmode => (hpayload hmode).1
      fits := ?_ }
  · intro hmode
    rw [hfrom.observed, hlayout.observedRecords]
    show (observedRecordsOf state.store state.control).1 = _
    rw [observedRecordsOf, if_neg hmode]
  · by_cases hmode : state.store.captureMode = CaptureMode.aggregate.code
    · rw [hno hmode]
      exact capture.recordOffset.toNat_lt
    · -- the committed records fit the array, so the length is below the committed count
      have hbound := state.store.committedRecordCount.toNat_lt
      have hoffset := UInt64.le_iff_toNat_le.mp (writeCapture_eq_sent hsent).1
      rw [hevents hmode, hfrom.offset.trans hlayout.recordOffset]
      show recordOffset.toNat + _ < _
      rw [CaptureStore.delta, List.length_drop, List.length_take]
      omega

end Xprobe.Cupti
