import Xprobe.Cupti.AgentSteps
import Xprobe.Cupti.ExactStore

/-!
# Nothing is lost silently

Runs of an agent in exact mode: ARM requests that succeed, records, and requests of any other kind,
one after the other. A record that finds no room ends the capture, and nothing but an ARM request
begins another one. So a capture that is still active, or that was stopped on request, holds every
record that passed its filters, and the header of every answer passes the checks of
`decode_capture`.
-/

namespace Xprobe.Cupti

open Foundation

/-! ## Requests that do not arm -/

variable {state : AgentState} {request : ControlRequest} {answers : RequestAnswers}

/-- A turn of `serve_snapshots` is the command and then the answer. -/
theorem windsDown_serveRequest (answers : RequestAnswers) (request : ControlRequest)
    (state : AgentState) :
    (serveRequest answers request state).2 = state ∨
      WindsDown (runCommand answers request state) (serveRequest answers request state).2 := by
  unfold serveRequest
  split_ifs
  · exact .inl rfl
  · obtain ⟨hstore, hstate⟩ := windsDown_writeCapture answers (runCommand answers request state)
      request.recordOffset
    exact .inr ⟨hstore, hstate⟩

/-! ## The invariant -/

/-- A store in exact mode whose counters a header can report, and that retains everything unless the
    capture has ended early. -/
structure Lossless (state : AgentState) : Prop where
  captureMode : state.store.captureMode = CaptureMode.exact.code
  capacity : state.store.recordCapacity.toNat ≤ usizeMax / recordSize
  agentDropped : state.store.agentDroppedRecords = 0
  length_records : state.store.records.length = state.store.recordCapacity.toNat
  committed : state.store.committedRecordCount.toNat ≤ state.store.recordCapacity.toNat
  observed : state.store.committedRecordCount.toNat ≤ state.store.recordCount.toNat
  retains : state.control.captureState ≠ .limitReached → state.control.captureState ≠ .failed →
    Retains state.store state.store.retained

/-- A store that retains some records has consistent counters. -/
theorem lossless_of_retains {retained : List Record} (h : Retains state.store retained)
    (hmode : state.store.captureMode = CaptureMode.exact.code)
    (hcapacity : state.store.recordCapacity.toNat ≤ usizeMax / recordSize)
    (hdropped : state.store.agentDroppedRecords = 0) : Lossless state where
  captureMode := hmode
  capacity := hcapacity
  agentDropped := hdropped
  length_records := h.length_records
  committed := by
    rw [h.committed]
    exact h.fits
  observed := by rw [h.committed, h.recordCount]
  retains := by
    intro _ _
    rw [h.retained_eq]
    exact h

theorem Retains.of_cuptiDropped {store : CaptureStore} {retained : List Record}
    (h : Retains store retained) (dropped : UInt64) :
    Retains { store with cuptiDroppedRecords := dropped } retained :=
  ⟨h.length_records, h.recordCount, h.committed, h.fits, h.records, h.ready⟩

theorem Lossless.windsDown {before after : AgentState} (h : Lossless before)
    (hdown : WindsDown before after) : Lossless after := by
  obtain ⟨dropped, hstore⟩ := hdown.store
  refine ⟨?_, ?_, ?_, ?_, ?_, ?_, ?_⟩
  · rw [hstore]
    exact h.captureMode
  · rw [hstore]
    exact h.capacity
  · rw [hstore]
    exact h.agentDropped
  · rw [hstore]
    exact h.length_records
  · rw [hstore]
    exact h.committed
  · rw [hstore]
    exact h.observed
  · intro hlimit hfailed
    -- a capture that has not ended early afterwards had not done so before
    have hretains : Retains before.store before.store.retained := by
      rcases hdown.captureState with hsame | hfailed' | ⟨hactive, -⟩
      · rw [hsame] at hlimit hfailed
        exact h.retains hlimit hfailed
      · exact absurd hfailed' hfailed
      · exact h.retains (by rw [hactive]; nofun) (by rw [hactive]; nofun)
    rw [hstore]
    exact hretains.of_cuptiDropped dropped

theorem Lossless.enqueueRecord (h : Lossless state) (record : Record) :
    Lossless (enqueueRecord state record) := by
  rw [enqueueRecord_eq]
  split_ifs with hstores hrefuses
  · obtain ⟨hactive, -, hroom⟩ := storesRecord_eq_true.mp hstores
    have hretains := h.retains (by rw [hactive]; nofun) (by rw [hactive]; nofun)
    exact lossless_of_retains (hretains.push hroom record) h.captureMode h.capacity h.agentDropped
  · obtain ⟨hactive, -, hfull⟩ := refusesRecord_eq_true.mp hrefuses
    have hretains := h.retains (by rw [hactive]; nofun) (by rw [hactive]; nofun)
    refine ⟨h.captureMode, h.capacity, h.agentDropped, h.length_records, h.committed, ?_, nofun⟩
    -- the count goes one beyond the capacity, which is far below the range of the counter
    have hcount : (state.store.recordCount + 1).toNat = state.store.recordCount.toNat + 1 := by
      have hfits := hretains.fits
      have hcapacity := h.capacity
      rw [← hretains.recordCount] at hfits
      rw [UInt64.toNat_add]
      refine Nat.mod_eq_of_lt ?_
      simp only [usizeMax, recordSize] at hcapacity
      have hone : (1 : UInt64).toNat = 1 := rfl
      omega
    show state.store.committedRecordCount.toNat ≤ (state.store.recordCount + 1).toNat
    rw [hcount]
    exact Nat.le_succ_of_le h.observed
  · exact h

/-! ## Arming -/

/-- `command_status` in `serve_snapshots`. -/
def commandStatus (answers : RequestAnswers) (request : ControlRequest) (state : AgentState) :
    AgentStatus :=
  if request.command = ControlCommand.arm.code then
    if request.recordOffset ≠ 0 then .outputError else (armCapture answers request state).1
  else if request.command = ControlCommand.snapshot.code then
    if state.control.captureState = .active then (flushActivityBuffers answers state).1 else .ready
  else (stopCapture answers state).1

/-- An ARM request that succeeds has reset the capture. -/
theorem resets_of_commandStatus (harm : request.command = ControlCommand.arm.code)
    (h : commandStatus answers request state = .ready) : Resets answers request state := by
  rw [commandStatus, if_pos harm] at h
  by_cases hoffset : request.recordOffset = 0
  swap
  · rw [if_pos hoffset] at h
    cases h
  rw [if_neg (not_not.mpr hoffset), armCapture_eq hoffset] at h
  split_ifs at h with hreach hfilters
  · refine ⟨harm, hreach, ?_⟩
    cases halloc : armAllocation answers request state.store with
    | none =>
      rw [halloc] at h
      cases h
    | some store => rfl
  · exact absurd ⟨hoffset, hfilters, h⟩ hreach

/-- New arrays in exact mode hold nothing yet. -/
theorem lossless_of_allocateCapture {answers : AllocatorAnswers} {capacity : UInt64}
    {needsNvtx : Bool} {store store' : CaptureStore}
    (h : allocateCapture answers capacity needsNvtx store = some store')
    (hmode : store.captureMode = CaptureMode.exact.code) (hstate : state.store = store'.reset) :
    Lossless state := by
  have hallocated := allocated_of_eq_some h
  have hretains := retains_of_allocateCapture h hmode
  obtain ⟨hfits, -, -⟩ := allocateCapture_eq_some h
  rw [← hstate] at hretains
  refine lossless_of_retains hretains ?_ ?_ ?_
  · rw [hstate]
    exact hallocated.captureMode.trans hmode
  · have hcapacity : state.store.recordCapacity = capacity := by
      rw [hstate]
      exact hallocated.recordCapacity
    rw [hcapacity]
    simp only [capacityFits, decide_eq_true_eq] at hfits
    exact hfits.2.1
  · rw [hstate]
    rfl

theorem lossless_arm (h : Resets answers request state)
    (hmode : request.captureMode = CaptureMode.exact.code) :
    Lossless (runCommand answers request state) := by
  obtain ⟨harm, hreach, halloc⟩ := h
  obtain ⟨store, hstore⟩ := Option.isSome_iff_exists.mp halloc
  refine lossless_of_allocateCapture hstore hmode ?_
  rw [runCommand_arm_store harm, if_pos hreach, hstore]
  rfl

/-! ## The header of an answer -/

theorem Lossless.checkHeader (h : Lossless state) {recordOffset : UInt64} {bytes : Slice UInt8}
    (hsent : (writeCapture answers state recordOffset).1 = .sent bytes.toList) :
    checkHeader bytes.toList = .ok () := by
  obtain ⟨hoffset, payload, hbytes, hpayload⟩ := writeCapture_eq_sent hsent
  have hmode : state.store.captureMode ≠ CaptureMode.aggregate.code := by
    rw [h.captureMode]
    decide
  have hoffsetNat := UInt64.le_iff_toNat_le.mp hoffset
  have hcommitted := h.committed
  have hobserved := h.observed
  generalize hheader : (initializeOutputHeader answers state recordOffset).1 = header at hbytes
  have hlayout : HeaderLayout bytes.toList header := by
    rw [hbytes]
    exact header.layout_encode payload
  -- the fields that the checks read
  have hcount : header.recordCount.toNat =
      state.store.committedRecordCount.toNat - recordOffset.toNat := by
    rw [← hheader]
    exact UInt64.toNat_sub_of_le _ _ hoffset
  have hstart : header.recordOffset = recordOffset := by rw [← hheader]; rfl
  have hcapacity : header.recordCapacity = state.store.recordCapacity := by rw [← hheader]; rfl
  have hrecords : header.observedRecords = state.store.recordCount := by
    rw [← hheader]
    show (observedRecordsOf state.store state.control).1 = _
    rw [observedRecordsOf, if_neg hmode]
  have hdropped : header.agentDroppedRecords = 0 := by
    rw [← hheader]
    exact h.agentDropped
  have hlength : bytes.toList.length = headerSize + header.recordCount.toNat * recordSize := by
    obtain ⟨hbounds, hencoded⟩ := hpayload hmode
    have hpieces : ∀ piece ∈ (state.store.delta recordOffset).map Record.encode,
        piece.length = recordSize := by
      intro piece hpiece
      obtain ⟨record, -, rfl⟩ := List.mem_map.mp hpiece
      exact record.length_encode
    have hdelta : (state.store.delta recordOffset).length =
        state.store.committedRecordCount.toNat - recordOffset.toNat := by
      rw [CaptureStore.delta, List.length_drop, List.length_take]
      omega
    rw [hbytes, hencoded, List.length_append, header.length_encode,
      length_flatten_of_forall hpieces, List.length_map, hdelta, hcount]
  refine checkHeader_of_layout
    ⟨?_, by rw [← hheader]; rfl, by rw [← hheader]; rfl, ?_, ?_, ?_, ?_⟩ hlayout hlength
  · rw [← hheader]
    exact featureFlagsOf_supported _ _ _
  · rw [hstart, hcount, hcapacity]
    omega
  · rw [hstart, hcount, hrecords]
    omega
  · rw [hdropped]
    have hzero : (0 : UInt64).toNat = 0 := rfl
    rw [hzero, Nat.zero_add]
    exact header.cuptiDroppedRecords.toNat_lt
  · rw [← hheader]
    have hexact := @featureFlagsOf_exact answers state.store
      (observedRecordsOf state.store state.control).2 hmode
    intro hboth
    exact absurd (hexact.symm.trans hboth.1) Bool.false_ne_true

/-! ## Runs -/

/-- One step of the agent: a record, or a turn of `serve_snapshots`. -/
inductive ExactStep where
  | enqueue (record : Record)
  | serve (answers : RequestAnswers) (request : ControlRequest)

namespace ExactStep

def apply (state : AgentState) : ExactStep → AgentState
  | .enqueue record => enqueueRecord state record
  | .serve answers request => (serveRequest answers request state).2

def Arms : ExactStep → Prop
  | .enqueue _ => False
  | .serve _ request => request.command = ControlCommand.arm.code

/-- An ARM request is for exact mode and succeeds. Other requests may fail. -/
def Allowed (state : AgentState) : ExactStep → Prop
  | .enqueue _ => True
  | .serve answers request => request.command = ControlCommand.arm.code →
    request.captureMode = CaptureMode.exact.code ∧ commandStatus answers request state = .ready

end ExactStep

def runExact (state : AgentState) (steps : List ExactStep) : AgentState :=
  steps.foldl ExactStep.apply state

def AllowedRun : AgentState → List ExactStep → Prop
  | _, [] => True
  | state, step :: rest => step.Allowed state ∧ AllowedRun (step.apply state) rest

theorem allowedRun_append {front back : List ExactStep} : AllowedRun state (front ++ back) ↔
      AllowedRun state front ∧ AllowedRun (runExact state front) back := by
  induction front generalizing state with
  | nil => simp [AllowedRun, runExact]
  | cons step rest ih =>
    rw [List.cons_append, AllowedRun, AllowedRun, ih, and_assoc]
    rfl

/-- What the command of an allowed request leaves. -/
theorem Lossless.runCommand (h : Lossless state)
    (hallowed : (ExactStep.serve answers request).Allowed state) :
    Lossless (runCommand answers request state) := by
  by_cases harm : request.command = ControlCommand.arm.code
  · obtain ⟨hmode, hready⟩ := hallowed harm
    exact lossless_arm (resets_of_commandStatus harm hready) hmode
  · exact h.windsDown (windsDown_runCommand harm answers state)

theorem Lossless.step (h : Lossless state) {step : ExactStep} (hallowed : step.Allowed state) :
    Lossless (step.apply state) := by
  cases step with
  | enqueue record => exact h.enqueueRecord record
  | serve answers request =>
    rcases windsDown_serveRequest answers request state with hsame | hdown
    · rw [ExactStep.apply, hsame]
      exact h
    · exact (h.runCommand hallowed).windsDown hdown

theorem Lossless.run (h : Lossless state) {steps : List ExactStep} (hrun : AllowedRun state steps) :
    Lossless (runExact state steps) := by
  induction steps generalizing state with
  | nil => exact h
  | cons step rest ih => exact ih (h.step hrun.1) hrun.2

/-! ## Captures that ended early -/

/-- The capture is in one of the states from which it does not come back. -/
def Ended (control : AgentControl) : Prop :=
  control.captureState = .limitReached ∨ control.captureState = .failed

theorem Ended.not_active {control : AgentControl} (h : Ended control) :
    control.captureState ≠ .active := by
  rcases h with hlimit | hfailed
  · rw [hlimit]
    nofun
  · rw [hfailed]
    nofun

theorem Ended.windsDown {before after : AgentState} (h : Ended before.control)
    (hdown : WindsDown before after) : Ended after.control := by
  rcases hdown.captureState with hsame | hfailed | ⟨hactive, -⟩
  · rw [Ended, hsame]
    exact h
  · exact .inr hfailed
  · exact absurd hactive h.not_active

theorem Ended.step (h : Ended state.control) {step : ExactStep} (harms : ¬ step.Arms) :
    Ended (step.apply state).control := by
  cases step with
  | enqueue record =>
    have hsame : enqueueRecord state record = state := by
      rw [enqueueRecord, if_pos h.not_active]
    rw [ExactStep.apply, hsame]
    exact h
  | serve answers request =>
    rcases windsDown_serveRequest answers request state with hsame | hdown
    · rw [ExactStep.apply, hsame]
      exact h
    · exact h.windsDown ((windsDown_runCommand harms answers state).trans hdown)

theorem Ended.run (h : Ended state.control) {steps : List ExactStep}
    (harms : ∀ step ∈ steps, ¬ step.Arms) : Ended (runExact state steps).control := by
  induction steps generalizing state with
  | nil => exact h
  | cons step rest ih =>
    obtain ⟨hstep, hrest⟩ := List.forall_mem_cons.mp harms
    exact ih (h.step hstep) hrest

/-- Refusing a record ends the capture. -/
theorem ended_of_refusesRecord {record : Record} (h : refusesRecord state record = true) :
    Ended (enqueueRecord state record).control := by
  rw [enqueueRecord_eq, not_storesRecord_of_refuses h, if_neg Bool.false_ne_true, if_pos h]
  exact .inl rfl

/-! ## Every run -/

/-- `xprobe_cupti_agent_start` with a socket: the first arrays are allocated, and the agent waits for
    an ARM request. -/
def startAgent (answers : AllocatorAnswers) (capacity : UInt64) (control : AgentControl) :
    Option AgentState :=
  (allocateCapture answers capacity false idleAgent.store).map (fun store =>
    let state := resetCapture { store, control }
    { state with
      control := { state.control with captureFilterEnabled := true, agentStatus := .ready } })

theorem lossless_startAgent {answers : AllocatorAnswers} {capacity : UInt64}
    {control : AgentControl} {start : AgentState}
    (h : startAgent answers capacity control = some start) : Lossless start := by
  obtain ⟨store, halloc, rfl⟩ := Option.map_eq_some_iff.mp h
  exact lossless_of_allocateCapture halloc rfl rfl

/-- A turn of `serve_snapshots` that sends something has run the command. -/
theorem writeCapture_of_serveRequest {outcome : WriteOutcome}
    (h : (serveRequest answers request state).1 = some outcome) :
    (writeCapture answers (runCommand answers request state) request.recordOffset).1 = outcome := by
  unfold serveRequest at h
  split_ifs at h
  exact Option.some.inj h

/-- In every run of a started agent in exact mode: a capture that is active or was stopped has
    committed every record it counted, and they fit the capacity; a capture that refused a record is
    at its limit or failed until the next ARM request; and the header of every answer passes the
    checks of `decode_capture`, so that the records alone decide whether it is decoded. -/
theorem exactRun_lossless {allocator : AllocatorAnswers} {capacity : UInt64}
    {control : AgentControl} {start : AgentState}
    (hstart : startAgent allocator capacity control = some start) {steps : List ExactStep}
    (hrun : AllowedRun start steps) :
    ((runExact start steps).control.captureState = .active ∨
        (runExact start steps).control.captureState = .stopped →
      (runExact start steps).store.committedRecordCount =
          (runExact start steps).store.recordCount ∧
        (runExact start steps).store.recordCount ≤
          (runExact start steps).store.recordCapacity) ∧
    (∀ before record after, steps = before ++ .enqueue record :: after →
      refusesRecord (runExact start before) record = true → (∀ step ∈ after, ¬ step.Arms) →
      Ended (runExact start steps).control) ∧
    (∀ before answers request after (bytes : Slice UInt8),
      steps = before ++ .serve answers request :: after →
      (serveRequest answers request (runExact start before)).1 = some (.sent bytes.toList) →
      checkHeader bytes.toList = .ok () ∧
        ∀ sessionId, (∃ capture, decodeCapture bytes.toList sessionId = .ok capture) ↔
          ∃ payload, decodePayload bytes.toList (readU64 bytes.toList 80) sessionId
            (readU32 bytes.toList 20) = .ok payload) := by
  have hinitial := lossless_startAgent hstart
  refine ⟨?_, ?_, ?_⟩
  · intro hstate
    have hlossless := hinitial.run hrun
    have hretains : Retains (runExact start steps).store (runExact start steps).store.retained := by
      rcases hstate with hactive | hstopped
      · exact hlossless.retains (by rw [hactive]; nofun) (by rw [hactive]; nofun)
      · exact hlossless.retains (by rw [hstopped]; nofun) (by rw [hstopped]; nofun)
    constructor
    · exact UInt64.toNat_inj.mp (hretains.committed.trans hretains.recordCount.symm)
    · rw [UInt64.le_iff_toNat_le, hretains.recordCount]
      exact hretains.fits
  · rintro before record after rfl hrefuses harms
    have hsplit : runExact start (before ++ .enqueue record :: after) =
        runExact (enqueueRecord (runExact start before) record) after := by
      simp [runExact, ExactStep.apply]
    rw [hsplit]
    exact (ended_of_refusesRecord hrefuses).run harms
  · rintro before answers request after bytes rfl hsent
    obtain ⟨hbefore, hallowed, -⟩ := allowedRun_append.mp hrun
    have hcommand := (hinitial.run hbefore).runCommand hallowed
    have hcheck := hcommand.checkHeader (writeCapture_of_serveRequest hsent)
    refine ⟨hcheck, fun sessionId => ?_⟩
    rw [decodeCapture_ok_iff]
    exact and_iff_right hcheck

/-- A started agent with room for four records. -/
def freshAgent : AgentState :=
  { store :=
      { idleAgent.store with
        records := List.replicate 4 zeroRecord, recordReady := List.replicate 4 false
        recordCapacity := 4 }
    control := { idleAgent.control with captureFilterEnabled := true } }

def kernelStart : Record := { zeroRecord with kind := RecordKind.gpuKernelStart.code }

/-- The agent is armed for one record, two records come, and it is stopped. -/
def overfullRun : List ExactStep :=
  [.serve willingEnvironment (armKernels .exact 1), .enqueue kernelStart, .enqueue kernelStart,
    .serve willingEnvironment { armKernels .exact 1 with command := ControlCommand.stop.code }]

/-- The capture of one record that was offered two is still at its limit after it was stopped. -/
theorem exactRun_lossless_overfull :
    startAgent willingEnvironment.allocator 4 idleAgent.control = some freshAgent ∧
      AllowedRun freshAgent overfullRun ∧ Ended (runExact freshAgent overfullRun).control := by
  have hstart : startAgent willingEnvironment.allocator 4 idleAgent.control = some freshAgent := rfl
  have hrun : AllowedRun freshAgent overfullRun :=
    ⟨fun _ => ⟨rfl, rfl⟩, trivial, trivial, nofun, trivial⟩
  refine ⟨hstart, hrun, ?_⟩
  refine (exactRun_lossless hstart hrun).2.1
    [.serve willingEnvironment (armKernels .exact 1), .enqueue kernelStart] kernelStart _ rfl rfl ?_
  intro step hstep
  rw [List.mem_singleton.mp hstep]
  nofun

end Xprobe.Cupti
