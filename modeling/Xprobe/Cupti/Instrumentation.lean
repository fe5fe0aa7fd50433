import Xprobe.Foundation.Loops
import Xprobe.Cupti.AgentSteps

/-!
# What STOP and CLOSE leave in the target

A `Session` is the agent together with what CUPTI knows of it: whether callbacks of its subscriber
are enabled. The agent keeps the enabled activities in `enabled_activity_mask`; the callbacks have no
such variable, so they are followed through every function that enables or disables them.

A session is reached from the start of the agent by requests, by CUPTI callbacks and by the
initialization of NVTX, in any order and with any failures other than those of the calls that
disable, unsubscribe or lock.
-/

namespace Xprobe.Cupti

open Foundation

/-! ## Callbacks -/

/-- The callbacks after `shutdown_agent`. -/
def shutdownCallbacks (answers : ShutdownAnswers) (control : AgentControl) (callbacks : Bool) :
    Bool :=
  if !answers.lock || !control.subscriberActive then callbacks
  else if control.nvtxInjectionActive then callbacks && !answers.disableDomains
  else callbacks && !answers.unsubscribe

/-- A step of `activate_capture` together with the callbacks. -/
abbrev TracedActivation := Except ((AgentStatus × AgentControl) × Bool) (AgentControl × Bool)

/-- Follow the callbacks through a step: which of them it enables when it goes on, and what is left
    of them when it returns. -/
def traceStep (step : AgentControl → Activation) (enables : AgentControl → Bool)
    (givesUp : AgentControl → Bool → Bool) (traced : AgentControl × Bool) : TracedActivation :=
  match step traced.1 with
  | .ok control => .ok (control, traced.2 || enables traced.1)
  | .error result => .error (result, givesUp traced.1 traced.2)

/-- `traceStep` for a step that enables no callback and returns without a shutdown. -/
def traceQuiet (step : AgentControl → Activation) : AgentControl × Bool → TracedActivation :=
  traceStep step (fun _ => false) (fun _ callbacks => callbacks)

/-- `traceStep` for a step that enables no callback and shuts down when it fails. -/
def traceGuarded (answers : ActivateAnswers) (step : AgentControl → Activation) :
    AgentControl × Bool → TracedActivation :=
  traceStep step (fun _ => false) (shutdownCallbacks answers.shutdown)

/-- The callbacks of `enable_api_callbacks`. It may have enabled some when CUPTI fails. -/
def traceApiCallbacks (answers : ActivateAnswers) (domain : UInt32) (answer : CallbackAnswer) :
    AgentControl × Bool → TracedActivation :=
  traceStep (enableApiCallbacks answers domain answer) (·.needsApiDomain domain)
    (fun control callbacks =>
      shutdownCallbacks answers.shutdown control (callbacks || answer == .cuptiError))

/-- The callbacks of the NVTX step. It may have enabled some when CUPTI fails. -/
def traceNvtxCallbacks (answers : ActivateAnswers) : AgentControl × Bool → TracedActivation :=
  traceStep (enableNvtxCallbacks answers) AgentControl.needsNvtxRecords
    (fun control _ => shutdownCallbacks answers.shutdown control true)

/-- `activationSteps` with the callbacks. -/
def tracedSteps (answers : ActivateAnswers) (traced : AgentControl × Bool) : TracedActivation := do
  let traced ← traceQuiet checkNvtxRouting traced
  let traced ← traceQuiet (startCaptureClock answers) traced
  let traced ← traceQuiet (subscribeCallbacks answers) traced
  let traced ← traceGuarded answers (registerActivities answers) traced
  let traced ← traceGuarded answers
    (enableActivity answers .kernel .gpuKernelStart .gpuKernelEnd) traced
  let traced ← traceGuarded answers
    (enableActivity answers .memcpy .gpuMemcpyStart .gpuMemcpyEnd) traced
  let traced ← traceGuarded answers
    (enableActivity answers .memset .gpuMemsetStart .gpuMemsetEnd) traced
  let traced ← traceApiCallbacks answers callbackDomainRuntimeApi answers.runtimeCallbacks traced
  let traced ← traceApiCallbacks answers callbackDomainDriverApi answers.driverCallbacks traced
  traceNvtxCallbacks answers traced

/-- The callbacks after `activate_capture`. -/
def activateCallbacks (answers : ActivateAnswers) (control : AgentControl) (callbacks : Bool) :
    Bool :=
  match tracedSteps answers (control, callbacks) with
  | .ok traced => traced.2
  | .error result => result.2

/-- The callbacks after the shutdown at the beginning of `arm_capture`. -/
def shutdownForArmCallbacks (answers : RequestAnswers) (control : AgentControl) (callbacks : Bool) :
    Bool :=
  if control.subscriberActive || control.enabledActivityMask ≠ ∅ then
    shutdownCallbacks answers.shutdown control callbacks
  else callbacks

/-- The callbacks after `arm_capture`. -/
def armCallbacks (answers : RequestAnswers) (request : ControlRequest) (state : AgentState)
    (callbacks : Bool) : Bool :=
  if !request.hasValidFilters then callbacks
  else
    let released := shutdownForArmCallbacks answers state.control callbacks
    match shutdownForArm answers state.control with
    | (.ready, control) =>
      let store := { state.store with captureMode := request.captureMode }
      match allocateCapture answers.allocator request.recordCapacity
        (filtersNeedNvtx request.filters) store with
      | none => released
      | some store =>
        let armed := (resetCapture { store, control }).control
        activateCallbacks answers.activate
          { armed with captureFilters := request.filters, captureFilterEnabled := true } released
    | _ => released

/-- The callbacks after `stop_capture`. -/
def stopCallbacks (answers : RequestAnswers) (state : AgentState) (callbacks : Bool) : Bool :=
  let (status, flushed) :=
    if state.control.enabledActivityMask ≠ ∅ then flushActivityBuffers answers state
    else (.ready, state)
  if status = .ready ∧
      (flushed.control.subscriberActive = true ∨ flushed.control.enabledActivityMask ≠ ∅) then
    shutdownCallbacks answers.shutdown flushed.control callbacks
  else callbacks

def commandCallbacks (answers : RequestAnswers) (request : ControlRequest) (state : AgentState)
    (callbacks : Bool) : Bool :=
  if request.command = ControlCommand.arm.code then
    if request.recordOffset ≠ 0 then callbacks else armCallbacks answers request state callbacks
  else if request.command = ControlCommand.snapshot.code then callbacks
  else stopCallbacks answers state callbacks

/-! ## Sessions -/

/-- The agent, and whether CUPTI delivers callbacks to its subscriber. -/
structure Session where
  state : AgentState
  callbacks : Bool

/-- How the callbacks of CUPTI may end. -/
inductive CallbackReport where
  | nothing
  | limitReached
  | cuptiError
  | outputError
  deriving Repr, DecidableEq

def CallbackReport.apply (report : CallbackReport) (control : AgentControl) : AgentControl :=
  match report with
  | nothing => control
  | limitReached => { control with stopReason := .recordLimit, captureState := .limitReached }
  | cuptiError => control.rememberCuptiError
  | outputError => control.rememberOutputError

/-- What can happen to a session: a request, callbacks of CUPTI that leave the store in some way,
    and `InitializeInjectionNvtx`. -/
inductive SessionStep where
  | request (answers : RequestAnswers) (request : ControlRequest)
  | callbacks (store : CaptureStore) (report : CallbackReport)
  | nvtxInitialize (succeeds : Bool) (answers : ActivateAnswers)

/-- The agent turns a request away before it runs the command. -/
def refuses (answers : RequestAnswers) (request : ControlRequest) (control : AgentControl) : Bool :=
  control.snapshotThreadStop || !request.isWellFormed || !answers.flushLock

def Session.serve (session : Session) (answers : RequestAnswers) (request : ControlRequest) :
    Session :=
  { state := (serveRequest answers request session.state).2
    callbacks :=
      if refuses answers request session.state.control then session.callbacks
      else commandCallbacks answers request session.state session.callbacks }

/-- `InitializeInjectionNvtx`. -/
def nvtxInitialize (succeeds : Bool) (answers : ActivateAnswers) (control : AgentControl) :
    AgentControl :=
  if !succeeds then control.rememberCuptiError
  else (ensureSubscriber answers { control with nvtxInjectionActive := true }).2

def Session.step (session : Session) : SessionStep → Session
  | .request answers request => session.serve answers request
  | .callbacks store report =>
    { session with state := { store, control := report.apply session.state.control } }
  | .nvtxInitialize succeeds answers =>
    { session with
      state :=
        { session.state with control := nvtxInitialize succeeds answers session.state.control } }

/-- The calls that disable, unsubscribe and lock succeed. -/
structure ShutdownAnswers.Succeed (answers : ShutdownAnswers) : Prop where
  disable : ∀ kind, answers.disable kind = true
  lock : answers.lock = true
  disableDomains : answers.disableDomains = true
  unsubscribe : answers.unsubscribe = true
  unlock : answers.unlock = true

structure RequestAnswers.ShutdownsSucceed (answers : RequestAnswers) : Prop where
  shutdown : answers.shutdown.Succeed
  activate : answers.activate.shutdown.Succeed

def SessionStep.ShutdownsSucceed : SessionStep → Prop
  | .request answers _ => answers.ShutdownsSucceed
  | _ => True

/-- A session right after `xprobe_cupti_agent_start` opened its socket. Only an agent that routes
    NVTX calls has a subscriber, and none of its callbacks is enabled. -/
structure Session.Started (session : Session) : Prop where
  mask : session.state.control.enabledActivityMask = ∅
  callbacks : session.callbacks = false
  ready : session.state.control.agentStatus = .ready
  idle : session.state.control.captureState = .idle
  subscriber : session.state.control.subscriberActive = true →
    session.state.control.nvtxInjectionActive = true

/-- A session that the agent can come to. -/
def Session.Reachable (session : Session) : Prop :=
  ∃ (start : Session) (steps : List SessionStep), start.Started ∧
    (∀ step ∈ steps, step.ShutdownsSucceed) ∧ session = steps.foldl Session.step start

/-- Nothing of the agent is left in the target: no activity is enabled, no callback is delivered,
    and an agent that does not route NVTX calls is unsubscribed. -/
structure Session.Released (session : Session) : Prop where
  mask : session.state.control.enabledActivityMask = ∅
  callbacks : session.callbacks = false
  subscriber : session.state.control.nvtxInjectionActive = false →
    session.state.control.subscriberActive = false

/-! ## A shutdown that succeeds -/

variable {control : AgentControl}

section Shutdown

variable {answers : ShutdownAnswers}

private theorem disableActivity_of_succeed (h : answers.Succeed)
    (result : AgentStatus × AgentControl) (kind : ActivityKind) :
    disableActivity answers result kind =
      (result.1,
        { result.2 with enabledActivityMask := result.2.enabledActivityMask.erase kind }) := by
  unfold disableActivity
  split_ifs with hmem hanswer
  · rfl
  · exact absurd (h.disable kind) hanswer
  · rw [Finset.erase_eq_of_notMem hmem]

theorem disableActivities_of_succeed (h : answers.Succeed) (control : AgentControl) :
    disableActivities answers control = (.ready, { control with enabledActivityMask := ∅ }) := by
  have hempty : ((control.enabledActivityMask.erase .memset).erase .memcpy).erase .kernel = ∅ := by
    ext kind
    cases kind <;> simp
  simp only [disableActivities, List.foldl_cons, List.foldl_nil, disableActivity_of_succeed h,
    hempty]

/-- Every activity is disabled, and only an agent that routes NVTX calls keeps its subscriber. -/
theorem shutdownAgent_of_succeed (h : answers.Succeed) (control : AgentControl) :
    shutdownAgent answers control =
      (.ready,
        { control with
          enabledActivityMask := ∅
          subscriberActive := control.subscriberActive && control.nvtxInjectionActive }) := by
  simp only [shutdownAgent, disableActivities_of_succeed h, h.lock, h.unlock, releaseSubscriber,
    h.disableDomains, h.unsubscribe, Bool.not_true, Bool.false_eq_true, if_false, if_true]
  cases hactive : control.subscriberActive with
  | false => simp
  | true =>
    cases hnvtx : control.nvtxInjectionActive with
    | false => simp
    | true => simp

/-- Callbacks belong to an active subscriber. -/
def Owned (control : AgentControl) (callbacks : Bool) : Prop :=
  callbacks = true → control.subscriberActive = true

theorem owned_false (control : AgentControl) : Owned control false := nofun

theorem shutdownCallbacks_of_succeed (h : answers.Succeed) {callbacks : Bool}
    (howned : Owned control callbacks) :
    shutdownCallbacks answers control callbacks = false := by
  unfold shutdownCallbacks
  rw [h.lock, h.disableDomains, h.unsubscribe]
  cases hactive : control.subscriberActive with
  | false =>
    -- without a subscriber there was no callback to begin with
    cases hcallbacks : callbacks with
    | false => rfl
    | true => exact absurd (howned hcallbacks) (by rw [hactive]; decide)
  | true => simp

end Shutdown

/-! ## Activation -/

/-- A step has gone on with a control part that satisfies `I`, or has returned with callbacks that
    belong to an active subscriber. -/
def Ensures (I : AgentControl → Bool → Prop) : TracedActivation → Prop
  | .ok traced => I traced.1 traced.2
  | .error result => Owned result.1.2 result.2

theorem Ensures.bind {I J : AgentControl → Bool → Prop} {x : TracedActivation}
    {next : AgentControl × Bool → TracedActivation} (hx : Ensures I x)
    (hnext : ∀ traced, I traced.1 traced.2 → Ensures J (next traced)) :
    Ensures J (x >>= next) := by
  cases x with
  | error result => exact hx
  | ok traced => exact hnext traced hx

/-- Whatever callbacks the capture needs, there is a subscriber for them. -/
def Subscribed (control : AgentControl) : Prop :=
  (control.needsApiDomain callbackDomainRuntimeApi ||
    control.needsApiDomain callbackDomainDriverApi || control.needsNvtxRecords) = true →
    control.subscriberActive = true

def Ready (control : AgentControl) (callbacks : Bool) : Prop :=
  Owned control callbacks ∧ Subscribed control

section Activation

variable {answers : ActivateAnswers} {traced : AgentControl × Bool}

private theorem owned_checkNvtxRouting (h : Owned traced.1 traced.2) :
    Ensures Owned (traceQuiet checkNvtxRouting traced) := by
  unfold traceQuiet traceStep checkNvtxRouting
  split_ifs
  · exact h
  · show Owned traced.1 (traced.2 || false)
    rwa [Bool.or_false]

private theorem owned_startCaptureClock (h : Owned traced.1 traced.2) :
    Ensures Owned (traceQuiet (startCaptureClock answers) traced) := by
  unfold traceQuiet traceStep startCaptureClock
  split_ifs
  · exact h
  · cases answers.monotonicTimestampNs with
    | none => exact h
    | some now =>
      show Owned traced.1 (traced.2 || false)
      rwa [Bool.or_false]

/-- A subscriber is never lost here, and there is one when the function succeeds. -/
theorem ensureSubscriber_cases (answers : ActivateAnswers) (control : AgentControl) :
    (control.subscriberActive = true →
        (ensureSubscriber answers control).2.subscriberActive = true) ∧
      ((ensureSubscriber answers control).1 = .ready →
        (ensureSubscriber answers control).2 = { control with subscriberActive := true }) := by
  have hsame : control.subscriberActive = true →
      control = { control with subscriberActive := true } := by
    intro hactive
    rw [← hactive]
  unfold ensureSubscriber
  split_ifs with hlock hactive hunlock hunlock hsubscribe hunlock
  · exact ⟨fun hactive => hactive, nofun⟩
  · exact ⟨fun hactive => hactive, nofun⟩
  · exact ⟨fun _ => hactive, fun _ => hsame hactive⟩
  · exact ⟨fun _ => rfl, nofun⟩
  · exact ⟨fun _ => rfl, fun _ => rfl⟩
  · exact ⟨fun hactive => hactive, nofun⟩
  · exact ⟨fun hactive => hactive, nofun⟩

private theorem ready_subscribeCallbacks (h : Owned traced.1 traced.2) :
    Ensures Ready (traceQuiet (subscribeCallbacks answers) traced) := by
  obtain ⟨hkept, hready⟩ := ensureSubscriber_cases answers traced.1
  unfold traceQuiet traceStep subscribeCallbacks
  split_ifs with hneeds
  · -- a subscriber is there afterwards, or the function returns
    cases hensure : ensureSubscriber answers traced.1 with
    | mk status control =>
      rw [hensure] at hkept hready
      cases status with
      | ready =>
        have hcontrol : control = { traced.1 with subscriberActive := true } := hready rfl
        subst hcontrol
        exact ⟨fun _ => rfl, fun _ => rfl⟩
      | unavailable => exact fun hcallbacks => hkept (h hcallbacks)
      | cuptiError => exact fun hcallbacks => hkept (h hcallbacks)
      | outputError => exact fun hcallbacks => hkept (h hcallbacks)
  · refine ⟨?_, fun hneeded => absurd hneeded hneeds⟩
    show Owned traced.1 (traced.2 || false)
    rwa [Bool.or_false]

variable {step : AgentControl → Activation}

/-- A guarded step that goes on without touching the subscription or the filters. -/
private theorem ready_traceGuarded (hshutdown : answers.shutdown.Succeed)
    (hstep : ∀ {control next}, step control = .ok next → Subscribed control →
      Subscribed next ∧ next.subscriberActive = control.subscriberActive)
    (h : Ready traced.1 traced.2) : Ensures Ready (traceGuarded answers step traced) := by
  unfold traceGuarded traceStep
  cases hresult : step traced.1 with
  | ok next =>
    obtain ⟨hsubscribed, hsame⟩ := hstep hresult h.2
    refine ⟨?_, hsubscribed⟩
    show Owned next (traced.2 || false)
    rw [Bool.or_false]
    exact fun hcallbacks => hsame.trans (h.1 hcallbacks)
  | error result =>
    show Owned result.2 (shutdownCallbacks answers.shutdown traced.1 traced.2)
    rw [shutdownCallbacks_of_succeed hshutdown h.1]
    exact owned_false _

private theorem registerActivities_eq_ok {next : AgentControl}
    (h : registerActivities answers control = .ok next) : next = control := by
  unfold registerActivities at h
  split_ifs at h with hneeds hregister
  · cases hclock : answers.activityClock with
    | ready => simpa only [hclock, Except.ok.injEq, eq_comm] using h
    | cuptiError => simp only [hclock, ActivateAnswers.giveUp, reduceCtorEq] at h
    | hostClockError => simp only [hclock, ActivateAnswers.giveUp, reduceCtorEq] at h
    | offsetTooLarge => simp only [hclock, ActivateAnswers.giveUp, reduceCtorEq] at h
  · cases hclock : answers.activityClock <;>
      simp only [hclock, ActivateAnswers.giveUp, reduceCtorEq] at h
  · exact (Except.ok.inj h).symm

private theorem enableActivity_eq_ok {kind : ActivityKind} {first second : RecordKind}
    {next : AgentControl} (h : enableActivity answers kind first second control = .ok next) :
    ∃ mask, next = { control with enabledActivityMask := mask } := by
  unfold enableActivity at h
  split_ifs at h
  · exact ⟨_, (Except.ok.inj h).symm⟩
  · cases h
  · exact ⟨_, (Except.ok.inj h).symm⟩

variable (hshutdown : answers.shutdown.Succeed)

include hshutdown

private theorem ready_enableActivity (kind : ActivityKind)
    (first second : RecordKind) (h : Ready traced.1 traced.2) :
    Ensures Ready (traceGuarded answers (enableActivity answers kind first second) traced) := by
  refine ready_traceGuarded hshutdown ?_ h
  intro control next hnext hsubscribed
  obtain ⟨mask, rfl⟩ := enableActivity_eq_ok hnext
  exact ⟨hsubscribed, rfl⟩

private theorem ready_traceApiCallbacks {domain : UInt32}
    (hdomain : domain = callbackDomainRuntimeApi ∨ domain = callbackDomainDriverApi)
    (answer : CallbackAnswer) (h : Ready traced.1 traced.2) :
    Ensures Ready (traceApiCallbacks answers domain answer traced) := by
  have hneeds : traced.1.needsApiDomain domain = true → traced.1.subscriberActive = true := by
    intro hneeds
    apply h.2
    rcases hdomain with rfl | rfl
    · rw [hneeds]
      rfl
    · rw [hneeds, Bool.or_true]
      rfl
  have hreturned : ∀ partly : Bool, traced.1.needsApiDomain domain = true →
      Owned traced.1 (traced.2 || partly) := fun _ hneeded _ => hneeds hneeded
  unfold traceApiCallbacks traceStep enableApiCallbacks
  split_ifs with hneeded
  · cases answer with
    | ready => exact ⟨fun _ => hneeds hneeded, h.2⟩
    | cuptiError =>
      show Owned _ (shutdownCallbacks answers.shutdown traced.1 (traced.2 || true))
      rw [shutdownCallbacks_of_succeed hshutdown (hreturned true hneeded)]
      exact owned_false _
    | noneMatched =>
      show Owned _ (shutdownCallbacks answers.shutdown traced.1 (traced.2 || false))
      rw [shutdownCallbacks_of_succeed hshutdown (hreturned false hneeded)]
      exact owned_false _
  · refine ⟨?_, h.2⟩
    show Owned traced.1 (traced.2 || traced.1.needsApiDomain domain)
    rw [Bool.not_eq_true] at hneeded
    rw [hneeded, Bool.or_false]
    exact h.1

private theorem owned_traceNvtxCallbacks
    (h : Ready traced.1 traced.2) : Ensures Owned (traceNvtxCallbacks answers traced) := by
  have hneeds : traced.1.needsNvtxRecords = true → traced.1.subscriberActive = true := by
    intro hneeds
    apply h.2
    rw [hneeds, Bool.or_true]
  unfold traceNvtxCallbacks traceStep enableNvtxCallbacks
  split_ifs with hfails
  · show Owned _ (shutdownCallbacks answers.shutdown traced.1 true)
    rw [shutdownCallbacks_of_succeed hshutdown (fun _ => hneeds (Bool.and_eq_true_iff.mp hfails).1)]
    exact owned_false _
  · intro hcallbacks
    rcases Bool.or_eq_true_iff.mp hcallbacks with hbefore | hneeded
    · exact h.1 hbefore
    · exact hneeds hneeded

private theorem owned_tracedSteps
    (h : Owned traced.1 traced.2) : Ensures Owned (tracedSteps answers traced) := by
  unfold tracedSteps
  refine (owned_checkNvtxRouting h).bind fun _ h => ?_
  refine (owned_startCaptureClock h).bind fun _ h => ?_
  refine (ready_subscribeCallbacks h).bind fun _ h => ?_
  refine (ready_traceGuarded hshutdown ?_ h).bind fun _ h => ?_
  · intro control next hnext hsubscribed
    rw [registerActivities_eq_ok hnext]
    exact ⟨hsubscribed, rfl⟩
  refine (ready_enableActivity hshutdown .kernel .gpuKernelStart .gpuKernelEnd h).bind fun _ h => ?_
  refine (ready_enableActivity hshutdown .memcpy .gpuMemcpyStart .gpuMemcpyEnd h).bind fun _ h => ?_
  refine (ready_enableActivity hshutdown .memset .gpuMemsetStart .gpuMemsetEnd h).bind fun _ h => ?_
  refine (ready_traceApiCallbacks hshutdown (.inl rfl) _ h).bind fun _ h => ?_
  refine (ready_traceApiCallbacks hshutdown (.inr rfl) _ h).bind fun _ h => ?_
  exact owned_traceNvtxCallbacks hshutdown h

omit hshutdown

def untrace : TracedActivation → Activation
  | .ok traced => .ok traced.1
  | .error result => .error result.1

private theorem untrace_traceStep_bind {enables : AgentControl → Bool}
    {givesUp : AgentControl → Bool → Bool} {next : AgentControl × Bool → TracedActivation}
    {next' : AgentControl → Activation} (h : ∀ traced, untrace (next traced) = next' traced.1)
    (traced : AgentControl × Bool) :
    untrace (traceStep step enables givesUp traced >>= next) = step traced.1 >>= next' := by
  unfold traceStep
  cases hstep : step traced.1 with
  | ok control => exact h (control, _)
  | error result => rfl

private theorem untrace_traceStep {enables : AgentControl → Bool}
    {givesUp : AgentControl → Bool → Bool} (traced : AgentControl × Bool) :
    untrace (traceStep step enables givesUp traced) = step traced.1 := by
  unfold traceStep
  cases hstep : step traced.1 <;> rfl

/-- Following the callbacks does not change what `activate_capture` does. -/
theorem untrace_tracedSteps (answers : ActivateAnswers) (traced : AgentControl × Bool) :
    untrace (tracedSteps answers traced) = activationSteps answers traced.1 := by
  unfold tracedSteps activationSteps
  refine untrace_traceStep_bind (fun _ => ?_) _
  refine untrace_traceStep_bind (fun _ => ?_) _
  refine untrace_traceStep_bind (fun _ => ?_) _
  refine untrace_traceStep_bind (fun _ => ?_) _
  refine untrace_traceStep_bind (fun _ => ?_) _
  refine untrace_traceStep_bind (fun _ => ?_) _
  refine untrace_traceStep_bind (fun _ => ?_) _
  refine untrace_traceStep_bind (fun _ => ?_) _
  refine untrace_traceStep_bind (fun _ => ?_) _
  exact untrace_traceStep _

theorem owned_activateCapture (hshutdown : answers.shutdown.Succeed) {callbacks : Bool}
    (h : Owned control callbacks) :
    Owned (activateCapture answers control).2 (activateCallbacks answers control callbacks) := by
  have hsteps := @owned_tracedSteps answers (control, callbacks) hshutdown h
  have huntrace := untrace_tracedSteps answers (control, callbacks)
  unfold activateCapture activateCallbacks
  cases htraced : tracedSteps answers (control, callbacks) with
  | ok traced =>
    rw [htraced] at hsteps huntrace
    rw [← huntrace]
    exact hsteps
  | error result =>
    rw [htraced] at hsteps huntrace
    rw [← huntrace]
    exact hsteps

end Activation

/-! ## Requests -/

section Requests

variable {answers : RequestAnswers} {state : AgentState} {callbacks : Bool}

private theorem shutdownForArm_of_succeed (hshutdown : answers.shutdown.Succeed)
    (h : Owned state.control callbacks) :
    Owned (shutdownForArm answers state.control).2
      (shutdownForArmCallbacks answers state.control callbacks) := by
  unfold shutdownForArm shutdownForArmCallbacks
  split_ifs
  · rw [shutdownCallbacks_of_succeed hshutdown h]
    exact owned_false _
  · exact h

private theorem owned_armCapture (hshutdowns : answers.ShutdownsSucceed) (request : ControlRequest)
    (h : Owned state.control callbacks) :
    Owned (armCapture answers request state).2.control
      (armCallbacks answers request state callbacks) := by
  have hreleased := shutdownForArm_of_succeed hshutdowns.shutdown h
  unfold armCapture armCallbacks
  split_ifs
  · exact h
  · cases hresult : shutdownForArm answers state.control with
    | mk status control =>
      rw [hresult] at hreleased
      cases status with
      | ready =>
        dsimp only
        cases allocateCapture answers.allocator request.recordCapacity
          (filtersNeedNvtx request.filters)
          { state.store with captureMode := request.captureMode } with
        | none => exact hreleased
        | some store =>
          have hcontrol : Owned { (resetCapture { store, control }).control with
              captureFilters := request.filters, captureFilterEnabled := true }
              (shutdownForArmCallbacks answers state.control callbacks) := hreleased
          exact owned_activateCapture hshutdowns.activate hcontrol
      | unavailable => exact hreleased
      | cuptiError => exact hreleased
      | outputError => exact hreleased

/-- The part of a control record that says what is enabled in the target. -/
structure SameInstrumentation (before after : AgentControl) : Prop where
  subscriber : after.subscriberActive = before.subscriberActive
  mask : after.enabledActivityMask = before.enabledActivityMask
  nvtx : after.nvtxInjectionActive = before.nvtxInjectionActive

theorem sameInstrumentation_flushActivityBuffers (answers : RequestAnswers) (state : AgentState) :
    SameInstrumentation state.control (flushActivityBuffers answers state).2.control := by
  unfold flushActivityBuffers
  split_ifs
  · exact ⟨rfl, rfl, rfl⟩
  · cases answers.numDropped with
    | none => exact ⟨rfl, rfl, rfl⟩
    | some dropped => exact ⟨rfl, rfl, rfl⟩

theorem sameInstrumentation_writeCapture (answers : RequestAnswers) (state : AgentState)
    (recordOffset : UInt64) :
    SameInstrumentation state.control (writeCapture answers state recordOffset).2.control := by
  rcases writeCapture_control answers state recordOffset with h | h
  · rw [h]
    exact ⟨rfl, rfl, rfl⟩
  · rw [h]
    exact ⟨rfl, rfl, rfl⟩

/-- `flush_activity_buffers` reports success: its calls succeed, and no earlier error is
    remembered. -/
structure FlushSucceeds (answers : RequestAnswers) (control : AgentControl) : Prop where
  flushAll : answers.flushAll = true
  buffersReturned : answers.buffersReturned = true
  numDropped : answers.numDropped.isSome = true
  agentStatus : control.agentStatus = .ready

theorem flushActivityBuffers_ready_iff :
    (flushActivityBuffers answers state).1 = .ready ↔ FlushSucceeds answers state.control := by
  unfold flushActivityBuffers
  split_ifs with hfails
  · refine ⟨nofun, fun h => ?_⟩
    rw [h.flushAll, h.buffersReturned] at hfails
    exact absurd hfails (by decide)
  · rw [Bool.or_eq_true, not_or, Bool.not_eq_true', Bool.not_eq_true', Bool.not_eq_false,
      Bool.not_eq_false] at hfails
    cases hdropped : answers.numDropped with
    | none => exact ⟨nofun, fun h => absurd h.numDropped (by rw [hdropped]; decide)⟩
    | some dropped =>
      exact ⟨fun hready => ⟨hfails.1, hfails.2, by rw [hdropped]; rfl, hready⟩,
        fun h => h.agentStatus⟩

/-- `stop_capture` reaches the shutdown. -/
def StopSucceeds (answers : RequestAnswers) (control : AgentControl) : Prop :=
  control.enabledActivityMask ≠ ∅ → FlushSucceeds answers control

theorem stopFlush_ready_iff :
    (stopFlush answers state).1 = .ready ↔ StopSucceeds answers state.control := by
  unfold stopFlush StopSucceeds
  split_ifs with hmask
  · exact flushActivityBuffers_ready_iff.trans ⟨fun h _ => h, fun h => h hmask⟩
  · exact ⟨fun _ h => absurd h hmask, fun _ => rfl⟩

theorem sameInstrumentation_stopFlush (answers : RequestAnswers) (state : AgentState) :
    SameInstrumentation state.control (stopFlush answers state).2.control := by
  unfold stopFlush
  split_ifs
  · exact sameInstrumentation_flushActivityBuffers answers state
  · exact ⟨rfl, rfl, rfl⟩

theorem sameInstrumentation_stopFinish (stopped : AgentStatus × AgentState) :
    SameInstrumentation stopped.2.control (stopFinish stopped).2.control := by
  unfold stopFinish
  split_ifs <;> exact ⟨rfl, rfl, rfl⟩

theorem stopCallbacks_eq (answers : RequestAnswers) (state : AgentState) (callbacks : Bool) :
    stopCallbacks answers state callbacks =
      if (stopFlush answers state).1 = .ready ∧
          ((stopFlush answers state).2.control.subscriberActive = true ∨
            (stopFlush answers state).2.control.enabledActivityMask ≠ ∅) then
        shutdownCallbacks answers.shutdown (stopFlush answers state).2.control callbacks
      else callbacks := rfl

/-- After a flush that failed nothing is shut down. -/
theorem stopCapture_of_flush_failed (h : ¬StopSucceeds answers state.control) :
    SameInstrumentation state.control (stopCapture answers state).2.control ∧
      stopCallbacks answers state callbacks = callbacks := by
  have hstatus : (stopFlush answers state).1 ≠ .ready := fun hready =>
    h (stopFlush_ready_iff.mp hready)
  have hskipped : stopShutdown answers (stopFlush answers state) = stopFlush answers state :=
    if_neg fun hboth => hstatus hboth.1
  have hflush := sameInstrumentation_stopFlush answers state
  have hfinish := sameInstrumentation_stopFinish (stopFlush answers state)
  rw [stopCapture_eq, hskipped, stopCallbacks_eq, if_neg fun hboth => hstatus hboth.1]
  exact ⟨⟨hfinish.subscriber.trans hflush.subscriber, hfinish.mask.trans hflush.mask,
    hfinish.nvtx.trans hflush.nvtx⟩, rfl⟩

/-- After a flush that succeeded everything is shut down. -/
theorem stopCapture_of_flush_succeeded (hshutdown : answers.shutdown.Succeed)
    (howned : Owned state.control callbacks) (h : StopSucceeds answers state.control) :
    (stopCapture answers state).2.control.enabledActivityMask = ∅ ∧
      (stopCapture answers state).2.control.subscriberActive =
        (state.control.subscriberActive && state.control.nvtxInjectionActive) ∧
      (stopCapture answers state).2.control.nvtxInjectionActive =
        state.control.nvtxInjectionActive ∧
      stopCallbacks answers state callbacks = false := by
  have hstatus : (stopFlush answers state).1 = .ready := stopFlush_ready_iff.mpr h
  have hflush := sameInstrumentation_stopFlush answers state
  have hfinish := sameInstrumentation_stopFinish (stopShutdown answers (stopFlush answers state))
  have hflushed : Owned (stopFlush answers state).2.control callbacks := fun hcallbacks =>
    hflush.subscriber.trans (howned hcallbacks)
  rw [stopCapture_eq, hfinish.mask, hfinish.subscriber, hfinish.nvtx, stopCallbacks_eq]
  unfold stopShutdown
  by_cases hany : (stopFlush answers state).2.control.subscriberActive = true ∨
      (stopFlush answers state).2.control.enabledActivityMask ≠ ∅
  · rw [if_pos ⟨hstatus, hany⟩, if_pos ⟨hstatus, hany⟩, shutdownAgent_of_succeed hshutdown,
      shutdownCallbacks_of_succeed hshutdown hflushed, hflush.subscriber, hflush.nvtx]
    exact ⟨rfl, rfl, rfl, rfl⟩
  · -- there is nothing to shut down
    rw [if_neg fun hboth => hany hboth.2, if_neg fun hboth => hany hboth.2]
    rw [not_or, not_not, Bool.not_eq_true] at hany
    have hinactive : state.control.subscriberActive = false := hflush.subscriber ▸ hany.1
    refine ⟨hany.2, ?_, hflush.nvtx, ?_⟩
    · rw [hany.1, hinactive]
      rfl
    · cases hcallbacks : callbacks with
      | false => rfl
      | true => exact absurd (howned hcallbacks) (by rw [hinactive]; decide)

theorem owned_stopCapture (hshutdown : answers.shutdown.Succeed)
    (howned : Owned state.control callbacks) :
    Owned (stopCapture answers state).2.control (stopCallbacks answers state callbacks) := by
  by_cases h : StopSucceeds answers state.control
  · obtain ⟨-, -, -, hcallbacks⟩ := stopCapture_of_flush_succeeded hshutdown howned h
    rw [hcallbacks]
    exact owned_false _
  · obtain ⟨hsame, hcallbacks⟩ := @stopCapture_of_flush_failed answers state callbacks h
    rw [hcallbacks]
    exact fun hon => hsame.subscriber.trans (howned hon)

theorem owned_runCommand (hshutdowns : answers.ShutdownsSucceed) (request : ControlRequest)
    (howned : Owned state.control callbacks) :
    Owned (runCommand answers request state).control
      (commandCallbacks answers request state callbacks) := by
  unfold runCommand commandCallbacks
  split_ifs
  · exact howned
  · exact owned_armCapture hshutdowns request howned
  · exact fun hon =>
      (sameInstrumentation_flushActivityBuffers answers state).subscriber.trans (howned hon)
  · exact howned
  · exact owned_stopCapture hshutdowns.shutdown howned

end Requests

/-! ## Every reachable session -/

variable {session : Session}

/-- A request that is not refused: its command runs, and the answer keeps what is enabled. -/
theorem serve_of_not_refuses {answers : RequestAnswers} {request : ControlRequest}
    (h : refuses answers request session.state.control = false) :
    SameInstrumentation (runCommand answers request session.state).control
        (session.serve answers request).state.control ∧
      (session.serve answers request).callbacks =
        commandCallbacks answers request session.state session.callbacks := by
  have hserved : ¬(session.state.control.snapshotThreadStop || !request.isWellFormed ||
      !answers.flushLock) = true := by
    rw [Bool.not_eq_true]
    exact h
  have hwrite := sameInstrumentation_writeCapture answers
    (runCommand answers request session.state) request.recordOffset
  refine ⟨?_, ?_⟩
  · show SameInstrumentation _ (serveRequest answers request session.state).2.control
    rw [serveRequest, if_neg hserved]
    exact ⟨hwrite.subscriber, hwrite.mask, hwrite.nvtx⟩
  · show (if refuses answers request session.state.control = true then _ else _) = _
    rw [h, if_neg Bool.false_ne_true]

theorem owned_step {step : SessionStep} (hstep : step.ShutdownsSucceed)
    (h : Owned session.state.control session.callbacks) :
    Owned (session.step step).state.control (session.step step).callbacks := by
  cases step with
  | request answers request =>
    cases hrefuses : refuses answers request session.state.control with
    | true =>
      have hserved : (session.state.control.snapshotThreadStop || !request.isWellFormed ||
          !answers.flushLock) = true := hrefuses
      show Owned (serveRequest answers request session.state).2.control
        (if refuses answers request session.state.control = true then _ else _)
      rw [if_pos hrefuses, serveRequest, if_pos hserved]
      exact h
    | false =>
      obtain ⟨hsame, hcallbacks⟩ := serve_of_not_refuses hrefuses
      have hcommand := owned_runCommand hstep request h
      show Owned (session.serve answers request).state.control
        (session.serve answers request).callbacks
      rw [hcallbacks]
      exact fun hon => hsame.subscriber.trans (hcommand hon)
  | callbacks store report => cases report <;> exact h
  | nvtxInitialize succeeds answers =>
    show Owned (nvtxInitialize succeeds answers session.state.control) session.callbacks
    unfold nvtxInitialize
    split_ifs
    · exact h
    · exact fun hon => (ensureSubscriber_cases answers _).1 (h hon)

theorem owned_of_reachable (h : session.Reachable) :
    Owned session.state.control session.callbacks := by
  obtain ⟨start, steps, hstart, hsteps, rfl⟩ := h
  refine foldl_invariant (I := fun _ (session : Session) =>
    Owned session.state.control session.callbacks) ?_ ?_
  · rw [hstart.callbacks]
    exact owned_false _
  · intro done step todo session hsplit howned
    exact owned_step (hsteps step (by rw [hsplit]; simp)) howned

/-! ## STOP and CLOSE -/

/-- For every reachable session and every outcome of the calls other than those that shut down: a
    STOP or CLOSE request that the agent handles leaves nothing in the target exactly when no
    activity was enabled, or the flush succeeds and no earlier error is remembered. -/
theorem serve_released_iff (session : Session) (answers : RequestAnswers) (request : ControlRequest)
    (hreachable : session.Reachable) (hshutdowns : answers.ShutdownsSucceed)
    (hcommand : request.command = ControlCommand.stop.code ∨
      request.command = ControlCommand.close.code)
    (hserved : refuses answers request session.state.control = false) :
    (session.serve answers request).Released ↔
      (session.state.control.enabledActivityMask ≠ ∅ →
        FlushSucceeds answers session.state.control) := by
  obtain ⟨hsame, hcallbacks⟩ := serve_of_not_refuses hserved
  have harm : request.command ≠ ControlCommand.arm.code := by
    rcases hcommand with h | h <;> rw [h] <;> decide
  have hsnapshot : request.command ≠ ControlCommand.snapshot.code := by
    rcases hcommand with h | h <;> rw [h] <;> decide
  have hrun : runCommand answers request session.state =
      (stopCapture answers session.state).2 := by
    rw [runCommand, if_neg harm, if_neg hsnapshot]
  have hstop : commandCallbacks answers request session.state session.callbacks =
      stopCallbacks answers session.state session.callbacks := by
    rw [commandCallbacks, if_neg harm, if_neg hsnapshot]
  rw [hrun] at hsame
  rw [hstop] at hcallbacks
  constructor
  · intro hreleased
    by_contra hfails
    -- the activities are still enabled
    obtain ⟨hkept, -⟩ := @stopCapture_of_flush_failed answers session.state session.callbacks hfails
    have hmask : session.state.control.enabledActivityMask = ∅ := by
      rw [← hkept.mask, ← hsame.mask]
      exact hreleased.mask
    exact hfails fun hne => absurd hmask hne
  · intro hsucceeds
    obtain ⟨hmask, hsubscriber, hnvtx, hstopped⟩ := stopCapture_of_flush_succeeded
      hshutdowns.shutdown (owned_of_reachable hreachable) hsucceeds
    refine ⟨hsame.mask.trans hmask, hcallbacks.trans hstopped, fun hinactive => ?_⟩
    rw [hsame.nvtx, hnvtx] at hinactive
    rw [hsame.subscriber, hsubscriber, hinactive, Bool.and_false]

/-- The agent right after its start. -/
def startedSession : Session := { state := idleAgent, callbacks := false }

/-- An agent that captures kernels. -/
def kernelSession : Session := startedSession.serve willingEnvironment (armKernels .exact 2)

theorem willingEnvironment_shutdownsSucceed : willingEnvironment.ShutdownsSucceed :=
  ⟨⟨fun _ => rfl, rfl, rfl, rfl, rfl⟩, ⟨fun _ => rfl, rfl, rfl, rfl, rfl⟩⟩

theorem startedSession_started : startedSession.Started := ⟨rfl, rfl, rfl, rfl, nofun⟩

theorem kernelSession_reachable : kernelSession.Reachable := by
  refine ⟨startedSession, [.request willingEnvironment (armKernels .exact 2)],
    startedSession_started, ?_, rfl⟩
  intro step hstep
  cases List.mem_singleton.mp hstep
  exact willingEnvironment_shutdownsSucceed

/-- A request without filters. -/
def plainRequest (command : ControlCommand) : ControlRequest :=
  { armKernels .exact 0 with command := command.code }

/-- An undisturbed STOP takes everything out of the target. -/
theorem serve_released_kernels :
    (kernelSession.serve willingEnvironment (plainRequest .stop)).Released :=
  (serve_released_iff kernelSession willingEnvironment (plainRequest .stop) kernelSession_reachable
    willingEnvironment_shutdownsSucceed (.inl rfl) rfl).mpr (fun _ => ⟨rfl, rfl, rfl, rfl⟩)

/-- An error that CUPTI reported while it delivered activities. -/
def failedSession : Session :=
  kernelSession.step (.callbacks kernelSession.state.store .cuptiError)

/-- After an activity error, or when the flush fails, STOP and CLOSE leave the kernel activity
    enabled although every call of the shutdown would succeed. -/
theorem kernels_left_enabled : failedSession.Reachable ∧
      (∀ command, command = .stop ∨ command = .close →
        (failedSession.serve willingEnvironment
          (plainRequest command)).state.control.enabledActivityMask = {.kernel}) ∧
      kernelSession.Reachable ∧
      ∀ command, command = .stop ∨ command = .close →
        (kernelSession.serve { willingEnvironment with flushAll := false }
          (plainRequest command)).state.control.enabledActivityMask = {.kernel} := by
  refine ⟨?_, ?_, kernelSession_reachable, ?_⟩
  · refine ⟨startedSession, [.request willingEnvironment (armKernels .exact 2),
      .callbacks kernelSession.state.store .cuptiError], startedSession_started, ?_, rfl⟩
    intro step hstep
    rcases List.mem_pair.mp hstep with rfl | rfl
    · exact willingEnvironment_shutdownsSucceed
    · trivial
  · rintro command (rfl | rfl) <;> rfl
  · rintro command (rfl | rfl) <;> rfl

end Xprobe.Cupti
