import Xprobe.Foundation.CommitLog
import Xprobe.Cupti.Agent

/-!
# Recording from many threads

`enqueue_record` (`cupti/src/cupti_agent.c`) called by any number of threads at the same time, with
one step for each atomic access and for each byte of a record that is copied. The calls take their
steps in any order, and other parts of the agent may change the state of the capture in between.

A call first looks at the state of the capture and at the filters. Then it takes part in a log with
many writers, whose entries are the records and whose parts are their bytes. `record_count` is the
number of calls that have drawn an index. The steps are those of counters without a bound;
`runWords` has the words of 64 bits that the agent has, which do not wrap within `2 ^ 64` steps.
-/

namespace Xprobe.Cupti

open Foundation CommitLog

/-! ## Model -/

/-- The calls of `enqueue_record` on one capture: their records, the filters and the capacity. -/
structure EnqueueCalls (ι : Type*) where
  record : ι → Record
  control : AgentControl
  capacity : ℕ

/-- Where a call is: before its first access, between the check of the state and the count, at the
    two stores of a call that finds no room, in the log, or done. -/
inductive EnqueueStage where
  | idle
  | counting
  | limiting
  | stopping
  | recording
  | returned
  deriving DecidableEq

/-- The shared variables and the calls. -/
structure EnqueueSystem (ι : Type*) where
  captureState : CaptureState
  stopReason : StopReason
  log : Log ι UInt8
  stages : ι → EnqueueStage

/-- A turn of a call, or a change of the state of the capture from elsewhere. -/
inductive EnqueueStep (ι : Type*) where
  | turn (call : ι) (action : Action)
  | environment (captureState : CaptureState)

namespace EnqueueSystem

variable {ι : Type*}

/-- A capture that has just become active. The records may hold anything. -/
def start (memory : ℕ → ℕ → UInt8) : EnqueueSystem ι :=
  { captureState := .active
    stopReason := .none
    log :=
      { count := 0, committed := 0, ready := fun _ => false, entries := memory
        writers := fun _ => ⟨.waiting, none⟩ }
    stages := fun _ => .idle }

/-- The call has begun and not returned. -/
def InProgress (system : EnqueueSystem ι) (call : ι) : Prop :=
  system.stages call ≠ .idle ∧ system.stages call ≠ .returned

end EnqueueSystem

def EnqueueCalls.content {ι : Type*} (calls : EnqueueCalls ι) (call : ι) (byte : ℕ) : UInt8 :=
  (calls.record call).encode.getD byte 0

section Steps

variable {ι : Type*} [DecidableEq ι] (calls : EnqueueCalls ι) {system : EnqueueSystem ι}

def EnqueueSystem.setStage (system : EnqueueSystem ι) (call : ι) (stage : EnqueueStage) :
    EnqueueSystem ι :=
  { system with stages := Function.update system.stages call stage }

theorem EnqueueSystem.setStage_stages_self (system : EnqueueSystem ι) (call : ι)
    (stage : EnqueueStage) : (system.setStage call stage).stages call = stage :=
  Function.update_self ..

theorem EnqueueSystem.setStage_stages_of_ne {call other : ι} (h : other ≠ call)
    (stage : EnqueueStage) :
    (system.setStage call stage).stages other = system.stages other :=
  Function.update_of_ne h ..

def EnqueueSystem.stepLog (system : EnqueueSystem ι) (call : ι) (action : Action) : Log ι UInt8 :=
  system.log.step calls.capacity recordSize calls.content call action

/-- The next access of a call outside the log. -/
def EnqueueSystem.advance (system : EnqueueSystem ι) (call : ι) : EnqueueSystem ι :=
  match system.stages call with
  | .idle =>
    if system.captureState ≠ .active then system.setStage call .returned
    else system.setStage call .counting
  | .counting =>
    if !calls.control.filterMatches (calls.record call) then system.setStage call .returned
    else
      let counted := { system with log := system.stepLog calls call .next }
      if calls.capacity ≤ system.log.count then counted.setStage call .limiting
      else counted.setStage call .recording
  | .limiting => { system with stopReason := .recordLimit }.setStage call .stopping
  | .stopping => { system with captureState := .limitReached }.setStage call .returned
  | .recording => system
  | .returned => system

/-- One turn of a call. It returns when it leaves the loop that commits records. -/
def EnqueueSystem.turn (system : EnqueueSystem ι) (call : ι) (action : Action) : EnqueueSystem ι :=
  match system.stages call with
  | .recording =>
    let recorded := { system with log := system.stepLog calls call action }
    match (recorded.log.writers call).phase with
    | .finished => recorded.setStage call .returned
    | _ => recorded
  | _ =>
    match action with
    | .next => system.advance calls call
    | _ => system

def EnqueueSystem.step (system : EnqueueSystem ι) : EnqueueStep ι → EnqueueSystem ι
  | .turn call action => system.turn calls call action
  | .environment captureState => { system with captureState }

def EnqueueSystem.run (system : EnqueueSystem ι) (steps : List (EnqueueStep ι)) : EnqueueSystem ι :=
  steps.foldl (EnqueueSystem.step calls) system

/-- A step with the counters of the agent, which are of 64 bits. -/
def EnqueueSystem.stepWords (system : EnqueueSystem ι) (step : EnqueueStep ι) : EnqueueSystem ι :=
  let next := system.step calls step
  { next with log := next.log.words }

def EnqueueSystem.runWords (system : EnqueueSystem ι) (steps : List (EnqueueStep ι)) :
    EnqueueSystem ι :=
  steps.foldl (EnqueueSystem.stepWords calls) system

end Steps

/-! ## The invariant -/

section Invariant

variable {ι : Type*} [DecidableEq ι] {calls : EnqueueCalls ι} {system : EnqueueSystem ι}

/-- The log is sound, and a call that is not in the log has no business there. -/
structure EnqueueSound (calls : EnqueueCalls ι) (system : EnqueueSystem ι) : Prop where
  log : Sound calls.capacity recordSize calls.content system.log
  atRest : ∀ call, system.stages call ≠ .recording → (system.log.writers call).phase.AtRest
  waiting : ∀ call, system.stages call = .idle ∨ system.stages call = .counting →
    (system.log.writers call).phase = .waiting

omit [DecidableEq ι] in
theorem enqueueSound_start (calls : EnqueueCalls ι) (memory : ℕ → ℕ → UInt8) :
    EnqueueSound calls (.start memory) where
  log := sound_start rfl rfl (fun _ => rfl) (fun _ => rfl)
  atRest _ _ := trivial
  waiting _ _ := rfl

variable (h : EnqueueSound calls system)

include h

/-- A call moves on outside the log: its stage changes, and perhaps what the log does not know. -/
theorem EnqueueSound.setStage {system' : EnqueueSystem ι}
    (hlog : system'.log = system.log) (hstages : system'.stages = system.stages) {call : ι}
    {stage : EnqueueStage} (hrest : (system.log.writers call).phase.AtRest)
    (hwaiting : stage = .idle ∨ stage = .counting →
      (system.log.writers call).phase = .waiting) :
    EnqueueSound calls (system'.setStage call stage) where
  log := by
    show Sound _ _ _ system'.log
    rw [hlog]
    exact h.log
  atRest other hother := by
    show (system'.log.writers other).phase.AtRest
    rw [hlog]
    rcases eq_or_ne other call with rfl | hne
    · exact hrest
    · rw [EnqueueSystem.setStage_stages_of_ne hne, hstages] at hother
      exact h.atRest other hother
  waiting other hother := by
    show (system'.log.writers other).phase = .waiting
    rw [hlog]
    rcases eq_or_ne other call with rfl | hne
    · rw [EnqueueSystem.setStage_stages_self] at hother
      exact hwaiting hother
    · rw [EnqueueSystem.setStage_stages_of_ne hne, hstages] at hother
      exact h.waiting other hother

/-- A turn in the log, after which the call is still in it or has come to rest there. -/
theorem EnqueueSound.stepLog (call : ι) (action : Action) {stages : ι → EnqueueStage}
    (hothers : ∀ other, other ≠ call → stages other = system.stages other)
    (hout : stages call ≠ .idle ∧ stages call ≠ .counting)
    (hrest : stages call ≠ .recording →
      ((system.stepLog calls call action).writers call).phase.AtRest) :
    EnqueueSound calls { system with log := system.stepLog calls call action, stages } where
  log := h.log.step call action
  atRest other hother := by
    rcases eq_or_ne other call with rfl | hne
    · exact hrest hother
    · show ((system.stepLog calls call action).writers other).phase.AtRest
      rw [EnqueueSystem.stepLog, Log.step_writers_of_ne _ _ _ _ hne]
      exact h.atRest other (hothers other hne ▸ hother)
  waiting other hother := by
    rcases eq_or_ne other call with rfl | hne
    · rcases hother with hidle | hcounting
      · exact absurd hidle hout.1
      · exact absurd hcounting hout.2
    · show ((system.stepLog calls call action).writers other).phase = .waiting
      rw [EnqueueSystem.stepLog, Log.step_writers_of_ne _ _ _ _ hne]
      change stages other = _ ∨ stages other = _ at hother
      rw [hothers other hne] at hother
      exact h.waiting other hother

theorem EnqueueSound.advance (call : ι) : EnqueueSound calls (system.advance calls call) := by
  unfold EnqueueSystem.advance
  cases hstage : system.stages call with
  | idle =>
    have hwaiting := h.waiting call (.inl hstage)
    have hrest : (system.log.writers call).phase.AtRest := by
      rw [hwaiting]
      trivial
    dsimp only
    split_ifs
    · exact h.setStage rfl rfl hrest (fun _ => hwaiting)
    · exact h.setStage rfl rfl hrest (fun _ => hwaiting)
  -- a call that is counting draws its index in the log, or is filtered out
  | counting =>
    have hwaiting := h.waiting call (.inr hstage)
    have hrest : (system.log.writers call).phase.AtRest := by
      rw [hwaiting]
      trivial
    dsimp only
    split_ifs with hfilter hfull
    · exact h.setStage rfl rfl hrest (fun _ => hwaiting)
    -- there is no room: the writer of the log rests, and the call ends the capture
    · refine h.stepLog call .next (fun other hne => Function.update_of_ne hne ..) ?_ ?_
      · rw [Function.update_self]
        exact ⟨nofun, nofun⟩
      · intro _
        rw [EnqueueSystem.stepLog, Log.step_refused _ _ hwaiting hfull]
        trivial
    -- the index has room: from here on the call is a writer of the log
    · refine h.stepLog call .next (fun other hne => Function.update_of_ne hne ..) ?_ ?_
      · rw [Function.update_self]
        exact ⟨nofun, nofun⟩
      · intro hout
        rw [Function.update_self] at hout
        exact absurd rfl hout
  -- the last two stages store a word each and leave the log alone
  | limiting =>
    have hrest := h.atRest call (by rw [hstage]; nofun)
    show EnqueueSound calls (EnqueueSystem.setStage { system with stopReason := .recordLimit } call .stopping)
    refine h.setStage ?_ ?_ hrest ?_
    · rfl
    · rfl
    · simp
  | stopping =>
    have hrest := h.atRest call (by rw [hstage]; nofun)
    show EnqueueSound calls (EnqueueSystem.setStage { system with captureState := .limitReached } call .returned)
    refine h.setStage ?_ ?_ hrest ?_
    · rfl
    · rfl
    · simp
  | recording => exact h
  | returned => exact h

theorem EnqueueSound.turn (call : ι) (action : Action) :
    EnqueueSound calls (system.turn calls call action) := by
  unfold EnqueueSystem.turn
  split
  · rename_i hstage
    dsimp only
    split
    · rename_i hphase
      refine h.stepLog call action (fun other hne => Function.update_of_ne hne ..) ?_ ?_
      · rw [Function.update_self]
        exact ⟨nofun, nofun⟩
      · intro _
        rw [hphase]
        trivial
    · refine h.stepLog call action (fun _ _ => rfl) ?_ ?_
      · rw [hstage]
        exact ⟨nofun, nofun⟩
      · exact fun hout => absurd hstage hout
  · cases action with
    | next => exact h.advance call
    | write part => exact h
    | fail => exact h

theorem EnqueueSound.step (step : EnqueueStep ι) : EnqueueSound calls (system.step calls step) := by
  cases step with
  | turn call action => exact h.turn call action
  | environment captureState => exact ⟨h.log, h.atRest, h.waiting⟩

theorem EnqueueSound.run (steps : List (EnqueueStep ι)) :
    EnqueueSound calls (system.run calls steps) := by
  induction steps generalizing system with
  | nil => exact h
  | cons step rest ih => exact ih (h.step step)

omit h

/-! ## What is never taken back -/

/-- A turn is a turn of the log, or leaves the log alone. -/
theorem EnqueueSystem.turn_log (system : EnqueueSystem ι) (call : ι) (action : Action) :
    (system.turn calls call action).log = system.log ∨
      ∃ action', (system.turn calls call action).log = system.stepLog calls call action' := by
  unfold EnqueueSystem.turn
  split
  · dsimp only
    split <;> exact .inr ⟨action, rfl⟩
  · cases action with
    | next =>
      unfold EnqueueSystem.advance
      dsimp only
      split
      · split_ifs <;> exact .inl rfl
      · split_ifs
        · exact .inl rfl
        · exact .inr ⟨.next, rfl⟩
        · exact .inr ⟨.next, rfl⟩
      · exact .inl rfl
      · exact .inl rfl
      · exact .inl rfl
      · exact .inl rfl
    | write part => exact .inl rfl
    | fail => exact .inl rfl

/-- Whatever happens later, what was ready stays ready and keeps its bytes. -/
theorem EnqueueSound.run_keeps (h : EnqueueSound calls system) {index : ℕ}
    (hready : system.log.ready index = true) (steps : List (EnqueueStep ι)) :
    (system.run calls steps).log.ready index = true ∧
      (system.run calls steps).log.entries index = system.log.entries index := by
  induction steps generalizing system with
  | nil => exact ⟨hready, rfl⟩
  | cons step rest ih =>
    have hstep : (system.step calls step).log.ready index = true ∧
        (system.step calls step).log.entries index = system.log.entries index := by
      cases step with
      | environment captureState => exact ⟨hready, rfl⟩
      | turn call action =>
        show (system.turn calls call action).log.ready index = true ∧
          (system.turn calls call action).log.entries index = system.log.entries index
        rcases @EnqueueSystem.turn_log ι _ calls system call action with hsame | ⟨action', hturn⟩
        · rw [hsame]
          exact ⟨hready, rfl⟩
        · rw [hturn]
          exact (h.log.step_keeps call action').2 index hready
    obtain ⟨hready', hentries'⟩ := ih (h.step step) hstep.1
    exact ⟨hready', hentries'.trans hstep.2⟩

/-! ## Counters of 64 bits -/

theorem EnqueueSystem.step_count_le (system : EnqueueSystem ι) (step : EnqueueStep ι) :
    (system.step calls step).log.count ≤ system.log.count + 1 := by
  cases step with
  | environment captureState => exact Nat.le_succ _
  | turn call action =>
    show (system.turn calls call action).log.count ≤ _
    rcases @EnqueueSystem.turn_log ι _ calls system call action with hsame | ⟨action', hturn⟩
    · rw [hsame]
      exact Nat.le_succ _
    · rw [hturn]
      exact Log.step_count_le system.log call action'

/-- The words of the agent count as numbers do while fewer than `2 ^ 64` steps are taken. -/
theorem EnqueueSound.runWords_eq (h : EnqueueSound calls system) {steps : List (EnqueueStep ι)}
    (hroom : system.log.count + steps.length < 2 ^ 64) :
    system.runWords calls steps = system.run calls steps := by
  induction steps generalizing system with
  | nil => rfl
  | cons step rest ih =>
    have hcount := @EnqueueSystem.step_count_le ι _ calls system step
    rw [List.length_cons] at hroom
    have hstep : system.stepWords calls step = system.step calls step := by
      rw [EnqueueSystem.stepWords, (h.step step).log.words_eq (by omega)]
    show EnqueueSystem.runWords calls (system.stepWords calls step) rest = _
    rw [hstep]
    exact ih (h.step step) (by omega)

/-- In every interleaving: no two calls have the same slot; a slot below the committed count holds the
    whole record of a call and is not written again, whatever follows; no more is committed than was
    counted and has room; and when no call is in progress, all of that is committed. The agent with
    its counters of 64 bits takes the same steps, as long as they are fewer than `2 ^ 64`. -/
theorem enqueueRecord_interleaved (calls : EnqueueCalls ι) (memory : ℕ → ℕ → UInt8)
    (steps : List (EnqueueStep ι)) :
    let log := ((EnqueueSystem.start memory).run calls steps).log
    (∀ a b index, (log.writers a).index = some index → (log.writers b).index = some index → a = b) ∧
    (∀ index < log.committed,
      (∃ call, (log.writers call).index = some index ∧
        ∀ byte < recordSize, log.entries index byte = (calls.record call).encode.getD byte 0) ∧
      ∀ later,
        let log' := (((EnqueueSystem.start memory).run calls steps).run calls later).log
        log'.entries index = log.entries index ∧
          ∀ call pending, log'.writers call ≠ ⟨.writing pending, some index⟩) ∧
    log.committed ≤ min log.count calls.capacity ∧
    ((∀ call, ¬ ((EnqueueSystem.start memory).run calls steps).InProgress call) →
      log.committed = min log.count calls.capacity) ∧
    (steps.length < 2 ^ 64 →
      (EnqueueSystem.start memory).runWords calls steps =
        (EnqueueSystem.start memory).run calls steps) := by
  have hsound := (enqueueSound_start calls memory).run steps
  refine ⟨hsound.log.unique, fun index hindex => ⟨?_, fun later => ?_⟩,
    hsound.log.committed_le_min, fun hquiet => ?_, fun hsteps => ?_⟩
  · obtain ⟨call, hcall, hbytes, -⟩ :=
      hsound.log.published_of_ready (hsound.log.committed_ready index hindex)
    exact ⟨call, hcall, hbytes⟩
  · obtain ⟨hready, hentries⟩ := hsound.run_keeps (hsound.log.committed_ready index hindex) later
    exact ⟨hentries, fun call pending => (hsound.run later).log.not_writing hready⟩
  · apply hsound.log.committed_eq_min
    intro call
    -- a call that is not in progress is not in the log
    apply hsound.atRest call
    intro hrecording
    apply hquiet call
    rw [EnqueueSystem.InProgress, hrecording]
    exact ⟨nofun, nofun⟩
  · exact (enqueueSound_start calls memory).runWords_eq ((Nat.zero_add _).trans_lt hsteps)

end Invariant

end Xprobe.Cupti
