import Xprobe.Cupti.AgentSteps
import Xprobe.Cupti.ExactStore
import Xprobe.Cli.Live

/-!
# Several clients of one agent

Clients that share one agent, and the records that the agent commits between their requests. An
epoch begins with every ARM request that resets the capture. Neither a request nor an answer names
the epoch; `append_cuda_capture` relies on the offset, the capacity and the counters.

The epochs here are ghost state. `stamps` holds, for each entry of the array of records, the epoch
in which it was committed; a client keeps the epochs of the records that it accumulated.
-/

namespace Xprobe.Cli

open Foundation Protocol Cupti

/-! ## The system -/

/-- A measurement: what it accumulated, and the epoch of every accumulated record. -/
structure Client where
  collection : LiveCollection
  epochs : List Nat

/-- One agent and its clients. -/
structure System (ι : Type) where
  agent : AgentState
  epoch : Nat
  stamps : List Nat
  clients : ι → Client

/-- What can happen. In aggregate mode it is left to the environment how activities change the
    slots and the number of groups. -/
inductive Step (ι : Type) where
  | record (record : Record)
  | lose (agentDropped cuptiDropped unknown : UInt64)
  | cuptiFault
  | outputFault
  | aggregate (slots : List AggregateSlot) (groups : UInt64) (full : Bool)
  | exchange (client : ι) (request : ControlRequest) (answers : RequestAnswers)

/-- `enqueue_record` stores the record. -/
def stores (agent : AgentState) (record : Record) : Bool :=
  agent.control.captureState = .active ∧ agent.control.filterMatches record = true ∧
    agent.store.recordCount < agent.store.recordCapacity

/-- The agent does not even run the command of the request. -/
def ignored (answers : RequestAnswers) (request : ControlRequest) (agent : AgentState) : Bool :=
  agent.control.snapshotThreadStop || !request.isWellFormed || !answers.flushLock

/-- The epochs of the records in an answer. -/
def deliveredStamps (stamps : List Nat) (store : CaptureStore) (recordOffset : UInt64) : List Nat :=
  if store.captureMode = CaptureMode.aggregate.code then []
  else (stamps.take store.committedRecordCount.toNat).drop recordOffset.toNat

def acceptAnswer (sessionId : String) (collection : LiveCollection) :
    Option WriteOutcome → Option LiveCollection
  | some (.sent bytes) =>
    (decodeCapture bytes sessionId).toOption.bind
      (fun capture => (appendCudaCapture collection capture).toOption)
  | _ => none

/-- A client after its request. A new measurement begins with ARM; an answer that is refused leaves
    the collection as it was. -/
def Client.receive (client : Client) (sessionId : String) (request : ControlRequest)
    (outcome : Option WriteOutcome) (delivered : List Nat) : Client :=
  if request.command = ControlCommand.arm.code then { collection := .armed, epochs := [] }
  else
    match acceptAnswer sessionId client.collection outcome with
    | some collection => { collection, epochs := client.epochs ++ delivered }
    | none => client

namespace System

variable {ι : Type} [DecidableEq ι]

/-- A record reaches the agent. Only exact mode enqueues records. -/
def record (system : System ι) (record : Record) : System ι :=
  if system.agent.store.captureMode = CaptureMode.aggregate.code then system
  else
    { system with
      agent := enqueueRecord system.agent record
      stamps :=
        if stores system.agent record then
          system.stamps.set system.agent.store.recordCount.toNat system.epoch
        else system.stamps }

/-- Records are lost. -/
def lose (system : System ι) (agentDropped cuptiDropped unknown : UInt64) : System ι :=
  let store := system.agent.store
  { system with
    agent :=
      { system.agent with
        store :=
          { store with
            agentDroppedRecords := store.agentDroppedRecords + agentDropped
            cuptiDroppedRecords := store.cuptiDroppedRecords + cuptiDropped
            unknownRecords := store.unknownRecords + unknown } } }

def aggregate (system : System ι) (slots : List AggregateSlot) (groups : UInt64) (full : Bool) :
    System ι :=
  let agent := system.agent
  if agent.control.captureState = .active ∧
      agent.store.captureMode = CaptureMode.aggregate.code then
    { system with
      agent :=
        { store := { agent.store with aggregateSlots := slots, committedRecordCount := groups }
          control :=
            if full then
              { agent.control with stopReason := .recordLimit, captureState := .limitReached }
            else agent.control } }
  else system

def exchange (sessionIds : ι → String) (system : System ι) (client : ι) (request : ControlRequest)
    (answers : RequestAnswers) : System ι :=
  if ignored answers request system.agent then system
  else
    let served := runCommand answers request system.agent
    let resets : Bool := Resets answers request system.agent
    let stamps := if resets then List.replicate served.store.records.length 0 else system.stamps
    let (outcome, agent) := serveRequest answers request system.agent
    { agent
      epoch := if resets then system.epoch + 1 else system.epoch
      stamps
      clients := Function.update system.clients client
        ((system.clients client).receive (sessionIds client) request outcome
          (deliveredStamps stamps served.store request.recordOffset)) }

def step (sessionIds : ι → String) (system : System ι) : Step ι → System ι
  | .record record => system.record record
  | .lose agentDropped cuptiDropped unknown => system.lose agentDropped cuptiDropped unknown
  | .cuptiFault =>
    { system with
      agent := { system.agent with control := system.agent.control.rememberCuptiError } }
  | .outputFault =>
    { system with
      agent := { system.agent with control := system.agent.control.rememberOutputError } }
  | .aggregate slots groups full => system.aggregate slots groups full
  | .exchange client request answers => system.exchange sessionIds client request answers

def run (sessionIds : ι → String) (system : System ι) (steps : List (Step ι)) : System ι :=
  steps.foldl (step sessionIds) system

/-- Measurements that are about to begin. -/
def start (agent : AgentState) : System ι :=
  { agent, epoch := 0, stamps := List.replicate agent.store.records.length 0
    clients := fun _ => { collection := .armed, epochs := [] } }

end System

/-! ## What is committed belongs to the current epoch -/

/-- Every record that is ready was stored in the current epoch, and every committed record is
    ready. -/
structure Stamped {ι : Type} (system : System ι) : Prop where
  stamps_length : system.stamps.length = system.agent.store.records.length
  ready_length : system.agent.store.recordReady.length = system.agent.store.records.length
  ready : ∀ i : Nat, system.agent.store.recordReady[i]? = some true →
    system.stamps[i]? = some system.epoch
  committed : ∀ i < system.agent.store.committedRecordCount.toNat,
    i < system.agent.store.recordReady.length → system.agent.store.recordReady[i]? = some true
  no_records : system.agent.control.captureState = .active →
    system.agent.store.captureMode = CaptureMode.aggregate.code →
    system.agent.store.records = [] ∧ system.agent.store.recordReady = []

variable {ι : Type} {system : System ι}

private theorem of_getElem?_take {α : Type} {l : List α} {n i : Nat} {a : α}
    (h : (l.take n)[i]? = some a) : i < n ∧ l[i]? = some a := by
  rw [List.getElem?_take] at h
  split_ifs at h with hi
  exact ⟨hi, h⟩

theorem Stamped.eq_epoch (h : Stamped system) {stamp : Nat}
    (hstamp : stamp ∈ system.stamps.take system.agent.store.committedRecordCount.toNat) :
    stamp = system.epoch := by
  obtain ⟨i, hi⟩ := List.getElem?_of_mem hstamp
  obtain ⟨hlt, hget⟩ := of_getElem?_take hi
  have hlength := (List.getElem?_eq_some_iff.mp hget).1
  have hready := h.committed i hlt (by rw [h.ready_length, ← h.stamps_length]; exact hlength)
  exact Option.some.inj (hget.symm.trans (h.ready i hready))

/-- The entries that the commit loop passes are ready. -/
private theorem ready_of_takeWhile {ready : List Bool} {n i : Nat} (hn : n ≤ i)
    (hi : i < n + ((ready.drop n).takeWhile id).length) : ready[i]? = some true := by
  obtain ⟨j, rfl⟩ := Nat.exists_eq_add_of_le hn
  have hj : j < ((ready.drop n).takeWhile id).length := by omega
  have hmem := List.mem_takeWhile_imp (List.getElem_mem hj)
  have hget := (List.takeWhile_prefix (l := ready.drop n) id).getElem hj
  rw [hget] at hmem
  have hdrop : (ready.drop n)[j]? = some true := by
    rw [List.getElem?_eq_getElem (lt_of_lt_of_le hj
      (List.takeWhile_prefix (l := ready.drop n) id).length_le)]
    exact congrArg some hmem
  rwa [List.getElem?_drop] at hdrop

/-- After the commit loop every committed record is ready, if the ones before were. -/
private theorem committed_commitReady {store : CaptureStore}
    (h : ∀ i < store.committedRecordCount.toNat, i < store.recordReady.length →
      store.recordReady[i]? = some true) :
    ∀ i < store.commitReady.committedRecordCount.toNat, i < store.recordReady.length →
      store.recordReady[i]? = some true := by
  intro i hi hlength
  by_cases hold : i < store.committedRecordCount.toNat
  · exact h i hold hlength
  · -- a new one: it is among the entries that the loop passed
    have hnew : i < store.committedRecordCount.toNat +
        (((store.recordReady.take store.recordCapacity.toNat).drop
          store.committedRecordCount.toNat).takeWhile id).length := by
      refine lt_of_lt_of_le hi ?_
      simp only [CaptureStore.commitReady, UInt64.toNat_add, UInt64.toNat_ofNat']
      refine (Nat.mod_le _ _).trans ?_
      exact Nat.add_le_add_left (Nat.mod_le _ _) _
    have htake := ready_of_takeWhile (not_lt.mp hold) hnew
    exact (of_getElem?_take htake).2

theorem stamped_record (h : Stamped system) (record : Record) : Stamped (system.record record) := by
  by_cases hmode : system.agent.store.captureMode = CaptureMode.aggregate.code
  · rw [System.record, if_pos hmode]
    exact h
  have hsame : stores system.agent record = storesRecord system.agent record := rfl
  rw [System.record, if_neg hmode, hsame, enqueueRecord_eq]
  cases hstores : storesRecord system.agent record with
  | false =>
    simp only [Bool.false_eq_true, if_false]
    split_ifs
    · -- the limit is reached: nothing is stored, and the capture is no longer active
      exact ⟨h.stamps_length, h.ready_length, h.ready, h.committed, nofun⟩
    · exact h
  | true =>
    simp only [if_true, CaptureStore.push]
    -- the new entry is stamped with the epoch and ready, the others are as before
    refine
      { stamps_length := by simpa [CaptureStore.commitReady] using h.stamps_length
        ready_length := by simpa [CaptureStore.commitReady] using h.ready_length
        ready := ?_
        committed := ?_
        no_records := fun _ haggregate => absurd haggregate hmode }
    · intro i hi
      change (system.agent.store.recordReady.set _ true)[i]? = some true at hi
      by_cases hindex : system.agent.store.recordCount.toNat = i
      · subst hindex
        have hlength := (List.getElem?_eq_some_iff.mp hi).1
        rw [List.length_set, h.ready_length, ← h.stamps_length] at hlength
        rw [List.getElem?_set_self hlength]
      · rw [List.getElem?_set_ne hindex] at hi
        rw [List.getElem?_set_ne hindex]
        exact h.ready i hi
    · refine committed_commitReady ?_
      intro i hi hlength
      rw [List.length_set] at hlength
      by_cases hindex : system.agent.store.recordCount.toNat = i
      · rw [hindex, List.getElem?_set_self hlength]
      · rw [List.getElem?_set_ne hindex]
        exact h.committed i hi hlength

theorem stamped_aggregate (h : Stamped system) (slots : List AggregateSlot)
    (groups : UInt64) (full : Bool) : Stamped (system.aggregate slots groups full) := by
  by_cases hcapture : system.agent.control.captureState = .active ∧
      system.agent.store.captureMode = CaptureMode.aggregate.code
  swap
  · rw [System.aggregate, if_neg hcapture]
    exact h
  · rw [System.aggregate, if_pos hcapture]
    -- in aggregate mode there are no records, so the number of groups says nothing about them
    obtain ⟨hrecords, hready⟩ := h.no_records hcapture.1 hcapture.2
    refine
      { stamps_length := h.stamps_length
        ready_length := h.ready_length
        ready := h.ready
        committed := ?_
        no_records := fun _ _ => ⟨hrecords, hready⟩ }
    intro i _ hlength
    change i < system.agent.store.recordReady.length at hlength
    rw [hready] at hlength
    cases hlength

variable {agent : AgentState}

/-- A change that keeps the capture keeps the stamps right. -/
theorem stamped_of_kept (h : Stamped system) (hkept : Kept system.agent agent)
    (clients : ι → Client) :
    Stamped { system with agent, clients } where
  stamps_length := by rw [hkept.records]; exact h.stamps_length
  ready_length := by rw [hkept.recordReady, hkept.records]; exact h.ready_length
  ready := by rw [hkept.recordReady]; exact h.ready
  committed := by rw [hkept.committed, hkept.recordReady]; exact h.committed
  no_records hactive hmode := by
    obtain ⟨hbefore, hsame⟩ := hkept.active hactive
    rw [hkept.records, hkept.recordReady]
    exact h.no_records hbefore (hsame.symm.trans hmode)

/-- An empty capture needs no stamps. -/
theorem stamped_of_renewed (h : Renewed agent.store) (epoch : Nat) (clients : ι → Client) :
    Stamped { agent, epoch, clients, stamps := List.replicate agent.store.records.length 0 } where
  stamps_length := List.length_replicate
  ready_length := h.lengths
  ready i hi := absurd (h.ready true (List.mem_of_getElem? hi)) (by decide)
  committed i hi := by
    rw [h.committed] at hi
    cases hi
  no_records _ hmode := h.no_records hmode

theorem serveRequest_eq {answers : RequestAnswers} {request : ControlRequest}
    (h : ignored answers request agent = false) :
    (serveRequest answers request agent).1 =
        some (writeCapture answers (runCommand answers request agent) request.recordOffset).1 ∧
      (serveRequest answers request agent).2.store = (runCommand answers request agent).store ∧
      Kept (runCommand answers request agent) (serveRequest answers request agent).2 := by
  have hkept := (windsDown_writeCapture answers (runCommand answers request agent)
    request.recordOffset).kept
  have hstore := writeCapture_store answers (runCommand answers request agent)
    request.recordOffset
  rw [ignored] at h
  rw [serveRequest, h, if_neg Bool.false_ne_true]
  exact ⟨rfl, hstore, hkept.records, hkept.recordReady, hkept.committed, hkept.active⟩

section Runs

variable [DecidableEq ι]

theorem stamped_exchange (h : Stamped system) (sessionIds : ι → String)
    (client : ι) (request : ControlRequest) (answers : RequestAnswers) :
    Stamped (system.exchange sessionIds client request answers) := by
  unfold System.exchange
  cases hignored : ignored answers request system.agent with
  | true => exact h
  | false =>
    obtain ⟨-, hstore, hkept⟩ := serveRequest_eq hignored
    have hform : request.isWellFormed = true := by
      simp only [ignored, Bool.or_eq_false_iff, Bool.not_eq_false'] at hignored
      exact hignored.1.2
    rw [if_neg Bool.false_ne_true]
    by_cases hresets : Resets answers request system.agent
    · simp only [hresets, decide_true, if_true]
      have hrenewed := renewed_runCommand hresets (mode_of_isWellFormed hform)
      rw [← hstore] at hrenewed
      rw [← hstore]
      exact stamped_of_renewed hrenewed _ _
    · simp only [hresets, decide_false, Bool.false_eq_true, if_false]
      exact stamped_of_kept h ((kept_runCommand hresets).trans hkept) _

theorem stamped_step (h : Stamped system) (sessionIds : ι → String)
    (step : Step ι) : Stamped (system.step sessionIds step) := by
  cases step with
  | record record => exact stamped_record h record
  | lose agentDropped cuptiDropped unknown =>
    exact @stamped_of_kept ι system (system.lose agentDropped cuptiDropped unknown).agent h
      ⟨rfl, rfl, rfl, fun hactive => ⟨hactive, rfl⟩⟩ system.clients
  | cuptiFault => exact stamped_of_kept h (kept_of_control (notRevived_rememberCuptiError _ _)) _
  | outputFault => exact stamped_of_kept h (kept_of_control (notRevived_rememberOutputError _ _)) _
  | aggregate slots groups full => exact stamped_aggregate h slots groups full
  | exchange client request answers => exact stamped_exchange h sessionIds client request answers

/-- In every run, what is committed belongs to the current epoch. -/
theorem stamped_run (h : Renewed agent.store) (sessionIds : ι → String) (steps : List (Step ι)) :
    Stamped ((System.start agent).run sessionIds steps) := by
  have hrun : ∀ system : System ι, Stamped system → Stamped (system.run sessionIds steps) := by
    induction steps with
    | nil => exact fun _ hsystem => hsystem
    | cons step rest ih => exact fun _ hsystem => ih _ (stamped_step hsystem sessionIds step)
  exact hrun _ (stamped_of_renewed h 0 _)

end Runs

/-! ## Mixing epochs -/

/-- The records that a client accumulated are of one epoch. -/
def Client.Uniform (client : Client) : Prop :=
  ∀ epoch ∈ client.epochs, ∀ epoch' ∈ client.epochs, epoch = epoch'

/-- The capacity and the counters that a client accumulated do not contradict those of the agent. -/
structure Unsuspicious (accumulated : CuptiCapture) (store : CaptureStore) : Prop where
  capacity : accumulated.recordCapacity = store.recordCapacity
  observed : accumulated.observedRecords ≤ store.recordCount
  agentDropped : accumulated.agentDroppedRecords ≤ store.agentDroppedRecords
  cuptiDropped : accumulated.cuptiDroppedRecords ≤ store.cuptiDroppedRecords
  unknown : accumulated.unknownRecords ≤ store.unknownRecords

/-- A client that holds a record of an earlier epoch asks for more, at its own offset. The agent has
    committed more records than that in the meantime, and neither the capacity nor a counter gives
    away that the capture is a new one. -/
structure Unexposed (sessionIds : ι → String) (system : System ι) (client : ι)
    (request : ControlRequest) (answers : RequestAnswers) : Prop where
  command : request.command ≠ ControlCommand.arm.code
  decodes : ∃ bytes capture, (serveRequest answers request system.agent).1 = some (.sent bytes) ∧
    decodeCapture bytes (sessionIds client) = .ok capture
  offset : request.recordOffset = (system.clients client).collection.cudaRecordOffset
  exact_mode :
    (runCommand answers request system.agent).store.captureMode ≠ CaptureMode.aggregate.code
  delivers :
    request.recordOffset < (runCommand answers request system.agent).store.committedRecordCount
  unsuspicious : ∀ accumulated ∈ (system.clients client).collection.latestCuda,
    Unsuspicious accumulated (runCommand answers request system.agent).store
  stale : ∃ epoch ∈ (system.clients client).epochs, epoch ≠ system.epoch

def Step.Unexposed (sessionIds : ι → String) (system : System ι) : Step ι → Prop
  | .exchange client request answers => Cli.Unexposed sessionIds system client request answers
  | _ => False

variable {collection : LiveCollection}

theorem acceptAnswer_eq_some_iff {sessionId : String} {collection' : LiveCollection}
    {outcome : WriteOutcome} :
    acceptAnswer sessionId collection (some outcome) = some collection' ↔
      ∃ bytes capture, outcome = .sent bytes ∧ decodeCapture bytes sessionId = .ok capture ∧
        Appendable collection capture ∧ collection' = appended collection capture := by
  have htoOption : ∀ {ε α : Type} {x : Except ε α} {a : α}, x.toOption = some a ↔ x = .ok a := by
    intro ε α x a
    cases x <;> simp [Except.toOption]
  cases outcome with
  | refused => simp [acceptAnswer]
  | outOfBounds => simp [acceptAnswer]
  | sent bytes =>
    rw [acceptAnswer, Option.bind_eq_some_iff]
    simp only [htoOption, appendCudaCapture_eq_ok_iff, WriteOutcome.sent.injEq]
    constructor
    · rintro ⟨capture, hdecode, happend⟩
      exact ⟨bytes, capture, rfl, hdecode, happend⟩
    · rintro ⟨_, capture, rfl, hdecode, happend⟩
      exact ⟨capture, hdecode, happend⟩

/-- In exact mode `append_cuda_capture` accepts an answer just when it comes at the right offset and
    neither capacity nor counters contradict it. -/
theorem appendable_iff {store : CaptureStore} {recordOffset : UInt64} {capture : CuptiCapture}
    (h : AnswerOf store recordOffset capture)
    (hmode : store.captureMode ≠ CaptureMode.aggregate.code) (collection : LiveCollection) :
    Appendable collection capture ↔ recordOffset = collection.cudaRecordOffset ∧
      ∀ accumulated ∈ collection.latestCuda, Unsuspicious accumulated store := by
  have hcontinues : ∀ accumulated,
      Continues accumulated capture ↔ Unsuspicious accumulated store := by
    intro accumulated
    constructor
    · rintro ⟨hcapacity, hobserved, hagent, hcupti, hunknown⟩
      exact ⟨h.capacity ▸ hcapacity, h.observed hmode ▸ hobserved, h.agentDropped ▸ hagent,
        h.cuptiDropped ▸ hcupti, h.unknown ▸ hunknown⟩
    · rintro ⟨hcapacity, hobserved, hagent, hcupti, hunknown⟩
      exact ⟨h.capacity ▸ hcapacity, (h.observed hmode).symm ▸ hobserved,
        h.agentDropped.symm ▸ hagent, h.cuptiDropped.symm ▸ hcupti, h.unknown.symm ▸ hunknown⟩
  constructor
  · intro happend
    refine ⟨h.offset.symm.trans happend.offset, fun accumulated haccumulated => ?_⟩
    exact (hcontinues accumulated).mp (happend.continues accumulated haccumulated)
  · rintro ⟨hoffset, hunsuspicious⟩
    refine ⟨h.offset.trans hoffset, h.fits, fun accumulated haccumulated => ?_⟩
    exact (hcontinues accumulated).mpr (hunsuspicious accumulated haccumulated)

section Exchange

variable {sessionIds : ι → String} {client : ι} {request : ControlRequest}
  {answers : RequestAnswers}

/-- What is delivered was committed in the current epoch. -/
theorem delivered_eq_epoch (hstamped : Stamped system)
    (hcommand : request.command ≠ ControlCommand.arm.code) {stamp : Nat}
    (h : stamp ∈ deliveredStamps system.stamps (runCommand answers request system.agent).store
      request.recordOffset) : stamp = system.epoch := by
  rw [deliveredStamps] at h
  split_ifs at h with hmode
  · cases h
  · rw [(kept_runCommand (not_resets hcommand)).committed] at h
    exact hstamped.eq_epoch (List.mem_of_mem_drop h)

/-- Something is delivered when the agent has committed more than the client has. -/
theorem delivered_ne_nil (hstamped : Stamped system)
    (hcommand : request.command ≠ ControlCommand.arm.code)
    (hmode : (runCommand answers request system.agent).store.captureMode ≠
      CaptureMode.aggregate.code)
    (hbounds : (runCommand answers request system.agent).store.committedRecordCount.toNat ≤
      (runCommand answers request system.agent).store.records.length) :
    deliveredStamps system.stamps (runCommand answers request system.agent).store
        request.recordOffset ≠ [] ↔
      request.recordOffset < (runCommand answers request system.agent).store.committedRecordCount
    := by
  have hkept : Kept system.agent (runCommand answers request system.agent) :=
    kept_runCommand (not_resets hcommand)
  have hlength : system.stamps.length =
      (runCommand answers request system.agent).store.records.length := by
    rw [hkept.records]
    exact hstamped.stamps_length
  rw [deliveredStamps, if_neg hmode, ← List.length_pos_iff, List.length_drop, List.length_take,
    hlength, min_eq_left hbounds, UInt64.lt_iff_toNat_lt]
  omega

/-- The answer of an exchange that is not exposed is accepted. -/
theorem accepted_of_unexposed (hignored : ignored answers request system.agent = false)
    (h : Unexposed sessionIds system client request answers) :
    (acceptAnswer (sessionIds client) (system.clients client).collection
        (serveRequest answers request system.agent).1).isSome = true ∧
      (runCommand answers request system.agent).store.committedRecordCount.toNat ≤
        (runCommand answers request system.agent).store.records.length := by
  obtain ⟨bytes, capture, hsent, hdecode⟩ := h.decodes
  rw [(serveRequest_eq hignored).1] at hsent ⊢
  have hanswer := answerOf_decode (Option.some.inj hsent) hdecode
  have happend := (appendable_iff hanswer h.exact_mode _).mpr ⟨h.offset, h.unsuspicious⟩
  refine ⟨?_, hanswer.in_bounds h.exact_mode⟩
  rw [Option.isSome_iff_exists]
  exact ⟨_, acceptAnswer_eq_some_iff.mpr
    ⟨bytes, capture, Option.some.inj hsent, hdecode, happend, rfl⟩⟩

/-- An accepted answer that delivers a record to a client with an older one was not exposed. -/
theorem unexposed_of_accepted (hstamped : Stamped system)
    (hignored : ignored answers request system.agent = false)
    (hcommand : request.command ≠ ControlCommand.arm.code)
    (haccept : acceptAnswer (sessionIds client) (system.clients client).collection
      (serveRequest answers request system.agent).1 = some collection)
    (hdelivered : deliveredStamps system.stamps
      (runCommand answers request system.agent).store request.recordOffset ≠ [])
    (hstale : ∃ epoch ∈ (system.clients client).epochs, epoch ≠ system.epoch) :
    Unexposed sessionIds system client request answers := by
  have hmode : (runCommand answers request system.agent).store.captureMode ≠
      CaptureMode.aggregate.code := by
    intro hmode
    rw [deliveredStamps, if_pos hmode] at hdelivered
    exact hdelivered rfl
  rw [(serveRequest_eq hignored).1] at haccept
  obtain ⟨bytes, capture, hsent, hdecode, happend, -⟩ := acceptAnswer_eq_some_iff.mp haccept
  have hanswer := answerOf_decode hsent hdecode
  obtain ⟨hoffset, hunsuspicious⟩ := (appendable_iff hanswer hmode _).mp happend
  exact
    { command := hcommand
      decodes := ⟨bytes, capture, by rw [(serveRequest_eq hignored).1, hsent], hdecode⟩
      offset := hoffset
      exact_mode := hmode
      delivers := (delivered_ne_nil hstamped hcommand hmode (hanswer.in_bounds hmode)).mp hdelivered
      unsuspicious := hunsuspicious
      stale := hstale }

variable [DecidableEq ι]

/-- A client whose answer is refused, or never comes, holds what it held. -/
theorem exchange_refused (hignored : ignored answers request system.agent = false)
    (hcommand : request.command ≠ ControlCommand.arm.code)
    (h : acceptAnswer (sessionIds client) (system.clients client).collection
      (serveRequest answers request system.agent).1 = none) :
    (system.exchange sessionIds client request answers).clients client = system.clients client := by
  simp only [System.exchange, hignored, Bool.false_eq_true, if_false, Function.update_self,
    Client.receive, hcommand, h]

/-- A client whose answer is accepted holds the delivered records too. -/
theorem exchange_accepted (hignored : ignored answers request system.agent = false)
    (hcommand : request.command ≠ ControlCommand.arm.code)
    (h : acceptAnswer (sessionIds client) (system.clients client).collection
      (serveRequest answers request system.agent).1 = some collection) :
    (system.exchange sessionIds client request answers).clients client =
      { collection
        epochs := (system.clients client).epochs ++
          deliveredStamps system.stamps (runCommand answers request system.agent).store
            request.recordOffset } := by
  have hresets : ¬ Resets answers request system.agent := not_resets hcommand
  simp only [System.exchange, hignored, Bool.false_eq_true, if_false, Function.update_self,
    Client.receive, hcommand, h, hresets, decide_false]

/-- One exchange mixes epochs exactly when it is not exposed. -/
theorem exchange_uniform_iff (hstamped : Stamped system)
    (huniform : (system.clients client).Uniform) :
    ((system.exchange sessionIds client request answers).clients client).Uniform ↔
      ¬ Unexposed sessionIds system client request answers := by
  cases hignored : ignored answers request system.agent with
  | true =>
    -- nothing is sent
    have hsame : system.exchange sessionIds client request answers = system := by
      rw [System.exchange, hignored, if_pos rfl]
    have hnone : (serveRequest answers request system.agent).1 = none := by
      rw [ignored] at hignored
      rw [serveRequest, hignored, if_pos rfl]
    rw [hsame]
    refine iff_of_true huniform fun h => ?_
    obtain ⟨bytes, capture, hsent, -⟩ := h.decodes
    rw [hnone] at hsent
    cases hsent
  | false =>
    by_cases hcommand : request.command = ControlCommand.arm.code
    · -- a new measurement holds nothing
      refine iff_of_true ?_ fun h => h.command hcommand
      simp only [System.exchange, hignored, Bool.false_eq_true, if_false, Function.update_self,
        Client.receive, hcommand, if_true, Client.Uniform]
      nofun
    cases haccept : acceptAnswer (sessionIds client) (system.clients client).collection
        (serveRequest answers request system.agent).1 with
    | none =>
      rw [exchange_refused hignored hcommand haccept]
      refine iff_of_true huniform fun h => ?_
      have haccepted := (accepted_of_unexposed hignored h).1
      rw [haccept] at haccepted
      cases haccepted
    | some collection =>
      rw [exchange_accepted hignored hcommand haccept]
      constructor
      · -- the delivered records are of the current epoch, one that the client held is not
        intro hall h
        obtain ⟨epoch, hepoch, hne⟩ := h.stale
        have hdelivered := (delivered_ne_nil hstamped hcommand h.exact_mode
          (accepted_of_unexposed hignored h).2).mpr h.delivers
        obtain ⟨stamp, hstamp⟩ := List.exists_mem_of_ne_nil _ hdelivered
        apply hne
        rw [← delivered_eq_epoch hstamped hcommand hstamp]
        exact hall epoch (List.mem_append_left _ hepoch) stamp (List.mem_append_right _ hstamp)
      · intro h
        by_cases hdelivered : deliveredStamps system.stamps
            (runCommand answers request system.agent).store request.recordOffset = []
        · rw [hdelivered, List.append_nil]
          exact huniform
        · have hcurrent : ∀ epoch ∈ (system.clients client).epochs ++
              deliveredStamps system.stamps (runCommand answers request system.agent).store
                request.recordOffset, epoch = system.epoch := by
            intro epoch hepoch
            rcases List.mem_append.mp hepoch with hheld | hnew
            · by_contra hne
              exact h (unexposed_of_accepted hstamped hignored hcommand haccept hdelivered
                ⟨epoch, hheld, hne⟩)
            · exact delivered_eq_epoch hstamped hcommand hnew
          intro epoch hepoch epoch' hepoch'
          exact (hcurrent epoch hepoch).trans (hcurrent epoch' hepoch').symm

end Exchange

variable [DecidableEq ι]

/-- An exchange leaves the other clients alone. -/
theorem exchange_other {sessionIds : ι → String} {client other : ι}
    {request : ControlRequest} {answers : RequestAnswers} (h : other ≠ client) :
    (system.exchange sessionIds client request answers).clients other = system.clients other := by
  rw [System.exchange]
  split_ifs
  · rfl
  · exact Function.update_of_ne h _ _

/-- A step mixes epochs exactly when it is an exchange that is not exposed. -/
theorem step_uniform_iff (hstamped : Stamped system) (sessionIds : ι → String)
    (huniform : ∀ client, (system.clients client).Uniform) (step : Step ι) :
    (∀ client, ((system.step sessionIds step).clients client).Uniform) ↔
      ¬ step.Unexposed sessionIds system := by
  cases step with
  | exchange client request answers =>
    rw [Step.Unexposed, ← exchange_uniform_iff hstamped (huniform client)]
    constructor
    · exact fun h => h client
    · intro h other
      by_cases hother : other = client
      · rw [hother]
        exact h
      · rw [System.step, exchange_other hother]
        exact huniform other
  | record record =>
    refine iff_of_true (fun client => ?_) id
    show ((system.record record).clients client).Uniform
    rw [System.record]
    split_ifs <;> exact huniform client
  | aggregate slots groups full =>
    refine iff_of_true (fun client => ?_) id
    show ((system.aggregate slots groups full).clients client).Uniform
    rw [System.aggregate]
    split_ifs <;> exact huniform client
  | lose agentDropped cuptiDropped unknown => exact iff_of_true huniform id
  | cuptiFault => exact iff_of_true huniform id
  | outputFault => exact iff_of_true huniform id

/-- In a run of any length, of any number of clients, no client ever holds records of two epochs
    exactly when every exchange that could mix them is exposed. -/
theorem clients_uniform_iff (sessionIds : ι → String) (agent : AgentState)
    (steps : List (Step ι)) (hagent : Renewed agent.store) :
    (∀ front back, steps = front ++ back →
        ∀ client, (((System.start agent).run sessionIds front).clients client).Uniform) ↔
      ∀ front step back, steps = front ++ step :: back →
        ¬ step.Unexposed sessionIds ((System.start agent).run sessionIds front) := by
  constructor
  · intro h front step back hsteps
    have hbefore := h front (step :: back) hsteps
    have hafter := h (front ++ [step]) back (by simp [hsteps])
    rw [System.run, List.foldl_append] at hafter
    exact (step_uniform_iff (stamped_run hagent sessionIds front) sessionIds hbefore step).mp hafter
  · intro h front
    -- the steps are taken off at the end, so that the run before the last one is shorter
    induction front using List.reverseRecOn with
    | nil =>
      intro back _ client epoch hepoch
      cases hepoch
    | append_singleton front step ih =>
      intro back hsteps
      have hsplit : steps = front ++ step :: back := by rw [hsteps, List.append_assoc]; rfl
      rw [System.run, List.foldl_append]
      exact (step_uniform_iff (stamped_run hagent sessionIds front) sessionIds
        (ih (step :: back) hsplit) step).mpr (h front step back hsplit)

/-! ## Two clients -/

def kernelStart : Record :=
  { zeroRecord with timestampNs := 5, kind := RecordKind.gpuKernelStart.code, pid := 7, tid := 7 }

def snapshotFrom (recordOffset : UInt64) : ControlRequest :=
  { armKernels .exact 0 with command := ControlCommand.snapshot.code, recordOffset }

/-- The first client takes one record. Then the second client arms the agent with the same capacity,
    two records are committed, and the first client asks again. -/
def takeoverSteps : List (Step Bool) :=
  [.exchange true (armKernels .exact 2) willingEnvironment, .record kernelStart,
    .exchange true (snapshotFrom 0) willingEnvironment,
    .exchange false (armKernels .exact 2) willingEnvironment, .record kernelStart,
    .record kernelStart, .exchange true (snapshotFrom 1) willingEnvironment]

theorem renewed_idleAgent : Renewed idleAgent.store := ⟨rfl, nofun, rfl, fun _ => ⟨rfl, rfl⟩⟩

theorem clients_uniform_iff_takeover : (∀ front back, takeoverSteps = front ++ back → ∀ client,
        (((System.start idleAgent).run (fun _ => "s") front).clients client).Uniform) ↔
      ∀ front step back, takeoverSteps = front ++ step :: back →
        ¬ step.Unexposed (fun _ => "s") ((System.start idleAgent).run (fun _ => "s") front) :=
  clients_uniform_iff (fun _ => "s") idleAgent takeoverSteps renewed_idleAgent

/-- The first client ends with a record of the first epoch and one of the second. -/
theorem takeover_mixed :
    ¬ (((System.start idleAgent).run (fun _ => "s") takeoverSteps).clients true).Uniform := by
  intro h
  have hepochs : (((System.start idleAgent).run (fun _ => "s") takeoverSteps).clients true).epochs =
      [1, 2] := by decide +kernel
  rw [Client.Uniform, hepochs] at h
  exact absurd (h 1 (by decide) 2 (by decide)) (by decide)

end Xprobe.Cli
