import Xprobe.Cli.Epochs

/-!
# No record is lost or delivered twice

What a client holds after its ARM request, while records are committed or lost, faults occur and
other clients read from the same agent. As long as nobody arms the agent again, the events that the
client accumulated are the first records of the capture, up to the offset of its next request:
each of them once, and no others.

An answer that is accepted starts where the last one ended, and the decoder checks that it ends
within the records that were stored, so no later record overwrites what was delivered.
-/

namespace Xprobe.Cli

open Foundation Protocol Cupti

/-! ## What an answer shows -/

def ShowAll (sessionId : String) (records : List Record) (events : List Event) : Prop :=
  ∃ order, order.Perm records ∧
    List.Forall₂ (fun record event => ∃ flags, Shows sessionId flags record event) order events

variable {sessionId : String} {capture : CuptiCapture}

theorem ShowAll.append {records records' : List Record} {events events' : List Event}
    (h : ShowAll sessionId records events) (h' : ShowAll sessionId records' events') :
    ShowAll sessionId (records ++ records') (events ++ events') := by
  obtain ⟨order, hperm, hshows⟩ := h
  obtain ⟨order', hperm', hshows'⟩ := h'
  exact ⟨order ++ order', hperm.append hperm', List.rel_append hshows hshows'⟩

/-- An accepted capture in exact mode shows its records. -/
theorem showAll_of_decode {header : OutputHeader} {records : List Record}
    (hmode : hasFeature header.featureFlags featureAggregateRecords = false)
    (h : decodeCapture (encodeCapture header records) sessionId = .ok capture) :
    ShowAll sessionId records capture.events := by
  obtain ⟨order, hperm, hshows⟩ := shows_of_decode_encodeCapture hmode h
  exact ⟨order, hperm, hshows.imp fun _ _ hshown => ⟨_, hshown⟩⟩

/-! ## What a client holds -/

/-- The events of the collection show the records in front of its offset, and nothing is missing
    there. -/
structure HoldsPrefix (sessionId : String) (agent : AgentState) (collection : LiveCollection) :
    Prop where
  shows_all : ShowAll sessionId
    (agent.store.records.take collection.cudaRecordOffset.toNat) collection.events
  in_bounds : collection.cudaRecordOffset.toNat ≤ agent.store.records.length
  stored : agent.control.captureState = .active →
    collection.cudaRecordOffset.toNat ≤ agent.store.recordCount.toNat

variable {agent agent' : AgentState} {collection : LiveCollection}

theorem holdsPrefix_armed (sessionId : String) (agent : AgentState) :
    HoldsPrefix sessionId agent .armed :=
  ⟨⟨[], .nil, .nil⟩, Nat.zero_le _, fun _ => Nat.zero_le _⟩

theorem HoldsPrefix.of_kept (h : HoldsPrefix sessionId agent collection) (hkept : Kept agent agent')
    (hcount : agent'.store.recordCount = agent.store.recordCount) :
    HoldsPrefix sessionId agent' collection where
  shows_all := by rw [hkept.records]; exact h.shows_all
  in_bounds := by rw [hkept.records]; exact h.in_bounds
  stored hactive := by rw [hcount]; exact h.stored (hkept.active hactive).1

/-- A record that is stored does not overwrite what the client holds. -/
theorem HoldsPrefix.enqueueRecord (h : HoldsPrefix sessionId agent collection) (record : Record) :
    HoldsPrefix sessionId (enqueueRecord agent record) collection := by
  rw [enqueueRecord_eq]
  split_ifs with hstores hrefuses
  · obtain ⟨hactive, -, hroom⟩ := storesRecord_eq_true.mp hstores
    refine ⟨?_, ?_, fun _ => ?_⟩
    · show ShowAll sessionId ((agent.store.records.set _ record).take _) _
      rw [List.take_set_of_le (h.stored hactive)]
      exact h.shows_all
    · show _ ≤ (agent.store.records.set _ record).length
      rw [List.length_set]
      exact h.in_bounds
    · have hlt := UInt64.lt_iff_toNat_lt.mp hroom
      have hbound := agent.store.recordCapacity.toNat_lt
      have hstored := h.stored hactive
      have hone : (1 : UInt64).toNat = 1 := rfl
      show _ ≤ (agent.store.recordCount + 1).toNat
      rw [UInt64.toNat_add, hone, Nat.mod_eq_of_lt (by omega)]
      omega
  · exact ⟨h.shows_all, h.in_bounds, fun hactive => absurd hactive (by simp [AgentState.refuse])⟩
  · exact h

/-- An accepted answer starts where the collection ends, and shows everything that is committed. -/
theorem HoldsPrefix.append {answers : RequestAnswers} {bytes : List UInt8}
    (h : HoldsPrefix sessionId agent collection)
    (hsent : (writeCapture answers agent collection.cudaRecordOffset).1 = .sent bytes)
    (hdecode : decodeCapture bytes sessionId = .ok capture)
    (happend : Appendable collection capture) :
    HoldsPrefix sessionId agent (appended collection capture) := by
  have hanswer := answerOf_decode hsent hdecode
  have hevents : (appended collection capture).events = collection.events ++ capture.events :=
    events_appended collection capture
  have hoffset := appended_offset_toNat happend
  by_cases hmode : agent.store.captureMode = CaptureMode.aggregate.code
  · -- groups are no events
    rw [hanswer.no_events hmode, List.length_nil, Nat.add_zero] at hoffset
    rw [hanswer.no_events hmode, List.append_nil] at hevents
    refine ⟨?_, ?_, fun hactive => ?_⟩
    · rw [hevents, hoffset]
      exact h.shows_all
    · rw [hoffset]
      exact h.in_bounds
    · rw [hoffset]
      exact h.stored hactive
  obtain ⟨hle, payload, rfl, hpayload⟩ := writeCapture_eq_sent hsent
  obtain ⟨hbounds, rfl⟩ := hpayload hmode
  have hle := UInt64.le_iff_toNat_le.mp hle
  have hnext : (appended collection capture).cudaRecordOffset.toNat =
      agent.store.committedRecordCount.toNat := by
    rw [hoffset, hanswer.events hmode, CaptureStore.delta, List.length_drop, List.length_take,
      min_eq_left hbounds]
    omega
  refine ⟨?_, hnext.trans_le hbounds, fun _ => ?_⟩
  · have hshown := h.shows_all.append (showAll_of_decode (featureFlagsOf_exact hmode) hdecode)
    rw [hevents, hnext]
    have hsplit := List.take_append_drop collection.cudaRecordOffset.toNat
      (agent.store.records.take agent.store.committedRecordCount.toNat)
    rw [List.take_take, min_eq_left hle] at hsplit
    rw [← hsplit]
    exact hshown
  · -- the decoder has compared the end of the answer with the number of records
    have hcounted := recordOffset_add_length_le hdecode
    rw [hanswer.observed hmode, happend.offset] at hcounted
    rw [hoffset]
    exact hcounted

variable {ι : Type} {sessionIds : ι → String} {system : System ι} {client : ι}

/-- The client holds the first records of the agent. -/
def System.Delivers (sessionIds : ι → String) (system : System ι) (client : ι) : Prop :=
  HoldsPrefix (sessionIds client) system.agent (system.clients client).collection

variable [DecidableEq ι]

theorem delivers_exchange {other : ι} {request : ControlRequest} {answers : RequestAnswers}
    (hcommand : request.command ≠ ControlCommand.arm.code)
    (h : system.Delivers sessionIds client) :
    (system.exchange sessionIds other request answers).Delivers sessionIds client := by
  cases hignored : ignored answers request system.agent with
  | true =>
    rw [System.exchange, hignored, if_pos rfl]
    exact h
  | false =>
    obtain ⟨houtcome, hstore, hserved⟩ := serveRequest_eq hignored
    have hdown := windsDown_runCommand hcommand answers system.agent
    obtain ⟨dropped, hrun⟩ := hdown.store
    have hagent : (system.exchange sessionIds other request answers).agent =
        (serveRequest answers request system.agent).2 := by
      rw [System.exchange, hignored, if_neg Bool.false_ne_true]
    rw [System.Delivers, hagent]
    -- the answer is written from the state behind the command
    refine HoldsPrefix.of_kept ?_ hserved (by rw [hstore])
    have hheld := HoldsPrefix.of_kept h hdown.kept (by rw [hrun])
    by_cases hother : client = other
    swap
    · rw [exchange_other hother]
      exact hheld
    subst hother
    cases haccept : acceptAnswer (sessionIds client) (system.clients client).collection
        (serveRequest answers request system.agent).1 with
    | none =>
      rw [exchange_refused hignored hcommand haccept]
      exact hheld
    | some collection =>
      rw [exchange_accepted hignored hcommand haccept]
      rw [houtcome] at haccept
      obtain ⟨bytes, capture, hsent, hdecode, happend, rfl⟩ := acceptAnswer_eq_some_iff.mp haccept
      have hoffset := (answerOf_decode hsent hdecode).offset.symm.trans happend.offset
      rw [hoffset] at hsent
      exact hheld.append hsent hdecode happend

def Step.Arms : Step ι → Prop
  | .exchange _ request _ => request.command = ControlCommand.arm.code
  | _ => False

theorem delivers_step {step : Step ι} (hstep : ¬ step.Arms)
    (h : system.Delivers sessionIds client) :
    (system.step sessionIds step).Delivers sessionIds client := by
  cases step with
  | record record =>
    dsimp only [System.step, System.record]
    split
    · exact h
    · exact HoldsPrefix.enqueueRecord h record
  | lose agentDropped cuptiDropped unknown => exact ⟨h.shows_all, h.in_bounds, h.stored⟩
  | cuptiFault =>
    exact HoldsPrefix.of_kept h (kept_of_control (notRevived_rememberCuptiError _ _)) rfl
  | outputFault =>
    exact HoldsPrefix.of_kept h (kept_of_control (notRevived_rememberOutputError _ _)) rfl
  | aggregate slots groups full =>
    dsimp only [System.step, System.aggregate]
    split
    next hcapture => exact ⟨h.shows_all, h.in_bounds, fun _ => h.stored hcapture.1⟩
    next => exact h
  | exchange other request answers => exact delivers_exchange hstep h

/-- After its ARM request, and as long as nobody arms the agent again, a client holds the first
    records of the capture, each of them once, whatever else happens. -/
theorem run_delivers_once (sessionIds : ι → String) (system : System ι) (client : ι)
    (request : ControlRequest) (answers : RequestAnswers) (steps : List (Step ι))
    (harm : request.command = ControlCommand.arm.code)
    (hserved : ignored answers request system.agent = false)
    (hsteps : ∀ step ∈ steps, ¬ step.Arms) :
    ((system.exchange sessionIds client request answers).run sessionIds steps).Delivers
      sessionIds client := by
  have hrun : ∀ system : System ι, system.Delivers sessionIds client →
      (system.run sessionIds steps).Delivers sessionIds client := by
    induction steps with
    | nil => exact fun _ h => h
    | cons step rest ih =>
      intro system h
      exact ih (fun later hlater => hsteps later (List.mem_cons_of_mem _ hlater)) _
        (delivers_step (hsteps step List.mem_cons_self) h)
  refine hrun _ ?_
  -- a new measurement holds nothing
  have hclient : ((system.exchange sessionIds client request answers).clients client).collection =
      .armed := by
    simp only [System.exchange, hserved, Bool.false_eq_true, if_false, Function.update_self,
      Client.receive, harm, if_true]
  rw [System.Delivers, hclient]
  exact holdsPrefix_armed _ _

/-- Another client reads in between; the first one holds one record of two. -/
theorem run_delivers_once_reader :
    let later := ((System.start idleAgent).exchange (fun _ : Bool => "s") true
      (armKernels .exact 2) willingEnvironment).run (fun _ => "s")
        [.record kernelStart, .exchange true (snapshotFrom 0) willingEnvironment,
          .record kernelStart, .exchange false (snapshotFrom 0) willingEnvironment]
    later.Delivers (fun _ => "s") true ∧
      (later.clients true).collection.cudaRecordOffset = 1 :=
  ⟨run_delivers_once (fun _ : Bool => "s") (System.start idleAgent) true (armKernels .exact 2)
    willingEnvironment _ rfl (by decide +kernel)
    (by simp [Step.Arms, snapshotFrom, ControlCommand.code]), by decide +kernel⟩

end Xprobe.Cli
