import Xprobe.Correlator.KernelPairs
import Xprobe.Cli.Epochs

/-!
# The clock of an accumulated capture

With every answer the agent decides anew whether the activity times of all records so far are host
times, and it says so in the feature flags. The collector applies the flags to the records of that
answer only. An accumulated capture therefore has one clock exactly when the decision was the same
for every answer that brought activities.
-/

namespace Xprobe.Cli

open Foundation Protocol Cupti
open Correlator (EventRef Selector commonClockDomain commonClockDomain_of_same selectEvents
  mem_selectEvents mem_eventRefs measure fullOptions)

/-! ## Answers -/

/-- An answer to SNAPSHOT or STOP: the offset that was asked for, the environment, and the agent
    when it writes. -/
structure Answer where
  recordOffset : UInt64
  answers : RequestAnswers
  state : AgentState

def Answer.delta (answer : Answer) : List Record :=
  if answer.state.store.captureMode = CaptureMode.aggregate.code then []
  else answer.state.store.delta answer.recordOffset

def Answer.hasActivity (answer : Answer) : Prop :=
  ∃ record ∈ answer.delta, record.isActivity = true

/-- The agent takes the activity times for host times. -/
def Answer.aligned (answer : Answer) : Bool :=
  answer.answers.captureEndTimestampNs.any (fun endNs =>
    activityTimestampsAreHostMonotonic
      (answer.state.store.records.take answer.state.store.committedRecordCount.toNat)
      answer.state.control.captureStartTimestampNs endNs)

def Answer.clock (answer : Answer) : ClockDomain :=
  if answer.aligned then .cuptiNormalizedToHostMonotonic else .cupti

def collectAnswer (sessionId : String) (collection : LiveCollection) (answer : Answer) :
    Option LiveCollection :=
  acceptAnswer sessionId collection
    (some (writeCapture answer.answers answer.state answer.recordOffset).1)

def collectAnswers (sessionId : String) (collection : LiveCollection) (answers : List Answer) :
    Option LiveCollection :=
  answers.foldlM (collectAnswer sessionId) collection

/-! ## One answer -/

theorem featureFlagsOf_clock {answer : Answer}
    (hmode : answer.state.store.captureMode ≠ CaptureMode.aggregate.code) :
    captureClock (featureFlagsOf answer.answers answer.state.store answer.state.control).1 =
      answer.clock := by
  have hbase : ∀ nvtx : Bool, captureClock (featureTransferRecords |||
      (if nvtx then featureNvtxRecords else 0)) = .cupti := by decide
  have haligned : ∀ nvtx : Bool, captureClock (featureTransferRecords |||
      (if nvtx then featureNvtxRecords else 0) ||| featureHostMonotonicTimestamps) =
        .cuptiNormalizedToHostMonotonic := by decide
  rw [featureFlagsOf, if_neg hmode, Answer.clock, Answer.aligned]
  cases answer.answers.captureEndTimestampNs with
  | none => exact hbase _
  | some endNs =>
    simp only [Option.any_some]
    by_cases hmonotonic : activityTimestampsAreHostMonotonic
        (answer.state.store.records.take answer.state.store.committedRecordCount.toNat)
        answer.state.control.captureStartTimestampNs endNs = true
    · rw [if_pos hmonotonic, if_pos hmonotonic]
      exact haligned _
    · rw [if_neg hmonotonic, if_neg hmonotonic]
      exact hbase _

structure Adds (answer : Answer) (events : List Event) : Prop where
  activity : (∃ event ∈ events, isActivityEvent event = true) ↔ answer.hasActivity
  clock : ∀ event ∈ events, isActivityEvent event = true → event.clockDomain = answer.clock

theorem adds_of_collectAnswer {sessionId : String} {collection collection' : LiveCollection}
    {answer : Answer} (h : collectAnswer sessionId collection answer = some collection') :
    ∃ events, collection'.events = collection.events ++ events ∧ Adds answer events := by
  obtain ⟨bytes, capture, hsent, hdecode, -, rfl⟩ := acceptAnswer_eq_some_iff.mp h
  refine ⟨capture.events, events_appended collection capture, ?_⟩
  by_cases hmode : answer.state.store.captureMode = CaptureMode.aggregate.code
  · -- groups, and no events
    have hnone := (answerOf_decode hsent hdecode).no_events hmode
    rw [hnone]
    refine ⟨?_, fun event hevent => absurd hevent List.not_mem_nil⟩
    simp [Answer.hasActivity, Answer.delta, hmode]
  · obtain ⟨-, payload, rfl, hpayload⟩ := writeCapture_eq_sent hsent
    obtain ⟨-, rfl⟩ := hpayload hmode
    obtain ⟨hactivity, hclock⟩ :=
      activities_of_decode_encodeCapture (featureFlagsOf_exact hmode) hdecode
    have hcontrol : (observedRecordsOf answer.state.store answer.state.control).2 =
        answer.state.control := by
      rw [observedRecordsOf, if_neg hmode]
    refine ⟨?_, ?_⟩
    · rw [hactivity, Answer.hasActivity, Answer.delta, if_neg hmode]
      rfl
    · intro event hevent hisActivity
      rw [hclock event hevent hisActivity, ← featureFlagsOf_clock hmode]
      show captureClock (featureFlagsOf answer.answers answer.state.store
        (observedRecordsOf answer.state.store answer.state.control).2).1 = _
      rw [hcontrol]

/-! ## Any number of answers -/

/-- Every activity event comes from an answer with activities, and the other way round. -/
structure AddsAll (answers : List Answer) (events : List Event) : Prop where
  origin : ∀ event ∈ events, isActivityEvent event = true →
    ∃ answer ∈ answers, answer.hasActivity ∧ event.clockDomain = answer.clock
  image : ∀ answer ∈ answers, answer.hasActivity →
    ∃ event ∈ events, isActivityEvent event = true ∧ event.clockDomain = answer.clock

theorem AddsAll.cons {answer : Answer} {answers : List Answer} {events more : List Event}
    (hfirst : Adds answer events) (hrest : AddsAll answers more) :
    AddsAll (answer :: answers) (events ++ more) := by
  refine ⟨?_, ?_⟩
  · intro event hevent hactivity
    rcases List.mem_append.mp hevent with hmem | hmem
    · exact ⟨answer, List.mem_cons_self, hfirst.activity.mp ⟨event, hmem, hactivity⟩,
        hfirst.clock event hmem hactivity⟩
    · obtain ⟨answer', hanswer', hfacts⟩ := hrest.origin event hmem hactivity
      exact ⟨answer', List.mem_cons_of_mem _ hanswer', hfacts⟩
  · intro answer' hanswer' hactivity
    rcases List.mem_cons.mp hanswer' with rfl | hmem
    · obtain ⟨event, hevent, hisActivity⟩ := hfirst.activity.mpr hactivity
      exact ⟨event, List.mem_append_left _ hevent, hisActivity,
        hfirst.clock event hevent hisActivity⟩
    · obtain ⟨event, hevent, hfacts⟩ := hrest.image answer' hmem hactivity
      exact ⟨event, List.mem_append_right _ hevent, hfacts⟩

theorem addsAll_of_collectAnswers {sessionId : String} {answers : List Answer}
    {collection collection' : LiveCollection}
    (h : collectAnswers sessionId collection answers = some collection') :
    ∃ events, collection'.events = collection.events ++ events ∧ AddsAll answers events := by
  -- the collection grows along, so it is general in the induction
  induction answers generalizing collection with
  | nil =>
    cases h
    refine ⟨[], (List.append_nil _).symm, ?_, ?_⟩
    · exact fun event hevent => absurd hevent List.not_mem_nil
    · exact fun answer hanswer => absurd hanswer List.not_mem_nil
  | cons answer rest ih =>
    obtain ⟨next, hnext, hrest⟩ := Option.bind_eq_some_iff.mp
      ((List.foldlM_cons).symm.trans h)
    obtain ⟨events, hevents, hadds⟩ := adds_of_collectAnswer hnext
    obtain ⟨more, hmore, haddsAll⟩ := ih hrest
    exact ⟨events ++ more, by rw [hmore, hevents, List.append_assoc], AddsAll.cons hadds haddsAll⟩

/-! ## One clock -/

/-- All GPU activities have the same clock. -/
def OneClock (events : List Event) : Prop :=
  ∀ event ∈ events, ∀ event' ∈ events, isActivityEvent event = true →
    isActivityEvent event' = true → event.clockDomain = event'.clockDomain

theorem clock_inj {answer answer' : Answer} :
    answer.clock = answer'.clock ↔ answer.aligned = answer'.aligned := by
  rw [Answer.clock, Answer.clock]
  cases answer.aligned <;> cases answer'.aligned <;> decide

/-- The activities of an accumulated capture have one clock exactly when the agent took the times
    for host times in all answers that brought activities, or in none of them. -/
theorem oneClock_iff (sessionId : String) (answers : List Answer) (collection : LiveCollection)
    (h : collectAnswers sessionId .armed answers = some collection) :
    OneClock collection.events ↔
      ∀ answer ∈ answers, ∀ answer' ∈ answers, answer.hasActivity → answer'.hasActivity →
        answer.aligned = answer'.aligned := by
  obtain ⟨events, hevents, hadds⟩ := addsAll_of_collectAnswers h
  have hall : collection.events = events := hevents
  rw [hall]
  constructor
  · intro hone answer hanswer answer' hanswer' hactivity hactivity'
    obtain ⟨event, hevent, hisActivity, hclock⟩ := hadds.image answer hanswer hactivity
    obtain ⟨event', hevent', hisActivity', hclock'⟩ := hadds.image answer' hanswer' hactivity'
    apply clock_inj.mp
    rw [← hclock, ← hclock']
    exact hone event hevent event' hevent' hisActivity hisActivity'
  · intro hsame event hevent event' hevent' hisActivity hisActivity'
    obtain ⟨answer, hanswer, hactivity, hclock⟩ := hadds.origin event hevent hisActivity
    obtain ⟨answer', hanswer', hactivity', hclock'⟩ := hadds.origin event' hevent' hisActivity'
    rw [hclock, hclock']
    exact clock_inj.mpr (hsame answer hanswer answer' hanswer' hactivity hactivity')

/-- Activities of one clock are never refused because their clocks differ. -/
theorem OneClock.commonClockDomain_ne_differ {events : List Event} (hone : OneClock events)
    {startSelector endSelector : Selector}
    (hselectors : ∀ event ∈ events, startSelector.matchesEvent event = true ∨
      endSelector.matchesEvent event = true → isActivityEvent event = true)
    (first second : ClockDomain) :
    commonClockDomain (selectEvents startSelector events) (selectEvents endSelector events) ≠
      .error (.clockDomainsDiffer first second) := by
  have hactivity : ∀ ref ∈ selectEvents startSelector events ++ selectEvents endSelector events,
      ref.event ∈ events ∧ isActivityEvent ref.event = true := by
    intro ref href
    rw [List.mem_append, mem_selectEvents, mem_selectEvents, ← and_or_left] at href
    have hmem := List.mem_of_getElem? (mem_eventRefs href.1)
    exact ⟨hmem, hselectors _ hmem href.2⟩
  cases hrefs : selectEvents startSelector events ++ selectEvents endSelector events with
  | nil => simp [commonClockDomain, hrefs]
  | cons ref rest =>
    -- the clock of the first event is the clock of all
    have hmem := hrefs ▸ List.mem_cons_self
    obtain ⟨common, hcommon⟩ := commonClockDomain_of_same
      (fun other hother => hone _ (hactivity other hother).1 _ (hactivity ref hmem).1
        (hactivity other hother).2 (hactivity ref hmem).2)
      (List.ne_nil_of_mem hmem)
    simp [hcommon]

/-! ## A record that is out of place -/

/-- Answers from one array of records that grows, while the clock goes on. -/
structure TakenFrom (records : List Record) (startNs : UInt64) (answers : List Answer) : Prop where
  exact_mode : ∀ answer ∈ answers, answer.state.store.captureMode = CaptureMode.exact.code
  start : ∀ answer ∈ answers, answer.state.control.captureStartTimestampNs = startNs
  same_records : ∀ answer ∈ answers,
    answer.state.store.records.take answer.state.store.committedRecordCount.toNat =
      records.take answer.state.store.committedRecordCount.toNat
  grows : answers.IsChain (fun earlier later =>
    earlier.state.store.committedRecordCount ≤ later.state.store.committedRecordCount)
  clock : answers.IsChain (fun earlier later =>
    ∀ time ∈ earlier.answers.captureEndTimestampNs,
      ∀ time' ∈ later.answers.captureEndTimestampNs, time ≤ time')

def kernelStartAt (timestampNs : UInt64) : Record := { kernelStart with timestampNs }

/-- An agent that started to capture at 10 s, and has committed records. -/
def agentAfter (records : List Record) : AgentState :=
  records.foldl enqueueRecord
    { exactAgent with control := { exactAgent.control with captureStartTimestampNs := 10000000000 } }

/-- The first answer brings a kernel at 10 s, the second one a kernel at 5 ns. -/
def strayAnswers : List Answer :=
  [{ recordOffset := 0
     answers := { willingEnvironment with captureEndTimestampNs := some 11000000000 }
     state := agentAfter [kernelStartAt 10000000000] },
    { recordOffset := 1
      answers := { willingEnvironment with captureEndTimestampNs := some 12000000000 }
      state := agentAfter [kernelStartAt 10000000000, kernelStartAt 5] }]

/-- The two clocks that a measurement of kernel durations complains about. -/
def clockError (events : List Event) : Option (ClockDomain × ClockDomain) :=
  match measure (fun _ => .error "") events (fullOptions events) with
  | some (.error (.clockDomainsDiffer first second)) => some (first, second)
  | _ => none

theorem strayAnswers_takenFrom :
    TakenFrom [kernelStartAt 10000000000, kernelStartAt 5] 10000000000 strayAnswers := by
  have hall : ∀ {p : Answer → Prop}, p strayAnswers[0] → p strayAnswers[1] →
      ∀ answer ∈ strayAnswers, p answer := by
    intro p hfirst hsecond answer hanswer
    rcases List.mem_pair.mp hanswer with rfl | rfl
    · exact hfirst
    · exact hsecond
  refine ⟨hall rfl rfl, hall rfl rfl, hall rfl rfl, ?_, ?_⟩
  · exact .cons_cons (by decide) (.singleton _)
  · refine .cons_cons ?_ (.singleton _)
    rintro _ ⟨⟩ _ ⟨⟩
    decide

/-- The first answer alone has one clock. -/
theorem oneClock_first :
    ∃ collection, collectAnswers "s" .armed (strayAnswers.take 1) = some collection ∧
      OneClock collection.events := by
  have hsome : (collectAnswers "s" .armed (strayAnswers.take 1)).isSome = true := by decide +kernel
  obtain ⟨collection, hcollection⟩ := Option.isSome_iff_exists.mp hsome
  refine ⟨collection, hcollection,
    (oneClock_iff "s" (strayAnswers.take 1) collection hcollection).mpr ?_⟩
  intro answer hanswer answer' hanswer' _ _
  rw [List.mem_singleton.mp hanswer, List.mem_singleton.mp hanswer']

/-- With the second answer the capture has two clocks, and measuring it fails. -/
theorem strayAnswers_two_clocks :
    TakenFrom [kernelStartAt 10000000000, kernelStartAt 5] 10000000000 strayAnswers ∧
    ∃ collection, collectAnswers "s" .armed strayAnswers = some collection ∧
      ¬ OneClock collection.events ∧
      clockError collection.events = some (.cupti, .cuptiNormalizedToHostMonotonic) := by
  have hview : (collectAnswers "s" .armed strayAnswers).map (fun collection =>
      (collection.events.map (fun event => (isActivityEvent event, event.clockDomain)),
        clockError collection.events)) =
      some ([(true, .cuptiNormalizedToHostMonotonic), (true, .cupti)],
        some (.cupti, .cuptiNormalizedToHostMonotonic)) := by
    decide +kernel
  obtain ⟨collection, hcollection, hboth⟩ := Option.map_eq_some_iff.mp hview
  obtain ⟨hclocks, herror⟩ := Prod.mk.inj hboth
  refine ⟨strayAnswers_takenFrom, collection, hcollection, fun hone => ?_, herror⟩
  obtain ⟨first, rest, hevents, hfirst, hrest⟩ := List.map_eq_cons_iff.mp hclocks
  obtain ⟨second, rest', hrest', hsecond, -⟩ := List.map_eq_cons_iff.mp hrest
  obtain ⟨hactivity, hclock⟩ := Prod.mk.inj hfirst
  obtain ⟨hactivity', hclock'⟩ := Prod.mk.inj hsecond
  have hsame := hone first (by rw [hevents]; exact List.mem_cons_self) second
    (by rw [hevents, hrest']; exact List.mem_cons_of_mem _ List.mem_cons_self) hactivity hactivity'
  rw [hclock, hclock'] at hsame
  cases hsame

end Xprobe.Cli
