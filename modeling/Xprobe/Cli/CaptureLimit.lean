import Xprobe.Correlator.Alternating
import Xprobe.Correlator.Soundness

/-!
# How many events a capture of system calls keeps

`linux_capture_event_limit` of `xprobe/cli/src/main.rs`: a capture for a number of samples stops
after that many events for each endpoint and one more. The one more makes up for a thread that is
inside a call when the capture starts, and for one that is inside when it stops. With more such
threads the capture stops before it has the samples.
-/

namespace Xprobe.Cli

open Foundation Protocol Correlator

/-- `usize::checked_mul` and `usize::checked_add`. -/
def checkedUsize (value : Nat) : Option Nat := if value ≤ usizeMax then some value else none

/-- `linux_capture_event_limit`. -/
def linuxCaptureEventLimit (options : MeasureOptions) (endpointCount : Nat) : Nat :=
  let events := options.samples.bind (fun samples =>
    (checkedUsize (samples * endpointCount)).bind (fun events =>
      checkedUsize (events + endpointCount)))
  min (events.getD options.maxEvents) options.maxEvents

/-! ## Calls of the threads of a process -/

def ofThread (tid : UInt32) (events : List Event) : List Event :=
  events.filter (fun event => event.tid = tid)

/-- Entries and exits of a system call by the threads of one process. On each thread they alternate,
    and their times increase. -/
structure AlternatingCalls (name : String) (events : List Event) : Prop where
  calls : ∀ event ∈ events, (Selector.syscall .syscallEntry name).matchesEvent event = true ∨
    (Selector.syscall .syscallExit name).matchesEvent event = true
  process : ∀ event ∈ events, ∀ event' ∈ events,
    event.pid = event'.pid ∧ event.processStartTime = event'.processStartTime
  alternate : ∀ tid, (ofThread tid events).IsChain
    (fun event event' => event.eventType ≠ event'.eventType ∧ event.timestampNs < event'.timestampNs)

variable {events : List Event}

theorem AlternatingCalls.exists_process {name : String} (h : AlternatingCalls name events) :
    ∃ pid processStartTime, ∀ event ∈ events,
      event.pid = pid ∧ event.processStartTime = processStartTime := by
  cases events with
  | nil => exact ⟨0, none, fun _ hevent => absurd hevent List.not_mem_nil⟩
  | cons first rest =>
    exact ⟨_, _, fun event hevent => h.process event hevent first List.mem_cons_self⟩

/-- The threads that were inside the call when the capture started: their first event is an exit. -/
def insideAtStart (events : List Event) : Finset UInt32 :=
  (events.map Event.tid).toFinset.filter
    (fun tid => (ofThread tid events).head?.any (·.eventType == .syscallExit))

/-- The threads that were inside the call when the capture stopped: their last event is an entry. -/
def insideAtStop (events : List Event) : Finset UInt32 :=
  (events.map Event.tid).toFinset.filter
    (fun tid => (ofThread tid events).getLast?.any (·.eventType == .syscallEntry))

variable {tid : UInt32} {event : Event}

private theorem mem_tids_of_any {found : Option Event} {p : Event → Bool}
    (hfound : ∀ event, found = some event → event ∈ ofThread tid events) (h : found.any p = true) :
    tid ∈ (events.map Event.tid).toFinset := by
  obtain ⟨event, hevent, -⟩ := (Option.any_eq_true _ _).mp h
  obtain ⟨hmem, htid⟩ := List.mem_filter.mp (hfound event hevent)
  rw [List.mem_toFinset, ← of_decide_eq_true htid]
  exact List.mem_map_of_mem hmem

theorem mem_insideAtStart_iff : tid ∈ insideAtStart events ↔
      (ofThread tid events).head?.any (·.eventType == .syscallExit) = true := by
  rw [insideAtStart, Finset.mem_filter, and_iff_right_iff_imp]
  exact mem_tids_of_any fun _ => List.mem_of_head?

theorem mem_insideAtStop_iff : tid ∈ insideAtStop events ↔
      (ofThread tid events).getLast?.any (·.eventType == .syscallEntry) = true := by
  rw [insideAtStop, Finset.mem_filter, and_iff_right_iff_imp]
  exact mem_tids_of_any fun _ => List.mem_of_getLast?

/-! ## The timeline of the calls -/

def callEntry (ref : EventRef) : TimelineEntry := ⟨ref.event.eventType == .syscallExit, ref⟩

section Timeline

variable {name : String} {events : List Event}

private theorem matchesEvent_syscall {eventType : EventType}
    (h : (Selector.syscall eventType name).matchesEvent event = true) :
    event.eventType = eventType := by
  simp only [Selector.matchesEvent, Bool.and_eq_true, beq_iff_eq] at h
  exact h.1

private theorem eventType_of_calls (h : AlternatingCalls name events) (hevent : event ∈ events) :
    event.eventType = .syscallEntry ∨ event.eventType = .syscallExit :=
  (h.calls event hevent).imp matchesEvent_syscall matchesEvent_syscall

/-- An event is an exit of the call exactly when it is no entry. -/
private theorem matches_exit_eq (h : AlternatingCalls name events) (hevent : event ∈ events) :
    (Selector.syscall .syscallExit name).matchesEvent event =
      !(Selector.syscall .syscallEntry name).matchesEvent event := by
  cases hentry : (Selector.syscall .syscallEntry name).matchesEvent event with
  | true =>
    by_contra hexit
    have := matchesEvent_syscall hentry
    rw [matchesEvent_syscall (Bool.not_eq_false _ ▸ hexit)] at this
    cases this
  | false => simpa [hentry] using h.calls event hevent

theorem timelineEntries_calls_perm (h : AlternatingCalls name events) :
    (timelineEntries (selectEvents (.syscall .syscallEntry name) events)
      (selectEvents (.syscall .syscallExit name) events)).Perm
      ((eventRefs events).map callEntry) := by
  have hmem : ∀ ref ∈ eventRefs events, ref.event ∈ events := fun ref href =>
    List.mem_of_getElem? (mem_eventRefs href)
  have hexits : (eventRefs events).filter
      (fun ref => (Selector.syscall .syscallExit name).matchesEvent ref.event) =
      (eventRefs events).filter
        (fun ref => !(Selector.syscall .syscallEntry name).matchesEvent ref.event) :=
    List.filter_congr fun ref href => matches_exit_eq h (hmem ref href)
  have hside : ∀ eventType isEnd, (eventType == .syscallExit) = isEnd → ((eventRefs events).filter
      (fun ref => (Selector.syscall eventType name).matchesEvent ref.event)).map
        (TimelineEntry.mk isEnd ·) =
      ((eventRefs events).filter
        (fun ref => (Selector.syscall eventType name).matchesEvent ref.event)).map callEntry := by
    intro eventType isEnd hisEnd
    apply List.map_congr_left
    intro ref href
    rw [callEntry, matchesEvent_syscall (List.mem_filter.mp href).2, hisEnd]
  refine (((sortByKey_perm _ _).map _).append ((sortByKey_perm _ _).map _)).trans ?_
  rw [hside .syscallEntry false rfl, hside .syscallExit true rfl, hexits, ← List.map_append]
  exact (List.filter_append_perm _ _).map _

def threadOf (pid : UInt32) (processStartTime : Option UInt64) (tid : UInt32) : ThreadKey :=
  toLex (pid, toLex (tid, (processStartTime : WithBot UInt64)))

theorem threadOf_injective (pid : UInt32) (processStartTime : Option UInt64) :
    Function.Injective (threadOf pid processStartTime) := by
  intro tid tid' h
  simp only [threadOf, EmbeddingLike.apply_eq_iff_eq, Prod.mk.injEq, true_and] at h
  exact (Prod.mk.inj h).1

theorem map_event_eventRefs (events : List Event) :
    (eventRefs events).map EventRef.event = events := by
  simp [eventRefs, Function.comp_def]

def threadRefs (tid : UInt32) (events : List Event) : List EventRef :=
  (eventRefs events).filter (fun ref => ref.event.tid = tid)

theorem map_event_threadRefs (tid : UInt32) (events : List Event) :
    (threadRefs tid events).map EventRef.event = ofThread tid events := by
  rw [ofThread, ← map_event_eventRefs events, List.filter_map, map_event_eventRefs]
  rfl

variable (h : AlternatingCalls name events)

include h

/-- The timeline has the events of a thread in the order of the capture. -/
theorem ofKey_calls {pid : UInt32} {processStartTime : Option UInt64}
    (hprocess : ∀ event ∈ events, event.pid = pid ∧ event.processStartTime = processStartTime)
    (tid : UInt32) :
    ofKey (fun event => some (threadKey event)) (threadOf pid processStartTime tid)
      (lifecycleTimeline (selectEvents (.syscall .syscallEntry name) events)
        (selectEvents (.syscall .syscallExit name) events)) =
      (threadRefs tid events).map callEntry := by
  have hmem : ∀ ref ∈ eventRefs events, ref.event ∈ events := fun ref href =>
    List.mem_of_getElem? (mem_eventRefs href)
  have hrefs : ofKey (fun event => some (threadKey event)) (threadOf pid processStartTime tid)
      ((eventRefs events).map callEntry) = (threadRefs tid events).map callEntry := by
    apply ofKey_map
    intro ref href
    obtain ⟨hpid, hstart⟩ := hprocess _ (hmem ref href)
    have hkey : threadKey (callEntry ref).event.event =
        threadOf pid processStartTime ref.event.tid := by
      rw [← hpid, ← hstart]
      rfl
    rw [hkey, Option.some.injEq, (threadOf_injective pid processStartTime).eq_iff,
      decide_eq_true_eq]
  -- its times increase, so sorting leaves it as it is
  have hincreasing : (threadRefs tid events).Pairwise
      (fun ref ref' => ref.timestampNs < ref'.timestampNs) := by
    have hchain : (ofThread tid events).IsChain
        (fun event event' => event.timestampNs < event'.timestampNs) :=
      (h.alternate tid).imp fun _ _ hboth => hboth.2
    have hpairwise := hchain.pairwise
    rw [← map_event_threadRefs, List.pairwise_map] at hpairwise
    exact hpairwise
  have hperm := @ofKey_perm _ _ (fun event => some (threadKey event)) _ _
    (timelineEntries_calls_perm h) (threadOf pid processStartTime tid)
  rw [hrefs] at hperm
  have hsorted : SortedBy lifecycleOrder ((threadRefs tid events).map callEntry) := by
    apply List.pairwise_map.mpr
    exact hincreasing.imp fun hlt => Prod.Lex.le_iff.mpr (.inl hlt)
  have hnodup : (((threadRefs tid events).map callEntry).map lifecycleOrder).Nodup := by
    rw [List.map_map]
    apply List.pairwise_map.mpr
    refine hincreasing.imp ?_
    intro ref ref' hlt heq
    have hsame : ref.timestampNs = ref'.timestampNs := (Prod.mk.inj (toLex_inj.mp heq)).1
    exact ne_of_lt hlt hsame
  rw [ofKey_lifecycleTimeline, ← sortByKey_eq_of_perm hperm.symm hnodup,
    sortByKey_of_sorted hsorted]

def callTimeline (name : String) (events : List Event) : List TimelineEntry :=
  lifecycleTimeline (selectEvents (.syscall .syscallEntry name) events)
    (selectEvents (.syscall .syscallExit name) events)

/-- Every entry of the timeline is of an event. -/
theorem mem_callTimeline {entry : TimelineEntry} (hentry : entry ∈ callTimeline name events) :
    ∃ ref, entry = callEntry ref ∧ ref.event ∈ events := by
  have hmem := ((lifecycleTimeline_perm _ _).trans (timelineEntries_calls_perm h)).mem_iff.mp hentry
  obtain ⟨ref, href, rfl⟩ := List.mem_map.mp hmem
  exact ⟨ref, rfl, List.mem_of_getElem? (mem_eventRefs href)⟩

section Process

variable {pid : UInt32} {processStartTime : Option UInt64}
  (hprocess : ∀ event ∈ events, event.pid = pid ∧ event.processStartTime = processStartTime)

include hprocess

/-- A key with entries is that of a thread of the process. -/
theorem exists_threadOf {k : ThreadKey}
    (hne : ofKey (fun event => some (threadKey event)) k (callTimeline name events) ≠ []) :
    ∃ tid, k = threadOf pid processStartTime tid := by
  obtain ⟨entry, hentry⟩ := List.exists_mem_of_ne_nil _ hne
  obtain ⟨hmem, hkey⟩ := mem_ofKey_iff.mp hentry
  obtain ⟨ref, rfl, hevent⟩ := mem_callTimeline h hmem
  obtain ⟨hpid, hstart⟩ := hprocess _ hevent
  refine ⟨ref.event.tid, ?_⟩
  rw [← hpid, ← hstart]
  exact (Option.some.inj hkey).symm

theorem alternates_callTimeline :
    Alternates (fun event => some (threadKey event)) (callTimeline name events) := by
  intro k
  by_cases hne : ofKey (fun event => some (threadKey event)) k (callTimeline name events) = []
  · rw [hne]
    exact .nil
  · obtain ⟨tid, rfl⟩ := exists_threadOf h hprocess hne
    rw [callTimeline, ofKey_calls h hprocess, List.isChain_map]
    have hchain := h.alternate tid
    rw [← map_event_threadRefs, List.isChain_map] at hchain
    refine hchain.imp_of_mem_imp ?_
    intro ref ref' href href' hboth hsame
    -- both are entries or both are exits, so their types agree
    have hmem : ∀ ref ∈ threadRefs tid events, ref.event ∈ events := fun ref href =>
      List.mem_of_getElem? (mem_eventRefs (List.mem_filter.mp href).1)
    rcases eventType_of_calls h (hmem ref href) with htype | htype <;>
      rcases eventType_of_calls h (hmem ref' href') with htype' | htype'
    · exact hboth.1 (htype.trans htype'.symm)
    · simp [callEntry, htype, htype'] at hsame
    · simp [callEntry, htype, htype'] at hsame
    · exact hboth.1 (htype.trans htype'.symm)

/-- A set of keys with entries has as many keys as threads. -/
private theorem card_of_threads {keys : Finset ThreadKey} {threads : Finset UInt32}
    (hkeys : ∀ k ∈ keys,
      ofKey (fun event => some (threadKey event)) k (callTimeline name events) ≠ [])
    (hthreads : ∀ tid, threadOf pid processStartTime tid ∈ keys ↔ tid ∈ threads) :
    keys.card = threads.card := by
  have himage : keys = threads.image (threadOf pid processStartTime) := by
    ext k
    rw [Finset.mem_image]
    constructor
    · intro hk
      obtain ⟨tid, rfl⟩ := exists_threadOf h hprocess (hkeys k hk)
      exact ⟨tid, (hthreads tid).mp hk, rfl⟩
    · rintro ⟨tid, htid, rfl⟩
      exact (hthreads tid).mpr htid
  rw [himage, Finset.card_image_of_injective _ (threadOf_injective pid processStartTime)]

theorem card_openingEnds :
    (openingEnds (fun event => some (threadKey event)) (callTimeline name events)).card =
      (insideAtStart events).card := by
  apply card_of_threads h hprocess
  · intro k hk hnil
    rw [mem_openingEnds_iff, hnil] at hk
    cases hk
  · intro tid
    rw [mem_openingEnds_iff, mem_insideAtStart_iff, callTimeline, ofKey_calls h hprocess,
      ← map_event_threadRefs, List.head?_map, List.head?_map, Option.any_map, Option.any_map]
    rfl

theorem card_closingStarts :
    (closingStarts (fun event => some (threadKey event)) (callTimeline name events)).card =
      (insideAtStop events).card := by
  apply card_of_threads h hprocess
  · intro k hk hnil
    rw [mem_closingStarts_iff, hnil] at hk
    cases hk
  · intro tid
    rw [mem_closingStarts_iff, mem_insideAtStop_iff, callTimeline, ofKey_calls h hprocess,
      ← map_event_threadRefs, List.getLast?_map, List.getLast?_map, Option.any_map,
      Option.any_map]
    cases hlast : (threadRefs tid events).getLast? with
    | none => rfl
    | some ref =>
      have hevent : ref.event ∈ events := List.mem_of_getElem?
        (mem_eventRefs (List.mem_filter.mp (List.mem_of_getLast? hlast)).1)
      rcases eventType_of_calls h hevent with htype | htype <;> simp [callEntry, htype]

omit h

end Process

end Timeline

/-! ## Enough events -/

/-- The captured events give the samples exactly when at most two threads were inside the call when
    the capture started or stopped. -/
theorem enough_pairs_iff (options : MeasureOptions) (samples : Nat) (name : String)
    (events : List Event) (hsamples : options.samples = some samples)
    (hlimit : linuxCaptureEventLimit options 2 = samples * 2 + 2)
    (hlength : events.length = linuxCaptureEventLimit options 2)
    (hcalls : AlternatingCalls name events) :
    (∃ outcome, correlateSelected (selectEvents (.syscall .syscallEntry name) events)
        (selectEvents (.syscall .syscallExit name) events) .exact options.samples
        (lifecycleKinds (.syscall .syscallEntry name) (.syscall .syscallExit name)) =
          some outcome ∧ samples ≤ outcome.pairs.length) ↔
      (insideAtStart events).card + (insideAtStop events).card ≤ 2 := by
  obtain ⟨pid, processStartTime, hprocess⟩ := hcalls.exists_process
  have halternates := alternates_callTimeline hcalls hprocess
  rw [callTimeline] at halternates
  have hpairs := correlateLifecycle_alternating (fun event => some (threadKey event)) _ _
    (fun _ _ => Option.isSome_some) halternates
  have hopening := card_openingEnds hcalls hprocess
  have hclosing := card_closingStarts hcalls hprocess
  rw [callTimeline] at hopening hclosing
  have htotal : (selectEvents (.syscall .syscallEntry name) events).length +
      (selectEvents (.syscall .syscallExit name) events).length = events.length := by
    have hperm := (timelineEntries_calls_perm hcalls).length_eq
    simpa [timelineEntries, eventRefs] using hperm
  have hkind : lifecycleKinds (.syscall .syscallEntry name) (.syscall .syscallExit name) =
      ⟨true, false, false⟩ := by
    simp [lifecycleKinds, Selector.isSyscallLifecycle, Selector.isNvtxLifecycle,
      Selector.isPythonGcLifecycle]
  simp only [correlateSelected, hkind, Bool.true_or, if_true, Option.some.injEq,
    exists_eq_left', hsamples]
  have htruncate : (correlateThreadLifecycle (selectEvents (.syscall .syscallEntry name) events)
      (selectEvents (.syscall .syscallExit name) events) (some samples)).pairs.length =
      min samples (correlateLifecycle (fun event => some (threadKey event))
        (selectEvents (.syscall .syscallEntry name) events)
        (selectEvents (.syscall .syscallExit name) events) none).pairs.length :=
    List.length_take
  rw [htruncate]
  omega

/-! ## Threads that wait -/

/-- An event of `read` by a thread of the process. -/
def readCallEvent (eventType : EventType) (tid : UInt32) (timestampNs : UInt64) : Event :=
  { Correlator.readEvent eventType timestampNs with tid }

def oneSample : MeasureOptions :=
  { Correlator.readOptions with samples := some 1, duration := none, maxEvents := 100 }

/-- One thread calls `read` twice. -/
def twoReads : List Event :=
  [readCallEvent .syscallEntry 7 10, readCallEvent .syscallExit 7 20, readCallEvent .syscallEntry 7 30,
    readCallEvent .syscallExit 7 40]

/-- Four threads were waiting in `read` when the capture started. -/
def fourExits : List Event :=
  [readCallEvent .syscallExit 7 10, readCallEvent .syscallExit 8 20, readCallEvent .syscallExit 9 30,
    readCallEvent .syscallExit 10 40]

theorem alternatingCalls_twoReads : AlternatingCalls "read" twoReads := by
  refine ⟨by decide, by decide, ?_⟩
  intro tid
  by_cases htid : tid = 7
  · subst htid
    decide
  · have hnone : ofThread tid twoReads = [] := by
      simp [ofThread, twoReads, readCallEvent, Ne.symm htid]
    rw [hnone]
    exact .nil

/-- Threads with one event each alternate. -/
private theorem isChain_ofThread_of_nodup {R : Event → Event → Prop}
    (h : (events.map Event.tid).Nodup) (tid : UInt32) : (ofThread tid events).IsChain R := by
  have hcount := List.nodup_iff_count_le_one.mp h tid
  rw [List.count_eq_countP, List.countP_map, List.countP_eq_length_filter] at hcount
  have hlength : (ofThread tid events).length ≤ 1 := hcount
  rcases hthread : ofThread tid events with _ | ⟨event, _ | ⟨event', rest⟩⟩
  · exact .nil
  · exact .singleton event
  · simp [hthread] at hlength

theorem alternatingCalls_fourExits : AlternatingCalls "read" fourExits :=
  ⟨by decide, by decide, isChain_ofThread_of_nodup (by decide)⟩

theorem enough_pairs_twoReads :
    ∃ outcome, correlateSelected (selectEvents (.syscall .syscallEntry "read") twoReads)
        (selectEvents (.syscall .syscallExit "read") twoReads) .exact (some 1)
        (lifecycleKinds (.syscall .syscallEntry "read") (.syscall .syscallExit "read")) =
          some outcome ∧ 1 ≤ outcome.pairs.length :=
  (enough_pairs_iff oneSample 1 "read" twoReads rfl (by decide) (by decide)
    alternatingCalls_twoReads).mpr (by decide)

/-- The capture stops with four exits and no pair. -/
theorem fourExits_no_pair : AlternatingCalls "read" fourExits ∧
    linuxCaptureEventLimit oneSample 2 = 1 * 2 + 2 ∧
    fourExits.length = linuxCaptureEventLimit oneSample 2 ∧
    ¬ ∃ outcome, correlateSelected (selectEvents (.syscall .syscallEntry "read") fourExits)
        (selectEvents (.syscall .syscallExit "read") fourExits) .exact (some 1)
        (lifecycleKinds (.syscall .syscallEntry "read") (.syscall .syscallExit "read")) =
          some outcome ∧ 1 ≤ outcome.pairs.length := by
  refine ⟨alternatingCalls_fourExits, by decide, by decide, ?_⟩
  rintro ⟨outcome, houtcome, hpairs⟩
  have hnone : (correlateSelected (selectEvents (.syscall .syscallEntry "read") fourExits)
      (selectEvents (.syscall .syscallExit "read") fourExits) .exact (some 1)
      (lifecycleKinds (.syscall .syscallEntry "read") (.syscall .syscallExit "read"))).map
      (·.pairs.length) = some 0 := by
    decide +kernel
  rw [houtcome] at hnone
  have hzero : outcome.pairs.length = 0 := Option.some.inj hnone
  omega

end Xprobe.Cli
