import Xprobe.Correlator.Soundness
import Xprobe.Collector.Completed
import Xprobe.Cupti.Activity

/-!
# Exact durations of kernels

What the exact policy pairs when it measures kernels from start to end. The correlation key names
the process, the context and the correlation identifier only, and the starts and the ends of one
key are paired by their rank in time. Several kernels may share a key, as the kernels of one graph
launch do, so a pair can join the start of one kernel with the end of another.

The module follows the activities through the agent's records, the decoder, the merge and the
selection, and states when every pair joins one device, one stream and one kernel name.
-/

namespace Xprobe.Correlator

open Foundation Protocol Cupti Collector

variable {agent : AgentProcess}

/-! ## What is asked and what is expected -/

structure AsksKernelDurations (options : MeasureOptions) : Prop where
  policy : options.matchPolicy = .exact
  start_selector : options.startSelector = "cuda:kernel_start"
  end_selector : options.endSelector = "cuda:kernel_end"

/-- Two events report one device, one stream and one kernel name. -/
def SameKernel (startEvent endEvent : Event) : Prop :=
  ∃ started ended, startEvent.cuda = some started ∧ endEvent.cuda = some ended ∧
    started.deviceId = ended.deviceId ∧ started.streamId = ended.streamId ∧
    started.kernelName = ended.kernelName

def launched (activities : List (EmittedActivity agent)) (contextId correlationId : UInt32) :
    List (EmittedActivity agent) :=
  activities.filter (fun activity => decide (activity.kernel.contextId = contextId ∧
    activity.kernel.correlationId = correlationId))

/-- For every key that the correlator forms, the kernels in the order of their ends are, by device,
    stream and name, the kernels in the order of their starts. -/
def EndInStartOrder (activities : List (EmittedActivity agent)) : Prop :=
  ∀ contextId correlationId, contextId ≠ valueUnknown → correlationId ≠ 0 →
    (sortByKey EmittedActivity.startNs (launched activities contextId correlationId)).map
        EmittedActivity.identity =
      (sortByKey EmittedActivity.endNs (launched activities contextId correlationId)).map
        EmittedActivity.identity

/-! ## The events of an activity -/

def startEventOf (flags : UInt32) (activity : EmittedActivity agent) : Event :=
  bare (activity.startRecord.image flags "")

def endEventOf (flags : UInt32) (activity : EmittedActivity agent) : Event :=
  bare (activity.endRecord.image flags "")

def activityKey (activity : EmittedActivity agent) : Option CorrelationKey :=
  if activity.kernel.contextId ≠ valueUnknown ∧ activity.kernel.correlationId ≠ 0 then
    some (.cuda agent.pid activity.kernel.contextId activity.kernel.correlationId)
  else none

theorem correlationKey_of_cuda {event : Event} {cuda : CudaEvent} (hnvtx : event.nvtx = none)
    (hcuda : event.cuda = some cuda) :
    correlationKey event = cuda.contextId.bind fun contextId =>
      cuda.correlationId.map (.cuda event.pid contextId) := by
  rw [correlationKey, hnvtx, hcuda]
  dsimp only
  rcases cuda.contextId with _ | _ <;> rcases cuda.correlationId with _ | _ <;> rfl

theorem correlationKey_startEventOf (flags : UInt32) (activity : EmittedActivity agent) :
    correlationKey (startEventOf flags activity) = activityKey activity := by
  refine (correlationKey_of_cuda rfl rfl).trans ?_
  show (if activity.kernel.contextId = valueUnknown then none
      else some activity.kernel.contextId).bind (fun contextId =>
        (if activity.kernel.correlationId = 0 then none
          else some activity.kernel.correlationId).map (CorrelationKey.cuda agent.pid contextId)) = _
  rw [activityKey]
  by_cases hcontext : activity.kernel.contextId = valueUnknown
  · simp [hcontext]
  · by_cases hid : activity.kernel.correlationId = 0 <;> simp [hcontext, hid]

theorem correlationKey_endEventOf (flags : UInt32) (activity : EmittedActivity agent) :
    correlationKey (endEventOf flags activity) = activityKey activity :=
  correlationKey_startEventOf flags activity

/-- Two events report the same kernel exactly when their activities have the same identity. -/
theorem sameKernel_iff (flags : UInt32) (a b : EmittedActivity agent) :
    SameKernel (startEventOf flags a) (endEventOf flags b) ↔ a.identity = b.identity := by
  -- an unknown device or stream is read as none, which no known one is
  have hoption : ∀ {β : Type} {f : UInt32 → β} (_ : Function.Injective f) {x y : UInt32},
      (if x = valueUnknown then none else some (f x)) =
        (if y = valueUnknown then none else some (f y)) ↔ x = y := by
    intro β f hf x y
    by_cases hx : x = valueUnknown <;> by_cases hy : y = valueUnknown
    · simp [hx, hy]
    · simp [hx, hy, Ne.symm hy]
    · simp [hx, hy]
    · simp [hx, hy, hf.eq_iff]
  have hstream : Function.Injective UInt32.toUInt64 := by
    intro x y h
    exact UInt32.toNat_inj.mp (by simpa using congrArg UInt64.toNat h)
  constructor
  · rintro ⟨started, ended, hstart, hend, hdevice, hid, hname⟩
    cases hstart
    cases hend
    have h₁ := (hoption Function.injective_id).mp hdevice
    have h₂ := (hoption hstream).mp hid
    have h₃ : a.kernelName = b.kernelName := Option.some.inj hname
    exact Prod.ext h₁ (Prod.ext h₂ h₃)
  · intro h
    simp only [EmittedActivity.identity, Prod.mk.injEq] at h
    obtain ⟨hdevice, hid, hname⟩ := h
    exact ⟨_, _, rfl, rfl, (hoption Function.injective_id).mpr hdevice,
      (hoption hstream).mpr hid, congrArg some hname⟩

/-! ## The measured stream -/

def boundaryEvents (flags : UInt32) (activities : List (EmittedActivity agent)) : List Event :=
  activities.flatMap (fun activity => [startEventOf flags activity, endEventOf flags activity])

/-- Apart from what the merge overwrites, the stream is the events of the activities by time. -/
def StreamOf (flags : UInt32) (activities : List (EmittedActivity agent)) (events : List Event) :
    Prop :=
  events.map bare = sortByKey Event.timestampNs (boundaryEvents flags activities)

variable {activities : List (EmittedActivity agent)} {events : List Event} {flags : UInt32}

private theorem bareImages_eq {capture : SentCapture}
    (hrecords : capture.records = activities.flatMap EmittedActivity.records) (sessionId : String) :
    bareImages capture sessionId = boundaryEvents capture.header.featureFlags activities := by
  rw [bareImages, hrecords, List.map_flatMap]
  rfl

/-- Decoding and merging the capture of the activities gives their stream. -/
theorem streamOf_merged {capture : SentCapture}
    (hrecords : capture.records = activities.flatMap EmittedActivity.records) (sessionId : String) :
    ∃ merged, merge [.ofCupti (capture.image sessionId)] sessionId = .ok merged ∧
      StreamOf capture.header.featureFlags activities merged.events := by
  have hpid : ∀ r ∈ capture.records, r.record.pid = agent.pid := by
    intro r hr
    rw [hrecords] at hr
    obtain ⟨activity, -, hmem⟩ := List.mem_flatMap.mp hr
    rcases List.mem_pair.mp hmem with rfl | rfl <;> rfl
  have hlength : (capture.image sessionId).events.length ≤ 2 ^ 64 := by
    have hcapacity := capture.valid.capacity
    have := capture.header.recordCapacity.toNat_lt
    rw [capture.length_image_events]
    omega
  obtain ⟨merged, hmerge, hevents⟩ :=
    @merge_singleton (.ofCupti (capture.image sessionId)) agent.pid (pid_image_events hpid) hlength
      sessionId
  refine ⟨merged, hmerge, ?_⟩
  rw [StreamOf, hevents, map_bare_renumbered, map_bare_sortByKey]
  show sortByKey _ ((capture.image sessionId).events.map bare) = _
  rw [map_bare_image_events, sortByKey_sortByKey, bareImages_eq hrecords]

/-! ## The selected events -/

/-- What a reference shows of its event after the merge. -/
def view (ref : EventRef) : Event := bare ref.event

private theorem map_view_eventRefs (events : List Event) :
    (eventRefs events).map view = events.map bare := by
  rw [eventRefs, List.map_map]
  show events.zipIdx.map (bare ∘ Prod.fst) = _
  rw [← List.map_map, List.zipIdx_map_fst]

theorem map_view_selectEvents (eventType : EventType) (events : List Event) :
    (selectEvents (.kernel eventType none) events).map view =
      sortByKey Event.timestampNs
        ((events.map bare).filter (fun event => event.eventType == eventType)) := by
  have hsort := sortByKey_map view Event.timestampNs ((eventRefs events).filter
    (fun ref => (Selector.kernel eventType none).matchesEvent ref.event))
  refine hsort.symm.trans ?_
  rw [← map_view_eventRefs, List.filter_map]
  congr 3
  funext ref
  simp [Selector.matchesEvent, view, bare]

/-- The selected events of one boundary are those of the activities by their time. -/
private theorem map_view_boundary (h : StreamOf flags activities events) {eventType : EventType}
    {boundary : EmittedActivity agent → Event} (hboundary : (boundaryEvents flags activities).filter
      (fun event => event.eventType == eventType) = activities.map boundary) :
    (selectEvents (.kernel eventType none) events).map view =
      (sortByKey (fun activity => (boundary activity).timestampNs) activities).map boundary := by
  rw [map_view_selectEvents, h, filter_sortByKey, sortByKey_sortByKey, hboundary, sortByKey_map]

private theorem filter_boundaryEvents (flags : UInt32) (activities : List (EmittedActivity agent)) :
    (boundaryEvents flags activities).filter (fun event => event.eventType == .gpuKernelStart) =
        activities.map (startEventOf flags) ∧
      (boundaryEvents flags activities).filter (fun event => event.eventType == .gpuKernelEnd) =
        activities.map (endEventOf flags) := by
  induction activities with
  | nil => exact ⟨rfl, rfl⟩
  | cons activity rest ih =>
    rw [List.map_cons, List.map_cons, ← ih.1, ← ih.2]
    exact ⟨rfl, rfl⟩

def keyed (activities : List (EmittedActivity agent)) (key : CorrelationKey) :
    List (EmittedActivity agent) :=
  activities.filter (fun activity => decide (activityKey activity = some key))

/-- The group of a key, where the references show the events of sorted activities. -/
private theorem map_view_group {refs : List EventRef} {time : EmittedActivity agent → UInt64}
    {boundary : EmittedActivity agent → Event}
    (hview : refs.map view = (sortByKey time activities).map boundary)
    (hkey : ∀ activity, correlationKey (boundary activity) = activityKey activity)
    (key : CorrelationKey) :
    (BTreeMap.group refKey refs key).map view =
      (sortByKey time (keyed activities key)).map boundary := by
  have hrefs : (BTreeMap.group refKey refs key).map view =
      (refs.map view).filter (fun event => decide (correlationKey event = some key)) := by
    rw [List.filter_map]
    rfl
  rw [hrefs, hview, List.filter_map, keyed, ← filter_sortByKey]
  congr 2
  funext activity
  simp [hkey activity]

/-- The selected starts or ends of one key. -/
abbrev kernelGroup (eventType : EventType) (events : List Event) (key : CorrelationKey) :
    List EventRef :=
  BTreeMap.group refKey (selectEvents (.kernel eventType none) events) key

variable (h : StreamOf flags activities events)

include h

/-- The starts of one key. -/
theorem map_view_start_group (key : CorrelationKey) :
    (kernelGroup .gpuKernelStart events key).map view =
      (sortByKey EmittedActivity.startNs (keyed activities key)).map (startEventOf flags) :=
  map_view_group (map_view_boundary h (filter_boundaryEvents flags activities).1)
    (correlationKey_startEventOf flags) key

/-- The ends of one key. -/
theorem map_view_end_group (key : CorrelationKey) :
    (kernelGroup .gpuKernelEnd events key).map view =
      (sortByKey EmittedActivity.endNs (keyed activities key)).map (endEventOf flags) :=
  map_view_group (map_view_boundary h (filter_boundaryEvents flags activities).2)
    (correlationKey_endEventOf flags) key

/-! ## The groups of one key -/

/-- A relation between the two groups of a key, position by position, is one between the activities
    of the key by their starts and by their ends. -/
theorem forall₂_groups_iff (key : CorrelationKey) (R : Event → Event → Prop) :
    List.Forall₂ (fun s e => R (view s) (view e))
        (kernelGroup .gpuKernelStart events key) (kernelGroup .gpuKernelEnd events key) ↔
      List.Forall₂ (fun a b => R (startEventOf flags a) (endEventOf flags b))
        (sortByKey EmittedActivity.startNs (keyed activities key))
        (sortByKey EmittedActivity.endNs (keyed activities key)) := by
  have hmap : ∀ {γ δ : Type} (f : γ → Event) (g : δ → Event) (l : List γ) (m : List δ),
      List.Forall₂ R (l.map f) (m.map g) ↔ List.Forall₂ (fun c d => R (f c) (g d)) l m := by
    intro γ δ f g l m
    rw [List.forall₂_map_left_iff, List.forall₂_map_right_iff]
  rw [← hmap view view, map_view_start_group h, map_view_end_group h, hmap]

/-- The i-th start of a key is not after its i-th end, since no activity ends before it starts. -/
theorem groups_forward (key : CorrelationKey) :
    List.Forall₂ (fun s e : EventRef => s.timestampNs ≤ e.timestampNs)
      (kernelGroup .gpuKernelStart events key) (kernelGroup .gpuKernelEnd events key) := by
  apply (forall₂_groups_iff h key (fun s e => s.timestampNs ≤ e.timestampNs)).mpr
  apply forall₂_sortByKey
  intro activity _
  exact activity.ordered

/-- The groups of a key pair kernels with themselves exactly when the order of the ends is that of
    the starts. -/
theorem groups_sameKernel_iff (key : CorrelationKey) :
    List.Forall₂ (fun s e : EventRef => SameKernel s.event e.event)
        (kernelGroup .gpuKernelStart events key) (kernelGroup .gpuKernelEnd events key) ↔
      (sortByKey EmittedActivity.startNs (keyed activities key)).map EmittedActivity.identity =
        (sortByKey EmittedActivity.endNs (keyed activities key)).map EmittedActivity.identity := by
  refine (forall₂_groups_iff h key SameKernel).trans ?_
  simp only [sameKernel_iff]
  rw [← List.forall₂_eq_eq_eq, List.forall₂_map_left_iff, List.forall₂_map_right_iff]

omit h

private theorem keyed_cuda {contextId correlationId : UInt32} (hcontext : contextId ≠ valueUnknown)
    (hid : correlationId ≠ 0) :
    keyed activities (.cuda agent.pid contextId correlationId) =
      launched activities contextId correlationId := by
  apply List.filter_congr
  intro activity _
  rw [decide_eq_decide, activityKey]
  constructor
  · intro hkey
    split_ifs at hkey
    simpa using hkey
  · rintro ⟨rfl, rfl⟩
    rw [if_pos ⟨hcontext, hid⟩]

/-- The order condition, over all keys. -/
theorem endInStartOrder_iff : EndInStartOrder activities ↔ ∀ key,
      (sortByKey EmittedActivity.startNs (keyed activities key)).map EmittedActivity.identity =
        (sortByKey EmittedActivity.endNs (keyed activities key)).map EmittedActivity.identity := by
  constructor
  · intro h key
    by_cases hempty : keyed activities key = []
    · rw [hempty]
      rfl
    · -- an activity with the key says what the key is
      obtain ⟨activity, hactivity⟩ := List.exists_mem_of_ne_nil _ hempty
      have hkey : activityKey activity = some key := by
        simpa using (List.mem_filter.mp hactivity).2
      rw [activityKey] at hkey
      split_ifs at hkey with hknown
      cases hkey
      rw [keyed_cuda hknown.1 hknown.2]
      exact h _ _ hknown.1 hknown.2
  · intro h contextId correlationId hcontext hid
    rw [← keyed_cuda hcontext hid]
    exact h _

/-! ## The duration window -/

/-- The window keeps the events up to some time. -/
private theorem applyDurationWindow_eq_filter {starts ends starts' ends' : List EventRef}
    {duration : Option Nat}
    (h : applyDurationWindow starts ends duration = .ok (starts', ends')) :
    ∃ last : UInt64, starts' = starts.filter (fun ref => decide (ref.timestampNs ≤ last)) ∧
      ends' = ends.filter (fun ref => decide (ref.timestampNs ≤ last)) := by
  -- without a window every time is kept
  have hall : ∀ refs : List EventRef,
      refs = refs.filter (fun ref => decide (ref.timestampNs ≤ UInt64.ofNat (2 ^ 64 - 1))) := by
    intro refs
    symm
    apply List.filter_eq_self.mpr
    intro ref _
    have hlt := ref.timestampNs.toNat_lt
    simp only [decide_eq_true_eq, UInt64.le_iff_toNat_le]
    rw [UInt64.toNat_ofNat_of_lt' (by decide)]
    omega
  unfold applyDurationWindow at h
  split at h
  · cases h
    exact ⟨_, hall starts, hall ends⟩
  · split at h
    · cases h
      exact ⟨_, hall starts, hall ends⟩
    · split_ifs at h
      · cases h
      · split at h
        · cases h
        · cases h
          exact ⟨_, rfl, rfl⟩

private theorem mem_zip_of_initial {α β : Type} {l l' : List α} {m m' : List β} {x : α × β}
    (hl : l' <+: l) (hm : m' <+: m) (hlength : l'.length = m'.length) (hx : x ∈ l'.zip m') :
    x ∈ l.zip m := by
  obtain ⟨restL, rfl⟩ := hl
  obtain ⟨restM, rfl⟩ := hm
  rw [List.zip_append hlength]
  exact List.mem_append_left _ hx

/-- Within a window the group of a key is the beginning of its whole group. -/
private theorem group_filter_initial {eventType : EventType} (last : UInt64) (key : CorrelationKey) :
    BTreeMap.group refKey ((selectEvents (.kernel eventType none) events).filter
        (fun ref => decide (ref.timestampNs ≤ last))) key <+:
      kernelGroup eventType events key := by
  have hsorted : SortedBy EventRef.timestampNs
      (kernelGroup eventType events key) :=
    SortedBy.filter (selectEvents_sorted _ events) _
  have hcommute : BTreeMap.group refKey ((selectEvents (.kernel eventType none) events).filter
      (fun ref => decide (ref.timestampNs ≤ last))) key =
      (kernelGroup eventType events key).filter
        (fun ref => decide (ref.timestampNs ≤ last)) := by
    rw [BTreeMap.group, kernelGroup, BTreeMap.group, List.filter_filter, List.filter_filter]
    congr 1
    funext ref
    rw [Bool.and_comm]
  rw [hcommute]
  exact hsorted.filter_le_initial last

/-! ## Measuring the stream -/

private theorem parse_kernel_start (regexNew : RegexEngine) :
    Selector.parse regexNew "cuda:kernel_start" = .ok (.kernel .gpuKernelStart none) := rfl

private theorem parse_kernel_end (regexNew : RegexEngine) :
    Selector.parse regexNew "cuda:kernel_end" = .ok (.kernel .gpuKernelEnd none) := rfl

/-- The order condition is enough, whatever the window and the limits. -/
theorem evidence_sameKernel (h : StreamOf flags activities events)
    (horder : EndInStartOrder activities) {regexNew : RegexEngine} {options : MeasureOptions}
    (hasks : AsksKernelDurations options) {result : MeasurementResult}
    (hmeasure : measure regexNew events options = some (.ok result)) :
    ∀ pair ∈ result.evidence, SameKernel pair.startEvent pair.endEvent := by
  obtain ⟨selected, outcome, hselect, hcorrelate, -, hreport⟩ := measure_eq_ok hmeasure
  -- the two selectors are the plain kernel selectors
  have hstart := hselect.start_parse
  rw [hasks.start_selector, parse_kernel_start] at hstart
  have hend := hselect.end_parse
  rw [hasks.end_selector, parse_kernel_end] at hend
  have hwindow := hselect.window_ok
  rw [← Except.ok.inj hstart, ← Except.ok.inj hend] at hwindow
  rw [Selected.lifecycles, ← Except.ok.inj hstart, ← Except.ok.inj hend, hasks.policy] at hcorrelate
  cases hcorrelate
  obtain ⟨last, hstarts, hends⟩ := applyDurationWindow_eq_filter hwindow
  intro evidence hevidence
  rw [(report_eq_some hreport).1] at hevidence
  obtain ⟨pair, hpair, rfl⟩ := List.mem_map.mp hevidence
  -- the pair stands at one position of the two groups of its key
  have hloop : pair ∈ (exactLoop selected.starts selected.ends).pairs :=
    (sortPairs_perm _).subset ((truncate_sublist _ _).subset hpair)
  obtain ⟨key, hkey⟩ := mem_exactLoop_pairs.mp hloop
  obtain ⟨hlength, hzip, -⟩ := mem_keyPairs.mp hkey
  rw [hstarts, hends] at hlength hzip
  have hwhole := mem_zip_of_initial (group_filter_initial last key) (group_filter_initial last key)
    hlength hzip
  have hgroups := (groups_sameKernel_iff h key).mpr (endInStartOrder_iff.mp horder key)
  exact List.forall₂_zip hgroups hwhole

/-- Options under which nothing is cut off: no window, and room for every pair and event. -/
def fullOptions (events : List Event) : MeasureOptions :=
  { sessionId := "session"
    name := none
    startSelector := "cuda:kernel_start"
    endSelector := "cuda:kernel_end"
    matchPolicy := .exact
    samples := some (events.length + 1)
    duration := none
    maxEvents := events.length + 1
    droppedEvents := 0 }

theorem checkClockGroup_of_same {domain : ClockDomain} {refs : List EventRef}
    (h : ∀ ref ∈ refs, ref.event.clockDomain = domain) (normalized : Bool) :
    ∃ hasNormalized, checkClockGroup domain refs normalized = .ok hasNormalized := by
  induction refs generalizing normalized with
  | nil => exact ⟨normalized, rfl⟩
  | cons ref rest ih =>
    have hfirst := h ref List.mem_cons_self
    rw [checkClockGroup, hfirst, if_neg (not_not.mpr rfl)]
    exact ih (fun ref href => h ref (List.mem_cons_of_mem _ href)) _

/-- Events of one clock have a common clock. -/
theorem commonClockDomain_of_same {domain : ClockDomain} {starts ends : List EventRef}
    (h : ∀ ref ∈ starts ++ ends, ref.event.clockDomain = domain) (hne : starts ++ ends ≠ []) :
    ∃ common, commonClockDomain starts ends = .ok common := by
  rw [commonClockDomain]
  cases hall : starts ++ ends with
  | nil => exact absurd hall hne
  | cons first rest =>
    rw [hall] at h
    have hfirst := h first List.mem_cons_self
    obtain ⟨hasNormalized, hrest⟩ := checkClockGroup_of_same
      (fun ref href => h ref (List.mem_cons_of_mem _ href))
      (first.event.clockDomain == .cuptiNormalizedToHostMonotonic)
    rw [← hfirst] at hrest
    simp only [hrest, ok_bind]
    split_ifs
    · exact ⟨_, rfl⟩
    · exact ⟨_, rfl⟩
    · exact ⟨_, rfl⟩

/-- The clock of kernel records. -/
def activityClock (flags : UInt32) : ClockDomain :=
  if hasFeature flags featureHostMonotonicTimestamps then .cuptiNormalizedToHostMonotonic
  else .cupti

private theorem clockDomain_of_stream (h : StreamOf flags activities events) {event : Event}
    (hevent : event ∈ events) : event.clockDomain = activityClock flags := by
  have hmem : bare event ∈ boundaryEvents flags activities := by
    have hbare := List.mem_map_of_mem (f := bare) hevent
    rwa [h, mem_sortByKey] at hbare
  obtain ⟨activity, -, hboundary⟩ := List.mem_flatMap.mp hmem
  show (bare event).clockDomain = _
  rcases List.mem_pair.mp hboundary with hstart | hend
  · rw [hstart]
    rfl
  · rw [hend]
    rfl

private theorem mem_events_of_selected {selector : Selector} {ref : EventRef}
    (h : ref ∈ selectEvents selector events) : ref.event ∈ events :=
  List.mem_of_getElem? (mem_eventRefs (mem_selectEvents.mp h).1)

/-- With the full options every pair of the loop becomes evidence. -/
theorem measure_fullOptions (h : StreamOf flags activities events) (regexNew : RegexEngine)
    (hne : (exactLoop (selectEvents (.kernel .gpuKernelStart none) events)
      (selectEvents (.kernel .gpuKernelEnd none) events)).pairs ≠ []) :
    ∃ result, measure regexNew events (fullOptions events) = some (.ok result) ∧
      ∀ pair ∈ (exactLoop (selectEvents (.kernel .gpuKernelStart none) events)
        (selectEvents (.kernel .gpuKernelEnd none) events)).pairs,
        pair.toEvidence ∈ result.evidence := by
  set starts := selectEvents (.kernel .gpuKernelStart none) events with hstarts
  set ends := selectEvents (.kernel .gpuKernelEnd none) events with hends
  -- the selection succeeds: there is a pair, and all events have one clock
  have hclock : ∀ ref ∈ starts ++ ends, ref.event.clockDomain = activityClock flags := by
    intro ref href
    rcases List.mem_append.mp href with hs | he
    · exact clockDomain_of_stream h (mem_events_of_selected hs)
    · exact clockDomain_of_stream h (mem_events_of_selected he)
  have hsound := correlateExact_sound starts ends none
  have hused : ((exactLoop starts ends).pairs).length ≤ starts.length := by
    have hlength := hsound.starts_used.length_le
    rw [List.length_map] at hlength
    rwa [← (sortPairs_perm (exactLoop starts ends).pairs).length_eq]
  have hstartsNe : starts ≠ [] := by
    intro hnil
    rw [hnil, List.length_nil, Nat.le_zero, List.length_eq_zero_iff] at hused
    rw [hnil] at hne
    exact hne hused
  obtain ⟨clockDomain, hcommon⟩ := commonClockDomain_of_same hclock
    (fun happend => hstartsNe (List.append_eq_nil_iff.mp happend).1)
  have hselect : SelectOk regexNew events (fullOptions events)
      { startSelector := .kernel .gpuKernelStart none
        endSelector := .kernel .gpuKernelEnd none
        starts, ends, clockDomain } :=
    { options_ok := by simp [validateOptions, fullOptions]
      capture_ok := by simp [checkCapture, fullOptions]
      start_parse := parse_kernel_start regexNew
      end_parse := parse_kernel_end regexNew
      policy_ok := rfl
      clock_ok := hcommon
      window_ok := rfl }
  -- the limit leaves room for all pairs
  have hall : (correlateExact starts ends (fullOptions events).samples).pairs =
      sortPairs (exactLoop starts ends).pairs := by
    have hbound : starts.length ≤ events.length := length_selectEvents_le _ events
    refine List.take_of_length_le ?_
    rw [(sortPairs_perm _).length_eq]
    omega
  have hpairs : (correlateExact starts ends (fullOptions events).samples).pairs ≠ [] := by
    rw [hall]
    intro hnil
    have hperm := sortPairs_perm (exactLoop starts ends).pairs
    rw [hnil] at hperm
    exact hne (List.nil_perm.mp hperm)
  obtain ⟨result, hmeasure, hevidence⟩ :=
    @measure_ok_of_pairs _ _ _ _ (correlateExact starts ends _) hselect rfl hpairs
  refine ⟨result, hmeasure, ?_⟩
  intro pair hpair
  rw [hevidence, hall]
  apply List.mem_map_of_mem
  exact (sortPairs_perm _).mem_iff.mpr hpair

/-- The order condition is necessary: with the full options every rank becomes evidence. -/
theorem endInStartOrder_of_evidence (h : StreamOf flags activities events) (regexNew : RegexEngine)
    (hevidence : ∀ result, measure regexNew events (fullOptions events) = some (.ok result) →
      ∀ pair ∈ result.evidence, SameKernel pair.startEvent pair.endEvent) :
    EndInStartOrder activities := by
  apply endInStartOrder_iff.mpr
  intro key
  apply (groups_sameKernel_iff h key).mp
  have hforward := groups_forward h key
  refine List.forall₂_iff_zip.mpr ⟨hforward.length_eq, ?_⟩
  intro s e hzip
  -- the events at one rank are a pair, because the end is not before the start
  have hle : s.timestampNs ≤ e.timestampNs := List.forall₂_zip hforward hzip
  let pair : Pair := ⟨s, e, e.timestampNs - s.timestampNs⟩
  have hkey : pair ∈ keyPairs
      (kernelGroup .gpuKernelStart events key) (kernelGroup .gpuKernelEnd events key) :=
    mem_keyPairs.mpr ⟨hforward.length_eq, hzip, hle, rfl⟩
  have hpair := mem_exactLoop_pairs.mpr ⟨key, hkey⟩
  obtain ⟨result, hmeasure, hall⟩ :=
    measure_fullOptions h regexNew (List.ne_nil_of_mem hpair)
  exact hevidence result hmeasure pair.toEvidence (hall pair hpair)

/-- Exact kernel durations never mix kernels exactly when, for every context and correlation
    identifier, the kernels end in the order in which they start. -/
theorem exact_kernel_pairs_iff (activities : List (EmittedActivity agent)) (capture : SentCapture)
    (sessionId : String)
    (hrecords : capture.records = activities.flatMap EmittedActivity.records) :
    (∀ decoded merged regexNew options result,
      decodeCapture capture.bytes.toList sessionId = .ok decoded →
      merge [.ofCupti decoded] sessionId = .ok merged →
      AsksKernelDurations options →
      measure regexNew merged.events options = some (.ok result) →
      ∀ pair ∈ result.evidence, SameKernel pair.startEvent pair.endEvent) ↔
      EndInStartOrder activities := by
  obtain ⟨merged, hmerge, hstream⟩ := streamOf_merged hrecords sessionId
  constructor
  · intro h
    refine endInStartOrder_of_evidence hstream (fun _ => .error "") ?_
    intro result hmeasure
    exact h _ merged _ (fullOptions merged.events) result (capture.decode_eq sessionId) hmerge
      ⟨rfl, rfl, rfl⟩ hmeasure
  · intro horder decoded merged' regexNew options result hdecode hmerge' hasks hmeasure
    -- the capture decodes and merges to one stream only
    cases (capture.decode_eq sessionId).symm.trans hdecode
    cases hmerge.symm.trans hmerge'
    exact evidence_sameKernel hstream horder hasks hmeasure

/-! ### Two kernels of one graph launch -/

/-- A process without a clock offset. -/
def graphAgent : AgentProcess := { pid := 7, activityTimestampOffsetNs := 0 }

/-- A kernel of a graph launch, whose kernels share the correlation identifier 9. -/
def graphKernel (streamId : UInt32) (name : String) (start finish : UInt64) : KernelActivity :=
  { deviceId := 0, contextId := 1, streamId, correlationId := 9
    gridX := 1, gridY := 1, gridZ := 1, blockX := 32, blockY := 1, blockZ := 1
    name := utf8Bytes name, start, finish }

/-- The kernel `outer` runs from 1 to 4. -/
def shortOuter : EmittedActivity graphAgent :=
  { kernel := graphKernel 3 "outer" 1 4
    tid := 7
    kernelName := "outer"
    kernelName_eq := by decide
    started := by decide
    ordered := by decide }

/-- The kernel `outer` runs from 1 to 10. -/
def longOuter : EmittedActivity graphAgent :=
  { kernel := graphKernel 3 "outer" 1 10
    tid := 7
    kernelName := "outer"
    kernelName_eq := by decide
    started := by decide
    ordered := by decide }

/-- The kernel `inner` runs from 2 to 5 on another stream. -/
def innerActivity : EmittedActivity graphAgent :=
  { kernel := graphKernel 4 "inner" 2 5
    tid := 7
    kernelName := "inner"
    kernelName_eq := by decide
    started := by decide
    ordered := by decide }

def graphCapture (outer : EmittedActivity graphAgent) : SentCapture :=
  stoppedCapture ([outer, innerActivity].flatMap EmittedActivity.records) 4 0
    { supported := rfl
      exact_mode := rfl
      announced := by
        intro r hr
        obtain ⟨activity, -, hmem⟩ := List.mem_flatMap.mp hr
        rcases List.mem_pair.mp hmem with rfl | rfl <;> rfl
      state_code := rfl
      reason_code := rfl
      count := rfl
      capacity := (by decide : 0 + 4 ≤ 10)
      observed := (by decide : 0 + 4 ≤ 13)
      drops := by decide }

theorem endInStartOrder_short : EndInStartOrder [shortOuter, innerActivity] := by
  intro contextId correlationId _ _
  by_cases hkey : 1 = contextId ∧ 9 = correlationId
  · obtain ⟨rfl, rfl⟩ := hkey
    decide
  · have hempty : launched [shortOuter, innerActivity] contextId correlationId = [] := by
      apply List.filter_eq_nil_iff.mpr
      intro activity hactivity hmem
      rcases List.mem_pair.mp hactivity with rfl | rfl
      · exact hkey (of_decide_eq_true hmem)
      · exact hkey (of_decide_eq_true hmem)
    rw [hempty]
    rfl

/-- When `outer` ends before `inner`, every pair joins one kernel with itself. -/
theorem exact_kernel_pairs_ordered : (graphCapture shortOuter).records =
        [shortOuter, innerActivity].flatMap EmittedActivity.records ∧
      ∀ decoded merged regexNew options result,
        decodeCapture (graphCapture shortOuter).bytes.toList "s" = .ok decoded →
        merge [.ofCupti decoded] "s" = .ok merged →
        AsksKernelDurations options →
        measure regexNew merged.events options = some (.ok result) →
        ∀ pair ∈ result.evidence, SameKernel pair.startEvent pair.endEvent :=
  ⟨rfl, (exact_kernel_pairs_iff [shortOuter, innerActivity] (graphCapture shortOuter) "s" rfl).mpr
    endInStartOrder_short⟩

def joinedNames (pair : MatchedEventPair) : Option String × Option String :=
  (pair.startEvent.cuda.bind (·.kernelName), pair.endEvent.cuda.bind (·.kernelName))

/-- When `outer` ends after `inner`, the start of `outer` is paired with the end of `inner`. -/
theorem exact_kernel_pairs_mixed : ∃ decoded merged options result,
      decodeCapture (graphCapture longOuter).bytes.toList "s" = .ok decoded ∧
      merge [.ofCupti decoded] "s" = .ok merged ∧
      AsksKernelDurations options ∧
      measure (fun _ => .error "") merged.events options = some (.ok result) ∧
      result.evidence.map joinedNames =
        [(some "outer", some "inner"), (some "inner", some "outer")] := by
  let decoded := (graphCapture longOuter).image "s"
  have hpid : ∀ r ∈ (graphCapture longOuter).records, r.record.pid = 7 := by
    intro r hr
    obtain ⟨activity, -, hmem⟩ := List.mem_flatMap.mp hr
    rcases List.mem_pair.mp hmem with rfl | rfl <;> rfl
  obtain ⟨merged, hmerge, hevents⟩ :=
    @merge_singleton (.ofCupti decoded) 7 (pid_image_events hpid) (by decide) "s"
  have hrun : (measure (fun _ => .error "") merged.events (fullOptions merged.events)).map
      (fun outcome => outcome.map (fun result => result.evidence.map joinedNames)) =
      some (.ok [(some "outer", some "inner"), (some "inner", some "outer")]) := by
    rw [hevents]
    decide
  obtain ⟨outcome, hmeasure, houtcome⟩ := Option.map_eq_some_iff.mp hrun
  cases outcome with
  | error error => cases houtcome
  | ok result =>
    exact ⟨decoded, merged, fullOptions merged.events, result,
      (graphCapture longOuter).decode_eq "s", hmerge, ⟨rfl, rfl, rfl⟩, hmeasure,
      Except.ok.inj houtcome⟩

end Xprobe.Correlator
