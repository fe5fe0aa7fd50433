import Xprobe.Correlator.Soundness

/-!
# Independence of the input order

`measure` sorts what it selects, so the order of its input should not matter. Two things stand in
the way. A stable sort keeps the input order of equal timestamps, so the starts and the ends need
distinct ones. And a reference to an event carries its position in the input, which no comparison
of the algorithms may look at.

The second point is what most of this module is about: `forget` drops the position of a reference,
every pairing algorithm commutes with it (`correlateSelected_forget`), and the report reads events
only.
-/

namespace Xprobe.Correlator

open Foundation Protocol

/-! ## Forgetting positions -/

/-- The reference without its position. -/
def EventRef.forget (ref : EventRef) : EventRef := ⟨0, ref.event⟩

@[simp] theorem EventRef.event_forget (ref : EventRef) : ref.forget.event = ref.event := rfl

@[simp] theorem EventRef.timestampNs_forget (ref : EventRef) :
    ref.forget.timestampNs = ref.timestampNs := rfl

@[simp] theorem refKey_forget (ref : EventRef) : refKey ref.forget = refKey ref := rfl

@[simp] theorem refStreamKey_forget (ref : EventRef) :
    refStreamKey ref.forget = refStreamKey ref := rfl

def Pair.forget (pair : Pair) : Pair :=
  ⟨pair.startEvent.forget, pair.endEvent.forget, pair.latencyNs⟩

@[simp] theorem Pair.latencyNs_forget (pair : Pair) : pair.forget.latencyNs = pair.latencyNs := rfl

@[simp] theorem Pair.toEvidence_forget (pair : Pair) :
    pair.forget.toEvidence = pair.toEvidence := rfl

def Outcome.forget (outcome : Outcome) : Outcome :=
  { outcome with pairs := outcome.pairs.map Pair.forget }

def TimelineEntry.forget (entry : TimelineEntry) : TimelineEntry :=
  ⟨entry.isEnd, entry.event.forget⟩

theorem map_truncate {α β : Type} (f : α → β) (limit : Option Nat) (l : List α) :
    (truncate limit l).map f = truncate limit (l.map f) := by
  cases limit with
  | none => rfl
  | some n => exact List.map_take

theorem map_forget_sortPairs (pairs : List Pair) :
    (sortPairs pairs).map Pair.forget = sortPairs (pairs.map Pair.forget) := by
  rw [sortPairs, sortPairs, sortByKey_map]
  rfl

theorem timelineEntries_forget (starts ends : List EventRef) :
    timelineEntries (starts.map EventRef.forget) (ends.map EventRef.forget) =
      (timelineEntries starts ends).map TimelineEntry.forget := by
  simp [timelineEntries, TimelineEntry.forget, Function.comp_def]

/-! ## Lifecycles -/

section

variable {κ : Type} [LinearOrder κ] (key : Event → Option κ)

def LifecycleState.forget (st : LifecycleState κ) : LifecycleState κ :=
  { st with
    pending := st.pending.mapValues EventRef.forget
    pairs := st.pairs.map Pair.forget }

theorem lifecycleStep_forget (st : LifecycleState κ) (entry : TimelineEntry) :
    lifecycleStep key st.forget entry.forget = (lifecycleStep key st entry).forget := by
  obtain ⟨isEnd, ref⟩ := entry
  simp only [lifecycleStep, TimelineEntry.forget, EventRef.event_forget]
  cases key ref.event with
  | none => cases isEnd <;> rfl
  | some k =>
    cases isEnd with
    | false =>
      simp only [LifecycleState.forget, BTreeMap.get?_mapValues]
      cases st.pending.get? k <;> simp [BTreeMap.mapValues_insert]
    | true =>
      simp only [LifecycleState.forget, BTreeMap.get?_mapValues]
      cases st.pending.get? k with
      | none => rfl
      | some start =>
        simp only [Option.map_some, EventRef.timestampNs_forget, if_true]
        cases checkedSub ref.timestampNs start.timestampNs <;>
          simp [BTreeMap.mapValues_erase, Pair.forget]

theorem correlateLifecycle_forget (starts ends : List EventRef) (limit : Option Nat) :
    correlateLifecycle key (starts.map EventRef.forget) (ends.map EventRef.forget) limit =
      (correlateLifecycle key starts ends limit).forget := by
  have htimeline : lifecycleTimeline (starts.map EventRef.forget) (ends.map EventRef.forget) =
      (lifecycleTimeline starts ends).map TimelineEntry.forget := by
    rw [lifecycleTimeline, lifecycleTimeline, timelineEntries_forget, sortByKey_map]
    rfl
  have hloop : lifecycleLoop key (starts.map EventRef.forget) (ends.map EventRef.forget) =
      (lifecycleLoop key starts ends).forget := by
    rw [lifecycleLoop, htimeline]
    exact foldl_map_hom (g := LifecycleState.forget) (lifecycleStep_forget key) _
      ⟨.empty, [], 0, 0, 0⟩
  simp only [correlateLifecycle, hloop, Outcome.forget, map_truncate, map_forget_sortPairs]
  simp [LifecycleState.forget]

end

/-! ## Correlation keys -/

def ExactState.forget (st : ExactState) : ExactState :=
  { st with
    endGroups := st.endGroups.mapValues (List.map EventRef.forget)
    pairs := st.pairs.map Pair.forget }

theorem exactPairStep_forget (st : ExactState) (candidate : EventRef × EventRef) :
    exactPairStep st.forget (Prod.map EventRef.forget EventRef.forget candidate) =
      (exactPairStep st candidate).forget := by
  simp only [exactPairStep, Prod.map_fst, Prod.map_snd, EventRef.timestampNs_forget]
  cases checkedSub candidate.2.timestampNs candidate.1.timestampNs <;>
    simp [ExactState.forget, Pair.forget]

theorem exactGroupStep_forget (st : ExactState) (entry : CorrelationKey × List EventRef) :
    exactGroupStep st.forget (entry.1, entry.2.map EventRef.forget) =
      (exactGroupStep st entry).forget := by
  have hget : st.forget.endGroups.get? entry.1 =
      (st.endGroups.get? entry.1).map (List.map EventRef.forget) := BTreeMap.get?_mapValues _ _ _
  simp only [exactGroupStep, hget]
  cases st.endGroups.get? entry.1 with
  | none => simp [ExactState.forget]
  | some endGroup =>
    simp only [Option.map_some, List.length_map]
    split_ifs with hlength
    · simp [ExactState.forget, BTreeMap.mapValues_erase]
    · rw [List.zip_map]
      refine Eq.trans ?_ (foldl_map_hom (g := ExactState.forget) exactPairStep_forget _ _)
      simp [ExactState.forget, BTreeMap.mapValues_erase]

theorem correlateExact_forget (starts ends : List EventRef) (limit : Option Nat) :
    correlateExact (starts.map EventRef.forget) (ends.map EventRef.forget) limit =
      (correlateExact starts ends limit).forget := by
  have hloop : exactLoop (starts.map EventRef.forget) (ends.map EventRef.forget) =
      (exactLoop starts ends).forget := by
    simp only [exactLoop, BTreeMap.groupBy_map refKey_forget]
    exact foldl_map_hom (g := ExactState.forget) exactGroupStep_forget _
      ⟨(BTreeMap.groupBy refKey ends).1, [], (BTreeMap.groupBy refKey starts).2,
        (BTreeMap.groupBy refKey ends).2, 0⟩
  simp only [correlateExact, hloop, Outcome.forget, map_truncate, map_forget_sortPairs]
  simp [ExactState.forget, Function.comp_def]

/-! ## Greedy scans -/

def GreedyState.forget (st : GreedyState) : GreedyState :=
  { st with pairs := st.pairs.map Pair.forget, ends := st.ends.map EventRef.forget }

theorem skipEnds_forget (startNs : UInt64) (ends : List EventRef) :
    skipEnds startNs (ends.map EventRef.forget) =
      ((skipEnds startNs ends).1.map EventRef.forget, (skipEnds startNs ends).2) := by
  induction ends with
  | nil => rfl
  | cons e rest ih =>
    simp only [List.map_cons, skipEnds, EventRef.timestampNs_forget, ih]
    split_ifs <;> rfl

theorem firstAfterLoop_forget (limit : Nat) (starts : List EventRef) (st : GreedyState) :
    firstAfterLoop limit (starts.map EventRef.forget) st.forget =
      (firstAfterLoop limit starts st).map GreedyState.forget := by
  induction starts generalizing st with
  | nil => rfl
  | cons start rest ih =>
    have hlength : st.forget.pairs.length = st.pairs.length := by simp [GreedyState.forget]
    have hskip : skipEnds start.forget.timestampNs st.forget.ends = _ :=
      skipEnds_forget start.timestampNs st.ends
    rw [List.map_cons, firstAfterLoop, firstAfterLoop, hlength, hskip]
    split_ifs with hfull
    · rfl
    · cases hremaining : (skipEnds start.timestampNs st.ends).1 with
      | nil => simp [hremaining, GreedyState.forget]
      | cons e after =>
        simp only [hremaining, List.map_cons, EventRef.timestampNs_forget]
        cases checkedSub e.timestampNs start.timestampNs with
        | none => rfl
        | some latencyNs =>
          simp only [some_bind]
          refine Eq.trans ?_ (ih _)
          simp [GreedyState.forget, Pair.forget]

theorem correlateFirstAfter_forget (starts ends : List EventRef) (limit : Option Nat) :
    correlateFirstAfter (starts.map EventRef.forget) (ends.map EventRef.forget) limit =
      (correlateFirstAfter starts ends limit).map Outcome.forget := by
  have hloop := firstAfterLoop_forget (limit.getD usizeMax) starts ⟨[], 0, 0, ends⟩
  have hinit : GreedyState.forget ⟨[], 0, 0, ends⟩ = ⟨[], 0, 0, ends.map EventRef.forget⟩ := rfl
  rw [hinit] at hloop
  simp only [correlateFirstAfter, hloop]
  cases firstAfterLoop (limit.getD usizeMax) starts ⟨[], 0, 0, ends⟩ with
  | none => rfl
  | some st => simp [firstAfterOutcome, Outcome.forget, GreedyState.forget]

def StreamState.forget (st : StreamState) : StreamState :=
  { st with
    endGroups := st.endGroups.mapValues (List.map EventRef.forget)
    pairs := st.pairs.map Pair.forget }

theorem streamStartStep_forget (st : GreedyState) (start : EventRef) :
    streamStartStep st.forget start.forget = (streamStartStep st start).map GreedyState.forget := by
  have hskip : skipEnds start.forget.timestampNs st.forget.ends = _ :=
    skipEnds_forget start.timestampNs st.ends
  rw [streamStartStep, streamStartStep, hskip]
  cases hremaining : (skipEnds start.timestampNs st.ends).1 with
  | nil =>
    simp only [hremaining]
    rfl
  | cons e after =>
    simp only [hremaining, List.map_cons, EventRef.timestampNs_forget]
    cases checkedSub e.timestampNs start.timestampNs with
    | none => rfl
    | some latencyNs => simp [GreedyState.forget, Pair.forget]

theorem streamGroupStep_forget (st : StreamState) (entry : StreamKey × List EventRef) :
    streamGroupStep st.forget (entry.1, entry.2.map EventRef.forget) =
      (streamGroupStep st entry).map StreamState.forget := by
  have hget : st.forget.endGroups.get? entry.1 =
      (st.endGroups.get? entry.1).map (List.map EventRef.forget) := BTreeMap.get?_mapValues _ _ _
  simp only [streamGroupStep, hget]
  cases st.endGroups.get? entry.1 with
  | none => simp [StreamState.forget]
  | some endGroup =>
    have hinner := foldlM_map_hom (g := GreedyState.forget) streamStartStep_forget entry.2
      ⟨st.pairs, st.unmatchedStart, st.unmatchedEnd, endGroup⟩
    simp only [GreedyState.forget] at hinner
    simp only [Option.map_some, StreamState.forget, hinner]
    cases entry.2.foldlM streamStartStep
        ⟨st.pairs, st.unmatchedStart, st.unmatchedEnd, endGroup⟩ with
    | none => rfl
    | some inner => simp [StreamState.forget, GreedyState.forget, BTreeMap.mapValues_erase]

theorem correlateStreamOrder_forget (starts ends : List EventRef) (limit : Option Nat) :
    correlateStreamOrder (starts.map EventRef.forget) (ends.map EventRef.forget) limit =
      (correlateStreamOrder starts ends limit).map Outcome.forget := by
  have hloop : streamLoop (starts.map EventRef.forget) (ends.map EventRef.forget) =
      (streamLoop starts ends).map StreamState.forget := by
    simp only [streamLoop, groupByStream, BTreeMap.groupBy_map refStreamKey_forget]
    exact foldlM_map_hom (g := StreamState.forget) streamGroupStep_forget _
      ⟨(BTreeMap.groupBy refStreamKey ends).1, [], (BTreeMap.groupBy refStreamKey starts).2,
        (BTreeMap.groupBy refStreamKey ends).2⟩
  simp only [correlateStreamOrder, hloop]
  cases streamLoop starts ends with
  | none => rfl
  | some st =>
    simp [Outcome.forget, map_truncate, map_forget_sortPairs, StreamState.forget,
      Function.comp_def]

/-! ## Nearest -/

def NearestState.forget (st : NearestState) : NearestState :=
  { st with
    available := st.available.mapValues (List.map EventRef.forget)
    pairs := st.pairs.map Pair.forget }

theorem availableEnds_forget (ends : List EventRef) : availableEnds (ends.map EventRef.forget) =
      (availableEnds ends).mapValues (List.map EventRef.forget) := by
  refine foldl_map_hom (g := BTreeMap.mapValues (List.map EventRef.forget)) ?_ ends .empty
  intro available e
  exact (BTreeMap.mapValues_push EventRef.forget available e.timestampNs e).symm

theorem selectTimestamp_forget (available : BTreeMap UInt64 (List EventRef)) (startNs : UInt64) :
    selectTimestamp (available.mapValues (List.map EventRef.forget)) startNs =
      selectTimestamp available startNs := by
  simp only [selectTimestamp, BTreeMap.lastLE_mapValues, BTreeMap.firstGE_mapValues]

theorem putBack_forget (available : BTreeMap UInt64 (List EventRef)) (timestamp : UInt64)
    (bucket : List EventRef) :
    putBack (available.mapValues (List.map EventRef.forget)) timestamp
        (bucket.map EventRef.forget) =
      (putBack available timestamp bucket).mapValues (List.map EventRef.forget) := by
  simp only [putBack, List.isEmpty_map]
  split_ifs
  · rw [BTreeMap.mapValues_erase]
  · rw [BTreeMap.mapValues_insert]

theorem nearestLoop_forget (limit : Nat) (starts : List EventRef) (st : NearestState) :
    nearestLoop limit (starts.map EventRef.forget) st.forget =
      (nearestLoop limit starts st).map NearestState.forget := by
  induction starts generalizing st with
  | nil => rfl
  | cons start rest ih =>
    have hlength : st.forget.pairs.length = st.pairs.length := by simp [NearestState.forget]
    have hselect : selectTimestamp st.forget.available start.forget.timestampNs =
        selectTimestamp st.available start.timestampNs := selectTimestamp_forget _ _
    rw [List.map_cons, nearestLoop, nearestLoop, hlength, hselect]
    split_ifs with hfull
    · rfl
    · cases selectTimestamp st.available start.timestampNs with
      | none => rfl
      | some choice =>
        cases choice with
        | none => simp [NearestState.forget]
        | some selected =>
          have hget : st.forget.available.get? selected =
              (st.available.get? selected).map (List.map EventRef.forget) :=
            BTreeMap.get?_mapValues _ _ _
          simp only [hget]
          cases st.available.get? selected with
          | none => rfl
          | some bucket =>
            simp only [Option.map_some, some_bind, List.getLast?_map]
            cases bucket.getLast? with
            | none => rfl
            | some e =>
              simp only [Option.map_some]
              refine Eq.trans ?_ (ih _)
              simp [NearestState.forget, Pair.forget, ← putBack_forget]

theorem correlateNearest_forget (starts ends : List EventRef) (limit : Option Nat) :
    correlateNearest (starts.map EventRef.forget) (ends.map EventRef.forget) limit =
      (correlateNearest starts ends limit).map Outcome.forget := by
  have hloop := nearestLoop_forget (limit.getD usizeMax) starts ⟨availableEnds ends, [], 0, false⟩
  have hinit : NearestState.forget ⟨availableEnds ends, [], 0, false⟩ =
      ⟨availableEnds (ends.map EventRef.forget), [], 0, false⟩ := by
    simp [NearestState.forget, availableEnds_forget]
  rw [hinit] at hloop
  simp only [correlateNearest, hloop]
  cases nearestLoop (limit.getD usizeMax) starts ⟨availableEnds ends, [], 0, false⟩ with
  | none => rfl
  | some st => simp [nearestOutcome, Outcome.forget, NearestState.forget, Function.comp_def]

/-! ## Call stacks -/

def StackState.forget (st : StackState) : StackState :=
  { st with
    callStacks := st.callStacks.mapValues (List.map EventRef.forget)
    pairs := st.pairs.map Pair.forget }

theorem popStack_forget (callStacks : BTreeMap StackKey (List EventRef)) (key : StackKey) :
    popStack (callStacks.mapValues (List.map EventRef.forget)) key =
      (popStack callStacks key).map
        (Prod.map EventRef.forget (BTreeMap.mapValues (List.map EventRef.forget))) := by
  simp only [popStack, BTreeMap.get?_mapValues]
  cases callStacks.get? key with
  | none => rfl
  | some stack =>
    simp only [Option.map_some, some_bind, List.getLast?_map]
    cases stack.getLast? with
    | none => rfl
    | some top => simp [BTreeMap.mapValues_insert]

theorem stackStep_forget (limit : Nat) (st : StackState) (entry : TimelineEntry) :
    stackStep limit st.forget entry.forget = (stackStep limit st entry).map StackState.forget := by
  obtain ⟨isEnd, ref⟩ := entry
  cases isEnd with
  | false => simp [stackStep, TimelineEntry.forget, StackState.forget, BTreeMap.mapValues_push]
  | true =>
    have hpop : popStack st.forget.callStacks (stackKey ref.event) = _ := popStack_forget _ _
    simp only [stackStep, TimelineEntry.forget, EventRef.event_forget, hpop, if_true]
    cases popStack st.callStacks (stackKey ref.event) with
    | none => rfl
    | some popped =>
      obtain ⟨start, callStacks⟩ := popped
      simp only [Option.map_some, Prod.map_apply, StackState.forget, List.length_map]
      split_ifs
      · simp only [EventRef.timestampNs_forget]
        cases checkedSub ref.timestampNs start.timestampNs with
        | none => rfl
        | some latencyNs => simp [StackState.forget, Pair.forget]
      · rfl

theorem correlateStackNested_forget (starts ends : List EventRef) (limit : Option Nat) :
    correlateStackNested (starts.map EventRef.forget) (ends.map EventRef.forget) limit =
      (correlateStackNested starts ends limit).map Outcome.forget := by
  have htimeline : stackTimeline (starts.map EventRef.forget) (ends.map EventRef.forget) =
      (stackTimeline starts ends).map TimelineEntry.forget := by
    rw [stackTimeline, stackTimeline, timelineEntries_forget, sortByKey_map]
    rfl
  have hloop := foldlM_map_hom (g := StackState.forget)
    (stackStep_forget (limit.getD usizeMax)) (stackTimeline starts ends) ⟨.empty, [], 0⟩
  have hinit : StackState.forget ⟨.empty, [], 0⟩ = ⟨.empty, [], 0⟩ := rfl
  rw [hinit] at hloop
  simp only [correlateStackNested, htimeline, hloop]
  cases (stackTimeline starts ends).foldlM (stackStep (limit.getD usizeMax)) ⟨.empty, [], 0⟩ with
  | none => rfl
  | some st =>
    simp [stackOutcome, Outcome.forget, StackState.forget, map_forget_sortPairs, Function.comp_def]

/-! ## Every policy -/

/-- No pairing algorithm looks at the positions of the events. -/
theorem correlateSelected_forget (starts ends : List EventRef) (policy : MatchPolicy)
    (limit : Option Nat) (lifecycles : LifecycleKinds) :
    correlateSelected (starts.map EventRef.forget) (ends.map EventRef.forget) policy limit
        lifecycles =
      (correlateSelected starts ends policy limit lifecycles).map Outcome.forget := by
  cases policy with
  | exact =>
    simp only [correlateSelected]
    split_ifs
    · exact congrArg some (correlateLifecycle_forget _ starts ends limit)
    · exact congrArg some (correlateLifecycle_forget _ starts ends limit)
    · exact congrArg some (correlateExact_forget starts ends limit)
  | firstAfter => exact correlateFirstAfter_forget starts ends limit
  | nearest => exact correlateNearest_forget starts ends limit
  | stackNested => exact correlateStackNested_forget starts ends limit
  | streamOrder => exact correlateStreamOrder_forget starts ends limit

/-! ## Selections that agree up to positions -/

def Selected.forget (selected : Selected) : Selected :=
  { selected with
    starts := selected.starts.map EventRef.forget
    ends := selected.ends.map EventRef.forget }

theorem checkClockGroup_forget (first : ClockDomain) (refs : List EventRef) (hasNormalized : Bool) :
    checkClockGroup first (refs.map EventRef.forget) hasNormalized =
      checkClockGroup first refs hasNormalized := by
  induction refs generalizing hasNormalized with
  | nil => rfl
  | cons ref rest ih => simp only [List.map_cons, checkClockGroup, EventRef.event_forget, ih]

theorem commonClockDomain_forget (starts ends : List EventRef) :
    commonClockDomain (starts.map EventRef.forget) (ends.map EventRef.forget) =
      commonClockDomain starts ends := by
  rw [commonClockDomain, commonClockDomain, ← List.map_append]
  cases starts ++ ends with
  | nil => rfl
  | cons first rest =>
    simp only [List.map_cons, checkClockGroup_forget, EventRef.event_forget]
    rfl

theorem firstTimestamp_forget (starts ends : List EventRef) :
    firstTimestamp (starts.map EventRef.forget) (ends.map EventRef.forget) =
      firstTimestamp starts ends := by
  cases starts <;> cases ends <;> rfl

theorem filter_timestampNs_forget (refs : List EventRef) (last : UInt64) :
    (refs.map EventRef.forget).filter (fun ref => decide (ref.timestampNs ≤ last)) =
      (refs.filter (fun ref => decide (ref.timestampNs ≤ last))).map EventRef.forget := by
  rw [List.filter_map]
  rfl

theorem applyDurationWindow_forget (starts ends : List EventRef) (duration : Option Nat) :
    applyDurationWindow (starts.map EventRef.forget) (ends.map EventRef.forget) duration =
      (applyDurationWindow starts ends duration).map
        (Prod.map (List.map EventRef.forget) (List.map EventRef.forget)) := by
  cases duration with
  | none => rfl
  | some duration =>
    simp only [applyDurationWindow, firstTimestamp_forget, filter_timestampNs_forget]
    cases firstTimestamp starts ends with
    | none => rfl
    | some first =>
      dsimp only
      split_ifs
      · rfl
      · cases checkedAdd first (UInt64.ofNat duration) <;> rfl

theorem measurementWarnings_forget (options : MeasureOptions) (starts ends : List EventRef) :
    measurementWarnings options (starts.map EventRef.forget) (ends.map EventRef.forget) =
      measurementWarnings options starts ends := by
  simp only [measurementWarnings, ← List.map_append, List.any_map]
  rfl

theorem maximumTimestampError_forget (pairs : List Pair) :
    maximumTimestampError (pairs.map Pair.forget) = maximumTimestampError pairs := by
  rw [maximumTimestampError, maximumTimestampError, List.flatMap_map]
  rfl

theorem report_forget (events : List Event) (options : MeasureOptions) (selected : Selected)
    (outcome : Outcome) :
    report events options selected.forget outcome.forget =
      report events options selected outcome := by
  have hlatencies : outcome.forget.pairs.map Pair.latencyNs = outcome.pairs.map Pair.latencyNs := by
    simp [Outcome.forget, Function.comp_def]
  have hevidence : outcome.forget.pairs.map Pair.toEvidence =
      outcome.pairs.map Pair.toEvidence := by
    simp [Outcome.forget, Function.comp_def]
  have herror := maximumTimestampError_forget outcome.pairs
  have hwarnings := measurementWarnings_forget options selected.starts selected.ends
  have hmatched : outcome.forget.pairs.length = outcome.pairs.length := by simp [Outcome.forget]
  simp only [report, measurementResult, hlatencies, hevidence, hmatched]
  simp only [Outcome.forget, Selected.forget, herror, hwarnings]

/-- A measurement is determined by the selection up to positions. -/
theorem measure_eq_measureSelected_forget (regexNew : RegexEngine) (events : List Event)
    (options : MeasureOptions) :
    measure regexNew events options =
      measureSelected events options ((select regexNew events options).map Selected.forget) := by
  rw [measure]
  cases select regexNew events options with
  | error error => rfl
  | ok selected =>
    have hcorrelate := correlateSelected_forget selected.starts selected.ends options.matchPolicy
      options.samples selected.lifecycles
    show _ = measureSelected events options (.ok selected.forget)
    simp only [measureSelected]
    rw [show correlateSelected selected.forget.starts selected.forget.ends options.matchPolicy
      options.samples selected.forget.lifecycles =
        _ from hcorrelate]
    cases correlateSelected selected.starts selected.ends options.matchPolicy options.samples
        selected.lifecycles with
    | none => rfl
    | some outcome =>
      have hempty : outcome.forget.pairs.isEmpty = outcome.pairs.isEmpty := by
        simp [Outcome.forget]
      simp only [Option.map_some, some_bind, hempty, report_forget]

/-! ## Permuted inputs -/

/-- The selected events, without their positions, are the sorted matching events. -/
theorem map_forget_selectEvents (selector : Selector) (events : List Event) :
    (selectEvents selector events).map EventRef.forget =
      (sortByKey Event.timestampNs (events.filter selector.matchesEvent)).map (⟨0, ·⟩) := by
  have hrefs : ((eventRefs events).filter (fun ref => selector.matchesEvent ref.event)).map
      EventRef.event = events.filter selector.matchesEvent := by
    have hevents : (eventRefs events).map EventRef.event = events := by
      simp [eventRefs, Function.comp_def]
    conv_rhs => rw [← hevents, List.filter_map]
    rfl
  rw [← hrefs, sortByKey_map, List.map_map]
  rfl

section

variable {regexNew : RegexEngine} {events events' : List Event}

def DistinctTimestamps (selector : Selector) (events : List Event) : Prop :=
  ((events.filter selector.matchesEvent).map Event.timestampNs).Nodup

theorem selectEvents_perm {selector : Selector} (hperm : events.Perm events')
    (hdistinct : DistinctTimestamps selector events) :
    (selectEvents selector events).map EventRef.forget =
      (selectEvents selector events').map EventRef.forget := by
  rw [map_forget_selectEvents, map_forget_selectEvents,
    sortByKey_eq_of_perm (hperm.filter _) hdistinct]

theorem collectionEventCounts_perm (hperm : events.Perm events') :
    collectionEventCounts events = collectionEventCounts events' := by
  simp only [collectionEventCounts, (hperm.filter _).length_eq, hperm.length_eq]

/-- The selections of permuted inputs agree up to positions. -/
theorem select_perm {options : MeasureOptions} (hperm : events.Perm events')
    (hstarts : ∀ selector, Selector.parse regexNew options.startSelector = .ok selector →
      DistinctTimestamps selector events)
    (hends : ∀ selector, Selector.parse regexNew options.endSelector = .ok selector →
      DistinctTimestamps selector events) :
    (select regexNew events options).map Selected.forget =
      (select regexNew events' options).map Selected.forget := by
  have hcapture : checkCapture events options = checkCapture events' options := by
    simp only [checkCapture, hperm.length_eq]
  simp only [select, hcapture]
  -- the checks before the selection do not read the events
  cases validateOptions options with
  | error error => rfl
  | ok _ =>
  cases checkCapture events' options with
  | error error => rfl
  | ok _ =>
  cases hstart : Selector.parse regexNew options.startSelector with
  | error error => rfl
  | ok startSelector =>
  cases hend : Selector.parse regexNew options.endSelector with
  | error error => rfl
  | ok endSelector =>
  simp only [ok_bind]
  cases validatePolicy startSelector endSelector options.matchPolicy with
  | error error => rfl
  | ok _ =>
  have hstartEvents := selectEvents_perm hperm (hstarts startSelector hstart)
  have hendEvents := selectEvents_perm hperm (hends endSelector hend)
  have hclock : commonClockDomain (selectEvents startSelector events)
      (selectEvents endSelector events) = commonClockDomain (selectEvents startSelector events')
        (selectEvents endSelector events') := by
    rw [← commonClockDomain_forget, hstartEvents, hendEvents, commonClockDomain_forget]
  have hwindow := applyDurationWindow_forget (selectEvents startSelector events)
    (selectEvents endSelector events) options.duration
  rw [hstartEvents, hendEvents, applyDurationWindow_forget] at hwindow
  simp only [ok_bind, hclock]
  cases commonClockDomain (selectEvents startSelector events') (selectEvents endSelector events') with
  | error error => rfl
  | ok clockDomain =>
  -- what is kept of a window without its positions depends on the window without its positions
  let kept (window : List EventRef × List EventRef) : Selected :=
    ⟨startSelector, endSelector, window.1, window.2, clockDomain⟩
  have hkept : ∀ window : Except MeasureError (List EventRef × List EventRef),
      (window >>= fun window => pure (kept window)).map Selected.forget =
      (window.map (Prod.map (List.map EventRef.forget) (List.map EventRef.forget))).map kept := by
    intro window
    cases window <;> rfl
  rw [ok_bind, ok_bind, hkept, hkept, hwindow]

end

/-- `measure` does not depend on the order of its input: permuted events give the same result or the
    same error, where the selected starts have distinct timestamps and so have the selected ends. -/
theorem measure_perm (regexNew : RegexEngine) (events events' : List Event)
    (options : MeasureOptions)
    (hstarts : ∀ selector, Selector.parse regexNew options.startSelector = .ok selector →
      DistinctTimestamps selector events)
    (hends : ∀ selector, Selector.parse regexNew options.endSelector = .ok selector →
      DistinctTimestamps selector events)
    (hperm : events.Perm events') :
    measure regexNew events options = measure regexNew events' options := by
  rw [measure_eq_measureSelected_forget, measure_eq_measureSelected_forget,
    select_perm hperm hstarts hends]
  cases (select regexNew events' options).map Selected.forget with
  | error error => rfl
  | ok selected => simp only [measureSelected, report, collectionEventCounts_perm hperm]

/-- A read whose exit comes first in the input. -/
theorem measure_perm_read : measure noRegex
        [readEvent .syscallExit 25, readEvent .syscallEntry 10] readOptions =
      measure noRegex
        [readEvent .syscallEntry 10, readEvent .syscallExit 25] readOptions := by
  have hdistinct : ∀ selector : Selector,
      DistinctTimestamps selector [readEvent .syscallExit 25, readEvent .syscallEntry 10] := by
    intro selector
    have hnodup : ([readEvent .syscallExit 25, readEvent .syscallEntry 10].map
        Event.timestampNs).Nodup := by decide
    exact hnodup.sublist (List.filter_sublist.map _)
  exact measure_perm _ _ _ _ (fun selector _ => hdistinct selector)
    (fun selector _ => hdistinct selector) (List.Perm.swap _ _ _)

end Xprobe.Correlator
