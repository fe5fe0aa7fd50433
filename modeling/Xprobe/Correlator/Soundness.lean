import Xprobe.Correlator.Measure

/-!
# Soundness of a measurement

Every pair that `measure` reports as evidence joins two selected input events inside the duration
window and satisfies the relation of the policy; no event is used twice on one side, and the sample
limit is kept. The six pairing algorithms meet here: each is a sound pairing for its own relation,
and `PolicyPair` says which relation belongs to which policy.
-/

namespace Xprobe.Correlator

open Foundation Protocol

/-! ## The relation of a policy -/

def PolicyKey (policy : MatchPolicy) (lifecycles : LifecycleKinds) (startEvent endEvent : Event) :
    Prop :=
  match policy with
  | .exact =>
    if lifecycles.syscall || lifecycles.pythonGc then
      startEvent.pid = endEvent.pid ∧ startEvent.tid = endEvent.tid ∧
        startEvent.processStartTime = endEvent.processStartTime
    else ∃ key, correlationKey startEvent = some key ∧ correlationKey endEvent = some key
  | .stackNested => startEvent.pid = endEvent.pid ∧ startEvent.tid = endEvent.tid
  | .streamOrder => ∃ key, streamKey startEvent = some key ∧ streamKey endEvent = some key
  | .firstAfter => True
  | .nearest => True

def PolicyLatency (policy : MatchPolicy) (pair : Pair) : Prop :=
  match policy with
  | .nearest => pair.Absolute
  | _ => pair.Forward

/-- The relation of a policy between the two events of a pair. -/
def PolicyPair (policy : MatchPolicy) (lifecycles : LifecycleKinds) (pair : Pair) : Prop :=
  PolicyKey policy lifecycles pair.startEvent.event pair.endEvent.event ∧
    PolicyLatency policy pair

variable {events : List Event} {starts ends : List EventRef}

theorem PairsSound.mono {R R' : Pair → Prop} {pairs : List Pair}
    (h : PairsSound R starts ends pairs) (himp : ∀ pair, R pair → R' pair) :
    PairsSound R' starts ends pairs :=
  ⟨h.starts_used, h.ends_used, fun pair hpair => himp pair (h.related pair hpair)⟩

private theorem length_le_of_getD {limit : Option Nat} {length n : Nat}
    (h : length ≤ limit.getD usizeMax) (hn : limit = some n) : length ≤ n := by
  subst hn
  exact h

/-- Every pairing algorithm finishes, is sound for the relation of its policy and keeps the
    limit. -/
theorem correlateSelected_sound (starts ends : List EventRef) (policy : MatchPolicy)
    (limit : Option Nat) (lifecycles : LifecycleKinds) :
    ∃ outcome, correlateSelected starts ends policy limit lifecycles = some outcome ∧
      PairsSound (PolicyPair policy lifecycles) starts ends outcome.pairs ∧
      ∀ n, limit = some n → outcome.pairs.length ≤ n := by
  cases policy with
  | exact =>
    unfold correlateSelected
    -- the lifecycles are tried in the order of the source: threads, NVTX, then keys
    by_cases hthread : (lifecycles.syscall || lifecycles.pythonGc) = true
    · refine ⟨_, if_pos hthread, ?_, fun n hn => length_truncate_le hn _⟩
      refine (correlateLifecycle_sound _ starts ends limit).mono ?_
      rintro pair ⟨⟨key, hs, he⟩, hforward⟩
      refine ⟨?_, hforward⟩
      simp only [PolicyKey, if_pos hthread]
      exact threadKey_eq_iff.mp (Option.some.inj (hs.trans he.symm))
    · have hkey : ∀ pair : Pair, pair.SameKey correlationKey ∧ pair.Forward →
          PolicyPair .exact lifecycles pair := by
        rintro pair ⟨hsame, hforward⟩
        refine ⟨?_, hforward⟩
        simp only [PolicyKey, if_neg hthread]
        exact hsame
      by_cases hnvtx : lifecycles.nvtx = true
      · refine ⟨_, (if_neg hthread).trans (if_pos hnvtx), ?_, fun n hn => length_truncate_le hn _⟩
        exact (correlateLifecycle_sound correlationKey starts ends limit).mono hkey
      · refine ⟨_, (if_neg hthread).trans (if_neg hnvtx), ?_, fun n hn => length_truncate_le hn _⟩
        exact (correlateExact_sound starts ends limit).mono hkey
  | firstAfter =>
    obtain ⟨outcome, hrun, hsound, hlen⟩ := correlateFirstAfter_sound starts ends limit
    exact ⟨outcome, hrun, hsound.mono fun pair h => ⟨trivial, h⟩, fun n => length_le_of_getD hlen⟩
  | nearest =>
    obtain ⟨outcome, hrun, hsound, hlen⟩ := correlateNearest_sound starts ends limit
    exact ⟨outcome, hrun, hsound.mono fun pair h => ⟨trivial, h⟩, fun n => length_le_of_getD hlen⟩
  | stackNested =>
    obtain ⟨outcome, hrun, hsound, hlen⟩ := correlateStackNested_sound starts ends limit
    refine ⟨outcome, hrun, hsound.mono ?_, fun n => length_le_of_getD hlen⟩
    rintro pair ⟨⟨key, hs, he⟩, hforward⟩
    exact ⟨stackKey_eq_iff.mp (Option.some.inj (hs.trans he.symm)), hforward⟩
  | streamOrder =>
    obtain ⟨outcome, hrun, hsound, hlen⟩ := correlateStreamOrder_sound starts ends limit
    exact ⟨outcome, hrun, hsound, hlen⟩

/-! ## Selected events -/

variable {ref : EventRef}

theorem mem_eventRefs (h : ref ∈ eventRefs events) : events[ref.index]? = some ref.event := by
  obtain ⟨⟨event, index⟩, hmem, rfl⟩ := List.mem_map.mp h
  exact List.mem_zipIdx_iff_getElem?.mp hmem

theorem eventRefs_index_nodup (events : List Event) :
    ((eventRefs events).map EventRef.index).Nodup := by
  have hrange : (eventRefs events).map EventRef.index = List.range' 0 events.length := by
    rw [eventRefs, List.map_map]
    exact List.zipIdx_map_snd 0 events
  rw [hrange]
  exact List.nodup_range'

theorem selectEvents_index_nodup (selector : Selector) (events : List Event) :
    ((selectEvents selector events).map EventRef.index).Nodup := by
  have hperm := (sortByKey_perm EventRef.timestampNs
    ((eventRefs events).filter (fun ref => selector.matchesEvent ref.event))).map EventRef.index
  refine hperm.nodup_iff.mpr ?_
  exact (eventRefs_index_nodup events).sublist (List.filter_sublist.map EventRef.index)

theorem mem_selectEvents {selector : Selector} : ref ∈ selectEvents selector events ↔
      ref ∈ eventRefs events ∧ selector.matchesEvent ref.event = true := by
  rw [selectEvents, mem_sortByKey, List.mem_filter]

theorem exists_mem_selectEvents {selector : Selector} {event : Event} (hmem : event ∈ events)
    (hmatch : selector.matchesEvent event = true) :
    ∃ ref ∈ selectEvents selector events, ref.event = event := by
  obtain ⟨index, hindex⟩ := List.mem_iff_getElem?.mp hmem
  refine ⟨⟨index, event⟩, mem_selectEvents.mpr ⟨?_, hmatch⟩, rfl⟩
  exact List.mem_map.mpr ⟨(event, index), List.mem_zipIdx_iff_getElem?.mpr hindex, rfl⟩

theorem selectEvents_sorted (selector : Selector) (events : List Event) :
    (selectEvents selector events).Pairwise (fun a b => a.timestampNs ≤ b.timestampNs) :=
  sortByKey_sorted _ _

/-! ## The duration window -/

private theorem head_le_of_sorted {first : EventRef} {rest : List EventRef}
    (hsorted : (first :: rest).Pairwise (fun a b => a.timestampNs ≤ b.timestampNs))
    (hmem : ref ∈ first :: rest) : first.timestampNs ≤ ref.timestampNs := by
  rcases List.mem_cons.mp hmem with rfl | hrest
  · exact le_refl _
  · exact (List.pairwise_cons.mp hsorted).1 ref hrest

/-- The first timestamp of two sorted lists is the least timestamp in them. -/
theorem firstTimestamp_isLeast {first : UInt64}
    (hstarts : starts.Pairwise (fun a b => a.timestampNs ≤ b.timestampNs))
    (hends : ends.Pairwise (fun a b => a.timestampNs ≤ b.timestampNs))
    (h : firstTimestamp starts ends = some first) :
    (∃ ref ∈ starts ++ ends, ref.timestampNs = first) ∧
      ∀ ref ∈ starts ++ ends, first ≤ ref.timestampNs := by
  cases starts with
  | nil =>
    cases ends with
    | nil => cases h
    | cons e es =>
      cases h
      exact ⟨⟨e, List.mem_cons_self, rfl⟩, fun ref href => head_le_of_sorted hends href⟩
  | cons s ss =>
    cases ends with
    | nil =>
      cases h
      rw [List.append_nil]
      exact ⟨⟨s, List.mem_cons_self, rfl⟩, fun ref href => head_le_of_sorted hstarts href⟩
    | cons e es =>
      cases h
      refine ⟨?_, ?_⟩
      · rcases min_choice s.timestampNs e.timestampNs with hmin | hmin
        · exact ⟨s, List.mem_append_left _ List.mem_cons_self, hmin.symm⟩
        · exact ⟨e, List.mem_append_right _ List.mem_cons_self, hmin.symm⟩
      · intro ref href
        rcases List.mem_append.mp href with hs | he
        · exact le_trans (min_le_left _ _) (head_le_of_sorted hstarts hs)
        · exact le_trans (min_le_right _ _) (head_le_of_sorted hends he)

/-- The window keeps a part of each list, and what it keeps lies at most the duration after the
    first timestamp. -/
theorem applyDurationWindow_ok {starts' ends' : List EventRef} {duration : Option Nat}
    (h : applyDurationWindow starts ends duration = .ok (starts', ends')) :
    starts'.Sublist starts ∧ ends'.Sublist ends ∧
      ∀ nanos, duration = some nanos → ∀ ref ∈ starts' ++ ends',
        ∃ first, firstTimestamp starts ends = some first ∧
          ref.timestampNs.toNat ≤ first.toNat + nanos := by
  unfold applyDurationWindow at h
  split at h
  · cases h
    exact ⟨List.Sublist.refl _, List.Sublist.refl _, fun nanos hnanos => by cases hnanos⟩
  · rename_i duration
    split at h
    · -- no event was selected at all
      rename_i hnone
      cases h
      refine ⟨List.Sublist.refl _, List.Sublist.refl _, ?_⟩
      intro nanos _ ref href
      cases starts <;> cases ends <;> simp [firstTimestamp] at hnone href
    · rename_i first hfirst
      split_ifs at h with hrange
      · cases h
      · split at h
        · cases h
        · rename_i last hlast
          cases h
          refine ⟨List.filter_sublist, List.filter_sublist, ?_⟩
          intro nanos hnanos ref href
          cases hnanos
          -- what is kept is not after the end of the window, which is in range
          have hle : ref.timestampNs ≤ last := by
            rcases List.mem_append.mp href with hs | he
            · simpa using (List.mem_filter.mp hs).2
            · simpa using (List.mem_filter.mp he).2
          refine ⟨first, hfirst, ?_⟩
          have hsum := toNat_of_checkedAdd hlast
          rw [UInt64.toNat_ofNat_of_lt' (not_le.mp hrange)] at hsum
          rw [← hsum]
          exact UInt64.le_iff_toNat_le.mp hle

/-! ## The pairs behind the evidence -/

def evidencePairs (regexNew : RegexEngine) (events : List Event) (options : MeasureOptions) :
    List Pair :=
  match select regexNew events options with
  | .error _ => []
  | .ok selected =>
    match correlateSelected selected.starts selected.ends options.matchPolicy options.samples
        selected.lifecycles with
    | none => []
    | some outcome => outcome.pairs

variable {regexNew : RegexEngine} {options : MeasureOptions}

theorem evidencePairs_eq {selected : Selected} {outcome : Outcome}
    (hselect : SelectOk regexNew events options selected)
    (hcorrelate : correlateSelected selected.starts selected.ends options.matchPolicy
      options.samples selected.lifecycles = some outcome) :
    evidencePairs regexNew events options = outcome.pairs := by
  simp only [evidencePairs, select_of_selectOk hselect, hcorrelate]

def selectedTimestamps (startSelector endSelector : Selector) (events : List Event) : Set UInt64 :=
  { timestamp | ∃ event ∈ events,
    (startSelector.matchesEvent event = true ∨ endSelector.matchesEvent event = true) ∧
      event.timestampNs = timestamp }

/-- The timestamp lies in the window of a duration that opens at the first selected timestamp. -/
def InWindow (startSelector endSelector : Selector) (events : List Event) (duration : Nat)
    (timestamp : UInt64) : Prop :=
  ∃ first, IsLeast (selectedTimestamps startSelector endSelector events) first ∧
    first ≤ timestamp ∧ timestamp.toNat ≤ first.toNat + duration

/-- What a pair of the evidence satisfies. -/
structure SoundPair (events : List Event) (options : MeasureOptions)
    (startSelector endSelector : Selector) (pair : Pair) : Prop where
  start_input : events[pair.startEvent.index]? = some pair.startEvent.event
  end_input : events[pair.endEvent.index]? = some pair.endEvent.event
  start_selected : startSelector.matchesEvent pair.startEvent.event = true
  end_selected : endSelector.matchesEvent pair.endEvent.event = true
  window : ∀ duration, options.duration = some duration →
    InWindow startSelector endSelector events duration pair.startEvent.timestampNs ∧
      InWindow startSelector endSelector events duration pair.endEvent.timestampNs
  key : PolicyKey options.matchPolicy (lifecycleKinds startSelector endSelector)
    pair.startEvent.event pair.endEvent.event
  latency : PolicyLatency options.matchPolicy pair

private theorem inWindow_of_mem {startSelector endSelector : Selector} {duration : Option Nat}
    {nanos : Nat}
    (hwindow : applyDurationWindow (selectEvents startSelector events)
      (selectEvents endSelector events) duration = .ok (starts, ends))
    (hnanos : duration = some nanos) (hmem : ref ∈ starts ++ ends) :
    InWindow startSelector endSelector events nanos ref.timestampNs := by
  obtain ⟨hsubStarts, hsubEnds, hbound⟩ := applyDurationWindow_ok hwindow
  obtain ⟨first, hfirst, hle⟩ := hbound nanos hnanos ref hmem
  obtain ⟨⟨least, hleastMem, hleast⟩, hlower⟩ := firstTimestamp_isLeast
    (selectEvents_sorted startSelector events) (selectEvents_sorted endSelector events) hfirst
  have hselected : ∀ r ∈ selectEvents startSelector events ++ selectEvents endSelector events,
      r.timestampNs ∈ selectedTimestamps startSelector endSelector events := by
    intro r hr
    rcases List.mem_append.mp hr with hs | he
    · obtain ⟨hinput, hmatch⟩ := mem_selectEvents.mp hs
      exact ⟨r.event, List.mem_of_getElem? (mem_eventRefs hinput), Or.inl hmatch, rfl⟩
    · obtain ⟨hinput, hmatch⟩ := mem_selectEvents.mp he
      exact ⟨r.event, List.mem_of_getElem? (mem_eventRefs hinput), Or.inr hmatch, rfl⟩
  refine ⟨first, ⟨hleast ▸ hselected least hleastMem, ?_⟩, ?_, hle⟩
  · rintro timestamp ⟨event, hevent, hmatch, rfl⟩
    rcases hmatch with hmatch | hmatch
    · obtain ⟨r, hr, rfl⟩ := exists_mem_selectEvents hevent hmatch
      exact hlower r (List.mem_append_left _ hr)
    · obtain ⟨r, hr, rfl⟩ := exists_mem_selectEvents hevent hmatch
      exact hlower r (List.mem_append_right _ hr)
  · exact hlower ref ((hsubStarts.append hsubEnds).subset hmem)

private theorem index_nodup_of_subperm {used selected : List EventRef}
    (h : used.Subperm selected) (hnodup : (selected.map EventRef.index).Nodup) :
    (used.map EventRef.index).Nodup := by
  obtain ⟨l, hperm, hsub⟩ := h
  exact (hperm.map EventRef.index).nodup_iff.mp (hnodup.sublist (hsub.map EventRef.index))

/-- Every measurement that succeeds reports sound evidence: its pairs join selected input events
    inside the window, share the key of the policy, carry the latency of their two timestamps, use
    no input position twice on one side, and are as many as reported, within the sample limit. -/
theorem measure_evidence_sound (regexNew : RegexEngine) (events : List Event)
    (options : MeasureOptions) (result : MeasurementResult)
    (h : measure regexNew events options = some (.ok result)) :
    ∃ (startSelector endSelector : Selector) (pairs : List Pair),
      Selector.parse regexNew options.startSelector = .ok startSelector ∧
      Selector.parse regexNew options.endSelector = .ok endSelector ∧
      result.evidence = pairs.map Pair.toEvidence ∧
      (∀ pair ∈ pairs, SoundPair events options startSelector endSelector pair) ∧
      (pairs.map (fun pair => pair.startEvent.index)).Nodup ∧
      (pairs.map (fun pair => pair.endEvent.index)).Nodup ∧
      result.measurement.samples.matched = result.evidence.length ∧
      ∀ n, options.samples = some n → result.measurement.samples.matched ≤ n := by
  obtain ⟨selected, outcome, hselect, hcorrelate, -, hreport⟩ := measure_eq_ok h
  obtain ⟨hevidence, hmatched⟩ := report_eq_some hreport
  obtain ⟨outcome', hrun, hsound, hlimit⟩ := correlateSelected_sound selected.starts selected.ends
    options.matchPolicy options.samples selected.lifecycles
  cases hcorrelate.symm.trans hrun
  obtain ⟨hsubStarts, hsubEnds, -⟩ := applyDurationWindow_ok hselect.window_ok
  refine ⟨selected.startSelector, selected.endSelector, outcome.pairs, hselect.start_parse,
    hselect.end_parse, hevidence, ?_, ?_, ?_, ?_, ?_⟩
  · intro pair hpair
    have hstart : pair.startEvent ∈ selected.starts :=
      hsound.starts_used.subset (List.mem_map_of_mem hpair)
    have hend : pair.endEvent ∈ selected.ends :=
      hsound.ends_used.subset (List.mem_map_of_mem hpair)
    obtain ⟨hstartInput, hstartMatch⟩ := mem_selectEvents.mp (hsubStarts.subset hstart)
    obtain ⟨hendInput, hendMatch⟩ := mem_selectEvents.mp (hsubEnds.subset hend)
    refine ⟨mem_eventRefs hstartInput, mem_eventRefs hendInput, hstartMatch, hendMatch, ?_,
      (hsound.related pair hpair).1, (hsound.related pair hpair).2⟩
    intro duration hduration
    exact ⟨inWindow_of_mem hselect.window_ok hduration (List.mem_append_left _ hstart),
      inWindow_of_mem hselect.window_ok hduration (List.mem_append_right _ hend)⟩
  · have hnodup := index_nodup_of_subperm (hsound.starts_used.trans hsubStarts.subperm)
      (selectEvents_index_nodup selected.startSelector events)
    rwa [List.map_map] at hnodup
  · have hnodup := index_nodup_of_subperm (hsound.ends_used.trans hsubEnds.subperm)
      (selectEvents_index_nodup selected.endSelector events)
    rwa [List.map_map] at hnodup
  · rw [hmatched, hevidence, List.length_map]
  · intro n hn
    rw [hmatched]
    exact hlimit n hn

/-! ### A measurement of one system call -/

/-- An event of the system call `read`. -/
def readEvent (eventType : EventType) (timestampNs : UInt64) : Event :=
  { schemaVersion := .current
    sessionId := "capture"
    eventId := "evt"
    sequence := timestampNs
    source := .ebpf
    eventType
    pid := 7
    tid := 7
    cpu := none
    timestampRaw := timestampNs
    timestampNs
    clockDomain := .hostMonotonic
    timestampErrorNs := none
    processStartTime := some 1
    host := some
      { probeKind := .syscall
        binaryPath := none
        buildId := none
        symbol := some "read"
        symbolDemangled := none
        offset := none
        returnValue := none
        arguments := [] }
    cuda := none
    nvtx := none
    attributes := .empty }

/-- Options that measure `read` from entry to exit. -/
def readOptions : MeasureOptions :=
  { sessionId := "session"
    name := none
    startSelector := "syscall:read:entry"
    endSelector := "syscall:read:exit"
    matchPolicy := .exact
    samples := some 5
    duration := some 100
    maxEvents := 10
    droppedEvents := 0 }

def noRegex : RegexEngine := fun _ => .error "no regular expressions"

theorem measure_evidence_sound_read : ∃ result, measure noRegex
        [readEvent .syscallEntry 10, readEvent .syscallExit 25] readOptions = some (.ok result) ∧
      result.measurement.samples.matched = result.evidence.length ∧
      result.measurement.samples.matched ≤ 5 := by
  obtain ⟨result, h⟩ : ∃ result, measure noRegex
      [readEvent .syscallEntry 10, readEvent .syscallExit 25] readOptions = some (.ok result) :=
    exists_ok_of_isOk (by decide)
  obtain ⟨-, -, -, -, -, -, -, -, -, hmatched, hlimit⟩ := measure_evidence_sound _ _ _ _ h
  exact ⟨result, h, hmatched, hlimit 5 rfl⟩

end Xprobe.Correlator
