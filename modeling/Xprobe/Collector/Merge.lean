import Xprobe.Collector.Completed

/-!
# What a merge keeps

A merge that succeeds is described by its inputs: `MergedFrom` says how the counters and the flags of
the inputs are combined, and the events are those of all inputs, sorted by time and numbered again.
A stream that a merge has produced is merged to itself (`merge_merged`), which is what makes an
exported stream a faithful input.
-/

namespace Xprobe.Collector

open Foundation Protocol Cupti

/-! ## Sums of counters -/

/-- The sum of a counter, without a bound. -/
def total {α : Type} (counter : α → UInt64) (l : List α) : Nat :=
  (l.map (fun a => (counter a).toNat)).sum

@[simp] theorem total_nil {α : Type} (counter : α → UInt64) : total counter [] = 0 := rfl

@[simp] theorem total_cons {α : Type} (counter : α → UInt64) (a : α) (l : List α) :
    total counter (a :: l) = (counter a).toNat + total counter l := by
  simp [total]

@[simp] theorem total_append {α : Type} (counter : α → UInt64) (l l' : List α) :
    total counter (l ++ l') = total counter l + total counter l' := by
  simp [total]

theorem addCounter_eq_ok {a b sum : UInt64} (h : addCounter a b = .ok sum) :
    sum.toNat = a.toNat + b.toNat :=
  toNat_of_checkedAdd (okOr_eq_ok_iff.mp h)

/-! ## The combined statistics -/

def statisticsOf (captures : List CompletedCapture) : List CompletedCuptiStatistics :=
  captures.filterMap CompletedCapture.cupti

/-- Statistics that stand for several. -/
structure Summarizes (statistics : List CompletedCuptiStatistics)
    (summary : CompletedCuptiStatistics) : Prop where
  complete : summary.complete = statistics.all CompletedCuptiStatistics.complete
  recordCapacity : summary.recordCapacity.toNat =
    total CompletedCuptiStatistics.recordCapacity statistics
  observedRecords : summary.observedRecords.toNat =
    total CompletedCuptiStatistics.observedRecords statistics
  droppedRecords : summary.droppedRecords.toNat =
    total CompletedCuptiStatistics.droppedRecords statistics

theorem summarizes_singleton (cupti : CompletedCuptiStatistics) : Summarizes [cupti] cupti where
  complete := by simp
  recordCapacity := by simp
  observedRecords := by simp
  droppedRecords := by simp

/-- The statistics so far: none before the first ones, then their summary. -/
def Combined (statistics : List CompletedCuptiStatistics) : Option CompletedCuptiStatistics → Prop
  | none => statistics = []
  | some summary => statistics ≠ [] ∧ Summarizes statistics summary

theorem combined_mergeStatistics {statistics : List CompletedCuptiStatistics}
    {existing capture merged : Option CompletedCuptiStatistics}
    (h : mergeStatistics existing capture = .ok merged) (hcombined : Combined statistics existing) :
    Combined (statistics ++ capture.toList) merged := by
  cases capture with
  | none =>
    rw [mergeStatistics] at h
    cases h
    simpa using hcombined
  | some cupti =>
    cases existing with
    | none =>
      rw [mergeStatistics] at h
      cases h
      have hempty : statistics = [] := hcombined
      rw [hempty]
      exact ⟨by simp, summarizes_singleton cupti⟩
    | some existing =>
      obtain ⟨recordCapacity, hcapacity, h⟩ := of_bind h
      obtain ⟨observedRecords, hobserved, h⟩ := of_bind h
      obtain ⟨droppedRecords, hdropped, h⟩ := of_bind h
      cases h
      obtain ⟨-, hsummary⟩ := hcombined
      refine ⟨by simp, ?_, ?_, ?_, ?_⟩
      · simp [hsummary.complete]
      · simp [addCounter_eq_ok hcapacity, hsummary.recordCapacity]
      · simp [addCounter_eq_ok hobserved, hsummary.observedRecords]
      · simp [addCounter_eq_ok hdropped, hsummary.droppedRecords]

/-! ## The loop over the captures -/

/-- How a merge combines the counters and the flags of its inputs. -/
structure MergedFrom (captures : List CompletedCapture) (merged : CompletedCapture) : Prop where
  droppedRecords : merged.droppedRecords.toNat = total CompletedCapture.droppedRecords captures
  unknownRecords : merged.unknownRecords.toNat = total CompletedCapture.unknownRecords captures
  recordLimitReached : merged.recordLimitReached =
    (captures.map CompletedCapture.recordLimitReached).foldl optionMax none
  captureFailed : merged.captureFailed = captures.any CompletedCapture.captureFailed
  cupti : Combined (statisticsOf captures) merged.cupti

/-- What the loop of `merge` has gathered from some captures. -/
structure Gathered (captures : List CompletedCapture) (state : MergeState) : Prop where
  merged : MergedFrom captures state.merged
  events : state.merged.events = captures.flatMap CompletedCapture.events
  targetPid : ∀ event ∈ state.merged.events, state.targetPid = some event.pid

theorem gathered_nil : Gathered [] { merged := emptyCapture, targetPid := none } where
  merged := ⟨rfl, rfl, rfl, rfl, rfl⟩
  events := rfl
  targetPid event hevent := by cases hevent

variable {captures : List CompletedCapture} {sessionId : String} {state state' : MergeState}

theorem pushEvents_cons_eq_ok {event : Event} {rest : List Event}
    (h : pushEvents state (event :: rest) = .ok state') :
    state.targetPid.getD event.pid = event.pid ∧
      pushEvents
        { merged := { state.merged with events := state.merged.events ++ [event] }
          targetPid := some event.pid } rest = .ok state' := by
  rw [pushEvents] at h
  cases htarget : state.targetPid with
  | none =>
    rw [htarget] at h
    exact ⟨rfl, h⟩
  | some expected =>
    rw [htarget] at h
    obtain ⟨_, hexpected, h⟩ := of_bind h
    have hpid : event.pid = expected := ensure_eq_ok_iff.mp hexpected
    rw [hpid]
    exact ⟨rfl, h⟩

variable {events : List Event}

/-- Events that were taken over are all of the expected process. -/
theorem pushEvents_eq_ok (h : pushEvents state events = .ok state')
    (hpid : ∀ event ∈ state.merged.events, state.targetPid = some event.pid) :
    state'.merged = { state.merged with events := state.merged.events ++ events } ∧
      ∀ event ∈ state'.merged.events, state'.targetPid = some event.pid := by
  induction events generalizing state with
  | nil =>
    rw [pushEvents] at h
    cases h
    exact ⟨by simp, hpid⟩
  | cons event rest ih =>
    obtain ⟨hknown, h⟩ := pushEvents_cons_eq_ok h
    -- from here on the process of this event is expected, and it is the one of those before
    obtain ⟨hmerged, hpid'⟩ := ih h (by
      intro other hother
      rcases List.mem_append.mp hother with hold | hnew
      · rw [hpid other hold] at hknown
        exact congrArg some hknown.symm
      · rw [List.mem_singleton.mp hnew])
    refine ⟨?_, hpid'⟩
    rw [hmerged]
    simp

theorem Gathered.mergeCapture (hgathered : Gathered captures state) {capture : CompletedCapture}
    (h : mergeCapture state capture = .ok state') : Gathered (captures ++ [capture]) state' := by
  obtain ⟨droppedRecords, hdropped, h⟩ := of_bind h
  obtain ⟨unknownRecords, hunknown, h⟩ := of_bind h
  obtain ⟨cupti, hcupti, h⟩ := of_bind h
  obtain ⟨hmerged, hpid⟩ := pushEvents_eq_ok h hgathered.targetPid
  have hstatistics : statisticsOf (captures ++ [capture]) =
      statisticsOf captures ++ capture.cupti.toList := by
    cases hcapture : capture.cupti <;> simp [statisticsOf, hcapture]
  refine ⟨?_, ?_, hpid⟩
  · rw [hmerged]
    refine ⟨?_, ?_, ?_, ?_, ?_⟩
    · simp [addCounter_eq_ok hdropped, hgathered.merged.droppedRecords]
    · simp [addCounter_eq_ok hunknown, hgathered.merged.unknownRecords]
    · simp [hgathered.merged.recordLimitReached]
    · simp [hgathered.merged.captureFailed]
    · rw [hstatistics]
      exact combined_mergeStatistics hcupti hgathered.merged.cupti
  · rw [hmerged]
    simp [hgathered.events]

theorem Gathered.foldlM {rest : List CompletedCapture} (hgathered : Gathered captures state)
    (h : rest.foldlM Collector.mergeCapture state = .ok state') :
    Gathered (captures ++ rest) state' := by
  induction rest generalizing captures state with
  | nil =>
    cases h
    simpa using hgathered
  | cons capture rest ih =>
    rw [List.foldlM_cons] at h
    obtain ⟨next, hnext, h⟩ := of_bind h
    simpa using ih (hgathered.mergeCapture hnext) h

/-! ## The merge -/

theorem length_le_of_renumberEvents {index : Nat} {result : List Event}
    (h : renumberEvents sessionId index events = .ok result) (hindex : index ≤ 2 ^ 64) :
    index + events.length ≤ 2 ^ 64 := by
  induction events generalizing index result with
  | nil => simpa using hindex
  | cons event rest ih =>
    rw [renumberEvents] at h
    obtain ⟨_, hlt, h⟩ := of_bind h
    obtain ⟨others, hothers, -⟩ := of_bind h
    have hrest := ih hothers (ensure_eq_ok_iff.mp hlt)
    rw [List.length_cons]
    omega

structure MergeOk (captures : List CompletedCapture) (sessionId : String)
    (merged : CompletedCapture) : Prop where
  from_captures : MergedFrom captures merged
  events : merged.events = renumbered sessionId
    (sortByKey Event.timestampNs (captures.flatMap CompletedCapture.events))
  length_le : (captures.flatMap CompletedCapture.events).length ≤ 2 ^ 64
  pid : ∃ pid, ∀ event ∈ captures.flatMap CompletedCapture.events, event.pid = pid

variable {merged : CompletedCapture}

theorem merge_eq_ok (h : merge captures sessionId = .ok merged) :
    MergeOk captures sessionId merged := by
  obtain ⟨state, hstate, h⟩ := of_bind h
  obtain ⟨events, hevents, h⟩ := of_bind h
  cases h
  have hgathered : Gathered captures state := by simpa using gathered_nil.foldlM hstate
  have hlength := length_le_of_renumberEvents hevents (Nat.zero_le _)
  rw [length_sortByKey, Nat.zero_add] at hlength
  rw [renumberEvents_zero (by rw [length_sortByKey]; exact hlength)] at hevents
  cases hevents
  rw [hgathered.events] at hlength
  refine ⟨?_, by rw [← hgathered.events], hlength, ?_⟩
  · obtain ⟨hdropped, hunknown, hlimit, hfailed, hcupti⟩ := hgathered.merged
    exact ⟨hdropped, hunknown, hlimit, hfailed, hcupti⟩
  · refine ⟨state.targetPid.getD 0, fun event hevent => ?_⟩
    rw [← hgathered.events] at hevent
    rw [hgathered.targetPid event hevent]
    rfl

theorem timestampNs_renumbered (sessionId : String) (events : List Event) :
    (renumbered sessionId events).map Event.timestampNs = events.map Event.timestampNs := by
  apply List.ext_getElem
  · simp [renumbered]
  · intro i _ _
    simp [renumbered, renumber, numbered]

theorem sortedBy_renumbered (h : SortedBy Event.timestampNs events) :
    SortedBy Event.timestampNs (renumbered sessionId events) := by
  rw [SortedBy, ← List.pairwise_map, timestampNs_renumbered, List.pairwise_map]
  exact h

theorem renumbered_renumbered (sessionId sessionId' : String) (events : List Event) :
    renumbered sessionId' (renumbered sessionId events) = renumbered sessionId' events :=
  renumbered_eq_of_bare sessionId' (map_bare_renumbered sessionId events)

/-- A merged stream is merged to itself, but for the session. -/
theorem merge_merged (h : merge captures sessionId = .ok merged) (sessionId' : String) :
    merge [.ofEvents merged.events] sessionId' =
      .ok (.ofEvents (renumbered sessionId' merged.events)) := by
  have hmerge := merge_eq_ok h
  obtain ⟨pid, hpid⟩ := hmerge.pid
  have hsorted : SortedBy Event.timestampNs merged.events := by
    rw [hmerge.events]
    exact sortedBy_renumbered (sortByKey_sorted _ _)
  have hlength : merged.events.length ≤ 2 ^ 64 := by
    rw [hmerge.events, renumbered, List.length_mapIdx, length_sortByKey]
    exact hmerge.length_le
  have hmergedPid : ∀ event ∈ merged.events, event.pid = pid := by
    intro event hevent
    rw [hmerge.events] at hevent
    obtain ⟨i, hi, rfl⟩ := List.mem_mapIdx.mp hevent
    have hsource := hpid _ (mem_sortByKey.mp (List.getElem_mem hi))
    exact hsource
  rw [@merge_singleton_eq (.ofEvents merged.events) pid hmergedPid hlength]
  show Except.ok (CompletedCapture.ofEvents
    (renumbered sessionId' (sortByKey Event.timestampNs merged.events))) = _
  rw [sortByKey_of_sorted hsorted]

/-- Under the same session nothing changes at all. -/
theorem renumbered_merged (h : merge captures sessionId = .ok merged) :
    renumbered sessionId merged.events = merged.events := by
  rw [(merge_eq_ok h).events, renumbered_renumbered]

end Xprobe.Collector
