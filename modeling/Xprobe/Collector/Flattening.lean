import Xprobe.Collector.Merge

/-!
# Merging in groups

When `merge` succeeds, and that it does not matter whether captures are merged at once or in groups.
The checks of `merge` are made while it goes through the captures, so the two ways fail at different
points. But the counters only grow and the first event fixes the process, so whether some check
fails depends on the sums and on the set of processes only (`Mergeable`), and these are the same for
the groups and for the whole.
-/

namespace Xprobe.Collector

open Foundation Protocol Cupti

/-- The counter sums of captures fit, their events can be numbered and are of one process. -/
structure Mergeable (captures : List CompletedCapture) : Prop where
  droppedRecords : total CompletedCapture.droppedRecords captures < 2 ^ 64
  unknownRecords : total CompletedCapture.unknownRecords captures < 2 ^ 64
  recordCapacity :
    total CompletedCuptiStatistics.recordCapacity (statisticsOf captures) < 2 ^ 64
  observedRecords :
    total CompletedCuptiStatistics.observedRecords (statisticsOf captures) < 2 ^ 64
  cuptiDropped :
    total CompletedCuptiStatistics.droppedRecords (statisticsOf captures) < 2 ^ 64
  length_le : (captures.flatMap CompletedCapture.events).length ≤ 2 ^ 64
  pid : ∃ pid, ∀ event ∈ captures.flatMap CompletedCapture.events, event.pid = pid

@[simp] theorem statisticsOf_append (captures captures' : List CompletedCapture) :
    statisticsOf (captures ++ captures') = statisticsOf captures ++ statisticsOf captures' :=
  List.filterMap_append

theorem statisticsOf_cons (capture : CompletedCapture) (captures : List CompletedCapture) :
    statisticsOf (capture :: captures) = capture.cupti.toList ++ statisticsOf captures := by
  cases hcupti : capture.cupti <;> simp [statisticsOf, hcupti]

theorem Mergeable.of_append {front back : List CompletedCapture} (h : Mergeable (front ++ back)) :
    Mergeable front ∧ Mergeable back := by
  obtain ⟨hdropped, hunknown, hcapacity, hobserved, hcupti, hlength, pid, hpid⟩ := h
  simp only [total_append, statisticsOf_append, List.flatMap_append, List.length_append]
    at hdropped hunknown hcapacity hobserved hcupti hlength
  simp only [List.flatMap_append, List.forall_mem_append] at hpid
  exact ⟨⟨by omega, by omega, by omega, by omega, by omega, by omega, pid, hpid.1⟩,
    ⟨by omega, by omega, by omega, by omega, by omega, by omega, pid, hpid.2⟩⟩

/-! ## Success -/

theorem addCounter_of_lt {a b : UInt64} (h : a.toNat + b.toNat < 2 ^ 64) :
    addCounter a b = .ok (a + b) := by
  rw [addCounter, checkedAdd_eq_some.mpr ⟨h, rfl⟩, okOr_some]

variable {statistics : List CompletedCuptiStatistics} {merged : CompletedCapture}
  {c : Option CompletedCuptiStatistics} {captures : List CompletedCapture}

/-- The statistics can be combined if their sums fit. -/
theorem mergeStatistics_of_lt {existing capture : Option CompletedCuptiStatistics}
    (hcombined : Combined statistics existing) (hcapacity :
      total CompletedCuptiStatistics.recordCapacity (statistics ++ capture.toList) < 2 ^ 64)
    (hobserved :
      total CompletedCuptiStatistics.observedRecords (statistics ++ capture.toList) < 2 ^ 64)
    (hdropped :
      total CompletedCuptiStatistics.droppedRecords (statistics ++ capture.toList) < 2 ^ 64) :
    ∃ merged, mergeStatistics existing capture = .ok merged := by
  cases capture with
  | none => exact ⟨existing, by rw [mergeStatistics]⟩
  | some cupti =>
    cases existing with
    | none => exact ⟨some cupti, by rw [mergeStatistics]⟩
    | some existing =>
      obtain ⟨-, hsummary⟩ := hcombined
      simp only [Option.toList_some, total_append, total_cons, total_nil, Nat.add_zero,
        ← hsummary.recordCapacity, ← hsummary.observedRecords, ← hsummary.droppedRecords]
        at hcapacity hobserved hdropped
      rw [mergeStatistics, addCounter_of_lt hcapacity, ok_bind, addCounter_of_lt hobserved, ok_bind,
        addCounter_of_lt hdropped, ok_bind]
      exact ⟨_, rfl⟩

/-- The expected process after events of one process. -/
theorem targetPid_of_pushEvents {pid : UInt32} {events : List Event} {state state' : MergeState}
    (h : pushEvents state events = .ok state') (hpid : ∀ event ∈ events, event.pid = pid)
    (hstate : ∀ expected ∈ state.targetPid, expected = pid) :
    ∀ expected ∈ state'.targetPid, expected = pid := by
  induction events generalizing state with
  | nil =>
    rw [pushEvents] at h
    cases h
    exact hstate
  | cons event rest ih =>
    obtain ⟨-, h⟩ := pushEvents_cons_eq_ok h
    refine ih h (fun other hother => hpid other (List.mem_cons_of_mem _ hother)) ?_
    intro expected hexpected
    cases hexpected
    exact hpid event List.mem_cons_self

/-- The loop goes through captures that can be merged, after those in `done`. -/
theorem exists_foldlM_mergeCapture {done rest : List CompletedCapture} {state : MergeState}
    (h : Mergeable (done ++ rest)) (hgathered : Gathered done state) {pid : UInt32}
    (hpid : ∀ event ∈ rest.flatMap CompletedCapture.events, event.pid = pid)
    (hstate : ∀ expected ∈ state.targetPid, expected = pid) :
    ∃ state', rest.foldlM mergeCapture state = .ok state' := by
  induction rest generalizing done state with
  | nil => exact ⟨state, rfl⟩
  | cons capture rest ih =>
    rw [List.flatMap_cons, List.forall_mem_append] at hpid
    have hdropped := h.droppedRecords
    have hunknown := h.unknownRecords
    have hcapacity := h.recordCapacity
    have hobserved := h.observedRecords
    have hcuptiDropped := h.cuptiDropped
    simp only [total_append, total_cons, statisticsOf_append, statisticsOf_cons]
      at hdropped hunknown hcapacity hobserved hcuptiDropped
    -- each sum up to this capture is at most the sum of all
    have haddDropped := @addCounter_of_lt state.merged.droppedRecords capture.droppedRecords (by
      rw [hgathered.merged.droppedRecords]
      omega)
    have haddUnknown := @addCounter_of_lt state.merged.unknownRecords capture.unknownRecords (by
      rw [hgathered.merged.unknownRecords]
      omega)
    obtain ⟨cupti, hcupti⟩ := @mergeStatistics_of_lt _ _ capture.cupti hgathered.merged.cupti
      (by rw [total_append]; omega) (by rw [total_append]; omega) (by rw [total_append]; omega)
    obtain ⟨next, hpush, -⟩ := pushEvents_of_onePid hpid.1
      { state with
        merged :=
          { droppedRecords := state.merged.droppedRecords + capture.droppedRecords
            unknownRecords := state.merged.unknownRecords + capture.unknownRecords
            recordLimitReached :=
              optionMax state.merged.recordLimitReached capture.recordLimitReached
            captureFailed := state.merged.captureFailed || capture.captureFailed
            cupti
            events := state.merged.events } } hstate
    have hstep : mergeCapture state capture = .ok next := by
      rw [mergeCapture, haddDropped, ok_bind, haddUnknown, ok_bind, hcupti, ok_bind]
      exact hpush
    obtain ⟨state', hrun⟩ := @ih (done ++ [capture]) next (by rwa [List.append_assoc])
      (hgathered.mergeCapture hstep) hpid.2 (targetPid_of_pushEvents hpush hpid.1 hstate)
    exact ⟨state', by rw [List.foldlM_cons, hstep, ok_bind, hrun]⟩

/-- A merge succeeds if and only if the captures can be merged. -/
theorem merge_isOk_iff (captures : List CompletedCapture) (sessionId : String) :
    (∃ merged, merge captures sessionId = .ok merged) ↔ Mergeable captures := by
  constructor
  · rintro ⟨merged, hmerged⟩
    obtain ⟨hfrom, -, hlength, hpid⟩ := merge_eq_ok hmerged
    -- statistics whose sums are in a record have sums that fit
    have hfits : ∀ counter : CompletedCuptiStatistics → UInt64,
        (∀ summary, merged.cupti = some summary →
          (counter summary).toNat = total counter (statisticsOf captures)) →
        total counter (statisticsOf captures) < 2 ^ 64 := by
      intro counter hcounter
      have hcombined := hfrom.cupti
      cases hcupti : merged.cupti with
      | none =>
        rw [hcupti] at hcombined
        rw [show statisticsOf captures = [] from hcombined, total_nil]
        decide
      | some summary =>
        rw [← hcounter summary hcupti]
        exact (counter summary).toNat_lt
    have hsummary : ∀ summary, merged.cupti = some summary →
        Summarizes (statisticsOf captures) summary := by
      intro summary hcupti
      have hcombined := hfrom.cupti
      rw [hcupti] at hcombined
      exact hcombined.2
    refine ⟨?_, ?_, ?_, ?_, ?_, hlength, hpid⟩
    · rw [← hfrom.droppedRecords]
      exact merged.droppedRecords.toNat_lt
    · rw [← hfrom.unknownRecords]
      exact merged.unknownRecords.toNat_lt
    · exact hfits _ (fun summary hcupti => (hsummary summary hcupti).recordCapacity)
    · exact hfits _ (fun summary hcupti => (hsummary summary hcupti).observedRecords)
    · exact hfits _ (fun summary hcupti => (hsummary summary hcupti).droppedRecords)
  · intro h
    obtain ⟨pid, hpid⟩ := h.pid
    obtain ⟨state, hstate⟩ := @exists_foldlM_mergeCapture [] captures _ h gathered_nil pid hpid
      nofun
    have hgathered : Gathered captures state := by simpa using gathered_nil.foldlM hstate
    have hlength : (sortByKey Event.timestampNs state.merged.events).length ≤ 2 ^ 64 := by
      rw [length_sortByKey, hgathered.events]
      exact h.length_le
    rw [merge, hstate, ok_bind, renumberEvents_zero hlength, ok_bind]
    exact ⟨_, rfl⟩

/-! ## One result -/

theorem Combined.unique {c' : Option CompletedCuptiStatistics} (h : Combined statistics c)
    (h' : Combined statistics c') : c = c' := by
  cases c with
  | none =>
    cases c' with
    | none => rfl
    | some summary => exact absurd h h'.1
  | some summary =>
    cases c' with
    | none => exact absurd h' h.1
    | some summary' =>
      obtain ⟨-, hcomplete, hcapacity, hobserved, hdropped⟩ := h
      obtain ⟨-, hcomplete', hcapacity', hobserved', hdropped'⟩ := h'
      obtain ⟨complete, recordCapacity, observedRecords, droppedRecords⟩ := summary
      obtain ⟨complete', recordCapacity', observedRecords', droppedRecords'⟩ := summary'
      cases hcomplete.trans hcomplete'.symm
      cases UInt64.toNat_inj.mp (hcapacity.trans hcapacity'.symm)
      cases UInt64.toNat_inj.mp (hobserved.trans hobserved'.symm)
      cases UInt64.toNat_inj.mp (hdropped.trans hdropped'.symm)
      rfl

/-- The counters, the flags and the events determine a merged capture. -/
theorem MergedFrom.unique {merged' : CompletedCapture} (h : MergedFrom captures merged)
    (h' : MergedFrom captures merged') (hevents : merged.events = merged'.events) :
    merged = merged' := by
  obtain ⟨hdropped, hunknown, hlimit, hfailed, hcupti⟩ := h
  obtain ⟨hdropped', hunknown', hlimit', hfailed', hcupti'⟩ := h'
  have hcuptiEq := hcupti.unique hcupti'
  obtain ⟨dropped, unknown, limit, failed, cupti, events⟩ := merged
  obtain ⟨dropped', unknown', limit', failed', cupti', events'⟩ := merged'
  cases UInt64.toNat_inj.mp (hdropped.trans hdropped'.symm)
  cases UInt64.toNat_inj.mp (hunknown.trans hunknown'.symm)
  cases hlimit.trans hlimit'.symm
  cases hfailed.trans hfailed'.symm
  cases hcuptiEq
  cases hevents
  rfl

/-! ## Groups -/

/-- Statistics that cannot be told apart by what a merge makes of them. -/
structure SameSums (statistics statistics' : List CompletedCuptiStatistics) : Prop where
  nil_iff : statistics = [] ↔ statistics' = []
  complete : statistics.all CompletedCuptiStatistics.complete =
    statistics'.all CompletedCuptiStatistics.complete
  recordCapacity : total CompletedCuptiStatistics.recordCapacity statistics =
    total CompletedCuptiStatistics.recordCapacity statistics'
  observedRecords : total CompletedCuptiStatistics.observedRecords statistics =
    total CompletedCuptiStatistics.observedRecords statistics'
  droppedRecords : total CompletedCuptiStatistics.droppedRecords statistics =
    total CompletedCuptiStatistics.droppedRecords statistics'

theorem SameSums.append {front front' back back' : List CompletedCuptiStatistics}
    (h : SameSums front front') (h' : SameSums back back') :
    SameSums (front ++ back) (front' ++ back') where
  nil_iff := by rw [List.append_eq_nil_iff, List.append_eq_nil_iff, h.nil_iff, h'.nil_iff]
  complete := by rw [List.all_append, List.all_append, h.complete, h'.complete]
  recordCapacity := by rw [total_append, total_append, h.recordCapacity, h'.recordCapacity]
  observedRecords := by rw [total_append, total_append, h.observedRecords, h'.observedRecords]
  droppedRecords := by rw [total_append, total_append, h.droppedRecords, h'.droppedRecords]

/-- A summary stands for what it summarizes. -/
theorem Combined.sameSums (h : Combined statistics c) : SameSums c.toList statistics := by
  cases c with
  | none =>
    rw [show statistics = [] from h]
    exact ⟨Iff.rfl, rfl, rfl, rfl, rfl⟩
  | some summary =>
    obtain ⟨hne, hcomplete, hcapacity, hobserved, hdropped⟩ := h
    refine ⟨iff_of_false (List.cons_ne_nil _ _) hne, ?_, ?_, ?_, ?_⟩
    · simp [hcomplete]
    · simp [hcapacity]
    · simp [hobserved]
    · simp [hdropped]

theorem SameSums.combined {statistics' : List CompletedCuptiStatistics}
    (h : SameSums statistics statistics') (hc : Combined statistics c) :
    Combined statistics' c := by
  cases c with
  | none => exact h.nil_iff.mp hc
  | some summary =>
    obtain ⟨hne, hcomplete, hcapacity, hobserved, hdropped⟩ := hc
    exact ⟨mt h.nil_iff.mpr hne, hcomplete.trans h.complete, hcapacity.trans h.recordCapacity,
      hobserved.trans h.observedRecords, hdropped.trans h.droppedRecords⟩

theorem foldl_optionMax (limit : Option UInt64) (limits : List (Option UInt64)) :
    limits.foldl optionMax limit = optionMax limit (limits.foldl optionMax none) := by
  have hassoc : ∀ a b c : Option UInt64,
      optionMax (optionMax a b) c = optionMax a (optionMax b c) := by
    intro a b c
    cases a <;> cases b <;> cases c <;> simp [optionMax, max_assoc]
  induction limits generalizing limit with
  | nil => cases limit <;> rfl
  | cons first limits ih =>
    have hfirst : optionMax none first = first := by cases first <;> rfl
    rw [List.foldl_cons, List.foldl_cons, ih, ih (optionMax none first), hfirst, hassoc]

section Groups

variable {xs ys : List CompletedCapture} {x y : CompletedCapture}

theorem sameSums_groups (hx : MergedFrom xs x) (hy : MergedFrom ys y) :
    SameSums (statisticsOf [x, y]) (statisticsOf (xs ++ ys)) := by
  have happend := hx.cupti.sameSums.append hy.cupti.sameSums
  rw [statisticsOf_cons, statisticsOf_cons, statisticsOf_append]
  simpa [statisticsOf] using happend

/-- The merge of two merged groups is made from all captures of both. -/
theorem MergedFrom.flatten (hx : MergedFrom xs x) (hy : MergedFrom ys y)
    (h : MergedFrom [x, y] merged) : MergedFrom (xs ++ ys) merged where
  droppedRecords := by
    rw [h.droppedRecords, total_append, ← hx.droppedRecords, ← hy.droppedRecords]
    simp
  unknownRecords := by
    rw [h.unknownRecords, total_append, ← hx.unknownRecords, ← hy.unknownRecords]
    simp
  recordLimitReached := by
    rw [h.recordLimitReached, List.map_append, List.foldl_append, ← hx.recordLimitReached,
      foldl_optionMax x.recordLimitReached, ← hy.recordLimitReached]
    cases hlimit : x.recordLimitReached <;> simp [optionMax, hlimit]
  captureFailed := by
    rw [h.captureFailed, List.any_append, ← hx.captureFailed, ← hy.captureFailed]
    simp
  cupti := (sameSums_groups hx hy).combined h.cupti

/-- A merged stream is the sorted stream of its captures, but for what the merge writes. -/
theorem MergeOk.map_bare_events {sessionId : String} (h : MergeOk captures sessionId merged) :
    merged.events.map bare =
      sortByKey Event.timestampNs ((captures.flatMap CompletedCapture.events).map bare) := by
  rw [h.events, map_bare_renumbered, map_bare_sortByKey]

/-- Sorting the streams of two groups is sorting all events. -/
theorem renumbered_groups {sessionX sessionY : String} (hx : MergeOk xs sessionX x)
    (hy : MergeOk ys sessionY y) (sessionId : String) :
    renumbered sessionId
        (sortByKey Event.timestampNs ([x, y].flatMap CompletedCapture.events)) =
      renumbered sessionId
        (sortByKey Event.timestampNs ((xs ++ ys).flatMap CompletedCapture.events)) := by
  apply renumbered_eq_of_bare
  have hpair : [x, y].flatMap CompletedCapture.events = x.events ++ y.events := by simp
  rw [map_bare_sortByKey, map_bare_sortByKey, hpair, List.map_append, List.flatMap_append,
    List.map_append, hx.map_bare_events, hy.map_bare_events]
  exact sortByKey_append_congr (sortByKey_sortByKey _ _) (sortByKey_sortByKey _ _)

theorem pid_of_mem_merged {sessionId : String} (h : MergeOk captures sessionId merged)
    {pid : UInt32} :
    (∀ event ∈ merged.events, event.pid = pid) ↔
      ∀ event ∈ captures.flatMap CompletedCapture.events, event.pid = pid := by
  -- the merge does not write the process of an event
  have hpids : merged.events.map Event.pid =
      (sortByKey Event.timestampNs (captures.flatMap CompletedCapture.events)).map Event.pid := by
    have hbare := congrArg (List.map Event.pid) (map_bare_renumbered sessionId
      (sortByKey Event.timestampNs (captures.flatMap CompletedCapture.events)))
    rw [← h.events, List.map_map, List.map_map] at hbare
    exact hbare
  have hperm : (merged.events.map Event.pid).Perm
      ((captures.flatMap CompletedCapture.events).map Event.pid) := by
    rw [hpids]
    exact (sortByKey_perm _ _).map _
  constructor
  · intro hall event hevent
    obtain ⟨other, hother, hsame⟩ :=
      List.mem_map.mp (hperm.symm.subset (List.mem_map_of_mem hevent))
    rw [← hsame]
    exact hall other hother
  · intro hall event hevent
    obtain ⟨other, hother, hsame⟩ := List.mem_map.mp (hperm.subset (List.mem_map_of_mem hevent))
    rw [← hsame]
    exact hall other hother

theorem mergeable_groups_iff {sessionX sessionY : String} (hx : MergeOk xs sessionX x)
    (hy : MergeOk ys sessionY y) : Mergeable [x, y] ↔ Mergeable (xs ++ ys) := by
  have hsums := sameSums_groups hx.from_captures hy.from_captures
  have hdropped : total CompletedCapture.droppedRecords [x, y] =
      total CompletedCapture.droppedRecords (xs ++ ys) := by
    rw [total_append, ← hx.from_captures.droppedRecords, ← hy.from_captures.droppedRecords]
    simp
  have hunknown : total CompletedCapture.unknownRecords [x, y] =
      total CompletedCapture.unknownRecords (xs ++ ys) := by
    rw [total_append, ← hx.from_captures.unknownRecords, ← hy.from_captures.unknownRecords]
    simp
  have hlength : ([x, y].flatMap CompletedCapture.events).length =
      ((xs ++ ys).flatMap CompletedCapture.events).length := by
    simp [hx.events, hy.events, renumbered]
  have hpid : (∃ pid, ∀ event ∈ [x, y].flatMap CompletedCapture.events, event.pid = pid) ↔
      ∃ pid, ∀ event ∈ (xs ++ ys).flatMap CompletedCapture.events, event.pid = pid := by
    have hpair : [x, y].flatMap CompletedCapture.events = x.events ++ y.events := by simp
    simp only [hpair, List.flatMap_append, List.forall_mem_append, pid_of_mem_merged hx,
      pid_of_mem_merged hy]
  constructor
  · rintro ⟨h1, h2, h3, h4, h5, h6, h7⟩
    exact ⟨hdropped ▸ h1, hunknown ▸ h2, hsums.recordCapacity ▸ h3, hsums.observedRecords ▸ h4,
      hsums.droppedRecords ▸ h5, hlength ▸ h6, hpid.mp h7⟩
  · rintro ⟨h1, h2, h3, h4, h5, h6, h7⟩
    exact ⟨hdropped ▸ h1, hunknown ▸ h2, hsums.recordCapacity ▸ h3, hsums.observedRecords ▸ h4,
      hsums.droppedRecords ▸ h5, hlength ▸ h6, hpid.mpr h7⟩

end Groups

def mergeGroups (xs ys : List CompletedCapture) (sessionX sessionY sessionId : String) :
    Except CompletedCaptureError CompletedCapture := do
  let x ← merge xs sessionX
  let y ← merge ys sessionY
  merge [x, y] sessionId

theorem mergeGroups_eq_ok_iff (xs ys : List CompletedCapture)
    (sessionX sessionY sessionId : String) (merged : CompletedCapture) :
    mergeGroups xs ys sessionX sessionY sessionId = .ok merged ↔
      merge (xs ++ ys) sessionId = .ok merged := by
  -- what both ways return, if they return something
  have hsame : ∀ x y result whole, merge xs sessionX = .ok x → merge ys sessionY = .ok y →
      merge [x, y] sessionId = .ok result → merge (xs ++ ys) sessionId = .ok whole →
      result = whole := by
    intro x y result whole hx hy hresult hwhole
    have hx := merge_eq_ok hx
    have hy := merge_eq_ok hy
    have hresult := merge_eq_ok hresult
    have hwhole := merge_eq_ok hwhole
    refine (hx.from_captures.flatten hy.from_captures hresult.from_captures).unique
      hwhole.from_captures ?_
    rw [hresult.events, hwhole.events]
    exact renumbered_groups hx hy sessionId
  constructor
  · intro h
    obtain ⟨x, hx, h⟩ := of_bind h
    obtain ⟨y, hy, h⟩ := of_bind h
    obtain ⟨whole, hwhole⟩ := (merge_isOk_iff (xs ++ ys) sessionId).mpr
      ((mergeable_groups_iff (merge_eq_ok hx) (merge_eq_ok hy)).mp
        ((merge_isOk_iff [x, y] sessionId).mp ⟨merged, h⟩))
    rw [hwhole, hsame x y merged whole hx hy h hwhole]
  · intro h
    have hmergeable := (merge_isOk_iff (xs ++ ys) sessionId).mp ⟨merged, h⟩
    obtain ⟨hxs, hys⟩ := hmergeable.of_append
    obtain ⟨x, hx⟩ := (merge_isOk_iff xs sessionX).mpr hxs
    obtain ⟨y, hy⟩ := (merge_isOk_iff ys sessionY).mpr hys
    obtain ⟨result, hresult⟩ := (merge_isOk_iff [x, y] sessionId).mpr
      ((mergeable_groups_iff (merge_eq_ok hx) (merge_eq_ok hy)).mpr hmergeable)
    rw [mergeGroups, hx, ok_bind, hy, ok_bind, hresult, hsame x y result merged hx hy hresult h]

/-- A merge succeeds exactly if all events are of one process and the sums fit. Then its events are
    the stable sort of all events by time, numbered again, and its counters and flags are combined.
    Merging in two groups gives the same capture, or fails as well. -/
theorem merge_laws : (∀ (captures : List CompletedCapture) (sessionId : String),
      ((∃ merged, merge captures sessionId = .ok merged) ↔ Mergeable captures) ∧
        ∀ merged, merge captures sessionId = .ok merged →
          MergedFrom captures merged ∧
          merged.events = renumbered sessionId
            (sortByKey Event.timestampNs (captures.flatMap CompletedCapture.events))) ∧
      ∀ (xs ys : List CompletedCapture) (sessionX sessionY sessionId : String)
        (merged : CompletedCapture),
        mergeGroups xs ys sessionX sessionY sessionId = .ok merged ↔
          merge (xs ++ ys) sessionId = .ok merged := by
  refine ⟨?_, mergeGroups_eq_ok_iff⟩
  intro captures sessionId
  refine ⟨merge_isOk_iff captures sessionId, ?_⟩
  intro merged hmerged
  have hok := merge_eq_ok hmerged
  exact ⟨hok.from_captures, hok.events⟩

/-- Two captures that lost one and two records lost three together. -/
theorem merge_laws_dropped : mergeGroups [{ emptyCapture with droppedRecords := 1 }]
        [{ emptyCapture with droppedRecords := 2, captureFailed := true }] "a" "b" "all" =
      .ok { emptyCapture with droppedRecords := 3, captureFailed := true } :=
  (merge_laws.2 _ _ "a" "b" "all" _).mpr rfl

end Xprobe.Collector
