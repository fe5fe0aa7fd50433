import Xprobe.Correlator.SampleLimit
import Xprobe.Correlator.Spans

/-!
# Which starts and ends a policy can pair

A policy joins a start and an end only if they share its key and, except for nearest pairing, the
start is not the later one (`Pairable`). Exact pairing by correlation keys also wants them at the
same rank among equally many events of their key (`SameRank`). Nothing else keeps a policy from
making a pair: among any starts and ends it makes one exactly when some start and end can be joined
in this sense (`correlateSelected_ne_nil_iff`).

Which of them it joins depends on the ties and on what earlier starts have taken.
-/

namespace Xprobe.Correlator

open Foundation Protocol

/-! ## Starts and ends that fit together -/

/-- The start and the end share the key of the policy and are in order. -/
def Pairable (policy : MatchPolicy) (lifecycles : LifecycleKinds) (start e : EventRef) : Prop :=
  PolicyKey policy lifecycles start.event e.event ∧
    (policy = .nearest ∨ start.timestampNs ≤ e.timestampNs)

/-- Exact pairing by correlation keys, which has no lifecycle. -/
def PairsByRank (policy : MatchPolicy) (lifecycles : LifecycleKinds) : Prop :=
  policy = .exact ∧ (lifecycles.syscall || lifecycles.pythonGc) = false ∧ lifecycles.nvtx = false

/-- The start and the end are at the same rank among equally many events of their key. -/
def SameRank (starts ends : List EventRef) (start e : EventRef) : Prop :=
  ∃ key, keyCount starts key = keyCount ends key ∧
    (start, e) ∈ (BTreeMap.group refKey starts key).zip (BTreeMap.group refKey ends key)

/-- The policy can join the start and the end, as far as only they and their ranks are concerned. -/
def Joinable (policy : MatchPolicy) (lifecycles : LifecycleKinds) (starts ends : List EventRef)
    (start e : EventRef) : Prop :=
  Pairable policy lifecycles start e ∧
    (PairsByRank policy lifecycles → SameRank starts ends start e)

variable {policy : MatchPolicy} {lifecycles : LifecycleKinds} {starts ends : List EventRef}
  {start e : EventRef}

theorem PolicyPair.pairable {pair : Pair} (h : PolicyPair policy lifecycles pair) :
    Pairable policy lifecycles pair.startEvent pair.endEvent := by
  refine ⟨h.1, ?_⟩
  cases policy with
  | nearest => exact .inl rfl
  | _ => exact .inr h.2.1

/-! ## Timelines -/

/-- A return closes a call if its thread has an open entry, now or further down the timeline before
    it. -/
theorem closedCalls_ne_nil {before front : List TimelineEntry} (back : List TimelineEntry)
    (hkey : stackKey start.event = stackKey e.event)
    (hopen : lastOpen (callEvents (stackKey e.event) before) 0 ≠ none ∨ ⟨false, start⟩ ∈ front) :
    closedCalls before (front ++ ⟨true, e⟩ :: back) ≠ [] := by
  induction front generalizing before with
  | nil =>
    obtain ⟨entry, hentry⟩ :=
      Option.ne_none_iff_exists'.mp (hopen.resolve_right List.not_mem_nil)
    simp [closedCalls, closedCall, hentry]
  | cons entry rest ih =>
    rw [List.cons_append, closedCalls]
    cases hcall : closedCall before entry with
    | some call => exact List.cons_ne_nil _ _
    | none =>
      refine ih ?_
      obtain ⟨isEnd, event⟩ := entry
      by_cases hthread : stackKey event.event = stackKey e.event
      · cases isEnd with
        | false => exact .inl (by simp [callEvents, hthread, lastOpen])
        | true =>
          -- a return of the thread that closes nothing finds nothing open
          refine hopen.imp (fun h => absurd ?_ h) fun h => ?_
          · simpa [closedCall, hthread] using hcall
          · exact (List.mem_cons.mp h).resolve_left (by simp)
      · refine hopen.imp (fun h => ?_) fun h => ?_
        · simpa [callEvents, hthread] using h
        · refine (List.mem_cons.mp h).resolve_left fun heq => hthread ?_
          rw [← hkey, (TimelineEntry.mk.inj heq).2]

section Timelines

variable (hstart : start ∈ starts) (he : e ∈ ends) (hle : start.timestampNs ≤ e.timestampNs)
include hstart he hle

/-- On a timeline that puts starts first, a start stands before an end that is not earlier. -/
theorem exists_front_of_timeline {κ : Type*} [LinearOrder κ] {order : TimelineEntry → UInt64 ×ₗ κ}
    (htime : ∀ entry, (ofLex (order entry)).1 = entry.event.timestampNs)
    (hfirst : (ofLex (order ⟨false, start⟩)).2 < (ofLex (order ⟨true, e⟩)).2) :
    ∃ front back, sortByKey order (timelineEntries starts ends) = front ++ ⟨true, e⟩ :: back ∧
      ⟨false, start⟩ ∈ front := by
  refine (sortByKey_sorted order _).exists_front (mem_sortByKey.mpr ?_) (mem_sortByKey.mpr ?_) ?_
  · exact List.mem_append_left _ (List.mem_map_of_mem hstart)
  · exact List.mem_append_right _ (List.mem_map_of_mem he)
  · rw [Prod.Lex.lt_iff, htime, htime]
    rcases lt_or_eq_of_le hle with hlt | heq
    · exact .inl hlt
    · exact .inr ⟨heq, hfirst⟩

/-- A lifecycle finds a pair when a start of some key is not later than an end of that key. -/
theorem lifecycleLoop_ne_nil {κ : Type} [LinearOrder κ] {key : Event → Option κ} {k : κ}
    (hkey : key start.event = some k) (hkey' : key e.event = some k) :
    (lifecycleLoop key starts ends).pairs ≠ [] := by
  obtain ⟨front, back, hsplit, hfront⟩ := @exists_front_of_timeline starts ends start e hstart he hle
    _ _ lifecycleOrder (fun _ => rfl) (Prod.Lex.lt_iff.mpr (.inl Bool.false_lt_true))
  have hscan := scanOf_lifecycleLoop key starts ends k
  have hevents : spanEvents key k (lifecycleTimeline starts ends) =
      spanEvents key k front ++ (true, e) :: spanEvents key k back := by
    rw [lifecycleTimeline, hsplit]
    simp [spanEvents, ofKey, hkey']
  have hmem : (false, start) ∈ spanEvents key k front :=
    List.mem_map.mpr ⟨_, List.mem_filter.mpr ⟨hfront, by simpa using hkey⟩, rfl⟩
  have hspans := spans_ne_nil hmem (spanEvents key k back) e ⟨none, []⟩
  rw [← hevents, ← hscan] at hspans
  intro hnil
  simp [LifecycleState.scanOf, hnil] at hspans

theorem inputCalls_ne_nil (hkey : stackKey start.event = stackKey e.event) :
    inputCalls starts ends ≠ [] := by
  obtain ⟨front, back, hsplit, hfront⟩ := @exists_front_of_timeline starts ends start e hstart he hle
    _ _ stackOrder (fun _ => rfl) Bool.false_lt_true
  rw [inputCalls, stackTimeline, hsplit]
  exact closedCalls_ne_nil back hkey (.inr hfront)

/-- Stream-order pairing finds a pair in the stream of the two events. -/
theorem streamLoop_ne_nil (hsorted : SortedBy EventRef.timestampNs starts) {k : StreamKey}
    (hkey : streamKey start.event = some k) (hkey' : streamKey e.event = some k) :
    ∃ st, streamLoop starts ends = some st ∧ st.pairs ≠ [] := by
  obtain ⟨st, hrun, hpairs⟩ := streamLoop_pairs starts ends
  have hne : firstAfterPairs (ofStream starts k) (ofStream ends k) ≠ [] :=
    firstAfterPairs_ne_nil (hsorted.filter _) (BTreeMap.mem_group.mpr ⟨hstart, hkey⟩)
      (BTreeMap.mem_group.mpr ⟨he, hkey'⟩) hle
  obtain ⟨pair, hpair⟩ := List.exists_mem_of_ne_nil _ hne
  have hk : k ∈ streamKeys starts ends :=
    List.mem_toFinset.mpr (List.mem_filterMap.mpr ⟨start, List.mem_append_left _ hstart, hkey⟩)
  refine ⟨st, hrun, List.ne_nil_of_mem (a := pair) ?_⟩
  rw [← Multiset.mem_coe, hpairs, Multiset.mem_sum]
  exact ⟨k, hk, hpair⟩

end Timelines

/-! ## Every policy -/

variable {limit : Option Nat}

theorem truncate_ne_nil (hlimit : limit ≠ some 0) {α : Type} {l : List α} (h : l ≠ []) :
    truncate limit l ≠ [] := by
  cases limit with
  | none => exact h
  | some n =>
    have hn : n ≠ 0 := fun hzero => hlimit (congrArg some hzero)
    simp [truncate, hn, h]

theorem sortPairs_ne_nil {pairs : List Pair} (h : pairs ≠ []) : sortPairs pairs ≠ [] := by
  rw [← List.length_pos_iff, (sortPairs_perm pairs).length_eq]
  exact List.length_pos_of_ne_nil h

/-- Exact pairing by correlation keys makes the pairs of equal rank. -/
theorem mem_correlateExact {pair : Pair} (h : pair ∈ (correlateExact starts ends limit).pairs) :
    SameRank starts ends pair.startEvent pair.endEvent := by
  have hloop : pair ∈ (exactLoop starts ends).pairs :=
    (sortPairs_perm _).subset ((truncate_sublist limit _).subset h)
  obtain ⟨key, hpair⟩ := mem_exactLoop_pairs.mp hloop
  obtain ⟨hlength, hzip, -⟩ := mem_keyPairs.mp hpair
  exact ⟨key, hlength, hzip⟩

/-- Whatever a policy pairs could be joined. -/
theorem joinable_of_mem {outcome : Outcome}
    (hrun : correlateSelected starts ends policy limit lifecycles = some outcome) {pair : Pair}
    (hpair : pair ∈ outcome.pairs) :
    pair.startEvent ∈ starts ∧ pair.endEvent ∈ ends ∧
      Joinable policy lifecycles starts ends pair.startEvent pair.endEvent := by
  obtain ⟨outcome', hrun', hsound, -⟩ :=
    correlateSelected_sound starts ends policy limit lifecycles
  cases hrun.symm.trans hrun'
  refine ⟨hsound.starts_used.subset (List.mem_map_of_mem hpair),
    hsound.ends_used.subset (List.mem_map_of_mem hpair), (hsound.related pair hpair).pairable, ?_⟩
  rintro ⟨rfl, hthread, hnvtx⟩
  simp only [correlateSelected, hthread, hnvtx, Bool.false_eq_true, if_false] at hrun
  cases hrun
  exact mem_correlateExact hpair

/-- A policy that can join some start and end makes a pair, unless it may make none. -/
theorem correlateSelected_ne_nil (hlimit : limit ≠ some 0)
    (hsorted : SortedBy EventRef.timestampNs starts) (hstart : start ∈ starts) (he : e ∈ ends)
    (h : Joinable policy lifecycles starts ends start e) :
    ∃ outcome, correlateSelected starts ends policy limit lifecycles = some outcome ∧
      outcome.pairs ≠ [] := by
  obtain ⟨⟨hkey, horder⟩, hrank⟩ := h
  have hroom : limit.getD usizeMax ≠ 0 := by
    cases limit with
    | none => decide
    | some n => exact fun hzero => hlimit (congrArg some hzero)
  have hcut : ∀ {pairs : List Pair}, pairs ≠ [] → truncate limit (sortPairs pairs) ≠ [] :=
    fun hne => truncate_ne_nil hlimit (sortPairs_ne_nil hne)
  -- each loop meets the start and the end that can be joined, and pairs something by then
  cases policy with
  | exact =>
    have hle := horder.resolve_left (by decide)
    unfold correlateSelected
    by_cases hthread : (lifecycles.syscall || lifecycles.pythonGc) = true
    · simp only [PolicyKey, if_pos hthread] at hkey
      refine ⟨_, if_pos hthread, hcut (lifecycleLoop_ne_nil hstart he hle rfl ?_)⟩
      exact congrArg some (threadKey_eq_iff.mpr hkey).symm
    simp only [PolicyKey, if_neg hthread] at hkey
    obtain ⟨key, hs, hend⟩ := hkey
    by_cases hnvtx : lifecycles.nvtx = true
    · exact ⟨_, (if_neg hthread).trans (if_pos hnvtx),
        hcut (lifecycleLoop_ne_nil hstart he hle hs hend)⟩
    · refine ⟨_, (if_neg hthread).trans (if_neg hnvtx), hcut ?_⟩
      obtain ⟨key, hcount, hzip⟩ :=
        hrank ⟨rfl, Bool.eq_false_iff.mpr hthread, Bool.eq_false_iff.mpr hnvtx⟩
      refine List.ne_nil_of_mem (a := spanPair (start, e)) (mem_exactLoop_pairs.mpr ⟨key, ?_⟩)
      exact mem_keyPairs.mpr ⟨hcount, hzip, hle, rfl⟩
  | firstAfter =>
    obtain ⟨st, hloop, hpairs⟩ :=
      @firstAfterLoop_pairs (limit.getD usizeMax) starts ⟨[], 0, 0, ends⟩ (Nat.zero_le _)
    have hne := firstAfterPairs_ne_nil hsorted hstart he (horder.resolve_left (by decide))
    refine ⟨firstAfterOutcome (limit.getD usizeMax) st, ?_, ?_⟩
    · simp only [correlateSelected, correlateFirstAfter, hloop, some_bind]
    · show st.pairs ≠ []
      simp [hpairs, hroom, hne]
  | nearest =>
    obtain ⟨choices, hbest, hruns⟩ := @nearestLoop_bestChoices starts
      ⟨availableEnds ends, [], 0, false⟩ (availableEnds_wellFormed _)
    obtain ⟨st, hrun, hpairs⟩ := hruns (limit.getD usizeMax) (Nat.zero_le _)
    have hlength := (hbest.of_perm (availableEnds_perm ends)).length_eq
    have hne : choices ≠ [] := by
      have hstarts := List.length_pos_of_mem hstart
      have hends := List.length_pos_of_mem he
      exact List.ne_nil_of_length_pos (by omega)
    refine ⟨nearestOutcome st, ?_, ?_⟩
    · simp only [correlateSelected, correlateNearest, hrun, some_bind]
    · show st.pairs ≠ []
      simp [hpairs, hroom, hne]
  | stackNested =>
    obtain ⟨outcome, hrun, hpairs⟩ := correlateStackNested_pairs starts ends limit
    have hne := inputCalls_ne_nil hstart he (horder.resolve_left (by decide)) (stackKey_eq_iff.mpr hkey)
    refine ⟨outcome, hrun, ?_⟩
    rw [hpairs]
    exact sortPairs_ne_nil (by simp [hroom, hne])
  | streamOrder =>
    obtain ⟨k, hs, hend⟩ := hkey
    obtain ⟨st, hrun, hne⟩ :=
      streamLoop_ne_nil hstart he (horder.resolve_left (by decide)) hsorted hs hend
    simp only [correlateSelected, correlateStreamOrder, hrun, some_bind]
    exact ⟨_, rfl, hcut hne⟩

/-- Among any starts and ends a policy makes a pair exactly when it can join some of them. -/
theorem correlateSelected_ne_nil_iff (hlimit : limit ≠ some 0)
    (hsorted : SortedBy EventRef.timestampNs starts) {outcome : Outcome}
    (hrun : correlateSelected starts ends policy limit lifecycles = some outcome) :
    outcome.pairs ≠ [] ↔
      ∃ start ∈ starts, ∃ e ∈ ends, Joinable policy lifecycles starts ends start e := by
  constructor
  · intro hne
    obtain ⟨pair, hpair⟩ := List.exists_mem_of_ne_nil _ hne
    obtain ⟨hstart, he, hjoin⟩ := joinable_of_mem hrun hpair
    exact ⟨_, hstart, _, he, hjoin⟩
  · rintro ⟨start, hstart, e, he, hjoin⟩
    obtain ⟨outcome', hrun', hne⟩ := correlateSelected_ne_nil hlimit hsorted hstart he hjoin
    cases hrun.symm.trans hrun'
    exact hne

/-! ## Measurements -/

def CanJoin (policy : MatchPolicy) (selected : Selected) : Prop :=
  ∃ start ∈ selected.starts, ∃ e ∈ selected.ends,
    Joinable policy selected.lifecycles selected.starts
      selected.ends start e

variable {regexNew : RegexEngine} {events : List Event} {options : MeasureOptions}
  {selected : Selected}

variable (h : SelectOk regexNew events options selected)

include h

theorem SelectOk.samples_ne_zero : options.samples ≠ some 0 := by
  intro hzero
  have hoptions := h.options_ok
  simp [validateOptions, hzero, invalidLimit] at hoptions

theorem SelectOk.starts_sorted : SortedBy EventRef.timestampNs selected.starts :=
  SortedBy.sublist (selectEvents_sorted selected.startSelector events)
    (applyDurationWindow_ok h.window_ok).1

/-- A measurement has evidence exactly when the policy can join some of the selected events. -/
theorem evidencePairs_ne_nil_iff :
    evidencePairs regexNew events options ≠ [] ↔ CanJoin options.matchPolicy selected := by
  obtain ⟨outcome, hrun, -⟩ := correlateSelected_sound selected.starts selected.ends
    options.matchPolicy options.samples selected.lifecycles
  rw [evidencePairs_eq h hrun]
  exact correlateSelected_ne_nil_iff h.samples_ne_zero h.starts_sorted hrun

omit h

/-- A measurement succeeds exactly when it selects events that the policy can join. -/
theorem measure_ok_iff : (∃ result, measure regexNew events options = some (.ok result)) ↔
      ∃ selected, select regexNew events options = .ok selected ∧
        CanJoin options.matchPolicy selected := by
  constructor
  · rintro ⟨result, hmeasure⟩
    obtain ⟨selected, outcome, hselect, hrun, hne, -⟩ := measure_eq_ok hmeasure
    refine ⟨selected, select_of_selectOk hselect, (evidencePairs_ne_nil_iff hselect).mp ?_⟩
    rwa [evidencePairs_eq hselect hrun]
  · rintro ⟨selected, hselect, hjoin⟩
    have hok := select_eq_ok hselect
    obtain ⟨outcome, hrun, -⟩ := correlateSelected_sound selected.starts selected.ends
      options.matchPolicy options.samples selected.lifecycles
    have hne := (evidencePairs_ne_nil_iff hok).mpr hjoin
    rw [evidencePairs_eq hok hrun] at hne
    obtain ⟨result, hmeasure, -⟩ := measure_ok_of_pairs hok hrun hne
    exact ⟨result, hmeasure⟩

end Xprobe.Correlator
