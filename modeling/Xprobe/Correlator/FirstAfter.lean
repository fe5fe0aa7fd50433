import Xprobe.Foundation.Matching
import Xprobe.Correlator.Soundness

/-!
# What first-after and stream-order pairing compute

Without a sample limit, `correlate_first_after` is the scan `firstAfter` of the library
(`correlateFirstAfter_eq`): its pairs are those of the procedure that searches all ends not given
away yet, and no matching of starts to later ends has more of them.

`correlate_stream_order` is the same scan on each stream, and its bookkeeping amounts to the counters
of `correlate_first_after`, stream by stream.
-/

namespace Xprobe.Correlator

open Foundation Protocol

def greedyPair (candidate : EventRef × EventRef) : Pair :=
  ⟨candidate.1, candidate.2, candidate.2.timestampNs - candidate.1.timestampNs⟩

def firstAfterPairs (starts ends : List EventRef) : List Pair :=
  (firstAfter EventRef.timestampNs EventRef.timestampNs starts ends).map greedyPair

/-! ## First after -/

theorem skipEnds_fst {startNs : UInt64} {p : EventRef → Bool}
    (hp : ∀ e, p e = true ↔ e.timestampNs < startNs) (ends : List EventRef) :
    (skipEnds startNs ends).1 = ends.dropWhile p := by
  induction ends with
  | nil => rfl
  | cons e rest ih =>
    rw [skipEnds]
    split_ifs with hlt
    · rw [List.dropWhile_cons_of_pos ((hp e).mpr hlt)]
      exact ih
    · rw [List.dropWhile_cons_of_neg (mt (hp e).mp hlt)]

/-- One start of a scan: it takes the first end that remains, or there is none left. -/
private theorem firstAfterPairs_cons (start : EventRef) (rest ends : List EventRef) :
    firstAfterPairs (start :: rest) ends =
      match (skipEnds start.timestampNs ends).1 with
      | [] => []
      | e :: after => greedyPair (start, e) :: firstAfterPairs rest after := by
  rw [firstAfterPairs, firstAfter, ← @skipEnds_fst start.timestampNs _ ?_ ends]
  · cases (skipEnds start.timestampNs ends).1 with
    | nil => rfl
    | cons e after => rfl
  · intro e
    simp

/-- The loop appends the pairs of the scan, up to the limit. -/
theorem firstAfterLoop_pairs {limit : Nat} (todo : List EventRef) {st : GreedyState}
    (hlimit : st.pairs.length ≤ limit) :
    ∃ st', firstAfterLoop limit todo st = some st' ∧
      st'.pairs = st.pairs ++ (firstAfterPairs todo st.ends).take (limit - st.pairs.length) := by
  induction todo generalizing st with
  | nil => exact ⟨st, rfl, by simp [firstAfterPairs, firstAfter]⟩
  | cons start rest ih =>
    rw [firstAfterLoop, firstAfterPairs_cons]
    split_ifs with hfull
    · exact ⟨st, rfl, by simp [hfull]⟩
    cases hskip : (skipEnds start.timestampNs st.ends).1 with
    | nil => exact ⟨_, by simp only [hskip]; rfl, by simp⟩
    | cons e after =>
      simp only [hskip, checkedSub_of_le (le_of_skipEnds_eq_cons hskip), some_bind]
      obtain ⟨st', hrun, hpairs⟩ := @ih
        { st with
          pairs := st.pairs ++ [greedyPair (start, e)]
          unmatchedEnd := st.unmatchedEnd + (skipEnds start.timestampNs st.ends).2
          ends := after } (by simp only [List.length_append, List.length_singleton]; omega)
      have hroom : limit - st.pairs.length = limit - (st.pairs.length + 1) + 1 := by omega
      refine ⟨st', hrun, ?_⟩
      rw [hpairs, hroom, List.take_succ_cons, List.append_assoc, List.length_append]
      rfl

theorem starts_firstAfterPairs_sublist (starts ends : List EventRef) :
    ((firstAfterPairs starts ends).map Pair.startEvent).Sublist starts := by
  rw [firstAfterPairs, List.map_map]
  exact (firstAfter_sublists starts ends).1

/-- The scan finds a pair when some end is at or after some start: the first start then takes an
    end. -/
theorem firstAfterPairs_ne_nil {starts ends : List EventRef} {start e : EventRef}
    (hsorted : SortedBy EventRef.timestampNs starts) (hstart : start ∈ starts) (he : e ∈ ends)
    (hle : start.timestampNs ≤ e.timestampNs) : firstAfterPairs starts ends ≠ [] := by
  cases starts with
  | nil => cases hstart
  | cons first rest =>
    have hfirst : first.timestampNs ≤ start.timestampNs := by
      rcases List.mem_cons.mp hstart with rfl | hrest
      · exact le_rfl
      · exact (List.pairwise_cons.mp hsorted).1 start hrest
    rw [firstAfterPairs_cons]
    cases hskip : (skipEnds first.timestampNs ends).1 with
    | cons e after => exact List.cons_ne_nil _ _
    | nil =>
      -- the first start has passed over all ends, though one is not before it
      rw [@skipEnds_fst _ (fun e => e.timestampNs < first.timestampNs) (by simp),
        List.dropWhile_eq_nil_iff] at hskip
      exact absurd (of_decide_eq_true (hskip e he)) (not_lt.mpr (hfirst.trans hle))

/-- First-after pairing is the scan, cut at the limit. -/
theorem correlateFirstAfter_pairs (starts ends : Slice EventRef) (limit : Option Nat) :
    ∃ outcome, correlateFirstAfter starts.toList ends.toList limit = some outcome ∧
      outcome.pairs = truncate limit (firstAfterPairs starts.toList ends.toList) := by
  have hlength := (starts_firstAfterPairs_sublist starts.toList ends.toList).length_le
  rw [List.length_map] at hlength
  obtain ⟨st, hloop, hpairs⟩ := @firstAfterLoop_pairs (limit.getD usizeMax) starts.toList
    ⟨[], 0, 0, ends.toList⟩ (Nat.zero_le _)
  refine ⟨firstAfterOutcome (limit.getD usizeMax) st, ?_, hpairs.trans ?_⟩
  · simp only [correlateFirstAfter, hloop, some_bind]
  · exact take_getD_eq_truncate (hlength.trans starts.length_lt_usizeMax.le) limit

/-- Without a limit, first-after pairing is the scan, and what it does not pair is unmatched. -/
theorem correlateFirstAfter_eq (starts ends : Slice EventRef) :
    ∃ outcome, correlateFirstAfter starts.toList ends.toList none = some outcome ∧
      outcome.pairs = firstAfterPairs starts.toList ends.toList ∧
      Conserves starts.toList ends.toList outcome 0 0 ∧ outcome.ambiguous = 0 := by
  obtain ⟨outcome, hrun, hconserves, hambiguous⟩ := correlateFirstAfter_conserves starts ends
  obtain ⟨outcome', hrun', hpairs⟩ := correlateFirstAfter_pairs starts ends none
  obtain rfl : outcome' = outcome := Option.some.inj (hrun'.symm.trans hrun)
  exact ⟨outcome', hrun, hpairs, hconserves, hambiguous⟩

/-- First-after pairing gives each start, in order, the earliest end at or after it that no earlier
    start was given, and no matching of starts to ends at or after them has more pairs. -/
theorem correlateFirstAfter_maximum (starts ends : Slice EventRef)
    (hstarts : SortedBy EventRef.timestampNs starts.toList)
    (hends : SortedBy EventRef.timestampNs ends.toList) :
    ∃ outcome, correlateFirstAfter starts.toList ends.toList none = some outcome ∧
      outcome.pairs = (firstAfterReference EventRef.timestampNs EventRef.timestampNs ends.toList
        starts.toList []).map greedyPair ∧
      PairsSound Pair.Forward starts.toList ends.toList outcome.pairs ∧
      ∀ pairs, PairsSound (fun pair => pair.startEvent.timestampNs ≤ pair.endEvent.timestampNs)
        starts.toList ends.toList pairs → pairs.length ≤ outcome.pairs.length := by
  obtain ⟨outcome, hrun, hpairs, -⟩ := correlateFirstAfter_eq starts ends
  obtain ⟨outcome', hrun', hsound, -⟩ :=
    correlateFirstAfter_sound starts.toList ends.toList none
  obtain rfl : outcome = outcome' := Option.some.inj (hrun.symm.trans hrun')
  refine ⟨outcome, hrun, ?_, hsound, ?_⟩
  · rw [hpairs, firstAfterReference_eq _ _ hstarts hends]
    rfl
  · intro pairs h
    have hmatching : ForwardMatching EventRef.timestampNs EventRef.timestampNs starts.toList
        ends.toList (pairs.map (fun pair => (pair.startEvent, pair.endEvent))) := by
      refine ⟨?_, ?_, ?_⟩
      · rw [List.map_map]
        exact h.starts_used
      · rw [List.map_map]
        exact h.ends_used
      · intro candidate hcandidate
        obtain ⟨pair, hpair, rfl⟩ := List.mem_map.mp hcandidate
        exact h.related pair hpair
    have hle := length_le_firstAfter hstarts hends hmatching
    rw [List.length_map] at hle
    rw [hpairs, firstAfterPairs, List.length_map]
    exact hle

/-- Two starts and two ends of which only the first start finds an end. -/
theorem correlateFirstAfter_maximum_reads : ∃ outcome, correlateFirstAfter
        [⟨0, readEvent .syscallEntry 10⟩, ⟨2, readEvent .syscallEntry 30⟩]
        [⟨1, readEvent .syscallExit 5⟩, ⟨3, readEvent .syscallExit 20⟩] none = some outcome ∧
      outcome.pairs.length = 1 := by
  have h := correlateFirstAfter_maximum
    ⟨[⟨0, readEvent .syscallEntry 10⟩, ⟨2, readEvent .syscallEntry 30⟩], by decide⟩
    ⟨[⟨1, readEvent .syscallExit 5⟩, ⟨3, readEvent .syscallExit 20⟩], by decide⟩
    (by simp [SortedBy, EventRef.timestampNs, readEvent])
    (by simp [SortedBy, EventRef.timestampNs, readEvent])
  obtain ⟨outcome, hrun, hpairs, -⟩ := h
  exact ⟨outcome, hrun, by rw [hpairs]; rfl⟩

/-! ## Stream order -/

/-- The scan of one stream, whose loop goes on when the ends have run out. -/
private theorem streamStarts_pairs (todo : List EventRef) (st : GreedyState) :
    ∃ st', todo.foldlM streamStartStep st = some st' ∧
      st'.pairs = st.pairs ++ firstAfterPairs todo st.ends := by
  induction todo generalizing st with
  | nil => exact ⟨st, rfl, by simp [firstAfterPairs, firstAfter]⟩
  | cons start rest ih =>
    rw [List.foldlM_cons, streamStartStep, firstAfterPairs_cons]
    cases hskip : (skipEnds start.timestampNs st.ends).1 with
    | nil =>
      simp only [hskip, some_bind]
      obtain ⟨st', hrun, hpairs⟩ := ih
        { st with
          unmatchedStart := st.unmatchedStart + 1
          unmatchedEnd := st.unmatchedEnd + (skipEnds start.timestampNs st.ends).2
          ends := [] }
      refine ⟨st', hrun, ?_⟩
      simpa [firstAfterPairs] using hpairs
    | cons e after =>
      simp only [hskip, checkedSub_of_le (le_of_skipEnds_eq_cons hskip), some_bind]
      obtain ⟨st', hrun, hpairs⟩ := ih
        { st with
          pairs := st.pairs ++ [⟨start, e, e.timestampNs - start.timestampNs⟩]
          unmatchedEnd := st.unmatchedEnd + (skipEnds start.timestampNs st.ends).2
          ends := after }
      refine ⟨st', hrun, ?_⟩
      rw [hpairs, List.append_assoc]
      rfl

/-- The pairs that a group of starts adds. -/
private theorem streamGroupStep_pairs (st : StreamState) (k : StreamKey) (g : List EventRef) :
    ∃ st', streamGroupStep st (k, g) = some st' ∧
      st'.pairs = st.pairs ++ firstAfterPairs g ((st.endGroups.get? k).getD []) ∧
      ∀ k' ≠ k, st'.endGroups.get? k' = st.endGroups.get? k' := by
  cases hget : st.endGroups.get? k with
  | none =>
    refine ⟨{ st with unmatchedStart := st.unmatchedStart + g.length }, ?_, ?_, fun _ _ => rfl⟩
    · simp only [streamGroupStep, hget]
    · simp [firstAfterPairs]
  | some endGroup =>
    obtain ⟨inner, hrun, hpairs⟩ := streamStarts_pairs g
      ⟨st.pairs, st.unmatchedStart, st.unmatchedEnd, endGroup⟩
    refine ⟨_, by simp only [streamGroupStep, hget, hrun]; rfl, hpairs, ?_⟩
    intro k' hne
    exact (BTreeMap.get?_erase _ _ _).trans (if_neg hne)

/-- The loop over the streams appends the scan of each of them. -/
private theorem streamGroups_pairs {entries : List (StreamKey × List EventRef)}
    (hkeys : (entries.map Prod.fst).Nodup) (st : StreamState) :
    ∃ st', entries.foldlM streamGroupStep st = some st' ∧
      st'.pairs = st.pairs ++
        entries.flatMap (fun (k, g) => firstAfterPairs g ((st.endGroups.get? k).getD [])) := by
  induction entries generalizing st with
  | nil => exact ⟨st, rfl, (List.append_nil _).symm⟩
  | cons entry rest ih =>
    obtain ⟨k, g⟩ := entry
    obtain ⟨hfresh, hrest⟩ := List.nodup_cons.mp hkeys
    obtain ⟨st₁, hstep, hpairs₁, hgroups⟩ := streamGroupStep_pairs st k g
    obtain ⟨st', hrun, hpairs⟩ := ih hrest st₁
    refine ⟨st', by rw [List.foldlM_cons, hstep]; exact hrun, ?_⟩
    rw [hpairs, hpairs₁, List.append_assoc, List.flatMap_cons]
    -- the groups of ends that the rest of the loop removes are still there
    congr 2
    apply List.flatMap_congr
    rintro ⟨k', g'⟩ hmem
    have hne : k' ≠ k := by
      rintro rfl
      exact hfresh (List.mem_map.mpr ⟨(k', g'), hmem, rfl⟩)
    simp only [hgroups k' hne]

def streamKeys (starts ends : List EventRef) : Finset StreamKey :=
  ((starts ++ ends).filterMap refStreamKey).toFinset

def ofStream (events : List EventRef) (k : StreamKey) : List EventRef :=
  BTreeMap.group refStreamKey events k

/-- The events that lack a complete key. -/
def keyless (events : List EventRef) : Nat :=
  events.countP (fun ref => (refStreamKey ref).isNone)

private theorem getD_groupByStream (ends : List EventRef) (k : StreamKey) :
    ((groupByStream ends).1.get? k).getD [] = ofStream ends k := by
  rw [groupByStream, BTreeMap.get?_groupBy]
  split_ifs with hempty
  · exact hempty.symm
  · rfl

/-- The pairs of the loop over the streams, as a multiset: the scans of all streams. -/
theorem streamLoop_pairs (starts ends : List EventRef) : ∃ st, streamLoop starts ends = some st ∧
      (st.pairs : Multiset Pair) = ∑ k ∈ streamKeys starts ends,
        (firstAfterPairs (ofStream starts k) (ofStream ends k) : Multiset Pair) := by
  obtain ⟨st, hrun, hpairs⟩ := streamGroups_pairs (groupByStream starts).1.keys_nodup
    ⟨(groupByStream ends).1, [], (groupByStream starts).2, (groupByStream ends).2⟩
  refine ⟨st, hrun, ?_⟩
  -- the groups of the maps are the events of each stream
  have hentries : (groupByStream starts).1.entries.flatMap (fun (k, g) =>
      firstAfterPairs g (((groupByStream ends).1.get? k).getD [])) =
      (groupByStream starts).1.entries.flatMap (fun entry =>
        firstAfterPairs (ofStream starts entry.1) (ofStream ends entry.1)) := by
    apply List.flatMap_congr
    rintro ⟨k, g⟩ hmem
    obtain ⟨rfl, -⟩ := BTreeMap.mem_groupBy_entries.mp hmem
    simp only [getD_groupByStream]
    rfl
  rw [List.nil_append] at hpairs
  -- a list of pairs over distinct keys is a sum over their set
  have hsum : ((groupByStream starts).1.entries.flatMap (fun entry =>
      firstAfterPairs (ofStream starts entry.1) (ofStream ends entry.1)) : Multiset Pair) =
      ∑ k ∈ ((groupByStream starts).1.entries.map Prod.fst).toFinset,
        (firstAfterPairs (ofStream starts k) (ofStream ends k) : Multiset Pair) := by
    rw [List.sum_toFinset _ (groupByStream starts).1.keys_nodup, List.map_map, ← Multiset.coe_bind,
      Multiset.bind, Multiset.join, Multiset.map_coe, Multiset.sum_coe]
    rfl
  rw [hpairs, hentries, hsum]
  apply Finset.sum_subset
  · intro k hk
    rw [List.mem_toFinset, groupByStream, BTreeMap.mem_keys_groupBy] at hk
    rw [streamKeys, List.mem_toFinset, List.filterMap_append]
    exact List.mem_append_left _ hk
  · -- a stream that has ends only adds no pair
    intro k _ hk
    rw [List.mem_toFinset, groupByStream, BTreeMap.mem_keys_groupBy] at hk
    have hempty : ofStream starts k = [] := by
      apply List.eq_nil_iff_forall_not_mem.mpr
      intro ref href
      obtain ⟨hmem, hkey⟩ := BTreeMap.mem_group.mp href
      exact hk (List.mem_filterMap.mpr ⟨ref, hmem, hkey⟩)
    rw [hempty]
    rfl

/-- Each event is in one of the streams or lacks a key. -/
private theorem sum_length_ofStream {events : List EventRef} {ks : Finset StreamKey}
    (h : ∀ ref ∈ events, ∀ k, refStreamKey ref = some k → k ∈ ks) :
    ∑ k ∈ ks, (ofStream events k).length + keyless events = events.length := by
  have hkeyed : ∑ k ∈ ks, (ofStream events k).length =
      events.countP (fun ref => ¬(refStreamKey ref).isNone) := by
    change ∑ k ∈ ks, (BTreeMap.group refStreamKey events k).length = _
    rw [← BTreeMap.length_filter_key_mem, ← List.countP_eq_length_filter]
    apply List.countP_congr
    intro ref href
    cases hkey : refStreamKey ref with
    | none => simp
    | some k => simpa using h ref href k hkey
  rw [hkeyed, keyless, Nat.add_comm]
  exact (List.length_eq_countP_add_countP _).symm

/-- What is not paired, stream by stream. -/
private theorem unmatched_eq_sum {events : List EventRef} {ks : Finset StreamKey} {matched : Nat}
    {unmatched : Nat} {pairs rest : StreamKey → Nat}
    (hkeys : ∀ ref ∈ events, ∀ k, refStreamKey ref = some k → k ∈ ks)
    (htotal : matched + unmatched = events.length) (hmatched : matched = ∑ k ∈ ks, pairs k)
    (hstream : ∀ k, pairs k + rest k = (ofStream events k).length) :
    unmatched = ∑ k ∈ ks, rest k + keyless events := by
  have hsum := sum_length_ofStream hkeys
  simp only [← hstream, Finset.sum_add_distrib] at hsum
  omega

/-- Stream-order pairing is first-after pairing on each stream: the pairs are those of all streams
    in the order of their starts, and the counters are the sums of the counters of the streams,
    besides the events that have no stream. -/
theorem correlateStreamOrder_eq_firstAfter (starts ends : Slice EventRef) :
    ∃ outcome, ∃ perStream : StreamKey → Outcome,
      correlateStreamOrder starts.toList ends.toList none = some outcome ∧
      (∀ k, correlateFirstAfter (ofStream starts.toList k) (ofStream ends.toList k) none =
        some (perStream k)) ∧
      SortedBy (fun pair => pair.startEvent.timestampNs) outcome.pairs ∧
      (outcome.pairs : Multiset Pair) =
        ∑ k ∈ streamKeys starts.toList ends.toList, ((perStream k).pairs : Multiset Pair) ∧
      outcome.unmatchedStart =
        ∑ k ∈ streamKeys starts.toList ends.toList, (perStream k).unmatchedStart +
          keyless starts.toList ∧
      outcome.unmatchedEnd =
        ∑ k ∈ streamKeys starts.toList ends.toList, (perStream k).unmatchedEnd +
          keyless ends.toList ∧
      outcome.ambiguous = ∑ k ∈ streamKeys starts.toList ends.toList, (perStream k).ambiguous := by
  have hslice : ∀ (events : Slice EventRef) k,
      (ofStream events.toList k).length ≤ isizeMax := fun events k =>
    le_trans (List.length_filter_le _ _) events.length_le
  -- one run of first-after for each stream
  have hstreams := fun k => correlateFirstAfter_eq ⟨ofStream starts.toList k, hslice starts k⟩
    ⟨ofStream ends.toList k, hslice ends k⟩
  choose perStream hrunStream hpairsStream hconservesStream hambiguousStream using hstreams
  obtain ⟨outcome, hrun, hconserves, hambiguous⟩ :=
    correlateStreamOrder_conserves starts.toList ends.toList
  obtain ⟨st, hloop, hst⟩ := streamLoop_pairs starts.toList ends.toList
  have houtcome : outcome.pairs = sortPairs st.pairs := by
    simp only [correlateStreamOrder, hloop, some_bind, truncate_none,
      Option.some.injEq] at hrun
    rw [← hrun]
  have hpairs : (outcome.pairs : Multiset Pair) =
      ∑ k ∈ streamKeys starts.toList ends.toList, ((perStream k).pairs : Multiset Pair) := by
    rw [houtcome, Multiset.coe_eq_coe.mpr (sortPairs_perm st.pairs), hst]
    exact Finset.sum_congr rfl (fun k _ => by rw [hpairsStream k])
  have hmatched : outcome.pairs.length =
      ∑ k ∈ streamKeys starts.toList ends.toList, (perStream k).pairs.length := by
    rw [← Multiset.coe_card, hpairs, Multiset.card_sum]
    rfl
  have hstarts : ∀ ref ∈ starts.toList, ∀ k, refStreamKey ref = some k →
      k ∈ streamKeys starts.toList ends.toList := by
    intro ref href k hk
    rw [streamKeys, List.mem_toFinset]
    exact List.mem_filterMap.mpr ⟨ref, List.mem_append_left _ href, hk⟩
  have hends : ∀ ref ∈ ends.toList, ∀ k, refStreamKey ref = some k →
      k ∈ streamKeys starts.toList ends.toList := by
    intro ref href k hk
    rw [streamKeys, List.mem_toFinset]
    exact List.mem_filterMap.mpr ⟨ref, List.mem_append_right _ href, hk⟩
  refine ⟨outcome, perStream, hrun, hrunStream, ?_, hpairs, ?_, ?_, ?_⟩
  · rw [houtcome]
    exact sortByKey_sorted _ _
  · exact unmatched_eq_sum hstarts hconserves.starts_balance hmatched
      (fun k => (hconservesStream k).starts_balance)
  · exact unmatched_eq_sum hends hconserves.ends_balance hmatched
      (fun k => (hconservesStream k).ends_balance)
  · rw [hambiguous, Finset.sum_eq_zero (fun k _ => hambiguousStream k)]

end Xprobe.Correlator
