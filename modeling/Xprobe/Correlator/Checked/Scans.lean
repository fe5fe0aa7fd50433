import Xprobe.Correlator.Greedy
import Xprobe.Correlator.Nearest
import Xprobe.Correlator.Checked.Keyed

/-!
# Scans by index in machine arithmetic

The pairing algorithms that scan the ends by index. What their model abbreviates (the ends from an
index on, the starts that are left) is an index here, and an index out of range is a panic.

An end index never passes the end of its list (`skipEndsAt_drop`), so the number of remaining ends is
a subtraction that does not underflow.
-/

namespace Xprobe.Correlator

open Foundation Protocol

/-! ## Greedy scans by index -/

/-- The variables of a scan: `endIndex` is the source's `end_index`. -/
structure ScanState where
  pairs : List Pair
  unmatchedStart : Nat
  unmatchedEnd : Nat
  endIndex : Nat

/-- The `while` loop that passes over the ends earlier than a start. -/
def skipEndsAt (ends : List EventRef) (startNs : UInt64) (endIndex unmatchedEnd : Nat) :
    Option (Nat × Nat) :=
  if h : endIndex < ends.length then
    if ends[endIndex].timestampNs < startNs then
      match addU64 unmatchedEnd 1, addU64 endIndex 1 with
      | some unmatchedEnd, some _ => skipEndsAt ends startNs (endIndex + 1) unmatchedEnd
      | _, _ => none
    else some (endIndex, unmatchedEnd)
  else some (endIndex, unmatchedEnd)
termination_by ends.length - endIndex

def ScanState.view (ends : List EventRef) (st : ScanState) : GreedyState :=
  ⟨st.pairs, st.unmatchedStart, st.unmatchedEnd, ends.drop st.endIndex⟩

variable {ends : List EventRef}

/-- The index stops where the remaining ends begin, still inside the list or at its end. -/
theorem skipEndsAt_drop (hends : ends.length < 2 ^ 64) (startNs : UInt64)
    {endIndex unmatchedEnd : Nat} (hindex : endIndex ≤ ends.length)
    (hfits : unmatchedEnd + (skipEnds startNs (ends.drop endIndex)).2 < 2 ^ 64) :
    ∃ next, skipEndsAt ends startNs endIndex unmatchedEnd =
        some (next, unmatchedEnd + (skipEnds startNs (ends.drop endIndex)).2) ∧
      ends.drop next = (skipEnds startNs (ends.drop endIndex)).1 ∧ next ≤ ends.length := by
  induction hleft : ends.length - endIndex generalizing endIndex unmatchedEnd with
  | zero =>
    have hend : endIndex = ends.length := by omega
    subst hend
    rw [skipEndsAt]
    simp [skipEnds]
  | succ left ih =>
    have hlt : endIndex < ends.length := by omega
    rw [List.drop_eq_getElem_cons hlt, skipEnds] at hfits ⊢
    rw [skipEndsAt, dif_pos hlt]
    split_ifs at hfits ⊢ with hearly
    · -- one more end is passed over
      simp only at hfits
      rw [addU64_of_lt (by omega), addU64_of_lt (by omega)]
      obtain ⟨next, hrun, hdrop, hle⟩ := @ih (endIndex + 1) (unmatchedEnd + 1) (by omega)
        (by omega) (by omega)
      refine ⟨next, ?_, hdrop, hle⟩
      simp only [hrun]
      rw [Nat.add_assoc, Nat.add_comm 1]
    · exact ⟨endIndex, rfl, List.drop_eq_getElem_cons hlt, hindex⟩

def ScanState.Simulates (ends : List EventRef) (scan : ScanState) (st : GreedyState) : Prop :=
  scan.view ends = st ∧ scan.endIndex ≤ ends.length

variable {scan : ScanState} {st : GreedyState}

/-- The end at the index is the first one that remains. -/
theorem ScanState.Simulates.skipEndsAt (h : scan.Simulates ends st) (hends : ends.length < 2 ^ 64)
    {startNs : UInt64} (hfits : st.unmatchedEnd + (skipEnds startNs st.ends).2 < 2 ^ 64) :
    ∃ next, Correlator.skipEndsAt ends startNs scan.endIndex scan.unmatchedEnd =
        some (next, st.unmatchedEnd + (skipEnds startNs st.ends).2) ∧
      ends[next]? = (skipEnds startNs st.ends).1.head? ∧
      ends.drop next = (skipEnds startNs st.ends).1 ∧
      ends.drop (next + 1) = (skipEnds startNs st.ends).1.tail ∧ next ≤ ends.length := by
  obtain ⟨rfl, hindex⟩ := h
  obtain ⟨next, hskip, hdrop, hle⟩ := skipEndsAt_drop hends startNs hindex hfits
  refine ⟨next, hskip, ?_, hdrop, ?_, hle⟩
  · rw [← List.head?_drop, hdrop]
    rfl
  · rw [← List.tail_drop, hdrop]
    rfl

/-- The loop of `correlate_first_after` over the starts, from an index on. -/
def firstAfterLoopAt (limit : Nat) (starts ends : List EventRef) :
    Nat → List EventRef → ScanState → Option ScanState
  | _, [], st => some st
  | startIndex, start :: rest, st =>
    if st.pairs.length = limit then some st
    else do
      let (endIndex, unmatchedEnd) ←
        skipEndsAt ends start.timestampNs st.endIndex st.unmatchedEnd
      match ends[endIndex]? with
      | some e => do
        let latencyNs ← checkedSub e.timestampNs start.timestampNs
        let endIndex ← addU64 endIndex 1
        firstAfterLoopAt limit starts ends (startIndex + 1) rest
          { st with pairs := st.pairs ++ [⟨start, e, latencyNs⟩], unmatchedEnd, endIndex }
      | none => do
        let left ← subU64 starts.length startIndex
        let unmatchedStart ← addU64 st.unmatchedStart left
        some { st with unmatchedStart, unmatchedEnd, endIndex }

/-- `correlate_first_after`. -/
def correlateFirstAfterChecked (starts ends : List EventRef) (limit : Option Nat) :
    Option Outcome := do
  let limit := limit.getD usizeMax
  let st ← firstAfterLoopAt limit starts ends 0 starts ⟨[], 0, 0, 0⟩
  if st.pairs.length < limit then do
    let left ← subU64 ends.length st.endIndex
    let unmatchedEnd ← addU64 st.unmatchedEnd left
    some ⟨st.pairs, st.unmatchedStart, unmatchedEnd, 0⟩
  else some ⟨st.pairs, st.unmatchedStart, st.unmatchedEnd, 0⟩

/-- The counters are `u64` values. -/
def GreedyState.Fits (st : GreedyState) : Prop :=
  st.unmatchedStart < 2 ^ 64 ∧ st.unmatchedEnd < 2 ^ 64

variable {todo : List EventRef} {st' : GreedyState}

theorem fits_of_firstAfterLoop {limit : Nat} (hrun : firstAfterLoop limit todo st = some st')
    (h : st'.Fits) : st.Fits := by
  induction todo generalizing st with
  | nil =>
    cases hrun
    exact h
  | cons start rest ih =>
    rw [firstAfterLoop] at hrun
    split_ifs at hrun with hfull
    · cases hrun
      exact h
    · cases hremaining : (skipEnds start.timestampNs st.ends).1 with
      | nil =>
        simp only [hremaining] at hrun
        cases hrun
        obtain ⟨hstart, hend⟩ := h
        simp only at hstart hend
        exact ⟨by omega, by omega⟩
      | cons e after =>
        simp only [hremaining] at hrun
        obtain ⟨latencyNs, -, hrun⟩ := Option.bind_eq_some_iff.mp hrun
        obtain ⟨hstart, hend⟩ := ih hrun
        simp only at hstart hend
        exact ⟨hstart, by omega⟩

variable {starts : List EventRef}

theorem firstAfterLoopAt_eq {limit : Nat} (hends : ends.length < 2 ^ 64) {startIndex : Nat}
    (hindex : startIndex + todo.length = starts.length) (hsimulates : scan.Simulates ends st)
    (hrun : firstAfterLoop limit todo st = some st') (hfits : st'.Fits) :
    ∃ scan', firstAfterLoopAt limit starts ends startIndex todo scan = some scan' ∧
      scan'.Simulates ends st' := by
  induction todo generalizing startIndex scan st with
  | nil =>
    cases hrun
    exact ⟨scan, rfl, hsimulates⟩
  | cons start rest ih =>
    have hpairs : scan.pairs = st.pairs := by rw [← hsimulates.1]; rfl
    have hunmatched : scan.unmatchedStart = st.unmatchedStart := by rw [← hsimulates.1]; rfl
    rw [List.length_cons] at hindex
    rw [firstAfterLoop] at hrun
    rw [firstAfterLoopAt, hpairs]
    split_ifs at hrun ⊢ with hfull
    · cases hrun
      exact ⟨scan, rfl, hsimulates⟩
    -- no end is left: the rest of the starts is counted at once
    · cases hremaining : (skipEnds start.timestampNs st.ends).1 with
      | nil =>
        simp only [hremaining] at hrun
        cases hrun
        obtain ⟨next, hskip, hnone, hdrop, -, hle⟩ := hsimulates.skipEndsAt hends hfits.2
        have hleft : starts.length - startIndex = (start :: rest).length := by
          rw [List.length_cons]
          omega
        simp only [hskip, hnone, hremaining, List.head?_nil, some_bind]
        rw [subU64_of_le (by omega), some_bind, hleft, hunmatched, addU64_of_lt hfits.1]
        exact ⟨_, rfl, by simp [ScanState.view, hdrop, hremaining], hle⟩
      | cons e after =>
        simp only [hremaining] at hrun
        obtain ⟨latencyNs, hlatency, hrun⟩ := Option.bind_eq_some_iff.mp hrun
        obtain ⟨next, hskip, hsome, -, hafter, -⟩ :=
          hsimulates.skipEndsAt hends (fits_of_firstAfterLoop hrun hfits).2
        rw [hremaining] at hsome hafter
        have hnext := (List.getElem?_eq_some_iff.mp hsome).1
        simp only [hskip, hsome, List.head?_cons, hlatency, some_bind]
        rw [addU64_of_lt (by omega)]
        refine ih (by omega) ⟨?_, hnext⟩ hrun
        simp [ScanState.view, hafter, hunmatched]

theorem correlateFirstAfterChecked_eq (h : Countable starts ends) (limit : Option Nat) :
    ∃ outcome, correlateFirstAfterChecked starts ends limit = some outcome ∧
      correlateFirstAfter starts ends limit = some outcome ∧ outcome.Bounded starts ends := by
  obtain ⟨st, left, hrun, hinv, -, -⟩ := firstAfterLoop_spec (limit.getD usizeMax) starts _
    (greedyInv_init starts ends) (Nat.zero_le _)
  have hstarts := hinv.starts_ledger.balance
  have hends := hinv.ends_ledger.balance
  simp only [List.length_append, List.length_map, List.length_nil] at hstarts hends
  unfold Countable at h
  -- the scan by index shows the state of the scan by lists
  obtain ⟨scan, hscan, hview, hindex⟩ := @firstAfterLoopAt_eq ends ⟨[], 0, 0, 0⟩ _ starts st
    starts _ (by omega) 0 (by omega) ⟨rfl, Nat.zero_le _⟩ hrun ⟨by omega, by omega⟩
  have hleft : ends.length - scan.endIndex = st.ends.length := by
    rw [← hview]
    exact List.length_drop.symm
  subst hview
  change scan.pairs.length + ((ends.drop scan.endIndex).length + 0) + scan.unmatchedEnd =
    ends.length at hends
  change ends.length - scan.endIndex = (ends.drop scan.endIndex).length at hleft
  have houtcome : firstAfterOutcome (limit.getD usizeMax) (scan.view ends) =
      ⟨scan.pairs, scan.unmatchedStart,
        if scan.pairs.length < limit.getD usizeMax then
          scan.unmatchedEnd + (ends.drop scan.endIndex).length
        else scan.unmatchedEnd, 0⟩ := rfl
  refine ⟨firstAfterOutcome (limit.getD usizeMax) (scan.view ends), ?_, ?_, ?_⟩
  · rw [houtcome]
    simp only [correlateFirstAfterChecked, hscan, some_bind]
    -- what is left of the ends is only counted when the limit was not reached
    by_cases hroom : scan.pairs.length < limit.getD usizeMax
    · rw [if_pos hroom, if_pos hroom, subU64_of_le hindex, some_bind, hleft,
        addU64_of_lt (by omega)]
      rfl
    · rw [if_neg hroom, if_neg hroom]
  · simp only [correlateFirstAfter, hrun, some_bind]
  · rw [houtcome]
    change scan.pairs.length + left.length + scan.unmatchedStart = starts.length at hstarts
    constructor <;> simp only
    · omega
    · omega
    · split_ifs <;> omega
    · omega

/-! ## Streams -/

/-- The body of the loop over the starts of one stream. -/
def streamStartStepAt (ends : List EventRef) (st : ScanState) (start : EventRef) :
    Option ScanState := do
  let (endIndex, unmatchedEnd) ← skipEndsAt ends start.timestampNs st.endIndex st.unmatchedEnd
  match ends[endIndex]? with
  | some e => do
    let latencyNs ← checkedSub e.timestampNs start.timestampNs
    let endIndex ← addU64 endIndex 1
    some { st with pairs := st.pairs ++ [⟨start, e, latencyNs⟩], unmatchedEnd, endIndex }
  | none => do
    let unmatchedStart ← addU64 st.unmatchedStart 1
    some { st with unmatchedStart, unmatchedEnd, endIndex }

/-- The body of the loop over the streams. -/
def streamGroupStepChecked (st : StreamState) (entry : StreamKey × List EventRef) :
    Option StreamState :=
  match st.endGroups.get? entry.1 with
  | none => do
    let unmatchedStart ← addU64 st.unmatchedStart entry.2.length
    some { st with unmatchedStart }
  | some endGroup => do
    let inner ← entry.2.foldlM (streamStartStepAt endGroup)
      ⟨st.pairs, st.unmatchedStart, st.unmatchedEnd, 0⟩
    let left ← subU64 endGroup.length inner.endIndex
    let unmatchedEnd ← addU64 inner.unmatchedEnd left
    some
      { endGroups := st.endGroups.erase entry.1
        pairs := inner.pairs
        unmatchedStart := inner.unmatchedStart
        unmatchedEnd }

/-- `correlate_stream_order`. -/
def correlateStreamOrderChecked (starts ends : List EventRef) (limit : Option Nat) :
    Option Outcome := do
  let (startGroups, unmatchedStart) ← groupByChecked refStreamKey starts
  let (endGroups, unmatchedEnd) ← groupByChecked refStreamKey ends
  let st ← startGroups.entries.foldlM streamGroupStepChecked
    ⟨endGroups, [], unmatchedStart, unmatchedEnd⟩
  let left ← sumFitting 64 (st.endGroups.values.map List.length)
  let unmatchedEnd ← addU64 st.unmatchedEnd left
  some
    { pairs := truncate limit (sortPairs st.pairs)
      unmatchedStart := st.unmatchedStart
      unmatchedEnd
      ambiguous := 0 }

theorem fits_of_streamStartStep {start : EventRef} (hrun : streamStartStep st start = some st')
    (h : st'.Fits) : st.Fits := by
  rw [streamStartStep] at hrun
  cases hremaining : (skipEnds start.timestampNs st.ends).1 with
  | nil =>
    simp only [hremaining] at hrun
    cases hrun
    obtain ⟨hstart, hend⟩ := h
    simp only at hstart hend
    exact ⟨by omega, by omega⟩
  | cons e after =>
    simp only [hremaining] at hrun
    obtain ⟨latencyNs, -, hrun⟩ := Option.bind_eq_some_iff.mp hrun
    cases hrun
    obtain ⟨hstart, hend⟩ := h
    simp only at hstart hend
    exact ⟨hstart, by omega⟩

theorem streamStartStepAt_simulates (hends : ends.length < 2 ^ 64) {start : EventRef}
    (hsimulates : scan.Simulates ends st) (hrun : streamStartStep st start = some st')
    (hfits : st'.Fits) :
    ∃ scan', streamStartStepAt ends scan start = some scan' ∧ scan'.Simulates ends st' := by
  have hpairs : scan.pairs = st.pairs := by rw [← hsimulates.1]; rfl
  have hunmatched : scan.unmatchedStart = st.unmatchedStart := by rw [← hsimulates.1]; rfl
  rw [streamStartStep] at hrun
  rw [streamStartStepAt]
  cases hremaining : (skipEnds start.timestampNs st.ends).1 with
  | nil =>
    simp only [hremaining] at hrun
    cases hrun
    obtain ⟨next, hskip, hnone, hdrop, -, hle⟩ := hsimulates.skipEndsAt hends hfits.2
    simp only [hskip, hnone, hremaining, List.head?_nil, some_bind]
    rw [hunmatched, addU64_of_lt hfits.1]
    exact ⟨_, rfl, by simp [ScanState.view, hdrop, hremaining, hpairs], hle⟩
  | cons e after =>
    simp only [hremaining] at hrun
    obtain ⟨latencyNs, hlatency, hrun⟩ := Option.bind_eq_some_iff.mp hrun
    cases hrun
    obtain ⟨next, hskip, hsome, -, hafter, -⟩ := hsimulates.skipEndsAt hends hfits.2
    rw [hremaining] at hsome hafter
    have hnext := (List.getElem?_eq_some_iff.mp hsome).1
    simp only [hskip, hsome, List.head?_cons, hlatency, some_bind]
    rw [addU64_of_lt (by omega)]
    exact ⟨_, rfl, by simp [ScanState.view, hafter, hunmatched, hpairs], hnext⟩

/-- The counters are `u64` values. -/
def StreamState.Fits (st : StreamState) : Prop :=
  st.unmatchedStart < 2 ^ 64 ∧ st.unmatchedEnd < 2 ^ 64

/-- The step for a stream, where no group of ends is too long to be indexed. -/
theorem streamGroupStepChecked_eq {st st' : StreamState} {entry : StreamKey × List EventRef}
    (hgroups : ∀ k group, st.endGroups.get? k = some group → group.length < 2 ^ 64)
    (hrun : streamGroupStep st entry = some st') (h : st'.Fits) :
    streamGroupStepChecked st entry = some st' ∧ st.Fits := by
  rw [streamGroupStep] at hrun
  rw [streamGroupStepChecked]
  cases hget : st.endGroups.get? entry.1 with
  | none =>
    simp only [hget] at hrun ⊢
    cases hrun
    obtain ⟨hstart, hend⟩ := h
    simp only at hstart hend
    exact ⟨by simp [addU64_of_lt hstart], by omega, hend⟩
  | some endGroup =>
    simp only [hget] at hrun ⊢
    obtain ⟨inner, hinner, hrun⟩ := Option.bind_eq_some_iff.mp hrun
    cases hrun
    obtain ⟨hstart, hend⟩ := h
    simp only at hstart hend
    have hfits : inner.Fits := ⟨hstart, by omega⟩
    obtain ⟨scan, hscan, rfl, hindex⟩ := foldlM_simulates (f := streamStartStep)
      (g := streamStartStepAt endGroup) (R := ScanState.Simulates endGroup)
      (fun s a s' => fits_of_streamStartStep)
      (fun t s a s' => streamStartStepAt_simulates (hgroups _ _ hget)) entry.2
      ⟨st.pairs, st.unmatchedStart, st.unmatchedEnd, 0⟩ _ _ ⟨rfl, Nat.zero_le _⟩ hinner hfits
    have hfirst : GreedyState.Fits ⟨st.pairs, st.unmatchedStart, st.unmatchedEnd, endGroup⟩ :=
      (foldlM_checked (f := streamStartStep) (g := streamStartStep)
        (fun s a s' hs hs' => ⟨hs, fits_of_streamStartStep hs hs'⟩) entry.2 _ _ hinner hfits).2
    have hleft : endGroup.length - scan.endIndex = (endGroup.drop scan.endIndex).length :=
      List.length_drop.symm
    change scan.unmatchedEnd + (endGroup.drop scan.endIndex).length < 2 ^ 64 at hend
    refine ⟨?_, hfirst⟩
    simp only [hscan, some_bind]
    rw [subU64_of_le hindex, some_bind, hleft, addU64_of_lt hend]
    rfl

/-- A step only takes groups of ends away. -/
theorem endGroups_of_streamGroupStep {st st' : StreamState} {entry : StreamKey × List EventRef}
    (hrun : streamGroupStep st entry = some st') {k : StreamKey} {group : List EventRef}
    (hget : st'.endGroups.get? k = some group) : st.endGroups.get? k = some group := by
  rw [streamGroupStep] at hrun
  cases hentry : st.endGroups.get? entry.1 with
  | none =>
    simp only [hentry] at hrun
    cases hrun
    exact hget
  | some endGroup =>
    simp only [hentry] at hrun
    obtain ⟨inner, -, hrun⟩ := Option.bind_eq_some_iff.mp hrun
    cases hrun
    rw [BTreeMap.get?_erase] at hget
    split_ifs at hget
    exact hget

theorem streamGroups_checked {entries : List (StreamKey × List EventRef)} {st st' : StreamState}
    (hgroups : ∀ k group, st.endGroups.get? k = some group → group.length < 2 ^ 64)
    (hrun : entries.foldlM streamGroupStep st = some st') (h : st'.Fits) :
    entries.foldlM streamGroupStepChecked st = some st' ∧ st.Fits := by
  induction entries generalizing st with
  | nil =>
    cases hrun
    exact ⟨rfl, h⟩
  | cons entry rest ih =>
    rw [List.foldlM_cons] at hrun ⊢
    obtain ⟨next, hnext, hrun⟩ := Option.bind_eq_some_iff.mp hrun
    have hnextGroups : ∀ k group, next.endGroups.get? k = some group → group.length < 2 ^ 64 :=
      fun k group hget => hgroups k group (endGroups_of_streamGroupStep hnext hget)
    obtain ⟨hrest, hfits⟩ := ih hnextGroups hrun
    obtain ⟨hchecked, hfirst⟩ := streamGroupStepChecked_eq hgroups hnext hfits
    rw [hchecked]
    exact ⟨hrest, hfirst⟩

theorem correlateStreamOrderChecked_eq (h : Countable starts ends) (limit : Option Nat) :
    ∃ outcome, correlateStreamOrderChecked starts ends limit = some outcome ∧
      correlateStreamOrder starts ends limit = some outcome ∧ outcome.Bounded starts ends := by
  obtain ⟨st, hrun, hinv⟩ := streamLoop_inv starts ends
  have hstarts := hinv.starts_ledger.balance
  have hends := hinv.ends_ledger.balance
  simp only [List.length_append, List.length_map, List.map_nil, List.flatten_nil, List.length_nil,
    List.length_flatten] at hstarts hends
  unfold Countable at h
  have hgroups : ∀ k group, (groupByStream ends).1.get? k = some group →
      group.length < 2 ^ 64 := by
    intro k group hget
    obtain ⟨rfl, -⟩ := BTreeMap.mem_groupBy_entries.mp (BTreeMap.get?_eq_some_iff.mp hget)
    have hle : (BTreeMap.group refStreamKey ends k).length ≤ ends.length :=
      List.length_filter_le ..
    omega
  have hgroupRun : (groupByStream starts).1.entries.foldlM streamGroupStep
      ⟨(groupByStream ends).1, [], (groupByStream starts).2, (groupByStream ends).2⟩ = some st :=
    hrun
  obtain ⟨hloop, -⟩ := streamGroups_checked hgroups hgroupRun ⟨by omega, by omega⟩
  have hstartGroups : groupByChecked refStreamKey starts = some (groupByStream starts) :=
    groupByChecked_eq refStreamKey (by omega)
  have hendGroups : groupByChecked refStreamKey ends = some (groupByStream ends) :=
    groupByChecked_eq refStreamKey (by omega)
  have hleft : sumFitting 64 (st.endGroups.values.map List.length) = some _ :=
    sumFitting_of_lt (by omega)
  have hpairs := length_truncate_sortPairs_le limit st.pairs
  refine ⟨_, ?_, by simp only [correlateStreamOrder, hrun]; rfl, ?_⟩
  · simp only [correlateStreamOrderChecked, hstartGroups, hendGroups, hloop, hleft,
      some_bind]
    rw [addU64_of_lt (by omega)]
    rfl
  · constructor <;> simp only <;> omega

/-! ## Nearest -/

/-- The loop of `correlate_nearest` over the starts, from an index on. -/
def nearestLoopAt (limit : Nat) (starts : List EventRef) :
    Nat → List EventRef → NearestState → Option NearestState
  | _, [], st => some st
  | index, start :: rest, st =>
    if st.pairs.length = limit then some { st with reachedLimit := true }
    else
      match selectTimestamp st.available start.timestampNs with
      | none => none
      | some none => do
        let left ← subU64 starts.length index
        let unmatchedStart ← addU64 st.unmatchedStart left
        some { st with unmatchedStart }
      | some (some selected) => do
        let bucket ← st.available.get? selected
        let e ← bucket.getLast?
        nearestLoopAt limit starts (index + 1) rest
          { st with
            available := putBack st.available selected bucket.dropLast
            pairs := st.pairs ++ [⟨start, e, absDiff selected start.timestampNs⟩] }

/-- `correlate_nearest`. -/
def correlateNearestChecked (starts ends : List EventRef) (limit : Option Nat) :
    Option Outcome := do
  let st ← nearestLoopAt (limit.getD usizeMax) starts 0 starts ⟨availableEnds ends, [], 0, false⟩
  if st.reachedLimit then some ⟨st.pairs, st.unmatchedStart, 0, 0⟩
  else do
    let left ← sumFitting 64 (st.available.values.map List.length)
    some ⟨st.pairs, st.unmatchedStart, left, 0⟩

theorem nearestLoopAt_eq {limit : Nat} {index : Nat} {st st' : NearestState}
    (hindex : index + todo.length = starts.length) (hrun : nearestLoop limit todo st = some st')
    (hfits : st'.unmatchedStart < 2 ^ 64) :
    nearestLoopAt limit starts index todo st = some st' := by
  induction todo generalizing index st with
  | nil => exact hrun
  | cons start rest ih =>
    rw [List.length_cons] at hindex
    rw [nearestLoop] at hrun
    rw [nearestLoopAt]
    split_ifs at hrun ⊢ with hfull
    · exact hrun
    · cases hselect : selectTimestamp st.available start.timestampNs with
      | none =>
        simp only [hselect] at hrun
        cases hrun
      | some choice =>
        cases choice with
        | none =>
          simp only [hselect] at hrun ⊢
          cases hrun
          have hleft : starts.length - index = (start :: rest).length := by
            rw [List.length_cons]
            omega
          rw [subU64_of_le (by omega), hleft]
          simp only [some_bind]
          rw [addU64_of_lt hfits]
          rfl
        | some selected =>
          simp only [hselect] at hrun ⊢
          obtain ⟨bucket, hbucket, hrun⟩ := Option.bind_eq_some_iff.mp hrun
          obtain ⟨e, he, hrun⟩ := Option.bind_eq_some_iff.mp hrun
          simp only [hbucket, he, some_bind]
          exact ih (by omega) hrun

theorem correlateNearestChecked_eq (h : Countable starts ends) (limit : Option Nat) :
    ∃ outcome, correlateNearestChecked starts ends limit = some outcome ∧
      correlateNearest starts ends limit = some outcome ∧ outcome.Bounded starts ends := by
  obtain ⟨st, left, hrun, hinv, -, -⟩ := nearestLoop_spec (limit.getD usizeMax) starts _
    (nearestInv_init starts ends) rfl (Nat.zero_le _)
  have hstarts := hinv.starts_ledger.balance
  have hends := hinv.ends_ledger.balance
  simp only [List.length_append, List.length_map, List.length_flatten] at hstarts hends
  unfold Countable at h
  have hloop := @nearestLoopAt_eq starts starts _ 0 _ _ (by omega) hrun (by omega)
  have hleft : sumFitting 64 (st.available.values.map List.length) = some _ :=
    sumFitting_of_lt (by omega)
  refine ⟨nearestOutcome st, ?_, ?_, ?_⟩
  · simp only [correlateNearestChecked, hloop, hleft, nearestOutcome, some_bind]
    split_ifs <;> rfl
  · simp only [correlateNearest, hrun, some_bind]
  · constructor <;> simp only [nearestOutcome]
    · omega
    · omega
    · split_ifs <;> omega
    · omega

end Xprobe.Correlator
