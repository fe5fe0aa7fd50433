import Xprobe.Foundation.Checked
import Xprobe.Correlator.Exact
import Xprobe.Correlator.StackNested

/-!
# Pairing by key in machine arithmetic

The pairing algorithms that keep events by key, with the arithmetic of the source: counters are
`u64`, sizes are `usize`, and an overflow is a panic. The definitions follow the source statement by
statement.

The counters of a loop only grow and end below the number of events (`Outcome.Bounded`), so no
addition overflows; the subtractions of timestamps are safe by the invariants of the algorithms.
-/

namespace Xprobe.Correlator

open Foundation Protocol

/-! ## Bounds -/

structure Outcome.Bounded (starts ends : List EventRef) (outcome : Outcome) : Prop where
  pairs : outcome.pairs.length ≤ starts.length
  unmatchedStart : outcome.unmatchedStart ≤ starts.length
  unmatchedEnd : outcome.unmatchedEnd ≤ ends.length
  ambiguous : outcome.ambiguous ≤ starts.length + ends.length

/-- The two lists together are short enough to be counted. -/
def Countable (starts ends : List EventRef) : Prop := starts.length + ends.length < 2 ^ 64

theorem length_truncate_sortPairs_le (limit : Option Nat) (pairs : List Pair) :
    (truncate limit (sortPairs pairs)).length ≤ pairs.length :=
  (truncate_sublist limit _).length_le.trans_eq (sortPairs_perm pairs).length_eq

/-! ## Lifecycles -/

section

variable {κ : Type} [LinearOrder κ] (key : Event → Option κ)

/-- The body of the loop over the timeline. -/
def lifecycleStepChecked (st : LifecycleState κ) (entry : TimelineEntry) :
    Option (LifecycleState κ) :=
  match key entry.event.event with
  | none =>
    if entry.isEnd then do
      let unmatchedEnd ← addU64 st.unmatchedEnd 1
      some { st with unmatchedEnd }
    else do
      let unmatchedStart ← addU64 st.unmatchedStart 1
      some { st with unmatchedStart }
  | some k =>
    if entry.isEnd then
      match st.pending.get? k with
      | some start =>
        match checkedSub entry.event.timestampNs start.timestampNs with
        | some latencyNs =>
          some
            { st with
              pending := st.pending.erase k
              pairs := st.pairs ++ [⟨start, entry.event, latencyNs⟩] }
        | none => do
          let ambiguous ← addU64 st.ambiguous 1
          some { st with pending := st.pending.erase k, ambiguous }
      | none => do
        let unmatchedEnd ← addU64 st.unmatchedEnd 1
        some { st with unmatchedEnd }
    else
      match st.pending.get? k with
      | some _ => do
        let ambiguous ← addU64 st.ambiguous 1
        some { st with pending := st.pending.insert k entry.event, ambiguous }
      | none => some { st with pending := st.pending.insert k entry.event }

/-- `correlate_thread_lifecycle` and `correlate_nvtx_lifecycle`, by the key. -/
def correlateLifecycleChecked (starts ends : List EventRef) (limit : Option Nat) :
    Option Outcome := do
  let st ← (lifecycleTimeline starts ends).foldlM (lifecycleStepChecked key) ⟨.empty, [], 0, 0, 0⟩
  let unmatchedStart ← addU64 st.unmatchedStart st.pending.len
  some
    { pairs := truncate limit (sortPairs st.pairs)
      unmatchedStart
      unmatchedEnd := st.unmatchedEnd
      ambiguous := st.ambiguous }

/-- The counters are `u64` values. -/
def LifecycleState.Fits (st : LifecycleState κ) : Prop :=
  st.unmatchedStart < 2 ^ 64 ∧ st.unmatchedEnd < 2 ^ 64 ∧ st.ambiguous < 2 ^ 64

variable {key}

/-- A step whose counters fit is the step without checks, and the counters fitted before it. -/
theorem lifecycleStepChecked_eq (st : LifecycleState κ) (entry : TimelineEntry)
    (h : (lifecycleStep key st entry).Fits) :
    lifecycleStepChecked key st entry = some (lifecycleStep key st entry) ∧ st.Fits := by
  obtain ⟨isEnd, ref⟩ := entry
  unfold LifecycleState.Fits at h ⊢
  unfold lifecycleStep at h ⊢
  unfold lifecycleStepChecked
  -- each branch adds to one counter at most, and the counters after the step fit
  cases hkey : key ref.event with
  | none =>
    cases isEnd with
    | false =>
      simp only [hkey, Bool.false_eq_true, if_false] at h ⊢
      exact ⟨by simp [addU64_of_lt h.1], by omega⟩
    | true =>
      simp only [hkey, if_true] at h ⊢
      exact ⟨by simp [addU64_of_lt h.2.1], by omega⟩
  | some k =>
    cases hget : st.pending.get? k with
    | none =>
      cases isEnd with
      | false =>
        simp only [hkey, hget, Bool.false_eq_true, if_false] at h ⊢
        exact ⟨trivial, h⟩
      | true =>
        simp only [hkey, hget, if_true] at h ⊢
        exact ⟨by simp [addU64_of_lt h.2.1], by omega⟩
    | some start =>
      cases isEnd with
      | false =>
        simp only [hkey, hget, Bool.false_eq_true, if_false] at h ⊢
        exact ⟨by simp [addU64_of_lt h.2.2], by omega⟩
      | true =>
        cases hsub : checkedSub ref.timestampNs start.timestampNs with
        | none =>
          simp only [hkey, hget, hsub, if_true] at h ⊢
          exact ⟨by simp [addU64_of_lt h.2.2], by omega⟩
        | some latencyNs =>
          simp only [hkey, hget, hsub, if_true] at h ⊢
          exact ⟨trivial, h⟩

theorem correlateLifecycle_bounded (key : Event → Option κ) (starts ends : List EventRef)
    (limit : Option Nat) : (correlateLifecycle key starts ends limit).Bounded starts ends := by
  -- the counters do not depend on the limit
  obtain ⟨hstarts, hends⟩ := correlateLifecycle_conserves key starts ends
  have hpairs := length_truncate_sortPairs_le limit (lifecycleLoop key starts ends).pairs
  have hall : (correlateLifecycle key starts ends none).pairs.length =
      (lifecycleLoop key starts ends).pairs.length := (sortPairs_perm _).length_eq
  simp only [correlateLifecycle] at hstarts hends hall ⊢
  constructor <;> simp only <;> omega

theorem correlateLifecycleChecked_eq (key : Event → Option κ) {starts ends : List EventRef}
    (h : Countable starts ends) (limit : Option Nat) :
    correlateLifecycleChecked key starts ends limit =
      some (correlateLifecycle key starts ends limit) := by
  have hbounded := correlateLifecycle_bounded key starts ends limit
  obtain ⟨-, hstart, hend, hambiguous⟩ := hbounded
  unfold Countable at h
  simp only [correlateLifecycle] at hstart hend hambiguous
  have hfits : (lifecycleLoop key starts ends).Fits := ⟨by omega, by omega, by omega⟩
  have hloop : (lifecycleTimeline starts ends).foldlM (lifecycleStepChecked key)
      ⟨.empty, [], 0, 0, 0⟩ = some (lifecycleLoop key starts ends) :=
    (foldl_checked lifecycleStepChecked_eq _ _ hfits).1
  rw [correlateLifecycleChecked, hloop]
  simp only [some_bind]
  rw [addU64_of_lt (by omega)]
  rfl

end

/-! ## Counting events without a key -/

/-- The grouping loops of `correlate_exact` and `group_by_stream`. -/
def groupByChecked {κ : Type} [LinearOrder κ] (key : EventRef → Option κ)
    (events : List EventRef) : Option (BTreeMap κ (List EventRef) × Nat) :=
  events.foldlM (fun (groups, missing) event =>
    match key event with
    | some k => some (groups.push k event, missing)
    | none => do
      let missing ← addU64 missing 1
      some (groups, missing)) (.empty, 0)

theorem groupByChecked_eq {κ : Type} [LinearOrder κ] (key : EventRef → Option κ)
    {events : List EventRef} (h : events.length < 2 ^ 64) :
    groupByChecked key events = some (BTreeMap.groupBy key events) := by
  have hmissing := (BTreeMap.ledger_groupBy key events).balance
  have hfits : (BTreeMap.groupBy key events).2 < 2 ^ 64 := by omega
  refine (foldl_checked (P := fun (state : BTreeMap κ (List EventRef) × Nat) =>
    state.2 < 2 ^ 64) ?_ events (.empty, 0) hfits).1
  rintro ⟨groups, missing⟩ event hfits
  cases hkey : key event with
  | none =>
    simp only [hkey] at hfits ⊢
    exact ⟨by simp [addU64_of_lt hfits], by omega⟩
  | some k =>
    simp only [hkey] at hfits ⊢
    exact ⟨trivial, hfits⟩

/-! ## Correlation keys -/

/-- The body of the loop over the zipped groups of one key. -/
def exactPairStepChecked (st : ExactState) (candidate : EventRef × EventRef) : Option ExactState :=
  match checkedSub candidate.2.timestampNs candidate.1.timestampNs with
  | some latencyNs =>
    some { st with pairs := st.pairs ++ [⟨candidate.1, candidate.2, latencyNs⟩] }
  | none => do
    let unmatchedStart ← addU64 st.unmatchedStart 1
    let unmatchedEnd ← addU64 st.unmatchedEnd 1
    some { st with unmatchedStart, unmatchedEnd }

/-- The body of the loop over the groups of starts. -/
def exactGroupStepChecked (st : ExactState) (entry : CorrelationKey × List EventRef) :
    Option ExactState :=
  match st.endGroups.get? entry.1 with
  | none => do
    let unmatchedStart ← addU64 st.unmatchedStart entry.2.length
    some { st with unmatchedStart }
  | some endGroup =>
    let st := { st with endGroups := st.endGroups.erase entry.1 }
    if entry.2.length ≠ endGroup.length then do
      let ambiguous ← addU64 st.ambiguous (max entry.2.length endGroup.length)
      some { st with ambiguous }
    else (entry.2.zip endGroup).foldlM exactPairStepChecked st

/-- `correlate_exact`. -/
def correlateExactChecked (starts ends : List EventRef) (limit : Option Nat) : Option Outcome := do
  let (startGroups, unmatchedStart) ← groupByChecked refKey starts
  let (endGroups, unmatchedEnd) ← groupByChecked refKey ends
  let st ← startGroups.entries.foldlM exactGroupStepChecked
    ⟨endGroups, [], unmatchedStart, unmatchedEnd, 0⟩
  let left ← sumFitting 64 (st.endGroups.values.map List.length)
  let unmatchedEnd ← addU64 st.unmatchedEnd left
  some
    { pairs := truncate limit (sortPairs st.pairs)
      unmatchedStart := st.unmatchedStart
      unmatchedEnd
      ambiguous := st.ambiguous }

/-- The counters are `u64` values. -/
def ExactState.Fits (st : ExactState) : Prop :=
  st.unmatchedStart < 2 ^ 64 ∧ st.unmatchedEnd < 2 ^ 64 ∧ st.ambiguous < 2 ^ 64

theorem exactPairStepChecked_eq (st : ExactState) (candidate : EventRef × EventRef)
    (h : (exactPairStep st candidate).Fits) :
    exactPairStepChecked st candidate = some (exactPairStep st candidate) ∧ st.Fits := by
  unfold ExactState.Fits exactPairStep at h
  unfold ExactState.Fits exactPairStepChecked exactPairStep
  cases hsub : checkedSub candidate.2.timestampNs candidate.1.timestampNs with
  | none =>
    simp only [hsub] at h ⊢
    exact ⟨by simp [addU64_of_lt h.1, addU64_of_lt h.2.1], by omega⟩
  | some latencyNs =>
    simp only [hsub] at h ⊢
    exact ⟨trivial, h⟩

theorem exactGroupStepChecked_eq (st : ExactState) (entry : CorrelationKey × List EventRef)
    (h : (exactGroupStep st entry).Fits) :
    exactGroupStepChecked st entry = some (exactGroupStep st entry) ∧ st.Fits := by
  unfold exactGroupStep at h ⊢
  unfold exactGroupStepChecked
  cases hget : st.endGroups.get? entry.1 with
  | none =>
    simp only [hget, ExactState.Fits] at h ⊢
    exact ⟨by simp [addU64_of_lt h.1], by omega⟩
  | some endGroup =>
    simp only [hget] at h ⊢
    split_ifs at h ⊢ with hlength
    · simp only [ExactState.Fits] at h ⊢
      exact ⟨by simp [addU64_of_lt h.2.2], by omega⟩
    · exact foldl_checked exactPairStepChecked_eq _ _ h

theorem correlateExact_bounded (starts ends : List EventRef) (limit : Option Nat) :
    (correlateExact starts ends limit).Bounded starts ends := by
  obtain ⟨hstarts, hends⟩ := correlateExact_conserves starts ends
  have hpairs := length_truncate_sortPairs_le limit (exactLoop starts ends).pairs
  have hall : (correlateExact starts ends none).pairs.length =
      (exactLoop starts ends).pairs.length := (sortPairs_perm _).length_eq
  -- an ambiguous event has a mismatched key
  have hambiguous : (correlateExact starts ends limit).ambiguous ≤
      mismatchedCount starts ends starts + mismatchedCount starts ends ends := by
    rw [correlateExact_ambiguous, mismatchedCount_eq_sum, mismatchedCount_eq_sum,
      ← Finset.sum_add_distrib]
    exact Finset.sum_le_sum (fun key _ => by omega)
  have hstartCount : mismatchedCount starts ends starts ≤ starts.length := List.length_filter_le ..
  have hendCount : mismatchedCount starts ends ends ≤ ends.length := List.length_filter_le ..
  simp only [correlateExact] at hstarts hends hall hambiguous ⊢
  constructor <;> simp only <;> omega

theorem correlateExactChecked_eq {starts ends : List EventRef} (h : Countable starts ends)
    (limit : Option Nat) :
    correlateExactChecked starts ends limit = some (correlateExact starts ends limit) := by
  obtain ⟨-, hstart, hend, hambiguous⟩ := correlateExact_bounded starts ends limit
  unfold Countable at h
  simp only [correlateExact] at hstart hend hambiguous
  have hfits : (exactLoop starts ends).Fits := ⟨by omega, by omega, by omega⟩
  have hloop : (BTreeMap.groupBy refKey starts).1.entries.foldlM exactGroupStepChecked
      ⟨(BTreeMap.groupBy refKey ends).1, [], (BTreeMap.groupBy refKey starts).2,
        (BTreeMap.groupBy refKey ends).2, 0⟩ = some (exactLoop starts ends) :=
    (foldl_checked exactGroupStepChecked_eq _ _ hfits).1
  have hstartGroups : groupByChecked refKey starts = _ := groupByChecked_eq refKey (by omega)
  have hendGroups : groupByChecked refKey ends = _ := groupByChecked_eq refKey (by omega)
  have hleft : sumFitting 64 ((exactLoop starts ends).endGroups.values.map List.length) = some _ :=
    sumFitting_of_lt (by omega)
  simp only [correlateExactChecked, hstartGroups, hendGroups, hloop, hleft, some_bind]
  rw [addU64_of_lt (by omega)]
  rfl

/-! ## Call stacks -/

/-- The body of the loop over the timeline. -/
def stackStepChecked (limit : Nat) (st : StackState) (entry : TimelineEntry) : Option StackState :=
  let key := stackKey entry.event.event
  if entry.isEnd then
    match popStack st.callStacks key with
    | some (start, callStacks) =>
      if st.pairs.length < limit then do
        let latencyNs ← checkedSub entry.event.timestampNs start.timestampNs
        some { st with callStacks, pairs := st.pairs ++ [⟨start, entry.event, latencyNs⟩] }
      else some { st with callStacks }
    | none => do
      let unmatchedEnd ← addU64 st.unmatchedEnd 1
      some { st with unmatchedEnd }
  else some { st with callStacks := st.callStacks.push key entry.event }

/-- `correlate_stack_nested`. -/
def correlateStackNestedChecked (starts ends : List EventRef) (limit : Option Nat) :
    Option Outcome := do
  let st ← (stackTimeline starts ends).foldlM (stackStepChecked (limit.getD usizeMax))
    ⟨.empty, [], 0⟩
  let unmatchedStart ← sumFitting 64 (st.callStacks.values.map List.length)
  some ⟨sortPairs st.pairs, unmatchedStart, st.unmatchedEnd, 0⟩

theorem stackStepChecked_eq {limit : Nat} (st : StackState) (entry : TimelineEntry)
    (st' : StackState) (hrun : stackStep limit st entry = some st')
    (h : st'.unmatchedEnd < 2 ^ 64) :
    stackStepChecked limit st entry = some st' ∧ st.unmatchedEnd < 2 ^ 64 := by
  obtain ⟨isEnd, ref⟩ := entry
  unfold stackStep at hrun
  unfold stackStepChecked
  cases isEnd with
  | false =>
    refine ⟨hrun, ?_⟩
    simp only [Bool.false_eq_true, if_false, Option.some.injEq] at hrun
    subst hrun
    exact h
  | true =>
    simp only [if_true] at hrun ⊢
    cases hpop : popStack st.callStacks (stackKey ref.event) with
    | none =>
      simp only [hpop, Option.some.injEq] at hrun ⊢
      subst hrun
      simp only at h
      exact ⟨by simp [addU64_of_lt h], by omega⟩
    | some popped =>
      simp only [hpop] at hrun ⊢
      refine ⟨hrun, ?_⟩
      split_ifs at hrun
      · obtain ⟨latencyNs, -, hrun⟩ := Option.bind_eq_some_iff.mp hrun
        cases hrun
        exact h
      · cases hrun
        exact h

theorem correlateStackNestedChecked_eq {starts ends : List EventRef} (h : Countable starts ends)
    (limit : Option Nat) :
    ∃ outcome, correlateStackNestedChecked starts ends limit = some outcome ∧
      correlateStackNested starts ends limit = some outcome ∧ outcome.Bounded starts ends := by
  obtain ⟨st, hrun, hinv⟩ := stackLoop_inv starts ends (limit.getD usizeMax)
  obtain ⟨suppressed, -, hstarts, hends⟩ := hinv.balance
  have hsort := (sortPairs_perm st.pairs).length_eq
  unfold Countable at h
  have hfits : st.unmatchedEnd < 2 ^ 64 := by omega
  obtain ⟨hloop, -⟩ := foldlM_checked (P := fun st : StackState => st.unmatchedEnd < 2 ^ 64)
    stackStepChecked_eq _ _ _ hrun hfits
  have hleft : sumFitting 64 (st.callStacks.values.map List.length) = some _ :=
    sumFitting_of_lt (by omega)
  refine ⟨stackOutcome st, ?_, ?_, ?_⟩
  · simp only [correlateStackNestedChecked, hloop, hleft, some_bind]
    rfl
  · simp only [correlateStackNested, hrun, some_bind]
  · constructor <;> simp only [stackOutcome] <;> omega

end Xprobe.Correlator
