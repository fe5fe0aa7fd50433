import Xprobe.Foundation.Loops
import Xprobe.Correlator.Pairing

/-!
# Greedy pairing

`correlate_first_after` pairs each start with the first unused end that is not earlier, over all
events; `correlate_stream_order` does the same inside each CUDA stream. Both scan the ends with one
index that only moves forward; the model keeps the ends from that index on.

The subtraction of the two timestamps panics in the source if the end were earlier. It is
`checkedSub` here, and the results below show that it never fails.
-/

namespace Xprobe.Correlator

open Foundation Protocol

/-! ## Scanning the ends -/

/-- The variables of a greedy scan: `ends` are the ends from `end_index` on. -/
structure GreedyState where
  pairs : List Pair
  unmatchedStart : Nat
  unmatchedEnd : Nat
  ends : List EventRef

/-- The `while` loop that passes over the ends earlier than a start: the ends that remain and the
    number of ends passed over. -/
def skipEnds (startNs : UInt64) : List EventRef → List EventRef × Nat
  | [] => ([], 0)
  | e :: rest =>
    if e.timestampNs < startNs then
      let (remaining, skipped) := skipEnds startNs rest
      (remaining, skipped + 1)
    else (e :: rest, 0)

theorem skipEnds_eq_append (startNs : UInt64) (ends : List EventRef) :
    ∃ skipped, ends = skipped ++ (skipEnds startNs ends).1 ∧
      (skipEnds startNs ends).2 = skipped.length := by
  induction ends with
  | nil => exact ⟨[], rfl, rfl⟩
  | cons e rest ih =>
    rw [skipEnds]
    split_ifs with h
    · obtain ⟨skipped, hrest, hcount⟩ := ih
      refine ⟨e :: skipped, ?_, ?_⟩
      · exact congrArg (e :: ·) hrest
      · exact congrArg (· + 1) hcount
    · exact ⟨[], rfl, rfl⟩

variable {ends starts restEnds : List EventRef}

/-- The first end that remains is not earlier than the start. -/
theorem le_of_skipEnds_eq_cons {startNs : UInt64} {rest : List EventRef} {e : EventRef}
    (h : (skipEnds startNs ends).1 = e :: rest) : startNs ≤ e.timestampNs := by
  induction ends with
  | nil => cases h
  | cons e' tail ih =>
    rw [skipEnds] at h
    split_ifs at h with hlt
    · exact ih h
    · cases h
      exact not_lt.mp hlt

/-- The ends passed over are counted as unmatched. -/
theorem ledger_skipEnds {placed total : List EventRef} {lost : Nat} (startNs : UInt64)
    (h : Ledger (placed ++ (ends ++ restEnds)) lost total) :
    Ledger (placed ++ ((skipEnds startNs ends).1 ++ restEnds)) (lost + (skipEnds startNs ends).2)
      total := by
  obtain ⟨skipped, hends, hcount⟩ := skipEnds_eq_append startNs ends
  rw [hcount]
  rw [hends, List.append_assoc] at h
  exact h.drop skipped

/-! ## First after -/

/-- The loop of `correlate_first_after` over the starts. -/
def firstAfterLoop (limit : Nat) : List EventRef → GreedyState → Option GreedyState
  | [], st => some st
  | start :: rest, st =>
    if st.pairs.length = limit then some st
    else
      let (remaining, skipped) := skipEnds start.timestampNs st.ends
      match remaining with
      | e :: after => do
        let latencyNs ← checkedSub e.timestampNs start.timestampNs
        firstAfterLoop limit rest
          { st with
            pairs := st.pairs ++ [⟨start, e, latencyNs⟩]
            unmatchedEnd := st.unmatchedEnd + skipped
            ends := after }
      | [] =>
        some
          { st with
            unmatchedStart := st.unmatchedStart + (start :: rest).length
            unmatchedEnd := st.unmatchedEnd + skipped
            ends := [] }

/-- The outcome after the loop: the ends that were not reached are unmatched, unless the limit
    stopped the loop. -/
def firstAfterOutcome (limit : Nat) (st : GreedyState) : Outcome :=
  { pairs := st.pairs
    unmatchedStart := st.unmatchedStart
    unmatchedEnd :=
      if st.pairs.length < limit then st.unmatchedEnd + st.ends.length else st.unmatchedEnd
    ambiguous := 0 }

/-- `correlate_first_after`. -/
def correlateFirstAfter (starts ends : List EventRef) (limit : Option Nat) : Option Outcome := do
  let limit := limit.getD usizeMax
  let st ← firstAfterLoop limit starts ⟨[], 0, 0, ends⟩
  some (firstAfterOutcome limit st)

/-- A greedy scan after some starts, with the starts in `todo` left. -/
structure GreedyInv (starts ends todo restEnds : List EventRef) (R : Pair → Prop)
    (st : GreedyState) : Prop where
  starts_ledger : Ledger (st.pairs.map Pair.startEvent ++ todo) st.unmatchedStart starts
  ends_ledger : Ledger (st.pairs.map Pair.endEvent ++ (st.ends ++ restEnds)) st.unmatchedEnd ends
  paired : ∀ pair ∈ st.pairs, R pair

/-- A start takes the first end that remains. -/
private theorem greedyInv_pair {todo after : List EventRef} {R : Pair → Prop} {st : GreedyState}
    {start e : EventRef} (h : GreedyInv starts ends (start :: todo) restEnds R st)
    (hskip : (skipEnds start.timestampNs st.ends).1 = e :: after)
    (hR : ∀ latencyNs, Pair.Forward ⟨start, e, latencyNs⟩ → R ⟨start, e, latencyNs⟩) :
    GreedyInv starts ends todo restEnds R
      { st with
        pairs := st.pairs ++ [⟨start, e, e.timestampNs - start.timestampNs⟩]
        unmatchedEnd := st.unmatchedEnd + (skipEnds start.timestampNs st.ends).2
        ends := after } where
  starts_ledger := by simpa using h.starts_ledger
  ends_ledger := by
    have hends := ledger_skipEnds start.timestampNs h.ends_ledger
    rw [hskip] at hends
    simpa using hends
  paired := by
    intro pair hpair
    rcases List.mem_append.mp hpair with hold | hnew
    · exact h.paired pair hold
    · rw [List.mem_singleton.mp hnew]
      exact hR _ ⟨le_of_skipEnds_eq_cons hskip, rfl⟩

/-- No end remains: the ends are used up and `lost` starts are given up. -/
private theorem greedyInv_exhausted {lost todo : List EventRef} {R : Pair → Prop} {st : GreedyState}
    {start : EventRef} (h : GreedyInv starts ends (lost ++ todo) restEnds R st)
    (hskip : (skipEnds start.timestampNs st.ends).1 = []) :
    GreedyInv starts ends todo restEnds R
      { st with
        unmatchedStart := st.unmatchedStart + lost.length
        unmatchedEnd := st.unmatchedEnd + (skipEnds start.timestampNs st.ends).2
        ends := [] } where
  starts_ledger := h.starts_ledger.drop lost
  ends_ledger := by
    have hends := ledger_skipEnds start.timestampNs h.ends_ledger
    rwa [hskip] at hends
  paired := h.paired

/-- The loop finishes. It leaves starts unvisited only when it reached the limit. -/
theorem firstAfterLoop_spec (limit : Nat) (todo : List EventRef) (st : GreedyState)
    (h : GreedyInv starts ends todo [] Pair.Forward st) (hlimit : st.pairs.length ≤ limit) :
    ∃ st' left, firstAfterLoop limit todo st = some st' ∧
      GreedyInv starts ends left [] Pair.Forward st' ∧ st'.pairs.length ≤ limit ∧
      (st'.pairs.length < limit → left = []) := by
  induction todo generalizing st with
  | nil => exact ⟨st, [], rfl, h, hlimit, fun _ => rfl⟩
  | cons start rest ih =>
    rw [firstAfterLoop]
    split_ifs with hfull
    · exact ⟨st, start :: rest, rfl, h, hlimit, fun hlt => absurd hfull (ne_of_lt hlt)⟩
    · cases hskip : (skipEnds start.timestampNs st.ends).1 with
      | nil =>
        have hlost : GreedyInv starts ends ((start :: rest) ++ []) [] Pair.Forward st := by
          simpa using h
        exact ⟨_, [], by simp only [hskip], greedyInv_exhausted hlost hskip, hlimit, fun _ => rfl⟩
      | cons e after =>
        have hle := le_of_skipEnds_eq_cons hskip
        obtain ⟨st', left, hrun, hinv, hlen, hleft⟩ := ih _
          (greedyInv_pair h hskip (fun _ hforward => hforward))
          (by simp only [List.length_append, List.length_singleton]; omega)
        refine ⟨st', left, ?_, hinv, hlen, hleft⟩
        simp only [hskip, checkedSub_of_le hle, some_bind]
        exact hrun

theorem greedyInv_init (starts ends : List EventRef) :
    GreedyInv starts ends starts [] Pair.Forward ⟨[], 0, 0, ends⟩ where
  starts_ledger := Ledger.of_perm (List.Perm.refl _)
  ends_ledger := by simpa using Ledger.of_perm (List.Perm.refl ends)
  paired := by
    intro pair h
    cases h

/-- First-after pairing never panics; it is a matching forward in time, within the limit. -/
theorem correlateFirstAfter_sound (starts ends : List EventRef) (limit : Option Nat) :
    ∃ outcome, correlateFirstAfter starts ends limit = some outcome ∧
      PairsSound Pair.Forward starts ends outcome.pairs ∧
      outcome.pairs.length ≤ limit.getD usizeMax := by
  obtain ⟨st, left, hrun, hinv, hlen, -⟩ :=
    firstAfterLoop_spec (limit.getD usizeMax) starts _ (greedyInv_init starts ends)
      (Nat.zero_le _)
  refine ⟨firstAfterOutcome (limit.getD usizeMax) st, ?_, ⟨?_, ?_, hinv.paired⟩, hlen⟩
  · simp only [correlateFirstAfter, hrun, some_bind]
  · exact hinv.starts_ledger.subperm_left
  · exact hinv.ends_ledger.subperm_left

/-- Without a limit every start and every end is paired or unmatched. -/
theorem correlateFirstAfter_conserves (starts ends : Slice EventRef) :
    ∃ outcome, correlateFirstAfter starts.toList ends.toList none = some outcome ∧
      Conserves starts.toList ends.toList outcome 0 0 ∧ outcome.ambiguous = 0 := by
  obtain ⟨st, left, hrun, hinv, -, hleft⟩ :=
    firstAfterLoop_spec usizeMax starts.toList _ (greedyInv_init _ ends.toList)
      (Nat.zero_le _)
  have hstarts := hinv.starts_ledger.balance
  have hends := hinv.ends_ledger.balance
  simp only [List.length_append, List.length_map, List.length_nil] at hstarts hends
  -- fewer pairs than starts, and fewer starts than the stand-in for "no limit"
  have hbound : st.pairs.length < usizeMax := by
    have := starts.length_lt_usizeMax
    omega
  have hnil := hleft hbound
  subst hnil
  refine ⟨firstAfterOutcome usizeMax st, ?_, ⟨?_, ?_⟩, rfl⟩
  · simp only [correlateFirstAfter, Option.getD_none, hrun, some_bind]
  · simpa [firstAfterOutcome] using hstarts
  · simp only [firstAfterOutcome, if_pos hbound]
    omega

/-! ## Stream order -/

/-- The variables of the loop over the streams. -/
structure StreamState where
  endGroups : BTreeMap StreamKey (List EventRef)
  pairs : List Pair
  unmatchedStart : Nat
  unmatchedEnd : Nat

def refStreamKey (ref : EventRef) : Option StreamKey := streamKey ref.event

/-- `group_by_stream`: the groups, and the number of events without a stream key. -/
def groupByStream (events : List EventRef) : BTreeMap StreamKey (List EventRef) × Nat :=
  BTreeMap.groupBy refStreamKey events

/-- The body of the loop over the starts of one stream. -/
def streamStartStep (st : GreedyState) (start : EventRef) : Option GreedyState :=
  let (remaining, skipped) := skipEnds start.timestampNs st.ends
  match remaining with
  | e :: after => do
    let latencyNs ← checkedSub e.timestampNs start.timestampNs
    some
      { st with
        pairs := st.pairs ++ [⟨start, e, latencyNs⟩]
        unmatchedEnd := st.unmatchedEnd + skipped
        ends := after }
  | [] =>
    some
      { st with
        unmatchedStart := st.unmatchedStart + 1
        unmatchedEnd := st.unmatchedEnd + skipped
        ends := [] }

/-- The body of the loop over the streams. -/
def streamGroupStep (st : StreamState) (entry : StreamKey × List EventRef) : Option StreamState :=
  match st.endGroups.get? entry.1 with
  | none => some { st with unmatchedStart := st.unmatchedStart + entry.2.length }
  | some endGroup => do
    let inner ← entry.2.foldlM streamStartStep
      ⟨st.pairs, st.unmatchedStart, st.unmatchedEnd, endGroup⟩
    some
      { endGroups := st.endGroups.erase entry.1
        pairs := inner.pairs
        unmatchedStart := inner.unmatchedStart
        unmatchedEnd := inner.unmatchedEnd + inner.ends.length }

def streamLoop (starts ends : List EventRef) : Option StreamState :=
  let (startGroups, unmatchedStart) := groupByStream starts
  let (endGroups, unmatchedEnd) := groupByStream ends
  startGroups.entries.foldlM streamGroupStep ⟨endGroups, [], unmatchedStart, unmatchedEnd⟩

/-- `correlate_stream_order`. -/
def correlateStreamOrder (starts ends : List EventRef) (limit : Option Nat) : Option Outcome := do
  let st ← streamLoop starts ends
  some
    { pairs := truncate limit (sortPairs st.pairs)
      unmatchedStart := st.unmatchedStart
      unmatchedEnd := st.unmatchedEnd + (st.endGroups.values.map List.length).sum
      ambiguous := 0 }

/-- Two events of one stream, in order. -/
def StreamPair (pair : Pair) : Prop := pair.SameKey streamKey ∧ pair.Forward

/-- The scan of one stream finishes and visits all its starts. -/
private theorem streamStarts_spec {restStarts : List EventRef} {k : StreamKey}
    (todo : List EventRef) (st : GreedyState)
    (h : GreedyInv starts ends (todo ++ restStarts) restEnds StreamPair st)
    (hstarts : ∀ s ∈ todo, refStreamKey s = some k) (hends : ∀ e ∈ st.ends, refStreamKey e = some k) :
    ∃ st', todo.foldlM streamStartStep st = some st' ∧
      GreedyInv starts ends restStarts restEnds StreamPair st' := by
  induction todo generalizing st with
  | nil => exact ⟨st, rfl, h⟩
  | cons start rest ih =>
    have hrest : ∀ s ∈ rest, refStreamKey s = some k :=
      fun s hs => hstarts s (List.mem_cons_of_mem _ hs)
    obtain ⟨skipped, happend, -⟩ := skipEnds_eq_append start.timestampNs st.ends
    rw [List.foldlM_cons, streamStartStep]
    cases hskip : (skipEnds start.timestampNs st.ends).1 with
    | nil =>
      have hlost : GreedyInv starts ends ([start] ++ (rest ++ restStarts)) restEnds StreamPair st :=
        h
      simp only [hskip, some_bind]
      refine ih _ (greedyInv_exhausted hlost hskip) hrest ?_
      intro e he
      cases he
    | cons e after =>
      -- the remaining ends are a suffix of the ends of the stream
      have hkey : ∀ e' ∈ e :: after, refStreamKey e' = some k := by
        intro e' he'
        refine hends e' ?_
        rw [happend, hskip]
        exact List.mem_append_right _ he'
      have hsame : ∀ latencyNs, Pair.Forward ⟨start, e, latencyNs⟩ →
          StreamPair ⟨start, e, latencyNs⟩ := fun latencyNs hforward =>
        ⟨⟨k, hstarts start List.mem_cons_self, hkey e List.mem_cons_self⟩, hforward⟩
      simp only [hskip, checkedSub_of_le (le_of_skipEnds_eq_cons hskip), some_bind]
      exact ih _ (greedyInv_pair h hskip hsame) hrest
        (fun e' he' => hkey e' (List.mem_cons_of_mem _ he'))

/-- The state before the streams in `todo`. -/
structure StreamInv (starts ends : List EventRef) (todo : List (StreamKey × List EventRef))
    (st : StreamState) : Prop where
  starts_ledger : Ledger (st.pairs.map Pair.startEvent ++ (todo.map Prod.snd).flatten)
    st.unmatchedStart starts
  ends_ledger : Ledger (st.pairs.map Pair.endEvent ++ st.endGroups.values.flatten)
    st.unmatchedEnd ends
  keyed : ∀ k group, st.endGroups.get? k = some group → ∀ e ∈ group, refStreamKey e = some k
  paired : ∀ pair ∈ st.pairs, StreamPair pair

private theorem streamInv_init (starts ends : List EventRef) :
    StreamInv starts ends (groupByStream starts).1.entries
      ⟨(groupByStream ends).1, [], (groupByStream starts).2, (groupByStream ends).2⟩ where
  starts_ledger := BTreeMap.ledger_groupBy refStreamKey starts
  ends_ledger := BTreeMap.ledger_groupBy refStreamKey ends
  keyed := by
    intro k group hget e he
    obtain ⟨rfl, -⟩ := BTreeMap.mem_groupBy_entries.mp (BTreeMap.get?_eq_some_iff.mp hget)
    exact (BTreeMap.mem_group.mp he).2
  paired := by
    intro pair h
    cases h

private theorem streamGroupStep_spec {todo : List (StreamKey × List EventRef)} {k : StreamKey}
    {g : List EventRef} {st : StreamState} (h : StreamInv starts ends ((k, g) :: todo) st)
    (hkey : ∀ s ∈ g, refStreamKey s = some k) :
    ∃ st', streamGroupStep st (k, g) = some st' ∧ StreamInv starts ends todo st' := by
  cases hget : st.endGroups.get? k with
  | none =>
    refine ⟨{ st with unmatchedStart := st.unmatchedStart + g.length }, ?_, ?_⟩
    · simp only [streamGroupStep, hget]
    · exact ⟨h.starts_ledger.drop g, h.ends_ledger, h.keyed, h.paired⟩
  | some endGroup =>
    have hvalues := (BTreeMap.values_perm_of_get? hget).flatten.append_left
      (st.pairs.map Pair.endEvent)
    have hinner : GreedyInv starts ends (g ++ (todo.map Prod.snd).flatten)
        (st.endGroups.erase k).values.flatten StreamPair
        ⟨st.pairs, st.unmatchedStart, st.unmatchedEnd, endGroup⟩ :=
      ⟨h.starts_ledger, h.ends_ledger.perm hvalues (List.Perm.refl _), h.paired⟩
    obtain ⟨inner, hrun, hinv⟩ := streamStarts_spec g _ hinner hkey (h.keyed k endGroup hget)
    refine ⟨_, by simp only [streamGroupStep, hget, hrun]; rfl, ?_⟩
    refine ⟨hinv.starts_ledger, hinv.ends_ledger.drop inner.ends, ?_, hinv.paired⟩
    intro k' group hget' e he
    rw [BTreeMap.get?_erase] at hget'
    split_ifs at hget' with hk
    exact h.keyed k' group hget' e he

theorem streamLoop_inv (starts ends : List EventRef) :
    ∃ st, streamLoop starts ends = some st ∧ StreamInv starts ends [] st := by
  refine foldlM_zipper_invariant (I := fun _ todo st => StreamInv starts ends todo st)
    (streamInv_init starts ends) ?_
  rintro done ⟨k, g⟩ todo st hl h
  refine streamGroupStep_spec h ?_
  change (groupByStream starts).1.entries = done.reverse ++ (k, g) :: todo at hl
  have hmem : (k, g) ∈ (groupByStream starts).1.entries := by simp [hl]
  obtain ⟨rfl, -⟩ := BTreeMap.mem_groupBy_entries.mp hmem
  intro s hs
  exact (BTreeMap.mem_group.mp hs).2

/-- Stream-order pairing never panics; it is a matching inside each stream, forward in time. -/
theorem correlateStreamOrder_sound (starts ends : List EventRef) (limit : Option Nat) :
    ∃ outcome, correlateStreamOrder starts ends limit = some outcome ∧
      PairsSound StreamPair starts ends outcome.pairs ∧
      ∀ n, limit = some n → outcome.pairs.length ≤ n := by
  obtain ⟨st, hrun, h⟩ := streamLoop_inv starts ends
  have hsound : PairsSound StreamPair starts ends st.pairs :=
    ⟨h.starts_ledger.subperm_left,
      h.ends_ledger.subperm_left, h.paired⟩
  refine ⟨_, by simp only [correlateStreamOrder, hrun]; rfl, hsound.sort_truncate limit, ?_⟩
  intro n hn
  exact length_truncate_le hn _

/-- Without a limit every start and every end is paired or unmatched. -/
theorem correlateStreamOrder_conserves (starts ends : List EventRef) :
    ∃ outcome, correlateStreamOrder starts ends none = some outcome ∧
      Conserves starts ends outcome 0 0 ∧ outcome.ambiguous = 0 := by
  obtain ⟨st, hrun, h⟩ := streamLoop_inv starts ends
  have hstarts := h.starts_ledger.balance
  have hends := h.ends_ledger.balance
  have hsort := (sortPairs_perm st.pairs).length_eq
  simp only [List.length_append, List.length_map, List.map_nil, List.flatten_nil, List.length_nil,
    List.length_flatten] at hstarts hends
  refine ⟨_, by simp only [correlateStreamOrder, hrun]; rfl, ⟨?_, ?_⟩, rfl⟩
  · simp only [truncate_none, hsort]
    omega
  · simp only [truncate_none, hsort]
    omega

end Xprobe.Correlator
