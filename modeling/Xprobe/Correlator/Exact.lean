import Xprobe.Foundation.Loops
import Xprobe.Correlator.Pairing

/-!
# Exact pairing by correlation key

`correlate_exact`: starts and ends are grouped by correlation key, and the groups of one key are
paired in order when they have the same size. A key with unequal groups is ambiguous; its events are
neither paired nor unmatched.
-/

namespace Xprobe.Correlator

open Foundation Protocol

/-! ## The algorithm -/

/-- The variables of the loop over the groups of starts. -/
structure ExactState where
  endGroups : BTreeMap CorrelationKey (List EventRef)
  pairs : List Pair
  unmatchedStart : Nat
  unmatchedEnd : Nat
  ambiguous : Nat

def refKey (ref : EventRef) : Option CorrelationKey := correlationKey ref.event

/-- The body of the loop over the zipped groups of one key. -/
def exactPairStep (st : ExactState) (candidate : EventRef × EventRef) : ExactState :=
  match checkedSub candidate.2.timestampNs candidate.1.timestampNs with
  | some latencyNs => { st with pairs := st.pairs ++ [⟨candidate.1, candidate.2, latencyNs⟩] }
  | none =>
    { st with unmatchedStart := st.unmatchedStart + 1, unmatchedEnd := st.unmatchedEnd + 1 }

/-- The body of the loop over the groups of starts. -/
def exactGroupStep (st : ExactState) (entry : CorrelationKey × List EventRef) : ExactState :=
  match st.endGroups.get? entry.1 with
  | none => { st with unmatchedStart := st.unmatchedStart + entry.2.length }
  | some endGroup =>
    let st := { st with endGroups := st.endGroups.erase entry.1 }
    if entry.2.length ≠ endGroup.length then
      { st with ambiguous := st.ambiguous + max entry.2.length endGroup.length }
    else (entry.2.zip endGroup).foldl exactPairStep st

def exactLoop (starts ends : List EventRef) : ExactState :=
  let (startGroups, unmatchedStart) := BTreeMap.groupBy refKey starts
  let (endGroups, unmatchedEnd) := BTreeMap.groupBy refKey ends
  startGroups.entries.foldl exactGroupStep ⟨endGroups, [], unmatchedStart, unmatchedEnd, 0⟩

/-- `correlate_exact`. -/
def correlateExact (starts ends : List EventRef) (limit : Option Nat) : Outcome :=
  let st := exactLoop starts ends
  { pairs := truncate limit (sortPairs st.pairs)
    unmatchedStart := st.unmatchedStart
    unmatchedEnd := st.unmatchedEnd + (st.endGroups.values.map List.length).sum
    ambiguous := st.ambiguous }

/-! ## Mismatched keys -/

def keyCount (events : List EventRef) (key : CorrelationKey) : Nat :=
  (BTreeMap.group refKey events key).length

/-- The key occurs among both the starts and the ends, but in unequal numbers. -/
def KeyMismatched (starts ends : List EventRef) (key : CorrelationKey) : Prop :=
  0 < keyCount starts key ∧ 0 < keyCount ends key ∧ keyCount starts key ≠ keyCount ends key

instance (starts ends : List EventRef) (key : CorrelationKey) :
    Decidable (KeyMismatched starts ends key) := by
  unfold KeyMismatched
  infer_instance

def mismatchedKeys (starts ends : List EventRef) : Finset CorrelationKey :=
  (starts.filterMap refKey).toFinset.filter (KeyMismatched starts ends)

def mismatchedCount (starts ends events : List EventRef) : Nat :=
  (events.filter (fun event => decide (∃ key ∈ mismatchedKeys starts ends,
    refKey event = some key))).length

variable {starts ends : List EventRef}

theorem mem_mismatchedKeys {key : CorrelationKey} :
    key ∈ mismatchedKeys starts ends ↔ KeyMismatched starts ends key := by
  simp only [mismatchedKeys, Finset.mem_filter, List.mem_toFinset, List.mem_filterMap]
  constructor
  · rintro ⟨_, h⟩
    exact h
  · intro h
    obtain ⟨event, hevent⟩ := List.exists_mem_of_length_pos h.1
    obtain ⟨hmem, hkey⟩ := BTreeMap.mem_group.mp hevent
    exact ⟨⟨event, hmem, hkey⟩, h⟩

theorem mismatchedCount_eq_sum (starts ends events : List EventRef) :
    mismatchedCount starts ends events =
      ∑ key ∈ mismatchedKeys starts ends, keyCount events key :=
  BTreeMap.length_filter_key_mem refKey events _

/-! ## Pairing the groups of one key -/

/-- Two events of a key, in order: the pairs that `correlate_exact` may build. -/
def ExactPair (pair : Pair) : Prop := pair.SameKey correlationKey ∧ pair.Forward

/-- The pair of two events, if the end is not before the start. -/
def forwardPair (candidate : EventRef × EventRef) : Option Pair :=
  (checkedSub candidate.2.timestampNs candidate.1.timestampNs).map
    (fun latencyNs => ⟨candidate.1, candidate.2, latencyNs⟩)

/-- The pairs of one key: its groups are paired by position when they have the same size. -/
def keyPairs (startGroup endGroup : List EventRef) : List Pair :=
  if startGroup.length = endGroup.length then (startGroup.zip endGroup).filterMap forwardPair
  else []

private theorem exactPairs_spec {restStarts restEnds : List EventRef} {lostStarts lostEnds : Nat}
    (candidates : List (EventRef × EventRef)) (st : ExactState)
    (hstarts : Ledger (st.pairs.map Pair.startEvent ++ (candidates.map Prod.fst ++ restStarts)) (st.unmatchedStart + lostStarts) starts)
    (hends : Ledger (st.pairs.map Pair.endEvent ++ (candidates.map Prod.snd ++ restEnds)) (st.unmatchedEnd + lostEnds) ends)
    :
    let st' := candidates.foldl exactPairStep st
    (st'.endGroups = st.endGroups ∧ st'.ambiguous = st.ambiguous ∧
        st'.pairs = st.pairs ++ candidates.filterMap forwardPair) ∧
      Ledger (st'.pairs.map Pair.startEvent ++ restStarts) (st'.unmatchedStart + lostStarts) starts ∧
      Ledger (st'.pairs.map Pair.endEvent ++ restEnds) (st'.unmatchedEnd + lostEnds) ends := by
  induction candidates generalizing st with
  | nil => exact ⟨⟨rfl, rfl, (List.append_nil _).symm⟩, hstarts, hends⟩
  | cons c rest ih =>
    obtain ⟨s, e⟩ := c
    simp only [List.foldl_cons, exactPairStep, List.filterMap_cons, forwardPair]
    cases hsub : checkedSub e.timestampNs s.timestampNs with
    | some latencyNs =>
      -- both events move from the candidates to the pairs
      obtain ⟨⟨hgroups, hambiguous, hpairs⟩, hledgers⟩ :=
        ih { st with pairs := st.pairs ++ [⟨s, e, latencyNs⟩] } (by simpa using hstarts)
          (by simpa using hends)
      exact ⟨⟨hgroups, hambiguous, by simpa using hpairs⟩, hledgers⟩
    | none =>
      refine ih { st with
        unmatchedStart := st.unmatchedStart + 1, unmatchedEnd := st.unmatchedEnd + 1 } ?_ ?_
      · have hdrop := hstarts.drop [s]
        rwa [List.length_singleton, Nat.add_right_comm] at hdrop
      · have hdrop := hends.drop [e]
        rwa [List.length_singleton, Nat.add_right_comm] at hdrop

/-! ## One group of starts -/

/-- The state after the groups in `done`, with the groups in `todo` still to come. -/
structure ExactInv (starts ends : List EventRef) (done todo : List (CorrelationKey × List EventRef))
    (st : ExactState) : Prop where
  starts_ledger : Ledger (st.pairs.map Pair.startEvent ++ (todo.map Prod.snd).flatten)
    (st.unmatchedStart + (done.map (fun entry =>
      if KeyMismatched starts ends entry.1 then keyCount starts entry.1 else 0)).sum) starts
  ends_ledger : Ledger (st.pairs.map Pair.endEvent ++ st.endGroups.values.flatten)
    (st.unmatchedEnd + (done.map (fun entry =>
      if KeyMismatched starts ends entry.1 then keyCount ends entry.1 else 0)).sum) ends
  ambiguous_sum : st.ambiguous = (done.map (fun entry =>
    if KeyMismatched starts ends entry.1 then
      max (keyCount starts entry.1) (keyCount ends entry.1) else 0)).sum
  untouched : ∀ entry ∈ todo,
    st.endGroups.get? entry.1 = (BTreeMap.groupBy refKey ends).1.get? entry.1
  pairs_eq : st.pairs =
    done.reverse.flatMap (fun entry => keyPairs entry.2 (BTreeMap.group refKey ends entry.1))

private theorem exactInv_init (starts ends : List EventRef) :
    let startGroups := BTreeMap.groupBy refKey starts
    let endGroups := BTreeMap.groupBy refKey ends
    ExactInv starts ends [] startGroups.1.entries ⟨endGroups.1, [], startGroups.2, endGroups.2, 0⟩
    where
  starts_ledger := BTreeMap.ledger_groupBy refKey starts
  ends_ledger := BTreeMap.ledger_groupBy refKey ends
  ambiguous_sum := rfl
  untouched := fun _ _ => rfl
  pairs_eq := rfl

section

variable {starts ends : List EventRef} {done todo : List (CorrelationKey × List EventRef)}
  {k : CorrelationKey} {st : ExactState}

/-- A key without ends: its starts are unmatched. -/
private theorem exactGroupStep_unmatched
    (h : ExactInv starts ends done ((k, BTreeMap.group refKey starts k) :: todo) st)
    (hget : st.endGroups.get? k = none) (hends : BTreeMap.group refKey ends k = []) :
    ExactInv starts ends ((k, BTreeMap.group refKey starts k) :: done) todo
      (exactGroupStep st (k, BTreeMap.group refKey starts k)) := by
  have hmatched : ¬ KeyMismatched starts ends k := by
    simp [KeyMismatched, keyCount, hends]
  have hnone : keyPairs (BTreeMap.group refKey starts k) (BTreeMap.group refKey ends k) = [] := by
    simp [keyPairs, hends]
  have hdrop := h.starts_ledger.drop (BTreeMap.group refKey starts k)
  simp only [exactGroupStep, hget]
  refine ⟨?_, ?_, ?_, fun entry hentry => h.untouched entry (List.mem_cons_of_mem _ hentry),
    by simpa [hnone] using h.pairs_eq⟩
  · simpa [hmatched, Nat.add_right_comm] using hdrop
  · simpa [hmatched] using h.ends_ledger
  · simpa [hmatched] using h.ambiguous_sum

/-- The end groups without one key still hold the groups of the keys to come. -/
private theorem untouched_erase {g : List EventRef} (h : ExactInv starts ends done ((k, g) :: todo) st)
    (hfresh : ∀ entry ∈ todo, entry.1 ≠ k) :
    ∀ entry ∈ todo, (st.endGroups.erase k).get? entry.1 =
      (BTreeMap.groupBy refKey ends).1.get? entry.1 := by
  intro entry hentry
  rw [BTreeMap.get?_erase, if_neg (hfresh entry hentry)]
  exact h.untouched entry (List.mem_cons_of_mem _ hentry)

/-- Taking a group out of the end groups. -/
private theorem ends_ledger_take {g endGroup : List EventRef}
    (h : ExactInv starts ends done ((k, g) :: todo) st)
    (hget : st.endGroups.get? k = some endGroup) :
    Ledger (st.pairs.map Pair.endEvent ++ (endGroup ++ (st.endGroups.erase k).values.flatten))
      (st.unmatchedEnd + (done.map (fun entry =>
        if KeyMismatched starts ends entry.1 then keyCount ends entry.1 else 0)).sum) ends := by
  have hvalues := (BTreeMap.values_perm_of_get? hget).flatten
  exact h.ends_ledger.perm (hvalues.append_left _) (List.Perm.refl _)

/-- A key with unequal groups: all its events are ambiguous. -/
private theorem exactGroupStep_ambiguous
    (h : ExactInv starts ends done ((k, BTreeMap.group refKey starts k) :: todo) st)
    (hget : st.endGroups.get? k = some (BTreeMap.group refKey ends k))
    (hmismatch : KeyMismatched starts ends k) (hfresh : ∀ entry ∈ todo, entry.1 ≠ k) :
    ExactInv starts ends ((k, BTreeMap.group refKey starts k) :: done) todo
      (exactGroupStep st (k, BTreeMap.group refKey starts k)) := by
  have hne : (BTreeMap.group refKey starts k).length ≠ (BTreeMap.group refKey ends k).length :=
    hmismatch.2.2
  have hnone : keyPairs (BTreeMap.group refKey starts k) (BTreeMap.group refKey ends k) = [] :=
    if_neg hne
  have hstarts := h.starts_ledger.drop (BTreeMap.group refKey starts k)
  have hends := (ends_ledger_take h hget).drop (BTreeMap.group refKey ends k)
  simp only [exactGroupStep, hget, if_pos hne]
  refine ⟨?_, ?_, ?_, untouched_erase h hfresh, by simpa [hnone] using h.pairs_eq⟩
  · simpa [hmismatch, keyCount, Nat.add_assoc, Nat.add_comm, Nat.add_left_comm] using hstarts
  · simpa [hmismatch, keyCount, Nat.add_assoc, Nat.add_comm, Nat.add_left_comm] using hends
  · simp [hmismatch, keyCount, h.ambiguous_sum, Nat.add_comm]

/-- A key with equal groups: its events are paired in order. -/
private theorem exactGroupStep_paired
    (h : ExactInv starts ends done ((k, BTreeMap.group refKey starts k) :: todo) st)
    (hget : st.endGroups.get? k = some (BTreeMap.group refKey ends k))
    (heq : keyCount starts k = keyCount ends k) (hfresh : ∀ entry ∈ todo, entry.1 ≠ k) :
    ExactInv starts ends ((k, BTreeMap.group refKey starts k) :: done) todo
      (exactGroupStep st (k, BTreeMap.group refKey starts k)) := by
  have hmatched : ¬ KeyMismatched starts ends k := fun hm => hm.2.2 heq
  have hlength : (BTreeMap.group refKey starts k).length = (BTreeMap.group refKey ends k).length :=
    heq
  have hfst := List.map_fst_zip (le_of_eq hlength)
  have hsnd := List.map_snd_zip (le_of_eq hlength.symm)
  have hpaired : keyPairs (BTreeMap.group refKey starts k) (BTreeMap.group refKey ends k) = _ :=
    if_pos hlength
  have hstarts := h.starts_ledger
  have hends := ends_ledger_take h hget
  rw [List.map_cons, List.flatten_cons, ← hfst] at hstarts
  rw [← hsnd] at hends
  obtain ⟨⟨hgroups, hambiguous, hpairs⟩, hstarts', hends'⟩ :=
    exactPairs_spec _ { st with endGroups := st.endGroups.erase k } hstarts hends
  simp only [exactGroupStep, hget, hlength, ne_eq, not_true, if_false]
  refine ⟨?_, ?_, ?_, ?_, ?_⟩
  · simpa [hmatched] using hstarts'
  · rw [hgroups]
    simpa [hmatched] using hends'
  · rw [hambiguous]
    simpa [hmatched] using h.ambiguous_sum
  · rw [hgroups]
    exact untouched_erase h hfresh
  · rw [hpairs, h.pairs_eq]
    simp [hpaired]

end

/-! ## The whole loop -/

/-- In a map, the keys after an entry differ from its key. -/
private theorem keys_after_ne {l done todo : List (CorrelationKey × List EventRef)}
    {entry : CorrelationKey × List EventRef} (hsorted : l.Pairwise (fun a b => a.1 < b.1))
    (hl : l = done.reverse ++ entry :: todo) : ∀ later ∈ todo, later.1 ≠ entry.1 := by
  intro later hlater
  rw [hl] at hsorted
  have htail := (List.pairwise_append.mp hsorted).2.1
  exact ne_of_gt ((List.pairwise_cons.mp htail).1 later hlater)

theorem exactLoop_inv (starts ends : List EventRef) :
    ExactInv starts ends (BTreeMap.groupBy refKey starts).1.entries.reverse []
      (exactLoop starts ends) := by
  refine foldl_zipper_invariant (exactInv_init starts ends) ?_
  rintro done ⟨k, g⟩ todo st hl h
  change (BTreeMap.groupBy refKey starts).1.entries = done.reverse ++ (k, g) :: todo at hl
  have hmem : (k, g) ∈ (BTreeMap.groupBy refKey starts).1.entries := by simp [hl]
  obtain ⟨rfl, hne⟩ := BTreeMap.mem_groupBy_entries.mp hmem
  have hfresh := keys_after_ne (BTreeMap.groupBy refKey starts).1.sorted hl
  have hget := h.untouched _ List.mem_cons_self
  rw [BTreeMap.get?_groupBy] at hget
  split_ifs at hget with hends
  · exact exactGroupStep_unmatched h hget hends
  · by_cases heq : keyCount starts k = keyCount ends k
    · exact exactGroupStep_paired h hget heq hfresh
    · have hmismatch : KeyMismatched starts ends k :=
        ⟨List.length_pos_of_ne_nil hne, List.length_pos_of_ne_nil hends, heq⟩
      exact exactGroupStep_ambiguous h hget hmismatch hfresh

/-- A contribution of the mismatched keys, summed over the groups in the direction of the loop. -/
private theorem sum_reverse_groups (starts ends : List EventRef) (f : CorrelationKey → Nat) :
    ((BTreeMap.groupBy refKey starts).1.entries.reverse.map
      (fun entry => if KeyMismatched starts ends entry.1 then f entry.1 else 0)).sum =
      ∑ key ∈ mismatchedKeys starts ends, f key := by
  rw [List.map_reverse, List.sum_reverse, BTreeMap.sum_entries_groupBy refKey starts
    (fun key => if KeyMismatched starts ends key then f key else 0), mismatchedKeys,
    Finset.sum_filter]

/-- Without a limit, an event is paired, unmatched, or has a mismatched key. -/
theorem correlateExact_conserves (starts ends : List EventRef) :
    Conserves starts ends (correlateExact starts ends none)
      (mismatchedCount starts ends starts) (mismatchedCount starts ends ends) := by
  have h := exactLoop_inv starts ends
  have hstarts := h.starts_ledger.balance
  have hends := h.ends_ledger.balance
  rw [sum_reverse_groups starts ends (keyCount starts), ← mismatchedCount_eq_sum] at hstarts
  rw [sum_reverse_groups starts ends (keyCount ends), ← mismatchedCount_eq_sum] at hends
  have hsort := (sortPairs_perm (exactLoop starts ends).pairs).length_eq
  simp only [List.length_append, List.length_map, List.map_nil, List.flatten_nil, List.length_nil,
    List.length_flatten] at hstarts hends
  constructor
  · simp only [correlateExact, truncate_none, hsort]
    omega
  · simp only [correlateExact, truncate_none, hsort]
    omega

/-- The ambiguous count: for each mismatched key the larger of its two numbers. -/
theorem correlateExact_ambiguous (starts ends : List EventRef) (limit : Option Nat) :
    (correlateExact starts ends limit).ambiguous =
      ∑ key ∈ mismatchedKeys starts ends, max (keyCount starts key) (keyCount ends key) := by
  have h := (exactLoop_inv starts ends).ambiguous_sum
  rwa [sum_reverse_groups starts ends
    (fun key => max (keyCount starts key) (keyCount ends key))] at h

/-! ## Which pairs are built -/

/-- The pairs of the loop, in the order of the keys. -/
theorem exactLoop_pairs (starts ends : List EventRef) :
    (exactLoop starts ends).pairs = (BTreeMap.groupBy refKey starts).1.entries.flatMap
      (fun entry => keyPairs entry.2 (BTreeMap.group refKey ends entry.1)) := by
  have h := (exactLoop_inv starts ends).pairs_eq
  rwa [List.reverse_reverse] at h

/-- The pairs of the loop, key by key. -/
theorem mem_exactLoop_pairs {pair : Pair} : pair ∈ (exactLoop starts ends).pairs ↔
      ∃ key, pair ∈ keyPairs (BTreeMap.group refKey starts key)
        (BTreeMap.group refKey ends key) := by
  rw [exactLoop_pairs, List.mem_flatMap]
  constructor
  · rintro ⟨⟨key, group⟩, hentry, hpair⟩
    obtain ⟨rfl, -⟩ := BTreeMap.mem_groupBy_entries.mp hentry
    exact ⟨key, hpair⟩
  · rintro ⟨key, hpair⟩
    -- a key with a pair has a group among the starts
    have hne : BTreeMap.group refKey starts key ≠ [] := by
      intro hempty
      simp [keyPairs, hempty] at hpair
    exact ⟨(key, BTreeMap.group refKey starts key),
      BTreeMap.mem_groupBy_entries.mpr ⟨rfl, hne⟩, hpair⟩

theorem mem_keyPairs {startGroup endGroup : List EventRef} {pair : Pair} :
    pair ∈ keyPairs startGroup endGroup ↔
      startGroup.length = endGroup.length ∧
        (pair.startEvent, pair.endEvent) ∈ startGroup.zip endGroup ∧ pair.Forward := by
  rw [keyPairs]
  split_ifs with hlength
  · simp only [hlength, true_and, List.mem_filterMap, forwardPair, Option.map_eq_some_iff,
      checkedSub_eq_some]
    constructor
    · rintro ⟨⟨s, e⟩, hmem, latencyNs, ⟨hle, rfl⟩, rfl⟩
      exact ⟨hmem, hle, rfl⟩
    · rintro ⟨hmem, hle, hlatency⟩
      exact ⟨_, hmem, pair.latencyNs, ⟨hle, hlatency⟩, rfl⟩
  · simp [hlength]

theorem exactPair_of_mem {pair : Pair} (h : pair ∈ (exactLoop starts ends).pairs) :
    ExactPair pair := by
  obtain ⟨key, hkey⟩ := mem_exactLoop_pairs.mp h
  obtain ⟨-, hmem, hforward⟩ := mem_keyPairs.mp hkey
  obtain ⟨hs, he⟩ := List.of_mem_zip hmem
  exact ⟨⟨key, (BTreeMap.mem_group.mp hs).2, (BTreeMap.mem_group.mp he).2⟩, hforward⟩

/-- Exact pairing is a matching by correlation key, forward in time. -/
theorem correlateExact_sound (starts ends : List EventRef) (limit : Option Nat) :
    PairsSound ExactPair starts ends (correlateExact starts ends limit).pairs := by
  have h := exactLoop_inv starts ends
  refine PairsSound.sort_truncate ⟨?_, ?_, fun pair => exactPair_of_mem⟩ limit
  · exact h.starts_ledger.subperm_left
  · exact h.ends_ledger.subperm_left

end Xprobe.Correlator
