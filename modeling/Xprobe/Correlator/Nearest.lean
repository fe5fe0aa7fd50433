import Xprobe.Foundation.Loops
import Xprobe.Correlator.Pairing

/-!
# Nearest pairing

`correlate_nearest`: each start takes the unused end closest in time, looked up in a map from
timestamps to the ends that have it. A bucket is removed when its last end is taken, so a timestamp
found in the map always has an end left; this is what the two `expect` calls of the source rely on.
-/

namespace Xprobe.Correlator

open Foundation Protocol

/-! ## The algorithm -/

/-- The variables of the loop over the starts. -/
structure NearestState where
  available : BTreeMap UInt64 (List EventRef)
  pairs : List Pair
  unmatchedStart : Nat
  reachedLimit : Bool

/-- The unused ends by timestamp, before the first start. -/
def availableEnds (ends : List EventRef) : BTreeMap UInt64 (List EventRef) :=
  ends.foldl (fun available e => available.push e.timestampNs e) .empty

/-- The timestamp chosen for a start, if an end is left; a tie goes to the later one. The outer
    option is the panic of the two subtractions. -/
def selectTimestamp (available : BTreeMap UInt64 (List EventRef)) (startNs : UInt64) :
    Option (Option UInt64) :=
  match available.lastLE startNs, available.firstGE startNs with
  | some before, some after => do
    let toBefore ← checkedSub startNs before
    let toAfter ← checkedSub after startNs
    some (some (if toBefore < toAfter then before else after))
  | some timestamp, none => some (some timestamp)
  | none, some timestamp => some (some timestamp)
  | none, none => some none

/-- The map after the last end of a bucket was popped. -/
def putBack (available : BTreeMap UInt64 (List EventRef)) (timestamp : UInt64)
    (bucket : List EventRef) : BTreeMap UInt64 (List EventRef) :=
  if bucket.isEmpty then available.erase timestamp else available.insert timestamp bucket

/-- The loop over the starts. -/
def nearestLoop (limit : Nat) : List EventRef → NearestState → Option NearestState
  | [], st => some st
  | start :: rest, st =>
    if st.pairs.length = limit then some { st with reachedLimit := true }
    else
      match selectTimestamp st.available start.timestampNs with
      | none => none
      | some none => some { st with unmatchedStart := st.unmatchedStart + (start :: rest).length }
      | some (some selected) => do
        let bucket ← st.available.get? selected
        let e ← bucket.getLast?
        nearestLoop limit rest
          { st with
            available := putBack st.available selected bucket.dropLast
            pairs := st.pairs ++ [⟨start, e, absDiff selected start.timestampNs⟩] }

/-- The outcome after the loop. -/
def nearestOutcome (st : NearestState) : Outcome :=
  { pairs := st.pairs
    unmatchedStart := st.unmatchedStart
    unmatchedEnd := if st.reachedLimit then 0 else (st.available.values.map List.length).sum
    ambiguous := 0 }

/-- `correlate_nearest`. -/
def correlateNearest (starts ends : List EventRef) (limit : Option Nat) : Option Outcome := do
  let st ← nearestLoop (limit.getD usizeMax) starts ⟨availableEnds ends, [], 0, false⟩
  some (nearestOutcome st)

/-! ## The map of unused ends -/

/-- Every bucket holds at least one end, and only ends with its timestamp. -/
def BucketsWellFormed (available : BTreeMap UInt64 (List EventRef)) : Prop :=
  ∀ timestamp bucket, available.get? timestamp = some bucket →
    bucket ≠ [] ∧ ∀ e ∈ bucket, e.timestampNs = timestamp

theorem availableEnds_perm (ends : List EventRef) :
    (availableEnds ends).values.flatten.Perm ends := by
  have h : (availableEnds ends).values.flatten.Perm ends.reverse := by
    refine foldl_invariant
      (I := fun done (available : BTreeMap UInt64 (List EventRef)) =>
        available.values.flatten.Perm done) (List.Perm.refl _) ?_
    intro done e todo available _ hperm
    exact (available.flatten_values_push_perm _ e).trans (hperm.cons e)
  exact h.trans (List.reverse_perm ends)

variable {available : BTreeMap UInt64 (List EventRef)}

private theorem bucketsWellFormed_push (h : BucketsWellFormed available) (e : EventRef) :
    BucketsWellFormed (available.push e.timestampNs e) := by
  intro timestamp bucket hget
  rw [BTreeMap.get?_push] at hget
  split_ifs at hget with ht
  · subst ht
    cases hget
    refine ⟨by simp, ?_⟩
    intro e' he'
    rcases List.mem_append.mp he' with hold | hnew
    · cases hold' : available.get? e.timestampNs with
      | none =>
        rw [hold'] at hold
        cases hold
      | some old =>
        rw [hold'] at hold
        exact (h _ old hold').2 e' hold
    · rw [List.mem_singleton.mp hnew]
  · exact h timestamp bucket hget

theorem availableEnds_wellFormed (ends : List EventRef) :
    BucketsWellFormed (availableEnds ends) := by
  refine foldl_invariant (I := fun _ available => BucketsWellFormed available) ?_ ?_
  · intro timestamp bucket hget
    cases hget
  · intro done e todo available _ h
    exact bucketsWellFormed_push h e

theorem bucketsWellFormed_putBack {timestamp : UInt64} {bucket : List EventRef}
    (h : BucketsWellFormed available) (hget : available.get? timestamp = some bucket) :
    BucketsWellFormed (putBack available timestamp bucket.dropLast) := by
  intro timestamp' bucket' hget'
  unfold putBack at hget'
  split_ifs at hget' with hempty
  · rw [BTreeMap.get?_erase] at hget'
    split_ifs at hget' with ht
    exact h timestamp' bucket' hget'
  · rw [BTreeMap.get?_insert] at hget'
    split_ifs at hget' with ht
    · cases hget'
      refine ⟨by simpa using hempty, ?_⟩
      intro e he
      rw [ht]
      exact (h timestamp bucket hget).2 e (List.mem_of_mem_dropLast he)
    · exact h timestamp' bucket' hget'

/-- Taking the last end of a bucket takes exactly that end out of the map. -/
theorem values_putBack_perm {timestamp : UInt64} {bucket : List EventRef} {e : EventRef}
    (hget : available.get? timestamp = some bucket) (hlast : bucket.getLast? = some e) :
    available.values.flatten.Perm
      (e :: (putBack available timestamp bucket.dropLast).values.flatten) := by
  have hbucket : bucket = bucket.dropLast ++ [e] :=
    (List.dropLast_append_getLast? e hlast).symm
  have hnew : (putBack available timestamp bucket.dropLast).values.flatten.Perm
      (bucket.dropLast ++ (available.erase timestamp).values.flatten) := by
    unfold putBack
    split_ifs with hempty
    · rw [List.isEmpty_iff.mp hempty]
      exact List.Perm.refl _
    · exact (available.values_insert_perm timestamp bucket.dropLast).flatten
  have hold := (BTreeMap.values_perm_of_get? hget).flatten
  rw [List.flatten_cons, hbucket, List.append_assoc] at hold
  exact hold.trans (List.perm_middle.trans (hnew.symm.cons e))

/-- The selection never panics; it finds no timestamp only in an empty map. -/
theorem selectTimestamp_spec (available : BTreeMap UInt64 (List EventRef)) (startNs : UInt64) :
    (selectTimestamp available startNs = some none ∧ available.entries = []) ∨
      ∃ timestamp bucket, selectTimestamp available startNs = some (some timestamp) ∧
        available.get? timestamp = some bucket := by
  unfold selectTimestamp
  cases hbefore : available.lastLE startNs with
  | none =>
    cases hafter : available.firstGE startNs with
    | none => exact Or.inl ⟨rfl, BTreeMap.entries_eq_nil_of_range_none hbefore hafter⟩
    | some after =>
      obtain ⟨-, bucket, hget⟩ := BTreeMap.firstGE_eq_some hafter
      exact Or.inr ⟨after, bucket, rfl, hget⟩
  | some before =>
    obtain ⟨hle, beforeBucket, hgetBefore⟩ := BTreeMap.lastLE_eq_some hbefore
    cases hafter : available.firstGE startNs with
    | none => exact Or.inr ⟨before, beforeBucket, rfl, hgetBefore⟩
    | some after =>
      obtain ⟨hge, afterBucket, hgetAfter⟩ := BTreeMap.firstGE_eq_some hafter
      simp only [checkedSub_of_le hle, checkedSub_of_le hge, some_bind]
      refine Or.inr ?_
      split_ifs
      · exact ⟨before, beforeBucket, rfl, hgetBefore⟩
      · exact ⟨after, afterBucket, rfl, hgetAfter⟩

/-! ## The loop -/

/-- The state before the starts in `todo`. -/
structure NearestInv (starts ends todo : List EventRef) (st : NearestState) : Prop where
  starts_ledger : Ledger (st.pairs.map Pair.startEvent ++ todo) st.unmatchedStart starts
  ends_ledger : Ledger (st.pairs.map Pair.endEvent ++ st.available.values.flatten) 0 ends
  buckets : BucketsWellFormed st.available
  paired : ∀ pair ∈ st.pairs, pair.Absolute

private theorem nearestInv_pair {starts ends todo bucket : List EventRef} {st : NearestState}
    {start e : EventRef} {selected : UInt64} (h : NearestInv starts ends (start :: todo) st)
    (hget : st.available.get? selected = some bucket) (hlast : bucket.getLast? = some e) :
    NearestInv starts ends todo
      { st with
        available := putBack st.available selected bucket.dropLast
        pairs := st.pairs ++ [⟨start, e, absDiff selected start.timestampNs⟩] } where
  starts_ledger := by simpa using h.starts_ledger
  ends_ledger := by
    have hvalues := (values_putBack_perm hget hlast).append_left (st.pairs.map Pair.endEvent)
    simpa using h.ends_ledger.perm hvalues (List.Perm.refl _)
  buckets := bucketsWellFormed_putBack h.buckets hget
  paired := by
    intro pair hpair
    rcases List.mem_append.mp hpair with hold | hnew
    · exact h.paired pair hold
    · rw [List.mem_singleton.mp hnew, Pair.Absolute]
      rw [(h.buckets selected bucket hget).2 e (List.mem_of_getLast? hlast)]

/-- The loop finishes. It leaves starts unvisited only when it reached the limit. -/
theorem nearestLoop_spec {starts ends : List EventRef} (limit : Nat) (todo : List EventRef)
    (st : NearestState) (h : NearestInv starts ends todo st) (hreached : st.reachedLimit = false)
    (hlimit : st.pairs.length ≤ limit) :
    ∃ st' left, nearestLoop limit todo st = some st' ∧ NearestInv starts ends left st' ∧
      st'.pairs.length ≤ limit ∧
      (st'.pairs.length < limit → left = [] ∧ st'.reachedLimit = false) := by
  induction todo generalizing st with
  | nil => exact ⟨st, [], rfl, h, hlimit, fun _ => ⟨rfl, hreached⟩⟩
  | cons start rest ih =>
    rw [nearestLoop]
    split_ifs with hfull
    · refine ⟨{ st with reachedLimit := true }, start :: rest, rfl, ?_, hlimit, ?_⟩
      · exact ⟨h.starts_ledger, h.ends_ledger, h.buckets, h.paired⟩
      · exact fun hlt => absurd hfull (ne_of_lt hlt)
    · rcases selectTimestamp_spec st.available start.timestampNs with
        ⟨hselect, -⟩ | ⟨selected, bucket, hselect, hget⟩
      · -- no end is left for this start or any later one
        have hlost : Ledger (st.pairs.map Pair.startEvent ++ ((start :: rest) ++ []))
            st.unmatchedStart starts := by
          simpa using h.starts_ledger
        simp only [hselect]
        exact ⟨_, [], rfl, ⟨hlost.drop (start :: rest), h.ends_ledger, h.buckets, h.paired⟩,
          hlimit, fun _ => ⟨rfl, hreached⟩⟩
      · cases hlast : bucket.getLast? with
        | none => exact absurd (List.getLast?_eq_none_iff.mp hlast) (h.buckets _ _ hget).1
        | some e =>
          obtain ⟨st', left, hrun, hinv, hlen, hleft⟩ := ih _ (nearestInv_pair h hget hlast)
            hreached (by simp only [List.length_append, List.length_singleton]; omega)
          refine ⟨st', left, ?_, hinv, hlen, hleft⟩
          simp only [hselect, hget, hlast, some_bind]
          exact hrun

theorem nearestInv_init (starts ends : List EventRef) :
    NearestInv starts ends starts ⟨availableEnds ends, [], 0, false⟩ where
  starts_ledger := Ledger.of_perm (List.Perm.refl _)
  ends_ledger := Ledger.of_perm (availableEnds_perm ends)
  buckets := availableEnds_wellFormed ends
  paired := by
    intro pair h
    cases h

/-- Nearest pairing never panics; it is a matching with absolute latencies, within the limit. -/
theorem correlateNearest_sound (starts ends : List EventRef) (limit : Option Nat) :
    ∃ outcome, correlateNearest starts ends limit = some outcome ∧
      PairsSound Pair.Absolute starts ends outcome.pairs ∧
      outcome.pairs.length ≤ limit.getD usizeMax := by
  obtain ⟨st, left, hrun, hinv, hlen, -⟩ :=
    nearestLoop_spec (limit.getD usizeMax) starts _ (nearestInv_init starts ends) rfl
      (Nat.zero_le _)
  refine ⟨nearestOutcome st, ?_, ⟨?_, ?_, hinv.paired⟩, hlen⟩
  · simp only [correlateNearest, hrun, some_bind]
  · exact hinv.starts_ledger.subperm_left
  · exact hinv.ends_ledger.subperm_left

/-- Without a limit every start and every end is paired or unmatched. -/
theorem correlateNearest_conserves (starts ends : Slice EventRef) :
    ∃ outcome, correlateNearest starts.toList ends.toList none = some outcome ∧
      Conserves starts.toList ends.toList outcome 0 0 ∧ outcome.ambiguous = 0 := by
  obtain ⟨st, left, hrun, hinv, -, hleft⟩ :=
    nearestLoop_spec usizeMax starts.toList _ (nearestInv_init _ ends.toList) rfl (Nat.zero_le _)
  have hstarts := hinv.starts_ledger.balance
  have hends := hinv.ends_ledger.balance
  simp only [List.length_append, List.length_map, List.length_flatten] at hstarts hends
  have hbound : st.pairs.length < usizeMax := by
    have := starts.length_lt_usizeMax
    omega
  obtain ⟨hnil, hreached⟩ := hleft hbound
  subst hnil
  refine ⟨nearestOutcome st, ?_, ⟨?_, ?_⟩, rfl⟩
  · simp only [correlateNearest, Option.getD_none, hrun, some_bind]
  · simpa [nearestOutcome] using hstarts
  · simpa [nearestOutcome, hreached] using hends

end Xprobe.Correlator
