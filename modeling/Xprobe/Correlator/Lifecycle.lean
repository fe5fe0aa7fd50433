import Xprobe.Foundation.Loops
import Xprobe.Correlator.Pairing

/-!
# Lifecycle pairing

`correlate_thread_lifecycle` and `correlate_nvtx_lifecycle`. Both walk one timeline of the starts
and the ends and keep at most one pending start for each key: a start overwrites the pending one, an
end takes it. They differ in the key, so one definition serves both.

The timeline is sorted by time, starts before ends at the same time, so the pending start is never
later than the end that takes it. This is why the branch for a negative latency is never entered.
-/

namespace Xprobe.Correlator

open Foundation Protocol

/-! ## Timelines -/

/-- One entry of a timeline: the boundary byte (0 for a start, 1 for an end) and the event. -/
structure TimelineEntry where
  isEnd : Bool
  event : EventRef

def timelineEntries (starts ends : List EventRef) : List TimelineEntry :=
  starts.map (⟨false, ·⟩) ++ ends.map (⟨true, ·⟩)

def timelineStarts (entries : List TimelineEntry) : List EventRef :=
  (entries.filter (fun entry => !entry.isEnd)).map TimelineEntry.event

def timelineEnds (entries : List TimelineEntry) : List EventRef :=
  (entries.filter (fun entry => entry.isEnd)).map TimelineEntry.event

@[simp] theorem timelineStarts_cons_start (event : EventRef) (entries : List TimelineEntry) :
    timelineStarts (⟨false, event⟩ :: entries) = event :: timelineStarts entries := rfl

@[simp] theorem timelineStarts_cons_end (event : EventRef) (entries : List TimelineEntry) :
    timelineStarts (⟨true, event⟩ :: entries) = timelineStarts entries := rfl

@[simp] theorem timelineEnds_cons_start (event : EventRef) (entries : List TimelineEntry) :
    timelineEnds (⟨false, event⟩ :: entries) = timelineEnds entries := rfl

@[simp] theorem timelineEnds_cons_end (event : EventRef) (entries : List TimelineEntry) :
    timelineEnds (⟨true, event⟩ :: entries) = event :: timelineEnds entries := rfl

variable {entries : List TimelineEntry}

variable {starts ends : List EventRef}

theorem timelineStarts_perm (h : entries.Perm (timelineEntries starts ends)) :
    (timelineStarts entries).Perm starts := by
  refine ((h.filter _).map _).trans ?_
  simp [timelineEntries, List.filter_append, List.filter_map, Function.comp_def]

theorem timelineEnds_perm (h : entries.Perm (timelineEntries starts ends)) :
    (timelineEnds entries).Perm ends := by
  refine ((h.filter _).map _).trans ?_
  simp [timelineEntries, List.filter_append, List.filter_map, Function.comp_def]

variable {event : EventRef}

theorem mem_of_mem_timelineStarts (h : event ∈ timelineStarts entries) :
    ∃ entry ∈ entries, entry.event = event := by
  obtain ⟨entry, hentry, rfl⟩ := List.mem_map.mp h
  exact ⟨entry, (List.mem_filter.mp hentry).1, rfl⟩

variable {done : List TimelineEntry}

/-- In a timeline sorted by time, an entry is not earlier than the starts before it. -/
theorem timelineStarts_le {l todo : List TimelineEntry} {entry : TimelineEntry}
    (hsorted : l.Pairwise (fun a b => a.event.timestampNs ≤ b.event.timestampNs))
    (hl : l = done.reverse ++ entry :: todo) (hevent : event ∈ timelineStarts done) :
    event.timestampNs ≤ entry.event.timestampNs := by
  obtain ⟨earlier, hmem, rfl⟩ := mem_of_mem_timelineStarts hevent
  rw [hl] at hsorted
  exact (List.pairwise_append.mp hsorted).2.2 earlier (List.mem_reverse.mpr hmem) entry
    List.mem_cons_self

def timelineEntry (event : Bool × EventRef) : TimelineEntry := ⟨event.1, event.2⟩

/-- The starts and the ends of a sequence, put on a timeline, are the sequence again if the order of
    the timeline increases along it, whatever else is on the timeline. -/
theorem filter_timeline_eq {κ : Type*} [LinearOrder κ] {order : TimelineEntry → κ}
    {p : EventRef → Bool} {made : List (Bool × EventRef)}
    (hstarts : (starts.filter p).Perm ((made.filter (fun event => !event.1)).map Prod.snd))
    (hends : (ends.filter p).Perm ((made.filter (·.1)).map Prod.snd))
    (hsorted : made.Pairwise (fun a b => order (timelineEntry a) < order (timelineEntry b))) :
    (sortByKey order (timelineEntries starts ends)).filter (fun entry => p entry.event) =
      made.map timelineEntry := by
  rw [filter_sortByKey]
  refine sortByKey_eq_of_perm_sorted ?_ (List.pairwise_map.mpr hsorted)
  rw [timelineEntries, List.filter_append, List.filter_map, List.filter_map]
  refine ((hstarts.map _).append (hends.map _)).trans ?_
  refine .trans ?_ ((List.filter_append_perm (fun event => !event.1) made).map timelineEntry)
  rw [List.map_append, List.map_map, List.map_map]
  refine List.Perm.of_eq (congrArg₂ (· ++ ·) ?_ ?_)
  · apply List.map_congr_left
    rintro ⟨isEnd, event⟩ hevent
    have hstart := (List.mem_filter.mp hevent).2
    cases isEnd with
    | false => rfl
    | true => cases hstart
  · simp only [Bool.not_not]
    apply List.map_congr_left
    rintro ⟨isEnd, event⟩ hevent
    have hend := (List.mem_filter.mp hevent).2
    cases isEnd with
    | false => cases hend
    | true => rfl

/-! ## The algorithm -/

/-- The order of a lifecycle timeline: time, then starts before ends, then sequence number. -/
def lifecycleOrder (entry : TimelineEntry) : UInt64 ×ₗ Bool ×ₗ UInt64 :=
  toLex (entry.event.timestampNs, toLex (entry.isEnd, entry.event.event.sequence))

def lifecycleTimeline (starts ends : List EventRef) : List TimelineEntry :=
  sortByKey lifecycleOrder (timelineEntries starts ends)

/-- The variables of the loop over the timeline. -/
structure LifecycleState (κ : Type) [LinearOrder κ] where
  pending : BTreeMap κ EventRef
  pairs : List Pair
  unmatchedStart : Nat
  unmatchedEnd : Nat
  ambiguous : Nat

section

variable {κ : Type} [LinearOrder κ] (key : Event → Option κ)

/-- The body of the loop over the timeline. -/
def lifecycleStep (st : LifecycleState κ) (entry : TimelineEntry) : LifecycleState κ :=
  match key entry.event.event with
  | none =>
    if entry.isEnd then { st with unmatchedEnd := st.unmatchedEnd + 1 }
    else { st with unmatchedStart := st.unmatchedStart + 1 }
  | some k =>
    if entry.isEnd then
      match st.pending.get? k with
      | some start =>
        match checkedSub entry.event.timestampNs start.timestampNs with
        | some latencyNs =>
          { st with
            pending := st.pending.erase k
            pairs := st.pairs ++ [⟨start, entry.event, latencyNs⟩] }
        | none =>
          { st with pending := st.pending.erase k, ambiguous := st.ambiguous + 1 }
      | none => { st with unmatchedEnd := st.unmatchedEnd + 1 }
    else
      -- an overwritten start is ambiguous
      match st.pending.get? k with
      | some _ =>
        { st with pending := st.pending.insert k entry.event, ambiguous := st.ambiguous + 1 }
      | none => { st with pending := st.pending.insert k entry.event }

/-- The loop over the timeline. -/
def lifecycleLoop (starts ends : List EventRef) : LifecycleState κ :=
  (lifecycleTimeline starts ends).foldl (lifecycleStep key) ⟨.empty, [], 0, 0, 0⟩

/-- Pair each end with the pending start of its key. -/
def correlateLifecycle (starts ends : List EventRef) (limit : Option Nat) : Outcome :=
  let st := lifecycleLoop key starts ends
  { pairs := truncate limit (sortPairs st.pairs)
    unmatchedStart := st.unmatchedStart + st.pending.len
    unmatchedEnd := st.unmatchedEnd
    ambiguous := st.ambiguous }

end

/-- `correlate_thread_lifecycle`. Every event has a thread key, so the counter of starts without a
    key, which the source does not have here, stays zero. -/
def correlateThreadLifecycle (starts ends : List EventRef) (limit : Option Nat) : Outcome :=
  correlateLifecycle (fun event => some (threadKey event)) starts ends limit

/-- `correlate_nvtx_lifecycle`. -/
def correlateNvtxLifecycle (starts ends : List EventRef) (limit : Option Nat) : Outcome :=
  correlateLifecycle correlationKey starts ends limit

/-! ## The timeline is sorted -/

theorem lifecycleTimeline_sorted (starts ends : List EventRef) :
    (lifecycleTimeline starts ends).Pairwise
      (fun a b => a.event.timestampNs ≤ b.event.timestampNs) := by
  refine List.Pairwise.imp ?_ (sortByKey_sorted lifecycleOrder (timelineEntries starts ends))
  intro a b hab
  exact (Prod.Lex.le_iff.mp hab).elim le_of_lt (fun h => le_of_eq h.1)

theorem lifecycleTimeline_perm (starts ends : List EventRef) :
    (lifecycleTimeline starts ends).Perm (timelineEntries starts ends) :=
  sortByKey_perm _ _

/-! ## One pass through the body -/

section

variable {κ : Type} [LinearOrder κ] {key : Event → Option κ}

/-- The state after the entries in `done`: each start is paired, pending or counted, each end is
    paired or counted, and pairs were made by key and forward in time. -/
structure LifecycleInv (key : Event → Option κ) (done : List TimelineEntry)
    (st : LifecycleState κ) : Prop where
  starts : Ledger (st.pairs.map Pair.startEvent ++ st.pending.values)
    (st.unmatchedStart + st.ambiguous) (timelineStarts done)
  ends : Ledger (st.pairs.map Pair.endEvent) st.unmatchedEnd (timelineEnds done)
  pendingKey : ∀ k event, st.pending.get? k = some event → key event.event = some k
  paired : ∀ pair ∈ st.pairs, pair.SameKey key ∧ pair.Forward

theorem lifecycleInv_init : LifecycleInv key [] ⟨.empty, [], 0, 0, 0⟩ where
  starts := Ledger.nil
  ends := Ledger.nil
  pendingKey := by
    intro k event h
    cases h
  paired := by
    intro pair h
    cases h

private theorem lifecycleStep_start {st : LifecycleState κ} (h : LifecycleInv key done st)
    (event : EventRef) :
    LifecycleInv key (⟨false, event⟩ :: done) (lifecycleStep key st ⟨false, event⟩) := by
  unfold lifecycleStep
  simp only [Bool.false_eq_true, if_false]
  cases hkey : key event.event with
  | none =>
    refine ⟨?_, h.ends, h.pendingKey, h.paired⟩
    have hlost := h.starts.lose event
    rwa [Nat.add_right_comm] at hlost
  | some k =>
    -- the pending event of any key after the insertion
    have hpending : ∀ k' event', (st.pending.insert k event).get? k' = some event' →
        key event'.event = some k' := by
      intro k' event' hget
      rw [BTreeMap.get?_insert] at hget
      split_ifs at hget with hk
      · cases hget
        rw [hkey, hk]
      · exact h.pendingKey k' event' hget
    dsimp only
    cases hget : st.pending.get? k with
    | none =>
      exact ⟨BTreeMap.ledger_insert_fresh h.starts hget event, h.ends, hpending, h.paired⟩
    | some old =>
      exact ⟨BTreeMap.ledger_overwrite h.starts hget event, h.ends, hpending, h.paired⟩

private theorem lifecycleStep_end {st : LifecycleState κ} (h : LifecycleInv key done st)
    (hlate : ∀ start ∈ timelineStarts done, start.timestampNs ≤ event.timestampNs) :
    LifecycleInv key (⟨true, event⟩ :: done) (lifecycleStep key st ⟨true, event⟩) := by
  unfold lifecycleStep
  simp only [if_true]
  cases hkey : key event.event with
  | none => exact ⟨h.starts, h.ends.lose event, h.pendingKey, h.paired⟩
  | some k =>
    dsimp only
    cases hget : st.pending.get? k with
    | none => exact ⟨h.starts, h.ends.lose event, h.pendingKey, h.paired⟩
    | some start =>
      have hmem : start ∈ st.pending.values :=
        List.mem_map.mpr ⟨(k, start), BTreeMap.get?_eq_some_iff.mp hget, rfl⟩
      have hle : start.timestampNs ≤ event.timestampNs :=
        hlate start (h.starts.mem (List.mem_append_right _ hmem))
      simp only [checkedSub_of_le hle]
      refine ⟨?_, ?_, ?_, ?_⟩
      · have htake := BTreeMap.ledger_take h.starts hget
        simpa using htake
      · have hplace := h.ends.place event
        simp only [List.map_append, List.map_cons, List.map_nil]
        exact hplace.perm (List.perm_append_singleton event _).symm (List.Perm.refl _)
      · intro k' event' hget'
        rw [BTreeMap.get?_erase] at hget'
        split_ifs at hget' with hk
        exact h.pendingKey k' event' hget'
      · intro pair hpair
        rcases List.mem_append.mp hpair with hold | hnew
        · exact h.paired pair hold
        · rw [List.mem_singleton.mp hnew]
          exact ⟨⟨k, h.pendingKey k start hget, hkey⟩, hle, rfl⟩

/-! ## The whole loop -/

theorem lifecycleLoop_inv (key : Event → Option κ) (starts ends : List EventRef) :
    LifecycleInv key (lifecycleTimeline starts ends).reverse (lifecycleLoop key starts ends) := by
  refine foldl_invariant lifecycleInv_init ?_
  rintro done ⟨isEnd, event⟩ todo st hl h
  cases isEnd with
  | false => exact lifecycleStep_start h event
  | true =>
    refine lifecycleStep_end h ?_
    intro start hstart
    exact timelineStarts_le (lifecycleTimeline_sorted starts ends) hl hstart

private theorem lifecycleLoop_starts (key : Event → Option κ) (starts ends : List EventRef) :
    let st := lifecycleLoop key starts ends
    Ledger (st.pairs.map Pair.startEvent ++ st.pending.values)
      (st.unmatchedStart + st.ambiguous) starts := by
  refine (lifecycleLoop_inv key starts ends).starts.perm (List.Perm.refl _) ?_
  exact timelineStarts_perm ((List.reverse_perm _).trans (lifecycleTimeline_perm starts ends))

private theorem lifecycleLoop_ends (key : Event → Option κ) (starts ends : List EventRef) :
    let st := lifecycleLoop key starts ends
    Ledger (st.pairs.map Pair.endEvent) st.unmatchedEnd ends := by
  refine (lifecycleLoop_inv key starts ends).ends.perm (List.Perm.refl _) ?_
  exact timelineEnds_perm ((List.reverse_perm _).trans (lifecycleTimeline_perm starts ends))

/-- Lifecycle pairing is a matching by key, forward in time. -/
theorem correlateLifecycle_sound (key : Event → Option κ) (starts ends : List EventRef)
    (limit : Option Nat) :
    PairsSound (fun pair => pair.SameKey key ∧ pair.Forward) starts ends
      (correlateLifecycle key starts ends limit).pairs := by
  refine PairsSound.sort_truncate ⟨?_, ?_, ?_⟩ limit
  · exact (lifecycleLoop_starts key starts ends).subperm_left
  · exact (lifecycleLoop_ends key starts ends).subperm
  · exact (lifecycleLoop_inv key starts ends).paired

/-- Without a limit every start is paired, unmatched or ambiguous, and every end is paired or
    unmatched. -/
theorem correlateLifecycle_conserves (key : Event → Option κ) (starts ends : List EventRef) :
    let outcome := correlateLifecycle key starts ends none
    Conserves starts ends outcome outcome.ambiguous 0 := by
  have hstarts := (lifecycleLoop_starts key starts ends).balance
  have hends := (lifecycleLoop_ends key starts ends).balance
  have hsort := (sortPairs_perm (lifecycleLoop key starts ends).pairs).length_eq
  have hlen := BTreeMap.len_eq_length_values (lifecycleLoop key starts ends).pending
  simp only [List.length_append, List.length_map] at hstarts hends
  constructor
  · simp only [correlateLifecycle, truncate_none, hsort, hlen]
    omega
  · simp only [correlateLifecycle, truncate_none, hsort]
    omega

end

end Xprobe.Correlator
