import Xprobe.Foundation.Sharded
import Xprobe.Correlator.Alternating
import Xprobe.Correlator.Soundness

/-!
# What exact pairing computes

Owners (threads, or correlation keys) whose spans come one after the other: each start has its own
end, and the next start is later. A lifecycle remembers one start for each key on a timeline of all
owners, and `correlate_exact` pairs the starts and the ends of a key by their rank. Both recover the
spans, however the owners are interleaved.

For the lifecycles this rests on a fact about any timeline. The loop treats each key on its own and
scans its entries with `spanStep`, which pairs an end with a start right before it.
-/

namespace Xprobe.Correlator

open Foundation Protocol

/-! ## The scan of one key -/

/-- The state of the scan of one key: the start that is pending, and the spans. -/
structure SpanScan where
  pending : Option EventRef
  spans : List (EventRef × EventRef)

def spanStep (st : SpanScan) : Bool × EventRef → SpanScan
  | (false, start) => { st with pending := some start }
  | (true, e) =>
    match st.pending with
    | some start => ⟨none, st.spans ++ [(start, e)]⟩
    | none => st

variable {entry : TimelineEntry}

section Loop

variable {κ : Type} [LinearOrder κ] {key : Event → Option κ}

def spanEvents (key : Event → Option κ) (k : κ) (entries : List TimelineEntry) :
    List (Bool × EventRef) :=
  (ofKey key k entries).map (fun entry => (entry.isEnd, entry.event))

/-- What the state of the loop says about a key. -/
def LifecycleState.scanOf (key : Event → Option κ) (k : κ) (st : LifecycleState κ) : SpanScan where
  pending := st.pending.get? k
  spans := (st.pairs.filter (fun pair => key pair.endEvent.event = some k)).map
    (fun pair => (pair.startEvent, pair.endEvent))

def PendingBefore (st : LifecycleState κ) (timestampNs : UInt64) : Prop :=
  ∀ k start, st.pending.get? k = some start → start.timestampNs ≤ timestampNs

variable {st : LifecycleState κ}

/-- An entry is a step of the scan of its own key and nothing for the others. -/
theorem lifecycleStep_scanOf (hpending : PendingBefore st entry.event.timestampNs) (k : κ) :
    (lifecycleStep key st entry).scanOf key k =
      if key entry.event.event = some k then
        spanStep (st.scanOf key k) (entry.isEnd, entry.event)
      else st.scanOf key k := by
  obtain ⟨isEnd, event⟩ := entry
  cases hkey : key event.event with
  | none =>
    rw [if_neg nofun]
    cases isEnd <;> simp [lifecycleStep, hkey, LifecycleState.scanOf]
  | some k' =>
    have hother : some k' = some k ↔ k = k' := by rw [Option.some.injEq, eq_comm]
    cases isEnd with
    -- a start replaces what its key has pending
    | false =>
      have hstep : (lifecycleStep key st ⟨false, event⟩).pending = st.pending.insert k' event ∧
          (lifecycleStep key st ⟨false, event⟩).pairs = st.pairs := by
        cases hget : st.pending.get? k' <;> simp [lifecycleStep, hkey, hget]
      simp only [LifecycleState.scanOf, hstep, BTreeMap.get?_insert, hother]
      split_ifs
      · rfl
      · rfl
    -- an end takes the pending start of its key, which is not later
    | true =>
      cases hget : st.pending.get? k' with
      | none =>
        have hstep : lifecycleStep key st ⟨true, event⟩ =
            { st with unmatchedEnd := st.unmatchedEnd + 1 } := by
          simp [lifecycleStep, hkey, hget]
        rw [hstep]
        split_ifs with hk
        · cases hk
          simp [LifecycleState.scanOf, spanStep, hget]
        · rfl
      | some start =>
        have hstep : lifecycleStep key st ⟨true, event⟩ =
            { st with
              pending := st.pending.erase k'
              pairs := st.pairs ++ [⟨start, event, event.timestampNs - start.timestampNs⟩] } := by
          simp [lifecycleStep, hkey, hget, checkedSub_of_le (hpending k' start hget)]
        rw [hstep]
        split_ifs with hk
        · cases hk
          simp [LifecycleState.scanOf, spanStep, hget, hkey, BTreeMap.get?_erase]
        · have hne : k ≠ k' := fun h => hk (hother.mpr h)
          simp [LifecycleState.scanOf, hkey, BTreeMap.get?_erase, hne, hk]

theorem PendingBefore.step {timestampNs : UInt64} (h : PendingBefore st timestampNs)
    (hentry : entry.event.timestampNs ≤ timestampNs) :
    PendingBefore (lifecycleStep key st entry) timestampNs := by
  intro k start hget
  -- what is pending was pending before or is the entry
  have hold : st.pending.get? k = some start ∨ start = entry.event := by
    obtain ⟨isEnd, event⟩ := entry
    cases hkey : key event.event with
    | none =>
      left
      cases isEnd <;> simpa [lifecycleStep, hkey] using hget
    | some k' =>
      cases isEnd with
      | false =>
        have hstep : (lifecycleStep key st ⟨false, event⟩).pending =
            st.pending.insert k' event := by
          cases hget : st.pending.get? k' <;> simp [lifecycleStep, hkey, hget]
        rw [hstep, BTreeMap.get?_insert] at hget
        split_ifs at hget
        · exact .inr (Option.some.inj hget).symm
        · exact .inl hget
      | true =>
        left
        simp only [lifecycleStep, hkey, if_true] at hget
        split at hget
        · split at hget
          · rw [BTreeMap.get?_erase] at hget
            split_ifs at hget
            exact hget
          · rw [BTreeMap.get?_erase] at hget
            split_ifs at hget
            exact hget
        · exact hget
  rcases hold with hold | rfl
  · exact h k start hold
  · exact hentry

/-- The loop scans each key on its own. -/
theorem foldl_lifecycleStep_scanOf {entries : List TimelineEntry}
    (hsorted : entries.Pairwise (fun a b => a.event.timestampNs ≤ b.event.timestampNs))
    (hpending : ∀ entry ∈ entries, PendingBefore st entry.event.timestampNs) (k : κ) :
    (entries.foldl (lifecycleStep key) st).scanOf key k =
      (spanEvents key k entries).foldl spanStep (st.scanOf key k) := by
  induction entries generalizing st with
  | nil => rfl
  | cons entry rest ih =>
    obtain ⟨hlater, hsorted⟩ := List.pairwise_cons.mp hsorted
    rw [List.foldl_cons, ih hsorted ?_, lifecycleStep_scanOf (hpending entry List.mem_cons_self)]
    · rw [spanEvents, spanEvents, ofKey, ofKey, List.filter_cons]
      by_cases hkey : key entry.event.event = some k
      · simp [hkey]
      · simp [hkey]
    · intro later hmem
      exact (hpending later (List.mem_cons_of_mem _ hmem)).step (hlater later hmem)

/-- The pairs of a key are the spans that the scan of its entries finds. -/
theorem scanOf_lifecycleLoop (key : Event → Option κ) (starts ends : List EventRef) (k : κ) :
    (lifecycleLoop key starts ends).scanOf key k =
      (spanEvents key k (lifecycleTimeline starts ends)).foldl spanStep ⟨none, []⟩ := by
  refine foldl_lifecycleStep_scanOf (lifecycleTimeline_sorted starts ends) ?_ k
  intro entry _ k' start hget
  cases hget

end Loop

/-! ## When a span is found -/

/-- A start is pending or a span was found. -/
def SpanScan.Busy (st : SpanScan) : Prop := st.pending ≠ none ∨ st.spans ≠ []

theorem SpanScan.Busy.step {st : SpanScan} (h : st.Busy) (event : Bool × EventRef) :
    (spanStep st event).Busy := by
  obtain ⟨isEnd, ref⟩ := event
  cases isEnd with
  | false => exact .inl nofun
  | true =>
    cases hpending : st.pending with
    | none => simpa [SpanScan.Busy, spanStep, hpending] using h
    | some start => simp [SpanScan.Busy, spanStep, hpending]

/-- An end takes the start that is pending. -/
theorem SpanScan.Busy.close {st : SpanScan} (h : st.Busy) (ref : EventRef) :
    (spanStep st (true, ref)).spans ≠ [] := by
  cases hpending : st.pending with
  | none => simpa [SpanScan.Busy, spanStep, hpending] using h
  | some start => simp [spanStep, hpending]

theorem spans_spanStep_ne_nil {st : SpanScan} (h : st.spans ≠ []) (event : Bool × EventRef) :
    (spanStep st event).spans ≠ [] := by
  obtain ⟨isEnd, ref⟩ := event
  cases isEnd with
  | false => exact h
  | true => exact SpanScan.Busy.close (.inr h) ref

/-- The scan finds a span when an end comes after a start. -/
theorem spans_ne_nil {front : List (Bool × EventRef)} {start : EventRef}
    (h : (false, start) ∈ front) (back : List (Bool × EventRef)) (ref : EventRef) (st : SpanScan) :
    ((front ++ (true, ref) :: back).foldl spanStep st).spans ≠ [] := by
  obtain ⟨before, between, rfl⟩ := List.append_of_mem h
  rw [List.append_assoc, List.cons_append, List.foldl_append, List.foldl_cons, List.foldl_append,
    List.foldl_cons]
  -- the start stays pending, or is part of a span, until the end
  have hbusy := List.foldlRecOn (motive := SpanScan.Busy) between spanStep
    (b := spanStep (before.foldl spanStep st) (false, start)) (.inl nofun)
    (fun st hst event _ => hst.step event)
  exact List.foldlRecOn (motive := fun st => st.spans ≠ []) back spanStep (hbusy.close ref)
    (fun st hst event _ => spans_spanStep_ne_nil hst event)

/-! ## Owners of spans -/

/-- The events of an owner: starts and ends in turn, and perhaps a start at the end. -/
def spanTrace (spans : List (EventRef × EventRef)) (trailing : Option EventRef) :
    List (Bool × EventRef) :=
  spans.flatMap (fun span => [(false, span.1), (true, span.2)]) ++
    trailing.toList.map (fun start => (false, start))

theorem spanTrace_cons (span : EventRef × EventRef) (spans : List (EventRef × EventRef))
    (trailing : Option EventRef) :
    spanTrace (span :: spans) trailing =
      (false, span.1) :: (true, span.2) :: spanTrace spans trailing := rfl

/-- A key with its spans, one after the other, and a start without an end after them. -/
structure SpanOwner {κ : Type} (key : Event → Option κ) where
  owner : κ
  spans : List (EventRef × EventRef)
  trailing : Option EventRef
  keyed : ∀ event ∈ spanTrace spans trailing, key event.2.event = some owner
  forward : ∀ span ∈ spans, span.1.timestampNs ≤ span.2.timestampNs
  apart : spans.IsChain (fun a b => a.2.timestampNs < b.1.timestampNs)
  trailing_apart : ∀ last ∈ spans.getLast?, ∀ start ∈ trailing,
    last.2.timestampNs < start.timestampNs

variable {event : EventRef}

namespace SpanOwner

variable {κ : Type} {key : Event → Option κ} (o : SpanOwner key)

def starts : List EventRef := o.spans.map Prod.fst ++ o.trailing.toList

def ends : List EventRef := o.spans.map Prod.snd

theorem key_of_mem_starts (h : event ∈ o.starts) : key event.event = some o.owner := by
  apply o.keyed (false, event)
  rcases List.mem_append.mp h with hspan | htrailing
  · obtain ⟨span, hmem, rfl⟩ := List.mem_map.mp hspan
    exact List.mem_append_left _ (List.mem_flatMap.mpr ⟨span, hmem, List.mem_cons_self⟩)
  · exact List.mem_append_right _ (List.mem_map_of_mem htrailing)

theorem key_of_mem_ends (h : event ∈ o.ends) : key event.event = some o.owner := by
  obtain ⟨span, hmem, rfl⟩ := List.mem_map.mp h
  apply o.keyed (true, span.2)
  exact List.mem_append_left _
    (List.mem_flatMap.mpr ⟨span, hmem, List.mem_cons_of_mem _ List.mem_cons_self⟩)

end SpanOwner

theorem starts_spanTrace (spans : List (EventRef × EventRef)) (trailing : Option EventRef) :
    ((spanTrace spans trailing).filter (fun event => !event.1)).map Prod.snd =
      spans.map Prod.fst ++ trailing.toList := by
  induction spans with
  | nil => cases trailing <;> rfl
  | cons span spans ih => simp [spanTrace_cons, ih]

theorem ends_spanTrace (spans : List (EventRef × EventRef)) (trailing : Option EventRef) :
    ((spanTrace spans trailing).filter (·.1)).map Prod.snd =
      spans.map Prod.snd := by
  induction spans with
  | nil => cases trailing <;> rfl
  | cons span spans ih => simp [spanTrace_cons, ih]

/-- The scan finds the spans of an owner, and the start at the end is pending. -/
theorem foldl_spanStep_spanTrace (spans found : List (EventRef × EventRef))
    (trailing : Option EventRef) :
    (spanTrace spans trailing).foldl spanStep ⟨none, found⟩ = ⟨trailing, found ++ spans⟩ := by
  induction spans generalizing found with
  | nil =>
    cases trailing with
    | none => simp [spanTrace]
    | some start => simp [spanTrace, spanStep]
  | cons span spans ih =>
    rw [spanTrace_cons, List.foldl_cons, List.foldl_cons]
    change (spanTrace spans trailing).foldl spanStep ⟨none, found ++ [span]⟩ = _
    rw [ih, List.append_assoc]
    rfl

variable {spans : List (EventRef × EventRef)}

/-- The order of a timeline increases along the events of an owner. -/
theorem increasing_spanTrace {trailing : Option EventRef}
    (hforward : ∀ span ∈ spans, span.1.timestampNs ≤ span.2.timestampNs)
    (hapart : spans.IsChain (fun a b => a.2.timestampNs < b.1.timestampNs))
    (htrailing : ∀ last ∈ spans.getLast?, ∀ start ∈ trailing,
      last.2.timestampNs < start.timestampNs) :
    (spanTrace spans trailing).IsChain
      (fun a b => lifecycleOrder (timelineEntry a) < lifecycleOrder (timelineEntry b)) := by
  induction spans with
  | nil => cases trailing <;> simp [spanTrace]
  | cons span spans ih =>
    rw [spanTrace_cons, List.isChain_cons_cons]
    constructor
    · -- at the same time the start is before the end
      refine Prod.Lex.toLex_lt_toLex.mpr ?_
      rcases (hforward span List.mem_cons_self).lt_or_eq with hlt | heq
      · exact .inl hlt
      · exact .inr ⟨heq, Prod.Lex.toLex_lt_toLex.mpr (.inl (show false < true by decide))⟩
    · refine List.isChain_cons.mpr ⟨?_, ih (fun s hs => hforward s (List.mem_cons_of_mem _ hs))
        hapart.tail ?_⟩
      · intro next hnext
        refine Prod.Lex.toLex_lt_toLex.mpr (.inl ?_)
        cases spans with
        | nil =>
          cases trailing with
          | none => cases hnext
          | some start =>
            cases hnext
            exact htrailing span rfl start rfl
        | cons second spans =>
          cases hnext
          exact (List.isChain_cons_cons.mp hapart).1
      · intro last hlast
        cases spans with
        | nil => cases hlast
        | cons second spans =>
          rw [List.getLast?_cons_cons] at htrailing
          exact htrailing last hlast

theorem alternating_spanTrace (spans : List (EventRef × EventRef)) (trailing : Option EventRef) :
    (spanTrace spans trailing).IsChain (fun a b => a.1 ≠ b.1) := by
  induction spans with
  | nil => cases trailing <;> simp [spanTrace]
  | cons span spans ih =>
    rw [spanTrace_cons, List.isChain_cons_cons]
    refine ⟨Bool.false_ne_true, List.isChain_cons.mpr ⟨?_, ih⟩⟩
    intro next hnext
    cases spans with
    | nil =>
      cases trailing with
      | none => cases hnext
      | some start =>
        cases hnext
        exact Bool.true_eq_false_eq_False
    | cons second spans =>
      cases hnext
      exact Bool.true_eq_false_eq_False

/-! ## Interleaved owners -/

section Owners

variable {κ : Type} {key : Event → Option κ} {owners : List (SpanOwner key)}
  {starts ends : List EventRef}

structure Interleaves (owners : List (SpanOwner key)) (starts ends : List EventRef) : Prop where
  distinct : (owners.map SpanOwner.owner).Nodup
  starts : starts.Perm (owners.flatMap SpanOwner.starts)
  ends : ends.Perm (owners.flatMap SpanOwner.ends)

/-- The outcome has the spans of the owners as its pairs, and only starts without an end are
    unmatched. -/
structure RecoversSpans (owners : List (SpanOwner key)) (outcome : Outcome) : Prop where
  pairs : outcome.pairs.Perm ((owners.flatMap SpanOwner.spans).map spanPair)
  unmatchedStart :
    outcome.unmatchedStart = (owners.flatMap (fun o => o.trailing.toList)).length
  unmatchedEnd : outcome.unmatchedEnd = 0
  ambiguous : outcome.ambiguous = 0

namespace Interleaves

variable (h : Interleaves owners starts ends)

include h

theorem owner_of_start (hevent : event ∈ starts) :
    ∃ o ∈ owners, key event.event = some o.owner := by
  obtain ⟨o, ho, hmem⟩ := List.mem_flatMap.mp (h.starts.subset hevent)
  exact ⟨o, ho, o.key_of_mem_starts hmem⟩

theorem owner_of_end (hevent : event ∈ ends) : ∃ o ∈ owners, key event.event = some o.owner := by
  obtain ⟨o, ho, hmem⟩ := List.mem_flatMap.mp (h.ends.subset hevent)
  exact ⟨o, ho, o.key_of_mem_ends hmem⟩

theorem owner_of_entry (hentry : entry ∈ lifecycleTimeline starts ends) :
    ∃ o ∈ owners, key entry.event.event = some o.owner := by
  have hmem := (lifecycleTimeline_perm starts ends).subset hentry
  rcases List.mem_append.mp hmem with hstart | hend
  · obtain ⟨event, hevent, rfl⟩ := List.mem_map.mp hstart
    exact h.owner_of_start hevent
  · obtain ⟨event, hevent, rfl⟩ := List.mem_map.mp hend
    exact h.owner_of_end hevent

theorem length_starts : starts.length = (owners.flatMap SpanOwner.spans).length +
      (owners.flatMap (·.trailing.toList)).length := by
  rw [h.starts.length_eq, List.length_flatMap, List.length_flatMap, List.length_flatMap,
    ← List.sum_map_add]
  simp [SpanOwner.starts]

theorem length_ends : ends.length = (owners.flatMap SpanOwner.spans).length := by
  rw [h.ends.length_eq, List.length_flatMap, List.length_flatMap]
  simp [SpanOwner.ends]

variable [LinearOrder κ]

theorem starts_of_owner {o : SpanOwner key} (ho : o ∈ owners) :
    (starts.filter (fun event => key event.event = some o.owner)).Perm o.starts := by
  refine (h.starts.filter _).trans (List.Perm.of_eq ?_)
  refine filter_flatMap_key SpanOwner.owner _ h.distinct ?_ ho rfl
  intro other _ event hevent
  rw [decide_eq_true_eq, other.key_of_mem_starts hevent, Option.some.injEq]

theorem ends_of_owner {o : SpanOwner key} (ho : o ∈ owners) :
    (ends.filter (fun event => key event.event = some o.owner)).Perm o.ends := by
  refine (h.ends.filter _).trans (List.Perm.of_eq ?_)
  refine filter_flatMap_key SpanOwner.owner _ h.distinct ?_ ho rfl
  intro other _ event hevent
  rw [decide_eq_true_eq, other.key_of_mem_ends hevent, Option.some.injEq]

/-- An owner has the entries in the timeline that it made. -/
theorem ofKey_timeline {o : SpanOwner key} (ho : o ∈ owners) :
    ofKey key o.owner (lifecycleTimeline starts ends) =
      (spanTrace o.spans o.trailing).map timelineEntry := by
  have hsorted := increasing_spanTrace o.forward o.apart o.trailing_apart
  have htrans : IsTrans (Bool × EventRef)
      (fun a b => lifecycleOrder (timelineEntry a) < lifecycleOrder (timelineEntry b)) :=
    ⟨fun _ _ _ => lt_trans⟩
  refine @filter_timeline_eq starts ends _ _ lifecycleOrder
    (fun event => key event.event = some o.owner) _ ?_ ?_ hsorted.pairwise
  · rw [starts_spanTrace]
    exact h.starts_of_owner ho
  · rw [ends_spanTrace]
    exact h.ends_of_owner ho

theorem alternates : Alternates key (lifecycleTimeline starts ends) := by
  intro k
  cases hentries : ofKey key k (lifecycleTimeline starts ends) with
  | nil => exact List.IsChain.nil
  | cons first rest =>
    -- a key with entries has an owner
    obtain ⟨hmem, hkey⟩ := mem_ofKey_iff.mp (hentries ▸ List.mem_cons_self)
    obtain ⟨o, ho, howner⟩ := h.owner_of_entry hmem
    cases hkey.symm.trans howner
    rw [← hentries, h.ofKey_timeline ho, List.isChain_map]
    exact alternating_spanTrace o.spans o.trailing

/-- Pairs that are the spans of each owner are the spans of all. -/
theorem pairs_perm {pairs : List Pair}
    (hforward : ∀ pair ∈ pairs, pair.Forward) (hends : ∀ pair ∈ pairs, pair.endEvent ∈ ends)
    (hspans : ∀ o ∈ owners,
      (pairs.filter (fun pair => key pair.endEvent.event = some o.owner)).map
        (fun pair => (pair.startEvent, pair.endEvent)) = o.spans) :
    pairs.Perm ((owners.flatMap SpanOwner.spans).map spanPair) := by
  have hnodup : (owners.map (fun o => some o.owner)).Nodup := by
    have hmap := h.distinct.map (Option.some_injective κ)
    rwa [List.map_map] at hmap
  have hcover : ∀ pair ∈ pairs,
      key pair.endEvent.event ∈ owners.map (fun o => some o.owner) := by
    intro pair hpair
    obtain ⟨o, ho, hkey⟩ := h.owner_of_end (hends pair hpair)
    exact List.mem_map.mpr ⟨o, ho, hkey.symm⟩
  refine (perm_flatMap_filter_key (fun pair : Pair => key pair.endEvent.event) hnodup
    hcover).trans (List.Perm.of_eq ?_)
  rw [List.flatMap_map, List.map_flatMap]
  apply List.flatMap_congr
  intro o ho
  have hself : ∀ pair ∈ pairs.filter (fun pair => key pair.endEvent.event = some o.owner),
      (spanPair ∘ fun pair => (pair.startEvent, pair.endEvent)) pair = id pair :=
    fun pair hpair => (hforward pair (List.mem_filter.mp hpair).1).spanPair_eq
  rw [← hspans o ho, List.map_map, List.map_congr_left hself, List.map_id]

end Interleaves

variable [LinearOrder κ]

/-- A lifecycle recovers the spans of its owners. -/
theorem correlateLifecycle_recovers (h : Interleaves owners starts ends) :
    RecoversSpans owners (correlateLifecycle key starts ends none) := by
  have hinv := foldl_lifecycleStep_alternating (lifecycleTimeline_sorted starts ends)
    (fun entry hentry => by
      obtain ⟨o, -, hkey⟩ := h.owner_of_entry hentry
      rw [hkey]
      rfl) h.alternates
  have hsound := correlateLifecycle_sound key starts ends none
  have hpairs : (correlateLifecycle key starts ends none).pairs.Perm
      ((owners.flatMap SpanOwner.spans).map spanPair) := by
    refine (sortPairs_perm _).trans (h.pairs_perm ?_ ?_ ?_)
    · exact fun pair hpair => ((lifecycleLoop_inv key starts ends).paired pair hpair).2
    · intro pair hpair
      exact hsound.ends_used.subset (List.mem_map_of_mem (mem_sortByKey.mpr hpair))
    · intro o ho
      have hscan := congrArg SpanScan.spans (scanOf_lifecycleLoop key starts ends o.owner)
      rw [spanEvents, h.ofKey_timeline ho, List.map_map] at hscan
      change _ = ((spanTrace o.spans o.trailing).map id |>.foldl spanStep ⟨none, []⟩).spans at hscan
      rw [List.map_id, foldl_spanStep_spanTrace, List.nil_append] at hscan
      exact hscan
  -- the counters follow from the number of pairs
  have hambiguous : (correlateLifecycle key starts ends none).ambiguous = 0 := hinv.ambiguous
  obtain ⟨hstartsBalance, hendsBalance⟩ := correlateLifecycle_conserves key starts ends
  have hlength := hpairs.length_eq
  have hstarts := h.length_starts
  have hends := h.length_ends
  rw [List.length_map] at hlength
  refine ⟨hpairs, ?_, ?_, hambiguous⟩
  · omega
  · omega

end Owners

/-! ## Pairing by rank -/

/-- Events in the order of time are in the order in which an owner made them. -/
theorem eq_of_sortedBy_of_increasing {events made : List EventRef}
    (hsorted : SortedBy EventRef.timestampNs events) (hperm : events.Perm made)
    (hmade : made.Pairwise (fun a b => a.timestampNs < b.timestampNs)) : events = made := by
  rw [← sortByKey_of_sorted hsorted]
  exact sortByKey_eq_of_perm_sorted hperm hmade

/-- If the next span is later, so are all after it. -/
theorem pairwise_apart (hforward : ∀ span ∈ spans, span.1.timestampNs ≤ span.2.timestampNs)
    (hapart : spans.IsChain (fun a b => a.2.timestampNs < b.1.timestampNs)) :
    spans.Pairwise (fun a b => a.2.timestampNs < b.1.timestampNs) := by
  induction spans with
  | nil => exact List.Pairwise.nil
  | cons span spans ih =>
    have hrest := ih (fun s hs => hforward s (List.mem_cons_of_mem _ hs)) hapart.tail
    refine List.pairwise_cons.mpr ⟨?_, hrest⟩
    intro later hlater
    cases spans with
    | nil => cases hlater
    | cons second spans =>
      have hnext := (List.isChain_cons_cons.mp hapart).1
      rcases List.mem_cons.mp hlater with rfl | hmem
      · exact hnext
      · exact hnext.trans ((hforward second (by simp)).trans_lt
          ((List.pairwise_cons.mp hrest).1 later hmem))

/-- The groups of an owner are paired span by span. -/
theorem keyPairs_spans (hforward : ∀ span ∈ spans, span.1.timestampNs ≤ span.2.timestampNs) :
    keyPairs (spans.map Prod.fst) (spans.map Prod.snd) = spans.map spanPair := by
  rw [keyPairs, if_pos (by simp), List.zip_map', List.map_id'', ← List.filterMap_eq_map]
  · apply List.filterMap_congr
    intro span hspan
    rw [forwardPair, checkedSub_of_le (hforward span hspan)]
    rfl
  · exact fun span => rfl

section ByRank

variable {owners : List (SpanOwner correlationKey)} {starts ends : List EventRef}
  {o : SpanOwner correlationKey} (h : Interleaves owners starts ends)
  (hended : ∀ o ∈ owners, o.trailing = none)
  (hstartsSorted : SortedBy EventRef.timestampNs starts)
  (hendsSorted : SortedBy EventRef.timestampNs ends)

include h hendsSorted

theorem group_ends_of_owner (ho : o ∈ owners) :
    BTreeMap.group refKey ends o.owner = o.spans.map Prod.snd := by
  refine eq_of_sortedBy_of_increasing (hendsSorted.filter _) (h.ends_of_owner ho) ?_
  refine List.pairwise_map.mpr ((pairwise_apart o.forward o.apart).imp_of_mem ?_)
  intro a b _ hb hlt
  exact hlt.trans_le (o.forward b hb)

omit hendsSorted
include hended hstartsSorted

theorem group_starts_of_owner (ho : o ∈ owners) :
    BTreeMap.group refKey starts o.owner = o.spans.map Prod.fst := by
  refine eq_of_sortedBy_of_increasing (hstartsSorted.filter _) ?_ ?_
  · have hperm := h.starts_of_owner ho
    rwa [SpanOwner.starts, hended o ho, Option.toList_none, List.append_nil] at hperm
  · refine List.pairwise_map.mpr ((pairwise_apart o.forward o.apart).imp_of_mem ?_)
    intro a b ha _ hlt
    exact (o.forward a ha).trans_lt hlt

include hendsSorted

/-- The loop makes the spans of an owner from the groups of its key. -/
theorem exactLoop_pairs_of_owner (ho : o ∈ owners)
    (hends : ∀ pair ∈ (exactLoop starts ends).pairs, pair.endEvent ∈ ends) :
    ((exactLoop starts ends).pairs.filter
        (fun pair => correlationKey pair.endEvent.event = some o.owner)).map
      (fun pair => (pair.startEvent, pair.endEvent)) = o.spans := by
  have hstartGroup := group_starts_of_owner h hended hstartsSorted ho
  have hendGroup := group_ends_of_owner h hendsSorted ho
  -- the loop goes over the keys of the starts, so a key without spans is not among them
  cases hspans : o.spans with
  | nil =>
    have hnone : (exactLoop starts ends).pairs.filter
        (fun pair => correlationKey pair.endEvent.event = some o.owner) = [] := by
      rw [List.filter_eq_nil_iff]
      intro pair hpair hkey
      have hmem : pair.endEvent ∈ BTreeMap.group refKey ends o.owner :=
        BTreeMap.mem_group.mpr ⟨hends pair hpair, of_decide_eq_true hkey⟩
      rw [hendGroup, hspans] at hmem
      cases hmem
    rw [hnone]
    rfl
  | cons span spans =>
    have hne : BTreeMap.group refKey starts o.owner ≠ [] := by
      rw [hstartGroup, hspans]
      exact List.cons_ne_nil _ _
    -- each key contributes the pairs whose ends have it, and the keys are distinct
    have hfilter := filter_flatMap_key (k := o.owner)
      (Prod.fst : CorrelationKey × List EventRef → CorrelationKey)
      (fun entry => keyPairs entry.2 (BTreeMap.group refKey ends entry.1))
      (p := fun pair => correlationKey pair.endEvent.event = some o.owner)
      (BTreeMap.groupBy refKey starts).1.keys_nodup (by
        intro entry _ pair hpair
        have hmem := (List.of_mem_zip (mem_keyPairs.mp hpair).2.1).2
        have hkey : correlationKey pair.endEvent.event = some entry.1 :=
          (BTreeMap.mem_group.mp hmem).2
        rw [decide_eq_true_eq, hkey, Option.some.injEq])
      (BTreeMap.mem_groupBy_entries.mpr ⟨rfl, hne⟩) rfl
    rw [exactLoop_pairs, hfilter, hstartGroup, hendGroup, keyPairs_spans o.forward, hspans,
      List.map_map]
    exact List.map_id _

/-- A key has as many starts as ends, since all spans have ended. -/
theorem mismatchedKeys_of_owners : mismatchedKeys starts ends = ∅ := by
  rw [Finset.eq_empty_iff_forall_notMem]
  intro k hk
  obtain ⟨hpos, -, hne⟩ := mem_mismatchedKeys.mp hk
  obtain ⟨event, hevent⟩ := List.exists_mem_of_length_pos hpos
  obtain ⟨hmem, hkey⟩ := BTreeMap.mem_group.mp hevent
  obtain ⟨o, ho, howner⟩ := h.owner_of_start hmem
  cases hkey.symm.trans howner
  apply hne
  rw [keyCount, keyCount, group_starts_of_owner h hended hstartsSorted ho,
    group_ends_of_owner h hendsSorted ho, List.length_map, List.length_map]

/-- Pairing by rank recovers the spans of its keys, if all of them have ended. -/
theorem correlateExact_recovers : RecoversSpans owners (correlateExact starts ends none) := by
  have hsound := correlateExact_sound starts ends none
  have hends : ∀ pair ∈ (exactLoop starts ends).pairs, pair.endEvent ∈ ends := fun pair hpair =>
    hsound.ends_used.subset (List.mem_map_of_mem (mem_sortByKey.mpr hpair))
  have hpairs : (correlateExact starts ends none).pairs.Perm
      ((owners.flatMap SpanOwner.spans).map spanPair) := by
    refine (sortPairs_perm _).trans (h.pairs_perm ?_ hends ?_)
    · exact fun pair hpair => (exactPair_of_mem hpair).2
    · exact fun o ho => exactLoop_pairs_of_owner h hended hstartsSorted hendsSorted ho hends
  have hmatched := mismatchedKeys_of_owners h hended hstartsSorted hendsSorted
  have hnone : (owners.flatMap (·.trailing.toList)).length = 0 := by
    rw [List.length_eq_zero_iff, List.flatMap_eq_nil_iff]
    intro o ho
    rw [hended o ho, Option.toList_none]
  -- the counters follow from the number of pairs, as no key is mismatched
  have hlength := hpairs.length_eq
  have hstarts := h.length_starts
  have hendsLength := h.length_ends
  obtain ⟨hstartsBalance, hendsBalance⟩ := correlateExact_conserves starts ends
  rw [mismatchedCount_eq_sum, hmatched, Finset.sum_empty] at hstartsBalance hendsBalance
  rw [List.length_map] at hlength
  refine ⟨hpairs, ?_, ?_, ?_⟩
  · omega
  · omega
  · rw [correlateExact_ambiguous, hmatched, Finset.sum_empty]

end ByRank

/-! ## The policy -/

/-- The exact policy recovers spans that come one after the other on each thread or key: of threads
    for system calls and Python collections, of NVTX ranges, and of correlation keys if every span
    has ended. -/
theorem exactPolicy_recovers (lifecycles : LifecycleKinds) (starts ends : List EventRef) :
    ((lifecycles.syscall || lifecycles.pythonGc) = true →
      ∀ owners : List (SpanOwner (fun event => some (threadKey event))),
        Interleaves owners starts ends →
        ∃ outcome, correlateSelected starts ends .exact none lifecycles = some outcome ∧
          RecoversSpans owners outcome) ∧
    ((lifecycles.syscall || lifecycles.pythonGc) = false → lifecycles.nvtx = true →
      ∀ owners : List (SpanOwner correlationKey), Interleaves owners starts ends →
        ∃ outcome, correlateSelected starts ends .exact none lifecycles = some outcome ∧
          RecoversSpans owners outcome) ∧
    ((lifecycles.syscall || lifecycles.pythonGc) = false → lifecycles.nvtx = false →
      ∀ owners : List (SpanOwner correlationKey), Interleaves owners starts ends →
        (∀ o ∈ owners, o.trailing = none) → SortedBy EventRef.timestampNs starts →
        SortedBy EventRef.timestampNs ends →
        ∃ outcome, correlateSelected starts ends .exact none lifecycles = some outcome ∧
          RecoversSpans owners outcome) := by
  refine ⟨?_, ?_, ?_⟩
  · intro hthread owners h
    refine ⟨_, ?_, correlateLifecycle_recovers h⟩
    simp only [correlateSelected, hthread, if_true]
    rfl
  · intro hthread hnvtx owners h
    refine ⟨_, ?_, correlateLifecycle_recovers h⟩
    simp only [correlateSelected, hthread, hnvtx, Bool.false_eq_true, if_true, if_false]
    rfl
  · intro hthread hnvtx owners h hended hstarts hends
    refine ⟨_, ?_, correlateExact_recovers h hended hstarts hends⟩
    simp only [correlateSelected, hthread, hnvtx, Bool.false_eq_true, if_false]

/-! ### Two owners at once -/

/-- The starts and the ends of one owner, by their times. -/
structure Boundaries {κ : Type} (key : Event → Option κ) where
  owner : κ
  ref : Bool → UInt64 → EventRef
  keyed : ∀ isEnd timestampNs, key (ref isEnd timestampNs).event = some owner
  timed : ∀ isEnd timestampNs, (ref isEnd timestampNs).timestampNs = timestampNs

section

variable {κ : Type} {key : Event → Option κ} (a b : Boundaries key)

/-- An owner with a span of no length, a second span, and perhaps one that does not end. -/
def Boundaries.busy (unfinished : Bool) : SpanOwner key where
  owner := a.owner
  spans := [(a.ref false 10, a.ref true 10), (a.ref false 20, a.ref true 25)]
  trailing := if unfinished then some (a.ref false 30) else none
  keyed := by cases unfinished <;> simp [spanTrace, a.keyed]
  forward := by simp [a.timed]
  apart := by simp [a.timed]
  trailing_apart := by cases unfinished <;> simp [a.timed]

/-- An owner with one span at the same time. -/
def Boundaries.single : SpanOwner key where
  owner := b.owner
  spans := [(b.ref false 10, b.ref true 25)]
  trailing := none
  keyed := by simp [spanTrace, b.keyed]
  forward := by simp [b.timed]
  apart := by simp
  trailing_apart := by simp

theorem interleaves_busy {a b : Boundaries key} (hne : a.owner ≠ b.owner) (unfinished : Bool) :
    Interleaves [a.busy unfinished, b.single] (b.ref false 10 :: (a.busy unfinished).starts)
      [a.ref true 10, a.ref true 25, b.ref true 25] where
  distinct := by simpa [Boundaries.busy, Boundaries.single] using hne
  starts := (List.perm_append_singleton _ _).symm
  ends := List.Perm.refl _

end

def readsOf (tid : UInt32) : Boundaries (fun event => some (threadKey event)) where
  owner := threadKey { readEvent .syscallEntry 0 with tid }
  ref isEnd timestampNs :=
    ⟨0, { readEvent (if isEnd then .syscallExit else .syscallEntry) timestampNs with tid }⟩
  keyed _ _ := rfl
  timed _ _ := rfl

def rangesOf (rangeId : UInt64) : Boundaries correlationKey where
  owner := .nvtx 7 .thread rangeId
  ref isEnd timestampNs :=
    ⟨0, { readEvent (if isEnd then .nvtxRangeEnd else .nvtxRangeStart) timestampNs with
      host := none
      nvtx := some
        { name := "step", nameComplete := true, rangeKind := .thread, rangeId, startTid := 7 } }⟩
  keyed _ _ := rfl
  timed _ _ := rfl

def kernelsOf (correlationId : UInt32) : Boundaries correlationKey where
  owner := .cuda 7 1 correlationId
  ref isEnd timestampNs :=
    ⟨0, { readEvent (if isEnd then .gpuKernelEnd else .gpuKernelStart) timestampNs with
      host := none
      cuda := some ⟨some 0, some 1, some 7, some correlationId, none, none, none, some "k", none,
        none, none, none, none, none, none⟩ }⟩
  keyed _ _ := rfl
  timed _ _ := rfl

/-- System calls of two threads, two NVTX ranges, and the kernels of two correlation keys. -/
theorem exactPolicy_recovers_busy :
    (∃ outcome, correlateSelected ((readsOf 8).ref false 10 :: ((readsOf 7).busy true).starts)
        [(readsOf 7).ref true 10, (readsOf 7).ref true 25, (readsOf 8).ref true 25] .exact none
        ⟨true, false, false⟩ = some outcome ∧
      RecoversSpans [(readsOf 7).busy true, (readsOf 8).single] outcome) ∧
    (∃ outcome, correlateSelected ((rangesOf 8).ref false 10 :: ((rangesOf 7).busy true).starts)
        [(rangesOf 7).ref true 10, (rangesOf 7).ref true 25, (rangesOf 8).ref true 25] .exact none
        ⟨false, true, false⟩ = some outcome ∧
      RecoversSpans [(rangesOf 7).busy true, (rangesOf 8).single] outcome) ∧
    ∃ outcome, correlateSelected ((kernelsOf 8).ref false 10 :: ((kernelsOf 7).busy false).starts)
        [(kernelsOf 7).ref true 10, (kernelsOf 7).ref true 25, (kernelsOf 8).ref true 25] .exact none
        ⟨false, false, false⟩ = some outcome ∧
      RecoversSpans [(kernelsOf 7).busy false, (kernelsOf 8).single] outcome := by
  refine ⟨(exactPolicy_recovers ⟨true, false, false⟩ _ _).1 rfl _ (interleaves_busy ?_ true),
    (exactPolicy_recovers ⟨false, true, false⟩ _ _).2.1 rfl rfl _ (interleaves_busy ?_ true),
    (exactPolicy_recovers ⟨false, false, false⟩ _ _).2.2 rfl rfl _ (interleaves_busy ?_ false)
      ?_ ?_ ?_⟩
  · intro h
    exact absurd (threadKey_eq_iff.mp h).2.1 (show (7 : UInt32) ≠ 8 by decide)
  · simp [rangesOf]
  · simp [kernelsOf]
  · simp [Boundaries.busy, Boundaries.single]
  · simp [SortedBy, Boundaries.busy, SpanOwner.starts, (kernelsOf _).timed]
  · simp [SortedBy, (kernelsOf _).timed]

end Xprobe.Correlator
