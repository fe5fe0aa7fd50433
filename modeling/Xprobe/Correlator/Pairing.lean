import Xprobe.Foundation.Fallible
import Xprobe.Foundation.StableSort
import Xprobe.Protocol.Event

/-!
# Pairs and keys

What every pairing algorithm of the correlator works on: references to input events, the pairs it
builds, its outcome record, and the keys by which events are grouped.

An `&Event` is an `EventRef`: the event and its position in the input. Two references are the same
event exactly when their positions agree, also where the input repeats an event.

`PairsSound` is the abstract reading of an outcome: a partial matching between the selected starts
and the selected ends in which every pair satisfies the relation of the policy.
-/

namespace Xprobe.Correlator

open Foundation Protocol

/-! ## References, pairs, outcomes -/

/-- A reference to the event at a position of the input. -/
structure EventRef where
  index : Nat
  event : Event

namespace EventRef

def timestampNs (ref : EventRef) : UInt64 := ref.event.timestampNs

end EventRef

/-- `Pair`. -/
structure Pair where
  startEvent : EventRef
  endEvent : EventRef
  latencyNs : UInt64

/-- `Outcome`. The counters are natural numbers: each is bounded by the number of events, so the
    source's `u64` cannot overflow. -/
structure Outcome where
  pairs : List Pair
  unmatchedStart : Nat
  unmatchedEnd : Nat
  ambiguous : Nat

/-- `if let Some(limit) = limit { pairs.truncate(limit) }`. -/
def truncate {α : Type} (limit : Option Nat) (l : List α) : List α :=
  match limit with
  | none => l
  | some n => l.take n

@[simp] theorem truncate_none {α : Type} (l : List α) : truncate none l = l := rfl

/-- A loop that stops at the limit, where "no limit" is out of reach. -/
theorem take_getD_eq_truncate {α : Type} {l : List α} (h : l.length ≤ usizeMax)
    (limit : Option Nat) : l.take (limit.getD usizeMax) = truncate limit l := by
  cases limit with
  | none => exact List.take_of_length_le h
  | some n => rfl

theorem truncate_sublist {α : Type} (limit : Option Nat) (l : List α) :
    (truncate limit l).Sublist l := by
  cases limit with
  | none => exact List.Sublist.refl l
  | some n => exact List.take_sublist n l

theorem length_truncate_le {α : Type} {limit : Option Nat} {n : Nat} (h : limit = some n)
    (l : List α) : (truncate limit l).length ≤ n := by
  subst h
  exact List.length_take_le n l

/-- `pairs.sort_by_key(|pair| pair.start.timestamp_ns)`. -/
def sortPairs (pairs : List Pair) : List Pair :=
  sortByKey (fun pair => pair.startEvent.timestampNs) pairs

theorem sortPairs_perm (pairs : List Pair) : (sortPairs pairs).Perm pairs :=
  sortByKey_perm _ pairs

/-! ## Keys -/

/-- The key `(pid, tid, process_start_time)` of a thread, ordered as the tuple is. -/
abbrev ThreadKey := UInt32 ×ₗ UInt32 ×ₗ WithBot UInt64

def threadKey (event : Event) : ThreadKey :=
  toLex (event.pid, toLex (event.tid, (event.processStartTime : WithBot UInt64)))

theorem threadKey_eq_iff {a b : Event} : threadKey a = threadKey b ↔
      a.pid = b.pid ∧ a.tid = b.tid ∧ a.processStartTime = b.processStartTime := by
  simp only [threadKey, EmbeddingLike.apply_eq_iff_eq, Prod.ext_iff]
  exact Iff.rfl

/-- The key `(pid, tid)` of a call stack. -/
abbrev StackKey := UInt32 ×ₗ UInt32

def stackKey (event : Event) : StackKey := toLex (event.pid, event.tid)

theorem stackKey_eq_iff {a b : Event} :
    stackKey a = stackKey b ↔ a.pid = b.pid ∧ a.tid = b.tid := by
  simp only [stackKey, EmbeddingLike.apply_eq_iff_eq, Prod.mk.injEq]

/-- `StreamKey`: process, device, context, stream. -/
abbrev StreamKey := UInt32 ×ₗ UInt32 ×ₗ UInt32 ×ₗ UInt64

/-- The key under which `group_by_stream` files an event, if it has all three identifiers. -/
def streamKey (event : Event) : Option StreamKey :=
  match event.cuda with
  | none => none
  | some cuda =>
    match cuda.deviceId, cuda.contextId, cuda.streamId with
    | some device, some context, some stream =>
      some (toLex (event.pid, toLex (device, toLex (context, stream))))
    | _, _, _ => none

/-- `CorrelationKey`. -/
inductive CorrelationKey where
  | cuda (pid contextId correlationId : UInt32)
  | nvtx (pid : UInt32) (rangeKind : NvtxRangeKind) (rangeId : UInt64)

namespace CorrelationKey

/-- The position of a range kind in its derived order. -/
def rangeKindRank : NvtxRangeKind → Nat
  | .thread => 0
  | .process => 1

/-- The derived order compares the variant, then the fields in order. -/
def rank : CorrelationKey → Nat ×ₗ Nat ×ₗ Nat ×ₗ Nat
  | cuda pid contextId correlationId =>
    toLex (0, toLex (pid.toNat, toLex (contextId.toNat, correlationId.toNat)))
  | nvtx pid rangeKind rangeId =>
    toLex (1, toLex (pid.toNat, toLex (rangeKindRank rangeKind, rangeId.toNat)))

theorem rank_injective : Function.Injective rank := by
  intro a b h
  cases a with
  | cuda p c i =>
    cases b with
    | cuda p' c' i' =>
      simpa [rank, UInt32.toNat_inj] using h
    | nvtx p' k' i' => simp [rank] at h
  | nvtx p k i =>
    cases b with
    | cuda p' c' i' => simp [rank] at h
    | nvtx p' k' i' =>
      have hkind : rangeKindRank k = rangeKindRank k' → k = k' := by
        cases k <;> cases k' <;> simp [rangeKindRank]
      simp only [rank, EmbeddingLike.apply_eq_iff_eq, Prod.mk.injEq, UInt32.toNat_inj,
        UInt64.toNat_inj, true_and] at h
      obtain ⟨rfl, hk, rfl⟩ := h
      rw [hkind hk]

instance : LinearOrder CorrelationKey := LinearOrder.lift' rank rank_injective

end CorrelationKey

/-- `correlation_key`. -/
def correlationKey (event : Event) : Option CorrelationKey :=
  match event.nvtx with
  | some nvtx => some (.nvtx event.pid nvtx.rangeKind nvtx.rangeId)
  | none =>
    match event.cuda with
    | none => none
    | some cuda =>
      match cuda.contextId, cuda.correlationId with
      | some contextId, some correlationId => some (.cuda event.pid contextId correlationId)
      | _, _ => none

/-! ## Sound pairings -/

/-- The pair's latency is the time from its start to its end, which is not earlier. -/
def Pair.Forward (pair : Pair) : Prop :=
  pair.startEvent.timestampNs ≤ pair.endEvent.timestampNs ∧
    pair.latencyNs = pair.endEvent.timestampNs - pair.startEvent.timestampNs

/-- The pair of a start and an end that is not before it. -/
def spanPair (span : EventRef × EventRef) : Pair :=
  ⟨span.1, span.2, span.2.timestampNs - span.1.timestampNs⟩

theorem Pair.Forward.spanPair_eq {pair : Pair} (h : pair.Forward) :
    spanPair (pair.startEvent, pair.endEvent) = pair := by
  obtain ⟨startEvent, endEvent, latencyNs⟩ := pair
  exact congrArg (Pair.mk startEvent endEvent) h.2.symm

/-- The pair's latency is the distance of its events in time. -/
def Pair.Absolute (pair : Pair) : Prop :=
  pair.latencyNs = absDiff pair.endEvent.timestampNs pair.startEvent.timestampNs

def Pair.SameKey {κ : Type} (key : Event → Option κ) (pair : Pair) : Prop :=
  ∃ k, key pair.startEvent.event = some k ∧ key pair.endEvent.event = some k

/-- A partial matching of starts and ends whose pairs satisfy `R`: no start and no end is used
    more often than it was selected. -/
structure PairsSound (R : Pair → Prop) (starts ends : List EventRef) (pairs : List Pair) :
    Prop where
  starts_used : (pairs.map Pair.startEvent).Subperm starts
  ends_used : (pairs.map Pair.endEvent).Subperm ends
  related : ∀ pair ∈ pairs, R pair

namespace PairsSound

variable {R : Pair → Prop} {starts ends : List EventRef} {pairs pairs' : List Pair}

private theorem map_subperm {β : Type} (f : Pair → β) (h : pairs'.Subperm pairs) :
    (pairs'.map f).Subperm (pairs.map f) := by
  obtain ⟨l, hperm, hsub⟩ := h
  exact ⟨l.map f, hperm.map f, hsub.map f⟩

theorem of_subperm (h : PairsSound R starts ends pairs) (hs : pairs'.Subperm pairs) :
    PairsSound R starts ends pairs' where
  starts_used := (map_subperm Pair.startEvent hs).trans h.starts_used
  ends_used := (map_subperm Pair.endEvent hs).trans h.ends_used
  related pair hpair := h.related pair (hs.subset hpair)

/-- Sorting and truncating a sound pairing leaves it sound. -/
theorem sort_truncate (h : PairsSound R starts ends pairs) (limit : Option Nat) :
    PairsSound R starts ends (truncate limit (sortPairs pairs)) :=
  h.of_subperm ((truncate_sublist limit _).subperm.trans (sortPairs_perm pairs).subperm)

end PairsSound

/-- What a pairing algorithm owes for its starts and ends when no limit cuts it short: every start
    is paired, unmatched or one of `lostStarts` ambiguous ones, and likewise for the ends. -/
structure Conserves (starts ends : List EventRef) (outcome : Outcome)
    (lostStarts lostEnds : Nat) : Prop where
  starts_balance : outcome.pairs.length + outcome.unmatchedStart + lostStarts = starts.length
  ends_balance : outcome.pairs.length + outcome.unmatchedEnd + lostEnds = ends.length

end Xprobe.Correlator
