import Xprobe.Cli.IntervalUnion
import Xprobe.Cli.TraceHints

/-!
# Pairing the activities of a trace

`pair_activities` in `skills/xprobe-measure-latency/scripts/analyze_trace.py`, and what `analyze`
says about the whole GPU. The boundaries of the activities are visited by time, starts before ends.
An end takes the oldest start that waits under its key.

Every boundary is paired or counted, and the check for a negative duration never fails. So the
intervals run forward, which is what the busy time needs to be at most the span and at most the sum.
-/

namespace Xprobe.Cli

open Foundation Protocol Cupti

/-! ## The source -/

/-- `ACTIVITY_TYPES`: the kind of an activity, and whether the event is its end. -/
def activityTypes : EventType → Option (ActivityKind × Bool)
  | .gpuKernelStart => some (.kernel, false)
  | .gpuKernelEnd => some (.kernel, true)
  | .gpuMemcpyStart => some (.memcpy, false)
  | .gpuMemcpyEnd => some (.memcpy, true)
  | .gpuMemsetStart => some (.memset, false)
  | .gpuMemsetEnd => some (.memset, true)
  | _ => none

structure Boundary where
  kind : ActivityKind
  isEnd : Bool
  event : Event

def boundaries (events : List Event) : List Boundary :=
  events.filterMap (fun event =>
    (activityTypes event.eventType).map (fun (kind, isEnd) => ⟨kind, isEnd, event⟩))

/-- `activity_name`, for every kind. -/
def activityNameOf (kind : ActivityKind) (cuda : Option CudaEvent) : String :=
  match kind with
  | .kernel => activityName (cuda.bind CudaEvent.kernelName)
  | .memcpy => (memcpyHintKind (cuda.bind CudaEvent.memcpyKind)).getD "unknown"
  | .memset => "memset"

/-- What `activity_key` returns. -/
structure ActivityKey where
  kind : ActivityKind
  pid : UInt32
  deviceId : Option UInt32
  contextId : Option UInt32
  streamId : Option UInt64
  correlationId : Option UInt32
  name : String
  deriving DecidableEq

/-- `activity_key`. -/
def Boundary.key (boundary : Boundary) : ActivityKey :=
  { kind := boundary.kind
    pid := boundary.event.pid
    deviceId := boundary.event.cuda.bind CudaEvent.deviceId
    contextId := boundary.event.cuda.bind CudaEvent.contextId
    streamId := boundary.event.cuda.bind CudaEvent.streamId
    correlationId := boundary.event.cuda.bind CudaEvent.correlationId
    name := activityNameOf boundary.kind boundary.event.cuda }

def Boundary.timeNs (boundary : Boundary) : ℤ := boundary.event.timestampNs.toNat

structure ActivityInterval where
  kind : ActivityKind
  name : String
  pid : UInt32
  deviceId : Option UInt32
  contextId : Option UInt32
  streamId : Option UInt64
  startNs : ℤ
  endNs : ℤ
  durationNs : ℤ
  grid : Option Dim3
  block : Option Dim3
  bytes : Option UInt64

/-- The entry for a start and an end. -/
def activityInterval (start finish : Boundary) : ActivityInterval :=
  { kind := finish.kind
    name := activityNameOf finish.kind start.event.cuda
    pid := start.event.pid
    deviceId := start.event.cuda.bind CudaEvent.deviceId
    contextId := start.event.cuda.bind CudaEvent.contextId
    streamId := start.event.cuda.bind CudaEvent.streamId
    startNs := start.timeNs
    endNs := finish.timeNs
    durationNs := finish.timeNs - start.timeNs
    grid := start.event.cuda.bind CudaEvent.grid
    block := start.event.cuda.bind CudaEvent.block
    bytes := start.event.cuda.bind CudaEvent.bytes }

/-- A `ValueError` of `pair_activities`, with the ids of the two events. -/
inductive PairingError where
  | clockDomains (startId endId : String)
  | negativeDuration (startId endId : String)

/-- The variables of the loop. The queues of all keys are one list in the order of arrival; the
    queue of a key is the part with that key. -/
structure PairingState where
  waiting : List Boundary
  intervals : List ActivityInterval
  unmatchedEnds : ℕ

/-- One turn of the loop. -/
def pairStep (state : PairingState) (boundary : Boundary) : Except PairingError PairingState :=
  if !boundary.isEnd then .ok { state with waiting := state.waiting ++ [boundary] }
  else
    match state.waiting.find? (fun start => start.key = boundary.key) with
    | none => .ok { state with unmatchedEnds := state.unmatchedEnds + 1 }
    | some start =>
      if start.event.clockDomain ≠ boundary.event.clockDomain then
        .error (.clockDomains start.event.eventId boundary.event.eventId)
      else if boundary.timeNs < start.timeNs then
        .error (.negativeDuration start.event.eventId boundary.event.eventId)
      else
        .ok
          { state with
            waiting := state.waiting.eraseP (fun start => start.key = boundary.key)
            intervals := state.intervals ++ [activityInterval start boundary] }

/-- The boundaries in the order of the loop. -/
def sortedBoundaries (events : List Event) : List Boundary :=
  sortByKey (fun boundary => toLex (boundary.event.timestampNs, boundary.isEnd)) (boundaries events)

/-- `pair_activities`: the intervals, and how many starts and ends are left over. -/
def pairActivities (events : List Event) : Except PairingError (List ActivityInterval × ℕ × ℕ) := do
  let state ← (sortedBoundaries events).foldlM pairStep ⟨[], [], 0⟩
  return (state.intervals, state.waiting.length, state.unmatchedEnds)

/-! ## Every boundary is accounted for -/

/-- The boundaries so far are in the pairs behind the intervals, wait for their end or were counted.
    A pair has one key and one clock, and runs forward. -/
structure Accounts (done : List Boundary) (state : PairingState)
    (pairs : List (Boundary × Boundary)) : Prop where
  intervals : state.intervals = pairs.map (fun pair => activityInterval pair.1 pair.2)
  starts : (pairs.map Prod.fst ++ state.waiting).Perm (done.filter (fun b => !b.isEnd))
  ends : Ledger (pairs.map Prod.snd) state.unmatchedEnds (done.filter Boundary.isEnd)
  matched : ∀ pair ∈ pairs, pair.1.key = pair.2.key ∧
    pair.1.event.clockDomain = pair.2.event.clockDomain ∧ pair.1.timeNs ≤ pair.2.timeNs

/-- The loop stopped at a start and an end of one key with different clocks. -/
def ClocksDiffer (all : List Boundary) (error : PairingError) : Prop :=
  ∃ start ∈ all, ∃ finish ∈ all, start.isEnd = false ∧ finish.isEnd = true ∧
    start.key = finish.key ∧ start.event.clockDomain ≠ finish.event.clockDomain ∧
    error = .clockDomains start.event.eventId finish.event.eventId

variable {done : List Boundary} {state : PairingState} {pairs : List (Boundary × Boundary)}

/-- What is found first is the first one to be erased. -/
private theorem perm_cons_eraseP {α : Type} {p : α → Bool} {l : List α} {a : α}
    (h : l.find? p = some a) : l.Perm (a :: l.eraseP p) := by
  obtain ⟨ha, front, back, rfl, hfront⟩ := List.find?_eq_some_iff_append.mp h
  rw [List.eraseP_append_right _ (by simpa using hfront), List.eraseP_cons_of_pos ha]
  exact List.perm_middle

/-- What waits is a start that came before. -/
theorem Accounts.mem_of_waiting (h : Accounts done state pairs) {start : Boundary}
    (hstart : start ∈ state.waiting) : start ∈ done ∧ start.isEnd = false := by
  have hmem := List.mem_filter.mp (h.starts.subset (List.mem_append_right _ hstart))
  exact ⟨hmem.1, by simpa using hmem.2⟩

/-- One turn at a boundary that is not earlier than the ones before. -/
theorem Accounts.step (h : Accounts done state pairs) {boundary : Boundary}
    (hlast : ∀ earlier ∈ done, earlier.timeNs ≤ boundary.timeNs) :
    (∃ state' pairs', pairStep state boundary = .ok state' ∧
        Accounts (boundary :: done) state' pairs') ∨
      ∃ error, pairStep state boundary = .error error ∧
        ClocksDiffer (boundary :: done) error := by
  rw [pairStep]
  cases hend : boundary.isEnd with
  -- a start waits behind the others
  | false =>
    refine .inl ⟨_, pairs, rfl, h.intervals, ?_, by simpa [hend] using h.ends, h.matched⟩
    have hmoved := (h.starts.append_right [boundary]).trans List.perm_append_comm
    simpa [hend] using hmoved
  | true =>
    simp only [Bool.not_true, Bool.false_eq_true, if_false]
    cases hfind : state.waiting.find? (fun start => start.key = boundary.key) with
    -- no start of the key waits
    | none =>
      exact .inl ⟨_, pairs, rfl, h.intervals, by simpa [hend] using h.starts,
        by simpa [hend] using h.ends.lose boundary, h.matched⟩
    | some start =>
      have hkey : start.key = boundary.key := by simpa using List.find?_some hfind
      obtain ⟨hdone, hstart⟩ := h.mem_of_waiting (List.mem_of_find?_eq_some hfind)
      dsimp only
      -- the first start of the key is compared with the end: its clock, then its time
      split_ifs with hclocks hnegative
      · exact .inr ⟨_, rfl, start, List.mem_cons_of_mem _ hdone, boundary, List.mem_cons_self,
          hstart, hend, hkey, hclocks, rfl⟩
      · -- the start came first
        exact absurd (hlast start hdone) (not_le.mpr hnegative)
      · refine .inl ⟨_, pairs ++ [(start, boundary)], rfl, by simp [h.intervals], ?_, ?_, ?_⟩
        · -- the start moves from those that wait to the pairs
          have hmoved := ((perm_cons_eraseP hfind).append_left (pairs.map Prod.fst)).symm.trans
            h.starts
          simpa [hend] using hmoved
        · have hplaced :=
            (h.ends.place boundary).perm (List.perm_append_singleton _ _).symm (.refl _)
          simpa [hend] using hplaced
        · intro pair hpair
          rcases List.mem_append.mp hpair with hold | hnew
          · exact h.matched pair hold
          · cases List.mem_singleton.mp hnew
            exact ⟨hkey, not_not.mp hclocks, not_lt.mp hnegative⟩

theorem ClocksDiffer.mono {all all' : List Boundary} {error : PairingError}
    (h : ClocksDiffer all error) (hsub : all ⊆ all') : ClocksDiffer all' error := by
  obtain ⟨start, hstart, finish, hfinish, hdiffer⟩ := h
  exact ⟨start, hsub hstart, finish, hsub hfinish, hdiffer⟩

/-- The loop over boundaries in the order of time. -/
theorem Accounts.foldlM {todo : List Boundary} (h : Accounts done state pairs)
    (hsorted : (done.reverse ++ todo).Pairwise (fun a b => a.timeNs ≤ b.timeNs)) :
    (∃ state' pairs', todo.foldlM pairStep state = .ok state' ∧
        Accounts (todo.reverse ++ done) state' pairs') ∨
      ∃ error, todo.foldlM pairStep state = .error error ∧
        ClocksDiffer (todo.reverse ++ done) error := by
  induction todo generalizing done state pairs with
  | nil => exact .inl ⟨state, pairs, rfl, h⟩
  | cons boundary rest ih =>
    have hlast : ∀ earlier ∈ done, earlier.timeNs ≤ boundary.timeNs := by
      intro earlier hearlier
      exact (List.pairwise_append.mp hsorted).2.2 earlier (List.mem_reverse.mpr hearlier) boundary
        List.mem_cons_self
    rw [List.foldlM_cons, List.reverse_cons, List.append_assoc]
    rcases h.step hlast with ⟨state', pairs', hstep, hnext⟩ | ⟨error, hstep, hdiffer⟩
    · rw [hstep]
      exact ih hnext (by simpa using hsorted)
    · rw [hstep]
      exact .inr ⟨error, rfl, hdiffer.mono (List.subset_append_right _ _)⟩

theorem sortedBoundaries_sorted (events : List Event) :
    (sortedBoundaries events).Pairwise (fun a b => a.timeNs ≤ b.timeNs) := by
  refine (sortByKey_sorted _ _).imp fun {a b} hle => ?_
  have htime := Prod.Lex.monotone_fst _ _ hle
  exact Int.ofNat_le.mpr (UInt64.le_iff_toNat_le.mp htime)

/-! ## The whole GPU -/

/-- The times that `analyze` reports for the whole GPU. -/
structure GpuTimes where
  spanNs : ℤ
  busyUnionNs : ℤ
  summedActivityNs : ℤ

/-- The part of `analyze` that computes them. -/
def gpuTimes (intervals : List ActivityInterval) : GpuTimes :=
  { spanNs := (intervals.map ActivityInterval.endNs).max?.getD 0 -
      (intervals.map ActivityInterval.startNs).min?.getD 0
    busyUnionNs := intervalUnionNs (intervals.map (fun item => (item.startNs, item.endNs)))
    summedActivityNs := (intervals.map ActivityInterval.durationNs).sum }

section Intervals

variable {intervals : List ActivityInterval}

/-- The union of forward intervals is at most the distance from the first start to the last end. -/
theorem busyUnionNs_le_spanNs (h : ∀ item ∈ intervals, item.startNs ≤ item.endNs) :
    (gpuTimes intervals).busyUnionNs ≤ (gpuTimes intervals).spanNs := by
  by_cases hne : intervals = []
  · rw [hne]
    decide
  obtain ⟨item, hitem⟩ := List.exists_mem_of_ne_nil _ hne
  obtain ⟨last, hlast⟩ := Option.isSome_iff_exists.mp
    (List.isSome_max?_of_mem (List.mem_map_of_mem (f := ActivityInterval.endNs) hitem))
  obtain ⟨first, hfirst⟩ := Option.isSome_iff_exists.mp
    (List.isSome_min?_of_mem (List.mem_map_of_mem (f := ActivityInterval.startNs) hitem))
  have hends := (List.max?_eq_some_iff.mp hlast).2
  have hstarts := (List.min?_eq_some_iff.mp hfirst).2
  have hinside : coveredPoints (intervals.map (fun item => (item.startNs, item.endNs))) ⊆
      Finset.Ico first last := by
    intro point hpoint
    obtain ⟨range, hrange, hstart, hend⟩ := mem_coveredPoints.mp hpoint
    obtain ⟨other, hother, rfl⟩ := List.mem_map.mp hrange
    exact Finset.mem_Ico.mpr ⟨(hstarts _ (List.mem_map_of_mem hother)).trans hstart,
      hend.trans_le (hends _ (List.mem_map_of_mem hother))⟩
  have hle := Finset.card_le_card hinside
  have hforward : first ≤ last := (hstarts _ (List.mem_map_of_mem hitem)).trans
    ((h item hitem).trans (hends _ (List.mem_map_of_mem hitem)))
  rw [Int.card_Ico] at hle
  rw [gpuTimes, hlast, hfirst, intervalUnionNs_eq_card (List.forall_mem_map.mpr h)]
  simp only [Option.getD_some]
  omega

/-- The union of forward intervals is at most the sum of their lengths. -/
theorem busyUnionNs_le_summedActivityNs (h : ∀ item ∈ intervals,
      item.startNs ≤ item.endNs ∧ item.durationNs = item.endNs - item.startNs) :
    (gpuTimes intervals).busyUnionNs ≤ (gpuTimes intervals).summedActivityNs := by
  have hranges : ∀ range ∈ intervals.map (fun item => (item.startNs, item.endNs)),
      range.1 ≤ range.2 := List.forall_mem_map.mpr fun item hitem => (h item hitem).1
  have hsum := card_coveredPoints_le_sum hranges
  rw [List.map_map] at hsum
  rw [gpuTimes, intervalUnionNs_eq_card hranges, List.map_congr_left fun item hitem =>
    (h item hitem).2]
  exact hsum

end Intervals

/-- Unless two clocks differ, every start and every end of an activity is in one interval or counted
    as unmatched. No other error is raised; and since no interval runs backwards, the busy time is
    at most the span and at most the sum of the activities. -/
theorem pairActivities_accounts (events : List Event) : (∃ state pairs, pairActivities events =
          .ok (state.intervals, state.waiting.length, state.unmatchedEnds) ∧
        Accounts (boundaries events) state pairs ∧
        (gpuTimes state.intervals).busyUnionNs ≤ (gpuTimes state.intervals).spanNs ∧
        (gpuTimes state.intervals).busyUnionNs ≤ (gpuTimes state.intervals).summedActivityNs) ∨
      ∃ error, pairActivities events = .error error ∧
        ClocksDiffer (boundaries events) error := by
  have hperm : ((sortedBoundaries events).reverse ++ []).Perm (boundaries events) := by
    rw [List.append_nil]
    exact (List.reverse_perm _).trans (sortByKey_perm _ _)
  have hinit : Accounts [] ⟨[], [], 0⟩ [] := ⟨rfl, .nil, .nil, fun _ h => absurd h List.not_mem_nil⟩
  rw [pairActivities]
  rcases @Accounts.foldlM [] _ [] (sortedBoundaries events) hinit (sortedBoundaries_sorted events)
    with ⟨state, pairs, hrun, h⟩ | ⟨error, hrun, hdiffer⟩
  swap
  · rw [hrun]
    exact .inr ⟨error, rfl, hdiffer.mono hperm.subset⟩
  have hforward : ∀ item ∈ state.intervals,
      item.startNs ≤ item.endNs ∧ item.durationNs = item.endNs - item.startNs := by
    rw [h.intervals]
    exact List.forall_mem_map.mpr fun pair hpair => ⟨(h.matched pair hpair).2.2, rfl⟩
  rw [hrun]
  exact .inl ⟨state, pairs, rfl, ⟨h.intervals, h.starts.trans (hperm.filter _),
      h.ends.perm (.refl _) (hperm.filter _), h.matched⟩,
    busyUnionNs_le_spanNs fun item hitem => (hforward item hitem).1,
    busyUnionNs_le_summedActivityNs hforward⟩

end Xprobe.Cli
