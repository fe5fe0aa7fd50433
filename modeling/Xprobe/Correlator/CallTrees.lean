import Xprobe.Foundation.Sharded
import Xprobe.Correlator.SampleLimit

/-!
# What stack-nested pairing computes

Threads that call a function in a nested way, recursively or not, leave entries and returns in the
capture until it ends. `correlate_stack_nested` sorts the events of all threads into one timeline.
The events of one thread are in it as the thread made them, and the loop is the scan `scanCalls` on
every thread, so it recovers the calls.

On events that do not come from such threads, the pairs of a thread are still nested or disjoint.
-/

namespace Xprobe.Correlator

open Foundation Protocol

/-! ## The threads -/

/-- A thread and the calls that it makes, at increasing times. -/
structure CallThread where
  key : StackKey
  calls : Calls EventRef
  keyed : ∀ event ∈ calls.trace, stackKey event.2.event = key
  increasing : calls.trace.Pairwise (fun a b => a.2.timestampNs < b.2.timestampNs)

def capturedUntil (endNs : UInt64) (event : EventRef) : Bool := event.timestampNs ≤ endNs

namespace CallThread

variable (thread : CallThread) (endNs : UInt64)

def entries : List EventRef := thread.calls.entries (capturedUntil endNs)

/-- The returns that are captured. -/
def exits : List EventRef := thread.calls.exits (capturedUntil endNs)

def returned : List (EventRef × EventRef) := thread.calls.returned (capturedUntil endNs)

/-- The calls that are open at the end of the capture. -/
def stillOpen : List EventRef := thread.calls.stillOpen (capturedUntil endNs)

theorem cutOff : thread.calls.CutOff (capturedUntil endNs) := by
  refine thread.increasing.imp ?_
  intro a b hlt hseen
  exact decide_eq_true (hlt.le.trans (of_decide_eq_true hseen))

variable {thread endNs} {event : EventRef}

theorem key_of_mem_entries (h : event ∈ thread.entries endNs) :
    stackKey event.event = thread.key := by
  obtain ⟨traced, hmem, rfl⟩ := List.mem_map.mp h
  exact thread.keyed traced (List.mem_filter.mp (List.mem_filter.mp hmem).1).1

theorem key_of_mem_exits (h : event ∈ thread.exits endNs) : stackKey event.event = thread.key := by
  obtain ⟨traced, hmem, rfl⟩ := List.mem_map.mp h
  exact thread.keyed traced (List.mem_filter.mp (List.mem_filter.mp hmem).1).1

end CallThread

/-! ## One thread of the loop -/

/-- What the state of the loop says about a thread. -/
def StackState.ofThread (st : StackState) (key : StackKey) : CallScan EventRef where
  stack := (st.callStacks.bucket key).reverse
  pairs := spansOf (st.pairs.filter (fun pair => stackKey pair.endEvent.event = key))

/-- An event is a step of the scan for its own thread and nothing for the others. -/
theorem stackStep_ofThread {limit : Nat} {st st' : StackState} {entry : TimelineEntry}
    (h : stackStep limit st entry = some st') (hroom : st.pairs.length < limit) (key : StackKey) :
    st'.ofThread key =
        (if stackKey entry.event.event = key then
          scanCall (st.ofThread key) (entry.isEnd, entry.event)
        else st.ofThread key) ∧
      st'.pairs.length ≤ st.pairs.length + 1 := by
  obtain ⟨isEnd, event⟩ := entry
  have hother := fun hne : key ≠ stackKey event.event => (stackStep_cases h).bucket_of_ne hne
  cases stackStep_cases h with
  | push =>
    refine ⟨?_, Nat.le_succ _⟩
    split_ifs with hkey
    · subst hkey
      simp [StackState.ofThread, scanCall, BTreeMap.bucket_push]
    · rw [StackState.ofThread, hother (Ne.symm hkey)]
      rfl
  | unmatched hempty =>
    refine ⟨?_, Nat.le_succ _⟩
    split_ifs with hkey
    · subst hkey
      simp [StackState.ofThread, scanCall, hempty]
    · rfl
  | close start rest hget =>
    rw [if_pos hroom] at hother ⊢
    refine ⟨?_, by simp⟩
    split_ifs with hkey
    · subst hkey
      simp [StackState.ofThread, scanCall, BTreeMap.bucket_insert, BTreeMap.bucket_of_get? hget,
        spansOf, spanPair]
    · rw [StackState.ofThread, hother (Ne.symm hkey)]
      simp [StackState.ofThread, spanPair, hkey]

/-- The loop scans each thread on its own, as long as the limit is out of reach. -/
theorem stackLoop_ofThread {limit : Nat} {entries : List TimelineEntry} {st st' : StackState}
    (h : entries.foldlM (stackStep limit) st = some st')
    (hroom : st.pairs.length + entries.length < limit) (key : StackKey) :
    st'.ofThread key = scanCalls (st.ofThread key) (callEvents key entries) := by
  induction entries generalizing st with
  | nil =>
    cases h
    rfl
  | cons entry rest ih =>
    rw [List.length_cons] at hroom
    obtain ⟨next, hstep, hrest⟩ := Option.bind_eq_some_iff.mp h
    obtain ⟨hnext, hlength⟩ := stackStep_ofThread hstep (by omega) key
    rw [ih hrest (by omega), hnext, callEvents, callEvents, List.filter_cons]
    by_cases hkey : stackKey entry.event.event = key
    · simp [hkey, scanCalls]
    · simp [hkey]

/-! ## The timeline of all threads -/

section Threads

variable {threads : List CallThread} {endNs : UInt64} {starts ends : List EventRef}

/-- The capture of the threads: the entries and the returns until it ends, in any order. -/
structure Captures (threads : List CallThread) (endNs : UInt64) (starts ends : List EventRef) :
    Prop where
  keys : (threads.map CallThread.key).Nodup
  starts : starts.Perm (threads.flatMap (fun thread => thread.entries endNs))
  ends : ends.Perm (threads.flatMap (fun thread => thread.exits endNs))

/-- A thread has the events in the timeline that it made. -/
theorem Captures.callEvents_eq (h : Captures threads endNs starts ends) {thread : CallThread}
    (hthread : thread ∈ threads) :
    callEvents thread.key (stackTimeline starts ends) =
      thread.calls.cut (capturedUntil endNs) := by
  have hstarts : (starts.filter (fun event => stackKey event.event = thread.key)).Perm
      (thread.entries endNs) := by
    refine (h.starts.filter _).trans (List.Perm.of_eq ?_)
    refine filter_flatMap_key CallThread.key _ h.keys ?_ hthread rfl
    intro owner _ event hevent
    rw [decide_eq_true_eq, CallThread.key_of_mem_entries hevent]
  have hends : (ends.filter (fun event => stackKey event.event = thread.key)).Perm
      (thread.exits endNs) := by
    refine (h.ends.filter _).trans (List.Perm.of_eq ?_)
    refine filter_flatMap_key CallThread.key _ h.keys ?_ hthread rfl
    intro owner _ event hevent
    rw [decide_eq_true_eq, CallThread.key_of_mem_exits hevent]
  have hsorted : (thread.calls.cut (capturedUntil endNs)).Pairwise
      (fun a b => stackOrder (timelineEntry a) < stackOrder (timelineEntry b)) := by
    refine (thread.increasing.filter _).imp ?_
    intro a b hlt
    exact Prod.Lex.toLex_lt_toLex.mpr (.inl hlt)
  rw [callEvents, stackTimeline, filter_timeline_eq hstarts hends hsorted, List.map_map]
  exact List.map_id _

end Threads

/-- Stack-nested pairing of captured threads finds each call that returned, with its own return. The
    calls that were open at the end are the unmatched starts, and no return is unmatched. -/
theorem correlateStackNested_threads {threads : List CallThread} {endNs : UInt64}
    {starts ends : Slice EventRef} (h : Captures threads endNs starts.toList ends.toList) :
    ∃ outcome, correlateStackNested starts.toList ends.toList none = some outcome ∧
      outcome.pairs.Perm ((threads.flatMap (fun thread => thread.returned endNs)).map spanPair) ∧
      outcome.unmatchedStart =
        (threads.flatMap (fun thread => thread.stillOpen endNs)).length ∧
      outcome.unmatchedEnd = 0 := by
  obtain ⟨st, hrun, hinv⟩ := stackLoop_inv starts.toList ends.toList usizeMax
  have houtcome : correlateStackNested starts.toList ends.toList none = some (stackOutcome st) := by
    simp only [correlateStackNested, Option.getD_none, hrun, some_bind]
  -- each thread was scanned
  have hroom : (⟨.empty, [], 0⟩ : StackState).pairs.length +
      (stackTimeline starts.toList ends.toList).length < usizeMax := by
    have hstarts := starts.length_le
    have hends := ends.length_le
    rw [stackTimeline, length_sortByKey, timelineEntries, List.length_append, List.length_map,
      List.length_map, List.length_nil]
    simp only [isizeMax, usizeMax] at *
    omega
  have hscan : ∀ thread ∈ threads, spansOf (st.pairs.filter
      (fun pair => stackKey pair.endEvent.event = thread.key)) = thread.returned endNs := by
    intro thread hthread
    have hthreadScan := stackLoop_ofThread hrun hroom thread.key
    rw [h.callEvents_eq hthread, scanCalls_cut (thread.cutOff endNs)] at hthreadScan
    exact congrArg CallScan.pairs hthreadScan
  -- the threads have all pairs
  obtain ⟨suppressed, -, hends, -⟩ := hinv.accounts
  have hcover : ∀ pair ∈ st.pairs,
      stackKey pair.endEvent.event ∈ threads.map CallThread.key := by
    intro pair hpair
    have hmem := h.ends.subset ((timelineEnds_perm (stackTimeline_reverse_perm _ _)).subset
      (hends.mem (List.mem_map_of_mem hpair)))
    obtain ⟨thread, hthread, hexit⟩ := List.mem_flatMap.mp hmem
    rw [CallThread.key_of_mem_exits hexit]
    exact List.mem_map_of_mem hthread
  have hpairs : st.pairs.Perm
      ((threads.flatMap (fun thread => thread.returned endNs)).map spanPair) := by
    refine (perm_flatMap_filter_key (fun pair : Pair => stackKey pair.endEvent.event) h.keys
      hcover).trans (List.Perm.of_eq ?_)
    rw [List.flatMap_map, List.map_flatMap]
    apply List.flatMap_congr
    intro thread hthread
    rw [← hscan thread hthread, map_spanPair_spansOf]
    exact fun pair hpair => (hinv.paired pair (List.mem_filter.mp hpair).1).2
  have hsorted := (sortPairs_perm st.pairs).trans hpairs
  -- the counters follow from the number of pairs
  obtain ⟨outcome, houtcome', ⟨hstartsBalance, hendsBalance⟩, -⟩ :=
    correlateStackNested_conserves starts ends
  cases houtcome.symm.trans houtcome'
  have hlength := hsorted.length_eq
  rw [List.length_map, List.length_flatMap] at hlength
  rw [h.starts.length_eq, List.length_flatMap] at hstartsBalance
  rw [h.ends.length_eq, List.length_flatMap] at hendsBalance
  have hentries : ∀ thread : CallThread, (thread.entries endNs).length =
      (thread.returned endNs).length + (thread.stillOpen endNs).length :=
    fun thread => Calls.length_entries (thread.cutOff endNs)
  have hexits : ∀ thread : CallThread,
      (thread.exits endNs).length = (thread.returned endNs).length :=
    fun thread => Calls.length_exits _ _
  simp only [hentries, List.sum_map_add] at hstartsBalance
  simp only [hexits] at hendsBalance
  refine ⟨stackOutcome st, houtcome, hsorted, ?_, ?_⟩
  · rw [List.length_flatMap]
    simp only [stackOutcome] at hlength hstartsBalance ⊢
    omega
  · simp only [stackOutcome] at hlength hendsBalance ⊢
    omega

/-! ## Any events -/

def Pair.Inside (inner outer : Pair) : Prop :=
  outer.startEvent.timestampNs ≤ inner.startEvent.timestampNs ∧
    inner.endEvent.timestampNs ≤ outer.endEvent.timestampNs

def Pair.Before (first second : Pair) : Prop :=
  first.endEvent.timestampNs < second.startEvent.timestampNs

def NestedOrDisjoint (a b : Pair) : Prop :=
  stackKey a.startEvent.event = stackKey b.startEvent.event →
    (a.Inside b ∨ b.Inside a) ∨ (a.Before b ∨ b.Before a)

theorem NestedOrDisjoint.symm {a b : Pair} (h : NestedOrDisjoint a b) : NestedOrDisjoint b a :=
  fun hkey => (h hkey.symm).imp Or.symm Or.symm

/-- An open entry encloses a pair of its thread or comes after it. -/
def OpenAround (start : EventRef) (pair : Pair) : Prop :=
  start.timestampNs ≤ pair.startEvent.timestampNs ∨
    pair.endEvent.timestampNs < start.timestampNs

/-- The pairs are nested or disjoint, and will be with the pairs that the stacks can still give. -/
structure NestedInv (st : StackState) : Prop where
  pairs : st.pairs.Pairwise NestedOrDisjoint
  ordered : ∀ key, (st.callStacks.bucket key).Pairwise (fun a b => a.timestampNs ≤ b.timestampNs)
  around : ∀ key, ∀ start ∈ st.callStacks.bucket key, ∀ pair ∈ st.pairs,
    stackKey pair.startEvent.event = key → OpenAround start pair

section Nested

variable {limit : Nat} {done : List TimelineEntry} {st st' : StackState} {event : EventRef}

/-- A start is after all that happened, and strictly after the ends. -/
private theorem nestedInv_start (h : StackInv limit done st) (hnested : NestedInv st)
    (hlate : ∀ start ∈ timelineStarts done, start.timestampNs ≤ event.timestampNs)
    (hafter : ∀ e ∈ timelineEnds done, e.timestampNs < event.timestampNs) :
    NestedInv { st with callStacks := st.callStacks.push (stackKey event.event) event } := by
  obtain ⟨suppressed, hstarts, hends, -⟩ := h.accounts
  have hopen : ∀ start ∈ st.callStacks.bucket (stackKey event.event),
      start.timestampNs ≤ event.timestampNs := by
    intro start hstart
    apply hlate
    apply hstarts.mem
    exact List.mem_append_right _ (BTreeMap.mem_values_of_mem_bucket hstart)
  refine ⟨hnested.pairs, ?_, ?_⟩
  · intro key
    rw [BTreeMap.bucket_push]
    split_ifs with hkey
    · subst hkey
      refine List.pairwise_append.mpr ⟨hnested.ordered _, List.pairwise_singleton _ _, ?_⟩
      intro start hstart last hlast
      rw [List.mem_singleton.mp hlast]
      exact hopen start hstart
    · exact hnested.ordered key
  · intro key start hstart pair hpair hsame
    rw [BTreeMap.bucket_push] at hstart
    split_ifs at hstart with hkey
    · rcases List.mem_append.mp hstart with hold | hnew
      · exact hnested.around key start hold pair hpair hsame
      · rw [List.mem_singleton.mp hnew]
        -- the pairs so far ended before the new call
        exact .inr (hafter _ (hends.mem (List.mem_map_of_mem hpair)))
    · exact hnested.around key start hstart pair hpair hsame

/-- A return takes the entry on top. What is below it was entered before it, and it encloses an
    earlier pair or follows it. -/
private theorem nestedInv_end (h : StackInv limit done st) (hnested : NestedInv st)
    (hlate : ∀ e ∈ timelineEnds done, e.timestampNs ≤ event.timestampNs)
    {start : EventRef} {rest : List EventRef}
    (hget : st.callStacks.get? (stackKey event.event) = some (rest ++ [start])) :
    NestedInv { st with
      callStacks := st.callStacks.insert (stackKey event.event) rest
      pairs :=
        if st.pairs.length < limit then st.pairs ++ [spanPair (start, event)] else st.pairs } := by
  obtain ⟨suppressed, -, hends, -⟩ := h.accounts
  have hstack := BTreeMap.bucket_of_get? hget
  have hkeyStart : stackKey start.event = stackKey event.event :=
    h.callStacks _ start (by simp [hstack])
  have hsortedAll := hnested.ordered (stackKey event.event)
  rw [hstack] at hsortedAll
  obtain ⟨hsortedRest, -, hbelow⟩ := List.pairwise_append.mp hsortedAll
  -- the innermost open call leaves its stack, so what remains open was open before
  have hordered : ∀ key, ((st.callStacks.insert (stackKey event.event) rest).bucket key).Pairwise
      (fun a b => a.timestampNs ≤ b.timestampNs) := by
    intro key
    rw [BTreeMap.bucket_insert]
    split_ifs
    · exact hsortedRest
    · exact hnested.ordered key
  have haround : ∀ key, ∀ pending ∈ (st.callStacks.insert (stackKey event.event) rest).bucket key,
      ∀ pair ∈ st.pairs, stackKey pair.startEvent.event = key → OpenAround pending pair := by
    intro key pending hopen pair hpair hsame
    rw [BTreeMap.bucket_insert] at hopen
    split_ifs at hopen with hkey
    · exact hnested.around _ pending (by simp [hstack, hopen]) pair hpair (hsame.trans hkey)
    · exact hnested.around key pending hopen pair hpair hsame
  split_ifs
  · refine ⟨?_, hordered, ?_⟩
    · refine List.pairwise_append.mpr ⟨hnested.pairs, List.pairwise_singleton _ _, ?_⟩
      intro pair hpair last hlast
      rw [List.mem_singleton.mp hlast]
      intro hsame
      -- an earlier pair of the thread lies inside the closed call or before it
      rcases hnested.around _ start (by simp [hstack]) pair hpair
        (hsame.trans hkeyStart) with hinside | hbefore
      · exact .inl (.inl ⟨hinside, hlate _ (hends.mem (List.mem_map_of_mem hpair))⟩)
      · exact .inr (.inl hbefore)
    -- a call that stays open on the thread was entered before the one that closes
    · intro key pending hopen pair hpair hsame
      rcases List.mem_append.mp hpair with hold | hnew
      · exact haround key pending hopen pair hold hsame
      · rw [List.mem_singleton.mp hnew] at hsame ⊢
        rw [BTreeMap.bucket_insert, if_pos (hsame.symm.trans hkeyStart)] at hopen
        exact .inl (hbelow pending hopen start List.mem_cons_self)
  · exact ⟨hnested.pairs, hordered, haround⟩

/-- One pass through the body keeps the pairs nested or disjoint. -/
private theorem nestedInv_step (h : StackInv limit done st) (hnested : NestedInv st)
    {entry : TimelineEntry} (hbefore : ∀ earlier ∈ done, stackOrder earlier ≤ stackOrder entry)
    (hstep : stackStep limit st entry = some st') : NestedInv st' := by
  obtain ⟨isEnd, event⟩ := entry
  have hlate : ∀ earlier ∈ done, earlier.event.timestampNs ≤ event.timestampNs :=
    fun earlier hmem => (Prod.Lex.le_iff.mp (hbefore earlier hmem)).elim le_of_lt (·.1.le)
  cases stackStep_cases hstep with
  | push =>
    refine nestedInv_start h hnested ?_ ?_
    · intro start hstart
      obtain ⟨earlier, hmem, rfl⟩ := mem_of_mem_timelineStarts hstart
      exact hlate earlier hmem
    · -- at the same time the start would have come first
      intro e he
      obtain ⟨⟨earlierEnd, e'⟩, hmem, rfl⟩ := List.mem_map.mp he
      obtain ⟨hmem, hend⟩ := List.mem_filter.mp hmem
      cases hend
      rcases Prod.Lex.le_iff.mp (hbefore _ hmem) with hlt | ⟨-, htie⟩
      · exact hlt
      · exact absurd htie (show ¬ true ≤ false by decide)
  | unmatched hempty => exact ⟨hnested.pairs, hnested.ordered, hnested.around⟩
  | close start rest hget =>
    refine nestedInv_end h hnested ?_ hget
    intro e he
    obtain ⟨earlier, hmem, rfl⟩ := List.mem_map.mp he
    exact hlate earlier (List.mem_filter.mp hmem).1

end Nested

theorem correlateStackNested_nested (starts ends : List EventRef) (limit : Option Nat) :
    ∃ outcome, correlateStackNested starts ends limit = some outcome ∧
      outcome.pairs.Pairwise NestedOrDisjoint := by
  obtain ⟨st, hrun, -, hnested⟩ := @foldlM_invariant _ _ (stackTimeline starts ends)
    (stackStep (limit.getD usizeMax))
    (fun done st => StackInv (limit.getD usizeMax) done st ∧ NestedInv st) ⟨.empty, [], 0⟩
    ⟨stackInv_init _, .nil, fun _ => .nil, fun _ _ h => absurd h List.not_mem_nil⟩ (by
      rintro done ⟨isEnd, event⟩ todo st hl ⟨h, hnested⟩
      have hbefore : ∀ earlier ∈ done, stackOrder earlier ≤ stackOrder ⟨isEnd, event⟩ := by
        intro earlier hearlier
        have hsorted := sortByKey_sorted stackOrder (timelineEntries starts ends)
        rw [SortedBy, ← stackTimeline, hl] at hsorted
        exact (List.pairwise_append.mp hsorted).2.2 earlier (List.mem_reverse.mpr hearlier) _
          List.mem_cons_self
      obtain ⟨st', hstep, h'⟩ : ∃ st',
          stackStep (limit.getD usizeMax) st ⟨isEnd, event⟩ = some st' ∧
          StackInv (limit.getD usizeMax) (⟨isEnd, event⟩ :: done) st' := by
        cases isEnd with
        | false => exact stackStep_start h event
        | true =>
          exact stackStep_end h
            (fun start hstart => timelineStarts_le (stackTimeline_sorted starts ends) hl hstart)
      exact ⟨st', hstep, h', nestedInv_step h hnested hbefore hstep⟩)
  refine ⟨stackOutcome st, ?_, ?_⟩
  · simp only [correlateStackNested, hrun, some_bind]
  · exact (sortPairs_perm st.pairs).symm.pairwise hnested.pairs NestedOrDisjoint.symm

/-- Stack-nested pairing recovers the calls of any threads until the end of the capture, and on any
    events its pairs of one thread are nested or disjoint. -/
theorem correlateStackNested_calls :
    (∀ (threads : List CallThread) (endNs : UInt64) (starts ends : Slice EventRef),
      Captures threads endNs starts.toList ends.toList →
      ∃ outcome, correlateStackNested starts.toList ends.toList none = some outcome ∧
        outcome.pairs.Perm
          ((threads.flatMap (fun thread => thread.returned endNs)).map spanPair) ∧
        outcome.unmatchedStart =
          (threads.flatMap (fun thread => thread.stillOpen endNs)).length ∧
        outcome.unmatchedEnd = 0) ∧
      ∀ (starts ends : List EventRef) (limit : Option Nat),
        ∃ outcome, correlateStackNested starts ends limit = some outcome ∧
          outcome.pairs.Pairwise NestedOrDisjoint :=
  ⟨fun _ _ _ _ h => correlateStackNested_threads h, correlateStackNested_nested⟩

/-! ### Two threads -/

/-- An entry into `f` on a thread. -/
def entryOn (tid : UInt32) (index : Nat) (timestampNs : UInt64) : EventRef :=
  ⟨index, { callEvent .hostFunctionEntry .uprobe timestampNs with tid }⟩

/-- A return from `f` on a thread. -/
def exitOn (tid : UInt32) (index : Nat) (timestampNs : UInt64) : EventRef :=
  ⟨index, { callEvent .hostFunctionExit .uretprobe timestampNs with tid }⟩

section

variable (tid : UInt32) (index : Nat) (timestampNs : UInt64)

@[simp] theorem stackKey_entryOn :
    stackKey (entryOn tid index timestampNs).event = toLex (7, tid) := rfl

@[simp] theorem stackKey_exitOn :
    stackKey (exitOn tid index timestampNs).event = toLex (7, tid) := rfl

@[simp] theorem timestampNs_entryOn : (entryOn tid index timestampNs).timestampNs = timestampNs :=
  rfl

@[simp] theorem timestampNs_exitOn : (exitOn tid index timestampNs).timestampNs = timestampNs :=
  rfl

end

def recursiveThread : CallThread where
  key := toLex (7, 7)
  calls := .call (entryOn 7 0 10) (exitOn 7 5 40)
    (.call (entryOn 7 1 20) (exitOn 7 3 30) .done .done) .done
  keyed := by simp [Calls.trace]
  increasing := by simp [Calls.trace]

def plainThread : CallThread where
  key := toLex (7, 8)
  calls := .call (entryOn 8 2 20) (exitOn 8 4 30) .done .done
  keyed := by simp [Calls.trace]
  increasing := by simp [Calls.trace]

/-- If the capture ends at 35, the inner call and the one of the other thread are found, and the
    outer call is an unmatched start. -/
theorem correlateStackNested_calls_cut :
    ∃ outcome, correlateStackNested [entryOn 7 0 10, entryOn 8 2 20, entryOn 7 1 20]
        [exitOn 7 3 30, exitOn 8 4 30] none = some outcome ∧
      outcome.pairs.Perm
        [spanPair (entryOn 7 1 20, exitOn 7 3 30), spanPair (entryOn 8 2 20, exitOn 8 4 30)] ∧
      outcome.unmatchedStart = 1 ∧ outcome.unmatchedEnd = 0 := by
  have hcaptures : Captures [recursiveThread, plainThread] 35
      [entryOn 7 0 10, entryOn 8 2 20, entryOn 7 1 20] [exitOn 7 3 30, exitOn 8 4 30] := by
    refine ⟨by simp [recursiveThread, plainThread], ?_, ?_⟩
    · simpa [recursiveThread, plainThread, CallThread.entries, Calls.entries_call, capturedUntil,
        Calls.entries, Calls.cut, Calls.trace] using (List.Perm.swap _ _ _)
    · simp [recursiveThread, plainThread, CallThread.exits, capturedUntil,
        Calls.exits, Calls.cut, Calls.trace]
  obtain ⟨outcome, hrun, hpairs, hstart, hend⟩ := correlateStackNested_calls.1 _ 35
    ⟨_, by simp [isizeMax]⟩ ⟨_, by simp [isizeMax]⟩ hcaptures
  refine ⟨outcome, hrun, ?_, ?_, hend⟩
  · simpa [recursiveThread, plainThread, CallThread.returned, Calls.returned, capturedUntil]
      using hpairs
  · simpa [recursiveThread, plainThread, CallThread.stillOpen, Calls.stillOpen, capturedUntil]
      using hstart

end Xprobe.Correlator
