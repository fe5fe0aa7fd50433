import Xprobe.Correlator.Lifecycle

/-!
# Stack-nested pairing

`correlate_stack_nested`: one timeline of entries and returns, and a stack of pending entries for
each thread. A return takes the innermost pending entry of its thread, also when the limit is
reached and the pair is no longer recorded.
-/

namespace Xprobe.Correlator

open Foundation Protocol

/-! ## The algorithm -/

def stackOrder (entry : TimelineEntry) : UInt64 ×ₗ Bool :=
  toLex (entry.event.timestampNs, entry.isEnd)

def stackTimeline (starts ends : List EventRef) : List TimelineEntry :=
  sortByKey stackOrder (timelineEntries starts ends)

/-- The variables of the loop over the timeline. -/
structure StackState where
  callStacks : BTreeMap StackKey (List EventRef)
  pairs : List Pair
  unmatchedEnd : Nat

/-- The innermost pending entry of a thread: `stacks.get_mut(&key).and_then(Vec::pop)`, the entry
    and the stacks without it. -/
def popStack (callStacks : BTreeMap StackKey (List EventRef)) (key : StackKey) :
    Option (EventRef × BTreeMap StackKey (List EventRef)) := do
  let stack ← callStacks.get? key
  let top ← stack.getLast?
  some (top, callStacks.insert key stack.dropLast)

/-- The body of the loop over the timeline. The outer option is the panic of the subtraction. -/
def stackStep (limit : Nat) (st : StackState) (entry : TimelineEntry) : Option StackState :=
  let key := stackKey entry.event.event
  if entry.isEnd then
    match popStack st.callStacks key with
    | some (start, callStacks) =>
      if st.pairs.length < limit then do
        let latencyNs ← checkedSub entry.event.timestampNs start.timestampNs
        some { st with callStacks, pairs := st.pairs ++ [⟨start, entry.event, latencyNs⟩] }
      else some { st with callStacks }
    | none => some { st with unmatchedEnd := st.unmatchedEnd + 1 }
  else some { st with callStacks := st.callStacks.push key entry.event }

/-- The outcome after the loop. -/
def stackOutcome (st : StackState) : Outcome :=
  { pairs := sortPairs st.pairs
    unmatchedStart := (st.callStacks.values.map List.length).sum
    unmatchedEnd := st.unmatchedEnd
    ambiguous := 0 }

/-- `correlate_stack_nested`. -/
def correlateStackNested (starts ends : List EventRef) (limit : Option Nat) : Option Outcome := do
  let st ← (stackTimeline starts ends).foldlM (stackStep (limit.getD usizeMax)) ⟨.empty, [], 0⟩
  some (stackOutcome st)

/-! ## Stacks -/

variable {callStacks callStacks' : BTreeMap StackKey (List EventRef)}

variable {key : StackKey} {top : EventRef}

theorem popStack_eq_some (h : popStack callStacks key = some (top, callStacks')) :
    ∃ rest, callStacks.get? key = some (rest ++ [top]) ∧ callStacks' = callStacks.insert key rest := by
  unfold popStack at h
  cases hget : callStacks.get? key with
  | none => simp [hget] at h
  | some stack =>
    cases hlast : stack.getLast? with
    | none => simp [hget, hlast] at h
    | some e =>
      simp only [hget, hlast, some_bind, Option.some.injEq,
        Prod.mk.injEq] at h
      obtain ⟨rfl, rfl⟩ := h
      exact ⟨stack.dropLast, by rw [List.dropLast_append_getLast? e hlast], rfl⟩

/-- Popping takes exactly the top entry out of the stacks. -/
private theorem values_popStack_perm (h : popStack callStacks key = some (top, callStacks')) :
    callStacks.values.flatten.Perm (top :: callStacks'.values.flatten) := by
  obtain ⟨rest, hget, rfl⟩ := popStack_eq_some h
  have hold := (BTreeMap.values_perm_of_get? hget).flatten
  rw [List.flatten_cons, List.append_assoc] at hold
  have hnew := (callStacks.values_insert_perm key rest).flatten
  exact hold.trans (List.perm_middle.trans (hnew.symm.cons top))

theorem popStack_eq_none (h : popStack callStacks key = none) : callStacks.bucket key = [] := by
  unfold popStack at h
  cases hget : callStacks.get? key with
  | none => rw [BTreeMap.bucket, hget, Option.getD_none]
  | some stack =>
    cases hlast : stack.getLast? with
    | none => rw [BTreeMap.bucket_of_get? hget, List.getLast?_eq_none_iff.mp hlast]
    | some top => simp [hget, hlast] at h

/-- Every pending entry lies on the stack of its thread. -/
def StacksWellFormed (callStacks : BTreeMap StackKey (List EventRef)) : Prop :=
  ∀ key, ∀ event ∈ callStacks.bucket key, stackKey event.event = key

private theorem stacksWellFormed_push (h : StacksWellFormed callStacks) (event : EventRef) :
    StacksWellFormed (callStacks.push (stackKey event.event) event) := by
  intro key event' hevent'
  rw [BTreeMap.bucket_push] at hevent'
  split_ifs at hevent' with hkey
  · rcases List.mem_append.mp hevent' with hold | hnew
    · exact h key event' hold
    · rw [List.mem_singleton.mp hnew, hkey]
  · exact h key event' hevent'

theorem stacksWellFormed_pop (h : StacksWellFormed callStacks)
    (hpop : popStack callStacks key = some (top, callStacks')) :
    stackKey top.event = key ∧ StacksWellFormed callStacks' := by
  obtain ⟨rest, hget, rfl⟩ := popStack_eq_some hpop
  have hstack := h key
  rw [BTreeMap.bucket_of_get? hget] at hstack
  refine ⟨hstack top (List.mem_append_right _ List.mem_cons_self), ?_⟩
  intro key' event hevent
  rw [BTreeMap.bucket_insert] at hevent
  split_ifs at hevent with hkey
  · rw [hkey]
    exact hstack event (List.mem_append_left _ hevent)
  · exact h key' event hevent

/-! ## One pass through the body -/

/-- What one pass can do: a start is pushed, an end takes the top of its stack, if there is one. The
    pair of the two is recorded while there is room. -/
inductive StackStep (limit : Nat) (st : StackState) (event : EventRef) : Bool → StackState → Prop
  | push : StackStep limit st event false
      { st with callStacks := st.callStacks.push (stackKey event.event) event }
  | unmatched (hempty : st.callStacks.bucket (stackKey event.event) = []) :
    StackStep limit st event true { st with unmatchedEnd := st.unmatchedEnd + 1 }
  | close (start : EventRef) (rest : List EventRef)
      (hget : st.callStacks.get? (stackKey event.event) = some (rest ++ [start])) :
    StackStep limit st event true
      { st with
        callStacks := st.callStacks.insert (stackKey event.event) rest
        pairs :=
          if st.pairs.length < limit then st.pairs ++ [spanPair (start, event)] else st.pairs }

theorem stackStep_cases {limit : Nat} {st st' : StackState} {isEnd : Bool} {event : EventRef}
    (h : stackStep limit st ⟨isEnd, event⟩ = some st') : StackStep limit st event isEnd st' := by
  cases isEnd with
  | false =>
    cases h
    exact .push
  | true =>
    simp only [stackStep, if_true] at h
    cases hpop : popStack st.callStacks (stackKey event.event) with
    | none =>
      rw [hpop] at h
      cases h
      exact .unmatched (popStack_eq_none hpop)
    | some popped =>
      obtain ⟨start, callStacks⟩ := popped
      obtain ⟨rest, hget, rfl⟩ := popStack_eq_some hpop
      have hclose : StackStep limit st event true _ := .close start rest hget
      simp only [hpop] at h
      split_ifs at h hclose
      · obtain ⟨latencyNs, hlatency, hst⟩ := Option.bind_eq_some_iff.mp h
        cases hst
        cases (checkedSub_eq_some.mp hlatency).2
        exact hclose
      · cases h
        exact hclose

/-- The stacks of the other threads stay as they are. -/
theorem StackStep.bucket_of_ne {limit : Nat} {st st' : StackState} {isEnd : Bool} {event : EventRef}
    {key : StackKey} (h : StackStep limit st event isEnd st') (hne : key ≠ stackKey event.event) :
    st'.callStacks.bucket key = st.callStacks.bucket key := by
  cases h with
  | push => rw [BTreeMap.bucket_push, if_neg hne]
  | unmatched hempty => rfl
  | close start rest hget => rw [BTreeMap.bucket_insert, if_neg hne]

/-- Two events of one thread, in order. -/
def StackPair (pair : Pair) : Prop :=
  pair.SameKey (fun event => some (stackKey event)) ∧ pair.Forward

/-- The state after the entries in `done`. The pairs that the limit suppressed are the only events
    not accounted for. -/
structure StackInv (limit : Nat) (done : List TimelineEntry) (st : StackState) : Prop where
  accounts : ∃ suppressed,
    Ledger (st.pairs.map Pair.startEvent ++ st.callStacks.values.flatten) suppressed
      (timelineStarts done) ∧
    Ledger (st.pairs.map Pair.endEvent) (st.unmatchedEnd + suppressed) (timelineEnds done) ∧
    (st.pairs.length < limit → suppressed = 0)
  callStacks : StacksWellFormed st.callStacks
  paired : ∀ pair ∈ st.pairs, StackPair pair
  within : st.pairs.length ≤ limit

theorem stackInv_init (limit : Nat) : StackInv limit [] ⟨.empty, [], 0⟩ where
  accounts := ⟨0, Ledger.nil, Ledger.nil, fun _ => rfl⟩
  callStacks := by
    intro key event hevent
    cases hevent
  paired := by
    intro pair h
    cases h
  within := Nat.zero_le _

theorem stackStep_start {limit : Nat} {done : List TimelineEntry} {st : StackState}
    (h : StackInv limit done st) (event : EventRef) :
    ∃ st', stackStep limit st ⟨false, event⟩ = some st' ∧
      StackInv limit (⟨false, event⟩ :: done) st' := by
  obtain ⟨suppressed, hstarts, hends, hlimit⟩ := h.accounts
  have hpush := st.callStacks.flatten_values_push_perm (stackKey event.event) event
  refine ⟨_, rfl, ⟨suppressed, ?_, hends, hlimit⟩, stacksWellFormed_push h.callStacks event, h.paired,
    h.within⟩
  exact (hstarts.place event).perm
    (List.perm_middle.symm.trans (hpush.symm.append_left _)) (List.Perm.refl _)

theorem stackStep_end {limit : Nat} {done : List TimelineEntry} {st : StackState}
    (h : StackInv limit done st) {event : EventRef}
    (hlate : ∀ start ∈ timelineStarts done, start.timestampNs ≤ event.timestampNs) :
    ∃ st', stackStep limit st ⟨true, event⟩ = some st' ∧
      StackInv limit (⟨true, event⟩ :: done) st' := by
  obtain ⟨suppressed, hstarts, hends, hlimit⟩ := h.accounts
  simp only [stackStep, if_true]
  cases hpop : popStack st.callStacks (stackKey event.event) with
  | none =>
    refine ⟨_, rfl, ⟨suppressed, hstarts, ?_, hlimit⟩, h.callStacks, h.paired, h.within⟩
    have hlose := hends.lose event
    rwa [Nat.add_right_comm] at hlose
  | some popped =>
    obtain ⟨start, callStacks⟩ := popped
    obtain ⟨hkey, hstacks⟩ := stacksWellFormed_pop h.callStacks hpop
    have htake := hstarts.perm ((values_popStack_perm hpop).append_left _) (List.Perm.refl _)
    have hle : start.timestampNs ≤ event.timestampNs := hlate start (htake.mem (by simp))
    by_cases hroom : st.pairs.length < limit
    · simp only [if_pos hroom, checkedSub_of_le hle, some_bind]
      refine ⟨_, rfl, ⟨suppressed, ?_, ?_, fun _ => hlimit hroom⟩, hstacks, ?_, ?_⟩
      · simpa using htake
      · have hplace := (hends.place event).perm (List.perm_append_singleton event _).symm
          (List.Perm.refl _)
        simpa using hplace
      · intro pair hpair
        rcases List.mem_append.mp hpair with hold | hnew
        · exact h.paired pair hold
        · rw [List.mem_singleton.mp hnew]
          exact ⟨⟨stackKey event.event, congrArg some hkey, rfl⟩, hle, rfl⟩
      · simp only [List.length_append, List.length_singleton]
        omega
    · -- the pair is suppressed: its start was popped and its end consumed
      simp only [if_neg hroom]
      refine ⟨_, rfl, ⟨suppressed + 1, ?_, ?_, fun hlt => absurd hlt hroom⟩, hstacks, h.paired,
        h.within⟩
      · exact htake.drop [start]
      · exact hends.lose event

/-! ## The whole loop -/

theorem stackTimeline_sorted (starts ends : List EventRef) : (stackTimeline starts ends).Pairwise
      (fun a b => a.event.timestampNs ≤ b.event.timestampNs) := by
  refine List.Pairwise.imp ?_ (sortByKey_sorted stackOrder (timelineEntries starts ends))
  intro a b hab
  exact (Prod.Lex.le_iff.mp hab).elim le_of_lt (fun h => le_of_eq h.1)

theorem stackLoop_inv (starts ends : List EventRef) (limit : Nat) :
    ∃ st, (stackTimeline starts ends).foldlM (stackStep limit) ⟨.empty, [], 0⟩ = some st ∧
      StackInv limit (stackTimeline starts ends).reverse st := by
  refine foldlM_invariant (stackInv_init limit) ?_
  rintro done ⟨isEnd, event⟩ todo st hl h
  cases isEnd with
  | false => exact stackStep_start h event
  | true =>
    refine stackStep_end h ?_
    intro start hstart
    exact timelineStarts_le (stackTimeline_sorted starts ends) hl hstart

theorem stackTimeline_reverse_perm (starts ends : List EventRef) :
    (stackTimeline starts ends).reverse.Perm (timelineEntries starts ends) :=
  (List.reverse_perm _).trans (sortByKey_perm _ _)

/-- Stack-nested pairing never panics; it is a matching inside each thread, forward in time and
    within the limit. -/
theorem correlateStackNested_sound (starts ends : List EventRef) (limit : Option Nat) :
    ∃ outcome, correlateStackNested starts ends limit = some outcome ∧
      PairsSound StackPair starts ends outcome.pairs ∧
      outcome.pairs.length ≤ limit.getD usizeMax := by
  obtain ⟨st, hrun, h⟩ := stackLoop_inv starts ends (limit.getD usizeMax)
  obtain ⟨suppressed, hstarts, hends, -⟩ := h.accounts
  have hperm := stackTimeline_reverse_perm starts ends
  have hsound : PairsSound StackPair starts ends st.pairs :=
    ⟨(hstarts.subperm_left).trans
        (timelineStarts_perm hperm).subperm,
      hends.subperm.trans (timelineEnds_perm hperm).subperm, h.paired⟩
  refine ⟨stackOutcome st, ?_, hsound.sort_truncate none, ?_⟩
  · simp only [correlateStackNested, hrun, some_bind]
  · exact (sortPairs_perm st.pairs).length_eq.trans_le h.within

theorem StackInv.balance {starts ends : List EventRef} {limit : Nat} {st : StackState}
    (h : StackInv limit (stackTimeline starts ends).reverse st) :
    ∃ suppressed, (st.pairs.length < limit → suppressed = 0) ∧
      st.pairs.length + (st.callStacks.values.map List.length).sum + suppressed = starts.length ∧
      st.pairs.length + (st.unmatchedEnd + suppressed) = ends.length := by
  obtain ⟨suppressed, hstarts, hends, hlimit⟩ := h.accounts
  have hperm := stackTimeline_reverse_perm starts ends
  have hstartsBalance := hstarts.balance
  have hendsBalance := hends.balance
  rw [(timelineStarts_perm hperm).length_eq] at hstartsBalance
  rw [(timelineEnds_perm hperm).length_eq] at hendsBalance
  simp only [List.length_append, List.length_map, List.length_flatten]
    at hstartsBalance hendsBalance
  exact ⟨suppressed, hlimit, hstartsBalance, hendsBalance⟩

/-- Without a limit every start and every end is paired or unmatched. -/
theorem correlateStackNested_conserves (starts ends : Slice EventRef) :
    ∃ outcome, correlateStackNested starts.toList ends.toList none = some outcome ∧
      Conserves starts.toList ends.toList outcome 0 0 ∧ outcome.ambiguous = 0 := by
  obtain ⟨st, hrun, h⟩ := stackLoop_inv starts.toList ends.toList usizeMax
  obtain ⟨suppressed, hlimit, hstarts, hends⟩ := h.balance
  -- no pair was suppressed: there are fewer pairs than starts
  have hbound : st.pairs.length < usizeMax := by
    have := starts.length_lt_usizeMax
    omega
  have hnone := hlimit hbound
  have hsort := (sortPairs_perm st.pairs).length_eq
  refine ⟨stackOutcome st, ?_, ⟨?_, ?_⟩, rfl⟩
  · simp only [correlateStackNested, Option.getD_none, hrun, some_bind]
  · simp only [stackOutcome, hsort]
    omega
  · simp only [stackOutcome, hsort]
    omega

end Xprobe.Correlator
