import Xprobe.Foundation.CallTree
import Xprobe.Correlator.FirstAfter
import Xprobe.Correlator.NearestEnd

/-!
# The sample limit

What a limit on the number of samples does to the pairs of an outcome. The keyed policies cut their
sorted pairs; first-after and nearest visit the starts in order and stop. In both cases the limited
pairs are the first ones of all pairs.

Stack-nested pairing counts its pairs as they are closed, and sorts them afterwards. An inner call
closes before the call around it, so its first pairs by closing need not be the first by start. The
limit only cuts the list exactly when no call that returns within the limit was entered later than
one that returns after it (`ClosedInOrder`, on the calls of the input).
-/

namespace Xprobe.Correlator

open Foundation Protocol

/-! ## The order of the pairs -/

variable {limit : Nat} {todo : List EventRef}

def InStartOrder (pairs : List Pair) : Prop :=
  SortedBy (fun pair => pair.startEvent.timestampNs) pairs

theorem inStartOrder_sortPairs (pairs : List Pair) : InStartOrder (sortPairs pairs) :=
  sortByKey_sorted _ pairs

theorem inStartOrder_of_sublist {pairs : List Pair} {starts : List EventRef}
    (h : (pairs.map Pair.startEvent).Sublist starts)
    (hstarts : SortedBy EventRef.timestampNs starts) : InStartOrder pairs := by
  have hsorted := hstarts.sublist h
  rw [SortedBy, List.pairwise_map] at hsorted
  exact hsorted

/-! ## The calls of the input -/

def callEvents (key : StackKey) (entries : List TimelineEntry) : List (Bool × EventRef) :=
  (entries.filter (fun entry => stackKey entry.event.event = key)).map
    (fun entry => (entry.isEnd, entry.event))

/-- The call that an entry of a timeline closes, with the entries before it, last first. A return
    closes the last call of its thread that is still open. -/
def closedCall (before : List TimelineEntry) (entry : TimelineEntry) :
    Option (EventRef × EventRef) :=
  if entry.isEnd then
    (lastOpen (callEvents (stackKey entry.event.event) before) 0).map (·, entry.event)
  else none

def closedCalls : List TimelineEntry → List TimelineEntry → List (EventRef × EventRef)
  | _, [] => []
  | before, entry :: rest => (closedCall before entry).toList ++ closedCalls (entry :: before) rest

def inputCalls (starts ends : List EventRef) : List (EventRef × EventRef) :=
  closedCalls [] (stackTimeline starts ends)

theorem length_closedCalls_le (before entries : List TimelineEntry) :
    (closedCalls before entries).length ≤ entries.length := by
  induction entries generalizing before with
  | nil => exact le_rfl
  | cons entry rest ih =>
    have hone := (closedCall before entry).length_toList_le
    have hrest := ih (entry :: before)
    rw [closedCalls, List.length_append, List.length_cons]
    omega

/-! ## Stack-nested pairing -/

def HoldsOpenCalls (before : List TimelineEntry) (st : StackState) : Prop :=
  ∀ key depth, (st.callStacks.bucket key).reverse[depth]? = lastOpen (callEvents key before) depth

variable {st st' : StackState} {before : List TimelineEntry} {entry : TimelineEntry}

theorem HoldsOpenCalls.step (h : HoldsOpenCalls before st)
    (hstep : stackStep limit st entry = some st') : HoldsOpenCalls (entry :: before) st' := by
  obtain ⟨isEnd, event⟩ := entry
  intro key depth
  by_cases hkey : key = stackKey event.event
  · subst hkey
    have hown : callEvents (stackKey event.event) (⟨isEnd, event⟩ :: before) =
        (isEnd, event) :: callEvents (stackKey event.event) before := by simp [callEvents]
    have hold := h (stackKey event.event)
    rw [hown]
    cases stackStep_cases hstep with
    | push =>
      rw [BTreeMap.bucket_push, if_pos rfl]
      cases depth with
      | zero => simp [lastOpen]
      | succ depth => simpa [lastOpen] using hold depth
    | unmatched hempty =>
      rw [lastOpen, ← hold, hempty]
      rfl
    | close start rest hget =>
      rw [lastOpen, ← hold, BTreeMap.bucket_of_get? hget, BTreeMap.bucket_insert, if_pos rfl]
      simp
  · rw [(stackStep_cases hstep).bucket_of_ne hkey, h key depth]
    simp [callEvents, Ne.symm hkey]

/-- The start and the end of each pair. -/
def spansOf (pairs : List Pair) : List (EventRef × EventRef) :=
  pairs.map (fun pair => (pair.startEvent, pair.endEvent))

theorem map_spanPair_spansOf {pairs : List Pair} (h : ∀ pair ∈ pairs, pair.Forward) :
    (spansOf pairs).map spanPair = pairs := by
  rw [spansOf, List.map_map]
  conv_rhs => rw [← List.map_id pairs]
  exact List.map_congr_left fun pair hpair => (h pair hpair).spanPair_eq

/-- An entry records the call that it closes, if there is room for it. -/
theorem spansOf_stackStep (h : HoldsOpenCalls before st)
    (hstep : stackStep limit st entry = some st') :
    spansOf st'.pairs =
      if st.pairs.length < limit then spansOf st.pairs ++ (closedCall before entry).toList
      else spansOf st.pairs := by
  obtain ⟨isEnd, event⟩ := entry
  have htop := h (stackKey event.event) 0
  cases stackStep_cases hstep with
  | push => simp [closedCall]
  | unmatched hempty =>
    rw [hempty] at htop
    simp [closedCall, ← htop]
  | close start rest hget =>
    rw [BTreeMap.bucket_of_get? hget] at htop
    split_ifs
    · simp [closedCall, ← htop, spansOf, spanPair]
    · rfl

/-- One more call is kept if and only if there is room for it. -/
private theorem take_concat {calls spans : List (EventRef × EventRef)}
    (h : spans = calls.take limit) (call : Option (EventRef × EventRef)) :
    (calls ++ call.toList).take limit =
      if spans.length < limit then spans ++ call.toList else spans := by
  subst h
  cases call with
  | none => simp
  | some call =>
    rw [List.length_take]
    split_ifs with hroom
    · have hlt : calls.length < limit := by omega
      rw [List.take_of_length_le hlt.le, List.take_of_length_le]
      rw [List.length_append]
      exact hlt
    · exact List.take_append_of_le_length (by omega)

/-- The loop records the calls of its timeline, as many as the limit allows. -/
theorem stackLoop_calls {entries : List TimelineEntry} (h : HoldsOpenCalls before st)
    (hrun : entries.foldlM (stackStep limit) st = some st')
    {calls : List (EventRef × EventRef)} (hcalls : spansOf st.pairs = calls.take limit) :
    spansOf st'.pairs = (calls ++ closedCalls before entries).take limit := by
  induction entries generalizing st before calls with
  | nil =>
    cases hrun
    rw [closedCalls, List.append_nil, hcalls]
  | cons entry rest ih =>
    obtain ⟨next, hstep, hrest⟩ := Option.bind_eq_some_iff.mp hrun
    have hnext := spansOf_stackStep h hstep
    rw [← show (spansOf st.pairs).length = st.pairs.length from List.length_map _,
      ← take_concat hcalls] at hnext
    rw [closedCalls, ← List.append_assoc]
    exact ih (h.step hstep) hrest hnext

/-- Stack-nested pairing makes the calls of the input, as many as the limit allows. -/
theorem correlateStackNested_pairs (starts ends : List EventRef) (limit : Option Nat) :
    ∃ outcome, correlateStackNested starts ends limit = some outcome ∧
      outcome.pairs =
        sortPairs (((inputCalls starts ends).take (limit.getD usizeMax)).map spanPair) := by
  obtain ⟨st, hrun, hinv⟩ := stackLoop_inv starts ends (limit.getD usizeMax)
  have hopen : HoldsOpenCalls [] ⟨.empty, [], 0⟩ := fun key depth => rfl
  have hspans := stackLoop_calls hopen hrun List.take_nil.symm
  rw [List.nil_append] at hspans
  refine ⟨stackOutcome st, ?_, ?_⟩
  · simp only [correlateStackNested, hrun, some_bind]
  · show sortPairs st.pairs = _
    rw [inputCalls, ← hspans, map_spanPair_spansOf]
    exact fun pair hpair => (hinv.paired pair hpair).2

/-! ## The limit of every policy -/

/-- No call that returns within the limit was entered later than one that returns after it. -/
def ClosedInOrder (limit : Nat) (starts ends : List EventRef) : Prop :=
  ∀ call ∈ (inputCalls starts ends).take limit, ∀ later ∈ (inputCalls starts ends).drop limit,
    call.1.timestampNs ≤ later.1.timestampNs

instance (limit : Nat) (starts ends : List EventRef) : Decidable (ClosedInOrder limit starts ends) :=
  inferInstanceAs (Decidable (∀ call ∈ _, ∀ later ∈ _, _))

/-- Stack-nested pairing with and without a limit. -/
theorem correlateStackNested_limit (starts ends : Slice EventRef) (limit : Nat) :
    ∃ limited all, correlateStackNested starts.toList ends.toList (some limit) = some limited ∧
      correlateStackNested starts.toList ends.toList none = some all ∧
      InStartOrder all.pairs ∧
      (limited.pairs = all.pairs.take limit ↔ ClosedInOrder limit starts.toList ends.toList) := by
  obtain ⟨limited, hlimited, hpairs⟩ :=
    correlateStackNested_pairs starts.toList ends.toList (some limit)
  obtain ⟨all, hall, hpairsAll⟩ := correlateStackNested_pairs starts.toList ends.toList none
  have hlength : (inputCalls starts.toList ends.toList).length ≤ usizeMax := by
    have hcalls := length_closedCalls_le [] (stackTimeline starts.toList ends.toList)
    have hstarts := starts.length_le
    have hends := ends.length_le
    rw [stackTimeline, length_sortByKey, timelineEntries, List.length_append, List.length_map,
      List.length_map] at hcalls
    rw [inputCalls]
    simp only [isizeMax, usizeMax] at hstarts hends ⊢
    exact hcalls.trans (by omega)
  rw [Option.getD_none, List.take_of_length_le hlength] at hpairsAll
  refine ⟨limited, all, hlimited, hall, hpairsAll ▸ inStartOrder_sortPairs _, ?_⟩
  rw [hpairs, hpairsAll, sortPairs, sortPairs, Option.getD_some, List.map_take,
    sortByKey_take_eq_iff, ← List.map_take, ← List.map_drop, ClosedInOrder]
  simp only [List.forall_mem_map]
  rfl

/-- A limit only cuts the pairs, for all policies but one: for any starts and ends, the pairs with a
    limit are the first ones of the pairs without it exactly when, for stack-nested pairing, the
    calls that return within the limit were not entered later than the others. The pairs without a limit are in
    the order of their starts. -/
theorem correlateSelected_limit_iff (starts ends : Slice EventRef) (policy : MatchPolicy)
    (lifecycles : LifecycleKinds) (samples : Nat) :
    ∃ limited all,
      correlateSelected starts.toList ends.toList policy (some samples) lifecycles = some limited ∧
      correlateSelected starts.toList ends.toList policy none lifecycles = some all ∧
      (SortedBy EventRef.timestampNs starts.toList → InStartOrder all.pairs) ∧
      (limited.pairs = all.pairs.take samples ↔
        (policy = .stackNested → ClosedInOrder samples starts.toList ends.toList)) := by
  have hother : policy ≠ .stackNested → policy = .stackNested →
      ClosedInOrder samples starts.toList ends.toList := fun hne h => absurd h hne
  cases policy with
  | exact =>
    -- all three kinds of exact pairing sort and then cut
    have hlifecycle : ∀ {κ : Type} [LinearOrder κ] (key : Event → Option κ),
        (correlateLifecycle key starts.toList ends.toList (some samples)).pairs =
          (correlateLifecycle key starts.toList ends.toList none).pairs.take samples :=
      fun key => rfl
    unfold correlateSelected
    split_ifs
    · exact ⟨_, _, rfl, rfl, fun _ => inStartOrder_sortPairs _,
        iff_of_true (hlifecycle _) False.elim⟩
    · exact ⟨_, _, rfl, rfl, fun _ => inStartOrder_sortPairs _,
        iff_of_true (hlifecycle _) False.elim⟩
    · exact ⟨_, _, rfl, rfl, fun _ => inStartOrder_sortPairs _,
        iff_of_true rfl False.elim⟩
  | firstAfter =>
    obtain ⟨limited, hlimited, hpairs⟩ := correlateFirstAfter_pairs starts ends (some samples)
    obtain ⟨all, hall, hpairsAll⟩ := correlateFirstAfter_pairs starts ends none
    refine ⟨limited, all, hlimited, hall, ?_, iff_of_true ?_ (hother (by decide))⟩
    · rw [hpairsAll]
      exact inStartOrder_of_sublist (starts_firstAfterPairs_sublist _ _)
    · rw [hpairs, hpairsAll]
      rfl
  | nearest =>
    obtain ⟨choices, hbest, hruns⟩ := correlateNearest_choices starts ends
    obtain ⟨st, hrun, hpairs⟩ := hruns (some samples)
    obtain ⟨stAll, hall, hpairsAll⟩ := hruns none
    refine ⟨_, _, hrun, hall, ?_, iff_of_true ?_ (hother (by decide))⟩
    · rw [nearestOutcome, hpairsAll]
      apply inStartOrder_of_sublist
      rw [truncate_none, List.map_map]
      exact hbest.map_fst_eq ▸ List.take_sublist _ _
    · rw [nearestOutcome, nearestOutcome, hpairs, hpairsAll]
      rfl
  | stackNested =>
    obtain ⟨limited, all, hlimited, hall, hsorted, hiff⟩ :=
      correlateStackNested_limit starts ends samples
    exact ⟨limited, all, hlimited, hall, fun _ => hsorted, hiff.trans ⟨fun h _ => h, fun h => h rfl⟩⟩
  | streamOrder =>
    obtain ⟨st, hrun, -⟩ := streamLoop_inv starts.toList ends.toList
    have hstream : ∀ limit, correlateSelected starts.toList ends.toList .streamOrder limit
        lifecycles = some
          { pairs := truncate limit (sortPairs st.pairs)
            unmatchedStart := st.unmatchedStart
            unmatchedEnd := st.unmatchedEnd + (st.endGroups.values.map List.length).sum
            ambiguous := 0 } := by
      intro limit
      simp [correlateSelected, correlateStreamOrder, hrun]
    exact ⟨_, _, hstream _, hstream _, fun _ => inStartOrder_sortPairs _,
      iff_of_true rfl (hother (by decide))⟩

/-! ### A nested call -/

/-- An entry into or a return from the function `f` of a binary. -/
def callEvent (eventType : EventType) (probeKind : HostProbeKind) (timestampNs : UInt64) : Event :=
  { readEvent eventType timestampNs with
    host := some
      { probeKind, binaryPath := some "/bin/app", buildId := none, symbol := some "f"
        symbolDemangled := none, offset := none, returnValue := none, arguments := [] } }

/-- A call of `f` from 10 to 40 with a call inside it from 20 to 30. -/
def nestedCalls : List Event :=
  [callEvent .hostFunctionEntry .uprobe 10, callEvent .hostFunctionEntry .uprobe 20,
    callEvent .hostFunctionExit .uretprobe 30, callEvent .hostFunctionExit .uretprobe 40]

/-- Options that measure the calls of `f`. -/
def callOptions (samples : Option Nat) : MeasureOptions :=
  { readOptions with
    startSelector := "uprobe:/bin/app:f:entry"
    endSelector := "uprobe:/bin/app:f:return"
    matchPolicy := .stackNested
    samples }

def evidenceStarts (events : List Event) (options : MeasureOptions) : Option (List UInt64) :=
  match measure noRegex events options with
  | some (.ok result) => some (result.evidence.map (·.startEvent.timestampNs))
  | _ => none

/-- With a limit of one sample, the evidence is the inner call; without a limit it begins with the
    outer one. -/
theorem evidenceStarts_nestedCalls : evidenceStarts nestedCalls (callOptions (some 1)) = some [20] ∧
      evidenceStarts nestedCalls (callOptions none) = some [10, 20] := by
  decide +kernel

end Xprobe.Correlator
