import Xprobe.Cupti.AgentMemory

/-!
# The records of an exact capture

What `enqueue_record` leaves in the arrays when its calls do not overlap: the records that passed the
filters, in the order of the calls, all of them committed. `Retains` is the representation: the
arrays stand for the list of retained records.

A capture that is still active at the end has not lost a record on the way, because a call that finds
no room stops it.
-/

namespace Xprobe.Cupti

open Foundation

/-- The arrays hold the retained records at their beginning, and nothing is ready behind them. -/
structure Retains (store : CaptureStore) (retained : List Record) : Prop where
  length_records : store.records.length = store.recordCapacity.toNat
  recordCount : store.recordCount.toNat = retained.length
  committed : store.committedRecordCount.toNat = retained.length
  fits : retained.length ≤ store.recordCapacity.toNat
  records : store.records.take retained.length = retained
  ready : store.recordReady = List.replicate retained.length true ++
    List.replicate (store.recordCapacity.toNat - retained.length) false

def CaptureStore.retained (store : CaptureStore) : List Record :=
  store.records.take store.committedRecordCount.toNat

variable {store : CaptureStore} {state : AgentState}

variable {retained : List Record}

theorem Retains.retained_eq (h : Retains store retained) : store.retained = retained := by
  rw [CaptureStore.retained, h.committed, h.records]

/-- The arrays of a new capture retain nothing. -/
theorem retains_of_allocateCapture {answers : AllocatorAnswers} {capacity : UInt64}
    {needsNvtx : Bool} {store' : CaptureStore}
    (h : allocateCapture answers capacity needsNvtx store = some store')
    (hmode : store.captureMode = CaptureMode.exact.code) : Retains store'.reset [] := by
  have hallocated := allocated_of_eq_some h
  have hmode' : store'.captureMode = CaptureMode.exact.code := hallocated.captureMode.trans hmode
  have hne : CaptureMode.exact.code ≠ CaptureMode.aggregate.code := by decide
  refine ⟨hallocated.consistent.records hmode', rfl, rfl, Nat.zero_le _, rfl, ?_⟩
  have hready := hallocated.consistent.recordReady hmode'
  simp [CaptureStore.reset, hmode', hne, List.map_const', hready]

/-! ## One call -/

/-- The commit loop, when the next record has just become ready and nothing behind it is. -/
theorem commitReady_of_next {committed : Nat}
    (hcommitted : store.committedRecordCount.toNat = committed)
    (hroom : committed < store.recordCapacity.toNat)
    (hready : store.recordReady = List.replicate (committed + 1) true ++
      List.replicate (store.recordCapacity.toNat - (committed + 1)) false) :
    store.commitReady.committedRecordCount.toNat = committed + 1 := by
  have hlength : store.recordReady.length ≤ store.recordCapacity.toNat := by
    rw [hready, List.length_append, List.length_replicate, List.length_replicate]
    omega
  have hfront : List.replicate (committed + 1) true =
      List.replicate committed true ++ [true] := List.replicate_succ'
  have hdrop : (store.recordReady.take store.recordCapacity.toNat).drop
      store.committedRecordCount.toNat =
      true :: List.replicate (store.recordCapacity.toNat - (committed + 1)) false := by
    rw [List.take_of_length_le hlength, hready, hcommitted, hfront, List.append_assoc]
    exact List.drop_left' List.length_replicate
  -- the loop passes the new record and stops at the first one that is not ready
  have hone : ((true :: List.replicate (store.recordCapacity.toNat - (committed + 1))
      false).takeWhile id).length = 1 := by
    cases store.recordCapacity.toNat - (committed + 1) with
    | zero => rfl
    | succ n => rfl
  have hlt := store.recordCapacity.toNat_lt
  rw [CaptureStore.commitReady]
  dsimp only
  rw [hdrop, hone, UInt64.toNat_add, hcommitted]
  show (committed + 1) % 2 ^ 64 = committed + 1
  exact Nat.mod_eq_of_lt (by omega)

private theorem set_replicate_next (n m : Nat) (hm : n < m) :
    (List.replicate n true ++ List.replicate (m - n) false).set n true =
      List.replicate (n + 1) true ++ List.replicate (m - (n + 1)) false := by
  obtain ⟨k, hk⟩ : ∃ k, m - n = k + 1 := ⟨m - n - 1, by omega⟩
  have hrest : m - (n + 1) = k := by omega
  have hfront : List.replicate (n + 1) true = List.replicate n true ++ [true] :=
    List.replicate_succ'
  have hlength : (List.replicate n true).length = n := List.length_replicate
  rw [hk, hrest, hfront, List.append_assoc, List.set_append_right _ _ (by rw [hlength]), hlength,
    Nat.sub_self]
  rfl

private theorem take_set_next {α : Type} {l front : List α} (h : l.take front.length = front)
    (hlt : front.length < l.length) (a : α) :
    (l.set front.length a).take (front.length + 1) = front ++ [a] := by
  have htake : (l.set front.length a).take front.length = front := by
    rw [List.take_set_of_le le_rfl, h]
  rw [List.take_add_one, htake, List.getElem?_set_self hlt]
  rfl

def CaptureStore.push (store : CaptureStore) (record : Record) : CaptureStore :=
  CaptureStore.commitReady
    { store with
      recordCount := store.recordCount + 1
      records := store.records.set store.recordCount.toNat record
      recordReady := store.recordReady.set store.recordCount.toNat true }

/-- A record that is stored is retained behind the others. -/
theorem Retains.push (h : Retains store retained) (hroom : store.recordCount < store.recordCapacity)
    (record : Record) :
    Retains (store.push record) (retained ++ [record]) := by
  have hlt : retained.length < store.recordCapacity.toNat := by
    rw [← h.recordCount]
    exact UInt64.lt_iff_toNat_lt.mp hroom
  have hbound := store.recordCapacity.toNat_lt
  have hready : store.recordReady.set store.recordCount.toNat true =
      List.replicate (retained.length + 1) true ++
        List.replicate (store.recordCapacity.toNat - (retained.length + 1)) false := by
    rw [h.ready, h.recordCount]
    exact set_replicate_next _ _ hlt
  have hlength : (retained ++ [record]).length = retained.length + 1 := by simp
  refine ⟨?_, ?_, ?_, ?_, ?_, ?_⟩
  · show (store.records.set _ record).length = _
    rw [List.length_set]
    exact h.length_records
  · show (store.recordCount + 1).toNat = _
    rw [UInt64.toNat_add, h.recordCount, hlength]
    exact Nat.mod_eq_of_lt (show retained.length + 1 < 2 ^ 64 by omega)
  · rw [hlength]
    exact commitReady_of_next h.committed hlt hready
  · rw [hlength]
    exact hlt
  · show (store.records.set _ record).take _ = _
    rw [h.recordCount, hlength]
    exact take_set_next h.records (by rw [h.length_records]; exact hlt) record
  · rw [hlength]
    exact hready

/-- `enqueue_record` finds no room for the record. -/
def refusesRecord (state : AgentState) (record : Record) : Bool :=
  state.control.captureState = .active ∧ state.control.filterMatches record = true ∧
    state.store.recordCapacity ≤ state.store.recordCount

/-- `enqueue_record` stores the record. -/
def storesRecord (state : AgentState) (record : Record) : Bool :=
  state.control.captureState = .active ∧ state.control.filterMatches record = true ∧
    state.store.recordCount < state.store.recordCapacity

def AgentState.refuse (state : AgentState) : AgentState :=
  { store := { state.store with recordCount := state.store.recordCount + 1 }
    control := { state.control with stopReason := .recordLimit, captureState := .limitReached } }

/-- The three things that `enqueue_record` does. -/
theorem enqueueRecord_eq (state : AgentState) (record : Record) : enqueueRecord state record =
      if storesRecord state record then { state with store := state.store.push record }
      else if refusesRecord state record then state.refuse
      else state := by
  by_cases hactive : state.control.captureState = .active
  swap
  · simp [enqueueRecord, storesRecord, refusesRecord, hactive]
  by_cases hmatch : state.control.filterMatches record = true
  swap
  · simp [enqueueRecord, storesRecord, refusesRecord, hmatch]
  by_cases hfull : state.store.recordCapacity ≤ state.store.recordCount
  · have hnot : ¬ state.store.recordCount < state.store.recordCapacity := not_lt.mpr hfull
    simp [enqueueRecord, storesRecord, refusesRecord, hactive, hmatch, hfull, hnot,
      AgentState.refuse]
  · have hlt : state.store.recordCount < state.store.recordCapacity := not_le.mp hfull
    simp [enqueueRecord, storesRecord, hactive, hmatch, hfull, hlt, CaptureStore.push]

variable {record : Record}

theorem storesRecord_eq_true :
    storesRecord state record = true ↔ state.control.captureState = .active ∧
      state.control.filterMatches record = true ∧
      state.store.recordCount < state.store.recordCapacity :=
  decide_eq_true_iff

theorem refusesRecord_eq_true :
    refusesRecord state record = true ↔ state.control.captureState = .active ∧
      state.control.filterMatches record = true ∧
      state.store.recordCapacity ≤ state.store.recordCount :=
  decide_eq_true_iff

theorem not_storesRecord_of_refuses (h : refusesRecord state record = true) :
    storesRecord state record = false := by
  obtain ⟨-, -, hfull⟩ := refusesRecord_eq_true.mp h
  simp [storesRecord, not_lt.mpr hfull]

/-- A call in an active capture that retains some records. -/
theorem enqueueRecord_retains (h : Retains state.store retained)
    (hactive : state.control.captureState = .active) (record : Record) :
    (enqueueRecord state record).control.captureState = .limitReached ∨
      ((enqueueRecord state record).control = state.control ∧
        (enqueueRecord state record).store.captureMode = state.store.captureMode ∧
        Retains (enqueueRecord state record).store
          (retained ++ [record].filter state.control.filterMatches)) := by
  rw [enqueueRecord_eq]
  split_ifs with hstores hrefuses
  · obtain ⟨-, hmatch, hroom⟩ := storesRecord_eq_true.mp hstores
    rw [List.filter_cons_of_pos hmatch, List.filter_nil]
    exact .inr ⟨rfl, rfl, h.push hroom record⟩
  · exact .inl rfl
  · -- neither stored nor refused: the record did not pass the filters
    have hmatch : ¬ state.control.filterMatches record = true := by
      intro hmatch
      rcases lt_or_ge state.store.recordCount state.store.recordCapacity with hroom | hfull
      · exact hstores (storesRecord_eq_true.mpr ⟨hactive, hmatch, hroom⟩)
      · exact hrefuses (refusesRecord_eq_true.mpr ⟨hactive, hmatch, hfull⟩)
    rw [List.filter_cons_of_neg hmatch, List.filter_nil, List.append_nil]
    exact .inr ⟨rfl, rfl, h⟩

end Xprobe.Cupti
