import Xprobe.Cupti.AgentMemory
import Xprobe.Cupti.SlotTable

/-!
# Aggregating activities

The table of groups that the agent keeps in aggregate mode (`aggregate_activity` in
`cupti/src/cupti_agent.c`), with its calls run one at a time.

The table is meant to hold, for each kind, device, copy kind and name, the totals of the activities
that share them. `summary` is that map; `AggregateTable` says that the slots store a map, and a call
that finds its key or a free slot takes the table from one summary to the next.
-/

namespace Xprobe.Cupti

open Foundation OpenAddressing

/-! ## Model -/

/-- The arguments of `aggregate_activity`. -/
structure AggregateCall where
  kind : UInt32
  deviceId : UInt32
  memcpyKind : UInt32
  name : Option (List UInt8)
  startNs : UInt64
  endNs : UInt64
  bytes : UInt64

/-- The bytes of the name that count: at most 127, before the terminator. A null name is the empty
    one. -/
def AggregateCall.keyName (call : AggregateCall) : List UInt8 := (call.name.map keptName).getD []

/-- `aggregate_hash`. The states of unused slots are never hashes. -/
def aggregateHash (kind deviceId memcpyKind : UInt32) (keyName : List UInt8) : UInt64 :=
  let hash := fnvHash (leU32 kind ++ (leU32 deviceId ++ (leU32 memcpyKind ++ keyName)))
  if hash < 2 then hash + 2 else hash

/-- `aggregate_key_matches`. The names are compared in their first 127 bytes. -/
def aggregateKeyMatches (slot : AggregateSlot) (call : AggregateCall) : Bool :=
  slot.kind == call.kind && slot.deviceId == call.deviceId &&
    slot.memcpyKind == call.memcpyKind && keptName slot.name == call.keyName

/-- `update_aggregate_slot`. A counter that overflows keeps its wrapped value, the rest of the slot is
    left, and the error is remembered. -/
def updateAggregateSlot (slot : AggregateSlot) (durationNs bytes : UInt64)
    (control : AgentControl) : AggregateSlot × AgentControl :=
  let duration := { slot with totalDurationNs := slot.totalDurationNs + durationNs }
  if checkedAdd slot.totalDurationNs durationNs = none then (duration, control.rememberOutputError)
  else
    let transferred := { duration with totalBytes := slot.totalBytes + bytes }
    if bytes ≠ 0 ∧ checkedAdd slot.totalBytes bytes = none then
      (transferred, control.rememberOutputError)
    else
      let counted := { transferred with count := slot.count + 1 }
      if checkedAdd slot.count 1 = none then (counted, control.rememberOutputError)
      else
        ({ counted with
            minDurationNs := if durationNs < slot.minDurationNs then durationNs else slot.minDurationNs
            maxDurationNs :=
              if slot.maxDurationNs < durationNs then durationNs else slot.maxDurationNs },
          control)

/-- The loop of `aggregate_activity`. Nothing is returned for an index outside the array. -/
def findAggregateSlot (slots : List AggregateSlot) (hash : UInt64) (call : AggregateCall) :
    List Nat → Option Location
  | [] => some (.absent none)
  | index :: rest =>
    match slots[index]? with
    | none => none
    | some slot =>
      if slot.state = hash ∧ aggregateKeyMatches slot call = true then some (.present index)
      else if slot.state = 0 then some (.absent (some index))
      else findAggregateSlot slots hash call rest

theorem length_keyName_lt (call : AggregateCall) : call.keyName.length < nameLength := by
  rw [AggregateCall.keyName]
  cases call.name with
  | none => decide
  | some name => exact length_keptName_lt name

theorem zero_not_mem_keyName (call : AggregateCall) : 0 ∉ call.keyName := by
  rw [AggregateCall.keyName]
  cases call.name with
  | none => exact List.not_mem_nil
  | some name => exact zero_not_mem_keptName name

def AggregateSlot.claim (slot : AggregateSlot) (hash : UInt64) (call : AggregateCall) :
    AggregateSlot :=
  { state := hash
    count := 0
    totalDurationNs := 0
    minDurationNs := UInt64.ofNat (2 ^ 64 - 1)
    maxDurationNs := 0
    totalBytes := 0
    kind := call.kind
    deviceId := call.deviceId
    memcpyKind := call.memcpyKind
    name := writeText slot.name call.keyName
    name_length := by
      rw [length_writeText (slot.name_length ▸ length_keyName_lt call), slot.name_length] }

def AgentState.updateSlot (state : AgentState) (index : Nat) (slot : AggregateSlot)
    (call : AggregateCall) : AgentState :=
  let (slot, control) :=
    updateAggregateSlot slot (call.endNs - call.startNs) call.bytes state.control
  { store := { state.store with aggregateSlots := state.store.aggregateSlots.set index slot }
    control }

/-- `aggregate_activity`. Nothing is returned when it divides by zero or leaves the array. -/
def AgentState.aggregateActivity (state : AgentState) (call : AggregateCall) : Option AgentState :=
  let slots := state.store.aggregateSlots
  let capacity := state.store.recordCapacity
  let hash := aggregateHash call.kind call.deviceId call.memcpyKind call.keyName
  if state.control.captureState ≠ .active then some state
  else if call.startNs = 0 ∨ call.endNs < call.startNs then
    some { state with control := state.control.rememberOutputError }
  else if capacity = 0 then none
  else
    match findAggregateSlot slots hash call (probeIndices hash capacity) with
    | none => none
    | some (.present index) => slots[index]?.map (state.updateSlot index · call)
    | some (.absent (some index)) =>
      slots[index]?.map (fun slot =>
        let committed :=
          { state with
            store :=
              { state.store with
                committedRecordCount := state.store.committedRecordCount + 1 } }
        committed.updateSlot index (slot.claim hash call) call)
    | some (.absent none) => some { state.dropRecord with control := state.control.reachLimit }

def AgentState.aggregateActivities (state : AgentState) : List AggregateCall → Option AgentState
  | [] => some state
  | call :: rest => (state.aggregateActivity call).bind (AgentState.aggregateActivities · rest)

/-! ## Totals -/

/-- What a slot keeps of its activities. -/
structure Totals where
  count : UInt64
  totalDurationNs : UInt64
  minDurationNs : UInt64
  maxDurationNs : UInt64
  totalBytes : UInt64
  deriving DecidableEq

/-- How long an activity takes. -/
def AggregateCall.durationNs (call : AggregateCall) : UInt64 := call.endNs - call.startNs

variable {calls : List AggregateCall}

namespace Totals

def fresh : Totals :=
  { count := 0, totalDurationNs := 0, minDurationNs := UInt64.ofNat (2 ^ 64 - 1), maxDurationNs := 0
    totalBytes := 0 }

/-- One more activity. -/
def add (totals : Totals) (call : AggregateCall) : Totals :=
  { count := totals.count + 1
    totalDurationNs := totals.totalDurationNs + call.durationNs
    minDurationNs := min totals.minDurationNs call.durationNs
    maxDurationNs := max totals.maxDurationNs call.durationNs
    totalBytes := totals.totalBytes + call.bytes }

/-- One more activity does not overflow a counter. -/
structure Fits (totals : Totals) (call : AggregateCall) : Prop where
  count : totals.count.toNat + 1 < 2 ^ 64
  duration : totals.totalDurationNs.toNat + call.durationNs.toNat < 2 ^ 64
  bytes : totals.totalBytes.toNat + call.bytes.toNat < 2 ^ 64

def ofCalls (calls : List AggregateCall) : Totals := calls.foldl add fresh

/-- The totals are those of the activities, as numbers. -/
structure Exact (totals : Totals) (calls : List AggregateCall) : Prop where
  count : totals.count.toNat = calls.length
  duration : totals.totalDurationNs.toNat = (calls.map (·.durationNs.toNat)).sum
  bytes : totals.totalBytes.toNat = (calls.map (·.bytes.toNat)).sum
  le_durations : ∀ call ∈ calls, totals.minDurationNs ≤ call.durationNs
  durations_le : ∀ call ∈ calls, call.durationNs ≤ totals.maxDurationNs
  least : calls ≠ [] → ∃ call ∈ calls, call.durationNs = totals.minDurationNs
  greatest : calls ≠ [] → ∃ call ∈ calls, call.durationNs = totals.maxDurationNs

@[simp] theorem ofCalls_concat (calls : List AggregateCall) (call : AggregateCall) :
    ofCalls (calls ++ [call]) = (ofCalls calls).add call := by
  rw [ofCalls, List.foldl_append]
  rfl

/-- The counters of some activities do not overflow. -/
structure Bounded (calls : List AggregateCall) : Prop where
  count : calls.length < 2 ^ 64
  duration : (calls.map (·.durationNs.toNat)).sum < 2 ^ 64
  bytes : (calls.map (·.bytes.toNat)).sum < 2 ^ 64

theorem Bounded.left {call : AggregateCall} (h : Bounded (calls ++ [call])) : Bounded calls := by
  have hcount := h.count
  have hduration := h.duration
  have hbytes := h.bytes
  simp only [List.length_append, List.map_append, List.sum_append] at hcount hduration hbytes
  exact ⟨by omega, by omega, by omega⟩

/-- Exact totals take one more activity if the counters of all of them do not overflow. -/
theorem Exact.fits {totals : Totals} {call : AggregateCall} (h : totals.Exact calls)
    (hbounded : Bounded (calls ++ [call])) : totals.Fits call := by
  have hcount := hbounded.count
  have hduration := hbounded.duration
  have hbytes := hbounded.bytes
  simp only [List.length_append, List.map_append, List.sum_append, List.length_singleton,
    List.map_singleton, List.sum_singleton] at hcount hduration hbytes
  rw [← h.count] at hcount
  rw [← h.duration] at hduration
  rw [← h.bytes] at hbytes
  exact ⟨by omega, by omega, by omega⟩

theorem Exact.add {totals : Totals} {call : AggregateCall} (h : totals.Exact calls)
    (hfits : totals.Fits call) (hfresh : calls = [] → totals = fresh) :
    (totals.add call).Exact (calls ++ [call]) where
  count := by
    rw [Totals.add, UInt64.toNat_add, List.length_append, ← h.count]
    exact Nat.mod_eq_of_lt hfits.count
  duration := by
    rw [Totals.add, UInt64.toNat_add, Nat.mod_eq_of_lt hfits.duration, h.duration]
    simp
  bytes := by
    rw [Totals.add, UInt64.toNat_add, Nat.mod_eq_of_lt hfits.bytes, h.bytes]
    simp
  le_durations other hmem := by
    rcases List.mem_append.mp hmem with hold | hnew
    · exact le_trans (min_le_left _ _) (h.le_durations other hold)
    · cases List.mem_singleton.mp hnew
      exact min_le_right _ _
  durations_le other hmem := by
    rcases List.mem_append.mp hmem with hold | hnew
    · exact le_trans (h.durations_le other hold) (le_max_left _ _)
    · cases List.mem_singleton.mp hnew
      exact le_max_right _ _
  least _ := by
    by_cases hle : call.durationNs ≤ totals.minDurationNs
    · exact ⟨call, by simp, (min_eq_right hle).symm⟩
    -- the first activity always lowers the minimum of the fresh totals
    · have hne : calls ≠ [] := by
        intro hnil
        apply hle
        rw [hfresh hnil]
        exact UInt64.le_iff_toNat_le.mpr (Nat.le_of_lt_succ call.durationNs.toNat_lt)
      obtain ⟨other, hmem, hother⟩ := h.least hne
      exact ⟨other, by simp [hmem], hother.trans (min_eq_left (not_le.mp hle).le).symm⟩
  greatest _ := by
    by_cases hle : totals.maxDurationNs ≤ call.durationNs
    · exact ⟨call, by simp, (max_eq_right hle).symm⟩
    · have hne : calls ≠ [] := by
        intro hnil
        apply hle
        rw [hfresh hnil]
        exact UInt64.le_iff_toNat_le.mpr (Nat.zero_le _)
      obtain ⟨other, hmem, hother⟩ := h.greatest hne
      exact ⟨other, by simp [hmem], hother.trans (max_eq_left (not_le.mp hle).le).symm⟩

theorem exact_ofCalls (h : Bounded calls) : (ofCalls calls).Exact calls := by
  induction calls using List.reverseRecOn with
  | nil => exact ⟨rfl, rfl, rfl, by simp, by simp, by simp, by simp⟩
  | append_singleton calls call ih =>
    have hexact := ih h.left
    rw [ofCalls_concat]
    refine hexact.add (hexact.fits h) ?_
    rintro rfl
    rfl

end Totals

/-! ## The map that the table stores -/

/-- The kind, the device, the kind of copy and the name. -/
abbrev AggregateKey := UInt32 × UInt32 × UInt32 × List UInt8

def AggregateCall.key (call : AggregateCall) : AggregateKey :=
  (call.kind, call.deviceId, call.memcpyKind, call.keyName)

abbrev Groups := Finmap (fun _ : AggregateKey => Totals)

/-- The activity is added to its group, which is a new one if there is none yet. -/
def addCall (groups : Groups) (call : AggregateCall) : Groups :=
  groups.insert call.key (((groups.lookup call.key).getD .fresh).add call)

def summary (calls : List AggregateCall) : Groups := calls.foldl addCall ∅

def callsWith (key : AggregateKey) (calls : List AggregateCall) : List AggregateCall :=
  calls.filter (fun call => call.key = key)

@[simp] theorem summary_concat (calls : List AggregateCall) (call : AggregateCall) :
    summary (calls ++ [call]) = addCall (summary calls) call := by
  rw [summary, List.foldl_append]
  rfl

theorem callsWith_concat_self (calls : List AggregateCall) (call : AggregateCall) :
    callsWith call.key (calls ++ [call]) = callsWith call.key calls ++ [call] := by
  simp [callsWith]

variable {call : AggregateCall}

theorem callsWith_concat_of_ne {key : AggregateKey} (h : call.key ≠ key)
    (calls : List AggregateCall) : callsWith key (calls ++ [call]) = callsWith key calls := by
  simp [callsWith, h]

theorem callsWith_eq_nil_iff {key : AggregateKey} :
    callsWith key calls = [] ↔ key ∉ calls.map AggregateCall.key := by
  simp [callsWith, List.filter_eq_nil_iff]

/-- The summary has a group for each key that occurs, with the totals of its activities. -/
theorem lookup_summary (calls : List AggregateCall) (key : AggregateKey) :
    (summary calls).lookup key =
      if key ∈ calls.map AggregateCall.key then some (Totals.ofCalls (callsWith key calls))
      else none := by
  induction calls using List.reverseRecOn with
  | nil => rfl
  | append_singleton calls call ih =>
    rw [summary_concat, addCall]
    by_cases hkey : call.key = key
    · subst hkey
      have hoccurs : call.key ∈ (calls ++ [call]).map AggregateCall.key := by simp
      rw [Finmap.lookup_insert, ih, if_pos hoccurs, callsWith_concat_self, Totals.ofCalls_concat]
      by_cases hmem : call.key ∈ calls.map AggregateCall.key
      · rw [if_pos hmem, Option.getD_some]
      · rw [if_neg hmem, Option.getD_none, callsWith_eq_nil_iff.mpr hmem]
        rfl
    · have hmem : key ∈ (calls ++ [call]).map AggregateCall.key ↔
          key ∈ calls.map AggregateCall.key := by
        simp [Ne.symm hkey]
      rw [Finmap.lookup_insert_of_ne _ (Ne.symm hkey), ih, callsWith_concat_of_ne hkey]
      simp only [hmem]

theorem mem_summary {key : AggregateKey} :
    key ∈ summary calls ↔ key ∈ calls.map AggregateCall.key := by
  rw [Finmap.mem_iff, lookup_summary]
  split_ifs with hmem <;> simp [hmem]

/-- The keys of the summary, as the distinct keys of the activities. -/
theorem keys_summary (calls : List AggregateCall) :
    (summary calls).keys = (calls.map AggregateCall.key).toFinset := by
  ext key
  rw [Finmap.mem_keys, mem_summary, List.mem_toFinset]

/-! ## The slots of a table -/

namespace AggregateSlot

def totals (slot : AggregateSlot) : Totals :=
  { count := slot.count
    totalDurationNs := slot.totalDurationNs
    minDurationNs := slot.minDurationNs
    maxDurationNs := slot.maxDurationNs
    totalBytes := slot.totalBytes }

def key (slot : AggregateSlot) : AggregateKey :=
  (slot.kind, slot.deviceId, slot.memcpyKind, keptName slot.name)

/-- What the state of a slot says about it. -/
def view (slot : AggregateSlot) : Slot AggregateKey Totals :=
  if slot.state = 0 then .empty else .live slot.key slot.totals

/-- A slot is unused, or in the state of its hash with a terminated name. -/
def Valid (slot : AggregateSlot) : Prop :=
  slot.state = 0 ∨
    (slot.state = aggregateHash slot.kind slot.deviceId slot.memcpyKind (keptName slot.name) ∧
      (cString slot.name).length < nameLength)

end AggregateSlot

def keyHash (key : AggregateKey) : UInt64 := aggregateHash key.1 key.2.1 key.2.2.1 key.2.2.2

abbrev AggregateTable (store : CaptureStore) (groups : Groups) : Prop :=
  Table AggregateSlot.view AggregateSlot.Valid keyHash store.recordCapacity store.aggregateSlots
    groups

abbrev CaptureStore.searchGroup (store : CaptureStore) (key : AggregateKey) : Location :=
  search AggregateSlot.view keyHash store.recordCapacity store.aggregateSlots key

theorem aggregateHash_ge_two (kind deviceId memcpyKind : UInt32) (keyName : List UInt8) :
    2 ≤ aggregateHash kind deviceId memcpyKind keyName := by
  dsimp only [aggregateHash]
  split_ifs with h
  · have htwo : (2 : UInt64).toNat = 2 := rfl
    rw [UInt64.lt_iff_toNat_lt, htwo] at h
    rw [UInt64.le_iff_toNat_le, UInt64.toNat_add, htwo]
    omega
  · exact not_lt.mp h

theorem aggregateHash_ne_zero (kind deviceId memcpyKind : UInt32) (keyName : List UInt8) :
    aggregateHash kind deviceId memcpyKind keyName ≠ 0 := by
  intro h
  have hle := aggregateHash_ge_two kind deviceId memcpyKind keyName
  rw [h] at hle
  exact absurd hle (by decide)

variable {slot : AggregateSlot}

theorem aggregateKeyMatches_iff : aggregateKeyMatches slot call = true ↔ slot.key = call.key := by
  simp [aggregateKeyMatches, AggregateSlot.key, AggregateCall.key, Prod.ext_iff, and_assoc]

theorem AggregateSlot.view_unused (h : slot.state = 0) : slot.view = .empty := by
  rw [AggregateSlot.view, if_pos h]

theorem AggregateSlot.view_used (h : slot.state ≠ 0) : slot.view = .live slot.key slot.totals := by
  rw [AggregateSlot.view, if_neg h]

theorem AggregateSlot.of_view_live {key : AggregateKey} {totals : Totals}
    (h : slot.view = .live key totals) :
    slot.state ≠ 0 ∧ slot.key = key ∧ slot.totals = totals := by
  rw [AggregateSlot.view] at h
  split_ifs at h with hunused
  cases h
  exact ⟨hunused, rfl, rfl⟩

/-- The test of the loop on a slot: it is the slot of the key. -/
theorem AggregateSlot.Valid.matches_iff (h : slot.Valid) :
    slot.state = aggregateHash call.kind call.deviceId call.memcpyKind call.keyName ∧
        aggregateKeyMatches slot call = true ↔
      slot.state ≠ 0 ∧ slot.key = call.key := by
  rw [aggregateKeyMatches_iff]
  refine ⟨fun hmatch => ⟨?_, hmatch.2⟩, fun hused => ⟨?_, hused.2⟩⟩
  · rw [hmatch.1]
    exact aggregateHash_ne_zero _ _ _ _
  · rcases h with hunused | ⟨hstate, -⟩
    · exact absurd hunused hused.1
    · have hkey := hused.2
      simp only [AggregateSlot.key, AggregateCall.key, Prod.mk.injEq] at hkey
      rw [hstate, hkey.1, hkey.2.1, hkey.2.2.1, hkey.2.2.2]

/-- The loop is a search. -/
theorem findAggregateSlot_eq_locate {slots : List AggregateSlot}
    (hvalid : ∀ slot ∈ slots, slot.Valid) (call : AggregateCall) {path : List Nat}
    (hpath : ∀ index ∈ path, index < slots.length) :
    findAggregateSlot slots
        (aggregateHash call.kind call.deviceId call.memcpyKind call.keyName) call path =
      some (locate (slotAt AggregateSlot.view slots) call.key path none) := by
  induction path with
  | nil => rfl
  | cons index rest ih =>
    have hrest := ih (fun i hi => hpath i (List.mem_cons_of_mem _ hi))
    obtain ⟨slot, hslot⟩ : ∃ slot, slots[index]? = some slot :=
      ⟨_, List.getElem?_eq_getElem (hpath index List.mem_cons_self)⟩
    have hmatches : _ ↔ slot.state ≠ 0 ∧ slot.key = call.key :=
      (hvalid slot (List.mem_of_getElem? hslot)).matches_iff
    rw [findAggregateSlot, hslot, locate, slotAt_of_getElem? hslot]
    dsimp only
    by_cases hunused : slot.state = 0
    · rw [AggregateSlot.view_unused hunused, if_neg (fun h => (hmatches.mp h).1 hunused),
        if_pos hunused]
      rfl
    · rw [AggregateSlot.view_used hunused]
      dsimp only
      by_cases hkey : slot.key = call.key
      · rw [if_pos (hmatches.mpr ⟨hunused, hkey⟩), if_pos hkey]
      · rw [if_neg (fun h => hkey (hmatches.mp h).2), if_neg hunused, if_neg hkey, hrest]

private theorem checkedAdd_ne_none {a b : UInt64} (h : a.toNat + b.toNat < 2 ^ 64) :
    checkedAdd a b ≠ none := by
  rw [checkedAdd, if_pos h]
  exact Option.some_ne_none _

/-- A slot whose counters do not overflow: the totals get one more activity, the rest is kept. -/
theorem updateSlot_eq (h : slot.totals.Fits call) (state : AgentState) (index : Nat) :
    ∃ slot', state.updateSlot index slot call =
        { state with
          store :=
            { state.store with aggregateSlots := state.store.aggregateSlots.set index slot' } } ∧
      slot'.totals = slot.totals.add call ∧ slot'.key = slot.key ∧ slot'.state = slot.state ∧
      (slot.Valid → slot'.Valid) := by
  have hduration : checkedAdd slot.totalDurationNs (call.endNs - call.startNs) ≠ none :=
    checkedAdd_ne_none h.duration
  have hbytes : ¬ (call.bytes ≠ 0 ∧ checkedAdd slot.totalBytes call.bytes = none) :=
    fun hnone => checkedAdd_ne_none h.bytes hnone.2
  have hcount : checkedAdd slot.count 1 ≠ none := checkedAdd_ne_none h.count
  rw [AgentState.updateSlot, updateAggregateSlot]
  simp only [hduration, hbytes, hcount, if_false]
  refine ⟨_, rfl, ?_, rfl, rfl, id⟩
  simp only [AggregateSlot.totals, Totals.add, AggregateCall.durationNs, min_def, max_def,
    Totals.mk.injEq, true_and, and_true]
  refine ⟨?_, ?_⟩
  · split_ifs with hlt hle hle
    · exact absurd (lt_of_lt_of_le hlt hle) (lt_irrefl _)
    · rfl
    · rfl
    · exact absurd (not_lt.mp hlt) hle
  · split_ifs with hlt hle hle
    · rfl
    · exact absurd hlt.le hle
    · exact le_antisymm hle (not_lt.mp hlt)
    · rfl

/-- A slot that was just claimed stands for the key of the call, without activities. -/
theorem claim_spec (slot : AggregateSlot) (call : AggregateCall) {hash : UInt64}
    (hhash : hash = aggregateHash call.kind call.deviceId call.memcpyKind call.keyName) :
    (slot.claim hash call).Valid ∧ (slot.claim hash call).key = call.key ∧
      (slot.claim hash call).totals = .fresh ∧ (slot.claim hash call).state ≠ 0 := by
  have hlength := length_keyName_lt call
  have hstring : cString (slot.claim hash call).name = call.keyName :=
    cString_writeText _ (zero_not_mem_keyName call)
  have hname : keptName (slot.claim hash call).name = call.keyName := by
    rw [keptName, hstring, List.take_of_length_le (by omega)]
  refine ⟨.inr ⟨?_, ?_⟩, ?_, rfl, ?_⟩
  · rw [hname]
    exact hhash
  · rw [hstring]
    exact hlength
  · rw [AggregateSlot.key, hname]
    rfl
  · show hash ≠ 0
    rw [hhash]
    exact aggregateHash_ne_zero _ _ _ _

/-! ## The table refines the summary -/

/-- The activity has a start, and does not end before it. -/
structure AggregateCall.WellTimed (call : AggregateCall) : Prop where
  started : call.startNs ≠ 0
  ordered : call.startNs ≤ call.endNs

/-- The search for a key through the whole table. -/
theorem AggregateTable.findAggregateSlot_eq {store : CaptureStore} {groups : Groups}
    (h : AggregateTable store groups) (call : AggregateCall) :
    findAggregateSlot store.aggregateSlots
        (aggregateHash call.kind call.deviceId call.memcpyKind call.keyName) call
        (probeIndices (aggregateHash call.kind call.deviceId call.memcpyKind call.keyName)
          store.recordCapacity) =
      some (store.searchGroup call.key) :=
  findAggregateSlot_eq_locate h.valid call fun _ => Table.lt_length_of_mem_path h call.key

/-- The store after a call was added to a group, which may be a new one. -/
def CaptureStore.withGroup (store : CaptureStore) (slots : List AggregateSlot) (isNew : Bool) :
    CaptureStore :=
  { store with
    aggregateSlots := slots
    committedRecordCount := store.committedRecordCount + if isNew then 1 else 0 }

section Step

variable {state : AgentState} {groups : Groups} (h : AggregateTable state.store groups)
  (hactive : state.control.captureState = .active) {call : AggregateCall} (htimed : call.WellTimed)

include h hactive htimed

/-- The function up to its search. -/
theorem aggregateActivity_eq : state.aggregateActivity call =
      match state.store.searchGroup call.key with
      | .present index => state.store.aggregateSlots[index]?.map (state.updateSlot index · call)
      | .absent (some index) =>
        state.store.aggregateSlots[index]?.map (fun slot =>
          AgentState.updateSlot
            { state with
              store :=
                { state.store with
                  committedRecordCount := state.store.committedRecordCount + 1 } } index
            (slot.claim (aggregateHash call.kind call.deviceId call.memcpyKind call.keyName) call)
            call)
      | .absent none => some { state.dropRecord with control := state.control.reachLimit } := by
  have htime : ¬ (call.startNs = 0 ∨ call.endNs < call.startNs) := by
    rw [not_or]
    exact ⟨htimed.started, not_lt.mpr htimed.ordered⟩
  rw [AgentState.aggregateActivity, if_neg (not_not.mpr hactive), if_neg htime,
    if_neg h.capacity_ne, h.findAggregateSlot_eq]
  cases state.store.searchGroup call.key with
  | present index => rfl
  | absent free => cases free <;> rfl

/-- A call whose key has a group, or a slot for one: it is added to the group. -/
theorem aggregateActivity_adds (hfits : ((groups.lookup call.key).getD .fresh).Fits call)
    (hroom : call.key ∈ groups ∨ groups.keys.card ≠ state.store.recordCapacity.toNat) :
    ∃ slots, state.aggregateActivity call =
        some { state with
          store := state.store.withGroup slots (decide (call.key ∉ groups)) } ∧
      AggregateTable (state.store.withGroup slots (decide (call.key ∉ groups)))
        (addCall groups call) := by
  rw [aggregateActivity_eq h hactive htimed]
  cases hsearch : state.store.searchGroup call.key with
  -- the group exists: its slot is updated in place
  | present index =>
    obtain ⟨slot, totals, hslot, hvalid, hlive, hlookup, hreplace, -⟩ := h.of_present hsearch
    obtain ⟨hused, hkey, htotals⟩ := AggregateSlot.of_view_live hlive
    rw [hlookup, Option.getD_some, ← htotals] at hfits
    obtain ⟨slot', hupdate, htotals', hkey', hstate', hvalid'⟩ := updateSlot_eq hfits state index
    have hmem : call.key ∈ groups := Finmap.mem_iff.mpr ⟨totals, hlookup⟩
    refine ⟨state.store.aggregateSlots.set index slot', ?_, ?_⟩
    · dsimp only
      rw [hslot, Option.map_some, hupdate]
      simp [CaptureStore.withGroup, hmem]
    · rw [addCall, hlookup, Option.getD_some]
      apply hreplace (hvalid' hvalid)
      rw [AggregateSlot.view_used (hstate' ▸ hused), hkey', hkey, htotals', htotals]
  -- the group is new: a free slot is claimed, and updated like any other
  | absent free =>
    have hnew := h.not_mem_of_absent hsearch
    cases free with
    | none =>
      have hfull := h.full_of_absent hsearch
      exact absurd hroom (by simp [hnew, hfull])
    | some index =>
      obtain ⟨slot, hslot, -, -, hstore⟩ := h.of_absent hsearch
      obtain ⟨hvalid, hkey, htotals, hused⟩ := claim_spec slot call rfl
      rw [Finmap.lookup_eq_none.mpr hnew, Option.getD_none, ← htotals] at hfits
      obtain ⟨slot', hupdate, htotals', hkey', hstate', hvalid'⟩ :=
        updateSlot_eq hfits
          { state with
            store :=
              { state.store with
                committedRecordCount := state.store.committedRecordCount + 1 } } index
      refine ⟨state.store.aggregateSlots.set index slot', ?_, ?_⟩
      · dsimp only
        rw [hslot, Option.map_some, hupdate]
        simp [CaptureStore.withGroup, hnew]
      · rw [addCall, Finmap.lookup_eq_none.mpr hnew, Option.getD_none]
        apply hstore (hvalid' hvalid)
        rw [AggregateSlot.view_used (hstate' ▸ hused), hkey', hkey, htotals', htotals]

/-- A call with a new key in a full table: it is dropped and the capture has reached its limit. -/
theorem aggregateActivity_full (hnew : call.key ∉ groups)
    (hfull : groups.keys.card = state.store.recordCapacity.toNat) :
    state.aggregateActivity call =
      some { state.dropRecord with control := state.control.reachLimit } := by
  rw [aggregateActivity_eq h hactive htimed]
  cases hsearch : state.store.searchGroup call.key with
  | present index =>
    obtain ⟨-, totals, -, -, -, hlookup, -⟩ := h.of_present hsearch
    exact absurd (Finmap.mem_iff.mpr ⟨totals, hlookup⟩) hnew
  | absent free =>
    cases free with
    | none => rfl
    | some index =>
      obtain ⟨-, -, -, hroom, -⟩ := h.of_absent hsearch
      exact absurd hfull hroom.ne

end Step

/-- A group without activities takes any activity. -/
theorem Totals.fits_fresh (call : AggregateCall) : Totals.fresh.Fits call := by
  have hzero : (0 : UInt64).toNat = 0 := rfl
  refine ⟨by decide, ?_, ?_⟩
  · show (0 : UInt64).toNat + _ < _
    rw [hzero, Nat.zero_add]
    exact call.durationNs.toNat_lt
  · show (0 : UInt64).toNat + _ < _
    rw [hzero, Nat.zero_add]
    exact call.bytes.toNat_lt

/-- A slot with a counter other than the count that overflows: the error is remembered, and the
    count is kept. -/
theorem updateSlot_overflow (hcount : slot.count.toNat + 1 < 2 ^ 64) (h : ¬ slot.totals.Fits call)
    (state : AgentState) (index : Nat) :
    ∃ slot', state.updateSlot index slot call =
        { store :=
            { state.store with aggregateSlots := state.store.aggregateSlots.set index slot' }
          control := state.control.rememberOutputError } ∧
      slot'.count = slot.count ∧ slot'.key = slot.key ∧ slot'.state = slot.state ∧
      (slot.Valid → slot'.Valid) := by
  rw [AgentState.updateSlot, updateAggregateSlot]
  by_cases hduration : checkedAdd slot.totalDurationNs (call.endNs - call.startNs) = none
  · simp only [hduration, if_true]
    exact ⟨_, rfl, rfl, rfl, rfl, id⟩
  by_cases hbytes : call.bytes ≠ 0 ∧ checkedAdd slot.totalBytes call.bytes = none
  · simp only [hduration, hbytes, if_false, if_true, and_self, ne_eq, not_false_eq_true]
    exact ⟨_, rfl, rfl, rfl, rfl, id⟩
  -- otherwise every counter takes the activity
  exfalso
  have hfits : ∀ {a b : UInt64}, checkedAdd a b ≠ none → a.toNat + b.toNat < 2 ^ 64 := by
    intro a b hne
    by_contra hlarge
    exact hne (if_neg hlarge)
  refine h ⟨hcount, hfits hduration, ?_⟩
  by_cases hzero : call.bytes = 0
  · rw [hzero]
    exact slot.totalBytes.toNat_lt
  · exact hfits (fun hnone => hbytes ⟨hzero, hnone⟩)

/-- What a call in an active capture does: the table is full, or the activity is added, or the call
    is refused and the capture fails with the counts that it has. -/
theorem aggregateActivity_cases {state : AgentState} {groups : Groups}
    (h : AggregateTable state.store groups) (hactive : state.control.captureState = .active)
    (hcount : ((groups.lookup call.key).getD .fresh).count.toNat + 1 < 2 ^ 64) :
    ∃ state', state.aggregateActivity call = some state' ∧
      (state'.control.captureState = .limitReached ∨
        ((call.WellTimed ∧ ((groups.lookup call.key).getD .fresh).Fits call) ∧
          state'.control = state.control ∧
          state'.store.captureMode = state.store.captureMode ∧
          AggregateTable state'.store (addCall groups call)) ∨
        (¬ (call.WellTimed ∧ ((groups.lookup call.key).getD .fresh).Fits call) ∧
          state'.control.captureState = .failed ∧
          ∃ groups', AggregateTable state'.store groups' ∧
            ∀ key, (groups'.lookup key).map Totals.count = (groups.lookup key).map Totals.count)) := by
  by_cases htime : call.startNs = 0 ∨ call.endNs < call.startNs
  · refine ⟨{ state with control := state.control.rememberOutputError }, ?_,
      .inr (.inr ⟨?_, rfl, groups, h, fun _ => rfl⟩)⟩
    · rw [AgentState.aggregateActivity, if_neg (not_not.mpr hactive), if_pos htime]
    · rintro ⟨htimed, -⟩
      exact htime.elim htimed.started (not_lt.mpr htimed.ordered)
  obtain ⟨hstarted, hordered⟩ := not_or.mp htime
  have htimed : call.WellTimed := ⟨hstarted, not_lt.mp hordered⟩
  by_cases hfits : ((groups.lookup call.key).getD .fresh).Fits call
  · by_cases hroom : call.key ∈ groups ∨ groups.keys.card ≠ state.store.recordCapacity.toNat
    · obtain ⟨slots, hadds, htable⟩ := aggregateActivity_adds h hactive htimed hfits hroom
      exact ⟨_, hadds, .inr (.inl ⟨⟨htimed, hfits⟩, rfl, rfl, htable⟩)⟩
    · obtain ⟨hnew, hfull⟩ := not_or.mp hroom
      exact ⟨_, aggregateActivity_full h hactive htimed hnew (not_not.mp hfull), .inl rfl⟩
  -- only a group that has activities can refuse one more
  rw [aggregateActivity_eq h hactive htimed]
  cases hsearch : state.store.searchGroup call.key with
  | absent free =>
    rw [Finmap.lookup_eq_none.mpr (h.not_mem_of_absent hsearch), Option.getD_none] at hfits
    exact absurd (Totals.fits_fresh call) hfits
  | present index =>
    obtain ⟨slot, totals, hslot, hvalid, hlive, hlookup, hreplace, -⟩ := h.of_present hsearch
    obtain ⟨hused, hkey, htotals⟩ := AggregateSlot.of_view_live hlive
    rw [hlookup, Option.getD_some, ← htotals] at hfits hcount
    obtain ⟨slot', hupdate, hcount', hkey', hstate', hvalid'⟩ :=
      updateSlot_overflow hcount hfits state index
    refine ⟨state.updateSlot index slot call, by dsimp only; rw [hslot, Option.map_some],
      .inr (.inr ⟨?_, by rw [hupdate]; rfl, groups.insert call.key slot'.totals, ?_, ?_⟩)⟩
    · rintro ⟨-, hboth⟩
      rw [hlookup, Option.getD_some, ← htotals] at hboth
      exact hfits hboth
    · rw [hupdate]
      apply hreplace (hvalid' hvalid)
      rw [AggregateSlot.view_used (hstate' ▸ hused), hkey', hkey]
    · intro key
      by_cases hsame : key = call.key
      · rw [hsame, Finmap.lookup_insert, hlookup, ← htotals]
        exact congrArg some hcount'
      · rw [Finmap.lookup_insert_of_ne _ hsame]

/-! ## Runs -/

/-- A table without groups, in an array that fits in memory. What the slots held before does not
    matter. -/
structure EmptyAggregateTable (store : CaptureStore) : Prop where
  capacity_ne : store.recordCapacity ≠ 0
  capacity_le : store.recordCapacity.toNat ≤ usizeMax / aggregateSlotSize
  length_slots : store.aggregateSlots.length = store.recordCapacity.toNat
  unused : ∀ slot ∈ store.aggregateSlots, slot.state = 0
  committed : store.committedRecordCount = 0

theorem EmptyAggregateTable.aggregateTable {store : CaptureStore} (h : EmptyAggregateTable store) :
    AggregateTable store (summary []) := by
  refine .of_unused h.capacity_ne ?_ h.length_slots fun slot hmem =>
    ⟨.inl (h.unused slot hmem), AggregateSlot.view_unused (h.unused slot hmem)⟩
  have hle := h.capacity_le
  simp only [usizeMax, aggregateSlotSize] at hle
  omega

/-- What some calls leave behind that all found a group or room for one. -/
structure Aggregated (start : AgentState) (calls : List AggregateCall) (state : AgentState) :
    Prop where
  control : state.control = start.control
  store : ∃ slots committed, state.store =
    { start.store with aggregateSlots := slots, committedRecordCount := committed }
  table : AggregateTable state.store (summary calls)
  committed : state.store.committedRecordCount.toNat = (summary calls).keys.card

theorem aggregateActivities_concat (state : AgentState) (calls : List AggregateCall)
    (call : AggregateCall) :
    state.aggregateActivities (calls ++ [call]) =
      (state.aggregateActivities calls).bind (AgentState.aggregateActivity · call) := by
  induction calls generalizing state with
  | nil => cases h : state.aggregateActivity call <;> simp [AgentState.aggregateActivities, h]
  | cons first rest ih =>
    rw [List.cons_append, AgentState.aggregateActivities, AgentState.aggregateActivities,
      Option.bind_assoc]
    congr 1
    funext next
    exact ih next

theorem getD_lookup_summary (calls : List AggregateCall) (key : AggregateKey) :
    ((summary calls).lookup key).getD .fresh = Totals.ofCalls (callsWith key calls) := by
  rw [lookup_summary]
  split_ifs with hmem
  · rfl
  · rw [callsWith_eq_nil_iff.mpr hmem]
    rfl

theorem keys_summary_concat (calls : List AggregateCall) (call : AggregateCall) :
    (summary (calls ++ [call])).keys = insert call.key (summary calls).keys := by
  rw [keys_summary, keys_summary]
  ext key
  simp

/-- Calls that need no more groups than there are slots are all added to their groups. -/
theorem aggregated_run {start : AgentState} (hempty : EmptyAggregateTable start.store)
    (hactive : start.control.captureState = .active) (htimed : ∀ call ∈ calls, call.WellTimed)
    (hbounded : ∀ key, Totals.Bounded (callsWith key calls))
    (hroom : (summary calls).keys.card ≤ start.store.recordCapacity.toNat) :
    ∃ state, start.aggregateActivities calls = some state ∧ Aggregated start calls state := by
  induction calls using List.reverseRecOn with
  | nil =>
    refine ⟨start, rfl, rfl, ⟨_, _, rfl⟩, hempty.aggregateTable, ?_⟩
    rw [hempty.committed]
    rfl
  | append_singleton calls call ih =>
    have hkeys := keys_summary_concat calls call
    have hsubset : (summary calls).keys.card ≤ (summary (calls ++ [call])).keys.card := by
      rw [hkeys]
      exact Finset.card_le_card (Finset.subset_insert _ _)
    have hbefore : ∀ key, Totals.Bounded (callsWith key calls) := by
      intro key
      by_cases hkey : call.key = key
      · have hboth := hbounded key
        rw [← hkey, callsWith_concat_self] at hboth
        exact hkey ▸ hboth.left
      · rw [← callsWith_concat_of_ne hkey]
        exact hbounded key
    obtain ⟨state, hrun, hstate⟩ := ih
      (fun other hmem => htimed other (List.mem_append_left _ hmem)) hbefore (hsubset.trans hroom)
    obtain ⟨slots, committed, hstore⟩ := hstate.store
    have hcapacity : state.store.recordCapacity = start.store.recordCapacity := by rw [hstore]
    -- the totals of the group, which may be a new one, take one more activity
    have hfits : (((summary calls).lookup call.key).getD .fresh).Fits call := by
      rw [getD_lookup_summary]
      apply (Totals.exact_ofCalls (hbefore call.key)).fits
      rw [← callsWith_concat_self]
      exact hbounded call.key
    have hcard : (summary (calls ++ [call])).keys.card =
        (summary calls).keys.card + if call.key ∉ summary calls then 1 else 0 := by
      rw [hkeys]
      by_cases hmem : call.key ∈ summary calls
      · rw [if_neg (not_not.mpr hmem), Finset.insert_eq_of_mem (Finmap.mem_keys.mpr hmem), add_zero]
      · rw [if_pos hmem, Finset.card_insert_of_notMem (fun h => hmem (Finmap.mem_keys.mp h))]
    have hspace : call.key ∈ summary calls ∨
        (summary calls).keys.card ≠ state.store.recordCapacity.toNat := by
      by_cases hmem : call.key ∈ summary calls
      · exact .inl hmem
      · rw [if_pos hmem] at hcard
        right
        rw [hcapacity]
        omega
    obtain ⟨slots', hstep, htable⟩ := aggregateActivity_adds hstate.table
      (hstate.control ▸ hactive) (htimed call (by simp)) hfits hspace
    refine ⟨{ state with
        store := state.store.withGroup slots' (decide (call.key ∉ summary calls)) },
      ?_, hstate.control, ?_, ?_, ?_⟩
    · rw [aggregateActivities_concat, hrun, Option.bind_some, hstep]
    · exact ⟨slots', _, by rw [hstore]; rfl⟩
    · rw [summary_concat]
      exact htable
    · -- the count of committed groups cannot wrap, as it is at most the capacity
      have hlt := start.store.recordCapacity.toNat_lt
      have hcommitted := hstate.committed
      show (state.store.committedRecordCount + _).toNat = _
      rw [UInt64.toNat_add, hcommitted, hcard]
      by_cases hmem : call.key ∈ summary calls
      · simp only [hmem, not_true_eq_false, decide_false, Bool.false_eq_true, if_false]
        exact Nat.mod_eq_of_lt (by simp; omega)
      · simp only [hmem, not_false_eq_true, decide_true, if_true]
        rw [if_pos hmem] at hcard
        exact Nat.mod_eq_of_lt (by simp; omega)

end Xprobe.Cupti
