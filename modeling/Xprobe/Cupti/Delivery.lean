import Xprobe.Cupti.NameMatch
import Xprobe.Cupti.AggregateCapture
import Xprobe.Cupti.ExactStore

/-!
# Delivered activities

What the agent does with the activities in a buffer that CUPTI hands over
(`activity_buffer_completed` in `cupti/src/cupti_agent.c`). Kernels, copies and sets of memory are
treated alike: an activity that started during the capture and that a filter accepts is added to its
group in aggregate mode, and recorded by its start and its end in exact mode. There a record is
filtered once more, by its own fields.

`DeviceActivity` is what the three kinds have in common, with the relation between an activity and
the records made of it. The loop ends where CUPTI has no more activities; an error of CUPTI in
between is not part of the model.
-/

namespace Xprobe.Cupti

open Foundation

/-! ## Activities -/

/-- The fields of CUPTI's copy activity that the agent reads. -/
structure MemcpyActivity where
  deviceId : UInt32
  contextId : UInt32
  streamId : UInt32
  correlationId : UInt32
  runtimeCorrelationId : UInt32
  bytes : UInt64
  copyKind : UInt8
  start : UInt64
  finish : UInt64

/-- The fields of CUPTI's memset activity that the agent reads. -/
structure MemsetActivity where
  deviceId : UInt32
  contextId : UInt32
  streamId : UInt32
  correlationId : UInt32
  bytes : UInt64
  value : UInt32
  start : UInt64
  finish : UInt64

inductive ActivityRecord where
  | kernel (activity : KernelActivity)
  | memcpy (activity : MemcpyActivity)
  | memset (activity : MemsetActivity)
  | unknown

/-- `set_transfer_bytes`. -/
def Record.setTransferBytes (record : Record) (bytes : UInt64) : Record :=
  { record with gridX := bytes.toUInt32, gridY := (bytes >>> 32).toUInt32 }

/-- The record that `enqueue_memcpy_record` makes of one boundary of a copy. -/
def memcpyRecord (agent : AgentProcess) (tid : UInt32) (memcpy : MemcpyActivity)
    (kind : RecordKind) (timestampNs : UInt64) : Record :=
  { ({ initializeRecord agent tid kind (agent.normalizeActivityTimestamp timestampNs) with
        deviceId := memcpy.deviceId
        contextId := memcpy.contextId
        streamId := memcpy.streamId
        correlationId := memcpy.correlationId
        runtimeCorrelationId := memcpy.runtimeCorrelationId } : Record).setTransferBytes
      memcpy.bytes with
    gridZ := memcpy.copyKind.toUInt32 }

/-- The record that `enqueue_memset_record` makes of one boundary of a memset. -/
def memsetRecord (agent : AgentProcess) (tid : UInt32) (memset : MemsetActivity)
    (kind : RecordKind) (timestampNs : UInt64) : Record :=
  { ({ initializeRecord agent tid kind (agent.normalizeActivityTimestamp timestampNs) with
        deviceId := memset.deviceId
        contextId := memset.contextId
        streamId := memset.streamId
        correlationId := memset.correlationId } : Record).setTransferBytes memset.bytes with
    blockX := memset.value }

/-! ## Selection -/

/-- `values_match_capture`. -/
def AgentControl.valuesMatchCapture (control : AgentControl)
    (firstKind secondKind apiDomain memcpyKind : UInt32) (name : Option (List UInt8)) : Bool :=
  !control.captureFilterEnabled ||
    [control.captureFilters.1, control.captureFilters.2].any (fun filter =>
      filterMatchesValues filter firstKind apiDomain memcpyKind name ||
        (secondKind != 0 && filterMatchesValues filter secondKind apiDomain memcpyKind name))

/-- `activity_started_during_capture`. -/
def activityStartedDuringCapture (agent : AgentProcess) (control : AgentControl)
    (timestampNs : UInt64) : Bool :=
  timestampNs != 0 &&
    decide (control.captureStartTimestampNs ≤ agent.normalizeActivityTimestamp timestampNs)

/-- A kernel, copy or memset, with the records that are made of its boundaries. -/
structure DeviceActivity (agent : AgentProcess) where
  startKind : RecordKind
  endKind : RecordKind
  deviceId : UInt32
  memcpyKind : UInt32
  name : Option (List UInt8)
  start : UInt64
  finish : UInt64
  bytes : UInt64
  record : RecordKind → UInt64 → Record
  pair : isActivityPair startKind.code endKind.code = true
  record_kind : ∀ kind timestampNs, (record kind timestampNs).kind = kind.code
  record_domain : ∀ kind timestampNs, (record kind timestampNs).callbackDomain = 0
  record_device : ∀ kind timestampNs, (record kind timestampNs).deviceId = deviceId
  record_name : ∀ kind timestampNs, (record kind timestampNs).name = copyName (name.getD [])
  record_copy : startKind = .gpuMemcpyStart → ∀ kind timestampNs,
    semanticMemcpyKind (record kind timestampNs).gridZ = memcpyKind
  no_copy : startKind ≠ .gpuMemcpyStart → memcpyKind = 0
  name_of_kernel : startKind ≠ .gpuKernelStart → name = none

theorem copyName_nil : copyName [] = List.replicate nameLength 0 := by
  simp [copyName, keptName, cString]

def KernelActivity.device (agent : AgentProcess) (tid : UInt32) (kernel : KernelActivity) :
    DeviceActivity agent where
  startKind := .gpuKernelStart
  endKind := .gpuKernelEnd
  deviceId := kernel.deviceId
  memcpyKind := 0
  name := some kernel.name
  start := kernel.start
  finish := kernel.finish
  bytes := 0
  record := kernelRecord agent tid kernel
  pair := by decide
  record_kind _ _ := rfl
  record_domain _ _ := rfl
  record_device _ _ := rfl
  record_name _ _ := rfl
  record_copy := nofun
  no_copy _ := rfl
  name_of_kernel h := absurd rfl h

def MemcpyActivity.device (agent : AgentProcess) (tid : UInt32) (memcpy : MemcpyActivity) :
    DeviceActivity agent where
  startKind := .gpuMemcpyStart
  endKind := .gpuMemcpyEnd
  deviceId := memcpy.deviceId
  memcpyKind := semanticMemcpyKind memcpy.copyKind.toUInt32
  name := none
  start := memcpy.start
  finish := memcpy.finish
  bytes := memcpy.bytes
  record := memcpyRecord agent tid memcpy
  pair := by decide
  record_kind _ _ := rfl
  record_domain _ _ := rfl
  record_device _ _ := rfl
  record_name _ _ := copyName_nil.symm
  record_copy _ _ _ := rfl
  no_copy h := absurd rfl h
  name_of_kernel _ := rfl

def MemsetActivity.device (agent : AgentProcess) (tid : UInt32) (memset : MemsetActivity) :
    DeviceActivity agent where
  startKind := .gpuMemsetStart
  endKind := .gpuMemsetEnd
  deviceId := memset.deviceId
  memcpyKind := 0
  name := none
  start := memset.start
  finish := memset.finish
  bytes := memset.bytes
  record := memsetRecord agent tid memset
  pair := by decide
  record_kind _ _ := rfl
  record_domain _ _ := rfl
  record_device _ _ := rfl
  record_name _ _ := copyName_nil.symm
  record_copy := nofun
  no_copy _ := rfl
  name_of_kernel _ := rfl

namespace DeviceActivity

variable {agent : AgentProcess}

/-- The call of `aggregate_activity` for the activity. -/
def call (activity : DeviceActivity agent) : AggregateCall :=
  { kind := activity.startKind.code
    deviceId := activity.deviceId
    memcpyKind := activity.memcpyKind
    name := activity.name
    startNs := agent.normalizeActivityTimestamp activity.start
    endNs := agent.normalizeActivityTimestamp activity.finish
    bytes := activity.bytes }

def startRecord (activity : DeviceActivity agent) : Record :=
  activity.record activity.startKind activity.start

def endRecord (activity : DeviceActivity agent) : Record :=
  activity.record activity.endKind activity.finish

/-- The activity started during the capture, and one of the filters accepts it. -/
def isSelected (activity : DeviceActivity agent) (control : AgentControl) : Bool :=
  activityStartedDuringCapture agent control activity.start &&
    control.valuesMatchCapture activity.startKind.code activity.endKind.code 0
      activity.memcpyKind activity.name

/-- What is done with one activity: nothing, or it is added to its group, or recorded. -/
def deliver (activity : DeviceActivity agent) (state : AgentState) : Option AgentState :=
  if !activity.isSelected state.control then some state
  else if state.store.captureMode = CaptureMode.aggregate.code then
    state.aggregateActivity activity.call
  else some (enqueueRecord (enqueueRecord state activity.startRecord) activity.endRecord)

end DeviceActivity

/-! ## The loop over a buffer -/

variable {state : AgentState} {record : ActivityRecord}

section Loop

variable (agent : AgentProcess) (tid : UInt32)

/-- `enqueue_kernel_activity`. -/
def enqueueKernelActivity (kernel : KernelActivity) (state : AgentState) : Option AgentState :=
  (kernel.device agent tid).deliver state

def ActivityRecord.device? : ActivityRecord → Option (DeviceActivity agent)
  | .kernel activity => some (activity.device agent tid)
  | .memcpy activity => some (activity.device agent tid)
  | .memset activity => some (activity.device agent tid)
  | .unknown => none

/-- The body of the loop of `activity_buffer_completed`. -/
def deliverActivity (state : AgentState) (record : ActivityRecord) : Option AgentState :=
  if state.control.captureState ≠ .active then some state
  else
    match record with
    | .kernel kernel => enqueueKernelActivity agent tid kernel state
    | .memcpy memcpy => (memcpy.device agent tid).deliver state
    | .memset memset => (memset.device agent tid).deliver state
    | .unknown =>
      some { state with
        store := { state.store with unknownRecords := state.store.unknownRecords + 1 } }

/-- The loop of `activity_buffer_completed`. -/
def activityBufferCompleted (state : AgentState) : List ActivityRecord → Option AgentState
  | [] => some state
  | record :: rest =>
    (deliverActivity agent tid state record).bind (activityBufferCompleted · rest)

def devicesOf (records : List ActivityRecord) : List (DeviceActivity agent) :=
  records.filterMap (ActivityRecord.device? agent tid)

variable {agent tid}

/-- Nothing is done after the capture has ended. -/
theorem activityBufferCompleted_of_inactive (h : state.control.captureState ≠ .active)
    (records : List ActivityRecord) :
    activityBufferCompleted agent tid state records = some state := by
  induction records with
  | nil => rfl
  | cons record rest ih =>
    rw [activityBufferCompleted, deliverActivity.eq_def, if_pos h]
    exact ih

theorem deliverActivity_of_device (h : state.control.captureState = .active)
    {activity : DeviceActivity agent} (hdevice : record.device? agent tid = some activity) :
    deliverActivity agent tid state record = activity.deliver state := by
  rw [deliverActivity.eq_def, if_neg (not_not.mpr h)]
  cases record with
  | kernel | memcpy | memset =>
    cases hdevice
    rfl
  | unknown => cases hdevice

theorem deliverActivity_of_unknown (h : state.control.captureState = .active)
    (hdevice : record.device? agent tid = none) :
    deliverActivity agent tid state record =
      some { state with
        store := { state.store with unknownRecords := state.store.unknownRecords + 1 } } := by
  rw [deliverActivity.eq_def, if_neg (not_not.mpr h)]
  cases record with
  | kernel | memcpy | memset => cases hdevice
  | unknown => rfl

end Loop

/-! ## Exact mode -/

section Exact

variable {agent : AgentProcess} {tid : UInt32}

/-- The records that exact mode keeps of an activity. -/
def DeviceActivity.kept (activity : DeviceActivity agent) (control : AgentControl) : List Record :=
  if activity.isSelected control then
    [activity.startRecord, activity.endRecord].filter control.filterMatches
  else []

/-- One activity in exact mode: the limit is reached, or its records are kept. -/
theorem DeviceActivity.deliver_exact (activity : DeviceActivity agent) {retained : List Record}
    (h : Retains state.store retained) (hmode : state.store.captureMode = CaptureMode.exact.code)
    (hactive : state.control.captureState = .active) :
    ∃ state', activity.deliver state = some state' ∧
      (state'.control.captureState = .limitReached ∨
        (state'.control = state.control ∧
          state'.store.captureMode = state.store.captureMode ∧
          Retains state'.store (retained ++ activity.kept state.control))) := by
  cases hselected : activity.isSelected state.control with
  | false =>
    refine ⟨state, by simp [deliver, hselected], .inr ⟨rfl, rfl, ?_⟩⟩
    simpa [kept, hselected] using h
  | true =>
    have hne : state.store.captureMode ≠ CaptureMode.aggregate.code := by
      rw [hmode]
      decide
    have hdeliver : activity.deliver state =
        some (enqueueRecord (enqueueRecord state activity.startRecord) activity.endRecord) := by
      simp [deliver, hselected, hne]
    refine ⟨_, hdeliver, ?_⟩
    -- the start is enqueued first; if it reaches the limit, the end is not looked at
    rcases enqueueRecord_retains h hactive activity.startRecord with
      hlimit | ⟨hcontrol, hsame, hstart⟩
    · left
      rw [enqueueRecord, if_pos (by rw [hlimit]; decide)]
      exact hlimit
    · rcases enqueueRecord_retains hstart (hcontrol ▸ hactive) activity.endRecord with
        hlimit | ⟨hcontrol', hsame', hend⟩
      · exact .inl hlimit
      · refine .inr ⟨hcontrol'.trans hcontrol, hsame'.trans hsame, ?_⟩
        rw [hcontrol, List.append_assoc, ← List.filter_append] at hend
        rw [kept, hselected, if_pos rfl]
        exact hend

/-- A buffer in exact mode that does not reach the limit: the records of its activities are kept. -/
theorem activityBufferCompleted_exact (records : List ActivityRecord) {retained : List Record}
    (h : Retains state.store retained) (hmode : state.store.captureMode = CaptureMode.exact.code)
    (hactive : state.control.captureState = .active) :
    ∃ state', activityBufferCompleted agent tid state records = some state' ∧
      (state'.control.captureState ≠ .limitReached → Retains state'.store
        (retained ++ (devicesOf agent tid records).flatMap (·.kept state.control))) := by
  induction records generalizing state retained with
  | nil => exact ⟨state, rfl, fun _ => by simpa [devicesOf] using h⟩
  | cons record rest ih =>
    rw [activityBufferCompleted]
    cases hdevice : record.device? agent tid with
    | none =>
      have hstore : Retains
          { state.store with unknownRecords := state.store.unknownRecords + 1 } retained :=
        ⟨h.length_records, h.recordCount, h.committed, h.fits, h.records, h.ready⟩
      rw [deliverActivity_of_unknown hactive hdevice, Option.bind_some, devicesOf,
        List.filterMap_cons_none hdevice]
      exact @ih { state with
        store := { state.store with unknownRecords := state.store.unknownRecords + 1 } } _
        hstore hmode hactive
    | some activity =>
      obtain ⟨next, hdeliver, hnext⟩ := activity.deliver_exact h hmode hactive
      rw [deliverActivity_of_device hactive hdevice, hdeliver, Option.bind_some, devicesOf,
        List.filterMap_cons_some hdevice, List.flatMap_cons]
      -- the capture ends at its limit, or goes on with what the activity left
      rcases hnext with hlimit | ⟨hcontrol, hsame, hretains⟩
      · refine ⟨next, activityBufferCompleted_of_inactive (by rw [hlimit]; decide) rest, ?_⟩
        exact fun hne => absurd hlimit hne
      · obtain ⟨state', hrun, hkept⟩ := ih hretains (hsame.trans hmode) (hcontrol ▸ hactive)
        refine ⟨state', hrun, fun hne => ?_⟩
        rw [← List.append_assoc, ← hcontrol]
        rw [← hcontrol] at hkept
        exact hkept hne

end Exact

/-! ## Aggregate mode -/

/-- The number of activities that the table has counted for a key. -/
def aggregateCount (store : CaptureStore) (key : AggregateKey) : Nat :=
  ((store.aggregateSlots.filter (fun slot => slot.isUsed && slot.key = key)).map
    (·.count.toNat)).sum

private theorem filter_eq_singleton {α β : Type} [DecidableEq β] {f : α → β} {l : List α}
    (h : (l.map f).Nodup) {a : α} (ha : a ∈ l) : l.filter (fun b => f b = f a) = [a] := by
  induction l with
  | nil => cases ha
  | cons b rest ih =>
    obtain ⟨hnew, hrest⟩ := List.nodup_cons.mp h
    rcases List.mem_cons.mp ha with rfl | hmem
    · have hnil : rest.filter (fun b => f b = f a) = [] := by
        rw [List.filter_eq_nil_iff]
        intro b hb heq
        exact hnew (List.mem_map.mpr ⟨b, hb, of_decide_eq_true heq⟩)
      simp [hnil]
    · have hne : f b ≠ f a := fun heq => hnew (heq ▸ List.mem_map_of_mem hmem)
      rw [List.filter_cons_of_neg (by simpa using hne)]
      exact ih hrest hmem

/-- The number counted for a key is that of its group. -/
theorem AggregateTable.aggregateCount_eq {store : CaptureStore} {groups : Groups}
    (h : AggregateTable store groups) (key : AggregateKey) :
    aggregateCount store key = ((groups.lookup key).map Totals.count).elim 0 UInt64.toNat := by
  have hsplit : store.aggregateSlots.filter (fun slot => slot.isUsed && slot.key = key) =
      (store.aggregateSlots.filter AggregateSlot.isUsed).filter (fun slot => slot.key = key) := by
    rw [List.filter_filter]
    congr 1
    funext slot
    rw [Bool.and_comm]
  rw [aggregateCount, hsplit]
  by_cases hkey : key ∈ groups
  · obtain ⟨slot, hmem, hused, rfl⟩ := h.exists_used_of_mem hkey
    rw [filter_eq_singleton h.nodup_keys (List.mem_filter.mpr ⟨hmem, hused⟩),
      h.lookup_of_used hmem hused]
    simp [AggregateSlot.totals]
  · have hnil : (store.aggregateSlots.filter AggregateSlot.isUsed).filter
        (fun slot => slot.key = key) = [] := by
      rw [List.filter_eq_nil_iff]
      intro slot hslot heq
      exact hkey (h.mem_keys_iff.mp (List.mem_map.mpr ⟨slot, hslot, of_decide_eq_true heq⟩))
    rw [hnil, Finmap.lookup_eq_none.mpr hkey]
    rfl

/-- The activity is counted: its times are in order, and with it the totals of its group still fit
    in their counters. -/
def isAccepted (earlier : List AggregateCall) (call : AggregateCall) : Bool :=
  call.startNs != 0 && decide (call.startNs ≤ call.endNs) &&
    decide (((callsWith call.key (earlier ++ [call])).map (·.durationNs.toNat)).sum < 2 ^ 64) &&
    decide (((callsWith call.key (earlier ++ [call])).map (·.bytes.toNat)).sum < 2 ^ 64)

/-- The activities that are counted: those before the first one that is not. -/
def acceptedCalls (earlier : List AggregateCall) : List AggregateCall → List AggregateCall
  | [] => []
  | call :: rest =>
    if isAccepted earlier call then call :: acceptedCalls (earlier ++ [call]) rest else []

section Accepted

variable {earlier : List AggregateCall} {call : AggregateCall}
  (hbounded : ∀ key, Totals.Bounded (callsWith key earlier))
  (hlength : earlier.length + 1 < 2 ^ 64)

include hlength

theorem isAccepted_iff_bounded : isAccepted earlier call = true ↔
      call.WellTimed ∧ Totals.Bounded (callsWith call.key (earlier ++ [call])) := by
  have hcount : (callsWith call.key (earlier ++ [call])).length < 2 ^ 64 := by
    refine lt_of_le_of_lt (List.length_filter_le _ _) ?_
    rwa [List.length_append, List.length_singleton]
  simp only [isAccepted, Bool.and_eq_true, bne_iff_ne, decide_eq_true_eq]
  refine ⟨?_, ?_⟩
  · rintro ⟨⟨⟨hstarted, hordered⟩, hduration⟩, hbytes⟩
    exact ⟨⟨hstarted, hordered⟩, hcount, hduration, hbytes⟩
  · rintro ⟨htimed, hall⟩
    exact ⟨⟨⟨htimed.started, htimed.ordered⟩, hall.duration⟩, hall.bytes⟩

include hbounded

/-- The activity is counted exactly when the slot of its group takes it. -/
theorem isAccepted_iff : isAccepted earlier call = true ↔
      call.WellTimed ∧ (((summary earlier).lookup call.key).getD .fresh).Fits call := by
  have hexact := Totals.exact_ofCalls (hbounded call.key)
  rw [isAccepted_iff_bounded hlength, getD_lookup_summary, callsWith_concat_self]
  refine and_congr_right fun _ => ⟨hexact.fits, fun hfits => ?_⟩
  have hadded := hexact.add hfits (fun hnil => by rw [hnil]; rfl)
  refine ⟨?_, ?_, ?_⟩
  · rw [← hadded.count]
    exact UInt64.toNat_lt _
  · rw [← hadded.duration]
    exact UInt64.toNat_lt _
  · rw [← hadded.bytes]
    exact UInt64.toNat_lt _

theorem bounded_of_isAccepted (h : isAccepted earlier call = true) (key : AggregateKey) :
    Totals.Bounded (callsWith key (earlier ++ [call])) := by
  by_cases hkey : call.key = key
  · rw [← hkey]
    exact ((isAccepted_iff_bounded hlength).mp h).2
  · rw [callsWith_concat_of_ne hkey]
    exact hbounded key

/-- One more activity does not overflow the count of its group. -/
theorem count_lookup_summary_lt :
    (((summary earlier).lookup call.key).getD .fresh).count.toNat + 1 < 2 ^ 64 := by
  rw [getD_lookup_summary, (Totals.exact_ofCalls (hbounded call.key)).count]
  exact lt_of_le_of_lt (Nat.add_le_add_right (List.length_filter_le _ _) 1) hlength

end Accepted

section Run

variable {agent : AgentProcess} {tid : UInt32}

/-- The calls of `aggregate_activity` for the selected activities. -/
def selectedCalls (agent : AgentProcess) (tid : UInt32) (control : AgentControl)
    (records : List ActivityRecord) : List AggregateCall :=
  ((devicesOf agent tid records).filter (·.isSelected control)).map (·.call)

theorem selectedCalls_of_unknown (h : record.device? agent tid = none) (control : AgentControl)
    (rest : List ActivityRecord) :
    selectedCalls agent tid control (record :: rest) = selectedCalls agent tid control rest := by
  rw [selectedCalls, devicesOf, List.filterMap_cons_none h]
  rfl

theorem selectedCalls_of_device {activity : DeviceActivity agent}
    (h : record.device? agent tid = some activity) (control : AgentControl)
    (rest : List ActivityRecord) :
    selectedCalls agent tid control (record :: rest) =
      if activity.isSelected control then activity.call :: selectedCalls agent tid control rest
      else selectedCalls agent tid control rest := by
  rw [selectedCalls, devicesOf, List.filterMap_cons_some h, List.filter_cons]
  split_ifs <;> rfl

theorem AggregateTable.aggregateCount_summary {store : CaptureStore} {calls : List AggregateCall}
    (h : AggregateTable store (summary calls))
    (hbounded : ∀ key, Totals.Bounded (callsWith key calls)) (key : AggregateKey) :
    aggregateCount store key = (callsWith key calls).length := by
  rw [h.aggregateCount_eq, lookup_summary]
  split_ifs with hmem
  · exact (Totals.exact_ofCalls (hbounded key)).count
  · rw [callsWith_eq_nil_iff.mpr hmem]
    rfl

/-- A buffer in aggregate mode that does not reach the limit: the accepted activities are
    counted. -/
theorem activityBufferCompleted_aggregate (records : List ActivityRecord)
    {earlier : List AggregateCall} (h : AggregateTable state.store (summary earlier))
    (hmode : state.store.captureMode = CaptureMode.aggregate.code)
    (hactive : state.control.captureState = .active)
    (hbounded : ∀ key, Totals.Bounded (callsWith key earlier))
    (hlength : earlier.length + records.length < 2 ^ 64) :
    ∃ state', activityBufferCompleted agent tid state records = some state' ∧
      (state'.control.captureState ≠ .limitReached → ∀ key,
        aggregateCount state'.store key = (callsWith key (earlier ++
          acceptedCalls earlier (selectedCalls agent tid state.control records))).length) := by
  induction records generalizing state earlier with
  | nil =>
    refine ⟨state, rfl, fun _ key => ?_⟩
    rw [selectedCalls, devicesOf, List.filterMap_nil, List.filter_nil, List.map_nil, acceptedCalls,
      List.append_nil]
    exact h.aggregateCount_summary hbounded key
  -- the table of `earlier` is the invariant; a call that is accepted extends it
  | cons record rest ih =>
    rw [List.length_cons] at hlength
    rw [activityBufferCompleted]
    cases hdevice : record.device? agent tid with
    -- a record of another kind only counts as unknown
    | none =>
      rw [deliverActivity_of_unknown hactive hdevice, Option.bind_some,
        selectedCalls_of_unknown hdevice]
      exact @ih { state with
          store := { state.store with unknownRecords := state.store.unknownRecords + 1 } } _
        h hmode hactive hbounded (by omega)
    | some activity =>
      rw [deliverActivity_of_device hactive hdevice, selectedCalls_of_device hdevice]
      cases hselected : activity.isSelected state.control with
      | false =>
        have hsame : activity.deliver state = some state := by
          simp [DeviceActivity.deliver, hselected]
        rw [if_neg Bool.false_ne_true, hsame, Option.bind_some]
        exact ih h hmode hactive hbounded (by omega)
      | true =>
        have hroom : earlier.length + 1 < 2 ^ 64 := by omega
        have hdeliver : activity.deliver state = state.aggregateActivity activity.call := by
          simp [DeviceActivity.deliver, hselected, hmode]
        obtain ⟨next, hnext, hcases⟩ := @aggregateActivity_cases activity.call _ _ h hactive
          (count_lookup_summary_lt hbounded hroom)
        rw [if_pos rfl, acceptedCalls, hdeliver, hnext, Option.bind_some]
        rw [← isAccepted_iff hbounded hroom] at hcases
        rcases hcases with hlimit | ⟨haccepted, hcontrol, hsame, htable⟩ |
          ⟨hrefused, hfailed, groups, htable, hcounts⟩
        -- a new group in a full table: nothing is promised of this capture
        · refine ⟨next, activityBufferCompleted_of_inactive (by rw [hlimit]; decide) rest, ?_⟩
          exact fun hne => absurd hlimit hne
        · rw [← summary_concat] at htable
          obtain ⟨state', hrun, hcounted⟩ := ih htable (hsame.trans hmode) (hcontrol ▸ hactive)
            (bounded_of_isAccepted hbounded hroom haccepted) (by simp; omega)
          refine ⟨state', hrun, fun hne key => ?_⟩
          rw [hcounted hne key, hcontrol, if_pos haccepted, List.append_assoc,
            List.singleton_append]
        · -- the capture has failed: what follows is not looked at
          refine ⟨next, activityBufferCompleted_of_inactive (by rw [hfailed]; decide) rest, ?_⟩
          intro _ key
          rw [if_neg hrefused, List.append_nil, htable.aggregateCount_eq, hcounts,
            ← h.aggregateCount_eq]
          exact h.aggregateCount_summary hbounded key

end Run

end Xprobe.Cupti
