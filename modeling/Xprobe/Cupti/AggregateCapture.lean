import Xprobe.Cupti.AgentSteps
import Xprobe.Cupti.Aggregate

/-!
# Captures of aggregates

What the collector decodes from a capture that the agent wrote in aggregate mode: one group for each
key of the activities, with the exact totals of its activities.

The decoder refuses a record without activities, with a mean outside its minimum and maximum, or with
a kernel name that is empty or not UTF-8. `Describes` says what a group must tell about the
activities with a key; the totals of real activities pass every check.
-/

namespace Xprobe.Cupti

open Foundation Protocol OpenAddressing

/-! ## The used slots of a table -/

variable {slot : AggregateSlot} {calls : List AggregateCall} {activities : List GpuActivity}

theorem AggregateSlot.Valid.isUsed_iff (h : slot.Valid) : slot.isUsed = true ↔ slot.state ≠ 0 := by
  rw [AggregateSlot.isUsed, decide_eq_true_eq]
  rcases h with hstate | ⟨hstate, -⟩
  · rw [hstate]
    decide
  · rw [hstate]
    exact iff_of_true (aggregateHash_ge_two _ _ _ _) (aggregateHash_ne_zero _ _ _ _)

namespace AggregateTable

variable {store : CaptureStore} {groups : Groups} (h : AggregateTable store groups)

include h

/-- A used slot stores the totals of its key. -/
theorem lookup_of_used (hmem : slot ∈ store.aggregateSlots) (hused : slot.isUsed = true) :
    groups.lookup slot.key = some slot.totals := by
  obtain ⟨index, hindex, hslot⟩ := List.mem_iff_getElem.mp hmem
  have hslot := (List.getElem?_eq_getElem hindex).trans (congrArg some hslot)
  apply (h.holds.lookup slot.key slot.totals).mpr
  refine ⟨index, h.length_slots ▸ hindex, ?_⟩
  rw [slotAt_of_getElem? hslot]
  exact AggregateSlot.view_used ((h.valid slot hmem).isUsed_iff.mp hused)

/-- Each key of the groups has a used slot. -/
theorem exists_used_of_mem {key : AggregateKey} (hkey : key ∈ groups) :
    ∃ slot ∈ store.aggregateSlots, slot.isUsed = true ∧ slot.key = key := by
  obtain ⟨totals, hlookup⟩ := Finmap.mem_iff.mp hkey
  obtain ⟨index, hindex, hlive⟩ := (h.holds.lookup key totals).mp hlookup
  obtain ⟨slot, hslot, hvalid, hview⟩ := h.getElem?_of_lt hindex
  obtain ⟨hused, hslotKey, -⟩ := AggregateSlot.of_view_live (hview.symm.trans hlive)
  exact ⟨slot, List.mem_of_getElem? hslot, hvalid.isUsed_iff.mpr hused, hslotKey⟩

/-- The used slots have different keys. -/
theorem nodup_keys : ((store.aggregateSlots.filter AggregateSlot.isUsed).map
    AggregateSlot.key).Nodup := by
  rw [List.Nodup, List.pairwise_map, List.pairwise_filter, List.pairwise_iff_getElem]
  intro i j hi hj hij hi' hj' hkey
  -- the two slots are at different indices of the table
  have hview : ∀ k, ∀ hk : k < store.aggregateSlots.length,
      store.aggregateSlots[k].isUsed = true →
      (slotAt AggregateSlot.view store.aggregateSlots k).key? = some store.aggregateSlots[k].key := by
    intro k hk hused
    rw [slotAt_of_getElem? (List.getElem?_eq_getElem hk), AggregateSlot.view_used
      ((h.valid _ (List.getElem_mem hk)).isUsed_iff.mp hused)]
    rfl
  have hsame := h.holds.unique i (h.length_slots ▸ hi) j (h.length_slots ▸ hj) _ (hview i hi hi')
    (hkey ▸ hview j hj hj')
  exact absurd hsame hij.ne

theorem mem_keys_iff {key : AggregateKey} :
    key ∈ (store.aggregateSlots.filter AggregateSlot.isUsed).map AggregateSlot.key ↔
      key ∈ groups := by
  rw [List.mem_map]
  refine ⟨?_, fun hkey => ?_⟩
  · rintro ⟨slot, hslot, rfl⟩
    obtain ⟨hmem, hused⟩ := List.mem_filter.mp hslot
    exact Finmap.mem_iff.mpr ⟨slot.totals, h.lookup_of_used hmem hused⟩
  · obtain ⟨slot, hmem, hused, hslotKey⟩ := h.exists_used_of_mem hkey
    exact ⟨slot, List.mem_filter.mpr ⟨hmem, hused⟩, hslotKey⟩

/-- There are as many used slots as groups. -/
theorem length_used :
    (store.aggregateSlots.filter AggregateSlot.isUsed).length = groups.keys.card := by
  have hkeys : ((store.aggregateSlots.filter AggregateSlot.isUsed).map
      AggregateSlot.key).toFinset = groups.keys := by
    ext key
    rw [List.mem_toFinset, h.mem_keys_iff, Finmap.mem_keys]
  rw [← hkeys, List.toFinset_card_of_nodup h.nodup_keys, List.length_map]

end AggregateTable

/-! ## Observed records -/

variable {slots : List AggregateSlot}

/-- The loop of `aggregate_observed_records`, when the sum does not overflow. -/
theorem sumCounts_eq {observed : UInt64} (h : observed.toNat +
      ((slots.filter AggregateSlot.isUsed).map (·.count.toNat)).sum < 2 ^ 64) :
    ∃ total, sumCounts slots observed = some total ∧ total.toNat = observed.toNat +
      ((slots.filter AggregateSlot.isUsed).map (·.count.toNat)).sum := by
  induction slots generalizing observed with
  | nil => exact ⟨observed, rfl, rfl⟩
  | cons slot rest ih =>
    rw [sumCounts]
    by_cases hused : slot.isUsed = true
    · rw [List.filter_cons_of_pos hused, List.map_cons, List.sum_cons] at h ⊢
      have hadd : checkedAdd observed slot.count = some (observed + slot.count) :=
        checkedAdd_eq_some.mpr ⟨by omega, rfl⟩
      have hnat := toNat_of_checkedAdd hadd
      obtain ⟨total, hsum, htotal⟩ := @ih (observed + slot.count) (by omega)
      refine ⟨total, ?_, by omega⟩
      rw [if_pos hused, hadd, Option.bind_some, hsum]
    · rw [List.filter_cons_of_neg hused] at h ⊢
      rw [if_neg hused]
      exact ih h

private theorem sum_map_ite_eq_count (keys : List AggregateKey) (key : AggregateKey) :
    (keys.map (fun other => if key = other then 1 else 0)).sum = keys.count key := by
  induction keys with
  | nil => rfl
  | cons other rest ih =>
    rw [List.map_cons, List.sum_cons, ih, List.count_cons, Nat.add_comm]
    by_cases hkey : key = other
    · simp [hkey]
    · simp [hkey, Ne.symm hkey]

/-- The activities of different keys are different ones. -/
theorem sum_callsWith_le {keys : List AggregateKey} (h : keys.Nodup) (calls : List AggregateCall) :
    (keys.map (fun key => (callsWith key calls).length)).sum ≤ calls.length := by
  induction calls with
  | nil => simp [callsWith]
  | cons call rest ih =>
    have hsplit : ∀ key, (callsWith key (call :: rest)).length =
        (if call.key = key then 1 else 0) + (callsWith key rest).length := by
      intro key
      simp only [callsWith, List.filter_cons]
      by_cases hkey : call.key = key <;> simp [hkey, Nat.add_comm]
    -- the new activity counts for its own key only
    have hone : (keys.map (fun key => if call.key = key then 1 else 0)).sum ≤ 1 := by
      rw [sum_map_ite_eq_count]
      exact List.nodup_iff_count_le_one.mp h call.key
    simp only [hsplit, List.sum_map_add, List.length_cons]
    omega

/-! ## Decoding a slot -/

/-- The bytes hold the fields of a slot at the decoder's offsets. -/
structure SlotLayout (bytes : List UInt8) (slot : AggregateSlot) : Prop where
  count : readU64 bytes 0 = slot.count
  totalDurationNs : readU64 bytes 8 = slot.totalDurationNs
  minDurationNs : readU64 bytes 16 = slot.minDurationNs
  maxDurationNs : readU64 bytes 24 = slot.maxDurationNs
  totalBytes : readU64 bytes 32 = slot.totalBytes
  kind : readU32 bytes 40 = slot.kind
  deviceId : readU32 bytes 44 = slot.deviceId
  memcpyKind : readU32 bytes 48 = slot.memcpyKind
  name : sliceAt bytes 72 nameLength = slot.name

theorem AggregateSlot.length_encode (slot : AggregateSlot) : slot.encode.length = recordSize := by
  simp [AggregateSlot.encode, slot.name_length, recordSize, nameLength]

theorem AggregateSlot.layout_encode (slot : AggregateSlot) : SlotLayout slot.encode slot := by
  constructor
  case name =>
    simp only [AggregateSlot.encode, ← List.append_assoc]
    exact sliceAt_name (by simp) slot.name_length
  all_goals simp [AggregateSlot.encode, readU32_append, readU64_append]

def CuptiAggregateActivity.startKind : CuptiAggregateActivity → RecordKind
  | .kernel => .gpuKernelStart
  | .memcpy => .gpuMemcpyStart
  | .memset => .gpuMemsetStart

theorem aggregateActivity_startKind (activity : CuptiAggregateActivity) :
    aggregateActivity activity.startKind.code =
      some (activity, decide (activity = .kernel), decide (activity ≠ .kernel)) := by
  cases activity <;> rfl

def AggregateSlot.group (slot : AggregateSlot) (activity : CuptiAggregateActivity) (text : String) :
    CuptiAggregateGroup :=
  { activity
    name := if activity = .kernel then some text else none
    nameComplete :=
      if activity = .kernel then some (decide ((cString slot.name).length + 1 < nameLength)) else none
    deviceId := optionalUnknown slot.deviceId
    memcpyKind :=
      if activity = .memcpy then some (decodeSemanticMemcpyKind slot.memcpyKind) else none
    count := slot.count
    totalDurationNs := slot.totalDurationNs
    minDurationNs := slot.minDurationNs
    maxDurationNs := slot.maxDurationNs
    totalBytes := if activity = .kernel then none else some slot.totalBytes }

theorem decodeAggregateRecord_of_layout {bytes : List UInt8} (hlayout : SlotLayout bytes slot)
    (hcount : slot.count ≠ 0) (hdurations : slot.minDurationNs ≤ slot.maxDurationNs ∧
      slot.minDurationNs ≤ slot.totalDurationNs / slot.count ∧
      slot.totalDurationNs / slot.count ≤ slot.maxDurationNs) {activity : CuptiAggregateActivity}
    (hkind : slot.kind = activity.startKind.code) {text : String}
    (htext : utf8Bytes text = cString slot.name) (hname : activity = .kernel → text ≠ "")
    (index : Nat) :
    decodeAggregateRecord bytes index = .ok (slot.group activity text) := by
  have hnamed : ¬(decide (activity = .kernel) = true ∧ text = "") := by
    rw [decide_eq_true_eq]
    exact fun h => hname h.1 h.2
  have hutf8 : fromUtf8 (cString slot.name) = some text := by
    rw [← htext, fromUtf8_utf8Bytes]
  simp only [decodeAggregateRecord, hlayout.count, hlayout.totalDurationNs, hlayout.minDurationNs,
    hlayout.maxDurationNs, hlayout.totalBytes, hlayout.kind, hlayout.deviceId, hlayout.memcpyKind,
    hlayout.name, hkind, aggregateActivity_startKind, hutf8, okOr_some, ok_bind, ensure_of hcount,
    ensure_of hdurations, ensure_of hnamed]
  cases activity <;> rfl

/-! ## What a group tells -/

/-- The group stands for the key, with the exact totals of the activities with this key. -/
structure Describes (calls : List AggregateCall) (key : AggregateKey)
    (group : CuptiAggregateGroup) : Prop where
  activity : group.activity.startKind.code = key.1
  device : group.deviceId = optionalUnknown key.2.1
  memcpyKind : group.memcpyKind =
    if group.activity = .memcpy then some (decodeSemanticMemcpyKind key.2.2.1) else none
  name : group.name.map utf8Bytes = if group.activity = .kernel then some key.2.2.2 else none
  nameComplete : group.nameComplete =
    if group.activity = .kernel then some (decide (key.2.2.2.length + 1 < nameLength)) else none
  count : group.count.toNat = (callsWith key calls).length
  duration : group.totalDurationNs.toNat = ((callsWith key calls).map (·.durationNs.toNat)).sum
  least : IsLeast {d | d ∈ (callsWith key calls).map AggregateCall.durationNs} group.minDurationNs
  greatest :
    IsGreatest {d | d ∈ (callsWith key calls).map AggregateCall.durationNs} group.maxDurationNs
  bytes : group.totalBytes.map UInt64.toNat =
    if group.activity = .kernel then none
    else some ((callsWith key calls).map (·.bytes.toNat)).sum

/-- The mean of exact totals lies between the minimum and the maximum, also as the decoder computes
    it. -/
theorem Totals.Exact.mean {totals : Totals} (h : totals.Exact calls) (hne : calls ≠ []) :
    totals.count ≠ 0 ∧ totals.minDurationNs ≤ totals.maxDurationNs ∧
      totals.minDurationNs ≤ totals.totalDurationNs / totals.count ∧
      totals.totalDurationNs / totals.count ≤ totals.maxDurationNs := by
  have hpos : 0 < totals.count.toNat := by
    rw [h.count]
    exact List.length_pos_of_ne_nil hne
  -- the total is between as many minima and as many maxima
  have hlower : totals.minDurationNs.toNat * totals.count.toNat ≤ totals.totalDurationNs.toNat := by
    rw [h.count, h.duration, Nat.mul_comm]
    have hsum := List.card_nsmul_le_sum (calls.map (·.durationNs.toNat)) totals.minDurationNs.toNat
      (by
        intro n hn
        obtain ⟨call, hcall, rfl⟩ := List.mem_map.mp hn
        exact UInt64.le_iff_toNat_le.mp (h.le_durations call hcall))
    simpa using hsum
  have hupper : totals.totalDurationNs.toNat ≤ totals.maxDurationNs.toNat * totals.count.toNat := by
    rw [h.count, h.duration, Nat.mul_comm]
    have hsum := List.sum_le_card_nsmul (calls.map (·.durationNs.toNat)) totals.maxDurationNs.toNat
      (by
        intro n hn
        obtain ⟨call, hcall, rfl⟩ := List.mem_map.mp hn
        exact UInt64.le_iff_toNat_le.mp (h.durations_le call hcall))
    simpa using hsum
  refine ⟨?_, ?_, ?_, ?_⟩
  · intro hzero
    rw [hzero] at hpos
    exact absurd hpos (by decide)
  · obtain ⟨call, hcall, hleast⟩ := h.least hne
    rw [← hleast]
    exact h.durations_le call hcall
  · rw [UInt64.le_iff_toNat_le, UInt64.toNat_div]
    exact (Nat.le_div_iff_mul_le hpos).mpr hlower
  · rw [UInt64.le_iff_toNat_le, UInt64.toNat_div]
    exact Nat.div_le_of_le_mul (by rw [Nat.mul_comm]; exact hupper)

/-- What the callers of `aggregate_activity` pass for an activity, with a name that the collector can
    decode. -/
inductive AggregateCall.OfActivity (call : AggregateCall) : CuptiAggregateActivity → Prop where
  | kernel (name : List UInt8) (text : String) (hkind : call.kind = RecordKind.gpuKernelStart.code)
      (hname : call.name = some name) (htext : utf8Bytes text = keptName name) (hne : text ≠ "") :
      call.OfActivity .kernel
  | memcpy (hkind : call.kind = RecordKind.gpuMemcpyStart.code) (hname : call.name = none) :
      call.OfActivity .memcpy
  | memset (hkind : call.kind = RecordKind.gpuMemsetStart.code) (hname : call.name = none) :
      call.OfActivity .memset

/-- A GPU activity, as it is passed to `aggregate_activity`. -/
structure GpuActivity where
  call : AggregateCall
  activity : CuptiAggregateActivity
  timed : call.WellTimed
  isActivity : call.OfActivity activity

/-- The name of an activity is text, and the kind of the call is that of the activity. -/
theorem AggregateCall.OfActivity.text {call : AggregateCall} {activity : CuptiAggregateActivity}
    (h : call.OfActivity activity) :
    call.kind = activity.startKind.code ∧
      ∃ text, utf8Bytes text = call.keyName ∧ (activity = .kernel → text ≠ "") := by
  cases h with
  | kernel name text hkind hname htext hne =>
    refine ⟨hkind, text, ?_, fun _ => hne⟩
    rw [AggregateCall.keyName, hname]
    exact htext
  | memcpy hkind hname =>
    refine ⟨hkind, "", ?_, fun h => by cases h⟩
    rw [AggregateCall.keyName, hname]
    rfl
  | memset hkind hname =>
    refine ⟨hkind, "", ?_, fun h => by cases h⟩
    rw [AggregateCall.keyName, hname]
    rfl

/-- A used slot of a table that summarises activities is decoded to the group of its key. -/
theorem describes_of_used {store : CaptureStore}
    (h : AggregateTable store (summary (activities.map GpuActivity.call)))
    (hbounded : ∀ key, Totals.Bounded (callsWith key (activities.map GpuActivity.call)))
    (hmem : slot ∈ store.aggregateSlots) (hused : slot.isUsed = true) (index : Nat) :
    ∃ group, decodeAggregateRecord slot.encode index = .ok group ∧
      Describes (activities.map GpuActivity.call) slot.key group := by
  have hlookup := h.lookup_of_used hmem hused
  have hoccurs : slot.key ∈ (activities.map GpuActivity.call).map AggregateCall.key :=
    mem_summary.mp (Finmap.mem_iff.mpr ⟨_, hlookup⟩)
  rw [lookup_summary, if_pos hoccurs, Option.some.injEq] at hlookup
  have hexact := Totals.exact_ofCalls (hbounded slot.key)
  rw [hlookup] at hexact
  have hne : callsWith slot.key (activities.map GpuActivity.call) ≠ [] :=
    fun hnil => callsWith_eq_nil_iff.mp hnil hoccurs
  obtain ⟨hcount, hdurations⟩ := hexact.mean hne
  -- some activity has the key of the slot, and so its kind and its name
  obtain ⟨call, hcall, hkey⟩ := List.mem_map.mp hoccurs
  obtain ⟨gpuActivity, -, rfl⟩ := List.mem_map.mp hcall
  obtain ⟨hkind, text, htext, hname⟩ := gpuActivity.isActivity.text
  simp only [AggregateCall.key, AggregateSlot.key, Prod.mk.injEq] at hkey
  have hterminated : keptName slot.name = cString slot.name := by
    rcases h.valid slot hmem with hunused | ⟨-, hlength⟩
    · exact absurd hunused ((h.valid slot hmem).isUsed_iff.mp hused)
    · rw [keptName, List.take_of_length_le (by omega)]
  rw [hkey.2.2.2, hterminated] at htext
  refine ⟨slot.group gpuActivity.activity text,
    decodeAggregateRecord_of_layout slot.layout_encode hcount hdurations (hkey.1 ▸ hkind) htext
      hname index, ?_⟩
  refine
    { activity := (hkey.1 ▸ hkind).symm
      device := rfl
      memcpyKind := rfl
      name := ?_
      nameComplete := ?_
      count := hexact.count
      duration := hexact.duration
      least := ?_
      greatest := ?_
      bytes := ?_ }
  · simp only [AggregateSlot.group, AggregateSlot.key, hterminated, ← htext]
    split_ifs <;> rfl
  · simp only [AggregateSlot.group, AggregateSlot.key, hterminated]
  · obtain ⟨call, hmem, hleast⟩ := hexact.least hne
    refine ⟨List.mem_map.mpr ⟨call, hmem, hleast⟩, fun duration hduration => ?_⟩
    obtain ⟨other, hother, rfl⟩ := List.mem_map.mp hduration
    exact hexact.le_durations other hother
  · obtain ⟨call, hmem, hgreatest⟩ := hexact.greatest hne
    refine ⟨List.mem_map.mpr ⟨call, hmem, hgreatest⟩, fun duration hduration => ?_⟩
    obtain ⟨other, hother, rfl⟩ := List.mem_map.mp hduration
    exact hexact.durations_le other hother
  · by_cases hkernel : gpuActivity.activity = .kernel
    · simp [AggregateSlot.group, hkernel]
    · simp [AggregateSlot.group, hkernel, ← hexact.bytes, AggregateSlot.totals]

/-! ## The written capture -/

/-- Consecutive slots are decoded to the groups of their keys. -/
theorem decodeRecords_of_used {store : CaptureStore}
    (h : AggregateTable store (summary (activities.map GpuActivity.call)))
    (hbounded : ∀ key, Totals.Bounded (callsWith key (activities.map GpuActivity.call)))
    (hslots : ∀ slot ∈ slots, slot ∈ store.aggregateSlots ∧ slot.isUsed = true) (index : Nat) :
    ∃ groups, decodeRecords decodeAggregateRecord (slots.map AggregateSlot.encode) index =
        .ok groups ∧
      List.Forall₂ (Describes (activities.map GpuActivity.call)) (slots.map AggregateSlot.key)
        groups := by
  induction slots generalizing index with
  | nil => exact ⟨[], rfl, .nil⟩
  | cons slot rest ih =>
    obtain ⟨hmem, hused⟩ := hslots slot List.mem_cons_self
    obtain ⟨group, hgroup, hdescribes⟩ := describes_of_used h hbounded hmem hused index
    obtain ⟨groups, hgroups, hrest⟩ :=
      ih (fun other hother => hslots other (List.mem_cons_of_mem _ hother)) (index + 1)
    refine ⟨group :: groups, ?_, .cons hdescribes hrest⟩
    rw [List.map_cons, decodeRecords, hgroup, ok_bind, hgroups, ok_bind]
    rfl

variable {answers : RequestAnswers} {state : AgentState}

/-- The header and the slots that are written in aggregate mode. -/
theorem writeCapture_aggregate (hmode : state.store.captureMode = CaptureMode.aggregate.code)
    (hlength : state.store.aggregateSlots.length = state.store.recordCapacity.toNat) :
    (writeCapture answers state 0).1 =
      .sent ((initializeOutputHeader answers state 0).1.encode ++
        ((state.store.aggregateSlots.filter AggregateSlot.isUsed).map
          AggregateSlot.encode).flatten) := by
  have hoffset : ¬ ((state.store.captureMode = CaptureMode.aggregate.code ∧ (0 : UInt64) ≠ 0) ∨
      state.store.committedRecordCount < 0) := by
    rw [not_or]
    exact ⟨fun h => h.2 rfl, UInt64.not_lt_zero⟩
  have htake : state.store.aggregateSlots.take state.store.recordCapacity.toNat =
      state.store.aggregateSlots := List.take_of_length_le hlength.le
  simp only [writeCapture]
  rw [if_neg hoffset, if_pos hmode, if_neg (not_lt.mpr hlength.ge), htake]

/-- The state in which an aggregate capture begins: it is active, its table is empty and nothing was
    dropped. -/
structure AggregateStart (state : AgentState) : Prop where
  table : EmptyAggregateTable state.store
  mode : state.store.captureMode = CaptureMode.aggregate.code
  active : state.control.captureState = .active
  dropped : state.store.agentDroppedRecords = 0

/-- A capture in aggregate mode starts so. -/
theorem aggregateStart_of_allocateCapture {answers : AllocatorAnswers} {capacity : UInt64}
    {needsNvtx : Bool} {store store' : CaptureStore} {control : AgentControl}
    (h : allocateCapture answers capacity needsNvtx store = some store')
    (hmode : store.captureMode = CaptureMode.aggregate.code)
    (hactive : control.captureState = .active) :
    AggregateStart { store := store'.reset, control } := by
  obtain ⟨hfits, -, rfl⟩ := allocateCapture_eq_some h
  simp only [capacityFits, decide_eq_true_eq] at hfits
  refine ⟨⟨hfits.1, hfits.2.2.1 hmode, ?_, ?_, rfl⟩, hmode, hactive, rfl⟩
  · simp [CaptureStore.reset, hmode]
  · intro slot hmem
    simp only [CaptureStore.reset, hmode, if_true] at hmem
    obtain ⟨slot', -, rfl⟩ := List.mem_map.mp hmem
    rfl

/-- No counter overflows: neither a total of one key, nor the number of all activities. -/
structure NoOverflow (calls : List AggregateCall) : Prop where
  count : calls.length < 2 ^ 64
  duration : ∀ key, ((callsWith key calls).map (·.durationNs.toNat)).sum < 2 ^ 64
  bytes : ∀ key, ((callsWith key calls).map (·.bytes.toNat)).sum < 2 ^ 64

theorem NoOverflow.bounded (h : NoOverflow calls) (key : AggregateKey) :
    Totals.Bounded (callsWith key calls) where
  count := lt_of_le_of_lt (List.length_filter_le _ _) h.count
  duration := h.duration key
  bytes := h.bytes key

/-- The counts of the used slots are those of their keys, so there are at least as many activities as
    groups, and their number does not overflow. -/
theorem aggregateObservedRecords_eq {store : CaptureStore}
    (h : AggregateTable store (summary calls)) (hoverflow : NoOverflow calls)
    (hdropped : store.agentDroppedRecords = 0) :
    ∃ observed, store.aggregateObservedRecords = some observed ∧
      (store.aggregateSlots.filter AggregateSlot.isUsed).length ≤ observed.toNat := by
  have hcounts : ∀ slot ∈ store.aggregateSlots.filter AggregateSlot.isUsed,
      slot.count.toNat = (callsWith slot.key calls).length ∧ 1 ≤ slot.count.toNat := by
    intro slot hslot
    obtain ⟨hmem, hused⟩ := List.mem_filter.mp hslot
    have hlookup := h.lookup_of_used hmem hused
    have hoccurs : slot.key ∈ calls.map AggregateCall.key :=
      mem_summary.mp (Finmap.mem_iff.mpr ⟨_, hlookup⟩)
    rw [lookup_summary, if_pos hoccurs, Option.some.injEq] at hlookup
    have hexact := Totals.exact_ofCalls (hoverflow.bounded slot.key)
    rw [hlookup] at hexact
    have hcount : slot.count.toNat = (callsWith slot.key calls).length := hexact.count
    refine ⟨hcount, ?_⟩
    rw [hcount]
    exact List.length_pos_of_ne_nil (fun hnil => callsWith_eq_nil_iff.mp hnil hoccurs)
  -- each used slot counts the calls of its key, and the keys are distinct
  have hsum : ((store.aggregateSlots.filter AggregateSlot.isUsed).map (·.count.toNat)).sum ≤
      calls.length := by
    rw [List.map_congr_left (fun slot hslot => (hcounts slot hslot).1)]
    have hle := sum_callsWith_le h.nodup_keys calls
    rwa [List.map_map] at hle
  have hlength : (store.aggregateSlots.filter AggregateSlot.isUsed).length ≤
      ((store.aggregateSlots.filter AggregateSlot.isUsed).map (·.count.toNat)).sum := by
    have hle := List.card_nsmul_le_sum
      ((store.aggregateSlots.filter AggregateSlot.isUsed).map (·.count.toNat)) 1
      (by
        intro n hn
        obtain ⟨slot, hslot, rfl⟩ := List.mem_map.mp hn
        exact (hcounts slot hslot).2)
    simpa using hle
  have hzero : (0 : UInt64).toNat = 0 := rfl
  have hcount := hoverflow.count
  -- so the checked sum over the slots does not overflow
  obtain ⟨total, htotal, hnat⟩ := @sumCounts_eq store.aggregateSlots 0 (by omega)
  have hadd : checkedAdd total 0 = some (total + 0) :=
    checkedAdd_eq_some.mpr ⟨by rw [hzero]; exact total.toNat_lt, rfl⟩
  refine ⟨total + 0, ?_, ?_⟩
  · rw [CaptureStore.aggregateObservedRecords, List.take_of_length_le h.length_slots.le, htotal,
      Option.bind_some, hdropped, hadd]
  · rw [UInt64.add_zero]
    omega

/-- The header of a capture in aggregate mode, when the observed records do not overflow. -/
theorem initializeOutputHeader_aggregate {observed : UInt64}
    (hmode : state.store.captureMode = CaptureMode.aggregate.code)
    (hobserved : state.store.aggregateObservedRecords = some observed) :
    (initializeOutputHeader answers state 0).1 =
      { featureFlags := (featureFlagsOf answers state.store state.control).1
        captureState := state.control.captureState.code
        stopReason := state.control.stopReason.code
        recordCount := state.store.committedRecordCount
        recordCapacity := state.store.recordCapacity
        observedRecords := observed
        agentDroppedRecords := state.store.agentDroppedRecords
        cuptiDroppedRecords := state.store.cuptiDroppedRecords
        unknownRecords := state.store.unknownRecords
        recordOffset := 0 } := by
  have hcounted : observedRecordsOf state.store state.control = (observed, state.control) := by
    rw [observedRecordsOf, if_pos hmode, hobserved]
  have hcontrol : (featureFlagsOf answers state.store state.control).2 = state.control := by
    rw [featureFlagsOf, if_pos hmode]
  simp only [initializeOutputHeader, hcounted, hcontrol, UInt64.sub_zero]

/-- A header in aggregate mode and the slots it announces are accepted when the slots are. -/
theorem decodeCapture_slots {header : OutputHeader} {state : CaptureState} {reason : StopReason}
    {bytes : Slice UInt8}
    (hbytes : bytes.toList = header.encode ++ (slots.map AggregateSlot.encode).flatten)
    (hsupported : header.featureFlags &&& ~~~supportedFeatures = 0)
    (haggregate : hasFeature header.featureFlags featureAggregateRecords = true)
    (hstate : header.captureState = state.code) (hreason : header.stopReason = reason.code)
    (hoffset : header.recordOffset = 0) (hcount : header.recordCount.toNat = slots.length)
    (hcapacity : slots.length ≤ header.recordCapacity.toNat)
    (hobserved : slots.length ≤ header.observedRecords.toNat)
    (hdrops : header.agentDroppedRecords.toNat + header.cuptiDroppedRecords.toNat < 2 ^ 64)
    {groups : List CuptiAggregateGroup}
    (hgroups : decodeRecords decodeAggregateRecord (slots.map AggregateSlot.encode) 0 = .ok groups)
    (sessionId : String) :
    ∃ capture, decodeCapture bytes.toList sessionId = .ok capture ∧
      capture.aggregateGroups = groups := by
  have hlayout : HeaderLayout bytes.toList header := by
    rw [hbytes]
    exact header.layout_encode _
  have hpieces : ∀ piece ∈ slots.map AggregateSlot.encode, piece.length = recordSize := by
    intro piece hpiece
    obtain ⟨slot, -, rfl⟩ := List.mem_map.mp hpiece
    exact slot.length_encode
  have hpayload : decodePayload bytes.toList header.recordOffset sessionId header.featureFlags =
      .ok ([], groups) := by
    rw [decodePayload, if_pos haggregate, hbytes, ← header.length_encode, List.drop_left,
      chunksExact_flatten (by decide) hpieces, hgroups, ok_bind]
    rfl
  have hlength : bytes.toList.length = headerSize + header.recordCount.toNat * recordSize := by
    rw [hbytes, List.length_append, header.length_encode, length_flatten_of_forall hpieces,
      List.length_map, hcount]
  have hzero : (0 : UInt64).toNat = 0 := rfl
  have hconsistent : ConsistentHeader header state reason :=
    ⟨hsupported, hstate, hreason, by rw [hoffset, hzero, hcount]; omega,
      by rw [hoffset, hzero, hcount]; omega, hdrops, fun h => h.2 hoffset⟩
  exact ⟨_, decodeCapture_of_layout hconsistent hlayout hlength hpayload, rfl⟩

/-- Groups that tell of each key of the activities once. -/
def DescribesAll (activities : List GpuActivity) (groups : List CuptiAggregateGroup) : Prop :=
  ∃ keys : List AggregateKey, keys.Nodup ∧
    (∀ key, key ∈ keys ↔ ∃ activity ∈ activities, activity.call.key = key) ∧
    List.Forall₂ (Describes (activities.map GpuActivity.call)) keys groups

/-- The capture that is written after activities that all found room is accepted, with one group for
    each of their keys. -/
theorem decode_aggregated {start : AgentState} (hstart : AggregateStart start)
    (hstate : Aggregated start (activities.map GpuActivity.call) state)
    (hoverflow : NoOverflow (activities.map GpuActivity.call)) {bytes : Slice UInt8}
    (hsent : (writeCapture answers state 0).1 = .sent bytes.toList) (sessionId : String) :
    ∃ capture, decodeCapture bytes.toList sessionId = .ok capture ∧
      DescribesAll activities capture.aggregateGroups := by
  obtain ⟨slots, committed, hstore⟩ := hstate.store
  have hmode : state.store.captureMode = CaptureMode.aggregate.code := by
    rw [hstore]
    exact hstart.mode
  have hdropped : state.store.agentDroppedRecords = 0 := by
    rw [hstore]
    exact hstart.dropped
  have htable := hstate.table
  have hcommitted := hstate.committed
  rw [← htable.length_used] at hcommitted
  have hfits : (state.store.aggregateSlots.filter AggregateSlot.isUsed).length ≤
      state.store.recordCapacity.toNat := by
    rw [← htable.length_slots]
    exact List.length_filter_le _ _
  -- the checks of the decoder on the counters of the header, then on each record
  obtain ⟨observed, hobserved, hle⟩ := aggregateObservedRecords_eq htable hoverflow hdropped
  obtain ⟨groups, hgroups, hdescribes⟩ := decodeRecords_of_used htable hoverflow.bounded
    (fun slot hslot => List.mem_filter.mp hslot) 0
  rw [writeCapture_aggregate hmode htable.length_slots,
    initializeOutputHeader_aggregate hmode hobserved] at hsent
  have hbytes := (WriteOutcome.sent.inj hsent).symm
  obtain ⟨capture, hdecode, hcapture⟩ := decodeCapture_slots hbytes
    (featureFlagsOf_supported _ _ _) (featureFlagsOf_aggregate hmode) rfl rfl rfl
    hcommitted hfits hle
    (by
      show state.store.agentDroppedRecords.toNat + _ < _
      rw [hdropped]
      have hlt := state.store.cuptiDroppedRecords.toNat_lt
      simpa using hlt) hgroups sessionId
  refine ⟨capture, hdecode, _, htable.nodup_keys, fun key => ?_, hcapture ▸ hdescribes⟩
  rw [htable.mem_keys_iff, mem_summary]
  simp

/-- For activities in an aggregate capture: while their keys do not exceed the capacity, the written
    capture is accepted and has one group for each key, with the exact totals of its activities; and
    once the table is full, an activity with a new key is dropped, reaches the limit and changes no
    group. -/
theorem aggregateActivities_exact (answers : RequestAnswers) (start : AgentState)
    (hstart : AggregateStart start) (activities : List GpuActivity) (sessionId : String)
    (hoverflow : NoOverflow (activities.map GpuActivity.call))
    (hkeys : (activities.map (·.call.key)).toFinset.card ≤ start.store.recordCapacity.toNat) :
    ∃ state, start.aggregateActivities (activities.map GpuActivity.call) = some state ∧
      (∃ bytes, (writeCapture answers state 0).1 = .sent bytes ∧
        ∀ slice : Slice UInt8, slice.toList = bytes →
          ∃ capture, decodeCapture slice.toList sessionId = .ok capture ∧
            DescribesAll activities capture.aggregateGroups) ∧
      ∀ activity : GpuActivity, activity.call.key ∉ activities.map (·.call.key) →
        (activities.map (·.call.key)).toFinset.card = start.store.recordCapacity.toNat →
        ∃ state', state.aggregateActivity activity.call = some state' ∧
          state'.store =
            { state.store with agentDroppedRecords := state.store.agentDroppedRecords + 1 } ∧
          state'.control.captureState = .limitReached ∧
          state'.control.stopReason = .recordLimit := by
  have hcard : (summary (activities.map GpuActivity.call)).keys.card =
      (activities.map (·.call.key)).toFinset.card := by
    rw [keys_summary, List.map_map]
    rfl
  have htimed : ∀ call ∈ activities.map GpuActivity.call, call.WellTimed := by
    intro call hcall
    obtain ⟨activity, -, rfl⟩ := List.mem_map.mp hcall
    exact activity.timed
  -- the run stores the summary of the calls, and only the slots and their number change
  obtain ⟨state, hrun, hstate⟩ := aggregated_run hstart.table hstart.active htimed
    hoverflow.bounded (hcard ▸ hkeys)
  obtain ⟨slots, committed, hstore⟩ := hstate.store
  have hmode : state.store.captureMode = CaptureMode.aggregate.code := by
    rw [hstore]
    exact hstart.mode
  refine ⟨state, hrun, ⟨_, writeCapture_aggregate hmode hstate.table.length_slots, ?_⟩, ?_⟩
  · intro slice hslice
    have hsent : (writeCapture answers state 0).1 = .sent slice.toList := by
      rw [hslice]
      exact writeCapture_aggregate hmode hstate.table.length_slots
    exact decode_aggregated hstart hstate hoverflow hsent sessionId
  · intro activity hnew hfull
    have hcapacity : state.store.recordCapacity = start.store.recordCapacity := by rw [hstore]
    have hstep := aggregateActivity_full hstate.table (hstate.control ▸ hstart.active)
      activity.timed
      (fun hmem => hnew (by
        have hoccurs := mem_summary.mp hmem
        rwa [List.map_map] at hoccurs))
      (by rw [hcard, hcapacity, hfull])
    exact ⟨_, hstep, rfl, rfl, rfl⟩

/-- No counter overflows when the totals of all activities fit. -/
theorem noOverflow_of_sum (hcount : calls.length < 2 ^ 64)
    (hduration : (calls.map (·.durationNs.toNat)).sum < 2 ^ 64)
    (hbytes : (calls.map (·.bytes.toNat)).sum < 2 ^ 64) : NoOverflow calls where
  count := hcount
  duration _ := lt_of_le_of_lt
    ((List.filter_sublist.map _).sum_le_sum (fun _ _ => Nat.zero_le _)) hduration
  bytes _ := lt_of_le_of_lt
    ((List.filter_sublist.map _).sum_le_sum (fun _ _ => Nat.zero_le _)) hbytes

/-- A kernel `k` on the first device. -/
def smallKernel (startNs endNs : UInt64) (hstart : startNs ≠ 0) (hend : startNs ≤ endNs) :
    GpuActivity where
  call :=
    { kind := RecordKind.gpuKernelStart.code, deviceId := 0, memcpyKind := 0, name := some [107, 0]
      startNs, endNs, bytes := 0 }
  activity := .kernel
  timed := ⟨hstart, hend⟩
  isActivity := .kernel [107, 0] "k" rfl rfl (by decide) (by decide)

/-- The agent after it was armed to aggregate up to two groups of kernels. -/
def aggregateAgent : AgentState := runCommand willingEnvironment (armKernels .aggregate 2) idleAgent

/-- Two kernels of one name, 5 and 9 nanoseconds long, make one group. -/
theorem aggregateActivities_exact_kernels : ∃ state, aggregateAgent.aggregateActivities
        ([smallKernel 10 15 (by decide) (by decide),
          smallKernel 20 29 (by decide) (by decide)].map GpuActivity.call) = some state ∧
      ∃ bytes, (writeCapture willingEnvironment state 0).1 = .sent bytes ∧
        ∀ slice : Slice UInt8, slice.toList = bytes →
          ∃ capture, decodeCapture slice.toList "s" = .ok capture ∧
            DescribesAll [smallKernel 10 15 (by decide) (by decide),
              smallKernel 20 29 (by decide) (by decide)] capture.aggregateGroups := by
  have hstart : AggregateStart aggregateAgent :=
    ⟨⟨by decide, by decide, by decide, by decide, by decide⟩, by decide, by decide, by decide⟩
  obtain ⟨state, hrun, hsent, -⟩ := aggregateActivities_exact willingEnvironment aggregateAgent
    hstart [smallKernel 10 15 (by decide) (by decide), smallKernel 20 29 (by decide) (by decide)]
    "s" (noOverflow_of_sum (by decide) (by decide) (by decide)) (by decide)
  exact ⟨state, hrun, hsent⟩

end Xprobe.Cupti
