import Xprobe.Cupti.AgentMemory
import Xprobe.Cupti.SlotTable

/-!
# The open NVTX ranges

The table of NVTX ranges that have started and not ended (`remember_nvtx_range` and `take_nvtx_range`
in `cupti/src/cupti_agent.c`), with its operations run one at a time.

The table is meant to be a finite map of bounded size from the kind and ID of a range to its start
thread and name. `Ranges` is that map; `RangeTable` says that the slots store it, and every operation
keeps it. A slot is empty in state 0, a tombstone in state 2, and in the state of its hash otherwise.
-/

namespace Xprobe.Cupti

open Foundation OpenAddressing

/-! ## Names -/

def isContinuation (byte : UInt8) : Bool := byte &&& 0xc0 == 0x80

def sequenceLength (first : UInt8) : Nat :=
  if first &&& 0xe0 = 0xc0 then 2
  else if first &&& 0xf0 = 0xe0 then 3
  else if first &&& 0xf8 = 0xf0 then 4
  else 1

/-- Where `copy_nvtx_name` cuts a name that was too long: before the last sequence, if that is
    incomplete. -/
def cutIndex (copied : List UInt8) : Nat :=
  let front := copied.rdropWhile isContinuation
  match front.getLast? with
  | none => copied.length
  | some first =>
    let lead := front.length - 1
    if sequenceLength first > copied.length - lead then lead else copied.length

/-- The text that `copy_nvtx_name` keeps of a name, and whether that is all of it. -/
def keptNvtxName : Option (List UInt8) → List UInt8 × Bool
  | none => ([], true)
  | some source =>
    let copied := keptName source
    if source[copied.length]? = some 0 then (copied, true)
    else (copied.take (cutIndex copied), false)

/-- `copy_nvtx_name`: the flag it returns, and the field it leaves. The bytes that were copied stay
    behind the terminator when the name is cut. -/
def copyNvtxName (destination : List UInt8) (source : Option (List UInt8)) : UInt32 × List UInt8 :=
  let copied := (source.map keptName).getD []
  let (text, complete) := keptNvtxName source
  (if complete then 1 else 0, writeText (copied ++ destination.drop copied.length) text)

theorem zero_not_mem_keptNvtxName (source : Option (List UInt8)) : 0 ∉ (keptNvtxName source).1 := by
  cases source with
  | none => simp [keptNvtxName]
  | some source =>
    have hkept := zero_not_mem_keptName source
    dsimp only [keptNvtxName]
    split_ifs
    · exact hkept
    · exact fun hmem => hkept (List.mem_of_mem_take hmem)

theorem length_keptNvtxName_le (source : Option (List UInt8)) :
    (keptNvtxName source).1.length ≤ ((source.map keptName).getD []).length := by
  cases source with
  | none => simp [keptNvtxName]
  | some source =>
    dsimp only [keptNvtxName]
    split_ifs
    · exact le_rfl
    · exact List.length_take_le' _ _

theorem length_copyNvtxName {destination : List UInt8} (h : destination.length = nameLength)
    (source : Option (List UInt8)) : (copyNvtxName destination source).2.length = nameLength := by
  have hcopied : ((source.map keptName).getD []).length < nameLength := by
    cases source with
    | none => decide
    | some source => exact length_keptName_lt source
  have hkept := length_keptNvtxName_le source
  rw [copyNvtxName, length_writeText]
  · simp only [List.length_append, List.length_drop, h]
    omega
  · simp only [List.length_append, List.length_drop, h]
    omega

/-- The field holds the kept text, whatever it held before. -/
theorem cString_copyNvtxName (destination : List UInt8) (source : Option (List UInt8)) :
    cString (copyNvtxName destination source).2 = (keptNvtxName source).1 :=
  cString_writeText _ (zero_not_mem_keptNvtxName source)

/-- A name of at most 127 bytes is kept as it is. -/
theorem keptNvtxName_of_short {name : List UInt8} (hzero : 0 ∉ name)
    (hlength : name.length < nameLength) (rest : List UInt8) :
    keptNvtxName (some (name ++ 0 :: rest)) = (name, true) := by
  have hkept : keptName (name ++ 0 :: rest) = name := by
    rw [keptName, cString_append_nul hzero, List.take_of_length_le (by omega)]
  simp only [keptNvtxName, hkept]
  rw [if_pos (by simp)]

/-! ## Model -/

/-- `XPROBE_NVTX_SLOT_TOMBSTONE`. -/
def slotTombstone : UInt64 := 2

/-- `nvtx_range_hash`. The states of slots without a range are never hashes. -/
def nvtxRangeHash (rangeKind : UInt32) (rangeId : UInt64) : UInt64 :=
  let hash := fnvHash (leU64 rangeKind.toUInt64 ++ leU64 rangeId)
  if hash ≤ slotTombstone then hash + (slotTombstone + 1) else hash

/-- `nvtx_range_key_matches`. -/
def nvtxRangeKeyMatches (slot : NvtxRangeSlot) (rangeKind : UInt32) (rangeId : UInt64) : Bool :=
  slot.rangeKind == rangeKind && slot.rangeId == rangeId

/-- `nvtx_range_capacity_reached`. -/
def nvtxRangeCapacityReached (state : AgentState) : AgentState :=
  { state.dropRecord with control := state.control.reachLimit }

/-- The loop of `remember_nvtx_range`. Nothing is returned for an index outside the array. -/
def findRangeSlot (slots : List NvtxRangeSlot) (hash : UInt64) (rangeKind : UInt32)
    (rangeId : UInt64) : List Nat → Option Nat → Option Location
  | [], candidate => some (.absent candidate)
  | index :: rest, candidate =>
    match slots[index]? with
    | none => none
    | some slot =>
      if slot.state = hash ∧ nvtxRangeKeyMatches slot rangeKind rangeId = true then
        some (.present index)
      else if slot.state = slotTombstone ∧ candidate = none then
        findRangeSlot slots hash rangeKind rangeId rest (some index)
      else if slot.state = 0 then
        some (.absent (if candidate = none then some index else candidate))
      else findRangeSlot slots hash rangeKind rangeId rest candidate

def NvtxRangeSlot.write (slot : NvtxRangeSlot) (hash : UInt64) (rangeKind : UInt32)
    (rangeId : UInt64) (startTid : UInt32) (name : Option (List UInt8)) : NvtxRangeSlot :=
  { state := hash
    rangeId
    rangeKind
    startTid
    nameComplete := (copyNvtxName slot.name name).1
    name := (copyNvtxName slot.name name).2
    name_length := length_copyNvtxName slot.name_length name }

def AgentState.setRangeSlot (state : AgentState) (index : Nat) (slot : NvtxRangeSlot) :
    AgentState :=
  { state with
    store :=
      { state.store with nvtxRangeSlots := state.store.nvtxRangeSlots.set index slot } }

/-- `remember_nvtx_range`: whether it succeeds, and the state after it. Nothing is returned when it
    divides by zero or leaves the array. -/
def rememberNvtxRange (state : AgentState) (rangeKind : UInt32) (rangeId : UInt64)
    (startTid : UInt32) (name : Option (List UInt8)) : Option (Bool × AgentState) :=
  let slots := state.store.nvtxRangeSlots
  let capacity := state.store.nvtxRangeCapacity
  let hash := nvtxRangeHash rangeKind rangeId
  if capacity = 0 then none
  else
    match findRangeSlot slots hash rangeKind rangeId (probeIndices hash capacity) none with
    | none => none
    | some (.present _) => some (false, state.dropRecord)
    | some (.absent none) => some (false, nvtxRangeCapacityReached state)
    | some (.absent (some index)) =>
      match slots[index]? with
      | none => none
      | some slot =>
        if slot.state = 0 ∨ slot.state = slotTombstone then
          some (true,
            state.setRangeSlot index (slot.write hash rangeKind rangeId startTid name))
        else some (false, state.dropRecord)

/-- The loop of `take_nvtx_range`: the index of the slot of the range. -/
def findTakenSlot (slots : List NvtxRangeSlot) (hash : UInt64) (rangeKind : UInt32)
    (rangeId : UInt64) : List Nat → Option (Option Nat)
  | [] => some none
  | index :: rest =>
    match slots[index]? with
    | none => none
    | some slot =>
      if slot.state = 0 then some none
      else if slot.state ≠ hash ∨ nvtxRangeKeyMatches slot rangeKind rangeId = false then
        findTakenSlot slots hash rangeKind rangeId rest
      else some (some index)

/-- The record that `take_nvtx_range` makes of a slot. -/
def rangeEndRecord (agent : AgentProcess) (tid : UInt32) (slot : NvtxRangeSlot) (rangeKind : UInt32)
    (rangeId timestampNs : UInt64) : Record :=
  { initializeRecord agent tid .nvtxRangeEnd timestampNs with
    gridX := rangeId.toUInt32
    gridY := (rangeId >>> 32).toUInt32
    gridZ := rangeKind
    blockX := slot.startTid
    blockY := slot.nameComplete
    name := slot.name
    name_length := slot.name_length }

/-- `take_nvtx_range`, called by a thread when the monotonic clock gives an answer: the record, if it
    succeeds, and the state after it. -/
def takeNvtxRange (agent : AgentProcess) (state : AgentState) (rangeKind : UInt32)
    (rangeId : UInt64) (tid : UInt32) (clock : Option UInt64) :
    Option (Option Record × AgentState) :=
  let slots := state.store.nvtxRangeSlots
  let capacity := state.store.nvtxRangeCapacity
  let hash := nvtxRangeHash rangeKind rangeId
  if capacity = 0 then none
  else
    match findTakenSlot slots hash rangeKind rangeId (probeIndices hash capacity) with
    | none => none
    | some none => some (none, state)
    | some (some index) =>
      match slots[index]? with
      | none => none
      | some slot =>
        let taken := state.setRangeSlot index { slot with state := slotTombstone }
        match clock with
        | none => some (none, { taken with control := taken.control.rememberOutputError })
        | some timestampNs =>
          some (some (rangeEndRecord agent tid slot rangeKind rangeId timestampNs), taken)

/-! ## The map that the table stores -/

/-- The kind and the ID of a range. -/
abbrev RangeKey := UInt32 × UInt64

/-- What is remembered of a range: the thread that started it, its name as a reader of the field sees
    it, and whether that is the whole name. -/
structure NvtxRange where
  startTid : UInt32
  name : List UInt8
  nameComplete : UInt32
  deriving DecidableEq

abbrev Ranges := Finmap (fun _ : RangeKey => NvtxRange)

/-- The range that `remember_nvtx_range` is asked to remember. -/
def NvtxRange.of (startTid : UInt32) (name : Option (List UInt8)) : NvtxRange :=
  { startTid
    name := (keptNvtxName name).1
    nameComplete := if (keptNvtxName name).2 then 1 else 0 }

def NvtxRangeSlot.range (slot : NvtxRangeSlot) : NvtxRange :=
  { startTid := slot.startTid, name := cString slot.name, nameComplete := slot.nameComplete }

/-- What the state of a slot says about it. -/
def NvtxRangeSlot.view (slot : NvtxRangeSlot) : Slot RangeKey NvtxRange :=
  if slot.state = 0 then .empty
  else if slot.state = slotTombstone then .tombstone
  else .live (slot.rangeKind, slot.rangeId) slot.range

def NvtxRangeSlot.Valid (slot : NvtxRangeSlot) : Prop :=
  slot.state = 0 ∨ slot.state = slotTombstone ∨
    slot.state = nvtxRangeHash slot.rangeKind slot.rangeId

def rangeHash (key : RangeKey) : UInt64 := nvtxRangeHash key.1 key.2

abbrev RangeTable (store : CaptureStore) (ranges : Ranges) : Prop :=
  Table NvtxRangeSlot.view NvtxRangeSlot.Valid rangeHash store.nvtxRangeCapacity
    store.nvtxRangeSlots ranges

abbrev CaptureStore.searchRange (store : CaptureStore) (key : RangeKey) : Location :=
  search NvtxRangeSlot.view rangeHash store.nvtxRangeCapacity store.nvtxRangeSlots key

/-! ### Slots -/

variable {slot : NvtxRangeSlot}

theorem NvtxRangeSlot.view_empty (h : slot.state = 0) : slot.view = .empty := by
  rw [NvtxRangeSlot.view, if_pos h]

theorem NvtxRangeSlot.view_tombstone (h : slot.state = slotTombstone) : slot.view = .tombstone := by
  have hne : slot.state ≠ 0 := by
    rw [h]
    decide
  rw [NvtxRangeSlot.view, if_neg hne, if_pos h]

theorem NvtxRangeSlot.view_live (hempty : slot.state ≠ 0)
    (htombstone : slot.state ≠ slotTombstone) :
    slot.view = .live (slot.rangeKind, slot.rangeId) slot.range := by
  rw [NvtxRangeSlot.view, if_neg hempty, if_neg htombstone]

theorem slotTombstone_lt_nvtxRangeHash (rangeKind : UInt32) (rangeId : UInt64) :
    slotTombstone < nvtxRangeHash rangeKind rangeId := by
  dsimp only [nvtxRangeHash]
  split_ifs with h
  · have htwo : slotTombstone.toNat = 2 := rfl
    have hthree : (slotTombstone + 1).toNat = 3 := rfl
    rw [UInt64.le_iff_toNat_le, htwo] at h
    rw [UInt64.lt_iff_toNat_lt, UInt64.toNat_add, htwo, hthree]
    omega
  · exact not_le.mp h

theorem nvtxRangeHash_ne_zero (rangeKind : UInt32) (rangeId : UInt64) :
    nvtxRangeHash rangeKind rangeId ≠ 0 := by
  intro h
  have hlt := slotTombstone_lt_nvtxRangeHash rangeKind rangeId
  rw [h] at hlt
  exact absurd hlt (by decide)

theorem nvtxRangeKeyMatches_iff {rangeKind : UInt32} {rangeId : UInt64} :
    nvtxRangeKeyMatches slot rangeKind rangeId = true ↔
      (slot.rangeKind, slot.rangeId) = (rangeKind, rangeId) := by
  simp [nvtxRangeKeyMatches]

/-- The test of both loops on a slot: it stores the range. -/
theorem NvtxRangeSlot.Valid.matches_iff (h : slot.Valid) {rangeKind : UInt32} {rangeId : UInt64} :
    slot.state = nvtxRangeHash rangeKind rangeId ∧
        nvtxRangeKeyMatches slot rangeKind rangeId = true ↔
      slot.view.key? = some (rangeKind, rangeId) := by
  have htombstone := (slotTombstone_lt_nvtxRangeHash rangeKind rangeId).ne'
  rw [nvtxRangeKeyMatches_iff]
  rcases h with hstate | hstate | hstate
  · rw [NvtxRangeSlot.view_empty hstate, hstate]
    simp [Slot.key?, (nvtxRangeHash_ne_zero rangeKind rangeId).symm]
  · rw [NvtxRangeSlot.view_tombstone hstate, hstate]
    simp [Slot.key?, htombstone.symm]
  · -- a slot in the state of its hash stores its own range
    have hslot := (slotTombstone_lt_nvtxRangeHash slot.rangeKind slot.rangeId).ne'
    have hempty := nvtxRangeHash_ne_zero slot.rangeKind slot.rangeId
    rw [NvtxRangeSlot.view_live (hstate ▸ hempty) (hstate ▸ hslot), Slot.key?, Option.some.injEq]
    refine ⟨fun hmatch => hmatch.2, fun hkey => ⟨?_, hkey⟩⟩
    rw [hstate, (Prod.mk.inj hkey).1, (Prod.mk.inj hkey).2]

theorem NvtxRangeSlot.range_of_view_live {key : RangeKey} {range : NvtxRange}
    (h : slot.view = .live key range) : range = slot.range := by
  rw [NvtxRangeSlot.view] at h
  split_ifs at h
  cases h
  rfl

/-! ### The loops are searches -/

section Loops

variable {slots : List NvtxRangeSlot} (hvalid : ∀ slot ∈ slots, slot.Valid) (rangeKind : UInt32)
  (rangeId : UInt64)

include hvalid

theorem findRangeSlot_eq_locate {path : List Nat} (hpath : ∀ index ∈ path, index < slots.length)
    (candidate : Option Nat) :
    findRangeSlot slots (nvtxRangeHash rangeKind rangeId) rangeKind rangeId path candidate =
      some (locate (slotAt NvtxRangeSlot.view slots) (rangeKind, rangeId) path candidate) := by
  induction path generalizing candidate with
  | nil => rfl
  | cons index rest ih =>
    have hrest := ih (fun i hi => hpath i (List.mem_cons_of_mem _ hi))
    obtain ⟨slot, hslot⟩ : ∃ slot, slots[index]? = some slot :=
      ⟨_, List.getElem?_eq_getElem (hpath index List.mem_cons_self)⟩
    have hmatches : _ ↔ slot.view.key? = some (rangeKind, rangeId) :=
      (hvalid slot (List.mem_of_getElem? hslot)).matches_iff
    rw [findRangeSlot, hslot, locate, slotAt_of_getElem? hslot]
    dsimp only
    -- the state decides between an empty slot, a tombstone and a range
    by_cases hempty : slot.state = 0
    · have hview := NvtxRangeSlot.view_empty hempty
      have htombstone : ¬ (slot.state = slotTombstone ∧ candidate = none) := by
        rw [hempty]
        exact fun h => absurd h.1 (by decide)
      rw [hview] at hmatches ⊢
      rw [if_neg (fun h => by cases hmatches.mp h), if_neg htombstone, if_pos hempty]
      cases candidate <;> rfl
    by_cases htombstone : slot.state = slotTombstone
    · have hview := NvtxRangeSlot.view_tombstone htombstone
      rw [hview] at hmatches ⊢
      rw [if_neg (fun h => by cases hmatches.mp h)]
      cases candidate with
      | none => rw [if_pos ⟨htombstone, rfl⟩, hrest, Option.none_or]
      | some proposed => rw [if_neg (fun h => by cases h.2), if_neg hempty, hrest, Option.some_or]
    · have hview := NvtxRangeSlot.view_live hempty htombstone
      rw [hview, Slot.key?, Option.some.injEq] at hmatches
      rw [hview]
      dsimp only
      by_cases hkey : (slot.rangeKind, slot.rangeId) = (rangeKind, rangeId)
      · rw [if_pos (hmatches.mpr hkey), if_pos hkey]
      · rw [if_neg (fun h => hkey (hmatches.mp h)), if_neg (fun h => htombstone h.1),
          if_neg hempty, if_neg hkey, hrest]

/-- The slot of a search that succeeds. -/
def foundIndex : Location → Option Nat
  | .present index => some index
  | .absent _ => none

theorem findTakenSlot_eq_locate {path : List Nat} (hpath : ∀ index ∈ path, index < slots.length)
    (candidate : Option Nat) :
    findTakenSlot slots (nvtxRangeHash rangeKind rangeId) rangeKind rangeId path =
      some (foundIndex (locate (slotAt NvtxRangeSlot.view slots) (rangeKind, rangeId) path candidate)) := by
  induction path generalizing candidate with
  | nil => rfl
  | cons index rest ih =>
    have hrest := ih (fun i hi => hpath i (List.mem_cons_of_mem _ hi))
    obtain ⟨slot, hslot⟩ : ∃ slot, slots[index]? = some slot :=
      ⟨_, List.getElem?_eq_getElem (hpath index List.mem_cons_self)⟩
    have hmatches : _ ↔ slot.view.key? = some (rangeKind, rangeId) :=
      (hvalid slot (List.mem_of_getElem? hslot)).matches_iff
    have hskip : (slot.state ≠ nvtxRangeHash rangeKind rangeId ∨
        nvtxRangeKeyMatches slot rangeKind rangeId = false) ↔
          ¬ slot.view.key? = some (rangeKind, rangeId) := by
      rw [← hmatches, not_and_or, Bool.not_eq_true]
    rw [findTakenSlot, hslot, locate, slotAt_of_getElem? hslot]
    dsimp only
    by_cases hempty : slot.state = 0
    · have hview := NvtxRangeSlot.view_empty hempty
      rw [hview, if_pos hempty]
      rfl
    rw [if_neg hempty]
    by_cases htombstone : slot.state = slotTombstone
    · have hview := NvtxRangeSlot.view_tombstone htombstone
      rw [hview] at hskip ⊢
      rw [if_pos (hskip.mpr (fun h => by cases h))]
      exact hrest _
    · have hview := NvtxRangeSlot.view_live hempty htombstone
      rw [hview, Slot.key?, Option.some.injEq] at hskip
      rw [hview]
      dsimp only
      by_cases hkey : (slot.rangeKind, slot.rangeId) = (rangeKind, rangeId)
      · rw [if_neg (fun h => hskip.mp h hkey), if_pos hkey]
        rfl
      · rw [if_pos (hskip.mpr hkey), if_neg hkey]
        exact hrest _

end Loops

/-! ## Operations and what they must do -/

/-- A call of one of the two functions, with the thread that makes it and what it is told. -/
inductive RangeOperation where
  | remember (rangeKind : UInt32) (rangeId : UInt64) (startTid : UInt32)
      (name : Option (List UInt8))
  | take (rangeKind : UInt32) (rangeId : UInt64) (tid : UInt32) (clock : Option UInt64)

/-- What a call returns. -/
inductive RangeReply where
  | remembered (succeeds : Bool)
  | taken (record : Option Record)

/-- One call. -/
def runOperation (agent : AgentProcess) (state : AgentState) :
    RangeOperation → Option (RangeReply × AgentState)
  | .remember rangeKind rangeId startTid name =>
    (rememberNvtxRange state rangeKind rangeId startTid name).map (Prod.map .remembered id)
  | .take rangeKind rangeId tid clock =>
    (takeNvtxRange agent state rangeKind rangeId tid clock).map (Prod.map .taken id)

/-- Calls one after the other. -/
def runOperations (agent : AgentProcess) (state : AgentState) :
    List RangeOperation → Option AgentState
  | [] => some state
  | operation :: rest =>
    (runOperation agent state operation).bind (fun result => runOperations agent result.2 rest)

/-- What an operation does to the open ranges, for a table of the given capacity. -/
def stepRanges (capacity : Nat) (ranges : Ranges) : RangeOperation → Ranges
  | .remember rangeKind rangeId startTid name =>
    if (rangeKind, rangeId) ∉ ranges ∧ ranges.keys.card < capacity then
      ranges.insert (rangeKind, rangeId) (.of startTid name)
    else ranges
  | .take rangeKind rangeId _ _ => ranges.erase (rangeKind, rangeId)

def openRanges (capacity : Nat) (operations : List RangeOperation) : Ranges :=
  operations.foldl (stepRanges capacity) ∅

/-- `remember_nvtx_range` succeeds when the range is new and there is room. Otherwise it counts a
    dropped record, and it reports the limit when only the room is missing. -/
structure RememberAnswer (capacity : Nat) (ranges : Ranges) (key : RangeKey) (state : AgentState)
    (succeeds : Bool) (state' : AgentState) : Prop where
  succeeds_iff : succeeds = true ↔ key ∉ ranges ∧ ranges.keys.card < capacity
  dropped : state'.store.agentDroppedRecords =
    state.store.agentDroppedRecords + if succeeds then 0 else 1
  control : state'.control =
    if key ∉ ranges ∧ ranges.keys.card = capacity then state.control.reachLimit else state.control

/-- `take_nvtx_range` succeeds when the range is open and the clock can be read; it then returns what
    was remembered. -/
structure TakeAnswer (ranges : Ranges) (key : RangeKey) (clock : Option UInt64) (state : AgentState)
    (record : Option Record) (state' : AgentState) : Prop where
  succeeds_iff : record.isSome = true ↔ key ∈ ranges ∧ clock.isSome = true
  range : ∀ taken, record = some taken → ranges.lookup key =
    some { startTid := taken.blockX, name := cString taken.name, nameComplete := taken.blockY }
  dropped : state'.store.agentDroppedRecords = state.store.agentDroppedRecords
  control : state'.control =
    if key ∈ ranges ∧ clock = none then state.control.rememberOutputError else state.control

/-- What a call must return and do, on a table of the given capacity that stores the ranges. -/
def RangeAnswer (capacity : Nat) (ranges : Ranges) (state : AgentState) :
    RangeOperation → RangeReply → AgentState → Prop
  | .remember rangeKind rangeId _ _, .remembered succeeds, state' =>
    RememberAnswer capacity ranges (rangeKind, rangeId) state succeeds state'
  | .take rangeKind rangeId _ clock, .taken record, state' =>
    TakeAnswer ranges (rangeKind, rangeId) clock state record state'
  | _, _, _ => False

/-! ## The table refines the map -/

private theorem erase_of_notMem {ranges : Ranges} {key : RangeKey} (h : key ∉ ranges) :
    ranges.erase key = ranges := by
  apply Finmap.ext_lookup
  intro key'
  rcases eq_or_ne key' key with rfl | hne
  · rw [Finmap.lookup_erase, Finmap.lookup_eq_none.mpr h]
  · exact Finmap.lookup_erase_ne hne

namespace RangeTable

variable {state : AgentState} {ranges : Ranges} (h : RangeTable state.store ranges)
  (rangeKind : UInt32) (rangeId : UInt64)

include h

/-- The search for a range through the whole table. -/
theorem findRangeSlot_eq : findRangeSlot state.store.nvtxRangeSlots
      (nvtxRangeHash rangeKind rangeId) rangeKind rangeId
      (probeIndices (nvtxRangeHash rangeKind rangeId) state.store.nvtxRangeCapacity) none =
    some (state.store.searchRange (rangeKind, rangeId)) :=
  findRangeSlot_eq_locate h.valid rangeKind rangeId
    (fun _ => Table.lt_length_of_mem_path h (rangeKind, rangeId)) none

theorem findTakenSlot_eq : findTakenSlot state.store.nvtxRangeSlots
      (nvtxRangeHash rangeKind rangeId) rangeKind rangeId
      (probeIndices (nvtxRangeHash rangeKind rangeId) state.store.nvtxRangeCapacity) =
    some (foundIndex (state.store.searchRange (rangeKind, rangeId))) :=
  findTakenSlot_eq_locate h.valid rangeKind rangeId
    (fun _ => Table.lt_length_of_mem_path h (rangeKind, rangeId)) none

theorem remember (startTid : UInt32) (name : Option (List UInt8)) :
    ∃ succeeds state', rememberNvtxRange state rangeKind rangeId startTid name =
        some (succeeds, state') ∧
      RememberAnswer state.store.nvtxRangeCapacity.toNat ranges (rangeKind, rangeId) state succeeds
        state' ∧
      state'.store.nvtxRangeCapacity = state.store.nvtxRangeCapacity ∧
      RangeTable state'.store (stepRanges state.store.nvtxRangeCapacity.toNat ranges
        (.remember rangeKind rangeId startTid name)) := by
  rw [rememberNvtxRange, if_neg h.capacity_ne, h.findRangeSlot_eq]
  cases hsearch : state.store.searchRange (rangeKind, rangeId) with
  | present index =>
    -- the range is open already
    obtain ⟨-, range, -, -, -, hlookup, -⟩ := h.of_present hsearch
    have hmem : (rangeKind, rangeId) ∈ ranges := Finmap.mem_iff.mpr ⟨range, hlookup⟩
    refine ⟨false, state.dropRecord, rfl, ⟨?_, rfl, ?_⟩, rfl, ?_⟩
    · simp [hmem]
    · rw [if_neg (fun hnew => hnew.1 hmem)]
      rfl
    · rw [stepRanges, if_neg (fun hnew => hnew.1 hmem)]
      exact h
  | absent free =>
    have hnew := h.not_mem_of_absent hsearch
    cases free with
    | none =>
      -- every slot stores another range
      have hfull := h.full_of_absent hsearch
      refine ⟨false, nvtxRangeCapacityReached state, rfl, ⟨?_, rfl, ?_⟩, rfl, ?_⟩
      · simp [hfull]
      · rw [if_pos ⟨hnew, hfull⟩]
        rfl
      · rw [stepRanges, if_neg (fun hroom => absurd hfull hroom.2.ne)]
        exact h
    | some index =>
      obtain ⟨slot, hslot, hfree, hroom, hstore⟩ := h.of_absent hsearch
      -- the proposed slot stores no range, so its state is one of the two free ones
      have hstate : slot.state = 0 ∨ slot.state = slotTombstone := by
        by_contra hlive
        rw [not_or] at hlive
        rw [NvtxRangeSlot.view_live hlive.1 hlive.2] at hfree
        cases hfree
      dsimp only
      rw [hslot]
      dsimp only
      rw [if_pos hstate]
      refine ⟨true, _, rfl, ⟨?_, (UInt64.add_zero _).symm, ?_⟩, rfl, ?_⟩
      · simp [hnew, hroom]
      · rw [if_neg (fun hfull => absurd hfull.2 hroom.ne)]
        rfl
      · rw [stepRanges, if_pos ⟨hnew, hroom⟩]
        apply hstore (.inr (.inr rfl))
        rw [NvtxRangeSlot.view_live]
        · rw [NvtxRangeSlot.range, NvtxRange.of]
          simp only [NvtxRangeSlot.write, cString_copyNvtxName]
          rfl
        · exact nvtxRangeHash_ne_zero rangeKind rangeId
        · exact (slotTombstone_lt_nvtxRangeHash rangeKind rangeId).ne'

theorem take (agent : AgentProcess) (tid : UInt32) (clock : Option UInt64) :
    ∃ record state', takeNvtxRange agent state rangeKind rangeId tid clock =
        some (record, state') ∧
      TakeAnswer ranges (rangeKind, rangeId) clock state record state' ∧
      state'.store.nvtxRangeCapacity = state.store.nvtxRangeCapacity ∧
      RangeTable state'.store (stepRanges state.store.nvtxRangeCapacity.toNat ranges
        (.take rangeKind rangeId tid clock)) := by
  rw [takeNvtxRange, if_neg h.capacity_ne, h.findTakenSlot_eq]
  cases hsearch : state.store.searchRange (rangeKind, rangeId) with
  | absent free =>
    have hnew := h.not_mem_of_absent hsearch
    refine ⟨none, state, rfl, ⟨?_, nofun, rfl, ?_⟩, rfl, ?_⟩
    · simp [hnew]
    · rw [if_neg (fun hopen => hnew hopen.1)]
    · rw [stepRanges, erase_of_notMem hnew]
      exact h
  | present index =>
    obtain ⟨slot, range, hslot, -, hlive, hlookup, -, hremove⟩ := h.of_present hsearch
    have hmem : (rangeKind, rangeId) ∈ ranges := Finmap.mem_iff.mpr ⟨range, hlookup⟩
    rw [NvtxRangeSlot.range_of_view_live hlive] at hlookup
    -- with or without an answer of the clock, the slot becomes a tombstone
    have htaken : RangeTable (state.setRangeSlot index { slot with state := slotTombstone }).store
        (ranges.erase (rangeKind, rangeId)) :=
      hremove (.inr (.inl rfl)) (NvtxRangeSlot.view_tombstone rfl)
    dsimp only [foundIndex]
    rw [hslot]
    cases clock with
    | none =>
      refine ⟨none, _, rfl, ⟨?_, nofun, rfl, ?_⟩, rfl, htaken⟩
      · simp
      · rw [if_pos ⟨hmem, rfl⟩]
        rfl
    | some timestampNs =>
      refine ⟨some _, _, rfl, ⟨?_, ?_, rfl, ?_⟩, rfl, htaken⟩
      · simp [hmem]
      · intro taken htaken
        cases htaken
        exact hlookup
      · rw [if_neg (by nofun)]
        rfl

end RangeTable

/-- One call on a table. -/
theorem RangeTable.step {state : AgentState} {ranges : Ranges} (h : RangeTable state.store ranges)
    (agent : AgentProcess) (operation : RangeOperation) :
    ∃ reply state', runOperation agent state operation = some (reply, state') ∧
      RangeAnswer state.store.nvtxRangeCapacity.toNat ranges state operation reply state' ∧
      state'.store.nvtxRangeCapacity = state.store.nvtxRangeCapacity ∧
      RangeTable state'.store
        (stepRanges state.store.nvtxRangeCapacity.toNat ranges operation) := by
  cases operation with
  | remember rangeKind rangeId startTid name =>
    obtain ⟨succeeds, state', hrun, hanswer⟩ := h.remember rangeKind rangeId startTid name
    exact ⟨.remembered succeeds, state', by rw [runOperation, hrun]; rfl, hanswer⟩
  | take rangeKind rangeId tid clock =>
    obtain ⟨record, state', hrun, hanswer⟩ := h.take rangeKind rangeId agent tid clock
    exact ⟨.taken record, state', by rw [runOperation, hrun]; rfl, hanswer⟩

/-- Any number of calls on a table. -/
theorem RangeTable.run {state : AgentState} {ranges : Ranges} (h : RangeTable state.store ranges)
    (agent : AgentProcess) (operations : List RangeOperation) :
    ∃ state', runOperations agent state operations = some state' ∧
      state'.store.nvtxRangeCapacity = state.store.nvtxRangeCapacity ∧
      RangeTable state'.store
        (operations.foldl (stepRanges state.store.nvtxRangeCapacity.toNat) ranges) := by
  induction operations generalizing state ranges with
  | nil => exact ⟨state, rfl, rfl, h⟩
  | cons operation rest ih =>
    obtain ⟨reply, state₁, hstep, -, hcapacity, htable⟩ := h.step agent operation
    obtain ⟨state₂, hrest, hcapacity', htable'⟩ := ih htable
    rw [hcapacity] at htable' hcapacity'
    refine ⟨state₂, ?_, hcapacity', htable'⟩
    rw [runOperations, hstep, Option.bind_some, hrest]

/-- A table without ranges, in an array that fits in memory. What the slots held before does not
    matter. -/
structure EmptyRangeTable (store : CaptureStore) : Prop where
  capacity_ne : store.nvtxRangeCapacity ≠ 0
  capacity_le : store.nvtxRangeCapacity.toNat ≤ usizeMax / nvtxRangeSlotSize
  length_slots : store.nvtxRangeSlots.length = store.nvtxRangeCapacity.toNat
  empty : ∀ slot ∈ store.nvtxRangeSlots, slot.state = 0

theorem EmptyRangeTable.rangeTable {store : CaptureStore} (h : EmptyRangeTable store) :
    RangeTable store ∅ := by
  refine .of_unused h.capacity_ne ?_ h.length_slots fun slot hmem =>
    ⟨.inl (h.empty slot hmem), NvtxRangeSlot.view_empty (h.empty slot hmem)⟩
  have hle := h.capacity_le
  simp only [usizeMax, nvtxRangeSlotSize] at hle
  omega

/-- A capture that needs NVTX records starts with an empty table. -/
theorem emptyRangeTable_of_allocateCapture {answers : AllocatorAnswers} {capacity : UInt64}
    {store store' : CaptureStore} (h : allocateCapture answers capacity true store = some store') :
    EmptyRangeTable store'.reset := by
  obtain ⟨hfits, -, rfl⟩ := allocateCapture_eq_some h
  simp only [capacityFits, decide_eq_true_eq] at hfits
  refine ⟨hfits.1, hfits.2.2.2 trivial, ?_, ?_⟩
  · simp [CaptureStore.reset]
  · intro slot hmem
    obtain ⟨slot', -, rfl⟩ := List.mem_map.mp hmem
    rfl

/-- From an empty table, and after any operations, the next call returns and does what the map of the
    open ranges says. -/
theorem nvtxRanges_refine_map (agent : AgentProcess) (state : AgentState)
    (hempty : EmptyRangeTable state.store) (operations : List RangeOperation)
    (operation : RangeOperation) :
    ∃ state₁ reply state₂, runOperations agent state operations = some state₁ ∧
      runOperation agent state₁ operation = some (reply, state₂) ∧
      RangeAnswer state.store.nvtxRangeCapacity.toNat
        (openRanges state.store.nvtxRangeCapacity.toNat operations) state₁ operation reply
        state₂ := by
  obtain ⟨state₁, hrun, hcapacity, htable⟩ := hempty.rangeTable.run agent operations
  obtain ⟨reply, state₂, hstep, hanswer, -, -⟩ := htable.step agent operation
  rw [hcapacity] at hanswer
  exact ⟨state₁, reply, state₂, hrun, hstep, hanswer⟩

/-- An agent with room for some ranges, none of which is open. -/
def rangeAgent (capacity : UInt64) : AgentState :=
  { idleAgent with
    store :=
      { idleAgent.store with
        nvtxRangeSlots := List.replicate capacity.toNat zeroNvtxRangeSlot
        nvtxRangeCapacity := capacity } }

/-- The ranges 0, 4 and 8 all hash to slot 2 of 4. Range 4 is stored behind range 0; range 8 then
    reuses the tombstone that range 0 left, and range 4 is still found behind it. -/
def collidingRanges : List RangeOperation :=
  [.remember 1 0 5 none, .remember 1 4 5 none, .take 1 0 6 none, .remember 1 8 5 none]

theorem nvtxRanges_refine_map_reusedSlot : ∃ state₁ reply state₂,
      runOperations ⟨1, 0⟩ (rangeAgent 4) collidingRanges = some state₁ ∧
      state₁.store.nvtxRangeSlots.map (fun slot =>
        if slot.state = 0 then none else some slot.rangeId) = [none, none, some 8, some 4] ∧
      runOperation ⟨1, 0⟩ state₁ (.take 1 4 6 (some 9)) = some (reply, state₂) ∧
      RangeAnswer 4 (openRanges 4 collidingRanges) state₁ (.take 1 4 6 (some 9)) reply state₂ := by
  obtain ⟨state₁, reply, state₂, hrun, hstep, hanswer⟩ :=
    nvtxRanges_refine_map ⟨1, 0⟩ (rangeAgent 4)
      ⟨by decide, by decide, by decide, by simp [rangeAgent, zeroNvtxRangeSlot]⟩ collidingRanges
      (.take 1 4 6 (some 9))
  refine ⟨state₁, reply, state₂, hrun, ?_, hstep, hanswer⟩
  have hslots : (runOperations ⟨1, 0⟩ (rangeAgent 4) collidingRanges).map (fun state =>
      state.store.nvtxRangeSlots.map (fun slot =>
        if slot.state = 0 then none else some slot.rangeId)) =
      some [none, none, some 8, some 4] := by
    decide +kernel
  rw [hrun] at hslots
  exact Option.some.inj hslots

/-- A range that was remembered is not returned, and lost, when the clock cannot be read. -/
theorem takeNvtxRange_lost : ∃ state₁ state₂,
      rememberNvtxRange (rangeAgent 1) 1 7 5 none = some (true, state₁) ∧
      takeNvtxRange ⟨1, 0⟩ state₁ 1 7 6 none = some (none, state₂) ∧
      ∃ state₃, takeNvtxRange ⟨1, 0⟩ state₂ 1 7 6 (some 9) = some (none, state₃) := by
  refine ⟨_, _, rfl, rfl, _, rfl⟩

end Xprobe.Cupti
