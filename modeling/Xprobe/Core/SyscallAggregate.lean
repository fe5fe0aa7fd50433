import Xprobe.Foundation.Sharded
import Xprobe.Foundation.StableSort
import Xprobe.Core.Validate

/-!
# The inventory of system calls

`xprobe/core/src/syscall_aggregate.rs`: the totals that the collector read become the groups of an
inventory, with a verdict on whether the capture is complete. The verdict looks at three counters.
-/

namespace Xprobe.Core

open Foundation Protocol

/-! ## Data -/

structure RawSyscallGroup where
  syscallNumber : UInt32
  count : UInt64
  errors : UInt64
  totalDurationNs : UInt64
  minDurationNs : UInt64
  maxDurationNs : UInt64
  deriving Repr, DecidableEq

structure SyscallCaptureData where
  groups : List RawSyscallGroup
  observedEntries : UInt64
  matchedExits : UInt64
  unmatchedExits : UInt64
  droppedAggregates : UInt64
  inflightAtEnd : UInt64
  deriving Repr, DecidableEq

/-- The fields of a specification that the analysis reads. -/
structure SyscallAggregateSpec where
  name : Option String
  durationMs : UInt64
  maxGroups : UInt64
  deriving Repr, DecidableEq

structure AggregateDuration where
  min : UInt64
  mean : Ratio
  max : UInt64
  total : UInt64
  deriving Repr, DecidableEq

structure SyscallAggregateGroup where
  syscallNumber : UInt32
  syscallName : Option String
  count : UInt64
  errors : UInt64
  durationNs : AggregateDuration
  entrySelectorHint : Option String
  exitSelectorHint : Option String
  deriving Repr, DecidableEq

structure SyscallAggregateInventory where
  name : Option String
  durationMs : UInt64
  groups : List SyscallAggregateGroup
  deriving Repr, DecidableEq

inductive SyscallAggregateCompleteness where
  | complete
  | incomplete
  deriving Repr, DecidableEq

structure SyscallAggregateCollectionSummary where
  completeness : SyscallAggregateCompleteness
  observedEntries : UInt64
  matchedExits : UInt64
  unmatchedExits : UInt64
  inflightAtEnd : UInt64
  droppedAggregates : UInt64
  groupCapacity : UInt64
  groups : Nat
  tableUtilization : Ratio
  deriving Repr, DecidableEq

structure SyscallAggregateResult where
  schemaVersion : SchemaVersion
  ok : Bool
  sessionId : String
  status : SessionStatus
  target : TargetIdentity
  inventory : SyscallAggregateInventory
  collection : SyscallAggregateCollectionSummary
  warnings : List Warning

/-! ## Analysis -/

/-- `syscall_name`, by the same table as `syscall_number`. -/
def syscallName (number : UInt32) : Option String :=
  (syscallNumbers.find? (fun entry => entry.2 = number)).map Prod.fst

/-- `normalize_group`. -/
def normalizeGroup (group : RawSyscallGroup) : SyscallAggregateGroup :=
  let syscallName := syscallName group.syscallNumber
  { syscallNumber := group.syscallNumber
    syscallName
    count := group.count
    errors := group.errors
    durationNs :=
      { min := group.minDurationNs
        mean := ⟨group.totalDurationNs.toNat, group.count.toNat⟩
        max := group.maxDurationNs
        total := group.totalDurationNs }
    entrySelectorHint := syscallName.map (fun name => s!"syscall:{name}:entry")
    exitSelectorHint := syscallName.map (fun name => s!"syscall:{name}:exit") }

/-- The warnings of `analyze`. -/
def syscallWarnings (capture : SyscallCaptureData) : List Warning :=
  (if capture.droppedAggregates ≠ 0 then
    [warning "SYSCALL_AGGREGATES_DROPPED"
      s!"{capture.droppedAggregates} syscall lifecycles could not be retained; increase max_groups or max_inflight"]
  else []) ++
  (if capture.unmatchedExits ≠ 0 ∨ capture.inflightAtEnd ≠ 0 then
    [warning "SYSCALL_LIFECYCLES_UNMATCHED"
      s!"{capture.unmatchedExits} exits had no start and {capture.inflightAtEnd} starts remained open at capture end"]
  else [])

/-- `analyze`, with the start time of the target read before and after. -/
def analyzeSyscalls (startTimeBefore startTimeAfter : Except InspectError UInt64)
    (target : TargetIdentity) (spec : SyscallAggregateSpec) (sessionId : String)
    (capture : SyscallCaptureData) : Except InspectError SyscallAggregateResult := do
  verifyTarget startTimeBefore target
  let groups := sortByKey
    (fun group => toLex (OrderDual.toDual group.durationNs.total,
      toLex (OrderDual.toDual group.count, group.syscallNumber)))
    ((capture.groups.filter (fun group => group.count ≠ 0)).map normalizeGroup)
  let complete := capture.unmatchedExits = 0 ∧ capture.inflightAtEnd = 0 ∧
    capture.droppedAggregates = 0
  verifyTarget startTimeAfter target
  return {
    schemaVersion := .current
    ok := true
    sessionId
    status := .completed
    target
    inventory := { name := spec.name, durationMs := spec.durationMs, groups }
    collection :=
      { completeness := if complete then .complete else .incomplete
        observedEntries := capture.observedEntries
        matchedExits := capture.matchedExits
        unmatchedExits := capture.unmatchedExits
        inflightAtEnd := capture.inflightAtEnd
        droppedAggregates := capture.droppedAggregates
        groupCapacity := spec.maxGroups
        groups := capture.groups.length
        tableUtilization := ⟨capture.groups.length, (max spec.maxGroups 1).toNat⟩ }
    warnings := syscallWarnings capture }

/-- What a complete analysis says about the capture. -/
theorem analyzeSyscalls_complete {startTimeBefore startTimeAfter : Except InspectError UInt64}
    {target : TargetIdentity} {spec : SyscallAggregateSpec} {sessionId : String}
    {capture : SyscallCaptureData} {result : SyscallAggregateResult}
    (h : analyzeSyscalls startTimeBefore startTimeAfter target spec sessionId capture = .ok result)
    (hcomplete : result.collection.completeness = .complete) :
    (capture.unmatchedExits = 0 ∧ capture.inflightAtEnd = 0 ∧ capture.droppedAggregates = 0) ∧
      result.collection.observedEntries = capture.observedEntries ∧
      result.collection.matchedExits = capture.matchedExits ∧
      (result.inventory.groups.map (·.count.toNat)).sum =
        (capture.groups.map (·.count.toNat)).sum := by
  unfold analyzeSyscalls at h
  obtain ⟨_, -, h⟩ := of_bind h
  obtain ⟨_, -, h⟩ := of_bind h
  cases h
  refine ⟨?_, rfl, rfl, ?_⟩
  · by_contra hnot
    exact absurd ((if_neg hnot).symm.trans hcomplete) (by decide)
  · -- groups without calls add nothing
    show ((sortByKey _ _).map _).sum = _
    rw [((sortByKey_perm _ _).map _).sum_eq, List.map_map]
    apply sum_map_filter_of_zero
    intro group _ hcount
    have hzero : group.count = 0 := by simpa using hcount
    show group.count.toNat = 0
    rw [hzero]
    rfl

end Xprobe.Core
