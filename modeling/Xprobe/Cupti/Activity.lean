import Xprobe.Cupti.RoundTrip

/-!
# Kernel activities

The records that the agent makes of a kernel activity: one for its start and one for its end
(`enqueue_kernel_record` and `ENQUEUE_KERNEL_RECORDS` in `cupti/src/cupti_agent.c`).

A `KernelActivity` is what CUPTI reports. An `EmittedActivity` is one whose two records the
collector can decode; its invariants are those of `AgentRecord`, stated once for both records.
-/

namespace Xprobe.Cupti

open Foundation Protocol

/-! ## Model -/

/-- The fields of CUPTI's kernel activity that the agent reads. -/
structure KernelActivity where
  deviceId : UInt32
  contextId : UInt32
  streamId : UInt32
  correlationId : UInt32
  gridX : Int32
  gridY : Int32
  gridZ : Int32
  blockX : Int32
  blockY : Int32
  blockZ : Int32
  name : List UInt8
  start : UInt64
  finish : UInt64

/-- The process of the agent, and the offset of the activity clock that it has measured. -/
structure AgentProcess where
  pid : UInt32
  activityTimestampOffsetNs : Int64

/-- `normalize_activity_timestamp`. -/
def AgentProcess.normalizeActivityTimestamp (agent : AgentProcess) (timestampNs : UInt64) :
    UInt64 :=
  if agent.activityTimestampOffsetNs < 0 then
    timestampNs - (-agent.activityTimestampOffsetNs).toUInt64
  else timestampNs + agent.activityTimestampOffsetNs.toUInt64

/-- The bytes of a name that `copy_name` keeps: those before the terminator, at most 127. -/
def keptName (source : List UInt8) : List UInt8 := (cString source).take (nameLength - 1)

/-- `copy_name` into a zeroed field. -/
def copyName (source : List UInt8) : List UInt8 :=
  keptName source ++ List.replicate (nameLength - (keptName source).length) 0

theorem length_keptName_lt (source : List UInt8) : (keptName source).length < nameLength := by
  have h : (keptName source).length ≤ nameLength - 1 := List.length_take_le _ _
  have hpos : 0 < nameLength := by decide
  omega

@[simp] theorem length_copyName (source : List UInt8) : (copyName source).length = nameLength := by
  have h := length_keptName_lt source
  rw [copyName, List.length_append, List.length_replicate]
  omega

/-- The record is terminated: some zero byte follows the kept name. -/
theorem copyName_terminated (source : List UInt8) :
    ∃ padding, copyName source = keptName source ++ 0 :: padding := by
  have h := length_keptName_lt source
  obtain ⟨n, hn⟩ : ∃ n, nameLength - (keptName source).length = n + 1 :=
    ⟨nameLength - (keptName source).length - 1, by omega⟩
  exact ⟨List.replicate n 0, by rw [copyName, hn, List.replicate_succ]⟩

theorem zero_not_mem_keptName (source : List UInt8) : 0 ∉ keptName source := by
  intro h
  have hmem : (0 : UInt8) ∈ source.takeWhile (· ≠ 0) := List.mem_of_mem_take h
  simpa using List.mem_takeWhile_imp hmem

theorem cString_copyName (source : List UInt8) : cString (copyName source) = keptName source := by
  obtain ⟨padding, hpadding⟩ := copyName_terminated source
  rw [hpadding, cString_append_nul (zero_not_mem_keptName source)]

/-- `initialize_record`. -/
def initializeRecord (agent : AgentProcess) (tid : UInt32) (kind : RecordKind)
    (timestampNs : UInt64) : Record :=
  { timestampNs
    kind := kind.code
    pid := agent.pid
    tid
    deviceId := valueUnknown
    contextId := valueUnknown
    streamId := valueUnknown
    correlationId := 0
    callbackDomain := 0
    callbackId := 0
    gridX := 0
    gridY := 0
    gridZ := 0
    blockX := 0
    blockY := 0
    blockZ := 0
    runtimeCorrelationId := 0
    name := List.replicate nameLength 0
    name_length := length_zeroName }

/-- The record that `enqueue_kernel_record` makes of one boundary of an activity. -/
def kernelRecord (agent : AgentProcess) (tid : UInt32) (kernel : KernelActivity)
    (kind : RecordKind) (timestampNs : UInt64) : Record :=
  { initializeRecord agent tid kind (agent.normalizeActivityTimestamp timestampNs) with
    deviceId := kernel.deviceId
    contextId := kernel.contextId
    streamId := kernel.streamId
    correlationId := kernel.correlationId
    gridX := kernel.gridX.toUInt32
    gridY := kernel.gridY.toUInt32
    gridZ := kernel.gridZ.toUInt32
    blockX := kernel.blockX.toUInt32
    blockY := kernel.blockY.toUInt32
    blockZ := kernel.blockZ.toUInt32
    name := copyName kernel.name
    name_length := length_copyName kernel.name }

/-! ## Emitted activities -/

/-- An activity whose two records the collector can decode: on the clock of the records it starts
    after time zero and does not end before it starts, and the kept part of its name is UTF-8. -/
structure EmittedActivity (agent : AgentProcess) where
  kernel : KernelActivity
  tid : UInt32
  kernelName : String
  kernelName_eq : utf8Bytes kernelName = keptName kernel.name
  started : agent.normalizeActivityTimestamp kernel.start ≠ 0
  ordered : agent.normalizeActivityTimestamp kernel.start ≤
    agent.normalizeActivityTimestamp kernel.finish

namespace EmittedActivity

variable {agent : AgentProcess}

def startNs (activity : EmittedActivity agent) : UInt64 :=
  agent.normalizeActivityTimestamp activity.kernel.start

def endNs (activity : EmittedActivity agent) : UInt64 :=
  agent.normalizeActivityTimestamp activity.kernel.finish

theorem endNs_ne_zero (activity : EmittedActivity agent) : activity.endNs ≠ 0 := by
  intro hzero
  have hle : activity.startNs ≤ 0 := hzero ▸ activity.ordered
  apply activity.started
  apply UInt64.toNat_inj.mp
  exact Nat.le_zero.mp (UInt64.le_iff_toNat_le.mp hle)

def boundary (activity : EmittedActivity agent) (kind : RecordKind) (timestampNs : UInt64)
    (hnvtx : kind.isNvtx = false)
    (htime : agent.normalizeActivityTimestamp timestampNs ≠ 0) : AgentRecord where
  record := kernelRecord agent activity.tid activity.kernel kind timestampNs
  kind
  name := activity.kernelName
  kind_eq := rfl
  timestamp_ne := htime
  name_eq := by
    rw [activity.kernelName_eq]
    exact copyName_terminated activity.kernel.name
  name_nul_free := by
    rw [activity.kernelName_eq]
    exact zero_not_mem_keptName activity.kernel.name
  range_kind h := absurd h (by simp [hnvtx])
  range_id h := absurd h (by simp [hnvtx])
  start_thread h := absurd h (by simp [hnvtx])
  complete_flag h := absurd h (by simp [hnvtx])

def startRecord (activity : EmittedActivity agent) : AgentRecord :=
  activity.boundary .gpuKernelStart activity.kernel.start rfl activity.started

def endRecord (activity : EmittedActivity agent) : AgentRecord :=
  activity.boundary .gpuKernelEnd activity.kernel.finish rfl activity.endNs_ne_zero

/-- `ENQUEUE_KERNEL_RECORDS` in exact mode: the start, then the end. -/
def records (activity : EmittedActivity agent) : List AgentRecord :=
  [activity.startRecord, activity.endRecord]

/-- What tells kernels on the device apart: the device, the stream and the name. -/
def identity (activity : EmittedActivity agent) : UInt32 × UInt32 × String :=
  (activity.kernel.deviceId, activity.kernel.streamId, activity.kernelName)

end EmittedActivity

end Xprobe.Cupti
