import Xprobe.Collector.SyscallAggregate
import Xprobe.Core.SyscallAggregate
import Xprobe.Core.Agreement

/-!
# Complete inventories of system calls

`run_syscall_aggregate_spec` of `xprobe/cli/src/main.rs` hands what the collector read to the
analysis. The verdict `complete` rests on the exits without an entry, the refused calls and the calls
in flight at the end. It says that no call is missing exactly when no entry was overwritten by a
later one of the same thread ID, or evicted from the map of calls in flight: nothing counts those.
-/

namespace Xprobe.Cli

open Foundation Protocol Bpf Collector
open Xprobe.Core (RawSyscallGroup SyscallCaptureData SyscallAggregateSpec SyscallAggregateResult
  InspectError analyzeSyscalls analyzeSyscalls_complete)

/-- The capture as `run_syscall_aggregate_spec` passes it on. -/
def syscallCaptureData (capture : SyscallAggregateCapture) : SyscallCaptureData :=
  { groups := capture.groups.map (fun group =>
      { syscallNumber := group.syscallNumber
        count := group.count
        errors := group.errors
        totalDurationNs := group.totalDurationNs
        minDurationNs := group.minDurationNs
        maxDurationNs := group.maxDurationNs })
    observedEntries := capture.observedEntries
    matchedExits := capture.matchedExits
    unmatchedExits := capture.unmatchedExits
    droppedAggregates := capture.droppedAggregates
    inflightAtEnd := capture.inflightAtEnd }

/-- A counter that did not wrap. -/
private theorem ofNat_inj_of_lt {a b : ℕ} (ha : a < 2 ^ 64) (hb : b < 2 ^ 64) :
    UInt64.ofNat a = UInt64.ofNat b ↔ a = b := by
  rw [← UInt64.toNat_inj, UInt64.toNat_ofNat', UInt64.toNat_ofNat', Nat.mod_eq_of_lt ha,
    Nat.mod_eq_of_lt hb]

/-- In a capture that is reported as complete, the observed entries are the matched exits, and both
    are those of the groups, exactly when no entry was overwritten or evicted. -/
theorem complete_counts_iff {cpus : ℕ} (pidnsDev pidnsIno : UInt64) (targetPid : UInt32)
    (steps : List (Bpf.Step cpus)) (history : History cpus) (view : SyscallMapView)
    (capture : SyscallAggregateCapture)
    (startTimeBefore startTimeAfter : Except InspectError UInt64) (target : TargetIdentity)
    (spec : SyscallAggregateSpec) (sessionId : String) (result : SyscallAggregateResult)
    (hhistory : history = .ofSteps pidnsDev pidnsIno targetPid steps)
    (hsteps : steps.length < 2 ^ 64)
    (hview : Shows view (runSteps (.initial pidnsDev pidnsIno targetPid) steps))
    (hread : readCapture view = .ok capture)
    (hanalyze : analyzeSyscalls startTimeBefore startTimeAfter target spec sessionId
      (syscallCaptureData capture) = .ok result)
    (hcomplete : result.collection.completeness = .complete) :
    (result.collection.observedEntries = result.collection.matchedExits ∧
        result.collection.matchedExits.toNat =
          (result.inventory.groups.map (fun group => group.count.toNat)).sum) ↔
      history.lostEntries = 0 := by
  subst hhistory
  obtain ⟨capture', hread', hfrom⟩ := readCapture_of_shows hview
  rw [hread] at hread'
  cases hread'
  have hmaps := represents_runSteps pidnsDev pidnsIno targetPid steps
  have hbalance := hmaps.balance
  have hcounted := History.counted_ofSteps_le pidnsDev pidnsIno targetPid steps
  obtain ⟨⟨-, hinflight, hdropped⟩, hentries, hexits, hgroups⟩ :=
    analyzeSyscalls_complete hanalyze hcomplete
  generalize History.ofSteps pidnsDev pidnsIno targetPid steps = history at *
  generalize runSteps (.initial pidnsDev pidnsIno targetPid) steps = maps at *
  rw [History.counted, History.matchedExits] at hcounted
  rw [History.matchedExits] at hbalance
  -- nothing is in flight, and nothing was refused
  have hempty : maps.inflight.len = 0 := by
    have hzero : UInt64.ofNat (min maps.inflight.len (2 ^ 64 - 1)) = UInt64.ofNat 0 :=
      hfrom.inflight.symm.trans hinflight
    rw [ofNat_inj_of_lt (by omega) (by decide)] at hzero
    omega
  have hnone : history.refusedEntries + history.refusedExits = 0 := by
    have hzero : UInt64.ofNat (history.refusedEntries + history.refusedExits) = UInt64.ofNat 0 :=
      (hfrom.dropped.trans hmaps.dropped).symm.trans hdropped
    rwa [ofNat_inj_of_lt (by omega) (by decide)] at hzero
  have hexits' : result.collection.matchedExits = UInt64.ofNat history.aggregated.length := by
    rw [hexits]
    refine (hfrom.exits.trans hmaps.exits).trans ?_
    rw [History.matchedExits, show history.refusedExits = 0 by omega, Nat.add_zero]
  have hentries' : result.collection.observedEntries = UInt64.ofNat history.entries :=
    hentries.trans (hfrom.entries.trans hmaps.entries)
  have hsum : (result.inventory.groups.map (·.count.toNat)).sum =
      history.aggregated.length := by
    rw [hgroups, syscallCaptureData, List.map_map]
    exact hfrom.sum_counts hmaps (by omega)
  have hlength : (UInt64.ofNat history.aggregated.length).toNat = history.aggregated.length := by
    rw [UInt64.toNat_ofNat', Nat.mod_eq_of_lt (by omega)]
  rw [hentries', hexits', hsum, ofNat_inj_of_lt (by omega) (by omega)]
  constructor
  · rintro ⟨hsame, -⟩
    omega
  · intro hlost
    exact ⟨by omega, hlength⟩

/-! ## A thread that never returns -/

/-- A thread leaves the process in a call that does not return; a new thread with its ID calls
    `read`. -/
def reusedThread : List (Bpf.Step 1) :=
  let run := soleRun (Fin.last 0)
  [.arm true, .entry (run 60 5), .entry (run 0 100), .exit (run 1 110), .arm false]

def syscallSpec : SyscallAggregateSpec := { name := none, durationMs := 1, maxGroups := 256 }

def syscallTarget : TargetIdentity := { pid := 7, processStartTime := 5 }

/-- Two calls that return are all in the groups. -/
theorem complete_counts_twoCalls : ∃ capture result,
      readCapture (viewOf (runSteps (.initial 3 4 7) (twoCalls 0 10))) = .ok capture ∧
      analyzeSyscalls (.ok 5) (.ok 5) syscallTarget syscallSpec "s"
        (syscallCaptureData capture) = .ok result ∧
      result.collection.observedEntries = result.collection.matchedExits ∧
      result.collection.matchedExits.toNat =
        (result.inventory.groups.map (fun group => group.count.toNat)).sum := by
  have hread : readCapture (viewOf (runSteps (.initial 3 4 7) (twoCalls 0 10))) =
      .ok ⟨[⟨0, 2, 0, 10, 10, 10⟩], 2, 2, 0, 0, 0⟩ := by
    decide +kernel
  obtain ⟨result, hanalyze, hcomplete⟩ : ∃ result,
      analyzeSyscalls (.ok 5) (.ok 5) syscallTarget syscallSpec "s"
        (syscallCaptureData ⟨[⟨0, 2, 0, 10, 10, 10⟩], 2, 2, 0, 0, 0⟩) = .ok result ∧
      result.collection.completeness = .complete := ⟨_, rfl, rfl⟩
  exact ⟨_, result, hread, hanalyze, (complete_counts_iff 3 4 7 (twoCalls 0 10) _ _ _ _ _ _ _ _
    result rfl (by decide) (shows_viewOf _) hread hanalyze hcomplete).mpr (by decide +kernel)⟩

/-- The capture is reported as complete, but the first call is missing. -/
theorem complete_without_a_call : ∃ capture result,
      readCapture (viewOf (runSteps (.initial 3 4 7) reusedThread)) = .ok capture ∧
      analyzeSyscalls (.ok 5) (.ok 5) syscallTarget syscallSpec "s"
        (syscallCaptureData capture) = .ok result ∧
      result.collection.completeness = .complete ∧
      result.collection.observedEntries = 2 ∧ result.collection.matchedExits = 1 ∧
      result.inventory.groups.map (fun group => (group.syscallNumber, group.count)) =
        [(0, 1)] := by
  have hread : readCapture (viewOf (runSteps (.initial 3 4 7) reusedThread)) =
      .ok ⟨[⟨0, 1, 0, 10, 10, 10⟩], 2, 1, 0, 0, 0⟩ := by
    decide +kernel
  exact ⟨_, _, hread, rfl, rfl, rfl, rfl, rfl⟩

end Xprobe.Cli
