import Xprobe.Foundation.BTreeMap
import Xprobe.Foundation.Sharded
import Xprobe.Foundation.Word

/-!
# The programs that aggregate system calls

`bpf/xprobe.bpf.c`: one program runs when a system call is entered, one when it is left. They share
the in-flight calls by thread (an LRU hash, from which the kernel may evict), the totals of each
system call (a hash with one value for each CPU) and four counters.

`History` is what the programs are for: the calls that were entered and left, as a list. A run of the
programs represents its history (`represents_runSteps`).
-/

namespace Xprobe.Bpf

open Foundation

/-! ## Maps -/

/-- `struct xprobe_syscall_aggregate_config`. -/
structure SyscallAggregateConfig where
  pidnsDev : UInt64
  pidnsIno : UInt64
  targetPid : UInt32
  armed : UInt32
  deriving Repr, DecidableEq

/-- `struct xprobe_syscall_start`. -/
structure SyscallStart where
  timestampNs : UInt64
  syscallNumber : UInt32
  reserved : UInt32
  deriving Repr, DecidableEq

/-- `struct xprobe_syscall_aggregate`. -/
structure SyscallAggregate where
  count : UInt64
  errors : UInt64
  totalDurationNs : UInt64
  minDurationNs : UInt64
  maxDurationNs : UInt64
  deriving Repr, DecidableEq

/-- `struct xprobe_syscall_aggregate_summary`. -/
structure SyscallSummary where
  entries : UInt64
  exits : UInt64
  unmatchedExits : UInt64
  droppedAggregates : UInt64
  deriving Repr, DecidableEq

/-- A value that the kernel has zeroed. -/
def SyscallAggregate.zero : SyscallAggregate := ⟨0, 0, 0, 0, 0⟩

/-- The maps of the two programs, on a machine with `cpus` processors. -/
structure SyscallMaps (cpus : ℕ) where
  config : SyscallAggregateConfig
  inflight : BTreeMap UInt32 SyscallStart
  groups : BTreeMap UInt32 (Fin cpus → SyscallAggregate)
  summary : SyscallSummary

variable {cpus : ℕ}

/-- The maps after `configure_object`. -/
def SyscallMaps.initial (pidnsDev pidnsIno : UInt64) (targetPid : UInt32) : SyscallMaps cpus :=
  { config := { pidnsDev, pidnsIno, targetPid, armed := 0 }
    inflight := .empty
    groups := .empty
    summary := ⟨0, 0, 0, 0⟩ }

/-! ## Programs -/

/-- `struct bpf_pidns_info`. -/
structure PidnsInfo where
  pid : UInt32
  tgid : UInt32
  deriving Repr, DecidableEq

/-- What one run of a program is given: the second argument of its tracepoint, and what the helpers
    answer. `refused` is the answer of the map that the run inserts into. -/
structure ProgramRun (cpus : ℕ) where
  cpu : Fin cpus
  argument : UInt64
  nsCurrentPidTgid : UInt64 → UInt64 → Option PidnsInfo
  ktimeNs : UInt64
  refused : Bool

/-- `xprobe_target_syscall_aggregate`, with the thread that it finds. -/
def targetSyscallAggregate (config : SyscallAggregateConfig) (run : ProgramRun cpus) :
    Option PidnsInfo :=
  if config.armed = 0 then none
  else (run.nsCurrentPidTgid config.pidnsDev config.pidnsIno).filter
    (fun nsdata => config.targetPid = nsdata.tgid)

/-- The argument of the tracepoint is negative. -/
def ProgramRun.isNegative (run : ProgramRun cpus) : Bool := run.argument.toInt64 < 0

/-- The call that a run enters. -/
def ProgramRun.start (run : ProgramRun cpus) : SyscallStart :=
  { timestampNs := run.ktimeNs, syscallNumber := run.argument.toUInt32, reserved := 0 }

/-- `xprobe_aggregate_syscall_entry`. -/
def aggregateSyscallEntry (maps : SyscallMaps cpus) (run : ProgramRun cpus) : SyscallMaps cpus :=
  match targetSyscallAggregate maps.config run with
  | none => maps
  | some nsdata =>
    if run.isNegative then maps
    else if run.refused then
      { maps with
        summary.droppedAggregates := maps.summary.droppedAggregates + 1 }
    else
      { maps with
        inflight := maps.inflight.insert nsdata.pid run.start
        summary.entries := maps.summary.entries + 1 }

/-- The update of the totals at the end of `xprobe_aggregate_syscall_exit`. A minimum of 0 is taken
    for none. -/
def SyscallAggregate.record (aggregate : SyscallAggregate) (durationNs : UInt64) (failed : Bool) :
    SyscallAggregate :=
  { count := aggregate.count + 1
    errors := if failed then aggregate.errors + 1 else aggregate.errors
    totalDurationNs := aggregate.totalDurationNs + durationNs
    minDurationNs :=
      if aggregate.minDurationNs = 0 ∨ durationNs < aggregate.minDurationNs then durationNs
      else aggregate.minDurationNs
    maxDurationNs :=
      if aggregate.maxDurationNs < durationNs then durationNs else aggregate.maxDurationNs }

/-- `bpf_map_update_elem` with `BPF_NOEXIST` on the totals: the value is written for the CPU that
    runs, the others are zeroed. -/
def insertGroup (groups : BTreeMap UInt32 (Fin cpus → SyscallAggregate)) (syscallNumber : UInt32)
    (cpu : Fin cpus) (initial : SyscallAggregate) (refused : Bool) :
    BTreeMap UInt32 (Fin cpus → SyscallAggregate) :=
  if (groups.get? syscallNumber).isSome || refused then groups
  else groups.insert syscallNumber (Function.update (fun _ => .zero) cpu initial)

/-- `xprobe_aggregate_syscall_exit`. -/
def aggregateSyscallExit (maps : SyscallMaps cpus) (run : ProgramRun cpus) : SyscallMaps cpus :=
  match targetSyscallAggregate maps.config run with
  | none => maps
  | some nsdata =>
    match maps.inflight.get? nsdata.pid with
    | none =>
      { maps with summary.unmatchedExits := maps.summary.unmatchedExits + 1 }
    | some start =>
      let durationNs := run.ktimeNs - start.timestampNs
      let inflight := maps.inflight.erase nsdata.pid
      let exits := maps.summary.exits + 1
      let groups := insertGroup maps.groups start.syscallNumber run.cpu
        { SyscallAggregate.zero with minDurationNs := durationNs } run.refused
      match groups.get? start.syscallNumber with
      | none =>
        { maps with
          inflight
          summary :=
            { maps.summary with
              exits, droppedAggregates := maps.summary.droppedAggregates + 1 } }
      | some slots =>
        { maps with
          inflight
          groups := groups.insert start.syscallNumber
            (Function.update slots run.cpu ((slots run.cpu).record durationNs run.isNegative))
          summary := { maps.summary with exits } }

/-- What happens to the maps. `arm` is `set_armed` of the collector, `evict` is the kernel's. -/
inductive Step (cpus : ℕ) where
  | arm (armed : Bool)
  | evict (threadId : UInt32)
  | entry (run : ProgramRun cpus)
  | exit (run : ProgramRun cpus)

/-- The configuration after `set_armed`. -/
def SyscallAggregateConfig.setArmed (config : SyscallAggregateConfig) (armed : Bool) :
    SyscallAggregateConfig :=
  { config with armed := if armed then 1 else 0 }

def step (maps : SyscallMaps cpus) : Step cpus → SyscallMaps cpus
  | .arm armed => { maps with config := maps.config.setArmed armed }
  | .evict threadId => { maps with inflight := maps.inflight.erase threadId }
  | .entry run => aggregateSyscallEntry maps run
  | .exit run => aggregateSyscallExit maps run

def runSteps (maps : SyscallMaps cpus) (steps : List (Step cpus)) : SyscallMaps cpus :=
  steps.foldl step maps

/-! ## Histories -/

/-- A call whose duration is added to the totals. -/
structure AggregatedCall where
  syscallNumber : UInt32
  durationNs : UInt64
  failed : Bool
  deriving Repr, DecidableEq

/-- What happened to the calls of the target: those in flight, those aggregated, in order and with
    the CPU that left them, and how many met another end. -/
structure History (cpus : ℕ) where
  config : SyscallAggregateConfig
  inflight : UInt32 → Option SyscallStart
  aggregated : List (Fin cpus × AggregatedCall)
  -- calls that were entered and recorded
  entries : ℕ
  -- entries that the in-flight map refused
  refusedEntries : ℕ
  -- exits with an entry, but without totals to add to
  refusedExits : ℕ
  -- exits without an entry
  unmatchedExits : ℕ
  -- recorded entries that were overwritten or evicted
  lostEntries : ℕ

namespace History

/-- The history before the first step. -/
def initial (pidnsDev pidnsIno : UInt64) (targetPid : UInt32) : History cpus :=
  { config := { pidnsDev, pidnsIno, targetPid, armed := 0 }
    inflight := fun _ => none
    aggregated := []
    entries := 0
    refusedEntries := 0
    refusedExits := 0
    unmatchedExits := 0
    lostEntries := 0 }

def calls (history : History cpus) (syscallNumber : UInt32) : List (Fin cpus × AggregatedCall) :=
  history.aggregated.filter (fun call => call.2.syscallNumber = syscallNumber)

/-- The exits that found an entry. -/
def matchedExits (history : History cpus) : ℕ := history.aggregated.length + history.refusedExits

def enter (history : History cpus) (threadId : UInt32) (start : SyscallStart) : History cpus :=
  { history with
    inflight := Function.update history.inflight threadId (some start)
    entries := history.entries + 1
    lostEntries := history.lostEntries + if (history.inflight threadId).isSome then 1 else 0 }

def leave (history : History cpus) (threadId : UInt32) (cpu : Fin cpus) (call : AggregatedCall)
    (refused : Bool) : History cpus :=
  let inflight := Function.update history.inflight threadId none
  if refused ∧ history.calls call.syscallNumber = [] then
    { history with inflight, refusedExits := history.refusedExits + 1 }
  else { history with inflight, aggregated := history.aggregated ++ [(cpu, call)] }

def step (history : History cpus) : Step cpus → History cpus
  | .arm armed => { history with config := history.config.setArmed armed }
  | .evict threadId =>
    { history with
      inflight := Function.update history.inflight threadId none
      lostEntries := history.lostEntries + if (history.inflight threadId).isSome then 1 else 0 }
  | .entry run =>
    match targetSyscallAggregate history.config run with
    | none => history
    | some nsdata =>
      if run.isNegative then history
      else if run.refused then { history with refusedEntries := history.refusedEntries + 1 }
      else history.enter nsdata.pid run.start
  | .exit run =>
    match targetSyscallAggregate history.config run with
    | none => history
    | some nsdata =>
      match history.inflight nsdata.pid with
      | none => { history with unmatchedExits := history.unmatchedExits + 1 }
      | some start =>
        history.leave nsdata.pid run.cpu
          { syscallNumber := start.syscallNumber, durationNs := run.ktimeNs - start.timestampNs
            failed := run.isNegative }
          run.refused

def ofSteps (pidnsDev pidnsIno : UInt64) (targetPid : UInt32) (steps : List (Step cpus)) :
    History cpus :=
  steps.foldl step (initial pidnsDev pidnsIno targetPid)

end History

/-! ## The maps represent the history -/

def totals (calls : List (Fin cpus × AggregatedCall)) : Fin cpus → SyscallAggregate :=
  calls.foldl (writeShard fun aggregate call => aggregate.record call.durationNs call.failed)
    (fun _ => .zero)

structure Represents (maps : SyscallMaps cpus) (history : History cpus) : Prop where
  config : maps.config = history.config
  inflight : ∀ threadId, maps.inflight.get? threadId = history.inflight threadId
  groups : ∀ syscallNumber, maps.groups.get? syscallNumber =
    if history.calls syscallNumber = [] then none else some (totals (history.calls syscallNumber))
  entries : maps.summary.entries = UInt64.ofNat history.entries
  exits : maps.summary.exits = UInt64.ofNat history.matchedExits
  unmatched : maps.summary.unmatchedExits = UInt64.ofNat history.unmatchedExits
  dropped : maps.summary.droppedAggregates =
    UInt64.ofNat (history.refusedEntries + history.refusedExits)
  -- every recorded entry left, is in flight, or was lost
  balance : history.entries = history.matchedExits + maps.inflight.len + history.lostEntries

theorem represents_initial (pidnsDev pidnsIno : UInt64) (targetPid : UInt32) :
    Represents (SyscallMaps.initial pidnsDev pidnsIno targetPid : SyscallMaps cpus)
      (History.initial pidnsDev pidnsIno targetPid) :=
  { config := rfl
    inflight := fun _ => rfl
    groups := fun _ => rfl
    entries := rfl
    exits := rfl
    unmatched := rfl
    dropped := rfl
    balance := rfl }

private theorem ofNat_add_one (n : ℕ) : UInt64.ofNat (n + 1) = UInt64.ofNat n + 1 := by
  rw [UInt64.ofNat_add]
  rfl

/-- The first value of a CPU's totals has no effect on them. -/
theorem record_initial (durationNs : UInt64) (failed : Bool) :
    ({ SyscallAggregate.zero with minDurationNs := durationNs } : SyscallAggregate).record
      durationNs failed = SyscallAggregate.zero.record durationNs failed := by
  simp [SyscallAggregate.record, SyscallAggregate.zero]

theorem History.calls_concat (history : History cpus) (cpu : Fin cpus) (call : AggregatedCall)
    (inflight : UInt32 → Option SyscallStart) (syscallNumber : UInt32) :
    ({ history with inflight, aggregated := history.aggregated ++ [(cpu, call)] } :
      History cpus).calls syscallNumber =
      history.calls syscallNumber ++ if call.syscallNumber = syscallNumber then [(cpu, call)]
        else [] := by
  simp only [calls, List.filter_append, List.filter_cons, List.filter_nil, decide_eq_true_eq]

theorem totals_concat (calls : List (Fin cpus × AggregatedCall)) (cpu : Fin cpus)
    (call : AggregatedCall) :
    totals (calls ++ [(cpu, call)]) =
      Function.update (totals calls) cpu
        ((totals calls cpu).record call.durationNs call.failed) := by
  unfold totals
  rw [List.foldl_append]
  rfl

section Steps

variable {maps : SyscallMaps cpus} {history : History cpus}

variable (h : Represents maps history)

include h

/-- A call that is left is no longer in flight. -/
private theorem inflight_leave (threadId : UInt32) :
    ∀ threadId', (maps.inflight.erase threadId).get? threadId' =
      Function.update history.inflight threadId none threadId' := by
  intro threadId'
  rw [BTreeMap.get?_erase, Function.update_apply, h.inflight]
  split_ifs <;> rfl

theorem represents_evict (threadId : UInt32) :
    Represents (step maps (.evict threadId)) (history.step (.evict threadId)) := by
  refine { h with inflight := ?_, balance := ?_ }
  · exact inflight_leave h threadId
  · show history.entries = history.matchedExits + (maps.inflight.erase threadId).len +
      (history.lostEntries + if (history.inflight threadId).isSome then 1 else 0)
    have hbalance := h.balance
    rw [← h.inflight]
    cases hget : maps.inflight.get? threadId with
    | none =>
      rw [BTreeMap.len_erase_of_get?_eq_none hget]
      exact hbalance
    | some start =>
      have hlen := BTreeMap.len_of_get? hget
      simp only [Option.isSome_some, if_true]
      omega

theorem represents_enter (threadId : UInt32) (start : SyscallStart) : Represents { maps with
        inflight := maps.inflight.insert threadId start
        summary.entries := maps.summary.entries + 1 }
      (history.enter threadId start) := by
  refine { h with inflight := ?_, entries := ?_, balance := ?_ }
  · intro threadId'
    show (maps.inflight.insert threadId start).get? threadId' =
      Function.update history.inflight threadId (some start) threadId'
    rw [BTreeMap.get?_insert, Function.update_apply, h.inflight]
    split_ifs <;> rfl
  · show maps.summary.entries + 1 = UInt64.ofNat (history.entries + 1)
    rw [ofNat_add_one, h.entries]
  · show history.entries + 1 = history.matchedExits + (maps.inflight.insert threadId start).len +
      (history.lostEntries + if (history.inflight threadId).isSome then 1 else 0)
    have hbalance := h.balance
    rw [← h.inflight, BTreeMap.len_insert]
    cases hget : maps.inflight.get? threadId with
    | none =>
      rw [BTreeMap.len_erase_of_get?_eq_none hget]
      simp only [Option.isSome_none, Bool.false_eq_true, if_false]
      omega
    | some old =>
      -- the entry of the thread that was there is gone
      have hlen := BTreeMap.len_of_get? hget
      simp only [Option.isSome_some, if_true]
      omega

theorem Represents.target_eq (run : ProgramRun cpus) :
    targetSyscallAggregate maps.config run = targetSyscallAggregate history.config run := by
  rw [h.config]

theorem represents_entry (run : ProgramRun cpus) :
    Represents (step maps (.entry run)) (history.step (.entry run)) := by
  simp only [step, aggregateSyscallEntry, History.step, h.target_eq]
  cases targetSyscallAggregate history.config run with
  | none => exact h
  | some nsdata =>
    dsimp only
    split_ifs
    · exact h
    · refine { h with dropped := ?_ }
      show maps.summary.droppedAggregates + 1 =
        UInt64.ofNat (history.refusedEntries + 1 + history.refusedExits)
      rw [h.dropped, ← ofNat_add_one, Nat.add_right_comm]
    · exact represents_enter h nsdata.pid run.start

/-- The group that an exit adds to: absent if its insertion is refused, and with the call's totals
    otherwise. -/
theorem insertGroup_cases (cpu : Fin cpus) (call : AggregatedCall) (refused : Bool) :
    let groups := insertGroup maps.groups call.syscallNumber cpu
      { SyscallAggregate.zero with minDurationNs := call.durationNs } refused
    if refused ∧ history.calls call.syscallNumber = [] then
      groups = maps.groups ∧ groups.get? call.syscallNumber = none
    else
      (∃ slots, groups.get? call.syscallNumber = some slots ∧
        Function.update slots cpu ((slots cpu).record call.durationNs call.failed) =
          totals (history.calls call.syscallNumber ++ [(cpu, call)])) ∧
      ∀ syscallNumber ≠ call.syscallNumber,
        groups.get? syscallNumber = maps.groups.get? syscallNumber := by
  have hgroup := h.groups call.syscallNumber
  unfold insertGroup
  by_cases hcalls : history.calls call.syscallNumber = []
  · rw [if_pos hcalls] at hgroup
    cases refused with
    | true => simp [hgroup, hcalls]
    | false =>
      simp only [hgroup, Option.isSome_none, Bool.or_false, Bool.false_eq_true, if_false, false_and]
      refine ⟨⟨_, by rw [BTreeMap.get?_insert, if_pos rfl], ?_⟩, ?_⟩
      · rw [hcalls, totals_concat, Function.update_self, Function.update_idem, record_initial]
        rfl
      · intro syscallNumber hne
        rw [BTreeMap.get?_insert, if_neg hne]
  · rw [if_neg hcalls] at hgroup
    simp only [hgroup, hcalls, Option.isSome_some, Bool.true_or, if_true, and_false, if_false]
    refine ⟨⟨_, rfl, ?_⟩, fun _ _ => trivial⟩
    rw [totals_concat]

theorem represents_exit (run : ProgramRun cpus) :
    Represents (step maps (.exit run)) (history.step (.exit run)) := by
  simp only [step, aggregateSyscallExit, History.step, h.target_eq]
  cases targetSyscallAggregate history.config run with
  | none => exact h
  | some nsdata =>
    have hinflight := h.inflight nsdata.pid
    cases hget : history.inflight nsdata.pid with
    | none =>
      -- no entry is in flight: the exit is unmatched
      rw [hget] at hinflight
      simp only [hinflight, hget]
      refine { h with unmatched := ?_ }
      show maps.summary.unmatchedExits + 1 = UInt64.ofNat (history.unmatchedExits + 1)
      rw [ofNat_add_one, h.unmatched]
    | some start =>
      rw [hget] at hinflight
      simp only [hinflight, hget, History.leave]
      -- the call leaves the map whether or not its group has room
      have hlen := BTreeMap.len_of_get? hinflight
      have hbalance := h.balance
      have hgroup := insertGroup_cases h run.cpu
        { syscallNumber := start.syscallNumber, durationNs := run.ktimeNs - start.timestampNs
          failed := run.isNegative } run.refused
      dsimp only at hgroup
      split_ifs at hgroup ⊢ with hrefused
      -- the kernel refuses a new group: the exit is counted and its call dropped
      · obtain ⟨-, hnone⟩ := hgroup
        simp only [hnone]
        refine { h with inflight := inflight_leave h nsdata.pid, exits := ?_, dropped := ?_
                        balance := ?_ }
        · show maps.summary.exits + 1 =
            UInt64.ofNat (history.aggregated.length + (history.refusedExits + 1))
          rw [h.exits, ← ofNat_add_one]
          rfl
        · show maps.summary.droppedAggregates + 1 =
            UInt64.ofNat (history.refusedEntries + (history.refusedExits + 1))
          rw [h.dropped, ← ofNat_add_one]
          rfl
        · show history.entries = history.aggregated.length + (history.refusedExits + 1) +
            (maps.inflight.erase nsdata.pid).len + history.lostEntries
          rw [History.matchedExits] at hbalance
          omega
      -- the call is added to the group of its number, on the CPU of the exit
      · obtain ⟨⟨slots, hslots, htotals⟩, hothers⟩ := hgroup
        simp only [hslots]
        refine { h with inflight := inflight_leave h nsdata.pid, groups := ?_, exits := ?_
                        balance := ?_ }
        · intro syscallNumber
          rw [BTreeMap.get?_insert, htotals, History.calls_concat]
          by_cases hnumber : syscallNumber = start.syscallNumber
          · simp [hnumber]
          · rw [if_neg hnumber, hothers _ hnumber, h.groups, if_neg (Ne.symm hnumber),
              List.append_nil]
        · show maps.summary.exits + 1 =
            UInt64.ofNat ((history.aggregated ++ [_]).length + history.refusedExits)
          rw [h.exits, ← ofNat_add_one, List.length_append, List.length_singleton,
            Nat.add_right_comm]
          rfl
        · show history.entries = (history.aggregated ++ [_]).length + history.refusedExits +
            (maps.inflight.erase nsdata.pid).len + history.lostEntries
          rw [History.matchedExits] at hbalance
          rw [List.length_append, List.length_singleton]
          omega

theorem represents_step (s : Step cpus) : Represents (step maps s) (history.step s) := by
  cases s with
  | arm armed =>
    exact { h with config := congrArg (SyscallAggregateConfig.setArmed · armed) h.config }
  | evict threadId => exact represents_evict h threadId
  | entry run => exact represents_entry h run
  | exit run => exact represents_exit h run

omit h

end Steps

/-- After every run the maps represent its history. -/
theorem represents_runSteps (pidnsDev pidnsIno : UInt64) (targetPid : UInt32)
    (steps : List (Step cpus)) :
    Represents (runSteps (.initial pidnsDev pidnsIno targetPid) steps)
      (.ofSteps pidnsDev pidnsIno targetPid steps) := by
  unfold runSteps History.ofSteps
  apply List.foldl_rel (represents_initial pidnsDev pidnsIno targetPid)
  intro s _ maps history h
  exact represents_step h s

/-! ## How many calls a run can have -/

def History.counted (history : History cpus) : ℕ :=
  history.entries + history.refusedEntries + history.matchedExits + history.unmatchedExits

theorem History.counted_step_le (history : History cpus) (s : Step cpus) :
    (history.step s).counted ≤ history.counted + 1 := by
  -- a run counts one entry, refused or not, or one exit, matched or not
  cases s with
  | arm armed => exact Nat.le_succ _
  | evict threadId => exact Nat.le_succ _
  | entry run =>
    simp only [step]
    cases targetSyscallAggregate history.config run with
    | none => exact Nat.le_succ _
    | some nsdata =>
      dsimp only
      split_ifs
      · exact Nat.le_succ _
      · simp only [counted, matchedExits]
        omega
      · simp only [counted, matchedExits, enter]
        omega
  | exit run =>
    simp only [step]
    cases targetSyscallAggregate history.config run with
    | none => exact Nat.le_succ _
    | some nsdata =>
      dsimp only
      cases history.inflight nsdata.pid with
      | none =>
        simp only [counted, matchedExits]
        omega
      | some start =>
        simp only [leave]
        split_ifs
        · simp only [counted, matchedExits]
          omega
        · simp only [counted, matchedExits, List.length_append, List.length_singleton]
          omega

theorem History.counted_ofSteps_le (pidnsDev pidnsIno : UInt64) (targetPid : UInt32)
    (steps : List (Step cpus)) :
    (ofSteps pidnsDev pidnsIno targetPid steps).counted ≤ steps.length := by
  unfold ofSteps
  induction steps using List.reverseRecOn with
  | nil => exact Nat.le_refl _
  | append_singleton steps s ih =>
    rw [List.foldl_append, List.foldl_cons, List.foldl_nil, List.length_append,
      List.length_singleton]
    exact (counted_step_le _ s).trans (Nat.add_le_add_right ih 1)

/-! ## The totals of one CPU -/

section Totals

variable (calls : List (Fin cpus × AggregatedCall)) (cpu : Fin cpus)

theorem totals_apply : totals calls cpu =
    (onShard cpu calls).foldl (fun aggregate call => aggregate.record call.durationNs call.failed)
      .zero :=
  foldl_writeShard _ _ _ _

/-- A field that every call adds to is the sum of what the calls add. -/
theorem totals_field {field : SyscallAggregate → UInt64} {weight : AggregatedCall → ℕ}
    (hzero : field .zero = 0)
    (hrecord : ∀ aggregate call, field (aggregate.record call.durationNs call.failed) =
      field aggregate + UInt64.ofNat (weight call)) :
    field (totals calls cpu) = UInt64.ofNat ((onShard cpu calls).map weight).sum := by
  rw [totals_apply]
  induction onShard cpu calls using List.reverseRecOn with
  | nil => exact hzero
  | append_singleton calls call ih =>
    rw [List.foldl_append, List.foldl_cons, List.foldl_nil, hrecord, ih, ← UInt64.ofNat_add]
    simp

theorem totals_count : (totals calls cpu).count = UInt64.ofNat (onShard cpu calls).length := by
  have hones : ((onShard cpu calls).map (fun _ => 1)).sum = (onShard cpu calls).length := by simp
  rw [← hones]
  exact totals_field calls cpu rfl (fun _ _ => rfl)

theorem totals_errors : (totals calls cpu).errors =
    UInt64.ofNat ((onShard cpu calls).map (fun call => if call.failed then 1 else 0)).sum := by
  apply totals_field calls cpu rfl
  intro aggregate call
  cases hfailed : call.failed <;> simp [SyscallAggregate.record]

theorem totals_totalDurationNs : (totals calls cpu).totalDurationNs =
    UInt64.ofNat ((onShard cpu calls).map (·.durationNs.toNat)).sum := by
  apply totals_field calls cpu rfl
  intro aggregate call
  simp [SyscallAggregate.record]

/-- The durations of the calls that a CPU aggregated, in order. -/
def durationsOn : List UInt64 := (onShard cpu calls).map AggregatedCall.durationNs

theorem totals_maxDurationNs :
    (totals calls cpu).maxDurationNs = (durationsOn calls cpu).foldl max 0 := by
  rw [totals_apply, durationsOn, List.foldl_map]
  refine (List.foldl_hom SyscallAggregate.maxDurationNs ?_).symm
  intro aggregate call
  show max aggregate.maxDurationNs call.durationNs =
    if aggregate.maxDurationNs < call.durationNs then call.durationNs
    else aggregate.maxDurationNs
  split_ifs with hlt
  · exact max_eq_right (le_of_lt hlt)
  · exact max_eq_left (not_lt.mp hlt)

def keepMin (minimum durationNs : UInt64) : UInt64 :=
  if minimum = 0 ∨ durationNs < minimum then durationNs else minimum

theorem totals_minDurationNs :
    (totals calls cpu).minDurationNs = (durationsOn calls cpu).foldl keepMin 0 := by
  rw [totals_apply, durationsOn, List.foldl_map]
  exact (List.foldl_hom SyscallAggregate.minDurationNs fun _ _ => rfl).symm

end Totals

/-! ## A minimum of 0 is forgotten -/

section KeepMin

variable {durations : List UInt64}

theorem foldl_keepMin_mem (hne : durations ≠ []) : durations.foldl keepMin 0 ∈ durations := by
  induction durations using List.reverseRecOn with
  | nil => exact absurd rfl hne
  | append_singleton durations last ih =>
    rw [List.foldl_append, List.foldl_cons, List.foldl_nil, List.mem_append, List.mem_singleton,
      keepMin]
    split_ifs with h
    · exact .inr rfl
    · left
      apply ih
      -- the fold over no durations is 0
      rintro rfl
      exact h (.inl rfl)

theorem foldl_keepMin_eq_zero_iff (hne : durations ≠ []) :
    durations.foldl keepMin 0 = 0 ↔ durations.getLast? = some 0 := by
  induction durations using List.reverseRecOn with
  | nil => exact absurd rfl hne
  | append_singleton durations last _ =>
    rw [List.foldl_append, List.foldl_cons, List.foldl_nil, List.getLast?_concat, keepMin,
      Option.some.injEq]
    split_ifs with h
    · rfl
    · obtain ⟨hzero, hle⟩ := not_or.mp h
      constructor
      · intro heq
        exact absurd heq hzero
      · intro heq
        rw [heq] at hle
        exact absurd (lt_of_le_of_ne (UInt64.zero_le) (Ne.symm hzero)) hle

/-- Without a duration of 0 the minimum is right. -/
theorem foldl_keepMin_le (hzero : 0 ∉ durations) :
    ∀ d ∈ durations, durations.foldl keepMin 0 ≤ d := by
  induction durations using List.reverseRecOn with
  | nil => simp
  | append_singleton durations last ih =>
    have hbefore : 0 ∉ durations := fun h => hzero (List.mem_append_left _ h)
    intro d hd
    rw [List.foldl_append, List.foldl_cons, List.foldl_nil, keepMin]
    rcases List.mem_append.mp hd with hd | hd
    · have hmem := foldl_keepMin_mem (List.ne_nil_of_mem hd)
      split_ifs with h
      · rcases h with h | h
        · rw [h] at hmem
          exact absurd hmem hbefore
        · exact (le_of_lt h).trans (ih hbefore d hd)
      · exact ih hbefore d hd
    · rw [List.mem_singleton.mp hd]
      split_ifs with h
      · exact le_rfl
      · exact not_lt.mp (not_or.mp h).2

end KeepMin

end Xprobe.Bpf
