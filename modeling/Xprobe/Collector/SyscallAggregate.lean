import Xprobe.Foundation.Bytes
import Xprobe.Foundation.Fallible
import Xprobe.Foundation.StableSort
import Xprobe.Bpf.SyscallAggregate

/-!
# Reading the totals of system calls

`xprobe/collector/src/syscall_aggregate.rs`: after the capture, user space reads the maps of the two
programs and adds up what the CPUs have for each system call.

The counts, the errors, the total and the maximum are those of the aggregated calls
(`readCapture_totals`). The minimum is so only while no zero is forgotten: the programs take a
minimum of 0 for none, so that the next duration replaces it (`minDuration_isLeast_iff`).
-/

namespace Xprobe.Collector

open Foundation Bpf

/-! ## Maps as user space sees them -/

/-- The fields of the totals on one CPU. -/
def aggregateFields (aggregate : SyscallAggregate) : Vector UInt64 5 :=
  #v[aggregate.count, aggregate.errors, aggregate.totalDurationNs, aggregate.minDurationNs,
    aggregate.maxDurationNs]

def summaryFields (summary : SyscallSummary) : Vector UInt64 4 :=
  #v[summary.entries, summary.exits, summary.unmatchedExits, summary.droppedAggregates]

/-- The bytes of a structure of words. -/
def fieldBytes {count : ℕ} (fields : Vector UInt64 count) : List UInt8 :=
  fields.toList.flatMap leU64

/-- What the system calls for maps return: the keys and values of the totals, the value of the
    counters, and the keys in flight. -/
structure SyscallMapView where
  groups : List (List UInt8 × List (List UInt8))
  summary : List UInt8
  inflightKeys : List (List UInt8)
  deriving Repr, DecidableEq

/-- The maps, in the order of their keys. -/
def viewOf {cpus : ℕ} (maps : SyscallMaps cpus) : SyscallMapView :=
  { groups := maps.groups.entries.map
      (fun entry => (leU32 entry.1, (List.ofFn entry.2).map (fieldBytes ∘ aggregateFields)))
    summary := fieldBytes (summaryFields maps.summary)
    inflightKeys := maps.inflight.entries.map (fun entry => leU32 entry.1) }

/-- The view shows the maps; the kernel may list a hash in any order. -/
structure Shows {cpus : ℕ} (view : SyscallMapView) (maps : SyscallMaps cpus) : Prop where
  groups : view.groups.Perm (viewOf maps).groups
  summary : view.summary = (viewOf maps).summary
  inflightKeys : view.inflightKeys.Perm (viewOf maps).inflightKeys

variable {cpus : ℕ} {maps : SyscallMaps cpus}

theorem shows_viewOf (maps : SyscallMaps cpus) : Shows (viewOf maps) maps :=
  ⟨.refl _, rfl, .refl _⟩

/-! ## Reading -/

structure RawSyscallAggregate where
  syscallNumber : UInt32
  count : UInt64
  errors : UInt64
  totalDurationNs : UInt64
  minDurationNs : UInt64
  maxDurationNs : UInt64
  deriving Repr, DecidableEq

structure SyscallAggregateCapture where
  groups : List RawSyscallAggregate
  observedEntries : UInt64
  matchedExits : UInt64
  unmatchedExits : UInt64
  droppedAggregates : UInt64
  inflightAtEnd : UInt64
  deriving Repr, DecidableEq

/-- The error that reading the maps can end with. -/
inductive SyscallAggregateError where
  | malformedMapValue (map : String) (expected actual : Nat)
  deriving Repr, DecidableEq

/-- `decode_u32`. -/
def decodeU32 (map : String) (bytes : List UInt8) : Except SyscallAggregateError UInt32 := do
  ensure (bytes.length = 4) (.malformedMapValue map 4 bytes.length)
  return readU32 bytes 0

/-- `decode_u64_fields`. -/
def decodeU64Fields (fields : Nat) (map : String) (bytes : List UInt8) :
    Except SyscallAggregateError (Vector UInt64 fields) := do
  ensure (bytes.length = fields * 8) (.malformedMapValue map (fields * 8) bytes.length)
  return Vector.ofFn (fun index => readU64 bytes (index.val * 8))

/-- One turn of the loop of `sum_group`. -/
def addFields (group : RawSyscallAggregate) (fields : Vector UInt64 5) : RawSyscallAggregate :=
  if fields[0] = 0 then group
  else
    { group with
      count := saturatingAdd group.count fields[0]
      errors := saturatingAdd group.errors fields[1]
      totalDurationNs := saturatingAdd group.totalDurationNs fields[2]
      minDurationNs := min group.minDurationNs fields[3]
      maxDurationNs := max group.maxDurationNs fields[4] }

/-- `sum_group`. -/
def sumGroup (syscallNumber : UInt32) (values : List (List UInt8)) :
    Except SyscallAggregateError RawSyscallAggregate := do
  let group ← values.foldlM
    (fun group value => do
      let fields ← decodeU64Fields 5 "syscall_aggregate_groups" value
      return addFields group fields)
    { syscallNumber, count := 0, errors := 0, totalDurationNs := 0
      minDurationNs := UInt64.ofNat (2 ^ 64 - 1), maxDurationNs := 0 }
  return if group.count = 0 then { group with minDurationNs := 0 } else group

/-- `read_capture`: the groups by their total, the largest first. -/
def readCapture (view : SyscallMapView) : Except SyscallAggregateError SyscallAggregateCapture := do
  let groups ← view.groups.mapM (fun (key, values) => do
    let syscallNumber ← decodeU32 "syscall_aggregate_groups" key
    sumGroup syscallNumber values)
  let summary ← decodeU64Fields 4 "syscall_aggregate_summary" view.summary
  return {
    groups := sortByKey
      (fun group => toLex (OrderDual.toDual group.totalDurationNs, group.syscallNumber)) groups
    observedEntries := summary[0]
    matchedExits := summary[1]
    unmatchedExits := summary[2]
    droppedAggregates := summary[3]
    inflightAtEnd := UInt64.ofNat (min view.inflightKeys.length (2 ^ 64 - 1)) }

/-! ## What is read from well-formed maps -/

theorem decodeU32_leU32 (map : String) (x : UInt32) : decodeU32 map (leU32 x) = .ok x := by
  have hread := readU32_leU32 x []
  rw [List.append_nil] at hread
  rw [decodeU32, ensure_of (length_leU32 x), ok_bind, hread]
  rfl

private theorem readU64_flatMap_leU64 {words : List UInt64} {index : ℕ}
    (h : index < words.length) : readU64 (words.flatMap leU64) (index * 8) = words[index] := by
  induction words generalizing index with
  | nil => cases h
  | cons word words ih =>
    rw [List.flatMap_cons]
    cases index with
    | zero => exact readU64_leU64 word _
    | succ index =>
      rw [readU64_append (by rw [length_leU64]; omega), length_leU64,
        show (index + 1) * 8 - 8 = index * 8 by omega, ih (Nat.lt_of_succ_lt_succ h),
        List.getElem_cons_succ]

theorem decodeU64Fields_fieldBytes (map : String) {count : ℕ} (fields : Vector UInt64 count) :
    decodeU64Fields count map (fieldBytes fields) = .ok fields := by
  have hlength : (fieldBytes fields).length = count * 8 := by
    simp [fieldBytes, List.length_flatMap]
  rw [decodeU64Fields, ensure_of hlength, ok_bind]
  refine congrArg Except.ok (Vector.ext ?_)
  intro index hindex
  rw [Vector.getElem_ofFn]
  exact readU64_flatMap_leU64 (by simpa using hindex)

/-- The CPUs that have calls, as `sum_group` sees it. -/
def counted (slots : List SyscallAggregate) : List SyscallAggregate :=
  slots.filter (fun slot => slot.count ≠ 0)

/-- The sum of the totals on all CPUs. -/
def sumSlots (syscallNumber : UInt32) (slots : List SyscallAggregate) : RawSyscallAggregate :=
  { syscallNumber
    count := ((counted slots).map SyscallAggregate.count).foldl saturatingAdd 0
    errors := ((counted slots).map SyscallAggregate.errors).foldl saturatingAdd 0
    totalDurationNs := ((counted slots).map SyscallAggregate.totalDurationNs).foldl saturatingAdd 0
    minDurationNs :=
      if counted slots = [] then 0
      else ((counted slots).map SyscallAggregate.minDurationNs).foldl min
        (UInt64.ofNat (2 ^ 64 - 1))
    maxDurationNs := ((counted slots).map SyscallAggregate.maxDurationNs).foldl max 0 }

private theorem foldl_addFields (slots : List SyscallAggregate) (group : RawSyscallAggregate) :
    slots.foldl (fun group slot => addFields group (aggregateFields slot)) group =
      { syscallNumber := group.syscallNumber
        count := ((counted slots).map SyscallAggregate.count).foldl saturatingAdd group.count
        errors := ((counted slots).map SyscallAggregate.errors).foldl saturatingAdd group.errors
        totalDurationNs := ((counted slots).map SyscallAggregate.totalDurationNs).foldl saturatingAdd
          group.totalDurationNs
        minDurationNs := ((counted slots).map SyscallAggregate.minDurationNs).foldl min
          group.minDurationNs
        maxDurationNs := ((counted slots).map SyscallAggregate.maxDurationNs).foldl max
          group.maxDurationNs } := by
  induction slots generalizing group with
  | nil => rfl
  | cons slot slots ih =>
    rw [List.foldl_cons, ih]
    by_cases hcount : slot.count = 0
    · simp [counted, addFields, aggregateFields, hcount]
    · simp [counted, addFields, aggregateFields, hcount]

private theorem foldlM_sumGroup (slots : List SyscallAggregate) (group : RawSyscallAggregate) :
    (slots.map (fieldBytes ∘ aggregateFields)).foldlM
      (fun group value => do
        let fields ← decodeU64Fields 5 "syscall_aggregate_groups" value
        return addFields group fields) group =
      (.ok (slots.foldl (fun group slot => addFields group (aggregateFields slot)) group) :
        Except SyscallAggregateError RawSyscallAggregate) := by
  induction slots generalizing group with
  | nil => rfl
  | cons slot slots ih =>
    rw [List.map_cons, List.foldlM_cons, Function.comp_apply, decodeU64Fields_fieldBytes, ok_bind]
    exact ih _

/-- No CPU is counted exactly when the sum of the counts is 0. -/
private theorem foldl_count_eq_zero_iff (slots : List SyscallAggregate) :
    ((counted slots).map SyscallAggregate.count).foldl saturatingAdd 0 = 0 ↔
      counted slots = [] := by
  constructor
  · intro hzero
    have hsum := toNat_foldl_saturatingAdd ((counted slots).map SyscallAggregate.count) 0
    rw [hzero] at hsum
    by_contra hne
    obtain ⟨slot, hslot⟩ := List.exists_mem_of_ne_nil _ hne
    have hcount : slot.count ≠ 0 := by simpa [counted] using (List.mem_filter.mp hslot).2
    have hpos : 0 < slot.count.toNat :=
      Nat.pos_of_ne_zero fun h => hcount (UInt64.toNat_inj.mp h)
    have hle : slot.count.toNat ≤
        (((counted slots).map SyscallAggregate.count).map UInt64.toNat).sum :=
      List.single_le_sum (fun _ _ => Nat.zero_le _) _
        (List.mem_map_of_mem (List.mem_map_of_mem hslot))
    have hzeros : (0 : UInt64).toNat = 0 := rfl
    omega
  · intro hempty
    rw [hempty]
    rfl

theorem sumGroup_eq (syscallNumber : UInt32) (slots : List SyscallAggregate) :
    sumGroup syscallNumber (slots.map (fieldBytes ∘ aggregateFields)) =
      .ok (sumSlots syscallNumber slots) := by
  unfold sumGroup sumSlots
  rw [foldlM_sumGroup, ok_bind, foldl_addFields]
  simp only [foldl_count_eq_zero_iff]
  split_ifs <;> rfl

private theorem exists_map_ok {α β ε : Type} {f : α → Except ε β} {l : List α}
    (h : ∀ a ∈ l, ∃ b, f a = .ok b) : ∃ results : List β, l.map f = results.map .ok := by
  induction l with
  | nil => exact ⟨[], rfl⟩
  | cons a l ih =>
    obtain ⟨b, hb⟩ := h a List.mem_cons_self
    obtain ⟨results, hresults⟩ := ih (fun a' ha' => h a' (List.mem_cons_of_mem _ ha'))
    exact ⟨b :: results, by rw [List.map_cons, List.map_cons, hb, hresults]⟩

/-- What is read from maps: one group for each key, and the counters. -/
structure ReadFrom {cpus : ℕ} (capture : SyscallAggregateCapture) (maps : SyscallMaps cpus) :
    Prop where
  groups : capture.groups.Perm
    (maps.groups.entries.map (fun entry => sumSlots entry.1 (List.ofFn entry.2)))
  entries : capture.observedEntries = maps.summary.entries
  exits : capture.matchedExits = maps.summary.exits
  unmatched : capture.unmatchedExits = maps.summary.unmatchedExits
  dropped : capture.droppedAggregates = maps.summary.droppedAggregates
  inflight : capture.inflightAtEnd = UInt64.ofNat (min maps.inflight.len (2 ^ 64 - 1))

theorem readCapture_of_shows {view : SyscallMapView} (h : Shows view maps) :
    ∃ capture, readCapture view = .ok capture ∧ ReadFrom capture maps := by
  let read : List UInt8 × List (List UInt8) → Except SyscallAggregateError RawSyscallAggregate :=
    fun group => do
      let syscallNumber ← decodeU32 "syscall_aggregate_groups" group.1
      sumGroup syscallNumber group.2
  have hread : (viewOf maps).groups.map read =
      (maps.groups.entries.map (fun entry => sumSlots entry.1 (List.ofFn entry.2))).map .ok := by
    simp only [viewOf, List.map_map]
    apply List.map_congr_left
    intro entry _
    show (decodeU32 _ (leU32 entry.1) >>= fun syscallNumber => sumGroup syscallNumber _) = _
    rw [decodeU32_leU32, ok_bind, sumGroup_eq]
    rfl
  -- every group is read, in the order of the view
  obtain ⟨groups, hgroups⟩ : ∃ groups : List RawSyscallAggregate,
      view.groups.map read = groups.map .ok := by
    apply exists_map_ok
    intro group hgroup
    have hmem : read group ∈ (viewOf maps).groups.map read :=
      List.mem_map_of_mem (h.groups.mem_iff.mp hgroup)
    rw [hread] at hmem
    obtain ⟨result, -, hresult⟩ := List.mem_map.mp hmem
    exact ⟨result, hresult.symm⟩
  have hperm : groups.Perm
      (maps.groups.entries.map (fun entry => sumSlots entry.1 (List.ofFn entry.2))) := by
    have hmap := h.groups.map read
    rw [hgroups, hread] at hmap
    exact (List.map_perm_map_iff fun _ _ heq => Except.ok.inj heq).mp hmap
  have hsummary : decodeU64Fields 4 "syscall_aggregate_summary" view.summary =
      .ok (summaryFields maps.summary) := by
    rw [h.summary]
    exact decodeU64Fields_fieldBytes _ _
  have hlength : view.inflightKeys.length = maps.inflight.len := by
    rw [h.inflightKeys.length_eq]
    exact List.length_map _
  refine ⟨_, bind_eq_ok_iff.mpr ⟨groups, mapM_eq_ok_iff.mpr hgroups,
    bind_eq_ok_iff.mpr ⟨_, hsummary, rfl⟩⟩, ?_⟩
  exact
    { groups := (sortByKey_perm _ _).trans hperm
      entries := rfl
      exits := rfl
      unmatched := rfl
      dropped := rfl
      inflight := by rw [hlength] }

/-! ## Counts, errors, totals and maxima -/

section Sums

variable {cpus : ℕ} {calls : List (Fin cpus × AggregatedCall)}

private theorem toNat_ofNat_of_lt {n : ℕ} (h : n < 2 ^ 64) : (UInt64.ofNat n).toNat = n := by
  rw [UInt64.toNat_ofNat', Nat.mod_eq_of_lt h]

/-- A CPU is skipped exactly when its counter is 0. -/
theorem count_ne_zero_iff (cpu : Fin cpus) :
    (totals calls cpu).count ≠ 0 ↔ (durationsOn calls cpu).length % 2 ^ 64 ≠ 0 := by
  rw [totals_count, durationsOn, List.length_map, ne_eq, ne_eq, ← UInt64.toNat_inj,
    UInt64.toNat_ofNat']
  rfl

theorem length_onShard_le (cpu : Fin cpus) : (onShard cpu calls).length ≤ calls.length := by
  rw [onShard, List.length_map]
  exact List.length_filter_le _ _

/-- While no counter wraps, the sum over the CPUs of what the calls add to a field is the sum over
    all calls. -/
theorem toNat_sum_field {field : SyscallAggregate → UInt64} {weight : AggregatedCall → ℕ}
    (hfield : ∀ cpu, field (totals calls cpu) =
      UInt64.ofNat ((onShard cpu calls).map weight).sum)
    (hlength : calls.length < 2 ^ 64) (hsum : ((calls.map Prod.snd).map weight).sum < 2 ^ 64) :
    (((counted (List.ofFn (totals calls))).map field).foldl saturatingAdd 0).toNat =
      ((calls.map Prod.snd).map weight).sum := by
  have hshards := sum_onShard weight calls
  have hone : ∀ cpu, (field (totals calls cpu)).toNat =
      ((onShard cpu calls).map weight).sum := by
    intro cpu
    rw [hfield]
    apply toNat_ofNat_of_lt
    have := Finset.single_le_sum (fun i _ => Nat.zero_le (((onShard i calls).map weight).sum))
      (Finset.mem_univ cpu)
    omega
  -- a CPU whose counter is 0 has no calls, so skipping it changes nothing
  have hskip : ((counted (List.ofFn (totals calls))).map (fun slot => (field slot).toNat)).sum =
      ((List.ofFn (totals calls)).map (fun slot => (field slot).toNat)).sum := by
    apply sum_map_filter_of_zero
    intro slot hslot hcount
    obtain ⟨cpu, rfl⟩ := List.mem_ofFn.mp hslot
    have hnone : onShard cpu calls = [] := by
      have hzero : (totals calls cpu).count = 0 := by simpa using hcount
      rw [totals_count, ← UInt64.toNat_inj,
        toNat_ofNat_of_lt ((length_onShard_le cpu).trans_lt hlength)] at hzero
      exact List.length_eq_zero_iff.mp hzero
    rw [hone, hnone]
    rfl
  rw [List.map_ofFn, List.sum_ofFn] at hskip
  simp only [Function.comp_apply, hone, hshards] at hskip
  have hfits : ((calls.map Prod.snd).map weight).sum ≤ 2 ^ 64 - 1 := Nat.le_sub_one_of_lt hsum
  rw [toNat_foldl_saturatingAdd, List.map_map]
  show min (0 + ((counted (List.ofFn (totals calls))).map (fun slot => (field slot).toNat)).sum)
    (2 ^ 64 - 1) = _
  rw [hskip, Nat.zero_add, Nat.min_eq_left hfits]

structure SumsCalls (group : RawSyscallAggregate) (calls : List (Fin cpus × AggregatedCall)) :
    Prop where
  count : group.count.toNat = calls.length
  errors : group.errors.toNat = calls.countP (fun call => call.2.failed)
  total : group.totalDurationNs.toNat = (calls.map (fun call => call.2.durationNs.toNat)).sum
  max : IsGreatest {d | ∃ call ∈ calls, call.2.durationNs = d} group.maxDurationNs

/-- The durations of the calls are those on the CPUs. -/
theorem mem_durations_iff {d : UInt64} :
    (∃ call ∈ calls, call.2.durationNs = d) ↔ ∃ cpu, d ∈ durationsOn calls cpu := by
  simp only [durationsOn, List.mem_map, mem_onShard_iff, Prod.exists]

theorem mem_map_counted_iff {field : SyscallAggregate → UInt64} {x : UInt64} :
    x ∈ (counted (List.ofFn (totals calls))).map field ↔
      ∃ cpu, (durationsOn calls cpu).length % 2 ^ 64 ≠ 0 ∧ field (totals calls cpu) = x := by
  simp only [counted, List.mem_map, List.mem_filter, List.mem_ofFn', Set.mem_range, decide_eq_true_eq]
  constructor
  · rintro ⟨slot, ⟨⟨cpu, rfl⟩, hcount⟩, hfield⟩
    exact ⟨cpu, (count_ne_zero_iff cpu).mp hcount, hfield⟩
  · rintro ⟨cpu, hcount, hfield⟩
    exact ⟨_, ⟨⟨cpu, rfl⟩, (count_ne_zero_iff cpu).mpr hcount⟩, hfield⟩

/-- While no counter wraps, a CPU with a duration is counted. -/
theorem counted_of_mem (hlength : calls.length < 2 ^ 64) {cpu : Fin cpus} {d : UInt64}
    (hd : d ∈ durationsOn calls cpu) : (durationsOn calls cpu).length % 2 ^ 64 ≠ 0 := by
  have hle : (durationsOn calls cpu).length ≤ calls.length := by
    rw [durationsOn, List.length_map]
    exact length_onShard_le cpu
  have hpos := List.length_pos_of_mem hd
  rw [Nat.mod_eq_of_lt (hle.trans_lt hlength)]
  omega

theorem sumSlots_max (hlength : calls.length < 2 ^ 64) (hne : calls ≠ []) (number : UInt32) :
    IsGreatest {d | ∃ call ∈ calls, call.2.durationNs = d}
      (sumSlots number (List.ofFn (totals calls))).maxDurationNs := by
  -- on each CPU that has calls
  have hone : ∀ {cpu d}, d ∈ durationsOn calls cpu →
      IsGreatest {d | d ∈ durationsOn calls cpu} (totals calls cpu).maxDurationNs := by
    intro cpu d hd
    rw [totals_maxDurationNs]
    exact isGreatest_foldl_max_of_ne_nil (List.ne_nil_of_mem hd) fun _ => UInt64.zero_le
  have hcounted : (counted (List.ofFn (totals calls))).map SyscallAggregate.maxDurationNs ≠ [] := by
    obtain ⟨call, hcall⟩ := List.exists_mem_of_ne_nil _ hne
    obtain ⟨cpu, hd⟩ := mem_durations_iff.mp ⟨call, hcall, rfl⟩
    exact List.ne_nil_of_mem (mem_map_counted_iff.mpr ⟨cpu, counted_of_mem hlength hd, rfl⟩)
  obtain ⟨hmem, hle⟩ := isGreatest_foldl_max_of_ne_nil hcounted fun _ => UInt64.zero_le
  constructor
  · obtain ⟨cpu, hcount, hmax⟩ := mem_map_counted_iff.mp hmem
    obtain ⟨d, hd⟩ := List.exists_mem_of_ne_nil (durationsOn calls cpu) (by
      rintro hnil
      rw [hnil] at hcount
      exact hcount rfl)
    refine mem_durations_iff.mpr ⟨cpu, ?_⟩
    show List.foldl max 0 _ ∈ _
    rw [← hmax]
    exact (hone hd).1
  · intro d hd
    obtain ⟨cpu, hd⟩ := mem_durations_iff.mp hd
    exact ((hone hd).2 hd).trans
      (hle (mem_map_counted_iff.mpr ⟨cpu, counted_of_mem hlength hd, rfl⟩))

theorem sumSlots_count (hlength : calls.length < 2 ^ 64) (number : UInt32) :
    (sumSlots number (List.ofFn (totals calls))).count.toNat = calls.length := by
  have hone : ((calls.map Prod.snd).map (fun _ => 1)).sum = calls.length := by
    simp [Function.comp_def]
  rw [← hone]
  exact toNat_sum_field (fun cpu => by rw [totals_count]; simp) hlength (hone ▸ hlength)

theorem sumsCalls_sumSlots (number : UInt32) (hne : calls ≠ []) (hlength : calls.length < 2 ^ 64)
    (hdurations : (calls.map (·.2.durationNs.toNat)).sum < 2 ^ 64) :
    SumsCalls (sumSlots number (List.ofFn (totals calls))) calls := by
  have hfailed : ((calls.map Prod.snd).map (fun call => if call.failed then 1 else 0)).sum =
      calls.countP (·.2.failed) := by
    rw [List.map_map]
    exact sum_map_ite_eq_countP (fun call : Fin cpus × AggregatedCall => call.2.failed) calls
  have htotal : ((calls.map Prod.snd).map (·.durationNs.toNat)).sum =
      (calls.map (·.2.durationNs.toNat)).sum := by
    rw [List.map_map]
    rfl
  refine ⟨sumSlots_count hlength number, ?_, ?_, sumSlots_max hlength hne number⟩
  · rw [← hfailed]
    exact toNat_sum_field (fun cpu => totals_errors calls cpu) hlength
      (hfailed ▸ List.countP_le_length.trans_lt hlength)
  · rw [← htotal]
    exact toNat_sum_field (fun cpu => totals_totalDurationNs calls cpu) hlength
      (htotal ▸ hdurations)

end Sums

variable {capture : SyscallAggregateCapture}

/-- The groups that are read are the system calls with aggregated calls, each once. -/
theorem ReadFrom.mem_groups_iff {history : History cpus} (h : ReadFrom capture maps)
    (hmaps : Represents maps history) {group : RawSyscallAggregate} :
    group ∈ capture.groups ↔ ∃ number, history.calls number ≠ [] ∧
      group = sumSlots number (List.ofFn (totals (history.calls number))) := by
  rw [h.groups.mem_iff, List.mem_map]
  constructor
  · rintro ⟨⟨number, slots⟩, hentry, rfl⟩
    have hget := BTreeMap.get?_eq_some_iff.mpr hentry
    rw [hmaps.groups] at hget
    split_ifs at hget with hcalls
    · exact ⟨number, hcalls, by rw [← Option.some.inj hget]⟩
  · rintro ⟨number, hcalls, rfl⟩
    have hget := hmaps.groups number
    rw [if_neg hcalls] at hget
    exact ⟨_, BTreeMap.get?_eq_some_iff.mp hget, rfl⟩

/-- While no counter wraps, the groups together have every aggregated call once. -/
theorem ReadFrom.sum_counts {history : History cpus} (h : ReadFrom capture maps)
    (hmaps : Represents maps history) (hlength : history.aggregated.length < 2 ^ 64) :
    (capture.groups.map (·.count.toNat)).sum = history.aggregated.length := by
  have hkeys : ∀ call ∈ history.aggregated,
      call.2.syscallNumber ∈ maps.groups.entries.map Prod.fst := by
    intro call hcall
    have hne : history.calls call.2.syscallNumber ≠ [] :=
      List.ne_nil_of_mem (List.mem_filter.mpr ⟨hcall, by simp⟩)
    have hget := hmaps.groups call.2.syscallNumber
    rw [if_neg hne] at hget
    exact List.mem_map_of_mem (BTreeMap.get?_eq_some_iff.mp hget)
  rw [← sum_countP_key (·.2.syscallNumber) maps.groups.keys_nodup hkeys,
    (h.groups.map _).sum_eq, List.map_map, List.map_map]
  apply congrArg List.sum
  apply List.map_congr_left
  rintro ⟨number, slots⟩ hentry
  have hget := BTreeMap.get?_eq_some_iff.mpr hentry
  rw [hmaps.groups] at hget
  split_ifs at hget
  obtain rfl := Option.some.inj hget
  have hcalls : (history.calls number).length =
      history.aggregated.countP (fun call => call.2.syscallNumber = number) :=
    List.countP_eq_length_filter.symm
  have hle : (history.calls number).length ≤ history.aggregated.length :=
    List.length_filter_le _ _
  show (sumSlots number (List.ofFn (totals (history.calls number)))).count.toNat = _
  rw [sumSlots_count (hle.trans_lt hlength), hcalls]
  rfl

theorem ReadFrom.nodup_groups (h : ReadFrom capture maps) :
    (capture.groups.map RawSyscallAggregate.syscallNumber).Nodup := by
  rw [(h.groups.map _).nodup_iff, List.map_map]
  exact maps.groups.keys_nodup

/-- What user space reads is what the calls add up to: for each system call the number of the exits
    that found an entry and got a group, the errors among them, and the sum and the maximum of their
    durations; and the matched exits are those of all groups and those without a group. -/
theorem readCapture_totals {cpus : ℕ} (pidnsDev pidnsIno : UInt64) (targetPid : UInt32)
    (steps : List (Step cpus)) (history : History cpus) (view : SyscallMapView)
    (hhistory : history = .ofSteps pidnsDev pidnsIno targetPid steps)
    (hview : Shows view (runSteps (.initial pidnsDev pidnsIno targetPid) steps))
    (hexits : history.matchedExits < 2 ^ 64)
    (hdurations : ∀ number,
      ((history.calls number).map (fun call => call.2.durationNs.toNat)).sum < 2 ^ 64) :
    ∃ capture, readCapture view = .ok capture ∧
      (∀ group ∈ capture.groups, SumsCalls group (history.calls group.syscallNumber)) ∧
      (capture.groups.map RawSyscallAggregate.syscallNumber).Nodup ∧
      (∀ number, history.calls number ≠ [] →
        ∃ group ∈ capture.groups, group.syscallNumber = number) ∧
      capture.matchedExits.toNat =
        (capture.groups.map (fun group => group.count.toNat)).sum + history.refusedExits := by
  subst hhistory
  obtain ⟨capture, hread, hfrom⟩ := readCapture_of_shows hview
  have hmaps := represents_runSteps pidnsDev pidnsIno targetPid steps
  have hlength : (History.ofSteps pidnsDev pidnsIno targetPid steps).aggregated.length < 2 ^ 64 := by
    rw [History.matchedExits] at hexits
    omega
  refine ⟨capture, hread, ?_, hfrom.nodup_groups, ?_, ?_⟩
  · intro group hgroup
    obtain ⟨number, hcalls, rfl⟩ := (hfrom.mem_groups_iff hmaps).mp hgroup
    exact sumsCalls_sumSlots number hcalls ((List.length_filter_le _ _).trans_lt hlength)
      (hdurations number)
  · intro number hcalls
    exact ⟨_, (hfrom.mem_groups_iff hmaps).mpr ⟨number, hcalls, rfl⟩, rfl⟩
  · rw [hfrom.sum_counts hmaps hlength, hfrom.exits, hmaps.exits]
    exact toNat_ofNat_of_lt hexits

section Runs

variable {cpus : ℕ} (cpu : Fin cpus)

/-- A run of the target's only thread. -/
def soleRun (argument ktimeNs : UInt64) : ProgramRun cpus :=
  { cpu, argument, nsCurrentPidTgid := fun _ _ => some ⟨7, 7⟩, ktimeNs, refused := false }

/-- The thread calls `read` for a time. -/
def readCall (ktimeNs durationNs : UInt64) : List (Step cpus) :=
  [.entry (soleRun cpu 0 ktimeNs), .exit (soleRun cpu 1 (ktimeNs + durationNs))]

end Runs

/-- Two calls during the window, on one CPU. -/
def twoCalls (first second : UInt64) : List (Step 1) :=
  .arm true :: (readCall 0 5 first ++ readCall 0 100 second ++ [.arm false])

/-- The thread moves to another CPU between two calls. -/
def callsOnTwoCpus : List (Step 2) :=
  .arm true :: (readCall 0 5 3 ++ readCall 1 100 10 ++ [.arm false])

/-- The two slots of the group are added. -/
theorem readCapture_totals_twoCpus :
    ((History.ofSteps 3 4 7 callsOnTwoCpus).calls 0).map (fun call =>
      (call.1, call.2.durationNs)) = [(0, 3), (1, 10)] ∧
    ∃ capture, readCapture (viewOf (runSteps (.initial 3 4 7) callsOnTwoCpus)) = .ok capture ∧
      (∀ group ∈ capture.groups,
        SumsCalls group ((History.ofSteps 3 4 7 callsOnTwoCpus).calls group.syscallNumber)) ∧
      capture.matchedExits.toNat = (capture.groups.map (fun group => group.count.toNat)).sum := by
  have hdurations : ∀ number, (((History.ofSteps 3 4 7 callsOnTwoCpus).calls number).map
      (·.2.durationNs.toNat)).sum < 2 ^ 64 := by
    intro number
    refine lt_of_le_of_lt (List.Sublist.sum_le_sum (List.filter_sublist.map _)
      fun _ _ => Nat.zero_le _) ?_
    decide +kernel
  obtain ⟨capture, hread, hgroups, -, -, hexits⟩ := readCapture_totals 3 4 7 callsOnTwoCpus _ _ rfl
    (shows_viewOf _) (by decide +kernel) hdurations
  exact ⟨by decide +kernel, capture, hread, hgroups, hexits⟩

/-! ## Minima -/

/-- What the durations of a system call must be like for its minimum: a CPU that is counted had a
    duration of 0 last, or had the least duration and this is not 0. A counter is a word, so that a
    CPU with a multiple of 2^64 calls is not counted; without a counted CPU the minimum is 0. -/
def KeepsMinimum {cpus : ℕ} (durations : Fin cpus → List UInt64) : Prop :=
  (∃ cpu, (durations cpu).length % 2 ^ 64 ≠ 0 ∧ (durations cpu).getLast? = some 0) ∨
  (∃ cpu, (durations cpu).length % 2 ^ 64 ≠ 0 ∧
    ∃ d ∈ durations cpu, d ≠ 0 ∧ ∀ cpu', ∀ d' ∈ durations cpu', d ≤ d') ∨
  (∀ cpu, (durations cpu).length % 2 ^ 64 = 0) ∧ ∃ cpu, 0 ∈ durations cpu

section Minima

variable {cpus : ℕ} {calls : List (Fin cpus × AggregatedCall)}

private theorem le_largest (d : UInt64) : d ≤ UInt64.ofNat (2 ^ 64 - 1) := by
  rw [UInt64.le_iff_toNat_le]
  exact Nat.le_sub_one_of_lt d.toNat_lt

private theorem ne_nil_of_counted {durations : List UInt64} (h : durations.length % 2 ^ 64 ≠ 0) :
    durations ≠ [] := by
  rintro rfl
  exact h rfl

/-- The minimum of a group without a counted CPU is 0, otherwise it is the least of what the counted
    CPUs kept. -/
theorem sumSlots_min_cases (number : UInt32) :
    (∀ cpu, (durationsOn calls cpu).length % 2 ^ 64 = 0) ∧
        (sumSlots number (List.ofFn (totals calls))).minDurationNs = 0 ∨
      (∃ cpu, (durationsOn calls cpu).length % 2 ^ 64 ≠ 0 ∧
        (durationsOn calls cpu).foldl keepMin 0 =
          (sumSlots number (List.ofFn (totals calls))).minDurationNs) ∧
      ∀ cpu, (durationsOn calls cpu).length % 2 ^ 64 ≠ 0 →
        (sumSlots number (List.ofFn (totals calls))).minDurationNs ≤
          (durationsOn calls cpu).foldl keepMin 0 := by
  by_cases hnil : counted (List.ofFn (totals calls)) = []
  · left
    refine ⟨?_, if_pos hnil⟩
    intro cpu
    by_contra hcount
    have hmem := (@mem_map_counted_iff cpus calls SyscallAggregate.count _).mpr ⟨cpu, hcount, rfl⟩
    rw [hnil] at hmem
    cases hmem
  · right
    have hmin : (sumSlots number (List.ofFn (totals calls))).minDurationNs =
        ((counted (List.ofFn (totals calls))).map SyscallAggregate.minDurationNs).foldl min
          (UInt64.ofNat (2 ^ 64 - 1)) := if_neg hnil
    obtain ⟨hmem, hle⟩ := isLeast_foldl_min_of_ne_nil
      (mt List.map_eq_nil_iff.mp hnil : (counted (List.ofFn (totals calls))).map
        SyscallAggregate.minDurationNs ≠ []) le_largest
    rw [hmin]
    constructor
    · obtain ⟨cpu, hcount, hfield⟩ := mem_map_counted_iff.mp hmem
      rw [totals_minDurationNs] at hfield
      exact ⟨cpu, hcount, hfield⟩
    · intro cpu hcount
      rw [← totals_minDurationNs]
      exact hle (mem_map_counted_iff.mpr ⟨cpu, hcount, rfl⟩)

theorem sumSlots_min_isLeast_iff (number : UInt32) :
    IsLeast {d | ∃ call ∈ calls, call.2.durationNs = d}
        (sumSlots number (List.ofFn (totals calls))).minDurationNs ↔
      KeepsMinimum (durationsOn calls) := by
  have hset : {d | ∃ call ∈ calls, call.2.durationNs = d} =
      {d | ∃ cpu, d ∈ durationsOn calls cpu} := Set.ext fun _ => mem_durations_iff
  rw [hset]
  -- either no CPU has a count, or the minimum is that of a CPU that has one
  rcases @sumSlots_min_cases cpus calls number with ⟨hnone, hzero⟩ | ⟨⟨cpu, hcount, hmin⟩, hle⟩
  · rw [hzero]
    constructor
    · rintro ⟨hmem, -⟩
      exact .inr (.inr ⟨hnone, hmem⟩)
    · rintro (⟨cpu, hcount, -⟩ | ⟨cpu, hcount, -⟩ | ⟨-, hmem⟩)
      · exact absurd (hnone cpu) hcount
      · exact absurd (hnone cpu) hcount
      · exact ⟨hmem, fun d _ => UInt64.zero_le⟩
  · constructor
    · rintro ⟨-, hleast⟩
      have hne := ne_nil_of_counted hcount
      -- a minimum of 0 was kept last, since 0 stands for no minimum yet
      by_cases hzero : (sumSlots number (List.ofFn (totals calls))).minDurationNs = 0
      · exact .inl ⟨cpu, hcount, (foldl_keepMin_eq_zero_iff hne).mp (hmin.trans hzero)⟩
      · exact .inr (.inl ⟨cpu, hcount, _, foldl_keepMin_mem hne, hmin ▸ hzero,
          fun cpu' d' hd' => hmin ▸ hleast ⟨cpu', hd'⟩⟩)
    · rintro (⟨last, hlast, hzero⟩ | ⟨owner, howner, d, hd, hpos, hleast⟩ | ⟨hnone, -⟩)
      · -- the CPU that ends with 0 has kept it
        have hkept := (foldl_keepMin_eq_zero_iff (ne_nil_of_counted hlast)).mpr hzero
        have hmin0 : (sumSlots number (List.ofFn (totals calls))).minDurationNs = 0 :=
          le_antisymm (hkept ▸ hle last hlast) UInt64.zero_le
        rw [hmin0]
        exact ⟨⟨last, List.mem_of_getLast? hzero⟩, fun _ _ => UInt64.zero_le⟩
      · -- no duration is 0, so every CPU has kept its least one
        have hnozero : 0 ∉ durationsOn calls owner := fun h0 =>
          hpos (le_antisymm (hleast owner 0 h0) UInt64.zero_le)
        have hlow := (hle owner howner).trans (foldl_keepMin_le hnozero d hd)
        have hhigh := hleast cpu _ (foldl_keepMin_mem (ne_nil_of_counted hcount))
        rw [hmin] at hhigh
        rw [le_antisymm hlow hhigh]
        exact ⟨⟨owner, hd⟩, fun d' ⟨cpu', hd'⟩ => hleast cpu' d' hd'⟩
      · exact absurd (hnone cpu) hcount

end Minima

/-- The minimum that is read is the least duration exactly when the programs kept it. -/
theorem minDuration_isLeast_iff {cpus : ℕ} (pidnsDev pidnsIno : UInt64) (targetPid : UInt32)
    (steps : List (Step cpus)) (history : History cpus) (view : SyscallMapView)
    (capture : SyscallAggregateCapture) (group : RawSyscallAggregate)
    (hhistory : history = .ofSteps pidnsDev pidnsIno targetPid steps)
    (hview : Shows view (runSteps (.initial pidnsDev pidnsIno targetPid) steps))
    (hread : readCapture view = .ok capture) (hgroup : group ∈ capture.groups) :
    IsLeast {d | ∃ call ∈ history.calls group.syscallNumber, call.2.durationNs = d}
        group.minDurationNs ↔
      KeepsMinimum (durationsOn (history.calls group.syscallNumber)) := by
  subst hhistory
  obtain ⟨capture', hread', hfrom⟩ := readCapture_of_shows hview
  rw [hread] at hread'
  cases hread'
  obtain ⟨number, -, rfl⟩ := (hfrom.mem_groups_iff
    (represents_runSteps pidnsDev pidnsIno targetPid steps)).mp hgroup
  exact sumSlots_min_isLeast_iff number

/-- Of a call that took 10 ns and one that took none, in this order, the minimum is 0. -/
theorem minDuration_isLeast_zero_last : ∃ capture group,
      readCapture (viewOf (runSteps (.initial 3 4 7) (twoCalls 10 0))) = .ok capture ∧
      group ∈ capture.groups ∧
      IsLeast {d | ∃ call ∈ (History.ofSteps 3 4 7 (twoCalls 10 0)).calls group.syscallNumber,
        call.2.durationNs = d} group.minDurationNs := by
  obtain ⟨capture, hread, hfrom⟩ :=
    readCapture_of_shows (shows_viewOf (runSteps (.initial 3 4 7) (twoCalls 10 0)))
  have hmaps := represents_runSteps 3 4 7 (twoCalls 10 0)
  obtain ⟨group, hgroup, hnumber⟩ : ∃ group ∈ capture.groups, group.syscallNumber = 0 :=
    ⟨_, (hfrom.mem_groups_iff hmaps).mpr ⟨0, by decide +kernel, rfl⟩, rfl⟩
  refine ⟨capture, group, hread, hgroup, (minDuration_isLeast_iff 3 4 7 (twoCalls 10 0) _ _ capture
    group rfl (shows_viewOf _) hread hgroup).mpr ?_⟩
  rw [hnumber]
  exact .inl ⟨0, by decide +kernel, by decide +kernel⟩

/-- In the other order, the programs take the 0 for none, and the minimum is 10. -/
theorem minDuration_forgets_zero : ∃ capture group,
      readCapture (viewOf (runSteps (.initial 3 4 7) (twoCalls 0 10))) = .ok capture ∧
      group ∈ capture.groups ∧
      ¬ IsLeast {d | ∃ call ∈ (History.ofSteps 3 4 7 (twoCalls 0 10)).calls group.syscallNumber,
        call.2.durationNs = d} group.minDurationNs := by
  have hview : (readCapture (viewOf (runSteps (.initial 3 4 7) (twoCalls 0 10)))).toOption.map
      (fun capture => capture.groups.map (fun group => (group.syscallNumber, group.minDurationNs))) =
      some [(0, 10)] := by
    decide +kernel
  obtain ⟨capture, hread, -⟩ :=
    readCapture_of_shows (shows_viewOf (runSteps (.initial 3 4 7) (twoCalls 0 10)))
  rw [hread] at hview
  obtain ⟨group, rest, hgroups, hgroup, -⟩ := List.map_eq_cons_iff.mp (Option.some.inj hview)
  obtain ⟨hnumber, hmin⟩ := Prod.mk.inj hgroup
  refine ⟨capture, group, hread, by rw [hgroups]; exact List.mem_cons_self, ?_⟩
  rw [hnumber, hmin]
  rintro ⟨-, hle⟩
  have hzero : ∃ call ∈ (History.ofSteps 3 4 7 (twoCalls 0 10)).calls 0,
      call.2.durationNs = 0 := by
    decide +kernel
  exact absurd (hle hzero) (by decide)

end Xprobe.Collector
