import Xprobe.Foundation.MergeRuns
import Xprobe.Cupti.CheckedDecode
import Xprobe.Cli.SelectorHints

/-!
# Merging aggregate groups

The agent may send several groups for one kernel or one kind of copy. `merge_aggregate_groups` in
`xprobe/cli/src/main.rs` sorts the groups by their activity, name, device and copy kind and merges
those that agree in all four.

The order compares ranks and the comparison of neighbours compares fields. The two agree, so equal
groups are neighbours and are all merged; the result is then a matter of the groups as a whole and
not of the order in which they arrived.
-/

namespace Xprobe.Cli

open Foundation Protocol Cupti

/-! ## The source -/

/-- `aggregate_activity_rank`. -/
def aggregateActivityRank : CuptiAggregateActivity → ℕ
  | .kernel => 0
  | .memcpy => 1
  | .memset => 2

/-- `memcpy_kind_rank`. -/
def memcpyKindRank : Option MemcpyKind → ℕ
  | none => 0
  | some .unknown => 1
  | some .hostToDevice => 2
  | some .deviceToHost => 3
  | some .deviceToDevice => 4
  | some .hostToHost => 5
  | some .peerToPeer => 6

/-- What the comparison of `merge_aggregate_groups` compares, one after the other. Strings are
    compared by their bytes, and `None` comes before every value. -/
def groupOrder (group : CuptiAggregateGroup) : ℕ ×ₗ WithBot (List ℕ) ×ₗ WithBot UInt32 ×ₗ ℕ :=
  toLex (aggregateActivityRank group.activity,
    toLex (group.name.map fun name => (utf8Bytes name).map UInt8.toNat,
      toLex (group.deviceId, memcpyKindRank group.memcpyKind)))

/-- The fields that neighbours are compared by. -/
structure GroupKey where
  activity : CuptiAggregateActivity
  name : Option String
  deviceId : Option UInt32
  memcpyKind : Option MemcpyKind
  deriving Repr, DecidableEq

def groupKey (group : CuptiAggregateGroup) : GroupKey :=
  { activity := group.activity
    name := group.name
    deviceId := group.deviceId
    memcpyKind := group.memcpyKind }

/-- A failure of `merge_aggregate_groups`. -/
def mergeFailure (message : String) : CommandFailure :=
  .new .traceExportFailed (.of message) false

/-- The new value of `total_bytes`. -/
def addTotalBytes : Option UInt64 → Option UInt64 → Except CommandFailure (Option UInt64)
  | some left, some right => do
    let sum ← okOr (checkedAdd left right)
      (mergeFailure "aggregate byte count overflowed while merging")
    return some sum
  | none, none => .ok none
  | _, _ => .error (mergeFailure "aggregate byte counters are inconsistent")

/-- The assignments to `previous` in the loop. -/
def mergeGroup (previous group : CuptiAggregateGroup) :
    Except CommandFailure CuptiAggregateGroup := do
  let count ← okOr (checkedAdd previous.count group.count)
    (mergeFailure "aggregate group count overflowed while merging")
  let totalDurationNs ← okOr (checkedAdd previous.totalDurationNs group.totalDurationNs)
    (mergeFailure "aggregate duration overflowed while merging")
  let totalBytes ← addTotalBytes previous.totalBytes group.totalBytes
  return { previous with
    count
    totalDurationNs
    minDurationNs := min previous.minDurationNs group.minDurationNs
    maxDurationNs := max previous.maxDurationNs group.maxDurationNs
    totalBytes }

/-- `merge_aggregate_groups`. -/
def mergeAggregateGroups (groups : List CuptiAggregateGroup) :
    Except CommandFailure (List CuptiAggregateGroup) :=
  mergeRuns (fun previous group => groupKey previous = groupKey group) mergeGroup
    (sortByKey groupOrder groups)

/-! ## The order and the fields agree -/

theorem aggregateActivityRank_injective : Function.Injective aggregateActivityRank := by
  intro a b h
  cases a <;> cases b <;> first | rfl | exact absurd h (by decide)

theorem memcpyKindRank_injective : Function.Injective memcpyKindRank := by
  intro a b h
  rcases a with - | a <;> rcases b with - | b
  · rfl
  · cases b <;> exact absurd h (by decide)
  · cases a <;> exact absurd h (by decide)
  · cases a <;> cases b <;> first | rfl | exact absurd h (by decide)

/-- Groups are equal in the order exactly when they agree in the fields that are compared. -/
theorem groupOrder_eq_iff {a b : CuptiAggregateGroup} :
    groupOrder a = groupOrder b ↔ groupKey a = groupKey b := by
  have hname : Function.Injective
      (Option.map fun name : String => (utf8Bytes name).map UInt8.toNat) := by
    refine Option.map_injective ?_
    intro name name' h
    have hbytes := List.map_injective_iff.mpr (fun _ _ => UInt8.toNat_inj.mp) h
    have htext := congrArg fromUtf8 hbytes
    rwa [fromUtf8_utf8Bytes, fromUtf8_utf8Bytes, Option.some.injEq] at htext
  constructor
  · intro h
    obtain ⟨hactivity, h⟩ := Prod.mk.inj (toLex_inj.mp h)
    obtain ⟨hnames, h⟩ := Prod.mk.inj (toLex_inj.mp h)
    obtain ⟨hdevice, hkind⟩ := Prod.mk.inj (toLex_inj.mp h)
    simp only [groupKey, GroupKey.mk.injEq]
    exact ⟨aggregateActivityRank_injective hactivity, hname hnames, hdevice,
      memcpyKindRank_injective hkind⟩
  · intro h
    simp only [groupKey, GroupKey.mk.injEq] at h
    obtain ⟨hactivity, hnames, hdevice, hkind⟩ := h
    rw [groupOrder, groupOrder, hactivity, hnames, hdevice, hkind]

/-! ## Totals -/

/-- The bytes of a group, none if it does not count them. -/
def bytesOf (totalBytes : Option UInt64) : ℕ := totalBytes.elim 0 UInt64.toNat

theorem eq_of_bytesOf {a b : Option UInt64} (hsome : a.isSome = b.isSome)
    (h : bytesOf a = bytesOf b) : a = b := by
  rcases a with - | a <;> rcases b with - | b
  · rfl
  · exact absurd hsome (by simp)
  · exact absurd hsome (by simp)
  · exact congrArg some (UInt64.toNat_inj.mp h)

structure Decodable (group : CuptiAggregateGroup) : Prop where
  nameComplete : group.nameComplete =
    group.name.map fun name => decide ((utf8Bytes name).length + 1 < nameLength)
  bytes : group.totalBytes.isSome = decide (group.activity ≠ .kernel)
  positive : 1 ≤ group.count.toNat
  min_le_mean : group.minDurationNs.toNat ≤ group.totalDurationNs.toNat / group.count.toNat
  mean_le_max : group.totalDurationNs.toNat / group.count.toNat ≤ group.maxDurationNs.toNat

/-- The group was decoded from a record of the agent. -/
def AcceptedGroup (group : CuptiAggregateGroup) : Prop :=
  ∃ record index, decodeAggregateRecord record index = .ok group

variable {groups groups' : List CuptiAggregateGroup} {group merged previous : CuptiAggregateGroup}

theorem AcceptedGroup.decodable (h : AcceptedGroup group) : Decodable group := by
  obtain ⟨record, index, h⟩ := h
  obtain ⟨hpositive, hmin, hmax⟩ := counters_of_decodeAggregateRecord h
  rw [decodeAggregateRecord] at h
  obtain ⟨_, -, h⟩ := of_bind h
  obtain ⟨_, -, h⟩ := of_bind h
  obtain ⟨⟨activity, hasName, hasBytes⟩, hactivity, h⟩ := of_bind h
  obtain ⟨name, hname, h⟩ := of_bind h
  obtain ⟨_, -, h⟩ := of_bind h
  cases h
  have hlength := congrArg List.length (utf8Bytes_of_fromUtf8 (okOr_eq_ok_iff.mp hname))
  have hbytes : hasBytes = decide (activity ≠ .kernel) := by
    have hkind := okOr_eq_ok_iff.mp hactivity
    rw [aggregateActivity] at hkind
    split at hkind <;> cases hkind <;> rfl
  refine ⟨?_, ?_, hpositive, hmin, hmax⟩
  · cases hasName with
    | false => rfl
    | true =>
      rw [← hlength]
      rfl
  · rw [← hbytes]
    cases hasBytes <;> rfl

structure GroupTotals (groups : List CuptiAggregateGroup) (merged : CuptiAggregateGroup) :
    Prop where
  key : ∀ group ∈ groups, groupKey group = groupKey merged
  count : merged.count.toNat = (groups.map (·.count.toNat)).sum
  duration : merged.totalDurationNs.toNat = (groups.map (·.totalDurationNs.toNat)).sum
  bytes : bytesOf merged.totalBytes = (groups.map (bytesOf ·.totalBytes)).sum
  least : IsLeast {d | d ∈ groups.map CuptiAggregateGroup.minDurationNs} merged.minDurationNs
  greatest : IsGreatest {d | d ∈ groups.map CuptiAggregateGroup.maxDurationNs} merged.maxDurationNs
  decodable : Decodable merged

/-- Nothing else enters a merged group. -/
theorem GroupTotals.unique {merged' : CuptiAggregateGroup} (h : GroupTotals groups merged)
    (h' : GroupTotals groups' merged') (hperm : groups.Perm groups') : merged = merged' := by
  have hsum : ∀ f : CuptiAggregateGroup → ℕ, (groups.map f).sum = (groups'.map f).sum :=
    fun f => (hperm.map f).sum_eq
  have hset : ∀ f : CuptiAggregateGroup → UInt64,
      {d | d ∈ groups.map f} = {d | d ∈ groups'.map f} :=
    fun f => Set.ext fun d => (hperm.map f).mem_iff
  have hkey : groupKey merged = groupKey merged' := by
    obtain ⟨group, hgroup, -⟩ := List.mem_map.mp h.least.1
    rw [← h.key group hgroup, h'.key group (hperm.subset hgroup)]
  obtain ⟨hactivity, hname, hdevice, hkind⟩ := GroupKey.mk.inj hkey
  have hcount : merged.count = merged'.count :=
    UInt64.toNat_inj.mp (by rw [h.count, h'.count, hsum])
  have hduration : merged.totalDurationNs = merged'.totalDurationNs :=
    UInt64.toNat_inj.mp (by rw [h.duration, h'.duration, hsum])
  have hmin : merged.minDurationNs = merged'.minDurationNs :=
    IsLeast.unique h.least (hset _ ▸ h'.least)
  have hmax : merged.maxDurationNs = merged'.maxDurationNs :=
    IsGreatest.unique h.greatest (hset _ ▸ h'.greatest)
  have hcomplete : merged.nameComplete = merged'.nameComplete := by
    rw [h.decodable.nameComplete, h'.decodable.nameComplete, hname]
  have hbytes : merged.totalBytes = merged'.totalBytes := by
    have hsome : merged.totalBytes.isSome = merged'.totalBytes.isSome := by
      rw [h.decodable.bytes, h'.decodable.bytes, hactivity]
    have hsame : bytesOf merged.totalBytes = bytesOf merged'.totalBytes := by
      rw [h.bytes, h'.bytes, hsum]
    exact eq_of_bytesOf hsome hsame
  cases merged
  cases merged'
  simp_all

/-! ## Merging two groups -/

/-- The sums of two groups do not fit. -/
def PairOverflows (previous group : CuptiAggregateGroup) : Prop :=
  2 ^ 64 ≤ previous.count.toNat + group.count.toNat ∨
  2 ^ 64 ≤ previous.totalDurationNs.toNat + group.totalDurationNs.toNat ∨
  2 ^ 64 ≤ bytesOf previous.totalBytes + bytesOf group.totalBytes

theorem checkedAdd_cases (a b : UInt64) :
    (∃ c, checkedAdd a b = some c ∧ c.toNat = a.toNat + b.toNat) ∨
      checkedAdd a b = none ∧ 2 ^ 64 ≤ a.toNat + b.toNat := by
  cases h : checkedAdd a b with
  | some c => exact .inl ⟨c, rfl, toNat_of_checkedAdd h⟩
  | none =>
    refine .inr ⟨rfl, ?_⟩
    by_contra hlt
    rw [checkedAdd_eq_some.mpr ⟨Nat.lt_of_not_le hlt, rfl⟩] at h
    cases h

theorem addTotalBytes_some (a b : UInt64) : addTotalBytes (some a) (some b) = (do
        let sum ← okOr (checkedAdd a b)
          (mergeFailure "aggregate byte count overflowed while merging")
        return some sum) := rfl

theorem addTotalBytes_cases {a b : Option UInt64} (h : a.isSome = b.isSome) :
    (∃ c, addTotalBytes a b = .ok c ∧ c.isSome = a.isSome ∧ bytesOf c = bytesOf a + bytesOf b) ∨
      ∃ failure, addTotalBytes a b = .error failure ∧ 2 ^ 64 ≤ bytesOf a + bytesOf b := by
  rcases a with - | a <;> rcases b with - | b
  · exact .inl ⟨none, rfl, rfl, rfl⟩
  · exact absurd h (by simp)
  · exact absurd h (by simp)
  · rcases checkedAdd_cases a b with hsum | hover
    · obtain ⟨c, hc, hsum⟩ := hsum
      refine .inl ⟨some c, ?_, rfl, hsum⟩
      rw [addTotalBytes_some, hc]
      rfl
    · refine .inr ⟨mergeFailure "aggregate byte count overflowed while merging", ?_, hover.2⟩
      rw [addTotalBytes_some, hover.1]
      rfl

/-- The sums of two groups, with the lesser minimum and the greater maximum. -/
structure Added (previous group merged : CuptiAggregateGroup) : Prop where
  key : groupKey merged = groupKey previous
  nameComplete : merged.nameComplete = previous.nameComplete
  count : merged.count.toNat = previous.count.toNat + group.count.toNat
  duration : merged.totalDurationNs.toNat =
    previous.totalDurationNs.toNat + group.totalDurationNs.toNat
  bytesSome : merged.totalBytes.isSome = previous.totalBytes.isSome
  bytes : bytesOf merged.totalBytes = bytesOf previous.totalBytes + bytesOf group.totalBytes
  least : merged.minDurationNs = min previous.minDurationNs group.minDurationNs
  greatest : merged.maxDurationNs = max previous.maxDurationNs group.maxDurationNs

/-- Two groups that both count bytes, or both do not, are merged unless a sum overflows. -/
theorem mergeGroup_cases (h : previous.totalBytes.isSome = group.totalBytes.isSome) :
    (∃ merged, mergeGroup previous group = .ok merged ∧ Added previous group merged) ∨
      ∃ failure, mergeGroup previous group = .error failure ∧ PairOverflows previous group := by
  rcases checkedAdd_cases previous.count group.count with ⟨count, hcount, hcountSum⟩ | ⟨hnone, hover⟩
  · rcases checkedAdd_cases previous.totalDurationNs group.totalDurationNs with
      ⟨total, htotal, htotalSum⟩ | ⟨hnone, hover⟩
    · rcases addTotalBytes_cases h with ⟨bytes, hbytes, hsome, hbytesSum⟩ | ⟨failure, hbytes, hover⟩
      · refine .inl ⟨{ previous with
          count
          totalDurationNs := total
          minDurationNs := min previous.minDurationNs group.minDurationNs
          maxDurationNs := max previous.maxDurationNs group.maxDurationNs
          totalBytes := bytes }, ?_,
          ⟨rfl, rfl, hcountSum, htotalSum, hsome, hbytesSum, rfl, rfl⟩⟩
        rw [mergeGroup, hcount, htotal, hbytes]
        rfl
      · refine .inr ⟨failure, ?_, .inr (.inr hover)⟩
        rw [mergeGroup, hcount, htotal, hbytes]
        rfl
    · refine .inr ⟨mergeFailure "aggregate duration overflowed while merging", ?_,
        .inr (.inl hover)⟩
      rw [mergeGroup, hcount, hnone]
      rfl
  · refine .inr ⟨mergeFailure "aggregate group count overflowed while merging", ?_, .inl hover⟩
    rw [mergeGroup, hnone]
    rfl

/-- The mean of two lists of durations lies between the lesser bound and the greater one. -/
theorem mean_of_sum {count count' total total' low low' high high' : ℕ} (hcount : 1 ≤ count)
    (hcount' : 1 ≤ count') (hlow : low ≤ total / count) (hlow' : low' ≤ total' / count')
    (hhigh : total / count ≤ high) (hhigh' : total' / count' ≤ high') :
    min low low' ≤ (total + total') / (count + count') ∧
      (total + total') / (count + count') ≤ max high high' := by
  rw [Nat.le_div_iff_mul_le hcount] at hlow
  rw [Nat.le_div_iff_mul_le hcount'] at hlow'
  rw [← Nat.lt_succ_iff, Nat.div_lt_iff_lt_mul hcount] at hhigh
  rw [← Nat.lt_succ_iff, Nat.div_lt_iff_lt_mul hcount'] at hhigh'
  constructor
  · rw [Nat.le_div_iff_mul_le (by omega), Nat.mul_add]
    exact Nat.add_le_add ((Nat.mul_le_mul_right _ (min_le_left _ _)).trans hlow)
      ((Nat.mul_le_mul_right _ (min_le_right _ _)).trans hlow')
  · rw [← Nat.lt_succ_iff, Nat.div_lt_iff_lt_mul (by omega), Nat.mul_add]
    exact Nat.add_lt_add
      (hhigh.trans_le (Nat.mul_le_mul_right _ (Nat.succ_le_succ (le_max_left _ _))))
      (hhigh'.trans_le (Nat.mul_le_mul_right _ (Nat.succ_le_succ (le_max_right _ _))))

theorem Added.decodable (h : Added previous group merged) (hprevious : Decodable previous)
    (hgroup : Decodable group) : Decodable merged := by
  obtain ⟨hactivity, hname, -, -⟩ := GroupKey.mk.inj h.key
  obtain ⟨hmin, hmax⟩ := mean_of_sum hprevious.positive hgroup.positive hprevious.min_le_mean
    hgroup.min_le_mean hprevious.mean_le_max hgroup.mean_le_max
  refine ⟨?_, ?_, ?_, ?_, ?_⟩
  · rw [h.nameComplete, hprevious.nameComplete, hname]
  · rw [h.bytesSome, hprevious.bytes, hactivity]
  · have hpositive := hprevious.positive
    rw [h.count]
    omega
  · rw [h.duration, h.count, h.least]
    refine le_trans ?_ hmin
    exact le_min (UInt64.le_iff_toNat_le.mp (min_le_left _ _))
      (UInt64.le_iff_toNat_le.mp (min_le_right _ _))
  · rw [h.duration, h.count, h.greatest]
    refine hmax.trans ?_
    exact max_le (UInt64.le_iff_toNat_le.mp (le_max_left _ _))
      (UInt64.le_iff_toNat_le.mp (le_max_right _ _))

/-! ## Merging all groups -/

theorem GroupTotals.single (h : Decodable group) : GroupTotals [group] group := by
  refine ⟨?_, ?_, ?_, ?_, ?_, ?_, h⟩
  · intro other hother
    rw [List.mem_singleton.mp hother]
  · simp
  · simp
  · simp
  · simp
  · simp

/-- A further group goes into the totals. -/
theorem GroupTotals.add (h : GroupTotals groups previous) (hgroup : Decodable group)
    (hkey : groupKey previous = groupKey group) (hadded : Added previous group merged) :
    GroupTotals (groups ++ [group]) merged := by
  have hset : ∀ f : CuptiAggregateGroup → UInt64,
      {d | d ∈ (groups ++ [group]).map f} = insert (f group) {d | d ∈ groups.map f} := by
    intro f
    ext d
    simp only [List.map_append, List.map_cons, List.map_nil, List.mem_append, List.mem_singleton,
      Set.mem_ofPred_eq, Set.mem_insert_iff]
    exact or_comm
  refine ⟨?_, ?_, ?_, ?_, ?_, ?_, hadded.decodable h.decodable hgroup⟩
  · intro other hother
    rcases List.mem_append.mp hother with hearlier | hlast
    · rw [h.key other hearlier, hadded.key]
    · rw [List.mem_singleton.mp hlast, hadded.key, hkey]
  · simp [hadded.count, h.count]
  · simp [hadded.duration, h.duration]
  · simp [hadded.bytes, h.bytes]
  · rw [hset, hadded.least, min_comm]
    exact h.least.insert _
  · rw [hset, hadded.greatest, max_comm]
    exact h.greatest.insert _

def withKey (groups : List CuptiAggregateGroup) (key : GroupKey) : List CuptiAggregateGroup :=
  groups.filter (groupKey · = key)

theorem ofKey_groupOrder (groups : List CuptiAggregateGroup) (group : CuptiAggregateGroup) :
    ofKey groupOrder groups (groupOrder group) = withKey groups (groupKey group) := by
  rw [ofKey, withKey]
  exact List.filter_congr fun other _ => decide_eq_decide.mpr groupOrder_eq_iff

/-- Some sum over the groups with one key does not fit into 64 bits. -/
def SumOverflows (groups : List CuptiAggregateGroup) : Prop :=
  ∃ key, 2 ^ 64 ≤ ((withKey groups key).map (·.count.toNat)).sum ∨
    2 ^ 64 ≤ ((withKey groups key).map (·.totalDurationNs.toNat)).sum ∨
    2 ^ 64 ≤ ((withKey groups key).map (bytesOf ·.totalBytes)).sum

theorem SumOverflows.of_sublist {key : GroupKey} (hsub : groups.Sublist (withKey groups' key))
    (h : 2 ^ 64 ≤ (groups.map (·.count.toNat)).sum ∨
      2 ^ 64 ≤ (groups.map (·.totalDurationNs.toNat)).sum ∨
      2 ^ 64 ≤ (groups.map (bytesOf ·.totalBytes)).sum) : SumOverflows groups' := by
  have hle : ∀ f : CuptiAggregateGroup → ℕ,
      (groups.map f).sum ≤ ((withKey groups' key).map f).sum :=
    fun f => (hsub.map f).sum_le_sum (fun _ _ => Nat.zero_le _)
  exact ⟨key, h.imp (le_trans · (hle _)) (Or.imp (le_trans · (hle _)) (le_trans · (hle _)))⟩

theorem SumOverflows.perm (h : SumOverflows groups) (hperm : groups.Perm groups') :
    SumOverflows groups' := by
  obtain ⟨key, h⟩ := h
  have hsum : ∀ f : CuptiAggregateGroup → ℕ,
      ((withKey groups key).map f).sum = ((withKey groups' key).map f).sum :=
    fun f => ((hperm.filter _).map f).sum_eq
  rw [hsum, hsum, hsum] at h
  exact ⟨key, h⟩

/-- No sum of a merged group overflowed. -/
theorem not_sumOverflows {merged : List CuptiAggregateGroup}
    (h : Merges groupOrder GroupTotals groups merged) : ¬SumOverflows groups := by
  rintro ⟨key, hover⟩
  by_cases hempty : withKey groups key = []
  · simp [hempty] at hover
  · obtain ⟨group, hgroup⟩ := List.exists_mem_of_ne_nil _ hempty
    obtain ⟨hmem, hkey⟩ := List.mem_filter.mp hgroup
    obtain ⟨result, hresult, horder⟩ := (h.keys (groupOrder group)).mpr ⟨group, hmem, rfl⟩
    have htotals := h.totals result hresult
    rw [ofKey_groupOrder, groupOrder_eq_iff.mp horder, of_decide_eq_true hkey] at htotals
    rw [← htotals.count, ← htotals.duration, ← htotals.bytes] at hover
    have hbytes : bytesOf result.totalBytes < 2 ^ 64 := by
      cases result.totalBytes with
      | none => exact Nat.two_pow_pos 64
      | some bytes => exact bytes.toNat_lt
    have hcount := result.count.toNat_lt
    have hduration := result.totalDurationNs.toNat_lt
    omega

theorem combines_groups (h : ∀ group ∈ groups, Decodable group) :
    Combines groupOrder GroupTotals (fun previous group => groupKey previous = groupKey group)
      mergeGroup groups where
  same_iff := groupOrder_eq_iff.symm
  single := fun group hgroup => .single (h group hgroup)
  combined := by
    intro run previous result group hgroup htotal horder hmerge
    have hkey := groupOrder_eq_iff.mp horder
    have hbytes : previous.totalBytes.isSome = group.totalBytes.isSome := by
      rw [htotal.decodable.bytes, (h group hgroup).bytes, (GroupKey.mk.inj hkey).1]
    rcases mergeGroup_cases hbytes with ⟨merged, hok, hadded⟩ | ⟨failure, herror, -⟩
    · rw [hok] at hmerge
      cases hmerge
      exact ⟨htotal.add (h group hgroup) hkey hadded,
        groupOrder_eq_iff.mpr (hadded.key.trans hkey)⟩
    · rw [herror] at hmerge
      cases hmerge

/-- Merging gives the totals of every key, or the groups with some key have a sum that does not
    fit. -/
theorem mergeAggregateGroups_cases (h : ∀ group ∈ groups, Decodable group) :
    (∃ merged, mergeAggregateGroups groups = .ok merged ∧
        Merges groupOrder GroupTotals (sortByKey groupOrder groups) merged) ∨
      ∃ failure, mergeAggregateGroups groups = .error failure ∧ SumOverflows groups := by
  have hsorted : ∀ group ∈ sortByKey groupOrder groups, Decodable group :=
    fun group hgroup => h group (mem_sortByKey.mp hgroup)
  rcases mergeRuns_cases (combines_groups hsorted) (sortByKey_sorted groupOrder groups) with
    hok | ⟨failure, before, group, after, previous, herror, heq, htotal, hmerge⟩
  · exact .inl hok
  · refine .inr ⟨failure, herror, ?_⟩
    have hgroup : group ∈ sortByKey groupOrder groups := by simp [heq]
    -- the groups before are of the key of this one, for otherwise there was nothing to merge with
    have hkey : groupKey previous = groupKey group := by
      obtain ⟨earlier, hearlier, -⟩ := List.mem_map.mp htotal.least.1
      rw [← htotal.key earlier hearlier]
      exact groupOrder_eq_iff.mp (of_decide_eq_true (List.mem_filter.mp hearlier).2)
    have hbytes : previous.totalBytes.isSome = group.totalBytes.isSome := by
      rw [htotal.decodable.bytes, (hsorted group hgroup).bytes, (GroupKey.mk.inj hkey).1]
    rcases mergeGroup_cases hbytes with ⟨merged, hok, -⟩ | ⟨failure', -, hover⟩
    · rw [hok] at hmerge
      cases hmerge
    · have hsub : (ofKey groupOrder before (groupOrder group) ++ [group]).Sublist
          (withKey (sortByKey groupOrder groups) (groupKey group)) := by
        rw [← ofKey_groupOrder, ← ofKey_append_self, heq, List.append_cons before group after]
        exact (List.sublist_append_left _ _).filter _
      refine (SumOverflows.of_sublist hsub ?_).perm (sortByKey_perm _ _)
      rw [PairOverflows] at hover
      simpa only [List.map_append, List.sum_append, List.map_cons, List.map_nil, List.sum_cons,
        List.sum_nil, Nat.add_zero, ← htotal.count, ← htotal.duration, ← htotal.bytes] using hover

/-! ## The merged groups -/

/-- One group for every key, in order, with the totals of the groups with that key. -/
structure MergedGroups (groups merged : List CuptiAggregateGroup) : Prop where
  sorted : SortedBy groupOrder merged
  nodup : (merged.map groupKey).Nodup
  keys : ∀ key, key ∈ merged.map groupKey ↔ key ∈ groups.map groupKey
  totals : ∀ group ∈ merged, GroupTotals (withKey groups (groupKey group)) group

theorem GroupTotals.perm (h : GroupTotals groups merged) (hperm : groups.Perm groups') :
    GroupTotals groups' merged := by
  have hset : ∀ f : CuptiAggregateGroup → UInt64,
      {d | d ∈ groups.map f} = {d | d ∈ groups'.map f} :=
    fun f => Set.ext fun d => (hperm.map f).mem_iff
  refine ⟨?_, ?_, ?_, ?_, hset _ ▸ h.least, hset _ ▸ h.greatest, h.decodable⟩
  · exact fun group hgroup => h.key group (hperm.symm.subset hgroup)
  · rw [h.count, (hperm.map _).sum_eq]
  · rw [h.duration, (hperm.map _).sum_eq]
  · rw [h.bytes, (hperm.map _).sum_eq]

theorem mergedGroups_of_merges {sorted merged : List CuptiAggregateGroup}
    (h : Merges groupOrder GroupTotals sorted merged) (hperm : sorted.Perm groups) :
    MergedGroups groups merged := by
  refine ⟨h.sorted.imp le_of_lt, ?_, ?_, ?_⟩
  · refine List.pairwise_map.mpr (h.sorted.imp ?_)
    intro a b hlt hkey
    rw [groupOrder_eq_iff.mpr hkey] at hlt
    exact lt_irrefl _ hlt
  · intro key
    simp only [List.mem_map]
    constructor
    · rintro ⟨group, hgroup, rfl⟩
      obtain ⟨item, hitem, horder⟩ := (h.keys _).mp ⟨group, hgroup, rfl⟩
      exact ⟨item, hperm.subset hitem, groupOrder_eq_iff.mp horder⟩
    · rintro ⟨item, hitem, rfl⟩
      obtain ⟨group, hgroup, horder⟩ := (h.keys _).mpr ⟨item, hperm.symm.subset hitem, rfl⟩
      exact ⟨group, hgroup, groupOrder_eq_iff.mp horder⟩
  · intro group hgroup
    have htotals := h.totals group hgroup
    rw [ofKey_groupOrder] at htotals
    exact htotals.perm (hperm.filter _)

/-- Merging decoded groups fails exactly when some sum over the groups with one key overflows.
    Otherwise it gives one group for every key, with the totals of its groups and a mean between its
    minimum and its maximum. Neither depends on the order of the groups. -/
theorem mergeAggregateGroups_totals (groups : List CuptiAggregateGroup)
    (haccepted : ∀ group ∈ groups, AcceptedGroup group) :
    ((∃ failure, mergeAggregateGroups groups = .error failure) ↔ SumOverflows groups) ∧
      (∀ merged, mergeAggregateGroups groups = .ok merged → MergedGroups groups merged ∧
        ∀ group ∈ merged,
          group.minDurationNs.toNat ≤ group.totalDurationNs.toNat / group.count.toNat ∧
          group.totalDurationNs.toNat / group.count.toNat ≤ group.maxDurationNs.toNat) ∧
      ∀ groups', groups'.Perm groups →
        (mergeAggregateGroups groups').toOption = (mergeAggregateGroups groups).toOption := by
  have hdecodable : ∀ group ∈ groups, Decodable group :=
    fun group hgroup => (haccepted group hgroup).decodable
  have hmerges : ∀ {merged}, Merges groupOrder GroupTotals (sortByKey groupOrder groups) merged →
      ¬SumOverflows groups := by
    intro merged hmerges hover
    exact not_sumOverflows hmerges (hover.perm (sortByKey_perm _ _).symm)
  -- a merge either sums every group or meets a sum that overflows, never both
  refine ⟨?_, ?_, ?_⟩
  · rcases mergeAggregateGroups_cases hdecodable with
      ⟨merged, hok, htotals⟩ | ⟨failure, herror, hover⟩
    · rw [hok]
      refine ⟨?_, fun hover => absurd hover (hmerges htotals)⟩
      rintro ⟨failure, h⟩
      cases h
    · exact ⟨fun _ => hover, fun _ => ⟨failure, herror⟩⟩
  · intro merged hok
    rcases mergeAggregateGroups_cases hdecodable with
      ⟨merged', hok', htotals⟩ | ⟨failure, herror, -⟩
    · rw [hok] at hok'
      cases hok'
      have hmerged := mergedGroups_of_merges htotals (sortByKey_perm _ _)
      refine ⟨hmerged, fun group hgroup => ?_⟩
      have hgroup := (hmerged.totals group hgroup).decodable
      exact ⟨hgroup.min_le_mean, hgroup.mean_le_max⟩
    · rw [hok] at herror
      cases herror
  · intro groups' hperm
    have hdecodable' : ∀ group ∈ groups', Decodable group :=
      fun group hgroup => hdecodable group (hperm.subset hgroup)
    rcases mergeAggregateGroups_cases hdecodable with
        ⟨merged, hok, htotals⟩ | ⟨failure, herror, hover⟩ <;>
      rcases mergeAggregateGroups_cases hdecodable' with
        ⟨merged', hok', htotals'⟩ | ⟨failure', herror', hover'⟩
    -- both orders sort the same groups
    · have hsorted : (sortByKey groupOrder groups').Perm (sortByKey groupOrder groups) :=
        ((sortByKey_perm _ _).trans hperm).trans (sortByKey_perm _ _).symm
      rw [hok, hok', htotals'.unique htotals hsorted GroupTotals.unique]
    · exact absurd (hover'.perm hperm) (hmerges htotals)
    · exact absurd ((hover.perm hperm.symm).perm (sortByKey_perm _ _).symm)
        (not_sumOverflows htotals')
    · rw [herror, herror']
      rfl

/-- The group of a kernel, with its durations. -/
def timedSlot (count totalDurationNs minDurationNs maxDurationNs : UInt64) : AggregateSlot :=
  { sumSlot with count, totalDurationNs, minDurationNs, maxDurationNs }

/-- Two groups of one kernel, with durations from 10 to 20 and of 5, are merged into one. -/
theorem mergeAggregateGroups_totals_sum : let longer := (timedSlot 2 30 10 20).group .kernel "sum$"
    let shorter := (timedSlot 1 5 5 5).group .kernel "sum$"
    let both := (timedSlot 3 35 5 20).group .kernel "sum$"
    (∀ group ∈ [longer, shorter], AcceptedGroup group) ∧
      mergeAggregateGroups [longer, shorter] = .ok [both] ∧
      MergedGroups [longer, shorter] [both] := by
  intro longer shorter both
  have haccepted : ∀ group ∈ [longer, shorter], AcceptedGroup group := by
    intro group hgroup
    rcases List.mem_pair.mp hgroup with rfl | rfl
    · exact ⟨_, 0, decodeAggregateRecord_of_layout (timedSlot 2 30 10 20).layout_encode (by decide)
        (by decide) rfl (by decide) (fun _ => by decide) 0⟩
    · exact ⟨_, 0, decodeAggregateRecord_of_layout (timedSlot 1 5 5 5).layout_encode (by decide)
        (by decide) rfl (by decide) (fun _ => by decide) 0⟩
  have hmerge : mergeAggregateGroups [longer, shorter] = .ok [both] := by
    have hsame : groupOrder longer ≤ groupOrder shorter := le_of_eq rfl
    rw [mergeAggregateGroups, sortByKey_of_sorted (List.pairwise_pair.mpr hsame)]
    rfl
  exact ⟨haccepted, hmerge,
    ((mergeAggregateGroups_totals [longer, shorter] haccepted).2.1 _ hmerge).1⟩

end Xprobe.Cli
