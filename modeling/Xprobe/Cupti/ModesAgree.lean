import Xprobe.Cupti.Delivery

/-!
# The activities that the two modes select

Whether exact and aggregate captures select the same activities. Aggregate mode looks at an activity
once, with its whole name. Exact mode looks at it in the same way and then again at each of its two
records, whose names are cut after 127 bytes.

A filter for a part of a name reads 128 bytes of the whole name, so a part that ends with the 128th
byte is seen the first time only. And an activity that ends before it starts, or whose totals do not
fit in their counters, ends an aggregate capture but not an exact one. These are the only differences
between captures that do not reach their limits.
-/

namespace Xprobe.Cupti

open Foundation

/-! ## Names -/

theorem keptName_of_short {name : List UInt8} (h : (cString name).length < nameLength) :
    keptName name = cString name :=
  List.take_of_length_le (by omega)

@[simp] theorem keptName_copyName (name : List UInt8) :
    keptName (copyName name) = keptName name := by
  rw [keptName, cString_copyName, List.take_of_length_le]
  exact Nat.le_sub_one_of_lt (length_keptName_lt name)

/-- A part that the filter asks for is in the kept part of the name. -/
def ShownIn (filter : Filter) (kept : List UInt8) : Prop :=
  filter.nameMatch = NameMatch.contains.code → cString filter.name <:+: kept

instance (filter : Filter) (kept : List UInt8) : Decidable (ShownIn filter kept) :=
  inferInstanceAs (Decidable (_ → _))

/-- A filter that accepts a name accepts its copy in a record, unless it looks for a part that the
    copy does not have. -/
theorem nameMatches_copyName_iff {filter : Filter} {name : List UInt8} (hname : 0 ∈ name)
    (h : nameMatches filter (some name) = true) :
    nameMatches filter (some (copyName name)) = true ↔ ShownIn filter (keptName name) := by
  obtain ⟨rest, hrest⟩ := exists_eq_cString_append hname
  obtain ⟨padding, hpadding⟩ := copyName_terminated name
  rw [hrest, nameMatches_iff rest (zero_not_mem_cString name)] at h
  obtain ⟨kind, hkind, hfilter, hholds, hvisible⟩ := h
  rw [hpadding, nameMatches_iff padding (zero_not_mem_keptName name), ShownIn, hkind]
  have hkept : (keptName name).length < nameLength := length_keptName_lt name
  -- all kinds but the last look at bytes that the record has
  have hother : kind ≠ .contains → kind.Holds (cString filter.name) (keptName name) := by
    intro hne
    rcases hfilter with rfl | hfilter
    · exact trivial
    rw [← length_cString_name] at hfilter
    cases kind with
    | any => exact trivial
    | exact => rwa [NameMatch.Holds, keptName_of_short (by rwa [hholds])]
    | prefixed => exact List.prefix_take_iff.mpr ⟨hholds, by omega⟩
    | suffixed => rwa [NameMatch.Holds, keptName_of_short (hvisible hholds)]
    | contains => exact absurd rfl hne
  constructor
  · rintro ⟨kind', hkind', -, hholds', -⟩ hcode
    cases NameMatch.code_injective (hkind'.symm.trans hcode)
    exact hholds'
  · intro hshown
    refine ⟨kind, rfl, hfilter, ?_, kind.visible_of_short _ hkept⟩
    by_cases hne : kind = .contains
    · subst hne
      exact hshown rfl
    · exact hother hne

/-! ## Filters -/

theorem filterMatchesValues_iff {filter : Filter} {kind apiDomain memcpyKind : UInt32}
    {name : Option (List UInt8)} :
    filterMatchesValues filter kind apiDomain memcpyKind name = true ↔
      (filter.recordKind ≠ 0 ∧ filter.recordKind = kind) ∧
        (filter.apiDomain = 0 ∨ filter.apiDomain = apiDomain) ∧
        (filter.memcpyKind = 0 ∨ filter.memcpyKind = memcpyKind) ∧
        nameMatches filter name = true := by
  rw [filterMatchesValues]
  split_ifs with hkind hdomain hcopy
  · exact iff_of_false not_false (by tauto)
  · exact iff_of_false not_false (by tauto)
  · exact iff_of_false not_false (by tauto)
  · tauto

/-- The pairs of kinds do not overlap. -/
theorem activityPairs_apart {first last first' last' : UInt32}
    (h : isActivityPair first last = true) (h' : isActivityPair first' last' = true) :
    (first = first' ↔ last = last') ∧ first ≠ last' ∧ last ≠ first' ∧ first ≠ 0 ∧ last ≠ 0 := by
  simp only [isActivityPair, Bool.or_eq_true, Bool.and_eq_true, beq_iff_eq] at h h'
  rcases h with (⟨rfl, rfl⟩ | ⟨rfl, rfl⟩) | ⟨rfl, rfl⟩ <;>
    rcases h' with (⟨rfl, rfl⟩ | ⟨rfl, rfl⟩) | ⟨rfl, rfl⟩ <;> decide

variable {filters : Filter × Filter}

/-- What a pair of filters for aggregates has in common. -/
theorem validAggregateFilters_iff : validAggregateFilters filters = true ↔
      isActivityPair filters.1.recordKind filters.2.recordKind = true ∧
        filters.1.apiDomain = filters.2.apiDomain ∧ filters.1.memcpyKind = filters.2.memcpyKind ∧
        filters.1.nameMatch = filters.2.nameMatch ∧ filters.1.name = filters.2.name := by
  have hname : ∀ filter : Filter, filter.name.take nameLength = filter.name := by
    intro filter
    exact List.take_of_length_le filter.name_length.le
  rw [validAggregateFilters]
  split_ifs with hpair
  · simp only [Bool.not_eq_true'] at hpair
    simp [hpair]
  · simp only [Bool.not_eq_true', Bool.not_eq_false] at hpair
    simp [hpair, sameBytes, hname, and_assoc]

structure SelectsBy (control : AgentControl) (filters : Filter × Filter) (startNs : UInt64) :
    Prop where
  filters : control.captureFilters = filters
  enabled : control.captureFilterEnabled = true
  startNs : control.captureStartTimestampNs = startNs

variable {kind : RecordKind}

section Selected

variable {agent : AgentProcess} {filters : Filter × Filter} {startNs : UInt64}
  {control : AgentControl}

theorem SelectsBy.isSelected_eq {control' : AgentControl} (h : SelectsBy control filters startNs)
    (h' : SelectsBy control' filters startNs) (activity : DeviceActivity agent) :
    activity.isSelected control = activity.isSelected control' := by
  simp only [DeviceActivity.isSelected, activityStartedDuringCapture,
    AgentControl.valuesMatchCapture, h.filters, h'.filters, h.enabled, h'.enabled, h.startNs,
    h'.startNs]

structure Accepts (filters : Filter × Filter) (activity : DeviceActivity agent) : Prop where
  startKind : filters.1.recordKind = activity.startKind.code
  endKind : filters.2.recordKind = activity.endKind.code
  apiDomain : filters.1.apiDomain = 0
  memcpyKind : filters.1.memcpyKind = 0 ∨ filters.1.memcpyKind = activity.memcpyKind
  name : nameMatches filters.1 activity.name = true

variable (hfilters : validAggregateFilters filters = true)

include hfilters

/-- The two filters match the same names. -/
theorem nameMatches_second (name : Option (List UInt8)) :
    nameMatches filters.2 name = nameMatches filters.1 name := by
  obtain ⟨-, -, -, hmatch, hname⟩ := validAggregateFilters_iff.mp hfilters
  simp only [nameMatches, hmatch, hname]

variable {activity : DeviceActivity agent}

/-- A selected activity is accepted by both filters, by the first with the kind of its start and by
    the second with the kind of its end. -/
theorem accepts_of_isSelected (hselects : SelectsBy control filters startNs)
    (h : activity.isSelected control = true) : Accepts filters activity := by
  obtain ⟨hpair, hdomain, hcopy, -, -⟩ := validAggregateFilters_iff.mp hfilters
  obtain ⟨hkinds, hfirst, hlast, -, -⟩ := activityPairs_apart hpair activity.pair
  simp only [DeviceActivity.isSelected, AgentControl.valuesMatchCapture, hselects.enabled,
    hselects.filters, Bool.not_true, Bool.false_or, Bool.and_eq_true, List.any_cons, List.any_nil,
    Bool.or_false, Bool.or_eq_true, filterMatchesValues_iff, nameMatches_second hfilters, ← hdomain,
    ← hcopy] at h
  -- the first filter can only have seen the start, and the second one the end
  rcases h.2 with (hstart | ⟨-, hend⟩) | (hstart | ⟨-, hend⟩)
  · exact ⟨hstart.1.2, hkinds.mp hstart.1.2, or_self_iff.mp hstart.2.1, hstart.2.2.1,
      hstart.2.2.2⟩
  · exact absurd hend.1.2 hfirst
  · exact absurd hstart.1.2 hlast
  · exact ⟨hkinds.mpr hend.1.2, hend.1.2, or_self_iff.mp hend.2.1, hend.2.2.1, hend.2.2.2⟩

omit hfilters

def DeviceActivity.NameTerminated (activity : DeviceActivity agent) : Prop :=
  ∀ bytes, activity.name = some bytes → 0 ∈ bytes

/-- The name in a record of an activity matches exactly when the record shows what is looked for. -/
theorem Accepts.nameMatches_record (h : Accepts filters activity) (hname : activity.NameTerminated)
    (kind : RecordKind) (timestampNs : UInt64) :
    nameMatches filters.1 (some (activity.record kind timestampNs).name) = true ↔
      ShownIn filters.1 activity.call.keyName := by
  have hmatches := h.name
  rw [activity.record_name, AggregateCall.keyName]
  show _ ↔ ShownIn filters.1 ((activity.name.map keptName).getD [])
  cases hvalue : activity.name with
  | none =>
    -- a null name is read as the empty text
    rw [hvalue] at hmatches
    exact @nameMatches_copyName_iff filters.1 [0] (by decide) hmatches
  | some bytes =>
    rw [hvalue] at hmatches
    exact nameMatches_copyName_iff (hname bytes hvalue) hmatches

/-- A kind of copy that the filters accept is accepted in the records too. -/
theorem Accepts.memcpyKind_record (h : Accepts filters activity) (kind : RecordKind)
    (timestampNs : UInt64) :
    filters.1.memcpyKind = 0 ∨
      filters.1.memcpyKind = semanticMemcpyKind (activity.record kind timestampNs).gridZ := by
  by_cases hcopy : activity.startKind = .gpuMemcpyStart
  · rw [activity.record_copy hcopy]
    exact h.memcpyKind
  · -- other activities pass only filters that ask for no kind of copy
    have hnone := h.memcpyKind
    rw [activity.no_copy hcopy, or_self_iff] at hnone
    exact .inl hnone

include hfilters

/-- A record of a selected activity passes the filters exactly when it shows what is looked for. -/
theorem Accepts.filterMatches_record (hselects : SelectsBy control filters startNs)
    (h : Accepts filters activity) (hname : activity.NameTerminated)
    (hkind : kind = activity.startKind ∨ kind = activity.endKind) (timestampNs : UInt64) :
    control.filterMatches (activity.record kind timestampNs) = true ↔
      ShownIn filters.1 activity.call.keyName := by
  obtain ⟨hpair, hdomain, hcopy, -, -⟩ := validAggregateFilters_iff.mp hfilters
  obtain ⟨-, -, -, hfirst, hlast⟩ := activityPairs_apart hpair hpair
  have hmemcpy := h.memcpyKind_record kind timestampNs
  have hshown := h.nameMatches_record hname kind timestampNs
  simp only [AgentControl.filterMatches, hselects.enabled, hselects.filters, Bool.not_true,
    Bool.false_or, List.any_cons, List.any_nil, Bool.or_false, Bool.or_eq_true, recordMatchesFilter,
    filterMatchesValues_iff, nameMatches_second hfilters, ← hdomain, ← hcopy, activity.record_kind,
    h.apiDomain, true_or, hmemcpy, hshown, true_and]
  refine ⟨fun hmatch => hmatch.elim And.right And.right, fun hpart => ?_⟩
  rcases hkind with rfl | rfl
  · exact .inl ⟨⟨hfirst, h.startKind⟩, hpart⟩
  · exact .inr ⟨⟨hlast, h.endKind⟩, hpart⟩

/-- Exact mode keeps both records of a selected activity, or none of them. -/
theorem kept_of_isSelected (hselects : SelectsBy control filters startNs)
    (hname : activity.NameTerminated) (h : activity.isSelected control = true) :
    activity.kept control =
      if ShownIn filters.1 activity.call.keyName then [activity.startRecord, activity.endRecord]
      else [] := by
  have haccepts := accepts_of_isSelected hfilters hselects h
  have hstart : control.filterMatches activity.startRecord = true ↔ _ :=
    haccepts.filterMatches_record hfilters hselects hname (.inl rfl) activity.start
  have hend : control.filterMatches activity.endRecord = true ↔ _ :=
    haccepts.filterMatches_record hfilters hselects hname (.inr rfl) activity.finish
  rw [DeviceActivity.kept, if_pos h]
  split_ifs with hshown
  · rw [List.filter_cons_of_pos (hstart.mpr hshown), List.filter_cons_of_pos (hend.mpr hshown),
      List.filter_nil]
  · rw [List.filter_cons_of_neg (fun hmatch => hshown (hstart.mp hmatch)),
      List.filter_cons_of_neg (fun hmatch => hshown (hend.mp hmatch)), List.filter_nil]

end Selected

/-! ## Records with a key -/

/-- The kind of copy that a record is about, which only those of copies have. -/
def Record.memcpyKind (record : Record) : UInt32 :=
  if record.kind = RecordKind.gpuMemcpyStart.code ∨ record.kind = RecordKind.gpuMemcpyEnd.code then
    semanticMemcpyKind record.gridZ
  else 0

/-- The device, the kind of copy and the name of a record. -/
def Record.group (record : Record) : UInt32 × UInt32 × List UInt8 :=
  (record.deviceId, record.memcpyKind, keptName record.name)

def retainedCount (store : CaptureStore) (kind : RecordKind)
    (group : UInt32 × UInt32 × List UInt8) : Nat :=
  store.retained.countP (fun record => record.kind = kind.code ∧ record.group = group)

section Keys

variable {agent : AgentProcess} (activity : DeviceActivity agent)

theorem DeviceActivity.memcpyKind_record
    (hkind : kind = activity.startKind ∨ kind = activity.endKind) (timestampNs : UInt64) :
    (activity.record kind timestampNs).memcpyKind = activity.memcpyKind := by
  have hmemcpy :
      isActivityPair RecordKind.gpuMemcpyStart.code RecordKind.gpuMemcpyEnd.code = true := by decide
  obtain ⟨hkinds, hfirst, hlast, -, -⟩ := activityPairs_apart activity.pair hmemcpy
  rw [Record.memcpyKind, activity.record_kind]
  by_cases hcopy : activity.startKind = .gpuMemcpyStart
  · have hend := hkinds.mp (congrArg RecordKind.code hcopy)
    rw [activity.record_copy hcopy]
    rcases hkind with rfl | rfl
    · rw [if_pos (.inl (congrArg RecordKind.code hcopy))]
    · rw [if_pos (.inr hend)]
  · have hstart : activity.startKind.code ≠ RecordKind.gpuMemcpyStart.code := by
      intro hcode
      revert hcopy hcode
      cases activity.startKind <;> decide
    rw [activity.no_copy hcopy, if_neg]
    rcases hkind with rfl | rfl
    · exact not_or.mpr ⟨hstart, hfirst⟩
    · exact not_or.mpr ⟨hlast, fun hend => hstart (hkinds.mpr hend)⟩

/-- The records of an activity have the key of its call, apart from the kind. -/
theorem DeviceActivity.group_record (hkind : kind = activity.startKind ∨ kind = activity.endKind)
    (timestampNs : UInt64) :
    (activity.record kind timestampNs).group = activity.call.key.2 := by
  have hname : keptName (activity.name.getD []) = activity.call.keyName := by
    rw [AggregateCall.keyName]
    show _ = (activity.name.map keptName).getD []
    cases activity.name <;> rfl
  rw [Record.group, activity.record_device, activity.memcpyKind_record hkind, activity.record_name,
    keptName_copyName, hname]
  rfl

/-- An activity with the key has one start record and one end record with it, another one none. -/
theorem DeviceActivity.countP_records {startKind endKind : RecordKind}
    (hpair : isActivityPair startKind.code endKind.code = true)
    (group : UInt32 × UInt32 × List UInt8) (hkind : kind = startKind ∨ kind = endKind) :
    [activity.startRecord, activity.endRecord].countP
        (fun record => record.kind = kind.code ∧ record.group = group) =
      if activity.call.key = (startKind.code, group) then 1 else 0 := by
  obtain ⟨hkinds, hfirst, hlast, -, -⟩ := activityPairs_apart activity.pair hpair
  have hstart : activity.startRecord.kind = activity.startKind.code := activity.record_kind _ _
  have hend : activity.endRecord.kind = activity.endKind.code := activity.record_kind _ _
  have hgroup : activity.startRecord.group = activity.call.key.2 :=
    activity.group_record (.inl rfl) _
  have hgroup' : activity.endRecord.group = activity.call.key.2 :=
    activity.group_record (.inr rfl) _
  have hkey : activity.call.key = (startKind.code, group) ↔
      activity.startKind.code = startKind.code ∧ activity.call.key.2 = group := Prod.ext_iff
  simp only [List.countP_cons, List.countP_nil, decide_eq_true_eq, hstart, hend, hgroup, hgroup',
    hkey]
  -- the record of the other boundary has another kind
  rcases hkind with rfl | rfl
  · simp [hlast]
  · simp [hfirst, hkinds]

end Keys

/-! ## The two captures -/

structure ExactStart (state : AgentState) : Prop where
  retains : Retains state.store []
  mode : state.store.captureMode = CaptureMode.exact.code
  active : state.control.captureState = .active

/-- For each key, aggregate mode has counted as many activities as exact mode has retained start
    records, and as many as it has retained end records. -/
def CountsAgree (aggregate exact : CaptureStore) : Prop :=
  ∀ startKind endKind : RecordKind, isActivityPair startKind.code endKind.code = true →
    ∀ group,
      aggregateCount aggregate (startKind.code, group) = retainedCount exact startKind group ∧
      aggregateCount aggregate (startKind.code, group) = retainedCount exact endKind group

/-- The activities that are counted are those whose records show what the filters look for. -/
def CountedIffShown (filters : Filter × Filter) (calls : List AggregateCall) : Prop :=
  (∀ call ∈ acceptedCalls [] calls, ShownIn filters.1 call.keyName) ∧
    ∀ call ∈ calls.drop (acceptedCalls [] calls).length, ¬ ShownIn filters.1 call.keyName

theorem acceptedCalls_append_drop (earlier calls : List AggregateCall) :
    acceptedCalls earlier calls ++ calls.drop (acceptedCalls earlier calls).length = calls := by
  induction calls generalizing earlier with
  | nil => rfl
  | cons call rest ih =>
    rw [acceptedCalls]
    split_ifs with haccepted
    · exact congrArg (call :: ·) (ih _)
    · rfl

theorem callsWith_append (key : AggregateKey) (front back : List AggregateCall) :
    callsWith key (front ++ back) = callsWith key front ++ callsWith key back :=
  List.filter_append ..

theorem mem_callsWith {key : AggregateKey} {calls : List AggregateCall} {call : AggregateCall} :
    call ∈ callsWith key calls ↔ call ∈ calls ∧ call.key = key := by
  rw [callsWith, List.mem_filter, decide_eq_true_eq]

section Counts

variable {agent : AgentProcess} {tid : UInt32} {filters : Filter × Filter} {startNs : UInt64}
  {control : AgentControl} (hfilters : validAggregateFilters filters = true)

include hfilters

/-- The records that exact mode keeps with a key: one for each selected activity with it, if the key
    shows what the filters look for. -/
theorem countP_kept (hselects : SelectsBy control filters startNs) {startKind endKind : RecordKind}
    (hpair : isActivityPair startKind.code endKind.code = true)
    (group : UInt32 × UInt32 × List UInt8) (hkind : kind = startKind ∨ kind = endKind)
    {devices : List (DeviceActivity agent)}
    (hnames : ∀ activity ∈ devices, activity.NameTerminated) :
    (devices.flatMap (·.kept control)).countP
        (fun record => record.kind = kind.code ∧ record.group = group) =
      if ShownIn filters.1 group.2.2 then
        (callsWith (startKind.code, group)
          ((devices.filter (·.isSelected control)).map (·.call))).length
      else 0 := by
  induction devices with
  | nil => simp [callsWith]
  | cons activity rest ih =>
    have hrest := ih (fun other hmem => hnames other (List.mem_cons_of_mem _ hmem))
    rw [List.flatMap_cons, List.countP_append, hrest]
    by_cases hselected : activity.isSelected control = true
    · rw [List.filter_cons, if_pos hselected, List.map_cons, kept_of_isSelected hfilters hselects
        (hnames activity List.mem_cons_self) hselected]
      have hcount := activity.countP_records hpair group hkind
      by_cases hkey : activity.call.key = (startKind.code, group)
      · -- the name of the key decides whether its records are kept
        have hname : activity.call.keyName = group.2.2 := congrArg (·.2.2.2) hkey
        rw [if_pos hkey] at hcount
        rw [hname]
        by_cases hshown : ShownIn filters.1 group.2.2
        · rw [if_pos hshown, if_pos hshown, if_pos hshown, hcount]
          simp [callsWith, hkey, Nat.add_comm]
        · simp [hshown]
      · rw [if_neg hkey] at hcount
        have hnone : (if ShownIn filters.1 activity.call.keyName then
            [activity.startRecord, activity.endRecord] else []).countP
              (fun record => record.kind = kind.code ∧ record.group = group) = 0 := by
          split_ifs
          · exact hcount
          · rfl
        rw [hnone, Nat.zero_add]
        simp [callsWith, hkey]
    · have hnone : activity.kept control = [] := by simp [DeviceActivity.kept, hselected]
      rw [hnone, List.countP_nil, Nat.zero_add, List.filter_cons, if_neg hselected]

end Counts

def StartKinds (calls : List AggregateCall) : Prop :=
  ∀ call ∈ calls, ∃ startKind endKind : RecordKind,
    isActivityPair startKind.code endKind.code = true ∧ call.kind = startKind.code

/-- The first calls have for each key as many as there are shown ones among all calls exactly when
    the shown calls are the first ones. -/
theorem counts_eq_iff {accepted refused : List AggregateCall}
    (hkinds : StartKinds (accepted ++ refused)) :
    (∀ startKind endKind : RecordKind, isActivityPair startKind.code endKind.code = true →
      ∀ group, (callsWith (startKind.code, group) accepted).length =
        if ShownIn filters.1 group.2.2 then
          (callsWith (startKind.code, group) (accepted ++ refused)).length
        else 0) ↔
      (∀ call ∈ accepted, ShownIn filters.1 call.keyName) ∧
        ∀ call ∈ refused, ¬ ShownIn filters.1 call.keyName := by
  have hlength : ∀ key, (callsWith key (accepted ++ refused)).length =
      (callsWith key accepted).length + (callsWith key refused).length := by
    intro key
    rw [callsWith_append, List.length_append]
  constructor
  · intro hcounts
    -- the key of a call is one of those that are compared
    have hcall : ∀ call ∈ accepted ++ refused, (callsWith call.key accepted).length =
        if ShownIn filters.1 call.keyName then (callsWith call.key (accepted ++ refused)).length
        else 0 := by
      intro call hmem
      obtain ⟨startKind, endKind, hpair, hkind⟩ := hkinds call hmem
      have hkey : call.key = (startKind.code, call.key.2) := Prod.ext hkind rfl
      rw [hkey]
      exact hcounts startKind endKind hpair call.key.2
    refine ⟨fun call hmem => ?_, fun call hmem hshown => ?_⟩
    · by_contra hhidden
      have hzero := hcall call (List.mem_append_left _ hmem)
      rw [if_neg hhidden] at hzero
      have hpos := List.length_pos_of_mem (mem_callsWith.mpr ⟨hmem, rfl⟩)
      omega
    · have hall := hcall call (List.mem_append_right _ hmem)
      rw [if_pos hshown, hlength] at hall
      have hpos := List.length_pos_of_mem (mem_callsWith.mpr ⟨hmem, rfl⟩)
      omega
  · rintro ⟨hcounted, hnot⟩ startKind endKind - group
    -- a key is shown or not, whichever of its calls is looked at
    have hname : ∀ {call calls}, call ∈ callsWith (startKind.code, group) calls →
        call.keyName = group.2.2 :=
      fun hmem => congrArg (·.2.2.2) (mem_callsWith.mp hmem).2
    split_ifs with hshown
    · have hnil : callsWith (startKind.code, group) refused = [] := by
        rw [List.eq_nil_iff_forall_not_mem]
        intro call hmem
        exact hnot call (mem_callsWith.mp hmem).1 (hname hmem ▸ hshown)
      rw [hlength, hnil, List.length_nil, Nat.add_zero]
    · rw [List.length_eq_zero_iff, List.eq_nil_iff_forall_not_mem]
      intro call hmem
      exact hshown (hname hmem ▸ hcounted call (mem_callsWith.mp hmem).1)

/-- Counts that come from the accepted calls and from the shown ones agree exactly when these are
    the same calls. -/
theorem countedIffShown_iff {calls : List AggregateCall} (hkinds : StartKinds calls) :
    (∀ startKind endKind : RecordKind, isActivityPair startKind.code endKind.code = true →
      ∀ group, (callsWith (startKind.code, group) (acceptedCalls [] calls)).length =
        if ShownIn filters.1 group.2.2 then (callsWith (startKind.code, group) calls).length
        else 0) ↔
      CountedIffShown filters calls := by
  have hsplit := acceptedCalls_append_drop [] calls
  have hiff := @counts_eq_iff filters (acceptedCalls [] calls)
    (calls.drop (acceptedCalls [] calls).length) (by rwa [hsplit])
  rwa [hsplit] at hiff

theorem nameTerminated_of_mem {agent : AgentProcess} {tid : UInt32} {records : List ActivityRecord}
    (hnames : ∀ kernel, .kernel kernel ∈ records → 0 ∈ kernel.name)
    {activity : DeviceActivity agent} (h : activity ∈ devicesOf agent tid records) :
    activity.NameTerminated := by
  obtain ⟨record, hmem, hdevice⟩ := List.mem_filterMap.mp h
  intro bytes hbytes
  cases record with
  | kernel kernel =>
    cases hdevice
    cases hbytes
    exact hnames kernel hmem
  | memcpy | memset =>
    cases hdevice
    cases hbytes
  | unknown => cases hdevice

theorem startKinds_selectedCalls (agent : AgentProcess) (tid : UInt32) (control : AgentControl)
    (records : List ActivityRecord) : StartKinds (selectedCalls agent tid control records) := by
  intro call h
  obtain ⟨activity, -, rfl⟩ := List.mem_map.mp h
  exact ⟨activity.startKind, activity.endKind, activity.pair, rfl⟩

/-- An exact and an aggregate capture of the same activities, with the same filters and start, that
    do not reach their limits: the counts agree for every key exactly when the activities that
    aggregate mode counts are those whose records show what the filters look for. The names of
    kernels are C strings of any length. -/
theorem modes_select_same_iff (agent : AgentProcess) (tid : UInt32) (filters : Filter × Filter)
    (startNs : UInt64) (exactState aggregateState : AgentState) (records : List ActivityRecord)
    (hfilters : validAggregateFilters filters = true)
    (hexact : ExactStart exactState) (hexactBy : SelectsBy exactState.control filters startNs)
    (haggregate : AggregateStart aggregateState)
    (haggregateBy : SelectsBy aggregateState.control filters startNs)
    (hnames : ∀ kernel, .kernel kernel ∈ records → 0 ∈ kernel.name)
    (hlength : records.length < 2 ^ 64) :
    ∃ exactState' aggregateState',
      activityBufferCompleted agent tid exactState records = some exactState' ∧
      activityBufferCompleted agent tid aggregateState records = some aggregateState' ∧
      (exactState'.control.captureState ≠ .limitReached →
        aggregateState'.control.captureState ≠ .limitReached →
        (CountsAgree aggregateState'.store exactState'.store ↔
          CountedIffShown filters (selectedCalls agent tid aggregateState.control records))) := by
  obtain ⟨exactState', hexactRun, hretains⟩ :=
    @activityBufferCompleted_exact exactState agent tid records [] hexact.retains hexact.mode
      hexact.active
  obtain ⟨aggregateState', haggregateRun, hcounted⟩ :=
    @activityBufferCompleted_aggregate aggregateState agent tid records []
      haggregate.table.aggregateTable haggregate.mode haggregate.active
      (fun _ => ⟨Nat.two_pow_pos 64, Nat.two_pow_pos 64, Nat.two_pow_pos 64⟩)
      (by simpa using hlength)
  refine ⟨exactState', aggregateState', hexactRun, haggregateRun, fun hroom hroom' => ?_⟩
  -- both modes see the same selected activities
  have hselected : (devicesOf agent tid records).filter (·.isSelected exactState.control) =
      (devicesOf agent tid records).filter (·.isSelected aggregateState.control) := by
    congr 1
    funext activity
    exact hexactBy.isSelected_eq haggregateBy activity
  have hretained : ∀ {startKind endKind : RecordKind},
      isActivityPair startKind.code endKind.code = true → ∀ group kind,
      (kind = startKind ∨ kind = endKind) →
      retainedCount exactState'.store kind group =
        if ShownIn filters.1 group.2.2 then
          (callsWith (startKind.code, group)
            (selectedCalls agent tid aggregateState.control records)).length
        else 0 := by
    intro startKind endKind hpair group kind hkind
    rw [retainedCount, (hretains hroom).retained_eq, List.nil_append, selectedCalls, ← hselected]
    exact countP_kept hfilters hexactBy hpair group hkind
      (fun activity hmem => nameTerminated_of_mem hnames hmem)
  rw [← countedIffShown_iff (startKinds_selectedCalls agent tid aggregateState.control records)]
  refine ⟨fun hagree startKind endKind hpair group => ?_,
    fun hcounts startKind endKind hpair group => ?_⟩
  · have hstart := (hagree startKind endKind hpair group).1
    rw [hcounted hroom', List.nil_append, hretained hpair group _ (.inl rfl)] at hstart
    exact hstart
  · rw [hcounted hroom', List.nil_append, hretained hpair group _ (.inl rfl),
      hretained hpair group _ (.inr rfl)]
    exact ⟨hcounts startKind endKind hpair group, hcounts startKind endKind hpair group⟩

/-! ## A part at the end of the copied name -/

/-- Filters for the kernels whose names contain a `b`. -/
def partFilters : Filter × Filter :=
  (kernelNameFilter .contains (utf8Bytes "b") (by decide),
    { kernelNameFilter .contains (utf8Bytes "b") (by decide) with
      recordKind := RecordKind.gpuKernelEnd.code })

/-- The agent after it was armed for those kernels, with room for two records or groups. -/
def partAgent (mode : CaptureMode) : AgentState :=
  runCommand willingEnvironment { armKernels mode 2 with filters := partFilters } idleAgent

/-- A process whose activities are on the clock of the records. -/
def plainProcess : AgentProcess := { pid := 1, activityTimestampOffsetNs := 0 }

def namedKernel (name : List UInt8) (start finish : UInt64) : ActivityRecord :=
  .kernel
    { deviceId := 0, contextId := 1, streamId := 7, correlationId := 1
      gridX := 1, gridY := 1, gridZ := 1, blockX := 1, blockY := 1, blockZ := 1
      name, start, finish }

theorem exactStart_partAgent : ExactStart (partAgent .exact) :=
  ⟨⟨by decide, by decide, by decide, by decide, rfl, by decide⟩, by decide, by decide⟩

theorem aggregateStart_partAgent : AggregateStart (partAgent .aggregate) :=
  ⟨⟨by decide, by decide, by decide, by decide, by decide⟩, by decide, by decide, by decide⟩

/-- What the two modes leave of some activities: the state of the capture, and the numbers of a
    kernel name. -/
def partRun (mode : CaptureMode) (records : List ActivityRecord) (name : List UInt8) :
    Option (CaptureState × Nat × Nat × Nat) :=
  (activityBufferCompleted plainProcess 1 (partAgent mode) records).map (fun state =>
    (state.control.captureState,
      aggregateCount state.store (RecordKind.gpuKernelStart.code, 0, 0, name),
      retainedCount state.store .gpuKernelStart (0, 0, name),
      retainedCount state.store .gpuKernelEnd (0, 0, name)))

/-- A kernel `ab` is counted once, and has one record of each kind. -/
theorem modes_select_same_short : ∃ exactState aggregateState,
      activityBufferCompleted plainProcess 1 (partAgent .exact) [namedKernel [97, 98, 0] 5 9] =
        some exactState ∧
      activityBufferCompleted plainProcess 1 (partAgent .aggregate) [namedKernel [97, 98, 0] 5 9] =
        some aggregateState ∧
      CountsAgree aggregateState.store exactState.store := by
  have hnames : ∀ kernel, .kernel kernel ∈ [namedKernel [97, 98, 0] 5 9] → 0 ∈ kernel.name := by
    intro kernel hmem
    cases List.mem_singleton.mp hmem
    decide
  obtain ⟨exactState, aggregateState, hexact, haggregate, hiff⟩ :=
    modes_select_same_iff plainProcess 1 partFilters 0 (partAgent .exact) (partAgent .aggregate) [namedKernel [97, 98, 0] 5 9]
    (by decide) exactStart_partAgent ⟨rfl, rfl, rfl⟩ aggregateStart_partAgent ⟨rfl, rfl, rfl⟩ hnames
    (by decide)
  have hroom : (partRun .exact [namedKernel [97, 98, 0] 5 9] [97, 98]).map Prod.fst =
      some .active := by decide +kernel
  have hroom' : (partRun .aggregate [namedKernel [97, 98, 0] 5 9] [97, 98]).map Prod.fst =
      some .active := by decide +kernel
  rw [partRun, hexact] at hroom
  rw [partRun, haggregate] at hroom'
  have hactive : exactState.control.captureState = .active := Option.some.inj hroom
  have hactive' : aggregateState.control.captureState = .active := Option.some.inj hroom'
  refine ⟨exactState, aggregateState, hexact, haggregate, (hiff ?_ ?_).mpr ⟨by decide, by decide⟩⟩
  · rw [hactive]
    decide
  · rw [hactive']
    decide

/-- A kernel whose name has its `b` as the 128th byte is counted in aggregate mode, and has no record
    in exact mode. A kernel `b` that ends before it starts has records in exact mode, and fails the
    capture in aggregate mode. -/
theorem modes_select_different : validAggregateFilters partFilters = true ∧
      partRun .aggregate [namedKernel (List.replicate 127 97 ++ [98, 0]) 5 9]
        (List.replicate 127 97) = some (.active, 1, 0, 0) ∧
      partRun .exact [namedKernel (List.replicate 127 97 ++ [98, 0]) 5 9]
        (List.replicate 127 97) = some (.active, 0, 0, 0) ∧
      partRun .aggregate [namedKernel [98, 0] 9 5] [98] = some (.failed, 0, 0, 0) ∧
      partRun .exact [namedKernel [98, 0] 9 5] [98] = some (.active, 0, 1, 1) := by
  refine ⟨by decide, ?_, ?_, ?_, ?_⟩ <;> decide +kernel

end Xprobe.Cupti
