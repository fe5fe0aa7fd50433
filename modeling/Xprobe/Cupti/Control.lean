import Xprobe.Cupti.Filter
import Xprobe.Cupti.Decode

/-!
# Control requests of the collector

`encode_control` (`xprobe/collector/src/cupti.rs`) fills a zeroed buffer with a request. Read back
as the agent's structure, an ARM request has the fields of its configuration; an absent second
filter stays zero.
-/

namespace Xprobe.Cupti

open Foundation

/-! ## Configurations -/

inductive CuptiApiDomain where
  | any
  | driver
  | runtime
  deriving Repr, DecidableEq

def CuptiApiDomain.code : CuptiApiDomain → UInt32
  | .any => 0
  | .driver => 1
  | .runtime => 2

inductive CuptiMemcpyKind where
  | any
  | hostToDevice
  | deviceToHost
  | deviceToDevice
  | hostToHost
  | peerToPeer
  deriving Repr, DecidableEq

def CuptiMemcpyKind.code : CuptiMemcpyKind → UInt32
  | .any => 0
  | .hostToDevice => 1
  | .deviceToHost => 2
  | .deviceToDevice => 3
  | .hostToHost => 4
  | .peerToPeer => 5

inductive CuptiNameFilter where
  | any
  | exact (name : String)
  | prefixed (name : String)
  | suffixed (name : String)
  | contains (name : String)
  deriving Repr, DecidableEq

def CuptiNameFilter.encoded : CuptiNameFilter → NameMatch × String
  | .any => (.any, "")
  | .exact name => (.exact, name)
  | .prefixed name => (.prefixed, name)
  | .suffixed name => (.suffixed, name)
  | .contains name => (.contains, name)

structure CuptiEventFilter where
  recordKind : RecordKind
  apiDomain : CuptiApiDomain
  memcpyKind : CuptiMemcpyKind
  name : CuptiNameFilter
  deriving Repr, DecidableEq

def CuptiEventFilter.nameBytes (filter : CuptiEventFilter) : List UInt8 :=
  utf8Bytes filter.name.encoded.2

structure CuptiArmConfig where
  recordCapacity : UInt64
  captureMode : CaptureMode
  filters : List CuptiEventFilter
  deriving Repr, DecidableEq

inductive CuptiSnapshotError where
  | invalidControl (message : String)
  | connect (path source : String)
  | configure (source : String)
  | write (source : String)
  | read (source : String)
  | decode (error : CuptiDecodeError)

/-! ## Encoding -/

def zeros (length : Nat) : List UInt8 := List.replicate length 0

theorem zeros_append (m n : Nat) : zeros m ++ zeros n = zeros (m + n) :=
  List.replicate_append_replicate

@[simp] theorem length_zeros (n : Nat) : (zeros n).length = n := List.length_replicate

/-- One turn of the loop over the filters. -/
def encodeFilter (control : List UInt8) (offset : Nat) (filter : CuptiEventFilter) :
    Except CuptiSnapshotError (List UInt8) := do
  let control := writeAt control offset (leU32 filter.recordKind.code)
  let control := writeAt control (offset + 4) (leU32 filter.apiDomain.code)
  let control := writeAt control (offset + 8) (leU32 filter.memcpyKind.code)
  let nameBytes := filter.nameBytes
  ensure (¬(nameLength ≤ nameBytes.length ∨ 0 ∈ nameBytes))
    (.invalidControl "CUPTI filter name must be a NUL-free string shorter than 128 bytes")
  let control := writeAt control (offset + 12) (leU32 filter.name.encoded.1.code)
  return writeAt control (offset + 16) nameBytes

def encodeFilters (control : List UInt8) (index : Nat) :
    List CuptiEventFilter → Except CuptiSnapshotError (List UInt8)
  | [] => .ok control
  | filter :: rest => do
    let control ← encodeFilter control (40 + index * filterSize) filter
    encodeFilters control (index + 1) rest

/-- `encode_control`, on a little-endian host. -/
def encodeControl (command : UInt32) (recordOffset : UInt64) (config : Option CuptiArmConfig) :
    Except CuptiSnapshotError (List UInt8) :=
  let control := zeros controlSize
  let control := writeAt control 0 controlMagic
  let control := writeAt control 8 (leU32 controlVersion)
  let control := writeAt control 12 (leU32 command)
  let control := writeAt control 24 (leU64 recordOffset)
  match config with
  | none => .ok control
  | some config => do
    let count := config.filters.length
    ensure (config.recordCapacity ≠ 0)
      (.invalidControl "CUPTI record capacity must be positive")
    ensure (¬(config.filters = [] ∨ 2 < config.filters.length))
      (.invalidControl
        s!"CUPTI capture requires one or two endpoint filters, found {count}")
    ensure (recordOffset = 0) (.invalidControl "CUPTI ARM record offset must be zero")
    let control := writeAt control 16 (leU64 config.recordCapacity)
    let control := writeAt control 32 (leU32 config.captureMode.code)
    encodeFilters control 0 config.filters

/-! ## Layout of the result -/

/-- The name of a filter fits: it is shorter than the field and free of terminators. -/
def CuptiEventFilter.NameFits (filter : CuptiEventFilter) : Prop :=
  filter.nameBytes.length < nameLength ∧ 0 ∉ filter.nameBytes

/-- The agent's form of a filter, its name padded with zeros. -/
def CuptiEventFilter.toFilter (filter : CuptiEventFilter) : Filter :=
  { recordKind := filter.recordKind.code
    apiDomain := filter.apiDomain.code
    memcpyKind := filter.memcpyKind.code
    nameMatch := filter.name.encoded.1.code
    name := (filter.nameBytes ++ zeros nameLength).take nameLength
    name_length := by simp [zeros] }

def emptyFilter : Filter :=
  { recordKind := 0, apiDomain := 0, memcpyKind := 0, nameMatch := 0, name := zeros nameLength
    name_length := length_zeroName }

theorem zeros_filterSize : zeros filterSize = emptyFilter.encode := by decide

variable {filter : CuptiEventFilter}

private theorem paddedName (h : filter.NameFits) :
    filter.toFilter.name = filter.nameBytes ++ zeros (nameLength - filter.nameBytes.length) := by
  have hlength := le_of_lt h.1
  simp [CuptiEventFilter.toFilter, List.take_append, List.take_of_length_le hlength, zeros,
    List.take_replicate]

/-- The zone of a filter is filled with the agent's form of it, if the name fits. -/
private theorem encodeFilter_eq_ok_iff {front back result : List UInt8} {offset : Nat}
    (hoffset : offset = front.length) :
    encodeFilter (front ++ (zeros filterSize ++ back)) offset filter = .ok result ↔
      filter.NameFits ∧ result = front ++ (filter.toFilter.encode ++ back) := by
  subst hoffset
  have hfits : ¬(nameLength ≤ filter.nameBytes.length ∨ 0 ∈ filter.nameBytes) ↔
      filter.NameFits := by
    simp [CuptiEventFilter.NameFits, not_or]
  -- the filter is written field by field into a zone of zeros
  have hzones : zeros filterSize = zeros 4 ++ (zeros 4 ++ (zeros 4 ++ (zeros 4 ++
      zeros nameLength))) := by
    simp only [zeros_append]
    rfl
  have hskip : ∀ (rest data : List UInt8) (k : Nat), writeAt (front ++ rest) (front.length + k)
      data = front ++ writeAt rest k data := by
    intro rest data k
    rw [writeAt_append_right (Nat.le_add_right _ _), Nat.add_sub_cancel_left]
  unfold encodeFilter
  rw [bind_unit_eq_ok_iff, ensure_eq_ok_iff, hfits]
  refine and_congr_right fun h => ?_
  have hname : writeAt (zeros nameLength ++ back) 0 filter.nameBytes =
      filter.toFilter.name ++ back := by
    rw [writeAt_zone (by simpa [zeros] using le_of_lt h.1), paddedName h]
    simp [zeros]
  have hfirst : ∀ rest data : List UInt8, writeAt (front ++ rest) front.length data =
      front ++ writeAt rest 0 data := fun rest data => hskip rest data 0
  have hword : ∀ (rest : List UInt8) (x : UInt32), writeAt (zeros 4 ++ rest) 0 (leU32 x) =
      leU32 x ++ rest := fun rest x => writeAt_whole (by simp [zeros])
  simp only [hzones, List.append_assoc, hfirst, hskip, hword, writeAt_append_right, length_leU32,
    le_refl, Nat.sub_self, Nat.reduceLeDiff, Nat.reduceSub, hname]
  constructor
  · intro heq
    rw [← Except.ok.inj heq]
    simp [Filter.encode, CuptiEventFilter.toFilter]
  · rintro rfl
    simp [Filter.encode, CuptiEventFilter.toFilter]
    rfl

/-- What `encode_control` asks of a configuration. -/
structure CuptiArmConfig.Acceptable (config : CuptiArmConfig) : Prop where
  capacity_ne : config.recordCapacity ≠ 0
  filters_ne : config.filters ≠ []
  filters_le : config.filters.length ≤ 2
  names_fit : ∀ filter ∈ config.filters, filter.NameFits

def agentFilters : List CuptiEventFilter → Filter × Filter
  | [] => (emptyFilter, emptyFilter)
  | [filter] => (filter.toFilter, emptyFilter)
  | first :: second :: _ => (first.toFilter, second.toFilter)

section AgentFilters

variable {filters : List CuptiEventFilter} {filter : CuptiEventFilter}

theorem agentFilters_first (h : filters[0]? = some filter) :
    (agentFilters filters).1 = filter.toFilter := by
  match filters with
  | [first] =>
    cases h
    rfl
  | first :: second :: _ =>
    cases h
    rfl

theorem agentFilters_second (h : filters[1]? = some filter) :
    (agentFilters filters).2 = filter.toFilter := by
  match filters with
  | first :: second :: _ =>
    cases h
    rfl

theorem agentFilters_no_second (h : filters[1]? = none) :
    (agentFilters filters).2 = emptyFilter := by
  match filters with
  | [] => rfl
  | [first] => rfl

end AgentFilters

def CuptiArmConfig.toRequest (config : CuptiArmConfig) : ControlRequest :=
  { magic := controlMagic
    version := controlVersion
    command := ControlCommand.arm.code
    recordCapacity := config.recordCapacity
    recordOffset := 0
    captureMode := config.captureMode.code
    reserved := 0
    filters := agentFilters config.filters }

/-- The buffer before the loop over the filters. -/
private theorem writeHeader_eq (config : CuptiArmConfig) :
    writeAt (writeAt (writeAt (writeAt (writeAt (writeAt (zeros controlSize) 0 controlMagic) 8
      (leU32 controlVersion)) 12 (leU32 ControlCommand.arm.code)) 24 (leU64 0)) 16
      (leU64 config.recordCapacity)) 32 (leU32 config.captureMode.code) =
      config.toRequest.encodeFront ++ (zeros filterSize ++ zeros filterSize) := by
  have hzones : zeros controlSize = zeros 8 ++ (zeros 4 ++ (zeros 4 ++ (zeros 8 ++ (zeros 8 ++
      (zeros 4 ++ (zeros 4 ++ (zeros filterSize ++ zeros filterSize))))))) := by
    simp only [zeros_append]
    rfl
  have hmagic : controlMagic.length = 8 := rfl
  have hfirst : ∀ rest : List UInt8, writeAt (zeros 8 ++ rest) 0 controlMagic =
      controlMagic ++ rest := fun rest => writeAt_whole (by simp [zeros, hmagic])
  have hword : ∀ (rest : List UInt8) (x : UInt32), writeAt (zeros 4 ++ rest) 0 (leU32 x) =
      leU32 x ++ rest := fun rest x => writeAt_whole (by simp [zeros])
  have hlong : ∀ (rest : List UInt8) (x : UInt64), writeAt (zeros 8 ++ rest) 0 (leU64 x) =
      leU64 x ++ rest := fun rest x => writeAt_whole (by simp [zeros])
  have hreserved : zeros 4 = leU32 0 := by decide
  simp only [hzones, hfirst, hword, hlong, writeAt_append_right, hmagic, length_zeros, length_leU32,
    length_leU64, le_refl, Nat.sub_self, Nat.reduceLeDiff, Nat.reduceSub]
  simp [CuptiArmConfig.toRequest, ControlRequest.encodeFront, hreserved]

private theorem encodeFilters_eq_ok_iff {front : List UInt8} (hfront : front.length = 40)
    {filters : List CuptiEventFilter} (hne : filters ≠ []) (hle : filters.length ≤ 2)
    {bytes : List UInt8} :
    encodeFilters (front ++ (zeros filterSize ++ zeros filterSize)) 0 filters = .ok bytes ↔
      (∀ filter ∈ filters, filter.NameFits) ∧
        bytes = front ++ ((agentFilters filters).1.encode ++ (agentFilters filters).2.encode) := by
  have hfirst : ∀ first control, encodeFilter (front ++ (zeros filterSize ++ zeros filterSize))
      (40 + 0 * filterSize) first = .ok control ↔
      first.NameFits ∧ control = front ++ (first.toFilter.encode ++ zeros filterSize) :=
    fun first control => encodeFilter_eq_ok_iff (by simp [hfront])
  have hsecond : ∀ (first second : CuptiEventFilter) control,
      encodeFilter (front ++ (first.toFilter.encode ++ zeros filterSize)) (40 + 1 * filterSize)
        second = .ok control ↔
      second.NameFits ∧
        control = front ++ (first.toFilter.encode ++ second.toFilter.encode) := by
    intro first second control
    have hzone := @encodeFilter_eq_ok_iff second (front ++ first.toFilter.encode) [] control
      (40 + 1 * filterSize) (by simp [hfront])
    simpa only [List.append_assoc, List.append_nil] using hzone
  -- the loop writes each filter to its own zone; a missing second one stays zero
  match filters with
  | [first] =>
    constructor
    · intro h
      obtain ⟨control, hcontrol, h⟩ := of_bind h
      obtain ⟨hname, rfl⟩ := (hfirst first control).mp hcontrol
      cases h
      exact ⟨by simpa using hname, by rw [zeros_filterSize]; rfl⟩
    · rintro ⟨hnames, rfl⟩
      refine bind_eq_ok_iff.mpr ⟨_, (hfirst first _).mpr ⟨hnames first (by simp), rfl⟩, ?_⟩
      rw [zeros_filterSize]
      rfl
  | [first, second] =>
    constructor
    · intro h
      obtain ⟨control, hcontrol, h⟩ := of_bind h
      obtain ⟨hname, rfl⟩ := (hfirst first control).mp hcontrol
      obtain ⟨control, hcontrol, h⟩ := of_bind h
      obtain ⟨hname', rfl⟩ := (hsecond first second control).mp hcontrol
      cases h
      exact ⟨by simpa using ⟨hname, hname'⟩, rfl⟩
    · rintro ⟨hnames, rfl⟩
      refine bind_eq_ok_iff.mpr ⟨_, (hfirst first _).mpr ⟨hnames first (by simp), rfl⟩, ?_⟩
      exact bind_eq_ok_iff.mpr
        ⟨_, (hsecond first second _).mpr ⟨hnames second (by simp), rfl⟩, rfl⟩

/-- `encode_control` accepts an ARM configuration exactly when its capacity is positive, it has one
    or two filters and their names fit; it then lays out the request. -/
theorem encodeControl_arm_eq_ok_iff (config : CuptiArmConfig) (bytes : List UInt8) :
    encodeControl ControlCommand.arm.code 0 (some config) = .ok bytes ↔
      config.Acceptable ∧ bytes = config.toRequest.encode := by
  have hfront : config.toRequest.encodeFront.length = 40 :=
    ControlRequest.length_encodeFront rfl
  unfold encodeControl
  simp only [bind_unit_eq_ok_iff, ensure_eq_ok_iff, true_and, writeHeader_eq config]
  constructor
  · rintro ⟨hcapacity, hfilters, h⟩
    rw [not_or, not_lt] at hfilters
    obtain ⟨hnames, rfl⟩ := (encodeFilters_eq_ok_iff hfront hfilters.1 hfilters.2).mp h
    exact ⟨⟨hcapacity, hfilters.1, hfilters.2, hnames⟩, rfl⟩
  · rintro ⟨haccept, rfl⟩
    refine ⟨haccept.capacity_ne, not_or.mpr ⟨haccept.filters_ne, not_lt.mpr haccept.filters_le⟩, ?_⟩
    exact (encodeFilters_eq_ok_iff hfront haccept.filters_ne haccept.filters_le).mpr
      ⟨haccept.names_fit, rfl⟩

/-! ## What the agent reads -/

/-- The name of a filter is terminated within its field. -/
private theorem terminatedName (h : filter.NameFits) :
    ∃ padding, filter.toFilter.name = filter.nameBytes ++ 0 :: padding := by
  obtain ⟨n, hn⟩ := Nat.exists_eq_succ_of_ne_zero (Nat.sub_ne_zero_of_lt h.1)
  refine ⟨zeros n, ?_⟩
  rw [paddedName h, hn]
  rfl

/-- The agent reads a filter's name as a C string. -/
theorem cString_toFilter_name (h : filter.NameFits) :
    cString filter.toFilter.name = filter.nameBytes := by
  obtain ⟨padding, hpadding⟩ := terminatedName h
  rw [hpadding, cString_append_nul h.2]

private theorem boundedNameLength_toFilter (h : filter.NameFits) :
    boundedNameLength filter.toFilter.name = filter.nameBytes.length := by
  have hwhole : filter.toFilter.name.take nameLength = filter.toFilter.name :=
    List.take_of_length_le (le_of_eq filter.toFilter.name_length)
  rw [boundedNameLength, hwhole]
  exact congrArg List.length (cString_toFilter_name h)

theorem validFilter_toFilter (h : filter.NameFits) : validFilter filter.toFilter = true := by
  have hkind : ¬filter.recordKind.code > RecordKind.nvtxRangeEnd.code := by
    cases filter.recordKind <;> decide
  have hdomain : ¬filter.apiDomain.code > callbackDomainRuntimeApi := by
    cases filter.apiDomain <;> decide
  have hmemcpy : ¬filter.memcpyKind.code > 5 := by
    cases filter.memcpyKind <;> decide
  have hmatch : ¬filter.name.encoded.1.code > NameMatch.contains.code := by
    cases filter.name.encoded.1 <;> decide
  have hname : boundedNameLength filter.toFilter.name < nameLength := by
    rw [boundedNameLength_toFilter h]
    exact h.1
  rw [validFilter, if_neg (by simp only [not_or]; exact ⟨hkind, hdomain, hmemcpy, hmatch⟩)]
  simp [hname]

theorem validFilter_emptyFilter : validFilter emptyFilter = true := by decide

theorem toRequest_isWellFormed (config : CuptiArmConfig) :
    config.toRequest.isWellFormed = true := by
  cases hmode : config.captureMode <;>
    simp [ControlRequest.isWellFormed, CuptiArmConfig.toRequest, hmode] <;> decide

/-- Two filters of one kind of activity that differ in nothing else can be aggregated. -/
theorem validAggregateFilters_toFilter {first second : CuptiEventFilter}
    (hpair : isActivityPair first.recordKind.code second.recordKind.code = true)
    (hdomain : first.apiDomain = second.apiDomain) (hmemcpy : first.memcpyKind = second.memcpyKind)
    (hname : first.name = second.name) :
    validAggregateFilters (first.toFilter, second.toFilter) = true := by
  simp [validAggregateFilters, CuptiEventFilter.toFilter, CuptiEventFilter.nameBytes, hpair,
    hdomain, hmemcpy, hname, sameBytes]

end Xprobe.Cupti
