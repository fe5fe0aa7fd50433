import Xprobe.Cupti.Abi

/-!
# Filters and control requests of the agent

The agent's side of the control socket (`cupti/include/xprobe/cupti_agent.h` and
`cupti/src/cupti_agent.c`): how a request is laid out in memory, when it is valid, and which records
a filter accepts. A `const char *` is the bytes that can be read from it, terminator included.
-/

namespace Xprobe.Cupti

open Foundation

/-! ## Constants -/

/-- `XPROBE_CUPTI_CONTROL_MAGIC` with its terminator. -/
def controlMagic : List UInt8 := [0x58, 0x50, 0x43, 0x54, 0x52, 0x4c, 0, 0]

/-- `XPROBE_CUPTI_CONTROL_VERSION`. -/
def controlVersion : UInt32 := 4

/-- `sizeof(struct xprobe_cupti_control_request)`. -/
def controlSize : Nat := 328

/-- `sizeof(struct xprobe_cupti_filter)`. -/
def filterSize : Nat := 144

/-- `CUPTI_CB_DOMAIN_RUNTIME_API`, from the CUPTI headers. -/
def callbackDomainRuntimeApi : UInt32 := 2

/-- `enum xprobe_cupti_control_command`. -/
inductive ControlCommand where
  | arm
  | snapshot
  | stop
  | close
  deriving Repr, DecidableEq

def ControlCommand.code : ControlCommand → UInt32
  | .arm => 1
  | .snapshot => 2
  | .stop => 3
  | .close => 4

/-- `enum xprobe_cupti_capture_mode`. -/
inductive CaptureMode where
  | exact
  | aggregate
  deriving Repr, DecidableEq

def CaptureMode.code : CaptureMode → UInt32
  | .exact => 0
  | .aggregate => 1

/-- `enum xprobe_cupti_name_match`. -/
inductive NameMatch where
  | any
  | exact
  | prefixed
  | suffixed
  | contains
  deriving Repr, DecidableEq

def NameMatch.code : NameMatch → UInt32
  | .any => 0
  | .exact => 1
  | .prefixed => 2
  | .suffixed => 3
  | .contains => 4

/-! ## Layouts -/

/-- `struct xprobe_cupti_filter`. -/
@[ext] structure Filter where
  recordKind : UInt32
  apiDomain : UInt32
  memcpyKind : UInt32
  nameMatch : UInt32
  name : List UInt8
  name_length : name.length = nameLength

def Filter.encode (filter : Filter) : List UInt8 :=
  leU32 filter.recordKind ++ (leU32 filter.apiDomain ++ (leU32 filter.memcpyKind ++
    (leU32 filter.nameMatch ++ filter.name)))

@[simp] theorem Filter.length_encode (filter : Filter) : filter.encode.length = filterSize := by
  simp [Filter.encode, filter.name_length, nameLength, filterSize]

def Filter.ofBytes (bytes : List UInt8) (offset : Nat) (h : offset + filterSize ≤ bytes.length) :
    Filter :=
  { recordKind := readU32 bytes offset
    apiDomain := readU32 bytes (offset + 4)
    memcpyKind := readU32 bytes (offset + 8)
    nameMatch := readU32 bytes (offset + 12)
    name := sliceAt bytes (offset + 16) nameLength
    name_length := by
      simp only [filterSize] at h
      simp only [sliceAt, nameLength, List.length_take, List.length_drop]
      omega }

/-- Reading a filter where it was stored. -/
theorem Filter.ofBytes_encode (front back : List UInt8) (filter : Filter) {offset : Nat}
    (hoffset : offset = front.length)
    (h : offset + filterSize ≤ (front ++ (filter.encode ++ back)).length) :
    Filter.ofBytes (front ++ (filter.encode ++ back)) offset h = filter := by
  subst hoffset
  have hname : sliceAt (filter.name ++ back) 0 nameLength = filter.name := by
    rw [← filter.name_length]
    exact sliceAt_append_left _ _
  ext1
  case name =>
    show sliceAt _ (front.length + 16) nameLength = filter.name
    rw [sliceAt_append_right _ (Nat.le_add_right _ _), Nat.add_sub_cancel_left]
    simp [Filter.encode, sliceAt_append_right, hname]
  all_goals simp [Filter.ofBytes, Filter.encode, readU32_append]

/-- `struct xprobe_cupti_control_request`. -/
@[ext] structure ControlRequest where
  magic : List UInt8
  version : UInt32
  command : UInt32
  recordCapacity : UInt64
  recordOffset : UInt64
  captureMode : UInt32
  reserved : UInt32
  filters : Filter × Filter

def ControlRequest.ofBytes (bytes : List UInt8) (h : bytes.length = controlSize) : ControlRequest :=
  { magic := sliceAt bytes 0 8
    version := readU32 bytes 8
    command := readU32 bytes 12
    recordCapacity := readU64 bytes 16
    recordOffset := readU64 bytes 24
    captureMode := readU32 bytes 32
    reserved := readU32 bytes 36
    filters :=
      (.ofBytes bytes 40 (by rw [h]; decide), .ofBytes bytes 184 (by rw [h]; decide)) }

/-- The bytes of a request before its filters. -/
def ControlRequest.encodeFront (request : ControlRequest) : List UInt8 :=
  request.magic ++ (leU32 request.version ++ (leU32 request.command ++
    (leU64 request.recordCapacity ++ (leU64 request.recordOffset ++
    (leU32 request.captureMode ++ leU32 request.reserved)))))

def ControlRequest.encode (request : ControlRequest) : List UInt8 :=
  request.encodeFront ++ (request.filters.1.encode ++ request.filters.2.encode)

theorem ControlRequest.length_encodeFront {request : ControlRequest}
    (h : request.magic.length = 8) : request.encodeFront.length = 40 := by
  simp [ControlRequest.encodeFront, h]

theorem ControlRequest.length_encode {request : ControlRequest}
    (h : request.magic.length = 8) : request.encode.length = controlSize := by
  simp [ControlRequest.encode, length_encodeFront h, filterSize, controlSize]

/-- Reading a request where it was stored. -/
theorem ControlRequest.ofBytes_encode {request : ControlRequest} (hmagic : request.magic.length = 8)
    (h : request.encode.length = controlSize) :
    ControlRequest.ofBytes request.encode h = request := by
  have hfront := length_encodeFront hmagic
  ext1
  case magic =>
    show sliceAt request.encode 0 8 = request.magic
    rw [encode, encodeFront, List.append_assoc, ← hmagic]
    exact sliceAt_append_left _ _
  case filters =>
    refine Prod.ext ?_ ?_
    · exact Filter.ofBytes_encode _ _ _ hfront.symm (by simp [hfront])
    · have hassoc : request.encode = (request.encodeFront ++ request.filters.1.encode) ++
          (request.filters.2.encode ++ []) := by
        simp [encode]
      have hsecond : ∀ hsize, Filter.ofBytes request.encode 184 hsize = request.filters.2 := by
        rw [hassoc]
        intro hsize
        exact Filter.ofBytes_encode _ _ _ (by simp [hfront, filterSize]) hsize
      exact hsecond (by rw [h]; decide)
  all_goals
    simp [ControlRequest.ofBytes, encode, encodeFront, hmagic, readU32_append, readU64_append]

/-! ## Matching -/

/-- `bounded_name_length`, on a pointer that is not null. -/
def boundedNameLength (name : List UInt8) : Nat :=
  ((name.take nameLength).takeWhile (· ≠ 0)).length

/-- `memcmp(left, right, length) == 0`. -/
def sameBytes (left right : List UInt8) (length : Nat) : Bool :=
  left.take length == right.take length

/-- `name_matches`. A null name is the empty one. -/
def nameMatches (filter : Filter) (recordName : Option (List UInt8)) : Bool :=
  let recordName := recordName.getD [0]
  let filterLength := boundedNameLength filter.name
  let recordLength := boundedNameLength recordName
  if filter.nameMatch = NameMatch.any.code then true
  else if filterLength = nameLength then false
  else if filter.nameMatch = NameMatch.exact.code then
    recordLength < nameLength && filterLength == recordLength &&
      sameBytes filter.name recordName filterLength
  else if filter.nameMatch = NameMatch.prefixed.code then
    filterLength ≤ recordLength && sameBytes filter.name recordName filterLength
  else if filter.nameMatch = NameMatch.suffixed.code then
    recordLength < nameLength && filterLength ≤ recordLength &&
      sameBytes filter.name (recordName.drop (recordLength - filterLength)) filterLength
  else if filter.nameMatch = NameMatch.contains.code then
    filterLength == 0 || (List.range (recordLength + 1 - filterLength)).any (fun offset =>
      sameBytes filter.name (recordName.drop offset) filterLength)
  else false

/-- `semantic_memcpy_kind`. -/
def semanticMemcpyKind (cuptiKind : UInt32) : UInt32 :=
  if cuptiKind = 1 ∨ cuptiKind = 3 then 1
  else if cuptiKind = 2 ∨ cuptiKind = 4 then 2
  else if cuptiKind = 5 ∨ cuptiKind = 6 ∨ cuptiKind = 7 ∨ cuptiKind = 8 then 3
  else if cuptiKind = 9 then 4
  else if cuptiKind = 10 then 5
  else 0

/-- `filter_matches_values`. -/
def filterMatchesValues (filter : Filter) (recordKind apiDomain memcpyKind : UInt32)
    (name : Option (List UInt8)) : Bool :=
  if filter.recordKind = 0 ∨ filter.recordKind ≠ recordKind then false
  else if filter.apiDomain ≠ 0 ∧ filter.apiDomain ≠ apiDomain then false
  else if filter.memcpyKind ≠ 0 ∧ filter.memcpyKind ≠ memcpyKind then false
  else nameMatches filter name

/-- `record_matches_filter`. -/
def recordMatchesFilter (record : Record) (filter : Filter) : Bool :=
  filterMatchesValues filter record.kind record.callbackDomain (semanticMemcpyKind record.gridZ)
    (some record.name)

/-- A filter without a record kind accepts nothing. -/
theorem filterMatchesValues_of_kind_zero {filter : Filter} (h : filter.recordKind = 0)
    (recordKind apiDomain memcpyKind : UInt32) (name : Option (List UInt8)) :
    filterMatchesValues filter recordKind apiDomain memcpyKind name = false := by
  rw [filterMatchesValues, if_pos (.inl h)]

/-! ## Validity -/

/-- `valid_filter`. -/
def validFilter (filter : Filter) : Bool :=
  if filter.recordKind > RecordKind.nvtxRangeEnd.code ∨
      filter.apiDomain > callbackDomainRuntimeApi ∨ filter.memcpyKind > 5 ∨
      filter.nameMatch > NameMatch.contains.code then false
  else filter.nameMatch == NameMatch.any.code || boundedNameLength filter.name < nameLength

def isActivityPair (startKind endKind : UInt32) : Bool :=
  (startKind == RecordKind.gpuKernelStart.code && endKind == RecordKind.gpuKernelEnd.code) ||
    (startKind == RecordKind.gpuMemcpyStart.code && endKind == RecordKind.gpuMemcpyEnd.code) ||
    (startKind == RecordKind.gpuMemsetStart.code && endKind == RecordKind.gpuMemsetEnd.code)

/-- `valid_aggregate_filters`. -/
def validAggregateFilters (filters : Filter × Filter) : Bool :=
  if !isActivityPair filters.1.recordKind filters.2.recordKind then false
  else
    filters.1.apiDomain == filters.2.apiDomain && filters.1.memcpyKind == filters.2.memcpyKind &&
      filters.1.nameMatch == filters.2.nameMatch &&
      sameBytes filters.1.name filters.2.name nameLength

/-- The checks that `serve_snapshots` makes on a received request. -/
def ControlRequest.isWellFormed (request : ControlRequest) : Bool :=
  request.magic == controlMagic && request.version == controlVersion &&
    !(request.command < ControlCommand.arm.code || request.command > ControlCommand.close.code) &&
    !(request.captureMode > CaptureMode.aggregate.code) && request.reserved == 0

end Xprobe.Cupti
