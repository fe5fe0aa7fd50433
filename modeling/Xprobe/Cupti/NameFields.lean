import Xprobe.Cupti.Accepted
import Xprobe.Cupti.NvtxNames

/-!
# The names of records

The agent copies names into fields of 128 bytes in two ways. `copy_nvtx_name` cuts a long name
before a character that does not fit; `copy_name`, which copies the names of kernels and API
functions, cuts it after 127 bytes wherever that is. The decoder takes both for UTF-8, so a kernel
name that is cut within a character makes it refuse the record, and with it the whole capture.
-/

namespace Xprobe.Cupti

open Foundation Protocol

/-! ## Fields -/

/-- What a record is named after. -/
inductive NameOrigin where
  | kernel
  | api
  | nvtx
  deriving Repr, DecidableEq

def NameOrigin.field (origin : NameOrigin) (destination source : List UInt8) : List UInt8 :=
  match origin with
  | .kernel | .api => copyName source
  | .nvtx => (copyNvtxName destination (some source)).2

/-- The field passes the UTF-8 check of the decoder. -/
def NameDecodes (field : List UInt8) : Prop := (fromUtf8 (cString field)).isSome = true

/-- `copy_name` leaves a text exactly when it does not cut a character. -/
theorem nameDecodes_copyName_iff {text : String} (rest : List UInt8) (hzero : 0 ∉ utf8Bytes text) :
    NameDecodes (copyName (utf8Bytes text ++ 0 :: rest)) ↔ EndsWithChar text 127 := by
  rw [NameDecodes, cString_copyName, keptName, cString_append_nul hzero]
  exact fromUtf8_take_isSome_iff text 127

/-- `copy_nvtx_name` always leaves a text. -/
theorem nameDecodes_copyNvtxName {text : String} (destination rest : List UInt8)
    (hzero : 0 ∉ utf8Bytes text) :
    NameDecodes (copyNvtxName destination (some (utf8Bytes text ++ 0 :: rest))).2 := by
  rw [NameDecodes, cString_copyNvtxName, keptNvtxName_text text rest hzero, ← utf8Bytes_ofList_eq,
    fromUtf8_utf8Bytes]
  rfl

/-! ## Records and captures -/

theorem nameDecodes_of_decodeAggregateRecord {record : List UInt8} {index : ℕ}
    {group : CuptiAggregateGroup} (h : decodeAggregateRecord record index = .ok group) :
    NameDecodes (sliceAt record 72 nameLength) := by
  rw [decodeAggregateRecord] at h
  obtain ⟨_, -, h⟩ := of_bind h
  obtain ⟨_, -, h⟩ := of_bind h
  obtain ⟨_, -, h⟩ := of_bind h
  obtain ⟨name, hname, -⟩ := of_bind h
  exact Option.isSome_iff_exists.mpr ⟨name, okOr_eq_ok_iff.mp hname⟩

/-- Every record of an accepted capture has a name that can be decoded. -/
theorem nameDecodes_of_decodeCapture {bytes : List UInt8} {sessionId : String}
    {capture : CuptiCapture} (h : decodeCapture bytes sessionId = .ok capture)
    {record : List UInt8} (hrecord : record ∈ chunksExact recordSize (bytes.drop headerSize)) :
    NameDecodes (sliceAt record 72 nameLength) := by
  have hpayload := (decodedFrom_of_decodeCapture h).payload
  cases hmode : hasFeature (readU32 bytes 20) featureAggregateRecords with
  | true =>
    obtain ⟨-, hgroups⟩ := decodePayload_aggregate hmode hpayload
    obtain ⟨group, -, index, hdecode⟩ :=
      exists_right_of_forall₂ (forall₂_of_decodeRecords hgroups) hrecord
    exact nameDecodes_of_decodeAggregateRecord hdecode
  | false =>
    obtain ⟨-, decoded, hrecords, -⟩ := decodePayload_exact hmode hpayload
    obtain ⟨event, -, index, hdecode⟩ :=
      exists_right_of_forall₂ (forall₂_of_decodeRecords hrecords) hrecord
    obtain ⟨_, -, -, -, hname⟩ := decodeRecord_eq_ok hdecode
    exact hname

/-- The field written for a name passes the UTF-8 check exactly when the name is that of an NVTX
    range, or the first 127 bytes of it do not end within a character; and only then is a capture
    with such a record accepted. -/
theorem nameDecodes_field_iff (origin : NameOrigin) (text : String)
    (destination rest : List UInt8) (hzero : 0 ∉ utf8Bytes text) :
    (NameDecodes (origin.field destination (utf8Bytes text ++ 0 :: rest)) ↔
        origin = .nvtx ∨ EndsWithChar text 127) ∧
      ∀ bytes sessionId capture, decodeCapture bytes sessionId = .ok capture →
        ∀ record ∈ chunksExact recordSize (bytes.drop headerSize),
          sliceAt record 72 nameLength = origin.field destination (utf8Bytes text ++ 0 :: rest) →
          origin = .nvtx ∨ EndsWithChar text 127 := by
  have hiff : NameDecodes (origin.field destination (utf8Bytes text ++ 0 :: rest)) ↔
      origin = .nvtx ∨ EndsWithChar text 127 := by
    cases origin with
    | kernel => simpa [NameOrigin.field] using nameDecodes_copyName_iff rest hzero
    | api => simpa [NameOrigin.field] using nameDecodes_copyName_iff rest hzero
    | nvtx => simpa [NameOrigin.field] using nameDecodes_copyNvtxName destination rest hzero
  refine ⟨hiff, ?_⟩
  intro bytes sessionId capture hdecode record hrecord hfield
  rw [← hiff, ← hfield]
  exact nameDecodes_of_decodeCapture hdecode hrecord

theorem nameDecodes_field_sum : 0 ∉ utf8Bytes "sum" ∧
      NameDecodes (NameOrigin.kernel.field [] (utf8Bytes "sum" ++ 0 :: [])) := by
  refine ⟨by decide, ?_⟩
  exact (nameDecodes_field_iff .kernel "sum" [] [] (by decide)).1.mpr (.inr ⟨3, by decide⟩)

/-! ## A kernel whose name is cut -/

theorem not_endsWithChar_accented : ¬EndsWithChar (accented 126) 127 := by
  rintro ⟨count, h⟩
  have hlength := congrArg List.length h
  rw [utf8Bytes_accented, List.length_take, List.length_append, List.length_replicate] at hlength
  have hencoded : ∀ n, (encodeChars (List.replicate n 'a')).length = n := by
    intro n
    rw [encodeChars, List.flatMap_replicate, List.length_flatten, List.map_replicate,
      List.sum_replicate]
    exact Nat.mul_one n
  rw [accented, String.toList_ofList, List.take_append, encodeChars_append, List.length_append,
    List.take_replicate, hencoded, List.length_replicate] at hlength
  -- the letters alone are too short, and with the last character there is one byte too many
  by_cases hcount : count ≤ 126
  · rw [Nat.sub_eq_zero_of_le hcount] at hlength
    simp only [List.take_zero, encodeChars_nil, List.length_nil, List.length_cons] at hlength
    omega
  · rw [List.take_of_length_le (by simp only [List.length_cons, List.length_nil]; omega)] at hlength
    have haccent : (encodeChars ['é']).length = 2 := by decide
    rw [haccent] at hlength
    simp only [List.length_cons, List.length_nil] at hlength
    omega

/-- A kernel with a long name that is not ASCII. -/
def accentedKernel : KernelActivity :=
  { deviceId := 0
    contextId := 0
    streamId := 0
    correlationId := 0
    gridX := 1
    gridY := 1
    gridZ := 1
    blockX := 1
    blockY := 1
    blockZ := 1
    name := utf8Bytes (accented 126) ++ [0]
    start := 1
    finish := 2 }

/-- The start record of that kernel. -/
def accentedRecord : Record :=
  kernelRecord { pid := 7, activityTimestampOffsetNs := 0 } 7 accentedKernel .gpuKernelStart 1

theorem name_accentedRecord : accentedRecord.name = copyName (utf8Bytes (accented 126) ++ [0]) := by
  rw [accentedRecord, kernelRecord, accentedKernel]

theorem not_nameDecodes_accented : ¬NameDecodes (copyName (utf8Bytes (accented 126) ++ [0])) := by
  rw [nameDecodes_copyName_iff [] (zero_not_mem_accented 126)]
  exact not_endsWithChar_accented

theorem decodeRecord_accentedRecord (sessionId : String) (flags : UInt32) :
    decodeRecord accentedRecord.encode 0 sessionId flags = .error (.invalidName 0) := by
  have hlayout := accentedRecord.layout_encode
  have hname : fromUtf8 (cString (sliceAt accentedRecord.encode 72 nameLength)) = none := by
    rw [hlayout.name, name_accentedRecord]
    exact Option.not_isSome_iff_eq_none.mp not_nameDecodes_accented
  have hkind : readU32 accentedRecord.encode 8 = 3 := hlayout.kind
  have htime : readU64 accentedRecord.encode 0 = 1 := by
    rw [hlayout.timestampNs]
    decide
  rw [decodeRecord]
  simp only [hkind, htime, decodeName, hname]
  rfl

theorem decodeCapture_of_payload_error {bytes : List UInt8} {sessionId : String}
    {failure : CuptiDecodeError} (h : checkHeader bytes = .ok ())
    (hpayload : decodePayload bytes (readU64 bytes 80) sessionId (readU32 bytes 20) =
      .error failure) :
    decodeCapture bytes sessionId = .error failure := by
  obtain ⟨⟨state, reason, hchecked⟩, -⟩ := checkHeader_eq_ok_iff.mp h
  rw [hchecked.decodeCapture_eq, hpayload]
  rfl

/-- A capture of one record, the start of the kernel with the long name. -/
def accentedCapture : Slice UInt8 :=
  { toList := encodeCapture (stoppedHeader 1 0) [accentedRecord]
    length_le := by
      rw [length_encodeCapture]
      decide }

/-- The name of the kernel is a text, and the capture with its record is refused for that name. -/
theorem decodeCapture_refuses_accented :
    (∃ text, accentedKernel.name = utf8Bytes text ++ [0] ∧ 0 ∉ utf8Bytes text) ∧
      accentedRecord.name = NameOrigin.kernel.field [] accentedKernel.name ∧
      ¬NameDecodes accentedRecord.name ∧
      decodeCapture accentedCapture.toList "s" = .error (.invalidName 0) := by
  refine ⟨⟨accented 126, rfl, zero_not_mem_accented 126⟩, name_accentedRecord, ?_, ?_⟩
  · rw [name_accentedRecord]
    exact not_nameDecodes_accented
  · have hlayout : HeaderLayout accentedCapture.toList (stoppedHeader 1 0) :=
      (stoppedHeader 1 0).layout_encode _
    have hcheck : checkHeader accentedCapture.toList = .ok () :=
      @checkHeader_of_layout .stopped _ .requested _
        ⟨rfl, rfl, rfl, by decide, by decide, by decide, by decide⟩ hlayout (length_encodeCapture _ _)
    refine decodeCapture_of_payload_error hcheck ?_
    have hexact : hasFeature (readU32 accentedCapture.toList 20) featureAggregateRecords = false := by
      rw [hlayout.featureFlags]
      rfl
    have hpieces : chunksExact recordSize (accentedCapture.toList.drop headerSize) =
        [accentedRecord.encode] := chunksExact_encodeCapture _ _
    rw [decodePayload, hpieces, if_neg (by rw [hexact]; exact Bool.false_ne_true)]
    simp only [decodeRecords, decodeRecord_accentedRecord]
    rfl

end Xprobe.Cupti
