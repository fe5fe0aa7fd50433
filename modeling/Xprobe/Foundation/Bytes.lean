import Mathlib

/-!
# Bytes

Little-endian words, fields at fixed offsets, fixed-size chunks and C strings, over lists of bytes.

A structure laid out in memory is the concatenation of its fields. The laws `readU32_append` and
`readU64_append` step over a field, and `readU32_leU32` and `readU64_leU64` read the one at hand, so
`simp` can read any field of a concrete layout. A buffer that is filled by copying into it is handled
zone by zone with the `writeAt` laws.
-/

namespace Xprobe.Foundation

/-! ## Little-endian numbers -/

/-- The `width` low bytes of a number, least significant first. -/
def leBytes : Nat → Nat → List UInt8
  | 0, _ => []
  | width + 1, n => UInt8.ofNat (n % 256) :: leBytes width (n / 256)

/-- The number with the given bytes, least significant first. -/
def ofLeBytes : List UInt8 → Nat
  | [] => 0
  | b :: rest => b.toNat + 256 * ofLeBytes rest

@[simp] theorem length_leBytes (width n : Nat) : (leBytes width n).length = width := by
  induction width generalizing n with
  | zero => rfl
  | succ width ih => rw [leBytes, List.length_cons, ih]

theorem ofLeBytes_leBytes (width n : Nat) : ofLeBytes (leBytes width n) = n % 256 ^ width := by
  induction width generalizing n with
  | zero => rw [leBytes, ofLeBytes, pow_zero, Nat.mod_one]
  | succ width ih =>
    have hbyte : (UInt8.ofNat (n % 256)).toNat = n % 256 :=
      UInt8.toNat_ofNat_of_lt' (Nat.mod_lt n (by decide))
    rw [leBytes, ofLeBytes, ih, hbyte, pow_succ', Nat.mod_mul]

/-- `u32::to_le_bytes`. -/
def leU32 (x : UInt32) : List UInt8 := leBytes 4 x.toNat

/-- `u64::to_le_bytes`. -/
def leU64 (x : UInt64) : List UInt8 := leBytes 8 x.toNat

@[simp] theorem length_leU32 (x : UInt32) : (leU32 x).length = 4 := length_leBytes 4 _

@[simp] theorem length_leU64 (x : UInt64) : (leU64 x).length = 8 := length_leBytes 8 _

/-! ## Fields -/

/-- `bytes[offset..offset + length]`. -/
def sliceAt (bytes : List UInt8) (offset length : Nat) : List UInt8 :=
  (bytes.drop offset).take length

/-- `read_u32`. -/
def readU32 (bytes : List UInt8) (offset : Nat) : UInt32 :=
  UInt32.ofNat (ofLeBytes (sliceAt bytes offset 4))

/-- `read_u64`. -/
def readU64 (bytes : List UInt8) (offset : Nat) : UInt64 :=
  UInt64.ofNat (ofLeBytes (sliceAt bytes offset 8))

variable {rest front : List UInt8}

variable {offset : Nat}

theorem sliceAt_append_right (length : Nat) (h : front.length ≤ offset) :
    sliceAt (front ++ rest) offset length = sliceAt rest (offset - front.length) length := by
  rw [sliceAt, sliceAt, List.drop_append, List.drop_eq_nil_of_le h, List.nil_append]

theorem sliceAt_append_left (front rest : List UInt8) :
    sliceAt (front ++ rest) 0 front.length = front := by
  rw [sliceAt, List.drop_zero, List.take_left]

theorem readU32_append (h : front.length ≤ offset) :
    readU32 (front ++ rest) offset = readU32 rest (offset - front.length) := by
  rw [readU32, sliceAt_append_right 4 h, readU32]

theorem readU64_append (h : front.length ≤ offset) :
    readU64 (front ++ rest) offset = readU64 rest (offset - front.length) := by
  rw [readU64, sliceAt_append_right 8 h, readU64]

private theorem ofNat_ofLeBytes_leU32 (x : UInt32) : UInt32.ofNat (ofLeBytes (leU32 x)) = x := by
  rw [leU32, ofLeBytes_leBytes, Nat.mod_eq_of_lt (by simpa using x.toNat_lt), UInt32.ofNat_toNat]

private theorem ofNat_ofLeBytes_leU64 (x : UInt64) : UInt64.ofNat (ofLeBytes (leU64 x)) = x := by
  rw [leU64, ofLeBytes_leBytes, Nat.mod_eq_of_lt (by simpa using x.toNat_lt), UInt64.ofNat_toNat]

@[simp] theorem readU32_leU32 (x : UInt32) (rest : List UInt8) :
    readU32 (leU32 x ++ rest) 0 = x := by
  have hslice := sliceAt_append_left (leU32 x) rest
  rw [length_leU32] at hslice
  rw [readU32, hslice, ofNat_ofLeBytes_leU32]

@[simp] theorem readU64_leU64 (x : UInt64) (rest : List UInt8) :
    readU64 (leU64 x ++ rest) 0 = x := by
  have hslice := sliceAt_append_left (leU64 x) rest
  rw [length_leU64] at hslice
  rw [readU64, hslice, ofNat_ofLeBytes_leU64]

/-! ## Buffers -/

/-- `bytes[offset..offset + data.len()].copy_from_slice(data)`. -/
def writeAt (bytes : List UInt8) (offset : Nat) (data : List UInt8) : List UInt8 :=
  bytes.take offset ++ (data ++ bytes.drop (offset + data.length))

variable {data : List UInt8}

theorem writeAt_append_right (h : front.length ≤ offset) :
    writeAt (front ++ rest) offset data = front ++ writeAt rest (offset - front.length) data := by
  have hdrop : offset - front.length + data.length = offset + data.length - front.length := by omega
  rw [writeAt, writeAt, List.take_append, List.take_of_length_le h, List.drop_append,
    List.drop_eq_nil_of_le (by omega), List.nil_append, List.append_assoc, hdrop]

/-- Copying into the start of a zone keeps the rest of the zone. -/
theorem writeAt_zone {zone : List UInt8} (h : data.length ≤ zone.length) :
    writeAt (zone ++ rest) 0 data = data ++ (zone.drop data.length ++ rest) := by
  rw [writeAt, List.take_zero, List.nil_append, Nat.zero_add, List.drop_append_of_le_length h]

/-- Copying over a whole zone. -/
theorem writeAt_whole {zone : List UInt8} (h : data.length = zone.length) :
    writeAt (zone ++ rest) 0 data = data ++ rest := by
  rw [writeAt_zone (le_of_eq h), h, List.drop_length, List.nil_append]

/-! ## Chunks -/

/-- `chunks_exact`: the consecutive chunks of one size, a shorter rest left out. -/
def chunksExact (size : Nat) (bytes : List UInt8) : List (List UInt8) :=
  (List.range (bytes.length / size)).map (fun i => sliceAt bytes (i * size) size)

theorem length_flatten_of_forall {size : Nat} {pieces : List (List UInt8)}
    (h : ∀ piece ∈ pieces, piece.length = size) : pieces.flatten.length = pieces.length * size := by
  rw [List.length_flatten, List.map_congr_left h, List.map_const', List.sum_replicate, smul_eq_mul]

/-- The chunks of a concatenation of equally long pieces are the pieces. -/
@[simp] theorem length_chunksExact (size : Nat) (bytes : List UInt8) :
    (chunksExact size bytes).length = bytes.length / size := by
  simp [chunksExact]

theorem chunksExact_flatten {size : Nat} (hsize : 0 < size) {pieces : List (List UInt8)}
    (h : ∀ piece ∈ pieces, piece.length = size) : chunksExact size pieces.flatten = pieces := by
  induction pieces with
  | nil => simp [chunksExact]
  | cons piece rest ih =>
    have hpiece : piece.length = size := h piece List.mem_cons_self
    have hrest := ih (fun p hp => h p (List.mem_cons_of_mem _ hp))
    have hcount : (piece ++ rest.flatten).length / size = rest.flatten.length / size + 1 := by
      rw [List.length_append, hpiece, Nat.add_comm, Nat.add_div_right _ hsize]
    rw [List.flatten_cons, chunksExact, hcount, List.range_succ_eq_map, List.map_cons, List.map_map]
    congr 1
    · have hhead := sliceAt_append_left piece rest.flatten
      rw [hpiece] at hhead
      rw [Nat.zero_mul, hhead]
    · -- chunk `i + 1` of the whole is chunk `i` of the rest
      refine Eq.trans ?_ hrest
      refine List.map_congr_left ?_
      intro i _
      have hle : piece.length ≤ (i + 1) * size := by
        rw [hpiece]
        exact Nat.le_mul_of_pos_left size (Nat.succ_pos i)
      simp only [Function.comp_apply, Nat.succ_eq_add_one]
      rw [sliceAt_append_right _ hle, hpiece, Nat.add_mul, Nat.one_mul, Nat.add_sub_cancel]

/-! ## C strings -/

/-- The bytes before the first NUL, or all of them. -/
def cString (bytes : List UInt8) : List UInt8 := bytes.takeWhile (· ≠ 0)

def utf8Bytes (text : String) : List UInt8 := text.toUTF8.data.toList

/-- `str::from_utf8`. -/
def fromUtf8 (bytes : List UInt8) : Option String := String.fromUTF8? ⟨bytes.toArray⟩

variable {bytes : List UInt8}

theorem cString_append_nul (h : 0 ∉ bytes) : cString (bytes ++ 0 :: rest) = bytes := by
  rw [cString, List.takeWhile_append_of_pos]
  · simp
  · intro b hb
    exact decide_eq_true (fun hzero => h (hzero ▸ hb))

/-- A text with a terminator is what stands before it, and the rest. -/
theorem exists_eq_cString_append {name : List UInt8} (h : 0 ∈ name) :
    ∃ rest, name = cString name ++ 0 :: rest := by
  induction name with
  | nil => cases h
  | cons byte rest ih =>
    by_cases hzero : byte = 0
    · exact ⟨rest, by simp [cString, hzero]⟩
    · obtain ⟨after, hafter⟩ := ih ((List.mem_cons.mp h).resolve_left (Ne.symm hzero))
      refine ⟨after, ?_⟩
      rw [cString, List.takeWhile_cons_of_pos (by simpa using hzero), List.cons_append]
      exact congrArg (byte :: ·) hafter

theorem zero_not_mem_cString (name : List UInt8) : 0 ∉ cString name := by
  intro h
  simpa using List.mem_takeWhile_imp h

@[simp] theorem fromUtf8_utf8Bytes (text : String) : fromUtf8 (utf8Bytes text) = some text := by
  have hbytes : (⟨(utf8Bytes text).toArray⟩ : ByteArray) = text.toUTF8 := by
    rw [utf8Bytes, Array.toArray_toList]
  rw [fromUtf8, hbytes]
  exact dif_pos text.isValidUTF8

/-- Decoded bytes are the bytes of the text. -/
theorem utf8Bytes_of_fromUtf8 {text : String} (h : fromUtf8 bytes = some text) :
    utf8Bytes text = bytes := by
  rw [fromUtf8, String.fromUTF8?] at h
  split_ifs at h
  cases h
  rfl

@[simp] theorem utf8Bytes_append (text text' : String) :
    utf8Bytes (text ++ text') = utf8Bytes text ++ utf8Bytes text' := by
  simp [utf8Bytes]

@[simp] theorem length_utf8Bytes (text : String) : (utf8Bytes text).length = text.utf8ByteSize :=
  rfl

theorem utf8Bytes_ofList (chars : List Char) :
    utf8Bytes (String.ofList chars) = chars.flatMap String.utf8EncodeChar := by
  simp [utf8Bytes, List.utf8Encode]

/-- Every string of ASCII bytes is the bytes of a text. -/
theorem exists_utf8Bytes_of_ascii (h : ∀ b ∈ bytes, b < 128) : ∃ text, utf8Bytes text = bytes := by
  refine ⟨String.ofList (bytes.map (fun b => Char.ofNat b.toNat)), ?_⟩
  rw [utf8Bytes_ofList]
  induction bytes with
  | nil => rfl
  | cons b rest ih =>
    have hb : b.toNat < 128 := h b List.mem_cons_self
    have hvalid : b.toNat.isValidChar := .inl (by omega)
    have hval : (Char.ofNat b.toNat).val.toNat = b.toNat := by
      have hchar : Char.ofNat b.toNat = Char.ofNatAux b.toNat hvalid := dif_pos hvalid
      rw [hchar]
      rfl
    have hencode : String.utf8EncodeChar (Char.ofNat b.toNat) = [b] := by
      rw [String.utf8EncodeChar, hval, if_pos (by omega), UInt8.ofNat_toNat]
    rw [List.map_cons, List.flatMap_cons, hencode, ih (fun c hc => h c (List.mem_cons_of_mem b hc))]
    rfl

end Xprobe.Foundation
