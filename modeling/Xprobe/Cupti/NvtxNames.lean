import Xprobe.Foundation.Utf8
import Xprobe.Cupti.NvtxRanges

/-!
# Copying NVTX names

`copy_nvtx_name` in `cupti/src/cupti_agent.c` copies a name into a field of 128 bytes and removes
what it has copied of a character that does not fit.

Here the function runs over the memory of its two arrays, byte by byte, and has no result when it
reads or writes outside of them. It never does, and what it leaves in the field is the longest
prefix of whole characters.
-/

namespace Xprobe.Cupti

open Foundation

/-! ## The source -/

def writeByte (bytes : List UInt8) (index : ℕ) (byte : UInt8) : Option (List UInt8) :=
  if index < bytes.length then some (bytes.set index byte) else none

/-- The loop that copies the name. It returns the field and the final index. -/
def copyLoop (destination source : List UInt8) (index : ℕ) : Option (List UInt8 × ℕ) :=
  if index + 1 < nameLength then do
    let byte ← source[index]?
    if byte ≠ 0 then do
      let written ← writeByte destination index byte
      copyLoop written source (index + 1)
    else some (destination, index)
  else some (destination, index)
termination_by nameLength - index

/-- The loop that goes back over continuation bytes. -/
def leadLoop (destination : List UInt8) : ℕ → Option ℕ
  | 0 => some 0
  | lead + 1 => do
    let byte ← destination[lead]?
    if isContinuation byte then leadLoop destination lead else some (lead + 1)

/-- The index at which a name that is not complete ends. -/
def trimIndex (destination : List UInt8) (index : ℕ) : Option ℕ := do
  let lead ← leadLoop destination index
  if 0 < lead then do
    let first ← destination[lead - 1]?
    if sequenceLength first > index - (lead - 1) then some (lead - 1) else some index
  else some index

/-- `copy_nvtx_name` on the memory of its arguments: the flag it returns, and the field it leaves.
    Nothing is returned when it reads or writes outside of an array. -/
def copyNvtxNameIn (destination : List UInt8) : Option (List UInt8) → Option (UInt32 × List UInt8)
  | none => do
    let field ← writeByte destination 0 0
    return (1, field)
  | some source => do
    let (destination, index) ← copyLoop destination source 0
    let next ← source[index]?
    let complete : UInt32 := if next = 0 then 1 else 0
    let index ← if complete = 0 ∧ 0 < index then trimIndex destination index else some index
    let field ← writeByte destination index 0
    return (complete, field)

/-! ## The loops -/

theorem writeByte_append (front back : List UInt8) (old byte : UInt8) :
    writeByte (front ++ old :: back) front.length byte = some (front ++ byte :: back) := by
  rw [writeByte, if_pos (by simp), List.set_append_right _ _ le_rfl, Nat.sub_self,
    List.set_cons_zero]

variable {destination : List UInt8}

/-- The loop copies the rest of the name, as far as the field goes. What it has copied is the name
    before the index, and the rest of the field is still as it was. -/
theorem copyLoop_eq {name : List UInt8} (rest : List UInt8) (hzero : 0 ∉ name)
    (hlength : destination.length = nameLength) {index : ℕ}
    (hindex : index ≤ (name.take (nameLength - 1)).length) :
    copyLoop (name.take index ++ destination.drop index) (name ++ 0 :: rest) index =
      some (name.take (nameLength - 1) ++ destination.drop (name.take (nameLength - 1)).length,
        (name.take (nameLength - 1)).length) := by
  have hpositive : 0 < nameLength := by decide
  have hkept : (name.take (nameLength - 1)).length = min (nameLength - 1) name.length :=
    List.length_take
  rw [copyLoop]
  by_cases hlast : index = (name.take (nameLength - 1)).length
  · -- the field is full, or the terminator is next
    have htake : name.take index = name.take (nameLength - 1) := by
      rw [hlast, hkept, List.take_eq_take_iff]
      omega
    rw [htake, ← hlast]
    split_ifs with hroom
    · have hname : index = name.length := by omega
      rw [hname, List.getElem?_append_right le_rfl]
      simp
    · rfl
  · have hname : index < name.length := by omega
    have hroom : index + 1 < nameLength := by omega
    -- the byte belongs to the name, so the loop goes on
    have hbyte : name[index] ≠ 0 := fun h => hzero (h ▸ List.getElem_mem hname)
    have hfield : destination.drop index = destination[index] :: destination.drop (index + 1) :=
      List.drop_eq_getElem_cons (by omega)
    have hfront : (name.take index).length = index := List.length_take_of_le hname.le
    have hwrite := writeByte_append (name.take index) (destination.drop (index + 1))
      destination[index] name[index]
    rw [hfront] at hwrite
    have hnext := copyLoop_eq rest hzero hlength
      (show index + 1 ≤ (name.take (nameLength - 1)).length by omega)
    rw [List.take_succ_eq_append_getElem hname, List.append_assoc] at hnext
    rw [if_pos hroom, List.getElem?_append_left hname, List.getElem?_eq_getElem hname, hfield]
    simp only [some_bind, if_pos hbyte, hwrite]
    exact hnext
termination_by nameLength - index

/-- The loop stops after the last byte that does not continue a character. -/
theorem leadLoop_eq {index : ℕ} (h : index ≤ destination.length) : leadLoop destination index =
      some ((destination.take index).rdropWhile isContinuation).length := by
  induction index with
  | zero => rfl
  | succ index ih =>
    have hindex : index < destination.length := h
    rw [leadLoop, List.getElem?_eq_getElem hindex, List.take_succ_eq_append_getElem hindex]
    simp only [some_bind]
    split_ifs with hbyte
    · rw [ih hindex.le, List.rdropWhile_concat_pos _ _ _ hbyte]
    · rw [List.rdropWhile_concat_neg _ _ _ hbyte, List.length_append,
        List.length_take_of_le hindex.le]
      rfl

/-- The index at which an incomplete name ends, in terms of the bytes before. -/
theorem trimIndex_eq {copied : List UInt8} (h : copied <+: destination) :
    trimIndex destination copied.length = some (cutIndex copied) := by
  have htake : destination.take copied.length = copied := (List.prefix_iff_eq_take.mp h).symm
  rw [trimIndex, leadLoop_eq h.length_le, htake, cutIndex]
  simp only [some_bind]
  rcases List.eq_nil_or_concat' (copied.rdropWhile isContinuation) with hfront | ⟨front, first, hfront⟩
  · simp [hfront]
  · have hget : destination[front.length]? = some first := by
      obtain ⟨back, rfl⟩ := (hfront ▸ List.rdropWhile_prefix isContinuation copied).trans h
      simp
    rw [hfront, List.length_append, List.length_singleton, if_pos (Nat.succ_pos _),
      Nat.add_sub_cancel, hget, List.getLast?_concat]
    simp only [some_bind]
    split_ifs <;> rfl

/-- The terminator at an index of a field. -/
theorem writeByte_zero {field : List UInt8} {index : ℕ} (h : index < field.length) :
    writeByte field index 0 = some (writeText field (field.take index)) := by
  have hfield : field = field.take index ++ field[index] :: field.drop (index + 1) := by
    rw [← List.drop_eq_getElem_cons h, List.take_append_drop]
  have hfront : (field.take index).length = index := List.length_take_of_le h.le
  have hwrite := writeByte_append (field.take index) (field.drop (index + 1)) field[index] 0
  rw [← hfield, hfront] at hwrite
  rw [hwrite, writeText, hfront]

theorem cutIndex_le (copied : List UInt8) : cutIndex copied ≤ copied.length := by
  have hfront : (copied.rdropWhile isContinuation).length ≤ copied.length :=
    (List.rdropWhile_prefix isContinuation copied).length_le
  simp only [cutIndex]
  split
  · exact le_rfl
  · split_ifs <;> omega

theorem copyNvtxName_of_kept {source : Option (List UInt8)} {text : List UInt8} {complete : Bool}
    (h : keptNvtxName source = (text, complete)) :
    copyNvtxName destination source = (if complete then 1 else 0,
      writeText ((source.map keptName).getD [] ++
        destination.drop ((source.map keptName).getD []).length) text) := by
  rw [copyNvtxName, h]

/-- The function stays inside its arrays, and does what the functions on whole lists say. -/
theorem copyNvtxNameIn_eq {name : List UInt8} (rest : List UInt8) (hzero : 0 ∉ name)
    (hlength : destination.length = nameLength) :
    copyNvtxNameIn destination (some (name ++ 0 :: rest)) =
      some (copyNvtxName destination (some (name ++ 0 :: rest))) := by
  have hkept : keptName (name ++ 0 :: rest) = name.take (nameLength - 1) := by
    rw [keptName, cString_append_nul hzero]
  have hshort := length_keptName_lt (name ++ 0 :: rest)
  have hloop := copyLoop_eq rest hzero hlength (Nat.zero_le (name.take (nameLength - 1)).length)
  rw [List.take_zero, List.drop_zero, List.nil_append, ← hkept] at hloop
  -- `field` is the destination after the loop, before the terminator is written
  set source := name ++ 0 :: rest
  set copied := keptName source
  set field := copied ++ destination.drop copied.length with hfield
  have hfieldLength : field.length = nameLength := by
    rw [hfield, List.length_append, List.length_drop, hlength]
    omega
  obtain ⟨next, hnext⟩ : ∃ next, source[copied.length]? = some next := by
    have hle : copied.length ≤ name.length := by
      rw [hkept]
      exact List.length_take_le' _ _
    have hlt : copied.length < source.length := by
      simp only [source, List.length_append, List.length_cons]
      omega
    exact ⟨_, List.getElem?_eq_getElem hlt⟩
  have htake : ∀ {index : ℕ}, index ≤ copied.length → field.take index = copied.take index := by
    intro index hindex
    rw [hfield, List.take_append_of_le_length hindex]
  have hcut := cutIndex_le copied
  rw [copyNvtxNameIn, hloop]
  simp only [some_bind, hnext]
  -- the byte after the copy tells whether the name is complete
  by_cases hcomplete : next = 0
  · have hall : keptNvtxName (some source) = (copied, true) :=
      if_pos (hnext.trans (congrArg some hcomplete))
    rw [copyNvtxName_of_kept hall, if_pos hcomplete, if_neg (by simp), writeByte_zero (by omega),
      htake le_rfl, List.take_length]
    rfl
  · have hpart : keptNvtxName (some source) = (copied.take (cutIndex copied), false) :=
      if_neg (fun h => hcomplete (Option.some.inj (hnext.symm.trans h)))
    rw [copyNvtxName_of_kept hpart, if_neg hcomplete]
    -- the source cuts an incomplete character off only if something was copied
    by_cases hpositive : 0 < copied.length
    · rw [if_pos ⟨rfl, hpositive⟩, trimIndex_eq (List.prefix_append copied _)]
      simp only [some_bind]
      rw [writeByte_zero (by omega), htake hcut]
      rfl
    · -- an empty copy ends where it started
      have hempty : cutIndex copied = copied.length := by omega
      rw [if_neg (fun h => hpositive h.2), writeByte_zero (by omega), htake le_rfl, hempty]
      rfl

/-! ## The longest prefix -/

set_option maxRecDepth 20000 in
/-- What the masks of the source say about each byte. -/
private theorem masks_of_fin : ∀ n : Fin 256,
    (isContinuation (UInt8.ofFin n) = true ↔ 0x80 ≤ n.val ∧ n.val < 0xc0) ∧
      (n.val < 0x80 → sequenceLength (UInt8.ofFin n) = 1) ∧
      (0xc0 ≤ n.val ∧ n.val < 0xe0 → sequenceLength (UInt8.ofFin n) = 2) ∧
      (0xe0 ≤ n.val ∧ n.val < 0xf0 → sequenceLength (UInt8.ofFin n) = 3) ∧
      (0xf0 ≤ n.val ∧ n.val < 0xf8 → sequenceLength (UInt8.ofFin n) = 4) := by
  decide

theorem isContinuation_iff (byte : UInt8) : isContinuation byte = true ↔ IsTail byte :=
  (masks_of_fin byte.toFin).1

theorem sequenceLength_of_isLead {byte : UInt8} {length : ℕ} (h : IsLead byte length) :
    sequenceLength byte = length := by
  obtain ⟨-, hone, htwo, hthree, hfour⟩ := masks_of_fin byte.toFin
  rcases h with ⟨rfl, h⟩ | ⟨rfl, h⟩ | ⟨rfl, h⟩ | ⟨rfl, h⟩
  · exact hone h
  · exact htwo h
  · exact hthree h
  · exact hfour h

/-- Going back over continuation bytes ends at the first byte of the last character. -/
theorem rdropWhile_tail {front tail : List UInt8} {lead : UInt8} {length : ℕ}
    (hlead : IsLead lead length) (htail : ∀ byte ∈ tail, IsTail byte) :
    (front ++ lead :: tail).rdropWhile isContinuation = front ++ [lead] := by
  induction tail using List.reverseRecOn with
  | nil =>
    refine List.rdropWhile_concat_neg _ _ _ ?_
    rw [isContinuation_iff]
    exact hlead.not_isTail
  | append_singleton tail byte ih =>
    have hbyte : isContinuation byte = true := (isContinuation_iff byte).mpr (htail byte (by simp))
    rw [← List.cons_append, ← List.append_assoc, List.rdropWhile_concat_pos _ _ _ hbyte]
    exact ih fun other hother => htail other (List.mem_append_left _ hother)

/-- A copy that ends with a part of a character is cut before that character, and no other copy is
    cut. -/
theorem cutIndex_tail {front tail : List UInt8} {lead : UInt8} {length : ℕ}
    (hlead : IsLead lead length) (htail : ∀ byte ∈ tail, IsTail byte) :
    cutIndex (front ++ lead :: tail) =
      if length > tail.length + 1 then front.length else front.length + (tail.length + 1) := by
  simp only [cutIndex, rdropWhile_tail hlead htail, List.getLast?_concat, List.length_append,
    List.length_cons, List.length_nil, Nat.zero_add, Nat.add_sub_cancel, Nat.add_sub_cancel_left,
    sequenceLength_of_isLead hlead]

/-- A copy of whole characters is not cut. -/
theorem cutIndex_encodeChars (chars : List Char) :
    cutIndex (encodeChars chars) = (encodeChars chars).length := by
  rcases List.eq_nil_or_concat' chars with rfl | ⟨front, last, rfl⟩
  · rfl
  · obtain ⟨lead, tail, hbytes, hlead, htail⟩ := utf8EncodeChar_shape last
    rw [encodeChars_append, encodeChars_cons, encodeChars_nil, List.append_nil, hbytes,
      cutIndex_tail hlead htail, if_neg (lt_irrefl _), List.length_append, List.length_cons]

/-- A copy that ends within a character is cut to the whole characters. -/
theorem cutIndex_encodeChars_take (front : List Char) (next : Char) {count : ℕ}
    (hcount : count < (String.utf8EncodeChar next).length) :
    cutIndex (encodeChars front ++ (String.utf8EncodeChar next).take count) =
      (encodeChars front).length := by
  cases count with
  | zero => rw [List.take_zero, List.append_nil, cutIndex_encodeChars]
  | succ count =>
    obtain ⟨lead, tail, hbytes, hlead, htail⟩ := utf8EncodeChar_shape next
    rw [hbytes, List.length_cons] at hcount
    have hlength : (tail.take count).length = count := List.length_take_of_le (by omega)
    have hpart : ∀ byte ∈ tail.take count, IsTail byte :=
      fun byte hbyte => htail byte (List.mem_of_mem_take hbyte)
    rw [hbytes, List.take_succ_cons, cutIndex_tail hlead hpart, hlength, if_pos (by omega)]

/-- `copy_nvtx_name` keeps the longest prefix of whole characters. -/
theorem keptNvtxName_text (text : String) (rest : List UInt8) (hzero : 0 ∉ utf8Bytes text) :
    keptNvtxName (some (utf8Bytes text ++ 0 :: rest)) =
      (encodeChars (fittingChars (nameLength - 1) text.toList),
        decide (fittingChars (nameLength - 1) text.toList = text.toList)) := by
  have hfits := length_encodeChars_fittingChars_le (nameLength - 1) text.toList
  rcases fittingChars_cases (nameLength - 1) text.toList with hall | ⟨next, after, hsplit, hover⟩
  · rw [hall, ← utf8Bytes_eq] at hfits
    rw [hall, decide_eq_true rfl, ← utf8Bytes_eq]
    exact keptNvtxName_of_short hzero (Nat.lt_of_le_pred (by decide) hfits) rest
  · set front := fittingChars (nameLength - 1) text.toList
    have hkept : keptName (utf8Bytes text ++ 0 :: rest) = encodeChars front ++
        (String.utf8EncodeChar next).take (nameLength - 1 - (encodeChars front).length) := by
      rw [keptName, cString_append_nul hzero, utf8Bytes_eq, hsplit, take_encodeChars hfits hover]
    have hpart : nameLength - 1 - (encodeChars front).length <
        (String.utf8EncodeChar next).length := by omega
    have hlong : nameLength - 1 < (utf8Bytes text).length := by
      rw [utf8Bytes_eq, hsplit, encodeChars_append, encodeChars_cons, List.length_append,
        List.length_append]
      omega
    have hlength : (keptName (utf8Bytes text ++ 0 :: rest)).length = nameLength - 1 := by
      rw [keptName, cString_append_nul hzero, List.length_take_of_le hlong.le]
    -- the name goes on behind the copy
    have hnext : (utf8Bytes text ++ 0 :: rest)[nameLength - 1]? ≠ some 0 := by
      rw [List.getElem?_append_left hlong, List.getElem?_eq_getElem hlong]
      intro h
      exact hzero (Option.some.inj h ▸ List.getElem_mem hlong)
    have hfalse : decide (front = text.toList) = false := by
      refine decide_eq_false fun heq => ?_
      have hlengths := congrArg List.length (heq.trans hsplit)
      rw [List.length_append, List.length_cons] at hlengths
      omega
    rw [keptNvtxName, hlength, if_neg hnext, hfalse, hkept, cutIndex_encodeChars_take _ _ hpart,
      List.take_left]

/-- For every text, `copy_nvtx_name` reads nothing behind the terminator and writes nothing behind
    the field. It writes the longest prefix of whole characters of at most 127 bytes with a
    terminator, and returns 1 exactly when that is the whole text. -/
theorem copyNvtxNameIn_longest (text : String) (destination : List UInt8)
    (hzero : 0 ∉ utf8Bytes text) (hlength : destination.length = nameLength) :
    ∃ complete field kept count,
      copyNvtxNameIn destination (some (utf8Bytes text ++ [0])) = some (complete, field) ∧
      field.length = nameLength ∧
      kept = String.ofList (text.toList.take count) ∧
      (∃ rest, field = utf8Bytes kept ++ 0 :: rest) ∧
      (utf8Bytes kept).length ≤ 127 ∧
      (∀ other, (utf8Bytes (String.ofList (text.toList.take other))).length ≤ 127 →
        (utf8Bytes (String.ofList (text.toList.take other))).length ≤ (utf8Bytes kept).length) ∧
      (complete = 1 ↔ kept = text) ∧ (complete = 0 ∨ complete = 1) := by
  have hcopy := copyNvtxNameIn_eq [] hzero hlength
  rw [copyNvtxName_of_kept (keptNvtxName_text text [] hzero)] at hcopy
  set front := fittingChars (nameLength - 1) text.toList with hfront
  have htake : String.ofList (text.toList.take front.length) = String.ofList front := by
    rw [← List.prefix_iff_eq_take.mp (isPrefix_fittingChars _ _)]
  have hfield := length_copyNvtxName hlength (some (utf8Bytes text ++ [0]))
  rw [copyNvtxName_of_kept (keptNvtxName_text text [] hzero)] at hfield
  refine ⟨_, _, String.ofList front, front.length, hcopy, hfield, htake.symm, ?_, ?_, ?_, ?_, ?_⟩
  · rw [utf8Bytes_ofList_eq]
    exact ⟨_, rfl⟩
  · rw [utf8Bytes_ofList_eq]
    exact length_encodeChars_fittingChars_le (nameLength - 1) text.toList
  · intro other hother
    rw [utf8Bytes_ofList_eq] at hother ⊢
    have hlongest : text.toList.take other <+: front :=
      fittingChars_longest (List.take_prefix _ _) hother
    obtain ⟨after, hafter⟩ := hlongest
    rw [utf8Bytes_ofList_eq, ← hafter, encodeChars_append, List.length_append]
    exact Nat.le_add_right _ _
  · by_cases hall : front = text.toList
    · simp [hall]
    · have hne : String.ofList front ≠ text := by
        intro h
        exact hall (by rw [← h, String.toList_ofList])
      simp [hall, hne]
  · by_cases hall : front = text.toList
    · exact .inr (by simp [hall])
    · exact .inl (by simp [hall])

/-- Letters, and a last character of two bytes. -/
def accented (letters : ℕ) : String := String.ofList (List.replicate letters 'a' ++ ['é'])

theorem utf8Bytes_accented (letters : ℕ) :
    utf8Bytes (accented letters) = List.replicate letters 97 ++ [0xc3, 0xa9] := by
  have hletter : String.utf8EncodeChar 'a' = [97] := by decide
  have haccent : encodeChars ['é'] = [0xc3, 0xa9] := by decide
  have hletters : encodeChars (List.replicate letters 'a') = List.replicate letters 97 := by
    rw [encodeChars, List.flatMap_replicate, hletter, List.flatten_replicate_singleton]
  rw [accented, utf8Bytes_ofList_eq, encodeChars_append, hletters, haccent]

theorem zero_not_mem_accented (letters : ℕ) : 0 ∉ utf8Bytes (accented letters) := by
  rw [utf8Bytes_accented]
  intro h
  rcases List.mem_append.mp h with h | h
  · exact absurd (List.eq_of_mem_replicate h) (by decide)
  · exact absurd h (by decide)

theorem copyNvtxNameIn_longest_accented : 0 ∉ utf8Bytes (accented 126) ∧
      ∃ complete field kept count,
        copyNvtxNameIn (List.replicate nameLength 0) (some (utf8Bytes (accented 126) ++ [0])) =
          some (complete, field) ∧
        kept = String.ofList ((accented 126).toList.take count) ∧
        (complete = 1 ↔ kept = accented 126) := by
  obtain ⟨complete, field, kept, count, hcopy, -, hkept, -, -, -, hcomplete, -⟩ :=
    copyNvtxNameIn_longest (accented 126) (List.replicate nameLength 0) (zero_not_mem_accented 126)
      List.length_replicate
  exact ⟨zero_not_mem_accented 126, complete, field, kept, count, hcopy, hkept, hcomplete⟩

end Xprobe.Cupti
