import Xprobe.Foundation.CheckedBytes
import Xprobe.Foundation.Word

/-!
# Notes of static probes

`xprobe/core/src/usdt.rs`: the notes of the section `.note.stapsdt`, each a header of three words,
an owner and a descriptor that are both padded to four bytes. The parser may panic where the source
indexes, adds without a check or expects; it reads with `get` everywhere else. Its loop is given as
many turns as there are bytes, and running out of turns would count as a panic.

`from_utf8` explains what it rejects, so the text of that error is a parameter.
-/

namespace Xprobe.Core

open Foundation

/-! ## The source -/

/-- `STAPSDT_OWNER`. -/
def stapsdtOwner : List UInt8 := utf8Bytes "stapsdt" ++ [0]

/-- `read_u32`. -/
def readNoteWord (data : List UInt8) (offset : ℕ) (littleEndian : Bool) :
    Panicking String UInt32 := do
  let stop ← okOr (addU64 offset 4) "note integer offset overflowed"
  let field ← okOr (sliceRange data offset stop) "note header exceeds section bounds"
  let bytes ← (if field.length = 4 then some field else none : Option (List UInt8))
  return UInt32.ofNat (ofLeBytes (if littleEndian then bytes else bytes.reverse))

/-- `align_four`: clearing the last two bits. -/
def alignFour (value : ℕ) : Except String ℕ := do
  let value ← okOr (addU64 value 3) "note alignment overflowed"
  return value / 4 * 4

/-- `take_c_string`. -/
def takeCString (utf8Error : List UInt8 → String) (data : List UInt8) (field : String) :
    Panicking String (String × List UInt8) := do
  let stop ← okOr (data.findIdx? (· == 0)) s!"descriptor {field} is not NUL terminated"
  let bytes ← sliceRange data 0 stop
  let value ← okOr (fromUtf8 bytes) s!"descriptor {field} is not UTF-8: {utf8Error bytes}"
  let rest ← sliceFrom data (stop + 1)
  return (value, rest)

def addressBytes (is64 : Bool) : ℕ := if is64 then 24 else 12

/-- `parse_stapsdt_descriptor`. -/
def parseStapsdtDescriptor (utf8Error : List UInt8 → String) (descriptor : List UInt8)
    (is64 : Bool) : Panicking String (String × String) := do
  let strings ← okOr (sliceFrom descriptor (addressBytes is64))
    "descriptor does not contain three addresses"
  let (provider, rest) ← takeCString utf8Error strings "provider"
  let (name, _) ← takeCString utf8Error rest "name"
  return (provider, name)

/-- One turn of the loop of `parse_stapsdt_notes`: the offset behind the note and the probes. -/
def parseNote (utf8Error : List UInt8 → String) (data : List UInt8) (littleEndian is64 : Bool)
    (offset : ℕ) (probes : Finset (String × String)) :
    Panicking String (ℕ × Finset (String × String)) := do
  let namesz ← readNoteWord data offset littleEndian
  let second ← addU64 offset 4
  let descsz ← readNoteWord data second littleEndian
  let offset ← okOr (addU64 offset 12) "note header offset overflowed"
  let nameEnd ← okOr (addU64 offset namesz.toNat) "note owner length overflowed"
  let owner ← okOr (sliceRange data offset nameEnd) "note owner exceeds section bounds"
  let offset ← alignFour nameEnd
  let descEnd ← okOr (addU64 offset descsz.toNat) "note descriptor length overflowed"
  let descriptor ← okOr (sliceRange data offset descEnd) "note descriptor exceeds section bounds"
  let offset ← alignFour descEnd
  if owner = stapsdtOwner then
    let probe ← parseStapsdtDescriptor utf8Error descriptor is64
    return (offset, insert probe probes)
  else return (offset, probes)

/-- The loop of `parse_stapsdt_notes`, with a number of turns. -/
def parseNotesFrom (utf8Error : List UInt8 → String) (data : List UInt8)
    (littleEndian is64 : Bool) : ℕ → ℕ → Finset (String × String) →
    Panicking String (Finset (String × String))
  | 0, offset, probes => if offset < data.length then liftM (none : Option _) else return probes
  | turns + 1, offset, probes =>
    if offset < data.length then do
      let (offset, probes) ← parseNote utf8Error data littleEndian is64 offset probes
      parseNotesFrom utf8Error data littleEndian is64 turns offset probes
    else return probes

/-- `parse_stapsdt_notes`. -/
def parseStapsdtNotes (utf8Error : List UInt8 → String) (data : List UInt8)
    (littleEndian is64 : Bool) : Panicking String (Finset (String × String)) :=
  parseNotesFrom utf8Error data littleEndian is64 data.length 0 ∅

/-! ## The parser ends -/

section Ends

variable {utf8Error : List UInt8 → String} {data : List UInt8} {littleEndian is64 : Bool}

theorem addU64_eq_some {a b c : ℕ} (h : addU64 a b = some c) : c = a + b := by
  rw [addU64, fitting] at h
  split_ifs at h
  exact (Option.some.inj h).symm

theorem sliceRange_eq_some {bytes field : List UInt8} {start stop : ℕ}
    (h : sliceRange bytes start stop = some field) :
    start ≤ stop ∧ stop ≤ bytes.length ∧ field.length = stop - start := by
  rw [sliceRange] at h
  split_ifs at h with hbounds
  cases h
  exact ⟨hbounds.1, hbounds.2, length_sliceAt (by omega)⟩

theorem readNoteWord_ends (data : List UInt8) (offset : ℕ) (littleEndian : Bool) :
    Ends (readNoteWord data offset littleEndian) (fun _ => offset + 4 ≤ data.length) := by
  refine Ends.okOr_bind fun stop hstop => Ends.okOr_bind fun field hfield => ?_
  cases addU64_eq_some hstop
  obtain ⟨-, hbounds, hlength⟩ := sliceRange_eq_some hfield
  rw [if_pos (by omega), liftM_some, returned_ok_bind]
  exact Ends.pure hbounds

theorem le_of_alignFour {value result : ℕ} (h : alignFour value = .ok result) : value ≤ result := by
  obtain ⟨sum, hsum, h⟩ := of_bind h
  cases h
  rw [addU64_eq_some (okOr_eq_ok_iff.mp hsum)]
  omega

theorem takeCString_ends (utf8Error : List UInt8 → String) (data : List UInt8) (field : String) :
    Ends (takeCString utf8Error data field) (fun _ => True) := by
  refine Ends.okOr_bind fun stop hstop => ?_
  have hinside : stop < data.length := (List.findIdx?_eq_some_iff_getElem.mp hstop).1
  rw [sliceRange_of_le (Nat.zero_le _) hinside.le, liftM_some, returned_ok_bind]
  refine Ends.okOr_bind fun value _ => ?_
  rw [sliceFrom_of_le hinside, liftM_some, returned_ok_bind]
  exact Ends.pure trivial

theorem parseStapsdtDescriptor_ends (utf8Error : List UInt8 → String) (descriptor : List UInt8)
    (is64 : Bool) : Ends (parseStapsdtDescriptor utf8Error descriptor is64) (fun _ => True) := by
  refine Ends.okOr_bind fun strings _ => ?_
  refine Ends.bind (takeCString_ends utf8Error strings "provider") fun provider _ => ?_
  refine Ends.bind (takeCString_ends utf8Error provider.2 "name") fun name _ => ?_
  exact Ends.pure trivial

/-- A turn moves the offset forward. -/
theorem parseNote_ends (utf8Error : List UInt8 → String) (hdata : data.length ≤ isizeMax)
    (littleEndian is64 : Bool) (offset : ℕ) (probes : Finset (String × String)) :
    Ends (parseNote utf8Error data littleEndian is64 offset probes)
      (fun next => offset < next.1) := by
  refine Ends.bind (readNoteWord_ends data offset littleEndian) fun namesz hfirst => ?_
  have hsecond : offset + 4 < 2 ^ 64 := by
    simp only [isizeMax] at hdata
    omega
  rw [addU64_of_lt hsecond, liftM_some, returned_ok_bind]
  refine Ends.bind (readNoteWord_ends data _ littleEndian) fun descsz _ => ?_
  refine Ends.okOr_bind fun body hbody => Ends.okOr_bind fun nameEnd hname =>
    Ends.okOr_bind fun owner _ => Ends.liftM_bind fun aligned haligned =>
    Ends.okOr_bind fun descEnd hdesc => Ends.okOr_bind fun descriptor _ =>
    Ends.liftM_bind fun next hnext => ?_
  have hforward : offset < next := by
    have hbody := addU64_eq_some hbody
    have hname := addU64_eq_some hname
    have haligned := le_of_alignFour haligned
    have hdesc := addU64_eq_some hdesc
    have hnext := le_of_alignFour hnext
    omega
  split_ifs
  · refine Ends.bind (parseStapsdtDescriptor_ends utf8Error descriptor is64) fun probe _ => ?_
    exact Ends.pure hforward
  · exact Ends.pure hforward

theorem parseNotesFrom_ends (utf8Error : List UInt8 → String) (hdata : data.length ≤ isizeMax)
    (littleEndian is64 : Bool) {turns offset : ℕ} (hturns : data.length ≤ offset + turns)
    (probes : Finset (String × String)) :
    Ends (parseNotesFrom utf8Error data littleEndian is64 turns offset probes)
      (fun _ => True) := by
  induction turns generalizing offset probes with
  | zero =>
    rw [parseNotesFrom, if_neg (by omega)]
    exact Ends.pure trivial
  | succ turns ih =>
    rw [parseNotesFrom]
    split_ifs
    · refine Ends.bind (parseNote_ends utf8Error hdata littleEndian is64 offset probes)
        fun next hnext => ?_
      exact ih (by omega) next.2
    · exact Ends.pure trivial

end Ends

/-! ## Notes that were laid out -/

/-- A note; its lengths are 32-bit words. -/
structure Note where
  noteType : UInt32
  owner : List UInt8
  descriptor : List UInt8
  owner_lt : owner.length < 2 ^ 32
  descriptor_lt : descriptor.length < 2 ^ 32

def noteWord (littleEndian : Bool) (value : ℕ) : List UInt8 :=
  if littleEndian then leBytes 4 value else (leBytes 4 value).reverse

def Note.header (littleEndian : Bool) (note : Note) : List UInt8 :=
  noteWord littleEndian note.owner.length ++ noteWord littleEndian note.descriptor.length ++
    noteWord littleEndian note.noteType.toNat

/-- How many bytes follow a field up to the next multiple of four. -/
def padding (length : ℕ) : ℕ := (length + 3) / 4 * 4 - length

/-- The notes lie one behind the other, with any bytes as padding. The padding behind the last
    descriptor may be cut. -/
inductive LaidOut (littleEndian : Bool) : List Note → List UInt8 → Prop
  | nil : LaidOut littleEndian [] []
  | last (note : Note) {pad tail : List UInt8} (hpad : pad.length = padding note.owner.length)
      (htail : tail.length ≤ padding note.descriptor.length) :
      LaidOut littleEndian [note]
        (note.header littleEndian ++ note.owner ++ pad ++ note.descriptor ++ tail)
  | cons (note : Note) {notes : List Note} {pad tail rest : List UInt8}
      (hpad : pad.length = padding note.owner.length)
      (htail : tail.length = padding note.descriptor.length)
      (h : LaidOut littleEndian notes rest) :
      LaidOut littleEndian (note :: notes)
        (note.header littleEndian ++ note.owner ++ pad ++ note.descriptor ++ tail ++ rest)

/-- Three addresses of the class, then the provider and the name, both NUL-terminated. -/
def Describes (is64 : Bool) (descriptor : List UInt8) (probe : String × String) : Prop :=
  ∃ addresses rest, addresses.length = addressBytes is64 ∧ 0 ∉ utf8Bytes probe.1 ∧
    0 ∉ utf8Bytes probe.2 ∧
    descriptor = addresses ++ (utf8Bytes probe.1 ++ 0 :: (utf8Bytes probe.2 ++ 0 :: rest))

section Layout

variable {utf8Error : List UInt8 → String} {littleEndian is64 : Bool}

theorem takeCString_text {text : String} (h : 0 ∉ utf8Bytes text) (rest : List UInt8)
    (field : String) :
    takeCString utf8Error (utf8Bytes text ++ 0 :: rest) field = returned (.ok (text, rest)) := by
  have hstop : (utf8Bytes text ++ 0 :: rest).findIdx? (· == 0) = some (utf8Bytes text).length := by
    rw [List.findIdx?_append, List.findIdx?_eq_none_iff.mpr]
    · simp [List.findIdx?_cons]
    · intro byte hbyte
      simpa using fun hzero : byte = 0 => h (hzero ▸ hbyte)
  have hvalue : sliceRange (utf8Bytes text ++ 0 :: rest) 0 (utf8Bytes text).length =
      some (utf8Bytes text) := by
    rw [sliceRange_of_le (Nat.zero_le _) (by simp), sliceAt, List.drop_zero, Nat.sub_zero,
      List.take_left]
  have hrest : sliceFrom (utf8Bytes text ++ 0 :: rest) ((utf8Bytes text).length + 1) =
      some rest := by
    rw [sliceFrom_of_le (by simp)]
    simp [List.drop_append]
  simp only [takeCString, hstop, okOr_some, liftM_except, returned_ok_bind, hvalue, liftM_some,
    fromUtf8_utf8Bytes, hrest]
  rfl

theorem parseStapsdtDescriptor_of_describes (utf8Error : List UInt8 → String)
    {descriptor : List UInt8} {probe : String × String} (h : Describes is64 descriptor probe) :
    parseStapsdtDescriptor utf8Error descriptor is64 = returned (.ok probe) := by
  obtain ⟨addresses, rest, haddresses, hprovider, hname, rfl⟩ := h
  have hstrings : ∀ strings, sliceFrom (addresses ++ strings) (addressBytes is64) =
      some strings := by
    intro strings
    rw [sliceFrom_of_le (by simp [haddresses]), ← haddresses, List.drop_left]
  simp only [parseStapsdtDescriptor, hstrings, okOr_some, liftM_except, returned_ok_bind,
    takeCString_text hprovider, takeCString_text hname]
  rfl

variable {data rest : List UInt8}

theorem sliceRange_of_eq (front : List UInt8) {piece : List UInt8} {start stop : ℕ}
    (hdata : data = front ++ (piece ++ rest)) (hstart : start = front.length)
    (hstop : stop = start + piece.length) : sliceRange data start stop = some piece := by
  subst hdata hstart hstop
  rw [sliceRange_of_le (by omega) (by simp)]
  simp [sliceAt]

theorem length_noteWord (littleEndian : Bool) (value : ℕ) :
    (noteWord littleEndian value).length = 4 := by
  cases littleEndian <;> simp [noteWord]

theorem readNoteWord_of_eq (front : List UInt8) {offset value : ℕ}
    (hdata : data = front ++ (noteWord littleEndian value ++ rest))
    (hoffset : offset = front.length) (hvalue : value < 2 ^ 32) (hfits : offset + 4 < 2 ^ 64) :
    readNoteWord data offset littleEndian = returned (.ok (UInt32.ofNat value)) := by
  have hlength := length_noteWord littleEndian value
  have hslice : sliceRange data offset (offset + 4) = some (noteWord littleEndian value) :=
    sliceRange_of_eq front hdata hoffset (by rw [hlength])
  have hbytes : ofLeBytes (if littleEndian then noteWord littleEndian value
      else (noteWord littleEndian value).reverse) = value := by
    have hmod : value % 256 ^ 4 = value := Nat.mod_eq_of_lt (hvalue.trans_eq (by norm_num))
    cases littleEndian <;> simp only [noteWord, if_true, Bool.false_eq_true, if_false,
      List.reverse_reverse, ofLeBytes_leBytes, hmod]
  simp only [readNoteWord, addU64_of_lt hfits, okOr_some, liftM_except, returned_ok_bind, hslice,
    hlength, if_true, liftM_some, hbytes]
  rfl

theorem alignFour_of_eq {value result : ℕ} (hfits : value + 3 < 2 ^ 64)
    (h : result = (value + 3) / 4 * 4) : alignFour value = .ok result := by
  rw [alignFour, addU64_of_lt hfits, okOr_some, ok_bind, h]
  rfl

/-- One turn over a note at a multiple of four. -/
theorem parseNote_append (utf8Error : List UInt8 → String) (note : Note) {front pad : List UInt8}
    (hfront : front.length % 4 = 0) (hpad : pad.length = padding note.owner.length)
    (hlength : (front ++ (note.header littleEndian ++ note.owner ++ pad ++ note.descriptor ++ rest)).length ≤ isizeMax)
    (hprobe : note.owner = stapsdtOwner → ∃ probe, Describes is64 note.descriptor probe)
    (probes : Finset (String × String)) :
    ∃ found, parseNote utf8Error (front ++ (note.header littleEndian ++ note.owner ++ pad ++
        note.descriptor ++ rest)) littleEndian is64 front.length probes =
      returned (.ok (front.length + 12 + note.owner.length + pad.length +
        note.descriptor.length + padding note.descriptor.length, found)) ∧
      ∀ probe, probe ∈ found ↔ probe ∈ probes ∨
        note.owner = stapsdtOwner ∧ Describes is64 note.descriptor probe := by
  generalize hdata : front ++ (note.header littleEndian ++ note.owner ++ pad ++ note.descriptor ++
    rest) = data at hlength ⊢
  have hheader : (note.header littleEndian).length = 12 := by
    simp [Note.header, length_noteWord]
  have hfits : front.length + 12 + note.owner.length + pad.length + note.descriptor.length + 3 <
      2 ^ 64 := by
    rw [← hdata] at hlength
    simp only [List.length_append, hheader, isizeMax] at hlength
    omega
  have hnamesz : readNoteWord data front.length littleEndian =
      returned (.ok (UInt32.ofNat note.owner.length)) :=
    readNoteWord_of_eq front (by simp [← hdata, Note.header]; rfl) rfl note.owner_lt (by omega)
  have hdescsz : readNoteWord data (front.length + 4) littleEndian =
      returned (.ok (UInt32.ofNat note.descriptor.length)) :=
    readNoteWord_of_eq (front ++ noteWord littleEndian note.owner.length)
      (by simp [← hdata, Note.header]; rfl) (by simp [length_noteWord]) note.descriptor_lt
      (by omega)
  have howner : sliceRange data (front.length + 12) (front.length + 12 + note.owner.length) =
      some note.owner :=
    sliceRange_of_eq (front ++ note.header littleEndian) (by simp [← hdata]; rfl)
      (by simp [hheader]) rfl
  have hdescriptor : sliceRange data (front.length + 12 + note.owner.length + pad.length)
      (front.length + 12 + note.owner.length + pad.length + note.descriptor.length) =
      some note.descriptor :=
    sliceRange_of_eq (front ++ note.header littleEndian ++ note.owner ++ pad)
      (by simp [← hdata]; rfl) (by simp only [List.length_append, hheader]) rfl
  -- the note starts at a multiple of four, so its fields are aligned as their lengths are
  have halign : alignFour (front.length + 12 + note.owner.length) =
      .ok (front.length + 12 + note.owner.length + pad.length) :=
    alignFour_of_eq (by omega) (by rw [hpad, padding]; omega)
  have hnext : alignFour
      (front.length + 12 + note.owner.length + pad.length + note.descriptor.length) =
      .ok (front.length + 12 + note.owner.length + pad.length + note.descriptor.length +
        padding note.descriptor.length) :=
    alignFour_of_eq (by omega) (by rw [hpad, padding, padding]; omega)
  have hsizes : (UInt32.ofNat note.owner.length).toNat = note.owner.length ∧
      (UInt32.ofNat note.descriptor.length).toNat = note.descriptor.length :=
    ⟨UInt32.toNat_ofNat_of_lt' note.owner_lt, UInt32.toNat_ofNat_of_lt' note.descriptor_lt⟩
  have hsums : addU64 front.length 4 = some (front.length + 4) ∧
      addU64 front.length 12 = some (front.length + 12) ∧
      addU64 (front.length + 12) note.owner.length =
        some (front.length + 12 + note.owner.length) ∧
      addU64 (front.length + 12 + note.owner.length + pad.length) note.descriptor.length =
        some (front.length + 12 + note.owner.length + pad.length + note.descriptor.length) :=
    ⟨addU64_of_lt (by omega), addU64_of_lt (by omega), addU64_of_lt (by omega),
      addU64_of_lt (by omega)⟩
  simp only [parseNote, hnamesz, returned_ok_bind, hsums, liftM_some, hdescsz, okOr_some,
    liftM_except, hsizes, howner, halign, hdescriptor, hnext]
  split_ifs with howned
  · obtain ⟨probe, hdescribes⟩ := hprobe howned
    rw [parseStapsdtDescriptor_of_describes utf8Error hdescribes, returned_ok_bind]
    refine ⟨_, rfl, fun other => ?_⟩
    rw [Finset.mem_insert, or_comm]
    have hunique : other = probe ↔ Describes is64 note.descriptor other := by
      refine ⟨fun heq => heq ▸ hdescribes, fun hother => ?_⟩
      have hsame := (parseStapsdtDescriptor_of_describes utf8Error hother).symm.trans
        (parseStapsdtDescriptor_of_describes utf8Error hdescribes)
      exact Except.ok.inj (Option.some.inj hsame)
    rw [hunique]
    simp [howned]
  · exact ⟨probes, rfl, by simp [howned]⟩

theorem parseNotesFrom_done {turns offset : ℕ} (h : data.length ≤ offset)
    (probes : Finset (String × String)) :
    parseNotesFrom utf8Error data littleEndian is64 turns offset probes =
      returned (.ok probes) := by
  cases turns with
  | zero => exact if_neg (not_lt.mpr h)
  | succ turns => exact if_neg (not_lt.mpr h)

/-- The loop stays in step with the notes. -/
theorem parseNotesFrom_laidOut {notes : List Note} (h : LaidOut littleEndian notes rest)
    (front : List UInt8) (hfront : front.length % 4 = 0)
    (hlength : (front ++ rest).length ≤ isizeMax)
    (hprobes : ∀ note ∈ notes, note.owner = stapsdtOwner → ∃ probe, Describes is64 note.descriptor probe)
    {turns : ℕ} (hturns : notes.length ≤ turns) (probes : Finset (String × String)) :
    ∃ found, parseNotesFrom utf8Error (front ++ rest) littleEndian is64 turns front.length probes =
        returned (.ok found) ∧
      ∀ probe, probe ∈ found ↔ probe ∈ probes ∨ ∃ note ∈ notes, note.owner = stapsdtOwner ∧
        Describes is64 note.descriptor probe := by
  induction h generalizing front turns probes with
  | nil =>
    refine ⟨probes, parseNotesFrom_done (by simp) probes, by simp⟩
  | last note hpad htail =>
    obtain ⟨turns, rfl⟩ := Nat.exists_eq_add_of_le' hturns
    obtain ⟨found, hnote, hfound⟩ := parseNote_append utf8Error note hfront hpad hlength
      (hprobes note List.mem_cons_self) probes
    refine ⟨found, ?_, by simpa using hfound⟩
    rw [List.length_singleton, parseNotesFrom, if_pos (by simp [Note.header, length_noteWord]),
      hnote, returned_ok_bind]
    -- cut padding only shortens the section
    refine parseNotesFrom_done ?_ found
    simp only [List.length_append, Note.header, length_noteWord]
    omega
  | @cons note notes pad tail rest hpad htail h ih =>
    rw [List.length_cons] at hturns
    obtain ⟨turns, rfl⟩ := Nat.exists_eq_add_of_le' hturns
    have hassoc : note.header littleEndian ++ note.owner ++ pad ++ note.descriptor ++ tail ++ rest =
        note.header littleEndian ++ note.owner ++ pad ++ note.descriptor ++ (tail ++ rest) :=
      List.append_assoc _ _ _
    obtain ⟨first, hnote, hfirst⟩ := parseNote_append utf8Error note hfront hpad
      (hassoc ▸ hlength) (hprobes note List.mem_cons_self) probes
    have hnext : (front ++ (note.header littleEndian ++ note.owner ++ pad ++ note.descriptor ++
        tail)).length = front.length + 12 + note.owner.length + pad.length +
        note.descriptor.length + padding note.descriptor.length := by
      simp only [List.length_append, Note.header, length_noteWord, htail]
      omega
    have haligned : (front ++ (note.header littleEndian ++ note.owner ++ pad ++ note.descriptor ++
        tail)).length % 4 = 0 := by
      rw [hnext, hpad, padding, padding]
      omega
    obtain ⟨found, hloop, hfound⟩ := ih _ haligned (by rwa [List.append_assoc])
      (fun other hother => hprobes other (List.mem_cons_of_mem _ hother))
      (Nat.le_add_left notes.length turns) first
    refine ⟨found, ?_, fun probe => ?_⟩
    · rw [← Nat.add_assoc, parseNotesFrom, if_pos (by simp [Note.header, length_noteWord]), hassoc,
        hnote, returned_ok_bind, ← hassoc, ← List.append_assoc, ← hnext]
      exact hloop
    · rw [hfound, hfirst, List.exists_mem_cons_iff, or_assoc]

theorem length_le_of_laidOut {notes : List Note} (h : LaidOut littleEndian notes data) :
    notes.length ≤ data.length := by
  induction h with
  | nil => exact le_rfl
  | last note hpad htail =>
    simp only [List.length_append, Note.header, length_noteWord, List.length_singleton]
    omega
  | cons note hpad htail h ih =>
    simp only [List.length_append, Note.header, length_noteWord, List.length_cons]
    omega

end Layout

/-- Notes that are laid out with four-byte padding, where only the padding behind the last
    descriptor may be missing, are parsed to the probes of the `stapsdt` notes. On every byte string
    the parser ends with a set or an error. -/
theorem parseStapsdtNotes_correct (utf8Error : List UInt8 → String) (data : Slice UInt8)
    (littleEndian is64 : Bool) :
    (∀ notes, LaidOut littleEndian notes data.toList →
      (∀ note ∈ notes, note.owner = stapsdtOwner →
        ∃ probe, Describes is64 note.descriptor probe) →
      ∃ probes, parseStapsdtNotes utf8Error data.toList littleEndian is64 =
          returned (.ok probes) ∧
        ∀ probe, probe ∈ probes ↔ ∃ note ∈ notes, note.owner = stapsdtOwner ∧
          Describes is64 note.descriptor probe) ∧
    ∃ result, parseStapsdtNotes utf8Error data.toList littleEndian is64 = returned result := by
  constructor
  · intro notes hlaid hprobes
    obtain ⟨found, hparse, hfound⟩ := parseNotesFrom_laidOut hlaid [] rfl data.length_le hprobes
      (length_le_of_laidOut hlaid) ∅
    exact ⟨found, hparse, fun probe => by simpa using hfound probe⟩
  · obtain ⟨result, hresult, -⟩ := parseNotesFrom_ends utf8Error data.length_le littleEndian is64
      (Nat.le_add_left data.toList.length 0) ∅
    exact ⟨result, hresult⟩

def probeNote : Note :=
  { noteType := 3, owner := stapsdtOwner
    descriptor := List.replicate 12 0 ++ (utf8Bytes "p" ++ 0 :: (utf8Bytes "n" ++ 0 :: []))
    owner_lt := by decide, descriptor_lt := by decide }

theorem parseStapsdtNotes_correct_one : ∃ probes, parseStapsdtNotes (fun _ => "")
        (probeNote.header false ++ probeNote.owner ++ [] ++ probeNote.descriptor ++ []) false false =
        returned (.ok probes) ∧ ("p", "n") ∈ probes := by
  have hdescribes : Describes false probeNote.descriptor ("p", "n") :=
    ⟨List.replicate 12 0, [], rfl, by decide, by decide, rfl⟩
  obtain ⟨probes, hparse, hprobes⟩ := (parseStapsdtNotes_correct (fun _ => "")
    ⟨probeNote.header false ++ probeNote.owner ++ [] ++ probeNote.descriptor ++ [], by decide⟩
    false false).1 [probeNote] (.last probeNote rfl (by decide))
    (by simpa using fun _ => ⟨"p", "n", hdescribes⟩)
  exact ⟨probes, hparse, (hprobes _).mpr ⟨probeNote, by simp, rfl, hdescribes⟩⟩

/-- A note with an owner of one byte and no descriptor. -/
def emptyNote : Note :=
  { noteType := 0, owner := [120], descriptor := [], owner_lt := by decide
    descriptor_lt := by decide }

/-- Without the padding behind its owner, an empty descriptor at the end lies behind the section. -/
theorem parseStapsdtNotes_unpadded_owner :
    parseStapsdtNotes (fun _ => "") (emptyNote.header true ++ emptyNote.owner) true true =
      returned (.error "note descriptor exceeds section bounds") := by
  rfl

end Xprobe.Core
