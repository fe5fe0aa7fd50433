import Xprobe.Cli.SelectorHints

/-!
# Selectors suggested by the trace analysis

`analyze_trace.py` reads an exported capture and suggests a selector for every kernel in it. It
takes the recorded name for the whole one when it has fewer than 128 characters. A record holds 127
bytes at most, so it always has: the branch for long names is never taken, and the suggestion for a
name that was cut off asks for a name that ends where the record does.
-/

namespace Xprobe.Cli

open Foundation Foundation.Pattern Protocol Cupti
open Xprobe.Core (libcSystem exampleReport)
open Correlator (RegexEngine)

/-! ## The script -/

/-- The characters that `re.escape` escapes. -/
def pythonSpecial : List Char := "()[]\x7b\x7d?*+-|^$\\.&~# \t\n\r\x0b\x0c".toList

/-- `re.escape`. -/
def reEscape (text : String) : String := String.ofList (escapeWith pythonSpecial text.toList)

theorem escapable_pythonSpecial : Escapable pythonSpecial := by
  have hspecial : pythonSpecial =
      ['(', ')', '[', ']', '\x7b', '\x7d', '?', '*', '+', '-', '|', '^', '$', '\\', '.', '&', '~',
        '#', ' ', '\t', '\n', '\r', '\x0b', '\x0c'] := rfl
  have hmeta : metaCharacters =
      ['\\', '.', '+', '*', '?', '(', ')', '|', '[', ']', '\x7b', '\x7d', '^', '$'] := rfl
  rw [hspecial]
  refine ⟨?_, ?_, ?_, ?_, ?_⟩
  · rw [hmeta]
    simp
  · intro c hc
    fin_cases hc <;> rfl
  · intro c hc
    fin_cases hc <;> decide
  · decide
  · decide

/-- `activity_name`, for a kernel. A name that is missing or empty is unknown. -/
def activityName (kernelName : Option String) : String :=
  match kernelName with
  | none => "<unknown>"
  | some name => if name = "" then "<unknown>" else name

/-- What `selector_hint` returns. -/
structure SelectorHint where
  nameRegex : String
  scope : String
  startSelector : String
  endSelector : String
  deriving Repr, DecidableEq

/-- The body of the loop of `selector_hint`: a start or an end of the name that no other name
    has. -/
def uniqueEnd (name : String) (alternatives : List String) (length : Nat) :
    Option (String × String) :=
  let front := String.ofList (name.toList.take length)
  let back := String.ofList (name.toList.drop (name.toList.length - length))
  if alternatives.all (fun candidate => !Text.startsWith candidate front) then
    some ("^" ++ reEscape front ++ ".*", "prefix")
  else if alternatives.all (fun candidate => !Text.endsWith candidate back) then
    some (".*" ++ reEscape back ++ "$", "suffix")
  else none

/-- The pattern of `selector_hint` and its scope. -/
def hintPattern (name : String) (names : List String) : Option (String × String) :=
  let length := name.toList.length
  if length < 128 then some ("^" ++ reEscape name ++ "$", "exact_name")
  else
    let shortest := min 16 length
    let longest := min 127 length
    ((List.range' shortest (longest + 1 - shortest)).findSome?
      (uniqueEnd name (names.filter (· ≠ name)))).map
        (fun (regex, kind) => (regex, kind ++ "_unique_in_capture"))

/-- `selector_hint`. -/
def selectorHint (name : String) (names : List String) : Option SelectorHint :=
  if name = "<unknown>" then none
  else
    (hintPattern name names).map (fun (regex, scope) =>
      { nameRegex := regex
        scope
        startSelector := "cuda:kernel_start:name~" ++ regex
        endSelector := "cuda:kernel_end:name~" ++ regex })

/-! ## The filter of a hint -/

/-- A text leads to one filter. -/
theorem Lowers.unique {engine : RegexEngine} {hint : String}
    {selector selector' : ResolvedCudaSelector} {filter filter' : CuptiEventFilter}
    (h : Lowers engine hint selector filter) (h' : Lowers engine hint selector' filter') :
    filter = filter' := by
  obtain ⟨point, hpoint, hselector⟩ := h.resolves libcSystem exampleReport "start"
  obtain ⟨point', hpoint', hselector'⟩ := h'.resolves libcSystem exampleReport "start"
  rw [hpoint] at hpoint'
  cases hpoint'
  rw [hselector] at hselector'
  cases hselector'
  exact Except.ok.inj (h.lowered.symm.trans h'.lowered)

theorem length_toList_le (text : String) : text.toList.length ≤ text.utf8ByteSize := by
  have hlen : ∀ chars : List Char, chars.length ≤ String.utf8Len chars := by
    intro chars
    induction chars with
    | nil => exact le_refl 0
    | cons c rest ih =>
      have hsize := Char.utf8Size_pos c
      rw [List.length_cons, String.utf8Len_cons]
      omega
  calc text.toList.length ≤ String.utf8Len text.toList := hlen text.toList
    _ = text.utf8ByteSize := by rw [← String.utf8ByteSize_ofList, String.ofList_toList]

section Recorded

variable {engine : RegexEngine} {text : String}

/-- The pattern of a recorded name asks for exactly this name. -/
theorem hintPattern_recorded (hshort : text.utf8ByteSize < nameLength) (names : List String) :
    hintPattern text names = some ("^" ++ reEscape text ++ "$", "exact_name") := by
  have hlength : text.toList.length < 128 := lt_of_le_of_lt (length_toList_le text) hshort
  rw [hintPattern]
  exact if_pos hlength

theorem exists_selectorHint (hknown : text ≠ "<unknown>") (hshort : text.utf8ByteSize < nameLength)
    (names : List String) : ∃ hint, selectorHint text names = some hint := by
  rw [selectorHint, if_neg hknown, hintPattern_recorded hshort]
  exact ⟨_, rfl⟩

theorem lowers_recorded (hengine : CompilesShort engine) (hne : text ≠ "")
    (hshort : text.utf8ByteSize < nameLength) (hzero : 0 ∉ utf8Bytes text) {event : String}
    {eventType : EventType} {recordKind : RecordKind}
    (hevent : IsKernelEvent event eventType recordKind) {hint : String}
    (hhint : hint.toList = "cuda:".toList ++
      (event.toList ++ ':' :: ("name~" ++ ("^" ++ reEscape text ++ "$")).toList)) :
    Lowers engine hint (kernelSelector eventType ("^" ++ reEscape text ++ "$"))
      (kernelFilter recordKind (.exact text)) := by
  have hescaped : (reEscape text).toList = escapeWith pythonSpecial text.toList :=
    String.toList_ofList
  obtain ⟨regex, hregex⟩ := exists_regex_anchored hengine escapable_pythonSpecial hescaped
    (.inr rfl) hshort
  have hpattern : "^" ++ reEscape text ++ "$" ≠ "" := by
    intro hempty
    have hchars := congrArg String.toList hempty
    rw [String.toList_append, String.toList_append] at hchars
    cases hchars
  have hfilter := boundedKernelNameFilter_exact escapable_pythonSpecial hescaped hne hshort
  have hfits : (kernelFilter recordKind
      (boundedKernelNameFilter ("^" ++ reEscape text ++ "$"))).NameFits := by
    rw [hfilter]
    exact ⟨hshort, hzero⟩
  have hlowers := lowers_kernelHint hevent hhint hpattern hregex hfits
  rw [hfilter] at hlowers
  exact hlowers

end Recorded

/-! ## Measuring again with a hint -/

/-- Both selectors of a hint are accepted, and lowered to filters that let the kernel pass. -/
def SelectsKernel (engine : RegexEngine) (hint : SelectorHint) (kernelName : List UInt8) : Prop :=
  ∀ text ∈ [hint.startSelector, hint.endSelector],
    ∃ selector filter, Lowers engine text selector filter ∧
      nameMatches filter.toFilter (some (kernelName ++ [0])) = true

/-- The hint of a recorded name selects the one kernel whose whole name it is. -/
theorem selectsKernel_iff {engine : RegexEngine} (hengine : CompilesShort engine) {text : String}
    (hne : text ≠ "") (hshort : text.utf8ByteSize < nameLength) (hzero : 0 ∉ utf8Bytes text)
    {names : List String} {hint : SelectorHint} (hhint : selectorHint text names = some hint)
    {kernelName : List UInt8} (hnul : 0 ∉ kernelName) :
    SelectsKernel engine hint kernelName ↔ kernelName = utf8Bytes text := by
  rw [selectorHint, hintPattern_recorded hshort] at hhint
  split_ifs at hhint with hunknown
  cases hhint
  have hstart := @lowers_recorded engine text hengine hne hshort hzero _ _ _
    (.inl ⟨rfl, rfl, rfl⟩) ("cuda:kernel_start:name~" ++ ("^" ++ reEscape text ++ "$"))
    (by simp only [String.toList_append, List.append_assoc]; rfl)
  have hend := @lowers_recorded engine text hengine hne hshort hzero _ _ _
    (.inr ⟨rfl, rfl, rfl⟩) ("cuda:kernel_end:name~" ++ ("^" ++ reEscape text ++ "$"))
    (by simp only [String.toList_append, List.append_assoc]; rfl)
  constructor
  · intro hselects
    obtain ⟨selector, filter, hlowers, hmatches⟩ := hselects _ List.mem_cons_self
    rw [hlowers.unique hstart] at hmatches
    exact (nameMatches_exactText [] hstart.fits hnul).mp hmatches
  · intro hname text' htext'
    rcases List.mem_cons.mp htext' with rfl | hlast
    · exact ⟨_, _, hstart, (nameMatches_exactText [] hstart.fits hnul).mpr hname⟩
    · cases List.mem_singleton.mp hlast
      exact ⟨_, _, hend, (nameMatches_exactText [] hend.fits hnul).mpr hname⟩

theorem eq_recordedName_iff {kernelName : List UInt8} :
    kernelName = recordedName kernelName ↔ kernelName.length < nameLength := by
  have hpos : 0 < nameLength := by decide
  rw [recordedName, eq_comm, List.take_eq_self_iff]
  omega

/-- The hint for a kernel with an ASCII name, made from the record of an exact capture, selects
    this kernel if and only if its name was not cut off. -/
theorem selectorHint_selects_iff {engine : RegexEngine} (hengine : CompilesShort engine)
    {kernelName : List UInt8} (hascii : ∀ b ∈ kernelName, b ≠ 0 ∧ b < 128) {record : List UInt8}
    (hrecord : sliceAt record 72 nameLength = copyName (kernelName ++ [0])) (index : Nat)
    (names : List String) :
    ∃ text, decodeName record index = .ok text ∧
      ((∀ hint, selectorHint (activityName (some text)) names = some hint →
          SelectsKernel engine hint kernelName) ↔
        kernelName.length < nameLength) := by
  have hnul : 0 ∉ kernelName := fun hmem => (hascii 0 hmem).1 rfl
  have hle : (recordedName kernelName).length ≤ nameLength - 1 := List.length_take_le _ _
  have hpos : 0 < nameLength := by decide
  obtain ⟨text, hbytes⟩ : ∃ text, utf8Bytes text = recordedName kernelName :=
    exists_utf8Bytes_of_ascii (fun b hb => (hascii b (List.mem_of_mem_take hb)).2)
  have hshort : text.utf8ByteSize < nameLength := by
    rw [← length_utf8Bytes, hbytes]
    omega
  have hzero : 0 ∉ utf8Bytes text := by
    rw [hbytes]
    exact fun hmem => hnul (List.mem_of_mem_take hmem)
  refine ⟨text, ?_, ?_⟩
  · rw [decodeName, hrecord, cString_copyName, keptName_terminated hnul, ← hbytes,
      fromUtf8_utf8Bytes, okOr_some]
  -- the hint selects the recorded name, which is the whole name if it was short enough
  · by_cases hlong : kernelName.length < nameLength
    · refine iff_of_true ?_ hlong
      intro hint hhint
      have hne : text ≠ "" := by
        rintro rfl
        cases hhint
      rw [activityName, if_neg hne] at hhint
      rw [selectsKernel_iff hengine hne hshort hzero hhint hnul, hbytes]
      exact eq_recordedName_iff.mpr hlong
    · -- a record that is full is neither empty nor the word for an unknown name
      have hfull : text.utf8ByteSize = nameLength - 1 := by
        rw [← length_utf8Bytes, hbytes, recordedName, List.length_take]
        omega
      have hne : text ≠ "" := by
        rintro rfl
        cases hfull
      have hknown : text ≠ "<unknown>" := by
        rintro rfl
        exact absurd hfull (by decide)
      obtain ⟨hint, hhint⟩ := exists_selectorHint hknown hshort names
      refine iff_of_false ?_ hlong
      intro hselects
      rw [activityName, if_neg hne] at hselects
      have hname := (selectsKernel_iff hengine hne hshort hzero hhint hnul).mp
        (hselects hint hhint)
      rw [hbytes] at hname
      exact hlong (eq_recordedName_iff.mp hname)

def namedRecord (kernelName : List UInt8) : List UInt8 :=
  List.replicate 72 0 ++ copyName (kernelName ++ [0])

theorem sliceAt_namedRecord (kernelName : List UInt8) :
    sliceAt (namedRecord kernelName) 72 nameLength = copyName (kernelName ++ [0]) := by
  rw [sliceAt, namedRecord, List.drop_left' List.length_replicate]
  exact List.take_of_length_le (length_copyName _).le

theorem ascii_replicate (count : Nat) :
    ∀ b ∈ List.replicate count (97 : UInt8), b ≠ 0 ∧ b < 128 := by
  intro b hb
  cases List.eq_of_mem_replicate hb
  decide

/-- With a name of 127 bytes the hint still selects its kernel. -/
theorem selectorHint_selects_longest :
    ∃ text, decodeName (namedRecord (List.replicate 127 97)) 0 = .ok text ∧
      ∀ hint, selectorHint (activityName (some text)) [text] = some hint →
        SelectsKernel fragmentEngine hint (List.replicate 127 97) := by
  have hascii := ascii_replicate 127
  obtain ⟨text, htext, -⟩ := selectorHint_selects_iff compilesShort_fragmentEngine hascii
    (sliceAt_namedRecord _) 0 []
  obtain ⟨text', htext', hselects⟩ := selectorHint_selects_iff compilesShort_fragmentEngine hascii
    (sliceAt_namedRecord _) 0 [text]
  cases htext.symm.trans htext'
  exact ⟨text, htext, hselects.mpr (by rw [List.length_replicate]; decide)⟩

/-- One byte more is cut off, and the hint selects another kernel. -/
theorem selectorHint_loses_cut_name :
    ∃ text hint, decodeName (namedRecord (List.replicate 128 97)) 0 = .ok text ∧
      selectorHint (activityName (some text)) [text] = some hint ∧
      ¬ SelectsKernel fragmentEngine hint (List.replicate 128 97) := by
  have hnul : (0 : UInt8) ∉ List.replicate 128 97 := fun hmem => (ascii_replicate 128 0 hmem).1 rfl
  have hcut : recordedName (List.replicate 128 97) = List.replicate 127 97 := List.take_replicate
  obtain ⟨text, hbytes⟩ : ∃ text, utf8Bytes text = List.replicate 127 97 :=
    exists_utf8Bytes_of_ascii (fun b hb => (ascii_replicate 127 b hb).2)
  have hsize : text.utf8ByteSize = 127 := by
    rw [← length_utf8Bytes, hbytes, List.length_replicate]
  have hshort : text.utf8ByteSize < nameLength := by
    rw [hsize]
    decide
  have hne : text ≠ "" := by
    rintro rfl
    cases hsize
  have hknown : text ≠ "<unknown>" := by
    rintro rfl
    exact absurd hsize (by decide)
  have hzero : 0 ∉ utf8Bytes text := by
    rw [hbytes]
    exact fun hmem => (ascii_replicate 127 0 hmem).1 rfl
  obtain ⟨hint, hhint⟩ := exists_selectorHint hknown hshort [text]
  refine ⟨text, hint, ?_, ?_, ?_⟩
  · rw [decodeName, sliceAt_namedRecord, cString_copyName, keptName_terminated hnul, hcut, ← hbytes,
      fromUtf8_utf8Bytes, okOr_some]
  · rw [activityName, if_neg hne]
    exact hhint
  · rw [selectsKernel_iff compilesShort_fragmentEngine hne hshort hzero hhint hnul, hbytes]
    intro heq
    have hlength := congrArg List.length heq
    rw [List.length_replicate, List.length_replicate] at hlength
    exact absurd hlength (by decide)

end Xprobe.Cli
