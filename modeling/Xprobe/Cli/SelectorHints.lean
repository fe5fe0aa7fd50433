import Xprobe.Cupti.AggregateCapture
import Xprobe.Cupti.NameMatch
import Xprobe.Cli.NameFilters

/-!
# Selectors suggested by an inventory

An aggregate measurement lists the kernels that ran, each with a pair of selectors that should select
it again. `aggregate_selector_hints` escapes the name of the group and anchors it: on both sides if
the record holds the whole name, at its start if it may have been cut off.

The suggestion is parsed by the validator and by the correlator, lowered to a name filter, sent to
the agent and compared with the names of other kernels there. `Lowers` is the way up to the filter.
-/

namespace Xprobe.Cli

open Foundation Foundation.Pattern Protocol Cupti
open Xprobe.Core (EndpointSystem Endpoint resolveEndpoint parseCudaSelector
  parseCudaEvent parseKernelSelector parseKernelPattern plainCudaSelector probelessEndpoint)
open Correlator (RegexEngine Regex Selector anchoredLiteral regexLiteral regexLiteralChars)

/-! ## Escaped names -/

/-- The characters that `escape_selector_regex` escapes. -/
def selectorSpecial : List Char := "\\.^$|?*+()[]\x7b\x7d".toList

/-- `escape_selector_regex`. -/
def escapeSelectorRegex (name : String) : String :=
  String.ofList (escapeWith selectorSpecial name.toList)

theorem escapable_selectorSpecial : Escapable selectorSpecial := by
  have hspecial : selectorSpecial =
      ['\\', '.', '^', '$', '|', '?', '*', '+', '(', ')', '[', ']', '\x7b', '\x7d'] := rfl
  have hmeta : metaCharacters =
      ['\\', '.', '+', '*', '?', '(', ')', '|', '[', ']', '\x7b', '\x7d', '^', '$'] := rfl
  rw [hspecial]
  refine ⟨?_, ?_, ?_, ?_, ?_⟩
  · rw [hmeta]
    simp
  · intro c hc
    fin_cases hc <;> rfl
  · intro c hc
    fin_cases hc <;> decide
  · decide
  · decide

section Escaped

variable {special : List Char} (h : Escapable special)
include h

/-- `regex_literal` undoes the escapes. -/
theorem regexLiteralChars_escapeWith (text rest : List Char) :
    regexLiteralChars (escapeWith special text ++ rest) =
      (regexLiteralChars rest).map (text ++ ·) := by
  induction text with
  | nil => simp [escapeWith]
  | cons c text ih =>
    rw [escapeWith_cons, List.append_assoc]
    cases hc : special.contains c with
    | true =>
      show regexLiteralChars ('\\' :: c :: (escapeWith special text ++ rest)) = _
      rw [regexLiteralChars, h.not_alphanumeric c (List.contains_iff_mem.mp hc),
        if_neg Bool.false_ne_true, ih, Option.map_map]
      rfl
    | false =>
      have hmeta := h.not_meta hc
      show regexLiteralChars (c :: (escapeWith special text ++ rest)) = _
      rw [regexLiteralChars, if_neg, ih, Option.map_map]
      · rfl
      · rw [metaCharacters, List.contains_cons, Bool.or_eq_false_iff] at hmeta
        rw [hmeta.2]
        exact Bool.false_ne_true
      · intro hback
        exact absurd hback (ne_of_not_meta hmeta (by decide))
      · intro _ _ hback
        exact absurd hback (ne_of_not_meta hmeta (by decide))

theorem regexLiteral_escaped {text escaped : String}
    (hescaped : escaped.toList = escapeWith special text.toList) :
    regexLiteral escaped = some text := by
  have hchars := regexLiteralChars_escapeWith h text.toList []
  rw [List.append_nil, ← hescaped] at hchars
  rw [regexLiteral, hchars, regexLiteralChars, Option.map_some, Option.map_some, List.append_nil,
    String.ofList_toList]

/-! ## The filter of an anchored name -/

omit h in
private theorem anchoredLiteral_of_toList {pattern inner : String} {anchors : String × String}
    (hpattern : pattern.toList = anchors.1.toList ++ (inner.toList ++ anchors.2.toList)) :
    anchoredLiteral pattern anchors = regexLiteral inner := by
  have hrest : Text.stripPrefix pattern anchors.1 = some (inner ++ anchors.2) :=
    Text.stripPrefix_of_toList (by rw [hpattern, String.toList_append])
  have hinner : Text.stripSuffix (inner ++ anchors.2) anchors.2 = some inner :=
    Text.stripSuffix_of_toList String.toList_append
  rw [anchoredLiteral, hrest, Option.bind_some, hinner, Option.bind_some]

omit h in
private theorem candidateFilter_of_literal {pattern literal : String}
    {candidate : (String × String) × (String → CuptiNameFilter)}
    (hliteral : anchoredLiteral pattern candidate.1 = some literal) (hne : literal ≠ "")
    (hshort : literal.utf8ByteSize < nameLength) :
    candidateFilter pattern candidate = some (candidate.2 literal) := by
  rw [candidateFilter, hliteral]
  exact if_neg (not_or.mpr ⟨hne, not_le.mpr hshort⟩)

/-- An escaped name between both anchors is lowered to the exact name. -/
theorem boundedKernelNameFilter_exact {text escaped : String}
    (hescaped : escaped.toList = escapeWith special text.toList) (hne : text ≠ "")
    (hshort : text.utf8ByteSize < nameLength) :
    boundedKernelNameFilter ("^" ++ escaped ++ "$") = .exact text := by
  have hpattern : ("^" ++ escaped ++ "$").toList = "^".toList ++ (escaped.toList ++ "$".toList) := by
    rw [String.toList_append, String.toList_append, List.append_assoc]
  have hall : "^" ++ escaped ++ "$" ≠ ".*" := by
    intro heq
    rw [heq] at hpattern
    cases hpattern
  have hliteral : anchoredLiteral ("^" ++ escaped ++ "$") ("^", "$") = some text := by
    rw [anchoredLiteral_of_toList hpattern, regexLiteral_escaped h hescaped]
  have hfirst := @candidateFilter_of_literal _ _ (("^", "$"), .exact) hliteral hne hshort
  rw [boundedKernelNameFilter_eq hall, kernelNameCandidates, List.findSome?_cons, hfirst]
  rfl

/-- An escaped name does not end with an anchor, whatever its last character. -/
private theorem anchoredLiteral_eq_none {text escaped closing : String}
    (hescaped : escaped.toList = escapeWith special text.toList) {atom : Atom}
    (hclosing : parseAtoms closing.toList = some [atom]) (hatom : ∀ c, Atom.literal c ≠ atom) :
    anchoredLiteral ("^" ++ escaped) ("^", closing) = none := by
  by_contra hsome
  obtain ⟨literal, hliteral⟩ := Option.ne_none_iff_exists'.mp hsome
  rw [anchoredLiteral, Option.bind_eq_some_iff] at hliteral
  obtain ⟨inner, hinner, hregex⟩ := hliteral
  obtain ⟨rest, hrest, hsuffix⟩ := Option.bind_eq_some_iff.mp hinner
  obtain ⟨chars, hchars, -⟩ := Option.map_eq_some_iff.mp hregex
  obtain ⟨items, hitems⟩ := exists_literalItems hchars
  -- the escaped name has two readings: as its own characters, and as a literal and an anchor
  have htext : escaped.toList = inner.toList ++ closing.toList := by
    have hwhole := Text.toList_of_stripPrefix hrest
    rw [String.toList_append, Text.toList_of_stripSuffix hsuffix] at hwhole
    exact List.append_cancel_left hwhole
  have hread := parseAtoms_escapeWith h text.toList []
  rw [List.append_nil, ← hescaped, htext, hitems.parses, hclosing] at hread
  have hatoms : items ++ [atom] = text.toList.map Atom.literal := by simpa [parseAtoms] using hread
  have hmem : atom ∈ text.toList.map Atom.literal := by
    rw [← hatoms]
    exact List.mem_append_right _ (List.mem_singleton.mpr rfl)
  obtain ⟨c, -, hc⟩ := List.mem_map.mp hmem
  exact hatom c hc

/-- An escaped name behind the first anchor is lowered to the start of a name. -/
theorem boundedKernelNameFilter_prefixed {text escaped : String}
    (hescaped : escaped.toList = escapeWith special text.toList) (hne : text ≠ "")
    (hshort : text.utf8ByteSize < nameLength) :
    boundedKernelNameFilter ("^" ++ escaped) = .prefixed text := by
  have hpattern : ("^" ++ escaped).toList = '^' :: escaped.toList := by
    rw [String.toList_append]
    rfl
  have hall : "^" ++ escaped ≠ ".*" := by
    intro heq
    rw [heq] at hpattern
    cases hpattern
  -- the candidates before the one that applies
  have hend : anchoredLiteral ("^" ++ escaped) ("^", "$") = none :=
    @anchoredLiteral_eq_none special h text escaped "$" hescaped .textEnd rfl nofun
  have hany : anchoredLiteral ("^" ++ escaped) ("^", ".*") = none :=
    @anchoredLiteral_eq_none special h text escaped ".*" hescaped .anything rfl nofun
  have hopening : ∀ closing, anchoredLiteral ("^" ++ escaped) (".*", closing) = none := by
    intro closing
    have hstarts : Text.startsWith ("^" ++ escaped) ".*" = false := by
      rw [Text.startsWith, hpattern]
      rfl
    rw [anchoredLiteral, Text.stripPrefix_eq_none hstarts]
    rfl
  have hliteral : anchoredLiteral ("^" ++ escaped) ("^", "") = some text := by
    have hinner : anchoredLiteral ("^" ++ escaped) ("^", "") = regexLiteral escaped :=
      anchoredLiteral_of_toList (by rw [hpattern]; simp)
    rw [hinner, regexLiteral_escaped h hescaped]
  have hthis := @candidateFilter_of_literal _ _ (("^", ""), .prefixed) hliteral hne hshort
  have hnone : ∀ anchors filter, anchoredLiteral ("^" ++ escaped) anchors = none →
      candidateFilter ("^" ++ escaped) (anchors, filter) = none := by
    intro anchors filter hnone
    rw [candidateFilter, hnone]
    rfl
  rw [boundedKernelNameFilter_eq hall, kernelNameCandidates, List.findSome?_cons,
    hnone _ _ hend, List.findSome?_cons, hnone _ _ hany, List.findSome?_cons,
    hnone _ _ (hopening _), List.findSome?_cons, hnone _ _ (hopening _), List.findSome?_cons, hthis]
  rfl

end Escaped

/-! ## Parsing a hint -/

def IsKernelEvent (event : String) (eventType : EventType) (recordKind : RecordKind) : Prop :=
  (event = "kernel_start" ∧ eventType = .gpuKernelStart ∧ recordKind = .gpuKernelStart) ∨
    (event = "kernel_end" ∧ eventType = .gpuKernelEnd ∧ recordKind = .gpuKernelEnd)

def kernelSelector (eventType : EventType) (pattern : String) : ResolvedCudaSelector :=
  { plainCudaSelector eventType with kernelNameRegex := some pattern }

def kernelFilter (recordKind : RecordKind) (name : CuptiNameFilter) : CuptiEventFilter :=
  { recordKind, apiDomain := .any, memcpyKind := .any, name }

/-- A hint is accepted by the validator and by the correlator, and lowered to a filter that can be
    sent to the agent. -/
structure Lowers (engine : RegexEngine) (hint : String) (selector : ResolvedCudaSelector)
    (filter : CuptiEventFilter) : Prop where
  resolves : ∀ (system : EndpointSystem) (report : ProcessReport) (endpoint : String),
    ∃ point, resolveEndpoint engine system report hint endpoint = .ok point ∧
      point.validated.cuda = some selector
  parses : ∃ parsed, Selector.parse engine hint = .ok parsed
  lowered : cuptiEventFilter selector = .ok filter
  fits : filter.NameFits

theorem splitn_kernelHint {hint event pattern : String} (hevent : ':' ∉ event.toList)
    (hhint : hint.toList = "cuda:".toList ++ (event.toList ++ ':' :: ("name~" ++ pattern).toList)) :
    Text.splitn 3 ':' hint = ["cuda", event, "name~" ++ pattern] := by
  have hfirst := @Text.cutFirst_append ':' "cuda".toList (by decide)
    (event.toList ++ ':' :: ("name~" ++ pattern).toList)
  have hsecond := Text.cutFirst_append hevent ("name~" ++ pattern).toList
  have hchars : hint.toList =
      "cuda".toList ++ ':' :: (event.toList ++ ':' :: ("name~" ++ pattern).toList) := hhint
  rw [Text.splitn, hchars, Text.splitnChars, hfirst]
  dsimp only
  rw [Text.splitnChars, hsecond]
  dsimp only
  rw [Text.splitnChars, List.map_cons, List.map_cons, List.map_cons, List.map_nil,
    String.ofList_toList, String.ofList_toList, String.ofList_toList]

theorem lowers_kernelHint {engine : RegexEngine} {hint event pattern : String}
    {eventType : EventType} {recordKind : RecordKind} (hevent : IsKernelEvent event eventType recordKind)
    (hhint : hint.toList = "cuda:".toList ++ (event.toList ++ ':' :: ("name~" ++ pattern).toList))
    (hne : pattern ≠ "") {regex : Regex} (hregex : engine pattern = .ok regex)
    (hfits : (kernelFilter recordKind (boundedKernelNameFilter pattern)).NameFits) :
    Lowers engine hint (kernelSelector eventType pattern)
      (kernelFilter recordKind (boundedKernelNameFilter pattern)) := by
  have hcolon : ':' ∉ event.toList := by
    rcases hevent with ⟨rfl, -, -⟩ | ⟨rfl, -, -⟩
    · decide
    · decide
  have hfields := splitn_kernelHint hcolon hhint
  have hname : Text.stripPrefix ("name~" ++ pattern) "name~" = some pattern :=
    Text.stripPrefix_of_toList String.toList_append
  -- no other kind of selector begins like the hint
  have hstarts : ∀ word : String, word.toList.head? ≠ some 'c' → word ≠ "" →
      Text.startsWith hint word = false := by
    intro word hhead hword
    cases hchars : word.toList with
    | nil => exact absurd (String.toList_injective hchars) hword
    | cons c rest =>
      rw [hchars] at hhead
      rw [Text.startsWith, hhint, hchars]
      show (c == 'c' && _) = false
      have hc : (c == 'c') = false := by simpa using hhead
      rw [hc, Bool.false_and]
  have huprobe := hstarts "uprobe:" (by decide) (by decide)
  have hsyscall := hstarts "syscall:" (by decide) (by decide)
  have htracepoint := hstarts "tracepoint:" (by decide) (by decide)
  have hpython := hstarts "python:" (by decide) (by decide)
  have hkernel : parseCudaSelector engine hint =
      .ok (kernelSelector eventType pattern, ⟨.kernel, rfl⟩, true) := by
    have hpattern : parseKernelPattern engine ("name~" ++ pattern) = .ok pattern := by
      rw [parseKernelPattern, hname, okOr_some, ok_bind, ensure_of hne, ok_bind, hregex]
      rfl
    rw [parseCudaSelector, hfields]
    rcases hevent with ⟨rfl, rfl, -⟩ | ⟨rfl, rfl, -⟩
    · show parseKernelSelector engine .gpuKernelStart (some ("name~" ++ pattern)) = _
      rw [parseKernelSelector, hpattern, ok_bind]
      rfl
    · show parseKernelSelector engine .gpuKernelEnd (some ("name~" ++ pattern)) = _
      rw [parseKernelSelector, hpattern, ok_bind]
      rfl
  refine ⟨?_, ?_, ?_, hfits⟩
  · intro system report endpoint
    rw [resolveEndpoint, huprobe, hsyscall, htracepoint, hpython, hkernel]
    exact ⟨_, rfl, rfl⟩
  · rw [Selector.parse, Text.stripPrefix_eq_none huprobe, hsyscall, htracepoint, hpython, hfields]
    rcases hevent with ⟨rfl, -, -⟩ | ⟨rfl, -, -⟩
    · refine ⟨.kernel .gpuKernelStart (some regex), ?_⟩
      show Selector.parseKernel engine .gpuKernelStart (some ("name~" ++ pattern)) = _
      simp only [Selector.parseKernel, hname, hne, hregex, if_false]
    · refine ⟨.kernel .gpuKernelEnd (some regex), ?_⟩
      show Selector.parseKernel engine .gpuKernelEnd (some ("name~" ++ pattern)) = _
      simp only [Selector.parseKernel, hname, hne, hregex, if_false]
  · rcases hevent with ⟨-, rfl, rfl⟩ | ⟨-, rfl, rfl⟩
    · rfl
    · rfl

/-- Start and end of the kernels under one pattern can be aggregated if the agent can apply it. -/
theorem validateAggregateSelection_kernel {pattern : String}
    (hbounded : isBoundedPattern (some pattern) = true) {validation : ValidationResult}
    (hstart : validation.startEndpoint.cuda = some (kernelSelector .gpuKernelStart pattern))
    (hend : validation.endEndpoint.cuda = some (kernelSelector .gpuKernelEnd pattern)) :
    validateAggregateSelection validation = .ok () := by
  simp only [validateAggregateSelection, hstart, hend]
  refine bind_unit_eq_ok_iff.mpr ⟨ensure_eq_ok_iff.mpr ?_, ensure_eq_ok_iff.mpr hbounded⟩
  simp [isPairedActivity, kernelSelector, plainCudaSelector]

/-! ## What is assumed of the regular expressions -/

/-- Short patterns of anchors, characters and allowed escapes compile. -/
def CompilesShort (engine : RegexEngine) : Prop :=
  ∀ (pattern : String) (atoms : List Atom), parseAtoms pattern.toList = some atoms →
    (∀ c, Atom.badEscape c ∉ atoms) → pattern.utf8ByteSize ≤ 2 * nameLength →
    ∃ regex, engine pattern = .ok regex

theorem compilesShort_fragmentEngine : CompilesShort fragmentEngine := by
  intro pattern atoms hparse hbad _
  have hnone : atoms.any isBadEscape = false := by
    rw [List.any_eq_false]
    intro atom hatom
    cases atom with
    | badEscape c => exact absurd hatom (hbad c)
    | _ => exact Bool.false_ne_true
  refine ⟨regexOf atoms, ?_⟩
  rw [fragmentEngine, hparse]
  simp [hnone]

theorem exists_regex_anchored {engine : RegexEngine} (hengine : CompilesShort engine)
    {special : List Char} (h : Escapable special) {text escaped closing : String}
    (hescaped : escaped.toList = escapeWith special text.toList)
    (hclosing : closing = "" ∨ closing = "$") (hshort : text.utf8ByteSize < nameLength) :
    ∃ regex, engine ("^" ++ escaped ++ closing) = .ok regex := by
  obtain ⟨last, hlast, hkinds⟩ : ∃ last, parseAtoms closing.toList = some last ∧
      ∀ c, Atom.badEscape c ∉ last := by
    rcases hclosing with rfl | rfl
    · exact ⟨[], rfl, nofun⟩
    · exact ⟨[.textEnd], rfl, by simp⟩
  have hchars : ("^" ++ escaped ++ closing).toList =
      '^' :: (escapeWith special text.toList ++ closing.toList) := by
    rw [String.toList_append, String.toList_append, hescaped]
    rfl
  refine hengine _ (.textStart :: (text.toList.map Atom.literal ++ last)) ?_ ?_ ?_
  · rw [hchars, parseAtoms, parseAtoms_escapeWith h, hlast]
    rfl
  · intro c
    simp [hkinds c]
  · have hsize : escaped.utf8ByteSize ≤ 2 * text.utf8ByteSize := by
      have hdouble := utf8Len_escapeWith_le special text.toList
      rw [← hescaped, ← String.utf8ByteSize_ofList, ← String.utf8ByteSize_ofList,
        String.ofList_toList, String.ofList_toList] at hdouble
      exact hdouble
    have hanchor : "^".utf8ByteSize = 1 := rfl
    have hend : closing.utf8ByteSize ≤ 1 := by
      rcases hclosing with rfl | rfl
      · exact Nat.zero_le 1
      · exact le_refl 1
    rw [String.utf8ByteSize_append, String.utf8ByteSize_append]
    omega

/-! ## What the filter accepts -/

section Filters

variable {recordKind : RecordKind} {text : String} {name : List UInt8} (rest : List UInt8)

theorem nameMatches_exactText (hfits : (kernelFilter recordKind (.exact text)).NameFits)
    (hname : 0 ∉ name) :
    nameMatches (kernelFilter recordKind (.exact text)).toFilter (some (name ++ 0 :: rest)) = true ↔
      name = utf8Bytes text := by
  have hcString := cString_toFilter_name hfits
  have hlength : boundedNameLength (kernelFilter recordKind (.exact text)).toFilter.name <
      nameLength := by
    rw [← length_cString_name, hcString]
    exact hfits.1
  rw [nameMatches_exact rest rfl hlength hname, hcString]
  rfl

theorem nameMatches_prefixedText (hfits : (kernelFilter recordKind (.prefixed text)).NameFits)
    (hname : 0 ∉ name) :
    nameMatches (kernelFilter recordKind (.prefixed text)).toFilter (some (name ++ 0 :: rest)) =
        true ↔
      utf8Bytes text <+: name := by
  have hcString := cString_toFilter_name hfits
  have hlength : boundedNameLength (kernelFilter recordKind (.prefixed text)).toFilter.name <
      nameLength := by
    rw [← length_cString_name, hcString]
    exact hfits.1
  rw [nameMatches_prefixed rest rfl hlength hname, hcString]
  rfl

end Filters

/-! ## Aggregate groups -/

/-- The copy kinds that have a selector. -/
def memcpyHintKind : Option MemcpyKind → Option String
  | some .hostToDevice => some "HtoD"
  | some .deviceToHost => some "DtoH"
  | some .deviceToDevice => some "DtoD"
  | some .hostToHost => some "HtoH"
  | some .peerToPeer => some "PtoP"
  | some .unknown | none => none

/-- `aggregate_selector_hints`. It expects a kernel to have a name. -/
def aggregateSelectorHints (group : CuptiAggregateGroup) : Option (String × String) :=
  match group.activity with
  | .kernel =>
    group.name.map (fun name =>
      let escaped := escapeSelectorRegex name
      let suffix := if group.nameComplete = some true then "$" else ""
      ("cuda:kernel_start:name~^" ++ escaped ++ suffix,
        "cuda:kernel_end:name~^" ++ escaped ++ suffix))
  | .memcpy =>
    match memcpyHintKind group.memcpyKind with
    | none => some ("cuda:memcpy_start", "cuda:memcpy_end")
    | some kind => some ("cuda:memcpy_start:kind=" ++ kind, "cuda:memcpy_end:kind=" ++ kind)
  | .memset => some ("cuda:memset_start", "cuda:memset_end")

/-- The name of a kernel group, and whether the record had room for more of it. -/
theorem name_of_decodeAggregateRecord {record : List UInt8} {index : Nat}
    {group : CuptiAggregateGroup} (h : decodeAggregateRecord record index = .ok group)
    (hkernel : group.activity = .kernel) :
    ∃ text, fromUtf8 (cString (sliceAt record 72 nameLength)) = some text ∧ text ≠ "" ∧
      group.name = some text ∧
      group.nameComplete =
        some (decide ((cString (sliceAt record 72 nameLength)).length + 1 < nameLength)) := by
  rw [decodeAggregateRecord] at h
  obtain ⟨_, -, h⟩ := of_bind h
  obtain ⟨_, -, h⟩ := of_bind h
  obtain ⟨⟨activity, hasName, hasBytes⟩, hactivity, h⟩ := of_bind h
  obtain ⟨text, htext, h⟩ := of_bind h
  obtain ⟨_, hempty, h⟩ := of_bind h
  cases h
  change activity = .kernel at hkernel
  -- only the kernels have a name
  have hname : hasName = true := by
    rw [okOr_eq_ok_iff, aggregateActivity] at hactivity
    split at hactivity
    · cases hactivity
      rfl
    · cases hactivity
      cases hkernel
    · cases hactivity
      cases hkernel
    · cases hactivity
  subst hname
  refine ⟨text, okOr_eq_ok_iff.mp htext, ?_, rfl, rfl⟩
  intro hnone
  exact ensure_eq_ok_iff.mp hempty ⟨rfl, hnone⟩

def recordedName (kernelName : List UInt8) : List UInt8 := kernelName.take (nameLength - 1)

theorem keptName_terminated {kernelName : List UInt8} (h : 0 ∉ kernelName) :
    keptName (kernelName ++ [0]) = recordedName kernelName := by
  rw [keptName, cString_append_nul h, recordedName]

/-- The filter accepts the kernels whose names have the recorded bytes of a name in common with it,
    and no others. -/
def AcceptsRecorded (filter : CuptiEventFilter) (kernelName : List UInt8) : Prop :=
  ∀ other rest : List UInt8, 0 ∉ other →
    (nameMatches filter.toFilter (some (other ++ 0 :: rest)) = true ↔
      recordedName other = recordedName kernelName)

section Recorded

variable {recordKind : RecordKind} {text : String} {kernelName : List UInt8}

theorem acceptsRecorded_exact (hfits : (kernelFilter recordKind (.exact text)).NameFits)
    (htext : utf8Bytes text = recordedName kernelName)
    (hshort : (recordedName kernelName).length + 1 < nameLength) :
    AcceptsRecorded (kernelFilter recordKind (.exact text)) kernelName := by
  intro other rest hother
  rw [nameMatches_exactText rest hfits hother, htext]
  constructor
  · intro heq
    -- the name is its own record, because it is short
    have hlength : other.length ≤ nameLength - 1 := by
      rw [heq]
      omega
    rw [recordedName, List.take_of_length_le hlength]
    exact heq
  · intro heq
    have hlength : other.length ≤ nameLength - 1 := by
      have htake := congrArg List.length heq
      rw [recordedName, List.length_take] at htake
      omega
    rw [recordedName, List.take_of_length_le hlength] at heq
    exact heq

theorem acceptsRecorded_prefixed (hfits : (kernelFilter recordKind (.prefixed text)).NameFits)
    (htext : utf8Bytes text = recordedName kernelName)
    (hlong : ¬ (recordedName kernelName).length + 1 < nameLength) :
    AcceptsRecorded (kernelFilter recordKind (.prefixed text)) kernelName := by
  intro other rest hother
  have hlength : (recordedName kernelName).length = nameLength - 1 := by
    have hle : (recordedName kernelName).length ≤ nameLength - 1 := List.length_take_le _ _
    omega
  rw [nameMatches_prefixedText rest hfits hother, htext, List.prefix_iff_eq_take, hlength]
  exact eq_comm

end Recorded

/-- The hints of a kernel group are accepted by both parsers and by `validate_aggregate_selection`,
    and the filters that they are lowered to accept exactly the kernels that are recorded under the
    name of the group. -/
theorem aggregateSelectorHints_select {engine : RegexEngine} (hengine : CompilesShort engine)
    {kernelName : List UInt8} (hnul : 0 ∉ kernelName) {record : List UInt8} {index : Nat}
    {group : CuptiAggregateGroup} (hgroup : decodeAggregateRecord record index = .ok group)
    (hkernel : group.activity = .kernel)
    (hname : sliceAt record 72 nameLength = copyName (kernelName ++ [0])) :
    ∃ startHint endHint startSelector endSelector startFilter endFilter,
      aggregateSelectorHints group = some (startHint, endHint) ∧
      Lowers engine startHint startSelector startFilter ∧
      Lowers engine endHint endSelector endFilter ∧
      (∀ validation : ValidationResult, validation.startEndpoint.cuda = some startSelector →
        validation.endEndpoint.cuda = some endSelector →
        validateAggregateSelection validation = .ok ()) ∧
      AcceptsRecorded startFilter kernelName ∧ AcceptsRecorded endFilter kernelName := by
  obtain ⟨text, htext, hne, hgroupName, hcomplete⟩ := name_of_decodeAggregateRecord hgroup hkernel
  rw [hname, cString_copyName, keptName_terminated hnul] at htext hcomplete
  have hbytes := utf8Bytes_of_fromUtf8 htext
  have hescaped : (escapeSelectorRegex text).toList = escapeWith selectorSpecial text.toList :=
    String.toList_ofList
  have hshort : text.utf8ByteSize < nameLength := by
    have hle : (recordedName kernelName).length ≤ nameLength - 1 := List.length_take_le _ _
    have hpos : 0 < nameLength := by decide
    rw [← length_utf8Bytes, hbytes]
    omega
  have hzero : 0 ∉ utf8Bytes text := by
    rw [hbytes]
    exact fun hmem => hnul (List.mem_of_mem_take hmem)
  -- the anchor at the end, and the filter that it makes of the name
  obtain ⟨suffix, filter, hsuffix, hclosing, hlowered, hany, hfits, haccepts⟩ :
      ∃ suffix filter, (if group.nameComplete = some true then "$" else "") = suffix ∧
        (suffix = "" ∨ suffix = "$") ∧
        boundedKernelNameFilter ("^" ++ escapeSelectorRegex text ++ suffix) = filter ∧
        filter ≠ .any ∧ (∀ kind, (kernelFilter kind filter).NameFits) ∧
        ∀ kind, AcceptsRecorded (kernelFilter kind filter) kernelName := by
    by_cases hcut : (recordedName kernelName).length + 1 < nameLength
    · refine ⟨"$", .exact text, by simp [hcomplete, hcut], .inr rfl, ?_, nofun,
        fun _ => ⟨hshort, hzero⟩, fun _ => acceptsRecorded_exact ⟨hshort, hzero⟩ hbytes hcut⟩
      exact boundedKernelNameFilter_exact escapable_selectorSpecial hescaped hne hshort
    · refine ⟨"", .prefixed text, by simp [hcomplete, hcut], .inl rfl, ?_, nofun,
        fun _ => ⟨hshort, hzero⟩, fun _ => acceptsRecorded_prefixed ⟨hshort, hzero⟩ hbytes hcut⟩
      rw [String.append_empty]
      exact boundedKernelNameFilter_prefixed escapable_selectorSpecial hescaped hne hshort
  obtain ⟨regex, hregex⟩ := exists_regex_anchored hengine escapable_selectorSpecial hescaped
    hclosing hshort
  have hpattern : "^" ++ escapeSelectorRegex text ++ suffix ≠ "" := by
    intro hempty
    have hchars := congrArg String.toList hempty
    rw [String.toList_append, String.toList_append] at hchars
    cases hchars
  subst hlowered
  refine ⟨"cuda:kernel_start:name~^" ++ escapeSelectorRegex text ++ suffix,
    "cuda:kernel_end:name~^" ++ escapeSelectorRegex text ++ suffix, _, _, _, _, ?_,
    lowers_kernelHint (.inl ⟨rfl, rfl, rfl⟩) ?_ hpattern hregex (hfits _),
    lowers_kernelHint (.inr ⟨rfl, rfl, rfl⟩) ?_ hpattern hregex (hfits _), ?_, haccepts _,
    haccepts _⟩
  · rw [aggregateSelectorHints, hkernel, hgroupName]
    dsimp only
    rw [hsuffix]
    rfl
  · simp only [String.toList_append, List.append_assoc]
    rfl
  · simp only [String.toList_append, List.append_assoc]
    rfl
  · intro validation hstart hend
    have hbounded : isBoundedPattern
        (some ("^" ++ escapeSelectorRegex text ++ suffix)) = true := by
      simp [isBoundedPattern, hany]
    exact validateAggregateSelection_kernel hbounded hstart hend

/-- The group of one kernel `sum$`. -/
def sumSlot : AggregateSlot :=
  { zeroAggregateSlot with
    count := 1
    kind := RecordKind.gpuKernelStart.code
    name := copyName (utf8Bytes "sum$" ++ [0])
    name_length := length_copyName _ }

theorem aggregateSelectorHints_select_sum :
    ∃ startHint endHint startSelector endSelector startFilter endFilter,
      aggregateSelectorHints (sumSlot.group .kernel "sum$") = some (startHint, endHint) ∧
      Lowers fragmentEngine startHint startSelector startFilter ∧
      Lowers fragmentEngine endHint endSelector endFilter ∧
      AcceptsRecorded startFilter (utf8Bytes "sum$") ∧
      AcceptsRecorded endFilter (utf8Bytes "sum$") := by
  have hgroup : decodeAggregateRecord sumSlot.encode 0 = .ok (sumSlot.group .kernel "sum$") :=
    decodeAggregateRecord_of_layout sumSlot.layout_encode (by decide) (by decide) rfl (by decide)
      (fun _ => by decide) 0
  obtain ⟨startHint, endHint, startSelector, endSelector, startFilter, endFilter, hhints, hstart,
    hend, -, haccepts⟩ := aggregateSelectorHints_select compilesShort_fragmentEngine
      (by decide : 0 ∉ utf8Bytes "sum$") hgroup rfl sumSlot.layout_encode.name
  exact ⟨startHint, endHint, startSelector, endSelector, startFilter, endFilter, hhints, hstart,
    hend, haccepts⟩

end Xprobe.Cli
