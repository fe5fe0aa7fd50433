import Xprobe.Core.Symbolize
import Xprobe.Core.Agreement

/-!
# Runtime addresses

`resolve` turns a file offset into a runtime address through the first mapping of the binary that
holds the offset; `symbolize` turns an address of a sampled stack into a file offset through the
executable mapping that holds the address. Both read the same memory map, with parsers of their own.

On a memory map whose lines are complete, the two are inverse exactly when the mapping that
`resolve` uses is executable (`lookup_resolved_iff`). Linkers that do not separate code put one page
into a read-only mapping first, and then into an executable one (`lookup_resolved_readOnly`).
-/

namespace Xprobe.Core

open Foundation Protocol

/-! ## The memory map by lines -/

def addressRange (line : String) : Option (UInt64 × UInt64) := do
  let range ← (Text.splitWhitespace line)[0]?
  let (first, last) ← Text.splitOnce range '-'
  let startAddress ← Text.fromStrRadix16 first
  let endAddress ← Text.fromStrRadix16 last
  return (startAddress, endAddress)

/-- The address ranges of a memory map do not overlap. -/
def DisjointRanges (mapsText : String) : Prop :=
  ((Text.lines mapsText).filterMap addressRange).Pairwise
    (fun range range' => range.2 ≤ range'.1 ∨ range'.2 ≤ range.1)

instance (mapsText : String) : Decidable (DisjointRanges mapsText) :=
  inferInstanceAs (Decidable (List.Pairwise _ _))

/-- The mapping on a line has the permission to execute. -/
def isExecutable (line : String) : Bool :=
  (Text.splitWhitespace line)[1]?.any (fun permissions => permissions.toList.contains 'x')

/-- The fields before the path are all there. -/
def isComplete (line : String) : Bool := 5 ≤ (Text.splitWhitespace line).length

/-- The mapping of a file on a line, as `resolve` reads it. -/
def fileRegion (mapsPath : PathBuf) (line : String) : Option MapRegion :=
  if isFileBacked line then (parseMapRegion line mapsPath).toOption else none

def mapsOffset (system : System) (mapsPath binary : PathBuf) (offset : UInt64) (line : String) :
    Bool :=
  (fileRegion mapsPath line).any (fun region =>
    mapPathMatches system region.path binary && regionContainsOffset region offset)

def firstMapping (system : System) (mapsText : String) (mapsPath binary : PathBuf)
    (offset : UInt64) : Option String :=
  (Text.lines mapsText).find? (mapsOffset system mapsPath binary offset)

/-- The file and the file offset of an address in the executable mappings of a memory map, as
    `Symbolizer.load` and `Symbolizer.symbolize` look them up. -/
def lookupExecutable (mapsText : String) (mapsPath : PathBuf) (address : UInt64) :
    Except CpuAnalysisError (Option (PathBuf × UInt64)) := do
  let maps ← parseExecutableMaps mapsText mapsPath
  return (executableMapping maps address).map (fun (mapping, offset) => (mapping.path, offset))

/-- A symbolizer that no Python symbol diverts shows what the lookup finds. -/
theorem symbolize_eq_lookup {system : System} {metadata : PathBuf → FileMetadata}
    {report : ProcessReport} {status : PythonSymbolizationStatus} {symbolizer : Symbolizer}
    {mapsText : String} {address : UInt64}
    (hload : Symbolizer.load system metadata report status = .ok symbolizer)
    (htext : system.readToString (.ofString s!"/proc/{report.target.pid}/maps") = .ok mapsText)
    (hpython : findPerfSymbol symbolizer.pythonSymbols address = none) :
    ∃ found,
      lookupExecutable mapsText (.ofString s!"/proc/{report.target.pid}/maps") address =
        .ok found ∧
      (symbolizer.symbolize system address).modulePath =
        found.map (fun entry => system.toStringLossy entry.1) ∧
      (symbolizer.symbolize system address).fileOffset = found.map Prod.snd := by
  obtain ⟨text, htext', h⟩ := of_bind hload
  rw [mapError_eq_ok_iff, htext] at htext'
  cases htext'
  obtain ⟨maps, hmaps, h⟩ := of_bind h
  obtain ⟨python, -, h⟩ := of_bind h
  cases h
  refine ⟨_, bind_eq_ok_iff.mpr ⟨maps, hmaps, rfl⟩, ?_⟩
  simp only [Symbolizer.symbolize, hpython, Symbolizer.nativeFrame]
  cases executableMapping maps address with
  | none => exact ⟨rfl, rfl⟩
  | some entry => exact ⟨rfl, rfl⟩

/-! ## One line, read by both parsers -/

/-- A path starts with a slash when its first word does. -/
private theorem startsWith_slash_intercalate (words : List String) :
    Text.startsWith (String.intercalate " " words) "/" =
      words.head?.any (Text.startsWith · "/") := by
  rw [Text.startsWith, String.toList_intercalate]
  match words with
  | [] => rfl
  | [word] => simp [Text.startsWith]
  | word :: next :: rest =>
    rw [List.map_cons, List.map_cons, List.intercalate_cons_cons, List.head?_cons, Option.any_some,
      Text.startsWith]
    -- an empty first word is followed by the separator, which is no slash either
    cases hword : word.toList with
    | nil => simp [List.isPrefixOf]
    | cons c letters => simp [List.isPrefixOf]

section Line

variable {line : String} {mapsPath : PathBuf} {region : MapRegion}

/-- What a line has that `resolve` reads as a mapping. -/
private theorem fields_of_parseMapRegion (h : parseMapRegion line mapsPath = .ok region) :
    ∃ range permissions offset device inode first last,
      (Text.splitWhitespace line)[0]? = some range ∧
      (Text.splitWhitespace line)[1]? = some permissions ∧
      (Text.splitWhitespace line)[2]? = some offset ∧
      (Text.splitWhitespace line)[3]? = some device ∧
      (Text.splitWhitespace line)[4]? = some inode ∧
      Text.splitOnce range '-' = some (first, last) ∧
      Text.fromStrRadix16 first = some region.startAddress ∧
      Text.fromStrRadix16 last = some region.endAddress ∧
      Text.fromStrRadix16 offset = some region.fileOffset ∧
      ¬region.endAddress ≤ region.startAddress ∧
      region.path = .ofString (String.intercalate " " ((Text.splitWhitespace line).drop 5)) := by
  unfold parseMapRegion at h
  obtain ⟨range, hrange, h⟩ := of_bind h
  obtain ⟨permissions, hpermissions, h⟩ := of_bind h
  obtain ⟨offset, hoffset, h⟩ := of_bind h
  obtain ⟨device, hdevice, h⟩ := of_bind h
  obtain ⟨inode, hinode, h⟩ := of_bind h
  obtain ⟨⟨first, last⟩, hcut, h⟩ := of_bind h
  obtain ⟨startAddress, hstart, h⟩ := of_bind h
  obtain ⟨endAddress, hend, h⟩ := of_bind h
  obtain ⟨fileOffset, hfile, h⟩ := of_bind h
  obtain ⟨_, hvalid, h⟩ := of_bind h
  cases h
  rw [ensure_eq_ok_iff, not_or] at hvalid
  exact ⟨range, permissions, offset, device, inode, first, last, okOr_eq_ok_iff.mp hrange,
    okOr_eq_ok_iff.mp hpermissions, okOr_eq_ok_iff.mp hoffset, okOr_eq_ok_iff.mp hdevice,
    okOr_eq_ok_iff.mp hinode, okOr_eq_ok_iff.mp hcut, okOr_eq_ok_iff.mp hstart,
    okOr_eq_ok_iff.mp hend, okOr_eq_ok_iff.mp hfile, hvalid.1, rfl⟩

variable (h : fileRegion mapsPath line = some region)

include h

private theorem fileRegion_eq_some :
    isFileBacked line = true ∧ parseMapRegion line mapsPath = .ok region := by
  unfold fileRegion at h
  split_ifs at h with hbacked
  cases hparse : parseMapRegion line mapsPath with
  | error error =>
    rw [hparse] at h
    cases h
  | ok found =>
    rw [hparse] at h
    cases h
    exact ⟨hbacked, rfl⟩

/-- The address range of a mapping is the one at the start of its line, and is not empty. -/
private theorem addressRange_of_fileRegion :
    addressRange line = some (region.startAddress, region.endAddress) ∧
      region.startAddress < region.endAddress := by
  obtain ⟨range, _, _, _, _, first, last, hrange, -, -, -, -, hcut, hstart, hend, -, hvalid, -⟩ :=
    fields_of_parseMapRegion (fileRegion_eq_some h).2
  refine ⟨?_, not_le.mp hvalid⟩
  simp [addressRange, hrange, hcut, hstart, hend]

/-- The line of a mapping of a file is read by `symbolize` as the same mapping when it is
    executable, with the mark of a deleted file removed. -/
private theorem parseMapLine_of_fileRegion : ∃ mappedPath, region.path = .ofString mappedPath ∧
      parseMapLine line mapsPath = .ok (if isExecutable line then
        some { region with path := .ofString (withoutDeleted mappedPath) } else none) := by
  obtain ⟨hbacked, hparse⟩ := fileRegion_eq_some h
  obtain ⟨range, permissions, offset, device, inode, first, last, hrange, hpermissions, hoffset,
    hdevice, hinode, hcut, hstart, hend, hfile, hvalid, hpath⟩ := fields_of_parseMapRegion hparse
  refine ⟨_, hpath, ?_⟩
  have hslash : Text.startsWith
      (String.intercalate " " ((Text.splitWhitespace line).drop 5)) "/" = true := by
    rw [startsWith_slash_intercalate, List.head?_drop]
    exact hbacked
  have hnonempty : String.intercalate " " ((Text.splitWhitespace line).drop 5) ≠ "" := by
    intro hempty
    rw [hempty] at hslash
    cases hslash
  have hregion : ∀ mappedPath, parseExecutableRegion range offset mappedPath mapsPath =
      .ok { region with path := .ofString (withoutDeleted mappedPath) } := by
    intro mappedPath
    simp only [parseExecutableRegion, parseMapHex, hcut, hstart, hend, hfile, okOr_some, ok_bind,
      ensure_of hvalid]
    rfl
  have hexecutable : isExecutable line = permissions.toList.contains 'x' := by
    rw [isExecutable, hpermissions, Option.any_some]
  simp only [parseMapLine, requiredField, hrange, hpermissions, hoffset, hdevice, hinode, okOr_some,
    ok_bind, if_neg hnonempty, hslash, hregion, hexecutable]
  cases permissions.toList.contains 'x' <;> rfl

omit h

private theorem isComplete_of_parseMapLine {found : Option MapRegion}
    (h : parseMapLine line mapsPath = .ok found) : isComplete line = true := by
  unfold parseMapLine at h
  obtain ⟨_, -, h⟩ := of_bind h
  obtain ⟨_, -, h⟩ := of_bind h
  obtain ⟨_, -, h⟩ := of_bind h
  obtain ⟨_, -, h⟩ := of_bind h
  obtain ⟨inode, hinode, -⟩ := of_bind h
  have hlength := (List.getElem?_eq_some_iff.mp (okOr_eq_ok_iff.mp hinode)).1
  rw [isComplete, decide_eq_true_eq]
  omega

/-- A complete line of another kind is passed over. -/
private theorem parseMapLine_of_not_backed (hbacked : isFileBacked line = false)
    (hcomplete : isComplete line = true) : parseMapLine line mapsPath = .ok none := by
  rw [isComplete, decide_eq_true_eq] at hcomplete
  have hfield : ∀ index name, index < 5 →
      ∃ field, requiredField (Text.splitWhitespace line) index mapsPath name = .ok field := by
    intro index name hindex
    refine ⟨(Text.splitWhitespace line)[index], ?_⟩
    rw [requiredField, List.getElem?_eq_getElem (by omega), okOr_some]
  obtain ⟨range, hrange⟩ := hfield 0 "address range" (by omega)
  obtain ⟨permissions, hpermissions⟩ := hfield 1 "permissions" (by omega)
  obtain ⟨offset, hoffset⟩ := hfield 2 "file offset" (by omega)
  obtain ⟨device, hdevice⟩ := hfield 3 "device" (by omega)
  obtain ⟨inode, hinode⟩ := hfield 4 "inode" (by omega)
  have hslash : Text.startsWith
      (String.intercalate " " ((Text.splitWhitespace line).drop 5)) "/" = false := by
    rw [startsWith_slash_intercalate, List.head?_drop]
    exact hbacked
  simp only [parseMapLine, hrange, hpermissions, hoffset, hdevice, hinode, ok_bind, hslash,
    Bool.not_false, Bool.or_true, if_true, ite_self]
  rfl

end Line

/-! ## The whole map -/

section Maps

variable {mapsText : String} {mapsPath : PathBuf}

/-- `resolve` has read every line of a file. -/
private theorem parseMaps_eq_ok {maps : List MapRegion}
    (h : parseMaps mapsText mapsPath = .ok maps) :
    maps = (Text.lines mapsText).filterMap (fileRegion mapsPath) ∧
      ∀ line ∈ Text.lines mapsText, isFileBacked line = true →
        ∃ region, fileRegion mapsPath line = some region := by
  have hmap := mapM_eq_ok_iff.mp h
  constructor
  · have hregions : (((Text.lines mapsText).filter isFileBacked).map
        (parseMapRegion · mapsPath)).filterMap Except.toOption = maps := by
      rw [hmap, List.filterMap_map]
      exact List.filterMap_some
    rw [← hregions, List.filterMap_map, List.filterMap_filter]
    rfl
  · intro line hline hbacked
    have hmem : parseMapRegion line mapsPath ∈ maps.map Except.ok := by
      rw [← hmap]
      exact List.mem_map_of_mem (List.mem_filter.mpr ⟨hline, hbacked⟩)
    obtain ⟨region, -, hregion⟩ := List.mem_map.mp hmem
    refine ⟨region, ?_⟩
    rw [fileRegion, if_pos hbacked, ← hregion]
    rfl

/-- `symbolize` has read every line, and keeps what it made of them. -/
private theorem parseExecutableMaps_eq_ok {maps : List MapRegion}
    (h : parseExecutableMaps mapsText mapsPath = .ok maps) :
    (∀ line ∈ Text.lines mapsText, isComplete line = true) ∧
      ∀ mapping, mapping ∈ maps ↔
        ∃ line ∈ Text.lines mapsText, parseMapLine line mapsPath = .ok (some mapping) := by
  obtain ⟨mappings, hmappings, h⟩ := of_bind h
  cases h
  rw [mapM_eq_ok_iff] at hmappings
  constructor
  · intro line hline
    have hmem : parseMapLine line mapsPath ∈ mappings.map Except.ok := by
      rw [← hmappings]
      exact List.mem_map_of_mem hline
    obtain ⟨found, -, hfound⟩ := List.mem_map.mp hmem
    exact isComplete_of_parseMapLine hfound.symm
  · intro mapping
    rw [List.reduceOption_mem_iff]
    have hok : some mapping ∈ mappings ↔ Except.ok (some mapping) ∈
        mappings.map (@Except.ok CpuAnalysisError _) := by
      rw [List.mem_map_of_injective (fun _ _ => Except.ok.inj)]
    rw [hok, ← hmappings, List.mem_map]

private theorem exists_parseExecutableMaps
    (hbacked : ∀ line ∈ Text.lines mapsText, isFileBacked line = true →
      ∃ region, fileRegion mapsPath line = some region)
    (hcomplete : ∀ line ∈ Text.lines mapsText, isComplete line = true) :
    ∃ maps, parseExecutableMaps mapsText mapsPath = .ok maps := by
  have hline : ∀ line ∈ Text.lines mapsText, ∃ found, parseMapLine line mapsPath = .ok found := by
    intro line hline
    cases hkind : isFileBacked line with
    | false => exact ⟨none, parseMapLine_of_not_backed hkind (hcomplete line hline)⟩
    | true =>
      obtain ⟨region, hregion⟩ := hbacked line hline hkind
      obtain ⟨_, -, hparse⟩ := parseMapLine_of_fileRegion hregion
      exact ⟨_, hparse⟩
  obtain ⟨mappings, hmappings⟩ : ∃ mappings,
      (Text.lines mapsText).mapM (parseMapLine · mapsPath) = .ok mappings := by
    refine ⟨(Text.lines mapsText).map
      (fun line => (parseMapLine line mapsPath).toOption.join), mapM_eq_ok_iff.mpr ?_⟩
    rw [List.map_map]
    refine List.map_congr_left ?_
    intro line hmem
    obtain ⟨found, hfound⟩ := hline line hmem
    rw [Function.comp_apply, hfound]
    rfl
  exact ⟨mappings.reduceOption, bind_eq_ok_iff.mpr ⟨mappings, hmappings, rfl⟩⟩

/-- One address lies in the mapping of one line. -/
private theorem line_eq_of_mem {line line' : String} {region region' : MapRegion}
    {address : UInt64} (hdisjoint : DisjointRanges mapsText)
    (hline : line ∈ Text.lines mapsText) (hline' : line' ∈ Text.lines mapsText)
    (hregion : fileRegion mapsPath line = some region)
    (hregion' : fileRegion mapsPath line' = some region')
    (haddress : region.startAddress ≤ address ∧ address < region.endAddress)
    (haddress' : region'.startAddress ≤ address ∧ address < region'.endAddress) :
    line = line' := by
  by_contra hne
  have hpair := List.pairwise_filterMap.mp hdisjoint
  have : Std.Symm (fun line line' : String =>
      ∀ range, addressRange line = some range → ∀ range', addressRange line' = some range' →
        range.2 ≤ range'.1 ∨ range'.2 ≤ range.1) :=
    ⟨fun _ _ h range hrange range' hrange' => (h range' hrange' range hrange).symm⟩
  rcases hpair.forall hline hline' hne _ (addressRange_of_fileRegion hregion).1 _
    (addressRange_of_fileRegion hregion').1 with hbefore | hafter
  · exact absurd (lt_of_lt_of_le haddress.2 hbefore) (not_lt.mpr haddress'.1)
  · exact absurd (lt_of_lt_of_le haddress'.2 hafter) (not_lt.mpr haddress.1)

end Maps

/-! ## The two directions -/

/-- The address of an offset lies in the mapping, and leads back to the offset. -/
private theorem runtimeAddress_mem {region : MapRegion} {offset : UInt64}
    (hrange : region.startAddress < region.endAddress)
    (hoffset : regionContainsOffset region offset = true) :
    (region.startAddress ≤ region.startAddress + (offset - region.fileOffset) ∧
      region.startAddress + (offset - region.fileOffset) < region.endAddress) ∧
    region.fileOffset +
      (region.startAddress + (offset - region.fileOffset) - region.startAddress) = offset := by
  rw [regionContainsOffset, Bool.and_eq_true, decide_eq_true_eq, decide_eq_true_eq] at hoffset
  obtain ⟨-, hlength⟩ := hoffset
  refine ⟨?_, by rw [add_sub_cancel_left, add_sub_cancel]⟩
  generalize offset - region.fileOffset = delta at hlength
  have hend := region.endAddress.toNat_lt
  rw [UInt64.lt_iff_toNat_lt, UInt64.toNat_sub_of_le _ _ (le_of_lt hrange)] at hlength
  rw [UInt64.lt_iff_toNat_lt] at hrange
  -- the sum stays below the end of the mapping, so it does not wrap
  have hsum : (region.startAddress + delta).toNat = region.startAddress.toNat + delta.toNat := by
    rw [UInt64.toNat_add, Nat.mod_eq_of_lt (by omega)]
  rw [UInt64.le_iff_toNat_le, UInt64.lt_iff_toNat_lt, hsum]
  omega

private theorem mapPathMatches_ofString (system : System) (mappedPath : String) (binary : PathBuf) :
    mapPathMatches system (.ofString mappedPath) binary =
      (PathBuf.ofString (withoutDeleted mappedPath)).samePath binary := by
  rw [mapPathMatches, toStringLossy_ofString, withoutDeleted]

/-- The mapping that `resolve` uses is the one of the first line for the offset. -/
private theorem firstMapping_of_find {system : System} {mapsText : String}
    {mapsPath binary : PathBuf} {maps : List MapRegion} {region : MapRegion} {offset : UInt64}
    (hmaps : maps = (Text.lines mapsText).filterMap (fileRegion mapsPath))
    (h : (maps.filter (fun region => mapPathMatches system region.path binary)).find?
      (regionContainsOffset · offset) = some region) :
    ∃ line, firstMapping system mapsText mapsPath binary offset = some line ∧
      line ∈ Text.lines mapsText ∧ fileRegion mapsPath line = some region ∧
      mapPathMatches system region.path binary = true ∧
      regionContainsOffset region offset = true := by
  have hfilter := List.find?_some h
  have hpath := (List.mem_filter.mp (List.mem_of_find?_eq_some h)).2
  rw [List.find?_filter, hmaps, List.find?_filterMap] at h
  obtain ⟨line, hline, hregion⟩ := Option.bind_eq_some_iff.mp h
  refine ⟨line, ?_, List.mem_of_find?_eq_some hline, hregion, hpath, hfilter⟩
  rw [← hline, firstMapping]
  congr 1
  funext line
  simp [mapsOffset]

section Lookup

variable {mapsText line : String} {mapsPath : PathBuf} {region : MapRegion} {address : UInt64}
  (hbacked : ∀ line ∈ Text.lines mapsText, isFileBacked line = true →
    ∃ region, fileRegion mapsPath line = some region)
  (hdisjoint : DisjointRanges mapsText) (hline : line ∈ Text.lines mapsText)
  (hregion : fileRegion mapsPath line = some region)
  (haddress : region.startAddress ≤ address ∧ address < region.endAddress)

include hbacked hdisjoint hline hregion haddress

/-- An executable mapping that holds an address of a file mapping is on the line of that mapping. -/
private theorem line_eq_of_executable {other : String} {mapping : MapRegion}
    (hother : other ∈ Text.lines mapsText)
    (hmapping : parseMapLine other mapsPath = .ok (some mapping))
    (hin : mapping.startAddress ≤ address ∧ address < mapping.endAddress) : line = other := by
  have hkind : isFileBacked other = true := by
    by_contra hnot
    rw [Bool.not_eq_true] at hnot
    rw [parseMapLine_of_not_backed hnot (isComplete_of_parseMapLine hmapping)] at hmapping
    cases hmapping
  obtain ⟨region', hregion'⟩ := hbacked other hother hkind
  obtain ⟨_, -, hparse⟩ := parseMapLine_of_fileRegion hregion'
  rw [hparse] at hmapping
  split_ifs at hmapping
  · cases hmapping
    exact line_eq_of_mem hdisjoint hline hother hregion hregion' haddress hin
  · cases hmapping

private theorem executable_of_lookup {found : PathBuf × UInt64}
    (h : lookupExecutable mapsText mapsPath address = .ok (some found)) :
    (∀ line ∈ Text.lines mapsText, isComplete line = true) ∧ isExecutable line = true := by
  obtain ⟨maps, hmaps, hfound⟩ := of_bind h
  obtain ⟨hcomplete, hmem⟩ := parseExecutableMaps_eq_ok hmaps
  obtain ⟨entry, hentry, -⟩ := Option.map_eq_some_iff.mp (Except.ok.inj hfound)
  obtain ⟨mapping, hfind, -⟩ := Option.map_eq_some_iff.mp hentry
  obtain ⟨other, hother, hmapping⟩ := (hmem mapping).mp (List.mem_of_find?_eq_some hfind)
  have hin := List.find?_some hfind
  rw [Bool.and_eq_true, decide_eq_true_eq, decide_eq_true_eq] at hin
  obtain rfl := line_eq_of_executable hbacked hdisjoint hline hregion haddress hother hmapping hin
  obtain ⟨_, -, hparse⟩ := parseMapLine_of_fileRegion hregion
  refine ⟨hcomplete, ?_⟩
  by_contra hnot
  rw [hparse, if_neg hnot] at hmapping
  cases hmapping

private theorem lookup_of_executable
    (hcomplete : ∀ line ∈ Text.lines mapsText, isComplete line = true)
    (hexecutable : isExecutable line = true) :
    ∃ mappedPath, region.path = .ofString mappedPath ∧
      lookupExecutable mapsText mapsPath address =
        .ok (some (.ofString (withoutDeleted mappedPath),
          region.fileOffset + (address - region.startAddress))) := by
  obtain ⟨mappedPath, hpath, hparse⟩ := parseMapLine_of_fileRegion hregion
  rw [if_pos hexecutable] at hparse
  obtain ⟨maps, hmaps⟩ := exists_parseExecutableMaps hbacked hcomplete
  have hmem := (parseExecutableMaps_eq_ok hmaps).2
  -- the lookup finds a mapping, because the one on this line holds the address
  have hsome : (maps.find? (fun mapping =>
      mapping.startAddress ≤ address && address < mapping.endAddress)).isSome = true := by
    apply List.find?_isSome.mpr
    refine ⟨_, (hmem _).mpr ⟨line, hline, hparse⟩, ?_⟩
    rw [Bool.and_eq_true, decide_eq_true_eq, decide_eq_true_eq]
    exact haddress
  obtain ⟨mapping, hfind⟩ := Option.isSome_iff_exists.mp hsome
  obtain ⟨other, hother, hmapping⟩ := (hmem mapping).mp (List.mem_of_find?_eq_some hfind)
  have hin := List.find?_some hfind
  rw [Bool.and_eq_true, decide_eq_true_eq, decide_eq_true_eq] at hin
  -- and the one it finds is on this line too
  obtain rfl := line_eq_of_executable hbacked hdisjoint hline hregion haddress hother hmapping hin
  rw [hparse] at hmapping
  cases hmapping
  refine ⟨mappedPath, hpath, bind_eq_ok_iff.mpr ⟨maps, hmaps, ?_⟩⟩
  rw [executableMapping, hfind]
  rfl

end Lookup

def LooksUp (mapsText : String) (mapsPath : PathBuf) (address : UInt64) (binary : PathBuf)
    (offset : UInt64) : Prop :=
  ∃ path, lookupExecutable mapsText mapsPath address = .ok (some (path, offset)) ∧
    path.samePath binary = true

/-- The lookup for CPU stacks leads from the runtime address of a resolved probe back to the binary
    and the file offset of the probe exactly when every line of the memory map is complete and the
    first mapping of the binary that holds the offset is executable. That some later mapping of the
    offset is executable does not help. -/
theorem lookup_resolved_iff (system : System) (report : ProcessReport) (text mapsText : String)
    (probe : ResolvedProbe) (selector : HostSelector) (binary : PathBuf)
    (hresolve : resolveRun system report text = .ok probe)
    (hselector : parseSelector text = .ok selector)
    (hbinary : system.canonicalize selector.binary = .ok binary)
    (htext : system.readToString (.ofString s!"/proc/{report.target.pid}/maps") = .ok mapsText)
    (hdisjoint : DisjointRanges mapsText) :
    LooksUp mapsText (.ofString s!"/proc/{report.target.pid}/maps") probe.runtimeAddress binary
        probe.fileOffset ↔
      (∀ line ∈ Text.lines mapsText, isComplete line = true) ∧
      ∃ line, firstMapping system mapsText (.ofString s!"/proc/{report.target.pid}/maps") binary
        probe.fileOffset = some line ∧ isExecutable line = true := by
  obtain ⟨selector', binary', mapsText', maps, file, resolved, region, hselector', hbinary', htext',
    hmaps, -, hfind, _, _, rfl⟩ := resolveRun_steps hresolve
  obtain rfl : selector = selector' := Except.ok.inj (hselector.symm.trans hselector')
  obtain rfl : binary = binary' := Except.ok.inj (hbinary.symm.trans hbinary')
  obtain rfl : mapsText = mapsText' := Except.ok.inj (htext.symm.trans htext')
  generalize PathBuf.ofString s!"/proc/{report.target.pid}/maps" = mapsPath at hmaps ⊢
  obtain ⟨hregions, hbacked⟩ := parseMaps_eq_ok hmaps
  obtain ⟨line, hfirst, hline, hregion, hpath, hoffset⟩ := firstMapping_of_find hregions hfind
  obtain ⟨haddress, hback⟩ := runtimeAddress_mem (addressRange_of_fileRegion hregion).2 hoffset
  constructor
  · rintro ⟨path, hlookup, -⟩
    obtain ⟨hcomplete, hexecutable⟩ :=
      executable_of_lookup hbacked hdisjoint hline hregion haddress hlookup
    exact ⟨hcomplete, line, hfirst, hexecutable⟩
  · rintro ⟨hcomplete, line', hfirst', hexecutable⟩
    obtain rfl : line = line' := Option.some.inj (hfirst.symm.trans hfirst')
    obtain ⟨mappedPath, hmappedPath, hlookup⟩ :=
      lookup_of_executable hbacked hdisjoint hline hregion haddress hcomplete hexecutable
    rw [hback] at hlookup
    rw [hmappedPath, mapPathMatches_ofString] at hpath
    exact ⟨_, hlookup, hpath⟩

/-- The memory map of a process whose library has a page in two mappings. -/
def sharedPage (first second : String) : String :=
  s!"1000-2000 {first} 0 08:01 42 /usr/lib/libc.so\n" ++
    s!"2000-3000 {second} 0 08:01 42 /usr/lib/libc.so\n"

/-- The library of `libcSystem`, mapped twice. -/
def sharedSystem (first second : String) : System :=
  { libcSystem.toSystem with readToString := fun _ => .ok (sharedPage first second) }

/-- The probe of `read` in the first of the two mappings. -/
def sharedProbe : ResolvedProbe :=
  { schemaVersion := .current, ok := true, target := exampleReport.target
    selector := "uprobe:/usr/lib/libc.so:read:entry", binaryPath := "/usr/lib/libc.so"
    buildId := none, objectKind := .sharedLibrary, probeKind := .uprobe, symbol := some "read"
    symbolDemangled := none, symbolVirtualAddress := some 16, symbolSize := some 8
    fileOffset := 16, runtimeAddress := 0x1010
    mapping := { startAddress := 0x1000, endAddress := 0x2000, fileOffset := 0 } }

theorem lookup_resolved_executable :
    LooksUp (sharedPage "r-xp" "r--p") (.ofString "/proc/7/maps") 0x1010
      (.ofString "/usr/lib/libc.so") 16 :=
  (lookup_resolved_iff (sharedSystem "r-xp" "r--p") exampleReport
    "uprobe:/usr/lib/libc.so:read:entry" (sharedPage "r-xp" "r--p") sharedProbe
    { binary := .ofString "/usr/lib/libc.so", target := .symbol "read", boundary := .entry }
    (.ofString "/usr/lib/libc.so") (by decide) (by decide) rfl rfl (by decide)).mpr
    ⟨by decide, "1000-2000 r-xp 0 08:01 42 /usr/lib/libc.so", by decide, by decide⟩

/-- With the read-only mapping first, `read` is resolved to an address that is not in executable
    memory, although an executable mapping holds its offset; the lookup of the address finds
    nothing. -/
theorem lookup_resolved_readOnly :
    resolveRun (sharedSystem "r--p" "r-xp") exampleReport "uprobe:/usr/lib/libc.so:read:entry" =
        .ok sharedProbe ∧
      DisjointRanges (sharedPage "r--p" "r-xp") ∧
      (∃ mapping, parseExecutableMaps (sharedPage "r--p" "r-xp") (.ofString "/proc/7/maps") =
          .ok [mapping] ∧
        mapping.path.samePath (.ofString "/usr/lib/libc.so") = true ∧
        regionContainsOffset mapping sharedProbe.fileOffset = true) ∧
      lookupExecutable (sharedPage "r--p" "r-xp") (.ofString "/proc/7/maps")
        sharedProbe.runtimeAddress = .ok none := by
  refine ⟨by decide, by decide, ⟨⟨0x2000, 0x3000, 0, .ofString "/usr/lib/libc.so"⟩, ?_⟩, by decide⟩
  exact ⟨by decide, by decide, by decide⟩

end Xprobe.Core
