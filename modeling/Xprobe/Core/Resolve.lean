import Xprobe.Foundation.Loops
import Xprobe.Foundation.Text
import Xprobe.Foundation.Bytes
import Xprobe.Foundation.Fallible
import Xprobe.Protocol.Process

/-!
# Resolution of userspace probes

`xprobe/core/src/resolve.rs`: a `uprobe:` selector is parsed, its binary is looked up in the memory
map of the target, and its symbol or file offset in the ELF file. What the functions ask the
operating system and the crates `object` and `cpp_demangle` is a `System`.
-/

namespace Xprobe.Core

open Foundation Protocol

/-! ## Paths -/

/-- A path of the operating system: bytes, not necessarily UTF-8. -/
structure PathBuf where
  bytes : List UInt8
  deriving Repr, DecidableEq

namespace PathBuf

/-- `PathBuf::from` on a string. -/
def ofString (text : String) : PathBuf := ⟨utf8Bytes text⟩

/-- `Path::to_str`. -/
def toStr (path : PathBuf) : Option String := fromUtf8 path.bytes

/-- `Path::components`: empty and `.` components are dropped, except a leading `.`. -/
def components (path : PathBuf) : Bool × List (List UInt8) :=
  let slash : UInt8 := 0x2f
  let dot : List UInt8 := [0x2e]
  let pieces := path.bytes.splitOn slash
  let named := pieces.filter (fun piece => !piece.isEmpty && piece != dot)
  (path.bytes.head? == some slash, if pieces.head? = some dot then dot :: named else named)

/-- Equality of paths compares components. -/
def samePath (left right : PathBuf) : Bool := left.components == right.components

end PathBuf

/-! ## Errors -/

/-- The text of an `io::Error`. -/
structure IoError where
  text : String
  deriving Repr, DecidableEq

inductive InspectError where
  | targetNotFound (pid : UInt32)
  | targetExited (pid : UInt32)
  | targetReused (pid : UInt32)
  | permissionDenied (pid : UInt32) (path : PathBuf)
  | io (path : PathBuf) (source : IoError)
  | invalidProc (path : PathBuf) (reason : String)
  | environment (reason : String)
  deriving Repr, DecidableEq

inductive ResolveError where
  | inspect (error : InspectError)
  | invalidSelector (reason : String)
  | binaryNotMapped (path : PathBuf) (pid : UInt32)
  | symbolNotFound (symbol : String) (path : PathBuf)
  | ambiguousSymbol (symbol : String) (path : PathBuf)
  | offsetNotLoadable (offset : UInt64) (path : PathBuf)
  | addressNotMapped (offset : UInt64) (path : PathBuf)
  | io (path : PathBuf) (source : IoError)
  | invalidMaps (path : PathBuf) (reason : String)
  | invalidElf (path : PathBuf) (reason : String)
  | unsupportedElf (path : PathBuf)
  deriving Repr, DecidableEq

/-! ## ELF files -/

/-- `object::ObjectKind`. -/
inductive ObjectKind where
  | unknown
  | relocatable
  | executable
  | dynamic
  | core
  deriving Repr, DecidableEq

structure ElfSegment where
  address : UInt64
  fileOffset : UInt64
  fileSize : UInt64
  deriving Repr, DecidableEq

/-- A symbol: `name` is absent when it is not valid UTF-8. -/
structure ElfSymbol where
  isDefinition : Bool
  isText : Bool
  name : Option String
  address : UInt64
  size : UInt64
  deriving Repr, DecidableEq

/-- What resolution reads of a parsed `object::File`. -/
structure ElfFile where
  kind : ObjectKind
  buildId : Except String (Option (List UInt8))
  segments : List ElfSegment
  dynamicSymbols : List ElfSymbol
  symbols : List ElfSymbol

/-- What resolution asks its environment. The start time of the target is read twice. -/
structure System where
  startTimeBefore : Except InspectError UInt64
  startTimeAfter : Except InspectError UInt64
  canonicalize : PathBuf → Except IoError PathBuf
  readToString : PathBuf → Except IoError String
  read : PathBuf → Except IoError (List UInt8)
  parseElf : List UInt8 → Except String ElfFile
  /-- `cpp_demangle`, on a name that starts with `_Z`. -/
  demangle : String → Option String
  /-- What `to_string_lossy` makes of a path that is not valid UTF-8. -/
  replaceInvalid : List UInt8 → String

/-- `Path::to_string_lossy`. -/
def System.toStringLossy (system : System) (path : PathBuf) : String :=
  match path.toStr with
  | some text => text
  | none => system.replaceInvalid path.bytes

/-- A path that was made from a text is shown as that text. -/
theorem toStringLossy_ofString (system : System) (text : String) :
    system.toStringLossy (.ofString text) = text := by
  simp [System.toStringLossy, PathBuf.toStr, PathBuf.ofString]

/-- `inspect::verify_target`, from one reading of the start time. -/
def verifyTarget (reading : Except InspectError UInt64) (target : TargetIdentity) :
    Except InspectError Unit := do
  let current ← reading
  ensure (current = target.processStartTime) (.targetReused target.pid)

/-! ## Parsing -/

inductive Boundary where
  | entry
  | «return»
  deriving Repr, DecidableEq

inductive ProbeTarget where
  | symbol (name : String)
  | fileOffset (value : UInt64)
  deriving Repr, DecidableEq

/-- A parsed `uprobe:` selector. -/
structure HostSelector where
  binary : PathBuf
  target : ProbeTarget
  boundary : Boundary
  deriving Repr, DecidableEq

def parseBoundary (boundary : String) : Except ResolveError Boundary :=
  match boundary with
  | "entry" => .ok .entry
  | "return" => .ok .return
  | _ => .error (.invalidSelector "probe boundary must be entry or return")

/-- The binary path and the target text: cut at the first `:symbol=`, otherwise at the last
    colon. -/
def splitTarget (binaryAndTarget : String) : Except ResolveError (String × String) :=
  match Text.splitOnceStr binaryAndTarget ":symbol=" with
  | some parts => .ok parts
  | none =>
    okOr (Text.rsplitOnce binaryAndTarget ':')
      (.invalidSelector "expected binary path and symbol or offset")

/-- The target after the binary path. -/
def parseTarget (target : String) : Except ResolveError ProbeTarget :=
  match Text.stripPrefix target "+0x" with
  | some hex =>
    match Text.fromStrRadix16 hex with
    | some offset => .ok (.fileOffset offset)
    | none => .error (.invalidSelector "offset must be hexadecimal after +0x")
  | none =>
    if Text.startsWith target "+" then
      .error (.invalidSelector "offset must use +0x hexadecimal syntax")
    else .ok (.symbol target)

/-- `parse_selector`. -/
def parseSelector (text : String) : Except ResolveError HostSelector := do
  let rest ← okOr (Text.stripPrefix text "uprobe:") (.invalidSelector "expected uprobe: prefix")
  let (binaryAndTarget, boundary) ← okOr (Text.rsplitOnce rest ':')
    (.invalidSelector "expected :entry or :return suffix")
  let boundary ← parseBoundary boundary
  let (binary, target) ← splitTarget binaryAndTarget
  ensure (¬(binary = "" ∨ target = ""))
    (.invalidSelector "binary path and probe target must not be empty")
  let target ← parseTarget target
  return { binary := .ofString binary, target, boundary }

/-! ## The memory map -/

structure MapRegion where
  startAddress : UInt64
  endAddress : UInt64
  fileOffset : UInt64
  path : PathBuf
  deriving Repr, DecidableEq

/-- `parse_hex`. -/
def parseHex (value : String) (path : PathBuf) (reason : String) : Except ResolveError UInt64 :=
  okOr (Text.fromStrRadix16 value) (.invalidMaps path reason)

/-- `parse_map_region`. The path may hold spaces, so it is what remains after five fields. -/
def parseMapRegion (line : String) (path : PathBuf) : Except ResolveError MapRegion := do
  let fields := Text.splitWhitespace line
  let invalidMaps (reason : String) : ResolveError := .invalidMaps path reason
  let range ← okOr fields[0]? (invalidMaps "missing address range")
  let _permissions ← okOr fields[1]? (invalidMaps "missing permissions")
  let offset ← okOr fields[2]? (invalidMaps "missing file offset")
  let _device ← okOr fields[3]? (invalidMaps "missing device")
  let _inode ← okOr fields[4]? (invalidMaps "missing inode")
  let mappedPath := String.intercalate " " (fields.drop 5)
  let (first, last) ← okOr (Text.splitOnce range '-') (invalidMaps "invalid address range")
  let startAddress ← parseHex first path "invalid mapping start"
  let endAddress ← parseHex last path "invalid mapping end"
  let fileOffset ← parseHex offset path "invalid mapping file offset"
  ensure (¬(endAddress ≤ startAddress ∨ mappedPath = ""))
    (invalidMaps "invalid file-backed mapping")
  return { startAddress, endAddress, fileOffset, path := .ofString mappedPath }

/-- The line of a memory map belongs to a file. -/
def isFileBacked (line : String) : Bool :=
  (Text.splitWhitespace line)[5]?.any (Text.startsWith · "/")

/-- `parse_maps`. -/
def parseMaps (text : String) (path : PathBuf) : Except ResolveError (List MapRegion) :=
  ((Text.lines text).filter isFileBacked).mapM (parseMapRegion · path)

/-- `map_path_matches`. -/
def mapPathMatches (system : System) (mapped binary : PathBuf) : Bool :=
  let mapped := system.toStringLossy mapped
  (PathBuf.ofString ((Text.stripSuffix mapped " (deleted)").getD mapped)).samePath binary

/-- `region_contains_offset`. -/
def regionContainsOffset (region : MapRegion) (offset : UInt64) : Bool :=
  region.fileOffset ≤ offset && offset - region.fileOffset < region.endAddress - region.startAddress

/-! ## Symbols and offsets -/

structure ResolvedSymbol where
  mangled : String
  demangled : Option String
  address : UInt64
  size : UInt64
  deriving Repr, DecidableEq

/-- `demangle_cpp`. -/
def demangleCpp (system : System) (name : String) : Option String :=
  if Text.startsWith name "_Z" then system.demangle name else none

def comparedName (system : System) (matchDemangled : Bool) (mangled : String) : Option String :=
  if matchDemangled then demangleCpp system mangled else some mangled

/-- One turn of the loop of `collect_symbol_matches`. -/
def symbolStep (system : System) (name : String) (matchDemangled : Bool)
    (found : BTreeMap UInt64 ResolvedSymbol) (symbol : ElfSymbol) :
    BTreeMap UInt64 ResolvedSymbol :=
  if !symbol.isDefinition || !symbol.isText then found
  else
    match symbol.name with
    | none => found
    | some mangled =>
      if comparedName system matchDemangled mangled ≠ some name then found
      else
        match found.get? symbol.address with
        | some resolved =>
          found.insert symbol.address { resolved with size := max resolved.size symbol.size }
        | none =>
          found.insert symbol.address
            { mangled, demangled := demangleCpp system mangled, address := symbol.address
              size := symbol.size }

/-- `collect_symbol_matches`, from an empty map. -/
def collectSymbolMatches (system : System) (symbols : List ElfSymbol) (name : String)
    (matchDemangled : Bool) : BTreeMap UInt64 ResolvedSymbol :=
  symbols.foldl (symbolStep system name matchDemangled) .empty

/-- `select_symbol_match`. -/
def selectSymbolMatch (found : BTreeMap UInt64 ResolvedSymbol) (name : String) (path : PathBuf) :
    Except ResolveError (Option ResolvedSymbol) :=
  match found.values with
  | [] => .ok none
  | [resolved] => .ok (some resolved)
  | _ => .error (.ambiguousSymbol name path)

/-- `resolve_symbol`: by the name in the symbol tables, then by the demangled name, in the dynamic
    table first. -/
def resolveSymbol (system : System) (file : ElfFile) (name : String) (path : PathBuf) :
    Except ResolveError ResolvedSymbol := do
  let found := collectSymbolMatches system (file.dynamicSymbols ++ file.symbols) name false
  match ← selectSymbolMatch found name path with
  | some resolved => return resolved
  | none =>
    let found := collectSymbolMatches system file.dynamicSymbols name true
    match ← selectSymbolMatch found name path with
    | some resolved => return resolved
    | none =>
      let found := collectSymbolMatches system file.symbols name true
      okOr (← selectSymbolMatch found name path) (.symbolNotFound name path)

/-- `virtual_address_to_file_offset`. Additions wrap, as in a release build. -/
def virtualAddressToFileOffset (file : ElfFile) (address : UInt64) : Option UInt64 :=
  file.segments.findSome? (fun segment => do
    let delta ← checkedSub address segment.address
    if delta < segment.fileSize then some (segment.fileOffset + delta) else none)

/-- `file_offset_to_virtual_address`. -/
def fileOffsetToVirtualAddress (file : ElfFile) (offset : UInt64) : Option UInt64 :=
  file.segments.findSome? (fun segment => do
    let delta ← checkedSub offset segment.fileOffset
    if delta < segment.fileSize then some (segment.address + delta) else none)

structure ResolvedProbeTarget where
  symbol : Option String
  symbolDemangled : Option String
  symbolVirtualAddress : Option UInt64
  symbolSize : Option UInt64
  fileOffset : UInt64
  deriving Repr, DecidableEq

/-- `resolve_probe_target`. -/
def resolveProbeTarget (system : System) (file : ElfFile) (target : ProbeTarget)
    (path : PathBuf) : Except ResolveError ResolvedProbeTarget :=
  match target with
  | .symbol name => do
    let resolved ← resolveSymbol system file name path
    let fileOffset ← okOr (virtualAddressToFileOffset file resolved.address)
      (.offsetNotLoadable resolved.address path)
    return {
      symbol := some resolved.mangled
      symbolDemangled := resolved.demangled
      symbolVirtualAddress := some resolved.address
      symbolSize := some resolved.size
      fileOffset }
  | .fileOffset offset => do
    ensure ((fileOffsetToVirtualAddress file offset).isSome) (.offsetNotLoadable offset path)
    return {
      symbol := none
      symbolDemangled := none
      symbolVirtualAddress := none
      symbolSize := none
      fileOffset := offset }

/-! ## Resolution -/

/-- `classify_object`. -/
def classifyObject (system : System) (file : ElfFile) (binary : PathBuf) (executable : String) :
    Except ResolveError ElfObjectKind :=
  match file.kind with
  | .executable => .ok .executable
  | .dynamic =>
    if mapPathMatches system (.ofString executable) binary then .ok .positionIndependentExecutable
    else .ok .sharedLibrary
  | _ => .error (.unsupportedElf binary)

/-- `hex_encode`. -/
def hexEncode (bytes : List UInt8) : String :=
  String.ofList (bytes.flatMap (fun byte =>
    [Nat.digitChar (byte.toNat / 16), Nat.digitChar (byte.toNat % 16)]))

def Boundary.probeKind : Boundary → HostProbeKind
  | .entry => .uprobe
  | .return => .uretprobe

/-- The report that `resolve::run` ends with. -/
def resolvedProbe (system : System) (report : ProcessReport) (selectorText : String)
    (selector : HostSelector) (binary : PathBuf) (objectKind : ElfObjectKind)
    (buildId : Option String) (resolved : ResolvedProbeTarget) (map : MapRegion) : ResolvedProbe where
  schemaVersion := .current
  ok := true
  target := report.target
  selector := selectorText
  binaryPath := system.toStringLossy binary
  buildId
  objectKind
  probeKind := selector.boundary.probeKind
  symbol := resolved.symbol
  symbolDemangled := resolved.symbolDemangled
  symbolVirtualAddress := resolved.symbolVirtualAddress
  symbolSize := resolved.symbolSize
  fileOffset := resolved.fileOffset
  runtimeAddress := map.startAddress + (resolved.fileOffset - map.fileOffset)
  mapping :=
    { startAddress := map.startAddress, endAddress := map.endAddress, fileOffset := map.fileOffset }

/-- `resolve::run`. -/
def resolveRun (system : System) (report : ProcessReport) (selectorText : String) :
    Except ResolveError ResolvedProbe := do
  (verifyTarget system.startTimeBefore report.target).mapError .inspect
  let selector ← parseSelector selectorText
  let binary ← (system.canonicalize selector.binary).mapError (.io selector.binary)
  let mapsPath := PathBuf.ofString s!"/proc/{report.target.pid}/maps"
  let mapsText ← (system.readToString mapsPath).mapError (.io mapsPath)
  let maps ← parseMaps mapsText mapsPath
  let binaryMaps := maps.filter (fun region => mapPathMatches system region.path binary)
  ensure (binaryMaps ≠ []) (.binaryNotMapped binary report.target.pid)
  let bytes ← (system.read binary).mapError (.io binary)
  let file ← (system.parseElf bytes).mapError (.invalidElf binary)
  let objectKind ← classifyObject system file binary report.executable
  let buildId ← file.buildId.mapError (.invalidElf binary)
  let resolved ← resolveProbeTarget system file selector.target binary
  let map ← okOr (binaryMaps.find? (regionContainsOffset · resolved.fileOffset))
    (.addressNotMapped resolved.fileOffset binary)
  (verifyTarget system.startTimeAfter report.target).mapError .inspect
  return resolvedProbe system report selectorText selector binary objectKind
    (buildId.map hexEncode) resolved map

/-! ## What a resolved probe says -/

def ResolvedSymbol.KnownAs (system : System) (name : String) (matchDemangled : Bool)
    (resolved : ResolvedSymbol) : Prop :=
  resolved.demangled = demangleCpp system resolved.mangled ∧
    comparedName system matchDemangled resolved.mangled = some name

def AllKnownAs (system : System) (name : String) (matchDemangled : Bool)
    (found : BTreeMap UInt64 ResolvedSymbol) : Prop :=
  ∀ address resolved, found.get? address = some resolved →
    resolved.KnownAs system name matchDemangled

section Symbols

variable {system : System} {name : String} {matchDemangled : Bool}
  {found : BTreeMap UInt64 ResolvedSymbol} {resolved : ResolvedSymbol} {path : PathBuf}

private theorem allKnownAs_insert (h : AllKnownAs system name matchDemangled found)
    (address : UInt64) (hresolved : resolved.KnownAs system name matchDemangled) :
    AllKnownAs system name matchDemangled (found.insert address resolved) := by
  intro address' other hother
  rw [BTreeMap.get?_insert] at hother
  split_ifs at hother with haddress
  · obtain rfl := Option.some.inj hother
    exact hresolved
  · exact h _ _ hother

private theorem allKnownAs_symbolStep (h : AllKnownAs system name matchDemangled found)
    (symbol : ElfSymbol) :
    AllKnownAs system name matchDemangled
      (symbolStep system name matchDemangled found symbol) := by
  unfold symbolStep
  split_ifs with hskip
  · exact h
  · cases hname : symbol.name with
    | none => exact h
    | some mangled =>
      dsimp only
      split_ifs with hmatch
      · exact h
      · rw [not_ne_iff] at hmatch
        cases hfound : found.get? symbol.address with
        | some resolved =>
          -- a second symbol at the address changes the size only
          have hknown := h _ _ hfound
          exact allKnownAs_insert h _ ⟨hknown.1, hknown.2⟩
        | none => exact allKnownAs_insert h _ ⟨rfl, hmatch⟩

theorem collectSymbolMatches_allKnownAs (symbols : List ElfSymbol) :
    AllKnownAs system name matchDemangled
      (collectSymbolMatches system symbols name matchDemangled) := by
  refine foldl_invariant (I := fun _ found => AllKnownAs system name matchDemangled found) ?_ ?_
  · intro address resolved h
    rw [BTreeMap.get?_empty] at h
    cases h
  · intro _ symbol _ found _ h
    exact allKnownAs_symbolStep h symbol

/-- A symbol selected from a map is one of its symbols. -/
theorem selectSymbolMatch_eq_some (h : selectSymbolMatch found name path = .ok (some resolved)) :
    ∃ address, found.get? address = some resolved := by
  have hmem : resolved ∈ found.values := by
    unfold selectSymbolMatch at h
    split at h
    · cases h
    · next heq =>
      cases h
      rw [heq]
      exact List.mem_cons_self
    · cases h
  obtain ⟨⟨address, _⟩, hentry, rfl⟩ := List.mem_map.mp hmem
  exact ⟨address, BTreeMap.get?_eq_some_iff.mpr hentry⟩

private theorem known_of_select {symbols : List ElfSymbol}
    (h : selectSymbolMatch (collectSymbolMatches system symbols name matchDemangled) name path =
      .ok (some resolved)) : resolved.KnownAs system name matchDemangled := by
  obtain ⟨address, hget⟩ := selectSymbolMatch_eq_some h
  exact collectSymbolMatches_allKnownAs symbols address resolved hget

/-- A resolved symbol carries the name it was asked for, mangled or demangled. -/
theorem resolveSymbol_eq_ok {file : ElfFile} (h : resolveSymbol system file name path = .ok resolved) :
    resolved.mangled = name ∨ resolved.demangled = some name := by
  have hcases : ∃ matchDemangled, resolved.KnownAs system name matchDemangled := by
    unfold resolveSymbol at h
    obtain ⟨first, hfirst, h⟩ := of_bind h
    cases first with
    | some symbol =>
      cases h
      exact ⟨false, known_of_select hfirst⟩
    | none =>
      obtain ⟨second, hsecond, h⟩ := of_bind h
      cases second with
      | some symbol =>
        cases h
        exact ⟨true, known_of_select hsecond⟩
      | none =>
        obtain ⟨third, hthird, h⟩ := of_bind h
        rw [okOr_eq_ok_iff] at h
        subst h
        exact ⟨true, known_of_select hthird⟩
  obtain ⟨matchDemangled, hdemangled, hname⟩ := hcases
  cases matchDemangled with
  | false => exact .inl (Option.some.inj hname)
  | true => exact .inr (hdemangled.trans hname)

end Symbols

structure Resolution (system : System) (text : String) (probe : ResolvedProbe)
    (selector : HostSelector) (binary : PathBuf) : Prop where
  parsed : parseSelector text = .ok selector
  canonical : system.canonicalize selector.binary = .ok binary
  binary_path : probe.binaryPath = system.toStringLossy binary
  probe_kind : probe.probeKind = selector.boundary.probeKind
  named : ∀ name, selector.target = .symbol name →
    ∃ mangled, probe.symbol = some mangled ∧
      (mangled = name ∨ probe.symbolDemangled = some name)
  located : ∀ offset, selector.target = .fileOffset offset →
    probe.symbol = none ∧ probe.fileOffset = offset

variable {system : System}

private theorem resolveProbeTarget_symbol {file : ElfFile} {name : String} {path : PathBuf}
    {resolved : ResolvedProbeTarget}
    (h : resolveProbeTarget system file (.symbol name) path = .ok resolved) :
    ∃ mangled, resolved.symbol = some mangled ∧
      (mangled = name ∨ resolved.symbolDemangled = some name) := by
  obtain ⟨symbol, hsymbol, h⟩ := of_bind h
  obtain ⟨offset, -, h⟩ := of_bind h
  cases h
  exact ⟨symbol.mangled, rfl, resolveSymbol_eq_ok hsymbol⟩

private theorem resolveProbeTarget_fileOffset {file : ElfFile} {offset : UInt64} {path : PathBuf}
    {resolved : ResolvedProbeTarget}
    (h : resolveProbeTarget system file (.fileOffset offset) path = .ok resolved) :
    resolved.symbol = none ∧ resolved.fileOffset = offset := by
  obtain ⟨_, -, h⟩ := of_bind h
  cases h
  exact ⟨rfl, rfl⟩

/-- The steps of a resolution that succeeded. -/
theorem resolveRun_steps {report : ProcessReport} {text : String} {probe : ResolvedProbe}
    (h : resolveRun system report text = .ok probe) :
    ∃ selector binary mapsText maps file resolved region,
      parseSelector text = .ok selector ∧
      system.canonicalize selector.binary = .ok binary ∧
      system.readToString (.ofString s!"/proc/{report.target.pid}/maps") = .ok mapsText ∧
      parseMaps mapsText (.ofString s!"/proc/{report.target.pid}/maps") = .ok maps ∧
      resolveProbeTarget system file selector.target binary = .ok resolved ∧
      (maps.filter (fun region => mapPathMatches system region.path binary)).find?
        (regionContainsOffset · resolved.fileOffset) = some region ∧
      ∃ objectKind buildId, probe = resolvedProbe system report text selector binary objectKind
        buildId resolved region := by
  unfold resolveRun at h
  obtain ⟨_, -, h⟩ := of_bind h
  obtain ⟨selector, hparse, h⟩ := of_bind h
  obtain ⟨binary, hcanonical, h⟩ := of_bind h
  obtain ⟨mapsText, htext, h⟩ := of_bind h
  obtain ⟨maps, hmaps, h⟩ := of_bind h
  obtain ⟨_, -, h⟩ := of_bind h
  obtain ⟨bytes, -, h⟩ := of_bind h
  obtain ⟨file, -, h⟩ := of_bind h
  obtain ⟨objectKind, -, h⟩ := of_bind h
  obtain ⟨buildId, -, h⟩ := of_bind h
  obtain ⟨resolved, hresolved, h⟩ := of_bind h
  obtain ⟨region, hregion, h⟩ := of_bind h
  obtain ⟨_, -, h⟩ := of_bind h
  cases h
  exact ⟨selector, binary, mapsText, maps, file, resolved, region, hparse,
    mapError_eq_ok_iff.mp hcanonical, mapError_eq_ok_iff.mp htext, hmaps, hresolved,
    okOr_eq_ok_iff.mp hregion, objectKind, _, rfl⟩

theorem resolveRun_eq_ok {report : ProcessReport} {text : String} {probe : ResolvedProbe}
    (h : resolveRun system report text = .ok probe) :
    ∃ selector binary, Resolution system text probe selector binary := by
  obtain ⟨selector, binary, _, _, file, resolved, _, hparse, hcanonical, -, -, hresolved, -,
    _, _, rfl⟩ := resolveRun_steps h
  refine ⟨selector, binary, hparse, hcanonical, rfl, rfl, ?_, ?_⟩
  · intro name hname
    rw [hname] at hresolved
    exact resolveProbeTarget_symbol hresolved
  · intro offset hoffset
    rw [hoffset] at hresolved
    exact resolveProbeTarget_fileOffset hresolved

end Xprobe.Core
