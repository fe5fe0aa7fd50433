import Xprobe.Foundation.IntervalLookup
import Xprobe.Core.Resolve

/-!
# Symbolization of CPU stacks

`xprobe/core/src/cpu_sampling_analysis.rs`, the `Symbolizer`: the addresses of sampled stacks are
looked up in the symbols that a Python runtime exports, then in the executable mappings of the
target and in the symbol tables of the mapped files.

`Symbolizer.load` has a parser of its own for the memory map: unlike the one of `resolve.rs` it reads
every line, keeps the executable mappings only, and drops a ` (deleted)` suffix as it reads a path.
-/

namespace Xprobe.Core

open Foundation Protocol

inductive CpuAnalysisError where
  | inspect (error : InspectError)
  | io (path : PathBuf) (source : IoError)
  | invalidMaps (path : PathBuf) (reason : String)
  | invalidPerfMap (path : PathBuf) (reason : String)
  | invalidUtf8 (path : PathBuf)
  | limit (name : String) (value : UInt64)
  deriving Repr, DecidableEq

inductive CpuFrameLanguage where
  | native
  | python
  | unknown
  deriving Repr, DecidableEq

structure CpuStackFrame where
  address : UInt64
  modulePath : Option String
  buildId : Option String
  fileOffset : Option UInt64
  symbol : Option String
  symbolOffset : Option UInt64
  language : CpuFrameLanguage
  sourcePath : Option String
  line : Option UInt32
  deriving Repr, DecidableEq

/-! ## Executable mappings -/

/-- `required_field`, of a field by its position. -/
def requiredField (fields : List String) (index : Nat) (path : PathBuf) (name : String) :
    Except CpuAnalysisError String :=
  okOr fields[index]? (.invalidMaps path s!"missing {name}")

/-- `parse_hex`. -/
def parseMapHex (value : String) (path : PathBuf) (reason : String) :
    Except CpuAnalysisError UInt64 :=
  okOr (Text.fromStrRadix16 value) (.invalidMaps path reason)

def withoutDeleted (mappedPath : String) : String :=
  (Text.stripSuffix mappedPath " (deleted)").getD mappedPath

/-- What is read of the line of an executable mapping of a file. -/
def parseExecutableRegion (range offset mappedPath : String) (path : PathBuf) :
    Except CpuAnalysisError MapRegion := do
  let (first, last) ← okOr (Text.splitOnce range '-') (.invalidMaps path "invalid address range")
  let startAddress ← parseMapHex first path "invalid mapping start"
  let endAddress ← parseMapHex last path "invalid mapping end"
  let fileOffset ← parseMapHex offset path "invalid mapping file offset"
  ensure (¬endAddress ≤ startAddress) (.invalidMaps path "mapping start must precede its end")
  return { startAddress, endAddress, fileOffset, path := .ofString (withoutDeleted mappedPath) }

/-- `parse_map_line`: `none` for a mapping that is not executable or not of a file. -/
def parseMapLine (line : String) (path : PathBuf) : Except CpuAnalysisError (Option MapRegion) := do
  let fields := Text.splitWhitespace line
  let range ← requiredField fields 0 path "address range"
  let permissions ← requiredField fields 1 path "permissions"
  let offset ← requiredField fields 2 path "file offset"
  let _device ← requiredField fields 3 path "device"
  let _inode ← requiredField fields 4 path "inode"
  let mappedPath := String.intercalate " " (fields.drop 5)
  if mappedPath = "" then return none
  else if !permissions.toList.contains 'x' || !Text.startsWith mappedPath "/" then return none
  else
    let region ← parseExecutableRegion range offset mappedPath path
    return some region

/-- `parse_executable_maps`. -/
def parseExecutableMaps (text : String) (path : PathBuf) :
    Except CpuAnalysisError (List MapRegion) := do
  let mappings ← (Text.lines text).mapM (parseMapLine · path)
  return mappings.reduceOption

def executableMapping (maps : List MapRegion) (address : UInt64) : Option (MapRegion × UInt64) :=
  (maps.find? (fun mapping => mapping.startAddress ≤ address && address < mapping.endAddress)).map
    (fun mapping => (mapping, mapping.fileOffset + (address - mapping.startAddress)))

/-! ## Symbols of mapped files -/

/-- `slice::partition_point`, on a slice whose elements that satisfy the predicate come first. -/
def partitionPoint {α : Type} (p : α → Bool) (l : List α) : Nat := (l.takeWhile p).length

structure ModuleSymbol where
  fileOffset : UInt64
  size : UInt64
  name : String
  deriving Repr, DecidableEq

structure Module where
  buildId : Option String
  symbols : List ModuleSymbol
  deriving Repr, DecidableEq

/-- One turn of the loop of `load_module`. -/
def moduleSymbolStep (system : System) (file : ElfFile) (symbols : BTreeMap UInt64 ModuleSymbol)
    (symbol : ElfSymbol) : BTreeMap UInt64 ModuleSymbol :=
  if !symbol.isDefinition || !symbol.isText then symbols
  else
    match symbol.name, virtualAddressToFileOffset file symbol.address with
    | some name, some fileOffset =>
      match symbols.get? fileOffset with
      | some current =>
        symbols.insert fileOffset { current with size := max current.size symbol.size }
      | none =>
        symbols.insert fileOffset
          { fileOffset, size := symbol.size, name := (demangleCpp system name).getD name }
    | _, _ => symbols

/-- `load_module`. -/
def loadModule (system : System) (path : PathBuf) : Except String Module := do
  let bytes ← (system.read path).mapError IoError.text
  let file ← system.parseElf bytes
  let buildId ← file.buildId
  let symbols := (file.dynamicSymbols ++ file.symbols).foldl (moduleSymbolStep system file) .empty
  return { buildId := buildId.map hexEncode, symbols := symbols.values }

/-- `find_module_symbol`. -/
def findModuleSymbol (symbols : List ModuleSymbol) (offset : UInt64) : Option ModuleSymbol := do
  let index := partitionPoint (fun symbol => symbol.fileOffset ≤ offset) symbols
  guard (1 ≤ index)
  let symbol ← symbols[index - 1]?
  let nextStart := symbols[index]?.map ModuleSymbol.fileOffset
  let withinSize := symbol.size ≠ 0 ∧ offset - symbol.fileOffset < symbol.size
  let beforeNext := symbol.size = 0 ∧ ∀ next ∈ nextStart, offset < next
  if withinSize ∨ beforeNext then some symbol else none

/-! ## Symbols of a Python runtime -/

structure PerfMapSymbol where
  start : UInt64
  «end» : UInt64
  name : String
  deriving Repr, DecidableEq

def parsePerfLine (index : Nat) (line : String) (path : PathBuf) :
    Except CpuAnalysisError PerfMapSymbol := do
  let invalid (reason : String) : CpuAnalysisError :=
    .invalidPerfMap path s!"line {index + 1} {reason}"
  let fields := Text.splitn 3 ' ' line
  let start ← okOr (Text.fromStrRadix16 (fields[0]?.getD "")) (invalid "has an invalid address")
  let size ← okOr (Text.fromStrRadix16 (fields[1]?.getD "")) (invalid "has an invalid size")
  let name := fields[2]?.getD ""
  ensure (¬(size = 0 ∨ name = "")) (invalid "has an empty symbol or zero size")
  let last ← okOr (checkedAdd start size) (invalid "address range overflows")
  return { start, «end» := last, name }

/-- `parse_perf_map`. -/
def parsePerfMap (text : String) (path : PathBuf) :
    Except CpuAnalysisError (List PerfMapSymbol) := do
  let numbered := (Text.lines text).zipIdx.filter (fun (line, _) => line ≠ "")
  let symbols ← numbered.mapM (fun (line, index) => parsePerfLine index line path)
  return sortByKey PerfMapSymbol.start symbols

/-- `find_perf_symbol`. -/
def findPerfSymbol (symbols : List PerfMapSymbol) (address : UInt64) : Option PerfMapSymbol := do
  let index := partitionPoint (fun symbol => symbol.start ≤ address) symbols
  guard (1 ≤ index)
  let symbol ← symbols[index - 1]?
  if address < symbol.end then some symbol else none

inductive PythonSymbolizationStatus where
  | notDetected
  | inactive
  | active
  | unsupported
  deriving Repr, DecidableEq

/-- `MAX_PERF_MAP_BYTES`. -/
def maxPerfMapBytes : UInt64 := 16 * 1024 * 1024

/-- The answer of `fs::metadata`: the length of a file. -/
inductive FileMetadata where
  | found (length : UInt64)
  | notFound
  | failed (source : IoError)
  deriving Repr, DecidableEq

/-- `load_python_symbols`. -/
def loadPythonSymbols (system : System) (metadata : PathBuf → FileMetadata)
    (report : ProcessReport) (detectedStatus : PythonSymbolizationStatus) :
    Except CpuAnalysisError (List PerfMapSymbol × PythonSymbolizationStatus) :=
  if detectedStatus = .notDetected ∨ detectedStatus = .unsupported then .ok ([], detectedStatus)
  else
    let path :=
      PathBuf.ofString s!"/proc/{report.target.pid}/root/tmp/perf-{report.target.pid}.map"
    match metadata path with
    | .notFound => .ok ([], .inactive)
    | .failed source => .error (.io path source)
    | .found length => do
      ensure (¬maxPerfMapBytes < length) (.limit "Python perf map bytes" length)
      let bytes ← (system.read path).mapError (.io path)
      let text ← okOr (fromUtf8 bytes) (.invalidUtf8 path)
      let symbols ← parsePerfMap text path
      return (symbols, if symbols = [] then .inactive else .active)

/-! ## The symbolizer -/

/-- `Symbolizer`: `modules` is a map by paths, whose equality compares components. -/
structure Symbolizer where
  maps : List MapRegion
  modules : List (PathBuf × Module)
  pythonSymbols : List PerfMapSymbol
  pythonStatus : PythonSymbolizationStatus

/-- The mapped files that could be read, each once. -/
def loadModules (system : System) (maps : List MapRegion) : List (PathBuf × Module) :=
  let paths := (maps.map MapRegion.path).pwFilter (fun path path' => path.samePath path' = false)
  paths.filterMap (fun path => (loadModule system path).toOption.map (fun loaded => (path, loaded)))

/-- `Symbolizer::load`. -/
def Symbolizer.load (system : System) (metadata : PathBuf → FileMetadata) (report : ProcessReport)
    (pythonStatus : PythonSymbolizationStatus) : Except CpuAnalysisError Symbolizer := do
  let mapsPath := PathBuf.ofString s!"/proc/{report.target.pid}/maps"
  let mapsText ← (system.readToString mapsPath).mapError (.io mapsPath)
  let maps ← parseExecutableMaps mapsText mapsPath
  let (pythonSymbols, pythonStatus) ← loadPythonSymbols system metadata report pythonStatus
  return { maps, modules := loadModules system maps, pythonSymbols, pythonStatus }

/-- `unresolved_frame`. -/
def unresolvedFrame (address : UInt64) : CpuStackFrame :=
  { address, modulePath := none, buildId := none, fileOffset := none, symbol := none
    symbolOffset := none, language := .unknown, sourcePath := none, line := none }

def Symbolizer.nativeFrame (symbolizer : Symbolizer) (system : System) (address : UInt64) :
    CpuStackFrame :=
  match executableMapping symbolizer.maps address with
  | none => unresolvedFrame address
  | some (mapping, fileOffset) =>
    let loaded :=
      (symbolizer.modules.find? (fun entry => entry.1.samePath mapping.path)).map Prod.snd
    let symbol := loaded.bind (fun loaded => findModuleSymbol loaded.symbols fileOffset)
    { address
      modulePath := some (system.toStringLossy mapping.path)
      buildId := loaded.bind Module.buildId
      fileOffset := some fileOffset
      symbol := symbol.map ModuleSymbol.name
      symbolOffset := symbol.map (fun symbol => fileOffset - symbol.fileOffset)
      language := .native, sourcePath := none, line := none }

/-- `Symbolizer::symbolize`. -/
def Symbolizer.symbolize (symbolizer : Symbolizer) (system : System) (address : UInt64) :
    CpuStackFrame :=
  match findPerfSymbol symbolizer.pythonSymbols address with
  | some symbol =>
    { address, modulePath := none, buildId := none, fileOffset := none
      symbol := some symbol.name, symbolOffset := some (address - symbol.start)
      language := .python, sourcePath := none, line := none }
  | none => symbolizer.nativeFrame system address

/-! ## Which tables the lookups can search -/

/-- The candidate of a lookup is the last symbol of the partition. -/
theorem partitionPoint_candidate {α β : Type} (p : α → Bool) (l : List α) (f : α → Option β) :
    (do guard (1 ≤ partitionPoint p l); let a ← l[partitionPoint p l - 1]?; f a) =
      (l.takeWhile p).getLast?.bind f := by
  rw [partitionPoint, List.getLast?_eq_getElem?]
  cases htake : l.takeWhile p with
  | nil => rfl
  | cons first rest =>
    obtain ⟨after, hafter⟩ := List.takeWhile_prefix p (l := l)
    rw [htake] at hafter
    rw [← hafter, List.getElem?_append_left (by simp)]
    rfl

theorem takeWhile_toNat_le {α : Type} (start : α → UInt64) (l : List α) (address : UInt64) :
    (l.takeWhile (fun a => start a ≤ address)).getLast? =
      lastStarting (fun a => (start a).toNat) l address.toNat := by
  simp only [lastStarting, ← UInt64.le_iff_toNat_le]

theorem start_le_of_lastStarting {α : Type} {start : α → ℕ} {l : List α} {point : ℕ} {a : α}
    (h : lastStarting start l point = some a) : start a ≤ point := by
  simpa using List.mem_takeWhile_imp (List.mem_of_getLast? h)

def PerfMapSymbol.covers (symbol : PerfMapSymbol) (address : UInt64) : Prop :=
  symbol.start ≤ address ∧ address < symbol.end

def ModuleSymbol.covers (symbol : ModuleSymbol) (offset : UInt64) : Prop :=
  symbol.fileOffset.toNat ≤ offset.toNat ∧
    offset.toNat < symbol.fileOffset.toNat + symbol.size.toNat

variable {symbols : List PerfMapSymbol}

theorem findPerfSymbol_eq_some_iff {address : UInt64} {symbol : PerfMapSymbol} :
    findPerfSymbol symbols address = some symbol ↔
      lastStarting (·.start.toNat) symbols address.toNat = some symbol ∧
        address.toNat < symbol.end.toNat := by
  rw [findPerfSymbol, partitionPoint_candidate, takeWhile_toNat_le, Option.bind_eq_some_iff]
  simp only [Option.ite_none_right_eq_some, Option.some.injEq, ← UInt64.lt_iff_toNat_lt]
  constructor
  · rintro ⟨found, hfound, hend, rfl⟩
    exact ⟨hfound, hend⟩
  · rintro ⟨hfound, hend⟩
    exact ⟨symbol, hfound, hend, rfl⟩

/-- A symbol without a size is returned too, but it covers nothing. -/
theorem findModuleSymbol_covers_iff {symbols : List ModuleSymbol} {offset : UInt64}
    {symbol : ModuleSymbol} :
    (findModuleSymbol symbols offset = some symbol ∧ symbol.covers offset) ↔
      lastStarting (·.fileOffset.toNat) symbols offset.toNat = some symbol ∧
        offset.toNat < symbol.fileOffset.toNat + symbol.size.toNat := by
  rw [findModuleSymbol, partitionPoint_candidate, takeWhile_toNat_le, Option.bind_eq_some_iff]
  simp only [Option.ite_none_right_eq_some, Option.some.injEq]
  constructor
  · rintro ⟨⟨found, hfound, -, rfl⟩, hcovers⟩
    exact ⟨hfound, hcovers.2⟩
  · rintro ⟨hfound, hend⟩
    have hstart := start_le_of_lastStarting hfound
    refine ⟨⟨symbol, hfound, Or.inl ⟨?_, ?_⟩, rfl⟩, hstart, hend⟩
    · rintro hzero
      rw [hzero] at hend
      exact absurd hstart (not_le.mpr hend)
    · rw [UInt64.lt_iff_toNat_lt, UInt64.toNat_sub_of_le _ _ (UInt64.le_iff_toNat_le.mpr hstart)]
      omega

/-- The lookup in a perf map at one address: a symbol is found exactly when a range contains the
    address, and the range of the symbol found does. -/
def FindsPerfSymbolAt (symbols : List PerfMapSymbol) (address : UInt64) : Prop :=
  ((findPerfSymbol symbols address).isSome ↔ ∃ symbol ∈ symbols, symbol.covers address) ∧
  ∀ symbol, findPerfSymbol symbols address = some symbol → symbol.covers address

def FindsPerfSymbols (symbols : List PerfMapSymbol) : Prop :=
  ∀ address, FindsPerfSymbolAt symbols address

/-- The lookup in a mapped file at one offset: if a symbol covers it, a covering symbol is found. -/
def FindsModuleSymbolAt (symbols : List ModuleSymbol) (offset : UInt64) : Prop :=
  (∃ symbol ∈ symbols, symbol.size ≠ 0 ∧ symbol.covers offset) →
    ∃ symbol, findModuleSymbol symbols offset = some symbol ∧ symbol.covers offset

def FindsModuleSymbols (symbols : List ModuleSymbol) : Prop :=
  ∀ offset, FindsModuleSymbolAt symbols offset

abbrev PerfMapHiddenAt (symbols : List PerfMapSymbol) (address : UInt64) : Prop :=
  HiddenAt (fun symbol => symbol.start.toNat) (fun symbol => symbol.end.toNat) symbols address.toNat

abbrev ModuleHiddenAt (symbols : List ModuleSymbol) (offset : UInt64) : Prop :=
  HiddenAt (fun symbol => symbol.fileOffset.toNat)
    (fun symbol => symbol.fileOffset.toNat + symbol.size.toNat) symbols offset.toNat

/-- No range of a perf map is hidden behind a later one. -/
abbrev PerfMapUnhidden : List PerfMapSymbol → Prop :=
  Unhidden (fun symbol => symbol.start.toNat) (fun symbol => symbol.end.toNat) (2 ^ 64)

/-- No symbol of a mapped file is hidden behind a later one. -/
abbrev ModuleUnhidden : List ModuleSymbol → Prop :=
  Unhidden (fun symbol => symbol.fileOffset.toNat)
    (fun symbol => symbol.fileOffset.toNat + symbol.size.toNat) (2 ^ 64)

theorem start_lt_end_of_parsePerfLine {index : ℕ} {line : String} {path : PathBuf}
    {symbol : PerfMapSymbol} (h : parsePerfLine index line path = .ok symbol) :
    symbol.start.toNat < symbol.end.toNat := by
  simp only [parsePerfLine, bind_eq_ok_iff, okOr_eq_ok_iff] at h
  obtain ⟨start, -, size, -, ⟨⟩, hsize, last, hlast, hsymbol⟩ := h
  cases hsymbol
  have hpositive : size.toNat ≠ 0 := fun hzero =>
    ensure_eq_ok_iff.mp hsize (Or.inl (UInt64.toNat_inj.mp hzero))
  have hsum := toNat_of_checkedAdd hlast
  dsimp only
  omega

/-- The symbols of a perf map are ordered by their starts and none is empty. -/
theorem parsePerfMap_ordered {text : String} {path : PathBuf}
    (h : parsePerfMap text path = .ok symbols) :
    SortedBy (·.start.toNat) symbols ∧
      ∀ symbol ∈ symbols, symbol.start.toNat < symbol.end.toNat := by
  simp only [parsePerfMap, bind_eq_ok_iff, mapM_eq_ok_iff] at h
  obtain ⟨parsed, hparsed, hsymbols⟩ := h
  cases hsymbols
  refine ⟨(sortByKey_sorted PerfMapSymbol.start parsed).imp
    (fun hle => UInt64.le_iff_toNat_le.mp hle), ?_⟩
  intro symbol hsymbol
  have hmem : Except.ok symbol ∈ parsed.map (Except.ok (ε := CpuAnalysisError)) :=
    List.mem_map_of_mem (mem_sortByKey.mp hsymbol)
  rw [← hparsed] at hmem
  obtain ⟨⟨line, index⟩, -, hline⟩ := List.mem_map.mp hmem
  exact start_lt_end_of_parsePerfLine hline

theorem forall_toNat_iff {p : ℕ → Prop} :
    (∀ word : UInt64, p word.toNat) ↔ ∀ number < 2 ^ 64, p number := by
  constructor
  · intro h number hnumber
    rw [← UInt64.toNat_ofNat_of_lt' hnumber]
    exact h _
  · exact fun h word => h word.toNat word.toNat_lt

theorem findsPerfSymbolAt_iff (hsorted : SortedBy (·.start.toNat) symbols)
    (address : UInt64) :
    FindsPerfSymbolAt symbols address ↔ ¬ PerfMapHiddenAt symbols address := by
  rw [← finds_iff_not_hiddenAt hsorted]
  constructor
  · rintro ⟨hsome, -⟩ symbol hmem hstart hend
    obtain ⟨found, hfound⟩ := Option.isSome_iff_exists.mp (hsome.mpr
      ⟨symbol, hmem, UInt64.le_iff_toNat_le.mpr hstart, UInt64.lt_iff_toNat_lt.mpr hend⟩)
    exact ⟨found, findPerfSymbol_eq_some_iff.mp hfound⟩
  · intro hfinds
    -- what is found always covers the address
    have hfound : ∀ symbol, findPerfSymbol symbols address = some symbol →
        symbol ∈ symbols ∧ symbol.covers address := by
      intro symbol hsymbol
      obtain ⟨hlast, hend⟩ := findPerfSymbol_eq_some_iff.mp hsymbol
      have hstart := start_le_of_lastStarting hlast
      exact ⟨(List.takeWhile_sublist _).subset (List.mem_of_getLast? hlast),
        UInt64.le_iff_toNat_le.mpr hstart, UInt64.lt_iff_toNat_lt.mpr hend⟩
    refine ⟨⟨?_, ?_⟩, fun symbol hsymbol => (hfound symbol hsymbol).2⟩
    · intro hsome
      obtain ⟨symbol, hsymbol⟩ := Option.isSome_iff_exists.mp hsome
      exact ⟨symbol, hfound symbol hsymbol⟩
    · rintro ⟨symbol, hmem, hstart, hend⟩
      obtain ⟨found, hlast⟩ := hfinds symbol hmem
        (UInt64.le_iff_toNat_le.mp hstart) (UInt64.lt_iff_toNat_lt.mp hend)
      exact Option.isSome_iff_exists.mpr ⟨found, findPerfSymbol_eq_some_iff.mpr hlast⟩

theorem findsModuleSymbolAt_iff {symbols : List ModuleSymbol}
    (hsorted : SortedBy (·.fileOffset.toNat) symbols) (offset : UInt64) :
    FindsModuleSymbolAt symbols offset ↔ ¬ ModuleHiddenAt symbols offset := by
  rw [← finds_iff_not_hiddenAt hsorted, FindsModuleSymbolAt]
  simp only [findModuleSymbol_covers_iff]
  constructor
  · intro hfinds symbol hmem hstart hend
    refine hfinds ⟨symbol, hmem, ?_, hstart, hend⟩
    rintro hzero
    rw [hzero] at hend
    exact absurd hstart (not_le.mpr hend)
  · rintro hfinds ⟨symbol, hmem, -, hstart, hend⟩
    exact hfinds symbol hmem hstart hend

theorem findsPerfSymbols_iff (hsorted : SortedBy (·.start.toNat) symbols)
    (hstop : ∀ symbol ∈ symbols, symbol.start.toNat < symbol.end.toNat) :
    FindsPerfSymbols symbols ↔ PerfMapUnhidden symbols := by
  rw [PerfMapUnhidden, unhidden_iff hsorted (fun symbol hmem => (hstop symbol hmem).le)
    (fun symbol _ => symbol.start.toNat_lt), ← forall_toNat_iff]
  exact forall_congr' (findsPerfSymbolAt_iff hsorted)

theorem findsModuleSymbols_iff {symbols : List ModuleSymbol}
    (hsorted : SortedBy (·.fileOffset.toNat) symbols) :
    FindsModuleSymbols symbols ↔ ModuleUnhidden symbols := by
  rw [ModuleUnhidden, unhidden_iff hsorted (fun symbol _ => Nat.le_add_right _ _)
    (fun symbol _ => symbol.fileOffset.toNat_lt), ← forall_toNat_iff]
  exact forall_congr' (findsModuleSymbolAt_iff hsorted)

/-- Both lookups inspect one candidate, so they find what covers an address exactly when the address
    is not hidden, and at every address exactly in the tables where no range is hidden behind a later
    one that ends before it. -/
theorem symbolLookups_find_iff (text : String) (path : PathBuf) (perfSymbols : List PerfMapSymbol)
    (moduleSymbols : List ModuleSymbol) :
    (parsePerfMap text path = .ok perfSymbols →
      (∀ address, FindsPerfSymbolAt perfSymbols address ↔ ¬ PerfMapHiddenAt perfSymbols address) ∧
      (FindsPerfSymbols perfSymbols ↔ PerfMapUnhidden perfSymbols)) ∧
    (moduleSymbols.Pairwise (fun a b => a.fileOffset < b.fileOffset) →
      (∀ offset, FindsModuleSymbolAt moduleSymbols offset ↔ ¬ ModuleHiddenAt moduleSymbols offset) ∧
      (FindsModuleSymbols moduleSymbols ↔ ModuleUnhidden moduleSymbols)) := by
  constructor
  · intro hparse
    obtain ⟨hsorted, hstop⟩ := parsePerfMap_ordered hparse
    exact ⟨findsPerfSymbolAt_iff hsorted, findsPerfSymbols_iff hsorted hstop⟩
  · intro hordered
    have hsorted : SortedBy (·.fileOffset.toNat) moduleSymbols :=
      hordered.imp (fun hlt => (UInt64.lt_iff_toNat_lt.mp hlt).le)
    exact ⟨findsModuleSymbolAt_iff hsorted, findsModuleSymbols_iff hsorted⟩

/-- An inlined function hides the rest of the function around it, in both tables. -/
theorem symbolLookups_nested :
    parsePerfMap "10 20 py::outer\n18 4 py::inner" (.ofString "perf-1.map") =
      .ok [⟨0x10, 0x30, "py::outer"⟩, ⟨0x18, 0x1c, "py::inner"⟩] ∧
    findPerfSymbol [⟨0x10, 0x30, "py::outer"⟩, ⟨0x18, 0x1c, "py::inner"⟩] 0x20 = none ∧
    ¬FindsPerfSymbols [⟨0x10, 0x30, "py::outer"⟩, ⟨0x18, 0x1c, "py::inner"⟩] ∧
    findModuleSymbol [⟨0x10, 0x20, "outer"⟩, ⟨0x18, 4, "inner"⟩] 0x20 = none ∧
    ¬FindsModuleSymbols [⟨0x10, 0x20, "outer"⟩, ⟨0x18, 4, "inner"⟩] := by
  have hperf : findPerfSymbol [⟨0x10, 0x30, "py::outer"⟩, ⟨0x18, 0x1c, "py::inner"⟩] 0x20 = none := by
    decide
  have hmodule : findModuleSymbol [⟨0x10, 0x20, "outer"⟩, ⟨0x18, 4, "inner"⟩] 0x20 = none := by
    decide
  refine ⟨by decide, hperf, ?_, hmodule, ?_⟩
  · intro hfinds
    have hsome := (hfinds 0x20).1.mpr ⟨⟨0x10, 0x30, "py::outer"⟩, by simp, by decide, by decide⟩
    simp [hperf] at hsome
  · intro hfinds
    obtain ⟨symbol, hsymbol, -⟩ :=
      hfinds 0x20 ⟨⟨0x10, 0x20, "outer"⟩, by simp, by decide, by decide, by decide⟩
    simp [hmodule] at hsymbol

/-- Ranges that follow each other are found. -/
theorem symbolLookups_find_disjoint :
    FindsPerfSymbols [⟨0x10, 0x18, "py::first"⟩, ⟨0x18, 0x1c, "py::second"⟩] := by
  refine ((symbolLookups_find_iff "10 8 py::first\n18 4 py::second" (.ofString "perf-1.map") _ []).1
    (by decide)).2.mpr (Unhidden.of_sorted ?_)
  exact List.pairwise_pair.mpr (by decide)

end Xprobe.Core
