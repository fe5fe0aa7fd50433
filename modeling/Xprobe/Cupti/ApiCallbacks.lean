import Xprobe.Cupti.ModesAgree

/-!
# Which API callbacks are enabled

When a capture is armed with API filters, the agent enables the callbacks that the filters select
(`api_filter_matches_callback` in `cupti/src/cupti_agent.c`), and `api_callback` then compares the
filters with the function name that CUPTI reports.

The first comparison takes the name of the callback without its version suffix, the second takes the
function name as it is. A filter that needs the suffix of a function name passes the second and not
the first, so the callback that would make the record is never enabled.
-/

namespace Xprobe.Cupti

open Foundation

/-! ## The source -/

/-- The characters `0` to `9`. -/
def isDigitByte (byte : UInt8) : Bool := 48 ≤ byte && byte ≤ 57

/-- The loop of `api_filter_matches_callback` over the name: from its end back to the last `_v`. If
    only digits follow, and at least one, the name is cut there. -/
def cutVersion (name : List UInt8) (length : ℕ) : ℕ → List UInt8
  | 0 => name
  | index + 1 =>
    if index + 1 > 2 then
      let suffix := index + 1 - 2
      if name[suffix]? ≠ some 95 ∨ name[suffix + 1]? ≠ some 118 then cutVersion name length index
      else
        let digit :=
          suffix + 2 + (((name.take length).drop (suffix + 2)).takeWhile isDigitByte).length
        if digit = length ∧ digit > suffix + 2 then name.set suffix 0 else name
    else name

/-- The `semantic_name` of a callback. What stands behind its terminator is never read. -/
def semanticName (callbackName : List UInt8) : List UInt8 :=
  let name := copyName callbackName
  let length := boundedNameLength name
  if length < nameLength then cutVersion name length length else name

/-- `api_filter_matches_callback`. -/
def apiFilterMatchesCallback (filters : Filter × Filter) (domain : UInt32)
    (callbackName : List UInt8) : Bool :=
  [filters.1, filters.2].any fun filter =>
    (filter.recordKind == RecordKind.cudaApiEntry.code ||
        filter.recordKind == RecordKind.cudaApiExit.code) &&
      (filter.apiDomain == 0 || filter.apiDomain == domain) &&
      nameMatches filter (some (semanticName callbackName))

/-- Whether `api_callback` goes on to make a record of a call. -/
def apiCallbackAccepts (control : AgentControl) (domain : UInt32) (entering : Bool)
    (functionName : List UInt8) : Bool :=
  if domain ≠ callbackDomainRuntimeApi ∧ domain ≠ callbackDomainDriverApi then false
  else
    let kind := if entering then RecordKind.cudaApiEntry else RecordKind.cudaApiExit
    control.valuesMatchCapture kind.code 0 domain 0 (some functionName)

/-! ## Version suffixes -/

/-- The name is the base with a version suffix: `_v` and at least one digit. -/
def Versioned (name base : List UInt8) : Prop :=
  ∃ digits, digits ≠ [] ∧ (∀ byte ∈ digits, isDigitByte byte = true) ∧
    name = base ++ 95 :: 118 :: digits

theorem isDigitByte_ne {byte : UInt8} (h : isDigitByte byte = true) : byte ≠ 95 := by
  rintro rfl
  exact absurd h (by decide)

def digitsFrom (name : List UInt8) (length index : ℕ) : List UInt8 :=
  ((name.take length).drop index).takeWhile isDigitByte

/-- One round of the loop, at an index that is not the first. -/
theorem cutVersion_round (name : List UInt8) (length : ℕ) {suffix : ℕ} (h : 0 < suffix) :
    cutVersion name length (suffix + 2) =
      if name[suffix]? ≠ some 95 ∨ name[suffix + 1]? ≠ some 118 then
        cutVersion name length (suffix + 1)
      else if suffix + 2 + (digitsFrom name length (suffix + 2)).length = length ∧
          suffix + 2 + (digitsFrom name length (suffix + 2)).length > suffix + 2 then
        name.set suffix 0
      else name := by
  rw [cutVersion, if_pos (by omega)]
  rfl

theorem cutVersion_of_le {index : ℕ} (h : index ≤ 2) (name : List UInt8) (length : ℕ) :
    cutVersion name length index = name := by
  cases index with
  | zero => rfl
  | succ index => rw [cutVersion, if_neg (by omega)]

variable {base name : List UInt8} {domain : UInt32}

/-- The loop passes over the digits and cuts the version suffix. -/
theorem cutVersion_versioned {digits : List UInt8} (padding : List UInt8) (hbase : base ≠ [])
    (hdigits : digits ≠ []) (hall : ∀ byte ∈ digits, isDigitByte byte = true) {count : ℕ}
    (hcount : count ≤ digits.length) :
    cutVersion (base ++ 95 :: 118 :: (digits ++ 0 :: padding)) (base.length + (digits.length + 2))
      (base.length + count + 2) = base ++ 0 :: 118 :: (digits ++ 0 :: padding) := by
  have hpositive := List.length_pos_of_ne_nil hbase
  have hdigitsPositive := List.length_pos_of_ne_nil hdigits
  -- the bytes from the suffix on
  have hat : ∀ k, (base ++ 95 :: 118 :: (digits ++ 0 :: padding))[base.length + k]? =
      (95 :: 118 :: (digits ++ 0 :: padding))[k]? := by
    intro k
    rw [List.getElem?_append_right (Nat.le_add_right _ _), Nat.add_sub_cancel_left]
  induction count with
  | zero =>
    have hrest : digitsFrom (base ++ 95 :: 118 :: (digits ++ 0 :: padding))
        (base.length + (digits.length + 2)) (base.length + 2) = digits := by
      rw [digitsFrom, List.take_length_add_append, List.drop_length_add_append, List.take_succ_cons,
        List.take_succ_cons, List.take_left]
      exact List.takeWhile_eq_self_iff.mpr hall
    have hfirst := hat 0
    have hsecond := hat 1
    rw [Nat.add_zero] at hfirst
    rw [Nat.add_zero, cutVersion_round _ _ hpositive, hfirst, hsecond, hrest, if_neg (by simp),
      if_pos ⟨by omega, by omega⟩, List.set_append_right _ _ le_rfl, Nat.sub_self]
    rfl
  | succ count ih =>
    -- a digit, or the letter of the suffix
    have hne : (base ++ 95 :: 118 :: (digits ++ 0 :: padding))[base.length + (count + 1)]? ≠
        some 95 := by
      rw [hat]
      cases count with
      | zero => simp
      | succ count =>
        have hbyte : count < digits.length := by omega
        have hget : (95 :: 118 :: (digits ++ 0 :: padding))[count + 1 + 1]? =
            some digits[count] := by
          simp [List.getElem?_append_left hbyte, List.getElem?_eq_getElem hbyte]
        rw [hget]
        intro h
        exact isDigitByte_ne (hall _ (List.getElem_mem hbyte)) (Option.some.inj h)
    rw [cutVersion_round _ _ (by omega), if_pos (.inl hne)]
    exact ih (by omega)

/-- The name is cut at a version suffix, or not at all. -/
theorem cutVersion_cases (padding : List UInt8) {index : ℕ} (hindex : index ≤ name.length) :
    cutVersion (name ++ 0 :: padding) name.length index = name ++ 0 :: padding ∨
      ∃ base, base ≠ [] ∧ Versioned name base := by
  induction index with
  | zero => exact .inl rfl
  | succ index ih =>
    by_cases hroom : index + 1 ≤ 2
    · exact .inl (cutVersion_of_le hroom _ _)
    -- the suffix starts with the two bytes `_v`
    obtain ⟨suffix, rfl⟩ : ∃ suffix, index = suffix + 1 := ⟨index - 1, by omega⟩
    rw [cutVersion_round _ _ (by omega)]
    split_ifs with hseen hversion
    · exact ih (by omega)
    · -- the suffix is a version
      have hfirst : suffix < name.length := by omega
      have hsecond : suffix + 1 < name.length := by omega
      rw [List.getElem?_append_left hfirst, List.getElem?_append_left hsecond,
        List.getElem?_eq_getElem hfirst, List.getElem?_eq_getElem hsecond] at hseen
      simp only [ne_eq, not_or, not_not, Option.some.injEq] at hseen
      rw [digitsFrom, List.take_left] at hversion
      have hlength : (name.drop (suffix + 2)).length = name.length - (suffix + 2) :=
        List.length_drop
      have hwhole : (name.drop (suffix + 2)).takeWhile isDigitByte = name.drop (suffix + 2) :=
        (List.takeWhile_prefix _).eq_of_length (by omega)
      rw [hwhole] at hversion
      refine .inr ⟨name.take suffix, ?_, name.drop (suffix + 2), ?_, ?_, ?_⟩
      · refine List.ne_nil_of_length_pos ?_
        rw [List.length_take_of_le hfirst.le]
        omega
      · refine List.ne_nil_of_length_pos ?_
        omega
      · exact List.takeWhile_eq_self_iff.mp hwhole
      · conv_lhs => rw [← List.take_append_drop suffix name]
        rw [List.drop_eq_getElem_cons hfirst, List.drop_eq_getElem_cons hsecond, hseen.1, hseen.2]
    · exact .inl rfl

/-! ## The name that filters are compared with -/

/-- The name without its version suffix. A name without such a suffix stays as it is, and so does
    one with nothing before the suffix. -/
def NormalizesTo (name normalized : List UInt8) : Prop :=
  (Versioned name normalized ∧ normalized ≠ []) ∨
    (normalized = name ∧ ∀ base, base ≠ [] → ¬Versioned name base)

theorem NormalizesTo.isPrefix {normalized : List UInt8} (h : NormalizesTo name normalized) :
    normalized <+: name := by
  rcases h with ⟨⟨digits, -, -, rfl⟩, -⟩ | ⟨rfl, -⟩
  · exact List.prefix_append _ _
  · exact List.prefix_rfl

/-- The buffer of the semantic name holds the normalized name. -/
theorem exists_semanticName_eq {normalized : List UInt8} (rest : List UInt8) (hzero : 0 ∉ name)
    (hlength : name.length < nameLength) (h : NormalizesTo name normalized) :
    ∃ padding, semanticName (name ++ 0 :: rest) = normalized ++ 0 :: padding := by
  obtain ⟨padding, hcopy⟩ := copyName_terminated (name ++ 0 :: rest)
  rw [keptName, cString_append_nul hzero, List.take_of_length_le (by omega)] at hcopy
  have hbounded : boundedNameLength (name ++ 0 :: padding) = name.length := by
    rw [boundedNameLength_terminated padding hzero, min_eq_right hlength.le]
  simp only [semanticName, hcopy, hbounded, if_pos hlength]
  rcases h with ⟨⟨digits, hdigits, hall, rfl⟩, hbase⟩ | ⟨rfl, hnone⟩
  · have hcut := cutVersion_versioned padding hbase hdigits hall le_rfl
    rw [List.append_assoc, List.length_append]
    exact ⟨118 :: (digits ++ 0 :: padding), hcut⟩
  · rcases cutVersion_cases padding (le_refl normalized.length) with hsame | ⟨base, hbase, hversioned⟩
    · exact ⟨padding, hsame⟩
    · exact absurd hversioned (hnone base hbase)

/-! ## Enabled callbacks -/

theorem valuesMatchCapture_eq_true_iff {control : AgentControl}
    (henabled : control.captureFilterEnabled = true) {kind memcpyKind : UInt32}
    {name : Option (List UInt8)} :
    control.valuesMatchCapture kind 0 domain memcpyKind name = true ↔
      ∃ filter ∈ [control.captureFilters.1, control.captureFilters.2],
        filterMatchesValues filter kind domain memcpyKind name = true := by
  simp [AgentControl.valuesMatchCapture, henabled]

def Filter.ForApi (filter : Filter) (domain : UInt32) : Prop :=
  (filter.recordKind = RecordKind.cudaApiEntry.code ∨
      filter.recordKind = RecordKind.cudaApiExit.code) ∧
    (filter.apiDomain = 0 ∨ filter.apiDomain = domain)

/-- The filter is for the entries, or for the returns, of the calls of an API. -/
def Filter.ForCall (filter : Filter) (domain : UInt32) (entering : Bool) : Prop :=
  filter.recordKind =
      (if entering then RecordKind.cudaApiEntry else RecordKind.cudaApiExit).code ∧
    (filter.apiDomain = 0 ∨ filter.apiDomain = domain) ∧ filter.memcpyKind = 0

theorem Filter.ForCall.forApi {filter : Filter} {entering : Bool}
    (h : filter.ForCall domain entering) : filter.ForApi domain := by
  refine ⟨?_, h.2.1⟩
  cases entering with
  | true => exact .inl h.1
  | false => exact .inr h.1

def Filter.Takes (filter : Filter) (name : List UInt8) : Prop :=
  ∃ kind : NameMatch, filter.nameMatch = kind.code ∧
    (kind = .any ∨ boundedNameLength filter.name < nameLength) ∧
    kind.Holds (cString filter.name) name

theorem nameMatches_iff_takes {filter : Filter} (rest : List UInt8) (hzero : 0 ∉ name)
    (hlength : name.length < nameLength) :
    nameMatches filter (some (name ++ 0 :: rest)) = true ↔ filter.Takes name := by
  rw [nameMatches_iff rest hzero, Filter.Takes]
  simp only [NameMatch.visible_of_short _ _ hlength, and_true]

/-- `api_callback` records a call when a filter for it takes the name of the function. -/
theorem apiCallbackAccepts_iff {control : AgentControl}
    (henabled : control.captureFilterEnabled = true) {entering : Bool} (rest : List UInt8)
    (hzero : 0 ∉ name) (hlength : name.length < nameLength) :
    apiCallbackAccepts control domain entering (name ++ 0 :: rest) = true ↔
      (domain = callbackDomainRuntimeApi ∨ domain = callbackDomainDriverApi) ∧
        ∃ filter ∈ [control.captureFilters.1, control.captureFilters.2],
          filter.ForCall domain entering ∧ filter.Takes name := by
  have hkind : ∀ {kind : UInt32},
      kind = (if entering then RecordKind.cudaApiEntry else RecordKind.cudaApiExit).code →
      kind ≠ 0 := by
    rintro kind rfl
    cases entering <;> decide
  by_cases hdomain : domain ≠ callbackDomainRuntimeApi ∧ domain ≠ callbackDomainDriverApi
  · rw [apiCallbackAccepts, if_pos hdomain]
    exact iff_of_false Bool.false_ne_true (fun h => h.1.elim hdomain.1 hdomain.2)
  rw [apiCallbackAccepts, if_neg hdomain, valuesMatchCapture_eq_true_iff henabled]
  simp only [filterMatchesValues_iff, nameMatches_iff_takes rest hzero hlength, Filter.ForCall]
  rw [not_and_or, not_not, not_not] at hdomain
  constructor
  · rintro ⟨filter, hfilter, ⟨-, hrecord⟩, hapi, hcopy, hname⟩
    exact ⟨hdomain, filter, hfilter, ⟨hrecord, hapi, hcopy.elim id id⟩, hname⟩
  · rintro ⟨-, filter, hfilter, ⟨hrecord, hapi, hcopy⟩, hname⟩
    exact ⟨filter, hfilter, ⟨hkind hrecord, hrecord⟩, hapi, .inl hcopy, hname⟩

/-- A callback is enabled when a filter for its API takes its name without the version. -/
theorem apiFilterMatchesCallback_iff {filters : Filter × Filter} {callbackName : List UInt8}
    (rest : List UInt8) (hzero : 0 ∉ callbackName) (hlength : callbackName.length < nameLength)
    (hbase : NormalizesTo callbackName base) :
    apiFilterMatchesCallback filters domain (callbackName ++ 0 :: rest) = true ↔
      ∃ filter ∈ [filters.1, filters.2], filter.ForApi domain ∧ filter.Takes base := by
  obtain ⟨padding, hsemantic⟩ := exists_semanticName_eq rest hzero hlength hbase
  have hpart := hbase.isPrefix
  have htakes := fun filter => @nameMatches_iff_takes base filter padding
    (fun h => hzero (hpart.subset h)) (hpart.length_le.trans_lt hlength)
  simp only [apiFilterMatchesCallback, hsemantic, List.any_eq_true, Bool.and_eq_true,
    Bool.or_eq_true, beq_iff_eq, htakes, Filter.ForApi]

/-- The word reaches into the version suffix: it matches the name of the function, and the name
    without its version is too short for it or has another end. -/
def NameMatch.NeedsVersion (kind : NameMatch) (word function base : List UInt8) : Prop :=
  match kind with
  | .any => False
  | .exact => function = word ∧ base ≠ function
  | .prefixed => word <+: function ∧ base.length < word.length
  | .suffixed => word <:+ function ∧ ¬ word <:+ base
  | .contains => word <:+: function ∧ ¬ word <:+: base

theorem NameMatch.needsVersion_iff {kind : NameMatch} {word function : List UInt8}
    (hfunction : function <+: name) (hbase : base <+: name) :
    kind.NeedsVersion word function base ↔
      kind.Holds word function ∧ ¬ kind.Holds word base := by
  cases kind with
  | any => simp [NameMatch.NeedsVersion, NameMatch.Holds]
  | exact =>
    simp only [NameMatch.NeedsVersion, NameMatch.Holds]
    exact and_congr_right (fun h => by rw [h])
  | prefixed =>
    simp only [NameMatch.NeedsVersion, NameMatch.Holds]
    -- two starts of one name: the shorter one starts the longer one
    refine and_congr_right (fun hword => ⟨fun hlong hshort => ?_, fun hnot => ?_⟩)
    · exact absurd hshort.length_le (not_le.mpr hlong)
    · by_contra hshort
      exact hnot (List.prefix_of_prefix_length_le (hword.trans hfunction) hbase (not_lt.mp hshort))
  | suffixed => rfl
  | contains => rfl

def Filter.NeedsVersion (filter : Filter) (function base : List UInt8) : Prop :=
  ∃ kind : NameMatch, filter.nameMatch = kind.code ∧ boundedNameLength filter.name < nameLength ∧
    kind.NeedsVersion (cString filter.name) function base

theorem Filter.needsVersion_iff {filter : Filter} {function : List UInt8}
    (hfunction : function <+: name) (hbase : base <+: name) :
    filter.NeedsVersion function base ↔ filter.Takes function ∧ ¬ filter.Takes base := by
  constructor
  · rintro ⟨kind, hkind, hfilter, hneeds⟩
    rw [NameMatch.needsVersion_iff hfunction hbase] at hneeds
    refine ⟨⟨kind, hkind, .inr hfilter, hneeds.1⟩, ?_⟩
    rintro ⟨kind', hkind', -, hholds⟩
    cases NameMatch.code_injective (hkind'.symm.trans hkind)
    exact hneeds.2 hholds
  · rintro ⟨⟨kind, hkind, hfilter, hholds⟩, hnot⟩
    refine ⟨kind, hkind, ?_, (NameMatch.needsVersion_iff hfunction hbase).mpr ⟨hholds, ?_⟩⟩
    · refine hfilter.resolve_left (fun hany => hnot ?_)
      subst hany
      exact ⟨.any, hkind, .inl rfl, trivial⟩
    · exact fun hbaseHolds => hnot ⟨kind, hkind, hfilter, hbaseHolds⟩

/-- For a callback, the function name that CUPTI reports for it, with or without the version
    suffix, and any filters: the callback of a call that `api_callback` would record is enabled
    exactly when no filter for the call needs the version of the function, or the other filter
    takes the name without it. -/
theorem apiCallback_enabled_iff {control : AgentControl} {domain : UInt32} {entering : Bool}
    {callbackName functionName base : List UInt8} (rest rest' : List UInt8)
    (henabled : control.captureFilterEnabled = true) (hzero : 0 ∉ callbackName)
    (hlength : callbackName.length < nameLength)
    (hfunction : functionName = callbackName ∨ Versioned callbackName functionName)
    (hbase : NormalizesTo callbackName base) :
    (apiCallbackAccepts control domain entering (functionName ++ 0 :: rest) = true →
        apiFilterMatchesCallback control.captureFilters domain (callbackName ++ 0 :: rest') =
          true) ↔
      (domain = callbackDomainRuntimeApi ∨ domain = callbackDomainDriverApi →
        ∀ filter ∈ [control.captureFilters.1, control.captureFilters.2],
          filter.ForCall domain entering → filter.NeedsVersion functionName base →
          ∃ other ∈ [control.captureFilters.1, control.captureFilters.2],
            other.ForApi domain ∧ other.Takes base) := by
  have hpart : functionName <+: callbackName := by
    rcases hfunction with rfl | ⟨digits, -, -, rfl⟩
    · exact List.prefix_rfl
    · exact List.prefix_append _ _
  rw [apiCallbackAccepts_iff henabled rest (fun h => hzero (hpart.subset h))
      (hpart.length_le.trans_lt hlength),
    apiFilterMatchesCallback_iff rest' hzero hlength hbase]
  constructor
  · intro h hdomain filter hfilter hcall hneeds
    have htakes := ((Filter.needsVersion_iff hpart hbase.isPrefix).mp hneeds).1
    exact h ⟨hdomain, filter, hfilter, hcall, htakes⟩
  · rintro h ⟨hdomain, filter, hfilter, hcall, htakes⟩
    -- the filter that takes the function enables the callback, unless it needs the version
    by_cases hshort : filter.Takes base
    · exact ⟨filter, hfilter, hcall.forApi, hshort⟩
    · exact h hdomain filter hfilter hcall
        ((Filter.needsVersion_iff hpart hbase.isPrefix).mpr ⟨htakes, hshort⟩)

/-! ## The driver function `cuMemAlloc_v2` -/

def versionedFunction : List UInt8 := utf8Bytes "cuMemAlloc_v2"

/-- The control of an agent that captures the entries of API functions by their names. -/
def apiNameControl (kind : NameMatch) (word : List UInt8) (h : word.length ≤ nameLength) :
    AgentControl :=
  let filter := { kernelNameFilter kind word h with recordKind := RecordKind.cudaApiEntry.code }
  { agentStatus := .ready
    captureState := .active
    stopReason := .none
    captureStartTimestampNs := 0
    subscriberActive := true
    enabledActivityMask := ∅
    captureFilters := (filter, filter)
    captureFilterEnabled := true
    nvtxInjectionActive := false
    snapshotThreadStop := false }

def memFunctions : AgentControl := apiNameControl .prefixed (utf8Bytes "cuMem") (by decide)

/-- A filter for functions that start with `cuMem` does not need the version, though CUPTI reports
    it. -/
theorem apiCallback_enabled_prefixed :
    apiCallbackAccepts memFunctions callbackDomainDriverApi true (versionedFunction ++ [0]) = true ∧
      apiFilterMatchesCallback memFunctions.captureFilters callbackDomainDriverApi
        (versionedFunction ++ [0]) = true := by
  have haccepts : apiCallbackAccepts memFunctions callbackDomainDriverApi true
      (versionedFunction ++ [0]) = true := by
    decide +kernel
  have hbase : NormalizesTo versionedFunction (utf8Bytes "cuMemAlloc") :=
    .inl ⟨⟨[50], by decide, by simp [isDigitByte], by decide⟩, by decide⟩
  refine ⟨haccepts, (apiCallback_enabled_iff [] [] (show memFunctions.captureFilterEnabled = true
    from rfl) (by decide) (by decide) (.inl rfl) hbase).mpr ?_ haccepts⟩
  rintro - filter hfilter - ⟨kind, hkind, -, hneeds⟩
  have hcode : filter.nameMatch = NameMatch.prefixed.code ∧
      (cString filter.name).length ≤ (utf8Bytes "cuMemAlloc").length := by
    rcases List.mem_pair.mp hfilter with rfl | rfl <;> decide
  cases NameMatch.code_injective (hkind.symm.trans hcode.1)
  exact absurd hneeds.2 (not_lt.mpr hcode.2)

/-- When CUPTI reports the suffix, a filter for exactly that function accepts its calls, but its
    callback is not enabled. -/
theorem apiCallback_disabled_versioned :
    let control := apiNameControl .exact versionedFunction (by decide)
    control.captureFilterEnabled = true ∧
      apiCallbackAccepts control callbackDomainDriverApi true (versionedFunction ++ [0]) = true ∧
      apiFilterMatchesCallback control.captureFilters callbackDomainDriverApi
        (versionedFunction ++ [0]) = false := by
  decide +kernel

end Xprobe.Cupti
