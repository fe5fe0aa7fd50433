import Xprobe.Cupti.Accepted
import Xprobe.Cupti.NameMatch
import Xprobe.Cli.ArmConfig

/-!
# The agent's filter and the correlator's selector

A selector text is read twice: the validator resolves it, and `cupti_event_filter` makes a filter
that the agent applies to its records; the correlator parses it again and applies it to the decoded
events. For the selectors without a name pattern (API calls, copies and memsets) the two readings
select the same records.

The argument has three parts: both parsers read the same condition (`CudaReading`), a decoded event
shows the fields that the filter tests (`EventView`), and the tables of kinds, domains and copy
kinds agree.
-/

namespace Xprobe.Cli

open Foundation Protocol Cupti
open Xprobe.Core (resolveEndpoint EndpointSystem Endpoint EndpointKind CudaReading)
open Correlator (RegexEngine Selector)

/-! ## What both parsers read -/

/-- The endpoint is an API call, a copy or a memset. -/
def isUnpatterned : EndpointKind → Bool
  | .cudaApi .. | .memcpy | .memset => true
  | _ => false

/-! ## What a decoded event shows -/

/-- The fields of a record that selectors look at, as its event shows them. -/
structure EventView (record : Record) (name : String) (event : Event) (kind : RecordKind) :
    Prop where
  kind_eq : record.kind = kind.code
  eventType : event.eventType = kind.eventKind.2
  apiName : kind.isApi = true → event.attributeStr "cuda_api_name" = some name
  apiDomain : kind.isApi = true →
    event.attributeStr "cuda_api_domain" = some (apiDomainName record.callbackDomain)
  memcpyKind : kind.isMemcpy = true →
    event.cuda.bind (·.memcpyKind) = some (decodeMemcpyKind record.gridZ)

/-- The attributes of the event of an API record. -/
private theorem attributes_of_api {bytes : List UInt8} {code : UInt32} {name : String}
    (h : code = 1 ∨ code = 2) :
    ((decodeAttributes bytes code name).get? "cuda_api_name").bind Value.asStr = some name ∧
      ((decodeAttributes bytes code name).get? "cuda_api_domain").bind Value.asStr =
        some (apiDomainName (readU32 bytes 36)) := by
  rw [decodeAttributes, if_pos h, BTreeMap.get?_insert, BTreeMap.get?_insert, BTreeMap.get?_insert,
    if_neg (by decide), if_pos rfl, if_pos rfl]
  exact ⟨rfl, rfl⟩

theorem eventView_of_decodeRecord {record : Record} {name : String} {index : Nat}
    {sessionId : String} {flags : UInt32} {event : Event}
    (hname : cString record.name = utf8Bytes name)
    (h : decodeRecord record.encode index sessionId flags = .ok event) :
    ∃ kind, EventView record name event kind := by
  have hlayout := record.layout_encode
  rw [decodeRecord] at h
  obtain ⟨result, hkind, h⟩ := of_bind h
  obtain ⟨_, -, h⟩ := of_bind h
  obtain ⟨decodedName, hdecoded, h⟩ := of_bind h
  obtain ⟨nvtx, -, h⟩ := of_bind h
  cases h
  rw [decodeName, hlayout.name, hname, fromUtf8_utf8Bytes] at hdecoded
  cases hdecoded
  -- the decoder knows the kind by its code, and so do the attributes below
  obtain ⟨kind, hcode, rfl⟩ := exists_kind_of_decodeRecordKind hkind
  have hone : kind.isApi = true → readU32 record.encode 8 = 1 ∨ readU32 record.encode 8 = 2 := by
    intro hapi
    rw [hcode]
    cases kind <;> first | exact .inl rfl | exact .inr rfl | cases hapi
  refine ⟨kind, hlayout.kind.symm.trans hcode, rfl, ?_, ?_, ?_⟩
  · exact fun hapi => (attributes_of_api (hone hapi)).1
  · intro hapi
    rw [← hlayout.callbackDomain]
    exact (attributes_of_api (hone hapi)).2
  · intro hmemcpy
    have hcopy : readU32 record.encode 8 = 5 ∨ readU32 record.encode 8 = 6 := by
      rw [hcode]
      cases kind <;> first | exact .inl rfl | exact .inr rfl | cases hmemcpy
    have hnvtx : (readU32 record.encode 8 == 9 || readU32 record.encode 8 == 10) = false := by
      rcases hcopy with hfive | hsix
      · rw [hfive]
        rfl
      · rw [hsix]
        rfl
    -- a copy is no NVTX record, so the event has its CUDA part
    show ((if (readU32 record.encode 8 == 9 || readU32 record.encode 8 == 10) = true then none
      else some (decodeCudaEvent record.encode (readU32 record.encode 8)
        (readU64 record.encode 0) name)) : Option CudaEvent).bind (·.memcpyKind) = _
    rw [hnvtx, if_neg Bool.false_ne_true, Option.bind_some, ← hlayout.gridZ]
    exact if_pos hcopy

/-! ## The tables agree -/

theorem selectedRecordKind_eventKind (kind : RecordKind) :
    selectedRecordKind kind.eventKind.2 = some kind := by
  cases kind <;> rfl

theorem eventKind_of_selectedRecordKind {eventType : EventType} {kind : RecordKind}
    (h : selectedRecordKind eventType = some kind) : kind.eventKind.2 = eventType := by
  cases eventType <;> cases h <;> rfl

private theorem isApi_of_eventKind {kind : RecordKind} {eventType : EventType}
    (h : kind.eventKind.2 = eventType)
    (htype : eventType = .cudaApiEntry ∨ eventType = .cudaApiExit) : kind.isApi = true := by
  subst h
  cases kind <;> first | rfl | exact absurd htype (by decide)

private theorem isMemcpy_of_eventKind {kind : RecordKind} {eventType : EventType}
    (h : kind.eventKind.2 = eventType)
    (htype : eventType = .gpuMemcpyStart ∨ eventType = .gpuMemcpyEnd) : kind.isMemcpy = true := by
  subst h
  cases kind <;> first | rfl | exact absurd htype (by decide)

theorem code_injective : Function.Injective RecordKind.code := by
  intro left right h
  cases left <;> cases right <;> first | rfl | exact absurd h (by decide)

/-- The agent folds the copy kinds as the decoder does. -/
theorem semanticMemcpyKind_eq (cuptiKind : UInt32) : semanticMemcpyKind cuptiKind =
      (selectedMemcpyKind (some (decodeMemcpyKind cuptiKind))).code := by
  by_cases hsmall : cuptiKind.toNat ≤ 10
  · have hof : cuptiKind = UInt32.ofNat cuptiKind.toNat := UInt32.ofNat_toNat.symm
    rw [hof]
    generalize cuptiKind.toNat = n at hsmall
    interval_cases n <;> rfl
  · -- no other number is a kind for either of them
    have hunknown : decodeMemcpyKind cuptiKind = .unknown := by
      unfold decodeMemcpyKind
      split <;> first | rfl | omega
    have hzero : semanticMemcpyKind cuptiKind = 0 := by
      have hne : ∀ k : UInt32, k.toNat ≤ 10 → cuptiKind ≠ k := by
        rintro k hk rfl
        exact hsmall hk
      simp (disch := decide) only [semanticMemcpyKind, hne, or_self, if_false]
    rw [hunknown, hzero]
    rfl

/-- Different copy kinds have different codes. -/
theorem selectedMemcpyKind_code_injective :
    Function.Injective (fun kind : MemcpyKind => (selectedMemcpyKind (some kind)).code) := by
  intro left right h
  cases left <;> cases right <;> first | rfl | exact absurd h (by decide)

/-- The domain that a filter asks for is the one that the decoder names. -/
theorem selectedApiDomain_iff {domain : String} {selected : CuptiApiDomain}
    (h : selectedApiDomain (some domain) = .ok selected) (callbackDomain : UInt32) :
    selected.code ≠ 0 ∧
      (selected.code = callbackDomain ↔ apiDomainName callbackDomain = domain) := by
  have hone : callbackDomain.toNat = 1 ↔ 1 = callbackDomain := by
    rw [← UInt32.toNat_inj]
    exact eq_comm
  have htwo : callbackDomain.toNat = 2 ↔ 2 = callbackDomain := by
    rw [← UInt32.toNat_inj]
    exact eq_comm
  unfold selectedApiDomain at h
  split at h
  · next heq => cases heq
  · next heq =>
    cases heq
    cases h
    refine ⟨by decide, ?_⟩
    show 1 = callbackDomain ↔ _
    rw [← hone, apiDomainName]
    split <;> simp_all
  · next heq =>
    cases heq
    cases h
    refine ⟨by decide, ?_⟩
    show 2 = callbackDomain ↔ _
    rw [← htwo, apiDomainName]
    split <;> simp_all
  · cases h

/-! ## Filter and selector -/

theorem recordMatchesFilter_toFilter_iff {record : Record} {filter : CuptiEventFilter} :
    recordMatchesFilter record filter.toFilter = true ↔
      filter.recordKind.code = record.kind ∧
      (filter.apiDomain.code = 0 ∨ filter.apiDomain.code = record.callbackDomain) ∧
      (filter.memcpyKind.code = 0 ∨ filter.memcpyKind.code = semanticMemcpyKind record.gridZ) ∧
      nameMatches filter.toFilter (some record.name) = true := by
  have hcode : filter.recordKind.code ≠ 0 := by
    cases filter.recordKind <;> decide
  show filterMatchesValues filter.toFilter record.kind record.callbackDomain
    (semanticMemcpyKind record.gridZ) (some record.name) = true ↔ _
  simp only [filterMatchesValues, CuptiEventFilter.toFilter, hcode, false_or, ite_not]
  split_ifs <;> simp_all

section Filters

variable {cuda : ResolvedCudaSelector} {filter : CuptiEventFilter} {record : Record}
  {name : String} {event : Event} {kind : RecordKind}

/-- The kind of a record passes the filter when the type of its event is the one asked for. -/
private theorem code_eq_iff (hselected : selectedRecordKind cuda.eventType = some filter.recordKind)
    (hview : EventView record name event kind) :
    filter.recordKind.code = record.kind ↔ event.eventType = cuda.eventType := by
  rw [hview.kind_eq, hview.eventType]
  constructor
  · intro h
    rw [← code_injective h]
    exact eventKind_of_selectedRecordKind hselected
  · intro h
    rw [← h, selectedRecordKind_eventKind] at hselected
    rw [Option.some.inj hselected]

/-- A filter without a name accepts every name. -/
private theorem nameMatches_any (h : filter.name = .any) (recordName : Option (List UInt8)) :
    nameMatches filter.toFilter recordName = true := by
  have hkind : filter.toFilter.nameMatch = NameMatch.any.code := by
    show filter.name.encoded.1.code = _
    rw [h]
    rfl
  rw [nameMatches]
  exact if_pos hkind

/-- A filter for one name accepts the records with this name. -/
private theorem nameMatches_exact_iff {wanted : String} (h : filter.name = .exact wanted)
    (hfits : filter.NameFits) {padding : List UInt8} (hnul : 0 ∉ utf8Bytes name) :
    nameMatches filter.toFilter (some (utf8Bytes name ++ 0 :: padding)) = true ↔
      name = wanted := by
  have hbytes : filter.nameBytes = utf8Bytes wanted := by
    rw [CuptiEventFilter.nameBytes, h]
    rfl
  have hstring : cString filter.toFilter.name = utf8Bytes wanted :=
    (cString_toFilter_name hfits).trans hbytes
  have hkind : filter.toFilter.nameMatch = NameMatch.exact.code := by
    show filter.name.encoded.1.code = _
    rw [h]
    rfl
  have hshort : boundedNameLength filter.toFilter.name < nameLength := by
    rw [← Cupti.length_cString_name, hstring, ← hbytes]
    exact hfits.1
  rw [nameMatches_exact padding hkind hshort hnul, hstring]
  constructor
  · intro heq
    exact Option.some.inj (by rw [← fromUtf8_utf8Bytes, heq, fromUtf8_utf8Bytes])
  · rintro rfl
    rfl

/-- The filter of a selector and the selector itself agree on a record and its event. -/
theorem recordMatchesFilter_iff_of_reading {endpointKind : EndpointKind} {selector : Selector}
    {padding : List UInt8} (hreading : CudaReading cuda endpointKind selector)
    (hunpatterned : isUnpatterned endpointKind = true) (hfilter : cuptiEventFilter cuda = .ok filter)
    (hfits : filter.NameFits) (hname : record.name = utf8Bytes name ++ 0 :: padding)
    (hnul : 0 ∉ utf8Bytes name) (hview : EventView record name event kind) :
    recordMatchesFilter record filter.toFilter = true ↔ selector.matchesEvent event = true := by
  obtain ⟨recordKind, hselected, hfilter⟩ := of_bind hfilter
  obtain ⟨apiDomain, hdomain, hfilter⟩ := of_bind hfilter
  cases hfilter
  rw [okOr_eq_ok_iff] at hselected
  rw [recordMatchesFilter_toFilter_iff, code_eq_iff hselected hview]
  cases hreading with
  | kernel => cases hunpatterned
  | nvtxRange => cases hunpatterned
  | api eventType domain wanted htype =>
    obtain ⟨hcode, hdomain⟩ := selectedApiDomain_iff hdomain record.callbackDomain
    rw [hname, nameMatches_exact_iff rfl hfits hnul]
    simp only [Selector.matchesEvent, Bool.and_eq_true, beq_iff_eq, and_assoc]
    refine and_congr_right fun hevent => ?_
    -- an event of this type comes from an API record
    have hapi : kind.isApi = true :=
      isApi_of_eventKind (hview.eventType.symm.trans hevent) htype
    rw [hview.apiName hapi, hview.apiDomain hapi, Option.some_inj, Option.some_inj]
    simp only [hcode, false_or, hdomain]
    constructor
    · rintro ⟨hsame, -, heq⟩
      exact ⟨heq, hsame⟩
    · rintro ⟨heq, hsame⟩
      exact ⟨hsame, .inl rfl, heq⟩
  | memcpy eventType wanted htype hknown =>
    cases hdomain
    simp only [Selector.matchesEvent, Bool.and_eq_true, beq_iff_eq]
    refine and_congr_right fun hevent => ?_
    have hcopy : kind.isMemcpy = true :=
      isMemcpy_of_eventKind (hview.eventType.symm.trans hevent) htype
    rw [hview.memcpyKind hcopy, semanticMemcpyKind_eq]
    cases wanted with
    | none => exact ⟨fun _ => rfl, fun _ => ⟨.inl rfl, .inl rfl, nameMatches_any rfl _⟩⟩
    | some wanted =>
      have hcode : (selectedMemcpyKind (some wanted)).code ≠ 0 := by
        cases wanted <;> first | decide | exact absurd rfl hknown
      simp only [Option.all_some, beq_iff_eq, Option.some_inj, hcode, false_or,
        selectedMemcpyKind_code_injective.eq_iff]
      constructor
      · rintro ⟨-, heq, -⟩
        exact heq.symm
      · rintro rfl
        exact ⟨.inl rfl, rfl, nameMatches_any rfl _⟩
  | memset eventType htype =>
    cases hdomain
    simp only [Selector.matchesEvent, beq_iff_eq]
    constructor
    · exact fun h => h.1
    · exact fun h => ⟨h, .inl rfl, .inl rfl, nameMatches_any rfl _⟩

end Filters

/-! ## The agent's request -/

def filterAt (request : ControlRequest) (slot : Nat) : Filter :=
  if slot = 0 then request.filters.1 else request.filters.2

private theorem filterAt_toRequest {config : CuptiArmConfig} {slot : Nat}
    {filter : CuptiEventFilter} (haccept : config.Acceptable)
    (h : config.filters[slot]? = some filter) :
    filterAt config.toRequest slot = filter.toFilter := by
  have hslot := (List.getElem?_eq_some_iff.mp h).1
  have hle := haccept.filters_le
  obtain rfl | rfl : slot = 0 ∨ slot = 1 := by omega
  · exact agentFilters_first h
  · exact agentFilters_second h

/-- For every API, copy or memset selector that the validator resolves and whose filter
    `encode_control` accepts, and every record with a terminated UTF-8 name that the decoder
    accepts: the agent's filter accepts the record exactly when the correlator's selector, which
    exists, matches the event. -/
theorem prefilter_agrees (regexNew : RegexEngine) (system : EndpointSystem)
    (report : ProcessReport) (text label : String) (endpoint : Endpoint)
    (cuda : ResolvedCudaSelector) (filter : CuptiEventFilter) (config : CuptiArmConfig) (slot : Nat)
    (bytes : List UInt8) (record : Record) (name : String) (padding : List UInt8) (index : Nat)
    (sessionId : String) (flags : UInt32) (event : Event)
    (hresolve : resolveEndpoint regexNew system report text label = .ok endpoint)
    (hkind : isUnpatterned endpoint.kind = true) (hcuda : endpoint.validated.cuda = some cuda)
    (hfilter : cuptiEventFilter cuda = .ok filter) (hslot : config.filters[slot]? = some filter)
    (hencode : encodeControl ControlCommand.arm.code 0 (some config) = .ok bytes)
    (hname : record.name = utf8Bytes name ++ 0 :: padding) (hnul : 0 ∉ utf8Bytes name)
    (hdecode : decodeRecord record.encode index sessionId flags = .ok event) :
    ∃ (hlength : bytes.length = controlSize) (selector : Selector),
      Selector.parse regexNew text = .ok selector ∧
      (recordMatchesFilter record (filterAt (.ofBytes bytes hlength) slot) = true ↔
        selector.matchesEvent event = true) := by
  obtain ⟨selector, hselector, hreading⟩ := Core.reading_of_resolveEndpoint hresolve hcuda
  obtain ⟨haccept, rfl⟩ := (encodeControl_arm_eq_ok_iff config bytes).mp hencode
  have hstring : cString record.name = utf8Bytes name := by
    rw [hname, cString_append_nul hnul]
  obtain ⟨recordKind, hview⟩ := eventView_of_decodeRecord hstring hdecode
  refine ⟨ControlRequest.length_encode rfl, selector, hselector, ?_⟩
  rw [ControlRequest.ofBytes_encode rfl, filterAt_toRequest haccept hslot]
  exact recordMatchesFilter_iff_of_reading hreading hkind hfilter
    (haccept.names_fit filter (List.mem_of_getElem? hslot)) hname hnul hview

/-- A request for the copies to the device. -/
def copyConfig : CuptiArmConfig :=
  { recordCapacity := 64
    captureMode := .exact
    filters :=
      [{ recordKind := .gpuMemcpyStart, apiDomain := .any, memcpyKind := .hostToDevice
         name := .any }] }

/-- A copy of the host to the device, under `kind=HtoD`. -/
theorem prefilter_agrees_copy : ∃ selector event bytes, ∃ hlength : bytes.length = controlSize,
      Selector.parse Core.anyRegex "cuda:memcpy_start:kind=HtoD" = .ok selector ∧
      decodeRecord (copyStart 20 (by decide)).record.encode 0 "s" featureTransferRecords =
        .ok event ∧
      (recordMatchesFilter (copyStart 20 (by decide)).record
          (filterAt (.ofBytes bytes hlength) 0) = true ↔
        selector.matchesEvent event = true) := by
  have hdecode := decodeRecord_of_layout (copyStart 20 (by decide)).record.layout_encode
    (show RecordKind.announced featureTransferRecords .gpuMemcpyStart = true by decide) 0 "s"
  obtain ⟨endpoint, hendpoint⟩ : ∃ endpoint, resolveEndpoint Core.anyRegex Core.libcSystem
    Core.exampleReport "cuda:memcpy_start:kind=HtoD" "start" = .ok endpoint := ⟨_, rfl⟩
  cases hendpoint
  have haccept : copyConfig.Acceptable := by
    refine ⟨by decide, by decide, by decide, ?_⟩
    intro filter hfilter
    cases List.mem_singleton.mp hfilter
    exact ⟨by decide, by decide⟩
  obtain ⟨hlength, selector, hselector, hagrees⟩ := prefilter_agrees Core.anyRegex Core.libcSystem
    Core.exampleReport "cuda:memcpy_start:kind=HtoD" "start" _ _ _ copyConfig 0 _
    (copyStart 20 (by decide)).record "" (List.replicate 127 0) 0 "s" featureTransferRecords _
    rfl rfl rfl rfl rfl ((encodeControl_arm_eq_ok_iff copyConfig _).mpr ⟨haccept, rfl⟩) rfl
    (by decide) hdecode
  exact ⟨selector, _, _, hlength, hselector, hdecode, hagrees⟩

end Xprobe.Cli
