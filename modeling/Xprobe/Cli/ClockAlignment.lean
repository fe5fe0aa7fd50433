import Xprobe.Collector.Linux
import Xprobe.Cli.Clocks

/-!
# The clock requirement

The validator decides from the kinds of two endpoints whether a measurement needs its clocks
aligned; the correlator decides from the clock tags of the events that the two selectors pick. The
two agree, because the tag of an event is a function of its type and of one feature of the capture:
events of GPU activities carry the clock of the capture, all others the host's.
-/

namespace Xprobe.Cli

open Foundation Protocol Cupti Correlator
open Collector (bare HostCaptureResult)
open Xprobe.Core (EndpointKind Endpoint EndpointSystem ValidateSystem resolveEndpoint validateRun
  Agrees CorrelatorAccepts isActivityType resolveEndpoint_reads)

/-! ## The clock of an event -/

def clockOf (flags : UInt32) (eventType : EventType) : ClockDomain :=
  if isActivityType eventType then captureClock flags else .hostMonotonic

def LiveHostEvent (event : Event) : Prop :=
  (∃ request bpf sessionId result,
    Collector.capture request bpf sessionId = .ok result ∧ event ∈ result.events) ∨
  ∃ request bpf sessionId result,
    Collector.Linux.capture request bpf sessionId = .ok result ∧ event ∈ result.events

/-- An event of a host collector or of the capture, but for its session and its number, which
    merging rewrites. -/
def BuiltFrom (capture : CuptiCapture) (event : Event) : Prop :=
  ∃ original, bare event = bare original ∧ (LiveHostEvent original ∨ original ∈ capture.events)

/-- The endpoint of a valid Linux request is of a host event. -/
private theorem isActivityType_of_validProbe {probe : ResolvedLinuxSelector}
    (h : Collector.Linux.validProbe probe = true) : isActivityType probe.eventType = false := by
  unfold Collector.Linux.validProbe at h
  cases hkind : probe.probeKind <;> simp only [hkind] at h <;>
    cases htype : probe.eventType <;> simp_all [isActivityType]

variable {event : Event}

theorem clock_of_liveHostEvent (h : LiveHostEvent event) (flags : UInt32) :
    event.clockDomain = clockOf flags event.eventType := by
  rcases h with ⟨request, bpf, sessionId, result, hcapture, hevent⟩ |
    ⟨request, bpf, sessionId, result, hcapture, hevent⟩
  · obtain ⟨binaryPath, -, hevents⟩ := Collector.capture_eq_ok hcapture
    obtain ⟨raw, rfl⟩ := hevents event hevent
    unfold Collector.normalizeEvent clockOf
    dsimp only
    split_ifs with hkind hactivity hactivity
    · cases hactivity
    · rfl
    · cases hactivity
    · rfl
  · obtain ⟨hvalid, hevents⟩ := Collector.Linux.capture_eq_ok hcapture
    obtain ⟨raw, hraw⟩ := hevents event hevent
    obtain ⟨probe, hprobe, hraw⟩ := of_bind hraw
    cases hraw
    have hmem := List.mem_of_getElem? (okOr_eq_ok_iff.mp hprobe)
    have hactivity := isActivityType_of_validProbe (List.all_eq_true.mp hvalid probe hmem)
    simp [clockOf, hactivity]

theorem clock_of_mem_decodeCapture {bytes : List UInt8} {sessionId : String}
    {capture : CuptiCapture} (h : decodeCapture bytes sessionId = .ok capture)
    (hevent : event ∈ capture.events) :
    event.clockDomain = clockOf (readU32 bytes 20) event.eventType := by
  obtain ⟨piece, index, decoded, sequence, hdecode, rfl⟩ := exists_decodeRecord_of_mem h hevent
  obtain ⟨kind, -, hkind, hclock, -⟩ := decodeRecord_eq_ok hdecode
  show decoded.clockDomain = clockOf (readU32 bytes 20) decoded.eventType
  rw [hclock, (Prod.mk.inj hkind).2]
  cases kind <;> rfl

/-- The clock of an event of a measurement follows from its type. -/
theorem clock_of_builtFrom {bytes : List UInt8} {sessionId : String} {capture : CuptiCapture}
    (h : decodeCapture bytes sessionId = .ok capture) (hevent : BuiltFrom capture event) :
    event.clockDomain = clockOf (readU32 bytes 20) event.eventType := by
  obtain ⟨original, hsame, horigin⟩ := hevent
  have hclock : event.clockDomain = original.clockDomain := by
    show (bare event).clockDomain = (bare original).clockDomain
    rw [hsame]
  have htype : event.eventType = original.eventType := by
    show (bare event).eventType = (bare original).eventType
    rw [hsame]
  rw [hclock, htype]
  rcases horigin with hhost | hcuda
  · exact clock_of_liveHostEvent hhost _
  · exact clock_of_mem_decodeCapture h hcuda

/-! ## The clock of an endpoint -/

/-- A selector picks events of its endpoint's type only. -/
theorem eventType_of_matchesEvent {text : String} {eventType : EventType}
    {endpointKind : EndpointKind} {selector : Selector}
    (hagrees : Agrees text endpointKind eventType selector)
    (h : selector.matchesEvent event = true) : event.eventType = eventType := by
  cases hagrees <;> simp only [Selector.matchesEvent, Bool.and_eq_true, beq_iff_eq] at h <;>
    first | exact h | exact h.1 | exact h.1.1

/-! ## The common clock of two lists -/

variable {first : ClockDomain}

theorem checkClockGroup_eq_error_iff {refs : List EventRef} {normalized : Bool} :
    (∃ domain domain', checkClockGroup first refs normalized =
        .error (.clockDomainsDiffer domain domain')) ↔
      ∃ ref ∈ refs, clockGroup ref.event.clockDomain ≠ clockGroup first := by
  induction refs generalizing normalized with
  | nil => simp [checkClockGroup]
  | cons ref rest ih =>
    rw [checkClockGroup]
    split_ifs with hdiffers
    · simp [hdiffers]
    · rw [ih]
      simp [not_not.mp hdiffers]

variable {starts ends : List EventRef}

/-- The clocks differ exactly when some event is in another group than the first. -/
theorem commonClockDomain_eq_error_iff : (∃ domain domain', commonClockDomain starts ends =
        .error (.clockDomainsDiffer domain domain')) ↔
      ∃ first rest, starts ++ ends = first :: rest ∧
        ∃ ref ∈ rest, clockGroup ref.event.clockDomain ≠ clockGroup first.event.clockDomain := by
  unfold commonClockDomain
  cases hrefs : starts ++ ends with
  | nil => simp
  | cons first rest =>
    have hloop := @checkClockGroup_eq_error_iff first.event.clockDomain rest
      (first.event.clockDomain == .cuptiNormalizedToHostMonotonic)
    simp only [List.cons.injEq, ↓existsAndEq, true_and, ← hloop]
    constructor
    · rintro ⟨domain, domain', h⟩
      rcases bind_eq_error_iff.mp h with herror | ⟨normalized, -, herror⟩
      · exact ⟨domain, domain', herror⟩
      · -- after the loop only the common domain is left to choose
        split_ifs at herror
    · rintro ⟨domain, domain', h⟩
      exact ⟨domain, domain', bind_eq_error_iff.mpr (.inl h)⟩

/-- When all events of a side have one clock, the two clocks differ exactly when both sides have
    events and the clocks are in different groups. -/
theorem commonClockDomain_differ_iff {startClock endClock : ClockDomain}
    (hstarts : ∀ ref ∈ starts, ref.event.clockDomain = startClock)
    (hends : ∀ ref ∈ ends, ref.event.clockDomain = endClock) :
    (∃ domain domain', commonClockDomain starts ends =
        .error (.clockDomainsDiffer domain domain')) ↔
      starts ≠ [] ∧ ends ≠ [] ∧ clockGroup startClock ≠ clockGroup endClock := by
  rw [commonClockDomain_eq_error_iff]
  constructor
  · rintro ⟨first, rest, hrefs, ref, href, hdiffers⟩
    have hmem : ref ∈ starts ++ ends := hrefs ▸ List.mem_cons_of_mem _ href
    cases starts with
    | nil =>
      have hfirst : first ∈ ends := by
        rw [List.nil_append] at hrefs
        exact hrefs ▸ List.mem_cons_self
      rw [hends ref hmem, hends first hfirst] at hdiffers
      exact absurd rfl hdiffers
    | cons start starts =>
      obtain ⟨rfl, -⟩ := List.cons.inj hrefs
      rw [hstarts start List.mem_cons_self] at hdiffers
      rcases List.mem_append.mp hmem with hstart | hend
      · rw [hstarts ref hstart] at hdiffers
        exact absurd rfl hdiffers
      · rw [hends ref hend] at hdiffers
        exact ⟨List.cons_ne_nil _ _, List.ne_nil_of_mem hend, hdiffers.symm⟩
  · rintro ⟨hstart, hend, hdiffers⟩
    obtain ⟨start, starts, rfl⟩ := List.exists_cons_of_ne_nil hstart
    obtain ⟨other, ends, rfl⟩ := List.exists_cons_of_ne_nil hend
    refine ⟨start, starts ++ other :: ends, rfl, other, by simp, ?_⟩
    rw [hstarts start List.mem_cons_self, hends other List.mem_cons_self]
    exact hdiffers.symm

/-! ## The requirement -/

def Selects (regexNew : RegexEngine) (text : String) (events : List Event) : Prop :=
  ∃ selector, Selector.parse regexNew text = .ok selector ∧
    ∃ event ∈ events, selector.matchesEvent event = true

/-- The window reports a limit only. -/
private theorem applyDurationWindow_ne_differ {duration : Option Nat} {other : ClockDomain} :
    applyDurationWindow starts ends duration ≠ .error (.clockDomainsDiffer first other) := by
  unfold applyDurationWindow
  cases duration with
  | none => simp
  | some duration =>
    cases firstTimestamp starts ends with
    | none => simp
    | some timestamp =>
      dsimp only
      split_ifs
      · simp [invalidLimit]
      · cases checkedAdd timestamp (UInt64.ofNat duration) with
        | none => simp [invalidLimit]
        | some last => simp

/-- The measurement reports clocks that differ exactly when those of the selected events do. -/
theorem measure_differ_iff {regexNew : RegexEngine} {events : List Event} {options : MeasureOptions}
    {startSelector endSelector : Selector} {other : ClockDomain}
    (hoptions : validateOptions options = .ok ()) (hcapture : checkCapture events options = .ok ())
    (hstart : Selector.parse regexNew options.startSelector = .ok startSelector)
    (hend : Selector.parse regexNew options.endSelector = .ok endSelector)
    (hpolicy : validatePolicy startSelector endSelector options.matchPolicy = .ok ()) :
    Correlator.measure regexNew events options =
        some (.error (.clockDomainsDiffer first other)) ↔
      commonClockDomain (selectEvents startSelector events) (selectEvents endSelector events) =
        .error (.clockDomainsDiffer first other) := by
  have hselect : select regexNew events options = .error (.clockDomainsDiffer first other) ↔
      commonClockDomain (selectEvents startSelector events) (selectEvents endSelector events) =
        .error (.clockDomainsDiffer first other) := by
    simp only [select, hoptions, hcapture, hstart, hend, hpolicy, ok_bind]
    constructor
    · intro h
      rcases bind_eq_error_iff.mp h with herror | ⟨clockDomain, -, h⟩
      · exact herror
      · rcases bind_eq_error_iff.mp h with herror | ⟨⟨starts, ends⟩, -, h⟩
        · exact absurd herror applyDurationWindow_ne_differ
        · cases h
    · intro h
      exact bind_eq_error_iff.mpr (.inl h)
  rw [← hselect]
  unfold Correlator.measure measureSelected
  cases hselected : select regexNew events options with
  | error error => simp
  | ok selected =>
    -- after the selection the only error is that nothing matched
    simp only [reduceCtorEq, iff_false]
    intro h
    obtain ⟨outcome, -, h⟩ := Option.bind_eq_some_iff.mp h
    split_ifs at h
    · cases h
    · obtain ⟨result, -, h⟩ := Option.bind_eq_some_iff.mp h
      cases h

/-- The groups of two types differ exactly when one is of activities, the other is not, and the
    activities are not on the host's clock. -/
private theorem clockGroup_clockOf_ne_iff {flags : UInt32} {startType endType : EventType} :
    clockGroup (clockOf flags startType) ≠ clockGroup (clockOf flags endType) ↔
      (isActivityType startType != isActivityType endType) = true ∧
        hasFeature flags featureHostMonotonicTimestamps = false := by
  cases hstart : isActivityType startType <;> cases hend : isActivityType endType <;>
    cases hfeature : hasFeature flags featureHostMonotonicTimestamps <;>
    simp [clockOf, captureClock, clockGroup, hstart, hend, hfeature]

private theorem selectEvents_ne_nil_iff {regexNew : RegexEngine} {text : String}
    {selector : Selector} (hparse : Selector.parse regexNew text = .ok selector)
    {events : List Event} : selectEvents selector events ≠ [] ↔ Selects regexNew text events := by
  constructor
  · intro hne
    obtain ⟨ref, href⟩ := List.exists_mem_of_ne_nil _ hne
    obtain ⟨hinput, hmatch⟩ := mem_selectEvents.mp href
    exact ⟨selector, hparse, ref.event, List.mem_of_getElem? (mem_eventRefs hinput), hmatch⟩
  · rintro ⟨selector', hparse', event, hevent, hmatch⟩
    rw [hparse] at hparse'
    cases hparse'
    obtain ⟨ref, href, -⟩ := exists_mem_selectEvents hevent hmatch
    exact List.ne_nil_of_mem href

/-- The validator predicts whether the clocks of a measurement differ: they do exactly when it asks
    for alignment, the capture is not on the host's clock, and both selectors pick events. -/
theorem measure_clockDomainsDiffer_iff (regexNew : RegexEngine) (system : ValidateSystem)
    (report : ProcessReport) (policyText : String) (validation : ValidationResult)
    (options : MeasureOptions) (bytes : List UInt8) (sessionId : String) (capture : CuptiCapture)
    (events : List Event)
    (hvalidate : validateRun regexNew system report options.startSelector options.endSelector
      policyText = .ok validation)
    (haccepts : CorrelatorAccepts regexNew options.startSelector options.endSelector
      options.matchPolicy)
    (hoptions : validateOptions options = .ok ())
    (hdecode : decodeCapture bytes sessionId = .ok capture)
    (hbuilt : ∀ event ∈ events, BuiltFrom capture event)
    (hlength : events.length ≤ options.maxEvents) (hdropped : options.droppedEvents = 0) :
    (∃ first other, Correlator.measure regexNew events options =
        some (.error (.clockDomainsDiffer first other))) ↔
      validation.requirements.needsClockAlignment = true ∧
        hasFeature (readU32 bytes 20) featureHostMonotonicTimestamps = false ∧
        Selects regexNew options.startSelector events ∧
        Selects regexNew options.endSelector events := by
  obtain ⟨startPoint, endPoint, hstartPoint, hendPoint, -, -, hrequirements⟩ :=
    Core.validateRun_eq_ok hvalidate
  obtain ⟨startSelector, endSelector, hstartParse, hendParse, hpolicy⟩ := haccepts
  -- both sides read the texts alike, so a selector picks events of its endpoint's type
  have hclock : ∀ {system : EndpointSystem} {text name : String} {endpoint : Endpoint}
      {selector : Selector}, resolveEndpoint regexNew system report text name = .ok endpoint →
      Selector.parse regexNew text = .ok selector → ∀ ref ∈ selectEvents selector events,
      ref.event.clockDomain = clockOf (readU32 bytes 20) endpoint.validated.eventType := by
    intro system text name endpoint selector hresolve hparse ref href
    obtain ⟨⟨selector', hparse', hagrees⟩, -⟩ := resolveEndpoint_reads hresolve
    rw [hparse] at hparse'
    cases hparse'
    obtain ⟨hinput, hmatch⟩ := mem_selectEvents.mp href
    rw [clock_of_builtFrom hdecode (hbuilt _ (List.mem_of_getElem? (mem_eventRefs hinput))),
      eventType_of_matchesEvent hagrees hmatch]
  have hcapture : checkCapture events options = .ok () := by
    rw [checkCapture, if_neg (Nat.not_lt.mpr hlength), if_neg (not_not.mpr hdropped)]
  have hneeds : validation.requirements.needsClockAlignment =
      (isActivityType startPoint.validated.eventType !=
        isActivityType endPoint.validated.eventType) := by
    rw [hrequirements]
    show (startPoint.kind.usesHostClock != endPoint.kind.usesHostClock) = _
    rw [(resolveEndpoint_reads hstartPoint).2, (resolveEndpoint_reads hendPoint).2]
    simp
  simp only [measure_differ_iff hoptions hcapture hstartParse hendParse hpolicy]
  rw [commonClockDomain_differ_iff (hclock hstartPoint hstartParse) (hclock hendPoint hendParse),
    clockGroup_clockOf_ne_iff, selectEvents_ne_nil_iff hstartParse,
    selectEvents_ne_nil_iff hendParse, hneeds]
  constructor
  · rintro ⟨hstart, hend, hkinds, hfeature⟩
    exact ⟨hkinds, hfeature, hstart, hend⟩
  · rintro ⟨hkinds, hfeature, hstart, hend⟩
    exact ⟨hstart, hend, hkinds, hfeature⟩

/-! ## A system call before copies -/

/-- One endpoint at the entry of `read`. -/
def readEntryRequest : Collector.Linux.LinuxCaptureRequest :=
  { target := { pid := 7, processStartTime := 5 }
    probes :=
      [{ eventType := .syscallEntry, probeKind := .syscall, category := "syscalls", name := "read"
         syscallNumber := some 0, binaryPath := none, provider := none }]
    eventLimit := 1
    capacityLimit := false
    timeout := 1 }

/-- The kernel sends one record. -/
def readEntryRun : Collector.Linux.BpfRun :=
  { deadlineFits := true
    attach := .ok ()
    records := [List.replicate 80 0]
    dropped := .ok 0 }

def readToCopyOptions : MeasureOptions :=
  { Correlator.readOptions with
    endSelector := "cuda:memcpy_start"
    matchPolicy := .firstAfter
    samples := some 1
    duration := none }

theorem measure_clockDomainsDiffer_copies :
    ∃ result, Collector.Linux.capture readEntryRequest readEntryRun "s" = .ok result ∧
      ∃ first other, Correlator.measure Core.anyRegex
        (result.events ++ (wholeCopies.image "s").events) readToCopyOptions =
          some (.error (.clockDomainsDiffer first other)) := by
  have hview : (Collector.Linux.capture readEntryRequest readEntryRun "s").toOption.map (fun result =>
      (result.events.length,
        result.events.any (Selector.syscall .syscallEntry "read").matchesEvent)) =
      some (1, true) := by
    decide +kernel
  obtain ⟨result, hresult, hevents⟩ := Option.map_eq_some_iff.mp hview
  obtain ⟨hlength, hread⟩ := Prod.mk.inj hevents
  have hcapture : Collector.Linux.capture readEntryRequest readEntryRun "s" = .ok result := by
    cases hrun : Collector.Linux.capture readEntryRequest readEntryRun "s" with
    | error error => simp [hrun, Except.toOption] at hresult
    | ok result' =>
      rw [hrun] at hresult
      exact congrArg Except.ok (Option.some.inj hresult)
  obtain ⟨event, hevent, hmatch⟩ := List.any_eq_true.mp hread
  have hcopy : ∃ event ∈ (wholeCopies.image "s").events,
      (Selector.memcpy .gpuMemcpyStart none).matchesEvent event = true := by
    decide +kernel
  obtain ⟨copy, hmem, hcopied⟩ := hcopy
  have hvalidated : ∃ validation, validateRun Core.anyRegex
      { startTimeBefore := .ok 5, startTimeAfter := .ok 5, startSystem := Core.libcSystem
        endSystem := Core.libcSystem, targetMajor := .ok none }
      Core.exampleReport readToCopyOptions.startSelector readToCopyOptions.endSelector
      "first-after" = .ok validation ∧
        validation.requirements.needsClockAlignment = true := ⟨_, rfl, rfl⟩
  obtain ⟨validation, hvalidate, hneeds⟩ := hvalidated
  refine ⟨result, hcapture, (measure_clockDomainsDiffer_iff _ _ _ _ validation readToCopyOptions
    wholeCopies.bytes.toList "s" (wholeCopies.image "s") _ hvalidate ⟨_, _, rfl, rfl, rfl⟩ rfl
    (wholeCopies.decode_eq "s") ?_ ?_ rfl).mpr ⟨hneeds, by decide +kernel, ?_, ?_⟩⟩
  · intro event hevent
    rcases List.mem_append.mp hevent with hhost | hcuda
    · exact ⟨event, rfl, .inl (.inr ⟨readEntryRequest, readEntryRun, "s", result, hcapture, hhost⟩)⟩
    · exact ⟨event, rfl, .inr hcuda⟩
  · rw [List.length_append, hlength, wholeCopies.length_image_events]
    decide
  · exact ⟨_, rfl, event, List.mem_append_left _ hevent, hmatch⟩
  · exact ⟨_, rfl, copy, List.mem_append_right _ hmem, hcopied⟩

end Xprobe.Cli
