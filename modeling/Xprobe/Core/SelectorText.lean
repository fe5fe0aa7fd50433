import Xprobe.Foundation.WrittenText
import Xprobe.Core.Agreement
import Xprobe.Core.Symbolize

/-!
# Selectors of host probes as texts

The texts of `uprobe:` selectors and the hints that the CPU sampling analysis gives for its
hotspots. A path or a C++ name may have colons of its own: the boundary is behind the last colon,
and `:symbol=` has no colon inside, so its first occurrence in a selector is at the end of a path
without it.
-/

namespace Xprobe.Core

open Foundation Protocol
open Correlator (RegexEngine Selector)

/-! ## The texts -/

def Boundary.text : Boundary → String
  | .entry => "entry"
  | .return => "return"

/-- A symbol in its `symbol=` form, an offset as `+0x` and its hexadecimal digits. -/
def ProbeTarget.text : ProbeTarget → String
  | .symbol name => s!"symbol={name}"
  | .fileOffset value => s!"+0x{Text.lowerHex value}"

def uprobeText (path : String) (target : ProbeTarget) (boundary : Boundary) : String :=
  let binaryAndTarget := s!"{path}:{target.text}"
  s!"uprobe:{binaryAndTarget}:{boundary.text}"

/-- A name that the `symbol=` form can hold. -/
def ProbeTarget.Writable : ProbeTarget → Prop
  | .symbol name => name ≠ "" ∧ Text.startsWith name "+" = false
  | .fileOffset _ => True

/-- `selector_hints`. -/
def selectorHints (frame : CpuStackFrame) : Option String × Option String :=
  if frame.language ≠ .native then (none, none)
  else
    match frame.modulePath, frame.fileOffset, frame.symbolOffset with
    | some path, some offset, some symbolOffset =>
      match checkedSub offset symbolOffset with
      | some symbolStart =>
        (some s!"uprobe:{path}:+0x{Text.lowerHex symbolStart}:entry",
          some s!"uprobe:{path}:+0x{Text.lowerHex symbolStart}:return")
      | none => (none, none)
    | _, _, _ => (none, none)

/-! ## Cutting them again -/

section Cutting

variable {path : String} {target : ProbeTarget}

/-- The text behind the path, as `split_target` cuts it. -/
def ProbeTarget.cut : ProbeTarget → String
  | .symbol name => name
  | .fileOffset value => s!"+0x{Text.lowerHex value}"

theorem splitTarget_text (hfree : ¬":symbol=".toList <:+: path.toList) :
    splitTarget s!"{path}:{target.text}" = .ok (path, target.cut) := by
  have hpattern : ":symbol=" = String.ofList (':' :: "symbol=".toList) := by decide
  have hword : ':' ∉ "symbol=".toList := by decide
  cases target with
  | symbol name =>
    have hcut : Text.splitOnceStr s!"{path}:{ProbeTarget.text (.symbol name)}" ":symbol=" =
        some (path, name) := by
      rw [hpattern]
      exact Text.splitOnceStr_append hword hfree (by simp [ProbeTarget.text, toString])
    simp only [splitTarget, hcut, ProbeTarget.cut]
  | fileOffset value =>
    have hcolon : ':' ∉ (ProbeTarget.text (.fileOffset value)).toList := by
      have hdigits := Text.not_mem_lowerHex (by decide : Text.hexDigit ':' = none) value
      simpa [ProbeTarget.text, toString] using hdigits
    have htext : (s!"{path}:{ProbeTarget.text (.fileOffset value)}").toList =
        path.toList ++ ':' :: (ProbeTarget.text (.fileOffset value)).toList := by
      simp [toString]
    have hnone : Text.splitOnceStr s!"{path}:{ProbeTarget.text (.fileOffset value)}" ":symbol=" =
        none := by
      rw [hpattern]
      refine Text.splitOnceStr_eq_none hword hfree hcolon ?_ htext
      simp [ProbeTarget.text, toString]
    simp only [splitTarget, hnone, Text.rsplitOnce_append htext hcolon, okOr_some]
    rfl

theorem parseTarget_cut (h : target.Writable) : parseTarget target.cut = .ok target := by
  cases target with
  | symbol name =>
    obtain ⟨-, hplus⟩ := h
    have hstrip : Text.stripPrefix name "+0x" = none := by
      refine Text.stripPrefix_eq_none (Bool.eq_false_iff.mpr fun hlong => ?_)
      have hshort : "+".toList <+: name.toList :=
        (by decide : "+".toList <+: "+0x".toList).trans (List.isPrefixOf_iff_prefix.mp hlong)
      exact Bool.eq_false_iff.mp hplus (List.isPrefixOf_iff_prefix.mpr hshort)
    simp [parseTarget, ProbeTarget.cut, hstrip, hplus]
  | fileOffset value =>
    have hstrip : Text.stripPrefix (ProbeTarget.cut (.fileOffset value)) "+0x" =
        some (Text.lowerHex value) :=
      Text.stripPrefix_of_toList (by simp [ProbeTarget.cut, toString])
    simp only [parseTarget, hstrip, Text.fromStrRadix16_lowerHex]

theorem cut_ne_empty (h : target.Writable) : target.cut ≠ "" := by
  cases target with
  | symbol name => exact h.1
  | fileOffset value => simp [ProbeTarget.cut, toString]

theorem parseBoundary_text (boundary : Boundary) : parseBoundary boundary.text = .ok boundary := by
  cases boundary <;> rfl

/-- The boundary is behind the last colon, whatever stands before it. -/
theorem rsplitOnce_boundary (text : String) (boundary : Boundary) :
    Text.rsplitOnce s!"{text}:{boundary.text}" ':' = some (text, boundary.text) := by
  refine Text.rsplitOnce_append (by simp [toString]) ?_
  cases boundary <;> decide

theorem stripPrefix_uprobe (text : String) (boundary : Boundary) :
    Text.stripPrefix s!"uprobe:{text}:{boundary.text}" "uprobe:" =
      some s!"{text}:{boundary.text}" :=
  Text.stripPrefix_of_toList (by simp [toString])

theorem parseSelector_uprobeText (hpath : path ≠ "") (hfree : ¬":symbol=".toList <:+: path.toList)
    (htarget : target.Writable) (boundary : Boundary) :
    parseSelector (uprobeText path target boundary) =
      .ok { binary := .ofString path, target, boundary } := by
  have hparts : ¬(path = "" ∨ target.cut = "") := not_or.mpr ⟨hpath, cut_ne_empty htarget⟩
  simp only [parseSelector, uprobeText, stripPrefix_uprobe, rsplitOnce_boundary, okOr_some, ok_bind, parseBoundary_text,
    splitTarget_text hfree, ensure_of hparts, parseTarget_cut htarget]
  rfl

end Cutting

/-! ## Entry and return -/

section Hints

variable {regexNew : RegexEngine} {path : String} {target : ProbeTarget}

/-- What the correlator reads before the boundary does not depend on the boundary. -/
theorem parse_uprobeText (boundary : Boundary) :
    Selector.parse regexNew (uprobeText path target boundary) = (do
      let (binaryPath, targetText) ← Selector.splitHostTarget s!"{path}:{target.text}"
      if binaryPath = "" ∨ targetText = "" then
        Correlator.invalidSelector "uprobe binary path and target must not be empty"
      else
        let target ← Selector.parseHostTarget targetText
        .ok (.host boundary.eventType boundary.probeKind binaryPath target)) := by
  have hboundary : Selector.parseHostBoundary boundary.text =
      .ok (boundary.eventType, boundary.probeKind) := by
    cases boundary <;> rfl
  simp only [Selector.parse, uprobeText, stripPrefix_uprobe, Selector.parseHost,
    rsplitOnce_boundary, hboundary, ok_bind]

/-- The entry and the return of one target are a pair that `stack-nested` supports. -/
theorem supportsStackNested_uprobeText {startSelector : Selector}
    (h : Selector.parse regexNew (uprobeText path target .entry) = .ok startSelector) :
    ∃ endSelector, Selector.parse regexNew (uprobeText path target .return) = .ok endSelector ∧
      startSelector.supportsStackNested endSelector = true := by
  rw [parse_uprobeText] at h ⊢
  obtain ⟨⟨binaryPath, targetText⟩, hsplit, h⟩ := of_bind h
  dsimp only at h
  split_ifs at h with hempty
  · cases h
  · obtain ⟨hostTarget, htarget, h⟩ := of_bind h
    cases h
    refine ⟨.host .hostFunctionExit .uretprobe binaryPath hostTarget, ?_, ?_⟩
    · simp only [hsplit, ok_bind, if_neg hempty, htarget]
      rfl
    · simp [Boundary.eventType, Selector.supportsStackNested]

/-- Hints are selectors of the start of the hotspot's symbol. -/
theorem selectorHints_eq_some {frame : CpuStackFrame} {entryHint returnHint : String}
    (h : selectorHints frame = (some entryHint, some returnHint)) :
    ∃ path symbolStart, frame.modulePath = some path ∧
      entryHint = uprobeText path (.fileOffset symbolStart) .entry ∧
      returnHint = uprobeText path (.fileOffset symbolStart) .return := by
  unfold selectorHints at h
  split_ifs at h with hnative
  · simp at h
  · split at h
    case h_1 path offset symbolOffset hpath _ _ =>
      cases hstart : checkedSub offset symbolOffset with
      | none => simp [hstart] at h
      | some symbolStart =>
        rw [hstart] at h
        obtain ⟨hentry, hreturn⟩ := Prod.mk.inj h
        refine ⟨path, symbolStart, hpath, ?_, ?_⟩
        · rw [← Option.some.inj hentry]
          exact String.toList_inj.mp (by simp [uprobeText, ProbeTarget.text, Boundary.text, toString])
        · rw [← Option.some.inj hreturn]
          exact String.toList_inj.mp (by simp [uprobeText, ProbeTarget.text, Boundary.text, toString])
    case h_2 => simp at h

end Hints

/-- Both parsers read back the path, the target and the boundary that a selector was written from.
    The entry and return hints of a hotspot are a pair that `stack-nested` supports as soon as one
    of them is accepted, and they are accepted for such a path. -/
theorem uprobeSelectors_roundTrip (regexNew : RegexEngine) :
    (∀ path target boundary, path ≠ "" → ¬":symbol=".toList <:+: path.toList →
      ProbeTarget.Writable target →
      parseSelector (uprobeText path target boundary) =
        .ok { binary := .ofString path, target, boundary } ∧
      Selector.parse regexNew (uprobeText path target boundary) =
        .ok (.host boundary.eventType boundary.probeKind path target.toHostTarget)) ∧
    ∀ frame entryHint returnHint, selectorHints frame = (some entryHint, some returnHint) →
      (∀ startSelector, Selector.parse regexNew entryHint = .ok startSelector →
        ∃ endSelector, Selector.parse regexNew returnHint = .ok endSelector ∧
          startSelector.supportsStackNested endSelector = true) ∧
      ∀ path, frame.modulePath = some path → path ≠ "" → ¬":symbol=".toList <:+: path.toList →
        ∃ startSelector, Selector.parse regexNew entryHint = .ok startSelector := by
  have hparse : ∀ path target boundary, path ≠ "" → ¬":symbol=".toList <:+: path.toList →
      ProbeTarget.Writable target → Selector.parse regexNew (uprobeText path target boundary) =
        .ok (.host boundary.eventType boundary.probeKind path target.toHostTarget) := by
    intro path target boundary hpath hfree htarget
    obtain ⟨binary, hbinary, hparse⟩ :=
      parse_of_parseSelector (parseSelector_uprobeText hpath hfree htarget boundary) regexNew
    rwa [← PathBuf.ofString_injective hbinary] at hparse
  refine ⟨fun path target boundary hpath hfree htarget =>
    ⟨parseSelector_uprobeText hpath hfree htarget boundary,
      hparse path target boundary hpath hfree htarget⟩, ?_⟩
  intro frame entryHint returnHint hhints
  obtain ⟨path, symbolStart, hmodule, rfl, rfl⟩ := selectorHints_eq_some hhints
  refine ⟨fun startSelector hstart => supportsStackNested_uprobeText hstart, ?_⟩
  intro path' hmodule' hpath hfree
  rw [hmodule] at hmodule'
  cases hmodule'
  exact ⟨_, hparse path (.fileOffset symbolStart) .entry hpath hfree trivial⟩

/-- Colons in the path and in the name. -/
theorem uprobeSelectors_roundTrip_colons :
    parseSelector "uprobe:/opt/a:b/lib.so:symbol=ns::run(int):return" =
      .ok { binary := .ofString "/opt/a:b/lib.so", target := .symbol "ns::run(int)"
            boundary := .return } :=
  ((uprobeSelectors_roundTrip (fun _ => .ok ⟨fun _ => true⟩)).1 "/opt/a:b/lib.so"
    (.symbol "ns::run(int)") .return (by decide) (by decide) ⟨by decide, by decide⟩).1

end Xprobe.Core
