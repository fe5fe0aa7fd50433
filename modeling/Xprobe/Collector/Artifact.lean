import Xprobe.Collector.Uprobe
import Xprobe.Collector.Completed

/-!
# Capture files

Reading a capture from a file, which may hold a CUPTI binary, the JSON of a host capture or a stream
of events (`decode` in `xprobe/collector/src/completed.rs`), and writing a stream of events
(`xprobe/exporter/src/lib.rs`).

What `serde_json` does is a parameter. The one thing used about it is that it reads back the events
that it wrote (`SerdeJson.ReadsBack`).
-/

namespace Xprobe.Collector

open Foundation Protocol Cupti

/-! ## JSON -/

/-- The functions of `serde_json` that read and write captures. -/
structure SerdeJson where
  /-- `to_string` of an event. -/
  eventToString : Event → Except String String
  /-- `Deserializer::from_slice(bytes).into_iter::<Value>()`. -/
  documents : List UInt8 → List (Except String Value)
  /-- `from_value::<Event>`. -/
  eventFromValue : Value → Except String Event
  /-- `from_value::<HostCaptureResult>`. -/
  hostCaptureFromValue : Value → Except String HostCaptureResult

/-- `Value::get` with a name. -/
def getMember : Value → String → Option Value
  | .object members, name => (members.find? (fun member => member.1 == name)).map Prod.snd
  | _, _ => none

variable (json : SerdeJson)

/-- `events_to_jsonl`. -/
def eventsToJsonl : List Event → Except String String
  | [] => .ok ""
  | event :: rest => do
    let line ← json.eventToString event
    let others ← eventsToJsonl rest
    return line ++ "\n" ++ others

/-! ## Decoding -/

/-- The loop of `decode_json` over the documents after the first. -/
def decodeEvents : List (Except String Value) → Except CompletedCaptureError (List Event)
  | [] => .ok []
  | document :: rest => do
    let document ← document.mapError .json
    ensure ((getMember document "events").isNone = true) .hostCaptureInsideEventStream
    let event ← (json.eventFromValue document).mapError .json
    let others ← decodeEvents rest
    return event :: others

/-- The completed capture that `decode_json` makes of a host capture. -/
def CompletedCapture.ofHost (capture : HostCaptureResult) : CompletedCapture :=
  { droppedRecords := capture.dropped
    unknownRecords := 0
    recordLimitReached :=
      if capture.recordLimitReached then some (UInt64.ofNat capture.captured) else none
    captureFailed := false
    cupti := none
    events := capture.events }

/-- The branch of `decode_json` for a host capture: it must be the only document. -/
def decodeHostCapture (first : Value) :
    List (Except String Value) → Except CompletedCaptureError CompletedCapture
  | [] => do
    let capture ← (json.hostCaptureFromValue first).mapError .json
    return .ofHost capture
  | .error error :: _ => .error (.json error)
  | .ok _ :: _ => .error .hostCaptureFollowedByAnotherDocument

/-- `decode_json`. -/
def decodeJson (bytes : List UInt8) : Except CompletedCaptureError CompletedCapture :=
  match json.documents bytes with
  | [] => .error .emptyInput
  | first :: documents => do
    let first ← first.mapError .json
    if (getMember first "events").isSome then decodeHostCapture json first documents
    else
      let event ← (json.eventFromValue first).mapError .json
      let events ← decodeEvents json documents
      return .ofEvents (event :: events)

/-- `u8::is_ascii_whitespace`. -/
def isAsciiWhitespace (byte : UInt8) : Bool :=
  byte == 0x20 || byte == 0x09 || byte == 0x0a || byte == 0x0c || byte == 0x0d

/-- `decode`. -/
def decode (bytes : List UInt8) (sessionId : String) :
    Except CompletedCaptureError CompletedCapture := do
  let first ← okOr (bytes.find? (fun byte => !isAsciiWhitespace byte)) .emptyInput
  -- an opening brace
  if first = 0x7b then decodeJson json bytes
  else
    let capture ← (decodeCapture bytes sessionId).mapError .cupti
    return .ofCupti capture

/-! ## Error texts -/

/-- The text of a `CuptiDecodeError`. -/
def cuptiDecodeMessage : CuptiDecodeError → Message
  | .headerTooShort actual =>
    [.lit "CUPTI capture header requires at least ", .display (toString headerSize),
      .lit " bytes, found ", .display (toString actual)]
  | .invalidMagic => Message.of "CUPTI capture magic is invalid"
  | .unsupportedAbi version =>
    [.lit "unsupported CUPTI capture ABI version ", .display (toString version)]
  | .unsupportedFeatureFlags flags =>
    [.lit "unsupported CUPTI capture feature flags 0x",
      .display (String.ofList (Nat.toDigits 16 flags.toNat))]
  | .invalidHeaderSize version actual expected =>
    [.lit "CUPTI capture ABI ", .display (toString version), .lit " header size is ",
      .display (toString actual), .lit ", expected ", .display (toString expected)]
  | .invalidRecordSize size =>
    [.lit "CUPTI capture record size is ", .display (toString size), .lit ", expected ",
      .display (toString recordSize)]
  | .captureLengthOverflow =>
    Message.of "CUPTI capture record count exceeds addressable memory"
  | .invalidCaptureLength expected actual =>
    [.lit "CUPTI capture requires ", .display (toString expected), .lit " bytes, found ",
      .display (toString actual)]
  | .unknownRecordKind index kind =>
    [.lit "CUPTI record ", .display (toString index), .lit " has unknown kind ",
      .display (toString kind)]
  | .invalidName index =>
    [.lit "CUPTI record ", .display (toString index), .lit " name is not valid UTF-8"]
  | .invalidTimestamp index kind =>
    [.lit "CUPTI record ", .display (toString index), .lit " of kind ", .display (toString kind),
      .lit " has a zero timestamp"]
  | .invalidNvtxRecord index message =>
    [.lit "CUPTI NVTX record ", .display (toString index), .lit " is invalid: ",
      .display message]
  | .invalidAggregateRecord index message =>
    [.lit "CUPTI aggregate record ", .display (toString index), .lit " is invalid: ",
      .display message]
  | .invalidCaptureState state =>
    [.lit "CUPTI capture state ", .display (toString state), .lit " is invalid"]
  | .invalidStopReason reason =>
    [.lit "CUPTI capture stop reason ", .display (toString reason), .lit " is invalid"]
  | .invalidCounters offset records capacity observed =>
    [.lit "CUPTI capture counters are inconsistent: offset=", .display (toString offset),
      .lit ", records=", .display (toString records), .lit ", capacity=",
      .display (toString capacity), .lit ", observed=", .display (toString observed)]
  | .counterOverflow => Message.of "CUPTI capture diagnostic counters overflowed"

/-- The text of a `CompletedCaptureError`. -/
def CompletedCaptureError.message : CompletedCaptureError → Message
  | .emptyInput => Message.of "completed capture input is empty"
  | .cupti error => cuptiDecodeMessage error
  | .json error => [.lit "completed capture JSON is invalid: ", .display error]
  | .hostCaptureFollowedByAnotherDocument =>
    Message.of "a host capture result must be the only JSON document in its input"
  | .hostCaptureInsideEventStream =>
    Message.of "a host capture result cannot appear inside an Event JSON stream"
  | .counterOverflow => Message.of "completed capture counters exceed the supported range"
  | .targetMismatch expected actual =>
    [.lit "completed capture mixes target PIDs ", .display (toString expected), .lit " and ",
      .display (toString actual)]

/-! ## CUPTI files -/

variable {json}

/-- What `decode_capture` accepts, `decode` takes as a CUPTI file: it begins with the magic. -/
theorem decode_of_decodeCapture {bytes : List UInt8} {sessionId : String} {capture : CuptiCapture}
    (h : decodeCapture bytes sessionId = .ok capture) :
    decode json bytes sessionId = .ok (.ofCupti capture) := by
  have hmagic : sliceAt bytes 0 8 = outputMagic := by
    obtain ⟨_, hheader, -⟩ := of_bind h
    obtain ⟨_, -, hheader⟩ := of_bind hheader
    exact ensure_eq_ok_iff.mp (bind_unit_eq_ok_iff.mp hheader).1
  have hfirst : bytes.find? (fun byte => !isAsciiWhitespace byte) = some 0x58 := by
    cases bytes with
    | nil => simp [sliceAt, outputMagic] at hmagic
    | cons byte rest =>
      have hbyte : byte = 0x58 := by
        have hhead := congrArg List.head? hmagic
        simpa [sliceAt, outputMagic] using hhead
      rw [hbyte]
      rfl
  rw [decode, hfirst, okOr_some, ok_bind, if_neg (by decide), h]
  rfl

/-! ## Streams of events -/

/-- `serde_json` reads back the events that it wrote: each one is written as an object, which has no
    member with the name of the events of a host capture, and is read as the same event. -/
def SerdeJson.ReadsBack (json : SerdeJson) (events : List Event) : Prop :=
  ∀ text, eventsToJsonl json events = .ok text →
    ∃ values, json.documents (utf8Bytes text) = values.map .ok ∧
      (events ≠ [] → (utf8Bytes text).head? = some 0x7b) ∧
      List.Forall₂ (fun event value =>
        getMember value "events" = none ∧ json.eventFromValue value = .ok event) events values

theorem decodeEvents_of_forall₂ {events : List Event} {values : List Value}
    (h : List.Forall₂ (fun event value =>
      getMember value "events" = none ∧ json.eventFromValue value = .ok event) events values) :
    decodeEvents json (values.map .ok) = .ok events := by
  induction h with
  | nil => rfl
  | cons hfirst _ ih =>
    obtain ⟨hmember, hevent⟩ := hfirst
    simp only [List.map_cons, decodeEvents, Except.mapError, hmember, hevent, ih, ok_bind,
      Option.isNone_none, ensure_true]
    rfl

/-- A stream that was written is read as its events, with nothing else known about the capture. -/
theorem decode_eventsToJsonl {events : List Event} (hback : json.ReadsBack events)
    (hne : events ≠ []) {text : String} (htext : eventsToJsonl json events = .ok text)
    (sessionId : String) :
    decode json (utf8Bytes text) sessionId = .ok (.ofEvents events) := by
  obtain ⟨values, hdocuments, hhead, hvalues⟩ := hback text htext
  have hfirst : (utf8Bytes text).find? (fun byte => !isAsciiWhitespace byte) = some 0x7b := by
    obtain ⟨rest, hbytes⟩ := List.head?_eq_some_iff.mp (hhead hne)
    rw [hbytes]
    rfl
  rw [decode, hfirst, okOr_some, ok_bind, if_pos rfl, decodeJson, hdocuments]
  cases hvalues with
  | nil => exact absurd rfl hne
  | cons hevent hrest =>
    obtain ⟨hmember, hevent⟩ := hevent
    simp only [List.map_cons, Except.mapError, ok_bind, hmember, hevent, Option.isSome_none,
      decodeEvents_of_forall₂ hrest]
    rfl

/-- Nothing is written for no events, and nothing cannot be read. -/
theorem decode_eventsToJsonl_nil {text : String} (htext : eventsToJsonl json [] = .ok text)
    (sessionId : String) : decode json (utf8Bytes text) sessionId = .error .emptyInput := by
  cases htext
  rfl

end Xprobe.Collector
