import Xprobe.Cupti.CheckedDecode
import Xprobe.Cli.Live

/-!
# The accumulated capture

`append_cuda_capture` once more, now as it works on its arguments: the checks read the collection,
and the assignments change it in place, field by field. A check that fails leaves the collection
exactly as it was.

The agent numbers the records of an answer from the offset that it was asked for. That offset is the
number of events accumulated so far, so the numbers of the accumulated events are their positions,
whatever the agent answers in between.
-/

namespace Xprobe.Cli

open Foundation Protocol Cupti Collector

/-! ## Working in place -/

/-- An assignment through `latest_cuda.as_mut()`. -/
def modifyLatest (f : CuptiCapture → CuptiCapture) : EStateM CommandFailure LiveCollection Unit :=
  modify fun collection => { collection with latestCuda := collection.latestCuda.map f }

/-- `append_cuda_capture` on a collection that is changed in place. When it fails, the collection is
    left with the assignments made before. -/
def appendInPlace (capture : CuptiCapture) : EStateM CommandFailure LiveCollection Unit := do
  let collection ← get
  MonadExcept.ofExcept (ensure (capture.recordOffset = collection.cudaRecordOffset)
    (traceExportFailed
      [.lit "CUPTI incremental capture started at record ",
        .display (toString capture.recordOffset), .lit ", expected ",
        .display (toString collection.cudaRecordOffset)]))
  MonadExcept.ofExcept (ensure (capture.events.length < 2 ^ 64)
    (traceExportFailed
      [.lit "CUPTI incremental event count exceeds u64: ",
        .display "out of range integral type conversion attempted"]))
  let nextOffset ← MonadExcept.ofExcept
    (okOr (checkedAdd capture.recordOffset (UInt64.ofNat capture.events.length))
      (traceExportFailed (.of "CUPTI incremental record offset overflowed")))
  MonadExcept.ofExcept (checkContinues collection.latestCuda capture)
  match collection.latestCuda with
  | some _ =>
    modifyLatest fun accumulated => { accumulated with state := capture.state }
    modifyLatest fun accumulated => { accumulated with stopReason := capture.stopReason }
    modifyLatest fun accumulated => { accumulated with observedRecords := capture.observedRecords }
    modifyLatest fun accumulated =>
      { accumulated with agentDroppedRecords := capture.agentDroppedRecords }
    modifyLatest fun accumulated =>
      { accumulated with cuptiDroppedRecords := capture.cuptiDroppedRecords }
    modifyLatest fun accumulated => { accumulated with droppedRecords := capture.droppedRecords }
    modifyLatest fun accumulated => { accumulated with unknownRecords := capture.unknownRecords }
    modifyLatest fun accumulated =>
      { accumulated with events := accumulated.events ++ capture.events }
  | none =>
    modify fun collection =>
      { collection with latestCuda := some { capture with recordOffset := 0 } }
  modify fun collection => { collection with cudaRecordOffset := nextOffset }

/-- What a call returned, with the collection it left. -/
def outcomeOf (collection : LiveCollection) :
    Except CommandFailure LiveCollection → EStateM.Result CommandFailure LiveCollection Unit
  | .ok collection' => .ok () collection'
  | .error failure => .error failure collection

/-- A check reads the state and does not change it. -/
theorem run_ofExcept_bind {ε σ α β : Type} (check : Except ε α) (rest : α → EStateM ε σ β) (s : σ) :
    (MonadExcept.ofExcept check >>= rest : EStateM ε σ β).run s =
      match check with
      | .ok a => (rest a).run s
      | .error failure => .error failure s := by
  cases check <;> rfl

/-- The collection is changed only when every check has passed. -/
theorem appendInPlace_run (collection : LiveCollection) (capture : CuptiCapture) :
    (appendInPlace capture).run collection =
      outcomeOf collection (appendCudaCapture collection capture) := by
  have hget : ∀ rest : LiveCollection → EStateM CommandFailure LiveCollection Unit,
      (get >>= rest : EStateM CommandFailure LiveCollection Unit).run collection =
        (rest collection).run collection := fun _ => rfl
  rw [appendInPlace, hget, appendCudaCapture]
  -- the two follow the same checks, and both stop at the first one that fails
  rw [run_ofExcept_bind]
  cases ensure (capture.recordOffset = collection.cudaRecordOffset) _ with
  | error failure => rfl
  | ok _ =>
    simp only [ok_bind]
    rw [run_ofExcept_bind]
    cases ensure (capture.events.length < 2 ^ 64) _ with
    | error failure => rfl
    | ok _ =>
      simp only [ok_bind]
      rw [run_ofExcept_bind]
      cases okOr (checkedAdd capture.recordOffset (UInt64.ofNat capture.events.length)) _ with
      | error failure => rfl
      | ok nextOffset =>
        simp only [ok_bind]
        rw [run_ofExcept_bind]
        cases checkContinues collection.latestCuda capture with
        | error failure => rfl
        | ok _ =>
          obtain ⟨latest, offset⟩ := collection
          cases latest <;> rfl

/-! ## A sequence of calls -/

/-- The collection that a call leaves, whether it failed or not. -/
def afterCall (collection : LiveCollection) (capture : CuptiCapture) : LiveCollection :=
  match (appendInPlace capture).run collection with
  | .ok _ collection' => collection'
  | .error _ collection' => collection'

def afterCalls (collection : LiveCollection) (captures : List CuptiCapture) : LiveCollection :=
  captures.foldl afterCall collection

/-- The offset is the number of accumulated events, which are numbered from zero in order. -/
structure LiveCollection.Numbered (collection : LiveCollection) : Prop where
  offset : collection.cudaRecordOffset.toNat = collection.events.length
  sequences : collection.events.map (fun event => event.sequence.toNat) =
    List.range collection.events.length

theorem LiveCollection.numbered_armed : LiveCollection.armed.Numbered :=
  { offset := rfl
    sequences := rfl }

def IsDecoded (capture : CuptiCapture) : Prop :=
  ∃ (bytes : List UInt8) (sessionId : String), decodeCapture bytes sessionId = .ok capture

theorem appended_events (collection : LiveCollection) (capture : CuptiCapture) :
    (appended collection capture).events = collection.events ++ capture.events :=
  events_appended collection capture

variable {collection : LiveCollection}

/-- A decoded capture that is accepted goes on with the numbers. -/
theorem LiveCollection.Numbered.appended {capture : CuptiCapture} (h : collection.Numbered)
    (hdecoded : IsDecoded capture) (happend : Appendable collection capture) :
    (appended collection capture).Numbered := by
  obtain ⟨bytes, sessionId, hdecode⟩ := hdecoded
  have hsequences := (consistent_of_decodeCapture hdecode).sequences
  refine ⟨?_, ?_⟩
  · rw [appended_offset_toNat happend, appended_events, List.length_append, h.offset]
  · rw [appended_events, List.map_append, List.length_append, h.sequences, hsequences,
      happend.offset, h.offset, List.range_eq_range', List.range_eq_range']
    rw [← List.range'_append_1, Nat.zero_add]

/-- A call fails and leaves the collection as it was, or appends the capture. -/
theorem appendInPlace_cases (collection : LiveCollection) (capture : CuptiCapture) :
    (∃ failure, (appendInPlace capture).run collection = .error failure collection) ∨
      Appendable collection capture ∧
        (appendInPlace capture).run collection = .ok () (appended collection capture) := by
  rw [appendInPlace_run]
  cases hresult : appendCudaCapture collection capture with
  | error failure => exact .inl ⟨failure, rfl⟩
  | ok collection' =>
    obtain ⟨happend, rfl⟩ := appendCudaCapture_eq_ok_iff.mp hresult
    exact .inr ⟨happend, rfl⟩

theorem LiveCollection.Numbered.afterCall {capture : CuptiCapture} (h : collection.Numbered)
    (hdecoded : IsDecoded capture) :
    (afterCall collection capture).Numbered := by
  rcases appendInPlace_cases collection capture with ⟨failure, hrun⟩ | ⟨happend, hrun⟩
  · rw [Cli.afterCall, hrun]
    exact h
  · rw [Cli.afterCall, hrun]
    exact h.appended hdecoded happend

theorem LiveCollection.Numbered.afterCalls {captures : List CuptiCapture} (h : collection.Numbered)
    (hdecoded : ∀ capture ∈ captures, IsDecoded capture) :
    (afterCalls collection captures).Numbered := by
  induction captures generalizing collection with
  | nil => exact h
  | cons capture rest ih =>
    have hfirst := h.afterCall (hdecoded capture List.mem_cons_self)
    exact ih hfirst fun later hlater => hdecoded later (List.mem_cons_of_mem _ hlater)

/-- What a call that succeeds does to the collection. -/
structure Accumulates (before : LiveCollection) (capture : CuptiCapture) (after : LiveCollection) :
    Prop where
  numbered : after.Numbered
  events : after.events = before.events ++ capture.events
  /-- The capacity stays, and no counter decreases. -/
  continues : ∃ latest, after.latestCuda = some latest ∧
    ∀ earlier ∈ before.latestCuda, Continues earlier latest

theorem accumulates_appended {capture : CuptiCapture} (h : collection.Numbered)
    (hdecoded : IsDecoded capture) (happend : Appendable collection capture) :
    Accumulates collection capture (appended collection capture) where
  numbered := h.appended hdecoded happend
  events := appended_events collection capture
  continues := by
    refine ⟨_, rfl, ?_⟩
    intro earlier hearlier
    have hcontinues := happend.continues earlier hearlier
    rw [Option.mem_def.mp hearlier, extendLatest]
    exact ⟨rfl, hcontinues.observed, hcontinues.agentDropped, hcontinues.cuptiDropped,
      hcontinues.unknown⟩

/-- After any sequence of calls with decoded captures, a further call either fails and leaves the
    collection exactly as it was, or appends the new events to the accumulated ones: their numbers
    are their positions, the offset is their number, the capacity stays and no counter
    decreases. -/
theorem appendInPlace_accumulates (captures : List CuptiCapture) (capture : CuptiCapture)
    (hcaptures : ∀ earlier ∈ captures, IsDecoded earlier) (hcapture : IsDecoded capture) :
    match (appendInPlace capture).run (afterCalls .armed captures) with
    | .error _ after => after = afterCalls .armed captures
    | .ok _ after => Accumulates (afterCalls .armed captures) capture after := by
  have hnumbered := LiveCollection.numbered_armed.afterCalls hcaptures
  rcases appendInPlace_cases (afterCalls .armed captures) capture with
    ⟨failure, hrun⟩ | ⟨happend, hrun⟩
  · rw [hrun]
  · rw [hrun]
    exact accumulates_appended hnumbered hcapture happend

/-- Two answers of the agent, accumulated one after the other. -/
theorem appendInPlace_accumulates_copies :
    ∃ first second, splitCopies = [first, second] ∧ IsDecoded (first.image "s") ∧
      IsDecoded (second.image "s") ∧
      ∃ after, (appendInPlace (second.image "s")).run (afterCalls .armed [first.image "s"]) =
          .ok () after ∧
        Accumulates (afterCalls .armed [first.image "s"]) (second.image "s") after := by
  refine ⟨_, _, rfl, ⟨_, _, SentCapture.decode_eq _ _⟩, ⟨_, _, SentCapture.decode_eq _ _⟩, ?_⟩
  have hresult := appendInPlace_accumulates [(splitCopies[0]).image "s"]
    ((splitCopies[1]).image "s")
    (fun earlier hearlier => by
      rw [List.mem_singleton.mp hearlier]
      exact ⟨_, _, SentCapture.decode_eq _ _⟩)
    ⟨_, _, SentCapture.decode_eq _ _⟩
  exact ⟨_, rfl, hresult⟩

end Xprobe.Cli
