import Xprobe.Protocol.Event

/-!
# Measurement results

The result record of a measurement (`xprobe/protocol/src/measurement.rs`).

Quotients that the source computes in `f64` are kept exact, as a numerator and a denominator.
Counters that only ever count list elements are natural numbers.
-/

namespace Xprobe.Protocol

open Foundation

inductive MatchPolicy where
  | exact
  | firstAfter
  | nearest
  | stackNested
  | streamOrder
  deriving Repr, DecidableEq

inductive MeasurementMode where
  | exact
  | aggregate
  deriving Repr, DecidableEq

inductive SessionStatus where
  | completed
  | timedOut
  | cancelled
  | failed
  deriving Repr, DecidableEq

/-- A quotient before it is rounded to `f64`. -/
structure Ratio where
  numerator : Nat
  denominator : Nat
  deriving Repr, DecidableEq

structure SampleSummary where
  matched : Nat
  unmatchedStart : Nat
  unmatchedEnd : Nat
  ambiguous : Nat
  dropped : UInt64
  deriving Repr, DecidableEq

structure LatencyStatistics where
  min : UInt64
  mean : Ratio
  p50 : UInt64
  p90 : UInt64
  p95 : UInt64
  p99 : UInt64
  max : UInt64
  deriving Repr, DecidableEq

structure Measurement where
  name : Option String
  samples : SampleSummary
  latencyNs : LatencyStatistics
  deriving Repr, DecidableEq

inductive CorrelationConfidence where
  | exact
  | high
  | heuristic
  | ambiguous
  deriving Repr, DecidableEq

structure CorrelationSummary where
  method : String
  confidence : CorrelationConfidence
  score : Ratio
  deriving Repr, DecidableEq

structure ClockQuality where
  alignment : String
  estimatedErrorNs : Option UInt64
  deriving Repr, DecidableEq

inductive CaptureCompleteness where
  | complete
  deriving Repr, DecidableEq

structure CuptiCollectionSummary where
  recordCapacity : UInt64
  observedRecords : UInt64
  retainedRecords : UInt64
  droppedRecords : UInt64
  bufferUtilization : Ratio
  deriving Repr, DecidableEq

structure CollectionSummary where
  completeness : CaptureCompleteness
  hostEvents : Nat
  cudaEvents : Nat
  droppedEvents : UInt64
  cupti : Option CuptiCollectionSummary
  deriving Repr, DecidableEq

structure MatchedEventPair where
  startEvent : Event
  endEvent : Event
  latencyNs : UInt64

structure Warning where
  code : String
  message : String
  details : BTreeMap String Value

structure MeasurementResult where
  schemaVersion : SchemaVersion
  ok : Bool
  sessionId : String
  status : SessionStatus
  measurement : Measurement
  correlation : CorrelationSummary
  clock : ClockQuality
  collection : CollectionSummary
  evidence : List MatchedEventPair
  warnings : List Warning

end Xprobe.Protocol
