import Xprobe.Protocol.Process
import Xprobe.Protocol.Measurement

/-!
# Validation results

The result record of a validation (`xprobe/protocol/src/validate.rs`).
-/

namespace Xprobe.Protocol

inductive EndpointSource where
  | host
  | cuda
  deriving Repr, DecidableEq

inductive AgentActivation where
  | notRequired
  | alreadyLoaded
  | injectionRequired
  | startupRequired
  deriving Repr, DecidableEq

structure ResolvedCudaSelector where
  eventType : EventType
  apiDomain : Option String
  apiName : Option String
  kernelNameRegex : Option String
  nvtxNameRegex : Option String
  memcpyKind : Option MemcpyKind
  deriving Repr, DecidableEq

structure ResolvedLinuxSelector where
  eventType : EventType
  probeKind : HostProbeKind
  category : String
  name : String
  syscallNumber : Option UInt32
  binaryPath : Option String
  provider : Option String
  deriving Repr, DecidableEq

structure ValidatedEndpoint where
  selector : String
  source : EndpointSource
  eventType : EventType
  collectable : Bool
  host : Option ResolvedProbe
  linux : Option ResolvedLinuxSelector
  cuda : Option ResolvedCudaSelector
  deriving Repr, DecidableEq

structure ValidationRequirements where
  needsEbpf : Bool
  needsCupti : Bool
  needsCuptiCallback : Bool
  needsCuptiActivity : Bool
  needsNvtx : Bool
  needsClockAlignment : Bool
  agentActivation : AgentActivation
  targetMutation : Bool
  deriving Repr, DecidableEq

structure ValidationIssue where
  code : ErrorCode
  message : String
  deriving Repr, DecidableEq

inductive PolicyRecommendationReason where
  | deterministicCorrelationKey
  | hostCallFrame
  | cudaStreamOrder
  | temporalOrderOnly
  deriving Repr, DecidableEq

structure PolicyRecommendation where
  policy : MatchPolicy
  reason : PolicyRecommendationReason
  compatiblePolicies : List MatchPolicy
  deriving Repr, DecidableEq

structure ValidationResult where
  schemaVersion : SchemaVersion
  ok : Bool
  valid : Bool
  target : TargetIdentity
  startEndpoint : ValidatedEndpoint
  endEndpoint : ValidatedEndpoint
  matchPolicy : MatchPolicy
  policyRecommendation : PolicyRecommendation
  requirements : ValidationRequirements
  issues : List ValidationIssue
  warnings : List Warning

end Xprobe.Protocol
