import TrexCli.Policy.Ranges
import TrexCli.Replay.Documents

/-!
# Workload documents

`UdpWorkloadSpec` and `StatefulReplaySpec` of `models.py`; their validators are fields.
-/

namespace TrexCli

/-- `DatagramFlowBinding` -/
structure DatagramFlowBinding where
  id : String
  digest : String
  initiatorPort : Nat
  responderPort : Nat
  datagramCount : Nat
  initiatorDatagramCount : Nat
  responderDatagramCount : Nat
  initiatorPayloadBytes : Nat
  responderPayloadBytes : Nat
  durationMicroseconds : Nat
  l1BytesPerFlow : Nat

/-- `DatagramWorkloadTemplateBinding` -/
structure DatagramTemplateBinding where
  id : String
  digest : String
  representativeFlow : DatagramFlowBinding
  occurrenceCount : Nat
  weight : ℚ
  fps : ℚ
  valid : 1 ≤ occurrenceCount ∧ 0 < weight ∧ weight ≤ 1 ∧ 0 < fps

/-- `DatagramWorkloadBinding` -/
structure DatagramWorkload where
  sourceFlowCount : Nat
  templateCount : Nat
  templates : List DatagramTemplateBinding
  bounded : 1 ≤ templates.length ∧ templates.length ≤ 256
  countConsistent : templateCount = templates.length
  flowsConsistent : sourceFlowCount = (templates.map fun item => item.occurrenceCount).sum
  weightsConsistent : |(templates.map fun item => item.weight).sum - 1| ≤ 1 / 10 ^ 9

/-- `DatagramReplayRole` -/
structure DatagramReplayRole where
  port : PortId
  mac : String
  ipv4 : AddressText

/-- `UdpWorkloadRun` -/
structure UdpWorkloadRun where
  fps : ℚ
  estimatedPps : ℚ
  estimatedBpsL1 : ℚ
  duration : Nat
  valid : 0 < fps ∧ 0 < estimatedPps ∧ 0 < estimatedBpsL1 ∧ 0 < duration

/-- `UdpWorkloadSpec` -/
structure UdpWorkloadSpec where
  limits : Limits
  capture : CaptureBinding
  workload : DatagramWorkload
  initiator : DatagramReplayRole
  responder : DatagramReplayRole
  run : UdpWorkloadRun

/-- `StatefulSessionBinding` -/
structure SessionBinding where
  id : String
  digest : String
  serverPort : Nat
  clientPayloadBytes : Nat
  serverPayloadBytes : Nat
  exchangeCount : Nat

/-- `StatefulWorkloadTemplateBinding` -/
structure SessionTemplateBinding where
  id : String
  digest : String
  representativeSession : SessionBinding
  occurrenceCount : Nat
  weight : ℚ
  cps : ℚ
  maxActiveConnections : Nat
  valid : 1 ≤ occurrenceCount ∧ 0 < weight ∧ weight ≤ 1 ∧ 0 < cps ∧ 1 ≤ maxActiveConnections

/-- `CaptureWorkloadBinding` -/
structure CaptureWorkload where
  sourceSessionCount : Nat
  templateCount : Nat
  templates : List SessionTemplateBinding
  bounded : 1 ≤ templates.length ∧ templates.length ≤ 256
  countConsistent : templateCount = templates.length
  sessionsConsistent : sourceSessionCount = (templates.map fun item => item.occurrenceCount).sum
  weightsConsistent : |(templates.map fun item => item.weight).sum - 1| ≤ 1 / 10 ^ 9

/-- `Ipv4Pool` -/
structure Ipv4Pool where
  first : Nat
  last : Nat
  le : first ≤ last
  lt : last < 2 ^ 32

/-- `Ipv4Pool.cardinality` -/
def Ipv4Pool.cardinality (pool : Ipv4Pool) : Nat := pool.last - pool.first + 1

/-- `TransportPortPool` -/
structure TransportPortPool where
  first : Nat := 1024
  last : Nat := 65535
  valid : 1024 ≤ first ∧ first ≤ last ∧ last ≤ 65535

/-- `TransportPortPool.cardinality` -/
def TransportPortPool.cardinality (pool : TransportPortPool) : Nat := pool.last - pool.first + 1

/-- `StatefulClientBinding` -/
structure StatefulClient where
  port : PortId
  ipv4Pool : Ipv4Pool
  transportPortPool : TransportPortPool

/-- `StatefulServerBinding` -/
structure StatefulServer where
  port : PortId
  ipv4Pool : Ipv4Pool

/-- `StatefulReplayRun` -/
structure StatefulReplayRun where
  cps : ℚ
  maxActiveConnections : Nat
  duration : Nat
  valid : 0 < cps ∧ 1 ≤ maxActiveConnections ∧ 0 < duration

/-- What a stateful replay replays: exactly one of `session` and `workload`. -/
inductive ReplayShape where
  | session (binding : SessionBinding)
  | workload (binding : CaptureWorkload)

/-- `StatefulReplaySpec` -/
structure StatefulReplaySpec where
  limits : Limits
  capture : CaptureBinding
  shape : ReplayShape
  client : StatefulClient
  server : StatefulServer
  run : StatefulReplayRun

/-- A document whose traffic is templates extracted from a capture. -/
inductive WorkloadDocument where
  | udpWorkload (spec : UdpWorkloadSpec)
  | statefulReplay (spec : StatefulReplaySpec)

end TrexCli
