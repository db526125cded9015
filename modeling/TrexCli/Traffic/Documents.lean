import TrexCli.Rfc2544.Documents

/-!
# Traffic documents

`StatelessTrafficSpec` of `models.py`, and the documents whose packets the admission of traffic looks
at: stateless traffic, an RFC2544 throughput run and an RFC2544 suite.
-/

namespace TrexCli

/-- `ResolvedTrafficStream` -/
structure ResolvedTrafficStream where
  name : String
  tx : PortId
  rx : PortId
  packet : Packet
  rate : Rate
  distinct : tx ≠ rx

/-- `StatelessTrafficSpec`; durations are milliseconds. -/
structure StatelessTrafficSpec where
  ports : Ports
  limits : Limits
  packet : Packet
  rate : Rate
  duration : Option Nat
  burstPackets : Option Nat
  maxLossPercent : Option ℚ
  streams : List ResolvedTrafficStream
  bounded : streams.length ≤ 256
  durationOrBurst : duration = none ↔ burstPackets ≠ none
  pos : (∀ d, duration = some d → 0 < d) ∧ ∀ n, burstPackets = some n → 1 ≤ n
  resolved : streams ≠ [] → burstPackets = none
  names : (streams.map ResolvedTrafficStream.name).Nodup
  assertion : ∀ percent, maxLossPercent = some percent → 0 ≤ percent ∧ percent ≤ 100

namespace StatelessTrafficSpec

/-- `logical_ports` -/
def logicalPorts (spec : StatelessTrafficSpec) : List PortId :=
  if spec.streams = [] then [spec.ports.tx, spec.ports.rx]
  else spec.streams.flatMap fun stream => [stream.tx, stream.rx]

theorem bounded_nil : ([] : List ResolvedTrafficStream).length ≤ 256 := by simp

theorem names_nil : (([] : List ResolvedTrafficStream).map ResolvedTrafficStream.name).Nodup := by
  simp

theorem resolved_nil :
    ([] : List ResolvedTrafficStream) ≠ [] → (none : Option Nat) = none := by simp

/-- A document without a burst may have any streams. -/
theorem resolved_of_no_burst (streams : List ResolvedTrafficStream) :
    streams ≠ [] → (none : Option Nat) = none := by simp

theorem no_assertion : ∀ percent, (none : Option ℚ) = some percent → 0 ≤ percent ∧ percent ≤ 100 := by
  simp

theorem second_or_burst : some 1000 = none ↔ (none : Option Nat) ≠ none := by simp

theorem second_pos :
    (∀ d, some 1000 = some d → 0 < d) ∧ ∀ n, (none : Option Nat) = some n → 1 ≤ n := by simp

/-- The packets of the streams, or the one of the document. -/
def packets (spec : StatelessTrafficSpec) : List Packet :=
  if spec.streams = [] then [spec.packet] else spec.streams.map ResolvedTrafficStream.packet

end StatelessTrafficSpec

open Rfc2544

/-- `StatelessTrafficDocument`, `Rfc2544ThroughputDocument` and `Rfc2544SuiteDocument` -/
inductive TrafficDocument where
  | stateless (spec : StatelessTrafficSpec)
  | throughput (spec : Rfc2544ThroughputSpec)
  | suite (spec : Rfc2544SuiteSpec)

namespace TrafficDocument

def limits : TrafficDocument → Limits
  | stateless spec => spec.limits
  | throughput spec => spec.limits
  | suite spec => spec.limits

/-- The ports a document asks for. -/
def requested : TrafficDocument → List PortId
  | stateless spec => spec.logicalPorts
  | throughput spec => [spec.ports.tx, spec.ports.rx]
  | suite spec => [spec.ports.tx, spec.ports.rx]

/-- The packet and the reverse packet of an RFC2544 document. -/
def rfcPackets (spec : Rfc2544ThroughputSpec) : List PacketHeaders :=
  spec.packet.toPacketHeaders :: (spec.reversePacket.toList.map RfcPacket.toPacketHeaders)

/-- The `packets` that `_validate_policy` and `validate` go through. -/
def packets : TrafficDocument → List PacketHeaders
  | stateless spec => spec.packets.map Packet.toPacketHeaders
  | throughput spec => rfcPackets spec
  | suite spec => rfcPackets spec.toRfc2544ThroughputSpec

end TrafficDocument

end TrexCli
