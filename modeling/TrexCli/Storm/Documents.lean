import TrexCli.Storm.Dns
import TrexCli.Storm.Identities

/-!
# Packet storms

`PacketStormSpec` of `models.py` with its three protocols; their validators are fields.
-/

namespace TrexCli.Storm

open Dns

/-- `PacketStormRun`; the duration is milliseconds. -/
structure PacketStormRun where
  pps : ℚ
  wireSize : Nat
  estimatedBpsL1 : ℚ
  duration : Nat
  valid : 0 < pps ∧ 64 ≤ wireSize ∧ wireSize ≤ 512 ∧ 0 < estimatedBpsL1 ∧ 0 < duration
  consistent : |estimatedBpsL1 - pps * (wireSize + 20) * 8| ≤
    max (1 / 10 ^ 6) (pps * (wireSize + 20) * 8 * (1 / 10 ^ 9))

/-- `^[A-Za-z0-9_.-]+\.$` -/
def questionPattern (name : Text) : Bool :=
  name.getLast? = some '.' && 1 ≤ name.dropLast.length &&
    name.dropLast.all fun c => c.isAlphanum || c == '_' || c == '.' || c == '-'

/-- `DnsQuestion` -/
structure DnsQuestion where
  name : Text
  type : QueryType
  recursionDesired : Bool
  length : 2 ≤ name.length ∧ name.length ≤ 254
  pattern : questionPattern name = true

/-- `DnsStormClient` -/
structure DnsStormClient where
  port : PortId
  mac : String
  ipv4 : AddressText
  udpSourcePortStart : Nat
  udpSourcePortEnd : Nat
  valid : 1024 ≤ udpSourcePortStart ∧ udpSourcePortStart ≤ udpSourcePortEnd ∧ udpSourcePortEnd ≤ 65535

/-- `source_port_count` -/
def DnsStormClient.sourcePortCount (client : DnsStormClient) : Nat :=
  client.udpSourcePortEnd - client.udpSourcePortStart + 1

/-- `DnsStormServer` -/
structure DnsStormServer where
  port : PortId
  mac : String
  ipv4 : AddressText
  udpPort : Nat := 53

/-- `DnsStormSpec` -/
structure DnsStormSpec where
  limits : Limits
  client : DnsStormClient
  server : DnsStormServer
  question : DnsQuestion
  run : PacketStormRun
  distinct : client.port ≠ server.port
  size : ∃ payload, encodeDnsQuery question.name question.type question.recursionDesired 0 = .ok payload ∧
    run.wireSize = dnsQueryWireSize payload

/-- `DhcpStormClients` -/
structure DhcpStormClients where
  port : PortId
  macStart : Text
  macEnd : Text
  count : Nat
  pos : 1 ≤ count
  consistent : dhcpClientMacEnd macStart count = .ok (macEnd.map Char.toLower)

/-- `dhcp_discover_wire_size` -/
def dhcpDiscoverWireSize (payloadLength : Nat) : Nat := max 64 (4 + 14 + 20 + 8 + payloadLength)

/-- `DhcpStormSpec` -/
structure DhcpStormSpec where
  limits : Limits
  clients : DhcpStormClients
  serverPort : PortId
  run : PacketStormRun
  distinct : clients.port ≠ serverPort
  size : run.wireSize = dhcpDiscoverWireSize 244

/-- `ArpStormSenders` -/
structure ArpStormSenders where
  port : PortId
  macStart : Text
  macEnd : Text
  ipv4Start : AddressText
  ipv4End : AddressText
  count : Nat
  pos : 1 ≤ count
  macs : arpSenderMacEnd macStart count = .ok (macEnd.map Char.toLower)
  addresses : ∃ a, arpSenderIpv4End ipv4Start count = .ok a ∧ ipv4End.parsed = some a ∧
    ipv4End.canonical = true

/-- `ArpStormTarget` -/
structure ArpStormTarget where
  port : PortId
  ipv4 : IpAddress
  version : ipv4.version = .v4

/-- `ARP_REQUEST_WIRE_SIZE` -/
def arpRequestWireSize : Nat := 64

/-- `ArpStormSpec` -/
structure ArpStormSpec where
  limits : Limits
  senders : ArpStormSenders
  target : ArpStormTarget
  run : PacketStormRun
  distinct : senders.port ≠ target.port
  size : run.wireSize = arpRequestWireSize

/-- `PacketStormSpec` -/
inductive PacketStormSpec where
  | dns (spec : DnsStormSpec)
  | dhcp (spec : DhcpStormSpec)
  | arp (spec : ArpStormSpec)

namespace PacketStormSpec

def limits : PacketStormSpec → Limits
  | dns spec => spec.limits
  | dhcp spec => spec.limits
  | arp spec => spec.limits

def run : PacketStormSpec → PacketStormRun
  | dns spec => spec.run
  | dhcp spec => spec.run
  | arp spec => spec.run

/-- The sending port. -/
def txPort : PacketStormSpec → PortId
  | dns spec => spec.client.port
  | dhcp spec => spec.clients.port
  | arp spec => spec.senders.port

/-- The other port. -/
def rxPort : PacketStormSpec → PortId
  | dns spec => spec.server.port
  | dhcp spec => spec.serverPort
  | arp spec => spec.target.port

/-- `logical_ports` -/
def logicalPorts (spec : PacketStormSpec) : List PortId := [spec.txPort, spec.rxPort]

end PacketStormSpec

/-! ### Admission -/

/-- `SafetyPolicy`, with the field that only storms look at. -/
structure StormPolicy extends SafetyPolicy where
  allowBroadcastStorms : Bool

section Checks

variable (logicalPorts : List PortId) (policy : StormPolicy)

/-- `mac_range_allowed`, unless all addresses are allowed. -/
def StormPolicy.allowsMacRange (policy : StormPolicy) (first last : Text) : Bool :=
  policy.allowArbitraryUnicastMac || policy.allowedMacPrefixes.any fun p =>
    p.coversText (String.ofList first) && p.coversText (String.ofList last)

/-- The checks of a DNS storm. -/
def validateDns (spec : DnsStormSpec) : Except Exc Unit := do
  require (spec.client.sourcePortCount ≤ policy.maxAddressPoolSize)
    { code := "PORT_POOL_EXHAUSTED", category := "POLICY"
      message := "DNS source port range exceeds maxAddressPoolSize" }
  require (∀ mac ∈ [spec.client.mac, spec.server.mac], policy.allowsMacText mac = true)
    (unsafeRequest "DNS storm MAC endpoint is outside allowedMacPrefixes")
  let addresses ← parseAddresses [spec.client.ipv4, spec.server.ipv4]
  require (∀ a ∈ addresses, policy.allowsAddress a = true)
    (unsafeRequest "DNS storm IPv4 endpoint is outside allowedCidrs")

/-- The checks of a DHCP storm. -/
def validateDhcp (spec : DhcpStormSpec) : Except Exc Unit := do
  require (policy.allowBroadcastStorms = true) (unsafeRequest "DHCP storm requires allowBroadcastStorms")
  require (spec.clients.count ≤ policy.maxAddressPoolSize)
    { code := "ADDRESS_POOL_EXHAUSTED", category := "POLICY"
      message := "DHCP client identity pool exceeds maxAddressPoolSize" }
  require (policy.allowsMacRange spec.clients.macStart spec.clients.macEnd = true)
    (unsafeRequest "DHCP client identity pool is outside allowedMacPrefixes")

/-- The checks of an ARP storm. -/
def validateArp (spec : ArpStormSpec) : Except Exc Unit := do
  require (policy.allowBroadcastStorms = true) (unsafeRequest "ARP storm requires allowBroadcastStorms")
  require (spec.senders.count ≤ policy.maxAddressPoolSize)
    { code := "ADDRESS_POOL_EXHAUSTED", category := "POLICY"
      message := "ARP sender identity pool exceeds maxAddressPoolSize" }
  require (policy.allowsMacRange spec.senders.macStart spec.senders.macEnd = true)
    (unsafeRequest "ARP sender identity pool is outside allowedMacPrefixes")
  let addresses ← parseAddresses [spec.senders.ipv4Start, spec.senders.ipv4End]
  require ((∃ network ∈ policy.allowedCidrs, ∀ a ∈ addresses, network.contains a = true) ∧
      policy.allowsAddress spec.target.ipv4 = true)
    (unsafeRequest "ARP IPv4 endpoint is outside allowedCidrs")

/-- `_validate_policy` for a packet storm. -/
def validatePacketStorm (spec : PacketStormSpec) : Except Exc Unit := do
  policy.checkLimits spec.limits
  checkPorts logicalPorts spec.logicalPorts
  require (spec.run.duration ≤ policy.maxRunDuration ∧ spec.run.duration ≤ spec.limits.jobTimeout)
    (unsafeRequest "Packet Storm duration exceeds a configured limit")
  require (spec.run.pps ≤ policy.maxPps) (unsafeRequest "Packet Storm pps exceeds maxPps")
  require (spec.run.pps * (spec.run.wireSize + 20) * 8 ≤ policy.maxBpsL1)
    (unsafeRequest "Packet Storm estimatedBpsL1 exceeds maxBpsL1")
  match spec with
  | .dns spec => validateDns policy spec
  | .dhcp spec => validateDhcp policy spec
  | .arp spec => validateArp policy spec

end Checks

end TrexCli.Storm
