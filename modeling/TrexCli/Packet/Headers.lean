import TrexCli.Policy.Safety

/-!
# Packet templates

`PacketHeaders` of `models.py` and what it is made of. MAC and IP addresses are numbers of their
width; a header field is one value, or a variation over a range of values.
-/

namespace TrexCli

inductive VariationMode where
  | increment | decrement | random
  deriving DecidableEq, Repr

/-- A unicast MAC address, as `_parse_mac` accepts it. -/
structure MacAddress where
  value : Nat
  lt : value < 2 ^ 48
  unicast : value / 2 ^ 40 % 2 = 0
  deriving DecidableEq

/-- The six octets of the text form. -/
def MacAddress.octets (m : MacAddress) : List Nat :=
  [m.value / 2 ^ 40, m.value / 2 ^ 32 % 256, m.value / 2 ^ 24 % 256, m.value / 2 ^ 16 % 256,
    m.value / 2 ^ 8 % 256, m.value % 256]

/-- `mac.lower().startswith(prefix)` -/
def MacPrefix.covers (p : MacPrefix) (m : MacAddress) : Bool := p.octets.isPrefixOf m.octets

/-- `MacVariation` -/
structure MacVariation where
  first : MacAddress
  last : MacAddress
  mode : VariationMode
  le : first.value ≤ last.value
  onePrefix : first.value / 2 ^ 32 = last.value / 2 ^ 32

inductive MacOrVariation where
  | value (m : MacAddress)
  | variation (v : MacVariation)

/-- `StringVariation` of addresses, as `_validate_ip_value` accepts it. -/
structure AddressVariation (version : IpVersion) where
  first : Nat
  last : Nat
  mode : VariationMode
  le : first ≤ last
  lt : last < 2 ^ version.width

inductive AddressOrVariation (version : IpVersion) where
  | value (a : Nat) (lt : a < 2 ^ version.width)
  | variation (v : AddressVariation version)

/-- `IntegerVariation` -/
structure IntegerVariation where
  first : Nat
  last : Nat
  mode : VariationMode
  le : first ≤ last
  lt : last < 2 ^ 16

inductive PortOrVariation where
  | value (port : Nat) (lt : port < 2 ^ 16)
  | variation (v : IntegerVariation)

structure EthernetHeader where
  src : MacOrVariation
  dst : MacOrVariation

structure VlanHeader where
  id : Nat
  priority : Nat := 0
  valid : 1 ≤ id ∧ id ≤ 4094 ∧ priority ≤ 7

/-- `IPv4Header` and `IPv6Header`; the hop count is the `ttl` or the `hop_limit`. -/
structure IpHeader (version : IpVersion) where
  src : AddressOrVariation version
  dst : AddressOrVariation version
  hops : Nat := 64
  valid : 1 ≤ hops ∧ hops ≤ 255

/-- `network = packet.ipv4 or packet.ipv6`, of which a packet cannot have both. -/
inductive NetworkHeader where
  | ipv4 (header : IpHeader .v4)
  | ipv6 (header : IpHeader .v6)

/-- The transport header: `udp`, `tcp` or `icmp`, of which a packet has at most one. -/
inductive TransportHeader where
  | udp (srcPort dstPort : PortOrVariation)
  | tcp (srcPort dstPort : PortOrVariation) (flags : String)
  | icmp (type code : UInt8)

/-- `PacketHeaders` -/
structure PacketHeaders where
  ethernet : EthernetHeader
  vlan : Option VlanHeader := none
  network : Option NetworkHeader
  transport : Option TransportHeader
  payload : List UInt8 := []
  stack : transport ≠ none → network ≠ none

/-- `Packet` -/
structure Packet extends PacketHeaders where
  frameSize : Nat
  size : 64 ≤ frameSize ∧ frameSize ≤ 9216

/-- `RfcPacket` -/
structure RfcPacket extends PacketHeaders where
  hasNetwork : network ≠ none

/-- A template at a frame size, as `_rfc_trial_document` builds it. -/
def RfcPacket.atFrameSize (p : RfcPacket) (frameSize : Nat)
    (size : 64 ≤ frameSize ∧ frameSize ≤ 9216) : Packet :=
  { p.toPacketHeaders with frameSize, size }

namespace Lab

theorem clientMac_lt : 0x020000000001 < 2 ^ 48 := by decide

theorem clientMac_unicast : 0x020000000001 / 2 ^ 40 % 2 = 0 := by decide

theorem serverMac_lt : 0x020000000002 < 2 ^ 48 := by decide

theorem serverMac_unicast : 0x020000000002 / 2 ^ 40 % 2 = 0 := by decide

theorem firstMac_lt : 0x020000000010 < 2 ^ 48 := by decide

theorem firstMac_unicast : 0x020000000010 / 2 ^ 40 % 2 = 0 := by decide

theorem lastMac_lt : 0x0200000000ff < 2 ^ 48 := by decide

theorem lastMac_unicast : 0x0200000000ff / 2 ^ 40 % 2 = 0 := by decide

theorem firstMac_le : 0x020000000010 ≤ 0x0200000000ff := by decide

theorem firstMac_prefix : 0x020000000010 / 2 ^ 32 = 0x0200000000ff / 2 ^ 32 := by decide

theorem hops_bounds : 1 ≤ 64 ∧ 64 ≤ 255 := by decide

theorem frameSize_bounds : 64 ≤ 64 ∧ 64 ≤ 9216 := by decide

/-- From one station to the other. -/
def network : NetworkHeader :=
  .ipv4 { src := .value 0xC6120001 client_lt, dst := .value 0xC6120002 server_lt, valid := hops_bounds }

theorem stack : (none : Option TransportHeader) ≠ none → some network ≠ none := by simp

theorem hasNetwork : some network ≠ none := by simp

end Lab

end TrexCli
