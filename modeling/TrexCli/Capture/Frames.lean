import Mathlib.Algebra.Order.Field.Rat
import TrexCli.Replay.Frames

/-!
# Captured frames

What `dpkt` makes of the records of a PCAP file, as far as the analyzers of a capture look into
them: the transport header of an IPv4 packet with its data, and the addresses of an ARP packet.
Timestamps are exact numbers of seconds.
-/

namespace TrexCli.Capture

/-- The data of a packet. The length of a record of a PCAP file is a field of four octets. -/
structure Payload where
  octets : Bytes
  length_lt : octets.length < 2 ^ 32

namespace Payload

variable (p : Payload)

abbrev length : Nat := p.octets.length

instance : DecidableEq Payload := fun p q =>
  decidable_of_iff (p.octets = q.octets)
    ⟨fun h => by obtain ⟨_, _⟩ := p; subst h; rfl, fun h => by rw [h]⟩

def empty : Payload := ⟨[], by decide⟩

end Payload

/-- `dpkt.udp.UDP` -/
structure Udp where
  sport : UInt16
  dport : UInt16
  data : Payload

/-- `dpkt.tcp.TCP` -/
structure Tcp where
  sport : UInt16
  dport : UInt16
  seq : UInt32
  flags : UInt16
  data : Payload

/-- `ip.data`: the header that `dpkt` reads after that of IPv4, or bytes. -/
inductive Transport where
  | udp (header : Udp)
  | tcp (header : Tcp)
  | icmp
  | other

/-- `dpkt.ip.IP` -/
structure Ip where
  p : UInt8
  src : PackedIpv4
  dst : PackedIpv4
  data : Transport

/-- `dpkt.arp.ARP` -/
structure Arp where
  pro : Nat
  pln : Nat
  spa : PackedIpv4
  tpa : PackedIpv4

/-- `ethernet.data` -/
inductive Network where
  | ip (header : Ip)
  | arp (header : Arp)
  | other

/-- `dpkt.ethernet.Ethernet` -/
structure Ethernet where
  src : HardwareAddress
  dst : HardwareAddress
  vlanTags : List Nat := []
  data : Network

/-- A record of a PCAP file, whose bytes `dpkt` has parsed. -/
structure Packet where
  timestamp : ℚ
  size : Nat
  ethernet : Ethernet

/-- `dpkt.ip.IP_PROTO_UDP` -/
def ipProtoUdp : UInt8 := 17

/-- The IPv4 header of a frame, if its protocol is UDP. -/
def Ethernet.ipUdp? (ethernet : Ethernet) : Option Ip :=
  match ethernet.data with
  | .ip ip => if ip.p = ipProtoUdp then some ip else none
  | _ => none

/-- The IPv4 and TCP headers of a frame. -/
def Ethernet.tcp? (ethernet : Ethernet) : Option (Ip × Tcp) :=
  match ethernet.data with
  | .ip ip =>
    match ip.data with
    | .tcp tcp => some (ip, tcp)
    | _ => none
  | _ => none

/-- `ethernet.dst == b"\xff" * 6` -/
def Ethernet.broadcast (ethernet : Ethernet) : Bool := ethernet.dst.toList = List.replicate 6 255

/-- `IPv4Address.is_multicast`: 224.0.0.0/4 -/
def isMulticast (a : PackedIpv4) : Bool := a.head.toNat / 16 = 14

/-- An address with a port. -/
abbrev Endpoint := PackedIpv4 × UInt16

/-- The order of `(bytes, int)` tuples. -/
def Endpoint.le (a b : Endpoint) : Bool :=
  if a.1 = b.1 then a.2 ≤ b.2 else a.1.toList < b.1.toList

/-- `sorted((source, destination))`, as a tuple -/
def flowKey (source destination : Endpoint) : Endpoint × Endpoint :=
  if Endpoint.le source destination then (source, destination) else (destination, source)

/-- A sorted pair has the endpoints of the pair. -/
theorem flowKey_cases (source destination : Endpoint) :
    flowKey source destination = (source, destination) ∨
      flowKey source destination = (destination, source) := by
  unfold flowKey
  split
  · exact .inl rfl
  · exact .inr rfl

end TrexCli.Capture
