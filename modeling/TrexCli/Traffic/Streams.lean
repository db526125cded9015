import TrexCli.Lib.Octets
import TrexCli.Traffic.Admission

/-!
# Packet plans

`_packet_plan_for` and `_variation_vm_for` of the remote STL engine: the packet that is built for a
stream, and the instructions that vary its fields.
-/

namespace TrexCli

/-! ### The packet -/

/-- `_initial_value` -/
def MacOrVariation.initial : MacOrVariation → Nat
  | .value m => m.value
  | .variation v => if v.mode = .decrement then v.last.value else v.first.value

/-- `_initial_value` -/
def AddressOrVariation.initial {version : IpVersion} : AddressOrVariation version → Nat
  | .value a _ => a
  | .variation v => if v.mode = .decrement then v.last else v.first

/-- `_initial_value` -/
def PortOrVariation.initial : PortOrVariation → Nat
  | .value port _ => port
  | .variation v => if v.mode = .decrement then v.last else v.first

/-- The network layer of a built packet. -/
inductive BuiltNetwork where
  | ipv4 (src dst ttl : Nat)
  | ipv6 (src dst hlim : Nat)

/-- The transport layer of a built packet. -/
inductive BuiltTransport where
  | udp (sport dport : Nat)
  | tcp (sport dport : Nat) (flags : String)
  | icmp (type code : Nat)

/-- The layers of a built packet. -/
structure BuiltPacket where
  src : Nat
  dst : Nat
  vlan : Option VlanHeader
  network : Option BuiltNetwork
  transport : Option BuiltTransport
  load : List UInt8

namespace BuiltPacket

def l3Offset (b : BuiltPacket) : Nat := 14 + if b.vlan.isSome then 4 else 0

def networkLength (b : BuiltPacket) : Nat :=
  match b.network with
  | none => 0
  | some (.ipv4 ..) => 20
  | some (.ipv6 ..) => 40

def transportLength (b : BuiltPacket) : Nat :=
  match b.transport with
  | none => 0
  | some (.udp ..) => 8
  | some (.tcp ..) => 20
  | some (.icmp ..) => 8

/-- `len(built)` -/
def length (b : BuiltPacket) : Nat :=
  b.l3Offset + b.networkLength + b.transportLength + b.load.length

/-- The octets of the packet; `rest` are those of the fields that `scapy` fills in and of the load. -/
def octets (b : BuiltPacket) (rest : Octets) : Octets :=
  let ether := (rest.write 0 6 b.dst).write 6 6 b.src
  let tagged := match b.vlan with
    | none => ether
    | some vlan => (ether.write 12 2 0x8100).write 14 2 (vlan.priority * 2 ^ 13 + vlan.id)
  let network := match b.network with
    | none => tagged.write (b.l3Offset - 2) 2 (if b.vlan.isSome then 0 else 0x9000)
    | some (.ipv4 src dst ttl) =>
      (((tagged.write (b.l3Offset - 2) 2 0x0800).write (b.l3Offset + 8) 1 ttl).write
        (b.l3Offset + 12) 4 src).write (b.l3Offset + 16) 4 dst
    | some (.ipv6 src dst hlim) =>
      (((tagged.write (b.l3Offset - 2) 2 0x86DD).write (b.l3Offset + 7) 1 hlim).write
        (b.l3Offset + 8) 16 src).write (b.l3Offset + 24) 16 dst
  let l4Offset := b.l3Offset + b.networkLength
  match b.transport with
  | none => network
  | some (.udp sport dport) => (network.write l4Offset 2 sport).write (l4Offset + 2) 2 dport
  | some (.tcp sport dport _) => (network.write l4Offset 2 sport).write (l4Offset + 2) 2 dport
  | some (.icmp type code) => (network.write l4Offset 1 type).write (l4Offset + 1) 1 code

end BuiltPacket

/-! ### The instructions -/

inductive VariableLayer where
  | ethernet | ip | ipv6 | udp | tcp
  deriving DecidableEq

inductive VariableField where
  | src | dst
  deriving DecidableEq

/-- `f"{variable_prefix}_{layer}_{field}"` -/
structure VariableName where
  variablePrefix : String
  layer : VariableLayer
  field : VariableField
  deriving DecidableEq

/-- `L4_TYPE_UDP` and `L4_TYPE_TCP` -/
inductive L4Type where
  | udp | tcp

/-- The instructions of the field engine that the compiler uses. -/
inductive VmInstruction where
  | flowVar (name : VariableName) (minValue maxValue size : Nat) (op : VariationMode)
  | wrFlowVar (name : VariableName) (pktOffset : Nat)
  | fixChecksumHw (l3Offset l4Offset : Nat) (l4Type : L4Type)
  | fixIpv4 (offset : Nat)

/-- `_flow_variable` -/
def flowVariable (name : VariableName) (start stop size : Nat) (mode : VariationMode)
    (offset : Nat) : List VmInstruction :=
  [.flowVar name start stop size mode, .wrFlowVar name offset]

section Compile

variable (variablePrefix : String)

/-- The instructions of a MAC address. -/
def ethernetVm (field : VariableField) : MacOrVariation → List VmInstruction
  | .value _ => []
  | .variation v =>
    flowVariable ⟨variablePrefix, .ethernet, field⟩ (v.first.value % 2 ^ 32) (v.last.value % 2 ^ 32) 4
      v.mode ((if field = .src then 6 else 0) + 2)

/-- The instructions of an IPv4 address. -/
def ipv4Vm (l3Offset : Nat) (field : VariableField) : AddressOrVariation .v4 → List VmInstruction
  | .value .. => []
  | .variation v =>
    flowVariable ⟨variablePrefix, .ip, field⟩ v.first v.last 4 v.mode
      (l3Offset + if field = .src then 12 else 16)

/-- The instructions of an IPv6 address, of which the lower half varies. -/
def ipv6Vm (l3Offset : Nat) (field : VariableField) : AddressOrVariation .v6 → List VmInstruction
  | .value .. => []
  | .variation v =>
    flowVariable ⟨variablePrefix, .ipv6, field⟩ (v.first % 2 ^ 64) (v.last % 2 ^ 64) 8 v.mode
      (l3Offset + if field = .src then 16 else 32)

/-- The instructions of a port. -/
def portVm (layer : VariableLayer) (l4Offset : Nat) (field : VariableField) :
    PortOrVariation → List VmInstruction
  | .value .. => []
  | .variation v =>
    flowVariable ⟨variablePrefix, layer, field⟩ v.first v.last 2 v.mode
      (l4Offset + if field = .src then 0 else 2)

/-- The source and the destination, or the other way round. -/
def ordered {α : Type} (reverse : Bool) (src dst : α) : α × α := if reverse then (dst, src) else (src, dst)

/-- The instructions of the network addresses. -/
def networkVm (l3Offset : Nat) (reverse : Bool) : Option NetworkHeader → List VmInstruction
  | none => []
  | some (.ipv4 header) =>
    let (src, dst) := ordered reverse header.src header.dst
    ipv4Vm variablePrefix l3Offset .src src ++ ipv4Vm variablePrefix l3Offset .dst dst
  | some (.ipv6 header) =>
    let (src, dst) := ordered reverse header.src header.dst
    ipv6Vm variablePrefix l3Offset .src src ++ ipv6Vm variablePrefix l3Offset .dst dst

/-- The instructions of the transport ports. -/
def transportVm (l4Offset : Nat) (reverse : Bool) : Option TransportHeader → List VmInstruction
  | some (.udp srcPort dstPort) =>
    let (src, dst) := ordered reverse srcPort dstPort
    portVm variablePrefix .udp l4Offset .src src ++ portVm variablePrefix .udp l4Offset .dst dst
  | some (.tcp srcPort dstPort _) =>
    let (src, dst) := ordered reverse srcPort dstPort
    portVm variablePrefix .tcp l4Offset .src src ++ portVm variablePrefix .tcp l4Offset .dst dst
  | _ => []

/-- The instruction that fixes the checksums of what varies. -/
def checksumVm (l3Offset l4Offset : Nat) (networkVaries transportVaries : Bool)
    (network : Option NetworkHeader) (transport : Option TransportHeader) : List VmInstruction :=
  match transport, network with
  | some (.udp ..), _ =>
    if transportVaries || networkVaries then [.fixChecksumHw l3Offset l4Offset .udp] else []
  | some (.tcp ..), _ =>
    if transportVaries || networkVaries then [.fixChecksumHw l3Offset l4Offset .tcp] else []
  | _, some (.ipv4 _) => if networkVaries then [.fixIpv4 l3Offset] else []
  | _, _ => []

/-- `l3_offset` -/
def PacketHeaders.l3Offset (packet : PacketHeaders) : Nat := 14 + if packet.vlan.isSome then 4 else 0

/-- `l4_offset` -/
def PacketHeaders.l4Offset (packet : PacketHeaders) : Nat :=
  packet.l3Offset + match packet.network with
    | some (.ipv4 _) => 20
    | _ => 40

/-- `_variation_vm_for` -/
def variationVmFor (packet : PacketHeaders) (reverse : Bool) : List VmInstruction :=
  let (srcMac, dstMac) := ordered reverse packet.ethernet.src packet.ethernet.dst
  let network := networkVm variablePrefix packet.l3Offset reverse packet.network
  let transport := transportVm variablePrefix packet.l4Offset reverse packet.transport
  ethernetVm variablePrefix .src srcMac ++ ethernetVm variablePrefix .dst dstMac ++ network ++
    transport ++ checksumVm packet.l3Offset packet.l4Offset (!network.isEmpty) (!transport.isEmpty)
      packet.network packet.transport

end Compile

/-- A packet and the instructions that vary it. -/
structure PacketPlan where
  built : BuiltPacket
  vm : List VmInstruction

/-- The layers of a packet. -/
def PacketHeaders.built (packet : PacketHeaders) (reverse : Bool) (load : List UInt8) : BuiltPacket :=
  let (srcMac, dstMac) := ordered reverse packet.ethernet.src packet.ethernet.dst
  { src := srcMac.initial
    dst := dstMac.initial
    vlan := packet.vlan
    network := packet.network.map fun
      | .ipv4 header =>
        let (src, dst) := ordered reverse header.src header.dst
        .ipv4 src.initial dst.initial header.hops
      | .ipv6 header =>
        let (src, dst) := ordered reverse header.src header.dst
        .ipv6 src.initial dst.initial header.hops
    transport := packet.transport.map fun
      | .udp srcPort dstPort =>
        let (src, dst) := ordered reverse srcPort dstPort
        .udp src.initial dst.initial
      | .tcp srcPort dstPort flags =>
        let (src, dst) := ordered reverse srcPort dstPort
        .tcp src.initial dst.initial flags
      | .icmp type code => .icmp type.toNat code.toNat
    load }

/-- `_packet_plan_for` -/
def packetPlanFor (packet : Packet) (reverse : Bool) (variablePrefix : String) :
    Except Exc PacketPlan :=
  let headers := packet.built reverse []
  if packet.frameSize - 4 < headers.length + packet.payload.length then
    .error (.trexCli
      { code := "INVALID_DOCUMENT", category := "INPUT"
        message := "packet headers and payload exceed frameSize" })
  else
    let padding := packet.frameSize - 4 - headers.length - packet.payload.length
    .ok { built := packet.built reverse (packet.payload ++ List.replicate padding 0)
          vm := variationVmFor variablePrefix packet.toPacketHeaders reverse }

end TrexCli
