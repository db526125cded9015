import TrexCli.Traffic.Streams

/-!
# Emitted frames

What the field engine makes of a packet plan: each variable takes a value of its range, and the
instructions write the values into the octets of the packet. What a receiver reads of a frame are its
two MAC addresses and the addresses of the header that its type names.
-/

namespace TrexCli

/-! ### The field engine -/

/-- The octets of a frame, and the sizes of the variables so far. -/
structure VmMachine where
  octets : Octets
  sizes : VariableName → Nat

/-- One instruction. `values` are those of the variables and `sums` the checksums that are filled in;
a network header of twenty octets has a checksum of its own. -/
def VmInstruction.step (values : VariableName → Nat) (sums : Octets) (s : VmMachine) :
    VmInstruction → VmMachine
  | .flowVar name _ _ size _ => { s with sizes := Function.update s.sizes name size }
  | .wrFlowVar name pktOffset =>
    { s with octets := s.octets.write pktOffset (s.sizes name) (values name) }
  | .fixChecksumHw l3Offset l4Offset l4Type =>
    let field := l4Offset + match l4Type with
      | .udp => 6
      | .tcp => 16
    let octets := s.octets.write field 2 (sums.read field 2)
    { s with octets :=
        if l4Offset = l3Offset + 20 then octets.write (l3Offset + 10) 2 (sums.read (l3Offset + 10) 2)
        else octets }
  | .fixIpv4 offset => { s with octets := s.octets.write (offset + 10) 2 (sums.read (offset + 10) 2) }

def runVm (values : VariableName → Nat) (sums : Octets) (vm : List VmInstruction) (s : VmMachine) :
    VmMachine :=
  vm.foldl (VmInstruction.step values sums) s

/-- The values of the variables lie in their ranges. -/
def Admits (vm : List VmInstruction) (values : VariableName → Nat) : Prop :=
  ∀ name minValue maxValue size op, .flowVar name minValue maxValue size op ∈ vm →
    minValue ≤ values name ∧ values name ≤ maxValue

/-- A frame: an octet at each offset. -/
abbrev Frame := Octets

/-! ### The addresses of a frame -/

namespace Frame

def sourceMac (frame : Frame) : Nat := frame.read 6 6

def destinationMac (frame : Frame) : Nat := frame.read 0 6

/-- Where the network header starts. -/
def l3Offset (frame : Frame) : Nat := if frame.read 12 2 = 0x8100 then 18 else 14

/-- The type of the network header. -/
def etherType (frame : Frame) : Nat := frame.read (frame.l3Offset - 2) 2

/-- The source and the destination of the network header, if there is one. -/
def addresses (frame : Frame) : List IpAddress :=
  let l3 := frame.l3Offset
  if frame.etherType = 0x0800 then
    [⟨.v4, frame.read (l3 + 12) 4, frame.read_lt _ 4⟩, ⟨.v4, frame.read (l3 + 16) 4, frame.read_lt _ 4⟩]
  else if frame.etherType = 0x86DD then
    [⟨.v6, frame.read (l3 + 8) 16, frame.read_lt _ 16⟩,
      ⟨.v6, frame.read (l3 + 24) 16, frame.read_lt _ 16⟩]
  else []

variable {frame : Frame}

theorem addresses_ipv4 {l3 : Nat} (hl3 : frame.l3Offset = l3) (h : frame.etherType = 0x0800) :
    frame.addresses =
      [⟨.v4, frame.read (l3 + 12) 4, frame.read_lt _ 4⟩,
        ⟨.v4, frame.read (l3 + 16) 4, frame.read_lt _ 4⟩] := by
  subst hl3
  exact if_pos h

theorem addresses_ipv6 {l3 : Nat} (hl3 : frame.l3Offset = l3) (h : frame.etherType = 0x86DD) :
    frame.addresses =
      [⟨.v6, frame.read (l3 + 8) 16, frame.read_lt _ 16⟩,
        ⟨.v6, frame.read (l3 + 24) 16, frame.read_lt _ 16⟩] := by
  subst hl3
  exact (if_neg (by rw [h]; decide)).trans (if_pos h)

theorem addresses_other (h : frame.etherType ≠ 0x0800) (h' : frame.etherType ≠ 0x86DD) :
    frame.addresses = [] :=
  (if_neg h).trans (if_neg h')

end Frame

/-! ### Runs of instructions -/

section Run

variable {values : VariableName → Nat} {sums : Octets} {s : VmMachine}

theorem runVm_append (vm vm' : List VmInstruction) :
    runVm values sums (vm ++ vm') s = runVm values sums vm' (runVm values sums vm s) :=
  List.foldl_append

theorem runVm_flowVariable (name : VariableName) (start stop size : Nat) (mode : VariationMode)
    (offset : Nat) :
    (runVm values sums (flowVariable name start stop size mode offset) s).octets =
      s.octets.write offset size (values name) := by
  simp [runVm, flowVariable, VmInstruction.step]

end Run

/-! ### The fields of the packet -/

namespace BuiltPacket

variable (b : BuiltPacket) (rest : Octets)

/-- The type that the layer before the network header names. -/
def etherType (b : BuiltPacket) : Nat :=
  match b.network with
  | none => if b.vlan.isSome then 0 else 0x9000
  | some (.ipv4 ..) => 0x0800
  | some (.ipv6 ..) => 0x86DD

theorem octets_ethernet :
    (b.octets rest).read 6 6 = b.src % 256 ^ 6 ∧ (b.octets rest).read 0 6 = b.dst % 256 ^ 6 := by
  rcases b with ⟨src, dst, _ | vlan, _ | ⟨_⟩ | ⟨_⟩, _ | ⟨_⟩ | ⟨_⟩ | ⟨_⟩, load⟩ <;>
    constructor <;>
    simp (disch := omega) only [octets, l3Offset, networkLength, Octets.read_write_self,
      Octets.read_write_of_disjoint, Option.isSome, if_true, Bool.false_eq_true, if_false]

theorem octets_etherType : (b.octets rest).read (b.l3Offset - 2) 2 = b.etherType := by
  rcases b with ⟨src, dst, _ | vlan, _ | ⟨_⟩ | ⟨_⟩, _ | ⟨_⟩ | ⟨_⟩ | ⟨_⟩, load⟩ <;>
    simp (disch := omega) [octets, l3Offset, networkLength, etherType, Octets.read_write_self,
      Octets.read_write_of_disjoint]

theorem octets_tag (h : b.vlan.isSome) : (b.octets rest).read 12 2 = 0x8100 := by
  rcases b with ⟨src, dst, _ | vlan, _ | ⟨_⟩ | ⟨_⟩, _ | ⟨_⟩ | ⟨_⟩ | ⟨_⟩, load⟩ <;>
    simp (disch := omega) [octets, l3Offset, networkLength, Octets.read_write_self,
      Octets.read_write_of_disjoint] at h ⊢

theorem octets_ipv4 {src dst ttl : Nat} (h : b.network = some (.ipv4 src dst ttl)) :
    (b.octets rest).read (b.l3Offset + 12) 4 = src % 256 ^ 4 ∧
      (b.octets rest).read (b.l3Offset + 16) 4 = dst % 256 ^ 4 := by
  rcases b with ⟨_, _, _ | vlan, network, _ | ⟨_⟩ | ⟨_⟩ | ⟨_⟩, load⟩ <;>
    obtain rfl : network = _ := h <;>
    constructor <;>
    simp (disch := omega) only [octets, l3Offset, networkLength, Octets.read_write_self,
      Octets.read_write_of_disjoint, Option.isSome, if_true, Bool.false_eq_true, if_false]

theorem octets_ipv6 {src dst hlim : Nat} (h : b.network = some (.ipv6 src dst hlim)) :
    (b.octets rest).read (b.l3Offset + 8) 16 = src % 256 ^ 16 ∧
      (b.octets rest).read (b.l3Offset + 24) 16 = dst % 256 ^ 16 := by
  rcases b with ⟨_, _, _ | vlan, network, _ | ⟨_⟩ | ⟨_⟩ | ⟨_⟩, load⟩ <;>
    obtain rfl : network = _ := h <;>
    constructor <;>
    simp (disch := omega) only [octets, l3Offset, networkLength, Octets.read_write_self,
      Octets.read_write_of_disjoint, Option.isSome, if_true, Bool.false_eq_true, if_false]

end BuiltPacket

end TrexCli
