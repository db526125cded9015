import TrexCli.Traffic.Fields

/-!
# The layout of the headers

The instructions of the compiler are those of the fields of the headers, and of their checksums. The
fields share no octet and lie within the headers, their variables have different names, their values
fit, and the packet that is built holds them.
-/

namespace TrexCli

/-! ### The headers -/

theorem MacOrVariation.vm_content (variablePrefix : String) (field : VariableField)
    (value : MacOrVariation) :
    (⟨if field = .src then 6 else 0, 6, value.content ⟨variablePrefix, .ethernet, field⟩⟩ : Field).vm =
      ethernetVm variablePrefix field value := by
  cases value <;> rfl

theorem AddressOrVariation.vm_content_v4 (variablePrefix : String) (l3 : Nat) (field : VariableField)
    (value : AddressOrVariation .v4) :
    (⟨l3 + if field = .src then 12 else 16, 4, value.content ⟨variablePrefix, .ip, field⟩⟩ : Field).vm =
      ipv4Vm variablePrefix l3 field value := by
  cases value with
  | value a lt => rfl
  | variation v =>
    have hlast : v.last < 256 ^ 4 := v.lt
    have hfirst : v.first < 256 ^ 4 := v.le.trans_lt hlast
    show flowVariable _ (v.first % 256 ^ 4) (v.last % 256 ^ 4) 4 v.mode _ = flowVariable _ _ _ 4 v.mode _
    rw [Nat.mod_eq_of_lt hfirst, Nat.mod_eq_of_lt hlast]
    rfl

theorem AddressOrVariation.vm_content_v6 (variablePrefix : String) (l3 : Nat) (field : VariableField)
    (value : AddressOrVariation .v6) :
    (⟨l3 + if field = .src then 8 else 24, 16, value.content ⟨variablePrefix, .ipv6, field⟩⟩ : Field).vm =
      ipv6Vm variablePrefix l3 field value := by
  cases value with
  | value a lt => rfl
  | variation v => cases field <;> rfl

theorem PortOrVariation.vm_content (variablePrefix : String) (layer : VariableLayer) (l4 : Nat)
    (field : VariableField) (value : PortOrVariation) (hlayer : layer.width = 2) :
    (⟨l4 + if field = .src then 0 else 2, 2, value.content ⟨variablePrefix, layer, field⟩⟩ : Field).vm =
      portVm variablePrefix layer l4 field value := by
  cases value with
  | value port lt => rfl
  | variation v =>
    have hlast : v.last < 256 ^ 2 := v.lt
    have hfirst : v.first < 256 ^ 2 := v.le.trans_lt hlast
    show flowVariable _ (v.first % 256 ^ layer.width) (v.last % 256 ^ layer.width) layer.width v.mode _ =
      flowVariable _ _ _ 2 v.mode _
    rw [hlayer, Nat.mod_eq_of_lt hfirst, Nat.mod_eq_of_lt hlast]
    rfl

section Headers

variable (variablePrefix : String) (packet : PacketHeaders)

theorem NetworkHeader.vm_fields (l3 : Nat) (header : NetworkHeader) :
    (header.fields variablePrefix l3).flatMap Field.vm =
      networkVm variablePrefix l3 false (some header) := by
  cases header with
  | ipv4 header =>
    have hsrc := AddressOrVariation.vm_content_v4 variablePrefix l3 .src header.src
    have hdst := AddressOrVariation.vm_content_v4 variablePrefix l3 .dst header.dst
    simpa [NetworkHeader.fields, networkVm, ordered, Field.vm] using congrArg₂ (· ++ ·) hsrc hdst
  | ipv6 header =>
    have hsrc := AddressOrVariation.vm_content_v6 variablePrefix l3 .src header.src
    have hdst := AddressOrVariation.vm_content_v6 variablePrefix l3 .dst header.dst
    simpa [NetworkHeader.fields, networkVm, ordered, Field.vm] using congrArg₂ (· ++ ·) hsrc hdst

theorem TransportHeader.vm_fields (l4 : Nat) (header : TransportHeader) :
    (header.fields variablePrefix l4).flatMap Field.vm =
      transportVm variablePrefix l4 false (some header) := by
  cases header with
  | udp srcPort dstPort =>
    have hsrc := PortOrVariation.vm_content variablePrefix .udp l4 .src srcPort rfl
    have hdst := PortOrVariation.vm_content variablePrefix .udp l4 .dst dstPort rfl
    simpa [TransportHeader.fields, transportVm, ordered, Field.vm] using congrArg₂ (· ++ ·) hsrc hdst
  | tcp srcPort dstPort flags =>
    have hsrc := PortOrVariation.vm_content variablePrefix .tcp l4 .src srcPort rfl
    have hdst := PortOrVariation.vm_content variablePrefix .tcp l4 .dst dstPort rfl
    simpa [TransportHeader.fields, transportVm, ordered, Field.vm] using congrArg₂ (· ++ ·) hsrc hdst
  | icmp type code => rfl

theorem PacketHeaders.variationVmFor_eq :
    variationVmFor variablePrefix packet false =
      (packet.fields variablePrefix).flatMap Field.vm ++
        checksumVm packet.l3Offset packet.l4Offset
          (!(networkVm variablePrefix packet.l3Offset false packet.network).isEmpty)
          (!(transportVm variablePrefix packet.l4Offset false packet.transport).isEmpty) packet.network
          packet.transport := by
  have hsrc := MacOrVariation.vm_content variablePrefix .src packet.ethernet.src
  have hdst := MacOrVariation.vm_content variablePrefix .dst packet.ethernet.dst
  have hvlan : (packet.vlan.toList.map fun vlan =>
      (⟨14, 2, .fixed (vlan.priority * 2 ^ 13 + vlan.id)⟩ : Field)).flatMap Field.vm = [] := by
    cases packet.vlan <;> rfl
  have hnetwork : (packet.network.toList.flatMap
      (NetworkHeader.fields variablePrefix packet.l3Offset)).flatMap Field.vm =
        networkVm variablePrefix packet.l3Offset false packet.network := by
    cases packet.network with
    | none => rfl
    | some header => simpa using NetworkHeader.vm_fields variablePrefix packet.l3Offset header
  have htransport : (packet.transport.toList.flatMap
      (TransportHeader.fields variablePrefix packet.l4Offset)).flatMap Field.vm =
        transportVm variablePrefix packet.l4Offset false packet.transport := by
    cases packet.transport with
    | none => rfl
    | some header => simpa using TransportHeader.vm_fields variablePrefix packet.l4Offset header
  rw [PacketHeaders.fields, List.flatMap_append, List.flatMap_append, List.flatMap_append, hvlan,
    hnetwork, htransport, List.append_nil]
  show ethernetVm variablePrefix .src packet.ethernet.src ++
    ethernetVm variablePrefix .dst packet.ethernet.dst ++ _ ++ _ ++ _ = _
  rw [← hsrc, ← hdst]
  simp [List.flatMap_cons]

theorem NetworkHeader.laid (l3 : Nat) (header : NetworkHeader) :
    Laid l3 (l3 + match header with
      | .ipv4 _ => 20
      | .ipv6 _ => 40) (header.fields variablePrefix l3) := by
  cases header <;> exact ⟨by simp [NetworkHeader.fields, Field.Apart], by simp [NetworkHeader.fields]⟩

theorem TransportHeader.laid (l4 : Nat) (header : TransportHeader) :
    Laid l4 (l4 + match header with
      | .udp .. => 8
      | .tcp .. => 20
      | .icmp .. => 8) (header.fields variablePrefix l4) := by
  cases header <;> exact ⟨by simp [TransportHeader.fields, Field.Apart], by simp [TransportHeader.fields]⟩

theorem PacketHeaders.l4Offset_eq (load : List UInt8) (h : packet.transport ≠ none) :
    packet.l4Offset =
      (packet.built false load).l3Offset + (packet.built false load).networkLength := by
  have hnetwork := packet.stack h
  rcases packet with ⟨_, _, _ | ⟨_⟩ | ⟨_⟩, _, _, _⟩
  · exact absurd rfl hnetwork
  · rfl
  · rfl

/-- The fields of the headers, which lie one header after the other. -/
theorem PacketHeaders.laid : Laid 0 packet.headersLength (packet.fields variablePrefix) := by
  let b := packet.built false []
  have hethernet : Laid 0 12 [⟨6, 6, packet.ethernet.src.content ⟨variablePrefix, .ethernet, .src⟩⟩,
      ⟨0, 6, packet.ethernet.dst.content ⟨variablePrefix, .ethernet, .dst⟩⟩] :=
    ⟨by simp [Field.Apart], by simp⟩
  have hvlan : Laid 12 packet.l3Offset (packet.vlan.toList.map fun vlan =>
      ⟨14, 2, .fixed (vlan.priority * 2 ^ 13 + vlan.id)⟩) := by
    unfold PacketHeaders.l3Offset
    cases packet.vlan <;> simp [Laid]
  have hnetwork : Laid packet.l3Offset (packet.l3Offset + b.networkLength)
      (packet.network.toList.flatMap (NetworkHeader.fields variablePrefix packet.l3Offset)) := by
    have hbuilt : b.network = packet.network.map _ := rfl
    unfold BuiltPacket.networkLength
    rw [hbuilt]
    cases packet.network with
    | none => exact ⟨.nil, by simp⟩
    | some header => cases header <;> simpa using NetworkHeader.laid variablePrefix packet.l3Offset _
  have htransport : Laid (packet.l3Offset + b.networkLength)
      (packet.l3Offset + b.networkLength + b.transportLength)
      (packet.transport.toList.flatMap (TransportHeader.fields variablePrefix packet.l4Offset)) := by
    have hbuilt : b.transport = packet.transport.map _ := rfl
    have hl4 : packet.transport ≠ none → packet.l4Offset = packet.l3Offset + b.networkLength :=
      packet.l4Offset_eq []
    unfold BuiltPacket.transportLength
    rw [hbuilt]
    cases hheader : packet.transport with
    | none => exact ⟨.nil, by simp⟩
    | some header =>
      rw [hl4 (by simp [hheader])]
      cases header <;> simpa using TransportHeader.laid variablePrefix _ _
  have hl3 : 14 ≤ packet.l3Offset := Nat.le_add_right _ _
  have hlength : packet.headersLength = packet.l3Offset + b.networkLength + b.transportLength := rfl
  rw [hlength]
  exact ((hethernet.append hvlan (by omega) (by omega)).append hnetwork (by omega) (by omega)).append
    htransport (by omega) (by omega)

/-- The variables of a part of the headers are distinct, and name its layer. -/
def DistinctIn (layers : List VariableLayer) (fields : List Field) : Prop :=
  (fields.filterMap Field.name?).Nodup ∧ ∀ name ∈ fields.filterMap Field.name?, name.layer ∈ layers

theorem DistinctIn.append {layers layers' : List VariableLayer} {fields fields' : List Field}
    (h : DistinctIn layers fields) (h' : DistinctIn layers' fields') (hlayers : layers.Disjoint layers') :
    DistinctIn (layers ++ layers') (fields ++ fields') := by
  rw [DistinctIn, List.filterMap_append, List.nodup_append]
  refine ⟨⟨h.1, h'.1, fun name hname name' hname' heq => ?_⟩, fun name hname => ?_⟩
  · exact hlayers (h.2 name hname) (heq ▸ h'.2 name' hname')
  · rcases List.mem_append.mp hname with hleft | hright
    · exact List.mem_append_left _ (h.2 name hleft)
    · exact List.mem_append_right _ (h'.2 name hright)

theorem distinctIn_ethernet (header : EthernetHeader) :
    DistinctIn [.ethernet] [⟨6, 6, header.src.content ⟨variablePrefix, .ethernet, .src⟩⟩,
      ⟨0, 6, header.dst.content ⟨variablePrefix, .ethernet, .dst⟩⟩] := by
  rcases header with ⟨_ | _, _ | _⟩ <;> simp [DistinctIn, List.filterMap_cons, Field.name?, MacOrVariation.content]

theorem NetworkHeader.distinctIn (l3 : Nat) (header : NetworkHeader) :
    DistinctIn [.ip, .ipv6] (header.fields variablePrefix l3) := by
  rcases header with ⟨⟨_ | _, _ | _, _, _⟩⟩ | ⟨⟨_ | _, _ | _, _, _⟩⟩ <;>
    simp [DistinctIn, NetworkHeader.fields, List.filterMap_cons, Field.name?,
      AddressOrVariation.content]

theorem TransportHeader.distinctIn (l4 : Nat) (header : TransportHeader) :
    DistinctIn [.udp, .tcp] (header.fields variablePrefix l4) := by
  rcases header with ⟨_ | _, _ | _⟩ | ⟨_ | _, _ | _, _⟩ | _ <;>
    simp [DistinctIn, TransportHeader.fields, List.filterMap_cons, Field.name?, PortOrVariation.content]

theorem PacketHeaders.distinctIn_fields :
    DistinctIn [.ethernet, .ip, .ipv6, .udp, .tcp] (packet.fields variablePrefix) := by
  have hnone : ∀ layers, DistinctIn layers [] := fun layers => ⟨List.nodup_nil, by simp⟩
  have hvlan : DistinctIn [] (packet.vlan.toList.map fun vlan =>
      (⟨14, 2, .fixed (vlan.priority * 2 ^ 13 + vlan.id)⟩ : Field)) := by
    cases packet.vlan <;> simp [DistinctIn, List.filterMap_cons, Field.name?]
  have hnetwork : DistinctIn [.ip, .ipv6] (packet.network.toList.flatMap
      (NetworkHeader.fields variablePrefix packet.l3Offset)) := by
    cases packet.network with
    | none => exact hnone _
    | some header => simpa using NetworkHeader.distinctIn variablePrefix packet.l3Offset header
  have htransport : DistinctIn [.udp, .tcp] (packet.transport.toList.flatMap
      (TransportHeader.fields variablePrefix packet.l4Offset)) := by
    cases packet.transport with
    | none => exact hnone _
    | some header => simpa using TransportHeader.distinctIn variablePrefix packet.l4Offset header
  have hethernet := distinctIn_ethernet variablePrefix packet.ethernet
  exact (((hethernet.append hvlan (by simp)).append hnetwork (by simp)).append htransport (by simp))

/-- The instructions that fix the checksums change them alone. -/
theorem PacketHeaders.checksumVm_apply {networkVaries transportVaries : Bool}
    {values : VariableName → Nat} {sums : Octets} {s : VmMachine} {i : Nat}
    (h : ∀ field ∈ packet.fields variablePrefix, field.content = .checksum → ¬field.Covers i) :
    (runVm values sums (checksumVm packet.l3Offset packet.l4Offset networkVaries transportVaries
      packet.network packet.transport) s).octets i = s.octets i := by
  have hfix : ∀ offset, (⟨offset, 2, .checksum⟩ : Field) ∈ packet.fields variablePrefix →
      ∀ (m : Octets) v, m.write offset 2 v i = m i := fun offset hmem m v => if_neg (h _ hmem rfl)
  have hnetwork : ∀ header, packet.network = some (.ipv4 header) →
      ∀ (m : Octets) v, m.write (packet.l3Offset + 10) 2 v i = m i := by
    intro header hheader
    refine hfix _ ?_
    simp [PacketHeaders.fields, NetworkHeader.fields, hheader]
  have hipv4 : packet.l4Offset = packet.l3Offset + 20 →
      ∃ header, packet.network = some (.ipv4 header) := by
    intro hlength
    unfold PacketHeaders.l4Offset at hlength
    split at hlength
    · exact ⟨_, ‹_›⟩
    · omega
  have hhardware : ∀ (offset : Nat) (m : Octets),
      (⟨offset, 2, .checksum⟩ : Field) ∈ packet.fields variablePrefix →
      m = (if packet.l4Offset = packet.l3Offset + 20 then
        (s.octets.write offset 2 (sums.read offset 2)).write (packet.l3Offset + 10) 2
          (sums.read (packet.l3Offset + 10) 2)
        else s.octets.write offset 2 (sums.read offset 2)) →
      m i = s.octets i := by
    rintro offset _ hmem rfl
    split
    · obtain ⟨header, hheader⟩ := hipv4 ‹_›
      rw [hnetwork header hheader]
      exact hfix _ hmem _ _
    · exact hfix _ hmem _ _
  unfold checksumVm
  split
  · split
    · refine hhardware (packet.l4Offset + 6) _ ?_ rfl
      simp [PacketHeaders.fields, TransportHeader.fields, *]
    · rfl
  · split
    · refine hhardware (packet.l4Offset + 16) _ ?_ rfl
      simp [PacketHeaders.fields, TransportHeader.fields, *]
    · rfl
  · split
    · exact hnetwork _ ‹_› _ _
    · rfl
  · rfl

end Headers

/-! ### The fields of the built packet -/

namespace BuiltPacket

variable (b : BuiltPacket) (rest : Octets)

theorem headerBytes_read {offset size : Nat}
    (h : offset + size ≤ b.l3Offset + b.networkLength + 13 ∨
      b.l3Offset + b.networkLength + 14 ≤ offset) :
    (b.headerBytes rest).read offset size = (b.octets rest).read offset size := by
  unfold headerBytes
  split
  · exact Octets.read_write_of_disjoint (by omega)
  · rfl

theorem bytes_read {offset size : Nat} (h : offset + size ≤ b.headersLength) :
    (b.bytes rest).read offset size = (b.headerBytes rest).read offset size :=
  Octets.read_congr fun _ _ _ => if_neg (by omega)

theorem octets_vlan {vlan : VlanHeader} (h : b.vlan = some vlan) :
    (b.octets rest).read 14 2 = (vlan.priority * 2 ^ 13 + vlan.id) % 256 ^ 2 := by
  rcases b with ⟨_, _, vlans, _ | ⟨_⟩ | ⟨_⟩, _ | ⟨_⟩ | ⟨_⟩ | ⟨_⟩, load⟩ <;>
    obtain rfl : vlans = _ := h <;>
    simp (disch := omega) only [octets, l3Offset, networkLength, Octets.read_write_self,
      Octets.read_write_of_disjoint, Option.isSome, if_true]

theorem octets_ttl {src dst ttl : Nat} (h : b.network = some (.ipv4 src dst ttl)) :
    (b.octets rest).read (b.l3Offset + 8) 1 = ttl % 256 ^ 1 := by
  rcases b with ⟨_, _, _ | vlan, network, _ | ⟨_⟩ | ⟨_⟩ | ⟨_⟩, load⟩ <;>
    obtain rfl : network = _ := h <;>
    simp (disch := omega) only [octets, l3Offset, networkLength, Octets.read_write_self,
      Octets.read_write_of_disjoint, Option.isSome, if_true, Bool.false_eq_true, if_false]

theorem octets_hlim {src dst hlim : Nat} (h : b.network = some (.ipv6 src dst hlim)) :
    (b.octets rest).read (b.l3Offset + 7) 1 = hlim % 256 ^ 1 := by
  rcases b with ⟨_, _, _ | vlan, network, _ | ⟨_⟩ | ⟨_⟩ | ⟨_⟩, load⟩ <;>
    obtain rfl : network = _ := h <;>
    simp (disch := omega) only [octets, l3Offset, networkLength, Octets.read_write_self,
      Octets.read_write_of_disjoint, Option.isSome, if_true, Bool.false_eq_true, if_false]

theorem octets_ports {sport dport : Nat}
    (h : b.transport = some (.udp sport dport) ∨ ∃ flags, b.transport = some (.tcp sport dport flags)) :
    (b.octets rest).read (b.l3Offset + b.networkLength) 2 = sport % 256 ^ 2 ∧
      (b.octets rest).read (b.l3Offset + b.networkLength + 2) 2 = dport % 256 ^ 2 := by
  rcases b with ⟨_, _, vlan, network, transport, load⟩
  obtain rfl | ⟨flags, rfl⟩ : transport = _ ∨ ∃ flags, transport = _ := h <;>
    constructor <;>
    simp (disch := omega) only [octets, Octets.read_write_self, Octets.read_write_of_disjoint]

theorem octets_icmp {type code : Nat} (h : b.transport = some (.icmp type code)) :
    (b.octets rest).read (b.l3Offset + b.networkLength) 1 = type % 256 ^ 1 ∧
      (b.octets rest).read (b.l3Offset + b.networkLength + 1) 1 = code % 256 ^ 1 := by
  rcases b with ⟨_, _, vlan, network, transport, load⟩
  obtain rfl : transport = _ := h
  constructor <;>
    simp (disch := omega) only [octets, Octets.read_write_self, Octets.read_write_of_disjoint]

theorem headerBytes_flags {sport dport : Nat} {flags : String}
    (h : b.transport = some (.tcp sport dport flags)) :
    (b.headerBytes rest).read (b.l3Offset + b.networkLength + 13) 1 = tcpFlags flags % 256 ^ 1 := by
  simp only [headerBytes, h]
  exact Octets.read_write_self _ _ _ _

end BuiltPacket

/-! ### Initial values -/

/-- One of the ends, as `_initial_value` chooses it. -/
theorem chosen_between {first last : Nat} (mode : VariationMode) (h : first ≤ last) :
    first ≤ (if mode = .decrement then last else first) ∧
      (if mode = .decrement then last else first) ≤ last := by
  split <;> omega

section Contents

variable {offset : Nat} {name : VariableName}

theorem MacOrVariation.holds_initial (value : MacOrVariation) :
    (⟨offset, 6, value.content name⟩ : Field).Holds (value.initial % 256 ^ 6) := by
  cases value with
  | value m => exact Nat.mod_eq_of_lt m.lt
  | variation v =>
    have hbetween := chosen_between v.mode v.le
    have hsmall := Nat.mod_eq_of_lt (hbetween.2.trans_lt v.last.lt)
    show _ ≤ MacOrVariation.initial _ % 2 ^ 48 ∧ MacOrVariation.initial _ % 2 ^ 48 ≤ _
    rw [MacOrVariation.initial, hsmall]
    exact hbetween

theorem AddressOrVariation.holds_initial {version : IpVersion} {size : Nat}
    (hsize : 256 ^ size = 2 ^ version.width) (value : AddressOrVariation version) :
    (⟨offset, size, value.content name⟩ : Field).Holds (value.initial % 256 ^ size) := by
  rw [hsize]
  cases value with
  | value a lt => exact Nat.mod_eq_of_lt lt
  | variation v =>
    have hbetween := chosen_between v.mode v.le
    have hsmall := Nat.mod_eq_of_lt (hbetween.2.trans_lt v.lt)
    show _ ≤ AddressOrVariation.initial _ % _ ∧ AddressOrVariation.initial _ % _ ≤ _
    rw [AddressOrVariation.initial, hsmall]
    exact hbetween

theorem PortOrVariation.holds_initial (value : PortOrVariation) :
    (⟨offset, 2, value.content name⟩ : Field).Holds (value.initial % 256 ^ 2) := by
  cases value with
  | value port lt => exact Nat.mod_eq_of_lt lt
  | variation v =>
    have hbetween := chosen_between v.mode v.le
    have hsmall := Nat.mod_eq_of_lt (hbetween.2.trans_lt v.lt)
    show _ ≤ PortOrVariation.initial _ % 2 ^ 16 ∧ PortOrVariation.initial _ % 2 ^ 16 ≤ _
    rw [PortOrVariation.initial, hsmall]
    exact hbetween

theorem MacOrVariation.fits_content {value : MacOrVariation} (hlayer : name.layer = .ethernet) :
    (⟨offset, 6, value.content name⟩ : Field).Fits := by
  cases value with
  | value m => exact m.lt
  | variation v =>
    show name.layer.width ≤ 6 ∧ _ ∧ _
    rw [hlayer]
    exact ⟨by decide, v.le, v.last.lt⟩

theorem MacOrVariation.onePrefix_content {value : MacOrVariation} (hlayer : name.layer = .ethernet) :
    (⟨offset, 6, value.content name⟩ : Field).OnePrefix := by
  cases value with
  | value m => trivial
  | variation v =>
    show _ / 256 ^ name.layer.width = _ / 256 ^ name.layer.width
    rw [hlayer]
    exact v.onePrefix

theorem AddressOrVariation.fits_content {version : IpVersion} {size : Nat}
    {value : AddressOrVariation version} (hsize : 256 ^ size = 2 ^ version.width)
    (hwidth : name.layer.width ≤ size) : (⟨offset, size, value.content name⟩ : Field).Fits := by
  cases value with
  | value a lt =>
    show a < 256 ^ size
    rw [hsize]
    exact lt
  | variation v =>
    show name.layer.width ≤ size ∧ _ ∧ v.last < 256 ^ size
    rw [hsize]
    exact ⟨hwidth, v.le, v.lt⟩

theorem AddressOrVariation.onePrefix_content_v4 {value : AddressOrVariation .v4}
    (hlayer : name.layer = .ip) : (⟨offset, 4, value.content name⟩ : Field).OnePrefix := by
  cases value with
  | value a lt => trivial
  | variation v =>
    have hlast : v.last / 256 ^ 4 = 0 := Nat.div_eq_of_lt v.lt
    have hfirst : v.first / 256 ^ 4 = 0 := Nat.div_eq_of_lt (v.le.trans_lt v.lt)
    show _ / 256 ^ name.layer.width = _ / 256 ^ name.layer.width
    rw [hlayer]
    exact hfirst.trans hlast.symm

/-- An IPv6 address varies within one prefix of 64 bits. -/
theorem AddressOrVariation.onePrefix_content_v6 {value : AddressOrVariation .v6}
    (hlayer : name.layer = .ipv6) (hwithin : value.withinPrefix = true) :
    (⟨offset, 16, value.content name⟩ : Field).OnePrefix := by
  cases value with
  | value a lt => trivial
  | variation v =>
    have hupper : v.first / 2 ^ 64 = v.last / 2 ^ 64 := of_decide_eq_true hwithin
    show _ / 256 ^ name.layer.width = _ / 256 ^ name.layer.width
    rw [hlayer]
    exact hupper

theorem PortOrVariation.fits_content {value : PortOrVariation} (hlayer : name.layer.width = 2) :
    (⟨offset, 2, value.content name⟩ : Field).Fits := by
  cases value with
  | value port lt => exact lt
  | variation v =>
    show name.layer.width ≤ 2 ∧ _ ∧ _
    rw [hlayer]
    exact ⟨le_rfl, v.le, v.lt⟩

theorem PortOrVariation.onePrefix_content {value : PortOrVariation} (hlayer : name.layer.width = 2) :
    (⟨offset, 2, value.content name⟩ : Field).OnePrefix := by
  cases value with
  | value port lt => trivial
  | variation v =>
    have hlast : v.last / 256 ^ 2 = 0 := Nat.div_eq_of_lt v.lt
    have hfirst : v.first / 256 ^ 2 = 0 := Nat.div_eq_of_lt (v.le.trans_lt v.lt)
    show _ / 256 ^ name.layer.width = _ / 256 ^ name.layer.width
    rw [hlayer]
    exact hfirst.trans hlast.symm

end Contents

section Packets

variable (variablePrefix : String) (packet : PacketHeaders)

theorem tcpFlags_lt (flags : String) : tcpFlags flags < 256 := Nat.mod_lt _ (by decide)

theorem NetworkHeader.fits_fields (l3 : Nat) (header : NetworkHeader) :
    ∀ field ∈ header.fields variablePrefix l3, field.Fits := by
  cases header with
  | ipv4 header =>
    have hhops : header.hops < 256 := by
      have := header.valid
      omega
    simp only [NetworkHeader.fields, List.forall_mem_cons, List.not_mem_nil, IsEmpty.forall_iff,
      implies_true, and_true]
    exact ⟨AddressOrVariation.fits_content rfl le_rfl, AddressOrVariation.fits_content rfl le_rfl, hhops,
      trivial⟩
  | ipv6 header =>
    have hhops : header.hops < 256 := by
      have := header.valid
      omega
    have hwidth : VariableLayer.ipv6.width ≤ 16 := by decide
    simp only [NetworkHeader.fields, List.forall_mem_cons, List.not_mem_nil, IsEmpty.forall_iff,
      implies_true, and_true]
    exact ⟨AddressOrVariation.fits_content rfl hwidth, AddressOrVariation.fits_content rfl hwidth, hhops⟩

theorem TransportHeader.fits_fields (l4 : Nat) (header : TransportHeader) :
    ∀ field ∈ header.fields variablePrefix l4, field.Fits := by
  cases header with
  | udp srcPort dstPort =>
    simp only [TransportHeader.fields, List.forall_mem_cons, List.not_mem_nil, IsEmpty.forall_iff,
      implies_true, and_true]
    exact ⟨PortOrVariation.fits_content rfl, PortOrVariation.fits_content rfl, trivial⟩
  | tcp srcPort dstPort flags =>
    simp only [TransportHeader.fields, List.forall_mem_cons, List.not_mem_nil, IsEmpty.forall_iff,
      implies_true, and_true]
    exact ⟨PortOrVariation.fits_content rfl, PortOrVariation.fits_content rfl, tcpFlags_lt flags, trivial⟩
  | icmp type code =>
    simp only [TransportHeader.fields, List.forall_mem_cons, List.not_mem_nil, IsEmpty.forall_iff,
      implies_true, and_true]
    exact ⟨type.toNat_lt, code.toNat_lt⟩

theorem NetworkHeader.onePrefix_fields (l3 : Nat) {header : NetworkHeader}
    (h : ∀ header', header = .ipv6 header' →
      header'.src.withinPrefix = true ∧ header'.dst.withinPrefix = true) :
    ∀ field ∈ header.fields variablePrefix l3, field.OnePrefix := by
  cases header with
  | ipv4 header =>
    simp only [NetworkHeader.fields, List.forall_mem_cons, List.not_mem_nil, IsEmpty.forall_iff,
      implies_true, and_true]
    exact ⟨AddressOrVariation.onePrefix_content_v4 rfl, AddressOrVariation.onePrefix_content_v4 rfl,
      trivial, trivial⟩
  | ipv6 header =>
    obtain ⟨hsrc, hdst⟩ := h header rfl
    simp only [NetworkHeader.fields, List.forall_mem_cons, List.not_mem_nil, IsEmpty.forall_iff,
      implies_true, and_true]
    exact ⟨AddressOrVariation.onePrefix_content_v6 rfl hsrc,
      AddressOrVariation.onePrefix_content_v6 rfl hdst, trivial⟩

theorem TransportHeader.onePrefix_fields (l4 : Nat) (header : TransportHeader) :
    ∀ field ∈ header.fields variablePrefix l4, field.OnePrefix := by
  cases header <;>
    simp only [TransportHeader.fields, List.forall_mem_cons, List.not_mem_nil, IsEmpty.forall_iff,
      implies_true, and_true]
  · exact ⟨PortOrVariation.onePrefix_content rfl, PortOrVariation.onePrefix_content rfl, trivial⟩
  · exact ⟨PortOrVariation.onePrefix_content rfl, PortOrVariation.onePrefix_content rfl, trivial, trivial⟩
  · exact ⟨trivial, trivial⟩

theorem PacketHeaders.mem_fields {field : Field} (h : field ∈ packet.fields variablePrefix) :
    field = ⟨6, 6, packet.ethernet.src.content ⟨variablePrefix, .ethernet, .src⟩⟩ ∨
      field = ⟨0, 6, packet.ethernet.dst.content ⟨variablePrefix, .ethernet, .dst⟩⟩ ∨
      (∃ vlan, packet.vlan = some vlan ∧ field = ⟨14, 2, .fixed (vlan.priority * 2 ^ 13 + vlan.id)⟩) ∨
      (∃ header, packet.network = some header ∧ field ∈ header.fields variablePrefix packet.l3Offset) ∨
      ∃ header, packet.transport = some header ∧
        field ∈ header.fields variablePrefix packet.l4Offset := by
  simp only [PacketHeaders.fields, List.mem_append, List.mem_cons, List.not_mem_nil, or_false,
    List.mem_map, List.mem_flatMap, Option.mem_toList] at h
  rcases h with (((h | h) | ⟨vlan, hvlan, h⟩) | ⟨header, hheader, h⟩) | ⟨header, hheader, h⟩
  · exact .inl h
  · exact .inr (.inl h)
  · exact .inr (.inr (.inl ⟨vlan, hvlan, h.symm⟩))
  · exact .inr (.inr (.inr (.inl ⟨header, hheader, h⟩)))
  · exact .inr (.inr (.inr (.inr ⟨header, hheader, h⟩)))

theorem VlanHeader.tci_lt (vlan : VlanHeader) : vlan.priority * 2 ^ 13 + vlan.id < 256 ^ 2 := by
  have := vlan.valid
  omega

theorem PacketHeaders.fits_fields : ∀ field ∈ packet.fields variablePrefix, field.Fits := by
  intro field hfield
  rcases packet.mem_fields variablePrefix hfield with
    rfl | rfl | ⟨vlan, -, rfl⟩ | ⟨header, -, hmem⟩ | ⟨header, -, hmem⟩
  · exact MacOrVariation.fits_content rfl
  · exact MacOrVariation.fits_content rfl
  · exact vlan.tci_lt
  · exact header.fits_fields variablePrefix _ field hmem
  · exact header.fits_fields variablePrefix _ field hmem

/-- The engine takes a packet whose variations have one prefix each. -/
theorem PacketHeaders.onePrefix_fields (h : packet.checkCapability = .ok ()) :
    ∀ field ∈ packet.fields variablePrefix, field.OnePrefix := by
  have hwithin : ∀ header, packet.network = some (.ipv6 header) →
      header.src.withinPrefix = true ∧ header.dst.withinPrefix = true := by
    intro header hheader
    simp only [PacketHeaders.checkCapability, hheader, check_bind_eq_ok] at h
    have hboth : (do
        require (header.src.withinPrefix = true) _
        require (header.dst.withinPrefix = true) _
        pure () : Except Exc Unit) = .ok () := h.2
    simp only [check_bind_eq_ok, require_eq_ok] at hboth
    exact ⟨hboth.1, hboth.2.1⟩
  intro field hfield
  rcases packet.mem_fields variablePrefix hfield with
    rfl | rfl | ⟨vlan, -, rfl⟩ | ⟨header, hheader, hmem⟩ | ⟨header, -, hmem⟩
  · exact MacOrVariation.onePrefix_content rfl
  · exact MacOrVariation.onePrefix_content rfl
  · trivial
  · exact NetworkHeader.onePrefix_fields variablePrefix _
      (fun header' heq => hwithin header' (heq ▸ hheader)) field hmem
  · exact header.onePrefix_fields variablePrefix _ field hmem

/-- The network header that is built holds the fields. -/
theorem NetworkHeader.holds_initial {b : BuiltPacket} (rest : Octets) (header : NetworkHeader)
    (h : b.network = some (match header with
      | .ipv4 header => .ipv4 header.src.initial header.dst.initial header.hops
      | .ipv6 header => .ipv6 header.src.initial header.dst.initial header.hops)) :
    ∀ field ∈ header.fields variablePrefix b.l3Offset,
      field.Holds ((b.headerBytes rest).read field.offset field.size) := by
  cases header with
  | ipv4 header =>
    have hlength : b.networkLength = 20 := by simp only [BuiltPacket.networkLength, h]
    have hhops : header.hops % 256 ^ 1 = header.hops := Nat.mod_eq_of_lt (by
      have := header.valid
      omega)
    simp only [NetworkHeader.fields, List.forall_mem_cons, List.not_mem_nil, IsEmpty.forall_iff,
      implies_true, and_true]
    refine ⟨?_, ?_, ?_, trivial⟩
    · rw [b.headerBytes_read rest (by omega), (b.octets_ipv4 rest h).1]
      exact AddressOrVariation.holds_initial rfl header.src
    · rw [b.headerBytes_read rest (by omega), (b.octets_ipv4 rest h).2]
      exact AddressOrVariation.holds_initial rfl header.dst
    · rw [b.headerBytes_read rest (by omega), b.octets_ttl rest h, hhops]
      rfl
  | ipv6 header =>
    have hlength : b.networkLength = 40 := by simp only [BuiltPacket.networkLength, h]
    have hhops : header.hops % 256 ^ 1 = header.hops := Nat.mod_eq_of_lt (by
      have := header.valid
      omega)
    simp only [NetworkHeader.fields, List.forall_mem_cons, List.not_mem_nil, IsEmpty.forall_iff,
      implies_true, and_true]
    refine ⟨?_, ?_, ?_⟩
    · rw [b.headerBytes_read rest (by omega), (b.octets_ipv6 rest h).1]
      exact AddressOrVariation.holds_initial rfl header.src
    · rw [b.headerBytes_read rest (by omega), (b.octets_ipv6 rest h).2]
      exact AddressOrVariation.holds_initial rfl header.dst
    · rw [b.headerBytes_read rest (by omega), b.octets_hlim rest h, hhops]
      rfl

/-- The transport header that is built holds the fields. -/
theorem TransportHeader.holds_initial {b : BuiltPacket} (rest : Octets) (header : TransportHeader)
    (h : b.transport = some (match header with
      | .udp srcPort dstPort => .udp srcPort.initial dstPort.initial
      | .tcp srcPort dstPort flags => .tcp srcPort.initial dstPort.initial flags
      | .icmp type code => .icmp type.toNat code.toNat)) :
    ∀ field ∈ header.fields variablePrefix (b.l3Offset + b.networkLength),
      field.Holds ((b.headerBytes rest).read field.offset field.size) := by
  cases header with
  | udp srcPort dstPort =>
    have hports := b.octets_ports rest (.inl h)
    simp only [TransportHeader.fields, List.forall_mem_cons, List.not_mem_nil, IsEmpty.forall_iff,
      implies_true, and_true]
    refine ⟨?_, ?_, trivial⟩
    · rw [b.headerBytes_read rest (by omega), hports.1]
      exact PortOrVariation.holds_initial srcPort
    · rw [b.headerBytes_read rest (by omega), hports.2]
      exact PortOrVariation.holds_initial dstPort
  | tcp srcPort dstPort flags =>
    have hports := b.octets_ports rest (.inr ⟨flags, h⟩)
    have hflags : tcpFlags flags % 256 ^ 1 = tcpFlags flags := Nat.mod_eq_of_lt (tcpFlags_lt flags)
    simp only [TransportHeader.fields, List.forall_mem_cons, List.not_mem_nil, IsEmpty.forall_iff,
      implies_true, and_true]
    refine ⟨?_, ?_, ?_, trivial⟩
    · rw [b.headerBytes_read rest (by omega), hports.1]
      exact PortOrVariation.holds_initial srcPort
    · rw [b.headerBytes_read rest (by omega), hports.2]
      exact PortOrVariation.holds_initial dstPort
    · rw [b.headerBytes_flags rest h, hflags]
      rfl
  | icmp type code =>
    have hicmp := b.octets_icmp rest h
    simp only [TransportHeader.fields, List.forall_mem_cons, List.not_mem_nil, IsEmpty.forall_iff,
      implies_true, and_true]
    refine ⟨?_, ?_⟩
    · rw [b.headerBytes_read rest (by omega), hicmp.1]
      exact Nat.mod_eq_of_lt type.toNat_lt
    · rw [b.headerBytes_read rest (by omega), hicmp.2]
      exact Nat.mod_eq_of_lt code.toNat_lt

theorem PacketHeaders.holds_initial (load : List UInt8) (rest : Octets) :
    ∀ field ∈ packet.fields variablePrefix,
      field.Holds (((packet.built false load).bytes rest).read field.offset field.size) := by
  have hl4 := packet.l4Offset_eq load
  have hnetwork : (packet.built false load).network = packet.network.map _ := rfl
  have htransport : (packet.built false load).transport = packet.transport.map _ := rfl
  generalize hb : packet.built false load = b at hl4 hnetwork htransport
  have hlength : packet.headersLength = b.headersLength := hb ▸ rfl
  have hl3 : packet.l3Offset = b.l3Offset := hb ▸ rfl
  intro field hfield
  rw [b.bytes_read rest (hlength ▸ ((packet.laid variablePrefix).2 field hfield).2)]
  rcases packet.mem_fields variablePrefix hfield with
    rfl | rfl | ⟨vlan, hvlan, rfl⟩ | ⟨header, hheader, hmem⟩ | ⟨header, hheader, hmem⟩
  · rw [b.headerBytes_read rest (by simp only [BuiltPacket.l3Offset]; omega), (b.octets_ethernet rest).1,
      ← hb]
    exact MacOrVariation.holds_initial packet.ethernet.src
  · rw [b.headerBytes_read rest (by simp only [BuiltPacket.l3Offset]; omega), (b.octets_ethernet rest).2,
      ← hb]
    exact MacOrVariation.holds_initial packet.ethernet.dst
  · have hvlans : b.vlan = some vlan := hb ▸ hvlan
    rw [b.headerBytes_read rest (by simp only [BuiltPacket.l3Offset]; omega), b.octets_vlan rest hvlans,
      Nat.mod_eq_of_lt vlan.tci_lt]
    rfl
  · rw [hl3] at hmem
    rw [hheader] at hnetwork
    exact header.holds_initial variablePrefix rest hnetwork field hmem
  · rw [hl4 (by simp [hheader])] at hmem
    rw [hheader] at htransport
    exact header.holds_initial variablePrefix rest htransport field hmem

end Packets

end TrexCli
