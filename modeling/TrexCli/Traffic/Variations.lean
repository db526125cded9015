import TrexCli.Traffic.Layout

/-!
# What a packet plan varies

The frames of a plan hold in each field a value that the packet declares, any values of the ranges are
in some frame, and all other octets are those of the packet that is built. A plan in reverse is the plan
of the packet with its sources and its destinations swapped.
-/

namespace TrexCli

/-! ### The packet in reverse -/

def EthernetHeader.swapped (header : EthernetHeader) : EthernetHeader := ⟨header.dst, header.src⟩

def IpHeader.swapped {version : IpVersion} (header : IpHeader version) : IpHeader version :=
  { header with src := header.dst, dst := header.src }

def NetworkHeader.swapped : NetworkHeader → NetworkHeader
  | .ipv4 header => .ipv4 header.swapped
  | .ipv6 header => .ipv6 header.swapped

def TransportHeader.swapped : TransportHeader → TransportHeader
  | .udp srcPort dstPort => .udp dstPort srcPort
  | .tcp srcPort dstPort flags => .tcp dstPort srcPort flags
  | .icmp type code => .icmp type code

def PacketHeaders.swapped (packet : PacketHeaders) : PacketHeaders :=
  { packet with
    ethernet := packet.ethernet.swapped
    network := packet.network.map NetworkHeader.swapped
    transport := packet.transport.map TransportHeader.swapped
    stack := by simpa using packet.stack }

/-- The packet with the sources and the destinations of its headers swapped. -/
def Packet.swapped (packet : Packet) : Packet :=
  { packet with toPacketHeaders := packet.toPacketHeaders.swapped }

theorem PacketHeaders.built_reverse (packet : PacketHeaders) (load : List UInt8) :
    packet.built true load = packet.swapped.built false load := by
  rcases packet with ⟨_, _, _ | ⟨_⟩ | ⟨_⟩, _ | ⟨_⟩ | ⟨_⟩ | ⟨_⟩, _, _⟩ <;> rfl

theorem PacketHeaders.variationVmFor_reverse (packet : PacketHeaders) (variablePrefix : String) :
    variationVmFor variablePrefix packet true = variationVmFor variablePrefix packet.swapped false := by
  rcases packet with ⟨_, _, _ | ⟨_⟩ | ⟨_⟩, _ | ⟨_⟩ | ⟨_⟩ | ⟨_⟩, _, _⟩ <;> rfl

theorem packetPlanFor_reverse (packet : Packet) (variablePrefix : String) :
    packetPlanFor packet true variablePrefix = packetPlanFor packet.swapped false variablePrefix := by
  have hbuilt : ∀ load, packet.built true load = packet.swapped.built false load :=
    packet.toPacketHeaders.built_reverse
  have hvm := packet.toPacketHeaders.variationVmFor_reverse variablePrefix
  show (if packet.frameSize - 4 < _ then _ else _) = if packet.frameSize - 4 < _ then _ else _
  rw [hbuilt, hbuilt, hvm]
  rfl

/-! ### The load -/

section Load

variable {offset : Nat} {load : List UInt8}

theorem mem_loadFields {field : Field} (h : field ∈ loadFields offset load) :
    ∃ k octet, load[k]? = some octet ∧ field = ⟨offset + k, 1, .fixed octet.toNat⟩ := by
  induction load generalizing offset with
  | nil => cases h
  | cons octet load ih =>
    rcases List.mem_cons.mp h with rfl | hmem
    · exact ⟨0, octet, rfl, rfl⟩
    · obtain ⟨k, octet', hk, rfl⟩ := ih hmem
      refine ⟨k + 1, octet', by simpa using hk, ?_⟩
      rw [Nat.add_right_comm, Nat.add_assoc]

theorem laid_loadFields : Laid offset (offset + load.length) (loadFields offset load) := by
  refine ⟨?_, fun field hfield => ?_⟩
  · induction load generalizing offset with
    | nil => exact .nil
    | cons octet load ih =>
      refine .cons (fun field hfield => ?_) ih
      obtain ⟨k, octet', -, rfl⟩ := mem_loadFields hfield
      exact .inl (Nat.le_add_right _ _)
  · obtain ⟨k, octet, hk, rfl⟩ := mem_loadFields hfield
    have hlt : k < load.length := (List.getElem?_eq_some_iff.mp hk).1
    exact ⟨Nat.le_add_right _ _, by show offset + k + 1 ≤ _; omega⟩

/-- The fields of a load have no instructions. -/
theorem vm_loadFields : (loadFields offset load).flatMap Field.vm = [] := by
  refine List.flatMap_eq_nil_iff.mpr fun field hfield => ?_
  obtain ⟨k, octet, -, rfl⟩ := mem_loadFields hfield
  rfl

theorem name?_loadFields : (loadFields offset load).filterMap Field.name? = [] := by
  refine List.filterMap_eq_nil_iff.mpr fun field hfield => ?_
  obtain ⟨k, octet, -, rfl⟩ := mem_loadFields hfield
  rfl

theorem BuiltPacket.holds_load (b : BuiltPacket) (rest : Octets) :
    ∀ field ∈ loadFields b.headersLength b.load,
      field.Holds ((b.bytes rest).read field.offset field.size) := by
  intro field hfield
  obtain ⟨k, octet, hk, rfl⟩ := mem_loadFields hfield
  show 0 * 256 + (b.bytes rest (b.headersLength + k)).toNat = octet.toNat
  have hoctet : b.bytes rest (b.headersLength + k) = octet := by
    rw [BuiltPacket.bytes, if_pos (Nat.le_add_right _ _), Nat.add_sub_cancel_left, List.getD_eq_getElem?_getD,
      hk]
    rfl
  rw [hoctet, Nat.zero_mul, Nat.zero_add]

end Load

/-! ### The plan -/

theorem mod_between {first last n W : Nat} (h : first / W = last / W) (hlow : first ≤ n)
    (hhigh : n ≤ last) : first % W ≤ n % W ∧ n % W ≤ last % W := by
  have hupper : n / W = first / W :=
    le_antisymm (h ▸ Nat.div_le_div_right hhigh) (Nat.div_le_div_right hlow)
  have hfirst := Nat.div_add_mod' first W
  have hlast := Nat.div_add_mod' last W
  have hn := Nat.div_add_mod' n W
  rw [hupper] at hn
  rw [← h] at hlast
  omega

/-- The instructions that fix checksums define no variable and write none. -/
theorem mem_checksumVm {l3 l4 : Nat} {networkVaries transportVaries : Bool}
    {network : Option NetworkHeader} {transport : Option TransportHeader} {instruction : VmInstruction}
    (h : instruction ∈ checksumVm l3 l4 networkVaries transportVaries network transport) :
    (∃ l4Type, instruction = .fixChecksumHw l3 l4 l4Type) ∨ instruction = .fixIpv4 l3 := by
  unfold checksumVm at h
  split at h
  · exact .inl ⟨.udp, by split at h <;> simp_all⟩
  · exact .inl ⟨.tcp, by split at h <;> simp_all⟩
  · exact .inr (by split at h <;> simp_all)
  · cases h

section Plan

variable (variablePrefix : String) (packet : PacketHeaders) (load : List UInt8)

/-- The plan of a packet that is not reversed. -/
def PacketHeaders.plan : PacketPlan :=
  ⟨packet.built false load, variationVmFor variablePrefix packet false⟩

/-- The fields of the headers, and those of the load. -/
def PacketHeaders.allFields : List Field :=
  packet.fields variablePrefix ++ loadFields packet.headersLength load

theorem PacketHeaders.laid_allFields :
    Laid 0 (packet.headersLength + load.length) (packet.allFields variablePrefix load) :=
  (packet.laid variablePrefix).append laid_loadFields (Nat.zero_le _) (Nat.le_add_right _ _)

theorem PacketHeaders.allFields_fits : ∀ field ∈ packet.allFields variablePrefix load, field.Fits := by
  intro field hfield
  rcases List.mem_append.mp hfield with hheader | hload
  · exact packet.fits_fields variablePrefix field hheader
  · obtain ⟨k, octet, -, rfl⟩ := mem_loadFields hload
    exact octet.toNat_lt

theorem PacketHeaders.allFields_onePrefix (h : packet.checkCapability = .ok ()) :
    ∀ field ∈ packet.allFields variablePrefix load, field.OnePrefix := by
  intro field hfield
  rcases List.mem_append.mp hfield with hheader | hload
  · exact packet.onePrefix_fields variablePrefix h field hheader
  · obtain ⟨k, octet, -, rfl⟩ := mem_loadFields hload
    trivial

theorem PacketHeaders.allFields_initial (rest : Octets) :
    ∀ field ∈ packet.allFields variablePrefix load,
      field.Holds (((packet.built false load).bytes rest).read field.offset field.size) := by
  intro field hfield
  rcases List.mem_append.mp hfield with hheader | hload
  · exact packet.holds_initial variablePrefix load rest field hheader
  · exact BuiltPacket.holds_load (packet.built false load) rest field hload

theorem PacketHeaders.vm_eq : ∃ networkVaries transportVaries,
    variationVmFor variablePrefix packet false =
      (packet.allFields variablePrefix load).flatMap Field.vm ++
        checksumVm packet.l3Offset packet.l4Offset networkVaries transportVaries packet.network
          packet.transport := by
  rw [packet.variationVmFor_eq, PacketHeaders.allFields, List.flatMap_append, vm_loadFields,
    List.append_nil]
  exact ⟨_, _, rfl⟩

/-- The octets outside the checksums are those that the fields put. -/
theorem PacketHeaders.frame_apply {rest sums : Octets} {values : VariableName → Nat} {i : Nat}
    (h : ∀ field ∈ packet.allFields variablePrefix load, field.content = .checksum → ¬field.Covers i) :
    (packet.plan variablePrefix load).frame rest sums values i =
      putAll values (packet.allFields variablePrefix load) ((packet.built false load).bytes rest) i := by
  obtain ⟨networkVaries, transportVaries, hvm⟩ := packet.vm_eq variablePrefix load
  rw [PacketPlan.frame, PacketHeaders.plan, hvm, runVm_append,
    packet.checksumVm_apply variablePrefix fun field hfield => h field (List.mem_append_left _ hfield),
    runVm_fields]

/-- A field that is no checksum holds what its own instructions make of it. -/
theorem PacketHeaders.frame_read {rest sums : Octets}
    {values : VariableName → Nat} {field : Field} (hfield : field ∈ packet.allFields variablePrefix load)
    (hcontent : field.content ≠ .checksum) :
    ((packet.plan variablePrefix load).frame rest sums values).read field.offset field.size =
      (field.put values ((packet.built false load).bytes rest)).read field.offset field.size := by
  have hfits := packet.allFields_fits variablePrefix load
  have hapart := (packet.laid_allFields variablePrefix load).1
  have hputs : ((packet.plan variablePrefix load).frame rest sums values).read field.offset field.size =
      (putAll values (packet.allFields variablePrefix load)
        ((packet.built false load).bytes rest)).read field.offset field.size := by
    refine Octets.read_congr fun i hlow hhigh => packet.frame_apply variablePrefix load ?_
    intro other hother hchecksum hcovers
    have hne : field ≠ other := fun heq => hcontent (heq ▸ hchecksum)
    have hends : field.offset + field.size ≤ other.offset ∨ other.offset + other.size ≤ field.offset :=
      hapart.forall hfield hother hne
    have hcovered : other.offset ≤ i ∧ i < other.offset + other.size := hcovers
    omega
  rw [hputs, read_putAll hfits hapart hfield]

/-- The variables of the plan are those of the fields. -/
theorem PacketHeaders.mem_plan_vm {instruction : VmInstruction}
    (h : instruction ∈ (packet.plan variablePrefix load).vm) :
    (∃ field ∈ packet.allFields variablePrefix load, instruction ∈ field.vm) ∨
      (∃ l3Offset l4Offset l4Type, instruction = .fixChecksumHw l3Offset l4Offset l4Type) ∨
        ∃ offset, instruction = .fixIpv4 offset := by
  obtain ⟨networkVaries, transportVaries, hvm⟩ := packet.vm_eq variablePrefix load
  rw [PacketHeaders.plan, hvm, List.mem_append, List.mem_flatMap] at h
  rcases h with hfield | hchecksum
  · exact .inl hfield
  · rcases mem_checksumVm hchecksum with ⟨l4Type, rfl⟩ | rfl
    · exact .inr (.inl ⟨_, _, _, rfl⟩)
    · exact .inr (.inr ⟨_, rfl⟩)

theorem PacketHeaders.vm_subset {field : Field} (h : field ∈ packet.allFields variablePrefix load) :
    field.vm ⊆ (packet.plan variablePrefix load).vm := by
  obtain ⟨networkVaries, transportVaries, hvm⟩ := packet.vm_eq variablePrefix load
  rw [PacketHeaders.plan, hvm]
  exact fun instruction hmem => List.mem_append_left _ (List.mem_flatMap.mpr ⟨field, h, hmem⟩)

/-- Each field of a frame holds what the packet declares. -/
theorem PacketHeaders.frame_holds {rest sums : Octets} {values : VariableName → Nat}
    (hadmits : Admits (packet.plan variablePrefix load).vm values) {field : Field}
    (hfield : field ∈ packet.allFields variablePrefix load) :
    field.Holds (((packet.plan variablePrefix load).frame rest sums values).read field.offset
      field.size) := by
  by_cases hcontent : field.content = .checksum
  · exact Field.holds_of_checksum hcontent _
  · rw [packet.frame_read variablePrefix load hfield hcontent]
    exact Field.holds_put (packet.allFields_fits variablePrefix load field hfield)
      (packet.allFields_initial variablePrefix load rest field hfield)
      fun name minValue maxValue size op hmem => hadmits name minValue maxValue size op
        (packet.vm_subset variablePrefix load hfield hmem)

theorem PacketHeaders.plan_compiles (hcapable : packet.checkCapability = .ok ()) :
    (packet.plan variablePrefix load).Compiles (packet.allFields variablePrefix load) where
  inside := fun field hfield => ((packet.laid_allFields variablePrefix load).2 field hfield).2
  apart := (packet.laid_allFields variablePrefix load).1
  names := by
    rw [PacketHeaders.allFields, List.filterMap_append, name?_loadFields, List.append_nil]
    exact (packet.distinctIn_fields variablePrefix).1
  writes := by
    intro name offset hwrite
    rcases packet.mem_plan_vm variablePrefix load hwrite with ⟨field, hfield, hmem⟩ | ⟨_, _, _, h⟩ | ⟨_, h⟩
    · have hfits := packet.allFields_fits variablePrefix load field hfield
      have hsubset := packet.vm_subset variablePrefix load hfield
      rcases field with ⟨start, size, value | ⟨name', first, last, mode⟩ | _⟩
      · cases hmem
      · obtain ⟨rfl, rfl⟩ : name = name' ∧ offset = start + (size - name'.layer.width) := by
          simpa [Field.vm, flowVariable] using hmem
        have hwidth : name.layer.width ≤ size := hfits.1
        refine ⟨_, hfield, rfl, Nat.le_add_right _ _, _, _, _, _, hsubset List.mem_cons_self, ?_⟩
        show start + (size - name.layer.width) + name.layer.width = start + size
        omega
      · cases hmem
    · cases h
    · cases h
  initial := fun rest => packet.allFields_initial variablePrefix load rest
  sound := fun rest sums values hadmits field hfield =>
    packet.frame_holds variablePrefix load hadmits hfield
  complete := by
    intro rest sums choice hchoice
    refine ⟨fun name => choice name % 256 ^ name.layer.width, ?_, ?_⟩
    · intro name minValue maxValue size op hvariable
      rcases packet.mem_plan_vm variablePrefix load hvariable with
        ⟨field, hfield, hmem⟩ | ⟨_, _, _, h⟩ | ⟨_, h⟩
      · have hone := packet.allFields_onePrefix variablePrefix load hcapable field hfield
        have hholds := hchoice field hfield
        rcases field with ⟨start, size, value | ⟨name', first, last, mode⟩ | _⟩
        · cases hmem
        · obtain ⟨rfl, rfl, rfl, -⟩ : name = name' ∧ minValue = first % 256 ^ name'.layer.width ∧
              maxValue = last % 256 ^ name'.layer.width ∧ _ := by
            simpa [Field.vm, flowVariable] using hmem
          obtain ⟨hlow, hhigh⟩ : first ≤ choice name ∧ choice name ≤ last := hholds name rfl
          exact mod_between hone hlow hhigh
        · cases hmem
      · cases h
      · cases h
    · intro field hfield name hname
      have hcontent : field.content ≠ .checksum := by
        intro hchecksum
        simp [Field.name?, hchecksum] at hname
      rw [packet.frame_read variablePrefix load hfield hcontent]
      exact Field.put_choice (packet.allFields_fits variablePrefix load field hfield)
        (packet.allFields_onePrefix variablePrefix load hcapable field hfield)
        (packet.allFields_initial variablePrefix load rest field hfield) hname
        (hchoice field hfield name hname) rfl
  others := by
    intro rest sums values i h
    rw [packet.frame_apply variablePrefix load]
    · exact putAll_apply (packet.allFields_fits variablePrefix load) h
    · intro field hfield hchecksum hcovers
      obtain ⟨value, hvalue⟩ := h field hfield hcovers
      rw [hchecksum] at hvalue
      cases hvalue

end Plan

theorem PacketHeaders.checkCapability_swapped (packet : PacketHeaders) :
    packet.swapped.checkCapability = .ok () ↔ packet.checkCapability = .ok () := by
  have hicmp : ∀ header : TransportHeader, header.swapped.isIcmp = header.isIcmp := by
    rintro (_ | _ | _) <;> rfl
  have hany : (packet.transport.map TransportHeader.swapped).any TransportHeader.isIcmp =
      packet.transport.any TransportHeader.isIcmp := by
    cases packet.transport with
    | none => rfl
    | some header => exact hicmp header
  have hboth : ∀ a b : AddressOrVariation .v6,
      ([a, b].forM (fun a => require (a.withinPrefix = true)
        (capabilityMismatch "IPv6 variations must stay within one 64-bit prefix")) : Except Exc Unit) =
          .ok () ↔ a.withinPrefix = true ∧ b.withinPrefix = true := by
    intro a b
    show (do
      require (a.withinPrefix = true) _
      require (b.withinPrefix = true) _
      pure () : Except Exc Unit) = .ok () ↔ _
    simp only [check_bind_eq_ok, require_eq_ok]
    exact ⟨fun h => ⟨h.1, h.2.1⟩, fun h => ⟨h.1, h.2, rfl⟩⟩
  unfold PacketHeaders.checkCapability
  rw [show packet.swapped.network = packet.network.map NetworkHeader.swapped from rfl]
  cases packet.network with
  | none => exact Iff.rfl
  | some header =>
    cases header with
    | ipv4 header => exact Iff.rfl
    | ipv6 header =>
      show (do
        require (¬(packet.transport.map TransportHeader.swapped).any TransportHeader.isIcmp) _
        [header.dst, header.src].forM _ : Except Exc Unit) = .ok () ↔ _
      simp only [check_bind_eq_ok, require_eq_ok, hany, hboth]
      exact and_congr_right fun _ => and_comm

/-- The packet that is sent from the first port of the pair, or the one from the second. -/
def Packet.directed (packet : Packet) (reverse : Bool) : Packet :=
  if reverse then packet.swapped else packet

/-- A plan is refused for its length, or it is as long as the frame without its checksum and varies
exactly what the packet declares. -/
theorem packetPlanFor_compiles (packet : Packet) (variablePrefix : String)
    (hcapable : packet.checkCapability = .ok ()) :
    packetPlanFor packet false variablePrefix = .error (.trexCli
        { code := "INVALID_DOCUMENT", category := "INPUT"
          message := "packet headers and payload exceed frameSize" }) ∨
      ∃ plan, packetPlanFor packet false variablePrefix = .ok plan ∧
        plan.built.length = packet.frameSize - 4 ∧ plan.Compiles (packet.fields variablePrefix) := by
  by_cases hlong : packet.frameSize - 4 < packet.headersLength + packet.payload.length
  · exact .inl (if_pos hlong)
  · refine .inr ⟨_, if_neg hlong, ?_, packet.plan_compiles variablePrefix packet.load hcapable⟩
    show packet.headersLength + packet.load.length = _
    simp only [Packet.load, List.length_append, List.length_replicate]
    omega

/-- The plans of both directions vary exactly what the packet declares, with its sources and its
destinations swapped in reverse. -/
theorem variations_compiled (packet : Packet) (variablePrefix : String)
    (hcapable : packet.checkCapability = .ok ()) :
    (∀ reverse, packetPlanFor packet reverse variablePrefix = .error (.trexCli
          { code := "INVALID_DOCUMENT", category := "INPUT"
            message := "packet headers and payload exceed frameSize" }) ∨
        ∃ plan, packetPlanFor packet reverse variablePrefix = .ok plan ∧
          plan.built.length = packet.frameSize - 4 ∧
            plan.Compiles ((packet.directed reverse).fields variablePrefix)) ∧
      packetPlanFor packet true variablePrefix = packetPlanFor packet.swapped false variablePrefix := by
  refine ⟨fun reverse => ?_, packetPlanFor_reverse packet variablePrefix⟩
  cases reverse with
  | false => exact packetPlanFor_compiles packet variablePrefix hcapable
  | true =>
    rw [packetPlanFor_reverse]
    exact packetPlanFor_compiles packet.swapped variablePrefix
      (packet.toPacketHeaders.checkCapability_swapped.mpr hcapable)

/-- A tagged packet of which a MAC address, an IPv6 address and a port vary. -/
def variedPacket : Packet where
  ethernet :=
    { src := .variation
        { first := ⟨0x020000000010, Lab.firstMac_lt, Lab.firstMac_unicast⟩
          last := ⟨0x0200000000ff, Lab.lastMac_lt, Lab.lastMac_unicast⟩
          mode := .decrement
          le := Lab.firstMac_le
          onePrefix := Lab.firstMac_prefix }
      dst := .value ⟨0x020000000001, Lab.clientMac_lt, Lab.clientMac_unicast⟩ }
  vlan := some { id := 100, valid := by decide }
  network := some (.ipv6
    { src := .variation
        { first := 0xfd000000000000000000000000000001
          last := 0xfd0000000000000000000000000000ff
          mode := .increment
          le := by decide
          lt := by decide }
      dst := .value 0xfd000000000000010000000000000001 (by decide)
      valid := Lab.hops_bounds })
  transport := some (.udp
    (.variation { first := 1024, last := 2047, mode := .random, le := by decide, lt := by decide })
    (.value 53 (by decide)))
  payload := [1, 2, 3]
  stack := fun _ => by simp
  frameSize := 128
  size := by decide

theorem variations_compiled_variedPacket :
    ∃ plan, packetPlanFor variedPacket true "rev" = .ok plan ∧ plan.built.length = 124 ∧
      plan.Compiles (variedPacket.swapped.fields "rev") := by
  rcases (variations_compiled variedPacket "rev" rfl).1 true with herror | hplan
  · have hok : (packetPlanFor variedPacket true "rev").toBool = true := rfl
    rw [herror] at hok
    cases hok
  · exact hplan

end TrexCli
