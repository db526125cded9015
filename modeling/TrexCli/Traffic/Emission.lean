import TrexCli.Traffic.Variations

/-!
# Emitted frames of a packet

The engine sends the frames of a packet in its own direction, and those of the packet in reverse from
the other port, so that switches learn the path. The addresses that a receiver reads of a frame are
values of the fields that the packet declares.
-/

namespace TrexCli

/-! ### Values of the fields -/

/-- The field may be the number: its value, or one of its range. -/
def MacOrVariation.Takes (field : MacOrVariation) (n : Nat) : Prop :=
  match field with
  | .value m => n = m.value
  | .variation v => v.first.value ≤ n ∧ n ≤ v.last.value

/-- The field may be the number: its value, or one of its range. -/
def AddressOrVariation.Takes {version : IpVersion} (field : AddressOrVariation version) (n : Nat) :
    Prop :=
  match field with
  | .value a _ => n = a
  | .variation v => v.first ≤ n ∧ n ≤ v.last

/-- The source or the destination may be the address. -/
def NetworkHeader.Takes (header : NetworkHeader) (a : IpAddress) : Prop :=
  match header with
  | .ipv4 header => a.version = .v4 ∧ (header.src.Takes a.value ∨ header.dst.Takes a.value)
  | .ipv6 header => a.version = .v6 ∧ (header.src.Takes a.value ∨ header.dst.Takes a.value)

section Contents

variable {offset size : Nat} {name : VariableName} {n : Nat}

theorem MacOrVariation.holds_content {field : MacOrVariation} :
    (⟨offset, size, field.content name⟩ : Field).Holds n ↔ field.Takes n := by
  cases field <;> exact Iff.rfl

theorem AddressOrVariation.holds_content {version : IpVersion} {field : AddressOrVariation version} :
    (⟨offset, size, field.content name⟩ : Field).Holds n ↔ field.Takes n := by
  cases field <;> exact Iff.rfl

theorem AddressOrVariation.content_ne {version : IpVersion} (field : AddressOrVariation version)
    (name : VariableName) : field.content name ≠ .checksum := by
  cases field <;> simp [AddressOrVariation.content]

end Contents

/-! ### Emitted frames -/

/-- A frame of a stream of the packet, in one of the two directions. -/
def Emits (packet : Packet) (frame : Frame) : Prop :=
  ∃ reverse variablePrefix plan, packetPlanFor packet reverse variablePrefix = .ok plan ∧
    ∃ rest sums values, Admits plan.vm values ∧ frame = plan.frame rest sums values

theorem packetPlanFor_eq_ok {packet : Packet} {variablePrefix : String} {plan : PacketPlan}
    (h : packetPlanFor packet false variablePrefix = .ok plan) :
    plan = packet.toPacketHeaders.plan variablePrefix packet.load := by
  unfold packetPlanFor at h
  dsimp only at h
  split at h
  · cases h
  · exact (Except.ok.inj h).symm

section Frames

variable (variablePrefix : String) (packet : PacketHeaders) (load : List UInt8)

/-- No field covers the octets before the network header that name its type. -/
theorem PacketHeaders.not_covers {i : Nat}
    (h : (12 ≤ i ∧ i < 14) ∨ (packet.l3Offset - 2 ≤ i ∧ i < packet.l3Offset)) :
    ∀ field ∈ packet.allFields variablePrefix load, ¬field.Covers i := by
  have hl4 : packet.l3Offset ≤ packet.l4Offset := Nat.le_add_right _ _
  have hlength : packet.l3Offset ≤ packet.headersLength :=
    (Nat.le_add_right _ _).trans (Nat.le_add_right _ _)
  have hlow : 14 ≤ packet.l3Offset := Nat.le_add_right _ _
  intro field hfield hcovers
  obtain ⟨hstart, hend⟩ : field.offset ≤ i ∧ i < field.offset + field.size := hcovers
  rcases List.mem_append.mp hfield with hheader | hload
  · rcases packet.mem_fields variablePrefix hheader with
      rfl | rfl | ⟨vlan, hvlan, rfl⟩ | ⟨header, -, hmem⟩ | ⟨header, -, hmem⟩
    · dsimp only at hstart hend
      omega
    · dsimp only at hstart hend
      omega
    · have hl3 : packet.l3Offset = 18 := by simp [PacketHeaders.l3Offset, hvlan]
      dsimp only at hstart hend
      omega
    · have hlaid := ((header.laid variablePrefix packet.l3Offset).2 field hmem).1
      omega
    · have hlaid := ((header.laid variablePrefix packet.l4Offset).2 field hmem).1
      omega
  · have hlaid := (laid_loadFields.2 field hload).1
    omega

variable {rest sums : Octets} {values : VariableName → Nat} {frame : Frame}
  (hframe : frame = (packet.plan variablePrefix load).frame rest sums values)
include hframe

theorem PacketHeaders.frame_type {offset : Nat} (h : offset = 12 ∨ offset = packet.l3Offset - 2) :
    frame.read offset 2 = ((packet.built false load).octets rest).read offset 2 := by
  have hlow : 14 ≤ packet.l3Offset := Nat.le_add_right _ _
  have hl3 : (packet.built false load).l3Offset = packet.l3Offset := rfl
  have hlength : packet.l3Offset ≤ (packet.built false load).headersLength :=
    (Nat.le_add_right _ _).trans (Nat.le_add_right _ _)
  have hbytes : frame.read offset 2 = ((packet.built false load).bytes rest).read offset 2 := by
    refine Octets.read_congr fun i hi hi' => ?_
    have hnot := packet.not_covers variablePrefix load
      (show (12 ≤ i ∧ i < 14) ∨ (packet.l3Offset - 2 ≤ i ∧ i < packet.l3Offset) by omega)
    rw [hframe, packet.frame_apply variablePrefix load fun field hfield _ => hnot field hfield]
    exact putAll_apply (packet.allFields_fits variablePrefix load) fun field hfield hcovers =>
      absurd hcovers (hnot field hfield)
  rw [hbytes, BuiltPacket.bytes_read _ rest (by omega),
    BuiltPacket.headerBytes_read _ rest (.inl (by omega))]

theorem PacketHeaders.frame_etherType' :
    frame.read (packet.l3Offset - 2) 2 = (packet.built false load).etherType :=
  (packet.frame_type variablePrefix load hframe (.inr rfl)).trans
    ((packet.built false load).octets_etherType rest)

/-- A receiver finds the network header where the compiler puts it. -/
theorem PacketHeaders.frame_l3Offset : frame.l3Offset = packet.l3Offset := by
  unfold Frame.l3Offset
  cases hvlan : packet.vlan with
  | some vlan =>
    have hsome : (packet.built false load).vlan.isSome := by
      show packet.vlan.isSome
      rw [hvlan]
      rfl
    rw [packet.frame_type variablePrefix load hframe (.inl rfl), BuiltPacket.octets_tag _ rest hsome]
    simp [PacketHeaders.l3Offset, hvlan]
  | none =>
    have hfourteen : packet.l3Offset = 14 := by simp [PacketHeaders.l3Offset, hvlan]
    have htype := packet.frame_etherType' variablePrefix load hframe
    have hnot : (packet.built false load).etherType ≠ 0x8100 := by
      have hbuilt : (packet.built false load).vlan = none := hvlan
      unfold BuiltPacket.etherType
      split
      · simp [hbuilt]
      · decide
      · decide
    rw [hfourteen] at htype
    rw [htype, if_neg hnot, hfourteen]

theorem PacketHeaders.frame_etherType : frame.etherType = (packet.built false load).etherType := by
  rw [Frame.etherType, packet.frame_l3Offset variablePrefix load hframe]
  exact packet.frame_etherType' variablePrefix load hframe

/-- A packet without a network header has no addresses. -/
theorem PacketHeaders.frame_addresses_none (h : packet.network = none) : frame.addresses = [] := by
  have hbuilt : (packet.built false load).network = packet.network.map _ := rfl
  have htype := packet.frame_etherType variablePrefix load hframe
  simp only [BuiltPacket.etherType, hbuilt, h, Option.map_none] at htype
  refine Frame.addresses_other ?_ ?_
  · rw [htype]
    split <;> decide
  · rw [htype]
    split <;> decide

/-- The addresses of an IPv4 packet are the fields of its header. -/
theorem PacketHeaders.frame_addresses_ipv4 {header : IpHeader .v4}
    (h : packet.network = some (.ipv4 header)) : frame.addresses =
      [⟨.v4, frame.read (packet.l3Offset + 12) 4, frame.read_lt _ 4⟩,
        ⟨.v4, frame.read (packet.l3Offset + 16) 4, frame.read_lt _ 4⟩] := by
  have hbuilt : (packet.built false load).network = packet.network.map _ := rfl
  have htype := packet.frame_etherType variablePrefix load hframe
  simp only [BuiltPacket.etherType, hbuilt, h, Option.map_some] at htype
  exact Frame.addresses_ipv4 (packet.frame_l3Offset variablePrefix load hframe) htype

/-- The addresses of an IPv6 packet are the fields of its header. -/
theorem PacketHeaders.frame_addresses_ipv6 {header : IpHeader .v6}
    (h : packet.network = some (.ipv6 header)) : frame.addresses =
      [⟨.v6, frame.read (packet.l3Offset + 8) 16, frame.read_lt _ 16⟩,
        ⟨.v6, frame.read (packet.l3Offset + 24) 16, frame.read_lt _ 16⟩] := by
  have hbuilt : (packet.built false load).network = packet.network.map _ := rfl
  have htype := packet.frame_etherType variablePrefix load hframe
  simp only [BuiltPacket.etherType, hbuilt, h, Option.map_some] at htype
  exact Frame.addresses_ipv6 (packet.frame_l3Offset variablePrefix load hframe) htype

end Frames

/-! ### Emitted values -/

section Values

variable {variablePrefix : String} {packet : PacketHeaders} {load : List UInt8} {rest sums : Octets}
  {values : VariableName → Nat}

theorem PacketHeaders.mem_allFields_network {header : NetworkHeader} (h : packet.network = some header)
    {field : Field} (hfield : field ∈ header.fields variablePrefix packet.l3Offset) :
    field ∈ packet.allFields variablePrefix load := by
  refine List.mem_append_left _ ?_
  simp only [PacketHeaders.fields, h, Option.toList_some, List.flatMap_singleton, List.mem_append]
  exact .inl (.inr hfield)

/-- The addresses of a frame are values of the fields. -/
theorem PacketHeaders.frame_takes (hadmits : Admits (packet.plan variablePrefix load).vm values)
    {frame : Frame} (hframe : frame = (packet.plan variablePrefix load).frame rest sums values) :
    packet.ethernet.src.Takes frame.sourceMac ∧ packet.ethernet.dst.Takes frame.destinationMac ∧
      ∀ a ∈ frame.addresses, ∃ header, packet.network = some header ∧ header.Takes a := by
  have hholds : ∀ field ∈ packet.allFields variablePrefix load,
      field.Holds (frame.read field.offset field.size) := fun field hfield =>
    hframe ▸ packet.frame_holds variablePrefix load hadmits hfield
  refine ⟨?_, ?_, fun a ha => ?_⟩
  · exact MacOrVariation.holds_content.mp (hholds _ (List.mem_append_left _ List.mem_cons_self))
  · exact MacOrVariation.holds_content.mp
      (hholds _ (List.mem_append_left _ (List.mem_cons_of_mem _ List.mem_cons_self)))
  cases hnetwork : packet.network with
  | none =>
    rw [packet.frame_addresses_none variablePrefix load hframe hnetwork] at ha
    cases ha
  | some header =>
    refine ⟨header, rfl, ?_⟩
    cases header with
    | ipv4 header =>
      rw [packet.frame_addresses_ipv4 variablePrefix load hframe hnetwork] at ha
      have hsrc := hholds _ (packet.mem_allFields_network hnetwork List.mem_cons_self)
      have hdst := hholds _ (packet.mem_allFields_network hnetwork
        (List.mem_cons_of_mem _ List.mem_cons_self))
      simp only [List.mem_cons, List.not_mem_nil, or_false] at ha
      rcases ha with rfl | rfl
      · exact ⟨rfl, .inl (AddressOrVariation.holds_content.mp hsrc)⟩
      · exact ⟨rfl, .inr (AddressOrVariation.holds_content.mp hdst)⟩
    | ipv6 header =>
      rw [packet.frame_addresses_ipv6 variablePrefix load hframe hnetwork] at ha
      have hsrc := hholds _ (packet.mem_allFields_network hnetwork List.mem_cons_self)
      have hdst := hholds _ (packet.mem_allFields_network hnetwork
        (List.mem_cons_of_mem _ List.mem_cons_self))
      simp only [List.mem_cons, List.not_mem_nil, or_false] at ha
      rcases ha with rfl | rfl
      · exact ⟨rfl, .inl (AddressOrVariation.holds_content.mp hsrc)⟩
      · exact ⟨rfl, .inr (AddressOrVariation.holds_content.mp hdst)⟩

end Values

/-- Fields with the variable of another one are that one. -/
theorem eq_of_name? {fields : List Field} (h : (fields.filterMap Field.name?).Nodup) {a b : Field}
    (ha : a ∈ fields) (hb : b ∈ fields) {name : VariableName} (haname : a.name? = some name)
    (hbname : b.name? = some name) : a = b := by
  have hpairs := List.pairwise_filterMap.mp h
  by_contra hne
  have hsymm : Std.Symm fun a a' : Field => ∀ b, a.name? = some b → ∀ b', a'.name? = some b' → b ≠ b' :=
    ⟨fun a a' hab b hb b' hb' heq => hab b' hb' b hb heq.symm⟩
  exact hpairs.forall ha hb hne name haname name hbname rfl

/-- Each value of a field is in some frame. -/
theorem PacketPlan.Compiles.exists_read {plan : PacketPlan} {fields : List Field}
    (h : plan.Compiles fields) {field : Field} (hfield : field ∈ fields)
    (hcontent : field.content ≠ .checksum) {n : Nat} (hn : field.Holds n) (rest sums : Octets) :
    ∃ values, Admits plan.vm values ∧
      (plan.frame rest sums values).read field.offset field.size = n := by
  classical
  -- the other fields keep what the packet is built with
  let initial : VariableName → Nat := fun name =>
    if hsome : ∃ other ∈ fields, other.name? = some name then
      (plan.built.bytes rest).read hsome.choose.offset hsome.choose.size
    else 0
  have hinitial : ∀ other ∈ fields, ∀ name, other.name? = some name → other.Holds (initial name) := by
    intro other hother name hname
    have hsome : ∃ other ∈ fields, other.name? = some name := ⟨other, hother, hname⟩
    obtain ⟨hchosen, hchosenName⟩ := hsome.choose_spec
    have heq : hsome.choose = other := eq_of_name? h.names hchosen hother hchosenName hname
    have hvalue : initial name = (plan.built.bytes rest).read other.offset other.size := by
      rw [← heq]
      exact dif_pos hsome
    exact hvalue ▸ h.initial rest other hother
  cases hname : field.name? with
  | none =>
    obtain ⟨values, hadmits, -⟩ := h.complete rest sums initial hinitial
    have hholds := h.sound rest sums values hadmits field hfield
    rcases field with ⟨offset, size, value | _ | _⟩
    · exact ⟨values, hadmits, hholds.trans hn.symm⟩
    · cases hname
    · exact absurd rfl hcontent
  | some name =>
    have hchoice : ∀ other ∈ fields, ∀ otherName, other.name? = some otherName →
        other.Holds (Function.update initial name n otherName) := by
      intro other hother otherName hotherName
      by_cases heq : otherName = name
      · subst heq
        rw [Function.update_self, eq_of_name? h.names hother hfield hotherName hname]
        exact hn
      · rw [Function.update_of_ne heq]
        exact hinitial other hother otherName hotherName
    obtain ⟨values, hadmits, hread⟩ := h.complete rest sums _ hchoice
    have hvalue := hread field hfield name hname
    rw [Function.update_self] at hvalue
    exact ⟨values, hadmits, hvalue⟩

/-- Each address that a packet may have is in some frame. -/
theorem PacketHeaders.exists_frame {variablePrefix : String} {packet : PacketHeaders}
    {load : List UInt8} (hcapable : packet.checkCapability = .ok ()) {header : NetworkHeader}
    (hnetwork : packet.network = some header) {a : IpAddress} (ha : header.Takes a)
    (rest sums : Octets) :
    ∃ values, Admits (packet.plan variablePrefix load).vm values ∧
      a ∈ ((packet.plan variablePrefix load).frame rest sums values).addresses := by
  have hfield : ∀ field ∈ header.fields variablePrefix packet.l3Offset, field.content ≠ .checksum →
      field.Holds a.value → ∃ values, Admits (packet.plan variablePrefix load).vm values ∧
        ((packet.plan variablePrefix load).frame rest sums values).read field.offset field.size =
          a.value := fun field hfield hcontent hholds =>
    (packet.plan_compiles variablePrefix load hcapable).exists_read
      (packet.mem_allFields_network hnetwork hfield) hcontent hholds rest sums
  obtain ⟨version, value, lt⟩ := a
  cases header with
  | ipv4 header =>
    obtain ⟨hversion, htakes⟩ := ha
    obtain rfl : version = .v4 := hversion
    rcases htakes with hsrc | hdst
    · obtain ⟨values, hadmits, hread⟩ := hfield _ List.mem_cons_self (header.src.content_ne _)
        (AddressOrVariation.holds_content.mpr hsrc)
      refine ⟨values, hadmits, ?_⟩
      rw [packet.frame_addresses_ipv4 variablePrefix load rfl hnetwork]
      simp only [hread, List.mem_cons, true_or]
    · obtain ⟨values, hadmits, hread⟩ := hfield _ (List.mem_cons_of_mem _ List.mem_cons_self)
        (header.dst.content_ne _) (AddressOrVariation.holds_content.mpr hdst)
      refine ⟨values, hadmits, ?_⟩
      rw [packet.frame_addresses_ipv4 variablePrefix load rfl hnetwork]
      simp only [hread, List.mem_cons, true_or, or_true]
  | ipv6 header =>
    obtain ⟨hversion, htakes⟩ := ha
    obtain rfl : version = .v6 := hversion
    rcases htakes with hsrc | hdst
    · obtain ⟨values, hadmits, hread⟩ := hfield _ List.mem_cons_self (header.src.content_ne _)
        (AddressOrVariation.holds_content.mpr hsrc)
      refine ⟨values, hadmits, ?_⟩
      rw [packet.frame_addresses_ipv6 variablePrefix load rfl hnetwork]
      simp only [hread, List.mem_cons, true_or]
    · obtain ⟨values, hadmits, hread⟩ := hfield _ (List.mem_cons_of_mem _ List.mem_cons_self)
        (header.dst.content_ne _) (AddressOrVariation.holds_content.mpr hdst)
      refine ⟨values, hadmits, ?_⟩
      rw [packet.frame_addresses_ipv6 variablePrefix load rfl hnetwork]
      simp only [hread, List.mem_cons, true_or, or_true]

end TrexCli
