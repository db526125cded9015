import TrexCli.Storm.BroadcastPlanning
import TrexCli.Storm.Lockstep
import TrexCli.Traffic.Authorisation

/-!
# The queries of a DNS storm

`_install_dns_stream` of the remote STL engine: the packet of `_dns_traffic_document`, and two variables
that count up with the packets, the source port and the transaction. Every frame of an accepted storm is
a query for the name that the document asks for, between the endpoints that the policy allows; two of
them have the same port and transaction when their numbers agree modulo the least common multiple of the
two ranges (`queries_of_accepted`).
-/

namespace TrexCli.Storm

open Dns

/-! ### The stream -/

/-- `_parse_mac` -/
def parseMac (value : Text) : Option MacAddress :=
  (macOctets value).bind fun octets =>
    if h : octetsNumber octets < 2 ^ 48 ∧ octetsNumber octets / 2 ^ 40 % 2 = 0 then
      some ⟨octetsNumber octets, h.1, h.2⟩
    else none

/-- `_validate_ip_value`, of one IPv4 address. -/
def ipv4Value (text : AddressText) : Option (AddressOrVariation .v4) :=
  match text.parsed with
  | some ⟨.v4, value, lt⟩ => some (.value value lt)
  | _ => none

theorem parseMac_eq_some {value : Text} {mac : MacAddress} (h : parseMac value = some mac) :
    ∃ octets, macOctets value = some octets ∧ octetsNumber octets = mac.value := by
  obtain ⟨octets, hoctets, h⟩ := Option.bind_eq_some_iff.mp h
  split at h
  · cases h
    exact ⟨octets, hoctets, rfl⟩
  · cases h

theorem ipv4Value_eq_some {text : AddressText} {field : AddressOrVariation .v4}
    (h : ipv4Value text = some field) :
    ∃ value lt, text.parsed = some ⟨.v4, value, lt⟩ ∧ field = .value value lt := by
  unfold ipv4Value at h
  split at h
  · next value lt heq =>
    exact ⟨value, lt, heq, (Option.some.inj h).symm⟩
  · cases h

theorem DnsStormClient.start_lt (client : DnsStormClient) : client.udpSourcePortStart < 2 ^ 16 := by
  have hvalid := client.valid
  omega

theorem dnsPort_lt : 53 < 2 ^ 16 := by decide

theorem PacketStormRun.frameSize_bounds (run : PacketStormRun) :
    64 ≤ run.wireSize ∧ run.wireSize ≤ 9216 := by
  have hvalid := run.valid
  omega

theorem network_stack {transport : Option TransportHeader} {header : NetworkHeader} :
    transport ≠ none → some header ≠ none := by simp

/-- The packet of `_dns_traffic_document`, whose `udp_port` is the constant 53; none if one of its
classes refuses it. -/
def dnsTrafficPacket (spec : DnsStormSpec) (payload : List UInt8) : Option Packet := do
  let src ← parseMac spec.client.mac.toList
  let dst ← parseMac spec.server.mac.toList
  let client ← ipv4Value spec.client.ipv4
  let server ← ipv4Value spec.server.ipv4
  pure
    { ethernet := ⟨.value src, .value dst⟩
      network := some (.ipv4 { src := client, dst := server, valid := Lab.hops_bounds })
      transport := some (.udp (.value spec.client.udpSourcePortStart spec.client.start_lt)
        (.value 53 dnsPort_lt))
      payload
      stack := network_stack
      frameSize := spec.run.wireSize
      size := spec.run.frameSize_bounds }

/-- The instructions of a DNS storm. -/
def dnsVm (client : DnsStormClient) : List StormInstruction :=
  (if client.udpSourcePortStart ≠ client.udpSourcePortEnd then
    flowVariable "dns_udp_source_port" client.udpSourcePortStart client.udpSourcePortEnd 2 34 else []) ++
    flowVariable "dns_transaction_id" 0 65535 2 42 ++ [.fixChecksumHw 14 34]

/-- `_install_dns_stream`; none if it raises. No field of the packet varies, so that its plan has no
instructions of its own. -/
def installDns (spec : DnsStormSpec) : Option StormStream := do
  let payload ← (encodeDnsQuery spec.question.name spec.question.type
    spec.question.recursionDesired 0).toOption
  let packet ← dnsTrafficPacket spec payload
  let plan ← (packetPlanFor packet false "dns").toOption
  pure { packet := plan.built.bytes, vm := dnsVm spec.client }

/-- The plan of the packet has no instructions, and the packet has room for a payload after its 42
octets of headers. -/
theorem dnsTrafficPacket_plan {spec : DnsStormSpec} {payload : List UInt8} {packet : Packet}
    (h : dnsTrafficPacket spec payload = some packet) :
    (∀ plan, packetPlanFor packet false "dns" = .ok plan → plan.vm = []) ∧
      (42 + payload.length ≤ spec.run.wireSize - 4 →
        ∃ plan, packetPlanFor packet false "dns" = .ok plan) := by
  simp only [dnsTrafficPacket, Option.bind_eq_bind, Option.bind_eq_some_iff, Option.pure_def] at h
  obtain ⟨src, -, dst, -, client, hclient, server, hserver, hpacket⟩ := h
  obtain ⟨client, lt, -, rfl⟩ := ipv4Value_eq_some hclient
  obtain ⟨server, lt', -, rfl⟩ := ipv4Value_eq_some hserver
  cases hpacket
  constructor
  · intro plan hplan
    obtain rfl := packetPlanFor_eq_ok hplan
    rfl
  · intro hroom
    exact ⟨_, if_neg (Nat.not_lt.mpr hroom)⟩

/-- The layers of the packet. -/
def dnsBuilt (src dst client server sourcePort : Nat) (load : List UInt8) : BuiltPacket where
  src
  dst
  vlan := none
  network := some (.ipv4 client server 64)
  transport := some (.udp sourcePort 53)
  load

/-- The stream of a storm. -/
theorem installDns_eq_some {spec : DnsStormSpec} {stream : StormStream}
    (h : installDns spec = some stream) :
    ∃ payload padding, ∃ src dst : MacAddress, ∃ client hclient server hserver,
      encodeDnsQuery spec.question.name spec.question.type spec.question.recursionDesired 0 =
        .ok payload ∧
      parseMac spec.client.mac.toList = some src ∧ parseMac spec.server.mac.toList = some dst ∧
      spec.client.ipv4.parsed = some ⟨.v4, client, hclient⟩ ∧
      spec.server.ipv4.parsed = some ⟨.v4, server, hserver⟩ ∧
      stream = ⟨(dnsBuilt src.value dst.value client server spec.client.udpSourcePortStart
        (payload ++ List.replicate padding 0)).bytes, dnsVm spec.client⟩ := by
  simp only [installDns, dnsTrafficPacket, Option.bind_eq_bind, Option.bind_eq_some_iff,
    Option.pure_def] at h
  obtain ⟨payload, hpayload, packet, ⟨src, hsrc, dst, hdst, client, hclient, server, hserver, hpacket⟩,
    plan, hplan, hstream⟩ := h
  obtain ⟨value, lt, hparsed, rfl⟩ := ipv4Value_eq_some hclient
  obtain ⟨value', lt', hparsed', rfl⟩ := ipv4Value_eq_some hserver
  cases hpacket
  cases hstream
  obtain rfl := packetPlanFor_eq_ok (toOption_eq_some hplan)
  refine ⟨payload, spec.run.wireSize - 4 - 42 - payload.length, src, dst, value, lt, value', lt',
    toOption_eq_some hpayload, hsrc, hdst, hparsed, hparsed', rfl⟩

/-- A storm of two addresses of each kind is installed: its frames have room for the query. -/
theorem installDns_isSome {spec : DnsStormSpec} :
    (installDns spec).isSome = true ↔
      ((parseMac spec.client.mac.toList).isSome = true ∧
        (parseMac spec.server.mac.toList).isSome = true) ∧
      (ipv4Value spec.client.ipv4).isSome = true ∧ (ipv4Value spec.server.ipv4).isSome = true := by
  constructor
  · intro h
    obtain ⟨stream, hstream⟩ := Option.isSome_iff_exists.mp h
    obtain ⟨payload, padding, src, dst, client, hclient, server, hserver, -, hsrc, hdst, hparsed,
      hparsed', -⟩ := installDns_eq_some hstream
    refine ⟨⟨by rw [hsrc, Option.isSome_some], by rw [hdst, Option.isSome_some]⟩, ?_, ?_⟩
    · rw [ipv4Value, hparsed, Option.isSome_some]
    · rw [ipv4Value, hparsed', Option.isSome_some]
  · rintro ⟨⟨hsrc, hdst⟩, hclient, hserver⟩
    obtain ⟨src, hsrc⟩ := Option.isSome_iff_exists.mp hsrc
    obtain ⟨dst, hdst⟩ := Option.isSome_iff_exists.mp hdst
    obtain ⟨client, hclient⟩ := Option.isSome_iff_exists.mp hclient
    obtain ⟨server, hserver⟩ := Option.isSome_iff_exists.mp hserver
    obtain ⟨payload, hpayload, hsize⟩ := spec.size
    have hroom : 42 + payload.length ≤ spec.run.wireSize - 4 := by
      rw [hsize, dnsQueryWireSize]
      omega
    obtain ⟨packet, hpacket⟩ : ∃ packet, dnsTrafficPacket spec payload = some packet := by
      rw [dnsTrafficPacket, hsrc, hdst, hclient, hserver]
      exact ⟨_, rfl⟩
    obtain ⟨plan, hplan⟩ := (dnsTrafficPacket_plan hpacket).2 hroom
    refine Option.isSome_iff_exists.mpr ⟨_, Option.bind_eq_some_iff.mpr ⟨payload, ?_,
      Option.bind_eq_some_iff.mpr ⟨packet, hpacket, Option.bind_eq_some_iff.mpr ⟨plan, ?_, rfl⟩⟩⟩⟩
    · rw [hpayload, Except.toOption]
    · rw [hplan, Except.toOption]

/-! ### The octets of a packet -/

section Packet

variable (src dst client server sourcePort : Nat) (load : List UInt8) (rest : Octets)

/-- The headers of the packet. -/
theorem dnsBuilt_headers :
    ((dnsBuilt src dst client server sourcePort load).bytes rest).read 6 6 = src % 256 ^ 6 ∧
    ((dnsBuilt src dst client server sourcePort load).bytes rest).read 0 6 = dst % 256 ^ 6 ∧
    ((dnsBuilt src dst client server sourcePort load).bytes rest).read 12 2 = 0x0800 ∧
    ((dnsBuilt src dst client server sourcePort load).bytes rest).read 26 4 = client % 256 ^ 4 ∧
    ((dnsBuilt src dst client server sourcePort load).bytes rest).read 30 4 = server % 256 ^ 4 ∧
    ((dnsBuilt src dst client server sourcePort load).bytes rest).read 34 2 = sourcePort % 256 ^ 2 ∧
    ((dnsBuilt src dst client server sourcePort load).bytes rest).read 36 2 = 53 := by
  have hread : ∀ offset size, offset + size ≤ 42 →
      ((dnsBuilt src dst client server sourcePort load).bytes rest).read offset size =
        ((dnsBuilt src dst client server sourcePort load).octets rest).read offset size :=
    fun offset size h => BuiltPacket.bytes_read _ rest h
  rw [hread 6 6 (by decide), hread 0 6 (by decide), hread 12 2 (by decide), hread 26 4 (by decide),
    hread 30 4 (by decide), hread 34 2 (by decide), hread 36 2 (by decide)]
  simp (disch := omega) [dnsBuilt, BuiltPacket.octets, BuiltPacket.l3Offset,
    BuiltPacket.networkLength, Octets.read_write_self, Octets.read_write_of_disjoint]

/-- The octets after the headers are those of the load. -/
theorem dnsBuilt_load (i : Nat) (octet : UInt8) (h : load[i]? = some octet) :
    (dnsBuilt src dst client server sourcePort load).bytes rest (42 + i) = octet := by
  have hheaders : (dnsBuilt src dst client server sourcePort load).headersLength = 42 := rfl
  have hload : (dnsBuilt src dst client server sourcePort load).load = load := rfl
  rw [BuiltPacket.bytes, hheaders, if_pos (Nat.le_add_right _ _), Nat.add_sub_cancel_left, hload,
    List.getD_eq_getElem?_getD, h, Option.getD_some]

end Packet

/-! ### What the frames hold -/

section Frames

variable {packet : Octets → Octets} (client : DnsStormClient) (rest sums : Octets) (n : Nat)

/-- The frames of a storm: the packet with its source port, its transaction and its checksums. -/
theorem dnsFrame :
    StormStream.frame ⟨packet, dnsVm client⟩ rest sums n =
      ((((if client.udpSourcePortStart ≠ client.udpSourcePortEnd then
          (packet rest).write 34 2 (client.udpSourcePortStart + n % client.sourcePortCount)
        else packet rest).write 42 2 (n % 65536)).write 24 2 (sums.read 24 2)).write 40 2
          (sums.read 40 2)) := by
  by_cases hone : client.udpSourcePortStart = client.udpSourcePortEnd
  · simp [StormStream.frame, dnsVm, hone, flowVariable, StormInstruction.step, StormVariable.value]
  · simp [StormStream.frame, dnsVm, hone, flowVariable, StormInstruction.step, StormVariable.value,
      DnsStormClient.sourcePortCount]

/-- The octets that no instruction writes. -/
theorem dnsFrame_apply {i : Nat} (h : i < 24 ∨ 26 ≤ i ∧ i < 34 ∨ 36 ≤ i ∧ i < 40 ∨ 44 ≤ i) :
    StormStream.frame ⟨packet, dnsVm client⟩ rest sums n i = packet rest i := by
  rw [dnsFrame, Octets.write_apply_of_outside (by omega), Octets.write_apply_of_outside (by omega),
    Octets.write_apply_of_outside (by omega)]
  split
  · exact Octets.write_apply_of_outside (by omega)
  · rfl

theorem dnsFrame_read {offset size : Nat}
    (h : offset + size ≤ 24 ∨ 26 ≤ offset ∧ offset + size ≤ 34 ∨ 36 ≤ offset ∧ offset + size ≤ 40) :
    (StormStream.frame ⟨packet, dnsVm client⟩ rest sums n).read offset size =
      (packet rest).read offset size :=
  Octets.read_congr fun i hlow hhigh => dnsFrame_apply client rest sums n (by omega)

theorem dnsFrame_transaction :
    (StormStream.frame ⟨packet, dnsVm client⟩ rest sums n).read 42 2 = n % 65536 := by
  rw [dnsFrame]
  simp (disch := omega) only [Octets.read_write_of_disjoint, Octets.read_write_self]
  omega

theorem dnsFrame_sourcePort (h : (packet rest).read 34 2 = client.udpSourcePortStart) :
    (StormStream.frame ⟨packet, dnsVm client⟩ rest sums n).read 34 2 =
      client.udpSourcePortStart + n % client.sourcePortCount := by
  have hvalid := client.valid
  have hlt : n % client.sourcePortCount < client.sourcePortCount :=
    Nat.mod_lt _ (by rw [DnsStormClient.sourcePortCount]; omega)
  rw [dnsFrame]
  simp (disch := omega) only [Octets.read_write_of_disjoint]
  split
  · rw [Octets.read_write_self]
    unfold DnsStormClient.sourcePortCount at hlt ⊢
    omega
  · next hone =>
    unfold DnsStormClient.sourcePortCount at hlt ⊢
    omega

/-- A part of the load after the transaction. -/
theorem dnsFrame_load {load before part after : List UInt8}
    (hpacket : ∀ i octet, load[i]? = some octet → packet rest (42 + i) = octet)
    (hload : load = before ++ part ++ after) {offset size : Nat} (hafter : 44 ≤ offset)
    (hoffset : offset = 42 + before.length) (hsize : size = part.length) :
    ((List.range size).map fun i =>
      StormStream.frame ⟨packet, dnsVm client⟩ rest sums n (offset + i)) = part := by
  subst hload hsize
  refine List.ext_getElem (by simp) fun i hi hlt => ?_
  rw [List.getElem_map, List.getElem_range, dnsFrame_apply client rest sums n (by omega), hoffset,
    Nat.add_assoc]
  refine hpacket _ _ ?_
  rw [List.append_assoc, List.getElem?_append_right (Nat.le_add_right _ _), Nat.add_sub_cancel_left,
    List.getElem?_append_left hlt, List.getElem?_eq_getElem hlt]

end Frames

/-! ### What an accepted storm sends -/

section Queries

variable {policy : StormPolicy} {logicalPorts : List PortId}

/-- An allowed text is that of an allowed address. -/
theorem allowsMac_of_text {policy : SafetyPolicy} {mac : String} {address : MacAddress}
    (hallowed : policy.allowsMacText mac = true) (h : parseMac mac.toList = some address) :
    policy.allowsMac address.value := by
  intro harbitrary
  simp only [SafetyPolicy.allowsMacText, harbitrary, Bool.false_or, List.any_eq_true] at hallowed
  obtain ⟨p, hp, hcovers⟩ := hallowed
  refine ⟨p, hp, List.isPrefixOf_iff_prefix.mpr (List.prefix_iff_getElem?.mpr fun i hi => ?_)⟩
  obtain ⟨octets, hoctets, hnumber⟩ := parseMac_eq_some h
  obtain ⟨first, hfirst, hvalue⟩ := octetwise_lawful.reads hoctets
  have hdigits := p.digits_of_coversText hcovers
  rw [← flatten_macParts] at hdigits
  have hlt : i < 6 := hi.trans_le p.length.2
  obtain ⟨part, hpart, hoctet⟩ := octetValue_of_digits p.octet (macOctets_eq_some hoctets).1.2 hdigits
    (List.getElem?_eq_getElem hi)
  rw [Octets.getElem?_bigEndian hlt, ← hnumber, ← hvalue,
    octetwise_lawful.octet hfirst hlt hpart hoctet]

/-- The endpoints of an accepted storm. -/
theorem validateDns_eq_ok {spec : DnsStormSpec}
    (h : validatePacketStorm logicalPorts policy (.dns spec) = .ok ()) :
    (policy.allowsMacText spec.client.mac = true ∧ policy.allowsMacText spec.server.mac = true) ∧
      ∃ addresses, parseAddresses [spec.client.ipv4, spec.server.ipv4] = .ok addresses ∧
        ∀ a ∈ addresses, policy.allowsAddress a = true := by
  simp only [validatePacketStorm, validateDns, check_bind_eq_ok, require_eq_ok] at h
  obtain ⟨-, -, -, -, -, -, hmacs, h⟩ := h
  obtain ⟨addresses, haddresses, h⟩ := bind_eq_ok.mp h
  exact ⟨⟨hmacs _ List.mem_cons_self, hmacs _ (List.mem_cons_of_mem _ List.mem_cons_self)⟩, addresses,
    haddresses, require_eq_ok.mp h⟩

/-- The header of a query after its transaction: the flags, one question and no records. -/
def queryHeader (recursionDesired : Bool) : List UInt8 :=
  bigEndian 2 (if recursionDesired then 0x0100 else 0) ++ bigEndian 2 1 ++ bigEndian 2 0 ++
    bigEndian 2 0 ++ bigEndian 2 0

/-- The payload of a storm, of which the stream replaces the transaction. -/
theorem encodeDnsQuery_storm {value normalized : Text} (h : normalizeDnsName value = .ok normalized)
    (queryType : QueryType) (recursionDesired : Bool) :
    encodeDnsQuery value queryType recursionDesired 0 =
      .ok (bigEndian 2 0 ++ queryHeader recursionDesired ++ question normalized queryType) := by
  rw [encodeDnsQuery, h]
  simp only [queryHeader, ← List.append_assoc]
  rfl

/-- The frame of an index, as a server reads it: a query for a name from an allowed endpoint to another
one. -/
structure IsQuery (policy : SafetyPolicy) (spec : DnsStormSpec) (normalized : Text) (frame : Frame)
    (n : Nat) : Prop where
  allowed : frame.Authorized policy
  sourcePort : frame.read 34 2 = spec.client.udpSourcePortStart + n % spec.client.sourcePortCount
  destinationPort : frame.read 36 2 = 53
  transaction : frame.read 42 2 = n % 65536
  header : ((List.range 10).map fun i => frame (44 + i)) = queryHeader spec.question.recursionDesired
  question : decodeQuestion ((List.range (question normalized spec.question.type).length).map
      fun i => frame (54 + i)) =
    some ((labels normalized).map ascii, spec.question.type.value, 1, [])

/-- An untagged IPv4 frame of allowed addresses. -/
theorem authorized_ipv4 {policy : SafetyPolicy} {frame : Frame} (htype : frame.read 12 2 = 0x0800)
    (hsource : policy.allowsMac (frame.read 6 6)) (hdestination : policy.allowsMac (frame.read 0 6))
    (hfrom : policy.allowsAddress ⟨.v4, frame.read 26 4, frame.read_lt 26 4⟩ = true)
    (hto : policy.allowsAddress ⟨.v4, frame.read 30 4, frame.read_lt 30 4⟩ = true) :
    frame.Authorized policy := by
  have hl3 : frame.l3Offset = 14 := by
    rw [Frame.l3Offset, htype]
    rfl
  refine ⟨hsource, hdestination, fun a ha => ?_⟩
  rw [Frame.addresses_ipv4 hl3 (by rw [Frame.etherType, hl3, htype])] at ha
  rcases List.mem_pair.mp ha with rfl | rfl
  · exact hfrom
  · exact hto

/-- The frames of an accepted storm. -/
theorem isQuery {spec : DnsStormSpec}
    (haccepted : validatePacketStorm logicalPorts policy (.dns spec) = .ok ()) {stream : StormStream}
    (hstream : installDns spec = some stream) {normalized : Text}
    (hname : normalizeDnsName spec.question.name = .ok normalized) (rest sums : Octets) (n : Nat) :
    IsQuery policy.toSafetyPolicy spec normalized (stream.frame rest sums n) n := by
  obtain ⟨payload, padding, src, dst, client, hclient, server, hserver, hpayload, hsrc, hdst, hparsed,
    hparsed', rfl⟩ := installDns_eq_some hstream
  obtain ⟨hmacs, addresses, haddresses, hallowed⟩ := validateDns_eq_ok haccepted
  obtain rfl := Except.ok.inj
    ((encodeDnsQuery_storm hname spec.question.type spec.question.recursionDesired).symm.trans hpayload)
  obtain rfl := Except.ok.inj ((parseAddresses_pair hparsed hparsed').symm.trans haddresses)
  have hvalid := spec.client.valid
  generalize hload : bigEndian 2 0 ++ queryHeader spec.question.recursionDesired ++
    question normalized spec.question.type ++ List.replicate padding 0 = load
  obtain ⟨hsource, hdestination, htype, hfrom, hto, hport, hdnsPort⟩ := dnsBuilt_headers src.value
    dst.value client server spec.client.udpSourcePortStart load rest
  have hpacket := dnsBuilt_load src.value dst.value client server spec.client.udpSourcePortStart load rest
  -- what follows holds of any packet with these headers and this load
  generalize (dnsBuilt src.value dst.value client server spec.client.udpSourcePortStart load).bytes =
    packet at *
  have hread := @dnsFrame_read packet spec.client rest sums n
  constructor
  · rw [Nat.mod_eq_of_lt (show src.value < 256 ^ 6 from src.lt)] at hsource
    rw [Nat.mod_eq_of_lt (show dst.value < 256 ^ 6 from dst.lt)] at hdestination
    rw [Nat.mod_eq_of_lt (show client < 256 ^ 4 from hclient), ← hread (by decide)] at hfrom
    rw [Nat.mod_eq_of_lt (show server < 256 ^ 4 from hserver), ← hread (by decide)] at hto
    refine authorized_ipv4 ?_ ?_ ?_ ?_ ?_
    · rw [hread (by decide), htype]
    · rw [hread (by decide), hsource]
      exact allowsMac_of_text hmacs.1 hsrc
    · rw [hread (by decide), hdestination]
      exact allowsMac_of_text hmacs.2 hdst
    · simpa only [hfrom] using hallowed _ List.mem_cons_self
    · simpa only [hto] using hallowed _ (List.mem_cons_of_mem _ List.mem_cons_self)
  · exact dnsFrame_sourcePort spec.client rest sums n (by rw [hport]; omega)
  · rw [hread (by decide), hdnsPort]
  · exact dnsFrame_transaction spec.client rest sums n
  · exact dnsFrame_load spec.client rest sums n hpacket (hload.symm.trans (List.append_assoc _ _ _))
      le_rfl (by rw [length_bigEndian]) (by simp [queryHeader])
  · rw [← decodeQuestion_question hname]
    congr 1
    exact dnsFrame_load spec.client rest sums n hpacket hload.symm (by decide)
      (by simp [queryHeader]) rfl

/-- Packets of which both counters agree are those whose numbers agree modulo the least common multiple
of their ranges. -/
theorem counters_eq_iff {start count : Nat} (n m : Nat) :
    start + n % count = start + m % count ∧ n % 65536 = m % 65536 ↔
      n ≡ m [MOD Nat.lcm count 65536] := by
  rw [Nat.add_left_cancel_iff]
  constructor
  · rintro ⟨hport, htransaction⟩
    exact Nat.mod_lcm hport htransaction
  · intro h
    exact ⟨h.of_dvd (Nat.dvd_lcm_left _ _), h.of_dvd (Nat.dvd_lcm_right _ _)⟩

/-- An accepted storm of two addresses of each kind is installed. Each of its frames is a query for the
normal form of its name between allowed endpoints, whatever the packet library fills in; a source port and
a transaction come back together after the least common multiple of their ranges, and not before. -/
theorem queries_of_accepted {spec : DnsStormSpec}
    (haccepted : validatePacketStorm logicalPorts policy (.dns spec) = .ok ()) :
    ((installDns spec).isSome = true ↔
      ((parseMac spec.client.mac.toList).isSome = true ∧
        (parseMac spec.server.mac.toList).isSome = true) ∧
      (ipv4Value spec.client.ipv4).isSome = true ∧ (ipv4Value spec.server.ipv4).isSome = true) ∧
    ∃ normalized, normalizeDnsName spec.question.name = .ok normalized ∧
      ∀ stream, installDns spec = some stream →
        (∀ rest sums n, IsQuery policy.toSafetyPolicy spec normalized (stream.frame rest sums n) n) ∧
        ∀ rest sums rest' sums' n m,
          (stream.frame rest sums n).read 34 2 = (stream.frame rest' sums' m).read 34 2 ∧
            (stream.frame rest sums n).read 42 2 = (stream.frame rest' sums' m).read 42 2 ↔
          n ≡ m [MOD Nat.lcm spec.client.sourcePortCount 65536] := by
  obtain ⟨payload, hpayload, -⟩ := spec.size
  obtain ⟨normalized, hname, -⟩ := bind_eq_ok.mp hpayload
  refine ⟨installDns_isSome, normalized, hname, fun stream hstream => ?_⟩
  have hquery := isQuery haccepted hstream hname
  refine ⟨hquery, fun rest sums rest' sums' n m => ?_⟩
  rw [(hquery rest sums n).sourcePort, (hquery rest' sums' m).sourcePort,
    (hquery rest sums n).transaction, (hquery rest' sums' m).transaction]
  exact counters_eq_iff n m

end Queries

/-- A storm of queries for a name, from three source ports. -/
def threePorts : DnsStormSpec where
  limits := plainClients.limits
  client :=
    { port := 0, mac := "02:00:00:00:00:01", ipv4 := ⟨some ⟨.v4, 0xC6120001, Lab.client_lt⟩, true⟩
      udpSourcePortStart := 1024, udpSourcePortEnd := 1026
      valid := by decide }
  server :=
    { port := 1, mac := "02:00:00:00:00:02", ipv4 := ⟨some ⟨.v4, 0xC6120002, Lab.server_lt⟩, true⟩ }
  question :=
    { name := "A.b.".toList, type := .aaaa, recursionDesired := true
      length := by decide
      pattern := by decide }
  run :=
    { pps := 1, wireSize := 67, estimatedBpsL1 := 696, duration := 1000
      valid := by norm_num
      consistent := by norm_num }
  distinct := Nat.zero_ne_one
  size := ⟨_, rfl, rfl⟩

theorem threePorts_accepted :
    validatePacketStorm [0, 1] broadcastPolicy (.dns threePorts) = .ok () := by
  simp only [validatePacketStorm, validateDns, check_bind_eq_ok, require_eq_ok]
  refine ⟨rfl, rfl, ?_, ?_, ?_, ?_, fun _ _ => rfl, ?_⟩
  iterate 4
    norm_num [PacketStormSpec.run, PacketStormSpec.limits, threePorts, plainClients, broadcastPolicy,
      DnsStormClient.sourcePortCount]
  refine bind_eq_ok.mpr ⟨_, rfl, require_eq_ok.mpr ?_⟩
  decide

/-- The ports and the transactions of three source ports come back together after 196608 packets. -/
theorem queries_of_accepted_threePorts : ∃ stream, installDns threePorts = some stream ∧
    (∀ rest sums n,
      IsQuery broadcastPolicy.toSafetyPolicy threePorts "a.b.".toList (stream.frame rest sums n) n) ∧
    ∀ rest sums n m, (stream.frame rest sums n).read 34 2 = (stream.frame rest sums m).read 34 2 ∧
      (stream.frame rest sums n).read 42 2 = (stream.frame rest sums m).read 42 2 ↔ n ≡ m [MOD 196608] := by
  obtain ⟨hinstalled, normalized, hname, h⟩ := queries_of_accepted threePorts_accepted
  obtain ⟨stream, hstream⟩ := Option.isSome_iff_exists.mp (hinstalled.mpr (by decide))
  obtain rfl : "a.b.".toList = normalized := Except.ok.inj hname
  obtain ⟨hquery, hcounters⟩ := h stream hstream
  exact ⟨stream, hstream, hquery, fun rest sums n m => hcounters rest sums rest sums n m⟩

end TrexCli.Storm
