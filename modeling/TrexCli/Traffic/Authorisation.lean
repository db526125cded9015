import TrexCli.Rfc2544.Suite
import TrexCli.Traffic.Emission

/-!
# The addresses of admitted traffic

`_validate_policy` looks at the ends of the ranges of a document's packets, and the engine emits all
values of them. A MAC range of which one prefix covers both ends has the prefix, but the addresses
between two allowed ones need not be allowed; the packet for a new destination, which the latency
trials of a suite send, is not looked at. Of an accepted document the policy authorizes every frame
when it authorizes these (`accepted_emits`).
-/

namespace TrexCli

open Rfc2544
open Effect (Ensures)

/-! ### What a policy authorizes -/

/-- The number, as six octets, has the prefix. -/
def MacPrefix.coversValue (p : MacPrefix) (n : Nat) : Bool := p.octets.isPrefixOf (Octets.bigEndian 6 n)

/-- A MAC address that has an allowed prefix, unless all are allowed. -/
def SafetyPolicy.allowsMac (policy : SafetyPolicy) (n : Nat) : Prop :=
  policy.allowArbitraryUnicastMac = false → ∃ p ∈ policy.allowedMacPrefixes, p.coversValue n = true

/-- The policy authorizes all that a receiver reads of the frame. -/
structure Frame.Authorized (policy : SafetyPolicy) (frame : Frame) : Prop where
  source : policy.allowsMac frame.sourceMac
  destination : policy.allowsMac frame.destinationMac
  addresses : ∀ a ∈ frame.addresses, policy.allowsAddress a = true

/-- The policy allows each value of the MAC address fields. -/
def PacketHeaders.MacsAllowed (policy : SafetyPolicy) (packet : PacketHeaders) : Prop :=
  (∀ n, packet.ethernet.src.Takes n → policy.allowsMac n) ∧
    ∀ n, packet.ethernet.dst.Takes n → policy.allowsMac n

/-- The policy allows each value of the IP address fields. -/
def PacketHeaders.AddressesAllowed (policy : SafetyPolicy) (packet : PacketHeaders) : Prop :=
  ∀ header, packet.network = some header → ∀ a, header.Takes a → policy.allowsAddress a = true

theorem MacAddress.octets_eq (m : MacAddress) : m.octets = Octets.bigEndian 6 m.value := by
  have hlt : m.value / 256 ^ 5 < 256 := by
    have := m.lt
    omega
  show _ = [m.value / 256 ^ 5 % 256, _, _, _, _, _]
  rw [Nat.mod_eq_of_lt hlt]
  simp [MacAddress.octets]

section Policy

variable {policy : SafetyPolicy}

/-- A prefix of both ends of a range is one of all its values. -/
theorem checkMac_eq_ok {field : MacOrVariation} (h : policy.checkMac field.ends = .ok ()) {n : Nat}
    (hn : field.Takes n) : policy.allowsMac n := by
  intro harbitrary
  rw [SafetyPolicy.checkMac, require_eq_ok] at h
  rcases h with hall | ⟨p, hp, hends⟩
  · rw [harbitrary] at hall
    cases hall
  refine ⟨p, hp, List.isPrefixOf_iff_prefix.mpr ?_⟩
  have hcovered : ∀ m ∈ field.ends, p.octets <+: Octets.bigEndian 6 m.value := fun m hm =>
    m.octets_eq ▸ List.isPrefixOf_iff_prefix.mp (hends m hm)
  cases field with
  | value m =>
    obtain rfl : n = m.value := hn
    exact hcovered m List.mem_cons_self
  | variation v =>
    have hupper : v.first.value / 256 ^ 6 = v.last.value / 256 ^ 6 := by
      have hfirst := v.first.lt
      have hlast := v.last.lt
      omega
    exact Octets.prefix_bigEndian_between hupper hn.1 hn.2 (hcovered v.first List.mem_cons_self)
      (hcovered v.last (List.mem_cons_of_mem _ List.mem_cons_self))

/-- The packets of an accepted document have allowed MAC addresses. -/
theorem validateTraffic_macs {logicalPorts : List PortId} {doc : TrafficDocument}
    (h : validateTraffic logicalPorts policy doc = .ok ()) {packet : PacketHeaders}
    (hpacket : packet ∈ doc.packets) : packet.MacsAllowed policy := by
  have hchecks : doc.packets.forM policy.checkPacket = .ok () := by
    cases doc with
    | stateless spec =>
      simp only [validateTraffic, check_bind_eq_ok] at h
      exact h.2.2.2
    | throughput spec =>
      simp only [validateTraffic, check_bind_eq_ok] at h
      exact h.2.2
    | suite spec =>
      simp only [validateTraffic, check_bind_eq_ok] at h
      exact h.2.2
  have hchecked := forM_eq_ok.mp hchecks packet hpacket
  obtain ⟨hmacs, -⟩ := check_bind_eq_ok.mp hchecked
  rw [forM_eq_ok, List.forall_mem_cons, List.forall_mem_singleton] at hmacs
  exact ⟨fun n hn => checkMac_eq_ok hmacs.1 hn, fun n hn => checkMac_eq_ok hmacs.2 hn⟩

theorem NetworkHeader.takes_swapped {header : NetworkHeader} {a : IpAddress} :
    header.swapped.Takes a ↔ header.Takes a := by
  cases header <;> exact and_congr_right fun _ => or_comm

theorem PacketHeaders.MacsAllowed.swapped {packet : PacketHeaders} (h : packet.MacsAllowed policy) :
    packet.swapped.MacsAllowed policy :=
  ⟨h.2, h.1⟩

theorem PacketHeaders.AddressesAllowed.swapped {packet : PacketHeaders}
    (h : packet.AddressesAllowed policy) : packet.swapped.AddressesAllowed policy := by
  intro header hheader a ha
  obtain ⟨header', hheader', rfl⟩ := Option.map_eq_some_iff.mp hheader
  exact h header' hheader' a (NetworkHeader.takes_swapped.mp ha)

theorem authorized_forward {packet : Packet} (hmacs : packet.MacsAllowed policy)
    (haddresses : packet.AddressesAllowed policy) {variablePrefix : String} {plan : PacketPlan}
    (hplan : packetPlanFor packet false variablePrefix = .ok plan) {rest sums : Octets}
    {values : VariableName → Nat} (hadmits : Admits plan.vm values) :
    (plan.frame rest sums values).Authorized policy := by
  obtain rfl := packetPlanFor_eq_ok hplan
  obtain ⟨hsource, hdestination, hnetwork⟩ := packet.frame_takes hadmits rfl
  refine ⟨hmacs.1 _ hsource, hmacs.2 _ hdestination, fun a ha => ?_⟩
  obtain ⟨header, hheader, htakes⟩ := hnetwork a ha
  exact haddresses header hheader a htakes

/-- The policy authorizes the frames of a packet of which it allows all values. -/
theorem Emits.authorized {packet : Packet} (hmacs : packet.MacsAllowed policy)
    (haddresses : packet.AddressesAllowed policy) {frame : Frame} (h : Emits packet frame) :
    frame.Authorized policy := by
  obtain ⟨reverse, variablePrefix, plan, hplan, rest, sums, values, hadmits, rfl⟩ := h
  cases reverse with
  | false => exact authorized_forward hmacs haddresses hplan hadmits
  | true =>
    rw [packetPlanFor_reverse] at hplan
    exact @authorized_forward _ packet.swapped hmacs.swapped haddresses.swapped _ _ hplan _ _ _ hadmits

end Policy

/-! ### Documents -/

/-- All frames of the streams are of this kind. -/
def Emissions (Q : Frame → Prop) (streams : List OfferedStream) : Prop :=
  ∀ stream ∈ streams, ∀ frame, Emits stream.packet frame → Q frame

namespace TrafficDocument

/-- All frames that the engine emits while it runs the document are of this kind. -/
def EmitsOnly (policy : SafetyPolicy) (Q : Frame → Prop) : TrafficDocument → Prop
  | stateless spec => ∀ direction ∈ spec.directions, ∀ frame, Emits direction.packet frame → Q frame
  | throughput spec => ∀ (σ : Type) (device : SuiteDevice σ) (session : SuiteSession),
    Ensures (Started (Emissions Q))
      (runThroughput (rfcTrialSync device.logged spec) spec policy.maxPercentL1 session.lineRate)
      fun _ => True
  | suite spec => ∀ (σ : Type) (device : SuiteDevice σ) (session : SuiteSession),
    Ensures (Started (Emissions Q)) (runSuite device.logged spec policy.maxPercentL1 session) fun _ => True

/-- The packet for a new destination, if the latency trials of a suite send it. -/
def newDestination : TrafficDocument → Option RfcPacket
  | suite spec => spec.latency.bind fun configured =>
    if .newDestination ∈ configured.scenarios then configured.newDestinationPacket else none
  | _ => none

/-- The policy allows what its checks do not look at: the addresses within the ranges, and the packet
for a new destination. -/
structure Covered (policy : SafetyPolicy) (doc : TrafficDocument) : Prop where
  addresses : ∀ packet ∈ doc.packets, packet.AddressesAllowed policy
  newDestination : ∀ packet, doc.newDestination = some packet →
    packet.MacsAllowed policy ∧ packet.AddressesAllowed policy

end TrafficDocument

theorem StatelessTrafficSpec.exists_direction {spec : StatelessTrafficSpec} {packet : Packet}
    (h : packet ∈ spec.packets) : ∃ direction ∈ spec.directions, direction.packet = packet := by
  unfold StatelessTrafficSpec.packets at h
  unfold StatelessTrafficSpec.directions
  split at h
  · obtain rfl := List.mem_singleton.mp h
    rw [if_pos ‹_›]
    cases spec.ports.direction <;> exact ⟨_, List.mem_cons_self, rfl⟩
  · obtain ⟨stream, hstream, rfl⟩ := List.mem_map.mp h
    rw [if_neg ‹_›]
    exact ⟨_, List.mem_map.mpr ⟨stream, hstream, rfl⟩, rfl⟩

theorem StatelessTrafficSpec.packet_mem {spec : StatelessTrafficSpec} {direction : TrafficDirection}
    (h : direction ∈ spec.directions) : direction.packet ∈ spec.packets := by
  unfold StatelessTrafficSpec.directions at h
  unfold StatelessTrafficSpec.packets
  split at h
  · rw [if_pos ‹_›]
    split at h <;> simp only [List.mem_cons, List.not_mem_nil, or_false] at h
    · exact h ▸ List.mem_singleton.mpr rfl
    · rcases h with rfl | rfl <;> exact List.mem_singleton.mpr rfl
  · rw [if_neg ‹_›]
    obtain ⟨stream, hstream, rfl⟩ := List.mem_map.mp h
    exact List.mem_map.mpr ⟨stream, hstream, rfl⟩

/-- The packets of a trial are those that its document is made with. -/
theorem directedSpec_packets {spec : Rfc2544ThroughputSpec} {forward : Packet} {reverse : Option Packet}
    {rate : Rate} {durationSeconds : ℚ} {selected : Option Selected} {doc : StatelessTrafficSpec}
    (h : spec.directedSpec forward reverse rate durationSeconds selected = .ok doc) :
    ∀ packet ∈ doc.packets, packet = forward ∨ reverse = some packet := by
  intro packet hpacket
  unfold Rfc2544ThroughputSpec.directedSpec at h
  split at h
  · obtain rfl := Except.ok.inj h
    exact .inl (List.mem_singleton.mp hpacket)
  · obtain rfl := Except.ok.inj h
    exact .inr (congrArg some (List.mem_singleton.mp hpacket).symm)
  · cases h
  · split at h
    · split at h
      · obtain rfl := Except.ok.inj h
        rcases List.mem_cons.mp hpacket with hforward | hreverse
        · exact .inl hforward
        · exact .inr (congrArg some (List.mem_singleton.mp hreverse).symm)
      · cases h
    · obtain rfl := Except.ok.inj h
      exact .inl (List.mem_singleton.mp hpacket)

theorem trialDocument_packets {spec : Rfc2544ThroughputSpec} {frameSize : Nat}
    {ratePercent durationSeconds : ℚ} {selected : Option Selected} {doc : StatelessTrafficSpec}
    (h : spec.trialDocument frameSize ratePercent durationSeconds selected = .ok doc) :
    ∀ packet ∈ doc.packets, packet.toPacketHeaders ∈ TrafficDocument.rfcPackets spec := by
  intro packet hpacket
  rw [Rfc2544ThroughputSpec.trialDocument, bind_eq_ok] at h
  obtain ⟨rate, -, h⟩ := h
  split at h
  · rcases directedSpec_packets h packet hpacket with rfl | hreverse
    · exact List.mem_cons_self
    · obtain ⟨template, htemplate, rfl⟩ := Option.map_eq_some_iff.mp hreverse
      exact List.mem_cons_of_mem _ (List.mem_map.mpr ⟨template, by simp [htemplate], rfl⟩)
  · cases h

section Documents

variable {policy : SafetyPolicy}

/-- A trial of allowed packets emits authorized frames, as continuous traffic and as a burst. -/
theorem emissions_authorized {spec : Rfc2544ThroughputSpec}
    (hpackets : ∀ packet ∈ TrafficDocument.rfcPackets spec,
      packet.MacsAllowed policy ∧ packet.AddressesAllowed policy)
    {frameSize : Nat} {ratePercent durationSeconds : ℚ} {selected : Option Selected}
    {doc : StatelessTrafficSpec}
    (h : spec.trialDocument frameSize ratePercent durationSeconds selected = .ok doc) :
    Emissions (Frame.Authorized policy) doc.continuousStreams ∧
      Emissions (Frame.Authorized policy) doc.burstStreams := by
  have hdirections : ∀ direction ∈ doc.directions, ∀ frame, Emits direction.packet frame →
      frame.Authorized policy := by
    intro direction hdirection frame hemits
    obtain ⟨hmacs, haddresses⟩ := hpackets _ (trialDocument_packets h _
      (StatelessTrafficSpec.packet_mem hdirection))
    exact hemits.authorized hmacs haddresses
  constructor
  · intro stream hstream
    obtain ⟨direction, hdirection, rfl⟩ := List.mem_map.mp hstream
    exact hdirections direction hdirection
  · intro stream hstream
    obtain ⟨direction, hdirection, rfl⟩ := List.mem_map.mp hstream
    exact hdirections direction hdirection

theorem startsOnly_emissions {spec : Rfc2544SuiteSpec}
    (hpackets : ∀ packet ∈ TrafficDocument.rfcPackets spec.toRfc2544ThroughputSpec,
      packet.MacsAllowed policy ∧ packet.AddressesAllowed policy)
    (hnew : ∀ packet, (TrafficDocument.suite spec).newDestination = some packet →
      packet.MacsAllowed policy ∧ packet.AddressesAllowed policy) (ceiling : ℚ) :
    StartsOnly (Emissions (Frame.Authorized policy)) spec ceiling where
  continuous := fun _ _ _ _ _ _ hdoc => (emissions_authorized hpackets hdoc).1
  tagged := by
    intro configured hconfigured scenario hscenario packet hpacket frameSize ratePercent durationSeconds
      doc _ hdoc
    refine (emissions_authorized (fun packet' hpacket' => ?_) hdoc).1
    rcases List.mem_cons.mp hpacket' with rfl | hreverse
    · cases scenario with
      | sameDestination =>
        obtain rfl := Option.some.inj hpacket
        exact hpackets _ List.mem_cons_self
      | newDestination =>
        refine hnew packet ?_
        rw [TrafficDocument.newDestination, hconfigured]
        exact (if_pos hscenario).trans hpacket
    · exact hpackets packet' (List.mem_cons_of_mem _ hreverse)
  burst := fun _ _ _ _ _ hdoc => (emissions_authorized hpackets hdoc).2

/-- Of an accepted document the engine emits authorized frames alone, when the policy allows what its
checks do not look at. For the traffic of packets that the engine compiles this is needed as well. -/
theorem accepted_emits (logicalPorts : List PortId) (policy : SafetyPolicy) (doc : TrafficDocument)
    (haccepted : validateTraffic logicalPorts policy doc = .ok ()) :
    (doc.Covered policy → doc.EmitsOnly policy (Frame.Authorized policy)) ∧
      ∀ spec, doc = .stateless spec →
        (∀ packet ∈ spec.packets, packet.checkCapability = .ok () ∧
          ∃ variablePrefix plan, packetPlanFor packet false variablePrefix = .ok plan) →
        doc.EmitsOnly policy (Frame.Authorized policy) → doc.Covered policy := by
  constructor
  · intro hcovered
    have hpackets : ∀ packet ∈ doc.packets,
        packet.MacsAllowed policy ∧ packet.AddressesAllowed policy := fun packet hpacket =>
      ⟨validateTraffic_macs haccepted hpacket, hcovered.addresses packet hpacket⟩
    cases doc with
    | stateless spec =>
      intro direction hdirection frame hemits
      obtain ⟨hmacs, haddresses⟩ := hpackets direction.packet.toPacketHeaders
        (List.mem_map.mpr ⟨_, StatelessTrafficSpec.packet_mem hdirection, rfl⟩)
      exact hemits.authorized hmacs haddresses
    | throughput spec =>
      intro σ device session
      have htrial : ∀ selected, SafeUpTo (Started (Emissions (Frame.Authorized policy)))
          (rfcTrialSync device.logged spec selected) policy.maxPercentL1 := fun selected =>
        rfcTrialSync_safe fun _ _ _ _ _ hdoc => (emissions_authorized hpackets hdoc).1
      exact (runThroughput_ensures policy.percentL1.1 htrial session.lineRate).mono fun _ _ => trivial
    | suite spec =>
      intro σ device session
      exact (startsOnly_emissions hpackets hcovered.newDestination _).runSuite policy.percentL1.1
  · rintro spec rfl hcompiled hemits
    refine ⟨fun packet hpacket header hheader a ha => ?_, fun packet hpacket => nomatch hpacket⟩
    obtain ⟨packet, hmem, rfl⟩ := List.mem_map.mp hpacket
    obtain ⟨hcapable, variablePrefix, plan, hplan⟩ := hcompiled packet hmem
    obtain ⟨direction, hdirection, rfl⟩ := StatelessTrafficSpec.exists_direction hmem
    obtain rfl := packetPlanFor_eq_ok hplan
    obtain ⟨values, hadmits, hframe⟩ :=
      PacketHeaders.exists_frame hcapable hheader ha (fun _ => 0) (fun _ => 0)
    have hemitted : Emits direction.packet _ :=
      ⟨false, variablePrefix, _, hplan, fun _ => 0, fun _ => 0, values, hadmits, rfl⟩
    exact (hemits direction hdirection _ hemitted).addresses a hframe

end Documents

/-- A policy of two networks with another one between them, and of one MAC prefix. -/
def networkPolicy : SafetyPolicy :=
  { halfPolicy with
    allowedCidrs := [⟨.v4, 0x0A000000, 24, by decide⟩, ⟨.v4, 0x0A000200, 24, by decide⟩]
    allowedMacPrefixes := [⟨[2], Lab.octets_length, Lab.octets_lt⟩]
    allowArbitraryUnicastMac := false
    prefixes := Lab.one_prefix }

/-- Headers from a range of MAC addresses, to an IPv4 address. -/
def rangeHeaders (src : AddressOrVariation .v4) (dst : Nat) (lt : dst < 2 ^ 32) : PacketHeaders where
  ethernet :=
    { src := .variation
        { first := ⟨0x020000000010, Lab.firstMac_lt, Lab.firstMac_unicast⟩
          last := ⟨0x0200000000ff, Lab.lastMac_lt, Lab.lastMac_unicast⟩
          mode := .increment
          le := Lab.firstMac_le
          onePrefix := Lab.firstMac_prefix }
      dst := .value ⟨0x020000000001, Lab.clientMac_lt, Lab.clientMac_unicast⟩ }
  network := some (.ipv4 { src, dst := .value dst lt, valid := Lab.hops_bounds })
  transport := none
  stack := by simp

/-- Traffic of one stream for a second. -/
def streamTraffic (headers : PacketHeaders) : StatelessTrafficSpec where
  ports := ⟨0, 1, .unidirectional, Nat.zero_ne_one⟩
  limits := ⟨300000, 28800000, Lab.limits_pos⟩
  packet := { headers with frameSize := 64, size := Lab.frameSize_bounds }
  rate := ⟨.pps, 1, Lab.one_pps_pos, by simp⟩
  duration := some 1000
  burstPackets := none
  maxLossPercent := none
  streams := []
  bounded := StatelessTrafficSpec.bounded_nil
  durationOrBurst := StatelessTrafficSpec.second_or_burst
  pos := StatelessTrafficSpec.second_pos
  resolved := StatelessTrafficSpec.resolved_nil
  names := StatelessTrafficSpec.names_nil
  assertion := StatelessTrafficSpec.no_assertion

theorem streamTraffic_accepted {headers : PacketHeaders}
    (h : networkPolicy.checkPacket headers = .ok ()) :
    validateTraffic [0, 1] networkPolicy (.stateless (streamTraffic headers)) = .ok () := by
  have hrate : validateStateless networkPolicy (streamTraffic headers) = .ok () := by
    refine check_bind_eq_ok.mpr ⟨rfl, check_bind_eq_ok.mpr ⟨rfl, forM_eq_ok.mpr fun entry hentry => ?_⟩⟩
    obtain rfl := List.mem_singleton.mp hentry
    exact require_eq_ok.mpr (by
      norm_num [streamTraffic, SafetyPolicy.rateCeiling, networkPolicy, halfPolicy, weeklyPolicy])
  simp only [validateTraffic, check_bind_eq_ok]
  exact ⟨rfl, hrate, rfl, forM_eq_ok.mpr fun packet hpacket => List.mem_singleton.mp hpacket ▸ h⟩

/-- Headers with sources of one allowed network. -/
def insideHeaders : PacketHeaders :=
  rangeHeaders (.variation ⟨0x0A000001, 0x0A0000FE, .random, by decide, by decide⟩) 0x0A000201 (by decide)

/-- Headers with sources from one allowed network to the other one. -/
def acrossHeaders : PacketHeaders :=
  rangeHeaders (.variation ⟨0x0A000001, 0x0A000201, .increment, by decide, by decide⟩) 0x0A000201
    (by decide)

theorem accepted_emits_insideHeaders :
    (TrafficDocument.stateless (streamTraffic insideHeaders)).EmitsOnly networkPolicy
      (Frame.Authorized networkPolicy) := by
  refine (accepted_emits [0, 1] networkPolicy _ (streamTraffic_accepted rfl)).1
    ⟨fun packet hpacket header hheader a ha => ?_, fun packet hpacket => nomatch hpacket⟩
  obtain rfl := List.mem_singleton.mp hpacket
  obtain rfl := Option.some.inj hheader
  obtain ⟨version, value, lt⟩ := a
  obtain ⟨hversion, htakes⟩ := ha
  obtain rfl : version = .v4 := hversion
  have hnetwork : value >>> 8 = 0x0A0000 ∨ value >>> 8 = 0x0A0002 := by
    rw [Nat.shiftRight_eq_div_pow]
    rcases htakes with hsrc | hdst
    · obtain ⟨hlow, hhigh⟩ : 0x0A000001 ≤ value ∧ value ≤ 0x0A0000FE := hsrc
      omega
    · obtain rfl : value = 0x0A000201 := hdst
      omega
  refine List.any_eq_true.mpr ?_
  rcases hnetwork with hfirst | hsecond
  · exact ⟨_, List.mem_cons_self, decide_eq_true ⟨rfl, hfirst⟩⟩
  · exact ⟨_, List.mem_cons_of_mem _ List.mem_cons_self, decide_eq_true ⟨rfl, hsecond⟩⟩

theorem acrossHeaders_emits :
    ¬(TrafficDocument.stateless (streamTraffic acrossHeaders)).EmitsOnly networkPolicy
      (Frame.Authorized networkPolicy) := by
  intro h
  -- the source 10.0.1.1 lies in neither network
  obtain ⟨values, hadmits, hframe⟩ := @PacketHeaders.exists_frame "stream_0" acrossHeaders
    (streamTraffic acrossHeaders).packet.load rfl _ rfl ⟨.v4, 0x0A000101, by decide⟩
    ⟨rfl, .inl ⟨by decide, by decide⟩⟩ (fun _ => 0) (fun _ => 0)
  have hemitted : Emits (streamTraffic acrossHeaders).packet _ :=
    ⟨false, "stream_0", _, rfl, fun _ => 0, fun _ => 0, values, hadmits, rfl⟩
  have hallowed := (h _ List.mem_cons_self _ hemitted).addresses _ hframe
  have hrefused : networkPolicy.allowsAddress ⟨.v4, 0x0A000101, by decide⟩ = false := by decide
  rw [hrefused] at hallowed
  cases hallowed

/-! ### A packet for a new destination -/

/-- A template to an address of neither network. -/
def strayPacket : RfcPacket where
  toPacketHeaders := rangeHeaders (.value 0x0A000001 (by decide)) 0x0A000909 (by decide)
  hasNetwork := by simp [rangeHeaders]

/-- Latency trials to a new destination. -/
def strayLatency : LatencySettings where
  definition := .storeAndForward
  scenarios := [.newDestination]
  newDestinationPacket := some strayPacket
  unique := by decide
  valid := Lab.latency_valid

/-- A suite with these trials. -/
def straySuite : Rfc2544SuiteSpec :=
  { latencySuite with
    packet :=
      { toPacketHeaders := rangeHeaders (.value 0x0A000001 (by decide)) 0x0A000201 (by decide)
        hasNetwork := by simp [rangeHeaders] }
    tests := [.throughput, .latency]
    latency := some strayLatency
    backToBack := none
    ne := by decide
    unique := by decide
    asserted := by simp
    latencySettings := by simp
    latencyOrder := fun _ => ⟨by decide, by decide⟩
    strictScenarios := by simp [latencySuite]
    backToBackSettings := by simp
    backToBackOrder := by simp }

/-- A device that loses nothing, and a generator that fails while it sends a tagged frame. -/
def failingTags : SuiteDevice Unit where
  continuous _ _ := pure (lost 0)
  tagged _ _ _ _ := Effect.throw (.exception "TRexError")
  burst _ _ _ _ := pure ⟨true, 0, 0, .null⟩

/-- A session of 10 Gb/s with a calibration. -/
def calibratedSession : SuiteSession := ⟨10000000000, some sixtyFourCalibration, 500, [true, true], none⟩

theorem straySuite_accepted : validateTraffic [0, 1] networkPolicy (.suite straySuite) = .ok () := by
  simp only [validateTraffic, check_bind_eq_ok]
  exact ⟨rfl, rfl, rfl⟩

theorem strayTrial_breaks {percent correction duration delay : ℚ} {rate : Rate}
    (hrate : trialRate percent = .ok rate) :
    Breaks (Emissions (Frame.Authorized networkPolicy))
      (taggedTrial failingTags.logged straySuite.toRfc2544ThroughputSpec strayPacket correction 64 rate
        duration delay) := by
  obtain ⟨hvalue, hpos, hle⟩ := value_of_trialRate hrate
  obtain ⟨doc, rate', hdoc, hdirections⟩ := @trialDocument_unidirectional
    { straySuite.toRfc2544ThroughputSpec with packet := strayPacket } rfl 64 (by decide) rate.value
    duration (hvalue ▸ hpos) (hvalue ▸ hle)
  unfold taggedTrial
  rw [hdoc]
  show Breaks _ (if doc.directions.length = 1 then _ else _)
  rw [if_pos (by rw [hdirections]; rfl)]
  refine breaks_started fun hemissions => ?_
  -- the destination 10.0.9.9 lies in neither network
  obtain ⟨values, hadmits, hframe⟩ := @PacketHeaders.exists_frame "stream_0" strayPacket.toPacketHeaders
    (strayPacket.atFrameSize 64 (by decide)).load rfl _ rfl ⟨.v4, 0x0A000909, by decide⟩
    ⟨rfl, .inr rfl⟩ (fun _ => 0) (fun _ => 0)
  have hemitted : Emits (strayPacket.atFrameSize 64 (by decide)) _ :=
    ⟨false, "stream_0", _, rfl, fun _ => 0, fun _ => 0, values, hadmits, rfl⟩
  have hstream : (⟨straySuite.ports.tx, strayPacket.atFrameSize 64 (by decide), false, rate'.value⟩ :
      OfferedStream) ∈ doc.continuousStreams := by
    rw [StatelessTrafficSpec.continuousStreams, hdirections]
    exact List.mem_singleton.mpr rfl
  have hallowed := (hemissions _ hstream _ hemitted).addresses _ hframe
  have hrefused : networkPolicy.allowsAddress ⟨.v4, 0x0A000909, by decide⟩ = false := by decide
  rw [hrefused] at hallowed
  cases hallowed

theorem strayLatency_breaks {summary : ThroughputSummary} {item : FrameSearchResult}
    (hsize : item.frameSize = 64) (hpercent : item.throughputPercentL1 = some 50)
    (hrates : summary.rates = [(item.frameSize, FrameRates.ofResult 10000000000 item)]) :
    Breaks (Emissions (Frame.Authorized networkPolicy))
      (runLatency rfcTrialDocument straySuite
        (taggedTrial failingTags.logged straySuite.toRfc2544ThroughputSpec) (some sixtyFourCalibration)
        500 [true, true] (some summary)) := by
  have hmeasured : ∀ configured : LatencySettings, Breaks (Emissions (Frame.Authorized networkPolicy))
      (measureLatency rfcTrialDocument
        (taggedTrial failingTags.logged straySuite.toRfc2544ThroughputSpec) configured strayPacket 0 64
        50) := by
    intro configured
    obtain ⟨repetitions, hrepetitions⟩ : ∃ n, configured.repetitions = n + 1 :=
      Nat.exists_eq_succ_of_ne_zero (by have := configured.valid; omega)
    unfold measureLatency
    rw [hrepetitions, List.range'_succ]
    refine Breaks.bind (Breaks.bind (Breaks.bind ?_))
    refine breaks_of_reaches (Q := fun rate => trialRate 50 = .ok rate) ?_ fun rate hrate =>
      strayTrial_breaks hrate
    obtain ⟨rate, hrate⟩ := @trialRate_eq_ok 50 (by norm_num) (by norm_num)
    rw [rfcTrialDocument, hrate]
    exact .pure rfl
  have hentry : (FrameRates.ofResult 10000000000 item).percentL1 = some 50 := hpercent
  have hframes : Breaks (Emissions (Frame.Authorized networkPolicy))
      (Effect.forList (latencyFrame rfcTrialDocument straySuite
        (taggedTrial failingTags.logged straySuite.toRfc2544ThroughputSpec) strayLatency [(64, 0)])
        summary.rates) := by
    rw [hrates, hsize]
    refine Breaks.bind ?_
    unfold latencyFrame
    rw [hentry]
    exact (hmeasured strayLatency).bind.bind.bind
  exact hframes.bind

theorem straySuite_emits :
    ¬(TrafficDocument.suite straySuite).EmitsOnly networkPolicy (Frame.Authorized networkPolicy) := by
  intro h
  have hbreaks : Breaks (Emissions (Frame.Authorized networkPolicy))
      (runSuite failingTags.logged straySuite 50 calibratedSession) := by
    refine Breaks.bind (breaks_of_reaches (Q := fun measurement => ∃ summary item,
      measurement = .throughput summary ∧ item.frameSize = 64 ∧ item.throughputPercentL1 = some 50 ∧
        summary.rates = [(item.frameSize, FrameRates.ofResult 10000000000 item)]) ?_ ?_)
    · refine (runThroughput_lossless rfl rfl rfl fun _ _ => rfl).bind ?_
      exact fun summary ⟨item, hsize, hpercent, hrates⟩ =>
        .pure ⟨summary, item, rfl, hsize, hpercent, hrates⟩
    · rintro _ ⟨summary, item, rfl, hsize, hpercent, hrates⟩
      exact (strayLatency_breaks hsize hpercent hrates).bind.bind.bind
  exact hbreaks.not_ensures () (h Unit failingTags calibratedSession)

/-- Accepted traffic sends from an address between the two networks, and an accepted suite sends to an
address of neither. -/
theorem accepted_unauthorized :
    (validateTraffic [0, 1] networkPolicy (.stateless (streamTraffic acrossHeaders)) = .ok () ∧
      ¬(TrafficDocument.stateless (streamTraffic acrossHeaders)).EmitsOnly networkPolicy
        (Frame.Authorized networkPolicy)) ∧
    validateTraffic [0, 1] networkPolicy (.suite straySuite) = .ok () ∧
      ¬(TrafficDocument.suite straySuite).EmitsOnly networkPolicy (Frame.Authorized networkPolicy) :=
  ⟨⟨streamTraffic_accepted rfl, acrossHeaders_emits⟩, straySuite_accepted, straySuite_emits⟩

end TrexCli
