import TrexCli.Storm.BroadcastPlanning
import TrexCli.Storm.Lockstep
import TrexCli.Workload.Admission

/-!
# The admission of plans

The planners check an intent against the policy before they write a plan, and `_validate_policy` checks
the document of the plan again when it is run. Of a document that was planned under the policy of the
agent, the second look finds nothing but what the planners leave to it: the limits of the path, the ports
of the agent, and, for a storm, a duration that is longer than the job may take (`validate_planned`).
-/

namespace TrexCli

open Storm

/-! ### Checks -/

theorem require_bind {p : Prop} [Decidable p] {α : Type} {error : TrexCliError}
    {rest : Unit → Except Exc α} (h : p) : (require p error >>= rest) = rest () := by
  rw [require, if_pos h]
  rfl

theorem bind_ok_unit {ε : Type} (check : Except ε Unit) : (check >>= fun _ => .ok ()) = check := by
  cases check with
  | error _ => rfl
  | ok _ => rfl

/-- Of two conditions one of which holds, the other one is checked. -/
theorem require_and {p q : Prop} [Decidable p] [Decidable q] {error : TrexCliError} (hp : p) :
    require (p ∧ q) error = require q error := by
  unfold require
  simp only [hp, true_and]

theorem dnsCheck_eq_ok {p : Prop} [Decidable p] {message : String} :
    dnsCheck p message = .ok () ↔ p := by
  unfold dnsCheck
  split <;> simp [*]

/-- Two addresses that are allowed are read, and pass. -/
theorem checkAddresses_pair {policy : SafetyPolicy} {x y : AddressText} {error : TrexCliError}
    (hx : ∃ a, x.parsed = some a ∧ policy.allowsAddress a = true)
    (hy : ∃ a, y.parsed = some a ∧ policy.allowsAddress a = true) :
    (parseAddresses [x, y] >>= fun addresses =>
      require (∀ a ∈ addresses, policy.allowsAddress a = true) error) = .ok () := by
  obtain ⟨a, ha, hallowed⟩ := hx
  obtain ⟨b, hb, hallowed'⟩ := hy
  refine bind_eq_ok.mpr ⟨_, parseAddresses_pair ha hb, require_eq_ok.mpr ?_⟩
  intro c hc
  rcases List.mem_pair.mp hc with rfl | rfl
  · exact hallowed
  · exact hallowed'

/-! ### Storms -/

namespace Storm

/-- The checks of a storm that depend on its protocol. -/
def validateProtocol (policy : StormPolicy) : PacketStormSpec → Except Exc Unit
  | .dns spec => validateDns policy spec
  | .dhcp spec => validateDhcp policy spec
  | .arp spec => validateArp policy spec

/-- What a planner has checked of a storm. -/
structure Allowed (policy : StormPolicy) (spec : PacketStormSpec) : Prop where
  duration : spec.run.duration ≤ policy.maxRunDuration
  pps : spec.run.pps ≤ policy.maxPps
  bpsL1 : spec.run.pps * (spec.run.wireSize + 20) * 8 ≤ policy.maxBpsL1
  protocol : validateProtocol policy spec = .ok ()

/-- What is left of the checks of a storm. -/
theorem Allowed.validate {policy : StormPolicy} {spec : PacketStormSpec} (h : Allowed policy spec)
    (logicalPorts : List PortId) :
    validatePacketStorm logicalPorts policy spec = (do
      policy.checkLimits spec.limits
      checkPorts logicalPorts spec.logicalPorts
      require (spec.run.duration ≤ spec.limits.jobTimeout)
        (unsafeRequest "Packet Storm duration exceeds a configured limit")) := by
  have hrest : (do
      require (spec.run.pps ≤ policy.maxPps) (unsafeRequest "Packet Storm pps exceeds maxPps")
      require (spec.run.pps * (spec.run.wireSize + 20) * 8 ≤ policy.maxBpsL1)
        (unsafeRequest "Packet Storm estimatedBpsL1 exceeds maxBpsL1")
      validateProtocol policy spec) = .ok () := by
    rw [require_bind h.pps, require_bind h.bpsL1]
    exact h.protocol
  have hwhole : validatePacketStorm logicalPorts policy spec = (do
      policy.checkLimits spec.limits
      checkPorts logicalPorts spec.logicalPorts
      require (spec.run.duration ≤ policy.maxRunDuration ∧ spec.run.duration ≤ spec.limits.jobTimeout)
        (unsafeRequest "Packet Storm duration exceeds a configured limit")
      require (spec.run.pps ≤ policy.maxPps) (unsafeRequest "Packet Storm pps exceeds maxPps")
      require (spec.run.pps * (spec.run.wireSize + 20) * 8 ≤ policy.maxBpsL1)
        (unsafeRequest "Packet Storm estimatedBpsL1 exceeds maxBpsL1")
      validateProtocol policy spec) := by
    cases spec <;> rfl
  rw [hwhole, hrest, require_and h.duration]
  rw [bind_ok_unit]

/-- The run of a storm has the rate and the frame size that the planner has checked. -/
theorem Allowed.of_run {policy : StormPolicy} {spec : PacketStormSpec} {pps estimatedBpsL1 : ℚ}
    {wireSize : Nat} {duration : Option Nat}
    (hrun : stormRun pps wireSize estimatedBpsL1 duration = .ok spec.run)
    (hduration : spec.run.duration ≤ policy.maxRunDuration) (hpps : pps ≤ policy.maxPps)
    (hbpsL1 : pps * (wireSize + 20) * 8 ≤ policy.maxBpsL1)
    (hprotocol : validateProtocol policy spec = .ok ()) : Allowed policy spec where
  duration := hduration
  pps := by rwa [stormRun_pps hrun]
  bpsL1 := by rwa [stormRun_pps hrun, stormRun_wireSize hrun]
  protocol := hprotocol

/-! ### Planned storms -/

theorem stormClient_eq_ok {role : DatagramReplayRole} {first last : Nat} {client : DnsStormClient}
    (h : stormClient role first last = .ok client) :
    client.mac = role.mac ∧ client.ipv4 = role.ipv4 ∧
      client.sourcePortCount = last - first + 1 := by
  unfold stormClient at h
  split at h
  · cases h
    exact ⟨rfl, rfl, rfl⟩
  · cases h

theorem dnsStormSpec_eq_ok {limits : Except (List DnsFault) Limits}
    {client : Except (List DnsFault) DnsStormClient} {server : DnsStormServer}
    {question : Except (List DnsFault) DnsQuestion} {run : Except (List DnsFault) PacketStormRun}
    {spec : DnsStormSpec} (h : dnsStormSpec limits client server question run = .ok spec) :
    client = .ok spec.client ∧ spec.server = server ∧ run = .ok spec.run := by
  unfold dnsStormSpec at h
  split at h
  · split at h
    · split at h
      · cases h
      · split at h
        · cases h
          exact ⟨rfl, rfl, rfl⟩
        · cases h
    · cases h
  · cases h

theorem checkDnsNetworks_eq_ok {policy : SafetyPolicy} {label : String} {address : AddressText}
    (h : checkDnsNetworks policy label address = .ok ()) :
    ∃ a, address.parsed = some a ∧ policy.allowsAddress a = true := by
  unfold checkDnsNetworks at h
  dsimp only at h
  split at h
  · cases h
  · split at h
    · next a ha => exact ⟨a, ha, dnsCheck_eq_ok.mp h⟩
    · cases h

theorem allowed_of_planDnsStorm {identity : DnsStormSpec → Text} {policy : StormPolicy}
    {path : Except String LabPath} {intent : DnsIntent} {plan : DnsStormPlan}
    (h : planDnsStorm identity (some policy.toSafetyPolicy) path intent = .ok plan) :
    Allowed policy (.dns plan.document) := by
  obtain ⟨path, -, h⟩ := bind_eq_ok.mp h
  obtain ⟨⟨client, server⟩, -, h⟩ := bind_eq_ok.mp h
  obtain ⟨⟨⟩, hintent, h⟩ := bind_eq_ok.mp h
  obtain ⟨⟨normalized, payload⟩, -, h⟩ := bind_eq_ok.mp h
  simp only [check_bind_eq_ok, dnsCheck_eq_ok] at h
  obtain ⟨hpps, hbpsL1, h⟩ := h
  obtain ⟨document, hdocument, h⟩ := bind_eq_ok.mp h
  rw [check_bind_eq_ok, dnsCheck_eq_ok] at h
  obtain ⟨hduration, h⟩ := h
  cases h
  obtain ⟨hclient, hserver, hrun⟩ := dnsStormSpec_eq_ok (mapError_eq_ok.mp hdocument)
  obtain ⟨hmac, hipv4, hcount⟩ := stormClient_eq_ok hclient
  simp only [checkDnsIntent, check_bind_eq_ok, dnsCheck_eq_ok] at hintent
  obtain ⟨-, hpool, hclientIpv4, hserverIpv4, hclientMac, hserverMac⟩ := hintent
  refine .of_run hrun hduration hpps hbpsL1 ?_
  show validateDns policy document = .ok ()
  rw [validateDns, hcount, hmac, hipv4, hserver, require_bind hpool, require_bind ?_]
  · exact checkAddresses_pair (checkDnsNetworks_eq_ok hclientIpv4)
      (checkDnsNetworks_eq_ok hserverIpv4)
  · intro mac hmem
    rcases List.mem_pair.mp hmem with rfl | rfl
    · exact hclientMac
    · exact hserverMac

theorem allowed_of_planDhcpStorm {identity : DhcpStormSpec → Text} {policy : StormPolicy}
    {path : Except PlanningError BroadcastPath} {intent : DhcpIntent} {plan : DhcpStormPlan}
    (h : planDhcpStorm identity (some policy) path intent = .ok plan) :
    Allowed policy (.dhcp plan.document) := by
  simp only [planDhcpStorm, check_bind_eq_ok, planCheck_eq_ok] at h
  obtain ⟨hbroadcast, h⟩ := h
  obtain ⟨path, -, h⟩ := bind_eq_ok.mp h
  rw [check_bind_eq_ok] at h
  obtain ⟨⟨client, serverPort⟩, -, h⟩ := bind_eq_ok.mp h.2
  simp only [planDhcpClients, check_bind_eq_ok, planCheck_eq_ok] at h
  obtain ⟨hpool, h⟩ := h
  obtain ⟨macEnd, -, h⟩ := bind_eq_ok.mp h
  simp only [check_bind_eq_ok, planCheck_eq_ok] at h
  obtain ⟨hmacs, hpps, hbpsL1, h⟩ := h
  split at h
  · cases h
  · next document hdocument =>
    rw [check_bind_eq_ok, planCheck_eq_ok] at h
    obtain ⟨hduration, h⟩ := h
    cases h
    simp only [dhcpDocument, Option.bind_eq_bind, Option.bind_eq_some_iff] at hdocument
    obtain ⟨limits, -, clients, hclients, run, hrun, hdocument⟩ := hdocument
    unfold dhcpStormClients at hclients
    split at hclients
    · cases hclients
      split at hdocument
      · cases hdocument
        refine .of_run (toOption_eq_some hrun) hduration hpps hbpsL1 ?_
        show validateDhcp policy _ = .ok ()
        simp only [validateDhcp, check_bind_eq_ok, require_eq_ok]
        exact ⟨hbroadcast, natCast_le_of_toNat hpool, hmacs⟩
      · cases hdocument
    · cases hclients

/-- What the checks of the networks have read. -/
theorem checkArpNetworks_eq_ok {policy : SafetyPolicy} {roles : ArpRoles} {ipv4End : IpAddress}
    (h : checkArpNetworks policy roles ipv4End = .ok ()) :
    ∃ first target, roles.senderIpv4.parsed = some first ∧ roles.targetIpv4.parsed = some target ∧
      (∃ network ∈ policy.allowedCidrs, ∀ a ∈ [first, ipv4End], network.contains a = true) ∧
      policy.allowsAddress target = true := by
  unfold checkArpNetworks at h
  split at h
  · cases h
  · next first hfirst =>
    rw [check_bind_eq_ok, planCheck_eq_ok] at h
    obtain ⟨⟨network, hnetwork, hin, hin'⟩, h⟩ := h
    split at h
    · cases h
    · next target htarget =>
      refine ⟨first, target, hfirst, htarget, ⟨network, hnetwork, ?_⟩, planCheck_eq_ok.mp h⟩
      intro a ha
      rcases List.mem_pair.mp ha with rfl | rfl
      · exact hin
      · exact hin'

theorem allowed_of_planArpStorm {identity : ArpStormSpec → Text} {policy : StormPolicy}
    {path : Except PlanningError BroadcastPath} {intent : ArpIntent} {plan : ArpStormPlan}
    (h : planArpStorm identity (some policy) path intent = .ok plan) :
    Allowed policy (.arp plan.document) := by
  simp only [planArpStorm, check_bind_eq_ok, planCheck_eq_ok] at h
  obtain ⟨hbroadcast, h⟩ := h
  obtain ⟨path, -, h⟩ := bind_eq_ok.mp h
  rw [check_bind_eq_ok] at h
  obtain ⟨roles, -, h⟩ := bind_eq_ok.mp h.2
  simp only [planArpSenders, check_bind_eq_ok, planCheck_eq_ok] at h
  obtain ⟨hpool, h⟩ := h
  obtain ⟨macEnd, -, h⟩ := bind_eq_ok.mp h
  obtain ⟨ipv4End, -, h⟩ := bind_eq_ok.mp h
  simp only [check_bind_eq_ok, planCheck_eq_ok] at h
  obtain ⟨hmacs, hnetworks, hpps, hbpsL1, h⟩ := h
  obtain ⟨first, target, hfirst, htarget, hcovered, hallowed⟩ := checkArpNetworks_eq_ok hnetworks
  split at h
  · cases h
  · next document hdocument =>
    rw [check_bind_eq_ok, planCheck_eq_ok] at h
    obtain ⟨hduration, h⟩ := h
    cases h
    simp only [arpDocument, Option.bind_eq_bind, Option.bind_eq_some_iff, arpStormTarget, htarget,
      Option.some.injEq, exists_eq_left'] at hdocument
    obtain ⟨limits, -, senders, hsenders, storm, hstorm, run, hrun, hdocument⟩ := hdocument
    unfold arpStormSenders at hsenders
    split at hsenders
    · cases hsenders
      split at hstorm
      · cases hstorm
        split at hdocument
        · cases hdocument
          refine .of_run (toOption_eq_some hrun) hduration hpps hbpsL1 ?_
          show validateArp policy _ = .ok ()
          simp only [validateArp, check_bind_eq_ok, require_eq_ok]
          refine ⟨hbroadcast, natCast_le_of_toNat hpool, hmacs, ?_⟩
          rw [parseAddresses_pair hfirst rfl]
          exact require_eq_ok.mpr ⟨hcovered, hallowed⟩
        · cases hdocument
      · cases hstorm
    · cases hsenders

end Storm

/-! ### Planned workloads -/

theorem checkNetworks_eq_ok {policy : SafetyPolicy} {label : String} {address : AddressText}
    (h : checkNetworks policy label address = .ok ()) :
    ∃ a, address.parsed = some a ∧ policy.allowsAddress a = true := by
  unfold checkNetworks at h
  dsimp only at h
  split at h
  · cases h
  · split at h
    · next a ha => exact ⟨a, ha, planCheck_eq_ok.mp h⟩
    · cases h

/-- The parts of a document that the checks look at are those of the request. -/
theorem udpWorkloadDocument_eq_some {datagram : Capture.DatagramCaptureAnalysis}
    {capture : Capture.CaptureResourceDocument Capture.CaptureAnalysis} {path : LabPath}
    {intent : UdpWorkloadIntent} {initiator responder : DatagramReplayRole}
    {templates : List (Capture.DatagramWorkloadTemplateAnalysis ×
      Capture.CapturedDatagramFlowAnalysis)} {document : UdpWorkloadDocument}
    (h : udpWorkloadDocument datagram capture path intent initiator responder templates =
      some document) :
    document.spec.initiator = initiator ∧ document.spec.responder = responder ∧
      document.spec.run.estimatedPps = estimatedPps datagram intent.fps ∧
      document.spec.run.estimatedBpsL1 = estimatedBpsL1 datagram intent.fps := by
  simp only [udpWorkloadDocument, Option.bind_eq_bind, Option.bind_eq_some_iff] at h
  obtain ⟨_, -, _, -, limits, -, bindings, -, workload, -, duration, -, run, hrun, h⟩ := h
  unfold workloadRun at hrun
  split at hrun
  · cases hrun
    split at h
    · cases h
      exact ⟨rfl, rfl, rfl, rfl⟩
    · cases h
  · cases hrun

/-- What is left of the checks of a planned UDP workload. -/
theorem validate_of_planUdpWorkload {identity : UdpWorkloadDocument → Text} {policy : SafetyPolicy}
    {capture : Except String (Capture.CaptureResourceDocument Capture.CaptureAnalysis)}
    {path : Except PlanningError LabPath} {intent : UdpWorkloadIntent} {plan : UdpWorkloadPlan}
    (h : planUdpWorkload identity (some policy) capture path intent = .ok plan)
    (logicalPorts : List PortId) :
    validateUdpWorkload logicalPorts policy plan.document.spec = (do
      policy.checkLimits plan.document.spec.limits
      checkPorts logicalPorts [plan.document.spec.initiator.port, plan.document.spec.responder.port]) := by
  obtain ⟨capture, -, h⟩ := bind_eq_ok.mp h
  split at h
  · cases h
  · next datagram _ =>
    simp only [check_bind_eq_ok] at h
    obtain ⟨-, -, h⟩ := h
    obtain ⟨path, -, h⟩ := bind_eq_ok.mp h
    obtain ⟨⟨initiator, responder⟩, -, h⟩ := bind_eq_ok.mp h
    rw [check_bind_eq_ok] at h
    obtain ⟨hroles, h⟩ := h
    obtain ⟨templates, -, h⟩ := bind_eq_ok.mp h
    simp only [check_bind_eq_ok, planCheck_eq_ok] at h
    obtain ⟨hpps, hbpsL1, h⟩ := h
    split at h
    · cases h
    · next document hdocument =>
      simp only [check_bind_eq_ok, planCheck_eq_ok] at h
      obtain ⟨-, hduration, h⟩ := h
      cases h
      obtain ⟨rfl, rfl, hestimatedPps, hestimatedBpsL1⟩ := udpWorkloadDocument_eq_some hdocument
      simp only [checkRoles, check_bind_eq_ok, planCheck_eq_ok] at hroles
      obtain ⟨hipv4, hipv4', hmac, hmac'⟩ := hroles
      have hmacs : ∀ mac ∈ [document.spec.initiator.mac, document.spec.responder.mac],
          policy.allowsMacText mac = true := by
        intro mac hmem
        rcases List.mem_pair.mp hmem with rfl | rfl
        · exact hmac
        · exact hmac'
      rw [validateUdpWorkload, hestimatedPps, hestimatedBpsL1, require_bind hduration,
        require_bind hpps, require_bind hbpsL1, require_bind hmacs,
        checkAddresses_pair (checkNetworks_eq_ok hipv4) (checkNetworks_eq_ok hipv4'), bind_ok_unit]

theorem checkPool_eq_ok {policy : SafetyPolicy} {label : String} {start stop : AddressText}
    {pool : Nat × Nat} (h : checkPool policy label start stop = .ok pool) :
    pool.2 - pool.1 + 1 ≤ policy.maxAddressPoolSize ∧
      ipv4RangeAllowed pool.1 pool.2 policy.allowedCidrs = true := by
  obtain ⟨first, -, h⟩ := bind_eq_ok.mp h
  obtain ⟨last, -, h⟩ := bind_eq_ok.mp h
  simp only [check_bind_eq_ok, planCheck_eq_ok] at h
  obtain ⟨-, hsize, hrange, h⟩ := h
  cases h
  exact ⟨hsize, hrange⟩

theorem ipv4Pool_eq_some {numbers : Nat × Nat} {pool : Ipv4Pool} (h : ipv4Pool numbers = some pool) :
    pool.first = numbers.1 ∧ pool.last = numbers.2 := by
  unfold ipv4Pool at h
  split at h
  · cases h
    exact ⟨rfl, rfl⟩
  · cases h

/-- A pool that the planner has checked passes. -/
theorem validatePool_of_checkPool {policy : SafetyPolicy} {label label' : String}
    {start stop : AddressText} {numbers : Nat × Nat} {pool : Ipv4Pool}
    (h : checkPool policy label start stop = .ok numbers) (hpool : ipv4Pool numbers = some pool) :
    validatePool policy label' pool = .ok () := by
  obtain ⟨hsize, hrange⟩ := checkPool_eq_ok h
  obtain ⟨hfirst, hlast⟩ := ipv4Pool_eq_some hpool
  simp only [validatePool, check_bind_eq_ok, require_eq_ok, Ipv4Pool.cardinality, hfirst, hlast]
  exact ⟨hsize, hrange⟩

theorem transportPortPool_eq_some {first last : Int} {pool : TransportPortPool}
    (h : transportPortPool first last = some pool) : (pool.cardinality : Int) = last - first + 1 := by
  unfold transportPortPool at h
  split at h
  · next hvalid =>
    cases h
    show ((last.toNat - first.toNat + 1 : Nat) : Int) = _
    omega
  · cases h

/-- The capacity of the pools of the client, as the planner computes it. -/
theorem cardinality_mul {numbers : Nat × Nat} {first last : Int} {pool : Ipv4Pool}
    {ports : TransportPortPool} (hpool : ipv4Pool numbers = some pool)
    (hports : transportPortPool first last = some ports) :
    ((pool.cardinality * ports.cardinality : Nat) : Int) =
      (numbers.2 - numbers.1 + 1 : Int) * (last - first + 1) := by
  obtain ⟨hfirst, hlast⟩ := ipv4Pool_eq_some hpool
  have hle := pool.le
  have hcount : (pool.cardinality : Int) = numbers.2 - numbers.1 + 1 := by
    rw [Ipv4Pool.cardinality, ← hfirst, ← hlast]
    omega
  rw [Int.natCast_mul, hcount, transportPortPool_eq_some hports]

/-- The parts of a document that the checks look at are those of the request. -/
theorem statefulReplayDocument_eq_some {stateful : Capture.StatefulCaptureAnalysis}
    {capture : Capture.CaptureResourceDocument Capture.CaptureAnalysis} {path : LabPath}
    {intent : CaptureWorkloadIntent} {clientPort serverPort : PortId} {clientPool serverPool : Nat × Nat}
    {allocations : List (String × Nat)} {document : StatefulReplayDocument}
    (h : statefulReplayDocument stateful capture path intent clientPort serverPort clientPool serverPool
      allocations = some document) :
    ipv4Pool clientPool = some document.spec.client.ipv4Pool ∧
      transportPortPool intent.clientPortStart intent.clientPortEnd =
        some document.spec.client.transportPortPool ∧
      ipv4Pool serverPool = some document.spec.server.ipv4Pool ∧
      document.spec.run.cps = intent.cps ∧
      document.spec.run.maxActiveConnections = intent.maxActiveConnections := by
  simp only [statefulReplayDocument, Option.bind_eq_bind, Option.bind_eq_some_iff] at h
  obtain ⟨_, -, _, -, limits, -, templates, -, workload, -, clientIpv4, hclient, ports, hports,
    serverIpv4, hserver, duration, -, run, hrun, h⟩ := h
  unfold statefulReplayRun at hrun
  split at hrun
  · cases hrun
    split at h
    · cases h
      exact ⟨hclient, hports, hserver, rfl, rfl⟩
    · cases h
  · cases hrun

/-- What is left of the checks of a planned capture workload. -/
theorem validate_of_planCaptureWorkload {identity : StatefulReplayDocument → Text}
    {policy : SafetyPolicy}
    {capture : Except String (Capture.CaptureResourceDocument Capture.CaptureAnalysis)}
    {path : Except PlanningError LabPath} {intent : CaptureWorkloadIntent} {plan : StatefulReplayPlan}
    (h : planCaptureWorkload identity (some policy) capture path intent = .ok plan)
    (logicalPorts : List PortId) :
    validateStatefulReplay logicalPorts policy plan.document.spec = (do
      policy.checkLimits plan.document.spec.limits
      checkPorts logicalPorts [plan.document.spec.client.port, plan.document.spec.server.port]) := by
  obtain ⟨capture, -, h⟩ := bind_eq_ok.mp h
  split at h
  · cases h
  · next stateful _ =>
    simp only [check_bind_eq_ok] at h
    obtain ⟨-, -, -, h⟩ := h
    obtain ⟨path, -, h⟩ := bind_eq_ok.mp h
    obtain ⟨⟨client, server⟩, -, h⟩ := bind_eq_ok.mp h
    simp only [planSessions, check_bind_eq_ok, planCheck_eq_ok] at h
    obtain ⟨hcps, hactive, h⟩ := h
    obtain ⟨clientPool, hclientPool, h⟩ := bind_eq_ok.mp h
    obtain ⟨serverPool, hserverPool, h⟩ := bind_eq_ok.mp h
    simp only [check_bind_eq_ok, planCheck_eq_ok] at h
    obtain ⟨-, hcapacity, h⟩ := h
    obtain ⟨allocations, -, h⟩ := bind_eq_ok.mp h
    split at h
    · cases h
    · next document hdocument =>
      rw [check_bind_eq_ok, planCheck_eq_ok] at h
      obtain ⟨hduration, h⟩ := h
      cases h
      obtain ⟨hclient, hports, hserver, hrunCps, hrunActive⟩ := statefulReplayDocument_eq_some hdocument
      have hfits : intent.maxActiveConnections ≤ document.spec.client.ipv4Pool.cardinality *
          document.spec.client.transportPortPool.cardinality := by
        rw [← cardinality_mul hclient hports] at hcapacity
        exact Int.ofNat_le.mp hcapacity
      rw [validateStatefulReplay, hrunCps, hrunActive, require_bind hduration, require_bind hcps,
        require_bind hactive, validatePool_of_checkPool hclientPool hclient,
        validatePool_of_checkPool hserverPool hserver, require, if_pos hfits]
      exact congrArg _ (funext fun _ => bind_ok_unit _)

/-! ### Planned documents -/

/-- The documents of the planners. -/
inductive PlannedDocument where
  | storm (spec : PacketStormSpec)
  | workload (document : WorkloadDocument)

namespace PlannedDocument

/-- `_validate_policy` -/
def validate (logicalPorts : List PortId) (policy : StormPolicy) : PlannedDocument → Except Exc Unit
  | storm spec => validatePacketStorm logicalPorts policy spec
  | workload document => validateWorkload logicalPorts policy.toSafetyPolicy document

def limits : PlannedDocument → Limits
  | storm spec => spec.limits
  | workload (.udpWorkload spec) => spec.limits
  | workload (.statefulReplay spec) => spec.limits

def logicalPorts : PlannedDocument → List PortId
  | storm spec => spec.logicalPorts
  | workload (.udpWorkload spec) => [spec.initiator.port, spec.responder.port]
  | workload (.statefulReplay spec) => [spec.client.port, spec.server.port]

/-- The duration of a storm is compared with the time that the job may take. -/
def checkJobTimeout : PlannedDocument → Except Exc Unit
  | storm spec => require (spec.run.duration ≤ spec.limits.jobTimeout)
      (unsafeRequest "Packet Storm duration exceeds a configured limit")
  | workload _ => .ok ()

/-- The checks that the planners leave to the agent. -/
def remaining (configured : List PortId) (policy : StormPolicy) (document : PlannedDocument) :
    Except Exc Unit := do
  policy.checkLimits document.limits
  checkPorts configured document.logicalPorts
  document.checkJobTimeout

end PlannedDocument

/-- The document of a plan that was made under a policy. -/
inductive PlannedUnder (policy : StormPolicy) : PlannedDocument → Prop
  | dnsStorm {identity path intent plan}
    (h : planDnsStorm identity (some policy.toSafetyPolicy) path intent = .ok plan) :
    PlannedUnder policy (.storm (.dns plan.document))
  | dhcpStorm {identity path intent plan}
    (h : planDhcpStorm identity (some policy) path intent = .ok plan) :
    PlannedUnder policy (.storm (.dhcp plan.document))
  | arpStorm {identity path intent plan}
    (h : planArpStorm identity (some policy) path intent = .ok plan) :
    PlannedUnder policy (.storm (.arp plan.document))
  | udpWorkload {identity capture path intent plan}
    (h : planUdpWorkload identity (some policy.toSafetyPolicy) capture path intent = .ok plan) :
    PlannedUnder policy (.workload (.udpWorkload plan.document.spec))
  | captureWorkload {identity capture path intent plan}
    (h : planCaptureWorkload identity (some policy.toSafetyPolicy) capture path intent = .ok plan) :
    PlannedUnder policy (.workload (.statefulReplay plan.document.spec))

theorem remaining_of_planned {policy : StormPolicy} {document : PlannedDocument}
    (h : PlannedUnder policy document) (configured : List PortId) :
    document.validate configured policy = document.remaining configured policy := by
  cases h with
  | dnsStorm h => exact (allowed_of_planDnsStorm h).validate configured
  | dhcpStorm h => exact (allowed_of_planDhcpStorm h).validate configured
  | arpStorm h => exact (allowed_of_planArpStorm h).validate configured
  | udpWorkload h =>
    refine (validate_of_planUdpWorkload h configured).trans (congrArg _ ?_)
    exact funext fun _ => (bind_ok_unit _).symm
  | captureWorkload h =>
    refine (validate_of_planCaptureWorkload h configured).trans (congrArg _ ?_)
    exact funext fun _ => (bind_ok_unit _).symm

theorem PlannedDocument.checkJobTimeout_eq_ok {document : PlannedDocument} :
    document.checkJobTimeout = .ok () ↔
      ∀ spec, document = .storm spec → spec.run.duration ≤ spec.limits.jobTimeout := by
  cases document with
  | storm spec =>
    rw [checkJobTimeout, require_eq_ok]
    refine ⟨fun h spec' hspec => ?_, fun h => h spec rfl⟩
    cases hspec
    exact h
  | workload document =>
    refine ⟨fun _ spec hspec => ?_, fun _ => rfl⟩
    cases hspec

/-- A document that was planned under the policy of the agent is refused only by the checks that no
planner makes, and is accepted when they pass. -/
theorem validate_planned {policy : StormPolicy} {document : PlannedDocument}
    (h : PlannedUnder policy document) (configured : List PortId) :
    document.validate configured policy = document.remaining configured policy ∧
    (document.validate configured policy = .ok () ↔
      document.limits.jobTimeout ≤ policy.maxJobTimeout ∧
      document.limits.portWaitTimeout ≤ policy.maxPortWaitTimeout ∧
      (∀ port ∈ document.logicalPorts, port ∈ configured) ∧
      ∀ spec, document = .storm spec → spec.run.duration ≤ spec.limits.jobTimeout) := by
  have heq := remaining_of_planned h configured
  refine ⟨heq, ?_⟩
  rw [heq]
  simp only [PlannedDocument.remaining, SafetyPolicy.checkLimits, checkPorts, check_bind_eq_ok,
    require_eq_ok, PlannedDocument.checkJobTimeout_eq_ok, and_assoc]

/-- Two stations of one broadcast domain, with jobs of half a minute. -/
def halfMinutePath : BroadcastPath where
  name := "lab"
  revision := 1
  digest := ""
  roles := [("client", ⟨0, some "02:11:22:33:44:00", none⟩), ("server", ⟨1, none, none⟩)]
  portWaitTimeout := some 1000
  trafficJobTimeout := some 30000
  broadcastDomain := true

/-- A storm of four clients, for a minute. -/
def minuteStorm : Except PlanningError DhcpStormPlan :=
  planDhcpStorm (fun _ => []) (some broadcastPolicy) (.ok halfMinutePath)
    { clientRole := "client", serverRole := "server", clients := 4, pps := 100
      duration := some 60000 }

/-- A planner accepts a storm that lasts longer than its job may take, and the agent refuses it. -/
theorem validate_planned_minuteStorm : ∃ plan, minuteStorm = .ok plan ∧
    PlannedDocument.validate [0, 1] broadcastPolicy (.storm (.dhcp plan.document)) ≠ .ok () := by
  have hplan : minuteStorm.toOption.map (fun plan =>
      (plan.document.run.duration, plan.document.limits.jobTimeout)) = some (60000, 30000) := by
    decide +kernel
  obtain ⟨plan, hplan, htimes⟩ := Option.map_eq_some_iff.mp hplan
  have hplan := toOption_eq_some hplan
  refine ⟨plan, hplan, fun h => ?_⟩
  have hduration := ((validate_planned (.dhcpStorm hplan) [0, 1]).2.mp h).2.2.2 _ rfl
  obtain ⟨hrun, hlimits⟩ := Prod.ext_iff.mp htimes
  have hle : plan.document.run.duration ≤ plan.document.limits.jobTimeout := hduration
  dsimp only at hrun hlimits
  omega

end TrexCli
