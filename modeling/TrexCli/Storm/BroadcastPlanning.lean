import TrexCli.Storm.Planning
import TrexCli.Workload.CapturePlanning

/-!
# Planning a broadcast storm

`plan_dhcp_storm` and `plan_arp_storm` of `test_plan.py`, up to the files of the plans. The pool of
addresses is computed from the first address of a role and the count that is asked for.
-/

namespace TrexCli.Storm

/-- `LabPathResource`, with the field that only broadcast storms look at; `isolated_lab` is the
constant true. -/
structure BroadcastPath extends LabPath where
  broadcastDomain : Bool

/-! ### DHCP -/

/-- What is asked for; of the duration, what `_parse_duration` makes of it. -/
structure DhcpIntent where
  clientRole : String
  serverRole : String
  clients : Int
  pps : ℚ
  duration : Option Nat

/-- `DhcpStormPlan` -/
structure DhcpStormPlan where
  planId : Text
  path : LabPath
  document : DhcpStormSpec

/-- What `DhcpStormClients` makes of its fields. -/
def dhcpStormClients (port : PortId) (macStart macEnd : Text) (count : Nat) : Option DhcpStormClients :=
  if h : 1 ≤ count ∧ dhcpClientMacEnd macStart count = .ok (macEnd.map Char.toLower) then
    some ⟨port, macStart, macEnd, count, h.1, h.2⟩
  else none

/-- `PacketStormDocument.model_validate`, of a DHCP storm. -/
def dhcpDocument (path : LabPath) (intent : DhcpIntent) (clientPort serverPort : PortId)
    (macStart macEnd : Text) (wireSize : Nat) : Option DhcpStormSpec := do
  let limits ← (stormLimits path).toOption
  let clients ← dhcpStormClients clientPort macStart macEnd intent.clients.toNat
  let run ← (stormRun intent.pps wireSize (intent.pps * (wireSize + 20) * 8) intent.duration).toOption
  if h : clients.port ≠ serverPort ∧ run.wireSize = dhcpDiscoverWireSize 244 then
    some ⟨limits, clients, serverPort, run, h.1, h.2⟩
  else none

/-- The roles of a DHCP storm: the port and the address of the client, and the port of the server. -/
def dhcpRoles (path : LabPath) (intent : DhcpIntent) : Except PlanningError ((PortId × Text) × PortId) :=
  match path.roles.lookup intent.clientRole, path.roles.lookup intent.serverRole with
  | some client, some server => do
    planCheck (client.port ≠ server.port) "DHCP storm roles must use different ports"
    match client.mac with
    | some mac => .ok ((client.port, mac.toList), server.port)
    | none => .error (.testPlan "DHCP storm client role requires a MAC address")
  | _, _ => .error (.testPlan "LabPath does not define both DHCP storm roles")

/-- `plan_dhcp_storm` from the size of the pool on. The payload of a Discover has 244 octets, whatever
the address in it. -/
def planDhcpClients (identity : DhcpStormSpec → Text) (policy : StormPolicy) (path : LabPath)
    (intent : DhcpIntent) (client : PortId × Text) (serverPort : PortId) :
    Except PlanningError DhcpStormPlan := do
  let wireSize := dhcpDiscoverWireSize 244
  planCheck (intent.clients ≤ policy.maxAddressPoolSize)
    "DHCP client identity pool exceeds maxAddressPoolSize"
  let macEnd ← (dhcpClientMacEnd client.2 intent.clients).mapError .testPlan
  planCheck (policy.allowsMacRange client.2 macEnd = true)
    "DHCP client identity pool is outside allowedMacPrefixes"
  planCheck (intent.pps ≤ policy.maxPps) "DHCP storm pps exceeds the SafetyPolicy maximum"
  planCheck (intent.pps * (wireSize + 20) * 8 ≤ policy.maxBpsL1)
    "DHCP storm estimatedBpsL1 exceeds the SafetyPolicy maximum"
  match dhcpDocument path intent client.1 serverPort client.2 macEnd wireSize with
  | none => .error .refusedDocument
  | some document => do
    planCheck (document.run.duration ≤ policy.maxRunDuration)
      "DHCP storm duration exceeds the SafetyPolicy maximum"
    pure ⟨"plan_".toList ++ identity document, path, document⟩

/-- `plan_dhcp_storm`, up to `_persist`. `identity` are the digits of the hash of the canonical document;
`path` is what `_load_path` returns. -/
def planDhcpStorm (identity : DhcpStormSpec → Text) (policy : Option StormPolicy)
    (path : Except PlanningError BroadcastPath) (intent : DhcpIntent) :
    Except PlanningError DhcpStormPlan :=
  match policy with
  | none => .error (.testPlan "DHCP storm requires a configured SafetyPolicy")
  | some policy => do
    planCheck (policy.allowBroadcastStorms = true) "DHCP storm requires allowBroadcastStorms"
    let path ← path
    planCheck (path.broadcastDomain = true)
      "DHCP storm requires a Layer-2 broadcast domain LabPath"
    let (client, serverPort) ← dhcpRoles path.toLabPath intent
    planDhcpClients identity policy path.toLabPath intent client serverPort

/-! ### ARP -/

/-- What is asked for; of the duration, what `_parse_duration` makes of it. -/
structure ArpIntent where
  senderRole : String
  targetRole : String
  senders : Int
  pps : ℚ
  duration : Option Nat

/-- `ArpStormPlan` -/
structure ArpStormPlan where
  planId : Text
  path : LabPath
  document : ArpStormSpec

/-- The roles of an ARP storm. -/
structure ArpRoles where
  senderPort : PortId
  senderMac : Text
  senderIpv4 : AddressText
  targetPort : PortId
  targetIpv4 : AddressText

/-- What `ArpStormSenders` makes of its fields; the text of the last address is the one `str` gives. -/
def arpStormSenders (port : PortId) (macStart macEnd : Text) (ipv4Start : AddressText)
    (ipv4End : IpAddress) (count : Nat) : Option ArpStormSenders :=
  if h : 1 ≤ count ∧ arpSenderMacEnd macStart count = .ok (macEnd.map Char.toLower) ∧
      arpSenderIpv4End ipv4Start count = .ok ipv4End then
    some ⟨port, macStart, macEnd, ipv4Start, ⟨some ipv4End, true⟩, count, h.1, h.2.1,
      ipv4End, h.2.2, rfl, rfl⟩
  else none

/-- What `ArpStormTarget` makes of its fields. -/
def arpStormTarget (port : PortId) (ipv4 : AddressText) : Option ArpStormTarget := do
  let address ← ipv4.parsed
  if h : address.version = .v4 then some ⟨port, address, h⟩ else none

/-- `PacketStormDocument.model_validate`, of an ARP storm. -/
def arpDocument (path : LabPath) (intent : ArpIntent) (roles : ArpRoles) (macEnd : Text)
    (ipv4End : IpAddress) : Option ArpStormSpec := do
  let limits ← (stormLimits path).toOption
  let senders ← arpStormSenders roles.senderPort roles.senderMac macEnd roles.senderIpv4 ipv4End
    intent.senders.toNat
  let target ← arpStormTarget roles.targetPort roles.targetIpv4
  let run ← (stormRun intent.pps arpRequestWireSize (intent.pps * (arpRequestWireSize + 20) * 8)
    intent.duration).toOption
  if h : senders.port ≠ target.port ∧ run.wireSize = arpRequestWireSize then
    some ⟨limits, senders, target, run, h.1, h.2⟩
  else none

def arpRoles (path : LabPath) (intent : ArpIntent) : Except PlanningError ArpRoles :=
  match path.roles.lookup intent.senderRole, path.roles.lookup intent.targetRole with
  | some sender, some target => do
    planCheck (sender.port ≠ target.port) "ARP storm roles must use different ports"
    match sender.mac, sender.ipv4, target.ipv4 with
    | some mac, some senderIpv4, some targetIpv4 =>
      .ok ⟨sender.port, mac.toList, senderIpv4, target.port, targetIpv4⟩
    | _, _, _ => .error (.testPlan "ARP storm roles require sender MAC/IPv4 and target IPv4")
  | _, _ => .error (.testPlan "LabPath does not define both ARP storm roles")

/-- The checks of `allowedCidrs`. The text of the first sender has been read for the last one; that of
the target is read only when there are networks. -/
def checkArpNetworks (policy : SafetyPolicy) (roles : ArpRoles) (ipv4End : IpAddress) :
    Except PlanningError Unit :=
  match roles.senderIpv4.parsed with
  | none => .error .notAddress
  | some first => do
    planCheck (∃ network ∈ policy.allowedCidrs, network.contains first = true ∧
        network.contains ipv4End = true) "ARP sender identity pool is outside allowedCidrs"
    match roles.targetIpv4.parsed with
    | none => .error .notAddress
    | some target =>
      planCheck (policy.allowsAddress target = true) "ARP target IPv4 is outside allowedCidrs"

/-- `plan_arp_storm` from the size of the pool on. -/
def planArpSenders (identity : ArpStormSpec → Text) (policy : StormPolicy) (path : LabPath)
    (intent : ArpIntent) (roles : ArpRoles) : Except PlanningError ArpStormPlan := do
  planCheck (intent.senders ≤ policy.maxAddressPoolSize)
    "ARP sender identity pool exceeds maxAddressPoolSize"
  let macEnd ← (arpSenderMacEnd roles.senderMac intent.senders).mapError .testPlan
  let ipv4End ← (arpSenderIpv4End roles.senderIpv4 intent.senders.toNat).mapError .testPlan
  planCheck (policy.allowsMacRange roles.senderMac macEnd = true)
    "ARP sender identity pool is outside allowedMacPrefixes"
  checkArpNetworks policy.toSafetyPolicy roles ipv4End
  planCheck (intent.pps ≤ policy.maxPps) "ARP storm pps exceeds the SafetyPolicy maximum"
  planCheck (intent.pps * (arpRequestWireSize + 20) * 8 ≤ policy.maxBpsL1)
    "ARP storm estimatedBpsL1 exceeds the SafetyPolicy maximum"
  match arpDocument path intent roles macEnd ipv4End with
  | none => .error .refusedDocument
  | some document => do
    planCheck (document.run.duration ≤ policy.maxRunDuration)
      "ARP storm duration exceeds the SafetyPolicy maximum"
    pure ⟨"plan_".toList ++ identity document, path, document⟩

/-- `plan_arp_storm`, up to `_persist`, as `planDhcpStorm`. -/
def planArpStorm (identity : ArpStormSpec → Text) (policy : Option StormPolicy)
    (path : Except PlanningError BroadcastPath) (intent : ArpIntent) :
    Except PlanningError ArpStormPlan :=
  match policy with
  | none => .error (.testPlan "ARP storm requires a configured SafetyPolicy")
  | some policy => do
    planCheck (policy.allowBroadcastStorms = true) "ARP storm requires allowBroadcastStorms"
    let path ← path
    planCheck (path.broadcastDomain = true) "ARP storm requires a Layer-2 broadcast domain LabPath"
    let roles ← arpRoles path.toLabPath intent
    planArpSenders identity policy path.toLabPath intent roles

/-! ### What a plan holds -/

theorem toOption_eq_some {ε α : Type} {m : Except ε α} {a : α} (h : m.toOption = some a) : m = .ok a := by
  cases m with
  | error _ => cases h
  | ok _ => exact congrArg Except.ok (Option.some.inj h)

theorem parseAddresses_pair {x y : AddressText} {a b : IpAddress} (hx : x.parsed = some a)
    (hy : y.parsed = some b) : parseAddresses [x, y] = .ok [a, b] := by
  refine mapM_eq_ok.mpr (.cons ?_ (.cons ?_ .nil))
  · rw [hx]
  · rw [hy]

theorem stormRun_pps {pps : ℚ} {wireSize : Nat} {estimatedBpsL1 : ℚ} {duration : Option Nat}
    {run : PacketStormRun} (h : stormRun pps wireSize estimatedBpsL1 duration = .ok run) :
    run.pps = pps := by
  unfold stormRun at h
  split at h
  · cases h
  · split at h
    · split at h
      · cases h
        rfl
      · cases h
    · cases h

/-- The pool of a count that is not negative. -/
theorem natCast_le_of_toNat {count : Int} {size : Nat} (h : count ≤ size) : count.toNat ≤ size := by
  omega

end TrexCli.Storm
