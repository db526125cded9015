import Mathlib.Data.List.Induction
import TrexCli.Capture.Session
import TrexCli.Policy.Safety

/-!
# The analysis of a capture

`analyze_capture` of `pcap_catalog.py`, of a file whose records `dpkt` has parsed as Ethernet frames.
A set is the list of its elements in the order in which they were added.
-/

namespace TrexCli.Capture

/-- `_increment` -/
def increment (values : List (String × Nat)) (name : String) : List (String × Nat) :=
  if values.any fun item => item.1 = name then
    values.map fun item => if item.1 = name then (name, item.2 + 1) else item
  else values ++ [(name, 1)]

/-- `add` -/
def addTo {α : Type} [DecidableEq α] (values : List α) (value : α) : List α :=
  if value ∈ values then values else values ++ [value]

/-- The local variables of the loop. `previous_timestamp` is `last_timestamp`. -/
structure CaptureScan where
  protocols : List (String × Nat) := []
  endpoints : List IpAddress := []
  macEndpoints : List HardwareAddress := []
  vlanIds : List Nat := []
  packetCount : Nat := 0
  capturedBytes : Nat := 0
  firstTimestamp : Option ℚ := none
  lastTimestamp : Option ℚ := none
  minimumTimestamp : Option ℚ := none
  maximumTimestamp : Option ℚ := none
  nonMonotonic : Nat := 0
  maximumBackwardJump : ℚ := 0
  normalizedDuration : ℚ := 0
  broadcastPackets : Nat := 0
  multicastPackets : Nat := 0
  sessionAnalyzer : StatefulSessionAnalyzer := {}
  datagramAnalyzer : DatagramFlowAnalyzer := {}

namespace CaptureScan

variable (scan : CaptureScan)

/-- The timestamps of the loop, with one more. -/
def observeTime (timestamp : ℚ) : CaptureScan :=
  { scan with
    firstTimestamp := some (scan.firstTimestamp.getD timestamp)
    lastTimestamp := some timestamp
    minimumTimestamp := some (scan.minimumTimestamp.elim timestamp (min · timestamp))
    maximumTimestamp := some (scan.maximumTimestamp.elim timestamp (max · timestamp))
    nonMonotonic := scan.nonMonotonic +
      scan.lastTimestamp.elim 0 fun previous => if timestamp < previous then 1 else 0
    maximumBackwardJump := scan.lastTimestamp.elim scan.maximumBackwardJump fun previous =>
      if timestamp < previous then max scan.maximumBackwardJump (previous - timestamp)
      else scan.maximumBackwardJump
    normalizedDuration := scan.normalizedDuration +
      scan.lastTimestamp.elim 0 fun previous => max 0 (timestamp - previous) }

/-- The hardware addresses and VLAN tags of the loop, with those of a frame. -/
def observeLink (ethernet : Ethernet) : CaptureScan :=
  { scan with
    macEndpoints := addTo (addTo scan.macEndpoints ethernet.src) ethernet.dst
    broadcastPackets := scan.broadcastPackets + ethernet.broadcast.toNat
    multicastPackets := scan.multicastPackets +
      (!ethernet.broadcast && ethernet.dst.group).toNat
    vlanIds := ethernet.vlanTags.foldl addTo scan.vlanIds }

/-- The protocols and addresses of the loop, with those of the data of a frame. -/
def observeNetwork (network : Network) : CaptureScan :=
  match network with
  | .ip ip =>
    let protocols := increment scan.protocols "ipv4"
    { scan with
      endpoints := addTo (addTo scan.endpoints ip.src.address) ip.dst.address
      protocols := match ip.data with
        | .udp _ => increment protocols "udp"
        | .tcp _ => increment protocols "tcp"
        | .icmp => increment protocols "icmp"
        | .other => protocols }
  | .arp arp =>
    let protocols := increment scan.protocols "arp"
    if arp.pro ≠ 0x0800 ∨ arp.pln ≠ 4 then
      { scan with protocols := increment protocols "unsupported-network" }
    else
      { scan with
        protocols
        endpoints := addTo (addTo scan.endpoints arp.spa.address) arp.tpa.address }
  | .other => { scan with protocols := increment scan.protocols "unsupported-network" }

/-- The body of the loop. -/
def step (packet : Packet) : CaptureScan :=
  let counted := { scan.observeTime packet.timestamp with
    packetCount := scan.packetCount + 1
    capturedBytes := scan.capturedBytes + packet.size
    protocols := increment scan.protocols "ethernet"
    sessionAnalyzer := scan.sessionAnalyzer.observe {} packet.ethernet
    datagramAnalyzer := scan.datagramAnalyzer.observe {} packet.timestamp packet.ethernet }
  (counted.observeLink packet.ethernet).observeNetwork packet.ethernet.data

end CaptureScan

/-- `CaptureSafetySummary` -/
structure CaptureSafetySummary where
  benchmarkIpv4Endpoints : List IpAddress
  privateIpv4Endpoints : List IpAddress
  publicIpv4Endpoints : List IpAddress
  hasBroadcast : Bool
  hasMulticast : Bool

/-- `CaptureAnalysis` -/
structure CaptureAnalysis where
  packetCount : Nat
  capturedBytes : Nat
  firstTimestampSeconds : Option ℚ
  lastTimestampSeconds : Option ℚ
  durationSeconds : ℚ
  normalizedDurationSeconds : ℚ
  nonMonotonicTimestampCount : Nat
  maximumBackwardJumpSeconds : ℚ
  protocols : List (String × Nat)
  macEndpoints : List HardwareAddress
  ipv4Endpoints : List IpAddress
  vlanIds : List Nat
  broadcastPackets : Nat
  multicastPackets : Nat
  safety : CaptureSafetySummary
  stateful : Option StatefulCaptureAnalysis
  datagram : Option DatagramCaptureAnalysis
  valid : 0 ≤ durationSeconds ∧ 0 ≤ normalizedDurationSeconds ∧ 0 ≤ maximumBackwardJumpSeconds

/-- `benchmark_network`: 198.18.0.0/15 -/
def benchmarkNetwork : TrexCli.Network := ⟨.v4, 3323068416, 15, Lab.network_le⟩

/-- `private_networks`: 10.0.0.0/8, 172.16.0.0/12 and 192.168.0.0/16 -/
def privateNetworks : List TrexCli.Network :=
  [⟨.v4, 167772160, 8, by decide⟩, ⟨.v4, 2886729728, 12, by decide⟩, ⟨.v4, 3232235520, 16, by decide⟩]

/-- The safety summary of a scan, whose addresses are `ordered`. -/
def CaptureScan.safety (scan : CaptureScan) (ordered : List IpAddress) : CaptureSafetySummary :=
  let benchmark := ordered.filter benchmarkNetwork.contains
  let private' := ordered.filter fun a => privateNetworks.any fun network => network.contains a
  { benchmarkIpv4Endpoints := benchmark
    privateIpv4Endpoints := private'
    publicIpv4Endpoints := ordered.filter fun a => a ∉ benchmark ∧ a ∉ private'
    hasBroadcast := 0 < scan.broadcastPackets
    hasMulticast := 0 < scan.multicastPackets }

/-- The loop of `analyze_capture`. -/
def scanCapture (packets : List Packet) : CaptureScan := packets.foldl CaptureScan.step {}

/-- `duration` -/
def CaptureScan.duration (scan : CaptureScan) : ℚ :=
  match scan.minimumTimestamp, scan.maximumTimestamp with
  | some minimum, some maximum => maximum - minimum
  | _, _ => 0

/-- `analyze_capture` -/
def analyzeCapture (sha256 : Bytes → Digest) (packets : List Packet) :
    Except AnalysisError CaptureAnalysis := do
  let scan := scanCapture packets
  let ordered := scan.endpoints.insertionSort fun a b => a.value ≤ b.value
  let stateful ← scan.sessionAnalyzer.finish sha256 {}
  let datagram ← scan.datagramAnalyzer.finish sha256 {}
  validated "CaptureAnalysis" (0 ≤ scan.duration ∧ 0 ≤ scan.normalizedDuration ∧
      0 ≤ scan.maximumBackwardJump) fun h =>
    { packetCount := scan.packetCount
      capturedBytes := scan.capturedBytes
      firstTimestampSeconds := scan.firstTimestamp
      lastTimestampSeconds := scan.lastTimestamp
      durationSeconds := scan.duration
      normalizedDurationSeconds := scan.normalizedDuration
      nonMonotonicTimestampCount := scan.nonMonotonic
      maximumBackwardJumpSeconds := scan.maximumBackwardJump
      protocols := scan.protocols
      macEndpoints := scan.macEndpoints.insertionSort fun a b => a.toList ≤ b.toList
      ipv4Endpoints := ordered
      vlanIds := scan.vlanIds.insertionSort (· ≤ ·)
      broadcastPackets := scan.broadcastPackets
      multicastPackets := scan.multicastPackets
      safety := scan.safety ordered
      stateful
      datagram
      valid := h }

/-! ### The parts of the scan -/

theorem scanCapture_append_singleton (packets : List Packet) (packet : Packet) :
    scanCapture (packets ++ [packet]) = (scanCapture packets).step packet := by
  rw [scanCapture, List.foldl_append]
  rfl

namespace CaptureScan

variable {scan : CaptureScan} {packet : Packet} {network : Network}

@[simp] theorem observeNetwork_sessionAnalyzer :
    (scan.observeNetwork network).sessionAnalyzer = scan.sessionAnalyzer := by
  unfold observeNetwork
  split
  · rfl
  · dsimp only
    split <;> rfl
  · rfl

@[simp] theorem observeNetwork_datagramAnalyzer :
    (scan.observeNetwork network).datagramAnalyzer = scan.datagramAnalyzer := by
  unfold observeNetwork
  split
  · rfl
  · dsimp only
    split <;> rfl
  · rfl

theorem step_sessionAnalyzer :
    (scan.step packet).sessionAnalyzer = scan.sessionAnalyzer.observe {} packet.ethernet := by
  rw [step, observeNetwork_sessionAnalyzer]
  rfl

theorem step_datagramAnalyzer : (scan.step packet).datagramAnalyzer =
    scan.datagramAnalyzer.observe {} packet.timestamp packet.ethernet := by
  rw [step, observeNetwork_datagramAnalyzer]
  rfl

/-- The durations of a scan are not negative. -/
structure Timely (scan : CaptureScan) : Prop where
  span : ∀ minimum maximum, scan.minimumTimestamp = some minimum →
    scan.maximumTimestamp = some maximum → minimum ≤ maximum
  normalized : 0 ≤ scan.normalizedDuration
  backward : 0 ≤ scan.maximumBackwardJump

theorem Timely.observeTime (h : scan.Timely) (timestamp : ℚ) : (scan.observeTime timestamp).Timely := by
  refine ⟨?_, ?_, ?_⟩
  · rintro _ _ ⟨⟩ ⟨⟩
    cases hmin : scan.minimumTimestamp <;> cases hmax : scan.maximumTimestamp
    · exact le_rfl
    · exact le_max_right _ _
    · exact min_le_right _ _
    · exact (min_le_left _ _).trans ((h.span _ _ hmin hmax).trans (le_max_left _ _))
  · show 0 ≤ scan.normalizedDuration + _
    cases scan.lastTimestamp with
    | none => simpa using h.normalized
    | some previous => exact add_nonneg h.normalized (le_max_left _ _)
  · show (0 : ℚ) ≤ Option.elim _ _ _
    cases scan.lastTimestamp with
    | none => exact h.backward
    | some previous =>
      dsimp only [Option.elim]
      split
      · exact h.backward.trans (le_max_left _ _)
      · exact h.backward

theorem Timely.observeNetwork (h : scan.Timely) (network : Network) :
    (scan.observeNetwork network).Timely := by
  unfold CaptureScan.observeNetwork
  split
  · exact ⟨h.span, h.normalized, h.backward⟩
  · dsimp only
    split <;> exact ⟨h.span, h.normalized, h.backward⟩
  · exact ⟨h.span, h.normalized, h.backward⟩

theorem Timely.step (h : scan.Timely) (packet : Packet) : (scan.step packet).Timely := by
  have htime := h.observeTime packet.timestamp
  unfold CaptureScan.step
  refine Timely.observeNetwork ?_ _
  exact ⟨htime.span, htime.normalized, htime.backward⟩

theorem Timely.duration (h : scan.Timely) : 0 ≤ scan.duration := by
  unfold CaptureScan.duration
  split
  · rename_i hmin hmax
    exact sub_nonneg.mpr (h.span _ _ hmin hmax)
  · exact le_rfl

end CaptureScan

variable {packets : List Packet}

theorem scanCapture_timely : (scanCapture packets).Timely := by
  induction packets using List.reverseRecOn with
  | nil => exact ⟨by simp [scanCapture], le_rfl, le_rfl⟩
  | append_singleton packets packet ih =>
    rw [scanCapture_append_singleton]
    exact ih.step packet

/-- The analyzers of the loop have seen every packet. -/
theorem scanCapture_analyzers :
    (scanCapture packets).sessionAnalyzer = StatefulSessionAnalyzer.scan {} packets ∧
      (scanCapture packets).datagramAnalyzer = DatagramFlowAnalyzer.scan {} packets := by
  induction packets using List.reverseRecOn with
  | nil => exact ⟨rfl, rfl⟩
  | append_singleton packets packet ih =>
    rw [scanCapture_append_singleton, CaptureScan.step_sessionAnalyzer,
      CaptureScan.step_datagramAnalyzer, ih.1, ih.2,
      StatefulSessionAnalyzer.scan_append_singleton, DatagramFlowAnalyzer.scan_append_singleton]
    exact ⟨rfl, rfl⟩

/-- A capture is analyzed when both analyzers finish. -/
theorem analyzeCapture_ok_iff {sha256 : Bytes → Digest} :
    (∃ analysis, analyzeCapture sha256 packets = .ok analysis) ↔
      (∃ result, (StatefulSessionAnalyzer.scan {} packets).finish sha256 {} = .ok result) ∧
      ∃ result, (DatagramFlowAnalyzer.scan {} packets).finish sha256 {} = .ok result := by
  obtain ⟨hsession, hdatagram⟩ := @scanCapture_analyzers packets
  have htimely := @scanCapture_timely packets
  simp only [analyzeCapture, bind_eq_ok, validated_eq_ok, hsession, hdatagram]
  constructor
  · rintro ⟨-, stateful, hstateful, datagram, hdatagram, -⟩
    exact ⟨⟨stateful, hstateful⟩, datagram, hdatagram⟩
  · rintro ⟨⟨stateful, hstateful⟩, datagram, hdatagram⟩
    exact ⟨_, stateful, hstateful, datagram, hdatagram,
      ⟨htimely.duration, htimely.normalized, htimely.backward⟩, rfl⟩

end TrexCli.Capture
