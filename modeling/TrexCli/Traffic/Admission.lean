import Mathlib.Algebra.BigOperators.Group.List.Basic
import Mathlib.Data.Rat.Defs
import Mathlib.Algebra.Field.Rat
import TrexCli.Policy.Checks
import TrexCli.Traffic.Documents

/-!
# Traffic admission

`_validate_policy` for traffic documents, and `validate` of the remote STL engine. Of a variation both
look at its two ends.
-/

namespace TrexCli

/-! ### Texts of addresses -/

/-- The sixteen-bit groups of an IPv6 address. -/
def hextets (value : Nat) : List Nat := (List.range 8).map fun i => value / 2 ^ (16 * (7 - i)) % 2 ^ 16

/-- The start and the length of the longest run of zeros, the first one of those. -/
def longestZeros (groups : List Nat) : Nat × Nat :=
  let scan := groups.zipIdx.foldl (fun ((best, current) : (Nat × Nat) × (Nat × Nat)) (h, i) =>
    let current := if h = 0 then (if current.2 = 0 then i else current.1, current.2 + 1) else (0, 0)
    (if best.2 < current.2 then current else best, current)) ((0, 0), (0, 0))
  scan.1

/-- `_compress_hextets`, joined -/
def compressHextets (groups : List Nat) : String :=
  let texts := groups.map fun h => String.ofList (Nat.toDigits 16 h)
  let (start, length) := longestZeros groups
  if 1 < length then
    ":".intercalate (texts.take start) ++ "::" ++ ":".intercalate (texts.drop (start + length))
  else ":".intercalate texts

/-- `str(address)` -/
def IpAddress.str (a : IpAddress) : String :=
  match a.version with
  | .v4 => ".".intercalate ((List.range 4).map fun i => toString (a.value / 256 ^ (3 - i) % 256))
  | .v6 => compressHextets (hextets a.value)

/-- The value of the `StrEnum`. -/
def RateUnit.text : RateUnit → String
  | .percentL1 => "percent_l1"
  | .bpsL1 => "bps_l1"
  | .bpsL2 => "bps_l2"
  | .pps => "pps"

/-! ### The checks of a packet -/

/-- A value, or the two ends of a variation. -/
def MacOrVariation.ends : MacOrVariation → List MacAddress
  | .value m => [m]
  | .variation v => [v.first, v.last]

/-- A value, or the two ends of a variation. -/
def AddressOrVariation.ends {version : IpVersion} : AddressOrVariation version → List IpAddress
  | .value a lt => [⟨version, a, lt⟩]
  | .variation v => [⟨version, v.first, v.le.trans_lt v.lt⟩, ⟨version, v.last, v.lt⟩]

/-- The ends of the source, and those of the destination. -/
def NetworkHeader.ends : NetworkHeader → List (List IpAddress)
  | .ipv4 header => [header.src.ends, header.dst.ends]
  | .ipv6 header => [header.src.ends, header.dst.ends]

namespace SafetyPolicy

/-- The check of a MAC address or of a variation of it. -/
def checkMac (policy : SafetyPolicy) (macs : List MacAddress) : Except Exc Unit :=
  require (policy.allowArbitraryUnicastMac = true ∨
      ∃ p ∈ policy.allowedMacPrefixes, ∀ mac ∈ macs, p.covers mac = true)
    (unsafeRequest "MAC address range is outside configured allowedMacPrefixes")

/-- The check of an address. -/
def checkAddress (policy : SafetyPolicy) (a : IpAddress) : Except Exc Unit :=
  require (policy.allowsAddress a = true)
    (unsafeRequest ("address " ++ a.str ++ " is outside configured allowedCidrs"))

/-- The checks of a packet. -/
def checkPacket (policy : SafetyPolicy) (packet : PacketHeaders) : Except Exc Unit := do
  [packet.ethernet.src.ends, packet.ethernet.dst.ends].forM policy.checkMac
  (packet.network.toList.flatMap NetworkHeader.ends).flatten.forM policy.checkAddress

end SafetyPolicy

/-! ### The checks of a document -/

/-- `rates_by_egress`: for each stream, or for each direction, what its port and unit sum up to. -/
def StatelessTrafficSpec.ratesByEgress (spec : StatelessTrafficSpec) :
    List ((PortId × RateUnit) × ℚ) :=
  if spec.streams = [] then
    ((spec.ports.tx, spec.rate.unit), spec.rate.value) ::
      if spec.ports.direction = .bidirectional then [((spec.ports.rx, spec.rate.unit), spec.rate.value)]
      else []
  else
    spec.streams.map fun stream =>
      ((stream.tx, stream.rate.unit), ((spec.streams.filter fun other =>
        other.tx = stream.tx ∧ other.rate.unit = stream.rate.unit).map (·.rate.value)).sum)

section Checks

variable (logicalPorts : List PortId) (policy : SafetyPolicy)

/-- The checks that only stateless traffic has. -/
def validateStateless (spec : StatelessTrafficSpec) : Except Exc Unit := do
  spec.duration.toList.forM fun duration => do
    require (duration ≤ policy.maxRunDuration)
      (unsafeRequest "duration exceeds the configured SafetyPolicy maximum")
    require (duration ≤ spec.limits.jobTimeout) (unsafeRequest "duration cannot exceed jobTimeout")
  spec.burstPackets.toList.forM fun packets =>
    require (packets ≤ policy.maxBurstPackets)
      (unsafeRequest "burstPackets exceeds the configured SafetyPolicy maximum")
  spec.ratesByEgress.forM fun (key, value) =>
    require (value ≤ policy.rateCeiling key.2)
      (unsafeRequest (key.2.text ++ " exceeds the configured per-egress SafetyPolicy maximum"))

/-- `_validate_policy` for a traffic document -/
def validateTraffic (doc : TrafficDocument) : Except Exc Unit := do
  policy.checkLimits doc.limits
  match doc with
  | .stateless spec => validateStateless policy spec
  | _ => pure ()
  checkPorts logicalPorts doc.requested
  doc.packets.forM policy.checkPacket

end Checks

/-! ### The engine's checks -/

/-- A `CAPABILITY_MISMATCH` of the engine. -/
def capabilityMismatch (message : String) : TrexCliError :=
  { code := "CAPABILITY_MISMATCH", category := "ENGINE", message }

/-- The variation stays within one prefix of 64 bits. -/
def AddressOrVariation.withinPrefix : AddressOrVariation .v6 → Bool
  | .value .. => true
  | .variation v => v.first / 2 ^ 64 = v.last / 2 ^ 64

def TransportHeader.isIcmp : TransportHeader → Bool
  | .icmp .. => true
  | _ => false

/-- The checks of a packet that the compiler of packets relies on. -/
def PacketHeaders.checkCapability (packet : PacketHeaders) : Except Exc Unit :=
  match packet.network with
  | some (.ipv6 header) => do
    require (¬packet.transport.any TransportHeader.isIcmp)
      (capabilityMismatch "IPv6 with the v1 ICMP header is not supported by the remote adapter")
    [header.src, header.dst].forM fun a =>
      require (a.withinPrefix = true)
        (capabilityMismatch "IPv6 variations must stay within one 64-bit prefix")
  | _ => .ok ()

/-- `_rate_pps_for` -/
def ratePps (frameSize : Nat) (rate : Rate) (lineRateBps : ℚ) : ℚ :=
  match rate.unit with
  | .pps => rate.value
  | .bpsL2 => rate.value / (frameSize * 8)
  | .bpsL1 => rate.value / ((frameSize + 20) * 8)
  | .percentL1 => rate.value / 100 * lineRateBps / ((frameSize + 20) * 8)

/-- `_estimated_run_seconds`: of a burst, at the rate of the document on a line of 10 Gbit/s. -/
def StatelessTrafficSpec.estimatedRunSeconds (spec : StatelessTrafficSpec) : ℚ :=
  match spec.duration with
  | some duration => duration / 1000
  | none => spec.burstPackets.getD 0 / ratePps spec.packet.frameSize spec.rate 10000000000

/-- `RemoteTrexStlEngine.validate` for a traffic document -/
def validateEngine (doc : TrafficDocument) : Except Exc Unit := do
  match doc with
  | .stateless spec =>
    require (1 < spec.streams.length → ∀ packet ∈ doc.packets, packet.network ≠ none)
      (capabilityMismatch "multi-stream bare Ethernet requires per-stream counters not available")
  | _ => pure ()
  doc.packets.forM PacketHeaders.checkCapability
  match doc with
  | .stateless spec =>
    require (spec.estimatedRunSeconds ≤ spec.limits.jobTimeout / 1000)
      (unsafeRequest "the estimated burst duration exceeds jobTimeout")
  | _ => pure ()

end TrexCli
