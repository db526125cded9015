import TrexCli.Policy.Checks

/-!
# Documents about a capture

`CaptureBinding` and `PcapReplaySpec` of `models.py`. The facts about a capture are those its author
declares; the file is another matter.
-/

namespace TrexCli

/-- The text of an IP address: what `ipaddress.ip_address` makes of it, if anything, and whether it
is the text `str` gives back. -/
structure AddressText where
  parsed : Option IpAddress
  canonical : Bool

/-- The parsed addresses of texts; `ip_address` raises on a text that is none. -/
def parseAddresses (texts : List AddressText) : Except Exc (List IpAddress) :=
  texts.mapM fun text =>
    match text.parsed with
    | some a => .ok a
    | none => .error (.exception "not an IPv4 or IPv6 address")

/-- `CaptureBinding` -/
structure CaptureBinding where
  name : String
  revision : Nat
  digest : String
  size : Nat
  packetCount : Nat
  durationSeconds : ℚ
  normalizedDurationSeconds : ℚ
  nonMonotonicTimestampCount : Nat
  maximumBackwardJumpSeconds : ℚ
  macEndpoints : List String
  ipv4Endpoints : List AddressText
  hasBroadcast : Bool
  hasMulticast : Bool
  valid : 1 ≤ revision ∧ 0 ≤ durationSeconds ∧ 0 ≤ normalizedDurationSeconds ∧
    0 ≤ maximumBackwardJumpSeconds

theorem Lab.capture_valid : 1 ≤ 1 ∧ (0 : ℚ) ≤ 0 ∧ (0 : ℚ) ≤ 0 ∧ (0 : ℚ) ≤ 0 := by norm_num

/-- `ReplayAddress` -/
inductive ReplayAddress where
  | rewrite (sourceMac destinationMac : String) (sourceIpv4 destinationIpv4 : AddressText)
  | preserve (policyVersion : String)

/-- `ReplayTiming` -/
inductive ReplayTiming where
  | capture (multiplier : ℚ) (valid : 0 < multiplier ∧ multiplier ≤ 1000)
  | fixedRate (rate : Rate)
  | topSpeed

/-- `PcapReplaySpec` -/
structure PcapReplaySpec where
  ports : Ports
  limits : Limits
  capture : CaptureBinding
  address : ReplayAddress
  timing : ReplayTiming

end TrexCli
