import Mathlib.Data.Rat.Defs
import Mathlib.Algebra.Order.Ring.Rat
import Mathlib.Tactic.NormNum
import TrexCli.Models

/-!
# The safety policy

`SafetyPolicy` of `config.py`, with addresses and networks as `ipaddress` has them: an address is a
version and a number, and a network holds the addresses that agree with it on the prefix bits. Rates
are exact rationals where the source has floats.
-/

namespace TrexCli

inductive IpVersion where
  | v4 | v6
  deriving DecidableEq, Repr

/-- `max_prefixlen` -/
def IpVersion.width : IpVersion → Nat
  | v4 => 32
  | v6 => 128

/-- `ipaddress.ip_address` -/
structure IpAddress where
  version : IpVersion
  value : Nat
  lt : value < 2 ^ version.width
  deriving DecidableEq

/-- `ipaddress.ip_network(…, strict=False)`: host bits of the address are ignored. -/
structure Network where
  version : IpVersion
  address : Nat
  prefixLength : Nat
  le : prefixLength ≤ version.width

/-- `address in network` -/
def Network.contains (n : Network) (a : IpAddress) : Bool :=
  a.version = n.version ∧
    a.value >>> (n.version.width - n.prefixLength) = n.address >>> (n.version.width - n.prefixLength)

/-- An allowed MAC prefix: its octets. -/
structure MacPrefix where
  octets : List Nat
  length : 1 ≤ octets.length ∧ octets.length ≤ 6
  octet : ∀ o ∈ octets, o < 256

/-- `SafetyPolicy`, the fields the modelled checks read. Durations are milliseconds. -/
structure SafetyPolicy where
  version : String
  allowedCidrs : List Network
  allowedMacPrefixes : List MacPrefix
  allowArbitraryUnicastMac : Bool
  maxJobTimeout : Nat
  maxPortWaitTimeout : Nat
  maxRunDuration : Nat
  maxBurstPackets : Nat
  maxPercentL1 : ℚ
  maxPps : ℚ
  maxBpsL1 : ℚ
  maxBpsL2 : ℚ
  maxCps : ℚ
  maxActiveConnections : Nat
  maxAddressPoolSize : Nat
  calibrationBootstrapMaxPercentL1 : ℚ
  maxCalibrationGrowthFactor : ℚ
  maxCalibrationAge : Nat
  percentL1 : 0 < maxPercentL1 ∧ maxPercentL1 ≤ 100
  growthFactor : 1 ≤ maxCalibrationGrowthFactor ∧ maxCalibrationGrowthFactor ≤ 10
  prefixes : allowArbitraryUnicastMac = false → allowedMacPrefixes ≠ []

/-- The unit of a `Rate`. -/
inductive RateUnit where
  | percentL1 | bpsL1 | bpsL2 | pps
  deriving DecidableEq, Repr

/-- `SafetyPolicy.rate_ceiling` -/
def SafetyPolicy.rateCeiling (policy : SafetyPolicy) : RateUnit → ℚ
  | .percentL1 => policy.maxPercentL1
  | .pps => policy.maxPps
  | .bpsL1 => policy.maxBpsL1
  | .bpsL2 => policy.maxBpsL2

/-- `Rate` -/
structure Rate where
  unit : RateUnit
  value : ℚ
  pos : 0 < value
  percent : unit = .percentL1 → value ≤ 100

inductive Direction where
  | unidirectional | bidirectional
  deriving DecidableEq, Repr

/-- `Ports` -/
structure Ports where
  tx : PortId
  rx : PortId
  direction : Direction
  distinct : tx ≠ rx

/-- `Limits` -/
structure Limits where
  portWaitTimeout : Nat
  jobTimeout : Nat
  pos : 0 < portWaitTimeout ∧ 0 < jobTimeout

/-- The error of a `SafetyPolicy` check. -/
def unsafeRequest (message : String) : TrexCliError :=
  { code := "UNSAFE_REQUEST", category := "POLICY", message }

/-! ### The bounds of a lab

Two stations of 198.18.0.0/15 and the policies above them, which the samples of the later modules are
made of. -/

namespace Lab

theorem limits_pos : 0 < 300000 ∧ 0 < 28800000 := by decide

theorem client_lt : 0xC6120001 < 2 ^ IpVersion.v4.width := by decide

theorem server_lt : 0xC6120002 < 2 ^ IpVersion.v4.width := by decide

theorem network_le : 15 ≤ IpVersion.v4.width := by decide

theorem octets_length : 1 ≤ [2].length ∧ [2].length ≤ 6 := by decide

theorem octets_lt : ∀ o ∈ [2], o < 256 := by simp

theorem one_prefix : false = false → [(⟨[2], octets_length, octets_lt⟩ : MacPrefix)] ≠ [] := by simp

theorem percentL1_bounds : (0 : ℚ) < 100 ∧ (100 : ℚ) ≤ 100 := by norm_num

theorem no_growth : (1 : ℚ) ≤ 1 ∧ (1 : ℚ) ≤ 10 := by norm_num

theorem double_growth : (1 : ℚ) ≤ 2 ∧ (2 : ℚ) ≤ 10 := by norm_num

theorem arbitrary_prefixes : true = false → ([] : List MacPrefix) ≠ [] := by simp

theorem one_pps_pos : (0 : ℚ) < 1 := by norm_num

theorem thousand_pps_pos : (0 : ℚ) < 1000 := by norm_num

theorem thousand_pps_percent : RateUnit.pps = .percentL1 → (1000 : ℚ) ≤ 100 := by simp

end Lab

end TrexCli
