import TrexCli.Lib.Checks
import TrexCli.Policy.Safety

/-!
# The checks of a policy

The parts of `_validate_policy` that documents of several kinds share. A check raises or passes; a
sequence of checks passes when each of them does, so that acceptance is a conjunction.
-/

namespace TrexCli

/-- `if not …: raise error` -/
def require (p : Prop) [Decidable p] (error : TrexCliError) : Except Exc Unit :=
  if p then .ok () else .error (.trexCli error)

@[simp] theorem require_eq_ok {p : Prop} [Decidable p] {error : TrexCliError} :
    require p error = .ok () ↔ p := by
  unfold require
  split <;> simp [*]

/-- An error of `_validate_policy` about a resource. -/
def resourceError (code message : String) : TrexCliError := { code, category := "RESOURCE", message }

namespace SafetyPolicy

/-- The checks of the limits. -/
def checkLimits (policy : SafetyPolicy) (limits : Limits) : Except Exc Unit := do
  require (limits.jobTimeout ≤ policy.maxJobTimeout)
    (unsafeRequest "jobTimeout exceeds the configured SafetyPolicy maximum")
  require (limits.portWaitTimeout ≤ policy.maxPortWaitTimeout)
    (unsafeRequest "portWaitTimeout exceeds the configured SafetyPolicy maximum")

/-- `any(address in subnet for subnet in allowed)` -/
def allowsAddress (policy : SafetyPolicy) (a : IpAddress) : Bool :=
  policy.allowedCidrs.any fun network => network.contains a

end SafetyPolicy

/-- The check that the agent has the ports of a job. -/
def checkPorts (logicalPorts requested : List PortId) : Except Exc Unit :=
  require (∀ port ∈ requested, port ∈ logicalPorts)
    (resourceError "CAPABILITY_MISMATCH" "the Job references unknown logical ports")

/-! ### MAC addresses as text -/

/-- The hexadecimal digit of a number below sixteen, in lower case. -/
def hexDigit (n : Nat) : Char := "0123456789abcdef".toList.getD n '0'

/-- The value of a lower-case hexadecimal digit. -/
def hexValue (c : Char) : Option Nat := "0123456789abcdef".toList.idxOf? c

/-- An octet as two digits. -/
def octetText (o : Nat) : List Char := [hexDigit (o / 16), hexDigit (o % 16)]

/-- Octets as text, with colons between them. -/
def octetsText : List Nat → List Char
  | [] => []
  | [o] => octetText o
  | o :: rest => octetText o ++ ':' :: octetsText rest

/-- `value.lower().startswith(prefix.lower())` -/
def MacPrefix.coversText (p : MacPrefix) (value : String) : Bool :=
  (octetsText p.octets).isPrefixOf value.toLower.toList

namespace SafetyPolicy

/-- `any(value.lower().startswith(prefix) for prefix in prefixes)`, unless all are allowed. -/
def allowsMacText (policy : SafetyPolicy) (value : String) : Bool :=
  policy.allowArbitraryUnicastMac || policy.allowedMacPrefixes.any fun p => p.coversText value

end SafetyPolicy

end TrexCli
