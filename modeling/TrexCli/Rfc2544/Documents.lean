import TrexCli.Lib.Paths
import TrexCli.Packet.Headers
import TrexCli.Rfc2544.Search

/-!
# RFC2544 documents

`Rfc2544ThroughputSpec` and `Rfc2544SuiteSpec` of `models.py`; their validators are fields.
-/

namespace TrexCli.Rfc2544

/-- `directionMode` -/
inductive DirectionMode where
  | unidirectional | bidirectionalSimultaneous | unidirectionalEach
  deriving DecidableEq, Repr

/-- The standard frame sizes of a strict run. -/
def strictFrameSizes : List Nat := [64, 128, 256, 512, 1024, 1280, 1518]

/-- `int(frame_size)` of a text of digits; `int` takes no more than 4300 of them. -/
def keySize (key : String) : Option Nat :=
  if key.toList.length ≤ 4300 then Text.decimals key.toList else none

/-- `ThroughputAssertion`: a threshold for each of some frame sizes, under a text of the size. -/
structure ThroughputAssertion where
  minimumPercentLineRate : List (String × ℚ)
  unique : (minimumPercentLineRate.map Prod.fst).Nodup
  ne : minimumPercentLineRate ≠ []
  valid : ∀ p ∈ minimumPercentLineRate,
    (∃ size, keySize p.1 = some size ∧ 64 ≤ size ∧ size ≤ 9216) ∧ 0 ≤ p.2 ∧ p.2 ≤ 100

/-- `Rfc2544ThroughputSpec` -/
structure Rfc2544ThroughputSpec where
  ports : Ports
  mode : Mode
  packet : RfcPacket
  limits : Limits
  frameSizes : Option (List Nat)
  assertion : Option ThroughputAssertion
  directionMode : Option DirectionMode
  reversePacket : Option RfcPacket
  strict : mode = .strict → frameSizes = none
  fast : mode = .fast → ∀ sizes, frameSizes = some sizes →
    sizes ≠ [] ∧ sizes.Nodup ∧ ∀ size ∈ sizes, size ∈ [64, 512, 1518]
  oneWay : directionMode = some .unidirectional →
    ports.direction = .unidirectional ∧ reversePacket = none
  twoWay : directionMode = some .bidirectionalSimultaneous ∨
      directionMode = some .unidirectionalEach →
    ports.direction = .bidirectional ∧ reversePacket ≠ none

/-- The frame sizes a run goes through. -/
def Rfc2544ThroughputSpec.sizes (spec : Rfc2544ThroughputSpec) : List Nat :=
  match spec.mode with
  | .strict => strictFrameSizes
  | .fast => spec.frameSizes.getD [64, 512, 1518]

inductive TestName where
  | throughput | latency | frameLoss | backToBack
  deriving DecidableEq, Repr

inductive LatencyDefinition where
  | storeAndForward | bitForwarding
  deriving DecidableEq, Repr

inductive LatencyScenario where
  | sameDestination | newDestination
  deriving DecidableEq, Repr

/-- `Rfc2544LatencySettings` -/
structure LatencySettings where
  definition : LatencyDefinition
  scenarios : List LatencyScenario
  repetitions : Nat := 20
  trialSeconds : ℚ := 120
  tagAfterSeconds : ℚ := 60
  newDestinationPacket : Option RfcPacket
  unique : scenarios.Nodup
  valid : 20 ≤ repetitions ∧ 120 ≤ trialSeconds ∧ 60 ≤ tagAfterSeconds

/-- `Rfc9004BackToBackSettings` -/
structure BackToBackSettings where
  repetitions : Nat := 20
  minimumStepFrames : Nat := 1
  maximumBurstFrames : Nat
  maximumBurstSeconds : ℚ := 30
  bufferDepletionSeconds : ℚ := 2
  valid : 1 ≤ repetitions ∧ 1 ≤ minimumStepFrames ∧ 2 ≤ maximumBurstFrames ∧
    30 ≤ maximumBurstSeconds ∧ 2 ≤ bufferDepletionSeconds

namespace Lab

theorem oneWay : some DirectionMode.unidirectional = some .unidirectional →
    (⟨0, 1, .unidirectional, Nat.zero_ne_one⟩ : Ports).direction = .unidirectional ∧
      (none : Option RfcPacket) = none := by simp

theorem not_twoWay : some DirectionMode.unidirectional = some .bidirectionalSimultaneous ∨
      some DirectionMode.unidirectional = some .unidirectionalEach →
    (⟨0, 1, .unidirectional, Nat.zero_ne_one⟩ : Ports).direction = .bidirectional ∧
      (none : Option RfcPacket) ≠ none := by simp

theorem latency_valid : 20 ≤ 20 ∧ (120 : ℚ) ≤ 120 ∧ (60 : ℚ) ≤ 60 := by norm_num

theorem backToBack_valid :
    1 ≤ 20 ∧ 1 ≤ 1 ∧ 2 ≤ 1000 ∧ (30 : ℚ) ≤ 30 ∧ (2 : ℚ) ≤ 2 := by norm_num

end Lab

/-- Throughput comes before a test that uses its rates. -/
def runsAfterThroughput (tests : List TestName) (test : TestName) : Prop :=
  .throughput ∈ tests ∧ tests.idxOf .throughput ≤ tests.idxOf test

/-- `Rfc2544SuiteSpec` -/
structure Rfc2544SuiteSpec extends Rfc2544ThroughputSpec where
  tests : List TestName
  latency : Option LatencySettings
  backToBack : Option BackToBackSettings
  ne : tests ≠ []
  unique : tests.Nodup
  asserted : assertion ≠ none → .throughput ∈ tests
  latencySettings : .latency ∈ tests ↔ latency ≠ none
  latencyOrder : .latency ∈ tests → runsAfterThroughput tests .latency
  strictScenarios : mode = .strict → ∀ l, latency = some l →
    .sameDestination ∈ l.scenarios ∧ .newDestination ∈ l.scenarios
  backToBackSettings : .backToBack ∈ tests ↔ backToBack ≠ none
  backToBackOrder : .backToBack ∈ tests → runsAfterThroughput tests .backToBack

end TrexCli.Rfc2544
