import TrexCli.Rfc2544.Documents

/-!
# Throughput and frame loss runs

`_run_rfc2544_sync`, `_run_rfc2544_each_sync` and `_run_frame_loss_sync` of the remote engine: a
measurement of `rfc2544.py` for each frame size, or for each direction and frame size, and the
summary of its results. What a trial does is a parameter; the first argument is the direction
`unidirectional-each` selects.
-/

namespace TrexCli.Rfc2544

/-- The direction a trial of `unidirectional-each` runs in. -/
inductive Selected where
  | forward | reverse
  deriving DecidableEq, Repr

/-- The rates of a frame size. -/
structure FrameRates where
  percentL1 : Option ℚ
  fps : Option ℚ
  bpsL1 : Option ℚ
  bpsL2 : Option ℚ
  theoreticalMaxFps : ℚ

def FrameRates.ofResult (lineRate : ℚ) (item : FrameSearchResult) : FrameRates :=
  let theoreticalFps := lineRate / ((item.frameSize + 20) * 8)
  let fps := item.throughputPercentL1.map fun percent => theoreticalFps * percent / 100
  { percentL1 := item.throughputPercentL1
    fps := fps
    bpsL1 := item.throughputPercentL1.map fun percent => lineRate * percent / 100
    bpsL2 := fps.map fun fps => fps * item.frameSize * 8
    theoreticalMaxFps := theoreticalFps }

/-- A frame size of a throughput summary. -/
structure ThroughputFrame extends FrameRates where
  valid : Bool
  trials : List TrialRecord

def ThroughputFrame.ofResult (lineRate : ℚ) (item : FrameSearchResult) : ThroughputFrame where
  toFrameRates := .ofResult lineRate item
  valid := item.valid
  trials := item.trials

/-- A direction of a throughput summary. -/
structure DirectionRates where
  rates : List (Nat × FrameRates)
  trials : List (Nat × List TrialRecord)

/-- The summary of a throughput run. -/
structure ThroughputSummary where
  verdict : Verdict
  mode : Mode
  standardConformance : String
  ceilingPercentL1 : ℚ
  resolutionPercentL1 : ℚ
  rates : List (Nat × FrameRates)
  trials : List (Nat × List TrialRecord)
  frames : Option (List (Nat × ThroughputFrame))
  directions : Option (DirectionRates × DirectionRates)

/-- The `standardConformance` of a throughput run. -/
def throughputConformance : Mode → String
  | .strict => "rfc2544-throughput-methodology"
  | .fast => "engineering-estimate-not-rfc2544"

/-- The verdict of a run whose results must all be valid and pass the assertion, if there is one. -/
def throughputVerdict (results : List FrameSearchResult) (assertion : Option ThroughputAssertion)
    (passed : ThroughputAssertion → Bool) : Verdict :=
  if results.all fun item => item.valid && item.throughputPercentL1.isSome then
    match assertion with
    | none => .noAssertion
    | some assertion => if passed assertion then .pass else .fail
  else .invalid

/-- `min(candidates, key=…)`: the lower rate, a missing one first. -/
def conservative (forward reverse : FrameRates) : FrameRates :=
  match forward.percentL1, reverse.percentL1 with
  | none, _ => forward
  | some _, none => reverse
  | some f, some r => if f ≤ r then forward else reverse

section Runs

variable {σ : Type} (trial : Option Selected → TrialFunction σ) (spec : Rfc2544ThroughputSpec)
  (ceiling : ℚ)

/-- `search_frame` for each frame size. -/
def searchFrames (selected : Option Selected) : Effect Exc σ (List FrameSearchResult) :=
  Effect.forList
    (fun size => searchFrame (trial selected) size (settingsFor spec.mode ceiling) ceiling)
    spec.sizes

/-- `_run_rfc2544_each_sync` -/
def runThroughputEach (lineRate : ℚ) : Effect Exc σ ThroughputSummary := do
  let forward ← searchFrames trial spec ceiling (some .forward)
  let reverse ← searchFrames trial spec ceiling (some .reverse)
  let summary := fun results : List FrameSearchResult =>
    { rates := results.map fun item => (item.frameSize, FrameRates.ofResult lineRate item)
      trials := results.map fun item => (item.frameSize, item.trials) : DirectionRates }
  pure
    { verdict := throughputVerdict (forward ++ reverse) spec.assertion fun assertion =>
        (forward ++ reverse).all fun item =>
          item.throughputPercentL1.any fun percent =>
            (assertion.minimumPercentLineRate.lookup (toString item.frameSize)).getD 0 ≤ percent
      mode := spec.mode
      standardConformance := throughputConformance spec.mode
      ceilingPercentL1 := ceiling
      resolutionPercentL1 := (settingsFor spec.mode ceiling).resolution
      rates := List.zipWith
        (fun f r => (f.1, conservative f.2 r.2)) (summary forward).rates (summary reverse).rates
      trials := List.zipWith
        (fun f r => (f.1, f.2 ++ r.2)) (summary forward).trials (summary reverse).trials
      frames := none
      directions := some (summary forward, summary reverse) }

/-- `_run_rfc2544_sync` -/
def runThroughput (lineRate : ℚ) : Effect Exc σ ThroughputSummary :=
  if spec.directionMode = some .unidirectionalEach then runThroughputEach trial spec ceiling lineRate
  else do
    let results ← searchFrames trial spec ceiling none
    let throughput := results.map fun item => (toString item.frameSize, item.throughputPercentL1)
    pure
      { verdict := throughputVerdict results spec.assertion fun assertion =>
          assertion.minimumPercentLineRate.all fun (size, threshold) =>
            ((throughput.lookup size).bind id).any fun measured => threshold ≤ measured
        mode := spec.mode
        standardConformance := throughputConformance spec.mode
        ceilingPercentL1 := ceiling
        resolutionPercentL1 := (settingsFor spec.mode ceiling).resolution
        rates := results.map fun item => (item.frameSize, FrameRates.ofResult lineRate item)
        trials := results.map fun item => (item.frameSize, item.trials)
        frames := some
          (results.map fun item => (item.frameSize, ThroughputFrame.ofResult lineRate item))
        directions := none }

end Runs

/-- A frame size of a frame loss summary. -/
structure LossFrame where
  valid : Bool
  stoppedAfterTwoZeroLossTrials : Bool
  points : List LossPoint

def LossFrame.ofResult (item : FrameLossResult) : LossFrame where
  valid := item.valid
  stoppedAfterTwoZeroLossTrials := item.stoppedAfterConsecutiveZeroLoss
  points := item.trials

/-- The summary of a frame loss run. -/
structure FrameLossSummary where
  verdict : Verdict
  mode : Mode
  standardConformance : String
  ceilingPercentL1 : ℚ
  stepPercentL1 : ℚ
  trialDurationSeconds : ℚ
  frames : Option (List (Nat × LossFrame))
  directions : Option (List (Nat × LossFrame) × List (Nat × LossFrame))

/-- The `standardConformance` of a frame loss run. -/
def frameLossConformance (mode : Mode) (ceiling : ℚ) : String :=
  match mode with
  | .strict =>
    if ceiling = 100 then "rfc2544-frame-loss-methodology" else "rfc2544-frame-loss-partial-range"
  | .fast => "engineering-estimate-not-rfc2544"

section Runs

variable {σ : Type} (trial : Option Selected → TrialFunction σ) (spec : Rfc2544ThroughputSpec)
  (ceiling : ℚ)

/-- `measure_frame_loss` for each frame size. -/
def measureFrames (selected : Option Selected) : Effect Exc σ (List (Nat × LossFrame)) := do
  let results ← Effect.forList
    (fun size => measureFrameLoss (trial selected) size (frameLossSettingsFor spec.mode ceiling)
      ceiling) spec.sizes
  pure (results.map fun item => (item.frameSize, LossFrame.ofResult item))

/-- The summary of the frames of all directions. -/
def frameLossSummary (allFrames : List (Nat × LossFrame))
    (frames : Option (List (Nat × LossFrame)))
    (directions : Option (List (Nat × LossFrame) × List (Nat × LossFrame))) : FrameLossSummary where
  verdict := if allFrames.all fun frame => frame.2.valid then .noAssertion else .invalid
  mode := spec.mode
  standardConformance := frameLossConformance spec.mode ceiling
  ceilingPercentL1 := ceiling
  stepPercentL1 := (frameLossSettingsFor spec.mode ceiling).stepPercent
  trialDurationSeconds := (frameLossSettingsFor spec.mode ceiling).trialSeconds
  frames := frames
  directions := directions

/-- `_run_frame_loss_sync` -/
def runFrameLoss : Effect Exc σ FrameLossSummary :=
  if spec.directionMode = some .unidirectionalEach then do
    let forward ← measureFrames trial spec ceiling (some .forward)
    let reverse ← measureFrames trial spec ceiling (some .reverse)
    pure (frameLossSummary spec ceiling (forward ++ reverse) none (some (forward, reverse)))
  else do
    let combined ← measureFrames trial spec ceiling none
    pure (frameLossSummary spec ceiling combined (some combined) none)

end Runs

end TrexCli.Rfc2544
