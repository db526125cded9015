import TrexCli.Lib.Json
import TrexCli.Rfc2544.Suite

/-!
# Summaries

The summaries of the runs as the dictionaries that the artifacts are written from. A dictionary is in
the order its fields were put in, and floats are exact. The summary of a frame loss run has its frames
under `directions` when each direction was measured on its own, and under `frames` otherwise; a
throughput summary has the trials of all directions under `trials` as well.
-/

namespace TrexCli

mutual

/-- The details of a trial. -/
def Json.value : Json → JsonValue ℚ
  | .null => .null
  | .bool b => .bool b
  | .num n => .int n
  | .str s => .str s.toList
  | .arr xs => .arr (Json.values xs)
  | .obj fields => .obj (Json.fieldValues fields)

def Json.values : List Json → List (JsonValue ℚ)
  | [] => []
  | x :: xs => x.value :: Json.values xs

def Json.fieldValues : List (String × Json) → List (Text × JsonValue ℚ)
  | [] => []
  | (key, x) :: fields => (key.toList, x.value) :: Json.fieldValues fields

end

/-- `Verdict` -/
def Verdict.text : Verdict → String
  | pass => "PASS"
  | fail => "FAIL"
  | invalid => "INVALID"
  | noAssertion => "NO_ASSERTION"

namespace Rfc2544

/-- The fields of a dictionary. -/
abbrev Fields := List (Text × JsonValue ℚ)

/-- Fields with these keys. -/
def fieldsOf (fields : List (String × JsonValue ℚ)) : Fields :=
  fields.map fun field => (field.1.toList, field.2)

def text (s : String) : JsonValue ℚ := .str s.toList

/-- A value that may be `None`. -/
def orNull {α : Type} (value : α → JsonValue ℚ) : Option α → JsonValue ℚ
  | none => .null
  | some a => value a

/-- `{str(frame_size): … for …}` -/
def bySize {α : Type} (value : α → JsonValue ℚ) (frames : List (Nat × α)) : JsonValue ℚ :=
  .obj (frames.map fun frame => (Text.ofNat frame.1, value frame.2))

/-- A list of dictionaries. -/
def records {α : Type} (fields : α → Fields) (items : List α) : JsonValue ℚ :=
  .arr (items.map fun item => .obj (fields item))

def Mode.text : Mode → String
  | strict => "strict"
  | fast => "fast"

def TestName.text : TestName → String
  | throughput => "throughput"
  | latency => "latency"
  | frameLoss => "frame-loss"
  | backToBack => "back-to-back"

def LatencyDefinition.text : LatencyDefinition → String
  | storeAndForward => "store-and-forward"
  | bitForwarding => "bit-forwarding"

def LatencyScenario.text : LatencyScenario → String
  | sameDestination => "same-destination"
  | newDestination => "new-destination"

def BurstPhase.text : BurstPhase → String
  | upperBound => "upper-bound"
  | binarySearch => "binary-search"
  | lossVerification => "loss-verification"

/-! ### Trial records -/

/-- `_trial_record` -/
def TrialRecord.fields (r : TrialRecord) : Fields := fieldsOf
  [("phase", text r.phase.text), ("ratePercentL1", .float r.ratePercentL1),
    ("durationSeconds", .float r.durationSeconds), ("valid", .bool r.observation.valid),
    ("lossFrames", .int r.observation.lossFrames), ("txFrames", .int r.observation.txFrames),
    ("rxFrames", .int r.observation.rxFrames),
    ("targetRateReached", .bool r.observation.targetRateReached),
    ("details", r.observation.details.value)]

/-- A point of `measure_frame_loss`. -/
def LossPoint.fields (p : LossPoint) : Fields :=
  p.toTrialRecord.fields ++ fieldsOf [("lossPercent", orNull .float p.lossPercent)]

/-- A trial of `measure_latency`. -/
def LatencyTrial.fields (t : LatencyTrial) : Fields := fieldsOf
  [("repetition", .int t.repetition), ("durationSeconds", .float t.durationSeconds),
    ("tagAfterSeconds", .float t.tagAfterSeconds), ("valid", .bool t.valid),
    ("latencyMicroseconds", orNull .float t.latencyMicroseconds), ("details", t.details.value)]

/-- `_burst_record` -/
def BurstRecord.fields (r : BurstRecord) : Fields := fieldsOf
  [("phase", text r.phase.text), ("burstFrames", .int r.burstFrames),
    ("valid", .bool r.observation.valid), ("txFrames", .int r.observation.txFrames),
    ("rxFrames", .int r.observation.rxFrames), ("lossFrames", .int r.lossFrames),
    ("details", r.observation.details.value)]

/-- A search of `measure_back_to_back`. -/
def BurstSearch.fields (search : BurstSearch) : Fields :=
  match search.verification with
  | none => fieldsOf
    [("repetition", .int search.repetition), ("valid", .bool search.valid),
      ("trials", records BurstRecord.fields search.trials)]
  | some verification => fieldsOf
    [("repetition", .int search.repetition), ("valid", .bool search.valid),
      ("longestZeroLossBurstFrames", orNull (fun n => .int n) search.longestZeroLossBurstFrames),
      ("trials", records BurstRecord.fields search.trials),
      ("verification", .obj verification.fields)]

/-! ### Throughput and frame loss -/

def FrameRates.fields (rates : FrameRates) : Fields := fieldsOf
  [("percentL1", orNull .float rates.percentL1), ("fps", orNull .float rates.fps),
    ("bpsL1", orNull .float rates.bpsL1), ("bpsL2", orNull .float rates.bpsL2),
    ("theoreticalMaxFps", .float rates.theoreticalMaxFps)]

def FrameRates.json (rates : FrameRates) : JsonValue ℚ := .obj rates.fields

def ThroughputFrame.json (frame : ThroughputFrame) : JsonValue ℚ :=
  .obj (fieldsOf [("valid", .bool frame.valid)] ++ frame.toFrameRates.fields ++
    fieldsOf [("trials", records TrialRecord.fields frame.trials)])

def DirectionRates.json (direction : DirectionRates) : JsonValue ℚ := .obj (fieldsOf
  [("rates", bySize FrameRates.json direction.rates),
    ("trials", bySize (records TrialRecord.fields) direction.trials)])

/-- The summary of `_run_rfc2544_sync` and `_run_rfc2544_each_sync`. -/
def ThroughputSummary.fields (summary : ThroughputSummary) : Fields :=
  fieldsOf
    [("simulated", .bool false), ("mode", text summary.mode.text),
      ("standardConformance", text summary.standardConformance),
      ("ceilingPercentL1", .float summary.ceilingPercentL1),
      ("resolutionPercentL1", .float summary.resolutionPercentL1),
      ("rates", bySize FrameRates.json summary.rates),
      ("trials", bySize (records TrialRecord.fields) summary.trials)] ++
  (match summary.frames with
    | none => []
    | some frames => fieldsOf [("frames", bySize ThroughputFrame.json frames)]) ++
  match summary.directions with
    | none => []
    | some (forward, reverse) => fieldsOf
      [("directions", .obj (fieldsOf [("forward", forward.json), ("reverse", reverse.json)]))]

def LossFrame.json (frame : LossFrame) : JsonValue ℚ := .obj (fieldsOf
  [("valid", .bool frame.valid),
    ("stoppedAfterTwoZeroLossTrials", .bool frame.stoppedAfterTwoZeroLossTrials),
    ("points", records LossPoint.fields frame.points)])

/-- The `frames` of a direction. -/
def lossFrames (frames : List (Nat × LossFrame)) : Fields := fieldsOf [("frames", bySize LossFrame.json frames)]

/-- The summary of `_run_frame_loss_sync`. -/
def FrameLossSummary.fields (summary : FrameLossSummary) : Fields :=
  fieldsOf
    [("simulated", .bool false), ("mode", text summary.mode.text),
      ("standardConformance", text summary.standardConformance),
      ("ceilingPercentL1", .float summary.ceilingPercentL1),
      ("stepPercentL1", .float summary.stepPercentL1),
      ("trialDurationSeconds", .float summary.trialDurationSeconds)] ++
  (match summary.frames with
    | none => []
    | some frames => lossFrames frames) ++
  match summary.directions with
    | none => []
    | some (forward, reverse) => fieldsOf
      [("directions", .obj (fieldsOf
        [("forward", .obj (lossFrames forward)), ("reverse", .obj (lossFrames reverse))]))]

/-! ### Latency and bursts -/

/-- The result of a scenario; without a packet or a correction there is none. -/
def LatencyResult.json : Option LatencyResult → JsonValue ℚ
  | none => .obj (fieldsOf
    [("valid", .bool false), ("samplesMicroseconds", .arr []), ("averageMicroseconds", .null),
      ("trials", .arr []),
      ("issues", .arr [text "new destination packet or frame calibration correction is missing"])])
  | some result => .obj (fieldsOf
    [("valid", .bool result.valid), ("throughputPercentL1", .float result.throughputPercentL1),
      ("samplesMicroseconds", .arr (result.samplesMicroseconds.map .float)),
      ("averageMicroseconds", orNull .float result.averageMicroseconds),
      ("trials", records LatencyTrial.fields result.trials)])

def LatencyFrame.json (frame : LatencyFrame) : JsonValue ℚ :=
  .obj (fieldsOf (frame.map fun scenario => (scenario.1.text, LatencyResult.json scenario.2)))

/-- The `timestampCalibration` of a latency phase. -/
def calibrationJson (valid : Bool) : Option LatencyTimestampCalibration → JsonValue ℚ
  | none => .obj (fieldsOf [("valid", .bool valid), ("calibrationId", .null)])
  | some calibration => .obj (fieldsOf
    [("valid", .bool valid), ("calibrationId", text calibration.calibrationId)])

/-- The summary of `_run_latency_sync`. -/
def LatencySummary.fields (summary : LatencySummary) : Fields :=
  fieldsOf
    [("simulated", .bool false),
      ("definition", orNull (fun definition => text definition.text) summary.definition),
      ("standardConformance", text summary.standardConformance),
      ("timestampCalibration", calibrationJson summary.calibrationValid summary.timestampCalibration),
      ("frames", bySize LatencyFrame.json summary.frames)] ++
  if summary.calibrationValid then [] else fieldsOf [("issues", .arr (summary.issues.map text))]

def BurstFrame.json : BurstFrame → JsonValue ℚ
  | .notApplicable throughputFps theoreticalMaxFps => .obj (fieldsOf
    [("valid", .bool true), ("applicability", text "not-applicable-throughput-equals-theoretical"),
      ("throughputFps", .float throughputFps), ("theoreticalMaxFps", .float theoreticalMaxFps),
      ("searches", .arr [])])
  | .measured result => .obj (fieldsOf
    [("valid", .bool result.valid),
      ("longestZeroLossBursts", .arr (result.longestZeroLossBursts.map fun n => .int n)),
      ("averageFrames", orNull .float result.averageFrames),
      ("minimumFrames", orNull (fun n => .int n) result.minimumFrames),
      ("maximumFrames", orNull (fun n => .int n) result.maximumFrames),
      ("impliedBufferSeconds", orNull .float result.impliedBufferSeconds),
      ("correctedBufferSeconds", orNull .float result.correctedBufferSeconds),
      ("searches", records BurstSearch.fields result.searches)])

/-- The summary of `_run_back_to_back_sync`. -/
def BackToBackSummary.fields (summary : BackToBackSummary) : Fields := fieldsOf
  [("simulated", .bool false), ("standardConformance", text summary.standardConformance),
    ("frames", bySize BurstFrame.json summary.frames)]

/-! ### Suites -/

namespace SuiteMeasurement

def name : SuiteMeasurement → TestName
  | throughput _ => .throughput
  | frameLoss _ => .frameLoss
  | latency _ => .latency
  | backToBack _ => .backToBack

def methodology : SuiteMeasurement → String
  | throughput summary => match summary.mode with
    | .strict => "rfc2544-throughput-strict/v1"
    | .fast => "engineering-throughput-estimate/v1"
  | frameLoss summary => match summary.mode with
    | .strict => "rfc2544-frame-loss-strict/v1"
    | .fast => "engineering-frame-loss-curve/v1"
  | latency summary => summary.methodology
  | backToBack summary => summary.methodology

def summary : SuiteMeasurement → Fields
  | throughput summary => summary.fields
  | frameLoss summary => summary.fields
  | latency summary => summary.fields
  | backToBack summary => summary.fields

/-- An entry of `tests`. -/
def json (measurement : SuiteMeasurement) : JsonValue ℚ :=
  .obj (fieldsOf [("methodology", text measurement.methodology),
    ("verdict", text measurement.verdict.text)] ++ measurement.summary)

end SuiteMeasurement

/-- A document of one of the two kinds. -/
inductive RfcDocument where
  | throughput (spec : Rfc2544ThroughputSpec)
  | suite (spec : Rfc2544SuiteSpec)

/-- The measurement of a document. -/
inductive RfcMeasurement where
  | throughput (summary : ThroughputSummary)
  | suite (mode : Mode) (verdict : Verdict) (measurements : List SuiteMeasurement)

/-- The `summary` of a measurement. -/
def RfcMeasurement.summary : RfcMeasurement → Fields
  | throughput summary => summary.fields
  | suite mode _ measurements => fieldsOf
    [("simulated", .bool false), ("mode", text mode.text),
      ("tests", .obj (fieldsOf
        (measurements.map fun measurement => (measurement.name.text, measurement.json))))]

/-- The ceiling of the rates, with a policy or without one. -/
def ceilingOf (policy : Option SafetyPolicy) : ℚ := (policy.map SafetyPolicy.maxPercentL1).getD 100

theorem ceilingOf_range (policy : Option SafetyPolicy) : 0 < ceilingOf policy ∧ ceilingOf policy ≤ 100 := by
  cases policy with
  | none => exact ⟨by norm_num [ceilingOf], by norm_num [ceilingOf]⟩
  | some policy => exact policy.percentL1

/-- `_run_rfc2544_sync` or `_run_rfc2544_suite_sync` -/
def RfcDocument.run {σ : Type} (device : SuiteDevice σ) (policy : Option SafetyPolicy)
    (session : SuiteSession) : RfcDocument → Effect Exc σ RfcMeasurement
  | throughput spec => do
    let summary ← runThroughput (rfcTrialSync device spec) spec (ceilingOf policy) session.lineRate
    pure (.throughput summary)
  | suite spec => do
    let (verdict, measurements) ← runSuite device spec (ceilingOf policy) session
    pure (.suite spec.mode verdict measurements)

end Rfc2544

end TrexCli
