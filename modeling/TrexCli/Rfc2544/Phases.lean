import Mathlib.Data.PNat.Basic
import TrexCli.Rfc2544.BackToBack
import TrexCli.Rfc2544.Verdicts

/-!
# The phases after the throughput

`_run_latency_sync` and `_run_back_to_back_sync` of the remote engine, with `measure_latency` of
`rfc2544.py`. Each trial begins with a document of its own, and a document has no rate that is not
positive. The latency trials run at the rate of the throughput phase, which may be zero: the phases
return for every rate exactly when no frame size with tagged trials has that one (`completes_iff`).
-/

namespace TrexCli.Rfc2544

open Effect (Ensures Reaches)

/-- The rate of a trial document: what `Rate` accepts of a `percent_l1`. -/
def trialRate (ratePercent : ℚ) : Except Exc Rate :=
  if h : 0 < ratePercent ∧ ratePercent ≤ 100 then .ok ⟨.percentL1, ratePercent, h.1, fun _ => h.2⟩
  else .error (.exception "1 validation error for StatelessTrafficDocument")

/-- `LatencyTimestampCalibration` -/
structure LatencyTimestampCalibration where
  calibrationId : String
  calibrationDigest : Option String
  calibrationArtifact : Option String
  measuredAt : Instant
  validUntil : Instant
  maximumUncertaintyMicroseconds : ℚ
  correctionMicroseconds : List (LatencyDefinition × List (Nat × ℚ))
  ordered : measuredAt < validUntil

/-- `LatencyObservation` -/
structure LatencyObservation where
  valid : Bool
  latencyMicroseconds : Option ℚ
  details : Json

/-- A repetition of `measure_latency`. -/
structure LatencyTrial where
  repetition : Nat
  durationSeconds : ℚ
  tagAfterSeconds : ℚ
  valid : Bool
  latencyMicroseconds : Option ℚ
  details : Json

/-- `LatencyResult` -/
structure LatencyResult where
  frameSize : Nat
  throughputPercentL1 : ℚ
  definition : LatencyDefinition
  valid : Bool
  samplesMicroseconds : List ℚ
  averageMicroseconds : Option ℚ
  trials : List LatencyTrial

/-- A frame size of a latency phase; a scenario without a packet or a correction has no result. -/
abbrev LatencyFrame := List (LatencyScenario × Option LatencyResult)

/-- The summary of a latency phase. -/
structure LatencySummary where
  verdict : Verdict
  methodology : String
  definition : Option LatencyDefinition
  standardConformance : String
  calibrationValid : Bool
  timestampCalibration : Option LatencyTimestampCalibration
  frames : List (Nat × LatencyFrame)
  issues : List String

/-- A frame size of a back-to-back phase. -/
inductive BurstFrame where
  | notApplicable (throughputFps theoreticalMaxFps : ℚ)
  | measured (result : BackToBackResult)

/-- The summary of a back-to-back phase. -/
structure BackToBackSummary where
  verdict : Verdict
  methodology : String
  standardConformance : String
  frames : List (Nat × BurstFrame)

/-- What a tagged trial does after its document is built: the packet and its correction, the frame
size, the rate, the duration, and the delay of the tagged frame. -/
abbrev LatencyDevice (σ : Type) :=
  RfcPacket → ℚ → Nat → Rate → ℚ → ℚ → Effect Exc σ LatencyObservation

/-- What a burst does after its document is built: the frame size and the burst, the rate, the
duration, and the time the buffers need to empty. -/
abbrev BurstDevice (σ : Type) := Nat → Nat → Rate → ℚ → ℚ → Effect Exc σ BackToBackObservation

/-- The corrections of a calibration that holds now, for ports with timestamps. -/
def usableCorrections (configured : LatencySettings)
    (calibration : Option LatencyTimestampCalibration) (now : Instant)
    (ieee1588Supported : List Bool) : Option (List (Nat × ℚ)) :=
  calibration.bind fun calibration =>
    if calibration.measuredAt ≤ now ∧ now ≤ calibration.validUntil ∧ ieee1588Supported.all id then
      calibration.correctionMicroseconds.lookup configured.definition
    else none

/-- The packet of a scenario. -/
def scenarioPacket (spec : Rfc2544SuiteSpec) (configured : LatencySettings) :
    LatencyScenario → Option RfcPacket
  | .sameDestination => some spec.packet
  | .newDestination => configured.newDestinationPacket

/-- The settings of the searches; a policy may lower the maximum. -/
def burstSettings (configured : BackToBackSettings) (maxBurstPackets : Option ℕ+) : BurstSettings where
  repetitions := configured.repetitions
  minimumStepFrames := configured.minimumStepFrames
  maximumBurstFrames := match maxBurstPackets with
    | none => configured.maximumBurstFrames
    | some packets => min configured.maximumBurstFrames packets
  valid := by
    obtain ⟨hrepetitions, hstep, hmaximum, -⟩ := configured.valid
    refine ⟨hrepetitions, hstep, ?_⟩
    have hone : 1 ≤ configured.maximumBurstFrames := by omega
    cases maxBurstPackets with
    | none => exact hone
    | some packets => exact le_min hone packets.pos

section Phases

variable {σ : Type} (document : ℚ → Effect Exc σ Rate) (spec : Rfc2544SuiteSpec)

section Latency

variable (device : LatencyDevice σ) (configured : LatencySettings)

/-- `_latency_trial_sync` -/
def latencyTrialSync (packet : RfcPacket) (correction : ℚ) (frameSize : Nat) (ratePercent : ℚ) :
    Effect Exc σ LatencyObservation := do
  let rate ← document ratePercent
  device packet correction frameSize rate configured.trialSeconds configured.tagAfterSeconds

/-- `measure_latency` -/
def measureLatency (packet : RfcPacket) (correction : ℚ) (frameSize : Nat) (throughput : ℚ) :
    Effect Exc σ LatencyResult := do
  let trials ← Effect.forList (fun repetition => do
      let observation ←
        latencyTrialSync document device configured packet correction frameSize throughput
      pure (⟨repetition, configured.trialSeconds, configured.tagAfterSeconds,
        observation.valid && observation.latencyMicroseconds.any fun sample => 0 ≤ sample,
        observation.latencyMicroseconds, observation.details⟩ : LatencyTrial))
    (List.range' 1 configured.repetitions)
  let samples := (trials.filter fun trial => trial.valid).filterMap fun trial =>
    trial.latencyMicroseconds
  let valid := trials.all fun trial => trial.valid
  let average ← if valid = true ∧ samples.length = configured.repetitions then
      ofExcept ((fmean samples).map some)
    else pure none
  pure ⟨frameSize, throughput, configured.definition, valid, samples, average, trials⟩

/-- A frame size of `_run_latency_sync`; one without a rate is left out. -/
def latencyFrame (corrections : List (Nat × ℚ)) (entry : Nat × FrameRates) :
    Effect Exc σ (Option (Nat × LatencyFrame)) :=
  match entry.2.percentL1 with
  | none => pure none
  | some percent => do
    let scenarios ← Effect.forList (fun scenario =>
        match scenarioPacket spec configured scenario, corrections.lookup entry.1 with
        | some packet, some correction => do
          let result ← measureLatency document device configured packet correction entry.1 percent
          pure (scenario, some result)
        | _, _ => pure (scenario, none)) configured.scenarios
    pure (some (entry.1, scenarios))

/-- `_run_latency_sync` -/
def runLatency (calibration : Option LatencyTimestampCalibration) (now : Instant)
    (ieee1588Supported : List Bool) (throughput : Option ThroughputSummary) :
    Effect Exc σ LatencySummary :=
  let unavailable : Effect Exc σ LatencySummary := pure
    { verdict := .invalid
      methodology := "rfc2544-latency-unavailable/v1"
      definition := spec.latency.map fun configured => configured.definition
      standardConformance := "latency-timestamp-calibration-required"
      calibrationValid := false
      timestampCalibration := calibration
      frames := []
      issues := if ieee1588Supported.all id then
          ["the remote engine has no current calibrated RFC 1242 timestamp source"]
        else ["one or more selected TRex ports do not support IEEE 1588 timestamps"] }
  match spec.latency with
  | none => unavailable
  | some configured =>
    match usableCorrections configured calibration now ieee1588Supported, throughput with
    | some corrections, some throughput => do
      let frames ←
        Effect.forList (latencyFrame document spec device configured corrections) throughput.rates
      let allValid := frames.all fun frame => frame.any fun frame =>
        frame.2.all fun scenario => scenario.2.any fun result => result.valid
      let conforming := spec.mode = .strict ∧ allValid = true ∧ frames.any fun frame => frame.isSome
      pure
        { verdict := if allValid then .noAssertion else .invalid
          methodology :=
            if conforming then "rfc2544-latency-strict/v1" else "rfc2544-latency-partial/v1"
          definition := some configured.definition
          standardConformance :=
            if conforming then "rfc2544-latency-methodology" else "rfc2544-latency-partial"
          calibrationValid := true
          timestampCalibration := calibration
          frames := frames.filterMap id
          issues := [] }
    | _, _ => unavailable

end Latency

section BackToBack

variable (device : BurstDevice σ) (configured : BackToBackSettings)
  (maxBurstPackets : Option ℕ+)

/-- `_back_to_back_trial_sync` -/
def backToBackTrialSync (theoreticalFps : ℚ) : BackToBackTrialFunction σ := fun frameSize burst => do
  let duration ← ofExcept (divide burst theoreticalFps)
  let rate ← document 100
  device frameSize burst rate duration configured.bufferDepletionSeconds

/-- A frame size of `_run_back_to_back_sync`; one without a rate is left out. -/
def burstFrame (entry : Nat × FrameRates) : Effect Exc σ (Option (Nat × BurstFrame)) :=
  match entry.2.fps with
  | none => pure none
  | some fps =>
    if entry.2.theoreticalMaxFps ≤ fps then
      pure (some (entry.1, .notApplicable fps entry.2.theoreticalMaxFps))
    else do
      let result ← measureBackToBack
        (backToBackTrialSync document device configured entry.2.theoreticalMaxFps) entry.1
        (burstSettings configured maxBurstPackets) entry.2.theoreticalMaxFps fps
      pure (some (entry.1, .measured result))

/-- The longest burst fills the longest time, or there is nothing to measure. -/
def fullRange (rates : FrameRates) : Bool :=
  rates.fps.any fun fps => decide (rates.theoreticalMaxFps ≤ fps ∨
    rates.theoreticalMaxFps * configured.maximumBurstSeconds ≤
      (burstSettings configured maxBurstPackets).maximumBurstFrames)

/-- `_run_back_to_back_sync` -/
def runBackToBack (throughput : Option ThroughputSummary) : Effect Exc σ BackToBackSummary :=
  match spec.backToBack, throughput with
  | some configured, some throughput => do
    let measured ←
      Effect.forList (burstFrame document device configured maxBurstPackets) throughput.rates
    let frames := measured.filterMap id
    let allValid : Bool := !frames.isEmpty && frames.all fun frame => match frame.2 with
      | .notApplicable _ _ => true
      | .measured result => result.valid
    let conforming := spec.mode = .strict ∧ allValid = true ∧
      throughput.rates.all fun entry => fullRange configured maxBurstPackets entry.2
    pure
      { verdict := if allValid then .noAssertion else .invalid
        methodology :=
          if conforming then "rfc9004-back-to-back-strict/v1" else "rfc9004-back-to-back-partial/v1"
        standardConformance :=
          if conforming then "rfc9004-back-to-back-methodology"
          else "rfc9004-back-to-back-partial-range"
        frames := frames }
  | _, _ => pure
    { verdict := .invalid
      methodology := "rfc9004-back-to-back-invalid/v1"
      standardConformance := "rfc9004-back-to-back-prerequisite-missing"
      frames := [] }

end BackToBack

end Phases

/-! ### What the phases pass to a document -/

/-- The frame size has tagged trials: there is a correction for it, and a packet for a scenario. -/
def Tagged (spec : Rfc2544SuiteSpec) (calibration : Option LatencyTimestampCalibration) (now : Instant)
    (ieee1588Supported : List Bool) (frameSize : Nat) : Prop :=
  ∃ configured corrections, spec.latency = some configured ∧
    usableCorrections configured calibration now ieee1588Supported = some corrections ∧
    corrections.lookup frameSize ≠ none ∧
    ∃ scenario ∈ configured.scenarios, scenarioPacket spec configured scenario ≠ none

/-- The documents of the trials. -/
def rfcTrialDocument {σ : Type} (ratePercent : ℚ) : Effect Exc σ Rate := ofExcept (trialRate ratePercent)

/-- The documents of the trials, with their rates written down first. -/
def loggedDocument {σ : Type} (ratePercent : ℚ) : Effect Exc (σ × List ℚ) Rate := fun s =>
  (ofExcept (trialRate ratePercent) (s.1, s.2 ++ [ratePercent]))

/-- Every rate that was passed to a document is one that `Rate` accepts. -/
def AcceptedRates {σ : Type} (s : σ × List ℚ) : Prop := ∀ percent ∈ s.2, ∃ rate, trialRate percent = .ok rate

theorem trialRate_eq_ok {percent : ℚ} (hpos : 0 < percent) (hle : percent ≤ 100) :
    ∃ rate, trialRate percent = .ok rate := ⟨_, dif_pos ⟨hpos, hle⟩⟩

theorem loggedDocument_ensures {σ : Type} {percent : ℚ} (hpos : 0 < percent) (hle : percent ≤ 100) :
    Ensures AcceptedRates (loggedDocument percent : Effect Exc (σ × List ℚ) Rate) fun _ => True := by
  obtain ⟨rate, hrate⟩ := trialRate_eq_ok hpos hle
  intro s hs
  rw [loggedDocument, hrate]
  refine ⟨fun percent' hpercent' => ?_, fun _ _ => trivial⟩
  rcases List.mem_append.mp hpercent' with hpercent' | hpercent'
  · exact hs percent' hpercent'
  · obtain rfl := List.mem_singleton.mp hpercent'
    exact ⟨rate, hrate⟩

theorem rfcTrialDocument_reaches {σ : Type} {percent : ℚ} (hpos : 0 < percent) (hle : percent ≤ 100) :
    Reaches (fun _ => True) (rfcTrialDocument percent : Effect Exc σ Rate) fun _ => True := by
  obtain ⟨rate, hrate⟩ := trialRate_eq_ok hpos hle
  rw [rfcTrialDocument, hrate]
  exact .pure trivial

section Specs

variable {σ : Type} {document : ℚ → Effect Exc σ Rate} {spec : Rfc2544SuiteSpec} {I : σ → Prop}
  {K : ∀ {α : Type}, Effect Exc σ α → Prop}

section Latency

variable {device : LatencyDevice σ} {configured : LatencySettings} {packet : RfcPacket}
  {correction throughput : ℚ} {frameSize : Nat} {corrections : List (Nat × ℚ)}
  {entry : Nat × FrameRates}

theorem measureLatency_keeps (hK : Effect.Sequential K)
    (htrial : K (latencyTrialSync document device configured packet correction frameSize throughput)) :
    K (measureLatency document device configured packet correction frameSize throughput) := by
  have hrepetitions := configured.valid.1
  refine hK.bind (hK.forList fun repetition _ => ?_) fun trials => ?_
  · exact hK.bind htrial fun observation => hK.pure _
  · dsimp only
    split
    · next hcomplete =>
      -- a complete measurement has samples, so their mean is defined
      have hne : ((trials.filter fun trial => trial.valid).filterMap fun trial =>
          trial.latencyMicroseconds) ≠ [] := by
        refine List.ne_nil_of_length_pos ?_
        omega
      rw [fmean_eq_ok hne]
      exact hK.bind (hK.pure _) fun _ => hK.pure _
    · exact hK.bind (hK.pure _) fun _ => hK.pure _

theorem latencyFrame_keeps (hK : Effect.Sequential K)
    (htrial : ∀ percent, entry.2.percentL1 = some percent → corrections.lookup entry.1 ≠ none →
      ∀ scenario ∈ configured.scenarios, ∀ packet, scenarioPacket spec configured scenario = some packet →
        ∀ correction,
          K (latencyTrialSync document device configured packet correction entry.1 percent)) :
    K (latencyFrame document spec device configured corrections entry) := by
  unfold latencyFrame
  cases hpercent : entry.2.percentL1 with
  | none => exact hK.pure _
  | some percent =>
    refine hK.bind (hK.forList fun scenario hscenario => ?_) fun _ => hK.pure _
    split
    · next packet correction hpacket hcorrection =>
      refine hK.bind (measureLatency_keeps hK ?_) fun _ => hK.pure _
      exact htrial percent hpercent (by simp [hcorrection]) scenario hscenario packet hpacket correction
    · exact hK.pure _

/-- A latency phase has what the trials of its tagged frames have. -/
theorem runLatency_keeps (hK : Effect.Sequential K) {calibration : Option LatencyTimestampCalibration}
    {now : Instant} {ieee1588Supported : List Bool} {summary : ThroughputSummary}
    (htrial : ∀ entry ∈ summary.rates, ∀ percent, entry.2.percentL1 = some percent →
      Tagged spec calibration now ieee1588Supported entry.1 → ∀ configured, spec.latency = some configured →
        ∀ scenario ∈ configured.scenarios, ∀ packet,
          scenarioPacket spec configured scenario = some packet → ∀ correction,
            K (latencyTrialSync document device configured packet correction entry.1 percent)) :
    K (runLatency document spec device calibration now ieee1588Supported (some summary)) := by
  unfold runLatency
  dsimp only
  split
  · exact hK.pure _
  · next configured hconfigured =>
    split
    · next corrections throughput hcorrections hsummary =>
      obtain rfl := Option.some.inj hsummary
      refine hK.bind (hK.forList fun entry hentry => ?_) fun _ => hK.pure _
      refine latencyFrame_keeps hK fun percent hpercent hcorrection scenario hscenario packet hpacket => ?_
      refine htrial entry hentry percent hpercent ?_ configured hconfigured scenario hscenario packet hpacket
      exact ⟨configured, corrections, hconfigured, hcorrections, hcorrection, scenario, hscenario,
        by simp [hpacket]⟩
    · exact hK.pure _

/-- A measurement at a rate that its document does not take has no result. -/
theorem measureLatency_raises (h : Ensures (fun _ => True) (document throughput) fun _ => False) :
    Ensures (fun _ => True)
      (measureLatency document device configured packet correction frameSize throughput)
      fun _ => False := by
  have hrepetitions := configured.valid.1
  have hone : 1 ∈ List.range' 1 configured.repetitions := by
    rw [List.mem_range'_1]
    omega
  exact (Ensures.forList_absurd hone h.bind_absurd.bind_absurd).bind_absurd

/-- A latency phase has no result when the document of a tagged frame's trials does not take its
rate. -/
theorem runLatency_raises {calibration : Option LatencyTimestampCalibration} {now : Instant}
    {ieee1588Supported : List Bool} {summary : ThroughputSummary} (hentry : entry ∈ summary.rates)
    {percent : ℚ} (hpercent : entry.2.percentL1 = some percent)
    (htagged : Tagged spec calibration now ieee1588Supported entry.1)
    (h : Ensures (fun _ => True) (document percent) fun _ => False) :
    Ensures (fun _ => True)
      (runLatency document spec device calibration now ieee1588Supported (some summary))
      fun _ => False := by
  obtain ⟨configured, corrections, hconfigured, hcorrections, hcorrection, scenario, hscenario,
    hpacket⟩ := htagged
  obtain ⟨correction, hcorrection⟩ := Option.ne_none_iff_exists'.mp hcorrection
  obtain ⟨packet, hpacket⟩ := Option.ne_none_iff_exists'.mp hpacket
  simp only [runLatency, hconfigured, hcorrections]
  refine (Ensures.forList_absurd hentry ?_).bind_absurd
  simp only [latencyFrame, hpercent]
  refine (Ensures.forList_absurd hscenario ?_).bind_absurd
  simp only [hpacket, hcorrection]
  exact (measureLatency_raises h).bind_absurd

end Latency

section BackToBack

variable {device : BurstDevice σ} {configured : BackToBackSettings} {maxBurstPackets : Option ℕ+}
  {entry : Nat × FrameRates} {theoreticalFps : ℚ} {frameSize : Nat}

theorem backToBackTrialSync_ensures (hdocument : Ensures I (document 100) fun _ => True)
    (hdevice : ∀ frameSize burst rate duration depletion,
      Ensures I (device frameSize burst rate duration depletion) fun _ => True) :
    AnswersBursts I (backToBackTrialSync document device configured theoreticalFps) frameSize
      fun _ _ => True := by
  intro burst
  refine Ensures.bind (Q := fun _ => True) ?_ fun _ _ => hdocument.bind fun _ _ => hdevice _ _ _ _ _
  cases divide burst theoreticalFps with
  | ok duration => exact .pure trivial
  | error e => exact .throw e

/-- A back-to-back phase keeps what its document of full rate and its device keep. -/
theorem runBackToBack_ensures (hdocument : Ensures I (document 100) fun _ => True)
    (hdevice : ∀ frameSize burst rate duration depletion,
      Ensures I (device frameSize burst rate duration depletion) fun _ => True)
    (throughput : Option ThroughputSummary) :
    Ensures I (runBackToBack document spec device maxBurstPackets throughput) fun _ => True := by
  have hK := Effect.Sequential.ensures (ε := Exc) I
  unfold runBackToBack
  split
  · refine hK.bind (hK.forList fun entry _ => ?_) fun _ => hK.pure _
    unfold burstFrame
    split
    · exact hK.pure _
    · split
      · exact hK.pure _
      · refine hK.bind ?_ fun _ => hK.pure _
        exact (measureBackToBack_run (backToBackTrialSync_ensures hdocument hdevice)).mono
          fun _ _ => trivial
  · exact hK.pure _

theorem backToBackTrialSync_sends (hpos : 0 < theoreticalFps)
    (hdocument : Reaches (fun _ => True) (document 100) fun _ => True)
    (hdevice : ∀ frameSize burst rate duration depletion,
      Reaches (fun _ => True) (device frameSize burst rate duration depletion) fun _ => True) :
    AlwaysSends (backToBackTrialSync document device configured theoreticalFps) frameSize := by
  intro burst
  refine Reaches.bind (Q := fun _ => True) ?_ fun _ _ => hdocument.bind fun _ _ => hdevice _ _ _ _ _
  rw [divide, if_neg hpos.ne']
  exact .pure trivial

/-- A back-to-back phase returns when its document of full rate and its device do. -/
theorem runBackToBack_reaches {summary : ThroughputSummary}
    (hrates : ∀ entry ∈ summary.rates, 0 < entry.2.theoreticalMaxFps)
    (hdocument : Reaches (fun _ => True) (document 100) fun _ => True)
    (hdevice : ∀ frameSize burst rate duration depletion,
      Reaches (fun _ => True) (device frameSize burst rate duration depletion) fun _ => True) :
    Reaches (fun _ => True) (runBackToBack document spec device maxBurstPackets (some summary))
      fun _ => True := by
  have hK := Effect.Sequential.reaches (ε := Exc) fun _ : σ => True
  unfold runBackToBack
  split
  · next configured throughput hconfigured hsummary =>
    obtain rfl := Option.some.inj hsummary
    refine hK.bind (hK.forList fun entry hentry => ?_) fun _ => hK.pure _
    unfold burstFrame
    split
    · exact hK.pure _
    · split
      · exact hK.pure _
      · refine hK.bind ?_ fun _ => hK.pure _
        exact (measureBackToBack_total (answersBursts_true _ _)
          (backToBackTrialSync_sends (hrates entry hentry) hdocument hdevice)).mono fun _ _ => trivial
  · exact hK.pure _

end BackToBack

end Specs

/-! ### Suites -/

/-- The rates of a throughput phase, computed from results in range. -/
def ValidRates (lineRate : ℚ) (rates : List (Nat × FrameRates)) : Prop :=
  ∀ entry ∈ rates, ∃ item : FrameSearchResult,
    entry = (item.frameSize, FrameRates.ofResult lineRate item) ∧
      ∀ percent, item.throughputPercentL1 = some percent → 0 ≤ percent ∧ percent ≤ 100

/-- The phases after the throughput go through with the rates of a throughput phase, on every device:
each rate that is passed to a document is accepted, and a device that never raises gets a measurement
of both. -/
structure Completes (spec : Rfc2544SuiteSpec) (calibration : Option LatencyTimestampCalibration)
    (now : Instant) (ieee1588Supported : List Bool) (maxBurstPackets : Option ℕ+)
    (summary : ThroughputSummary) : Prop where
  accepted : ∀ {σ : Type} (latencyDevice : LatencyDevice σ) (burstDevice : BurstDevice σ),
    Ensures AcceptedRates
      (runLatency loggedDocument spec
        (fun packet correction frameSize rate duration delay =>
          (latencyDevice packet correction frameSize rate duration delay).onFirst)
        calibration now ieee1588Supported (some summary)) (fun _ => True) ∧
    Ensures AcceptedRates
      (runBackToBack loggedDocument spec
        (fun frameSize burst rate duration depletion =>
          (burstDevice frameSize burst rate duration depletion).onFirst)
        maxBurstPackets (some summary)) fun _ => True
  returns : ∀ {σ : Type} (latencyDevice : LatencyDevice σ) (burstDevice : BurstDevice σ),
    (∀ packet correction frameSize rate duration delay, Reaches (fun _ => True)
      (latencyDevice packet correction frameSize rate duration delay) fun _ => True) →
    (∀ frameSize burst rate duration depletion, Reaches (fun _ => True)
      (burstDevice frameSize burst rate duration depletion) fun _ => True) →
    Reaches (fun _ => True)
      (runLatency rfcTrialDocument spec latencyDevice calibration now ieee1588Supported (some summary))
      (fun _ => True) ∧
    Reaches (fun _ => True)
      (runBackToBack rfcTrialDocument spec burstDevice maxBurstPackets (some summary)) fun _ => True

theorem onFirst_accepted {σ α : Type} (m : Effect Exc σ α) :
    Ensures AcceptedRates (m.onFirst : Effect Exc (σ × List ℚ) α) fun _ => True :=
  fun _ hs => ⟨hs, fun _ _ => trivial⟩

theorem ValidRates.theoretical_pos {lineRate : ℚ} {rates : List (Nat × FrameRates)}
    (h : ValidRates lineRate rates) (hline : 0 < lineRate) :
    ∀ entry ∈ rates, 0 < entry.2.theoreticalMaxFps := by
  intro entry hentry
  obtain ⟨item, rfl, -⟩ := h entry hentry
  have hsize : (0 : ℚ) ≤ item.frameSize := Nat.cast_nonneg _
  exact div_pos hline (by linarith)

section Completes

variable {spec : Rfc2544SuiteSpec} {calibration : Option LatencyTimestampCalibration} {now : Instant}
  {ieee1588Supported : List Bool} {maxBurstPackets : Option ℕ+} {summary : ThroughputSummary}

theorem Completes.nonzero
    (h : Completes spec calibration now ieee1588Supported maxBurstPackets summary) :
    ∀ entry ∈ summary.rates, Tagged spec calibration now ieee1588Supported entry.1 →
      entry.2.percentL1 ≠ some 0 := by
  intro entry hentry htagged hzero
  have hrefused : Ensures (fun _ => True) (rfcTrialDocument 0 : Effect Exc Unit Rate)
      fun _ => False := .throw _
  let device : LatencyDevice Unit := fun _ _ _ _ _ _ => pure ⟨true, some 1, .null⟩
  obtain ⟨hreturns, -⟩ := h.returns device (fun _ _ _ _ _ => pure ⟨true, 1, 1, .null⟩)
    (fun _ _ _ _ _ _ => .pure trivial) (fun _ _ _ _ _ => .pure trivial)
  have hraises : Ensures (fun _ => True)
      (runLatency rfcTrialDocument spec device calibration now ieee1588Supported (some summary))
      fun _ => False := runLatency_raises hentry hzero htagged hrefused
  obtain ⟨-, measurement, hmeasurement, -⟩ := hreturns () trivial
  exact (hraises () trivial).2 measurement hmeasurement

theorem completes_of_nonzero {lineRate : ℚ} (hline : 0 < lineRate)
    (hrates : ValidRates lineRate summary.rates)
    (h : ∀ entry ∈ summary.rates, Tagged spec calibration now ieee1588Supported entry.1 →
      entry.2.percentL1 ≠ some 0) :
    Completes spec calibration now ieee1588Supported maxBurstPackets summary := by
  have hrange : ∀ entry ∈ summary.rates, ∀ percent, entry.2.percentL1 = some percent →
      Tagged spec calibration now ieee1588Supported entry.1 → 0 < percent ∧ percent ≤ 100 := by
    intro entry hentry percent hpercent htagged
    have hne := h entry hentry htagged
    obtain ⟨item, rfl, hitem⟩ := hrates entry hentry
    obtain ⟨hnonneg, hle⟩ := hitem percent hpercent
    refine ⟨lt_of_le_of_ne hnonneg fun hzero => ?_, hle⟩
    exact hne (by rw [hpercent, ← hzero])
  refine ⟨fun latencyDevice burstDevice => ⟨?_, ?_⟩, fun latencyDevice burstDevice hlatency hburst =>
    ⟨?_, ?_⟩⟩
  · refine runLatency_keeps (Effect.Sequential.ensures AcceptedRates) ?_
    intro entry hentry percent hpercent htagged configured _ _ _ packet _ correction
    obtain ⟨hpos, hle⟩ := hrange entry hentry percent hpercent htagged
    exact (loggedDocument_ensures hpos hle).bind fun _ _ => onFirst_accepted _
  · exact runBackToBack_ensures (loggedDocument_ensures (by norm_num) le_rfl)
      (fun _ _ _ _ _ => onFirst_accepted _) _
  · refine runLatency_keeps (Effect.Sequential.reaches fun _ => True) ?_
    intro entry hentry percent hpercent htagged configured _ _ _ packet _ correction
    obtain ⟨hpos, hle⟩ := hrange entry hentry percent hpercent htagged
    exact (rfcTrialDocument_reaches hpos hle).bind fun _ _ => hlatency _ _ _ _ _ _
  · exact runBackToBack_reaches (hrates.theoretical_pos hline)
      (rfcTrialDocument_reaches (by norm_num) le_rfl) hburst

end Completes

/-- The rates of results in range, and what is chosen of two of them, are valid. -/
theorem ResultsOf.validRates {sizes : List Nat} {results : List FrameSearchResult}
    (h : ResultsOf sizes results) (lineRate : ℚ) :
    ValidRates lineRate
      (results.map fun item => (item.frameSize, FrameRates.ofResult lineRate item)) := by
  intro entry hentry
  obtain ⟨item, hitem, rfl⟩ := List.mem_map.mp hentry
  exact ⟨item, rfl, h.range item hitem⟩

theorem conservative_eq (forward reverse : FrameRates) :
    conservative forward reverse = forward ∨ conservative forward reverse = reverse := by
  unfold conservative
  split
  · exact .inl rfl
  · exact .inr rfl
  · split
    · exact .inl rfl
    · exact .inr rfl

/-- Every throughput phase leaves valid rates. -/
theorem runThroughput_validRates {σ : Type} (trial : Option Selected → TrialFunction σ)
    (spec : Rfc2544ThroughputSpec) {ceiling : ℚ} (hpos : 0 < ceiling) (hle : ceiling ≤ 100)
    (lineRate : ℚ) :
    Ensures (fun _ => True) (runThroughput trial spec ceiling lineRate) fun summary =>
      ValidRates lineRate summary.rates := by
  unfold runThroughput
  split
  · refine (searchFrames_results trial spec hpos hle _).bind fun forward hforward => ?_
    refine (searchFrames_results trial spec hpos hle _).bind fun reverse hreverse => .pure ?_
    have hsizes : List.Forall₂ (fun f r : FrameSearchResult => f.frameSize = r.frameSize) forward
        reverse := by
      have heq := hforward.sizes.trans hreverse.sizes.symm
      rw [← List.forall₂_eq_eq_eq, List.forall₂_map_left_iff, List.forall₂_map_right_iff] at heq
      exact heq
    have hforwardRates := hforward.range
    have hreverseRates := hreverse.range
    show ValidRates lineRate (List.zipWith _ (forward.map _) (reverse.map _))
    clear hforward hreverse
    induction hsizes with
    | nil => simp [ValidRates]
    | @cons f r forward reverse hsize _ ih =>
      simp only [List.map_cons, List.zipWith_cons_cons]
      intro entry hentry
      rcases List.mem_cons.mp hentry with rfl | hentry
      · rcases conservative_eq (.ofResult lineRate f) (.ofResult lineRate r) with heq | heq
        · exact ⟨f, by rw [heq], hforwardRates f List.mem_cons_self⟩
        · exact ⟨r, by rw [heq, hsize], hreverseRates r List.mem_cons_self⟩
      · exact ih (fun item hitem => hforwardRates item (List.mem_cons_of_mem _ hitem))
          (fun item hitem => hreverseRates item (List.mem_cons_of_mem _ hitem)) entry hentry
  · exact (searchFrames_results trial spec hpos hle _).bind fun results hresults =>
      .pure (hresults.validRates lineRate)

/-- The phases go through on every device exactly when no frame size with tagged trials has the
throughput zero. -/
theorem completes_iff (spec : Rfc2544SuiteSpec) (calibration : Option LatencyTimestampCalibration)
    (now : Instant) (ieee1588Supported : List Bool) (maxBurstPackets : Option ℕ+)
    (summary : ThroughputSummary) {lineRate : ℚ} (hline : 0 < lineRate)
    (hrates : ValidRates lineRate summary.rates) :
    Completes spec calibration now ieee1588Supported maxBurstPackets summary ↔
      ∀ entry ∈ summary.rates, Tagged spec calibration now ieee1588Supported entry.1 →
        entry.2.percentL1 ≠ some 0 :=
  ⟨Completes.nonzero, completes_of_nonzero hline hrates⟩

/-- A fast suite of one frame size, with tagged trials after the throughput. -/
def latencySuite : Rfc2544SuiteSpec where
  ports := ⟨0, 1, .unidirectional, Nat.zero_ne_one⟩
  mode := .fast
  packet :=
    { ethernet := ⟨.value ⟨0x020000000001, Lab.clientMac_lt, Lab.clientMac_unicast⟩,
        .value ⟨0x020000000002, Lab.serverMac_lt, Lab.serverMac_unicast⟩⟩
      network := some Lab.network
      transport := none
      stack := Lab.stack
      hasNetwork := Lab.hasNetwork }
  limits := ⟨300000, 28800000, Lab.limits_pos⟩
  frameSizes := some [64]
  assertion := none
  directionMode := some .unidirectional
  reversePacket := none
  strict := by simp
  fast := by simp
  oneWay := Lab.oneWay
  twoWay := Lab.not_twoWay
  tests := [.throughput, .latency, .backToBack]
  latency := some
    { definition := .storeAndForward
      scenarios := [.sameDestination]
      newDestinationPacket := none
      unique := by decide
      valid := Lab.latency_valid }
  backToBack := some { maximumBurstFrames := 1000, valid := Lab.backToBack_valid }
  ne := by decide
  unique := by decide
  asserted := by simp
  latencySettings := by simp
  latencyOrder := fun _ => ⟨by decide, by decide⟩
  strictScenarios := by simp
  backToBackSettings := by simp
  backToBackOrder := fun _ => ⟨by decide, by decide⟩

/-- A calibration for frames of 64 bytes. -/
def sixtyFourCalibration : LatencyTimestampCalibration where
  calibrationId := "lab"
  calibrationDigest := none
  calibrationArtifact := none
  measuredAt := 0
  validUntil := 1000
  maximumUncertaintyMicroseconds := 1
  correctionMicroseconds := [(.storeAndForward, [(64, 0)])]
  ordered := by decide

/-- A throughput phase of 10 Gb/s that ends at a rate for 64 byte frames. -/
def sixtyFourSummary (percent : ℚ) : ThroughputSummary where
  verdict := .noAssertion
  mode := .fast
  standardConformance := throughputConformance .fast
  ceilingPercentL1 := 100
  resolutionPercentL1 := 1
  rates := [(64, FrameRates.ofResult 10000000000 ⟨64, some percent, true, []⟩)]
  trials := [(64, [])]
  frames := none
  directions := none

theorem sixtyFourSummary_validRates {percent : ℚ} (hnonneg : 0 ≤ percent) (hle : percent ≤ 100) :
    ValidRates 10000000000 (sixtyFourSummary percent).rates := by
  intro entry hentry
  obtain rfl := List.mem_singleton.mp hentry
  refine ⟨⟨64, some percent, true, []⟩, rfl, fun percent' hpercent' => ?_⟩
  obtain rfl := Option.some.inj hpercent'
  exact ⟨hnonneg, hle⟩

theorem completes_half :
    Completes latencySuite (some sixtyFourCalibration) 500 [true, true] none (sixtyFourSummary 50) := by
  have hrates : ValidRates 10000000000 (sixtyFourSummary 50).rates :=
    sixtyFourSummary_validRates (by norm_num) (by norm_num)
  refine (completes_iff latencySuite (some sixtyFourCalibration) 500 [true, true] none
    (sixtyFourSummary 50) (by norm_num) hrates).mpr fun entry hentry _ => ?_
  obtain rfl := List.mem_singleton.mp hentry
  simp [FrameRates.ofResult]

/-- With the throughput zero, which is a valid one, the latency phase raises on every device. -/
theorem not_completes_zero :
    ValidRates 10000000000 (sixtyFourSummary 0).rates ∧
      ¬Completes latencySuite (some sixtyFourCalibration) 500 [true, true] none
        (sixtyFourSummary 0) := by
  refine ⟨sixtyFourSummary_validRates le_rfl (by norm_num), fun hcompletes => ?_⟩
  refine hcompletes.nonzero _ List.mem_cons_self ?_ rfl
  exact ⟨_, [(64, 0)], rfl, by decide, by decide, .sameDestination, by decide, by simp [scenarioPacket]⟩

end TrexCli.Rfc2544
