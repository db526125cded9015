import TrexCli.Rfc2544.Calibration
import TrexCli.Rfc2544.Publication
import TrexCli.Rfc2544.Trials

/-!
# Suites

`_run_rfc2544_suite_sync` of the remote engine: the tests of a suite one after the other, over a device
that is told the streams of each trial it runs. The runs choose rates up to the ceiling of the policy,
and a trial offers each port no more than its rate; a burst is sent at the rate of the line, whatever
the ceiling is. So every trial of a suite without bursts stays within the ceiling
(`offers_within_ceiling`).
-/

namespace TrexCli.Rfc2544

open Effect (Ensures)

/-- What the generator and the device under test make of the trials: continuous traffic, traffic with a
tagged frame, and bursts. -/
structure SuiteDevice (σ : Type) where
  continuous : List OfferedStream → TrialRequest → Effect Exc σ TrialObservation
  tagged : List OfferedStream → ℚ → ℚ → ℚ → Effect Exc σ LatencyObservation
  burst : List OfferedStream → Nat → ℚ → ℚ → Effect Exc σ BackToBackObservation

/-- What a run reads of its session, of the clock and of the configuration. -/
structure SuiteSession where
  lineRate : ℚ
  calibration : Option LatencyTimestampCalibration
  now : Instant
  ieee1588Supported : List Bool
  maxBurstPackets : Option ℕ+

/-- The measurement of a test. -/
inductive SuiteMeasurement where
  | throughput (summary : ThroughputSummary)
  | frameLoss (summary : FrameLossSummary)
  | latency (summary : LatencySummary)
  | backToBack (summary : BackToBackSummary)

namespace SuiteMeasurement

def verdict : SuiteMeasurement → Verdict
  | throughput summary => summary.verdict
  | frameLoss summary => summary.verdict
  | latency summary => summary.verdict
  | backToBack summary => summary.verdict

/-- The measurement of the throughput, if it is one. -/
def throughput? : SuiteMeasurement → Option ThroughputSummary
  | throughput summary => some summary
  | _ => none

end SuiteMeasurement

/-- The verdict of a suite. -/
def suiteVerdict (verdicts : List Verdict) : Verdict :=
  if .invalid ∈ verdicts then .invalid
  else if .fail ∈ verdicts then .fail
  else if .pass ∈ verdicts then .pass
  else .noAssertion

section Runs

variable {σ : Type} (device : SuiteDevice σ)

section Trials

variable (spec : Rfc2544ThroughputSpec)

/-- `_rfc_trial_sync` -/
def rfcTrialSync (selected : Option Selected) : TrialFunction σ := fun req => do
  let doc ← ofExcept
    (spec.trialDocument req.frameSize req.ratePercent req.durationSeconds selected)
  device.continuous doc.continuousStreams req

/-- `_latency_trial_sync`, after the document has its rate -/
def taggedTrial : LatencyDevice σ := fun packet correction frameSize rate duration delay => do
  let doc ← ofExcept ({ spec with packet }.trialDocument frameSize rate.value duration none)
  if doc.directions.length = 1 then device.tagged doc.continuousStreams correction duration delay
  else pure ⟨false, none, .obj
    [("reason", .str "calibrated latency currently requires one unidirectional stream")]⟩

/-- `_back_to_back_trial_sync`, after the document has its rate -/
def burstTrial : BurstDevice σ := fun frameSize burst rate duration depletion => do
  let doc ← ofExcept (spec.trialDocument frameSize rate.value (max duration (1 / 1000)) none)
  device.burst doc.burstStreams burst duration depletion

end Trials

variable (spec : Rfc2544SuiteSpec) (ceiling : ℚ) (session : SuiteSession)

/-- One test, with the throughput that was measured before. -/
def runTest (throughput : Option ThroughputSummary) : TestName → Effect Exc σ SuiteMeasurement
  | .throughput => do
    let summary ← runThroughput (rfcTrialSync device spec.toRfc2544ThroughputSpec)
      spec.toRfc2544ThroughputSpec ceiling session.lineRate
    pure (.throughput summary)
  | .frameLoss => do
    let summary ← runFrameLoss (rfcTrialSync device spec.toRfc2544ThroughputSpec)
      spec.toRfc2544ThroughputSpec ceiling
    pure (.frameLoss summary)
  | .latency => do
    let summary ← runLatency rfcTrialDocument spec (taggedTrial device spec.toRfc2544ThroughputSpec)
      session.calibration session.now session.ieee1588Supported throughput
    pure (.latency summary)
  | .backToBack => do
    let summary ← runBackToBack rfcTrialDocument spec
      (burstTrial device spec.toRfc2544ThroughputSpec) session.maxBurstPackets throughput
    pure (.backToBack summary)

/-- The tests in their order. -/
def runTests (throughput : Option ThroughputSummary) :
    List TestName → Effect Exc σ (List SuiteMeasurement)
  | [] => pure []
  | test :: tests => do
    let measurement ← runTest device spec ceiling session throughput test
    let rest ← runTests (measurement.throughput?.or throughput) tests
    pure (measurement :: rest)

/-- `_run_rfc2544_suite_sync` -/
def runSuite : Effect Exc σ (Verdict × List SuiteMeasurement) := do
  let measurements ← runTests device spec ceiling session none spec.tests
  pure (suiteVerdict (measurements.map SuiteMeasurement.verdict), measurements)

end Runs

/-! ### Trials that are started -/

/-- A trial that is written down when it starts. -/
def started {σ α : Type} (streams : List OfferedStream) (m : Effect Exc σ α) :
    Effect Exc (σ × List (List OfferedStream)) α :=
  fun s => m.onFirst (s.1, s.2 ++ [streams])

/-- The device, with the streams of all trials that it was told to start. -/
def SuiteDevice.logged {σ : Type} (device : SuiteDevice σ) :
    SuiteDevice (σ × List (List OfferedStream)) where
  continuous streams req := started streams (device.continuous streams req)
  tagged streams correction duration delay :=
    started streams (device.tagged streams correction duration delay)
  burst streams frames duration depletion :=
    started streams (device.burst streams frames duration depletion)

/-- All trials that were started are of this kind. -/
def Started {σ : Type} (P : List OfferedStream → Prop) (s : σ × List (List OfferedStream)) : Prop :=
  ∀ streams ∈ s.2, P streams

theorem started_ensures {σ α : Type} {P : List OfferedStream → Prop} {streams : List OfferedStream}
    (h : P streams) (m : Effect Exc σ α) : Ensures (Started P) (started streams m) fun _ => True := by
  intro s hs
  refine ⟨fun other hother => ?_, fun _ _ => trivial⟩
  rcases List.mem_append.mp hother with hbefore | hnow
  · exact hs other hbefore
  · exact List.mem_singleton.mp hnow ▸ h

theorem ofExcept_ensures {σ α : Type} {I : σ → Prop} (x : Except Exc α) :
    Ensures I (ofExcept x) fun a => x = .ok a := by
  cases x with
  | ok a => exact .pure rfl
  | error e => exact .throw e

section Specs

variable {σ : Type} {device : SuiteDevice σ} {P : List OfferedStream → Prop}

/-- Trials whose document allows it start what `P` allows. -/
theorem rfcTrialSync_safe {spec : Rfc2544ThroughputSpec} {selected : Option Selected} {ceiling : ℚ}
    (h : ∀ frameSize ratePercent durationSeconds doc, ratePercent ≤ ceiling →
      spec.trialDocument frameSize ratePercent durationSeconds selected = .ok doc →
        P doc.continuousStreams) :
    SafeUpTo (Started P) (rfcTrialSync device.logged spec selected) ceiling :=
  fun req _ hle => (ofExcept_ensures _).bind fun doc hdoc =>
    started_ensures (h req.frameSize req.ratePercent req.durationSeconds doc hle hdoc) _

theorem taggedTrial_ensures {spec : Rfc2544ThroughputSpec} {packet : RfcPacket} {correction : ℚ}
    {frameSize : Nat} {rate : Rate} {duration delay : ℚ}
    (h : ∀ doc, { spec with packet }.trialDocument frameSize rate.value duration none = .ok doc →
      P doc.continuousStreams) :
    Ensures (Started P) (taggedTrial device.logged spec packet correction frameSize rate duration delay)
      fun _ => True := by
  refine (ofExcept_ensures _).bind fun doc hdoc => ?_
  split
  · exact started_ensures (h doc hdoc) _
  · exact .pure trivial

theorem burstTrial_ensures {spec : Rfc2544ThroughputSpec} {frameSize burst : Nat} {rate : Rate}
    {duration depletion : ℚ}
    (h : ∀ durationSeconds doc, spec.trialDocument frameSize rate.value durationSeconds none = .ok doc →
      P doc.burstStreams) :
    Ensures (Started P) (burstTrial device.logged spec frameSize burst rate duration depletion)
      fun _ => True :=
  (ofExcept_ensures _).bind fun doc hdoc => started_ensures (h _ doc hdoc) _

end Specs

/-! ### Runs -/

section Runs

variable {σ : Type} {I : σ → Prop} {trial : Option Selected → TrialFunction σ}
  {spec : Rfc2544ThroughputSpec} {ceiling : ℚ}

/-- The rates of a throughput run that are reported are at most the ceiling. -/
def RatesUpTo (ceiling : ℚ) (rates : List (Nat × FrameRates)) : Prop :=
  ∀ entry ∈ rates, ∀ percent, entry.2.percentL1 = some percent → percent ≤ ceiling

theorem searchFrames_ensures (hpos : 0 < ceiling) (selected : Option Selected)
    (h : SafeUpTo I (trial selected) ceiling) :
    Ensures I (searchFrames trial spec ceiling selected) fun results =>
      ∀ item ∈ results, ∀ percent, item.throughputPercentL1 = some percent → percent ≤ ceiling := by
  obtain ⟨hsamples, hconfirm⟩ := settingsFor_samples spec.mode ceiling
  refine (Ensures.forList fun size _ =>
    searchFrame_spec size (settingsFor spec.mode ceiling) hpos hsamples hconfirm h).mono ?_
  intro results hresults item hitem percent hpercent
  obtain ⟨_, -, -, hsearched⟩ := exists_left_of_forall₂ hresults hitem
  exact (hsearched.range hpos hpercent).2

theorem RatesUpTo.ofResults {lineRate : ℚ} {results : List FrameSearchResult}
    (h : ∀ item ∈ results, ∀ percent, item.throughputPercentL1 = some percent → percent ≤ ceiling) :
    RatesUpTo ceiling (results.map fun item => (item.frameSize, FrameRates.ofResult lineRate item)) := by
  intro entry hentry percent hpercent
  obtain ⟨item, hitem, rfl⟩ := List.mem_map.mp hentry
  exact h item hitem percent hpercent

theorem RatesUpTo.conservative {forward reverse : List (Nat × FrameRates)}
    (hforward : RatesUpTo ceiling forward) (hreverse : RatesUpTo ceiling reverse) :
    RatesUpTo ceiling (List.zipWith (fun f r => (f.1, Rfc2544.conservative f.2 r.2)) forward reverse) := by
  intro entry hentry percent hpercent
  obtain ⟨i, hi⟩ := List.mem_iff_getElem?.mp hentry
  obtain ⟨f, r, hf, hr, rfl⟩ := List.getElem?_zipWith_eq_some.mp hi
  rcases conservative_eq f.2 r.2 with heq | heq
  · exact hforward f (List.mem_of_getElem? hf) percent (heq ▸ hpercent)
  · exact hreverse r (List.mem_of_getElem? hr) percent (heq ▸ hpercent)

/-- A throughput run keeps what its trials up to the ceiling keep. -/
theorem runThroughput_ensures (hpos : 0 < ceiling) (h : ∀ selected, SafeUpTo I (trial selected) ceiling)
    (lineRate : ℚ) :
    Ensures I (runThroughput trial spec ceiling lineRate) fun summary =>
      RatesUpTo ceiling summary.rates := by
  unfold runThroughput
  split
  · refine (searchFrames_ensures hpos _ (h _)).bind fun forward hforward => ?_
    refine (searchFrames_ensures hpos _ (h _)).bind fun reverse hreverse => .pure ?_
    exact (RatesUpTo.ofResults hforward).conservative (RatesUpTo.ofResults hreverse)
  · exact (searchFrames_ensures hpos _ (h _)).bind fun results hresults =>
      .pure (RatesUpTo.ofResults hresults)

theorem runFrameLoss_ensures (h : ∀ selected, SafeUpTo I (trial selected) ceiling) :
    Ensures I (runFrameLoss trial spec ceiling) fun _ => True := by
  have hK := Effect.Sequential.ensures (ε := Exc) I
  have hframes : ∀ selected, Ensures I (measureFrames trial spec ceiling selected) fun _ => True :=
    fun selected => hK.bind (hK.forList fun size _ =>
      (measureFrameLoss_spec (h selected)).mono fun _ _ => trivial) fun _ => hK.pure _
  unfold runFrameLoss
  split
  · exact hK.bind (hframes _) fun _ => hK.bind (hframes _) fun _ => hK.pure _
  · exact hK.bind (hframes _) fun _ => hK.pure _

end Runs

/-- The trials of a suite, of which the continuous ones have rates up to a ceiling, start what `P`
allows. -/
structure StartsOnly (P : List OfferedStream → Prop) (spec : Rfc2544SuiteSpec) (ceiling : ℚ) : Prop where
  continuous : ∀ frameSize ratePercent durationSeconds selected doc, ratePercent ≤ ceiling →
    spec.trialDocument frameSize ratePercent durationSeconds selected = .ok doc → P doc.continuousStreams
  tagged : ∀ configured, spec.latency = some configured → ∀ scenario ∈ configured.scenarios, ∀ packet,
    scenarioPacket spec configured scenario = some packet → ∀ frameSize ratePercent durationSeconds doc,
      ratePercent ≤ ceiling →
      { spec.toRfc2544ThroughputSpec with packet }.trialDocument frameSize ratePercent durationSeconds
        none = .ok doc → P doc.continuousStreams
  burst : .backToBack ∈ spec.tests → ∀ frameSize ratePercent durationSeconds doc,
    spec.trialDocument frameSize ratePercent durationSeconds none = .ok doc → P doc.burstStreams

section Suite

variable {σ : Type} {device : SuiteDevice σ} {P : List OfferedStream → Prop} {spec : Rfc2544SuiteSpec}
  {ceiling : ℚ} {session : SuiteSession}

theorem StartsOnly.rfcTrial (h : StartsOnly P spec ceiling) (selected : Option Selected) :
    SafeUpTo (Started P) (rfcTrialSync device.logged spec.toRfc2544ThroughputSpec selected) ceiling :=
  rfcTrialSync_safe fun frameSize ratePercent durationSeconds doc =>
    h.continuous frameSize ratePercent durationSeconds selected doc

/-- One test starts what the trials start, and leaves rates up to the ceiling. -/
theorem StartsOnly.runTest (hpos : 0 < ceiling) (h : StartsOnly P spec ceiling) {test : TestName}
    (htest : test ∈ spec.tests) {throughput : Option ThroughputSummary}
    (hrates : ∀ summary, throughput = some summary → RatesUpTo ceiling summary.rates) :
    Ensures (Started P) (runTest device.logged spec ceiling session throughput test)
      fun measurement => ∀ summary, measurement.throughput? = some summary →
        RatesUpTo ceiling summary.rates := by
  have hK := Effect.Sequential.ensures (ε := Exc) (Started P (σ := σ))
  cases test with
  | throughput =>
    refine (runThroughput_ensures hpos h.rfcTrial session.lineRate).bind fun summary hsummary => ?_
    exact .pure fun summary' heq => Option.some.inj heq ▸ hsummary
  | frameLoss =>
    refine (runFrameLoss_ensures h.rfcTrial).bind fun summary _ => .pure ?_
    exact fun summary' heq => nomatch heq
  | latency =>
    refine Ensures.bind (Q := fun _ => True) ?_ fun summary _ => .pure fun summary' heq => nomatch heq
    cases throughput with
    | none =>
      unfold runLatency
      dsimp only
      split
      · exact hK.pure _
      · split
        · next hsome => cases hsome
        · exact hK.pure _
    | some summary =>
      refine runLatency_keeps hK fun entry hentry percent hpercent _ configured hconfigured scenario
        hscenario packet hpacket correction => ?_
      refine (ofExcept_ensures (trialRate percent)).bind fun rate hrate => ?_
      refine taggedTrial_ensures fun doc hdoc => ?_
      refine h.tagged configured hconfigured scenario hscenario packet hpacket _ _ _ doc ?_ hdoc
      rw [(value_of_trialRate hrate).1]
      exact hrates summary rfl entry hentry percent hpercent
  | backToBack =>
    refine Ensures.bind (Q := fun _ => True) ?_ fun summary _ => .pure fun summary' heq => nomatch heq
    refine runBackToBack_ensures ?_ (fun frameSize burst rate duration depletion => ?_) throughput
    · exact (ofExcept_ensures (trialRate 100)).mono fun _ _ => trivial
    · exact burstTrial_ensures (h.burst htest frameSize rate.value)

theorem StartsOnly.runTests (hpos : 0 < ceiling) (h : StartsOnly P spec ceiling) {tests : List TestName}
    (htests : tests ⊆ spec.tests) {throughput : Option ThroughputSummary}
    (hrates : ∀ summary, throughput = some summary → RatesUpTo ceiling summary.rates) :
    Ensures (Started P) (runTests device.logged spec ceiling session throughput tests) fun _ => True := by
  induction tests generalizing throughput with
  | nil => exact .pure trivial
  | cons test tests ih =>
    obtain ⟨htest, hrest⟩ := List.cons_subset.mp htests
    refine (h.runTest hpos htest hrates).bind fun measurement hmeasurement => ?_
    refine (ih hrest fun summary hsummary => ?_).bind fun _ _ => .pure trivial
    cases hthroughput : measurement.throughput? with
    | some measured =>
      rw [hthroughput, Option.some_or] at hsummary
      exact Option.some.inj hsummary ▸ hmeasurement measured hthroughput
    | none =>
      rw [hthroughput, Option.none_or] at hsummary
      exact hrates summary hsummary

/-- A suite starts what its trials start. -/
theorem StartsOnly.runSuite (hpos : 0 < ceiling) (h : StartsOnly P spec ceiling) :
    Ensures (Started P) (runSuite device.logged spec ceiling session) fun _ => True :=
  (h.runTests hpos (List.Subset.refl _) (by simp)).bind fun _ _ => .pure trivial

/-- The trials stay within the ceiling on each port. -/
def Within (ceiling : ℚ) (streams : List OfferedStream) : Prop := ∀ port, offered streams port ≤ ceiling

/-- The trials of a suite without bursts, or with a ceiling of the line rate, stay within the ceiling. -/
theorem startsOnly_within (h : .backToBack ∉ spec.tests ∨ ceiling = 100) :
    StartsOnly (Within ceiling) spec ceiling where
  continuous _ _ _ _ _ hle hdoc port := (trialDocument_continuous hdoc port).trans hle
  tagged _ _ _ _ _ _ _ _ _ _ hle hdoc port := (trialDocument_continuous hdoc port).trans hle
  burst := by
    intro hburst frameSize ratePercent durationSeconds doc hdoc port
    rcases h with hnot | hfull
    · exact absurd hburst hnot
    · exact hfull ▸ trialDocument_burst hdoc port

/-- Under every policy, each trial that a throughput run starts stays within the ceiling on each port,
and so does each trial of a suite that sends no bursts or whose ceiling is the line rate. -/
theorem offers_within_ceiling (policy : SafetyPolicy) (device : SuiteDevice σ) (session : SuiteSession) :
    (∀ spec : Rfc2544ThroughputSpec,
      Ensures (Started (Within policy.maxPercentL1))
        (runThroughput (rfcTrialSync device.logged spec) spec policy.maxPercentL1 session.lineRate)
        fun _ => True) ∧
    ∀ spec : Rfc2544SuiteSpec, .backToBack ∉ spec.tests ∨ policy.maxPercentL1 = 100 →
      Ensures (Started (Within policy.maxPercentL1))
        (runSuite device.logged spec policy.maxPercentL1 session) fun _ => True := by
  have hpos := policy.percentL1.1
  refine ⟨fun spec => ?_, fun spec h => (startsOnly_within h).runSuite hpos⟩
  have htrial : ∀ selected, SafeUpTo (Started (Within policy.maxPercentL1))
      (rfcTrialSync device.logged spec selected) policy.maxPercentL1 := fun selected =>
    rfcTrialSync_safe fun _ _ _ _ hle hdoc port => (trialDocument_continuous hdoc port).trans hle
  exact (runThroughput_ensures hpos htrial session.lineRate).mono fun _ _ => trivial

end Suite

/-- A policy of half the line rate. -/
def halfPolicy : SafetyPolicy := { weeklyPolicy with maxPercentL1 := 50, percentL1 := by norm_num }

/-- A fast suite of one frame size that measures the throughput alone. -/
def throughputSuite : Rfc2544SuiteSpec :=
  { latencySuite with
    tests := [.throughput]
    latency := none
    backToBack := none
    ne := by decide
    unique := by decide
    asserted := by simp
    latencySettings := by simp
    latencyOrder := by simp
    strictScenarios := by simp
    backToBackSettings := by simp
    backToBackOrder := by simp }

/-- The suite with bursts after the throughput. -/
def burstSuite : Rfc2544SuiteSpec :=
  { throughputSuite with
    tests := [.throughput, .backToBack]
    backToBack := some { maximumBurstFrames := 1000, valid := Lab.backToBack_valid }
    ne := by decide
    unique := by decide
    asserted := by simp [throughputSuite, latencySuite]
    latencySettings := by simp [throughputSuite]
    latencyOrder := by simp
    backToBackSettings := by simp
    backToBackOrder := fun _ => ⟨by decide, by decide⟩ }

/-- A device that loses nothing, and a generator that fails while it sends a burst. -/
def failingBursts : SuiteDevice Unit where
  continuous _ _ := pure (lost 0)
  tagged _ _ _ _ := pure ⟨true, some 1, .null⟩
  burst _ _ _ _ := Effect.throw (.exception "TRexError")

/-- A session of 10 Gb/s without a calibration. -/
def plainSession : SuiteSession := ⟨10000000000, none, 500, [true, true], none⟩

theorem offers_within_ceiling_throughputSuite :
    Ensures (Started (Within 50)) (runSuite failingBursts.logged throughputSuite 50 plainSession)
      fun _ => True :=
  (offers_within_ceiling halfPolicy failingBursts plainSession).2 throughputSuite (.inl (by decide))

section Breaks

open Effect (Reaches)

variable {σ α β : Type} {P : List OfferedStream → Prop}

/-- The computation raises, after a trial that `P` does not allow. -/
def Breaks (P : List OfferedStream → Prop) (m : Effect Exc (σ × List (List OfferedStream)) α) : Prop :=
  ∀ s, ∃ e, (m s).1 = .error e ∧ ¬Started P (m s).2

theorem Breaks.bind {m : Effect Exc (σ × List (List OfferedStream)) α}
    {f : α → Effect Exc (σ × List (List OfferedStream)) β} (h : Breaks P m) : Breaks P (m >>= f) := by
  intro s
  obtain ⟨e, he, hbreaks⟩ := h s
  have hrun : (m >>= f) s = (.error e, (m s).2) := Effect.bind_of_error (Prod.ext he rfl)
  exact ⟨e, by rw [hrun], by rwa [hrun]⟩

theorem breaks_of_reaches {m : Effect Exc (σ × List (List OfferedStream)) α}
    {f : α → Effect Exc (σ × List (List OfferedStream)) β} {Q : α → Prop}
    (hm : Reaches (fun _ => True) m Q) (hf : ∀ a, Q a → Breaks P (f a)) : Breaks P (m >>= f) := by
  intro s
  obtain ⟨-, a, ha, hQ⟩ := hm s trivial
  rw [Effect.bind_of_ok (Prod.ext ha rfl : m s = (.ok a, (m s).2))]
  exact hf a hQ _

/-- A computation that breaks from the start ensures nothing. -/
theorem Breaks.not_ensures {m : Effect Exc (σ × List (List OfferedStream)) α} {Q : α → Prop}
    (h : Breaks P m) (s : σ) : ¬Ensures (Started P) m Q := by
  intro hensures
  obtain ⟨e, -, hnot⟩ := h (s, [])
  exact hnot (hensures (s, []) fun streams hstreams => by cases hstreams).1

/-- A trial that its device fails. -/
theorem breaks_started {streams : List OfferedStream} {e : Exc} (h : ¬P streams) :
    Breaks P (started streams (Effect.throw e : Effect Exc σ α)) := by
  intro s
  exact ⟨e, rfl, fun hstarted => h (hstarted streams (by simp [started, Effect.onFirst, Effect.throw]))⟩

/-- The trials of one direction have a stream from its port. -/
theorem trialDocument_unidirectional {spec : Rfc2544ThroughputSpec}
    (hmode : spec.directionMode = some .unidirectional) {frameSize : Nat}
    (size : 64 ≤ frameSize ∧ frameSize ≤ 9216) {ratePercent durationSeconds : ℚ}
    (hpos : 0 < ratePercent) (hle : ratePercent ≤ 100) :
    ∃ doc rate, spec.trialDocument frameSize ratePercent durationSeconds none = .ok doc ∧
      doc.directions = [{ name := "forward", tx := spec.ports.tx, rx := spec.ports.rx
                          packet := spec.packet.atFrameSize frameSize size, rate }] := by
  obtain ⟨rate, hrate⟩ := trialRate_eq_ok hpos hle
  have hports := (spec.oneWay hmode).1
  refine ⟨spec.trafficSpec spec.ports (spec.packet.atFrameSize frameSize size) rate durationSeconds []
    (by simp) (by simp), rate, ?_, ?_⟩
  · rw [Rfc2544ThroughputSpec.trialDocument, hrate]
    show (if size : _ then _ else _) = _
    rw [dif_pos size]
    unfold Rfc2544ThroughputSpec.directedSpec
    simp [hmode]
  · simp [StatelessTrafficSpec.directions, Rfc2544ThroughputSpec.trafficSpec, hports]

/-- The search of a device that loses nothing ends at the ceiling. -/
theorem searchFrame_lossless {trial : TrialFunction σ}
    (h : ∀ duration, Reaches (fun _ => True) (trial ⟨64, 50, duration⟩) fun o => o = lost 0) :
    Reaches (fun _ => True) (searchFrame trial 64 (settingsFor .fast 50) 50) fun result =>
      result.frameSize = 64 ∧ result.throughputPercentL1 = some 50 := by
  have hattempt : ∀ duration phase, Reaches (fun _ => True) (attempt trial 64 50 duration phase)
      fun p => p.2 = some (lost 0) := by
    intro duration phase
    refine (h duration).bind ?_
    rintro _ rfl
    exact .pure rfl
  have hobserve : ∀ duration stage, Reaches (fun _ => True)
      (observe trial 64 (settingsFor .fast 50) 50 duration stage) fun p => p.2 = some (lost 0) := by
    intro duration stage
    have hsamples : (if stage = .search then (settingsFor .fast 50).searchSamples else 1) = 1 := by
      split <;> rfl
    unfold observe
    dsimp only
    rw [hsamples]
    refine (Reaches.forList fun sample _ => hattempt duration ⟨stage, sample, false⟩).bind ?_
    intro attempts hattempts
    change List.Forall₂ _ [0] attempts at hattempts
    obtain ⟨p, _, hp, hnil, rfl⟩ := List.forall₂_cons_left_iff.mp hattempts
    obtain rfl := List.forall₂_nil_left_iff.mp hnil
    refine .pure ?_
    show (if _ then _ else _) = some (lost 0)
    simp [hp, lost]
  refine (hobserve _ _).bind ?_
  rintro ⟨history, _⟩ rfl
  refine Reaches.bind (Q := fun p => p.2 = some 50) (.pure rfl) ?_
  rintro ⟨searched, _⟩ rfl
  refine Reaches.bind (Q := fun p => p.2 = some 50) ?_ ?_
  · rw [stepDown, dif_pos (by norm_num)]
    refine Reaches.bind (Q := fun p => p.2 = some true) ?_ ?_
    · refine (hobserve _ _).bind ?_
      rintro ⟨confirmed, _⟩ rfl
      exact .pure rfl
    · rintro ⟨confirmed, _⟩ rfl
      exact .pure rfl
  · rintro ⟨confirmed, _⟩ rfl
    exact .pure ⟨rfl, rfl⟩

/-- The throughput phase of a device that loses nothing, at one frame size. -/
theorem runThroughput_lossless {spec : Rfc2544ThroughputSpec} {device : SuiteDevice σ}
    (hmode : spec.directionMode = some .unidirectional) (hfast : spec.mode = .fast)
    (hsizes : spec.frameSizes = some [64])
    (hcontinuous : ∀ streams req, device.continuous streams req = pure (lost 0)) :
    Reaches (fun _ => True) (runThroughput (rfcTrialSync device.logged spec) spec 50 10000000000)
      fun summary => ∃ item : FrameSearchResult, item.frameSize = 64 ∧
        item.throughputPercentL1 = some 50 ∧
        summary.rates = [(item.frameSize, FrameRates.ofResult 10000000000 item)] := by
  have htrial : ∀ duration, Reaches (fun _ => True)
      (rfcTrialSync device.logged spec none ⟨64, 50, duration⟩) fun o => o = lost 0 := by
    intro duration s _
    obtain ⟨doc, -, hdoc, -⟩ :=
      @trialDocument_unidirectional spec hmode 64 (by decide) 50 duration (by norm_num) (by norm_num)
    refine ⟨trivial, lost 0, ?_, rfl⟩
    unfold rfcTrialSync
    rw [hdoc]
    show ((device.continuous _ _).onFirst _).1 = _
    rw [hcontinuous]
    rfl
  have hone : spec.sizes = [64] := by
    unfold Rfc2544ThroughputSpec.sizes
    rw [hfast, hsizes]
    rfl
  unfold runThroughput
  rw [if_neg (by rw [hmode]; decide)]
  refine Reaches.bind (Q := fun results => ∃ item : FrameSearchResult, item.frameSize = 64 ∧
    item.throughputPercentL1 = some 50 ∧ results = [item]) ?_ ?_
  · unfold searchFrames
    rw [hone, hfast]
    refine Reaches.bind (searchFrame_lossless htrial) fun item hitem => ?_
    exact Reaches.bind (Q := (· = [])) (.pure rfl) fun _ hnil => hnil ▸ .pure ⟨item, hitem.1, hitem.2, rfl⟩
  · rintro _ ⟨item, hsize, hpercent, rfl⟩
    exact .pure ⟨item, hsize, hpercent, rfl⟩

theorem burstTrial_breaks {burst : Nat} {rate : Rate} {duration depletion : ℚ}
    (hrate : trialRate 100 = .ok rate) :
    Breaks (Within 50) (burstTrial failingBursts.logged burstSuite.toRfc2544ThroughputSpec 64 burst rate
      duration depletion) := by
  obtain ⟨doc, _, hdoc, hdirections⟩ :=
    @trialDocument_unidirectional burstSuite.toRfc2544ThroughputSpec rfl 64 (by decide) rate.value
      (max duration (1 / 1000)) (by rw [(value_of_trialRate hrate).1]; norm_num)
      (by rw [(value_of_trialRate hrate).1])
  unfold burstTrial
  rw [hdoc]
  refine breaks_started fun hwithin => ?_
  have hoffered := hwithin 0
  have hport : burstSuite.ports.tx = 0 := rfl
  have hfull : offered doc.burstStreams 0 = 100 := by
    simp [offered, StatelessTrafficSpec.burstStreams, hdirections, hport]
  rw [hfull] at hoffered
  norm_num at hoffered

theorem runBackToBack_breaks {summary : ThroughputSummary} {item : FrameSearchResult}
    (hsize : item.frameSize = 64) (hpercent : item.throughputPercentL1 = some 50)
    (hrates : summary.rates = [(item.frameSize, FrameRates.ofResult 10000000000 item)]) :
    Breaks (Within 50) (runBackToBack rfcTrialDocument burstSuite
      (burstTrial failingBursts.logged burstSuite.toRfc2544ThroughputSpec) none (some summary)) := by
  obtain ⟨rate, hrate⟩ := @trialRate_eq_ok 100 (by norm_num) le_rfl
  unfold runBackToBack
  dsimp only [burstSuite]
  rw [hrates]
  refine Breaks.bind (Breaks.bind ?_)
  have hmeasured : ∀ configured : BackToBackSettings, Breaks (Within 50) (measureBackToBack
      (backToBackTrialSync rfcTrialDocument
        (burstTrial failingBursts.logged burstSuite.toRfc2544ThroughputSpec) configured
        (10000000000 / 672)) 64 (burstSettings configured none) (10000000000 / 672)
      (10000000000 / 672 * 50 / 100)) := by
    intro configured
    obtain ⟨repetitions, hrepetitions⟩ : ∃ n, (burstSettings configured none).repetitions = n + 1 :=
      Nat.exists_eq_succ_of_ne_zero (by have := (burstSettings configured none).valid; omega)
    unfold measureBackToBack
    dsimp only
    rw [hrepetitions, List.range'_succ]
    refine Breaks.bind (Breaks.bind (Breaks.bind ?_))
    refine breaks_of_reaches (Q := fun _ => True) ?_ fun duration _ => ?_
    · rw [divide, if_neg (by norm_num)]
      exact .pure trivial
    · refine breaks_of_reaches (Q := fun rate => trialRate 100 = .ok rate) ?_ fun rate hrate =>
        burstTrial_breaks hrate
      rw [rfcTrialDocument, hrate]
      exact .pure rfl
  have hfps : (FrameRates.ofResult 10000000000 item).fps = some (10000000000 / 672 * 50 / 100) := by
    simp only [FrameRates.ofResult, hpercent, hsize, Option.map_some]
    norm_num
  have htheoretical : (FrameRates.ofResult 10000000000 item).theoreticalMaxFps = 10000000000 / 672 := by
    simp only [FrameRates.ofResult, hsize]
    norm_num
  simp only [burstFrame, hfps, htheoretical, hsize]
  rw [if_neg (by norm_num)]
  exact (hmeasured _).bind

end Breaks

theorem bursts_exceed_ceiling :
    ¬Ensures (Started (Within 50)) (runSuite failingBursts.logged burstSuite 50 plainSession)
      fun _ => True := by
  intro h
  have hbreaks : Breaks (Within 50) (runSuite failingBursts.logged burstSuite 50 plainSession) := by
    refine Breaks.bind (breaks_of_reaches (Q := fun measurement => ∃ summary item,
      measurement = .throughput summary ∧ item.frameSize = 64 ∧ item.throughputPercentL1 = some 50 ∧
        summary.rates = [(item.frameSize, FrameRates.ofResult 10000000000 item)]) ?_ ?_)
    · exact (runThroughput_lossless rfl rfl rfl fun _ _ => rfl).bind fun summary ⟨item, hsize, hpercent, hrates⟩ =>
        .pure ⟨summary, item, rfl, hsize, hpercent, hrates⟩
    · rintro _ ⟨summary, item, rfl, hsize, hpercent, hrates⟩
      exact (runBackToBack_breaks hsize hpercent hrates).bind.bind.bind
  exact hbreaks.not_ensures () h

end TrexCli.Rfc2544
