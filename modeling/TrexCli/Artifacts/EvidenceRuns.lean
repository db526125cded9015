import TrexCli.Artifacts.Evidence
import TrexCli.Rfc2544.LossCurve

/-!
# The evidence of a run

What the runs leave for the exporter. A throughput run puts the trials of both directions together for
each frame size. A frame loss run that measures each direction on its own has its curves, which have
points, where no line is made of them. So the lines are the trial records exactly when no such curves
were asked for (`evidence_complete_iff`).
-/

namespace TrexCli.Artifacts

open Rfc2544

/-- The frame sizes are among these. -/
def SizedBy {α : Type} (sizes : List Nat) (frames : List (Nat × α)) : Prop :=
  ∀ frame ∈ frames, frame.1 ∈ sizes

theorem SizedBy.of_map {α : Type} {sizes : List Nat} {frames : List (Nat × α)}
    (h : frames.map Prod.fst = sizes) : SizedBy sizes frames :=
  fun _ hframe => h ▸ List.mem_map_of_mem hframe

/-- The frame sizes of a run are standard ones. -/
theorem mem_strictFrameSizes {spec : Rfc2544ThroughputSpec} {size : Nat} (h : size ∈ spec.sizes) :
    size ∈ strictFrameSizes := by
  unfold Rfc2544ThroughputSpec.sizes at h
  have hfast : [64, 512, 1518] ⊆ strictFrameSizes := by decide
  cases hmode : spec.mode with
  | strict => rwa [hmode] at h
  | fast =>
    rw [hmode] at h
    cases hsizes : spec.frameSizes with
    | none =>
      rw [hsizes] at h
      exact hfast h
    | some sizes =>
      rw [hsizes] at h
      exact hfast ((spec.fast hmode sizes hsizes).2.2 size h)

theorem frameSizeOf_ofNat {size : Nat} (h : (Text.ofNat size).length ≤ 4300) :
    frameSizeOf (Text.ofNat size) = .ok size := by
  rw [frameSizeOf, keySize, String.toList_ofList, if_pos h, Text.decimals_ofNat]

theorem SizedBy.readable {α : Type} {spec : Rfc2544ThroughputSpec} {frames : List (Nat × α)}
    (h : SizedBy spec.sizes frames) : Readable frames := by
  have hshort : ∀ size ∈ strictFrameSizes, (Text.ofNat size).length ≤ 4300 := by decide
  exact fun frame hframe => frameSizeOf_ofNat (hshort _ (mem_strictFrameSizes (h frame hframe)))

/-- The trials of both directions, put together for each frame size. -/
theorem ofFrames_zipWith {α : Type} (test : TestName) (fields : α → Fields)
    {forward reverse : List (Nat × List α)} (h : forward.map Prod.fst = reverse.map Prod.fst) :
    (Evidence.ofFrames test fields
        (List.zipWith (fun f r => (f.1, f.2 ++ r.2)) forward reverse)).Perm
      (Evidence.ofFrames test fields forward ++ Evidence.ofFrames test fields reverse) := by
  induction forward generalizing reverse with
  | nil =>
    obtain rfl := List.map_eq_nil_iff.mp h.symm
    exact .refl _
  | cons f forward ih =>
    cases reverse with
    | nil => cases h
    | cons r reverse =>
      obtain ⟨hsize, hrest⟩ := List.cons.inj h
      have hih := ih hrest
      simp only [Evidence.ofFrames, List.zipWith_cons_cons, List.flatMap_cons, List.map_append,
        ← hsize] at hih ⊢
      rw [List.append_assoc, List.append_assoc]
      refine .append_left _ ((hih.append_left _).trans ?_)
      exact List.perm_append_comm_assoc _ _ _

section Runs

open Effect (Ensures)

variable {σ : Type} {trial : Option Selected → TrialFunction σ} {spec : Rfc2544ThroughputSpec}
  {ceiling : ℚ}

theorem ResultsOf.map_fst {sizes : List Nat} {results : List FrameSearchResult}
    (h : ResultsOf sizes results) {α : Type} (value : FrameSearchResult → α) :
    (results.map fun item => (item.frameSize, value item)).map Prod.fst = sizes := by
  rw [List.map_map]
  exact h.sizes

/-- The entries of two directions, put together, have the frame sizes of the first. -/
theorem SizedBy.zipWith {α β : Type} {sizes : List Nat} {forward reverse : List (Nat × α)}
    (h : SizedBy sizes forward) (value : α → α → β) :
    SizedBy sizes (List.zipWith (fun f r => (f.1, value f.2 r.2)) forward reverse) := by
  intro frame hframe
  obtain ⟨i, hi⟩ := List.mem_iff_getElem?.mp hframe
  obtain ⟨f, r, hf, -, rfl⟩ := List.getElem?_zipWith_eq_some.mp hi
  exact h f (List.mem_of_getElem? hf)

/-- What a throughput run leaves: lines for the trials of all directions. -/
theorem runThroughput_recorded (hpos : 0 < ceiling) (hle : ceiling ≤ 100) (lineRate : ℚ) :
    Ensures (fun _ => True) (runThroughput trial spec ceiling lineRate) fun summary =>
      SizedBy spec.sizes summary.rates ∧ SizedBy spec.sizes summary.trials ∧
        (Evidence.ofFrames .throughput TrialRecord.fields summary.trials).Perm
          (Evidence.ofThroughput summary) := by
  unfold runThroughput
  split
  · refine (searchFrames_results trial spec hpos hle _).bind fun forward hforward => ?_
    refine (searchFrames_results trial spec hpos hle _).bind fun reverse hreverse => .pure ?_
    have hsizes {α : Type} (value : FrameSearchResult → α) := ResultsOf.map_fst hforward value
    refine ⟨(SizedBy.of_map (hsizes _)).zipWith _, (SizedBy.of_map (hsizes _)).zipWith _, ?_⟩
    exact ofFrames_zipWith .throughput TrialRecord.fields
      ((hsizes _).trans (ResultsOf.map_fst hreverse _).symm)
  · refine (searchFrames_results trial spec hpos hle _).bind fun results hresults => .pure ?_
    exact ⟨.of_map (ResultsOf.map_fst hresults _), .of_map (ResultsOf.map_fst hresults _), .refl _⟩

/-- Every curve has a point. -/
theorem measureFrameLoss_points {trial : TrialFunction σ} {frameSize : Nat}
    {settings : FrameLossSettings} (hpos : 0 < ceiling) :
    Ensures (fun _ => True) (measureFrameLoss trial frameSize settings ceiling) fun result =>
      result.frameSize = frameSize ∧ result.trials ≠ [] := by
  refine (lossCurve_run 0 ceiling).bind fun p hp => .pure ⟨rfl, ?_⟩
  obtain ⟨ls, hrun, hpoints⟩ := hp
  have htried := hrun.of_mem
  have hne : ls ≠ [] := by
    rintro rfl
    generalize p.2.1 = valid, p.2.2 = ended at hrun
    cases hrun with
    | exhausted hrate => exact absurd hpos (not_lt.mpr hrate)
  obtain ⟨l, rest, rfl⟩ := List.exists_cons_of_ne_nil hne
  have hrecords : l.records ≠ [] := by
    have hattempted := (htried l List.mem_cons_self).1
    unfold LossObservation.Tried at hattempted
    generalize l.records = records, l.accepted = accepted at hattempted
    cases hattempted <;> simp
  show p.1 ≠ []
  rw [hpoints, List.flatMap_cons]
  simp [LossObservation.points, hrecords]

theorem measureFrames_points (hpos : 0 < ceiling) (selected : Option Selected) :
    Ensures (fun _ => True) (measureFrames trial spec ceiling selected) fun frames =>
      frames.map Prod.fst = spec.sizes ∧ ∀ frame ∈ frames, frame.2.points ≠ [] := by
  refine (Ensures.forList fun size _ => measureFrameLoss_points hpos).bind fun results hresults =>
    .pure ⟨?_, fun frame hframe => ?_⟩
  · rw [List.map_map]
    have hsizes := List.forall₂_map_right_iff.mpr (hresults.imp fun _ _ h => h.1.symm)
    exact (List.forall₂_eq_eq_eq.symm ▸ hsizes : spec.sizes = _).symm
  · obtain ⟨item, hitem, rfl⟩ := List.mem_map.mp hframe
    obtain ⟨_, -, -, hpoints⟩ := exists_left_of_forall₂ hresults hitem
    exact hpoints

/-- A run measures each direction on its own. -/
abbrev ByDirection (spec : Rfc2544ThroughputSpec) : Prop :=
  spec.directionMode = some .unidirectionalEach

theorem sizes_ne_nil (spec : Rfc2544ThroughputSpec) : spec.sizes ≠ [] := by
  unfold Rfc2544ThroughputSpec.sizes
  cases hmode : spec.mode with
  | strict => simp [strictFrameSizes]
  | fast =>
    cases hsizes : spec.frameSizes with
    | none => simp
    | some sizes => exact (spec.fast hmode sizes hsizes).1

/-- The points of a direction are not nothing. -/
theorem ofCurves_ne_nil {frames : List (Nat × LossFrame)} (hsizes : frames.map Prod.fst = spec.sizes)
    (hpoints : ∀ frame ∈ frames, frame.2.points ≠ []) : Evidence.ofCurves frames ≠ [] := by
  obtain ⟨frame, rest, rfl⟩ : ∃ frame rest, frames = frame :: rest := by
    refine List.exists_cons_of_ne_nil ?_
    rintro rfl
    exact sizes_ne_nil spec hsizes.symm
  have hfirst := hpoints frame List.mem_cons_self
  simp [Evidence.ofCurves, Evidence.ofFrames, hfirst]

/-- What a frame loss run leaves: its points are under `frames`, or there are points and they are
not. -/
theorem runFrameLoss_recorded (hpos : 0 < ceiling) :
    Ensures (fun _ => True) (runFrameLoss trial spec ceiling) fun summary =>
      SizedBy spec.sizes (summary.frames.getD []) ∧
        (ByDirection spec → summary.frames = none ∧ Evidence.ofFrameLoss summary ≠ []) ∧
        (¬ByDirection spec → summary.directions = none) := by
  unfold runFrameLoss
  split
  · next heach =>
    refine (measureFrames_points hpos _).bind fun forward hforward => ?_
    refine (measureFrames_points hpos _).bind fun reverse _ => .pure ⟨?_, fun _ => ⟨rfl, ?_⟩, ?_⟩
    · exact fun frame hframe => nomatch hframe
    · show [] ++ (Evidence.ofCurves forward ++ Evidence.ofCurves reverse) ≠ []
      simp [ofCurves_ne_nil hforward.1 hforward.2]
    · exact fun hnot => absurd heach hnot
  · next hnot =>
    refine (measureFrames_points hpos _).bind fun frames hframes => .pure ⟨?_, ?_, fun _ => rfl⟩
    · exact .of_map hframes.1
    · exact fun heach => absurd heach hnot

end Runs

section Suites

open Effect (Ensures)

variable {σ : Type} {device : SuiteDevice σ} {spec : Rfc2544SuiteSpec} {ceiling : ℚ}
  {session : SuiteSession} {sizes : List Nat}

/-- The frame sizes of a phase are those of the throughput. -/
theorem filterMap_sized {α : Type} {rates : List (Nat × FrameRates)}
    {measured : List (Option (Nat × α))} (hsizes : SizedBy sizes rates)
    (h : List.Forall₂ (fun entry frame => ∀ f, frame = some f → f.1 = entry.1) rates measured) :
    SizedBy sizes (measured.filterMap id) := by
  intro frame hframe
  obtain ⟨found, hfound, hsome⟩ := List.mem_filterMap.mp hframe
  obtain ⟨entry, hentry, hsize⟩ := exists_left_of_forall₂ h hfound
  exact hsize frame hsome ▸ hsizes entry hentry

theorem runLatency_sized {document : ℚ → Effect Exc σ Rate} {device : LatencyDevice σ}
    {calibration : Option LatencyTimestampCalibration} {now : Instant} {ieee1588Supported : List Bool}
    {throughput : Option ThroughputSummary}
    (hrates : ∀ summary, throughput = some summary → SizedBy sizes summary.rates) :
    Ensures (fun _ => True)
      (runLatency document spec device calibration now ieee1588Supported throughput)
      fun summary => SizedBy sizes summary.frames := by
  have hnone : SizedBy sizes ([] : List (Nat × LatencyFrame)) := fun frame hframe => nomatch hframe
  unfold runLatency
  dsimp only
  split
  · exact .pure hnone
  · split
    · next configured _ corrections summary _ =>
      refine (Ensures.forList fun entry _ => ?_).bind fun measured hmeasured =>
        .pure (filterMap_sized (hrates summary rfl) hmeasured)
      unfold latencyFrame
      split
      · exact .pure fun f hf => nomatch hf
      · refine (Ensures.trivial _).bind fun scenarios _ => .pure fun f hf => ?_
        exact (Option.some.inj hf) ▸ rfl
    · exact .pure hnone

theorem runBackToBack_sized {document : ℚ → Effect Exc σ Rate} {device : BurstDevice σ}
    {maxBurstPackets : Option ℕ+} {throughput : Option ThroughputSummary}
    (hrates : ∀ summary, throughput = some summary → SizedBy sizes summary.rates) :
    Ensures (fun _ => True) (runBackToBack document spec device maxBurstPackets throughput)
      fun summary => SizedBy sizes summary.frames := by
  unfold runBackToBack
  split
  · next configured summary _ =>
    refine (Ensures.forList fun entry _ => ?_).bind fun measured hmeasured =>
      .pure (filterMap_sized (hrates summary rfl) hmeasured)
    unfold burstFrame
    split
    · exact .pure fun f hf => nomatch hf
    · split
      · exact .pure fun f hf => (Option.some.inj hf) ▸ rfl
      · refine (Ensures.trivial _).bind fun result _ => .pure fun f hf => ?_
        exact (Option.some.inj hf) ▸ rfl
  · exact .pure fun frame hframe => nomatch hframe

/-- What a test of a suite leaves: lines for all of its records, or for none of those it has. -/
structure Recorded (spec : Rfc2544SuiteSpec) (test : TestName) (measurement : SuiteMeasurement) :
    Prop where
  readable : ReadableTest measurement
  rates : ∀ summary, measurement.throughput? = some summary → SizedBy spec.sizes summary.rates
  lost : test = .frameLoss ∧ ByDirection spec.toRfc2544ThroughputSpec →
    exported measurement = [] ∧ Evidence.ofTest measurement ≠ []
  kept : ¬(test = .frameLoss ∧ ByDirection spec.toRfc2544ThroughputSpec) →
    (exported measurement).Perm (Evidence.ofTest measurement)

theorem runTest_recorded (hpos : 0 < ceiling) (hle : ceiling ≤ 100) (test : TestName)
    {throughput : Option ThroughputSummary}
    (hrates : ∀ summary, throughput = some summary → SizedBy spec.sizes summary.rates) :
    Ensures (fun _ => True) (runTest device spec ceiling session throughput test)
      (Recorded spec test) := by
  cases test with
  | throughput =>
    refine (runThroughput_recorded hpos hle session.lineRate).bind fun summary hsummary => .pure ?_
    obtain ⟨hmeasured, htrials, hperm⟩ := hsummary
    exact ⟨htrials.readable, fun summary' heq => Option.some.inj heq ▸ hmeasured,
      fun h => absurd h.1 (by simp), fun _ => hperm⟩
  | frameLoss =>
    refine (runFrameLoss_recorded hpos).bind fun summary hsummary => .pure ?_
    obtain ⟨hframes, heach, hcombined⟩ := hsummary
    refine ⟨hframes.readable, fun _ heq => (by cases heq), fun h => ?_, fun h => ?_⟩
    · obtain ⟨hnone, hpoints⟩ := heach h.2
      exact ⟨by simp [exported, hnone, Evidence.ofCurves, Evidence.ofFrames], hpoints⟩
    · have hdirections := hcombined fun hby => h ⟨rfl, hby⟩
      show (Evidence.ofCurves _).Perm (Evidence.ofFrameLoss summary)
      simp [Evidence.ofFrameLoss, hdirections]
  | latency =>
    refine (runLatency_sized hrates).bind fun summary hsummary => .pure ?_
    exact ⟨hsummary.readable, fun _ heq => (by cases heq), fun h => absurd h.1 (by simp),
      fun _ => .refl _⟩
  | backToBack =>
    refine (runBackToBack_sized hrates).bind fun summary hsummary => .pure ?_
    exact ⟨hsummary.readable, fun _ heq => (by cases heq), fun h => absurd h.1 (by simp),
      fun _ => .refl _⟩

theorem runTests_recorded (hpos : 0 < ceiling) (hle : ceiling ≤ 100) (tests : List TestName)
    {throughput : Option ThroughputSummary}
    (hrates : ∀ summary, throughput = some summary → SizedBy spec.sizes summary.rates) :
    Ensures (fun _ => True) (runTests device spec ceiling session throughput tests)
      (List.Forall₂ (Recorded spec) tests) := by
  induction tests generalizing throughput with
  | nil => exact .pure .nil
  | cons test tests ih =>
    refine (runTest_recorded hpos hle test hrates).bind fun measurement hmeasurement => ?_
    refine (ih fun summary hsummary => ?_).bind fun rest hrest => .pure (.cons hmeasurement hrest)
    cases hthroughput : measurement.throughput? with
    | some measured =>
      rw [hthroughput, Option.some_or] at hsummary
      exact Option.some.inj hsummary ▸ hmeasurement.rates measured hthroughput
    | none =>
      rw [hthroughput, Option.none_or] at hsummary
      exact hrates summary hsummary

/-- The lines of a suite are those of its records if no test lost its own. -/
theorem perm_of_kept {tests : List TestName} {measurements : List SuiteMeasurement}
    (h : List.Forall₂ (Recorded spec) tests measurements)
    (hkept : ¬(.frameLoss ∈ tests ∧ ByDirection spec.toRfc2544ThroughputSpec)) :
    (measurements.flatMap exported).Perm (measurements.flatMap Evidence.ofTest) := by
  refine List.Perm.flatMap_left _ fun measurement hmeasurement => ?_
  obtain ⟨test, htest, hrecorded⟩ := exists_left_of_forall₂ h hmeasurement
  exact hrecorded.kept fun hlost => hkept ⟨hlost.1 ▸ htest, hlost.2⟩

/-- A test that lost its records leaves fewer lines than records. -/
theorem length_lt_of_lost {tests : List TestName} {measurements : List SuiteMeasurement}
    (h : List.Forall₂ (Recorded spec) tests measurements)
    (hlost : .frameLoss ∈ tests ∧ ByDirection spec.toRfc2544ThroughputSpec) :
    (measurements.flatMap exported).length < (measurements.flatMap Evidence.ofTest).length := by
  obtain ⟨measurement, hmeasurement, hrecorded⟩ := exists_right_of_forall₂ h hlost.1
  rw [List.length_flatMap, List.length_flatMap]
  refine List.sum_lt_sum _ _ (fun other hother => ?_) ⟨measurement, hmeasurement, ?_⟩
  · obtain ⟨test, -, hother⟩ := exists_left_of_forall₂ h hother
    by_cases hcase : test = .frameLoss ∧ ByDirection spec.toRfc2544ThroughputSpec
    · rw [(hother.lost hcase).1]
      exact Nat.zero_le _
    · exact (hother.kept hcase).length_eq.le
  · obtain ⟨hnone, hsome⟩ := hrecorded.lost ⟨rfl, hlost.2⟩
    rw [hnone]
    exact List.length_pos_iff.mpr hsome

end Suites

/-- The document asks for frame loss curves of each direction on its own. -/
def CurvesByDirection : RfcDocument → Prop
  | .throughput _ => False
  | .suite spec => .frameLoss ∈ spec.tests ∧ ByDirection spec.toRfc2544ThroughputSpec

section Documents

open Effect (Ensures)

variable {σ : Type} (device : SuiteDevice σ) (policy : Option SafetyPolicy) (session : SuiteSession)

theorem throughput_complete (spec : Rfc2544ThroughputSpec) :
    Ensures (fun _ => True) (RfcDocument.run device policy session (.throughput spec))
      EvidenceComplete := by
  obtain ⟨hpos, hle⟩ := ceilingOf_range policy
  refine (runThroughput_recorded hpos hle session.lineRate).bind fun summary hsummary => .pure ?_
  obtain ⟨-, htrials, hperm⟩ := hsummary
  have hnone : Ahead [] := fun _ _ _ hfield => nomatch hfield
  exact ⟨_, trialLines_throughput hnone htrials.readable, hperm.map _⟩

theorem suite_complete_iff (spec : Rfc2544SuiteSpec) :
    Ensures (fun _ => True) (RfcDocument.run device policy session (.suite spec)) fun measurement =>
      EvidenceComplete measurement ↔ ¬CurvesByDirection (.suite spec) := by
  obtain ⟨hpos, hle⟩ := ceilingOf_range policy
  refine Ensures.bind (Q := fun result => List.Forall₂ (Recorded spec) spec.tests result.2) ?_ ?_
  · exact (runTests_recorded hpos hle spec.tests (by simp)).bind fun measurements h => .pure h
  rintro ⟨verdict, measurements⟩ hrecorded
  have hreadable : ∀ measurement ∈ measurements, ReadableTest measurement := by
    intro measurement hmeasurement
    obtain ⟨_, -, hmeasured⟩ := exists_left_of_forall₂ hrecorded hmeasurement
    exact hmeasured.readable
  refine .pure ⟨?_, fun hkept => ?_⟩
  · rintro ⟨lines, hlines, hperm⟩ hlost
    obtain rfl := Except.ok.inj ((trialLines_suite hreadable).symm.trans hlines)
    have hlength := hperm.length_eq
    rw [List.length_map, List.length_map] at hlength
    exact (length_lt_of_lost hrecorded hlost).ne hlength
  · exact ⟨_, trialLines_suite hreadable, (perm_of_kept hrecorded hkept).map _⟩

end Documents

/-- The lines are those of the trial records, each as often as it was recorded, exactly when no frame
loss curve of a direction on its own was asked for. -/
theorem evidence_complete_iff {σ : Type} (device : SuiteDevice σ) (policy : Option SafetyPolicy)
    (session : SuiteSession) (document : RfcDocument) (s : σ) {measurement : RfcMeasurement}
    (h : (document.run device policy session s).1 = .ok measurement) :
    EvidenceComplete measurement ↔ ¬CurvesByDirection document := by
  cases document with
  | throughput spec =>
    have hcomplete := (throughput_complete device policy session spec s trivial).2 measurement h
    exact ⟨fun _ => id, fun _ => hcomplete⟩
  | suite spec => exact (suite_complete_iff device policy session spec s trivial).2 measurement h

/-! ### Runs that return -/

section Returns

open Effect (Reaches)

variable {σ : Type} {spec : Rfc2544ThroughputSpec} {ceiling : ℚ}

/-- A trial that may be asked for has a document. -/
theorem trialDocument_returns {frameSize : Nat} (size : 64 ≤ frameSize ∧ frameSize ≤ 9216)
    {ratePercent durationSeconds : ℚ} (hpos : 0 < ratePercent) (hle : ratePercent ≤ 100)
    {selected : Option Selected} (hselected : selected ≠ none → ByDirection spec) :
    ∃ doc, spec.trialDocument frameSize ratePercent durationSeconds selected = .ok doc := by
  obtain ⟨rate, hrate⟩ := trialRate_eq_ok hpos hle
  have hdirected : spec.trialDocument frameSize ratePercent durationSeconds selected =
      spec.directedSpec (spec.packet.atFrameSize frameSize size)
        (spec.reversePacket.map fun packet => packet.atFrameSize frameSize size) rate durationSeconds
        selected := by
    rw [Rfc2544ThroughputSpec.trialDocument, hrate]
    show (if size : _ then _ else _) = _
    rw [dif_pos size]
  rw [hdirected]
  unfold Rfc2544ThroughputSpec.directedSpec
  rcases selected with _ | _ | _
  · by_cases hmode : spec.directionMode = some .bidirectionalSimultaneous
    · obtain ⟨packet, hreverse⟩ := Option.ne_none_iff_exists'.mp (spec.twoWay (.inl hmode)).2
      simp [hmode, hreverse]
    · simp [hmode]
  · exact ⟨_, rfl⟩
  · have hmode := hselected (Option.some_ne_none _)
    obtain ⟨packet, hreverse⟩ := Option.ne_none_iff_exists'.mp (spec.twoWay (.inr hmode)).2
    rw [hreverse]
    exact ⟨_, rfl⟩

theorem lossCurve_reaches {trial : TrialFunction σ} {frameSize : Nat} {settings : FrameLossSettings}
    (h : ∀ ratePercent durationSeconds, 0 < ratePercent → ratePercent ≤ ceiling →
      Reaches (fun _ => True) (trial ⟨frameSize, ratePercent, durationSeconds⟩) fun _ => True)
    (zeros : Nat) (rate : ℚ) (hle : rate ≤ ceiling) :
    Reaches (fun _ => True) (lossCurve trial frameSize settings zeros rate) fun _ => True := by
  have hK := Effect.Sequential.reaches (ε := Exc) fun _ : σ => True
  induction zeros, rate using lossCurve.induct settings with
  | case1 zeros rate hpos ih =>
    have hnext : roundRate (rate - settings.stepPercent) settings.stepPercent ≤ ceiling :=
      (roundRate_sub_lt rate settings.pos).le.trans hle
    rw [lossCurve, dif_pos hpos]
    refine hK.bind ?_ fun p => ?_
    · refine hK.bind (h rate settings.trialSeconds hpos hle) fun first => ?_
      split
      · exact hK.pure _
      · exact hK.bind (h rate settings.trialSeconds hpos hle) fun retry => hK.pure _
    · obtain ⟨records, observation⟩ := p
      cases observation with
      | none => exact hK.pure _
      | some o =>
        have hrun := ih o hnext
        by_cases hloss : o.lossFrames = 0
        · simp only [hloss, if_true, dite_true, true_and] at hrun ⊢
          split
          · exact hK.pure _
          · exact hK.bind hrun fun rest => hK.pure _
        · simp only [hloss, if_false, dite_false, false_and] at hrun ⊢
          exact hK.bind hrun fun rest => hK.pure _
  | case2 zeros rate hpos =>
    rw [lossCurve, dif_neg hpos]
    exact hK.pure _

/-- A device that answers whatever it is asked. -/
def Responsive (device : SuiteDevice σ) : Prop :=
  ∀ streams req, Reaches (fun _ => True) (device.continuous streams req) fun _ => True

theorem measureFrames_reaches {device : SuiteDevice σ} (h : Responsive device) (hle : ceiling ≤ 100)
    {selected : Option Selected} (hselected : selected ≠ none → ByDirection spec) :
    Reaches (fun _ => True) (measureFrames (rfcTrialSync device spec) spec ceiling selected)
      fun _ => True := by
  have hK := Effect.Sequential.reaches (ε := Exc) fun _ : σ => True
  have hstandard : ∀ size ∈ strictFrameSizes, 64 ≤ size ∧ size ≤ 9216 := by decide
  refine hK.bind (hK.forList fun size hsize => ?_) fun results => hK.pure _
  refine hK.bind (lossCurve_reaches (fun ratePercent durationSeconds hpos hrate => ?_) 0 ceiling le_rfl)
    fun curve => hK.pure _
  obtain ⟨doc, hdoc⟩ := @trialDocument_returns spec size (hstandard size (mem_strictFrameSizes hsize))
    ratePercent durationSeconds hpos (hrate.trans hle) selected hselected
  unfold rfcTrialSync
  rw [hdoc]
  exact hK.bind (hK.pure doc) fun doc => h _ _

/-- A suite of frame loss curves returns. -/
theorem run_frameLoss_reaches {device : SuiteDevice σ} (h : Responsive device)
    (policy : Option SafetyPolicy) (session : SuiteSession) {spec : Rfc2544SuiteSpec}
    (htests : spec.tests = [.frameLoss]) :
    Reaches (fun _ => True) (RfcDocument.run device policy session (.suite spec)) fun _ => True := by
  have hK := Effect.Sequential.reaches (ε := Exc) fun _ : σ => True
  have hle := (ceilingOf_range policy).2
  refine hK.bind (hK.bind ?_ fun measurements => hK.pure _) fun result => hK.pure _
  rw [htests]
  refine hK.bind (hK.bind ?_ fun summary => hK.pure _) fun measurement =>
    hK.bind (hK.pure _) fun rest => hK.pure _
  unfold runFrameLoss
  split
  · next heach =>
    exact hK.bind (measureFrames_reaches h hle fun _ => heach) fun forward =>
      hK.bind (measureFrames_reaches h hle fun _ => heach) fun reverse => hK.pure _
  · exact hK.bind (measureFrames_reaches h hle fun hnot => absurd rfl hnot) fun combined => hK.pure _

end Returns

/-- A suite of frame loss curves, of each direction on its own. -/
def eachSuite : Rfc2544SuiteSpec :=
  { throughputSuite with
    ports := ⟨0, 1, .bidirectional, Nat.zero_ne_one⟩
    directionMode := some .unidirectionalEach
    reversePacket := some throughputSuite.packet
    tests := [.frameLoss]
    latency := none
    backToBack := none
    oneWay := by simp
    twoWay := by simp
    ne := by decide
    unique := by decide
    asserted := by simp [throughputSuite, latencySuite]
    latencySettings := by simp
    latencyOrder := by simp
    strictScenarios := by simp
    backToBackSettings := by simp
    backToBackOrder := by simp }

/-- The curves of one direction. -/
def oneWaySuite : Rfc2544SuiteSpec :=
  { eachSuite with
    ports := ⟨0, 1, .unidirectional, Nat.zero_ne_one⟩
    directionMode := some .unidirectional
    reversePacket := none
    oneWay := Lab.oneWay
    twoWay := Lab.not_twoWay }

theorem failingBursts_responsive : Responsive failingBursts := fun _ _ => .pure trivial

theorem evidence_complete_iff_oneWay :
    ∃ measurement, (RfcDocument.run failingBursts none plainSession (.suite oneWaySuite) ()).1 =
        .ok measurement ∧
      (EvidenceComplete measurement ↔ ¬CurvesByDirection (.suite oneWaySuite)) := by
  obtain ⟨-, measurement, hrun, -⟩ :=
    @run_frameLoss_reaches _ _ failingBursts_responsive none plainSession oneWaySuite rfl () trivial
  exact ⟨measurement, hrun, evidence_complete_iff failingBursts none plainSession _ () hrun⟩

/-- The points of both directions are in the summary, and not in the lines. -/
theorem not_complete_each :
    ∃ measurement, (RfcDocument.run failingBursts none plainSession (.suite eachSuite) ()).1 =
        .ok measurement ∧ ¬EvidenceComplete measurement := by
  obtain ⟨-, measurement, hrun, -⟩ :=
    @run_frameLoss_reaches _ _ failingBursts_responsive none plainSession eachSuite rfl () trivial
  refine ⟨measurement, hrun, fun hcomplete => ?_⟩
  have hiff := (suite_complete_iff failingBursts none plainSession eachSuite () trivial).2 measurement hrun
  exact hiff.mp hcomplete ⟨by decide, rfl⟩

end TrexCli.Artifacts
