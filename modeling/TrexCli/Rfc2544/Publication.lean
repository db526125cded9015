import TrexCli.Rfc2544.Methods

/-!
# The publication assessment

`_assess_throughput` and `_assess_frame_loss` of `publication.py`, and what they say about the
evidence a run leaves. The throughput assessment accepts a lossless confirmation at any rate
(`confirmed_iff`), so a search that confirmed a rate once and then rejected it passes. The frame loss
assessment wants every point valid, so a trial that was invalid and repeated fails it
(`lossFrame_complete_iff`).
-/

namespace TrexCli.Rfc2544

/-- `_method_frames`: the issues of a method, and its frames if they can be assessed. -/
def methodFrames {F : Type} (name conformance standardConformance : String)
    (frames : Option (List (Nat × F))) : List String × Option (List (Nat × F)) :=
  let issues :=
    if standardConformance ≠ conformance then [name ++ " methodology is not conforming"] else []
  match frames with
  | none => (issues ++ [name ++ " does not contain all standard frame sizes"], none)
  | some frames =>
    if (∀ size ∈ frames.map Prod.fst, size ∈ strictFrameSizes) ∧
        ∀ size ∈ strictFrameSizes, size ∈ frames.map Prod.fst then (issues, some frames)
    else (issues ++ [name ++ " does not contain all standard frame sizes"], none)

section MethodFrames

variable {F : Type} {name conformance standardConformance : String} {issues : List String}
  {frames : Option (List (Nat × F))} {assessed : List (Nat × F)}

/-- Frames that cannot be assessed are an issue. -/
theorem methodFrames_none
    (h : methodFrames name conformance standardConformance frames = (issues, none)) :
    issues ≠ [] := by
  simp only [methodFrames] at h
  generalize (if standardConformance ≠ conformance then _ else _) = own at h
  split at h
  · obtain ⟨rfl, -⟩ := Prod.mk.inj h
    simp
  · split at h
    · cases (Prod.mk.inj h).2
    · obtain ⟨rfl, -⟩ := Prod.mk.inj h
      simp

theorem methodFrames_some
    (h : methodFrames name conformance standardConformance frames = (issues, some assessed)) :
    frames = some assessed := by
  simp only [methodFrames] at h
  generalize (if standardConformance ≠ conformance then _ else _) = own at h
  split at h
  · cases (Prod.mk.inj h).2
  · split at h
    · exact (Prod.mk.inj h).2
    · cases (Prod.mk.inj h).2

end MethodFrames

/-- The trial counts as a confirmation of a rate. -/
def TrialRecord.confirms (r : TrialRecord) : Bool :=
  "confirmation".toList.isPrefixOf r.phase.text.toList && decide (60 ≤ r.durationSeconds) &&
    r.observation.valid && r.observation.lossFrames == 0

/-- The issue of `_assess_throughput` with a frame size. -/
def throughputFrameIssues (frameSize : Nat) (frame : ThroughputFrame) : List String :=
  if frame.valid = false then [s!"throughput {frameSize} is invalid"]
  else if frame.trials.any TrialRecord.confirms then []
  else [s!"throughput {frameSize} lacks a 60 second zero-loss confirmation"]

/-- `_assess_throughput` -/
def assessThroughput : Option ThroughputSummary → List String
  | none => ["throughput evidence is missing"]
  | some value =>
    match methodFrames "throughput" "rfc2544-throughput-methodology" value.standardConformance
      value.frames with
    | (issues, none) => issues
    | (issues, some frames) =>
      issues ++
        (if value.ceilingPercentL1 ≠ 100 then ["throughput did not search the full 100% range"]
        else []) ++
        frames.flatMap fun (frameSize, frame) => throughputFrameIssues frameSize frame

/-- The frame's evidence is a complete curve. -/
def LossFrame.complete (frame : LossFrame) : Bool :=
  let rates := frame.points.map fun point => point.ratePercentL1
  frame.valid && frame.stoppedAfterTwoZeroLossTrials &&
    -- starts at the maximum, with valid points only
    (!frame.points.isEmpty &&
      frame.points.all (fun point => point.observation.valid && decide (60 ≤ point.durationSeconds)) &&
      frame.points.head?.any fun point => point.ratePercentL1 == 100) &&
    -- valid steps
    (!rates.isEmpty && (rates.zip rates.tail).all fun (previous, current) =>
      decide (0 < previous - current ∧ previous - current ≤ 10)) &&
    -- ends with two zero-loss points
    (decide (2 ≤ frame.points.length) &&
      (frame.points.drop (frame.points.length - 2)).all fun point => point.lossPercent == some 0)

/-- The issue of `_assess_frame_loss` with a frame size. -/
def lossFrameIssues (frameSize : Nat) (frame : LossFrame) : List String :=
  if frame.complete then [] else [s!"frame-loss {frameSize} curve is incomplete"]

/-- `_assess_frame_loss` -/
def assessFrameLoss : Option FrameLossSummary → List String
  | none => ["frame-loss evidence is missing"]
  | some value =>
    match methodFrames "frame-loss" "rfc2544-frame-loss-methodology" value.standardConformance
      value.frames with
    | (issues, none) => issues
    | (issues, some frames) =>
      issues ++
        (if value.ceilingPercentL1 ≠ 100 then ["frame-loss curve did not start at 100%"] else []) ++
        frames.flatMap fun (frameSize, frame) => lossFrameIssues frameSize frame

/-! ### Throughput -/

theorem TrialPhase.confirmation_iff (p : TrialPhase) :
    "confirmation".toList.isPrefixOf p.text.toList = true ↔ p.stage = .confirmation := by
  rcases p with ⟨stage, sample, retry⟩
  cases stage <;> simp [TrialPhase.text, TrialStage.name]

theorem TrialRecord.confirms_iff (r : TrialRecord) :
    r.confirms = true ↔ r.phase.stage = .confirmation ∧ 60 ≤ r.durationSeconds ∧
      r.observation.valid = true ∧ r.observation.lossFrames = 0 := by
  rw [TrialRecord.confirms, Bool.and_eq_true, Bool.and_eq_true, Bool.and_eq_true,
    TrialPhase.confirmation_iff, decide_eq_true_iff, beq_iff_eq, and_assoc, and_assoc]

/-- What the assessment of a frame size promises: a valid result without an issue has a confirmation
of at least 60 seconds without loss, at the reported rate. -/
def ThroughputFrame.Sound (frameSize : Nat) (frame : ThroughputFrame) : Prop :=
  frame.valid = true → throughputFrameIssues frameSize frame = [] →
    ∃ r ∈ frame.trials, r.phase.stage = .confirmation ∧ 60 ≤ r.durationSeconds ∧
      r.observation.valid = true ∧ r.observation.lossFrames = 0 ∧
      frame.percentL1 = some r.ratePercentL1

theorem throughputFrameIssues_eq_nil {frameSize : Nat} {frame : ThroughputFrame}
    (hvalid : frame.valid = true) :
    throughputFrameIssues frameSize frame = [] ↔ ∃ r ∈ frame.trials, r.confirms = true := by
  simp [throughputFrameIssues, hvalid]

/-- The device lost frames in the last trial. -/
def LastLossy (answers : List Answer) : Prop :=
  ∃ a, answers.getLast? = some a ∧ a.observation.valid = true ∧ a.observation.lossFrames ≠ 0

/-- The device passed a trial of 60 seconds. -/
def PassedLong (answers : List Answer) : Prop :=
  ∃ a ∈ answers, 60 ≤ a.durationSeconds ∧ a.observation.valid = true ∧ a.observation.lossFrames = 0

section Throughput

variable {σ : Type} (trial : TrialFunction σ) (frameSize : Nat)

/-- The answers of the device in a search. -/
def searchAnswers (settings : SearchSettings) (ceiling : ℚ) (s : σ) : List Answer :=
  (searchFrame trial.logged frameSize settings ceiling (s, [])).2.2

variable {trial frameSize} {settings : SearchSettings} {ceiling : ℚ} {s : σ}
  {result : FrameSearchResult}

theorem searchAnswers_eq (h : (searchFrame trial frameSize settings ceiling s).1 = .ok result) :
    searchAnswers trial frameSize settings ceiling s =
      result.trials.map (TrialRecord.answer frameSize) := by
  obtain ⟨added, hadded, htrials⟩ := searchFrame_log trial frameSize settings ceiling s []
  rw [searchAnswers, hadded]
  exact htrials result h

theorem EndsWith.lastLossy_iff {rate : ℚ} {passed : Bool}
    (h : EndsWith settings rate result.trials passed) :
    LastLossy (result.trials.map (TrialRecord.answer frameSize)) ↔ passed = false := by
  obtain ⟨r, hlast, -, -, -, hvalid, hloss⟩ := h
  have hanswer : (result.trials.map (TrialRecord.answer frameSize)).getLast? =
      some (r.answer frameSize) := by
    rw [List.getLast?_map, hlast]
    rfl
  constructor
  · rintro ⟨a, ha, -, hlossy⟩
    obtain rfl := Option.some.inj (hanswer.symm.trans ha)
    rw [← Bool.not_eq_true, ← hloss]
    exact hlossy
  · rintro rfl
    exact ⟨_, hanswer, hvalid, fun hzero => by simpa using hloss.mp hzero⟩

theorem EndsInvalid.not_lastLossy (h : EndsInvalid result.trials) :
    ¬LastLossy (result.trials.map (TrialRecord.answer frameSize)) := by
  obtain ⟨r, hlast, hinvalid⟩ := h
  rintro ⟨a, ha, hvalid, -⟩
  rw [List.getLast?_map, hlast] at ha
  obtain rfl := Option.some.inj ha
  rw [show (r.answer frameSize).observation = r.observation from rfl, hinvalid] at hvalid
  cases hvalid

/-- The long trials of a strict search are its confirmations. -/
theorem passedLong_iff
    (h : ∀ r ∈ result.trials, r.IsSearch 10 ∨ r.IsConfirmation) :
    PassedLong (result.trials.map (TrialRecord.answer frameSize)) ↔
      ∃ r ∈ result.trials, r.confirms = true := by
  constructor
  · rintro ⟨a, ha, hlong, hvalid, hloss⟩
    obtain ⟨r, hr, rfl⟩ := List.mem_map.mp ha
    refine ⟨r, hr, r.confirms_iff.mpr ⟨?_, hlong, hvalid, hloss⟩⟩
    rcases h r hr with hsearch | hconfirmation
    · have hshort := hsearch.2.1
      change 60 ≤ r.durationSeconds at hlong
      linarith
    · exact hconfirmation.1
  · rintro ⟨r, hr, hconfirms⟩
    obtain ⟨-, hlong, hvalid, hloss⟩ := r.confirms_iff.mp hconfirms
    exact ⟨_, List.mem_map_of_mem hr, hlong, hvalid, hloss⟩

/-- A valid answer with some lost frames of a hundred. -/
def lost (frames : Int) : TrialObservation where
  valid := true
  lossFrames := frames
  txFrames := 100
  rxFrames := 100 - frames
  targetRateReached := true
  details := .null

/-- The evidence of a strict search is sound unless the search ended with a loss, at a rate of zero,
after the device had passed a confirmation. -/
theorem confirmed_iff {ceiling : ℚ} (hpos : 0 < ceiling) (lineRate : ℚ)
    (h : (searchFrame trial frameSize (settingsFor .strict ceiling) ceiling s).1 = .ok result) :
    (ThroughputFrame.ofResult lineRate result).Sound frameSize ↔
      ¬(LastLossy (searchAnswers trial frameSize (settingsFor .strict ceiling) ceiling s) ∧
        PassedLong (searchAnswers trial frameSize (settingsFor .strict ceiling) ceiling s)) := by
  obtain ⟨-, hspec⟩ := searchFrame_spec frameSize (settingsFor .strict ceiling) hpos
    (Nat.succ_pos 2) (Nat.succ_pos 2) (safeUpTo_true trial ceiling) s trivial
  obtain ⟨hstaged, hsearched⟩ := hspec result h
  rw [searchAnswers_eq h, passedLong_iff hstaged]
  unfold ThroughputFrame.Sound
  cases hsearched with
  | invalid hvalid hrate hlast =>
    refine iff_of_true (fun htrue => ?_) fun hboth => hlast.not_lastLossy hboth.1
    exact absurd (hvalid.symm.trans htrue) (by simp)
  | found rate hvalid hrate hrpos hle hlast =>
    refine iff_of_true (fun _ _ => ?_) fun hboth => by simpa using hlast.lastLossy_iff.mp hboth.1
    obtain ⟨r, hr, rfl, hstage, hduration, hrvalid, hloss⟩ := hlast
    exact ⟨r, List.mem_of_getLast? hr, hstage, hduration.ge, hrvalid, hloss.mpr rfl, hrate⟩
  | exhausted lost hvalid hrate hlpos hlast =>
    rw [throughputFrameIssues_eq_nil hvalid, hlast.lastLossy_iff, not_and]
    refine ⟨fun hsound _ hconfirms => ?_, fun hnone _ hconfirms => absurd hconfirms (hnone rfl)⟩
    obtain ⟨r, hr, -, -, -, -, hreported⟩ := hsound hvalid hconfirms
    have hzero : r.ratePercentL1 = 0 := Option.some.inj (hreported.symm.trans hrate)
    rcases hstaged r hr with hsearch | hconfirmation
    · exact hsearch.2.2.ne' hzero
    · exact hconfirmation.2.ne' hzero
  | unconfirmed hvalid hrate hnone =>
    have hno : ¬∃ r ∈ result.trials, r.confirms = true := by
      rintro ⟨r, hr, hconfirms⟩
      have hstage := (r.confirms_iff.mp hconfirms).1
      rw [hnone r hr] at hstage
      cases hstage
    rw [throughputFrameIssues_eq_nil hvalid]
    exact iff_of_true (fun _ hconfirms => absurd hconfirms hno) fun hboth => hno hboth.2

end Throughput

/-- The record of a trial at full rate. -/
def fullRate (stage : TrialStage) (sample : Nat) (duration : ℚ) (frames : Int) : TrialRecord :=
  ⟨⟨stage, sample, false⟩, 100, duration, lost frames⟩

/-- The samples at full rate of a device that passes them. -/
def fullRateSamples : List TrialRecord :=
  [fullRate .search 0 10 0, fullRate .search 1 10 0, fullRate .search 2 10 0]

/-- A device that loses nothing. -/
def passesAll : TrialFunction Unit := fun _ s => (.ok (lost 0), s)

theorem passesAll_stepDown :
    ∃ confirmations, stepDown passesAll 64 (settingsFor .strict 100) 100 () =
      (.ok (confirmations, some 100), ()) := by
  have hconfirm : confirm passesAll 64 (settingsFor .strict 100) 100 3 () =
      (.ok ([fullRate .confirmation 0 60 0, fullRate .confirmation 0 60 0,
        fullRate .confirmation 0 60 0], some true), ()) := rfl
  rw [stepDown, dif_pos (by norm_num)]
  exact ⟨_, Effect.bind_of_ok hconfirm⟩

theorem passesAll_found :
    ∃ trials, searchFrame passesAll 64 (settingsFor .strict 100) 100 () =
      (.ok ⟨64, some 100, true, trials⟩, ()) := by
  obtain ⟨confirmations, hconfirmations⟩ := passesAll_stepDown
  have hsamples : observe passesAll 64 (settingsFor .strict 100) 100 10 .search () =
      (.ok (fullRateSamples, some (lost 0)), ()) := rfl
  refine ⟨fullRateSamples ++ [] ++ confirmations, (Effect.bind_of_ok hsamples).trans ?_⟩
  refine (Effect.bind_of_ok (show firstCandidate passesAll 64 (settingsFor .strict 100) 100 (lost 0) () =
    (.ok ([], some 100), ()) from rfl)).trans ?_
  exact Effect.bind_of_ok hconfirmations

theorem confirmed_iff_passesAll :
    ∃ result, (searchFrame passesAll 64 (settingsFor .strict 100) 100 ()).1 = .ok result ∧
      ((ThroughputFrame.ofResult 10000000000 result).Sound 64 ↔
        ¬(LastLossy (searchAnswers passesAll 64 (settingsFor .strict 100) 100 ()) ∧
          PassedLong (searchAnswers passesAll 64 (settingsFor .strict 100) 100 ()))) := by
  obtain ⟨trials, hrun⟩ := passesAll_found
  have hresult := congrArg Prod.fst hrun
  exact ⟨_, hresult, confirmed_iff (by norm_num) 10000000000 hresult⟩

/-- A device that passes one trial of 60 seconds. -/
def passesOnce : TrialFunction Bool := fun req passed =>
  if req.durationSeconds < 60 then (.ok (lost 0), passed)
  else (.ok (lost (if passed then 1 else 0)), true)

section PassesOnce

open Effect (Reaches)

theorem passesOnce_confirmation (rate : ℚ) :
    Reaches (· = true) (observe passesOnce 64 (settingsFor .strict 100) rate 60 .confirmation)
      fun p => p.2 = some (lost 1) := by
  rintro _ rfl
  exact ⟨rfl, _, rfl, rfl⟩

theorem passesOnce_stepDown (candidate : ℚ) :
    Reaches (· = true) (stepDown passesOnce 64 (settingsFor .strict 100) candidate)
      fun p => p.2 = some 0 := by
  induction candidate using stepDown.induct (settingsFor .strict 100) with
  | case1 candidate hpos ih =>
    rw [stepDown, dif_pos hpos]
    refine Reaches.bind (Q := fun p => p.2 = some false) ?_ fun p hp => ?_
    · refine (passesOnce_confirmation candidate).bind fun p hp => ?_
      obtain ⟨history, observation⟩ := p
      obtain rfl : observation = _ := hp
      exact .pure rfl
    · obtain ⟨history, passed⟩ := p
      obtain rfl : passed = _ := hp
      exact ih.bind fun q hq => .pure hq
  | case2 candidate hpos =>
    rw [stepDown, dif_neg hpos]
    exact .pure rfl

end PassesOnce

theorem not_sound_passesOnce :
    ∃ result passed, searchFrame passesOnce 64 (settingsFor .strict 100) 100 false =
        (.ok result, passed) ∧ ¬(ThroughputFrame.ofResult 10000000000 result).Sound 64 := by
  -- three lossless samples at the ceiling, one confirmation, and a loss
  let confirmations := [fullRate .confirmation 0 60 0, fullRate .confirmation 0 60 1]
  have hsamples : observe passesOnce 64 (settingsFor .strict 100) 100 10 .search false =
      (.ok (fullRateSamples, some (lost 0)), false) := rfl
  have hconfirm : confirm passesOnce 64 (settingsFor .strict 100) 100 3 false =
      (.ok (confirmations, some false), true) := rfl
  obtain ⟨hpassed, ⟨rest, rate⟩, hrest, hrate⟩ := passesOnce_stepDown
    (roundRate (100 - (settingsFor .strict 100).resolution) (settingsFor .strict 100).resolution)
    true rfl
  obtain rfl : rate = some 0 := hrate
  have hdown : stepDown passesOnce 64 (settingsFor .strict 100) 100 false =
      (.ok (confirmations ++ rest, some 0), true) := by
    rw [stepDown, dif_pos (by norm_num)]
    refine (Effect.bind_of_ok hconfirm).trans ?_
    exact Effect.bind_of_ok (Prod.ext hrest hpassed)
  have hrun : searchFrame passesOnce 64 (settingsFor .strict 100) 100 false =
      (.ok ⟨64, some 0, true, fullRateSamples ++ [] ++ (confirmations ++ rest)⟩, true) := by
    refine (Effect.bind_of_ok hsamples).trans ?_
    refine (Effect.bind_of_ok (show firstCandidate passesOnce 64 (settingsFor .strict 100) 100
      (lost 0) false = (.ok ([], some 100), false) from rfl)).trans ?_
    exact Effect.bind_of_ok hdown
  refine ⟨_, true, hrun, fun hsound => ?_⟩
  have hissues : throughputFrameIssues 64 (ThroughputFrame.ofResult 10000000000
      ⟨64, some 0, true, fullRateSamples ++ [] ++ (confirmations ++ rest)⟩) = [] :=
    (throughputFrameIssues_eq_nil rfl).mpr ⟨fullRate .confirmation 0 60 0,
      by simp [ThroughputFrame.ofResult, confirmations],
      (TrialRecord.confirms_iff _).mpr ⟨rfl, le_rfl, rfl, rfl⟩⟩
  obtain ⟨r, hr, -, -, -, -, hrate⟩ := hsound rfl hissues
  -- the reported rate is zero, and no trial ran at zero
  have hzero : r.ratePercentL1 = 0 := (Option.some.inj hrate).symm
  obtain ⟨-, hspec⟩ := searchFrame_spec 64 (settingsFor .strict 100)
    (by norm_num : (0 : ℚ) < 100) (Nat.succ_pos 2) (Nat.succ_pos 2)
    (safeUpTo_true passesOnce 100) false trivial
  rcases (hspec _ (congrArg Prod.fst hrun)).1 r hr with hsearch | hconfirmation
  · exact hsearch.2.2.ne' hzero
  · exact hconfirmation.2.ne' hzero

/-! ### Frame loss -/

theorem frameLossSettingsFor_step : (frameLossSettingsFor .strict 100).stepPercent = 10 := by
  norm_num [frameLossSettingsFor]

theorem LossPoint.lossPercent_eq_zero {p : LossPoint} (h : p = LossPoint.ofRecord p.toTrialRecord) :
    p.lossPercent = some 0 ↔ 0 < p.observation.txFrames ∧ p.observation.lossFrames = 0 := by
  rw [h]
  show (if p.observation.txFrames ≤ 0 then none
    else some ((p.observation.lossFrames * 100 / p.observation.txFrames : ℚ))) = some 0 ↔
      0 < p.observation.txFrames ∧ p.observation.lossFrames = 0
  by_cases hsent : p.observation.txFrames ≤ 0
  · simp [hsent]
  · have hne : (p.observation.txFrames : ℚ) ≠ 0 := by
      intro hzero
      exact hsent (Int.cast_eq_zero.mp hzero).le
    simp [hsent, hne, not_le.mp hsent]

/-- Consecutive rates of a list whose rates go down by tens. -/
theorem steps_of_isChain {points : List LossPoint}
    (h : points.IsChain fun p q => q.ratePercentL1 = p.ratePercentL1 - 10) :
    ∀ x ∈ (points.map fun p => p.ratePercentL1).zip (points.map fun p => p.ratePercentL1).tail,
      x.2 = x.1 - 10 := by
  induction points with
  | nil => simp
  | cons p rest ih =>
    cases rest with
    | nil => simp
    | cons q rest =>
      obtain ⟨hstep, hrest⟩ := List.isChain_cons_cons.mp h
      rintro x hx
      rcases List.mem_cons.mp hx with rfl | hx
      · exact hstep
      · exact ih hrest x hx

/-- A stopped curve is complete if no trial was invalid and the last two sent something. -/
theorem LossFrame.complete_iff {frame : LossFrame} (hvalid : frame.valid = true)
    (hstopped : frame.stoppedAfterTwoZeroLossTrials = true)
    (hcurve : Curve (frameLossSettingsFor .strict 100) 0 100 frame.points) :
    frame.complete = true ↔ (∀ p ∈ frame.points, p.observation.valid = true) ∧
      ∀ p ∈ frame.points.drop (frame.points.length - 2), 0 < p.observation.txFrames := by
  obtain ⟨first, hfirst, hrate⟩ := hcurve.head
  have hne : frame.points ≠ [] := by
    rintro hempty
    rw [hempty] at hfirst
    cases hfirst
  have hlong : ∀ p ∈ frame.points, (60 : ℚ) ≤ p.durationSeconds := fun p hp =>
    (hcurve.of_mem hp).1.ge
  constructor
  · intro hcomplete
    simp only [LossFrame.complete, Bool.and_eq_true, List.all_eq_true, beq_iff_eq] at hcomplete
    obtain ⟨⟨⟨-, ⟨-, hpoints⟩, -⟩, -⟩, -, hends⟩ := hcomplete
    refine ⟨fun p hp => (hpoints p hp).1, fun p hp => ?_⟩
    have hrecord := (hcurve.of_mem (List.mem_of_mem_drop hp)).2
    exact ((LossPoint.lossPercent_eq_zero hrecord).mp (hends p hp)).1
  · rintro ⟨hpoints, hsent⟩
    obtain ⟨lossless, hsuffix, hloss, henough⟩ := hcurve.ends hpoints
    have htwo : 2 ≤ lossless.length := by
      rcases henough with henough | ⟨rfl, henough⟩
      · exact henough
      · exact henough.trans (Nat.zero_add _).le
    have hlength : 2 ≤ frame.points.length := htwo.trans hsuffix.length_le
    -- the last two points are among the lossless ones
    have hlast : frame.points.drop (frame.points.length - 2) <:+ lossless := by
      refine List.suffix_of_suffix_length_le (List.drop_suffix _ _) hsuffix ?_
      rw [List.length_drop]
      omega
    have hsteps := hcurve.steps hpoints ⟨10, by rw [frameLossSettingsFor_step]; norm_num⟩
    rw [frameLossSettingsFor_step] at hsteps
    simp only [LossFrame.complete, Bool.and_eq_true, List.all_eq_true, beq_iff_eq]
    refine ⟨⟨⟨⟨hvalid, hstopped⟩, ⟨?_, fun p hp => ⟨hpoints p hp, ?_⟩⟩, ?_⟩, ?_, ?_⟩, ?_, fun p hp => ?_⟩
    · simpa using hne
    · exact decide_eq_true (hlong p hp)
    · rw [hfirst]
      simpa using hrate
    · simpa using hne
    · rintro ⟨previous, current⟩ hx
      have hstep := steps_of_isChain hsteps _ hx
      dsimp only at hstep
      rw [decide_eq_true_iff, hstep]
      norm_num
    · exact decide_eq_true hlength
    · have hmem := List.mem_of_mem_drop hp
      exact (LossPoint.lossPercent_eq_zero (hcurve.of_mem hmem).2).mpr
        ⟨hsent p hp, hloss p (hlast.subset hp)⟩

/-- The answers of the device that a frame's points record. -/
def LossFrame.answers (f : Nat × LossFrame) : List Answer :=
  f.2.points.map fun point => point.toTrialRecord.answer f.1

/-- The answers for a frame size are those its frame records. -/
theorem LossFrame.filter_answers {frames : List (Nat × LossFrame)}
    (hnodup : (frames.map Prod.fst).Nodup) {f : Nat × LossFrame} (hf : f ∈ frames) :
    (frames.flatMap LossFrame.answers).filter (fun a => a.frameSize = f.1) =
      LossFrame.answers f := by
  have hsize : ∀ g : Nat × LossFrame, ∀ a ∈ LossFrame.answers g, a.frameSize = g.1 := by
    intro g a ha
    obtain ⟨point, -, rfl⟩ := List.mem_map.mp ha
    rfl
  have hother : ∀ rest : List (Nat × LossFrame), f.1 ∉ rest.map Prod.fst →
      (rest.flatMap LossFrame.answers).filter (fun a => a.frameSize = f.1) = [] := by
    intro rest hnot
    refine List.filter_eq_nil_iff.mpr fun a ha => ?_
    obtain ⟨g, hg, ha⟩ := List.mem_flatMap.mp ha
    rw [hsize g a ha, decide_eq_true_iff]
    rintro heq
    exact hnot (List.mem_map.mpr ⟨g, hg, heq⟩)
  induction frames with
  | nil => cases hf
  | cons g rest ih =>
    obtain ⟨hnew, hrest⟩ := List.nodup_cons.mp hnodup
    rw [List.flatMap_cons, List.filter_append]
    rcases List.mem_cons.mp hf with rfl | hf
    · rw [hother rest hnew, List.append_nil, List.filter_eq_self]
      exact fun a ha => decide_eq_true (hsize f a ha)
    · have hne : g.1 ≠ f.1 := fun heq => hnew (List.mem_map.mpr ⟨f, hf, heq.symm⟩)
      rw [ih hrest hf, List.filter_eq_nil_iff.mpr, List.nil_append]
      intro a ha
      rw [hsize g a ha, decide_eq_true_iff]
      exact hne

/-- The last two of a list. -/
def lastTwo {α : Type} (l : List α) : List α := l.drop (l.length - 2)

section FrameLoss

variable {σ : Type} (trial : Option Selected → TrialFunction σ) (spec : Rfc2544ThroughputSpec)
  (ceiling : ℚ)

/-- The answers of the device in a frame loss run. -/
def frameLossAnswers (s : σ) : List Answer :=
  (runFrameLoss (fun selected => (trial selected).logged) spec ceiling (s, [])).2.2

variable {trial spec ceiling} {s : σ} {summary : FrameLossSummary}

variable (trial spec ceiling) in
theorem measureFrames_log (selected : Option Selected) :
    Effect.Logs (measureFrames trial spec ceiling selected)
      (measureFrames (fun selected => (trial selected).logged) spec ceiling selected)
      fun frames l => l = frames.flatMap LossFrame.answers := by
  refine Effect.Logs.bind (R := fun results l => l = results.flatMap fun item =>
    LossFrame.answers (item.frameSize, LossFrame.ofResult item))
    (.forList fun size _ => measureFrameLoss_log ceiling) fun results l hl => .pure ?_
  rw [hl, List.append_nil, List.flatMap_map]

/-- The frames of a run, for a frame size each, with the curves of the stopped ones. -/
theorem measureFrames_spec (selected : Option Selected) :
    Effect.Ensures (fun _ => True) (measureFrames trial spec ceiling selected) fun frames =>
      List.Forall₂ (fun size f => f.1 = size ∧ (f.2.stoppedAfterTwoZeroLossTrials = true →
        Curve (frameLossSettingsFor spec.mode ceiling) 0 ceiling f.2.points)) spec.sizes frames := by
  refine (Effect.Ensures.forList fun size _ =>
    measureFrameLoss_spec (safeUpTo_true (trial selected) ceiling)).bind fun results hresults =>
      .pure ?_
  exact List.forall₂_map_right_iff.mpr hresults

variable {frames : List (Nat × LossFrame)}

theorem runFrameLoss_combined (hdirection : spec.directionMode ≠ some .unidirectionalEach)
    (h : (runFrameLoss trial spec ceiling s).1 = .ok summary) :
    ∃ frames, (measureFrames trial spec ceiling none s).1 = .ok frames ∧
      summary = frameLossSummary spec ceiling frames (some frames) none := by
  rw [runFrameLoss, if_neg hdirection] at h
  rcases hrun : measureFrames trial spec ceiling none s with ⟨frames | frames, s'⟩
  · rw [Effect.bind_of_error hrun] at h
    cases h
  · rw [Effect.bind_of_ok hrun] at h
    exact ⟨frames, rfl, (Except.ok.inj h).symm⟩

theorem frameLossAnswers_combined (hdirection : spec.directionMode ≠ some .unidirectionalEach)
    (h : (measureFrames trial spec ceiling none s).1 = .ok frames) :
    frameLossAnswers trial spec ceiling s = frames.flatMap LossFrame.answers := by
  obtain ⟨added, hadded, hframes⟩ := measureFrames_log trial spec ceiling none s []
  rw [h] at hadded
  rw [frameLossAnswers, runFrameLoss, if_neg hdirection, Effect.bind_of_ok hadded]
  exact hframes frames h

/-- The assessment of a complete range has no issue if every frame is complete. -/
theorem assessFrameLoss_eq_nil (hsizes : frames.map Prod.fst = strictFrameSizes)
    (hmode : spec.mode = .strict) :
    assessFrameLoss (some (frameLossSummary spec 100 frames (some frames) none)) = [] ↔
      ∀ f ∈ frames, f.2.complete = true := by
  have hmethod : methodFrames "frame-loss" "rfc2544-frame-loss-methodology"
      (frameLossConformance spec.mode 100) (some frames) = ([], some frames) := by
    have hconforming : frameLossConformance .strict 100 = "rfc2544-frame-loss-methodology" := by
      simp [frameLossConformance]
    rw [hmode, hconforming, methodFrames, hsizes]
    simp
  show (match methodFrames "frame-loss" "rfc2544-frame-loss-methodology"
    (frameLossConformance spec.mode 100) (some frames) with
    | (issues, none) => issues
    | (issues, some frames) => issues ++
      (if (100 : ℚ) ≠ 100 then ["frame-loss curve did not start at 100%"] else []) ++
        frames.flatMap fun (frameSize, frame) => lossFrameIssues frameSize frame) = [] ↔ _
  rw [hmethod]
  simp [List.flatMap_eq_nil_iff, lossFrameIssues]

theorem complete_of_assessFrameLoss (hframes : summary.frames = some frames)
    (h : assessFrameLoss (some summary) = []) : ∀ f ∈ frames, f.2.complete = true := by
  intro f hf
  rw [assessFrameLoss, hframes] at h
  rcases hmethod : methodFrames "frame-loss" "rfc2544-frame-loss-methodology"
    summary.standardConformance (some frames) with ⟨issues, _ | assessed⟩
  · rw [hmethod] at h
    exact absurd h (methodFrames_none hmethod)
  · rw [hmethod] at h
    obtain rfl := Option.some.inj (methodFrames_some hmethod)
    have hissues := List.flatMap_eq_nil_iff.mp (List.append_eq_nil_iff.mp h).2 f hf
    simpa [lossFrameIssues] using hissues

/-- At full range, the evidence of a run whose frames all stopped after two lossless trials has no
issue unless a trial was invalid or one of the last two of a frame size sent nothing. -/
theorem lossFrame_complete_iff (hmode : spec.mode = .strict)
    (hdirection : spec.directionMode ≠ some .unidirectionalEach)
    (h : (runFrameLoss trial spec 100 s).1 = .ok summary)
    (hstopped : ∀ f ∈ summary.frames.getD [], f.2.valid = true ∧
      f.2.stoppedAfterTwoZeroLossTrials = true) :
    assessFrameLoss (some summary) = [] ↔
      (∀ a ∈ frameLossAnswers trial spec 100 s, a.observation.valid = true) ∧
      ∀ size ∈ strictFrameSizes,
        ∀ a ∈ lastTwo ((frameLossAnswers trial spec 100 s).filter fun a => a.frameSize = size),
          0 < a.observation.txFrames := by
  obtain ⟨frames, hframes, rfl⟩ := runFrameLoss_combined hdirection h
  change ∀ f ∈ frames, _ at hstopped
  have hspec := (measureFrames_spec none s trivial).2 frames hframes
  rw [hmode] at hspec
  have hsizes : frames.map Prod.fst = strictFrameSizes := by
    have hkeys : List.Forall₂ (· = ·) spec.sizes (frames.map Prod.fst) :=
      List.forall₂_map_right_iff.mpr (hspec.imp fun _ _ hf => hf.1.symm)
    rw [List.forall₂_eq_eq_eq, Rfc2544ThroughputSpec.sizes, hmode] at hkeys
    exact hkeys.symm
  have hcomplete : ∀ f ∈ frames, f.2.complete = true ↔
      (∀ p ∈ f.2.points, p.observation.valid = true) ∧
        ∀ p ∈ lastTwo f.2.points, 0 < p.observation.txFrames := by
    intro f hf
    obtain ⟨i, hi, rfl⟩ := List.getElem_of_mem hf
    have hcurve := (hspec.get (by rw [hspec.length_eq]; exact hi) hi).2 (hstopped _ hf).2
    exact LossFrame.complete_iff (hstopped _ hf).1 (hstopped _ hf).2 hcurve
  have hlast : ∀ f ∈ frames,
      lastTwo ((frames.flatMap LossFrame.answers).filter fun a => a.frameSize = f.1) =
        (lastTwo f.2.points).map fun p => p.toTrialRecord.answer f.1 := by
    intro f hf
    rw [LossFrame.filter_answers (by rw [hsizes]; decide) hf, LossFrame.answers, lastTwo, lastTwo,
      List.length_map, List.map_drop]
  rw [assessFrameLoss_eq_nil hsizes hmode, frameLossAnswers_combined hdirection hframes]
  constructor
  · intro hall
    refine ⟨fun a ha => ?_, fun size hsize a ha => ?_⟩
    · obtain ⟨f, hf, ha⟩ := List.mem_flatMap.mp ha
      obtain ⟨p, hp, rfl⟩ := List.mem_map.mp ha
      exact ((hcomplete f hf).mp (hall f hf)).1 p hp
    · rw [← hsizes] at hsize
      obtain ⟨f, hf, rfl⟩ := List.mem_map.mp hsize
      rw [hlast f hf] at ha
      obtain ⟨p, hp, rfl⟩ := List.mem_map.mp ha
      exact ((hcomplete f hf).mp (hall f hf)).2 p hp
  · rintro ⟨hvalid, hsent⟩ f hf
    refine (hcomplete f hf).mpr ⟨fun p hp => ?_, fun p hp => ?_⟩
    · exact hvalid _ (List.mem_flatMap.mpr ⟨f, hf, List.mem_map_of_mem hp⟩)
    · refine hsent f.1 (hsizes ▸ List.mem_map_of_mem hf) (p.toTrialRecord.answer f.1) ?_
      rw [hlast f hf]
      exact List.mem_map_of_mem hp

end FrameLoss

section Lossless

open Effect (Reaches)

variable {σ : Type} {trial : TrialFunction σ} {I : σ → Prop} {frameSize : Nat}

/-- The device passes every trial from a state with `I`. -/
def Passes (I : σ → Prop) (trial : TrialFunction σ) : Prop :=
  ∀ req, Reaches I (trial req) fun o => o = lost 0

theorem Passes.attempts (h : Passes I trial) (rate duration : ℚ) (phase : TrialPhase) :
    Reaches I (attempt trial frameSize rate duration phase) fun p => p.2 = some (lost 0) := by
  refine (h ⟨frameSize, rate, duration⟩).bind ?_
  rintro _ rfl
  exact .pure rfl

/-- After a lossless trial, another one ends the curve. -/
theorem Passes.ends (h : Passes I trial) (frameSize : Nat) {rate : ℚ} (hpos : 0 < rate) :
    Reaches I (lossCurve trial frameSize (frameLossSettingsFor .strict 100) 1 rate) fun p =>
      p.2 = (true, true) := by
  rw [lossCurve, dif_pos hpos]
  refine (h.attempts rate _ _).bind ?_
  rintro ⟨records, _⟩ rfl
  exact .pure rfl

theorem Passes.stops (h : Passes I trial) :
    Reaches I (measureFrameLoss trial frameSize (frameLossSettingsFor .strict 100) 100) fun result =>
      result.valid = true ∧ result.stoppedAfterConsecutiveZeroLoss = true := by
  refine Reaches.bind (Q := fun p => p.2 = (true, true)) ?_ ?_
  · rw [lossCurve, dif_pos (by norm_num)]
    refine (h.attempts 100 _ _).bind ?_
    rintro ⟨records, _⟩ rfl
    refine Reaches.bind (h.ends frameSize ?_) fun p hp => .pure hp
    rw [frameLossSettingsFor_step, show (100 : ℚ) = (10 : ℤ) * 10 by norm_num,
      roundRate_mul_sub (by norm_num)]
    norm_num
  · rintro ⟨points, _⟩ rfl
    exact .pure ⟨rfl, rfl⟩

theorem Passes.allStop (trial : Option Selected → TrialFunction σ) (selected : Option Selected)
    (sizes : List Nat) (h : Passes I (trial selected)) :
    Reaches I (Effect.forList (fun size => measureFrameLoss (trial selected) size
        (frameLossSettingsFor .strict 100) 100) sizes) fun results =>
      ∀ item ∈ results, item.valid = true ∧ item.stoppedAfterConsecutiveZeroLoss = true := by
  refine (Reaches.forList fun size _ => Passes.stops h).mono fun results hresults => ?_
  intro item hitem
  obtain ⟨i, hi, rfl⟩ := List.getElem_of_mem hitem
  exact hresults.get (by rw [hresults.length_eq]; exact hi) hi

end Lossless

/-- A strict run in one direction. -/
def strictSpec : Rfc2544ThroughputSpec where
  ports := ⟨0, 1, .unidirectional, Nat.zero_ne_one⟩
  mode := .strict
  packet :=
    { ethernet := ⟨.value ⟨0x020000000001, Lab.clientMac_lt, Lab.clientMac_unicast⟩,
        .value ⟨0x020000000002, Lab.serverMac_lt, Lab.serverMac_unicast⟩⟩
      network := some Lab.network
      transport := none
      stack := Lab.stack
      hasNetwork := Lab.hasNetwork }
  limits := ⟨300000, 28800000, Lab.limits_pos⟩
  frameSizes := none
  assertion := none
  directionMode := some .unidirectional
  reversePacket := none
  strict := fun _ => rfl
  fast := by simp
  oneWay := Lab.oneWay
  twoWay := Lab.not_twoWay

/-- The run of a combined measurement whose results are known. -/
theorem runFrameLoss_of_results {σ : Type} (trial : Option Selected → TrialFunction σ) {s s' : σ}
    {results : List FrameLossResult}
    (h : Effect.forList (fun size => measureFrameLoss (trial none) size
      (frameLossSettingsFor .strict 100) 100) strictFrameSizes s = (.ok results, s')) :
    ∃ summary, runFrameLoss trial strictSpec 100 s = (.ok summary, s') ∧
      summary = frameLossSummary strictSpec 100
        (results.map fun item => (item.frameSize, LossFrame.ofResult item))
        (some (results.map fun item => (item.frameSize, LossFrame.ofResult item))) none := by
  have hframes : measureFrames trial strictSpec 100 none s =
      (.ok (results.map fun item => (item.frameSize, LossFrame.ofResult item)), s') :=
    Effect.bind_of_ok h
  refine ⟨_, ?_, rfl⟩
  rw [runFrameLoss, if_neg (by decide)]
  exact Effect.bind_of_ok hframes

theorem passesAll_stopped :
    ∃ summary, (runFrameLoss (fun _ => passesAll) strictSpec 100 ()).1 = .ok summary ∧
      ∀ f ∈ summary.frames.getD [], f.2.valid = true ∧ f.2.stoppedAfterTwoZeroLossTrials = true := by
  have hpasses : Passes (fun _ => True) passesAll := fun _ _ _ => ⟨trivial, _, rfl, rfl⟩
  obtain ⟨-, results, hresults, hstopped⟩ := Passes.allStop (fun _ => passesAll) none strictFrameSizes
    hpasses () trivial
  obtain ⟨_, hrun, rfl⟩ := runFrameLoss_of_results (fun _ => passesAll)
    (Prod.ext hresults (Eq.refl ()))
  refine ⟨_, congrArg Prod.fst hrun, fun f hf => ?_⟩
  obtain ⟨item, hitem, rfl⟩ := List.mem_map.mp hf
  exact hstopped item hitem

theorem lossFrame_complete_iff_passesAll :
    ∃ summary, (runFrameLoss (fun _ => passesAll) strictSpec 100 ()).1 = .ok summary ∧
      (assessFrameLoss (some summary) = [] ↔
        (∀ a ∈ frameLossAnswers (fun _ => passesAll) strictSpec 100 (), a.observation.valid = true) ∧
        ∀ size ∈ strictFrameSizes, ∀ a ∈ lastTwo ((frameLossAnswers (fun _ => passesAll) strictSpec 100
          ()).filter fun a => a.frameSize = size), 0 < a.observation.txFrames) := by
  obtain ⟨summary, hrun, hstopped⟩ := passesAll_stopped
  exact ⟨summary, hrun, lossFrame_complete_iff rfl (by decide) hrun hstopped⟩

/-- A device whose first answer is invalid, and which then passes. -/
def failsFirst : TrialFunction Bool := fun _ tried =>
  (.ok (if tried then lost 0 else { lost 0 with valid := false }), true)

theorem not_complete_failsFirst :
    ∃ summary tried, runFrameLoss (fun _ => failsFirst) strictSpec 100 false =
        (.ok summary, tried) ∧
      (∀ f ∈ summary.frames.getD [], f.2.valid = true ∧ f.2.stoppedAfterTwoZeroLossTrials = true) ∧
      assessFrameLoss (some summary) ≠ [] := by
  have hpasses : Passes (· = true) failsFirst := by
    rintro _ _ rfl
    exact ⟨rfl, _, rfl, rfl⟩
  -- the first frame size: an invalid trial, its repetition, and a curve of one more trial
  let invalid : TrialRecord := ⟨⟨.frameLoss, 0, false⟩, 100, 60, { lost 0 with valid := false }⟩
  let repeated : TrialRecord := ⟨⟨.frameLoss, 0, true⟩, 100, 60, lost 0⟩
  have hattempt : attempt failsFirst 64 100 60 ⟨.frameLoss, 0, false⟩ false =
      (.ok ([invalid, repeated], some (lost 0)), true) := rfl
  have hlower : 0 < roundRate (100 - (frameLossSettingsFor .strict 100).stepPercent)
      (frameLossSettingsFor .strict 100).stepPercent := by
    rw [frameLossSettingsFor_step, show (100 : ℚ) = (10 : ℤ) * 10 by norm_num,
      roundRate_mul_sub (by norm_num)]
    norm_num
  obtain ⟨hcurveEnd, ⟨rest, _⟩, hrest, rfl⟩ := hpasses.ends 64 hlower true rfl
  let first : FrameLossResult :=
    ⟨64, true, true, [LossPoint.ofRecord invalid, LossPoint.ofRecord repeated] ++ rest⟩
  have hfirst : measureFrameLoss failsFirst 64 (frameLossSettingsFor .strict 100) 100 false =
      (.ok first, true) := by
    refine Effect.bind_of_ok (a := (first.trials, true, true)) ?_
    rw [lossCurve, dif_pos (by norm_num)]
    refine (Effect.bind_of_ok hattempt).trans ?_
    exact Effect.bind_of_ok (Prod.ext hrest hcurveEnd)
  obtain ⟨hend, results, hresults, hstopped⟩ := Passes.allStop (fun _ => failsFirst) none
    [128, 256, 512, 1024, 1280, 1518] hpasses true rfl
  have hall : Effect.forList (fun size => measureFrameLoss failsFirst size
      (frameLossSettingsFor .strict 100) 100) strictFrameSizes false =
      (.ok (first :: results), true) :=
    (Effect.bind_of_ok hfirst).trans (Effect.bind_of_ok (Prod.ext hresults hend))
  obtain ⟨_, hrun, rfl⟩ := runFrameLoss_of_results (fun _ => failsFirst) hall
  refine ⟨_, true, hrun, fun f hf => ?_, fun hnone => ?_⟩
  · obtain ⟨item, hitem, rfl⟩ := List.mem_map.mp hf
    rcases List.mem_cons.mp hitem with rfl | hitem
    · exact ⟨rfl, rfl⟩
    · exact hstopped item hitem
  · have hcomplete := complete_of_assessFrameLoss rfl hnone (64, LossFrame.ofResult first) (by simp [first])
    simp only [LossFrame.complete, Bool.and_eq_true, List.all_eq_true] at hcomplete
    obtain ⟨⟨⟨-, ⟨-, hvalid⟩, -⟩, -⟩, -⟩ := hcomplete
    have hinvalid := (hvalid (LossPoint.ofRecord invalid) (by simp [LossFrame.ofResult, first])).1
    cases hinvalid

end TrexCli.Rfc2544
