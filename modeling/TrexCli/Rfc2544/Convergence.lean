import TrexCli.Rfc2544.SearchRuns

/-!
# The rates of a search

For every trial function, the rates that a search offers are above zero and at most the ceiling, the
bisection stays inside of its bounds and each confirmed rate is lower than the one before
(`search_rates`). With a device that loses nothing up to a threshold, the search ends within the
resolution below the threshold, or at the ceiling (`search_converges`).
-/

namespace TrexCli.Rfc2544

open Effect (Ensures Reaches)

/-! ### Rates -/

/-- Each candidate is strictly between the highest lossless and the lowest lossy rate before it. -/
def Between : ℚ → ℚ → List LogicalObservation → Prop
  | _, _, [] => True
  | low, high, l :: rest => low < l.rate ∧ l.rate < high ∧
    match l.accepted with
    | none => rest = []
    | some o => if o.lossFrames = 0 then Between l.rate high rest else Between low l.rate rest

section Rates

variable {settings : SearchSettings} {P : TrialRecord → Prop} {ceiling : ℚ}
  {ls : List LogicalObservation} {rate : Option ℚ}

theorem Bisection.between {low high : ℚ} (h : Bisection settings P low high ls rate) :
    Between low high ls ∧ ∀ l ∈ ls, l.stage = .search := by
  induction h with
  | done _ => simp [Between]
  | missing hbelow habove hl hnone =>
    have hrate := hl.rate_eq
    subst hrate
    simpa [Between, hnone, hl.stage_eq] using ⟨hbelow, habove⟩
  | lossless hbelow habove hl ho hloss _ ih =>
    have hrate := hl.rate_eq
    subst hrate
    simpa [Between, ho, hloss, hl.stage_eq] using ⟨⟨hbelow, habove, ih.1⟩, ih.2⟩
  | lossy hbelow habove hl ho hloss _ ih =>
    have hrate := hl.rate_eq
    subst hrate
    simpa [Between, ho, hloss, hl.stage_eq] using ⟨⟨hbelow, habove, ih.1⟩, ih.2⟩

/-- The bisection ends at its lower bound or at a candidate, below its upper bound. -/
theorem Bisection.result_lt {low high found : ℚ} (h : Bisection settings P low high ls (some found))
    (hlt : low < high) : found < high := by
  generalize hrate : some found = rate at h
  induction h with
  | done _ =>
    obtain rfl := Option.some.inj hrate
    exact hlt
  | missing _ _ _ _ => simp at hrate
  | lossless _ habove _ _ _ _ ih => exact ih habove hrate
  | lossy hbelow habove _ _ _ _ ih => exact (ih hbelow hrate).trans habove

theorem Confirmation.rates {candidate : ℚ} {n : Nat} {passed : Option Bool}
    (h : Confirmation settings P candidate n ls passed) :
    ∀ l ∈ ls, l.stage = .confirmation ∧ l.rate = candidate := by
  induction h with
  | passed => simp
  | missing hl _ => simpa using ⟨hl.stage_eq, hl.rate_eq⟩
  | failed hl _ _ => simpa using ⟨hl.stage_eq, hl.rate_eq⟩
  | next hl _ _ _ ih => simpa using ⟨⟨hl.stage_eq, hl.rate_eq⟩, ih⟩

/-- The way down confirms one rate after the other, each lower than the ones before it. -/
theorem Descent.groups {candidate : ℚ} (h : Descent settings P candidate ls rate) :
    ∃ rates groups, ls = groups.flatten ∧ (∀ r ∈ rates, r ≤ candidate) ∧
      rates.Pairwise (fun r r' => r' < r) ∧
      List.Forall₂ (fun r group => ∀ l ∈ group, l.stage = .confirmation ∧ l.rate = r) rates
        groups := by
  induction h with
  | exhausted _ => exact ⟨[], [], rfl, by simp, .nil, .nil⟩
  | @missing candidate ls _ hconfirm =>
    exact ⟨[candidate], [ls], by simp, by simp, by simp, .cons hconfirm.rates .nil⟩
  | @confirmed candidate ls _ hconfirm =>
    exact ⟨[candidate], [ls], by simp, by simp, by simp, .cons hconfirm.rates .nil⟩
  | @lower candidate ls rest rate _ hconfirm _ ih =>
    obtain ⟨rates, groups, rfl, hle, hsorted, hgroups⟩ := ih
    have hlower := roundRate_sub_lt candidate settings.pos
    have hlt : ∀ r ∈ rates, r < candidate := fun r hr => (hle r hr).trans_lt hlower
    refine ⟨candidate :: rates, ls :: groups, by simp, ?_, ?_, .cons hconfirm.rates hgroups⟩
    · simpa using fun r hr => (hlt r hr).le
    · exact List.pairwise_cons.mpr ⟨hlt, hsorted⟩

/-- The trial function, with what it was asked written down first. -/
def TrialFunction.asked {σ : Type} (trial : TrialFunction σ) : TrialFunction (σ × List TrialRequest) :=
  fun req s => ((trial req s.1).1, (trial req s.1).2, s.2 ++ [req])

/-- Every rate that was offered is above zero and at most the ceiling. -/
def OfferedUpTo {σ : Type} (ceiling : ℚ) (s : σ × List TrialRequest) : Prop :=
  ∀ req ∈ s.2, 0 < req.ratePercent ∧ req.ratePercent ≤ ceiling

theorem safeUpTo_asked {σ : Type} (trial : TrialFunction σ) (ceiling : ℚ) :
    SafeUpTo (OfferedUpTo ceiling) trial.asked ceiling := by
  intro req hpos hle s hs
  refine ⟨fun req' hreq' => ?_, fun _ _ => trivial⟩
  rcases List.mem_append.mp hreq' with hreq' | hreq'
  · exact hs req' hreq'
  · obtain rfl := List.mem_singleton.mp hreq'
    exact ⟨hpos, hle⟩

theorem settingsFor_samples (mode : Mode) (ceiling : ℚ) :
    0 < (settingsFor mode ceiling).searchSamples ∧ 0 < (settingsFor mode ceiling).confirmations := by
  cases mode <;> simp [settingsFor]

end Rates

/-- A device that loses nothing up to a rate. -/
def thresholdTrial (threshold : ℚ) : TrialFunction Unit := fun req s =>
  (.ok { valid := true, lossFrames := if req.ratePercent ≤ threshold then 0 else 1, txFrames := 1000
         rxFrames := if req.ratePercent ≤ threshold then 1000 else 999
         targetRateReached := true, details := .null }, s)

section Break

variable {σ : Type} (broken : ℚ → ℚ → Effect Exc σ (List TrialRecord × Option ℚ))
  (trial : TrialFunction σ) (frameSize : Nat) (settings : SearchSettings)

/-- The bisection with `broken` in the place of the break. -/
def bisectOr (low high : ℚ) : Effect Exc σ (List TrialRecord × Option ℚ) :=
  if high - low > settings.resolution then
    let candidate := roundRate ((low + high) / 2) settings.resolution
    if _h : candidate ≤ low ∨ candidate ≥ high then broken low high
    else do
      let (history, observation) ←
        observe trial frameSize settings candidate settings.trialSeconds .search
      match observation with
      | none => pure (history, none)
      | some o =>
        if o.lossFrames = 0 then do
          let (rest, rate) ← bisectOr candidate high
          pure (history ++ rest, rate)
        else do
          let (rest, rate) ← bisectOr low candidate
          pure (history ++ rest, rate)
  else pure ([], some low)
termination_by (⌈high / settings.resolution⌉ - ⌊low / settings.resolution⌋).toNat
decreasing_by
  · have hinside := not_or.mp ‹¬ (_ ∨ _)›
    exact bisect_lower settings.pos _ (not_le.mp hinside.1) (not_le.mp hinside.2)
  · have hinside := not_or.mp ‹¬ (_ ∨ _)›
    exact bisect_upper settings.pos _ (not_le.mp hinside.1) (not_le.mp hinside.2)

/-- The break is never taken from a lower bound on the grid. -/
theorem bisectOr_eq (low high : ℚ) (hgrid : ∃ k : ℤ, low = k * settings.resolution) :
    bisectOr broken trial frameSize settings low high =
      bisect trial frameSize settings low high := by
  induction low, high using bisect.induct settings with
  | case1 low high hgap candidate hout =>
    obtain ⟨k, rfl⟩ := hgrid
    obtain ⟨hbelow, habove⟩ := roundRate_inside settings.pos k hgap
    rcases hout with hout | hout
    · exact absurd hbelow (not_lt.mpr hout)
    · exact absurd habove (not_lt.mpr hout)
  | case2 low high hgap candidate hin ihLossless ihLossy =>
    have hlossless := ihLossless (roundRate_grid _ _)
    have hlossy := ihLossy hgrid
    rw [bisect, bisectOr, if_pos hgap, if_pos hgap, dif_neg hin, dif_neg hin, hlossless, hlossy]
    all_goals rfl
  | case3 low high hgap => rw [bisect, bisectOr, if_neg hgap, if_neg hgap]

/-- The first rate to confirm, with `broken` in the place of the break. -/
def firstCandidateOr (ceilingPercent : ℚ) (ceiling : TrialObservation) :
    Effect Exc σ (List TrialRecord × Option ℚ) :=
  if ceiling.lossFrames = 0 then pure ([], some ceilingPercent)
  else bisectOr broken trial frameSize settings 0 ceilingPercent

/-- `search_frame` with `broken` in the place of the break. -/
def searchFrameOr (ceilingPercent : ℚ) : Effect Exc σ FrameSearchResult := do
  let (history, ceiling) ←
    observe trial frameSize settings ceilingPercent settings.trialSeconds .search
  match ceiling with
  | none => pure ⟨frameSize, none, false, history⟩
  | some o => do
    let (searched, candidate) ← firstCandidateOr broken trial frameSize settings ceilingPercent o
    match candidate with
    | none => pure ⟨frameSize, none, false, history ++ searched⟩
    | some candidate => do
      let (confirmed, rate) ← stepDown trial frameSize settings candidate
      pure ⟨frameSize, rate, rate.isSome, history ++ searched ++ confirmed⟩

theorem searchFrameOr_eq (ceilingPercent : ℚ) :
    searchFrameOr broken trial frameSize settings ceilingPercent =
      searchFrame trial frameSize settings ceilingPercent := by
  have hzero : ∃ k : ℤ, (0 : ℚ) = k * settings.resolution := ⟨0, by simp⟩
  have hfirst : ∀ o, firstCandidateOr broken trial frameSize settings ceilingPercent o =
      firstCandidate trial frameSize settings ceilingPercent o := by
    intro o
    rw [firstCandidateOr, firstCandidate,
      bisectOr_eq broken trial frameSize settings 0 ceilingPercent hzero]
  simp only [searchFrameOr, searchFrame, hfirst]
  all_goals rfl

end Break

section Convergence

variable {σ : Type} {trial : TrialFunction σ} {frameSize : Nat} {settings : SearchSettings}
  {threshold ceiling : ℚ} {ls : List LogicalObservation} {rate : Option ℚ}

/-- A device whose trials are valid, and lossless up to the threshold. -/
def HasThreshold (trial : TrialFunction σ) (threshold : ℚ) : Prop :=
  ∀ req s, ∃ o, (trial req s).1 = .ok o ∧ o.valid = true ∧
    (o.lossFrames = 0 ↔ req.ratePercent ≤ threshold)

/-- The record of a trial of such a device. -/
def OfThreshold (threshold : ℚ) (r : TrialRecord) : Prop :=
  r.observation.valid = true ∧ (r.observation.lossFrames = 0 ↔ r.ratePercentL1 ≤ threshold)

theorem HasThreshold.answersAs (h : HasThreshold trial threshold) (frameSize : Nat) :
    AnswersAs trial frameSize (OfThreshold threshold) := by
  intro phase rate duration s _
  obtain ⟨o, ho, hvalid, hloss⟩ := h ⟨frameSize, rate, duration⟩ s
  refine ⟨trivial, fun o' ho' => ?_⟩
  obtain rfl := Except.ok.inj (ho.symm.trans ho')
  exact ⟨hvalid, hloss⟩

/-- Every observation of such a device is there, and lossless up to the threshold. -/
theorem Observed.lossless_iff {stage : TrialStage} {duration rate : ℚ} {l : LogicalObservation}
    (h : Observed settings (OfThreshold threshold) stage duration rate l)
    {o : TrialObservation} (ho : l.accepted = some o) : o.lossFrames = 0 ↔ rate ≤ threshold := by
  obtain ⟨-, r, hr, rfl⟩ := h.accepted_valid ho
  have hanswer := (h.answered r hr).2
  rwa [(h.of_mem hr).2.1] at hanswer

theorem Observed.accepted_of_threshold {stage : TrialStage} {duration rate : ℚ}
    {l : LogicalObservation} (h : Observed settings (OfThreshold threshold) stage duration rate l)
    (hsamples : 0 < LogicalObservation.samples settings stage) : l.accepted ≠ none := by
  rw [Ne, Observed.accepted_eq_none_iff]
  intro hall
  have hlength := h.attempted.length_eq
  rw [List.length_range] at hlength
  obtain ⟨p, hp⟩ := List.exists_mem_of_length_pos (hlength ▸ hsamples)
  obtain ⟨sample, hattempted⟩ := h.attempted_of_mem hp
  rw [hall p hp] at hattempted
  obtain ⟨r, hr, hinvalid⟩ := hattempted.last_invalid
  have hvalid := (h.answered r (List.mem_flatMap.mpr ⟨p, hp, List.mem_of_getLast? hr⟩)).1
  simp [hvalid] at hinvalid

theorem samples_pos (hsamples : 0 < settings.searchSamples) (stage : TrialStage) :
    0 < LogicalObservation.samples settings stage := by
  unfold LogicalObservation.samples
  split_ifs <;> omega

/-- The bisection encloses the threshold. -/
theorem Bisection.encloses (hsamples : 0 < settings.searchSamples) {low high : ℚ}
    (h : Bisection settings (OfThreshold threshold) low high ls rate) (hlow : low ≤ threshold)
    (hhigh : threshold < high) :
    ∃ found, rate = some found ∧ found ≤ threshold ∧ threshold - found < settings.resolution := by
  induction h with
  | @done low high hgap => exact ⟨low, rfl, hlow, by linarith⟩
  | missing _ _ hl hnone => exact absurd hnone (hl.accepted_of_threshold (samples_pos hsamples _))
  | lossless _ _ hl ho hloss _ ih => exact ih ((hl.lossless_iff ho).mp hloss) hhigh
  | lossy _ _ hl ho hloss _ ih =>
    exact ih hlow (not_le.mp fun hle => hloss ((hl.lossless_iff ho).mpr hle))

theorem Confirmation.passes {candidate : ℚ} (hle : candidate ≤ threshold) {n : Nat}
    {passed : Option Bool}
    (h : Confirmation settings (OfThreshold threshold) candidate n ls passed)
    (hsamples : 0 < settings.searchSamples) : passed = some true := by
  induction h with
  | passed => rfl
  | missing hl hnone => exact absurd hnone (hl.accepted_of_threshold (samples_pos hsamples _))
  | failed hl ho hloss => exact absurd ((hl.lossless_iff ho).mpr hle) hloss
  | next _ _ _ _ ih => exact ih

/-- A rate up to the threshold is confirmed at once. -/
theorem Descent.stays {candidate : ℚ} (hsamples : 0 < settings.searchSamples)
    (h : Descent settings (OfThreshold threshold) candidate ls rate) (hle : candidate ≤ threshold)
    (hnonneg : 0 ≤ candidate) : rate = some candidate := by
  cases h with
  | exhausted hpos => rw [le_antisymm hpos hnonneg]
  | missing _ hconfirm => simpa using hconfirm.passes hle hsamples
  | confirmed _ _ => rfl
  | lower _ hconfirm _ => simpa using hconfirm.passes hle hsamples

theorem Bisection.nonneg {P : TrialRecord → Prop} {low high found : ℚ}
    (h : Bisection settings P low high ls (some found)) : low ≤ found := by
  generalize hrate : some found = rate at h
  induction h with
  | done _ => exact (Option.some.inj hrate).ge
  | missing _ _ _ _ => simp at hrate
  | lossless hbelow _ _ _ _ _ ih => exact hbelow.le.trans (ih hrate)
  | lossy _ _ _ _ _ _ ih => exact ih hrate

theorem SearchRun.converges (hsamples : 0 < settings.searchSamples) (hpos : 0 < ceiling)
    (hthreshold : 0 ≤ threshold)
    (h : SearchRun settings (OfThreshold threshold) ceiling ls rate) :
    ∃ found, rate = some found ∧ found ≤ threshold ∧ (ceiling ≤ threshold → found = ceiling) ∧
      (threshold < ceiling → threshold - found < settings.resolution) := by
  cases h with
  | missing hl hnone => exact absurd hnone (hl.accepted_of_threshold (samples_pos hsamples _))
  | lossless hl ho hloss hdown =>
    have hle := (hl.lossless_iff ho).mp hloss
    exact ⟨ceiling, hdown.stays hsamples hle hpos.le, hle, fun _ => rfl,
      fun hlt => absurd hle (not_le.mpr hlt)⟩
  | cut hl ho hloss hsearch =>
    have hlt := not_le.mp fun hle => hloss ((hl.lossless_iff ho).mpr hle)
    obtain ⟨found, hnone, -⟩ := hsearch.encloses hsamples hthreshold hlt
    simp at hnone
  | searched hl ho hloss hsearch hdown =>
    have hlt := not_le.mp fun hle => hloss ((hl.lossless_iff ho).mpr hle)
    obtain ⟨found, hfound, hle, hnear⟩ := hsearch.encloses hsamples hthreshold hlt
    obtain rfl := Option.some.inj hfound
    exact ⟨_, hdown.stays hsamples hle hsearch.nonneg, hle, fun hge => absurd hlt (not_lt.mpr hge),
      fun _ => hnear⟩

end Convergence

/-! ### Trials that never raise -/

section Total

variable {σ : Type} {trial : TrialFunction σ} {frameSize : Nat} {settings : SearchSettings}

/-- The trial function has an answer to everything. -/
def AlwaysAnswers (trial : TrialFunction σ) : Prop :=
  ∀ req, Reaches (fun _ => True) (trial req) fun _ => True

theorem attempt_total (h : AlwaysAnswers trial) (rate duration : ℚ) (phase : TrialPhase) :
    Reaches (fun _ => True) (attempt trial frameSize rate duration phase) fun _ => True := by
  refine (h _).bind fun first _ => ?_
  split
  · exact .pure trivial
  · exact (h _).bind fun retry _ => .pure trivial

theorem observe_total (h : AlwaysAnswers trial) (rate duration : ℚ) (stage : TrialStage) :
    Reaches (fun _ => True) (observe trial frameSize settings rate duration stage) fun _ => True :=
  (Reaches.forList fun sample _ => attempt_total h rate duration ⟨stage, sample, false⟩).bind
    fun _ _ => .pure trivial

theorem bisect_total (h : AlwaysAnswers trial) (low high : ℚ) :
    Reaches (fun _ => True) (bisect trial frameSize settings low high) fun _ => True := by
  induction low, high using bisect.induct settings with
  | case1 low high hgap candidate hout =>
    rw [bisect, if_pos hgap, dif_pos hout]
    exact .pure trivial
  | case2 low high hgap candidate hin ihLossless ihLossy =>
    rw [bisect, if_pos hgap, dif_neg hin]
    refine (observe_total h _ _ _).bind fun p _ => ?_
    obtain ⟨history, observation⟩ := p
    cases observation with
    | none => exact .pure trivial
    | some o =>
      dsimp only
      split
      · exact ihLossless.bind fun _ _ => .pure trivial
      · exact ihLossy.bind fun _ _ => .pure trivial
  | case3 low high hgap =>
    rw [bisect, if_neg hgap]
    exact .pure trivial

theorem confirm_total (h : AlwaysAnswers trial) (candidate : ℚ) (n : Nat) :
    Reaches (fun _ => True) (confirm trial frameSize settings candidate n) fun _ => True := by
  induction n with
  | zero => exact .pure trivial
  | succ n ih =>
    refine (observe_total h _ _ _).bind fun p _ => ?_
    obtain ⟨history, observation⟩ := p
    cases observation with
    | none => exact .pure trivial
    | some o =>
      dsimp only
      split
      · exact .pure trivial
      · exact ih.bind fun _ _ => .pure trivial

theorem stepDown_total (h : AlwaysAnswers trial) (candidate : ℚ) :
    Reaches (fun _ => True) (stepDown trial frameSize settings candidate) fun _ => True := by
  induction candidate using stepDown.induct settings with
  | case1 candidate hpos ih =>
    rw [stepDown, dif_pos hpos]
    refine (confirm_total h candidate settings.confirmations).bind fun p _ => ?_
    obtain ⟨history, passed⟩ := p
    rcases passed with - | - | -
    · exact .pure trivial
    · exact ih.bind fun _ _ => .pure trivial
    · exact .pure trivial
  | case2 candidate hpos =>
    rw [stepDown, dif_neg hpos]
    exact .pure trivial

theorem searchFrame_total (h : AlwaysAnswers trial) (ceiling : ℚ) :
    Reaches (fun _ => True) (searchFrame trial frameSize settings ceiling) fun _ => True := by
  refine (observe_total h _ _ _).bind fun p _ => ?_
  obtain ⟨history, observation⟩ := p
  cases observation with
  | none => exact .pure trivial
  | some o =>
    have hfirst : Reaches (fun _ => True) (firstCandidate trial frameSize settings ceiling o)
        fun _ => True := by
      unfold firstCandidate
      split
      · exact .pure trivial
      · exact bisect_total h 0 ceiling
    refine hfirst.bind fun q _ => ?_
    obtain ⟨searched, candidate⟩ := q
    cases candidate with
    | none => exact .pure trivial
    | some candidate => exact (stepDown_total h candidate).bind fun _ _ => .pure trivial

end Total

/-- The search of a device with a threshold ends within the resolution below it, or at the ceiling,
and the break is never taken, whatever would stand there. -/
theorem search_converges {σ : Type} {trial : TrialFunction σ} {threshold ceiling : ℚ}
    (h : HasThreshold trial threshold) (hthreshold : 0 ≤ threshold) (hpos : 0 < ceiling)
    (frameSize : Nat) (mode : Mode) :
    (Reaches (fun _ => True) (searchFrame trial frameSize (settingsFor mode ceiling) ceiling)
        fun result => result.valid = true ∧ ∃ found, result.throughputPercentL1 = some found ∧
          found ≤ threshold ∧ (ceiling ≤ threshold → found = ceiling) ∧
          (threshold < ceiling → threshold - found < (settingsFor mode ceiling).resolution)) ∧
      ∀ broken, searchFrameOr broken trial frameSize (settingsFor mode ceiling) ceiling =
        searchFrame trial frameSize (settingsFor mode ceiling) ceiling := by
  refine ⟨fun s hs => ?_, fun broken => searchFrameOr_eq broken trial frameSize _ ceiling⟩
  have htotal : AlwaysAnswers trial := fun req s _ =>
    ⟨trivial, (h req s).imp fun o ho => ⟨ho.1, trivial⟩⟩
  obtain ⟨-, result, hresult, -⟩ :=
    @searchFrame_total _ _ frameSize (settingsFor mode ceiling) htotal ceiling s hs
  obtain ⟨ls, hrun, -, hvalid, -⟩ := (@searchFrame_run _ _ _ (settingsFor mode ceiling) _
    (h.answersAs frameSize) ceiling s hs).2 result hresult
  obtain ⟨found, hfound, hconverges⟩ := hrun.converges (settingsFor_samples mode ceiling).1 hpos
    hthreshold
  exact ⟨trivial, result, hresult, by rw [hvalid, hfound]; rfl, found, hfound, hconverges⟩

theorem search_converges_fifty :
    (Reaches (fun _ => True) (searchFrame (thresholdTrial 50) 64 (settingsFor .strict 100) 100)
        fun result => result.valid = true ∧ ∃ found, result.throughputPercentL1 = some found ∧
          found ≤ 50 ∧ (100 ≤ (50 : ℚ) → found = 100) ∧
          (50 < (100 : ℚ) → 50 - found < (settingsFor .strict 100).resolution)) ∧
      ∀ broken, searchFrameOr broken (thresholdTrial 50) 64 (settingsFor .strict 100) 100 =
        searchFrame (thresholdTrial 50) 64 (settingsFor .strict 100) 100 := by
  have hdevice : HasThreshold (thresholdTrial 50) 50 := by
    intro req s
    refine ⟨_, rfl, rfl, ?_⟩
    show (if req.ratePercent ≤ 50 then (0 : Int) else 1) = 0 ↔ _
    split_ifs with hle <;> simp [hle]
  exact search_converges hdevice (by norm_num) (by norm_num) 64 .strict

end TrexCli.Rfc2544
