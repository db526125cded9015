import TrexCli.Rfc2544.Search

/-!
# The runs of a search

A run of `search_frame` is a sequence of logical observations, each with the trials of its samples:
one at the ceiling, those of the bisection, and those of the confirmations on the way down. Whatever
the trial function answers, the bisection looks only between its bounds, since the lower bound is on
the grid: the break for a candidate outside of them is never taken. Each way down is to a lower rate.
-/

namespace TrexCli.Rfc2544

open Effect (Ensures Reaches)

/-! ### Rounding on the grid -/

theorem lt_roundHalfEven (q : ℚ) : q - 1 / 2 ≤ roundHalfEven q := by
  have hfloor := Int.lt_floor_add_one q
  unfold roundHalfEven
  split_ifs with hlow hhigh heven
  · linarith
  · push_cast
    linarith
  · linarith
  · push_cast
    linarith

/-- Half way between a grid point and a rate more than a step above it, rounded, is inside. -/
theorem roundRate_inside {step high : ℚ} (hstep : 0 < step) (k : ℤ) (hgap : step < high - k * step) :
    k * step < roundRate ((k * step + high) / 2) step ∧
      roundRate ((k * step + high) / 2) step < high := by
  have hmid : (k * step + high) / 2 / step = (k + high / step) / 2 := by field_simp
  have hhigh : (k : ℚ) + 1 < high / step := by
    rw [lt_div_iff₀ hstep]
    linarith
  have hlower := lt_roundHalfEven ((k + high / step) / 2)
  have hupper := roundHalfEven_le ((k + high / step) / 2)
  rw [roundRate, hmid]
  constructor
  · have hlt : k < roundHalfEven ((k + high / step) / 2) := by
      have hcast : (k : ℚ) < roundHalfEven ((k + high / step) / 2) := by linarith
      exact_mod_cast hcast
    exact mul_lt_mul_of_pos_right (by exact_mod_cast hlt) hstep
  · have hlt : (roundHalfEven ((k + high / step) / 2) : ℚ) < high / step := by linarith
    calc (roundHalfEven ((k + high / step) / 2) : ℚ) * step
        < high / step * step := mul_lt_mul_of_pos_right hlt hstep
      _ = high := div_mul_cancel₀ high hstep.ne'

/-- A rounded rate is on the grid. -/
theorem roundRate_grid (value step : ℚ) : ∃ k : ℤ, roundRate value step = k * step :=
  ⟨_, rfl⟩

theorem roundRate_sub_lt (value : ℚ) {step : ℚ} (hstep : 0 < step) :
    roundRate (value - step) step < value := by
  have hle := roundRate_sub_le value hstep
  linarith

/-! ### Logical observations -/

/-- A call of `observe`: what it asked for, and the attempts of its samples. -/
structure LogicalObservation where
  rate : ℚ
  duration : ℚ
  stage : TrialStage
  attempts : List (List TrialRecord × Option TrialObservation)

namespace LogicalObservation

/-- What the observation adds to the history. -/
def records (l : LogicalObservation) : List TrialRecord := l.attempts.flatMap Prod.fst

/-- `valid` -/
def valid (l : LogicalObservation) : List TrialObservation := l.attempts.filterMap Prod.snd

/-- The observation that `observe` returns. -/
def accepted (l : LogicalObservation) : Option TrialObservation :=
  if l.stage = .search then (l.valid.find? fun o => o.lossFrames = 0).or l.valid.getLast?
  else l.valid.getLast?

/-- The number of samples of a stage. -/
def samples (settings : SearchSettings) (stage : TrialStage) : Nat :=
  if stage = .search then settings.searchSamples else 1

end LogicalObservation

/-- A call of `observe` at a rate, whose trials were answered as `P` says. -/
structure Observed (settings : SearchSettings) (P : TrialRecord → Prop) (stage : TrialStage)
    (duration rate : ℚ) (l : LogicalObservation) : Prop where
  rate_eq : l.rate = rate
  duration_eq : l.duration = duration
  stage_eq : l.stage = stage
  attempted : List.Forall₂ (fun sample p => Attempted rate duration ⟨stage, sample, false⟩ p.1 p.2)
    (List.range (LogicalObservation.samples settings stage)) l.attempts
  answered : ∀ r ∈ l.records, P r

namespace Observed

variable {settings : SearchSettings} {P : TrialRecord → Prop} {stage : TrialStage}
  {duration rate : ℚ} {l : LogicalObservation}

theorem attempted_of_mem (h : Observed settings P stage duration rate l)
    {p : List TrialRecord × Option TrialObservation} (hp : p ∈ l.attempts) :
    ∃ sample, Attempted rate duration ⟨stage, sample, false⟩ p.1 p.2 := by
  obtain ⟨i, hi, rfl⟩ := List.getElem_of_mem hp
  exact ⟨_, h.attempted.get (by rw [h.attempted.length_eq]; exact hi) hi⟩

theorem of_mem (h : Observed settings P stage duration rate l) {r : TrialRecord}
    (hr : r ∈ l.records) :
    r.phase.stage = stage ∧ r.ratePercentL1 = rate ∧ r.durationSeconds = duration := by
  obtain ⟨p, hp, hr⟩ := List.mem_flatMap.mp hr
  obtain ⟨sample, hattempted⟩ := h.attempted_of_mem hp
  exact hattempted.of_mem hr

/-- A valid observation of a sample is valid and recorded. -/
theorem of_mem_valid (h : Observed settings P stage duration rate l) {o : TrialObservation}
    (ho : o ∈ l.valid) : o.valid = true ∧ ∃ r ∈ l.records, r.observation = o := by
  obtain ⟨p, hp, hpo⟩ := List.mem_filterMap.mp ho
  obtain ⟨sample, hattempted⟩ := h.attempted_of_mem hp
  rw [hpo] at hattempted
  obtain ⟨hvalid, r, hr, hro⟩ := hattempted.last
  exact ⟨hvalid, r, List.mem_flatMap.mpr ⟨p, hp, List.mem_of_getLast? hr⟩, hro⟩

theorem mem_valid_of_accepted {o : TrialObservation} (ho : l.accepted = some o) : o ∈ l.valid := by
  unfold LogicalObservation.accepted at ho
  split_ifs at ho with hstage
  · rcases Option.or_eq_some_iff.mp ho with hfind | ⟨-, hlast⟩
    · exact List.mem_of_find?_eq_some hfind
    · exact List.mem_of_getLast? hlast
  · exact List.mem_of_getLast? ho

/-- No invalid record is accepted. -/
theorem accepted_valid (h : Observed settings P stage duration rate l) {o : TrialObservation}
    (ho : l.accepted = some o) : o.valid = true ∧ ∃ r ∈ l.records, r.observation = o :=
  h.of_mem_valid (mem_valid_of_accepted ho)

/-- Nothing is accepted exactly when every sample and its retry is invalid. -/
theorem accepted_eq_none_iff : l.accepted = none ↔ ∀ p ∈ l.attempts, p.2 = none := by
  have hvalid : l.valid = [] ↔ ∀ p ∈ l.attempts, p.2 = none := by
    simp [LogicalObservation.valid, List.filterMap_eq_nil_iff]
  rw [← hvalid]
  unfold LogicalObservation.accepted
  split_ifs with hstage
  · rw [Option.or_eq_none_iff, List.getLast?_eq_none_iff]
    constructor
    · exact fun hnone => hnone.2
    · intro hnil
      simp [hnil]
  · exact List.getLast?_eq_none_iff

end Observed

/-! ### Runs -/

section Runs

variable (settings : SearchSettings) (P : TrialRecord → Prop)

/-- What the bisection observes between a lossless and a lossy bound, and the rate it ends at. -/
inductive Bisection : ℚ → ℚ → List LogicalObservation → Option ℚ → Prop
  | done {low high : ℚ} (hgap : high - low ≤ settings.resolution) :
    Bisection low high [] (some low)
  | missing {low high candidate : ℚ} {l : LogicalObservation} (hbelow : low < candidate)
    (habove : candidate < high)
    (hl : Observed settings P .search settings.trialSeconds candidate l) (hnone : l.accepted = none) :
    Bisection low high [l] none
  | lossless {low high candidate : ℚ} {l : LogicalObservation} {o : TrialObservation}
    {rest : List LogicalObservation} {rate : Option ℚ} (hbelow : low < candidate)
    (habove : candidate < high)
    (hl : Observed settings P .search settings.trialSeconds candidate l) (ho : l.accepted = some o)
    (hloss : o.lossFrames = 0) (hrest : Bisection candidate high rest rate) :
    Bisection low high (l :: rest) rate
  | lossy {low high candidate : ℚ} {l : LogicalObservation} {o : TrialObservation}
    {rest : List LogicalObservation} {rate : Option ℚ} (hbelow : low < candidate)
    (habove : candidate < high)
    (hl : Observed settings P .search settings.trialSeconds candidate l) (ho : l.accepted = some o)
    (hloss : o.lossFrames ≠ 0) (hrest : Bisection low candidate rest rate) :
    Bisection low high (l :: rest) rate

/-- What `n` confirmations of a rate observe, and whether all are lossless. -/
inductive Confirmation (candidate : ℚ) : Nat → List LogicalObservation → Option Bool → Prop
  | passed : Confirmation candidate 0 [] (some true)
  | missing {n : Nat} {l : LogicalObservation}
    (hl : Observed settings P .confirmation settings.confirmationSeconds candidate l)
    (hnone : l.accepted = none) : Confirmation candidate (n + 1) [l] none
  | failed {n : Nat} {l : LogicalObservation} {o : TrialObservation}
    (hl : Observed settings P .confirmation settings.confirmationSeconds candidate l)
    (ho : l.accepted = some o) (hloss : o.lossFrames ≠ 0) :
    Confirmation candidate (n + 1) [l] (some false)
  | next {n : Nat} {l : LogicalObservation} {o : TrialObservation} {rest : List LogicalObservation}
    {passed : Option Bool}
    (hl : Observed settings P .confirmation settings.confirmationSeconds candidate l)
    (ho : l.accepted = some o) (hloss : o.lossFrames = 0)
    (hrest : Confirmation candidate n rest passed) :
    Confirmation candidate (n + 1) (l :: rest) passed

/-- What the way down from a rate observes, and the rate it ends at. -/
inductive Descent : ℚ → List LogicalObservation → Option ℚ → Prop
  | exhausted {candidate : ℚ} (hpos : candidate ≤ 0) : Descent candidate [] (some 0)
  | missing {candidate : ℚ} {ls : List LogicalObservation} (hpos : 0 < candidate)
    (hconfirm : Confirmation settings P candidate settings.confirmations ls none) :
    Descent candidate ls none
  | confirmed {candidate : ℚ} {ls : List LogicalObservation} (hpos : 0 < candidate)
    (hconfirm : Confirmation settings P candidate settings.confirmations ls (some true)) :
    Descent candidate ls (some candidate)
  | lower {candidate : ℚ} {ls rest : List LogicalObservation} {rate : Option ℚ} (hpos : 0 < candidate)
    (hconfirm : Confirmation settings P candidate settings.confirmations ls (some false))
    (hrest : Descent (roundRate (candidate - settings.resolution) settings.resolution) rest rate) :
    Descent candidate (ls ++ rest) rate

/-- What `search_frame` observes up to a ceiling, and its result. -/
inductive SearchRun (ceiling : ℚ) : List LogicalObservation → Option ℚ → Prop
  | missing {l : LogicalObservation}
    (hl : Observed settings P .search settings.trialSeconds ceiling l) (hnone : l.accepted = none) :
    SearchRun ceiling [l] none
  | lossless {l : LogicalObservation} {o : TrialObservation} {down : List LogicalObservation}
    {rate : Option ℚ} (hl : Observed settings P .search settings.trialSeconds ceiling l)
    (ho : l.accepted = some o) (hloss : o.lossFrames = 0)
    (hdown : Descent settings P ceiling down rate) : SearchRun ceiling (l :: down) rate
  | cut {l : LogicalObservation} {o : TrialObservation} {searched : List LogicalObservation}
    (hl : Observed settings P .search settings.trialSeconds ceiling l) (ho : l.accepted = some o)
    (hloss : o.lossFrames ≠ 0) (hsearch : Bisection settings P 0 ceiling searched none) :
    SearchRun ceiling (l :: searched) none
  | searched {l : LogicalObservation} {o : TrialObservation} {searched down : List LogicalObservation}
    {low : ℚ} {rate : Option ℚ} (hl : Observed settings P .search settings.trialSeconds ceiling l)
    (ho : l.accepted = some o) (hloss : o.lossFrames ≠ 0)
    (hsearch : Bisection settings P 0 ceiling searched (some low))
    (hdown : Descent settings P low down rate) : SearchRun ceiling (l :: (searched ++ down)) rate

end Runs

/-! ### Every search is such a run -/

section Specs

variable {σ : Type} {trial : TrialFunction σ} {frameSize : Nat} {settings : SearchSettings}
  {P : TrialRecord → Prop}

/-- Whatever is asked, the record of the answer satisfies `P`. -/
def AnswersAs (trial : TrialFunction σ) (frameSize : Nat) (P : TrialRecord → Prop) : Prop :=
  ∀ (phase : TrialPhase) (rate duration : ℚ),
    Ensures (fun _ => True) (trial ⟨frameSize, rate, duration⟩) fun o => P ⟨phase, rate, duration, o⟩

theorem answersAs_true (trial : TrialFunction σ) (frameSize : Nat) :
    AnswersAs trial frameSize fun _ => True :=
  fun _ _ _ _ _ => ⟨trivial, fun _ _ => trivial⟩

theorem attempt_answered (h : AnswersAs trial frameSize P) (rate duration : ℚ) (phase : TrialPhase) :
    Ensures (fun _ => True) (attempt trial frameSize rate duration phase) fun p =>
      Attempted rate duration phase p.1 p.2 ∧ ∀ r ∈ p.1, P r := by
  refine (h phase rate duration).bind fun first hfirst => ?_
  cases hvalid : first.valid with
  | true => exact .pure ⟨.first first hvalid, by simpa using hfirst⟩
  | false =>
    refine (h { phase with retry := true } rate duration).bind fun retry hretry => ?_
    cases hvalid' : retry.valid with
    | true => exact .pure ⟨.retried first retry hvalid hvalid', by simp [hfirst, hretry]⟩
    | false => exact .pure ⟨.missing first retry hvalid hvalid', by simp [hfirst, hretry]⟩

theorem observe_run (h : AnswersAs trial frameSize P) (rate duration : ℚ) (stage : TrialStage) :
    Ensures (fun _ => True) (observe trial frameSize settings rate duration stage) fun p =>
      ∃ l, Observed settings P stage duration rate l ∧ p = (l.records, l.accepted) := by
  refine (Ensures.forList fun sample _ =>
    attempt_answered h rate duration ⟨stage, sample, false⟩).bind fun attempts hattempts => .pure ?_
  refine ⟨⟨rate, duration, stage, attempts⟩, ⟨rfl, rfl, rfl, hattempts.imp fun _ _ hp => hp.1, ?_⟩, rfl⟩
  intro r hr
  obtain ⟨p, hp, hr⟩ := List.mem_flatMap.mp hr
  obtain ⟨i, hi, rfl⟩ := List.getElem_of_mem hp
  exact (hattempts.get (by rw [hattempts.length_eq]; exact hi) hi).2 r hr

theorem bisect_run (h : AnswersAs trial frameSize P) (low high : ℚ)
    (hgrid : ∃ k : ℤ, low = k * settings.resolution) :
    Ensures (fun _ => True) (bisect trial frameSize settings low high) fun p =>
      ∃ ls, Bisection settings P low high ls p.2 ∧ p.1 = ls.flatMap LogicalObservation.records := by
  induction low, high using bisect.induct settings with
  | case1 low high hgap candidate hout =>
    -- the break: the candidate is inside, since the lower bound is on the grid
    obtain ⟨k, rfl⟩ := hgrid
    obtain ⟨hbelow, habove⟩ := roundRate_inside settings.pos k hgap
    rcases hout with hout | hout
    · exact absurd hbelow (not_lt.mpr hout)
    · exact absurd habove (not_lt.mpr hout)
  | case2 low high hgap candidate hin ihLossless ihLossy =>
    rw [bisect, if_pos hgap, dif_neg hin]
    obtain ⟨hbelow, habove⟩ := not_or.mp hin
    rw [not_le] at hbelow habove
    refine (observe_run h candidate settings.trialSeconds .search).bind fun p hp => ?_
    obtain ⟨l, hl, rfl⟩ := hp
    cases ho : l.accepted with
    | none => exact .pure ⟨[l], .missing hbelow habove hl ho, by simp⟩
    | some o =>
      dsimp only
      split
      · rename_i hloss
        refine (ihLossless (roundRate_grid _ _)).bind fun q hq => ?_
        obtain ⟨rest, hrest, hrecords⟩ := hq
        exact .pure ⟨l :: rest, .lossless hbelow habove hl ho hloss hrest, by simp [hrecords]⟩
      · rename_i hloss
        refine (ihLossy hgrid).bind fun q hq => ?_
        obtain ⟨rest, hrest, hrecords⟩ := hq
        exact .pure ⟨l :: rest, .lossy hbelow habove hl ho hloss hrest, by simp [hrecords]⟩
  | case3 low high hgap =>
    rw [bisect, if_neg hgap]
    exact .pure ⟨[], .done (not_lt.mp hgap), rfl⟩

theorem confirm_run (h : AnswersAs trial frameSize P) (candidate : ℚ) (n : Nat) :
    Ensures (fun _ => True) (confirm trial frameSize settings candidate n) fun p =>
      ∃ ls, Confirmation settings P candidate n ls p.2 ∧
        p.1 = ls.flatMap LogicalObservation.records := by
  induction n with
  | zero => exact .pure ⟨[], .passed, rfl⟩
  | succ n ih =>
    refine (observe_run h candidate settings.confirmationSeconds .confirmation).bind fun p hp => ?_
    obtain ⟨l, hl, rfl⟩ := hp
    cases ho : l.accepted with
    | none => exact .pure ⟨[l], .missing hl ho, by simp⟩
    | some o =>
      dsimp only
      split
      · rename_i hloss
        exact .pure ⟨[l], .failed hl ho hloss, by simp⟩
      · rename_i hloss
        refine ih.bind fun q hq => ?_
        obtain ⟨rest, hrest, hrecords⟩ := hq
        exact .pure ⟨l :: rest, .next hl ho (not_not.mp hloss) hrest, by simp [hrecords]⟩

theorem stepDown_run (h : AnswersAs trial frameSize P) (candidate : ℚ) :
    Ensures (fun _ => True) (stepDown trial frameSize settings candidate) fun p =>
      ∃ ls, Descent settings P candidate ls p.2 ∧
        p.1 = ls.flatMap LogicalObservation.records := by
  induction candidate using stepDown.induct settings with
  | case1 candidate hpos ih =>
    rw [stepDown, dif_pos hpos]
    refine (confirm_run h candidate settings.confirmations).bind fun p hp => ?_
    obtain ⟨history, passed⟩ := p
    obtain ⟨ls, hconfirm, hrecords⟩ := hp
    rcases passed with - | - | -
    · exact .pure ⟨ls, .missing hpos hconfirm, hrecords⟩
    · refine ih.bind fun q hq => ?_
      obtain ⟨rest, hrest, hrecords'⟩ := hq
      dsimp only at hrecords
      exact .pure ⟨ls ++ rest, .lower hpos hconfirm hrest, by simp [hrecords, hrecords']⟩
    · exact .pure ⟨ls, .confirmed hpos hconfirm, hrecords⟩
  | case2 candidate hpos =>
    rw [stepDown, dif_neg hpos]
    exact .pure ⟨[], .exhausted (not_lt.mp hpos), rfl⟩

/-- A result with the run it comes from. -/
def RunOf (settings : SearchSettings) (P : TrialRecord → Prop) (frameSize : Nat) (ceiling : ℚ)
    (result : FrameSearchResult) (ls : List LogicalObservation) : Prop :=
  SearchRun settings P ceiling ls result.throughputPercentL1 ∧
    result.trials = ls.flatMap LogicalObservation.records ∧
    result.valid = result.throughputPercentL1.isSome ∧ result.frameSize = frameSize

theorem searchFrame_run (h : AnswersAs trial frameSize P) (ceiling : ℚ) :
    Ensures (fun _ => True) (searchFrame trial frameSize settings ceiling) fun result =>
      ∃ ls, RunOf settings P frameSize ceiling result ls := by
  refine (observe_run h ceiling settings.trialSeconds .search).bind fun p hp => ?_
  obtain ⟨l, hl, rfl⟩ := hp
  cases ho : l.accepted with
  | none => exact .pure ⟨[l], .missing hl ho, by simp, rfl, rfl⟩
  | some o =>
    by_cases hloss : o.lossFrames = 0
    · simp only [firstCandidate, if_pos hloss]
      refine Ensures.bind (Q := fun q => q = ([], some ceiling)) (.pure rfl) fun q hq => ?_
      subst hq
      refine (stepDown_run h ceiling).bind fun u hu => ?_
      obtain ⟨down, hdown, hrecords⟩ := hu
      exact .pure ⟨l :: down, .lossless hl ho hloss hdown, by simp [hrecords], rfl, rfl⟩
    · simp only [firstCandidate, if_neg hloss]
      refine (bisect_run h 0 ceiling ⟨0, by simp⟩).bind fun q hq => ?_
      obtain ⟨searched, candidate⟩ := q
      obtain ⟨ls, hsearch, hsearched⟩ := hq
      dsimp only at hsearched
      cases candidate with
      | none => exact .pure ⟨l :: ls, .cut hl ho hloss hsearch, by simp [hsearched], rfl, rfl⟩
      | some low =>
        refine (stepDown_run h low).bind fun u hu => ?_
        obtain ⟨down, hdown, hrecords⟩ := hu
        exact .pure ⟨l :: (ls ++ down), .searched hl ho hloss hsearch hdown,
          by simp [hsearched, hrecords], rfl, rfl⟩

end Specs

/-! ### The evidence of a result -/

section Evidence

variable {settings : SearchSettings} {P : TrialRecord → Prop} {frameSize : Nat} {ceiling : ℚ}
  {ls : List LogicalObservation} {rate : Option ℚ}

/-- A call of `observe` in which each sample was tried, and once more if it was invalid. -/
def LogicalObservation.Sampled (settings : SearchSettings) (l : LogicalObservation) : Prop :=
  List.Forall₂ (fun sample p => Attempted l.rate l.duration ⟨l.stage, sample, false⟩ p.1 p.2)
    (List.range (LogicalObservation.samples settings l.stage)) l.attempts

/-- Every sample was invalid, and so was its retry. -/
def LogicalObservation.AllInvalid (l : LogicalObservation) : Prop := ∀ p ∈ l.attempts, p.2 = none

/-- A confirmation of a rate, whose last record is valid and has no lost frames. -/
structure LogicalObservation.Confirms (settings : SearchSettings) (rate : ℚ) (l : LogicalObservation) :
    Prop where
  stage : l.stage = .confirmation
  rate_eq : l.rate = rate
  duration : l.duration = settings.confirmationSeconds
  last : ∃ r, l.records.getLast? = some r ∧ r.observation.valid = true ∧ r.observation.lossFrames = 0

theorem Observed.sampled {stage : TrialStage} {duration rate : ℚ} {l : LogicalObservation}
    (h : Observed settings P stage duration rate l) : l.Sampled settings := by
  have hattempted := h.attempted
  rwa [← h.rate_eq, ← h.duration_eq, ← h.stage_eq] at hattempted

/-- What a part of a run is made of: calls of `observe`, the last of which alone may be missing, and
then the part has no result. -/
structure Part (settings : SearchSettings) (ls : List LogicalObservation) (missing : Prop) : Prop where
  sampled : ∀ l ∈ ls, l.Sampled settings
  accepted : ∀ l ∈ ls, ∀ o, l.accepted = some o →
    o.valid = true ∧ ∃ r ∈ l.records, r.observation = o
  missing_iff : missing ↔ ∃ l ∈ ls, l.AllInvalid

theorem Part.nil : Part settings [] False := ⟨by simp, by simp, by simp⟩

theorem Part.of_none {stage : TrialStage} {duration rate : ℚ} {l : LogicalObservation}
    (hl : Observed settings P stage duration rate l) (hnone : l.accepted = none) :
    Part settings [l] True := by
  have hall : l.AllInvalid := Observed.accepted_eq_none_iff.mp hnone
  exact ⟨by simpa using hl.sampled, by simp [hnone], by simpa using hall⟩

theorem Part.cons {stage : TrialStage} {duration rate : ℚ} {l : LogicalObservation}
    {o : TrialObservation} {missing : Prop} (hl : Observed settings P stage duration rate l)
    (ho : l.accepted = some o) (hls : Part settings ls missing) :
    Part settings (l :: ls) missing := by
  have hnot : ¬l.AllInvalid := by
    intro hall
    have hnone := Observed.accepted_eq_none_iff.mpr hall
    simp [ho] at hnone
  refine ⟨?_, ?_, ?_⟩
  · simpa using ⟨hl.sampled, hls.sampled⟩
  · intro l' hl' o' ho'
    rcases List.mem_cons.mp hl' with rfl | hl'
    · exact hl.accepted_valid ho'
    · exact hls.accepted l' hl' o' ho'
  · simp [hls.missing_iff, hnot]

theorem Part.append {ls' : List LogicalObservation} {missing : Prop} (h : Part settings ls False)
    (h' : Part settings ls' missing) : Part settings (ls ++ ls') missing := by
  refine ⟨?_, ?_, ?_⟩
  · intro l hl
    exact (List.mem_append.mp hl).elim (h.sampled l) (h'.sampled l)
  · intro l hl
    exact (List.mem_append.mp hl).elim (h.accepted l) (h'.accepted l)
  · have hnone : ∀ l ∈ ls, ¬l.AllInvalid := by simpa using h.missing_iff
    rw [h'.missing_iff]
    constructor
    · rintro ⟨l, hl, hall⟩
      exact ⟨l, by simp [hl], hall⟩
    · rintro ⟨l, hl, hall⟩
      rcases List.mem_append.mp hl with hl | hl
      · exact absurd hall (hnone l hl)
      · exact ⟨l, hl, hall⟩

theorem Bisection.part {low high : ℚ} (h : Bisection settings P low high ls rate) :
    Part settings ls (rate = none) := by
  induction h with
  | done hgap => simpa using Part.nil
  | missing _ _ hl hnone => simpa using Part.of_none hl hnone
  | lossless _ _ hl ho _ _ ih => exact .cons hl ho ih
  | lossy _ _ hl ho _ _ ih => exact .cons hl ho ih

theorem Confirmation.part {candidate : ℚ} {n : Nat} {passed : Option Bool}
    (h : Confirmation settings P candidate n ls passed) : Part settings ls (passed = none) := by
  induction h with
  | passed => simpa using Part.nil
  | missing hl hnone => simpa using Part.of_none hl hnone
  | failed hl ho _ => exact .cons hl ho (by simpa using Part.nil)
  | next hl ho _ _ ih => exact .cons hl ho ih

theorem Descent.part {candidate : ℚ} (h : Descent settings P candidate ls rate) :
    Part settings ls (rate = none) := by
  induction h with
  | exhausted _ => simpa using Part.nil
  | missing _ hconfirm => simpa using hconfirm.part
  | confirmed _ hconfirm => simpa using hconfirm.part
  | lower _ hconfirm _ ih => exact .append (by simpa using hconfirm.part) ih

theorem SearchRun.part (h : SearchRun settings P ceiling ls rate) :
    Part settings ls (rate = none) := by
  cases h with
  | missing hl hnone => simpa using Part.of_none hl hnone
  | lossless hl ho _ hdown => exact .cons hl ho hdown.part
  | cut hl ho _ hsearch => exact .cons hl ho hsearch.part
  | searched hl ho _ hsearch hdown =>
    exact .cons hl ho (.append (by simpa using hsearch.part) hdown.part)

/-- The confirmations that passed are lossless ones of the rate. -/
theorem Confirmation.confirms {candidate : ℚ} {n : Nat}
    (h : Confirmation settings P candidate n ls (some true)) :
    ls.length = n ∧ ∀ l ∈ ls, l.Confirms settings candidate := by
  generalize hpassed : some true = passed at h
  induction h with
  | passed => simp
  | missing _ _ => simp at hpassed
  | failed _ _ _ => simp at hpassed
  | @next n l o rest passed hl ho hloss _ ih =>
    obtain ⟨hlength, hrest⟩ := ih hpassed
    have hone := hl.attempted
    simp only [LogicalObservation.samples] at hone
    obtain ⟨p, _, hp, hnil, hattempts⟩ := List.forall₂_cons_left_iff.mp hone
    obtain rfl := List.forall₂_nil_left_iff.mp hnil
    have haccepted : p.2 = some o := by
      rw [LogicalObservation.accepted, hl.stage_eq, LogicalObservation.valid, hattempts] at ho
      cases hvalid : p.2 <;> simp [hvalid] at ho ⊢
      exact ho
    rw [haccepted] at hp
    obtain ⟨hvalid, r, hlast, hr⟩ := hp.last
    have hconfirms : l.Confirms settings candidate := by
      refine ⟨hl.stage_eq, hl.rate_eq, hl.duration_eq, r, ?_, by rw [hr]; exact hvalid,
        by rw [hr]; exact hloss⟩
      simpa [LogicalObservation.records, hattempts] using hlast
    exact ⟨by simp [hlength], by simpa using ⟨hconfirms, hrest⟩⟩

theorem Descent.confirmations {candidate found : ℚ} (h : Descent settings P candidate ls (some found))
    (hpos : 0 < found) : ∃ before confirmations, ls = before ++ confirmations ∧
      confirmations.length = settings.confirmations ∧
      ∀ l ∈ confirmations, l.Confirms settings found := by
  generalize hrate : some found = rate at h
  induction h with
  | exhausted _ =>
    obtain rfl := Option.some.inj hrate
    exact absurd hpos (lt_irrefl 0)
  | missing _ _ => simp at hrate
  | @confirmed candidate ls _ hconfirm =>
    obtain rfl := Option.some.inj hrate
    obtain ⟨hlength, hall⟩ := hconfirm.confirms
    exact ⟨[], ls, rfl, hlength, hall⟩
  | @lower candidate ls rest rate _ _ _ ih =>
    obtain ⟨before, confirmations, heq, hrest⟩ := ih hrate
    exact ⟨ls ++ before, confirmations, by simp [heq], hrest⟩

theorem SearchRun.confirmations {found : ℚ} (h : SearchRun settings P ceiling ls (some found))
    (hpos : 0 < found) : ∃ before confirmations, ls = before ++ confirmations ∧
      confirmations.length = settings.confirmations ∧
      ∀ l ∈ confirmations, l.Confirms settings found := by
  cases h with
  | @lossless l o down rate hl ho hloss hdown =>
    obtain ⟨before, confirmations, heq, hrest⟩ := hdown.confirmations hpos
    exact ⟨l :: before, confirmations, by simp [heq], hrest⟩
  | @searched l o searched down low rate hl ho hloss hsearch hdown =>
    obtain ⟨before, confirmations, heq, hrest⟩ := hdown.confirmations hpos
    exact ⟨l :: (searched ++ before), confirmations, by simp [heq], hrest⟩

end Evidence

end TrexCli.Rfc2544
