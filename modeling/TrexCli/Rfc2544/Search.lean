import Mathlib.Algebra.Order.Floor.Ring
import Mathlib.Data.Rat.Floor
import Mathlib.Tactic.Linarith
import Mathlib.Tactic.FieldSimp
import Mathlib.Data.List.Chain
import TrexCli.Lib.Effect
import TrexCli.Policy.Safety

/-!
# Throughput search and frame loss

`search_frame` and `measure_frame_loss` of `rfc2544.py`. A trial function may answer anything, may
raise, and may have a state of its own, so it is an effect; arithmetic is exact.
-/

namespace TrexCli.Rfc2544

/-- `TrialObservation` -/
structure TrialObservation where
  valid : Bool
  lossFrames : Int
  txFrames : Int
  rxFrames : Int
  targetRateReached : Bool
  details : Json

/-- What a trial is for. -/
inductive TrialStage where
  | search | confirmation | frameLoss
  deriving DecidableEq, Repr

/-- The `phase` of a trial record: the stage, the number of the sample, and whether the trial
repeats an invalid one. -/
structure TrialPhase where
  stage : TrialStage
  sample : Nat := 0
  retry : Bool := false
  deriving DecidableEq

def TrialStage.name : TrialStage → String
  | search => "search"
  | confirmation => "confirmation"
  | frameLoss => "frame-loss"

/-- The text of a phase; it starts with the name of its stage. -/
def TrialPhase.text (p : TrialPhase) : String :=
  p.stage.name ++ (if p.sample = 0 then "" else "-sample-" ++ toString (p.sample + 1)) ++
    if p.retry then "-retry" else ""

/-- `_trial_record` -/
structure TrialRecord where
  phase : TrialPhase
  ratePercentL1 : ℚ
  durationSeconds : ℚ
  observation : TrialObservation

/-- The arguments of a trial function. -/
structure TrialRequest where
  frameSize : Nat
  ratePercent : ℚ
  durationSeconds : ℚ

/-- `TrialFunction` -/
abbrev TrialFunction (σ : Type) := TrialRequest → Effect Exc σ TrialObservation

/-- `SearchSettings` -/
structure SearchSettings where
  resolution : ℚ
  trialSeconds : ℚ
  confirmationSeconds : ℚ
  confirmations : Nat
  searchSamples : Nat := 1
  pos : 0 < resolution

/-- `FrameLossSettings` -/
structure FrameLossSettings where
  stepPercent : ℚ
  trialSeconds : ℚ
  consecutiveZeroLoss : Nat := 2
  pos : 0 < stepPercent

/-- `FrameSearchResult` -/
structure FrameSearchResult where
  frameSize : Nat
  throughputPercentL1 : Option ℚ
  valid : Bool
  trials : List TrialRecord

/-- A point of a frame loss curve. -/
structure LossPoint extends TrialRecord where
  lossPercent : Option ℚ

/-- `FrameLossResult` -/
structure FrameLossResult where
  frameSize : Nat
  valid : Bool
  stoppedAfterConsecutiveZeroLoss : Bool
  trials : List LossPoint

inductive Mode where
  | strict | fast
  deriving DecidableEq, Repr

/-- `settings_for` -/
def settingsFor (mode : Mode) (ceilingPercent : ℚ) : SearchSettings :=
  match mode with
  | .strict =>
    { resolution := min (1 / 10) (max (ceilingPercent / 10) (1 / 10000))
      trialSeconds := 10, confirmationSeconds := 60, confirmations := 3, searchSamples := 3
      pos := lt_min (by norm_num) (lt_max_of_lt_right (by norm_num)) }
  | .fast =>
    { resolution := min (1 / 2) (max (ceilingPercent / 10) (1 / 10000))
      trialSeconds := 3, confirmationSeconds := 10, confirmations := 1
      pos := lt_min (by norm_num) (lt_max_of_lt_right (by norm_num)) }

/-- `frame_loss_settings_for` -/
def frameLossSettingsFor (mode : Mode) (ceilingPercent : ℚ) : FrameLossSettings where
  stepPercent := min 10 (max (ceilingPercent / 10) (1 / 10 ^ 12))
  trialSeconds := if mode = .strict then 60 else 3
  pos := lt_min (by norm_num) (lt_max_of_lt_right (by norm_num))

/-! ### Rounding -/

/-- `round`: to the nearest integer, ties to the even one. -/
def roundHalfEven (q : ℚ) : ℤ :=
  if q - ⌊q⌋ < 1 / 2 then ⌊q⌋
  else if 1 / 2 < q - ⌊q⌋ then ⌊q⌋ + 1
  else if ⌊q⌋ % 2 = 0 then ⌊q⌋ else ⌊q⌋ + 1

theorem roundHalfEven_le (q : ℚ) : (roundHalfEven q : ℚ) ≤ q + 1 / 2 := by
  have hfloor := Int.floor_le q
  unfold roundHalfEven
  split
  · linarith
  · split
    · push_cast
      linarith
    · split
      · linarith
      · push_cast
        linarith

/-- `_round_rate` -/
def roundRate (value resolution : ℚ) : ℚ := roundHalfEven (value / resolution) * resolution

/-- A rate stepped down and rounded is at least half a step lower. -/
theorem roundRate_sub_le (value : ℚ) {step : ℚ} (hstep : 0 < step) :
    roundRate (value - step) step ≤ value - step / 2 := by
  have hround := roundHalfEven_le ((value - step) / step)
  calc roundRate (value - step) step
      ≤ ((value - step) / step + 1 / 2) * step := mul_le_mul_of_nonneg_right hround hstep.le
    _ = value - step / 2 := by field_simp; ring

/-- A step down from a multiple of the step is not rounded. -/
theorem roundRate_mul_sub {step : ℚ} (hstep : 0 < step) (k : ℤ) :
    roundRate (k * step - step) step = (k - 1 : ℤ) * step := by
  have hdiv : (k * step - step) / step = ((k - 1 : ℤ) : ℚ) := by
    push_cast
    field_simp
  rw [roundRate, hdiv, roundHalfEven, Int.floor_intCast, sub_self, if_pos (by norm_num)]

/-- The steps down from a rate end at or below zero. -/
theorem ceil_roundRate_lt {value step : ℚ} (hstep : 0 < step) (hpos : 0 < value) :
    (⌈roundRate (value - step) step / step⌉).toNat < (⌈value / step⌉).toNat := by
  have hk : roundRate (value - step) step / step = roundHalfEven ((value - step) / step) := by
    rw [roundRate, mul_div_cancel_right₀ _ hstep.ne']
  have hlt : (roundHalfEven ((value - step) / step) : ℚ) < value / step := by
    have hround := roundHalfEven_le ((value - step) / step)
    have heq : (value - step) / step = value / step - 1 := by field_simp
    rw [heq] at hround ⊢
    linarith
  have hceil : 0 < ⌈value / step⌉ := Int.ceil_pos.mpr (div_pos hpos hstep)
  have hless : roundHalfEven ((value - step) / step) < ⌈value / step⌉ := Int.lt_ceil.mpr hlt
  rw [hk, Int.ceil_intCast]
  omega

/-- The bisection looks at rates between its bounds, and at fewer of them each time. -/
theorem bisect_lower {low high step : ℚ} (hstep : 0 < step) (k : ℤ) (hlow : low < k * step)
    (hhigh : k * step < high) :
    (⌈high / step⌉ - ⌊(k * step : ℚ) / step⌋).toNat < (⌈high / step⌉ - ⌊low / step⌋).toNat := by
  have hfloor : ⌊low / step⌋ < k := Int.floor_lt.mpr ((div_lt_iff₀ hstep).mpr hlow)
  have hceil : k < ⌈high / step⌉ := Int.lt_ceil.mpr ((lt_div_iff₀ hstep).mpr hhigh)
  rw [mul_div_cancel_right₀ _ hstep.ne', Int.floor_intCast]
  omega

theorem bisect_upper {low high step : ℚ} (hstep : 0 < step) (k : ℤ) (hlow : low < k * step)
    (hhigh : k * step < high) :
    (⌈(k * step : ℚ) / step⌉ - ⌊low / step⌋).toNat < (⌈high / step⌉ - ⌊low / step⌋).toNat := by
  have hfloor : ⌊low / step⌋ < k := Int.floor_lt.mpr ((div_lt_iff₀ hstep).mpr hlow)
  have hceil : k < ⌈high / step⌉ := Int.lt_ceil.mpr ((lt_div_iff₀ hstep).mpr hhigh)
  rw [mul_div_cancel_right₀ _ hstep.ne', Int.ceil_intCast]
  omega

/-! ### Measurements -/

section Measure

variable {σ : Type} (trial : TrialFunction σ) (frameSize : Nat)

/-- A trial, and once more if it is invalid: its records, and the valid observation. -/
def attempt (rate duration : ℚ) (phase : TrialPhase) :
    Effect Exc σ (List TrialRecord × Option TrialObservation) := do
  let first ← trial ⟨frameSize, rate, duration⟩
  if first.valid then pure ([⟨phase, rate, duration, first⟩], some first)
  else
    let retry ← trial ⟨frameSize, rate, duration⟩
    pure ([⟨phase, rate, duration, first⟩, ⟨{ phase with retry := true }, rate, duration, retry⟩],
      if retry.valid then some retry else none)

variable (settings : SearchSettings)

/-- `observe`: a search looks at several samples, and takes a lossless one if it can. -/
def observe (rate duration : ℚ) (stage : TrialStage) :
    Effect Exc σ (List TrialRecord × Option TrialObservation) := do
  let samples := if stage = .search then settings.searchSamples else 1
  let attempts ← Effect.forList
    (fun sample => attempt trial frameSize rate duration ⟨stage, sample, false⟩) (List.range samples)
  let valid := attempts.filterMap Prod.snd
  pure (attempts.flatMap Prod.fst,
    if stage = .search then (valid.find? fun o => o.lossFrames = 0).or valid.getLast?
    else valid.getLast?)

/-- The bisection of `search_frame`: the highest lossless rate found, or none when an observation is
missing. -/
def bisect (low high : ℚ) : Effect Exc σ (List TrialRecord × Option ℚ) :=
  if high - low > settings.resolution then
    let candidate := roundRate ((low + high) / 2) settings.resolution
    if _h : candidate ≤ low ∨ candidate ≥ high then pure ([], some low)
    else do
      let (history, observation) ←
        observe trial frameSize settings candidate settings.trialSeconds .search
      match observation with
      | none => pure (history, none)
      | some o =>
        if o.lossFrames = 0 then do
          let (rest, rate) ← bisect candidate high
          pure (history ++ rest, rate)
        else do
          let (rest, rate) ← bisect low candidate
          pure (history ++ rest, rate)
  else pure ([], some low)
termination_by (⌈high / settings.resolution⌉ - ⌊low / settings.resolution⌋).toNat
decreasing_by
  · have hinside := not_or.mp ‹¬ (_ ∨ _)›
    exact bisect_lower settings.pos _ (not_le.mp hinside.1) (not_le.mp hinside.2)
  · have hinside := not_or.mp ‹¬ (_ ∨ _)›
    exact bisect_upper settings.pos _ (not_le.mp hinside.1) (not_le.mp hinside.2)

/-- The confirmations of a rate: whether all are lossless, or none when an observation is missing. -/
def confirm (candidate : ℚ) : Nat → Effect Exc σ (List TrialRecord × Option Bool)
  | 0 => pure ([], some true)
  | n + 1 => do
    let (history, confirmation) ←
      observe trial frameSize settings candidate settings.confirmationSeconds .confirmation
    match confirmation with
    | none => pure (history, none)
    | some o =>
      if o.lossFrames ≠ 0 then pure (history, some false)
      else do
        let (rest, passed) ← confirm candidate n
        pure (history ++ rest, passed)

/-- The rate `search_frame` reports, from the first one to confirm: the first that passes on the way
down, or zero. -/
def stepDown (candidate : ℚ) : Effect Exc σ (List TrialRecord × Option ℚ) :=
  if _h : candidate > 0 then do
    let (history, passed) ← confirm trial frameSize settings candidate settings.confirmations
    match passed with
    | none => pure (history, none)
    | some true => pure (history, some candidate)
    | some false => do
      let (rest, rate) ←
        stepDown (roundRate (candidate - settings.resolution) settings.resolution)
      pure (history ++ rest, rate)
  else pure ([], some 0)
termination_by (⌈candidate / settings.resolution⌉).toNat
decreasing_by exact ceil_roundRate_lt settings.pos ‹_›

/-- The first rate `search_frame` confirms: the ceiling if it is lossless, else what the bisection
finds. -/
def firstCandidate (ceilingPercent : ℚ) (ceiling : TrialObservation) :
    Effect Exc σ (List TrialRecord × Option ℚ) :=
  if ceiling.lossFrames = 0 then pure ([], some ceilingPercent)
  else bisect trial frameSize settings 0 ceilingPercent

/-- `search_frame` -/
def searchFrame (ceilingPercent : ℚ) : Effect Exc σ FrameSearchResult := do
  let (history, ceiling) ←
    observe trial frameSize settings ceilingPercent settings.trialSeconds .search
  match ceiling with
  | none => pure ⟨frameSize, none, false, history⟩
  | some o => do
    let (searched, candidate) ← firstCandidate trial frameSize settings ceilingPercent o
    match candidate with
    | none => pure ⟨frameSize, none, false, history ++ searched⟩
    | some candidate => do
      let (confirmed, rate) ← stepDown trial frameSize settings candidate
      pure ⟨frameSize, rate, rate.isSome, history ++ searched ++ confirmed⟩

/-- A record with the loss in percent. -/
def LossPoint.ofRecord (r : TrialRecord) : LossPoint :=
  { r with
    lossPercent :=
      if r.observation.txFrames ≤ 0 then none
      else some (r.observation.lossFrames * 100 / r.observation.txFrames) }

/-- The loop of `measure_frame_loss`: the curve, whether it is valid, and whether enough lossless
trials in a row ended it. -/
def lossCurve (settings : FrameLossSettings) (consecutiveZero : Nat) (rate : ℚ) :
    Effect Exc σ (List LossPoint × Bool × Bool) :=
  if _h : rate > 0 then do
    let (records, observation) ←
      attempt trial frameSize rate settings.trialSeconds ⟨.frameLoss, 0, false⟩
    let points := records.map LossPoint.ofRecord
    match observation with
    | none => pure (points, false, false)
    | some o =>
      let consecutiveZero := if o.lossFrames = 0 then consecutiveZero + 1 else 0
      if o.lossFrames = 0 ∧ settings.consecutiveZeroLoss ≤ consecutiveZero then
        pure (points, true, true)
      else do
        let (rest, valid, stopped) ← lossCurve settings consecutiveZero
          (roundRate (rate - settings.stepPercent) settings.stepPercent)
        pure (points ++ rest, valid, stopped)
  else pure ([], true, false)
termination_by (⌈rate / settings.stepPercent⌉).toNat
decreasing_by exact ceil_roundRate_lt settings.pos ‹_›

/-- `measure_frame_loss` -/
def measureFrameLoss (settings : FrameLossSettings) (ceilingPercent : ℚ) :
    Effect Exc σ FrameLossResult := do
  let (points, valid, stopped) ← lossCurve trial frameSize settings 0 ceilingPercent
  pure ⟨frameSize, valid, stopped, points⟩

end Measure

/-! ### What a measurement leaves behind -/

/-- The records of an attempt, and its valid observation. -/
inductive Attempted (rate duration : ℚ) (phase : TrialPhase) :
    List TrialRecord → Option TrialObservation → Prop where
  | first (o : TrialObservation) (hvalid : o.valid = true) :
      Attempted rate duration phase [⟨phase, rate, duration, o⟩] (some o)
  | retried (o o' : TrialObservation) (hinvalid : o.valid = false) (hvalid : o'.valid = true) :
      Attempted rate duration phase
        [⟨phase, rate, duration, o⟩, ⟨{ phase with retry := true }, rate, duration, o'⟩] (some o')
  | missing (o o' : TrialObservation) (hinvalid : o.valid = false) (hinvalid' : o'.valid = false) :
      Attempted rate duration phase
        [⟨phase, rate, duration, o⟩, ⟨{ phase with retry := true }, rate, duration, o'⟩] none

namespace Attempted

variable {rate duration : ℚ} {phase : TrialPhase} {records : List TrialRecord}
  {observation : Option TrialObservation} {r : TrialRecord} {o : TrialObservation}

theorem of_mem (h : Attempted rate duration phase records observation) (hr : r ∈ records) :
    r.phase.stage = phase.stage ∧ r.ratePercentL1 = rate ∧ r.durationSeconds = duration := by
  cases h <;> simp only [List.mem_cons, List.not_mem_nil, or_false] at hr
  · subst hr
    exact ⟨rfl, rfl, rfl⟩
  · rcases hr with rfl | rfl <;> exact ⟨rfl, rfl, rfl⟩
  · rcases hr with rfl | rfl <;> exact ⟨rfl, rfl, rfl⟩

/-- The observation is valid, and the last one recorded. -/
theorem last (h : Attempted rate duration phase records (some o)) :
    o.valid = true ∧ ∃ r, records.getLast? = some r ∧ r.observation = o := by
  cases h with
  | first _ hvalid => exact ⟨hvalid, _, rfl, rfl⟩
  | retried _ _ _ hvalid => exact ⟨hvalid, _, rfl, rfl⟩

/-- Without a valid observation, the last one recorded is invalid. -/
theorem last_invalid (h : Attempted rate duration phase records none) :
    ∃ r, records.getLast? = some r ∧ r.observation.valid = false := by
  cases h with
  | missing _ o' _ hinvalid' => exact ⟨_, rfl, hinvalid'⟩

end Attempted

/-- The last trial of a history is invalid. -/
def EndsInvalid (history : List TrialRecord) : Prop :=
  ∃ r, history.getLast? = some r ∧ r.observation.valid = false

theorem EndsInvalid.append {history : List TrialRecord} (h : EndsInvalid history)
    (earlier : List TrialRecord) : EndsInvalid (earlier ++ history) := by
  obtain ⟨r, hr, hinvalid⟩ := h
  exact ⟨r, by rw [List.getLast?_append, hr]; rfl, hinvalid⟩

/-- The record is of a trial of a search, at a rate above zero. -/
def TrialRecord.IsSearch (r : TrialRecord) (duration : ℚ) : Prop :=
  r.phase.stage = .search ∧ r.durationSeconds = duration ∧ 0 < r.ratePercentL1

/-- The record is of a confirmation, at a rate above zero. -/
def TrialRecord.IsConfirmation (r : TrialRecord) : Prop :=
  r.phase.stage = .confirmation ∧ 0 < r.ratePercentL1

section Specs

variable {σ : Type} {trial : TrialFunction σ} {frameSize : Nat} {settings : SearchSettings}
  {I : σ → Prop} {ceiling : ℚ}

/-- Trials at rates up to a ceiling keep the invariant. -/
def SafeUpTo (I : σ → Prop) (trial : TrialFunction σ) (ceiling : ℚ) : Prop :=
  ∀ req : TrialRequest, 0 < req.ratePercent → req.ratePercent ≤ ceiling →
    Effect.Ensures I (trial req) fun _ => True

/-- Every trial function keeps what always holds. -/
theorem safeUpTo_true (trial : TrialFunction σ) (ceiling : ℚ) :
    SafeUpTo (fun _ => True) trial ceiling :=
  fun _ _ _ _ _ => ⟨trivial, fun _ _ => trivial⟩

open Effect (Ensures)

theorem attempt_spec (h : SafeUpTo I trial ceiling) {rate : ℚ} (hpos : 0 < rate)
    (hle : rate ≤ ceiling) (duration : ℚ) (phase : TrialPhase) :
    Ensures I (attempt trial frameSize rate duration phase) fun p =>
      Attempted rate duration phase p.1 p.2 := by
  refine (h ⟨frameSize, rate, duration⟩ hpos hle).bind fun first _ => ?_
  cases hfirst : first.valid with
  | true => exact .pure (.first first hfirst)
  | false =>
    refine (h ⟨frameSize, rate, duration⟩ hpos hle).bind fun retry _ => ?_
    cases hretry : retry.valid with
    | true => exact .pure (.retried first retry hfirst hretry)
    | false => exact .pure (.missing first retry hfirst hretry)

/-- A search observation leaves search records, and is missing only after an invalid trial. -/
theorem observe_search (h : SafeUpTo I trial ceiling) (hsamples : 0 < settings.searchSamples)
    {rate : ℚ} (hpos : 0 < rate) (hle : rate ≤ ceiling) (duration : ℚ) :
    Ensures I (observe trial frameSize settings rate duration .search) fun p =>
      (∀ r ∈ p.1, r.IsSearch duration) ∧
        (p.2 = none → EndsInvalid p.1) := by
  refine (Ensures.forList fun sample _ => attempt_spec h hpos hle duration ⟨.search, sample, false⟩).bind
    fun attempts hattempts => ?_
  have hlen := hattempts.length_eq
  rw [if_pos rfl, List.length_range] at hlen
  have hatt : ∀ p ∈ attempts, ∃ sample, Attempted rate duration ⟨.search, sample, false⟩ p.1 p.2 := by
    intro p hp
    obtain ⟨i, hi, rfl⟩ := List.getElem_of_mem hp
    exact ⟨_, hattempts.get (by rw [hattempts.length_eq]; exact hi) hi⟩
  refine .pure ⟨fun r hr => ?_, fun hnone => ?_⟩
  · obtain ⟨p, hp, hr⟩ := List.mem_flatMap.mp hr
    obtain ⟨sample, hatt⟩ := hatt p hp
    obtain ⟨hstage, hrate, hduration⟩ := hatt.of_mem hr
    exact ⟨hstage, hduration, hrate ▸ hpos⟩
  · -- no attempt has a valid observation, so neither has the last
    simp only [if_true, Option.or_eq_none_iff, List.getLast?_eq_none_iff,
      List.filterMap_eq_nil_iff] at hnone
    have hne : attempts ≠ [] := by
      rintro rfl
      simp at hlen
      omega
    obtain ⟨earlier, p, rfl⟩ := (List.eq_nil_or_concat' attempts).resolve_left hne
    obtain ⟨sample, hp⟩ := hatt p (by simp)
    rw [hnone.2 p (by simp)] at hp
    rw [List.flatMap_append, List.flatMap_singleton]
    exact EndsInvalid.append hp.last_invalid _

/-- A confirmation is one attempt. -/
theorem observe_confirmation (h : SafeUpTo I trial ceiling) {rate : ℚ} (hpos : 0 < rate)
    (hle : rate ≤ ceiling) (duration : ℚ) :
    Ensures I (observe trial frameSize settings rate duration .confirmation) fun p =>
      Attempted rate duration ⟨.confirmation, 0, false⟩ p.1 p.2 := by
  refine Ensures.bind (Q := fun attempts => ∃ p : List TrialRecord × Option TrialObservation,
    attempts = [p] ∧ Attempted rate duration ⟨.confirmation, 0, false⟩ p.1 p.2) ?_ ?_
  · refine (Ensures.forList fun sample _ =>
      attempt_spec h hpos hle duration ⟨.confirmation, sample, false⟩).mono fun attempts hatt => ?_
    change List.Forall₂ _ [0] attempts at hatt
    obtain ⟨p, _, hp, hnil, rfl⟩ := List.forall₂_cons_left_iff.mp hatt
    obtain rfl := List.forall₂_nil_left_iff.mp hnil
    exact ⟨p, rfl, hp⟩
  · rintro _ ⟨⟨records, observation⟩, rfl, hatt⟩
    refine .pure ?_
    cases observation <;> simpa using hatt

/-- The bisection records search trials up to the ceiling, and ends at zero or at a rate it tried. -/
theorem bisect_spec (h : SafeUpTo I trial ceiling) (hsamples : 0 < settings.searchSamples)
    (low high : ℚ) (hlow : 0 ≤ low) (hlt : low ≤ high) (hhigh : high ≤ ceiling) :
    Ensures I (bisect trial frameSize settings low high) fun p =>
      (∀ r ∈ p.1, r.IsSearch settings.trialSeconds) ∧
        (p.2 = none → EndsInvalid p.1) ∧ ∀ rate, p.2 = some rate → rate ≤ ceiling := by
  have hstop : low ≤ ceiling := hlt.trans hhigh
  induction low, high using bisect.induct settings with
  | case1 low high hgap candidate hout =>
    rw [bisect, if_pos hgap, dif_pos hout]
    exact .pure ⟨by simp, by simp, fun rate hrate => Option.some.inj hrate ▸ hstop⟩
  | case2 low high hgap candidate hin ihLossless ihLossy =>
    rw [bisect, if_pos hgap, dif_neg hin]
    obtain ⟨hbelow, habove⟩ := not_or.mp hin
    have hcandidate : 0 < candidate := hlow.trans_lt (not_le.mp hbelow)
    have hceiling : candidate ≤ ceiling := (not_le.mp habove).le.trans hhigh
    refine (observe_search h hsamples hcandidate hceiling settings.trialSeconds).bind fun p hp => ?_
    obtain ⟨history, observation⟩ := p
    obtain ⟨hsearch, hinvalid⟩ := hp
    cases observation with
    | none => exact .pure ⟨hsearch, fun _ => hinvalid rfl, by simp⟩
    | some o =>
      dsimp only
      split
      · refine (ihLossless hcandidate.le (not_le.mp habove).le hhigh hceiling).bind fun q hq => ?_
        exact .pure ⟨fun r hr => (List.mem_append.mp hr).elim (hsearch r) (hq.1 r),
          fun hnone => (hq.2.1 hnone).append history, hq.2.2⟩
      · refine (ihLossy hlow (not_le.mp hbelow).le hceiling hstop).bind fun q hq => ?_
        exact .pure ⟨fun r hr => (List.mem_append.mp hr).elim (hsearch r) (hq.1 r),
          fun hnone => (hq.2.1 hnone).append history, hq.2.2⟩
  | case3 low high hgap =>
    rw [bisect, if_neg hgap]
    exact .pure ⟨by simp, by simp, fun rate hrate => Option.some.inj hrate ▸ hstop⟩

/-- The record is a valid confirmation, lossless or not. -/
def TrialRecord.Confirms (r : TrialRecord) (duration : ℚ) (lossless : Bool) : Prop :=
  r.phase.stage = .confirmation ∧ r.durationSeconds = duration ∧ r.observation.valid = true ∧
    (r.observation.lossFrames = 0 ↔ lossless = true)

/-- The last record of a history decides whether a series of confirmations passed. -/
def EndsWith (settings : SearchSettings) (candidate : ℚ) (history : List TrialRecord)
    (passed : Bool) : Prop :=
  ∃ r, history.getLast? = some r ∧ r.ratePercentL1 = candidate ∧
    r.Confirms settings.confirmationSeconds passed

theorem EndsWith.append {candidate : ℚ} {history : List TrialRecord} {passed : Bool}
    (h : EndsWith settings candidate history passed) (earlier : List TrialRecord) :
    EndsWith settings candidate (earlier ++ history) passed := by
  obtain ⟨r, hr, hrest⟩ := h
  exact ⟨r, by rw [List.getLast?_append, hr]; rfl, hrest⟩

theorem Attempted.endsWith {candidate : ℚ} {records : List TrialRecord} {o : TrialObservation}
    (h : Attempted candidate settings.confirmationSeconds ⟨.confirmation, 0, false⟩ records
      (some o)) : EndsWith settings candidate records (o.lossFrames = 0) := by
  obtain ⟨hvalid, r, hlast, rfl⟩ := h.last
  obtain ⟨hstage, hrate, hduration⟩ := h.of_mem (List.mem_of_getLast? hlast)
  exact ⟨r, hlast, hrate, hstage, hduration, hvalid, by simp⟩

theorem confirm_spec (h : SafeUpTo I trial ceiling) {candidate : ℚ} (hpos : 0 < candidate)
    (hle : candidate ≤ ceiling) (n : Nat) :
    Ensures I (confirm trial frameSize settings candidate n) fun p =>
      (∀ r ∈ p.1, r.IsConfirmation) ∧ (p.2 = none → EndsInvalid p.1) ∧
        ∀ passed, p.2 = some passed →
          (n = 0 ∧ p.1 = [] ∧ passed = true) ∨ EndsWith settings candidate p.1 passed := by
  induction n with
  | zero =>
    exact .pure ⟨by simp, by simp, fun _ hpassed => .inl ⟨rfl, rfl, (Option.some.inj hpassed).symm⟩⟩
  | succ n ih =>
    refine (observe_confirmation h hpos hle settings.confirmationSeconds).bind fun p hp => ?_
    obtain ⟨history, observation⟩ := p
    have hstage : ∀ r ∈ history, r.IsConfirmation := fun r hr =>
      let ⟨hstage, hrate, _⟩ := Attempted.of_mem hp hr
      ⟨hstage, hrate ▸ hpos⟩
    cases observation with
    | none => exact .pure ⟨hstage, fun _ => Attempted.last_invalid hp, by simp⟩
    | some o =>
      have hend : EndsWith settings candidate history (o.lossFrames = 0) := Attempted.endsWith hp
      dsimp only
      split
      · rename_i hloss
        refine .pure ⟨hstage, by simp, fun passed hpassed => .inr ?_⟩
        obtain rfl := Option.some.inj hpassed
        simpa [hloss] using hend
      · rename_i hloss
        rw [not_not] at hloss
        refine ih.bind fun q hq => .pure ⟨fun r hr => ?_, fun hnone => ?_, fun passed hpassed => ?_⟩
        · exact (List.mem_append.mp hr).elim (hstage r) (hq.1 r)
        · exact (hq.2.1 hnone).append history
        right
        rcases hq.2.2 passed hpassed with ⟨rfl, hempty, rfl⟩ | hlater
        · rw [hempty, List.append_nil]
          simpa [hloss] using hend
        · exact hlater.append history

/-- The way down ends at a rate whose series passed, or at zero: after a loss, or at once. -/
theorem stepDown_spec (h : SafeUpTo I trial ceiling) (hconfirm : 0 < settings.confirmations)
    (candidate : ℚ) (hle : candidate ≤ ceiling) :
    Ensures I (stepDown trial frameSize settings candidate) fun p =>
      (∀ r ∈ p.1, r.IsConfirmation) ∧ (p.2 = none → EndsInvalid p.1) ∧
        ∀ rate, p.2 = some rate →
        (0 < rate ∧ rate ≤ ceiling ∧ EndsWith settings rate p.1 true) ∨
        (rate = 0 ∧ (p.1 = [] ∨ ∃ lost, 0 < lost ∧ EndsWith settings lost p.1 false)) := by
  induction candidate using stepDown.induct settings with
  | case1 candidate hpos ih =>
    rw [stepDown, dif_pos hpos]
    refine (confirm_spec h hpos hle settings.confirmations).bind fun p hp => ?_
    obtain ⟨history, passed⟩ := p
    have hend : ∀ b, passed = some b → EndsWith settings candidate history b := by
      intro b hb
      exact (hp.2.2 b hb).resolve_left fun hzero => by omega
    rcases passed with - | - | -
    · exact .pure ⟨hp.1, fun _ => hp.2.1 rfl, by simp⟩
    · have hlower : roundRate (candidate - settings.resolution) settings.resolution ≤ ceiling := by
        have hstep := roundRate_sub_le candidate settings.pos
        have hres := settings.pos
        linarith
      refine (ih hlower).bind fun q hq => .pure ⟨fun r hr => ?_, fun hnone => ?_, fun rate hrate => ?_⟩
      · exact (List.mem_append.mp hr).elim (hp.1 r) (hq.1 r)
      · exact (hq.2.1 hnone).append history
      rcases hq.2.2 rate hrate with ⟨hrpos, hrle, hpassed⟩ | ⟨hzero, hempty | ⟨lost, hlost, hlossy⟩⟩
      · exact .inl ⟨hrpos, hrle, hpassed.append history⟩
      · refine .inr ⟨hzero, .inr ⟨candidate, hpos, ?_⟩⟩
        rw [hempty, List.append_nil]
        exact hend false rfl
      · exact .inr ⟨hzero, .inr ⟨lost, hlost, hlossy.append history⟩⟩
    · refine .pure ⟨hp.1, by simp, fun rate hrate => .inl ?_⟩
      obtain rfl := Option.some.inj hrate
      exact ⟨hpos, hle, hend true rfl⟩
  | case2 candidate hpos =>
    rw [stepDown, dif_neg hpos]
    exact .pure ⟨by simp, by simp, fun rate hrate => .inr ⟨(Option.some.inj hrate).symm, .inl rfl⟩⟩

/-- What a search leaves behind: a valid result is a rate the last trial confirmed, or zero, after a
loss or without any confirmation. -/
inductive Searched (settings : SearchSettings) (ceiling : ℚ) (result : FrameSearchResult) : Prop
  where
  | invalid (hvalid : result.valid = false) (hrate : result.throughputPercentL1 = none)
      (hlast : EndsInvalid result.trials)
  | found (rate : ℚ) (hvalid : result.valid = true) (hrate : result.throughputPercentL1 = some rate)
      (hpos : 0 < rate) (hle : rate ≤ ceiling) (hlast : EndsWith settings rate result.trials true)
  | exhausted (lost : ℚ) (hvalid : result.valid = true) (hrate : result.throughputPercentL1 = some 0)
      (hpos : 0 < lost) (hlast : EndsWith settings lost result.trials false)
  | unconfirmed (hvalid : result.valid = true) (hrate : result.throughputPercentL1 = some 0)
      (hnone : ∀ r ∈ result.trials, r.phase.stage = .search)

variable (frameSize settings) in
theorem searchFrame_spec (hpos : 0 < ceiling) (hsamples : 0 < settings.searchSamples)
    (hconfirm : 0 < settings.confirmations) (h : SafeUpTo I trial ceiling) :
    Ensures I (searchFrame trial frameSize settings ceiling) fun result =>
      (∀ r ∈ result.trials, r.IsSearch settings.trialSeconds ∨ r.IsConfirmation) ∧
        Searched settings ceiling result := by
  refine (observe_search h hsamples hpos le_rfl settings.trialSeconds).bind fun p hp => ?_
  obtain ⟨history, observation⟩ := p
  obtain ⟨hhistory, hinvalid⟩ := hp
  cases observation with
  | none => exact .pure ⟨fun r hr => .inl (hhistory r hr), .invalid rfl rfl (hinvalid rfl)⟩
  | some o =>
    refine Ensures.bind (Q := fun q : List TrialRecord × Option ℚ =>
      (∀ r ∈ q.1, r.IsSearch settings.trialSeconds) ∧
        (q.2 = none → EndsInvalid q.1) ∧ ∀ rate, q.2 = some rate → rate ≤ ceiling) ?_ fun q hq => ?_
    · unfold firstCandidate
      split
      · exact .pure ⟨by simp, by simp, fun rate hrate => (Option.some.inj hrate).ge⟩
      · exact bisect_spec h hsamples 0 ceiling le_rfl hpos.le le_rfl
    · obtain ⟨searched, candidate⟩ := q
      obtain ⟨hsearched, hmissing, hceiling⟩ := hq
      have hbefore : ∀ r ∈ history ++ searched, r.IsSearch settings.trialSeconds :=
        fun r hr => (List.mem_append.mp hr).elim (hhistory r) (hsearched r)
      cases candidate with
      | none => exact .pure ⟨fun r hr => .inl (hbefore r hr), .invalid rfl rfl ((hmissing rfl).append history)⟩
      | some candidate =>
        refine (stepDown_spec h hconfirm candidate (hceiling candidate rfl)).bind fun u hu => ?_
        obtain ⟨confirmed, rate⟩ := u
        refine .pure ⟨fun r hr => ?_, ?_⟩
        · exact (List.mem_append.mp hr).elim (fun hr => .inl (hbefore r hr)) fun hr => .inr (hu.1 r hr)
        cases rate with
        | none => exact .invalid rfl rfl ((hu.2.1 rfl).append _)
        | some rate =>
          rcases hu.2.2 rate rfl with ⟨hrpos, hrle, hend⟩ | ⟨rfl, hempty | ⟨lost, hlost, hend⟩⟩
          · exact .found rate rfl rfl hrpos hrle (hend.append _)
          · refine .unconfirmed rfl rfl fun r hr => ?_
            dsimp only at hempty hr
            rw [hempty, List.append_nil] at hr
            exact (hbefore r hr).1
          · exact .exhausted lost rfl rfl hlost (hend.append _)

end Specs

/-- A curve that enough lossless trials in a row ended, from a rate and a number of lossless trials
before it. -/
inductive Curve (settings : FrameLossSettings) : Nat → ℚ → List LossPoint → Prop where
  | stop {zeros : Nat} {rate : ℚ} {records : List TrialRecord} {o : TrialObservation}
      (hattempted : Attempted rate settings.trialSeconds ⟨.frameLoss, 0, false⟩ records (some o))
      (hloss : o.lossFrames = 0) (henough : settings.consecutiveZeroLoss ≤ zeros + 1) :
      Curve settings zeros rate (records.map LossPoint.ofRecord)
  | step {zeros : Nat} {rate : ℚ} {records : List TrialRecord} {o : TrialObservation}
      {rest : List LossPoint}
      (hattempted : Attempted rate settings.trialSeconds ⟨.frameLoss, 0, false⟩ records (some o))
      (hrest : Curve settings (if o.lossFrames = 0 then zeros + 1 else 0)
        (roundRate (rate - settings.stepPercent) settings.stepPercent) rest) :
      Curve settings zeros rate (records.map LossPoint.ofRecord ++ rest)

theorem lossCurve_spec {σ : Type} {trial : TrialFunction σ} {frameSize : Nat}
    {settings : FrameLossSettings} {I : σ → Prop} {ceiling : ℚ} (h : SafeUpTo I trial ceiling)
    (zeros : Nat) (rate : ℚ) (hle : rate ≤ ceiling) :
    Effect.Ensures I (lossCurve trial frameSize settings zeros rate) fun p =>
      p.2.2 = true → Curve settings zeros rate p.1 := by
  induction zeros, rate using lossCurve.induct settings with
  | case1 zeros rate hpos ih =>
    rw [lossCurve, dif_pos hpos]
    refine (attempt_spec h hpos hle settings.trialSeconds ⟨.frameLoss, 0, false⟩).bind fun p hp => ?_
    obtain ⟨records, observation⟩ := p
    cases observation with
    | none => exact .pure (by simp)
    | some o =>
      by_cases hend : o.lossFrames = 0 ∧
          settings.consecutiveZeroLoss ≤ if o.lossFrames = 0 then zeros + 1 else 0
      · simp only [if_pos hend]
        rw [if_pos hend.1] at hend
        exact .pure fun _ => .stop hp hend.1 hend.2
      · simp only [if_neg hend]
        have hlower : roundRate (rate - settings.stepPercent) settings.stepPercent ≤ ceiling := by
          have hstep := roundRate_sub_le rate settings.pos
          have hres := settings.pos
          linarith
        refine Effect.Ensures.bind (ih o hlower) fun q hq => .pure fun hstopped => ?_
        exact .step hp (hq hstopped)
  | case2 zeros rate hpos =>
    rw [lossCurve, dif_neg hpos]
    exact .pure (by simp)

namespace Curve

variable {settings : FrameLossSettings} {zeros : Nat} {rate : ℚ} {points : List LossPoint}

theorem of_mem (h : Curve settings zeros rate points) {p : LossPoint} (hp : p ∈ points) :
    p.durationSeconds = settings.trialSeconds ∧ p = LossPoint.ofRecord p.toTrialRecord := by
  have hrecord : ∀ {rate : ℚ} {records : List TrialRecord} {o : Option TrialObservation},
      Attempted rate settings.trialSeconds ⟨.frameLoss, 0, false⟩ records o →
      p ∈ records.map LossPoint.ofRecord →
      p.durationSeconds = settings.trialSeconds ∧ p = LossPoint.ofRecord p.toTrialRecord := by
    intro rate records o hattempted hmem
    obtain ⟨r, hr, rfl⟩ := List.mem_map.mp hmem
    exact ⟨(hattempted.of_mem hr).2.2, rfl⟩
  induction h with
  | stop hattempted => exact hrecord hattempted hp
  | step hattempted _ ih =>
    rcases List.mem_append.mp hp with hp | hp
    · exact hrecord hattempted hp
    · exact ih hp

theorem head (h : Curve settings zeros rate points) :
    ∃ p, points.head? = some p ∧ p.ratePercentL1 = rate := by
  cases h with
  | stop hattempted => cases hattempted <;> exact ⟨_, rfl, rfl⟩
  | step hattempted => cases hattempted <;> exact ⟨_, rfl, rfl⟩

/-- A valid attempt without an invalid record is one trial. -/
theorem single {records : List TrialRecord} {o : TrialObservation} {duration : ℚ}
    {phase : TrialPhase} (h : Attempted rate duration phase records (some o))
    (hvalid : ∀ p ∈ records.map LossPoint.ofRecord, p.observation.valid = true) :
    records = [⟨phase, rate, duration, o⟩] := by
  cases h with
  | first => rfl
  | retried o o' hinvalid =>
    have htrue := hvalid _ (List.mem_map_of_mem (List.mem_cons_self ..))
    exact absurd (hinvalid.symm.trans htrue) (by simp)

/-- Without an invalid trial, the rates of a curve go down step by step. -/
theorem steps (h : Curve settings zeros rate points)
    (hvalid : ∀ p ∈ points, p.observation.valid = true)
    (hmultiple : ∃ k : ℤ, rate = k * settings.stepPercent) :
    points.IsChain fun p q => q.ratePercentL1 = p.ratePercentL1 - settings.stepPercent := by
  induction h with
  | stop hattempted =>
    rw [single hattempted hvalid]
    exact .singleton _
  | @step zeros rate records o rest hattempted hrest ih =>
    obtain ⟨k, rfl⟩ := hmultiple
    rw [roundRate_mul_sub settings.pos] at hrest ih
    rw [single hattempted fun p hp => hvalid p (List.mem_append_left _ hp)]
    refine List.isChain_cons.mpr ⟨fun q hq => ?_, ih (fun p hp => hvalid p
      (List.mem_append_right _ hp)) ⟨k - 1, rfl⟩⟩
    obtain ⟨p, hp, hrate⟩ := hrest.head
    obtain rfl := Option.some.inj (hp.symm.trans hq)
    rw [hrate]
    push_cast
    exact sub_one_mul _ _

/-- Without an invalid trial, a curve ends with enough lossless trials, counting those before it. -/
theorem ends (h : Curve settings zeros rate points)
    (hvalid : ∀ p ∈ points, p.observation.valid = true) :
    ∃ lossless, lossless <:+ points ∧ (∀ p ∈ lossless, p.observation.lossFrames = 0) ∧
      (settings.consecutiveZeroLoss ≤ lossless.length ∨
        lossless = points ∧ settings.consecutiveZeroLoss ≤ zeros + points.length) := by
  induction h with
  | stop hattempted hloss henough =>
    rw [single hattempted hvalid]
    refine ⟨_, List.suffix_rfl, ?_, .inr ⟨rfl, henough⟩⟩
    rintro p (_ | ⟨_, ⟨⟩⟩)
    exact hloss
  | @step zeros rate records o rest hattempted hrest ih =>
    rw [single hattempted fun p hp => hvalid p (List.mem_append_left _ hp)]
    obtain ⟨lossless, hsuffix, hloss, henough⟩ := ih fun p hp =>
      hvalid p (List.mem_append_right _ hp)
    have hlonger := fun p => hsuffix.trans (List.suffix_cons p rest)
    rcases henough with henough | ⟨rfl, henough⟩
    · exact ⟨lossless, hlonger _, hloss, .inl henough⟩
    · by_cases hzero : o.lossFrames = 0
      · rw [if_pos hzero] at henough
        refine ⟨_, List.suffix_rfl, ?_, .inr ⟨rfl, ?_⟩⟩
        · rintro p (_ | ⟨_, hp⟩)
          · exact hzero
          · exact hloss p hp
        · simp
          omega
      · rw [if_neg hzero, Nat.zero_add] at henough
        exact ⟨lossless, hlonger _, hloss, .inl henough⟩

end Curve

theorem measureFrameLoss_spec {σ : Type} {trial : TrialFunction σ} {frameSize : Nat}
    {settings : FrameLossSettings} {I : σ → Prop} {ceiling : ℚ} (h : SafeUpTo I trial ceiling) :
    Effect.Ensures I (measureFrameLoss trial frameSize settings ceiling) fun result =>
      result.frameSize = frameSize ∧
        (result.stoppedAfterConsecutiveZeroLoss = true → Curve settings 0 ceiling result.trials) :=
  (lossCurve_spec h 0 ceiling le_rfl).bind fun _ hp => .pure ⟨rfl, hp⟩

/-! ### What a measurement asks -/

/-- A trial and its answer. -/
structure Answer extends TrialRequest where
  observation : TrialObservation

/-- The answer a trial record is about. -/
def TrialRecord.answer (frameSize : Nat) (r : TrialRecord) : Answer where
  frameSize := frameSize
  ratePercent := r.ratePercentL1
  durationSeconds := r.durationSeconds
  observation := r.observation

/-- The trial function, with its answers written down. -/
def TrialFunction.logged {σ : Type} (trial : TrialFunction σ) : TrialFunction (σ × List Answer) :=
  fun req s =>
    match trial req s.1 with
    | (.ok o, s') => (.ok o, s', s.2 ++ [⟨req, o⟩])
    | (.error e, s') => (.error e, s', s.2)

section Log

variable {σ : Type} {trial : TrialFunction σ} {frameSize : Nat} {settings : SearchSettings}

open Effect (Logs)

theorem TrialFunction.logged_spec (req : TrialRequest) :
    Logs (trial req) (trial.logged req) fun o l => l = [⟨req, o⟩] := by
  intro s l
  rcases h : trial req s with ⟨o | e, s'⟩ <;> simp only [TrialFunction.logged, h]
  · exact ⟨[], by rw [List.append_nil], fun o ho => by cases ho⟩
  · refine ⟨_, rfl, fun o ho => ?_⟩
    obtain rfl := Except.ok.inj ho
    rfl

theorem attempt_log (rate duration : ℚ) (phase : TrialPhase) :
    Logs (attempt trial frameSize rate duration phase)
      (attempt trial.logged frameSize rate duration phase) fun p l =>
      l = p.1.map (TrialRecord.answer frameSize) := by
  refine (TrialFunction.logged_spec _).bind fun first l hl => ?_
  subst hl
  split
  · exact .pure rfl
  · refine (TrialFunction.logged_spec _).bind fun retry l hl => ?_
    subst hl
    exact .pure rfl

theorem observe_log (rate duration : ℚ) (stage : TrialStage) :
    Logs (observe trial frameSize settings rate duration stage)
      (observe trial.logged frameSize settings rate duration stage) fun p l =>
      l = p.1.map (TrialRecord.answer frameSize) := by
  refine (Logs.forList fun sample _ => attempt_log rate duration ⟨stage, sample, false⟩).bind
    fun attempts l hl => .pure ?_
  rw [hl, List.append_nil, List.map_flatMap]

theorem bisect_log (low high : ℚ) :
    Logs (bisect trial frameSize settings low high)
      (bisect trial.logged frameSize settings low high) fun p l =>
      l = p.1.map (TrialRecord.answer frameSize) := by
  induction low, high using bisect.induct settings with
  | case1 low high hgap candidate hout =>
    rw [bisect.eq_def trial, if_pos hgap, dif_pos hout, bisect.eq_def trial.logged, if_pos hgap, dif_pos hout]
    exact .pure rfl
  | case2 low high hgap candidate hin ihLossless ihLossy =>
    rw [bisect.eq_def trial, if_pos hgap, dif_neg hin, bisect.eq_def trial.logged, if_pos hgap, dif_neg hin]
    refine (observe_log candidate settings.trialSeconds .search).bind fun p l hl => ?_
    obtain ⟨history, observation⟩ := p
    subst hl
    cases observation with
    | none => exact .pure (by simp)
    | some o =>
      dsimp only
      split
      · exact ihLossless.bind fun q l hl => .pure (by simp [hl])
      · exact ihLossy.bind fun q l hl => .pure (by simp [hl])
  | case3 low high hgap =>
    rw [bisect.eq_def trial, if_neg hgap, bisect.eq_def trial.logged, if_neg hgap]
    exact .pure rfl

theorem confirm_log (candidate : ℚ) (n : Nat) :
    Logs (confirm trial frameSize settings candidate n)
      (confirm trial.logged frameSize settings candidate n) fun p l =>
      l = p.1.map (TrialRecord.answer frameSize) := by
  induction n with
  | zero => exact .pure rfl
  | succ n ih =>
    refine (observe_log candidate settings.confirmationSeconds .confirmation).bind fun p l hl => ?_
    obtain ⟨history, observation⟩ := p
    subst hl
    cases observation with
    | none => exact .pure (by simp)
    | some o =>
      dsimp only
      split
      · exact .pure (by simp)
      · exact ih.bind fun q l hl => .pure (by simp [hl])

theorem stepDown_log (candidate : ℚ) :
    Logs (stepDown trial frameSize settings candidate)
      (stepDown trial.logged frameSize settings candidate) fun p l =>
      l = p.1.map (TrialRecord.answer frameSize) := by
  induction candidate using stepDown.induct settings with
  | case1 candidate hpos ih =>
    rw [stepDown.eq_def trial, dif_pos hpos, stepDown.eq_def trial.logged, dif_pos hpos]
    refine (confirm_log candidate settings.confirmations).bind fun p l hl => ?_
    obtain ⟨history, passed⟩ := p
    subst hl
    rcases passed with - | - | -
    · exact .pure (by simp)
    · exact ih.bind fun q l hl => .pure (by simp [hl])
    · exact .pure (by simp)
  | case2 candidate hpos =>
    rw [stepDown.eq_def trial, dif_neg hpos, stepDown.eq_def trial.logged, dif_neg hpos]
    exact .pure rfl

theorem firstCandidate_log (ceiling : ℚ) (o : TrialObservation) :
    Logs (firstCandidate trial frameSize settings ceiling o)
      (firstCandidate trial.logged frameSize settings ceiling o) fun p l =>
      l = p.1.map (TrialRecord.answer frameSize) := by
  unfold firstCandidate
  split
  · exact .pure rfl
  · exact bisect_log 0 ceiling

variable (trial frameSize settings) in
/-- The trials a search records are the ones it asked for, in order. -/
theorem searchFrame_log (ceiling : ℚ) :
    Logs (searchFrame trial frameSize settings ceiling)
      (searchFrame trial.logged frameSize settings ceiling) fun result l =>
      l = result.trials.map (TrialRecord.answer frameSize) := by
  refine (observe_log ceiling settings.trialSeconds .search).bind fun p l hl => ?_
  obtain ⟨history, observation⟩ := p
  subst hl
  cases observation with
  | none => exact .pure (by simp)
  | some o =>
    refine (firstCandidate_log ceiling o).bind fun q l hl => ?_
    obtain ⟨searched, candidate⟩ := q
    subst hl
    cases candidate with
    | none => exact .pure (by simp)
    | some candidate =>
      exact (stepDown_log candidate).bind fun u l hl => .pure (by simp [hl])

theorem lossCurve_log {settings : FrameLossSettings} (zeros : Nat) (rate : ℚ) :
    Logs (lossCurve trial frameSize settings zeros rate)
      (lossCurve trial.logged frameSize settings zeros rate) fun p l =>
      l = p.1.map fun point => point.toTrialRecord.answer frameSize := by
  induction zeros, rate using lossCurve.induct settings with
  | case1 zeros rate hpos ih =>
    rw [lossCurve.eq_def trial, dif_pos hpos, lossCurve.eq_def trial.logged, dif_pos hpos]
    refine (attempt_log rate settings.trialSeconds ⟨.frameLoss, 0, false⟩).bind fun p l hl => ?_
    obtain ⟨records, observation⟩ := p
    subst hl
    have hpoints : records.map (TrialRecord.answer frameSize) ++ [] =
        (records.map LossPoint.ofRecord).map fun point =>
          point.toTrialRecord.answer frameSize := by
      rw [List.append_nil, List.map_map]
      rfl
    cases observation with
    | none => exact .pure hpoints
    | some o =>
      by_cases hend : o.lossFrames = 0 ∧
          settings.consecutiveZeroLoss ≤ if o.lossFrames = 0 then zeros + 1 else 0
      · simp only [if_pos hend]
        exact .pure hpoints
      · simp only [if_neg hend]
        refine Logs.bind (ih o) fun q l hl => .pure ?_
        rw [hl, List.append_nil, List.map_append, ← hpoints, List.append_nil]
  | case2 zeros rate hpos =>
    rw [lossCurve.eq_def trial, dif_neg hpos, lossCurve.eq_def trial.logged, dif_neg hpos]
    exact .pure rfl

theorem measureFrameLoss_log {settings : FrameLossSettings} (ceiling : ℚ) :
    Logs (measureFrameLoss trial frameSize settings ceiling)
      (measureFrameLoss trial.logged frameSize settings ceiling) fun result l =>
      l = result.trials.map fun point => point.toTrialRecord.answer result.frameSize :=
  (lossCurve_log 0 ceiling).bind fun _ _ hl => .pure (by simpa using hl)

end Log

end TrexCli.Rfc2544
