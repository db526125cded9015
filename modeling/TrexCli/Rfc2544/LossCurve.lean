import TrexCli.Rfc2544.Convergence

/-!
# The runs of a frame loss measurement

A run of `measure_frame_loss` is a sequence of points, each a trial that is repeated once if it is
invalid. The rates go down step by step from the ceiling, which is on the grid of the steps unless it
is tiny. Two lossless points in a row end the run, and so does a point without a valid trial.
-/

namespace TrexCli.Rfc2544

open Effect (Ensures)

/-- A point of the curve: its trials, and the valid one. -/
structure LossObservation where
  rate : ℚ
  records : List TrialRecord
  accepted : Option TrialObservation

namespace LossObservation

/-- What the point adds to the history. -/
def points (l : LossObservation) : List LossPoint := l.records.map LossPoint.ofRecord

/-- The valid trial of the point lost nothing. -/
def Lossless (l : LossObservation) : Prop := ∃ o, l.accepted = some o ∧ o.lossFrames = 0

/-- The trial was made once, and once more if it was invalid. -/
def Tried (settings : FrameLossSettings) (l : LossObservation) : Prop :=
  Attempted l.rate settings.trialSeconds ⟨.frameLoss, 0, false⟩ l.records l.accepted

end LossObservation

/-- The rate after a rate. -/
def FrameLossSettings.next (settings : FrameLossSettings) (rate : ℚ) : ℚ :=
  roundRate (rate - settings.stepPercent) settings.stepPercent

/-- The points from a rate on, after a number of lossless ones in a row; whether the curve is valid and
whether lossless points ended it. -/
inductive LossRun (settings : FrameLossSettings) :
    Nat → ℚ → List LossObservation → Bool → Bool → Prop
  | exhausted {zeros : Nat} {rate : ℚ} (hrate : rate ≤ 0) : LossRun settings zeros rate [] true false
  | missing {zeros : Nat} {rate : ℚ} {l : LossObservation} (hpos : 0 < rate) (hrate : l.rate = rate)
    (hl : l.Tried settings) (hnone : l.accepted = none) : LossRun settings zeros rate [l] false false
  | stopped {zeros : Nat} {rate : ℚ} {l : LossObservation} (hpos : 0 < rate) (hrate : l.rate = rate)
    (hl : l.Tried settings) (hloss : l.Lossless)
    (henough : settings.consecutiveZeroLoss ≤ zeros + 1) : LossRun settings zeros rate [l] true true
  | lossless {zeros : Nat} {rate : ℚ} {l : LossObservation} {rest : List LossObservation}
    {valid ended : Bool} (hpos : 0 < rate) (hrate : l.rate = rate) (hl : l.Tried settings)
    (hloss : l.Lossless) (hmore : zeros + 1 < settings.consecutiveZeroLoss)
    (hrest : LossRun settings (zeros + 1) (settings.next rate) rest valid ended) :
    LossRun settings zeros rate (l :: rest) valid ended
  | lossy {zeros : Nat} {rate : ℚ} {l : LossObservation} {rest : List LossObservation}
    {valid ended : Bool} (hpos : 0 < rate) (hrate : l.rate = rate) (hl : l.Tried settings)
    (hsome : l.accepted ≠ none) (hloss : ¬l.Lossless)
    (hrest : LossRun settings 0 (settings.next rate) rest valid ended) :
    LossRun settings zeros rate (l :: rest) valid ended

section Runs

variable {σ : Type} {trial : TrialFunction σ} {frameSize : Nat} {settings : FrameLossSettings}

theorem lossCurve_run (zeros : Nat) (rate : ℚ) :
    Ensures (fun _ => True) (lossCurve trial frameSize settings zeros rate) fun p =>
      ∃ ls, LossRun settings zeros rate ls p.2.1 p.2.2 ∧ p.1 = ls.flatMap LossObservation.points := by
  induction zeros, rate using lossCurve.induct settings with
  | case1 zeros rate hpos ih =>
    rw [lossCurve, dif_pos hpos]
    refine (attempt_answered (answersAs_true trial frameSize) rate settings.trialSeconds
      ⟨.frameLoss, 0, false⟩).bind fun p hp => ?_
    obtain ⟨records, observation⟩ := p
    obtain ⟨hattempted, -⟩ := hp
    cases observation with
    | none =>
      exact .pure ⟨[⟨rate, records, none⟩], .missing hpos rfl hattempted rfl,
        by simp [LossObservation.points]⟩
    | some o =>
      by_cases hloss : o.lossFrames = 0
      · by_cases henough : settings.consecutiveZeroLoss ≤ zeros + 1
        · simp only [hloss, if_true, henough, and_self]
          exact .pure ⟨[⟨rate, records, some o⟩], .stopped hpos rfl hattempted ⟨o, rfl, hloss⟩ henough,
            by simp [LossObservation.points]⟩
        · simp only [hloss, if_true, henough, and_false, if_false]
          have hrun := ih o
          simp only [hloss] at hrun
          refine hrun.bind fun q hq => ?_
          obtain ⟨rest, hrest, hpoints⟩ := hq
          exact .pure ⟨⟨rate, records, some o⟩ :: rest,
            .lossless hpos rfl hattempted ⟨o, rfl, hloss⟩ (not_le.mp henough) hrest,
            by simp [LossObservation.points, hpoints]⟩
      · simp only [hloss, false_and, if_false]
        have hrun := ih o
        simp only [hloss] at hrun
        refine hrun.bind fun q hq => ?_
        obtain ⟨rest, hrest, hpoints⟩ := hq
        exact .pure ⟨⟨rate, records, some o⟩ :: rest,
          .lossy hpos rfl hattempted (by simp) (by simpa [LossObservation.Lossless] using hloss) hrest,
          by simp [LossObservation.points, hpoints]⟩
  | case2 zeros rate hpos =>
    rw [lossCurve, dif_neg hpos]
    exact .pure ⟨[], .exhausted (not_lt.mp hpos), rfl⟩

end Runs

namespace LossRun

variable {settings : FrameLossSettings} {zeros : Nat} {rate : ℚ} {ls : List LossObservation}
  {valid ended : Bool}

/-- Every point is tried, above zero and at most at the rate the run starts at. -/
theorem of_mem (h : LossRun settings zeros rate ls valid ended) :
    ∀ l ∈ ls, l.Tried settings ∧ 0 < l.rate ∧ l.rate ≤ rate := by
  have hlower : settings.next rate < rate := roundRate_sub_lt rate settings.pos
  induction h with
  | exhausted _ => simp
  | missing hpos hrate hl _ => simpa using ⟨hl, hrate ▸ hpos, hrate.le⟩
  | stopped hpos hrate hl _ _ => simpa using ⟨hl, hrate ▸ hpos, hrate.le⟩
  | lossless hpos hrate hl _ _ _ ih =>
    intro l hl'
    rcases List.mem_cons.mp hl' with rfl | hl'
    · exact ⟨hl, hrate ▸ hpos, hrate.le⟩
    · obtain ⟨htried, hpos', hle⟩ := ih (roundRate_sub_lt _ settings.pos) l hl'
      exact ⟨htried, hpos', hle.trans hlower.le⟩
  | lossy hpos hrate hl _ _ _ ih =>
    intro l hl'
    rcases List.mem_cons.mp hl' with rfl | hl'
    · exact ⟨hl, hrate ▸ hpos, hrate.le⟩
    · obtain ⟨htried, hpos', hle⟩ := ih (roundRate_sub_lt _ settings.pos) l hl'
      exact ⟨htried, hpos', hle.trans hlower.le⟩

/-- The first point is at the rate the run starts at. -/
theorem head (h : LossRun settings zeros rate ls valid ended) :
    ∀ l ∈ ls.head?, l.rate = rate := by
  cases h <;> simp [*]

/-- A point without a valid trial is the last one, and there is none in a valid curve. -/
theorem missing_last (h : LossRun settings zeros rate ls valid ended) :
    (valid = false ↔ ∃ l ∈ ls, l.accepted = none) ∧ ∀ l ∈ ls.dropLast, l.accepted ≠ none := by
  have hsome : ∀ l : LossObservation, l.Lossless → l.accepted ≠ none := by
    rintro l ⟨o, ho, -⟩
    simp [ho]
  induction h with
  | exhausted _ => simp
  | missing _ _ _ hnone => simp [hnone]
  | stopped _ _ _ hloss _ => simpa using hsome _ hloss
  | @lossless _ _ l rest _ _ _ _ _ hloss _ _ ih =>
    refine ⟨by simp [ih.1, hsome l hloss], fun l' hl' => ?_⟩
    cases rest with
    | nil => simp at hl'
    | cons l'' rest =>
      rcases List.mem_cons.mp hl' with rfl | hl'
      · exact hsome _ hloss
      · exact ih.2 l' hl'
  | @lossy _ _ l rest _ _ _ _ _ hl _ _ ih =>
    refine ⟨by simp [ih.1, hl], fun l' hl' => ?_⟩
    cases rest with
    | nil => simp at hl'
    | cons l'' rest =>
      rcases List.mem_cons.mp hl' with rfl | hl'
      · exact hl
      · exact ih.2 l' hl'

/-- A valid curve that lossless points did not end goes down until the next rate is not above zero. -/
theorem ends_at_zero (h : LossRun settings zeros rate ls valid ended) (hvalid : valid = true)
    (hended : ended = false) :
    (ls = [] ∧ rate ≤ 0) ∨ ∃ l, ls.getLast? = some l ∧ settings.next l.rate ≤ 0 := by
  have hlast : ∀ (l : LossObservation) (rest : List LossObservation) (rate : ℚ), l.rate = rate →
      ((rest = [] ∧ settings.next rate ≤ 0) ∨
        ∃ l, rest.getLast? = some l ∧ settings.next l.rate ≤ 0) →
      ∃ l', (l :: rest).getLast? = some l' ∧ settings.next l'.rate ≤ 0 := by
    rintro l rest rate rfl (⟨rfl, hle⟩ | ⟨l', hl', hle⟩)
    · exact ⟨l, rfl, hle⟩
    · exact ⟨l', by simp [List.getLast?_cons, hl'], hle⟩
  induction h with
  | exhausted hrate => exact .inl ⟨rfl, hrate⟩
  | missing _ _ _ _ => simp at hvalid
  | stopped _ _ _ _ _ => simp at hended
  | lossless _ hrate _ _ _ _ ih => exact .inr (hlast _ _ _ hrate (ih hvalid hended))
  | lossy _ hrate _ _ _ _ ih => exact .inr (hlast _ _ _ hrate (ih hvalid hended))

/-- The last two points are lossless. -/
def EndsLossless (ls : List LossObservation) : Prop :=
  ∃ before l l', ls = before ++ [l, l'] ∧ l.Lossless ∧ l'.Lossless

/-- Only the last two points may be lossless in a row. -/
def LosslessLast (ls : List LossObservation) : Prop :=
  ∀ before l l' after, ls = before ++ l :: l' :: after → l.Lossless → l'.Lossless → after = []

theorem endsLossless_cons {l : LossObservation} :
    EndsLossless (l :: ls) ↔ (l.Lossless ∧ ∃ l', ls = [l'] ∧ l'.Lossless) ∨ EndsLossless ls := by
  constructor
  · rintro ⟨before, x, x', heq, hx, hx'⟩
    cases before with
    | nil =>
      obtain ⟨rfl, rfl⟩ := List.cons.inj heq
      exact .inl ⟨hx, x', rfl, hx'⟩
    | cons y before =>
      obtain ⟨rfl, rfl⟩ := List.cons.inj heq
      exact .inr ⟨before, x, x', rfl, hx, hx'⟩
  · rintro (⟨hl, l', rfl, hl'⟩ | ⟨before, x, x', rfl, hx, hx'⟩)
    · exact ⟨[], l, l', rfl, hl, hl'⟩
    · exact ⟨l :: before, x, x', rfl, hx, hx'⟩

theorem losslessLast_cons {l : LossObservation} (h : LosslessLast ls)
    (hfirst : l.Lossless → ∀ l' after, ls = l' :: after → l'.Lossless → after = []) :
    LosslessLast (l :: ls) := by
  intro before x x' after heq hx hx'
  cases before with
  | nil =>
    obtain ⟨rfl, rfl⟩ := List.cons.inj heq
    exact hfirst hx x' after rfl hx'
  | cons y before =>
    obtain ⟨-, rfl⟩ := List.cons.inj heq
    exact h before x x' after rfl hx hx'

/-- The run stops at the first two lossless points in a row; the first of them may be the one before
the run. -/
theorem stops (h : LossRun settings zeros rate ls valid ended)
    (htwo : settings.consecutiveZeroLoss = 2) (hzeros : zeros ≤ 1) :
    (ended = true ↔ (zeros = 1 ∧ ∃ l, ls = [l] ∧ l.Lossless) ∨ EndsLossless ls) ∧
      (zeros = 1 → ∀ l after, ls = l :: after → l.Lossless → after = []) ∧ LosslessLast ls := by
  have hnil : ¬EndsLossless [] := by simp [EndsLossless]
  have hlast : LosslessLast [] := by simp [LosslessLast]
  induction h with
  | exhausted _ => exact ⟨by simp [hnil], by simp, hlast⟩
  | @missing _ _ l _ _ _ hnone =>
    have hnot : ¬l.Lossless := by simp [LossObservation.Lossless, hnone]
    refine ⟨by simp [endsLossless_cons, hnil, hnot], ?_, losslessLast_cons hlast (by simp)⟩
    simp
  | @stopped zeros _ l _ _ _ hloss henough =>
    have hone : zeros = 1 := by omega
    exact ⟨by simp [hone, hloss], by simp, losslessLast_cons hlast (by simp)⟩
  | @lossless zeros _ l rest _ _ _ _ _ hloss hmore _ ih =>
    obtain rfl : zeros = 0 := by omega
    obtain ⟨hended, hfirst, hrest⟩ := ih (by omega)
    refine ⟨by simp [hended, endsLossless_cons, hloss], by simp, ?_⟩
    exact losslessLast_cons hrest fun _ => hfirst (by simp)
  | @lossy zeros _ l rest _ _ _ _ _ _ hloss _ ih =>
    obtain ⟨hended, hfirst, hrest⟩ := ih (by omega)
    refine ⟨?_, ?_, losslessLast_cons hrest fun hl => absurd hl hloss⟩
    · simp [hended, endsLossless_cons, hloss]
    · intro _ l' after heq hl'
      obtain ⟨rfl, -⟩ := List.cons.inj heq
      exact absurd hl' hloss

/-- The rate is on the grid of the steps, or the steps are small. -/
def Fine (settings : FrameLossSettings) (rate : ℚ) : Prop :=
  (∃ k : ℤ, rate = k * settings.stepPercent) ∨ settings.stepPercent ≤ 6

theorem next_near (hstep : settings.stepPercent ≤ 10) (hfine : Fine settings rate) :
    rate - settings.next rate ≤ 10 := by
  have hpos := settings.pos
  rcases hfine with ⟨k, rfl⟩ | hsmall
  · rw [FrameLossSettings.next, roundRate_mul_sub hpos]
    push_cast
    linarith
  · have hround := lt_roundHalfEven ((rate - settings.stepPercent) / settings.stepPercent)
    have hle : rate - settings.stepPercent - settings.stepPercent / 2 ≤ settings.next rate := by
      calc rate - settings.stepPercent - settings.stepPercent / 2
          = ((rate - settings.stepPercent) / settings.stepPercent - 1 / 2) * settings.stepPercent := by
            field_simp
        _ ≤ settings.next rate := mul_le_mul_of_nonneg_right hround hpos.le
    linarith

/-- The rates go down, by at most ten points each time. -/
theorem chain (h : LossRun settings zeros rate ls valid ended) (hstep : settings.stepPercent ≤ 10)
    (hfine : Fine settings rate) :
    ls.IsChain fun l l' => l'.rate < l.rate ∧ l.rate - l'.rate ≤ 10 := by
  have hcons : ∀ {zeros' : Nat} {rate : ℚ} {l : LossObservation} {rest : List LossObservation}
      {valid ended : Bool}, l.rate = rate → Fine settings rate →
      LossRun settings zeros' (settings.next rate) rest valid ended →
      ∀ l' ∈ rest.head?, l'.rate < l.rate ∧ l.rate - l'.rate ≤ 10 := by
    rintro zeros' rate l rest valid ended rfl hfine hrest l' hl'
    rw [hrest.head l' hl']
    exact ⟨roundRate_sub_lt _ settings.pos, next_near hstep hfine⟩
  induction h with
  | exhausted _ => exact .nil
  | missing _ _ _ _ => exact .singleton _
  | stopped _ _ _ _ _ => exact .singleton _
  | lossless _ hrate _ _ _ hrest ih =>
    exact List.isChain_cons.mpr ⟨hcons hrate hfine hrest, ih (.inl (roundRate_grid _ _))⟩
  | lossy _ hrate _ _ _ hrest ih =>
    exact List.isChain_cons.mpr ⟨hcons hrate hfine hrest, ih (.inl (roundRate_grid _ _))⟩

end LossRun

/-- Up to a ceiling of a hundred the steps are a tenth of it, or tiny. -/
theorem frameLossSettingsFor_fine (mode : Mode) {ceiling : ℚ} (hle : ceiling ≤ 100) :
    (frameLossSettingsFor mode ceiling).stepPercent ≤ 10 ∧
      LossRun.Fine (frameLossSettingsFor mode ceiling) ceiling := by
  refine ⟨min_le_left _ _, ?_⟩
  by_cases htiny : ceiling / 10 ≤ 1 / 10 ^ 12
  · right
    show min 10 (max (ceiling / 10) (1 / 10 ^ 12)) ≤ 6
    rw [max_eq_right htiny]
    norm_num
  · left
    refine ⟨10, ?_⟩
    show ceiling = _ * min 10 (max (ceiling / 10) (1 / 10 ^ 12))
    rw [max_eq_left (not_le.mp htiny).le, min_eq_right (by linarith)]
    push_cast
    linarith

end TrexCli.Rfc2544
