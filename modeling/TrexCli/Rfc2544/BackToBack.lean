import Mathlib.Algebra.Order.BigOperators.Group.List
import TrexCli.Lib.Checks
import TrexCli.Rfc2544.Convergence

/-!
# Back-to-back search

`measure_back_to_back` of `rfc2544.py`. Each repetition probes the longest burst, bisects between zero
and it on a grid of steps, and verifies what it ends at; the statistics are defined only when every
repetition was verified. Arithmetic is exact, so the standard deviation is kept as its square, and a
mean of nothing and a division by zero raise.
-/

namespace TrexCli.Rfc2544

/-- `BackToBackObservation` -/
structure BackToBackObservation where
  valid : Bool
  txFrames : Int
  rxFrames : Int
  details : Json

/-- `BackToBackTrialFunction` -/
abbrev BackToBackTrialFunction (σ : Type) := Nat → Nat → Effect Exc σ BackToBackObservation

/-- `BackToBackSettings` of `rfc2544.py`, as a document and a policy allow it. -/
structure BurstSettings where
  repetitions : Nat := 20
  minimumStepFrames : Nat := 1
  maximumBurstFrames : Nat := 1000000
  valid : 1 ≤ repetitions ∧ 1 ≤ minimumStepFrames ∧ 1 ≤ maximumBurstFrames

/-- The `phase` of a burst record. -/
inductive BurstPhase where
  | upperBound | binarySearch | lossVerification
  deriving DecidableEq, Repr

/-- `_burst_record` -/
structure BurstRecord where
  burstFrames : Nat
  phase : BurstPhase
  observation : BackToBackObservation

/-- The `lossFrames` of a burst record. -/
def BurstRecord.lossFrames (r : BurstRecord) : Int :=
  max (r.observation.txFrames - r.observation.rxFrames) 0

/-- An entry of `searches`; without a verification its key is missing. -/
structure BurstSearch where
  repetition : Nat
  valid : Bool
  longestZeroLossBurstFrames : Option Nat
  trials : List BurstRecord
  verification : Option BurstRecord

/-- `BackToBackResult` -/
structure BackToBackResult where
  frameSize : Nat
  valid : Bool
  longestZeroLossBursts : List Nat
  averageFrames : Option ℚ
  minimumFrames : Option Nat
  maximumFrames : Option Nat
  /-- The square of the standard deviation. -/
  varianceFrames : Option ℚ
  impliedBufferSeconds : Option ℚ
  correctedBufferSeconds : Option ℚ
  searches : List BurstSearch

/-! ### Statistics -/

/-- `fmean` -/
def fmean (xs : List ℚ) : Except Exc ℚ :=
  if xs = [] then .error (.exception "fmean requires at least one data point")
  else .ok (xs.sum / xs.length)

/-- `pstdev`, squared. -/
def pvariance (xs : List ℚ) : Except Exc ℚ := do
  let mean ← fmean xs
  fmean (xs.map fun x => (x - mean) ^ 2)

/-- `min` -/
def minimum : List Nat → Except Exc Nat
  | [] => .error (.exception "min() iterable argument is empty")
  | x :: xs => .ok (xs.foldl min x)

/-- `max` -/
def maximum : List Nat → Except Exc Nat
  | [] => .error (.exception "max() iterable argument is empty")
  | x :: xs => .ok (xs.foldl max x)

/-- `x / y` -/
def divide (x y : ℚ) : Except Exc ℚ :=
  if y = 0 then .error (.exception "float division by zero") else .ok (x / y)

/-- The statistics of a measurement. -/
structure BurstStatistics where
  average : ℚ
  minimum : Nat
  maximum : Nat
  variance : ℚ
  implied : ℚ
  corrected : ℚ

/-- The statistics of the longest bursts. -/
def burstStatistics (theoreticalFps throughputFps : ℚ) (longest : List Nat) :
    Except Exc BurstStatistics := do
  let average ← fmean (longest.map (Nat.cast : Nat → ℚ))
  let implied ← divide average theoreticalFps
  let ratio ← divide throughputFps theoreticalFps
  let least ← minimum longest
  let greatest ← maximum longest
  let variance ← pvariance (longest.map (Nat.cast : Nat → ℚ))
  pure ⟨average, least, greatest, variance, implied, implied * (1 - ratio)⟩

/-! ### The search -/

/-- A result that a function returns or raises. -/
def ofExcept {σ α : Type} : Except Exc α → Effect Exc σ α
  | .ok a => pure a
  | .error e => Effect.throw e

/-- The next burst of a bisection. -/
def nextBurst (step low high : Nat) : Nat :=
  if (low + high) / (2 * step) * step ≤ low then low + step else (low + high) / (2 * step) * step

/-- The next burst is inside of the bounds. -/
theorem nextBurst_inside {step low high : Nat} (hstep : 1 ≤ step) (hgap : step < high - low) :
    low < nextBurst step low high ∧ nextBurst step low high < high := by
  unfold nextBurst
  have hmid : (low + high) / (2 * step) * (2 * step) ≤ low + high := Nat.div_mul_le_self _ _
  have htwice : (low + high) / (2 * step) * (2 * step) = 2 * ((low + high) / (2 * step) * step) := by
    ring
  split_ifs with hle <;> omega

section Measure

variable {σ : Type} (trial : BackToBackTrialFunction σ) (frameSize : Nat)
  (settings : BurstSettings)

/-- The bisection of a repetition: the longest lossless burst found, or none after an invalid
observation. -/
def bisectBurst (low high : Nat) : Effect Exc σ (List BurstRecord × Option Nat) :=
  if _h : settings.minimumStepFrames < high - low then do
    let candidate := nextBurst settings.minimumStepFrames low high
    let observation ← trial frameSize candidate
    let record : BurstRecord := ⟨candidate, .binarySearch, observation⟩
    if observation.valid then
      if observation.rxFrames = observation.txFrames then do
        let (rest, found) ← bisectBurst candidate high
        pure (record :: rest, found)
      else do
        let (rest, found) ← bisectBurst low candidate
        pure (record :: rest, found)
    else pure ([record], none)
  else pure ([], some low)
termination_by high - low
decreasing_by
  · obtain ⟨hbelow, habove⟩ := nextBurst_inside settings.valid.2.1 _h
    omega
  · obtain ⟨hbelow, habove⟩ := nextBurst_inside settings.valid.2.1 _h
    omega

/-- A repetition of `measure_back_to_back`. -/
def burstRepetition (prerequisitesValid : Bool) (repetition : Nat) : Effect Exc σ BurstSearch := do
  let longest ← trial frameSize settings.maximumBurstFrames
  let first : BurstRecord := ⟨settings.maximumBurstFrames, .upperBound, longest⟩
  if !longest.valid || decide (longest.txFrames ≤ longest.rxFrames) then
    pure ⟨repetition, false, none, [first], none⟩
  else do
    let (searched, found) ← bisectBurst trial frameSize settings 0 settings.maximumBurstFrames
    match found with
    | none => pure ⟨repetition, false, none, first :: searched, none⟩
    | some low =>
      if !prerequisitesValid || decide (low ≤ 0) then
        pure ⟨repetition, false, none, first :: searched, none⟩
      else do
        let observation ← trial frameSize low
        let verified := observation.valid && decide (observation.rxFrames = observation.txFrames)
        pure ⟨repetition, verified, if verified then some low else none, first :: searched,
          some ⟨low, .lossVerification, observation⟩⟩

/-- The result of the repetitions. -/
def burstResult (theoreticalFps throughputFps : ℚ) (prerequisitesValid : Bool)
    (searches : List BurstSearch) : Except Exc BackToBackResult :=
  let longest := searches.filterMap fun search => search.longestZeroLossBurstFrames
  let complete := prerequisitesValid && searches.all (fun search => search.valid) &&
    decide (longest.length = settings.repetitions)
  if complete then do
    let statistics ← burstStatistics theoreticalFps throughputFps longest
    pure ⟨frameSize, true, longest, some statistics.average, some statistics.minimum,
      some statistics.maximum, some statistics.variance, some statistics.implied,
      some statistics.corrected, searches⟩
  else pure ⟨frameSize, false, longest, none, none, none, none, none, none, searches⟩

/-- `measure_back_to_back` -/
def measureBackToBack (theoreticalFps throughputFps : ℚ) : Effect Exc σ BackToBackResult := do
  let prerequisitesValid : Bool :=
    theoreticalFps > 0 ∧ 0 ≤ throughputFps ∧ throughputFps < theoreticalFps
  let searches ← Effect.forList (burstRepetition trial frameSize settings prerequisitesValid)
    (List.range' 1 settings.repetitions)
  ofExcept (burstResult frameSize settings theoreticalFps throughputFps prerequisitesValid searches)

end Measure

/-! ### What a repetition leaves behind -/

open Effect (Ensures Reaches)

section Specs

variable {σ : Type} {trial : BackToBackTrialFunction σ} {frameSize : Nat}
  {settings : BurstSettings} {I : σ → Prop} {P : Nat → BackToBackObservation → Prop}

/-- Every burst that is sent keeps `I` and is answered as `P` says. -/
def AnswersBursts (I : σ → Prop) (trial : BackToBackTrialFunction σ) (frameSize : Nat)
    (P : Nat → BackToBackObservation → Prop) : Prop :=
  ∀ burst, Ensures I (trial frameSize burst) (P burst)

/-- The bisection between a lossless and a lossy burst: it ends at a lossless one within a step of a
lossy one, or after an invalid observation. -/
inductive BurstBisection (settings : BurstSettings) (P : Nat → BackToBackObservation → Prop) :
    Nat → Nat → List BurstRecord → Option Nat → Prop
  | done {low high : Nat} (hgap : high - low ≤ settings.minimumStepFrames) :
    BurstBisection settings P low high [] (some low)
  | invalid {low high candidate : Nat} {o : BackToBackObservation} (hbelow : low < candidate)
    (habove : candidate < high) (ho : P candidate o) (hinvalid : o.valid = false) :
    BurstBisection settings P low high [⟨candidate, .binarySearch, o⟩] none
  | lossless {low high candidate : Nat} {o : BackToBackObservation} {rest : List BurstRecord}
    {found : Option Nat} (hbelow : low < candidate) (habove : candidate < high) (ho : P candidate o)
    (hvalid : o.valid = true) (hloss : o.rxFrames = o.txFrames)
    (hrest : BurstBisection settings P candidate high rest found) :
    BurstBisection settings P low high (⟨candidate, .binarySearch, o⟩ :: rest) found
  | lossy {low high candidate : Nat} {o : BackToBackObservation} {rest : List BurstRecord}
    {found : Option Nat} (hbelow : low < candidate) (habove : candidate < high) (ho : P candidate o)
    (hvalid : o.valid = true) (hloss : o.rxFrames ≠ o.txFrames)
    (hrest : BurstBisection settings P low candidate rest found) :
    BurstBisection settings P low high (⟨candidate, .binarySearch, o⟩ :: rest) found

theorem bisectBurst_run (h : AnswersBursts I trial frameSize P) (low high : Nat) :
    Ensures I (bisectBurst trial frameSize settings low high) fun p =>
      BurstBisection settings P low high p.1 p.2 := by
  induction low, high using bisectBurst.induct settings with
  | case1 low high hgap candidate ihLossless ihLossy =>
    obtain ⟨hbelow, habove⟩ := nextBurst_inside settings.valid.2.1 hgap
    rw [bisectBurst, dif_pos hgap]
    refine (h candidate).bind fun o ho => ?_
    by_cases hvalid : o.valid = true
    · by_cases hloss : o.rxFrames = o.txFrames
      · simp only [hvalid, hloss, if_true]
        exact (ihLossless o).bind fun q hq => .pure (.lossless hbelow habove ho hvalid hloss hq)
      · simp only [hvalid, hloss, if_true, if_false]
        exact (ihLossy o hloss).bind fun q hq => .pure (.lossy hbelow habove ho hvalid hloss hq)
    · simp only [hvalid]
      exact .pure (.invalid hbelow habove ho (by simpa using hvalid))
  | case2 low high hgap =>
    rw [bisectBurst, dif_neg hgap]
    exact .pure (.done (not_lt.mp hgap))

/-- What a repetition can be. -/
inductive Repeated (settings : BurstSettings) (P : Nat → BackToBackObservation → Prop)
    (prerequisitesValid : Bool) : BurstSearch → Prop
  | unbounded {n : Nat} {o : BackToBackObservation} (ho : P settings.maximumBurstFrames o)
    (h : o.valid = false ∨ o.txFrames ≤ o.rxFrames) :
    Repeated settings P prerequisitesValid
      ⟨n, false, none, [⟨settings.maximumBurstFrames, .upperBound, o⟩], none⟩
  | broken {n : Nat} {o : BackToBackObservation} {searched : List BurstRecord}
    (ho : P settings.maximumBurstFrames o) (hvalid : o.valid = true) (hloss : o.rxFrames < o.txFrames)
    (hsearch : BurstBisection settings P 0 settings.maximumBurstFrames searched none) :
    Repeated settings P prerequisitesValid
      ⟨n, false, none, ⟨settings.maximumBurstFrames, .upperBound, o⟩ :: searched, none⟩
  | nothing {n : Nat} {o : BackToBackObservation} {searched : List BurstRecord} {low : Nat}
    (ho : P settings.maximumBurstFrames o) (hvalid : o.valid = true) (hloss : o.rxFrames < o.txFrames)
    (hsearch : BurstBisection settings P 0 settings.maximumBurstFrames searched (some low))
    (hlow : prerequisitesValid = false ∨ low = 0) :
    Repeated settings P prerequisitesValid
      ⟨n, false, none, ⟨settings.maximumBurstFrames, .upperBound, o⟩ :: searched, none⟩
  | verified {n : Nat} {o o' : BackToBackObservation} {searched : List BurstRecord} {low : Nat}
    (ho : P settings.maximumBurstFrames o) (hvalid : o.valid = true) (hloss : o.rxFrames < o.txFrames)
    (hsearch : BurstBisection settings P 0 settings.maximumBurstFrames searched (some low))
    (hlow : 0 < low) (ho' : P low o') :
    Repeated settings P prerequisitesValid
      ⟨n, o'.valid && decide (o'.rxFrames = o'.txFrames),
        if o'.valid && decide (o'.rxFrames = o'.txFrames) then some low else none,
        ⟨settings.maximumBurstFrames, .upperBound, o⟩ :: searched,
        some ⟨low, .lossVerification, o'⟩⟩

theorem burstRepetition_run (h : AnswersBursts I trial frameSize P) (prerequisitesValid : Bool)
    (repetition : Nat) :
    Ensures I (burstRepetition trial frameSize settings prerequisitesValid repetition)
      (Repeated settings P prerequisitesValid) := by
  refine (h settings.maximumBurstFrames).bind fun o ho => ?_
  by_cases hunbounded : o.valid = false ∨ o.txFrames ≤ o.rxFrames
  · have hcond : (!o.valid || decide (o.txFrames ≤ o.rxFrames)) = true := by simpa using hunbounded
    simp only [hcond, if_true]
    exact .pure (.unbounded ho hunbounded)
  · have hcond : (!o.valid || decide (o.txFrames ≤ o.rxFrames)) = false := by simpa using hunbounded
    obtain ⟨hinvalid, hloss⟩ := not_or.mp hunbounded
    have hvalid : o.valid = true := by simpa using hinvalid
    rw [not_le] at hloss
    simp only [hcond]
    refine (bisectBurst_run h 0 settings.maximumBurstFrames).bind fun q hq => ?_
    obtain ⟨searched, found⟩ := q
    cases found with
    | none => exact .pure (.broken ho hvalid hloss hq)
    | some low =>
      by_cases hlow : prerequisitesValid = false ∨ low = 0
      · have hcond' : (!prerequisitesValid || decide (low ≤ 0)) = true := by simpa using hlow
        simp only [hcond', if_true]
        exact .pure (.nothing ho hvalid hloss hq hlow)
      · have hcond' : (!prerequisitesValid || decide (low ≤ 0)) = false := by simpa using hlow
        have hpos : 0 < low := by omega
        simp only [hcond']
        exact (h low).bind fun o' ho' => .pure (.verified ho hvalid hloss hq hpos ho')

/-- A repetition that counts: the longest burst lost frames, and the burst that is reported was sent
again and lost none. -/
structure Counts (settings : BurstSettings) (search : BurstSearch) : Prop where
  upperBound : ∃ o rest, search.trials = ⟨settings.maximumBurstFrames, .upperBound, o⟩ :: rest ∧
    o.valid = true ∧ o.rxFrames < o.txFrames
  verified : ∃ b o, search.longestZeroLossBurstFrames = some b ∧ 0 < b ∧
    search.verification = some ⟨b, .lossVerification, o⟩ ∧ o.valid = true ∧ o.rxFrames = o.txFrames

theorem Repeated.counts {prerequisitesValid : Bool} {search : BurstSearch}
    (h : Repeated settings P prerequisitesValid search) (hvalid : search.valid = true) :
    Counts settings search := by
  cases h with
  | unbounded _ _ => simp at hvalid
  | broken _ _ _ _ => simp at hvalid
  | nothing _ _ _ _ _ => simp at hvalid
  | @verified n o o' searched low _ hfirst hloss _ hlow _ =>
    have hagain : o'.valid = true ∧ o'.rxFrames = o'.txFrames := by simpa using hvalid
    refine ⟨⟨o, searched, rfl, hfirst, hloss⟩, low, o', ?_, hlow, rfl, hagain⟩
    simp [hagain]

/-- An invalid repetition reports no burst. -/
theorem Repeated.longest_none {prerequisitesValid : Bool} {search : BurstSearch}
    (h : Repeated settings P prerequisitesValid search) (hvalid : search.valid = false) :
    search.longestZeroLossBurstFrames = none := by
  cases h with
  | unbounded _ _ => rfl
  | broken _ _ _ _ => rfl
  | nothing _ _ _ _ _ => rfl
  | @verified n o o' searched low _ _ _ _ _ _ =>
    have hnot : ¬(o'.valid && decide (o'.rxFrames = o'.txFrames)) = true := by
      simpa using hvalid
    exact if_neg hnot

end Specs

/-! ### Statistics of bursts -/

theorem fmean_eq_ok {xs : List ℚ} (h : xs ≠ []) : fmean xs = .ok (xs.sum / xs.length) :=
  if_neg h

theorem foldl_min_le (x : Nat) (xs : List Nat) : ∀ y ∈ x :: xs, xs.foldl min x ≤ y := by
  induction xs generalizing x with
  | nil => simp
  | cons z xs ih =>
    have hrest := ih (min x z)
    intro y hy
    have hfirst : xs.foldl min (min x z) ≤ min x z := hrest _ List.mem_cons_self
    rw [List.foldl_cons]
    rcases List.mem_cons.mp hy with rfl | hy
    · exact hfirst.trans (Nat.min_le_left _ _)
    · rcases List.mem_cons.mp hy with rfl | hy
      · exact hfirst.trans (Nat.min_le_right _ _)
      · exact hrest y (List.mem_cons_of_mem _ hy)

theorem le_foldl_max (x : Nat) (xs : List Nat) : ∀ y ∈ x :: xs, y ≤ xs.foldl max x := by
  induction xs generalizing x with
  | nil => simp
  | cons z xs ih =>
    have hrest := ih (max x z)
    intro y hy
    have hfirst : max x z ≤ xs.foldl max (max x z) := hrest _ List.mem_cons_self
    rw [List.foldl_cons]
    rcases List.mem_cons.mp hy with rfl | hy
    · exact (Nat.le_max_left _ _).trans hfirst
    · rcases List.mem_cons.mp hy with rfl | hy
      · exact (Nat.le_max_right _ _).trans hfirst
      · exact hrest y (List.mem_cons_of_mem _ hy)

/-- A mean is between two bounds of its numbers. -/
theorem mean_between {longest : List Nat} {least greatest : Nat} (hne : longest ≠ [])
    (hleast : ∀ b ∈ longest, least ≤ b) (hgreatest : ∀ b ∈ longest, b ≤ greatest) :
    (least : ℚ) ≤ (longest.map (Nat.cast : Nat → ℚ)).sum / longest.length ∧
      (longest.map (Nat.cast : Nat → ℚ)).sum / longest.length ≤ greatest := by
  have hlength : (0 : ℚ) < longest.length := by
    exact_mod_cast List.length_pos_of_ne_nil hne
  have hlower : ∀ xs : List Nat, (∀ b ∈ xs, least ≤ b) →
      (xs.length : ℚ) * least ≤ (xs.map (Nat.cast : Nat → ℚ)).sum := by
    intro xs
    induction xs with
    | nil => simp
    | cons b xs ih =>
      intro hxs
      have hb : (least : ℚ) ≤ b := by exact_mod_cast hxs b List.mem_cons_self
      have hrest := ih fun c hc => hxs c (List.mem_cons_of_mem _ hc)
      simp only [List.length_cons, List.map_cons, List.sum_cons]
      push_cast
      linarith
  have hupper : ∀ xs : List Nat, (∀ b ∈ xs, b ≤ greatest) →
      (xs.map (Nat.cast : Nat → ℚ)).sum ≤ (xs.length : ℚ) * greatest := by
    intro xs
    induction xs with
    | nil => simp
    | cons b xs ih =>
      intro hxs
      have hb : (b : ℚ) ≤ greatest := by exact_mod_cast hxs b List.mem_cons_self
      have hrest := ih fun c hc => hxs c (List.mem_cons_of_mem _ hc)
      simp only [List.length_cons, List.map_cons, List.sum_cons]
      push_cast
      linarith
  constructor
  · rw [le_div_iff₀ hlength, mul_comm]
    exact hlower longest hleast
  · rw [div_le_iff₀ hlength, mul_comm]
    exact hupper longest hgreatest

/-- What the statistics of a complete measurement are: nothing raises, and they are ordered. -/
theorem burstStatistics_eq_ok {theoreticalFps throughputFps : ℚ} {longest : List Nat}
    (hne : longest ≠ []) (hpos : 0 < theoreticalFps) (hnonneg : 0 ≤ throughputFps)
    (hlt : throughputFps < theoreticalFps) :
    ∃ statistics, burstStatistics theoreticalFps throughputFps longest = .ok statistics ∧
      statistics.minimum ≤ statistics.average ∧ statistics.average ≤ statistics.maximum ∧
      0 ≤ statistics.corrected ∧ statistics.corrected ≤ statistics.implied := by
  obtain ⟨b, rest, rfl⟩ := List.exists_cons_of_ne_nil hne
  obtain ⟨hlow, hhigh⟩ := mean_between hne (foldl_min_le b rest) (le_foldl_max b rest)
  have hmap : ((b :: rest).map (Nat.cast : Nat → ℚ)) ≠ [] := by simp
  have hsquares : ∀ mean : ℚ,
      (((b :: rest).map (Nat.cast : Nat → ℚ)).map fun x => (x - mean) ^ 2) ≠ [] := by simp
  rw [← List.length_map (f := (Nat.cast : Nat → ℚ))] at hlow hhigh
  generalize hmean : ((b :: rest).map (Nat.cast : Nat → ℚ)).sum /
    ((b :: rest).map (Nat.cast : Nat → ℚ)).length = mean at hlow hhigh
  have himplied : 0 ≤ mean / theoreticalFps :=
    div_nonneg (le_trans (Nat.cast_nonneg _) hlow) hpos.le
  have hratio : 0 ≤ throughputFps / theoreticalFps := div_nonneg hnonneg hpos.le
  have hratio' : throughputFps / theoreticalFps ≤ 1 := (div_le_one hpos).mpr hlt.le
  obtain ⟨variance, hvariance⟩ : ∃ variance,
      pvariance ((b :: rest).map (Nat.cast : Nat → ℚ)) = .ok variance := by
    simp only [pvariance, fmean_eq_ok hmap]
    exact ⟨_, fmean_eq_ok (hsquares _)⟩
  refine ⟨⟨mean, rest.foldl min b, rest.foldl max b, variance, mean / theoreticalFps,
    mean / theoreticalFps * (1 - throughputFps / theoreticalFps)⟩, ?_, hlow, hhigh, ?_, ?_⟩
  · simp only [burstStatistics, fmean_eq_ok hmap, hmean, hvariance, divide, if_neg hpos.ne', minimum,
      maximum]
    rfl
  · exact mul_nonneg himplied (by linarith)
  · exact mul_le_of_le_one_right himplied (by linarith)

/-! ### Whole measurements -/

section Measurements

variable {σ : Type} {trial : BackToBackTrialFunction σ} {frameSize : Nat}
  {settings : BurstSettings} {I : σ → Prop} {P : Nat → BackToBackObservation → Prop}
  {theoreticalFps throughputFps : ℚ}

/-- What a valid measurement says. -/
structure ValidResult (settings : BurstSettings) (result : BackToBackResult) : Prop where
  repetitions : result.searches.length = settings.repetitions
  counts : ∀ search ∈ result.searches, Counts settings search
  longest : result.longestZeroLossBursts =
    result.searches.filterMap fun search => search.longestZeroLossBurstFrames
  statistics : ∃ average least greatest implied corrected,
    result.averageFrames = some average ∧ result.minimumFrames = some least ∧
    result.maximumFrames = some greatest ∧ result.impliedBufferSeconds = some implied ∧
    result.correctedBufferSeconds = some corrected ∧ (least : ℚ) ≤ average ∧ average ≤ greatest ∧
    0 ≤ corrected ∧ corrected ≤ implied

/-- What a measurement leaves behind: its repetitions, and a result that is valid exactly when all of
them are and the rates allow it. -/
structure Measured (settings : BurstSettings) (P : Nat → BackToBackObservation → Prop)
    (theoreticalFps throughputFps : ℚ) (result : BackToBackResult) : Prop where
  repetitions : result.searches.length = settings.repetitions
  repeated : ∃ prerequisitesValid : Bool,
    (prerequisitesValid = true ↔
      0 < theoreticalFps ∧ 0 ≤ throughputFps ∧ throughputFps < theoreticalFps) ∧
    (∀ search ∈ result.searches, Repeated settings P prerequisitesValid search)
  valid_iff : result.valid = true ↔
    (0 < theoreticalFps ∧ 0 ≤ throughputFps ∧ throughputFps < theoreticalFps) ∧
      ∀ search ∈ result.searches, search.valid = true
  valid : result.valid = true → ValidResult settings result

/-- When every repetition counts, each of them reports a burst. -/
theorem length_longest {searches : List BurstSearch}
    (h : ∀ search ∈ searches, Counts settings search) :
    (searches.filterMap fun search => search.longestZeroLossBurstFrames).length =
      searches.length := by
  rw [List.length_filterMap_eq_countP, List.countP_eq_length]
  intro search hsearch
  obtain ⟨b, o, hb, -⟩ := (h search hsearch).verified
  simp [hb]

/-- The result of repetitions does not raise. -/
theorem burstResult_eq_ok {prerequisitesValid : Bool} {searches : List BurstSearch}
    (hrates : prerequisitesValid = true ↔
      0 < theoreticalFps ∧ 0 ≤ throughputFps ∧ throughputFps < theoreticalFps)
    (hlength : searches.length = settings.repetitions)
    (hrepeated : ∀ search ∈ searches, Repeated settings P prerequisitesValid search) :
    ∃ result, burstResult frameSize settings theoreticalFps throughputFps prerequisitesValid searches =
        .ok result ∧ Measured settings P theoreticalFps throughputFps result := by
  have hcomplete : (prerequisitesValid && searches.all (fun search => search.valid) &&
      decide ((searches.filterMap fun search => search.longestZeroLossBurstFrames).length =
        settings.repetitions)) = true ↔
      (0 < theoreticalFps ∧ 0 ≤ throughputFps ∧ throughputFps < theoreticalFps) ∧
        ∀ search ∈ searches, search.valid = true := by
    rw [Bool.and_eq_true, Bool.and_eq_true, hrates, List.all_eq_true, decide_eq_true_iff]
    constructor
    · exact fun hall => hall.1
    · intro hall
      refine ⟨hall, ?_⟩
      rw [← hlength]
      exact length_longest fun search hsearch =>
        (hrepeated search hsearch).counts (hall.2 search hsearch)
  unfold burstResult
  dsimp only
  split
  · next hvalid =>
    obtain ⟨⟨hpos, hnonneg, hlt⟩, hall⟩ := hcomplete.mp hvalid
    have hcounts : ∀ search ∈ searches, Counts settings search := fun search hsearch =>
      (hrepeated search hsearch).counts (hall search hsearch)
    have hne : (searches.filterMap fun search => search.longestZeroLossBurstFrames) ≠ [] := by
      refine List.ne_nil_of_length_pos ?_
      rw [length_longest hcounts, hlength]
      exact settings.valid.1
    obtain ⟨statistics, hok, hlow, hhigh, hcorrected, himplied⟩ :=
      burstStatistics_eq_ok hne hpos hnonneg hlt
    rw [hok]
    refine ⟨_, rfl, hlength, ⟨prerequisitesValid, hrates, hrepeated⟩, ?_, fun _ => ?_⟩
    · exact ⟨fun _ => ⟨⟨hpos, hnonneg, hlt⟩, hall⟩, fun _ => rfl⟩
    · exact ⟨hlength, hcounts, rfl, _, _, _, _, _, rfl, rfl, rfl, rfl, rfl, hlow, hhigh, hcorrected,
        himplied⟩
  · next hinvalid =>
    refine ⟨_, rfl, hlength, ⟨prerequisitesValid, hrates, hrepeated⟩, ?_, by simp⟩
    rw [← hcomplete]
    simpa using hinvalid

/-- A computation that satisfies `Q` when it returns, and returns. -/
theorem reaches_of_ensures {ε α : Type} {I : σ → Prop} {m : Effect ε σ α} {Q R : α → Prop}
    (h : Ensures I m Q) (hreaches : Reaches I m R) : Reaches I m Q := by
  intro s hs
  obtain ⟨hI, a, ha, -⟩ := hreaches s hs
  exact ⟨hI, a, ha, (h s hs).2 a ha⟩

theorem measureBackToBack_run (h : AnswersBursts I trial frameSize P) :
    Ensures I
      (measureBackToBack trial frameSize settings theoreticalFps throughputFps)
      (Measured settings P theoreticalFps throughputFps) := by
  refine (Ensures.forList fun n _ => burstRepetition_run h _ n).bind fun searches hsearches => ?_
  obtain ⟨result, hresult, hmeasured⟩ :=
    @burstResult_eq_ok frameSize settings P theoreticalFps throughputFps _ searches
      decide_eq_true_iff (by rw [← hsearches.length_eq, List.length_range'])
      fun search hsearch => (exists_left_of_forall₂ hsearches hsearch).choose_spec.2
  rw [hresult]
  exact .pure hmeasured

/-- The trial function answers every burst. -/
def AlwaysSends (trial : BackToBackTrialFunction σ) (frameSize : Nat) : Prop :=
  ∀ burst, Reaches (fun _ => True) (trial frameSize burst) fun _ => True

theorem bisectBurst_total (h : AlwaysSends trial frameSize) (low high : Nat) :
    Reaches (fun _ => True) (bisectBurst trial frameSize settings low high) fun _ => True := by
  induction low, high using bisectBurst.induct settings with
  | case1 low high hgap candidate ihLossless ihLossy =>
    rw [bisectBurst, dif_pos hgap]
    refine (h candidate).bind fun o _ => ?_
    dsimp only
    split
    · split
      · exact (ihLossless o).bind fun _ _ => .pure trivial
      · next hloss => exact (ihLossy o hloss).bind fun _ _ => .pure trivial
    · exact .pure trivial
  | case2 low high hgap =>
    rw [bisectBurst, dif_neg hgap]
    exact .pure trivial

theorem burstRepetition_total (h : AlwaysSends trial frameSize) (prerequisitesValid : Bool) (n : Nat) :
    Reaches (fun _ => True) (burstRepetition trial frameSize settings prerequisitesValid n)
      fun _ => True := by
  refine (h _).bind fun o _ => ?_
  dsimp only
  split
  · exact .pure trivial
  · refine (bisectBurst_total h _ _).bind fun q _ => ?_
    obtain ⟨searched, found⟩ := q
    cases found with
    | none => exact .pure trivial
    | some low =>
      dsimp only
      split
      · exact .pure trivial
      · exact (h low).bind fun _ _ => .pure trivial

/-- A measurement raises only what a trial raises. -/
theorem measureBackToBack_total (h : AnswersBursts (fun _ => True) trial frameSize P)
    (htotal : AlwaysSends trial frameSize) :
    Reaches (fun _ => True)
      (measureBackToBack trial frameSize settings theoreticalFps throughputFps)
      (Measured settings P theoreticalFps throughputFps) := by
  refine (Reaches.forList fun n _ => reaches_of_ensures (burstRepetition_run h _ n)
    (burstRepetition_total htotal _ n)).bind fun searches hsearches => ?_
  obtain ⟨result, hresult, hmeasured⟩ :=
    @burstResult_eq_ok frameSize settings P theoreticalFps throughputFps _ searches
      decide_eq_true_iff (by rw [← hsearches.length_eq, List.length_range'])
      fun search hsearch => (exists_left_of_forall₂ hsearches hsearch).choose_spec.2
  rw [hresult]
  exact .pure hmeasured

/-! ### Bursts -/

/-- The trial function, with the bursts it was asked for written down first. -/
def BackToBackTrialFunction.asked (trial : BackToBackTrialFunction σ) :
    BackToBackTrialFunction (σ × List Nat) :=
  fun frameSize burst s => ((trial frameSize burst s.1).1, (trial frameSize burst s.1).2, s.2 ++ [burst])

/-- Every burst that was sent is between one and the maximum. -/
def BurstsUpTo (maximum : Nat) (s : σ × List Nat) : Prop := ∀ burst ∈ s.2, 1 ≤ burst ∧ burst ≤ maximum

theorem asked_ensures {maximum burst : Nat} (hpos : 1 ≤ burst) (hle : burst ≤ maximum) :
    Ensures (BurstsUpTo maximum) (trial.asked frameSize burst) fun _ => True := by
  intro s hs
  refine ⟨fun burst' hburst' => ?_, fun _ _ => trivial⟩
  rcases List.mem_append.mp hburst' with hburst' | hburst'
  · exact hs burst' hburst'
  · obtain rfl := List.mem_singleton.mp hburst'
    exact ⟨hpos, hle⟩

theorem bisectBurst_bursts {low high maximum : Nat} (hlow : low < high) (hhigh : high ≤ maximum) :
    Ensures (BurstsUpTo maximum) (bisectBurst trial.asked frameSize settings low high) fun p =>
      ∀ found, p.2 = some found → found ≤ maximum := by
  induction low, high using bisectBurst.induct settings with
  | case1 low high hgap candidate ihLossless ihLossy =>
    obtain ⟨hbelow, habove⟩ := nextBurst_inside settings.valid.2.1 hgap
    have hpos : 1 ≤ candidate := by
      show 1 ≤ nextBurst _ _ _
      omega
    have hle : candidate ≤ maximum := habove.le.trans hhigh
    rw [bisectBurst, dif_pos hgap]
    refine (asked_ensures hpos hle).bind fun o _ => ?_
    dsimp only
    split
    · split
      · exact (ihLossless o habove hhigh).bind fun q hq => .pure hq
      · next hloss => exact (ihLossy o hloss hbelow hle).bind fun q hq => .pure hq
    · exact .pure (by simp)
  | case2 low high hgap =>
    rw [bisectBurst, dif_neg hgap]
    refine .pure fun found hfound => ?_
    obtain rfl := Option.some.inj hfound
    omega

theorem burstRepetition_bursts (prerequisitesValid : Bool) (n : Nat) :
    Ensures (BurstsUpTo settings.maximumBurstFrames)
      (burstRepetition trial.asked frameSize settings prerequisitesValid n) fun _ => True := by
  have hmaximum := settings.valid.2.2
  refine (asked_ensures hmaximum le_rfl).bind fun o _ => ?_
  dsimp only
  split
  · exact .pure trivial
  · refine (bisectBurst_bursts hmaximum le_rfl).bind fun q hq => ?_
    obtain ⟨searched, found⟩ := q
    cases found with
    | none => exact .pure trivial
    | some low =>
      dsimp only
      split
      · exact .pure trivial
      · next hlow =>
        have hpos : 1 ≤ low := by
          simp only [Bool.or_eq_true, decide_eq_true_eq, not_or] at hlow
          omega
        exact (asked_ensures hpos (hq low rfl)).bind fun _ _ => .pure trivial

theorem measureBackToBack_bursts :
    Ensures (BurstsUpTo settings.maximumBurstFrames)
      (measureBackToBack trial.asked frameSize settings theoreticalFps throughputFps)
      fun _ => True := by
  refine (Ensures.forList fun n _ => burstRepetition_bursts _ n).bind fun searches _ => ?_
  cases burstResult frameSize settings theoreticalFps throughputFps _ searches with
  | ok result => exact .pure trivial
  | error e => exact .throw e

/-! ### A device with a buffer -/

/-- A device that answers a burst with as many of its frames as its buffer holds. -/
def HasBuffer (trial : BackToBackTrialFunction σ) (frameSize buffer : Nat) : Prop :=
  ∀ burst s, ∃ o, (trial frameSize burst s).1 = .ok o ∧ o.valid = true ∧ o.txFrames = burst ∧
    o.rxFrames = (min burst buffer : Nat)

/-- The observation of a burst by such a device. -/
def OfBuffer (buffer burst : Nat) (o : BackToBackObservation) : Prop :=
  o.valid = true ∧ o.txFrames = burst ∧ o.rxFrames = (min burst buffer : Nat)

theorem HasBuffer.answersBursts {buffer : Nat} (h : HasBuffer trial frameSize buffer) :
    AnswersBursts (fun _ => True) trial frameSize (OfBuffer buffer) := by
  intro burst s _
  obtain ⟨o, ho, hobservation⟩ := h burst s
  refine ⟨trivial, fun o' ho' => ?_⟩
  obtain rfl := Except.ok.inj (ho.symm.trans ho')
  exact hobservation

theorem HasBuffer.alwaysSends {buffer : Nat} (h : HasBuffer trial frameSize buffer) :
    AlwaysSends trial frameSize := by
  intro burst s _
  obtain ⟨o, ho, -⟩ := h burst s
  exact ⟨trivial, o, ho, trivial⟩

/-- Such a device loses nothing exactly up to its buffer. -/
theorem OfBuffer.lossless_iff {buffer burst : Nat} {o : BackToBackObservation}
    (h : OfBuffer buffer burst o) : o.rxFrames = o.txFrames ↔ burst ≤ buffer := by
  obtain ⟨-, htx, hrx⟩ := h
  rw [htx, hrx]
  omega

/-- The bisection encloses the buffer. -/
theorem BurstBisection.encloses {buffer low high : Nat} {records : List BurstRecord}
    {found : Option Nat} (h : BurstBisection settings (OfBuffer buffer) low high records found)
    (hlow : low ≤ buffer) (hhigh : buffer < high) :
    ∃ burst, found = some burst ∧ burst ≤ buffer ∧ buffer - burst < settings.minimumStepFrames := by
  induction h with
  | @done low high hgap => exact ⟨low, rfl, hlow, by omega⟩
  | invalid _ _ ho hinvalid => simp [ho.1] at hinvalid
  | lossless _ _ ho _ hloss _ ih => exact ih (ho.lossless_iff.mp hloss) hhigh
  | lossy _ _ ho _ hloss _ ih =>
    exact ih hlow (not_le.mp fun hle => hloss (ho.lossless_iff.mpr hle))

/-- A repetition that ends within a step of the buffer. -/
def FindsBuffer (settings : BurstSettings) (buffer : Nat) (search : BurstSearch) : Prop :=
  search.valid = true ∧ ∃ burst, search.longestZeroLossBurstFrames = some burst ∧ burst ≤ buffer ∧
    buffer - burst < settings.minimumStepFrames

theorem Repeated.finds {buffer : Nat} {search : BurstSearch}
    (h : Repeated settings (OfBuffer buffer) true search) (hstep : settings.minimumStepFrames ≤ buffer)
    (hmaximum : buffer < settings.maximumBurstFrames) : FindsBuffer settings buffer search := by
  cases h with
  | unbounded ho hunbounded =>
    obtain ⟨hvalid, htx, hrx⟩ := ho
    rcases hunbounded with hinvalid | hle
    · simp [hvalid] at hinvalid
    · omega
  | broken _ _ _ hsearch =>
    obtain ⟨burst, hnone, -⟩ := hsearch.encloses (Nat.zero_le _) hmaximum
    simp at hnone
  | nothing _ _ _ hsearch hlow =>
    obtain ⟨burst, hfound, -, hnear⟩ := hsearch.encloses (Nat.zero_le _) hmaximum
    obtain rfl := Option.some.inj hfound
    simp only [Bool.true_eq_false, false_or] at hlow
    omega
  | verified _ _ _ hsearch _ ho' =>
    obtain ⟨burst, hfound, hle, hnear⟩ := hsearch.encloses (Nat.zero_le _) hmaximum
    obtain rfl := Option.some.inj hfound
    have hverified := ho'.lossless_iff.mpr hle
    refine ⟨by simp [ho'.1, hverified], _, ?_, hle, hnear⟩
    simp [ho'.1, hverified]

/-- With the rates in order and the buffer between the step and the maximum, every repetition ends
within a step of the buffer and the result is valid. -/
theorem Measured.finds {buffer : Nat} {result : BackToBackResult}
    (h : Measured settings (OfBuffer buffer) theoreticalFps throughputFps result)
    (hnonneg : 0 ≤ throughputFps) (hlt : throughputFps < theoreticalFps)
    (hstep : settings.minimumStepFrames ≤ buffer) (hmaximum : buffer < settings.maximumBurstFrames) :
    result.valid = true ∧ ∀ search ∈ result.searches, FindsBuffer settings buffer search := by
  obtain ⟨prerequisitesValid, hrates, hrepeated⟩ := h.repeated
  have hinOrder : 0 < theoreticalFps ∧ 0 ≤ throughputFps ∧ throughputFps < theoreticalFps :=
    ⟨hnonneg.trans_lt hlt, hnonneg, hlt⟩
  obtain rfl := hrates.mpr hinOrder
  have hfinds : ∀ search ∈ result.searches, FindsBuffer settings buffer search :=
    fun search hsearch => (hrepeated search hsearch).finds hstep hmaximum
  exact ⟨h.valid_iff.mpr ⟨hinOrder, fun search hsearch => (hfinds search hsearch).1⟩, hfinds⟩

end Measurements

theorem answersBursts_true {σ : Type} (trial : BackToBackTrialFunction σ) (frameSize : Nat) :
    AnswersBursts (fun _ => True) trial frameSize fun _ _ => True :=
  fun _ _ _ => ⟨trivial, fun _ _ => trivial⟩

/-- A device with a buffer. -/
def bufferTrial (buffer : Nat) : BackToBackTrialFunction Unit := fun _ burst s =>
  (.ok { valid := true, txFrames := burst, rxFrames := (min burst buffer : Nat), details := .null }, s)

end TrexCli.Rfc2544
