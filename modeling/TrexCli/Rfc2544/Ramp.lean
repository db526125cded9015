import TrexCli.Rfc2544.Publication
import TrexCli.Rfc2544.Summaries

/-!
# The ramp to the full rate

`_validate_calibration` lets a strict run on a remote engine start only under a ceiling that is low
enough to need no calibration, or at most a factor above what earlier runs on the same bench have
measured; `_record_calibrations` stores what a run has measured. Here the two run against each other
on one database, over restarts of the agent with other policies and with any devices under test.

Two things are let through. A fast run is not held back, and what it measures is stored as well. And
a job that has passed the check and waits for its ports is not checked again after a restart, while
the run takes its ceiling from the policy of then.
-/

namespace TrexCli.Rfc2544

open Effect (Ensures)

/-- What a calibration is valid for: an environment and a pair of ports. -/
structure Bench where
  environmentKey : String
  tx : PortId
  rx : PortId
  direction : Direction
  deriving DecidableEq

/-- The ports of a document, in an environment. -/
def benchOf (environmentKey : String) (ports : Ports) : Bench :=
  ⟨environmentKey, ports.tx, ports.rx, ports.direction⟩

def Bench.key (bench : Bench) (frameSize : Nat) : CalibrationKey :=
  ⟨bench.environmentKey, bench.tx, bench.rx, bench.direction, frameSize⟩

def RfcDocument.spec : RfcDocument → Rfc2544ThroughputSpec
  | throughput spec => spec
  | suite spec => spec.toRfc2544ThroughputSpec

namespace RfcMeasurement

def verdict : RfcMeasurement → Verdict
  | throughput summary => summary.verdict
  | suite _ verdict _ => verdict

/-- The summary that `_record_calibrations` looks into. -/
def throughput? : RfcMeasurement → Option ThroughputSummary
  | throughput summary => some summary
  | suite _ _ measurements => measurements.findSome? SuiteMeasurement.throughput?

/-- It returns before that when the result is invalid. -/
def recorded? (measurement : RfcMeasurement) : Option ThroughputSummary :=
  if measurement.verdict = .invalid then none else measurement.throughput?

end RfcMeasurement

/-- `dict.get` on a JSON value that may be no object. -/
def field? (name : String) : Json → Option Json
  | .obj fields => fields.lookup name
  | _ => none

/-- `str(direction.get("counterSource", "unknown"))`; what is no text is no counter source. -/
def counterSource (direction : Json) : String :=
  match field? "counterSource" direction with
  | some (.str source) => source
  | _ => "unknown"

/-- The counter sources of a trial: those of the `directions` of its details that are objects. -/
def counterSourcesOf (details : Json) : List String :=
  match field? "directions" details with
  | some (.arr directions) => directions.filterMap fun direction =>
      match direction with
      | .obj _ => some (counterSource direction)
      | _ => none
  | _ => []

/-- The row that `_record_calibrations` offers for a frame size, if there is one. -/
def calibrationOf (job : JobId) (bench : Bench) (observedAt : Nat → Instant)
    (summary : ThroughputSummary) (entry : Nat × FrameRates) : Option Calibration :=
  match entry.2.percentL1, summary.trials.lookup entry.1 with
  | some percent, some trials => some
    { key := bench.key entry.1
      ceilingPercentL1 := percent
      counterMode := counterModeOf
        (trials.flatMap fun trial => counterSourcesOf trial.observation.details)
      sourceJobId := job
      observedAt := observedAt entry.1 }
  | _, _ => none

/-- The rows that `_record_calibrations` offers to the store. -/
def offeredCalibrations (job : JobId) (bench : Bench) (observedAt : Nat → Instant)
    (summary : ThroughputSummary) : List Calibration :=
  summary.rates.filterMap (calibrationOf job bench observedAt summary)

/-- `_record_calibrations` -/
def recordCalibrations (job : JobId) (bench : Bench) (observedAt : Nat → Instant)
    (summary : ThroughputSummary) (t : Calibrations) : Calibrations :=
  (offeredCalibrations job bench observedAt summary).foldl Calibrations.record t

/-- A job that has passed `_validate_calibration`, with the policy and the bench of then. -/
structure RampJob where
  job : JobId
  document : RfcDocument
  bench : Bench
  policy : SafetyPolicy

/-- A run whose result was recorded, with its ceiling. -/
structure Climb where
  job : JobId
  bench : Bench
  ceiling : ℚ

/-- The agents of a laboratory over the years: the policy of the one that runs, the database, and the
runs that were recorded, the last one first. -/
structure Ramp where
  policy : SafetyPolicy
  calibrations : Calibrations
  admitted : List RampJob
  climbs : List Climb

/-- `σ` is what the devices under test remember. -/
inductive RampAction (σ : Type) where
  /-- The agent starts again with another policy. -/
  | configure (policy : SafetyPolicy)
  /-- A job reaches `_validate_calibration`. -/
  | accept (job : JobId) (document : RfcDocument) (environmentKey : String) (now : Instant)
  /-- The `i`-th admitted job runs, and what it measures is recorded. -/
  | complete (i : Nat) (device : SuiteDevice σ) (memory : σ) (session : SuiteSession)
    (environmentKey : String) (observedAt : Nat → Instant)

namespace Ramp

variable {σ : Type}

def step (s : Ramp) : RampAction σ → Ramp
  | .configure policy => { s with policy }
  | .accept job document environmentKey now =>
    match validateCalibration s.policy (document.spec.mode = .strict) false s.calibrations
      environmentKey document.spec.ports now with
    | .ok _ =>
      { s with admitted := s.admitted ++
          [⟨job, document, benchOf environmentKey document.spec.ports, s.policy⟩] }
    | .error _ => s
  | .complete i device memory session environmentKey observedAt =>
    match s.admitted[i]? with
    | none => s
    | some j =>
      let admitted := s.admitted.eraseIdx i
      match (j.document.run device (some s.policy) session memory).1 with
      | .error _ => { s with admitted }
      | .ok measurement =>
        match measurement.recorded? with
        | none => { s with admitted }
        | some summary =>
          let bench := benchOf environmentKey j.document.spec.ports
          { s with
            admitted
            calibrations := recordCalibrations j.job bench observedAt summary s.calibrations
            climbs := ⟨j.job, bench, s.policy.maxPercentL1⟩ :: s.climbs }

/-- What keeps the ramp steady: the policies ask for a bootstrap ceiling and a growth factor of at most
these, a fast run stays under the bootstrap ceiling, no ceiling is raised while a job waits, and the
environment stays the same from the check of a job to its record. -/
def Steady (bootstrap growth : ℚ) (s : Ramp) : RampAction σ → Prop
  | .configure policy =>
    policy.calibrationBootstrapMaxPercentL1 ≤ bootstrap ∧
      policy.maxCalibrationGrowthFactor ≤ growth ∧
      ∀ j ∈ s.admitted, policy.maxPercentL1 ≤ j.policy.maxPercentL1
  | .accept _ document _ _ => document.spec.mode = .strict ∨ s.policy.maxPercentL1 ≤ bootstrap
  | .complete i _ _ _ environmentKey _ =>
    ∀ j ∈ s.admitted[i]?, benchOf environmentKey j.document.spec.ports = j.bench

instance (bootstrap growth : ℚ) (s : Ramp) (a : RampAction σ) :
    Decidable (s.Steady bootstrap growth a) :=
  match a with
  | .configure _ => inferInstanceAs (Decidable (_ ∧ _ ∧ _))
  | .accept .. => inferInstanceAs (Decidable (_ ∨ _))
  | .complete i _ _ _ environmentKey _ => inferInstanceAs (Decidable
      (∀ j ∈ s.admitted[i]?, benchOf environmentKey j.document.spec.ports = j.bench))

/-- Every action of a run is steady. -/
def SteadyRun (bootstrap growth : ℚ) (s : Ramp) : List (RampAction σ) → Prop
  | [] => True
  | a :: actions => s.Steady bootstrap growth a ∧ (s.step a).SteadyRun bootstrap growth actions

instance decidableSteadyRun (bootstrap growth : ℚ) :
    ∀ (s : Ramp) (actions : List (RampAction σ)), Decidable (s.SteadyRun bootstrap growth actions)
  | _, [] => instDecidableTrue
  | s, a :: actions =>
    have := decidableSteadyRun bootstrap growth (s.step a) actions
    inferInstanceAs (Decidable (_ ∧ _))

/-- A new database. -/
def start (policy : SafetyPolicy) : Ramp := ⟨policy, .empty, [], []⟩

/-- The states of steady runs, by devices that remember a `σ`. -/
inductive Reach (σ : Type) (bootstrap growth : ℚ) : Ramp → Prop where
  | start {policy : SafetyPolicy} (hbootstrap : policy.calibrationBootstrapMaxPercentL1 ≤ bootstrap)
      (hgrowth : policy.maxCalibrationGrowthFactor ≤ growth) : Reach σ bootstrap growth (start policy)
  | step {s : Ramp} (h : Reach σ bootstrap growth s) (a : RampAction σ)
      (ha : s.Steady bootstrap growth a) : Reach σ bootstrap growth (s.step a)

theorem Reach.run {bootstrap growth : ℚ} {s : Ramp} (h : Reach σ bootstrap growth s)
    {actions : List (RampAction σ)} (hactions : s.SteadyRun bootstrap growth actions) :
    Reach σ bootstrap growth (actions.foldl Ramp.step s) := by
  induction actions generalizing s with
  | nil => exact h
  | cons a actions ih => exact ih (h.step a hactions.1) hactions.2

end Ramp

/-- How many runs have been recorded on a bench. -/
def height (climbs : List Climb) (bench : Bench) : Nat :=
  (climbs.filter fun c => c.bench = bench).length

/-- Each recorded run went at most a factor further than those recorded on its bench before. -/
inductive Climbing (bootstrap growth : ℚ) : List Climb → Prop where
  | nil : Climbing bootstrap growth []
  | cons {c : Climb} {climbs : List Climb} (h : Climbing bootstrap growth climbs)
      (hc : c.ceiling ≤ bootstrap * growth ^ height climbs c.bench) :
      Climbing bootstrap growth (c :: climbs)

/-- The laws of a ramp. -/
structure RampRules (bootstrap growth : ℚ) (s : Ramp) : Prop where
  climbing : Climbing bootstrap growth s.climbs
  /-- Every calibration was measured by a recorded run on its bench, under the run's ceiling. -/
  measured : ∀ key row, s.calibrations.get key = some row →
    ∃ c ∈ s.climbs, c.job = row.sourceJobId ∧ c.bench.key row.key.frameSize = row.key ∧
      row.ceilingPercentL1 ≤ c.ceiling
  /-- A job that is let through, and may run, is the next step of the ramp of its bench. -/
  admitted : ∀ j ∈ s.admitted, s.policy.maxPercentL1 ≤ bootstrap * growth ^ height s.climbs j.bench

/-! ### What a run measures -/

section Measures

variable {σ : Type} {device : SuiteDevice σ} {spec : Rfc2544SuiteSpec} {ceiling : ℚ}
  {session : SuiteSession}

/-- A test other than the throughput measures none. -/
theorem runTest_throughput (hpos : 0 < ceiling) (throughput : Option ThroughputSummary)
    (test : TestName) :
    Ensures (fun _ => True) (runTest device spec ceiling session throughput test)
      fun measurement => ∀ summary, measurement.throughput? = some summary →
        RatesUpTo ceiling summary.rates := by
  have hnone : ∀ {α : Type} (m : Effect Exc σ α) (f : α → SuiteMeasurement),
      (∀ a, (f a).throughput? = none) →
      Ensures (fun _ => True) (m >>= fun a => pure (f a)) fun measurement =>
        ∀ summary, measurement.throughput? = some summary → RatesUpTo ceiling summary.rates := by
    intro α m f hf
    refine (Ensures.trivial m).bind fun a _ => .pure fun summary hsummary => ?_
    rw [hf a] at hsummary
    cases hsummary
  cases test with
  | throughput =>
    refine (runThroughput_ensures hpos (fun _ => safeUpTo_true _ _) session.lineRate).bind
      fun summary hsummary => .pure fun summary' heq => ?_
    exact Option.some.inj heq ▸ hsummary
  | frameLoss => exact hnone _ _ fun _ => rfl
  | latency => exact hnone _ _ fun _ => rfl
  | backToBack => exact hnone _ _ fun _ => rfl

theorem runTests_throughput (hpos : 0 < ceiling) (tests : List TestName) :
    ∀ throughput : Option ThroughputSummary,
      Ensures (fun _ => True) (runTests device spec ceiling session throughput tests)
        fun measurements => ∀ measurement ∈ measurements, ∀ summary,
          measurement.throughput? = some summary → RatesUpTo ceiling summary.rates := by
  induction tests with
  | nil =>
    intro throughput
    exact .pure (by simp)
  | cons test tests ih =>
    intro throughput
    refine (runTest_throughput hpos throughput test).bind fun measurement hmeasurement => ?_
    refine (ih _).bind fun rest hrest => .pure fun m hm => ?_
    rcases List.mem_cons.mp hm with rfl | hm
    · exact hmeasurement
    · exact hrest m hm

/-- What is recorded of a run is within the ceiling of its policy. -/
theorem recorded_le {document : RfcDocument} {policy : SafetyPolicy} {memory : σ}
    {measurement : RfcMeasurement} {summary : ThroughputSummary}
    (hrun : (document.run device (some policy) session memory).1 = .ok measurement)
    (hrecorded : measurement.recorded? = some summary) :
    RatesUpTo policy.maxPercentL1 summary.rates := by
  have hpos := policy.percentL1.1
  have hthroughput : measurement.throughput? = some summary := by
    unfold RfcMeasurement.recorded? at hrecorded
    split at hrecorded
    · cases hrecorded
    · exact hrecorded
  cases document with
  | throughput spec =>
    have hensures : Ensures (fun _ => True) (RfcDocument.run device (some policy) session
        (.throughput spec)) fun measurement => ∀ summary, measurement.throughput? = some summary →
          RatesUpTo policy.maxPercentL1 summary.rates := by
      refine (runThroughput_ensures hpos (fun _ => safeUpTo_true _ _) session.lineRate).bind
        fun summary hsummary => .pure fun summary' heq => ?_
      exact Option.some.inj heq ▸ hsummary
    exact (hensures memory trivial).2 measurement hrun summary hthroughput
  | suite spec =>
    have hensures : Ensures (fun _ => True) (RfcDocument.run device (some policy) session
        (.suite spec)) fun measurement => ∀ summary, measurement.throughput? = some summary →
          RatesUpTo policy.maxPercentL1 summary.rates := by
      refine Ensures.bind (Q := fun result => ∀ measurement ∈ result.2, ∀ summary,
        measurement.throughput? = some summary → RatesUpTo policy.maxPercentL1 summary.rates) ?_ ?_
      · exact (runTests_throughput hpos spec.tests none).bind fun measurements hall => .pure hall
      · rintro ⟨verdict, measurements⟩ hall
        refine .pure fun summary hsummary => ?_
        obtain ⟨m, hm, hsome⟩ := List.exists_of_findSome?_eq_some hsummary
        exact hall m hm summary hsome
    exact (hensures memory trivial).2 measurement hrun summary hthroughput

end Measures

/-! ### The laws -/

/-- A row is an old one, or one that is offered. -/
theorem get_foldl_record {offered : List Calibration} {t : Calibrations} {key : CalibrationKey}
    {row : Calibration} (h : (offered.foldl Calibrations.record t).get key = some row) :
    t.get key = some row ∨ row ∈ offered ∧ row.key = key := by
  induction offered generalizing t with
  | nil => exact .inl h
  | cons c offered ih =>
    rw [List.foldl_cons] at h
    rcases ih h with hold | ⟨hmem, hkey⟩
    · rw [Calibrations.get_record] at hold
      split at hold
      · rename_i hnew
        obtain rfl := Option.some.inj hold
        exact .inr ⟨List.mem_cons_self, hnew.1⟩
      · exact .inl hold
    · exact .inr ⟨List.mem_cons_of_mem _ hmem, hkey⟩

/-- What is offered is measured on the bench, within the ceiling. -/
theorem of_mem_offeredCalibrations {job : JobId} {bench : Bench} {observedAt : Nat → Instant}
    {summary : ThroughputSummary} {ceiling : ℚ} (hrates : RatesUpTo ceiling summary.rates)
    {row : Calibration} (h : row ∈ offeredCalibrations job bench observedAt summary) :
    row.sourceJobId = job ∧ bench.key row.key.frameSize = row.key ∧ row.ceilingPercentL1 ≤ ceiling := by
  obtain ⟨entry, hentry, hrow⟩ := List.mem_filterMap.mp h
  unfold calibrationOf at hrow
  split at hrow
  · rename_i percent trials hpercent _
    obtain rfl := Option.some.inj hrow
    exact ⟨rfl, rfl, hrates entry hentry percent hpercent⟩
  · cases hrow

theorem height_cons_le (c : Climb) (climbs : List Climb) (bench : Bench) :
    height climbs bench ≤ height (c :: climbs) bench := by
  unfold height
  rw [List.filter_cons]
  split
  · exact Nat.le_succ _
  · exact le_rfl

/-- The bounds grow with the height. -/
theorem bound_mono {bootstrap growth : ℚ} (hbootstrap : 0 ≤ bootstrap) (hgrowth : 1 ≤ growth)
    {m n : Nat} (h : m ≤ n) : bootstrap * growth ^ m ≤ bootstrap * growth ^ n :=
  mul_le_mul_of_nonneg_left (pow_le_pow_right₀ hgrowth h) hbootstrap

/-- A recorded run went at most as far as one step below the next of its bench. -/
theorem Climbing.ceiling_le {bootstrap growth : ℚ}
    {climbs : List Climb} (h : Climbing bootstrap growth climbs) {c : Climb} (hc : c ∈ climbs) :
    ∃ n, n + 1 ≤ height climbs c.bench ∧ c.ceiling ≤ bootstrap * growth ^ n := by
  induction h with
  | nil => cases hc
  | @cons latest climbs h hlatest ih =>
    rcases List.mem_cons.mp hc with rfl | hc
    · refine ⟨height climbs c.bench, ?_, hlatest⟩
      simp [height]
    · obtain ⟨n, hn, hle⟩ := ih hc
      exact ⟨n, hn.trans (height_cons_le _ _ _), hle⟩

/-- The gate admits one step of the ramp. -/
theorem gate_le {bootstrap growth : ℚ} (hbootstrap : 0 ≤ bootstrap) {s : Ramp}
    (h : RampRules bootstrap growth s) (hone : 1 ≤ growth)
    (hpolicy : s.policy.calibrationBootstrapMaxPercentL1 ≤ bootstrap)
    (hfactor : s.policy.maxCalibrationGrowthFactor ≤ growth) {document : RfcDocument}
    {environmentKey : String} {now : Instant}
    (hmode : document.spec.mode = .strict ∨ s.policy.maxPercentL1 ≤ bootstrap) {u : Unit}
    (hgate : validateCalibration s.policy (document.spec.mode = .strict) false s.calibrations
      environmentKey document.spec.ports now = .ok u) :
    s.policy.maxPercentL1 ≤
      bootstrap * growth ^ height s.climbs (benchOf environmentKey document.spec.ports) := by
  have hbase : ∀ n, bootstrap ≤ bootstrap * growth ^ n := by
    intro n
    calc bootstrap = bootstrap * growth ^ 0 := by rw [pow_zero, mul_one]
      _ ≤ bootstrap * growth ^ n := bound_mono hbootstrap hone (Nat.zero_le n)
  rcases hmode with hstrict | hlow
  · by_cases hbelow : s.policy.maxPercentL1 ≤ s.policy.calibrationBootstrapMaxPercentL1
    · exact (hbelow.trans hpolicy).trans (hbase _)
    · rw [decide_eq_true hstrict] at hgate
      have hrows := (validateCalibration_eq_ok (not_le.mp hbelow)).mp hgate
      -- one standard frame size is enough
      obtain ⟨row, hrow, -, hprior⟩ := hrows 64 (by decide)
      have hkey := s.calibrations.key_of_get hrow
      obtain ⟨c, hc, -, hbench, hceiling⟩ := h.measured _ row hrow
      have heq : c.bench = benchOf environmentKey document.spec.ports := by
        rw [hkey] at hbench
        have hfields := (CalibrationKey.mk.injEq ..).mp hbench
        obtain ⟨henvironment, htx, hrx, hdirection, -⟩ := hfields
        cases hb : c.bench
        rw [hb] at henvironment htx hrx hdirection
        simp only at henvironment htx hrx hdirection
        rw [henvironment, htx, hrx, hdirection]
        rfl
      obtain ⟨n, hn, hle⟩ := h.climbing.ceiling_le hc
      have hpositive : 0 < s.policy.maxCalibrationGrowthFactor :=
        lt_of_lt_of_le one_pos s.policy.growthFactor.1
      rw [← heq]
      calc s.policy.maxPercentL1
          = s.policy.maxCalibrationGrowthFactor * s.policy.minimumPriorCeiling := by
            rw [SafetyPolicy.minimumPriorCeiling, mul_div_cancel₀ _ hpositive.ne']
        _ ≤ s.policy.maxCalibrationGrowthFactor * (bootstrap * growth ^ n) :=
            mul_le_mul_of_nonneg_left ((hprior.trans hceiling).trans hle) hpositive.le
        _ ≤ growth * (bootstrap * growth ^ n) :=
            mul_le_mul_of_nonneg_right hfactor (mul_nonneg hbootstrap (by positivity))
        _ = bootstrap * growth ^ (n + 1) := by ring
        _ ≤ bootstrap * growth ^ height s.climbs c.bench := bound_mono hbootstrap hone hn
  · exact hlow.trans (hbase _)

/-- The invariant: the laws, under policies within the bounds, with the bound of a job that was admitted
kept by the ceiling that it was admitted under. -/
structure Ramping (bootstrap growth : ℚ) (s : Ramp) : Prop where
  policy : s.policy.calibrationBootstrapMaxPercentL1 ≤ bootstrap ∧
    s.policy.maxCalibrationGrowthFactor ≤ growth
  waiting : ∀ j ∈ s.admitted, s.policy.maxPercentL1 ≤ j.policy.maxPercentL1 ∧
    j.policy.maxPercentL1 ≤ bootstrap * growth ^ height s.climbs j.bench
  rules : RampRules bootstrap growth s

section Steps

variable {σ : Type} {bootstrap growth : ℚ} {s : Ramp}

theorem Ramping.start {policy : SafetyPolicy}
    (hbootstrap : policy.calibrationBootstrapMaxPercentL1 ≤ bootstrap)
    (hgrowth : policy.maxCalibrationGrowthFactor ≤ growth) :
    Ramping bootstrap growth (.start policy) where
  policy := ⟨hbootstrap, hgrowth⟩
  waiting := by simp [Ramp.start]
  rules :=
    { climbing := .nil
      measured := by
        intro key row hrow
        cases hrow
      admitted := by simp [Ramp.start] }

theorem Ramping.configure (h : Ramping bootstrap growth s) {policy : SafetyPolicy}
    (hbootstrap : policy.calibrationBootstrapMaxPercentL1 ≤ bootstrap)
    (hgrowth : policy.maxCalibrationGrowthFactor ≤ growth)
    (hwaiting : ∀ j ∈ s.admitted, policy.maxPercentL1 ≤ j.policy.maxPercentL1) :
    Ramping bootstrap growth { s with policy } where
  policy := ⟨hbootstrap, hgrowth⟩
  waiting j hj := ⟨hwaiting j hj, (h.waiting j hj).2⟩
  rules := ⟨h.rules.climbing, h.rules.measured,
    fun j hj => (hwaiting j hj).trans (h.waiting j hj).2⟩

theorem Ramping.accept (h : Ramping bootstrap growth s) {j : RampJob} (hj : j.policy = s.policy)
    (hle : s.policy.maxPercentL1 ≤ bootstrap * growth ^ height s.climbs j.bench) :
    Ramping bootstrap growth { s with admitted := s.admitted ++ [j] } where
  policy := h.policy
  waiting j' hj' := by
    rcases List.mem_append.mp hj' with hold | hnew
    · exact h.waiting j' hold
    · obtain rfl := List.mem_singleton.mp hnew
      rw [hj]
      exact ⟨le_rfl, hle⟩
  rules := by
    refine ⟨h.rules.climbing, h.rules.measured, fun j' hj' => ?_⟩
    rcases List.mem_append.mp hj' with hold | hnew
    · exact h.rules.admitted j' hold
    · obtain rfl := List.mem_singleton.mp hnew
      exact hle

/-- An admitted job that ends without a record. -/
theorem Ramping.drop (h : Ramping bootstrap growth s) {admitted : List RampJob}
    (hsub : ∀ j ∈ admitted, j ∈ s.admitted) : Ramping bootstrap growth { s with admitted } where
  policy := h.policy
  waiting j hj := h.waiting j (hsub j hj)
  rules := ⟨h.rules.climbing, h.rules.measured, fun j hj => h.rules.admitted j (hsub j hj)⟩

/-- An admitted job whose measurement is recorded on the bench it was admitted on. -/
theorem Ramping.record (hbootstrap : 0 ≤ bootstrap) (hone : 1 ≤ growth)
    (h : Ramping bootstrap growth s) {j : RampJob} (hj : j ∈ s.admitted)
    {summary : ThroughputSummary} (hrates : RatesUpTo s.policy.maxPercentL1 summary.rates)
    (observedAt : Nat → Instant) :
    Ramping bootstrap growth
      { s with
        calibrations := recordCalibrations j.job j.bench observedAt summary s.calibrations
        climbs := ⟨j.job, j.bench, s.policy.maxPercentL1⟩ :: s.climbs } := by
  have hbound : ∀ bench, bootstrap * growth ^ height s.climbs bench ≤
      bootstrap * growth ^ height (⟨j.job, j.bench, s.policy.maxPercentL1⟩ :: s.climbs) bench :=
    fun bench => bound_mono hbootstrap hone (height_cons_le _ _ bench)
  refine ⟨h.policy, fun j' hj' => ⟨(h.waiting j' hj').1, (h.waiting j' hj').2.trans (hbound _)⟩, ?_⟩
  refine ⟨.cons h.rules.climbing (h.rules.admitted j hj), fun key row hrow => ?_,
    fun j' hj' => (h.rules.admitted j' hj').trans (hbound _)⟩
  rcases get_foldl_record hrow with hold | ⟨hoffered, -⟩
  · obtain ⟨c, hc, hmeasured⟩ := h.rules.measured key row hold
    exact ⟨c, List.mem_cons_of_mem _ hc, hmeasured⟩
  · obtain ⟨hjob, hkey, hle⟩ := of_mem_offeredCalibrations hrates hoffered
    exact ⟨_, List.mem_cons_self, hjob.symm, hkey, hle⟩

theorem Ramping.step (hbootstrap : 0 ≤ bootstrap) (h : Ramping bootstrap growth s)
    (a : RampAction σ) (ha : s.Steady bootstrap growth a) : Ramping bootstrap growth (s.step a) := by
  have hone : 1 ≤ growth := s.policy.growthFactor.1.trans h.policy.2
  cases a with
  | configure policy => exact h.configure ha.1 ha.2.1 ha.2.2
  | accept job document environmentKey now =>
    simp only [Ramp.step]
    split
    · rename_i hgate
      exact h.accept rfl (gate_le hbootstrap h.rules hone h.policy.1 h.policy.2 ha hgate)
    · exact h
  | complete i device memory session environmentKey observedAt =>
    simp only [Ramp.step]
    split
    · exact h
    · rename_i j hj
      have hmem := List.mem_of_getElem? hj
      have hsub : ∀ j' ∈ s.admitted.eraseIdx i, j' ∈ s.admitted := fun j' hj' =>
        List.mem_of_mem_eraseIdx hj'
      split
      · exact h.drop hsub
      · rename_i measurement hrun
        split
        · exact h.drop hsub
        · rename_i summary hrecorded
          rw [ha j hj]
          exact (h.record hbootstrap hone hmem (recorded_le hrun hrecorded) observedAt).drop hsub

/-- In a steady run the ramp is never climbed faster than the growth factor allows: the `n + 1`-st run
that is recorded on a bench went at most to the bootstrap ceiling times the `n`-th power of the factor,
every calibration was measured by such a run, and no job that is let through may go further. -/
theorem ramp_rules (hbootstrap : 0 ≤ bootstrap) (h : Ramp.Reach σ bootstrap growth s) :
    RampRules bootstrap growth s := by
  have hramping : Ramping bootstrap growth s := by
    induction h with
    | start hpolicy hfactor => exact .start hpolicy hfactor
    | step _ a ha ih => exact ih.step hbootstrap a ha
  exact hramping.rules

end Steps

/-! ### From 0.01 % to 0.1 % -/

namespace Lab

theorem tenfold : (1 : ℚ) ≤ 10 ∧ (10 : ℚ) ≤ 10 := by norm_num

theorem tenth : (0 : ℚ) < 1 / 10 ∧ (1 / 10 : ℚ) ≤ 100 := by norm_num

theorem hundredth : (0 : ℚ) < 1 / 100 ∧ (1 / 100 : ℚ) ≤ 100 := by norm_num

end Lab

/-- A policy with this ceiling that may grow by a factor of ten. -/
def rampPolicy (ceiling : ℚ) (h : 0 < ceiling ∧ ceiling ≤ 100) : SafetyPolicy :=
  { weeklyPolicy with
    maxPercentL1 := ceiling
    maxCalibrationGrowthFactor := 10
    percentL1 := h
    growthFactor := Lab.tenfold }

/-- A device that loses nothing, counted by flow statistics. -/
def losslessDevice : SuiteDevice Unit where
  continuous _ _ := pure
    { lost 0 with
      details := .obj [("directions", .arr [.obj [("counterSource", .str "flow-stats")]])] }
  tagged _ _ _ _ := pure ⟨true, some 1, .null⟩
  burst _ _ _ _ := Effect.throw (.exception "TRexError")

/-- A strict run under the bootstrap ceiling, and one under ten times that ceiling. -/
def twoClimbs : List (RampAction Unit) :=
  [.accept 1 (.throughput strictSpec) "lab" 0,
    .complete 0 losslessDevice () ⟨10000000000, none, 500, [true, true], none⟩ "lab" fun _ => 5,
    .configure (rampPolicy (1 / 10) Lab.tenth),
    .accept 2 (.throughput strictSpec) "lab" 6,
    .complete 0 losslessDevice () ⟨10000000000, none, 500, [true, true], none⟩ "lab" fun _ => 9]

theorem ramp_rules_twoClimbs :
    RampRules (1 / 100) 10 (twoClimbs.foldl Ramp.step (.start (rampPolicy (1 / 100) Lab.hundredth))) ∧
      (twoClimbs.foldl Ramp.step (.start (rampPolicy (1 / 100) Lab.hundredth))).climbs.map
        Climb.ceiling = [1 / 10, 1 / 100] := by
  refine ⟨ramp_rules (by norm_num) ((Ramp.Reach.start ?_ ?_).run ?_), ?_⟩
  · decide +kernel
  · decide +kernel
  · decide +kernel
  · decide +kernel

end TrexCli.Rfc2544
