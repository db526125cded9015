import Mathlib.Data.List.Induction
import Mathlib.Tactic.NormNum
import TrexCli.Lib.Table
import TrexCli.Policy.Safety

/-!
# Calibrations

A strict RFC2544 run requires, for each standard frame size, a calibration that is marker-isolated,
fresh and high enough. The store keeps one row for each environment, port pair, direction and frame
size, and an observation replaces the row only if its ceiling is higher: the row is the first of the
highest observations (`get_recordAll`), whatever its counter mode and its age.
-/

namespace TrexCli

/-- The primary key of `calibrations`. -/
structure CalibrationKey where
  environmentKey : String
  txPort : PortId
  rxPort : PortId
  direction : Direction
  frameSize : Nat
  deriving DecidableEq

/-- A row of `calibrations`. -/
structure Calibration where
  key : CalibrationKey
  ceilingPercentL1 : ℚ
  counterMode : String
  sourceJobId : JobId
  observedAt : Instant
  deriving DecidableEq

abbrev Calibrations := Table CalibrationKey Calibration Calibration.key

namespace Calibrations

/-- `_record_calibration_sync` -/
def record (t : Calibrations) (c : Calibration) : Calibrations :=
  match t.get c.key with
  | none => t.insertOrIgnore c
  | some old => if c.ceilingPercentL1 > old.ceilingPercentL1 then t.upsert c else t

/-- A history of `record_calibration` calls, on a new database. -/
def recordAll (history : List Calibration) : Calibrations := history.foldl record .empty

/-- `_get_calibrations_sync`: the rows by frame size. -/
def getCalibrations (t : Calibrations) (environmentKey : String) (ports : Ports)
    (frameSize : Nat) : Option Calibration :=
  t.get ⟨environmentKey, ports.tx, ports.rx, ports.direction, frameSize⟩

end Calibrations

/-- The counter mode `_record_calibrations` derives from the counter sources of a frame's trials. -/
def counterModeOf (counterSources : List String) : String :=
  if counterSources ≠ [] ∧ ∀ s ∈ counterSources, s = "flow-stats" then "flow-stats"
  else "exclusive-port-fallback"

/-- The details of `CALIBRATION_REQUIRED`. -/
structure CalibrationGaps where
  missingFrameSizes : List Nat
  unreliableFrameSizes : List Nat
  staleFrameSizes : List Nat
  insufficientCeilingFrameSizes : List Nat
  requiredCeilingPercentL1 : ℚ
  minimumPriorCeilingPercentL1 : ℚ
  maxCalibrationGrowthFactor : ℚ
  environmentKey : String

namespace SafetyPolicy

variable (policy : SafetyPolicy)

def minimumPriorCeiling : ℚ := policy.maxPercentL1 / policy.maxCalibrationGrowthFactor

def unreliable (c : Calibration) : Bool := c.counterMode ≠ "flow-stats"

def insufficient (c : Calibration) : Bool := c.ceilingPercentL1 < policy.minimumPriorCeiling

/-- The age may be negative, when the clock was set back. -/
def stale (now : Instant) (c : Calibration) : Bool :=
  (now : Int) - c.observedAt > policy.maxCalibrationAge

end SafetyPolicy

/-- The standard frame sizes. -/
def standardFrameSizes : List Nat := [64, 128, 256, 512, 1024, 1280, 1518]

/-- `_validate_calibration`, for a document in strict mode or not, on an engine that is simulated or
not. -/
def validateCalibration (policy : SafetyPolicy) (strict simulated : Bool) (t : Calibrations)
    (environmentKey : String) (ports : Ports) (now : Instant) : Except CalibrationGaps Unit :=
  if !strict || simulated then .ok ()
  else if policy.maxPercentL1 ≤ policy.calibrationBootstrapMaxPercentL1 then .ok ()
  else
    let records := t.getCalibrations environmentKey ports
    let failing (p : Calibration → Bool) := standardFrameSizes.filter fun n => (records n).any p
    let missing := standardFrameSizes.filter fun n => (records n).isNone
    let unreliable := failing SafetyPolicy.unreliable
    let insufficient := failing policy.insufficient
    let stale := failing (policy.stale now)
    if missing ≠ [] ∨ unreliable ≠ [] ∨ stale ≠ [] ∨ insufficient ≠ [] then
      .error
        { missingFrameSizes := missing
          unreliableFrameSizes := unreliable
          staleFrameSizes := stale
          insufficientCeilingFrameSizes := insufficient
          requiredCeilingPercentL1 := policy.maxPercentL1
          minimumPriorCeilingPercentL1 := policy.minimumPriorCeiling
          maxCalibrationGrowthFactor := policy.maxCalibrationGrowthFactor
          environmentKey }
    else .ok ()

/-- The observation was taken with marker-isolated counters and is not too old. -/
def SafetyPolicy.Trusted (policy : SafetyPolicy) (now : Instant) (c : Calibration) : Prop :=
  c.counterMode = "flow-stats" ∧ (now : Int) - c.observedAt ≤ policy.maxCalibrationAge

/-- What `_validate_calibration` requires of a frame size's row. -/
def SafetyPolicy.Qualifies (policy : SafetyPolicy) (now : Instant) (c : Calibration) : Prop :=
  policy.Trusted now c ∧ policy.minimumPriorCeiling ≤ c.ceilingPercentL1

/-- The check passes exactly when every standard frame size has a row that qualifies. -/
theorem validateCalibration_eq_ok {policy : SafetyPolicy} {t : Calibrations}
    {environmentKey : String} {ports : Ports} {now : Instant}
    (hgate : policy.calibrationBootstrapMaxPercentL1 < policy.maxPercentL1) :
    validateCalibration policy true false t environmentKey ports now = .ok () ↔
      ∀ n ∈ standardFrameSizes, ∃ row, t.getCalibrations environmentKey ports n = some row ∧
        policy.Qualifies now row := by
  have hrow : ∀ n, (∃ row, t.getCalibrations environmentKey ports n = some row ∧
      policy.Qualifies now row) ↔
      (t.getCalibrations environmentKey ports n).isNone = false ∧
      (t.getCalibrations environmentKey ports n).any SafetyPolicy.unreliable = false ∧
      (t.getCalibrations environmentKey ports n).any (policy.stale now) = false ∧
      (t.getCalibrations environmentKey ports n).any policy.insufficient = false := by
    intro n
    cases t.getCalibrations environmentKey ports n with
    | none => simp
    | some row =>
      simp [SafetyPolicy.Qualifies, SafetyPolicy.Trusted, SafetyPolicy.unreliable,
        SafetyPolicy.stale, SafetyPolicy.insufficient, and_assoc]
  simp only [hrow]
  unfold validateCalibration
  rw [if_neg (by simp), if_neg (not_le.mpr hgate)]
  dsimp only
  split
  · rename_i hgap
    simp only [reduceCtorEq, false_iff]
    intro hall
    simp only [ne_eq, List.filter_eq_nil_iff, not_forall, Bool.not_eq_true] at hgap
    rcases hgap with ⟨n, hn, h⟩ | ⟨n, hn, h⟩ | ⟨n, hn, h⟩ | ⟨n, hn, h⟩
    · exact h (hall n hn).1
    · exact h (hall n hn).2.1
    · exact h (hall n hn).2.2.1
    · exact h (hall n hn).2.2.2
  · rename_i hgap
    simp only [ne_eq, not_or, not_not, List.filter_eq_nil_iff, Bool.not_eq_true] at hgap
    simp only [true_iff]
    exact fun n hn => ⟨hgap.1 n hn, hgap.2.1 n hn, hgap.2.2.1 n hn, hgap.2.2.2 n hn⟩

/-! ### The stored row -/

/-- Among the observations of its key, `c` is the first of the highest. -/
def Leads (history : List Calibration) (c : Calibration) : Prop :=
  ∃ earlier later, history = earlier ++ c :: later ∧
    (∀ o ∈ earlier, o.key = c.key → o.ceilingPercentL1 < c.ceilingPercentL1) ∧
    ∀ o ∈ later, o.key = c.key → o.ceilingPercentL1 ≤ c.ceilingPercentL1

namespace Leads

variable {history : List Calibration} {c o : Calibration}

theorem mem (h : Leads history c) : c ∈ history := by
  obtain ⟨earlier, later, rfl, -⟩ := h
  simp

theorem le (h : Leads history c) (ho : o ∈ history) (hkey : o.key = c.key) :
    o.ceilingPercentL1 ≤ c.ceilingPercentL1 := by
  obtain ⟨earlier, later, rfl, hearlier, hlater⟩ := h
  rcases List.mem_append.mp ho with ho | ho
  · exact (hearlier o ho hkey).le
  · rcases List.mem_cons.mp ho with rfl | ho
    · exact le_rfl
    · exact hlater o ho hkey

private theorem unique_aux {earlier later earlier' later' : List Calibration}
    (h : history = earlier ++ c :: later) (h' : history = earlier' ++ o :: later')
    (hc : ∀ x ∈ earlier, x.key = c.key → x.ceilingPercentL1 < c.ceilingPercentL1)
    (ho : ∀ x ∈ earlier', x.key = o.key → x.ceilingPercentL1 < o.ceilingPercentL1)
    (hkey : c.key = o.key) (hceiling : c.ceilingPercentL1 = o.ceilingPercentL1) : c = o := by
  rcases List.append_eq_append_iff.mp (h.symm.trans h') with ⟨m, rfl, hm⟩ | ⟨m, rfl, hm⟩
  · cases m with
    | nil => exact (List.cons.inj hm).1
    | cons x m =>
      obtain ⟨rfl, -⟩ := List.cons.inj hm
      exact absurd hceiling (ho c (by simp) hkey).ne
  · cases m with
    | nil => exact (List.cons.inj hm).1.symm
    | cons x m =>
      obtain ⟨rfl, -⟩ := List.cons.inj hm
      exact absurd hceiling.symm (hc o (by simp) hkey.symm).ne

/-- A key has one leader. -/
theorem unique (h : Leads history c) (h' : Leads history o) (hkey : c.key = o.key) : c = o := by
  have hceiling := le_antisymm (h'.le h.mem hkey) (h.le h'.mem hkey.symm)
  obtain ⟨earlier, later, heq, hearlier, -⟩ := h
  obtain ⟨earlier', later', heq', hearlier', -⟩ := h'
  exact unique_aux heq heq' hearlier hearlier' hkey hceiling

theorem concat (h : Leads history c)
    (hle : o.key = c.key → o.ceilingPercentL1 ≤ c.ceilingPercentL1) :
    Leads (history ++ [o]) c := by
  obtain ⟨earlier, later, rfl, hearlier, hlater⟩ := h
  refine ⟨earlier, later ++ [o], by simp, hearlier, fun x hx hkey => ?_⟩
  rcases List.mem_append.mp hx with hx | hx
  · exact hlater x hx hkey
  · obtain rfl := List.mem_singleton.mp hx
    exact hle hkey

theorem concat_self (hlt : ∀ x ∈ history, x.key = o.key → x.ceilingPercentL1 < o.ceilingPercentL1) :
    Leads (history ++ [o]) o :=
  ⟨history, [], rfl, hlt, by simp⟩

end Leads

namespace Calibrations

theorem get_record (t : Calibrations) (c : Calibration) (key : CalibrationKey) :
    (t.record c).get key =
      if c.key = key ∧ ∀ old, t.get key = some old → old.ceilingPercentL1 < c.ceilingPercentL1
      then some c else t.get key := by
  unfold record
  cases hget : t.get c.key with
  | none =>
    rw [Table.get_insertOrIgnore]
    by_cases hkey : c.key = key
    · subst hkey
      simp [hget]
    · rw [if_neg hkey, if_neg fun h => hkey h.1]
  | some old =>
    by_cases hhigher : c.ceilingPercentL1 > old.ceilingPercentL1
    · simp only [if_pos hhigher, Table.get_upsert]
      by_cases hkey : c.key = key
      · subst hkey
        have hall : ∀ old', t.get c.key = some old' →
            old'.ceilingPercentL1 < c.ceilingPercentL1 := fun old' hold' =>
          Option.some.inj (hget.symm.trans hold') ▸ hhigher
        rw [if_pos rfl, if_pos ⟨rfl, hall⟩]
      · rw [if_neg hkey, if_neg fun h => hkey h.1]
    · simp only [if_neg hhigher]
      rw [if_neg]
      rintro ⟨rfl, h⟩
      exact hhigher (h old hget)

theorem recordAll_concat (history : List Calibration) (c : Calibration) :
    recordAll (history ++ [c]) = (recordAll history).record c := by
  rw [recordAll, List.foldl_append]
  rfl

/-- The stored row of a key is there once something was observed, and is the first of the highest
observations. -/
theorem get_recordAll (history : List Calibration) (key : CalibrationKey) :
    match (recordAll history).get key with
    | none => ∀ c ∈ history, c.key ≠ key
    | some row => row.key = key ∧ Leads history row := by
  induction history using List.reverseRecOn with
  | nil => simp [recordAll]
  | append_singleton history c ih =>
    rw [recordAll_concat, get_record]
    cases hget : (recordAll history).get key with
    | none =>
      rw [hget] at ih
      by_cases hkey : c.key = key
      · simp only [hkey, reduceCtorEq, false_implies, implies_true, and_self, if_true, true_and]
        exact Leads.concat_self fun x hx hxkey => absurd (hxkey.trans hkey) (ih x hx)
      · simp only [hkey, false_and, if_false]
        intro x hx
        rcases List.mem_append.mp hx with hx | hx
        · exact ih x hx
        · exact List.mem_singleton.mp hx ▸ hkey
    | some row =>
      rw [hget] at ih
      obtain ⟨hrow, hleads⟩ := ih
      by_cases hnew : c.key = key ∧ row.ceilingPercentL1 < c.ceilingPercentL1
      · have hcond : c.key = key ∧ ∀ old, some row = some old →
            old.ceilingPercentL1 < c.ceilingPercentL1 :=
          ⟨hnew.1, fun old hold => Option.some.inj hold ▸ hnew.2⟩
        rw [if_pos hcond]
        refine ⟨hnew.1, Leads.concat_self fun x hx hxkey => ?_⟩
        exact (hleads.le hx (hxkey.trans (hnew.1.trans hrow.symm))).trans_lt hnew.2
      · rw [if_neg fun h => hnew ⟨h.1, h.2 row rfl⟩]
        refine ⟨hrow, hleads.concat fun hkey => ?_⟩
        exact not_lt.mp fun hlt => hnew ⟨hkey.trans hrow, hlt⟩

end Calibrations

namespace SafetyPolicy

/-- A qualifying observation of a key is not lost: the stored row of the key qualifies too. -/
def GateKept (policy : SafetyPolicy) (history : List Calibration) (key : CalibrationKey)
    (now : Instant) : Prop :=
  (∃ c ∈ history, c.key = key ∧ policy.Qualifies now c) →
    ∃ row, (Calibrations.recordAll history).get key = some row ∧ policy.Qualifies now row

/-- No observation of the key qualifies, or the first of the highest ones is trusted. -/
def LeaderTrusted (policy : SafetyPolicy) (history : List Calibration) (key : CalibrationKey)
    (now : Instant) : Prop :=
  (∀ c ∈ history, c.key = key → ¬ policy.Qualifies now c) ∨
    ∃ c, c.key = key ∧ Leads history c ∧ policy.Trusted now c

end SafetyPolicy

/-- The store keeps the gate open exactly when the first of the highest observations, which is the
one it keeps, is marker-isolated and fresh. -/
theorem gateKept_iff_leaderTrusted (policy : SafetyPolicy) (history : List Calibration)
    (key : CalibrationKey) (now : Instant) :
    policy.GateKept history key now ↔ policy.LeaderTrusted history key now := by
  have hstored := Calibrations.get_recordAll history key
  constructor
  · intro h
    by_cases hq : ∃ c ∈ history, c.key = key ∧ policy.Qualifies now c
    · obtain ⟨row, hrow, hqual⟩ := h hq
      rw [hrow] at hstored
      exact .inr ⟨row, hstored.1, hstored.2, hqual.1⟩
    · left
      intro c hc hkey hqual
      exact hq ⟨c, hc, hkey, hqual⟩
  · rintro (hnone | ⟨leader, hkey, hleads, htrusted⟩) ⟨c, hc, hckey, hqual⟩
    · exact absurd hqual (hnone c hc hckey)
    · cases hget : (Calibrations.recordAll history).get key with
      | none =>
        rw [hget] at hstored
        exact absurd hckey (hstored c hc)
      | some row =>
        rw [hget] at hstored
        obtain rfl := hstored.2.unique hleads (hstored.1.trans hkey.symm)
        exact ⟨row, rfl, htrusted, hqual.2.trans (hleads.le hc (hckey.trans hkey.symm))⟩

/-- The key of the two observations below. -/
def labKey : CalibrationKey := ⟨"lab", 0, 1, .unidirectional, 64⟩

/-- Two runs in which every rate up to the full line rate passes, eight days apart. -/
def repeatedCalibration : List Calibration :=
  [⟨labKey, 100, "flow-stats", 1, 0⟩, ⟨labKey, 100, "flow-stats", 2, 691200000⟩]

/-- A policy that asks for the full line rate and for calibrations of at most a week. -/
def weeklyPolicy : SafetyPolicy where
  version := "1"
  allowedCidrs := []
  allowedMacPrefixes := []
  allowArbitraryUnicastMac := true
  maxJobTimeout := 28800000
  maxPortWaitTimeout := 600000
  maxRunDuration := 120000
  maxBurstPackets := 10000000
  maxPercentL1 := 100
  maxPps := 100000000
  maxBpsL1 := 100000000000
  maxBpsL2 := 100000000000
  maxCps := 1000000
  maxActiveConnections := 10000000
  maxAddressPoolSize := 65536
  calibrationBootstrapMaxPercentL1 := 1 / 100
  maxCalibrationGrowthFactor := 1
  maxCalibrationAge := 604800000
  percentL1 := Lab.percentL1_bounds
  growthFactor := Lab.no_growth
  prefixes := Lab.arbitrary_prefixes

/-- The second run qualifies, and the store keeps the first: an observation that is not higher never
refreshes the row. -/
theorem not_gateKept_repeatedCalibration :
    repeatedCalibration.Pairwise (fun a b => a.observedAt ≤ b.observedAt) ∧
      ¬ weeklyPolicy.GateKept repeatedCalibration labKey 691200000 := by
  refine ⟨by decide, fun h => ?_⟩
  have hfirst : (Calibrations.recordAll repeatedCalibration).get labKey =
      some ⟨labKey, 100, "flow-stats", 1, 0⟩ := by
    decide +kernel
  obtain ⟨row, hrow, ⟨-, hage⟩, -⟩ := h ⟨⟨labKey, 100, "flow-stats", 2, 691200000⟩,
    by simp [repeatedCalibration], rfl, ⟨rfl, by decide⟩,
    by norm_num [SafetyPolicy.minimumPriorCeiling, weeklyPolicy]⟩
  obtain rfl := Option.some.inj (hfirst.symm.trans hrow)
  exact absurd hage (by decide)

end TrexCli
