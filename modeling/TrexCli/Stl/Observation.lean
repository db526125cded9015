import Mathlib.Algebra.BigOperators.Group.List.Basic
import TrexCli.Traffic.Admission

/-!
# Observation of a trial

`_observe_trial` of the remote STL engine: from the counters of the ports and of the flows, what each
direction sent and received, and whether the trial is valid. A direction whose flow counters do not
agree with its ports is reported with the counters of its ports if the fallback is allowed, and these
may show more frames received than sent. The loss of a trial is a difference of totals, so such a
surplus hides the loss of another direction (`perDirection_iff`).
-/

namespace TrexCli.Observation

/-- `_Direction` -/
structure StreamDirection where
  name : String
  txPort : Nat
  rxPort : Nat
  pgId : Nat
  packet : Packet
  rate : Rate
  reverse : Bool := false

/-- The packets of a flow by port; a port without a counter has zero. -/
structure FlowCounters where
  txPkts : Nat → Int
  rxPkts : Nat → Int

/-- The counters of a port. -/
structure PortCounters where
  opackets : Int
  ipackets : Int
  ierrors : Int
  oerrors : Int

/-- What the client says after a trial; a flow without an entry, or with an empty one, is none. -/
structure TrialCounters where
  ports : Nat → PortCounters
  flows : Nat → Option FlowCounters
  rxErrors : Int
  txErrors : Int
  warnings : List String
  up : Nat → Bool
  owner : Nat → String

/-- What a trial reads of its `_Session`. -/
structure TrialSession where
  ports : List Nat
  owner : String
  lineRatesBps : Nat → ℚ
  baselineClean : Bool

inductive CounterSource where
  | flowStats | exclusivePortFallback
  deriving DecidableEq, Repr

/-- A direction of the details. -/
structure DirectionObservation where
  name : String
  txPort : Nat
  rxPort : Nat
  pgId : Nat
  expectedTxFrames : ℚ
  txFrames : Int
  rxFrames : Int
  lossFrames : Int
  targetRateReached : Bool
  counterSource : CounterSource
  flowStatsConsistent : Bool
  unclassifiedRxFrames : Int
  portCountersSupportFlowStats : Bool
  markerLossSupportedByPortCounters : Bool

/-- The checks of the details. -/
structure TrialChecks where
  ownershipHeld : Bool
  linksUp : Bool
  targetRateReached : Bool
  trexErrorsAbsent : Bool
  flowStatsPresent : Bool
  testFramesIsolated : Bool
  countersReset : Bool
  receivePathHealthy : Bool

/-- `all(checks.values())` -/
def TrialChecks.all (checks : TrialChecks) : Bool :=
  checks.ownershipHeld && checks.linksUp && checks.targetRateReached && checks.trexErrorsAbsent &&
    checks.flowStatsPresent && checks.testFramesIsolated && checks.countersReset &&
    checks.receivePathHealthy

/-- The `details` of an observation. -/
structure TrialDetails where
  checks : TrialChecks
  directions : List DirectionObservation
  warnings : List String
  portErrors : Int
  flowStatErrors : Int
  portFallbackAllowed : Bool

/-- The `TrialObservation` of a trial. -/
structure ObservedTrial where
  valid : Bool
  lossFrames : Int
  txFrames : Int
  rxFrames : Int
  targetRateReached : Bool
  details : TrialDetails

/-- `_expected_stream_frames` -/
def expectedStreamFrames (spec : StatelessTrafficSpec) (packet : Packet) (rate : Rate)
    (lineRateBps : ℚ) : ℚ :=
  match spec.burstPackets with
  | some packets => packets
  | none => ratePps packet.frameSize rate lineRateBps * (spec.duration.getD 0 / 1000)

section Counters

variable (counters : TrialCounters) (directions : List StreamDirection)

/-- The frames a direction sent, by its flow. -/
def flowTx (d : StreamDirection) : Int := (counters.flows d.pgId).elim 0 fun flow => flow.txPkts d.txPort

/-- The frames a direction received, by its flow. -/
def flowRx (d : StreamDirection) : Int := (counters.flows d.pgId).elim 0 fun flow => flow.rxPkts d.rxPort

/-- The frames the port of a direction sent. -/
def rawTx (d : StreamDirection) : Int := (counters.ports d.txPort).opackets

/-- The frames the port of a direction received. -/
def rawRx (d : StreamDirection) : Int := (counters.ports d.rxPort).ipackets

/-- `classified_tx_by_port` -/
def classifiedTxByPort (port : Nat) : Int :=
  ((directions.filter fun d => d.txPort = port).map (flowTx counters)).sum

/-- `classified_rx_by_port` -/
def classifiedRxByPort (port : Nat) : Int :=
  ((directions.filter fun d => d.rxPort = port).map (flowRx counters)).sum

/-- `port_counters_support_flow` -/
def portCountersSupportFlow (d : StreamDirection) : Bool :=
  rawTx counters d = classifiedTxByPort counters directions d.txPort &&
    decide (classifiedRxByPort counters directions d.rxPort ≤ rawRx counters d) &&
    decide (flowRx counters d ≤ flowTx counters d)

/-- `marker_loss_supported_by_port` -/
def markerLossSupportedByPort (d : StreamDirection) : Bool :=
  max 0 (flowTx counters d - flowRx counters d) = 0 ||
    decide (rawRx counters d <
      ((directions.filter fun item => item.rxPort = d.rxPort).map (flowTx counters)).sum)

/-- `flow_consistent` -/
def flowConsistent (d : StreamDirection) : Bool :=
  (counters.flows d.pgId).isSome && portCountersSupportFlow counters directions d &&
    markerLossSupportedByPort counters directions d

variable (allowPortFallback : Bool)

/-- The counters that are reported are those of the ports. -/
def fallsBack (d : StreamDirection) : Bool := !flowConsistent counters directions d && allowPortFallback

/-- The frames a direction is reported to have sent. -/
def reportedTx (d : StreamDirection) : Int :=
  if fallsBack counters directions allowPortFallback d then rawTx counters d else flowTx counters d

/-- The frames a direction is reported to have received. -/
def reportedRx (d : StreamDirection) : Int :=
  if fallsBack counters directions allowPortFallback d then rawRx counters d else flowRx counters d

variable (session : TrialSession) (spec : StatelessTrafficSpec)

/-- A direction of `_observe_trial`. -/
def observeDirection (d : StreamDirection) : DirectionObservation :=
  let expected := expectedStreamFrames spec d.packet d.rate (session.lineRatesBps d.txPort)
  let tx := reportedTx counters directions allowPortFallback d
  let rx := reportedRx counters directions allowPortFallback d
  { name := d.name
    txPort := d.txPort
    rxPort := d.rxPort
    pgId := d.pgId
    expectedTxFrames := expected
    txFrames := tx
    rxFrames := rx
    lossFrames := max 0 (tx - rx)
    targetRateReached := max 1 (expected * 995 / 1000) ≤ (tx : ℚ)
    counterSource :=
      if fallsBack counters directions allowPortFallback d then .exclusivePortFallback else .flowStats
    flowStatsConsistent := flowConsistent counters directions d
    unclassifiedRxFrames :=
      max 0 (rawRx counters d - classifiedRxByPort counters directions d.rxPort)
    portCountersSupportFlowStats := portCountersSupportFlow counters directions d
    markerLossSupportedByPortCounters := markerLossSupportedByPort counters directions d }

/-- `_observe_trial`, for the directions of the session or of the document -/
def observeTrial : ObservedTrial :=
  let observed :=
    directions.map (observeDirection counters directions allowPortFallback session spec)
  let targetsReached := observed.all fun direction => direction.targetRateReached
  let flowStatsPresent := directions.all fun d => (counters.flows d.pgId).isSome
  let classificationReliable := observed.all fun direction => direction.flowStatsConsistent
  let txTotal := (observed.map fun direction => direction.txFrames).sum
  let rxTotal := (observed.map fun direction => direction.rxFrames).sum
  let portErrors :=
    (session.ports.map fun port => (counters.ports port).ierrors + (counters.ports port).oerrors).sum
  let flowErrors := counters.rxErrors + counters.txErrors
  let checks : TrialChecks :=
    { ownershipHeld := session.ports.all fun port => counters.owner port = session.owner
      linksUp := session.ports.all counters.up
      targetRateReached := targetsReached
      trexErrorsAbsent := counters.warnings.isEmpty && portErrors = 0 && flowErrors = 0
      flowStatsPresent := flowStatsPresent || allowPortFallback
      testFramesIsolated := classificationReliable || allowPortFallback
      countersReset := session.baselineClean
      receivePathHealthy := portErrors = 0 }
  { valid := checks.all
    lossFrames := max 0 (txTotal - rxTotal)
    txFrames := txTotal
    rxFrames := rxTotal
    targetRateReached := targetsReached
    details := ⟨checks, observed, counters.warnings, portErrors, flowErrors, allowPortFallback⟩ }

end Counters

/-! ### Losses and surpluses -/

/-- The positive parts of numbers add up to zero when none is positive. -/
theorem sum_max_zero (xs : List Int) :
    0 ≤ (xs.map (max 0)).sum ∧ ((xs.map (max 0)).sum = 0 ↔ ¬∃ x ∈ xs, 0 < x) := by
  induction xs with
  | nil => simp
  | cons x xs ih =>
    obtain ⟨hnonneg, hzero⟩ := ih
    simp only [List.sum_cons, List.map_cons, List.exists_mem_cons_iff, not_or, ← hzero]
    omega

/-- The positive part of a sum is the sum of the positive parts when no sign is mixed with the other. -/
theorem max_zero_sum_eq_iff (xs : List Int) :
    max 0 xs.sum = (xs.map (max 0)).sum ↔ ¬((∃ x ∈ xs, x < 0) ∧ ∃ x ∈ xs, 0 < x) := by
  have hparts : xs.sum = (xs.map (max 0)).sum - ((xs.map Neg.neg).map (max 0)).sum := by
    induction xs with
    | nil => rfl
    | cons x xs ih =>
      simp only [List.sum_cons, List.map_cons]
      omega
  have hnegative : (∃ x ∈ xs.map Neg.neg, 0 < x) ↔ ∃ x ∈ xs, x < 0 := by
    simp only [List.mem_map, exists_exists_and_eq_and, neg_pos]
  obtain ⟨hgain, hgainZero⟩ := sum_max_zero xs
  obtain ⟨hloss, hlossZero⟩ := sum_max_zero (xs.map Neg.neg)
  rw [not_and_or, ← hgainZero, ← hnegative, ← hlossZero, hparts]
  omega

section Observed

variable {counters : TrialCounters} {directions : List StreamDirection} {allowPortFallback : Bool}
  {session : TrialSession} {spec : StatelessTrafficSpec}

/-- The loss of a trial is what its directions lost, and a trial without loss has none in any of
them. -/
structure PerDirection (trial : ObservedTrial) : Prop where
  sum : trial.lossFrames = (trial.details.directions.map fun direction => direction.lossFrames).sum
  lossless : trial.lossFrames = 0 → ∀ direction ∈ trial.details.directions, direction.lossFrames = 0

/-- A direction that is reported by its ports received more than it sent, and another lost frames. -/
def Masked (counters : TrialCounters) (directions : List StreamDirection) (allowPortFallback : Bool) :
    Prop :=
  (∃ d ∈ directions, fallsBack counters directions allowPortFallback d = true ∧
    rawTx counters d < rawRx counters d) ∧
  ∃ d ∈ directions, reportedRx counters directions allowPortFallback d <
    reportedTx counters directions allowPortFallback d

/-- A consistent flow received no more than it sent. -/
theorem flowRx_le_flowTx {d : StreamDirection} (h : flowConsistent counters directions d = true) :
    flowRx counters d ≤ flowTx counters d := by
  simp only [flowConsistent, portCountersSupportFlow, Bool.and_eq_true, decide_eq_true_eq] at h
  exact h.1.2.2

/-- In a valid trial only the ports of a direction show a surplus. -/
theorem surplus_iff (hvalid : (observeTrial counters directions allowPortFallback session spec).valid =
      true) {d : StreamDirection} (hd : d ∈ directions) :
    reportedTx counters directions allowPortFallback d <
        reportedRx counters directions allowPortFallback d ↔
      fallsBack counters directions allowPortFallback d = true ∧ rawTx counters d < rawRx counters d := by
  cases hfalls : fallsBack counters directions allowPortFallback d with
  | true => simp [reportedTx, reportedRx, hfalls]
  | false =>
    have hconsistent : flowConsistent counters directions d = true := by
      simp only [observeTrial, TrialChecks.all, Bool.and_eq_true, Bool.or_eq_true] at hvalid
      rcases hvalid.1.1.2 with hreliable | hallowed
      · rw [List.all_eq_true] at hreliable
        exact hreliable _ (List.mem_map_of_mem hd)
      · simpa [fallsBack, hallowed] using hfalls
    have hle := flowRx_le_flowTx hconsistent
    simp only [reportedTx, reportedRx, hfalls]
    simpa using hle

/-- The loss of a trial, and those of its directions, from what they are reported to have sent and
received. -/
theorem lossFrames_eq :
    (observeTrial counters directions allowPortFallback session spec).lossFrames =
      max 0 (directions.map fun d => reportedTx counters directions allowPortFallback d -
        reportedRx counters directions allowPortFallback d).sum := by
  have hsub : ∀ ds : List StreamDirection,
      (ds.map (reportedTx counters directions allowPortFallback)).sum -
        (ds.map (reportedRx counters directions allowPortFallback)).sum =
      (ds.map fun d => reportedTx counters directions allowPortFallback d -
        reportedRx counters directions allowPortFallback d).sum := by
    intro ds
    induction ds with
    | nil => rfl
    | cons d ds ih =>
      simp only [List.map_cons, List.sum_cons, ← ih]
      omega
  simp only [observeTrial, List.map_map]
  rw [← hsub]
  rfl

theorem directions_lossFrames_eq :
    ((observeTrial counters directions allowPortFallback session spec).details.directions.map
        fun direction => direction.lossFrames) =
      (directions.map fun d => reportedTx counters directions allowPortFallback d -
        reportedRx counters directions allowPortFallback d).map (max 0) := by
  simp only [observeTrial, List.map_map]
  rfl

end Observed

/-- The loss of a valid observation is the loss of its directions exactly when no surplus that the
fallback reports in one direction meets a loss in another. -/
theorem perDirection_iff (counters : TrialCounters) (directions : List StreamDirection)
    (allowPortFallback : Bool) (session : TrialSession) (spec : StatelessTrafficSpec)
    (hvalid : (observeTrial counters directions allowPortFallback session spec).valid = true) :
    PerDirection (observeTrial counters directions allowPortFallback session spec) ↔
      ¬Masked counters directions allowPortFallback := by
  have hmasked : Masked counters directions allowPortFallback ↔
      (∃ x ∈ directions.map fun d => reportedTx counters directions allowPortFallback d -
          reportedRx counters directions allowPortFallback d, x < 0) ∧
        ∃ x ∈ directions.map fun d => reportedTx counters directions allowPortFallback d -
          reportedRx counters directions allowPortFallback d, 0 < x := by
    simp only [List.mem_map, exists_exists_and_eq_and]
    refine and_congr (exists_congr fun d => and_congr_right fun hd => ?_)
      (exists_congr fun d => and_congr_right fun _ => ?_)
    · rw [← surplus_iff hvalid hd]
      omega
    · omega
  have hloss := @lossFrames_eq counters directions allowPortFallback session spec
  have hdirections := @directions_lossFrames_eq counters directions allowPortFallback session spec
  rw [hmasked, ← max_zero_sum_eq_iff, ← hdirections, ← hloss]
  constructor
  · exact fun h => h.sum
  · intro hsum
    refine ⟨hsum, fun hzero direction hdirection => ?_⟩
    rw [hsum, hdirections] at hzero
    have hnone := (sum_max_zero _).2.mp hzero
    have hmem := List.mem_map_of_mem (f := fun direction => direction.lossFrames) hdirection
    rw [hdirections, List.mem_map] at hmem
    obtain ⟨x, hx, heq⟩ := hmem
    rw [← heq, max_eq_left (not_lt.mp fun hpos => hnone ⟨x, hx, hpos⟩)]

/-- A packet of 64 bytes. -/
def smallPacket : Packet where
  ethernet := ⟨.value ⟨0x020000000001, Lab.clientMac_lt, Lab.clientMac_unicast⟩,
    .value ⟨0x020000000002, Lab.serverMac_lt, Lab.serverMac_unicast⟩⟩
  network := some Lab.network
  transport := none
  stack := Lab.stack
  frameSize := 64
  size := Lab.frameSize_bounds

/-- A thousand packets in a second. -/
def thousandPps : Rate := ⟨.pps, 1000, Lab.thousand_pps_pos, Lab.thousand_pps_percent⟩

/-- Traffic of one second in both directions. -/
def oneSecond : StatelessTrafficSpec where
  ports := ⟨0, 1, .bidirectional, Nat.zero_ne_one⟩
  limits := ⟨300000, 28800000, Lab.limits_pos⟩
  packet := smallPacket
  rate := thousandPps
  duration := some 1000
  burstPackets := none
  maxLossPercent := none
  streams := []
  bounded := StatelessTrafficSpec.bounded_nil
  durationOrBurst := StatelessTrafficSpec.second_or_burst
  pos := StatelessTrafficSpec.second_pos
  resolved := StatelessTrafficSpec.resolved_nil
  names := StatelessTrafficSpec.names_nil
  assertion := StatelessTrafficSpec.no_assertion

/-- Both directions of the traffic. -/
def bothDirections : List StreamDirection :=
  [⟨"forward", 0, 1, 1, smallPacket, thousandPps, false⟩,
    ⟨"reverse", 1, 0, 2, smallPacket, thousandPps, true⟩]

/-- Ports that sent a thousand frames each, without flow statistics; `received` is what they
received. -/
def portsOnly (received : Nat → Int) : TrialCounters where
  ports := fun port => ⟨1000, received port, 0, 0⟩
  flows := fun _ => none
  rxErrors := 0
  txErrors := 0
  warnings := []
  up := fun _ => true
  owner := fun _ => "agent"

/-- A session that owns both ports. -/
def ownSession : TrialSession := ⟨[0, 1], "agent", fun _ => 10000000000, true⟩

theorem portsOnly_valid (received : Nat → Int) :
    (observeTrial (portsOnly received) bothDirections true ownSession oneSecond).valid = true := by
  simp [observeTrial, TrialChecks.all, bothDirections, observeDirection, reportedTx, fallsBack,
    flowConsistent, portsOnly, rawTx, ownSession, expectedStreamFrames, oneSecond, ratePps, thousandPps]
  norm_num

/-- Ten frames lost in each direction. -/
theorem perDirection_iff_both :
    PerDirection (observeTrial (portsOnly fun _ => 990) bothDirections true ownSession oneSecond) :=
  (perDirection_iff _ _ _ _ _ (portsOnly_valid _)).mpr (by
    simp [Masked, portsOnly, rawTx, rawRx])

/-- Ten frames lost in one direction and ten too many received in the other: a valid trial without
loss. -/
theorem surplus_hides_loss :
    (observeTrial (portsOnly fun port => if port = 1 then 990 else 1010) bothDirections true ownSession
      oneSecond).valid = true ∧
    (observeTrial (portsOnly fun port => if port = 1 then 990 else 1010) bothDirections true ownSession
      oneSecond).lossFrames = 0 ∧
    ¬PerDirection (observeTrial (portsOnly fun port => if port = 1 then 990 else 1010) bothDirections true
      ownSession oneSecond) := by
  have hloss : (observeTrial (portsOnly fun port => if port = 1 then 990 else 1010) bothDirections true
      ownSession oneSecond).lossFrames = 0 := by
    simp [lossFrames_eq, bothDirections, reportedTx, reportedRx, fallsBack, flowConsistent, portsOnly,
      rawTx, rawRx]
  refine ⟨portsOnly_valid _, hloss, fun h => ?_⟩
  have hforward := h.lossless hloss _ List.mem_cons_self
  simp [observeDirection, reportedTx, reportedRx, fallsBack, flowConsistent, portsOnly, rawTx, rawRx]
    at hforward

end TrexCli.Observation
