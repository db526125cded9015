import TrexCli.Rfc2544.Phases
import TrexCli.Traffic.Documents

/-!
# Trials

`_rfc_trial_document` and `_directions` of the remote engine: the traffic document of a trial, its
directions, and what the streams of a trial offer to each port. A continuous trial offers the rate of
its document to each port it sends from; a burst is sent at the rate of the line.
-/

namespace TrexCli

/-- `_Direction` -/
structure TrafficDirection where
  name : String
  tx : PortId
  rx : PortId
  packet : Packet
  rate : Rate
  reverse : Bool := false

/-- `_directions` -/
def StatelessTrafficSpec.directions (spec : StatelessTrafficSpec) : List TrafficDirection :=
  if spec.streams = [] then
    let forward : TrafficDirection :=
      { name := "forward", tx := spec.ports.tx, rx := spec.ports.rx, packet := spec.packet
        rate := spec.rate }
    match spec.ports.direction with
    | .unidirectional => [forward]
    | .bidirectional =>
      [forward, { forward with name := "reverse", tx := forward.rx, rx := forward.tx, reverse := true }]
  else
    spec.streams.map fun stream =>
      { name := stream.name, tx := stream.tx, rx := stream.rx, packet := stream.packet
        rate := stream.rate }

/-- A stream of a trial, and how much of the line rate it offers to its port. -/
structure OfferedStream where
  tx : PortId
  packet : Packet
  reverse : Bool
  percentL1 : ℚ

namespace StatelessTrafficSpec

/-- The streams of `_install_streams`, for rates in percent. -/
def continuousStreams (spec : StatelessTrafficSpec) : List OfferedStream :=
  spec.directions.map fun direction =>
    ⟨direction.tx, direction.packet, direction.reverse, direction.rate.value⟩

/-- The streams of a burst, which are sent at the rate of the line. -/
def burstStreams (spec : StatelessTrafficSpec) : List OfferedStream :=
  spec.directions.map fun direction => ⟨direction.tx, direction.packet, direction.reverse, 100⟩

end StatelessTrafficSpec

/-- What the streams offer to a port, in percent of its line rate. -/
def offered (streams : List OfferedStream) (port : PortId) : ℚ :=
  ((streams.filter fun stream => stream.tx = port).map OfferedStream.percentL1).sum

namespace Rfc2544

section Document

variable (spec : Rfc2544ThroughputSpec)

/-- The document of a trial with these ports and streams; without streams it has one of its own. -/
def Rfc2544ThroughputSpec.trafficSpec (ports : Ports) (packet : Packet) (rate : Rate)
    (durationSeconds : ℚ) (streams : List ResolvedTrafficStream) (bounded : streams.length ≤ 256)
    (names : (streams.map ResolvedTrafficStream.name).Nodup) : StatelessTrafficSpec where
  ports := ports
  limits := spec.limits
  packet := packet
  rate := rate
  duration := some (max 1 (roundHalfEven (durationSeconds * 1000)).toNat)
  burstPackets := none
  maxLossPercent := some 0
  streams := streams
  bounded := bounded
  durationOrBurst := by simp
  pos := by simp
  resolved := StatelessTrafficSpec.resolved_of_no_burst streams
  names := names
  assertion := by simp

/-- The stream of a direction, between the ports of the document. -/
def Rfc2544ThroughputSpec.forwardStream (packet : Packet) (rate : Rate) : ResolvedTrafficStream :=
  ⟨"forward", spec.ports.tx, spec.ports.rx, packet, rate, spec.ports.distinct⟩

/-- The stream of the other direction. -/
def Rfc2544ThroughputSpec.reverseStream (packet : Packet) (rate : Rate) : ResolvedTrafficStream :=
  ⟨"reverse", spec.ports.rx, spec.ports.tx, packet, rate, spec.ports.distinct.symm⟩

/-- The documents of a trial, for packets that have the frame size. -/
def Rfc2544ThroughputSpec.directedSpec (forward : Packet) (reverse : Option Packet) (rate : Rate)
    (durationSeconds : ℚ) (selected : Option Selected) : Except Exc StatelessTrafficSpec :=
  match selected, reverse with
  | some .forward, _ => .ok
    (spec.trafficSpec ⟨spec.ports.tx, spec.ports.rx, .unidirectional, spec.ports.distinct⟩ forward rate
      durationSeconds [spec.forwardStream forward rate] (by simp) (by simp))
  | some .reverse, some reverse => .ok
    (spec.trafficSpec ⟨spec.ports.rx, spec.ports.tx, .unidirectional, spec.ports.distinct.symm⟩ reverse
      rate durationSeconds [spec.reverseStream reverse rate] (by simp) (by simp))
  | some .reverse, none => .error (.trexCli
    { code := "INVALID_DOCUMENT", category := "INPUT"
      message := "reverse RFC2544 direction requires reversePacket" })
  | none, reverse =>
    if spec.directionMode = some .bidirectionalSimultaneous then
      match reverse with
      | some reverse => .ok
        (spec.trafficSpec spec.ports forward rate durationSeconds
          [spec.forwardStream forward rate, spec.reverseStream reverse rate] (by simp)
          (by simp [Rfc2544ThroughputSpec.forwardStream, Rfc2544ThroughputSpec.reverseStream]))
      | none => .error (.exception "AssertionError")
    else .ok (spec.trafficSpec spec.ports forward rate durationSeconds []
      StatelessTrafficSpec.bounded_nil StatelessTrafficSpec.names_nil)

/-- `_rfc_trial_document` -/
def Rfc2544ThroughputSpec.trialDocument (frameSize : Nat) (ratePercent durationSeconds : ℚ)
    (selected : Option Selected) : Except Exc StatelessTrafficSpec := do
  let rate ← trialRate ratePercent
  if size : 64 ≤ frameSize ∧ frameSize ≤ 9216 then
    spec.directedSpec (spec.packet.atFrameSize frameSize size)
      (spec.reversePacket.map fun packet => packet.atFrameSize frameSize size) rate durationSeconds
      selected
  else .error (.exception "1 validation error for StatelessTrafficDocument")

end Document

/-! ### What a trial offers -/

theorem value_of_trialRate {percent : ℚ} {rate : Rate} (h : trialRate percent = .ok rate) :
    rate.value = percent ∧ 0 < percent ∧ percent ≤ 100 := by
  unfold trialRate at h
  split at h
  · next hpercent =>
    obtain rfl := Except.ok.inj h
    exact ⟨rfl, hpercent⟩
  · cases h

/-- Streams that share no port offer to each port what one of them does. -/
theorem offered_le {streams : List OfferedStream} {percent : ℚ} (hpos : 0 ≤ percent)
    (hports : (streams.map OfferedStream.tx).Nodup) (h : ∀ stream ∈ streams, stream.percentL1 ≤ percent)
    (port : PortId) : offered streams port ≤ percent := by
  induction streams with
  | nil => exact hpos
  | cons stream streams ih =>
    obtain ⟨hport, hrest⟩ := List.nodup_cons.mp hports
    have hstreams : ∀ other ∈ streams, other.percentL1 ≤ percent := fun other hother =>
      h other (.tail _ hother)
    by_cases hsends : stream.tx = port
    · have hothers : (streams.filter fun other => other.tx = port) = [] := by
        refine List.filter_eq_nil_iff.mpr fun other hother hsame => ?_
        exact hport (List.mem_map.mpr ⟨other, hother, (of_decide_eq_true hsame).trans hsends.symm⟩)
      have hsum : offered (stream :: streams) port = stream.percentL1 := by
        simp [offered, hsends, hothers]
      exact hsum ▸ h stream List.mem_cons_self
    · have hsum : offered (stream :: streams) port = offered streams port := by
        simp [offered, hsends]
      exact hsum ▸ ih hrest hstreams

/-- The directions of a trial send from different ports, at the rate of the trial. -/
structure Directed (rate : Rate) (doc : StatelessTrafficSpec) : Prop where
  ports : (doc.directions.map TrafficDirection.tx).Nodup
  rates : ∀ direction ∈ doc.directions, direction.rate = rate

theorem directedSpec_directed {spec : Rfc2544ThroughputSpec} {forward : Packet}
    {reverse : Option Packet} {rate : Rate} {durationSeconds : ℚ} {selected : Option Selected}
    {doc : StatelessTrafficSpec}
    (h : spec.directedSpec forward reverse rate durationSeconds selected = .ok doc) :
    Directed rate doc := by
  have hdistinct := spec.ports.distinct
  unfold Rfc2544ThroughputSpec.directedSpec at h
  split at h
  · obtain rfl := Except.ok.inj h
    exact ⟨by simp [StatelessTrafficSpec.directions, Rfc2544ThroughputSpec.trafficSpec], by
      simp [StatelessTrafficSpec.directions, Rfc2544ThroughputSpec.trafficSpec,
        Rfc2544ThroughputSpec.forwardStream]⟩
  · obtain rfl := Except.ok.inj h
    exact ⟨by simp [StatelessTrafficSpec.directions, Rfc2544ThroughputSpec.trafficSpec], by
      simp [StatelessTrafficSpec.directions, Rfc2544ThroughputSpec.trafficSpec,
        Rfc2544ThroughputSpec.reverseStream]⟩
  · cases h
  · split at h
    · split at h
      · obtain rfl := Except.ok.inj h
        exact ⟨by simp [StatelessTrafficSpec.directions, Rfc2544ThroughputSpec.trafficSpec,
          Rfc2544ThroughputSpec.forwardStream, Rfc2544ThroughputSpec.reverseStream, hdistinct], by
          simp [StatelessTrafficSpec.directions, Rfc2544ThroughputSpec.trafficSpec,
            Rfc2544ThroughputSpec.forwardStream, Rfc2544ThroughputSpec.reverseStream]⟩
      · cases h
    · obtain rfl := Except.ok.inj h
      cases hdirection : spec.ports.direction with
      | unidirectional =>
        exact ⟨by simp [StatelessTrafficSpec.directions, Rfc2544ThroughputSpec.trafficSpec, hdirection],
          by simp [StatelessTrafficSpec.directions, Rfc2544ThroughputSpec.trafficSpec, hdirection]⟩
      | bidirectional =>
        exact ⟨by simp [StatelessTrafficSpec.directions, Rfc2544ThroughputSpec.trafficSpec, hdirection,
          hdistinct], by
          simp [StatelessTrafficSpec.directions, Rfc2544ThroughputSpec.trafficSpec, hdirection]⟩

theorem trialDocument_directed {spec : Rfc2544ThroughputSpec} {frameSize : Nat}
    {ratePercent durationSeconds : ℚ} {selected : Option Selected} {doc : StatelessTrafficSpec}
    (h : spec.trialDocument frameSize ratePercent durationSeconds selected = .ok doc) :
    ∃ rate, trialRate ratePercent = .ok rate ∧ Directed rate doc := by
  rw [Rfc2544ThroughputSpec.trialDocument, bind_eq_ok] at h
  obtain ⟨rate, hrate, h⟩ := h
  split at h
  · exact ⟨rate, hrate, directedSpec_directed h⟩
  · cases h

/-- A continuous trial offers each port at most its rate. -/
theorem trialDocument_continuous {spec : Rfc2544ThroughputSpec} {frameSize : Nat}
    {ratePercent durationSeconds : ℚ} {selected : Option Selected} {doc : StatelessTrafficSpec}
    (h : spec.trialDocument frameSize ratePercent durationSeconds selected = .ok doc) (port : PortId) :
    offered doc.continuousStreams port ≤ ratePercent := by
  obtain ⟨rate, hrate, hdirected⟩ := trialDocument_directed h
  obtain ⟨hvalue, hpos, -⟩ := value_of_trialRate hrate
  refine offered_le hpos.le ?_ (fun stream hstream => ?_) port
  · rw [StatelessTrafficSpec.continuousStreams, List.map_map]
    exact hdirected.ports
  · obtain ⟨direction, hdirection, rfl⟩ := List.mem_map.mp hstream
    exact ((congrArg Rate.value (hdirected.rates direction hdirection)).trans hvalue).le

/-- A burst offers each port at most the rate of the line. -/
theorem trialDocument_burst {spec : Rfc2544ThroughputSpec} {frameSize : Nat}
    {ratePercent durationSeconds : ℚ} {selected : Option Selected} {doc : StatelessTrafficSpec}
    (h : spec.trialDocument frameSize ratePercent durationSeconds selected = .ok doc) (port : PortId) :
    offered doc.burstStreams port ≤ 100 := by
  obtain ⟨rate, -, hdirected⟩ := trialDocument_directed h
  refine offered_le (by norm_num) ?_ (fun stream hstream => ?_) port
  · rw [StatelessTrafficSpec.burstStreams, List.map_map]
    exact hdirected.ports
  · obtain ⟨direction, -, rfl⟩ := List.mem_map.mp hstream
    exact le_rfl

end Rfc2544

end TrexCli
