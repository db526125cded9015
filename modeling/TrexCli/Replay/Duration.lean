import Mathlib.Algebra.Order.BigOperators.Group.List
import Mathlib.Data.Rat.Floor
import Mathlib.Tactic.FieldSimp
import TrexCli.Replay.Authorisation

/-!
# Replay duration

How long a compiled replay takes, against the estimate that was admitted. At a fixed rate the number
and the size of the packets bound it, and both are those of the file. With the timing of the capture
it is the sum of the gaps in the file, and the estimate is what the document declares the sum to be
(`duration_within_iff_declared`).
-/

namespace TrexCli

/-- The time that packets of so many bytes take at a rate. -/
def Rate.seconds (rate : Rate) (packets bytes : Nat) : ℚ :=
  match rate.unit with
  | .pps => packets / rate.value
  | .bpsL2 => bytes * 8 / rate.value
  | .bpsL1 => (bytes + 24 * packets) * 8 / rate.value
  | .percentL1 => 0

/-- The gaps between times, where a time that is not later counts as none. -/
def normalizedSeconds : List ℚ → ℚ
  | previous :: time :: rest => max 0 (time - previous) + normalizedSeconds (time :: rest)
  | _ => 0

/-- With the timing of the capture, the declared duration is that of the file, up to the millisecond
in which policies count. -/
def PcapReplaySpec.DurationDeclared (spec : PcapReplaySpec) (file : CaptureFile) : Prop :=
  match spec.timing with
  | .capture multiplier _ => ∀ records, file.records = .ok records →
    normalizedSeconds (records.map Prod.fst) / multiplier * 1000 ≤
      ⌈spec.capture.normalizedDurationSeconds / multiplier * 1000⌉₊
  | _ => True

/-- Writing an object makes no more bytes than there were. -/
def Dpkt.NoLonger (dpkt : Dpkt) : Prop :=
  ∀ raw old new, dpkt.ethernet raw = some old → (dpkt.serialize raw new).length ≤ raw.length

section Loop

variable {dpkt : Dpkt} {spec : PcapReplaySpec} {compiled replay : ReplayCompilation}

/-! ### A fixed rate -/

theorem Rate.seconds_nonneg (rate : Rate) (packets bytes : Nat) : 0 ≤ rate.seconds packets bytes := by
  have hpos := rate.pos.le
  unfold Rate.seconds
  cases rate.unit <;> positivity

theorem Rate.seconds_add (rate : Rate) (packets packets' bytes bytes' : Nat) :
    rate.seconds (packets + packets') (bytes + bytes') =
      rate.seconds packets bytes + rate.seconds packets' bytes' := by
  unfold Rate.seconds
  cases rate.unit with
  | percentL1 => simp
  | _ =>
    push_cast
    ring

theorem Rate.seconds_mono (rate : Rate) {packets bytes bytes' : Nat} (h : bytes ≤ bytes') :
    rate.seconds packets bytes ≤ rate.seconds packets bytes' := by
  have hadd := rate.seconds_add packets 0 bytes (bytes' - bytes)
  rw [Nat.add_zero, Nat.add_sub_cancel' h] at hadd
  have hnonneg := rate.seconds_nonneg 0 (bytes' - bytes)
  linarith

/-- The time before a packet is what the packet takes. -/
theorem gapBefore_fixedRate {rate : Rate} {source : ℚ} {previous : Option ℚ} {bytes : Nat} {delta : ℚ}
    {corrected : Bool}
    (h : gapBefore (.fixedRate rate) source previous bytes = .ok (delta, corrected)) :
    delta ≤ rate.seconds 1 bytes := by
  unfold gapBefore at h
  cases previous with
  | none =>
    cases h
    exact rate.seconds_nonneg 1 bytes
  | some previous =>
    simp only [packetGapSeconds] at h
    unfold Rate.seconds
    cases hunit : rate.unit <;> simp only [hunit] at h ⊢ <;> cases h <;> simp

/-- The loop takes no longer than all packets so far do. -/
theorem compilePackets_fixedRate {rate : Rate} (htiming : spec.timing = .fixedRate rate)
    {previous : Option ℚ} {records : List (ℚ × Bytes)}
    (h : compilePackets dpkt spec compiled previous records = .ok replay)
    (hcompiled : compiled.effectiveDurationSeconds ≤
      rate.seconds compiled.packets.length compiled.capturedBytes) :
    replay.effectiveDurationSeconds ≤ rate.seconds replay.packets.length replay.capturedBytes := by
  induction records generalizing compiled previous with
  | nil =>
    cases h
    exact hcompiled
  | cons record records ih =>
    obtain ⟨packet, delta, corrected, -, hgap, h⟩ := compilePackets_cons h
    rw [htiming] at hgap
    refine ih h ?_
    simp only [List.length_append, List.length_singleton]
    rw [rate.seconds_add]
    exact add_le_add hcompiled (gapBefore_fixedRate hgap)

/-- A packet is not longer than the one it was made of. -/
theorem rewritePacket_length (hdpkt : dpkt.NoLonger) {raw packet : Bytes}
    (h : rewritePacket dpkt spec raw = .ok packet) : packet.length ≤ raw.length := by
  obtain ⟨frame, hframe, -, hpacket⟩ := rewritePacket_eq_ok h
  cases haddress : spec.address with
  | preserve _ =>
    rw [haddress] at hpacket
    rw [hpacket.1]
  | rewrite _ _ _ _ =>
    rw [haddress] at hpacket
    obtain ⟨src, dst, source, destination, -, -, -, -, rfl⟩ := hpacket
    exact hdpkt raw frame _ hframe

theorem compilePackets_bytes (hdpkt : dpkt.NoLonger) {previous : Option ℚ} {records : List (ℚ × Bytes)}
    (h : compilePackets dpkt spec compiled previous records = .ok replay) :
    replay.capturedBytes ≤
      compiled.capturedBytes + (records.map fun record => record.2.length).sum := by
  induction records generalizing compiled previous with
  | nil =>
    cases h
    simp
  | cons record records ih =>
    obtain ⟨packet, delta, corrected, hpacket, -, h⟩ := compilePackets_cons h
    have hrest : replay.capturedBytes ≤ compiled.capturedBytes + packet.length +
      (records.map fun record => record.2.length).sum := ih h
    have hlength := rewritePacket_length hdpkt hpacket
    simp only [List.map_cons, List.sum_cons]
    omega

/-- The bytes of a compiled replay fit in the file. -/
theorem bytes_le_size (hdpkt : dpkt.NoLonger) {file : CaptureFile} (hfits : file.Fits)
    {records : List (ℚ × Bytes)} (hrecords : file.records = .ok records)
    (h : compilePackets dpkt spec {} none records = .ok replay) : replay.capturedBytes ≤ file.size := by
  have hbytes := compilePackets_bytes hdpkt h
  have hsize := hfits records hrecords
  have hsum : (records.map fun record => record.2.length).sum ≤
      (records.map fun record => 16 + record.2.length).sum :=
    List.sum_le_sum fun record _ => Nat.le_add_left _ _
  simp only [Nat.zero_add] at hbytes
  omega

/-! ### The timing of the capture -/

theorem compilePackets_capture {multiplier : ℚ} {valid : 0 < multiplier ∧ multiplier ≤ 1000}
    (htiming : spec.timing = .capture multiplier valid) {previous : Option ℚ}
    {records : List (ℚ × Bytes)}
    (h : compilePackets dpkt spec compiled previous records = .ok replay) :
    replay.effectiveDurationSeconds = compiled.effectiveDurationSeconds +
      normalizedSeconds (previous.toList ++ records.map Prod.fst) / multiplier := by
  induction records generalizing compiled previous with
  | nil =>
    cases h
    cases previous <;> simp [normalizedSeconds]
  | cons record records ih =>
    obtain ⟨packet, delta, corrected, -, hgap, h⟩ := compilePackets_cons h
    rw [htiming] at hgap
    rw [ih h]
    cases previous with
    | none =>
      cases hgap
      simp
    | some previous =>
      cases hgap
      show _ = compiled.effectiveDurationSeconds +
        (max 0 (record.1 - previous) + normalizedSeconds (record.1 :: records.map Prod.fst)) / multiplier
      rw [add_div]
      show compiled.effectiveDurationSeconds + max 0 (record.1 - previous) / multiplier +
        normalizedSeconds (record.1 :: records.map Prod.fst) / multiplier = _
      ring

end Loop

/-! ### The bound -/

section Bound

variable {dpkt : Dpkt} {logicalPorts : List PortId} {policy : SafetyPolicy} {spec : PcapReplaySpec}

/-- What acceptance says about the duration. -/
theorem validateReplay_duration (h : validateReplay logicalPorts policy spec = .ok ()) :
    ∃ estimated, replayEstimate policy spec = .ok estimated ∧
      estimated * 1000 ≤ policy.maxRunDuration := by
  simp only [validateReplay, check_bind_eq_ok] at h
  obtain ⟨-, hduration, -⟩ := h
  obtain ⟨estimated, hestimate, hduration⟩ := bind_eq_ok.mp hduration
  exact ⟨estimated, hestimate, require_eq_ok.mp hduration⟩

theorem replayEstimate_fixedRate {rate : Rate} {estimated : ℚ} (htiming : spec.timing = .fixedRate rate)
    (h : replayEstimate policy spec = .ok estimated) :
    estimated = rate.seconds spec.capture.packetCount spec.capture.size := by
  simp only [replayEstimate, htiming, check_bind_eq_ok] at h
  obtain ⟨-, h⟩ := h
  unfold Rate.seconds
  cases hunit : rate.unit <;> simp only [hunit] at h ⊢ <;> cases h <;> rfl

theorem replayEstimate_capture {multiplier : ℚ} {valid : 0 < multiplier ∧ multiplier ≤ 1000}
    {estimated : ℚ} (htiming : spec.timing = .capture multiplier valid)
    (h : replayEstimate policy spec = .ok estimated) :
    estimated = spec.capture.normalizedDurationSeconds / multiplier := by
  simp only [replayEstimate, htiming, check_bind_eq_ok] at h
  cases h.2
  rfl

/-- A policy whose limit is the estimate, in whole milliseconds, accepts the document too. -/
theorem validateReplay_tight {estimated : ℚ} (h : validateReplay logicalPorts policy spec = .ok ())
    (hestimate : replayEstimate policy spec = .ok estimated) :
    validateReplay logicalPorts { policy with maxRunDuration := ⌈estimated * 1000⌉₊ } spec = .ok () := by
  simp only [validateReplay, check_bind_eq_ok, require_eq_ok] at h ⊢
  obtain ⟨hlimits, -, hrest⟩ := h
  exact ⟨hlimits, bind_eq_ok.mpr ⟨estimated, hestimate, require_eq_ok.mpr (Nat.le_ceil _)⟩, hrest⟩

theorem validateReplaySource_eq_ok {captureRoot : Option (String → Option CaptureFile)}
    {file : CaptureFile} (h : validateReplaySource captureRoot spec = .ok file) :
    file.size = spec.capture.size := by
  unfold validateReplaySource at h
  split at h
  · cases h
  · split at h
    · cases h
    · simp only [check_bind_eq_ok, require_eq_ok] at h
      obtain ⟨hsize, -, h⟩ := h
      cases h
      exact hsize

/-- At a fixed rate a replay takes no longer than is estimated. -/
theorem fixedRate_le_estimate {captureRoot : Option (String → Option CaptureFile)} {file : CaptureFile}
    {replay : ReplayCompilation} {rate : Rate} {estimated : ℚ} (hdpkt : dpkt.NoLonger) (hfits : file.Fits)
    (hsource : validateReplaySource captureRoot spec = .ok file)
    (hcompile : compileReplay dpkt spec file = .ok replay) (htiming : spec.timing = .fixedRate rate)
    (hestimate : replayEstimate policy spec = .ok estimated) :
    replay.effectiveDurationSeconds ≤ estimated := by
  obtain ⟨records, hrecords, hcount, hrun, hpackets⟩ := compileReplay_packets hcompile
  have hsize := bytes_le_size hdpkt hfits hrecords hrun
  rw [validateReplaySource_eq_ok hsource] at hsize
  have hloop := compilePackets_fixedRate htiming hrun (rate.seconds_nonneg _ _)
  rw [← hpackets.length_eq, hcount] at hloop
  rw [replayEstimate_fixedRate htiming hestimate]
  exact hloop.trans (rate.seconds_mono hsize)

/-- A replay at a fixed rate takes no longer than any policy that accepts it allows. -/
theorem fixedRate_within {captureRoot : Option (String → Option CaptureFile)} {file : CaptureFile}
    {replay : ReplayCompilation} {rate : Rate} (hdpkt : dpkt.Lawful) (hfits : file.Fits)
    (hsource : validateReplaySource captureRoot spec = .ok file)
    (hcompile : compileReplay dpkt spec file = .ok replay) (htiming : spec.timing = .fixedRate rate)
    (hpolicy : validateReplay logicalPorts policy spec = .ok ()) :
    replay.effectiveDurationSeconds * 1000 ≤ policy.maxRunDuration := by
  obtain ⟨estimated, hestimate, hduration⟩ := validateReplay_duration hpolicy
  have hbound := fixedRate_le_estimate (fun _ _ new => hdpkt.length_serialize new) hfits hsource hcompile
    htiming hestimate
  linarith

/-- Every policy that accepts a replay with the timing of its capture, or at a fixed rate, bounds how
long it takes, exactly when the rate is fixed or the declared duration is that of the file. -/
theorem duration_within_iff_declared {captureRoot : Option (String → Option CaptureFile)}
    {file : CaptureFile} {replay : ReplayCompilation} (hdpkt : dpkt.Lawful) (hfits : file.Fits)
    (hsource : validateReplaySource captureRoot spec = .ok file)
    (hcompile : compileReplay dpkt spec file = .ok replay) (htiming : spec.timing ≠ .topSpeed)
    (hadm : ∃ policy, validateReplay logicalPorts policy spec = .ok ()) :
    (∀ policy, validateReplay logicalPorts policy spec = .ok () →
        replay.effectiveDurationSeconds * 1000 ≤ policy.maxRunDuration) ↔
      spec.DurationDeclared file := by
  obtain ⟨records, hrecords, -, hrun, -⟩ := compileReplay_packets hcompile
  obtain ⟨accepting, haccepting⟩ := hadm
  cases hspec : spec.timing with
  | topSpeed => exact absurd hspec htiming
  | fixedRate rate =>
    have hdeclared : spec.DurationDeclared file := by
      rw [PcapReplaySpec.DurationDeclared, hspec]
      trivial
    exact ⟨fun _ => hdeclared, fun _ policy hpolicy =>
      fixedRate_within hdpkt hfits hsource hcompile hspec hpolicy⟩
  | capture multiplier valid =>
    have hloop : replay.effectiveDurationSeconds =
        normalizedSeconds (records.map Prod.fst) / multiplier := by
      rw [compilePackets_capture hspec hrun]
      simp
    rw [PcapReplaySpec.DurationDeclared, hspec, hloop]
    constructor
    · intro hall records' hrecords'
      obtain rfl : records = records' := Except.ok.inj (hrecords.symm.trans hrecords')
      obtain ⟨estimated, hestimate, -⟩ := validateReplay_duration haccepting
      rw [← replayEstimate_capture hspec hestimate]
      exact hall _ (validateReplay_tight haccepting hestimate)
    · intro hdeclared policy hpolicy
      obtain ⟨estimated, hestimate, hduration⟩ := validateReplay_duration hpolicy
      rw [replayEstimate_capture hspec hestimate] at hduration
      exact (hdeclared records hrecords).trans (Nat.cast_le.mpr (Nat.ceil_le.mpr hduration))

end Bound

/-- Two packets, an hour apart. -/
def hourCapture : CaptureFile where
  size := 140
  records := .ok [(0, arpRequest), (3600, arpRequest)]

/-- A replay of it with the timing of the capture, which declares that it takes no time. -/
def hourReplay : PcapReplaySpec :=
  { arpReplay with
    capture := { arpReplay.capture with size := 140, packetCount := 2 }
    timing := .capture 1 (by norm_num) }

theorem hourReplay_accepted : validateReplay [0, 1] prefixPolicy hourReplay = .ok () := by
  have hestimate : replayEstimate prefixPolicy hourReplay = .ok (0 / 1) := by
    rw [replayEstimate]
    exact check_bind_eq_ok.mpr ⟨require_eq_ok.mpr le_rfl, rfl⟩
  have hduration : checkDuration prefixPolicy hourReplay = .ok () := by
    refine bind_eq_ok.mpr ⟨0 / 1, hestimate, require_eq_ok.mpr ?_⟩
    norm_num [prefixPolicy]
  simp only [validateReplay, check_bind_eq_ok]
  exact ⟨rfl, hduration, rfl, rfl, rfl, rfl⟩

theorem hourReplay_compiled :
    ∃ replay, compileReplay arpDpkt hourReplay hourCapture = .ok replay ∧
      replay.effectiveDurationSeconds = 3600 := by
  refine ⟨_, rfl, ?_⟩
  show (0 : ℚ) + 0 + max 0 (3600 - 0) / 1 = 3600
  norm_num

theorem hourCapture_fits : hourCapture.Fits := by
  intro records hrecords
  cases hrecords
  decide

theorem duration_within_iff_declared_hourReplay :
    ∃ replay, compileReplay arpDpkt hourReplay hourCapture = .ok replay ∧
      ((∀ policy, validateReplay [0, 1] policy hourReplay = .ok () →
          replay.effectiveDurationSeconds * 1000 ≤ policy.maxRunDuration) ↔
        hourReplay.DurationDeclared hourCapture) := by
  obtain ⟨replay, hcompile, -⟩ := hourReplay_compiled
  have hsource : validateReplaySource (some fun _ => some hourCapture) hourReplay = .ok hourCapture :=
    rfl
  exact ⟨replay, hcompile, duration_within_iff_declared arpDpkt_lawful hourCapture_fits hsource hcompile
    (by simp [hourReplay]) ⟨prefixPolicy, hourReplay_accepted⟩⟩

/-- A replay of an hour under a policy of two minutes. -/
theorem not_within_hourReplay :
    arpDpkt.Lawful ∧ hourCapture.Fits ∧
      validateReplaySource (some fun _ => some hourCapture) hourReplay = .ok hourCapture ∧
      validateReplay [0, 1] prefixPolicy hourReplay = .ok () ∧
      ∃ replay, compileReplay arpDpkt hourReplay hourCapture = .ok replay ∧
        ¬ replay.effectiveDurationSeconds * 1000 ≤ prefixPolicy.maxRunDuration := by
  obtain ⟨replay, hcompile, hseconds⟩ := hourReplay_compiled
  refine ⟨arpDpkt_lawful, hourCapture_fits, rfl, hourReplay_accepted, replay, hcompile, ?_⟩
  rw [hseconds]
  norm_num [prefixPolicy]

end TrexCli
