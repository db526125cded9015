import TrexCli.Capture.Analysis
import TrexCli.Replay.Duration

/-!
# Replay and analysis

Three functions walk the packets of a capture: its analysis, the compilation of a replay, and, through
the number and the size of the packets only, the estimate that is admitted. With the timing of the
capture the first two agree, at a fixed rate the second is within the third, and the times that are
emitted never go back (`replay_agrees`).
-/

namespace TrexCli

/-- The records of a file that `dpkt` makes frames of. -/
def CaptureFile.packets (parse : Bytes → Option Capture.Ethernet) (file : CaptureFile) :
    Option (List Capture.Packet) :=
  match file.records with
  | .error _ => none
  | .ok records => records.mapM fun record =>
    (parse record.2).map fun ethernet => ⟨record.1, record.2.length, ethernet⟩

/-- How many of these times are before the one that precedes them. -/
def backwardSteps : List ℚ → Nat
  | previous :: time :: rest => (if time < previous then 1 else 0) + backwardSteps (time :: rest)
  | _ => 0

/-! ### Times one by one -/

theorem normalizedSeconds_append (times : List ℚ) (previous time : ℚ) :
    normalizedSeconds (times ++ [previous, time]) =
      normalizedSeconds (times ++ [previous]) + max 0 (time - previous) := by
  induction times with
  | nil => simp [normalizedSeconds]
  | cons first times ih =>
    cases times with
    | nil =>
      simp only [List.nil_append, List.cons_append, normalizedSeconds]
      ring
    | cons second times =>
      simp only [List.cons_append, normalizedSeconds] at ih ⊢
      rw [ih, add_assoc]

theorem backwardSteps_append (times : List ℚ) (previous time : ℚ) :
    backwardSteps (times ++ [previous, time]) =
      backwardSteps (times ++ [previous]) + if time < previous then 1 else 0 := by
  induction times with
  | nil => simp [backwardSteps]
  | cons first times ih =>
    cases times with
    | nil => simp [backwardSteps]
    | cons second times =>
      simp only [List.cons_append, backwardSteps] at ih ⊢
      rw [ih, Nat.add_assoc]

/-! ### The analysis -/

namespace Capture

/-- What the loop of the analysis has of the times of the packets. -/
structure CaptureScan.Times (scan : CaptureScan) (times : List ℚ) : Prop where
  last : scan.lastTimestamp = times.getLast?
  normalized : scan.normalizedDuration = normalizedSeconds times
  nonMonotonic : scan.nonMonotonic = backwardSteps times

variable {scan : CaptureScan} {times : List ℚ}

theorem CaptureScan.Times.observeTime (h : scan.Times times) (time : ℚ) :
    (scan.observeTime time).Times (times ++ [time]) := by
  obtain rfl | ⟨before, previous, rfl⟩ := times.eq_nil_or_concat
  · have hlast : scan.lastTimestamp = none := h.last
    refine ⟨rfl, ?_, ?_⟩
    · show scan.normalizedDuration + scan.lastTimestamp.elim 0 _ = 0
      rw [hlast, h.normalized]
      exact add_zero _
    · show scan.nonMonotonic + scan.lastTimestamp.elim 0 _ = 0
      rw [hlast, h.nonMonotonic]
      rfl
  · rw [List.concat_eq_append] at h ⊢
    have hlast : scan.lastTimestamp = some previous := by rw [h.last, List.getLast?_concat]
    rw [List.append_assoc, List.singleton_append]
    refine ⟨by simp [CaptureScan.observeTime], ?_, ?_⟩
    · show scan.normalizedDuration + scan.lastTimestamp.elim 0 _ = _
      rw [hlast, h.normalized, normalizedSeconds_append, Option.elim_some]
    · show scan.nonMonotonic + scan.lastTimestamp.elim 0 _ = _
      rw [hlast, h.nonMonotonic, backwardSteps_append, Option.elim_some]

theorem CaptureScan.Times.observeNetwork (h : scan.Times times) (network : Network) :
    (scan.observeNetwork network).Times times := by
  unfold CaptureScan.observeNetwork
  split
  · exact ⟨h.last, h.normalized, h.nonMonotonic⟩
  · dsimp only
    split
    · exact ⟨h.last, h.normalized, h.nonMonotonic⟩
    · exact ⟨h.last, h.normalized, h.nonMonotonic⟩
  · exact ⟨h.last, h.normalized, h.nonMonotonic⟩

theorem scanCapture_times (packets : List Packet) :
    (scanCapture packets).Times (packets.map Packet.timestamp) := by
  induction packets using List.reverseRecOn with
  | nil => exact ⟨rfl, rfl, rfl⟩
  | append_singleton packets packet ih =>
    rw [scanCapture_append_singleton, List.map_append, List.map_singleton]
    have htime := ih.observeTime packet.timestamp
    refine CaptureScan.Times.observeNetwork ?_ _
    exact ⟨htime.last, htime.normalized, htime.nonMonotonic⟩

/-- The durations of an analysis are those of the times of the packets. -/
theorem analyzeCapture_times {sha256 : Bytes → Digest} {packets : List Packet}
    {analysis : CaptureAnalysis} (h : analyzeCapture sha256 packets = .ok analysis) :
    analysis.normalizedDurationSeconds = normalizedSeconds (packets.map Packet.timestamp) ∧
      analysis.nonMonotonicTimestampCount = backwardSteps (packets.map Packet.timestamp) := by
  simp only [analyzeCapture, bind_eq_ok, validated_eq_ok] at h
  obtain ⟨stateful, -, datagram, -, -, rfl⟩ := h
  have htimes := scanCapture_times packets
  exact ⟨htimes.normalized, htimes.nonMonotonic⟩

end Capture

theorem CaptureFile.packets_eq_some {parse : Bytes → Option Capture.Ethernet} {file : CaptureFile}
    {packets : List Capture.Packet} {records : List (ℚ × Bytes)} (hrecords : file.records = .ok records)
    (h : file.packets parse = some packets) :
    packets.map Capture.Packet.timestamp = records.map Prod.fst := by
  rw [CaptureFile.packets, hrecords] at h
  rw [← List.forall₂_eq_eq_eq, List.forall₂_map_left_iff, List.forall₂_map_right_iff]
  refine ((mapM_eq_some.mp h).imp fun record packet hpacket => ?_).flip
  obtain ⟨ethernet, -, rfl⟩ := Option.map_eq_some_iff.mp hpacket
  rfl

/-! ### The compilation -/

section Loop

variable {dpkt : Dpkt} {spec : PcapReplaySpec} {compiled replay : ReplayCompilation}

/-- With the timing of the capture, what is corrected is what goes back. -/
theorem compilePackets_normalized {multiplier : ℚ} {valid : 0 < multiplier ∧ multiplier ≤ 1000}
    (htiming : spec.timing = .capture multiplier valid) {previous : Option ℚ}
    {records : List (ℚ × Bytes)}
    (h : compilePackets dpkt spec compiled previous records = .ok replay) :
    replay.normalizedTimestampCount =
      compiled.normalizedTimestampCount +
        backwardSteps (previous.toList ++ records.map Prod.fst) := by
  induction records generalizing compiled previous with
  | nil =>
    cases h
    cases previous with
    | none => rfl
    | some previous => rfl
  | cons record records ih =>
    obtain ⟨packet, delta, corrected, -, hgap, h⟩ := compilePackets_cons h
    rw [htiming] at hgap
    rw [ih h]
    cases previous with
    | none =>
      cases hgap
      rfl
    | some previous =>
      cases hgap
      show compiled.normalizedTimestampCount + (decide (record.1 - previous < 0)).toNat +
        backwardSteps (record.1 :: records.map Prod.fst) =
        compiled.normalizedTimestampCount + ((if record.1 < previous then 1 else 0) +
          backwardSteps (record.1 :: records.map Prod.fst))
      by_cases hback : record.1 < previous
      · rw [decide_eq_true (sub_neg.mpr hback), if_pos hback, Nat.add_assoc]
        rfl
      · rw [decide_eq_false (mt sub_neg.mp hback), if_neg hback, Nat.add_assoc]
        rfl

/-- No time before a packet is negative, and there is none before the first. -/
theorem gapBefore_nonneg {timing : ReplayTiming} {source : ℚ} {previous : Option ℚ} {bytes : Nat}
    {delta : ℚ} {corrected : Bool}
    (h : gapBefore timing source previous bytes = .ok (delta, corrected)) :
    0 ≤ delta ∧ (previous = none → delta = 0) := by
  cases previous with
  | none =>
    cases h
    exact ⟨le_rfl, fun _ => rfl⟩
  | some previous =>
    refine ⟨?_, nofun⟩
    simp only [gapBefore, packetGapSeconds] at h
    cases timing with
    | capture multiplier valid =>
      cases h
      exact div_nonneg (le_max_left _ _) valid.1.le
    | fixedRate rate =>
      have hpos := rate.pos.le
      cases hunit : rate.unit <;> simp only [hunit] at h <;> cases h <;> positivity
    | topSpeed =>
      cases h
      norm_num

/-- The times emitted so far start at zero and do not go back. -/
structure ReplayCompilation.Paced (compiled : ReplayCompilation) : Prop where
  starts : ∀ first ∈ (compiled.packets.map Prod.snd).head?, first = 0
  sorted : (compiled.packets.map Prod.snd).Pairwise (· ≤ ·)
  past : ∀ time ∈ compiled.packets.map Prod.snd, time ≤ compiled.effectiveDurationSeconds

theorem compilePackets_paced {previous : Option ℚ} {records : List (ℚ × Bytes)}
    (h : compilePackets dpkt spec compiled previous records = .ok replay) (hpaced : compiled.Paced)
    (hfresh : previous = none → compiled.packets = [] ∧ compiled.effectiveDurationSeconds = 0)
    (hbegun : previous ≠ none → compiled.packets ≠ []) : replay.Paced := by
  induction records generalizing compiled previous with
  | nil =>
    cases h
    exact hpaced
  | cons record records ih =>
    obtain ⟨packet, delta, corrected, -, hgap, h⟩ := compilePackets_cons h
    obtain ⟨hnonneg, hzero⟩ := gapBefore_nonneg hgap
    refine ih h ?_ (by simp) (by simp)
    have hpast : ∀ time ∈ compiled.packets.map Prod.snd,
        time ≤ compiled.effectiveDurationSeconds + delta := by
      intro time htime
      exact (hpaced.past time htime).trans (le_add_of_nonneg_right hnonneg)
    refine ⟨?_, ?_, ?_⟩
    · cases previous with
      | none =>
        obtain ⟨hpackets, heffective⟩ := hfresh rfl
        simp [hpackets, heffective, hzero rfl]
      | some previous =>
        obtain ⟨first, rest, hpackets⟩ := List.exists_cons_of_ne_nil (hbegun (by simp))
        have hstarts := hpaced.starts
        rw [hpackets] at hstarts ⊢
        exact hstarts
    · rw [List.map_append, List.pairwise_append]
      refine ⟨hpaced.sorted, List.pairwise_singleton _ _, fun time htime last hlast => ?_⟩
      rw [List.map_singleton, List.mem_singleton] at hlast
      subst hlast
      exact hpast time htime
    · intro time htime
      rw [List.map_append, List.mem_append] at htime
      rcases htime with htime | htime
      · exact hpast time htime
      · rw [List.map_singleton, List.mem_singleton] at htime
        subst htime
        exact le_rfl

end Loop

/-! ### The three of them -/

section Agreement

variable {dpkt : Dpkt} {spec : PcapReplaySpec} {replay : ReplayCompilation} {file : CaptureFile}

/-- The compilation of a replay agrees with the analysis of its capture and with the estimate. -/
theorem replay_agrees {parse : Bytes → Option Capture.Ethernet} {sha256 : Bytes → Capture.Digest}
    {packets : List Capture.Packet} {analysis : Capture.CaptureAnalysis}
    {captureRoot : Option (String → Option CaptureFile)} (hdpkt : dpkt.NoLonger) (hfits : file.Fits)
    (hpackets : file.packets parse = some packets)
    (hanalysis : Capture.analyzeCapture sha256 packets = .ok analysis)
    (hsource : validateReplaySource captureRoot spec = .ok file)
    (hcompile : compileReplay dpkt spec file = .ok replay) :
    (∀ multiplier valid, spec.timing = .capture multiplier valid →
        replay.effectiveDurationSeconds * multiplier = analysis.normalizedDurationSeconds ∧
          replay.normalizedTimestampCount = analysis.nonMonotonicTimestampCount) ∧
      (∀ rate policy estimated, spec.timing = .fixedRate rate →
        replayEstimate policy spec = .ok estimated →
          replay.effectiveDurationSeconds ≤ estimated) ∧
      (∀ first ∈ (replay.packets.map Prod.snd).head?, first = 0) ∧
      (replay.packets.map Prod.snd).Pairwise (· ≤ ·) := by
  obtain ⟨records, hrecords, -, hrun, -⟩ := compileReplay_packets hcompile
  obtain ⟨hduration, hcount⟩ := Capture.analyzeCapture_times hanalysis
  rw [CaptureFile.packets_eq_some hrecords hpackets] at hduration hcount
  have hpaced : replay.Paced :=
    compilePackets_paced hrun ⟨by simp, .nil, by simp⟩ (fun _ => ⟨rfl, rfl⟩) (fun h => absurd rfl h)
  refine ⟨fun multiplier valid htiming => ⟨?_, ?_⟩, fun rate policy estimated htiming hestimate => ?_,
    hpaced.starts, hpaced.sorted⟩
  · rw [compilePackets_capture htiming hrun, hduration]
    show (0 + normalizedSeconds (records.map Prod.fst) / multiplier) * multiplier = _
    rw [zero_add, div_mul_cancel₀ _ valid.1.ne']
  · rw [compilePackets_normalized htiming hrun, hcount]
    exact Nat.zero_add _
  · exact fixedRate_le_estimate hdpkt hfits hsource hcompile htiming hestimate

end Agreement

/-- The frames of the analysis, for packets of ARP. -/
def arpFrame (raw : Bytes) : Option Capture.Ethernet := do
  let frame ← arpDpkt.ethernet raw
  match frame.payload with
  | .arp pro pln _ _ spa tpa =>
    some { src := frame.src, dst := frame.dst, data := .arp ⟨pro, pln, spa, tpa⟩ }
  | _ => none

theorem replay_agrees_hourReplay :
    ∃ packets analysis replay, hourCapture.packets arpFrame = some packets ∧
      Capture.analyzeCapture (fun _ => 0) packets = .ok analysis ∧
      compileReplay arpDpkt hourReplay hourCapture = .ok replay ∧
      replay.effectiveDurationSeconds * 1 = analysis.normalizedDurationSeconds ∧
      replay.normalizedTimestampCount = analysis.nonMonotonicTimestampCount := by
  obtain ⟨replay, hcompile, -⟩ := hourReplay_compiled
  obtain ⟨packets, hpackets⟩ : ∃ packets, hourCapture.packets arpFrame = some packets := ⟨_, rfl⟩
  obtain ⟨analysis, hanalysis⟩ : ∃ analysis, Capture.analyzeCapture (fun _ => 0) packets = .ok analysis := by
    rw [Capture.analyzeCapture_ok_iff]
    cases hpackets
    exact ⟨⟨_, rfl⟩, _, rfl⟩
  have hsource : validateReplaySource (some fun _ => some hourCapture) hourReplay = .ok hourCapture :=
    rfl
  have hagrees := replay_agrees (fun _ _ new => arpDpkt_lawful.length_serialize new) hourCapture_fits
    hpackets hanalysis hsource hcompile
  exact ⟨packets, analysis, replay, hpackets, hanalysis, hcompile, hagrees.1 1 _ rfl⟩

end TrexCli
