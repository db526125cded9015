import Mathlib.Algebra.BigOperators.Group.List.Basic
import Mathlib.Algebra.GroupWithZero.Nat
import TrexCli.Replay.Frames

/-!
# Replay compilation

`pcap_replay.py`: a capture becomes the packets and the timing that are replayed. Each packet is
rewritten, or checked and kept, and is sent when the timing of the document says. What is emitted for
each packet is a lemma about the loop (`compileReplay_packets`).
-/

namespace TrexCli

/-- The package that reads and writes frames: the object made of the bytes of a packet, if it makes
one, and the bytes of that object after its addresses are assigned. -/
structure Dpkt where
  ethernet : Bytes → Option EthernetFrame
  serialize : Bytes → EthernetFrame → Bytes

/-- Whether two payloads differ in their addresses only. -/
def FramePayload.sameShape : FramePayload → FramePayload → Prop
  | .ip .., .ip .. => True
  | .arp pro pln .., .arp pro' pln' .. => pro = pro' ∧ pln = pln'
  | .other, .other => True
  | _, _ => False

/-- What a replay relies on: writing an object whose addresses were assigned makes bytes that are
read as those addresses, and not more bytes than there were. -/
structure Dpkt.Lawful (dpkt : Dpkt) : Prop where
  ethernet_serialize {raw : Bytes} {old new : EthernetFrame} : dpkt.ethernet raw = some old →
    old.payload.sameShape new.payload → dpkt.ethernet (dpkt.serialize raw new) = some new
  length_serialize {raw : Bytes} {old : EthernetFrame} (new : EthernetFrame) :
    dpkt.ethernet raw = some old → (dpkt.serialize raw new).length ≤ raw.length

/-- A file of the catalog: its size, and the packets a reader finds in it, with their times, or the
text of the error it raises. -/
structure CaptureFile where
  size : Nat
  records : Except String (List (ℚ × Bytes))

/-- A file has a header, and each packet in it another. -/
def CaptureFile.Fits (file : CaptureFile) : Prop :=
  ∀ records, file.records = .ok records →
    24 + (records.map fun record => 16 + record.2.length).sum ≤ file.size

/-- `ETH_TYPE_IP` -/
def ethTypeIp : Nat := 0x0800

section Packets

variable (dpkt : Dpkt) (spec : PcapReplaySpec)

/-- `str(IPv4Address(value)) in ipv4_endpoints` -/
def CaptureBinding.declares (binding : CaptureBinding) (a : PackedIpv4) : Bool :=
  binding.ipv4Endpoints.any fun text => text.canonical && text.parsed = some a.address

/-- `IPv4Address(text).packed` -/
def AddressText.packed (text : AddressText) : Except Exc PackedIpv4 :=
  match text.parsed with
  | some a => if a.version = .v4 then .ok a.packed else .error (.exception "not an IPv4 address")
  | none => .error (.exception "not an IPv4 address")

/-- `bytes.fromhex(text.replace(":", ""))`, as the field that is written -/
def hardwareField (text : String) : Except Exc HardwareAddress :=
  match macOctets text with
  | some bytes => .ok (.pack bytes)
  | none => .error (.exception "non-hexadecimal number found in fromhex() arg")

/-- The frame with the addresses of the document assigned. -/
def EthernetFrame.assigned (frame : EthernetFrame) (src dst : HardwareAddress)
    (source destination : PackedIpv4) : EthernetFrame where
  src := src
  dst := dst
  payload :=
    match frame.payload with
    | .ip _ _ => .ip source destination
    | .arp pro pln _ _ _ _ => .arp pro pln src dst source destination
    | .other => .other

/-- The protocols that a replay can authorize. -/
def checkProtocol (frame : EthernetFrame) : Except Exc Unit :=
  match frame.payload with
  | .other => .error (.exception "replay cannot safely authorize this network protocol")
  | .ip _ _ => .ok ()
  | .arp pro pln _ _ _ _ =>
    if pro ≠ ethTypeIp ∨ pln ≠ 4 then
      .error (.exception "replay cannot safely authorize this ARP protocol")
    else .ok ()

/-- `_rewrite_packet` -/
def rewritePacket (raw : Bytes) : Except Exc Bytes :=
  match dpkt.ethernet raw with
  | none => .error (.exception "dpkt.UnpackError")
  | some frame => do
    checkProtocol frame
    match spec.address with
    | .preserve _ =>
      if frame.addresses.all spec.capture.declares then pure raw
      else .error (.exception "capture contains addresses absent from the authorized Replay Plan")
    | .rewrite sourceMac destinationMac sourceIpv4 destinationIpv4 => do
      let src ← hardwareField sourceMac
      let dst ← hardwareField destinationMac
      let source ← sourceIpv4.packed
      let destination ← destinationIpv4.packed
      pure (dpkt.serialize raw (frame.assigned src dst source destination))

/-- `_packet_gap_seconds`: the time before a packet, and whether it was corrected. -/
def packetGapSeconds (timing : ReplayTiming) (source previous : ℚ) (packetBytes : Nat) :
    Except Exc (ℚ × Bool) :=
  match timing with
  | .capture multiplier _ => .ok (max 0 (source - previous) / multiplier, source - previous < 0)
  | .fixedRate rate =>
    match rate.unit with
    | .pps => .ok (1 / rate.value, false)
    | .bpsL2 => .ok (packetBytes * 8 / rate.value, false)
    | .bpsL1 => .ok ((packetBytes + 24) * 8 / rate.value, false)
    | .percentL1 => .error (.exception "fixed-rate PCAP replay does not support percent_l1")
  | .topSpeed => .ok (1 / 10 ^ 9, false)

/-- `ReplayCompilation`: the packets of the file it names, with their times, and the totals. -/
structure ReplayCompilation where
  packets : List (Bytes × ℚ) := []
  capturedBytes : Nat := 0
  effectiveDurationSeconds : ℚ := 0
  normalizedTimestampCount : Nat := 0

/-- The time before a packet: none before the first. -/
def gapBefore (timing : ReplayTiming) (source : ℚ) (previous : Option ℚ) (packetBytes : Nat) :
    Except Exc (ℚ × Bool) :=
  match previous with
  | none => .ok (0, false)
  | some previous => packetGapSeconds timing source previous packetBytes

/-- The loop of `compile_replay`; `previous` is the time of the packet before, once there is one. -/
def compilePackets (compiled : ReplayCompilation) (previous : Option ℚ) :
    List (ℚ × Bytes) → Except Exc ReplayCompilation
  | [] => .ok compiled
  | (timestamp, raw) :: records => do
    let packet ← rewritePacket dpkt spec raw
    let (delta, corrected) ← gapBefore spec.timing timestamp previous packet.length
    let effective := compiled.effectiveDurationSeconds + delta
    compilePackets
      { packets := compiled.packets ++ [(packet, effective)]
        capturedBytes := compiled.capturedBytes + packet.length
        effectiveDurationSeconds := effective
        normalizedTimestampCount := compiled.normalizedTimestampCount + corrected.toNat }
      (some timestamp) records

/-- `compile_replay`. A compiled file is stored under the document, which names the capture by its
digest, so that a file that is there already holds these packets. -/
def compileReplay (file : CaptureFile) : Except Exc ReplayCompilation :=
  match file.records with
  | .error message => .error (.exception message)
  | .ok records => do
    let compiled ← compilePackets dpkt spec {} none records
    if compiled.packets.length ≠ spec.capture.packetCount then
      .error (.exception "capture packet count changed after Replay Plan publication")
    else pure compiled

end Packets

/-! ### Validation -/

/-- A fixed rate in percent of the line. -/
def ReplayTiming.fixedPercent : ReplayTiming → Bool
  | .fixedRate rate => rate.unit = .percentL1
  | _ => false

/-- `RemoteTrexStlEngine.validate`, for a replay: the file of the capture. -/
def validateReplaySource (captureRoot : Option (String → Option CaptureFile)) (spec : PcapReplaySpec) :
    Except Exc CaptureFile :=
  match captureRoot with
  | none => .error (.trexCli
      { code := "CAPABILITY_MISMATCH", category := "ENGINE"
        message := "PCAP replay requires an Agent captureRoot" })
  | some root =>
    match root spec.capture.digest with
    | none => .error (.trexCli (resourceError "CAPABILITY_MISMATCH"
        "the frozen Capture Resource object is unavailable or changed"))
    | some file => do
      require (file.size = spec.capture.size)
        (resourceError "CAPABILITY_MISMATCH"
          "the frozen Capture Resource object is unavailable or changed")
      require (spec.timing.fixedPercent = false)
        { code := "CAPABILITY_MISMATCH", category := "ENGINE"
          message := "fixed-rate PCAP replay does not support percent_l1" }
      pure file

/-! ### What is emitted -/

section Emitted

variable {dpkt : Dpkt} {spec : PcapReplaySpec} {compiled replay : ReplayCompilation}

/-- A round of the loop. -/
theorem compilePackets_cons {previous : Option ℚ} {record : ℚ × Bytes} {records : List (ℚ × Bytes)}
    (h : compilePackets dpkt spec compiled previous (record :: records) = .ok replay) :
    ∃ packet delta corrected, rewritePacket dpkt spec record.2 = .ok packet ∧
      gapBefore spec.timing record.1 previous packet.length = .ok (delta, corrected) ∧
      compilePackets dpkt spec
        { packets := compiled.packets ++ [(packet, compiled.effectiveDurationSeconds + delta)]
          capturedBytes := compiled.capturedBytes + packet.length
          effectiveDurationSeconds := compiled.effectiveDurationSeconds + delta
          normalizedTimestampCount := compiled.normalizedTimestampCount + corrected.toNat }
        (some record.1) records = .ok replay := by
  obtain ⟨packet, hpacket, h⟩ := bind_eq_ok.mp h
  obtain ⟨⟨delta, corrected⟩, hgap, h⟩ := bind_eq_ok.mp h
  exact ⟨packet, delta, corrected, hpacket, hgap, h⟩

/-- The loop emits one packet for each record. -/
theorem compilePackets_packets {previous : Option ℚ} {records : List (ℚ × Bytes)}
    (h : compilePackets dpkt spec compiled previous records = .ok replay) :
    ∃ emitted, replay.packets = compiled.packets ++ emitted ∧
      List.Forall₂ (fun record p => rewritePacket dpkt spec record.2 = .ok p.1) records emitted := by
  induction records generalizing compiled previous with
  | nil =>
    cases h
    exact ⟨[], by simp, .nil⟩
  | cons record records ih =>
    obtain ⟨packet, delta, corrected, hpacket, -, h⟩ := compilePackets_cons h
    obtain ⟨emitted, happend, hemitted⟩ := ih h
    refine ⟨(packet, compiled.effectiveDurationSeconds + delta) :: emitted, ?_, .cons hpacket hemitted⟩
    rw [happend]
    simp

/-- The packets of a compiled replay are those of the file, rewritten or kept, as many as declared. -/
theorem compileReplay_packets {file : CaptureFile} (h : compileReplay dpkt spec file = .ok replay) :
    ∃ records, file.records = .ok records ∧ records.length = spec.capture.packetCount ∧
      compilePackets dpkt spec {} none records = .ok replay ∧
      List.Forall₂ (fun record p => rewritePacket dpkt spec record.2 = .ok p.1) records
        replay.packets := by
  unfold compileReplay at h
  split at h
  · cases h
  · rename_i records hrecords
    obtain ⟨compiled, hcompiled, h⟩ := bind_eq_ok.mp h
    split_ifs at h with hcount
    push Not at hcount
    cases h
    obtain ⟨emitted, happend, hemitted⟩ := compilePackets_packets hcompiled
    rw [List.nil_append] at happend
    subst happend
    exact ⟨records, hrecords, hemitted.length_eq.trans hcount, hcompiled, hemitted⟩

end Emitted

end TrexCli
