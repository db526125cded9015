import Mathlib.Tactic.NormNum
import TrexCli.Replay.Compile

/-!
# Replay authorisation

The checks of `_validate_policy` for a replay, and whether what is emitted is within the policy. A
document that rewrites its packets names every address they will have, and all of them are checked. A
document that preserves them declares the hardware addresses of its capture; what is checked is the
declaration, so the packets are authorized exactly when it is true (`emitted_authorized_iff`).
-/

namespace TrexCli

/-! ### The checks -/

section Checks

variable (logicalPorts : List PortId) (policy : SafetyPolicy) (spec : PcapReplaySpec)

/-- The checks of the timing, and the estimate of the duration. -/
def replayEstimate : Except Exc ℚ :=
  match spec.timing with
  | .fixedRate rate => do
    require (rate.value ≤ policy.rateCeiling rate.unit)
      (unsafeRequest "PCAP replay rate exceeds the configured SafetyPolicy maximum")
    match rate.unit with
    | .pps => pure (spec.capture.packetCount / rate.value)
    | .bpsL2 => pure (spec.capture.size * 8 / rate.value)
    | .bpsL1 => pure ((spec.capture.size + 24 * spec.capture.packetCount) * 8 / rate.value)
    | .percentL1 => .error (.trexCli
        (unsafeRequest "fixed-rate PCAP replay does not support percent_l1"))
  | .capture multiplier _ => do
    require (100 ≤ policy.maxPercentL1)
      (unsafeRequest
        "capture timing requires maxPercentL1 100 because its peak rate is unbounded")
    pure (spec.capture.normalizedDurationSeconds / multiplier)
  | .topSpeed => do
    require (100 ≤ policy.maxPercentL1) (unsafeRequest "top-speed replay requires maxPercentL1 100")
    pure 0

/-- The check of the estimate. -/
def checkDuration : Except Exc Unit := do
  let estimated ← replayEstimate policy spec
  require (estimated * 1000 ≤ policy.maxRunDuration)
    (unsafeRequest "estimated PCAP replay duration exceeds maxRunDuration")

/-- The checks of a replay that preserves addresses. -/
def checkPreserve : Except Exc Unit :=
  match spec.address with
  | .rewrite .. => .ok ()
  | .preserve policyVersion => do
    require (policyVersion = policy.version)
      (unsafeRequest "preserve Replay Plan was frozen under a different SafetyPolicy version")
    require (spec.capture.hasBroadcast = false ∧ spec.capture.hasMulticast = false)
      (unsafeRequest "preserve replay cannot contain broadcast or multicast packets")

/-- The MAC addresses that are checked. -/
def PcapReplaySpec.macValues : List String :=
  match spec.address with
  | .rewrite sourceMac destinationMac _ _ => [sourceMac, destinationMac]
  | .preserve _ => spec.capture.macEndpoints

/-- The IP addresses that are checked. -/
def PcapReplaySpec.ipValues : List AddressText :=
  match spec.address with
  | .rewrite _ _ sourceIpv4 destinationIpv4 => [sourceIpv4, destinationIpv4]
  | .preserve _ => spec.capture.ipv4Endpoints

/-- The checks of the IP addresses. -/
def checkIpValues : Except Exc Unit := do
  let addresses ← parseAddresses spec.ipValues
  require (∀ a ∈ addresses, policy.allowsAddress a = true)
    (unsafeRequest "PCAP replay IPv4 endpoint is outside allowedCidrs")

/-- `_validate_policy` for a replay. -/
def validateReplay : Except Exc Unit := do
  policy.checkLimits spec.limits
  checkDuration policy spec
  checkPreserve policy spec
  checkPorts logicalPorts [spec.ports.tx, spec.ports.rx]
  require (∀ mac ∈ spec.macValues, policy.allowsMacText mac = true)
    (unsafeRequest "PCAP replay MAC endpoint is outside allowedMacPrefixes")
  checkIpValues policy spec

end Checks

/-! ### What is authorized -/

/-- Whether a replay keeps the addresses of its capture. -/
def ReplayAddress.preserves : ReplayAddress → Bool
  | .preserve _ => true
  | .rewrite .. => false

/-- A frame that a policy authorizes: its addresses are allowed, its hardware addresses too unless
all are, and a frame that is preserved goes to one station. -/
structure EthernetFrame.Authorized (policy : SafetyPolicy) (preserves : Bool)
    (frame : EthernetFrame) : Prop where
  protocol : checkProtocol frame = .ok ()
  addresses : ∀ a ∈ frame.addresses, policy.allowsAddress a.address = true
  hardware : policy.allowArbitraryUnicastMac = false →
    ∀ h ∈ frame.hardwareAddresses, ∃ p ∈ policy.allowedMacPrefixes, p.coversHardware h = true
  unicast : preserves = true → frame.dst.group = false

/-- Every packet of the replay is one that the policy authorizes. -/
def ReplayCompilation.Authorized (dpkt : Dpkt) (policy : SafetyPolicy) (spec : PcapReplaySpec)
    (replay : ReplayCompilation) : Prop :=
  ∀ p ∈ replay.packets, ∃ frame, dpkt.ethernet p.1 = some frame ∧
    frame.Authorized policy spec.address.preserves

/-- What a document declares is true of a file: a frame to a group is declared, and each hardware
address is an endpoint, or has at least every prefix that some endpoint has. -/
def CaptureBinding.Truthful (dpkt : Dpkt) (binding : CaptureBinding) (file : CaptureFile) : Prop :=
  ∀ records, file.records = .ok records → ∀ record ∈ records, ∀ frame,
    dpkt.ethernet record.2 = some frame →
      (frame.dst.group = true → binding.hasBroadcast = true ∨ binding.hasMulticast = true) ∧
        ∀ h ∈ frame.hardwareAddresses, ∃ text ∈ binding.macEndpoints,
          ∀ p : MacPrefix, p.coversText text = true → p.coversHardware h = true

/-! ### Rewritten packets -/

section Rewritten

variable {dpkt : Dpkt} {policy : SafetyPolicy} {spec : PcapReplaySpec}

theorem parseAddresses_eq_ok {texts : List AddressText} {addresses : List IpAddress}
    (h : parseAddresses texts = .ok addresses) {text : AddressText} (htext : text ∈ texts)
    {a : IpAddress} (ha : text.parsed = some a) : a ∈ addresses := by
  obtain ⟨address, haddress, htext⟩ := exists_right_of_forall₂ (mapM_eq_ok.mp h) htext
  rw [ha] at htext
  cases htext
  exact haddress

theorem AddressText.packed_eq_ok {text : AddressText} {a : PackedIpv4} (h : text.packed = .ok a) :
    text.parsed = some a.address := by
  unfold AddressText.packed at h
  split at h
  · rename_i parsed hparsed
    split_ifs at h with hversion
    cases h
    rw [hparsed, IpAddress.address_packed hversion]
  · cases h

theorem hardwareField_eq_ok {text : String} {field : HardwareAddress}
    (h : hardwareField text = .ok field) : ∃ bytes, macOctets text = some bytes ∧ field = .pack bytes := by
  unfold hardwareField at h
  split at h
  · cases h
    exact ⟨_, by assumption, rfl⟩
  · cases h

/-- A text that the policy allows is written as a field that it allows. -/
theorem allowed_of_field {text : String} {field : HardwareAddress}
    (htext : policy.allowsMacText text = true) (hfield : hardwareField text = .ok field)
    (harbitrary : policy.allowArbitraryUnicastMac = false) :
    ∃ p ∈ policy.allowedMacPrefixes, p.coversHardware field = true := by
  obtain ⟨bytes, hbytes, rfl⟩ := hardwareField_eq_ok hfield
  simp only [SafetyPolicy.allowsMacText, harbitrary, Bool.false_or, List.any_eq_true] at htext
  obtain ⟨p, hp, hcovers⟩ := htext
  exact ⟨p, hp, coversHardware_pack hcovers hbytes⟩

theorem sameShape_assigned (frame : EthernetFrame) (src dst : HardwareAddress)
    (source destination : PackedIpv4) :
    frame.payload.sameShape (frame.assigned src dst source destination).payload := by
  unfold EthernetFrame.assigned
  cases frame.payload with
  | ip _ _ => trivial
  | arp _ _ _ _ _ _ => exact ⟨rfl, rfl⟩
  | other => trivial

theorem checkProtocol_assigned {frame : EthernetFrame} (src dst : HardwareAddress)
    (source destination : PackedIpv4) :
    checkProtocol (frame.assigned src dst source destination) = checkProtocol frame := by
  unfold checkProtocol EthernetFrame.assigned
  cases frame.payload <;> rfl

theorem mem_addresses_assigned {frame : EthernetFrame} {src dst : HardwareAddress}
    {source destination a : PackedIpv4}
    (h : a ∈ (frame.assigned src dst source destination).addresses) : a = source ∨ a = destination := by
  unfold EthernetFrame.addresses EthernetFrame.assigned at h
  cases hpayload : frame.payload with
  | other => simp [hpayload] at h
  | _ => simpa [hpayload] using h

theorem mem_hardwareAddresses_assigned {frame : EthernetFrame} {src dst field : HardwareAddress}
    {source destination : PackedIpv4}
    (h : field ∈ (frame.assigned src dst source destination).hardwareAddresses) :
    field = src ∨ field = dst := by
  unfold EthernetFrame.hardwareAddresses EthernetFrame.assigned at h
  cases hpayload : frame.payload with
  | arp _ _ _ _ _ _ =>
    simp only [hpayload, List.mem_cons, List.not_mem_nil, or_false] at h
    tauto
  | _ => simpa [hpayload] using h

end Rewritten

/-! ### The bound of a policy -/

section Authorized

variable {dpkt : Dpkt} {logicalPorts : List PortId} {policy : SafetyPolicy} {spec : PcapReplaySpec}

/-- What an emitted packet is made of. -/
theorem rewritePacket_eq_ok {raw packet : Bytes} (h : rewritePacket dpkt spec raw = .ok packet) :
    ∃ frame, dpkt.ethernet raw = some frame ∧ checkProtocol frame = .ok () ∧
      match spec.address with
      | .preserve _ => packet = raw ∧ ∀ a ∈ frame.addresses, spec.capture.declares a = true
      | .rewrite sourceMac destinationMac sourceIpv4 destinationIpv4 =>
        ∃ src dst source destination, hardwareField sourceMac = .ok src ∧
          hardwareField destinationMac = .ok dst ∧ sourceIpv4.packed = .ok source ∧
          destinationIpv4.packed = .ok destination ∧
          packet = dpkt.serialize raw (frame.assigned src dst source destination) := by
  unfold rewritePacket at h
  split at h
  · cases h
  · rename_i frame hframe
    rw [check_bind_eq_ok] at h
    obtain ⟨hprotocol, h⟩ := h
    refine ⟨frame, hframe, hprotocol, ?_⟩
    cases haddress : spec.address with
    | preserve policyVersion =>
      simp only [haddress] at h
      split_ifs at h with hdeclared
      cases h
      exact ⟨rfl, List.all_eq_true.mp hdeclared⟩
    | rewrite sourceMac destinationMac sourceIpv4 destinationIpv4 =>
      simp only [haddress] at h
      obtain ⟨src, hsrc, h⟩ := bind_eq_ok.mp h
      obtain ⟨dst, hdst, h⟩ := bind_eq_ok.mp h
      obtain ⟨source, hsource, h⟩ := bind_eq_ok.mp h
      obtain ⟨destination, hdestination, h⟩ := bind_eq_ok.mp h
      cases h
      exact ⟨src, dst, source, destination, hsrc, hdst, hsource, hdestination, rfl⟩

/-- What acceptance says about the addresses of a document. -/
theorem validateReplay_addresses (h : validateReplay logicalPorts policy spec = .ok ()) :
    checkPreserve policy spec = .ok () ∧
      (∀ mac ∈ spec.macValues, policy.allowsMacText mac = true) ∧
      ∀ text ∈ spec.ipValues, ∀ a, text.parsed = some a → policy.allowsAddress a = true := by
  simp only [validateReplay, check_bind_eq_ok, require_eq_ok] at h
  obtain ⟨-, -, hpreserve, -, hmacs, hips⟩ := h
  obtain ⟨addresses, haddresses, hallowed⟩ := bind_eq_ok.mp hips
  rw [require_eq_ok] at hallowed
  exact ⟨hpreserve, hmacs, fun text htext a ha => hallowed a (parseAddresses_eq_ok haddresses htext ha)⟩

/-- A rewritten packet has the addresses of the document, which were checked. -/
theorem rewritten_authorized {sourceMac destinationMac : String}
    {sourceIpv4 destinationIpv4 : AddressText} (hdpkt : dpkt.Lawful)
    (haddress : spec.address = .rewrite sourceMac destinationMac sourceIpv4 destinationIpv4)
    (hpolicy : validateReplay logicalPorts policy spec = .ok ()) {raw packet : Bytes}
    (h : rewritePacket dpkt spec raw = .ok packet) :
    ∃ frame, dpkt.ethernet packet = some frame ∧ frame.Authorized policy spec.address.preserves := by
  obtain ⟨old, hold, hprotocol, hpacket⟩ := rewritePacket_eq_ok h
  rw [haddress] at hpacket
  obtain ⟨src, dst, source, destination, hsrc, hdst, hsource, hdestination, rfl⟩ := hpacket
  obtain ⟨-, hmacs, hips⟩ := validateReplay_addresses hpolicy
  simp only [PcapReplaySpec.macValues, PcapReplaySpec.ipValues, haddress, List.forall_mem_cons,
    List.not_mem_nil, false_imp_iff, implies_true, and_true] at hmacs hips
  refine ⟨_, hdpkt.ethernet_serialize hold (sameShape_assigned old src dst source destination), ?_⟩
  refine ⟨(checkProtocol_assigned src dst source destination).trans hprotocol, ?_, ?_, ?_⟩
  · intro a ha
    rcases mem_addresses_assigned ha with rfl | rfl
    · exact hips.1 _ (AddressText.packed_eq_ok hsource)
    · exact hips.2 _ (AddressText.packed_eq_ok hdestination)
  · intro harbitrary field hfield
    rcases mem_hardwareAddresses_assigned hfield with rfl | rfl
    · exact allowed_of_field hmacs.1 hsrc harbitrary
    · exact allowed_of_field hmacs.2 hdst harbitrary
  · intro hpreserves
    rw [haddress] at hpreserves
    cases hpreserves

theorem checkPreserve_eq_ok {policyVersion : String} (haddress : spec.address = .preserve policyVersion)
    (h : checkPreserve policy spec = .ok ()) :
    policyVersion = policy.version ∧ spec.capture.hasBroadcast = false ∧
      spec.capture.hasMulticast = false := by
  simpa only [checkPreserve, haddress, check_bind_eq_ok, require_eq_ok] using h

/-- The addresses of a preserved packet are declared, and so were checked. -/
theorem preserved_addresses {policyVersion : String} (haddress : spec.address = .preserve policyVersion)
    (hpolicy : validateReplay logicalPorts policy spec = .ok ()) {a : PackedIpv4}
    (ha : spec.capture.declares a = true) : policy.allowsAddress a.address = true := by
  obtain ⟨-, -, hips⟩ := validateReplay_addresses hpolicy
  simp only [CaptureBinding.declares, List.any_eq_true, Bool.and_eq_true, decide_eq_true_eq] at ha
  obtain ⟨text, htext, -, hparsed⟩ := ha
  refine hips text ?_ _ hparsed
  rw [PcapReplaySpec.ipValues, haddress]
  exact htext

/-- A preserved packet is authorized when its hardware addresses are covered as the declared ones. -/
theorem preserved_authorized {policyVersion : String} (haddress : spec.address = .preserve policyVersion)
    (hpolicy : validateReplay logicalPorts policy spec = .ok ()) {raw packet : Bytes}
    (h : rewritePacket dpkt spec raw = .ok packet)
    (htruth : ∀ frame, dpkt.ethernet raw = some frame →
      (frame.dst.group = true → spec.capture.hasBroadcast = true ∨ spec.capture.hasMulticast = true) ∧
        ∀ h ∈ frame.hardwareAddresses, ∃ text ∈ spec.capture.macEndpoints,
          ∀ p : MacPrefix, p.coversText text = true → p.coversHardware h = true) :
    ∃ frame, dpkt.ethernet packet = some frame ∧ frame.Authorized policy spec.address.preserves := by
  obtain ⟨frame, hframe, hprotocol, hpacket⟩ := rewritePacket_eq_ok h
  rw [haddress] at hpacket
  obtain ⟨rfl, hdeclared⟩ := hpacket
  obtain ⟨hpreserve, hmacs, -⟩ := validateReplay_addresses hpolicy
  obtain ⟨-, hbroadcast, hmulticast⟩ := checkPreserve_eq_ok haddress hpreserve
  obtain ⟨hgroup, hhardware⟩ := htruth frame hframe
  refine ⟨frame, hframe, hprotocol, fun a ha => ?_, fun harbitrary h hh => ?_, fun _ => ?_⟩
  · exact preserved_addresses haddress hpolicy (hdeclared a ha)
  · obtain ⟨text, htext, hcovers⟩ := hhardware h hh
    have hallowed := hmacs text (by rwa [PcapReplaySpec.macValues, haddress])
    simp only [SafetyPolicy.allowsMacText, harbitrary, Bool.false_or, List.any_eq_true] at hallowed
    obtain ⟨p, hp, hptext⟩ := hallowed
    exact ⟨p, hp, hcovers p hptext⟩
  · cases hdst : frame.dst.group with
    | false => rfl
    | true =>
      have := hgroup hdst
      simp [hbroadcast, hmulticast] at this

/-- A policy that allows just these prefixes accepts the document too, if they cover what it declares. -/
theorem validateReplay_withPrefixes {policyVersion : String}
    (haddress : spec.address = .preserve policyVersion)
    (hpolicy : validateReplay logicalPorts policy spec = .ok ()) {allowed : List MacPrefix}
    (hne : allowed ≠ [])
    (hcovers : ∀ text ∈ spec.capture.macEndpoints, ∃ p ∈ allowed, p.coversText text = true) :
    validateReplay logicalPorts
      { policy with
        allowArbitraryUnicastMac := false
        allowedMacPrefixes := allowed
        prefixes := fun _ => hne } spec = .ok () := by
  simp only [validateReplay, check_bind_eq_ok, require_eq_ok] at hpolicy ⊢
  obtain ⟨hlimits, hduration, hpreserve, hports, -, hips⟩ := hpolicy
  refine ⟨hlimits, hduration, hpreserve, hports, fun mac hmac => ?_, hips⟩
  rw [PcapReplaySpec.macValues, haddress] at hmac
  obtain ⟨p, hp, hptext⟩ := hcovers mac hmac
  simpa [SafetyPolicy.allowsMacText] using ⟨p, hp, hptext⟩

/-- A prefix of one octet that an address does not have. -/
theorem exists_uncovering (h : HardwareAddress) : ∃ p : MacPrefix, p.coversHardware h = false := by
  obtain ⟨octets, hlength⟩ := h
  match octets, hlength with
  | first :: rest, hlength =>
    refine ⟨⟨[(first.toNat + 1) % 256], by simp, ?_⟩, ?_⟩
    · intro o ho
      rw [List.mem_singleton] at ho
      omega
    · have hfirst := first.toNat_lt
      have hne : ¬ (first.toNat + 1) % 256 = first.toNat := by omega
      show ([(first.toNat + 1) % 256].isPrefixOf (first.toNat :: rest.map UInt8.toNat)) = false
      simp [List.isPrefixOf, hne]

/-- If no endpoint vouches for an address, some policy accepts the document and not the address. -/
theorem exists_refusing {policyVersion : String} (haddress : spec.address = .preserve policyVersion)
    (hpolicy : validateReplay logicalPorts policy spec = .ok ()) {h : HardwareAddress}
    (hnone : ∀ text ∈ spec.capture.macEndpoints, ∃ p : MacPrefix,
      p.coversText text = true ∧ p.coversHardware h = false) :
    ∃ refusing, validateReplay logicalPorts refusing spec = .ok () ∧
      refusing.allowArbitraryUnicastMac = false ∧
      ∀ p ∈ refusing.allowedMacPrefixes, p.coversHardware h = false := by
  obtain ⟨filler, hfiller⟩ := exists_uncovering h
  choose chosen hchosen using hnone
  let allowed := filler :: spec.capture.macEndpoints.pmap chosen fun _ hmem => hmem
  have hcovers : ∀ text ∈ spec.capture.macEndpoints, ∃ p ∈ allowed, p.coversText text = true := by
    intro text htext
    refine ⟨chosen text htext, ?_, (hchosen text htext).1⟩
    exact List.mem_cons_of_mem _ (List.mem_pmap.mpr ⟨text, htext, rfl⟩)
  refine ⟨_, validateReplay_withPrefixes haddress hpolicy (List.cons_ne_nil _ _) hcovers, rfl, ?_⟩
  intro p hp
  rcases List.mem_cons.mp hp with rfl | hp
  · exact hfiller
  · obtain ⟨text, htext, rfl⟩ := List.mem_pmap.mp hp
    exact (hchosen text htext).2

/-- Every policy that accepts a document authorizes what it replays, exactly when the document
rewrites its packets or what it declares about the capture is true. -/
theorem emitted_authorized_iff {file : CaptureFile} {replay : ReplayCompilation}
    (hdpkt : dpkt.Lawful) (hcompile : compileReplay dpkt spec file = .ok replay)
    (hadm : ∃ policy, validateReplay logicalPorts policy spec = .ok ()) :
    (∀ policy, validateReplay logicalPorts policy spec = .ok () →
        replay.Authorized dpkt policy spec) ↔
      spec.address.preserves = false ∨ spec.capture.Truthful dpkt file := by
  obtain ⟨records, hrecords, -, -, hpackets⟩ := compileReplay_packets hcompile
  obtain ⟨accepting, haccepting⟩ := hadm
  cases haddress : spec.address with
  | rewrite sourceMac destinationMac sourceIpv4 destinationIpv4 =>
    refine ⟨fun _ => .inl rfl, fun _ policy hpolicy p hp => ?_⟩
    obtain ⟨record, -, hpacket⟩ := exists_left_of_forall₂ hpackets hp
    exact rewritten_authorized hdpkt haddress hpolicy hpacket
  | preserve policyVersion =>
    constructor
    · refine fun hall => .inr fun records' hrecords' record hrecord frame hframe => ?_
      obtain rfl : records = records' := Except.ok.inj (hrecords.symm.trans hrecords')
      obtain ⟨p, hp, hpacket⟩ := exists_right_of_forall₂ hpackets hrecord
      obtain ⟨_, -, -, hkept⟩ := rewritePacket_eq_ok hpacket
      rw [haddress] at hkept
      have hframe_of : ∀ frame', dpkt.ethernet p.1 = some frame' → frame' = frame := by
        intro frame' hframe'
        rw [hkept.1, hframe] at hframe'
        exact (Option.some.inj hframe').symm
      constructor
      · intro hgroup
        obtain ⟨frame', hframe', hauthorized⟩ := hall accepting haccepting p hp
        rw [hframe_of frame' hframe', haddress] at hauthorized
        rw [hauthorized.unicast rfl] at hgroup
        cases hgroup
      · intro h hh
        by_contra hnone
        push Not at hnone
        obtain ⟨refusing, hrefusing, harbitrary, huncovered⟩ := exists_refusing haddress haccepting
          fun text htext => by simpa using hnone text htext
        obtain ⟨frame', hframe', hauthorized⟩ := hall refusing hrefusing p hp
        rw [hframe_of frame' hframe'] at hauthorized
        obtain ⟨q, hq, hcovers⟩ := hauthorized.hardware harbitrary h hh
        rw [huncovered q hq] at hcovers
        cases hcovers
    · rintro (hrewrite | htruth) policy hpolicy p hp
      · cases hrewrite
      · obtain ⟨record, hrecord, hpacket⟩ := exists_left_of_forall₂ hpackets hp
        exact preserved_authorized haddress hpolicy hpacket (htruth records hrecords record hrecord)

end Authorized

/-! ### A false declaration -/

/-- Octets of a packet. -/
def Bytes.field (raw : Bytes) (offset n : Nat) : Bytes := (raw.drop offset).take n

theorem Bytes.length_field {raw : Bytes} {offset n : Nat} (h : offset + n ≤ raw.length) :
    (Bytes.field raw offset n).length = n := by
  unfold Bytes.field
  rw [List.length_take, List.length_drop]
  omega

theorem Bytes.field_skip {a b : Bytes} {k : Nat} (h : a.length = k) (offset n : Nat) :
    Bytes.field (a ++ b) (k + offset) n = Bytes.field b offset n := by
  unfold Bytes.field
  rw [List.drop_append, List.drop_of_length_le (by omega), List.nil_append, h, Nat.add_sub_cancel_left]

theorem Bytes.field_self {a b : Bytes} {n : Nat} (h : a.length = n) : Bytes.field (a ++ b) 0 n = a := by
  subst h
  exact List.take_left

theorem Bytes.field_append {a b : Bytes} {offset n : Nat} (h : offset + n ≤ a.length) :
    Bytes.field (a ++ b) offset n = Bytes.field a offset n := by
  unfold Bytes.field
  rw [List.drop_append_of_le_length (by omega), List.take_append_of_le_length]
  rw [List.length_drop]
  omega

theorem Bytes.field_field {raw : Bytes} {i k offset n : Nat} (h : offset + n ≤ k) :
    Bytes.field (Bytes.field raw i k) offset n = Bytes.field raw (i + offset) n := by
  unfold Bytes.field
  rw [List.drop_take, List.take_take, List.drop_drop, min_eq_left (by omega)]

/-- A big-endian number. -/
def Bytes.number (bytes : Bytes) : Nat := bytes.foldl (fun n o => n * 256 + o.toNat) 0

/-- `bytes(ethernet)` of an ARP frame parsed from `raw` -/
def arpSerialize (raw : Bytes) (frame : EthernetFrame) : Bytes :=
  match frame.payload with
  | .arp _ _ sha tha spa tpa =>
    frame.dst.toList ++ (frame.src.toList ++ (Bytes.field raw 12 10 ++ (sha.toList ++ (spa.toList ++
      (tha.toList ++ (tpa.toList ++ raw.drop 42))))))
  | _ => raw

/-- The package, on ARP frames. -/
def arpDpkt : Dpkt where
  ethernet raw :=
    if h : 42 ≤ raw.length ∧ Bytes.field raw 12 2 = [8, 6] then some
      { dst := ⟨Bytes.field raw 0 6, Bytes.length_field (by omega)⟩
        src := ⟨Bytes.field raw 6 6, Bytes.length_field (by omega)⟩
        payload := .arp (Bytes.number (Bytes.field raw 16 2)) (Bytes.number (Bytes.field raw 19 1))
          ⟨Bytes.field raw 22 6, Bytes.length_field (by omega)⟩
          ⟨Bytes.field raw 32 6, Bytes.length_field (by omega)⟩
          ⟨Bytes.field raw 28 4, Bytes.length_field (by omega)⟩
          ⟨Bytes.field raw 38 4, Bytes.length_field (by omega)⟩ }
    else none
  serialize := arpSerialize

theorem arpDpkt_lawful : arpDpkt.Lawful where
  ethernet_serialize := by
    intro raw old new hold hshape
    simp only [arpDpkt] at hold
    split_ifs at hold with hraw
    cases hold
    obtain ⟨src, dst, payload⟩ := new
    cases payload with
    | ip _ _ => exact hshape.elim
    | other => exact hshape.elim
    | arp pro pln sha tha spa tpa =>
      obtain ⟨rfl, rfl⟩ := hshape
      have hmid : (Bytes.field raw 12 10).length = 10 := Bytes.length_field (by omega)
      obtain ⟨src, hsrc⟩ := src
      obtain ⟨dst, hdst⟩ := dst
      obtain ⟨sha, hsha⟩ := sha
      obtain ⟨tha, htha⟩ := tha
      obtain ⟨spa, hspa⟩ := spa
      obtain ⟨tpa, htpa⟩ := tpa
      let whole : Bytes := dst ++ (src ++ (Bytes.field raw 12 10 ++ (sha ++ (spa ++ (tha ++ (tpa ++
        raw.drop 42))))))
      -- the fields that are kept, and those that are written
      have hkept (i n : Nat) (hi : i + n ≤ 10) :
          Bytes.field whole (6 + (6 + i)) n = Bytes.field raw (12 + i) n := by
        rw [Bytes.field_skip hdst, Bytes.field_skip hsrc, Bytes.field_append (by omega),
          Bytes.field_field hi]
      have hwdst : Bytes.field whole 0 6 = dst := Bytes.field_self hdst
      have hwsrc : Bytes.field whole (6 + 0) 6 = src := by
        rw [Bytes.field_skip hdst, Bytes.field_self hsrc]
      have hskip (i n : Nat) : Bytes.field whole (6 + (6 + (10 + i))) n =
          Bytes.field (sha ++ (spa ++ (tha ++ (tpa ++ raw.drop 42)))) i n := by
        rw [Bytes.field_skip hdst, Bytes.field_skip hsrc, Bytes.field_skip hmid]
      have hwsha : Bytes.field whole (6 + (6 + (10 + 0))) 6 = sha := by
        rw [hskip, Bytes.field_self hsha]
      have hwspa : Bytes.field whole (6 + (6 + (10 + (6 + 0)))) 4 = spa := by
        rw [hskip, Bytes.field_skip hsha, Bytes.field_self hspa]
      have hwtha : Bytes.field whole (6 + (6 + (10 + (6 + (4 + 0))))) 6 = tha := by
        rw [hskip, Bytes.field_skip hsha, Bytes.field_skip hspa, Bytes.field_self htha]
      have hwtpa : Bytes.field whole (6 + (6 + (10 + (6 + (4 + (6 + 0)))))) 4 = tpa := by
        rw [hskip, Bytes.field_skip hsha, Bytes.field_skip hspa, Bytes.field_skip htha,
          Bytes.field_self htpa]
      have hwhole : 42 ≤ whole.length := by
        simp only [whole, List.length_append, hdst, hsrc, hmid, hsha, hspa, htha, htpa]
        omega
      show arpDpkt.ethernet whole = _
      have htype := (hkept 0 2 (by omega)).trans hraw.2
      refine (dif_pos ⟨hwhole, htype⟩).trans ?_
      congr 2
      · exact Subtype.ext hwsrc
      · exact Subtype.ext hwdst
      · congr 1
        · exact congrArg Bytes.number (hkept 4 2 (by omega))
        · exact congrArg Bytes.number (hkept 7 1 (by omega))
        · exact Subtype.ext hwsha
        · exact Subtype.ext hwtha
        · exact Subtype.ext hwspa
        · exact Subtype.ext hwtpa
  length_serialize := by
    intro raw old new hold
    simp only [arpDpkt, arpSerialize] at hold ⊢
    split_ifs at hold with hraw
    cases new.payload with
    | arp pro pln sha tha spa tpa =>
      have hmid : (Bytes.field raw 12 10).length = 10 := Bytes.length_field (by omega)
      simp [hmid]
      omega
    | _ => exact le_rfl

/-- An ARP request from a host that no laboratory prefix covers, to all. -/
def arpRequest : Bytes :=
  [0xff, 0xff, 0xff, 0xff, 0xff, 0xff, 0x00, 0x11, 0x22, 0x33, 0x44, 0x55, 0x08, 0x06,
    0x00, 0x01, 0x08, 0x00, 0x06, 0x04, 0x00, 0x01,
    0x00, 0x11, 0x22, 0x33, 0x44, 0x55, 198, 18, 0, 1, 0, 0, 0, 0, 0, 0, 198, 18, 0, 2]

/-- A capture of one packet. -/
def arpCapture : CaptureFile where
  size := 82
  records := .ok [(0, arpRequest)]

/-- A replay of the capture as it is, with what its author declares about it. -/
def arpReplay : PcapReplaySpec where
  ports := ⟨0, 1, .unidirectional, Nat.zero_ne_one⟩
  limits := ⟨300000, 600000, by decide⟩
  capture :=
    { name := "arp", revision := 1, digest := "sha256:0000000000000000000000000000000000000000000000000000000000000000", size := 82, packetCount := 1
      durationSeconds := 0, normalizedDurationSeconds := 0, nonMonotonicTimestampCount := 0
      maximumBackwardJumpSeconds := 0
      macEndpoints := []
      ipv4Endpoints :=
        [⟨some ⟨.v4, 0xC6120001, Lab.client_lt⟩, true⟩, ⟨some ⟨.v4, 0xC6120002, Lab.server_lt⟩, true⟩]
      hasBroadcast := false, hasMulticast := false, valid := Lab.capture_valid }
  address := .preserve "lab"
  timing := .fixedRate ⟨.pps, 1, Lab.one_pps_pos, by decide⟩

/-- A policy of one prefix. -/
def prefixPolicy : SafetyPolicy where
  version := "lab"
  allowedCidrs := [⟨.v4, 0xC6120000, 15, Lab.network_le⟩]
  allowedMacPrefixes := [⟨[2], Lab.octets_length, Lab.octets_lt⟩]
  allowArbitraryUnicastMac := false
  maxJobTimeout := 28800000
  maxPortWaitTimeout := 600000
  maxRunDuration := 120000
  maxBurstPackets := 10000000
  maxPercentL1 := 100
  maxPps := 100000000
  maxBpsL1 := 100000000000
  maxBpsL2 := 100000000000
  maxCps := 1000000
  maxActiveConnections := 10000000
  maxAddressPoolSize := 65536
  calibrationBootstrapMaxPercentL1 := 1 / 100
  maxCalibrationGrowthFactor := 1
  maxCalibrationAge := 604800000
  percentL1 := Lab.percentL1_bounds
  growthFactor := Lab.no_growth
  prefixes := by simp

theorem arpReplay_accepted : validateReplay [0, 1] prefixPolicy arpReplay = .ok () := by
  have hestimate : replayEstimate prefixPolicy arpReplay = .ok (1 / 1) := by
    rw [replayEstimate]
    refine check_bind_eq_ok.mpr ⟨require_eq_ok.mpr ?_, rfl⟩
    norm_num [prefixPolicy, SafetyPolicy.rateCeiling]
  have hduration : checkDuration prefixPolicy arpReplay = .ok () := by
    refine bind_eq_ok.mpr ⟨1 / 1, hestimate, require_eq_ok.mpr ?_⟩
    norm_num [prefixPolicy]
  simp only [validateReplay, check_bind_eq_ok]
  exact ⟨rfl, hduration, rfl, rfl, rfl, rfl⟩

theorem arpReplay_compiled :
    compileReplay arpDpkt arpReplay arpCapture =
      .ok { packets := [(arpRequest, 0)], capturedBytes := 42 } := by
  have hrun : compileReplay arpDpkt arpReplay arpCapture =
      .ok { packets := [(arpRequest, 0 + 0)], capturedBytes := 42, effectiveDurationSeconds := 0 + 0 } :=
    rfl
  rw [hrun, add_zero]

theorem emitted_authorized_iff_arpReplay :
    (∀ policy, validateReplay [0, 1] policy arpReplay = .ok () →
        ReplayCompilation.Authorized arpDpkt policy arpReplay
          { packets := [(arpRequest, 0)], capturedBytes := 42 }) ↔
      arpReplay.address.preserves = false ∨
        arpReplay.capture.Truthful arpDpkt arpCapture :=
  emitted_authorized_iff arpDpkt_lawful arpReplay_compiled ⟨prefixPolicy, arpReplay_accepted⟩

/-- A replay that declares no hardware address and no broadcast, and is a broadcast. -/
theorem not_authorized_arpReplay :
    arpDpkt.Lawful ∧
      validateReplaySource (some fun _ => some arpCapture) arpReplay = .ok arpCapture ∧
      validateReplay [0, 1] prefixPolicy arpReplay = .ok () ∧
      ∃ replay, compileReplay arpDpkt arpReplay arpCapture = .ok replay ∧
        ¬ replay.Authorized arpDpkt prefixPolicy arpReplay := by
  refine ⟨arpDpkt_lawful, rfl, arpReplay_accepted, _, arpReplay_compiled, fun h => ?_⟩
  obtain ⟨frame, hframe, hauthorized⟩ := h (arpRequest, 0) (by simp)
  cases hframe
  have hunicast := hauthorized.unicast rfl
  cases hunicast

end TrexCli
