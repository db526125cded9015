import TrexCli.Lib.Octets
import TrexCli.Storm.Documents
import TrexCli.Traffic.Frames

/-!
# The streams of a broadcast storm

`_install_dhcp_stream` and `_install_arp_stream` of the remote STL engine: the packet of a storm and
the instructions that vary its sender. A variable of the field engine starts at its minimum, grows by
one with each packet, and goes back to its minimum after its maximum.
-/

namespace TrexCli.Storm

/-! ### The field engine -/

/-- `STLVmFlowVar` with the operation `inc`, `STLVmWrFlowVar`, and `STLVmFixChecksumHw` for UDP. -/
inductive StormInstruction where
  | flowVar (name : String) (minValue maxValue size : Nat)
  | wrFlowVar (name : String) (pktOffset : Nat)
  | fixChecksumHw (l3Offset l4Offset : Nat)

/-- A declared variable. -/
structure StormVariable where
  minValue : Nat
  maxValue : Nat
  size : Nat

/-- The value for the packet of an index. -/
def StormVariable.value (v : StormVariable) (n : Nat) : Nat :=
  v.minValue + n % (v.maxValue - v.minValue + 1)

/-- The octets of a frame, and the variables so far. -/
structure StormMachine where
  octets : Octets
  declared : String → Option StormVariable

/-- One instruction, for the packet of an index; `sums` are the checksums that are filled in. -/
def StormInstruction.step (n : Nat) (sums : Octets) (s : StormMachine) :
    StormInstruction → StormMachine
  | .flowVar name minValue maxValue size =>
    { s with declared := Function.update s.declared name (some ⟨minValue, maxValue, size⟩) }
  | .wrFlowVar name pktOffset =>
    match s.declared name with
    | none => s
    | some v => { s with octets := s.octets.write pktOffset v.size (v.value n) }
  | .fixChecksumHw l3Offset l4Offset =>
    let ip := s.octets.write (l3Offset + 10) 2 (sums.read (l3Offset + 10) 2)
    { s with octets := ip.write (l4Offset + 6) 2 (sums.read (l4Offset + 6) 2) }

/-- A packet and the instructions that vary it; `rest` are the octets that the packet library fills
in. -/
structure StormStream where
  packet : (rest : Octets) → Octets
  vm : List StormInstruction

/-- The frame of an index. -/
def StormStream.frame (stream : StormStream) (rest sums : Octets) (n : Nat) : Frame :=
  (stream.vm.foldl (StormInstruction.step n sums) ⟨stream.packet rest, fun _ => none⟩).octets

/-- `_flow_variable`, incrementing -/
def flowVariable (name : String) (start stop size offset : Nat) : List StormInstruction :=
  [.flowVar name start stop size, .wrFlowVar name offset]

/-! ### The packets -/

/-- The packet library's reading of a hardware address; none if it raises. -/
structure PacketLibrary where
  mac : Text → Option (Fin (2 ^ 48))

/-- A text of six octets is read as they are, and an octet that is two hexadecimal digits is what they
write, whatever the others are. -/
structure PacketLibrary.Lawful (library : PacketLibrary) : Prop where
  reads : ∀ {text octets}, macOctets text = some octets →
    ∃ a, library.mac text = some a ∧ a.val = octetsNumber octets
  octet : ∀ {text a}, library.mac text = some a → ∀ {i part o}, i < 6 →
    (macParts text)[i]? = some part → octetValue part = some o → a.val / 256 ^ (5 - i) % 256 = o

theorem octetsNumber_cons (octet : Nat) (octets : List Nat) :
    octetsNumber (octet :: octets) = octet * 256 ^ octets.length + octetsNumber octets := by
  have hfold : ∀ (octets : List Nat) (value : Nat),
      octets.foldl (fun n octet => 256 * n + octet) value =
        value * 256 ^ octets.length + octetsNumber octets := by
    intro octets
    induction octets with
    | nil => simp [octetsNumber]
    | cons octet octets ih =>
      intro value
      rw [octetsNumber, List.foldl_cons, List.foldl_cons, ih, ih, List.length_cons]
      ring
  have hcons := hfold octets octet
  simpa [octetsNumber] using hcons

theorem octetsNumber_lt {octets : List Nat} (h : ∀ octet ∈ octets, octet < 256) :
    octetsNumber octets < 256 ^ octets.length := by
  induction octets with
  | nil => simp [octetsNumber]
  | cons octet octets ih =>
    have hrest := ih fun o ho => h o (List.mem_cons_of_mem _ ho)
    have hoctet : octet + 1 ≤ 256 := h octet List.mem_cons_self
    rw [octetsNumber_cons, List.length_cons, pow_succ']
    calc octet * 256 ^ octets.length + octetsNumber octets
        < octet * 256 ^ octets.length + 256 ^ octets.length := Nat.add_lt_add_left hrest _
      _ = (octet + 1) * 256 ^ octets.length := by ring
      _ ≤ 256 * 256 ^ octets.length := Nat.mul_le_mul_right _ hoctet

/-- Octets are those of the number that they write. -/
theorem bigEndian_octetsNumber {octets : List Nat} (h : ∀ octet ∈ octets, octet < 256) :
    Octets.bigEndian octets.length (octetsNumber octets) = octets := by
  induction octets with
  | nil => rfl
  | cons octet octets ih =>
    have hrest : ∀ o ∈ octets, o < 256 := fun o ho => h o (List.mem_cons_of_mem _ ho)
    have hlt := octetsNumber_lt hrest
    have hoctet := h octet List.mem_cons_self
    rw [octetsNumber_cons, List.length_cons, Octets.bigEndian]
    congr 1
    · rw [Nat.add_comm, Nat.add_mul_div_right _ _ (by positivity), Nat.div_eq_of_lt hlt,
        Nat.zero_add, Nat.mod_eq_of_lt hoctet]
    · refine Eq.trans (Octets.bigEndian_congr ?_) (ih hrest)
      rw [Nat.add_comm, Nat.add_mul_mod_self_right]

/-- An octet by `int`. -/
def octetOf (part : Text) : Option Nat :=
  (intHex part).bind fun n => if 0 ≤ n ∧ n < 256 then some n.toNat else none

/-- The packet library that reads the octets one by one by `int`. -/
def octetwise : PacketLibrary where
  mac text := ((macParts text).mapM octetOf).bind fun octets =>
    if octets.length = 6 then some (Fin.ofNat (2 ^ 48) (octetsNumber octets)) else none

theorem octetOf_lt {part : Text} {octet : Nat} (h : octetOf part = some octet) : octet < 256 := by
  obtain ⟨n, -, h⟩ := Option.bind_eq_some_iff.mp h
  split at h
  · cases h
    omega
  · cases h

theorem octetOf_of_octetValue {part : Text} {octet : Nat} (h : octetValue part = some octet) :
    octetOf part = some octet := by
  unfold octetValue at h
  split at h
  · next c d =>
    split at h
    · next high low hhigh hlow =>
      obtain rfl := Option.some.inj h
      have hhex : IsHex [c, d] := by
        intro e he
        rcases List.mem_pair.mp he with rfl | rfl
        · rw [hhigh]
          rfl
        · rw [hlow]
          rfl
      have hlt := hexDigits_lt (hexDigits_of_hex (List.cons_ne_nil _ _) hhex)
      have hnumber : hexNumber [c, d] = 16 * high + low := by simp [hexNumber, hhigh, hlow]
      rw [hnumber, List.length_cons, List.length_singleton] at hlt
      rw [octetOf, intHex_of_hex (List.cons_ne_nil _ _) hhex, hnumber, Option.bind_some,
        if_pos (by omega), Int.toNat_natCast]
    · cases h
  · cases h

section Octetwise

variable {parts : List Text} {octets : List Nat}
  (hparts : List.Forall₂ (fun part octet => octetOf part = some octet) parts octets)
include hparts

theorem lt_of_octetOf : ∀ octet ∈ octets, octet < 256 := by
  intro octet hoctet
  obtain ⟨part, -, hpart⟩ := exists_left_of_forall₂ hparts hoctet
  exact octetOf_lt hpart

theorem octetsNumber_lt_of_six (hlength : octets.length = 6) : octetsNumber octets < 2 ^ 48 := by
  have hlt := octetsNumber_lt (lt_of_octetOf hparts)
  rw [hlength] at hlt
  exact hlt

end Octetwise

/-- What is read has the octets of its parts. -/
theorem octetwise_eq_some {text : Text} {a : Fin (2 ^ 48)} : octetwise.mac text = some a ↔
    ∃ octets, List.Forall₂ (fun part octet => octetOf part = some octet) (macParts text) octets ∧
      octets.length = 6 ∧ a.val = octetsNumber octets := by
  simp only [octetwise, Option.bind_eq_some_iff, mapM_eq_some]
  refine exists_congr fun octets => and_congr_right fun hparts => ?_
  constructor
  · intro h
    split at h
    · next hlength =>
      cases h
      exact ⟨hlength, Nat.mod_eq_of_lt (octetsNumber_lt_of_six hparts hlength)⟩
    · cases h
  · rintro ⟨hlength, ha⟩
    rw [if_pos hlength, Option.some_inj]
    exact Fin.ext ((Nat.mod_eq_of_lt (octetsNumber_lt_of_six hparts hlength)).trans ha.symm)

theorem octetwise_lawful : octetwise.Lawful where
  reads := by
    intro text octets h
    unfold macOctets at h
    split at h
    · next hlength =>
      have hparts := (mapM_eq_some.mp h).imp fun _ _ => octetOf_of_octetValue
      have hlength' : octets.length = 6 := hparts.length_eq.symm.trans hlength
      exact ⟨⟨octetsNumber octets, octetsNumber_lt_of_six hparts hlength'⟩,
        octetwise_eq_some.mpr ⟨octets, hparts, hlength', rfl⟩, rfl⟩
    · cases h
  octet := by
    intro text a h i part o hi hpart ho
    obtain ⟨octets, hparts, hlength, ha⟩ := octetwise_eq_some.mp h
    obtain ⟨hi', rfl⟩ := List.getElem?_eq_some_iff.mp hpart
    have hget := hparts.get hi' (hlength ▸ hi)
    have hread := octetOf_of_octetValue ho
    have hoctet : octets[i]? = some o := by
      rw [List.getElem?_eq_getElem (hlength ▸ hi)]
      exact hget.symm.trans hread
    have hbytes := @Octets.getElem?_bigEndian _ (octetsNumber octets) _ hi
    rw [← hlength, bigEndian_octetsNumber (lt_of_octetOf hparts), hoctet, hlength, ← ha] at hbytes
    rw [show 5 - i = 6 - 1 - i by omega]
    exact (Option.some.inj hbytes).symm

/-- `encode_dhcp_discover` -/
def encodeDhcpDiscover (mac transactionId : Nat) : Octets :=
  let bootp := (((Octets.write (fun _ => 0) 0 4 0x01010600).write 4 4 transactionId).write
    10 2 0x8000).write 28 6 mac
  bootp.write 236 8 0x63825363350101FF

/-- The packet of a DHCP storm. -/
def dhcpPacket (source mac : Nat) (rest : Octets) : Octets :=
  let ether := ((rest.write 0 6 0xFFFFFFFFFFFF).write 6 6 source).write 12 2 0x0800
  let ip := ((ether.write 22 1 64).write 26 4 0).write 30 4 0xFFFFFFFF
  let udp := (ip.write 34 2 68).write 36 2 67
  udp.load 42 244 (encodeDhcpDiscover mac 0)

/-- The packet of an ARP storm. -/
def arpPacket (source ipv4 target : Nat) (rest : Octets) : Octets :=
  let ether := ((rest.write 0 6 0xFFFFFFFFFFFF).write 6 6 source).write 12 2 0x0806
  let kinds := ((ether.write 14 2 1).write 16 2 0x0800).write 18 2 0x0604
  let arp := (((((kinds.write 20 2 1).write 22 6 source).write 28 4 ipv4).write 32 6 0).write 38 4 target)
  arp.load 42 18 fun _ => 0

/-! ### The instructions -/

/-- `int(mac.replace(":", ""), 16) & 0xFFFF_FFFF` -/
def lowNumber (mac : Text) : Option Nat := (macNumber mac).map fun n => (n % 2 ^ 32).toNat

/-- The variable of the hardware addresses, written to both of its places. -/
def identityVm (name : String) (macStart macEnd : Text) (offsets : List Nat) :
    Option (List StormInstruction) := do
  let low ← lowNumber macStart
  let high ← lowNumber macEnd
  pure (.flowVar name low high 4 :: offsets.map (.wrFlowVar name ·))

/-- The instructions for the transactions and the checksums of a DHCP storm. -/
def dhcpVm : List StormInstruction :=
  flowVariable "dhcp_transaction_id" 0 0xFFFFFFFF 4 46 ++ [.fixChecksumHw 14 34]

/-- The instructions for the clients, when there are several. -/
def dhcpIdentity (clients : DhcpStormClients) : Option (List StormInstruction) :=
  if 1 < clients.count then
    identityVm "dhcp_client_identity" clients.macStart clients.macEnd [8, 72]
  else some []

/-- The instructions for the senders, when there are several. -/
def arpIdentity (senders : ArpStormSenders) (first last : Nat) : Option (List StormInstruction) :=
  if 1 < senders.count then
    (identityVm "arp_sender_mac" senders.macStart senders.macEnd [8, 24]).map
      (· ++ flowVariable "arp_sender_ipv4" first last 4 28)
  else some []

section Install

variable (library : PacketLibrary)

/-- `_install_dhcp_stream`; none if it raises. -/
def installDhcp (spec : DhcpStormSpec) : Option StormStream := do
  let source ← library.mac spec.clients.macStart
  let mac ← (parseUnicastMac spec.clients.macStart).toOption
  let identity ← dhcpIdentity spec.clients
  pure { packet := dhcpPacket source.val mac, vm := identity ++ dhcpVm }

/-- `_install_arp_stream`; none if it raises. -/
def installArp (spec : ArpStormSpec) : Option StormStream := do
  let source ← library.mac spec.senders.macStart
  let first ← spec.senders.ipv4Start.parsed
  let last ← spec.senders.ipv4End.parsed
  let identity ← arpIdentity spec.senders first.value last.value
  pure { packet := arpPacket source.val first.value spec.target.ipv4.value, vm := identity }

variable {library}

/-- The stream of a DHCP storm: of one client, or of several with the variable for them. -/
theorem installDhcp_eq_some {spec : DhcpStormSpec} {stream : StormStream}
    (h : installDhcp library spec = some stream) : ∃ source mac,
      library.mac spec.clients.macStart = some source ∧
      parseUnicastMac spec.clients.macStart = .ok mac ∧
      (spec.clients.count = 1 ∧ stream = ⟨dhcpPacket source mac, dhcpVm⟩ ∨
        ∃ low high, lowNumber spec.clients.macStart = some low ∧
          lowNumber spec.clients.macEnd = some high ∧
          stream = ⟨dhcpPacket source mac, (.flowVar "dhcp_client_identity" low high 4 ::
            [8, 72].map (.wrFlowVar "dhcp_client_identity" ·)) ++ dhcpVm⟩) := by
  obtain ⟨source, hsource, h⟩ := Option.bind_eq_some_iff.mp h
  obtain ⟨mac, hmac, h⟩ := Option.bind_eq_some_iff.mp h
  obtain ⟨identity, hidentity, h⟩ := Option.bind_eq_some_iff.mp h
  obtain rfl := Option.some.inj h
  have hparsed : parseUnicastMac spec.clients.macStart = .ok mac := by
    cases hread : parseUnicastMac spec.clients.macStart with
    | error message =>
      rw [hread] at hmac
      cases hmac
    | ok value =>
      rw [hread] at hmac
      rw [Option.some.inj hmac]
  refine ⟨source, mac, hsource, hparsed, ?_⟩
  by_cases hcount : 1 < spec.clients.count
  · rw [dhcpIdentity, if_pos hcount] at hidentity
    obtain ⟨low, hlow, hidentity⟩ := Option.bind_eq_some_iff.mp hidentity
    obtain ⟨high, hhigh, hidentity⟩ := Option.bind_eq_some_iff.mp hidentity
    obtain rfl := Option.some.inj hidentity
    refine .inr ⟨low, high, hlow, hhigh, ?_⟩
    rw [dhcpVm, ← List.append_assoc]
  · rw [dhcpIdentity, if_neg hcount] at hidentity
    obtain rfl := Option.some.inj hidentity
    have hpos := spec.clients.pos
    exact .inl ⟨by omega, rfl⟩

/-- The stream of an ARP storm: of one sender, or of several with the variables for them. -/
theorem installArp_eq_some {spec : ArpStormSpec} {stream : StormStream}
    (h : installArp library spec = some stream) : ∃ source first last,
      library.mac spec.senders.macStart = some source ∧
      spec.senders.ipv4Start.parsed = some first ∧ spec.senders.ipv4End.parsed = some last ∧
      (spec.senders.count = 1 ∧
          stream = ⟨arpPacket source first.value spec.target.ipv4.value, []⟩ ∨
        1 < spec.senders.count ∧ ∃ low high, lowNumber spec.senders.macStart = some low ∧
          lowNumber spec.senders.macEnd = some high ∧
          stream = ⟨arpPacket source first.value spec.target.ipv4.value,
            (.flowVar "arp_sender_mac" low high 4 :: [8, 24].map (.wrFlowVar "arp_sender_mac" ·)) ++
              flowVariable "arp_sender_ipv4" first.value last.value 4 28⟩) := by
  obtain ⟨source, hsource, h⟩ := Option.bind_eq_some_iff.mp h
  obtain ⟨first, hfirst, h⟩ := Option.bind_eq_some_iff.mp h
  obtain ⟨last, hlast, h⟩ := Option.bind_eq_some_iff.mp h
  obtain ⟨identity, hidentity, h⟩ := Option.bind_eq_some_iff.mp h
  obtain rfl := Option.some.inj h
  refine ⟨source, first, last, hsource, hfirst, hlast, ?_⟩
  by_cases hcount : 1 < spec.senders.count
  · rw [arpIdentity, if_pos hcount] at hidentity
    obtain ⟨vm, hvm, rfl⟩ := Option.map_eq_some_iff.mp hidentity
    obtain ⟨low, hlow, hvm⟩ := Option.bind_eq_some_iff.mp hvm
    obtain ⟨high, hhigh, hvm⟩ := Option.bind_eq_some_iff.mp hvm
    obtain rfl := Option.some.inj hvm
    exact .inr ⟨hcount, low, high, hlow, hhigh, rfl⟩
  · rw [arpIdentity, if_neg hcount] at hidentity
    obtain rfl := Option.some.inj hidentity
    have hpos := spec.senders.pos
    exact .inl ⟨by omega, rfl⟩

end Install

/-! ### What the frames hold -/

section Frames

variable {source mac ipv4 target low high first last : Nat} {rest sums : Octets} (n : Nat)

/-- The frames of one DHCP client. -/
theorem dhcpFrame_one : StormStream.frame
    ⟨dhcpPacket source mac, dhcpVm⟩ rest sums n =
    (((dhcpPacket source mac rest).write 46 4 (n % 2 ^ 32)).write 24 2 (sums.read 24 2)).write 40 2
      (sums.read 40 2) := by
  simp [StormStream.frame, dhcpVm, flowVariable, StormInstruction.step, StormVariable.value]

/-- The frames of several DHCP clients. -/
theorem dhcpFrame_many : StormStream.frame
    ⟨dhcpPacket source mac, (.flowVar "dhcp_client_identity" low high 4 ::
      [8, 72].map (.wrFlowVar "dhcp_client_identity" ·)) ++ dhcpVm⟩ rest sums n =
    (((((dhcpPacket source mac rest).write 8 4 (low + n % (high - low + 1))).write 72 4
      (low + n % (high - low + 1))).write 46 4 (n % 2 ^ 32)).write 24 2 (sums.read 24 2)).write 40 2
        (sums.read 40 2) := by
  simp [StormStream.frame, dhcpVm, flowVariable, StormInstruction.step, StormVariable.value]

/-- The frames of several ARP senders. -/
theorem arpFrame_many : StormStream.frame
    ⟨arpPacket source ipv4 target, (.flowVar "arp_sender_mac" low high 4 ::
      [8, 24].map (.wrFlowVar "arp_sender_mac" ·)) ++
      flowVariable "arp_sender_ipv4" first last 4 28⟩ rest sums n =
    (((arpPacket source ipv4 target rest).write 8 4 (low + n % (high - low + 1))).write 24 4
      (low + n % (high - low + 1))).write 28 4 (first + n % (last - first + 1)) := by
  simp [StormStream.frame, flowVariable, StormInstruction.step, StormVariable.value]

end Frames

end TrexCli.Storm
