import TrexCli.Storm.Streams
import TrexCli.Traffic.Authorisation

/-!
# The identities of a storm in lockstep

One variable of four octets is written to both hardware addresses of a packet, below the two octets
that the packet library wrote; in an ARP request a second variable is the protocol address. The
packets of a DHCP storm go through the addresses of its pool in order. Those of an ARP storm do when
the lower octets of the first address are, to the packet library, what `int` makes of them
(`lockstep`).
-/

namespace TrexCli.Storm

open Lexicographic (fixedDigits fixedDigits_succ digitChar_inj)

/-! ### The octets of a text -/

section Octets

variable {octets : List Nat} (hoctets : ∀ o ∈ octets, o < 256)
include hoctets

/-- Pairs of digits that start with those of octets are the octets. -/
theorem octetValue_of_digits {parts : List Text} (hparts : ∀ part ∈ parts, part.length = 2)
    (h : octets.flatMap octetText <+: parts.flatten.map Char.toLower) {i o : Nat}
    (hi : octets[i]? = some o) : ∃ part, parts[i]? = some part ∧ octetValue part = some o := by
  induction octets generalizing parts i with
  | nil => cases hi
  | cons octet octets ih =>
    cases parts with
    | nil =>
      have hlength := h.length_le
      simp [octetText] at hlength
    | cons part parts =>
      obtain ⟨c, d, rfl⟩ := List.length_eq_two.mp (hparts part List.mem_cons_self)
      simp only [List.flatMap_cons, octetText, List.flatten_cons, List.cons_append, List.nil_append,
        List.map_cons, List.cons_prefix_cons] at h
      obtain ⟨hhigh, hlow, hrest⟩ := h
      cases i with
      | zero =>
        obtain rfl : octet = o := by simpa using hi
        have hlt := hoctets octet List.mem_cons_self
        refine ⟨[c, d], rfl, ?_⟩
        rw [octetValue, ← hhigh, ← hlow, (hexDigit_spec _ (by omega)).2.2,
          (hexDigit_spec _ (by omega)).2.2]
        show some (16 * (octet / 16) + octet % 16) = some octet
        rw [Nat.div_add_mod]
      | succ i =>
        exact ih (fun o ho => hoctets o (List.mem_cons_of_mem _ ho))
          (fun part hpart => hparts part (List.mem_cons_of_mem _ hpart)) hrest hi

/-- The digits of a number that start with those of octets. -/
theorem prefix_bigEndian_of_digits {size n : Nat}
    (h : octets.flatMap octetText <+: fixedDigits 16 (2 * size) n) :
    octets <+: Octets.bigEndian size n := by
  induction octets generalizing size with
  | nil => exact List.nil_prefix
  | cons octet octets ih =>
    cases size with
    | zero =>
      have hlength := h.length_le
      simp [octetText] at hlength
    | succ size =>
      have hchar : ∀ d < 16, hexDigit d = Nat.digitChar d := by decide
      have hlt := hoctets octet List.mem_cons_self
      rw [Nat.mul_succ, fixedDigits_succ, fixedDigits_succ] at h
      simp only [List.flatMap_cons, octetText, List.cons_append, List.nil_append,
        List.cons_prefix_cons] at h
      obtain ⟨hhigh, hlow, hrest⟩ := h
      rw [hchar _ (by omega)] at hhigh hlow
      have hupper := digitChar_inj (by omega) (Nat.mod_lt _ (by decide)) hhigh
      have hlower := digitChar_inj (by omega) (Nat.mod_lt _ (by decide)) hlow
      refine List.cons_prefix_cons.mpr
        ⟨?_, ih (fun o ho => hoctets o (List.mem_cons_of_mem _ ho)) hrest⟩
      rw [pow_succ, ← Nat.div_div_eq_div_mul] at hupper
      rw [show 256 = 16 ^ 2 by rfl, ← pow_mul]
      omega

end Octets

/-! ### The addresses of a pool -/

section Addresses

variable {library : PacketLibrary} {macStart macEnd : Text} {count : Nat} {start : Int} {a : Nat}

namespace Pool

/-- The least value of the variable. -/
theorem lowNumber_first (h : Pool macStart macEnd count start) :
    lowNumber macStart = some (start % 2 ^ 32).toNat := by
  rw [lowNumber, h.first, Option.map_some]

/-- The greatest value of the variable, which does not pass its four octets. -/
theorem lowNumber_last (h : Pool macStart macEnd count start) (hpos : 1 ≤ count) :
    lowNumber macEnd = some ((start % 2 ^ 32).toNat + (count - 1)) ∧
      (start % 2 ^ 32).toNat + (count - 1) < 2 ^ 32 := by
  have honePrefix := h.onePrefix
  rw [lowNumber, h.last, Option.map_some]
  constructor
  · congr 1
    omega
  · omega

/-- A prefix of the first text is one of what the packet library reads. -/
theorem prefix_first (h : Pool macStart macEnd count start) (hlawful : library.Lawful)
    {first : Fin (2 ^ 48)} (hfirst : library.mac macStart = some first) {p : MacPrefix}
    (hcovers : p.coversText (String.ofList macStart) = true) :
    p.octets <+: Octets.bigEndian 6 first := by
  have hdigits := p.digits_of_coversText hcovers
  rw [String.toList_ofList, ← flatten_macParts] at hdigits
  refine List.prefix_iff_getElem?.mpr fun i hi => ?_
  have hlt : i < 6 := hi.trans_le p.length.2
  obtain ⟨part, hpart, hvalue⟩ := octetValue_of_digits p.octet h.parts.2 hdigits
    (List.getElem?_eq_getElem hi)
  rw [Octets.getElem?_bigEndian hlt, hlawful.octet hfirst hlt hpart hvalue]

/-- A prefix of the last text is one of the last address, which is not below zero. -/
theorem prefix_last (h : Pool macStart macEnd count start) {p : MacPrefix}
    (hcovers : p.coversText (String.ofList macEnd) = true) :
    0 ≤ start + count - 1 ∧ p.octets <+: Octets.bigEndian 6 (start + count - 1).toNat := by
  have hdigits := p.digits_of_coversText hcovers
  rw [String.toList_ofList, h.digits] at hdigits
  unfold hexText at hdigits
  by_cases hneg : start + count - 1 < 0
  · rw [if_pos hneg] at hdigits
    obtain ⟨octet, octets, hoctets⟩ := List.exists_cons_of_length_pos p.length.1
    have hlt := p.octet octet (hoctets ▸ List.mem_cons_self)
    have hchar : ∀ d < 16, hexDigit d ≠ '-' := by decide
    rw [hoctets, List.flatMap_cons] at hdigits
    exact absurd (List.cons_prefix_cons.mp hdigits).1 (hchar _ (by omega))
  · rw [if_neg hneg] at hdigits
    have hnat : (start + count - 1).natAbs = (start + count - 1).toNat := by omega
    rw [hnat] at hdigits
    exact ⟨by omega, prefix_bigEndian_of_digits p.octet hdigits⟩

end Pool

/-- A prefix of at most two octets is that of the addresses that agree on them. -/
theorem prefix_of_upper {octets : List Nat} {m n : Nat} (hlength : octets.length ≤ 2)
    (hupper : m / 2 ^ 32 = n / 2 ^ 32) (h : octets <+: Octets.bigEndian 6 m) :
    octets <+: Octets.bigEndian 6 n := by
  refine List.prefix_iff_getElem?.mpr fun i hi => ?_
  have hi2 : i < 2 := hi.trans_le hlength
  have hget := List.prefix_iff_getElem?.mp h i hi
  rw [Octets.getElem?_bigEndian (by omega)] at hget ⊢
  rw [← hget, show 6 - 1 - i = 4 + (1 - i) by omega, pow_add, ← Nat.div_div_eq_div_mul,
    ← Nat.div_div_eq_div_mul, show 256 ^ 4 = 2 ^ 32 by norm_num, hupper]

/-- The addresses of a pool are allowed when its ends are. -/
theorem Pool.allowsMac (h : Pool macStart macEnd count start) (hlawful : library.Lawful)
    {first : Fin (2 ^ 48)} (hfirst : library.mac macStart = some first) {policy : StormPolicy}
    (hallowed : policy.allowsMacRange macStart macEnd = true)
    (hlow : count = 1 ∨ first.val % 2 ^ 32 = (start % 2 ^ 32).toNat) {k : Nat} (hk : k < count) :
    policy.allowsMac (first + k) := by
  intro harbitrary
  simp only [StormPolicy.allowsMacRange, harbitrary, Bool.false_or, List.any_eq_true,
    Bool.and_eq_true] at hallowed
  obtain ⟨p, hp, hcoversFirst, hcoversLast⟩ := hallowed
  refine ⟨p, hp, List.isPrefixOf_iff_prefix.mpr ?_⟩
  have hstart := h.prefix_first hlawful hfirst hcoversFirst
  have hfirstLt := first.isLt
  rcases hlow with rfl | hlow
  · obtain rfl : k = 0 := by omega
    exact hstart
  obtain ⟨-, hspace⟩ := h.lowNumber_last (by omega)
  by_cases hlength : p.octets.length ≤ 2
  · exact prefix_of_upper hlength (by omega) hstart
  · obtain ⟨hnonneg, hend⟩ := h.prefix_last hcoversLast
    have hle := h.le
    have honePrefix := h.onePrefix
    -- the two upper octets of both ends are those of the prefix
    have hupper : ∀ i < 2, first.val / 256 ^ (6 - 1 - i) % 256 =
        (start + count - 1).toNat / 256 ^ (6 - 1 - i) % 256 := by
      intro i hi
      have hleft := List.prefix_iff_getElem?.mp hstart i (by omega)
      have hright := List.prefix_iff_getElem?.mp hend i (by omega)
      rw [Octets.getElem?_bigEndian (by omega)] at hleft hright
      exact Option.some.inj (hleft.trans hright.symm)
    have hfirstOctet := hupper 0 (by decide)
    have hsecondOctet := hupper 1 (by decide)
    norm_num at hfirstOctet hsecondOctet hle hlow hspace honePrefix hfirstLt
    have hlast : (start + count - 1).toNat = first + (count - 1) := by omega
    rw [hlast] at hend
    exact Octets.prefix_bigEndian_between (by omega) (Nat.le_add_right _ _) (by omega) hstart hend

end Addresses

/-! ### The addresses of a packet -/

/-- The octets of a frame outside the fields are those of the packet. -/
def UnchangedOutside (fields : List (Nat × Nat)) (packet frame : Octets) : Prop :=
  ∀ i, (∀ field ∈ fields, i < field.1 ∨ field.1 + field.2 ≤ i) → frame i = packet i

/-- What packet `n` of a DHCP storm holds: the hardware address of its place in the pool, which is
allowed, as the source and as the client, and its own number as the transaction. The octets that are
written are the lower ones of the addresses, the transaction and the two checksums. -/
structure DhcpLockstep (policy : SafetyPolicy) (spec : DhcpStormSpec) (first : Nat)
    (packet frame : Octets) (n : Nat) : Prop where
  source : frame.read 6 6 = first + n % spec.clients.count
  client : frame.read 70 6 = first + n % spec.clients.count
  allowed : policy.allowsMac (first + n % spec.clients.count)
  transaction : frame.read 46 4 = n % 2 ^ 32
  unchanged : UnchangedOutside [(8, 4), (72, 4), (46, 4), (24, 2), (40, 2)] packet frame

/-- What packet `n` of an ARP storm holds: the addresses of its place in the pool, which are allowed. -/
structure ArpLockstep (policy : SafetyPolicy) (spec : ArpStormSpec) (first : Nat) (ipv4 : IpAddress)
    (packet frame : Octets) (n : Nat) : Prop where
  source : frame.read 6 6 = first + n % spec.senders.count
  sender : frame.read 22 6 = first + n % spec.senders.count
  allowed : policy.allowsMac (first + n % spec.senders.count)
  address : frame.read 28 4 = ipv4.value + n % spec.senders.count
  allowedAddress : ∀ a : IpAddress, a.version = .v4 → a.value = ipv4.value + n % spec.senders.count →
    policy.allowsAddress a = true
  unchanged : UnchangedOutside [(8, 4), (24, 4), (28, 4)] packet frame

section Packets

variable {source mac ipv4 : Nat} (target : Nat) (rest : Octets)

theorem dhcpPacket_source (mac : Nat) (h : source < 2 ^ 48) : (dhcpPacket source mac rest).read 6 6 = source := by
  simp only [dhcpPacket]
  rw [Octets.read_load_of_disjoint _ _ (by omega)]
  simp (disch := omega) only [Octets.read_write_of_disjoint, Octets.read_write_self]
  exact Nat.mod_eq_of_lt h

theorem dhcpPacket_client (source : Nat) (h : mac < 2 ^ 48) : (dhcpPacket source mac rest).read 70 6 = mac := by
  simp only [dhcpPacket]
  rw [show (70 : Nat) = 42 + 28 by rfl, Octets.read_load _ _ (by omega), encodeDhcpDiscover]
  simp (disch := omega) only [Octets.read_write_of_disjoint, Octets.read_write_self]
  exact Nat.mod_eq_of_lt h

theorem arpPacket_source (ipv4 : Nat) (h : source < 2 ^ 48) :
    (arpPacket source ipv4 target rest).read 6 6 = source := by
  simp only [arpPacket]
  rw [Octets.read_load_of_disjoint _ _ (by omega)]
  simp (disch := omega) only [Octets.read_write_of_disjoint, Octets.read_write_self]
  exact Nat.mod_eq_of_lt h

theorem arpPacket_sender (ipv4 : Nat) (h : source < 2 ^ 48) :
    (arpPacket source ipv4 target rest).read 22 6 = source := by
  simp only [arpPacket]
  rw [Octets.read_load_of_disjoint _ _ (by omega)]
  simp (disch := omega) only [Octets.read_write_of_disjoint, Octets.read_write_self]
  exact Nat.mod_eq_of_lt h

theorem arpPacket_address (source : Nat) (h : ipv4 < 2 ^ 32) :
    (arpPacket source ipv4 target rest).read 28 4 = ipv4 := by
  simp only [arpPacket]
  rw [Octets.read_load_of_disjoint _ _ (by omega)]
  simp (disch := omega) only [Octets.read_write_of_disjoint, Octets.read_write_self]
  exact Nat.mod_eq_of_lt h

/-- An address of which the four lower octets are written. -/
theorem read_lower {m : Octets} {offset low : Nat} (hlow : low < 2 ^ 32) :
    (m.write (offset + 2) 4 low).read offset 6 = m.read offset 6 / 2 ^ 32 * 2 ^ 32 + low := by
  rw [Octets.read_write_suffix m offset 2 4]
  norm_num
  omega

/-- The place of an address in its pool, written to the four lower octets. -/
theorem read_lower_of_pool {m : Octets} {offset first count n : Nat} (hpos : 1 ≤ count)
    (hread : m.read offset 6 = first) (hspace : first % 2 ^ 32 + (count - 1) < 2 ^ 32) :
    (m.write (offset + 2) 4 (first % 2 ^ 32 + n % count)).read offset 6 = first + n % count := by
  have hlt : n % count < count := Nat.mod_lt _ hpos
  rw [read_lower (by omega), hread]
  omega

theorem unchanged_write {fields : List (Nat × Nat)} {packet frame : Octets} {offset size value : Nat}
    (hfield : (offset, size) ∈ fields) (h : UnchangedOutside fields packet frame) :
    UnchangedOutside fields packet (frame.write offset size value) := by
  intro i hi
  rw [Octets.write_apply_of_outside (hi _ hfield)]
  exact h i hi

end Packets

/-! ### The packets of a storm -/

section Lockstep

variable {library : PacketLibrary} {policy : StormPolicy} {logicalPorts : List PortId}

theorem validateDhcp_eq_ok {spec : DhcpStormSpec}
    (h : validatePacketStorm logicalPorts policy (.dhcp spec) = .ok ()) :
    policy.allowsMacRange spec.clients.macStart spec.clients.macEnd = true := by
  simp only [validatePacketStorm, validateDhcp, check_bind_eq_ok, require_eq_ok] at h
  exact h.2.2.2.2.2.2.2

theorem validateArp_eq_ok {spec : ArpStormSpec}
    (h : validatePacketStorm logicalPorts policy (.arp spec) = .ok ()) :
    policy.allowsMacRange spec.senders.macStart spec.senders.macEnd = true ∧
      ∃ addresses, parseAddresses [spec.senders.ipv4Start, spec.senders.ipv4End] = .ok addresses ∧
        ∃ network ∈ policy.allowedCidrs, ∀ a ∈ addresses, network.contains a = true := by
  simp only [validatePacketStorm, validateArp, check_bind_eq_ok, require_eq_ok] at h
  obtain ⟨-, -, -, -, -, -, -, hrange, h⟩ := h
  obtain ⟨addresses, haddresses, h⟩ := bind_eq_ok.mp h
  exact ⟨hrange, addresses, haddresses, (require_eq_ok.mp h).1⟩

/-- The packets of a DHCP storm. -/
theorem dhcpLockstep (hlawful : library.Lawful) {spec : DhcpStormSpec}
    (haccepted : validatePacketStorm logicalPorts policy (.dhcp spec) = .ok ())
    {first : Fin (2 ^ 48)} (hfirst : library.mac spec.clients.macStart = some first)
    {stream : StormStream} (hstream : installDhcp library spec = some stream) (rest sums : Octets)
    (n : Nat) : DhcpLockstep policy.toSafetyPolicy spec first (stream.packet rest)
      (stream.frame rest sums n) n := by
  obtain ⟨octets, hoctets, hpool⟩ := dhcpClientMacEnd_pool spec.clients.consistent
  obtain ⟨a, ha, hnumber⟩ := hlawful.reads hoctets
  obtain rfl : a = first := Option.some.inj (ha.symm.trans hfirst)
  have hpos := spec.clients.pos
  have hlow : a.val % 2 ^ 32 = ((octetsNumber octets : Int) % 2 ^ 32).toNat := by omega
  have hallowed := hpool.allowsMac hlawful ha (validateDhcp_eq_ok haccepted) (.inr hlow)
    (Nat.mod_lt n hpos)
  obtain ⟨hhigh, hspace⟩ := hpool.lowNumber_last hpos
  rw [← hlow] at hhigh hspace
  obtain ⟨source, mac, hsource, hmac, hcases⟩ := installDhcp_eq_some hstream
  obtain rfl : a = source := Option.some.inj (ha.symm.trans hsource)
  obtain ⟨octets', hoctets', rfl⟩ := parseUnicastMac_eq_ok hmac
  obtain rfl : octets = octets' := Option.some.inj (hoctets.symm.trans hoctets')
  rw [← hnumber] at hcases
  have hread := dhcpPacket_source rest a a.isLt
  have hreadClient := dhcpPacket_client rest a a.isLt
  rcases hcases with ⟨hone, rfl⟩ | ⟨low, high, hlow', hhigh', rfl⟩
  · have hmod : n % spec.clients.count = 0 := by rw [hone, Nat.mod_one]
    rw [hmod, Nat.add_zero] at hallowed
    rw [dhcpFrame_one]
    refine ⟨?_, ?_, by rwa [hmod], ?_, ?_⟩
    · simp (disch := omega) only [Octets.read_write_of_disjoint]
      rw [hread, hmod, Nat.add_zero]
    · simp (disch := omega) only [Octets.read_write_of_disjoint]
      rw [hreadClient, hmod, Nat.add_zero]
    · simp (disch := omega) only [Octets.read_write_of_disjoint, Octets.read_write_self]
      omega
    · iterate 3 refine unchanged_write (by simp) ?_
      exact fun _ _ => rfl
  · obtain rfl := Option.some.inj (hlow'.symm.trans (hpool.lowNumber_first))
    obtain rfl := Option.some.inj (hhigh'.symm.trans hhigh)
    have hcount : a.val % 2 ^ 32 + (spec.clients.count - 1) - a.val % 2 ^ 32 + 1 =
      spec.clients.count := by omega
    rw [dhcpFrame_many, ← hlow, hcount]
    refine ⟨?_, ?_, hallowed, ?_, ?_⟩
    · simp (disch := omega) only [Octets.read_write_of_disjoint]
      exact read_lower_of_pool hpos hread hspace
    · simp (disch := omega) only [Octets.read_write_of_disjoint]
      refine read_lower_of_pool hpos ?_ hspace
      rwa [Octets.read_write_of_disjoint (by omega)]
    · simp (disch := omega) only [Octets.read_write_of_disjoint, Octets.read_write_self]
      omega
    · iterate 5 refine unchanged_write (by simp) ?_
      exact fun _ _ => rfl

/-- The ends of the addresses of an ARP storm. -/
theorem arpSenderIpv4End_eq_ok {ipv4Start : AddressText} {count : Nat} {first last : IpAddress}
    (hfirst : ipv4Start.parsed = some first) (h : arpSenderIpv4End ipv4Start count = .ok last) :
    first.version = .v4 ∧ last.version = .v4 ∧ first.value + (count - 1) < 2 ^ 32 ∧
      last.value = first.value + (count - 1) := by
  unfold arpSenderIpv4End at h
  split at h
  · next start hlt hparsed =>
    obtain rfl := Option.some.inj (hfirst.symm.trans hparsed)
    split at h
    · cases h
    · split at h
      · cases h
        refine ⟨rfl, rfl, ?_, ?_⟩
        all_goals
          simp only
          omega
      · cases h
  · cases h

/-- An address between two of a network. -/
theorem contains_between {network : Network} {first a last : IpAddress}
    (hversion : a.version = first.version) (hlow : first.value ≤ a.value) (hhigh : a.value ≤ last.value)
    (hfirst : network.contains first = true) (hlast : network.contains last = true) :
    network.contains a = true := by
  simp only [Network.contains, decide_eq_true_eq, Nat.shiftRight_eq_div_pow] at hfirst hlast ⊢
  refine ⟨hversion.trans hfirst.1, le_antisymm ?_ ?_⟩
  · rw [← hlast.2]
    exact Nat.div_le_div_right hhigh
  · rw [← hfirst.2]
    exact Nat.div_le_div_right hlow

/-- The protocol addresses of an ARP storm are allowed. -/
theorem arpAddress_allowed {spec : ArpStormSpec}
    (haccepted : validatePacketStorm logicalPorts policy (.arp spec) = .ok ()) {first : IpAddress}
    (hfirst : spec.senders.ipv4Start.parsed = some first) {k : Nat} (hk : k < spec.senders.count)
    {a : IpAddress} (hversion : a.version = .v4) (ha : a.value = first.value + k) :
    policy.allowsAddress a = true := by
  obtain ⟨-, addresses, haddresses, network, hnetwork, hcontains⟩ := validateArp_eq_ok haccepted
  obtain ⟨last, hend, hlast, -⟩ := spec.senders.addresses
  obtain ⟨hfirstVersion, -, -, hvalue⟩ := arpSenderIpv4End_eq_ok hfirst hend
  obtain rfl : [first, last] = addresses := by
    rw [parseAddresses, List.mapM_cons, hfirst, List.mapM_cons, hlast] at haddresses
    exact Except.ok.inj haddresses
  exact List.any_eq_true.mpr ⟨network, hnetwork,
    contains_between (hversion.trans hfirstVersion.symm) (by omega) (by omega)
      (hcontains first (by simp)) (hcontains last (by simp))⟩

/-- The packets of an ARP storm are in lockstep when the first address is one to the packet library and
to the variable. -/
theorem arpLockstep (hlawful : library.Lawful) {spec : ArpStormSpec}
    (haccepted : validatePacketStorm logicalPorts policy (.arp spec) = .ok ())
    {first : Fin (2 ^ 48)} (hfirst : library.mac spec.senders.macStart = some first)
    {ipv4 : IpAddress} (hipv4 : spec.senders.ipv4Start.parsed = some ipv4)
    {stream : StormStream} (hstream : installArp library spec = some stream) (rest sums : Octets)
    (n : Nat) (hsame : spec.senders.count = 1 ∨
      lowNumber spec.senders.macStart = some (first.val % 2 ^ 32)) :
    ArpLockstep policy.toSafetyPolicy spec first ipv4 (stream.packet rest)
      (stream.frame rest sums n) n := by
  obtain ⟨start, hpool⟩ := arpSenderMacEnd_pool spec.senders.macs
  have hpos := spec.senders.pos
  have hlt := Nat.mod_lt n hpos
  have hlow : spec.senders.count = 1 ∨ first.val % 2 ^ 32 = (start % 2 ^ 32).toNat :=
    hsame.imp_right fun h => Option.some.inj (h.symm.trans hpool.lowNumber_first)
  have hallowed := hpool.allowsMac hlawful hfirst (validateArp_eq_ok haccepted).1 hlow hlt
  obtain ⟨source, address, last, hsource, haddress, hlast, hcases⟩ := installArp_eq_some hstream
  obtain rfl : first = source := Option.some.inj (hfirst.symm.trans hsource)
  obtain rfl : ipv4 = address := Option.some.inj (hipv4.symm.trans haddress)
  obtain ⟨last', hend, hlast', -⟩ := spec.senders.addresses
  obtain rfl : last = last' := Option.some.inj (hlast.symm.trans hlast')
  obtain ⟨hversion, -, hipv4Space, hvalue⟩ := arpSenderIpv4End_eq_ok hipv4 hend
  have hread := arpPacket_source spec.target.ipv4.value rest ipv4.value first.isLt
  have hreadSender := arpPacket_sender spec.target.ipv4.value rest ipv4.value first.isLt
  rcases hcases with ⟨hone, rfl⟩ | ⟨hmany, low, high, hlow', hhigh', rfl⟩
  · have hmod : n % spec.senders.count = 0 := by rw [hone, Nat.mod_one]
    refine ⟨?_, ?_, hallowed, ?_, fun a => arpAddress_allowed haccepted hipv4 hlt, fun _ _ => rfl⟩
    · rw [hmod, Nat.add_zero]
      exact hread
    · rw [hmod, Nat.add_zero]
      exact hreadSender
    · rw [hmod, Nat.add_zero]
      exact arpPacket_address _ _ _ (by omega)
  · have hlow := hlow.resolve_left (by omega)
    obtain ⟨hhigh, hspace⟩ := hpool.lowNumber_last hpos
    obtain rfl := Option.some.inj (hlow'.symm.trans hpool.lowNumber_first)
    obtain rfl := Option.some.inj (hhigh'.symm.trans hhigh)
    rw [← hlow] at hspace
    have hcount : first.val % 2 ^ 32 + (spec.senders.count - 1) - first.val % 2 ^ 32 + 1 =
      spec.senders.count := by omega
    have hcount' : last.value - ipv4.value + 1 = spec.senders.count := by omega
    rw [arpFrame_many, ← hlow, hcount, hcount']
    refine ⟨?_, ?_, hallowed, ?_, fun a => arpAddress_allowed haccepted hipv4 hlt, ?_⟩
    · simp (disch := omega) only [Octets.read_write_of_disjoint]
      exact read_lower_of_pool hpos hread hspace
    · simp (disch := omega) only [Octets.read_write_of_disjoint]
      refine read_lower_of_pool hpos ?_ hspace
      rwa [Octets.read_write_of_disjoint (by omega)]
    · rw [Octets.read_write_self]
      omega
    · iterate 3 refine unchanged_write (by simp) ?_
      exact fun _ _ => rfl

/-- The first packet of an ARP storm of several senders: the packet library's upper octets, and the
least value of the variable. -/
theorem arpFrame_source {spec : ArpStormSpec} {first : Fin (2 ^ 48)}
    (hfirst : library.mac spec.senders.macStart = some first) {stream : StormStream}
    (hstream : installArp library spec = some stream) (hmany : 1 < spec.senders.count) {low : Nat}
    (hlow : lowNumber spec.senders.macStart = some low) (rest sums : Octets) :
    (stream.frame rest sums 0).read 6 6 = first / 2 ^ 32 * 2 ^ 32 + low := by
  obtain ⟨source, address, last, hsource, -, -, hcases⟩ := installArp_eq_some hstream
  obtain rfl : first = source := Option.some.inj (hfirst.symm.trans hsource)
  have hlowLt : low < 2 ^ 32 := by
    obtain ⟨k, -, rfl⟩ := Option.map_eq_some_iff.mp hlow
    omega
  rcases hcases with ⟨hone, -⟩ | ⟨-, low', high, hlow', -, rfl⟩
  · omega
  · obtain rfl : low = low' := Option.some.inj (hlow.symm.trans hlow')
    rw [arpFrame_many, Nat.zero_mod, Nat.zero_mod, Nat.add_zero, Nat.add_zero]
    simp (disch := omega) only [Octets.read_write_of_disjoint]
    have hread := arpPacket_source spec.target.ipv4.value rest address.value first.isLt
    rw [show (8 : Nat) = 6 + 2 by rfl, read_lower hlowLt, hread]

/-- The packets of an accepted DHCP storm go through its pool in lockstep. Those of an accepted ARP
storm do exactly when it has one sender, or when the lower octets of the first address are to the packet
library what they are to the variable. -/
theorem lockstep (hlawful : library.Lawful) :
    (∀ spec, validatePacketStorm logicalPorts policy (.dhcp spec) = .ok () →
      ∀ first, library.mac spec.clients.macStart = some first →
      ∀ stream, installDhcp library spec = some stream → ∀ rest sums n,
        DhcpLockstep policy.toSafetyPolicy spec first (stream.packet rest)
          (stream.frame rest sums n) n) ∧
    ∀ spec, validatePacketStorm logicalPorts policy (.arp spec) = .ok () →
      ∀ first, library.mac spec.senders.macStart = some first →
      ∀ ipv4, spec.senders.ipv4Start.parsed = some ipv4 →
      ∀ stream, installArp library spec = some stream →
        ((∀ rest sums n, ArpLockstep policy.toSafetyPolicy spec first ipv4 (stream.packet rest)
            (stream.frame rest sums n) n) ↔
          spec.senders.count = 1 ∨ lowNumber spec.senders.macStart = some (first.val % 2 ^ 32)) := by
  refine ⟨fun spec haccepted first hfirst stream hstream => dhcpLockstep hlawful haccepted hfirst hstream,
    fun spec haccepted first hfirst ipv4 hipv4 stream hstream => ⟨fun h => ?_, fun hsame rest sums n =>
      arpLockstep hlawful haccepted hfirst hipv4 hstream rest sums n hsame⟩⟩
  by_cases hone : spec.senders.count = 1
  · exact .inl hone
  · have hpos := spec.senders.pos
    obtain ⟨start, hpool⟩ := arpSenderMacEnd_pool spec.senders.macs
    have hsource := (h (fun _ => 0) (fun _ => 0) 0).source
    rw [arpFrame_source hfirst hstream (by omega) hpool.lowNumber_first, Nat.zero_mod] at hsource
    right
    rw [hpool.lowNumber_first]
    congr 1
    omega

end Lockstep

/-! ### A pool whose last octet is a digit and a blank -/

/-- A policy that allows all hardware addresses and storms of broadcasts. -/
def broadcastPolicy : StormPolicy where
  version := "lab"
  allowedCidrs := [⟨.v4, 0xC6120000, 15, Lab.network_le⟩]
  allowedMacPrefixes := []
  allowArbitraryUnicastMac := true
  maxJobTimeout := 28800000
  maxPortWaitTimeout := 300000
  maxRunDuration := 60000
  maxBurstPackets := 1000
  maxPercentL1 := 100
  maxPps := 1000
  maxBpsL1 := 1000000
  maxBpsL2 := 1000000
  maxCps := 1000
  maxActiveConnections := 1000
  maxAddressPoolSize := 1000
  calibrationBootstrapMaxPercentL1 := 1
  maxCalibrationGrowthFactor := 2
  maxCalibrationAge := 1
  percentL1 := Lab.percentL1_bounds
  growthFactor := Lab.double_growth
  prefixes := Lab.arbitrary_prefixes
  allowBroadcastStorms := true

/-- Two senders from 198.18.0.1 on. -/
def twoSenders (macStart macEnd : Text)
    (macs : arpSenderMacEnd macStart 2 = .ok (macEnd.map Char.toLower)) : ArpStormSpec where
  limits := ⟨1000, 60000, by decide⟩
  senders :=
    { port := 0, macStart, macEnd, count := 2, pos := by decide, macs
      ipv4Start := ⟨some ⟨.v4, 0xC6120001, Lab.client_lt⟩, true⟩
      ipv4End := ⟨some ⟨.v4, 0xC6120002, Lab.server_lt⟩, true⟩
      addresses := ⟨_, rfl, rfl, rfl⟩ }
  target := ⟨1, ⟨.v4, 0xC6120003, by decide⟩, rfl⟩
  run :=
    { pps := 1, wireSize := 64, estimatedBpsL1 := 672, duration := 1000
      valid := by norm_num
      consistent := by norm_num }
  distinct := Nat.zero_ne_one
  size := rfl

theorem twoSenders_accepted {macStart macEnd : Text}
    (macs : arpSenderMacEnd macStart 2 = .ok (macEnd.map Char.toLower)) :
    validatePacketStorm [0, 1] broadcastPolicy (.arp (twoSenders macStart macEnd macs)) = .ok () := by
  simp only [validatePacketStorm, validateArp, check_bind_eq_ok, require_eq_ok]
  refine ⟨rfl, rfl, ?_, ?_, ?_, rfl, ?_, rfl, ?_⟩
  iterate 4
    norm_num [PacketStormSpec.run, PacketStormSpec.limits, twoSenders, broadcastPolicy]
  · have htarget : broadcastPolicy.allowsAddress ⟨.v4, 0xC6120003, by decide⟩ = true := by decide
    refine bind_eq_ok.mpr ⟨_, rfl, require_eq_ok.mpr ⟨⟨_, List.mem_cons_self, ?_⟩, htarget⟩⟩
    decide

/-- The senders whose first address ends with a blank. -/
def blankSenders : ArpStormSpec :=
  twoSenders "02:11:22:33:44:5 ".toList "00:21:12:23:34:46".toList (by decide)

/-- The packet library reads 02:11:22:33:44:05, and `int` 00:21:12:23:34:45; the first packet has the
upper octets of one and the lower octets of the other. -/
theorem blankSenders_outOfStep :
    validatePacketStorm [0, 1] broadcastPolicy (.arp blankSenders) = .ok () ∧
      octetwise.mac blankSenders.senders.macStart = some 0x021122334405 ∧
      macNumber blankSenders.senders.macStart = some 0x002112233445 ∧
      ∃ stream, installArp octetwise blankSenders = some stream ∧
        (∀ rest sums, (stream.frame rest sums 0).read 6 6 = 0x021112233445) ∧
        ∀ ipv4, ¬ ∀ rest sums n, ArpLockstep broadcastPolicy.toSafetyPolicy blankSenders 0x021122334405 ipv4
          (stream.packet rest) (stream.frame rest sums n) n := by
  have hfirst : octetwise.mac blankSenders.senders.macStart = some 0x021122334405 := by decide
  have hlow : lowNumber blankSenders.senders.macStart = some 0x12233445 := by decide
  have hinstall : (installArp octetwise blankSenders).isSome = true := by decide
  obtain ⟨stream, hstream⟩ := Option.isSome_iff_exists.mp hinstall
  have hsource : ∀ rest sums, (stream.frame rest sums 0).read 6 6 = 0x021112233445 :=
    fun rest sums => arpFrame_source hfirst hstream (by decide) hlow rest sums
  refine ⟨twoSenders_accepted _, hfirst, by decide, stream, hstream, hsource, fun ipv4 h => ?_⟩
  have hwrong := (h (fun _ => 0) (fun _ => 0) 0).source
  rw [hsource] at hwrong
  revert hwrong
  decide

/-- The senders from 02:11:22:33:44:05 on. -/
def plainSenders : ArpStormSpec :=
  twoSenders "02:11:22:33:44:05".toList "02:11:22:33:44:06".toList (by decide)

/-- Two clients from 02:11:22:33:44:05 on. -/
def plainClients : DhcpStormSpec where
  limits := ⟨1000, 60000, by decide⟩
  clients :=
    { port := 0, count := 2, pos := by decide
      macStart := "02:11:22:33:44:05".toList
      macEnd := "02:11:22:33:44:06".toList
      consistent := by decide }
  serverPort := 1
  run :=
    { pps := 1, wireSize := 290, estimatedBpsL1 := 2480, duration := 1000
      valid := by norm_num
      consistent := by norm_num }
  distinct := Nat.zero_ne_one
  size := rfl

theorem plainClients_accepted :
    validatePacketStorm [0, 1] broadcastPolicy (.dhcp plainClients) = .ok () := by
  simp only [validatePacketStorm, validateDhcp, check_bind_eq_ok, require_eq_ok]
  refine ⟨rfl, rfl, ?_, ?_, ?_, rfl, ?_, rfl⟩
  all_goals norm_num [PacketStormSpec.run, PacketStormSpec.limits, plainClients, broadcastPolicy]

theorem lockstep_plain :
    (∃ stream, installDhcp octetwise plainClients = some stream ∧ ∀ rest sums n,
      DhcpLockstep broadcastPolicy.toSafetyPolicy plainClients 0x021122334405 (stream.packet rest)
        (stream.frame rest sums n) n) ∧
    ∃ stream, installArp octetwise plainSenders = some stream ∧ ∀ rest sums n,
      ArpLockstep broadcastPolicy.toSafetyPolicy plainSenders 0x021122334405
        ⟨.v4, 0xC6120001, by decide⟩ (stream.packet rest) (stream.frame rest sums n) n := by
  obtain ⟨hdhcp, harp⟩ := @lockstep octetwise broadcastPolicy [0, 1] octetwise_lawful
  obtain ⟨clients, hclients⟩ : ∃ stream, installDhcp octetwise plainClients = some stream :=
    Option.isSome_iff_exists.mp (by decide)
  obtain ⟨senders, hsenders⟩ : ∃ stream, installArp octetwise plainSenders = some stream :=
    Option.isSome_iff_exists.mp (by decide)
  refine ⟨⟨clients, hclients, hdhcp _ plainClients_accepted 0x021122334405 (by decide) _ hclients⟩,
    senders, hsenders, ?_⟩
  exact (harp _ (twoSenders_accepted _) 0x021122334405 (by decide) _ rfl _ hsenders).mpr
    (.inr (by decide))

end TrexCli.Storm
