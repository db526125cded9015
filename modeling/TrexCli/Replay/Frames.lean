import Mathlib.Data.Vector.Basic
import TrexCli.Packet.Headers
import TrexCli.Replay.Documents

/-!
# Ethernet frames

What `dpkt` makes of the bytes of a packet: the two hardware addresses of the frame and the addresses
of the IPv4 or ARP header in it. The fields are octets, as `dpkt` has them; texts become octets
through `bytes.fromhex` and `struct.pack`.
-/

namespace TrexCli

abbrev Bytes := List UInt8

/-- A field of six octets. -/
abbrev HardwareAddress := List.Vector UInt8 6

/-- A field of four octets. -/
abbrev PackedIpv4 := List.Vector UInt8 4

/-- The payload of a frame: `dpkt.ip.IP`, `dpkt.arp.ARP`, or anything else. -/
inductive FramePayload where
  | ip (src dst : PackedIpv4)
  | arp (pro pln : Nat) (sha tha : HardwareAddress) (spa tpa : PackedIpv4)
  | other

/-- `dpkt.ethernet.Ethernet` -/
structure EthernetFrame where
  src : HardwareAddress
  dst : HardwareAddress
  payload : FramePayload

/-- The IPv4 addresses of the frame. -/
def EthernetFrame.addresses (frame : EthernetFrame) : List PackedIpv4 :=
  match frame.payload with
  | .ip src dst => [src, dst]
  | .arp _ _ _ _ spa tpa => [spa, tpa]
  | .other => []

/-- The hardware addresses of the frame: two of the Ethernet header, two more of an ARP header. -/
def EthernetFrame.hardwareAddresses (frame : EthernetFrame) : List HardwareAddress :=
  match frame.payload with
  | .arp _ _ sha tha _ _ => [frame.src, frame.dst, sha, tha]
  | _ => [frame.src, frame.dst]

/-- The group bit: set in multicast addresses, of which the broadcast address is one. -/
def HardwareAddress.group (h : HardwareAddress) : Bool := h.head.toNat % 2 = 1

/-- `mac.lower().startswith(prefix)`, of the text of the octets -/
def MacPrefix.coversHardware (p : MacPrefix) (h : HardwareAddress) : Bool :=
  p.octets.isPrefixOf (h.toList.map UInt8.toNat)

namespace PackedIpv4

/-- The number that four octets are, big-endian. -/
def value (a : PackedIpv4) : Nat := a.toList.foldl (fun n o => n * 256 + o.toNat) 0

theorem value_lt (a : PackedIpv4) : a.value < 2 ^ 32 := by
  obtain ⟨bytes, hlength⟩ := a
  match bytes, hlength with
  | [o₁, o₂, o₃, o₄], _ =>
    have h₁ := o₁.toNat_lt
    have h₂ := o₂.toNat_lt
    have h₃ := o₃.toNat_lt
    have h₄ := o₄.toNat_lt
    show (((0 * 256 + o₁.toNat) * 256 + o₂.toNat) * 256 + o₃.toNat) * 256 + o₄.toNat < 2 ^ 32
    omega

/-- `ipaddress.IPv4Address`, of four octets -/
def address (a : PackedIpv4) : IpAddress := ⟨.v4, a.value, a.value_lt⟩

end PackedIpv4

/-- `packed` -/
def IpAddress.packed (a : IpAddress) : PackedIpv4 :=
  ⟨[.ofNat (a.value / 2 ^ 24), .ofNat (a.value / 2 ^ 16), .ofNat (a.value / 2 ^ 8),
    .ofNat a.value], rfl⟩

theorem IpAddress.address_packed {a : IpAddress} (h : a.version = .v4) : a.packed.address = a := by
  obtain ⟨version, value, hlt⟩ := a
  simp only at h
  subst h
  have hlt : value < 2 ^ 32 := hlt
  have hvalue : (⟨.v4, value, hlt⟩ : IpAddress).packed.value = value := by
    show (((0 * 256 + (UInt8.ofNat (value / 2 ^ 24)).toNat) * 256 +
      (UInt8.ofNat (value / 2 ^ 16)).toNat) * 256 + (UInt8.ofNat (value / 2 ^ 8)).toNat) * 256 +
      (UInt8.ofNat value).toNat = value
    simp only [UInt8.toNat_ofNat']
    omega
  unfold PackedIpv4.address
  congr

/-! ### Texts and octets -/

/-- `Py_ISSPACE` -/
def asciiSpace (c : Char) : Bool := c = ' ' ∨ (9 ≤ c.toNat ∧ c.toNat ≤ 13)

/-- `bytes.fromhex`: pairs of digits, with white space before a pair. -/
def fromHex : List Char → Option Bytes
  | [] => some []
  | [c] => if asciiSpace c then some [] else none
  | c :: d :: rest =>
    if asciiSpace c then fromHex (d :: rest)
    else do
      let high ← hexValue c.toLower
      let low ← hexValue d.toLower
      let octets ← fromHex rest
      pure (.ofNat (high * 16 + low) :: octets)

/-- `bytes.fromhex(text.replace(":", ""))` -/
def macOctets (text : String) : Option Bytes := fromHex (text.toList.filter (· ≠ ':'))

/-- `struct.pack("6s", …)`: cut, or filled with zeros. -/
def HardwareAddress.pack (bytes : Bytes) : HardwareAddress :=
  ⟨(bytes ++ List.replicate 6 0).take 6, by simp⟩

/-- Lowering changes capital letters only, and to small ones. -/
theorem toLower_cases (c : Char) :
    c.toLower = c ∨ (65 ≤ c.toNat ∧ c.toNat ≤ 90) ∧ 97 ≤ c.toLower.toNat := by
  unfold Char.toLower
  split
  · rename_i h
    right
    obtain ⟨hlow, hhigh⟩ := h
    have hlow : 65 ≤ c.val.toNat := hlow
    have hhigh : c.val.toNat ≤ 90 := hhigh
    refine ⟨⟨hlow, hhigh⟩, ?_⟩
    show 97 ≤ (c.val + 32).toNat
    rw [UInt32.toNat_add]
    show 97 ≤ (c.val.toNat + 32) % 2 ^ 32
    omega
  · exact .inl rfl

theorem toLower_eq_colon (c : Char) : c.toLower = ':' ↔ c = ':' := by
  rcases toLower_cases c with h | ⟨hupper, hlower⟩
  · rw [h]
  · constructor
    · intro h
      rw [h] at hlower
      exact absurd hlower (by decide)
    · rintro rfl
      exact absurd hupper (by decide)

theorem not_asciiSpace_of_toLower {c : Char} (h : asciiSpace c.toLower = false) :
    asciiSpace c = false := by
  rcases toLower_cases c with heq | ⟨⟨hlow, -⟩, -⟩
  · rwa [heq] at h
  · have hspace : c ≠ ' ' := by
      rintro rfl
      exact absurd hlow (by decide)
    simp only [asciiSpace, hspace, false_or, decide_eq_false_iff_not]
    omega

theorem hexDigit_spec (n : Nat) (h : n < 16) :
    asciiSpace (hexDigit n) = false ∧ hexDigit n ≠ ':' ∧ hexValue (hexDigit n) = some n := by
  revert n
  decide

/-- The octets that a text starts with are those it is read as. -/
theorem fromHex_of_digits {octets : List Nat} (hoctets : ∀ o ∈ octets, o < 256) {text : List Char}
    {bytes : Bytes} (hbytes : fromHex text = some bytes)
    (htext : octets.flatMap octetText <+: text.map Char.toLower) :
    octets <+: bytes.map UInt8.toNat := by
  induction octets generalizing text bytes with
  | nil => exact List.nil_prefix
  | cons o octets ih =>
    have ho : o < 256 := hoctets o (by simp)
    obtain ⟨hspace, -, hhigh⟩ := hexDigit_spec (o / 16) (by omega)
    obtain ⟨-, -, hlow⟩ := hexDigit_spec (o % 16) (by omega)
    match text, htext with
    | [], htext => simp [octetText] at htext
    | [c], htext =>
      have hlength := htext.length_le
      simp [octetText] at hlength
    | c :: d :: rest, htext =>
      simp only [List.flatMap_cons, octetText, List.map_cons, List.cons_append, List.nil_append,
        List.cons_prefix_cons] at htext
      obtain ⟨hc, hd, hrest⟩ := htext
      have hnot : asciiSpace c = false := not_asciiSpace_of_toLower (hc ▸ hspace)
      simp only [fromHex, hnot, ← hc, ← hd, hhigh, hlow] at hbytes
      cases hfrom : fromHex rest with
      | none => simp [hfrom] at hbytes
      | some octets' =>
        simp only [hfrom] at hbytes
        obtain rfl : UInt8.ofNat (o / 16 * 16 + o % 16) :: octets' = bytes := by simpa using hbytes
        rw [List.map_cons, List.cons_prefix_cons]
        refine ⟨?_, ih (fun x hx => hoctets x (by simp [hx])) hfrom hrest⟩
        simp only [UInt8.toNat_ofNat']
        omega

theorem filter_octetsText {octets : List Nat} (hoctets : ∀ o ∈ octets, o < 256) :
    (octetsText octets).filter (· ≠ ':') = octets.flatMap octetText := by
  have hoctet : ∀ o < 256, (octetText o).filter (· ≠ ':') = octetText o := by
    intro o ho
    obtain ⟨-, hhigh, -⟩ := hexDigit_spec (o / 16) (by omega)
    obtain ⟨-, hlow, -⟩ := hexDigit_spec (o % 16) (by omega)
    simp [octetText, hhigh, hlow]
  match octets, hoctets with
  | [], _ => rfl
  | [o], hoctets => simpa [octetsText] using hoctet o (hoctets o (by simp))
  | o :: p :: rest, hoctets =>
    have ih : (octetsText (p :: rest)).filter (· ≠ ':') = (p :: rest).flatMap octetText :=
      filter_octetsText fun x hx => hoctets x (by simp [hx])
    show (octetText o ++ ':' :: octetsText (p :: rest)).filter (· ≠ ':') = _
    rw [List.filter_append, hoctet o (hoctets o (by simp)), List.filter_cons_of_neg (by simp), ih]
    exact List.flatMap_cons.symm

/-- The digits of a text that a prefix covers start with those of the prefix. -/
theorem MacPrefix.digits_of_coversText {p : MacPrefix} {text : String}
    (hcovers : p.coversText text = true) :
    p.octets.flatMap octetText <+: (text.toList.filter (· ≠ ':')).map Char.toLower := by
  have htext : octetsText p.octets <+: text.toList.map Char.toLower := by
    rw [← String.toList_map]
    exact List.isPrefixOf_iff_prefix.mp hcovers
  have hfilter : (text.toList.filter (· ≠ ':')).map Char.toLower =
      (text.toList.map Char.toLower).filter (· ≠ ':') := by
    rw [List.filter_map]
    congr 1
    exact List.filter_congr fun c _ => by simp [toLower_eq_colon]
  rw [hfilter, ← filter_octetsText p.octet]
  exact htext.filter _

/-- What is read from a text that a prefix covers has the prefix. -/
theorem coversHardware_pack {p : MacPrefix} {text : String} {bytes : Bytes}
    (hcovers : p.coversText text = true) (hbytes : macOctets text = some bytes) :
    p.coversHardware (.pack bytes) = true := by
  have hoctets := fromHex_of_digits p.octet hbytes (MacPrefix.digits_of_coversText hcovers)
  refine List.isPrefixOf_iff_prefix.mpr ?_
  show p.octets <+: ((bytes ++ List.replicate 6 0).take 6).map UInt8.toNat
  rw [List.map_take, List.map_append]
  exact List.prefix_take_iff.mpr ⟨hoctets.trans (List.prefix_append _ _), p.length.2⟩

end TrexCli
