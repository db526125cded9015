import Mathlib.Algebra.Order.BigOperators.Group.List
import TrexCli.Lib.Lexicographic
import TrexCli.Lib.Paths
import TrexCli.Replay.Frames

/-!
# The identities of a storm

`dhcp_storm.py` and `arp_storm.py`: the pools of hardware and IPv4 addresses that a storm sends from,
given by a first address and a count. The texts of hardware addresses are read in three ways: digit by
digit for DHCP, by `int` of the digits for ARP and for the engine, and octet by octet for the packet.
-/

namespace TrexCli.Storm

/-! ### Python's `int` of hexadecimal digits -/

/-- The value of a digit; the letters are those of ASCII, the decimal digits those of Unicode. -/
def hexDigitValue (c : Char) : Option Nat :=
  match Text.decimalDigit c with
  | some digit => some digit
  | none => hexValue c.toLower

/-- A blank at the ends of a numeral. -/
def isBlank (c : Char) : Bool :=
  (9 ≤ c.toNat && c.toNat ≤ 13) || c.toNat ∈ [0x20, 0x85, 0xA0, 0x1680, 0x2028, 0x2029, 0x202F, 0x205F,
    0x3000] || (0x2000 ≤ c.toNat && c.toNat ≤ 0x200A)

/-- The number of digits that have single underscores between them, after `value`. -/
def hexDigitsFrom (value : Nat) : Text → Option Nat
  | [] => some value
  | '_' :: c :: rest => (hexDigitValue c).bind fun digit => hexDigitsFrom (16 * value + digit) rest
  | c :: rest => (hexDigitValue c).bind fun digit => hexDigitsFrom (16 * value + digit) rest

/-- The number of digits, the first of which is no underscore. -/
def hexDigits : Text → Option Nat
  | [] => none
  | c :: rest => (hexDigitValue c).bind fun digit => hexDigitsFrom digit rest

/-- The digits after a prefix `0x`, which an underscore may follow. -/
def dropPrefix : Text → Text
  | '0' :: 'x' :: '_' :: rest => rest
  | '0' :: 'X' :: '_' :: rest => rest
  | '0' :: 'x' :: rest => rest
  | '0' :: 'X' :: rest => rest
  | text => text

/-- `int(text, 16)` -/
def intHex (text : Text) : Option Int :=
  match ((text.dropWhile isBlank).reverse.dropWhile isBlank).reverse with
  | '-' :: rest => (hexDigits (dropPrefix rest)).map fun n : Nat => -(n : Int)
  | '+' :: rest => (hexDigits (dropPrefix rest)).map fun n : Nat => (n : Int)
  | rest => (hexDigits (dropPrefix rest)).map fun n : Nat => (n : Int)

/-! ### Hardware addresses -/

/-- `int(mac.replace(":", ""), 16)` -/
def macNumber (mac : Text) : Option Int := intHex (mac.filter (· ≠ ':'))

/-- An octet of two hexadecimal digits. -/
def octetValue : Text → Option Nat
  | [c, d] =>
    match hexValue c.toLower, hexValue d.toLower with
    | some high, some low => some (16 * high + low)
    | _, _ => none
  | _ => none

/-- The parts of a text between colons. -/
def macParts (mac : Text) : List Text := mac.splitOn ':'

/-- The numbers of six octets that are two digits each. -/
def macOctets (mac : Text) : Option (List Nat) :=
  if (macParts mac).length = 6 then (macParts mac).mapM octetValue else none

/-- The number that octets write. -/
def octetsNumber (octets : List Nat) : Nat := octets.foldl (fun n octet => 256 * n + octet) 0

/-- The bit of a group address. -/
def isMulticast (n : Int) : Prop := n / 2 ^ 40 % 2 = 1

instance (n : Int) : Decidable (isMulticast n) := inferInstanceAs (Decidable (_ = _))

/-- `parse_unicast_mac` -/
def parseUnicastMac (value : Text) : Except String Nat :=
  match macOctets value with
  | none => .error "DHCP client MAC must contain six hexadecimal octets"
  | some octets =>
    if isMulticast (octetsNumber octets) then .error "DHCP client MAC must be unicast"
    else .ok (octetsNumber octets)

/-- Pairs of digits with colons between them. -/
def colonPairs : Text → Text
  | c :: d :: e :: rest => c :: d :: ':' :: colonPairs (e :: rest)
  | rest => rest

/-- `f"{n:012x}"`, of a number that has no more digits. -/
def hexText (n : Int) : Text :=
  if n < 0 then '-' :: Lexicographic.fixedDigits 16 11 n.natAbs
  else Lexicographic.fixedDigits 16 12 n.natAbs

/-- `format_mac` -/
def formatMac (value : Nat) : Text := colonPairs (Lexicographic.fixedDigits 16 12 value)

/-- `if not …: raise ValueError(…)` -/
def valueCheck (p : Prop) [Decidable p] (message : String) : Except String Unit :=
  if p then .ok () else .error message

@[simp] theorem valueCheck_eq_ok {p : Prop} [Decidable p] {message : String} :
    valueCheck p message = .ok () ↔ p := by
  unfold valueCheck
  split <;> simp [*]

/-- `dhcp_client_mac_end` -/
def dhcpClientMacEnd (start : Text) (count : Int) : Except String Text := do
  valueCheck (1 ≤ count) "DHCP client count must be greater than zero"
  let first ← parseUnicastMac start
  valueCheck (first + count - 1 < 2 ^ 48) "DHCP client MAC pool exceeds the Ethernet address space"
  valueCheck ((first : Int) / 2 ^ 32 = (first + count - 1) / 2 ^ 32)
    "DHCP client MAC pool must keep the first two octets fixed"
  valueCheck (¬isMulticast (first + count - 1)) "DHCP client MAC pool must remain unicast"
  pure (formatMac (first + count - 1).toNat)

/-- `int` of the digits of the parts. -/
def arpMacNumber (macStart : Text) : Except String Int :=
  match intHex (macParts macStart).flatten with
  | none => .error "ARP sender MAC must contain six hexadecimal octets"
  | some start => .ok start

/-- `arp_sender_mac_end` -/
def arpSenderMacEnd (macStart : Text) (count : Int) : Except String Text := do
  valueCheck ((macParts macStart).length = 6 ∧ ∀ part ∈ macParts macStart, part.length = 2)
    "ARP sender MAC must contain six hexadecimal octets"
  let start ← arpMacNumber macStart
  valueCheck (¬isMulticast start) "ARP sender MAC must be unicast"
  valueCheck (1 ≤ count) "ARP sender count must be greater than zero"
  valueCheck (start + count - 1 ≤ 0xFFFFFFFFFFFF)
    "ARP sender MAC pool exceeds the Ethernet address space"
  valueCheck (start / 2 ^ 32 = (start + count - 1) / 2 ^ 32)
    "ARP sender MAC pool must keep the first two octets fixed"
  valueCheck (¬isMulticast (start + count - 1)) "ARP sender MAC pool must remain unicast"
  pure (colonPairs (hexText (start + count - 1)))

/-- `arp_sender_ipv4_end` -/
def arpSenderIpv4End (ipv4Start : AddressText) (count : Nat) : Except String IpAddress :=
  match ipv4Start.parsed with
  | some ⟨.v4, start, _⟩ =>
    if count < 1 then .error "ARP sender count must be greater than zero"
    else if h : start + count - 1 < 2 ^ 32 then .ok ⟨.v4, start + count - 1, h⟩
    else .error "ARP sender IPv4 pool exceeds the IPv4 address space"
  | _ => .error "ARP sender IPv4 must be a valid IPv4 address"

/-! ### What the texts read as -/

/-- The number of hexadecimal digits of ASCII. -/
def hexNumber (text : Text) : Nat :=
  text.foldl (fun n c => 16 * n + (hexValue c.toLower).getD 0) 0

/-- Hexadecimal digits of ASCII. -/
def IsHex (text : Text) : Prop := ∀ c ∈ text, (hexValue c.toLower).isSome = true

/-- The hexadecimal digits of ASCII. -/
def hexChars : Text := "0123456789abcdefABCDEF".toList

theorem mem_hexChars {c : Char} (h : (hexValue c.toLower).isSome = true) : c ∈ hexChars := by
  obtain ⟨digit, hdigit⟩ := Option.isSome_iff_exists.mp h
  rw [hexValue, List.idxOf?_eq_some_iff] at hdigit
  obtain ⟨hlt, hget, -⟩ := hdigit
  have hlower : ∀ c ∈ "0123456789abcdef".toList, c ∈ hexChars := forall_mem_of_all (by decide)
  have hupper : ∀ c ∈ "0123456789abcdef".toList, 97 ≤ c.toNat →
      (Char.ofNat (c.toNat - 32)) ∈ hexChars ∧ (Char.ofNat (c.toNat - 32)).toNat = c.toNat - 32 :=
    forall_mem_of_all (by decide)
  have hmem : c.toLower ∈ "0123456789abcdef".toList := hget ▸ List.getElem_mem hlt
  rcases toLower_cases c with hsame | ⟨hrange, hsmall⟩
  · rw [← hsame]
    exact hlower _ hmem
  · obtain ⟨hchar, hcode⟩ := hupper _ hmem hsmall
    have hnat := Text.toNat_toLower c
    rw [if_pos hrange] at hnat
    have hc : c = Char.ofNat (c.toLower.toNat - 32) := Text.toNat_inj (by omega)
    rw [hc]
    exact hchar

/-- What `int` makes of a digit of ASCII: its value, and nothing that is not a digit. -/
theorem hexChars_spec : ∀ c ∈ hexChars, hexDigitValue c = hexValue c.toLower ∧ isBlank c = false ∧
    c ≠ '_' ∧ c ≠ '-' ∧ c ≠ '+' ∧ c ≠ ':' ∧ c ≠ 'x' ∧ c ≠ 'X' :=
  forall_mem_of_all (by decide)

theorem hexDigitsFrom_of_hex {text : Text} (h : IsHex text) (value : Nat) :
    hexDigitsFrom value text =
      some (text.foldl (fun n c => 16 * n + (hexValue c.toLower).getD 0) value) := by
  induction text generalizing value with
  | nil => rfl
  | cons c text ih =>
    obtain ⟨digit, hdigit⟩ := Option.isSome_iff_exists.mp (h c List.mem_cons_self)
    obtain ⟨hvalue, -, hunderscore, -⟩ := hexChars_spec c (mem_hexChars (h c List.mem_cons_self))
    have hrest : IsHex text := fun d hd => h d (List.mem_cons_of_mem _ hd)
    have hstep : hexDigitsFrom value (c :: text) =
        (hexDigitValue c).bind fun digit => hexDigitsFrom (16 * value + digit) text := by
      rw [hexDigitsFrom.eq_def]
      split
      · next heq => exact absurd heq (by simp)
      · next heq => exact absurd (List.cons.inj heq).1 hunderscore
      · next heq =>
        obtain ⟨rfl, rfl⟩ := List.cons.inj heq
        rfl
    rw [hstep, hvalue, hdigit, Option.bind_some, ih hrest, List.foldl_cons, hdigit]
    rfl

theorem hexDigits_of_hex {text : Text} (hne : text ≠ []) (h : IsHex text) :
    hexDigits text = some (hexNumber text) := by
  obtain ⟨c, rest, rfl⟩ := List.exists_cons_of_ne_nil hne
  obtain ⟨digit, hdigit⟩ := Option.isSome_iff_exists.mp (h c List.mem_cons_self)
  have hrest : IsHex rest := fun d hd => h d (List.mem_cons_of_mem _ hd)
  obtain ⟨hvalue, -⟩ := hexChars_spec c (mem_hexChars (h c List.mem_cons_self))
  rw [hexDigits, hvalue, hdigit, Option.bind_some, hexDigitsFrom_of_hex hrest]
  simp [hexNumber, hdigit]

/-- Digits have no prefix. -/
theorem dropPrefix_of_hex {text : Text} (h : IsHex text) : dropPrefix text = text := by
  have hx : 'x' ∉ text ∧ 'X' ∉ text :=
    ⟨fun hmem => absurd (h _ hmem) (by decide), fun hmem => absurd (h _ hmem) (by decide)⟩
  unfold dropPrefix
  split <;> simp_all

theorem dropWhile_eq_self {p : Char → Bool} {text : Text} (h : ∀ c ∈ text, p c = false) :
    text.dropWhile p = text := by
  cases text with
  | nil => rfl
  | cons c rest => rw [List.dropWhile_cons_of_neg (by simp [h c List.mem_cons_self])]

theorem strip_eq_self {text : Text} (h : ∀ c ∈ text, isBlank c = false) :
    ((text.dropWhile isBlank).reverse.dropWhile isBlank).reverse = text := by
  rw [dropWhile_eq_self h, dropWhile_eq_self (by simpa using h), List.reverse_reverse]

theorem isBlank_of_hex {text : Text} (h : IsHex text) : ∀ c ∈ text, isBlank c = false :=
  fun c hc => (hexChars_spec c (mem_hexChars (h c hc))).2.1

/-- `int` of digits of ASCII. -/
theorem intHex_of_hex {text : Text} (hne : text ≠ []) (h : IsHex text) :
    intHex text = some (hexNumber text : Int) := by
  have hspec := fun c hc => hexChars_spec c (mem_hexChars (h c hc))
  unfold intHex
  rw [strip_eq_self (isBlank_of_hex h)]
  split
  · exact absurd rfl (hspec '-' List.mem_cons_self).2.2.2.1
  · exact absurd rfl (hspec '+' List.mem_cons_self).2.2.2.2.1
  · rw [dropPrefix_of_hex h, hexDigits_of_hex hne h]
    rfl

/-- `int` of digits of ASCII after a minus. -/
theorem intHex_neg_of_hex {text : Text} (hne : text ≠ []) (h : IsHex text) :
    intHex ('-' :: text) = some (-(hexNumber text : Int)) := by
  have hblank : ∀ c ∈ '-' :: text, isBlank c = false := by
    intro c hc
    rcases List.mem_cons.mp hc with rfl | hc
    · decide
    · exact isBlank_of_hex h c hc
  unfold intHex
  rw [strip_eq_self hblank]
  show (hexDigits (dropPrefix text)).map (fun n : Nat => -(n : Int)) = _
  rw [dropPrefix_of_hex h, hexDigits_of_hex hne h]
  rfl

theorem hexDigitValue_lt {c : Char} {digit : Nat} (h : hexDigitValue c = some digit) : digit < 16 := by
  unfold hexDigitValue at h
  split at h
  · next d hd =>
    cases h
    rw [Text.decimalDigit, Option.map_eq_some_iff] at hd
    obtain ⟨first, hfirst, rfl⟩ := hd
    have hrange : first ≤ c.toNat ∧ c.toNat < first + 10 := by simpa using List.find?_some hfirst
    omega
  · rw [hexValue, List.idxOf?_eq_some_iff] at h
    exact h.choose

theorem hexDigitsFrom_lt {value k n : Nat} {text : Text} (hvalue : value < 16 ^ k)
    (h : hexDigitsFrom value text = some n) : n < 16 ^ (k + text.length) := by
  fun_induction hexDigitsFrom value text generalizing k with
  | case1 value =>
    cases h
    exact hvalue
  | case2 value c rest ih =>
    obtain ⟨digit, hdigit, h⟩ := Option.bind_eq_some_iff.mp h
    have hlt := hexDigitValue_lt hdigit
    have hstep : 16 * value + digit < 16 ^ (k + 1) := by
      rw [Nat.pow_succ]
      omega
    refine (ih digit hstep h).trans_le (Nat.pow_le_pow_right (by decide) ?_)
    simp only [List.length_cons]
    omega
  | case3 value c rest _ ih =>
    obtain ⟨digit, hdigit, h⟩ := Option.bind_eq_some_iff.mp h
    have hlt := hexDigitValue_lt hdigit
    have hstep : 16 * value + digit < 16 ^ (k + 1) := by
      rw [Nat.pow_succ]
      omega
    refine (ih digit hstep h).trans_le (Nat.pow_le_pow_right (by decide) ?_)
    simp only [List.length_cons]
    omega

theorem hexDigits_lt {text : Text} {n : Nat} (h : hexDigits text = some n) : n < 16 ^ text.length := by
  cases text with
  | nil => cases h
  | cons c rest =>
    obtain ⟨digit, hdigit, h⟩ := Option.bind_eq_some_iff.mp h
    have hlt := hexDigitsFrom_lt (k := 1) (hexDigitValue_lt hdigit) h
    rwa [Nat.add_comm] at hlt

theorem length_dropPrefix_le (text : Text) : (dropPrefix text).length ≤ text.length := by
  unfold dropPrefix
  split <;> simp <;> omega

/-- A minus takes the place of a digit. -/
theorem lt_of_intHex {text : Text} {n : Int} {width : Nat} (hlength : text.length ≤ width + 1)
    (h : intHex text = some n) : -(16 : Int) ^ width < n := by
  have hstrip : ((text.dropWhile isBlank).reverse.dropWhile isBlank).reverse.length ≤ width + 1 := by
    have hfirst := (List.dropWhile_sublist isBlank (l := text)).length_le
    have hlast := (List.dropWhile_sublist isBlank (l := (text.dropWhile isBlank).reverse)).length_le
    simp only [List.length_reverse] at hlast ⊢
    omega
  have hpos : (0 : Int) < 16 ^ width := by positivity
  unfold intHex at h
  split at h
  · next rest hrest =>
    obtain ⟨k, hk, rfl⟩ := Option.map_eq_some_iff.mp h
    rw [hrest, List.length_cons] at hstrip
    have hdigits : (dropPrefix rest).length ≤ width := by
      have := length_dropPrefix_le rest
      omega
    have hlt : k < 16 ^ width :=
      (hexDigits_lt hk).trans_le (Nat.pow_le_pow_right (by decide) hdigits)
    have hcast : (k : Int) < 16 ^ width := by exact_mod_cast hlt
    omega
  · obtain ⟨k, -, rfl⟩ := Option.map_eq_some_iff.mp h
    omega
  · obtain ⟨k, -, rfl⟩ := Option.map_eq_some_iff.mp h
    omega

/-! ### The texts of numbers -/

/-- The number without its upper digits. -/
theorem hexNumber_fixedDigits {width n : Nat} (h : n < 16 ^ width) :
    hexNumber (Lexicographic.fixedDigits 16 width n) = n := by
  induction width generalizing n with
  | zero =>
    rw [Nat.pow_zero] at h
    obtain rfl : n = 0 := by omega
    rfl
  | succ width ih =>
    have hdigit : ∀ d < 16, (hexValue (Nat.digitChar d).toLower).getD 0 = d := by decide
    rw [Nat.pow_succ'] at h
    have hupper := ih (Nat.div_lt_of_lt_mul h)
    rw [hexNumber] at hupper ⊢
    rw [Lexicographic.fixedDigits, List.foldl_append, hupper, List.foldl_cons, List.foldl_nil,
      hdigit _ (Nat.mod_lt _ (by decide))]
    exact Nat.div_add_mod n 16

theorem isHex_fixedDigits (width n : Nat) : IsHex (Lexicographic.fixedDigits 16 width n) := by
  have hdigit : ∀ d < 16, (hexValue (Nat.digitChar d).toLower).isSome = true := by decide
  induction width generalizing n with
  | zero => exact fun c hc => nomatch hc
  | succ width ih =>
    intro c hc
    rw [Lexicographic.fixedDigits, List.mem_append, List.mem_singleton] at hc
    rcases hc with hc | rfl
    · exact ih _ c hc
    · exact hdigit _ (Nat.mod_lt _ (by decide))

/-- Digits in another case. -/
theorem hexNumber_toLower (text : Text) : hexNumber (text.map Char.toLower) = hexNumber text := by
  rw [hexNumber, List.foldl_map]
  simp only [Text.toLower_toLower]
  rfl

theorem isHex_toLower {text : Text} (h : IsHex (text.map Char.toLower)) : IsHex text := by
  intro c hc
  have hlower := h c.toLower (List.mem_map_of_mem hc)
  rwa [Text.toLower_toLower] at hlower

/-- The digits of pairs. -/
theorem filter_colonPairs : ∀ {text : Text}, ':' ∉ text → (colonPairs text).filter (· ≠ ':') = text
  | [], _ => rfl
  | [_], h => List.filter_eq_self.mpr fun d hd => decide_eq_true fun heq => h (heq ▸ hd)
  | [_, _], h => List.filter_eq_self.mpr fun d hd => decide_eq_true fun heq => h (heq ▸ hd)
  | c :: d :: e :: rest, h => by
    simp only [List.mem_cons, not_or] at h
    have ih : (colonPairs (e :: rest)).filter (· ≠ ':') = e :: rest :=
      filter_colonPairs (by simp [h])
    have hc : c ≠ ':' := Ne.symm h.1
    have hd : d ≠ ':' := Ne.symm h.2.1
    rw [colonPairs, List.filter_cons_of_pos (by simpa using hc),
      List.filter_cons_of_pos (by simpa using hd), List.filter_cons_of_neg (by simp), ih]

theorem colon_notMem_hexText (n : Int) : ':' ∉ hexText n := by
  have hdigits : ∀ width n, ':' ∉ Lexicographic.fixedDigits 16 width n := fun width n hmem =>
    absurd (isHex_fixedDigits width n _ hmem) (by decide)
  unfold hexText
  split
  · simpa using hdigits 11 _
  · exact hdigits 12 _

theorem filter_toLower (text : Text) : (text.map Char.toLower).filter (· ≠ ':') =
    (text.filter (· ≠ ':')).map Char.toLower := by
  rw [List.filter_map]
  congr 1
  exact List.filter_congr fun c _ => by simp [toLower_eq_colon]

/-- The parts without the colons. -/
theorem flatten_macParts (mac : Text) : (macParts mac).flatten = mac.filter (· ≠ ':') := by
  unfold macParts
  induction mac with
  | nil => rfl
  | cons c mac ih =>
    rw [List.splitOn_cons_eq_if_modifyHead]
    by_cases hc : c = ':'
    · subst hc
      rw [if_pos (by simp), List.filter_cons_of_neg (by simp), ← ih]
      rfl
    · rw [if_neg (by simpa using hc), List.filter_cons_of_pos (by simpa using hc), ← ih]
      rcases hparts : mac.splitOn ':' with _ | ⟨first, others⟩
      · exact absurd hparts (List.splitOn_ne_nil _ _)
      · rfl

/-! ### Pools -/

/-- What an accepted pool is: the numbers of its two texts, which agree on the two upper octets. -/
structure Pool (macStart macEnd : Text) (count : Nat) (start : Int) : Prop where
  parts : (macParts macStart).length = 6 ∧ ∀ part ∈ macParts macStart, part.length = 2
  first : macNumber macStart = some start
  last : macNumber macEnd = some (start + count - 1)
  digits : (macEnd.filter (· ≠ ':')).map Char.toLower = hexText (start + count - 1)
  le : start + count - 1 < 2 ^ 48
  onePrefix : start / 2 ^ 32 = (start + count - 1) / 2 ^ 32

/-- The text of a number reads as the number, in either case. -/
theorem macNumber_of_digits {mac : Text} {n : Int} (hlow : -(2 : Int) ^ 44 < n) (hhigh : n < 2 ^ 48)
    (h : (mac.filter (· ≠ ':')).map Char.toLower = hexText n) : macNumber mac = some n := by
  have hdigits : ∀ {text : Text} {width k : Nat}, 0 < width → k < 16 ^ width →
      text.map Char.toLower = Lexicographic.fixedDigits 16 width k →
      text ≠ [] ∧ IsHex text ∧ hexNumber text = k := by
    intro text width k hwidth hk htext
    refine ⟨?_, isHex_toLower (htext ▸ isHex_fixedDigits width k), ?_⟩
    · rintro rfl
      have hlength := congrArg List.length htext
      rw [Lexicographic.length_fixedDigits] at hlength
      exact hwidth.ne hlength
    · rw [← hexNumber_toLower, htext, hexNumber_fixedDigits hk]
  rw [macNumber]
  unfold hexText at h
  by_cases hneg : n < 0
  · rw [if_pos hneg] at h
    obtain ⟨c, rest, hmac, hc, hrest⟩ := List.map_eq_cons_iff.mp h
    obtain rfl := (Text.toLower_eq_iff (by decide)).mp hc
    obtain ⟨hne, hhex, hnumber⟩ := hdigits (by decide) (by norm_num; omega) hrest
    rw [hmac, intHex_neg_of_hex hne hhex, hnumber]
    congr 1
    omega
  · rw [if_neg hneg] at h
    obtain ⟨hne, hhex, hnumber⟩ := hdigits (by decide) (by norm_num; omega) h
    rw [intHex_of_hex hne hhex, hnumber]
    congr 1
    omega

/-- Parts that are octets: their digits write the octets. -/
theorem mapM_octetValue {parts : List Text} {octets : List Nat}
    (h : parts.mapM octetValue = some octets) :
    (∀ part ∈ parts, part.length = 2) ∧ IsHex parts.flatten ∧
      ∀ value, parts.flatten.foldl (fun n c => 16 * n + (hexValue c.toLower).getD 0) value =
        octets.foldl (fun n octet => 256 * n + octet) value := by
  induction parts generalizing octets with
  | nil =>
    cases h
    exact ⟨fun part hpart => (nomatch hpart), fun c hc => (nomatch hc), fun _ => rfl⟩
  | cons part parts ih =>
    rw [List.mapM_cons] at h
    obtain ⟨octet, hoctet, h⟩ := Option.bind_eq_some_iff.mp h
    obtain ⟨rest, hrest, h⟩ := Option.bind_eq_some_iff.mp h
    cases h
    obtain ⟨hlengths, hhex, hvalue⟩ := ih hrest
    unfold octetValue at hoctet
    split at hoctet
    · next c d =>
      split at hoctet
      · next high low hhigh hlow =>
        cases hoctet
        refine ⟨?_, ?_, fun value => ?_⟩
        · intro part hpart
          rcases List.mem_cons.mp hpart with rfl | hpart
          · rfl
          · exact hlengths part hpart
        · intro e he
          rw [List.flatten_cons, List.mem_append] at he
          rcases he with he | he
          · rcases List.mem_pair.mp he with rfl | rfl
            · rw [hhigh]
              rfl
            · rw [hlow]
              rfl
          · exact hhex e he
        · rw [List.flatten_cons, List.foldl_append, hvalue]
          simp only [List.foldl_cons, List.foldl_nil, hhigh, hlow, Option.getD_some]
          congr 1
          omega
      · cases hoctet
    · cases hoctet

/-- The octets of a text of six of them are its number. -/
theorem macOctets_eq_some {mac : Text} {octets : List Nat} (h : macOctets mac = some octets) :
    ((macParts mac).length = 6 ∧ ∀ part ∈ macParts mac, part.length = 2) ∧
      macNumber mac = some (octetsNumber octets : Int) := by
  unfold macOctets at h
  split at h
  · next hlength =>
    obtain ⟨hparts, hhex, hvalue⟩ := mapM_octetValue h
    refine ⟨⟨hlength, hparts⟩, ?_⟩
    rw [macNumber, ← flatten_macParts, intHex_of_hex ?_ hhex, hexNumber, hvalue]
    · rfl
    · intro hnil
      rcases hmac : macParts mac with _ | ⟨part, rest⟩
      · rw [hmac] at hlength
        cases hlength
      · rw [hmac, List.flatten_cons, List.append_eq_nil_iff] at hnil
        have hpart := hparts part (hmac ▸ List.mem_cons_self)
        rw [hnil.1] at hpart
        cases hpart
  · cases h

theorem parseUnicastMac_eq_ok {value : Text} {n : Nat} (h : parseUnicastMac value = .ok n) :
    ∃ octets, macOctets value = some octets ∧ n = octetsNumber octets := by
  unfold parseUnicastMac at h
  split at h
  · cases h
  · next octets hoctets =>
    split at h
    · cases h
    · cases h
      exact ⟨octets, hoctets, rfl⟩

/-- The text of the last address is that of its number. -/
theorem digits_of_colonPairs {macEnd : Text} {n : Int}
    (h : colonPairs (hexText n) = macEnd.map Char.toLower) :
    (macEnd.filter (· ≠ ':')).map Char.toLower = hexText n := by
  rw [← filter_toLower, ← h, filter_colonPairs (colon_notMem_hexText n)]

/-- The pools of DHCP clients. -/
theorem dhcpClientMacEnd_pool {macStart macEnd : Text} {count : Nat}
    (h : dhcpClientMacEnd macStart count = .ok (macEnd.map Char.toLower)) :
    ∃ octets, macOctets macStart = some octets ∧
      Pool macStart macEnd count (octetsNumber octets) := by
  unfold dhcpClientMacEnd at h
  rw [check_bind_eq_ok, valueCheck_eq_ok] at h
  obtain ⟨hpos, h⟩ := h
  obtain ⟨first, hfirst, h⟩ := bind_eq_ok.mp h
  obtain ⟨octets, hoctets, rfl⟩ := parseUnicastMac_eq_ok hfirst
  simp only [check_bind_eq_ok, valueCheck_eq_ok] at h
  obtain ⟨hspace, honePrefix, -, h⟩ := h
  obtain ⟨hparts, hnumber⟩ := macOctets_eq_some hoctets
  have htext : colonPairs (hexText ((octetsNumber octets : Int) + count - 1)) =
      macEnd.map Char.toLower := by
    rw [← Except.ok.inj h, formatMac, hexText, if_neg (by omega)]
    congr 2
    omega
  have hdigits := digits_of_colonPairs htext
  refine ⟨octets, hoctets, hparts, hnumber, macNumber_of_digits ?_ ?_ hdigits, hdigits, ?_, ?_⟩
  all_goals omega

/-- The pools of ARP senders. -/
theorem arpSenderMacEnd_pool {macStart macEnd : Text} {count : Nat}
    (h : arpSenderMacEnd macStart count = .ok (macEnd.map Char.toLower)) :
    ∃ start, Pool macStart macEnd count start := by
  unfold arpSenderMacEnd at h
  rw [check_bind_eq_ok, valueCheck_eq_ok] at h
  obtain ⟨hparts, h⟩ := h
  obtain ⟨start, hstart, h⟩ := bind_eq_ok.mp h
  simp only [check_bind_eq_ok, valueCheck_eq_ok] at h
  obtain ⟨hunicast, hpos, hspace, honePrefix, -, h⟩ := h
  have hnumber : macNumber macStart = some start := by
    unfold arpMacNumber at hstart
    split at hstart
    · cases hstart
    · next start' hread =>
      cases hstart
      rw [macNumber, ← flatten_macParts]
      exact hread
  have hdigits := digits_of_colonPairs (Except.ok.inj h)
  have hlow : -(2 : Int) ^ 44 < start + count - 1 := by
    have hlength : (macParts macStart).flatten.length ≤ 11 + 1 := by
      rw [List.length_flatten]
      have hsum := List.sum_le_card_nsmul ((macParts macStart).map List.length) 2 (by
        intro n hn
        obtain ⟨part, hpart, rfl⟩ := List.mem_map.mp hn
        exact (hparts.2 part hpart).le)
      rw [List.length_map, hparts.1] at hsum
      exact hsum
    have hread := hnumber
    rw [macNumber, ← flatten_macParts] at hread
    have hbound := lt_of_intHex hlength hread
    have hpow : (16 : Int) ^ 11 = 2 ^ 44 := by norm_num
    omega
  exact ⟨start, hparts, hnumber, macNumber_of_digits hlow (by omega) hdigits, hdigits, by omega,
    honePrefix⟩

end TrexCli.Storm
