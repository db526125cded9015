import TrexCli.Storm.Identities

/-!
# The last address of a pool, read twice

`dhcp_client_mac_end` and `arp_sender_mac_end` compute the same address from a first one and a count.
The first reads digits, the second leaves them to `int`. They agree on every text that `int` does not
read as a number although it has other characters than digits.
-/

namespace TrexCli.Storm

/-! ### Six pairs of digits -/

/-- Six parts of two characters. -/
def SixPairs (mac : Text) : Prop :=
  (macParts mac).length = 6 ∧ ∀ part ∈ macParts mac, part.length = 2

/-- The text is six pairs of hexadecimal digits with colons between them. -/
structure MacDigits (mac digits : Text) : Prop where
  length : digits.length = 12
  hex : IsHex digits
  pairs : mac = colonPairs digits

/-- The pool from a unicast address on that keeps its first two octets. -/
def OnePrefix (first count : Int) : Prop :=
  ¬isMulticast first ∧ 1 ≤ count ∧ first / 2 ^ 32 = (first + count - 1) / 2 ^ 32

/-- The canonical text of the last address of a pool. -/
def IsPoolEnd (start : Text) (count : Int) (text : Text) : Prop :=
  ∃ digits, MacDigits start digits ∧ OnePrefix (hexNumber digits) count ∧
    text = formatMac (hexNumber digits + count - 1).toNat

/-- `int` reads the pairs as the first address of a pool although they are not all digits. -/
def Lenient (start : Text) (count : Int) : Prop :=
  SixPairs start ∧ ¬IsHex (macParts start).flatten ∧
    ∃ first, intHex (macParts start).flatten = some first ∧ OnePrefix first count

/-- Both succeed with the same text or fail, and they succeed with the end of a pool. -/
structure MacEndsAgree (start : Text) (count : Int) : Prop where
  same : ∀ text, arpSenderMacEnd start count = .ok text ↔ dhcpClientMacEnd start count = .ok text
  exact : ∀ text, dhcpClientMacEnd start count = .ok text ↔ IsPoolEnd start count text

/-- Pairs with colons between them are the pairs of their characters. -/
theorem intercalate_eq_colonPairs {parts : List Text} (h : ∀ part ∈ parts, part.length = 2) :
    [':'].intercalate parts = colonPairs parts.flatten := by
  induction parts with
  | nil => rfl
  | cons part parts ih =>
    obtain ⟨c, d, rfl⟩ := List.length_eq_two.mp (h part List.mem_cons_self)
    have hrest := ih fun part hpart => h part (List.mem_cons_of_mem _ hpart)
    cases parts with
    | nil => rfl
    | cons next parts =>
      obtain ⟨e, f, rfl⟩ := List.length_eq_two.mp (h next (by simp))
      rw [List.intercalate_cons_cons, hrest]
      rfl

/-- A text of even length is made of pairs. -/
theorem exists_pairs {count : Nat} {text : Text} (h : text.length = 2 * count) :
    ∃ parts : List Text, parts.length = count ∧ (∀ part ∈ parts, part.length = 2) ∧
      parts.flatten = text := by
  induction count generalizing text with
  | zero =>
    obtain rfl := List.length_eq_zero_iff.mp h
    exact ⟨[], rfl, fun part hpart => (nomatch hpart), rfl⟩
  | succ count ih =>
    rcases text with _ | ⟨c, _ | ⟨d, text⟩⟩
    · simp at h
    · simp at h
      omega
    · have hrest : text.length = 2 * count := by
        simp only [List.length_cons] at h
        omega
      obtain ⟨parts, hlength, hpairs, hflatten⟩ := ih hrest
      refine ⟨[c, d] :: parts, by rw [List.length_cons, hlength], ?_, ?_⟩
      · exact List.forall_mem_cons.mpr ⟨rfl, hpairs⟩
      · rw [List.flatten_cons, hflatten]
        rfl

theorem colon_notMem_of_hex {text : Text} (h : IsHex text) : ':' ∉ text :=
  fun hmem => absurd (h _ hmem) (by decide)

theorem length_flatten_of_sixPairs {mac : Text} (h : SixPairs mac) :
    (macParts mac).flatten.length = 12 := by
  rw [List.length_flatten, List.map_congr_left h.2, List.map_const', List.sum_replicate, h.1]
  rfl

/-- A text is six pairs of digits when its parts are. -/
theorem macDigits_iff {mac digits : Text} :
    MacDigits mac digits ↔
      SixPairs mac ∧ IsHex (macParts mac).flatten ∧ digits = (macParts mac).flatten := by
  constructor
  · rintro ⟨hlength, hhex, rfl⟩
    obtain ⟨parts, hcount, hpairs, rfl⟩ := @exists_pairs 6 _ hlength
    have hparts : macParts (colonPairs parts.flatten) = parts := by
      rw [← intercalate_eq_colonPairs hpairs]
      apply List.splitOn_intercalate
      · intro part hpart
        exact colon_notMem_of_hex fun c hc => hhex c (List.mem_flatten.mpr ⟨part, hpart, hc⟩)
      · rintro rfl
        cases hcount
    rw [SixPairs, hparts]
    exact ⟨⟨hcount, hpairs⟩, hhex, rfl⟩
  · rintro ⟨hpairs, hhex, rfl⟩
    refine ⟨length_flatten_of_sixPairs hpairs, hhex, ?_⟩
    rw [← intercalate_eq_colonPairs hpairs.2]
    exact (List.intercalate_splitOn ':').symm

/-! ### Digit by digit -/

/-- Pairs of digits are octets. -/
theorem exists_octets {parts : List Text} (hpairs : ∀ part ∈ parts, part.length = 2)
    (hhex : IsHex parts.flatten) : ∃ octets, parts.mapM octetValue = some octets := by
  induction parts with
  | nil => exact ⟨[], rfl⟩
  | cons part parts ih =>
    obtain ⟨c, d, rfl⟩ := List.length_eq_two.mp (hpairs part List.mem_cons_self)
    obtain ⟨octets, hoctets⟩ := ih (fun part hpart => hpairs part (List.mem_cons_of_mem _ hpart))
      fun c hc => hhex c (List.mem_append_right _ hc)
    obtain ⟨high, hhigh⟩ := Option.isSome_iff_exists.mp (hhex c (by simp))
    obtain ⟨low, hlow⟩ := Option.isSome_iff_exists.mp (hhex d (by simp))
    refine ⟨(16 * high + low) :: octets, ?_⟩
    simp [List.mapM_cons, octetValue, hhigh, hlow, hoctets]

/-- The octets of a text are the number of its digits. -/
theorem macOctets_number {mac : Text} {n : Nat} :
    (∃ octets, macOctets mac = some octets ∧ octetsNumber octets = n) ↔
      SixPairs mac ∧ IsHex (macParts mac).flatten ∧ hexNumber (macParts mac).flatten = n := by
  constructor
  · rintro ⟨octets, hoctets, rfl⟩
    unfold macOctets at hoctets
    split at hoctets
    · next hlength =>
      obtain ⟨hpairs, hhex, hvalue⟩ := mapM_octetValue hoctets
      exact ⟨⟨hlength, hpairs⟩, hhex, hvalue 0⟩
    · cases hoctets
  · rintro ⟨hpairs, hhex, rfl⟩
    obtain ⟨octets, hoctets⟩ := exists_octets hpairs.2 hhex
    obtain ⟨-, -, hvalue⟩ := mapM_octetValue hoctets
    exact ⟨octets, by rw [macOctets, if_pos hpairs.1, hoctets], (hvalue 0).symm⟩

theorem parseUnicastMac_eq_ok_iff {value : Text} {n : Nat} :
    parseUnicastMac value = .ok n ↔ (SixPairs value ∧ IsHex (macParts value).flatten ∧
      hexNumber (macParts value).flatten = n) ∧ ¬isMulticast n := by
  rw [← macOctets_number]
  unfold parseUnicastMac
  cases hoctets : macOctets value with
  | none => simp
  | some octets =>
    by_cases hgroup : isMulticast (octetsNumber octets)
    · simp only [if_pos hgroup, reduceCtorEq, false_iff, not_and, not_not]
      rintro ⟨_, heq, rfl⟩
      rwa [← Option.some.inj heq]
    · simp only [if_neg hgroup, Except.ok.injEq]
      constructor
      · rintro rfl
        exact ⟨⟨octets, rfl, rfl⟩, hgroup⟩
      · rintro ⟨⟨_, heq, rfl⟩, -⟩
        rw [← Option.some.inj heq]

/-- A pool of one prefix ends below `2 ^ 48` when it starts there, with a unicast address. -/
theorem OnePrefix.end_bounds {first count : Int} (h : OnePrefix first count) (hlt : first < 2 ^ 48) :
    first + count - 1 < 2 ^ 48 ∧ ¬isMulticast (first + count - 1) := by
  obtain ⟨hunicast, hcount, hprefix⟩ := h
  unfold isMulticast at hunicast ⊢
  omega

theorem hexNumber_lt {text : Text} (hne : text ≠ []) (h : IsHex text) :
    hexNumber text < 16 ^ text.length :=
  hexDigits_lt (hexDigits_of_hex hne h)

theorem dhcpClientMacEnd_eq_ok_iff {start : Text} {count : Int} {text : Text} :
    dhcpClientMacEnd start count = .ok text ↔ IsPoolEnd start count text := by
  unfold dhcpClientMacEnd
  rw [check_bind_eq_ok, valueCheck_eq_ok, bind_eq_ok]
  simp only [check_bind_eq_ok, valueCheck_eq_ok, parseUnicastMac_eq_ok_iff]
  constructor
  · rintro ⟨hcount, first, ⟨⟨hpairs, hhex, rfl⟩, hunicast⟩, -, hprefix, -, htext⟩
    exact ⟨_, macDigits_iff.mpr ⟨hpairs, hhex, rfl⟩, ⟨hunicast, hcount, hprefix⟩,
      (Except.ok.inj htext).symm⟩
  · rintro ⟨digits, hdigits, hpool, rfl⟩
    have hlt : (hexNumber digits : Int) < 2 ^ 48 := by
      have hlt := hexNumber_lt (List.ne_nil_of_length_pos (by rw [hdigits.length]; decide)) hdigits.hex
      rw [hdigits.length] at hlt
      exact_mod_cast hlt
    obtain ⟨hspace, hlast⟩ := hpool.end_bounds hlt
    obtain ⟨hpairs, hhex, rfl⟩ := macDigits_iff.mp hdigits
    exact ⟨hpool.2.1, _, ⟨⟨hpairs, hhex, rfl⟩, hpool.1⟩, hspace, hpool.2.2, hlast, rfl⟩

/-! ### By `int` -/

/-- A number of twelve characters is below `2 ^ 48`. -/
theorem intHex_lt {text : Text} {n : Int} (h : intHex text = some n) : n < 16 ^ text.length := by
  have hstrip : ((text.dropWhile isBlank).reverse.dropWhile isBlank).reverse.length ≤
      text.length := by
    have hfirst := (List.dropWhile_sublist isBlank (l := text)).length_le
    have hlast := (List.dropWhile_sublist isBlank (l := (text.dropWhile isBlank).reverse)).length_le
    simp only [List.length_reverse] at hlast ⊢
    omega
  have hbound : ∀ {rest : Text} {k : Nat}, rest.length ≤ text.length →
      hexDigits (dropPrefix rest) = some k → (k : Int) < 16 ^ text.length := by
    intro rest k hrest hk
    have hdigits := (length_dropPrefix_le rest).trans hrest
    have hlt := (hexDigits_lt hk).trans_le (Nat.pow_le_pow_right (by decide) hdigits)
    exact_mod_cast hlt
  unfold intHex at h
  split at h
  · next rest hrest =>
    obtain ⟨k, hk, rfl⟩ := Option.map_eq_some_iff.mp h
    have hpos : (0 : Int) < 16 ^ text.length := by positivity
    omega
  · next rest hrest =>
    obtain ⟨k, hk, rfl⟩ := Option.map_eq_some_iff.mp h
    rw [hrest, List.length_cons] at hstrip
    exact hbound (by omega) hk
  · obtain ⟨k, hk, rfl⟩ := Option.map_eq_some_iff.mp h
    exact hbound hstrip hk

theorem arpMacNumber_eq_ok {start : Text} {first : Int} :
    arpMacNumber start = .ok first ↔ intHex (macParts start).flatten = some first := by
  unfold arpMacNumber
  cases intHex (macParts start).flatten <;> simp

theorem arpSenderMacEnd_eq_ok_iff {start : Text} {count : Int} {text : Text} :
    arpSenderMacEnd start count = .ok text ↔ SixPairs start ∧ ∃ first,
      intHex (macParts start).flatten = some first ∧ OnePrefix first count ∧
        text = colonPairs (hexText (first + count - 1)) := by
  unfold arpSenderMacEnd
  rw [check_bind_eq_ok, valueCheck_eq_ok, bind_eq_ok]
  simp only [check_bind_eq_ok, valueCheck_eq_ok, arpMacNumber_eq_ok]
  constructor
  · rintro ⟨hpairs, first, hfirst, hunicast, hcount, -, hprefix, -, htext⟩
    exact ⟨hpairs, first, hfirst, ⟨hunicast, hcount, hprefix⟩, (Except.ok.inj htext).symm⟩
  · rintro ⟨hpairs, first, hfirst, hpool, rfl⟩
    have hlt := intHex_lt hfirst
    rw [length_flatten_of_sixPairs hpairs] at hlt
    obtain ⟨hspace, hlast⟩ := hpool.end_bounds (by omega)
    exact ⟨hpairs, first, hfirst, hpool.1, hpool.2.1, by omega, hpool.2.2, hlast, rfl⟩

/-! ### Agreement -/

theorem ne_nil_of_sixPairs {mac : Text} (h : SixPairs mac) : (macParts mac).flatten ≠ [] :=
  List.ne_nil_of_length_pos (by rw [length_flatten_of_sixPairs h]; decide)

/-- On digits `int` makes the same address of a pool. -/
theorem arpSenderMacEnd_of_hex {start : Text} {count : Int} {text : Text}
    (hhex : IsHex (macParts start).flatten) :
    arpSenderMacEnd start count = .ok text ↔ IsPoolEnd start count text := by
  rw [arpSenderMacEnd_eq_ok_iff]
  have htext : ∀ first : Nat, OnePrefix first count →
      colonPairs (hexText (first + count - 1)) = formatMac (first + count - 1).toNat := by
    intro first hpool
    have hcount := hpool.2.1
    rw [formatMac, hexText, if_neg (by omega)]
    congr 2
    omega
  constructor
  · rintro ⟨hpairs, first, hfirst, hpool, rfl⟩
    rw [intHex_of_hex (ne_nil_of_sixPairs hpairs) hhex] at hfirst
    cases hfirst
    exact ⟨_, macDigits_iff.mpr ⟨hpairs, hhex, rfl⟩, hpool, htext _ hpool⟩
  · rintro ⟨digits, hdigits, hpool, rfl⟩
    obtain ⟨hpairs, -, rfl⟩ := macDigits_iff.mp hdigits
    exact ⟨hpairs, _, intHex_of_hex (ne_nil_of_sixPairs hpairs) hhex, hpool, (htext _ hpool).symm⟩

end TrexCli.Storm
