import TrexCli.Lib.Json

/-!
# What was dumped is loaded

`loads (dumps v) = some v` for every value whose objects have their keys in order.
-/

namespace JsonValue

variable {F : Type}

/-- The keys of every object ascend. -/
inductive Normal : JsonValue F → Prop
  | null : Normal .null
  | bool (b : Bool) : Normal (.bool b)
  | int (n : Int) : Normal (.int n)
  | float (x : F) : Normal (.float x)
  | str (s : Text) : Normal (.str s)
  | arr (items : List (JsonValue F)) (h : ∀ x ∈ items, Normal x) : Normal (.arr items)
  | obj (fields : List (Text × JsonValue F)) (hkeys : Ascending fields) (h : ∀ f ∈ fields, Normal f.2) :
    Normal (.obj fields)

/-! ### Strings -/

theorem hexValue_digitChar : ∀ n < 16, hexValue (Nat.digitChar n) = some n := by decide

theorem ofCodeUnit_toNat (c : Char) : ofCodeUnit c.toNat = some c := by
  have hvalid : c.toNat.isValidChar := c.valid
  simp [ofCodeUnit, hvalid, Char.ofNat_toNat]

theorem hexValue4_hexDigits {n : Nat} (h : n < 32) :
    hexValue4 '0' '0' (Nat.digitChar (n / 16)) (Nat.digitChar (n % 16)) = some n := by
  have hhigh := hexValue_digitChar (n / 16) (by omega)
  have hlow := hexValue_digitChar (n % 16) (by omega)
  have hzero : hexValue '0' = some 0 := by decide
  have hn : n / 16 * 16 + n % 16 = n := by omega
  simp [hexValue4, hhigh, hlow, hzero, hn]

/-- The unit that the scanner makes of an escaped character. -/
def unitOf (c : Char) : Char ⊕ Nat :=
  if c.toNat < 32 ∧ c ≠ '\n' ∧ c ≠ '\r' ∧ c ≠ '\t' ∧ c ≠ '\x0c' ∧ c ≠ '\x08' then .inr c.toNat
  else .inl c

theorem scanString_plain {c : Char} (hquote : c ≠ '"') (hback : c ≠ '\\') (hc : 32 ≤ c.toNat)
    (rest : Text) :
    scanString (c :: rest) = (scanString rest).map fun (s, r) => (.inl c :: s, r) := by
  have hnot : ¬c.toNat < 32 := by omega
  rw [scanString, if_neg hnot]
  · simpa using hquote
  · intro a b d e rest' h
    exact absurd h hback
  · intro d rest' h
    exact absurd h hback

theorem scanString_escape (c : Char) (rest : Text) :
    scanString (escape c ++ rest) = (scanString rest).map fun (s, r) => (unitOf c :: s, r) := by
  unfold escape
  split_ifs with hquote hback hn hr ht hf hb hcontrol
  · subst hquote
    simp [scanString, unescape, unitOf]
  · subst hback
    simp [scanString, unescape, unitOf]
  · subst hn
    simp [scanString, unescape, unitOf]
  · subst hr
    simp [scanString, unescape, unitOf]
  · subst ht
    simp [scanString, unescape, unitOf]
  · subst hf
    simp [scanString, unescape, unitOf]
  · subst hb
    simp [scanString, unescape, unitOf]
  · have hunit : unitOf c = .inr c.toNat := by simp [unitOf, *]
    simp [hexDigits, scanString, hexValue4_hexDigits hcontrol, hunit]
  · have hunit : unitOf c = .inl c := by simp [unitOf, hcontrol]
    rw [hunit]
    exact scanString_plain hquote hback (by omega) rest

theorem scanString_flatMap_escape (s rest : Text) :
    scanString (s.flatMap escape ++ '"' :: rest) = some (s.map unitOf, rest) := by
  induction s with
  | nil => simp [scanString]
  | cons c s ih => simp [List.append_assoc, scanString_escape, ih]

theorem joinUnits_cons (c : Char) (units : List (Char ⊕ Nat)) :
    joinUnits (unitOf c :: units) = (joinUnits units).map (c :: ·) := by
  unfold unitOf
  split_ifs with h
  · -- a control character is no surrogate
    have hhigh : ∀ low, ofSurrogates c.toNat low = none := by
      intro low
      have hnot : ¬0xD800 ≤ c.toNat := by omega
      simp [ofSurrogates, hnot]
    cases units with
    | nil => simp [joinUnits, ofCodeUnit_toNat]
    | cons unit units =>
      cases unit with
      | inl _ => simp [joinUnits, ofCodeUnit_toNat]
      | inr _ => simp [joinUnits, ofCodeUnit_toNat, hhigh]
  · rfl

theorem joinUnits_map_unitOf (s : Text) : joinUnits (s.map unitOf) = some s := by
  induction s with
  | nil => rfl
  | cons c s ih => rw [List.map_cons, joinUnits_cons, ih, Option.map_some]

theorem parseString_quote (s rest : Text) :
    parseString (s.flatMap escape ++ '"' :: rest) = some (s, rest) := by
  simp [parseString, scanString_flatMap_escape, joinUnits_map_unitOf]

/-! ### Numbers -/

/-- What may stand after a number. -/
def Delimited (rest : Text) : Prop := ∀ c ∈ rest.head?, isNumberChar c = false

theorem takeWhile_number {literal rest : Text} (h : ∀ c ∈ literal, isNumberChar c = true)
    (hrest : Delimited rest) : (literal ++ rest).takeWhile isNumberChar = literal := by
  rw [List.takeWhile_append_of_pos h]
  cases rest with
  | nil => simp
  | cons c rest => simp [hrest c (by simp)]

theorem dropWhile_number {literal rest : Text} (h : ∀ c ∈ literal, isNumberChar c = true)
    (hrest : Delimited rest) : (literal ++ rest).dropWhile isNumberChar = rest := by
  rw [List.dropWhile_append_of_pos h]
  cases rest with
  | nil => simp
  | cons c rest => simp [hrest c (by simp)]

theorem isDigit_of_mem_ofNat {n : Nat} {c : Char} (h : c ∈ Text.ofNat n) : c.isDigit = true :=
  Nat.isDigit_of_mem_toDigits (by decide) (by decide) h

theorem isNatLiteral_cons {c : Char} {rest : Text} (hc : c.isDigit = true) (hzero : c ≠ '0')
    (hrest : ∀ d ∈ rest, d.isDigit = true) : isNatLiteral (c :: rest) = true := by
  cases rest with
  | nil => simpa [isNatLiteral] using hc
  | cons d rest => simpa [isNatLiteral, hc, hzero] using hrest

theorem isNatLiteral_ofNat (n : Nat) : isNatLiteral (Text.ofNat n) = true := by
  have hhead : ∀ m, 0 < m → ∃ c rest, Text.ofNat m = c :: rest ∧ c ≠ '0' := by
    intro m
    induction m using Nat.strongRecOn with
    | ind m ih =>
      intro hm
      unfold Text.ofNat
      rw [Nat.toDigits_eq_if (by omega)]
      split_ifs with hlt
      · refine ⟨m.digitChar, [], rfl, ?_⟩
        have hall : ∀ k < 10, 0 < k → Nat.digitChar k ≠ '0' := by decide
        exact hall m hlt hm
      · obtain ⟨c, rest, heq, hc⟩ := ih (m / 10) (by omega) (by omega)
        rw [Text.ofNat] at heq
        exact ⟨c, rest ++ [(m % 10).digitChar], by rw [heq]; rfl, hc⟩
  by_cases hn : n = 0
  · subst hn
    rfl
  · obtain ⟨c, rest, heq, hc⟩ := hhead n (by omega)
    have hdigits : ∀ d ∈ c :: rest, d.isDigit = true := fun d hd =>
      isDigit_of_mem_ofNat (heq ▸ hd)
    rw [heq]
    exact isNatLiteral_cons (hdigits c (by simp)) hc fun d hd => hdigits d (by simp [hd])

theorem ofNat_ne_nil (n : Nat) : Text.ofNat n ≠ [] := Nat.toDigits_ne_nil

theorem head_ofNat (n : Nat) : ∃ c rest, Text.ofNat n = c :: rest ∧ c.isDigit = true := by
  cases h : Text.ofNat n with
  | nil => exact absurd h (ofNat_ne_nil n)
  | cons c rest => exact ⟨c, rest, rfl, isDigit_of_mem_ofNat (h ▸ List.mem_cons_self)⟩

theorem isIntLiteral_ofInt (n : Int) : isIntLiteral (ofInt n) = true := by
  cases n with
  | negSucc n => simpa [ofInt, isIntLiteral] using isNatLiteral_ofNat (n + 1)
  | ofNat n =>
    obtain ⟨c, rest, heq, hc⟩ := head_ofNat n
    have hminus : c ≠ '-' := by
      rintro rfl
      simp at hc
    have hnat := isNatLiteral_ofNat n
    show isIntLiteral (Text.ofNat n) = true
    rw [heq] at hnat ⊢
    rw [isIntLiteral]
    · exact hnat
    · intro rest' h
      exact hminus (List.cons.inj h).1

theorem intOfLiteral_ofInt (n : Int) : intOfLiteral (ofInt n) = n := by
  have hnat : ∀ m, Nat.ofDigitChars 10 (Text.ofNat m) 0 = m := fun m =>
    Nat.ofDigitChars_ten_toDigits
  cases n with
  | negSucc n => simp [ofInt, intOfLiteral, hnat, Int.negSucc_eq]
  | ofNat n =>
    obtain ⟨c, rest, heq, hc⟩ := head_ofNat n
    have hminus : c ≠ '-' := by
      rintro rfl
      simp at hc
    have hvalue := hnat n
    show intOfLiteral (Text.ofNat n) = n
    rw [heq] at hvalue ⊢
    rw [intOfLiteral, hvalue]
    intro rest' h
    exact hminus (List.cons.inj h).1

theorem isNumberChar_of_mem_ofInt {n : Int} {c : Char} (h : c ∈ ofInt n) :
    isNumberChar c = true := by
  cases n with
  | ofNat n => simp [isNumberChar, isDigit_of_mem_ofNat h]
  | negSucc n =>
    rcases List.mem_cons.mp h with rfl | h
    · rfl
    · simp [isNumberChar, isDigit_of_mem_ofNat h]

/-- A character that starts no other value. -/
theorem ne_of_isNumberChar {c d : Char} (h : isNumberChar c = true) (hd : isNumberChar d = false) :
    c ≠ d := by
  rintro rfl
  simp [h] at hd

variable [FloatRepr F]

theorem parseScalar_number {literal rest : Text} {x : JsonValue F}
    (h : ∀ c ∈ literal, isNumberChar c = true) (hrest : Delimited rest)
    (hx : ofNumber literal = some x) : parseScalar (literal ++ rest) = some (x, rest) := by
  have hnil : literal ≠ [] := by
    rintro rfl
    simp [ofNumber, isIntLiteral, isNatLiteral, isFloatLiteral] at hx
  obtain ⟨c, literal', rfl⟩ := List.exists_cons_of_ne_nil hnil
  have hc : isNumberChar c = true := h c (by simp)
  have hstart : ∀ d, isNumberChar d = false → c ≠ d := fun d => ne_of_isNumberChar hc
  rw [parseScalar]
  · rw [takeWhile_number h hrest, dropWhile_number h hrest, hx, Option.map_some]
  · intro rest' heq
    exact hstart 'n' (by decide) (List.cons.inj heq).1
  · intro rest' heq
    exact hstart 't' (by decide) (List.cons.inj heq).1
  · intro rest' heq
    exact hstart 'f' (by decide) (List.cons.inj heq).1

theorem ofNumber_ofInt (n : Int) : ofNumber (F := F) (ofInt n) = some (.int n) := by
  rw [ofNumber, if_pos (isIntLiteral_ofInt n), intOfLiteral_ofInt]

/-- A float's literal has a fraction or an exponent, so it is no integer. -/
theorem ofNumber_repr (x : F) : ofNumber (FloatRepr.repr x) = some (.float x) := by
  rw [ofNumber, if_neg (FloatRepr.repr_fraction x), if_pos (FloatRepr.repr_literal x),
    FloatRepr.ofLiteral_repr, Option.map_some]

/-! ### Values -/

/-- The first character of a value's text. -/
def Starts (c : Char) : Prop := isNumberChar c = true ∨ c ∈ ['n', 't', 'f', '"', '[', '{']

theorem dumps_starts (v : JsonValue F) : ∃ c rest, dumps v = c :: rest ∧ Starts c := by
  cases v with
  | null => exact ⟨'n', "ull".toList, rfl, by simp [Starts]⟩
  | bool b =>
    cases b with
    | true => exact ⟨'t', "rue".toList, rfl, by simp [Starts]⟩
    | false => exact ⟨'f', "alse".toList, rfl, by simp [Starts]⟩
  | int n =>
    obtain ⟨c, rest, h⟩ := List.exists_cons_of_ne_nil (l := ofInt n) (by
      intro h
      have := isIntLiteral_ofInt n
      simp [h, isIntLiteral, isNatLiteral] at this)
    refine ⟨c, rest, ?_, Or.inl (isNumberChar_of_mem_ofInt (n := n) (by simp [h]))⟩
    simpa [dumps] using h
  | float x =>
    obtain ⟨c, rest, h⟩ := List.exists_cons_of_ne_nil (l := FloatRepr.repr x) (by
      intro h
      have := FloatRepr.repr_literal x
      simp [h, isFloatLiteral, isIntLiteral, isNatLiteral] at this)
    refine ⟨c, rest, ?_, Or.inl (FloatRepr.repr_chars x c (by simp [h]))⟩
    simpa [dumps] using h
  | str s => exact ⟨'"', s.flatMap escape ++ ['"'], by simp [dumps, quote], by simp [Starts]⟩
  | arr items => exact ⟨'[', dumpsItems items, by simp [dumps], by simp [Starts]⟩
  | obj fields => exact ⟨'{', dumpsFields fields, by simp [dumps], by simp [Starts]⟩

theorem Starts.not_space {c : Char} (h : Starts c) : isSpace c = false := by
  rcases h with h | h
  · simp only [isSpace, List.mem_cons, List.not_mem_nil, or_false, decide_eq_false_iff_not, not_or]
    exact ⟨ne_of_isNumberChar h (by decide), ne_of_isNumberChar h (by decide),
      ne_of_isNumberChar h (by decide), ne_of_isNumberChar h (by decide)⟩
  · simp only [List.mem_cons, List.not_mem_nil, or_false] at h
    rcases h with rfl | rfl | rfl | rfl | rfl | rfl <;> decide

theorem Starts.ne_of_closing {c d : Char} (h : Starts c) (hd : d = ']' ∨ d = '}') : c ≠ d := by
  rintro rfl
  rcases hd with rfl | rfl <;> simp [Starts, isNumberChar] at h

theorem skip_of_starts {c : Char} (h : Starts c) (rest : Text) : skip (c :: rest) = c :: rest := by
  simp [skip, h.not_space]

theorem skip_dumps (v : JsonValue F) (rest : Text) : skip (dumps v ++ rest) = dumps v ++ rest := by
  obtain ⟨c, cs, heq, hc⟩ := dumps_starts v
  rw [heq, List.cons_append, skip_of_starts hc]

theorem skip_quote (s rest : Text) : skip (quote s ++ rest) = quote s ++ rest := by
  show skip ('"' :: _) = '"' :: _
  exact skip_of_starts (by simp [Starts]) _

theorem skip_punctuation {c : Char} (h : isSpace c = false) (rest : Text) :
    skip (c :: rest) = c :: rest := by
  simp [skip, h]

theorem delimited_cons {c : Char} (h : isNumberChar c = false) (rest : Text) :
    Delimited (c :: rest) := by
  simpa [Delimited] using h

theorem length_dumps_pos (v : JsonValue F) : 0 < (dumps v).length := by
  obtain ⟨c, rest, heq, -⟩ := dumps_starts v
  simp [heq]

/-- A value that reads back, with enough fuel and before anything that ends it. -/
def ReadsBack (v : JsonValue F) : Prop :=
  ∀ fuel rest, (dumps v).length ≤ fuel → Delimited rest →
    parseValue fuel (dumps v ++ rest) = some (v, rest)

theorem parseValue_scalar {text : Text} {fuel : Nat} {r : Option (JsonValue F × Text)} (c : Char)
    (rest : Text) (htext : text = c :: rest) (hc : c ∉ ['"', '[', '{'])
    (hr : parseScalar text = r) : parseValue (fuel + 1) text = r := by
  subst htext
  rw [parseValue]
  · exact hr
  · intro rest' heq
    exact hc (by simp [(List.cons.inj heq).1])
  · intro rest' heq
    exact hc (by simp [(List.cons.inj heq).1])
  · intro rest' heq
    exact hc (by simp [(List.cons.inj heq).1])

theorem parseItems_dumpsItems {items : List (JsonValue F)} (hne : items ≠ [])
    (h : ∀ x ∈ items, ReadsBack x) (fuel : Nat) (rest : Text)
    (hfuel : (dumpsItems items).length ≤ fuel) :
    parseItems fuel (dumpsItems items ++ rest) = some (items, rest) := by
  induction items generalizing fuel with
  | nil => exact absurd rfl hne
  | cons x xs ih =>
    have hx : ReadsBack x := h x (by simp)
    cases xs with
    | nil =>
      simp only [dumpsItems, List.length_append, List.length_cons, List.length_nil] at hfuel ⊢
      obtain ⟨fuel, rfl⟩ : ∃ k, fuel = k + 1 := ⟨fuel - 1, by omega⟩
      have hvalue := hx fuel (']' :: rest) (by omega) (delimited_cons (by decide) _)
      simp [parseItems, hvalue, skip_punctuation (c := ']') (by decide)]
    | cons y xs =>
      simp only [dumpsItems, List.length_append, List.length_cons] at hfuel ⊢
      obtain ⟨fuel, rfl⟩ : ∃ k, fuel = k + 1 := ⟨fuel - 1, by omega⟩
      have hpos := length_dumps_pos x
      have hvalue := hx fuel (',' :: (dumpsItems (y :: xs) ++ rest)) (by omega)
        (delimited_cons (by decide) _)
      have hskip : skip (dumpsItems (y :: xs) ++ rest) = dumpsItems (y :: xs) ++ rest := by
        cases xs with
        | nil => simpa [dumpsItems] using skip_dumps y _
        | cons z xs => simpa [dumpsItems] using skip_dumps y _
      have hrest := ih (by simp) (fun z hz => h z (by simp [hz])) fuel (by omega)
      simp [parseItems, hvalue, skip_punctuation (c := ',') (by decide), hskip, hrest]

theorem parseFields_dumpsFields {fields : List (Text × JsonValue F)} (hne : fields ≠ [])
    (h : ∀ f ∈ fields, ReadsBack f.2) (fuel : Nat) (rest : Text)
    (hfuel : (dumpsFields fields).length ≤ fuel) :
    parseFields fuel (dumpsFields fields ++ rest) = some (fields, rest) := by
  induction fields generalizing fuel with
  | nil => exact absurd rfl hne
  | cons f fs ih =>
    obtain ⟨key, x⟩ := f
    have hx : ReadsBack x := h (key, x) (by simp)
    have hkey : ∀ tail, parseString (key.flatMap escape ++ ('"' :: tail)) = some (key, tail) :=
      fun tail => parseString_quote key tail
    cases fs with
    | nil =>
      simp only [dumpsFields, List.length_append, List.length_cons, List.length_nil, quote]
        at hfuel ⊢
      obtain ⟨fuel, rfl⟩ : ∃ k, fuel = k + 1 := ⟨fuel - 1, by omega⟩
      have hvalue := hx fuel ('}' :: rest) (by omega) (delimited_cons (by decide) _)
      have hskip := skip_dumps x ('}' :: rest)
      simp [parseFields, hkey, hvalue, hskip, skip_punctuation (c := ':') (by decide),
        skip_punctuation (c := '}') (by decide)]
    | cons g fs =>
      simp only [dumpsFields, List.length_append, List.length_cons, quote] at hfuel ⊢
      obtain ⟨fuel, rfl⟩ : ∃ k, fuel = k + 1 := ⟨fuel - 1, by omega⟩
      have hvalue := hx fuel (',' :: (dumpsFields (g :: fs) ++ rest)) (by omega)
        (delimited_cons (by decide) _)
      have hskip : skip (dumpsFields (g :: fs) ++ rest) = dumpsFields (g :: fs) ++ rest := by
        cases fs with
        | nil => simpa [dumpsFields] using skip_quote g.1 _
        | cons z fs => simpa [dumpsFields] using skip_quote g.1 _
      have hskip' := skip_dumps x (',' :: (dumpsFields (g :: fs) ++ rest))
      have hrest := ih (by simp) (fun z hz => h z (by simp [hz])) fuel (by omega)
      simp [parseFields, hkey, hvalue, hskip, hskip', hrest,
        skip_punctuation (c := ':') (by decide), skip_punctuation (c := ',') (by decide)]

theorem readsBack_number {v : JsonValue F} (hchars : ∀ c ∈ dumps v, isNumberChar c = true)
    (hv : ofNumber (dumps v) = some v) : ReadsBack v := by
  intro fuel rest hfuel hrest
  have hpos := length_dumps_pos v
  obtain ⟨fuel, rfl⟩ : ∃ k, fuel = k + 1 := ⟨fuel - 1, by omega⟩
  obtain ⟨c, cs, heq, -⟩ := dumps_starts v
  have hc : isNumberChar c = true := hchars c (by simp [heq])
  refine parseValue_scalar c (cs ++ rest) (by rw [heq]; rfl) ?_
    (parseScalar_number hchars hrest hv)
  simp only [List.mem_cons, List.not_mem_nil, or_false, not_or]
  exact ⟨ne_of_isNumberChar hc (by decide), ne_of_isNumberChar hc (by decide),
    ne_of_isNumberChar hc (by decide)⟩

theorem readsBack_arr {items : List (JsonValue F)} (h : ∀ x ∈ items, ReadsBack x) :
    ReadsBack (.arr items) := by
  intro fuel rest hfuel _
  simp only [dumps, List.length_cons] at hfuel
  obtain ⟨fuel, rfl⟩ : ∃ k, fuel = k + 1 := ⟨fuel - 1, by omega⟩
  cases items with
  | nil => simp [dumps, dumpsItems, parseValue, skip_punctuation (c := ']') (by decide)]
  | cons x xs =>
    have hitems := parseItems_dumpsItems (by simp) h fuel rest (by omega)
    obtain ⟨c, cs, heq, hc⟩ : ∃ c cs, dumpsItems (x :: xs) = c :: cs ∧ Starts c := by
      obtain ⟨c, cs, heq, hc⟩ := dumps_starts x
      cases xs with
      | nil => exact ⟨c, cs ++ [']'], by simp [dumpsItems, heq], hc⟩
      | cons y xs => exact ⟨c, cs ++ ',' :: dumpsItems (y :: xs), by simp [dumpsItems, heq], hc⟩
    rw [heq] at hitems
    have hclosing : c ≠ ']' := hc.ne_of_closing (Or.inl rfl)
    have hskip := skip_of_starts hc (cs ++ rest)
    have hfirst : ∀ text, c :: (cs ++ rest) = ']' :: text → False := fun text heq =>
      hclosing (List.cons.inj heq).1
    rw [dumps, heq, List.cons_append, parseValue, List.cons_append, hskip]
    split
    · next h => exact absurd h (hfirst _)
    · rw [← List.cons_append, hitems, Option.map_some]

theorem readsBack_obj {fields : List (Text × JsonValue F)} (hkeys : Ascending fields)
    (h : ∀ f ∈ fields, ReadsBack f.2) : ReadsBack (.obj fields) := by
  intro fuel rest hfuel _
  simp only [dumps, List.length_cons] at hfuel
  obtain ⟨fuel, rfl⟩ : ∃ k, fuel = k + 1 := ⟨fuel - 1, by omega⟩
  cases fields with
  | nil => simp [dumps, dumpsFields, parseValue, skip_punctuation (c := '}') (by decide)]
  | cons f fs =>
    have hfields := parseFields_dumpsFields (by simp) h fuel rest (by omega)
    obtain ⟨cs, heq⟩ : ∃ cs, dumpsFields (f :: fs) = '"' :: cs := by
      cases fs with
      | nil => exact ⟨_, by simp [dumpsFields, quote]; rfl⟩
      | cons g fs => exact ⟨_, by simp [dumpsFields, quote]; rfl⟩
    rw [heq] at hfields
    have hskip : skip ('"' :: (cs ++ rest)) = '"' :: (cs ++ rest) :=
      skip_of_starts (by simp [Starts]) _
    rw [dumps, heq, List.cons_append, parseValue, List.cons_append, hskip]
    split
    · next h => exact absurd (List.cons.inj h).1 (by decide)
    · simp only [← List.cons_append, hfields, Option.map_some, ofFields_of_ascending hkeys]

/-- A value whose objects have their keys in order reads back. -/
theorem readsBack {v : JsonValue F} (h : Normal v) : ReadsBack v := by
  induction h with
  | null =>
    intro fuel rest hfuel _
    obtain ⟨fuel, rfl⟩ : ∃ k, fuel = k + 1 := ⟨fuel - 1, by simp [dumps] at hfuel; omega⟩
    exact parseValue_scalar 'n' ("ull".toList ++ rest) rfl (by decide) rfl
  | bool b =>
    intro fuel rest hfuel _
    cases b with
    | true =>
      obtain ⟨fuel, rfl⟩ : ∃ k, fuel = k + 1 := ⟨fuel - 1, by simp [dumps] at hfuel; omega⟩
      exact parseValue_scalar 't' ("rue".toList ++ rest) rfl (by decide) rfl
    | false =>
      obtain ⟨fuel, rfl⟩ : ∃ k, fuel = k + 1 := ⟨fuel - 1, by simp [dumps] at hfuel; omega⟩
      exact parseValue_scalar 'f' ("alse".toList ++ rest) rfl (by decide) rfl
  | int n =>
    exact readsBack_number (fun c hc => isNumberChar_of_mem_ofInt (by simpa [dumps] using hc))
      (by simpa [dumps] using ofNumber_ofInt n)
  | float x =>
    exact readsBack_number (fun c hc => FloatRepr.repr_chars x c (by simpa [dumps] using hc))
      (by simpa [dumps] using ofNumber_repr x)
  | str s =>
    intro fuel rest hfuel _
    obtain ⟨fuel, rfl⟩ : ∃ k, fuel = k + 1 := ⟨fuel - 1, by simp [dumps, quote] at hfuel; omega⟩
    simp [dumps, quote, parseValue, parseString_quote]
  | arr items _ ih => exact readsBack_arr ih
  | obj fields hkeys _ ih => exact readsBack_obj hkeys ih

/-- What was dumped is loaded. -/
theorem loads_dumps {v : JsonValue F} (h : Normal v) : loads (dumps v) = some v := by
  have hread := readsBack h ((dumps v).length + 1) [] (by omega) (by simp [Delimited])
  have hskip := skip_dumps v []
  rw [List.append_nil] at hread hskip
  have hnil : skip [] = [] := rfl
  simp [loads, hskip, hread, hnil]

theorem dumps_inj {v w : JsonValue F} (hv : Normal v) (hw : Normal w) (h : dumps v = dumps w) :
    v = w := by
  have hload := loads_dumps hv
  rw [h, loads_dumps hw] at hload
  exact (Option.some.inj hload).symm

end JsonValue
