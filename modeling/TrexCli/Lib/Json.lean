import Mathlib.Data.List.Nodup
import Mathlib.Data.List.Perm.Basic
import Mathlib.Data.Rat.Defs
import TrexCli.Lib.Paths

/-!
# JSON values and their texts

The values and the texts of Python's `json`. An object is kept in the order of its keys, since
dictionaries are equal whatever the order of theirs is; `dumps` is with `sort_keys`, without spaces
and with `ensure_ascii=False`, and `loads` is the parser, where the last of two equal keys counts.
Finite floats are a parameter, with their `repr` and the reading of a literal; `NaN` and the
infinities are not values here, and neither are lone surrogates.
-/

inductive JsonValue (F : Type) where
  | null
  | bool (b : Bool)
  | int (n : Int)
  | float (x : F)
  | str (s : Text)
  | arr (items : List (JsonValue F))
  | obj (fields : List (Text × JsonValue F))

namespace JsonValue

/-- The characters of number literals. -/
def isNumberChar (c : Char) : Bool := c.isDigit || c ∈ ['-', '+', '.', 'e', 'E']

/-- `0|[1-9]\d*` -/
def isNatLiteral : Text → Bool
  | [] => false
  | [c] => c.isDigit
  | c :: rest => c.isDigit && c ≠ '0' && rest.all Char.isDigit

/-- `-?(0|[1-9]\d*)` -/
def isIntLiteral : Text → Bool
  | '-' :: rest => isNatLiteral rest
  | text => isNatLiteral text

/-- `([eE][-+]?\d+)?` -/
def isExponent : Text → Bool
  | [] => true
  | e :: rest =>
    let digits := match rest with
      | '-' :: digits => digits
      | '+' :: digits => digits
      | digits => digits
    (e = 'e' || e = 'E') && !digits.isEmpty && digits.all Char.isDigit

/-- An integer literal with a fraction or an exponent. -/
def isFloatLiteral (text : Text) : Bool :=
  let mantissa := text.takeWhile fun c => c.isDigit || c = '-'
  let rest := text.dropWhile fun c => c.isDigit || c = '-'
  isIntLiteral mantissa && match rest with
    | '.' :: rest =>
      !(rest.takeWhile Char.isDigit).isEmpty && isExponent (rest.dropWhile Char.isDigit)
    | [] => false
    | rest => isExponent rest

/-- Finite floats: what they print as, the float of a literal, the float of an integer unless it is
too large, and the rational a float is. -/
class FloatRepr (F : Type) where
  repr : F → Text
  ofLiteral : Text → Option F
  ofInt : Int → Option F
  value : F → Rat
  repr_literal : ∀ x, isFloatLiteral (repr x) = true
  repr_fraction : ∀ x, ¬isIntLiteral (repr x) = true
  repr_chars : ∀ x, ∀ c ∈ repr x, isNumberChar c = true
  ofLiteral_repr : ∀ x, ofLiteral (repr x) = some x

/-- There are no floats. -/
instance : FloatRepr Empty where
  repr x := x.elim
  ofLiteral _ := none
  ofInt _ := none
  value x := x.elim
  repr_literal x := x.elim
  repr_fraction x := x.elim
  repr_chars x := x.elim
  ofLiteral_repr x := x.elim

variable {F : Type}

theorem induct {P : JsonValue F → Prop} (null : P .null) (bool : ∀ b, P (.bool b)) (int : ∀ n, P (.int n))
    (float : ∀ x, P (.float x)) (str : ∀ s, P (.str s))
    (arr : ∀ items, (∀ x ∈ items, P x) → P (.arr items))
    (obj : ∀ fields, (∀ f ∈ fields, P f.2) → P (.obj fields)) (j : JsonValue F) : P j := by
  refine @JsonValue.rec F P (fun items => ∀ x ∈ items, P x) (fun fields => ∀ f ∈ fields, P f.2)
    (fun f => P f.2) null bool int float str arr obj ?_ ?_ ?_ ?_ ?_ j
  · simp
  · intro x xs hx hxs y hy
    rcases List.mem_cons.mp hy with rfl | hy
    · exact hx
    · exact hxs y hy
  · simp
  · intro x xs hx hxs y hy
    rcases List.mem_cons.mp hy with rfl | hy
    · exact hx
    · exact hxs y hy
  · intro _ _ h
    exact h

/-! ### Equality -/

section

variable [DecidableEq F]

mutual

def beq : JsonValue F → JsonValue F → Bool
  | .null, .null => true
  | .bool a, .bool b => a = b
  | .int m, .int n => m = n
  | .float x, .float y => x = y
  | .str s, .str t => s = t
  | .arr xs, .arr ys => beqItems xs ys
  | .obj fs, .obj gs => beqFields fs gs
  | _, _ => false

def beqItems : List (JsonValue F) → List (JsonValue F) → Bool
  | [], [] => true
  | x :: xs, y :: ys => beq x y && beqItems xs ys
  | _, _ => false

def beqFields : List (Text × JsonValue F) → List (Text × JsonValue F) → Bool
  | [], [] => true
  | (k, x) :: fs, (l, y) :: gs => decide (k = l) && (beq x y && beqFields fs gs)
  | _, _ => false

end

theorem beq_iff (v : JsonValue F) : ∀ w, beq v w = true ↔ v = w := by
  induction v using JsonValue.induct with
  | null | bool | int | float | str => intro w; cases w <;> simp [beq]
  | arr items ih =>
    have hitems : ∀ ys, beqItems items ys = true ↔ items = ys := by
      induction items with
      | nil => intro ys; cases ys <;> simp [beqItems]
      | cons x xs ihxs =>
        intro ys
        cases ys with
        | nil => simp [beqItems]
        | cons y ys =>
          have hx := ih x (by simp) y
          have hxs := ihxs (fun z hz => ih z (by simp [hz])) ys
          simp [beqItems, hx, hxs]
    intro w
    cases w <;> simp [beq, hitems]
  | obj fields ih =>
    have hfields : ∀ gs, beqFields fields gs = true ↔ fields = gs := by
      induction fields with
      | nil => intro gs; cases gs <;> simp [beqFields]
      | cons f fs ihfs =>
        intro gs
        cases gs with
        | nil => simp [beqFields]
        | cons g gs =>
          have hx := ih f (by simp) g.2
          have hfs := ihfs (fun z hz => ih z (by simp [hz])) gs
          simp [beqFields, hx, hfs, Prod.ext_iff, and_assoc]
    intro w
    cases w <;> simp [beq, hfields]

instance : DecidableEq (JsonValue F) := fun v w => decidable_of_iff (beq v w = true) (beq_iff v w)

end

section

variable [FloatRepr F]

mutual

/-- What Python compares: a boolean and an integer are the float of the same value. -/
def exact : JsonValue F → JsonValue Rat
  | .null => .null
  | .bool b => .float (if b then 1 else 0)
  | .int n => .float n
  | .float x => .float (FloatRepr.value x)
  | .str s => .str s
  | .arr items => .arr (exactItems items)
  | .obj fields => .obj (exactFields fields)

def exactItems : List (JsonValue F) → List (JsonValue Rat)
  | [] => []
  | x :: xs => exact x :: exactItems xs

def exactFields : List (Text × JsonValue F) → List (Text × JsonValue Rat)
  | [] => []
  | (key, x) :: fields => (key, exact x) :: exactFields fields

end

end

/-! ### Objects -/

/-- `fields[key] = value` -/
def setField (key : Text) (value : JsonValue F) : List (Text × JsonValue F) → List (Text × JsonValue F)
  | [] => [(key, value)]
  | (k, v) :: rest =>
    if key < k then (key, value) :: (k, v) :: rest
    else if key = k then (key, value) :: rest
    else (k, v) :: setField key value rest

/-- The object of a sequence of fields. -/
def ofFields (fields : List (Text × JsonValue F)) : List (Text × JsonValue F) :=
  fields.foldl (fun object field => setField field.1 field.2 object) []

/-- The keys ascend. -/
def Ascending (fields : List (Text × JsonValue F)) : Prop := fields.Pairwise fun f g => f.1 < g.1

/-- `fields.get(key)` -/
def lookup (fields : List (Text × JsonValue F)) (key : Text) : Option (JsonValue F) :=
  (fields.find? fun field => field.1 = key).map Prod.snd

theorem text_lt_irrefl (a : Text) : ¬a < a := List.lt_irrefl a

theorem setField_of_last {key : Text} {value : JsonValue F} {fields : List (Text × JsonValue F)}
    (h : ∀ f ∈ fields, f.1 < key) : setField key value fields = fields ++ [(key, value)] := by
  induction fields with
  | nil => rfl
  | cons f fields ih =>
    have hlt : f.1 < key := h f (by simp)
    have hnot : ¬key < f.1 := fun hgt => text_lt_irrefl _ (List.lt_trans hlt hgt)
    have hne : key ≠ f.1 := fun heq => text_lt_irrefl _ (heq ▸ hlt)
    rw [setField, if_neg hnot, if_neg hne, ih fun g hg => h g (by simp [hg])]
    rfl

theorem text_lt_trichotomy (a b : Text) : a < b ∨ a = b ∨ b < a := by
  by_cases hab : a < b
  · exact .inl hab
  · by_cases hba : b < a
    · exact .inr (.inr hba)
    · exact .inr (.inl (List.le_antisymm (List.not_lt.mp hba) (List.not_lt.mp hab)))

/-- Fields with different keys may be set in any order. -/
theorem setField_comm {k l : Text} (hne : k ≠ l) (v w : JsonValue F)
    (fields : List (Text × JsonValue F)) :
    setField k v (setField l w fields) = setField l w (setField k v fields) := by
  have htrans : ∀ {a b c : Text}, a < b → b < c → a < c := List.lt_trans
  have hasymm : ∀ {a b : Text}, a < b → ¬b < a := fun h h' => text_lt_irrefl _ (List.lt_trans h h')
  induction fields with
  | nil =>
    rcases text_lt_trichotomy k l with hkl | hkl | hkl
    · simp [setField, hkl, hne.symm, hasymm hkl]
    · exact absurd hkl hne
    · simp [setField, hkl, hne, hasymm hkl]
  | cons f fields ih =>
    obtain ⟨m, u⟩ := f
    have hkl := text_lt_trichotomy k l
    have hkm := text_lt_trichotomy k m
    have hlm := text_lt_trichotomy l m
    have hirr := text_lt_irrefl
    grind [setField]

/-- An object does not depend on the order of its fields, if their keys differ. -/
theorem ofFields_perm {fields fields' : List (Text × JsonValue F)} (h : fields.Perm fields')
    (hnodup : (fields.map Prod.fst).Nodup) : ofFields fields = ofFields fields' := by
  refine h.foldl_eq' (fun f hf g hg object => ?_) []
  by_cases hkey : f.1 = g.1
  · rw [List.inj_on_of_nodup_map hnodup hf hg hkey]
  · exact setField_comm (Ne.symm hkey) g.2 f.2 object

/-- An object whose keys ascend is the object of its fields. -/
theorem ofFields_of_ascending {fields : List (Text × JsonValue F)} (h : Ascending fields) :
    ofFields fields = fields := by
  have hall : ∀ done, Ascending (done ++ fields) →
      fields.foldl (fun object field => setField field.1 field.2 object) done = done ++ fields := by
    clear h
    induction fields with
    | nil => simp
    | cons f fields ih =>
      intro done hdone
      have hlast : ∀ g ∈ done, g.1 < f.1 := fun g hg =>
        (List.pairwise_append.mp hdone).2.2 g hg f (by simp)
      rw [List.foldl_cons, setField_of_last hlast, ih]
      · simp
      · simpa using hdone
  exact hall [] h

/-! ### Writing -/

def hexDigits (n : Nat) : Text := [Nat.digitChar (n / 16), Nat.digitChar (n % 16)]

/-- A character between quotes. -/
def escape (c : Char) : Text :=
  if c = '"' then ['\\', '"']
  else if c = '\\' then ['\\', '\\']
  else if c = '\n' then ['\\', 'n']
  else if c = '\r' then ['\\', 'r']
  else if c = '\t' then ['\\', 't']
  else if c = '\x0c' then ['\\', 'f']
  else if c = '\x08' then ['\\', 'b']
  else if c.toNat < 32 then ['\\', 'u', '0', '0'] ++ hexDigits c.toNat
  else [c]

def quote (s : Text) : Text := '"' :: (s.flatMap escape ++ ['"'])

def ofInt : Int → Text
  | .ofNat n => Text.ofNat n
  | .negSucc n => '-' :: Text.ofNat (n + 1)

section

variable [FloatRepr F]

mutual

/-- `json.dumps(value, sort_keys=True, separators=(",", ":"), ensure_ascii=False)` -/
def dumps : JsonValue F → Text
  | .null => "null".toList
  | .bool true => "true".toList
  | .bool false => "false".toList
  | .int n => ofInt n
  | .float x => FloatRepr.repr x
  | .str s => quote s
  | .arr items => '[' :: dumpsItems items
  | .obj fields => '{' :: dumpsFields fields

/-- The items of an array, and its closing bracket. -/
def dumpsItems : List (JsonValue F) → Text
  | [] => [']']
  | [x] => dumps x ++ [']']
  | x :: y :: rest => dumps x ++ ',' :: dumpsItems (y :: rest)

/-- The fields of an object, and its closing brace. -/
def dumpsFields : List (Text × JsonValue F) → Text
  | [] => ['}']
  | [(key, x)] => quote key ++ ':' :: (dumps x ++ ['}'])
  | (key, x) :: y :: rest => quote key ++ ':' :: (dumps x ++ ',' :: dumpsFields (y :: rest))

end

/-! ### Reading -/

def isSpace (c : Char) : Bool := c ∈ [' ', '\t', '\n', '\r']

def skip (text : Text) : Text := text.dropWhile isSpace

/-- The value of a hexadecimal digit. -/
def hexValue (c : Char) : Option Nat :=
  if c.isDigit then some (c.toNat - '0'.toNat)
  else if 'a' ≤ c ∧ c ≤ 'f' then some (c.toNat - 'a'.toNat + 10)
  else if 'A' ≤ c ∧ c ≤ 'F' then some (c.toNat - 'A'.toNat + 10)
  else none

def hexValue4 (a b c d : Char) : Option Nat := do
  let a ← hexValue a
  let b ← hexValue b
  let c ← hexValue c
  let d ← hexValue d
  pure (((a * 16 + b) * 16 + c) * 16 + d)

/-- The character after a backslash, other than `u`. -/
def unescape : Char → Option Char
  | '"' => some '"'
  | '\\' => some '\\'
  | '/' => some '/'
  | 'b' => some '\x08'
  | 'f' => some '\x0c'
  | 'n' => some '\n'
  | 'r' => some '\r'
  | 't' => some '\t'
  | _ => none

/-- The character of one code unit, or of a pair of surrogates. -/
def ofCodeUnit (n : Nat) : Option Char := if n.isValidChar then some (Char.ofNat n) else none

/-- The character of a pair of surrogates. -/
def ofSurrogates (high low : Nat) : Option Char :=
  if 0xD800 ≤ high ∧ high ≤ 0xDBFF ∧ 0xDC00 ≤ low ∧ low ≤ 0xDFFF then
    ofCodeUnit (0x10000 + (high - 0xD800) * 1024 + (low - 0xDC00))
  else none

/-- The characters and the code units of a string up to its closing quote, and what follows. -/
def scanString : Text → Option (List (Char ⊕ Nat) × Text)
  | [] => none
  | '"' :: rest => some ([], rest)
  | '\\' :: 'u' :: a :: b :: c :: d :: rest =>
    (hexValue4 a b c d).bind fun n => (scanString rest).map fun (s, r) => (.inr n :: s, r)
  | '\\' :: c :: rest =>
    (unescape c).bind fun ch => (scanString rest).map fun (s, r) => (.inl ch :: s, r)
  | c :: rest =>
    if c.toNat < 32 then none else (scanString rest).map fun (s, r) => (.inl c :: s, r)

/-- The text of characters and code units. -/
def joinUnits : List (Char ⊕ Nat) → Option Text
  | [] => some []
  | .inl c :: rest => (joinUnits rest).map (c :: ·)
  | .inr high :: .inr low :: rest =>
    match ofSurrogates high low with
    | some c => (joinUnits rest).map (c :: ·)
    | none => (ofCodeUnit high).bind fun c => (joinUnits (.inr low :: rest)).map (c :: ·)
  | .inr n :: rest => (ofCodeUnit n).bind fun c => (joinUnits rest).map (c :: ·)

/-- A string up to its closing quote, and what follows. -/
def parseString (text : Text) : Option (Text × Text) :=
  (scanString text).bind fun (units, rest) => (joinUnits units).map fun s => (s, rest)

/-- The value of an integer literal. -/
def intOfLiteral : Text → Int
  | '-' :: rest => -(Nat.ofDigitChars 10 rest 0 : Int)
  | text => (Nat.ofDigitChars 10 text 0 : Int)

/-- The number that a run of number characters writes. -/
def ofNumber (literal : Text) : Option (JsonValue F) :=
  if isIntLiteral literal then some (.int (intOfLiteral literal))
  else if isFloatLiteral literal then (FloatRepr.ofLiteral literal).map .float
  else none

/-- A value that is not a string, an array or an object. -/
def parseScalar (text : Text) : Option (JsonValue F × Text) :=
  match text with
  | 'n' :: 'u' :: 'l' :: 'l' :: rest => some (.null, rest)
  | 't' :: 'r' :: 'u' :: 'e' :: rest => some (.bool true, rest)
  | 'f' :: 'a' :: 'l' :: 's' :: 'e' :: rest => some (.bool false, rest)
  | text => (ofNumber (text.takeWhile isNumberChar)).map fun x => (x, text.dropWhile isNumberChar)

mutual

/-- A value, and what follows. The fuel bounds the nesting and the number of parts. -/
def parseValue : Nat → Text → Option (JsonValue F × Text)
  | 0, _ => none
  | _ + 1, '"' :: rest => (parseString rest).map fun (s, rest) => (.str s, rest)
  | fuel + 1, '[' :: rest =>
    match skip rest with
    | ']' :: rest => some (.arr [], rest)
    | rest => (parseItems fuel rest).map fun (items, rest) => (.arr items, rest)
  | fuel + 1, '{' :: rest =>
    match skip rest with
    | '}' :: rest => some (.obj [], rest)
    | rest => (parseFields fuel rest).map fun (fields, rest) => (.obj (ofFields fields), rest)
  | _ + 1, text => parseScalar text

/-- The items of an array. -/
def parseItems : Nat → Text → Option (List (JsonValue F) × Text)
  | 0, _ => none
  | fuel + 1, text => do
    let (x, rest) ← parseValue fuel text
    match skip rest with
    | ']' :: rest => some ([x], rest)
    | ',' :: rest => do
      let (xs, rest) ← parseItems fuel (skip rest)
      some (x :: xs, rest)
    | _ => none

/-- The fields of an object. -/
def parseFields : Nat → Text → Option (List (Text × JsonValue F) × Text)
  | 0, _ => none
  | fuel + 1, '"' :: rest => do
    let (key, rest) ← parseString rest
    match skip rest with
    | ':' :: rest => do
      let (x, rest) ← parseValue fuel (skip rest)
      match skip rest with
      | '}' :: rest => some ([(key, x)], rest)
      | ',' :: rest => do
        let (fields, rest) ← parseFields fuel (skip rest)
        some ((key, x) :: fields, rest)
      | _ => none
    | _ => none
  | _ + 1, _ => none

end

/-- `json.loads(text)`; `none` is the `JSONDecodeError`. -/
def loads (text : Text) : Option (JsonValue F) :=
  match parseValue (text.length + 1) (skip text) with
  | some (x, rest) => if skip rest = [] then some x else none
  | none => none

end

end JsonValue
