import TrexCli.Lib.JsonRoundTrip

/-!
# Scalars of YAML 1.1

What a loader with the resolvers and the reader of YAML 1.1 makes of a document that is one scalar: a
plain word that writes a truth value or a number, or a double-quoted text. The reader refuses characters
that are not printable; in a quoted text the line breaks are folded with the blanks around them, and a
document marker at the beginning of a line is an error. The loader is a parameter with these facts
as its laws.
-/

namespace Yaml

open JsonValue

/-! ### The reader -/

/-- The characters of a stream. -/
def isPrintable (c : Char) : Bool :=
  let n := c.toNat
  n ∈ [9, 10, 13, 0x85] || (32 ≤ n && n ≤ 0x7E) || (0xA0 ≤ n && n ≤ 0xD7FF) ||
    (0xE000 ≤ n && n ≤ 0xFFFD) || 0x10000 ≤ n

/-! ### Quoted texts -/

/-- A piece of a quoted text: a character as it stands, a line break as it is read, an escaped
character, an escaped line break. -/
inductive Piece where
  | raw (c : Char)
  | lineBreak (c : Char)
  | escaped (c : Char)
  | escapedBreak

/-- What a line break is read as. -/
def readBreak (c : Char) : Option Char :=
  if c.toNat ∈ [10, 13, 0x85] then some '\n'
  else if c.toNat ∈ [0x2028, 0x2029] then some c
  else none

def isBlank (c : Char) : Bool := c = ' ' || c = '\t'

/-- The character after a backslash that stands for another. -/
def unescape : Char → Option Char
  | '0' => some '\x00'
  | 'a' => some '\x07'
  | 'b' => some '\x08'
  | 't' => some '\t'
  | '\t' => some '\t'
  | 'n' => some '\n'
  | 'v' => some '\x0b'
  | 'f' => some '\x0c'
  | 'r' => some '\r'
  | 'e' => some '\x1b'
  | ' ' => some ' '
  | '"' => some '"'
  | '\\' => some '\\'
  | 'N' => some (.ofNat 0x85)
  | '_' => some (.ofNat 0xA0)
  | 'L' => some (.ofNat 0x2028)
  | 'P' => some (.ofNat 0x2029)
  | _ => none

/-- The pieces up to the closing quote, and what follows; the escapes of two and of eight digits are
left out. -/
def scanPieces : Text → Option (List Piece × Text)
  | [] => none
  | '"' :: rest => some ([], rest)
  | '\\' :: 'u' :: a :: b :: c :: d :: rest =>
    ((hexValue4 a b c d).bind ofCodeUnit).bind fun ch =>
      (scanPieces rest).map fun (pieces, r) => (.escaped ch :: pieces, r)
  | '\\' :: '\r' :: '\n' :: rest =>
    (scanPieces rest).map fun (pieces, r) => (.escapedBreak :: pieces, r)
  | '\\' :: c :: rest =>
    match readBreak c with
    | some _ => (scanPieces rest).map fun (pieces, r) => (.escapedBreak :: pieces, r)
    | none => (unescape c).bind fun ch =>
      (scanPieces rest).map fun (pieces, r) => (.escaped ch :: pieces, r)
  | '\r' :: '\n' :: rest =>
    (scanPieces rest).map fun (pieces, r) => (.lineBreak '\n' :: pieces, r)
  | c :: rest =>
    match readBreak c with
    | some b => (scanPieces rest).map fun (pieces, r) => (.lineBreak b :: pieces, r)
    | none => (scanPieces rest).map fun (pieces, r) => (.raw c :: pieces, r)

/-- The pieces of a text that is one quoted scalar. -/
def scanQuoted : Text → Option (List Piece)
  | '"' :: body =>
    match scanPieces body with
    | some (pieces, []) => some pieces
    | _ => none
  | _ => none

/-- A blank or a line break. -/
def endsMarker : List Piece → Bool
  | .raw d :: _ => isBlank d
  | .lineBreak _ :: _ => true
  | _ => false

/-- A document marker: `---` or `...` before a blank or a line break. -/
def separates : List Piece → Bool
  | .raw a :: .raw b :: .raw c :: rest =>
    a = b && b = c && (a = '-' || a = '.') && endsMarker rest
  | _ => false

/-- Where the folding is: after text and blanks, or after line breaks, the first of which may have been
escaped. -/
inductive Mode where
  | text (blanks : Text)
  | breaks (first : Option Char) (others : Text)

/-- What line breaks are folded to: a single one is a blank, unless it separates lines or paragraphs. -/
def written (first : Option Char) (others : Text) : Text :=
  match first with
  | none => others
  | some c =>
    if c ≠ '\n' then c :: others
    else if others = [] then [' ']
    else others

/-- What is read once text follows. -/
def Mode.read : Mode → Text
  | .text blanks => blanks
  | .breaks first others => written first others

def Mode.blank (c : Char) : Mode → Mode
  | .text blanks => .text (blanks ++ [c])
  | .breaks first others => .breaks first others

def Mode.lineBreak (c : Char) : Mode → Mode
  | .text _ => .breaks (some c) []
  | .breaks first others => .breaks first (others ++ [c])

/-- The text that pieces are folded to. -/
def foldLines : Mode → List Piece → Option Text
  | m, [] => some m.read
  | m, .raw c :: rest =>
    if isBlank c then foldLines (m.blank c) rest
    else (foldLines (.text []) rest).map (m.read ++ c :: ·)
  | m, .escaped c :: rest => (foldLines (.text []) rest).map (m.read ++ c :: ·)
  | m, .lineBreak c :: rest => if separates rest then none else foldLines (m.lineBreak c) rest
  | m, .escapedBreak :: rest =>
    if separates rest then none else (foldLines (.breaks none []) rest).map (m.read ++ ·)

/-! ### Numbers -/

def isDigitOrUnderscore (c : Char) : Bool := c.isDigit || c = '_'

/-- `([eE][-+][0-9]+)?` -/
def isSignedExponent : Text → Bool
  | [] => true
  | e :: sign :: digits =>
    (e = 'e' || e = 'E') && (sign = '-' || sign = '+') && !digits.isEmpty && digits.all Char.isDigit
  | _ => false

def dropSign : Text → Text
  | '-' :: rest => rest
  | '+' :: rest => rest
  | text => text

/-- `[-+]?[0-9][0-9_]*\.[0-9_]*([eE][-+][0-9]+)?`, the floats that begin with a digit and are no
sexagesimals. -/
def isFloatWord (text : Text) : Bool :=
  match dropSign text with
  | [] => false
  | first :: rest =>
    first.isDigit && match rest.dropWhile isDigitOrUnderscore with
      | '.' :: fraction => isSignedExponent (fraction.dropWhile isDigitOrUnderscore)
      | _ => false

/-- The digits of the longest texts that are read as integers, and that integers are written to. -/
def maxDigits : Nat := 4300

variable {F : Type} [FloatRepr F]

/-- What the resolvers make of the literal of a number: a word with a point can be a float, and one of
digits is an integer. -/
def resolveNumber (text : Text) : Option (JsonValue F) :=
  if isFloatWord text then (FloatRepr.ofLiteral text).map .float
  else if isIntLiteral text then
    if (text.filter Char.isDigit).length ≤ maxDigits then some (.int (intOfLiteral text)) else none
  else some (.str text)

/-- A loader of YAML 1.1, on the documents that are one scalar. -/
structure SafeLoader (load : Text → Option (JsonValue F)) : Prop where
  unprintable : ∀ text, ∀ c ∈ text, isPrintable c = false → load text = none
  true_word : load "true".toList = some (.bool true)
  false_word : load "false".toList = some (.bool false)
  number : ∀ text, (∀ c ∈ text, isPrintable c = true) →
    isIntLiteral text = true ∨ isFloatLiteral text = true → load text = resolveNumber text
  quoted : ∀ text pieces, (∀ c ∈ text, isPrintable c = true) → scanQuoted text = some pieces →
    load text = (foldLines (.text []) pieces).map .str

/-- The loader of these scalars and of nothing else. -/
def loadScalar (text : Text) : Option (JsonValue F) :=
  if text.all isPrintable then
    if text = "true".toList then some (.bool true)
    else if text = "false".toList then some (.bool false)
    else if isIntLiteral text || isFloatLiteral text then resolveNumber text
    else (scanQuoted text).bind fun pieces => (foldLines (.text []) pieces).map .str
  else none

theorem safeLoader_loadScalar : SafeLoader (loadScalar (F := F)) where
  unprintable text c hc hnot := by
    have hall : text.all isPrintable = false := by
      rw [List.all_eq_false]
      exact ⟨c, hc, by simp [hnot]⟩
    simp [loadScalar, hall]
  true_word := by
    have hall : "true".toList.all isPrintable = true := by decide
    rw [loadScalar, if_pos hall, if_pos rfl]
  false_word := by
    have hall : "false".toList.all isPrintable = true := by decide
    rw [loadScalar, if_pos hall, if_neg (by decide), if_pos rfl]
  number text hprintable hliteral := by
    have hall : text.all isPrintable = true := List.all_eq_true.mpr hprintable
    have htrue : text ≠ "true".toList := by
      rintro rfl
      exact absurd hliteral (by decide)
    have hfalse : text ≠ "false".toList := by
      rintro rfl
      exact absurd hliteral (by decide)
    have hor : (isIntLiteral text || isFloatLiteral text) = true := by simpa using hliteral
    rw [loadScalar, if_pos hall, if_neg htrue, if_neg hfalse, if_pos hor]
  quoted text pieces hprintable hpieces := by
    have hall : text.all isPrintable = true := List.all_eq_true.mpr hprintable
    have hquote : ∃ body, text = '"' :: body := by
      unfold scanQuoted at hpieces
      split at hpieces
      · exact ⟨_, rfl⟩
      · cases hpieces
    obtain ⟨body, rfl⟩ := hquote
    have hliteral : (isIntLiteral ('"' :: body) || isFloatLiteral ('"' :: body)) = false := by
      cases body <;> rfl
    rw [loadScalar, if_pos hall, if_neg (by simp), if_neg (by simp), hliteral,
      if_neg Bool.false_ne_true, hpieces, Option.bind_some]

end Yaml
