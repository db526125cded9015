import Mathlib
import TrexCli.Lib.Labels
import TrexCli.Lib.Paths

/-!
# DNS queries

`dns_storm.py`: the normal form of a name, and the payload of a query for it. The question of the
payload is decoded by the grammar of labels, and is the normal form, its type and the class IN.
-/

namespace TrexCli.Dns

open Labels (Label)

/-- The `ValueError` of a name. -/
inductive NameError where
  | labels | tooLong
  deriving DecidableEq

def NameError.message : NameError → String
  | labels => "DNS name must contain valid ASCII host labels"
  | tooLong => "DNS name exceeds the 255-byte wire limit"

/-- A character that stands inside of a label. -/
def hostChar (c : Char) : Bool := c.isAlphanum || c == '-'

/-- `_LABEL_RE.fullmatch(label)` -/
def labelMatches (label : Text) : Bool :=
  1 ≤ label.length && label.length ≤ 63 && label.all hostChar &&
    label.head?.all Char.isAlphanum && label.getLast?.all Char.isAlphanum

/-- The name without the dot at its end. -/
def candidate (value : Text) : Text := if value.getLast? = some '.' then value.dropLast else value

/-- `normalize_dns_name` -/
def normalizeDnsName (value : Text) : Except NameError Text :=
  let labels := (candidate value).splitOn '.'
  if candidate value = [] ∨ ¬labels.all labelMatches then .error .labels
  else if 255 < (labels.map fun label => label.length + 1).sum + 1 then .error .tooLong
  else .ok ((candidate value).map Char.toLower ++ ['.'])

inductive QueryType where
  | a | aaaa
  deriving DecidableEq, Repr

/-- `_QUERY_TYPE` -/
def QueryType.value : QueryType → Nat
  | a => 1
  | aaaa => 28

/-- `label.encode("ascii")`, of a text of that alphabet. -/
def ascii (label : Text) : Label := label.map fun c => .ofNat c.toNat

/-- The labels of a normal form. -/
def labels (normalized : Text) : List Text := normalized.dropLast.splitOn '.'

/-- The question of a query. -/
def question (normalized : Text) (queryType : QueryType) : List UInt8 :=
  Labels.encode ((labels normalized).map ascii) ++ bigEndian 2 queryType.value ++ bigEndian 2 1

/-- `encode_dns_query` -/
def encodeDnsQuery (name : Text) (queryType : QueryType) (recursionDesired : Bool)
    (transactionId : Nat) : Except NameError (List UInt8) := do
  let normalized ← normalizeDnsName name
  let flags := if recursionDesired then 0x0100 else 0
  let header := bigEndian 2 transactionId ++ bigEndian 2 flags ++ bigEndian 2 1 ++ bigEndian 2 0 ++
    bigEndian 2 0 ++ bigEndian 2 0
  pure (header ++ question normalized queryType)

/-- `dns_query_wire_size` -/
def dnsQueryWireSize (payload : List UInt8) : Nat := max 64 (4 + 14 + 20 + 8 + payload.length)

/-- A question as a server reads it: the labels, the type and the class, and what stands after them. -/
def decodeQuestion (octets : List UInt8) : Option (List Label × Nat × Nat × List UInt8) :=
  match Labels.decode octets with
  | some (labels, t :: t' :: c :: c' :: rest) =>
    some (labels, t.toNat * 256 + t'.toNat, c.toNat * 256 + c'.toNat, rest)
  | _ => none

/-! ### Characters -/

theorem isAlphanum_iff (c : Char) : c.isAlphanum = true ↔
    (65 ≤ c.toNat ∧ c.toNat ≤ 90) ∨ (97 ≤ c.toNat ∧ c.toNat ≤ 122) ∨ (48 ≤ c.toNat ∧ c.toNat ≤ 57) := by
  simp only [Char.isAlphanum, Char.isAlpha, Char.isUpper, Char.isLower, Char.isDigit, ge_iff_le,
    Bool.or_eq_true, Bool.and_eq_true, decide_eq_true_eq, UInt32.le_iff_toNat_le, or_assoc]
  exact Iff.rfl

/-- A character keeps its class in lower case. -/
theorem isAlphanum_toLower {c : Char} (h : c.isAlphanum = true) : c.toLower.isAlphanum = true := by
  rw [isAlphanum_iff] at h ⊢
  rw [Text.toNat_toLower]
  split <;> omega

theorem hostChar_toLower {c : Char} (h : hostChar c = true) : hostChar c.toLower = true := by
  unfold hostChar at h ⊢
  rw [Bool.or_eq_true] at h ⊢
  rcases h with h | h
  · exact .inl (isAlphanum_toLower h)
  · right
    rw [beq_iff_eq] at h ⊢
    rw [h]
    rfl

/-! ### Names -/

/-- A text whose characters are replaced, other than the separator, has the parts replaced. -/
theorem splitOn_map {f : Char → Char} {separator : Char}
    (h : ∀ c, f c = separator ↔ c = separator) (text : Text) :
    (text.map f).splitOn separator = (text.splitOn separator).map fun part => part.map f := by
  induction text with
  | nil => rfl
  | cons c text ih =>
    rw [List.map_cons, List.splitOn_cons_eq_if_modifyHead, List.splitOn_cons_eq_if_modifyHead, ih]
    have hc : (f c == separator) = (c == separator) := by
      rw [Bool.eq_iff_iff, beq_iff_eq, beq_iff_eq]
      exact h c
    rw [hc]
    split
    · rfl
    · rcases hparts : text.splitOn separator with _ | ⟨first, others⟩
      · rfl
      · rfl

/-- Each part and its separator make up the text. -/
theorem sum_length_splitOn (separator : Char) (text : Text) :
    ((text.splitOn separator).map fun part => part.length + 1).sum = text.length + 1 := by
  induction text with
  | nil => rfl
  | cons c text ih =>
    rw [List.splitOn_cons_eq_if_modifyHead]
    split
    · rw [List.map_cons, List.sum_cons, ih]
      simp
      omega
    · rcases hparts : text.splitOn separator with _ | ⟨first, others⟩
      · exact absurd hparts (List.splitOn_ne_nil _ _)
      · rw [hparts, List.map_cons, List.sum_cons] at ih
        simp only [List.modifyHead_cons, List.map_cons, List.sum_cons, List.length_cons]
        omega

section Normal

variable {value normalized : Text}

/-- The texts that are normalised, and their normal forms. -/
theorem normalizeDnsName_eq_ok : normalizeDnsName value = .ok normalized ↔
    candidate value ≠ [] ∧ (∀ label ∈ (candidate value).splitOn '.', labelMatches label = true) ∧
      (candidate value).length + 2 ≤ 255 ∧
      normalized = (candidate value).map Char.toLower ++ ['.'] := by
  unfold normalizeDnsName
  dsimp only
  rw [sum_length_splitOn]
  by_cases hlabels : candidate value ≠ [] ∧
      ∀ label ∈ (candidate value).splitOn '.', labelMatches label = true
  · have hnot : ¬(candidate value = [] ∨ ¬((candidate value).splitOn '.').all labelMatches = true) := by
      rw [List.all_eq_true]
      tauto
    rw [if_neg hnot]
    by_cases hlong : 255 < (candidate value).length + 1 + 1
    · rw [if_pos hlong]
      simp only [reduceCtorEq, false_iff]
      rintro ⟨-, -, hshort, -⟩
      omega
    · rw [if_neg hlong, Except.ok.injEq]
      constructor
      · intro h
        exact ⟨hlabels.1, hlabels.2, by omega, h.symm⟩
      · rintro ⟨-, -, -, h⟩
        exact h.symm
  · have hbad : candidate value = [] ∨ ¬((candidate value).splitOn '.').all labelMatches = true := by
      rw [List.all_eq_true]
      tauto
    rw [if_pos hbad]
    simp only [reduceCtorEq, false_iff]
    rintro ⟨hne, hall, -, -⟩
    exact hlabels ⟨hne, hall⟩

theorem labelMatches_iff {label : Text} : labelMatches label = true ↔
    1 ≤ label.length ∧ label.length ≤ 63 ∧ (∀ c ∈ label, hostChar c = true) ∧
      (∀ c, label.head? = some c → c.isAlphanum = true) ∧
      ∀ c, label.getLast? = some c → c.isAlphanum = true := by
  simp only [labelMatches, Bool.and_eq_true, decide_eq_true_eq, List.all_eq_true, and_assoc,
    Option.all_eq_true]

/-- A label keeps its form in lower case. -/
theorem labelMatches_toLower {label : Text} (h : labelMatches label = true) :
    labelMatches (label.map Char.toLower) = true := by
  obtain ⟨hpos, hmax, hchars, hhead, hlast⟩ := labelMatches_iff.mp h
  refine labelMatches_iff.mpr ⟨by simpa using hpos, by simpa using hmax, ?_, ?_, ?_⟩
  · intro c hc
    obtain ⟨d, hd, rfl⟩ := List.mem_map.mp hc
    exact hostChar_toLower (hchars d hd)
  · intro c hc
    rw [List.head?_map, Option.map_eq_some_iff] at hc
    obtain ⟨d, hd, rfl⟩ := hc
    exact isAlphanum_toLower (hhead d hd)
  · intro c hc
    rw [List.getLast?_map, Option.map_eq_some_iff] at hc
    obtain ⟨d, hd, rfl⟩ := hc
    exact isAlphanum_toLower (hlast d hd)

theorem candidate_append_dot (text : Text) : candidate (text ++ ['.']) = text := by
  simp [candidate]

theorem splitOn_toLower (text : Text) : (text.map Char.toLower).splitOn '.' =
    (text.splitOn '.').map fun label => label.map Char.toLower :=
  splitOn_map (fun _ => Text.toLower_eq_iff (by decide)) text

/-- The labels of the normal form. -/
theorem labels_normalized (h : normalizeDnsName value = .ok normalized) :
    labels normalized = ((candidate value).splitOn '.').map fun label => label.map Char.toLower := by
  obtain ⟨-, -, -, rfl⟩ := normalizeDnsName_eq_ok.mp h
  rw [labels, List.dropLast_concat, splitOn_toLower]

theorem labelMatches_normalized (h : normalizeDnsName value = .ok normalized) :
    ∀ label ∈ labels normalized, labelMatches label = true := by
  rw [labels_normalized h]
  intro label hlabel
  obtain ⟨label', hlabel', rfl⟩ := List.mem_map.mp hlabel
  exact labelMatches_toLower ((normalizeDnsName_eq_ok.mp h).2.1 label' hlabel')

/-- A normal form is its own. -/
theorem normalizeDnsName_normalized (h : normalizeDnsName value = .ok normalized) :
    normalizeDnsName normalized = .ok normalized := by
  have hlabels := labelMatches_normalized h
  obtain ⟨hne, -, hlength, rfl⟩ := normalizeDnsName_eq_ok.mp h
  rw [labels, List.dropLast_concat] at hlabels
  rw [normalizeDnsName_eq_ok, candidate_append_dot]
  refine ⟨by simpa using hne, hlabels, by simpa using hlength, ?_⟩
  rw [List.map_map, show Char.toLower ∘ Char.toLower = Char.toLower from funext Text.toLower_toLower]

/-! ### Queries -/

theorem valid_ascii {label : Text} (h : labelMatches label = true) : Labels.Valid (ascii label) := by
  obtain ⟨hpos, hmax, -⟩ := labelMatches_iff.mp h
  exact ⟨by simpa [ascii] using hpos, by simpa [ascii] using hmax⟩

/-- The question is the labels of the normal form, the type and the class IN, and nothing else. -/
theorem decodeQuestion_question (h : normalizeDnsName value = .ok normalized) (queryType : QueryType) :
    decodeQuestion (question normalized queryType) =
      some ((labels normalized).map ascii, queryType.value, 1, []) := by
  have hvalid : ∀ label ∈ (labels normalized).map ascii, Labels.Valid label := by
    intro label hlabel
    obtain ⟨text, htext, rfl⟩ := List.mem_map.mp hlabel
    exact valid_ascii (labelMatches_normalized h text htext)
  rw [decodeQuestion, question, List.append_assoc, Labels.decode_encode hvalid]
  cases queryType <;> rfl

/-- The octets of the name: one more than its text, which ends in a dot. -/
theorem length_encodedName (h : normalizeDnsName value = .ok normalized) :
    (Labels.encode ((labels normalized).map ascii)).length = normalized.length + 1 := by
  have hsum := sum_length_splitOn '.' normalized.dropLast
  obtain ⟨-, -, -, rfl⟩ := normalizeDnsName_eq_ok.mp h
  rw [Labels.length_encode, List.map_map]
  have hlengths : ((fun label : Label => label.length + 1) ∘ ascii) = fun label => label.length + 1 := by
    funext label
    simp [ascii]
  rw [hlengths, labels, hsum]
  simp

theorem length_normalized (h : normalizeDnsName value = .ok normalized) :
    2 ≤ normalized.length ∧ normalized.length ≤ 254 := by
  obtain ⟨hne, -, hlength, rfl⟩ := normalizeDnsName_eq_ok.mp h
  have hpos := List.length_pos_iff.mpr hne
  rw [List.length_append, List.length_map, List.length_singleton]
  omega

/-- The payload of a query is a header of twelve octets and the question. -/
theorem encodeDnsQuery_eq_ok (h : normalizeDnsName value = .ok normalized) (queryType : QueryType)
    (recursionDesired : Bool) (transactionId : Nat) :
    ∃ header, header.length = 12 ∧ encodeDnsQuery value queryType recursionDesired transactionId =
      .ok (header ++ question normalized queryType) := by
  refine ⟨_, ?_, by rw [encodeDnsQuery, h]; rfl⟩
  simp

theorem length_question (h : normalizeDnsName value = .ok normalized) (queryType : QueryType) :
    (question normalized queryType).length = normalized.length + 5 := by
  rw [question, List.length_append, List.length_append, length_encodedName h, length_bigEndian,
    length_bigEndian]

/-- A query fits a frame of the sizes that a storm has. -/
theorem wireSize_bounds {payload : List UInt8} {queryType : QueryType} {recursionDesired : Bool}
    {transactionId : Nat} (h : normalizeDnsName value = .ok normalized)
    (hpayload : encodeDnsQuery value queryType recursionDesired transactionId = .ok payload) :
    64 ≤ dnsQueryWireSize payload ∧ dnsQueryWireSize payload ≤ 512 := by
  obtain ⟨header, hheader, hencode⟩ :=
    encodeDnsQuery_eq_ok h queryType recursionDesired transactionId
  obtain rfl := Except.ok.inj (hencode.symm.trans hpayload)
  have hlength := (length_normalized h).2
  rw [dnsQueryWireSize, List.length_append, hheader, length_question h]
  omega

end Normal

end TrexCli.Dns
