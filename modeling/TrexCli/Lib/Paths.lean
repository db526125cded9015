import Mathlib.Tactic.Common

/-!
# Texts and paths

Texts are lists of characters. A path is kept as `pathlib` keeps it, as its components without the
empty ones and the `.` ones; it is anchored when the text began with a slash, and joining an anchored
path discards what stood before it.
-/

abbrev Text := List Char

namespace Text

theorem toNat_inj {c d : Char} (h : c.toNat = d.toNat) : c = d := Char.ext (UInt32.toNat_inj.mp h)

theorem toNat_toLower (c : Char) :
    c.toLower.toNat = if 65 ≤ c.toNat ∧ c.toNat ≤ 90 then c.toNat + 32 else c.toNat := by
  have hiff : c.val ≥ 'A'.val ∧ c.val ≤ 'Z'.val ↔ 65 ≤ c.toNat ∧ c.toNat ≤ 90 := by
    simp only [ge_iff_le, UInt32.le_iff_toNat_le]
    exact Iff.rfl
  unfold Char.toLower
  by_cases h : c.val ≥ 'A'.val ∧ c.val ≤ 'Z'.val
  · rw [dif_pos h, if_pos (hiff.mp h)]
    have hbound := (hiff.mp h).2
    show (c.val + 32).toNat = c.val.toNat + 32
    rw [UInt32.toNat_add]
    have hval : c.val.toNat ≤ 90 := hbound
    exact Nat.mod_eq_of_lt (by simp; omega)
  · rw [dif_neg h, if_neg (hiff.not.mp h)]

theorem toLower_toLower (c : Char) : c.toLower.toLower = c.toLower := by
  apply toNat_inj
  rw [toNat_toLower c.toLower, toNat_toLower c]
  by_cases h : 65 ≤ c.toNat ∧ c.toNat ≤ 90
  · rw [if_pos h, if_neg (by omega)]
  · rw [if_neg h, if_neg h]

theorem toLower_eq_iff {c d : Char} (hd : d.toNat < 65) : c.toLower = d ↔ c = d := by
  constructor
  · intro h
    apply toNat_inj
    have hnat : c.toLower.toNat = d.toNat := by rw [h]
    rw [toNat_toLower] at hnat
    split at hnat <;> omega
  · rintro rfl
    apply toNat_inj
    rw [toNat_toLower, if_neg (by omega)]

/-- `text.rpartition(separator)`: the parts around the last separator. -/
def rpartition (separator : Char) : Text → Option (Text × Text)
  | [] => none
  | c :: rest =>
    match rpartition separator rest with
    | some (before, after) => some (c :: before, after)
    | none => if c = separator then some ([], rest) else none

theorem rpartition_eq_none {separator : Char} {text : Text} (h : separator ∉ text) :
    rpartition separator text = none := by
  induction text with
  | nil => rfl
  | cons c rest ih =>
    simp only [List.mem_cons, not_or] at h
    rw [rpartition, ih h.2]
    exact if_neg (Ne.symm h.1)

theorem rpartition_append {separator : Char} {before after : Text} (h : separator ∉ after) :
    rpartition separator (before ++ separator :: after) = some (before, after) := by
  induction before with
  | nil => simp [rpartition, rpartition_eq_none h]
  | cons c before ih => simp [rpartition, ih]

/-- The parts around the first separator are determined by the whole. -/
theorem append_separator_inj {separator : Char} {a b x y : Text} (ha : separator ∉ a)
    (hb : separator ∉ b) (h : a ++ separator :: x = b ++ separator :: y) : a = b ∧ x = y := by
  induction a generalizing b with
  | nil =>
    rcases b with _ | ⟨c, b⟩
    · simpa using h
    · simp only [List.nil_append, List.cons_append, List.cons.injEq] at h
      simp [h.1] at hb
  | cons c a ih =>
    rcases b with _ | ⟨d, b⟩
    · simp only [List.nil_append, List.cons_append, List.cons.injEq] at h
      simp [h.1] at ha
    · simp only [List.cons_append, List.cons.injEq] at h
      simp only [List.mem_cons, not_or] at ha hb
      obtain ⟨hab, hxy⟩ := ih ha.2 hb.2 h.2
      exact ⟨by rw [h.1, hab], hxy⟩

/-- A character that is not the separator stands in a part. -/
theorem mem_splitOn {separator c : Char} (hc : c ≠ separator) {text : Text} (h : c ∈ text) :
    ∃ part ∈ text.splitOn separator, c ∈ part := by
  induction text with
  | nil => simp at h
  | cons d rest ih =>
    rw [List.splitOn_cons_eq_if_modifyHead]
    rcases List.mem_cons.mp h with rfl | h
    · rw [if_neg (by simpa using hc)]
      rcases hparts : rest.splitOn separator with _ | ⟨first, others⟩
      · exact absurd hparts (List.splitOn_ne_nil _ _)
      · exact ⟨c :: first, by simp, by simp⟩
    · obtain ⟨part, hpart, hmem⟩ := ih h
      split
      · exact ⟨part, by simp [hpart], hmem⟩
      · rcases hparts : rest.splitOn separator with _ | ⟨first, others⟩
        · exact absurd hparts (List.splitOn_ne_nil _ _)
        · rw [hparts] at hpart
          rcases List.mem_cons.mp hpart with rfl | hpart
          · exact ⟨d :: part, by simp, by simp [hmem]⟩
          · exact ⟨part, by simp [hpart], hmem⟩

/-- The zeros of the decimal digits of Unicode. -/
def decimalZeros : List Nat :=
  [0x30, 0x660, 0x6F0, 0x7C0, 0x966, 0x9E6, 0xA66, 0xAE6, 0xB66, 0xBE6, 0xC66, 0xCE6, 0xD66, 0xDE6,
    0xE50, 0xED0, 0xF20, 0x1040, 0x1090, 0x17E0, 0x1810, 0x1946, 0x19D0, 0x1A80, 0x1A90, 0x1B50,
    0x1BB0, 0x1C40, 0x1C50, 0xA620, 0xA8D0, 0xA900, 0xA9D0, 0xA9F0, 0xAA50, 0xABF0, 0xFF10, 0x104A0,
    0x10D30, 0x11066, 0x110F0, 0x11136, 0x111D0, 0x112F0, 0x11450, 0x114D0, 0x11650, 0x116C0, 0x11730,
    0x118E0, 0x11950, 0x11C50, 0x11D50, 0x11DA0, 0x11F50, 0x16A60, 0x16AC0, 0x16B50, 0x1D7CE, 0x1D7D8,
    0x1D7E2, 0x1D7EC, 0x1D7F6, 0x1E140, 0x1E2F0, 0x1E4F0, 0x1E950, 0x1FBF0]

/-- The value of a decimal digit. -/
def decimalDigit (c : Char) : Option Nat :=
  (decimalZeros.find? fun first => first ≤ c.toNat ∧ c.toNat < first + 10).map (c.toNat - ·)

/-- The number that decimal digits write, after `value`. -/
def decimalsFrom (value : Nat) : Text → Option Nat
  | [] => some value
  | c :: rest => (decimalDigit c).bind fun digit => decimalsFrom (10 * value + digit) rest

/-- `int(text)` of a text of decimal digits. -/
def decimals (text : Text) : Option Nat := if text = [] then none else decimalsFrom 0 text

/-- `str(n)` -/
def ofNat (n : Nat) : Text := Nat.toDigits 10 n

theorem decimalDigit_of_isDigit {c : Char} (h : c.isDigit = true) :
    decimalDigit c = some (c.toNat - '0'.toNat) := by
  have hrange : '0'.toNat ≤ c.toNat ∧ c.toNat ≤ '9'.toNat := by
    simp only [Char.isDigit, Bool.and_eq_true, decide_eq_true_eq, UInt32.le_iff_toNat_le] at h
    exact h
  have hfind : decimalZeros.find? (fun first => first ≤ c.toNat ∧ c.toNat < first + 10)
      = some 0x30 := by
    rw [decimalZeros, List.find?_cons_of_pos]
    exact decide_eq_true ⟨hrange.1, Nat.lt_succ_of_le hrange.2⟩
  rw [decimalDigit, hfind]
  rfl

theorem decimalsFrom_eq {text : Text} (h : ∀ c ∈ text, c.isDigit = true) (value : Nat) :
    decimalsFrom value text = some (Nat.ofDigitChars 10 text value) := by
  induction text generalizing value with
  | nil => simp [decimalsFrom]
  | cons c rest ih =>
    have hc : c.isDigit = true := h c (by simp)
    have hrest : ∀ d ∈ rest, d.isDigit = true := fun d hd => h d (by simp [hd])
    rw [decimalsFrom, decimalDigit_of_isDigit hc, Option.bind_some, ih hrest, Nat.ofDigitChars_cons]

theorem decimals_ofNat (n : Nat) : decimals (ofNat n) = some n := by
  rw [decimals, ofNat, if_neg Nat.toDigits_ne_nil,
    decimalsFrom_eq (fun c hc => Nat.isDigit_of_mem_toDigits (by decide) (by decide) hc),
    Nat.ofDigitChars_ten_toDigits]

theorem ofNat_inj {m n : Nat} (h : ofNat m = ofNat n) : m = n := by
  have hm := decimals_ofNat m
  rw [h, decimals_ofNat n] at hm
  exact (Option.some.inj hm).symm

theorem not_mem_ofNat {c : Char} (h : c.isDigit = false) (n : Nat) : c ∉ ofNat n := by
  intro hc
  have := Nat.isDigit_of_mem_toDigits (by decide) (by decide) hc
  simp [h] at this

end Text

/-- A path of POSIX. -/
structure PurePath where
  anchored : Bool
  parts : List Text
  deriving DecidableEq

namespace PurePath

def ofText (text : Text) : PurePath where
  anchored := text.head? = some '/'
  parts := (text.splitOn '/').filter fun part => part ≠ [] ∧ part ≠ ['.']

/-- `path / other` -/
def join (path other : PurePath) : PurePath :=
  if other.anchored then other else ⟨path.anchored, path.parts ++ other.parts⟩

/-- `path / name`, for a name without a slash -/
def child (path : PurePath) (name : Text) : PurePath := ⟨path.anchored, path.parts ++ [name]⟩

def parent (path : PurePath) : PurePath := ⟨path.anchored, path.parts.dropLast⟩

def name (path : PurePath) : Text := path.parts.getLast?.getD []

@[simp] theorem parent_child (path : PurePath) (name : Text) : (path.child name).parent = path := by
  simp [child, parent]

@[simp] theorem name_child (path : PurePath) (name : Text) : (path.child name).name = name := by
  simp [child, PurePath.name]

theorem child_parent_name {path : PurePath} (h : path.parts ≠ []) :
    path.parent.child path.name = path := by
  rw [PurePath.name, List.getLast?_eq_some_getLast h, Option.getD_some, parent, child,
    List.dropLast_concat_getLast h]

theorem join_of_relative {path other : PurePath} (h : other.anchored = false) :
    path.join other = ⟨path.anchored, path.parts ++ other.parts⟩ := by
  rw [join, h]
  rfl

theorem join_inj {path p q : PurePath} (hp : p.anchored = false) (hq : q.anchored = false)
    (h : path.join p = path.join q) : p = q := by
  rw [join_of_relative hp, join_of_relative hq, PurePath.mk.injEq] at h
  obtain ⟨_, _⟩ := p
  obtain ⟨_, _⟩ := q
  simp only at hp hq h
  rw [hp, hq, List.append_cancel_left h.2]

/-- A text whose components are neither empty nor `.` is the components with slashes between. -/
theorem ofText_inj {s t : Text} (hs : ∀ part ∈ s.splitOn '/', part ≠ [] ∧ part ≠ ['.'])
    (ht : ∀ part ∈ t.splitOn '/', part ≠ [] ∧ part ≠ ['.']) (h : ofText s = ofText t) : s = t := by
  have hfilter : ∀ {u : Text}, (∀ part ∈ u.splitOn '/', part ≠ [] ∧ part ≠ ['.']) →
      (ofText u).parts = u.splitOn '/' := fun hu =>
    List.filter_eq_self.mpr fun part hpart => decide_eq_true (hu part hpart)
  have hparts : s.splitOn '/' = t.splitOn '/' := by rw [← hfilter hs, ← hfilter ht, h]
  calc s = ['/'].intercalate (s.splitOn '/') := (List.intercalate_splitOn '/').symm
    _ = ['/'].intercalate (t.splitOn '/') := by rw [hparts]
    _ = t := List.intercalate_splitOn '/'

end PurePath
