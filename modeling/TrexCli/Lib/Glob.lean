import Mathlib.Data.List.Infix
import TrexCli.Lib.Paths

/-!
# Patterns of file names

`fnmatch.fnmatchcase`: a star stands for any text, a question mark for any character, and a bracket for
one of its characters or, after an exclamation mark, for none of them. A bracket that is not closed
stands for itself.
-/

namespace Text

/-- An element of a pattern. -/
inductive GlobToken where
  | char (c : Char)
  | one
  | many
  | set (negated : Bool) (ranges : List (Char × Char))

/-- The ranges in a bracket; a character alone is a range too. -/
def globRanges : Text → List (Char × Char)
  | a :: '-' :: b :: rest => (a, b) :: globRanges rest
  | a :: rest => (a, a) :: globRanges rest
  | [] => []

/-- What is before the closing bracket, which does not come first. -/
def bracketed : Text → Text
  | [] => []
  | c :: rest => c :: rest.takeWhile (· ≠ ']')

/-- The set after an opening bracket, if it is closed, and how many characters belong to it. -/
def globSet (text : Text) : Option (GlobToken × Nat) :=
  let negated := text.head? = some '!'
  let inner := bracketed (if negated then text.tail else text)
  let length := inner.length + if negated then 1 else 0
  if length < text.length then some (.set negated (globRanges inner), length + 1) else none

/-- The elements of a pattern after its first `skip` characters. -/
def globTokens : Nat → Text → List GlobToken
  | _, [] => []
  | skip + 1, _ :: rest => globTokens skip rest
  | 0, c :: rest =>
    if c = '*' then .many :: globTokens 0 rest
    else if c = '?' then .one :: globTokens 0 rest
    else if c = '[' then
      match globSet rest with
      | some (token, length) => token :: globTokens length rest
      | none => .char c :: globTokens 0 rest
    else .char c :: globTokens 0 rest

/-- Whether an element stands for a character. -/
def GlobToken.covers : GlobToken → Char → Bool
  | char c, d => c = d
  | one, _ => true
  | many, _ => true
  | set negated ranges, d => (ranges.any fun range => range.1 ≤ d && d ≤ range.2) != negated

def globMatches : List GlobToken → Text → Bool
  | [], text => text.isEmpty
  | .many :: tokens, text => text.tails.any (globMatches tokens)
  | _ :: _, [] => false
  | token :: tokens, c :: rest => token.covers c && globMatches tokens rest

/-- `fnmatchcase(text, pattern)` -/
def fnmatch (pattern text : Text) : Bool := globMatches (globTokens 0 pattern) text

/-! ### Plain patterns -/

/-- A character that stands for itself. -/
def plainGlob (c : Char) : Bool := c ≠ '*' && c ≠ '?' && c ≠ '['

theorem globTokens_append {literal : Text} (h : ∀ c ∈ literal, plainGlob c = true) (pattern : Text) :
    globTokens 0 (literal ++ pattern) = literal.map .char ++ globTokens 0 pattern := by
  induction literal with
  | nil => rfl
  | cons c literal ih =>
    have hc := h c List.mem_cons_self
    simp only [plainGlob, Bool.and_eq_true, decide_eq_true_eq] at hc
    rw [List.cons_append, globTokens, if_neg hc.1.1, if_neg hc.1.2, if_neg hc.2,
      ih fun d hd => h d (List.mem_cons_of_mem _ hd)]
    rfl

theorem globMatches_append {literal : Text} {tokens : List GlobToken} {text : Text} :
    globMatches (literal.map .char ++ tokens) text = true ↔
      ∃ rest, text = literal ++ rest ∧ globMatches tokens rest = true := by
  induction literal generalizing text with
  | nil => simp
  | cons c literal ih =>
    cases text with
    | nil => simp [globMatches]
    | cons d text =>
      have hstep : globMatches ((c :: literal).map .char ++ tokens) (d :: text) =
          ((GlobToken.char c).covers d && globMatches (literal.map .char ++ tokens) text) := rfl
      rw [hstep, Bool.and_eq_true, ih, GlobToken.covers, decide_eq_true_eq]
      constructor
      · rintro ⟨rfl, rest, rfl, hrest⟩
        exact ⟨rest, rfl, hrest⟩
      · rintro ⟨rest, htext, hrest⟩
        obtain ⟨rfl, rfl⟩ := List.cons_eq_cons.mp htext
        exact ⟨rfl, rest, rfl, hrest⟩

/-- One star between plain texts. -/
theorem fnmatch_star {before after text : Text} (hbefore : ∀ c ∈ before, plainGlob c = true)
    (hafter : ∀ c ∈ after, plainGlob c = true) :
    fnmatch (before ++ '*' :: after) text = true ↔ ∃ middle, text = before ++ (middle ++ after) := by
  have htokens : globTokens 0 ('*' :: after) = .many :: (after.map .char ++ []) := by
    have hplain := globTokens_append hafter []
    rw [List.append_nil] at hplain
    rw [globTokens, if_pos rfl, hplain, globTokens]
  rw [fnmatch, globTokens_append hbefore, globMatches_append, htokens]
  have hmany : ∀ rest, globMatches (.many :: (after.map .char ++ [])) rest = true ↔
      ∃ middle, rest = middle ++ after := by
    intro rest
    simp only [globMatches, List.any_eq_true, List.mem_tails, globMatches_append,
      List.isEmpty_iff]
    constructor
    · rintro ⟨_, ⟨middle, rfl⟩, _, rfl, rfl⟩
      exact ⟨middle, by rw [List.append_nil]⟩
    · rintro ⟨middle, rfl⟩
      exact ⟨after, ⟨middle, rfl⟩, [], (List.append_nil _).symm, rfl⟩
  simp only [hmany]
  constructor
  · rintro ⟨_, rfl, middle, rfl⟩
    exact ⟨middle, rfl⟩
  · rintro ⟨middle, rfl⟩
    exact ⟨_, rfl, middle, rfl⟩

end Text
