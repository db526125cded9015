import Mathlib.Data.List.Chain
import TrexCli.Lib.Yaml

/-!
# JSON texts read as YAML

Which scalars a loader of YAML 1.1 reads back from their JSON texts. Truth values and integers are; a
float is if its literal has a point; and a text is unless it holds a character the reader refuses, or
one that the folding of its lines changes.
-/

namespace Yaml

open JsonValue

/-! ### The pieces of a quoted text -/

/-- The piece that a character between quotes is scanned to. -/
def pieceOf (c : Char) : Piece :=
  if c = '"' ∨ c = '\\' ∨ c.toNat < 32 then .escaped c
  else match readBreak c with
    | some b => .lineBreak b
    | none => .raw c

theorem scanPieces_plain {c : Char} (hquote : c ≠ '"') (hback : c ≠ '\\') (hc : 32 ≤ c.toNat)
    (rest : Text) :
    scanPieces (c :: rest) = (scanPieces rest).map fun (s, r) => (pieceOf c :: s, r) := by
  have hnot : ¬c.toNat < 32 := by omega
  rw [scanPieces]
  · cases hb : readBreak c <;> simp [pieceOf, hquote, hback, hnot, hb]
  · simpa using hquote
  · intro a b d e rest' h
    exact absurd h hback
  · intro rest' h
    exact absurd h hback
  · intro d rest' h
    exact absurd h hback
  · rintro rest' rfl
    exact absurd hc (by decide)

theorem scanPieces_escape (c : Char) (rest : Text) :
    scanPieces (escape c ++ rest) = (scanPieces rest).map fun (s, r) => (pieceOf c :: s, r) := by
  unfold escape
  split_ifs with hquote hback hn hr ht hf hb hcontrol
  · subst hquote
    simp [scanPieces, readBreak, unescape, pieceOf]
  · subst hback
    simp [scanPieces, readBreak, unescape, pieceOf]
  · subst hn
    simp [scanPieces, readBreak, unescape, pieceOf]
  · subst hr
    simp [scanPieces, readBreak, unescape, pieceOf]
  · subst ht
    simp [scanPieces, readBreak, unescape, pieceOf]
  · subst hf
    simp [scanPieces, readBreak, unescape, pieceOf]
  · subst hb
    simp [scanPieces, readBreak, unescape, pieceOf]
  · have hpiece : pieceOf c = .escaped c := by simp [pieceOf, hcontrol]
    simp [hexDigits, scanPieces, hexValue4_hexDigits hcontrol, ofCodeUnit_toNat, hpiece]
  · exact scanPieces_plain hquote hback (by omega) rest

theorem scanPieces_flatMap_escape (s rest : Text) :
    scanPieces (s.flatMap escape ++ '"' :: rest) = some (s.map pieceOf, rest) := by
  induction s with
  | nil => simp [scanPieces]
  | cons c s ih => simp [List.append_assoc, scanPieces_escape, ih]

theorem scanQuoted_quote (s : Text) : scanQuoted (quote s) = some (s.map pieceOf) := by
  simp [scanQuoted, quote, scanPieces_flatMap_escape]

/-! ### The folding of lines -/

/-- A break that is read as it stands. -/
def isSeparator (c : Char) : Bool := c.toNat ∈ [0x2028, 0x2029]

/-- A document marker and the blank or the break after it. -/
def beginsMarker : Text → Bool
  | a :: b :: c :: d :: _ =>
    a = b && b = c && (a = '-' || a = '.') && d.toNat ∈ [0x20, 0x85, 0x2028, 0x2029]
  | _ => false

/-- No line begins with a document marker. -/
def unmarked : Text → Bool
  | [] => true
  | c :: rest => !(isSeparator c && beginsMarker rest) && unmarked rest

/-- Neighbours that the folding keeps: no blank stands beside a break. -/
def Keeps (c d : Char) : Prop := (c = ' ' → isSeparator d = false) ∧ (isSeparator c = true → d ≠ ' ')

/-- A text that is read back from between its quotes, if it is read. -/
structure Foldable (s : Text) : Prop where
  nextLine : '\x85' ∉ s
  blanks : s.IsChain Keeps
  markers : unmarked s = true

theorem pieceOf_blank : pieceOf ' ' = .raw ' ' := by
  simp [pieceOf, readBreak]

theorem pieceOf_nextLine : pieceOf '\x85' = .lineBreak '\n' := by
  simp [pieceOf, readBreak]

theorem pieceOf_separator {c : Char} (h : isSeparator c = true) : pieceOf c = .lineBreak c := by
  have hnat : c.toNat = 0x2028 ∨ c.toNat = 0x2029 := by simpa [isSeparator] using h
  have hquote : c ≠ '"' := by
    rintro rfl
    exact absurd h (by decide)
  have hback : c ≠ '\\' := by
    rintro rfl
    exact absurd h (by decide)
  have hnot : ¬c.toNat < 32 := by omega
  rcases hnat with hnat | hnat <;> simp [pieceOf, hquote, hback, readBreak, hnat]

/-- Every other character is text. -/
theorem pieceOf_solid {c : Char} (hblank : c ≠ ' ') (hnext : c ≠ '\x85')
    (hsep : isSeparator c = false) :
    pieceOf c = .escaped c ∨ pieceOf c = .raw c ∧ isBlank c = false := by
  unfold pieceOf
  split_ifs with hescaped
  · exact Or.inl rfl
  · push Not at hescaped
    have hlow := hescaped.2.2
    have hnat : c.toNat ≠ 0x85 := fun h => hnext (Char.toNat_inj.mp h)
    have hseps : c.toNat ≠ 0x2028 ∧ c.toNat ≠ 0x2029 := by simpa [isSeparator] using hsep
    have h10 : c.toNat ≠ 10 := by omega
    have h13 : c.toNat ≠ 13 := by omega
    have hbreak : readBreak c = none := by simp [readBreak, hnat, hseps, h10, h13]
    have htab : c ≠ '\t' := by
      rintro rfl
      exact absurd hlow (by decide)
    rw [hbreak]
    exact Or.inr ⟨rfl, by simp [isBlank, hblank, htab]⟩

theorem foldLines_solid {c : Char} (hblank : c ≠ ' ') (hnext : c ≠ '\x85')
    (hsep : isSeparator c = false) (m : Mode) (pieces : List Piece) :
    foldLines m (pieceOf c :: pieces) = (foldLines (.text []) pieces).map (m.read ++ c :: ·) := by
  rcases pieceOf_solid hblank hnext hsep with h | ⟨h, hraw⟩
  · rw [h, foldLines]
  · rw [h, foldLines, hraw, if_neg Bool.false_ne_true]

theorem eq_of_pieceOf_raw {c d : Char} (h : pieceOf c = .raw d) : c = d := by
  unfold pieceOf at h
  split_ifs at h
  cases hb : readBreak c <;> simp_all

theorem endsMarker_pieceOf (d : Char) (rest : List Piece) :
    endsMarker (pieceOf d :: rest) = decide (d.toNat ∈ [0x20, 0x85, 0x2028, 0x2029]) := by
  by_cases hblank : d = ' '
  · subst hblank
    rw [pieceOf_blank]
    rfl
  · by_cases hnext : d = '\x85'
    · subst hnext
      rw [pieceOf_nextLine]
      rfl
    · by_cases hsep : isSeparator d = true
      · have hnat : d.toNat = 0x2028 ∨ d.toNat = 0x2029 := by simpa [isSeparator] using hsep
        rw [pieceOf_separator hsep]
        rcases hnat with hnat | hnat <;> simp [endsMarker, hnat]
      · have hother : endsMarker (pieceOf d :: rest) = false := by
          rcases pieceOf_solid hblank hnext (by simpa using hsep) with h | ⟨h, hraw⟩
          · rw [h]
            rfl
          · rw [h]
            exact hraw
        have h32 : d.toNat ≠ 0x20 := fun h => hblank (Char.toNat_inj.mp h)
        have h85 : d.toNat ≠ 0x85 := fun h => hnext (Char.toNat_inj.mp h)
        have hseps : d.toNat ≠ 0x2028 ∧ d.toNat ≠ 0x2029 := by simpa [isSeparator] using hsep
        simp [hother, h32, h85, hseps]

theorem separates_map (s : Text) : separates (s.map pieceOf) = beginsMarker s := by
  have hmark : ∀ c, c = '-' ∨ c = '.' → pieceOf c = .raw c := by
    rintro c (rfl | rfl) <;> simp [pieceOf, readBreak]
  apply Bool.eq_iff_iff.mpr
  constructor
  · intro h
    unfold separates at h
    split at h
    · rename_i a b c rest heq
      obtain ⟨a', s, rfl, ha, heq⟩ := List.map_eq_cons_iff.mp heq
      obtain ⟨b', s, rfl, hb, heq⟩ := List.map_eq_cons_iff.mp heq
      obtain ⟨c', s, rfl, hc, rfl⟩ := List.map_eq_cons_iff.mp heq
      obtain rfl := eq_of_pieceOf_raw ha
      obtain rfl := eq_of_pieceOf_raw hb
      obtain rfl := eq_of_pieceOf_raw hc
      cases s with
      | nil => simp [endsMarker] at h
      | cons d s =>
        rw [List.map_cons, endsMarker_pieceOf] at h
        exact h
    · exact absurd h Bool.false_ne_true
  · intro h
    unfold beginsMarker at h
    split at h
    · rename_i a b c d rest
      have hall : ((a = b ∧ b = c) ∧ (a = '-' ∨ a = '.')) ∧ d.toNat ∈ [0x20, 0x85, 0x2028, 0x2029] := by
        simpa only [Bool.and_eq_true, Bool.or_eq_true, decide_eq_true_eq] using h
      obtain ⟨⟨⟨rfl, rfl⟩, ha⟩, hd⟩ := hall
      simp only [List.map_cons, hmark a ha, separates, endsMarker_pieceOf]
      simp [ha, hd]
    · exact absurd h Bool.false_ne_true

/-! ### Lengths -/

/-- The characters that are kept back at most. -/
def Mode.size : Mode → Nat
  | .text blanks => blanks.length
  | .breaks first others => first.toList.length + others.length

theorem Mode.length_read_le (m : Mode) : m.read.length ≤ m.size := by
  cases m with
  | text blanks => exact Nat.le_refl _
  | breaks first others =>
    cases first with
    | none => simp [read, written, size]
    | some c =>
      simp only [read, written, size, Option.toList_some, List.length_singleton]
      split_ifs <;> grind

/-- Nothing is longer for the folding. -/
theorem length_foldLines_le {pieces : List Piece} {m : Mode} {out : Text}
    (h : foldLines m pieces = some out) : out.length ≤ m.size + pieces.length := by
  induction pieces generalizing m out with
  | nil =>
    obtain rfl : m.read = out := by simpa [foldLines] using h
    exact m.length_read_le
  | cons piece pieces ih =>
    have hread := m.length_read_le
    -- the rest of the text, after what was kept back and one character
    have htext : ∀ {m' : Mode} {f : Text → Text}, m'.size = 0 →
        (∀ rest, (f rest).length ≤ m.size + 1 + rest.length) →
        (foldLines m' pieces).map f = some out → out.length ≤ m.size + (piece :: pieces).length := by
      intro m' f hzero hf h
      obtain ⟨rest, hrest, rfl⟩ := Option.map_eq_some_iff.mp h
      have hle := ih hrest
      have hlength := hf rest
      rw [List.length_cons]
      omega
    cases piece with
    | raw c =>
      rw [foldLines] at h
      split_ifs at h with hblank
      · have hle := ih h
        have hsize : (m.blank c).size ≤ m.size + 1 := by cases m <;> simp [Mode.blank, Mode.size]
        rw [List.length_cons]
        omega
      · apply @htext (.text []) _ rfl _ h
        intro rest
        simp only [List.length_append, List.length_cons]
        omega
    | lineBreak c =>
      rw [foldLines] at h
      split_ifs at h
      have hle := ih h
      have hsize : (m.lineBreak c).size ≤ m.size + 1 := by
        cases m <;> simp [Mode.lineBreak, Mode.size, Nat.add_assoc]
      rw [List.length_cons]
      omega
    | escaped c =>
      apply @htext (.text []) _ rfl _ h
      intro rest
      simp only [List.length_append, List.length_cons]
      omega
    | escapedBreak =>
      rw [foldLines] at h
      split_ifs at h
      apply @htext (.breaks none []) _ rfl _ h
      intro rest
      rw [List.length_append]
      omega

/-! ### What is kept -/

theorem mem_written_append {first : Option Char} {others : Text} {c x : Char}
    (h : x ∈ written first (others ++ [c])) : x ∈ written first others ∨ x = c := by
  cases first with
  | none => simpa [written] using h
  | some b =>
    by_cases hb : b = '\n'
    · have hx : x ∈ others ∨ x = c := by simpa [written, hb] using h
      rcases hx with hx | hx
      · have hne : others ≠ [] := List.ne_nil_of_mem hx
        exact Or.inl (by simpa [written, hb, hne] using hx)
      · exact Or.inr hx
    · have hx : x = b ∨ x ∈ others ∨ x = c := by simpa [written, hb] using h
      rw [← or_assoc] at hx
      exact hx.imp_left fun hx => by simpa [written, hb] using hx

theorem Mode.mem_read_blank {m : Mode} {c x : Char} (h : x ∈ (m.blank c).read) :
    x ∈ m.read ∨ x = c := by
  cases m with
  | text blanks => simpa [Mode.blank, Mode.read] using h
  | breaks first others => exact Or.inl h

theorem Mode.mem_read_lineBreak {m : Mode} {c x : Char} (h : x ∈ (m.lineBreak c).read) :
    x ∈ m.read ∨ x = c ∨ x = ' ' := by
  cases m with
  | text blanks =>
    by_cases hc : c = '\n'
    · exact Or.inr (Or.inr (by simpa [Mode.lineBreak, Mode.read, written, hc] using h))
    · exact Or.inr (Or.inl (by simpa [Mode.lineBreak, Mode.read, written, hc] using h))
  | breaks first others =>
    rcases mem_written_append h with h | h
    · exact Or.inl h
    · exact Or.inr (Or.inl h)

theorem foldLines_blank (m : Mode) (pieces : List Piece) :
    foldLines m (pieceOf ' ' :: pieces) = foldLines (m.blank ' ') pieces := by
  rw [pieceOf_blank, foldLines, if_pos (by decide)]

theorem foldLines_nextLine (m : Mode) (pieces : List Piece) :
    foldLines m (pieceOf '\x85' :: pieces) =
      if separates pieces then none else foldLines (m.lineBreak '\n') pieces := by
  rw [pieceOf_nextLine, foldLines]

theorem foldLines_separator {c : Char} (h : isSeparator c = true) (m : Mode) (pieces : List Piece) :
    foldLines m (pieceOf c :: pieces) =
      if separates pieces then none else foldLines (m.lineBreak c) pieces := by
  rw [pieceOf_separator h, foldLines]

/-- A next-line character is read as another. -/
theorem nextLine_not_mem {s : Text} {m : Mode} {out : Text} (hm : '\x85' ∉ m.read)
    (h : foldLines m (s.map pieceOf) = some out) : '\x85' ∉ out := by
  induction s generalizing m out with
  | nil =>
    obtain rfl : m.read = out := by simpa [foldLines] using h
    exact hm
  | cons c s ih =>
    rw [List.map_cons] at h
    by_cases hblank : c = ' '
    · subst hblank
      rw [foldLines_blank] at h
      apply ih _ h
      intro hmem
      rcases Mode.mem_read_blank hmem with hmem | hmem
      · exact hm hmem
      · exact absurd hmem (by decide)
    · by_cases hnext : c = '\x85'
      · subst hnext
        rw [foldLines_nextLine] at h
        split_ifs at h
        apply ih _ h
        intro hmem
        rcases Mode.mem_read_lineBreak hmem with hmem | hmem | hmem
        · exact hm hmem
        · exact absurd hmem (by decide)
        · exact absurd hmem (by decide)
      · by_cases hsep : isSeparator c = true
        · rw [foldLines_separator hsep] at h
          split_ifs at h
          apply ih _ h
          intro hmem
          rcases Mode.mem_read_lineBreak hmem with hmem | hmem | hmem
          · exact hm hmem
          · exact hnext hmem.symm
          · exact absurd hmem (by decide)
        · rw [foldLines_solid hblank hnext (by simpa using hsep)] at h
          obtain ⟨rest, hrest, rfl⟩ := Option.map_eq_some_iff.mp h
          have hnot := ih (m := .text []) (by simp [Mode.read]) hrest
          simp [hm, Ne.symm hnext, hnot]

/-- What a mode holds back is read as it stands, whatever follows. -/
def Mode.Plain : Mode → Prop
  | .text _ => True
  | .breaks first _ => ∃ c, first = some c ∧ isSeparator c = true

/-- What may follow. -/
def Mode.Meets (c : Char) : Mode → Prop
  | .text blanks => blanks ≠ [] → isSeparator c = false
  | .breaks _ _ => c ≠ ' '

theorem isSeparator_ne_newline {c : Char} (h : isSeparator c = true) : c ≠ '\n' := by
  rintro rfl
  exact absurd h (by decide)

theorem Mode.Plain.length_read {m : Mode} (h : m.Plain) : m.read.length = m.size := by
  cases m with
  | text blanks => rfl
  | breaks first others =>
    obtain ⟨c, rfl, hc⟩ := h
    simp [Mode.read, written, isSeparator_ne_newline hc, Mode.size]
    omega

theorem foldable_nil : Foldable [] := ⟨by simp, by simp, rfl⟩

theorem foldable_cons {c : Char} {s : Text} :
    Foldable (c :: s) ↔ c ≠ '\x85' ∧ (∀ d ∈ s.head?, Keeps c d) ∧
      (isSeparator c = true → beginsMarker s = false) ∧ Foldable s := by
  constructor
  · rintro ⟨hnext, hblanks, hmarkers⟩
    rw [List.mem_cons, not_or] at hnext
    rw [List.isChain_cons] at hblanks
    have hboth : (isSeparator c = true → beginsMarker s = false) ∧ unmarked s = true := by
      simpa [unmarked, ← Bool.not_eq_true, imp_iff_not_or] using hmarkers
    exact ⟨Ne.symm hnext.1, hblanks.1, hboth.1, hnext.2, hblanks.2, hboth.2⟩
  · rintro ⟨hnext, hhead, hmark, h⟩
    refine ⟨?_, ?_, ?_⟩
    · rw [List.mem_cons, not_or]
      exact ⟨Ne.symm hnext, h.nextLine⟩
    · rw [List.isChain_cons]
      exact ⟨hhead, h.blanks⟩
    · cases hsep : isSeparator c with
      | false => simp [unmarked, hsep, h.markers]
      | true => simp [unmarked, hmark hsep, h.markers]

/-- The folding gives back what was kept back and the rest, exactly when no blank or break of it is
changed. -/
theorem foldLines_map_iff {s : Text} {m : Mode} (hm : m.Plain) (hread : '\x85' ∉ m.read) :
    foldLines m (s.map pieceOf) = some (m.read ++ s) ↔ (∀ c ∈ s.head?, m.Meets c) ∧ Foldable s := by
  induction s generalizing m with
  | nil => simp [foldLines, foldable_nil]
  | cons c s ih =>
    rw [List.map_cons, foldable_cons]
    have hhead : (∀ d ∈ (c :: s).head?, m.Meets d) ↔ m.Meets c := by simp
    rw [hhead]
    by_cases hblank : c = ' '
    · subst hblank
      have hsep : isSeparator ' ' = false := by decide
      rw [foldLines_blank]
      cases m with
      | text blanks =>
        have hih := ih (m := .text (blanks ++ [' '])) trivial (by simpa [Mode.read] using hread)
        have happend : (Mode.text (blanks ++ [' '])).read ++ s = blanks ++ ' ' :: s := by
          simp [Mode.read]
        rw [happend] at hih
        refine hih.trans ?_
        simp [Mode.Meets, Keeps, hsep]
      | breaks first others =>
        have hnot : ¬(Mode.breaks first others).Meets ' ' := fun h => h rfl
        refine iff_of_false (fun h => ?_) fun h => hnot h.1
        have hle := length_foldLines_le h
        have hlength := hm.length_read
        simp only [List.length_append, List.length_cons, List.length_map, Mode.blank] at hle
        omega
    · by_cases hnext : c = '\x85'
      · subst hnext
        refine iff_of_false (fun h => ?_) fun h => h.2.1 rfl
        have hnot := nextLine_not_mem (s := '\x85' :: s) hread h
        simp at hnot
      · by_cases hsep : isSeparator c = true
        · have hkeeps : ∀ d, Keeps c d ↔ d ≠ ' ' := fun d => by simp [Keeps, hblank, hsep]
          rw [foldLines_separator hsep, separates_map]
          cases hmark : beginsMarker s with
          | true => simp [hsep]
          | false =>
            rw [if_neg Bool.false_ne_true]
            cases m with
            | text blanks =>
              by_cases hblanks : blanks = []
              · subst hblanks
                have hplain : (Mode.breaks (some c) []).Plain := ⟨c, rfl, hsep⟩
                have hread' : (Mode.breaks (some c) []).read = [c] := by
                  simp [Mode.read, written, isSeparator_ne_newline hsep]
                have hih := ih hplain (by simpa [hread'] using Ne.symm hnext)
                rw [hread'] at hih
                refine hih.trans ?_
                simp [Mode.Meets, hkeeps, hnext]
              · have hnot : ¬(Mode.text blanks).Meets c := by simp [Mode.Meets, hblanks, hsep]
                refine iff_of_false (fun h => ?_) fun h => hnot h.1
                have hle := length_foldLines_le h
                have hpos := List.length_pos_iff.mpr hblanks
                simp [Mode.lineBreak, Mode.size, Mode.read] at hle
                omega
            | breaks first others =>
              obtain ⟨b, rfl, hb⟩ := hm
              have hplain : (Mode.breaks (some b) (others ++ [c])).Plain := ⟨b, rfl, hb⟩
              have hread' : (Mode.breaks (some b) (others ++ [c])).read =
                  (Mode.breaks (some b) others).read ++ [c] := by
                simp [Mode.read, written, isSeparator_ne_newline hb]
              have hmem : '\x85' ∉ (Mode.breaks (some b) (others ++ [c])).read := by
                simp [hread', hread, Ne.symm hnext]
              have hih := ih hplain hmem
              rw [hread', List.append_assoc, List.singleton_append] at hih
              refine hih.trans ?_
              simp [Mode.Meets, hkeeps, hnext, hblank]
        · have hsolid : isSeparator c = false := by simpa using hsep
          have hih := ih (m := .text []) trivial (by simp [Mode.read])
          have hmeets : m.Meets c := by cases m <;> simp [Mode.Meets, hsolid, hblank]
          have hkeeps : ∀ d, Keeps c d := fun d => by simp [Keeps, hblank, hsolid]
          rw [foldLines_solid hblank hnext hsolid]
          have htext : ∀ d, (Mode.text []).Meets d := fun d => by simp [Mode.Meets]
          have hsome : (foldLines (.text []) (s.map pieceOf)).map (m.read ++ c :: ·) =
              some (m.read ++ c :: s) ↔ foldLines (.text []) (s.map pieceOf) = some s := by
            simp [Option.map_eq_some_iff]
          refine hsome.trans (hih.trans ?_)
          simp [htext, hmeets, hkeeps, hnext, hsolid]

/-! ### The literals of floats -/

/-- `-?\d+(\.\d+)?([eE][-+]\d+)?`, the literals in which an exponent has its sign. -/
structure IsRepr (text : Text) (sign whole fraction exponent : Text) : Prop where
  parts : text = sign ++ (whole ++ (fraction ++ exponent))
  signed : sign = [] ∨ sign = ['-']
  whole_ne_nil : whole ≠ []
  digits : ∀ c ∈ whole, c.isDigit = true
  decimals : fraction = [] ∨ ∃ ds, fraction = '.' :: ds ∧ ∀ c ∈ ds, c.isDigit = true
  exponent_signed : isSignedExponent exponent = true

/-- An exponent, as far as the digits before it are dropped. -/
theorem dropWhile_exponent {ds exponent : Text} (hds : ∀ c ∈ ds, c.isDigit = true)
    (h : isSignedExponent exponent = true) :
    (ds ++ exponent).dropWhile isDigitOrUnderscore = exponent := by
  have hpos : ∀ c ∈ ds, isDigitOrUnderscore c = true := fun c hc => by
    simp [isDigitOrUnderscore, hds c hc]
  rw [List.dropWhile_append_of_pos hpos]
  match exponent, h with
  | [], _ => rfl
  | e :: sign :: digits, h =>
    have he : e = 'e' ∨ e = 'E' := by
      simp only [isSignedExponent, Bool.and_eq_true, Bool.or_eq_true, decide_eq_true_eq] at h
      exact h.1.1.1
    rcases he with rfl | rfl <;> rfl

theorem point_not_mem_exponent {exponent : Text} (h : isSignedExponent exponent = true) :
    '.' ∉ exponent := by
  match exponent, h with
  | [], _ => simp
  | e :: sign :: digits, h =>
    simp only [isSignedExponent, Bool.and_eq_true, Bool.or_eq_true, decide_eq_true_eq,
      List.all_eq_true] at h
    intro hmem
    rcases List.mem_cons.mp hmem with rfl | hmem
    · simp at h
    · rcases List.mem_cons.mp hmem with rfl | hmem
      · simp at h
      · exact absurd (h.2 '.' hmem) (by decide)

/-- A word is a float if it has a point. -/
theorem isFloatWord_iff {text sign whole fraction exponent : Text}
    (h : IsRepr text sign whole fraction exponent) : isFloatWord text = true ↔ '.' ∈ text := by
  obtain ⟨rfl, hsign, hne, hdigits, hfraction, hexponent⟩ := h
  obtain ⟨d, ds, rfl⟩ := List.exists_cons_of_ne_nil hne
  have hd : d.isDigit = true := hdigits d List.mem_cons_self
  have hds : ∀ c ∈ ds, c.isDigit = true := fun c hc => hdigits c (List.mem_cons_of_mem d hc)
  have hdrop : dropSign (sign ++ (d :: ds ++ (fraction ++ exponent))) =
      d :: (ds ++ (fraction ++ exponent)) := by
    rcases hsign with rfl | rfl
    · have hminus : d ≠ '-' := by
        rintro rfl
        exact absurd hd (by decide)
      have hplus : d ≠ '+' := by
        rintro rfl
        exact absurd hd (by decide)
      simp [dropSign, hminus, hplus]
    · rfl
  rw [isFloatWord, hdrop]
  rcases hfraction with rfl | ⟨fs, rfl, hfs⟩
  · have hnot := point_not_mem_exponent hexponent
    have hpoint : '.' ∉ sign ++ (d :: ds ++ ([] ++ exponent)) := by
      have hdot : '.' ≠ d := by
        rintro rfl
        exact absurd hd (by decide)
      have hdots : '.' ∉ ds := fun hmem => absurd (hds '.' hmem) (by decide)
      rcases hsign with rfl | rfl <;> simp [hdot, hdots, hnot]
    refine iff_of_false ?_ hpoint
    simp only [List.nil_append, dropWhile_exponent hds hexponent]
    match exponent, hnot with
    | [], _ => simp
    | c :: rest, hnot =>
      have hc : c ≠ '.' := fun h => hnot (h ▸ List.mem_cons_self)
      simp [hc]
  · refine iff_of_true ?_ (by simp)
    have hpos : ∀ c ∈ ds, isDigitOrUnderscore c = true := fun c hc => by
      simp [isDigitOrUnderscore, hds c hc]
    have hstop : (ds ++ ('.' :: fs ++ exponent)).dropWhile isDigitOrUnderscore =
        '.' :: (fs ++ exponent) := by
      rw [List.dropWhile_append_of_pos hpos]
      rfl
    simp only [hstop, hd, dropWhile_exponent hfs hexponent, hexponent, Bool.and_self]

/-! ### Scalars -/

variable {F : Type} [FloatRepr F] {load : Text → Option (JsonValue F)}

/-- The digits of an integer. -/
def digitsOf (n : Int) : Text := Text.ofNat n.natAbs

theorem filter_ofInt (n : Int) : (ofInt n).filter Char.isDigit = digitsOf n := by
  have hall : ∀ m, (Text.ofNat m).filter Char.isDigit = Text.ofNat m := fun m =>
    List.filter_eq_self.mpr fun c hc => isDigit_of_mem_ofNat hc
  cases n with
  | ofNat n => exact hall n
  | negSucc n =>
    rw [ofInt, List.filter_cons_of_neg (by decide), hall]
    rfl

theorem not_isFloatWord_ofInt (n : Int) : isFloatWord (ofInt n) = false := by
  have hdigits : ∀ m, ∀ c ∈ Text.ofNat m, c.isDigit = true := fun m c hc => isDigit_of_mem_ofNat hc
  have hdot : '.' ∉ ofInt n := fun h => by
    have hmem : '.' ∈ (Text.ofNat n.natAbs) := by
      cases n with
      | ofNat n => exact h
      | negSucc n => exact (List.mem_cons.mp h).resolve_left (by decide)
    exact absurd (hdigits _ _ hmem) (by decide)
  have hword : ∀ {sign m}, (sign = [] ∨ sign = ['-']) → ofInt n = sign ++ Text.ofNat m →
      isFloatWord (ofInt n) = false := by
    intro sign m hsign heq
    have h : IsRepr (ofInt n) sign (Text.ofNat m) [] [] :=
      ⟨by simpa using heq, hsign, ofNat_ne_nil m, hdigits m, Or.inl rfl, rfl⟩
    exact Bool.eq_false_iff.mpr fun hfloat => hdot ((isFloatWord_iff h).mp hfloat)
  cases n with
  | ofNat n => exact hword (Or.inl rfl) rfl
  | negSucc n => exact hword (Or.inr rfl) rfl

theorem isPrintable_of_isNumberChar {c : Char} (h : isNumberChar c = true) : isPrintable c = true := by
  rw [isNumberChar, Bool.or_eq_true] at h
  rcases h with h | h
  · simp only [Char.isDigit, Bool.and_eq_true, decide_eq_true_eq, UInt32.le_iff_toNat_le] at h
    have hlow : 48 ≤ c.toNat := h.1
    have hhigh : c.toNat ≤ 57 := h.2
    simp only [isPrintable, Bool.or_eq_true, Bool.and_eq_true, decide_eq_true_eq]
    omega
  · have hall : ∀ d ∈ ['-', '+', '.', 'e', 'E'], isPrintable d = true :=
      List.all_eq_true.mp (by decide)
    exact hall c (by simpa using h)

theorem SafeLoader.load_int (L : SafeLoader load) {n : Int} (h : (digitsOf n).length ≤ maxDigits) :
    load (ofInt n) = some (.int n) := by
  have hprintable : ∀ c ∈ ofInt n, isPrintable c = true := fun c hc =>
    isPrintable_of_isNumberChar (isNumberChar_of_mem_ofInt hc)
  rw [L.number _ hprintable (Or.inl (isIntLiteral_ofInt n)), resolveNumber, not_isFloatWord_ofInt,
    if_neg Bool.false_ne_true, if_pos (isIntLiteral_ofInt n), filter_ofInt, if_pos h,
    intOfLiteral_ofInt]

/-- A float without a point is read as a text. -/
theorem SafeLoader.load_float_iff (L : SafeLoader load) {x : F} {sign whole fraction exponent : Text}
    (h : IsRepr (FloatRepr.repr x) sign whole fraction exponent) :
    load (FloatRepr.repr x) = some (.float x) ↔ '.' ∈ FloatRepr.repr x := by
  have hprintable : ∀ c ∈ FloatRepr.repr x, isPrintable c = true := fun c hc =>
    isPrintable_of_isNumberChar (FloatRepr.repr_chars x c hc)
  rw [L.number _ hprintable (Or.inr (FloatRepr.repr_literal x)), resolveNumber, ← isFloatWord_iff h,
    if_neg (FloatRepr.repr_fraction x)]
  cases hword : isFloatWord (FloatRepr.repr x) with
  | false => simp
  | true => simp [FloatRepr.ofLiteral_repr]

theorem isPrintable_escape_iff (c : Char) :
    (∀ d ∈ escape c, isPrintable d = true) ↔ (32 ≤ c.toNat → isPrintable c = true) := by
  unfold escape
  split_ifs with hquote hback hn hr ht hf hb hcontrol
  · subst hquote
    exact iff_of_true (List.all_eq_true.mp (by decide)) fun _ => rfl
  · subst hback
    exact iff_of_true (List.all_eq_true.mp (by decide)) fun _ => rfl
  · subst hn
    exact iff_of_true (List.all_eq_true.mp (by decide)) fun _ => rfl
  · subst hr
    exact iff_of_true (List.all_eq_true.mp (by decide)) fun _ => rfl
  · subst ht
    exact iff_of_true (List.all_eq_true.mp (by decide)) fun _ => rfl
  · subst hf
    exact iff_of_true (List.all_eq_true.mp (by decide)) (by decide)
  · subst hb
    exact iff_of_true (List.all_eq_true.mp (by decide)) (by decide)
  · have hall : ∀ n < 16, isPrintable (Nat.digitChar n) = true := by decide
    have hhigh := hall (c.toNat / 16) (by omega)
    have hlow := hall (c.toNat % 16) (by omega)
    refine iff_of_true ?_ (by omega)
    simp [hexDigits, hhigh, hlow]
    decide
  · have hc : 32 ≤ c.toNat := by omega
    simp [hc]

theorem isPrintable_quote_iff (s : Text) :
    (∀ d ∈ quote s, isPrintable d = true) ↔ ∀ c ∈ s, 32 ≤ c.toNat → isPrintable c = true := by
  have hquote : isPrintable '"' = true := rfl
  constructor
  · intro h c hc
    refine (isPrintable_escape_iff c).mp fun d hd => h d ?_
    exact List.mem_cons_of_mem _ (List.mem_append_left _ (List.mem_flatMap.mpr ⟨c, hc, hd⟩))
  · intro h d hd
    rw [quote, List.mem_cons, List.mem_append, List.mem_singleton] at hd
    rcases hd with rfl | hd | rfl
    · exact hquote
    · obtain ⟨c, hc, hd⟩ := List.mem_flatMap.mp hd
      exact (isPrintable_escape_iff c).mpr (h c hc) d hd
    · exact hquote

/-- What the reader and the folding leave of a text. -/
theorem SafeLoader.load_quote_iff (L : SafeLoader load) (s : Text) :
    load (quote s) = some (.str s) ↔
      (∀ c ∈ s, 32 ≤ c.toNat → isPrintable c = true) ∧ Foldable s := by
  rw [← isPrintable_quote_iff]
  by_cases hprintable : ∀ d ∈ quote s, isPrintable d = true
  · have hfold : foldLines (.text []) (s.map pieceOf) = some s ↔ Foldable s := by
      have hiff := foldLines_map_iff (s := s) (m := .text []) trivial (by simp [Mode.read])
      simpa [Mode.read, Mode.Meets] using hiff
    rw [L.quoted _ _ hprintable (scanQuoted_quote s), and_iff_right hprintable, ← hfold]
    simp [Option.map_eq_some_iff]
  · refine iff_of_false (fun h => ?_) fun h => hprintable h.1
    push Not at hprintable
    obtain ⟨d, hd, hnot⟩ := hprintable
    rw [L.unprintable _ d hd (by simpa using hnot)] at h
    cases h

end Yaml
