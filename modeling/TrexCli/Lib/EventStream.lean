import TrexCli.Lib.Paths

/-!
# Event streams

Messages as server-sent events: a few lines with an id, a name and the data, then an empty one. The
reader splits what arrives into lines as `str.splitlines` does, collects the data lines, and hands a
message on at an empty line. From any part of a stream it gets whole messages only, the first ones, if
no data has a character that ends a line (`payloads_take`); data that has one is not read back
(`payloads_stream_iff`).
-/

namespace EventStream

/-- The characters at which `str.splitlines` splits. -/
def isBoundary (c : Char) : Bool :=
  c.toNat ∈ [10, 11, 12, 13, 28, 29, 30, 133, 8232, 8233]

/-- A text without the end of a line. -/
def OneLine (text : Text) : Prop := ∀ c ∈ text, isBoundary c = false

-- decided along the text, never over all characters
instance (text : Text) : Decidable (OneLine text) :=
  List.decidableBAll (fun c => isBoundary c = false) text

/-- The lines of a text, after the beginning of the first one; `skip` says that the character before
was a carriage return, which a line feed does not end once more. -/
def splitFrom (skip : Bool) (current : Text) : Text → List Text
  | [] => if current = [] then [] else [current]
  | c :: rest =>
    if skip && c = '\n' then splitFrom false current rest
    else if isBoundary c then current :: splitFrom (c = '\r') [] rest
    else splitFrom false (current ++ [c]) rest

/-- `splitlines` -/
def splitLines (text : Text) : List Text := splitFrom false [] text

/-- `data: ` -/
def dataField : Text := "data: ".toList

/-- The loop of the reader over the lines, with the data lines that it has collected. -/
def collect (dataLines : List Text) : List Text → List Text
  | [] => []
  | line :: rest =>
    if dataField <+: line then collect (dataLines ++ [line.drop dataField.length]) rest
    else if line = [] ∧ dataLines ≠ [] then
      List.intercalate ['\n'] dataLines :: collect [] rest
    else collect dataLines rest

/-- The data of the messages in a text. -/
def payloads (text : Text) : List Text := collect [] (splitLines text)

/-- A message with its id. -/
structure Message where
  id : Nat
  data : Text

/-- The lines of a message. -/
def Message.lines (name : Text) (m : Message) : List Text :=
  ["id: ".toList ++ Text.ofNat m.id, "event: ".toList ++ name, dataField ++ m.data, []]

/-- The text of lines, each with its end. -/
def textOf (lines : List Text) : Text := lines.flatMap fun line => line ++ ['\n']

/-- The text of a message. -/
def Message.frame (name : Text) (m : Message) : Text := textOf (m.lines name)

/-- The text of a stream. -/
def stream (name : Text) (messages : List Message) : Text := messages.flatMap (Message.frame name)

/-! ### Lines -/

variable {name : Text}

theorem textOf_append (xs ys : List Text) : textOf (xs ++ ys) = textOf xs ++ textOf ys :=
  List.flatMap_append

theorem textOf_cons (line : Text) (lines : List Text) :
    textOf (line :: lines) = line ++ '\n' :: textOf lines := by
  simp [textOf]

theorem stream_eq (messages : List Message) :
    stream name messages = textOf (messages.flatMap (Message.lines name)) := by
  induction messages with
  | nil => rfl
  | cons m rest ih =>
    rw [stream, List.flatMap_cons, List.flatMap_cons, textOf_append, ← ih]
    rfl

theorem isBoundary_newline : isBoundary '\n' = true := by decide

/-- What is left of a line goes to its end. -/
theorem splitFrom_line {line : Text} (h : OneLine line) (current rest : Text) :
    splitFrom false current (line ++ '\n' :: rest) = (current ++ line) :: splitLines rest := by
  induction line generalizing current with
  | nil =>
    rw [List.nil_append, splitFrom, if_neg (by simp), if_pos isBoundary_newline, List.append_nil]
    rfl
  | cons c line ih =>
    have hc := h c List.mem_cons_self
    rw [List.cons_append, splitFrom, if_neg (by simp), if_neg (by simp [hc]),
      ih (fun d hd => h d (List.mem_cons_of_mem _ hd)), List.append_assoc, List.singleton_append]

theorem splitFrom_oneLine {line : Text} (h : OneLine line) (current : Text) :
    splitFrom false current line = if current ++ line = [] then [] else [current ++ line] := by
  induction line generalizing current with
  | nil => rw [splitFrom, List.append_nil]
  | cons c line ih =>
    have hc := h c List.mem_cons_self
    rw [splitFrom, if_neg (by simp), if_neg (by simp [hc]),
      ih (fun d hd => h d (List.mem_cons_of_mem _ hd)), List.append_assoc, List.singleton_append]

/-- Lines, and the beginning of one more. -/
theorem splitLines_textOf {lines : List Text} {tail : Text} (h : ∀ line ∈ lines, OneLine line)
    (htail : OneLine tail) :
    splitLines (textOf lines ++ tail) = lines ++ if tail = [] then [] else [tail] := by
  induction lines with
  | nil =>
    rw [textOf, List.flatMap_nil, List.nil_append, List.nil_append, splitLines,
      splitFrom_oneLine htail, List.nil_append]
  | cons line lines ih =>
    rw [textOf_cons, List.append_assoc, List.cons_append, splitLines,
      splitFrom_line (h line List.mem_cons_self),
      ih fun l hl => h l (List.mem_cons_of_mem _ hl)]
    rfl

/-- A part of a text of lines: some of the lines, and the beginning of the next one. -/
theorem exists_textOf_take (lines : List Text) (n : Nat) :
    ∃ k tail, (textOf lines).take n = textOf (lines.take k) ++ tail ∧
      (tail = [] ∨ ∃ line, lines[k]? = some line ∧ tail <+: line) := by
  induction lines generalizing n with
  | nil => exact ⟨0, [], by simp [textOf], .inl rfl⟩
  | cons line lines ih =>
    rw [textOf_cons]
    rcases Nat.lt_or_ge line.length n with hlong | hshort
    · obtain ⟨k, tail, htake, htail⟩ := ih (n - (line.length + 1))
      refine ⟨k + 1, tail, ?_, htail⟩
      have hn : n - line.length = n - (line.length + 1) + 1 := by omega
      rw [List.take_append, List.take_of_length_le (Nat.le_of_lt hlong), hn, List.take_succ_cons,
        List.take_succ_cons, textOf_cons, List.append_assoc, List.cons_append, ← htake]
    · refine ⟨0, line.take n, ?_, .inr ⟨line, rfl, List.take_prefix _ _⟩⟩
      rw [List.take_append_of_le_length hshort]
      rfl

/-! ### Messages -/

theorem oneLine_append {xs ys : Text} (hx : OneLine xs) (hy : OneLine ys) : OneLine (xs ++ ys) := by
  intro c hc
  rcases List.mem_append.mp hc with h | h
  · exact hx c h
  · exact hy c h

theorem oneLine_ofNat (n : Nat) : OneLine (Text.ofNat n) := by
  intro c hc
  by_contra hboundary
  have hdigit : c.isDigit = false := by
    by_contra hdigit
    have hc48 : 48 ≤ c.toNat ∧ c.toNat ≤ 57 := by
      simp only [Bool.not_eq_false, Char.isDigit, Bool.and_eq_true, decide_eq_true_eq] at hdigit
      exact ⟨hdigit.1, hdigit.2⟩
    simp only [isBoundary, List.mem_cons, List.not_mem_nil, or_false, Bool.not_eq_false,
      decide_eq_true_eq] at hboundary
    omega
  exact Text.not_mem_ofNat hdigit n hc

/-- The lines of a message whose data is one line. -/
theorem Message.oneLine_lines {m : Message} (hname : OneLine name) (h : OneLine m.data) :
    ∀ line ∈ m.lines name, OneLine line := by
  have hid : OneLine "id: ".toList := by decide
  have hevent : OneLine "event: ".toList := by decide
  have hdata : OneLine dataField := by decide
  simp only [Message.lines, List.mem_cons, List.not_mem_nil, or_false]
  rintro line (rfl | rfl | rfl | rfl)
  · exact oneLine_append hid (oneLine_ofNat _)
  · exact oneLine_append hevent hname
  · exact oneLine_append hdata h
  · exact fun c hc => absurd hc List.not_mem_nil

/-- The reader hands a message on at its last line. -/
theorem collect_lines (m : Message) (rest : List Text) :
    collect [] (m.lines name ++ rest) = m.data :: collect [] rest := by
  have hid : ¬dataField <+: "id: ".toList ++ Text.ofNat m.id := by
    rintro ⟨tail, htail⟩
    cases htail
  have hevent : ¬dataField <+: "event: ".toList ++ name := by
    rintro ⟨tail, htail⟩
    cases htail
  have hempty : ¬dataField <+: [] := by decide
  simp only [Message.lines, List.cons_append, List.nil_append]
  rw [collect, if_neg hid, if_neg (by simp), collect, if_neg hevent, if_neg (by simp), collect,
    if_pos (List.prefix_append _ _), List.drop_left, collect, if_neg hempty, if_pos (by simp)]
  simp

theorem collect_messages (messages : List Message) (rest : List Text) :
    collect [] (messages.flatMap (Message.lines name) ++ rest) =
      messages.map Message.data ++ collect [] rest := by
  induction messages with
  | nil => rfl
  | cons m messages ih =>
    rw [List.flatMap_cons, List.append_assoc, collect_lines, ih]
    rfl

/-- Without an empty line no message is complete. -/
theorem collect_of_ne_nil {lines : List Text} (h : ∀ line ∈ lines, line ≠ []) (dataLines : List Text) :
    collect dataLines lines = [] := by
  induction lines generalizing dataLines with
  | nil => rfl
  | cons line lines ih =>
    have hrest := ih fun l hl => h l (List.mem_cons_of_mem _ hl)
    rw [collect, if_neg (c := line = [] ∧ dataLines ≠ []) (by simp [h line List.mem_cons_self])]
    split
    · exact hrest _
    · exact hrest _

theorem Message.length_lines (m : Message) : (m.lines name).length = 4 := rfl

/-- Some of the lines of a stream: those of the first messages, and not all those of the next. -/
theorem exists_lines_take (name : Text) (messages : List Message) (k : Nat) :
    ∃ i more, (messages.flatMap (Message.lines name)).take k =
      (messages.take i).flatMap (Message.lines name) ++ more ∧ ∀ line ∈ more, line ≠ [] := by
  induction messages generalizing k with
  | nil => exact ⟨0, [], by simp, by simp⟩
  | cons m messages ih =>
    rw [List.flatMap_cons]
    rcases Nat.lt_or_ge k 4 with hshort | hlong
    · refine ⟨0, (m.lines name).take k, ?_, fun line hline => ?_⟩
      · rw [List.take_append_of_le_length (by rw [m.length_lines]; omega)]
        rfl
      · have hfirst : ∀ line ∈ (m.lines name).take 3, line ≠ [] := by simp [Message.lines, dataField]
        have hle : (m.lines name).take k <+: (m.lines name).take 3 :=
          List.take_prefix_take_left (by omega)
        exact hfirst line (hle.subset hline)
    · obtain ⟨i, more, htake, hmore⟩ := ih (k - 4)
      refine ⟨i + 1, more, ?_, hmore⟩
      rw [List.take_append, List.take_of_length_le (by rw [m.length_lines]; exact hlong),
        m.length_lines, htake, List.take_succ_cons, List.flatMap_cons, List.append_assoc]

section

variable {messages : List Message} (hname : OneLine name) (h : ∀ m ∈ messages, OneLine m.data)
include hname h

theorem oneLine_flatMap_lines :
    ∀ line ∈ messages.flatMap (Message.lines name), OneLine line := by
  intro line hline
  obtain ⟨m, hm, hline⟩ := List.mem_flatMap.mp hline
  exact Message.oneLine_lines hname (h m hm) line hline

/-- From a whole stream the reader gets all its messages. -/
theorem payloads_stream : payloads (stream name messages) = messages.map Message.data := by
  have hempty : OneLine [] := by decide
  have hlines := splitLines_textOf (oneLine_flatMap_lines hname h) hempty
  have hall : collect [] (messages.flatMap (Message.lines name) ++ []) = _ :=
    collect_messages messages []
  rw [List.append_nil, if_pos rfl, List.append_nil] at hlines
  rw [List.append_nil] at hall
  rw [payloads, stream_eq, hlines, hall]
  exact List.append_nil _

/-- From any part of a stream the reader gets its first messages, each of them whole. -/
theorem payloads_take (n : Nat) :
    ∃ i, payloads ((stream name messages).take n) = (messages.take i).map Message.data := by
  have hone := oneLine_flatMap_lines hname h
  rw [stream_eq]
  obtain ⟨k, tail, htake, htail⟩ := exists_textOf_take (messages.flatMap (Message.lines name)) n
  have hlines : ∀ line ∈ (messages.flatMap (Message.lines name)).take k, OneLine line :=
    fun line hline => hone line (List.mem_of_mem_take hline)
  have htail' : OneLine tail := by
    rcases htail with rfl | ⟨line, hline, hbegins⟩
    · decide
    · exact fun c hc => hone line (List.mem_of_getElem? hline) c (hbegins.subset hc)
  obtain ⟨i, more, hfirst, hmore⟩ := exists_lines_take name messages k
  refine ⟨i, ?_⟩
  rw [payloads, htake, splitLines_textOf hlines htail', hfirst, List.append_assoc, collect_messages]
  -- what is left of a message has no empty line
  rw [collect_of_ne_nil, List.append_nil]
  intro line hline
  rcases List.mem_append.mp hline with hline | hline
  · exact hmore line hline
  · split at hline
    · cases hline
    · rename_i hne
      rwa [List.mem_singleton.mp hline]

end

/-! ### Data of several lines -/

theorem mem_splitFrom {skip : Bool} {current text line : Text} (hcurrent : OneLine current)
    (h : line ∈ splitFrom skip current text) : OneLine line := by
  induction text generalizing skip current with
  | nil =>
    rw [splitFrom] at h
    split at h
    · cases h
    · rwa [List.mem_singleton.mp h]
  | cons c rest ih =>
    rw [splitFrom] at h
    split at h
    · exact ih hcurrent h
    · split at h
      · rcases List.mem_cons.mp h with rfl | h
        · exact hcurrent
        · exact ih (by decide) h
      · rename_i hc
        refine ih (oneLine_append hcurrent fun d hd => ?_) h
        rw [List.mem_singleton.mp hd]
        simpa using hc

theorem mem_joined {lines : List Text} {c : Char} (h : c ∈ List.intercalate ['\n'] lines) :
    c = '\n' ∨ ∃ line ∈ lines, c ∈ line := by
  induction lines with
  | nil => cases h
  | cons line lines ih =>
    by_cases hne : lines = []
    · subst hne
      rw [List.intercalate_singleton] at h
      exact .inr ⟨line, List.mem_cons_self, h⟩
    · rw [List.intercalate_cons_of_ne_nil hne, List.mem_append, List.mem_append] at h
      rcases h with (h | h) | h
      · exact .inr ⟨line, List.mem_cons_self, h⟩
      · exact .inl (List.mem_singleton.mp h)
      · refine (ih h).imp_right ?_
        rintro ⟨l, hl, hc⟩
        exact ⟨l, List.mem_cons_of_mem _ hl, hc⟩

/-- The characters of data that is handed on. -/
theorem mem_collect {dataLines lines : List Text} (hdata : ∀ line ∈ dataLines, OneLine line)
    (hlines : ∀ line ∈ lines, OneLine line) {data : Text} (h : data ∈ collect dataLines lines) {c : Char}
    (hc : c ∈ data) : c = '\n' ∨ isBoundary c = false := by
  induction lines generalizing dataLines with
  | nil => cases h
  | cons line lines ih =>
    have hrest : ∀ line ∈ lines, OneLine line := fun l hl => hlines l (List.mem_cons_of_mem _ hl)
    rw [collect] at h
    split at h
    · refine ih (fun l hl => ?_) hrest h
      rcases List.mem_append.mp hl with hl | hl
      · exact hdata l hl
      · rw [List.mem_singleton.mp hl]
        exact fun d hd => hlines line List.mem_cons_self d (List.mem_of_mem_drop hd)
    · split at h
      · rcases List.mem_cons.mp h with rfl | h
        · refine (mem_joined hc).imp_right ?_
          rintro ⟨l, hl, hcl⟩
          exact hdata l hl c hcl
        · exact ih (by simp) hrest h
      · exact ih hdata hrest h

/-- Data without a line feed is all read back exactly when none has another end of a line either. -/
theorem payloads_stream_iff {messages : List Message} (hname : OneLine name)
    (h : ∀ m ∈ messages, '\n' ∉ m.data) :
    payloads (stream name messages) = messages.map Message.data ↔ ∀ m ∈ messages, OneLine m.data := by
  constructor
  · intro hread m hm c hc
    have hmem : m.data ∈ payloads (stream name messages) := hread ▸ List.mem_map_of_mem hm
    refine (mem_collect (by simp) (fun line hline => ?_) hmem hc).resolve_left
      fun hnewline => h m hm (hnewline ▸ hc)
    exact mem_splitFrom (by decide) hline
  · exact payloads_stream hname

end EventStream
