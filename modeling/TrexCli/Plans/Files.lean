import TrexCli.Lib.JsonRoundTrip

/-!
# The file of a plan

`_persist` creates the directory, asks whether the file is there, and then either compares what it
holds with the plan or writes the plan. These are separate operations: processes that plan the same
intent interleave between them, a write is a truncation and then any number of chunks, and a process
may stop anywhere.
-/

namespace TrexCli

open JsonValue

/-- `TestPlanError` and `ProfileError`. -/
inductive PlanError where
  | invalidId
  | notFound (planId : Text)
  | notJson (planId : Text)
  | unsupportedFormat (planId : Text)
  | malformed (planId : Text)
  | idMismatch (planId : Text)
  | collision (planId : Text)
  deriving DecidableEq

namespace PlanError

def message : PlanError → Text
  | invalidId => "invalid plan id".toList
  | notFound planId => "plan not found: ".toList ++ planId
  | notJson planId => "stored plan is not valid JSON: ".toList ++ planId
  | unsupportedFormat planId => "stored plan has an unsupported format: ".toList ++ planId
  | malformed planId => "stored plan is malformed: ".toList ++ planId
  | idMismatch planId => "stored plan id does not match its filename: ".toList ++ planId
  | collision planId => "plan id collision: ".toList ++ planId

end PlanError

def testPlanApiVersion : Text := "trex.example.io/test-plan/v1".toList

def legacyTestPlanApiVersion : Text := "trex.example.io/plan/v2alpha1".toList

/-- The modules that keep plans. -/
inductive PlanModule where
  | testPlans
  | profiles
  deriving DecidableEq

/-- `existing_document["apiVersion"] = TEST_PLAN_API_VERSION` for a plan of the legacy format. -/
def upgrade {F : Type} : JsonValue F → JsonValue F
  | .obj fields =>
    match lookup fields "apiVersion".toList with
    | some (.str version) =>
      if version = legacyTestPlanApiVersion then
        .obj (setField "apiVersion".toList (.str testPlanApiVersion) fields)
      else .obj fields
    | _ => .obj fields
  | document => document

/-- A plan with what `payload()` gives for it and what `get` makes of that again. -/
structure StoredPlan (F α : Type) where
  planModule : PlanModule
  planId : Text
  payload : JsonValue F
  normal : payload.Normal
  decode : JsonValue F → Except PlanError α
  decoded : α
  decode_payload : decode payload = .ok decoded

namespace StoredPlan

variable {F α : Type} [FloatRepr F] (plan : StoredPlan F α)

/-- The text that `_persist` writes. -/
def text : Text := dumps plan.payload

/-- What `_persist` does about the text of a file that is there. -/
def compare (existing : Text) : Except PlanError Unit :=
  if existing = plan.text then .ok ()
  else match plan.planModule with
    | .profiles => .error (.collision plan.planId)
    | .testPlans =>
      match loads (F := F) existing, loads (F := F) plan.text with
      | some document, some expected =>
        if (upgrade document).exact = expected.exact then .ok ()
        else .error (.collision plan.planId)
      | _, _ => .error (.notJson plan.planId)

/-- `get(plan_id)` -/
def get : Option Text → Except PlanError α
  | none => .error (.notFound plan.planId)
  | some existing =>
    match loads existing with
    | none => .error (.notJson plan.planId)
    | some raw => plan.decode raw

theorem get_text : plan.get (some plan.text) = .ok plan.decoded := by
  simp only [get, text, loads_dumps plan.normal]
  exact plan.decode_payload

theorem compare_text : plan.compare plan.text = .ok () := by
  simp [compare]

end StoredPlan

/-- What a process that plans does next. -/
inductive PlanPhase where
  | idle
  /-- `_plan_root.mkdir` has returned. -/
  | started
  /-- The file exists and is read next. -/
  | found
  /-- The file does not exist and is opened next. -/
  | absent
  /-- The file is open and the rest is to be written. -/
  | writing (rest : Text)
  deriving DecidableEq

/-- The file of one plan, the processes that plan it, and what was answered. -/
structure PlanFile (α : Type) where
  file : Option Text
  phase : Nat → PlanPhase
  gets : List (Except PlanError α)
  plannings : List (Except PlanError Unit)

inductive PlanAction where
  /-- Process `p` calls a `plan_*` method and creates the directory. -/
  | start (p : Nat)
  /-- `path.exists()` -/
  | probe (p : Nat)
  /-- `path.read_text()` and the comparison with the payload. -/
  | compare (p : Nat)
  /-- `write_text` opens the file, which creates or truncates it. -/
  | truncate (p : Nat)
  /-- `write_text` appends up to `size` characters of the rest. -/
  | append (p size : Nat)
  /-- `write_text` returns. -/
  | close (p : Nat)
  /-- The process stops; it may plan again later. -/
  | crash (p : Nat)
  /-- Some process calls `get`. -/
  | get

namespace PlanFile

variable {F α : Type} [FloatRepr F] (plan : StoredPlan F α)

def empty : PlanFile α := ⟨none, fun _ => .idle, [], []⟩

def setPhase (s : PlanFile α) (p : Nat) (phase : PlanPhase) : PlanFile α :=
  { s with phase := fun q => if q = p then phase else s.phase q }

/-- Process `p` has planned. -/
def finish (s : PlanFile α) (p : Nat) (r : Except PlanError Unit) : PlanFile α :=
  { s.setPhase p .idle with plannings := s.plannings ++ [r] }

/-- One file operation. An action that is not the next one of its process does nothing. -/
def step (s : PlanFile α) : PlanAction → PlanFile α
  | .start p => if s.phase p = .idle then s.setPhase p .started else s
  | .probe p =>
    if s.phase p = .started then s.setPhase p (if s.file.isSome then .found else .absent) else s
  | .compare p =>
    if s.phase p = .found then
      match s.file with
      | none => s
      | some existing => s.finish p (plan.compare existing)
    else s
  | .truncate p =>
    if s.phase p = .absent then { s.setPhase p (.writing plan.text) with file := some [] } else s
  | .append p size =>
    match s.phase p with
    | .writing rest =>
      { s.setPhase p (.writing (rest.drop size)) with
        file := some (s.file.getD [] ++ rest.take size) }
    | _ => s
  | .close p => if s.phase p = .writing [] then s.finish p (.ok ()) else s
  | .crash p => s.setPhase p .idle
  | .get => { s with gets := s.gets ++ [plan.get s.file] }

def run (s : PlanFile α) (actions : List PlanAction) : PlanFile α := actions.foldl (step plan) s

/-- No process has opened the file and still has a chunk to write. -/
def Complete (s : PlanFile α) : Prop := ∀ p rest, s.phase p = .writing rest → rest = []

/-- The action is not one that meets a write in progress: the file is neither read nor truncated
between the truncation and the last chunk of a write, and no process stops there. -/
def Undisturbed (s : PlanFile α) : PlanAction → Prop
  | .compare p => s.phase p = .found → s.Complete
  | .truncate p => s.phase p = .absent → s.Complete
  | .crash p => ∀ rest, s.phase p = .writing rest → rest = []
  | .get => s.Complete
  | _ => True

/-- Every action of the run is undisturbed in the state it meets. -/
def UndisturbedRun (s : PlanFile α) : List PlanAction → Prop
  | [] => True
  | a :: actions => s.Undisturbed a ∧ UndisturbedRun (s.step plan a) actions

/-- What the file and the answers are while no write is disturbed. -/
structure Inv (s : PlanFile α) : Prop where
  file_of_complete : s.Complete → s.file = none ∨ s.file = some plan.text
  file_of_writing : ∀ p rest, s.phase p = .writing rest → rest ≠ [] →
    ∃ written, s.file = some written ∧ written ++ rest = plan.text
  alone : ∀ p q rest rest', s.phase p = .writing rest → s.phase q = .writing rest' →
    rest ≠ [] → rest' ≠ [] → p = q
  found : ∀ p, s.phase p = .found → s.file ≠ none
  written : ∀ p rest, s.phase p = .writing rest → s.file ≠ none
  gets : ∀ r ∈ s.gets, r = .error (.notFound plan.planId) ∨ r = .ok plan.decoded
  plannings : ∀ r ∈ s.plannings, r = .ok ()

variable {plan} {s : PlanFile α}

@[simp] theorem setPhase_self (s : PlanFile α) (p : Nat) (phase : PlanPhase) :
    (s.setPhase p phase).phase p = phase := by
  simp [setPhase]

theorem setPhase_of_ne {p q : Nat} (h : q ≠ p) (phase : PlanPhase) :
    (s.setPhase p phase).phase q = s.phase q := by
  simp [setPhase, h]

@[simp] theorem setPhase_file (p : Nat) (phase : PlanPhase) :
    (s.setPhase p phase).file = s.file := rfl

theorem phase_of_setPhase_writing {p q : Nat} {phase : PlanPhase} {rest : Text}
    (h : (s.setPhase p phase).phase q = .writing rest) :
    (q = p ∧ phase = .writing rest) ∨ (q ≠ p ∧ s.phase q = .writing rest) := by
  by_cases hq : q = p
  · subst hq
    exact Or.inl ⟨rfl, by simpa using h⟩
  · exact Or.inr ⟨hq, by rwa [setPhase_of_ne hq] at h⟩

/-- A process that has no chunk to write goes on to a phase without one. -/
theorem Inv.setPhase (h : Inv plan s) {p : Nat} (phase : PlanPhase)
    (hbefore : ∀ rest, s.phase p = .writing rest → rest = [])
    (hafter : ∀ rest, phase ≠ .writing rest) (hfound : phase = .found → s.file ≠ none) :
    Inv plan (s.setPhase p phase) := by
  have hold : ∀ q rest, (s.setPhase p phase).phase q = .writing rest →
      s.phase q = .writing rest := by
    intro q rest hq
    rcases phase_of_setPhase_writing hq with ⟨_, heq⟩ | ⟨_, hq⟩
    · exact absurd heq (hafter rest)
    · exact hq
  refine ⟨?_, ?_, ?_, ?_, ?_, h.gets, h.plannings⟩
  · intro hcomplete
    refine h.file_of_complete fun q rest hq => ?_
    by_cases hqp : q = p
    · exact hbefore rest (hqp ▸ hq)
    · exact hcomplete q rest (by rwa [setPhase_of_ne hqp])
  · intro q rest hq hrest
    exact h.file_of_writing q rest (hold q rest hq) hrest
  · intro q q' rest rest' hq hq'
    exact h.alone q q' rest rest' (hold q rest hq) (hold q' rest' hq')
  · intro q hq
    by_cases hqp : q = p
    · subst hqp
      exact hfound (by simpa using hq)
    · exact h.found q (by rwa [setPhase_of_ne hqp] at hq)
  · intro q rest hq
    exact h.written q rest (hold q rest hq)

theorem Inv.finish (h : Inv plan s) {p : Nat}
    (hbefore : ∀ rest, s.phase p = .writing rest → rest = []) :
    Inv plan (s.finish p (.ok ())) := by
  have hphase := h.setPhase .idle hbefore (by simp) (by simp)
  refine { hphase with plannings := ?_ }
  intro r hr
  rcases List.mem_append.mp hr with hr | hr
  · exact h.plannings r hr
  · simpa using hr

theorem text_ne_nil : plan.text ≠ [] := by
  have hpos := length_dumps_pos plan.payload
  intro hnil
  simp [StoredPlan.text] at hnil
  simp [hnil] at hpos

/-- The file that is there while no write is in progress holds the plan. -/
theorem Inv.file_eq (h : Inv plan s) (hcomplete : s.Complete) (hfile : s.file ≠ none) :
    s.file = some plan.text := by
  rcases h.file_of_complete hcomplete with hnone | htext
  · exact absurd hnone hfile
  · exact htext

theorem Inv.truncate (h : Inv plan s) {p : Nat} (hcomplete : s.Complete) :
    Inv plan { s.setPhase p (.writing plan.text) with file := some [] } := by
  have hother : ∀ q rest, (s.setPhase p (.writing plan.text)).phase q = .writing rest → rest ≠ [] →
      q = p ∧ plan.text = rest := by
    intro q rest hq hrest
    rcases phase_of_setPhase_writing hq with ⟨hqp, heq⟩ | ⟨_, hq⟩
    · exact ⟨hqp, by simpa using heq⟩
    · exact absurd (hcomplete q rest hq) hrest
  refine ⟨?_, ?_, ?_, ?_, ?_, h.gets, h.plannings⟩
  · intro hdone
    exact absurd (hdone p plan.text (by simp)) text_ne_nil
  · intro q rest hq hrest
    exact ⟨[], rfl, (hother q rest hq hrest).2.symm⟩
  · intro q q' rest rest' hq hq' hrest hrest'
    rw [(hother q rest hq hrest).1, (hother q' rest' hq' hrest').1]
  · simp
  · simp

theorem Inv.append (h : Inv plan s) {p : Nat} {rest : Text} (hp : s.phase p = .writing rest)
    (size : Nat) :
    Inv plan { s.setPhase p (.writing (rest.drop size)) with
      file := some (s.file.getD [] ++ rest.take size) } := by
  by_cases hrest : rest = []
  · -- nothing is left to write
    subst hrest
    have hsame : s.setPhase p (.writing []) = s := by
      have hphase : (s.setPhase p (.writing [])).phase = s.phase := by
        funext q
        by_cases hqp : q = p
        · subst hqp
          simp [hp]
        · exact setPhase_of_ne hqp _
      cases s
      simpa [PlanFile.setPhase] using hphase
    obtain ⟨existing, hfile⟩ := Option.ne_none_iff_exists'.mp (h.written p [] hp)
    have hstay : some (s.file.getD [] ++ ([] : Text).take size) = s.file := by
      rw [hfile]
      simp
    rw [hstay, List.drop_nil, hsame]
    exact h
  · obtain ⟨written, hfile, htext⟩ := h.file_of_writing p rest hp hrest
    have hnew : s.file.getD [] ++ rest.take size ++ rest.drop size = plan.text := by
      rw [hfile, Option.getD_some, List.append_assoc, List.take_append_drop, htext]
    have hother : ∀ q rest', (s.setPhase p (.writing (rest.drop size))).phase q = .writing rest' →
        rest' ≠ [] → q = p ∧ rest.drop size = rest' := by
      intro q rest' hq hrest'
      rcases phase_of_setPhase_writing hq with ⟨hqp, heq⟩ | ⟨hqp, hq⟩
      · exact ⟨hqp, by simpa using heq⟩
      · exact absurd (h.alone q p rest' rest hq hp hrest' hrest) hqp
    refine ⟨?_, ?_, ?_, ?_, ?_, h.gets, h.plannings⟩
    · intro hdone
      have hnil := hdone p (rest.drop size) (by simp)
      rw [hnil, List.append_nil] at hnew
      exact Or.inr (congrArg some hnew)
    · intro q rest' hq hrest'
      exact ⟨_, rfl, (hother q rest' hq hrest').2 ▸ hnew⟩
    · intro q q' rest₁ rest₂ hq hq' h₁ h₂
      rw [(hother q rest₁ hq h₁).1, (hother q' rest₂ hq' h₂).1]
    · simp
    · simp

theorem Inv.get (h : Inv plan s) (hcomplete : s.Complete) :
    Inv plan { s with gets := s.gets ++ [plan.get s.file] } := by
  refine { h with gets := ?_ }
  intro r hr
  rcases List.mem_append.mp hr with hr | hr
  · exact h.gets r hr
  · rw [List.mem_singleton] at hr
    rcases h.file_of_complete hcomplete with hfile | hfile
    · exact Or.inl (by rw [hr, hfile]; rfl)
    · exact Or.inr (by rw [hr, hfile]; exact plan.get_text)

theorem Inv.step (h : Inv plan s) {a : PlanAction} (ha : s.Undisturbed a) :
    Inv plan (s.step plan a) := by
  cases a with
  | start p =>
    by_cases hp : s.phase p = .idle
    · simpa [PlanFile.step, hp] using h.setPhase .started (by simp [hp]) (by simp)
        (by simp)
    · simpa [PlanFile.step, hp] using h
  | probe p =>
    by_cases hp : s.phase p = .started
    · cases hfile : s.file with
      | none =>
        simpa [PlanFile.step, hp, hfile] using
          h.setPhase .absent (by simp [hp]) (by simp) (by simp)
      | some existing =>
        simpa [PlanFile.step, hp, hfile] using
          h.setPhase .found (by simp [hp]) (by simp) (by simp [hfile])
    · simpa [PlanFile.step, hp] using h
  | compare p =>
    by_cases hp : s.phase p = .found
    · have hfile := h.file_eq (ha hp) (h.found p hp)
      have hfinish := h.finish (p := p) (by simp [hp])
      simpa [PlanFile.step, hp, hfile, plan.compare_text] using hfinish
    · simpa [PlanFile.step, hp] using h
  | truncate p =>
    by_cases hp : s.phase p = .absent
    · simpa [PlanFile.step, hp] using h.truncate (p := p) (ha hp)
    · simpa [PlanFile.step, hp] using h
  | append p size =>
    cases hp : s.phase p with
    | writing rest => simpa [PlanFile.step, hp] using h.append hp size
    | _ => simpa [PlanFile.step, hp] using h
  | close p =>
    by_cases hp : s.phase p = .writing []
    · simpa [PlanFile.step, hp] using h.finish (p := p) (by simp [hp])
    · simpa [PlanFile.step, hp] using h
  | crash p => exact h.setPhase .idle ha (by simp) (by simp)
  | get => exact h.get ha

theorem Inv.run (h : Inv plan s) (actions : List PlanAction)
    (hrun : s.UndisturbedRun plan actions) : Inv plan (s.run plan actions) := by
  induction actions generalizing s with
  | nil => exact h
  | cons a actions ih => exact ih (h.step hrun.1) hrun.2

theorem inv_empty : Inv plan empty := by
  refine ⟨fun _ => Or.inl rfl, ?_, ?_, ?_, ?_, ?_, ?_⟩ <;> simp [empty]

variable (plan) in
/-- What one process does that plans while no other one does anything. -/
def planAlone (p : Nat) : List PlanAction :=
  [.start p, .probe p, .compare p, .truncate p, .append p plan.text.length, .close p]

/-- Planning alone succeeds and leaves the complete plan. -/
theorem run_planAlone (h : Inv plan s) (hcomplete : s.Complete) {p : Nat}
    (hp : s.phase p = .idle) :
    (s.run plan (planAlone plan p)).file = some plan.text ∧
      (s.run plan (planAlone plan p)).plannings = s.plannings ++ [.ok ()] := by
  rcases h.file_of_complete hcomplete with hfile | hfile
  · simp [run, planAlone, step, hp, hfile, setPhase, finish]
  · simp [run, planAlone, step, hp, hfile, setPhase, finish, plan.compare_text]

/-- Every `get` said that there is no plan or gave the whole plan, every planning succeeded, and a
process that plans later, when no write is in progress, succeeds and leaves the whole plan. -/
def Reliable (plan : StoredPlan F α) (s : PlanFile α) : Prop :=
  (∀ r ∈ s.gets, r = .error (.notFound plan.planId) ∨ r = .ok plan.decoded) ∧
    (∀ r ∈ s.plannings, r = .ok ()) ∧
    (s.Complete → ∀ p, s.phase p = .idle →
      (s.run plan (planAlone plan p)).plannings = s.plannings ++ [.ok ()] ∧
        plan.get (s.run plan (planAlone plan p)).file = .ok plan.decoded)

/-- In every run without a disturbed write the plan is kept reliably. -/
theorem reliable_of_undisturbed (plan : StoredPlan F α) (actions : List PlanAction)
    (h : (empty : PlanFile α).UndisturbedRun plan actions) :
    Reliable plan ((empty : PlanFile α).run plan actions) := by
  have hinv : Inv plan ((empty : PlanFile α).run plan actions) := inv_empty.run actions h
  refine ⟨hinv.gets, hinv.plannings, ?_⟩
  intro hcomplete p hp
  obtain ⟨hfile, hplannings⟩ := run_planAlone hinv hcomplete hp
  refine ⟨hplannings, ?_⟩
  rw [hfile]
  exact plan.get_text

/-- A plan for the runs below. -/
def dnsStormPlan : StoredPlan Empty Unit where
  planModule := .testPlans
  planId := "plan_0123456789abcdef01234567".toList
  payload := .obj [("apiVersion".toList, .str testPlanApiVersion),
    ("intent".toList, .str "dns-storm".toList)]
  normal := by
    refine .obj _ ?_ ?_
    · simp [Ascending]
      decide
    · simp [Normal.str]
  decode := fun _ => .ok ()
  decoded := ()
  decode_payload := rfl

/-- Two processes plan the same intent, the second one finds the file, and a third one reads. -/
theorem reliable_of_two_plannings :
    Reliable dnsStormPlan ((empty : PlanFile Unit).run dnsStormPlan
      [.get, .start 0, .probe 0, .start 1, .truncate 0, .append 0 500, .close 0, .probe 1,
        .compare 1, .get]) := by
  have hlength : dnsStormPlan.text.length ≤ 500 := by decide
  refine reliable_of_undisturbed dnsStormPlan _ ?_
  simp [UndisturbedRun, Undisturbed, step, Complete, empty, setPhase, finish, hlength]
  refine ⟨?_, ?_, ?_⟩ <;> intro p rest hp <;> split_ifs at hp

/-- The first process stops after the truncation. `get` then says that the plan is no JSON, and so
does every later planning. -/
theorem not_reliable_after_crash :
    ¬∀ actions, Reliable dnsStormPlan ((empty : PlanFile Unit).run dnsStormPlan actions) := by
  intro h
  obtain ⟨hgets, -⟩ := h [.start 0, .probe 0, .truncate 0, .crash 0, .start 1, .probe 1, .get,
    .compare 1]
  have hloads : loads (F := Empty) [] = none := by rfl
  have hget := hgets (.error (.notJson dnsStormPlan.planId))
  simp [run, step, empty, setPhase, finish, StoredPlan.get, hloads] at hget

end PlanFile

end TrexCli
