import TrexCli.Lib.Checks
import TrexCli.Rfc2544.Summaries

/-!
# The lines of `trials.ndjson`

`_trial_lines` of `artifacts.py`, which walks the summary of a measurement for the trials in it. A line
is kept as the fields of the object it is the text of. What has not the shape that is expected at its
place is skipped. The lines are the trial records of the summary, with the test and the frame size,
except those of a frame loss run that measured each direction on its own (`evidence_complete_iff`).
-/

namespace TrexCli.Artifacts

open Rfc2544

/-- `int(frame_size)`, for texts of digits. -/
def frameSizeOf (key : Text) : Except Exc Nat :=
  match keySize (String.ofList key) with
  | some size => .ok size
  | none => .error (.exception "invalid literal for int() with base 10")

/-- The entries of a field that is a dictionary. -/
def entries (summary : Fields) (key : String) : Fields :=
  match JsonValue.lookup summary key.toList with
  | some (.obj fields) => fields
  | _ => []

/-- The dictionaries of a list. -/
def dictsOf : JsonValue ℚ → List Fields
  | .arr items => items.filterMap fun
    | .obj fields => some fields
    | _ => none
  | _ => []

/-- A field of a dictionary. -/
def fieldOf (value : JsonValue ℚ) (key : String) : JsonValue ℚ :=
  match value with
  | .obj fields => (JsonValue.lookup fields key.toList).getD .null
  | _ => .null

/-- The lines of a list of trials: `json.dumps` with `sort_keys` of `{"test": …, "frameSize": …,
**trial}`, where the last of two equal keys counts. -/
def linesOf (test : String) (frameSize : Text) (scenario : Fields) (trials : JsonValue ℚ) :
    Except Exc (List Fields) :=
  (dictsOf trials).mapM fun trial => do
    let size ← frameSizeOf frameSize
    pure (JsonValue.ofFields
      (fieldsOf [("test", text test), ("frameSize", .int size)] ++ scenario ++ trial))

/-- `_latency_trial_lines` -/
def latencyTrialLines (summary : Fields) : Except Exc (List Fields) := do
  let lines ← (entries summary "frames").mapM fun (frameSize, frame) => do
    let lines ← (scenarios frame).mapM fun (scenario, result) =>
      linesOf "latency" frameSize (fieldsOf [("scenario", .str scenario)]) (fieldOf result "trials")
    pure lines.flatten
  pure lines.flatten
where
  scenarios : JsonValue ℚ → Fields
    | .obj scenarios => scenarios
    | _ => []

/-- `_back_to_back_trial_lines` -/
def backToBackTrialLines (summary : Fields) : Except Exc (List Fields) := do
  let lines ← (entries summary "frames").mapM fun (frameSize, frame) =>
    linesOf "back-to-back" frameSize [] (fieldOf frame "searches")
  pure lines.flatten

/-- The entries of a field are smaller than the dictionary. -/
theorem sizeOf_entries (summary : Fields) (key : String) :
    sizeOf (entries summary key) ≤ sizeOf summary := by
  unfold entries
  split
  · next fields h =>
    obtain ⟨field, hfield, hvalue⟩ := Option.map_eq_some_iff.mp h
    have hmem := List.sizeOf_lt_of_mem (List.mem_of_find?_eq_some hfield)
    obtain ⟨name, value⟩ := field
    obtain rfl : value = .obj fields := hvalue
    simp only [Prod.mk.sizeOf_spec, JsonValue.obj.sizeOf_spec] at hmem
    omega
  · cases summary with
    | nil => exact le_rfl
    | cons field fields =>
      simp only [List.nil.sizeOf_spec, List.cons.sizeOf_spec]
      omega

mutual

/-- `_trial_lines` -/
def trialLines (summary : Fields) : Except Exc (List Fields) := do
  let trials ← (entries summary "trials").mapM fun (frameSize, trials) =>
    linesOf "throughput" frameSize [] trials
  let points ← (entries summary "frames").mapM fun (frameSize, frame) =>
    linesOf "frame-loss" frameSize [] (fieldOf frame "points")
  let tests ← testLines (entries summary "tests")
  pure (trials.flatten ++ points.flatten ++ tests)
termination_by (sizeOf summary, 1)
decreasing_by
  have := sizeOf_entries summary "tests"
  simp only [Prod.lex_def]
  omega

/-- The lines of the tests of a suite. -/
def testLines : Fields → Except Exc (List Fields)
  | [] => pure []
  | (name, .obj test) :: tests => do
    let lines ← namedLines name test
    let rest ← testLines tests
    pure (lines ++ rest)
  | (_, _) :: tests => testLines tests
termination_by tests => (sizeOf tests, 0)

/-- The lines of a test. -/
def namedLines (name : Text) (test : Fields) : Except Exc (List Fields) :=
  if name = "latency".toList then latencyTrialLines test
  else if name = "back-to-back".toList then backToBackTrialLines test
  else trialLines test
termination_by (sizeOf test, 2)

end

end TrexCli.Artifacts
