import Mathlib.Tactic.Common

/-!
# Jobs, snapshots and errors

The part of `models.py` and `errors.py` that the agent's store and scheduler read and write. Job and
port ids are opaque names of which only equality and order matter, so they are numbers here; an
instant is a number of milliseconds.
-/

namespace TrexCli

abbrev JobId := Nat
abbrev PortId := Nat
abbrev Instant := Nat

/-- `JobState` -/
inductive JobState where
  | accepted | validating | waitingForPorts | preparing | warmingUp | running | draining
  | collecting | succeeded | failed | cancelled
  deriving DecidableEq, Repr

/-- `JobState.terminal` -/
def JobState.terminal : JobState → Bool
  | succeeded | failed | cancelled => true
  | _ => false

/-- The states `_recover` resumes from: no port of the job has been used yet. -/
def JobState.recoverable : JobState → Bool
  | accepted | validating | waitingForPorts => true
  | _ => false

/-- The value of the `StrEnum`. -/
def JobState.value : JobState → String
  | accepted => "ACCEPTED"
  | validating => "VALIDATING"
  | waitingForPorts => "WAITING_FOR_PORTS"
  | preparing => "PREPARING"
  | warmingUp => "WARMING_UP"
  | running => "RUNNING"
  | draining => "DRAINING"
  | collecting => "COLLECTING"
  | succeeded => "SUCCEEDED"
  | failed => "FAILED"
  | cancelled => "CANCELLED"

inductive JobKind where
  | statelessTraffic | pcapReplay | statefulReplay | udpWorkload | packetStorm
  | rfc2544Throughput | rfc2544Suite
  deriving DecidableEq, Repr

inductive Verdict where
  | pass | fail | invalid | noAssertion
  deriving DecidableEq, Repr

/-- A JSON value, for the `dict[str, Any]` fields nothing here looks into. -/
inductive Json where
  | null
  | bool (b : Bool)
  | num (n : Int)
  | str (s : String)
  | arr (xs : List Json)
  | obj (fields : List (String × Json))

/-- `TrexCliError` -/
structure TrexCliError where
  code : String
  message : String
  category : String := "INTERNAL"
  retryable : Bool := false

/-- What can be raised at an await. `cancelled` and `expired` are the two reasons of an
`asyncio.CancelledError`: `task.cancel()`, and the timeout scope of `asyncio.wait_for`. -/
inductive Exc where
  | cancelled
  | expired
  | revisionConflict
  | idempotencyConflict
  | trexCli (e : TrexCliError)
  | exception (message : String)

namespace Exc

/-- `except Exception` catches it; a `CancelledError` is a `BaseException`. -/
def isException : Exc → Bool
  | cancelled | expired => false
  | _ => true

/-- `except TrexCliError` catches it, with the error's fields. -/
def trexCliError? : Exc → Option TrexCliError
  | revisionConflict =>
    some ⟨"REVISION_CONFLICT", "the Job revision changed concurrently", "INTERNAL", true⟩
  | idempotencyConflict =>
    some ⟨"IDEMPOTENCY_CONFLICT", "the idempotency key is already bound to a different document",
      "INPUT", false⟩
  | trexCli e => some e
  | _ => none

/-- `str(error)`, for an error that is no `TrexCliError`. -/
def str : Exc → String
  | exception message => message
  | _ => ""

/-- `NotFound` -/
def notFound (resource : String) : Exc :=
  trexCli { code := "NOT_FOUND", category := "INPUT", message := resource ++ " was not found" }

end Exc

/-- `Problem` -/
structure Problem where
  code : String
  category : String
  retryable : Bool := false
  message : String
  details : List (String × Json) := []

/-- `_problem`: an unknown category becomes `INTERNAL`. -/
def problem (error : TrexCliError) : Problem where
  code := error.code
  category :=
    if error.category ∈ ["INPUT", "POLICY", "RESOURCE", "ENGINE", "OBSERVATION", "INTERNAL"] then
      error.category
    else "INTERNAL"
  retryable := error.retryable
  message := error.message

/-- `Phase` -/
structure Phase where
  name : String
  detail : List (String × Json) := []

/-- `Progress` -/
structure Progress where
  completed : Nat
  total : Option Nat

/-- `ArtifactRef` -/
structure ArtifactRef where
  digest : String
  mediaType : String
  size : Nat
  name : String

/-- `Provenance` -/
structure Provenance where
  submittedSpecDigest : String
  resolvedSpecDigest : String
  policyVersion : String
  agentVersion : String
  simulated : Bool
  engine : String
  trexVersion : Option String

/-- `JobResult` -/
structure JobResult where
  verdict : Verdict
  methodology : String
  summary : Json
  artifacts : List ArtifactRef := []
  provenance : Provenance

/-- `JobSnapshot` -/
structure JobSnapshot where
  jobId : JobId
  revision : Nat
  state : JobState
  kind : JobKind
  submittedSpecDigest : String
  resolvedSpecDigest : Option String := none
  retryOf : Option JobId := none
  submittedAt : Instant
  startedAt : Option Instant := none
  finishedAt : Option Instant := none
  phase : Option Phase := none
  progress : Option Progress := none
  cancelRequested : Bool := false
  result : Option JobResult := none
  problem : Option Problem := none

/-- What the scheduler reads of a job document: its kind, the logical ports it names
(`spec.logical_ports()`, or `[tx, rx]`), its limits, and its canonical JSON text. -/
structure JobDocument where
  kind : JobKind
  logicalPorts : List PortId
  portWaitTimeout : Nat := 300000
  jobTimeout : Nat := 600000
  canonical : String

/-- A port id with the generation it was granted at. -/
abbrev Fence := List (PortId × Nat)

/-- `ExecutionMarker`. `execution_markers` has at most one row for each job, so the job id also
stands for the random `marker_id`. -/
structure ExecutionMarker where
  jobId : JobId
  logicalPorts : List PortId
  fence : Fence
  deriving DecidableEq

end TrexCli
