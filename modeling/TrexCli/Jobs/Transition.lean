import TrexCli.Jobs.Calls

/-!
# State transitions of a job

`TestJobs._transition` reads the snapshot of a job, applies the fields its caller passes and writes
the result under a compare and swap, trying again when another writer was faster. `CallSite` lists
the callers with the fields each one passes.
-/

namespace TrexCli

/-- The keyword arguments of `_transition`. -/
structure TransitionRequest where
  state : JobState
  eventType : String
  expectedStates : Option (List JobState) := none
  phase : Option Phase := none
  progress : Option Progress := none
  result : Option JobResult := none
  problem : Option Problem := none
  resolvedSpecDigest : Option String := none
  resolvedSpecJson : Option String := none
  startedAt : Option Instant := none
  finishedAt : Option Instant := none

namespace TransitionRequest

/-- `current.state` is among the expected states. -/
def expects (req : TransitionRequest) (state : JobState) : Bool :=
  match req.expectedStates with
  | none => true
  | some states => state ∈ states

/-- The snapshot `_transition` writes over `current`. -/
def apply (req : TransitionRequest) (current : JobSnapshot) : JobSnapshot :=
  { current with
    revision := current.revision + 1
    state := req.state
    phase := req.phase.or current.phase
    progress := req.progress.or current.progress
    result := req.result.or current.result
    problem := req.problem.or current.problem
    resolvedSpecDigest := req.resolvedSpecDigest.or current.resolvedSpecDigest
    startedAt := current.startedAt.or req.startedAt
    finishedAt := req.finishedAt.or current.finishedAt }

/-- The store call that writes it. -/
abbrev write (req : TransitionRequest) (current : JobSnapshot) : StoreCall :=
  .updateSnapshot (req.apply current) current.revision req.eventType req.resolvedSpecJson

/-- The checks that let `_transition` write over `current`. -/
def Admits (req : TransitionRequest) (current : JobSnapshot) : Prop :=
  current.state.terminal = false ∧ req.expects current.state = true ∧
    ¬ (req.state = .succeeded ∧ current.cancelRequested = true)

end TransitionRequest

/-- The four stages that `_execute` reports through `_phase`. -/
inductive Stage where
  | warmingUp | running | draining | collecting
  deriving DecidableEq

namespace Stage

def state : Stage → JobState
  | warmingUp => .warmingUp
  | running => .running
  | draining => .draining
  | collecting => .collecting

def name : Stage → String
  | warmingUp => "warming-up"
  | running => "run"
  | draining => "draining"
  | collecting => "collecting"

def event : Stage → String
  | warmingUp => "WARMUP_STARTED"
  | running => "RUN_STARTED"
  | draining => "DRAIN_STARTED"
  | collecting => "COLLECTION_STARTED"

def started : Stage → Bool
  | warmingUp => true
  | _ => false

end Stage

/-- The callers of `_transition`, with what they compute their arguments from. -/
inductive CallSite where
  | validationStarted
  | validationSucceeded (resolvedSpecDigest resolvedSpecJson : String)
  | portsAcquired (fence : Fence)
  /-- `_phase`, which expects the state it has just read. -/
  | phase (stage : Stage) (read : JobState) (now : Instant)
  | runProgress (update : List (String × Json)) (completed : Nat) (total : Option Nat)
  | cancelDrain (read : JobState)
  | cancelCollection (read : JobState)
  | cancelled (now : Instant)
  | succeeded (result : JobResult) (now : Instant)
  /-- `_fail` -/
  | fail (problem : Problem) (expectedStates : Option (List JobState)) (now : Instant)

namespace CallSite

def request : CallSite → TransitionRequest
  | validationStarted =>
    { state := .validating, eventType := "VALIDATION_STARTED", expectedStates := some [.accepted]
      phase := some { name := "validating" } }
  | validationSucceeded resolvedSpecDigest resolvedSpecJson =>
    { state := .waitingForPorts, eventType := "VALIDATION_SUCCEEDED"
      expectedStates := some [.validating], phase := some { name := "waiting-for-ports" }
      resolvedSpecDigest := some resolvedSpecDigest, resolvedSpecJson := some resolvedSpecJson }
  | portsAcquired fence =>
    { state := .preparing, eventType := "PORTS_ACQUIRED"
      expectedStates := some [.waitingForPorts]
      phase := some
        { name := "preparing"
          detail := [("fence", .obj (fence.map fun g => (toString g.1, .num g.2)))] } }
  | phase stage read now =>
    { state := stage.state, eventType := stage.event, expectedStates := some [read]
      phase := some { name := stage.name }
      startedAt := if stage.started then some now else none }
  | runProgress update completed total =>
    { state := .running, eventType := "RUN_PROGRESS", expectedStates := some [.running]
      phase := some { name := "run", detail := update }
      progress := some { completed, total } }
  | cancelDrain read =>
    { state := .draining, eventType := "CANCEL_DRAIN_STARTED", expectedStates := some [read]
      phase := some { name := "cancelling-drain" } }
  | cancelCollection read =>
    { state := .collecting, eventType := "CANCEL_COLLECTION_STARTED", expectedStates := some [read]
      phase := some { name := "cancelling-collect" } }
  | cancelled now =>
    { state := .cancelled, eventType := "JOB_CANCELLED", expectedStates := some [.collecting]
      phase := some { name := "cancelled" }, finishedAt := some now }
  | succeeded result now =>
    { state := .succeeded, eventType := "JOB_SUCCEEDED", expectedStates := some [.collecting]
      phase := some { name := "completed" }, progress := some { completed := 1, total := some 1 }
      result := some result, finishedAt := some now }
  | fail problem expectedStates now =>
    { state := .failed, eventType := "JOB_FAILED", expectedStates
      phase := some { name := "failed" }, problem := some problem, finishedAt := some now }

end CallSite

open Coroutine.Py (raise tryExcept)
open Async (call store)

variable {σ : Type}

/-- The attempts of `_transition` that are left. -/
def attemptTransition (job : JobId) (req : TransitionRequest) : Nat → Async σ (Option JobSnapshot)
  | 0 => pure none
  | attempts + 1 => do
    let current ← store (.getSnapshot job)
    if current.state.terminal then
      pure (some current)
    else if !req.expects current.state then
      pure none
    else if req.state = .succeeded ∧ current.cancelRequested then
      pure none
    else
      tryExcept
        (do
          store (req.write current)
          call .notify
          pure (some (req.apply current)))
        fun
          | .revisionConflict => attemptTransition job req attempts
          | e => raise e

/-- `_transition` -/
def transition (job : JobId) (site : CallSite) : Async σ (Option JobSnapshot) :=
  attemptTransition job site.request 3

/-- `_fail` -/
def fail (job : JobId) (problem : Problem) (expectedStates : Option (List JobState) := none) :
    Async σ (Option JobSnapshot) := do
  let now ← call .now
  transition job (.fail problem expectedStates now)

def leaseLost : TrexCliError where
  code := "LEASE_LOST"
  category := "RESOURCE"
  message := "the Job state changed while the engine was executing"

/-- `_phase` -/
def phase (job : JobId) (stage : Stage) : Async σ Unit := do
  let current ← store (.getSnapshot job)
  let now ← call .now
  let updated ← transition job (.phase stage current.state now)
  if updated.isNone then
    raise (.trexCli leaseLost)

end TrexCli
