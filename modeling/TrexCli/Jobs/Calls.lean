import TrexCli.Lib.Coroutine
import TrexCli.Store.Db

/-!
# What a job coroutine awaits

The coroutines of `TestJobs` are `Coroutine.Py` computations. They call the store, whose methods run
on a worker thread and answer with what the transaction returns; the traffic engine and the services
beside the store, whose answers are arbitrary here; and the event loop (the clock, the table of
active tasks, `create_task`).
-/

namespace TrexCli

/-- `RunHandle` -/
structure RunHandle where
  id : JobId
  deriving DecidableEq

/-- `EngineMeasurement` -/
structure EngineMeasurement where
  verdict : Verdict
  methodology : String
  summary : Json
  engine : Option String := none
  trexVersion : Option String := none

/-- `ReconcileResult` -/
structure ReconcileResult where
  confirmedIdle : Bool
  details : Json

/-- A method of `SqliteStore`. -/
inductive StoreCall where
  | getSnapshot (job : JobId)
  | getDocument (job : JobId)
  | updateSnapshot (snapshot : JobSnapshot) (expectedRevision : Nat) (eventType : String)
    (resolvedSpecJson : Option String)
  | listNonterminal
  | acquirePorts (job : JobId) (ports : List PortId)
  | releasePorts (job : JobId) (quarantine : Bool)
  | confirmPortsAvailable (ports : List PortId)
  | saveExecutionMarker (marker : ExecutionMarker)
  | getExecutionMarker (job : JobId)
  | listExecutionMarkers
  | deleteExecutionMarker (job : JobId)

namespace StoreCall

abbrev Res : StoreCall → Type
  | getSnapshot _ => JobSnapshot
  | getDocument _ => JobDocument
  | listNonterminal => List JobSnapshot
  | acquirePorts .. => Option Fence
  | getExecutionMarker _ => Option ExecutionMarker
  | listExecutionMarkers => List ExecutionMarker
  | _ => Unit

/-- The store method on the database. -/
def exec (db : Db) : (c : StoreCall) → Except Exc c.Res × Db
  | getSnapshot job => (db.getSnapshot job, db)
  | getDocument job => (db.getDocument job, db)
  | updateSnapshot snapshot expectedRevision eventType resolvedSpecJson =>
    db.updateSnapshot snapshot expectedRevision eventType resolvedSpecJson
  | listNonterminal => (.ok db.listNonterminal, db)
  | acquirePorts job ports =>
    let (r, leases) := db.leases.acquirePorts job ports
    (r.mapError .trexCli, { db with leases })
  | releasePorts job quarantine =>
    (.ok (), { db with leases := db.leases.releasePorts job quarantine })
  | confirmPortsAvailable ports =>
    (.ok (), { db with leases := db.leases.confirmPortsAvailable ports })
  | saveExecutionMarker marker => (.ok (), { db with markers := db.markers.upsert marker })
  | getExecutionMarker job => (.ok (db.markers.get job), db)
  | listExecutionMarkers => (.ok db.markers.rows, db)
  | deleteExecutionMarker job =>
    (.ok (), { db with markers := db.markers.delete fun m => m.jobId = job })

end StoreCall

/-- A method of `TrafficEngine`. -/
inductive EngineCall where
  | validate (document : JobDocument)
  | prepare (marker : ExecutionMarker) (document : JobDocument)
  | warmup (handle : RunHandle)
  | run (handle : RunHandle)
  | stop (handle : RunHandle) (force : Bool)
  | cleanup (handle : RunHandle)
  | reconcile (marker : ExecutionMarker) (document : JobDocument)

abbrev EngineCall.Res : EngineCall → Type
  | prepare .. => RunHandle
  | run _ => EngineMeasurement
  | reconcile .. => ReconcileResult
  | _ => Unit

/-- What a task runs for its job. -/
inductive TaskKind where
  /-- `_execute_with_deadline` -/
  | execute (fence : Fence)
  /-- `_finish_cancel`, without a handle -/
  | finishCancel
  /-- `report_progress`, which the engine calls and not the scheduler -/
  | reportProgress (update : List (String × Json)) (completed : Nat) (total : Option Nat)

/-- What a job coroutine awaits or asks of the event loop. -/
inductive Call where
  | store (c : StoreCall)
  | engine (c : EngineCall)
  /-- `_validate_policy` -/
  | validatePolicy (document : JobDocument)
  /-- `_validate_calibration` -/
  | validateCalibration (document : JobDocument)
  /-- `_record_calibrations` -/
  | recordCalibrations (job : JobId) (document : JobDocument) (result : JobResult)
  /-- `ArtifactStore.build_result_bundle` -/
  | buildResultBundle (snapshot : JobSnapshot) (document : JobDocument) (resolvedJson : String)
    (result : JobResult)
  /-- `_notify` -/
  | notify
  /-- The first step of a task, after `create_task`. -/
  | start
  /-- `utc_now()` -/
  | now
  /-- `job_id in self._active` -/
  | isActive (job : JobId)
  /-- `len(self._active)` -/
  | activeCount
  /-- The tasks that are done leave `self._active`. -/
  | dropDone
  /-- `_spawn` -/
  | spawn (job : JobId) (kind : TaskKind)

namespace Call

abbrev Res : Call → Type
  | store c => c.Res
  | engine c => c.Res
  | buildResultBundle .. => List ArtifactRef
  | now => Instant
  | isActive _ => Bool
  | activeCount => Nat
  | _ => Unit

/-- The call is an `await` that can suspend the task, so that `task.cancel()` reaches it there. -/
def suspends : Call → Bool
  | now | isActive _ | activeCount | dropDone | spawn .. | validatePolicy _ => false
  | _ => true

/-- The transaction that the call has handed to the worker thread, which runs it even when the
awaiting task is cancelled. -/
def transaction? : Call → Option StoreCall
  | store c => some c
  | _ => none

end Call

/-- Where in the text an await stands. -/
inductive Site where
  | body
  /-- The `finally` block of `_execute`. -/
  | unwinding
  /-- A job fails with `JOB_TIMEOUT` and its ports are released: the `except TimeoutError` of
  `_execute_with_deadline`, and the first loop of `_tick`. -/
  | timedOut
  /-- The second loop of `_tick`. -/
  | scanning
  /-- `_finish_cancel` looks at the job again, after its drain step. -/
  | drained
  deriving DecidableEq

/-- A coroutine of `TestJobs` with local variables `σ`. -/
abbrev Async (σ α : Type) := Coroutine.Py Site Call Call.Res Exc σ α

/-- A coroutine whose local variables are out of scope. -/
abbrev Task (α : Type) := Coroutine.Prog Site Call Call.Res Exc α

namespace Async

variable {σ : Type}

def call (c : Call) : Async σ c.Res := Coroutine.Py.call c

def store (c : StoreCall) : Async σ c.Res := call (.store c)

def engine (c : EngineCall) : Async σ c.Res := call (.engine c)

end Async

/-- What `AgentConfig` and the engine's constants fix for the coroutines. -/
structure AgentConfig where
  maxConcurrentJobs : Nat
  policyVersion : String
  agentVersion : String
  engineMode : String
  simulated : Bool
  /-- `json.dumps` of the resolved document, the policy version and the engine. -/
  resolvedJson : JobDocument → String
  /-- `sha256_text` -/
  sha256Text : String → String

end TrexCli
