import TrexCli.Jobs.Execute

/-!
# The scheduler

`_recover`, which runs before the agent serves, and `_tick`, which the scheduler loop runs over and
over: it validates new jobs, makes tasks of cancelled ones, and grants ports to waiting ones in
`(accepted_at, job_id)` order.
-/

namespace TrexCli

open Coroutine.Py (raise tryExcept region when forEach)
open Async (call store engine)

/-- `_validate_job` from the document on. -/
def validateDocument (config : AgentConfig) (job : JobId) : Async Unit Unit :=
  tryExcept
    (do
      let document ← store (.getDocument job)
      call (.validatePolicy document)
      engine (.validate document)
      call (.validateCalibration document)
      let resolvedJson := config.resolvedJson document
      let _ ← transition job (.validationSucceeded (config.sha256Text resolvedJson) resolvedJson)
      pure ())
    fun e =>
      if !e.isException then
        raise e
      else do
        let problem := match e.trexCliError? with
          | some error => problem error
          | none =>
            { code := "UNSAFE_REQUEST", category := "POLICY", message := e.str, retryable := false }
        let _ ← fail job problem (some [.validating])
        pure ()

/-- `_validate_job` -/
def validateJob (config : AgentConfig) (job : JobId) : Async Unit Unit := do
  let snapshot ← store (.getSnapshot job)
  if snapshot.state = .accepted then
    let transitioned ← transition job .validationStarted
    if transitioned.isNone then
      pure ()
    else
      validateDocument config job
  else
    validateDocument config job

/-- One round of the first loop of `_tick`. -/
def firstPass (config : AgentConfig) (snapshot : JobSnapshot) : Async Unit Unit := do
  if ← call (.isActive snapshot.jobId) then
    pure ()
  else if snapshot.cancelRequested then
    call (.spawn snapshot.jobId .finishCancel)
  else
    let document ← store (.getDocument snapshot.jobId)
    let now ← call .now
    if now - snapshot.submittedAt > document.jobTimeout then
      region .timedOut do
        let _ ← fail snapshot.jobId jobTimeoutProblem
        store (.releasePorts snapshot.jobId false)
    else
      when (snapshot.state = .accepted ∨ snapshot.state = .validating)
        (validateJob config snapshot.jobId)

def portWaitTimeoutProblem : Problem where
  code := "PORT_WAIT_TIMEOUT"
  category := "RESOURCE"
  retryable := true
  message := "the Job did not acquire all logical ports before its deadline"

/-- `_tick` after the ports have been granted. The rest of the job's timeout, which the task gets as
its deadline, is left out: here a deadline can expire at any time. -/
def startGranted (snapshot : JobSnapshot) (fence : Fence) : Async Unit Unit := do
  let prepared ← transition snapshot.jobId (.portsAcquired fence)
  if prepared.isNone then
    store (.releasePorts snapshot.jobId false)
  else
    call (.spawn snapshot.jobId (.execute fence))

/-- `acquire_ports` in `_tick`: a job whose ports cannot be granted at all fails. -/
def acquireFor (snapshot : JobSnapshot) (document : JobDocument) : Async Unit (Option Fence) :=
  tryExcept (store (.acquirePorts snapshot.jobId document.logicalPorts)) fun e =>
    match e.trexCliError? with
    | some error => do
      let _ ← fail snapshot.jobId (problem error) (some [snapshot.state])
      pure none
    | none => raise e

/-- One round of the second loop of `_tick`, without its `break`. -/
def secondPass (snapshot : JobSnapshot) : Async Unit Unit := do
  let active ← call (.isActive snapshot.jobId)
  if active ∨ snapshot.state ≠ .waitingForPorts then
    pure ()
  else if snapshot.cancelRequested then
    call (.spawn snapshot.jobId .finishCancel)
  else
    let document ← store (.getDocument snapshot.jobId)
    let now ← call .now
    if now - snapshot.submittedAt > document.portWaitTimeout then
      let _ ← fail snapshot.jobId portWaitTimeoutProblem (some [.waitingForPorts])
      pure ()
    else
      match ← acquireFor snapshot document with
      | none => pure ()
      | some fence => startGranted snapshot fence

/-- The second loop of `_tick`. -/
def scanWaiting (config : AgentConfig) : List JobSnapshot → Async Unit Unit
  | [] => pure ()
  | snapshot :: rest => do
    let active ← call .activeCount
    if active ≥ config.maxConcurrentJobs then
      pure ()
    else
      secondPass snapshot
      scanWaiting config rest

/-- `_tick` -/
def tick (config : AgentConfig) : Async Unit Unit := do
  call .dropDone
  let snapshots ← store .listNonterminal
  forEach (firstPass config) snapshots
  let active ← call .activeCount
  if active ≥ config.maxConcurrentJobs then
    pure ()
  else
    let snapshots ← store .listNonterminal
    region .scanning (scanWaiting config snapshots)

def recoveryProblem (previousState : JobState) (reconciliation : Json) : Problem where
  code := "RECOVERY_ABORTED"
  category := "ENGINE"
  retryable := false
  message := "the Agent restarted after execution had begun"
  details :=
    [("previousState", .str previousState.value), ("reconciliation", reconciliation)]

/-- A marker is reconciled with the engine: where that confirms that the ports are idle, the marker
goes and the ports become available. -/
def reconcileMarker (marker : ExecutionMarker) : Async Unit ReconcileResult := do
  let document ← store (.getDocument marker.jobId)
  let result ← engine (.reconcile marker document)
  when (result.confirmedIdle) do
    store (.deleteExecutionMarker marker.jobId)
    store (.confirmPortsAvailable marker.logicalPorts)
  pure result

/-- What `_recover` finds out about the ports of a job with or without a marker: whether they are
idle, and the details of the reconciliation. -/
def reconcileJob : Option ExecutionMarker → Async Unit (Bool × Json)
  | none => pure (true, .obj [("reason", .str "no-execution-marker")])
  | some marker => do
    let result ← reconcileMarker marker
    pure (result.confirmedIdle, result.details)

/-- One round of the first loop of `_recover`. -/
def recoverJob (snapshot : JobSnapshot) : Async Unit Unit :=
  if snapshot.state.recoverable then
    pure ()
  else do
    let marker ← store (.getExecutionMarker snapshot.jobId)
    let (confirmedIdle, reconciliation) ← reconcileJob marker
    let _ ← fail snapshot.jobId (recoveryProblem snapshot.state reconciliation)
      (some [snapshot.state])
    store (.releasePorts snapshot.jobId (!confirmedIdle))

/-- `_recover`. The processed markers are those of the jobs of the first loop. -/
def recover : Async Unit Unit := do
  let snapshots ← store .listNonterminal
  forEach recoverJob snapshots
  let markers ← store .listExecutionMarkers
  forEach
    (fun marker =>
      if snapshots.any fun s => s.jobId = marker.jobId ∧ !s.state.recoverable then
        pure ()
      else do
        let _ ← reconcileMarker marker
        pure ())
    markers

end TrexCli
