import TrexCli.Jobs.Transition

/-!
# Executing a job

The coroutine of a job's task: `_execute_with_deadline`, `_execute` with its `finally` block, and
`_finish_cancel`. The timeout scope that `asyncio.wait_for` puts around `_execute` is not part of the
text: it throws `Exc.expired` at an await of `_execute`, and is what turns an escaping `expired`
into the `TimeoutError` that `_execute_with_deadline` catches.
-/

namespace TrexCli

open Coroutine.Py (raise tryExcept tryFinally region locals assign when withLocals)
open Async (call store engine)

/-- The local variables of `_execute` that its `finally` block reads. -/
structure ExecuteLocals where
  handle : Option RunHandle := none
  cleanupConfirmed : Bool := true

variable {σ : Type}

/-- The `try` block of `_finish_cancel`. -/
def drainAndCollect (job : JobId) (handle : Option RunHandle) : Async σ Unit := do
  let current ← store (.getSnapshot job)
  if current.state.terminal then
    pure ()
  else
    when (current.state ≠ .draining) do
      let _ ← transition job (.cancelDrain current.state)
      match handle with
      | some handle => engine (.stop handle true)
      | none => pure ()
    let current ← region .drained (store (.getSnapshot job))
    when (current.state ≠ .collecting) do
      let _ ← transition job (.cancelCollection current.state)
      match handle with
      | some handle => engine (.cleanup handle)
      | none => pure ()
    let now ← call .now
    let _ ← transition job (.cancelled now)
    pure ()

/-- `_finish_cancel` -/
def finishCancel (job : JobId) (handle : Option RunHandle) : Async σ Unit :=
  tryFinally (drainAndCollect job handle)
    (when (handle = none) (store (.releasePorts job false)))

/-- `_cancelled` -/
def cancelled (job : JobId) (handle : RunHandle) : Async σ Bool := do
  let current ← store (.getSnapshot job)
  if !current.cancelRequested then
    pure false
  else
    finishCancel job (some handle)
    pure true

/-- `_execute` up to the engine's handle: the marker is saved before `prepare` is called. -/
def prepareRun (job : JobId) (fence : Fence) : Async ExecuteLocals (JobDocument × RunHandle) := do
  let document ← store (.getDocument job)
  let marker : ExecutionMarker :=
    { jobId := job, logicalPorts := (fence.map Prod.fst).insertionSort (· ≤ ·), fence }
  store (.saveExecutionMarker marker)
  assign ({ · with cleanupConfirmed := false })
  let handle ← tryExcept (engine (.prepare marker document)) fun e =>
    if e.isException then do
      assign ({ · with cleanupConfirmed := true })
      raise e
    else
      raise e
  assign ({ · with handle := some handle, cleanupConfirmed := false })
  pure (document, handle)

/-- `_execute` from warmup to cleanup; `none` when a cancel request was observed on the way. -/
def measure (job : JobId) (handle : RunHandle) : Async ExecuteLocals (Option EngineMeasurement) := do
  phase job .warmingUp
  engine (.warmup handle)
  if ← cancelled job handle then
    pure none
  else
    phase job .running
    let measurement ← engine (.run handle)
    if ← cancelled job handle then
      pure none
    else
      phase job .draining
      engine (.stop handle false)
      phase job .collecting
      engine (.cleanup handle)
      pure (some measurement)

/-- The result that `_execute` makes of a measurement. -/
def jobResult (config : AgentConfig) (current : JobSnapshot) (measurement : EngineMeasurement) :
    JobResult where
  verdict := measurement.verdict
  methodology := measurement.methodology
  summary := measurement.summary
  provenance :=
    { submittedSpecDigest := current.submittedSpecDigest
      resolvedSpecDigest := current.resolvedSpecDigest.getD ""
      policyVersion := config.policyVersion
      agentVersion := config.agentVersion
      simulated := config.simulated
      engine := measurement.engine.getD config.engineMode
      trexVersion := measurement.trexVersion }

/-- `_execute` after the marker is gone: the result and the last transition. -/
def publish (config : AgentConfig) (job : JobId) (document : JobDocument)
    (measurement : EngineMeasurement) : Async ExecuteLocals Unit := do
  let current ← store (.getSnapshot job)
  let resolved ← store (.getDocument job)
  let result := jobResult config current measurement
  let _ ← call (.recordCalibrations job document result)
  let refs ← call (.buildResultBundle current document (config.resolvedJson resolved) result)
  let latest ← store (.getSnapshot job)
  if latest.cancelRequested then
    finishCancel job none
  else
    let now ← call .now
    let _ ← transition job (.succeeded { result with artifacts := refs } now)
    pure ()

/-- The `try` block of `_execute`. -/
def executeBody (config : AgentConfig) (job : JobId) (fence : Fence) : Async ExecuteLocals Unit := do
  let (document, handle) ← prepareRun job fence
  match ← measure job handle with
  | none => pure ()
  | some measurement =>
    assign ({ · with cleanupConfirmed := true })
    store (.deleteExecutionMarker job)
    assign ({ · with handle := none })
    publish config job document measurement

/-- `try: p; except Exception: pass`, and whether `p` went through. -/
def attempt (p : Async σ Unit) : Async σ Bool :=
  tryExcept
    (do
      p
      pure true)
    fun e => if e.isException then pure false else raise e

/-- The second try to stop and clean, on the way out of `_execute`. -/
def stopAndClean : Option RunHandle → Async ExecuteLocals Unit
  | none => pure ()
  | some handle => do
    let stopped ← attempt (engine (.stop handle true))
    let cleaned ← attempt (engine (.cleanup handle))
    assign ({ · with cleanupConfirmed := stopped && cleaned })

/-- The `finally` block of `_execute`. -/
def executeFinally (job : JobId) : Async ExecuteLocals Unit := do
  let s ← locals
  stopAndClean s.handle
  let s ← locals
  when (s.cleanupConfirmed = true) (store (.deleteExecutionMarker job))
  store (.releasePorts job (!s.cleanupConfirmed))

/-- The `except` clauses of `_execute`. -/
def executeExcept (job : JobId) (e : Exc) : Async ExecuteLocals Unit :=
  if !e.isException then
    raise e
  else do
    let _ ← fail job <| match e.trexCliError? with
      | some error => problem error
      | none =>
        { code := "INTERNAL", category := "INTERNAL", retryable := false, message := e.str }
    pure ()

/-- `_execute` -/
def execute (config : AgentConfig) (job : JobId) (fence : Fence) : Async ExecuteLocals Unit :=
  tryFinally (tryExcept (executeBody config job fence) (executeExcept job))
    (region .unwinding (executeFinally job))

def jobTimeoutProblem : Problem where
  code := "JOB_TIMEOUT"
  category := "RESOURCE"
  retryable := true
  message := "the Job exceeded its resolved jobTimeout"

/-- `_execute_with_deadline` -/
def executeWithDeadline (config : AgentConfig) (job : JobId) (fence : Fence) : Async σ Unit :=
  tryExcept (withLocals {} (execute config job fence)) fun
    | .expired => region .timedOut do
      let _ ← fail job jobTimeoutProblem
      store (.releasePorts job false)
    | e => raise e

/-- The coroutine of a task; `create_task` only schedules its first step. -/
def taskProgram (config : AgentConfig) (job : JobId) : TaskKind → Async Unit Unit
  | .execute fence => do
    call .start
    executeWithDeadline config job fence
  | .finishCancel => do
    call .start
    finishCancel job none
  | .reportProgress update completed total => do
    let _ ← transition job (.runProgress update completed total)
    pure ()

end TrexCli
