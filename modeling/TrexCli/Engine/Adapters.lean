import TrexCli.Engine.Client

/-!
# The remote engines

`prepare`, `warmup`, `run`, `stop` and `cleanup` of `RemoteTrexStlEngine` and `RemoteTrexAstfEngine`.
Each engine keeps its sessions in a dictionary by run handle. The STL engine takes a missing session
for one that has nothing left to stop, and drops a session only when it was cleaned up; the ASTF
engine raises when there is no session to stop, and drops the session whatever happens to its cleanup.
-/

namespace TrexCli.Engine

open Coroutine Coroutine.Py

/-- `self._sessions` -/
abbrev Sessions (S : Type) := RunHandle → Option S

/-- `TrafficEngine`, as far as a run of the client goes. -/
structure Adapter where
  Session : Type
  /-- `prepare`, up to the run handle; the local variable is `acquired`. -/
  prepare (document : JobDocument) : Client Bool Session
  warmup (handle : RunHandle) : Client (Sessions Session) Unit
  run (handle : RunHandle) : Client (Sessions Session) EngineMeasurement
  stop (handle : RunHandle) (force : Bool) : Client (Sessions Session) Unit
  cleanup (handle : RunHandle) : Client (Sessions Session) Unit

section Session

variable {S σ α : Type}

/-- `self._sessions.pop(handle.id, None)` -/
def Sessions.pop (sessions : Sessions S) (handle : RunHandle) : Sessions S :=
  Function.update sessions handle none

@[simp] theorem Sessions.pop_self (sessions : Sessions S) (handle : RunHandle) :
    sessions.pop handle handle = none := Function.update_self _ _ _

def Sessions.modify (sessions : Sessions S) (handle : RunHandle) (f : S → S) : Sessions S :=
  Function.update sessions handle ((sessions handle).map f)

theorem Sessions.modify_self (sessions : Sessions S) {handle : RunHandle} {x : S} (f : S → S)
    (h : sessions handle = some x) : sessions.modify handle f handle = some (f x) := by
  rw [modify, Function.update_self, h, Option.map_some]

def sessionLost (message : String) : Exc :=
  .trexCli { code := "LEASE_LOST", category := "ENGINE", message }

/-- `_session` -/
def session (message : String) (handle : RunHandle) : Client (Sessions S) S := do
  let sessions ← locals
  match sessions handle with
  | some s => pure s
  | none => raise (sessionLost message)

/-- The value or the exception of a function that asks nothing of the client. -/
def ofExcept : Except Exc α → Client σ α
  | .ok a => pure a
  | .error e => raise e

/-- `try: client.c; except Exception: pass` -/
def quietly (c : ClientCall) : Client σ Unit :=
  tryExcept (do let _ ← request c; pure ()) fun _ => pure ()

/-- The exceptions of `m` as errors of the engine. -/
def wrapping (wrap : Exc → Exc) (m : Client σ α) : Client σ α := tryExcept m fun e => raise (wrap e)

/-- `_prepare_sync`: what goes wrong releases the ports that were acquired, and disconnects. -/
def rollingBack (release : ClientCall) (m : Client Bool α) : Client Bool α :=
  tryExcept m fun e => do
    let acquired ← locals
    when (acquired = true) (quietly release)
    quietly .disconnect
    raise e

def capabilityMismatch (message : String) : Exc :=
  .trexCli { code := "CAPABILITY_MISMATCH", category := "RESOURCE", message }

/-- `except TrexCliError: raise; except Exception as error: raise self._client_error(...)` -/
def wrappingOthers (wrap : Exc → Exc) (m : Client σ α) : Client σ α :=
  tryExcept m fun e => raise (if e.trexCliError?.isSome then e else wrap e)

end Session

/-! ### The stateless engine -/

/-- What `RemoteTrexStlEngine` is configured with. -/
structure StlConfig where
  portMapping : PortId → Nat
  /-- `validate` -/
  validate : JobDocument → Except Exc Unit
  validate_raises : ∀ document e, validate document = .error e → e.isException = true

/-- `_Session`, by the ports of its client. -/
structure StlSession where
  ports : List Nat

namespace Stl

def error (message : String) : Exc → Exc := clientError "TREX_UNAVAILABLE" true message

variable {σ : Type}

/-- `_prepare_sync` -/
def prepareSync (document : JobDocument) (ports : List Nat) : Client Bool StlSession :=
  rollingBack (.release ports) do
    request .connect
    let count ← request .getPortCount
    when (∃ port ∈ ports, count ≤ port)
      (raise (capabilityMismatch "engine.portMapping references a TRex port that does not exist"))
    let up ← mapEach (fun port => request (.isUp port)) ports
    when (∃ b ∈ up, b = false)
      (raise (.trexCli { code := "LINK_DOWN", category := "ENGINE", retryable := true,
                         message := "one or more selected TRex links are down" }))
    request (.acquire ports)
    assign fun _ => true
    request (.reset ports)
    request (.install document)
    pure { ports }

/-- `prepare` -/
def prepare (config : StlConfig) (document : JobDocument) : Client Bool StlSession := do
  ofExcept (config.validate document)
  wrappingOthers (error "could not prepare the TRex ports")
    (prepareSync document (document.logicalPorts.map config.portMapping))

def session : RunHandle → Client (Sessions StlSession) StlSession :=
  Engine.session "the TRex run handle is no longer active"

/-- `warmup` -/
def warmup (handle : RunHandle) : Client (Sessions StlSession) Unit := do
  let _ ← session handle
  pure ()

/-- `run` -/
def run (handle : RunHandle) : Client (Sessions StlSession) EngineMeasurement := do
  let _ ← session handle
  wrapping (error "TRex traffic execution failed") (request .runTraffic)

/-- The ports that `client.get_port(port).is_active()` is true of. -/
def activePorts (ports : List Nat) : Client σ (List Nat) := do
  let active ← mapEach (fun port => request (.isActive port)) ports
  pure (((ports.zip active).filter fun p => p.2).map Prod.fst)

/-- `_stop_sync` -/
def stopSync (ports : List Nat) (force : Bool) : Client σ Unit := do
  let active ← activePorts ports
  when (active ≠ []) (request (.stop active))
  when (force = true) (request (.reset ports))

/-- `stop` -/
def stop (handle : RunHandle) (force : Bool) : Client (Sessions StlSession) Unit := do
  let sessions ← locals
  match sessions handle with
  | none => pure ()
  | some s => wrapping (error "could not stop TRex traffic") (stopSync s.ports force)

/-- `_cleanup_sync` -/
def cleanupSync (ports : List Nat) : Client σ Unit :=
  tryFinally (request (.removeAllStreams ports))
    (tryFinally (request (.release ports)) (request .disconnect))

/-- `cleanup` -/
def cleanup (handle : RunHandle) : Client (Sessions StlSession) Unit := do
  let sessions ← locals
  match sessions handle with
  | none => pure ()
  | some s => do
    wrapping (error "could not release the TRex ports") (cleanupSync s.ports)
    assign (·.pop handle)

end Stl

/-- `RemoteTrexStlEngine` -/
def stl (config : StlConfig) : Adapter where
  Session := StlSession
  prepare := Stl.prepare config
  warmup := Stl.warmup
  run := Stl.run
  stop := Stl.stop
  cleanup := Stl.cleanup

/-! ### The stateful engine -/

/-- What `RemoteTrexAstfEngine` is configured with. -/
structure AstfConfig where
  /-- The values of `portMapping`. -/
  ports : List Nat
  /-- The ports of the client and of the server of a document. -/
  roles : JobDocument → Nat × Nat
  /-- `validate` and `_validate_sync` -/
  validate : JobDocument → Except Exc Unit
  validate_raises : ∀ document e, validate document = .error e → e.isException = true
  /-- The checks of the address pools for a number of data-path threads, and
  `_assign_server_ranges`. -/
  assign : JobDocument → Nat → Except Exc Unit
  assign_raises : ∀ document threads e, assign document threads = .error e → e.isException = true

/-- `_AstfSession`, by its flags. -/
structure AstfSession where
  stopped : Bool := false
  controlLost : Bool := false

namespace Astf

def error (message : String) : Exc → Exc := clientError "TREX_ERROR" false message

variable {σ : Type}

/-- `_prepare_sync` after `_validate_sync`. -/
def prepareSync (config : AstfConfig) (document : JobDocument) : Client Bool AstfSession :=
  rollingBack .releaseAll do
    request .connect
    let count ← request .getPortCount
    when (∃ port ∈ config.ports, count ≤ port)
      (raise (capabilityMismatch "engine.portMapping references a TRex port that does not exist"))
    let clientCores ← request (.portCores (config.roles document).1)
    let serverCores ← request (.portCores (config.roles document).2)
    ofExcept (config.assign document (max clientCores serverCores))
    request .acquireAll
    assign fun _ => true
    request (.install document)
    pure {}

/-- `prepare` -/
def prepare (config : AstfConfig) (document : JobDocument) : Client Bool AstfSession :=
  wrappingOthers (error "could not prepare ASTF execution") do
    ofExcept (config.validate document)
    prepareSync config document

def session : RunHandle → Client (Sessions AstfSession) AstfSession :=
  Engine.session "the ASTF run handle is no longer active"

/-- `warmup` -/
def warmup (handle : RunHandle) : Client (Sessions AstfSession) Unit := do
  let _ ← session handle
  pure ()

/-- `session.stopped = True` -/
def markStopped (handle : RunHandle) : Client (Sessions AstfSession) Unit :=
  assign (·.modify handle ({ · with stopped := true }))

/-- `session.control_lost = True` -/
def loseControl (handle : RunHandle) : Client (Sessions AstfSession) Unit :=
  assign (·.modify handle ({ · with controlLost := true }))

/-- `_start_sync` -/
def startSync : Client σ Unit := do
  request .clearStats
  request .start

/-- `_finish_sync` -/
def finishSync (handle : RunHandle) (s : AstfSession) :
    Client (Sessions AstfSession) EngineMeasurement := do
  when (s.stopped = false) (do
    request .stopAll
    markStopped handle)
  request .collect

/-- `run` -/
def run (handle : RunHandle) : Client (Sessions AstfSession) EngineMeasurement := do
  let s ← session handle
  wrapping (error "could not start ASTF execution") startSync
  wrapping (error "could not collect ASTF execution") (finishSync handle s)

/-- `except TimeoutError` -/
def timedOut (handle : RunHandle) (message cause : String) : Client (Sessions AstfSession) Unit := do
  loseControl handle
  raise (error message (.exception cause))

/-- `stop`, which does not look at `force`. -/
def stop (handle : RunHandle) (_force : Bool) : Client (Sessions AstfSession) Unit := do
  let s ← session handle
  when (s.stopped = false) (do
    if ← request .timesOut then
      timedOut handle "could not stop ASTF execution" "ASTF stop timed out"
    else do
      wrapping (error "could not stop ASTF execution") (request .stopAll)
      markStopped handle)

/-- Calls that are all made, and the `errors` they raise. -/
def attemptAll (errors : List Exc) : List ClientCall → Client σ (List Exc)
  | [] => pure errors
  | c :: calls => do
    let errors ← tryExcept (do let _ ← request c; pure errors) fun e => pure (errors ++ [e])
    attemptAll errors calls

/-- `_cleanup_sync` -/
def cleanupSync : Client σ Unit := do
  match ← attemptAll [] [.clearProfile, .releaseAll, .disconnect] with
  | e :: _ => raise (error "could not clean up ASTF execution" e)
  | [] => pure ()

def controlLost : Exc :=
  .trexCli
    { code := "TREX_TIMEOUT", category := "ENGINE", retryable := true
      message := "ASTF cleanup was skipped after control of the client session was lost" }

/-- `cleanup` -/
def cleanup (handle : RunHandle) : Client (Sessions AstfSession) Unit := do
  let sessions ← locals
  match sessions handle with
  | none => pure ()
  | some s =>
    tryFinally
      (do
        when (s.controlLost = true) (raise controlLost)
        if ← request .timesOut then
          timedOut handle "could not clean up ASTF execution" "ASTF cleanup timed out"
        else
          cleanupSync)
      (assign (·.pop handle))

end Astf

/-- `RemoteTrexAstfEngine` -/
def astf (config : AstfConfig) : Adapter where
  Session := AstfSession
  prepare := Astf.prepare config
  warmup := Astf.warmup
  run := Astf.run
  stop := Astf.stop
  cleanup := Astf.cleanup

end TrexCli.Engine
