import TrexCli.Jobs.Calls
import TrexCli.Lib.Strategy
import Mathlib.Data.List.Infix

/-!
# The client of the traffic engines

The calls that the two remote engines make of the TRex client library, and what a record of them says
of the traffic and of the ports: `Quieted`, that every port acquired by the session has been found
inactive or been stopped after the last start, and `Released`, that the session was then taken down.
-/

namespace TrexCli.Engine

open Coroutine

/-- A call of the client of `RemoteTrexStlEngine` or `RemoteTrexAstfEngine`. -/
inductive ClientCall where
  | connect
  | getPortCount
  | isUp (port : Nat)
  | acquire (ports : List Nat)
  | reset (ports : List Nat)
  /-- What `_prepare_sync` asks of the client once the ports are its own: the streams, the replay or
  the profile of the document, and the version of the server. -/
  | install (document : JobDocument)
  /-- `_run_sync` -/
  | runTraffic
  | isActive (port : Nat)
  | stop (ports : List Nat)
  | removeAllStreams (ports : List Nat)
  | release (ports : List Nat)
  | disconnect
  /-- The number of data-path cores of a port, from `get_port_info`. -/
  | portCores (port : Nat)
  /-- `acquire(force=False)` of all ports. -/
  | acquireAll
  | clearStats
  | start
  /-- `stop(True)` -/
  | stopAll
  /-- The statistics and warnings that `_finish_sync` makes a measurement of. -/
  | collect
  | clearProfile
  /-- `release(False)` of all ports. -/
  | releaseAll
  /-- Whether `asyncio.wait_for` gives up before its call returns. -/
  | timesOut

abbrev ClientCall.Response : ClientCall → Type
  | .getPortCount | .portCores _ => Nat
  | .isUp _ | .isActive _ | .timesOut => Bool
  | .runTraffic | .collect => EngineMeasurement
  | _ => Unit

/-- A computation of an engine with local variables `σ`. -/
abbrev Client (σ α : Type) := Py Unit ClientCall ClientCall.Response Exc σ α

def request {σ : Type} (c : ClientCall) : Client σ c.Response := Py.call c

abbrev Event := Coroutine.Event ClientCall ClientCall.Response Exc

abbrev Strategy := Coroutine.Strategy ClientCall ClientCall.Response Exc

/-- The client raises only what `except Exception` catches. -/
def Raised (c : ClientCall) (r : Except Exc c.Response) : Prop :=
  ∀ e, r = .error e → e.isException = true

/-- `_client_error`, with the problem that no word of the text names. -/
def clientError (code : String) (retryable : Bool) (message : String) (cause : Exc) : Exc :=
  let lowered := (match cause with
    | .trexCli e => e.message
    | e => e.str).toLower.toList
  if "acquir".toList <:+: lowered ∨ "owned".toList <:+: lowered then
    .trexCli { code := "PORT_BUSY", category := "RESOURCE", retryable := true, message }
  else if "timeout".toList <:+: lowered ∨ "timed out".toList <:+: lowered then
    .trexCli { code := "TREX_TIMEOUT", category := "ENGINE", retryable := true, message }
  else
    .trexCli { code, category := "ENGINE", retryable, message }

theorem clientError_isException (code : String) (retryable : Bool) (message : String) (e : Exc) :
    (clientError code retryable message e).isException = true := by
  unfold clientError
  dsimp only
  split_ifs
  · rfl
  · rfl
  · rfl

/-- What the library answers: at each call a result, or what `except Exception` catches. -/
structure Line where
  answer : Strategy
  raised : ∀ n c, Raised c (answer n c)

namespace Line

/-- Two ports that are up, and still active when a run is over. -/
def healthy : (c : ClientCall) → c.Response
  | .getPortCount => (2 : Nat)
  | .portCores _ => (1 : Nat)
  | .isUp _ | .isActive _ => true
  | .timesOut => false
  | .runTraffic | .collect => { verdict := .pass, methodology := "", summary := .null }
  | .connect | .acquire _ | .reset _ | .install _ | .stop _ | .removeAllStreams _ | .release _
  | .disconnect | .acquireAll | .clearStats | .start | .stopAll | .clearProfile | .releaseAll => ()

/-- A library that refuses some calls. -/
def refusing (refuses : ClientCall → Bool) : Line where
  answer _ c := if refuses c then .error (.exception "refused") else .ok (healthy c)
  raised n c e he := by
    split at he
    · obtain rfl := Except.error.inj he
      rfl
    · cases he

/-- A library that answers everything. -/
def succeed : Line := refusing fun _ => false

end Line

/-! ### What a record says -/

/-- The call went through. -/
def Went (log : List Event) (c : ClientCall) : Prop := ∃ r, ⟨c, .ok r⟩ ∈ log

/-- The call can put traffic on the wire. -/
def ClientCall.starts : ClientCall → Bool
  | runTraffic | start => true
  | _ => false

/-- Nothing is started. -/
def Still (log : List Event) : Prop := ∀ e ∈ log, e.1.starts = false

/-- The port was found inactive, or a stop of it went through. -/
def Halted (log : List Event) (port : Nat) : Prop :=
  ⟨.isActive port, .ok false⟩ ∈ log ∨ ∃ ports, port ∈ ports ∧ Went log (.stop ports)

/-- After the last start, all traffic of the session has been stopped. -/
def Quieted (log : List Event) : Prop :=
  ∃ before after, log = before ++ after ∧ Still after ∧
    (∀ ports, ⟨.acquire ports, .ok ()⟩ ∈ log → ∀ port ∈ ports, Halted after port) ∧
    (⟨.acquireAll, .ok ()⟩ ∈ log → ⟨.stopAll, .ok ()⟩ ∈ after)

/-- The streams or the profile were removed, the ports released and the client disconnected. -/
def TakenDown (log : List Event) : Prop :=
  (∃ ports, [⟨.removeAllStreams ports, .ok ()⟩, ⟨.release ports, .ok ()⟩,
    ⟨.disconnect, .ok ()⟩].Sublist log) ∨
  [⟨.clearProfile, .ok ()⟩, ⟨.releaseAll, .ok ()⟩, ⟨.disconnect, .ok ()⟩].Sublist log

/-- Traffic was stopped, and then the session was taken down. -/
def Released (log : List Event) : Prop :=
  ∃ before after, log = before ++ after ∧ Quieted before ∧ Still after ∧ TakenDown after

/-- The call is one that `stop` or `cleanup` makes. -/
def ClientCall.ends : ClientCall → Bool
  | isActive _ | stop _ | reset _ | removeAllStreams _ | release _ | disconnect | stopAll
  | clearProfile | releaseAll | timesOut => true
  | _ => false

/-- A call to end the session failed, or was given up. -/
def Failed (log : List Event) : Prop :=
  (∃ c e, ClientCall.ends c = true ∧ ⟨c, .error e⟩ ∈ log) ∨ ⟨.timesOut, .ok true⟩ ∈ log

/-- The event is a failure. -/
def fails : Event → Bool
  | ⟨.timesOut, .ok gaveUp⟩ => gaveUp
  | ⟨_, .error _⟩ => true
  | _ => false

theorem any_fails {log : List Event} (h : Failed log) : log.any fails = true := by
  obtain ⟨c, e, -, he⟩ | he := h
  · refine List.any_eq_true.mpr ⟨_, he, ?_⟩
    cases c <;> rfl
  · exact List.any_eq_true.mpr ⟨_, he, rfl⟩

section Record

variable {log more : List Event} {port : Nat}

theorem Still.append (h : Still log) (h' : Still more) : Still (log ++ more) := by
  intro e he
  obtain he | he := List.mem_append.mp he
  · exact h e he
  · exact h' e he

theorem Failed.append_left (h : Failed log) : Failed (log ++ more) := by
  refine h.imp ?_ fun h => List.mem_append_left _ h
  rintro ⟨c, e, hc, he⟩
  exact ⟨c, e, hc, List.mem_append_left _ he⟩

theorem Failed.append_right (h : Failed more) : Failed (log ++ more) := by
  refine h.imp ?_ fun h => List.mem_append_right _ h
  rintro ⟨c, e, hc, he⟩
  exact ⟨c, e, hc, List.mem_append_right _ he⟩

theorem Halted.append (h : Halted log port) : Halted (log ++ more) port := by
  refine h.imp (fun h => List.mem_append_left _ h) ?_
  rintro ⟨ports, hport, r, hr⟩
  exact ⟨ports, hport, r, List.mem_append_left _ hr⟩

/-- The event acquires ports. -/
def ClientCall.acquires : ClientCall → Bool
  | acquire _ | acquireAll => true
  | _ => false

/-- Traffic that has been stopped stays so while nothing is acquired or started. -/
theorem Quieted.append (h : Quieted log) (hstill : Still more)
    (hkeep : ∀ e ∈ more, e.1.acquires = false) : Quieted (log ++ more) := by
  obtain ⟨before, after, rfl, hafter, hports, hall⟩ := h
  have hold : ∀ e : Event, e.1.acquires = true → e ∈ before ++ after ++ more →
      e ∈ before ++ after := by
    intro e he hmem
    refine (List.mem_append.mp hmem).resolve_right fun hnew => ?_
    rw [hkeep e hnew] at he
    cases he
  refine ⟨before, after ++ more, List.append_assoc _ _ _, hafter.append hstill, ?_, ?_⟩
  · intro ports hmem port hport
    exact (hports ports (hold _ rfl hmem) port hport).append
  · exact fun hmem => List.mem_append_left _ (hall (hold _ rfl hmem))

theorem TakenDown.of_sublist (h : TakenDown log) (hsub : log.Sublist more) : TakenDown more := by
  refine h.imp ?_ fun h => h.trans hsub
  rintro ⟨ports, h⟩
  exact ⟨ports, h.trans hsub⟩

theorem TakenDown.append_left (h : TakenDown more) : TakenDown (log ++ more) :=
  h.of_sublist (List.sublist_append_right log more)

theorem Released.append (h : Released log) (hstill : Still more) : Released (log ++ more) := by
  obtain ⟨before, after, rfl, hquiet, hafter, hdown⟩ := h
  exact ⟨before, after ++ more, List.append_assoc _ _ _, hquiet, hafter.append hstill,
    hdown.of_sublist (List.sublist_append_left after more)⟩

end Record

end TrexCli.Engine
