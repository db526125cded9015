import TrexCli.Agent.Once
import TrexCli.Engine.Lawful
import TrexCli.Jobs.EndContract

/-!
# The agent with its engine

`Rig` puts one of the remote engines under the agent: the engine's dictionary of sessions, which the
tasks of all jobs share, and a client of the library for each session. An engine call of a task runs
the coroutine of the engine against whatever the library answers. `record` keeps the calls of each
session's client with their answers, also over restarts of the process.

An engine call that is interrupted leaves a worker thread behind. From then on the session is adrift:
what becomes of it, and what the engine answers to the task that still stops and cleans it up, is up
to the environment.
-/

namespace TrexCli

open Engine (Adapter Sessions Client Line)

/-- The agent and the engine. -/
structure Rig (A : Adapter) where
  agent : Agent
  sessions : Sessions A.Session
  /-- The handle that `prepare` has answered to each task. -/
  handle : Nat → Option RunHandle
  /-- The calls of each session's client, with their answers. -/
  record : RunHandle → List Engine.Event
  /-- The sessions that a worker thread may be at work on, with nobody waiting for it. -/
  adrift : List RunHandle
  /-- The number of handles that have been given out. -/
  issued : Nat

inductive RigAction (A : Adapter) where
  | agent (a : Action) (line : Line)
  /-- A worker thread that was left behind. -/
  | worker (handle : RunHandle) (session : Option A.Session) (events : List Engine.Event)

namespace AgentTask

/-- `task.cancel()` or the deadline has reached the task. -/
def interrupted (t : AgentTask) : Bool := t.cancelled || t.expired

/-- The session of the engine call that the task awaits. -/
def awaited (t : AgentTask) : Option RunHandle :=
  match t.program with
  | .await _ (.engine c) _ => c.handle?
  | _ => none

/-- The job whose ports the task awaits the release of, and whether they go into quarantine. -/
def releasing (t : AgentTask) : Option (JobId × Bool) :=
  match t.program with
  | .await _ (.store (.releasePorts job quarantine)) _ => some (job, quarantine)
  | _ => none

end AgentTask

namespace Rig

variable {A : Adapter} {α : Type}

def init (A : Adapter) (logicalPorts : List PortId) : Rig A where
  agent := .init logicalPorts
  sessions _ := none
  handle _ := none
  record _ := []
  adrift := []
  issued := 0

/-- An operation of the engine on the session of a handle. -/
def operate (s : Rig A) (line : Line) (handle : RunHandle) (p : Client (Sessions A.Session) α) :
    Except Exc α × Rig A :=
  let x := (p () s.sessions).play line.answer 0
  (x.1.1,
    { s with
      sessions := x.1.2
      record := Function.update s.record handle (s.record handle ++ x.2) })

/-- `prepare`, for the `i`-th task. -/
def prepare (s : Rig A) (line : Line) (i : Nat) (document : JobDocument) :
    Except Exc RunHandle × Rig A :=
  let x := (A.prepare document () false).play line.answer 0
  match x.1.1 with
  | .ok session =>
    (.ok ⟨s.issued⟩,
      { s with
        sessions := Function.update s.sessions ⟨s.issued⟩ (some session)
        handle := Function.update s.handle i (some ⟨s.issued⟩)
        record := Function.update s.record ⟨s.issued⟩ x.2
        issued := s.issued + 1 })
  | .error e => (.error e, s)

/-- What the engine does for the `i`-th task, unless its session is adrift. -/
def engine (s : Rig A) (line : Line) (i : Nat) (t : AgentTask) :
    (c : EngineCall) → Option (Except Exc c.Res × Rig A)
  | .prepare _ document => some (s.prepare line i document)
  | .warmup handle =>
    if t.interrupted then none else some (s.operate line handle (A.warmup handle))
  | .run handle =>
    if t.interrupted then none else some (s.operate line handle (A.run handle))
  | .stop handle force =>
    if t.interrupted then none else some (s.operate line handle (A.stop handle force))
  | .cleanup handle =>
    if t.interrupted then none else some (s.operate line handle (A.cleanup handle))
  | .validate _ | .reconcile .. => none

/-- The `i`-th task gets the answer of the engine. -/
def serve (s : Rig A) (line : Line) (i : Nat) : Option (Rig A) :=
  match s.agent.tasks[i]? with
  | none => none
  | some t =>
    match t.program with
    | .await _ (.engine c) k =>
      (s.engine line i t c).map fun (r, s') =>
        { s' with agent := { s.agent with tasks := s.agent.tasks.set i { t with program := k r } } }
    | _ => none

/-- The job whose ports the `i`-th task is about to give back, and whether they go into quarantine, if
the task is an execution that nothing has interrupted. -/
def givesBack (s : Rig A) (i : Nat) : Option (JobId × Bool) :=
  s.agent.tasks[i]?.bind fun t =>
    if t.kind.isExecute && !t.interrupted then t.releasing else none

/-- The sessions that an action sets adrift. -/
def loosened (s : Rig A) (a : Action) : List RunHandle :=
  (((s.agent.resumes a).bind (s.agent.tasks[·]?)).bind AgentTask.awaited).toList

/-- What a step of the agent in which the engine does nothing leaves of the engine. -/
def follow (s : Rig A) (a : Action) (agent : Agent) : Rig A :=
  match a with
  | .crash => { s with agent, sessions := fun _ => none, handle := fun _ => none, adrift := [] }
  | a => { s with agent, adrift := s.loosened a ++ s.adrift }

variable (config : AgentConfig)

def step (s : Rig A) : RigAction A → Option (Rig A)
  | .worker handle session events =>
    if handle ∈ s.adrift then
      some { s with
        sessions := Function.update s.sessions handle session
        record := Function.update s.record handle (s.record handle ++ events) }
    else none
  | .agent a line =>
    match a with
    | .task i answers =>
      match s.serve line i with
      | some s' => some s'
      | none => (s.agent.step config (.task i answers)).map (s.follow (.task i answers))
    | a => (s.agent.step config a).map (s.follow a)

/-- The states that runs reach. -/
inductive Reach (logicalPorts : List PortId) : Rig A → Prop where
  | init : Reach logicalPorts (init A logicalPorts)
  | step {s s' : Rig A} {a : RigAction A} (h : Reach logicalPorts s)
      (hs : s.step config a = some s') : Reach logicalPorts s'

/-- The state after a sequence of actions. -/
def run (s : Rig A) (actions : List (RigAction A)) : Option (Rig A) :=
  actions.foldlM (step config) s

theorem Reach.run {logicalPorts : List PortId} {actions : List (RigAction A)} {s s' : Rig A}
    (hs : s.Reach config logicalPorts) (hrun : s.run config actions = some s') :
    s'.Reach config logicalPorts := by
  induction actions generalizing s with
  | nil =>
    obtain rfl : s = s' := Option.some.inj hrun
    exact hs
  | cons a actions ih =>
    rw [Rig.run, List.foldlM_cons] at hrun
    obtain ⟨s₁, hs₁, hrest⟩ := Option.bind_eq_some_iff.mp hrun
    exact ih (hs.step hs₁) hrest

end Rig

/-- The actions of the agent, on a library that answers everything. -/
def RigAction.all (A : Adapter) (actions : List Action) : List (RigAction A) :=
  actions.map (.agent · .succeed)

end TrexCli
