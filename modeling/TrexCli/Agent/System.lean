import TrexCli.Jobs.Tick
import TrexCli.Jobs.Writes

/-!
# The agent as a transition system

The state of the agent process and its database, and the steps it takes: the scheduler and each task
run from one await to the next, in any order; users submit and cancel; a cancel reaches the live task
of its job at whatever it awaits, and so does the deadline; the process crashes and starts again
with `_recover`.

A store method runs on a worker thread that nobody cancels. When the task that awaits it is
cancelled, its transaction is left over (`late`) and runs at any later moment of this process. What
the engine and the other services answer is up to the environment. A restart keeps the configured
ports, so `initialize` has nothing to do there.
-/

namespace TrexCli

/-- A task of the event loop. -/
structure AgentTask where
  job : JobId
  kind : TaskKind
  program : Task (Except Exc Unit × Unit)
  /-- `task.cancel()` has been called. -/
  cancelled : Bool := false
  /-- The timeout scope around `_execute` has expired. -/
  expired : Bool := false

/-- The agent process and its database. -/
structure Agent where
  db : Db
  tasks : List AgentTask
  /-- `self._active`: the task of each active job, by its index in `tasks`. -/
  active : List (JobId × Nat)
  /-- `start`, up to the end of `_recover`, and then `_tick`. -/
  scheduler : Task (Except Exc Unit × Unit)
  serving : Bool
  /-- Transactions whose awaiting task has been cancelled. -/
  late : List StoreCall
  /-- `cancel` calls that have stored their request and not yet called `task.cancel()`. -/
  cancelling : List JobId
  now : Instant

/-- What the engine and the services beside the store answer. -/
abbrev Answers := (c : Call) → Except Exc c.Res

inductive Action where
  | submit (job : JobId) (document : JobDocument) (principal idempotencyKey : String)
    (retryOf : Option JobId)
  | requestCancel (job : JobId) (requestId principal reason : String)
  /-- `task.cancel()` for a stored cancel request. -/
  | cancelTask (job : JobId)
  /-- The deadline of the `i`-th task expires. -/
  | deadline (i : Nat)
  /-- The `i`-th task gets the answer it awaits. -/
  | task (i : Nat) (answers : Answers)
  /-- The scheduler gets the answer it awaits. -/
  | scheduler (answers : Answers)
  /-- `start` is done. -/
  | serve
  /-- The scheduler loop starts the next `_tick`. -/
  | tick
  /-- The transaction of a cancelled task runs. -/
  | late (n : Nat)
  /-- The engine reports progress of a job. -/
  | reportProgress (job : JobId) (update : List (String × Json)) (completed : Nat)
    (total : Option Nat)
  | advance (milliseconds : Nat)
  | crash

namespace Agent

variable (config : AgentConfig)

/-- The first start, with a new database. -/
def init (logicalPorts : List PortId) : Agent where
  db := { Db.empty with leases := Leases.insertPorts .empty logicalPorts }
  tasks := []
  active := []
  scheduler := recover .body ()
  serving := false
  late := []
  cancelling := []
  now := 0

/-- The task is done, or was never there. -/
def taskDone (s : Agent) (i : Nat) : Bool :=
  match s.tasks[i]? with
  | some t => t.program.done
  | none => true

/-- `_spawn` -/
def spawn (s : Agent) (job : JobId) (kind : TaskKind) : Agent :=
  { s with
    tasks := s.tasks ++ [{ job, kind, program := taskProgram config job kind .body () }]
    active := (job, s.tasks.length) :: s.active.filter fun a => a.1 ≠ job }

/-- An answer of the environment: a result, or what `except Exception` catches. -/
def outside {α : Type} (s : Agent) (answer : Except Exc α) : Option (Except Exc α × Agent) :=
  match answer with
  | .ok a => some (.ok a, s)
  | .error e => if e.isException then some (.error e, s) else none

/-- The answer to a call, and the state after it. -/
def exec (s : Agent) (answers : Answers) : (c : Call) → Option (Except Exc c.Res × Agent)
  | .store c => some ((c.exec s.db).1, { s with db := (c.exec s.db).2 })
  | .engine c => s.outside (answers (.engine c))
  | .validatePolicy document => s.outside (answers (.validatePolicy document))
  | .validateCalibration document => s.outside (answers (.validateCalibration document))
  | .recordCalibrations job document result =>
    s.outside (answers (.recordCalibrations job document result))
  | .buildResultBundle snapshot document resolvedJson result =>
    s.outside (answers (.buildResultBundle snapshot document resolvedJson result))
  | .notify => some (.ok (), s)
  | .start => some (.ok (), s)
  | .now => some (.ok s.now, s)
  | .isActive job => some (.ok (s.active.any fun a => a.1 = job), s)
  | .activeCount => some (.ok s.active.length, s)
  | .dropDone => some (.ok (), { s with active := s.active.filter fun a => !s.taskDone a.2 })
  | .spawn job kind => some (.ok (), s.spawn config job kind)

/-- Throw an exception into a suspended task. -/
def throwInto (s : Agent) (i : Nat) (t : AgentTask) (e : Exc) : Option Agent :=
  match t.program with
  | .ret _ => none
  | .await _ c k =>
    if c.suspends then
      some { s with
        tasks := s.tasks.set i { t with program := k (.error e) }
        late := s.late ++ c.transaction?.toList }
    else none

/-- The timeout scope of the task is entered and not left. -/
def armed (t : AgentTask) : Bool :=
  match t.kind, t.program with
  | .execute _, .await _ .start _ => false
  | .execute _, .await l _ _ => !t.expired && l ≠ .timedOut
  | _, _ => false

/-- The task that an action throws an exception into, if the task is suspended. -/
def interrupts (s : Agent) : Action → Option (Nat × Exc)
  | .cancelTask job =>
    if job ∈ s.cancelling then (s.active.find? fun a => a.1 = job).map fun a => (a.2, .cancelled)
    else none
  | .deadline i =>
    match s.tasks[i]? with
    | some t => if armed t then some (i, if t.cancelled then .cancelled else .expired) else none
    | none => none
  | _ => none

def step (s : Agent) : Action → Option Agent
  | .submit job document principal idempotencyKey retryOf =>
    if s.serving then
      some { s with
        db := (submit config s.db job document principal idempotencyKey retryOf s.now).2 }
    else none
  | .requestCancel job requestId principal reason =>
    if s.serving then
      match s.db.requestCancel job requestId principal reason with
      | (.ok _, db) => some { s with db, cancelling := job :: s.cancelling }
      | (.error _, db) => some { s with db }
    else none
  | .cancelTask job =>
    if job ∈ s.cancelling then
      let s := { s with cancelling := s.cancelling.erase job }
      match s.active.find? fun a => a.1 = job with
      | none => some s
      | some (_, i) =>
        match s.tasks[i]? with
        | none => some s
        | some t =>
          if t.program.done then some s
          else s.throwInto i { t with cancelled := true } .cancelled
    else none
  | .deadline i =>
    match s.tasks[i]? with
    | none => none
    | some t =>
      if armed t then
        s.throwInto i { t with expired := true } (if t.cancelled then .cancelled else .expired)
      else none
  | .task i answers =>
    match s.tasks[i]? with
    | none => none
    | some t =>
      match t.program with
      | .ret _ => none
      | .await _ c k =>
        match s.exec config answers c with
        | none => none
        | some (r, s') => some { s' with tasks := s'.tasks.set i { t with program := k r } }
  | .scheduler answers =>
    match s.scheduler with
    | .ret _ => none
    | .await _ c k =>
      match s.exec config answers c with
      | none => none
      | some (r, s') => some { s' with scheduler := k r }
  | .serve =>
    match s.serving, s.scheduler with
    | false, .ret (.ok _, _) => some { s with serving := true }
    | _, _ => none
  | .tick =>
    if s.serving && s.scheduler.done then some { s with scheduler := tick config .body () }
    else none
  | .late n =>
    match s.late[n]? with
    | none => none
    | some c => some { s with db := (c.exec s.db).2, late := s.late.eraseIdx n }
  | .reportProgress job update completed total =>
    if s.serving then
      let kind := .reportProgress update completed total
      some { s with
        tasks := s.tasks ++ [{ job, kind, program := taskProgram config job kind .body () }] }
    else none
  | .advance milliseconds => some { s with now := s.now + milliseconds }
  | .crash =>
    some { s with
      tasks := [], active := [], scheduler := recover .body (), serving := false, late := []
      cancelling := [] }

/-- The state after a sequence of actions. -/
def run (s : Agent) (actions : List Action) : Option Agent := actions.foldlM (step config) s

/-- The states that runs reach whose every step meets `C`. -/
inductive Reach (C : Agent → Action → Prop) (logicalPorts : List PortId) : Agent → Prop where
  | init : Reach C logicalPorts (init logicalPorts)
  | step {s s' : Agent} {a : Action} (h : Reach C logicalPorts s) (hc : C s a)
      (hs : s.step config a = some s') : Reach C logicalPorts s'

/-- The state after a sequence of actions, if each one passes a check of the state it is taken in. -/
def runChecked (check : Agent → Action → Bool) (s : Agent) : List Action → Option Agent
  | [] => some s
  | a :: actions =>
    if check s a then (s.step config a).bind fun s' => s'.runChecked check actions else none

theorem reach_of_runChecked {C : Agent → Action → Prop} {check : Agent → Action → Bool}
    (hcheck : ∀ s a, check s a = true → C s a) {logicalPorts : List PortId} {actions : List Action}
    {s s' : Agent} (hs : s.Reach config C logicalPorts)
    (hrun : s.runChecked config check actions = some s') : s'.Reach config C logicalPorts := by
  induction actions generalizing s with
  | nil =>
    obtain rfl : s = s' := Option.some.inj hrun
    exact hs
  | cons a actions ih =>
    rw [runChecked] at hrun
    split at hrun
    · rename_i hc
      obtain ⟨s₁, hs₁, hrest⟩ := Option.bind_eq_some_iff.mp hrun
      exact ih (hs.step (hcheck s a hc) hs₁) hrest
    · cases hrun

theorem runChecked_true (s : Agent) (actions : List Action) :
    s.runChecked config (fun _ _ => true) actions = s.run config actions := by
  induction actions generalizing s with
  | nil => rfl
  | cons a actions ih =>
    rw [runChecked, if_pos rfl, run, List.foldlM_cons]
    exact congrArg _ (funext ih)

theorem reach_of_run {logicalPorts : List PortId} {actions : List Action} {s : Agent}
    (hrun : (init logicalPorts).run config actions = some s) :
    s.Reach config (fun _ _ => True) logicalPorts :=
  reach_of_runChecked config (fun _ _ _ => trivial) .init ((runChecked_true config _ _).trans hrun)

end Agent

/-! ### The start of a run

An agent with two ports, an engine that succeeds in everything, and a job that is submitted, granted
both ports and executed up to `engine.run`. -/

def labConfig : AgentConfig where
  maxConcurrentJobs := 4
  policyVersion := "1"
  agentVersion := "1"
  engineMode := "simulated"
  simulated := true
  resolvedJson _ := ""
  sha256Text := id

def labDocument : JobDocument where
  kind := .statelessTraffic
  logicalPorts := [0, 1]
  canonical := "{}"

/-- What the engine and the services beside the store answer when nothing goes wrong. -/
def Answers.succeed : Answers
  | .engine (.validate _) | .engine (.warmup _) | .engine (.stop ..) | .engine (.cleanup _) => .ok ()
  | .engine (.prepare marker _) => .ok ⟨marker.jobId⟩
  | .engine (.run _) => .ok { verdict := .pass, methodology := "", summary := .null }
  | .engine (.reconcile ..) => .ok ⟨true, .null⟩
  | .validatePolicy _ | .validateCalibration _ | .recordCalibrations .. => .ok ()
  | .buildResultBundle .. => .ok []
  | _ => .error (.exception "")

namespace Action

/-- The action throws nothing into a task. -/
def quiet : Action → Bool
  | .cancelTask _ | .deadline _ => false
  | _ => true

theorem interrupts_of_quiet {a : Action} (ha : a.quiet = true) (s : Agent) :
    s.interrupts a = none := by
  cases a with
  | cancelTask | deadline => cases ha
  | _ => rfl

/-- `n` steps of the scheduler. -/
def schedule (n : Nat) : List Action := List.replicate n (.scheduler .succeed)

/-- `n` steps of the `i`-th task. -/
def resume (i n : Nat) : List Action := List.replicate n (.task i .succeed)

/-- Start, submit job 7, and run its first tick up to the spawning of its task. -/
def launch : List Action :=
  schedule 2 ++ [.serve, .submit 7 labDocument "user" "key" none, .tick] ++ schedule 27

end Action

end TrexCli
