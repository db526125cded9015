import Mathlib.Logic.Function.Basic
import TrexCli.Agent.System
import TrexCli.Jobs.EventLogs
import TrexCli.Jobs.Effects
import TrexCli.Jobs.TickContract
import TrexCli.Jobs.RecoverContract

/-!
# Runs of the agent with the views of its coroutines

The contracts speak of views, which are no part of the agent's state. `History` records them as ghost
state, and `Step` lists once what a step of the agent can be, with the call that a coroutine makes
and what its contract says of it. `Inv` is the invariant of every run: each coroutine is in order from
its recorded view, the scheduler's view is true of the state, and everything that can still change a
job belongs to a task whose start the job's log records.
-/

namespace TrexCli

/-! ### What a log says for good -/

/-- An execution of the job has begun. -/
def Ran (db : Db) (j : JobId) : Prop :=
  ∃ r s, db.logOf j r = some s ∧ s.state.recoverable = false

/-- A cancel of the job has been requested. -/
def Flagged (db : Db) (j : JobId) : Prop :=
  ∃ r s, db.logOf j r = some s ∧ s.cancelRequested = true

section Log

variable {db db' : Db} {j : JobId}

theorem Ran.extends (h : Ran db j) (hext : db.Extends db') : Ran db' j :=
  let ⟨r, s, hs, hstate⟩ := h
  ⟨r, s, hext _ _ _ hs, hstate⟩

theorem Flagged.extends (h : Flagged db j) (hext : db.Extends db') : Flagged db' j :=
  let ⟨r, s, hs, hflag⟩ := h
  ⟨r, s, hext _ _ _ hs, hflag⟩

theorem Ran.row (h : Ran db j) (hlogs : WrittenLogs db) {row : JobRow}
    (hrow : db.jobs.get j = some row) : row.snapshot.state.recoverable = false :=
  let ⟨_, _, hs, hstate⟩ := h
  Writes.ran_of_chain (hlogs.chain_row hs hrow) hstate

theorem Flagged.row (h : Flagged db j) (hlogs : WrittenLogs db) {row : JobRow}
    (hrow : db.jobs.get j = some row) : row.snapshot.cancelRequested = true :=
  let ⟨_, _, hs, hflag⟩ := h
  Writes.cancelRequested_of_chain (hlogs.chain_row hs hrow) hflag

theorem ran_of_known {known : Known} (hknown : known.Holds db) {s : JobSnapshot} (hs : s ∈ known)
    (hstate : s.state.recoverable = false) : Ran db s.jobId :=
  ⟨_, s, hknown s hs, hstate⟩

theorem flagged_of_known {known : Known} (hknown : known.Holds db) {s : JobSnapshot}
    (hs : s ∈ known) (hflag : s.cancelRequested = true) : Flagged db s.jobId :=
  ⟨_, s, hknown s hs, hflag⟩

/-- The log records why a task of the kind was started. -/
def Begun (db : Db) (j : JobId) : TaskKind → Prop
  | .execute _ => Ran db j
  | .finishCancel => Flagged db j
  | .reportProgress .. => True

theorem Begun.extends {kind : TaskKind} (h : Begun db j kind) (hext : db.Extends db') :
    Begun db' j kind := by
  cases kind with
  | execute => exact Ran.extends h hext
  | finishCancel => exact Flagged.extends h hext
  | reportProgress => exact h

/-- A transaction that a task has left behind. -/
def Abandoned (db : Db) (c : StoreCall) : Prop :=
  ∃ job kind, ∃ v : TaskView, v.known.Holds db ∧ WritesOver v.known c ∧ OwnCall job kind v c ∧
    Begun db job kind

theorem Abandoned.extends {c : StoreCall} (h : Abandoned db c) (hext : db.Extends db') :
    Abandoned db' c :=
  let ⟨job, kind, v, hknown, hover, hown, hbegun⟩ := h
  ⟨job, kind, v, hknown.extends hext, hover, hown, hbegun.extends hext⟩

/-- A task writes only for a job whose log says that it has been started or cancelled. -/
theorem touched_of_own {job : JobId} {kind : TaskKind} {v : TaskView} {c : StoreCall}
    (hknown : v.known.Holds db) (hown : OwnCall job kind v c) (hbegun : Begun db job kind)
    (hj : c.target = some j) : Ran db j ∨ Flagged db j := by
  obtain rfl := hown.target hj
  cases kind with
  | execute => exact .inl hbegun
  | finishCancel => exact .inr hbegun
  | reportProgress =>
    cases c with
    | updateSnapshot s =>
      obtain ⟨-, a, ha, rfl, hstate⟩ := hown.2.2 rfl
      exact .inl (ran_of_known hknown ha (by rw [hstate]; rfl))
    | releasePorts => exact absurd hown.2.1 (by simp [TaskKind.isReport])
    | saveExecutionMarker m =>
      obtain ⟨-, -, fence, hkind, -⟩ := hown
      cases hkind
    | deleteExecutionMarker => exact absurd hown.2 (by simp [TaskKind.isExecute])
    | acquirePorts => exact hown.elim
    | _ => cases hj

theorem Abandoned.touched {c : StoreCall} (h : Abandoned db c) (hj : c.target = some j) :
    Ran db j ∨ Flagged db j :=
  let ⟨_, _, _, hknown, _, hown, hbegun⟩ := h
  touched_of_own hknown hown hbegun hj

end Log

/-! ### Steps -/

/-- The views of the tasks, of the tick and of the recovery. -/
structure History where
  task : Nat → TaskView
  tick : TickView
  recover : RecoverView

namespace History

def setTask (h : History) (i : Nat) (v : TaskView) : History :=
  { h with task := Function.update h.task i v }

end History

/-- What a step of the agent can be. -/
inductive Step (config : AgentConfig) (s : Agent) (h : History) :
    Action → Agent → History → Prop where
  | submit (job : JobId) (document : JobDocument) (principal idempotencyKey : String)
      (retryOf : Option JobId) (hserving : s.serving = true) :
      Step config s h (.submit job document principal idempotencyKey retryOf)
        { s with
          db := (submit config s.db job document principal idempotencyKey retryOf s.now).2 } h
  | requestCancel (job : JobId) (requestId principal reason : String) (cancelling : List JobId)
      (hserving : s.serving = true) :
      Step config s h (.requestCancel job requestId principal reason)
        { s with db := (s.db.requestCancel job requestId principal reason).2, cancelling } h
  | ignored (job : JobId) (cancelling : List JobId)
      (hdone : ∀ i e t, s.interrupts (.cancelTask job) = some (i, e) → s.tasks[i]? = some t →
        t.program.done = true) :
      Step config s h (.cancelTask job) { s with cancelling } h
  | thrown (a : Action) (i : Nat) (t t' : AgentTask) (l : Site) (c : Call)
      (k : Except Exc c.Res → Task (Except Exc Unit × Unit)) (e : Exc) (cancelling : List JobId)
      (v : TaskView) (ha : s.interrupts a = some (i, e)) (hi : s.tasks[i]? = some t)
      (hp : t.program = .await l c k) (hthrown : Thrown l c e) (hjob : t'.job = t.job)
      (hkind : t'.kind = t.kind) (hp' : t'.program = k (.error e))
      (hpre : (taskContract t.job t.kind).pre (h.task i) l c)
      (hpost : (taskContract t.job t.kind).post (h.task i) l c (.error e) v)
      (hknown : v.known.Holds s.db) :
      Step config s h a
        { s with
          tasks := s.tasks.set i t', late := s.late ++ c.transaction?.toList, cancelling }
        (h.setTask i v)
  | taskStore (i : Nat) (answers : Answers) (t : AgentTask) (l : Site) (c : StoreCall)
      (k : Except Exc c.Res → Task (Except Exc Unit × Unit)) (v : TaskView)
      (hi : s.tasks[i]? = some t) (hp : t.program = .await l (.store c) k)
      (hpre : (taskContract t.job t.kind).pre (h.task i) l (.store c))
      (hpost : (taskContract t.job t.kind).post (h.task i) l (.store c) (c.exec s.db).1 v)
      (hlogs : WrittenLogs (c.exec s.db).2) (hext : s.db.Extends (c.exec s.db).2)
      (hknown : v.known.Holds (c.exec s.db).2) :
      Step config s h (.task i answers)
        { s with
          db := (c.exec s.db).2
          tasks := s.tasks.set i { t with program := k (c.exec s.db).1 } }
        (h.setTask i v)
  | taskCall (i : Nat) (answers : Answers) (t : AgentTask) (l : Site) (c : Call)
      (k : Except Exc c.Res → Task (Except Exc Unit × Unit)) (r : Except Exc c.Res) (v : TaskView)
      (hi : s.tasks[i]? = some t) (hp : t.program = .await l c k) (hc : c.transaction? = none)
      (hraises : ∀ e, r = .error e → e.isException = true)
      (hpost : (taskContract t.job t.kind).post (h.task i) l c r v) (hknown : v.known.Holds s.db) :
      Step config s h (.task i answers)
        { s with tasks := s.tasks.set i { t with program := k r } } (h.setTask i v)
  | tickStore (answers : Answers) (l : Site) (c : StoreCall)
      (k : Except Exc c.Res → Task (Except Exc Unit × Unit)) (v : TickView)
      (hserving : s.serving = true) (hp : s.scheduler = .await l (.store c) k)
      (hpre : tickContract.pre h.tick l (.store c))
      (hpost : tickContract.post h.tick l (.store c) (c.exec s.db).1 v)
      (hlogs : WrittenLogs (c.exec s.db).2) (hext : s.db.Extends (c.exec s.db).2)
      (hknown : v.known.Holds (c.exec s.db).2) :
      Step config s h (.scheduler answers)
        { s with db := (c.exec s.db).2, scheduler := k (c.exec s.db).1 } { h with tick := v }
  | tickIsActive (answers : Answers) (l : Site) (job : JobId)
      (k : Except Exc Bool → Task (Except Exc Unit × Unit)) (v : TickView)
      (hserving : s.serving = true) (hp : s.scheduler = .await l (.isActive job) k)
      (hpost : tickContract.post h.tick l (.isActive job)
        (.ok (s.active.any fun a => a.1 = job)) v) (hknown : v.known.Holds s.db) :
      Step config s h (.scheduler answers)
        { s with scheduler := k (.ok (s.active.any fun a => a.1 = job)) } { h with tick := v }
  | tickDropDone (answers : Answers) (l : Site)
      (k : Except Exc Unit → Task (Except Exc Unit × Unit)) (v : TickView)
      (hserving : s.serving = true) (hp : s.scheduler = .await l .dropDone k)
      (hpost : tickContract.post h.tick l .dropDone (.ok ()) v) (hknown : v.known.Holds s.db) :
      Step config s h (.scheduler answers)
        { s with active := s.active.filter fun a => !s.taskDone a.2, scheduler := k (.ok ()) }
        { h with tick := v }
  | tickSpawn (answers : Answers) (l : Site) (job : JobId) (kind : TaskKind)
      (k : Except Exc Unit → Task (Except Exc Unit × Unit)) (v : TickView)
      (hserving : s.serving = true) (hp : s.scheduler = .await l (.spawn job kind) k)
      (hpre : tickContract.pre h.tick l (.spawn job kind))
      (hpost : tickContract.post h.tick l (.spawn job kind) (.ok ()) v)
      (hknown : v.known.Holds s.db) :
      Step config s h (.scheduler answers) { s.spawn config job kind with scheduler := k (.ok ()) }
        { h.setTask s.tasks.length { known := v.known } with tick := v }
  | tickCall (answers : Answers) (l : Site) (c : Call)
      (k : Except Exc c.Res → Task (Except Exc Unit × Unit)) (r : Except Exc c.Res) (v : TickView)
      (hserving : s.serving = true) (hp : s.scheduler = .await l c k) (hc : c.transaction? = none)
      (hactive : ∀ job, c ≠ .isActive job) (hdrop : c ≠ .dropDone)
      (hspawn : ∀ job kind, c ≠ .spawn job kind)
      (hpost : tickContract.post h.tick l c r v) (hknown : v.known.Holds s.db) :
      Step config s h (.scheduler answers) { s with scheduler := k r } { h with tick := v }
  | recoverStore (answers : Answers) (l : Site) (c : StoreCall)
      (k : Except Exc c.Res → Task (Except Exc Unit × Unit)) (v : RecoverView)
      (hserving : s.serving = false) (hp : s.scheduler = .await l (.store c) k)
      (hpre : recoverContract.pre h.recover l (.store c))
      (hpost : recoverContract.post h.recover l (.store c) (c.exec s.db).1 v)
      (hlogs : WrittenLogs (c.exec s.db).2) (hext : s.db.Extends (c.exec s.db).2)
      (hknown : v.known.Holds (c.exec s.db).2) :
      Step config s h (.scheduler answers)
        { s with db := (c.exec s.db).2, scheduler := k (c.exec s.db).1 } { h with recover := v }
  | recoverCall (answers : Answers) (l : Site) (c : Call)
      (k : Except Exc c.Res → Task (Except Exc Unit × Unit)) (r : Except Exc c.Res)
      (v : RecoverView) (hserving : s.serving = false) (hp : s.scheduler = .await l c k)
      (hc : c.transaction? = none) (hpost : recoverContract.post h.recover l c r v)
      (hknown : v.known.Holds s.db) :
      Step config s h (.scheduler answers) { s with scheduler := k r } { h with recover := v }
  | serve (x : Unit) (hserving : s.serving = false) (hp : s.scheduler = .ret (.ok (), x)) :
      Step config s h .serve { s with serving := true } { h with tick := {} }
  | tick (hserving : s.serving = true) (hdone : s.scheduler.done = true) :
      Step config s h .tick { s with scheduler := tick config .body () } h
  | late (n : Nat) (c : StoreCall) (hn : s.late[n]? = some c)
      (hlogs : WrittenLogs (c.exec s.db).2) (hext : s.db.Extends (c.exec s.db).2) :
      Step config s h (.late n) { s with db := (c.exec s.db).2, late := s.late.eraseIdx n } h
  | reportProgress (job : JobId) (update : List (String × Json)) (completed : Nat)
      (total : Option Nat) (hserving : s.serving = true) :
      Step config s h (.reportProgress job update completed total)
        { s with
          tasks := s.tasks ++ [{
            job, kind := .reportProgress update completed total
            program := taskProgram config job (.reportProgress update completed total) .body () }] }
        (h.setTask s.tasks.length {})
  | advance (milliseconds : Nat) :
      Step config s h (.advance milliseconds) { s with now := s.now + milliseconds } h
  | crash :
      Step config s h .crash
        { s with
          tasks := [], active := [], scheduler := recover .body (), serving := false, late := []
          cancelling := [] }
        { h with recover := {} }

/-! ### The invariant -/

/-- No execution of the job has begun, and nothing can change it but users and the scheduler. -/
structure Untouched (s : Agent) (j : JobId) : Prop where
  early : ∀ r x, s.db.logOf j r = some x → x.state.early = true
  late : ∀ c ∈ s.late, c.target ≠ some j
  marker : s.db.markers.get j = none

/-- The job has a task in `self._active`. -/
def Active (s : Agent) (j : JobId) : Prop := ∃ i, (j, i) ∈ s.active

/-- The view of the tick is true of the state. -/
structure TickFacts (s : Agent) (v : TickView) : Prop where
  known : v.known.Holds s.db
  inactive : ∀ j ∈ v.inactive, ¬ Active s j
  untouched : ∀ j ∈ v.untouched, Active s j ∨ Untouched s j
  granted : ∀ j fence, v.granted = some (j, fence) →
    Active s j ∨ Untouched s j ∧ ∀ p g, (p, g) ∈ fence → s.db.leases.HeldBy p j

/-- A task is in order, and the log records its start. -/
structure TaskFacts (s : Agent) (v : TaskView) (t : AgentTask) : Prop where
  known : v.known.Holds s.db
  ok : t.program.Ok (taskContract t.job t.kind) (fun _ v => Settled t.kind v) v
  begun : Begun s.db t.job t.kind

/-- An execution that holds its ports holds all ports of its fence. -/
def HoldsFence (s : Agent) (v : TaskView) (t : AgentTask) : Prop :=
  ∀ fence, t.kind = .execute fence → t.program.done = false → v.holding = true →
    (∀ p g, (p, g) ∈ fence → s.db.leases.HeldBy p t.job) ∧
      ∀ quarantine, .releasePorts t.job quarantine ∉ s.late

/-- The task is live and not a report of progress. -/
def Live (t : AgentTask) : Prop := t.program.done = false ∧ t.kind.isReport = false

structure Inv (s : Agent) (h : History) : Prop where
  logs : WrittenLogs s.db
  leases : s.db.leases.Wf
  markers : ∀ j m, s.db.markers.get j = some m → Ran s.db j
  late : ∀ c ∈ s.late, Abandoned s.db c
  task : ∀ i t, s.tasks[i]? = some t → TaskFacts s (h.task i) t
  holds : ∀ i t, s.tasks[i]? = some t → HoldsFence s (h.task i) t
  registered : ∀ i t, s.tasks[i]? = some t → Live t → (t.job, i) ∈ s.active
  keys : (s.active.map Prod.fst).Nodup
  pointed : ∀ j i, (j, i) ∈ s.active →
    ∃ t, s.tasks[i]? = some t ∧ t.job = j ∧ t.kind.isReport = false
  recovering : s.serving = false → s.tasks = [] ∧ s.active = [] ∧ s.late = [] ∧
    h.recover.known.Holds s.db ∧
    s.scheduler.Ok recoverContract (fun x v => Recovered x.1 v) h.recover
  ticking : s.serving = true → TickFacts s h.tick ∧
    s.scheduler.Ok tickContract (fun _ v => v.owing = none) h.tick

section Trace

variable {config : AgentConfig} {s s' : Agent} {h : History}

/-- The answer of a service beside the store. -/
theorem outside_eq_some {α : Type} {answer r : Except Exc α} (hr : s.outside answer = some (r, s')) :
    s' = s ∧ r = answer ∧ ∀ e, r = .error e → e.isException = true := by
  unfold Agent.outside at hr
  split at hr
  · obtain ⟨rfl, rfl⟩ := Prod.mk.inj (Option.some.inj hr)
    exact ⟨rfl, rfl, nofun⟩
  · split at hr
    · rename_i he
      obtain ⟨rfl, rfl⟩ := Prod.mk.inj (Option.some.inj hr)
      refine ⟨rfl, rfl, fun e' he' => ?_⟩
      obtain rfl := Except.error.inj he'
      exact he
    · cases hr

/-- The answer to a call that is neither a store method nor one of the event loop's table of tasks:
the state stays, and an exception is one the call raises. -/
theorem exec_eq_some {answers : Answers} {c : Call} {r : Except Exc c.Res}
    (hr : s.exec config answers c = some (r, s')) (hc : c.transaction? = none)
    (hdrop : c ≠ .dropDone) (hspawn : ∀ job kind, c ≠ .spawn job kind) (known : Known) :
    s' = s ∧ ∀ e, r = .error e → c.Raises known e := by
  cases c with
  | store c => cases hc
  | dropDone => exact absurd rfl hdrop
  | spawn job kind => exact absurd rfl (hspawn job kind)
  | engine | validatePolicy | validateCalibration | recordCalibrations | buildResultBundle =>
    obtain ⟨hs, -, he⟩ := outside_eq_some hr
    exact ⟨hs, he⟩
  | notify | start | now | isActive | activeCount =>
    obtain ⟨rfl, rfl⟩ := Prod.mk.inj (Option.some.inj hr)
    exact ⟨rfl, nofun⟩

theorem Call.Raises.isException {c : Call} {known : Known} {e : Exc} (h : c.Raises known e)
    (hc : c.transaction? = none) : e.isException = true := by
  cases c with
  | store c => cases hc
  | engine | validatePolicy | validateCalibration | recordCalibrations | buildResultBundle => exact h
  | _ => exact h.elim

/-- The learning part of a contract, for a call that is no store method. -/
theorem logContract_post {known : Known} {l : Site} {c : Call} {r : Except Exc c.Res}
    (hc : c.transaction? = none) : logContract.post known l c r known := by
  cases c with
  | store c => cases hc
  | _ => exact ⟨subset_rfl, trivial⟩

/-- Throwing an exception into a task: it is suspended, and its transaction is left over. -/
theorem throwInto_step (hinv : Inv s h) {a : Action} {i : Nat} {t t' : AgentTask} {e : Exc}
    {cancelling : List JobId} (ha : s.interrupts a = some (i, e)) (hi : s.tasks[i]? = some t)
    (hs : ({ s with cancelling } : Agent).throwInto i t' e = some s')
    (hjob : t'.job = t.job) (hkind : t'.kind = t.kind) (hprogram : t'.program = t.program)
    (he : ∀ l c k, t.program = .await l c k → e = .cancelled ∨ e = .expired ∧ l ≠ .timedOut) :
    ∃ h', Step config s h a s' h' := by
  unfold Agent.throwInto at hs
  rw [hprogram] at hs
  split at hs
  · cases hs
  · rename_i l c k hp
    split at hs
    · rename_i hsuspends
      obtain rfl := Option.some.inj hs
      have hthrown : Thrown l c e := ⟨hsuspends, he l c k hp⟩
      have hfacts := hinv.task i t hi
      have hok := hfacts.ok
      rw [hp] at hok
      refine ⟨_, .thrown a i t _ l c k e cancelling
        { (h.task i).next l c (.error e) with known := (h.task i).known } ha hi hp hthrown hjob hkind
        rfl hok.1 ⟨?_, rfl, ?_⟩ hfacts.known⟩
      · refine ⟨subset_rfl, ?_⟩
        cases c with
        | store c => cases c <;> trivial
        | _ => trivial
      · rintro e' he'
        exact .inr (Except.error.inj he' ▸ hthrown)
    · cases hs

theorem cancelTask_step (hinv : Inv s h) {job : JobId}
    (hs : s.step config (.cancelTask job) = some s') :
    ∃ h', Step config s h (.cancelTask job) s' h' := by
  simp only [Agent.step] at hs
  split at hs
  · rename_i hmem
    have hinterrupts : s.interrupts (.cancelTask job) =
        (s.active.find? fun a => a.1 = job).map fun a => (a.2, .cancelled) := by
      simp only [Agent.interrupts, if_pos hmem]
    split at hs
    · rename_i hfind
      obtain rfl := Option.some.inj hs
      refine ⟨h, .ignored job _ fun i e t ha _ => ?_⟩
      rw [hinterrupts, hfind] at ha
      cases ha
    · rename_i j i hfind
      rw [hfind] at hinterrupts
      split at hs
      · rename_i hi
        obtain rfl := Option.some.inj hs
        refine ⟨h, .ignored job _ fun n e t ha ht => ?_⟩
        obtain ⟨rfl, -⟩ := Prod.mk.inj (Option.some.inj (hinterrupts.symm.trans ha))
        rw [hi] at ht
        cases ht
      · rename_i t hi
        split at hs
        · rename_i hdone
          obtain rfl := Option.some.inj hs
          refine ⟨h, .ignored job _ fun n e u ha hu => ?_⟩
          obtain ⟨rfl, -⟩ := Prod.mk.inj (Option.some.inj (hinterrupts.symm.trans ha))
          obtain rfl := Option.some.inj (hi.symm.trans hu)
          exact hdone
        · exact throwInto_step hinv hinterrupts hi hs rfl rfl rfl fun _ _ _ _ => .inl rfl
  · cases hs

theorem deadline_step (hinv : Inv s h) {i : Nat} (hs : s.step config (.deadline i) = some s') :
    ∃ h', Step config s h (.deadline i) s' h' := by
  simp only [Agent.step] at hs
  split at hs
  · cases hs
  · rename_i t hi
    split at hs
    · rename_i harmed
      refine throwInto_step hinv ?_ hi hs rfl rfl rfl fun l c k hp => ?_
      · simp [Agent.interrupts, hi, harmed]
      · split
        · exact .inl rfl
        · refine .inr ⟨rfl, ?_⟩
          rintro rfl
          unfold Agent.armed at harmed
          rw [hp] at harmed
          split at harmed
          · cases harmed
          · rename_i heq
            cases heq
            simp at harmed
          · cases harmed
    · cases hs

theorem task_step (hinv : Inv s h) {i : Nat} {answers : Answers}
    (hs : s.step config (.task i answers) = some s') :
    ∃ h', Step config s h (.task i answers) s' h' := by
  simp only [Agent.step] at hs
  split at hs
  · cases hs
  · rename_i t hi
    split at hs
    · cases hs
    · rename_i l c k hp
      have hfacts := hinv.task i t hi
      have hok := hfacts.ok
      rw [hp] at hok
      split at hs
      · cases hs
      · rename_i r s₁ hr
        obtain rfl := Option.some.inj hs
        by_cases hc : c.transaction? = none
        · have hcall : (∀ job, c ≠ .isActive job) ∧ c ≠ .dropDone ∧ ∀ job kind, c ≠ .spawn job kind := by
            refine ⟨?_, ?_, ?_⟩
            · rintro job rfl
              exact hok.1
            · rintro rfl
              exact hok.1
            · rintro job kind rfl
              exact hok.1
          obtain ⟨rfl, hraises⟩ := exec_eq_some hr hc hcall.2.1 hcall.2.2 (h.task i).known
          exact ⟨_, .taskCall i answers t l c k r
            { (h.task i).next l c r with known := (h.task i).known } hi hp hc
            (fun e he => (hraises e he).isException hc) ⟨logContract_post hc, rfl, fun e he => .inl (hraises e he)⟩ hfacts.known⟩
        · cases c with
          | store c =>
            obtain ⟨rfl, rfl⟩ := Prod.mk.inj (Option.some.inj hr)
            obtain ⟨hlogs, hext, known, ha⟩ := exec_written hinv.logs hfacts.known c hok.1.1
            exact ⟨_, .taskStore i answers t l c k
              { (h.task i).next l (.store c) (c.exec s.db).1 with known } hi hp hok.1
              ⟨⟨ha.grows, ha.learns⟩, rfl, fun e he => .inl (ha.raises e he)⟩ hlogs hext ha.holds⟩
          | _ => exact absurd rfl hc

theorem scheduler_step (hinv : Inv s h) {answers : Answers}
    (hs : s.step config (.scheduler answers) = some s') :
    ∃ h', Step config s h (.scheduler answers) s' h' := by
  simp only [Agent.step] at hs
  split at hs
  · cases hs
  · rename_i l c k hp
    split at hs
    · cases hs
    · rename_i r s₁ hr
      obtain rfl := Option.some.inj hs
      cases hserving : s.serving with
      | false =>
        obtain ⟨-, -, -, hknown, hok⟩ := hinv.recovering hserving
        rw [hp] at hok
        by_cases hc : c.transaction? = none
        · have hcall : c ≠ .dropDone ∧ ∀ job kind, c ≠ .spawn job kind := by
            refine ⟨?_, ?_⟩
            · rintro rfl
              exact hok.1
            · rintro job kind rfl
              exact hok.1
          obtain ⟨rfl, hraises⟩ := exec_eq_some hr hc hcall.1 hcall.2 h.recover.known
          exact ⟨_, .recoverCall answers l c k r { h.recover.next c r with known := h.recover.known }
            hserving hp hc ⟨logContract_post hc, rfl, hraises⟩ hknown⟩
        · cases c with
          | store c =>
            obtain ⟨rfl, rfl⟩ := Prod.mk.inj (Option.some.inj hr)
            obtain ⟨hlogs, hext, known, ha⟩ := exec_written hinv.logs hknown c hok.1.1
            exact ⟨_, .recoverStore answers l c k
              { h.recover.next (.store c) (c.exec s.db).1 with known } hserving hp hok.1
              ⟨⟨ha.grows, ha.learns⟩, rfl, ha.raises⟩ hlogs hext ha.holds⟩
          | _ => exact absurd rfl hc
      | true =>
        obtain ⟨hfacts, hok⟩ := hinv.ticking hserving
        rw [hp] at hok
        by_cases hactive : ∃ job, c = .isActive job
        · obtain ⟨job, rfl⟩ := hactive
          obtain ⟨rfl, rfl⟩ := Prod.mk.inj (Option.some.inj hr)
          exact ⟨_, .tickIsActive answers l job k
            { h.tick.next l (.isActive job) (.ok (s.active.any fun a => a.1 = job)) with
              known := h.tick.known }
            hserving hp ⟨logContract_post rfl, rfl, nofun⟩ hfacts.known⟩
        by_cases hdrop : c = .dropDone
        · obtain rfl := hdrop
          obtain ⟨rfl, rfl⟩ := Prod.mk.inj (Option.some.inj hr)
          exact ⟨_, .tickDropDone answers l k
            { h.tick.next l .dropDone (.ok ()) with known := h.tick.known } hserving hp
            ⟨logContract_post rfl, rfl, nofun⟩ hfacts.known⟩
        by_cases hspawn : ∃ job kind, c = .spawn job kind
        · obtain ⟨job, kind, rfl⟩ := hspawn
          obtain ⟨rfl, rfl⟩ := Prod.mk.inj (Option.some.inj hr)
          exact ⟨_, .tickSpawn answers l job kind k
            { h.tick.next l (.spawn job kind) (.ok ()) with known := h.tick.known } hserving hp hok.1
            ⟨logContract_post rfl, rfl, nofun⟩ hfacts.known⟩
        push Not at hactive hspawn
        by_cases hc : c.transaction? = none
        · obtain ⟨rfl, hraises⟩ := exec_eq_some hr hc hdrop hspawn h.tick.known
          exact ⟨_, .tickCall answers l c k r { h.tick.next l c r with known := h.tick.known }
            hserving hp hc hactive hdrop hspawn ⟨logContract_post hc, rfl, hraises⟩ hfacts.known⟩
        · cases c with
          | store c =>
            obtain ⟨rfl, rfl⟩ := Prod.mk.inj (Option.some.inj hr)
            obtain ⟨hlogs, hext, known, ha⟩ := exec_written hinv.logs hfacts.known c hok.1.1
            exact ⟨_, .tickStore answers l c k
              { h.tick.next l (.store c) (c.exec s.db).1 with known } hserving hp hok.1
              ⟨⟨ha.grows, ha.learns⟩, rfl, ha.raises⟩ hlogs hext ha.holds⟩
          | _ => exact absurd rfl hc

/-- Every step of the agent is a `Step`. -/
theorem step_traced (hinv : Inv s h) {a : Action} (hs : s.step config a = some s') :
    ∃ h', Step config s h a s' h' := by
  cases a with
  | submit job document principal idempotencyKey retryOf =>
    simp only [Agent.step] at hs
    split at hs
    · rename_i hserving
      obtain rfl := Option.some.inj hs
      exact ⟨h, .submit _ _ _ _ _ hserving⟩
    · cases hs
  | requestCancel job requestId principal reason =>
    simp only [Agent.step] at hs
    split at hs
    · rename_i hserving
      have hstep (cancelling : List JobId) :
          Step config s h (.requestCancel job requestId principal reason)
            { s with db := (s.db.requestCancel job requestId principal reason).2, cancelling } h :=
        .requestCancel job requestId principal reason cancelling hserving
      split at hs
      · rename_i snapshot db heq
        obtain rfl := Option.some.inj hs
        rw [heq] at hstep
        exact ⟨h, hstep _⟩
      · rename_i e db heq
        obtain rfl := Option.some.inj hs
        rw [heq] at hstep
        exact ⟨h, hstep _⟩
    · cases hs
  | cancelTask job => exact cancelTask_step hinv hs
  | deadline i => exact deadline_step hinv hs
  | task i answers => exact task_step hinv hs
  | scheduler answers => exact scheduler_step hinv hs
  | serve =>
    simp only [Agent.step] at hs
    split at hs
    · rename_i u x hserving hp
      obtain rfl := Option.some.inj hs
      exact ⟨_, .serve x hserving hp⟩
    · cases hs
  | tick =>
    simp only [Agent.step] at hs
    split at hs
    · rename_i hcond
      obtain ⟨hserving, hdone⟩ := Bool.and_eq_true_iff.mp hcond
      obtain rfl := Option.some.inj hs
      exact ⟨h, .tick hserving hdone⟩
    · cases hs
  | late n =>
    simp only [Agent.step] at hs
    split at hs
    · cases hs
    · rename_i c hn
      obtain rfl := Option.some.inj hs
      obtain ⟨job, kind, v, hknown, hover, -⟩ := hinv.late c (List.mem_of_getElem? hn)
      obtain ⟨hlogs, hext, -⟩ := exec_written hinv.logs hknown c hover
      exact ⟨h, .late n c hn hlogs hext⟩
  | reportProgress job update completed total =>
    simp only [Agent.step] at hs
    split at hs
    · rename_i hserving
      obtain rfl := Option.some.inj hs
      exact ⟨_, .reportProgress job update completed total hserving⟩
    · cases hs
  | advance milliseconds =>
    obtain rfl := Option.some.inj hs
    exact ⟨h, .advance milliseconds⟩
  | crash =>
    obtain rfl := Option.some.inj hs
    exact ⟨_, .crash⟩

end Trace

end TrexCli
