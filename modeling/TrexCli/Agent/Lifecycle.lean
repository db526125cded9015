import TrexCli.Agent.Moves
import TrexCli.Jobs.LifeContract
import TrexCli.Jobs.ScheduleContract

/-!
# How a run moves its jobs

`LifeInv` adds to `Inv` what the contracts about the lifecycle say, from views of their own: every
event log is a chain of moves, what is left over moves along the diagram too, and a task that knows
the state of its job is right about it. The last is the point: a job with a live execution is moved
by nobody else, since the scheduler writes only to jobs without a task, reports of progress repeat
`RUNNING`, and a cancel request keeps the state.
-/

namespace TrexCli

open Relation (ReflTransGen)

/-- The row of the job shows the state. -/
def InState (db : Db) (j : JobId) (state : JobState) : Prop :=
  ∃ row, db.jobs.get j = some row ∧ row.snapshot.state = state

/-- The job is in the state, and no transaction that is left over writes to its log. -/
structure Owned (s : Agent) (j : JobId) (state : JobState) : Prop where
  row : InState s.db j state
  late : ∀ x e t r, .updateSnapshot x e t r ∈ s.late → x.jobId ≠ j

/-- A task is in order, and what it knows of its job is true. -/
structure LifeFacts (D : Prop) (s : Agent) (v : LifeView) (t : AgentTask) : Prop where
  known : v.known.Holds s.db
  ok : t.program.Ok (lifeContract D t.job t.kind) (fun _ _ => True) v
  owned : Live t → ∀ state, v.state = some state → Owned s t.job state
  report : t.kind.isReport = true → v.state = none

/-- The scheduler is in order, and what it knows of the active tasks is true. -/
def ScheduleFacts (config : AgentConfig) (s : Agent) : Prop :=
  ∃ v : ScheduleView, v.known.Holds s.db ∧
    (v.room = true → s.active.length < config.maxConcurrentJobs) ∧
    s.scheduler.Ok (scheduleContract config.maxConcurrentJobs) (fun _ _ => True) v

structure LifeInv (config : AgentConfig) (D : Prop) (s : Agent) (views : Nat → LifeView) :
    Prop where
  paths : Paths D s.db
  late : ∀ c ∈ s.late, ∃ known : Known, known.Holds s.db ∧ MovesOver D known c
  task : ∀ i t, s.tasks[i]? = some t → LifeFacts D s (views i) t
  schedule : ScheduleFacts config s

/-- The log of the job shows that it has drained since its cancel request, or has ended. -/
def DrainedLog (db : Db) (j : JobId) : Prop :=
  ∃ r b, db.logOf j r = some b ∧ (b.state.terminal = true ∨ CancelDrains b)

/-- When `_finish_cancel` looks at a job again after its drain step, the job has drained or ended. -/
def FindsDrained (s : Agent) : Action → Prop
  | .task i _ => ∀ t j k, s.tasks[i]? = some t →
    t.program = .await .drained (.store (.getSnapshot j)) k → DrainedLog s.db j
  | _ => True

section Rows

variable {db : Db} {j : JobId} {state : JobState}

/-- A transaction that writes to no row of the job, or repeats its state, keeps it. -/
theorem InState.exec (h : InState db j state) (hlogs : WrittenLogs db) {c : StoreCall}
    (hc : ∀ x e t r, c = .updateSnapshot x e t r → x.jobId = j →
      ∃ known : Known, known.Holds db ∧ Repeats known c) : InState (c.exec db).2 j state := by
  obtain ⟨row, hrow, hstate⟩ := h
  by_cases htarget : c.target = some j
  · cases c with
    | updateSnapshot x expectedRevision eventType resolvedSpecJson =>
      obtain rfl : x.jobId = j := Option.some.inj htarget
      obtain ⟨known, hknown, a, ha, hjob, harev, hastate⟩ := hc _ _ _ _ rfl rfl
      have hcase := db.updateSnapshot_cases x expectedRevision eventType resolvedSpecJson
      simp only [StoreCall.exec]
      generalize db.updateSnapshot _ _ _ _ = y at hcase
      cases hcase with
      | conflict | taken => exact ⟨row, hrow, hstate⟩
      | updated db' row' hrow' hrev happ =>
        obtain rfl := Option.some.inj (hrow.symm.trans hrow')
        rw [← hjob] at hrow
        have hsame := known_of_row hlogs hknown ha hrow (hrev.trans harev.symm)
        obtain ⟨row'', hrow'', hsnap, -⟩ := happ.row
        exact ⟨row'', hrow'', by rw [hsnap, ← hastate, ← hsame, hstate]⟩
    | _ => exact ⟨row, hrow, hstate⟩
  · exact ⟨row, by rw [c.get_jobs_of_ne htarget, hrow], hstate⟩

theorem InState.submit (h : InState db j state) (config : AgentConfig) (job : JobId)
    (document : JobDocument) (principal idempotencyKey : String) (retryOf : Option JobId)
    (now : Instant) :
    InState (submit config db job document principal idempotencyKey retryOf now).2 j state := by
  obtain ⟨row, hrow, hstate⟩ := h
  unfold TrexCli.submit
  have hcase := db.createJob_cases
    (acceptedSnapshot job document.kind (config.sha256Text document.canonical) retryOf now)
    principal idempotencyKey document retryOf
  generalize db.createJob _ principal idempotencyKey document retryOf = x at hcase
  cases hcase with
  | refused | found => exact ⟨row, hrow, hstate⟩
  | created db' hnew happ =>
    refine ⟨row, ?_, hstate⟩
    rw [happ.rest j, hrow]
    rintro rfl
    have hnone : db.jobs.get j = none := hnew
    rw [hrow] at hnone
    cases hnone

theorem InState.requestCancel (h : InState db j state) (hlogs : WrittenLogs db) (job : JobId)
    (requestId principal reason : String) :
    InState (db.requestCancel job requestId principal reason).2 j state := by
  obtain ⟨row, hrow, hstate⟩ := h
  have hcase := db.requestCancel_cases job
    (fun row hrow => ⟨(hlogs.row job row hrow).1, (hlogs.row job row hrow).2.2.1⟩)
    requestId principal reason
  generalize db.requestCancel job requestId principal reason = x at hcase
  cases hcase with
  | refused | kept => exact ⟨row, hrow, hstate⟩
  | requested db' row' hrow' hlive happ =>
    have hjob : row'.snapshot.jobId = job := (hlogs.row job row' hrow').2.2.1
    by_cases hj : j = job
    · subst hj
      obtain rfl := Option.some.inj (hrow.symm.trans hrow')
      obtain ⟨row'', hrow'', hsnap, -⟩ := happ.row
      rw [show (Db.cancelRequestedOf row.snapshot).jobId = j from hjob] at hrow''
      exact ⟨row'', hrow'', by rw [hsnap]; exact hstate⟩
    · refine ⟨row, ?_, hstate⟩
      rw [happ.rest j, hrow]
      exact fun heq => hj (heq.trans hjob)

end Rows

section Step

variable {config : AgentConfig} {D : Prop} {s s' : Agent} {h h' : History} {a : Action}
variable {views : Nat → LifeView}

/-- Only the tasks that the scheduler has made are interrupted. -/
theorem interrupts_notReport (hinv : Inv s h) {i : Nat} {e : Exc} {t : AgentTask}
    (ha : s.interrupts a = some (i, e)) (hi : s.tasks[i]? = some t) : t.kind.isReport = false := by
  cases a with
  | cancelTask job =>
    simp only [Agent.interrupts] at ha
    split at ha
    · obtain ⟨⟨j, n⟩, hfind, heq⟩ := Option.map_eq_some_iff.mp ha
      obtain ⟨rfl, -⟩ := Prod.mk.inj heq
      obtain ⟨t', ht', -, hreport⟩ := hinv.pointed j n (List.mem_of_find?_eq_some hfind)
      obtain rfl := Option.some.inj (hi.symm.trans ht')
      exact hreport
    · cases ha
  | deadline n =>
    simp only [Agent.interrupts] at ha
    split at ha
    · rename_i t' ht'
      split at ha
      · rename_i harmed
        obtain ⟨rfl, -⟩ := Prod.mk.inj (Option.some.inj ha)
        obtain rfl := Option.some.inj (hi.symm.trans ht')
        cases hkind : t.kind with
        | reportProgress => simp [Agent.armed, hkind] at harmed
        | _ => rfl
      · cases ha
    · cases ha
  | _ => cases ha

/-- Another task than the live one of a job writes to the job's log only to repeat its state. -/
theorem repeats_of_other (hinv : Inv s h) (hlife : LifeInv config D s views) {i j : Nat}
    {t u : AgentTask} {l : Site} {c : StoreCall} {k} (hi : s.tasks[i]? = some t)
    (hp : t.program = .await l (.store c) k) (hown : OwnCall t.job t.kind (h.task i) c)
    (hj : s.tasks[j]? = some u) (hu : Live u) (hne : j ≠ i) :
    ∀ x e d r, c = .updateSnapshot x e d r → x.jobId = u.job →
      ∃ known : Known, known.Holds s.db ∧ Repeats known c := by
  rintro x e d r rfl hjob
  have hfacts := hlife.task i t hi
  have hcall := hfacts.ok
  rw [hp] at hcall
  refine ⟨_, hfacts.known, hcall.1.2 ?_⟩
  by_contra hreport
  have hlive : Live t := live_of_await hp (by simpa using hreport)
  exact hne (hinv.live_unique hj hi hu hlive (hjob.symm.trans hown.1))

/-- What an action lets run on: a task, by its index. -/
def Agent.resumes (s : Agent) : Action → Option Nat
  | .task i _ => some i
  | .reportProgress .. => some s.tasks.length
  | a => (s.interrupts a).map Prod.fst

/-- The view of a task after a step: the task has not run, has gone on with an answer, or is new. -/
inductive LifeStep (s : Agent) (a : Action) (views : Nat → LifeView) (i : Nat) (t' : AgentTask)
    (v' : LifeView) : Prop where
  | kept (hi : s.tasks[i]? = some t') (hview : v' = views i)
    (hrun : s.resumes a ≠ some i ∨ t'.program.done = true)
  | moved (t : AgentTask) (l : Site) (c : Call)
      (k : Except Exc c.Res → Task (Except Exc Unit × Unit)) (r : Except Exc c.Res)
      (hi : s.tasks[i]? = some t) (hp : t.program = .await l c k) (hjob : t'.job = t.job)
      (hkind : t'.kind = t.kind) (hprepared : v'.prepared = ((views i).next c r).prepared)
  | fresh (hi : i = s.tasks.length)

/-- What a task knows of its job stays true when others take a step. -/
theorem Owned.step (hinv : Inv s h) (hlife : LifeInv config D s views)
    (hstep : Step config s h a s' h') {j : Nat} {u : AgentTask} {state : JobState}
    (hj : s.tasks[j]? = some u) (hu : Live u) (hrun : s.resumes a ≠ some j)
    (hserving : s'.serving = true) (hown : Owned s u.job state) : Owned s' u.job state := by
  have hlogs := hinv.logs
  cases hstep with
  | submit => exact ⟨hown.row.submit .., hown.late⟩
  | requestCancel => exact ⟨hown.row.requestCancel hlogs .., hown.late⟩
  | thrown a i t t' l c k e cancelling v ha hi hp hthrown hjob hkind hp' hpre =>
    refine ⟨hown.row, fun x e' d r hmem hxjob => ?_⟩
    obtain hmem | hmem := List.mem_append.mp hmem
    · exact hown.late _ _ _ _ hmem hxjob
    · cases c with
      | store c =>
        obtain rfl := List.mem_singleton.mp hmem
        have hlive : Live t := live_of_await hp (interrupts_notReport hinv ha hi)
        obtain rfl := hinv.live_unique hj hi hu hlive (hxjob.symm.trans hpre.2.1)
        refine hrun ?_
        have hresumes : s.resumes a = (s.interrupts a).map Prod.fst := by
          cases a with
          | task | reportProgress => cases ha
          | _ => rfl
        rw [hresumes, ha]
        rfl
      | _ => cases hmem
  | taskStore i answers t l c k v hi hp hpre =>
    refine ⟨hown.row.exec hlogs (repeats_of_other hinv hlife hi hp hpre.2 hj hu ?_), hown.late⟩
    rintro rfl
    exact hrun rfl
  | tickStore answers l c k v hserving hp hpre =>
    refine ⟨hown.row.exec hlogs ?_, hown.late⟩
    rintro x e d r rfl hjob
    obtain ⟨-, hinactive, -⟩ := hpre
    exact absurd ⟨j, hinv.registered j u hj hu⟩
      (hjob ▸ (hinv.ticking hserving).1.inactive _ hinactive)
  | recoverStore answers l c k v hnot =>
    rw [(hinv.recovering hnot).1] at hj
    simp at hj
  | late n c hn =>
    refine ⟨hown.row.exec hlogs ?_, fun x e d r hmem => hown.late x e d r
      (List.mem_of_mem_eraseIdx hmem)⟩
    rintro x e d r rfl hjob
    exact absurd hjob (hown.late x e d r (List.mem_of_getElem? hn))
  | crash => cases hserving
  | _ => exact ⟨hown.row, hown.late⟩

/-- The transaction that the scheduler awaits moves a job along the diagram. -/
theorem ScheduleFacts.movesOver (hfacts : ScheduleFacts config s) {l : Site} {c : StoreCall} {k}
    (hp : s.scheduler = .await l (.store c) k) :
    ∃ known : Known, known.Holds s.db ∧ MovesOver True known c := by
  obtain ⟨v, hknown, -, hok⟩ := hfacts
  rw [hp] at hok
  exact ⟨_, hknown, hok.1⟩

namespace LifeInv

variable (hlife : LifeInv config D s views)
include hlife

/-- The transaction that a task awaits moves its job along the diagram. -/
theorem movesOver {i : Nat} {t : AgentTask} {l : Site} {c : StoreCall} {k}
    (hi : s.tasks[i]? = some t) (hp : t.program = .await l (.store c) k) :
    (views i).known.Holds s.db ∧ MovesOver D (views i).known c := by
  have hfacts := hlife.task i t hi
  have hok := hfacts.ok
  rw [hp] at hok
  exact ⟨hfacts.known, hok.1.1⟩

theorem step_paths (hstep : Step config s h a s' h') : Paths D s'.db := by
  cases hstep with
  | submit => exact hlife.paths.submit ..
  | requestCancel => exact hlife.paths.requestCancel ..
  | taskStore i answers t l c k v hi hp =>
    obtain ⟨hknown, hmoves⟩ := hlife.movesOver hi hp
    exact hlife.paths.exec hknown hmoves
  | tickStore answers l c k v _ hp | recoverStore answers l c k v _ hp =>
    obtain ⟨known, hknown, hmoves⟩ := hlife.schedule.movesOver hp
    exact hlife.paths.exec hknown (hmoves.imp fun _ => trivial)
  | late n c hn =>
    obtain ⟨known, hknown, hmoves⟩ := hlife.late c (List.mem_of_getElem? hn)
    exact hlife.paths.exec hknown hmoves
  | _ => exact hlife.paths

theorem step_late (hinv : Inv s h) (hstep : Step config s h a s' h') :
    ∀ c ∈ s'.late, ∃ known : Known, known.Holds s'.db ∧ MovesOver D known c := by
  have hext := (hinv.step_logs hstep).2
  intro c hc
  obtain hold | ⟨hdb, i, e, t, l, k, ha, hi, hp, -⟩ := hstep.late_of hc
  · obtain ⟨known, hknown, hmoves⟩ := hlife.late c hold
    exact ⟨known, hknown.extends hext, hmoves⟩
  · obtain ⟨hknown, hmoves⟩ := hlife.movesOver hi hp
    exact ⟨_, hknown.extends hext, hmoves⟩

end LifeInv

/-- A step of the scheduler. -/
theorem ScheduleFacts.resume (hlogs : WrittenLogs s.db) (hfacts : ScheduleFacts config s)
    {answers : Answers} (hs : s.step config (.scheduler answers) = some s') :
    ScheduleFacts config s' := by
  obtain ⟨v, hknown, hroom, hok⟩ := hfacts
  simp only [Agent.step] at hs
  split at hs
  · cases hs
  · rename_i l c k hp
    rw [hp] at hok
    split at hs
    · cases hs
    · rename_i r s₁ hr
      obtain rfl := Option.some.inj hs
      have hnext : ∀ {c : Call} {r : Except Exc c.Res}, c.transaction? = none →
          (scheduleContract config.maxConcurrentJobs).post v l c r
            { v.next config.maxConcurrentJobs c r with known := v.known } := fun hc =>
        ⟨logContract_post hc, rfl⟩
      cases c with
      | store c =>
        obtain ⟨rfl, rfl⟩ := Prod.mk.inj (Option.some.inj hr)
        obtain ⟨-, -, known, ha⟩ := exec_written hlogs hknown c hok.1.writesOver
        exact ⟨{ v with known }, ha.holds, hroom, hok.resume ⟨⟨ha.grows, ha.learns⟩, rfl⟩⟩
      | activeCount =>
        obtain ⟨rfl, rfl⟩ := Prod.mk.inj (Option.some.inj hr)
        refine ⟨{ v with room := decide (s.active.length < config.maxConcurrentJobs) }, hknown,
          fun h => ?_, hok.resume (hnext rfl)⟩
        exact of_decide_eq_true h
      | dropDone =>
        obtain ⟨rfl, rfl⟩ := Prod.mk.inj (Option.some.inj hr)
        refine ⟨v, hknown, fun h => ?_, hok.resume (hnext rfl)⟩
        exact (List.length_filter_le _ _).trans_lt (hroom h)
      | spawn job kind =>
        obtain ⟨rfl, rfl⟩ := Prod.mk.inj (Option.some.inj hr)
        exact ⟨{ v with room := false }, hknown, by simp, hok.resume (hnext rfl)⟩
      | _ =>
        obtain ⟨rfl, -⟩ := exec_eq_some hr rfl (by simp) (by simp) v.known
        exact ⟨v, hknown, hroom, hok.resume (hnext rfl)⟩

theorem ScheduleFacts.step (hinv : Inv s h) (hfacts : ScheduleFacts config s)
    (hstep : Step config s h a s' h') (hs : s.step config a = some s') :
    ScheduleFacts config s' := by
  have hext := (hinv.step_logs hstep).2
  have hkeep : s'.active = s.active → s'.scheduler = s.scheduler → ScheduleFacts config s' := by
    obtain ⟨v, hknown, hroom, hok⟩ := hfacts
    intro hactive hscheduler
    exact ⟨v, hknown.extends hext, by rwa [hactive], by rwa [hscheduler]⟩
  cases hstep with
  | tickStore | tickIsActive | tickDropDone | tickSpawn | tickCall | recoverStore | recoverCall =>
    exact hfacts.resume hinv.logs hs
  | tick =>
    obtain ⟨v, hknown, hroom, -⟩ := hfacts
    exact ⟨v, hknown, hroom, tick_schedule config .body () v trivial⟩
  | crash =>
    exact ⟨{}, Known.holds_empty _, nofun, recover_schedule .body () {} trivial⟩
  | _ => exact hkeep rfl rfl

/-- An answer does not bring back a state that the task has lost track of. -/
theorem LifeView.next_none {v : LifeView} {c : Call} {r : Except Exc c.Res} (hv : v.state = none) :
    (v.next c r).state = none := by
  unfold LifeView.next
  split
  · simp [hv]
  · split
    · exact hv
    · rfl
  · exact hv
  · exact hv

/-- An interrupted write takes the state with it, since its transaction is left over. -/
theorem LifeView.state_of_error {v : LifeView} {c : Call} {e : Exc} {state : JobState}
    (he : e.isException = false) (h : (v.next c (.error e)).state = some state) :
    c.logs = false ∧ v.state = some state := by
  cases c with
  | store c =>
    cases c with
    | updateSnapshot => simp [LifeView.next, he] at h
    | _ => exact ⟨rfl, h⟩
  | engine c => cases c <;> exact ⟨rfl, h⟩
  | _ => exact ⟨rfl, h⟩

/-- A job that is to be executed is in `PREPARING`. -/
theorem owned_of_granted (hinv : Inv s h) (hserving : s.serving = true) {job : JobId}
    (hinactive : job ∈ h.tick.inactive) (huntouched : job ∈ h.tick.untouched)
    (hjust : ∃ x ∈ h.tick.known, x.jobId = job ∧ x.state.recoverable = false) :
    Owned s job .preparing := by
  have hfacts := (hinv.ticking hserving).1
  have hu := (hfacts.untouched job huntouched).resolve_left (hfacts.inactive job hinactive)
  obtain ⟨x, hx, rfl, hstate⟩ := hjust
  have hran := ran_of_known hfacts.known hx hstate
  obtain ⟨row, hrow, -⟩ := hinv.logs.row_of_log (hfacts.known x hx)
  refine ⟨⟨row, hrow, ?_⟩, fun y e d r hmem hy => hu.late _ hmem (congrArg some hy)⟩
  have hbegun := hran.row hinv.logs hrow
  have hearly := hu.early _ _ (hinv.logs.last _ row hrow)
  revert hbegun hearly
  cases row.snapshot.state <;> simp [JobState.recoverable, JobState.early]

/-- A task that goes on with an answer. -/
theorem LifeFacts.resume {t t' : AgentTask} {v v' : LifeView} {l : Site} {c : Call}
    {k : Except Exc c.Res → Task (Except Exc Unit × Unit)} {r : Except Exc c.Res}
    (hfacts : LifeFacts D s v t) (hp : t.program = .await l c k) (hjob : t'.job = t.job)
    (hkind : t'.kind = t.kind) (hp' : t'.program = k r)
    (hpost : (lifeContract D t.job t.kind).post v l c r v') (hknown : v'.known.Holds s'.db)
    (howned : Live t → ∀ state, v'.state = some state → Owned s' t.job state) :
    LifeFacts D s' v' t' where
  known := hknown
  ok := by
    have hok := hfacts.ok
    rw [hp] at hok
    rw [hjob, hkind, hp']
    exact hok.resume hpost
  owned hlive state hstate := by
    rw [hjob]
    exact howned ⟨by rw [hp]; rfl, hkind ▸ hlive.2⟩ state hstate
  report hreport := by
    rw [hpost.2.1]
    exact LifeView.next_none (hfacts.report (hkind ▸ hreport))

/-- What is learnt stays true with more knowledge. -/
theorem Learns.mono {known known' : Known} {c : StoreCall} {r : Except Exc c.Res}
    (h : Learns known c r) (hsub : known ⊆ known') : Learns known' c r := by
  obtain e | x := r
  · cases c <;> trivial
  · cases c with
    | getSnapshot => exact ⟨hsub h.1, h.2⟩
    | updateSnapshot => exact hsub h
    | listNonterminal => exact ⟨h.1, fun s hs => ⟨hsub (h.2 s hs).1, (h.2 s hs).2⟩⟩
    | _ => exact h

/-- What a task finds when it looks at its job. -/
theorem LifeInv.looksAt (hlife : LifeInv config D s views) {i : Nat} {t : AgentTask}
    {l : Site} {c : StoreCall} {k} {answers : Answers} (hi : s.tasks[i]? = some t)
    (hp : t.program = .await l (.store c) k) (hown : OwnCall t.job t.kind (h.task i) c)
    (hfinds : D → FindsDrained s (.task i answers)) {known : Known}
    (hanswered : Answered (views i).known (c.exec s.db).2 c (c.exec s.db).1 known) :
    ∃ known', known ⊆ known' ∧ known'.Holds (c.exec s.db).2 ∧ ∀ v' : LifeView,
      v'.known = known' → LooksAt D (views i) l (.store c) (c.exec s.db).1 v' := by
  have hfacts := hlife.task i t hi
  cases c with
  | getSnapshot j =>
    obtain rfl : j = t.job := hown
    cases hrow : s.db.jobs.get t.job with
    | none =>
      refine ⟨known, subset_rfl, hanswered.holds, fun v' _ => ?_⟩
      simp [StoreCall.exec, Db.getSnapshot, Db.jobRow, hrow, Except.map, LooksAt]
    | some row =>
      have hexec : ((StoreCall.getSnapshot t.job).exec s.db).1 = .ok row.snapshot := by
        simp [StoreCall.exec, Db.getSnapshot, Db.jobRow, hrow, Except.map]
      have hreach : ∀ a ∈ (views i).known, a.jobId = t.job →
          ReflTransGen (Moves D) a row.snapshot := by
        intro a ha hjob
        exact hlife.paths.logs.chain_row (hjob ▸ hfacts.known a ha) hrow
      have hstate : ∀ state, (views i).state = some state → row.snapshot.state = state := by
        intro state hstate
        cases hreport : t.kind.isReport with
        | true =>
          rw [hfacts.report hreport] at hstate
          cases hstate
        | false =>
          obtain ⟨row', hrow', heq⟩ := (hfacts.owned (live_of_await hp hreport) state hstate).row
          obtain rfl := Option.some.inj (hrow.symm.trans hrow')
          exact heq
      rw [hexec]
      by_cases hdrained : l = .drained ∧ D
      · obtain ⟨rfl, hD⟩ := hdrained
        obtain ⟨r, b, hb, hends⟩ := hfinds hD t _ k hi hp
        obtain ⟨hbjob, hbrev⟩ := hlife.paths.logs.event _ _ _ hb
        refine ⟨insert b known, Set.subset_insert _ _, ?_, ?_⟩
        · rintro x (rfl | hx)
          · rw [hbjob, hbrev]
            exact hb
          · exact hanswered.holds x hx
        · intro v' hv'
          refine ⟨hreach, hstate, fun _ _ => ⟨b, ?_, hbjob, hends⟩⟩
          rw [hv']
          exact Set.mem_insert _ _
      · exact ⟨known, subset_rfl, hanswered.holds, fun v' _ =>
          ⟨hreach, hstate, fun hl hD => absurd ⟨hl, hD⟩ hdrained⟩⟩
  | _ => exact ⟨known, subset_rfl, hanswered.holds, fun _ _ => trivial⟩

/-- After a transaction of its own, the task still knows the state of its job. -/
theorem Owned.stored {c : StoreCall} {j : JobId} {v : LifeView}
    (hown : ∀ state, v.state = some state → Owned s j state)
    (hc : c.target = none ∨ c.target = some j) (hdb : s'.db = (c.exec s.db).2) (hlate : s'.late = s.late) :
    ∀ state, (v.next (.store c) (c.exec s.db).1).state = some state → Owned s' j state := by
  intro state hstate
  have hsame : (c.exec s.db).2.jobs = s.db.jobs → v.state = some state → Owned s' j state := by
    intro hjobs hv
    obtain ⟨⟨row, hrow, hrstate⟩, hnone⟩ := hown state hv
    exact ⟨⟨row, by rw [hdb, hjobs, hrow], hrstate⟩, by rwa [hlate]⟩
  cases c with
  | updateSnapshot x expectedRevision eventType resolvedSpecJson =>
    obtain rfl : x.jobId = j := by
      obtain hc | hc := hc
      · cases hc
      · exact Option.some.inj hc
    have hcase := s.db.updateSnapshot_cases x expectedRevision eventType resolvedSpecJson
    simp only [StoreCall.exec] at hdb hstate hsame
    generalize s.db.updateSnapshot _ _ _ _ = y at hcase hdb hstate hsame
    cases hcase with
    | conflict | taken => exact hsame rfl hstate
    | updated db' row hrow hrev happ =>
      obtain ⟨state', hv, rfl⟩ := Option.map_eq_some_iff.mp hstate
      obtain ⟨row', hrow', hsnap, -⟩ := happ.row
      refine ⟨⟨row', by rw [hdb]; exact hrow', by rw [hsnap]⟩, ?_⟩
      rw [hlate]
      exact (hown state' hv).late
  | _ => exact hsame rfl hstate

/-- The views of the tasks after a step. -/
theorem LifeInv.step_task (hinv : Inv s h) (hlife : LifeInv config D s views)
    (hstep : Step config s h a s' h') (hserving : s'.serving = true)
    (hfinds : D → FindsDrained s a) :
    ∃ views' : Nat → LifeView, ∀ i t', s'.tasks[i]? = some t' →
      LifeFacts D s' (views' i) t' ∧ LifeStep s a views i t' (views' i) := by
  have hext := (hinv.step_logs hstep).2
  -- the tasks that do not run
  have hkeep : ∀ {i t}, s.tasks[i]? = some t → s.resumes a ≠ some i → LifeFacts D s' (views i) t := by
    intro i t hi hrun
    have hfacts := hlife.task i t hi
    exact ⟨hfacts.known.extends hext, hfacts.ok, fun hlive state hstate =>
      (hfacts.owned hlive state hstate).step hinv hlife hstep hi hlive hrun hserving, hfacts.report⟩
  have hquiet : s'.tasks = s.tasks → s.resumes a = none → ∃ views' : Nat → LifeView,
      ∀ i t', s'.tasks[i]? = some t' →
        LifeFacts D s' (views' i) t' ∧ LifeStep s a views i t' (views' i) := by
    intro htasks hrun
    refine ⟨views, fun i t' hi => ?_⟩
    rw [htasks] at hi
    exact ⟨hkeep hi (by simp [hrun]), .kept hi rfl (.inl (by simp [hrun]))⟩
  -- one task runs
  have hmove : ∀ (v' : LifeView) {i t t' l c k r}, s.resumes a = some i → s.tasks[i]? = some t →
      s'.tasks = s.tasks.set i t' → t.program = .await l c k → t'.job = t.job → t'.kind = t.kind →
      v'.prepared = ((views i).next c r).prepared → LifeFacts D s' v' t' →
      ∃ views' : Nat → LifeView, ∀ i t', s'.tasks[i]? = some t' →
        LifeFacts D s' (views' i) t' ∧ LifeStep s a views i t' (views' i) := by
    intro v' i t t' l c k r hrun hi htasks hp hjob hkind hprepared hfacts
    refine ⟨Function.update views i v', fun j u hu => ?_⟩
    rw [htasks] at hu
    obtain ⟨rfl, rfl⟩ | ⟨hne, hu⟩ := getElem?_set_some hu
    · rw [Function.update_self]
      exact ⟨hfacts, .moved t l c k r hi hp hjob hkind hprepared⟩
    · rw [Function.update_of_ne hne]
      have hother : s.resumes a ≠ some j := by
        rw [hrun]
        exact fun heq => hne (Option.some.inj heq).symm
      exact ⟨hkeep hu hother, .kept hu rfl (.inl hother)⟩
  -- a task is new
  have hnew : ∀ (v' : LifeView) {t'}, s'.tasks = s.tasks ++ [t'] →
      (∀ j, s.resumes a = some j → j = s.tasks.length) → LifeFacts D s' v' t' → ∃ views' : Nat → LifeView, ∀ i t', s'.tasks[i]? = some t' →
        LifeFacts D s' (views' i) t' ∧ LifeStep s a views i t' (views' i) := by
    intro v' t' htasks hrun hfacts
    refine ⟨Function.update views s.tasks.length v', fun j u hu => ?_⟩
    rw [htasks] at hu
    obtain ⟨hu, hne⟩ | ⟨rfl, rfl⟩ := getElem?_concat_some hu
    · rw [Function.update_of_ne hne]
      have hother : s.resumes a ≠ some j := fun heq => hne (hrun j heq)
      exact ⟨hkeep hu hother, .kept hu rfl (.inl hother)⟩
    · rw [Function.update_self]
      exact ⟨hfacts, .fresh rfl⟩
  cases hstep with
  | ignored job cancelling hdone =>
    refine ⟨views, fun i t hi => ?_⟩
    have hfacts := hlife.task i t hi
    refine ⟨⟨hfacts.known, hfacts.ok, fun hlive state hstate => ?_, hfacts.report⟩, .kept hi rfl ?_⟩
    · obtain ⟨hrow, hlate⟩ := hfacts.owned hlive state hstate
      exact ⟨hrow, hlate⟩
    · by_cases hrun : s.resumes (.cancelTask job) = some i
      · obtain ⟨⟨n, e⟩, ha, rfl⟩ := Option.map_eq_some_iff.mp hrun
        exact .inr (hdone n e t ha hi)
      · exact .inl hrun
  | thrown a i t t' l c k e cancelling v ha hi hp hthrown hjob hkind hp' hpre hpost =>
    have hrun : s.resumes a = some i := by
      have hresumes : s.resumes a = (s.interrupts a).map Prod.fst := by
        cases a with
        | task | reportProgress => cases ha
        | _ => rfl
      rw [hresumes, ha]
      rfl
    have hfacts := hlife.task i t hi
    have hlooks : ∀ v', LooksAt D (views i) l c (.error e) v' := by
      intro v'
      cases c with
      | store c => cases c <;> trivial
      | _ => trivial
    have hlearns : logContract.post (views i).known l c (.error e) (views i).known := by
      refine ⟨subset_rfl, ?_⟩
      cases c with
      | store c => cases c <;> trivial
      | _ => trivial
    let v' : LifeView := { (views i).next c (.error e) with known := (views i).known }
    have hpost' : (lifeContract D t.job t.kind).post (views i) l c (.error e) v' :=
      ⟨hlearns, rfl, fun e' he => .inr (Except.error.inj he ▸ hthrown), hlooks v'⟩
    refine hmove v' hrun hi rfl hp hjob hkind rfl
      (hfacts.resume hp hjob hkind hp' hpost' hfacts.known fun hlive state hstate => ?_)
    -- an interrupted write takes the state with it
    obtain ⟨hlogs, hstate'⟩ := LifeView.state_of_error hthrown.not_isException hstate
    obtain ⟨hrow, hlate⟩ := hfacts.owned hlive state hstate'
    refine ⟨hrow, fun x e' d r hmem => ?_⟩
    obtain hmem | hmem := List.mem_append.mp hmem
    · exact hlate _ _ _ _ hmem
    · cases c with
      | store c =>
        obtain rfl := List.mem_singleton.mp hmem
        cases hlogs
      | _ => cases hmem
  | taskStore i answers t l c k v hi hp hpre hpost =>
    have hfacts := hlife.task i t hi
    obtain ⟨hknown, hmoves⟩ := hlife.movesOver hi hp
    obtain ⟨-, -, known, ha⟩ := exec_written hinv.logs hknown c hmoves.writesOver
    obtain ⟨known', hsub, hholds, hlooks⟩ := hlife.looksAt hi hp hpre.2 hfinds ha
    let v' : LifeView := { (views i).next (.store c) (c.exec s.db).1 with known := known' }
    have hlearns : logContract.post (views i).known l (.store c) (c.exec s.db).1 known' :=
      ⟨ha.grows.trans hsub, ha.learns.mono hsub⟩
    have hpost' : (lifeContract D t.job t.kind).post (views i) l (.store c) (c.exec s.db).1 v' :=
      ⟨hlearns, rfl, fun e he => .inl (ha.raises e he), hlooks v' rfl⟩
    refine hmove v' rfl hi rfl hp rfl rfl rfl
      (hfacts.resume hp rfl rfl rfl hpost' hholds fun hlive => ?_)
    refine Owned.stored (hfacts.owned hlive) ?_ rfl rfl
    cases htarget : c.target with
    | none => exact .inl rfl
    | some j => exact .inr (congrArg some (hpre.2.target htarget))
  | taskCall i answers t l c k r v hi hp hc hraises hpost =>
    have hfacts := hlife.task i t hi
    let v' : LifeView := { (views i).next c r with known := (views i).known }
    have hpost' : (lifeContract D t.job t.kind).post (views i) l c r v' := by
      refine ⟨logContract_post hc, rfl, fun e he => (hpost.2.2 e he).imp ?_ id, ?_⟩
      · cases c with
        | store c => cases hc
        | _ => exact id
      · cases c with
        | store c => cases hc
        | _ => trivial
    refine hmove v' rfl hi rfl hp rfl rfl rfl
      (hfacts.resume hp rfl rfl rfl hpost' hfacts.known fun hlive state hstate => ?_)
    have hstate' : (views i).state = some state := by
      cases c with
      | store c => cases hc
      | engine c => cases c <;> exact hstate
      | _ => exact hstate
    obtain ⟨hrow, hlate⟩ := hfacts.owned hlive state hstate'
    exact ⟨hrow, hlate⟩
  | tickSpawn answers l job kind k v hnow hp hpre =>
    obtain ⟨hinactive, -, -, hjust, hgranted⟩ := hpre
    have hknown := (hinv.ticking hnow).1.known
    cases kind with
    | execute fence =>
      have hown := owned_of_granted hinv hnow hinactive (hgranted fence rfl).1 hjust
      refine hnew { known := h.tick.known, state := some .preparing } rfl nofun
        ⟨hknown, taskProgram_life config ⟨rfl, rfl⟩, fun _ state hstate => ?_, nofun⟩
      obtain rfl := Option.some.inj hstate
      exact ⟨hown.row, hown.late⟩
    | finishCancel =>
      exact hnew { known := h.tick.known } rfl nofun
        ⟨hknown, taskProgram_life config hjust, fun _ _ => nofun, fun _ => rfl⟩
    | reportProgress => exact hjust.elim
  | reportProgress job update completed total =>
    refine hnew {} rfl (fun j hj => (Option.some.inj hj).symm)
      ⟨Known.holds_empty _, taskProgram_life config trivial, fun _ _ => nofun, fun _ => rfl⟩
  | crash => cases hserving
  | submit | requestCancel | late | advance | tick | serve | tickStore | tickIsActive | tickDropDone
  | tickCall | recoverStore | recoverCall => exact hquiet rfl rfl

theorem LifeInv.step (hinv : Inv s h) (hlife : LifeInv config D s views)
    (hstep : Step config s h a s' h') (hs : s.step config a = some s')
    (hfinds : D → FindsDrained s a) :
    ∃ views', LifeInv config D s' views' ∧
      ∀ i t', s'.tasks[i]? = some t' → LifeStep s a views i t' (views' i) := by
  have hpaths := hlife.step_paths hstep
  have hlate := hlife.step_late hinv hstep
  have hschedule := hlife.schedule.step hinv hstep hs
  cases hserving : s'.serving with
  | true =>
    obtain ⟨views', htasks⟩ := hlife.step_task hinv hstep hserving hfinds
    exact ⟨views', ⟨hpaths, hlate, fun i t' hi => (htasks i t' hi).1, hschedule⟩,
      fun i t' hi => (htasks i t' hi).2⟩
  | false =>
    have hnone : ∀ i : Nat, s'.tasks[i]? = none := by
      rw [((hinv.step hstep).recovering hserving).1]
      simp
    exact ⟨views, ⟨hpaths, hlate, by simp [hnone], hschedule⟩, by simp [hnone]⟩

theorem LifeInv.init (logicalPorts : List PortId) :
    LifeInv config D (Agent.init logicalPorts) fun _ => {} where
  paths := ⟨Db.logged_empty.of_eq rfl rfl, by simp [Agent.init, Db.empty, Db.logOf]⟩
  late c hc := by simp [Agent.init] at hc
  task i t ht := by simp [Agent.init] at ht
  schedule := ⟨{}, Known.holds_empty _, nofun, recover_schedule .body () {} trivial⟩

end Step

theorem Agent.Reach.life {config : AgentConfig} {C : Agent → Action → Prop} {D : Prop}
    (hC : D → ∀ s a, C s a → FindsDrained s a) {logicalPorts : List PortId} {s : Agent}
    (hs : Agent.Reach config C logicalPorts s) :
    ∃ h views, Inv s h ∧ LifeInv config D s views := by
  induction hs with
  | init => exact ⟨_, _, Inv.init logicalPorts, LifeInv.init logicalPorts⟩
  | step _ hc hs ih =>
    obtain ⟨h, views, hinv, hlife⟩ := ih
    obtain ⟨h', hstep⟩ := step_traced hinv hs
    obtain ⟨views', hlife', -⟩ := hlife.step hinv hstep hs fun hD => hC hD _ _ hc
    exact ⟨h', views', hinv.step hstep, hlife'⟩

/-- In every run in which `_finish_cancel` finds its job drained, or ended, when it looks at it again
after its drain step, every event log is a path of the lifecycle diagram. -/
theorem lifecycle_path (config : AgentConfig) (logicalPorts : List PortId) {s : Agent}
    (hs : s.Reach config FindsDrained logicalPorts) : LifecyclePath s.db := by
  obtain ⟨h, views, -, hlife⟩ := hs.life (D := True) fun _ _ _ hfinds => hfinds
  exact hlife.paths.path trivial

open TrexCli.Action (launch schedule resume)

/-- The job is cancelled while the engine runs, its task unwinds, and the next tick makes a task of
`_finish_cancel`. -/
def cancelRunning : List Action :=
  launch ++ resume 0 16 ++ [.requestCancel 7 "cancel" "user" "", .cancelTask 7] ++ resume 0 4 ++
    [.tick] ++ schedule 8

/-- The check of `FindsDrained` on a state. -/
def drainCheck (s : Agent) : Action → Bool
  | .task i _ => match s.tasks[i]?.map AgentTask.program with
    | some (.await .drained (.store (.getSnapshot j)) _) => s.db.events.rows.any fun e =>
      e.jobId = j && (e.snapshot.state.terminal ||
        decide (e.snapshot.state = .draining) && e.snapshot.cancelRequested)
    | _ => true
  | _ => true

theorem findsDrained_of_check {s : Agent} {a : Action} (h : drainCheck s a = true) :
    FindsDrained s a := by
  cases a with
  | task i answers =>
    intro t j k hi hp
    rw [drainCheck, hi, Option.map_some, hp] at h
    obtain ⟨e, he, hcond⟩ := List.any_eq_true.mp h
    simp only [Bool.and_eq_true, Bool.or_eq_true, decide_eq_true_eq] at hcond
    obtain ⟨rfl, hcond⟩ := hcond
    exact ⟨_, _, WrittenLogs.logOf_event e he, hcond⟩
  | _ => trivial

theorem lifecycle_path_cancelRunning :
    ∃ s, (Agent.init [0, 1]).runChecked labConfig drainCheck (cancelRunning ++ resume 1 14) =
      some s ∧ LifecyclePath s.db ∧ (s.db.jobs.get 7).map JobRow.state = some .cancelled := by
  have hrun : ((Agent.init [0, 1]).runChecked labConfig drainCheck
      (cancelRunning ++ resume 1 14)).map (fun s => (s.db.jobs.get 7).map JobRow.state) =
      some (some .cancelled) := by decide +kernel
  obtain ⟨s, hs, hstate⟩ := Option.map_eq_some_iff.mp hrun
  refine ⟨s, hs, lifecycle_path labConfig [0, 1] (Agent.reach_of_runChecked _ ?_ .init hs), hstate⟩
  exact fun _ _ => findsDrained_of_check

/-- The abandoned worker thread still reports progress, and three times in a row a report comes
between the read and the write of the drain step. -/
def racedDrain : List Action :=
  let report (i : Nat) : List Action := .reportProgress 7 [] 0 none :: resume i 2
  cancelRunning ++ resume 1 3 ++ report 2 ++ resume 1 2 ++ report 3 ++ resume 1 2 ++ report 4 ++
    resume 1 4

/-- Without the condition, a job can go from `RUNNING` to `COLLECTING`. -/
theorem not_lifecycle_path_racedDrain :
    ∃ s, (Agent.init [0, 1]).run labConfig racedDrain = some s ∧
      s.Reach labConfig (fun _ _ => True) [0, 1] ∧ ¬ LifecyclePath s.db := by
  have hrun : ((Agent.init [0, 1]).run labConfig racedDrain).map
      (fun s => ((s.db.logOf 7 10).map JobSnapshot.state, (s.db.logOf 7 11).map JobSnapshot.state)) =
      some (some .running, some .collecting) := by decide +kernel
  obtain ⟨s, hs, hstates⟩ := Option.map_eq_some_iff.mp hrun
  obtain ⟨h10, h11⟩ := Prod.mk.inj hstates
  obtain ⟨x, hx, hxstate⟩ := Option.map_eq_some_iff.mp h10
  obtain ⟨y, hy, hystate⟩ := Option.map_eq_some_iff.mp h11
  refine ⟨s, hs, Agent.reach_of_run _ hs, fun hpath => ?_⟩
  have hedge := hpath.edge 7 10 x y hx hy
  cases hedge with
  | repeats h | fails _ h | drains _ _ h | cancels _ _ h => simp_all
  | advances h => simp_all [JobState.next]

end TrexCli
