import Mathlib.Data.List.Count
import TrexCli.Agent.Lifecycle

/-!
# A job is executed at most once

`PrepareCalls` is the trace of the calls of `engine.prepare` over a run with all its restarts. A job
that has been executed stays so for good: its log says that an execution has begun (`Ran`), and the
scheduler starts only jobs whose log does not say so when it lists them. Within one tick that is not
enough, since a job can be listed before it is started: then it has a task (`Spent`).
-/

namespace TrexCli

/-- A call of `engine.prepare`: its job, and the job's row when the call is made. -/
structure PrepareCall where
  job : JobId
  row : Option JobRow

namespace Agent

/-- The job of the `prepare` call that a coroutine awaits. -/
def preparing : Task (Except Exc Unit × Unit) → Option JobId
  | .await _ (.engine (.prepare marker _)) _ => some marker.jobId
  | _ => none

/-- The action lets the scheduler run on. -/
def schedules : Action → Bool
  | .scheduler _ | .tick | .crash => true
  | _ => false

/-- The calls of `engine.prepare` that a step makes: a coroutine that runs on comes to such a call. -/
def prepareCalls (s : Agent) (a : Action) (s' : Agent) : List PrepareCall :=
  let run := ((s.resumes a).bind (s'.tasks[·]?)).bind (preparing ·.program)
  let schedule := if schedules a then preparing s'.scheduler else none
  (run.toList ++ schedule.toList).map fun job => ⟨job, s'.db.jobs.get job⟩

/-- The states of a run, with all calls of `engine.prepare` up to them. -/
inductive Trace (config : AgentConfig) (logicalPorts : List PortId) : Agent → List PrepareCall → Prop
  where
  | init : Trace config logicalPorts (init logicalPorts) []
  | step {s s' : Agent} {calls : List PrepareCall} {a : Action}
      (h : Trace config logicalPorts s calls) (hs : s.step config a = some s') :
      Trace config logicalPorts s' (calls ++ s.prepareCalls a s')

/-- The state after a sequence of actions, with the calls of `engine.prepare` on the way. -/
def traceFrom (config : AgentConfig) (s : Agent) (calls : List PrepareCall) :
    List Action → Option (Agent × List PrepareCall)
  | [] => some (s, calls)
  | a :: actions => (s.step config a).bind fun s' =>
    match s.prepareCalls a s' with
    | [] => s'.traceFrom config calls actions
    | call :: more => s'.traceFrom config (calls ++ call :: more) actions

theorem trace_of_traceFrom {config : AgentConfig} {logicalPorts : List PortId}
    {actions : List Action} {s s' : Agent} {calls calls' : List PrepareCall}
    (hs : Trace config logicalPorts s calls)
    (hrun : s.traceFrom config calls actions = some (s', calls')) :
    Trace config logicalPorts s' calls' := by
  induction actions generalizing s calls with
  | nil =>
    obtain ⟨rfl, rfl⟩ := Prod.mk.inj (Option.some.inj hrun)
    exact hs
  | cons a actions ih =>
    obtain ⟨s₁, hs₁, hrest⟩ := Option.bind_eq_some_iff.mp hrun
    have hstep := hs.step hs₁
    split at hrest
    · rename_i hnone
      rw [hnone, List.append_nil] at hstep
      exact ih hstep hrest
    · rename_i hcalls
      rw [hcalls] at hstep
      exact ih hstep hrest

/-- The task is a live execution. -/
def executing (t : AgentTask) : Bool := t.kind.isExecute && !t.program.done

end Agent

open Agent (preparing executing)

/-- No job is executed twice, or beside another task, or with too many others. -/
structure ExecutedOnce (config : AgentConfig) (s : Agent) (calls : List PrepareCall) : Prop where
  /-- `engine.prepare` is called at most once for a job. -/
  once : (calls.map PrepareCall.job).Nodup
  /-- Its job is not finished when it is called. -/
  live : ∀ c ∈ calls, ∃ row, c.row = some row ∧ row.jobId = c.job ∧ row.state.terminal = false ∧
    row.snapshot.state.terminal = false
  /-- A job has at most one live task. -/
  alone : ∀ (i j : Nat) (t u : AgentTask), s.tasks[i]? = some t → s.tasks[j]? = some u → Live t →
    Live u → t.job = u.job → i = j
  /-- Not too many executions are live. -/
  room : s.tasks.countP executing ≤ config.maxConcurrentJobs

section Once

variable {config : AgentConfig} {s s' : Agent} {h h' : History} {a : Action}
variable {views views' : Nat → LifeView} {calls : List PrepareCall} {j : JobId}

/-- The job has been executed, and the scheduler cannot take it for a new one. -/
structure Spent (s : Agent) (h : History) (j : JobId) : Prop where
  ran : Ran s.db j
  active : s.serving = true → j ∈ h.tick.untouched → Active s j

structure OnceInv (config : AgentConfig) (s : Agent) (h : History) (views : Nat → LifeView)
    (calls : List PrepareCall) : Prop where
  once : (calls.map PrepareCall.job).Nodup
  live : ∀ c ∈ calls, ∃ row, c.row = some row ∧ row.jobId = c.job ∧ row.state.terminal = false ∧
    row.snapshot.state.terminal = false
  room : s.tasks.countP executing ≤ config.maxConcurrentJobs
  called : ∀ c ∈ calls, Spent s h c.job
  spent : ∀ (i : Nat) t, s.tasks[i]? = some t → t.kind.isExecute = true → Spent s h t.job
  single : ∀ (i j : Nat) (t u : AgentTask), s.tasks[i]? = some t → s.tasks[j]? = some u →
    t.kind.isExecute = true → u.kind.isExecute = true → t.job = u.job → i = j
  prepared : ∀ (i : Nat) t, s.tasks[i]? = some t → t.kind.isExecute = true →
    t.job ∈ calls.map PrepareCall.job → (views i).prepared = true ∨ (preparing t.program).isSome

/-- Live executions have entries of their own among the active tasks. -/
theorem executing_le_active (hinv : Inv s h) : s.tasks.countP executing ≤ s.active.length := by
  have hlength : s.tasks.countP executing =
      ((s.tasks.zipIdx.filter fun x => executing x.1).map Prod.snd).length := by
    rw [List.length_map, ← List.length_map (f := Prod.fst), List.countP_eq_length_filter]
    congr 1
    rw [show (fun x : AgentTask × Nat => executing x.1) = executing ∘ Prod.fst from rfl,
      ← List.filter_map, List.zipIdx_map_fst]
  have hnodup : ((s.tasks.zipIdx.filter fun x => executing x.1).map Prod.snd).Nodup := by
    refine List.Nodup.sublist (List.filter_sublist.map _) ?_
    rw [List.zipIdx_map_snd]
    exact List.nodup_range'
  have hsubset : (s.tasks.zipIdx.filter fun x => executing x.1).map Prod.snd ⊆
      s.active.map Prod.snd := by
    intro i hi
    obtain ⟨⟨t, n⟩, hmem, rfl⟩ := List.mem_map.mp hi
    obtain ⟨hzip, hexec⟩ := List.mem_filter.mp hmem
    obtain ⟨hkind, hdone⟩ := Bool.and_eq_true_iff.mp hexec
    have hlive : Live t := by
      refine ⟨by simpa using hdone, ?_⟩
      revert hkind
      cases t.kind <;> simp [TaskKind.isExecute, TaskKind.isReport]
    exact List.mem_map_of_mem (hinv.registered n t (List.mem_zipIdx_iff_getElem?.mp hzip) hlive)
  rw [hlength]
  exact (List.subperm_of_subset hnodup hsubset).length_le.trans (by simp)

theorem countP_set_le {l : List AgentTask} {i : Nat} {t t' : AgentTask} (hi : l[i]? = some t)
    (hexec : executing t' = true → executing t = true) :
    (l.set i t').countP executing ≤ l.countP executing := by
  obtain ⟨hlt, hget⟩ := List.getElem?_eq_some_iff.mp hi
  rw [List.countP_set hlt, hget]
  have hpos : executing t = true → 0 < l.countP executing := fun h =>
    List.countP_pos_iff.mpr ⟨t, List.mem_of_getElem? hi, h⟩
  split_ifs with h₁ h₂
  · have hone := hpos h₁
    omega
  · omega
  · exact absurd (hexec (by assumption)) h₁
  · omega

/-- Unless the tick starts over, no task leaves the table of active tasks, and what the scheduler
takes for new it has taken for new before, or no execution of it has begun. -/
theorem Step.tick_untouched (hstep : Step config s h a s' h') (hinv : Inv s h)
    (hserving : s.serving = true) (hserving' : s'.serving = true) {j : JobId}
    (hmem : j ∈ h'.tick.untouched) :
    (Active s j → Active s' j) ∧ (j ∈ h.tick.untouched ∨ ¬ Ran s.db j) := by
  cases hstep with
  | tickStore answers l c k v _ hp hpre hpost =>
    simp only at hmem
    rw [hpost.2.1] at hmem
    refine ⟨id, ?_⟩
    cases c with
    | listNonterminal =>
      obtain hmem | ⟨x, hx, rfl, -, hstate⟩ := hmem
      · exact .inl hmem
      · refine .inr fun hran => ?_
        obtain ⟨row, hrow, -, rfl⟩ := Db.mem_listNonterminal.mp hx
        obtain ⟨-, -, hkey, -⟩ := hinv.logs.row _ row hrow
        have hbegun := hran.row hinv.logs (hkey ▸ hrow)
        rw [hstate] at hbegun
        cases hbegun
    | updateSnapshot x =>
      simp only [TickView.next, TickView.wrote] at hmem
      split at hmem
      · exact .inl hmem
      · exact .inl hmem.1
    | acquirePorts job ports =>
      generalize ((StoreCall.acquirePorts job ports).exec s.db).1 = r at hmem
      obtain e | _ | fence := r <;> exact .inl hmem
    | getSnapshot job | getDocument job =>
      refine .inl ?_
      generalize (StoreCall.exec s.db _).1 = r at hmem
      cases r <;> exact hmem
    | releasePorts => exact .inl hmem
    | _ => exact hpre.2.elim
  | tickIsActive answers l job k v _ hp hpost =>
    simp only at hmem
    rw [hpost.2.1] at hmem
    refine ⟨id, .inl ?_⟩
    cases hany : (s.active.any fun a => decide (a.1 = job)) <;> rw [hany] at hmem <;> exact hmem
  | tickDropDone answers l k v _ hp hpost =>
    simp only at hmem
    rw [hpost.2.1] at hmem
    cases hmem
  | tickSpawn answers l job kind k v _ hp hpre hpost =>
    simp only at hmem
    rw [hpost.2.1] at hmem
    exact ⟨Active.spawn config kind ((hinv.ticking hserving).1.inactive job hpre.1), .inl hmem⟩
  | tickCall answers l c k r v _ hp hc hactive hdrop hspawn hpost =>
    simp only at hmem
    rw [hpost.2.1] at hmem
    refine ⟨id, .inl ?_⟩
    cases c with
    | store c => cases hc
    | isActive job => exact absurd rfl (hactive job)
    | dropDone => exact absurd rfl hdrop
    | spawn job kind => exact absurd rfl (hspawn job kind)
    | _ => exact hmem
  | serve => cases hmem
  | crash => cases hserving'
  | _ => exact ⟨id, .inl hmem⟩

theorem Spent.step (hspent : Spent s h j) (hinv : Inv s h) (hstep : Step config s h a s' h') :
    Spent s' h' j where
  ran := hspent.ran.extends (hinv.step_logs hstep).2
  active hserving' hmem := by
    obtain hserving | ⟨-, -, -, -, hview, -⟩ := hstep.serving hinv hserving'
    · obtain ⟨hactive, huntouched⟩ := hstep.tick_untouched hinv hserving hserving' hmem
      exact hactive (hspent.active hserving (huntouched.resolve_right fun hne => hne hspent.ran))
    · rw [hview] at hmem
      cases hmem

/-- A job that the scheduler is about to execute has not been executed. -/
theorem not_spent_of_spawn (hinv : Inv s h) (hserving : s.serving = true) {l : Site}
    {fence : Fence} (hpre : tickContract.pre h.tick l (.spawn j (.execute fence))) :
    ¬ Spent s h j := by
  obtain ⟨hinactive, -, -, -, hgranted⟩ := hpre
  exact fun hspent => (hinv.ticking hserving).1.inactive j hinactive
    (hspent.active hserving (hgranted fence rfl).1)

/-- A new execution is of a job that has not been executed. -/
theorem fresh_execution (hinv : Inv s h) (hstep : Step config s h a s' h') {i : Nat} {t' : AgentTask}
    (hi' : s'.tasks[i]? = some t') (hnew : s.tasks[i]? = none) (hkind : t'.kind.isExecute = true) :
    ¬ Spent s h t'.job ∧ Spent s' h' t'.job := by
  have hset : ∀ {n t u}, s.tasks[n]? = some t → (s.tasks.set n u)[i]? ≠ some t' := by
    intro n t u hn hi
    obtain ⟨rfl, -⟩ | ⟨-, hi⟩ := getElem?_set_some hi
    · rw [hn] at hnew
      cases hnew
    · rw [hi] at hnew
      cases hnew
  cases hstep with
  | thrown a n t u l c k e cancelling v ha hn => exact absurd hi' (hset hn)
  | taskStore n answers t l c k v hn => exact absurd hi' (hset hn)
  | taskCall n answers t l c k r v hn => exact absurd hi' (hset hn)
  | tickSpawn answers l job kind k v hserving hp hpre hpost hknown =>
    obtain ⟨hi, -⟩ | ⟨rfl, rfl⟩ := getElem?_concat_some hi'
    · rw [hi] at hnew
      cases hnew
    · cases kind with
      | execute fence =>
        obtain ⟨x, hx, rfl, hstate⟩ := hpre.2.2.2.1
        refine ⟨not_spent_of_spawn hinv hserving hpre, ?_, fun _ _ => ⟨_, List.mem_cons_self⟩⟩
        exact ran_of_known (hinv.ticking hserving).1.known hx hstate
      | _ => cases hkind
  | reportProgress =>
    obtain ⟨hi, -⟩ | ⟨rfl, rfl⟩ := getElem?_concat_some hi'
    · rw [hi] at hnew
      cases hnew
    · cases hkind
  | crash => simp at hi'
  | _ =>
    rw [hi'] at hnew
    cases hnew

/-- No step makes more executions live than may run. -/
theorem step_room (hinv : Inv s h) (hschedule : ScheduleFacts config s)
    (hroom : s.tasks.countP executing ≤ config.maxConcurrentJobs)
    (hstep : Step config s h a s' h') :
    s'.tasks.countP executing ≤ config.maxConcurrentJobs := by
  have hset : ∀ {n t t' l c k}, s.tasks[n]? = some t → t.program = .await l c k →
      t'.kind = t.kind → (s.tasks.set n t').countP executing ≤ config.maxConcurrentJobs := by
    intro n t t' l c k hn hp hkind
    refine (countP_set_le hn fun hexec => ?_).trans hroom
    simp only [executing, hkind, Bool.and_eq_true] at hexec
    simp [executing, hp, hexec.1]
  have hadd : ∀ {t'}, executing t' = false →
      (s.tasks ++ [t']).countP executing ≤ config.maxConcurrentJobs := by
    intro t' hexec
    rw [List.countP_append, List.countP_singleton, hexec]
    exact hroom
  cases hstep with
  | thrown a n t u l c k e cancelling v ha hn hp hthrown hjob hkind => exact hset hn hp hkind
  | taskStore n answers t l c k v hn hp => exact hset hn hp rfl
  | taskCall n answers t l c k r v hn hp => exact hset hn hp rfl
  | tickSpawn answers l job kind k v hserving hp hpre =>
    cases kind with
    | execute fence =>
      obtain ⟨w, -, hspace, hok⟩ := hschedule
      rw [hp] at hok
      have hlt := hspace (hok.1 rfl)
      have hle := executing_le_active hinv
      show (s.tasks ++ [_]).countP executing ≤ _
      rw [List.countP_append, List.countP_singleton]
      split_ifs
      · omega
      · omega
    | _ => exact hadd rfl
  | reportProgress => exact hadd rfl
  | crash => simp
  | _ => exact hroom

/-- The call of `prepare` that a task comes to is permitted, and its job is in `PREPARING`. -/
theorem LifeFacts.preparing {D : Prop} {v : LifeView} {t : AgentTask} (hfacts : LifeFacts D s v t)
    {job : JobId} (hp : preparing t.program = some job) :
    job = t.job ∧ t.kind.isExecute = true ∧ v.prepared = false ∧ Owned s t.job .preparing := by
  obtain ⟨hknown, hok, howned, -⟩ := hfacts
  unfold Agent.preparing at hp
  split at hp
  · rename_i l m document k hprogram
    rw [hprogram] at hok
    obtain ⟨hkind, hjob, hprepared, hstate⟩ := hok.1
    refine ⟨(Option.some.inj hp).symm.trans hjob, hkind, hprepared, howned ?_ _ hstate⟩
    refine live_of_await hprogram ?_
    revert hkind
    cases t.kind <;> simp [TaskKind.isExecute, TaskKind.isReport]
  · cases hp

/-- The scheduler calls no `prepare`. -/
theorem ScheduleFacts.preparing (hfacts : ScheduleFacts config s) :
    preparing s.scheduler = none := by
  obtain ⟨v, -, -, hok⟩ := hfacts
  unfold Agent.preparing
  split
  · rename_i l m document k hp
    rw [hp] at hok
    exact hok.1.elim
  · rfl

/-- A call that a step makes is the call of the task that runs on. -/
theorem mem_prepareCalls (hfacts : ScheduleFacts config s') {c : PrepareCall}
    (hc : c ∈ s.prepareCalls a s') : ∃ i t, s.resumes a = some i ∧ s'.tasks[i]? = some t ∧
      preparing t.program = some c.job ∧ c.row = s'.db.jobs.get c.job := by
  obtain ⟨job, hjob, rfl⟩ := List.mem_map.mp hc
  obtain hrun | hschedule := List.mem_append.mp hjob
  · obtain ⟨t, ht, hp⟩ := Option.bind_eq_some_iff.mp (Option.mem_toList.mp hrun)
    obtain ⟨i, hi, ht⟩ := Option.bind_eq_some_iff.mp ht
    exact ⟨i, t, hi, ht, hp, rfl⟩
  · rw [hfacts.preparing] at hschedule
    split at hschedule <;> cases hschedule

/-- A step makes at most one call. -/
theorem nodup_prepareCalls (hfacts : ScheduleFacts config s') :
    ((s.prepareCalls a s').map PrepareCall.job).Nodup := by
  unfold Agent.prepareCalls
  rw [hfacts.preparing]
  cases ((s.resumes a).bind (s'.tasks[·]?)).bind (preparing ·.program) with
  | none => split <;> simp
  | some job => split <;> simp

theorem LifeStep.old {i : Nat} {t' : AgentTask} {v' : LifeView} (h : LifeStep s a views i t' v') :
    (∃ t, s.tasks[i]? = some t ∧ t.job = t'.job ∧ t.kind = t'.kind) ∨ i = s.tasks.length := by
  cases h with
  | kept hi => exact .inl ⟨t', hi, rfl, rfl⟩
  | moved t l c k r hi hp hjob hkind => exact .inl ⟨t, hi, hjob.symm, hkind.symm⟩
  | fresh hi => exact .inr hi

/-- A task does not forget that it has prepared an engine. -/
theorem LifeView.prepared_next {v : LifeView} {c : Call} {r : Except Exc c.Res}
    (h : v.prepared = true ∨ ∃ m document, c = .engine (.prepare m document)) :
    (v.next c r).prepared = true := by
  obtain h | ⟨m, document, rfl⟩ := h
  · unfold LifeView.next
    split
    · exact h
    · split
      · exact h
      · exact h
    · rfl
    · exact h
  · rfl

namespace OnceInv

variable (honce : OnceInv config s h views calls)
include honce

/-- A task whose job has been executed before this step has done so itself. -/
theorem prepared_step (hinv : Inv s h) (hstep : Step config s h a s' h')
    {i : Nat} {t' : AgentTask} (hi' : s'.tasks[i]? = some t') (hkind : t'.kind.isExecute = true)
    (hviews : LifeStep s a views i t' (views' i)) (hmem : t'.job ∈ calls.map PrepareCall.job) :
    (views' i).prepared = true ∨
      (s.resumes a ≠ some i ∨ t'.program.done = true) ∧ (preparing t'.program).isSome := by
  cases hviews with
  | kept hi hview hrun =>
    rw [hview]
    exact (honce.prepared i t' hi hkind hmem).imp_right fun hp => ⟨hrun, hp⟩
  | moved t l c k r hi hp hjob hkind' hprepared =>
    refine .inl ?_
    rw [hprepared]
    refine LifeView.prepared_next ?_
    refine (honce.prepared i t hi (hkind' ▸ hkind) (hjob ▸ hmem)).imp_right fun hsome => ?_
    rw [hp] at hsome
    unfold Agent.preparing at hsome
    split at hsome
    · rename_i heq
      cases heq
      exact ⟨_, _, rfl⟩
    · cases hsome
  | fresh hi =>
    obtain ⟨c, hc, hjob⟩ := List.mem_map.mp hmem
    have hnew : s.tasks[i]? = none := by simp [hi]
    exact absurd (hjob ▸ honce.called c hc) (fresh_execution hinv hstep hi' hnew hkind).1

theorem step (hinv : Inv s h) (hinv' : Inv s' h') (hlife : LifeInv config False s views)
    (hlife' : LifeInv config False s' views') (hstep : Step config s h a s' h')
    (hviews : ∀ i t', s'.tasks[i]? = some t' → LifeStep s a views i t' (views' i)) :
    OnceInv config s' h' views' (calls ++ s.prepareCalls a s') := by
  have hspent : ∀ (i : Nat) t, s'.tasks[i]? = some t → t.kind.isExecute = true →
      Spent s' h' t.job := by
    intro i t hi hkind
    obtain ⟨u, hu, hjob, hukind⟩ | hnew := (hviews i t hi).old
    · rw [← hjob]
      exact (honce.spent i u hu (hukind ▸ hkind)).step hinv hstep
    · exact (fresh_execution hinv hstep hi (by simp [hnew]) hkind).2
  have hsingle : ∀ (i j : Nat) (t u : AgentTask), s'.tasks[i]? = some t → s'.tasks[j]? = some u →
      t.kind.isExecute = true → u.kind.isExecute = true → t.job = u.job → i = j := by
    intro i j t u hi hj ht hu hjob
    obtain ⟨t₀, hi₀, htjob, htkind⟩ | hnew := (hviews i t hi).old
    · obtain ⟨u₀, hj₀, hujob, hukind⟩ | hnew := (hviews j u hj).old
      · exact honce.single i j t₀ u₀ hi₀ hj₀ (htkind ▸ ht) (hukind ▸ hu)
          (htjob.trans (hjob.trans hujob.symm))
      · have hfresh := (fresh_execution hinv hstep hj (by simp [hnew]) hu).1
        exact absurd (honce.spent i t₀ hi₀ (htkind ▸ ht)) (by rwa [htjob, hjob])
    · obtain ⟨u₀, hj₀, hujob, hukind⟩ | hnew' := (hviews j u hj).old
      · have hfresh := (fresh_execution hinv hstep hi (by simp [hnew]) ht).1
        exact absurd (honce.spent j u₀ hj₀ (hukind ▸ hu)) (by rwa [hujob, ← hjob])
      · rw [hnew, hnew']
  -- what a new call says of its task
  have hcall : ∀ c ∈ s.prepareCalls a s', ∃ i t, s.resumes a = some i ∧ s'.tasks[i]? = some t ∧
      preparing t.program = some t.job ∧ c.job = t.job ∧ t.kind.isExecute = true ∧
      (views' i).prepared = false ∧ Owned s' t.job .preparing ∧
      c.row = s'.db.jobs.get t.job := by
    intro c hc
    obtain ⟨i, t, hrun, hi, hp, hrow⟩ := mem_prepareCalls hlife'.schedule hc
    obtain ⟨hjob, hkind, hprepared, hown⟩ := (hlife'.task i t hi).preparing hp
    exact ⟨i, t, hrun, hi, hjob ▸ hp, hjob, hkind, hprepared, hown, hjob ▸ hrow⟩
  refine ⟨?_, fun c hc => ?_, step_room hinv hlife.schedule honce.room hstep, fun c hc => ?_, hspent,
    hsingle, fun i t hi hkind hmem => ?_⟩
  · rw [List.map_append]
    refine honce.once.append (nodup_prepareCalls hlife'.schedule) fun j hold hnew => ?_
    obtain ⟨c, hc, rfl⟩ := List.mem_map.mp hnew
    obtain ⟨i, t, hrun, hi, hp, hjob, hkind, hprepared, -⟩ := hcall c hc
    rw [hjob] at hold
    obtain hp' | ⟨hne | hdone, -⟩ := honce.prepared_step hinv hstep hi hkind (hviews i t hi) hold
    · rw [hprepared] at hp'
      cases hp'
    · exact hne hrun
    · cases hprog : t.program with
      | ret x =>
        rw [hprog] at hp
        cases hp
      | await l c k =>
        rw [hprog] at hdone
        cases hdone
  · obtain hc | hc := List.mem_append.mp hc
    · exact honce.live c hc
    · obtain ⟨i, t, -, hi, -, hjob, -, -, ⟨⟨row, hrow, hstate⟩, -⟩, hcrow⟩ := hcall c hc
      obtain ⟨hcolumn, -⟩ := hinv'.logs.row _ row hrow
      refine ⟨row, hcrow.trans hrow, (s'.db.jobs.key_of_get hrow).trans hjob.symm, ?_, ?_⟩
      · rw [hcolumn, hstate]
        rfl
      · rw [hstate]
        rfl
  · obtain hc | hc := List.mem_append.mp hc
    · exact (honce.called c hc).step hinv hstep
    · obtain ⟨i, t, -, hi, -, hjob, hkind, -⟩ := hcall c hc
      rw [hjob]
      exact hspent i t hi hkind
  · rw [List.map_append] at hmem
    obtain hold | hnew := List.mem_append.mp hmem
    · exact (honce.prepared_step hinv hstep hi hkind (hviews i t hi) hold).imp_right And.right
    · obtain ⟨c, hc, hjob⟩ := List.mem_map.mp hnew
      obtain ⟨n, u, -, hn, hp, hcjob, hukind, -⟩ := hcall c hc
      obtain rfl := hsingle i n t u hi hn hkind hukind (hjob.symm.trans hcjob)
      obtain rfl := Option.some.inj (hi.symm.trans hn)
      refine .inr ?_
      rw [hp]
      rfl

end OnceInv

end Once

/-- In every run, with any number of restarts, `engine.prepare` is called at most once for a job and
never for a finished one; a job has at most one live task; and no more executions are live than may
run at once. -/
theorem executed_once (config : AgentConfig) (logicalPorts : List PortId) {s : Agent}
    {calls : List PrepareCall} (hs : Agent.Trace config logicalPorts s calls) :
    ExecutedOnce config s calls := by
  obtain ⟨h, views, hinv, -, honce⟩ : ∃ h views, Inv s h ∧ LifeInv config False s views ∧
      OnceInv config s h views calls := by
    induction hs with
    | init =>
      refine ⟨_, _, Inv.init logicalPorts, LifeInv.init logicalPorts, ?_⟩
      refine ⟨List.nodup_nil, ?_, Nat.zero_le _, ?_, ?_, ?_, ?_⟩ <;> simp [Agent.init]
    | step _ hs ih =>
      obtain ⟨h, views, hinv, hlife, honce⟩ := ih
      obtain ⟨h', hstep⟩ := step_traced hinv hs
      obtain ⟨views', hlife', hviews⟩ := hlife.step hinv hstep hs False.elim
      exact ⟨h', views', hinv.step hstep, hlife',
        honce.step hinv (hinv.step hstep) hlife hlife' hstep hviews⟩
  exact ⟨honce.once, honce.live, fun i j t u hi hj ht hu => hinv.live_unique hi hj ht hu,
    honce.room⟩

open TrexCli.Action (launch schedule resume)

/-- The agent crashes while the engine runs, recovers and schedules again. -/
theorem executed_once_crash : ∃ s calls,
    (Agent.init [0, 1]).traceFrom labConfig []
      (launch ++ resume 0 16 ++ [.crash] ++ schedule 12 ++ [.serve, .tick] ++ schedule 4) =
        some (s, calls) ∧
      ExecutedOnce labConfig s calls ∧ calls.map PrepareCall.job = [7] := by
  have hrun : ((Agent.init [0, 1]).traceFrom labConfig []
      (launch ++ resume 0 16 ++ [.crash] ++ schedule 12 ++ [.serve, .tick] ++ schedule 4)).map
        (fun x => x.2.map PrepareCall.job) = some [7] := by decide +kernel
  obtain ⟨⟨s, calls⟩, hs, hcalls⟩ := Option.map_eq_some_iff.mp hrun
  exact ⟨s, calls, hs, executed_once labConfig [0, 1] (Agent.trace_of_traceFrom .init hs), hcalls⟩

end TrexCli
