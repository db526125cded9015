import TrexCli.Agent.Invariant

/-!
# What a step does to the tables and to a task

The cases of `Step`, seen from the lease and marker tables (`Step.tables`), from a task
(`Step.task`), and from the transactions that are left over (`Step.late_of`).
-/

namespace TrexCli

/-! ### Where a transaction comes from -/

/-- A step runs the transaction of a task, of the scheduler, or one that is left over. -/
inductive Executed (s : Agent) (h : History) : Action → StoreCall → Prop where
  | task (i : Nat) (answers : Answers) (t : AgentTask) (l : Site) (c : StoreCall)
      (k : Except Exc c.Res → Task (Except Exc Unit × Unit)) (hi : s.tasks[i]? = some t)
      (hp : t.program = .await l (.store c) k) (hown : OwnCall t.job t.kind (h.task i) c) :
      Executed s h (.task i answers) c
  | tick (answers : Answers) (l : Site) (c : StoreCall)
      (k : Except Exc c.Res → Task (Except Exc Unit × Unit)) (hserving : s.serving = true)
      (hp : s.scheduler = .await l (.store c) k) (hcall : TickCall h.tick c) :
      Executed s h (.scheduler answers) c
  | recover (answers : Answers) (l : Site) (c : StoreCall)
      (k : Except Exc c.Res → Task (Except Exc Unit × Unit)) (hserving : s.serving = false)
      (hp : s.scheduler = .await l (.store c) k) (hcall : RecoverCall h.recover c) :
      Executed s h (.scheduler answers) c
  | late (n : Nat) (c : StoreCall) (hn : s.late[n]? = some c) : Executed s h (.late n) c

section Executed

variable {config : AgentConfig} {s s' : Agent} {h h' : History} {a : Action}

/-- A step that runs no transaction of a coroutine leaves leases and markers alone. -/
theorem Step.tables (hstep : Step config s h a s' h') (hinv : Inv s h) :
    s'.db.leases = s.db.leases ∧ s'.db.markers = s.db.markers ∨
      ∃ c : StoreCall, s'.db = (c.exec s.db).2 ∧ Executed s h a c := by
  cases hstep with
  | submit => exact .inl ⟨submit_frame.1, submit_frame.2.1⟩
  | requestCancel =>
    exact .inl ⟨(requestCancel_frame hinv.logs).1, (requestCancel_frame hinv.logs).2.1⟩
  | taskStore i answers t l c k v hi hp hpre =>
    exact .inr ⟨c, rfl, .task i answers t l c k hi hp hpre.2⟩
  | tickStore answers l c k v hserving hp hpre =>
    exact .inr ⟨c, rfl, .tick answers l c k hserving hp hpre.2⟩
  | recoverStore answers l c k v hserving hp hpre =>
    exact .inr ⟨c, rfl, .recover answers l c k hserving hp hpre.2⟩
  | late n c hn => exact .inr ⟨c, rfl, .late n c hn⟩
  | _ => exact .inl ⟨rfl, rfl⟩

/-- Only the scheduler acquires ports, for a job that no task has touched. -/
theorem Executed.acquire {job : JobId} {ports : List PortId} (hinv : Inv s h)
    (hc : Executed s h a (.acquirePorts job ports)) :
    s.serving = true ∧ job ∈ h.tick.listed ∧ ¬ Active s job ∧ Untouched s job := by
  cases hc with
  | task i answers t l c k hi hp hown => exact hown.elim
  | tick answers l c k hserving hp hcall =>
    obtain ⟨hinactive, hlisted, huntouched⟩ := hcall
    have hfacts := (hinv.ticking hserving).1
    have hidle := hfacts.inactive job hinactive
    exact ⟨hserving, hlisted, hidle, (hfacts.untouched job huntouched).resolve_left hidle⟩
  | recover answers l c k hserving hp hcall => exact hcall.elim
  | late n c hn =>
    obtain ⟨job', kind, v, -, -, hown, -⟩ := hinv.late _ (List.mem_of_getElem? hn)
    exact hown.elim

theorem live_of_await {t : AgentTask} {l : Site} {c : Call} {k} (hp : t.program = .await l c k)
    (hkind : t.kind.isReport = false) : Live t := ⟨by rw [hp]; rfl, hkind⟩

end Executed

/-! ### What a step does to a task -/

/-- Where the answer comes from that a task goes on with. -/
inductive Answer (s : Agent) (a : Action) (s' : Agent) (i : Nat) (l : Site) :
    (c : Call) → Except Exc c.Res → Prop where
  | interrupted (c : Call) (e : Exc) (ha : s.interrupts a = some (i, e)) (hthrown : Thrown l c e)
      (hdb : s'.db = s.db) (hlate : s'.late = s.late ++ c.transaction?.toList) :
      Answer s a s' i l c (.error e)
  | stored (c : StoreCall) (hdb : s'.db = (c.exec s.db).2) (hlate : s'.late = s.late) :
      Answer s a s' i l (.store c) (c.exec s.db).1
  | answered (c : Call) (r : Except Exc c.Res) (hc : c.transaction? = none)
      (hraises : ∀ e, r = .error e → e.isException = true) (hdb : s'.db = s.db)
      (hlate : s'.late = s.late) : Answer s a s' i l c r

/-- A task after a step: it has not moved, has gone on with an answer, or is new. -/
inductive TaskStep (s : Agent) (h : History) (a : Action) (s' : Agent) (h' : History) (i : Nat)
    (t' : AgentTask) : Prop where
  | kept (hi : s.tasks[i]? = some t') (hview : h'.task i = h.task i)
  | moved (t : AgentTask) (l : Site) (c : Call)
      (k : Except Exc c.Res → Task (Except Exc Unit × Unit)) (r : Except Exc c.Res)
      (hi : s.tasks[i]? = some t) (hp : t.program = .await l c k) (hjob : t'.job = t.job)
      (hkind : t'.kind = t.kind) (hpre : (taskContract t.job t.kind).pre (h.task i) l c)
      (hpost : (taskContract t.job t.kind).post (h.task i) l c r (h'.task i))
      (hanswer : Answer s a s' i l c r)
  | spawned (l : Site) (v : Known) (hi : s.tasks[i]? = none) (hserving : s.serving = true) (hdb : s'.db = s.db)
      (hlate : s'.late = s.late) (hpre : tickContract.pre h.tick l (.spawn t'.job t'.kind))
      (hview : h'.task i = { known := v })
  | reported (hi : s.tasks[i]? = none) (hkind : t'.kind.isReport = true)

section TaskStep

variable {config : AgentConfig} {s s' : Agent} {h h' : History} {a : Action}

theorem Step.task (hstep : Step config s h a s' h') (hinv : Inv s h) {i : Nat} {t' : AgentTask}
    (hi' : s'.tasks[i]? = some t') : TaskStep s h a s' h' i t' := by
  have hpre : ∀ {i t l c k}, s.tasks[i]? = some t → t.program = .await l c k →
      (taskContract t.job t.kind).pre (h.task i) l c := by
    intro i t l c k hi hp
    have hok := (hinv.task i t hi).ok
    rw [hp] at hok
    exact hok.1
  cases hstep with
  | thrown a j t u l c k e cancelling v ha hj hp hthrown hjob hkind hp' hpre hpost =>
    obtain ⟨rfl, rfl⟩ | ⟨hne, hi⟩ := getElem?_set_some hi'
    · exact .moved t l c k (.error e) hj hp hjob hkind hpre (by rwa [History.setTask_self])
        (.interrupted c e ha hthrown rfl rfl)
    · exact .kept hi (History.setTask_of_ne hne)
  | taskStore j answers t l c k v hj hp _ hpost =>
    obtain ⟨rfl, rfl⟩ | ⟨hne, hi⟩ := getElem?_set_some hi'
    · exact .moved t l (.store c) k _ hj hp rfl rfl (hpre hj hp) (by rwa [History.setTask_self])
        (.stored c rfl rfl)
    · exact .kept hi (History.setTask_of_ne hne)
  | taskCall j answers t l c k r v hj hp hc hraises hpost =>
    obtain ⟨rfl, rfl⟩ | ⟨hne, hi⟩ := getElem?_set_some hi'
    · exact .moved t l c k r hj hp rfl rfl (hpre hj hp) (by rwa [History.setTask_self])
        (.answered c r hc hraises rfl rfl)
    · exact .kept hi (History.setTask_of_ne hne)
  | tickSpawn answers l job kind k v hserving hp hpre =>
    obtain ⟨hi, hne⟩ | ⟨rfl, rfl⟩ := getElem?_concat_some hi'
    · exact .kept hi (History.setTask_of_ne hne)
    · exact .spawned l v.known (by simp) hserving rfl rfl hpre History.setTask_self
  | reportProgress =>
    obtain ⟨hi, hne⟩ | ⟨rfl, rfl⟩ := getElem?_concat_some hi'
    · exact .kept hi (History.setTask_of_ne hne)
    · exact .reported (by simp) rfl
  | crash => simp at hi'
  | _ => exact .kept hi' rfl

/-- No task disappears but in a crash. -/
theorem Step.task_exists (hstep : Step config s h a s' h') (hserving : s'.serving = true) {i : Nat}
    {t : AgentTask} (hi : s.tasks[i]? = some t) : ∃ t', s'.tasks[i]? = some t' ∧ t'.job = t.job ∧
      t'.kind = t.kind := by
  have hset : ∀ {j t₀ t'}, s.tasks[j]? = some t₀ → t'.job = t₀.job → t'.kind = t₀.kind →
      ∃ u, (s.tasks.set j t')[i]? = some u ∧ u.job = t.job ∧ u.kind = t.kind := by
    intro j t₀ t' hj hjob hkind
    by_cases hij : j = i
    · subst hij
      obtain rfl := Option.some.inj (hj.symm.trans hi)
      have hlt := (List.getElem?_eq_some_iff.mp hi).1
      exact ⟨t', by simp [hlt], hjob, hkind⟩
    · exact ⟨t, by rwa [List.getElem?_set_ne hij], rfl, rfl⟩
  have happend : ∀ u, ∃ t', (s.tasks ++ [u])[i]? = some t' ∧ t'.job = t.job ∧ t'.kind = t.kind := by
    intro u
    have hlt := (List.getElem?_eq_some_iff.mp hi).1
    exact ⟨t, by rwa [List.getElem?_append_left hlt], rfl, rfl⟩
  cases hstep with
  | thrown a j t₀ t' l c k e cancelling v ha hj hp hthrown hjob hkind => exact hset hj hjob hkind
  | taskStore j answers t₀ l c k v hj => exact hset hj rfl rfl
  | taskCall j answers t₀ l c k r v hj => exact hset hj rfl rfl
  | tickSpawn | reportProgress => exact happend _
  | crash => cases hserving
  | _ => exact ⟨t, hi, rfl, rfl⟩

/-- A task that is done has settled. -/
theorem Inv.settled (hinv : Inv s h) {i : Nat} {t : AgentTask} (hi : s.tasks[i]? = some t)
    (hdone : t.program.done = true) : Settled t.kind (h.task i) := by
  have hok := (hinv.task i t hi).ok
  cases hp : t.program with
  | ret x =>
    rw [hp] at hok
    exact hok
  | await l c k =>
    rw [hp] at hdone
    cases hdone

/-- Serving begins with `serve`. -/
theorem Step.serving (hstep : Step config s h a s' h') (hinv : Inv s h)
    (hserving : s'.serving = true) : s.serving = true ∨ s.serving = false ∧ s'.db = s.db ∧
      s'.tasks = [] ∧ s'.late = [] ∧ h'.tick = {} ∧ Recovered (.ok ()) h.recover := by
  cases hstep with
  | serve x hnot hp =>
    obtain ⟨htasks, -, hlate, -, hok⟩ := hinv.recovering hnot
    rw [hp] at hok
    exact .inr ⟨hnot, rfl, htasks, hlate, rfl, hok⟩
  | crash => cases hserving
  | _ => exact .inl hserving

/-- What is left over after a step was left over before, or is left over by it. -/
theorem Step.late_of (hstep : Step config s h a s' h') {c : StoreCall} (hc : c ∈ s'.late) :
    c ∈ s.late ∨ s'.db = s.db ∧ ∃ i e t l k, s.interrupts a = some (i, e) ∧ s.tasks[i]? = some t ∧
      t.program = .await l (.store c) k ∧ OwnCall t.job t.kind (h.task i) c := by
  cases hstep with
  | thrown a i t t' l c' k e cancelling v ha hi hp hthrown hjob hkind hp' hpre =>
    obtain hc | hc := List.mem_append.mp hc
    · exact .inl hc
    · cases c' with
      | store c' =>
        obtain rfl := List.mem_singleton.mp hc
        exact .inr ⟨rfl, i, e, t, l, k, ha, hi, hp, hpre.2⟩
      | _ => cases hc
  | late n c' hn => exact .inl (List.mem_of_mem_eraseIdx hc)
  | crash => cases hc
  | _ => exact .inl hc

/-- What the tick has listed was listed before, or is not finished; and unless the tick starts over,
no task leaves the table of active tasks. -/
theorem Step.tick_listed (hstep : Step config s h a s' h') (hinv : Inv s h)
    (hserving : s.serving = true) (hserving' : s'.serving = true) {j : JobId}
    (hmem : j ∈ h'.tick.listed) : (Active s j → Active s' j) ∧ (j ∈ h.tick.listed ∨
      s'.db = s.db ∧ ∃ row, s.db.jobs.get j = some row ∧ row.snapshot.state.terminal = false) := by
  cases hstep with
  | tickStore answers l c k v _ hp hpre hpost =>
    simp only at hmem
    rw [hpost.2.1] at hmem
    refine ⟨id, ?_⟩
    by_cases hlist : c = .listNonterminal
    · subst hlist
      obtain hmem | ⟨x, hx, rfl, -⟩ := hmem
      · exact .inl hmem
      · obtain ⟨row, hrow, hterm, rfl⟩ := Db.mem_listNonterminal.mp hx
        obtain ⟨hcolumn, -, hkey, -⟩ := hinv.logs.row _ row hrow
        exact .inr ⟨rfl, row, by rwa [hkey], hcolumn ▸ hterm⟩
    · rw [show ({ h.tick.next l (.store c) (c.exec s.db).1 with known := v.known } : TickView).listed =
        (h.tick.next l (.store c) (c.exec s.db).1).listed from rfl,
        TickView.listed_next _ (fun heq => hlist (Call.store.inj heq)) nofun] at hmem
      exact .inl hmem
  | tickIsActive answers l job k v _ hp hpost =>
    simp only at hmem
    rw [hpost.2.1] at hmem
    refine ⟨id, .inl ?_⟩
    cases hany : (s.active.any fun a => decide (a.1 = job)) <;> rw [hany] at hmem <;> exact hmem
  | tickDropDone answers l k v _ hp hpost =>
    simp only at hmem
    rw [hpost.2.1] at hmem
    cases hmem
  | tickSpawn answers l job kind k v _ hp hpre hpost =>
    simp only at hmem
    rw [hpost.2.1] at hmem
    exact ⟨Active.spawn config kind ((hinv.ticking hserving).1.inactive job hpre.1), .inl hmem⟩
  | tickCall answers l c k r v _ hp hc hactive hdrop hspawn hpost =>
    simp only at hmem
    rw [hpost.2.1] at hmem
    refine ⟨id, .inl ?_⟩
    rwa [show ({ h.tick.next l c r with known := v.known } : TickView).listed =
      (h.tick.next l c r).listed from rfl, TickView.listed_next _ ?_ hdrop] at hmem
    rintro rfl
    cases hc
  | serve => cases hmem
  | crash => cases hserving'
  | _ => exact ⟨id, .inl hmem⟩

/-- A row is never lost, and what replaces it is written over it. -/
theorem Inv.row_step (hinv : Inv s h) (hinv' : Inv s' h') (hext : s.db.Extends s'.db) {j : JobId}
    {row : JobRow} (hrow : s.db.jobs.get j = some row) : ∃ row', s'.db.jobs.get j = some row' ∧
      Relation.ReflTransGen Writes row.snapshot row'.snapshot := by
  have hlog := hext _ _ _ (hinv.logs.last j row hrow)
  obtain ⟨row', hrow', -⟩ := hinv'.logs.row_of_log hlog
  exact ⟨row', hrow', hinv'.logs.chain_row hlog hrow'⟩

end TaskStep

end TrexCli
