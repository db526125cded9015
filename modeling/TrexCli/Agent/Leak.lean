import TrexCli.Agent.Moves

/-!
# Leases of finished jobs

Once a recovery has finished and nothing is going on any more, no port is leased to a job in a
terminal state. This holds of the runs in which the agent does not crash while a finished job holds
ports, the scheduler fails no job that holds ports but for its timeout, and no cancellation reaches
the cleanup of a task whose job holds ports.

`Rested` says of a job without a running task that its ports are in order: it is not finished, or a
release of its ports is still to run.
-/

namespace TrexCli

namespace Db

/-- The job has come to its end. -/
def Ended (db : Db) (j : JobId) : Prop :=
  ∃ row, db.jobs.get j = some row ∧ row.snapshot.state.terminal = true

/-- The job holds a port. -/
def Holding (db : Db) (j : JobId) : Prop := ∃ p, db.leases.HeldBy p j

end Db

/-- The transaction puts the job into a terminal state. -/
def Finishes (c : StoreCall) (j : JobId) : Prop :=
  ∃ x expectedRevision eventType resolvedSpecJson,
    c = .updateSnapshot x expectedRevision eventType resolvedSpecJson ∧ x.jobId = j ∧
      x.state.terminal = true

/-- A release of the job's ports is left over. -/
def Releasing (s : Agent) (j : JobId) : Prop := ∃ quarantine, .releasePorts j quarantine ∈ s.late

/-- A release of the job's ports is still to run, or the job is not finished and nothing that is left
over finishes it. -/
def Rested (s : Agent) (j : JobId) : Prop :=
  s.db.Holding j → Releasing s j ∨ ¬ s.db.Ended j ∧ ∀ c ∈ s.late, ¬ Finishes c j

/-- The condition on a step. -/
structure LeaseSteady (s : Agent) (a : Action) : Prop where
  /-- The agent does not crash while a finished job holds ports. -/
  crash : a = .crash → ∀ j, s.db.Ended j → ¬ s.db.Holding j
  /-- Of jobs that hold ports, the scheduler fails only those that have timed out. -/
  fail : ∀ answers l c k j, a = .scheduler answers → s.serving = true →
    s.scheduler = .await l (.store c) k → l ≠ .timedOut → Finishes c j → ¬ s.db.Holding j
  /-- No cancellation reaches the cleanup of a task, but at the release, while its job holds
  ports. -/
  cancel : ∀ (i : Nat) (t : AgentTask) (l : Site) (c : Call) k, s.interrupts a = some (i, .cancelled) → s.tasks[i]? = some t →
    t.program = .await l c k → l = .unwinding ∨ l = .timedOut →
    (∀ j quarantine, c ≠ .store (.releasePorts j quarantine)) → ¬ s.db.Holding t.job

/-- No task of the job is live. -/
def Idle (s : Agent) (j : JobId) : Prop :=
  ∀ (i : Nat) (t : AgentTask), s.tasks[i]? = some t → Live t → t.job ≠ j

structure LeakInv (s : Agent) (h : History) : Prop where
  /-- A task that has not started has touched nothing. -/
  fresh : s.serving = true → ∀ i t, s.tasks[i]? = some t → Live t → (h.task i).started = false →
    Rested s t.job
  released : s.serving = true → ∀ i t, s.tasks[i]? = some t → Live t →
    (h.task i).holding = false → s.db.Holding t.job → Releasing s t.job
  idle : s.serving = true → ∀ j, Idle s j → h.tick.owing = some j ∨ Rested s j
  recovering : s.serving = false → ∀ j, s.db.Ended j → s.db.Holding j → h.recover.owing = some j
  listed : s.serving = true → ∀ j ∈ h.tick.listed, ∃ row, s.db.jobs.get j = some row
  row : ∀ j, s.db.Holding j → ∃ row, s.db.jobs.get j = some row

section Facts

variable {config : AgentConfig} {s s' : Agent} {h h' : History} {a : Action} {j : JobId}

theorem ended_of_log (hinv : Inv s h) {r : Nat} {x : JobSnapshot} (hx : s.db.logOf j r = some x)
    (hterm : x.state.terminal = true) : s.db.Ended j := by
  obtain ⟨row, hrow, -⟩ := hinv.logs.row_of_log hx
  refine ⟨row, hrow, ?_⟩
  rw [Writes.eq_of_chain (hinv.logs.chain_row hx hrow) hterm]
  exact hterm

/-- A job ends by a transaction that finishes it. -/
theorem Step.ended_of (hstep : Step config s h a s' h') (hinv : Inv s h) (hinv' : Inv s' h')
    (hended : s'.db.Ended j) : s.db.Ended j ∨
      ∃ c : StoreCall, s'.db = (c.exec s.db).2 ∧ Executed s h a c ∧ Finishes c j := by
  obtain ⟨row, hrow, hterm⟩ := hended
  have hlast := hinv'.logs.last j row hrow
  have hexec : ∀ {c : StoreCall}, s'.db = (c.exec s.db).2 → Executed s h a c →
      s.db.Ended j ∨ ∃ c : StoreCall, s'.db = (c.exec s.db).2 ∧ Executed s h a c ∧ Finishes c j := by
    intro c hdb hc
    rw [hdb] at hlast
    obtain hold | ⟨hj, expectedRevision, eventType, resolvedSpecJson, heq⟩ := c.log_of_exec hlast
    · exact .inl (ended_of_log hinv hold hterm)
    · exact .inr ⟨c, hdb, hc, _, _, _, _, heq, hj, hterm⟩
  cases hstep with
  | submit =>
    obtain hold | hstate := submit_frame.2.2 j _ _ hlast
    · exact .inl (ended_of_log hinv hold hterm)
    · rw [hstate] at hterm
      cases hterm
  | requestCancel =>
    obtain hold | ⟨r, y, hy, hstate⟩ := (requestCancel_frame hinv.logs).2.2 j _ _ hlast
    · exact .inl (ended_of_log hinv hold hterm)
    · exact .inl (ended_of_log hinv hy (hstate ▸ hterm))
  | taskStore i answers t l c k v hi hp hpre =>
    exact hexec rfl (.task i answers t l c k hi hp hpre.2)
  | tickStore answers l c k v hserving hp hpre =>
    exact hexec rfl (.tick answers l c k hserving hp hpre.2)
  | recoverStore answers l c k v hserving hp hpre =>
    exact hexec rfl (.recover answers l c k hserving hp hpre.2)
  | late n c hn => exact hexec rfl (.late n c hn)
  | _ => exact .inl ⟨row, hrow, hterm⟩

/-- A job holds ports that it held before, or that the scheduler has granted to it. -/
theorem Step.holding_of (hstep : Step config s h a s' h') (hinv : Inv s h)
    (hholding : s'.db.Holding j) : (s.db.Holding j ∧ ∀ c : StoreCall, s'.db = (c.exec s.db).2 →
        Executed s h a c → ∀ quarantine, c ≠ .releasePorts j quarantine) ∨
      ∃ ports, s'.db = ((StoreCall.acquirePorts j ports).exec s.db).2 ∧
        Executed s h a (.acquirePorts j ports) := by
  obtain ⟨p, hp⟩ := hholding
  have hnot : ∀ c : StoreCall, s'.db = (c.exec s.db).2 → ∀ quarantine, c ≠ .releasePorts j quarantine := by
    rintro c hdb quarantine rfl
    rw [hdb, StoreCall.exec_leases] at hp
    exact (Leases.heldBy_releasePorts.mp hp).2 rfl
  obtain ⟨hleases, -⟩ | ⟨c, hdb, hc⟩ := hstep.tables hinv
  · exact .inl ⟨⟨p, hleases ▸ hp⟩, fun c hdb _ => hnot c hdb⟩
  · by_cases hacquire : ∃ ports, c = .acquirePorts j ports
    · obtain ⟨ports, rfl⟩ := hacquire
      exact .inr ⟨ports, hdb, hc⟩
    · push Not at hacquire
      rw [hdb] at hp
      exact .inl ⟨⟨p, (c.heldBy_of_exec hp hacquire).1⟩, fun c hdb _ => hnot c hdb⟩

/-- What is left over stays so until it runs. -/
theorem Step.late_kept (hstep : Step config s h a s' h') (hserving : s'.serving = true)
    {c : StoreCall} (hc : c ∈ s.late) :
    c ∈ s'.late ∨ s'.db = (c.exec s.db).2 ∧ Executed s h a c := by
  cases hstep with
  | thrown => exact .inl (List.mem_append_left _ hc)
  | late n c' hn =>
    by_cases heq : c = c'
    · exact .inr ⟨heq ▸ rfl, heq ▸ .late n c' hn⟩
    · left
      refine List.mem_eraseIdx_iff_getElem?.mpr ?_
      obtain ⟨m, hm⟩ := List.mem_iff_getElem?.mp hc
      refine ⟨m, ?_, hm⟩
      rintro rfl
      exact heq (Option.some.inj (hm.symm.trans hn))
  | crash => cases hserving
  | _ => exact .inl hc

theorem Finishes.target {c : StoreCall} (h : Finishes c j) : c.target = some j := by
  obtain ⟨x, _, _, _, rfl, rfl, -⟩ := h
  rfl

/-- Who finishes a job: a transaction that is left over, the job's own task, or the scheduler. -/
theorem Executed.finishes {c : StoreCall} (hc : Executed s h a c) (hf : Finishes c j) :
    c ∈ s.late ∨
    (∃ (i : Nat) (t : AgentTask), s.tasks[i]? = some t ∧ Live t ∧ t.job = j ∧
      (h.task i).started = true) ∨
    (∃ answers l k, a = .scheduler answers ∧ s.serving = true ∧ s.scheduler = .await l (.store c) k ∧
      j ∈ h.tick.inactive) ∨ s.serving = false := by
  obtain ⟨x, expectedRevision, eventType, resolvedSpecJson, rfl, rfl, hterm⟩ := hf
  cases hc with
  | task i answers t l c k hi hp hown =>
    obtain ⟨hjob, hstarted, hreport⟩ := hown
    cases hkind : t.kind.isReport with
    | true =>
      rw [(hreport hkind).1] at hterm
      cases hterm
    | false =>
      exact .inr (.inl ⟨i, t, hi, live_of_await hp hkind, hjob.symm, hstarted hkind⟩)
  | tick answers l c k hserving hp hcall =>
    exact .inr (.inr (.inl ⟨answers, l, k, rfl, hserving, hp, hcall.1⟩))
  | recover answers l c k hserving => exact .inr (.inr (.inr hserving))
  | late n c hn => exact .inl (List.mem_of_getElem? hn)

/-- The view of the tick after a transaction of it. -/
theorem Step.tick_store (hstep : Step config s h a s' h') {answers : Answers} {l : Site}
    {c : StoreCall} {k} (ha : a = .scheduler answers) (hserving : s.serving = true)
    (hp : s.scheduler = .await l (.store c) k) :
    h'.tick = { h.tick.next l (.store c) (c.exec s.db).1 with known := h'.tick.known } := by
  subst ha
  cases hstep with
  | thrown a i t t' l' c' k' e cancelling v ha => cases ha
  | tickStore answers l' c' k' v _ hp' hpre hpost =>
    obtain ⟨rfl, hc, -⟩ := Coroutine.Prog.await.inj (hp.symm.trans hp')
    obtain rfl := Call.store.inj hc
    exact hpost.2.1
  | tickIsActive _ _ _ _ _ _ hp' =>
    obtain ⟨-, hc, -⟩ := Coroutine.Prog.await.inj (hp.symm.trans hp')
    cases hc
  | tickDropDone _ _ _ _ _ hp' =>
    obtain ⟨-, hc, -⟩ := Coroutine.Prog.await.inj (hp.symm.trans hp')
    cases hc
  | tickSpawn _ _ _ _ _ _ _ hp' =>
    obtain ⟨-, hc, -⟩ := Coroutine.Prog.await.inj (hp.symm.trans hp')
    cases hc
  | tickCall _ _ _ _ _ _ _ hp' hc =>
    obtain ⟨-, rfl, -⟩ := Coroutine.Prog.await.inj (hp.symm.trans hp')
    cases hc
  | recoverStore _ _ _ _ _ hnot | recoverCall _ _ _ _ _ _ hnot =>
    rw [hserving] at hnot
    cases hnot

/-- A release that the tick owes stays owed until the ports are released. -/
theorem Step.tick_owing (hstep : Step config s h a s' h') (hserving : s.serving = true)
    (howing : h.tick.owing = some j) :
    h'.tick.owing = some j ∨ ¬ s'.db.Holding j := by
  cases hstep with
  | tickStore answers l c k v _ hp hpre hpost =>
    cases c with
    | releasePorts job quarantine =>
      obtain ⟨-, -, -, -, howed⟩ := hpre
      obtain rfl : j = job := by simpa [howing] using howed
      right
      rintro ⟨p, hp⟩
      exact (Leases.heldBy_releasePorts.mp hp).2 rfl
    | updateSnapshot x expectedRevision eventType resolvedSpecJson =>
      obtain ⟨-, -, howed⟩ := hpre
      obtain rfl : j = x.jobId := by simpa [howing] using howed
      left
      simp only
      rw [hpost.2.1]
      simp only [TickView.next, TickView.wrote]
      split
      · rfl
      · exact howing
    | _ =>
      left
      simp only
      rw [hpost.2.1]
      refine (TickView.next_owing _ ?_ ?_).trans howing <;> simp
  | tickIsActive answers l job k v _ hp hpost =>
    left
    simp only
    rw [hpost.2.1]
    cases s.active.any fun a => decide (a.1 = job) <;> exact howing
  | tickDropDone answers l k v _ hp hpost =>
    left
    simp only
    rw [hpost.2.1]
    exact howing
  | tickSpawn answers l job kind k v _ hp hpre hpost =>
    obtain ⟨-, -, hnone, -⟩ := hpre
    rw [howing] at hnone
    cases hnone
  | tickCall answers l c k r v _ hp hc hactive hdrop hspawn hpost =>
    left
    simp only
    rw [hpost.2.1]
    cases c with
    | store c => cases hc
    | isActive job => exact absurd rfl (hactive job)
    | _ => exact howing
  | serve x hnot =>
    rw [hserving] at hnot
    cases hnot
  | _ => exact .inl howing

/-- A release that the recovery owes stays owed until the ports are released. -/
theorem Step.recover_owing (hstep : Step config s h a s' h') (hnot : s'.serving = false)
    (ha : a ≠ .crash) (howing : h.recover.owing = some j) :
    h'.recover.owing = some j ∨ ¬ s'.db.Holding j := by
  cases hstep with
  | recoverStore answers l c k v _ hp hpre hpost =>
    cases c with
    | releasePorts job quarantine =>
      obtain ⟨-, -, howed⟩ := hpre
      obtain rfl : j = job := by simpa [howing] using howed
      right
      rintro ⟨p, hp⟩
      exact (Leases.heldBy_releasePorts.mp hp).2 rfl
    | updateSnapshot x expectedRevision eventType resolvedSpecJson =>
      obtain ⟨-, -, howed⟩ := hpre
      obtain rfl : j = x.jobId := by simpa [howing] using howed
      left
      simp only
      rw [hpost.2.1]
      rfl
    | _ =>
      left
      simp only
      rw [hpost.2.1]
      refine (RecoverView.next_owing _ ?_ ?_).trans howing <;> simp
  | recoverCall answers l c k r v _ hp hc hpost =>
    left
    simp only
    rw [hpost.2.1]
    refine (RecoverView.next_owing _ ?_ ?_).trans howing
    · rintro x expectedRevision eventType resolvedSpecJson rfl
      cases hc
    · rintro job quarantine rfl
      cases hc
  | crash => exact absurd rfl ha
  | serve => cases hnot
  | _ => exact .inl howing

/-- After a transaction of the recovery that finishes a job, the release of its ports is owed. -/
theorem Step.recover_finishes (hstep : Step config s h a s' h') (hinv : Inv s h)
    (hnot : s.serving = false) {c : StoreCall} (hc : Executed s h a c) (hf : Finishes c j) :
    h'.recover.owing = some j := by
  obtain ⟨htasks, -, hlate, -⟩ := hinv.recovering hnot
  cases hc with
  | task i answers t l c k hi =>
    rw [htasks] at hi
    simp at hi
  | tick answers l c k hserving =>
    rw [hnot] at hserving
    cases hserving
  | late n c hn =>
    rw [hlate] at hn
    simp at hn
  | recover answers l c k _ hp hcall =>
    obtain ⟨x, expectedRevision, eventType, resolvedSpecJson, rfl, rfl, -⟩ := hf
    cases hstep with
    | thrown a i t t' l' c' k' e cancelling v ha => cases ha
    | recoverStore answers l' c' k' v _ hp' hpre hpost =>
      obtain ⟨-, hc, -⟩ := Coroutine.Prog.await.inj (hp.symm.trans hp')
      obtain rfl := Call.store.inj hc
      simp only
      rw [hpost.2.1]
      rfl
    | recoverCall _ _ _ _ _ _ _ hp' hc =>
      obtain ⟨-, rfl, -⟩ := Coroutine.Prog.await.inj (hp.symm.trans hp')
      cases hc
    | tickStore _ _ _ _ _ hserving | tickIsActive _ _ _ _ _ hserving
    | tickDropDone _ _ _ _ hserving | tickSpawn _ _ _ _ _ _ hserving
    | tickCall _ _ _ _ _ _ hserving =>
      rw [hnot] at hserving
      cases hserving

end Facts

namespace LeakInv

variable {config : AgentConfig} {s s' : Agent} {h h' : History} {a : Action} {j : JobId}

/-- An untouched job is not finished. -/
theorem not_ended_of_untouched (hinv : Inv s h) (hu : Untouched s j) : ¬ s.db.Ended j := by
  rintro ⟨row, hrow, hterm⟩
  have hearly := hu.early _ _ (hinv.logs.last j row hrow)
  revert hterm hearly
  cases row.snapshot.state <;> decide

/-- A job in order stays so, unless it is finished by its own task, or by the scheduler, which then
owes the release. -/
theorem rested_step (hinv : Inv s h) (hinv' : Inv s' h') (hsteady : LeaseSteady s a)
    (hstep : Step config s h a s' h') (hserving : s.serving = true) (hserving' : s'.serving = true)
    (hrested : Rested s j)
    (hown : ∀ i t, s.tasks[i]? = some t → Live t → t.job = j → (h.task i).started = false) :
    Rested s' j ∨ h'.tick.owing = some j ∧ ¬ Active s j := by
  -- a job whose own task has started is out of the question
  have hstarted : ¬ ∃ (i : Nat) (t : AgentTask), s.tasks[i]? = some t ∧ Live t ∧ t.job = j ∧
      (h.task i).started = true := by
    rintro ⟨i, t, hi, hlive, hjob, hstart⟩
    rw [hown i t hi hlive hjob] at hstart
    cases hstart
  -- nothing new is left over that finishes the job
  have hlate : (∀ c ∈ s.late, ¬ Finishes c j) → ∀ c ∈ s'.late, ¬ Finishes c j := by
    intro hnone c hc hf
    obtain hc | ⟨-, i, e, t, l, k, -, hi, hp, hcall⟩ := hstep.late_of hc
    · exact hnone c hc hf
    · obtain hlate | hown' | ⟨_, _, _, ha, -⟩ | hnot :=
        (Executed.task i (fun _ => .error .cancelled) t l c k hi hp hcall).finishes hf
      · exact hnone c hlate hf
      · exact hstarted hown'
      · cases ha
      · rw [hserving] at hnot
        cases hnot
  by_cases hholding : s'.db.Holding j
  swap
  · exact .inl fun hj => absurd hj hholding
  obtain ⟨hbefore, hrelease⟩ | ⟨ports, hdb, hc⟩ := hstep.holding_of hinv hholding
  · obtain ⟨q, hq⟩ | ⟨hended, hnone⟩ := hrested hbefore
    · -- the release that is left over has not run
      refine .inl fun _ => .inl ⟨q, ?_⟩
      exact (hstep.late_kept hserving' hq).resolve_right fun hrun =>
        hrelease _ hrun.1 hrun.2 q rfl
    · by_cases hended' : s'.db.Ended j
      swap
      · exact .inl fun _ => .inr ⟨hended', hlate hnone⟩
      obtain hold | ⟨c, hdb, hc, hf⟩ := hstep.ended_of hinv hinv' hended'
      · exact absurd hold hended
      obtain hlate | hown' | ⟨answers, l, k, ha, -, hp, hinactive⟩ | hnot := hc.finishes hf
      · exact absurd hf (hnone c hlate)
      · exact absurd hown' hstarted
      · have htimed : l = .timedOut := by
          by_contra hl
          exact hsteady.fail answers l c k j ha hserving hp hl hf hbefore
        refine .inr ⟨?_, (hinv.ticking hserving).1.inactive j hinactive⟩
        obtain ⟨x, _, _, _, rfl, rfl, -⟩ := hf
        rw [hstep.tick_store ha hserving hp]
        simp [TickView.next, TickView.wrote, htimed]
      · rw [hserving] at hnot
        cases hnot
  · -- the ports have just been granted
    obtain ⟨-, -, -, hu⟩ := hc.acquire hinv
    refine .inl fun _ => .inr ⟨fun hended' => ?_, hlate fun c hc hf => hu.late c hc hf.target⟩
    rw [hdb] at hended'
    exact not_ended_of_untouched hinv hu hended'

/-- A task that has started stays so. -/
theorem started_of_post {job : JobId} {kind : TaskKind} {v v' : TaskView} {l : Site} {c : Call}
    {r : Except Exc c.Res} (hpost : (taskContract job kind).post v l c r v')
    (hstarted : v.started = true) : v'.started = true := by
  rw [hpost.2.1]
  by_cases hc : ∃ m, c = .store (.saveExecutionMarker m)
  · obtain ⟨m, rfl⟩ := hc
    cases r <;> exact hstarted
  · push Not at hc
    exact (v.next_le l r hc).2.2 hstarted

/-- What a step of a task leaves: if it owes no release any more, its job holds no ports or a release
of them is left over. -/
theorem released_of_moved (hq : LeakInv s h) (hinv : Inv s h) (hsteady : LeaseSteady s a)
    (hstep : Step config s h a s' h') (hserving : s.serving = true) (hserving' : s'.serving = true)
    {i : Nat} {t : AgentTask} {l : Site} {c : Call}
    {k : Except Exc c.Res → Task (Except Exc Unit × Unit)} {r : Except Exc c.Res}
    (hi : s.tasks[i]? = some t) (hp : t.program = .await l c k) (hkind : t.kind.isReport = false)
    (hpre : (taskContract t.job t.kind).pre (h.task i) l c)
    (hpost : (taskContract t.job t.kind).post (h.task i) l c r (h'.task i))
    (hanswer : Answer s a s' i l c r) (hfree : (h'.task i).holding = false)
    (hholding : s'.db.Holding t.job) : Releasing s' t.job := by
  have hlive := live_of_await hp hkind
  obtain ⟨hbefore, hrelease⟩ | ⟨ports, hdb, hc⟩ := hstep.holding_of hinv hholding
  swap
  · exact absurd ⟨i, hinv.registered i t hi hlive⟩ (hc.acquire hinv).2.2.1
  cases hheld : (h.task i).holding with
  | false =>
    obtain ⟨q, hq⟩ := hq.released hserving i t hi hlive hheld hbefore
    refine ⟨q, (hstep.late_kept hserving' hq).resolve_right fun hrun => ?_⟩
    exact hrelease _ hrun.1 hrun.2 q rfl
  | true =>
    rw [hpost.2.1] at hfree
    have hdebts : (∀ e, r = .error e → e.isException = true) → c.settles = true := by
      intro hr
      by_contra hc
      have hsame := ((h.task i).next_debts l hr (by simpa using hc)).2
      rw [hheld] at hsame
      exact absurd (hsame.symm.trans hfree) (by decide)
    cases hanswer with
    | interrupted c e ha hthrown hdb hlate =>
      by_cases hcall : ∃ j q, c = .store (.releasePorts j q)
      · obtain ⟨j, q, rfl⟩ := hcall
        obtain rfl := hpre.2.1
        exact ⟨q, by rw [hlate]; exact List.mem_append_right _ List.mem_cons_self⟩
      · push Not at hcall
        have hsave : ∀ m, c ≠ .store (.saveExecutionMarker m) := by
          rintro m rfl
          rw [show ((h.task i).next l (.store (.saveExecutionMarker m)) (.error e)).holding =
            (h.task i).holding from rfl, hheld] at hfree
          cases hfree
        have hnext : (h.task i).next l c (.error e) = (h.task i).interrupted l c e :=
          TaskView.failed_thrown hsave hthrown
        rw [hnext] at hfree
        obtain ⟨rfl, hl⟩ := TaskView.interrupted_holding hheld hcall hfree
        exact absurd hbefore (hsteady.cancel i t l c k ha hi hp hl hcall)
    | stored c hdb hlate =>
      have hsettles := hdebts fun e he => c.exec_isException he
      cases c with
      | saveExecutionMarker | deleteExecutionMarker =>
        rw [show (h.task i).holding = false from hfree] at hheld
        cases hheld
      | releasePorts j quarantine =>
        obtain rfl := hpre.2.1
        rw [hdb] at hholding
        obtain ⟨p, hp⟩ := hholding
        exact absurd rfl (Leases.heldBy_releasePorts.mp hp).2
      | _ => cases hsettles
    | answered c r hc hraises =>
      have hsettles := hdebts hraises
      cases c with
      | store c => cases hc
      | _ => cases hsettles

section Step

variable (hq : LeakInv s h) (hinv : Inv s h) (hinv' : Inv s' h') (hsteady : LeaseSteady s a)
variable (hstep : Step config s h a s' h')

include hq hinv hinv' hsteady hstep

/-- A task that has not started when it ends a step was in order before. -/
theorem fresh_of_live (hserving : s.serving = true) (hserving' : s'.serving = true) {i : Nat}
    {t : AgentTask} (hi : s.tasks[i]? = some t) (hlive : Live t)
    (hstarted : (h.task i).started = false) : Rested s' t.job := by
  refine (rested_step hinv hinv' hsteady hstep hserving hserving' (hq.fresh hserving i t hi hlive hstarted)
    ?_).resolve_right fun hactive => hactive.2 ⟨i, hinv.registered i t hi hlive⟩
  intro i' t' hi' hlive' hjob
  obtain rfl := hinv.live_unique hi' hi hlive' hlive hjob
  exact hstarted

/-- What a job has left behind when a step leaves it without a live task. -/
theorem rested_of_done (hserving : s.serving = true) (hserving' : s'.serving = true) {i : Nat}
    {t : AgentTask} (hi : s.tasks[i]? = some t) (hlive : Live t)
    (hdone : Idle s' j) (hjob : t.job = j) :
    Rested s' j := by
  subst hjob
  obtain ⟨t', hi', hjob', hkind'⟩ := hstep.task_exists hserving' hi
  have hend : t'.program.done = true := by
    by_contra hnot
    exact hdone i t' hi' ⟨by simpa using hnot, hkind' ▸ hlive.2⟩ hjob'
  have hsettled := (hinv'.settled hi' hend (hkind' ▸ hlive.2)).2
  cases hstep.task hinv hi' with
  | kept hi₀ =>
    obtain rfl := Option.some.inj (hi.symm.trans hi₀)
    exact absurd hlive.1 (by simp [hend])
  | moved t₀ l c k r hi₀ hp hjob₀ hkind₀ hpre hpost hanswer =>
    obtain rfl := Option.some.inj (hi.symm.trans hi₀)
    cases hstart : (h'.task i).started with
    | true =>
      exact fun hholding => .inl (released_of_moved hq hinv hsteady hstep hserving hserving' hi hp
        hlive.2 hpre hpost hanswer (hsettled hstart) hholding)
    | false =>
      refine fresh_of_live hq hinv hinv' hsteady hstep hserving hserving' hi hlive ?_
      by_contra hne
      rw [started_of_post hpost (by simpa using hne)] at hstart
      cases hstart
  | spawned l v hi₀ =>
    rw [hi] at hi₀
    cases hi₀
  | reported hi₀ =>
    rw [hi] at hi₀
    cases hi₀

theorem step_fresh (hserving : s.serving = true) (hserving' : s'.serving = true) {i : Nat}
    {t' : AgentTask} (hi' : s'.tasks[i]? = some t') (hlive' : Live t')
    (hstarted : (h'.task i).started = false) : Rested s' t'.job := by
  cases hstep.task hinv hi' with
  | kept hi hview =>
    exact fresh_of_live hq hinv hinv' hsteady hstep hserving hserving' hi hlive' (hview ▸ hstarted)
  | moved t l c k r hi hp hjob hkind hpre hpost hanswer =>
    rw [hjob]
    refine fresh_of_live hq hinv hinv' hsteady hstep hserving hserving' hi
      (live_of_await hp (hkind ▸ hlive'.2)) ?_
    by_contra hne
    rw [started_of_post hpost (by simpa using hne)] at hstarted
    cases hstarted
  | spawned l v hi _ hdb hlate hpre =>
    obtain ⟨hinactive, -, hnone, -⟩ := hpre
    have hidle := (hinv.ticking hserving).1.inactive _ hinactive
    have hrested : Rested s t'.job := by
      refine (hq.idle hserving t'.job fun i t hi hlive hjob => ?_).resolve_left (by simp [hnone])
      exact hidle ⟨i, hjob ▸ hinv.registered i t hi hlive⟩
    unfold Rested Releasing
    rw [hdb, hlate]
    exact hrested
  | reported hi hkind =>
    rw [hlive'.2] at hkind
    cases hkind

omit hinv' in
theorem step_released (hserving : s.serving = true) (hserving' : s'.serving = true) {i : Nat}
    {t' : AgentTask} (hi' : s'.tasks[i]? = some t') (hlive' : Live t')
    (hfree : (h'.task i).holding = false) (hholding : s'.db.Holding t'.job) :
    Releasing s' t'.job := by
  cases hstep.task hinv hi' with
  | kept hi hview =>
    obtain ⟨hbefore, hrelease⟩ | ⟨ports, hdb, hc⟩ := hstep.holding_of hinv hholding
    · obtain ⟨q, hq⟩ := hq.released hserving i t' hi hlive' (hview ▸ hfree) hbefore
      refine ⟨q, (hstep.late_kept hserving' hq).resolve_right fun hrun => ?_⟩
      exact hrelease _ hrun.1 hrun.2 q rfl
    · exact absurd ⟨i, hinv.registered i t' hi hlive'⟩ (hc.acquire hinv).2.2.1
  | moved t l c k r hi hp hjob hkind hpre hpost hanswer =>
    rw [hjob] at hholding ⊢
    exact released_of_moved hq hinv hsteady hstep hserving hserving' hi hp (hkind ▸ hlive'.2) hpre hpost
      hanswer hfree hholding
  | spawned l v hi _ hdb hlate hpre hview =>
    rw [hview] at hfree
    cases hfree
  | reported hi hkind =>
    rw [hlive'.2] at hkind
    cases hkind

theorem step_idle (hserving : s.serving = true) (hserving' : s'.serving = true)
    (hidle : Idle s' j) : h'.tick.owing = some j ∨ Rested s' j := by
  by_cases hbusy : ∃ (i : Nat) (t : AgentTask), s.tasks[i]? = some t ∧ Live t ∧ t.job = j
  · obtain ⟨i, t, hi, hlive, hjob⟩ := hbusy
    exact .inr (rested_of_done hq hinv hinv' hsteady hstep hserving hserving' hi hlive hidle hjob)
  · have hbefore : Idle s j := fun i t hi hlive hjob => hbusy ⟨i, t, hi, hlive, hjob⟩
    obtain howing | hrested := hq.idle hserving j hbefore
    · refine (hstep.tick_owing hserving howing).imp_right fun hnot hholding => ?_
      exact absurd hholding hnot
    · refine (rested_step hinv hinv' hsteady hstep hserving hserving' hrested ?_).symm.imp_left And.left
      exact fun i t hi hlive hjob => absurd hjob (hbefore i t hi hlive)

/-- What a step of the recovery leaves: a finished job holds ports only while the recovery owes
their release. -/
theorem step_recovering (hnot' : s'.serving = false) (hended : s'.db.Ended j)
    (hholding : s'.db.Holding j) : h'.recover.owing = some j := by
  by_cases hcrash : a = .crash
  · subst hcrash
    cases hstep with
    | thrown a i t t' l c k e cancelling v ha => cases ha
    | crash => exact absurd hholding (hsteady.crash rfl j hended)
  have hnot : s.serving = false := by
    cases hstep with
    | serve => cases hnot'
    | crash => exact absurd rfl hcrash
    | _ => exact hnot'
  obtain ⟨hbefore, -⟩ | ⟨ports, hdb, hc⟩ := hstep.holding_of hinv hholding
  · obtain hold | ⟨c, hdb, hc, hf⟩ := hstep.ended_of hinv hinv' hended
    · exact (hstep.recover_owing hnot' hcrash (hq.recovering hnot j hold hbefore)).resolve_right
        (not_not.mpr hholding)
    · exact hstep.recover_finishes hinv hnot hc hf
  · rw [(hc.acquire hinv).1] at hnot
    cases hnot

omit hsteady in
theorem step_rows : (s'.serving = true → ∀ j ∈ h'.tick.listed, ∃ row, s'.db.jobs.get j = some row) ∧
    ∀ j, s'.db.Holding j → ∃ row, s'.db.jobs.get j = some row := by
  have hkeep : ∀ {j row}, s.db.jobs.get j = some row → ∃ row', s'.db.jobs.get j = some row' := by
    intro j row hrow
    obtain ⟨row', hrow', -⟩ := hinv.row_step hinv' (hinv.step_logs hstep).2 hrow
    exact ⟨row', hrow'⟩
  refine ⟨fun hserving' j hmem => ?_, fun j hholding => ?_⟩
  · obtain hserving | ⟨-, -, -, -, hview, -⟩ := hstep.serving hinv hserving'
    · obtain ⟨-, hmem | ⟨hdb, row, hrow, -⟩⟩ := hstep.tick_listed hinv hserving hserving' hmem
      · obtain ⟨row, hrow⟩ := hq.listed hserving j hmem
        exact hkeep hrow
      · exact hkeep hrow
    · rw [hview] at hmem
      cases hmem
  · obtain ⟨hbefore, -⟩ | ⟨ports, hdb, hc⟩ := hstep.holding_of hinv hholding
    · obtain ⟨row, hrow⟩ := hq.row j hbefore
      exact hkeep hrow
    · obtain ⟨hserving, hlisted, -⟩ := hc.acquire hinv
      obtain ⟨row, hrow⟩ := hq.listed hserving j hlisted
      exact hkeep hrow

end Step

/-- When the recovery ends, every job that holds ports is in order. -/
theorem serve_rested (hq : LeakInv s h) (hnot : s.serving = false) (hdb : s'.db = s.db)
    (hlate : s'.late = []) (hrecovered : Recovered (.ok ()) h.recover) : Rested s' j := by
  intro hholding
  refine .inr ⟨fun hended => ?_, by simp [hlate]⟩
  rw [hdb] at hended hholding
  have howing := hq.recovering hnot j hended hholding
  rw [(hrecovered rfl).1] at howing
  cases howing

theorem step (hq : LeakInv s h) (hinv : Inv s h) (hinv' : Inv s' h') (hsteady : LeaseSteady s a)
    (hstep : Step config s h a s' h') : LeakInv s' h' where
  fresh hserving' i t hi hlive hstarted := by
    obtain hserving | ⟨-, -, htasks, -⟩ := hstep.serving hinv hserving'
    · exact step_fresh hq hinv hinv' hsteady hstep hserving hserving' hi hlive hstarted
    · rw [htasks] at hi
      simp at hi
  released hserving' i t hi hlive hfree hholding := by
    obtain hserving | ⟨-, -, htasks, -⟩ := hstep.serving hinv hserving'
    · exact step_released hq hinv hsteady hstep hserving hserving' hi hlive hfree hholding
    · rw [htasks] at hi
      simp at hi
  idle hserving' j hidle := by
    obtain hserving | ⟨hnot, hdb, -, hlate, -, hrecovered⟩ := hstep.serving hinv hserving'
    · exact step_idle hq hinv hinv' hsteady hstep hserving hserving' hidle
    · exact .inr (serve_rested hq hnot hdb hlate hrecovered)
  recovering hnot' j := step_recovering hq hinv hinv' hsteady hstep hnot'
  listed := (step_rows hq hinv hinv' hstep).1
  row := (step_rows hq hinv hinv' hstep).2

theorem init (logicalPorts : List PortId) : LeakInv (Agent.init logicalPorts) History.init where
  fresh hserving := by simp [Agent.init] at hserving
  released hserving := by simp [Agent.init] at hserving
  idle hserving := by simp [Agent.init] at hserving
  recovering := by
    rintro - j ⟨row, hrow, -⟩
    simp [Agent.init, Db.empty] at hrow
  listed hserving := by simp [Agent.init] at hserving
  row := by
    rintro j ⟨p, r, hr, hj⟩
    rw [show (Agent.init logicalPorts).db.leases = Leases.insertPorts .empty logicalPorts from rfl,
      Leases.get_insertPorts] at hr
    split at hr
    · obtain rfl := Option.some.inj hr
      cases hj
    · cases hr

end LeakInv

/-- The recovery has finished, the scheduler is between two ticks, no task is live and no transaction
is left over. -/
structure Quiescent (s : Agent) : Prop where
  serving : s.serving = true
  scheduler : s.scheduler.done = true
  tasks : ∀ t ∈ s.tasks, t.program.done = true
  late : s.late = []

/-- Every port is available, in quarantine, or leased to a job that is not finished. -/
def NoLeak (db : Db) : Prop :=
  ∀ p r, db.leases.get p = some r → r.status = .available ∨ r.status = .quarantined ∨
    ∃ j row, r.jobId = some j ∧ db.jobs.get j = some row ∧ row.state.terminal = false

/-- In every run whose steps meet the condition, no lease is leaked once nothing is going on. -/
theorem no_leak (config : AgentConfig) (logicalPorts : List PortId) {s : Agent}
    (hs : s.Reach config LeaseSteady logicalPorts) (hquiet : Quiescent s) : NoLeak s.db := by
  obtain ⟨h, hinv, hq⟩ := Agent.Reach.inv (LeakInv.init logicalPorts)
    (fun _ _ _ _ _ hinv hinv' hq hsteady hstep => hq.step hinv hinv' hsteady hstep) hs
  intro p r hr
  cases hj : r.jobId with
  | none =>
    cases hstatus : r.status with
    | available => exact .inl rfl
    | quarantined => exact .inr (.inl rfl)
    | leased => exact absurd hj ((hinv.leases p r hr).held.mp hstatus)
  | some j =>
    have hholding : s.db.Holding j := ⟨p, r, hr, hj⟩
    obtain ⟨row, hrow⟩ := hq.row j hholding
    refine .inr (.inr ⟨j, row, rfl, hrow, ?_⟩)
    have hidle : Idle s j := fun i t hi hlive => by
      have hdone := hquiet.tasks t (List.mem_of_getElem? hi)
      rw [hlive.1] at hdone
      cases hdone
    have hnone : h.tick.owing = none := by
      have hok := (hinv.ticking hquiet.serving).2
      have hdone := hquiet.scheduler
      cases hp : s.scheduler with
      | ret x =>
        rw [hp] at hok
        exact hok
      | await l c k =>
        rw [hp] at hdone
        cases hdone
    obtain howing | hrested := hq.idle hquiet.serving j hidle
    · rw [hnone] at howing
      cases howing
    · obtain ⟨q, hmem⟩ | ⟨hended, -⟩ := hrested hholding
      · rw [hquiet.late] at hmem
        cases hmem
      · rw [(hinv.logs.row j row hrow).1]
        by_contra hterm
        exact hended ⟨row, hrow, by simpa using hterm⟩

open TrexCli.Action (launch schedule resume)

/-- A check that implies the condition: nothing is interrupted, nothing crashes, and the scheduler
fails no job. -/
def leaseCheck (s : Agent) (a : Action) : Bool :=
  a.quiet && match a, s.scheduler with
    | .crash, _ => false
    | .scheduler _, .await _ (.store (.updateSnapshot x ..)) _ => !x.state.terminal
    | _, _ => true

theorem leaseSteady_of_check {s : Agent} {a : Action} (h : leaseCheck s a = true) :
    LeaseSteady s a := by
  obtain ⟨hquiet, h⟩ := Bool.and_eq_true_iff.mp h
  refine ⟨?_, ?_, fun i t l c k hinterrupts => ?_⟩
  · rintro rfl
    cases h
  · rintro answers l c k j rfl - hp - ⟨x, _, _, _, rfl, -, hterm⟩
    rw [hp] at h
    simp [hterm] at h
  · rw [Action.interrupts_of_quiet hquiet] at hinterrupts
    cases hinterrupts

instance (s : Agent) : Decidable (Quiescent s) :=
  decidable_of_iff (s.serving = true ∧ s.scheduler.done = true ∧
    (∀ t ∈ s.tasks, t.program.done = true) ∧ s.late.isEmpty = true)
    ⟨fun ⟨h₁, h₂, h₃, h₄⟩ => ⟨h₁, h₂, h₃, List.isEmpty_iff.mp h₄⟩,
      fun ⟨h₁, h₂, h₃, h₄⟩ => ⟨h₁, h₂, h₃, List.isEmpty_iff.mpr h₄⟩⟩

theorem no_leak_succeeded : ∃ s, (Agent.init [0, 1]).runChecked labConfig leaseCheck
    (launch ++ resume 0 42) = some s ∧ NoLeak s.db := by
  have hrun : ((Agent.init [0, 1]).runChecked labConfig leaseCheck (launch ++ resume 0 42)).map
      (fun s => decide (Quiescent s)) = some true := by decide +kernel
  obtain ⟨s, hs, hquiet⟩ := Option.map_eq_some_iff.mp hrun
  exact ⟨s, hs, no_leak labConfig [0, 1]
    (Agent.reach_of_runChecked _ (fun _ _ => leaseSteady_of_check) .init hs) (of_decide_eq_true hquiet)⟩

/-- The agent crashes after a job has succeeded and before its ports are released; the recovery finds
neither the job nor a marker. -/
def crashAfterSuccess : List Action :=
  launch ++ resume 0 41 ++ [.crash] ++ schedule 2 ++ [.serve]

/-- Without the condition, a finished job can keep its ports for good. -/
theorem not_no_leak_crashAfterSuccess :
    ∃ s, (Agent.init [0, 1]).run labConfig crashAfterSuccess = some s ∧
      s.Reach labConfig (fun _ _ => True) [0, 1] ∧ Quiescent s ∧ ¬ NoLeak s.db := by
  have hrun : ((Agent.init [0, 1]).run labConfig crashAfterSuccess).map
      (fun s => (decide (Quiescent s), s.db.leases.get 0, (s.db.jobs.get 7).map JobRow.state)) =
      some (true, some { portId := 0, jobId := some 7, generation := 1, status := .leased },
        some .succeeded) := by decide +kernel
  obtain ⟨s, hs, hrows⟩ := Option.map_eq_some_iff.mp hrun
  obtain ⟨hquiet, hrows⟩ := Prod.mk.inj hrows
  obtain ⟨hlease, hstate⟩ := Prod.mk.inj hrows
  refine ⟨s, hs, Agent.reach_of_run _ hs, of_decide_eq_true hquiet, fun hleak => ?_⟩
  obtain hstatus | hstatus | ⟨j, row, hj, hrow, hterm⟩ := hleak 0 _ hlease
  · cases hstatus
  · cases hstatus
  · obtain rfl := Option.some.inj hj
    rw [hrow] at hstate
    rw [Option.some.inj hstate] at hterm
    cases hterm

end TrexCli
