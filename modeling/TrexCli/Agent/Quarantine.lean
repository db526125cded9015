import TrexCli.Agent.Moves

/-!
# Quarantine

The ports of a stored marker are in quarantine or leased to its job, in every run in which nothing
interrupts the saving of a marker, and nothing interrupts the `finally` block of `_execute` while the
marker is stored.

`Clean` says that a release of the job's ports cannot free a port of its marker. It holds of every
job that the agent works on and whose task does not owe the deletion of the marker, and only saving
the marker ends it.
-/

namespace TrexCli

/-- The ports of every stored marker are secured. -/
def MarkersSecured (db : Db) : Prop :=
  ∀ j m, db.markers.get j = some m → ∀ p ∈ m.logicalPorts, db.leases.Secured p j

/-- The job has no marker, or no port. -/
def Clean (db : Db) (j : JobId) : Prop :=
  db.markers.get j = none ∨ ∀ p, ¬ db.leases.HeldBy p j

/-- No port is named by the markers of two jobs. -/
def MarkersApart (db : Db) : Prop :=
  ∀ j j' m m' p, db.markers.get j = some m → db.markers.get j' = some m' →
    p ∈ m.logicalPorts → p ∈ m'.logicalPorts → j = j'

/-- The transaction frees no port of a marker. -/
structure Harmless (db : Db) (c : StoreCall) : Prop where
  release : ∀ j, c = .releasePorts j false → Clean db j
  save : ∀ m, c = .saveExecutionMarker m → ∀ p ∈ m.logicalPorts, db.leases.HeldBy p m.jobId
  confirm : ∀ ports, c = .confirmPortsAvailable ports →
    ∀ p ∈ ports, ∀ j m, db.markers.get j = some m → p ∉ m.logicalPorts

section Tables

variable {db : Db} {c : StoreCall} {j : JobId} {p : PortId}

/-- A harmless transaction leaves the ports of the markers secured. -/
theorem MarkersSecured.exec (h : MarkersSecured db) (hwf : db.leases.Wf) (hc : Harmless db c) :
    MarkersSecured (c.exec db).2 := by
  intro j m hm p hp
  obtain hold | rfl := c.marker_of_exec hm
  · have hsec := h j m hold p hp
    rw [StoreCall.exec_leases]
    cases c with
    | acquirePorts job ports => exact hsec.acquirePorts job ports
    | releasePorts job quarantine =>
      refine hsec.releasePorts hwf ?_
      rintro rfl rfl
      obtain hnone | hfree := hc.release job rfl
      · rw [hold] at hnone
        cases hnone
      · exact hfree p
    | confirmPortsAvailable ports =>
      exact hsec.confirmPortsAvailable fun hmem => hc.confirm ports rfl p hmem j m hold hp
    | _ => exact hsec
  · have hkey : m.jobId = j := Table.key_of_get _ hm
    rw [StoreCall.exec_leases]
    exact hkey ▸ (hc.save m rfl p hp).secured hwf

/-- A saved marker names ports of its job, so no other marker names them. -/
theorem MarkersApart.exec (h : MarkersApart db) (hsecured : MarkersSecured db)
    (hwf : db.leases.Wf) (hc : Harmless db c) : MarkersApart (c.exec db).2 := by
  have hsaved : ∀ {j j' m m' p}, c = .saveExecutionMarker m →
      (c.exec db).2.markers.get j = some m → db.markers.get j' = some m' →
      p ∈ m.logicalPorts → p ∈ m'.logicalPorts → j = j' := by
    rintro j j' m m' p rfl hm hm' hp hp'
    obtain rfl : m.jobId = j := Table.key_of_get _ hm
    exact ((hsecured j' m' hm' p hp').of_heldBy hwf (hc.save m rfl p hp)).symm
  intro j j' m m' p hm hm' hp hp'
  obtain hold | hnew := c.marker_of_exec hm
  · obtain hold' | hnew' := c.marker_of_exec hm'
    · exact h j j' m m' p hold hold' hp hp'
    · exact (hsaved hnew' hm' hold hp' hp).symm
  · obtain hold' | hnew' := c.marker_of_exec hm'
    · exact hsaved hnew hm hold' hp hp'
    · obtain rfl := StoreCall.saveExecutionMarker.inj (hnew.symm.trans hnew')
      exact (Table.key_of_get _ hm).symm.trans (Table.key_of_get _ hm')

/-- A clean job stays so until its marker is saved, or ports are granted to it while it has one. -/
theorem Clean.exec (h : Clean db j) (hsave : ∀ m, c = .saveExecutionMarker m → m.jobId ≠ j)
    (hacquire : ∀ ports, c = .acquirePorts j ports → db.markers.get j = none) :
    Clean (c.exec db).2 j := by
  have hnone : db.markers.get j = none → (c.exec db).2.markers.get j = none := by
    intro hnone
    cases hm : (c.exec db).2.markers.get j with
    | none => rfl
    | some m =>
      obtain hold | hnew := c.marker_of_exec hm
      · rw [hnone] at hold
        cases hold
      · exact absurd (Table.key_of_get _ hm) (hsave m hnew)
  by_cases hgrant : ∃ ports, c = .acquirePorts j ports
  · obtain ⟨ports, hgrant⟩ := hgrant
    exact .inl (hnone (hacquire ports hgrant))
  · push Not at hgrant
    refine h.imp hnone fun hfree p hp => hfree p (c.heldBy_of_exec hp hgrant).1

end Tables

/-! ### The recovery -/

/-- The view of `_recover` is true of the database. -/
structure RecoverFacts (db : Db) (v : RecoverView) : Prop where
  stored : ∀ m ∈ v.stored, db.markers.get m.jobId = some m
  unmarked : ∀ j ∈ v.unmarked, db.markers.get j = none
  free : ∀ p ∈ v.free, ∀ j m, db.markers.get j = some m → p ∉ m.logicalPorts
  released : ∀ j ∈ v.released, ∀ p, ¬ db.leases.HeldBy p j
  listed : ∀ jobs, v.listed = some jobs → ∀ j row, db.jobs.get j = some row →
    row.snapshot.state.terminal = false → row.snapshot.state.recoverable = false → j ∈ jobs

theorem RecoverFacts.harmless {db : Db} {v : RecoverView} {c : StoreCall} (h : RecoverFacts db v)
    (hcall : RecoverCall v c) : Harmless db c where
  release := by
    rintro j rfl
    exact .inl (h.unmarked j (hcall.1 rfl))
  save := by
    rintro m rfl
    exact hcall.elim
  confirm := by
    rintro ports rfl p hp
    exact h.free p (hcall p hp)

/-- No transaction of `_recover` but a deletion takes from what it knows. -/
theorem RecoverFacts.kept {db : Db} {v : RecoverView} {c : StoreCall} (h : RecoverFacts db v)
    (hcall : RecoverCall v c) (hdelete : ∀ j, c ≠ .deleteExecutionMarker j) :
    RecoverFacts (c.exec db).2 v where
  stored m hm := by
    rw [StoreCall.exec_markers]
    cases c with
    | saveExecutionMarker => exact hcall.elim
    | deleteExecutionMarker j => exact absurd rfl (hdelete j)
    | _ => exact h.stored m hm
  unmarked j hj := by
    rw [StoreCall.exec_markers]
    cases c with
    | saveExecutionMarker => exact hcall.elim
    | deleteExecutionMarker j => exact absurd rfl (hdelete j)
    | _ => exact h.unmarked j hj
  free p hp j m hm := by
    obtain hold | rfl := c.marker_of_exec hm
    · exact h.free p hp j m hold
    · exact hcall.elim
  released j hj p hp := by
    refine h.released j hj p (c.heldBy_of_exec hp ?_).1
    rintro ports rfl
    exact hcall
  listed jobs hjobs j row hrow hterm hstate := by
    obtain hold | ⟨-, _, _, _, rfl⟩ := c.row_of_exec hrow
    · exact h.listed jobs hjobs j row hold hterm hstate
    · rw [hcall.1] at hterm
      cases hterm

theorem RecoverFacts.exec {db db' : Db} {v v' : RecoverView} {c : StoreCall}
    {r : Except Exc c.Res} (h : RecoverFacts db v) (hlogs : WrittenLogs db)
    (hapart : MarkersApart db) (hcall : RecoverCall v c) (hexec : c.exec db = (r, db'))
    (hv' : v' = { v.next (.store c) r with known := v'.known }) : RecoverFacts db' v' := by
  have hkept := h.kept hcall
  rw [hexec] at hkept
  rw [hv']
  cases c with
  | listNonterminal =>
    obtain ⟨rfl, rfl⟩ := Prod.mk.inj hexec
    refine ⟨h.stored, h.unmarked, h.free, h.released, ?_⟩
    rintro jobs ⟨⟩ j row hrow hterm hstate
    obtain ⟨hcolumn, -, hkey, -⟩ := hlogs.row j row hrow
    refine ⟨row.snapshot, Db.mem_listNonterminal.mpr ⟨row, ?_, ?_, rfl⟩, hkey, hstate⟩
    · rwa [db.jobs.key_of_get hrow]
    · rwa [hcolumn]
  | getExecutionMarker job =>
    obtain ⟨rfl, rfl⟩ := Prod.mk.inj hexec
    cases hm : db.markers.get job with
    | none =>
      refine ⟨h.stored, ?_, h.free, h.released, h.listed⟩
      rintro j (rfl | hj)
      · exact hm
      · exact h.unmarked j hj
    | some m =>
      refine ⟨?_, h.unmarked, h.free, h.released, h.listed⟩
      rintro m' (rfl | hm')
      · rwa [db.markers.key_of_get hm]
      · exact h.stored m' hm'
  | listExecutionMarkers =>
    obtain ⟨rfl, rfl⟩ := Prod.mk.inj hexec
    refine ⟨?_, h.unmarked, h.free, h.released, h.listed⟩
    rintro m (hm | hm)
    · exact h.stored m hm
    · exact db.markers.mem_rows.mp hm
  | deleteExecutionMarker job =>
    have hbefore : ∀ {j m}, ((StoreCall.deleteExecutionMarker job).exec db).2.markers.get j =
        some m → db.markers.get j = some m ∧ j ≠ job := by
      intro j m hm
      obtain hold | hnew := StoreCall.marker_of_exec _ hm
      · refine ⟨hold, ?_⟩
        rintro rfl
        simp at hm
      · cases hnew
    obtain ⟨rfl, rfl⟩ := Prod.mk.inj hexec
    refine ⟨fun m hm => ?_, ?_, ?_, h.released, h.listed⟩
    · refine (StoreCall.get_markers_of_ne (.deleteExecutionMarker job) ?_).trans (h.stored m hm.1)
      exact fun heq => hm.2 (Option.some.inj heq).symm
    · rintro j (rfl | hj)
      · exact StoreCall.get_markers_delete j
      · cases hm : ((StoreCall.deleteExecutionMarker job).exec db).2.markers.get j with
        | none => exact hm
        | some m =>
          have hold := (hbefore hm).1
          rw [h.unmarked j hj] at hold
          cases hold
    · rintro p (hp | ⟨m, hm, rfl, hp⟩) j m' hm' hp'
      · exact h.free p hp j m' (hbefore hm').1 hp'
      · obtain ⟨hold, hne⟩ := hbefore hm'
        exact hne (hapart j m.jobId m' m p hold (h.stored m hm) hp' hp)
  | releasePorts job quarantine =>
    have hold := hkept nofun
    obtain ⟨rfl, rfl⟩ := Prod.mk.inj hexec
    refine ⟨hold.stored, hold.unmarked, hold.free, ?_, hold.listed⟩
    rintro j (rfl | hj)
    · exact fun p hp => (Leases.heldBy_releasePorts.mp hp).2 rfl
    · exact hold.released j hj
  | updateSnapshot | getSnapshot | getDocument | confirmPortsAvailable =>
    have hold := hkept nofun
    cases r <;> exact ⟨hold.stored, hold.unmarked, hold.free, hold.released, hold.listed⟩
  | saveExecutionMarker | acquirePorts => exact hcall.elim

/-! ### The invariant -/

/-- The condition on a step: it interrupts neither the saving of a marker, nor the `finally` block of
`_execute` while the marker is stored. -/
def MarkerSteady (s : Agent) (a : Action) : Prop :=
  ∀ i e t l c k, s.interrupts a = some (i, e) → s.tasks[i]? = some t → t.program = .await l c k →
    (∀ m, c ≠ .store (.saveExecutionMarker m)) ∧
      (l = .unwinding → s.db.markers.get t.job = none)

/-- The job has a live task, or may still get one. -/
def Current (s : Agent) (j : JobId) : Prop :=
  (∃ (i : Nat) (t : AgentTask), s.tasks[i]? = some t ∧ Live t ∧ t.job = j) ∨
    ∀ row, s.db.jobs.get j = some row → row.snapshot.state.terminal = false

/-- No live task of the job owes the deletion of its marker. -/
def Unmarked (s : Agent) (h : History) (j : JobId) : Prop :=
  ∀ i t, s.tasks[i]? = some t → Live t → t.job = j → (h.task i).marked = false

structure QuarantineInv (s : Agent) (h : History) : Prop where
  secured : MarkersSecured s.db
  apart : MarkersApart s.db
  unsaved : ∀ m, .saveExecutionMarker m ∉ s.late
  late : ∀ j, .releasePorts j false ∈ s.late → Clean s.db j
  clean : s.serving = true → ∀ j, Current s j → Unmarked s h j → Clean s.db j
  listed : s.serving = true → ∀ j ∈ h.tick.listed, Active s j ∨ Clean s.db j
  recovering : s.serving = false → RecoverFacts s.db h.recover

namespace QuarantineInv

variable {config : AgentConfig} {s s' : Agent} {h h' : History} {a : Action} {j : JobId}

theorem unmarked_of_live (hinv : Inv s h) {i : Nat} {t : AgentTask} (hi : s.tasks[i]? = some t)
    (ht : Live t) (hmarked : (h.task i).marked = false) : Unmarked s h t.job := by
  intro i' t' hi' ht' hjob
  obtain rfl := hinv.live_unique hi' hi ht' ht hjob
  exact hmarked

/-- The transactions of a step free no port of a marker. -/
theorem harmless (hq : QuarantineInv s h) (hinv : Inv s h) {c : StoreCall}
    (hc : Executed s h a c) : Harmless s.db c := by
  cases hc with
  | task i answers t l c k hi hp hown =>
    refine ⟨?_, ?_, ?_⟩
    · rintro j rfl
      obtain ⟨rfl, hkind, hmarked⟩ := hown
      have hlive := live_of_await hp hkind
      have hfalse : (h.task i).marked = false := by
        by_contra hne
        exact absurd (hmarked (by simpa using hne)) (by decide)
      have hserving : s.serving = true := by
        by_contra hne
        rw [(hinv.recovering (by simpa using hne)).1] at hi
        simp at hi
      exact hq.clean hserving t.job (.inl ⟨i, t, hi, hlive, rfl⟩)
        (unmarked_of_live hinv hi hlive hfalse)
    · rintro m rfl p hpm
      obtain ⟨hjob, hholding, fence, hkind, hports⟩ := hown
      obtain ⟨g, hg⟩ := hports p hpm
      rw [hjob]
      exact (hinv.holds i t hi fence hkind (by rw [hp]; rfl) hholding).1 p g hg
    · rintro ports rfl
      exact hown.elim
  | tick answers l c k hserving hp hcall =>
    refine ⟨?_, ?_, ?_⟩
    · rintro j rfl
      obtain ⟨hinactive, hlisted, -⟩ := hcall
      exact (hq.listed hserving j hlisted).resolve_left
        ((hinv.ticking hserving).1.inactive j hinactive)
    · rintro m rfl
      exact hcall.elim
    · rintro ports rfl
      exact hcall.elim
  | recover answers l c k hserving hp hcall => exact (hq.recovering hserving).harmless hcall
  | late n c hn =>
    have hmem := List.mem_of_getElem? hn
    refine ⟨?_, ?_, ?_⟩
    · rintro j rfl
      exact hq.late j hmem
    · rintro m rfl
      exact absurd hmem (hq.unsaved m)
    · rintro ports rfl
      obtain ⟨job, kind, v, -, -, hown, -⟩ := hinv.late _ hmem
      exact hown.elim

/-- The step saves the marker of the job. -/
def Saves (s : Agent) (h : History) (a : Action) (j : JobId) : Prop :=
  ∃ i answers t l m k, a = .task i answers ∧ s.tasks[i]? = some t ∧
    t.program = .await l (.store (.saveExecutionMarker m)) k ∧ t.job = j ∧
    t.kind.isReport = false ∧ (h.task i).holding = true

/-- Only saving the marker of a clean job makes it unclean. -/
theorem clean_step (hq : QuarantineInv s h) (hinv : Inv s h) (hstep : Step config s h a s' h')
    (hclean : Clean s.db j) : Clean s'.db j ∨ Saves s h a j := by
  obtain ⟨hleases, hmarkers⟩ | ⟨c, hdb, hc⟩ := hstep.tables hinv
  · left
    unfold Clean
    rw [hleases, hmarkers]
    exact hclean
  · by_cases hsave : ∃ m, c = .saveExecutionMarker m ∧ m.jobId = j
    · obtain ⟨m, rfl, rfl⟩ := hsave
      right
      cases hc with
      | task i answers t l c k hi hp hown =>
        obtain ⟨hjob, hholding, fence, hkind, -⟩ := hown
        exact ⟨i, answers, t, l, m, k, rfl, hi, hp, hjob.symm, by rw [hkind]; rfl, hholding⟩
      | tick answers l c k hserving hp hcall => exact hcall.elim
      | recover answers l c k hserving hp hcall => exact hcall.elim
      | late n c hn => exact absurd (List.mem_of_getElem? hn) (hq.unsaved m)
    · push Not at hsave
      left
      rw [hdb]
      refine hclean.exec hsave fun ports hgrant => ?_
      subst hgrant
      exact (hc.acquire hinv).2.2.2.marker

/-- A task's saving of its marker leaves it marked. -/
theorem Saves.marked (hsaves : Saves s h a j) (hstep : Step config s h a s' h') :
    ∃ i t, s.tasks[i]? = some t ∧ Live t ∧ t.job = j ∧ (h.task i).holding = true ∧
      (h'.task i).marked = true := by
  obtain ⟨i, answers, t, l, m, k, rfl, hi, hp, hjob, hkind, hholding⟩ := hsaves
  refine ⟨i, t, hi, live_of_await hp hkind, hjob, hholding, ?_⟩
  cases hstep with
  | thrown a i' t' u l' c k e cancelling v ha => cases ha
  | taskStore i' answers t' l' c k v hi' hp' hpre hpost =>
    obtain rfl := Option.some.inj (hi.symm.trans hi')
    obtain ⟨-, hc, -⟩ := Coroutine.Prog.await.inj (hp.symm.trans hp')
    obtain rfl := Call.store.inj hc
    rw [History.setTask_self, hpost.2.1]
    rfl
  | taskCall i' answers t' l' c k r v hi' hp' hc =>
    obtain rfl := Option.some.inj (hi.symm.trans hi')
    obtain ⟨-, rfl, -⟩ := Coroutine.Prog.await.inj (hp.symm.trans hp')
    cases hc

/-- A task has no marker debt after a step that pays it only when the job is clean. -/
theorem clean_of_unmark (hsteady : MarkerSteady s a) {i : Nat} {t : AgentTask} {l : Site} {c : Call}
    {k : Except Exc c.Res → Task (Except Exc Unit × Unit)} {r : Except Exc c.Res}
    (hi : s.tasks[i]? = some t) (hp : t.program = .await l c k)
    (hpre : (taskContract t.job t.kind).pre (h.task i) l c)
    (hpost : (taskContract t.job t.kind).post (h.task i) l c r (h'.task i))
    (hanswer : Answer s a s' i l c r) (hm : (h.task i).marked = true)
    (hm' : (h'.task i).marked = false) : Clean s'.db t.job := by
  rw [hpost.2.1] at hm'
  have hdebts : (∀ e, r = .error e → e.isException = true) → c.settles = true := by
    intro hr
    by_contra hc
    have hsame := ((h.task i).next_debts l hr (by simpa using hc)).1
    rw [hm] at hsame
    exact absurd (hsame.symm.trans hm') (by decide)
  cases hanswer with
  | interrupted c e ha hthrown hdb =>
    obtain ⟨hsave, hunwinding⟩ := hsteady i e t l c k ha hi hp
    have hnext : (h.task i).next l c (.error e) = (h.task i).interrupted l c e :=
      TaskView.failed_thrown hsave hthrown
    rw [hnext] at hm'
    have hl : l = .unwinding := by simpa [TaskView.interrupted, hm] using hm'
    left
    rw [hdb]
    exact hunwinding hl
  | stored c hdb =>
    have hsettles := hdebts fun e he => c.exec_isException he
    rw [hdb]
    cases c with
    | saveExecutionMarker m => cases hm'
    | deleteExecutionMarker j =>
      obtain rfl := hpre.2.1
      exact .inl (StoreCall.get_markers_delete _)
    | releasePorts j quarantine =>
      obtain rfl := hpre.2.1
      refine .inr fun p hp => ?_
      rw [StoreCall.exec_leases] at hp
      exact (Leases.heldBy_releasePorts.mp hp).2 rfl
    | _ => cases hsettles
  | answered c r hc hraises =>
    have hsettles := hdebts hraises
    cases c with
    | store c => cases hc
    | _ => cases hsettles

section Step

variable (hq : QuarantineInv s h) (hinv : Inv s h) (hstep : Step config s h a s' h')

include hq hinv hstep

theorem step_secured : MarkersSecured s'.db ∧ MarkersApart s'.db := by
  obtain ⟨hleases, hmarkers⟩ | ⟨c, hdb, hc⟩ := hstep.tables hinv
  · unfold MarkersSecured MarkersApart
    rw [hleases, hmarkers]
    exact ⟨hq.secured, hq.apart⟩
  · have hharmless := hq.harmless hinv hc
    rw [hdb]
    exact ⟨hq.secured.exec hinv.leases hharmless, hq.apart.exec hq.secured hinv.leases hharmless⟩

theorem step_clean (hinv' : Inv s' h') (hsteady : MarkerSteady s a) (hserving : s.serving = true)
    (hserving' : s'.serving = true) (hcurrent : Current s' j) (hunmarked : Unmarked s' h' j) :
    Clean s'.db j := by
  -- a task of the job that is marked after the step cannot be live, nor done
  have hnone : ∀ {i t'}, s'.tasks[i]? = some t' → t'.kind.isReport = false → t'.job = j →
      (h'.task i).marked = false := by
    intro i t' hi' hkind hjob
    cases hdone : t'.program.done with
    | false => exact hunmarked i t' hi' ⟨hdone, hkind⟩ hjob
    | true => exact (hinv'.settled hi' hdone hkind).1
  by_cases hclean : Clean s.db j
  · refine (hq.clean_step hinv hstep hclean).resolve_right fun hsaves => ?_
    obtain ⟨i, t, hi, hlive, hjob, -, hmarked⟩ := hsaves.marked hstep
    obtain ⟨t', hi', hjob', hkind'⟩ := hstep.task_exists hserving' hi
    rw [hnone hi' (hkind' ▸ hlive.2) (hjob'.trans hjob)] at hmarked
    cases hmarked
  have hcurrent' : Current s j := by
    obtain ⟨i, t', hi', hlive, hjob⟩ | hrows := hcurrent
    · cases hstep.task hinv hi' with
      | kept hi => exact .inl ⟨i, t', hi, hlive, hjob⟩
      | moved t l c k r hi hp hjob' hkind =>
        exact .inl ⟨i, t, hi, live_of_await hp (hkind ▸ hlive.2), hjob'.symm.trans hjob⟩
      | spawned l v hi hserving hdb hlate hpre =>
        obtain ⟨hinactive, hlisted, -⟩ := hpre
        have hidle := (hinv.ticking hserving).1.inactive _ hinactive
        exact absurd (hjob ▸ (hq.listed hserving _ hlisted).resolve_left hidle) hclean
      | reported hi hkind =>
        rw [hlive.2] at hkind
        cases hkind
    · refine .inr fun row hrow => ?_
      obtain ⟨row', hrow', hchain⟩ := hinv.row_step hinv' (hinv.step_logs hstep).2 hrow
      by_contra hterm
      have heq := Writes.eq_of_chain hchain (by simpa using hterm)
      exact hterm (heq ▸ hrows row' hrow')
  have hmarked : ∃ i t, s.tasks[i]? = some t ∧ Live t ∧ t.job = j ∧ (h.task i).marked = true := by
    by_contra hno
    push Not at hno
    refine hclean (hq.clean hserving j hcurrent' fun i t hi hlive hjob => ?_)
    simpa using hno i t hi hlive hjob
  obtain ⟨i, t, hi, hlive, rfl, hm⟩ := hmarked
  obtain ⟨t', hi', hjob', hkind'⟩ := hstep.task_exists hserving' hi
  have hm' := hnone hi' (hkind' ▸ hlive.2) hjob'
  cases hstep.task hinv hi' with
  | kept hi₀ hview =>
    rw [hview, hm] at hm'
    cases hm'
  | moved t₀ l c k r hi₀ hp hjob₀ hkind₀ hpre hpost hanswer =>
    obtain rfl := Option.some.inj (hi.symm.trans hi₀)
    exact clean_of_unmark hsteady hi hp hpre hpost hanswer hm hm'
  | spawned l v hi₀ =>
    rw [hi] at hi₀
    cases hi₀
  | reported hi₀ =>
    rw [hi] at hi₀
    cases hi₀

omit hinv in
theorem step_unsaved (hsteady : MarkerSteady s a) (m : ExecutionMarker) :
    .saveExecutionMarker m ∉ s'.late := by
  intro hm
  obtain hm | ⟨-, i, e, t, l, k, ha, hi, hp, -⟩ := hstep.late_of hm
  · exact hq.unsaved m hm
  · exact (hsteady i e t l _ k ha hi hp).1 m rfl

theorem step_late (hlate : .releasePorts j false ∈ s'.late) : Clean s'.db j := by
  obtain hlate | ⟨hdb, i, e, t, l, k, ha, hi, hp, hown⟩ := hstep.late_of hlate
  · refine (hq.clean_step hinv hstep (hq.late j hlate)).resolve_right fun hsaves => ?_
    -- the task that saves still holds its ports, so no release of them is left over
    obtain ⟨i, answers, t, l, m, k, rfl, hi, hp, rfl, hkind, hholding⟩ := hsaves
    have hok := (hinv.task i t hi).ok
    rw [hp] at hok
    obtain ⟨-, -, -, fence, hexecute, -⟩ := hok.1
    exact (hinv.holds i t hi fence hexecute (by rw [hp]; rfl) hholding).2 false hlate
  · rw [hdb]
    exact (hq.harmless hinv (.task i (fun _ => .error .cancelled) t l (.releasePorts j false) k hi hp hown)).release j rfl

theorem step_listed (hserving : s.serving = true) (hserving' : s'.serving = true)
    (hmem : j ∈ h'.tick.listed) : Active s' j ∨ Clean s'.db j := by
  obtain ⟨hactive, hmem | ⟨hdb, row, hrow, hterm⟩⟩ := hstep.tick_listed hinv hserving hserving' hmem
  · obtain hj | hj := hq.listed hserving j hmem
    · exact .inl (hactive hj)
    · refine (hq.clean_step hinv hstep hj).elim .inr fun hsaves => .inl (hactive ?_)
      obtain ⟨i, answers, t, l, m, k, -, hi, hp, rfl, hkind, -⟩ := hsaves
      exact ⟨i, hinv.registered i t hi (live_of_await hp hkind)⟩
  · by_cases hj : Active s j
    · exact .inl (hactive hj)
    · rw [hdb]
      refine .inr (hq.clean hserving j (.inr fun row' hrow' => ?_) fun i t hi hlive hjob => ?_)
      · obtain rfl := Option.some.inj (hrow.symm.trans hrow')
        exact hterm
      · exact absurd ⟨i, hjob ▸ hinv.registered i t hi hlive⟩ hj

omit hstep in
/-- What a recovery that comes to its end leaves: no job is left that holds ports of its marker. -/
theorem serve_clean (hnot : s.serving = false) (hdb : s'.db = s.db) (htasks : s'.tasks = [])
    (hrecovered : Recovered (.ok ()) h.recover) (hcurrent : Current s' j) : Clean s'.db j := by
  obtain ⟨-, jobs, hjobs, hsub⟩ := hrecovered rfl
  have hfacts := hq.recovering hnot
  obtain ⟨i, t, hi, -⟩ | hrows := hcurrent
  · rw [htasks] at hi
    simp at hi
  · rw [hdb] at hrows ⊢
    cases hm : s.db.markers.get j with
    | none => exact .inl hm
    | some m =>
      have hran := hinv.markers j m hm
      obtain ⟨r, x, hx, -⟩ := hran
      obtain ⟨row, hrow, -⟩ := hinv.logs.row_of_log hx
      have hstate := (hinv.markers j m hm).row hinv.logs hrow
      exact .inr (hfacts.released j (hsub (hfacts.listed jobs hjobs j row hrow (hrows row hrow) hstate)))

theorem step_recovering (hnot : s'.serving = false) : RecoverFacts s'.db h'.recover := by
  have hidle : s.serving = false → s'.db = s.db → h'.recover = h.recover →
      RecoverFacts s'.db h'.recover := by
    intro hserving hdb hview
    rw [hdb, hview]
    exact hq.recovering hserving
  cases hstep with
  | recoverStore answers l c k v hserving hp hpre hpost =>
    exact (hq.recovering hserving).exec hinv.logs hq.apart hpre.2 rfl hpost.2.1
  | recoverCall answers l c k r v hserving hp hc hpost =>
    have hfacts := hq.recovering hserving
    have hnext : h.recover.next c r = h.recover := by
      cases c with
      | store c => cases hc
      | _ => rfl
    simp only
    rw [hpost.2.1, hnext]
    exact ⟨hfacts.stored, hfacts.unmarked, hfacts.free, hfacts.released, hfacts.listed⟩
  | crash => exact ⟨nofun, nofun, nofun, nofun, nofun⟩
  | ignored | advance => exact hidle hnot rfl rfl
  | serve => cases hnot
  | thrown _ _ _ _ _ _ _ _ _ _ _ hi | taskStore _ _ _ _ _ _ _ hi | taskCall _ _ _ _ _ _ _ _ hi =>
    rw [(hinv.recovering hnot).1] at hi
    simp at hi
  | late _ _ hn =>
    rw [(hinv.recovering hnot).2.2.1] at hn
    simp at hn
  | submit _ _ _ _ _ hserving | requestCancel _ _ _ _ _ hserving
  | reportProgress _ _ _ _ hserving | tick hserving =>
    rw [show s.serving = false from hnot] at hserving
    cases hserving
  | tickStore _ _ _ _ _ hserving | tickIsActive _ _ _ _ _ hserving | tickDropDone _ _ _ _ hserving
  | tickSpawn _ _ _ _ _ _ hserving | tickCall _ _ _ _ _ _ hserving =>
    rw [show s.serving = false from hnot] at hserving
    cases hserving

end Step

theorem step (hq : QuarantineInv s h) (hinv : Inv s h) (hinv' : Inv s' h')
    (hsteady : MarkerSteady s a) (hstep : Step config s h a s' h') : QuarantineInv s' h' where
  secured := (hq.step_secured hinv hstep).1
  apart := (hq.step_secured hinv hstep).2
  unsaved := hq.step_unsaved hstep hsteady
  late j := hq.step_late hinv hstep
  clean hserving' j hcurrent hunmarked := by
    obtain hserving | ⟨hnot, hdb, htasks, -, -, hrecovered⟩ := hstep.serving hinv hserving'
    · exact hq.step_clean hinv hstep hinv' hsteady hserving hserving' hcurrent hunmarked
    · exact hq.serve_clean hinv hnot hdb htasks hrecovered hcurrent
  listed hserving' j hmem := by
    obtain hserving | ⟨-, -, -, -, hview, -⟩ := hstep.serving hinv hserving'
    · exact hq.step_listed hinv hstep hserving hserving' hmem
    · rw [hview] at hmem
      cases hmem
  recovering := hq.step_recovering hinv hstep

theorem init (logicalPorts : List PortId) :
    QuarantineInv (Agent.init logicalPorts) History.init where
  secured j m hm := by simp [Agent.init, Db.empty] at hm
  apart j j' m m' p hm := by simp [Agent.init, Db.empty] at hm
  unsaved m hm := by simp [Agent.init] at hm
  late j hm := by simp [Agent.init] at hm
  clean hserving := by simp [Agent.init] at hserving
  listed hserving := by simp [Agent.init] at hserving
  recovering _ := ⟨nofun, nofun, nofun, nofun, nofun⟩

end QuarantineInv

/-- In every run whose steps interrupt neither the saving of a marker nor the `finally` block of
`_execute` while the marker is stored, the ports of every stored marker are in quarantine or leased
to its job. -/
theorem markers_secured (config : AgentConfig) (logicalPorts : List PortId) {s : Agent}
    (hs : s.Reach config MarkerSteady logicalPorts) : MarkersSecured s.db := by
  obtain ⟨h, -, hq⟩ := Agent.Reach.inv (QuarantineInv.init logicalPorts)
    (fun _ _ _ _ _ hinv hinv' hq hsteady hstep => hq.step hinv hinv' hsteady hstep) hs
  exact hq.secured

open TrexCli.Action (launch schedule resume)

theorem markers_secured_execute :
    ∃ s, (Agent.init [0, 1]).runChecked labConfig (fun _ => Action.quiet)
      (launch ++ resume 0 16) = some s ∧ MarkersSecured s.db ∧ (s.db.markers.get 7).isSome := by
  have hrun : ((Agent.init [0, 1]).runChecked labConfig (fun _ => Action.quiet)
      (launch ++ resume 0 16)).map (fun s => (s.db.markers.get 7).isSome) = some true := by
    decide +kernel
  obtain ⟨s, hs, hmarker⟩ := Option.map_eq_some_iff.mp hrun
  refine ⟨s, hs, markers_secured labConfig [0, 1] (Agent.reach_of_runChecked _ ?_ .init hs), hmarker⟩
  intro s a hquiet i e t l c k hinterrupts
  rw [Action.interrupts_of_quiet hquiet] at hinterrupts
  cases hinterrupts

/-- The cancel request is sent twice while the engine runs. The second `task.cancel()` reaches the
`finally` block, which then neither stops the engine nor releases the ports; the next tick finishes
the cancellation. -/
def repeatedCancel : List Action :=
  launch ++ resume 0 16 ++ [.requestCancel 7 "cancel" "user" "", .cancelTask 7,
    .requestCancel 7 "cancel" "user" "", .cancelTask 7, .tick] ++ schedule 8 ++ resume 1 14

/-- Without the condition, a marker can be stored while its ports are available. -/
theorem not_markers_secured_repeatedCancel :
    ∃ s, (Agent.init [0, 1]).run labConfig repeatedCancel = some s ∧
      s.Reach labConfig (fun _ _ => True) [0, 1] ∧ ¬ MarkersSecured s.db := by
  have hrun : ((Agent.init [0, 1]).run labConfig repeatedCancel).map
      (fun s => (s.db.markers.get 7, s.db.leases.get 0)) =
      some (some { jobId := 7, logicalPorts := [0, 1], fence := [(0, 1), (1, 1)] },
        some { portId := 0, generation := 1 }) := by decide +kernel
  obtain ⟨s, hs, hrows⟩ := Option.map_eq_some_iff.mp hrun
  obtain ⟨hmarker, hlease⟩ := Prod.mk.inj hrows
  refine ⟨s, hs, Agent.reach_of_run _ hs, fun hsecured => ?_⟩
  obtain ⟨r, hr, hstatus⟩ := hsecured 7 _ hmarker 0 (by decide)
  obtain rfl := Option.some.inj (hlease.symm.trans hr)
  revert hstatus
  decide

end TrexCli
