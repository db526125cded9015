import TrexCli.Agent.Once
import TrexCli.Jobs.EndContract

/-!
# What an execution can rely on

`Tended` says that the view of an execution in `endContract` is true of the agent. While nothing
interrupts the execution, no other task, no tick and no transaction that is left over can make it
false: the job stays in the state that the execution has given it, and nobody else stores a marker of
the job.
-/

namespace TrexCli

/-- The view of the `i`-th task, an execution, is true of the agent. -/
structure Tended (s : Agent) (t : AgentTask) (v : EndView) : Prop where
  owned : Live t → Owned s t.job v.state
  flagged : v.flagged = true → Flagged s.db t.job
  marked : v.marked = false → s.db.markers.get t.job = none
  unsaved : ∀ m, .saveExecutionMarker m ∈ s.late → m.jobId ≠ t.job

section Tended

variable {config : AgentConfig} {s s' : Agent} {h h' : History} {a : Action} {views : Nat → LifeView}
variable {i : Nat} {t t' : AgentTask} {v v' : EndView}

theorem resumes_of_interrupts {i : Nat} {e : Exc} (ha : s.interrupts a = some (i, e)) :
    s.resumes a = some i := by
  have hresumes : s.resumes a = (s.interrupts a).map Prod.fst := by
    cases a with
    | task | reportProgress => cases ha
    | _ => rfl
  rw [hresumes, ha]
  rfl

/-- No other task executes the job. -/
def Sole (s : Agent) (i : Nat) (job : JobId) : Prop :=
  ∀ j u, s.tasks[j]? = some u → u.kind.isExecute = true → u.job = job → j = i

theorem Tended.of_db (htended : Tended s t v) (hdb : s'.db = s.db) (hlate : s'.late = s.late)
    (hlive : Live t' → Live t) (hjob : t'.job = t.job) (hstate : v'.state = v.state)
    (hflagged : v'.flagged = v.flagged) (hmarked : v'.marked = v.marked) : Tended s' t' v' where
  owned ht := by
    obtain ⟨hrow, hnone⟩ := htended.owned (hlive ht)
    rw [hjob, hstate]
    exact ⟨by rwa [hdb], by rwa [hlate]⟩
  flagged hv := by
    rw [hdb, hjob]
    exact htended.flagged (hflagged ▸ hv)
  marked hv := by
    rw [hdb, hjob]
    exact htended.marked (hmarked ▸ hv)
  unsaved m hm := by
    rw [hjob]
    exact htended.unsaved m (hlate ▸ hm)

/-- A marker of the job comes from a task that executes it, or from what such a task has left over. -/
theorem saver_of_executed {m : ExecutionMarker} (hc : Executed s h a (.saveExecutionMarker m))
    (hsole : Sole s i m.jobId) :
    (∃ answers, a = .task i answers) ∨ .saveExecutionMarker m ∈ s.late := by
  cases hc with
  | task j answers u l c k hj hp hown =>
    obtain ⟨hjob, -, fence, hkind, -⟩ := hown
    obtain rfl := hsole j u hj (by rw [hkind]; rfl) hjob.symm
    exact .inl ⟨answers, rfl⟩
  | tick answers l c k hserving hp hcall => exact hcall.elim
  | recover answers l c k hserving hp hcall => exact hcall.elim
  | late n c hn => exact .inr (List.mem_of_getElem? hn)

/-- What an execution knows stays true when others take a step. -/
theorem Tended.other (hinv : Inv s h) (hlife : LifeInv config False s views)
    (hstep : Step config s h a s' h') (hserving : s'.serving = true) (hi : s.tasks[i]? = some t)
    (hsole : Sole s i t.job) (hrun : s.resumes a ≠ some i) (htended : Tended s t v) :
    Tended s' t v where
  owned ht := (htended.owned ht).step hinv hlife hstep hi ht hrun hserving
  flagged hv := (htended.flagged hv).extends (hinv.step_logs hstep).2
  marked hv := by
    have hnone := htended.marked hv
    obtain ⟨-, hmarkers⟩ | ⟨c, hdb, hc⟩ := hstep.tables hinv
    · rw [hmarkers]
      exact hnone
    · rw [hdb]
      cases hm : (c.exec s.db).2.markers.get t.job with
      | none => rfl
      | some m =>
        obtain hold | rfl := StoreCall.marker_of_exec c hm
        · rw [hnone] at hold
          cases hold
        · have hjob : m.jobId = t.job := Table.key_of_get _ hm
          obtain ⟨answers, rfl⟩ | hlate := saver_of_executed hc (hjob ▸ hsole)
          · exact absurd rfl hrun
          · exact absurd hjob (htended.unsaved m hlate)
  unsaved m hm := by
    obtain hold | ⟨-, j, e, u, l, k, ha, hj, hp, hown⟩ := hstep.late_of hm
    · exact htended.unsaved m hold
    · obtain ⟨hjob, -, fence, hkind, -⟩ := hown
      intro heq
      obtain rfl := hsole j u hj (by rw [hkind]; rfl) (hjob.symm.trans heq)
      exact hrun (resumes_of_interrupts ha)

/-- The view after a transaction of the execution itself, if the job is found. -/
def EndView.stored (v : EndView) : (c : StoreCall) → Except Exc c.Res → EndView
  | .getSnapshot _, .ok x => { v with flagged := v.flagged || x.cancelRequested }
  | .updateSnapshot x .., .ok _ => { v with state := x.state }
  | .saveExecutionMarker _, .ok _ => { v with marked := true }
  | .deleteExecutionMarker _, .ok _ => { v with marked := false }
  | _, _ => v

/-- A snapshot that is read shows the state of the view. -/
def EndView.Reads (v : EndView) : (c : StoreCall) → Except Exc c.Res → Prop
  | .getSnapshot _, .ok x => x.state = v.state
  | _, _ => True

theorem endStep_stored {kind : Engine.AdapterKind} {c : StoreCall} {r : Except Exc c.Res}
    (hread : v.Reads c r) : EndStep kind v (.store c) r (v.stored c r) := by
  cases c with
  | getSnapshot job =>
    cases r with
    | error e => exact rfl
    | ok x => exact ⟨hread, rfl⟩
  | updateSnapshot | saveExecutionMarker | deleteExecutionMarker => cases r <;> exact rfl
  | _ => exact rfl

theorem EndView.stored_engine (c : StoreCall) (r : Except Exc c.Res) :
    (v.stored c r).handle = v.handle ∧ (v.stored c r).session = v.session := by
  cases c with
  | getSnapshot | updateSnapshot | saveExecutionMarker | deleteExecutionMarker =>
    cases r <;> exact ⟨rfl, rfl⟩
  | _ => exact ⟨rfl, rfl⟩

theorem exec_getSnapshot {db : Db} {j : JobId} {row : JobRow} (hrow : db.jobs.get j = some row) :
    ((StoreCall.getSnapshot j).exec db).1 = .ok row.snapshot := by
  simp [StoreCall.exec, Db.getSnapshot, Db.jobRow, hrow, Except.map]

/-- The row that an execution reads. -/
theorem Tended.reads {w : TaskView} {c : StoreCall} (hown : OwnCall t.job t.kind w c)
    (hlive : Live t) (htended : Tended s t v) : v.Reads c (c.exec s.db).1 := by
  cases c with
  | getSnapshot job =>
    obtain rfl : job = t.job := hown
    obtain ⟨row, hrow, hstate⟩ := (htended.owned hlive).row
    rw [exec_getSnapshot hrow]
    exact hstate
  | _ => trivial

/-- After a transaction of its own, the view of the execution is still true. -/
theorem Tended.step_stored {w : TaskView} {c : StoreCall} (hlogs : WrittenLogs s.db)
    (hext : s.db.Extends (c.exec s.db).2) (hown : OwnCall t.job t.kind w c) (hlive : Live t)
    (htended : Tended s t v) (hdb : s'.db = (c.exec s.db).2) (hlate : s'.late = s.late)
    (hjob : t'.job = t.job) : Tended s' t' (v.stored c (c.exec s.db).1) where
  owned _ := by
    rw [hjob]
    refine Owned.stored (v := { state := some v.state }) ?_ ?_ hdb hlate _ ?_
    · rintro state ⟨⟩
      exact htended.owned hlive
    · cases htarget : c.target with
      | none => exact .inl rfl
      | some j => exact .inr (congrArg some (hown.target htarget))
    · have hraises : ∀ e, (c.exec s.db).1 = .error e → e.isException = true :=
        fun _ he => c.exec_isException he
      generalize (c.exec s.db).1 = r at hraises
      cases c with
      | updateSnapshot x =>
        cases r with
        | error e =>
          simp only [LifeView.next, if_pos (hraises e rfl)]
          rfl
        | ok u => rfl
      | getSnapshot | saveExecutionMarker | deleteExecutionMarker => cases r <;> rfl
      | _ => rfl
  flagged hv := by
    rw [hdb, hjob]
    have hkeep : v.flagged = true → Flagged (c.exec s.db).2 t.job := fun h =>
      (htended.flagged h).extends hext
    cases c with
    | getSnapshot job =>
      obtain rfl : job = t.job := hown
      obtain ⟨row, hrow, -⟩ := (htended.owned hlive).row
      rw [exec_getSnapshot hrow] at hv
      obtain hv | hv := Bool.or_eq_true_iff.mp hv
      · exact hkeep hv
      · exact ⟨_, _, hlogs.last _ row hrow, hv⟩
    | updateSnapshot | saveExecutionMarker | deleteExecutionMarker =>
      refine hkeep ?_
      revert hv
      generalize (StoreCall.exec s.db _).1 = r
      cases r <;> exact id
    | _ => exact hkeep hv
  marked hv := by
    rw [hdb, hjob]
    have hkeep : (c.exec s.db).2.markers = s.db.markers → v.marked = false →
        (c.exec s.db).2.markers.get t.job = none := by
      intro hmarkers h
      rw [hmarkers]
      exact htended.marked h
    cases c with
    | saveExecutionMarker m => cases hv
    | deleteExecutionMarker job =>
      obtain rfl : job = t.job := hown.1
      exact StoreCall.get_markers_delete _
    | getSnapshot | updateSnapshot =>
      refine hkeep (StoreCall.exec_markers _) ?_
      revert hv
      generalize (StoreCall.exec s.db _).1 = r
      cases r <;> exact id
    | _ => exact hkeep (StoreCall.exec_markers _) hv
  unsaved m hm := by
    rw [hjob]
    exact htended.unsaved m (hlate ▸ hm)

/-- The view of an execution that the scheduler has just made. -/
theorem tended_of_granted (hinv : Inv s h) (hserving : s.serving = true) {fence : Fence} {l : Site}
    (hpre : tickContract.pre h.tick l (.spawn t.job (.execute fence))) (hdb : s'.db = s.db)
    (hlate : s'.late = s.late) : Tended s' t { state := .preparing } := by
  obtain ⟨hinactive, -, -, hjust, hgranted⟩ := hpre
  have huntouched := (hgranted fence rfl).1
  have hown := owned_of_granted hinv hserving hinactive huntouched hjust
  have hfacts := (hinv.ticking hserving).1
  have hclean := (hfacts.untouched _ huntouched).resolve_left (hfacts.inactive _ hinactive)
  refine ⟨fun _ => ⟨?_, ?_⟩, by simp, fun _ => ?_, fun m hm heq => ?_⟩
  · rw [hdb]
    exact hown.row
  · rw [hlate]
    exact hown.late
  · rw [hdb]
    exact hclean.marker
  · rw [hlate] at hm
    exact hclean.late _ hm (congrArg some heq)

end Tended

end TrexCli
