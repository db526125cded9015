import TrexCli.Jobs.TaskContract

/-!
# What a store method leaves alone

A store method concerns one job (`StoreCall.target`), or is a read, or confirms ports. Below, what
each of the three tables of a job looks like after a method: its row, its marker, and the ports it
holds.
-/

namespace TrexCli

namespace StoreCall

/-- The job whose row, marker or leases the method writes. -/
def target : StoreCall → Option JobId
  | updateSnapshot s .. => some s.jobId
  | acquirePorts job _ | releasePorts job _ | deleteExecutionMarker job => some job
  | saveExecutionMarker m => some m.jobId
  | _ => none

variable {db : Db}

/-- What a store method raises is an `Exception`. -/
theorem exec_isException (c : StoreCall) {e : Exc} (h : (c.exec db).1 = .error e) :
    e.isException = true := by
  cases c with
  | getSnapshot job | getDocument job =>
    simp only [exec, Db.getSnapshot, Db.getDocument, Db.jobRow] at h
    split at h
    · obtain rfl := Except.error.inj h
      rfl
    · cases h
  | updateSnapshot s expectedRevision eventType resolvedSpecJson =>
    have hcase := db.updateSnapshot_cases s expectedRevision eventType resolvedSpecJson
    simp only [exec] at h
    generalize db.updateSnapshot _ _ _ _ = x at hcase h
    cases hcase with
    | conflict | taken =>
      obtain rfl := Except.error.inj h
      rfl
    | updated => cases h
  | acquirePorts job ports =>
    simp only [exec] at h
    generalize (db.leases.acquirePorts job ports).1 = r at h
    cases r with
    | error error =>
      obtain rfl := Except.error.inj h
      rfl
    | ok fence => cases h
  | _ => cases h

theorem exec_leases (c : StoreCall) : (c.exec db).2.leases = match c with
    | acquirePorts job ports => (db.leases.acquirePorts job ports).2
    | releasePorts job quarantine => db.leases.releasePorts job quarantine
    | confirmPortsAvailable ports => db.leases.confirmPortsAvailable ports
    | _ => db.leases := by
  cases c with
  | updateSnapshot s expectedRevision eventType resolvedSpecJson =>
    have hcase := db.updateSnapshot_cases s expectedRevision eventType resolvedSpecJson
    simp only [exec]
    generalize db.updateSnapshot _ _ _ _ = x at hcase
    cases hcase with
    | conflict | taken => rfl
    | updated db' row hrow hrev happ => exact happ.leases
  | _ => rfl

theorem exec_markers (c : StoreCall) : (c.exec db).2.markers = match c with
    | saveExecutionMarker m => db.markers.upsert m
    | deleteExecutionMarker job => db.markers.delete fun m => m.jobId = job
    | _ => db.markers := by
  cases c with
  | updateSnapshot s expectedRevision eventType resolvedSpecJson =>
    have hcase := db.updateSnapshot_cases s expectedRevision eventType resolvedSpecJson
    simp only [exec]
    generalize db.updateSnapshot _ _ _ _ = x at hcase
    cases hcase with
    | conflict | taken => rfl
    | updated db' row hrow hrev happ => exact happ.markers
  | _ => rfl

theorem exec_wf (c : StoreCall) (h : db.leases.Wf) : (c.exec db).2.leases.Wf := by
  rw [exec_leases]
  cases c with
  | acquirePorts job ports => exact h.acquirePorts job ports
  | releasePorts job quarantine => exact h.releasePorts job quarantine
  | confirmPortsAvailable ports => exact h.confirmPortsAvailable ports
  | _ => exact h

/-- Only the target's marker changes. -/
theorem get_markers_of_ne (c : StoreCall) {j : JobId} (hj : c.target ≠ some j) :
    (c.exec db).2.markers.get j = db.markers.get j := by
  rw [exec_markers]
  cases c with
  | saveExecutionMarker m =>
    rw [Table.get_upsert, if_neg]
    rintro rfl
    exact hj rfl
  | deleteExecutionMarker job =>
    rw [Table.get_delete]
    cases hget : db.markers.get j with
    | none => rfl
    | some m =>
      have hne : m.jobId ≠ job := by
        rw [db.markers.key_of_get hget]
        rintro rfl
        exact hj rfl
      simp [Option.filter, hne]
  | _ => rfl

@[simp] theorem get_markers_delete (job : JobId) :
    ((deleteExecutionMarker job).exec db).2.markers.get job = none := by
  rw [exec_markers, Table.get_delete]
  cases hget : db.markers.get job with
  | none => rfl
  | some m => simp [Option.filter, db.markers.key_of_get hget]

/-- A marker that is stored after a method has been stored before, or is the one it saves. -/
theorem marker_of_exec (c : StoreCall) {j : JobId} {m : ExecutionMarker}
    (h : (c.exec db).2.markers.get j = some m) :
    db.markers.get j = some m ∨ c = saveExecutionMarker m := by
  by_cases hj : c.target = some j
  · cases c with
    | saveExecutionMarker m' =>
      right
      obtain rfl : m'.jobId = j := Option.some.inj hj
      rw [exec_markers, Table.get_upsert, if_pos rfl] at h
      rw [Option.some.inj h]
    | deleteExecutionMarker job =>
      obtain rfl : job = j := Option.some.inj hj
      simp at h
    | updateSnapshot | acquirePorts | releasePorts =>
      rw [exec_markers] at h
      exact .inl h
    | _ => cases hj
  · rw [get_markers_of_ne c hj] at h
    exact .inl h

/-- Only the target's row changes. -/
theorem get_jobs_of_ne (c : StoreCall) {j : JobId} (hj : c.target ≠ some j) :
    (c.exec db).2.jobs.get j = db.jobs.get j := by
  cases c with
  | updateSnapshot s expectedRevision eventType resolvedSpecJson =>
    have hcase := db.updateSnapshot_cases s expectedRevision eventType resolvedSpecJson
    simp only [exec]
    generalize db.updateSnapshot _ _ _ _ = x at hcase
    cases hcase with
    | conflict | taken => rfl
    | updated db' row hrow hrev happ =>
      refine happ.rest j ?_
      rintro rfl
      exact hj rfl
  | _ => rfl

/-- An event that is logged after a method was logged before, or is what it writes. -/
theorem log_of_exec (c : StoreCall) {j : JobId} {r : Nat} {x : JobSnapshot}
    (h : (c.exec db).2.logOf j r = some x) :
    db.logOf j r = some x ∨ x.jobId = j ∧ ∃ expectedRevision eventType resolvedSpecJson,
      c = updateSnapshot x expectedRevision eventType resolvedSpecJson := by
  cases c with
  | updateSnapshot s expectedRevision eventType resolvedSpecJson =>
    have hcase := db.updateSnapshot_cases s expectedRevision eventType resolvedSpecJson
    simp only [exec] at h
    generalize db.updateSnapshot _ _ _ _ = y at hcase h
    cases hcase with
    | conflict | taken => exact .inl h
    | updated db' row hrow hrev happ =>
      rw [happ.log] at h
      split at h
      · rename_i hjr
        obtain rfl := Option.some.inj h
        exact .inr ⟨hjr.1.symm, _, _, _, rfl⟩
      · exact .inl h
  | _ => exact .inl h

/-- A row after a method is the row before, or shows what the method writes. -/
theorem row_of_exec (c : StoreCall) {j : JobId} {row : JobRow}
    (h : (c.exec db).2.jobs.get j = some row) :
    db.jobs.get j = some row ∨ row.snapshot.jobId = j ∧ ∃ expectedRevision eventType resolvedSpecJson,
      c = updateSnapshot row.snapshot expectedRevision eventType resolvedSpecJson := by
  cases c with
  | updateSnapshot s expectedRevision eventType resolvedSpecJson =>
    have hcase := db.updateSnapshot_cases s expectedRevision eventType resolvedSpecJson
    simp only [exec] at h
    generalize db.updateSnapshot _ _ _ _ = y at hcase h
    cases hcase with
    | conflict | taken => exact .inl h
    | updated db' row' hrow hrev happ =>
      by_cases hj : j = s.jobId
      · subst hj
        obtain ⟨row'', hrow'', rfl, -⟩ := happ.row
        obtain rfl := Option.some.inj (h.symm.trans hrow'')
        exact .inr ⟨rfl, _, _, _, rfl⟩
      · rw [happ.rest j hj] at h
        exact .inl h
  | _ => exact .inl h

/-- A port held after a method was held before, but for a grant. -/
theorem heldBy_of_exec (c : StoreCall) {p : PortId} {j : JobId}
    (h : (c.exec db).2.leases.HeldBy p j) (hc : ∀ ports, c ≠ acquirePorts j ports) :
    db.leases.HeldBy p j ∧ ∀ quarantine, c ≠ releasePorts j quarantine := by
  rw [exec_leases] at h
  cases c with
  | acquirePorts job ports =>
    refine ⟨Leases.heldBy_acquirePorts.2 h ?_, nofun⟩
    rintro rfl
    exact hc ports rfl
  | releasePorts job quarantine =>
    obtain ⟨hheld, hne⟩ := Leases.heldBy_releasePorts.mp h
    refine ⟨hheld, fun q heq => hne ?_⟩
    cases heq
    rfl
  | confirmPortsAvailable ports => exact ⟨(Leases.heldBy_confirmPortsAvailable.mp h).1, nofun⟩
  | _ => exact ⟨h, nofun⟩

/-- A method that does not release the job's ports leaves them to it. -/
theorem heldBy_exec (c : StoreCall) {p : PortId} {j : JobId} (h : db.leases.HeldBy p j)
    (hc : ∀ quarantine, c ≠ releasePorts j quarantine)
    (hconfirm : ∀ ports, c ≠ confirmPortsAvailable ports) : (c.exec db).2.leases.HeldBy p j := by
  rw [exec_leases]
  cases c with
  | acquirePorts job ports => exact Leases.heldBy_acquirePorts.1 h
  | releasePorts job quarantine =>
    refine Leases.heldBy_releasePorts.mpr ⟨h, ?_⟩
    rintro rfl
    exact hc quarantine rfl
  | confirmPortsAvailable ports => exact absurd rfl (hconfirm ports)
  | _ => exact h

end StoreCall

theorem OwnCall.target {job : JobId} {kind : TaskKind} {v : TaskView} {c : StoreCall}
    (h : OwnCall job kind v c) {j : JobId} (hj : c.target = some j) : j = job := by
  cases c with
  | updateSnapshot s => exact (Option.some.inj hj).symm.trans h.1
  | releasePorts | deleteExecutionMarker => exact (Option.some.inj hj).symm.trans h.1
  | saveExecutionMarker m => exact (Option.some.inj hj).symm.trans h.1
  | acquirePorts => exact h.elim
  | _ => cases hj

end TrexCli
