import TrexCli.Agent.Lifecycle
import TrexCli.Agent.Once
import TrexCli.Jobs.QueueContract

/-!
# What a step does to a job that waits

The document and the acceptance time of a job never change (`Db.Columns`). Only the scheduler makes a
job wait (`Step.waits_of`), and what the scheduler takes for new stops waiting only by a write of its
own or of a live task (`Step.stays`).
-/

namespace TrexCli

/-- The columns `document_json` and `accepted_at` of every row stay as they are, and a new row is
accepted when its job is submitted. -/
structure Db.Columns (db db' : Db) : Prop where
  kept : ∀ j row, db.jobs.get j = some row → ∃ row', db'.jobs.get j = some row' ∧
    row'.document = row.document ∧ row'.acceptedAt = row.acceptedAt
  fresh : ∀ j row', db.jobs.get j = none → db'.jobs.get j = some row' →
    row'.acceptedAt = row'.snapshot.submittedAt

/-- Every job has been accepted when it was submitted. -/
def Db.Dated (db : Db) : Prop :=
  ∀ j row, db.jobs.get j = some row → row.acceptedAt = row.snapshot.submittedAt

/-- The job waits for its ports, and no cancel is requested. -/
def Waits (db : Db) (j : JobId) : Prop :=
  ∃ row, db.jobs.get j = some row ∧ row.snapshot.state = .waitingForPorts ∧
    row.snapshot.cancelRequested = false

namespace Db

variable {db db' : Db}

theorem Columns.of_eq (h : db'.jobs = db.jobs) : Columns db db' where
  kept j row hrow := ⟨row, by rwa [h], rfl, rfl⟩
  fresh j row' hnone hrow := by
    rw [h, hnone] at hrow
    cases hrow

/-- Changing other columns of the rows. -/
theorem Columns.of_update {f : JobRow → JobRow} (hf : ∀ r, (f r).jobId = r.jobId)
    (h : db'.jobs = db.jobs.update f hf)
    (hsame : ∀ r, (f r).document = r.document ∧ (f r).acceptedAt = r.acceptedAt) :
    Columns db db' where
  kept j row hrow := ⟨f row, by rw [h, Table.get_update, hrow]; rfl, (hsame row).1, (hsame row).2⟩
  fresh j row' hnone hrow := by
    rw [h, Table.get_update, hnone] at hrow
    cases hrow

theorem columns_updateSnapshot (snapshot : JobSnapshot) (expectedRevision : Nat) (eventType : String)
    (resolvedSpecJson : Option String) :
    Columns db (db.updateSnapshot snapshot expectedRevision eventType resolvedSpecJson).2 := by
  unfold updateSnapshot
  split
  · exact .of_eq rfl
  · split
    · exact .of_eq rfl
    · dsimp only [bind, Except.bind]
      generalize hadd : addEvent _ _ _ = r
      cases r with
      | error e => exact .of_eq rfl
      | ok db' =>
        refine .of_update (fun r => ?_) (addEvent_eq_ok hadd).2.2.1 fun r => ?_
        · split <;> rfl
        · split <;> exact ⟨rfl, rfl⟩

theorem columns_requestCancel (job : JobId) (requestId principal reason : String) :
    Columns db (db.requestCancel job requestId principal reason).2 := by
  unfold requestCancel
  cases db.getSnapshot job with
  | error e => exact .of_eq rfl
  | ok snapshot =>
    dsimp only [bind, Except.bind]
    split
    · exact .of_eq rfl
    · split
      · exact .of_eq rfl
      · generalize hadd : addEvent _ _ _ = r
        cases r with
        | error e => exact .of_eq rfl
        | ok db' =>
          refine .of_update (fun r => ?_) (addEvent_eq_ok hadd).2.2.1 fun r => ?_
          · split <;> rfl
          · split <;> exact ⟨rfl, rfl⟩

theorem columns_createJob (s : JobSnapshot) (principal idempotencyKey : String)
    (document : JobDocument) (retryOf : Option JobId) :
    Columns db (db.createJob s principal idempotencyKey document retryOf).2 := by
  unfold createJob
  split
  · split
    · exact .of_eq rfl
    · exact .of_eq rfl
  · cases db.checkRetry s.submittedSpecDigest retryOf with
    | error e => exact .of_eq rfl
    | ok u =>
      dsimp only [bind, Except.bind]
      split
      · exact .of_eq rfl
      · rename_i jobs hins
        generalize hadd : addEvent _ _ _ = r
        cases r with
        | error e => exact .of_eq rfl
        | ok db' =>
          have hget := db.jobs.get_insert hins
          have hfree : db.jobs.get s.jobId = none := by
            by_contra hne
            rw [db.jobs.insert_eq_none.mpr hne] at hins
            cases hins
          have hjobs : db'.jobs = jobs := (addEvent_eq_ok hadd).2.2.1
          constructor
          · intro j row hrow
            refine ⟨row, ?_, rfl, rfl⟩
            change db'.jobs.get j = some row
            rw [hjobs, hget, if_neg, hrow]
            rintro rfl
            rw [hfree] at hrow
            cases hrow
          · intro j row' hnone hrow
            change db'.jobs.get j = some row' at hrow
            rw [hjobs, hget] at hrow
            split at hrow
            · obtain rfl := Option.some.inj hrow
              rfl
            · rw [hnone] at hrow
              cases hrow

theorem columns_exec (c : StoreCall) : Columns db (c.exec db).2 := by
  cases c with
  | updateSnapshot => exact columns_updateSnapshot ..
  | _ => exact .of_eq rfl

end Db

/-- Only the row that is written to changes. -/
theorem StoreCall.get_jobs_of_writesTo {db : Db} (c : StoreCall) {j : JobId}
    (hj : (Call.store c).writesTo ≠ some j) : (c.exec db).2.jobs.get j = db.jobs.get j := by
  cases c with
  | updateSnapshot => exact StoreCall.get_jobs_of_ne _ hj
  | _ => rfl

section Step

variable {config : AgentConfig} {s s' : Agent} {h h' : History} {a : Action} {j : JobId}

theorem Step.columns (hstep : Step config s h a s' h') : s.db.Columns s'.db := by
  cases hstep with
  | submit => exact Db.columns_createJob ..
  | requestCancel => exact Db.columns_requestCancel ..
  | taskStore | tickStore | recoverStore | late => exact Db.columns_exec _
  | _ => exact .of_eq rfl

theorem Step.dated (hstep : Step config s h a s' h') (hinv : Inv s h) (hinv' : Inv s' h')
    (hdated : s.db.Dated) : s'.db.Dated := by
  intro j row' hrow'
  have hcolumns := hstep.columns
  cases hrow : s.db.jobs.get j with
  | none => exact hcolumns.fresh j row' hrow hrow'
  | some row =>
    obtain ⟨row₁, hrow₁, -, haccepted⟩ := hcolumns.kept j row hrow
    obtain rfl := Option.some.inj (hrow₁.symm.trans hrow')
    obtain ⟨row₂, hrow₂, hchain⟩ := hinv.row_step hinv' (hinv.step_logs hstep).2 hrow
    obtain rfl := Option.some.inj (hrow₂.symm.trans hrow')
    rw [haccepted, hdated j row hrow, (Writes.same_of_chain hchain).2.2.1]

/-- A job that has begun, or whose cancel is requested, does not wait for its turn. -/
theorem not_waits_of_touched {db : Db} (hlogs : WrittenLogs db) (h : Ran db j ∨ Flagged db j) :
    ¬ Waits db j := by
  rintro ⟨row, hrow, hstate, hcancel⟩
  rcases h with hran | hflag
  · have hbegun := hran.row hlogs hrow
    rw [hstate] at hbegun
    cases hbegun
  · rw [hflag.row hlogs hrow] at hcancel
    cases hcancel

/-- Only the scheduler makes a job wait. -/
theorem Step.waits_of (hstep : Step config s h a s' h') (hinv : Inv s h) (hinv' : Inv s' h')
    (ha : ∀ answers, a ≠ .scheduler answers) (hwaits : Waits s'.db j) : Waits s.db j := by
  have hext := (hinv.step_logs hstep).2
  -- a transaction of a task, or one that is left over
  have htask : ∀ c : StoreCall, s'.db = (c.exec s.db).2 →
      (c.target = some j → Ran s.db j ∨ Flagged s.db j) → Waits s.db j := by
    intro c hdb htouched
    by_cases hj : c.target = some j
    · refine absurd hwaits (not_waits_of_touched hinv'.logs ?_)
      exact (htouched hj).imp (·.extends hext) (·.extends hext)
    · obtain ⟨row, hrow, hrest⟩ := hwaits
      rw [hdb, c.get_jobs_of_ne hj] at hrow
      exact ⟨row, hrow, hrest⟩
  cases hstep with
  | submit job document principal idempotencyKey retryOf =>
    obtain ⟨row, hrow, hstate, hcancel⟩ := hwaits
    simp only at hrow
    unfold TrexCli.submit at hrow
    generalize hx : acceptedSnapshot _ _ _ _ _ = x at hrow
    have hcase := s.db.createJob_cases x principal idempotencyKey document retryOf
    generalize s.db.createJob x principal idempotencyKey document retryOf = y at hcase hrow
    cases hcase with
    | refused | found => exact ⟨row, hrow, hstate, hcancel⟩
    | created db' hnew happ =>
      by_cases hj : j = x.jobId
      · obtain ⟨row', hrow', hsnap, -⟩ := happ.row
        rw [hj] at hrow
        obtain rfl := Option.some.inj (hrow.symm.trans hrow')
        rw [hsnap, ← hx] at hstate
        cases hstate
      · exact ⟨row, by rwa [← happ.rest j hj], hstate, hcancel⟩
  | requestCancel job requestId principal reason =>
    obtain ⟨row, hrow, hstate, hcancel⟩ := hwaits
    simp only at hrow
    have hcase := s.db.requestCancel_cases job
      (fun row hrow => ⟨(hinv.logs.row job row hrow).1, (hinv.logs.row job row hrow).2.2.1⟩)
      requestId principal reason
    generalize s.db.requestCancel job requestId principal reason = x at hcase hrow
    cases hcase with
    | refused | kept => exact ⟨row, hrow, hstate, hcancel⟩
    | requested db' row₀ hrow₀ hlive happ =>
      by_cases hj : j = row₀.snapshot.jobId
      · obtain ⟨row', hrow', hsnap, -⟩ := happ.row
        rw [show (Db.cancelRequestedOf row₀.snapshot).jobId = j from hj.symm] at hrow'
        obtain rfl := Option.some.inj (hrow.symm.trans hrow')
        rw [hsnap] at hcancel
        cases hcancel
      · exact ⟨row, by rwa [← happ.rest j hj], hstate, hcancel⟩
  | taskStore i answers t l c k v hi hp hpre =>
    exact htask c rfl fun hj =>
      touched_of_own (hinv.task i t hi).known hpre.2 (hinv.task i t hi).begun hj
  | late n c hn => exact htask c rfl fun hj => (hinv.late c (List.mem_of_getElem? hn)).touched hj
  | tickStore | recoverStore => exact absurd rfl (ha _)
  | _ => exact hwaits

/-- A job that the scheduler takes for new goes on waiting, unless it has a live task. -/
theorem Step.stays (hstep : Step config s h a s' h') (hinv : Inv s h) (hserving : s.serving = true)
    (ha : ∀ answers, a ≠ .scheduler answers) (hnew : j ∈ h.tick.untouched)
    (hwaits : InState s.db j .waitingForPorts) : Active s j ∨ InState s'.db j .waitingForPorts := by
  by_cases hactive : Active s j
  · exact .inl hactive
  have hu : Untouched s j :=
    ((hinv.ticking hserving).1.untouched j hnew).resolve_left hactive
  refine .inr ?_
  have hkeep : ∀ c : StoreCall, c.target ≠ some j → InState (c.exec s.db).2 j .waitingForPorts := by
    intro c hc
    obtain ⟨row, hrow, hstate⟩ := hwaits
    exact ⟨row, by rw [c.get_jobs_of_ne hc, hrow], hstate⟩
  cases hstep with
  | submit => exact hwaits.submit ..
  | requestCancel => exact hwaits.requestCancel hinv.logs ..
  | taskStore i answers t l c k v hi hp hpre =>
    refine hkeep c fun hj => ?_
    rcases hinv.active_of_own hi hp hpre.2 hj with hlive | hnot
    · exact hactive hlive
    · exact hnot hu
  | late n c hn => exact hkeep c (hu.late c (List.mem_of_getElem? hn))
  | tickStore | recoverStore => exact absurd rfl (ha _)
  | _ => exact hwaits

end Step

end TrexCli
