import TrexCli.Store.Leases

/-!
# The agent's database

The tables of `SqliteStore` that jobs and the scheduler use, and its methods on them. The store
holds one lock and each writing method is one transaction, so a method is a function on the whole
database; the body of a transaction that raises is rolled back, so there it returns no database.
-/

namespace TrexCli

/-- A row of `jobs`. -/
structure JobRow where
  jobId : JobId
  principal : String
  idempotencyKey : String
  specDigest : String
  document : JobDocument
  resolvedSpecJson : Option String := none
  state : JobState
  revision : Nat
  snapshot : JobSnapshot
  acceptedAt : Instant

/-- A row of `job_events`. -/
structure JobEvent where
  jobId : JobId
  revision : Nat
  eventType : String
  snapshot : JobSnapshot

/-- A row of `cancel_requests`. -/
structure CancelRequest where
  jobId : JobId
  requestId : String
  principal : String
  reason : String

/-- The database. -/
structure Db where
  jobs : Table JobId JobRow JobRow.jobId
  events : Table (JobId × Nat) JobEvent fun e => (e.jobId, e.revision)
  cancelRequests : Table (JobId × String) CancelRequest fun c => (c.jobId, c.requestId)
  leases : Leases
  markers : Table JobId ExecutionMarker ExecutionMarker.jobId

namespace Db

/-- A database without jobs, and without ports. -/
def empty : Db := ⟨.empty, .empty, .empty, .empty, .empty⟩

/-- Run the body of a transaction: it commits, or raises and is rolled back. -/
def transaction {α : Type} (db : Db) (body : Except Exc (α × Db)) : Except Exc α × Db :=
  match body with
  | .ok (a, db') => (.ok a, db')
  | .error e => (.error e, db)

def integrityError : Exc := .exception "UNIQUE constraint failed"

def invalidRetry (message : String) : Exc :=
  .trexCli { code := "INVALID_DOCUMENT", message, category := "INPUT" }

/-- The checks `_create_job_sync` makes on `retryOf`. -/
def checkRetry (db : Db) (digest : String) : Option JobId → Except Exc Unit
  | none => .ok ()
  | some retryOf =>
    match db.jobs.get retryOf with
    | none => .error (.notFound ("retry Job " ++ toString retryOf))
    | some retried =>
      if !retried.state.terminal then
        .error (invalidRetry "retryOf must reference a terminal Job")
      else if retried.specDigest ≠ digest then
        .error (invalidRetry "retryOf must reference a Job with the same spec digest")
      else .ok ()

/-- Store an event of the job its snapshot is of. -/
def addEvent (db : Db) (eventType : String) (snapshot : JobSnapshot) : Except Exc Db :=
  match db.events.insert
      { jobId := snapshot.jobId, revision := snapshot.revision, eventType, snapshot } with
  | some events => .ok { db with events }
  | none => .error integrityError

/-- `_create_job_sync`: the stored snapshot, and whether the job is new. -/
def createJob (db : Db) (snapshot : JobSnapshot) (principal idempotencyKey : String)
    (document : JobDocument) (retryOf : Option JobId) : Except Exc (JobSnapshot × Bool) × Db :=
  db.transaction <|
    match db.jobs.rows.find? fun r =>
        r.principal = principal ∧ r.idempotencyKey = idempotencyKey with
    | some existing =>
      if existing.specDigest ≠ snapshot.submittedSpecDigest then .error .idempotencyConflict
      else .ok ((existing.snapshot, false), db)
    | none => do
      db.checkRetry snapshot.submittedSpecDigest retryOf
      match db.jobs.insert
          { jobId := snapshot.jobId, principal, idempotencyKey,
            specDigest := snapshot.submittedSpecDigest, document, state := snapshot.state,
            revision := snapshot.revision, snapshot, acceptedAt := snapshot.submittedAt } with
      | none => .error integrityError
      | some jobs =>
        let db' ← { db with jobs }.addEvent "JOB_ACCEPTED" snapshot
        .ok ((snapshot, true), db')

/-- The row of the job, or `NotFound`. -/
def jobRow (db : Db) (job : JobId) : Except Exc JobRow :=
  match db.jobs.get job with
  | none => .error (.notFound ("Job " ++ toString job))
  | some row => .ok row

/-- `_get_snapshot_sync` -/
def getSnapshot (db : Db) (job : JobId) : Except Exc JobSnapshot :=
  (db.jobRow job).map JobRow.snapshot

/-- `_get_document_json_sync`, decoded as `TestJobs._document` does. -/
def getDocument (db : Db) (job : JobId) : Except Exc JobDocument :=
  (db.jobRow job).map JobRow.document

/-- The row with a new snapshot, as `_update_snapshot_sync` writes it. -/
def JobRow.store (snapshot : JobSnapshot) (resolvedSpecJson : Option String) (r : JobRow) :
    JobRow :=
  { r with
    state := snapshot.state
    revision := snapshot.revision
    snapshot
    resolvedSpecJson := resolvedSpecJson.or r.resolvedSpecJson }

/-- `_update_snapshot_sync`: compare and swap on the revision. -/
def updateSnapshot (db : Db) (snapshot : JobSnapshot) (expectedRevision : Nat)
    (eventType : String) (resolvedSpecJson : Option String) : Except Exc Unit × Db :=
  db.transaction <|
    match db.jobs.get snapshot.jobId with
    | none => .error .revisionConflict
    | some row =>
      if row.revision ≠ expectedRevision then .error .revisionConflict
      else do
        let jobs := db.jobs.update
          (fun r => if r.jobId = snapshot.jobId then JobRow.store snapshot resolvedSpecJson r else r)
          fun r => by split <;> rfl
        let db' ← { db with jobs }.addEvent eventType snapshot
        .ok ((), db')

/-- The snapshot a cancel request writes. -/
def cancelRequestedOf (s : JobSnapshot) : JobSnapshot :=
  { s with revision := s.revision + 1, cancelRequested := true }

/-- `_request_cancel_sync` -/
def requestCancel (db : Db) (job : JobId) (requestId principal reason : String) :
    Except Exc JobSnapshot × Db :=
  db.transaction do
    let snapshot ← db.getSnapshot job
    if (db.cancelRequests.get (job, requestId)).isSome || snapshot.state.terminal then
      .ok (snapshot, db)
    else
      match db.cancelRequests.insert { jobId := job, requestId, principal, reason } with
      | none => .error integrityError
      | some cancelRequests =>
        let updated := cancelRequestedOf snapshot
        let jobs := db.jobs.update
          (fun r => if r.jobId = job then { r with revision := updated.revision, snapshot := updated }
            else r)
          fun r => by split <;> rfl
        let db' ← { db with jobs, cancelRequests }.addEvent "CANCEL_REQUESTED" updated
        .ok (updated, db')

/-- `ORDER BY accepted_at, job_id` -/
def Before (a b : JobRow) : Prop :=
  a.acceptedAt < b.acceptedAt ∨ a.acceptedAt = b.acceptedAt ∧ a.jobId ≤ b.jobId

instance : DecidableRel Before := fun _ _ => inferInstanceAs (Decidable (_ ∨ _))

/-- `_list_nonterminal_sync` -/
def listNonterminal (db : Db) : List JobSnapshot :=
  ((db.jobs.rows.filter fun r => !r.state.terminal).insertionSort Before).map JobRow.snapshot

/-- The event log of a job: the snapshot of each revision. -/
def logOf (db : Db) (job : JobId) (revision : Nat) : Option JobSnapshot :=
  (db.events.get (job, revision)).map JobEvent.snapshot

/-- `db'` is `db` with snapshot `s` written to its job and as a new event. -/
structure Appended (db db' : Db) (s : JobSnapshot) : Prop where
  fresh : db.logOf s.jobId s.revision = none
  log : ∀ j r, db'.logOf j r = if j = s.jobId ∧ r = s.revision then some s else db.logOf j r
  row : ∃ row, db'.jobs.get s.jobId = some row ∧ row.snapshot = s ∧ row.revision = s.revision ∧
    row.state = s.state
  rest : ∀ j, j ≠ s.jobId → db'.jobs.get j = db.jobs.get j
  leases : db'.leases = db.leases
  markers : db'.markers = db.markers

theorem addEvent_eq_ok {db db' : Db} {eventType : String} {s : JobSnapshot}
    (h : db.addEvent eventType s = .ok db') :
    db.logOf s.jobId s.revision = none ∧
    (∀ j r, db'.logOf j r = if j = s.jobId ∧ r = s.revision then some s else db.logOf j r) ∧
    db'.jobs = db.jobs ∧ db'.leases = db.leases ∧ db'.markers = db.markers ∧
      db'.cancelRequests = db.cancelRequests := by
  unfold addEvent at h
  split at h
  · rename_i events hins
    obtain rfl := Except.ok.inj h
    refine ⟨?_, fun j r => ?_, rfl, rfl, rfl, rfl⟩
    · have hfree : db.events.get (s.jobId, s.revision) = none := by
        by_contra hne
        rw [db.events.insert_eq_none.mpr hne] at hins
        cases hins
      simp [logOf, hfree]
    · simp only [logOf, db.events.get_insert hins, Prod.mk.injEq]
      by_cases hjr : s.jobId = j ∧ s.revision = r
      · rw [if_pos hjr, if_pos ⟨hjr.1.symm, hjr.2.symm⟩]
        rfl
      · rw [if_neg hjr, if_neg fun hc => hjr ⟨hc.1.symm, hc.2.symm⟩]
  · cases h

theorem addEvent_eq_error {db : Db} {eventType : String} {s : JobSnapshot} {e : Exc}
    (h : db.addEvent eventType s = .error e) :
    e = integrityError ∧ (db.logOf s.jobId s.revision).isSome := by
  unfold addEvent at h
  split at h
  · cases h
  · rename_i hins
    refine ⟨(Except.error.inj h).symm, ?_⟩
    rw [logOf, Option.isSome_map, Option.isSome_iff_ne_none]
    exact db.events.insert_eq_none.mp hins

/-- Everything `createJob` can do. -/
inductive Create (db : Db) (s : JobSnapshot) : Except Exc (JobSnapshot × Bool) × Db → Prop where
  | refused (e : Exc) : Create db s (.error e, db)
  | found (row : JobRow) (hrow : db.jobs.get row.jobId = some row) :
      Create db s (.ok (row.snapshot, false), db)
  | created (db' : Db) (hnew : db.jobs.get s.jobId = none) (happ : Appended db db' s) :
      Create db s (.ok (s, true), db')

theorem createJob_cases (db : Db) (s : JobSnapshot) (principal idempotencyKey : String)
    (document : JobDocument) (retryOf : Option JobId) :
    Create db s (db.createJob s principal idempotencyKey document retryOf) := by
  unfold createJob
  split
  · rename_i existing hfind
    split
    · exact .refused _
    · exact .found existing (db.jobs.mem_rows.mp (List.mem_of_find?_eq_some hfind))
  · cases db.checkRetry s.submittedSpecDigest retryOf with
    | error e => exact .refused e
    | ok _ =>
      dsimp only [bind, Except.bind]
      split
      · exact .refused _
      · rename_i jobs hins
        generalize hadd : addEvent _ _ _ = r
        cases r with
        | error e => exact .refused e
        | ok db' =>
          obtain ⟨hfresh, hlog, hjobs, hleases, hmarkers, -⟩ := addEvent_eq_ok hadd
          have hget := db.jobs.get_insert hins
          refine .created db' ?_ ⟨hfresh, hlog, ?_, ?_, hleases, hmarkers⟩
          · by_contra hne
            rw [db.jobs.insert_eq_none.mpr hne] at hins
            cases hins
          · exact ⟨_, by rw [hjobs, hget, if_pos rfl], rfl, rfl, rfl⟩
          · intro j hj
            rw [hjobs, hget, if_neg (Ne.symm hj)]

/-- Everything `updateSnapshot` can do. -/
inductive Update (db : Db) (s : JobSnapshot) (expectedRevision : Nat) :
    Except Exc Unit × Db → Prop where
  | conflict (hrev : ∀ row, db.jobs.get s.jobId = some row → row.revision ≠ expectedRevision) :
      Update db s expectedRevision (.error .revisionConflict, db)
  | taken (row : JobRow) (hrow : db.jobs.get s.jobId = some row)
      (hrev : row.revision = expectedRevision) (htaken : (db.logOf s.jobId s.revision).isSome) :
      Update db s expectedRevision (.error integrityError, db)
  | updated (db' : Db) (row : JobRow) (hrow : db.jobs.get s.jobId = some row)
      (hrev : row.revision = expectedRevision) (happ : Appended db db' s) :
      Update db s expectedRevision (.ok (), db')

theorem updateSnapshot_cases (db : Db) (s : JobSnapshot) (expectedRevision : Nat)
    (eventType : String) (resolvedSpecJson : Option String) :
    Update db s expectedRevision
      (db.updateSnapshot s expectedRevision eventType resolvedSpecJson) := by
  unfold updateSnapshot
  split
  · rename_i hrow
    exact .conflict (by simp [hrow])
  · rename_i row hrow
    split
    · rename_i hrev
      refine .conflict fun row' hrow' => ?_
      obtain rfl := Option.some.inj (hrow.symm.trans hrow')
      exact hrev
    · rename_i hrev
      dsimp only [bind, Except.bind]
      generalize hadd : addEvent _ _ _ = r
      cases r with
      | error e =>
        obtain ⟨rfl, htaken⟩ := addEvent_eq_error hadd
        exact .taken row hrow (not_not.mp hrev) htaken
      | ok db' =>
        obtain ⟨hfresh, hlog, hjobs, hleases, hmarkers, -⟩ := addEvent_eq_ok hadd
        refine .updated db' row hrow (not_not.mp hrev) ⟨hfresh, hlog, ?_, ?_, hleases, hmarkers⟩
        · refine ⟨JobRow.store s resolvedSpecJson row, ?_, rfl, rfl, rfl⟩
          rw [hjobs, Table.get_update, hrow, Option.map_some, if_pos (db.jobs.key_of_get hrow)]
        · intro j hj
          rw [hjobs, Table.get_update]
          cases hget : db.jobs.get j with
          | none => rfl
          | some r => rw [Option.map_some, if_neg (by rwa [db.jobs.key_of_get hget])]

/-- Everything `requestCancel` can do, where the state column is the state of the snapshot. -/
inductive Cancel (db : Db) (job : JobId) : Except Exc JobSnapshot × Db → Prop where
  | refused (e : Exc) : Cancel db job (.error e, db)
  | kept (row : JobRow) (hrow : db.jobs.get job = some row) :
      Cancel db job (.ok row.snapshot, db)
  | requested (db' : Db) (row : JobRow) (hrow : db.jobs.get job = some row)
      (hlive : row.snapshot.state.terminal = false)
      (happ : Appended db db' (cancelRequestedOf row.snapshot)) :
      Cancel db job (.ok (cancelRequestedOf row.snapshot), db')

theorem requestCancel_cases (db : Db) (job : JobId)
    (hrows : ∀ row, db.jobs.get job = some row →
      row.state = row.snapshot.state ∧ row.snapshot.jobId = job)
    (requestId principal reason : String) :
    Cancel db job (db.requestCancel job requestId principal reason) := by
  unfold requestCancel getSnapshot jobRow
  cases hrow : db.jobs.get job with
  | none => exact .refused _
  | some row =>
    obtain ⟨hstate, hjob⟩ := hrows row hrow
    dsimp only [bind, Except.bind, Except.map]
    split
    · exact .kept row hrow
    · rename_i hcond
      rw [Bool.or_eq_true, not_or, Bool.not_eq_true, Bool.not_eq_true] at hcond
      split
      · exact .refused _
      · rename_i cancelRequests hins
        generalize hadd : addEvent _ _ _ = r
        cases r with
        | error e => exact .refused e
        | ok db' =>
          obtain ⟨hfresh, hlog, hjobs, hleases, hmarkers, -⟩ := addEvent_eq_ok hadd
          refine .requested db' row hrow hcond.2 ⟨hfresh, hlog, ?_, ?_, hleases, hmarkers⟩
          · refine ⟨{ row with
              revision := row.snapshot.revision + 1
              snapshot := cancelRequestedOf row.snapshot }, ?_, rfl, rfl, hstate⟩
            rw [hjobs, Table.get_update, show (cancelRequestedOf row.snapshot).jobId = job from hjob,
              hrow, Option.map_some, if_pos (db.jobs.key_of_get hrow)]
            rfl
          · intro j hj
            rw [hjobs, Table.get_update]
            cases hget : db.jobs.get j with
            | none => rfl
            | some r =>
              have hne : r.jobId ≠ job := by
                rw [db.jobs.key_of_get hget, ← hjob]
                exact hj
              rw [Option.map_some, if_neg hne]

/-- A cancel request that finds the job terminal changes nothing. -/
theorem requestCancel_of_terminal {db : Db} {job : JobId} {row : JobRow}
    (hrow : db.jobs.get job = some row) (hterm : row.snapshot.state.terminal = true)
    (requestId principal reason : String) :
    db.requestCancel job requestId principal reason = (.ok row.snapshot, db) := by
  unfold requestCancel getSnapshot jobRow
  rw [hrow]
  simp [bind, Except.bind, Except.map, hterm, transaction]

theorem mem_listNonterminal {db : Db} {s : JobSnapshot} :
    s ∈ db.listNonterminal ↔
      ∃ row, db.jobs.get row.jobId = some row ∧ row.state.terminal = false ∧ row.snapshot = s := by
  simp [listNonterminal, Table.mem_rows, and_assoc]

end Db

end TrexCli
