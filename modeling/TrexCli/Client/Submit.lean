import TrexCli.Jobs.EventLogs

/-!
# Submitting jobs

A call of `submit` draws a job id, computes the digest of its document and hands one transaction to
the store; `_notify` and the log line come after it. So any number of calls wait for the store at
once, and the store runs their transactions in any order, between those of the other writers.

No two jobs share a principal and an idempotency key, whatever was submitted (`keys_run`), and with
that the answer of a call depends only on the job of its key.
-/

namespace TrexCli

/-- A call of `submit` that waits for the store. -/
structure SubmitCall where
  job : JobId
  document : JobDocument
  principal : String
  idempotencyKey : String
  retryOf : Option JobId
  now : Instant

namespace SubmitCall

/-- `spec_digest` of the document. -/
def digest (config : AgentConfig) (c : SubmitCall) : String :=
  config.sha256Text c.document.canonical

/-- The transaction of the call. -/
def create (config : AgentConfig) (c : SubmitCall) (db : Db) :
    Except Exc (JobSnapshot × Bool) × Db :=
  submit config db c.job c.document c.principal c.idempotencyKey c.retryOf c.now

/-- The call has the idempotency key of the job. -/
def Names (c : SubmitCall) (row : JobRow) : Prop :=
  row.principal = c.principal ∧ row.idempotencyKey = c.idempotencyKey

instance (c : SubmitCall) (row : JobRow) : Decidable (c.Names row) :=
  inferInstanceAs (Decidable (_ ∧ _))

end SubmitCall

/-- The writers of `jobs`, the calls that wait for the store, and what the others have answered. -/
structure Submissions where
  writers : Writers
  waiting : List SubmitCall
  answers : List (SubmitCall × Except Exc JobSnapshot)

inductive SubmissionAction where
  | call (c : SubmitCall)
  /-- The store runs the transaction of the `i`-th waiting call. -/
  | create (i : Nat)
  | other (a : WriterAction)

namespace Submissions

variable (config : AgentConfig)

def step (s : Submissions) : SubmissionAction → Submissions
  | .call c => { s with waiting := s.waiting ++ [c] }
  | .create i =>
    match s.waiting[i]? with
    | some c =>
      let (r, db) := c.create config s.writers.db
      { writers := { s.writers with db }
        waiting := s.waiting.eraseIdx i
        answers := s.answers ++ [(c, r.map Prod.fst)] }
    | none => s
  | .other a => { s with writers := s.writers.step config a }

/-- The state after a sequence of actions on a new database. -/
def run (actions : List SubmissionAction) : Submissions :=
  actions.foldl (step config) ⟨⟨.empty, [], []⟩, [], []⟩

end Submissions

/-- What a row is found by on a submission. -/
def JobRow.identity (r : JobRow) : String × String := (r.principal, r.idempotencyKey)

namespace Db

/-- At most one job exists for each principal and idempotency key. -/
def UniqueKeys (db : Db) : Prop := (db.jobs.rows.map JobRow.identity).Nodup

/-- `db'` is `db` with one job more, and its first event. -/
structure Created (db db' : Db) (row : JobRow) : Prop where
  new : db.jobs.get row.jobId = none
  jobs : db'.jobs.rows = db.jobs.rows ++ [row]
  events : db'.events.rows = db.events.rows ++ [⟨row.jobId, 1, "JOB_ACCEPTED", row.snapshot⟩]
  revision : row.revision = 1
  leases : db'.leases = db.leases
  markers : db'.markers = db.markers
  cancelRequests : db'.cancelRequests = db.cancelRequests

variable {db db' : Db}

theorem addEvent_rows {eventType : String} {s : JobSnapshot}
    (h : db.addEvent eventType s = .ok db') :
    db'.events.rows = db.events.rows ++ [⟨s.jobId, s.revision, eventType, s⟩] := by
  unfold addEvent at h
  split at h
  · rename_i events hins
    obtain rfl := Except.ok.inj h
    exact db.events.insert_rows hins
  · cases h

/-- `retryOf` may name the job. -/
def Retryable (db : Db) (digest : String) (retryOf : JobId) : Prop :=
  ∃ retried ∈ db.jobs.rows, retried.jobId = retryOf ∧ retried.state.terminal = true ∧
    retried.specDigest = digest

theorem checkRetry_eq_ok {digest : String} {retryOf : JobId} :
    db.checkRetry digest (some retryOf) = .ok () ↔ db.Retryable digest retryOf := by
  cases hget : db.jobs.get retryOf with
  | none =>
    have hnone := db.jobs.get_eq_none.mp hget
    constructor
    · intro h
      simp [checkRetry, hget] at h
    · rintro ⟨retried, hmem, hjob, -⟩
      exact absurd hjob (hnone retried hmem)
  | some row =>
    obtain ⟨hmem, hjob⟩ := db.jobs.get_eq_some.mp hget
    constructor
    · intro h
      simp only [checkRetry, hget, Bool.not_eq_true'] at h
      split at h
      · cases h
      · split at h
        · cases h
        · rename_i hterm hdigest
          exact ⟨row, hmem, hjob, by simpa using hterm, not_not.mp hdigest⟩
    · rintro ⟨retried, hretried, hj, hterm, hdigest⟩
      have hget' := db.jobs.get_eq_some.mpr ⟨hretried, hj⟩
      simp [checkRetry, hget', hterm, hdigest]

theorem updateSnapshot_identities (s : JobSnapshot) (expectedRevision : Nat) (eventType : String)
    (resolvedSpecJson : Option String) :
    (db.updateSnapshot s expectedRevision eventType resolvedSpecJson).2.jobs.rows.map
      JobRow.identity = db.jobs.rows.map JobRow.identity := by
  unfold updateSnapshot
  split
  · rfl
  · split
    · rfl
    · dsimp only [bind, Except.bind]
      generalize hadd : addEvent _ _ _ = r
      cases r with
      | error e => rfl
      | ok db' =>
        obtain ⟨-, -, hjobs, -⟩ := addEvent_eq_ok hadd
        show db'.jobs.rows.map _ = _
        rw [hjobs, Table.update, List.map_map]
        refine List.map_congr_left fun r _ => ?_
        simp only [Function.comp_apply]
        split <;> rfl

theorem requestCancel_identities (job : JobId) (requestId principal reason : String) :
    (db.requestCancel job requestId principal reason).2.jobs.rows.map JobRow.identity =
      db.jobs.rows.map JobRow.identity := by
  unfold requestCancel getSnapshot jobRow
  cases hrow : db.jobs.get job with
  | none => rfl
  | some row =>
    dsimp only [bind, Except.bind, Except.map]
    split
    · rfl
    · split
      · rfl
      · generalize hadd : addEvent _ _ _ = r
        cases r with
        | error e => rfl
        | ok db' =>
          obtain ⟨-, -, hjobs, -⟩ := addEvent_eq_ok hadd
          show db'.jobs.rows.map _ = _
          rw [hjobs, Table.update, List.map_map]
          refine List.map_congr_left fun r _ => ?_
          simp only [Function.comp_apply]
          split <;> rfl

theorem exec_identities (c : StoreCall) :
    (c.exec db).2.jobs.rows.map JobRow.identity = db.jobs.rows.map JobRow.identity := by
  cases c with
  | updateSnapshot s expectedRevision eventType resolvedSpecJson =>
    exact updateSnapshot_identities s expectedRevision eventType resolvedSpecJson
  | _ => rfl

end Db

/-- What a call answers and leaves: by the job of its key, if there is one, and otherwise by the job
it retries. -/
structure SubmitLaw (config : AgentConfig) (c : SubmitCall) (db : Db)
    (out : Except Exc (JobSnapshot × Bool) × Db) : Prop where
  found : ∀ row ∈ db.jobs.rows, c.Names row → row.specDigest = c.digest config →
    out = (.ok (row.snapshot, false), db)
  conflict : ∀ row ∈ db.jobs.rows, c.Names row → row.specDigest ≠ c.digest config →
    out = (.error .idempotencyConflict, db)
  retry : (∀ row ∈ db.jobs.rows, ¬ c.Names row) → ∀ retryOf, c.retryOf = some retryOf →
    ¬ db.Retryable (c.digest config) retryOf → ∃ e, out = (.error e, db)
  raised : ∀ e, out.1 = .error e → out.2 = db
  existing : ∀ s, out.1 = .ok (s, false) → ∃ row ∈ db.jobs.rows, c.Names row ∧ row.snapshot = s
  created : ∀ s, out.1 = .ok (s, true) → (∀ row ∈ db.jobs.rows, ¬ c.Names row) ∧
    ∃ row, db.Created out.2 row ∧ c.Names row ∧ row.jobId = c.job ∧
      row.specDigest = c.digest config ∧ row.snapshot = s
  accepted : (∀ row ∈ db.jobs.rows, ¬ c.Names row) →
    (∀ retryOf, c.retryOf = some retryOf → db.Retryable (c.digest config) retryOf) →
    db.jobs.get c.job = none → db.logOf c.job 1 = none → ∃ s, out.1 = .ok (s, true)

namespace SubmitCall

variable {config : AgentConfig} {c : SubmitCall} {db : Db}

/-- The snapshot of the call. -/
abbrev accepted (config : AgentConfig) (c : SubmitCall) : JobSnapshot :=
  acceptedSnapshot c.job c.document.kind (c.digest config) c.retryOf c.now

/-- The row of the call. -/
abbrev row (config : AgentConfig) (c : SubmitCall) : JobRow where
  jobId := c.job
  principal := c.principal
  idempotencyKey := c.idempotencyKey
  specDigest := c.digest config
  document := c.document
  state := .accepted
  revision := 1
  snapshot := c.accepted config
  acceptedAt := c.now

theorem create_eq :
    c.create config db = db.transaction (
      match db.jobs.rows.find? fun r => decide (c.Names r) with
      | some existing =>
        if existing.specDigest ≠ c.digest config then .error .idempotencyConflict
        else .ok ((existing.snapshot, false), db)
      | none => do
        db.checkRetry (c.digest config) c.retryOf
        match db.jobs.insert (c.row config) with
        | none => .error Db.integrityError
        | some jobs =>
          let db' ← { db with jobs }.addEvent "JOB_ACCEPTED" (c.accepted config)
          .ok ((c.accepted config, true), db')) :=
  rfl

/-- The transaction of a call whose key has a job. -/
theorem create_found {row : JobRow} (hkeys : db.UniqueKeys) (hrow : row ∈ db.jobs.rows)
    (hnames : c.Names row) :
    c.create config db = if row.specDigest ≠ c.digest config then (.error .idempotencyConflict, db)
      else (.ok (row.snapshot, false), db) := by
  have hfind : db.jobs.rows.find? (fun r => decide (c.Names r)) = some row := by
    cases hf : db.jobs.rows.find? fun r => decide (c.Names r) with
    | none => exact absurd (decide_eq_true hnames) (List.find?_eq_none.mp hf row hrow)
    | some row' =>
      have hnames' : c.Names row' := by simpa using List.find?_some hf
      have hid : row'.identity = row.identity :=
        Prod.ext (hnames'.1.trans hnames.1.symm) (hnames'.2.trans hnames.2.symm)
      rw [List.inj_on_of_nodup_map hkeys (List.mem_of_find?_eq_some hf) hrow hid]
  rw [create_eq, hfind]
  by_cases hdigest : row.specDigest = c.digest config
  · rw [if_neg (not_not.mpr hdigest)]
    simp only [ne_eq, hdigest, not_true_eq_false, if_false]
    rfl
  · rw [if_pos hdigest]
    simp only [ne_eq, hdigest, not_false_eq_true, if_true]
    rfl

variable (config) in
/-- The transaction of a call whose key has no job. -/
theorem create_new (hnew : ∀ row ∈ db.jobs.rows, ¬ c.Names row) :
    (∃ e, c.create config db = (.error e, db) ∧
      (db.checkRetry (c.digest config) c.retryOf ≠ .ok () ∨ db.jobs.get c.job ≠ none ∨
        db.logOf c.job 1 ≠ none)) ∨
    db.checkRetry (c.digest config) c.retryOf = .ok () ∧
      ∃ db', c.create config db = (.ok (c.accepted config, true), db') ∧
        db.Created db' (c.row config) := by
  have hfind : db.jobs.rows.find? (fun r => decide (c.Names r)) = none :=
    List.find?_eq_none.mpr fun r hr => by simpa using hnew r hr
  rw [create_eq, hfind]
  cases hretry : db.checkRetry (c.digest config) c.retryOf with
  | error e => exact .inl ⟨e, rfl, .inl (by simp)⟩
  | ok u =>
    cases hins : db.jobs.insert (c.row config) with
    | none => exact .inl ⟨Db.integrityError, rfl, .inr (.inl (db.jobs.insert_eq_none.mp hins))⟩
    | some jobs =>
      dsimp only [bind, Except.bind]
      cases hadd : { db with jobs }.addEvent "JOB_ACCEPTED" (c.accepted config) with
      | error e =>
        obtain ⟨-, htaken⟩ := Db.addEvent_eq_error hadd
        refine .inl ⟨e, rfl, .inr (.inr fun hnone => ?_)⟩
        have hnone' : { db with jobs }.logOf (c.accepted config).jobId (c.accepted config).revision =
            none := hnone
        rw [hnone'] at htaken
        cases htaken
      | ok db' =>
        obtain ⟨-, -, hjobs, hleases, hmarkers, hcancel⟩ := Db.addEvent_eq_ok hadd
        have hfree : db.jobs.get c.job = none := by
          by_contra hne
          rw [db.jobs.insert_eq_none.mpr hne] at hins
          cases hins
        have hrows : db'.jobs.rows = db.jobs.rows ++ [c.row config] := by
          rw [hjobs]
          exact db.jobs.insert_rows hins
        exact .inr ⟨rfl, db', rfl, hfree, hrows, Db.addEvent_rows hadd, rfl, hleases, hmarkers,
          hcancel⟩

/-- A call whose key has a job obeys the law. -/
theorem law_of_found {row : JobRow} (hkeys : db.UniqueKeys) (hrow : row ∈ db.jobs.rows)
    (hnames : c.Names row) : SubmitLaw config c db (c.create config db) := by
  have honly : ∀ row' ∈ db.jobs.rows, c.Names row' → row' = row := fun row' hrow' h' =>
    List.inj_on_of_nodup_map hkeys hrow' hrow
      (Prod.ext (h'.1.trans hnames.1.symm) (h'.2.trans hnames.2.symm))
  have hold {P : Prop} (hno : ∀ row ∈ db.jobs.rows, ¬ c.Names row) : P :=
    absurd hnames (hno row hrow)
  rw [create_found hkeys hrow hnames]
  by_cases hdigest : row.specDigest = c.digest config
  · rw [if_neg (not_not.mpr hdigest)]
    refine ⟨?_, ?_, fun hno => hold hno, fun _ _ => rfl, ?_, ?_, fun hno => hold hno⟩
    · intro row' hrow' h' _
      rw [honly row' hrow' h']
    · intro row' hrow' h' hne
      rw [honly row' hrow' h'] at hne
      exact absurd hdigest hne
    · intro s hs
      exact ⟨row, hrow, hnames, (Prod.mk.inj (Except.ok.inj hs)).1⟩
    · intro s hs
      exact absurd (Prod.mk.inj (Except.ok.inj hs)).2 (by decide)
  · rw [if_pos hdigest]
    refine ⟨?_, fun _ _ _ _ => rfl, fun hno => hold hno, fun _ _ => rfl, ?_, ?_,
      fun hno => hold hno⟩
    · intro row' hrow' h' heq
      rw [honly row' hrow' h'] at heq
      exact absurd heq hdigest
    · intro s hs
      simp at hs
    · intro s hs
      simp at hs

/-- A call whose key has no job obeys the law, and leaves the keys unique. -/
theorem law_of_new (hkeys : db.UniqueKeys) (hnew : ∀ row ∈ db.jobs.rows, ¬ c.Names row) :
    SubmitLaw config c db (c.create config db) ∧ (c.create config db).2.UniqueKeys := by
  have hold {P : Prop} (row : JobRow) (hrow : row ∈ db.jobs.rows) (h : c.Names row) : P :=
    absurd h (hnew row hrow)
  rcases create_new config hnew with ⟨e, heq, hwhy⟩ | ⟨hretry, db', heq, hcreated⟩
  · rw [heq]
    refine ⟨⟨fun row hrow h => hold row hrow h, fun row hrow h => hold row hrow h,
      fun _ _ _ _ => ⟨e, rfl⟩, fun _ _ => rfl, fun s hs => ?_, fun s hs => ?_, ?_⟩, hkeys⟩
    · simp at hs
    · simp at hs
    · intro _ hretry hjob hlog
      have hok : db.checkRetry (c.digest config) c.retryOf = .ok () := by
        cases hr : c.retryOf with
        | none => rfl
        | some retryOf => exact Db.checkRetry_eq_ok.mpr (hretry retryOf hr)
      rcases hwhy with h | h | h
      · exact absurd hok h
      · exact absurd hjob h
      · exact absurd hlog h
  · rw [heq]
    refine ⟨⟨fun row hrow h => hold row hrow h, fun row hrow h => hold row hrow h, ?_,
      fun e he => ?_, fun s hs => ?_, ?_, fun _ _ _ _ => ⟨_, rfl⟩⟩, ?_⟩
    · intro _ retryOf hr hbad
      rw [hr] at hretry
      exact absurd (Db.checkRetry_eq_ok.mp hretry) hbad
    · simp at he
    · simp at hs
    · intro s hs
      obtain rfl : c.accepted config = s := (Prod.mk.inj (Except.ok.inj hs)).1
      exact ⟨hnew, c.row config, hcreated, ⟨rfl, rfl⟩, rfl, rfl, rfl⟩
    · show (db'.jobs.rows.map JobRow.identity).Nodup
      rw [hcreated.jobs, List.map_append, List.map_singleton, List.nodup_append_comm,
        List.singleton_append, List.nodup_cons]
      refine ⟨fun hmem => ?_, hkeys⟩
      obtain ⟨row, hrow, hid⟩ := List.mem_map.mp hmem
      exact hnew row hrow ⟨congrArg Prod.fst hid, congrArg Prod.snd hid⟩

variable (config c) in
/-- With unique keys, a call obeys the law and leaves the keys unique. -/
theorem create_law (hkeys : db.UniqueKeys) :
    SubmitLaw config c db (c.create config db) ∧ (c.create config db).2.UniqueKeys := by
  by_cases hnew : ∀ row ∈ db.jobs.rows, ¬ c.Names row
  · exact law_of_new hkeys hnew
  · push Not at hnew
    obtain ⟨row, hrow, hnames⟩ := hnew
    refine ⟨law_of_found hkeys hrow hnames, ?_⟩
    rw [create_found hkeys hrow hnames]
    split <;> exact hkeys

end SubmitCall

/-! ### Runs -/

namespace Db.UniqueKeys

variable {db db' : Db}

theorem of_eq (h : db.UniqueKeys)
    (heq : db'.jobs.rows.map JobRow.identity = db.jobs.rows.map JobRow.identity) :
    db'.UniqueKeys := by
  unfold Db.UniqueKeys
  rw [heq]
  exact h

end Db.UniqueKeys

variable {config : AgentConfig}

/-- No other writer makes two jobs of one key either. -/
theorem Writers.step_keys {w : Writers} (h : w.db.UniqueKeys) (a : WriterAction) :
    (w.step config a).db.UniqueKeys := by
  cases a with
  | submit job document principal idempotencyKey retryOf now =>
    exact (SubmitCall.create_law config
      ⟨job, document, principal, idempotencyKey, retryOf, now⟩ h).2
  | requestCancel job requestId principal reason =>
    exact h.of_eq (Db.requestCancel_identities job requestId principal reason)
  | transition job site => exact h
  | resume i =>
    rw [Writers.step]
    split
    · exact h.of_eq (Db.exec_identities _)
    · exact h
    · exact h
  | cancelTask i =>
    rw [Writers.step]
    split <;> exact h
  | late n =>
    rw [Writers.step]
    split
    · exact h.of_eq (Db.exec_identities _)
    · exact h

namespace Submissions

theorem step_keys {s : Submissions} (h : s.writers.db.UniqueKeys) (a : SubmissionAction) :
    (s.step config a).writers.db.UniqueKeys := by
  cases a with
  | call c => exact h
  | create i =>
    rw [Submissions.step]
    split
    · exact (SubmitCall.create_law _ _ h).2
    · exact h
  | other a => exact Writers.step_keys h a

theorem keys_foldl (actions : List SubmissionAction) {s : Submissions}
    (h : s.writers.db.UniqueKeys) :
    (actions.foldl (Submissions.step config) s).writers.db.UniqueKeys := by
  induction actions generalizing s with
  | nil => exact h
  | cons a actions ih => exact ih (step_keys h a)

theorem keys_run (actions : List SubmissionAction) :
    (run config actions).writers.db.UniqueKeys :=
  keys_foldl actions List.nodup_nil

end Submissions

/-- Whatever was submitted before, in whatever order, no two jobs share a key, and when the store
runs the transaction of a waiting call, the answer and the database obey the law. -/
theorem submit_idempotent (config : AgentConfig) (actions : List SubmissionAction) :
    (Submissions.run config actions).writers.db.UniqueKeys ∧
      ∀ (i : Nat) (c : SubmitCall), (Submissions.run config actions).waiting[i]? = some c →
        ∃ r db', SubmitLaw config c (Submissions.run config actions).writers.db (r, db') ∧
          (Submissions.run config (actions ++ [.create i])).writers.db = db' ∧
          (Submissions.run config (actions ++ [.create i])).answers =
            (Submissions.run config actions).answers ++ [(c, r.map Prod.fst)] := by
  have h : (Submissions.run config actions).writers.db.UniqueKeys := Submissions.keys_run actions
  refine ⟨h, fun i c hi => ⟨_, _, (SubmitCall.create_law _ _ h).1, ?_⟩⟩
  have hrun : Submissions.run config (actions ++ [.create i]) =
      (Submissions.run config actions).step config (.create i) := by
    rw [Submissions.run, List.foldl_append]
    rfl
  rw [hrun, Submissions.step, hi]
  exact ⟨rfl, rfl⟩

/-- A second call with the key and the document of the first, that retries a job that is not
there. -/
def repeatedCall : List SubmissionAction :=
  let document : JobDocument := { kind := .statelessTraffic, logicalPorts := [0, 1], canonical := "" }
  [.call ⟨1, document, "user", "key", none, 0⟩, .create 0,
    .call ⟨2, document, "user", "key", some 9, 1⟩]

/-- The call is answered with the first job: `retryOf` is looked at only when a job is created. -/
theorem not_retry_refused_repeatedCall : ¬ ∀ (config : AgentConfig) (i : Nat) (c : SubmitCall)
    (retryOf : JobId), (Submissions.run config repeatedCall).waiting[i]? = some c →
      c.retryOf = some retryOf →
      ¬ (Submissions.run config repeatedCall).writers.db.Retryable (c.digest config) retryOf →
      ∃ e, (c.create config (Submissions.run config repeatedCall).writers.db).1 = .error e := by
  intro h
  obtain ⟨e, he⟩ := h ⟨1, "1", "1", "simulated", true, fun _ => "", id⟩ 0 _ 9 rfl rfl (by
    rintro ⟨retried, hmem, hjob, -⟩
    obtain rfl := List.mem_singleton.mp hmem
    cases hjob)
  cases he

end TrexCli
