import Mathlib.Data.List.Induction
import TrexCli.Jobs.Writes

/-!
# Event logs under concurrent writers

Any number of tasks run `_transition` for any job and any of its callers, while jobs are submitted
and cancel requests arrive, in any order. A task can be cancelled wherever it awaits; the transaction
it has handed to the worker thread then still runs, at any later moment.

Every step keeps the logs a chain of writes (`Writers.Inv`), and what the chain says of one write is
what the logs promise: `EventLogsWellFormed` and `CancelWins`.
-/

namespace TrexCli

/-- The database, the suspended `_transition` calls, and the transactions of cancelled ones. -/
structure Writers where
  db : Db
  calls : List (Task (Except Exc (Option JobSnapshot) × Unit))
  late : List StoreCall

inductive WriterAction where
  | submit (job : JobId) (document : JobDocument) (principal idempotencyKey : String)
    (retryOf : Option JobId) (now : Instant)
  | requestCancel (job : JobId) (requestId principal reason : String)
  /-- A task calls `_transition`. -/
  | transition (job : JobId) (site : CallSite)
  /-- The `i`-th call gets the answer it awaits. -/
  | resume (i : Nat)
  /-- `CancelledError` reaches the `i`-th call. -/
  | cancelTask (i : Nat)
  /-- The transaction of a cancelled call runs. -/
  | late (n : Nat)

namespace Writers

variable (config : AgentConfig)

def step (w : Writers) : WriterAction → Writers
  | .submit job document principal idempotencyKey retryOf now =>
    { w with db := (submit config w.db job document principal idempotencyKey retryOf now).2 }
  | .requestCancel job requestId principal reason =>
    { w with db := (w.db.requestCancel job requestId principal reason).2 }
  | .transition job site => { w with calls := w.calls ++ [transition job site .body ()] }
  | .resume i =>
    match w.calls[i]? with
    | some (.await _ (.store c) k) =>
      { w with db := (c.exec w.db).2, calls := w.calls.set i (k (c.exec w.db).1) }
    | some (.await _ .notify k) => { w with calls := w.calls.set i (k (.ok ())) }
    | _ => w
  | .cancelTask i =>
    match w.calls[i]? with
    | some (.await _ c k) =>
      { w with
        calls := w.calls.set i (k (.error .cancelled))
        late := w.late ++ c.transaction?.toList }
    | _ => w
  | .late n =>
    match w.late[n]? with
    | some c => { w with db := (c.exec w.db).2, late := w.late.eraseIdx n }
    | none => w

/-- The state after a sequence of actions on a new database. -/
def run (actions : List WriterAction) : Writers :=
  actions.foldl (step config) ⟨.empty, [], []⟩

/-- The logs are chains of writes, and whatever is still to be written is a write over a snapshot of
a log. -/
structure Inv (w : Writers) : Prop where
  logs : WrittenLogs w.db
  calls : ∀ p ∈ w.calls, ∃ known : Known, known.Holds w.db ∧
    p.Ok logContract (fun _ _ => True) known
  late : ∀ c ∈ w.late, ∃ known : Known, known.Holds w.db ∧ WritesOver known c

variable {config} {w : Writers}

theorem Inv.of_db (h : w.Inv) {db' : Db} (hlogs : WrittenLogs db') (hext : w.db.Extends db') :
    Inv { w with db := db' } where
  logs := hlogs
  calls p hp :=
    let ⟨known, hknown, hok⟩ := h.calls p hp
    ⟨known, hknown.extends hext, hok⟩
  late c hc :=
    let ⟨known, hknown, hover⟩ := h.late c hc
    ⟨known, hknown.extends hext, hover⟩

theorem Inv.set_call (h : w.Inv) {i : Nat} {p : Task (Except Exc (Option JobSnapshot) × Unit)}
    (hp : ∃ known : Known, known.Holds w.db ∧ p.Ok logContract (fun _ _ => True) known) :
    Inv { w with calls := w.calls.set i p } where
  logs := h.logs
  calls q hq := by
    obtain hq | rfl := List.mem_or_eq_of_mem_set hq
    · exact h.calls q hq
    · exact hp
  late := h.late

/-- A step keeps the invariant, and every event. -/
theorem Inv.step (h : w.Inv) (a : WriterAction) :
    (w.step config a).Inv ∧ w.db.Extends (w.step config a).db := by
  cases a with
  | submit job document principal idempotencyKey retryOf now =>
    obtain ⟨hlogs, hext⟩ :=
      submit_written h.logs config job document principal idempotencyKey retryOf now
    exact ⟨h.of_db hlogs hext, hext⟩
  | requestCancel job requestId principal reason =>
    obtain ⟨hlogs, hext⟩ := requestCancel_written h.logs job requestId principal reason
    exact ⟨h.of_db hlogs hext, hext⟩
  | transition job site =>
    refine ⟨⟨h.logs, fun p hp => ?_, h.late⟩, Db.Extends.refl _⟩
    obtain hp | hp := List.mem_append.mp hp
    · exact h.calls p hp
    · obtain rfl := List.mem_singleton.mp hp
      refine ⟨∅, Known.holds_empty _, ?_⟩
      exact transition_written job site .body () ∅ trivial
  | resume i =>
    rw [Writers.step]
    split
    · rename_i l c k hi
      obtain ⟨known, hknown, hpre, hpost⟩ := h.calls _ (List.mem_of_getElem? hi)
      obtain ⟨hlogs, hext, known', ha⟩ := exec_written h.logs hknown c hpre
      exact ⟨(h.of_db hlogs hext).set_call ⟨known', ha.holds, hpost _ _ ⟨ha.grows, ha.learns⟩⟩,
        hext⟩
    · rename_i l k hi
      obtain ⟨known, hknown, -, hpost⟩ := h.calls _ (List.mem_of_getElem? hi)
      refine ⟨h.set_call ⟨known, hknown, hpost _ _ ⟨subset_rfl, trivial⟩⟩, Db.Extends.refl _⟩
    · exact ⟨h, Db.Extends.refl _⟩
  | cancelTask i =>
    rw [Writers.step]
    split
    · rename_i l c k hi
      obtain ⟨known, hknown, hpre, hpost⟩ := h.calls _ (List.mem_of_getElem? hi)
      have hset := h.set_call (i := i) (p := k (.error .cancelled))
        ⟨known, hknown, hpost _ _ ⟨subset_rfl, by cases c with
          | store c => cases c <;> trivial
          | _ => trivial⟩⟩
      refine ⟨⟨hset.logs, hset.calls, fun c' hc' => ?_⟩, Db.Extends.refl _⟩
      obtain hc' | hc' := List.mem_append.mp hc'
      · exact h.late c' hc'
      · cases c with
        | store c =>
          obtain rfl := List.mem_singleton.mp hc'
          exact ⟨known, hknown, hpre⟩
        | _ => cases hc'
    · exact ⟨h, Db.Extends.refl _⟩
  | late n =>
    rw [Writers.step]
    split
    · rename_i c hn
      obtain ⟨known, hknown, hover⟩ := h.late c (List.mem_of_getElem? hn)
      obtain ⟨hlogs, hext, -⟩ := exec_written h.logs hknown c hover
      have hdb := h.of_db hlogs hext
      exact ⟨⟨hdb.logs, hdb.calls, fun c' hc' => hdb.late c' (List.mem_of_mem_eraseIdx hc')⟩, hext⟩
    · exact ⟨h, Db.Extends.refl _⟩

theorem Inv.foldl (h : w.Inv) (actions : List WriterAction) :
    (actions.foldl (Writers.step config) w).Inv ∧
      w.db.Extends (actions.foldl (Writers.step config) w).db := by
  induction actions generalizing w with
  | nil => exact ⟨h, Db.Extends.refl _⟩
  | cons a actions ih =>
    obtain ⟨hinv, hext⟩ : (w.step config a).Inv ∧ w.db.Extends (w.step config a).db := h.step a
    obtain ⟨hinv', hext'⟩ := ih hinv
    exact ⟨hinv', hext.trans hext'⟩

theorem inv_run (actions : List WriterAction) : (run config actions).Inv :=
  (Inv.foldl ⟨Db.logged_empty, by simp, by simp⟩ actions).1

theorem run_extends (actions later : List WriterAction) :
    (run config actions).db.Extends (run config (actions ++ later)).db := by
  rw [run, run, List.foldl_append]
  exact ((inv_run actions).foldl later).2

end Writers

/-! ## What the chain says -/

namespace Writes

variable {s s' : JobSnapshot}

theorem live (h : Writes s s') : s.state.terminal = false := by
  cases h with
  | transition site hadm => exact hadm.1
  | cancel h => exact h

/-- The fields no write changes. -/
theorem same (h : Writes s s') : s'.submittedSpecDigest = s.submittedSpecDigest ∧ s'.kind = s.kind ∧
    s'.submittedAt = s.submittedAt ∧ s'.retryOf = s.retryOf := by
  cases h <;> exact ⟨rfl, rfl, rfl, rfl⟩

theorem same_of_chain (h : Relation.ReflTransGen Writes s s') :
    s'.submittedSpecDigest = s.submittedSpecDigest ∧ s'.kind = s.kind ∧
      s'.submittedAt = s.submittedAt ∧ s'.retryOf = s.retryOf := by
  induction h with
  | refl => exact ⟨rfl, rfl, rfl, rfl⟩
  | tail _ hw ih =>
    obtain ⟨hd, hk, hs, hr⟩ := hw.same
    exact ⟨hd.trans ih.1, hk.trans ih.2.1, hs.trans ih.2.2.1, hr.trans ih.2.2.2⟩

/-- Nothing is written over a terminal snapshot. -/
theorem eq_of_chain (h : Relation.ReflTransGen Writes s s') (hterm : s.state.terminal = true) :
    s' = s := by
  obtain rfl | ⟨x, hx, -⟩ := Relation.ReflTransGen.cases_head h
  · rfl
  · rw [hx.live] at hterm
    cases hterm

/-- No write loses the cancel flag, and none over a flagged snapshot succeeds. -/
theorem cancelRequested (h : Writes s s') (hs : s.cancelRequested = true) :
    s'.cancelRequested = true ∧ s'.state ≠ .succeeded := by
  cases h with
  | transition site hadm => exact ⟨hs, fun hstate => hadm.2.2 ⟨hstate, hs⟩⟩
  | cancel hlive =>
    refine ⟨rfl, fun hstate => ?_⟩
    rw [show s.state = .succeeded from hstate] at hlive
    cases hlive

theorem cancelRequested_of_chain (h : Relation.ReflTransGen Writes s s')
    (hs : s.cancelRequested = true) : s'.cancelRequested = true := by
  induction h with
  | refl => exact hs
  | tail _ hw ih => exact (hw.cancelRequested ih).1

/-- Once an execution has begun, it has begun for good. -/
theorem ran (h : Writes s s') (hs : s.state.recoverable = false) :
    s'.state.recoverable = false := by
  cases h with
  | cancel => exact hs
  | transition site hadm =>
    have hexpects := hadm.2.1
    cases site with
    | validationStarted =>
      obtain hstate : s.state = .accepted := by
        simpa [CallSite.request, TransitionRequest.expects] using hexpects
      simp [hstate, JobState.recoverable] at hs
    | validationSucceeded =>
      obtain hstate : s.state = .validating := by
        simpa [CallSite.request, TransitionRequest.expects] using hexpects
      simp [hstate, JobState.recoverable] at hs
    | phase stage => cases stage <;> rfl
    | _ => rfl

theorem ran_of_chain (h : Relation.ReflTransGen Writes s s')
    (hs : s.state.recoverable = false) : s'.state.recoverable = false := by
  induction h with
  | refl => exact hs
  | tail _ hw ih => exact hw.ran ih

end Writes

/-- The result, the problem and the finish time of a snapshot are there exactly when its state says
so. -/
structure OutcomeMatches (s : JobSnapshot) : Prop where
  result : s.result.isSome ↔ s.state = .succeeded
  problem : s.problem.isSome ↔ s.state = .failed
  finishedAt : s.finishedAt.isSome ↔ s.state.terminal = true

theorem Accepted.outcome {s : JobSnapshot} (h : Accepted s) : OutcomeMatches s := by
  obtain ⟨job, kind, digest, retryOf, now, rfl⟩ := h
  constructor <;> simp [acceptedSnapshot, JobState.terminal]

theorem OutcomeMatches.write {s s' : JobSnapshot} (h : OutcomeMatches s) (hw : Writes s s') :
    OutcomeMatches s' := by
  have hlive := hw.live
  have hresult : s.result = none := by
    rw [← Option.not_isSome_iff_eq_none, h.result]
    rintro hs
    rw [hs] at hlive
    cases hlive
  have hproblem : s.problem = none := by
    rw [← Option.not_isSome_iff_eq_none, h.problem]
    rintro hs
    rw [hs] at hlive
    cases hlive
  have hfinished : s.finishedAt = none := by
    rw [← Option.not_isSome_iff_eq_none, h.finishedAt, hlive]
    decide
  cases hw with
  | cancel => exact ⟨h.result, h.problem, h.finishedAt⟩
  | transition site =>
    cases site with
    | phase stage =>
      cases stage <;> constructor <;>
        simp [CallSite.request, TransitionRequest.apply, Stage.state, JobState.terminal, hresult,
          hproblem, hfinished]
    | _ =>
      constructor <;>
        simp [CallSite.request, TransitionRequest.apply, JobState.terminal, hresult, hproblem,
          hfinished]

/-- The event log of a job. -/
structure EventLogWellFormed (db : Db) (row : JobRow) : Prop where
  revisions : ((db.events.rows.filter fun e => e.jobId = row.jobId).map JobEvent.revision).Perm
    (List.range' 1 row.revision)
  numbered : ∀ e ∈ db.events.rows, e.jobId = row.jobId → e.snapshot.revision = e.revision
  last : ∃ e ∈ db.events.rows, e.jobId = row.jobId ∧ e.revision = row.revision ∧
    e.snapshot = row.snapshot ∧ e.snapshot.state = row.state
  terminal : ∀ e ∈ db.events.rows, e.jobId = row.jobId → e.snapshot.state.terminal = true →
    e.revision = row.revision
  outcome : OutcomeMatches row.snapshot
  same : ∀ e ∈ db.events.rows, e.jobId = row.jobId →
    e.snapshot.submittedSpecDigest = row.snapshot.submittedSpecDigest ∧
    e.snapshot.kind = row.snapshot.kind ∧ e.snapshot.submittedAt = row.snapshot.submittedAt ∧
    e.snapshot.retryOf = row.snapshot.retryOf

/-- The log of every job is well formed, and every event is of a job. -/
structure EventLogsWellFormed (db : Db) : Prop where
  jobs : ∀ row ∈ db.jobs.rows, EventLogWellFormed db row
  events : ∀ e ∈ db.events.rows, ∃ row ∈ db.jobs.rows, row.jobId = e.jobId

/-- No event is appended to the log of a terminal job. -/
def TerminalLogsKept (db db' : Db) : Prop :=
  ∀ row ∈ db.jobs.rows, row.state.terminal = true → ∀ r, db'.logOf row.jobId r = db.logOf row.jobId r

/-- A cancel request wins over every transition, and loses to a terminal state. -/
structure CancelWins (db : Db) : Prop where
  sticks : ∀ j r r' s s', db.logOf j r = some s → db.logOf j r' = some s' → r ≤ r' →
    s.cancelRequested = true → s'.cancelRequested = true
  notSucceeded : ∀ j r r' s s', db.logOf j r = some s → db.logOf j r' = some s' → r < r' →
    s.cancelRequested = true → s'.state ≠ .succeeded
  terminal : ∀ row ∈ db.jobs.rows, row.state.terminal = true → ∀ requestId principal reason,
    (db.requestCancel row.jobId requestId principal reason).2 = db

namespace WrittenLogs

variable {db db' : Db}

theorem logOf_event (e : JobEvent) (he : e ∈ db.events.rows) :
    db.logOf e.jobId e.revision = some e.snapshot := by
  rw [Db.logOf, db.events.mem_rows.mp he]
  rfl

theorem logOf_isSome_iff {j : JobId} {r : Nat} :
    (db.logOf j r).isSome ↔ ∃ e ∈ db.events.rows, e.jobId = j ∧ e.revision = r := by
  rw [Db.logOf, Option.isSome_map, Option.isSome_iff_exists]
  simp only [Table.get_eq_some, Prod.mk.injEq]

theorem revisions_perm (h : WrittenLogs db) {row : JobRow} (hrow : row ∈ db.jobs.rows) :
    ((db.events.rows.filter fun e => e.jobId = row.jobId).map JobEvent.revision).Perm
      (List.range' 1 row.revision) := by
  have hnodup : ((db.events.rows.filter fun e => e.jobId = row.jobId).map
      JobEvent.revision).Nodup := by
    refine (db.events.nodup.of_map.filter _).map_on fun e he e' he' hr => ?_
    obtain ⟨he, hj⟩ := List.mem_filter.mp he
    obtain ⟨he', hj'⟩ := List.mem_filter.mp he'
    have hjobs : e.jobId = e'.jobId := (of_decide_eq_true hj).trans (of_decide_eq_true hj').symm
    exact List.inj_on_of_nodup_map db.events.nodup he he' (Prod.ext hjobs hr)
  refine (List.perm_ext_iff_of_nodup hnodup List.nodup_range').mpr fun r => ?_
  have hmem : r ∈ (db.events.rows.filter fun e => e.jobId = row.jobId).map JobEvent.revision ↔
      (db.logOf row.jobId r).isSome := by
    simp only [logOf_isSome_iff, List.mem_map, List.mem_filter, decide_eq_true_eq, and_assoc]
  rw [hmem, h.revisions, List.mem_range'_1]
  simp only [db.jobs.mem_rows.mp hrow, Option.some.injEq, exists_eq_left']
  omega

theorem wellFormed_row (h : WrittenLogs db) {row : JobRow} (hrow : row ∈ db.jobs.rows) :
    EventLogWellFormed db row := by
  have hget := db.jobs.mem_rows.mp hrow
  obtain ⟨hstate, hrev, hjob, hpos⟩ := h.row _ row hget
  have hlast := h.last _ row hget
  -- every event of the job leads to the snapshot in the row
  have hchain : ∀ e ∈ db.events.rows, e.jobId = row.jobId →
      Relation.ReflTransGen Writes e.snapshot row.snapshot := by
    intro e he hj
    exact h.chain_row (hj ▸ logOf_event e he) hget
  refine ⟨h.revisions_perm hrow, fun e he _ => (h.event _ _ _ (logOf_event e he)).2, ?_, ?_, ?_, ?_⟩
  · obtain ⟨e, he, hsnap⟩ := Option.map_eq_some_iff.mp hlast
    obtain ⟨hmem, hkey⟩ := db.events.get_eq_some.mp he
    obtain ⟨hej, her⟩ := Prod.mk.inj hkey
    exact ⟨e, hmem, hej, her, hsnap, by rw [hsnap, hstate]⟩
  · intro e he hj hterm
    have heq := Writes.eq_of_chain (hchain e he hj) hterm
    rw [hrev, heq, (h.event _ _ _ (logOf_event e he)).2]
  · exact h.forall_events (fun _ => Accepted.outcome) (fun _ _ => OutcomeMatches.write) hlast
  · intro e he hj
    obtain ⟨hd, hk, hs, hr⟩ := Writes.same_of_chain (hchain e he hj)
    exact ⟨hd.symm, hk.symm, hs.symm, hr.symm⟩

theorem wellFormed (h : WrittenLogs db) : EventLogsWellFormed db where
  jobs _ hrow := h.wellFormed_row hrow
  events e he := by
    obtain ⟨row, hrow, -⟩ := h.row_of_log (logOf_event e he)
    obtain ⟨hmem, hj⟩ := db.jobs.get_eq_some.mp hrow
    exact ⟨row, hmem, hj⟩

theorem terminalLogsKept (h : WrittenLogs db) (h' : WrittenLogs db') (hext : db.Extends db') :
    TerminalLogsKept db db' := by
  intro row hrow hterm r
  have hget := db.jobs.mem_rows.mp hrow
  obtain ⟨hstate, hrev, -, -⟩ := h.row _ row hget
  cases hlog : db.logOf row.jobId r with
  | some s => exact hext _ _ _ hlog
  | none =>
    by_contra hne
    obtain ⟨s', hs'⟩ := Option.ne_none_iff_exists'.mp hne
    -- the later event is not among the first `row.revision`, so it follows the terminal one
    obtain ⟨row', hrow', hpos, -⟩ := h'.row_of_log hs'
    have hlt : row.revision < r := by
      by_contra hle
      have hsome := (h.revisions _ r).mpr ⟨row, hget, hpos, by omega⟩
      rw [hlog] at hsome
      cases hsome
    have hchain := h'.chain (hext _ _ _ (h.last _ row hget)) hs' hlt.le
    have heq := Writes.eq_of_chain hchain (hstate ▸ hterm)
    have hnum := (h'.event _ _ _ hs').2
    rw [heq, ← hrev] at hnum
    omega

theorem cancelWins (h : WrittenLogs db) : CancelWins db where
  sticks j r r' s s' hs hs' hle hflag := Writes.cancelRequested_of_chain (h.chain hs hs' hle) hflag
  notSucceeded j r r' s s' hs hs' hlt hflag := by
    obtain ⟨r₀, rfl⟩ : ∃ r₀, r' = r₀ + 1 := ⟨r' - 1, by omega⟩
    obtain ⟨row, hrow, hpos, -⟩ := h.row_of_log hs
    obtain ⟨row', hrow', -, hle'⟩ := h.row_of_log hs'
    obtain ⟨s₀, hs₀⟩ := Option.isSome_iff_exists.mp
      ((h.revisions j r₀).mpr ⟨row', hrow', by omega, by omega⟩)
    have hflag₀ := Writes.cancelRequested_of_chain (h.chain hs hs₀ (by omega)) hflag
    exact ((h.next j r₀ s₀ s' hs₀ hs').cancelRequested hflag₀).2
  terminal row hrow hterm requestId principal reason := by
    have hget := db.jobs.mem_rows.mp hrow
    rw [Db.requestCancel_of_terminal hget ((h.row _ row hget).1 ▸ hterm)]

end WrittenLogs

/-- Whatever the writers do, every event log is well formed, and none grows after its job is
terminal. -/
theorem eventLogs_wellFormed (config : AgentConfig) (actions later : List WriterAction) :
    EventLogsWellFormed (Writers.run config actions).db ∧
      TerminalLogsKept (Writers.run config actions).db (Writers.run config (actions ++ later)).db :=
  have h : WrittenLogs (Writers.run config actions).db := (Writers.inv_run actions).logs
  ⟨WrittenLogs.wellFormed h, WrittenLogs.terminalLogsKept h (Writers.inv_run _).logs
    (Writers.run_extends actions later)⟩

/-- Whatever the writers do, a cancel request wins. -/
theorem cancel_wins (config : AgentConfig) (actions : List WriterAction) :
    CancelWins (Writers.run config actions).db :=
  WrittenLogs.cancelWins (Writers.inv_run actions).logs

end TrexCli
