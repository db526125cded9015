import TrexCli.Jobs.EventLogs

/-!
# Observing a job

`observe` is a generator: the stored snapshots after a cursor, read with `events_after`, and when
there are none, the current snapshot to decide whether the job is over. The two reads are two
transactions, and the other writers run between them and between any two deliveries.

The snapshots delivered so far are always a run of consecutive revisions (`Follows`), and everything
the generator holds continues it (`Observation.Inv`).
-/

namespace TrexCli

namespace Db

/-- `_events_after_sync` -/
def eventsAfter (db : Db) (job : JobId) (revision : Int) : Except Exc (List JobSnapshot) :=
  match db.jobs.get job with
  | none => .error (.notFound ("Job " ++ toString job))
  | some _ => .ok (((db.events.rows.filter fun e => e.jobId = job ∧ revision < e.revision).insertionSort
      fun a b => a.revision ≤ b.revision).map JobEvent.snapshot)

/-- The snapshots are those of the revisions after `n`, one by one. -/
def Follows (db : Db) (job : JobId) : Nat → List JobSnapshot → Prop
  | _, [] => True
  | n, s :: rest => db.logOf job (n + 1) = some s ∧ Follows db job (n + 1) rest

end Db

/-- Where `observe` is suspended. -/
inductive Observer where
  /-- at the first `get_snapshot`, without a cursor -/
  | read
  /-- at `events_after` -/
  | fetch (cursor : Int)
  /-- before the `yield` of `s`, with the rest of the list -/
  | deliver (s : JobSnapshot) (rest : List JobSnapshot)
  /-- at the `get_snapshot` that decides whether the job is over -/
  | check (cursor : Int)
  /-- at `self._changed.wait()` -/
  | wait (cursor : Int)
  | returned
  | raised (e : Exc)

namespace Observer

/-- A call of `observe`. -/
def start : Option Int → Observer
  | none => read
  | some revision => fetch revision

/-- The `for` loop over the events. -/
def loop (cursor : Int) : List JobSnapshot → Observer
  | [] => fetch cursor
  | s :: rest => deliver s rest

/-- What is yielded up to the next suspension, and where that is. -/
def step (db : Db) (job : JobId) : Observer → List JobSnapshot × Observer
  | read =>
    match db.getSnapshot job with
    | .error e => ([], raised e)
    | .ok current =>
      ([current], if current.state.terminal then returned else fetch current.revision)
  | fetch cursor =>
    match db.eventsAfter job cursor with
    | .error e => ([], raised e)
    | .ok [] => ([], check cursor)
    | .ok (s :: rest) => ([], deliver s rest)
  | deliver s rest => ([s], if s.state.terminal then returned else loop s.revision rest)
  | check cursor =>
    match db.getSnapshot job with
    | .error e => ([], raised e)
    | .ok current =>
      ([], if current.state.terminal && current.revision ≤ cursor then returned else wait cursor)
  | wait cursor => ([], fetch cursor)
  | returned => ([], returned)
  | raised e => ([], raised e)

end Observer

/-- The writers, a consumer of `observe`, and what it has received. -/
structure Observation where
  writers : Writers
  observer : Observer
  received : List JobSnapshot

inductive ObservationAction where
  | writer (a : WriterAction)
  /-- The generator runs to its next suspension. -/
  | observe
  /-- The consumer drops the generator and calls `observe` again with the last revision it has. -/
  | reconnect

def ObservationAction.isObserve : ObservationAction → Bool
  | observe => true
  | _ => false

namespace Observation

variable (config : AgentConfig) (job : JobId) (after : Option Int)

def step (o : Observation) : ObservationAction → Observation
  | .writer a => { o with writers := o.writers.step config a }
  | .observe =>
    let (yielded, observer) := o.observer.step o.writers.db job
    { o with observer, received := o.received ++ yielded }
  | .reconnect =>
    let last := o.received.getLast?.map fun s => (s.revision : Int)
    { o with observer := .start (last.or after) }

/-- The state after `before`, a call of `observe`, and then `actions`. -/
def run (before : List WriterAction) (actions : List ObservationAction) : Observation :=
  actions.foldl (step config job after) ⟨Writers.run config before, .start after, []⟩

end Observation

namespace Observation

variable {config : AgentConfig} {job : JobId} {after : Option Int} (o : Observation)

@[simp] theorem step_observe_received : (o.step config job after .observe).received =
    o.received ++ (o.observer.step o.writers.db job).1 := rfl

@[simp] theorem step_observe_observer : (o.step config job after .observe).observer =
    (o.observer.step o.writers.db job).2 := rfl

end Observation

/-! ### What the two reads return -/

namespace Db.Follows

variable {db db' : Db} {job : JobId} {n : Nat} {xs ys : List JobSnapshot}

theorem append_iff :
    db.Follows job n (xs ++ ys) ↔ db.Follows job n xs ∧ db.Follows job (n + xs.length) ys := by
  induction xs generalizing n with
  | nil => simp [Follows]
  | cons s xs ih =>
    rw [List.cons_append, Follows, Follows, ih, List.length_cons, and_assoc,
      Nat.add_assoc n 1, Nat.add_comm 1]

theorem mono (h : db.Follows job n xs) (hext : db.Extends db') : db'.Follows job n xs := by
  induction xs generalizing n with
  | nil => trivial
  | cons s xs ih => exact ⟨hext _ _ _ h.1, ih h.2⟩

/-- The snapshot at a position is that of the revision. -/
theorem getElem (h : db.Follows job n xs) {i : Nat} {s : JobSnapshot} (hi : xs[i]? = some s) :
    db.logOf job (n + 1 + i) = some s := by
  induction xs generalizing n i with
  | nil => simp at hi
  | cons x xs ih =>
    cases i with
    | zero =>
      obtain rfl := Option.some.inj hi
      exact h.1
    | succ i =>
      have hnext := ih h.2 (i := i) (by simpa using hi)
      rwa [show n + 1 + (i + 1) = n + 1 + 1 + i by omega]

/-- What follows is determined by its length. -/
theorem eq_of_length (hx : db.Follows job n xs) (hy : db.Follows job n ys)
    (hlen : xs.length = ys.length) : xs = ys := by
  refine List.ext_getElem? fun i => ?_
  cases hi : xs[i]? with
  | none =>
    rw [List.getElem?_eq_none_iff] at hi
    exact (List.getElem?_eq_none (by omega)).symm
  | some s =>
    obtain ⟨hlt, -⟩ := List.getElem?_eq_some_iff.mp hi
    have hin : i < ys.length := by omega
    have hj : ys[i]? = some ys[i] := List.getElem?_eq_getElem hin
    have heq := (hx.getElem hi).symm.trans (hy.getElem hj)
    rw [hj, heq]

end Db.Follows

/-- Events that are in the store, with consecutive revisions, are what follows. -/
theorem Db.follows_of_revisions {db : Db} {job : JobId} {rows : List JobEvent} {n : Nat}
    (hmem : ∀ e ∈ rows, e ∈ db.events.rows ∧ e.jobId = job)
    (hrev : rows.map JobEvent.revision = List.range' (n + 1) rows.length) :
    db.Follows job n (rows.map JobEvent.snapshot) := by
  induction rows generalizing n with
  | nil => trivial
  | cons e rows ih =>
    rw [List.map_cons, List.length_cons, List.range'_succ] at hrev
    obtain ⟨hhead, htail⟩ := List.cons.inj hrev
    obtain ⟨he, hj⟩ := hmem e (List.mem_cons_self)
    refine ⟨?_, ih (fun e' he' => hmem e' (List.mem_cons_of_mem e he')) htail⟩
    rw [← hhead, ← hj]
    exact WrittenLogs.logOf_event e he

namespace WrittenLogs

variable {db : Db} {job : JobId} {row : JobRow}

/-- `events_after` returns every stored snapshot after the cursor, in order. -/
theorem eventsAfter_eq (h : WrittenLogs db) (hrow : db.jobs.get job = some row) (cursor : Int) :
    ∃ events, db.eventsAfter job cursor = .ok events ∧ db.Follows job cursor.toNat events ∧
      events.length = row.revision - cursor.toNat := by
  obtain ⟨hmem, rfl⟩ := db.jobs.get_eq_some.mp hrow
  let rows := db.events.rows.filter fun e => e.jobId = row.jobId ∧ cursor < e.revision
  have hnodup : (rows.map JobEvent.revision).Nodup := by
    refine ((h.revisions_perm hmem).nodup_iff.mpr List.nodup_range').sublist (List.Sublist.map _ ?_)
    exact List.monotone_filter_right _ fun e he => by
      simp only [decide_eq_true_eq] at he ⊢
      exact he.1
  have hperm : (rows.map JobEvent.revision).Perm
      (List.range' (cursor.toNat + 1) (row.revision - cursor.toNat)) := by
    refine (List.perm_ext_iff_of_nodup hnodup List.nodup_range').mpr fun r => ?_
    have hlog := h.revisions row.jobId r
    simp only [logOf_isSome_iff, hrow, Option.some.injEq, exists_eq_left'] at hlog
    have hr : r ∈ rows.map JobEvent.revision ↔ cursor < (r : Int) ∧
        ∃ e ∈ db.events.rows, e.jobId = row.jobId ∧ e.revision = r := by
      simp only [rows, List.mem_map, List.mem_filter, decide_eq_true_eq]
      constructor
      · rintro ⟨e, ⟨he, hj, hc⟩, rfl⟩
        exact ⟨hc, e, he, hj, rfl⟩
      · rintro ⟨hc, e, he, hj, rfl⟩
        exact ⟨e, ⟨he, hj, hc⟩, rfl⟩
    rw [hr, hlog, List.mem_range'_1]
    omega
  have hsorted : (rows.insertionSort fun a b => a.revision ≤ b.revision).map JobEvent.revision =
      List.range' (cursor.toNat + 1) (row.revision - cursor.toNat) := by
    rw [List.map_insertionSort _ (· ≤ ·) _ _ fun _ _ _ _ => Iff.rfl]
    exact ((List.perm_insertionSort _ _).trans hperm).eq_of_sortedLE List.sortedLE_insertionSort
      (List.pairwise_le_range' 1).sortedLE
  have hlen := congrArg List.length hsorted
  rw [List.length_map, List.length_range'] at hlen
  refine ⟨_, by rw [Db.eventsAfter, hrow], ?_, by rw [List.length_map, hlen]⟩
  refine Db.follows_of_revisions (fun e he => ?_) (by rw [hsorted, hlen])
  obtain ⟨he, hp⟩ := List.mem_filter.mp ((List.mem_insertionSort _).mp he)
  exact ⟨he, (of_decide_eq_true hp).1⟩

/-- A terminal snapshot in the log is the one in the row. -/
theorem row_of_terminal (h : WrittenLogs db) (hrow : db.jobs.get job = some row) {r : Nat}
    {s : JobSnapshot} (hs : db.logOf job r = some s) (hterm : s.state.terminal = true) :
    row.snapshot = s ∧ row.revision = r ∧ row.state.terminal = true := by
  have heq := Writes.eq_of_chain (h.chain_row hs hrow) hterm
  obtain ⟨hstate, hrev, -, -⟩ := h.row job row hrow
  rw [heq] at hstate hrev
  exact ⟨heq, by rw [hrev, (h.event _ _ _ hs).2], by rw [hstate, hterm]⟩

/-- The row of a job keeps to the log: later it is there, not older, and the same if terminal. -/
theorem row_later {db' : Db} (h : WrittenLogs db) (h' : WrittenLogs db') (hext : db.Extends db')
    (hrow : db.jobs.get job = some row) :
    ∃ row', db'.jobs.get job = some row' ∧ row.revision ≤ row'.revision ∧
      (row.state.terminal = true → row'.revision = row.revision ∧ row'.state.terminal = true) := by
  have hlast := hext _ _ _ (h.last job row hrow)
  obtain ⟨row', hrow', -, hle⟩ := h'.row_of_log hlast
  refine ⟨row', hrow', hle, fun hterm => ?_⟩
  rw [(h.row job row hrow).1] at hterm
  exact (h'.row_of_terminal hrow' hlast hterm).2

end WrittenLogs

/-! ### The invariant -/

namespace Observation

/-- The revision after which the received snapshots start. -/
def base (after : Option Int) : List JobSnapshot → Nat
  | [] => (after.getD 0).toNat
  | s :: _ => (after.getD (s.revision - 1)).toNat

/-- The revision up to which the consumer has the log. -/
def position (after : Option Int) (received : List JobSnapshot) : Nat :=
  base after received + received.length

/-- The first snapshot has been read, where no revision was given. -/
def Opened (after : Option Int) (received : List JobSnapshot) : Prop :=
  after = none → received ≠ []

theorem Opened.base_append {after : Option Int} {received : List JobSnapshot}
    (h : Opened after received) (ys : List JobSnapshot) :
    base after (received ++ ys) = base after received := by
  cases received with
  | nil =>
    cases after with
    | none => exact absurd rfl (h rfl)
    | some r => cases ys <;> rfl
  | cons s xs => rfl

theorem Opened.position_append {after : Option Int} {received : List JobSnapshot}
    (h : Opened after received) (ys : List JobSnapshot) :
    position after (received ++ ys) = position after received + ys.length := by
  rw [position, h.base_append, List.length_append, ← Nat.add_assoc]
  rfl

/-- What the generator holds continues what has been received. -/
def Ready (db : Db) (job : JobId) (after : Option Int) (received : List JobSnapshot) :
    Observer → Prop
  | .read => after = none ∧ received = []
  | .fetch cursor | .check cursor | .wait cursor =>
    Opened after received ∧ cursor.toNat = position after received
  | .deliver s rest =>
    Opened after received ∧ db.Follows job (position after received) (s :: rest)
  | .returned => Opened after received ∧ ∃ row, db.jobs.get job = some row ∧
    row.state.terminal = true ∧ row.revision ≤ position after received
  | .raised _ => False

structure Inv (job : JobId) (after : Option Int) (o : Observation) : Prop where
  writers : o.writers.Inv
  row : ∃ row, o.writers.db.jobs.get job = some row
  follows : o.writers.db.Follows job (base after o.received) o.received
  ready : Ready o.writers.db job after o.received o.observer

variable {config : AgentConfig} {job : JobId} {after : Option Int} {o : Observation}

theorem Ready.later {db db' : Db} {received : List JobSnapshot} {observer : Observer}
    (hready : Ready db job after received observer) (h : WrittenLogs db) (h' : WrittenLogs db')
    (hext : db.Extends db') : Ready db' job after received observer := by
  cases observer with
  | deliver s rest => exact ⟨hready.1, hready.2.mono hext⟩
  | returned =>
    obtain ⟨hopened, row, hrow, hterm, hle⟩ := hready
    obtain ⟨row', hrow', -, hkept⟩ := WrittenLogs.row_later h h' hext hrow
    obtain ⟨hrev, hterm'⟩ := hkept hterm
    exact ⟨hopened, row', hrow', hterm', by omega⟩
  | _ => exact hready

/-- The generator's next suspension is ready again. -/
theorem ready_step {db : Db} {received : List JobSnapshot} {observer : Observer} {row : JobRow}
    (h : WrittenLogs db) (hrow : db.jobs.get job = some row)
    (hfollows : db.Follows job (base after received) received)
    (hready : Ready db job after received observer) :
    db.Follows job (base after (received ++ (observer.step db job).1))
        (received ++ (observer.step db job).1) ∧
      Ready db job after (received ++ (observer.step db job).1) (observer.step db job).2 := by
  obtain ⟨hstate, hrev, hjob, hpos⟩ := h.row job row hrow
  have hsnap : db.getSnapshot job = .ok row.snapshot := by
    rw [Db.getSnapshot, Db.jobRow, hrow]
    rfl
  cases observer with
  | read =>
    obtain ⟨rfl, rfl⟩ := hready
    have hbase : base none [row.snapshot] + 1 = row.revision := by
      simp only [base, Option.getD_none, ← hrev]
      omega
    have hposition : position none [row.snapshot] = row.revision := by
      rw [position, List.length_singleton, hbase]
    have hlast := h.last job row hrow
    simp only [Observer.step, hsnap, List.nil_append]
    refine ⟨⟨by rw [hbase, hlast], trivial⟩, ?_⟩
    split
    · rename_i hterm
      exact ⟨by simp [Opened], row, hrow, by rw [hstate, hterm], hposition.ge⟩
    · exact ⟨by simp [Opened], by rw [hposition, hrev]; rfl⟩
  | fetch cursor =>
    obtain ⟨hopened, hcursor⟩ := hready
    obtain ⟨events, hevents, hnext, -⟩ := WrittenLogs.eventsAfter_eq h hrow cursor
    rw [hcursor] at hnext
    cases events with
    | nil =>
      simp only [Observer.step, hevents, List.append_nil]
      exact ⟨hfollows, hopened, hcursor⟩
    | cons s rest =>
      simp only [Observer.step, hevents, List.append_nil]
      exact ⟨hfollows, hopened, hnext⟩
  | deliver s rest =>
    obtain ⟨hopened, hs, hrest⟩ := hready
    have hposition := hopened.position_append [s]
    have hopened' : Opened after (received ++ [s]) := fun _ => by simp
    simp only [Observer.step]
    refine ⟨?_, ?_⟩
    · rw [hopened.base_append, Db.Follows.append_iff]
      exact ⟨hfollows, hs, trivial⟩
    · split
      · rename_i hterm
        obtain ⟨-, hrow', hterm'⟩ := WrittenLogs.row_of_terminal h hrow hs hterm
        exact ⟨hopened', row, hrow, hterm', by rw [hposition, hrow', List.length_singleton]⟩
      · cases rest with
        | nil =>
          refine ⟨hopened', ?_⟩
          rw [hposition, (h.event _ _ _ hs).2]
          rfl
        | cons s' rest => exact ⟨hopened', by rw [hposition]; exact hrest⟩
  | check cursor =>
    obtain ⟨hopened, hcursor⟩ := hready
    simp only [Observer.step, hsnap, List.append_nil]
    refine ⟨hfollows, ?_⟩
    split
    · rename_i hcond
      rw [Bool.and_eq_true, decide_eq_true_eq] at hcond
      exact ⟨hopened, row, hrow, by rw [hstate, hcond.1], by omega⟩
    · exact ⟨hopened, hcursor⟩
  | wait cursor =>
    simp only [Observer.step, List.append_nil]
    exact ⟨hfollows, hready⟩
  | returned =>
    simp only [Observer.step, List.append_nil]
    exact ⟨hfollows, hready⟩
  | raised e => exact hready.elim

theorem start_ready {db : Db} (received : List JobSnapshot) (h : WrittenLogs db)
    (hfollows : db.Follows job (base after received) received) :
    Ready db job after received
      (.start ((received.getLast?.map fun s => (s.revision : Int)).or after)) := by
  cases hlast : received.getLast? with
  | none =>
    obtain rfl := List.getLast?_eq_none_iff.mp hlast
    cases after with
    | none => exact ⟨rfl, rfl⟩
    | some r => exact ⟨nofun, rfl⟩
  | some s =>
    have hne : received ≠ [] := by
      rintro rfl
      simp at hlast
    refine ⟨fun _ => hne, ?_⟩
    have hlen : 0 < received.length := List.length_pos_iff.mpr hne
    have hs := hfollows.getElem (i := received.length - 1) (by rw [← List.getLast?_eq_getElem?, hlast])
    have hrev := (h.event _ _ _ hs).2
    rw [position]
    show ((s.revision : Int)).toNat = _
    omega

variable (config) in
theorem Inv.step (h : o.Inv job after) (a : ObservationAction) :
    (o.step config job after a).Inv job after := by
  obtain ⟨row, hrow⟩ := h.row
  cases a with
  | writer a =>
    obtain ⟨hinv, hext⟩ : (o.writers.step config a).Inv ∧
      o.writers.db.Extends (o.writers.step config a).db := h.writers.step a
    obtain ⟨row', hrow', -⟩ := WrittenLogs.row_later h.writers.logs hinv.logs hext hrow
    exact ⟨hinv, ⟨row', hrow'⟩, h.follows.mono hext,
      h.ready.later h.writers.logs hinv.logs hext⟩
  | observe =>
    obtain ⟨hfollows, hready⟩ := ready_step h.writers.logs hrow h.follows h.ready
    exact ⟨h.writers, h.row, hfollows, hready⟩
  | reconnect => exact ⟨h.writers, h.row, h.follows, start_ready _ h.writers.logs h.follows⟩

theorem Inv.foldl (h : o.Inv job after) (actions : List ObservationAction) :
    (actions.foldl (Observation.step config job after) o).Inv job after := by
  induction actions generalizing o with
  | nil => exact h
  | cons a actions ih => exact ih (h.step _ a)

variable (after) in
theorem inv_run {before : List WriterAction} {row : JobRow}
    (hrow : (Writers.run config before).db.jobs.get job = some row)
    (actions : List ObservationAction) : (run config job after before actions).Inv job after := by
  have hinv : (Writers.run config before).Inv := Writers.inv_run before
  refine Inv.foldl ⟨hinv, ⟨row, hrow⟩, by exact trivial, ?_⟩ actions
  exact start_ready [] hinv.logs trivial

theorem run_concat (before : List WriterAction) (actions : List ObservationAction)
    (a : ObservationAction) : run config job after before (actions ++ [a]) =
      (run config job after before actions).step config job after a := by
  rw [run, List.foldl_append]
  rfl

/-- Without a revision, the first snapshot is the current one when it is read. -/
theorem first_current {before : List WriterAction} {row : JobRow}
    (hrow : (Writers.run config before).db.jobs.get job = some row)
    (actions : List ObservationAction) {s : JobSnapshot}
    (hs : (run config job none before actions).received.head? = some s) :
    ∃ n ≤ actions.length, ∃ row,
      (run config job none before (actions.take n)).writers.db.jobs.get job = some row ∧
        row.snapshot = s := by
  induction actions using List.reverseRecOn with
  | nil => simp [run] at hs
  | append_singleton actions a ih =>
    have hinv := inv_run none hrow actions
    rw [run_concat] at hs
    have hearlier : (run config job none before actions).received.head? = some s →
        ∃ n ≤ (actions ++ [a]).length, ∃ row,
          (run config job none before ((actions ++ [a]).take n)).writers.db.jobs.get job = some row ∧
            row.snapshot = s := by
      intro hs
      obtain ⟨n, hn, hrow⟩ := ih hs
      refine ⟨n, by rw [List.length_append]; omega, ?_⟩
      rwa [List.take_append_of_le_length hn]
    generalize ho : run config job none before actions = o at hs hinv hearlier
    cases a with
    | writer a => exact hearlier hs
    | reconnect => exact hearlier hs
    | observe =>
      by_cases hne : o.received = []
      · -- the only state before the first delivery
        have hread : o.observer = .read := by
          have hready := hinv.ready
          cases hobs : o.observer with
          | read => rfl
          | raised e =>
            rw [hobs] at hready
            exact hready.elim
          | _ =>
            rw [hobs] at hready
            exact absurd hne (hready.1 rfl)
        obtain ⟨row, hrow⟩ := hinv.row
        have hsnap : o.writers.db.getSnapshot job = .ok row.snapshot := by
          rw [Db.getSnapshot, Db.jobRow, hrow]
          rfl
        rw [Observation.step, hread, hne] at hs
        simp only [Observer.step, hsnap, List.nil_append, List.head?_cons, Option.some.injEq] at hs
        refine ⟨actions.length, by simp, row, ?_, hs⟩
        rw [List.take_left, ho, hrow]
      · refine hearlier ?_
        obtain ⟨x, xs, hx⟩ := List.exists_cons_of_ne_nil hne
        simp only [Observation.step, hx, List.cons_append, List.head?_cons] at hs ⊢
        exact hs

/-- The generator is over as soon as it has delivered a terminal snapshot. -/
def AtOnce (o : Observation) : Prop :=
  ∀ s, o.received.getLast? = some s → s.state.terminal = true → o.observer = .returned

variable (job) in
theorem step_yield (db : Db) (observer : Observer) :
    (observer.step db job).1 = [] ∧
      (observer = .returned → (observer.step db job).2 = .returned) ∨
    ∃ s, (observer.step db job).1 = [s] ∧
      (s.state.terminal = true → (observer.step db job).2 = .returned) := by
  cases observer with
  | read =>
    rw [Observer.step]
    split
    · exact .inl ⟨rfl, by simp⟩
    · exact .inr ⟨_, rfl, fun hterm => by rw [if_pos hterm]⟩
  | deliver s rest => exact .inr ⟨s, rfl, fun hterm => by rw [Observer.step, if_pos hterm]⟩
  | fetch cursor =>
    rw [Observer.step]
    split <;> exact .inl ⟨rfl, by simp⟩
  | check cursor =>
    rw [Observer.step]
    split <;> exact .inl ⟨rfl, by simp⟩
  | wait cursor => exact .inl ⟨rfl, by simp⟩
  | returned => exact .inl ⟨rfl, fun _ => rfl⟩
  | raised e => exact .inl ⟨rfl, by simp⟩

theorem AtOnce.step (h : o.AtOnce) {a : ObservationAction} (ha : a ≠ .reconnect) :
    (o.step config job after a).AtOnce := by
  cases a with
  | writer a => exact h
  | reconnect => exact absurd rfl ha
  | observe =>
    intro s hs hterm
    rw [Observation.step] at hs ⊢
    rcases step_yield job o.writers.db o.observer with ⟨hnone, hkeep⟩ | ⟨s', hsome, hover⟩
    · simp only [hnone, List.append_nil] at hs
      exact hkeep (h s hs hterm)
    · simp only [hsome, List.getLast?_concat, Option.some.injEq] at hs
      exact hover (hs ▸ hterm)

theorem AtOnce.foldl (h : o.AtOnce) {actions : List ObservationAction}
    (ha : .reconnect ∉ actions) :
    (actions.foldl (Observation.step config job after) o).AtOnce := by
  induction actions generalizing o with
  | nil => exact h
  | cons a actions ih =>
    rw [List.mem_cons, not_or] at ha
    exact ih (h.step (Ne.symm ha.1)) ha.2

/-! ### Progress -/

/-- How many of its steps the generator needs at most to pass revision `m`. -/
def distance (m position : Nat) : Observer → Nat
  | .deliver _ _ => 2 * (m - position)
  | .fetch _ => 2 * (m - position) + 1
  | .wait _ => 2 * (m - position) + 2
  | .check _ => 2 * (m - position) + 3
  | _ => 1

/-- A step of the generator gets it closer to a stored revision. -/
theorem distance_step {db : Db} {received : List JobSnapshot} {observer : Observer} {row : JobRow}
    (h : WrittenLogs db) (hrow : db.jobs.get job = some row)
    (hready : Ready db job after received observer) {m : Nat} (hm : m ≤ row.revision)
    (hbefore : position after received < m) :
    m ≤ position after (received ++ (observer.step db job).1) ∨
      distance m (position after (received ++ (observer.step db job).1)) (observer.step db job).2 <
        distance m (position after received) observer := by
  obtain ⟨hstate, hrev, hjob, hpos⟩ := h.row job row hrow
  have hsnap : db.getSnapshot job = .ok row.snapshot := by
    rw [Db.getSnapshot, Db.jobRow, hrow]
    rfl
  cases observer with
  | read =>
    obtain ⟨rfl, rfl⟩ := hready
    left
    simp only [Observer.step, hsnap, List.nil_append, position, base, Option.getD_none,
      List.length_singleton]
    omega
  | fetch cursor =>
    right
    obtain ⟨-, hcursor⟩ := hready
    obtain ⟨events, hevents, -, hlen⟩ := WrittenLogs.eventsAfter_eq h hrow cursor
    cases events with
    | nil =>
      rw [List.length_nil] at hlen
      omega
    | cons s rest =>
      simp only [Observer.step, hevents, List.append_nil, distance]
      omega
  | deliver s rest =>
    right
    have hposition := hready.1.position_append [s]
    rw [List.length_singleton] at hposition
    simp only [Observer.step, hposition]
    split
    · simp only [distance]
      omega
    · cases rest <;> simp only [Observer.loop, distance] <;> omega
  | check cursor =>
    right
    obtain ⟨-, hcursor⟩ := hready
    have hlive : ¬ (row.snapshot.state.terminal && decide ((row.snapshot.revision : Int) ≤ cursor)) =
        true := by
      rw [Bool.and_eq_true, decide_eq_true_eq]
      omega
    simp only [Observer.step, hsnap, List.append_nil, if_neg hlive, distance]
    omega
  | wait cursor =>
    right
    simp only [Observer.step, List.append_nil, distance]
    omega
  | returned =>
    obtain ⟨-, row', hrow', -, hle⟩ := hready
    obtain rfl := Option.some.inj (hrow.symm.trans hrow')
    omega
  | raised e => exact hready.elim

/-- How many of its steps the generator needs at most to return, once it has a terminal snapshot. -/
def closing : Observer → Nat
  | .check _ => 1
  | .fetch _ => 2
  | .wait _ => 3
  | _ => 0

/-- With the log of a terminal job received, a step of the generator gets it closer to its
`return`. -/
theorem closing_step {db : Db} {received : List JobSnapshot} {observer : Observer} {row : JobRow}
    (h : WrittenLogs db) (hrow : db.jobs.get job = some row) (hterm : row.state.terminal = true)
    (hready : Ready db job after received observer)
    (hall : row.revision ≤ position after received) :
    (observer.step db job).1 = [] ∧ closing (observer.step db job).2 = closing observer - 1 ∧
      (closing observer = 0 → observer = .returned) := by
  obtain ⟨hstate, hrev, hjob, hpos⟩ := h.row job row hrow
  have hsnap : db.getSnapshot job = .ok row.snapshot := by
    rw [Db.getSnapshot, Db.jobRow, hrow]
    rfl
  cases observer with
  | read =>
    obtain ⟨rfl, rfl⟩ := hready
    simp only [position, base, Option.getD_none, List.length_nil] at hall
    omega
  | fetch cursor =>
    obtain ⟨-, hcursor⟩ := hready
    obtain ⟨events, hevents, -, hlen⟩ := WrittenLogs.eventsAfter_eq h hrow cursor
    obtain rfl : events = [] := by
      rw [← List.length_eq_zero_iff]
      omega
    simp [Observer.step, hevents, closing]
  | deliver s rest =>
    obtain ⟨row', hrow', -, hle⟩ := h.row_of_log hready.2.1
    obtain rfl := Option.some.inj (hrow.symm.trans hrow')
    omega
  | check cursor =>
    obtain ⟨-, hcursor⟩ := hready
    have hover : (row.snapshot.state.terminal && decide ((row.snapshot.revision : Int) ≤ cursor)) =
        true := by
      rw [Bool.and_eq_true, decide_eq_true_eq, ← hstate]
      exact ⟨hterm, by omega⟩
    simp [Observer.step, hsnap, hover, closing]
  | wait cursor => simp [Observer.step, closing]
  | returned => simp [Observer.step, closing]
  | raised e => exact hready.elim

theorem position_le_append (received ys : List JobSnapshot) :
    position after received ≤ position after (received ++ ys) := by
  by_cases hopened : Opened after received
  · rw [hopened.position_append]
    omega
  · have hempty : after = none ∧ received = [] := by simpa [Opened] using hopened
    rw [hempty.1, hempty.2]
    exact Nat.zero_le _

theorem distance_pos {m n : Nat} (h : n < m) (observer : Observer) :
    0 < distance m n observer := by
  cases observer <;> simp only [distance] <;> omega

theorem distance_le (m n : Nat) (observer : Observer) : distance m n observer ≤ 2 * m + 3 := by
  cases observer <;> simp only [distance] <;> omega

theorem closing_le (observer : Observer) : closing observer ≤ 3 := by
  cases observer <;> simp [closing]

/-- The consumer has the log up to `m` after enough steps of the generator. -/
theorem Inv.reaches (h : o.Inv job after) {row : JobRow}
    (hrow : o.writers.db.jobs.get job = some row) {m : Nat} (hm : m ≤ row.revision)
    {actions : List ObservationAction} (ha : .reconnect ∉ actions)
    (hcount : m ≤ position after o.received ∨
      distance m (position after o.received) o.observer ≤
        actions.countP ObservationAction.isObserve) :
    m ≤ position after (actions.foldl (Observation.step config job after) o).received := by
  induction actions generalizing o row with
  | nil =>
    rw [List.foldl_nil]
    rcases hcount with hreached | hcount
    · exact hreached
    · by_contra hlt
      have hpos := distance_pos (not_le.mp hlt) o.observer
      rw [List.countP_nil] at hcount
      omega
  | cons a actions ih =>
    rw [List.mem_cons, not_or] at ha
    have hinv := h.step config a
    rw [List.foldl_cons]
    cases a with
    | writer a =>
      obtain ⟨hw, hext⟩ : (o.writers.step config a).Inv ∧
        o.writers.db.Extends (o.writers.step config a).db := h.writers.step a
      obtain ⟨row', hrow', hle, -⟩ := WrittenLogs.row_later h.writers.logs hw.logs hext hrow
      exact ih hinv hrow' (hm.trans hle) ha.2 hcount
    | reconnect => exact absurd rfl ha.1
    | observe =>
      refine ih hinv hrow hm ha.2 ?_
      by_cases hreached : m ≤ position after o.received
      · exact .inl (hreached.trans (position_le_append _ _))
      · rcases distance_step h.writers.logs hrow h.ready hm (not_le.mp hreached) with hnow | hless
        · exact .inl hnow
        · right
          have hold := hcount.resolve_left hreached
          rw [List.countP_cons_of_pos rfl] at hold
          exact Nat.lt_succ_iff.mp (hless.trans_le hold)

/-- What is left of the generator's steps when the job is terminal at revision `m`. -/
def remaining (m : Nat) (after : Option Int) (o : Observation) : Nat :=
  if m ≤ position after o.received then closing o.observer
  else distance m (position after o.received) o.observer + 3

variable (config) in
theorem remaining_step (h : o.Inv job after) {row : JobRow}
    (hrow : o.writers.db.jobs.get job = some row) (hterm : row.state.terminal = true) :
    remaining row.revision after (o.step config job after .observe) ≤
        remaining row.revision after o - 1 ∧
      (remaining row.revision after o = 0 → o.observer = .returned) := by
  unfold remaining
  by_cases hreached : row.revision ≤ position after o.received
  · obtain ⟨hnone, hless, hover⟩ := closing_step h.writers.logs hrow hterm h.ready hreached
    rw [if_pos hreached, step_observe_received, step_observe_observer, hnone, List.append_nil,
      if_pos hreached]
    exact ⟨hless.le, hover⟩
  · have hpos := distance_pos (not_le.mp hreached) o.observer
    have hclose := closing_le (o.observer.step o.writers.db job).2
    rw [if_neg hreached]
    refine ⟨?_, fun h0 => by omega⟩
    rw [step_observe_received, step_observe_observer]
    rcases distance_step h.writers.logs hrow h.ready le_rfl (not_le.mp hreached) with hnow | hless
    · rw [if_pos hnow]
      omega
    · split <;> omega

/-- The generator of a terminal job returns after enough of its steps. -/
theorem Inv.returns (h : o.Inv job after) {row : JobRow}
    (hrow : o.writers.db.jobs.get job = some row) (hterm : row.state.terminal = true)
    {actions : List ObservationAction} (ha : .reconnect ∉ actions)
    (hcount : remaining row.revision after o ≤ actions.countP ObservationAction.isObserve) :
    (actions.foldl (Observation.step config job after) o).observer = .returned := by
  induction actions generalizing o row with
  | nil =>
    rw [List.countP_nil, Nat.le_zero] at hcount
    exact (remaining_step config h hrow hterm).2 hcount
  | cons a actions ih =>
    rw [List.mem_cons, not_or] at ha
    have hinv := h.step config a
    rw [List.foldl_cons]
    cases a with
    | writer a =>
      obtain ⟨hw, hext⟩ : (o.writers.step config a).Inv ∧
        o.writers.db.Extends (o.writers.step config a).db := h.writers.step a
      obtain ⟨row', hrow', -, hkept⟩ := WrittenLogs.row_later h.writers.logs hw.logs hext hrow
      obtain ⟨hrev, hterm'⟩ := hkept hterm
      refine ih hinv hrow' hterm' ha.2 ?_
      rw [hrev]
      exact hcount
    | reconnect => exact absurd rfl ha.1
    | observe =>
      refine ih hinv hrow hterm ha.2 ?_
      have hless := (remaining_step config h hrow hterm).1
      rw [List.countP_cons_of_pos rfl] at hcount
      omega

/-- What a consumer of `observe(job, after)` that reconnects with its last revision can rely on. -/
structure StreamLaw (config : AgentConfig) (job : JobId) (after : Option Int)
    (before : List WriterAction) (actions : List ObservationAction) (o : Observation) : Prop where
  /-- the snapshots of consecutive revisions, from the one after `after` -/
  follows : o.writers.db.Follows job (base after o.received) o.received
  /-- without a revision, from the one current at some instant -/
  first : after = none → ∀ s, o.received.head? = some s → ∃ n ≤ actions.length, ∃ row,
    (run config job none before (actions.take n)).writers.db.jobs.get job = some row ∧
      row.snapshot = s
  /-- over only when nothing is left, and the job is terminal -/
  ended : o.observer = .returned → ∃ row, o.writers.db.jobs.get job = some row ∧
    row.state.terminal = true ∧ row.revision ≤ position after o.received
  /-- over at once after a terminal snapshot -/
  atOnce : .reconnect ∉ actions → o.AtOnce
  running : ∀ e, o.observer ≠ .raised e
  /-- whatever is stored gets delivered, and the generator of a terminal job returns -/
  progress : ∀ row, o.writers.db.jobs.get job = some row → ∀ later : List ObservationAction, .reconnect ∉ later →
    2 * row.revision + 6 ≤ later.countP ObservationAction.isObserve →
    row.revision ≤ position after (later.foldl (Observation.step config job after) o).received ∧
      (row.state.terminal = true →
        (later.foldl (Observation.step config job after) o).observer = .returned)

end Observation

open Observation in
/-- Whatever the writers do between the reads, a consumer of `observe` gets the log of the job. -/
theorem observe_stream (config : AgentConfig) (job : JobId) (after : Option Int)
    (before : List WriterAction) (actions : List ObservationAction) {row : JobRow}
    (hrow : (Writers.run config before).db.jobs.get job = some row) :
    StreamLaw config job after before actions (run config job after before actions) := by
  have hinv := inv_run after hrow actions
  refine ⟨hinv.follows, ?_, fun hret => ?_, fun ha => ?_, fun e he => ?_, ?_⟩
  · rintro rfl s hs
    exact first_current hrow actions hs
  · have hready := hinv.ready
    rw [hret] at hready
    exact hready.2
  · have hstart : AtOnce ⟨Writers.run config before, .start after, []⟩ := by
      intro s hs
      simp at hs
    exact hstart.foldl ha
  · have hready := hinv.ready
    rw [he] at hready
    exact hready
  · intro row hrow later hlater hcount
    refine ⟨hinv.reaches hrow le_rfl hlater (.inr ?_), fun hterm => hinv.returns hrow hterm hlater ?_⟩
    · have hle := distance_le row.revision (position after (run config job after before actions).received)
        (run config job after before actions).observer
      omega
    · have hle := distance_le row.revision (position after (run config job after before actions).received)
        (run config job after before actions).observer
      have hclose := closing_le (run config job after before actions).observer
      unfold remaining
      split <;> omega

/-- A job is submitted, observed from its start, and cancelled between two reads. -/
theorem observe_stream_cancelRequested :
    let config : AgentConfig := ⟨1, "1", "1", "simulated", true, fun _ => "", id⟩
    let document : JobDocument := ⟨.statelessTraffic, [0, 1], 300000, 600000, "[]"⟩
    Observation.StreamLaw config 7 none [.submit 7 document "user" "key" none 0]
      [.observe, .observe, .writer (.requestCancel 7 "r" "user" "stop"), .observe, .observe, .observe]
      (Observation.run config 7 none [.submit 7 document "user" "key" none 0]
        [.observe, .observe, .writer (.requestCancel 7 "r" "user" "stop"), .observe, .observe,
          .observe]) :=
  observe_stream _ 7 none _ _ rfl

end TrexCli
