import Mathlib.Data.List.Induction
import TrexCli.Artifacts.Integrity

/-!
# Retention over whole runs

The invariant of the store over any sequence of writes and cleanups with failing operations and
crashes, and the store's promises. The time of a cleanup is an argument: a cleanup that is cut off
between the file and its row leaves a row without its file, which a later cleanup at an earlier time
does not find expired.
-/

namespace TrexCli.Artifacts

open Capture (Digest)
open Lexicographic Faulty

section

variable {root : PurePath} {sha256 : Bytes → Digest} {grace : Int} {s s' : ArtifactState}

/-- What holds of the state after calls whose deletions were at `times`. -/
structure Intact (root : PurePath) (sha256 : Bytes → Digest) (times : List UtcDateTime)
    (s : ArtifactState) : Prop where
  placed : ∀ digest row, s.rows.get digest = some row → row.path = contentPath root digest
  dated : ∀ digest row, s.rows.get digest = some row →
    ∃ deadline : UtcDateTime, row.retainUntil = deadline.isoformat
  kept : ∀ digest row, s.rows.get digest = some row →
    (∀ now ∈ times, ¬row.retainUntil < now.isoformat) →
      FileOf sha256 digest (contentPath root digest) s

namespace Intact

theorem empty : Intact root sha256 [] .empty where
  placed _ _ h := by simp [ArtifactState.empty] at h
  dated _ _ h := by simp [ArtifactState.empty] at h
  kept _ _ h := by simp [ArtifactState.empty] at h

/-- A file that is there stays as it is while another is written. -/
theorem fileOf_of_filesKept {path p : PurePath} {content : Bytes} {digest : Digest}
    (h : FilesKept path content s s') (hfile : FileOf sha256 digest p s) :
    FileOf sha256 digest p s' := by
  obtain ⟨file, hget, hhash⟩ := hfile
  rcases h p with hp | ⟨-, hnone, -⟩
  · exact ⟨file, hp.trans hget, hhash⟩
  · rw [hnone] at hget
    cases hget

theorem afterWrite {times : List UtcDateTime} {content : Bytes} (h : Intact root sha256 times s)
    (hs : AfterWrite root sha256 content s s') : Intact root sha256 times s' := by
  obtain ⟨hfiles, hrows | ⟨hfile, -, mediaType, size, deadline, hrows⟩⟩ := hs
  · constructor
    all_goals simp only [hrows]
    · exact h.placed
    · exact h.dated
    · exact fun digest row hrow hlive => fileOf_of_filesKept hfiles (h.kept digest row hrow hlive)
  · have hget : ∀ digest row, s'.rows.get digest = some row →
        digest = sha256 content ∧ row = retained (sha256 content) mediaType size
          (contentPath root (sha256 content)) deadline.isoformat (s.rows.get (sha256 content)) ∨
        s.rows.get digest = some row := by
      intro digest row hrow
      rw [hrows, Table.get_upsert, retained_digest] at hrow
      split at hrow
      · rename_i hdigest
        exact .inl ⟨hdigest.symm, (Option.some.inj hrow).symm⟩
      · exact .inr hrow
    refine ⟨fun digest row hrow => ?_, fun digest row hrow => ?_, fun digest row hrow hlive => ?_⟩
    · rcases hget digest row hrow with ⟨rfl, rfl⟩ | hold
      · rcases hrow₀ : s.rows.get (sha256 content) with _ | row₀
        · rfl
        · show row₀.path = contentPath root (sha256 content)
          exact h.placed _ _ hrow₀
      · exact h.placed digest row hold
    · rcases hget digest row hrow with ⟨rfl, rfl⟩ | hold
      · rcases hrow₀ : s.rows.get (sha256 content) with _ | row₀
        · exact ⟨deadline, rfl⟩
        · obtain ⟨deadline₀, hdeadline₀⟩ := h.dated _ _ hrow₀
          obtain ⟨later, hlater, -⟩ := sqlMax_isoformat deadline₀ deadline
          exact ⟨later, by rw [← hlater, ← hdeadline₀]; rfl⟩
      · exact h.dated digest row hold
    · rcases hget digest row hrow with ⟨rfl, -⟩ | hold
      · exact hfile
      · exact fileOf_of_filesKept hfiles (h.kept digest row hold hlive)

/-- A row that a cleanup leaves is one from before. -/
theorem get_of_afterCleanup {now : UtcDateTime} {deleteOrphans : Bool} {digest : Digest}
    {row : ArtifactRow} (hs : AfterCleanup grace now deleteOrphans s s')
    (hrow : s'.rows.get digest = some row) : s.rows.get digest = some row := by
  rcases hs.2 digest with heq | ⟨hnone, -⟩
  · exact heq.symm.trans hrow
  · rw [hnone] at hrow
    cases hrow

theorem afterCleanup {times : List UtcDateTime} {now : UtcDateTime} {deleteOrphans : Bool}
    (h : Intact root sha256 times s) (hs : AfterCleanup grace now deleteOrphans s s') :
    Intact root sha256 (times ++ [now]) s' := by
  refine ⟨fun digest row hrow => h.placed digest row (get_of_afterCleanup hs hrow),
    fun digest row hrow => h.dated digest row (get_of_afterCleanup hs hrow),
    fun digest row hrow hlive => ?_⟩
  have hrow₀ := get_of_afterCleanup hs hrow
  obtain ⟨file, hfile, hhash⟩ := h.kept digest row hrow₀ fun t ht => hlive t (by simp [ht])
  rcases hs.1 (contentPath root digest) with heq | ⟨-, hdeletable⟩
  · exact ⟨file, heq.trans hfile, hhash⟩
  · exfalso
    have hpath := h.placed digest row hrow₀
    have hmem : row ∈ s.rows.rows := ((Table.get_eq_some _).mp hrow₀).1
    rcases hdeletable with ⟨expired, hexpired, hsame, hlt⟩ | ⟨-, hunregistered, -⟩
    · -- The expired row at this path is the row itself.
      have hget := (Table.mem_rows _).mp hexpired
      obtain hdigest := contentPath_inj ((h.placed _ _ hget).symm.trans hsame)
      rw [hdigest, hrow₀] at hget
      obtain rfl := Option.some.inj hget
      exact hlive now (by simp) hlt
    · exact hunregistered row hmem hpath

end Intact

/-- The times of the cleanups that were to delete. -/
def deletionTimes (calls : List StoreCall) : List UtcDateTime :=
  calls.filterMap fun
    | .cleanup now false _ _ => some now
    | _ => none

variable (root sha256 grace s) in
theorem afterWrite_run (content : Bytes) (name mediaType : Text) (days : Int) (now : UtcDateTime)
    (written : Int) (fates : List Fate) :
    AfterWrite root sha256 content s
      (StoreCall.run root sha256 grace s (.write name content mediaType days now written fates)) := by
  have h := triple_write root sha256 s name content mediaType days now written s fates rfl
  show AfterWrite root sha256 content s (write root sha256 name content mediaType days now written
    (s, fates)).2.1
  rcases hr : write root sha256 name content mediaType days now written (s, fates)
    with ⟨(_ | _) | _, s', fates'⟩
  · rw [hr] at h
    exact h
  · rw [hr] at h
    exact h
  · rw [hr] at h
    exact h

variable (root sha256 grace s) in
theorem cleanup_run (now : UtcDateTime) (dryRun deleteOrphans : Bool) (fates : List Fate) :
    if dryRun then StoreCall.run root sha256 grace s (.cleanup now dryRun deleteOrphans fates) = s
    else AfterCleanup grace now deleteOrphans s
      (StoreCall.run root sha256 grace s (.cleanup now dryRun deleteOrphans fates)) := by
  have h := triple_cleanup root s grace now deleteOrphans dryRun s fates rfl
  show if dryRun then (cleanup root grace now dryRun deleteOrphans (s, fates)).2.1 = s
    else AfterCleanup grace now deleteOrphans s
      (cleanup root grace now dryRun deleteOrphans (s, fates)).2.1
  rcases hr : cleanup root grace now dryRun deleteOrphans (s, fates) with ⟨(_ | _) | _, s', fates'⟩
  · rw [hr] at h
    exact h
  · rw [hr] at h
    exact h
  · rw [hr] at h
    exact h

theorem intact_runCalls (root : PurePath) (sha256 : Bytes → Digest) (grace : Int)
    (calls : List StoreCall) :
    Intact root sha256 (deletionTimes calls) (runCalls root sha256 grace calls) := by
  induction calls using List.reverseRecOn with
  | nil => exact .empty
  | append_singleton calls call ih =>
    have htimes : deletionTimes (calls ++ [call]) = deletionTimes calls ++ deletionTimes [call] :=
      List.filterMap_append
    have hcalls : runCalls root sha256 grace (calls ++ [call]) =
        StoreCall.run root sha256 grace (runCalls root sha256 grace calls) call := by
      rw [runCalls, List.foldl_append]
      rfl
    rw [htimes, hcalls]
    rcases call with ⟨name, content, mediaType, days, now, written, fates⟩ |
      ⟨now, dryRun, deleteOrphans, fates⟩
    · rw [show deletionTimes [.write name content mediaType days now written fates] = [] from rfl,
        List.append_nil]
      exact ih.afterWrite (afterWrite_run root sha256 grace _ content name mediaType days now written
        fates)
    · have h := cleanup_run root sha256 grace (runCalls root sha256 grace calls) now dryRun
        deleteOrphans fates
      cases dryRun with
      | true =>
        rw [if_pos rfl] at h
        rw [show deletionTimes [.cleanup now true deleteOrphans fates] = [] from rfl,
          List.append_nil, h]
        exact ih
      | false => exact ih.afterCleanup h

/-- What the store promises between two calls, after deletions at `times`. -/
structure Promises (root : PurePath) (sha256 : Bytes → Digest) (grace : Int)
    (times : List UtcDateTime) (s : ArtifactState) : Prop where
  /-- A registered row has a deadline; unless it was before a deletion, its file is there. -/
  registered : ∀ digest row, s.rows.get digest = some row →
    ∃ deadline : UtcDateTime, row.retainUntil = deadline.isoformat ∧
      ((∀ now ∈ times, ¬deadline.Before now) → FileOf sha256 digest row.path s)
  /-- A dry run changes nothing. -/
  dryRun : ∀ now deleteOrphans fates,
    StoreCall.run root sha256 grace s (.cleanup now true deleteOrphans fates) = s
  /-- Only a row whose deadline is before the time of the cleanup is removed. -/
  removed : ∀ call digest row, s.rows.get digest = some row →
    (StoreCall.run root sha256 grace s call).rows.get digest = none →
    ∃ now deleteOrphans fates, ∃ deadline : UtcDateTime,
      call = .cleanup now false deleteOrphans fates ∧
        row.retainUntil = deadline.isoformat ∧ deadline.Before now
  /-- Only the file of such a row is deleted, or an orphan older than the grace period. -/
  deleted : ∀ call path file, s.files.get path = some file →
    (StoreCall.run root sha256 grace s call).files.get path = none →
    ∃ now deleteOrphans fates, call = .cleanup now false deleteOrphans fates ∧
      ((∃ row ∈ s.rows.rows, ∃ deadline : UtcDateTime, row.path = path ∧
        row.retainUntil = deadline.isoformat ∧ deadline.Before now) ∨
        deleteOrphans = true ∧ (∀ row ∈ s.rows.rows, row.path ≠ path) ∧
          file.2.mtime < now.timestamp - grace)
  /-- Writing the content of a row again leaves the row, with a deadline that is not earlier. -/
  rewritten : ∀ name content mediaType days now written fates row,
    s.rows.get (sha256 content) = some row →
    ∃ row', (StoreCall.run root sha256 grace s
        (.write name content mediaType days now written fates)).rows.get (sha256 content) = some row' ∧
      ∃ deadline deadline' : UtcDateTime, row.retainUntil = deadline.isoformat ∧
        row'.retainUntil = deadline'.isoformat ∧ ¬deadline'.Before deadline

theorem Intact.promises {times : List UtcDateTime} (h : Intact root sha256 times s) :
    Promises root sha256 grace times s where
  registered digest row hrow := by
    obtain ⟨deadline, hdeadline⟩ := h.dated digest row hrow
    refine ⟨deadline, hdeadline, fun hlive => ?_⟩
    rw [h.placed digest row hrow]
    refine h.kept digest row hrow fun now hnow => ?_
    rw [hdeadline, UtcDateTime.isoformat_lt_iff]
    exact hlive now hnow
  dryRun now deleteOrphans fates := cleanup_run root sha256 grace s now true deleteOrphans fates
  removed call digest row hrow hnone := by
    rcases call with ⟨name, content, mediaType, days, now, written, fates⟩ |
      ⟨now, dryRun, deleteOrphans, fates⟩
    · exfalso
      rcases (afterWrite_run root sha256 grace s content name mediaType days now written fates).2 with
        hrows | ⟨-, -, mediaType', size, deadline, hrows⟩
      · rw [hrows, hrow] at hnone
        cases hnone
      · rw [hrows, Table.get_upsert] at hnone
        split at hnone
        · cases hnone
        · rw [hrow] at hnone
          cases hnone
    · have hs := cleanup_run root sha256 grace s now dryRun deleteOrphans fates
      cases dryRun with
      | true =>
        rw [if_pos rfl] at hs
        rw [hs, hrow] at hnone
        cases hnone
      | false =>
        obtain ⟨deadline, hdeadline⟩ := h.dated digest row hrow
        rcases hs.2 digest with heq | ⟨-, row', hrow', hlt⟩
        · rw [hnone, hrow] at heq
          cases heq
        · obtain rfl := Option.some.inj (hrow.symm.trans hrow')
          refine ⟨now, deleteOrphans, fates, deadline, rfl, hdeadline, ?_⟩
          rw [← UtcDateTime.isoformat_lt_iff, ← hdeadline]
          exact hlt
  deleted call path file hfile hnone := by
    rcases call with ⟨name, content, mediaType, days, now, written, fates⟩ |
      ⟨now, dryRun, deleteOrphans, fates⟩
    · exfalso
      rcases (afterWrite_run root sha256 grace s content name mediaType days now written fates).1 path with
        heq | ⟨-, hnone', -⟩
      · rw [hnone, hfile] at heq
        cases heq
      · rw [hfile] at hnone'
        cases hnone'
    · have hs := cleanup_run root sha256 grace s now dryRun deleteOrphans fates
      cases dryRun with
      | true =>
        rw [if_pos rfl] at hs
        rw [hs, hfile] at hnone
        cases hnone
      | false =>
        rcases hs.1 path with heq | ⟨-, hdeletable⟩
        · rw [hnone, hfile] at heq
          cases heq
        · refine ⟨now, deleteOrphans, fates, rfl, ?_⟩
          rcases hdeletable with ⟨row, hrow, hpath, hlt⟩ | ⟨horphans, hunregistered, hold⟩
          · obtain ⟨deadline, hdeadline⟩ := h.dated _ _ ((Table.mem_rows _).mp hrow)
            refine .inl ⟨row, hrow, deadline, hpath, hdeadline, ?_⟩
            rw [← UtcDateTime.isoformat_lt_iff, ← hdeadline]
            exact hlt
          · exact .inr ⟨horphans, hunregistered, hold file hfile⟩
  rewritten name content mediaType days now written fates row hrow := by
    obtain ⟨deadline, hdeadline⟩ := h.dated _ row hrow
    rcases (afterWrite_run root sha256 grace s content name mediaType days now written fates).2 with
      hrows | ⟨-, -, mediaType', size, deadline', hrows⟩
    · exact ⟨row, by rw [hrows, hrow], deadline, deadline, hdeadline, hdeadline, Int.lt_irrefl _⟩
    · obtain ⟨later, hlater, hnot, -⟩ := sqlMax_isoformat deadline deadline'
      refine ⟨{ row with retainUntil := sqlMax row.retainUntil deadline'.isoformat }, ?_, deadline,
        later, hdeadline, ?_, hnot⟩
      · rw [hrows, Table.get_upsert, retained_digest, if_pos rfl, hrow]
        rfl
      · show sqlMax row.retainUntil deadline'.isoformat = later.isoformat
        rw [hdeadline, hlater]

/-- The store keeps its promises after any sequence of writes and cleanups, at any times, with
operations that fail and crashes between any two of them; and texts of deadlines compare as the
deadlines. -/
theorem artifacts_kept (root : PurePath) (sha256 : Bytes → Digest) (grace : Int)
    (calls : List StoreCall) :
    Promises root sha256 grace (deletionTimes calls) (runCalls root sha256 grace calls) ∧
      ∀ t u : UtcDateTime, t.isoformat < u.isoformat ↔ t.Before u :=
  ⟨(intact_runCalls root sha256 grace calls).promises, UtcDateTime.isoformat_lt_iff⟩

/-! ### Cleanups whose times go back -/

theorem mem_hexDigits {width n : Nat} :
    ∀ c ∈ fixedDigits 16 width n, c ∈ "0123456789abcdef".toList := by
  have hdigit : ∀ m : Fin 16, Nat.digitChar m ∈ "0123456789abcdef".toList := by decide
  induction width generalizing n with
  | zero => simp [fixedDigits]
  | succ width ih =>
    intro c hc
    rcases List.mem_append.mp hc with hc | hc
    · exact ih c hc
    · obtain rfl := List.mem_singleton.mp hc
      exact hdigit ⟨n % 16, Nat.mod_lt _ (by decide)⟩

theorem validContentPath_contentPath (digest : Digest) :
    validContentPath root (contentPath root digest) (hexdigest digest) :=
  ⟨rfl, length_fixedDigits _ _ _, mem_hexDigits⟩

/-- A write that nothing disturbs registers its content. -/
theorem run_write_new {name mediaType : Text} {content : Bytes} {days written : Int} {now deadline : UtcDateTime}
    (hfile : s.files.get (contentPath root (sha256 content)) = none)
    (hrow : s.rows.get (sha256 content) = none) (hdeadline : now.addDays days = some deadline) :
    StoreCall.run root sha256 grace s (.write name content mediaType days now written []) =
      { s with
        files := s.files.upsert (contentPath root (sha256 content), ⟨content, written⟩)
        rows := s.rows.upsert ⟨sha256 content, mediaType, content.length,
          contentPath root (sha256 content), deadline.isoformat⟩ } := by
  have hatomic : writeAtomic sha256 (contentPath root (sha256 content)) content written (s, []) =
      (.ok (), { s with
        files := s.files.upsert (contentPath root (sha256 content), ⟨content, written⟩) }, []) := by
    simp [writeAtomic, fileOperation, Faulty.operation, bind, Effect.bind, hfile, Faulty.tryFinally,
      Faulty.pureState, pure, Effect.pure]
  simp [StoreCall.run, write, bind, Effect.bind, hatomic, hdeadline, recordArtifact, statement,
    Faulty.operation, hrow, pure, Effect.pure]

/-- A cleanup that is cut off between the file of the only expired row and the row. -/
theorem run_cleanup_cutOff {row : ArtifactRow} {now : UtcDateTime} {deleteOrphans : Bool}
    (hrows : s.rows.rows = [row]) (hexpired : row.retainUntil < now.isoformat)
    (hpath : row.path = contentPath root row.digest) :
    StoreCall.run root sha256 grace s (.cleanup now false deleteOrphans
      [.proceeds, .proceeds, .proceeds, .proceeds, .proceeds, .crashes]) =
      { s with files := s.files.delete fun file => file.1 = row.path } := by
  have hvalid : validContentPath root row.path (hexdigest row.digest) := by
    rw [hpath]
    exact validContentPath_contentPath row.digest
  simp [StoreCall.run, cleanup, statement, fileOperation, Faulty.operation, bind, Effect.bind, hrows,
    hexpired, deleteExpired, hvalid, catchOsError, unlinkExpired, Faulty.tryExcept, pure, Effect.pure,
    forgetExpired]

/-- A cleanup that finds nothing expired. -/
theorem run_cleanup_nothing {now : UtcDateTime}
    (hrows : ∀ row ∈ s.rows.rows, ¬row.retainUntil < now.isoformat) :
    StoreCall.run root sha256 grace s (.cleanup now false false []) = s := by
  have hnone : s.rows.rows.filter (fun row => row.retainUntil < now.isoformat) = [] :=
    List.filter_eq_nil_iff.mpr fun row hrow => by simpa using hrows row hrow
  simp [StoreCall.run, cleanup, statement, fileOperation, Faulty.operation, bind, Effect.bind, hnone,
    deleteExpired, pure, Effect.pure]

/-- The time of the last cleanup. -/
def lastCleanup (calls : List StoreCall) : Option UtcDateTime :=
  (calls.filterMap fun
    | .cleanup now _ _ _ => some now
    | _ => none).getLast?

theorem january_month : 1 ≤ 1 ∧ 1 ≤ 12 := by decide

/-- Midnight of a day of January 2024. -/
def january (day : Nat) (h : 1 ≤ day ∧ day ≤ 31) : UtcDateTime where
  date := ⟨2024, 1, day, by decide, january_month, h⟩
  hour := 0
  minute := 0
  second := 0
  microsecond := 0
  hour_lt := by decide
  minute_lt := by decide
  second_lt := by decide
  microsecond_lt := by decide

/-- An empty artifact is kept for a day; a cleanup two days later is cut off between its file and its
row, and the next cleanup is at the time of the write. -/
def cutOffCalls : List StoreCall :=
  [.write [] [] [] 1 (january 1 (by decide)) 0 [],
    .cleanup (january 3 (by decide)) false false
      [.proceeds, .proceeds, .proceeds, .proceeds, .proceeds, .crashes],
    .cleanup (january 1 (by decide)) false false []]

theorem rows_upsert_empty (row : ArtifactRow) : (ArtifactState.empty.rows.upsert row).rows = [row] := by
  simp [ArtifactState.empty, Table.upsert, Table.insertOrIgnore, Table.delete, Table.empty, Table.get]

/-- The row is left, and the file is not. -/
theorem runCalls_cutOffCalls : ∃ row : ArtifactRow,
    (runCalls root (fun _ => 0) grace cutOffCalls).rows.get 0 = some row ∧
      row.retainUntil = (january 2 (by decide)).isoformat ∧
      (runCalls root (fun _ => 0) grace cutOffCalls).files.get row.path = none := by
  have hafter : (january 2 (by decide)).isoformat < (january 3 (by decide)).isoformat :=
    (UtcDateTime.isoformat_lt_iff _ _).mpr (by decide)
  have hbefore : ¬(january 2 (by decide)).isoformat < (january 1 (by decide)).isoformat :=
    (UtcDateTime.isoformat_lt_iff _ _).not.mpr (by decide)
  have hdeadline : (january 1 (by decide)).addDays 1 = some (january 2 (by decide)) := rfl
  refine ⟨⟨0, [], 0, contentPath root 0, (january 2 (by decide)).isoformat⟩, ?_⟩
  simp only [runCalls, cutOffCalls, List.foldl_cons, List.foldl_nil]
  rw [run_write_new rfl rfl hdeadline, run_cleanup_cutOff (rows_upsert_empty _) hafter rfl,
    run_cleanup_nothing]
  · simp
  · intro row hrow
    rw [rows_upsert_empty] at hrow
    rw [List.mem_singleton.mp hrow]
    exact hbefore

theorem not_kept_since_lastCleanup :
    ¬∀ (root : PurePath) (sha256 : Bytes → Digest) (grace : Int) (calls : List StoreCall)
      (digest : Digest) (row : ArtifactRow) (deadline now : UtcDateTime),
      (runCalls root sha256 grace calls).rows.get digest = some row →
      row.retainUntil = deadline.isoformat → lastCleanup calls = some now →
      ¬deadline.Before now → FileOf sha256 digest row.path (runCalls root sha256 grace calls) := by
  intro h
  obtain ⟨row, hrow, hdeadline, hfile⟩ := @runCalls_cutOffCalls ⟨true, []⟩ 0
  obtain ⟨file, hget, -⟩ := h ⟨true, []⟩ (fun _ => 0) 0 cutOffCalls 0 row (january 2 (by decide))
    (january 1 (by decide)) hrow hdeadline rfl (by decide)
  rw [hfile] at hget
  cases hget

end

end TrexCli.Artifacts
