import TrexCli.Client.Observe
import TrexCli.Lib.Checks
import TrexCli.Lib.EventStream

/-!
# Waiting for a job over HTTP

`observe_job` of `api.py` writes the snapshots of `observe` to an event stream, and `_events` of
`cli.py` reads them back; `_wait` reads the current snapshot first, and then the stream after its
revision. JSON leaves three characters as they are at which `iter_lines` of the client splits a line.
Where no snapshot has one of them, what the client gets from any part of the stream is the beginning of
the log after the snapshot it has, and a complete stream ends in the terminal snapshot of the job.
-/

namespace TrexCli

open EventStream (Message OneLine payloads stream)

/-- `model_dump_json` and `model_validate` of the snapshots. -/
structure SnapshotCodec where
  render : JobSnapshot → Text
  parse : Text → Option JobSnapshot

namespace SnapshotCodec

variable (codec : SnapshotCodec)

/-- What is written of a snapshot is read back, and JSON escapes the control characters in it. -/
structure Lawful (s : JobSnapshot) : Prop where
  parse_render : codec.parse (codec.render s) = some s
  escaped : ∀ c ∈ codec.render s, 32 ≤ c.toNat

/-- The text has none of the characters that JSON leaves as they are and that end a line: NEL, LS and
PS. -/
def Plain (text : Text) : Prop := ∀ c ∈ text, c.toNat ∉ [133, 8232, 8233]

/-- What `stream` of `observe_job` yields for a snapshot. -/
def message (s : JobSnapshot) : Message := ⟨s.revision, codec.render s⟩

/-- The body of the response to `observe_job`, when `observe` has yielded the snapshots. -/
def body (snapshots : List JobSnapshot) : Text :=
  stream "snapshot".toList (snapshots.map codec.message)

/-- `_events`: the snapshots in what has arrived of the body, unless one cannot be read. -/
def events (arrived : Text) : Option (List JobSnapshot) := (payloads arrived).mapM codec.parse

/-- `_wait`, where `last` is what `_get` returned and the rest has arrived. -/
def wait (last : JobSnapshot) (arrived : Text) : Option JobSnapshot :=
  if last.state.terminal then some last
  else (codec.events arrived).map fun snapshots => (last :: snapshots).getLast (List.cons_ne_nil _ _)

theorem snapshot_oneLine : OneLine "snapshot".toList := by decide

variable {codec}

theorem Lawful.oneLine_iff {s : JobSnapshot} (h : codec.Lawful s) :
    OneLine (codec.render s) ↔ Plain (codec.render s) := by
  refine forall₂_congr fun c hc => ?_
  have hescaped := h.escaped c hc
  simp only [EventStream.isBoundary, decide_eq_false_iff_not, List.mem_cons, List.not_mem_nil, or_false]
  omega

section

variable {snapshots : List JobSnapshot} (hlawful : ∀ s ∈ snapshots, codec.Lawful s)
include hlawful

theorem events_map : (snapshots.map codec.render).mapM codec.parse = some snapshots := by
  rw [mapM_eq_some, List.forall₂_map_left_iff, List.forall₂_same]
  exact fun s hs => (hlawful s hs).parse_render

/-- The client gets the texts of all snapshots back exactly when each of them is plain. -/
theorem payloads_body_iff : payloads (codec.body snapshots) = snapshots.map codec.render ↔
    ∀ s ∈ snapshots, Plain (codec.render s) := by
  have hescaped : ∀ m ∈ snapshots.map codec.message, '\n' ∉ m.data := by
    rw [List.forall_mem_map]
    exact fun s hs hnewline => absurd ((hlawful s hs).escaped _ hnewline) (by decide)
  have hiff := EventStream.payloads_stream_iff snapshot_oneLine hescaped
  rw [List.forall_mem_map, List.map_map] at hiff
  exact hiff.trans (forall₂_congr fun s hs => (hlawful s hs).oneLine_iff)

variable (hplain : ∀ s ∈ snapshots, Plain (codec.render s))
include hplain

/-- From any part of the body the client gets the first snapshots. -/
theorem events_take (n : Nat) :
    ∃ k, codec.events ((codec.body snapshots).take n) = some (snapshots.take k) := by
  have hone : ∀ m ∈ snapshots.map codec.message, OneLine m.data := by
    rw [List.forall_mem_map]
    exact fun s hs => (hlawful s hs).oneLine_iff.mpr (hplain s hs)
  obtain ⟨k, hk⟩ := EventStream.payloads_take snapshot_oneLine hone n
  refine ⟨k, ?_⟩
  rw [events, body, hk, ← List.map_take, List.map_map]
  exact events_map fun s hs => hlawful s (List.mem_of_mem_take hs)

theorem events_body : codec.events (codec.body snapshots) = some snapshots := by
  rw [events, (payloads_body_iff hlawful).mpr hplain, events_map hlawful]

end

end SnapshotCodec

namespace Observation

variable {config : AgentConfig} {job : JobId} {o : Observation} {last : JobSnapshot}

/-- A generator that has returned after the revision of a snapshot that is not terminal has delivered
the terminal one. -/
theorem Inv.terminal (h : o.Inv job (some last.revision))
    (hlast : o.writers.db.logOf job last.revision = some last) (hlive : last.state.terminal = false)
    (hreturned : o.observer = .returned) :
    ∃ row s, o.writers.db.jobs.get job = some row ∧ o.received.getLast? = some s ∧ row.snapshot = s ∧
      s.state.terminal = true := by
  have hready := h.ready
  rw [hreturned] at hready
  obtain ⟨-, row, hrow, hterm, hle⟩ := hready
  have hcurrent := h.writers.logs.last job row hrow
  rw [(h.writers.logs.row job row hrow).1] at hterm
  have hne : row.revision ≠ last.revision := by
    intro heq
    rw [heq, hlast] at hcurrent
    rw [← Option.some.inj hcurrent, hlive] at hterm
    cases hterm
  have hlater : last.revision ≤ row.revision := by
    obtain ⟨row', hrow', -, hle'⟩ := h.writers.logs.row_of_log hlast
    rwa [← Option.some.inj (hrow.symm.trans hrow')] at hle'
  have hbase : base (some last.revision) o.received = last.revision := by
    cases o.received <;> rfl
  rw [position, hbase] at hle
  have hreceived : 0 < o.received.length := by omega
  obtain ⟨s, hs⟩ : ∃ s, o.received[o.received.length - 1]? = some s :=
    ⟨_, List.getElem?_eq_getElem (by omega)⟩
  have hlog := h.follows.getElem hs
  rw [hbase, show last.revision + 1 + (o.received.length - 1) =
    last.revision + o.received.length by omega] at hlog
  -- the log has no revision after that of the row
  have hend : last.revision + o.received.length ≤ row.revision := by
    obtain ⟨row', hrow', -, hle'⟩ := h.writers.logs.row_of_log hlog
    rwa [← Option.some.inj (hrow.symm.trans hrow')] at hle'
  rw [Nat.le_antisymm hend hle] at hlog
  have hsnapshot := Option.some.inj (hcurrent.symm.trans hlog)
  exact ⟨row, s, hrow, List.getLast?_eq_getElem? ▸ hs, hsnapshot, hsnapshot ▸ hterm⟩

variable (config) in
/-- The log is kept in a run. -/
theorem Inv.extends {after : Option Int} (h : o.Inv job after) (actions : List ObservationAction) :
    o.writers.db.Extends (actions.foldl (Observation.step config job after) o).writers.db := by
  induction actions generalizing o with
  | nil => exact .refl _
  | cons a actions ih =>
    have hrest := ih (h.step config a)
    cases a with
    | writer a => exact (h.writers.step a).2.trans hrest
    | observe => exact hrest
    | reconnect => exact hrest

end Observation

/-! ### Exit codes -/

/-- `_exit_code` -/
def exitCode (s : JobSnapshot) : Nat :=
  if s.state = .cancelled then 130
  else if s.state = .failed then 3
  else match s.result with
    | none => 3
    | some result =>
      if result.verdict = .fail then 1
      else if result.verdict = .invalid then 3
      else 0

/-- A snapshot in a log has a result only where the job has succeeded. -/
theorem succeeded_of_result {db : Db} {job : JobId} {r : Nat} {s : JobSnapshot} (h : WrittenLogs db)
    (hs : db.logOf job r = some s) (hresult : s.result ≠ none) : s.state = .succeeded := by
  revert hresult
  refine h.forall_events (P := fun s => s.result ≠ none → s.state = .succeeded) ?_ ?_ hs
  · rintro _ ⟨job, kind, digest, retryOf, now, rfl⟩ hresult
    exact absurd rfl hresult
  · rintro s _ ih (⟨site, hadmits⟩ | hlive) hresult
    · have hnone : s.result = none := by
        by_contra hsome
        have hterm := hadmits.1
        rw [ih hsome] at hterm
        cases hterm
      cases site with
      | succeeded result now => rfl
      | _ => exact absurd hnone hresult
    · exact ih hresult

/-- Only a terminal snapshot has an exit code other than 3. -/
theorem terminal_of_exitCode {db : Db} {job : JobId} {r : Nat} {s : JobSnapshot} (h : WrittenLogs db)
    (hs : db.logOf job r = some s) (hexit : exitCode s ≠ 3) : s.state.terminal = true := by
  by_cases hcancelled : s.state = .cancelled
  · rw [hcancelled]
    rfl
  · rw [exitCode, if_neg hcancelled] at hexit
    rw [succeeded_of_result h hs fun hnone => by simp [hnone] at hexit]
    rfl

/-! ### The client -/

/-- What a client that has the snapshot `last` of a job gets of an observation after it. -/
structure Awaits (codec : SnapshotCodec) (job : JobId) (last : JobSnapshot) (o : Observation) : Prop where
  /-- Wherever the connection ends, the client has the log up to some revision. -/
  prefixes : ∀ n, ∃ k, codec.events ((codec.body o.received).take n) = some (o.received.take k) ∧
    o.writers.db.Follows job last.revision (o.received.take k)
  /-- A stream that the agent has finished ends in the terminal snapshot of the job. -/
  complete : o.observer = .returned → ∃ final, o.writers.db.jobs.get job = some final ∧
    final.state.terminal = true ∧ codec.wait last (codec.body o.received) = some final.snapshot
  /-- An exit code other than 3 is that of the terminal snapshot of the job. -/
  exit : ∀ n s, codec.wait last ((codec.body o.received).take n) = some s → exitCode s ≠ 3 →
    ∃ final, o.writers.db.jobs.get job = some final ∧ final.state.terminal = true ∧
      final.snapshot = s

/-- A client that has read a snapshot of a job which is not over, and then observes the job. Whatever
the other writers do meanwhile, the client gets the texts of all snapshots back exactly when none has a
character that JSON leaves as it is and that ends a line. Then it gets the beginning of the log after
the snapshot it has, wherever the connection ends. -/
theorem wait_follows (codec : SnapshotCodec) (config : AgentConfig) {job : JobId}
    {before : List WriterAction} {row : JobRow}
    (hrow : (Writers.run config before).db.jobs.get job = some row)
    (hlive : row.snapshot.state.terminal = false) (between : List WriterAction)
    (actions : List ObservationAction)
    (hlawful : ∀ s ∈ (Observation.run config job (some row.snapshot.revision) (before ++ between)
      actions).received, codec.Lawful s) :
    let o := Observation.run config job (some row.snapshot.revision) (before ++ between) actions
    (payloads (codec.body o.received) = o.received.map codec.render ↔
      ∀ s ∈ o.received, SnapshotCodec.Plain (codec.render s)) ∧
    ((∀ s ∈ o.received, SnapshotCodec.Plain (codec.render s)) → Awaits codec job row.snapshot o) := by
  intro o
  have hinv : (Writers.run config before).Inv := Writers.inv_run before
  have hrevision : row.snapshot.revision = row.revision := (hinv.logs.row job row hrow).2.1.symm
  have hlast : (Writers.run config before).db.logOf job row.snapshot.revision = some row.snapshot :=
    hrevision ▸ hinv.logs.last job row hrow
  have hlast' := Writers.run_extends before between _ _ _ hlast
  obtain ⟨row', hrow', -, -⟩ := (Writers.inv_run (before ++ between)).logs.row_of_log hlast'
  have hstart := Observation.inv_run (some row.snapshot.revision) hrow' []
  have hlog := hstart.extends config actions _ _ _ hlast'
  have ho : o.Inv job (some row.snapshot.revision) :=
    Observation.inv_run (some row.snapshot.revision) hrow' actions
  have hbase : Observation.base (some (row.snapshot.revision : Int)) o.received =
      row.snapshot.revision := by
    cases o.received <;> rfl
  have hfollows := ho.follows
  rw [hbase] at hfollows
  refine ⟨SnapshotCodec.payloads_body_iff hlawful, fun hplain => ⟨fun n => ?_, fun hreturned => ?_,
    fun n s hwait hexit => ?_⟩⟩
  · obtain ⟨k, hk⟩ := SnapshotCodec.events_take hlawful hplain n
    refine ⟨k, hk, ?_⟩
    rw [← List.take_append_drop k o.received, Db.Follows.append_iff] at hfollows
    exact hfollows.1
  · obtain ⟨final, s, hfinal, hs, rfl, hterm⟩ := ho.terminal hlog hlive hreturned
    have hne : o.received ≠ [] := by
      rintro hnil
      rw [hnil] at hs
      cases hs
    refine ⟨final, hfinal, (ho.writers.logs.row job final hfinal).1 ▸ hterm, ?_⟩
    rw [SnapshotCodec.wait, if_neg (by simp [hlive]), SnapshotCodec.events_body hlawful hplain,
      Option.map_some, List.getLast_cons hne, ← List.getLast?_eq_some_getLast hne, hs]
  · obtain ⟨k, hk⟩ := SnapshotCodec.events_take hlawful hplain n
    rw [SnapshotCodec.wait, if_neg (by simp [hlive]), hk, Option.map_some] at hwait
    obtain rfl := Option.some.inj hwait
    -- the snapshot is in the log
    have hmem : ∃ r, o.writers.db.logOf job r =
        some ((row.snapshot :: o.received.take k).getLast (List.cons_ne_nil _ _)) := by
      rcases List.mem_cons.mp (List.getLast_mem (List.cons_ne_nil row.snapshot (o.received.take k)))
        with heq | hmem
      · refine ⟨row.snapshot.revision, ?_⟩
        rw [heq]
        exact hlog
      · obtain ⟨i, hi⟩ := List.mem_iff_getElem?.mp (List.mem_of_mem_take hmem)
        exact ⟨_, hfollows.getElem hi⟩
    obtain ⟨r, hr⟩ := hmem
    have hterm := terminal_of_exitCode ho.writers.logs hr hexit
    obtain ⟨final, hfinal, -, -⟩ := ho.writers.logs.row_of_log hr
    obtain ⟨hsnapshot, -, hstate⟩ := ho.writers.logs.row_of_terminal hfinal hr hterm
    exact ⟨final, hfinal, hstate, hsnapshot⟩

/-- The snapshot of a job that could not be started, and its text. -/
def failedSnapshot : JobSnapshot where
  jobId := 7
  revision := 2
  state := .failed
  kind := .statelessTraffic
  submittedSpecDigest := "sha256:00"
  submittedAt := 0
  finishedAt := some 5
  phase := some { name := "failed" }
  progress := some { completed := 0, total := none }
  problem := some { code := "TREX_ERROR", category := "ENGINE", message := "could not start" }

def failedText : Text := List.flatten (List.map String.toList [
    "\x7b\"jobId\":\"7\",\"revision\":2,\"state\":\"FAILED\",",
    "\"kind\":\"StatelessTraffic\",",
    "\"submittedSpecDigest\":\"sha256:00\",",
    "\"submittedAt\":\"1970-01-01T00:00:00Z\",",
    "\"finishedAt\":\"1970-01-01T00:00:05Z\",",
    "\"phase\":\x7b\"name\":\"failed\",\"detail\":\x7b\x7d\x7d,",
    "\"progress\":\x7b\"completed\":0\x7d,",
    "\"cancelRequested\":false,",
    "\"problem\":\x7b\"code\":\"TREX_ERROR\",",
    "\"category\":\"ENGINE\",\"retryable\":false,",
    "\"message\":\"could not start\",\"details\":\x7b\x7d\x7d\x7d"])

/-- A codec of that snapshot. -/
def failedCodec : SnapshotCodec where
  render _ := failedText
  parse text := if text = failedText then some failedSnapshot else none

/-- The agent of the example, and a job of it. -/
def failingConfig : AgentConfig :=
  ⟨1, "1", "1", "simulated", true, fun _ => "", fun _ => "sha256:00"⟩

def failingSubmission : WriterAction :=
  .submit 7 ⟨.statelessTraffic, [0, 1], 300000, 600000, "[]"⟩ "user" "key" none 0

/-- The job fails while it is observed. -/
def failingActions : List ObservationAction :=
  [.observe, .observe, .writer (.transition 7 (.fail
      { code := "TREX_ERROR", category := "ENGINE", message := "could not start" } none 5)),
    .writer (.resume 0), .writer (.resume 0), .writer (.resume 0), .observe, .observe, .observe]

/-- The text is printable ASCII. -/
theorem failedText_printable : ∀ c ∈ failedText, 32 ≤ c.toNat ∧ c.toNat ≤ 126 := by
  have hall : failedText.all (fun c => decide (32 ≤ c.toNat ∧ c.toNat ≤ 126)) = true := by
    decide +kernel
  exact fun c hc => of_decide_eq_true (List.all_eq_true.mp hall c hc)

theorem wait_follows_failed :
    ∃ last, last.revision = 1 ∧ Awaits failedCodec 7 last
      (Observation.run failingConfig 7 (some 1) [failingSubmission] failingActions) := by
  have hreceived : (Observation.run failingConfig 7 (some 1) [failingSubmission]
      failingActions).received = [failedSnapshot] := rfl
  obtain ⟨row, hrow, hrevision, hlive⟩ : ∃ row, (Writers.run failingConfig
      [failingSubmission]).db.jobs.get 7 = some row ∧ row.snapshot.revision = 1 ∧
        row.snapshot.state.terminal = false := ⟨_, rfl, rfl, rfl⟩
  have hrender : ∀ s, failedCodec.render s = failedText := fun _ => rfl
  have hwait := wait_follows failedCodec failingConfig hrow hlive [] failingActions
  have hone : ((1 : Nat) : Int) = 1 := rfl
  rw [List.append_nil, hrevision, hone] at hwait
  refine ⟨row.snapshot, hrevision, (hwait fun s hs => ⟨?_, ?_⟩).2 fun s _ => ?_⟩
  · rw [hreceived] at hs
    rw [List.mem_singleton.mp hs, hrender]
    simp only [failedCodec, if_true]
  · rw [hrender]
    exact fun c hc => (failedText_printable c hc).1
  · rw [hrender]
    intro c hc
    have hle := (failedText_printable c hc).2
    simp only [List.mem_cons, List.not_mem_nil, or_false]
    omega

end TrexCli
