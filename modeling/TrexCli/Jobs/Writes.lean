import Mathlib.Data.Set.Basic
import TrexCli.Jobs.Transition
import TrexCli.Store.EventLog

/-!
# What a job coroutine writes to an event log

Three things write to `jobs`: `submit` stores the first snapshot, a cancel request copies the current
one with the flag set, and `_transition` applies a caller's fields to a snapshot it has read
(`Writes`). The last happens in another transaction than the read, so a coroutine is held to a
contract: it writes only over a snapshot that it knows to be in the log (`logContract`). The compare
and swap on the revision then makes that snapshot the current one.
-/

namespace TrexCli

/-- The snapshot `submit` stores. -/
def acceptedSnapshot (job : JobId) (kind : JobKind) (digest : String) (retryOf : Option JobId)
    (now : Instant) : JobSnapshot where
  jobId := job
  revision := 1
  state := .accepted
  kind := kind
  submittedSpecDigest := digest
  retryOf := retryOf
  submittedAt := now
  phase := some { name := "accepted" }
  progress := some { completed := 0, total := none }

/-- The store's part of `submit`: the stored snapshot, and whether the job is new. -/
def submit (config : AgentConfig) (db : Db) (job : JobId) (document : JobDocument)
    (principal idempotencyKey : String) (retryOf : Option JobId) (now : Instant) :
    Except Exc (JobSnapshot × Bool) × Db :=
  db.createJob
    (acceptedSnapshot job document.kind (config.sha256Text document.canonical) retryOf now)
    principal idempotencyKey document retryOf

/-- The snapshot is the first of a job. -/
def Accepted (s : JobSnapshot) : Prop :=
  ∃ job kind digest retryOf now, s = acceptedSnapshot job kind digest retryOf now

/-- The snapshots that can be written over `s`. -/
inductive Writes (s : JobSnapshot) : JobSnapshot → Prop where
  | transition (site : CallSite) (h : site.request.Admits s) : Writes s (site.request.apply s)
  | cancel (h : s.state.terminal = false) : Writes s (Db.cancelRequestedOf s)

/-- Every event log is a chain of writes. -/
abbrev WrittenLogs (db : Db) : Prop := Db.Logged Accepted Writes db

/-- The view of a coroutine: snapshots that it knows to be in their job's log. -/
abbrev Known := Set JobSnapshot

namespace Known

def Holds (known : Known) (db : Db) : Prop := ∀ s ∈ known, db.logOf s.jobId s.revision = some s

theorem Holds.extends {known : Known} {db db' : Db} (h : known.Holds db) (hext : db.Extends db') :
    known.Holds db' := fun s hs => hext _ _ _ (h s hs)

theorem holds_empty (db : Db) : Holds ∅ db := fun _ hs => hs.elim

end Known

/-- The transaction writes a caller's fields over a known snapshot, if it writes to a log. -/
def WritesOver (known : Known) : StoreCall → Prop
  | .updateSnapshot s expectedRevision _ _ => ∃ a ∈ known, a.revision = expectedRevision ∧
    ∃ site : CallSite, site.request.Admits a ∧ s = site.request.apply a
  | _ => True

/-- What a coroutine learns from the answer of a store method. -/
def Learns (known' : Known) : (c : StoreCall) → Except Exc c.Res → Prop
  | .getSnapshot job, .ok s => s ∈ known' ∧ s.jobId = job
  | .updateSnapshot s .., .ok _ => s ∈ known'
  | .listNonterminal, .ok snapshots => (snapshots.map JobSnapshot.jobId).Nodup ∧
    ∀ s ∈ snapshots, s ∈ known' ∧ s.state.terminal = false
  | .getExecutionMarker job, .ok marker => ∀ m, marker = some m → m.jobId = job
  | .listExecutionMarkers, .ok markers => (markers.map ExecutionMarker.jobId).Nodup
  | _, _ => True

/-- The exceptions that a store method raises to a coroutine that knows snapshots. -/
def StoreCall.Raises (known : Known) : StoreCall → Exc → Prop
  | .getSnapshot job, _ | .getDocument job, _ => ∀ s ∈ known, s.jobId ≠ job
  | .updateSnapshot .., e => e = .revisionConflict
  | .acquirePorts .., e => ∃ error, e = .trexCli error
  | _, _ => False

/-- Coroutines write over snapshots they know, and what they know stays in the log. -/
def logContract : Coroutine.Contract Site Call Call.Res Exc Known where
  pre known _
    | .store c => WritesOver known c
    | _ => True
  post known _ c r known' := known ⊆ known' ∧
    match c, r with
    | .store c, r => Learns known' c r
    | _, _ => True

theorem snapshot_in_log {db : Db} (h : WrittenLogs db) {job : JobId} {row : JobRow}
    (hrow : db.jobs.get job = some row) :
    row.snapshot.jobId = job ∧
      db.logOf row.snapshot.jobId row.snapshot.revision = some row.snapshot := by
  obtain ⟨-, hrev, hjob, -⟩ := h.row job row hrow
  rw [hjob, ← hrev]
  exact ⟨rfl, h.last job row hrow⟩

/-- The listed jobs are pairwise distinct. -/
theorem nodup_listNonterminal {db : Db} (h : WrittenLogs db) :
    (db.listNonterminal.map JobSnapshot.jobId).Nodup := by
  have hperm := List.perm_insertionSort Db.Before (db.jobs.rows.filter fun r => !r.state.terminal)
  have hkeys : (db.listNonterminal.map JobSnapshot.jobId).Perm
      ((db.jobs.rows.filter fun r => !r.state.terminal).map JobRow.jobId) := by
    rw [Db.listNonterminal, List.map_map]
    refine (hperm.map _).trans (List.Perm.of_eq (List.map_congr_left fun row hrow => ?_))
    have hget := db.jobs.mem_rows.mp (List.mem_of_mem_filter hrow)
    exact (h.row _ row hget).2.2.1
  exact hkeys.nodup_iff.mpr (db.jobs.nodup.sublist (List.filter_sublist.map _))

/-- What the answer of a store method tells a coroutine that knew `known`. -/
structure Answered (known : Known) (db' : Db) (c : StoreCall) (r : Except Exc c.Res)
    (known' : Known) : Prop where
  grows : known ⊆ known'
  learns : Learns known' c r
  holds : known'.Holds db'
  raises : ∀ e, r = .error e → c.Raises known e

theorem exec_log_of_eq {db : Db} {known known' : Known} (h : WrittenLogs db) (c : StoreCall)
    (hjobs : (c.exec db).2.jobs = db.jobs) (hevents : (c.exec db).2.events = db.events)
    (hsub : known ⊆ known') (hlearn : Learns known' c (c.exec db).1) (hknown : known'.Holds db)
    (hraises : ∀ e, (c.exec db).1 = .error e → c.Raises known e) :
    WrittenLogs (c.exec db).2 ∧ db.Extends (c.exec db).2 ∧
      ∃ known', Answered known (c.exec db).2 c (c.exec db).1 known' := by
  have hext : db.Extends (c.exec db).2 := by
    intro j r s hs
    rwa [Db.logOf, hevents]
  exact ⟨h.of_eq hjobs hevents, hext, known', hsub, hlearn, hknown.extends hext, hraises⟩

/-- Only a job of which no snapshot is known can have no row. -/
theorem ne_of_no_row {db : Db} {known : Known} (h : WrittenLogs db) (hknown : known.Holds db)
    {job : JobId} (hrow : db.jobs.get job = none) : ∀ s ∈ known, s.jobId ≠ job := by
  rintro s hs rfl
  obtain ⟨row, hrow', -⟩ := h.row_of_log (hknown s hs)
  rw [hrow] at hrow'
  cases hrow'

/-- A store method that writes over known snapshots keeps the logs, and answers as the contract
says. -/
theorem exec_written {db : Db} {known : Known} (h : WrittenLogs db) (hknown : known.Holds db)
    (c : StoreCall) (hc : WritesOver known c) :
    WrittenLogs (c.exec db).2 ∧ db.Extends (c.exec db).2 ∧
      ∃ known', Answered known (c.exec db).2 c (c.exec db).1 known' := by
  cases c with
  | getSnapshot job =>
    cases hrow : db.jobs.get job with
    | none =>
      refine exec_log_of_eq h _ rfl rfl subset_rfl ?_ hknown
        fun _ _ => ne_of_no_row h hknown hrow
      simp [StoreCall.exec, Db.getSnapshot, Db.jobRow, hrow, Except.map, Learns]
    | some row =>
      obtain ⟨hjob, hlog⟩ := snapshot_in_log h hrow
      refine exec_log_of_eq h _ rfl rfl (Set.subset_insert row.snapshot known) ?_ ?_ ?_
      · simp [StoreCall.exec, Db.getSnapshot, Db.jobRow, hrow, Except.map, Learns, hjob]
      · rintro s (rfl | hs)
        · exact hlog
        · exact hknown s hs
      · simp [StoreCall.exec, Db.getSnapshot, Db.jobRow, hrow, Except.map]
  | getDocument job =>
    refine exec_log_of_eq h _ rfl rfl subset_rfl trivial hknown fun e he => ?_
    cases hrow : db.jobs.get job with
    | none => exact ne_of_no_row h hknown hrow
    | some row => simp [StoreCall.exec, Db.getDocument, Db.jobRow, hrow, Except.map] at he
  | updateSnapshot s expectedRevision eventType resolvedSpecJson =>
    obtain ⟨a, ha, harev, site, hadm, rfl⟩ := hc
    have hcase := db.updateSnapshot_cases (site.request.apply a) expectedRevision eventType
      resolvedSpecJson
    simp only [StoreCall.exec]
    generalize db.updateSnapshot _ _ _ _ = x at hcase
    cases hcase with
    | conflict =>
      refine ⟨h, Db.Extends.refl db, known, subset_rfl, trivial, hknown, ?_⟩
      rintro e ⟨⟩
      rfl
    | taken row hrow hrev htaken =>
      -- the revision after the row's is free
      obtain ⟨row', hrow', -, hle⟩ := (h.revisions _ _).mp htaken
      obtain rfl := Option.some.inj (hrow.symm.trans hrow')
      have hnext : (site.request.apply a).revision = row.revision + 1 := by
        rw [hrev, ← harev]
        rfl
      omega
    | updated db' row hrow hrev happ =>
      -- the row is at the revision of `a`, so `a` is its snapshot
      have hrow' : db.jobs.get a.jobId = some row := hrow
      have hlast := h.last _ row hrow'
      rw [hrev, ← harev, hknown a ha] at hlast
      obtain rfl := Option.some.inj hlast
      refine ⟨?_, happ.extends, insert (site.request.apply row.snapshot) known,
        Set.subset_insert _ _, Set.mem_insert _ _, ?_, nofun⟩
      · refine h.append happ hrow ?_ (.transition site hadm)
        rw [hrev, ← harev]
        rfl
      · rintro x (rfl | hx)
        · rw [happ.log, if_pos ⟨rfl, rfl⟩]
        · exact happ.extends _ _ _ (hknown x hx)
  | listNonterminal =>
    refine exec_log_of_eq h _ rfl rfl (Set.subset_union_left (t := {s | s ∈ db.listNonterminal}))
      ?_ ?_ nofun
    · refine ⟨nodup_listNonterminal h, fun s hs => ?_⟩
      obtain ⟨row, hrow, hterm, rfl⟩ := Db.mem_listNonterminal.mp hs
      exact ⟨.inr hs, by rw [← (h.row _ row hrow).1]; exact hterm⟩
    · rintro s (hs | hs)
      · exact hknown s hs
      · obtain ⟨row, hrow, -, rfl⟩ := Db.mem_listNonterminal.mp hs
        exact (snapshot_in_log h hrow).2
  | acquirePorts job ports =>
    refine exec_log_of_eq h _ rfl rfl subset_rfl trivial hknown fun e he => ?_
    simp only [StoreCall.exec] at he
    generalize (db.leases.acquirePorts job ports).1 = r at he
    cases r with
    | error error => exact ⟨error, (Except.error.inj he).symm⟩
    | ok fence => cases he
  | getExecutionMarker job =>
    exact exec_log_of_eq h _ rfl rfl subset_rfl (fun m hm => db.markers.key_of_get hm) hknown nofun
  | listExecutionMarkers =>
    exact exec_log_of_eq h _ rfl rfl subset_rfl db.markers.nodup hknown nofun
  | _ => exact exec_log_of_eq h _ rfl rfl subset_rfl trivial hknown nofun

theorem submit_written {db : Db} (h : WrittenLogs db) (config : AgentConfig) (job : JobId)
    (document : JobDocument) (principal idempotencyKey : String) (retryOf : Option JobId)
    (now : Instant) :
    WrittenLogs (submit config db job document principal idempotencyKey retryOf now).2 ∧
      db.Extends (submit config db job document principal idempotencyKey retryOf now).2 := by
  unfold submit
  generalize hs : acceptedSnapshot _ _ _ _ _ = s
  have hcase := db.createJob_cases s principal idempotencyKey document retryOf
  generalize db.createJob s principal idempotencyKey document retryOf = x at hcase
  cases hcase with
  | refused | found => exact ⟨h, Db.Extends.refl db⟩
  | created db' hnew happ =>
    refine ⟨h.create happ hnew ?_ ⟨_, _, _, _, _, hs.symm⟩, happ.extends⟩
    rw [← hs]
    rfl

theorem requestCancel_written {db : Db} (h : WrittenLogs db) (job : JobId)
    (requestId principal reason : String) :
    WrittenLogs (db.requestCancel job requestId principal reason).2 ∧
      db.Extends (db.requestCancel job requestId principal reason).2 := by
  have hcase := db.requestCancel_cases job
    (fun row hrow => ⟨(h.row job row hrow).1, (h.row job row hrow).2.2.1⟩)
    requestId principal reason
  generalize db.requestCancel job requestId principal reason = x at hcase
  cases hcase with
  | refused | kept => exact ⟨h, Db.Extends.refl db⟩
  | requested db' row hrow hlive happ =>
    obtain ⟨-, hrev, hjob, -⟩ := h.row job row hrow
    have hrow' : db.jobs.get (Db.cancelRequestedOf row.snapshot).jobId = some row := by
      rw [← hrow]
      exact congrArg db.jobs.get hjob
    refine ⟨h.append happ hrow' ?_ (.cancel hlive), happ.extends⟩
    rw [hrev]
    rfl

open Coroutine.Py (ok_call_bind ok_tryExcept Ends)

section Rule

variable {V σ : Type} {S : Coroutine.Contract Site Call Call.Res Exc V} {l : Site}
variable {job : JobId} {req : TransitionRequest}

/-- What holds at the end of `_transition`: `N` when it has written nothing and found nothing, and
`K` of the terminal or written snapshot that it returns. -/
def Transitioned (req : TransitionRequest) (N : V → Prop) (K : JobSnapshot → V → Prop) :
    Option JobSnapshot → V → Prop
  | none, v => N v
  | some x, v => K x v ∧ (x.state.terminal = true ∨ x.state = req.state)

/-- What holds after an exception at the write: `_transition` tries again when it lost the race. -/
def Raced (I N : V → Prop) (R : Exc → V → Prop) : Exc → V → Prop
  | .revisionConflict, v => I v ∧ N v
  | e, v => R e v

/-- The rule for `_transition` under any contract. `I` holds before each attempt, `K` of the snapshot
an attempt has read or written, `N` after an attempt that was refused or lost the race, and `R` of
the exceptions that escape. -/
theorem attemptTransition_ends {I N : V → Prop} {K : JobSnapshot → V → Prop} {R : Exc → V → Prop}
    (hget : ∀ v, I v → S.pre v l (.store (.getSnapshot job)) ∧
      ∀ r v', S.post v l (.store (.getSnapshot job)) r v' → Ends K R r v')
    (hrefused : ∀ v x, K x v → x.state.terminal = false → ¬ req.Admits x → N v)
    (hupdate : ∀ v x, K x v → req.Admits x → S.pre v l (.store (req.write x)) ∧
      ∀ r v', S.post v l (.store (req.write x)) r v' →
        Ends (fun _ => K (req.apply x)) (Raced I N R) r v')
    (hnotify : ∀ v x, K x v → S.pre v l .notify ∧
      ∀ r v', S.post v l .notify r v' → Ends (fun _ => K x) (Raced I N R) r v')
    (attempts : Nat) (s : σ) {v : V} (hv : I v) (hn : attempts = 0 → N v) :
    (attemptTransition job req attempts).Ok S l s
      (fun r _ v' => Ends (Transitioned req N K) R r v') v := by
  induction attempts generalizing v with
  | zero => exact hn rfl
  | succ attempts ih =>
    obtain ⟨hpre, hpost⟩ := hget v hv
    rw [attemptTransition]
    refine (ok_call_bind _ _).mpr ⟨hpre, ?_⟩
    rintro (e | current) v₁ hr
    · exact hpost _ _ hr
    have hcurrent : K current v₁ := hpost _ _ hr
    simp only [Coroutine.Py.then_ok]
    split_ifs with hterm hexp hsucc
    · exact ⟨hcurrent, .inl hterm⟩
    · exact hrefused _ _ hcurrent (by simpa using hterm) fun hadm => by simp [hadm.2.1] at hexp
    · exact hrefused _ _ hcurrent (by simpa using hterm) fun hadm => hadm.2.2 hsucc
    · have hadm : req.Admits current := ⟨by simpa using hterm, by simpa using hexp, hsucc⟩
      obtain ⟨hpre₁, hpost₁⟩ := hupdate v₁ current hcurrent hadm
      refine (ok_tryExcept _ _).mpr ((ok_call_bind _ _).mpr ⟨hpre₁, ?_⟩)
      rintro (e | u) v₂ hr₂
      · have he : Raced I N R e v₂ := hpost₁ _ _ hr₂
        cases e with
        | revisionConflict => exact ih he.1 fun _ => he.2
        | _ => exact he
      · obtain ⟨hpre₂, hpost₂⟩ := hnotify v₂ _ (hpost₁ _ _ hr₂)
        refine (ok_call_bind _ _).mpr ⟨hpre₂, ?_⟩
        rintro (e | u) v₃ hr₃
        · have he : Raced I N R e v₃ := hpost₂ _ _ hr₃
          cases e with
          | revisionConflict => exact ih he.1 fun _ => he.2
          | _ => exact he
        · exact ⟨hpost₂ _ _ hr₃, .inr rfl⟩

/-- The rule where one invariant holds all along, whatever escapes. -/
theorem attemptTransition_ok {I : V → Prop} {K : JobSnapshot → V → Prop}
    (hget : ∀ v, I v → S.pre v l (.store (.getSnapshot job)) ∧
      ∀ r v', S.post v l (.store (.getSnapshot job)) r v' → I v' ∧ ∀ x, r = .ok x → K x v')
    (hupdate : ∀ v x, I v → K x v → req.Admits x → S.pre v l (.store (req.write x)) ∧
      ∀ r v', S.post v l (.store (req.write x)) r v' → I v' ∧ (r = .ok () → K (req.apply x) v'))
    (hnotify : ∀ v, I v → S.pre v l .notify ∧
      ∀ r v', S.post v l .notify r v' → I v' ∧ ∀ x, K x v → K x v')
    (s : σ) {v : V} (hv : I v) :
    (attemptTransition job req 3).Ok S l s (fun r _ v' => I v' ∧
      ∀ x, r = .ok (some x) → K x v' ∧ (x.state.terminal = true ∨ x.state = req.state)) v := by
  have hraced : ∀ {e v}, I v → Raced I I (fun _ => I) e v := by
    intro e v hv
    cases e with
    | revisionConflict => exact ⟨hv, hv⟩
    | _ => exact hv
  refine (attemptTransition_ends (I := I) (N := I) (K := fun x v => I v ∧ K x v) (R := fun _ => I)
    ?_ (fun _ _ h _ _ => h.1) ?_ ?_ 3 s hv fun _ => hv).mono ?_
  · refine fun v hv => ⟨(hget v hv).1, ?_⟩
    rintro (e | x) v' hr
    · exact ((hget v hv).2 _ _ hr).1
    · have hx := (hget v hv).2 _ _ hr
      exact ⟨hx.1, hx.2 x rfl⟩
  · refine fun v x hx hadm => ⟨(hupdate v x hx.1 hx.2 hadm).1, ?_⟩
    rintro (e | u) v' hr
    · exact hraced ((hupdate v x hx.1 hx.2 hadm).2 _ _ hr).1
    · have hw := (hupdate v x hx.1 hx.2 hadm).2 _ _ hr
      exact ⟨hw.1, hw.2 rfl⟩
  · refine fun v x hx => ⟨(hnotify v hx.1).1, ?_⟩
    rintro (e | u) v' hr
    · exact hraced ((hnotify v hx.1).2 _ _ hr).1
    · have hk := (hnotify v hx.1).2 _ _ hr
      exact ⟨hk.1, hk.2 x hx.2⟩
  · rintro (e | _ | x) _ v' h
    · exact ⟨h, by simp⟩
    · exact ⟨h, by simp⟩
    · refine ⟨h.1.1, fun y hy => ?_⟩
      obtain rfl : x = y := by simpa using hy
      exact ⟨h.1.2, h.2⟩

end Rule

/-- `_transition` writes only over the snapshot it has read. -/
theorem transition_written {σ : Type} (job : JobId) (site : CallSite) :
    (transition job site : Async σ _).Safe logContract fun _ _ => True := by
  intro l s known _
  refine (attemptTransition_ok (I := fun _ => True) (K := fun x known => x ∈ known)
    ?_ ?_ ?_ s trivial).mono fun _ _ _ h => h.1
  · refine fun v _ => ⟨trivial, fun r v' hr => ⟨trivial, ?_⟩⟩
    rintro x rfl
    exact hr.2.1
  · refine fun v x _ hx hadm => ⟨⟨x, hx, rfl, site, hadm, rfl⟩, fun r v' hr => ⟨trivial, ?_⟩⟩
    rintro rfl
    exact hr.2
  · exact fun v _ => ⟨trivial, fun r v' hr => ⟨trivial, fun x hx => hr.1 hx⟩⟩

end TrexCli
