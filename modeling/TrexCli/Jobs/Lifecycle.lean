import TrexCli.Jobs.EventLogs
import TrexCli.Jobs.TaskContract

/-!
# The lifecycle of a job

`Follows` are the edges of the lifecycle diagram, and `LifecyclePath` says that every event log is a
path of it. Most callers of `_transition` name the states they expect, so what they write follows the
diagram whatever it is written over. `_phase` and `_finish_cancel` expect the state they have just
read. For `_phase` that is the state the task has left the job in, since nobody else moves a job whose
execution is live. `_finish_cancel` ignores that its drain step can be refused, and then goes on to
collect from any state: `D` stands for the assumption that this does not happen.
-/

namespace TrexCli

open Coroutine.Py (safe_call safe_pure safe_raise ok_bind ok_tryExcept ok_tryFinally Ends)
open Relation (ReflTransGen)

/-- The main path of the diagram. -/
def JobState.next : JobState → Option JobState
  | accepted => some validating
  | validating => some waitingForPorts
  | waitingForPorts => some preparing
  | preparing => some warmingUp
  | warmingUp => some running
  | running => some draining
  | draining => some collecting
  | collecting => some succeeded
  | _ => none

/-- The edges of the diagram, from one revision to the next. -/
inductive Follows (s s' : JobSnapshot) : Prop where
  | repeats (h : s'.state = s.state)
  | advances (h : s.state.next = some s'.state)
  | fails (hlive : s.state.terminal = false) (h : s'.state = .failed)
  | drains (hcancel : s.cancelRequested = true) (hlive : s.state.terminal = false)
    (h : s'.state = .draining)
  | cancels (hcancel : s.cancelRequested = true) (hs : s.state = .collecting)
    (h : s'.state = .cancelled)

/-- The job drains with a cancel request. -/
def CancelDrains (s : JobSnapshot) : Prop := s.state = .draining ∧ s.cancelRequested = true

/-- Every event log is a path of the diagram. -/
structure LifecyclePath (db : Db) : Prop where
  first : ∀ j s, db.logOf j 1 = some s → s.state = .accepted
  edge : ∀ j r s s', db.logOf j r = some s → db.logOf j (r + 1) = some s' → Follows s s'
  cancelled : ∀ j r s, db.logOf j r = some s → s.state = .cancelled →
    ∃ r₁ r₂ b c, r₁ < r₂ ∧ r₂ < r ∧ db.logOf j r₁ = some b ∧ CancelDrains b ∧
      db.logOf j r₂ = some c ∧ c.state = .collecting ∧ c.cancelRequested = true

variable {D : Prop}

/-- A write that follows the diagram if `D` holds. -/
def Moves (D : Prop) (s s' : JobSnapshot) : Prop := Writes s s' ∧ (D → Follows s s')

/-- What a run keeps of the event logs. -/
structure Paths (D : Prop) (db : Db) : Prop where
  logs : Db.Logged Accepted (Moves D) db
  cancelled : D → ∀ j r s, db.logOf j r = some s → s.state = .cancelled →
    ∃ r₁ b, r₁ < r ∧ db.logOf j r₁ = some b ∧ CancelDrains b

theorem Paths.written {db : Db} (h : Paths D db) : WrittenLogs db := h.logs.mono fun _ _ hw => hw.1

theorem Paths.path {db : Db} (h : Paths D db) (hD : D) : LifecyclePath db where
  first j s hs := by
    obtain ⟨job, kind, digest, retryOf, now, rfl⟩ := h.logs.first j s hs
    rfl
  edge j r s s' hs hs' := (h.logs.next j r s s' hs hs').2 hD
  cancelled j r s hs hstate := by
    obtain ⟨r₁, b, hlt, hb, hdrains⟩ := h.cancelled hD j r s hs hstate
    obtain ⟨r₂, rfl⟩ : ∃ r₂, r = r₂ + 1 := ⟨r - 1, by omega⟩
    obtain ⟨row, hrow, -, hle⟩ := h.logs.row_of_log hs
    obtain ⟨-, -, hpos, -⟩ := h.logs.row_of_log hb
    obtain ⟨c, hc⟩ := Option.isSome_iff_exists.mp
      ((h.logs.revisions j r₂).mpr ⟨row, hrow, by omega, by omega⟩)
    obtain ⟨hw, hfollows⟩ := h.logs.next j r₂ c s hc hs
    have hcollecting : c.state = .collecting ∧ c.cancelRequested = true := by
      have hlive := hw.live
      cases hfollows hD with
      | repeats hsame =>
        rw [← hsame, hstate] at hlive
        cases hlive
      | advances hnext =>
        rw [hstate] at hnext
        revert hnext
        cases c.state <;> simp [JobState.next]
      | fails _ hfailed | drains _ _ hfailed =>
        rw [hstate] at hfailed
        cases hfailed
      | cancels hcancel hcoll => exact ⟨hcoll, hcancel⟩
    refine ⟨r₁, r₂, b, c, ?_, by omega, hb, hdrains, hc, hcollecting⟩
    -- the drain is another revision than the collection
    obtain hlt' | rfl : r₁ < r₂ ∨ r₁ = r₂ := by omega
    · exact hlt'
    · obtain rfl := Option.some.inj (hb.symm.trans hc)
      rw [hdrains.1] at hcollecting
      cases hcollecting.1

/-- Once a job drains with a cancel request it drains, collects or has ended. -/
theorem drains_chain (hD : D) {b x : JobSnapshot} (hb : CancelDrains b)
    (h : ReflTransGen (Moves D) b x) :
    x.state = .draining ∨ x.state = .collecting ∨ x.state.terminal = true := by
  have hall : x.cancelRequested = true ∧
      (x.state = .draining ∨ x.state = .collecting ∨ x.state.terminal = true) := by
    induction h with
    | refl => exact ⟨hb.2, .inl hb.1⟩
    | tail _ hm ih =>
      obtain ⟨hcancel, hstate⟩ := ih
      obtain ⟨hcancel', hne⟩ := hm.1.cancelRequested hcancel
      refine ⟨hcancel', ?_⟩
      have hlive := hm.1.live
      cases hm.2 hD with
      | repeats hsame => rwa [hsame]
      | advances hnext =>
        obtain hs | hs | hs := hstate
        · rw [hs] at hnext
          exact .inr (.inl (Option.some.inj hnext).symm)
        · rw [hs] at hnext
          exact absurd (Option.some.inj hnext).symm hne
        · rw [hs] at hlive
          cases hlive
      | fails _ hs | cancels _ _ hs =>
        rw [hs]
        exact .inr (.inr rfl)
      | drains _ _ hs => exact .inl hs
  exact hall.2

theorem Writes.of_moves {s s' : JobSnapshot} (h : ReflTransGen (Moves D) s s') :
    ReflTransGen Writes s s' := h.lift id fun _ _ hm => hm.1

/-- What the callers write that name the states they expect. -/
theorem follows_of_plain {site : CallSite} (hsite : site.Plain) {s : JobSnapshot}
    (hadm : site.request.Admits s) :
    Follows s (site.request.apply s) ∧ site.request.state ≠ .cancelled := by
  have hexpects := hadm.2.1
  cases site with
  | phase | cancelDrain | cancelCollection | cancelled => exact hsite.elim
  | fail => exact ⟨.fails hadm.1 rfl, by simp [CallSite.request]⟩
  | runProgress =>
    have hs : s.state = .running := by
      simpa [CallSite.request, TransitionRequest.expects] using hexpects
    exact ⟨.repeats hs.symm, by simp [CallSite.request]⟩
  | _ =>
    refine ⟨.advances ?_, by simp [CallSite.request]⟩
    simp only [CallSite.request, TransitionRequest.expects, List.mem_singleton,
      decide_eq_true_eq] at hexpects
    rw [hexpects]
    rfl

/-! ### Store methods -/

/-- The transaction writes a caller's fields over a known snapshot, along the diagram if `D` holds. -/
def MovesOver (D : Prop) (known : Known) : StoreCall → Prop
  | .updateSnapshot s expectedRevision _ _ => ∃ a ∈ known, a.revision = expectedRevision ∧
    (∃ site : CallSite, site.request.Admits a ∧ s = site.request.apply a) ∧
    (D → Follows a s ∧
      (s.state = .cancelled → ∃ b ∈ known, b.jobId = s.jobId ∧ CancelDrains b))
  | _ => True

theorem MovesOver.writesOver {known : Known} {c : StoreCall} (h : MovesOver D known c) :
    WritesOver known c := by
  cases c with
  | updateSnapshot s =>
    obtain ⟨a, ha, hrev, hsite, -⟩ := h
    exact ⟨a, ha, hrev, hsite⟩
  | _ => trivial

theorem MovesOver.imp {D' : Prop} {known : Known} {c : StoreCall} (h : MovesOver D known c)
    (hD : D' → D) : MovesOver D' known c := by
  cases c with
  | updateSnapshot s =>
    obtain ⟨a, ha, hrev, hsite, hfollows⟩ := h
    exact ⟨a, ha, hrev, hsite, fun hD' => hfollows (hD hD')⟩
  | _ => trivial

/-- A transaction that succeeds at the revision of a known snapshot is over that snapshot. -/
theorem known_of_row {db : Db} {known : Known} (h : WrittenLogs db) (hknown : known.Holds db)
    {a : JobSnapshot} (ha : a ∈ known) {row : JobRow} (hrow : db.jobs.get a.jobId = some row)
    (hrev : row.revision = a.revision) : row.snapshot = a := by
  have hlast := h.last _ row hrow
  rw [hrev, hknown a ha] at hlast
  exact (Option.some.inj hlast).symm

theorem Paths.append {db db' : Db} {s : JobSnapshot} {row : JobRow} (h : Paths D db)
    (happ : Db.Appended db db' s) (hrow : db.jobs.get s.jobId = some row)
    (hrev : s.revision = row.revision + 1) (hm : Moves D row.snapshot s)
    (hcancelled : D → s.state = .cancelled → ∃ r₁ b, r₁ < s.revision ∧
      db.logOf s.jobId r₁ = some b ∧ CancelDrains b) : Paths D db' where
  logs := h.logs.append happ hrow hrev hm
  cancelled hD j r x hx hstate := by
    rw [happ.log] at hx
    split at hx
    · rename_i hjr
      obtain rfl := Option.some.inj hx
      obtain ⟨r₁, b, hlt, hb, hdrains⟩ := hcancelled hD hstate
      rw [hjr.1, hjr.2]
      exact ⟨r₁, b, hlt, happ.extends _ _ _ hb, hdrains⟩
    · obtain ⟨r₁, b, hlt, hb, hdrains⟩ := h.cancelled hD j r x hx hstate
      exact ⟨r₁, b, hlt, happ.extends _ _ _ hb, hdrains⟩

theorem Paths.of_eq {db db' : Db} (h : Paths D db) (hjobs : db'.jobs = db.jobs)
    (hevents : db'.events = db.events) : Paths D db' where
  logs := h.logs.of_eq hjobs hevents
  cancelled hD j r s hs hstate := by
    have hlog : db'.logOf = db.logOf := by
      funext j r
      rw [Db.logOf, hevents, Db.logOf]
    rw [hlog] at hs ⊢
    exact h.cancelled hD j r s hs hstate

/-- A store method that moves jobs along the diagram keeps the paths. -/
theorem Paths.exec {db : Db} {known : Known} (h : Paths D db) (hknown : known.Holds db)
    {c : StoreCall} (hc : MovesOver D known c) : Paths D (c.exec db).2 := by
  cases c with
  | updateSnapshot s expectedRevision eventType resolvedSpecJson =>
    obtain ⟨a, ha, harev, ⟨site, hadm, rfl⟩, hfollows⟩ := hc
    have hcase := db.updateSnapshot_cases (site.request.apply a) expectedRevision eventType
      resolvedSpecJson
    simp only [StoreCall.exec]
    generalize db.updateSnapshot _ _ _ _ = x at hcase
    cases hcase with
    | conflict | taken => exact h
    | updated db' row hrow hrev happ =>
      have hrow' : db.jobs.get a.jobId = some row := hrow
      obtain rfl := known_of_row h.written hknown ha hrow' (hrev.trans harev.symm)
      have hnext : (site.request.apply row.snapshot).revision = row.revision + 1 := by
        rw [hrev, ← harev]
        rfl
      refine h.append happ hrow hnext ⟨.transition site hadm, fun hD => (hfollows hD).1⟩
        fun hD hstate => ?_
      obtain ⟨b, hb, hjob, hdrains⟩ := (hfollows hD).2 hstate
      have hlog := hknown b hb
      rw [hjob] at hlog
      obtain ⟨row', hrow'', -, hle⟩ := h.logs.row_of_log hlog
      obtain rfl := Option.some.inj (hrow''.symm.trans hrow)
      exact ⟨b.revision, b, by omega, hlog, hdrains⟩
  | _ => exact h.of_eq rfl rfl

theorem Paths.submit {db : Db} (h : Paths D db) (config : AgentConfig) (job : JobId)
    (document : JobDocument) (principal idempotencyKey : String) (retryOf : Option JobId)
    (now : Instant) :
    Paths D (submit config db job document principal idempotencyKey retryOf now).2 := by
  unfold TrexCli.submit
  generalize hs : acceptedSnapshot _ _ _ _ _ = s
  have hcase := db.createJob_cases s principal idempotencyKey document retryOf
  generalize db.createJob s principal idempotencyKey document retryOf = x at hcase
  cases hcase with
  | refused | found => exact h
  | created db' hnew happ =>
    refine ⟨h.logs.create happ hnew ?_ ⟨_, _, _, _, _, hs.symm⟩, fun hD j r x hx hstate => ?_⟩
    · rw [← hs]
      rfl
    · rw [happ.log] at hx
      split at hx
      · obtain rfl := Option.some.inj hx
        rw [← hs] at hstate
        cases hstate
      · obtain ⟨r₁, b, hlt, hb, hdrains⟩ := h.cancelled hD j r x hx hstate
        exact ⟨r₁, b, hlt, happ.extends _ _ _ hb, hdrains⟩

theorem Paths.requestCancel {db : Db} (h : Paths D db) (job : JobId)
    (requestId principal reason : String) :
    Paths D (db.requestCancel job requestId principal reason).2 := by
  have hcase := db.requestCancel_cases job
    (fun row hrow => ⟨(h.logs.row job row hrow).1, (h.logs.row job row hrow).2.2.1⟩)
    requestId principal reason
  generalize db.requestCancel job requestId principal reason = x at hcase
  cases hcase with
  | refused | kept => exact h
  | requested db' row hrow hlive happ =>
    obtain ⟨-, hrev, hjob, -⟩ := h.logs.row job row hrow
    have hrow' : db.jobs.get (Db.cancelRequestedOf row.snapshot).jobId = some row := by
      rw [← hrow]
      exact congrArg db.jobs.get hjob
    refine h.append happ hrow' ?_ ⟨.cancel hlive, fun _ => .repeats rfl⟩ fun _ hstate => ?_
    · rw [hrev]
      rfl
    · rw [show row.snapshot.state = .cancelled from hstate] at hlive
      cases hlive

end TrexCli
