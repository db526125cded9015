import TrexCli.Jobs.Rules

/-!
# What a task calls

`taskContract` holds of every task, however it is interrupted. A task concerns itself with its own
job and writes over snapshots it knows. Its view records two debts: `marked`, that the job's marker
may be stored, and `holding`, that the ports of the job may not be released. While it is marked a
task releases ports only into quarantine, and once it has started it does not end with a debt.

An interruption of the cleanup itself, at the `finally` block of `_execute`, discharges the debts in
the view without anything happening in the store: which interruptions are harmless is not a matter
of the text, and the results that rest on the view say which they exclude.
-/

namespace TrexCli

open Coroutine.Py (safe_call safe_pure safe_raise safe_assign safe_locals ok_call_bind ok_bind
  ok_tryExcept ok_tryFinally Ends)

namespace TaskKind

def isExecute : TaskKind → Bool
  | execute _ => true
  | _ => false

def isReport : TaskKind → Bool
  | reportProgress .. => true
  | _ => false

end TaskKind

/-- The exceptions that a call itself raises. -/
def Call.Raises (known : Known) : Call → Exc → Prop
  | .store c, e => c.Raises known e
  | .engine _, e | .validatePolicy _, e | .validateCalibration _, e | .recordCalibrations .., e
  | .buildResultBundle .., e => e.isException = true
  | _, _ => False

/-- The exceptions thrown into a task that is suspended in a call. -/
def Thrown (l : Site) (c : Call) (e : Exc) : Prop :=
  c.suspends = true ∧ (e = .cancelled ∨ e = .expired ∧ l ≠ .timedOut)

theorem Thrown.not_isException {l : Site} {c : Call} {e : Exc} (h : Thrown l c e) :
    e.isException = false := by
  obtain ⟨-, rfl | ⟨rfl, -⟩⟩ := h <;> rfl

/-- What a task knows and owes. -/
structure TaskView where
  known : Known := ∅
  started : Bool := false
  /-- The marker of the job may be stored. -/
  marked : Bool := false
  /-- The ports of the job have not been released. -/
  holding : Bool := true

namespace TaskView

/-- The view after an exception that no `except Exception` catches. -/
def interrupted (v : TaskView) (l : Site) (c : Call) (e : Exc) : TaskView :=
  { v with
    marked := v.marked && l ≠ .unwinding
    holding := v.holding &&
      match c, l, e with
      -- the transaction runs all the same
      | .store (.releasePorts ..), _, _ => false
      | _, .unwinding, .cancelled | _, .timedOut, .cancelled => false
      | _, _, _ => true }

/-- The view after the result of a call. -/
def answered (v : TaskView) : Call → TaskView
  | .start => { v with started := true }
  | .store (.saveExecutionMarker _) => { v with marked := true }
  | .store (.deleteExecutionMarker _) => { v with marked := false }
  | .store (.releasePorts _ quarantine) =>
    { v with marked := v.marked && !quarantine, holding := false }
  | _ => v

/-- The view after an exception from a call. -/
def failed (v : TaskView) (l : Site) (c : Call) (e : Exc) : TaskView :=
  match c with
  | .store (.saveExecutionMarker _) => { v with marked := true }
  | c => if e.isException then v else v.interrupted l c e

/-- The view after the answer to a call, but for the snapshots. -/
def next (v : TaskView) (l : Site) (c : Call) : Except Exc c.Res → TaskView
  | .ok _ => v.answered c
  | .error e => v.failed l c e

end TaskView

/-- The store methods a task of the job may call. -/
def OwnCall (job : JobId) (kind : TaskKind) (v : TaskView) : StoreCall → Prop
  | .getSnapshot j | .getDocument j => j = job
  | .updateSnapshot s .. => s.jobId = job ∧ (kind.isReport = false → v.started = true) ∧
    (kind.isReport = true →
      s.state = .running ∧ ∃ a ∈ v.known, a.jobId = job ∧ a.state = .running)
  | .releasePorts j quarantine =>
    j = job ∧ kind.isReport = false ∧ (v.marked = true → quarantine = true)
  | .saveExecutionMarker m => m.jobId = job ∧ v.holding = true ∧
    ∃ fence, kind = .execute fence ∧ ∀ p ∈ m.logicalPorts, ∃ g, (p, g) ∈ fence
  | .deleteExecutionMarker j => j = job ∧ kind.isExecute = true
  | _ => False

def taskContract (job : JobId) (kind : TaskKind) :
    Coroutine.Contract Site Call Call.Res Exc TaskView where
  pre v _
    | .store c => WritesOver v.known c ∧ OwnCall job kind v c
    | .isActive _ | .activeCount | .dropDone | .spawn .. => False
    | _ => True
  post v l c r v' := logContract.post v.known l c r v'.known ∧
    v' = { v.next l c r with known := v'.known } ∧
    ∀ e, r = .error e → c.Raises v.known e ∨ Thrown l c e

/-- What a task owes at its end. -/
def Settled (kind : TaskKind) (v : TaskView) : Prop :=
  kind.isReport = false → v.marked = false ∧ (v.started = true → v.holding = false)

section Task

variable {job : JobId} {kind : TaskKind} {l : Site} {σ : Type} {marked holding : Prop}

/-- The task has started and owes at most the given debts. -/
structure Owes (job : JobId) (marked holding : Prop) (v : TaskView) : Prop where
  known : ∃ s ∈ v.known, s.jobId = job
  started : v.started = true
  marked : v.marked = true → marked
  holding : v.holding = true → holding

theorem Owes.imp {marked' holding' : Prop} {v : TaskView} (h : Owes job marked holding v)
    (hm : marked → marked') (hh : holding → holding') : Owes job marked' holding' v :=
  ⟨h.known, h.started, fun hv => hm (h.marked hv), fun hv => hh (h.holding hv)⟩

theorem TaskView.interrupted_le (v : TaskView) (l : Site) (c : Call) (e : Exc) :
    ((v.interrupted l c e).marked = true → v.marked = true) ∧
      ((v.interrupted l c e).holding = true → v.holding = true) := by
  simp only [interrupted, Bool.and_eq_true]
  exact ⟨fun h => h.1, fun h => h.1⟩

/-- Interruptions that discharge the port debt without a release. -/
theorem TaskView.interrupted_holding {v : TaskView} {l : Site} {c : Call} {e : Exc}
    (hheld : v.holding = true) (hc : ∀ j quarantine, c ≠ .store (.releasePorts j quarantine))
    (hfree : (v.interrupted l c e).holding = false) :
    e = .cancelled ∧ (l = .unwinding ∨ l = .timedOut) := by
  unfold interrupted at hfree
  dsimp only at hfree
  split at hfree
  · exact absurd rfl (hc _ _)
  · exact ⟨rfl, .inl rfl⟩
  · exact ⟨rfl, .inr rfl⟩
  · simp [hheld] at hfree

theorem TaskView.interrupted_started (v : TaskView) (l : Site) (c : Call) (e : Exc) :
    (v.interrupted l c e).started = v.started := rfl

theorem TaskView.failed_thrown {v : TaskView} {l : Site} {c : Call} {e : Exc}
    (hc : ∀ m, c ≠ .store (.saveExecutionMarker m)) (h : Thrown l c e) :
    v.failed l c e = v.interrupted l c e := by
  unfold TaskView.failed
  split
  · rename_i m
    exact absurd rfl (hc m)
  · rw [if_neg (by simp [h.not_isException])]

/-- Only saving the marker adds a debt. -/
theorem TaskView.next_le (v : TaskView) (l : Site) {c : Call} (r : Except Exc c.Res)
    (hc : ∀ m, c ≠ .store (.saveExecutionMarker m)) :
    ((v.next l c r).marked = true → v.marked = true) ∧
      ((v.next l c r).holding = true → v.holding = true) ∧
      (v.started = true → (v.next l c r).started = true) := by
  cases r with
  | ok a =>
    simp only [TaskView.next]
    unfold TaskView.answered
    split
    · exact ⟨id, id, fun _ => rfl⟩
    · rename_i m
      exact absurd rfl (hc m)
    · simp
    · simp only [Bool.and_eq_true]
      exact ⟨fun h => h.1, by simp, id⟩
    · exact ⟨id, id, id⟩
  | error e =>
    simp only [TaskView.next]
    unfold TaskView.failed
    split
    · rename_i m
      exact absurd rfl (hc m)
    · split
      · exact ⟨id, id, id⟩
      · exact ⟨(v.interrupted_le l _ e).1, (v.interrupted_le l _ e).2, id⟩

/-- The calls whose answer changes what the view owes. -/
def Call.settles : Call → Bool
  | .store (.saveExecutionMarker _) | .store (.deleteExecutionMarker _)
  | .store (.releasePorts ..) => true
  | _ => false

/-- An answer to any other call leaves the debts, unless it is no `Exception`. -/
theorem TaskView.next_debts (v : TaskView) (l : Site) {c : Call} {r : Except Exc c.Res}
    (hr : ∀ e, r = .error e → e.isException = true) (hc : c.settles = false) :
    (v.next l c r).marked = v.marked ∧ (v.next l c r).holding = v.holding := by
  cases r with
  | ok a =>
    simp only [TaskView.next]
    unfold TaskView.answered
    split
    · exact ⟨rfl, rfl⟩
    · cases hc
    · cases hc
    · cases hc
    · exact ⟨rfl, rfl⟩
  | error e =>
    simp only [TaskView.next]
    unfold TaskView.failed
    split
    · cases hc
    · rw [if_pos (hr e rfl)]
      exact ⟨rfl, rfl⟩

theorem Owes.post {c : Call} {r : Except Exc c.Res} {v v' : TaskView}
    (h : Owes job marked holding v) (hr : (taskContract job kind).post v l c r v')
    (hc : ∀ m, c ≠ .store (.saveExecutionMarker m)) : Owes job marked holding v' := by
  obtain ⟨⟨hsub, -⟩, hv', -⟩ := hr
  obtain ⟨hm, hh, hs⟩ := v.next_le l r hc
  obtain ⟨s, hknown, hjob⟩ := h.known
  rw [hv']
  exact ⟨⟨s, hsub hknown, hjob⟩, hs h.started, fun hv => h.marked (hm hv),
    fun hv => h.holding (hh hv)⟩

/-- The ports are held after a call only if they were before and the call did not release them. -/
theorem holding_of_post {c : Call} {r : Except Exc c.Res} {v v' : TaskView}
    (hr : (taskContract job kind).post v l c r v') (hh : v'.holding = true) :
    v.holding = true ∧ ∀ j quarantine, c ≠ .store (.releasePorts j quarantine) := by
  rw [hr.2.1] at hh
  constructor
  · by_cases hc : ∃ m, c = .store (.saveExecutionMarker m)
    · obtain ⟨m, rfl⟩ := hc
      cases r <;> exact hh
    · push Not at hc
      exact (v.next_le l r hc).2.1 hh
  · rintro j quarantine rfl
    cases r with
    | ok u => cases hh
    | error e =>
      have hthrown := (hr.2.2 e rfl).resolve_left id
      simp [TaskView.next, TaskView.failed, hthrown.not_isException, TaskView.interrupted] at hh

/-- A transition that keeps an invariant, whatever it is. -/
theorem transition_task {I : Site → TaskView → Prop} (site : CallSite)
    (hsite : kind.isReport = true → ∃ update completed total,
      site = .runProgress update completed total)
    (hstarted : ∀ l v, I l v → kind.isReport = false → v.started = true)
    (hI : ∀ l v c r v', (c = .store (.getSnapshot job) ∨ c = .notify ∨
        ∃ x, c = .store (site.request.write x)) →
      I l v → (taskContract job kind).post v l c r v' → I l v') :
    (transition job site : Async σ _).Safe (taskContract job kind) I := by
  intro l s v hv
  refine (attemptTransition_ok (I := I l) (K := fun x v => x ∈ v.known ∧ x.jobId = job)
    ?_ ?_ ?_ s hv).mono fun _ _ _ h => h.1
  · refine fun v hv => ⟨⟨trivial, rfl⟩, fun r v' hr => ⟨hI l v _ r v' (.inl rfl) hv hr, ?_⟩⟩
    rintro x rfl
    exact hr.1.2
  · refine fun v x hv hx hadm => ⟨⟨⟨x, hx.1, rfl, site, hadm, rfl⟩, hx.2, hstarted l v hv,
      fun hreport => ?_⟩, fun r v' hr => ⟨hI l v _ r v' (.inr (.inr ⟨x, rfl⟩)) hv hr, ?_⟩⟩
    · obtain ⟨update, completed, total, rfl⟩ := hsite hreport
      refine ⟨rfl, x, hx.1, hx.2, ?_⟩
      simpa [CallSite.request, TransitionRequest.expects] using hadm.2.1
    · rintro rfl
      exact ⟨hr.1.2, hx.2⟩
  · refine fun v hv => ⟨trivial, fun r v' hr => ⟨hI l v _ r v' (.inr (.inl rfl)) hv hr, ?_⟩⟩
    exact fun x hx => ⟨hr.1.1 hx.1, hx.2⟩

theorem permits_task (hkind : kind.isReport = false) :
    Permits (taskContract job kind) (fun _ => Owes job marked holding) job fun _ => True where
  transition site _ := by
    refine transition_task site (by simp [hkind]) (fun l v hv _ => hv.started)
      fun l v c r v' hc hv hr => hv.post hr ?_
    rintro m rfl
    obtain hc | hc | ⟨x, hc⟩ := hc <;> simp at hc
  neutral l c v hc hv := by
    refine ⟨?_, fun r v' hr => hv.post hr ?_⟩
    · cases c with
      | store c =>
        cases c with
        | getSnapshot j | getDocument j => exact ⟨trivial, hc⟩
        | _ => exact hc.elim
      | isActive | activeCount | dropDone | spawn => exact hc.elim
      | _ => trivial
    · rintro m rfl
      exact hc

/-- Releasing pays the port debt, also when it is interrupted. -/
theorem release_task {v : TaskView} {s : σ} (quarantine : Bool) (hkind : kind.isReport = false)
    (hv : Owes job marked holding v) (hq : v.marked = true → quarantine = true) :
    (Async.store (.releasePorts job quarantine) : Async σ Unit).Ok (taskContract job kind) l s
      (fun r _ v' => Owes job marked False v' ∧ (r = .ok () → quarantine = true → v'.marked = false) ∧
        ∀ e, r = .error e → Thrown l (.store (.releasePorts job quarantine)) e) v := by
  refine ⟨⟨trivial, rfl, hkind, hq⟩, ?_⟩
  rintro (e | u) v' hr
  · have hthrown := (hr.2.2 e rfl).resolve_left id
    refine ⟨?_, nofun, fun e' he => (Except.error.inj he) ▸ hthrown⟩
    have hv' := hv.post hr nofun
    refine ⟨hv'.known, hv'.started, hv'.marked, ?_⟩
    rw [hr.2.1]
    simp [TaskView.next, TaskView.failed, hthrown.not_isException, TaskView.interrupted]
  · have hv' := hv.post hr nofun
    refine ⟨⟨hv'.known, hv'.started, hv'.marked, ?_⟩, fun _ hquar => ?_, nofun⟩
    · rw [hr.2.1]
      simp [TaskView.next, TaskView.answered]
    · rw [hr.2.1]
      simp [TaskView.next, TaskView.answered, hquar]

theorem release_safe (hkind : kind.isReport = false) :
    (Async.store (.releasePorts job false) : Async σ Unit).Safe (taskContract job kind)
      fun _ => Owes job False holding := by
  intro l s v hv
  refine (release_task false hkind hv fun hm => (hv.marked hm).elim).mono fun r s v' h => ?_
  exact h.1.imp id False.elim

/-- `_finish_cancel` without a handle pays the port debt. -/
theorem finishCancel_task {v : TaskView} {s : σ} (hkind : kind.isReport = false)
    (hv : Owes job False holding v) :
    (finishCancel job none : Async σ Unit).Ok (taskContract job kind) l s
      (fun _ _ v' => Owes job False False v') v := by
  refine (ok_tryFinally _ _).mpr (((permits_task hkind).drainAndCollect (fun _ _ => Iff.rfl) none l s v hv).mono ?_)
  intro r s' v' hv'
  refine (release_task false hkind hv' fun hm => (hv'.marked hm).elim).mono ?_
  rintro (e | u) s'' v'' h
  · exact h.1
  · exact h.1

end Task

section Execute

variable {job : JobId} {fence : Fence} {l : Site}

/-- The task has just started. -/
structure Fresh (job : JobId) (v : TaskView) : Prop where
  owes : Owes job False True v
  holding : v.holding = true

theorem prepareRun_task {v : TaskView} {s : ExecuteLocals} (hv : Fresh job v) :
    (prepareRun job fence).Ok (taskContract job (.execute fence)) l s
      (fun _ _ v' => Owes job True True v') v := by
  refine Coroutine.Py.Ok.call_bind ?_ ?_ ?_
  · exact ⟨trivial, rfl⟩
  · exact fun e v₁ hr₁ => (hv.owes.post hr₁ nofun).imp False.elim id
  intro document v₁ hr₁
  have hv₁ := hv.owes.post hr₁ nofun
  have hholding : v₁.holding = true := by
    rw [hr₁.2.1]
    exact hv.holding
  have hsaved : ∀ {m r v₂}, (taskContract job (.execute fence)).post v₁ l
      (.store (.saveExecutionMarker m)) r v₂ → Owes job True True v₂ := by
    intro m r v₂ hr₂
    obtain ⟨s, hs, hjob⟩ := hv₁.known
    refine ⟨⟨s, hr₂.1.1 hs, hjob⟩, ?_, fun _ => trivial, fun _ => trivial⟩
    rw [hr₂.2.1]
    cases r <;> exact hv₁.started
  refine Coroutine.Py.Ok.call_bind ?_ ?_ ?_
  · refine ⟨trivial, rfl, hholding, fence, rfl, fun p hp => ?_⟩
    simpa using hp
  · exact fun e v₂ hr₂ => hsaved hr₂
  intro u v₂ hr₂
  refine Coroutine.Py.Safe.bind (I := fun _ => Owes job True True) (safe_assign _)
    (fun _ => Coroutine.Py.Safe.bind ?_ fun handle => (safe_assign _).bind fun _ => safe_pure _)
    l s v₂ (hsaved hr₂)
  refine Coroutine.Py.Safe.tryExcept (safe_call (Call.engine _) fun l v hv => ?_) fun e => ?_
  · exact ⟨trivial, fun r v' (hr : (taskContract job (.execute fence)).post v l _ r v') =>
      Owes.post hv hr nofun⟩
  split
  · exact (safe_assign _).bind fun _ => safe_raise _
  · exact safe_raise _

theorem executeBody_task (config : AgentConfig) {v : TaskView} {s : ExecuteLocals}
    (hv : Fresh job v) :
    (executeBody config job fence).Ok (taskContract job (.execute fence)) l s
      (fun _ _ v' => Owes job True True v') v := by
  have h : Permits (taskContract job (.execute fence)) (fun _ => Owes job True True) job
      fun _ => True := permits_task rfl
  have hclean : Permits (taskContract job (.execute fence)) (fun _ => Owes job False True) job
      fun _ => True := permits_task rfl
  refine (prepareRun_task hv).bind (fun _ _ _ hv₁ => hv₁) fun started s₁ v₁ hv₁ => ?_
  refine (h.measure (fun _ _ => Iff.rfl) started.2 l s₁ v₁ hv₁).bind (fun _ _ _ hv₂ => hv₂) fun measurement s₂ v₂ hv₂ => ?_
  cases measurement with
  | none => exact hv₂
  | some measurement =>
    refine (Coroutine.Py.ok_assign_bind _ _).mpr ?_
    refine Coroutine.Py.Ok.call_bind ?_ ?_ ?_
    · exact ⟨trivial, rfl, rfl⟩
    · exact fun e v₃ hr₃ => hv₂.post hr₃ nofun
    intro u v₃ hr₃
    have hv₃ : Owes job False True v₃ := by
      have hv₃ := hv₂.post hr₃ nofun
      refine ⟨hv₃.known, hv₃.started, ?_, hv₃.holding⟩
      rw [hr₃.2.1]
      simp [TaskView.next, TaskView.answered]
    refine (Coroutine.Py.ok_assign_bind _ _).mpr (Coroutine.Py.Ok.mono
      (hclean.publish (fun _ _ => Iff.rfl) config started.1 measurement (release_safe rfl) l _ v₃ hv₃) ?_)
    exact fun _ _ _ hv => hv.imp False.elim id

/-- What an interruption of the `finally` block leaves: no debt, but a port debt when it is the
timeout scope that has expired. -/
def Unwound (job : JobId) (e : Exc) (v : TaskView) : Prop := Owes job False (e = .expired) v

theorem Owes.unwound {marked holding : Prop} {kind : TaskKind} {c : Call} {e : Exc}
    {v v' : TaskView} (hv : Owes job marked holding v)
    (hr : (taskContract job kind).post v .unwinding c (.error e) v')
    (hc : ∀ m, c ≠ .store (.saveExecutionMarker m)) (hthrown : Thrown .unwinding c e) :
    Unwound job e v' := by
  have hv' := hv.post hr hc
  have hnext : v.next .unwinding c (.error e) = v.interrupted .unwinding c e :=
    TaskView.failed_thrown hc hthrown
  refine ⟨hv'.known, hv'.started, ?_, ?_⟩
  · rw [hr.2.1, hnext]
    simp [TaskView.interrupted]
  · rw [hr.2.1, hnext]
    obtain ⟨-, rfl | ⟨rfl, -⟩⟩ := hthrown
    · intro hh
      have hfalse : (v.interrupted .unwinding c .cancelled).holding = false := by
        unfold TaskView.interrupted
        dsimp only
        split <;> simp_all
      simp [hfalse] at hh
    · exact fun _ => rfl

/-- After a call that `try: …; except Exception: pass` stands around. -/
def Swallowed (job : JobId) {α : Type} : Except Exc α → TaskView → Prop :=
  Ends (fun _ => Owes job True True) fun e v =>
    if e.isException then Owes job True True v else Unwound job e v

theorem Owes.swallowed {kind : TaskKind} {c : EngineCall} {v v' : TaskView}
    {r : Except Exc c.Res} (hv : Owes job True True v)
    (hr : (taskContract job kind).post v .unwinding (.engine c) r v') : Swallowed job r v' := by
  cases r with
  | ok a => exact hv.post hr nofun
  | error e =>
    unfold Swallowed
    rw [Coroutine.Py.ends_error]
    split_ifs with he
    · exact hv.post hr nofun
    · exact hv.unwound hr nofun ((hr.2.2 e rfl).resolve_left he)

theorem attempt_task {kind : TaskKind} {p : Async ExecuteLocals Unit} {v : TaskView}
    {s : ExecuteLocals}
    (hp : p.Ok (taskContract job kind) .unwinding s (fun r _ v' => Swallowed job r v') v) :
    (attempt p).Ok (taskContract job kind) .unwinding s
      (fun r _ v' => Ends (fun _ => Owes job True True) (Unwound job) r v') v := by
  refine (ok_tryExcept _ _).mpr ((ok_bind _ _).mpr (hp.mono ?_))
  rintro (e | u) s' v' h
  · unfold Swallowed at h
    rw [Coroutine.Py.ends_error] at h
    simp only [Coroutine.Py.then_error, Coroutine.Py.handled_error]
    split_ifs at h ⊢
    · exact h
    · exact h
  · exact h

theorem stopAndClean_task {kind : TaskKind} (handle : Option RunHandle) {v : TaskView}
    {s : ExecuteLocals} (hv : Owes job True True v) :
    (stopAndClean handle).Ok (taskContract job kind) .unwinding s
      (fun r _ v' => Ends (fun _ => Owes job True True) (Unwound job) r v') v := by
  cases handle with
  | none => exact hv
  | some handle =>
    refine (attempt_task (p := Async.engine (.stop handle true)) ?_).bind (fun _ _ _ h => h) ?_
    · exact ⟨trivial, fun r v' hr => hv.swallowed hr⟩
    intro stopped s₁ v₁ hv₁
    refine (attempt_task (p := Async.engine (.cleanup handle)) ?_).bind (fun _ _ _ h => h) ?_
    · exact ⟨trivial, fun r v' hr => hv₁.swallowed hr⟩
    exact fun cleaned s₂ v₂ hv₂ => hv₂

/-- The release at the end: into quarantine, or after the marker is gone. -/
theorem releaseUnwinding_task {v : TaskView} {s : ExecuteLocals} (quarantine : Bool)
    (hv : Owes job True True v) (hq : v.marked = true → quarantine = true) :
    (Async.store (.releasePorts job quarantine)).Ok (taskContract job (.execute fence)) .unwinding s
      (fun r _ v' => Ends (fun _ => Owes job False False) (Unwound job) r v') v := by
  refine ⟨⟨trivial, rfl, rfl, hq⟩, ?_⟩
  rintro (e | u) v' hr
  · exact hv.unwound hr nofun ((hr.2.2 e rfl).resolve_left id)
  · have hv' := hv.post hr nofun
    refine ⟨hv'.known, hv'.started, ?_, ?_⟩
    · rw [hr.2.1]
      simp only [TaskView.next, TaskView.answered, Bool.and_eq_true, Bool.not_eq_true']
      rintro ⟨hm, hquar⟩
      simp [hq hm] at hquar
    · rw [hr.2.1]
      simp [TaskView.next, TaskView.answered]

theorem executeFinally_task {v : TaskView} {s : ExecuteLocals} (hv : Owes job True True v) :
    (executeFinally job).Ok (taskContract job (.execute fence)) .unwinding s
      (fun r _ v' => Ends (fun _ => Owes job False False) (Unwound job) r v') v := by
  refine (Coroutine.Py.ok_locals_bind _).mpr ?_
  refine (stopAndClean_task s.handle hv).bind (fun _ _ _ h => h) fun _ s₁ v₁ hv₁ => ?_
  refine (Coroutine.Py.ok_locals_bind _).mpr ?_
  unfold Coroutine.Py.when
  split_ifs with hconfirmed
  · refine Coroutine.Py.Ok.call_bind ?_ ?_ ?_
    · exact ⟨trivial, rfl, rfl⟩
    · exact fun e v₂ hr₂ => hv₁.unwound hr₂ nofun ((hr₂.2.2 e rfl).resolve_left id)
    · intro u v₂ hr₂
      refine releaseUnwinding_task _ (hv₁.post hr₂ nofun) fun hm => ?_
      rw [hr₂.2.1] at hm
      simp [TaskView.next, TaskView.answered] at hm
  · refine releaseUnwinding_task _ hv₁ fun _ => ?_
    simpa using hconfirmed

theorem execute_task (config : AgentConfig) {v : TaskView} {s : ExecuteLocals}
    (hv : Fresh job v) :
    (execute config job fence).Ok (taskContract job (.execute fence)) l s
      (fun r _ v' => Ends (fun _ => Owes job False False) (Unwound job) r v') v := by
  have h : Permits (taskContract job (.execute fence)) (fun _ => Owes job True True) job
      fun _ => True := permits_task rfl
  have hbody : (Coroutine.Py.tryExcept (executeBody config job fence) (executeExcept job)).Ok
      (taskContract job (.execute fence)) l s (fun _ _ v' => Owes job True True v') v := by
    refine (ok_tryExcept _ _).mpr ((executeBody_task config hv).mono ?_)
    rintro (e | u) s' v' hv'
    · exact h.executeExcept (fun _ _ => trivial) e l s' v' hv'
    · exact hv'
  refine (ok_tryFinally _ _).mpr (hbody.mono ?_)
  intro r s' v' hv'
  refine (Coroutine.Py.ok_region _ _).mpr ((executeFinally_task hv').mono ?_)
  rintro (e | u) s'' v'' hv''
  · exact hv''
  · cases r with
    | ok a => exact hv''
    | error e => exact Owes.imp hv'' id False.elim

end Execute

section Program

variable {job : JobId} {fence : Fence} {l : Site} {σ : Type}

/-- An interruption of the handler of the expired timeout pays the port debt. -/
theorem Owes.handled {kind : TaskKind} {c : Call} {e : Exc} {v v' : TaskView}
    (hv : Owes job False True v) (hr : (taskContract job kind).post v .timedOut c (.error e) v')
    (hc : ∀ m, c ≠ .store (.saveExecutionMarker m)) (hraises : ¬ c.Raises v.known e) :
    Owes job False False v' := by
  have hthrown := (hr.2.2 e rfl).resolve_left hraises
  have hv' := hv.post hr hc
  have hnext : v.next .timedOut c (.error e) = v.interrupted .timedOut c e :=
    TaskView.failed_thrown hc hthrown
  refine ⟨hv'.known, hv'.started, hv'.marked, ?_⟩
  rw [hr.2.1, hnext]
  obtain ⟨-, rfl | ⟨-, hne⟩⟩ := hthrown
  · intro hh
    have hfalse : (v.interrupted .timedOut c .cancelled).holding = false := by
      unfold TaskView.interrupted
      dsimp only
      split <;> simp_all
    simp [hfalse] at hh
  · exact absurd rfl hne

theorem failTimedOut_task {kind : TaskKind} {v : TaskView} {s : σ} (hkind : kind.isReport = false)
    (hv : Owes job False True v) :
    (fail job jobTimeoutProblem : Async σ _).Ok (taskContract job kind) .timedOut s
      (fun r _ v' => Ends (fun _ => Owes job False True) (fun _ => Owes job False False) r v') v := by
  refine Coroutine.Py.Ok.call_bind ?_ ?_ ?_
  · exact trivial
  · exact fun e v₁ hr₁ => hv.handled hr₁ nofun id
  intro now v₁ hr₁
  refine (attemptTransition_ends (I := Owes job False True) (N := Owes job False True)
    (K := fun x v => Owes job False True v ∧ x ∈ v.known ∧ x.jobId = job)
    (R := fun _ => Owes job False False) ?_ (fun _ _ h _ _ => h.1) ?_ ?_ 3 s
    (hv.post hr₁ nofun) nofun).mono ?_
  · refine fun v hv => ⟨⟨trivial, rfl⟩, ?_⟩
    rintro (e | x) v' hr
    · refine hv.handled hr nofun fun hraises => ?_
      obtain ⟨x, hx, hjob⟩ := hv.known
      exact hraises x hx hjob
    · exact ⟨hv.post hr nofun, hr.1.2⟩
  · refine fun v x hx hadm =>
      ⟨⟨⟨x, hx.2.1, rfl, _, hadm, rfl⟩, hx.2.2, fun _ => hx.1.started, by simp [hkind]⟩, ?_⟩
    rintro (e | u) v' hr
    · have hescape : e ≠ .revisionConflict → Owes job False False v' := fun hne =>
        hx.1.handled hr nofun hne
      cases e with
      | revisionConflict => exact ⟨hx.1.post hr nofun, hx.1.post hr nofun⟩
      | _ => exact hescape nofun
    · exact ⟨hx.1.post hr nofun, hr.1.2, hx.2.2⟩
  · refine fun v x hx => ⟨trivial, ?_⟩
    rintro (e | u) v' hr
    · have hescape := hx.1.handled hr nofun id
      cases e with
      | revisionConflict => exact ⟨hescape.imp id False.elim, hescape.imp id False.elim⟩
      | _ => exact hescape
    · exact ⟨hx.1.post hr nofun, hr.1.1 hx.2.1, hx.2.2⟩
  · rintro (e | _ | x) s' v' h
    · exact h
    · exact h
    · exact h.1.1

theorem executeWithDeadline_task (config : AgentConfig) {v : TaskView} {s : σ}
    (hv : Fresh job v) :
    (executeWithDeadline config job fence : Async σ Unit).Ok (taskContract job (.execute fence)) l s
      (fun _ _ v' => Owes job False False v') v := by
  refine (ok_tryExcept _ _).mpr ((Coroutine.Py.ok_withLocals _ _).mpr
    ((execute_task config hv).mono ?_))
  rintro (e | u) s' v' hv'
  · have hraise : e ≠ .expired → Owes job False False v' := fun hne => Owes.imp hv' id hne
    cases e with
    | expired =>
      simp only [Coroutine.Py.handled_error, Coroutine.Py.ok_region]
      refine Coroutine.Py.Ok.bind (failTimedOut_task rfl (Owes.imp hv' id fun _ => trivial))
        (fun _ _ _ h => h) fun _ s₁ v₁ hv₁ => ?_
      refine (release_task false rfl hv₁ fun hm => (hv₁.marked hm).elim).mono fun _ _ _ h => h.1
    | _ => exact hraise (by simp)
  · exact hv'

/-- Every task keeps to its contract and pays its debts. -/
theorem taskProgram_task (config : AgentConfig) (job : JobId) (kind : TaskKind) {v : TaskView}
    (hv : kind.isReport = false → (∃ s ∈ v.known, s.jobId = job) ∧ v.started = false ∧
      v.marked = false ∧ v.holding = true) :
    (taskProgram config job kind).Ok (taskContract job kind) l ()
      (fun _ _ v' => Settled kind v') v := by
  have hstart : ∀ {kind : TaskKind} {p : Async Unit Unit}, kind.isReport = false →
      ((∃ s ∈ v.known, s.jobId = job) ∧ v.started = false ∧ v.marked = false ∧ v.holding = true) →
      (∀ v', Fresh job v' → p.Ok (taskContract job kind) l () (fun _ _ => Owes job False False) v') →
      Coroutine.Py.Ok (taskContract job kind) (do Async.call .start; p) l ()
        (fun _ _ v' => Settled kind v') v := by
    rintro kind p hkind ⟨⟨x, hx, hjob⟩, hstarted, hmarked, hholding⟩ hp
    refine Coroutine.Py.Ok.call_bind ?_ ?_ ?_
    · exact trivial
    · intro e v' hr _
      have hthrown := (hr.2.2 e rfl).resolve_left id
      have hnext : v.next l .start (.error e) = v.interrupted l .start e :=
        TaskView.failed_thrown (c := .start) nofun hthrown
      rw [hr.2.1, hnext]
      simp [TaskView.interrupted, hstarted, hmarked]
    · intro u v' hr
      refine (hp v' ?_).mono fun _ _ v' h _ => ⟨?_, fun _ => ?_⟩
      · refine ⟨⟨⟨x, hr.1.1 hx, hjob⟩, ?_, ?_, fun _ => trivial⟩, ?_⟩ <;> rw [hr.2.1] <;>
          simp [TaskView.next, TaskView.answered, hmarked, hholding]
      · exact Bool.eq_false_iff.mpr h.marked
      · exact Bool.eq_false_iff.mpr h.holding
  cases kind with
  | execute fence => exact hstart rfl (hv rfl) fun v' hv' => executeWithDeadline_task config hv'
  | finishCancel => exact hstart rfl (hv rfl) fun v' hv' => finishCancel_task rfl hv'.owes
  | reportProgress update completed total =>
    refine ((transition_task (I := fun _ _ => True) _ (fun _ => ⟨_, _, _, rfl⟩) (by simp [TaskKind.isReport])
      fun _ _ _ _ _ _ _ _ => trivial).bind fun _ => safe_pure ()) l () v trivial |>.mono ?_
    exact fun _ _ _ _ h => nomatch h

end Program

end TrexCli
