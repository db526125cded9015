import TrexCli.Jobs.Lifecycle

/-!
# How a task moves its job

`lifeContract` holds of every task. While the task is the only one that moves its job, its view records
the state of the job, so `_phase` advances by one stage at a time; and it records that `prepare` has
been called, which happens once, in `PREPARING`. Under the assumption `D`, that `_finish_cancel` finds
the job drained when it looks again, every write follows the lifecycle diagram.
-/

namespace TrexCli

open Coroutine.Py (safe_call safe_pure safe_raise safe_assign safe_locals ok_bind ok_tryExcept
  ok_tryFinally Ends)
open Relation (ReflTransGen)

/-- What a task knows of its job. -/
structure LifeView where
  known : Known := ∅
  /-- The state of the job, while only this task moves it. -/
  state : Option JobState := none
  /-- `prepare` has been answered. -/
  prepared : Bool := false

/-- The view after the answer to a call, but for the snapshots. -/
def LifeView.next (v : LifeView) : (c : Call) → Except Exc c.Res → LifeView
  | .store (.updateSnapshot s ..), .ok _ => { v with state := v.state.map fun _ => s.state }
  | .store (.updateSnapshot ..), .error e => if e.isException then v else { v with state := none }
  | .engine (.prepare ..), _ => { v with prepared := true }
  | _, _ => v

/-- The transaction leaves the job in the state it is in. -/
def Repeats (known : Known) : StoreCall → Prop
  | .updateSnapshot s expectedRevision _ _ =>
    ∃ a ∈ known, a.jobId = s.jobId ∧ a.revision = expectedRevision ∧ a.state = s.state
  | _ => True

/-- What a task may call. -/
def LifeCall (D : Prop) (job : JobId) (kind : TaskKind) (v : LifeView) : Call → Prop
  | .store c => MovesOver D v.known c ∧ (kind.isReport = true → Repeats v.known c)
  | .engine (.prepare m _) => kind.isExecute = true ∧ m.jobId = job ∧ v.prepared = false ∧
    v.state = some .preparing
  | _ => True

/-- The job has drained since its cancel request, or has ended. -/
def Drained (known : Known) (job : JobId) : Prop :=
  ∃ b ∈ known, b.jobId = job ∧ (b.state.terminal = true ∨ CancelDrains b)

/-- What a task that knew `v` learns from looking at a job. -/
def LooksAt (D : Prop) (v : LifeView) (l : Site) : (c : Call) → Except Exc c.Res → LifeView → Prop
  | .store (.getSnapshot job), .ok x, v' =>
    (∀ a ∈ v.known, a.jobId = job → ReflTransGen (Moves D) a x) ∧
      (∀ state, v.state = some state → x.state = state) ∧ (l = .drained → D → Drained v'.known job)
  | _, _, _ => True

def lifeContract (D : Prop) (job : JobId) (kind : TaskKind) :
    Coroutine.Contract Site Call Call.Res Exc LifeView where
  pre v _ c := LifeCall D job kind v c
  post v l c r v' := logContract.post v.known l c r v'.known ∧
    v' = { v.next c r with known := v'.known } ∧
    (∀ e, r = .error e → c.Raises v.known e ∨ Thrown l c e) ∧ LooksAt D v l c r v'

section Task

variable {D : Prop} {job : JobId} {kind : TaskKind} {l : Site} {σ : Type}

/-- What `_transition` writes follows the diagram, if it does so over every snapshot that it can find
from the known ones. -/
theorem transition_life {v : LifeView} {s : σ} (site : CallSite)
    (hreport : kind.isReport = true → ∀ x, site.request.Admits x → x.state = site.request.state)
    (hsite : ∀ (x : JobSnapshot) (known : Known), v.known ⊆ known → x.jobId = job →
      (∀ a ∈ v.known, a.jobId = job → ReflTransGen (Moves D) a x) → site.request.Admits x → D →
      Follows x (site.request.apply x) ∧
        (site.request.state = .cancelled → ∃ b ∈ known, b.jobId = job ∧ CancelDrains b)) :
    (transition job site : Async σ _).Ok (lifeContract D job kind) l s
      (fun _ _ v' => v.known ⊆ v'.known) v := by
  refine (attemptTransition_ok (I := fun v' => v.known ⊆ v'.known)
    (K := fun x v' => x ∈ v'.known ∧ x.jobId = job ∧
      ∀ a ∈ v.known, a.jobId = job → ReflTransGen (Moves D) a x)
    ?_ ?_ ?_ s subset_rfl).mono fun _ _ _ h => h.1
  · refine fun v₁ hv₁ => ⟨⟨trivial, fun _ => trivial⟩, fun r v₂ hr => ⟨hv₁.trans hr.1.1, ?_⟩⟩
    rintro x rfl
    obtain ⟨⟨-, hx, hjob⟩, -, -, hreach, -⟩ := hr
    exact ⟨hx, hjob, fun a ha => hreach a (hv₁ ha)⟩
  · rintro v₁ x hv₁ ⟨hx, hjob, hreach⟩ hadm
    have hfollows := hsite x v₁.known hv₁ hjob hreach hadm
    refine ⟨⟨⟨x, hx, rfl, ⟨site, hadm, rfl⟩, fun hD => ⟨(hfollows hD).1, fun hstate => ?_⟩⟩,
      fun hkind => ⟨x, hx, rfl, rfl, hreport hkind x hadm⟩⟩, fun r v₂ hr => ⟨hv₁.trans hr.1.1, ?_⟩⟩
    · obtain ⟨b, hb, hbjob, hdrains⟩ := (hfollows hD).2 hstate
      exact ⟨b, hb, hbjob.trans hjob.symm, hdrains⟩
    · rintro rfl
      exact ⟨hr.1.2, hjob, fun a ha hajob =>
        (hreach a ha hajob).tail ⟨.transition site hadm, fun hD => (hfollows hD).1⟩⟩
  · refine fun v₁ hv₁ => ⟨trivial, fun r v₂ hr => ⟨hv₁.trans hr.1.1, ?_⟩⟩
    exact fun x hx => ⟨hr.1.1 hx.1, hx.2⟩

/-- Neutral calls and the callers that name the states they expect keep what grows with knowledge. -/
theorem permits_life {P : Known → Prop} (hkind : kind.isReport = false)
    (hP : ∀ known known', known ⊆ known' → P known → P known') :
    Permits (lifeContract D job kind) (fun _ v => P v.known) job CallSite.Plain where
  transition site hsite := by
    intro l s v hv
    refine (transition_life site (by simp [hkind]) ?_).mono fun _ _ _ h => hP _ _ h hv
    intro x known _ _ _ hadm _
    obtain ⟨hfollows, hne⟩ := follows_of_plain hsite hadm
    exact ⟨hfollows, fun hstate => absurd hstate hne⟩
  neutral l c v hc hv := by
    refine ⟨?_, fun r v' hr => hP _ _ hr.1.1 hv⟩
    cases c with
    | store c =>
      cases c with
      | getSnapshot | getDocument => exact ⟨trivial, fun _ => trivial⟩
      | _ => exact hc.elim
    | engine c =>
      cases c with
      | prepare => exact hc.elim
      | _ => trivial
    | _ => trivial

/-- A cancel request of the job is known. -/
def CancelKnown (job : JobId) (known : Known) : Prop :=
  ∃ a ∈ known, a.jobId = job ∧ a.cancelRequested = true

theorem CancelKnown.mono {known known' : Known} (hsub : known ⊆ known')
    (h : CancelKnown job known) : CancelKnown job known' :=
  let ⟨a, ha, hrest⟩ := h
  ⟨a, hsub ha, hrest⟩

theorem CancelKnown.flagged {known : Known} (h : CancelKnown job known) {x : JobSnapshot}
    (hreach : ∀ a ∈ known, a.jobId = job → ReflTransGen (Moves D) a x) :
    x.cancelRequested = true :=
  let ⟨a, ha, hjob, hcancel⟩ := h
  Writes.cancelRequested_of_chain (Writes.of_moves (hreach a ha hjob)) hcancel

/-- The drain step of `_finish_cancel`, from any state. -/
theorem cancelDrain_life {v : LifeView} {s : σ} (hkind : kind.isReport = false) (read : JobState)
    (hv : CancelKnown job v.known) :
    (transition job (.cancelDrain read) : Async σ _).Ok (lifeContract D job kind) l s
      (fun _ _ v' => v.known ⊆ v'.known) v := by
  refine transition_life _ (by simp [hkind]) fun x known _ _ hreach hadm _ => ?_
  exact ⟨.drains (hv.flagged hreach) hadm.1 rfl, nofun⟩

/-- The snapshots that follow a drained job and are not yet at its end. -/
theorem Drained.live {known : Known} (hD : D) (h : Drained known job) {x : JobSnapshot}
    (hreach : ∀ a ∈ known, a.jobId = job → ReflTransGen (Moves D) a x)
    (hlive : x.state.terminal = false) :
    (∃ b ∈ known, b.jobId = job ∧ CancelDrains b) ∧ (x.state = .draining ∨ x.state = .collecting) := by
  obtain ⟨b, hb, hjob, hterm | hdrains⟩ := h
  · have heq := Writes.eq_of_chain (Writes.of_moves (hreach b hb hjob)) hterm
    rw [heq, hterm] at hlive
    cases hlive
  · refine ⟨⟨b, hb, hjob, hdrains⟩, ?_⟩
    obtain hs | hs | hs := drains_chain hD hdrains (hreach b hb hjob)
    · exact .inl hs
    · exact .inr hs
    · rw [hs] at hlive
      cases hlive

/-- The collection step of `_finish_cancel`, from the state that its second look has found. -/
theorem cancelCollection_life {v : LifeView} {s : σ} (hkind : kind.isReport = false)
    {read : JobState} (hread : read ≠ .collecting) (hv : D → Drained v.known job) :
    (transition job (.cancelCollection read) : Async σ _).Ok (lifeContract D job kind) l s
      (fun _ _ v' => v.known ⊆ v'.known) v := by
  refine transition_life _ (by simp [hkind]) fun x known _ _ hreach hadm hD => ⟨?_, nofun⟩
  have hstate : x.state = read := by
    simpa [CallSite.request, TransitionRequest.expects] using hadm.2.1
  obtain hs | hs := ((hv hD).live hD hreach hadm.1).2
  · refine .advances ?_
    rw [hs]
    rfl
  · exact absurd (hstate.symm.trans hs) hread

/-- The last step of `_finish_cancel`. -/
theorem jobCancelled_life {v : LifeView} {s : σ} (hkind : kind.isReport = false) (now : Instant)
    (hv : CancelKnown job v.known) (hdrained : D → Drained v.known job) :
    (transition job (.cancelled now) : Async σ _).Ok (lifeContract D job kind) l s
      (fun _ _ v' => v.known ⊆ v'.known) v := by
  refine transition_life _ (by simp [hkind]) fun x known hsub _ hreach hadm hD => ⟨?_, fun _ => ?_⟩
  · have hstate : x.state = .collecting := by
      simpa [CallSite.request, TransitionRequest.expects] using hadm.2.1
    exact .cancels (hv.flagged hreach) hstate rfl
  · obtain ⟨⟨b, hb, hrest⟩, -⟩ := (hdrained hD).live hD hreach hadm.1
    exact ⟨b, hsub hb, hrest⟩

/-- Nothing is asked of a computation that changes no event log but by plain callers. -/
theorem permits_any (hkind : kind.isReport = false) :
    Permits (lifeContract D job kind) (fun _ _ => True) job CallSite.Plain :=
  permits_life (P := fun _ => True) hkind fun _ _ _ _ => trivial

/-- The first half of `_finish_cancel`. -/
theorem drainStep_life {v : LifeView} {s : σ} (hkind : kind.isReport = false) (read : JobState)
    (handle : Option RunHandle) (hv : CancelKnown job v.known) :
    (Coroutine.Py.when (read ≠ .draining) (do
      let _ ← transition job (.cancelDrain read)
      match handle with
      | some handle => Async.engine (.stop handle true)
      | none => pure ()) : Async σ Unit).Ok (lifeContract D job kind) l s
      (fun _ _ v' => CancelKnown job v'.known) v := by
  have h : Permits (lifeContract D job kind) (fun _ v => CancelKnown job v.known) job
      CallSite.Plain := permits_life hkind fun _ _ => CancelKnown.mono
  unfold Coroutine.Py.when
  split
  · refine (cancelDrain_life hkind read hv).bind (fun _ _ _ hsub => hv.mono hsub)
      fun _ s₁ v₁ hsub => ?_
    cases handle with
    | none => exact hv.mono hsub
    | some handle => exact h.engine (.stop handle true) trivial l s₁ v₁ (hv.mono hsub)
  · exact hv

/-- The second half of `_finish_cancel`. -/
theorem collectStep_life {v : LifeView} {s : σ} (hkind : kind.isReport = false) (read : JobState)
    (handle : Option RunHandle) (hv : CancelKnown job v.known ∧ (D → Drained v.known job)) :
    (Coroutine.Py.when (read ≠ .collecting) (do
      let _ ← transition job (.cancelCollection read)
      match handle with
      | some handle => Async.engine (.cleanup handle)
      | none => pure ()) : Async σ Unit).Ok (lifeContract D job kind) l s
      (fun _ _ v' => CancelKnown job v'.known ∧ (D → Drained v'.known job)) v := by
  have hmono : ∀ known known' : Known, known ⊆ known' →
      CancelKnown job known ∧ (D → Drained known job) →
      CancelKnown job known' ∧ (D → Drained known' job) := by
    rintro known known' hsub ⟨hcancel, hdrained⟩
    refine ⟨hcancel.mono hsub, fun hD => ?_⟩
    obtain ⟨b, hb, hrest⟩ := hdrained hD
    exact ⟨b, hsub hb, hrest⟩
  have h : Permits (lifeContract D job kind)
      (fun _ v => CancelKnown job v.known ∧ (D → Drained v.known job)) job CallSite.Plain :=
    permits_life hkind hmono
  unfold Coroutine.Py.when
  split
  · rename_i hread
    refine (cancelCollection_life hkind hread hv.2).bind (fun _ _ _ hsub => hmono _ _ hsub hv)
      fun _ s₁ v₁ hsub => ?_
    cases handle with
    | none => exact hmono _ _ hsub hv
    | some handle => exact h.engine (.cleanup handle) trivial l s₁ v₁ (hmono _ _ hsub hv)
  · exact hv

theorem drainAndCollect_life {v : LifeView} {s : σ} (hkind : kind.isReport = false)
    (handle : Option RunHandle) (hv : CancelKnown job v.known) :
    (drainAndCollect job handle : Async σ Unit).Ok (lifeContract D job kind) l s
      (fun _ _ _ => True) v := by
  refine Coroutine.Py.Ok.call_bind ?_ ?_ ?_
  · exact ⟨trivial, fun _ => trivial⟩
  · exact fun _ _ _ => trivial
  intro current v₁ hr₁
  split_ifs
  · exact trivial
  refine (drainStep_life hkind current.state handle (hv.mono hr₁.1.1)).bind
    (fun _ _ _ _ => trivial) fun _ s₂ v₂ hv₂ => ?_
  have hlook : (Coroutine.Py.region .drained (Async.store (.getSnapshot job)) :
      Async σ JobSnapshot).Ok (lifeContract D job kind) l s₂
      (fun r _ v' => Ends (fun _ v' => CancelKnown job v'.known ∧ (D → Drained v'.known job))
        (fun _ _ => True) r v') v₂ := by
    refine ⟨⟨trivial, fun _ => trivial⟩, ?_⟩
    rintro (e | x) v₃ hr₃
    · exact trivial
    · exact ⟨hv₂.mono hr₃.1.1, hr₃.2.2.2.2.2 rfl⟩
  refine hlook.bind (fun _ _ _ _ => trivial) fun current s₃ v₃ hv₃ => ?_
  refine (collectStep_life hkind current.state handle hv₃).bind (fun _ _ _ _ => trivial)
    fun _ s₄ v₄ hv₄ => ?_
  refine Coroutine.Py.Ok.call_bind ?_ ?_ ?_
  · exact trivial
  · exact fun _ _ _ => trivial
  intro now v₅ hr₅
  have hsub := hr₅.1.1
  refine (jobCancelled_life hkind now (hv₄.1.mono hsub) fun hD => ?_).bind (fun _ _ _ _ => trivial)
    fun _ _ _ _ => trivial
  obtain ⟨b, hb, hrest⟩ := hv₄.2 hD
  exact ⟨b, hsub hb, hrest⟩

/-- The call writes to an event log. -/
def Call.logs : Call → Bool
  | .store (.updateSnapshot ..) => true
  | _ => false

/-- A store method that does not write to an event log. -/
theorem unlogged_life (c : StoreCall) (hc : (Call.store c).logs = false) :
    (Async.store c : Async σ c.Res).Safe (lifeContract D job kind) fun _ _ => True := by
  refine safe_call (Call.store c) fun l v _ => ?_
  cases c with
  | updateSnapshot => cases hc
  | _ => exact ⟨⟨trivial, fun _ => trivial⟩, fun _ _ _ => trivial⟩

/-- `_finish_cancel`, after a cancel request has been seen. -/
theorem finishCancel_life {v : LifeView} {s : σ} (hkind : kind.isReport = false)
    (handle : Option RunHandle) (hv : CancelKnown job v.known) :
    (finishCancel job handle : Async σ Unit).Ok (lifeContract D job kind) l s
      (fun _ _ _ => True) v := by
  have hrelease : (Async.store (.releasePorts job false) : Async σ Unit).Safe
      (lifeContract D job kind) fun _ _ => True := unlogged_life _ rfl
  refine (ok_tryFinally _ _).mpr ((drainAndCollect_life hkind handle hv).mono ?_)
  intro r s' v' _
  refine (hrelease.when (handle = none) l s' v' trivial).mono ?_
  rintro (e | u) _ _ _
  · exact trivial
  · exact trivial

/-- A call that leaves the job in its state, whatever the answer. -/
theorem still_life {state : JobState} {v v' : LifeView} {c : Call} {r : Except Exc c.Res}
    (hv : v.state = some state) (hr : (lifeContract D job kind).post v l c r v')
    (hc : c.logs = false) : v'.state = some state := by
  rw [hr.2.1, ← hv]
  unfold LifeView.next
  split
  · cases hc
  · cases hc
  · rfl
  · rfl

/-- `_phase` takes the job from one stage to the next. -/
theorem phase_life {state : JobState} {stage : Stage} {v : LifeView} {s : σ}
    (hkind : kind.isReport = false) (hnext : state.next = some stage.state)
    (hlive : state.terminal = false) (hv : v.state = some state) :
    (phase job stage : Async σ Unit).Ok (lifeContract D job kind) l s
      (fun r _ v' => r = .ok () → v'.state = some stage.state) v := by
  refine Coroutine.Py.Ok.call_bind ?_ ?_ ?_
  · exact ⟨trivial, fun _ => trivial⟩
  · rintro _ _ _ ⟨⟩
  intro current v₁ hr₁
  have hcurrent : current.state = state := hr₁.2.2.2.2.1 state hv
  refine Coroutine.Py.Ok.call_bind ?_ ?_ ?_
  · exact trivial
  · rintro _ _ _ ⟨⟩
  intro now v₂ hr₂
  have hv₂ := still_life (still_life hv hr₁ rfl) hr₂ rfl
  rw [hcurrent]
  refine Coroutine.Py.Ok.bind (attemptTransition_ends (I := fun v => v.state = some state)
    (N := fun _ => True)
    (K := fun x v => (x ∈ v.known ∧ x.jobId = job) ∧ v.state = some x.state ∧
      x.state.terminal = false) (R := fun _ _ => True) ?_ (fun _ _ _ _ _ => trivial) ?_ ?_ 3 s hv₂
      (by simp)) (fun _ _ _ _ h => by cases h) ?_
  · refine fun v hv => ⟨⟨trivial, fun _ => trivial⟩, ?_⟩
    rintro (e | x) v' hr
    · exact trivial
    · have hx : x.state = state := hr.2.2.2.2.1 state hv
      exact ⟨hr.1.2, by rw [hx]; exact still_life hv hr rfl, by rw [hx]; exact hlive⟩
  · rintro v x ⟨⟨hx, hjob⟩, hstate, -⟩ hadm
    have hread : x.state = state := by
      simpa [CallSite.request, TransitionRequest.expects] using hadm.2.1
    refine ⟨⟨⟨x, hx, rfl, ⟨_, hadm, rfl⟩, fun _ => ⟨.advances ?_, fun hcancelled => ?_⟩⟩,
      by simp [hkind]⟩, ?_⟩
    · rw [hread]
      exact hnext
    · revert hcancelled
      cases stage <;> simp [CallSite.request, TransitionRequest.apply, Stage.state]
    · rintro (e | u) v' hr
      · have hkept : e = .revisionConflict → v'.state = some state := by
          rintro rfl
          rw [hr.2.1, ← hread, ← hstate]
          rfl
        cases e with
        | revisionConflict => exact ⟨hkept rfl, trivial⟩
        | _ => exact trivial
      · refine ⟨⟨hr.1.2, hjob⟩, ?_, ?_⟩
        · rw [hr.2.1]
          simp [LifeView.next, hstate]
        · cases stage <;> rfl
  · rintro v x ⟨⟨hx, hjob⟩, hstate, hterm⟩
    refine ⟨trivial, ?_⟩
    rintro (e | u) v' hr
    · obtain ⟨-, rfl | ⟨rfl, -⟩⟩ := (hr.2.2.1 e rfl).resolve_left id
      · exact trivial
      · exact trivial
    · exact ⟨⟨hr.1.1 hx, hjob⟩, still_life hstate hr rfl, hterm⟩
  · rintro (_ | x) s' v' h
    · rintro ⟨⟩
    · obtain ⟨⟨-, hstate, hterm⟩, hreached⟩ := h
      intro _
      rw [hstate]
      refine congrArg some (hreached.resolve_left ?_)
      rw [hterm]
      exact Bool.false_ne_true

theorem engine_life {state : JobState} {v : LifeView} {s : σ} (c : EngineCall)
    (hc : Neutral job (.engine c)) (hv : v.state = some state) :
    (Async.engine c : Async σ c.Res).Ok (lifeContract D job kind) l s
      (fun _ _ v' => v'.state = some state) v := by
  refine ⟨?_, fun r v' hr => still_life hv hr rfl⟩
  cases c with
  | prepare => exact hc.elim
  | _ => trivial

/-- `_cancelled`: when no cancel request has been seen, the job is where it was. -/
theorem cancelled_life {state : JobState} {v : LifeView} {s : σ} (handle : RunHandle)
    (hkind : kind.isReport = false) (hv : v.state = some state) :
    (cancelled job handle : Async σ Bool).Ok (lifeContract D job kind) l s
      (fun r _ v' => r = .ok false → v'.state = some state) v := by
  refine Coroutine.Py.Ok.call_bind ?_ ?_ ?_
  · exact ⟨trivial, fun _ => trivial⟩
  · exact fun _ _ _ => nofun
  intro current v₁ hr₁
  split_ifs with hcancel
  · exact fun _ => still_life hv hr₁ rfl
  · refine (finishCancel_life hkind (some handle) ⟨current, hr₁.1.2.1, hr₁.1.2.2, ?_⟩).bind
      (fun _ _ _ _ => nofun) fun _ _ _ _ => nofun
    simpa using hcancel

theorem measure_life {v : LifeView} {s : ExecuteLocals} (handle : RunHandle)
    (hkind : kind.isReport = false) (hv : v.state = some .preparing) :
    (measure job handle).Ok (lifeContract D job kind) l s (fun _ _ _ => True) v := by
  refine (phase_life hkind rfl rfl hv).bind (fun _ _ _ _ => trivial) fun _ s₁ v₁ hv₁ => ?_
  refine (engine_life (.warmup handle) trivial (hv₁ rfl)).bind (fun _ _ _ _ => trivial)
    fun _ s₂ v₂ hv₂ => ?_
  refine (cancelled_life handle hkind hv₂).bind (fun _ _ _ _ => trivial) fun seen s₃ v₃ hv₃ => ?_
  cases seen with
  | true => exact trivial
  | false =>
    refine (phase_life hkind rfl rfl (hv₃ rfl)).bind (fun _ _ _ _ => trivial) fun _ s₄ v₄ hv₄ => ?_
    refine (engine_life (.run handle) trivial (hv₄ rfl)).bind (fun _ _ _ _ => trivial)
      fun measurement s₅ v₅ hv₅ => ?_
    refine (cancelled_life handle hkind hv₅).bind (fun _ _ _ _ => trivial)
      fun seen s₆ v₆ hv₆ => ?_
    cases seen with
    | true => exact trivial
    | false =>
      refine (phase_life hkind rfl rfl (hv₆ rfl)).bind (fun _ _ _ _ => trivial)
        fun _ s₇ v₇ hv₇ => ?_
      refine (engine_life (.stop handle false) trivial (hv₇ rfl)).bind (fun _ _ _ _ => trivial)
        fun _ s₈ v₈ hv₈ => ?_
      refine (phase_life hkind rfl rfl hv₈).bind (fun _ _ _ _ => trivial) fun _ s₉ v₉ hv₉ => ?_
      exact (engine_life (.cleanup handle) trivial (hv₉ rfl)).bind (fun _ _ _ _ => trivial)
        fun _ _ _ _ => trivial

theorem publish_life (config : AgentConfig) (document : JobDocument)
    (measurement : EngineMeasurement) {v : LifeView} {s : ExecuteLocals}
    (hkind : kind.isReport = false) :
    (publish config job document measurement).Ok (lifeContract D job kind) l s
      (fun _ _ _ => True) v := by
  have h : Permits (lifeContract D job kind) (fun _ _ => True) job CallSite.Plain :=
    permits_any hkind
  refine (h.getSnapshot l s v trivial).bind (fun _ _ _ _ => trivial) fun current s₁ v₁ _ => ?_
  refine (h.getDocument l s₁ v₁ trivial).bind (fun _ _ _ _ => trivial) fun resolved s₂ v₂ _ => ?_
  refine (h.call (.recordCalibrations _ _ _) trivial l s₂ v₂ trivial).bind (fun _ _ _ _ => trivial)
    fun _ s₃ v₃ _ => ?_
  refine (h.call (.buildResultBundle _ _ _ _) trivial l s₃ v₃ trivial).bind
    (fun _ _ _ _ => trivial) fun refs s₄ v₄ _ => ?_
  refine Coroutine.Py.Ok.call_bind ?_ ?_ ?_
  · exact ⟨trivial, fun _ => trivial⟩
  · exact fun _ _ _ => trivial
  intro latest v₅ hr₅
  split_ifs with hcancel
  · exact finishCancel_life hkind none ⟨latest, hr₅.1.2.1, hr₅.1.2.2, hcancel⟩
  · exact ((h.now.bind fun now => h.transitionUnit (.succeeded _ now) trivial) l s₄ v₅ trivial).mono
      fun _ _ _ _ => trivial

theorem prepareRun_life {v : LifeView} {s : ExecuteLocals} {fence : Fence}
    (hv : v.state = some .preparing) (hprepared : v.prepared = false) :
    (prepareRun job fence).Ok (lifeContract D job (.execute fence)) l s
      (fun r _ v' => Ends (fun _ v' => v'.state = some .preparing) (fun _ _ => True) r v') v := by
  refine Coroutine.Py.Ok.call_bind ?_ ?_ ?_
  · exact ⟨trivial, fun _ => trivial⟩
  · exact fun _ _ _ => trivial
  intro document v₁ hr₁
  refine Coroutine.Py.Ok.call_bind ?_ ?_ ?_
  · exact ⟨trivial, fun _ => trivial⟩
  · exact fun _ _ _ => trivial
  intro u v₂ hr₂
  have hv₂ := still_life (still_life hv hr₁ rfl) hr₂ rfl
  have hprepared₂ : v₂.prepared = false := by
    rw [hr₂.2.1, hr₁.2.1]
    exact hprepared
  refine (Coroutine.Py.ok_assign_bind _ _).mpr ?_
  refine Coroutine.Py.Ok.bind (P := fun r _ v' => Ends (fun _ v' => v'.state = some .preparing)
    (fun _ _ => True) r v') ?_ (fun _ _ _ _ => trivial) fun handle s₃ v₃ hv₃ => ?_
  · refine (Coroutine.Py.ok_tryExcept_call _ _).mpr ⟨⟨rfl, rfl, hprepared₂, hv₂⟩, ?_⟩
    rintro (e | handle) v₃ hr₃
    · simp only [Coroutine.Py.handled_error]
      split
      · exact trivial
      · exact trivial
    · exact still_life hv₂ hr₃ rfl
  · exact hv₃

theorem executeBody_life (config : AgentConfig) {v : LifeView} {s : ExecuteLocals} {fence : Fence}
    (hv : v.state = some .preparing) (hprepared : v.prepared = false) :
    (executeBody config job fence).Ok (lifeContract D job (.execute fence)) l s
      (fun _ _ _ => True) v := by
  refine (prepareRun_life hv hprepared).bind (fun _ _ _ _ => trivial) fun started s₁ v₁ hv₁ => ?_
  refine (measure_life started.2 rfl hv₁).bind (fun _ _ _ _ => trivial)
    fun measurement s₂ v₂ _ => ?_
  cases measurement with
  | none => exact trivial
  | some measurement =>
    refine (Coroutine.Py.ok_assign_bind _ _).mpr ?_
    refine Coroutine.Py.Ok.call_bind ?_ ?_ ?_
    · exact ⟨trivial, fun _ => trivial⟩
    · exact fun _ _ _ => trivial
    intro u v₃ _
    exact (Coroutine.Py.ok_assign_bind _ _).mpr (publish_life config started.1 measurement rfl)

theorem executeFinally_life (hkind : kind.isReport = false) :
    (executeFinally job).Safe (lifeContract D job kind) fun _ _ => True := by
  have h : Permits (lifeContract D job kind) (fun _ _ => True) job CallSite.Plain :=
    permits_any hkind
  refine safe_locals.bind fun s => Coroutine.Py.Safe.bind ?_ fun _ => safe_locals.bind fun s =>
    Coroutine.Py.Safe.bind (Coroutine.Py.Safe.when ?_ _) fun _ => ?_
  · cases s.handle with
    | none => exact safe_pure ()
    | some handle =>
      exact (Permits.attempt (h.engine (.stop handle true) trivial)).bind fun _ =>
        (Permits.attempt (h.engine (.cleanup handle) trivial)).bind fun _ => safe_assign _
  · exact unlogged_life _ rfl
  · exact unlogged_life _ rfl

theorem execute_life (config : AgentConfig) {v : LifeView} {s : ExecuteLocals} {fence : Fence}
    (hv : v.state = some .preparing) (hprepared : v.prepared = false) :
    (execute config job fence).Ok (lifeContract D job (.execute fence)) l s
      (fun _ _ _ => True) v := by
  have h : Permits (lifeContract D job (.execute fence)) (fun _ _ => True) job CallSite.Plain :=
    permits_any rfl
  refine (ok_tryFinally _ _).mpr ((ok_tryExcept _ _).mpr
    ((executeBody_life config hv hprepared).mono ?_))
  have hfinally : ∀ (r : Except Exc Unit) (s' : ExecuteLocals) (v' : LifeView),
      (executeFinally job).Ok (lifeContract D job (.execute fence)) .unwinding s'
        (Coroutine.Py.Finally (fun _ _ _ => True) r) v' := by
    intro r s' v'
    refine (executeFinally_life rfl .unwinding s' v' trivial).mono ?_
    rintro (e | u) _ _ _
    · exact trivial
    · exact trivial
  rintro (e | u) s₁ v₁ _
  · exact (h.executeExcept (fun _ => id) e l s₁ v₁ trivial).mono fun r s' v' _ => hfinally r s' v'
  · exact hfinally (.ok u) s₁ v₁

theorem executeWithDeadline_life (config : AgentConfig) {v : LifeView} {s : σ} {fence : Fence}
    (hv : v.state = some .preparing) (hprepared : v.prepared = false) :
    (executeWithDeadline config job fence : Async σ Unit).Ok (lifeContract D job (.execute fence))
      l s (fun _ _ _ => True) v := by
  have h : Permits (lifeContract D job (.execute fence)) (fun _ _ => True) job CallSite.Plain :=
    permits_any rfl
  refine (ok_tryExcept _ _).mpr ((Coroutine.Py.ok_withLocals _ _).mpr
    ((execute_life config hv hprepared).mono ?_))
  rintro (e | u) _ v₁ _
  · cases e with
    | expired =>
      exact (h.fail (fun _ => id) jobTimeoutProblem none).bind (fun _ => unlogged_life _ rfl)
        .timedOut s v₁ trivial
    | _ => exact trivial
  · exact trivial

/-- What the view of a task says at its start. -/
def StartsWith (job : JobId) (v : LifeView) : TaskKind → Prop
  | .execute _ => v.state = some .preparing ∧ v.prepared = false
  | .finishCancel => CancelKnown job v.known
  | .reportProgress .. => True

/-- Every task moves its job along the diagram, and prepares an engine at most once. -/
theorem taskProgram_life (config : AgentConfig) {v : LifeView} (hv : StartsWith job v kind) :
    (taskProgram config job kind).Ok (lifeContract D job kind) l () (fun _ _ _ => True) v := by
  cases kind with
  | execute fence =>
    refine Coroutine.Py.Ok.call_bind ?_ ?_ ?_
    · exact trivial
    · exact fun _ _ _ => trivial
    intro u v₁ hr₁
    refine executeWithDeadline_life config (still_life hv.1 hr₁ rfl) ?_
    rw [hr₁.2.1]
    exact hv.2
  | finishCancel =>
    refine Coroutine.Py.Ok.call_bind ?_ ?_ ?_
    · exact trivial
    · exact fun _ _ _ => trivial
    intro u v₁ hr₁
    exact finishCancel_life rfl none (CancelKnown.mono hr₁.1.1 hv)
  | reportProgress update completed total =>
    refine (transition_life (.runProgress update completed total) ?_ ?_).bind
      (fun _ _ _ _ => trivial) fun _ _ _ _ => trivial
    · intro _ x hadm
      simpa [CallSite.request, TransitionRequest.expects] using hadm.2.1
    · intro x known _ _ _ hadm _
      have hplain : CallSite.Plain (.runProgress update completed total) := trivial
      obtain ⟨hfollows, hne⟩ := follows_of_plain hplain hadm
      exact ⟨hfollows, fun hstate => absurd hstate hne⟩

end Task

end TrexCli
