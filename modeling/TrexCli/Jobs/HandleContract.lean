import TrexCli.Jobs.TaskContract
import TrexCli.Lib.Locals

/-!
# The run handle of a task

Most of what a task runs assigns no local variable, so the handle that `_execute` has got from
`prepare` is still in its local variable when the `finally` block reads it. `handleContract` holds of
every task, however it is interrupted: it runs, stops and cleans up the session of that handle alone.
-/

namespace TrexCli

/-! ### What assigns no local variable -/

section Fixed

open Coroutine.Py (Fixed)

variable {job : JobId} {σ : Type}

theorem attemptTransition_fixed (req : TransitionRequest) (attempts : Nat) :
    Fixed (attemptTransition job req attempts : Async σ (Option JobSnapshot)) := by
  induction attempts with
  | zero => exact .pure none
  | succ attempts ih =>
    unfold attemptTransition
    refine .bind (.call _) fun current => ?_
    split_ifs
    · exact .pure _
    · exact .pure _
    · exact .pure _
    · refine .tryExcept (.bind (.call _) fun _ => .bind (.call _) fun _ => .pure _) fun e => ?_
      split
      · exact ih
      · exact .raise _

theorem transition_fixed (site : CallSite) :
    Fixed (transition job site : Async σ (Option JobSnapshot)) :=
  attemptTransition_fixed _ _

theorem phase_fixed (stage : Stage) : Fixed (phase job stage : Async σ Unit) := by
  refine .bind (.call _) fun current => .bind (.call _) fun now => .bind (transition_fixed _)
    fun updated => ?_
  split_ifs
  · exact .raise _
  · exact .pure _

theorem finishCancel_fixed (handle : Option RunHandle) :
    Fixed (finishCancel job handle : Async σ Unit) := by
  refine .tryFinally (.bind (.call _) fun current => ?_) (.when (.call _) _)
  split_ifs
  · exact .pure _
  refine .bind (.when (.bind (transition_fixed _) fun _ => ?_) _) fun _ =>
    .bind (.region _ (.call _)) fun current => .bind (.when (.bind (transition_fixed _) fun _ => ?_) _)
      fun _ => .bind (.call _) fun now => .bind (transition_fixed _) fun _ => .pure _
  · cases handle with
    | none => exact .pure _
    | some handle => exact .call _
  · cases handle with
    | none => exact .pure _
    | some handle => exact .call _

theorem cancelled_fixed (handle : RunHandle) : Fixed (cancelled job handle : Async σ Bool) := by
  refine .bind (.call _) fun current => ?_
  split_ifs
  · exact .pure _
  · exact .bind (finishCancel_fixed _) fun _ => .pure _

theorem measure_fixed (handle : RunHandle) : Fixed (measure job handle) := by
  refine .bind (phase_fixed _) fun _ => .bind (.call _) fun _ => .bind (cancelled_fixed _)
    fun seen => ?_
  split_ifs
  · exact .pure _
  refine .bind (phase_fixed _) fun _ => .bind (.call _) fun _ => .bind (cancelled_fixed _)
    fun seen => ?_
  split_ifs
  · exact .pure _
  · exact .bind (phase_fixed _) fun _ => .bind (.call _) fun _ => .bind (phase_fixed _) fun _ =>
      .bind (.call _) fun _ => .pure _

theorem publish_fixed (config : AgentConfig) (document : JobDocument)
    (measurement : EngineMeasurement) : Fixed (publish config job document measurement) := by
  refine .bind (.call _) fun current => .bind (.call _) fun resolved => .bind (.call _) fun _ =>
    .bind (.call _) fun refs => .bind (.call _) fun latest => ?_
  split_ifs
  · exact finishCancel_fixed _
  · exact .bind (.call _) fun now => .bind (transition_fixed _) fun _ => .pure _

theorem executeExcept_fixed (e : Exc) : Fixed (executeExcept job e) := by
  unfold executeExcept
  split_ifs
  · exact .raise _
  · exact .bind (.bind (.call _) fun _ => transition_fixed _) fun _ => .pure _

end Fixed

/-! ### The contract -/

/-- The session that an engine call is about. -/
def EngineCall.handle? : EngineCall → Option RunHandle
  | warmup handle | run handle | stop handle _ | cleanup handle => some handle
  | _ => none

/-- The handle after the answer to a call. -/
def nextHandle (v : Option RunHandle) : (c : Call) → Except Exc c.Res → Option RunHandle
  | .engine (.prepare ..), .ok handle => some handle
  | _, _ => v

def handleContract : Coroutine.Contract Site Call Call.Res Exc (Option RunHandle) where
  pre v _
    | .engine c => ∀ handle, c.handle? = some handle → v = some handle
    | _ => True
  post v _ c r v' := v' = nextHandle v c r

section Task

open Coroutine.Py (safe_call safe_pure safe_raise ok_bind ok_tryExcept ok_tryFinally)

variable {job : JobId} {handle : RunHandle} {l : Site} {σ α : Type} {v : Option RunHandle}

/-- Nothing but `prepare` changes the handle. -/
def Call.prepares : Call → Bool
  | .engine (.prepare ..) => true
  | _ => false

theorem nextHandle_of_not_prepares {c : Call} {r : Except Exc c.Res} (hc : c.prepares = false) :
    nextHandle v c r = v := by
  unfold nextHandle
  split
  · cases hc
  · rfl

/-- The computation keeps the handle, and concerns no session but the handle's. -/
abbrev Handles (v : Option RunHandle) (p : Async σ α) : Prop :=
  p.Safe handleContract fun _ v' => v' = v

theorem Handles.call (c : Call) (hprepares : c.prepares = false)
    (hhandle : ∀ e, c = .engine e → e.handle? = none ∨ e.handle? = v) :
    Handles v (Async.call c : Async σ c.Res) := by
  refine safe_call c ?_
  rintro l v' rfl
  refine ⟨?_, ?_⟩
  · cases c with
    | engine e =>
      intro handle he
      obtain hnone | hsome := hhandle e rfl
      · rw [hnone] at he
        cases he
      · exact hsome.symm.trans he
    | _ => trivial
  · rintro r v'' rfl
    exact nextHandle_of_not_prepares hprepares

theorem Handles.store (c : StoreCall) : Handles v (Async.store c : Async σ c.Res) :=
  .call (.store c) rfl (by simp)

/-- A call about the session of the handle. -/
theorem Handles.engine (c : EngineCall) (hc : c.handle? = some handle) :
    Handles (some handle) (Async.engine c : Async σ c.Res) := by
  refine .call (.engine c) ?_ ?_
  · cases c with
    | prepare => cases hc
    | _ => rfl
  · rintro e ⟨⟩
    exact .inr hc

theorem attemptTransition_handle (req : TransitionRequest) (attempts : Nat) :
    Handles v (attemptTransition job req attempts : Async σ (Option JobSnapshot)) := by
  induction attempts with
  | zero => exact safe_pure none
  | succ attempts ih =>
    unfold attemptTransition
    refine (Handles.store _).bind fun current => ?_
    split_ifs
    · exact safe_pure _
    · exact safe_pure _
    · exact safe_pure _
    · refine Coroutine.Py.Safe.tryExcept ((Handles.store _).bind fun _ =>
        (Handles.call .notify rfl (by simp)).bind fun _ => safe_pure _) fun e => ?_
      split
      · exact ih
      · exact safe_raise _

theorem transition_handle (site : CallSite) :
    Handles v (transition job site : Async σ (Option JobSnapshot)) :=
  attemptTransition_handle _ _

theorem now_handle : Handles v (Async.call .now : Async σ Instant) := .call .now rfl (by simp)

theorem fail_handle (problem : Problem) :
    Handles v (fail job problem : Async σ (Option JobSnapshot)) :=
  now_handle.bind fun _ => transition_handle _

theorem phase_handle (stage : Stage) : Handles v (phase job stage : Async σ Unit) := by
  refine (Handles.store _).bind fun current => now_handle.bind fun now =>
    (transition_handle _).bind fun updated => ?_
  split_ifs
  · exact safe_raise _
  · exact safe_pure _

/-- `_finish_cancel` with a handle, and without one. -/
theorem finishCancel_handle (own : Option RunHandle) (hown : own = none ∨ own = v) :
    Handles v (finishCancel job own : Async σ Unit) := by
  refine Coroutine.Py.Safe.tryFinally ((Handles.store _).bind fun current => ?_)
    ((Handles.store _).when _)
  have hsome : ∀ handle, own = some handle → v = some handle := by
    rintro handle rfl
    exact (hown.resolve_left (by simp)).symm
  split_ifs
  · exact safe_pure _
  refine (Coroutine.Py.Safe.when ((transition_handle _).bind fun _ => ?_) _).bind fun _ => ?_
  · cases own with
    | none => exact safe_pure _
    | some handle =>
      obtain rfl := hsome handle rfl
      exact Handles.engine (.stop handle true) rfl
  refine Coroutine.Py.Safe.bind (fun l s v' hv' => ?_) fun current =>
    (Coroutine.Py.Safe.when ((transition_handle _).bind fun _ => ?_) _).bind fun _ =>
      now_handle.bind fun now => (transition_handle _).bind fun _ => safe_pure _
  · exact Handles.store _ .drained s v' hv'
  · cases own with
    | none => exact safe_pure _
    | some handle =>
      obtain rfl := hsome handle rfl
      exact Handles.engine (.cleanup handle) rfl

theorem cancelled_handle : Handles (some handle) (cancelled job handle : Async σ Bool) := by
  refine (Handles.store _).bind fun current => ?_
  split_ifs
  · exact safe_pure _
  · exact (finishCancel_handle _ (.inr rfl)).bind fun _ => safe_pure _

theorem measure_handle : Handles (some handle) (measure job handle) := by
  refine (phase_handle _).bind fun _ => (Handles.engine (.warmup handle) rfl).bind fun _ =>
    cancelled_handle.bind fun seen => ?_
  split_ifs
  · exact safe_pure _
  refine (phase_handle _).bind fun _ => (Handles.engine (.run handle) rfl).bind fun measurement =>
    cancelled_handle.bind fun seen => ?_
  split_ifs
  · exact safe_pure _
  · exact (phase_handle _).bind fun _ => (Handles.engine (.stop handle false) rfl).bind fun _ =>
      (phase_handle _).bind fun _ => (Handles.engine (.cleanup handle) rfl).bind fun _ => safe_pure _

theorem publish_handle (config : AgentConfig) (document : JobDocument)
    (measurement : EngineMeasurement) :
    Handles v (publish config job document measurement) := by
  refine (Handles.store _).bind fun current => (Handles.store _).bind fun resolved =>
    (Handles.call (.recordCalibrations _ _ _) rfl (by simp)).bind fun _ =>
      (Handles.call (.buildResultBundle _ _ _ _) rfl (by simp)).bind fun refs =>
        (Handles.store _).bind fun latest => ?_
  split_ifs
  · exact finishCancel_handle none (.inl rfl)
  · exact now_handle.bind fun now => (transition_handle _).bind fun _ => safe_pure _

/-- The local variable of `_execute` has the handle, if it has one. -/
def HandleKept (s : ExecuteLocals) (v : Option RunHandle) : Prop := s.handle = none ∨ s.handle = v

theorem prepareRun_handle {fence : Fence} :
    (prepareRun job fence).Ok handleContract l {} (fun r s' v' => HandleKept s' v' ∧
      ∀ x, r = .ok x → s'.handle = some x.2 ∧ v' = some x.2) none := by
  refine Coroutine.Py.Ok.call_bind trivial ?_ ?_
  · rintro e v₁ rfl
    exact ⟨.inl rfl, by simp⟩
  rintro document v₁ rfl
  refine Coroutine.Py.Ok.call_bind trivial ?_ ?_
  · rintro e v₂ rfl
    exact ⟨.inl rfl, by simp⟩
  rintro u v₂ rfl
  refine (Coroutine.Py.ok_assign_bind _ _).mpr ((ok_bind _ _).mpr
    ((Coroutine.Py.ok_tryExcept_call _ _).mpr ⟨?_, ?_⟩))
  · rintro handle ⟨⟩
  rintro (e | handle) v₃ rfl
  · simp only [Coroutine.Py.handled_error]
    split_ifs
    · exact ⟨.inl rfl, by simp⟩
    · exact ⟨.inl rfl, by simp⟩
  · refine ⟨.inr rfl, ?_⟩
    rintro x ⟨⟩
    exact ⟨rfl, rfl⟩

theorem executeBody_handle (config : AgentConfig) {fence : Fence} :
    (executeBody config job fence).Ok handleContract l {} (fun _ s' v' => HandleKept s' v') none := by
  refine prepareRun_handle.bind (fun _ _ _ h => h.1) ?_
  rintro ⟨document, handle⟩ s₁ v₁ ⟨-, h⟩
  obtain ⟨hs, rfl⟩ := h _ rfl
  refine ((measure_fixed handle).keep (measure_handle l s₁ _ rfl)).bind ?_ ?_
  · rintro e s₂ v₂ ⟨rfl, rfl⟩
    exact .inr hs
  rintro (_ | measurement) s₂ v₂ ⟨rfl, rfl⟩
  · exact .inr hs
  refine (Coroutine.Py.ok_assign_bind _ _).mpr (Coroutine.Py.Ok.call_bind trivial ?_ ?_)
  · rintro e v₃ rfl
    exact .inr hs
  rintro u v₃ rfl
  refine (Coroutine.Py.ok_assign_bind _ _).mpr (((publish_fixed config document measurement).keep
    (publish_handle config document measurement l _ _ rfl)).mono ?_)
  rintro r s' v' ⟨rfl, -⟩
  exact .inl rfl

theorem executeFinally_handle {s : ExecuteLocals} (hs : HandleKept s v) :
    (executeFinally job).Ok handleContract l s (fun _ _ _ => True) v := by
  refine (Coroutine.Py.ok_locals_bind _).mpr ?_
  have hattempt : ∀ {p : Async ExecuteLocals Unit}, Handles v p → Handles v (attempt p) :=
    fun hp => Permits.attempt hp
  have hstop : Handles v (stopAndClean s.handle) := by
    obtain hnone | hsome := hs
    · rw [hnone]
      exact safe_pure ()
    · cases hv : s.handle with
      | none => exact safe_pure ()
      | some handle =>
        rw [hv] at hsome
        subst hsome
        exact (hattempt (.engine (.stop handle true) rfl)).bind fun _ =>
          (hattempt (.engine (.cleanup handle) rfl)).bind fun _ => Coroutine.Py.safe_assign _
  refine (hstop l s v rfl).bind (fun _ _ _ _ => trivial) fun _ s₁ v₁ hv₁ => ?_
  refine (Coroutine.Py.ok_locals_bind _).mpr (((Handles.store (.deleteExecutionMarker job)).when _
    l s₁ v₁ hv₁).bind (fun _ _ _ _ => trivial) fun _ s₂ v₂ hv₂ => ?_)
  exact (Handles.store (.releasePorts job _) l s₂ v₂ hv₂).mono fun _ _ _ _ => trivial

/-- A task concerns itself with no session but that of the handle it has prepared. -/
theorem taskProgram_handle (config : AgentConfig) (kind : TaskKind) :
    (taskProgram config job kind).Ok handleContract l () (fun _ _ _ => True) none := by
  cases kind with
  | execute fence =>
    refine Coroutine.Py.Ok.call_bind trivial (fun _ _ _ => trivial) ?_
    rintro u v₁ rfl
    refine (ok_tryExcept _ _).mpr ((Coroutine.Py.ok_withLocals _ _).mpr ?_)
    have hfinally : ∀ (r : Except Exc Unit) (s' : ExecuteLocals) (v' : Option RunHandle),
        HandleKept s' v' → (executeFinally job).Ok handleContract .unwinding s'
          (Coroutine.Py.Finally (fun _ _ _ => True) r) v' := by
      intro r s' v' h
      refine (executeFinally_handle h).mono ?_
      rintro (e | u) _ _ _
      · exact trivial
      · exact trivial
    have hexecute : (execute config job fence).Ok handleContract l {} (fun _ _ _ => True) none := by
      refine (ok_tryFinally _ _).mpr ((ok_tryExcept _ _).mpr ((executeBody_handle config).mono ?_))
      rintro (e | u) s₁ v₁ h
      · have hexcept : Handles v₁ (executeExcept job e : Async ExecuteLocals Unit) := by
          unfold executeExcept
          split_ifs
          · exact safe_raise _
          · exact (fail_handle _).bind fun _ => safe_pure _
        refine (Coroutine.Py.handled_error _ _).mpr
          (((executeExcept_fixed e).keep (hexcept l s₁ v₁ rfl)).mono ?_)
        rintro r s₂ v₂ ⟨rfl, rfl⟩
        exact hfinally r s₂ v₂ h
      · exact hfinally (.ok u) s₁ v₁ h
    refine hexecute.mono ?_
    rintro (e | u) _ v₂ _
    · cases e with
      | expired =>
        exact ((fail_handle _).bind fun _ => Handles.store _) .timedOut () v₂ rfl |>.mono
          fun _ _ _ _ => trivial
      | _ => exact trivial
    · exact trivial
  | finishCancel =>
    refine Coroutine.Py.Ok.call_bind trivial (fun _ _ _ => trivial) ?_
    rintro u v₁ rfl
    exact (finishCancel_handle none (.inl rfl) l () _ rfl).mono fun _ _ _ _ => trivial
  | reportProgress update completed total =>
    exact ((transition_handle _).bind fun _ => safe_pure ()) l () none rfl |>.mono
      fun _ _ _ _ => trivial

end Task

end TrexCli
