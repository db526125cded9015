import TrexCli.Engine.Sessions
import TrexCli.Jobs.HandleContract

/-!
# How an execution ends its session

`endContract` holds of an execution that nothing interrupts, on an engine of either kind. Its view
follows the session of the run handle through `stop` and `cleanup`, which the normal path,
`_finish_cancel` and the `finally` block of `_execute` all call. The point is what is asked of the
release of the ports: they become available only when the session has been taken down, and go into
quarantine only when a call to end the session failed, or when the ASTF engine has already dropped a
session that the cancellation has ended.
-/

namespace TrexCli

open Engine (AdapterKind SessionView StopsMissing)
open Coroutine.Py (ok_bind ok_tryExcept ok_tryFinally Ends)

/-- What is known of an execution that nothing has interrupted. -/
structure EndView where
  state : JobState
  /-- A cancel request of the job has been seen. -/
  flagged : Bool := false
  /-- The marker of the job may be stored. -/
  marked : Bool := false
  handle : Option RunHandle := none
  session : SessionView := {}

/-- The ports may be released, into quarantine or not. -/
structure Settles (kind : AdapterKind) (v : EndView) (quarantine : Bool) : Prop where
  free : quarantine = false → v.marked = false ∧ (v.handle.isSome = true → v.session.released = true)
  held : quarantine = true → v.handle.isSome = true ∧ (v.session.faulty = true ∨
    kind = .astf ∧ v.session.released = true ∧ v.flagged = true)

/-- What an execution may call. -/
def EndCall (kind : AdapterKind) (v : EndView) : Call → Prop
  | .engine (.prepare ..) => v.handle = none
  | .engine (.warmup h) | .engine (.stop h _) | .engine (.cleanup h) => v.handle = some h
  | .engine (.run h) => v.handle = some h ∧ v.session.stopped = false ∧ v.session.released = false
  | .engine (.validate _) | .engine (.reconcile ..) => False
  | .store (.releasePorts _ quarantine) => Settles kind v quarantine
  | _ => True

/-- The view after the answer to a call. -/
def EndStep (kind : AdapterKind) (v : EndView) : (c : Call) → Except Exc c.Res → EndView → Prop
  | .store (.getSnapshot _), .ok x, v' => x.state = v.state ∧
    v' = { v with flagged := v.flagged || x.cancelRequested }
  | .store (.updateSnapshot s ..), .ok _, v' => v' = { v with state := s.state }
  | .store (.saveExecutionMarker _), .ok _, v' => v' = { v with marked := true }
  | .store (.deleteExecutionMarker _), .ok _, v' => v' = { v with marked := false }
  | .engine (.prepare ..), .ok h, v' => v' = { v with handle := some h, session := { live := true } }
  | .engine (.run _), _, v' => ∃ stopped, v' = { v with session := v.session.run stopped }
  | .engine (.stop ..), r, v' => (v.session.live = false → StopsMissing kind r) ∧
    v' = { v with session := v.session.stop r }
  | .engine (.cleanup _), r, v' => (v.session.live = false → r = .ok ()) ∧
    v' = { v with session := v.session.cleanup kind r }
  | _, _, v' => v' = v

def endContract (kind : AdapterKind) : Coroutine.Contract Site Call Call.Res Exc EndView where
  pre v _ c := EndCall kind v c
  post v _ c r v' := (∀ e, r = .error e → e.isException = true ∧ c.Raises ∅ e) ∧ EndStep kind v c r v'

section End

variable {kind : AdapterKind} {job : JobId} {σ α β : Type}

/-- An outcome: a value in `Q`, or an exception that `except Exception` catches, in `R`. -/
def Leaves (Q : α → EndView → Prop) (R : EndView → Prop) (r : Except Exc α) (_ : σ) (v : EndView) :
    Prop :=
  Ends Q (fun e v => e.isException = true ∧ R v) r v

/-- The computation raises only exceptions, and keeps `I`. -/
def EndKeeps (kind : AdapterKind) (I : EndView → Prop) (p : Async σ α) : Prop :=
  ∀ l s v, I v → p.Ok (endContract kind) l s (Leaves (fun _ => I) I) v

namespace EndKeeps

variable {I : EndView → Prop}

theorem pure (a : α) : EndKeeps kind I (Pure.pure a : Async σ α) := fun _ _ _ hv => hv

theorem raise {e : Exc} (he : e.isException = true) :
    EndKeeps kind I (Coroutine.Py.raise e : Async σ α) := fun _ _ _ hv => ⟨he, hv⟩

theorem bind {p : Async σ α} {f : α → Async σ β} (hp : EndKeeps kind I p)
    (hf : ∀ a, EndKeeps kind I (f a)) : EndKeeps kind I (p >>= f) := by
  intro l s v hv
  exact (hp l s v hv).bind (fun _ _ _ h => h) fun a s' v' h => hf a l s' v' h

/-- A call that moves the view at most within `I`. -/
theorem call (c : Call) (hc : ∀ v, I v → EndCall kind v c)
    (h : ∀ v r v', I v → EndStep kind v c r v' → I v') :
    EndKeeps kind I (Async.call c : Async σ c.Res) := by
  intro l s v hv
  refine ⟨hc v hv, ?_⟩
  rintro (e | a) v' ⟨he, hstep⟩
  · exact ⟨(he e rfl).1, h v _ v' hv hstep⟩
  · exact h v _ v' hv hstep

end EndKeeps

/-- What a cancel request or a transition of the job does not change. -/
structure Stable (I : EndView → Prop) : Prop where
  flag : ∀ v b, I v → I { v with flagged := v.flagged || b }
  state : ∀ v state, I v → I { v with state }

/-- The call is none that the view follows, but for what it sees of the job. -/
def Call.looks : Call → Bool
  | .store (.getSnapshot _) | .store (.getDocument _) | .now | .notify | .start
  | .recordCalibrations .. | .buildResultBundle .. => true
  | _ => false

variable {I : EndView → Prop}

theorem look_keeps (hflag : ∀ v b, I v → I { v with flagged := v.flagged || b }) (c : Call)
    (hc : c.looks = true) : EndKeeps kind I (Async.call c : Async σ c.Res) := by
  refine .call c ?_ ?_
  · intro v _
    cases c with
    | store c => cases c <;> trivial
    | engine => cases hc
    | _ => trivial
  · intro v r v' hv hstep
    cases c with
    | store c =>
      cases c with
      | getSnapshot job =>
        cases r with
        | error e =>
          obtain rfl : v' = v := hstep
          exact hv
        | ok x =>
          obtain ⟨-, rfl⟩ := hstep
          exact hflag v _ hv
      | getDocument job =>
        obtain rfl : v' = v := by cases r <;> exact hstep
        exact hv
      | _ => cases hc
    | now | notify | start | recordCalibrations | buildResultBundle =>
      obtain rfl : v' = v := by cases r <;> exact hstep
      exact hv
    | _ => cases hc

/-- The rule of `_transition`, with the state of the job after it. -/
theorem transition_end (hI : Stable I) (site : CallSite) {l : Site} {s : σ} {v : EndView} (hv : I v) :
    (transition job site : Async σ (Option JobSnapshot)).Ok (endContract kind) l s
      (Leaves (fun x v' => I v' ∧ (x.isSome = true →
        v'.state.terminal = true ∨ v'.state = site.request.state)) I) v := by
  refine (attemptTransition_ends (I := I) (N := I) (K := fun x v => I v ∧ v.state = x.state)
    (R := fun e v => e.isException = true ∧ I v) ?_ (fun _ _ h _ _ => h.1) ?_ ?_ 3 s hv
    fun _ => hv).mono ?_
  · refine fun v hv => ⟨trivial, ?_⟩
    rintro (e | x) v' ⟨he, hstep⟩
    · obtain rfl : v' = v := hstep
      exact ⟨(he e rfl).1, hv⟩
    · obtain ⟨hx, rfl⟩ := hstep
      exact ⟨hI.flag v _ hv, hx.symm⟩
  · refine fun v x hx _ => ⟨trivial, ?_⟩
    rintro (e | u) v' ⟨he, hstep⟩
    · obtain rfl : v' = v := hstep
      obtain rfl : e = .revisionConflict := (he e rfl).2
      exact ⟨hx.1, hx.1⟩
    · obtain rfl : v' = _ := hstep
      exact ⟨hI.state v _ hx.1, rfl⟩
  · refine fun v x hx => ⟨trivial, ?_⟩
    rintro (e | u) v' ⟨he, hstep⟩
    · exact (he e rfl).2.elim
    · obtain rfl : v' = v := hstep
      exact hx
  · rintro (e | _ | x) s' v' h
    · exact h
    · exact ⟨h, by simp⟩
    · obtain ⟨⟨hkept, hstate⟩, hreached⟩ := h
      refine ⟨hkept, fun _ => ?_⟩
      rw [hstate]
      exact hreached

theorem transition_keeps (hI : Stable I) (site : CallSite) :
    EndKeeps kind I (transition job site : Async σ (Option JobSnapshot)) := by
  intro l s v hv
  refine (transition_end hI site hv).mono ?_
  rintro (e | x) s' v' h
  · exact h
  · exact h.1

theorem fail_keeps (hI : Stable I) (problem : Problem) :
    EndKeeps kind I (fail job problem : Async σ (Option JobSnapshot)) :=
  (look_keeps hI.flag .now rfl).bind fun _ => transition_keeps hI _

/-- The rule of `_phase`. -/
theorem phase_end (hI : Stable I) (stage : Stage) {l : Site} {s : σ} {v : EndView} (hv : I v) :
    (phase job stage : Async σ Unit).Ok (endContract kind) l s
      (Leaves (fun _ v' => I v' ∧ (stage ≠ .draining → v'.state ≠ .draining)) I) v := by
  refine ((look_keeps hI.flag (.store (.getSnapshot job)) rfl) l s v hv).bind (fun _ _ _ h => h)
    fun current s₁ v₁ hv₁ => ?_
  refine ((look_keeps hI.flag .now rfl) l s₁ v₁ hv₁).bind (fun _ _ _ h => h) fun now s₂ v₂ hv₂ => ?_
  refine (transition_end hI _ hv₂).bind (fun _ _ _ h => h) fun updated s₃ v₃ hv₃ => ?_
  split
  · exact ⟨rfl, hv₃.1⟩
  · rename_i hsome
    refine ⟨hv₃.1, fun hstage hdraining => ?_⟩
    have hreached := hv₃.2 (by simpa [Option.isSome_iff_ne_none] using hsome)
    rw [hdraining] at hreached
    obtain hterm | hstate := hreached
    · cases hterm
    · cases stage with
      | draining => exact hstage rfl
      | _ => cases hstate

end End

/-! ### One session -/

/-- The session of the handle is in the dictionary. -/
structure Held (handle : RunHandle) (v : EndView) : Prop where
  handle : v.handle = some handle
  live : v.session.live = true

/-- Nothing has been done yet to end the session. -/
structure Unended (handle : RunHandle) (v : EndView) : Prop extends Held handle v where
  stopped : v.session.stopped = false
  released : v.session.released = false

/-- If the dictionary has lost the session, then a cancellation has taken it down, or its cleanup has
failed on the ASTF engine. -/
structure Closing (kind : AdapterKind) (handle : RunHandle) (v : EndView) : Prop where
  handle : v.handle = some handle
  gone : v.session.live = false →
    v.session.released = true ∧ v.flagged = true ∨ kind = .astf ∧ v.session.faulty = true

section Session

variable {kind : AdapterKind} {job : JobId} {handle : RunHandle} {l : Site} {σ α : Type} {v : EndView}

theorem Held.closing (h : Held handle v) : Closing kind handle v where
  handle := h.handle
  gone hlive := by
    rw [h.live] at hlive
    cases hlive

theorem stable_held : Stable (Held handle) where
  flag _ _ h := ⟨h.handle, h.live⟩
  state _ _ h := ⟨h.handle, h.live⟩

theorem stable_unended : Stable (Unended handle) where
  flag _ _ h := ⟨⟨h.handle, h.live⟩, h.stopped, h.released⟩
  state _ _ h := ⟨⟨h.handle, h.live⟩, h.stopped, h.released⟩

theorem stable_closing : Stable (Closing kind handle) where
  flag _ _ h := by
    refine ⟨h.handle, fun hlive => (h.gone hlive).imp_left ?_⟩
    rintro ⟨hreleased, hflagged⟩
    refine ⟨hreleased, ?_⟩
    simp [hflagged]
  state _ _ h := ⟨h.handle, h.gone⟩

theorem Stable.and {I J : EndView → Prop} (hI : Stable I) (hJ : Stable J) :
    Stable fun v => I v ∧ J v where
  flag v b hv := ⟨hI.flag v b hv.1, hJ.flag v b hv.2⟩
  state v state hv := ⟨hI.state v state hv.1, hJ.state v state hv.2⟩

theorem stable_flagged : Stable fun v => v.flagged = true where
  flag v b hv := by simp [hv]
  state _ _ hv := hv

theorem stable_stopped : Stable fun v => v.session.stopped = true where
  flag _ _ hv := hv
  state _ _ hv := hv

theorem warmup_keeps {I : EndView → Prop} (hI : ∀ v, I v → v.handle = some handle) :
    EndKeeps kind I (Async.engine (.warmup handle) : Async σ Unit) := by
  refine .call (.engine (.warmup handle)) hI ?_
  intro v r v' hv hstep
  obtain rfl : v' = v := by cases r <;> exact hstep
  exact hv

theorem run_end {s : σ} (hv : Unended handle v) :
    (Async.engine (.run handle) : Async σ EngineMeasurement).Ok (endContract kind) l s
      (Leaves (fun _ v' => Held handle v' ∧ v'.state = v.state) (Held handle)) v := by
  refine ⟨⟨hv.handle, hv.stopped, hv.released⟩, ?_⟩
  rintro (e | measurement) v' ⟨he, stopped, rfl⟩
  · exact ⟨(he e rfl).1, hv.handle, hv.live⟩
  · exact ⟨⟨hv.handle, hv.live⟩, rfl⟩

theorem stop_end {s : σ} (force : Bool) (hv : Held handle v) :
    (Async.engine (.stop handle force) : Async σ Unit).Ok (endContract kind) l s
      (Leaves (fun _ v' => v' = { v with session := { v.session with stopped := true } })
        (fun v' => v' = { v with session := { v.session with faulty := true } })) v := by
  refine ⟨hv.handle, ?_⟩
  rintro (e | u) v' ⟨he, -, rfl⟩
  · refine ⟨(he e rfl).1, ?_⟩
    rw [SessionView.stop, if_pos hv.live]
  · show _ = _
    rw [SessionView.stop, if_pos hv.live]

theorem cleanup_end {s : σ} (hv : Held handle v) :
    (Async.engine (.cleanup handle) : Async σ Unit).Ok (endContract kind) l s
      (Leaves
        (fun _ v' => v' = { v with session :=
          { v.session with live := false, released := v.session.stopped || v.session.released } })
        (fun v' => v' = { v with session :=
          { v.session with live := kind = .stl, faulty := true } })) v := by
  refine ⟨hv.handle, ?_⟩
  rintro (e | u) v' ⟨he, -, rfl⟩
  · refine ⟨(he e rfl).1, ?_⟩
    rw [SessionView.cleanup, if_pos hv.live]
  · show _ = _
    rw [SessionView.cleanup, if_pos hv.live]

/-- A failed cleanup. -/
theorem Held.closing_of_faulty (hv : Held handle v) :
    Closing kind handle
      { v with session := { v.session with live := kind = .stl, faulty := true } } where
  handle := hv.handle
  gone hlive := by
    right
    cases kind with
    | stl => simp at hlive
    | astf => exact ⟨rfl, rfl⟩

/-! ### `_finish_cancel` with a handle -/

/-- The drain step, from a state that is not `DRAINING`. -/
theorem drainStep_end {s : σ} (hstate : v.state ≠ .draining)
    (hv : Held handle v ∧ v.flagged = true) :
    (Coroutine.Py.when (v.state ≠ .draining) (do
      let _ ← transition job (.cancelDrain v.state)
      match some handle with
      | some handle => Async.engine (.stop handle true)
      | none => pure ()) : Async σ Unit).Ok (endContract kind) l s
      (Leaves (fun _ v' => (Held handle v' ∧ v'.flagged = true) ∧ v'.session.stopped = true)
        (Closing kind handle)) v := by
  refine Coroutine.Py.ok_when (fun _ => ?_) fun h => absurd hstate h
  refine ((transition_keeps (stable_held.and stable_flagged) _) l s v hv).bind
    (fun _ _ _ h => ⟨h.1, h.2.1.closing⟩) fun _ s₁ v₁ hv₁ => ?_
  refine (stop_end true hv₁.1).mono ?_
  rintro (e | u) s₂ v₂ h
  · obtain ⟨he, rfl⟩ := h
    exact ⟨he, Held.closing ⟨hv₁.1.handle, hv₁.1.live⟩⟩
  · obtain rfl : v₂ = _ := h
    exact ⟨⟨⟨hv₁.1.handle, hv₁.1.live⟩, hv₁.2⟩, rfl⟩

/-- The collection step, of a session that has been stopped. -/
theorem collectStep_end {s : σ} (read : JobState)
    (hv : (Held handle v ∧ v.flagged = true) ∧ v.session.stopped = true) :
    (Coroutine.Py.when (read ≠ .collecting) (do
      let _ ← transition job (.cancelCollection read)
      match some handle with
      | some handle => Async.engine (.cleanup handle)
      | none => pure ()) : Async σ Unit).Ok (endContract kind) l s
      (Leaves (fun _ => Closing kind handle) (Closing kind handle)) v := by
  refine Coroutine.Py.ok_when (fun _ => ?_) fun _ => hv.1.1.closing
  refine ((transition_keeps ((stable_held.and stable_flagged).and stable_stopped) _) l s v hv).bind
    (fun _ _ _ h => ⟨h.1, h.2.1.1.closing⟩) fun _ s₁ v₁ hv₁ => ?_
  obtain ⟨⟨hheld, hflagged⟩, hstopped⟩ := hv₁
  refine (cleanup_end hheld).mono ?_
  rintro (e | u) s₂ v₂ h
  · obtain ⟨he, rfl⟩ := h
    exact ⟨he, hheld.closing_of_faulty⟩
  · obtain rfl : v₂ = _ := h
    refine ⟨hheld.handle, fun _ => .inl ⟨?_, hflagged⟩⟩
    simp [hstopped]

theorem drainAndCollect_end {s : σ} (hstate : v.state ≠ .draining)
    (hv : Held handle v ∧ v.flagged = true) :
    (drainAndCollect job (some handle) : Async σ Unit).Ok (endContract kind) l s
      (Leaves (fun _ => Closing kind handle) (Closing kind handle)) v := by
  refine Coroutine.Py.Ok.call_bind trivial ?_ ?_
  · rintro e v₁ ⟨he, hstep⟩
    obtain rfl : v₁ = v := hstep
    exact ⟨(he e rfl).1, hv.1.closing⟩
  rintro current v₁ ⟨-, hcurrent, rfl⟩
  split_ifs
  · exact (stable_closing.flag v _ hv.1.closing)
  rw [hcurrent]
  refine (drainStep_end (v := { v with flagged := v.flagged || current.cancelRequested }) hstate
    ((stable_held.and stable_flagged).flag v _ hv)).bind (fun _ _ _ h => h) fun _ s₂ v₂ hv₂ => ?_
  refine ((Coroutine.Py.ok_region _ _).mpr (look_keeps ((stable_held.and stable_flagged).and
    stable_stopped).flag (.store (.getSnapshot job)) rfl .drained s₂ v₂ hv₂)).bind
    (fun _ _ _ h => ⟨h.1, h.2.1.1.closing⟩) fun current s₃ v₃ hv₃ => ?_
  refine (collectStep_end current.state hv₃).bind (fun _ _ _ h => h) fun _ s₄ v₄ hv₄ => ?_
  refine (look_keeps stable_closing.flag .now rfl l s₄ v₄ hv₄).bind (fun _ _ _ h => h)
    fun now s₅ v₅ hv₅ => ?_
  exact (transition_keeps stable_closing _ l s₅ v₅ hv₅).bind (fun _ _ _ h => h) fun _ _ _ h => h

/-- `_cancelled`, in a state that is not `DRAINING`. -/
theorem cancelled_end {s : σ} {I : EndView → Prop} (hI : Stable I)
    (hheld : ∀ v, I v → Held handle v) (hstate : v.state ≠ .draining) (hv : I v) :
    (cancelled job handle : Async σ Bool).Ok (endContract kind) l s
      (Leaves (fun seen v' => if seen then Closing kind handle v' else I v')
        (Closing kind handle)) v := by
  refine Coroutine.Py.Ok.call_bind trivial ?_ ?_
  · rintro e v₁ ⟨he, hstep⟩
    obtain rfl : v₁ = v := hstep
    exact ⟨(he e rfl).1, (hheld _ hv).closing⟩
  rintro current v₁ ⟨-, -, rfl⟩
  split_ifs with hcancel
  · exact hI.flag v _ hv
  · refine Coroutine.Py.Ok.bind (P := Leaves (fun _ => Closing kind handle) (Closing kind handle))
      ?_ (fun _ _ _ h => h) fun _ _ _ h => h
    refine (ok_tryFinally _ _).mpr ((drainAndCollect_end (v := { v with flagged :=
      v.flagged || current.cancelRequested }) hstate ⟨stable_held.flag v _ (hheld v hv), ?_⟩).mono ?_)
    · simp [show current.cancelRequested = true by simpa using hcancel]
    · exact fun r s' v' h => h

end Session

/-! ### One execution -/

/-- What the `finally` block of `_execute` starts from. -/
def Finishing (kind : AdapterKind) (s : ExecuteLocals) (v : EndView) : Prop :=
  match s.handle with
  | some handle => Closing kind handle v
  | none => s.cleanupConfirmed = true ∧ (v.handle.isSome = true → v.session.released = true)

/-- What `stopAndClean` has found out. -/
structure Cleaned (kind : AdapterKind) (confirmed : Bool) (v : EndView) : Prop where
  free : confirmed = true → v.handle.isSome = true → v.session.released = true
  held : confirmed = false → v.handle.isSome = true ∧ (v.session.faulty = true ∨
    kind = .astf ∧ v.session.released = true ∧ v.flagged = true)

section Execute

variable {kind : AdapterKind} {job : JobId} {handle : RunHandle} {l : Site} {v : EndView}

/-- `_execute` between `prepare` and the deletion of the marker. -/
theorem measure_end {s : ExecuteLocals} (hv : Unended handle v) :
    (measure job handle).Ok (endContract kind) l s
      (Leaves (fun measurement v' => if measurement.isSome then
        v'.handle = some handle ∧ v'.session.released = true else Closing kind handle v')
        (Closing kind handle)) v := by
  refine (phase_end stable_unended .warmingUp hv).bind
    (fun _ _ _ h => ⟨h.1, h.2.closing⟩) fun _ s₁ v₁ hv₁ => ?_
  refine (warmup_keeps (I := fun v => Unended handle v ∧ v.state ≠ .draining) (fun _ h => h.1.handle)
    l s₁ v₁ ⟨hv₁.1, hv₁.2 (by decide)⟩).bind (fun _ _ _ h => ⟨h.1, h.2.1.closing⟩)
    fun _ s₂ v₂ hv₂ => ?_
  refine (cancelled_end stable_unended (fun _ h => h.toHeld) hv₂.2 hv₂.1).bind (fun _ _ _ h => h)
    fun seen s₃ v₃ hv₃ => ?_
  cases seen with
  | true => exact hv₃
  | false =>
    refine (phase_end stable_unended .running hv₃).bind
      (fun _ _ _ h => ⟨h.1, h.2.closing⟩) fun _ s₄ v₄ hv₄ => ?_
    refine (run_end hv₄.1).bind (fun _ _ _ h => ⟨h.1, h.2.closing⟩) fun measurement s₅ v₅ hv₅ => ?_
    have hstate : v₅.state ≠ .draining := by
      rw [hv₅.2]
      exact hv₄.2 (by decide)
    refine (cancelled_end stable_held (fun _ h => h) hstate hv₅.1).bind (fun _ _ _ h => h)
      fun seen s₆ v₆ hv₆ => ?_
    cases seen with
    | true => exact hv₆
    | false =>
      refine (phase_end stable_held .draining hv₆).bind (fun _ _ _ h => ⟨h.1, h.2.closing⟩)
        fun _ s₇ v₇ hv₇ => ?_
      refine (stop_end false hv₇.1).bind ?_ ?_
      · rintro e s₈ v₈ ⟨he, rfl⟩
        exact ⟨he, Held.closing ⟨hv₇.1.handle, hv₇.1.live⟩⟩
      rintro u s₈ v₈ rfl
      have hended : Held handle { v₇ with session := { v₇.session with stopped := true } } :=
        ⟨hv₇.1.handle, hv₇.1.live⟩
      refine (phase_end (stable_held.and stable_stopped) .collecting ⟨hended, rfl⟩).bind
        (fun _ _ _ h => ⟨h.1, h.2.1.closing⟩) fun _ s₉ v₉ hv₉ => ?_
      obtain ⟨⟨hheld, hstopped⟩, -⟩ := hv₉
      refine (cleanup_end hheld).bind ?_ ?_
      · rintro e s' v' ⟨he, rfl⟩
        exact ⟨he, hheld.closing_of_faulty⟩
      rintro u s' v' rfl
      refine ⟨hheld.handle, ?_⟩
      simp [hstopped]

theorem prepareRun_end {fence : Fence} (hv : v.handle = none) :
    (prepareRun job fence).Ok (endContract kind) l {}
      (fun r s' v' => match r with
        | .ok (_, handle) => s'.handle = some handle ∧ Unended handle v'
        | .error e => e.isException = true ∧ Finishing kind s' v') v := by
  have hfinishing : ∀ {v' : EndView}, v'.handle = none → Finishing kind {} v' := by
    intro v' hv'
    refine ⟨rfl, fun hsome => ?_⟩
    rw [hv'] at hsome
    cases hsome
  refine Coroutine.Py.Ok.call_bind trivial ?_ ?_
  · rintro e v₁ ⟨he, hstep⟩
    obtain rfl : v₁ = v := hstep
    exact ⟨(he e rfl).1, hfinishing hv⟩
  rintro document v₁ ⟨-, hstep⟩
  obtain rfl : v₁ = v := hstep
  refine Coroutine.Py.Ok.call_bind trivial (fun e v₂ hr₂ => (hr₂.1 e rfl).2.elim) ?_
  rintro u v₂ ⟨-, hstep₂⟩
  obtain rfl : v₂ = _ := hstep₂
  refine (Coroutine.Py.ok_assign_bind _ _).mpr ?_
  refine (ok_bind _ _).mpr ((Coroutine.Py.ok_tryExcept_call _ _).mpr ⟨hv, ?_⟩)
  rintro (e | handle) v₃ ⟨he, hstep₃⟩
  · obtain rfl : v₃ = _ := hstep₃
    simp only [Coroutine.Py.handled_error, if_pos (he e rfl).1]
    exact ⟨(he e rfl).1, hfinishing hv⟩
  · obtain rfl : v₃ = _ := hstep₃
    exact ⟨rfl, ⟨rfl, rfl⟩, rfl, rfl⟩

/-- What `publish` keeps. -/
structure Published (v : EndView) : Prop where
  marked : v.marked = false
  released : v.session.released = true

theorem stable_published : Stable Published where
  flag _ _ h := ⟨h.marked, h.released⟩
  state _ _ h := ⟨h.marked, h.released⟩

/-- `_finish_cancel` without a handle releases the ports for good. -/
theorem finishCancel_keeps {σ : Type} {I : EndView → Prop} (hI : Stable I)
    (hfree : ∀ v, I v → v.marked = false ∧ (v.handle.isSome = true → v.session.released = true)) :
    EndKeeps kind I (finishCancel job none : Async σ Unit) := by
  have hnone : ∀ (c : Prop) [Decidable c] (site : CallSite), EndKeeps kind I
      (Coroutine.Py.when c (do
        let _ ← transition job site
        pure ()) : Async σ Unit) := by
    intro c _ site l s v hv
    refine Coroutine.Py.ok_when (fun _ => ?_) fun _ => hv
    exact (transition_keeps hI site).bind (fun _ => .pure ()) l s v hv
  have hdrain : EndKeeps kind I (drainAndCollect job none : Async σ Unit) := by
    refine .bind (look_keeps hI.flag (.store (.getSnapshot job)) rfl) fun current => ?_
    split_ifs
    · exact .pure ()
    · refine .bind (hnone _ _) fun _ => .bind ?_ fun current => .bind (hnone _ _) fun _ =>
        .bind (look_keeps hI.flag .now rfl) fun now => .bind (transition_keeps hI _) fun _ => .pure ()
      exact fun l s v hv => look_keeps hI.flag (.store (.getSnapshot job)) rfl .drained s v hv
  intro l s v hv
  refine (ok_tryFinally _ _).mpr ((hdrain l s v hv).mono ?_)
  intro r s' v' h
  have hv' : I v' := by cases r <;> [exact h.2; exact h]
  refine Coroutine.Py.ok_when (fun _ => ?_) fun h => absurd rfl h
  refine ⟨⟨fun _ => hfree v' hv', by simp⟩, ?_⟩
  rintro (e | u) v'' ⟨he, hstep⟩
  · exact (he e rfl).2.elim
  · obtain rfl : v'' = v' := hstep
    exact h

theorem publish_keeps (config : AgentConfig) (document : JobDocument)
    (measurement : EngineMeasurement) :
    EndKeeps kind Published (publish config job document measurement) := by
  have hlook : ∀ c : Call, c.looks = true →
      EndKeeps kind Published (Async.call c : Async ExecuteLocals c.Res) :=
    look_keeps stable_published.flag
  refine .bind (hlook (.store (.getSnapshot job)) rfl) fun current =>
    .bind (hlook (.store (.getDocument job)) rfl) fun resolved =>
      .bind (hlook (.recordCalibrations _ _ _) rfl) fun _ =>
        .bind (hlook (.buildResultBundle _ _ _ _) rfl) fun refs =>
          .bind (hlook (.store (.getSnapshot job)) rfl) fun latest => ?_
  split_ifs
  · exact finishCancel_keeps stable_published fun v hv => ⟨hv.marked, fun _ => hv.released⟩
  · exact .bind (hlook .now rfl) fun now => .bind (transition_keeps stable_published _) fun _ =>
      .pure ()

theorem executeBody_end (config : AgentConfig) {fence : Fence} (hv : v.handle = none) :
    (executeBody config job fence).Ok (endContract kind) l {}
      (fun r s' v' => (∀ e, r = .error e → e.isException = true) ∧ Finishing kind s' v') v := by
  refine (prepareRun_end hv).bind ?_ ?_
  · rintro e s₁ v₁ ⟨he, hfinishing⟩
    refine ⟨?_, hfinishing⟩
    rintro e' ⟨⟩
    exact he
  rintro ⟨document, handle⟩ s₁ v₁ ⟨hs₁, hv₁⟩
  have hclosing : ∀ {v'}, Closing kind handle v' → Finishing kind s₁ v' := by
    intro v' h
    rw [Finishing, hs₁]
    exact h
  refine ((measure_fixed handle).keep (measure_end hv₁)).bind ?_ ?_
  · rintro e s₂ v₂ ⟨rfl, he, h⟩
    refine ⟨?_, hclosing h⟩
    rintro e' ⟨⟩
    exact he
  rintro (_ | measurement) s₂ v₂ ⟨rfl, h⟩
  · exact ⟨by simp, hclosing h⟩
  obtain ⟨hhandle, hreleased⟩ : v₂.handle = some handle ∧ v₂.session.released = true := h
  refine (Coroutine.Py.ok_assign_bind _ _).mpr ?_
  refine Coroutine.Py.Ok.call_bind trivial (fun e v₃ hr₃ => (hr₃.1 e rfl).2.elim) ?_
  rintro u v₃ ⟨-, hstep⟩
  obtain rfl : v₃ = _ := hstep
  refine (Coroutine.Py.ok_assign_bind _ _).mpr ?_
  refine ((publish_fixed config document measurement).keep
    (publish_keeps config document measurement l _ { v₂ with marked := false } ⟨rfl, hreleased⟩)).mono ?_
  rintro (e | u) s' v' ⟨rfl, h⟩
  · refine ⟨?_, rfl, fun _ => h.2.released⟩
    rintro e' ⟨⟩
    exact h.1
  · exact ⟨by simp, rfl, fun _ => h.released⟩

/-- The rule of a call whose exception is only noted. -/
theorem attempt_end {σ : Type} {p : Async σ Unit} {s : σ} {Q R : EndView → Prop}
    (h : p.Ok (endContract kind) l s (Leaves (fun _ => Q) R) v) :
    (attempt p).Ok (endContract kind) l s
      (Leaves (fun went v' => if went then Q v' else R v') fun _ => False) v := by
  refine (ok_tryExcept _ _).mpr ((ok_bind _ _).mpr (h.mono ?_))
  rintro (e | u) s' v' hp
  · simp only [Coroutine.Py.then_error, Coroutine.Py.handled_error, if_pos hp.1]
    exact hp.2
  · exact hp

/-- The second try, on a session that is in the dictionary. -/
theorem attemptBoth_end {s : ExecuteLocals} (hv : Held handle v) :
    (stopAndClean (some handle)).Ok (endContract kind) l s
      (fun r s' v' => r = .ok () ∧ Cleaned kind s'.cleanupConfirmed v') v := by
  refine (attempt_end (stop_end true hv)).bind (fun _ _ _ h => h.2.elim) fun stopped s₁ v₁ hv₁ => ?_
  have hheld : Held handle v₁ ∧
      (stopped = true → v₁.session.stopped = true) ∧ (stopped = false → v₁.session.faulty = true) := by
    cases stopped with
    | true =>
      obtain rfl : v₁ = _ := hv₁
      exact ⟨⟨hv.handle, hv.live⟩, fun _ => rfl, by simp⟩
    | false =>
      obtain rfl : v₁ = _ := hv₁
      exact ⟨⟨hv.handle, hv.live⟩, by simp, fun _ => rfl⟩
  have hsome : v₁.handle.isSome = true := by simp [hheld.1.handle]
  refine (attempt_end (cleanup_end hheld.1)).bind (fun _ _ _ h => h.2.elim)
    fun cleaned s₂ v₂ hv₂ => ⟨rfl, ?_⟩
  cases cleaned with
  | true =>
    obtain rfl : v₂ = _ := hv₂
    cases stopped with
    | true => exact ⟨fun _ _ => by simp [hheld.2.1 rfl], by simp⟩
    | false => exact ⟨by simp, fun _ => ⟨hsome, .inl (hheld.2.2 rfl)⟩⟩
  | false =>
    obtain rfl : v₂ = _ := hv₂
    exact ⟨by simp, fun _ => ⟨hsome, .inl rfl⟩⟩

/-- The second try, on a session that is gone: the STL engine agrees to stop it, the ASTF engine does
not. -/
theorem attemptGone_end {s : ExecuteLocals} (hlive : v.session.live = false)
    (hv : Closing kind handle v) :
    (stopAndClean (some handle)).Ok (endContract kind) l s
      (fun r s' v' => r = .ok () ∧ Cleaned kind s'.cleanupConfirmed v') v := by
  have hstop : (Async.engine (.stop handle true) : Async ExecuteLocals Unit).Ok (endContract kind) l s
      (Leaves (fun _ v' => v' = v ∧ kind = .stl) (fun v' => v' = v ∧ kind = .astf)) v := by
    refine ⟨hv.handle, ?_⟩
    rintro r v' ⟨he, hmissing, rfl⟩
    have hmissing := hmissing hlive
    have hkept : v.session.stop r = v.session := if_neg (by simp [hlive])
    rw [hkept]
    cases kind with
    | stl =>
      obtain rfl : r = .ok () := hmissing
      exact ⟨rfl, rfl⟩
    | astf =>
      obtain ⟨e, rfl⟩ := hmissing
      exact ⟨(he e rfl).1, rfl, rfl⟩
  have hclean : ∀ s, (Async.engine (.cleanup handle) : Async ExecuteLocals Unit).Ok
      (endContract kind) l s (Leaves (fun _ v' => v' = v) fun _ => False) v := by
    refine fun s => ⟨hv.handle, ?_⟩
    rintro r v' ⟨he, hok, rfl⟩
    obtain rfl : r = .ok () := hok hlive
    show { v with session := v.session.cleanup kind (.ok ()) } = v
    rw [SessionView.cleanup, if_neg (by simp [hlive])]
  refine (attempt_end hstop).bind (fun _ _ _ h => h.2.elim) fun stopped s₁ v₁ hv₁ => ?_
  obtain ⟨rfl, hstopped⟩ : v₁ = v ∧ (stopped = true ↔ kind = .stl) := by
    cases stopped with
    | true => exact ⟨hv₁.1, by simp [hv₁.2]⟩
    | false => exact ⟨hv₁.1, by simp [hv₁.2]⟩
  refine (attempt_end (hclean s₁)).bind (fun _ _ _ h => h.2.elim) fun cleaned s₂ v₂ hv₂ => ⟨rfl, ?_⟩
  cases cleaned with
  | false => exact hv₂.elim
  | true =>
    obtain rfl : v₂ = v₁ := hv₂
    have hsome : v₂.handle.isSome = true := by simp [hv.handle]
    obtain ⟨hreleased, hflagged⟩ | ⟨hastf, hfaulty⟩ := hv.gone hlive
    · refine ⟨fun _ _ => hreleased, fun h => ?_⟩
      have hfalse : stopped = false := by simpa using h
      cases kind with
      | stl => simp [hfalse] at hstopped
      | astf => exact ⟨hsome, .inr ⟨rfl, hreleased, hflagged⟩⟩
    · refine ⟨fun h => ?_, fun _ => ⟨hsome, .inl hfaulty⟩⟩
      have htrue : stopped = true := by simpa using h
      rw [hstopped.mp htrue] at hastf
      cases hastf

/-- The `finally` block of `_execute` raises nothing, and releases the ports as the session ended. -/
theorem executeFinally_end {s : ExecuteLocals} (hv : Finishing kind s v) :
    (executeFinally job).Ok (endContract kind) l s (fun r _ _ => r = .ok ()) v := by
  refine (Coroutine.Py.ok_locals_bind _).mpr ?_
  have hcleaned : (stopAndClean s.handle).Ok (endContract kind) l s
      (fun r s' v' => r = .ok () ∧ Cleaned kind s'.cleanupConfirmed v') v := by
    cases hs : s.handle with
    | none =>
      rw [Finishing, hs] at hv
      exact ⟨rfl, fun _ => hv.2, fun h => by simp [hv.1] at h⟩
    | some handle =>
      rw [Finishing, hs] at hv
      cases hlive : v.session.live with
      | true => exact attemptBoth_end ⟨hv.handle, hlive⟩
      | false => exact attemptGone_end hlive hv
  refine hcleaned.bind (fun _ _ _ h => by simp at h) fun _ s₁ v₁ hv₁ => ?_
  refine (Coroutine.Py.ok_locals_bind _).mpr ?_
  refine Coroutine.Py.Ok.bind (P := fun r s' v' => r = .ok () ∧
    Settles kind v' (!s₁.cleanupConfirmed)) ?_ (fun _ _ _ h => by simp at h) fun _ s₂ v₂ hv₂ => ?_
  · refine Coroutine.Py.ok_when (fun hconfirmed => ⟨trivial, ?_⟩) fun hconfirmed => ⟨rfl, ?_⟩
    · rintro (e | u) v₂ ⟨he, hstep⟩
      · exact (he e rfl).2.elim
      · obtain rfl : v₂ = _ := hstep
        refine ⟨rfl, fun _ => ⟨rfl, hv₁.2.free hconfirmed⟩, fun h => ?_⟩
        rw [hconfirmed] at h
        cases h
    · have hfalse : s₁.cleanupConfirmed = false := by simpa using hconfirmed
      rw [hfalse]
      exact ⟨by simp, fun _ => hv₁.2.held hfalse⟩
  · refine ⟨hv₂.2, ?_⟩
    rintro (e | u) v₃ ⟨he, hstep⟩
    · exact (he e rfl).2.elim
    · exact rfl

theorem stable_finishing {s : ExecuteLocals} : Stable (Finishing kind s) := by
  unfold Finishing
  cases s.handle with
  | none => exact ⟨fun _ _ h => h, fun _ _ h => h⟩
  | some handle => exact stable_closing

/-- An execution that nothing interrupts raises only exceptions. -/
theorem execute_end (config : AgentConfig) {fence : Fence} (hv : v.handle = none) :
    (execute config job fence).Ok (endContract kind) l {}
      (fun r _ _ => ∀ e, r = .error e → e.isException = true) v := by
  refine (ok_tryFinally _ _).mpr ((ok_tryExcept _ _).mpr ((executeBody_end config hv).mono ?_))
  have hfinally : ∀ (r : Except Exc Unit) (s' : ExecuteLocals) (v' : EndView),
      (∀ e, r = .error e → e.isException = true) → Finishing kind s' v' →
      (executeFinally job).Ok (endContract kind) .unwinding s'
        (Coroutine.Py.Finally (fun r _ _ => ∀ e, r = .error e → e.isException = true) r) v' := by
    intro r s' v' hr h
    refine (executeFinally_end h).mono ?_
    rintro _ s'' v'' rfl
    exact hr
  rintro (e | u) s₁ v₁ ⟨he, hfinishing⟩
  · have hexcept : EndKeeps kind (Finishing kind s₁) (executeExcept job e : Async ExecuteLocals Unit) := by
      unfold executeExcept
      rw [if_neg (by simp [he e rfl])]
      exact .bind (fail_keeps stable_finishing _) fun _ => .pure ()
    refine (Coroutine.Py.handled_error _ _).mpr
      (((executeExcept_fixed e).keep (hexcept l s₁ v₁ hfinishing)).mono ?_)
    rintro (e' | u) s₂ v₂ ⟨rfl, h⟩
    · refine hfinally (.error e') s₂ v₂ ?_ h.2
      rintro e'' ⟨⟩
      exact h.1
    · exact hfinally (.ok u) s₂ v₂ (by simp) h
  · exact hfinally (.ok u) s₁ v₁ he hfinishing

/-- An execution that nothing interrupts ends its session before it releases the ports for good. -/
theorem taskProgram_end (config : AgentConfig) {fence : Fence} (hv : v.handle = none) :
    (taskProgram config job (.execute fence)).Ok (endContract kind) l () (fun _ _ _ => True) v := by
  refine Coroutine.Py.Ok.call_bind trivial (fun _ _ _ => trivial) ?_
  rintro u v₁ ⟨-, hstep⟩
  obtain rfl : v₁ = v := hstep
  refine (ok_tryExcept _ _).mpr ((Coroutine.Py.ok_withLocals _ _).mpr
    ((execute_end config hv).mono ?_))
  rintro (e | u) _ v₂ he
  · cases e with
    | expired => exact absurd (he _ rfl) Bool.false_ne_true
    | _ => exact trivial
  · exact trivial

end Execute

end TrexCli
