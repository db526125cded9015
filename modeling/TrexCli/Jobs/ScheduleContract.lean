import TrexCli.Jobs.Lifecycle

/-!
# How the scheduler moves jobs

`scheduleContract` holds of `_tick` and of `_recover`: what they write follows the lifecycle diagram,
they prepare no engine, and `_tick` starts an execution only after it has seen that fewer tasks are
active than may run.
-/

namespace TrexCli

open Coroutine.Py (safe_call safe_pure safe_raise ok_bind ok_tryExcept)

/-- What the scheduler knows. -/
structure ScheduleView where
  known : Known := ∅
  /-- Fewer tasks are active than may run. -/
  room : Bool := false

/-- The view after the answer to a call, but for the snapshots. -/
def ScheduleView.next (v : ScheduleView) (maxConcurrentJobs : Nat) :
    (c : Call) → Except Exc c.Res → ScheduleView
  | .activeCount, .ok active => { v with room := decide (active < maxConcurrentJobs) }
  | .spawn .., _ => { v with room := false }
  | _, _ => v

/-- What the scheduler may call. -/
def ScheduleCall (v : ScheduleView) : Call → Prop
  | .store c => MovesOver True v.known c
  | .engine (.prepare ..) => False
  | .spawn _ kind => kind.isExecute = true → v.room = true
  | _ => True

def scheduleContract (maxConcurrentJobs : Nat) :
    Coroutine.Contract Site Call Call.Res Exc ScheduleView where
  pre v _ c := ScheduleCall v c
  post v l c r v' := logContract.post v.known l c r v'.known ∧
    v' = { v.next maxConcurrentJobs c r with known := v'.known }

section Schedule

variable {n : Nat} {job : JobId} {l : Site} {σ : Type} {room : Bool}

/-- There is room, if there has to be. -/
abbrev Room (room : Bool) (v : ScheduleView) : Prop := room = true → v.room = true

theorem Room.post {c : Call} {r : Except Exc c.Res} {v v' : ScheduleView} (h : Room room v)
    (hr : (scheduleContract n).post v l c r v') (hcount : c ≠ .activeCount)
    (hspawn : ∀ job kind, c ≠ .spawn job kind) : Room room v' := by
  intro hroom
  rw [hr.2]
  unfold ScheduleView.next
  split
  · exact absurd rfl hcount
  · exact absurd rfl (hspawn _ _)
  · exact h hroom

theorem permits_schedule :
    Permits (scheduleContract n) (fun _ => Room room) job CallSite.Plain where
  transition site hsite := by
    intro l s v hv
    refine (attemptTransition_ok (I := Room room) (K := fun x v => x ∈ v.known)
      ?_ ?_ ?_ s hv).mono fun _ _ _ h => h.1
    · refine fun v hv => ⟨trivial, fun r v' hr => ⟨hv.post hr nofun nofun, ?_⟩⟩
      rintro x rfl
      exact hr.1.2.1
    · refine fun v x hv hx hadm => ⟨⟨x, hx, rfl, ⟨site, hadm, rfl⟩, fun _ => ?_⟩,
        fun r v' hr => ⟨hv.post hr nofun nofun, ?_⟩⟩
      · obtain ⟨hfollows, hne⟩ := follows_of_plain hsite hadm
        exact ⟨hfollows, fun hstate => absurd hstate hne⟩
      · rintro rfl
        exact hr.1.2
    · exact fun v hv => ⟨trivial, fun r v' hr => ⟨hv.post hr nofun nofun, fun x hx => hr.1.1 hx⟩⟩
  neutral l c v hc hv := by
    refine ⟨?_, fun r v' hr => hv.post hr ?_ ?_⟩
    · cases c with
      | store c =>
        cases c with
        | getSnapshot | getDocument => trivial
        | _ => exact hc.elim
      | engine c =>
        cases c with
        | prepare => exact hc.elim
        | _ => trivial
      | spawn => exact hc.elim
      | _ => trivial
    · rintro rfl
      exact hc
    · rintro job kind rfl
      exact hc

theorem permits_schedule_any :
    Permits (scheduleContract n) (fun _ _ => True) job CallSite.Plain := by
  have h : Permits (scheduleContract n) (fun _ => Room false) job CallSite.Plain := permits_schedule
  refine ⟨fun site hsite l s v _ => ?_, fun l c v hc _ => ?_⟩
  · exact (h.transition site hsite l s v nofun).mono fun _ _ _ _ => trivial
  · exact ⟨(h.neutral l c v hc nofun).1, fun _ _ _ => trivial⟩

/-- A call other than a write and the start of an execution. -/
theorem schedule_call (c : Call) (hc : ∀ v : ScheduleView, ScheduleCall v c) :
    (Async.call c : Async σ c.Res).Safe (scheduleContract n) fun _ _ => True :=
  safe_call c fun _ v _ => ⟨hc v, fun _ _ _ => trivial⟩

theorem firstPass_schedule (config : AgentConfig) (snapshot : JobSnapshot) :
    (firstPass config snapshot).Safe (scheduleContract n) fun _ _ => True := by
  have h : Permits (scheduleContract n) (fun _ _ => True) snapshot.jobId CallSite.Plain :=
    permits_schedule_any
  refine (schedule_call (.isActive _) fun _ => trivial).bind fun active => ?_
  split
  · exact safe_pure ()
  split
  · exact schedule_call (.spawn _ .finishCancel) fun _ => by rintro ⟨⟩
  refine h.getDocument.bind fun document => h.now.bind fun now => ?_
  split
  · refine fun l s v hv => ((h.fail (fun _ => id) _ _).bind fun _ => ?_) .timedOut s v hv
    exact schedule_call (.store (.releasePorts _ _)) fun _ => trivial
  · exact (h.validateJob (fun _ => id) config).when _

theorem acquireFor_schedule (snapshot : JobSnapshot) (document : JobDocument) :
    (acquireFor snapshot document).Safe (scheduleContract n) fun _ => Room room := by
  have h : Permits (scheduleContract n) (fun _ => Room room) snapshot.jobId CallSite.Plain :=
    permits_schedule
  refine Coroutine.Py.Safe.tryExcept ?_ fun e => ?_
  · exact safe_call (Call.store _) fun l v hv =>
      ⟨trivial, fun r v' hr => Room.post hv hr nofun nofun⟩
  · split
    · exact (h.fail (fun _ => id) _ _).bind fun _ => safe_pure _
    · exact safe_raise _

theorem secondPass_schedule (snapshot : JobSnapshot) {v : ScheduleView} (hv : Room true v) :
    (secondPass snapshot).Ok (scheduleContract n) l () (fun _ _ _ => True) v := by
  have h : Permits (scheduleContract n) (fun _ => Room true) snapshot.jobId CallSite.Plain :=
    permits_schedule
  refine Coroutine.Py.Ok.call_bind ?_ ?_ ?_
  · exact trivial
  · exact fun _ _ _ => trivial
  intro active v₁ hr₁
  have hv₁ := hv.post hr₁ nofun nofun
  split_ifs
  · exact trivial
  · exact schedule_call (.spawn _ .finishCancel) (fun _ => nofun) l () v₁ trivial
  refine (h.getDocument l () v₁ hv₁).bind (fun _ _ _ _ => trivial) fun document s₂ v₂ hv₂ => ?_
  refine (h.now l s₂ v₂ hv₂).bind (fun _ _ _ _ => trivial) fun now s₃ v₃ hv₃ => ?_
  split_ifs
  · exact (h.fail (fun _ => id) _ _ l s₃ v₃ hv₃).bind (fun _ _ _ _ => trivial)
      fun _ _ _ _ => trivial
  refine (acquireFor_schedule snapshot document l s₃ v₃ hv₃).bind (fun _ _ _ _ => trivial)
    fun fence s₄ v₄ hv₄ => ?_
  cases fence with
  | none => exact trivial
  | some fence =>
    refine (h.transition (.portsAcquired fence) trivial l s₄ v₄ hv₄).bind (fun _ _ _ _ => trivial)
      fun prepared s₅ v₅ hv₅ => ?_
    split_ifs
    · exact schedule_call (.store (.releasePorts _ _)) (fun _ => trivial) l s₅ v₅ trivial
    · exact ⟨fun _ => hv₅ rfl, fun _ _ _ => trivial⟩

theorem scanWaiting_schedule (config : AgentConfig) (snapshots : List JobSnapshot) :
    (scanWaiting config snapshots).Safe (scheduleContract config.maxConcurrentJobs)
      fun _ _ => True := by
  induction snapshots with
  | nil => exact safe_pure ()
  | cons snapshot rest ih =>
    intro l s v _
    refine Coroutine.Py.Ok.call_bind ?_ ?_ ?_
    · exact trivial
    · exact fun _ _ _ => trivial
    intro active v₁ hr₁
    split_ifs with hfull
    · exact trivial
    · refine (secondPass_schedule snapshot fun _ => ?_).bind (fun _ _ _ _ => trivial)
        fun _ s₂ v₂ _ => ih l s₂ v₂ trivial
      rw [hr₁.2]
      exact decide_eq_true (Nat.lt_of_not_le hfull)

theorem tick_schedule (config : AgentConfig) :
    (tick config).Safe (scheduleContract config.maxConcurrentJobs) fun _ _ => True := by
  refine (schedule_call .dropDone fun _ => trivial).bind fun _ =>
    (schedule_call (.store .listNonterminal) fun _ => trivial).bind fun snapshots =>
      Coroutine.Py.Safe.bind (Coroutine.Py.Safe.forEach fun snapshot _ =>
        firstPass_schedule config snapshot) fun _ =>
        (schedule_call .activeCount fun _ => trivial).bind fun active => ?_
  split
  · exact safe_pure ()
  · refine (schedule_call (.store .listNonterminal) fun _ => trivial).bind fun snapshots => ?_
    exact fun l s v hv => scanWaiting_schedule config snapshots .scanning s v hv

theorem reconcileMarker_schedule (marker : ExecutionMarker) :
    (reconcileMarker marker).Safe (scheduleContract n) fun _ _ => True := by
  refine (schedule_call (.store (.getDocument _)) fun _ => trivial).bind fun document =>
    (schedule_call (.engine (.reconcile marker document)) fun _ => trivial).bind fun result =>
      Coroutine.Py.Safe.bind (Coroutine.Py.Safe.when ?_ _) fun _ => safe_pure result
  exact (schedule_call (.store (.deleteExecutionMarker _)) fun _ => trivial).bind fun _ =>
    schedule_call (.store (.confirmPortsAvailable _)) fun _ => trivial

theorem recoverJob_schedule (snapshot : JobSnapshot) :
    (recoverJob snapshot).Safe (scheduleContract n) fun _ _ => True := by
  have h : Permits (scheduleContract n) (fun _ _ => True) snapshot.jobId CallSite.Plain :=
    permits_schedule_any
  unfold recoverJob
  split
  · exact safe_pure ()
  refine (schedule_call (.store (.getExecutionMarker _)) fun _ => trivial).bind fun marker =>
    Coroutine.Py.Safe.bind ?_ fun found => (h.fail (fun _ => id) _ _).bind fun _ =>
      schedule_call (.store (.releasePorts _ _)) fun _ => trivial
  cases marker with
  | none => exact safe_pure _
  | some marker => exact (reconcileMarker_schedule marker).bind fun _ => safe_pure _

theorem recover_schedule : recover.Safe (scheduleContract n) fun _ _ => True := by
  refine (schedule_call (.store .listNonterminal) fun _ => trivial).bind fun snapshots =>
    Coroutine.Py.Safe.bind (Coroutine.Py.Safe.forEach fun snapshot _ =>
      recoverJob_schedule snapshot) fun _ =>
      (schedule_call (.store .listExecutionMarkers) fun _ => trivial).bind fun markers =>
        Coroutine.Py.Safe.forEach fun marker _ => ?_
  split
  · exact safe_pure ()
  · exact (reconcileMarker_schedule marker).bind fun _ => safe_pure ()

end Schedule

end TrexCli
