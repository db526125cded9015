import TrexCli.Jobs.Tick
import TrexCli.Jobs.Writes

/-!
# Proof rules for the coroutines of a job

`Permits S I job sites`: under contract `S`, the transitions of `job` by the callers in `sites` and
the calls that concern neither leases nor markers nor the start of traffic keep `I`. That is all most
of the text does, so the rules here reduce a coroutine to the few calls of it that do concern them.
-/

namespace TrexCli

open Coroutine.Py (safe_call safe_pure safe_raise safe_assign safe_locals)

/-- The calls that concern no lease, no marker, no start of traffic and no event log but to read the
job. -/
def Neutral (job : JobId) : Call → Prop
  | .store (.getSnapshot j) => j = job
  | .store (.getDocument j) => j = job
  | .store _ => False
  | .engine (.prepare ..) => False
  | .start | .isActive _ | .activeCount | .dropDone | .spawn .. => False
  | _ => True

/-- The callers of `_transition` other than `_phase` and `_finish_cancel`: each expects states that it
names itself, or any. -/
def CallSite.Plain : CallSite → Prop
  | phase .. | cancelDrain _ | cancelCollection _ | cancelled _ => False
  | _ => True

/-- Transitions of the job by the given callers and neutral calls keep `I`. -/
structure Permits {V : Type} (S : Coroutine.Contract Site Call Call.Res Exc V)
    (I : Site → V → Prop) (job : JobId) (sites : CallSite → Prop) : Prop where
  transition : ∀ {σ : Type} (site : CallSite), sites site →
    (transition job site : Async σ (Option JobSnapshot)).Safe S I
  neutral : ∀ l c v, Neutral job c → I l v → S.pre v l c ∧ ∀ r v', S.post v l c r v' → I l v'

namespace Permits

variable {V σ : Type} {S : Coroutine.Contract Site Call Call.Res Exc V}
variable {I : Site → V → Prop} {job : JobId}

theorem attempt {p : Async σ Unit} (hp : p.Safe S I) : (attempt p).Safe S I := by
  refine (hp.bind fun _ => safe_pure true).tryExcept fun e => ?_
  split
  · exact safe_pure _
  · exact safe_raise _

section Sites

variable {sites : CallSite → Prop} (h : Permits S I job sites)
include h

theorem call (c : Call) (hc : Neutral job c) : (Async.call c : Async σ c.Res).Safe S I :=
  safe_call c fun l v hv => h.neutral l c v hc hv

theorem getSnapshot : (Async.store (.getSnapshot job) : Async σ JobSnapshot).Safe S I :=
  h.call (.store (.getSnapshot job)) rfl

theorem getDocument : (Async.store (.getDocument job) : Async σ JobDocument).Safe S I :=
  h.call (.store (.getDocument job)) rfl

theorem engine (c : EngineCall) (hc : Neutral job (.engine c)) :
    (Async.engine c : Async σ c.Res).Safe S I :=
  h.call (.engine c) hc

theorem now : (Async.call .now : Async σ Instant).Safe S I := h.call .now trivial

theorem transitionUnit (site : CallSite) (hsite : sites site) :
    (do
      let _ ← TrexCli.transition job site
      pure () : Async σ Unit).Safe S I :=
  (h.transition site hsite).bind fun _ => safe_pure ()

variable (hplain : ∀ site : CallSite, site.Plain → sites site)
include hplain

theorem fail (problem : Problem) (expectedStates : Option (List JobState)) :
    (fail job problem expectedStates : Async σ _).Safe S I :=
  h.now.bind fun _ => h.transition _ (hplain _ trivial)

theorem executeExcept (e : Exc) : (executeExcept job e).Safe S I := by
  unfold TrexCli.executeExcept
  split
  · exact safe_raise _
  · exact (h.fail hplain _ _).bind fun _ => safe_pure _

theorem validateDocument (config : AgentConfig) : (validateDocument config job).Safe S I := by
  refine Coroutine.Py.Safe.tryExcept ?_ fun e => ?_
  · exact h.getDocument.bind fun document =>
      (h.call (.validatePolicy document) trivial).bind fun _ =>
          (h.engine (.validate document) trivial).bind fun _ =>
        (h.call (.validateCalibration document) trivial).bind fun _ =>
          h.transitionUnit _ (hplain _ trivial)
  · split
    · exact safe_raise _
    · exact (h.fail hplain _ _).bind fun _ => safe_pure _

theorem validateJob (config : AgentConfig) : (validateJob config job).Safe S I := by
  refine h.getSnapshot.bind fun snapshot => ?_
  split
  · refine (h.transition .validationStarted (hplain _ trivial)).bind fun transitioned => ?_
    split
    · exact safe_pure _
    · exact h.validateDocument hplain config
  · exact h.validateDocument hplain config

end Sites

section All

variable (h : Permits S I job fun _ => True)
include h

theorem phase (stage : Stage) : (phase job stage : Async σ Unit).Safe S I := by
  refine h.getSnapshot.bind fun current => h.now.bind fun now =>
    (h.transition _ trivial).bind fun updated => ?_
  split
  · exact safe_raise _
  · exact safe_pure _

/-- Where the invariant does not depend on the region, the second look of `_finish_cancel` at the job
is no different from the first. -/
theorem getSnapshotDrained (hI : ∀ l v, I l v ↔ I .drained v) :
    (Coroutine.Py.region .drained (Async.store (.getSnapshot job)) : Async σ JobSnapshot).Safe S I :=
  fun l s v hv => ((h.getSnapshot .drained s v ((hI l v).mp hv)).mono fun _ _ _ hv' =>
    (hI l _).mpr hv')

theorem drainAndCollect (hI : ∀ l v, I l v ↔ I .drained v) (handle : Option RunHandle) :
    (drainAndCollect job handle : Async σ Unit).Safe S I := by
  refine h.getSnapshot.bind fun current => ?_
  split
  · exact safe_pure ()
  · refine Coroutine.Py.Safe.bind (Coroutine.Py.Safe.when ?_ _) fun _ =>
      (h.getSnapshotDrained hI).bind fun current =>
        Coroutine.Py.Safe.bind (Coroutine.Py.Safe.when ?_ _) fun _ =>
          h.now.bind fun now => h.transitionUnit _ trivial
    · refine (h.transition _ trivial).bind fun _ => ?_
      cases handle with
      | none => exact safe_pure ()
      | some handle => exact h.engine _ trivial
    · refine (h.transition _ trivial).bind fun _ => ?_
      cases handle with
      | none => exact safe_pure ()
      | some handle => exact h.engine _ trivial

theorem finishCancel (hI : ∀ l v, I l v ↔ I .drained v) (handle : Option RunHandle)
    (hrelease : handle = none →
      (Async.store (.releasePorts job false) : Async σ Unit).Safe S I) :
    (finishCancel job handle : Async σ Unit).Safe S I := by
  refine (h.drainAndCollect hI handle).tryFinally ?_
  unfold Coroutine.Py.when
  split
  · rename_i hnone
    exact hrelease hnone
  · exact safe_pure ()

theorem cancelled (hI : ∀ l v, I l v ↔ I .drained v) (handle : RunHandle) :
    (cancelled job handle : Async σ Bool).Safe S I := by
  refine h.getSnapshot.bind fun current => ?_
  split
  · exact safe_pure _
  · exact (h.finishCancel hI (some handle) nofun).bind fun _ => safe_pure _

theorem measure (hI : ∀ l v, I l v ↔ I .drained v) (handle : RunHandle) :
    (measure job handle).Safe S I := by
  refine (h.phase _).bind fun _ => (h.engine (.warmup handle) trivial).bind fun _ =>
    (h.cancelled hI handle).bind fun seen => ?_
  split
  · exact safe_pure _
  · refine (h.phase _).bind fun _ => (h.engine (.run handle) trivial).bind fun measurement =>
      (h.cancelled hI handle).bind fun seen => ?_
    split
    · exact safe_pure _
    · exact (h.phase _).bind fun _ => (h.engine (.stop handle false) trivial).bind fun _ =>
        (h.phase _).bind fun _ => (h.engine (.cleanup handle) trivial).bind fun _ => safe_pure _

theorem publish (hI : ∀ l v, I l v ↔ I .drained v) (config : AgentConfig)
    (document : JobDocument) (measurement : EngineMeasurement)
    (hrelease : (Async.store (.releasePorts job false) : Async ExecuteLocals Unit).Safe S I) :
    (publish config job document measurement).Safe S I := by
  refine h.getSnapshot.bind fun current => h.getDocument.bind fun resolved =>
    (h.call (.recordCalibrations _ _ _) trivial).bind fun _ =>
      (h.call (.buildResultBundle _ _ _ _) trivial).bind fun refs =>
        h.getSnapshot.bind fun latest => ?_
  split
  · exact h.finishCancel hI none fun _ => hrelease
  · exact h.now.bind fun now => h.transitionUnit _ trivial

end All

end Permits

end TrexCli
