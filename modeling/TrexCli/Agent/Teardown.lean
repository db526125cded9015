import TrexCli.Agent.Rig
import TrexCli.Agent.Tended

/-!
# The ports are released as the session ended

In every run of the agent on one of the remote engines, an execution that nothing has interrupted
gives its ports back only after the record of its session shows that traffic was stopped and the
session taken down. It puts them into quarantine only if a call to end the session failed, or, on the
ASTF engine, when a cancellation has already taken the session down: that engine refuses to stop a
session twice.
-/

namespace TrexCli

open Engine (Adapter AdapterKind Lawful Tied Line labStl labAstf)

/-! ### What a step does to a task -/

/-- A task after a step: it has not moved, was interrupted, goes on with an answer, or is new. -/
inductive TaskMove (config : AgentConfig) (s : Agent) (h : History) (a : Action) (s' : Agent) (i : Nat)
    (t' : AgentTask) : Prop where
  | kept (hi : s.tasks[i]? = some t')
      (hrun : s.resumes a ≠ some i ∨ t'.program.done = true ∧ s'.db = s.db ∧ s'.late = s.late)
  | thrown (t : AgentTask) (l : Site) (c : Call)
      (k : Except Exc c.Res → Task (Except Exc Unit × Unit)) (e : Exc)
      (ha : s.resumes a = some i) (hi : s.tasks[i]? = some t) (hp : t.program = .await l c k)
      (hkind : t'.kind = t.kind) (hp' : t'.program = k (.error e))
      (hinterrupted : t'.interrupted = true)
  | stored (t : AgentTask) (l : Site) (c : StoreCall)
      (k : Except Exc c.Res → Task (Except Exc Unit × Unit))
      (ha : s.resumes a = some i) (hi : s.tasks[i]? = some t)
      (hp : t.program = .await l (.store c) k)
      (ht' : t' = { t with program := k (c.exec s.db).1 }) (hown : OwnCall t.job t.kind (h.task i) c)
      (hraises : ∀ e, (c.exec s.db).1 = .error e → c.Raises ∅ e) (hext : s.db.Extends (c.exec s.db).2)
      (hdb : s'.db = (c.exec s.db).2) (hlate : s'.late = s.late)
  | called (answers : Answers) (t : AgentTask) (l : Site) (c : Call)
      (k : Except Exc c.Res → Task (Except Exc Unit × Unit)) (r : Except Exc c.Res)
      (ha : a = .task i answers) (hi : s.tasks[i]? = some t) (hp : t.program = .await l c k)
      (hc : c.transaction? = none) (ht' : t' = { t with program := k r })
      (hraises : ∀ e, r = .error e → e.isException = true ∧ c.Raises ∅ e)
      (hdb : s'.db = s.db) (hlate : s'.late = s.late)
  | fresh (hi : i = s.tasks.length)
      (hprogram : t'.program = taskProgram config t'.job t'.kind .body ())
      (hinterrupted : t'.interrupted = false)
      (hgranted : ∀ fence, t'.kind = .execute fence → s.serving = true ∧
        (∃ l, tickContract.pre h.tick l (.spawn t'.job (.execute fence))) ∧ s'.db = s.db ∧
          s'.late = s.late)

section Move

variable {config : AgentConfig} {s s' : Agent} {h h' : History} {a : Action}

/-- A suspended task that is interrupted says so. -/
theorem interrupted_of_thrown {i : Nat} {e : Exc} {t t' : AgentTask}
    (hs : s.step config a = some s') (ha : s.interrupts a = some (i, e)) (hi : s.tasks[i]? = some t)
    (hlive : t.program.done = false) (hi' : s'.tasks[i]? = some t') : t'.interrupted = true := by
  have hthrow : ∀ (u : AgentTask) (e : Exc) (s₀ : Agent), u.interrupted = true →
      s₀.tasks = s.tasks → s₀.throwInto i u e = some s' → t'.interrupted = true := by
    intro u e s₀ hu htasks hthrown
    unfold Agent.throwInto at hthrown
    split at hthrown
    · cases hthrown
    · split at hthrown
      · obtain rfl := Option.some.inj hthrown
        simp only [htasks] at hi'
        obtain ⟨-, rfl⟩ | ⟨hne, -⟩ := getElem?_set_some hi'
        · exact hu
        · exact absurd rfl hne
      · cases hthrown
  cases a with
  | cancelTask job =>
    simp only [Agent.interrupts] at ha
    simp only [Agent.step] at hs
    split at ha
    · rename_i hmem
      rw [if_pos hmem] at hs
      obtain ⟨⟨j, n⟩, hfind, heq⟩ := Option.map_eq_some_iff.mp ha
      obtain ⟨rfl, -⟩ := Prod.mk.inj heq
      simp only [hfind, hi, hlive, Bool.false_eq_true, if_false] at hs
      exact hthrow { t with cancelled := true } _ { s with cancelling := s.cancelling.erase job } rfl
        rfl hs
    · cases ha
  | deadline n =>
    simp only [Agent.interrupts] at ha
    simp only [Agent.step] at hs
    split at ha
    · rename_i u hu
      split at ha
      · rename_i harmed
        obtain ⟨rfl, -⟩ := Prod.mk.inj (Option.some.inj ha)
        rw [hu] at hs
        simp only [harmed, if_true] at hs
        refine hthrow _ _ _ ?_ rfl hs
        simp [AgentTask.interrupted]
      · cases ha
    · cases ha
  | _ => cases ha

/-- What a call raises does not depend on what is known, but for a job that is not found. -/
theorem Call.Raises.empty {known : Known} {c : Call} {e : Exc} (h : c.Raises known e) :
    c.Raises ∅ e := by
  cases c with
  | store c =>
    cases c with
    | getSnapshot | getDocument => exact fun s hs => hs.elim
    | _ => exact h
  | _ => exact h

theorem Step.moves (hstep : Step config s h a s' h')
    (hs : s.step config a = some s') {i : Nat} {t' : AgentTask} (hi' : s'.tasks[i]? = some t') :
    TaskMove config s h a s' i t' := by
  have hquiet : s'.tasks = s.tasks → s.resumes a = none → TaskMove config s h a s' i t' := by
    intro htasks hnone
    refine .kept (htasks ▸ hi') (.inl ?_)
    simp [hnone]
  cases hstep with
  | ignored job cancelling hdone =>
    refine .kept hi' ?_
    by_cases hrun : s.resumes (.cancelTask job) = some i
    · obtain ⟨⟨n, e⟩, ha, rfl⟩ := Option.map_eq_some_iff.mp hrun
      exact .inr ⟨hdone n e t' ha hi', rfl, rfl⟩
    · exact .inl hrun
  | thrown a j t u l c k e cancelling v ha hj hp hthrown hjob hkind hp' =>
    have hrun := resumes_of_interrupts ha
    obtain ⟨rfl, rfl⟩ | ⟨hne, hi⟩ := getElem?_set_some hi'
    · exact .thrown t l c k e hrun hj hp hkind hp' (interrupted_of_thrown hs ha hj (by rw [hp]; rfl) hi')
    · refine .kept hi (.inl ?_)
      rw [hrun]
      exact fun heq => hne (Option.some.inj heq).symm
  | taskStore j answers t l c k v hj hp hpre hpost hlogs hext =>
    obtain ⟨rfl, rfl⟩ | ⟨hne, hi⟩ := getElem?_set_some hi'
    · refine .stored t l c k rfl hj hp rfl hpre.2 (fun e he => ?_) hext rfl rfl
      obtain hraises | hthrown := hpost.2.2 e he
      · exact Call.Raises.empty hraises
      · have hexc := c.exec_isException he
        rw [hthrown.not_isException] at hexc
        cases hexc
    · exact .kept hi (.inl fun heq => hne (Option.some.inj heq).symm)
  | taskCall j answers t l c k r v hj hp hc hraises hpost =>
    obtain ⟨rfl, rfl⟩ | ⟨hne, hi⟩ := getElem?_set_some hi'
    · refine .called answers t l c k r rfl hj hp hc rfl (fun e he => ⟨hraises e he, ?_⟩) rfl rfl
      obtain hraised | hthrown := hpost.2.2 e he
      · exact hraised.empty
      · have hexc := hraises e he
        rw [hthrown.not_isException] at hexc
        cases hexc
    · exact .kept hi (.inl fun heq => hne (Option.some.inj heq).symm)
  | tickSpawn answers l job kind k v hserving hp hpre =>
    obtain ⟨hi, -⟩ | ⟨rfl, rfl⟩ := getElem?_concat_some hi'
    · refine .kept hi (.inl ?_)
      simp [Agent.resumes, Agent.interrupts]
    · refine .fresh rfl rfl rfl ?_
      rintro fence ⟨⟩
      exact ⟨hserving, ⟨l, hpre⟩, rfl, rfl⟩
  | reportProgress =>
    obtain ⟨hi, hne⟩ | ⟨rfl, rfl⟩ := getElem?_concat_some hi'
    · exact .kept hi (.inl fun heq => hne (Option.some.inj heq).symm)
    · exact .fresh rfl rfl rfl (by simp)
  | crash => simp at hi'
  | submit | requestCancel | late | advance | tick | serve | tickStore | tickIsActive | tickDropDone
  | tickCall | recoverStore | recoverCall => exact hquiet rfl rfl

end Move

/-! ### The invariant -/

variable {A : Adapter} {kind : AdapterKind}

/-- The view of the `i`-th task, an execution, is true of the agent and of the engine. -/
structure Attended (L : Lawful A kind) (s : Rig A) (i : Nat) (t : AgentTask) (v : EndView) : Prop where
  ok : t.program.Ok (endContract kind) (fun _ _ => True) v
  tended : Tended s.agent t v
  handle : v.handle = s.handle i
  tied : ∀ handle, s.handle i = some handle →
    Tied L.Fits (s.sessions handle) (s.record handle) v.session

/-- Handles are the tasks' own. -/
structure HandlesApart (s : Rig A) : Prop where
  task : ∀ (i : Nat) (t : AgentTask), s.agent.tasks[i]? = some t →
    t.program.Ok handleContract (fun _ _ => True) (s.handle i)
  execute : ∀ (i : Nat) (t : AgentTask) (handle : RunHandle), s.agent.tasks[i]? = some t →
    s.handle i = some handle → t.kind.isExecute = true
  fresh : ∀ i, s.agent.tasks.length ≤ i → s.handle i = none
  issued : ∀ i handle, s.handle i = some handle → handle.id < s.issued
  apart : ∀ i j handle, s.handle i = some handle → s.handle j = some handle → i = j
  drifting : ∀ handle ∈ s.adrift, handle.id < s.issued
  adrift : ∀ (i : Nat) (t : AgentTask) (handle : RunHandle), s.agent.tasks[i]? = some t → s.handle i = some handle → handle ∈ s.adrift →
    t.interrupted = true

/-- Every execution that nothing has interrupted is attended. -/
def AllAttended (L : Lawful A kind) (s : Rig A) : Prop :=
  ∀ (i : Nat) (t : AgentTask), s.agent.tasks[i]? = some t → t.kind.isExecute = true →
    t.interrupted = false →
    ∃ v, Attended L s i t v

section Follow

variable {config : AgentConfig} {s : Rig A} {agent : Agent} {h h' : History} {a : Action}

/-- The engine call that a task awaits is about its own session. -/
theorem HandlesApart.awaited (hs : HandlesApart s) {i : Nat} {t : AgentTask} {handle : RunHandle}
    (hi : s.agent.tasks[i]? = some t) (ht : t.awaited = some handle) : s.handle i = some handle := by
  have hok := hs.task i t hi
  unfold AgentTask.awaited at ht
  split at ht
  · rename_i l c k hp
    rw [hp] at hok
    exact hok.1 handle ht
  · cases ht

theorem mem_loosened {handle : RunHandle} (hmem : handle ∈ s.loosened a) :
    ∃ i t, s.agent.resumes a = some i ∧ s.agent.tasks[i]? = some t ∧ t.awaited = some handle := by
  obtain ⟨t, ht, hawaited⟩ := Option.bind_eq_some_iff.mp (Option.mem_toList.mp hmem)
  obtain ⟨i, hi, ht⟩ := Option.bind_eq_some_iff.mp ht
  exact ⟨i, t, hi, ht, hawaited⟩

/-- The engine has nothing to do in the step. -/
def Unserved (s : Rig A) (a : Action) : Prop :=
  ∀ i answers t l c k, a = .task i answers → s.agent.tasks[i]? = some t →
    t.program = .await l (.engine c) k → (Call.engine c).prepares = false ∧
      (c.handle?.isSome = true → t.interrupted = true)

theorem unserved_of_serve {line : Line} {i : Nat} {answers : Answers} (hserve : s.serve line i = none) :
    Unserved s (.task i answers) := by
  rintro j _ t l c k ⟨⟩ hi hp
  have hnone : s.engine line i t c = none := by
    unfold Rig.serve at hserve
    rw [hi] at hserve
    simp only [hp] at hserve
    exact Option.map_eq_none_iff.mp hserve
  have hadrift : ∀ {α : Type} {x : α}, (if t.interrupted then none else some x) = none →
      t.interrupted = true := by
    intro α x h
    by_contra hnot
    rw [if_neg hnot] at h
    cases h
  cases c with
  | prepare => cases hnone
  | validate | reconcile => exact ⟨rfl, by simp [EngineCall.handle?]⟩
  | warmup | run | stop | cleanup => exact ⟨rfl, fun _ => hadrift hnone⟩

/-- What an action that is no crash leaves of the engine. -/
theorem follow_eq (ha : a ≠ .crash) :
    s.follow a agent = { s with agent, adrift := s.loosened a ++ s.adrift } := by
  cases a with
  | crash => exact absurd rfl ha
  | _ => rfl

/-- A task that has been interrupted stays so. -/
theorem TaskMove.interrupted {s s' : Agent} {i : Nat} {t t' : AgentTask}
    (hmove : TaskMove config s h a s' i t') (hi : s.tasks[i]? = some t)
    (ht : t.interrupted = true) : t'.interrupted = true := by
  cases hmove with
  | kept hi₀ | stored _ _ _ _ _ hi₀ _ ht' | called _ _ _ _ _ _ _ hi₀ _ _ ht' =>
    obtain rfl := Option.some.inj (hi.symm.trans hi₀)
    first
    | exact ht
    | rw [ht']; exact ht
  | thrown t₀ l c k e ha hi₀ hp hkind hp' hinterrupted => exact hinterrupted
  | fresh hlength =>
    rw [hlength] at hi
    simp at hi

/-- A task that an action sets adrift is interrupted after it. -/
theorem TaskMove.loosened {agent : Agent} {i : Nat} {t t' : AgentTask}
    (hmove : TaskMove config s.agent h a agent i t') (hun : Unserved s a)
    (hrun : s.agent.resumes a = some i) (hi : s.agent.tasks[i]? = some t)
    {handle : RunHandle} (ht : t.awaited = some handle) : t'.interrupted = true := by
  unfold AgentTask.awaited at ht
  split at ht
  · rename_i l c k hp
    cases hmove with
    | kept hi₀ hkept =>
      obtain rfl := Option.some.inj (hi.symm.trans hi₀)
      obtain hne | ⟨hdone, -⟩ := hkept
      · exact absurd hrun hne
      · rw [hp] at hdone
        cases hdone
    | thrown t₀ l c k e ha hi₀ hp hkind hp' hinterrupted => exact hinterrupted
    | stored t₀ l' c' k' ha hi₀ hp' =>
      obtain rfl := Option.some.inj (hi.symm.trans hi₀)
      rw [hp] at hp'
      cases hp'
    | called answers t₀ l' c' k' r ha hi₀ hp' hc ht' =>
      obtain rfl := Option.some.inj (hi.symm.trans hi₀)
      rw [ht']
      refine (hun i answers t l c k ha hi hp).2 ?_
      rw [ht]
      rfl
    | fresh hlength =>
      rw [hlength] at hi
      simp at hi
  · cases ht

theorem HandlesApart.follow (hs : HandlesApart s) (hun : Unserved s a) (ha : a ≠ .crash)
    (hlength : s.agent.tasks.length ≤ agent.tasks.length)
    (hmoves : ∀ i t', agent.tasks[i]? = some t' → TaskMove config s.agent h a agent i t') :
    HandlesApart (s.follow a agent) := by
  rw [follow_eq ha]
  refine ⟨fun i t' hi' => ?_, fun i t' handle hi' hhandle => ?_,
    fun i hi => hs.fresh i (hlength.trans hi), hs.issued, hs.apart, ?_, ?_⟩
  · have hresume : ∀ {t l c k r}, s.agent.tasks[i]? = some t → t.program = .await l c k →
        nextHandle (s.handle i) c r = s.handle i →
        (k r).Ok handleContract (fun _ _ => True) (s.handle i) := by
      intro t l c k r hi hp hnext
      have hok := hs.task i t hi
      rw [hp] at hok
      exact hok.resume hnext.symm
    cases hmoves i t' hi' with
    | kept hi => exact hs.task i t' hi
    | thrown t l c k e _ hi hp hkind hp' =>
      rw [hp']
      refine hresume hi hp ?_
      unfold nextHandle
      split <;> [cases ‹Except.error e = _›; rfl]
    | stored t l c k _ hi hp ht' =>
      rw [ht']
      exact hresume hi hp rfl
    | called answers t l c k r ha hi hp hc ht' =>
      rw [ht']
      refine hresume hi hp (nextHandle_of_not_prepares ?_)
      cases c with
      | engine c => exact (hun i answers t l c k ha hi hp).1
      | _ => rfl
    | fresh hi hprogram =>
      rw [hprogram, hs.fresh i hi.ge]
      exact taskProgram_handle config _
  · cases hmoves i t' hi' with
    | kept hi => exact hs.execute i t' handle hi hhandle
    | thrown t l c k e _ hi hp hkind => exact hkind ▸ hs.execute i t handle hi hhandle
    | stored t l c k _ hi hp ht' => exact ht' ▸ hs.execute i t handle hi hhandle
    | called answers t l c k r ha hi hp hc ht' => exact ht' ▸ hs.execute i t handle hi hhandle
    | fresh hi =>
      have hnone := hs.fresh i hi.ge
      rw [show s.handle i = some handle from hhandle] at hnone
      cases hnone
  · intro handle hmem
    obtain hmem | hmem := List.mem_append.mp hmem
    · obtain ⟨i, t, -, hi, ht⟩ := mem_loosened hmem
      exact hs.issued i handle (hs.awaited hi ht)
    · exact hs.drifting handle hmem
  · intro i t' handle hi' hhandle hmem
    obtain hmem | hmem := List.mem_append.mp hmem
    · obtain ⟨j, t, hrun, hj, ht⟩ := mem_loosened hmem
      obtain rfl := hs.apart i j handle hhandle (hs.awaited hj ht)
      exact (hmoves i t' hi').loosened hun hrun hj ht
    · cases hi : s.agent.tasks[i]? with
      | none =>
        have hnone := hs.fresh i (List.getElem?_eq_none_iff.mp hi)
        rw [hhandle] at hnone
        cases hnone
      | some t => exact (hmoves i t' hi').interrupted hi (hs.adrift i t handle hi hhandle hmem)

/-- A call that the view of an execution does not follow. -/
theorem endStep_other {v : EndView} {c : Call} {r : Except Exc c.Res} (hc : c.transaction? = none)
    (hengine : ∀ e, c ≠ .engine e) : EndStep kind v c r v := by
  cases c with
  | store c => cases hc
  | engine c => exact absurd rfl (hengine c)
  | _ => cases r <;> exact rfl

theorem AllAttended.follow {L : Lawful A kind} {views : Nat → LifeView} (hall : AllAttended L s)
    (hs : HandlesApart s) (hun : Unserved s a) (ha : a ≠ .crash) (hinv : Inv s.agent h)
    (hlife : LifeInv config False s.agent views)
    (hsole : ∀ (i : Nat) (t : AgentTask), s.agent.tasks[i]? = some t → t.kind.isExecute = true →
      Sole s.agent i t.job)
    (hstep : Step config s.agent h a agent h') (hserving : agent.serving = true)
    (hmoves : ∀ i t', agent.tasks[i]? = some t' → TaskMove config s.agent h a agent i t') :
    AllAttended L (s.follow a agent) := by
  rw [follow_eq ha]
  intro i t' hi' hexecute hinterrupted
  cases hmoves i t' hi' with
  | kept hi hrun =>
    obtain ⟨v, hv⟩ := hall i t' hi hexecute hinterrupted
    refine ⟨v, hv.ok, ?_, hv.handle, hv.tied⟩
    obtain hrun | ⟨-, hdb, hlate⟩ := hrun
    · exact hv.tended.other hinv hlife hstep hserving hi (hsole i t' hi hexecute) hrun
    · exact hv.tended.of_db hdb hlate id rfl rfl rfl rfl
  | thrown t l c k e _ hi hp hkind hp' htrue =>
    rw [hinterrupted] at htrue
    cases htrue
  | stored t l c k _ hi hp ht' hown hraises hext hdb hlate =>
    subst ht'
    obtain ⟨v, hv⟩ := hall i t hi hexecute hinterrupted
    have hlive : Live t := by
      refine live_of_await hp ?_
      revert hexecute
      cases t.kind <;> simp [TaskKind.isExecute, TaskKind.isReport]
    have hok := hv.ok
    rw [hp] at hok
    obtain ⟨hhandle, hsession⟩ := v.stored_engine c (c.exec s.agent.db).1
    refine ⟨v.stored c (c.exec s.agent.db).1, hok.resume ⟨fun e he => ⟨c.exec_isException he,
      hraises e he⟩, endStep_stored (hv.tended.reads hown hlive)⟩,
      hv.tended.step_stored hinv.logs hext hown hlive hdb hlate rfl, hhandle.trans hv.handle, ?_⟩
    rw [hsession]
    exact hv.tied
  | called answers t l c k r ha hi hp hc ht' hraises hdb hlate =>
    subst ht'
    obtain ⟨v, hv⟩ := hall i t hi hexecute hinterrupted
    have hok := hv.ok
    rw [hp] at hok
    have hengine : ∀ e, c ≠ .engine e := by
      rintro e rfl
      obtain ⟨hprepares, hhandle⟩ := hun i answers t l e k ha hi hp
      have htrue : e.handle?.isSome = true → False := fun h => by
        have htrue := hhandle h
        rw [show t.interrupted = false from hinterrupted] at htrue
        cases htrue
      cases e with
      | prepare => cases hprepares
      | validate | reconcile => exact hok.1
      | warmup | run | stop | cleanup => exact htrue rfl
    exact ⟨v, hok.resume ⟨hraises, endStep_other hc hengine⟩,
      hv.tended.of_db hdb hlate (fun h => ⟨by rw [hp]; rfl, h.2⟩) rfl rfl rfl rfl, hv.handle, hv.tied⟩
  | fresh hi hprogram hfalse hgranted =>
    cases hkind : t'.kind with
    | execute fence =>
      obtain ⟨hnow, ⟨l, hpre⟩, hdb, hlate⟩ := hgranted fence hkind
      have hnone := hs.fresh i hi.ge
      refine ⟨{ state := .preparing }, ?_, tended_of_granted hinv hnow hpre hdb hlate, hnone.symm, ?_⟩
      · rw [hprogram, hkind]
        exact taskProgram_end config rfl
      · intro handle hhandle
        rw [show s.handle i = some handle from hhandle] at hnone
        cases hnone
    | _ =>
      rw [hkind] at hexecute
      cases hexecute

end Follow

/-! ### What the engine does -/

section Serve

open Engine (OnSession)

variable {L : Lawful A kind} {s s₁ : Rig A} {line : Line} {i : Nat} {t : AgentTask} {v : EndView}
variable {handle : RunHandle}

/-- What an operation ensures under `recording` holds of what the engine does. -/
theorem operate_sound (line : Line) {α : Type} {p : Engine.Client (Engine.Sessions A.Session) α}
    {Q : Except Exc α → Engine.Sessions A.Session → List Engine.Event → Prop}
    (h : p.Ok (Coroutine.recording Engine.Raised) () s.sessions Q (s.record handle)) :
    Q (s.operate line handle p).1 (s.operate line handle p).2.sessions
      ((s.operate line handle p).2.record handle) := by
  have hplay := Coroutine.Prog.play_sound line.raised h 0
  simp only [Rig.operate, Function.update_self]
  exact hplay

/-- After an operation on the session of an execution, its view is still true of the engine. -/
structure OperationServed (L : Lawful A kind) (s s₁ : Rig A) (v : EndView) (handle : RunHandle) (c : EngineCall)
    (r : Except Exc c.Res) : Prop where
  view : ∃ session, EndStep kind v (.engine c) r { v with session } ∧
    Tied L.Fits (s₁.sessions handle) (s₁.record handle) session
  raises : ∀ e, r = .error e → e.isException = true
  others : ∀ h, h ≠ handle → s₁.sessions h = s.sessions h ∧ s₁.record h = s.record h
  agent : s₁.agent = s.agent
  adrift : s₁.adrift = s.adrift
  handle : s₁.handle = s.handle
  issued : s₁.issued = s.issued

theorem served_operate {c : EngineCall} {p : Engine.Client (Engine.Sessions A.Session) c.Res}
    {Q : Except Exc c.Res → Engine.SessionView → Prop}
    (hp : p.Ok (Coroutine.recording Engine.Raised) () s.sessions (fun r sessions' log' =>
      OnSession handle s.sessions r sessions' ∧ ∃ session, Q r session ∧
        Tied L.Fits (sessions' handle) log' session) (s.record handle))
    (hQ : ∀ r session, Q r session → EndStep kind v (.engine c) r { v with session }) :
    OperationServed L s (s.operate line handle p).2 v handle c (s.operate line handle p).1 := by
  obtain ⟨hon, session, hsession, htied⟩ := operate_sound line hp
  refine ⟨⟨session, hQ _ _ hsession, htied⟩, hon.raises, fun h hne => ⟨hon.others h hne, ?_⟩, rfl,
    rfl, rfl, rfl⟩
  exact Function.update_of_ne hne _ _

/-- The engine call of an execution. -/
theorem engine_served (hv : Attended L s i t v) {l : Site} {c : EngineCall}
    {k : Except Exc c.Res → Task (Except Exc Unit × Unit)} (hp : t.program = .await l (.engine c) k)
    (hc : c.handle? = some handle) (hhandle : s.handle i = some handle) {r : Except Exc c.Res}
    (hr : s.engine line i t c = some (r, s₁)) : OperationServed L s s₁ v handle c r := by
  have htied := hv.tied handle hhandle
  have hok := hv.ok
  rw [hp] at hok
  have hcall := hok.1
  cases c with
  | prepare | validate | reconcile => cases hc
  | warmup handle' =>
    obtain rfl := Option.some.inj hc
    simp only [Rig.engine] at hr
    split at hr
    · cases hr
    · obtain ⟨rfl, rfl⟩ := Prod.mk.inj (Option.some.inj hr)
      refine served_operate (c := .warmup handle') (Q := fun _ session => session = v.session)
        ((L.warmup _ _ _ _ htied).mono ?_) ?_
      · exact fun r sessions log h => ⟨h.1, _, rfl, h.2⟩
      · rintro r session rfl
        exact rfl
  | run handle' =>
    obtain rfl := Option.some.inj hc
    simp only [Rig.engine] at hr
    split at hr
    · cases hr
    · obtain ⟨rfl, rfl⟩ := Prod.mk.inj (Option.some.inj hr)
      refine served_operate (c := .run handle')
        (Q := fun _ session => ∃ stopped, session = v.session.run stopped)
        ((L.run _ _ _ _ htied hcall.2.1 hcall.2.2).mono ?_) ?_
      · rintro r sessions log ⟨hon, stopped, h⟩
        exact ⟨hon, _, ⟨stopped, rfl⟩, h⟩
      · rintro r session ⟨stopped, rfl⟩
        exact ⟨stopped, rfl⟩
  | stop handle' force =>
    obtain rfl := Option.some.inj hc
    simp only [Rig.engine] at hr
    split at hr
    · cases hr
    · obtain ⟨rfl, rfl⟩ := Prod.mk.inj (Option.some.inj hr)
      refine served_operate (c := .stop handle' force) (Q := fun r session => (v.session.live = false →
        Engine.StopsMissing kind r) ∧ session = v.session.stop r)
        ((L.stop _ _ _ _ _ htied).mono ?_) ?_
      · exact fun r sessions log h => ⟨h.1, _, ⟨h.2.1, rfl⟩, h.2.2⟩
      · rintro r session ⟨hmissing, rfl⟩
        exact ⟨hmissing, rfl⟩
  | cleanup handle' =>
    obtain rfl := Option.some.inj hc
    simp only [Rig.engine] at hr
    split at hr
    · cases hr
    · obtain ⟨rfl, rfl⟩ := Prod.mk.inj (Option.some.inj hr)
      refine served_operate (c := .cleanup handle')
        (Q := fun r session => (v.session.live = false → r = .ok ()) ∧
        session = v.session.cleanup kind r) ((L.cleanup _ _ _ _ htied).mono ?_) ?_
      · exact fun r sessions log h => ⟨h.1, _, ⟨h.2.1, rfl⟩, h.2.2⟩
      · rintro r session ⟨hgone, rfl⟩
        exact ⟨hgone, rfl⟩

/-- What `prepare` can do. -/
inductive PrepareServed (L : Lawful A kind) (s : Rig A) (i : Nat) :
    Except Exc RunHandle → Rig A → Prop where
  | failed (e : Exc) (he : e.isException = true) : PrepareServed L s i (.error e) s
  | prepared (session : A.Session) (events : List Engine.Event)
      (hfits : L.Fits session events { live := true }) :
      PrepareServed L s i (.ok ⟨s.issued⟩) { s with
        sessions := Function.update s.sessions ⟨s.issued⟩ (some session)
        handle := Function.update s.handle i (some ⟨s.issued⟩)
        record := Function.update s.record ⟨s.issued⟩ events
        issued := s.issued + 1 }

theorem prepare_served (L : Lawful A kind) (line : Line) (document : JobDocument) :
    PrepareServed L s i (s.prepare line i document).1 (s.prepare line i document).2 := by
  have hplay := Coroutine.Prog.play_sound line.raised (L.prepare document) 0
  rw [List.nil_append] at hplay
  unfold Rig.prepare
  generalize (A.prepare document () false).play line.answer 0 = x at hplay
  obtain ⟨⟨e | session, b⟩, events⟩ := x
  · exact .failed e hplay.1
  · exact .prepared session events hplay

/-- The agent takes the step too. -/
theorem step_of_answer {agent : Agent} (config : AgentConfig) {l : Site} {c : EngineCall}
    {k : Except Exc c.Res → Task (Except Exc Unit × Unit)} (hi : agent.tasks[i]? = some t)
    (hp : t.program = .await l (.engine c) k) {r : Except Exc c.Res}
    (hraises : ∀ e, r = .error e → e.isException = true) :
    ∃ answers, agent.step config (.task i answers) =
      some { agent with tasks := agent.tasks.set i { t with program := k r } } := by
  classical
  refine ⟨fun c' => if h : c' = .engine c then h ▸ r else .error .cancelled, ?_⟩
  have hexec : agent.exec config (fun c' => if h : c' = .engine c then h ▸ r else .error .cancelled)
      (.engine c) = some (r, agent) := by
    simp only [Agent.exec, dif_pos]
    cases r with
    | ok x => rfl
    | error e => simp [Agent.outside, hraises e rfl]
  simp only [Agent.step, hi, hp, hexec]

end Serve

/-! ### Runs -/

structure RigInv (config : AgentConfig) (L : Lawful A kind) (s : Rig A) : Prop where
  agent : ∃ h views calls, Inv s.agent h ∧ LifeInv config False s.agent views ∧
    OnceInv config s.agent h views calls
  handles : HandlesApart s
  attended : AllAttended L s

section Run

variable {config : AgentConfig} {L : Lawful A kind} {s s' : Rig A} {line : Line}

theorem OnceInv.sole {agent : Agent} {h : History} {views : Nat → LifeView} {calls : List PrepareCall}
    (honce : OnceInv config agent h views calls) (i : Nat) (t : AgentTask)
    (hi : agent.tasks[i]? = some t) (ht : t.kind.isExecute = true) : Sole agent i t.job :=
  fun j u hj hu hjob => honce.single j i u t hj hi hu ht hjob

/-- The invariants of the agent, after a step of it. -/
theorem agent_step {agent agent' : Agent} {a : Action} {h : History} {views : Nat → LifeView}
    {calls : List PrepareCall} (hinv : Inv agent h) (hlife : LifeInv config False agent views)
    (honce : OnceInv config agent h views calls) (hs : agent.step config a = some agent') :
    ∃ h', Step config agent h a agent' h' ∧ ∃ views calls, Inv agent' h' ∧
      LifeInv config False agent' views ∧ OnceInv config agent' h' views calls := by
  obtain ⟨h', hstep⟩ := step_traced hinv hs
  obtain ⟨views', hlife', hviews⟩ := hlife.step hinv hstep hs False.elim
  exact ⟨h', hstep, views', _, hinv.step hstep, hlife',
    honce.step hinv (hinv.step hstep) hlife hlife' hstep hviews⟩

theorem tasks_length {agent agent' : Agent} {a : Action} {h h' : History}
    (hstep : Step config agent h a agent' h') (ha : a ≠ .crash) :
    agent.tasks.length ≤ agent'.tasks.length := by
  cases hstep with
  | crash => exact absurd rfl ha
  | thrown | taskStore | taskCall => simp
  | tickSpawn | reportProgress => simp [Agent.spawn]
  | _ => exact le_rfl

/-- A step in which the engine does nothing. -/
theorem RigInv.follow (hinv : RigInv config L s) {a : Action} {agent : Agent} (hun : Unserved s a)
    (hs : s.agent.step config a = some agent) : RigInv config L (s.follow a agent) := by
  obtain ⟨⟨h, views, calls, hagent, hlife, honce⟩, hhandles, hattended⟩ := hinv
  obtain ⟨h', hstep, views', calls', hagent', hlife', honce'⟩ :=
    agent_step hagent hlife honce hs
  by_cases ha : a = .crash
  · subst ha
    obtain rfl := Option.some.inj hs
    refine ⟨⟨h', views', calls', hagent', hlife', honce'⟩, ?_, fun i t hi => ?_⟩
    · refine ⟨?_, ?_, ?_, ?_, ?_, ?_, ?_⟩ <;> simp [Rig.follow]
    · simp [Rig.follow] at hi
  · have hmoves : ∀ i t', agent.tasks[i]? = some t' → TaskMove config s.agent h a agent i t' :=
      fun _ _ hi' => hstep.moves hs hi'
    have hfollow : (s.follow a agent).agent = agent := by rw [follow_eq ha]
    refine ⟨⟨h', views', calls', ?_⟩, hhandles.follow hun ha (tasks_length hstep ha) hmoves, ?_⟩
    · rw [hfollow]
      exact ⟨hagent', hlife', honce'⟩
    · cases hserving : agent.serving with
      | true =>
        exact hattended.follow hhandles hun ha hagent hlife honce.sole hstep hserving hmoves
      | false =>
        intro i t hi
        rw [hfollow, (hagent'.recovering hserving).1] at hi
        simp at hi

/-- A worker thread that was left behind goes on. -/
theorem RigInv.worker (hinv : RigInv config L s) {handle : RunHandle} {session : Option A.Session}
    {events : List Engine.Event} (hs : s.step config (.worker handle session events) = some s') :
    RigInv config L s' := by
  simp only [Rig.step] at hs
  split at hs
  · rename_i hmem
    obtain rfl := Option.some.inj hs
    obtain ⟨hagent, hhandles, hattended⟩ := hinv
    refine ⟨hagent, ⟨hhandles.task, hhandles.execute, hhandles.fresh, hhandles.issued, hhandles.apart,
      hhandles.drifting, hhandles.adrift⟩, fun i t hi hexecute hfalse => ?_⟩
    obtain ⟨v, hv⟩ := hattended i t hi hexecute hfalse
    refine ⟨v, hv.ok, hv.tended, hv.handle, fun handle' hhandle => ?_⟩
    have hne : handle' ≠ handle := by
      rintro rfl
      have htrue := hhandles.adrift i t handle' hi hhandle hmem
      rw [hfalse] at htrue
      cases htrue
    simp only [Function.update_of_ne hne]
    exact hv.tied handle' hhandle
  · cases hs

/-- The handles, after the engine has answered a call about a session. -/
theorem HandlesApart.answered (hs : HandlesApart s) {i : Nat} {t : AgentTask} {l : Site} {c : Call}
    {k : Except Exc c.Res → Task (Except Exc Unit × Unit)} (hi : s.agent.tasks[i]? = some t)
    (hp : t.program = .await l c k) {r : Except Exc c.Res} {s₁ : Rig A}
    (hagent : s₁.agent = { s.agent with tasks := s.agent.tasks.set i { t with program := k r } })
    (hhandle : s₁.handle = Function.update s.handle i (nextHandle (s.handle i) c r))
    (hexecute : ∀ handle, nextHandle (s.handle i) c r = some handle → t.kind.isExecute = true)
    (hissued : s.issued ≤ s₁.issued)
    (hnew : ∀ handle, nextHandle (s.handle i) c r = some handle →
      s.handle i = some handle ∨ s.issued ≤ handle.id ∧ handle.id < s₁.issued)
    (hadrift : s₁.adrift = s.adrift) : HandlesApart s₁ := by
  have hrange : i < s.agent.tasks.length := (List.getElem?_eq_some_iff.mp hi).1
  have hother : ∀ {j}, j ≠ i → s₁.handle j = s.handle j := by
    intro j hne
    rw [hhandle, Function.update_of_ne hne]
  have hself : s₁.handle i = nextHandle (s.handle i) c r := by
    rw [hhandle, Function.update_self]
  have hbound : ∀ j handle, s₁.handle j = some handle → handle.id < s₁.issued := by
    intro j handle hj
    by_cases hne : j = i
    · subst hne
      rw [hself] at hj
      obtain hold | hnew := hnew handle hj
      · exact (hs.issued j handle hold).trans_le hissued
      · exact hnew.2
    · rw [hother hne] at hj
      exact (hs.issued j handle hj).trans_le hissued
  refine ⟨fun j u hj => ?_, fun j u handle hj hu => ?_, fun j hj => ?_, hbound, fun j j' handle hj hj' => ?_,
    ?_, fun j u handle hj hu hmem => ?_⟩
  · rw [hagent] at hj
    obtain ⟨rfl, rfl⟩ | ⟨hne, hj⟩ := getElem?_set_some hj
    · have hok := hs.task j t hi
      rw [hp] at hok
      rw [hself]
      exact hok.resume rfl
    · rw [hother hne]
      exact hs.task j u hj
  · rw [hagent] at hj
    obtain ⟨rfl, rfl⟩ | ⟨hne, hj⟩ := getElem?_set_some hj
    · rw [hself] at hu
      exact hexecute handle hu
    · rw [hother hne] at hu
      exact hs.execute j u handle hj hu
  · rw [hagent, List.length_set] at hj
    rw [hother (by omega)]
    exact hs.fresh j hj
  · -- a handle that is new to the task is new to all
    have hclash : ∀ {n}, n ≠ i → s₁.handle n = some handle → s₁.handle i = some handle → False := by
      intro n hne hn hi'
      rw [hother hne] at hn
      rw [hself] at hi'
      obtain hold | hnew := hnew handle hi'
      · exact hne (hs.apart n i handle hn hold)
      · exact hnew.1.not_gt (hs.issued n handle hn)
    by_cases hji : j = i
    · by_cases hji' : j' = i
      · rw [hji, hji']
      · exact (hclash hji' hj' (hji ▸ hj)).elim
    · by_cases hji' : j' = i
      · exact (hclash hji hj (hji' ▸ hj')).elim
      · exact hs.apart j j' handle (hother hji ▸ hj) (hother hji' ▸ hj')
  · intro handle hmem
    rw [hadrift] at hmem
    exact (hs.drifting handle hmem).trans_le hissued
  · rw [hadrift] at hmem
    rw [hagent] at hj
    obtain ⟨rfl, rfl⟩ | ⟨hne, hj⟩ := getElem?_set_some hj
    · rw [hself] at hu
      obtain hold | hnew := hnew handle hu
      · exact hs.adrift j t handle hi hold hmem
      · exact absurd (hs.drifting handle hmem) hnew.1.not_gt
    · rw [hother hne] at hu
      exact hs.adrift j u handle hj hu hmem

/-- The other executions, after the engine has answered a call of the `i`-th task. -/
theorem Attended.other {h h' : History} {views : Nat → LifeView} {calls : List PrepareCall}
    {answers : Answers} (hagent : Inv s.agent h) (hlife : LifeInv config False s.agent views)
    (honce : OnceInv config s.agent h views calls) {i j : Nat} {t : AgentTask} {v : EndView}
    {s₁ : Rig A} (hv : Attended L s j t v) (hne : j ≠ i) (hj : s.agent.tasks[j]? = some t)
    (hexecute : t.kind.isExecute = true)
    (hstep : Step config s.agent h (.task i answers) s₁.agent h') (hserving : s₁.agent.serving = true)
    (hhandle : s₁.handle j = s.handle j) (hrest : ∀ handle, s.handle j = some handle →
      s₁.sessions handle = s.sessions handle ∧ s₁.record handle = s.record handle) :
    Attended L s₁ j t v where
  ok := hv.ok
  tended := hv.tended.other hagent hlife hstep hserving hj (honce.sole j t hj hexecute)
    fun heq => hne (Option.some.inj heq).symm
  handle := hv.handle.trans hhandle.symm
  tied handle hj' := by
    rw [hhandle] at hj'
    obtain ⟨hsessions, hrecord⟩ := hrest handle hj'
    rw [hsessions, hrecord]
    exact hv.tied handle hj'

/-- What the engine does for the `i`-th task, seen from the invariant. -/
structure EngineEffect (L : Lawful A kind) (s s₁ : Rig A) (i : Nat) (t : AgentTask) (c : EngineCall)
    (r : Except Exc c.Res) : Prop where
  raises : ∀ e, r = .error e → e.isException = true
  agent : s₁.agent = s.agent
  adrift : s₁.adrift = s.adrift
  handle : s₁.handle = Function.update s.handle i (nextHandle (s.handle i) (.engine c) r)
  execute : t.kind.isExecute = true
  issued : s.issued ≤ s₁.issued
  fresh : ∀ handle, nextHandle (s.handle i) (.engine c) r = some handle →
    s.handle i = some handle ∨ s.issued ≤ handle.id ∧ handle.id < s₁.issued
  others : ∀ j handle, j ≠ i → s.handle j = some handle →
    s₁.sessions handle = s.sessions handle ∧ s₁.record handle = s.record handle
  view : t.interrupted = false → ∀ v, Attended L s i t v → ∃ v', EndStep kind v (.engine c) r v' ∧
    v'.state = v.state ∧ v'.flagged = v.flagged ∧ v'.marked = v.marked ∧
    v'.handle = s₁.handle i ∧
    ∀ handle, s₁.handle i = some handle → Tied L.Fits (s₁.sessions handle) (s₁.record handle) v'.session

theorem operate_effect (hhandles : HandlesApart s) (hattended : AllAttended L s) {i : Nat}
    {t : AgentTask} {l : Site} {c : EngineCall} {k : Except Exc c.Res → Task (Except Exc Unit × Unit)}
    (hi : s.agent.tasks[i]? = some t) (hp : t.program = .await l (.engine c) k)
    {handle : RunHandle} (hc : c.handle? = some handle) {r : Except Exc c.Res} {s₁ : Rig A}
    (hr : s.engine line i t c = some (r, s₁)) : EngineEffect L s s₁ i t c r := by
  have hhandle : s.handle i = some handle := by
    have hok := hhandles.task i t hi
    rw [hp] at hok
    exact hok.1 handle hc
  have hexecute := hhandles.execute i t handle hi hhandle
  have hnext : nextHandle (s.handle i) (.engine c) r = s.handle i := by
    refine nextHandle_of_not_prepares ?_
    cases c with
    | prepare => cases hc
    | _ => rfl
  have hfalse : t.interrupted = false := by
    by_contra hnot
    have htrue : t.interrupted = true := by simpa using hnot
    cases c with
    | prepare | validate | reconcile => cases hc
    | warmup | run | stop | cleanup =>
      simp only [Rig.engine, if_pos htrue] at hr
      cases hr
  obtain ⟨v, hv⟩ := hattended i t hi hexecute hfalse
  have hserved := engine_served hv hp hc hhandle hr
  refine ⟨hserved.raises, hserved.agent, hserved.adrift, ?_, hexecute, hserved.issued.ge,
    fun handle' h => .inl (hnext ▸ h), fun j handle' hne hj => ?_, fun _ w hw => ?_⟩
  · rw [hnext, Function.update_eq_self, hserved.handle]
  · refine hserved.others handle' ?_
    rintro rfl
    exact hne (hhandles.apart j i handle' hj hhandle)
  · obtain ⟨session, hstep, htied⟩ := (engine_served hw hp hc hhandle hr).view
    refine ⟨{ w with session }, hstep, rfl, rfl, rfl, ?_, fun handle' h => ?_⟩
    · rw [hserved.handle]
      exact hw.handle
    · rw [hserved.handle, hhandle] at h
      obtain rfl := Option.some.inj h
      exact htied

theorem prepare_effect (hhandles : HandlesApart s) {i : Nat} {t : AgentTask}
    (hexecute : t.kind.isExecute = true) {marker : ExecutionMarker} {document : JobDocument}
    {r : Except Exc RunHandle} {s₁ : Rig A} (hr : PrepareServed L s i r s₁) :
    EngineEffect L s s₁ i t (.prepare marker document) r := by
  cases hr with
  | failed e he =>
    refine ⟨?_, rfl, rfl, ?_, hexecute, le_rfl, fun handle h => .inl h, fun _ _ _ _ => ⟨rfl, rfl⟩,
      fun _ v hv => ⟨v, rfl, rfl, rfl, rfl, hv.handle, hv.tied⟩⟩
    · rintro e' ⟨⟩
      exact he
    · exact (Function.update_eq_self i s.handle).symm
  | prepared session events hfits =>
    have hne : ∀ {j handle}, s.handle j = some handle → handle ≠ ⟨s.issued⟩ := by
      rintro j _ hj rfl
      exact lt_irrefl _ (hhandles.issued j _ hj)
    refine ⟨by simp, rfl, rfl, rfl, hexecute, Nat.le_succ _, ?_, fun j handle _ hj => ?_,
      fun _ v hv => ⟨{ v with handle := some ⟨s.issued⟩, session := { live := true } }, rfl, rfl, rfl,
        rfl, ?_, ?_⟩⟩
    · rintro handle ⟨⟩
      exact .inr ⟨le_rfl, Nat.lt_succ_self _⟩
    · simp only [Function.update_of_ne (hne hj)]
      exact ⟨trivial, trivial⟩
    · simp only [Function.update_self]
    · intro handle hhandle
      simp only [Function.update_self, Option.some.injEq] at hhandle
      subst hhandle
      simp only [Function.update_self]
      refine ⟨rfl, by simp, by simp, by simp, ?_⟩
      rintro x ⟨⟩
      exact hfits

/-- The engine answers a call of the `i`-th task. -/
theorem RigInv.serve (hinv : RigInv config L s) {i : Nat} (hs : s.serve line i = some s') :
    RigInv config L s' := by
  obtain ⟨⟨h, views, calls, hagent, hlife, honce⟩, hhandles, hattended⟩ := hinv
  unfold Rig.serve at hs
  split at hs
  · cases hs
  rename_i t hi
  split at hs
  on_goal 2 => cases hs
  rename_i l c k hp
  obtain ⟨⟨r, s₁⟩, hr, rfl⟩ := Option.map_eq_some_iff.mp hs
  have heffect : EngineEffect L s s₁ i t c r := by
    cases c with
    | prepare marker document =>
      have hcall := (hlife.task i t hi).ok
      rw [hp] at hcall
      obtain ⟨rfl, rfl⟩ := Prod.mk.inj (Option.some.inj hr)
      exact prepare_effect hhandles hcall.1.1 (prepare_served L line document)
    | validate | reconcile => cases hr
    | warmup | run | stop | cleanup => exact operate_effect hhandles hattended hi hp rfl hr
  obtain ⟨answers, hstepped⟩ := step_of_answer config hi hp heffect.raises
  obtain ⟨h', hstep, views', calls', hagent', hlife', honce'⟩ :=
    agent_step hagent hlife honce hstepped
  refine ⟨⟨h', views', calls', hagent', hlife', honce'⟩, ?_, fun j u hj hexecute hfalse => ?_⟩
  · refine hhandles.answered hi hp rfl heffect.handle (fun _ _ => heffect.execute) heffect.issued
      heffect.fresh heffect.adrift
  have hserving : s.agent.serving = true := by
    by_contra hnot
    rw [(hagent.recovering (by simpa using hnot)).1] at hi
    simp at hi
  obtain ⟨rfl, rfl⟩ | ⟨hne, hj⟩ := getElem?_set_some hj
  · obtain ⟨v, hv⟩ := hattended j t hi hexecute hfalse
    obtain ⟨v', hview, hstate, hflagged, hmarked, hhandle, htied⟩ := heffect.view hfalse v hv
    have hok := hv.ok
    rw [hp] at hok
    exact ⟨v', hok.resume ⟨fun e he => ⟨heffect.raises e he, heffect.raises e he⟩, hview⟩,
      hv.tended.of_db rfl rfl (fun hlive => ⟨by rw [hp]; rfl, hlive.2⟩) rfl hstate hflagged hmarked,
      hhandle, htied⟩
  · obtain ⟨v, hv⟩ := hattended j u hj hexecute hfalse
    refine ⟨v, hv.other hagent hlife honce hne hj hexecute hstep hserving ?_ fun handle hhandle =>
      heffect.others j handle hne hhandle⟩
    show s₁.handle j = _
    rw [heffect.handle, Function.update_of_ne hne]

theorem RigInv.step (hinv : RigInv config L s) {a : RigAction A} (hs : s.step config a = some s') :
    RigInv config L s' := by
  cases a with
  | worker handle session events => exact hinv.worker hs
  | agent a line =>
    have hfollow : Unserved s a → (s.agent.step config a).map (s.follow a) = some s' →
        RigInv config L s' := by
      intro hun hs
      obtain ⟨agent, hagent, rfl⟩ := Option.map_eq_some_iff.mp hs
      exact hinv.follow hun hagent
    cases a with
    | task i answers =>
      simp only [Rig.step] at hs
      split at hs
      · rename_i s'' hserve
        obtain rfl := Option.some.inj hs
        exact hinv.serve hserve
      · rename_i hserve
        exact hfollow (unserved_of_serve hserve) hs
    | _ => exact hfollow (by simp [Unserved]) hs

theorem RigInv.init (logicalPorts : List PortId) : RigInv config L (Rig.init A logicalPorts) where
  agent := by
    refine ⟨_, _, [], Inv.init logicalPorts, LifeInv.init logicalPorts, ?_⟩
    refine ⟨List.nodup_nil, ?_, Nat.zero_le _, ?_, ?_, ?_, ?_⟩ <;> simp [Rig.init, Agent.init]
  handles := by
    refine ⟨?_, ?_, ?_, ?_, ?_, ?_, ?_⟩ <;> simp [Rig.init, Agent.init]
  attended i t hi := by simp [Rig.init, Agent.init] at hi

theorem Rig.Reach.inv {logicalPorts : List PortId} (hs : s.Reach config logicalPorts) :
    RigInv config L s := by
  induction hs with
  | init => exact .init logicalPorts
  | step _ hs ih => exact ih.step hs

/-- What has happened before the `i`-th task gives back the ports of its job. -/
structure EndedFirst (kind : AdapterKind) (s : Rig A) (i : Nat) (job : JobId) (quarantine : Bool) :
    Prop where
  unmarked : quarantine = false → s.agent.db.markers.get job = none
  released : quarantine = false →
    ∀ handle, s.handle i = some handle → Engine.Released (s.record handle)
  quarantined : quarantine = true → ∃ handle, s.handle i = some handle ∧
    (Engine.Failed (s.record handle) ∨
      kind = .astf ∧ Engine.Released (s.record handle) ∧ Flagged s.agent.db job)

/-- An execution that nothing has interrupted ends its session before it gives its ports back. -/
theorem RigInv.endedFirst (hinv : RigInv config L s) {i : Nat} {job : JobId} {quarantine : Bool}
    (hback : s.givesBack i = some (job, quarantine)) : EndedFirst kind s i job quarantine := by
  obtain ⟨t, hi, hrelease⟩ := Option.bind_eq_some_iff.mp hback
  split at hrelease
  on_goal 2 => cases hrelease
  rename_i hkind
  obtain ⟨hexecute, hnot⟩ := Bool.and_eq_true_iff.mp hkind
  have hfalse : t.interrupted = false := by simpa using hnot
  obtain ⟨v, hv⟩ := hinv.attended i t hi hexecute hfalse
  obtain ⟨⟨h, views, calls, hagent, -⟩, -⟩ := hinv
  have hok := hv.ok
  have htask := (hagent.task i t hi).ok
  unfold AgentTask.releasing at hrelease
  split at hrelease
  · rename_i l j q k hp
    obtain ⟨rfl, rfl⟩ := Prod.mk.inj (Option.some.inj hrelease)
    rw [hp] at hok htask
    obtain rfl : j = t.job := htask.1.2.1
    have hsettles : Settles kind v q := hok.1
    refine ⟨fun hq => hv.tended.marked (hsettles.free hq).1, fun hq handle hhandle => ?_, fun hq => ?_⟩
    · refine (hv.tied handle hhandle).released ((hsettles.free hq).2 ?_)
      rw [hv.handle, hhandle]
      rfl
    · obtain ⟨hsome, hended⟩ := hsettles.held hq
      obtain ⟨handle, hhandle⟩ := Option.isSome_iff_exists.mp hsome
      rw [hv.handle] at hhandle
      have htied := hv.tied handle hhandle
      refine ⟨handle, hhandle, hended.imp htied.faulty ?_⟩
      rintro ⟨hkind, hreleased, hflagged⟩
      exact ⟨hkind, htied.released hreleased, hv.tended.flagged hflagged⟩
  · cases hrelease

end Run

/-! ### The two engines -/

/-- In every run, whatever interrupts its tasks, an engine call that a task awaits is about the session
that this task has prepared, and no other task has had the handle of it. -/
theorem sessions_apart (L : Lawful A kind) (config : AgentConfig) (logicalPorts : List PortId)
    {s : Rig A} (hs : s.Reach config logicalPorts) {i : Nat} {t : AgentTask} {handle : RunHandle}
    (hi : s.agent.tasks[i]? = some t) (ht : t.awaited = some handle) :
    t.kind.isExecute = true ∧ s.handle i = some handle ∧ ∀ j, s.handle j = some handle → j = i := by
  have hhandles := (hs.inv (L := L)).handles
  have hhandle := hhandles.awaited hi ht
  exact ⟨hhandles.execute i t handle hi hhandle, hhandle,
    fun j hj => hhandles.apart j i handle hj hhandle⟩

open TrexCli.Action (launch schedule resume)

theorem sessions_apart_warmup :
    ∃ s, (Rig.init (Engine.stl labStl) [0, 1]).run labConfig
      (RigAction.all _ (launch ++ resume 0 9)) = some s ∧ s.handle 0 = some ⟨0⟩ ∧
      ∀ j, s.handle j = some ⟨0⟩ → j = 0 := by
  have hrun : ((Rig.init (Engine.stl labStl) [0, 1]).run labConfig
      (RigAction.all _ (launch ++ resume 0 9))).map
        (fun s => s.agent.tasks[0]?.bind AgentTask.awaited) = some (some ⟨0⟩) := by decide +kernel
  obtain ⟨s, hs, htask⟩ := Option.map_eq_some_iff.mp hrun
  obtain ⟨t, hi, ht⟩ := Option.bind_eq_some_iff.mp htask
  exact ⟨s, hs, (sessions_apart (Engine.Stl.lawful labStl) labConfig [0, 1]
    (Rig.Reach.run labConfig .init hs) hi ht).2⟩

/-- In every run of the agent on the STL engine, an execution that nothing has interrupted makes its
ports available only when its marker is gone, traffic has been stopped and its session taken down, and
puts them into quarantine only when a call to end the session has failed. -/
theorem stl_ports_given_back (config : AgentConfig) (engine : Engine.StlConfig)
    (logicalPorts : List PortId) {s : Rig (Engine.stl engine)} (hs : s.Reach config logicalPorts)
    {i : Nat} {job : JobId} {quarantine : Bool} (hback : s.givesBack i = some (job, quarantine)) :
    (quarantine = false → s.agent.db.markers.get job = none ∧
      ∀ handle, s.handle i = some handle → Engine.Released (s.record handle)) ∧
    (quarantine = true → ∃ handle, s.handle i = some handle ∧ Engine.Failed (s.record handle)) := by
  have hended := (hs.inv (L := Engine.Stl.lawful engine)).endedFirst hback
  refine ⟨fun hq => ⟨hended.unmarked hq, hended.released hq⟩, fun hq => ?_⟩
  obtain ⟨handle, hhandle, hfailed | ⟨hkind, -⟩⟩ := hended.quarantined hq
  · exact ⟨handle, hhandle, hfailed⟩
  · cases hkind

theorem stl_ports_given_back_launch :
    ∃ s, (Rig.init (Engine.stl labStl) [0, 1]).run labConfig
      (RigAction.all _ (launch ++ resume 0 41)) = some s ∧ s.agent.db.markers.get 7 = none ∧
      ∃ handle, s.handle 0 = some handle ∧ Engine.Released (s.record handle) := by
  have hrun : ((Rig.init (Engine.stl labStl) [0, 1]).run labConfig
      (RigAction.all _ (launch ++ resume 0 41))).map (fun s => (s.givesBack 0, s.handle 0)) =
      some (some (7, false), some ⟨0⟩) := by decide +kernel
  obtain ⟨s, hs, hstate⟩ := Option.map_eq_some_iff.mp hrun
  obtain ⟨hback, hhandle⟩ := Prod.mk.inj hstate
  have hended := (stl_ports_given_back labConfig labStl [0, 1] (Rig.Reach.run labConfig .init hs)
    hback).1 rfl
  exact ⟨s, hs, hended.1, ⟨0⟩, hhandle, hended.2 _ hhandle⟩

/-- In every run of the agent on the ASTF engine, an execution that nothing has interrupted makes its
ports available only when its marker is gone, traffic has been stopped and its session taken down. It
puts them into quarantine when a call to end the session has failed, but also when a cancellation of
the job has taken the session down already. -/
theorem astf_ports_given_back (config : AgentConfig) (engine : Engine.AstfConfig)
    (logicalPorts : List PortId) {s : Rig (Engine.astf engine)} (hs : s.Reach config logicalPorts)
    {i : Nat} {job : JobId} {quarantine : Bool} (hback : s.givesBack i = some (job, quarantine)) :
    (quarantine = false → s.agent.db.markers.get job = none ∧
      ∀ handle, s.handle i = some handle → Engine.Released (s.record handle)) ∧
    (quarantine = true → ∃ handle, s.handle i = some handle ∧
      (Engine.Failed (s.record handle) ∨
        Engine.Released (s.record handle) ∧ Flagged s.agent.db job)) := by
  have hended := (hs.inv (L := Engine.Astf.lawful engine)).endedFirst hback
  refine ⟨fun hq => ⟨hended.unmarked hq, hended.released hq⟩, fun hq => ?_⟩
  obtain ⟨handle, hhandle, hcause⟩ := hended.quarantined hq
  exact ⟨handle, hhandle, hcause.imp_right And.right⟩

/-- The cancel request is seen by the execution before anything interrupts it: the session is taken
down, no call fails, and the ports go into quarantine. -/
theorem astf_ports_given_back_cancelled :
    ∃ s, (Rig.init (Engine.astf labAstf) [0, 1]).run labConfig (RigAction.all _ (launch ++ resume 0 10 ++
        [.requestCancel 7 "cancel" "user" ""] ++ resume 0 17)) = some s ∧
      ∃ handle, s.handle 0 = some handle ∧ ¬ Engine.Failed (s.record handle) ∧
        Engine.Released (s.record handle) ∧ Flagged s.agent.db 7 := by
  have hrun : ((Rig.init (Engine.astf labAstf) [0, 1]).run labConfig (RigAction.all _ (launch ++ resume 0 10 ++
      [.requestCancel 7 "cancel" "user" ""] ++ resume 0 17))).map
        (fun s => (s.givesBack 0, s.handle 0, (s.record ⟨0⟩).any Engine.fails)) =
      some (some (7, true), some ⟨0⟩, false) := by decide +kernel
  obtain ⟨s, hs, hstate⟩ := Option.map_eq_some_iff.mp hrun
  simp only [Prod.mk.injEq] at hstate
  obtain ⟨hback, hhandle, hnone⟩ := hstate
  have hsound : ¬ Engine.Failed (s.record ⟨0⟩) := fun h => by
    rw [Engine.any_fails h] at hnone
    cases hnone
  obtain ⟨handle, hhandle', hcause⟩ := (astf_ports_given_back labConfig labAstf [0, 1]
    (Rig.Reach.run labConfig .init hs) hback).2 rfl
  obtain rfl := Option.some.inj (hhandle.symm.trans hhandle')
  exact ⟨s, hs, ⟨0⟩, hhandle, hsound, hcause.resolve_left hsound⟩

end TrexCli
