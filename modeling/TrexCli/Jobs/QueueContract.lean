import TrexCli.Jobs.EventLogs
import TrexCli.Jobs.Rules
import TrexCli.Jobs.TaskContract

/-!
# The order in which `_tick` tries the waiting jobs

`queueContract` holds of every tick. The second loop tries the ports of a job only after the jobs before
it in its list, and each of those that waited when it was listed has been refused its ports or has been
seen to have a cancel request or to have left `WAITING_FOR_PORTS`.
-/

namespace TrexCli

open Coroutine.Py (safe_call safe_pure safe_raise ok_bind ok_tryExcept Ends)
open Relation (ReflTransGen TransGen)

/-! ### What follows `WAITING_FOR_PORTS` -/

/-- The job does not wait for its turn any more: an execution has begun, it has ended, or a cancel is
requested. -/
def JobSnapshot.gone (s : JobSnapshot) : Prop :=
  s.state.recoverable = false ∨ s.cancelRequested = true

namespace Writes

variable {s s' : JobSnapshot}

theorem gone (h : Writes s s') (hs : s.gone) : s'.gone :=
  hs.imp h.ran fun hcancel => (h.cancelRequested hcancel).1

theorem gone_of_chain (h : ReflTransGen Writes s s') (hs : s.gone) : s'.gone := by
  induction h with
  | refl => exact hs
  | tail _ hw ih => exact hw.gone ih

/-- What is written over a job that waits leaves it waiting only with a cancel request. -/
theorem gone_of_waiting (h : Writes s s') (hs : s.state = .waitingForPorts) : s'.gone := by
  cases h with
  | cancel => exact .inr rfl
  | transition site hadm =>
    have hexpects := hadm.2.1
    cases site with
    | validationStarted | validationSucceeded =>
      simp [CallSite.request, TransitionRequest.expects, hs] at hexpects
    | phase stage => cases stage <;> exact .inl rfl
    | _ => exact .inl rfl

/-- A job that waits keeps waiting until an execution begins or it ends. -/
theorem waiting (h : Writes s s') (hs : s.state = .waitingForPorts) :
    s'.state = .waitingForPorts ∨ s'.state.recoverable = false := by
  cases h with
  | cancel => exact .inl hs
  | transition site hadm =>
    have hexpects := hadm.2.1
    cases site with
    | validationStarted | validationSucceeded =>
      simp [CallSite.request, TransitionRequest.expects, hs] at hexpects
    | phase stage => cases stage <;> exact .inr rfl
    | _ => exact .inr rfl

theorem waiting_of_chain (h : ReflTransGen Writes s s') (hs : s.state = .waitingForPorts) :
    s'.state = .waitingForPorts ∨ s'.state.recoverable = false := by
  induction h with
  | refl => exact .inl hs
  | tail _ hw ih => exact ih.elim hw.waiting fun hran => .inr (hw.ran hran)

theorem jobId (h : Writes s s') : s'.jobId = s.jobId := by
  cases h <;> rfl

theorem jobId_of_chain (h : ReflTransGen Writes s s') : s'.jobId = s.jobId := by
  induction h with
  | refl => rfl
  | tail _ hw ih => exact hw.jobId.trans ih

theorem gone_of_later (h : TransGen Writes s s') (hs : s.state = .waitingForPorts) : s'.gone := by
  obtain ⟨x, hx, hrest⟩ := TransGen.head'_iff.mp h
  exact gone_of_chain hrest (hx.gone_of_waiting hs)

end Writes

/-! ### The contract -/

/-- The job whose row the call writes to. -/
def Call.writesTo : Call → Option JobId
  | .store (.updateSnapshot s ..) => some s.jobId
  | _ => none

/-- What `_tick` knows of its list. -/
structure QueueView where
  known : Known := ∅
  /-- The last list, and whether no job has been written to since but by the second loop. -/
  scan : List JobSnapshot := []
  current : Bool := false
  documents : Set (JobId × JobDocument) := ∅
  /-- The jobs of the list that have been refused their ports. -/
  refused : Set JobId := ∅
  /-- The jobs that have been written to since. -/
  written : Set JobId := ∅

namespace QueueView

/-- The view after the answer to a call, but for the snapshots. -/
def next (v : QueueView) (l : Site) : (c : Call) → Except Exc c.Res → QueueView
  | .store .listNonterminal, .ok snapshots =>
    { v with scan := snapshots, current := true, refused := ∅, written := ∅ }
  | .store (.updateSnapshot s ..), _ =>
    { v with current := v.current && decide (l = .scanning), written := insert s.jobId v.written }
  | .store (.getDocument job), .ok document =>
    { v with documents := insert (job, document) v.documents }
  | .store (.acquirePorts job _), .ok none => { v with refused := insert job v.refused }
  | _, _ => v

/-- A job of the list has had its turn. -/
def Passed (v : QueueView) (job : JobId) : Prop :=
  job ∈ v.refused ∨ ∃ x ∈ v.known, x.jobId = job ∧ x.gone

/-- The rest of the list, after jobs that have had their turn. Nothing has been written to the jobs
in `todo`. -/
structure Turn (v : QueueView) (rest todo : List JobSnapshot) : Prop where
  current : v.current = true
  split : ∃ done, v.scan = done ++ rest ∧ ∀ s ∈ done, s.state = .waitingForPorts → v.Passed s.jobId
  known : ∀ s ∈ rest, s ∈ v.known
  nodup : (rest.map JobSnapshot.jobId).Nodup
  todo : ∀ s ∈ todo, s.jobId ∉ v.written

end QueueView

/-- The store methods that `_tick` may call. -/
def QueueCall (v : QueueView) (l : Site) : StoreCall → Prop
  | .acquirePorts job ports => l = .scanning ∧ (∃ document, (job, document) ∈ v.documents ∧
      ports = document.logicalPorts) ∧
    ∃ s rest, v.Turn (s :: rest) (s :: rest) ∧ s.jobId = job ∧ s.state = .waitingForPorts
  | .updateSnapshot s .. => l = .scanning → s.state ≠ .waitingForPorts
  | .confirmPortsAvailable _ => False
  | _ => True

/-- What `_tick` may call. -/
def QueueAllows (v : QueueView) (l : Site) : Call → Prop
  | .store c => WritesOver v.known c ∧ QueueCall v l c
  | _ => True

/-- What the answer to a call tells of the job it is about. -/
def Tells (v : QueueView) : (c : Call) → Except Exc c.Res → Known → Prop
  | .store (.getSnapshot job), .ok x, _ => ∀ a ∈ v.known, a.jobId = job → ReflTransGen Writes a x
  | .store (.updateSnapshot s expectedRevision _ _), .error _, known' =>
    ∀ a ∈ v.known, a.jobId = s.jobId → a.revision = expectedRevision →
      ∃ x ∈ known', TransGen Writes a x
  | .isActive job, .ok true, known' => ∃ x ∈ known', x.jobId = job ∧ x.gone
  | _, _, _ => True

def queueContract : Coroutine.Contract Site Call Call.Res Exc QueueView where
  pre v l c := (v.refused.Nonempty → l = .scanning) ∧ QueueAllows v l c
  post v l c r v' := logContract.post v.known l c r v'.known ∧
    v' = { v.next l c r with known := v'.known } ∧ (∀ e, r = .error e → c.Raises v.known e) ∧
    Tells v c r v'.known

section Queue

variable {v v' : QueueView} {l : Site} {s : JobSnapshot} {rest todo : List JobSnapshot}

namespace QueueView

theorem Passed.post {job : JobId} {c : Call} {r : Except Exc c.Res} (h : v.Passed job)
    (hr : queueContract.post v l c r v') (hlist : c ≠ .store .listNonterminal) : v'.Passed job := by
  obtain ⟨⟨hsub, -⟩, hv', -⟩ := hr
  refine h.imp (fun hmem => ?_) fun ⟨x, hx, hgone⟩ => ⟨x, hsub hx, hgone⟩
  rw [hv']
  unfold next
  split
  · exact absurd rfl hlist
  · exact hmem
  · exact hmem
  · exact Set.mem_insert_of_mem _ hmem
  · exact hmem

/-- A call of the second loop keeps what is known of its turns. -/
theorem Turn.post {c : Call} {r : Except Exc c.Res} (h : v.Turn rest todo)
    (hr : queueContract.post v .scanning c r v') (hlist : c ≠ .store .listNonterminal)
    (hwrite : ∀ y ∈ todo, c.writesTo ≠ some y.jobId) : v'.Turn rest todo := by
  obtain ⟨done, hsplit, hpassed⟩ := h.split
  have hkeep : (v.next .scanning c r).current = v.current ∧ (v.next .scanning c r).scan = v.scan ∧
      ∀ y ∈ todo, y.jobId ∉ (v.next .scanning c r).written := by
    unfold next
    split
    · exact absurd rfl hlist
    · rename_i x e t d _
      refine ⟨by simp, rfl, fun y hy => ?_⟩
      rintro (heq | hmem)
      · exact hwrite y hy (congrArg some heq.symm)
      · exact h.todo y hy hmem
    all_goals exact ⟨rfl, rfl, h.todo⟩
  refine ⟨?_, ⟨done, ?_, fun a ha hstate => (hpassed a ha hstate).post hr hlist⟩, fun a ha =>
    hr.1.1 (h.known a ha), h.nodup, ?_⟩
  · rw [hr.2.1]
    exact hkeep.1.trans h.current
  · rw [hr.2.1]
    exact hkeep.2.1.trans hsplit
  · rw [hr.2.1]
    exact hkeep.2.2

theorem Turn.read {c : Call} {r : Except Exc c.Res} (h : v.Turn rest todo)
    (hr : queueContract.post v .scanning c r v') (hlist : c ≠ .store .listNonterminal)
    (hwrite : c.writesTo = none) : v'.Turn rest todo :=
  h.post hr hlist fun _ _ heq => nomatch hwrite.symm.trans heq

/-- The next job may be written to. -/
theorem Turn.tail (h : v.Turn rest (s :: todo)) : v.Turn rest todo :=
  { h with todo := fun x hx => h.todo x (List.mem_cons_of_mem s hx) }

/-- The other jobs of the list are not the next one. -/
theorem Turn.ne (h : v.Turn (s :: rest) todo) : ∀ x ∈ rest, x.jobId ≠ s.jobId := by
  intro x hx heq
  have hnodup := h.nodup
  rw [List.map_cons, List.nodup_cons] at hnodup
  exact hnodup.1 (heq ▸ List.mem_map_of_mem hx)

/-- The next job has its turn. -/
theorem Turn.next_job (h : v.Turn (s :: rest) todo)
    (hpassed : s.state = .waitingForPorts → v.Passed s.jobId) : v.Turn rest todo := by
  obtain ⟨done, hsplit, hdone⟩ := h.split
  refine ⟨h.current, ⟨done ++ [s], by simp [hsplit], fun a ha hstate => ?_⟩,
    fun a ha => h.known a (List.mem_cons_of_mem s ha), (List.nodup_cons.mp h.nodup).2, h.todo⟩
  rcases List.mem_append.mp ha with ha | ha
  · exact hdone a ha hstate
  · obtain rfl := List.mem_singleton.mp ha
    exact hpassed hstate

end QueueView

/-- A round about a job that waits is at its end. -/
structure Served (s : JobSnapshot) (rest : List JobSnapshot) (v : QueueView) : Prop where
  turn : v.Turn (s :: rest) rest
  passed : v.Passed s.jobId

/-- A transition that only a waiting job admits: afterwards the job waits no more, or not without a
cancel request. -/
theorem transition_queue (site : CallSite) (hwaiting : s.state = .waitingForPorts)
    (hexpects : site.request.expectedStates = some [.waitingForPorts])
    (htarget : site.request.state.recoverable = false) (hlive : site.request.state ≠ .succeeded)
    (hv : v.Turn (s :: rest) rest) :
    (transition s.jobId site : Async Unit _).Ok queueContract .scanning ()
      (fun r _ v' => Ends (fun _ => Served s rest) (fun _ _ => True) r v') v := by
  have hpassed : ∀ {x : JobSnapshot} {v : QueueView}, x ∈ v.known → x.jobId = s.jobId → x.gone →
      v.Passed s.jobId := fun hx hjob hgone => .inr ⟨_, hx, hjob, hgone⟩
  refine (attemptTransition_ends (I := fun v => v.Turn (s :: rest) rest) (N := Served s rest)
    (K := fun x v => v.Turn (s :: rest) rest ∧ x ∈ v.known ∧ ReflTransGen Writes s x)
    (R := fun _ _ => True) ?_ ?_ ?_ ?_ 3 () hv (by simp)).mono ?_
  · refine fun v hv => ⟨⟨fun _ => rfl, trivial, trivial⟩, ?_⟩
    rintro (e | x) v' hr
    · trivial
    · exact ⟨hv.read hr (by simp) rfl, hr.1.2.1, hr.2.2.2 s (hv.known s List.mem_cons_self) rfl⟩
  · -- a snapshot that is refused does not wait
    rintro v x ⟨hv, hx, hchain⟩ hterm hadm
    have hstate : x.state ≠ .waitingForPorts := by
      intro hstate
      refine hadm ⟨hterm, ?_, fun h => hlive h.1⟩
      simp [TransitionRequest.expects, hexpects, hstate]
    rcases Relation.reflTransGen_iff_eq_or_transGen.mp hchain with rfl | hlater
    · exact absurd hwaiting hstate
    · exact ⟨hv, hpassed hx (Writes.jobId_of_chain hchain) (Writes.gone_of_later hlater hwaiting)⟩
  · rintro v x ⟨hv, hx, hchain⟩ hadm
    refine ⟨⟨fun _ => rfl, ⟨x, hx, rfl, site, hadm, rfl⟩, fun _ hstate => ?_⟩, ?_⟩
    · rw [show site.request.state = .waitingForPorts from hstate] at htarget
      cases htarget
    have hother : ∀ y ∈ rest, Call.writesTo (.store (site.request.write x)) ≠ some y.jobId := by
      intro y hy heq
      have hxs : x.jobId = s.jobId := Writes.jobId_of_chain hchain
      exact hv.ne y hy ((Option.some.inj heq).symm.trans hxs)
    rintro (e | u) v' hr
    · -- the race was lost to a later write
      obtain rfl : e = .revisionConflict := hr.2.2.1 e rfl
      obtain ⟨y, hy, hlater⟩ := hr.2.2.2 x hx rfl rfl
      have hturn := hv.post hr (by simp) hother
      have hsy : TransGen Writes s y := TransGen.trans_right hchain hlater
      exact ⟨hturn, hturn, hpassed hy (Writes.jobId_of_chain hsy.to_reflTransGen)
        (Writes.gone_of_later hsy hwaiting)⟩
    · exact ⟨hv.post hr (by simp) hother, hr.1.2,
        hchain.tail (.transition site hadm)⟩
  · rintro v x ⟨hv, hx, hchain⟩
    refine ⟨⟨fun _ => rfl, trivial⟩, ?_⟩
    rintro (e | u) v' hr
    · exact (hr.2.2.1 e rfl).elim
    · exact ⟨hv.read hr (by simp) rfl, hr.1.1 hx, hchain⟩
  · rintro (e | _ | x) _ v' h
    · trivial
    · exact h
    · obtain ⟨⟨hturn, hx, hchain⟩, hstate⟩ := h
      refine ⟨hturn, hpassed hx (Writes.jobId_of_chain hchain) (.inl ?_)⟩
      obtain hterm | hstate := hstate
      · revert hterm
        cases x.state <;> decide
      · rw [hstate]
        exact htarget

theorem failWaiting_queue (problem : Problem) (hwaiting : s.state = .waitingForPorts)
    (hv : v.Turn (s :: rest) rest) :
    (fail s.jobId problem (some [.waitingForPorts]) : Async Unit _).Ok queueContract .scanning ()
      (fun r _ v' => Ends (fun _ => Served s rest) (fun _ _ => True) r v') v := by
  refine Coroutine.Py.Ok.call_bind ?_ ?_ ?_
  · exact ⟨fun _ => rfl, trivial⟩
  · exact fun _ _ _ => trivial
  · exact fun now v₁ hr => transition_queue _ hwaiting rfl rfl nofun (hv.read hr nofun rfl)

/-- A call of the second loop that writes to no log. -/
theorem scanning_call {c : Call} (hc : ∀ v l, QueueAllows v l c) (hlist : c ≠ .store .listNonterminal)
    (hwrite : c.writesTo = none) (hv : v.Turn rest todo) :
    (Async.call c : Async Unit c.Res).Ok queueContract .scanning () (fun _ _ v' => v'.Turn rest todo)
      v :=
  ⟨⟨fun _ => rfl, hc v .scanning⟩, fun _ _ hr => hv.read hr hlist hwrite⟩

theorem startGranted_queue (fence : Fence) (hwaiting : s.state = .waitingForPorts)
    (hv : v.Turn (s :: rest) rest) :
    (startGranted s fence).Ok queueContract .scanning ()
      (fun r _ v' => Ends (fun _ => fun v => v.Turn rest rest) (fun _ _ => True) r v') v := by
  refine (transition_queue (.portsAcquired fence) hwaiting rfl rfl nofun hv).bind
    (fun _ _ _ _ => trivial) fun prepared _ v₁ hv₁ => ?_
  have hturn := hv₁.turn.next_job fun _ => hv₁.passed
  have hends : ∀ {r : Except Exc Unit} {v : QueueView}, v.Turn rest rest →
      Ends (fun _ => fun v => v.Turn rest rest) (fun _ _ => True) r v := by
    rintro (e | u) v h
    · trivial
    · exact h
  split
  · exact (scanning_call (c := .store (.releasePorts s.jobId false))
      (fun _ _ => ⟨trivial, trivial⟩) nofun rfl hturn).mono fun _ _ _ => hends
  · exact (scanning_call (c := .spawn s.jobId (.execute fence)) (fun _ _ => trivial) nofun rfl
      hturn).mono fun _ _ _ => hends

theorem acquireFor_queue {document : JobDocument} (hwaiting : s.state = .waitingForPorts)
    (hdocument : (s.jobId, document) ∈ v.documents) (hv : v.Turn (s :: rest) (s :: rest)) :
    (acquireFor s document).Ok queueContract .scanning ()
      (fun r _ v' => Ends (fun fence v => v.Turn (s :: rest) rest ∧ (fence = none → v.Passed s.jobId))
        (fun _ _ => True) r v') v := by
  refine (Coroutine.Py.ok_tryExcept_call _ _).mpr
    ⟨⟨fun _ => rfl, trivial, rfl, ⟨document, hdocument, rfl⟩, s, rest, hv, rfl, hwaiting⟩, ?_⟩
  rintro (e | fence) v₁ hr
  · simp only [Coroutine.Py.handled_error]
    split
    · rw [hwaiting]
      refine (failWaiting_queue _ hwaiting (hv.read hr (by simp) rfl).tail).bind
        (fun _ _ _ _ => trivial) fun failed _ v₂ hv₂ => ?_
      exact ⟨hv₂.turn, fun _ => hv₂.passed⟩
    · trivial
  · refine ⟨(hv.read hr (by simp) rfl).tail, ?_⟩
    rintro rfl
    rw [hr.2.1]
    exact .inl (Set.mem_insert _ _)

/-- A round of the second loop gives a job its turn. -/
theorem secondPass_queue (hv : v.Turn (s :: rest) (s :: rest)) :
    (secondPass s).Ok queueContract .scanning ()
      (fun r _ v' => Ends (fun _ => fun v => v.Turn rest rest) (fun _ _ => True) r v') v := by
  refine Coroutine.Py.Ok.call_bind ?_ ?_ ?_
  · exact ⟨fun _ => rfl, trivial⟩
  · exact fun _ _ _ => trivial
  intro active v₁ hr₁
  have hv₁ := hv.read hr₁ nofun rfl
  split_ifs with hskip hcancel
  · refine hv₁.tail.next_job fun hwaiting => ?_
    rcases hskip with rfl | hstate
    · exact .inr hr₁.2.2.2
    · exact absurd hwaiting hstate
  · have hpassed : v₁.Passed s.jobId := .inr ⟨s, hv₁.known s List.mem_cons_self, rfl, .inr hcancel⟩
    refine (scanning_call (c := .spawn s.jobId .finishCancel) (fun _ _ => trivial) nofun
      rfl (hv₁.tail.next_job fun _ => hpassed)).mono ?_
    rintro (e | u) _ v₂ hv₂
    · trivial
    · exact hv₂
  · have hwaiting : s.state = .waitingForPorts := not_not.mp (not_or.mp hskip).2
    refine Coroutine.Py.Ok.call_bind ?_ ?_ ?_
    · exact ⟨fun _ => rfl, trivial, trivial⟩
    · exact fun _ _ _ => trivial
    intro document v₂ hr₂
    have hv₂ := hv₁.read hr₂ nofun rfl
    have hdocument₂ : (s.jobId, document) ∈ v₂.documents := by
      rw [hr₂.2.1]
      exact Set.mem_insert _ _
    refine Coroutine.Py.Ok.call_bind ?_ ?_ ?_
    · exact ⟨fun _ => rfl, trivial⟩
    · exact fun _ _ _ => trivial
    intro now v₃ hr₃
    have hv₃ := hv₂.read hr₃ nofun rfl
    have hdocument₃ : (s.jobId, document) ∈ v₃.documents := by
      rw [hr₃.2.1]
      exact hdocument₂
    split_ifs
    · refine (failWaiting_queue _ hwaiting hv₃.tail).bind (fun _ _ _ _ => trivial) fun _ _ v₄ hv₄ => ?_
      exact hv₄.turn.next_job fun _ => hv₄.passed
    · refine (acquireFor_queue hwaiting hdocument₃ hv₃).bind (fun _ _ _ _ => trivial)
        fun fence _ v₄ hv₄ => ?_
      cases fence with
      | none => exact hv₄.1.next_job fun _ => hv₄.2 rfl
      | some fence => exact startGranted_queue fence hwaiting hv₄.1

theorem scanWaiting_queue (config : AgentConfig) {snapshots : List JobSnapshot}
    (hv : v.Turn snapshots snapshots) :
    (scanWaiting config snapshots).Ok queueContract .scanning () (fun _ _ _ => True) v := by
  induction snapshots generalizing v with
  | nil => trivial
  | cons s rest ih =>
    refine Coroutine.Py.Ok.call_bind ?_ ?_ ?_
    · exact ⟨fun _ => rfl, trivial⟩
    · exact fun _ _ _ => trivial
    intro active v₁ hr₁
    split_ifs
    · trivial
    · exact (secondPass_queue (hv.read hr₁ nofun rfl)).bind (fun _ _ _ _ => trivial)
        fun _ _ v₂ hv₂ => ih hv₂

/-! ### The first loop -/

/-- Before the second loop, no job has been refused. -/
def Unrefused (l : Site) (v : QueueView) : Prop := l ≠ .scanning ∧ v.refused = ∅

theorem Unrefused.post {c : Call} {r : Except Exc c.Res} (h : Unrefused l v)
    (hr : queueContract.post v l c r v') (hacquire : ∀ job ports, c ≠ .store (.acquirePorts job ports)) :
    Unrefused l v' := by
  refine ⟨h.1, ?_⟩
  rw [hr.2.1]
  show (v.next l c r).refused = ∅
  unfold QueueView.next
  split
  · rfl
  · exact h.2
  · exact h.2
  · exact absurd rfl (hacquire _ _)
  · exact h.2

theorem Unrefused.nonempty (h : Unrefused l v) : v.refused.Nonempty → l = .scanning := by
  rw [h.2]
  exact fun hne => absurd hne Set.not_nonempty_empty

theorem permits_queue {job : JobId} : Permits queueContract Unrefused job fun _ => True where
  transition site _ := by
    intro l s v hv
    refine (attemptTransition_ok (I := Unrefused l) (K := fun x v => x ∈ v.known)
      ?_ ?_ ?_ s hv).mono fun _ _ _ h => h.1
    · refine fun v hv => ⟨⟨hv.nonempty, trivial, trivial⟩, fun r v' hr => ⟨hv.post hr nofun, ?_⟩⟩
      rintro x rfl
      exact hr.1.2.1
    · refine fun v x hv hx hadm => ⟨⟨hv.nonempty, ⟨x, hx, rfl, site, hadm, rfl⟩, fun hl => absurd hl hv.1⟩,
        fun r v' hr => ⟨hv.post hr nofun, ?_⟩⟩
      rintro rfl
      exact hr.1.2
    · exact fun v hv => ⟨⟨hv.nonempty, trivial⟩, fun r v' hr => ⟨hv.post hr nofun, fun x hx => hr.1.1 hx⟩⟩
  neutral l c v hc hv := by
    have hacquire : ∀ job ports, c ≠ .store (.acquirePorts job ports) := by
      rintro job ports rfl
      exact hc
    refine ⟨⟨hv.nonempty, ?_⟩, fun r v' hr => hv.post hr hacquire⟩
    cases c with
    | store c =>
      cases c with
      | getSnapshot | getDocument => exact ⟨trivial, trivial⟩
      | _ => exact hc.elim
    | _ => trivial

/-- A call of the tick before the second loop. -/
theorem unrefused_call {σ : Type} (c : Call) (hc : ∀ v l, QueueAllows v l c)
    (hacquire : ∀ job ports, c ≠ .store (.acquirePorts job ports)) :
    (Async.call c : Async σ c.Res).Safe queueContract Unrefused :=
  safe_call c fun l v hv => ⟨⟨hv.nonempty, hc v l⟩, fun _ _ hr => hv.post hr hacquire⟩

theorem firstPass_queue (config : AgentConfig) (snapshot : JobSnapshot) :
    (firstPass config snapshot).Safe queueContract Unrefused := by
  have h : Permits queueContract Unrefused snapshot.jobId fun _ => True := permits_queue
  refine (unrefused_call (.isActive _) (fun _ _ => trivial) (by simp)).bind fun active => ?_
  split
  · exact safe_pure ()
  split
  · exact unrefused_call (.spawn _ .finishCancel) (fun _ _ => trivial) (by simp)
  refine h.getDocument.bind fun document => h.now.bind fun now => ?_
  split
  · have hfail : (fail snapshot.jobId jobTimeoutProblem >>= fun _ =>
        Async.store (.releasePorts snapshot.jobId false) : Async Unit Unit).Safe queueContract Unrefused :=
      (h.fail (fun _ _ => trivial) _ _).bind fun _ =>
        unrefused_call (.store (.releasePorts _ _)) (fun _ _ => ⟨trivial, trivial⟩) (by simp)
    intro l s v hv
    exact (Coroutine.Py.ok_region _ _).mpr ((hfail .timedOut s v ⟨by simp, hv.2⟩).mono
      fun _ _ _ hv' => ⟨hv.1, hv'.2⟩)
  · exact (h.validateJob (fun _ _ => trivial) config).when _

/-- A tick keeps to its contract. -/
theorem tick_queue (config : AgentConfig) :
    (tick config).Ok queueContract .body () (fun _ _ _ => True) {} := by
  have hbody : Unrefused .body {} := ⟨nofun, rfl⟩
  refine (unrefused_call .dropDone (fun _ _ => trivial) nofun .body () _ hbody).bind
    (fun _ _ _ _ => trivial) fun _ s₁ v₁ hv₁ => ?_
  refine (unrefused_call (.store .listNonterminal) (fun _ _ => ⟨trivial, trivial⟩) nofun .body s₁ v₁
    hv₁).bind (fun _ _ _ _ => trivial) fun snapshots s₂ v₂ hv₂ => ?_
  refine (Coroutine.Py.Safe.forEach (fun snapshot _ => firstPass_queue config snapshot) .body s₂ v₂
    hv₂).bind (fun _ _ _ _ => trivial) fun _ s₃ v₃ hv₃ => ?_
  refine (unrefused_call .activeCount (fun _ _ => trivial) nofun .body s₃ v₃ hv₃).bind
    (fun _ _ _ _ => trivial) fun active s₄ v₄ hv₄ => ?_
  split_ifs
  · trivial
  · refine Coroutine.Py.Ok.call_bind ?_ ?_ ?_
    · exact ⟨hv₄.nonempty, trivial, trivial⟩
    · exact fun _ _ _ => trivial
    intro snapshots v₅ hr₅
    have hturn : v₅.Turn snapshots snapshots := by
      refine ⟨?_, ⟨[], ?_, fun _ ha => nomatch ha⟩, fun s hs => (hr₅.1.2.2 s hs).1, hr₅.1.2.1, ?_⟩
      · rw [hr₅.2.1]
        rfl
      · rw [hr₅.2.1]
        rfl
      · rw [hr₅.2.1]
        exact fun _ _ => Set.notMem_empty _
    exact (Coroutine.Py.ok_region _ _).mpr (scanWaiting_queue config hturn)

end Queue

end TrexCli
