import TrexCli.Jobs.TaskContract

/-!
# What `_tick` calls

`tickContract` holds of every tick. A tick releases, grants and starts only jobs without an active
task; it starts an execution only of a job that it has found untouched and has just been granted its
ports; and what it fails with `JOB_TIMEOUT` it also releases. Nothing interrupts a tick, so it ends
early only with an exception of a call.

A round of either loop is about one job: `Round` is what holds between the calls of a round, and
`RoundOver` what a round leaves to the rounds after it.
-/

namespace TrexCli

open Coroutine.Py (safe_call safe_pure safe_raise ok_bind ok_tryExcept Ends)

/-- The states of a job up to the start of its task. -/
def JobState.early : JobState → Bool
  | preparing => true
  | state => state.recoverable

/-- What `_tick` knows. -/
structure TickView where
  known : Known := ∅
  /-- Jobs that are not in `self._active`. -/
  inactive : Set JobId := ∅
  /-- Jobs that this tick has listed. -/
  listed : Set JobId := ∅
  /-- Jobs of which no execution has begun, unless they have been started since. -/
  untouched : Set JobId := ∅
  /-- The job that holds the ports of the fence, for the scheduler to start it. -/
  granted : Option (JobId × Fence) := none
  /-- The job whose ports are to be released. -/
  owing : Option JobId := none

namespace TickView

/-- The view after a transition of a job. -/
def wrote (v : TickView) (l : Site) (s : JobSnapshot) : TickView :=
  { v with
    untouched := if s.state.early then v.untouched else v.untouched \ {s.jobId}
    granted := if s.state.early then v.granted else none
    owing := if l = .timedOut then some s.jobId else v.owing }

/-- The view after the answer to a call, but for the snapshots. -/
def next (v : TickView) (l : Site) : (c : Call) → Except Exc c.Res → TickView
  | .isActive job, .ok false => { v with inactive := insert job v.inactive }
  | .spawn job _, _ => { v with inactive := v.inactive \ {job} }
  | .dropDone, _ => { v with listed := ∅, untouched := ∅, granted := none }
  | .store .listNonterminal, .ok snapshots =>
    { v with
      listed := v.listed ∪ {j | ∃ s ∈ snapshots, s.jobId = j}
      untouched := v.untouched ∪
        {j | ∃ s ∈ snapshots, s.jobId = j ∧ s.cancelRequested = false ∧
          s.state.recoverable = true} }
  | .store (.updateSnapshot s ..), _ => v.wrote l s
  | .store (.acquirePorts job _), .ok (some fence) => { v with granted := some (job, fence) }
  | .store (.releasePorts ..), _ => { v with granted := none, owing := none }
  | _, _ => v

end TickView

/-- The scheduler has seen why the task is to be started. -/
def Justified (known : Known) (job : JobId) : TaskKind → Prop
  | .execute _ => ∃ s ∈ known, s.jobId = job ∧ s.state.recoverable = false
  | .finishCancel => ∃ s ∈ known, s.jobId = job ∧ s.cancelRequested = true
  | .reportProgress .. => False

/-- The store methods that `_tick` may call. -/
def TickCall (v : TickView) : StoreCall → Prop
  | .getSnapshot _ | .getDocument _ | .listNonterminal => True
  | .updateSnapshot s .. => s.jobId ∈ v.inactive ∧ (v.owing = none ∨ v.owing = some s.jobId)
  | .acquirePorts job _ => job ∈ v.inactive ∧ job ∈ v.listed ∧ job ∈ v.untouched
  | .releasePorts job quarantine => job ∈ v.inactive ∧ job ∈ v.listed ∧ quarantine = false ∧
    (v.owing = none ∨ v.owing = some job)
  | _ => False

def tickContract : Coroutine.Contract Site Call Call.Res Exc TickView where
  pre v _
    | .store c => WritesOver v.known c ∧ TickCall v c
    | .spawn job kind => job ∈ v.inactive ∧ job ∈ v.listed ∧ v.owing = none ∧
      Justified v.known job kind ∧ ∀ fence, kind = .execute fence → job ∈ v.untouched ∧ v.granted = some (job, fence)
    | _ => True
  post v l c r v' := logContract.post v.known l c r v'.known ∧
    v' = { v.next l c r with known := v'.known } ∧ ∀ e, r = .error e → c.Raises v.known e

section Tick

variable {v₀ v v' : TickView} {job : JobId} {l : Site} {σ : Type}

namespace TickView

theorem mem_inactive_next {c : Call} (r : Except Exc c.Res) {j : JobId}
    (hc : ∀ kind, c ≠ .spawn j kind) (hj : j ∈ v.inactive) : j ∈ (v.next l c r).inactive := by
  unfold next
  split
  · exact Set.mem_insert_of_mem _ hj
  · rename_i job kind _
    refine ⟨hj, fun heq => hc kind ?_⟩
    rw [Set.mem_singleton_iff.mp heq]
  all_goals exact hj

theorem listed_next {c : Call} (r : Except Exc c.Res) (hlist : c ≠ .store .listNonterminal)
    (hdrop : c ≠ .dropDone) : (v.next l c r).listed = v.listed := by
  unfold next
  split
  · rfl
  · rfl
  · exact absurd rfl hdrop
  · exact absurd rfl hlist
  all_goals rfl

theorem next_owing {c : Call} (r : Except Exc c.Res)
    (hupdate : ∀ s e t d, c ≠ .store (.updateSnapshot s e t d))
    (hrelease : ∀ j quarantine, c ≠ .store (.releasePorts j quarantine)) :
    (v.next l c r).owing = v.owing := by
  unfold next
  split
  · rfl
  · rfl
  · rfl
  · rfl
  · exact absurd rfl (hupdate _ _ _ _)
  · rfl
  · exact absurd rfl (hrelease _ _)
  · rfl

/-- The calls of a round about `job`, which leave what is known of every other job. -/
def About (job : JobId) : Call → Prop
  | .dropDone => False
  | .store (.updateSnapshot s ..) => s.jobId = job
  | _ => True

theorem mem_untouched_next {c : Call} (r : Except Exc c.Res) {j : JobId} (hc : About job c)
    (hne : j ≠ job) (hj : j ∈ v.untouched) : j ∈ (v.next l c r).untouched := by
  unfold next
  split
  · exact hj
  · exact hj
  · exact hc.elim
  · exact .inl hj
  · unfold wrote
    dsimp only
    split
    · exact hj
    · refine ⟨hj, fun heq => hne ?_⟩
      rw [Set.mem_singleton_iff.mp heq]
      exact hc
  all_goals exact hj

theorem mem_listed_next {c : Call} (r : Except Exc c.Res) {j : JobId} (hc : About job c)
    (hj : j ∈ v.listed) : j ∈ (v.next l c r).listed := by
  unfold next
  split
  · exact hj
  · exact hj
  · exact hc.elim
  · exact .inl hj
  all_goals exact hj

theorem owing_next {c : Call} (r : Except Exc c.Res) (hc : About job c)
    (h : v.owing = none ∨ l = .timedOut ∧ v.owing = some job) :
    (v.next l c r).owing = none ∨ l = .timedOut ∧ (v.next l c r).owing = some job := by
  unfold next
  split
  · exact h
  · exact h
  · exact hc.elim
  · exact h
  · unfold wrote
    dsimp only
    split
    · rename_i hl
      exact .inr ⟨hl, congrArg some hc⟩
    · exact h
  · exact h
  · exact .inl rfl
  · exact h

end TickView

open TickView (About)

/-- The view has only grown, but for one job. -/
structure Grown (v₀ : TickView) (job : JobId) (v : TickView) : Prop where
  known : v₀.known ⊆ v.known
  listed : v₀.listed ⊆ v.listed
  untouched : ∀ j, j ≠ job → j ∈ v₀.untouched → j ∈ v.untouched

theorem Grown.refl (v : TickView) (job : JobId) : Grown v job v :=
  ⟨subset_rfl, subset_rfl, fun _ _ h => h⟩

theorem Grown.post {c : Call} {r : Except Exc c.Res} (h : Grown v₀ job v)
    (hr : tickContract.post v l c r v') (hc : About job c) : Grown v₀ job v' := by
  obtain ⟨⟨hsub, -⟩, hv', -⟩ := hr
  refine ⟨h.known.trans hsub, fun j hj => ?_, fun j hne hj => ?_⟩
  · rw [hv']
    exact TickView.mem_listed_next r hc (h.listed hj)
  · rw [hv']
    exact TickView.mem_untouched_next r hc hne (h.untouched j hne hj)

/-- After a round the view has grown, but for its job, and no release is owed. -/
structure RoundOver (v₀ : TickView) (job : JobId) (v : TickView) : Prop where
  grown : Grown v₀ job v
  owing : v.owing = none

/-- What holds between the calls of a round of `_tick` about a job without an active task. -/
structure Round (v₀ : TickView) (job : JobId) (l : Site) (v : TickView) : Prop where
  grown : Grown v₀ job v
  known : ∃ s ∈ v.known, s.jobId = job
  inactive : job ∈ v.inactive
  listed : job ∈ v.listed
  owing : v.owing = none ∨ l = .timedOut ∧ v.owing = some job

theorem Round.owed (h : Round v₀ job l v) : v.owing = none ∨ v.owing = some job :=
  h.owing.imp_right And.right

theorem Round.over (h : Round v₀ job l v) (hl : l ≠ .timedOut) : RoundOver v₀ job v :=
  ⟨h.grown, h.owing.resolve_right fun h => hl h.1⟩

theorem Round.post {c : Call} {r : Except Exc c.Res} (h : Round v₀ job l v)
    (hr : tickContract.post v l c r v') (hc : About job c) (hspawn : ∀ kind, c ≠ .spawn job kind) :
    Round v₀ job l v' := by
  obtain ⟨x, hx, hjob⟩ := h.known
  refine ⟨h.grown.post hr hc, ⟨x, hr.1.1 hx, hjob⟩, ?_, ?_, ?_⟩ <;> rw [hr.2.1]
  · exact TickView.mem_inactive_next r hspawn h.inactive
  · exact TickView.mem_listed_next r hc h.listed
  · exact TickView.owing_next r hc h.owing

/-- A write of `_transition` is permitted in a round about its job. -/
theorem Round.write {req : TransitionRequest} {site : CallSite} {x : JobSnapshot}
    (h : Round v₀ job l v) (hx : x ∈ v.known ∧ x.jobId = job) (hreq : req = site.request)
    (hadm : req.Admits x) : tickContract.pre v l (.store (req.write x)) := by
  subst hreq
  have hjob : (site.request.apply x).jobId = job := hx.2
  refine ⟨⟨x, hx.1, rfl, site, hadm, rfl⟩, ?_, ?_⟩
  · rw [hjob]
    exact h.inactive
  · rw [hjob]
    exact h.owed

theorem transition_tick (site : CallSite) :
    (transition job site : Async σ _).Safe tickContract (Round v₀ job) := by
  intro l s v hv
  refine (attemptTransition_ok (I := Round v₀ job l) (K := fun x v => x ∈ v.known ∧ x.jobId = job)
    ?_ ?_ ?_ s hv).mono fun _ _ _ h => h.1
  · refine fun v hv => ⟨⟨trivial, trivial⟩, fun r v' hr => ⟨hv.post hr trivial nofun, ?_⟩⟩
    rintro x rfl
    exact hr.1.2
  · refine fun v x hv hx hadm => ⟨hv.write hx rfl hadm, fun r v' hr => ⟨hv.post hr hx.2 nofun, ?_⟩⟩
    rintro rfl
    exact ⟨hr.1.2, hx.2⟩
  · refine fun v hv => ⟨trivial, fun r v' hr => ⟨hv.post hr trivial nofun, ?_⟩⟩
    exact fun x hx => ⟨hr.1.1 hx.1, hx.2⟩

theorem permits_tick : Permits tickContract (Round v₀ job) job fun _ => True where
  transition site _ := transition_tick site
  neutral l c v hc hv := by
    refine ⟨?_, fun r v' hr => hv.post hr ?_ ?_⟩
    · cases c with
      | store c =>
        cases c with
        | getSnapshot j | getDocument j => exact ⟨trivial, trivial⟩
        | _ => exact hc.elim
      | spawn => exact hc.elim
      | _ => trivial
    · cases c with
      | store c =>
        cases c with
        | updateSnapshot => exact hc.elim
        | _ => trivial
      | dropDone => exact hc.elim
      | _ => trivial
    · rintro kind rfl
      exact hc

theorem release_tick {s : σ} (hv : Round v₀ job l v) :
    (Async.store (.releasePorts job false) : Async σ Unit).Ok tickContract l s
      (fun _ _ v' => RoundOver v₀ job v') v := by
  refine ⟨⟨trivial, hv.inactive, hv.listed, rfl, hv.owed⟩, fun r v' hr => ?_⟩
  refine ⟨hv.grown.post hr trivial, ?_⟩
  rw [hr.2.1]
  rfl

/-- No exception escapes from `_fail` in a round about the job. -/
theorem failTimedOut_tick {s : σ} (hv : Round v₀ job .timedOut v) :
    (fail job jobTimeoutProblem : Async σ _).Ok tickContract .timedOut s
      (fun r _ v' => Ends (fun _ => Round v₀ job .timedOut) (fun _ _ => False) r v') v := by
  refine Coroutine.Py.Ok.call_bind ?_ ?_ ?_
  · exact trivial
  · exact fun e v₁ hr₁ => hr₁.2.2 e rfl
  intro now v₁ hr₁
  refine (attemptTransition_ends (I := Round v₀ job .timedOut) (N := Round v₀ job .timedOut)
    (K := fun x v => Round v₀ job .timedOut v ∧ x ∈ v.known ∧ x.jobId = job) (R := fun _ _ => False)
    ?_ (fun _ _ h _ _ => h.1) ?_ ?_ 3 s (hv.post hr₁ trivial nofun) nofun).mono ?_
  · refine fun v hv => ⟨⟨trivial, trivial⟩, ?_⟩
    rintro (e | x) v' hr
    · obtain ⟨x, hx, hjob⟩ := hv.known
      exact hr.2.2 e rfl x hx hjob
    · exact ⟨hv.post hr trivial nofun, hr.1.2⟩
  · refine fun v x hx hadm => ⟨hx.1.write hx.2 rfl hadm, ?_⟩
    rintro (e | u) v' hr
    · obtain rfl : e = .revisionConflict := hr.2.2 e rfl
      have hv' := hx.1.post hr hx.2.2 nofun
      exact ⟨hv', hv'⟩
    · exact ⟨hx.1.post hr hx.2.2 nofun, hr.1.2, hx.2.2⟩
  · refine fun v x hx => ⟨trivial, ?_⟩
    rintro (e | u) v' hr
    · exact (hr.2.2 e rfl).elim
    · exact ⟨hx.1.post hr trivial nofun, hr.1.1 hx.2.1, hx.2.2⟩
  · rintro (e | _ | x) s' v' h
    · exact h
    · exact h
    · exact h.1.1

/-- Starting the cancellation of a job seen to have a cancel request. -/
theorem spawn_finishCancel_tick {s : JobSnapshot} (hs : s ∈ v₀.known)
    (hcancel : s.cancelRequested = true) (hl : l ≠ .timedOut) (hv : Round v₀ s.jobId l v) :
    (Async.call (.spawn s.jobId .finishCancel) : Async Unit Unit).Ok tickContract l ()
      (fun _ _ v' => RoundOver v₀ s.jobId v') v := by
  have hover := hv.over hl
  refine ⟨⟨hv.inactive, hv.listed, hover.owing, ⟨s, hv.grown.known hs, rfl, hcancel⟩, nofun⟩,
    fun r v' hr => ⟨hv.grown.post hr trivial, ?_⟩⟩
  rw [hr.2.1]
  exact hover.owing

/-- What the list of a loop tells of a job. -/
structure Seen (s : JobSnapshot) (v : TickView) : Prop where
  known : s ∈ v.known
  listed : s.jobId ∈ v.listed
  owing : v.owing = none

/-- `job_id in self._active`: the job is active, or the round is about a job without a task. -/
theorem isActive_tick {s : JobSnapshot} {active : Bool} (hs : Seen s v)
    (hr : tickContract.post v l (.isActive s.jobId) (.ok active) v') :
    RoundOver v s.jobId v' ∧ (active = false → Round v s.jobId l v') := by
  have hgrown := (Grown.refl v s.jobId).post hr trivial
  have howing : v'.owing = none := by
    rw [hr.2.1]
    cases active <;> exact hs.owing
  refine ⟨⟨hgrown, howing⟩, ?_⟩
  rintro rfl
  refine ⟨hgrown, ⟨s, hgrown.known hs.known, rfl⟩, ?_, hgrown.listed hs.listed, .inl howing⟩
  rw [hr.2.1]
  exact Set.mem_insert _ _

theorem firstPass_tick (config : AgentConfig) {s : JobSnapshot} (hs : Seen s v₀)
    (hl : l ≠ .timedOut) :
    (firstPass config s).Ok tickContract l () (fun _ _ v' => RoundOver v₀ s.jobId v') v₀ := by
  have h : Permits tickContract (Round v₀ s.jobId) s.jobId fun _ => True := permits_tick
  refine Coroutine.Py.Ok.call_bind ?_ ?_ ?_
  · exact trivial
  · exact fun e v hr => (hr.2.2 e rfl).elim
  intro active v hr
  obtain ⟨hover, hround⟩ := isActive_tick hs hr
  cases active with
  | true => exact hover
  | false =>
    have hv := hround rfl
    simp only [Bool.false_eq_true, if_false]
    split_ifs with hcancel
    · exact spawn_finishCancel_tick hs.known hcancel hl hv
    · refine (h.getDocument l () v hv).bind (fun _ _ _ hv => hv.over hl) fun document _ v₁ hv₁ => ?_
      refine (h.now l () v₁ hv₁).bind (fun _ _ _ hv => hv.over hl) fun now _ v₂ hv₂ => ?_
      split_ifs
      · have htimed : Round v₀ s.jobId .timedOut v₂ :=
          ⟨hv₂.grown, hv₂.known, hv₂.inactive, hv₂.listed, .inl (hv₂.over hl).owing⟩
        refine (Coroutine.Py.ok_region _ _).mpr ((failTimedOut_tick htimed).bind
          (fun _ _ _ h => h.elim) fun _ _ v₃ hv₃ => release_tick hv₃)
      · exact ((h.validateJob (fun _ _ => trivial) config).when _ l () v₂ hv₂).mono fun _ _ _ hv => hv.over hl

/-- The job has been granted its ports and is about to be started. -/
structure Granted (v₀ : TickView) (job : JobId) (fence : Fence) (l : Site) (v : TickView) :
    Prop where
  round : Round v₀ job l v
  untouched : job ∈ v.untouched
  granted : v.granted = some (job, fence)

theorem startGranted_tick {s : JobSnapshot} {fence : Fence} (hl : l ≠ .timedOut)
    (hv : Granted v₀ s.jobId fence l v) :
    (startGranted s fence).Ok tickContract l () (fun _ _ v' => RoundOver v₀ s.jobId v') v := by
  refine (ok_bind _ _).mpr ((attemptTransition_ok (I := Granted v₀ s.jobId fence l)
    (K := fun x v => x ∈ v.known ∧ x.jobId = s.jobId) ?_ ?_ ?_ () hv).mono ?_)
  · refine fun v hv => ⟨⟨trivial, trivial⟩, fun r v' hr => ?_⟩
    refine ⟨⟨hv.round.post hr trivial nofun, by rw [hr.2.1]; exact hv.untouched,
      by rw [hr.2.1]; exact hv.granted⟩, ?_⟩
    rintro x rfl
    exact hr.1.2
  · refine fun v x hv hx hadm => ⟨hv.round.write hx rfl hadm, fun r v' hr => ?_⟩
    refine ⟨⟨hv.round.post hr hx.2 nofun, by rw [hr.2.1]; exact hv.untouched,
      by rw [hr.2.1]; exact hv.granted⟩, ?_⟩
    rintro rfl
    exact ⟨hr.1.2, hx.2⟩
  · refine fun v hv => ⟨trivial, fun r v' hr => ?_⟩
    refine ⟨⟨hv.round.post hr trivial nofun, by rw [hr.2.1]; exact hv.untouched,
      by rw [hr.2.1]; exact hv.granted⟩, ?_⟩
    exact fun x hx => ⟨hr.1.1 hx.1, hx.2⟩
  · rintro (e | prepared) _ v' ⟨hv', hprepared⟩
    · exact hv'.round.over hl
    · simp only [Coroutine.Py.then_ok]
      cases prepared with
      | none => exact release_tick hv'.round
      | some x =>
        obtain ⟨⟨hx, hjob⟩, hstate⟩ := hprepared x rfl
        have hran : x.state.recoverable = false := by
          obtain hterm | hstate := hstate
          · revert hterm
            cases x.state <;> decide
          · rw [hstate]
            rfl
        have hover := hv'.round.over hl
        refine ⟨⟨hv'.round.inactive, hv'.round.listed, hover.owing, ⟨x, hx, hjob, hran⟩, ?_⟩,
          fun r v'' hr => ?_⟩
        · rintro fence' hkind
          cases hkind
          exact ⟨hv'.untouched, hv'.granted⟩
        · refine ⟨hv'.round.grown.post hr trivial, ?_⟩
          rw [hr.2.1]
          exact hover.owing

theorem acquireFor_tick {s : JobSnapshot} {document : JobDocument} (hv : Round v₀ s.jobId l v)
    (huntouched : s.jobId ∈ v.untouched) :
    (acquireFor s document).Ok tickContract l () (fun r _ v' => Round v₀ s.jobId l v' ∧
      ∀ fence, r = .ok (some fence) → Granted v₀ s.jobId fence l v') v := by
  have h : Permits tickContract (Round v₀ s.jobId) s.jobId fun _ => True := permits_tick
  refine (Coroutine.Py.ok_tryExcept_call _ _).mpr ⟨⟨trivial, hv.inactive, hv.listed, huntouched⟩, ?_⟩
  rintro (e | fence) v₁ hr
  · have hv₁ := hv.post hr trivial nofun
    simp only [Coroutine.Py.handled_error]
    split
    · exact (h.fail (fun _ _ => trivial) _ _ l () v₁ hv₁).bind (fun _ _ _ hv₂ => ⟨hv₂, by simp⟩)
        fun failed _ v₂ hv₂ => ⟨hv₂, by simp⟩
    · exact ⟨hv₁, by simp⟩
  · have hv₁ := hv.post hr trivial nofun
    refine ⟨hv₁, fun fence' hfence => ?_⟩
    obtain rfl : fence = some fence' := Except.ok.inj hfence
    refine ⟨hv₁, ?_, ?_⟩
    · rw [hr.2.1]
      exact huntouched
    · rw [hr.2.1]
      rfl

theorem secondPass_tick {s : JobSnapshot} (hl : l ≠ .timedOut) (hs : Seen s v₀)
    (huntouched : s.cancelRequested = false → s.state.recoverable = true →
      s.jobId ∈ v₀.untouched) :
    (secondPass s).Ok tickContract l () (fun _ _ v' => RoundOver v₀ s.jobId v') v₀ := by
  have h : Permits tickContract (Round v₀ s.jobId) s.jobId fun _ => True := permits_tick
  refine Coroutine.Py.Ok.call_bind ?_ ?_ ?_
  · exact trivial
  · exact fun e v hr => (hr.2.2 e rfl).elim
  intro active v hr
  obtain ⟨hover, hround⟩ := isActive_tick hs hr
  split_ifs with hskip hcancel
  · exact hover
  · obtain ⟨hactive, -⟩ := not_or.mp hskip
    exact spawn_finishCancel_tick hs.known hcancel hl (hround (by simpa using hactive))
  · obtain ⟨hactive, hstate⟩ := not_or.mp hskip
    obtain rfl : active = false := by simpa using hactive
    have hwaiting : s.state = .waitingForPorts := not_not.mp hstate
    have hv := hround rfl
    have hfresh : s.jobId ∈ v.untouched := by
      rw [hr.2.1]
      exact huntouched (by simpa using hcancel) (by rw [hwaiting]; rfl)
    refine Coroutine.Py.Ok.call_bind ?_ ?_ ?_
    · exact ⟨trivial, trivial⟩
    · exact fun e v₁ hr₁ => (hv.post hr₁ trivial nofun).over hl
    intro document v₁ hr₁
    have hv₁ := hv.post hr₁ trivial nofun
    have hfresh₁ : s.jobId ∈ v₁.untouched := by
      rw [hr₁.2.1]
      exact hfresh
    refine Coroutine.Py.Ok.call_bind ?_ ?_ ?_
    · exact trivial
    · exact fun e v₂ hr₂ => (hv₁.post hr₂ trivial nofun).over hl
    intro now v₂ hr₂
    have hv₂ := hv₁.post hr₂ trivial nofun
    have hfresh₂ : s.jobId ∈ v₂.untouched := by
      rw [hr₂.2.1]
      exact hfresh₁
    split_ifs with htimeout
    · exact ((h.fail (fun _ _ => trivial) _ _).bind (fun _ => safe_pure ()) l () v₂ hv₂).mono fun _ _ _ hv => hv.over hl
    · refine (acquireFor_tick hv₂ hfresh₂).bind (fun _ _ _ h => h.1.over hl)
        fun fence _ v₃ ⟨hv₃, hgranted⟩ => ?_
      cases fence with
      | none => exact hv₃.over hl
      | some fence => exact startGranted_tick hl (hgranted fence rfl)

/-- The jobs of a list that the scheduler has read and found untouched. -/
structure Listed (snapshots : List JobSnapshot) (v : TickView) : Prop where
  nodup : (snapshots.map JobSnapshot.jobId).Nodup
  seen : ∀ s ∈ snapshots, Seen s v
  untouched : ∀ s ∈ snapshots, s.cancelRequested = false → s.state.recoverable = true →
    s.jobId ∈ v.untouched

theorem Listed.round {s : JobSnapshot} {rest : List JobSnapshot} (h : Listed (s :: rest) v₀)
    (hv : RoundOver v₀ s.jobId v) : Listed rest v where
  nodup := (List.nodup_cons.mp h.nodup).2
  seen x hx :=
    have hseen := h.seen x (List.mem_cons_of_mem s hx)
    ⟨hv.grown.known hseen.known, hv.grown.listed hseen.listed, hv.owing⟩
  untouched x hx hcancel hstate := by
    refine hv.grown.untouched _ ?_ (h.untouched x (List.mem_cons_of_mem s hx) hcancel hstate)
    rintro heq
    exact (List.nodup_cons.mp h.nodup).1 (heq ▸ List.mem_map_of_mem hx)

theorem Listed.neutral {snapshots : List JobSnapshot} {c : Call} {r : Except Exc c.Res}
    (h : Listed snapshots v) (hr : tickContract.post v l c r v') (hc : v.next l c r = v) :
    Listed snapshots v' := by
  refine ⟨h.nodup, fun s hs => ?_, fun s hs hcancel hstate => ?_⟩
  · have hseen := h.seen s hs
    refine ⟨hr.1.1 hseen.known, ?_, ?_⟩ <;> rw [hr.2.1, hc]
    · exact hseen.listed
    · exact hseen.owing
  · rw [hr.2.1, hc]
    exact h.untouched s hs hcancel hstate

theorem scanWaiting_tick (config : AgentConfig) (hl : l ≠ .timedOut) {snapshots : List JobSnapshot}
    (hv : v.owing = none) (h : Listed snapshots v) :
    (scanWaiting config snapshots).Ok tickContract l () (fun _ _ v' => v'.owing = none) v := by
  induction snapshots generalizing v with
  | nil => exact hv
  | cons s rest ih =>
    refine Coroutine.Py.Ok.call_bind ?_ ?_ ?_
    · exact trivial
    · exact fun e v₁ hr => (hr.2.2 e rfl).elim
    intro active v₁ hr
    have hv₁ : v₁.owing = none := by
      rw [hr.2.1]
      exact hv
    have h₁ := h.neutral hr rfl
    split_ifs
    · exact hv₁
    · refine (secondPass_tick hl (h₁.seen s List.mem_cons_self)
        (h₁.untouched s List.mem_cons_self)).bind (fun _ _ _ hv => hv.owing) fun u _ v₂ hv₂ => ?_
      exact ih hv₂.owing (h₁.round hv₂)

/-- What `_tick` reads with `list_nonterminal`. -/
theorem listed_of_list {snapshots : List JobSnapshot} (hv : v.owing = none)
    (hr : tickContract.post v l (.store .listNonterminal) (.ok snapshots) v') :
    v'.owing = none ∧ Listed snapshots v' := by
  obtain ⟨⟨-, hnodup, hlearn⟩, hv', -⟩ := hr
  have howing : v'.owing = none := by
    rw [hv']
    exact hv
  refine ⟨howing, hnodup, fun s hs => ⟨(hlearn s hs).1, ?_, howing⟩, fun s hs hcancel hstate => ?_⟩
  · rw [hv']
    exact .inr ⟨s, hs, rfl⟩
  · rw [hv']
    exact .inr ⟨s, hs, rfl, hcancel, hstate⟩

/-- A tick keeps to its contract and owes no release at its end. -/
theorem tick_tick (config : AgentConfig) (hl : l ≠ .timedOut) (hv : v.owing = none) :
    (tick config).Ok tickContract l () (fun _ _ v' => v'.owing = none) v := by
  refine Coroutine.Py.Ok.call_bind ?_ ?_ ?_
  · exact trivial
  · exact fun e v₁ hr => (hr.2.2 e rfl).elim
  intro u v₁ hr₁
  have hv₁ : v₁.owing = none := by
    rw [hr₁.2.1]
    exact hv
  refine Coroutine.Py.Ok.call_bind ?_ ?_ ?_
  · exact ⟨trivial, trivial⟩
  · exact fun e v₂ hr => (hr.2.2 e rfl).elim
  intro snapshots v₂ hr₂
  obtain ⟨hv₂, hlisted⟩ := listed_of_list hv₁ hr₂
  refine Coroutine.Py.Ok.bind (P := fun _ _ v => v.owing = none)
    (Coroutine.Py.ok_forEach (firstPass config)
      (fun rest _ (v : TickView) => v.owing = none ∧ ∀ s ∈ rest, Seen s v) snapshots
      ⟨hv₂, hlisted.seen⟩ (fun _ _ hv => hv.1) ?_) (fun _ _ _ hv => hv) fun u _ v₃ hv₃ => ?_
  · rintro s rest ⟨⟩ v₃ ⟨-, hseen⟩
    refine (firstPass_tick config (hseen s List.mem_cons_self) hl).mono ?_
    rintro (e | u) ⟨⟩ v₄ hv₄
    · exact hv₄.owing
    · refine ⟨hv₄.owing, fun x hx => ?_⟩
      have hx := hseen x (List.mem_cons_of_mem s hx)
      exact ⟨hv₄.grown.known hx.known, hv₄.grown.listed hx.listed, hv₄.owing⟩
  refine Coroutine.Py.Ok.call_bind ?_ ?_ ?_
  · exact trivial
  · exact fun e v₄ hr => (hr.2.2 e rfl).elim
  intro active v₄ hr₄
  have hv₄ : v₄.owing = none := by
    rw [hr₄.2.1]
    exact hv₃
  split_ifs
  · exact hv₄
  refine Coroutine.Py.Ok.call_bind ?_ ?_ ?_
  · exact ⟨trivial, trivial⟩
  · exact fun e v₅ hr => (hr.2.2 e rfl).elim
  intro snapshots v₅ hr₅
  obtain ⟨hv₅, hlisted⟩ := listed_of_list hv₄ hr₅
  exact (Coroutine.Py.ok_region _ _).mpr (scanWaiting_tick config (by decide) hv₅ hlisted)

end Tick

end TrexCli
