import TrexCli.Jobs.TaskContract

/-!
# What `_recover` calls

`recoverContract` holds of every recovery. It saves no marker and grants no port; it confirms only
ports that no stored marker names; and of every job that it finds in the middle of an execution it
releases the ports, into quarantine unless the job's marker is gone.
-/

namespace TrexCli

open Coroutine.Py (safe_call safe_pure Ends)

/-- What `_recover` knows. -/
structure RecoverView where
  known : Known := ∅
  /-- The jobs it has found in the middle of an execution. -/
  listed : Option (Set JobId) := none
  /-- Markers that are stored. -/
  stored : Set ExecutionMarker := ∅
  /-- Jobs without a marker. -/
  unmarked : Set JobId := ∅
  /-- Ports that no marker names. -/
  free : Set PortId := ∅
  released : Set JobId := ∅
  /-- The job whose ports are to be released. -/
  owing : Option JobId := none

namespace RecoverView

/-- The view after the marker of a job is deleted. -/
def deleted (v : RecoverView) (job : JobId) : RecoverView :=
  { v with
    stored := {m | m ∈ v.stored ∧ m.jobId ≠ job}
    unmarked := insert job v.unmarked
    free := v.free ∪ {p | ∃ m ∈ v.stored, m.jobId = job ∧ p ∈ m.logicalPorts} }

/-- The view after the answer to a call, but for the snapshots. -/
def next (v : RecoverView) : (c : Call) → Except Exc c.Res → RecoverView
  | .store .listNonterminal, .ok snapshots =>
    { v with listed := some {j | ∃ s ∈ snapshots, s.jobId = j ∧ s.state.recoverable = false} }
  | .store (.getExecutionMarker job), .ok none => { v with unmarked := insert job v.unmarked }
  | .store (.getExecutionMarker _), .ok (some m) => { v with stored := insert m v.stored }
  | .store .listExecutionMarkers, .ok markers => { v with stored := v.stored ∪ {m | m ∈ markers} }
  | .store (.updateSnapshot s ..), _ => { v with owing := some s.jobId }
  | .store (.deleteExecutionMarker job), .ok _ => v.deleted job
  | .store (.releasePorts job _), .ok _ =>
    { v with released := insert job v.released, owing := none }
  | _, _ => v

theorem next_owing {v : RecoverView} {c : Call} (r : Except Exc c.Res)
    (hupdate : ∀ s e t d, c ≠ .store (.updateSnapshot s e t d))
    (hrelease : ∀ j quarantine, c ≠ .store (.releasePorts j quarantine)) :
    (v.next c r).owing = v.owing := by
  unfold next
  split
  · rfl
  · rfl
  · rfl
  · rfl
  · exact absurd rfl (hupdate _ _ _ _)
  · rfl
  · exact absurd rfl (hrelease _ _)
  · rfl

end RecoverView

/-- The store methods that `_recover` may call. -/
def RecoverCall (v : RecoverView) : StoreCall → Prop
  | .saveExecutionMarker _ | .acquirePorts .. => False
  | .confirmPortsAvailable ports => ∀ p ∈ ports, p ∈ v.free
  | .releasePorts job quarantine =>
    (quarantine = false → job ∈ v.unmarked) ∧ (v.owing = none ∨ v.owing = some job)
  | .updateSnapshot s .. => s.state.terminal = true ∧ (v.owing = none ∨ v.owing = some s.jobId)
  | _ => True

def recoverContract : Coroutine.Contract Site Call Call.Res Exc RecoverView where
  pre v _
    | .store c => WritesOver v.known c ∧ RecoverCall v c
    | .isActive _ | .activeCount | .dropDone | .spawn .. => False
    | _ => True
  post v l c r v' := logContract.post v.known l c r v'.known ∧
    v' = { v.next c r with known := v'.known } ∧ ∀ e, r = .error e → c.Raises v.known e

section Recover

variable {v₀ v v' : RecoverView} {job : JobId} {l : Site} {σ : Type}

/-- What no call of a round about `job` takes back. -/
structure Kept (v₀ : RecoverView) (job : JobId) (v : RecoverView) : Prop where
  known : v₀.known ⊆ v.known
  listed : v.listed = v₀.listed
  stored : ∀ m, m.jobId ≠ job → m ∈ v₀.stored → m ∈ v.stored
  unmarked : v₀.unmarked ⊆ v.unmarked
  released : v₀.released ⊆ v.released
  owing : v.owing = none ∨ v.owing = some job

/-- The calls of a round about `job`. -/
def Concerns (job : JobId) : Call → Prop
  | .store .listNonterminal => False
  | .store (.updateSnapshot s ..) => s.jobId = job
  | .store (.deleteExecutionMarker j) => j = job
  | _ => True

theorem Kept.post {c : Call} {r : Except Exc c.Res} (h : Kept v₀ job v)
    (hr : recoverContract.post v l c r v') (hc : Concerns job c) : Kept v₀ job v' := by
  obtain ⟨⟨hsub, -⟩, hv', -⟩ := hr
  have hknown := h.known.trans hsub
  rw [hv'] at hknown ⊢
  unfold RecoverView.next at hknown ⊢
  split at hknown
  · exact hc.elim
  · exact ⟨hknown, h.listed, h.stored, fun j hj => .inr (h.unmarked hj), h.released, h.owing⟩
  · exact ⟨hknown, h.listed, fun m hne hm => .inr (h.stored m hne hm), h.unmarked, h.released,
      h.owing⟩
  · exact ⟨hknown, h.listed, fun m hne hm => .inl (h.stored m hne hm), h.unmarked, h.released,
      h.owing⟩
  · exact ⟨hknown, h.listed, h.stored, h.unmarked, h.released, .inr (congrArg some hc)⟩
  · obtain rfl := hc
    exact ⟨hknown, h.listed, fun m hne hm => ⟨h.stored m hne hm, hne⟩,
      fun j hj => .inr (h.unmarked hj), h.released, h.owing⟩
  · exact ⟨hknown, h.listed, h.stored, h.unmarked, fun j hj => .inr (h.released hj), .inl rfl⟩
  · exact ⟨hknown, h.listed, h.stored, h.unmarked, h.released, h.owing⟩

/-- What holds around the reconciliation of a marker. -/
structure Reconciling (v₀ : RecoverView) (marker : ExecutionMarker) (v : RecoverView) : Prop where
  kept : Kept v₀ marker.jobId v
  owing : v.owing = v₀.owing
  stored : marker ∈ v.stored

/-- A marker is deleted before its ports are confirmed, and after that no marker names them. -/
theorem reconcileMarker_recover {marker : ExecutionMarker} {s : Unit}
    (hv : Reconciling v₀ marker v) :
    (reconcileMarker marker).Ok recoverContract l s (fun r _ v' => Kept v₀ marker.jobId v' ∧
      v'.owing = v₀.owing ∧
      ∀ result, r = .ok result → result.confirmedIdle = true → marker.jobId ∈ v'.unmarked) v := by
  refine Coroutine.Py.Ok.call_bind ?_ ?_ ?_
  · exact ⟨trivial, trivial⟩
  · intro e v₁ hr₁
    refine ⟨hv.kept.post hr₁ trivial, ?_, nofun⟩
    rw [hr₁.2.1]
    exact hv.owing
  intro document v₁ hr₁
  have hv₁ : Reconciling v₀ marker v₁ := by
    refine ⟨hv.kept.post hr₁ trivial, ?_, ?_⟩ <;> rw [hr₁.2.1]
    · exact hv.owing
    · exact hv.stored
  refine Coroutine.Py.Ok.call_bind ?_ ?_ ?_
  · exact trivial
  · intro e v₂ hr₂
    refine ⟨hv₁.kept.post hr₂ trivial, ?_, nofun⟩
    rw [hr₂.2.1]
    exact hv₁.owing
  intro result v₂ hr₂
  have hv₂ : Reconciling v₀ marker v₂ := by
    refine ⟨hv₁.kept.post hr₂ trivial, ?_, ?_⟩ <;> rw [hr₂.2.1]
    · exact hv₁.owing
    · exact hv₁.stored
  unfold Coroutine.Py.when
  split_ifs with hidle
  · refine Coroutine.Py.Ok.bind (P := fun _ _ v' => Kept v₀ marker.jobId v' ∧
      v'.owing = v₀.owing ∧ marker.jobId ∈ v'.unmarked) ?_ ?_ ?_
    · refine Coroutine.Py.Ok.call_bind ?_ ?_ ?_
      · exact ⟨trivial, trivial⟩
      · exact fun e v₃ hr₃ => (hr₃.2.2 e rfl).elim
      intro u v₃ hr₃
      have hv₃ := hv₂.kept.post hr₃ rfl
      refine ⟨⟨trivial, fun p hp => ?_⟩, fun r v₄ hr₄ => ⟨hv₃.post hr₄ trivial, ?_, ?_⟩⟩
      · rw [hr₃.2.1]
        exact .inr ⟨marker, hv₂.stored, rfl, hp⟩
      · rw [hr₄.2.1, hr₃.2.1]
        exact hv₂.owing
      · rw [hr₄.2.1, hr₃.2.1]
        exact .inl rfl
    · exact fun e _ v' h => ⟨h.1, h.2.1, nofun⟩
    · exact fun _ _ v' h => ⟨h.1, h.2.1, fun _ _ _ => h.2.2⟩
  · refine ⟨hv₂.kept, hv₂.owing, fun result' hresult hidle' => ?_⟩
    obtain rfl := Except.ok.inj hresult
    exact absurd hidle' hidle

theorem reconcileJob_recover {marker : Option ExecutionMarker} {s : Unit} (hv : Kept v₀ job v)
    (howing : v.owing = v₀.owing) (hnone : marker = none → job ∈ v.unmarked)
    (hsome : ∀ m, marker = some m → m.jobId = job ∧ m ∈ v.stored) :
    (reconcileJob marker).Ok recoverContract l s (fun r _ v' => Kept v₀ job v' ∧
      ∀ result, r = .ok result → result.1 = true → job ∈ v'.unmarked) v := by
  cases marker with
  | none => exact ⟨hv, fun _ _ _ => hnone rfl⟩
  | some marker =>
    obtain ⟨rfl, hstored⟩ := hsome marker rfl
    refine (reconcileMarker_recover ⟨hv, howing, hstored⟩).bind (fun e _ _ h => ⟨h.1, nofun⟩)
      fun result _ v₁ h₁ => ⟨h₁.1, fun result' hresult hidle => ?_⟩
    obtain rfl := Except.ok.inj hresult
    exact h₁.2.2 result rfl hidle

/-- What a round about `job` leaves to the rounds after it. -/
theorem fail_recover {problem : Problem} {expectedStates : Option (List JobState)} {s : σ}
    {P : Prop} (hv : Kept v₀ job v ∧ (P → job ∈ v.unmarked)) :
    (fail job problem expectedStates : Async σ _).Ok recoverContract l s
      (fun _ _ v' => Kept v₀ job v' ∧ (P → job ∈ v'.unmarked)) v := by
  have hpost : ∀ {c : Call} {r : Except Exc c.Res} {v v'},
      (Kept v₀ job v ∧ (P → job ∈ v.unmarked)) → recoverContract.post v l c r v' →
      Concerns job c → Kept v₀ job v' ∧ (P → job ∈ v'.unmarked) := by
    intro c r v v' hv hr hc
    refine ⟨hv.1.post hr hc, fun hp => ?_⟩
    exact ((⟨subset_rfl, rfl, fun _ _ h => h, subset_rfl, subset_rfl, hv.1.owing⟩ :
      Kept v job v).post hr hc).unmarked (hv.2 hp)
  refine Coroutine.Py.Ok.call_bind ?_ ?_ ?_
  · exact trivial
  · exact fun e v₁ hr₁ => hpost hv hr₁ trivial
  intro now v₁ hr₁
  refine (attemptTransition_ok (I := fun v => Kept v₀ job v ∧ (P → job ∈ v.unmarked))
    (K := fun x v => x ∈ v.known ∧ x.jobId = job) ?_ ?_ ?_ s (hpost hv hr₁ trivial)).mono
    fun _ _ _ h => h.1
  · refine fun v hv => ⟨⟨trivial, trivial⟩, fun r v' hr => ⟨hpost hv hr trivial, ?_⟩⟩
    rintro x rfl
    exact hr.1.2
  · refine fun v x hv hx hadm => ⟨⟨⟨x, hx.1, rfl, _, hadm, rfl⟩, ?_⟩,
      fun r v' hr => ⟨hpost hv hr hx.2, ?_⟩⟩
    · refine ⟨rfl, ?_⟩
      show v.owing = none ∨ v.owing = some x.jobId
      rw [hx.2]
      exact hv.1.owing
    · rintro rfl
      exact ⟨hr.1.2, hx.2⟩
  · refine fun v hv => ⟨trivial, fun r v' hr => ⟨hpost hv hr trivial, ?_⟩⟩
    exact fun x hx => ⟨hr.1.1 hx.1, hx.2⟩

theorem recoverJob_recover {s : JobSnapshot} (hv : v.owing = none) :
    (recoverJob s).Ok recoverContract l () (fun r _ v' => Ends (fun _ v' => Kept v s.jobId v' ∧
      v'.owing = none ∧ (s.state.recoverable = false → s.jobId ∈ v'.released)) (fun _ _ => True)
      r v') v := by
  have hkept : Kept v s.jobId v :=
    ⟨subset_rfl, rfl, fun _ _ h => h, subset_rfl, subset_rfl, .inl hv⟩
  unfold recoverJob
  split_ifs with hstate
  · exact ⟨hkept, hv, fun hs => by simp [hs] at hstate⟩
  refine Coroutine.Py.Ok.call_bind ?_ ?_ ?_
  · exact ⟨trivial, trivial⟩
  · exact fun e v₁ hr₁ => trivial
  intro marker v₁ hr₁
  have hv₁ := hkept.post hr₁ trivial
  refine (reconcileJob_recover hv₁ ?_ ?_ ?_).bind (fun _ _ _ _ => trivial)
    fun reconciled _ v₂ ⟨hv₂, hidle⟩ => ?_
  · rw [hr₁.2.1]
    cases marker <;> rfl
  · rintro rfl
    rw [hr₁.2.1]
    exact .inl rfl
  · rintro m rfl
    refine ⟨hr₁.1.2 m rfl, ?_⟩
    rw [hr₁.2.1]
    exact .inl rfl
  refine (fail_recover ⟨hv₂, hidle reconciled rfl⟩).bind (fun _ _ _ _ => trivial)
    fun _ _ v₃ ⟨hv₃, hunmarked⟩ => ?_
  refine ⟨⟨trivial, fun hquar => hunmarked (by simpa using hquar), hv₃.owing⟩, ?_⟩
  rintro (e | u) v₄ hr₄
  · trivial
  · refine ⟨hv₃.post hr₄ trivial, ?_, fun _ => ?_⟩
    · rw [hr₄.2.1]
      rfl
    · rw [hr₄.2.1]
      exact .inl rfl

/-- A recovery that comes to its end has released the ports of every job it listed. -/
def Recovered (r : Except Exc Unit) (v : RecoverView) : Prop :=
  r = .ok () → v.owing = none ∧ ∃ jobs, v.listed = some jobs ∧ jobs ⊆ v.released

theorem recover_recover (hv : v.owing = none) :
    recover.Ok recoverContract l () (fun r _ v' => Recovered r v') v := by
  refine Coroutine.Py.Ok.call_bind ?_ ?_ ?_
  · exact ⟨trivial, trivial⟩
  · exact fun e v₁ _ => nofun
  intro snapshots v₁ hr₁
  have hlisted : v₁.listed =
      some {j | ∃ s ∈ snapshots, s.jobId = j ∧ s.state.recoverable = false} := by
    rw [hr₁.2.1]
    rfl
  have howing : v₁.owing = none := by
    rw [hr₁.2.1]
    exact hv
  refine Coroutine.Py.Ok.bind (P := fun r _ v' => Recovered r v') ?_ ?_ ?_
  · refine Coroutine.Py.ok_forEach recoverJob (fun rest _ v => v.owing = none ∧
      v.listed = v₁.listed ∧ ∀ s ∈ snapshots, s.state.recoverable = false → s ∉ rest →
        s.jobId ∈ v.released) snapshots ⟨howing, rfl, fun s hs _ hne => absurd hs hne⟩ ?_ ?_
    · rintro _ v₂ ⟨hv₂, hl₂, hreleased⟩ -
      refine ⟨hv₂, _, hl₂.trans hlisted, ?_⟩
      rintro j ⟨s, hs, rfl, hstate⟩
      exact hreleased s hs hstate List.not_mem_nil
    · rintro s rest ⟨⟩ v₂ ⟨hv₂, hl₂, hreleased⟩
      refine (recoverJob_recover hv₂).mono ?_
      rintro (e | u) ⟨⟩ v₃ h₃
      · exact nofun
      · obtain ⟨hkept, hv₃, hself⟩ := h₃
        refine ⟨hv₃, hkept.listed.trans hl₂, fun x hx hstate hne => ?_⟩
        by_cases heq : x = s
        · subst heq
          exact hself hstate
        · refine hkept.released (hreleased x hx hstate fun hmem => ?_)
          obtain rfl | hmem := List.mem_cons.mp hmem
          · exact heq rfl
          · exact hne hmem
  · exact fun _ _ _ h => nofun
  intro u _ v₂ hv₂
  obtain ⟨hv₂, jobs, hjobs, hreleased⟩ := hv₂ rfl
  refine Coroutine.Py.Ok.call_bind ?_ ?_ ?_
  · exact ⟨trivial, trivial⟩
  · exact fun e v₃ _ => nofun
  intro markers v₃ hr₃
  have hstored : ∀ m ∈ markers, m ∈ v₃.stored := by
    rw [hr₃.2.1]
    exact fun m hm => .inr hm
  have hv₃ : v₃.owing = none ∧ v₃.listed = some jobs ∧ jobs ⊆ v₃.released := by
    rw [hr₃.2.1]
    exact ⟨hv₂, hjobs, hreleased⟩
  refine Coroutine.Py.ok_forEach _ (fun rest _ v => (v.owing = none ∧ v.listed = some jobs ∧
    jobs ⊆ v.released) ∧ (rest.map ExecutionMarker.jobId).Nodup ∧ ∀ m ∈ rest, m ∈ v.stored)
    markers ⟨hv₃, hr₃.1.2, hstored⟩ ?_ ?_
  · exact fun _ v₄ h _ => ⟨h.1.1, jobs, h.1.2⟩
  · rintro m rest ⟨⟩ v₄ ⟨⟨hv₄, hl₄, hreleased₄⟩, hnodup, hstored₄⟩
    have hkept : Kept v₄ m.jobId v₄ :=
      ⟨subset_rfl, rfl, fun _ _ h => h, subset_rfl, subset_rfl, .inl hv₄⟩
    have hrest : ∀ {v₅}, Kept v₄ m.jobId v₅ → v₅.owing = none → (v₅.owing = none ∧
        v₅.listed = some jobs ∧ jobs ⊆ v₅.released) ∧ (rest.map ExecutionMarker.jobId).Nodup ∧
        ∀ m' ∈ rest, m' ∈ v₅.stored := by
      intro v₅ h₅ howing₅
      refine ⟨⟨howing₅, h₅.listed.trans hl₄, hreleased₄.trans h₅.released⟩,
        (List.nodup_cons.mp hnodup).2, fun m' hm' => ?_⟩
      refine h₅.stored m' (fun heq => ?_) (hstored₄ m' (List.mem_cons_of_mem m hm'))
      exact (List.nodup_cons.mp hnodup).1 (heq ▸ List.mem_map_of_mem hm')
    split
    · exact hrest hkept hv₄
    · refine (reconcileMarker_recover ⟨hkept, rfl, hstored₄ m List.mem_cons_self⟩).bind
        (fun _ _ _ _ => nofun) fun result _ v₅ h₅ => ?_
      exact hrest h₅.1 (h₅.2.1.trans hv₄)

end Recover

end TrexCli
