import TrexCli.Agent.Trace

/-!
# The invariant of every run

Each field of `Inv` is kept by each step; the field lemmas below say why, and `Inv.step` collects
them.
-/

namespace TrexCli

section Lists

variable {α : Type} {l : List α} {i j : Nat} {a b : α}

theorem getElem?_set_some (h : (l.set i a)[j]? = some b) :
    j = i ∧ b = a ∨ j ≠ i ∧ l[j]? = some b := by
  rw [List.getElem?_set] at h
  split at h
  · rename_i hij
    split at h
    · exact .inl ⟨hij.symm, (Option.some.inj h).symm⟩
    · cases h
  · rename_i hij
    exact .inr ⟨Ne.symm hij, h⟩

theorem getElem?_concat_some (h : (l ++ [a])[j]? = some b) :
    l[j]? = some b ∧ j ≠ l.length ∨ j = l.length ∧ b = a := by
  rw [List.getElem?_append] at h
  split at h
  · rename_i hlt
    exact .inl ⟨h, by omega⟩
  · rename_i hle
    obtain hj | hj := Nat.lt_or_eq_of_le (Nat.le_of_not_lt hle)
    · rw [List.getElem?_eq_none (by simp; omega)] at h
      cases h
    · subst hj
      simp only [Nat.sub_self, List.getElem?_cons_zero, Option.some.injEq] at h
      exact .inr ⟨rfl, h.symm⟩

end Lists

namespace History

variable {h : History} {i j : Nat} {v : TaskView}

@[simp] theorem setTask_self : (h.setTask i v).task i = v := Function.update_self ..

theorem setTask_of_ne (hne : j ≠ i) : (h.setTask i v).task j = h.task j :=
  Function.update_of_ne hne ..

end History

section Frames

variable {config : AgentConfig} {s s' : Agent} {h h' : History} {a : Action}

theorem submit_frame {db : Db} {job : JobId} {document : JobDocument}
    {principal idempotencyKey : String} {retryOf : Option JobId} {now : Instant} :
    (submit config db job document principal idempotencyKey retryOf now).2.leases = db.leases ∧
    (submit config db job document principal idempotencyKey retryOf now).2.markers = db.markers ∧
    ∀ j r x, (submit config db job document principal idempotencyKey retryOf now).2.logOf j r =
      some x → db.logOf j r = some x ∨ x.state = .accepted := by
  unfold submit
  generalize hs : acceptedSnapshot _ _ _ _ _ = x
  have hcase := db.createJob_cases x principal idempotencyKey document retryOf
  generalize db.createJob x principal idempotencyKey document retryOf = y at hcase
  cases hcase with
  | refused | found => exact ⟨rfl, rfl, fun _ _ _ h => .inl h⟩
  | created db' hnew happ =>
    refine ⟨happ.leases, happ.markers, fun j r y hy => ?_⟩
    rw [happ.log] at hy
    split at hy
    · obtain rfl := Option.some.inj hy
      rw [← hs]
      exact .inr rfl
    · exact .inl hy

theorem requestCancel_frame {db : Db} (hlogs : WrittenLogs db) {job : JobId}
    {requestId principal reason : String} :
    (db.requestCancel job requestId principal reason).2.leases = db.leases ∧
    (db.requestCancel job requestId principal reason).2.markers = db.markers ∧
    ∀ j r x, (db.requestCancel job requestId principal reason).2.logOf j r = some x →
      db.logOf j r = some x ∨ ∃ r' y, db.logOf j r' = some y ∧ x.state = y.state := by
  have hcase := db.requestCancel_cases job
    (fun row hrow => ⟨(hlogs.row job row hrow).1, (hlogs.row job row hrow).2.2.1⟩)
    requestId principal reason
  generalize db.requestCancel job requestId principal reason = x at hcase
  cases hcase with
  | refused | kept => exact ⟨rfl, rfl, fun _ _ _ h => .inl h⟩
  | requested db' row hrow hlive happ =>
    refine ⟨happ.leases, happ.markers, fun j r x hx => ?_⟩
    rw [happ.log] at hx
    split at hx
    · rename_i hjr
      obtain rfl := Option.some.inj hx
      obtain ⟨-, -, hjob, -⟩ := hlogs.row job row hrow
      refine .inr ⟨row.revision, row.snapshot, ?_, rfl⟩
      rw [hjr.1, show (Db.cancelRequestedOf row.snapshot).jobId = job from hjob]
      exact hlogs.last job row hrow
    · exact .inl hx

theorem ran_of_save {db : Db} {job : JobId} {kind : TaskKind} {v : TaskView} {m : ExecutionMarker}
    (hown : OwnCall job kind v (.saveExecutionMarker m)) (hbegun : Begun db job kind) :
    Ran db m.jobId := by
  obtain ⟨rfl, -, fence, rfl, -⟩ := hown
  exact hbegun

end Frames

namespace Inv

variable {config : AgentConfig} {s s' : Agent} {h h' : History} {a : Action}
variable (hinv : Inv s h) (hstep : Step config s h a s' h')
include hinv hstep

theorem step_logs : WrittenLogs s'.db ∧ s.db.Extends s'.db := by
  cases hstep with
  | submit => exact submit_written hinv.logs ..
  | requestCancel => exact requestCancel_written hinv.logs ..
  | taskStore _ _ _ _ _ _ _ _ _ _ _ hlogs hext => exact ⟨hlogs, hext⟩
  | tickStore _ _ _ _ _ _ _ _ _ hlogs hext => exact ⟨hlogs, hext⟩
  | recoverStore _ _ _ _ _ _ _ _ _ hlogs hext => exact ⟨hlogs, hext⟩
  | late _ _ _ hlogs hext => exact ⟨hlogs, hext⟩
  | _ => exact ⟨hinv.logs, Db.Extends.refl _⟩

theorem step_leases : s'.db.leases.Wf := by
  cases hstep with
  | submit =>
    rw [submit_frame.1]
    exact hinv.leases
  | requestCancel =>
    rw [(requestCancel_frame hinv.logs).1]
    exact hinv.leases
  | taskStore | tickStore | recoverStore | late => exact StoreCall.exec_wf _ hinv.leases
  | _ => exact hinv.leases

theorem step_markers : ∀ j m, s'.db.markers.get j = some m → Ran s'.db j := by
  have hext := (hinv.step_logs hstep).2
  have hexec : ∀ c : StoreCall, s'.db = (c.exec s.db).2 →
      (∀ m, c = .saveExecutionMarker m → Ran s.db m.jobId) →
      ∀ j m, s'.db.markers.get j = some m → Ran s'.db j := by
    intro c hdb hsave j m hm
    obtain hold | rfl := c.marker_of_exec (hdb ▸ hm)
    · exact (hinv.markers j m hold).extends hext
    · have hkey : m.jobId = j := s'.db.markers.key_of_get hm
      exact hkey ▸ (hsave m rfl).extends hext
  cases hstep with
  | submit =>
    intro j m hm
    rw [submit_frame.2.1] at hm
    exact (hinv.markers j m hm).extends hext
  | requestCancel =>
    intro j m hm
    rw [(requestCancel_frame hinv.logs).2.1] at hm
    exact (hinv.markers j m hm).extends hext
  | taskStore i _ t l c k v hi hp hpre =>
    refine hexec c rfl ?_
    rintro m rfl
    exact ran_of_save hpre.2 (hinv.task i t hi).begun
  | tickStore _ l c k v _ hp hpre =>
    refine hexec c rfl ?_
    rintro m rfl
    exact hpre.2.elim
  | recoverStore _ l c k v _ hp hpre =>
    refine hexec c rfl ?_
    rintro m rfl
    exact hpre.2.elim
  | late n c hn =>
    refine hexec c rfl ?_
    rintro m rfl
    obtain ⟨job, kind, v, -, -, hown, hbegun⟩ := hinv.late _ (List.mem_of_getElem? hn)
    exact ran_of_save hown hbegun
  | _ => exact hinv.markers

theorem step_late : ∀ c ∈ s'.late, Abandoned s'.db c := by
  have hext := (hinv.step_logs hstep).2
  have hold : ∀ c ∈ s.late, Abandoned s'.db c := fun c hc => (hinv.late c hc).extends hext
  cases hstep with
  | thrown a i t t' l c k e cancelling v ha hi hp hthrown hjob hkind hp' hpre =>
    intro c' hc'
    obtain hc' | hc' := List.mem_append.mp hc'
    · exact hold c' hc'
    · cases c with
      | store c =>
        obtain rfl := List.mem_singleton.mp hc'
        have hfacts := hinv.task i t hi
        exact ⟨t.job, t.kind, h.task i, hfacts.known, hpre.1, hpre.2, hfacts.begun⟩
      | _ => cases hc'
  | late n c hn => exact fun c' hc' => hold c' (List.mem_of_mem_eraseIdx hc')
  | crash => exact fun c hc => nomatch hc
  | _ => exact hold

theorem step_task : ∀ i t, s'.tasks[i]? = some t → TaskFacts s' (h'.task i) t := by
  have hext := (hinv.step_logs hstep).2
  have hold : ∀ {v t}, TaskFacts s v t → TaskFacts s' v t := fun hf =>
    ⟨hf.known.extends hext, hf.ok, hf.begun.extends hext⟩
  cases hstep with
  | thrown a i t t' l c k e cancelling v ha hi hp hthrown hjob hkind hp' hpre hpost hknown =>
    intro j u hu
    obtain ⟨rfl, rfl⟩ | ⟨hne, hu⟩ := getElem?_set_some hu
    · have hfacts := hinv.task j t hi
      have hok := hfacts.ok
      rw [hp] at hok
      refine ⟨by simpa using hknown, ?_, ?_⟩
      · rw [hjob, hkind, hp', History.setTask_self]
        exact hok.resume hpost
      · rw [hjob, hkind]
        exact hfacts.begun
    · rw [History.setTask_of_ne hne]
      exact hold (hinv.task j u hu)
  | taskStore i _ t l c k v hi hp hpre hpost hlogs hext hknown =>
    intro j u hu
    obtain ⟨rfl, rfl⟩ | ⟨hne, hu⟩ := getElem?_set_some hu
    · have hfacts := hinv.task j t hi
      have hok := hfacts.ok
      rw [hp] at hok
      rw [History.setTask_self]
      exact ⟨hknown, hok.resume hpost, hfacts.begun.extends hext⟩
    · rw [History.setTask_of_ne hne]
      exact hold (hinv.task j u hu)
  | taskCall i _ t l c k r v hi hp hc _ hpost hknown =>
    intro j u hu
    obtain ⟨rfl, rfl⟩ | ⟨hne, hu⟩ := getElem?_set_some hu
    · have hfacts := hinv.task j t hi
      have hok := hfacts.ok
      rw [hp] at hok
      rw [History.setTask_self]
      exact ⟨hknown, hok.resume hpost, hfacts.begun⟩
    · rw [History.setTask_of_ne hne]
      exact hold (hinv.task j u hu)
  | tickSpawn _ l job kind k v hserving hp hpre hpost hknown =>
    intro j u hu
    obtain ⟨hu, hne⟩ | ⟨rfl, rfl⟩ := getElem?_concat_some hu
    · rw [show ({ h.setTask s.tasks.length { known := v.known } with tick := v } : History).task j =
        (h.setTask s.tasks.length { known := v.known }).task j from rfl, History.setTask_of_ne hne]
      exact hold (hinv.task j u hu)
    · rw [show ({ h.setTask s.tasks.length { known := v.known } with tick := v } : History).task
        s.tasks.length = { known := v.known } from History.setTask_self]
      obtain ⟨-, -, -, hjust, -⟩ := hpre
      have hknown₀ := (hinv.ticking hserving).1.known
      have hsub := hpost.1.1
      refine ⟨hknown, ?_, ?_⟩
      · refine taskProgram_task config job kind fun hkind => ⟨?_, rfl, rfl, rfl⟩
        cases kind with
        | execute =>
          obtain ⟨x, hx, hj, -⟩ := hjust
          exact ⟨x, hsub hx, hj⟩
        | finishCancel =>
          obtain ⟨x, hx, hj, -⟩ := hjust
          exact ⟨x, hsub hx, hj⟩
        | reportProgress => cases hkind
      · cases kind with
        | execute =>
          obtain ⟨x, hx, rfl, hstate⟩ := hjust
          exact ran_of_known hknown₀ hx hstate
        | finishCancel =>
          obtain ⟨x, hx, rfl, hflag⟩ := hjust
          exact flagged_of_known hknown₀ hx hflag
        | reportProgress => exact hjust.elim
  | reportProgress job update completed total hserving =>
    intro j u hu
    obtain ⟨hu, hne⟩ | ⟨rfl, rfl⟩ := getElem?_concat_some hu
    · rw [History.setTask_of_ne hne]
      exact hold (hinv.task j u hu)
    · rw [History.setTask_self]
      exact ⟨Known.holds_empty _, taskProgram_task config job _ nofun, trivial⟩
  | crash => exact fun i t ht => by simp at ht
  | _ => exact fun i t ht => hold (hinv.task i t ht)

theorem step_registered :
    ∀ i t, s'.tasks[i]? = some t → Live t → (t.job, i) ∈ s'.active := by
  -- a task that has taken a step was live before
  have hset : ∀ {i t t'} {l : Site} {c : Call} {k}, s.tasks[i]? = some t →
      t.program = .await l c k → t'.job = t.job → t'.kind = t.kind →
      ∀ j u, (s.tasks.set i t')[j]? = some u → Live u → (u.job, j) ∈ s.active := by
    intro i t t' l c k hi hp hjob hkind j u hu hlive
    obtain ⟨rfl, rfl⟩ | ⟨-, hu⟩ := getElem?_set_some hu
    · rw [hjob]
      exact hinv.registered j t hi ⟨by rw [hp]; rfl, hkind ▸ hlive.2⟩
    · exact hinv.registered j u hu hlive
  cases hstep with
  | thrown a i t t' l c k e cancelling v ha hi hp hthrown hjob hkind => exact hset hi hp hjob hkind
  | taskStore i _ t l c k v hi hp => exact hset hi hp rfl rfl
  | taskCall i _ t l c k r v hi hp => exact hset hi hp rfl rfl
  | tickDropDone _ l k v hserving hp =>
    intro i t ht hlive
    refine List.mem_filter.mpr ⟨hinv.registered i t ht hlive, ?_⟩
    simp [Agent.taskDone, ht, hlive.1]
  | tickSpawn _ l job kind k v hserving hp hpre =>
    intro i t ht hlive
    obtain ⟨ht, -⟩ | ⟨rfl, rfl⟩ := getElem?_concat_some ht
    · have hmem := hinv.registered i t ht hlive
      refine List.mem_cons_of_mem _ (List.mem_filter.mpr ⟨hmem, ?_⟩)
      refine decide_eq_true fun heq => ?_
      exact (hinv.ticking hserving).1.inactive job hpre.1 ⟨i, heq ▸ hmem⟩
    · exact List.mem_cons_self
  | reportProgress job update completed total =>
    intro i t ht hlive
    obtain ⟨ht, -⟩ | ⟨rfl, rfl⟩ := getElem?_concat_some ht
    · exact hinv.registered i t ht hlive
    · cases hlive.2
  | crash => exact fun i t ht => by simp at ht
  | _ => exact hinv.registered

theorem step_keys : (s'.active.map Prod.fst).Nodup := by
  cases hstep with
  | tickDropDone => exact hinv.keys.sublist (List.filter_sublist.map _)
  | tickSpawn _ l job kind k v hserving hp hpre =>
    refine List.nodup_cons.mpr ⟨fun hmem => ?_, hinv.keys.sublist (List.filter_sublist.map _)⟩
    obtain ⟨⟨j, i⟩, hji, rfl⟩ := List.mem_map.mp hmem
    simpa using (List.mem_filter.mp hji).2
  | crash => exact List.nodup_nil
  | _ => exact hinv.keys

theorem step_pointed : ∀ j i, (j, i) ∈ s'.active →
    ∃ t, s'.tasks[i]? = some t ∧ t.job = j ∧ t.kind.isReport = false := by
  have hset : ∀ {i t t'}, s.tasks[i]? = some t → t'.job = t.job → t'.kind = t.kind →
      ∀ j n, (j, n) ∈ s.active →
        ∃ u, (s.tasks.set i t')[n]? = some u ∧ u.job = j ∧ u.kind.isReport = false := by
    intro i t t' hi hjob hkind j n hmem
    obtain ⟨u, hu, huj, hreport⟩ := hinv.pointed j n hmem
    by_cases hin : i = n
    · subst hin
      obtain rfl := Option.some.inj (hi.symm.trans hu)
      have hlt := (List.getElem?_eq_some_iff.mp hi).1
      exact ⟨t', by simp [hlt], hjob.trans huj, hkind ▸ hreport⟩
    · exact ⟨u, by rwa [List.getElem?_set_ne hin], huj, hreport⟩
  have happend : ∀ u j n, (j, n) ∈ s.active →
      ∃ t, (s.tasks ++ [u])[n]? = some t ∧ t.job = j ∧ t.kind.isReport = false := by
    intro u j n hmem
    obtain ⟨t, ht, hrest⟩ := hinv.pointed j n hmem
    have hlt := (List.getElem?_eq_some_iff.mp ht).1
    exact ⟨t, by rwa [List.getElem?_append_left hlt], hrest⟩
  cases hstep with
  | thrown a i t t' l c k e cancelling v ha hi hp hthrown hjob hkind => exact hset hi hjob hkind
  | taskStore i _ t l c k v hi => exact hset hi rfl rfl
  | taskCall i _ t l c k r v hi => exact hset hi rfl rfl
  | tickDropDone => exact fun j i hmem => hinv.pointed j i (List.mem_of_mem_filter hmem)
  | tickSpawn _ l job kind k v hserving hp hpre =>
    intro j n hmem
    obtain heq | hmem := List.mem_cons.mp hmem
    · obtain ⟨rfl, rfl⟩ := Prod.mk.inj heq
      refine ⟨{ job := j, kind, program := taskProgram config j kind .body () },
        by simp [Agent.spawn], rfl, ?_⟩
      cases kind with
      | reportProgress => exact hpre.2.2.2.1.elim
      | _ => rfl
    · exact happend _ j n (List.mem_of_mem_filter hmem)
  | reportProgress => exact happend _
  | crash => exact fun j i hmem => nomatch hmem
  | _ => exact hinv.pointed

omit hstep in
/-- A job has at most one live task. -/
theorem live_unique {i j : Nat} {t u : AgentTask} (hi : s.tasks[i]? = some t)
    (hj : s.tasks[j]? = some u) (ht : Live t) (hu : Live u) (hjob : t.job = u.job) : i = j := by
  have h₁ := hinv.registered i t hi ht
  have h₂ := hinv.registered j u hj hu
  rw [hjob] at h₁
  exact congrArg Prod.snd (List.inj_on_of_nodup_map hinv.keys h₁ h₂ rfl)

/-- A step takes a port from a job only by releasing the ports of the job. -/
theorem step_holds : ∀ i t, s'.tasks[i]? = some t → HoldsFence s' (h'.task i) t := by
  -- a step that releases no ports of the task's job keeps what it holds
  have hkeep : ∀ {db' late'} {v : TaskView} {u : AgentTask},
      (∀ p, s.db.leases.HeldBy p u.job → db'.leases.HeldBy p u.job) →
      (∀ q, .releasePorts u.job q ∈ late' → .releasePorts u.job q ∈ s.late) →
      HoldsFence s v u → ∀ s', s'.db = db' → s'.late = late' → HoldsFence s' v u := by
    rintro db' late' v u hheld hlate hold s' rfl rfl fence hkind hdone hholding
    obtain ⟨hports, hnone⟩ := hold fence hkind hdone hholding
    exact ⟨fun p g hp => hheld p (hports p g hp), fun q hq => hnone q (hlate q hq)⟩
  cases hstep with
  | submit =>
    intro i t ht
    refine hkeep (fun p hp => ?_) (fun _ => id) (hinv.holds i t ht) _ rfl rfl
    rwa [submit_frame.1]
  | requestCancel =>
    intro i t ht
    refine hkeep (fun p hp => ?_) (fun _ => id) (hinv.holds i t ht) _ rfl rfl
    rwa [(requestCancel_frame hinv.logs).1]
  | thrown a i t t' l c k e cancelling v ha hi hp hthrown hjob hkind hp' hpre hpost =>
    have hown : ∀ {j q}, .releasePorts j q ∈ c.transaction?.toList →
        c = .store (.releasePorts j q) ∧ j = t.job ∧ Live t := by
      intro j q hmem
      cases c with
      | store c =>
        obtain rfl := List.mem_singleton.mp hmem
        exact ⟨rfl, hpre.2.1, by rw [hp]; rfl, hpre.2.2.1⟩
      | _ => cases hmem
    intro j u hu fence hkindu hdone hholding
    obtain ⟨rfl, rfl⟩ | ⟨hne, hu⟩ := getElem?_set_some hu
    · rw [History.setTask_self] at hholding
      obtain ⟨hholding, hrelease⟩ := holding_of_post hpost hholding
      obtain ⟨hports, hnone⟩ := hinv.holds j t hi fence (hkind ▸ hkindu) (by rw [hp]; rfl) hholding
      rw [hjob]
      refine ⟨hports, fun q hq => ?_⟩
      obtain hq | hq := List.mem_append.mp hq
      · exact hnone q hq
      · exact hrelease _ _ (hown hq).1
    · rw [History.setTask_of_ne hne] at hholding
      obtain ⟨hports, hnone⟩ := hinv.holds j u hu fence hkindu hdone hholding
      refine ⟨hports, fun q hq => ?_⟩
      obtain hq | hq := List.mem_append.mp hq
      · exact hnone q hq
      · obtain ⟨-, hjobs, hlive⟩ := hown hq
        exact hne (hinv.live_unique hu hi ⟨hdone, by rw [hkindu]; rfl⟩ hlive hjobs)
  | taskStore i _ t l c k v hi hp hpre hpost =>
    have hconfirm : ∀ ports, c ≠ .confirmPortsAvailable ports := by
      rintro ports rfl
      exact hpre.2
    intro j u hu fence hkindu hdone hholding
    obtain ⟨rfl, rfl⟩ | ⟨hne, hold⟩ := getElem?_set_some hu
    · rw [History.setTask_self] at hholding
      obtain ⟨hholding, hrelease⟩ := holding_of_post hpost hholding
      obtain ⟨hports, hnone⟩ := hinv.holds j t hi fence hkindu (by rw [hp]; rfl) hholding
      refine ⟨fun p g hpg => c.heldBy_exec (hports p g hpg) (fun q hq => ?_) hconfirm, hnone⟩
      exact hrelease _ _ (congrArg Call.store hq)
    · rw [History.setTask_of_ne hne] at hholding
      obtain ⟨hports, hnone⟩ := hinv.holds j u hold fence hkindu hdone hholding
      refine ⟨fun p g hpg => c.heldBy_exec (hports p g hpg) ?_ hconfirm, hnone⟩
      rintro q rfl
      obtain ⟨-, hjobs, hreport, -⟩ := hpre
      exact hne (hinv.live_unique hold hi ⟨hdone, by rw [hkindu]; rfl⟩ ⟨by rw [hp]; rfl, hreport⟩
        hjobs)
  | taskCall i _ t l c k r v hi hp hc _ hpost =>
    intro j u hu fence hkindu hdone hholding
    obtain ⟨rfl, rfl⟩ | ⟨hne, hu⟩ := getElem?_set_some hu
    · rw [History.setTask_self] at hholding
      exact hinv.holds j t hi fence hkindu (by rw [hp]; rfl) (holding_of_post hpost hholding).1
    · rw [History.setTask_of_ne hne] at hholding
      exact hinv.holds j u hu fence hkindu hdone hholding
  | tickStore _ l c k v hserving hp hpre =>
    intro j u hu fence hkindu hdone hholding
    obtain ⟨hports, hnone⟩ := hinv.holds j u hu fence hkindu hdone hholding
    refine ⟨fun p g hpg => c.heldBy_exec (hports p g hpg) ?_ ?_, hnone⟩
    · rintro q rfl
      obtain ⟨-, hinactive, -⟩ := hpre
      exact (hinv.ticking hserving).1.inactive _ hinactive
        ⟨j, hinv.registered j u hu ⟨hdone, by rw [hkindu]; rfl⟩⟩
    · rintro ports rfl
      exact hpre.2
  | tickSpawn _ l job kind k v hserving hp hpre =>
    intro j u hu fence hkindu hdone hholding
    obtain ⟨hu, hne⟩ | ⟨rfl, rfl⟩ := getElem?_concat_some hu
    · rw [show ({ h.setTask s.tasks.length { known := v.known } with tick := v } : History).task j =
        (h.setTask s.tasks.length { known := v.known }).task j from rfl,
        History.setTask_of_ne hne] at hholding
      exact hinv.holds j u hu fence hkindu hdone hholding
    · obtain ⟨hinactive, -, -, -, hgranted⟩ := hpre
      have hfacts := (hinv.ticking hserving).1
      obtain hactive | ⟨huntouched, hports⟩ := hfacts.granted job fence (hgranted fence hkindu).2
      · exact absurd hactive (hfacts.inactive job hinactive)
      · exact ⟨hports, fun q hq => huntouched.late _ hq rfl⟩
  | late n c hn =>
    have hmem := List.mem_of_getElem? hn
    intro j u hu fence hkindu hdone hholding
    obtain ⟨hports, hnone⟩ := hinv.holds j u hu fence hkindu hdone hholding
    refine ⟨fun p g hpg => c.heldBy_exec (hports p g hpg) ?_ ?_,
      fun q hq => hnone q (List.mem_of_mem_eraseIdx hq)⟩
    · rintro q rfl
      exact hnone q hmem
    · rintro ports rfl
      obtain ⟨job, kind, v, -, -, hown, -⟩ := hinv.late _ hmem
      exact hown
  | reportProgress job update completed total =>
    intro j u hu fence hkindu hdone hholding
    obtain ⟨hu, hne⟩ | ⟨rfl, rfl⟩ := getElem?_concat_some hu
    · rw [History.setTask_of_ne hne] at hholding
      exact hinv.holds j u hu fence hkindu hdone hholding
    · cases hkindu
  | recoverStore _ _ _ _ _ hserving =>
    intro i t ht
    rw [(hinv.recovering hserving).1] at ht
    simp at ht
  | crash => exact fun i t ht => by simp at ht
  | _ => exact hinv.holds

theorem step_recovering : s'.serving = false → s'.tasks = [] ∧ s'.active = [] ∧ s'.late = [] ∧
    h'.recover.known.Holds s'.db ∧
    s'.scheduler.Ok recoverContract (fun x v => Recovered x.1 v) h'.recover := by
  intro hserving'
  cases hstep with
  | submit _ _ _ _ _ hserving | requestCancel _ _ _ _ _ hserving
  | reportProgress _ _ _ _ hserving | tick hserving =>
    rw [show s.serving = false from hserving'] at hserving
    cases hserving
  | tickStore _ _ _ _ _ hserving | tickIsActive _ _ _ _ _ hserving | tickDropDone _ _ _ _ hserving
  | tickSpawn _ _ _ _ _ _ hserving | tickCall _ _ _ _ _ _ hserving =>
    rw [show s.serving = false from hserving'] at hserving
    cases hserving
  | serve => cases hserving'
  | ignored | advance => exact hinv.recovering hserving'
  | thrown _ _ _ _ _ _ _ _ _ _ _ hi | taskStore _ _ _ _ _ _ _ hi | taskCall _ _ _ _ _ _ _ _ hi =>
    rw [(hinv.recovering hserving').1] at hi
    simp at hi
  | late _ _ hn =>
    rw [(hinv.recovering hserving').2.2.1] at hn
    simp at hn
  | recoverStore _ l c k v hserving hp hpre hpost hlogs hext hknown =>
    obtain ⟨htasks, hactive, hlate, -, hok⟩ := hinv.recovering hserving
    rw [hp] at hok
    exact ⟨htasks, hactive, hlate, hknown, hok.resume hpost⟩
  | recoverCall _ l c k r v hserving hp hc hpost hknown =>
    obtain ⟨htasks, hactive, hlate, -, hok⟩ := hinv.recovering hserving
    rw [hp] at hok
    exact ⟨htasks, hactive, hlate, hknown, hok.resume hpost⟩
  | crash => exact ⟨rfl, rfl, rfl, Known.holds_empty _, recover_recover rfl⟩

omit hinv hstep in
theorem untouched_exec {j : JobId} {c : StoreCall} (hu : Untouched s j) (hc : c.target ≠ some j)
    (hdb : s'.db = (c.exec s.db).2) (hlate : ∀ c ∈ s'.late, c ∈ s.late) : Untouched s' j where
  early r x hx := by
    rw [hdb] at hx
    obtain hold | ⟨hj, _, _, _, heq⟩ := c.log_of_exec hx
    · exact hu.early r x hold
    · exact absurd (by rw [heq, ← hj]; rfl) hc
  late c' hc' := hu.late c' (hlate c' hc')
  marker := by
    rw [hdb, c.get_markers_of_ne hc]
    exact hu.marker

omit hstep in
/-- A task can write only for an active job, or for one that has been seen running. -/
theorem active_of_own {i : Nat} {t : AgentTask} {l : Site} {c : Call} {k} {c' : StoreCall} {j : JobId}
    (hi : s.tasks[i]? = some t) (hp : t.program = .await l c k)
    (hown : OwnCall t.job t.kind (h.task i) c') (hj : c'.target = some j) :
    Active s j ∨ ¬ Untouched s j := by
  cases hreport : t.kind.isReport with
  | false =>
    obtain rfl := hown.target hj
    exact .inl ⟨i, hinv.registered i t hi ⟨by rw [hp]; rfl, hreport⟩⟩
  | true =>
    refine .inr fun hu => ?_
    cases c' with
    | updateSnapshot s' =>
      obtain rfl : s'.jobId = j := Option.some.inj hj
      obtain ⟨hjob, -, hrunning⟩ := hown
      obtain ⟨-, x, hx, hxjob, hstate⟩ := hrunning hreport
      have hearly := hu.early _ x (by rw [hjob, ← hxjob]; exact (hinv.task i t hi).known x hx)
      rw [hstate] at hearly
      cases hearly
    | releasePorts =>
      rw [hown.2.1] at hreport
      cases hreport
    | saveExecutionMarker m =>
      obtain ⟨-, -, fence, hkind, -⟩ := hown
      rw [hkind] at hreport
      cases hreport
    | deleteExecutionMarker =>
      have hexecute := hown.2
      revert hreport hexecute
      cases t.kind <;> simp [TaskKind.isReport, TaskKind.isExecute]
    | acquirePorts => exact hown.elim
    | _ => cases hj

end Inv

theorem Active.spawn (config : AgentConfig) {s : Agent} {job j : JobId} (kind : TaskKind)
    (hinactive : ¬ Active s job) (h : Active s j) : Active (s.spawn config job kind) j := by
  obtain ⟨i, hmem⟩ := h
  refine ⟨i, List.mem_cons_of_mem _ (List.mem_filter.mpr ⟨hmem, decide_eq_true ?_⟩)⟩
  rintro rfl
  exact hinactive ⟨i, hmem⟩

namespace TickFacts

variable {s s' : Agent} {v v' : TickView}

/-- What the tick knows stays true when other jobs change. -/
theorem mono (hfacts : TickFacts s v) {known : Known} (hknown : known.Holds s'.db)
    (hactive : s'.active = s.active)
    (huntouched : ∀ j, ¬ Active s j → Untouched s j → Untouched s' j ∧
      ∀ p, s.db.leases.HeldBy p j → s'.db.leases.HeldBy p j) :
    TickFacts s' { v with known } := by
  have hiff : ∀ j, Active s' j ↔ Active s j := fun j => by rw [Active, hactive, Active]
  refine ⟨hknown, fun j hj => ?_, fun j hj => ?_, fun j fence hj => ?_⟩
  · rw [hiff]
    exact hfacts.inactive j hj
  · rw [hiff]
    by_cases hj' : Active s j
    · exact .inl hj'
    · exact .inr (huntouched j hj' ((hfacts.untouched j hj).resolve_left hj')).1
  · rw [hiff]
    by_cases hj' : Active s j
    · exact .inl hj'
    · obtain ⟨hu, hports⟩ := (hfacts.granted j fence hj).resolve_left hj'
      obtain ⟨hu', hheld⟩ := huntouched j hj' hu
      exact .inr ⟨hu', fun p g hpg => hheld p (hports p g hpg)⟩

end TickFacts

namespace Inv

variable {config : AgentConfig} {s s' : Agent} {h h' : History} {a : Action}
variable (hinv : Inv s h)
include hinv

/-- A job that is listed without a cancel request, before its execution, is untouched unless it has
an active task. -/
theorem untouched_of_row {j : JobId} {row : JobRow} (hrow : s.db.jobs.get j = some row)
    (hcancel : row.snapshot.cancelRequested = false)
    (hstate : row.snapshot.state.recoverable = true) : Untouched s j := by
  have hran : ¬ Ran s.db j := fun hran => by simp [hran.row hinv.logs hrow] at hstate
  have hflag : ¬ Flagged s.db j := fun hflag => by simp [hflag.row hinv.logs hrow] at hcancel
  refine ⟨fun r x hx => ?_, fun c hc hj => ?_, ?_⟩
  · have hx : x.state.recoverable = true := by
      by_contra hne
      exact hran ⟨r, x, hx, by simpa using hne⟩
    revert hx
    cases x.state <;> decide
  · obtain hr | hf := (hinv.late c hc).touched hj
    · exact hran hr
    · exact hflag hf
  · cases hm : s.db.markers.get j with
    | none => rfl
    | some m => exact absurd (hinv.markers j m hm) hran

/-- A transaction of the tick, and what the tick learns from it. -/
theorem tickStore_facts {l : Site} {c : StoreCall} {r : Except Exc c.Res} {db : Db} {v : TickView}
    (hserving : s.serving = true) (hexec : c.exec s.db = (r, db))
    (hpre : tickContract.pre h.tick l (.store c))
    (hpost : tickContract.post h.tick l (.store c) r v) (hknown : v.known.Holds db)
    (hdb : s'.db = db) (hactive : s'.active = s.active) (hlate : s'.late = s.late) :
    TickFacts s' v := by
  subst hdb
  have hafter : s'.db = (c.exec s.db).2 := (congrArg Prod.snd hexec).symm
  have hfacts := (hinv.ticking hserving).1
  have hiff : ∀ j, Active s' j ↔ Active s j := fun j => by rw [Active, hactive, Active]
  have hmarkers : s'.db.markers = s.db.markers := by
    rw [hafter, StoreCall.exec_markers]
    cases c with
    | saveExecutionMarker | deleteExecutionMarker => exact hpre.2.elim
    | _ => rfl
  -- an untouched job stays so unless the tick moves it on
  have huntouched : ∀ j, Untouched s j → (∀ x e t r, c = .updateSnapshot x e t r → x.jobId = j →
      x.state.early = true) → Untouched s' j := by
    intro j hu hearly
    refine ⟨fun r x hx => ?_, by rw [hlate]; exact hu.late, by rw [hmarkers]; exact hu.marker⟩
    rw [hafter] at hx
    obtain hold | ⟨hj, _, _, _, heq⟩ := c.log_of_exec hx
    · exact hu.early r x hold
    · exact hearly _ _ _ _ heq hj
  have hheld : ∀ j p, (∀ q, c ≠ .releasePorts j q) → s.db.leases.HeldBy p j →
      s'.db.leases.HeldBy p j := by
    intro j p hrelease hp
    rw [hafter]
    refine c.heldBy_exec hp hrelease ?_
    rintro ports rfl
    exact hpre.2
  have hsame : (∀ j, c.target = some j → ∃ ports, c = .acquirePorts j ports) →
      TickFacts s' { h.tick with known := v.known } := by
    intro hread
    refine hfacts.mono hknown hactive fun j _ hu => ⟨huntouched j hu ?_, fun p => hheld j p ?_⟩
    · rintro x e t r rfl -
      obtain ⟨ports, heq⟩ := hread x.jobId rfl
      cases heq
    · rintro q rfl
      obtain ⟨ports, heq⟩ := hread j rfl
      cases heq
  rw [hpost.2.1]
  cases c with
  | getSnapshot job | getDocument job =>
    have hold := hsame fun j hj => by cases hj
    cases r <;> exact hold
  | listNonterminal =>
    obtain ⟨hknown', hinactive, hold, hgranted⟩ := hsame fun j hj => by cases hj
    obtain ⟨rfl, -⟩ := Prod.mk.inj hexec
    refine ⟨hknown', hinactive, fun j hj => ?_, hgranted⟩
    obtain hj | ⟨x, hx, rfl, hcancel, hstate⟩ := hj
    · exact hold j hj
    · obtain ⟨row, hrow, -, rfl⟩ := Db.mem_listNonterminal.mp hx
      have hkey := (hinv.logs.row _ row hrow).2.2.1
      refine .inr (huntouched _ ?_ fun _ _ _ _ heq => by cases heq)
      rw [hkey]
      exact hinv.untouched_of_row hrow hcancel hstate
  | updateSnapshot x expectedRevision eventType resolvedSpecJson =>
    have hearly : ∀ j, Untouched s j → (j = x.jobId → x.state.early = true) → Untouched s' j :=
      fun j hu hj => huntouched j hu fun y e t r heq hyj => by
        obtain ⟨rfl, -⟩ := StoreCall.updateSnapshot.inj heq
        exact hj hyj.symm
    refine ⟨hknown, fun j hj => (hiff j).not.mpr (hfacts.inactive j hj), fun j hj => ?_,
      fun j fence hj => ?_⟩
    · rw [hiff]
      simp only [TickView.next, TickView.wrote] at hj
      split at hj
      · rename_i hstate
        exact (hfacts.untouched j hj).imp_right fun hu => hearly j hu fun _ => hstate
      · exact (hfacts.untouched j hj.1).imp_right fun hu =>
          hearly j hu fun heq => absurd heq hj.2
    · rw [hiff]
      simp only [TickView.next, TickView.wrote] at hj
      split at hj
      · rename_i hstate
        exact (hfacts.granted j fence hj).imp_right fun h =>
          ⟨hearly j h.1 fun _ => hstate,
            fun p g hpg => hheld j p (fun _ heq => by cases heq) (h.2 p g hpg)⟩
      · cases hj
  | acquirePorts job ports =>
    have hold := hsame fun j hj => ⟨ports, by cases hj; rfl⟩
    obtain e | _ | fence := r
    · exact hold
    · exact hold
    · refine ⟨hold.known, hold.inactive, hold.untouched, fun j fence' hj => ?_⟩
      obtain ⟨rfl, rfl⟩ := Prod.mk.inj (Option.some.inj hj)
      obtain ⟨-, hinactive, -, hmem⟩ := hpre
      have hu := (hfacts.untouched job hmem).resolve_left (hfacts.inactive job hinactive)
      refine .inr ⟨huntouched job hu fun _ _ _ _ heq => (by cases heq), fun p g hpg => ?_⟩
      have hgranted := congrArg Prod.fst hexec
      rw [hafter, StoreCall.exec_leases]
      refine Leases.heldBy_of_granted ?_ hpg
      simp only [StoreCall.exec] at hgranted
      generalize (s.db.leases.acquirePorts job ports).1 = y at hgranted ⊢
      cases y with
      | error e => cases hgranted
      | ok f =>
        cases hgranted
        rfl
  | releasePorts job quarantine =>
    refine ⟨hknown, fun j hj => (hiff j).not.mpr (hfacts.inactive j hj), fun j hj => ?_, ?_⟩
    · rw [hiff]
      have hkeep : ∀ j, Untouched s j → Untouched s' j := fun j hu =>
        huntouched j hu fun _ _ _ _ heq => by cases heq
      cases r <;> exact (hfacts.untouched j hj).imp_right (hkeep j)
    · cases r <;> rintro _ _ ⟨⟩
  | _ => exact hpre.2.elim

theorem step_ticking (hstep : Step config s h a s' h') : s'.serving = true →
    TickFacts s' h'.tick ∧ s'.scheduler.Ok tickContract (fun _ v => v.owing = none) h'.tick := by
  intro hserving'
  -- a transaction of a task, or one that is left over
  have hexec : ∀ {c : StoreCall}, s.serving = true → s'.db = (c.exec s.db).2 →
      s'.active = s.active → (∀ c ∈ s'.late, c ∈ s.late) → s.db.Extends (c.exec s.db).2 →
      (∀ ports, c ≠ .confirmPortsAvailable ports) →
      (∀ j, ¬ Active s j → Untouched s j → c.target ≠ some j) → TickFacts s' h.tick := by
    intro c hserving hdb hactive hlate hext hconfirm htarget
    have hfacts := (hinv.ticking hserving).1
    refine hfacts.mono (hdb ▸ hfacts.known.extends hext) hactive fun j hj hu => ?_
    refine ⟨untouched_exec hu (htarget j hj hu) hdb hlate, fun p hp => ?_⟩
    rw [hdb]
    refine c.heldBy_exec hp (fun q hq => ?_) hconfirm
    exact htarget j hj hu (by rw [hq]; rfl)
  cases hstep with
  | submit _ _ _ _ _ hserving =>
    obtain ⟨hfacts, hok⟩ := hinv.ticking hserving
    obtain ⟨hlogs, hext⟩ := submit_written hinv.logs ..
    obtain ⟨hleases, hmarkers, hlog⟩ := submit_frame ..
    refine ⟨hfacts.mono (hfacts.known.extends hext) rfl fun j _ hu => ⟨⟨fun r x hx => ?_, hu.late, ?_⟩,
      fun p hp => ?_⟩, hok⟩
    · obtain hold | hstate := hlog j r x hx
      · exact hu.early r x hold
      · rw [hstate]
        rfl
    · rw [hmarkers]
      exact hu.marker
    · rwa [hleases]
  | requestCancel _ _ _ _ _ hserving =>
    obtain ⟨hfacts, hok⟩ := hinv.ticking hserving
    obtain ⟨hlogs, hext⟩ := requestCancel_written hinv.logs ..
    obtain ⟨hleases, hmarkers, hlog⟩ := requestCancel_frame hinv.logs ..
    refine ⟨hfacts.mono (hfacts.known.extends hext) rfl fun j _ hu => ⟨⟨fun r x hx => ?_, hu.late, ?_⟩,
      fun p hp => ?_⟩, hok⟩
    · obtain hold | ⟨r', y, hy, hstate⟩ := hlog j r x hx
      · exact hu.early r x hold
      · rw [hstate]
        exact hu.early r' y hy
    · rw [hmarkers]
      exact hu.marker
    · rwa [hleases]
  | thrown a i t t' l c k e cancelling v ha hi hp hthrown hjob hkind hp' hpre =>
    obtain ⟨hfacts, hok⟩ := hinv.ticking hserving'
    refine ⟨hfacts.mono hfacts.known rfl fun j hj hu => ⟨⟨hu.early, fun c' hc' => ?_, hu.marker⟩,
      fun _ => id⟩, hok⟩
    obtain hc' | hc' := List.mem_append.mp hc'
    · exact hu.late c' hc'
    · cases c with
      | store c =>
        obtain rfl := List.mem_singleton.mp hc'
        intro htarget
        obtain hactive | hne := hinv.active_of_own hi hp hpre.2 htarget
        · exact hj hactive
        · exact hne hu
      | _ => cases hc'
  | taskStore i _ t l c k v hi hp hpre hpost hlogs hext =>
    refine ⟨hexec hserving' rfl rfl (fun _ => id) hext ?_ fun j hj hu htarget => ?_,
      (hinv.ticking hserving').2⟩
    · rintro ports rfl
      exact hpre.2
    · obtain hactive | hne := hinv.active_of_own hi hp hpre.2 htarget
      · exact hj hactive
      · exact hne hu
  | late n c hn hlogs hext =>
    have hmem := List.mem_of_getElem? hn
    refine ⟨hexec hserving' rfl rfl (fun c hc => List.mem_of_mem_eraseIdx hc) hext ?_
      fun j _ hu => hu.late c hmem, (hinv.ticking hserving').2⟩
    rintro ports rfl
    obtain ⟨job, kind, v, -, -, hown, -⟩ := hinv.late _ hmem
    exact hown
  | tickStore _ l c k v hserving hp hpre hpost hlogs hext hknown =>
    have hok := (hinv.ticking hserving).2
    rw [hp] at hok
    exact ⟨hinv.tickStore_facts hserving rfl hpre hpost hknown rfl rfl rfl, hok.resume hpost⟩
  | tickIsActive _ l job k v hserving hp hpost hknown =>
    obtain ⟨hfacts, hok⟩ := hinv.ticking hserving
    rw [hp] at hok
    refine ⟨?_, hok.resume hpost⟩
    rw [hpost.2.1]
    have hsame : ∀ {scheduler}, TickFacts { s with scheduler } { h.tick with known := v.known } :=
      hfacts.mono hknown rfl fun j _ hu => ⟨⟨hu.early, hu.late, hu.marker⟩, fun _ => id⟩
    generalize hactive : (s.active.any fun a => decide (a.1 = job)) = active
    cases active with
    | true => exact hsame
    | false =>
      refine ⟨hsame.known, fun j hj => ?_, hsame.untouched, hsame.granted⟩
      obtain rfl | hj := hj
      · rintro ⟨i, hmem⟩
        have hany := List.any_eq_false.mp hactive _ hmem
        simp at hany
      · exact hsame.inactive j hj
  | tickDropDone _ l k v hserving hp hpost hknown =>
    obtain ⟨hfacts, hok⟩ := hinv.ticking hserving
    rw [hp] at hok
    refine ⟨?_, hok.resume hpost⟩
    rw [hpost.2.1]
    refine ⟨hknown, fun j hj => ?_, nofun, nofun⟩
    rintro ⟨i, hmem⟩
    exact hfacts.inactive j hj ⟨i, List.mem_of_mem_filter hmem⟩
  | tickSpawn _ l job kind k v hserving hp hpre hpost hknown =>
    obtain ⟨hfacts, hok⟩ := hinv.ticking hserving
    rw [hp] at hok
    refine ⟨?_, hok.resume hpost⟩
    rw [hpost.2.1]
    have hinactive := hfacts.inactive job hpre.1
    have hgrow : ∀ j, Active s j → Active { s.spawn config job kind with scheduler := k (.ok ()) } j :=
      fun j => Active.spawn config kind hinactive
    refine ⟨hknown, fun j hj => ?_, fun j hj => ?_, fun j fence hj => ?_⟩
    · rintro ⟨i, hmem⟩
      obtain heq | hmem := List.mem_cons.mp hmem
      · exact hj.2 (Prod.mk.inj heq).1
      · exact hfacts.inactive j hj.1 ⟨i, List.mem_of_mem_filter hmem⟩
    · exact (hfacts.untouched j hj).imp (hgrow j) fun hu => ⟨hu.early, hu.late, hu.marker⟩
    · exact (hfacts.granted j fence hj).imp (hgrow j) fun hu =>
        ⟨⟨hu.1.early, hu.1.late, hu.1.marker⟩, hu.2⟩
  | tickCall _ l c k r v hserving hp hc hactive hdrop hspawn hpost hknown =>
    obtain ⟨hfacts, hok⟩ := hinv.ticking hserving
    rw [hp] at hok
    refine ⟨?_, hok.resume hpost⟩
    have hnext : h.tick.next l c r = h.tick := by
      cases c with
      | store c => cases hc
      | isActive job => exact absurd rfl (hactive job)
      | dropDone => exact absurd rfl hdrop
      | spawn job kind => exact absurd rfl (hspawn job kind)
      | _ => rfl
    rw [hpost.2.1, hnext]
    exact hfacts.mono hknown rfl fun j _ hu => ⟨⟨hu.early, hu.late, hu.marker⟩, fun _ => id⟩
  | serve x hserving hp =>
    refine ⟨⟨Known.holds_empty _, nofun, nofun, nofun⟩, ?_⟩
    rw [hp]
    rfl
  | tick hserving hdone =>
    obtain ⟨hfacts, hok⟩ := hinv.ticking hserving
    refine ⟨hfacts.mono hfacts.known rfl fun j _ hu => ⟨⟨hu.early, hu.late, hu.marker⟩, fun _ => id⟩,
      ?_⟩
    cases hp : s.scheduler with
    | ret x =>
      rw [hp] at hok
      exact tick_tick config (by decide) hok
    | await l c k =>
      rw [hp] at hdone
      cases hdone
  | taskCall | ignored | reportProgress | advance =>
    obtain ⟨hfacts, hok⟩ := hinv.ticking hserving'
    exact ⟨hfacts.mono hfacts.known rfl fun j _ hu => ⟨⟨hu.early, hu.late, hu.marker⟩, fun _ => id⟩,
      hok⟩
  | recoverStore _ _ _ _ _ hserving | recoverCall _ _ _ _ _ _ hserving =>
    rw [show s.serving = true from hserving'] at hserving
    cases hserving
  | crash => cases hserving'

/-- Every step keeps the invariant. -/
theorem step (hstep : Step config s h a s' h') : Inv s' h' where
  logs := (hinv.step_logs hstep).1
  leases := hinv.step_leases hstep
  markers := hinv.step_markers hstep
  late := hinv.step_late hstep
  task := hinv.step_task hstep
  holds := hinv.step_holds hstep
  registered := hinv.step_registered hstep
  keys := hinv.step_keys hstep
  pointed := hinv.step_pointed hstep
  recovering := hinv.step_recovering hstep
  ticking := hinv.step_ticking hstep

end Inv

/-- The views at the first start. -/
def History.init : History := ⟨fun _ => {}, {}, {}⟩

theorem Inv.init (logicalPorts : List PortId) : Inv (Agent.init logicalPorts) History.init where
  logs := Db.logged_empty.of_eq rfl rfl
  leases := by
    intro p r hr
    rw [show (Agent.init logicalPorts).db.leases = Leases.insertPorts .empty logicalPorts from rfl,
      Leases.get_insertPorts] at hr
    split at hr
    · exact Option.some.inj hr ▸ Leases.RowWf.fresh p
    · cases hr
  markers j m hm := by simp [Agent.init, Db.empty] at hm
  late c hc := by simp [Agent.init] at hc
  task i t ht := by simp [Agent.init] at ht
  holds i t ht := by simp [Agent.init] at ht
  registered i t ht := by simp [Agent.init] at ht
  keys := List.nodup_nil
  pointed j i hmem := by simp [Agent.init] at hmem
  recovering _ := ⟨rfl, rfl, rfl, Known.holds_empty _, recover_recover rfl⟩
  ticking hserving := by simp [Agent.init] at hserving

/-- The rule for runs: what holds at the first start and is kept by every step that meets `C` holds
in every reachable state, with some views of the coroutines. -/
theorem Agent.Reach.inv {config : AgentConfig} {C : Agent → Action → Prop}
    {L : Agent → History → Prop} {logicalPorts : List PortId}
    (hinit : L (Agent.init logicalPorts) History.init)
    (hstep : ∀ s h a s' h', Inv s h → Inv s' h' → L s h → C s a → Step config s h a s' h' → L s' h')
    {s : Agent} (hs : Agent.Reach config C logicalPorts s) : ∃ h, Inv s h ∧ L s h := by
  induction hs with
  | init => exact ⟨_, Inv.init logicalPorts, hinit⟩
  | step _ hc hs ih =>
    obtain ⟨h, hinv, hl⟩ := ih
    obtain ⟨h', hstep'⟩ := step_traced hinv hs
    exact ⟨h', hinv.step hstep', hstep _ _ _ _ _ hinv (hinv.step hstep') hl hc hstep'⟩

end TrexCli
