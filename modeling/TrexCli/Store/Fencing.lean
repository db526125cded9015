import Mathlib.Data.List.Induction
import TrexCli.Store.Leases

/-!
# Fencing and quarantine over restarts

A history of the lease table: the three lease operations, and restarts through `_initialize_sync`
with any configured ports. The generation of a port and its quarantine mark live in its row, and a
restart deletes the rows of removed ports. So `FencedHistory`, what fencing and quarantine are for,
holds of exactly the histories in which no restart brings back a port that has been used, and no
failing restart names a port without a row (`Steady`).
-/

namespace TrexCli

/-- An operation on the lease table; `restart` is `SqliteStore.initialize`. -/
inductive LeaseOp where
  | acquirePorts (job : JobId) (ports : List PortId)
  | releasePorts (job : JobId) (quarantine : Bool)
  | confirmPortsAvailable (ports : List PortId)
  | restart (logicalPorts : List PortId)

namespace LeaseOp

/-- The table after the operation. -/
def exec (t : Leases) : LeaseOp → Leases
  | acquirePorts job ports => (t.acquirePorts job ports).2
  | releasePorts job quarantine => t.releasePorts job quarantine
  | confirmPortsAvailable ports => t.confirmPortsAvailable ports
  | restart logicalPorts => (t.initializeSync logicalPorts).2

/-- What the operation grants: the fence it returns, without the ports the job held before. -/
def grants (t : Leases) : LeaseOp → Fence
  | acquirePorts job ports =>
    match (t.acquirePorts job ports).1 with
    | .ok (some fence) => fence.filter fun g => ((t.get g.1).bind PortLease.jobId).isNone
    | _ => []
  | _ => []

/-- Everything an operation can do to the row of a port. -/
inductive RowStep (t : Leases) (op : LeaseOp) (p : PortId) :
    Option PortLease → Option PortLease → Prop where
  | same (o : Option PortLease) : RowStep t op p o o
  | granted (job : JobId) (ports : List PortId) (hop : op = .acquirePorts job ports)
      (r : PortLease) (hj : r.jobId = none) (hq : r.status ≠ .quarantined) :
      RowStep t op p (some r) (some (r.grant job))
  | released (job : JobId) (quarantine : Bool) (r : PortLease) (hj : r.jobId = some job) :
      RowStep t op p (some r) (some (r.close (if quarantine then .quarantined else .available)))
  | confirmed (ports : List PortId) (hop : op = .confirmPortsAvailable ports) (hp : p ∈ ports)
      (r : PortLease) : RowStep t op p (some r) (some (r.close .available))
  | inserted (ports : List PortId) (hop : op = .restart ports) (hp : p ∈ ports) :
      RowStep t op p none (some { portId := p })
  | deleted (ports : List PortId) (hop : op = .restart ports) (r : PortLease) :
      RowStep t op p (some r) none

theorem exec_row (t : Leases) (op : LeaseOp) (p : PortId) :
    RowStep t op p (t.get p) ((op.exec t).get p) := by
  cases op with
  | acquirePorts job ports =>
    have hcase := t.acquirePorts_cases job ports
    simp only [exec]
    generalize t.acquirePorts job ports = x at hcase
    cases hcase with
    | unconfigured | quarantined | busy => exact .same _
    | granted fence t' hfree hget =>
      rw [hget]
      cases hr : t.get p with
      | none => exact .same _
      | some r =>
        rw [Option.map_some]
        split_ifs with hp
        · obtain ⟨r', hr', hq, hj | hj⟩ := hfree p hp
          · obtain rfl := Option.some.inj (hr.symm.trans hr')
            exact .granted job ports rfl r hj hq
          · obtain rfl := Option.some.inj (hr.symm.trans hr')
            rw [PortLease.grant_of_held (by simp [hj])]
            exact .same _
        · exact .same _
  | releasePorts job quarantine =>
    rw [exec, Leases.get_releasePorts]
    cases hr : t.get p with
    | none => exact .same _
    | some r =>
      rw [Option.map_some]
      by_cases hj : r.jobId = some job
      · rw [if_pos hj]
        exact .released job quarantine r hj
      · rw [if_neg hj]
        exact .same _
  | confirmPortsAvailable ports =>
    rw [exec, Leases.get_confirmPortsAvailable]
    cases hr : t.get p with
    | none => exact .same _
    | some r =>
      rw [Option.map_some]
      split_ifs with hp
      · exact .confirmed ports rfl hp r
      · exact .same _
  | restart ports =>
    have hcase := t.initializeSync_cases ports
    simp only [exec]
    generalize t.initializeSync ports = x at hcase
    cases hcase with
    | failed =>
      rw [Leases.get_insertPorts]
      cases hr : t.get p with
      | none =>
        split_ifs with hp
        · exact .inserted ports rfl hp
        · exact .same _
      | some r =>
        split_ifs
        · exact .same _
        · exact .same _
    | done t' _ hget =>
      rw [hget]
      cases hr : t.get p with
      | none =>
        split_ifs with hp
        · exact .inserted ports rfl hp
        · exact .same _
      | some r =>
        split_ifs
        · exact .same _
        · exact .deleted ports rfl r

theorem Wf.exec {t : Leases} (h : t.Wf) (op : LeaseOp) : (op.exec t).Wf := by
  cases op with
  | acquirePorts job ports => exact h.acquirePorts job ports
  | releasePorts job quarantine => exact h.releasePorts job quarantine
  | confirmPortsAvailable ports => exact h.confirmPortsAvailable ports
  | restart ports => exact h.initializeSync ports

theorem mem_grants {t : Leases} {op : LeaseOp} {p : PortId} {g : Nat} (h : (p, g) ∈ op.grants t) :
    ∃ r r', t.get p = some r ∧ (op.exec t).get p = some r' ∧ r.generation < g ∧
      r'.generation = g := by
  cases op with
  | acquirePorts job ports =>
    have hcase := t.acquirePorts_cases job ports
    simp only [grants, exec] at h ⊢
    generalize t.acquirePorts job ports = x at h hcase
    cases hcase with
    | unconfigured | quarantined | busy => cases h
    | granted fence t' _ hget _ hfence =>
      obtain ⟨hmem, hfree⟩ := List.mem_filter.mp h
      obtain ⟨hp, r, hr, rfl⟩ := (hfence p g).mp hmem
      have hj : r.jobId = none := by simpa [hr] using hfree
      refine ⟨r, r.grant job, hr, by simp [hget, hr, hp], ?_, rfl⟩
      rw [PortLease.grant_of_free hj]
      exact Nat.lt_succ_self _
  | releasePorts | confirmPortsAvailable | restart => cases h

theorem nodup_grants (t : Leases) (op : LeaseOp) : (op.grants t).Nodup := by
  cases op with
  | acquirePorts job ports =>
    have hcase := t.acquirePorts_cases job ports
    simp only [grants]
    generalize t.acquirePorts job ports = x at hcase
    cases hcase with
    | unconfigured | quarantined | busy => exact List.nodup_nil
    | granted fence t' _ _ hnodup => exact (hnodup.of_map).filter _
  | releasePorts | confirmPortsAvailable | restart => exact List.nodup_nil

end LeaseOp

/-- The lease table after a history that starts with a new database. -/
def leasesAfter (ops : List LeaseOp) : Leases := ops.foldl LeaseOp.exec .empty

/-- The grants of a history, from a table on. -/
def grantsFrom (t : Leases) : List LeaseOp → Fence
  | [] => []
  | op :: ops => op.grants t ++ grantsFrom (op.exec t) ops

@[simp] theorem leasesAfter_nil : leasesAfter [] = .empty := rfl

@[simp] theorem leasesAfter_concat (ops : List LeaseOp) (op : LeaseOp) :
    leasesAfter (ops ++ [op]) = op.exec (leasesAfter ops) := by
  simp [leasesAfter]

theorem grantsFrom_append (t : Leases) (ops ops' : List LeaseOp) :
    grantsFrom t (ops ++ ops') = grantsFrom t ops ++ grantsFrom (ops.foldl LeaseOp.exec t) ops' := by
  induction ops generalizing t with
  | nil => rfl
  | cons op ops ih => simp [grantsFrom, ih]

theorem grantsFrom_concat (ops : List LeaseOp) (op : LeaseOp) :
    grantsFrom .empty (ops ++ [op]) = grantsFrom .empty ops ++ op.grants (leasesAfter ops) := by
  simp [grantsFrom_append, grantsFrom, leasesAfter]

theorem wf_leasesAfter (ops : List LeaseOp) : (leasesAfter ops).Wf := by
  induction ops using List.reverseRecOn with
  | nil => intro p r hr; cases hr
  | append_singleton ops op ih => rw [leasesAfter_concat]; exact LeaseOp.Wf.exec ih op

/-- What fencing and quarantine promise of a history. -/
structure FencedHistory (ops : List LeaseOp) : Prop where
  /-- The generation of a port never decreases. -/
  monotone : ∀ earlier later, earlier <+: later → later <+: ops → ∀ p r r',
    (leasesAfter earlier).get p = some r → (leasesAfter later).get p = some r' →
      r.generation ≤ r'.generation
  /-- No port is granted twice at one generation. -/
  once : (grantsFrom .empty ops).Nodup
  /-- A quarantined port that is available later has been confirmed in between. -/
  confirmed : ∀ earlier between, earlier ++ between <+: ops → ∀ p r r',
    (leasesAfter earlier).get p = some r → r.status = .quarantined →
    (leasesAfter (earlier ++ between)).get p = some r' → r'.status = .available →
      ∃ ports, .confirmPortsAvailable ports ∈ between ∧ p ∈ ports
  /-- A restart that fails leaves the table as it was. -/
  unchanged : ∀ before ports, before ++ [.restart ports] <+: ops →
    ∀ e, ((leasesAfter before).initializeSync ports).1 = .error e →
      ((leasesAfter before).initializeSync ports).2 = leasesAfter before

/-- After `before`, the operation is no restart that brings back a port which had a generation, and
no restart that will fail and names a port without a row. -/
def Keeps (before : List LeaseOp) : LeaseOp → Prop
  | .restart ports =>
    (∀ p ∈ ports, (leasesAfter before).get p = none →
      ∀ earlier, earlier <+: before → ∀ r, (leasesAfter earlier).get p = some r →
        r.generation = 0) ∧
    ((leasesAfter before).Busy ports → ∀ p ∈ ports, (leasesAfter before).get p ≠ none)
  | _ => True

/-- Every operation of the history keeps the rows that fencing needs. -/
def Steady (ops : List LeaseOp) : Prop := ∀ before op, before ++ [op] <+: ops → Keeps before op

/-- A port that has had a generation loses its row or keeps the generation, and its quarantine mark
until it is confirmed. -/
theorem Steady.row_kept {ops earlier between : List LeaseOp} (h : Steady ops)
    (hpre : earlier ++ between <+: ops) {p : PortId} {r : PortLease}
    (hr : (leasesAfter earlier).get p = some r) (hgen : 0 < r.generation) :
    (leasesAfter (earlier ++ between)).get p = none ∨
      ∃ r', (leasesAfter (earlier ++ between)).get p = some r' ∧ r.generation ≤ r'.generation ∧
        (r.status = .quarantined → r'.status = .quarantined ∨
          ∃ ports, .confirmPortsAvailable ports ∈ between ∧ p ∈ ports) := by
  induction between using List.reverseRecOn with
  | nil =>
    rw [List.append_nil]
    exact .inr ⟨r, hr, le_rfl, .inl⟩
  | append_singleton between op ih =>
    rw [← List.append_assoc] at hpre ⊢
    have hkeeps : Keeps (earlier ++ between) op := h _ _ hpre
    have hwf := wf_leasesAfter (earlier ++ between) p
    have ih := ih ((List.prefix_append _ _).trans hpre)
    rw [leasesAfter_concat]
    have hstep := LeaseOp.exec_row (leasesAfter (earlier ++ between)) op p
    generalize ho : (leasesAfter (earlier ++ between)).get p = o at hstep ih hwf
    generalize (op.exec (leasesAfter (earlier ++ between))).get p = o' at hstep ⊢
    have hlater : ∀ ports, .confirmPortsAvailable ports ∈ between →
        LeaseOp.confirmPortsAvailable ports ∈ between ++ [op] :=
      fun ports hmem => List.mem_append_left _ hmem
    obtain rfl | ⟨r₁, rfl, hle, hq⟩ := ih
    · cases hstep with
      | same => exact .inl rfl
      | inserted ports hop hp =>
        subst hop
        have hzero := hkeeps.1 p hp ho earlier (List.prefix_append _ _) r hr
        omega
    · cases hstep with
      | same =>
        refine .inr ⟨r₁, rfl, hle, fun hs => (hq hs).imp_right ?_⟩
        exact fun ⟨ports, hmem, hp⟩ => ⟨ports, hlater ports hmem, hp⟩
      | granted job ports hop _ hj hnq =>
        refine .inr ⟨_, rfl, ?_, fun hs => .inr ?_⟩
        · rw [PortLease.grant_of_free hj]
          exact hle.trans (Nat.le_succ _)
        · obtain ⟨ports, hmem, hp⟩ := (hq hs).resolve_left hnq
          exact ⟨ports, hlater ports hmem, hp⟩
      | released job quarantine _ hj =>
        refine .inr ⟨_, rfl, hle, fun hs => .inr ?_⟩
        -- a quarantined row has no job, so no release touches it
        have hleased : r₁.status = .leased := (hwf r₁ rfl).held.mpr (by simp [hj])
        obtain ⟨ports, hmem, hp⟩ := (hq hs).resolve_left (by rw [hleased]; decide)
        exact ⟨ports, hlater ports hmem, hp⟩
      | confirmed ports hop hp =>
        subst hop
        exact .inr ⟨_, rfl, hle, fun _ => .inr ⟨ports, by simp, hp⟩⟩
      | deleted => exact .inl rfl

theorem Steady.generation_le {ops earlier later : List LeaseOp} (h : Steady ops)
    (hel : earlier <+: later) (hlo : later <+: ops) {p : PortId} {r r' : PortLease}
    (hr : (leasesAfter earlier).get p = some r) (hr' : (leasesAfter later).get p = some r') :
    r.generation ≤ r'.generation := by
  obtain ⟨between, rfl⟩ := hel
  obtain hzero | hpos := Nat.eq_zero_or_pos r.generation
  · omega
  · obtain hnone | ⟨r₁, hr₁, hle, -⟩ := h.row_kept hlo hr hpos
    · rw [hnone] at hr'
      cases hr'
    · obtain rfl := Option.some.inj (hr'.symm.trans hr₁)
      exact hle

/-- A grant leaves its generation in the row of its port. -/
theorem row_of_mem_grants {ops : List LeaseOp} {p : PortId} {g : Nat}
    (h : (p, g) ∈ grantsFrom .empty ops) :
    ∃ earlier r, earlier <+: ops ∧ (leasesAfter earlier).get p = some r ∧ r.generation = g := by
  induction ops using List.reverseRecOn with
  | nil => cases h
  | append_singleton ops op ih =>
    rw [grantsFrom_concat] at h
    obtain hold | hnew := List.mem_append.mp h
    · obtain ⟨earlier, r, hpre, hr, hg⟩ := ih hold
      exact ⟨earlier, r, hpre.trans (List.prefix_append _ _), hr, hg⟩
    · obtain ⟨-, r', -, hr', -, hg⟩ := LeaseOp.mem_grants hnew
      exact ⟨ops ++ [op], r', List.prefix_rfl, by rwa [leasesAfter_concat], hg⟩

theorem Steady.nodup_grants {ops : List LeaseOp} (h : Steady ops) :
    (grantsFrom .empty ops).Nodup := by
  induction ops using List.reverseRecOn with
  | nil => exact List.nodup_nil
  | append_singleton ops op ih =>
    have hops : ops <+: ops ++ [op] := List.prefix_append _ _
    have hold : (grantsFrom .empty ops).Nodup := ih fun before op' hb => h before op' (hb.trans hops)
    rw [grantsFrom_concat]
    refine List.nodup_append.mpr ⟨hold, LeaseOp.nodup_grants _ op, ?_⟩
    rintro ⟨p, g⟩ hmem _ hnew rfl
    obtain ⟨earlier, r, hpre, hr, rfl⟩ := row_of_mem_grants hmem
    obtain ⟨r₀, -, hr₀, -, hlt, -⟩ := LeaseOp.mem_grants hnew
    have hle := h.generation_le hpre hops hr hr₀
    omega

theorem FencedHistory.keeps {ops before : List LeaseOp} {ports : List PortId}
    (h : FencedHistory ops) (hop : before ++ [.restart ports] <+: ops) :
    Keeps before (.restart ports) := by
  constructor
  · intro p hp hnone earlier hpre r hr
    have hrow : (leasesAfter (before ++ [.restart ports])).get p = some { portId := p } := by
      rw [leasesAfter_concat, LeaseOp.exec, Leases.get_initializeSync_of_mem _ hp, hnone]
      rfl
    have hle := h.monotone earlier _ (hpre.trans (List.prefix_append _ _)) hop p r _ hr hrow
    exact Nat.le_zero.mp hle
  · intro hbusy p hp hnone
    have hsame : (leasesAfter before).insertPorts ports = leasesAfter before := by
      have hunchanged := h.unchanged before ports hop
      rw [Leases.initializeSync_of_busy hbusy] at hunchanged
      exact hunchanged _ rfl
    have hrow := Leases.get_insertPorts (leasesAfter before) ports p
    rw [hsame, if_pos hp, hnone] at hrow
    cases hrow

/-- Fencing and quarantine survive a history of operations and restarts exactly when no restart
brings back a port that has been used, or fails after it has inserted a port. -/
theorem fencedHistory_iff_steady (ops : List LeaseOp) : FencedHistory ops ↔ Steady ops := by
  constructor
  · intro h before op hop
    cases op with
    | acquirePorts | releasePorts | confirmPortsAvailable => exact trivial
    | restart ports => exact h.keeps hop
  · intro h
    refine ⟨fun _ _ hel hlo _ _ _ => h.generation_le hel hlo, h.nodup_grants, ?_, ?_⟩
    · intro earlier between hpre p r r' hr hq hr' ha
      have hgen := (wf_leasesAfter earlier p r hr).fenced (by rw [hq]; decide)
      obtain hnone | ⟨r₁, hr₁, -, hkept⟩ := h.row_kept hpre hr hgen
      · rw [hnone] at hr'
        cases hr'
      · obtain rfl := Option.some.inj (hr'.symm.trans hr₁)
        exact (hkept hq).resolve_left (by rw [ha]; decide)
    · intro before ports hpre e he
      have hbusy := Leases.busy_of_initializeSync he
      rw [Leases.initializeSync_of_busy hbusy]
      exact Leases.insertPorts_eq_self ((h before _ hpre).2 hbusy)

/-- Port 0 is used by job 7 and quarantined, removed from the configuration and added back: its
generation falls from 1 to 0 and its quarantine is gone. A restart that fails because port 0 is
leased leaves the new port 2 in the table. -/
theorem not_fencedHistory_readded :
    ¬ FencedHistory [.restart [0, 1], .acquirePorts 7 [0], .releasePorts 7 true, .restart [1],
      .restart [0, 1]] ∧
    ¬ FencedHistory [.restart [0, 1], .acquirePorts 7 [0], .restart [1, 2]] := by
  constructor
  · intro h
    have hle := h.monotone [.restart [0, 1], .acquirePorts 7 [0], .releasePorts 7 true]
      [.restart [0, 1], .acquirePorts 7 [0], .releasePorts 7 true, .restart [1], .restart [0, 1]]
      ⟨[.restart [1], .restart [0, 1]], rfl⟩ List.prefix_rfl 0 { portId := 0, generation := 1, status := .quarantined }
      { portId := 0 } (by decide) (by decide)
    exact absurd hle (by decide)
  · intro h
    have hsame := h.unchanged [.restart [0, 1], .acquirePorts 7 [0]] [1, 2] List.prefix_rfl _ rfl
    exact absurd (congrArg (fun t => (t.get 2).isSome) hsame) (by decide)

end TrexCli
