import Mathlib.Data.List.Sort
import TrexCli.Models
import TrexCli.Lib.Table

/-!
# The port lease table

`port_leases` and the statements of `SqliteStore` on it: acquiring, releasing, confirming, and the
reconciliation with the configured ports that `_initialize_sync` does at startup. A row carries the
fencing generation of its port and the quarantine mark, so both live exactly as long as the row.
-/

namespace TrexCli

/-- `port_leases.status` -/
inductive PortStatus where
  | available | leased | quarantined
  deriving DecidableEq, Repr

/-- A row of `port_leases`, with the column defaults. -/
structure PortLease where
  portId : PortId
  jobId : Option JobId := none
  generation : Nat := 0
  status : PortStatus := .available
  deriving DecidableEq, Repr

abbrev Leases := Table PortId PortLease PortLease.portId

/-- `sorted(set(ports))` -/
def sortedSet (ports : List PortId) : List PortId := ports.dedup.insertionSort (· ≤ ·)

@[simp] theorem mem_sortedSet {p : PortId} {ports : List PortId} :
    p ∈ sortedSet ports ↔ p ∈ ports := by
  simp [sortedSet]

theorem nodup_sortedSet (ports : List PortId) : (sortedSet ports).Nodup :=
  (List.perm_insertionSort _ _).nodup_iff.mpr ports.nodup_dedup

namespace PortLease

/-- The row after its port is granted to `job`; a port the job holds already keeps its grant. -/
def grant (job : JobId) (r : PortLease) : PortLease :=
  if r.jobId = none then
    { r with jobId := some job, generation := r.generation + 1, status := .leased }
  else r

/-- The row after the lease ends with the given status. -/
def close (status : PortStatus) (r : PortLease) : PortLease :=
  { r with jobId := none, status := status }

@[simp] theorem grant_portId (job : JobId) (r : PortLease) : (r.grant job).portId = r.portId := by
  unfold grant
  split <;> rfl

@[simp] theorem close_portId (status : PortStatus) (r : PortLease) :
    (r.close status).portId = r.portId := rfl

@[simp] theorem close_jobId (status : PortStatus) (r : PortLease) :
    (r.close status).jobId = none := rfl

@[simp] theorem close_status (status : PortStatus) (r : PortLease) :
    (r.close status).status = status := rfl

@[simp] theorem close_generation (status : PortStatus) (r : PortLease) :
    (r.close status).generation = r.generation := rfl

theorem grant_of_held {job : JobId} {r : PortLease} (h : r.jobId ≠ none) : r.grant job = r :=
  if_neg h

theorem grant_of_free {job : JobId} {r : PortLease} (h : r.jobId = none) :
    r.grant job =
      { r with jobId := some job, generation := r.generation + 1, status := .leased } :=
  if_pos h

end PortLease

namespace Leases

/-- Change the rows `p` selects. -/
def updateWhere (t : Leases) (p : PortLease → Bool) (f : PortLease → PortLease)
    (hf : ∀ r, (f r).portId = r.portId) : Leases :=
  t.update (fun r => if p r then f r else r) fun r => by
    split
    · exact hf r
    · rfl

@[simp] theorem get_updateWhere (t : Leases) (p : PortLease → Bool) (f : PortLease → PortLease)
    (hf : ∀ r, (f r).portId = r.portId) (q : PortId) :
    (t.updateWhere p f hf).get q = (t.get q).map fun r => if p r then f r else r := by
  simp [updateWhere]

def notConfigured : TrexCliError where
  code := "CAPABILITY_MISMATCH"
  message := "one or more logical ports are not configured"
  category := "RESOURCE"

def quarantined : TrexCliError where
  code := "CAPABILITY_MISMATCH"
  message := "one or more logical ports are quarantined"
  category := "RESOURCE"

/-- `_acquire_ports_sync`: all ports or none; `none` when another job holds one of them. -/
def acquirePorts (t : Leases) (job : JobId) (ports : List PortId) :
    Except TrexCliError (Option Fence) × Leases :=
  let ports := sortedSet ports
  let rows := t.rows.filter fun r => r.portId ∈ ports
  if rows.length ≠ ports.length then
    (.error notConfigured, t)
  else if rows.any fun r => r.status = .quarantined then
    (.error quarantined, t)
  else if rows.any fun r => r.jobId ≠ none ∧ r.jobId ≠ some job then
    (.ok none, t)
  else
    (.ok (some (rows.map fun r => (r.portId, (r.grant job).generation))),
      t.updateWhere (fun r => r.portId ∈ ports) (PortLease.grant job) (PortLease.grant_portId job))

/-- `_release_ports_sync` -/
def releasePorts (t : Leases) (job : JobId) (quarantine : Bool := false) : Leases :=
  t.updateWhere (fun r => r.jobId = some job)
    (PortLease.close (if quarantine then .quarantined else .available)) (PortLease.close_portId _)

/-- `_confirm_ports_available_sync`: whoever holds the ports. -/
def confirmPortsAvailable (t : Leases) (ports : List PortId) : Leases :=
  t.updateWhere (fun r => r.portId ∈ ports) (PortLease.close .available)
    (PortLease.close_portId _)

/-- `INSERT OR IGNORE INTO port_leases(port_id)` for each configured port. -/
def insertPorts (t : Leases) (logicalPorts : List PortId) : Leases :=
  logicalPorts.foldl (fun t p => t.insertOrIgnore { portId := p }) t

/-- The leased ports that are not configured any more. An empty list of configured ports makes the
query `port_id NOT IN (NULL)`, which selects nothing. -/
def staleBusy (t : Leases) (logicalPorts : List PortId) : List PortLease :=
  if logicalPorts = [] then []
  else t.rows.filter fun r => r.portId ∉ logicalPorts ∧ r.jobId ≠ none

/-- The lease part of `_initialize_sync`. Each statement commits by itself, so the inserts stay when
a removed port turns out to be leased. -/
def initializeSync (t : Leases) (logicalPorts : List PortId) : Except Exc Unit × Leases :=
  let t := t.insertPorts logicalPorts
  if t.staleBusy logicalPorts ≠ [] then
    (.error (.exception "removed logical ports still have leases"), t)
  else
    (.ok (), t.delete fun r => r.portId ∉ logicalPorts)

/-- The port has a row, and job `j` holds it. -/
def HeldBy (t : Leases) (p : PortId) (j : JobId) : Prop := ∃ r, t.get p = some r ∧ r.jobId = some j

theorem rows_length_eq_iff (t : Leases) (ports : List PortId) :
    (t.rows.filter fun r => r.portId ∈ sortedSet ports).length = (sortedSet ports).length ↔
      ∀ p ∈ ports, t.get p ≠ none := by
  have hsub : (t.rows.filter fun r => r.portId ∈ sortedSet ports).map PortLease.portId ⊆
      sortedSet ports := by
    intro p hp
    obtain ⟨r, hr, rfl⟩ := List.mem_map.mp hp
    simpa using (List.mem_filter.mp hr).2
  have hnodup : ((t.rows.filter fun r => r.portId ∈ sortedSet ports).map PortLease.portId).Nodup :=
    t.nodup.sublist (List.filter_sublist.map _)
  have hmem : ∀ p ∈ ports, t.get p ≠ none ↔
      p ∈ (t.rows.filter fun r => r.portId ∈ sortedSet ports).map PortLease.portId := by
    intro p hp
    rw [Option.ne_none_iff_exists']
    simp only [Table.get_eq_some, List.mem_map, List.mem_filter, mem_sortedSet, decide_eq_true_eq]
    constructor
    · rintro ⟨r, hr, rfl⟩
      exact ⟨r, ⟨hr, hp⟩, rfl⟩
    · rintro ⟨r, ⟨hr, -⟩, rfl⟩
      exact ⟨r, hr, rfl⟩
  rw [← List.length_map (f := PortLease.portId)]
  constructor
  · intro hlen p hp
    have hperm := (List.subperm_of_subset hnodup hsub).perm_of_length_le hlen.ge
    exact (hmem p hp).mpr (hperm.mem_iff.mpr (mem_sortedSet.mpr hp))
  · intro h
    refine List.Perm.length_eq ?_
    refine (List.perm_ext_iff_of_nodup hnodup (nodup_sortedSet ports)).mpr fun p => ?_
    exact ⟨fun hp => hsub hp, fun hp =>
      (hmem p (mem_sortedSet.mp hp)).mp (h p (mem_sortedSet.mp hp))⟩

/-- Everything `acquirePorts` can do: refuse and change nothing, or grant every port. -/
inductive Acquire (t : Leases) (job : JobId) (ports : List PortId) :
    Except TrexCliError (Option Fence) × Leases → Prop where
  | unconfigured (p : PortId) (hp : p ∈ ports) (hnone : t.get p = none) :
      Acquire t job ports (.error notConfigured, t)
  | quarantined (p : PortId) (hp : p ∈ ports) (r : PortLease) (hr : t.get p = some r)
      (hq : r.status = .quarantined) : Acquire t job ports (.error quarantined, t)
  | busy (p : PortId) (hp : p ∈ ports) (other : JobId) (hne : other ≠ job)
      (hheld : t.HeldBy p other) : Acquire t job ports (.ok none, t)
  | granted (fence : Fence) (t' : Leases)
      (hfree : ∀ p ∈ ports, ∃ r, t.get p = some r ∧ r.status ≠ .quarantined ∧
        (r.jobId = none ∨ r.jobId = some job))
      (hget : ∀ p, t'.get p = (t.get p).map fun r => if p ∈ ports then r.grant job else r)
      (hnodup : (fence.map Prod.fst).Nodup)
      (hfence : ∀ p g, (p, g) ∈ fence ↔
        p ∈ ports ∧ ∃ r, t.get p = some r ∧ (r.grant job).generation = g) :
      Acquire t job ports (.ok (some fence), t')

theorem acquirePorts_cases (t : Leases) (job : JobId) (ports : List PortId) :
    Acquire t job ports (t.acquirePorts job ports) := by
  have hrow : ∀ r, r ∈ t.rows.filter (fun r => r.portId ∈ sortedSet ports) ↔
      r.portId ∈ ports ∧ t.get r.portId = some r := by
    intro r
    rw [List.mem_filter, ← t.mem_rows]
    simp [and_comm]
  unfold acquirePorts
  dsimp only
  split_ifs with hlen hq hbusy
  · rw [ne_eq, rows_length_eq_iff] at hlen
    push Not at hlen
    obtain ⟨p, hp, hnone⟩ := hlen
    exact .unconfigured p hp hnone
  · obtain ⟨r, hr, hrq⟩ := List.any_eq_true.mp hq
    obtain ⟨hp, hget⟩ := (hrow r).mp hr
    exact .quarantined r.portId hp r hget (of_decide_eq_true hrq)
  · obtain ⟨r, hr, hrb⟩ := List.any_eq_true.mp hbusy
    obtain ⟨hp, hget⟩ := (hrow r).mp hr
    obtain ⟨hne, hother⟩ := of_decide_eq_true hrb
    obtain ⟨other, ho⟩ := Option.ne_none_iff_exists'.mp hne
    exact .busy r.portId hp other (fun h => hother (h ▸ ho)) ⟨r, hget, ho⟩
  · have hall := (rows_length_eq_iff t ports).mp (not_not.mp hlen)
    refine .granted _ _ ?_ ?_ ?_ ?_
    · intro p hp
      obtain ⟨r, hget⟩ := Option.ne_none_iff_exists'.mp (hall p hp)
      obtain rfl := t.key_of_get hget
      have hr := (hrow r).mpr ⟨hp, hget⟩
      refine ⟨r, hget, fun h => hq ?_, ?_⟩
      · exact List.any_eq_true.mpr ⟨r, hr, decide_eq_true h⟩
      · by_contra h
        push Not at h
        exact hbusy (List.any_eq_true.mpr ⟨r, hr, decide_eq_true h⟩)
    · intro p
      rw [get_updateWhere]
      cases hget : t.get p with
      | none => rfl
      | some r => simp [t.key_of_get hget]
    · rw [List.map_map]
      exact t.nodup.sublist (List.filter_sublist.map _)
    · intro p g
      simp only [List.mem_map, hrow, Prod.mk.injEq]
      constructor
      · rintro ⟨r, ⟨hp, hget⟩, rfl, rfl⟩
        exact ⟨hp, r, hget, rfl⟩
      · rintro ⟨hp, r, hget, rfl⟩
        obtain rfl := t.key_of_get hget
        exact ⟨r, ⟨hp, hget⟩, rfl, rfl⟩

@[simp] theorem get_releasePorts (t : Leases) (job : JobId) (quarantine : Bool) (p : PortId) :
    (t.releasePorts job quarantine).get p = (t.get p).map fun r =>
      if r.jobId = some job then
        r.close (if quarantine then .quarantined else .available)
      else r := by
  simp [releasePorts]

@[simp] theorem get_confirmPortsAvailable (t : Leases) (ports : List PortId) (p : PortId) :
    (t.confirmPortsAvailable ports).get p = (t.get p).map fun r =>
      if p ∈ ports then r.close .available else r := by
  rw [confirmPortsAvailable, get_updateWhere]
  cases hget : t.get p with
  | none => rfl
  | some r => simp [t.key_of_get hget]

theorem get_insertPorts (t : Leases) (logicalPorts : List PortId) (p : PortId) :
    (t.insertPorts logicalPorts).get p =
      if p ∈ logicalPorts then some ((t.get p).getD { portId := p }) else t.get p := by
  unfold insertPorts
  induction logicalPorts generalizing t with
  | nil => simp
  | cons q qs ih =>
    rw [List.foldl_cons, ih, Table.get_insertOrIgnore]
    by_cases hq : q = p
    · subst hq
      simp
    · simp [hq, Ne.symm hq]

theorem insertPorts_eq_self {t : Leases} {logicalPorts : List PortId}
    (h : ∀ p ∈ logicalPorts, t.get p ≠ none) : t.insertPorts logicalPorts = t := by
  unfold insertPorts
  induction logicalPorts with
  | nil => rfl
  | cons p ps ih =>
    have hp : t.insertOrIgnore { portId := p } = t := dif_neg (h p List.mem_cons_self)
    rw [List.foldl_cons, hp]
    exact ih fun q hq => h q (List.mem_cons_of_mem p hq)

/-- The startup fails on these configured ports: a removed port is leased. -/
def Busy (t : Leases) (logicalPorts : List PortId) : Prop :=
  logicalPorts ≠ [] ∧ ∃ p r, t.get p = some r ∧ p ∉ logicalPorts ∧ r.jobId ≠ none

theorem staleBusy_insertPorts (t : Leases) (logicalPorts : List PortId) :
    (t.insertPorts logicalPorts).staleBusy logicalPorts ≠ [] ↔ t.Busy logicalPorts := by
  unfold staleBusy Busy
  split
  · simp_all
  · rename_i hne
    rw [ne_eq, List.filter_eq_nil_iff]
    push Not
    simp only [decide_eq_true_eq, Table.mem_rows, get_insertPorts]
    constructor
    · rintro ⟨r, hr, hp, hj⟩
      rw [if_neg hp] at hr
      exact ⟨hne, r.portId, r, hr, hp, hj⟩
    · rintro ⟨-, p, r, hr, hp, hj⟩
      obtain rfl := t.key_of_get hr
      exact ⟨r, by rwa [if_neg hp], hp, hj⟩

/-- Everything `initializeSync` can do. -/
inductive Initialize (t : Leases) (logicalPorts : List PortId) : Except Exc Unit × Leases → Prop where
  | failed (hbusy : t.Busy logicalPorts) :
      Initialize t logicalPorts
        (.error (.exception "removed logical ports still have leases"), t.insertPorts logicalPorts)
  | done (t' : Leases) (hbusy : ¬ t.Busy logicalPorts)
      (hget : ∀ p, t'.get p =
        if p ∈ logicalPorts then some ((t.get p).getD { portId := p }) else none) :
      Initialize t logicalPorts (.ok (), t')

theorem initializeSync_cases (t : Leases) (logicalPorts : List PortId) :
    Initialize t logicalPorts (t.initializeSync logicalPorts) := by
  unfold initializeSync
  dsimp only
  split
  · rename_i hbusy
    exact .failed ((staleBusy_insertPorts t logicalPorts).mp hbusy)
  · rename_i hbusy
    refine .done _ (mt (staleBusy_insertPorts t logicalPorts).mpr hbusy) fun p => ?_
    rw [Table.get_delete, get_insertPorts]
    split
    · rename_i hp
      have hkey : ((t.get p).getD { portId := p }).portId = p := by
        cases hget : t.get p with
        | none => rfl
        | some r => exact t.key_of_get hget
      simp [Option.filter, hkey, hp]
    · rename_i hp
      cases hget : t.get p with
      | none => rfl
      | some r => simp [Option.filter, t.key_of_get hget, hp]

theorem initializeSync_of_busy {t : Leases} {logicalPorts : List PortId}
    (h : t.Busy logicalPorts) :
    t.initializeSync logicalPorts =
      (.error (.exception "removed logical ports still have leases"),
        t.insertPorts logicalPorts) :=
  if_pos ((staleBusy_insertPorts t logicalPorts).mpr h)

theorem busy_of_initializeSync {t : Leases} {logicalPorts : List PortId} {e : Exc}
    (h : (t.initializeSync logicalPorts).1 = .error e) : t.Busy logicalPorts := by
  have hcase := initializeSync_cases t logicalPorts
  generalize t.initializeSync logicalPorts = x at h hcase
  cases hcase with
  | failed hbusy => exact hbusy
  | done => cases h

theorem get_initializeSync_of_mem (t : Leases) {logicalPorts : List PortId} {p : PortId}
    (hp : p ∈ logicalPorts) :
    (t.initializeSync logicalPorts).2.get p = some ((t.get p).getD { portId := p }) := by
  have hcase := initializeSync_cases t logicalPorts
  generalize t.initializeSync logicalPorts = x at hcase
  cases hcase with
  | failed => rw [get_insertPorts, if_pos hp]
  | done _ _ hget => rw [hget, if_pos hp]

/-! ### Who holds a port -/

theorem heldBy_releasePorts {t : Leases} {job : JobId} {quarantine : Bool} {p : PortId} {j : JobId} :
    (t.releasePorts job quarantine).HeldBy p j ↔ t.HeldBy p j ∧ j ≠ job := by
  unfold HeldBy
  rw [get_releasePorts]
  cases hget : t.get p with
  | none => simp
  | some r =>
    by_cases hr : r.jobId = some job
    · simp only [Option.map_some, hr, if_true, Option.some.injEq, exists_eq_left',
        PortLease.close_jobId]
      simp [eq_comm]
    · simp only [Option.map_some, if_neg hr, Option.some.injEq, exists_eq_left']
      refine ⟨fun hj => ⟨hj, ?_⟩, fun hj => hj.1⟩
      rintro rfl
      exact hr hj

theorem heldBy_confirmPortsAvailable {t : Leases} {ports : List PortId} {p : PortId} {j : JobId} :
    (t.confirmPortsAvailable ports).HeldBy p j ↔ t.HeldBy p j ∧ p ∉ ports := by
  unfold HeldBy
  rw [get_confirmPortsAvailable]
  cases hget : t.get p with
  | none => simp
  | some r => by_cases hp : p ∈ ports <;> simp [hp]

/-- A grant takes no port from a job, and only to the job it is for. -/
theorem heldBy_acquirePorts {t : Leases} {job : JobId} {ports : List PortId} {p : PortId}
    {j : JobId} : (t.HeldBy p j → (t.acquirePorts job ports).2.HeldBy p j) ∧
      ((t.acquirePorts job ports).2.HeldBy p j → j ≠ job → t.HeldBy p j) := by
  have hcase := acquirePorts_cases t job ports
  generalize t.acquirePorts job ports = x at hcase ⊢
  cases hcase with
  | unconfigured | quarantined | busy => exact ⟨id, fun h _ => h⟩
  | granted fence t' hfree hget =>
    constructor
    · rintro ⟨r, hr, hj⟩
      refine ⟨if p ∈ ports then r.grant job else r, by simp [hget, hr], ?_⟩
      split
      · rw [PortLease.grant_of_held (by simp [hj])]
        exact hj
      · exact hj
    · rintro ⟨r', hr', hj⟩ hne
      rw [hget] at hr'
      obtain ⟨r, hr, rfl⟩ := Option.map_eq_some_iff.mp hr'
      refine ⟨r, hr, ?_⟩
      split at hj
      · by_cases hfree : r.jobId = none
        · rw [PortLease.grant_of_free hfree] at hj
          exact absurd (Option.some.inj hj).symm hne
        · rwa [PortLease.grant_of_held hfree] at hj
      · exact hj

/-- A granted job holds the ports of its fence. -/
theorem heldBy_of_granted {t : Leases} {job : JobId} {ports : List PortId} {fence : Fence}
    (h : (t.acquirePorts job ports).1 = .ok (some fence)) {p : PortId} {g : Nat}
    (hp : (p, g) ∈ fence) : (t.acquirePorts job ports).2.HeldBy p job := by
  have hcase := acquirePorts_cases t job ports
  generalize t.acquirePorts job ports = x at hcase h ⊢
  cases hcase with
  | unconfigured | quarantined | busy => simp at h
  | granted fence' t' hfree hget hnodup hfence =>
    obtain rfl : fence' = fence := by simpa using h
    obtain ⟨hport, r, hr, -⟩ := (hfence p g).mp hp
    obtain ⟨r', hr', -, hj⟩ := hfree p hport
    obtain rfl := Option.some.inj (hr.symm.trans hr')
    refine ⟨r.grant job, by simp [hget, hr, hport], ?_⟩
    obtain hj | hj := hj
    · rw [PortLease.grant_of_free hj]
    · rw [PortLease.grant_of_held (by simp [hj]), hj]

/-- What holds of every row: a job holds the port iff it is leased, and a port that has been leased
has a generation. -/
structure RowWf (r : PortLease) : Prop where
  held : r.status = .leased ↔ r.jobId ≠ none
  fenced : r.status ≠ .available → 0 < r.generation

theorem RowWf.grant {r : PortLease} (h : RowWf r) (job : JobId) : RowWf (r.grant job) := by
  by_cases hr : r.jobId = none
  · rw [PortLease.grant_of_free hr]
    exact ⟨by simp, by simp⟩
  · rwa [PortLease.grant_of_held hr]

theorem RowWf.close {r : PortLease} (h : RowWf r) {status : PortStatus} (hs : status ≠ .leased)
    (hg : status = .available ∨ r.jobId ≠ none) : RowWf (r.close status) where
  held := by simp [hs]
  fenced := by
    intro hne
    obtain rfl | hj := hg
    · exact absurd rfl hne
    · exact h.fenced (by rw [h.held.mpr hj]; decide)

theorem RowWf.fresh (p : PortId) : RowWf { portId := p } := ⟨by simp, by simp⟩

/-- Every row is well formed. -/
def Wf (t : Leases) : Prop := ∀ p r, t.get p = some r → RowWf r

theorem Wf.acquirePorts {t : Leases} (h : t.Wf) (job : JobId) (ports : List PortId) :
    Wf (t.acquirePorts job ports).2 := by
  have hcase := acquirePorts_cases t job ports
  generalize t.acquirePorts job ports = x at hcase
  cases hcase with
  | unconfigured | quarantined | busy => exact h
  | granted fence t' hfree hget =>
    intro p r' hr'
    rw [hget] at hr'
    obtain ⟨r, hr, rfl⟩ := Option.map_eq_some_iff.mp hr'
    split
    · exact (h p r hr).grant job
    · exact h p r hr

theorem Wf.releasePorts {t : Leases} (h : t.Wf) (job : JobId) (quarantine : Bool) :
    Wf (t.releasePorts job quarantine) := by
  intro p r' hr'
  rw [get_releasePorts] at hr'
  obtain ⟨r, hr, rfl⟩ := Option.map_eq_some_iff.mp hr'
  split
  · rename_i hj
    exact (h p r hr).close (by split <;> decide) (.inr (by simp [hj]))
  · exact h p r hr

theorem Wf.confirmPortsAvailable {t : Leases} (h : t.Wf) (ports : List PortId) :
    Wf (t.confirmPortsAvailable ports) := by
  intro p r' hr'
  rw [get_confirmPortsAvailable] at hr'
  obtain ⟨r, hr, rfl⟩ := Option.map_eq_some_iff.mp hr'
  split
  · exact (h p r hr).close (by decide) (.inl rfl)
  · exact h p r hr

theorem Wf.initializeSync {t : Leases} (h : t.Wf) (logicalPorts : List PortId) :
    Wf (t.initializeSync logicalPorts).2 := by
  have hold : ∀ p, RowWf ((t.get p).getD { portId := p }) := by
    intro p
    cases hget : t.get p with
    | none => exact RowWf.fresh p
    | some r => exact h p r hget
  have hcase := initializeSync_cases t logicalPorts
  generalize t.initializeSync logicalPorts = x at hcase
  cases hcase with
  | failed =>
    intro p r hr
    rw [get_insertPorts] at hr
    split at hr
    · exact Option.some.inj hr ▸ hold p
    · exact h p r hr
  | done t' _ hget =>
    intro p r hr
    rw [hget] at hr
    split at hr
    · exact Option.some.inj hr ▸ hold p
    · cases hr

/-! ### Ports in safe hands -/

/-- The port is in quarantine or leased to the job. -/
def Secured (t : Leases) (p : PortId) (j : JobId) : Prop :=
  ∃ r, t.get p = some r ∧ (r.status = .quarantined ∨ r.status = .leased ∧ r.jobId = some j)

section Secured

variable {t : Leases} {p : PortId} {j : JobId}

theorem HeldBy.secured (h : t.HeldBy p j) (hwf : t.Wf) : t.Secured p j :=
  let ⟨r, hr, hj⟩ := h
  ⟨r, hr, .inr ⟨(hwf p r hr).held.mpr (by simp [hj]), hj⟩⟩

/-- A port that a job holds is not secured for another. -/
theorem Secured.of_heldBy {j' : JobId} (h : t.Secured p j) (hwf : t.Wf) (hheld : t.HeldBy p j') :
    j = j' := by
  obtain ⟨r, hr, hsec⟩ := h
  obtain ⟨r', hr', hj'⟩ := hheld
  obtain rfl := Option.some.inj (hr.symm.trans hr')
  obtain hq | ⟨-, hj⟩ := hsec
  · have hleased := (hwf p r hr).held.mpr (by simp [hj'])
    rw [hq] at hleased
    cases hleased
  · exact Option.some.inj (hj.symm.trans hj')

theorem Secured.acquirePorts (h : t.Secured p j) (job : JobId) (ports : List PortId) :
    Secured (t.acquirePorts job ports).2 p j := by
  obtain ⟨r, hr, hsec⟩ := h
  have hcase := acquirePorts_cases t job ports
  generalize t.acquirePorts job ports = x at hcase
  cases hcase with
  | unconfigured | quarantined | busy => exact ⟨r, hr, hsec⟩
  | granted fence t' hfree hget =>
    refine ⟨if p ∈ ports then r.grant job else r, by simp [hget, hr], ?_⟩
    split
    · rename_i hp
      obtain ⟨r', hr', hq, -⟩ := hfree p hp
      obtain rfl := Option.some.inj (hr.symm.trans hr')
      have hheld := hsec.resolve_left hq
      rw [PortLease.grant_of_held (by simp [hheld.2])]
      exact .inr hheld
    · exact hsec

/-- A release frees a secured port only when it is the job's own and no quarantine. -/
theorem Secured.releasePorts (h : t.Secured p j) (hwf : t.Wf) {job : JobId} {quarantine : Bool}
    (hc : job = j → quarantine = false → ¬ t.HeldBy p j) :
    Secured (t.releasePorts job quarantine) p j := by
  by_cases hheld : t.HeldBy p job
  · obtain rfl := h.of_heldBy hwf hheld
    obtain rfl : quarantine = true := by
      by_contra hq
      exact hc rfl (by simpa using hq) hheld
    obtain ⟨r, hr, hj⟩ := hheld
    exact ⟨r.close .quarantined, by simp [hr, hj], .inl rfl⟩
  · obtain ⟨r, hr, hsec⟩ := h
    have hne : r.jobId ≠ some job := fun hj => hheld ⟨r, hr, hj⟩
    exact ⟨r, by simp [hr, hne], hsec⟩

theorem Secured.confirmPortsAvailable (h : t.Secured p j) {ports : List PortId} (hp : p ∉ ports) :
    Secured (t.confirmPortsAvailable ports) p j :=
  let ⟨r, hr, hsec⟩ := h
  ⟨r, by simp [hr, hp], hsec⟩

end Secured

end Leases

end TrexCli
