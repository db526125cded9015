import Mathlib.Data.Set.Basic
import TrexCli.Lib.Faults
import TrexCli.Store.Fencing

/-!
# One life of the lease table

`_acquire_ports_sync`, `_release_ports_sync` and `_confirm_ports_available_sync`, statement by
statement. A statement may raise, and an acquisition is one transaction, so the rows it has written
are either all committed or all undone. Whatever happens, an acquisition that returns has done what
`Leases.acquirePorts` says at once, and the calls of a life keep a port with one job.
-/

namespace TrexCli

/-- The connection: the committed rows, and the rows of an open transaction. -/
structure LeaseConnection where
  committed : Leases
  working : Option Leases := none

namespace LeaseConnection

/-- The rows that a statement sees. -/
def rows (c : LeaseConnection) : Leases := c.working.getD c.committed

/-- A statement that writes outside a transaction commits by itself. -/
def write (c : LeaseConnection) (t : Leases) : LeaseConnection :=
  match c.working with
  | none => ⟨t, none⟩
  | some _ => ⟨c.committed, some t⟩

end LeaseConnection

/-- A program on the lease table. -/
abbrev LeaseProgram (α : Type) := Faulty Exc LeaseConnection α

namespace LeaseProgram

def operationalError : Exc := .exception "the statement failed"

def integrityError : Exc := .exception "FOREIGN KEY constraint failed"

/-- A statement of SQLite. -/
def statement {α : Type} (f : LeaseConnection → α × LeaseConnection) : LeaseProgram α :=
  .operation operationalError f

/-- `BEGIN IMMEDIATE`, when no transaction is open. -/
def beginImmediate : LeaseProgram Unit :=
  statement fun c => ((), { c with working := some c.committed })

/-- `COMMIT` -/
def commit : LeaseProgram Unit := statement fun c => ((), { committed := c.rows })

/-- `if connection.in_transaction: ROLLBACK` -/
def rollback : LeaseProgram Unit := .pureState fun c => ((), { c with working := none })

/-- `SELECT * FROM port_leases WHERE port_id IN (…)` -/
def selectPorts (ports : List PortId) : LeaseProgram (List PortLease) :=
  statement fun c => (c.rows.rows.filter fun r => r.portId ∈ ports, c)

/-- `UPDATE port_leases SET job_id = ?, generation = ?, status = 'LEASED' WHERE port_id = ?`. The job
is a foreign key. -/
def updateLease (registered : Bool) (job : JobId) (generation : Nat) (port : PortId) :
    LeaseProgram Unit := do
  .ofExcept (if registered then .ok () else .error integrityError)
  statement fun c => ((), c.write (c.rows.updateWhere (fun r => r.portId = port)
    (fun r => { r with jobId := some job, generation := generation, status := .leased })
    fun _ => rfl))

/-- The body of the loop over the rows. -/
def grantRow (registered : Bool) (job : JobId) (row : PortLease) : LeaseProgram (PortId × Nat) :=
  if row.jobId = none then do
    updateLease registered job (row.generation + 1) row.portId
    pure (row.portId, row.generation + 1)
  else pure (row.portId, row.generation)

/-- The statements of the transaction after `BEGIN`. -/
def acquireRows (registered : Bool) (job : JobId) (ports : List PortId) :
    LeaseProgram (Option Fence) := do
  let rows ← selectPorts ports
  if rows.length ≠ ports.length then
    .raise (.trexCli Leases.notConfigured)
  else if rows.any fun r => r.status = .quarantined then
    .raise (.trexCli Leases.quarantined)
  else if rows.any fun r => r.jobId ≠ none ∧ r.jobId ≠ some job then do
    commit
    pure none
  else do
    let generations ← Effect.forList (grantRow registered job) rows
    commit
    pure (some generations)

/-- `_acquire_ports_sync`. The jobs table has the job when it is `registered`. -/
def acquirePortsSync (registered : Bool) (job : JobId) (ports : List PortId) :
    LeaseProgram (Option Fence) := do
  beginImmediate
  .tryExcept (acquireRows registered job (sortedSet ports)) fun e => do
    rollback
    .raise e

/-- `_release_ports_sync` -/
def releasePortsSync (job : JobId) (quarantine : Bool) : LeaseProgram Unit :=
  statement fun c => ((), c.write (c.rows.releasePorts job quarantine))

/-- `_confirm_ports_available_sync` -/
def confirmPortsAvailableSync (ports : List PortId) : LeaseProgram Unit :=
  if sortedSet ports = [] then pure ()
  else statement fun c => ((), c.write (c.rows.confirmPortsAvailable (sortedSet ports)))

end LeaseProgram

/-! ### A transaction is one step -/

namespace Leases

/-- Updates that agree on the rows of a table. -/
theorem updateWhere_congr {t : Leases} {p q : PortLease → Bool} {f g : PortLease → PortLease}
    {hf : ∀ r, (f r).portId = r.portId} {hg : ∀ r, (g r).portId = r.portId}
    (h : ∀ r ∈ t.rows, (if p r then f r else r) = if q r then g r else r) :
    t.updateWhere p f hf = t.updateWhere q g hg := by
  unfold updateWhere Table.update
  congr 1
  exact List.map_congr_left h

/-- The table after the grant of some of its ports. -/
def granted (t : Leases) (job : JobId) (ports : List PortId) : Leases :=
  t.updateWhere (fun r => r.portId ∈ ports) (PortLease.grant job) (PortLease.grant_portId job)

@[simp] theorem granted_nil (t : Leases) (job : JobId) : t.granted job [] = t := by
  unfold granted updateWhere Table.update
  simp

variable {t : Leases} {job : JobId} {ports : List PortId} {row : PortLease}

/-- Nothing changes at a port that the job holds. -/
theorem granted_concat_of_held (hrow : row ∈ t.rows) (hheld : row.jobId ≠ none) :
    t.granted job (ports ++ [row.portId]) = t.granted job ports := by
  apply updateWhere_congr
  intro r hr
  by_cases hport : r.portId = row.portId
  · obtain rfl := List.inj_on_of_nodup_map t.nodup hr hrow hport
    simp [PortLease.grant_of_held hheld]
  · simp [hport]

/-- The statement for a free port grants it. -/
theorem granted_concat_of_free (hrow : row ∈ t.rows) (hfree : row.jobId = none)
    (hport : row.portId ∉ ports) :
    (t.granted job ports).updateWhere (fun r => r.portId = row.portId)
      (fun r => { r with jobId := some job, generation := row.generation + 1, status := .leased })
      (fun _ => rfl) = t.granted job (ports ++ [row.portId]) := by
  unfold granted updateWhere Table.update
  congr 1
  rw [List.map_map]
  apply List.map_congr_left
  intro r hr
  by_cases hsame : r.portId = row.portId
  · obtain rfl := List.inj_on_of_nodup_map t.nodup hr hrow hsame
    simp [hport, PortLease.grant_of_free hfree]
  · by_cases hmem : r.portId ∈ ports <;> simp [hsame, hmem]

/-- The rows of the ports are granted. -/
theorem granted_rows (ports : List PortId) :
    t.granted job ((t.rows.filter fun r => r.portId ∈ ports).map PortLease.portId) =
      t.granted job ports := by
  apply updateWhere_congr
  intro r hr
  have hmem : r.portId ∈ (t.rows.filter fun r => r.portId ∈ ports).map PortLease.portId ↔
      r.portId ∈ ports := by
    simp only [List.mem_map, List.mem_filter, decide_eq_true_eq]
    constructor
    · rintro ⟨r', ⟨-, hr'⟩, heq⟩
      rwa [← heq]
    · exact fun hport => ⟨r, ⟨hr, hport⟩, rfl⟩
  simp only [decide_eq_true_eq, hmem]

end Leases

namespace LeaseProgram

open Faulty

variable {t : Leases} {job : JobId} {registered : Bool}

/-- The connection inside a transaction. -/
abbrev Inside (t t' : Leases) (c : LeaseConnection) : Prop := c = ⟨t, some t'⟩

/-- The connection between calls. -/
abbrev Between (t : Leases) (c : LeaseConnection) : Prop := c = ⟨t, none⟩

/-- What is raised is no answer of the service, or the answer that `acquirePorts` gives. -/
def Justified (t : Leases) (job : JobId) (ports : List PortId) (e : Exc) : Prop :=
  ∀ error, e = .trexCli error → (t.acquirePorts job ports).1 = .error error

theorem justified_operationalError {ports : List PortId} :
    Justified t job ports operationalError := fun _ h => nomatch h

theorem justified_integrityError {ports : List PortId} :
    Justified t job ports integrityError := fun _ h => nomatch h

/-- A statement inside a transaction: when it raises the committed rows are as they were. -/
theorem triple_statement {α : Type} {t t' : Leases} {ports : List PortId}
    {f : LeaseConnection → α × LeaseConnection} {Q : α → LeaseConnection → Prop}
    (h : Q (f ⟨t, some t'⟩).1 (f ⟨t, some t'⟩).2) :
    Triple (Inside t t') (statement f) Q (fun e c => Justified t job ports e ∧ c.committed = t)
      (fun c => c.committed = t) := by
  apply Triple.operation
  · rintro _ rfl
    exact h
  · rintro _ rfl
    exact ⟨justified_operationalError, rfl⟩
  · rintro _ rfl
    rfl

theorem triple_grantRow {ports done : List PortId} {row : PortLease} (hrow : row ∈ t.rows)
    (hport : row.portId ∉ done) :
    Triple (Inside t (t.granted job done)) (grantRow registered job row)
      (fun grant c => grant = (row.portId, (row.grant job).generation) ∧
        Inside t (t.granted job (done ++ [row.portId])) c)
      (fun e c => Justified t job ports e ∧ c.committed = t) (fun c => c.committed = t) := by
  unfold grantRow
  split
  · next hfree =>
    refine Triple.bind (Q := fun _ => Inside t (t.granted job (done ++ [row.portId]))) ?_ fun _ => ?_
    · unfold updateLease
      refine Triple.bind (Q := fun _ => Inside t (t.granted job done)) ?_ fun _ => ?_
      · apply Triple.ofExcept
        · exact fun _ _ _ hc => hc
        · rintro e c he rfl
          split at he
          · cases he
          · cases he
            exact ⟨justified_integrityError, rfl⟩
      · apply triple_statement
        exact congrArg (fun t' => (⟨t, some t'⟩ : LeaseConnection))
          (Leases.granted_concat_of_free hrow hfree hport)
    · apply Triple.pure
      rintro _ rfl
      exact ⟨by rw [PortLease.grant_of_free hfree], rfl⟩
  · next hheld =>
    apply Triple.pure
    rintro _ rfl
    rw [Leases.granted_concat_of_held hrow hheld, PortLease.grant_of_held hheld]
    exact ⟨rfl, rfl⟩

/-- The loop grants the rows one by one. -/
theorem triple_grantRows {ports done : List PortId} {rows : List PortLease}
    (hrows : ∀ row ∈ rows, row ∈ t.rows) (hnodup : (done ++ rows.map PortLease.portId).Nodup) :
    Triple (Inside t (t.granted job done)) (Effect.forList (grantRow registered job) rows)
      (fun generations c => generations = rows.map (fun r => (r.portId, (r.grant job).generation)) ∧
        Inside t (t.granted job (done ++ rows.map PortLease.portId)) c)
      (fun e c => Justified t job ports e ∧ c.committed = t) (fun c => c.committed = t) := by
  induction rows generalizing done with
  | nil =>
    apply Triple.pure
    rintro _ rfl
    simp
  | cons row rows ih =>
    have hport : row.portId ∉ done := fun hmem =>
      (List.nodup_append.mp hnodup).2.2 _ hmem _ (by simp) rfl
    have hnodup' : ((done ++ [row.portId]) ++ rows.map PortLease.portId).Nodup := by
      simpa using hnodup
    refine (triple_grantRow (hrows row List.mem_cons_self) hport).bind fun grant => ?_
    refine Triple.of_fact fun hgrant => ?_
    refine (ih (fun r hr => hrows r (List.mem_cons_of_mem _ hr)) hnodup').bind fun generations => ?_
    refine Triple.of_fact fun hgenerations => ?_
    apply Triple.pure
    rintro _ rfl
    subst hgrant hgenerations
    simp

/-- A transaction that returns has done the whole acquisition, and one that raises nothing. -/
theorem acquirePortsSync_spec (t : Leases) (registered : Bool) (job : JobId)
    (ports : List PortId) :
    Triple (Between t) (acquirePortsSync registered job ports)
      (fun a c => (t.acquirePorts job ports).1 = .ok a ∧ Between (t.acquirePorts job ports).2 c)
      (fun e c => Justified t job ports e ∧ Between t c) (fun c => c.committed = t) := by
  unfold acquirePortsSync
  refine Triple.bind (Q := fun _ => Inside t t) ?_ fun _ => ?_
  · apply Triple.operation
    · rintro _ rfl
      rfl
    · rintro _ rfl
      exact ⟨justified_operationalError, rfl⟩
    · rintro _ rfl
      rfl
  refine Triple.tryExcept (E := fun e c => Justified t job ports e ∧ c.committed = t) ?_ fun e => ?_
  · unfold acquireRows
    refine Triple.bind (Q := fun rows c =>
      rows = t.rows.filter (fun r => r.portId ∈ sortedSet ports) ∧ Inside t t c)
      (triple_statement ⟨rfl, rfl⟩) fun rows => ?_
    refine Triple.of_fact ?_
    rintro rfl
    split
    · next hlength =>
      apply Triple.raise
      rintro _ rfl
      refine ⟨?_, rfl⟩
      rintro _ ⟨⟩
      rw [Leases.acquirePorts, if_pos hlength]
    · next hlength =>
      split
      · next hquarantined =>
        apply Triple.raise
        rintro _ rfl
        refine ⟨?_, rfl⟩
        rintro _ ⟨⟩
        rw [Leases.acquirePorts, if_neg hlength, if_pos hquarantined]
      · next hquarantined =>
        split
        · next hbusy =>
          have hacquire : t.acquirePorts job ports = (.ok none, t) := by
            rw [Leases.acquirePorts, if_neg hlength, if_neg hquarantined, if_pos hbusy]
          rw [hacquire]
          refine Triple.bind (Q := fun _ => Between t) (triple_statement rfl) fun _ => ?_
          exact Triple.pure fun _ hc => ⟨rfl, hc⟩
        · next hbusy =>
          have hacquire : t.acquirePorts job ports = (.ok (some ((t.rows.filter fun r =>
              r.portId ∈ sortedSet ports).map fun r => (r.portId, (r.grant job).generation))),
              t.granted job (sortedSet ports)) := by
            rw [Leases.acquirePorts, if_neg hlength, if_neg hquarantined, if_neg hbusy]
            rfl
          have hloop := @triple_grantRows t job registered ports []
            (t.rows.filter fun r => r.portId ∈ sortedSet ports)
            (fun row hrow => (List.mem_filter.mp hrow).1)
            (t.nodup.sublist (List.filter_sublist.map _))
          rw [Leases.granted_nil, List.nil_append, Leases.granted_rows] at hloop
          rw [hacquire]
          refine hloop.bind fun generations => ?_
          refine Triple.of_fact ?_
          rintro rfl
          refine Triple.bind (Q := fun _ => Between (t.granted job (sortedSet ports)))
            (triple_statement rfl) fun _ => ?_
          exact Triple.pure fun _ hc => ⟨rfl, hc⟩
  · refine Triple.bind (Q := fun _ c => Justified t job ports e ∧ Between t c) ?_ fun _ =>
      Triple.raise fun _ hc => hc
    apply Triple.pureState
    rintro ⟨committed, working⟩ ⟨hjustified, hcommitted⟩
    exact ⟨hjustified, by rw [← hcommitted]⟩

/-- A transaction whose statements all run raises only answers of the service. -/
theorem acquirePortsSync_steady (job : JobId) (ports : List PortId) :
    Faulty.Steady (acquirePortsSync true job ports) fun e => ∃ error, e = .trexCli error := by
  have hrow : ∀ row, Faulty.Steady (grantRow true job row) fun e => ∃ error, e = .trexCli error := by
    intro row
    unfold grantRow
    split
    · exact (Faulty.Steady.pure ()).bind (fun _ => .operation _ _) |>.bind fun _ => .pure _
    · exact .pure _
  unfold acquirePortsSync acquireRows
  refine (Faulty.Steady.operation _ _).bind fun _ => ?_
  refine Faulty.Steady.tryExcept ?_ fun e he => (Faulty.Steady.pureState _).bind fun _ => .raise he
  refine (Faulty.Steady.operation _ _).bind fun rows => ?_
  split
  · exact .raise ⟨_, rfl⟩
  · split
    · exact .raise ⟨_, rfl⟩
    · split
      · exact (Faulty.Steady.operation _ _).bind fun _ => .pure _
      · refine (Faulty.Steady.forList fun row _ => hrow row).bind fun generations => ?_
        exact (Faulty.Steady.operation _ _).bind fun _ => .pure _

end LeaseProgram

/-! ### The calls of a life -/

/-- A call of the store. -/
inductive LeaseCall where
  | acquirePorts (job : JobId) (ports : List PortId)
  | releasePorts (job : JobId) (quarantine : Bool)
  | confirmPortsAvailable (ports : List PortId)

namespace LeaseCall

open Faulty LeaseProgram

def exec (registered : JobId → Bool) : LeaseCall → LeaseProgram (Option Fence)
  | acquirePorts job ports => acquirePortsSync (registered job) job ports
  | releasePorts job quarantine => do
    releasePortsSync job quarantine
    pure none
  | confirmPortsAvailable ports => do
    confirmPortsAvailableSync ports
    pure none

/-- The outcome of a call, and the connection after it. -/
def run (registered : JobId → Bool) (fates : List Fate) (call : LeaseCall) (c : LeaseConnection) :
    Except (Halt Exc) (Option Fence) × LeaseConnection :=
  ((call.exec registered (c, fates)).1, (call.exec registered (c, fates)).2.1)

/-- What a call does when it returns. -/
def op : LeaseCall → LeaseOp
  | acquirePorts job ports => .acquirePorts job ports
  | releasePorts job quarantine => .releasePorts job quarantine
  | confirmPortsAvailable ports => .confirmPortsAvailable ports

/-- What a call returns. -/
def Answers (t : Leases) : LeaseCall → Option Fence → Prop
  | acquirePorts job ports, a => (t.acquirePorts job ports).1 = .ok a
  | _, a => a = none

theorem confirmPortsAvailable_sortedSet (t : Leases) (ports : List PortId) :
    t.confirmPortsAvailable (sortedSet ports) = t.confirmPortsAvailable ports := by
  apply Leases.updateWhere_congr
  intro r _
  simp

theorem confirmPortsAvailable_nil (t : Leases) : t.confirmPortsAvailable [] = t := by
  unfold Leases.confirmPortsAvailable Leases.updateWhere Table.update
  simp

theorem exec_spec (registered : JobId → Bool) (t : Leases) (call : LeaseCall) :
    Triple (Between t) (call.exec registered)
      (fun a c => call.Answers t a ∧ Between (call.op.exec t) c) (fun _ => Between t)
      (fun c => c.committed = t) := by
  have hstatement : ∀ {f : LeaseConnection → Unit × LeaseConnection} {t' : Leases},
      (f ⟨t, none⟩).2 = ⟨t', none⟩ → Triple (Between t) (do statement f; pure (none : Option Fence))
        (fun a c => a = none ∧ Between t' c) (fun _ => Between t) (fun c => c.committed = t) := by
    intro f t' hf
    refine Triple.bind (Q := fun _ => Between t') ?_ fun _ => Triple.pure fun _ hc => ⟨rfl, hc⟩
    apply Triple.operation
    · rintro _ rfl
      exact hf
    · exact fun _ hc => hc
    · rintro _ rfl
      rfl
  cases call with
  | acquirePorts job ports =>
    refine (acquirePortsSync_spec t (registered job) job ports).mono (fun _ hc => hc) ?_ ?_ ?_
    · exact fun _ _ h => h
    · exact fun _ _ h => h.2
    · exact fun _ h => h
  | releasePorts job quarantine => exact hstatement rfl
  | confirmPortsAvailable ports =>
    show Triple _ (confirmPortsAvailableSync ports >>= fun _ => Pure.pure none) _ _ _
    unfold confirmPortsAvailableSync
    split
    · next hempty =>
      refine Triple.bind (Q := fun _ => Between t) (Triple.pure fun _ hc => hc) fun _ => ?_
      apply Triple.pure
      rintro _ rfl
      refine ⟨rfl, ?_⟩
      show _ = LeaseConnection.mk (t.confirmPortsAvailable ports) none
      rw [← confirmPortsAvailable_sortedSet, hempty, confirmPortsAvailable_nil]
    · apply hstatement
      show LeaseConnection.mk (t.confirmPortsAvailable (sortedSet ports)) none = _
      rw [confirmPortsAvailable_sortedSet]
      rfl

end LeaseCall

/-- A call that did not end the life, and its outcome. -/
structure LeaseEvent where
  call : LeaseCall
  outcome : Except Exc (Option Fence)

/-- A life of the store that starts with the rows `t₀`: its connection, and the calls so far. -/
inductive LeaseLife (t₀ : Leases) : LeaseConnection → List LeaseEvent → Prop where
  | opened : LeaseLife t₀ ⟨t₀, none⟩ []
  | returned {c : LeaseConnection} {log : List LeaseEvent} (hlife : LeaseLife t₀ c log)
      (registered : JobId → Bool) (fates : List Fate) (call : LeaseCall) {a : Option Fence}
      {c' : LeaseConnection} (hrun : call.run registered fates c = (.ok a, c')) :
      LeaseLife t₀ c' (log ++ [⟨call, .ok a⟩])
  | raised {c : LeaseConnection} {log : List LeaseEvent} (hlife : LeaseLife t₀ c log)
      (registered : JobId → Bool) (fates : List Fate) (call : LeaseCall) {e : Exc}
      {c' : LeaseConnection} (hrun : call.run registered fates c = (.error (.raised e), c')) :
      LeaseLife t₀ c' (log ++ [⟨call, .error e⟩])

namespace LeaseEvent

/-- The jobs a port is leased to after the event. -/
def jobsAfter (p : PortId) (jobs : Set JobId) : LeaseEvent → Set JobId
  | ⟨.acquirePorts job ports, .ok (some _)⟩ => if p ∈ ports then insert job jobs else jobs
  | ⟨.releasePorts job _, .ok _⟩ => jobs \ {job}
  | ⟨.confirmPortsAvailable ports, .ok _⟩ => if p ∈ ports then ∅ else jobs
  | _ => jobs

/-- The event ends the lease of the job on one of the ports. -/
def Ends (job : JobId) (ports : List PortId) : LeaseEvent → Prop
  | ⟨.releasePorts job' _, .ok _⟩ => job' = job
  | ⟨.confirmPortsAvailable ports', .ok _⟩ => ∃ p ∈ ports', p ∈ ports
  | _ => False

end LeaseEvent

/-- The jobs a port is leased to after the calls of a life. -/
def leasedTo (t₀ : Leases) (p : PortId) (log : List LeaseEvent) : Set JobId :=
  log.foldl (LeaseEvent.jobsAfter p) {j | t₀.HeldBy p j}

theorem leasedTo_concat (t₀ : Leases) (p : PortId) (log : List LeaseEvent) (event : LeaseEvent) :
    leasedTo t₀ p (log ++ [event]) = event.jobsAfter p (leasedTo t₀ p log) := by
  rw [leasedTo, List.foldl_append]
  rfl

namespace Leases

/-- All ports are configured, none is in quarantine, and each is free or leased to the job. -/
def Grantable (t : Leases) (job : JobId) (ports : List PortId) : Prop :=
  ∀ p ∈ ports, ∃ r, t.get p = some r ∧ r.status ≠ .quarantined ∧
    (r.jobId = none ∨ r.jobId = some job)

/-- The grant of ports makes `t'` of `t`. -/
structure GrantedTo (t : Leases) (job : JobId) (ports : List PortId) (fence : Fence)
    (t' : Leases) : Prop where
  /-- The fence is for the ports, each once. -/
  all : (fence.map Prod.fst).Nodup ∧ ∀ p, p ∈ fence.map Prod.fst ↔ p ∈ ports
  leased : ∀ p ∈ ports, t'.HeldBy p job
  /-- A new grant raises the generation by one. -/
  fresh : ∀ p ∈ ports, ∀ r, t.get p = some r → r.jobId = none →
    (p, r.generation + 1) ∈ fence ∧ t'.get p =
      some { r with jobId := some job, generation := r.generation + 1, status := .leased }
  /-- A port that the job has keeps its generation. -/
  again : ∀ p ∈ ports, ∀ r, t.get p = some r → r.jobId = some job →
    (p, r.generation) ∈ fence ∧ t'.get p = some r
  others : ∀ p, p ∉ ports → t'.get p = t.get p

end Leases

/-- What holds of the lease table after the calls of a life, and of the next call. -/
structure LeaseRules (t₀ : Leases) (c : LeaseConnection) (log : List LeaseEvent) : Prop where
  /-- No transaction is open. -/
  closed : c.working = none
  /-- An acquisition for a registered job whose statements run succeeds when the ports are free. -/
  grants : ∀ job ports registered, registered job = true →
    ((∃ fence, ((LeaseCall.acquirePorts job ports).run registered [] c).1 = .ok (some fence)) ↔
      c.committed.Grantable job ports)
  /-- Whatever happens, a grant is of all ports, and they were free. -/
  granted : ∀ job ports registered fates fence c',
    (LeaseCall.acquirePorts job ports).run registered fates c = (.ok (some fence), c') →
      c.committed.Grantable job ports ∧ c.committed.GrantedTo job ports fence c'.committed
  /-- An acquisition that is refused or raises changes nothing. -/
  refused : ∀ job ports registered fates,
    (∀ fence, ((LeaseCall.acquirePorts job ports).run registered fates c).1 ≠ .ok (some fence)) →
      ((LeaseCall.acquirePorts job ports).run registered fates c).2.committed = c.committed
  /-- The table knows the jobs that the ports are leased to. -/
  leased : ∀ p j, j ∈ leasedTo t₀ p log ↔ c.committed.HeldBy p j
  exclusive : ∀ p, (leasedTo t₀ p log).Subsingleton
  /-- The same acquisition again returns the same generations while no lease of it has ended. -/
  repeated : ∀ job ports fence before after,
    log = before ++ ⟨.acquirePorts job ports, .ok (some fence)⟩ :: after →
    (∀ event ∈ after, ¬event.Ends job ports) → ∀ registered, registered job = true →
      ∃ fence' c', (LeaseCall.acquirePorts job ports).run registered [] c = (.ok (some fence'), c') ∧
        fence'.Perm fence
  /-- A release changes only the ports of its job. -/
  released : ∀ job quarantine registered fates p, ¬c.committed.HeldBy p job →
    ((LeaseCall.releasePorts job quarantine).run registered fates c).2.committed.get p =
      c.committed.get p

/-! ### The rules hold -/

namespace Leases

variable {t : Leases} {job : JobId} {ports : List PortId} {fence : Fence}

theorem granted_of_acquirePorts (h : (t.acquirePorts job ports).1 = .ok (some fence)) :
    t.Grantable job ports ∧ t.GrantedTo job ports fence (t.acquirePorts job ports).2 := by
  have hleased := fun p g => @heldBy_of_granted t job ports fence h p g
  have hcase := acquirePorts_cases t job ports
  generalize t.acquirePorts job ports = x at h hcase hleased
  cases hcase with
  | unconfigured | quarantined | busy => simp at h
  | granted fence' t' hfree hget hnodup hfence =>
    obtain rfl : fence' = fence := by simpa using h
    have hmem : ∀ p ∈ ports, ∀ r, t.get p = some r → (p, (r.grant job).generation) ∈ fence' :=
      fun p hp r hr => (hfence p _).mpr ⟨hp, r, hr, rfl⟩
    refine ⟨hfree, ⟨hnodup, fun p => ?_⟩, fun p hp => ?_, fun p hp r hr hj => ?_,
      fun p hp r hr hj => ?_, fun p hp => ?_⟩
    · rw [List.mem_map]
      constructor
      · rintro ⟨⟨p, g⟩, hpg, rfl⟩
        exact ((hfence p g).mp hpg).1
      · intro hp
        obtain ⟨r, hr, -⟩ := hfree p hp
        exact ⟨_, hmem p hp r hr, rfl⟩
    · obtain ⟨r, hr, -⟩ := hfree p hp
      exact hleased p _ (hmem p hp r hr)
    · have hgrant := hmem p hp r hr
      rw [PortLease.grant_of_free hj] at hgrant
      exact ⟨hgrant, by simp [hget, hr, hp, PortLease.grant_of_free hj]⟩
    · have hsame : r.grant job = r := PortLease.grant_of_held (by simp [hj])
      have hgrant := hmem p hp r hr
      rw [hsame] at hgrant
      exact ⟨hgrant, by simp [hget, hr, hp, hsame]⟩
    · rw [hget]
      cases t.get p <;> simp [hp]

theorem acquirePorts_of_grantable (h : t.Grantable job ports) :
    ∃ fence, (t.acquirePorts job ports).1 = .ok (some fence) := by
  have hcase := acquirePorts_cases t job ports
  generalize t.acquirePorts job ports = x at hcase
  cases hcase with
  | unconfigured p hp hnone =>
    obtain ⟨r, hr, -⟩ := h p hp
    rw [hnone] at hr
    cases hr
  | quarantined p hp r hr hq =>
    obtain ⟨r', hr', hq', -⟩ := h p hp
    obtain rfl := Option.some.inj (hr.symm.trans hr')
    exact absurd hq hq'
  | busy p hp other hne hheld =>
    obtain ⟨r, hr, hj⟩ := hheld
    obtain ⟨r', hr', -, hj' | hj'⟩ := h p hp
    · obtain rfl := Option.some.inj (hr.symm.trans hr')
      rw [hj] at hj'
      cases hj'
    · obtain rfl := Option.some.inj (hr.symm.trans hr')
      exact absurd (Option.some.inj (hj.symm.trans hj')) hne
  | granted fence => exact ⟨fence, rfl⟩

end Leases

section Run

open LeaseProgram

variable {t : Leases} {registered : JobId → Bool} {fates : List Fate} {call : LeaseCall}
  {c' : LeaseConnection}

theorem LeaseCall.run_returned {a : Option Fence}
    (h : call.run registered fates ⟨t, none⟩ = (.ok a, c')) :
    call.Answers t a ∧ c' = ⟨call.op.exec t, none⟩ := by
  have hspec := call.exec_spec registered t ⟨t, none⟩ fates rfl
  unfold LeaseCall.run at h
  generalize call.exec registered (⟨t, none⟩, fates) = x at h hspec
  rcases x with ⟨(_ | _) | a', c, rest⟩
  · cases h
  · cases h
  · cases h
    exact hspec

theorem LeaseCall.run_raised {e : Exc}
    (h : call.run registered fates ⟨t, none⟩ = (.error (.raised e), c')) : c' = ⟨t, none⟩ := by
  have hspec := call.exec_spec registered t ⟨t, none⟩ fates rfl
  unfold LeaseCall.run at h
  generalize call.exec registered (⟨t, none⟩, fates) = x at h hspec
  rcases x with ⟨(_ | _) | a', c, rest⟩
  · cases h
    exact hspec
  · cases h
  · cases h

/-- The committed rows after a call: those of its step when it returns, else those before. -/
theorem LeaseCall.run_committed (registered : JobId → Bool) (fates : List Fate) (call : LeaseCall)
    (t : Leases) :
    (∃ a, call.Answers t a ∧ (call.run registered fates ⟨t, none⟩).1 = .ok a ∧
      (call.run registered fates ⟨t, none⟩).2.committed = call.op.exec t) ∨
    (∃ e, (call.run registered fates ⟨t, none⟩).1 = .error e) ∧
      (call.run registered fates ⟨t, none⟩).2.committed = t := by
  have hspec := call.exec_spec registered t ⟨t, none⟩ fates rfl
  unfold LeaseCall.run
  generalize call.exec registered (⟨t, none⟩, fates) = x at hspec
  rcases x with ⟨(e | _) | a, c, rest⟩
  · have hc : c = ⟨t, none⟩ := hspec
    exact .inr ⟨⟨_, rfl⟩, by rw [hc]⟩
  · exact .inr ⟨⟨_, rfl⟩, hspec⟩
  · exact .inl ⟨a, hspec.1, rfl, congrArg LeaseConnection.committed hspec.2⟩

/-- Without faults an acquisition does what `acquirePorts` does. -/
theorem LeaseCall.run_undisturbed {job : JobId} {ports : List PortId} {fence : Fence}
    (hregistered : registered job = true) (h : (t.acquirePorts job ports).1 = .ok (some fence)) :
    (LeaseCall.acquirePorts job ports).run registered [] ⟨t, none⟩ =
      (.ok (some fence), ⟨(t.acquirePorts job ports).2, none⟩) := by
  have hspec := acquirePortsSync_spec t true job ports ⟨t, none⟩ [] rfl
  unfold LeaseCall.run LeaseCall.exec
  simp only [hregistered]
  obtain ⟨a, c, hrun⟩ | ⟨e, c, hrun, error, rfl⟩ := acquirePortsSync_steady job ports ⟨t, none⟩
  · rw [hrun] at hspec ⊢
    obtain ⟨hanswer, hc⟩ := hspec
    rw [h] at hanswer
    cases hanswer
    rw [show c = _ from hc]
  · rw [hrun] at hspec
    have hanswer := hspec.1 error rfl
    rw [h] at hanswer
    cases hanswer

end Run

namespace LeaseLife

variable {t₀ : Leases} {c : LeaseConnection} {log : List LeaseEvent}

theorem closed (h : LeaseLife t₀ c log) : c = ⟨c.committed, none⟩ := by
  induction h with
  | opened => rfl
  | returned _ registered fates call hrun ih =>
    rw [ih] at hrun
    rw [(LeaseCall.run_returned hrun).2]
  | raised _ registered fates call hrun ih =>
    rw [ih] at hrun
    rw [LeaseCall.run_raised hrun]

/-- The jobs after a call that returns are those that hold the port in the new table. -/
theorem jobsAfter_returned {t : Leases} {call : LeaseCall} {a : Option Fence} (p : PortId)
    (h : call.Answers t a) :
    (LeaseEvent.mk call (.ok a)).jobsAfter p {j | t.HeldBy p j} =
      {j | (call.op.exec t).HeldBy p j} := by
  cases call with
  | releasePorts job quarantine =>
    ext j
    exact Leases.heldBy_releasePorts.symm
  | confirmPortsAvailable ports =>
    ext j
    show j ∈ (if p ∈ ports then ∅ else {j | t.HeldBy p j}) ↔
      (t.confirmPortsAvailable ports).HeldBy p j
    rw [Leases.heldBy_confirmPortsAvailable]
    by_cases hp : p ∈ ports <;> simp [hp]
  | acquirePorts job ports =>
    have hkept := fun j => @Leases.heldBy_acquirePorts t job ports p j
    rcases a with _ | fence
    · have hcase := Leases.acquirePorts_cases t job ports
      show {j | t.HeldBy p j} = {j | (t.acquirePorts job ports).2.HeldBy p j}
      have hanswer : (t.acquirePorts job ports).1 = .ok none := h
      generalize t.acquirePorts job ports = x at hcase hanswer
      cases hcase with
      | unconfigured | quarantined | busy => rfl
      | granted => cases hanswer
    · obtain ⟨-, hgranted⟩ := Leases.granted_of_acquirePorts h
      ext j
      show j ∈ (if p ∈ ports then insert job {j | t.HeldBy p j} else {j | t.HeldBy p j}) ↔
        (t.acquirePorts job ports).2.HeldBy p j
      by_cases hp : p ∈ ports
      · rw [if_pos hp, Set.mem_insert_iff]
        constructor
        · rintro (rfl | hj)
          · exact hgranted.leased p hp
          · exact (hkept j).1 hj
        · intro hj
          by_cases hjob : j = job
          · exact .inl hjob
          · exact .inr ((hkept j).2 hj hjob)
      · rw [if_neg hp]
        unfold Leases.HeldBy
        rw [hgranted.others p hp]
        rfl

/-- The ports that jobs got from the calls are the ports of the rows. -/
theorem leasedTo_eq (h : LeaseLife t₀ c log) (p : PortId) :
    leasedTo t₀ p log = {j | c.committed.HeldBy p j} := by
  induction h with
  | opened => rfl
  | returned hlife registered fates call hrun ih =>
    rw [hlife.closed] at hrun
    obtain ⟨hanswer, rfl⟩ := LeaseCall.run_returned hrun
    rw [leasedTo_concat, ih]
    exact jobsAfter_returned p hanswer
  | raised hlife registered fates call hrun ih =>
    rw [hlife.closed] at hrun
    obtain rfl := LeaseCall.run_raised hrun
    rw [leasedTo_concat, ih]
    cases call <;> rfl

end LeaseLife

namespace Leases

/-- The job still has its grant of the ports. -/
def Kept (t : Leases) (job : JobId) (ports : List PortId) (fence : Fence) : Prop :=
  ∀ p ∈ ports, ∃ r, t.get p = some r ∧ r.status ≠ .quarantined ∧ r.jobId = some job ∧
    (p, r.generation) ∈ fence

variable {t : Leases} {job : JobId} {ports : List PortId} {fence : Fence}

theorem GrantedTo.kept {t' : Leases} (h : t.GrantedTo job ports fence t')
    (hgrantable : t.Grantable job ports) : t'.Kept job ports fence := by
  intro p hp
  obtain ⟨r, hr, hq, hfree | hheld⟩ := hgrantable p hp
  · obtain ⟨hmem, hrow⟩ := h.fresh p hp r hr hfree
    exact ⟨_, hrow, by simp, rfl, hmem⟩
  · obtain ⟨hmem, hrow⟩ := h.again p hp r hr hheld
    exact ⟨r, hrow, hq, hheld, hmem⟩

/-- What a call that ends none of the leases leaves. -/
theorem Kept.exec {call : LeaseCall} {a : Option Fence} (h : t.Kept job ports fence)
    (hends : ¬(LeaseEvent.mk call (.ok a)).Ends job ports) :
    (call.op.exec t).Kept job ports fence := by
  intro p hp
  obtain ⟨r, hr, hq, hj, hmem⟩ := h p hp
  refine ⟨r, ?_, hq, hj, hmem⟩
  cases call with
  | releasePorts job' quarantine =>
    have hne : job' ≠ job := hends
    show (t.releasePorts job' quarantine).get p = some r
    rw [get_releasePorts, hr, Option.map_some, if_neg (by simp [hj, hne.symm])]
  | confirmPortsAvailable ports' =>
    have hnot : p ∉ ports' := fun hp' => hends ⟨p, hp', hp⟩
    show (t.confirmPortsAvailable ports').get p = some r
    rw [get_confirmPortsAvailable, hr, Option.map_some, if_neg hnot]
  | acquirePorts job' ports' =>
    have hcase := acquirePorts_cases t job' ports'
    show (t.acquirePorts job' ports').2.get p = some r
    generalize t.acquirePorts job' ports' = x at hcase
    cases hcase with
    | unconfigured | quarantined | busy => exact hr
    | granted fence' t' hfree hget =>
      have hgrant : r.grant job' = r := PortLease.grant_of_held (by simp [hj])
      simp [hget, hr, hgrant]

/-- The grant of ports that the job still has is the same. -/
theorem Kept.perm {fence' : Fence} {t' : Leases} (h : t.Kept job ports fence)
    (hnodup : (fence.map Prod.fst).Nodup) (hports : ∀ p, p ∈ fence.map Prod.fst ↔ p ∈ ports)
    (hgranted : t.GrantedTo job ports fence' t') : fence'.Perm fence := by
  have hgeneration : ∀ {p g g'}, (p, g) ∈ fence → (p, g') ∈ fence → g = g' := by
    intro p g g' hg hg'
    exact congrArg Prod.snd (List.inj_on_of_nodup_map hnodup hg hg' rfl)
  have hsub : ∀ grant ∈ fence, grant ∈ fence' := by
    rintro ⟨p, g⟩ hmem
    have hp := (hports p).mp (List.mem_map_of_mem hmem)
    obtain ⟨r, hr, -, hj, hmem'⟩ := h p hp
    rw [hgeneration hmem hmem']
    exact (hgranted.again p hp r hr hj).1
  refine ((List.perm_ext_iff_of_nodup hgranted.all.1.of_map hnodup.of_map).mpr ?_)
  rintro ⟨p, g⟩
  refine ⟨fun hmem => ?_, hsub _⟩
  have hp := (hgranted.all.2 p).mp (List.mem_map_of_mem hmem)
  obtain ⟨r, hr, -, hj, hmem'⟩ := h p hp
  have hsame := congrArg Prod.snd
    (List.inj_on_of_nodup_map hgranted.all.1 hmem (hsub _ hmem') rfl)
  rw [show g = r.generation from hsame]
  exact hmem'

theorem Kept.grantable (h : t.Kept job ports fence) : t.Grantable job ports := fun p hp =>
  let ⟨r, hr, hq, hj, _⟩ := h p hp
  ⟨r, hr, hq, .inr hj⟩

end Leases

namespace LeaseLife

variable {t₀ : Leases} {c : LeaseConnection} {log : List LeaseEvent}

/-- A grant whose leases have not ended is in the table. -/
theorem kept (h : LeaseLife t₀ c log) {job : JobId} {ports : List PortId} {fence : Fence}
    {before after : List LeaseEvent}
    (hlog : log = before ++ ⟨.acquirePorts job ports, .ok (some fence)⟩ :: after)
    (hends : ∀ event ∈ after, ¬event.Ends job ports) :
    c.committed.Kept job ports fence ∧ (fence.map Prod.fst).Nodup ∧
      ∀ p, p ∈ fence.map Prod.fst ↔ p ∈ ports := by
  induction h generalizing after with
  | opened => simp at hlog
  | returned hlife registered fates call hrun ih =>
    rw [hlife.closed] at hrun
    obtain ⟨hanswer, rfl⟩ := LeaseCall.run_returned hrun
    rcases List.eq_nil_or_concat after with rfl | ⟨after, event, rfl⟩
    · obtain ⟨-, hevent⟩ := List.append_inj' hlog rfl
      cases hevent
      obtain ⟨hgrantable, hgranted⟩ := Leases.granted_of_acquirePorts hanswer
      exact ⟨hgranted.kept hgrantable, hgranted.all⟩
    · rw [List.concat_eq_append, ← List.cons_append, ← List.append_assoc] at hlog
      obtain ⟨hbefore, hevent⟩ := List.append_inj' hlog rfl
      cases hevent
      simp only [List.concat_eq_append, List.mem_append, List.mem_singleton] at hends
      obtain ⟨hkept, hall⟩ := ih hbefore fun event hevent => hends event (.inl hevent)
      exact ⟨hkept.exec (hends _ (.inr rfl)), hall⟩
  | raised hlife registered fates call hrun ih =>
    rw [hlife.closed] at hrun
    obtain rfl := LeaseCall.run_raised hrun
    rcases List.eq_nil_or_concat after with rfl | ⟨after, event, rfl⟩
    · obtain ⟨-, hevent⟩ := List.append_inj' hlog rfl
      cases hevent
    · rw [List.concat_eq_append, ← List.cons_append, ← List.append_assoc] at hlog
      simp only [List.concat_eq_append, List.mem_append] at hends
      exact ih (List.append_inj' hlog rfl).1 fun event hevent => hends event (.inl hevent)

end LeaseLife

/-- The lease table keeps its rules over the calls of a life, whichever statements raise. -/
theorem leaseRules_of_life {t₀ : Leases} {c : LeaseConnection} {log : List LeaseEvent}
    (h : LeaseLife t₀ c log) : LeaseRules t₀ c log := by
  have hclosed := h.closed
  have hleased := h.leasedTo_eq
  have hkept := fun job ports fence before after => @LeaseLife.kept _ _ _ h job ports fence before after
  clear h
  generalize c.committed = t at hclosed hleased hkept
  subst hclosed
  refine ⟨rfl, ?_, ?_, ?_, ?_, ?_, ?_, ?_⟩
  · intro job ports registered hregistered
    constructor
    · rintro ⟨fence, hrun⟩
      exact (Leases.granted_of_acquirePorts (LeaseCall.run_returned (Prod.ext hrun rfl)).1).1
    · intro hgrantable
      obtain ⟨fence, hacquire⟩ := Leases.acquirePorts_of_grantable hgrantable
      exact ⟨fence, congrArg Prod.fst (LeaseCall.run_undisturbed hregistered hacquire)⟩
  · intro job ports registered fates fence c' hrun
    obtain ⟨hanswer, rfl⟩ := LeaseCall.run_returned hrun
    exact Leases.granted_of_acquirePorts hanswer
  · intro job ports registered fates hrefused
    obtain ⟨a, hanswer, hrun, hcommitted⟩ | ⟨-, hcommitted⟩ :=
      LeaseCall.run_committed registered fates (.acquirePorts job ports) t
    · rcases a with _ | fence
      · rw [hcommitted]
        have hcase := Leases.acquirePorts_cases t job ports
        show (t.acquirePorts job ports).2 = t
        have hnone : (t.acquirePorts job ports).1 = .ok none := hanswer
        generalize t.acquirePorts job ports = x at hcase hnone
        cases hcase with
        | unconfigured | quarantined | busy => rfl
        | granted => cases hnone
      · exact absurd hrun (hrefused fence)
    · exact hcommitted
  · intro p j
    rw [hleased]
    rfl
  · intro p j hj j' hj'
    rw [hleased] at hj hj'
    obtain ⟨r, hr, hjob⟩ := hj
    obtain ⟨r', hr', hjob'⟩ := hj'
    obtain rfl := Option.some.inj (hr.symm.trans hr')
    exact Option.some.inj (hjob.symm.trans hjob')
  · intro job ports fence before after hlog hends registered hregistered
    obtain ⟨hkept, hnodup, hports⟩ := hkept job ports fence before after hlog hends
    obtain ⟨fence', hacquire⟩ := Leases.acquirePorts_of_grantable hkept.grantable
    obtain ⟨-, hgranted⟩ := Leases.granted_of_acquirePorts hacquire
    exact ⟨fence', _, LeaseCall.run_undisturbed hregistered hacquire,
      hkept.perm hnodup hports hgranted⟩
  · intro job quarantine registered fates p hheld
    obtain ⟨a, -, -, hcommitted⟩ | ⟨-, hcommitted⟩ :=
      LeaseCall.run_committed registered fates (.releasePorts job quarantine) t
    · rw [hcommitted]
      show (t.releasePorts job quarantine).get p = t.get p
      rw [Leases.get_releasePorts]
      cases hr : t.get p with
      | none => rfl
      | some r =>
        have hne : r.jobId ≠ some job := fun hj => hheld ⟨r, hr, hj⟩
        rw [Option.map_some, if_neg hne]
    · rw [hcommitted]

/-- Job 7 acquires both ports of a new table, after a first attempt whose second update raises. -/
theorem leaseRules_of_life_retried : ∃ c, c.committed.HeldBy 0 7 ∧
    LeaseRules (leasesAfter [.restart [0, 1]]) c
      [⟨.acquirePorts 7 [1, 0], .error LeaseProgram.operationalError⟩,
        ⟨.acquirePorts 7 [1, 0], .ok (some [(0, 1), (1, 1)])⟩] := by
  refine ⟨⟨(leasesAfter [.restart [0, 1]]).granted 7 [0, 1], none⟩, ⟨⟨0, some 7, 1, .leased⟩, rfl, rfl⟩,
    leaseRules_of_life (.returned (.raised .opened (fun _ => true)
      [.proceeds, .proceeds, .proceeds, .fails] (.acquirePorts 7 [1, 0]) rfl)
      (fun _ => true) [] (.acquirePorts 7 [1, 0]) rfl)⟩

end TrexCli
