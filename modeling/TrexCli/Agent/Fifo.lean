import TrexCli.Agent.Waiting

/-!
# The order in which waiting jobs get their ports

The second loop of `_tick` tries each waiting job by itself against the leases of the moment, so a job
overtakes an earlier one that needs a common port when only the other ports of the earlier one are
taken, when the common port is released between the two attempts, or when the earlier job is to be
cancelled. `InTurn` excludes exactly these steps, and in its runs `granted_in_order` holds: nothing is
granted past an earlier job that waits.
-/

namespace TrexCli

open Relation (ReflTransGen)

namespace Leases

/-- Every port can be leased, but another job holds one of them. -/
def Refuses (t : Leases) (job : JobId) (ports : List PortId) : Prop :=
  (∀ p ∈ ports, ∃ r, t.get p = some r ∧ r.status ≠ .quarantined) ∧
    ∃ p ∈ ports, ∃ c, c ≠ job ∧ t.HeldBy p c

/-- Every port can be leased, and no other job holds one of them. -/
def Grants (t : Leases) (job : JobId) (ports : List PortId) : Prop :=
  ∀ p ∈ ports, ∃ r, t.get p = some r ∧ r.status ≠ .quarantined ∧
    (r.jobId = none ∨ r.jobId = some job)

variable {t : Leases} {job : JobId} {ports : List PortId}

theorem refuses_of_acquirePorts (h : (t.acquirePorts job ports).1 = .ok none) :
    t.Refuses job ports := by
  refine ⟨?_, ?_⟩
  · unfold acquirePorts at h
    dsimp only at h
    split_ifs at h with hlen hquarantined hbusy
    · intro p hp
      obtain ⟨r, hget⟩ := Option.ne_none_iff_exists'.mp
        ((rows_length_eq_iff t ports).mp (not_not.mp hlen) p hp)
      obtain rfl := t.key_of_get hget
      refine ⟨r, hget, fun hq => hquarantined (List.any_eq_true.mpr ⟨r, ?_, decide_eq_true hq⟩)⟩
      exact List.mem_filter.mpr ⟨t.mem_rows.mpr hget, decide_eq_true (mem_sortedSet.mpr hp)⟩
    · cases h
  · have hcase := acquirePorts_cases t job ports
    generalize t.acquirePorts job ports = x at hcase h
    cases hcase with
    | unconfigured | quarantined | granted => cases h
    | busy p hp other hne hheld => exact ⟨p, hp, other, hne, hheld⟩

theorem grants_of_acquirePorts {fence : Fence}
    (h : (t.acquirePorts job ports).1 = .ok (some fence)) : t.Grants job ports := by
  have hcase := acquirePorts_cases t job ports
  generalize t.acquirePorts job ports = x at hcase h
  cases hcase with
  | unconfigured | quarantined | busy => cases h
  | granted fence' t' hfree => exact hfree

/-- Nobody else holds a port that is granted. -/
theorem Grants.not_heldBy (h : t.Grants job ports) {p : PortId} (hp : p ∈ ports) {c : JobId}
    (hc : c ≠ job) : ¬ t.HeldBy p c := by
  rintro ⟨r, hr, hheld⟩
  obtain ⟨r', hr', -, hfree⟩ := h p hp
  obtain rfl := Option.some.inj (hr.symm.trans hr')
  rcases hfree with hfree | hfree
  · rw [hfree] at hheld
    cases hheld
  · exact hc (Option.some.inj (hheld.symm.trans hfree))

end Leases

/-! ### The condition -/

/-- The job `a` waits for its ports, one of which `b` needs too, and was accepted first. -/
structure Precedes (db : Db) (a b : JobRow) : Prop where
  first : db.jobs.get a.jobId = some a
  second : db.jobs.get b.jobId = some b
  before : Db.Before a b
  ne : a.jobId ≠ b.jobId
  common : ∃ p ∈ a.document.logicalPorts, p ∈ b.document.logicalPorts
  waiting : a.snapshot.state = .waitingForPorts

/-- Both jobs wait, for a common port. -/
structure Contend (db : Db) (a b : JobRow) : Prop extends Precedes db a b where
  later : b.snapshot.state = .waitingForPorts

/-- A third job holds a port that both jobs need. -/
def Blocked (held : PortId → JobId → Prop) (a b : JobRow) : Prop :=
  ∃ p ∈ a.document.logicalPorts, p ∈ b.document.logicalPorts ∧
    ∃ c, c ≠ a.jobId ∧ c ≠ b.jobId ∧ held p c

namespace Agent

/-- The scheduler is in the second loop of `_tick`. -/
def scanning (s : Agent) : Bool :=
  match s.scheduler with
  | .await .scanning _ _ => true
  | _ => false

/-- The transaction that a step runs. -/
def transaction (s : Agent) : Action → Option StoreCall
  | .task i _ =>
    match s.tasks[i]?.map AgentTask.program with
    | some (.await _ c _) => c.transaction?
    | _ => none
  | .scheduler _ =>
    match s.scheduler with
    | .await _ c _ => c.transaction?
    | .ret _ => none
  | .late n => s.late[n]?
  | _ => none

end Agent

/-- The scheduler tries the ports of a job. -/
def Tries (s : Agent) (act : Action) (job : JobId) (ports : List PortId) : Prop :=
  ∃ answers l k, act = .scheduler answers ∧ s.scheduler = .await l (.store (.acquirePorts job ports)) k

/-- A step that lets nobody past a job that waits. -/
structure InTurn (s : Agent) (act : Action) : Prop where
  /-- A job is refused only if those that contend with it cannot get their ports either. -/
  refused : ∀ job ports, Tries s act job ports → s.db.leases.Refuses job ports → ∀ a b, a.jobId = job →
    Contend s.db a b → Blocked s.db.leases.HeldBy a b
  /-- No lease that blocks a pair of jobs is released during the second loop. -/
  kept : s.scanning = true → ∀ job quarantine, s.transaction act = some (.releasePorts job quarantine) →
    ∀ a b, Contend s.db a b → Blocked s.db.leases.HeldBy a b →
      Blocked (fun p c => s.db.leases.HeldBy p c ∧ c ≠ job) a b
  /-- Nobody who is granted ports contends with an earlier job that is to be cancelled. -/
  uncancelled : ∀ job ports, Tries s act job ports → s.db.leases.Grants job ports → ∀ a b,
    b.jobId = job → Contend s.db a b → a.snapshot.cancelRequested = false

/-- The step grants a job its ports while an earlier one waits that needs one of them. -/
def Overtakes (s : Agent) (act : Action) : Prop :=
  ∃ job ports fence, Tries s act job ports ∧
    (s.db.leases.acquirePorts job ports).1 = .ok (some fence) ∧
    ∃ a b, b.jobId = job ∧ Precedes s.db a b

/-! ### The list of the tick -/

/-- `ORDER BY accepted_at, job_id`, of snapshots. -/
def JobSnapshot.Earlier (x y : JobSnapshot) : Prop :=
  x.submittedAt < y.submittedAt ∨ x.submittedAt = y.submittedAt ∧ x.jobId ≤ y.jobId

instance : Std.Total Db.Before where
  total a b := by
    show _ ∨ _
    unfold Db.Before
    rcases lt_trichotomy a.acceptedAt b.acceptedAt with h | h | h
    · exact .inl (.inl h)
    · exact (le_total a.jobId b.jobId).imp (fun hle => .inr ⟨h, hle⟩) fun hle => .inr ⟨h.symm, hle⟩
    · exact .inr (.inl h)

instance : IsTrans JobRow Db.Before where
  trans a b c := by
    rintro (hab | ⟨hab, hle⟩) (hbc | ⟨hbc, hle'⟩)
    · exact .inl (hab.trans hbc)
    · exact .inl (hbc ▸ hab)
    · exact .inl (hab ▸ hbc)
    · exact .inr ⟨hab.trans hbc, hle.trans hle'⟩

theorem earlier_iff_before {db : Db} (hlogs : WrittenLogs db) (hdated : db.Dated) {a b : JobRow}
    (ha : db.jobs.get a.jobId = some a) (hb : db.jobs.get b.jobId = some b) :
    a.snapshot.Earlier b.snapshot ↔ Db.Before a b := by
  unfold JobSnapshot.Earlier Db.Before
  rw [hdated _ a ha, hdated _ b hb, (hlogs.row _ a ha).2.2.1, (hlogs.row _ b hb).2.2.1]

/-- The list is in the order in which the jobs were accepted. -/
theorem pairwise_listNonterminal {db : Db} (hlogs : WrittenLogs db) (hdated : db.Dated) :
    db.listNonterminal.Pairwise JobSnapshot.Earlier := by
  rw [Db.listNonterminal, List.pairwise_map]
  refine (List.pairwise_insertionSort Db.Before _).imp_of_mem fun {a b} ha hb hbefore => ?_
  have hrow : ∀ {r : JobRow}, r ∈ (db.jobs.rows.filter fun r => !r.state.terminal).insertionSort
      Db.Before → db.jobs.get r.jobId = some r := fun hr =>
    db.jobs.mem_rows.mp (List.mem_of_mem_filter ((List.mem_insertionSort _).mp hr))
  exact (earlier_iff_before hlogs hdated (hrow ha) (hrow hb)).mpr hbefore

/-- What the log of every job shows. -/
def Db.logged (db : Db) : Known := {x | db.logOf x.jobId x.revision = some x}

/-- The job was waiting when the tick listed it. -/
def QueueView.Waiting (v : QueueView) (j : JobId) : Prop :=
  ∃ x ∈ v.scan, x.jobId = j ∧ x.state = .waitingForPorts

/-- What the tick knows of its list is true. -/
structure QueueFacts (s : Agent) (h : History) (v : QueueView) : Prop where
  known : v.known.Holds s.db
  documents : ∀ j document, (j, document) ∈ v.documents →
    ∃ row, s.db.jobs.get j = some row ∧ row.document = document
  scanned : ∀ x ∈ v.scan, x ∈ v.known
  ordered : v.scan.Pairwise JobSnapshot.Earlier
  complete : v.current = true → ∀ j, Waits s.db j → v.Waiting j
  pending : ∀ j, v.Waiting j → j ∈ h.tick.untouched →
    j ∈ v.written ∨ Active s j ∨ InState s.db j .waitingForPorts
  refused : ∀ j ∈ v.refused, v.Waiting j ∧ (s.scanning = true → ∀ a b, a.jobId = j →
    Contend s.db a b → v.Waiting b.jobId → Blocked s.db.leases.HeldBy a b)

section Step

variable {config : AgentConfig} {s s' : Agent} {h h' : History} {act : Action} {v v' : QueueView}
variable {a b a' b' : JobRow} {j : JobId}

theorem Blocked.congr {held held' : PortId → JobId → Prop} (hb : Blocked held a b)
    (hheld : ∀ p c, held p c → held' p c) (ha : a'.jobId = a.jobId) (hb' : b'.jobId = b.jobId)
    (hda : a'.document = a.document) (hdb : b'.document = b.document) : Blocked held' a' b' := by
  obtain ⟨p, hp, hp', c, hca, hcb, hc⟩ := hb
  exact ⟨p, hda ▸ hp, hdb ▸ hp', c, ha ▸ hca, hb' ▸ hcb, hheld p c hc⟩

/-- A step runs the transaction that it awaits. -/
theorem Executed.transaction {c : StoreCall} (hc : Executed s h act c) :
    s.transaction act = some c := by
  cases hc with
  | task i answers t l c k hi hp =>
    simp only [Agent.transaction, hi, Option.map_some, hp]
    rfl
  | tick answers l c k hserving hp | recover answers l c k hserving hp =>
    simp only [Agent.transaction, hp]
    rfl
  | late n c hn => exact hn

/-- What blocks two jobs goes on blocking them through the second loop. -/
theorem Step.blocked (hstep : Step config s h act s' h') (hinv : Inv s h) (hserving : s.serving = true)
    (hturn : InTurn s act) (hscanning : s.scanning = true) (hc : Contend s.db a b)
    (hb : Blocked s.db.leases.HeldBy a b) : Blocked s'.db.leases.HeldBy a b := by
  obtain ⟨hleases, -⟩ | ⟨c, hdb, hexec⟩ := hstep.tables hinv
  · rwa [hleases]
  rw [hdb, StoreCall.exec_leases]
  cases c with
  | acquirePorts job ports =>
    exact hb.congr (fun p c hp => Leases.heldBy_acquirePorts.1 hp) rfl rfl rfl rfl
  | releasePorts job quarantine =>
    refine (hturn.kept hscanning job quarantine hexec.transaction a b hc hb).congr ?_ rfl rfl rfl rfl
    exact fun p c hp => Leases.heldBy_releasePorts.mpr hp
  | confirmPortsAvailable ports =>
    cases hexec with
    | task i answers t l c k hi hp hown => exact hown.elim
    | tick answers l c k hserving hp hcall => exact hcall.elim
    | recover answers l c k hnot =>
      rw [hserving] at hnot
      cases hnot
    | late n c hn =>
      obtain ⟨job, kind, view, -, -, hown, -⟩ := hinv.late _ (List.mem_of_getElem? hn)
      exact hown.elim
  | _ => exact hb

namespace QueueFacts

/-- A listed job that was waiting is still waiting, or its execution has begun. -/
theorem row (hq : QueueFacts s h v) (hinv : Inv s h) (hj : v.Waiting j) :
    ∃ row, s.db.jobs.get j = some row ∧
      (row.snapshot.state = .waitingForPorts ∨ row.snapshot.state.recoverable = false) := by
  obtain ⟨x, hx, rfl, hstate⟩ := hj
  have hlog := hq.known x (hq.scanned x hx)
  obtain ⟨row, hrow, -⟩ := hinv.logs.row_of_log hlog
  exact ⟨row, hrow, Writes.waiting_of_chain (hinv.logs.chain_row hlog hrow) hstate⟩

/-- The row of a listed job before the step. -/
theorem row_back (hq : QueueFacts s h v) (hinv : Inv s h) (hinv' : Inv s' h')
    (hstep : Step config s h act s' h') (hj : v.Waiting j) {row' : JobRow}
    (hrow' : s'.db.jobs.get j = some row') : ∃ row, s.db.jobs.get j = some row ∧
      row.document = row'.document ∧ row.acceptedAt = row'.acceptedAt ∧
      (row'.snapshot.state = .waitingForPorts → row.snapshot.state = .waitingForPorts) := by
  obtain ⟨row, hrow, hstate⟩ := hq.row hinv hj
  obtain ⟨row₁, hrow₁, hdocument, haccepted⟩ := hstep.columns.kept j row hrow
  obtain rfl := Option.some.inj (hrow₁.symm.trans hrow')
  obtain ⟨row₂, hrow₂, hchain⟩ := hinv.row_step hinv' (hinv.step_logs hstep).2 hrow
  obtain rfl := Option.some.inj (hrow₂.symm.trans hrow')
  refine ⟨row, hrow, hdocument.symm, haccepted.symm, fun hwaiting => hstate.resolve_right fun hran => ?_⟩
  have hbegun := Writes.ran_of_chain hchain hran
  rw [hwaiting] at hbegun
  cases hbegun

/-- Two listed jobs that contend have done so before the step. -/
theorem contend_back (hq : QueueFacts s h v) (hinv : Inv s h) (hinv' : Inv s' h')
    (hstep : Step config s h act s' h') (ha : v.Waiting a'.jobId) (hb : v.Waiting b'.jobId)
    (hc : Contend s'.db a' b') : ∃ a b, Contend s.db a b ∧ a'.jobId = a.jobId ∧ b'.jobId = b.jobId ∧
      a'.document = a.document ∧ b'.document = b.document := by
  obtain ⟨a, hrowa, hda, hta, hwa⟩ := hq.row_back hinv hinv' hstep ha hc.first
  obtain ⟨b, hrowb, hdb, htb, hwb⟩ := hq.row_back hinv hinv' hstep hb hc.second
  have hja := s.db.jobs.key_of_get hrowa
  have hjb := s.db.jobs.key_of_get hrowb
  refine ⟨a, b, ⟨⟨by rwa [hja], by rwa [hjb], ?_, ?_, ?_, hwa hc.waiting⟩, hwb hc.later⟩,
    hja.symm, hjb.symm, hda.symm, hdb.symm⟩
  · unfold Db.Before
    rw [hta, htb, hja, hjb]
    exact hc.before
  · rw [hja, hjb]
    exact hc.ne
  · rw [hda, hdb]
    exact hc.common

/-- The refused jobs of the list are still refused for the sake of a third job. -/
theorem refused_kept (hq : QueueFacts s h v) (hinv : Inv s h) (hinv' : Inv s' h')
    (hstep : Step config s h act s' h') (hserving : s.serving = true) (hturn : InTurn s act)
    (hscanning : s.scanning = true) (hj : j ∈ v.refused) : ∀ a b, a.jobId = j →
      Contend s'.db a b → v.Waiting b.jobId → Blocked s'.db.leases.HeldBy a b := by
  rintro a' b' rfl hc hb
  obtain ⟨hwaiting, hblocked⟩ := hq.refused _ hj
  obtain ⟨a, b, hc, hja, hjb, hda, hdb⟩ := hq.contend_back hinv hinv' hstep hwaiting hb hc
  have hold := hblocked hscanning a b hja.symm hc (hjb ▸ hb)
  exact (hstep.blocked hinv hserving hturn hscanning hc hold).congr (fun _ _ => id) hja hjb hda hdb

/-- What is known of the waiting jobs that no one has written to, before their row changes. -/
theorem pending_before (hq : QueueFacts s h v) (hinv : Inv s h) (hstep : Step config s h act s' h')
    (hserving : s.serving = true) (hserving' : s'.serving = true) (hj : v.Waiting j)
    (hnew : j ∈ h'.tick.untouched) :
    j ∈ v.written ∨ Active s' j ∨ InState s.db j .waitingForPorts := by
  obtain ⟨hactive, hold | hran⟩ := hstep.tick_untouched hinv hserving hserving' hnew
  · exact (hq.pending j hj hold).imp_right fun h => h.imp_left hactive
  · obtain ⟨row, hrow, hstate⟩ := hq.row hinv hj
    refine .inr (.inr ⟨row, hrow, hstate.resolve_right fun hbegun => hran ?_⟩)
    exact ⟨_, _, hinv.logs.last j row hrow, hbegun⟩

/-- The facts after a step of anyone but the scheduler. -/
theorem step (hq : QueueFacts s h v) (hinv : Inv s h) (hinv' : Inv s' h')
    (hstep : Step config s h act s' h') (hserving : s.serving = true) (hserving' : s'.serving = true)
    (hturn : InTurn s act) (hact : ∀ answers, act ≠ .scheduler answers)
    (hscheduler : s'.scheduler = s.scheduler) (htick : h'.tick = h.tick) : QueueFacts s' h' v where
  known := hq.known.extends (hinv.step_logs hstep).2
  documents j document hmem := by
    obtain ⟨row, hrow, hdocument⟩ := hq.documents j document hmem
    obtain ⟨row', hrow', hsame, -⟩ := hstep.columns.kept j row hrow
    exact ⟨row', hrow', hsame.trans hdocument⟩
  scanned := hq.scanned
  ordered := hq.ordered
  complete hcurrent j hwaits := hq.complete hcurrent j (hstep.waits_of hinv hinv' hact hwaits)
  pending j hj hnew := by
    obtain hwritten | hactive | hstate := hq.pending_before hinv hstep hserving hserving' hj hnew
    · exact .inl hwritten
    · exact .inr (.inl hactive)
    · refine .inr ((hstep.stays hinv hserving hact (htick ▸ hnew) hstate).imp_left ?_)
      exact (hstep.tick_untouched hinv hserving hserving' hnew).1
  refused j hj := by
    refine ⟨(hq.refused j hj).1, fun hscanning => ?_⟩
    have hbefore : s.scanning = true := by
      rwa [Agent.scanning, hscheduler] at hscanning
    exact hq.refused_kept hinv hinv' hstep hserving hturn hbefore hj

end QueueFacts

/-! ### A step of the scheduler -/

/-- The answer to a store method tells what the contract says. -/
theorem tells_store (hinv : Inv s h) (hknown : v.known.Holds s.db) {c : StoreCall}
    (hext : s.db.Extends (c.exec s.db).2)
    (hraises : ∀ e, (c.exec s.db).1 = .error e → c.Raises v.known e) :
    Tells v (.store c) (c.exec s.db).1 (c.exec s.db).2.logged := by
  cases c with
  | getSnapshot job =>
    cases hrow : s.db.jobs.get job with
    | none => simp [StoreCall.exec, Db.getSnapshot, Db.jobRow, hrow, Except.map, Tells]
    | some row =>
      simp only [StoreCall.exec, Db.getSnapshot, Db.jobRow, hrow, Except.map, Tells]
      rintro x hx rfl
      exact hinv.logs.chain_row (hknown x hx) hrow
  | updateSnapshot y expectedRevision eventType resolvedSpecJson =>
    have hcase := s.db.updateSnapshot_cases y expectedRevision eventType resolvedSpecJson
    simp only [StoreCall.exec] at hext hraises ⊢
    generalize s.db.updateSnapshot _ _ _ _ = r at hcase hext hraises ⊢
    cases hcase with
    | conflict hrev =>
      intro x hx hjob hxrev
      obtain ⟨row, hrow, -⟩ := hinv.logs.row_of_log (hknown x hx)
      have hchain := hinv.logs.chain_row (hknown x hx) hrow
      have hlog := snapshot_in_log hinv.logs hrow
      refine ⟨row.snapshot, hlog.2, ?_⟩
      refine (Relation.reflTransGen_iff_eq_or_transGen.mp hchain).resolve_left fun heq => ?_
      -- the row is at another revision than the snapshot
      refine hrev row (hjob ▸ hrow) ?_
      rw [(hinv.logs.row _ row hrow).2.1, heq, hxrev]
    | taken row hrow hrev htaken =>
      have hconflict : Db.integrityError = .revisionConflict := hraises _ rfl
      cases hconflict
    | updated => trivial
  | _ => trivial

/-- An active job does not wait for its turn. -/
theorem tells_active (hinv : Inv s h) {job : JobId} (hactive : Active s job) :
    ∃ x ∈ s.db.logged, x.jobId = job ∧ x.gone := by
  obtain ⟨i, hmem⟩ := hactive
  obtain ⟨t, hi, rfl, hreport⟩ := hinv.pointed job i hmem
  have hbegun := (hinv.task i t hi).begun
  cases hkind : t.kind with
  | execute fence =>
    rw [hkind] at hbegun
    obtain ⟨r, x, hx, hstate⟩ := hbegun
    obtain ⟨hjob, hrev⟩ := hinv.logs.event _ _ _ hx
    exact ⟨x, show s.db.logOf x.jobId x.revision = some x by rw [hjob, hrev, hx], hjob, .inl hstate⟩
  | finishCancel =>
    rw [hkind] at hbegun
    obtain ⟨r, x, hx, hcancel⟩ := hbegun
    obtain ⟨hjob, hrev⟩ := hinv.logs.event _ _ _ hx
    exact ⟨x, show s.db.logOf x.jobId x.revision = some x by rw [hjob, hrev, hx], hjob, .inr hcancel⟩
  | reportProgress =>
    rw [hkind] at hreport
    cases hreport

section Answer

variable {answers : Answers} {l : Site} {c : Call} {r : Except Exc c.Res} {s₁ : Agent}

/-- The database after an answer. -/
theorem exec_db (hr : s.exec config answers c = some (r, s₁)) :
    s₁.db = s.db ∧ c.transaction? = none ∨
      ∃ c' : StoreCall, c = .store c' ∧ s₁.db = (c'.exec s.db).2 := by
  cases c with
  | store c =>
    obtain ⟨-, rfl⟩ := Prod.mk.inj (Option.some.inj hr)
    exact .inr ⟨c, rfl, rfl⟩
  | dropDone | spawn =>
    obtain ⟨-, rfl⟩ := Prod.mk.inj (Option.some.inj hr)
    exact .inl ⟨rfl, rfl⟩
  | _ =>
    obtain ⟨rfl, -⟩ := exec_eq_some hr rfl nofun nofun ∅
    exact .inl ⟨rfl, rfl⟩

/-- The answer that the scheduler gets is one that its contract allows. -/
theorem queue_post (hinv : Inv s h) (hknown : v.known.Holds s.db) (hpre : QueueAllows v l c)
    (hr : s.exec config answers c = some (r, s₁)) :
    queueContract.post v l c r { v.next l c r with known := s₁.db.logged } := by
  cases c with
  | store c =>
    obtain ⟨rfl, rfl⟩ := Prod.mk.inj (Option.some.inj hr)
    obtain ⟨-, hext, known, ha⟩ := exec_written hinv.logs hknown c hpre.1
    have hsub : known ⊆ (c.exec s.db).2.logged := fun x hx => ha.holds x hx
    exact ⟨⟨ha.grows.trans hsub, ha.learns.mono hsub⟩, rfl, ha.raises,
      tells_store hinv hknown hext ha.raises⟩
  | isActive job =>
    obtain ⟨rfl, rfl⟩ := Prod.mk.inj (Option.some.inj hr)
    refine ⟨⟨fun x hx => hknown x hx, trivial⟩, rfl, nofun, ?_⟩
    cases hany : s.active.any fun a => decide (a.1 = job) with
    | false => trivial
    | true =>
      obtain ⟨⟨j, i⟩, hmem, heq⟩ := List.any_eq_true.mp hany
      obtain rfl : j = job := of_decide_eq_true heq
      exact tells_active hinv ⟨i, hmem⟩
  | dropDone | spawn =>
    obtain ⟨rfl, rfl⟩ := Prod.mk.inj (Option.some.inj hr)
    exact ⟨⟨fun x hx => hknown x hx, trivial⟩, rfl, nofun, trivial⟩
  | _ =>
    obtain ⟨rfl, hraises⟩ := exec_eq_some hr rfl nofun nofun v.known
    exact ⟨⟨fun x hx => hknown x hx, trivial⟩, rfl, hraises, trivial⟩

theorem QueueView.next_scan (hlist : c ≠ .store .listNonterminal) :
    (v.next l c r).scan = v.scan ∧ v.written ⊆ (v.next l c r).written ∧
      ((v.next l c r).current = true → v.current = true) := by
  unfold QueueView.next
  split
  · exact absurd rfl hlist
  · exact ⟨rfl, Set.subset_insert _ _, fun h => (Bool.and_eq_true_iff.mp h).1⟩
  all_goals exact ⟨rfl, subset_rfl, id⟩

/-- The documents that the scheduler knows are those of the rows. -/
theorem mem_documents_next (hr : s.exec config answers c = some (r, s₁)) {document : JobDocument}
    (hmem : (j, document) ∈ (v.next l c r).documents) : (j, document) ∈ v.documents ∨
      ∃ row, s.db.jobs.get j = some row ∧ row.document = document := by
  unfold QueueView.next at hmem
  split at hmem
  · exact .inl hmem
  · exact .inl hmem
  · rename_i job d
    obtain hnew | hold := hmem
    · obtain ⟨rfl, rfl⟩ := Prod.mk.inj hnew
      obtain ⟨heq, -⟩ := Prod.mk.inj (Option.some.inj hr)
      have hget : s.db.getDocument j = .ok document := heq
      cases hrow : s.db.jobs.get j with
      | none => simp [Db.getDocument, Db.jobRow, hrow, Except.map] at hget
      | some row =>
        simp only [Db.getDocument, Db.jobRow, hrow, Except.map, Except.ok.injEq] at hget
        exact .inr ⟨row, rfl, hget⟩
    · exact .inl hold
  · exact .inl hmem
  · exact .inl hmem

/-- Who is refused now has been tried now. -/
theorem mem_refused_next (hr : s.exec config answers c = some (r, s₁))
    (hmem : j ∈ (v.next l c r).refused) : j ∈ v.refused ∨
      ∃ ports, c = .store (.acquirePorts j ports) ∧ (s.db.leases.acquirePorts j ports).1 = .ok none := by
  unfold QueueView.next at hmem
  split at hmem
  · cases hmem
  · exact .inl hmem
  · exact .inl hmem
  · rename_i job ports
    obtain rfl | hold := hmem
    · refine .inr ⟨ports, rfl, ?_⟩
      obtain ⟨heq, -⟩ := Prod.mk.inj (Option.some.inj hr)
      simp only [StoreCall.exec] at heq
      generalize (s.db.leases.acquirePorts j ports).1 = x at heq
      cases x with
      | error e => cases heq
      | ok fence =>
        obtain rfl : fence = none := Except.ok.inj heq
        rfl
    · exact .inl hold
  · exact .inl hmem

/-- The second loop makes no job wait. -/
theorem waits_of_scheduler (hpre : QueueAllows v l c) (hr : s.exec config answers c = some (r, s₁))
    (hcurrent : (v.next l c r).current = true) (hwaits : Waits s₁.db j) : Waits s.db j := by
  obtain ⟨hdb, -⟩ | ⟨c', rfl, hdb⟩ := exec_db hr
  · rwa [hdb] at hwaits
  obtain ⟨row, hrow, hstate, hcancel⟩ := hwaits
  rw [hdb] at hrow
  cases c' with
  | updateSnapshot x expectedRevision eventType resolvedSpecJson =>
    have hcase := s.db.updateSnapshot_cases x expectedRevision eventType resolvedSpecJson
    simp only [StoreCall.exec] at hrow
    generalize s.db.updateSnapshot _ _ _ _ = y at hcase hrow
    cases hcase with
    | conflict | taken => exact ⟨row, hrow, hstate, hcancel⟩
    | updated db' row₀ hrow₀ hrev happ =>
      by_cases hj : j = x.jobId
      · obtain ⟨row', hrow', hsnap, -⟩ := happ.row
        rw [hj] at hrow
        obtain rfl := Option.some.inj (hrow.symm.trans hrow')
        have hl : l = .scanning := of_decide_eq_true (Bool.and_eq_true_iff.mp hcurrent).2
        exact absurd (hsnap ▸ hstate) (hpre.2 hl)
      · exact ⟨row, by rwa [← happ.rest j hj], hstate, hcancel⟩
  | _ => exact ⟨row, hrow, hstate, hcancel⟩

/-- Where the scheduler does not write, a job goes on waiting. -/
theorem inState_of_writesTo (hr : s.exec config answers c = some (r, s₁)) {state : JobState}
    (hj : c.writesTo ≠ some j) (hstate : InState s.db j state) : InState s₁.db j state := by
  obtain ⟨hdb, -⟩ | ⟨c', rfl, hdb⟩ := exec_db hr
  · rwa [hdb]
  · obtain ⟨row, hrow, hstate⟩ := hstate
    exact ⟨row, by rw [hdb, c'.get_jobs_of_writesTo hj, hrow], hstate⟩

end Answer

namespace QueueFacts

/-- The facts of a new list. -/
theorem listed (hq : QueueFacts s h v) (hinv : Inv s h) (hdated : s.db.Dated) (hdb : s'.db = s.db) {l : Site} :
    QueueFacts s' h' { v.next l (.store .listNonterminal) (.ok s.db.listNonterminal) with
      known := s'.db.logged } where
  known x hx := hx
  documents j document hmem := by
    rw [hdb]
    exact hq.documents j document hmem
  scanned x hx := by
    obtain ⟨row, hrow, -, rfl⟩ := Db.mem_listNonterminal.mp hx
    rw [hdb]
    exact (snapshot_in_log hinv.logs hrow).2
  ordered := pairwise_listNonterminal hinv.logs hdated
  complete _ j hwaits := by
    rw [hdb] at hwaits
    obtain ⟨row, hrow, hstate, -⟩ := hwaits
    obtain rfl := s.db.jobs.key_of_get hrow
    obtain ⟨hcolumn, -, hkey, -⟩ := hinv.logs.row _ row hrow
    refine ⟨row.snapshot, Db.mem_listNonterminal.mpr ⟨row, hrow, ?_, rfl⟩, hkey, hstate⟩
    rw [hcolumn, hstate]
    rfl
  pending j hj _ := by
    obtain ⟨x, hx, rfl, hstate⟩ := hj
    obtain ⟨row, hrow, -, rfl⟩ := Db.mem_listNonterminal.mp hx
    refine .inr (.inr ⟨row, ?_, hstate⟩)
    rw [hdb, (hinv.logs.row _ row hrow).2.2.1, hrow]
  refused j hj := by cases hj

/-- The facts after a step of the scheduler. -/
theorem resume {answers : Answers} (hq : QueueFacts s h v) (hdated : s.db.Dated) (hinv : Inv s h)
    (hinv' : Inv s' h') (hstep : Step config s h (.scheduler answers) s' h')
    (hserving : s.serving = true) (hserving' : s'.serving = true)
    (hturn : InTurn s (.scheduler answers)) (hs : s.step config (.scheduler answers) = some s')
    (hok : s.scheduler.Ok queueContract (fun _ _ => True) v) :
    ∃ v', QueueFacts s' h' v' ∧ s'.scheduler.Ok queueContract (fun _ _ => True) v' := by
  simp only [Agent.step] at hs
  split at hs
  · cases hs
  rename_i l c k hp
  rw [hp] at hok
  split at hs
  · cases hs
  rename_i r s₁ hr
  obtain rfl := Option.some.inj hs
  have hpost := queue_post hinv hq.known hok.1.2 hr
  refine ⟨{ v.next l c r with known := s₁.db.logged }, ?_, hok.resume hpost⟩
  by_cases hlist : c = .store .listNonterminal
  · subst hlist
    obtain ⟨rfl, rfl⟩ := Prod.mk.inj (Option.some.inj hr)
    refine hq.listed hinv hdated ?_
    rfl
  obtain ⟨hscan, hwritten, hcurrent⟩ := QueueView.next_scan (v := v) (l := l) (r := r) hlist
  have hwaiting : ∀ {j}, v.Waiting j →
      QueueView.Waiting { v.next l c r with known := s₁.db.logged } j := by
    rintro j ⟨x, hx, hrest⟩
    exact ⟨x, hscan ▸ hx, hrest⟩
  have hwaiting' : ∀ {j}, QueueView.Waiting { v.next l c r with known := s₁.db.logged } j →
      v.Waiting j := by
    rintro j ⟨x, hx, hrest⟩
    exact ⟨x, hscan ▸ hx, hrest⟩
  constructor
  case known => exact fun x hx => hx
  case documents =>
    intro j document hmem
    obtain ⟨row, hrow, hdocument⟩ :=
      (mem_documents_next hr hmem).elim (hq.documents j document) id
    obtain ⟨row', hrow', hsame, -⟩ := hstep.columns.kept j row hrow
    exact ⟨row', hrow', hsame.trans hdocument⟩
  case scanned => exact fun x hx => hpost.1.1 (hq.scanned x (hscan ▸ hx))
  case ordered => exact hscan ▸ hq.ordered
  case complete =>
    intro hcur j hwaits
    exact hwaiting (hq.complete (hcurrent hcur) j (waits_of_scheduler hok.1.2 hr hcur hwaits))
  case pending =>
    intro j hj hnew
    obtain hold | hactive | hstate :=
      hq.pending_before hinv hstep hserving hserving' (hwaiting' hj) hnew
    · exact .inl (hwritten hold)
    · exact .inr (.inl hactive)
    · by_cases hwrites : c.writesTo = some j
      · refine .inl ?_
        cases c with
        | store c =>
          cases c with
          | updateSnapshot => exact .inl (Option.some.inj hwrites).symm
          | _ => cases hwrites
        | _ => cases hwrites
      · exact .inr (.inr (inState_of_writesTo hr hwrites hstate))
  case refused =>
    intro j hj
    have hscanning : v.refused.Nonempty ∨ l = .scanning → s.scanning = true := by
      intro hl
      have hl : l = .scanning := hl.elim hok.1.1 id
      rw [Agent.scanning, hp, hl]
    obtain hold | ⟨ports, rfl, hnone⟩ := mem_refused_next hr hj
    · refine ⟨hwaiting (hq.refused j hold).1, fun _ a b hja hc hb => ?_⟩
      exact hq.refused_kept hinv hinv' hstep hserving hturn (hscanning (.inl ⟨j, hold⟩)) hold a b hja hc
        (hwaiting' hb)
    · -- the job is refused now
      obtain ⟨-, hl, -, x, rest, hx, hxj, hstate⟩ := hok.1.2
      obtain ⟨done, hsplit, -⟩ := hx.split
      have hj : v.Waiting j := ⟨x, by simp [hsplit], hxj, hstate⟩
      refine ⟨hwaiting hj, ?_⟩
      rintro - a' b' rfl hc hb
      obtain ⟨a, b, hc, hja, hjb, hda, hdb⟩ :=
        hq.contend_back hinv hinv' hstep hj (hwaiting' hb) hc
      have hblocked := hturn.refused _ ports ⟨answers, l, k, rfl, hp⟩
        (Leases.refuses_of_acquirePorts hnone) a b hja.symm hc
      exact (hstep.blocked hinv hserving hturn (hscanning (.inr hl)) hc hblocked).congr
        (fun _ _ => id) hja hjb hda hdb

end QueueFacts

/-! ### Runs -/

theorem QueueFacts.empty (s : Agent) (h : History) : QueueFacts s h {} where
  known := Known.holds_empty _
  documents _ _ hmem := hmem.elim
  scanned x hx := by simp at hx
  ordered := .nil
  complete hcurrent := by cases hcurrent
  pending _ hj := by simp [QueueView.Waiting] at hj
  refused _ hj := hj.elim

/-- The jobs are accepted when they are submitted, and the tick is in order. -/
structure QueueInv (s : Agent) (h : History) : Prop where
  dated : s.db.Dated
  tick : s.serving = true →
    ∃ v, QueueFacts s h v ∧ s.scheduler.Ok queueContract (fun _ _ => True) v

theorem QueueInv.step (hq : QueueInv s h) (hinv : Inv s h) (hinv' : Inv s' h')
    (hstep : Step config s h act s' h') (hs : s.step config act = some s') (hturn : InTurn s act) :
    QueueInv s' h' := by
  refine ⟨hstep.dated hinv hinv' hq.dated, fun hserving' => ?_⟩
  -- the scheduler does not move
  have hkeep : s.serving = true → (∀ answers, act ≠ .scheduler answers) →
      s'.scheduler = s.scheduler → h'.tick = h.tick →
        ∃ v, QueueFacts s' h' v ∧ s'.scheduler.Ok queueContract (fun _ _ => True) v := by
    intro hserving hact hscheduler htick
    obtain ⟨v, hfacts, hok⟩ := hq.tick hserving
    exact ⟨v, hfacts.step hinv hinv' hstep hserving hserving' hturn hact hscheduler htick,
      by rwa [hscheduler]⟩
  have hresume : s.serving = true → ∀ answers, act = .scheduler answers →
      ∃ v, QueueFacts s' h' v ∧ s'.scheduler.Ok queueContract (fun _ _ => True) v := by
    rintro hserving answers rfl
    obtain ⟨v, hfacts, hok⟩ := hq.tick hserving
    exact hfacts.resume hq.dated hinv hinv' hstep hserving hserving' hturn hs hok
  have hstep' := hstep
  cases hstep with
  | tickStore answers | tickIsActive answers | tickDropDone answers | tickSpawn answers
  | tickCall answers =>
    exact hresume hserving' answers rfl
  | recoverStore answers l c k v hnot | recoverCall answers l c k r v hnot =>
    exact absurd (hserving'.symm.trans hnot) nofun
  | serve x hnot hp => exact ⟨{}, .empty _ _, by rw [hp]; trivial⟩
  | tick => exact ⟨{}, .empty _ _, tick_queue config⟩
  | crash => cases hserving'
  | thrown act i t t' l c k e cancelling v ha =>
    refine hkeep hserving' ?_ rfl rfl
    rintro answers rfl
    cases ha
  | _ => exact hkeep hserving' nofun rfl rfl

theorem Agent.Reach.queue {logicalPorts : List PortId} (hs : s.Reach config InTurn logicalPorts) :
    ∃ h, Inv s h ∧ QueueInv s h := by
  induction hs with
  | init =>
    refine ⟨_, Inv.init logicalPorts, ⟨fun j row hrow => ?_, nofun⟩⟩
    simp [Agent.init, Db.empty] at hrow
  | step _ hc hs ih =>
    obtain ⟨h, hinv, hq⟩ := ih
    obtain ⟨h', hstep⟩ := step_traced hinv hs
    exact ⟨h', hinv.step hstep, hq.step hinv (hinv.step hstep) hstep hs hc⟩

/-- A job whose ports the scheduler tries is waiting. -/
theorem QueueFacts.tried (hq : QueueFacts s h v) (hinv : Inv s h) (hserving : s.serving = true)
    {job : JobId} {ports : List PortId} {l : Site} {k}
    (hp : s.scheduler = .await l (.store (.acquirePorts job ports)) k)
    (hpre : QueueCall v l (.acquirePorts job ports)) : InState s.db job .waitingForPorts := by
  obtain ⟨-, -, x, rest, hx, rfl, hstate⟩ := hpre
  obtain ⟨done, hsplit, -⟩ := hx.split
  obtain ⟨htick, hok⟩ := hinv.ticking hserving
  rw [hp] at hok
  obtain ⟨hinactive, -, huntouched⟩ := hok.1.2
  have hwaiting : v.Waiting x.jobId := ⟨x, by simp [hsplit], rfl, hstate⟩
  obtain hwritten | hactive | hwaits := hq.pending _ hwaiting huntouched
  · exact absurd hwritten (hx.todo x List.mem_cons_self)
  · exact absurd hactive (htick.inactive _ hinactive)
  · exact hwaits

/-- The list is in the order of the rows. -/
theorem QueueFacts.before (hq : QueueFacts s h v) (hinv : Inv s h) (hdated : s.db.Dated)
    {x y : JobSnapshot} (hx : x ∈ v.scan) (hy : y ∈ v.scan) (hxy : x.Earlier y)
    (ha : s.db.jobs.get a.jobId = some a) (hb : s.db.jobs.get b.jobId = some b)
    (hxa : x.jobId = a.jobId) (hyb : y.jobId = b.jobId) : Db.Before a b := by
  have hsame : ∀ {z : JobSnapshot} {r : JobRow}, z ∈ v.scan → s.db.jobs.get r.jobId = some r →
      z.jobId = r.jobId → z.submittedAt = r.acceptedAt := by
    intro z r hz hr hzr
    have hchain := hinv.logs.chain_row (hzr ▸ hq.known z (hq.scanned z hz)) hr
    rw [hdated _ r hr, (Writes.same_of_chain hchain).2.2.1]
  unfold JobSnapshot.Earlier at hxy
  rwa [hsame hx ha hxa, hsame hy hb hyb, hxa, hyb] at hxy

/-- Two different jobs are before each other in one order only. -/
theorem not_before_of_before (h : Db.Before a b) (hne : a.jobId ≠ b.jobId) : ¬ Db.Before b a := by
  rintro hback
  obtain hlt | ⟨heq, hle⟩ := h
  · obtain hlt' | ⟨heq', -⟩ := hback
    · exact lt_asymm hlt hlt'
    · exact hlt.ne heq'.symm
  · obtain hlt' | ⟨-, hle'⟩ := hback
    · exact hlt'.ne heq.symm
    · exact hne (le_antisymm hle hle')

/-- An earlier job that waits, and is not to be cancelled, has been refused its ports. -/
theorem QueueFacts.refused_before (hq : QueueFacts s h v) (hinv : Inv s h) (hdated : s.db.Dated)
    (hprecedes : Precedes s.db a b) (hlive : a.snapshot.cancelRequested = false) {x : JobSnapshot}
    {rest todo : List JobSnapshot} (hturn : v.Turn (x :: rest) todo) (hx : x.jobId = b.jobId) :
    a.jobId ∈ v.refused := by
  obtain ⟨done, hsplit, hdone⟩ := hturn.split
  obtain ⟨y, hy, hya, hstate⟩ := hq.complete hturn.current a.jobId
    ⟨a, hprecedes.first, hprecedes.waiting, hlive⟩
  -- it stands before the job that has its turn
  have hmem : y ∈ done := by
    have hscan := hy
    rw [hsplit, List.mem_append, List.mem_cons] at hscan
    obtain hmem | rfl | hmem := hscan
    · exact hmem
    · exact absurd (hya.symm.trans hx) hprecedes.ne
    · have hordered := hq.ordered
      rw [hsplit, List.pairwise_append, List.pairwise_cons] at hordered
      have hback := hq.before hinv hdated (by simp [hsplit]) hy (hordered.2.1.1 y hmem)
        hprecedes.second hprecedes.first hx hya
      exact absurd hback (not_before_of_before hprecedes.before hprecedes.ne)
  obtain hrefused | ⟨z, hz, hzj, hgone⟩ := hdone y hmem hstate
  · exact hya ▸ hrefused
  -- what has left the queue does not wait
  have hchain := hinv.logs.chain_row (hzj.trans hya ▸ hq.known z hz) hprecedes.first
  obtain hbegun | hcancel := Writes.gone_of_chain hchain hgone
  · rw [hprecedes.waiting] at hbegun
    cases hbegun
  · rw [hlive] at hcancel
    cases hcancel

/-- In a run in turn, no job gets its ports while an earlier one waits that needs one of them. -/
theorem granted_in_order (config : AgentConfig) (logicalPorts : List PortId)
    (hs : s.Reach config InTurn logicalPorts) (hturn : InTurn s act) : ¬ Overtakes s act := by
  rintro ⟨job, ports, fence, ⟨answers, l, k, rfl, hp⟩, hgrant, a, b, rfl, hprecedes⟩
  obtain ⟨h, hinv, hq⟩ := hs.queue
  cases hserving : s.serving with
  | false =>
    obtain ⟨-, -, -, -, hok⟩ := hinv.recovering hserving
    rw [hp] at hok
    exact hok.1.2.elim
  | true =>
    obtain ⟨v, hfacts, hok⟩ := hq.tick hserving
    rw [hp] at hok
    have hcall := hok.1.2.2
    obtain ⟨row, hrow, hwaits⟩ := hfacts.tried hinv hserving hp hcall
    obtain rfl := Option.some.inj (hrow.symm.trans hprecedes.second)
    have hgrants := Leases.grants_of_acquirePorts hgrant
    have hcontend : Contend s.db a row := ⟨hprecedes, hwaits⟩
    have hlive := hturn.uncancelled _ ports ⟨answers, l, k, rfl, hp⟩ hgrants a row rfl hcontend
    obtain ⟨rfl, ⟨document, hdocument, rfl⟩, x, rest, hx, hxj, hstate⟩ := hcall
    have hrefused := hfacts.refused_before hinv hq.dated hprecedes hlive hx hxj
    obtain ⟨done, hsplit, -⟩ := hx.split
    obtain ⟨p, -, hport, c, -, hc, hheld⟩ := (hfacts.refused _ hrefused).2
      (by rw [Agent.scanning, hp]) a row rfl hcontend ⟨x, by simp [hsplit], hxj, hstate⟩
    obtain ⟨row', hrow', rfl⟩ := hfacts.documents _ document hdocument
    obtain rfl := Option.some.inj (hrow.symm.trans hrow')
    exact hgrants.not_heldBy hport hc hheld

end Step

/-! ### A run in turn, and one that is not -/

/-- A stateless job on the given ports. -/
def portsDocument (ports : List PortId) (canonical : String) : JobDocument :=
  { labDocument with logicalPorts := ports, canonical }

/-- Job 5 gets port 0, and jobs 6 and 7 are submitted; the next tick begins. -/
def queueUp (first second : List PortId) : List Action :=
  Action.schedule 2 ++ [.serve, .submit 5 (portsDocument [0] "5") "user" "5" none, .tick] ++ Action.schedule 27 ++
    [.submit 6 (portsDocument first "6") "user" "6" none,
      .submit 7 (portsDocument second "7") "user" "7" none, .tick]

/-- The job waits, uncancelled, and its time has not run out. -/
def WaitsInTime (s : Agent) (r : JobRow) : Prop :=
  r.snapshot.state = .waitingForPorts ∧ r.snapshot.cancelRequested = false ∧
    s.now - r.snapshot.submittedAt ≤ r.document.portWaitTimeout

instance (s : Agent) (r : JobRow) : Decidable (WaitsInTime s r) :=
  inferInstanceAs (Decidable (_ ∧ _ ∧ _))

/-- `a` is before `b`, and they need a common port. -/
def Conflict (a b : JobRow) : Prop :=
  Db.Before a b ∧ a.jobId ≠ b.jobId ∧ ∃ p ∈ a.document.logicalPorts, p ∈ b.document.logicalPorts

instance : DecidableRel Conflict := fun _ _ => inferInstanceAs (Decidable (_ ∧ _ ∧ _))

theorem Precedes.of_rows {db : Db} {a b : JobRow} (ha : a ∈ db.jobs.rows) (hb : b ∈ db.jobs.rows)
    (hc : Conflict a b) (hwaiting : a.snapshot.state = .waitingForPorts) : Precedes db a b :=
  ⟨db.jobs.mem_rows.mp ha, db.jobs.mem_rows.mp hb, hc.1, hc.2.1, hc.2.2, hwaiting⟩

/-- The check of a state in which the scheduler grants a job its ports past a waiting one. -/
def overtakeCheck (s : Agent) : Bool :=
  match s.scheduler with
  | .await _ (.store (.acquirePorts job ports)) _ =>
    match (s.db.leases.acquirePorts job ports).1 with
    | .ok (some _) => s.db.jobs.rows.any fun a => s.db.jobs.rows.any fun b =>
      b.jobId = job ∧ Conflict a b ∧ WaitsInTime s a ∧ WaitsInTime s b
    | _ => false
  | _ => false

theorem overtakes_of_check {s : Agent} (h : overtakeCheck s = true) (answers : Answers) :
    Overtakes s (.scheduler answers) ∧
      ∃ a b, Contend s.db a b ∧ WaitsInTime s a ∧ WaitsInTime s b := by
  unfold overtakeCheck at h
  split at h
  · rename_i l job ports k hp
    split at h
    · rename_i fence hgrant
      obtain ⟨a, ha, h⟩ := List.any_eq_true.mp h
      obtain ⟨b, hb, h⟩ := List.any_eq_true.mp h
      obtain ⟨hjob, hc, hwa, hwb⟩ := of_decide_eq_true h
      have hprecedes := Precedes.of_rows ha hb hc hwa.1
      exact ⟨⟨job, ports, fence, ⟨answers, l, k, rfl, hp⟩, hgrant, a, b, hjob, hprecedes⟩,
        a, b, ⟨hprecedes, hwb.1⟩, hwa, hwb⟩
    · cases h
  · cases h

/-- Job 6 needs ports 0 and 1, and job 7 ports 1 and 2. Only port 0 is taken: job 6 is refused, and
job 7 gets port 1 in the same loop. -/
theorem not_granted_in_order :
    ∃ s, (Agent.init [0, 1, 2]).run labConfig (queueUp [0, 1] [1, 2] ++ Action.schedule 44) = some s ∧
      s.Reach labConfig (fun _ _ => True) [0, 1, 2] ∧
      (∃ a b, Contend s.db a b ∧ WaitsInTime s a ∧ WaitsInTime s b) ∧
      Overtakes s (.scheduler .succeed) := by
  have hrun : ((Agent.init [0, 1, 2]).run labConfig (queueUp [0, 1] [1, 2] ++ Action.schedule 44)).map
      overtakeCheck = some true := by decide +kernel
  obtain ⟨s, hs, hcheck⟩ := Option.map_eq_some_iff.mp hrun
  obtain ⟨hover, hcontend⟩ := overtakes_of_check hcheck .succeed
  exact ⟨s, hs, Agent.reach_of_run _ hs, hcontend, hover⟩

/-- Another job than the given ones holds the port. -/
def heldByOther (t : Leases) (others : List JobId) (p : PortId) : Bool :=
  t.rows.any fun r => r.portId = p && match r.jobId with
    | some c => c ∉ others
    | none => false

theorem heldByOther_iff {t : Leases} {others : List JobId} {p : PortId} :
    heldByOther t others p = true ↔ ∃ c, c ∉ others ∧ t.HeldBy p c := by
  unfold heldByOther Leases.HeldBy
  simp only [List.any_eq_true, Bool.and_eq_true, decide_eq_true_eq, Table.get_eq_some]
  constructor
  · rintro ⟨r, hr, hp, hc⟩
    split at hc
    · rename_i c hjob
      exact ⟨c, of_decide_eq_true hc, r, ⟨hr, hp⟩, hjob⟩
    · cases hc
  · rintro ⟨c, hc, r, ⟨hr, hp⟩, hjob⟩
    refine ⟨r, hr, hp, ?_⟩
    rw [hjob]
    exact decide_eq_true hc

/-- The check of `InTurn` on a state, for runs without a cancel and without a release in the second
loop. -/
def turnCheck (s : Agent) (act : Action) : Bool :=
  (match s.scheduler, act with
    | .await _ (.store (.acquirePorts job ports)) _, .scheduler _ =>
      (!ports.any (heldByOther s.db.leases [job]) || s.db.jobs.rows.all fun a =>
        s.db.jobs.rows.all fun b => !decide (a.jobId = job ∧ Conflict a b) ||
          a.document.logicalPorts.any fun p =>
            decide (p ∈ b.document.logicalPorts) && heldByOther s.db.leases [a.jobId, b.jobId] p) &&
        s.db.jobs.rows.all fun a => !a.snapshot.cancelRequested
    | _, _ => true) &&
  match s.transaction act with
  | some (.releasePorts ..) => !s.scanning
  | _ => true

theorem inTurn_of_check {s : Agent} {act : Action} (h : turnCheck s act = true) : InTurn s act := by
  obtain ⟨htries, hrelease⟩ := Bool.and_eq_true_iff.mp h
  refine ⟨?_, ?_, ?_⟩
  · rintro job ports ⟨answers, l, k, rfl, hp⟩ ⟨-, p, hport, c, hc, hheld⟩ a b rfl hcontend
    rw [hp] at htries
    obtain ⟨hblocked, -⟩ := Bool.and_eq_true_iff.mp htries
    have htaken : ports.any (heldByOther s.db.leases [a.jobId]) = true :=
      List.any_eq_true.mpr ⟨p, hport, heldByOther_iff.mpr ⟨c, by simpa using hc, hheld⟩⟩
    rw [htaken, Bool.not_true, Bool.false_or, List.all_eq_true] at hblocked
    have hpair := List.all_eq_true.mp (hblocked a (s.db.jobs.mem_rows.mpr hcontend.first)) b
      (s.db.jobs.mem_rows.mpr hcontend.second)
    rw [decide_eq_true (⟨rfl, hcontend.before, hcontend.ne, hcontend.common⟩ :
      a.jobId = a.jobId ∧ Conflict a b), Bool.not_true, Bool.false_or] at hpair
    obtain ⟨q, hq, hboth⟩ := List.any_eq_true.mp hpair
    obtain ⟨hqb, hother⟩ := Bool.and_eq_true_iff.mp hboth
    obtain ⟨d, hd, hheld⟩ := heldByOther_iff.mp hother
    rw [List.mem_pair, not_or] at hd
    exact ⟨q, hq, of_decide_eq_true hqb, d, hd.1, hd.2, hheld⟩
  · intro hscanning job quarantine htransaction
    rw [htransaction, hscanning] at hrelease
    cases hrelease
  · rintro job ports ⟨answers, l, k, rfl, hp⟩ - a b - hcontend
    rw [hp] at htries
    obtain ⟨-, hall⟩ := Bool.and_eq_true_iff.mp htries
    simpa using List.all_eq_true.mp hall a (s.db.jobs.mem_rows.mpr hcontend.first)

/-- The scheduler is about to try the ports for the job. -/
def triesCheck (s : Agent) (job : JobId) (ports : List PortId) : Bool :=
  match s.scheduler with
  | .await .scanning (.store (.acquirePorts job' ports')) _ => decide (job' = job ∧ ports' = ports)
  | _ => false

theorem exists_await_of_triesCheck {s : Agent} {job : JobId} {ports : List PortId}
    (h : triesCheck s job ports = true) :
    ∃ k, s.scheduler = .await .scanning (.store (.acquirePorts job ports)) k := by
  unfold triesCheck at h
  split at h
  · rename_i k hp
    obtain ⟨rfl, rfl⟩ := of_decide_eq_true h
    exact ⟨k, hp⟩
  · cases h

/-- Job 6 needs port 0, which is taken, and so is job 7's attempt at ports 0 and 2 in vain. -/
theorem granted_in_order_blocked :
    ∃ s, (Agent.init [0, 1, 2]).runChecked labConfig turnCheck
        (queueUp [0] [0, 2] ++ Action.schedule 44) = some s ∧
      (∃ k, s.scheduler = .await .scanning (.store (.acquirePorts 7 [0, 2])) k) ∧
      ¬ Overtakes s (.scheduler .succeed) := by
  have hrun : ((Agent.init [0, 1, 2]).runChecked labConfig turnCheck
      (queueUp [0] [0, 2] ++ Action.schedule 44)).map
        (fun s => turnCheck s (.scheduler .succeed) && triesCheck s 7 [0, 2]) = some true := by
    decide +kernel
  obtain ⟨s, hs, hcheck⟩ := Option.map_eq_some_iff.mp hrun
  obtain ⟨hturn, htries⟩ := Bool.and_eq_true_iff.mp hcheck
  exact ⟨s, hs, exists_await_of_triesCheck htries, granted_in_order labConfig [0, 1, 2]
    (Agent.reach_of_runChecked _ (fun _ _ => inTurn_of_check) .init hs) (inTurn_of_check hturn)⟩

end TrexCli
