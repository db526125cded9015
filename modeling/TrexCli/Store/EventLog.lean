import Mathlib.Logic.Relation
import TrexCli.Store.Db

/-!
# The event log of a job

`Logged W db` says that the log of every job is a chain: revisions `1, …, n` without gap, each event
related to the one before by `W`, and the row of the job showing the last. Writing a snapshot that is
a `W`-successor of the row's snapshot keeps it (`Logged.append`), so what a log looks like is what
one write does, carried along the chain (`Logged.chain`).
-/

namespace TrexCli

namespace Db

/-- The event log of every job is a `W`-chain that starts with an event satisfying `A` and ends with
the snapshot in the row of the job. -/
structure Logged (A : JobSnapshot → Prop) (W : JobSnapshot → JobSnapshot → Prop) (db : Db) :
    Prop where
  row : ∀ j row, db.jobs.get j = some row → row.state = row.snapshot.state ∧
    row.revision = row.snapshot.revision ∧ row.snapshot.jobId = j ∧ 1 ≤ row.revision
  event : ∀ j r s, db.logOf j r = some s → s.jobId = j ∧ s.revision = r
  revisions : ∀ j r, (db.logOf j r).isSome ↔
    ∃ row, db.jobs.get j = some row ∧ 1 ≤ r ∧ r ≤ row.revision
  last : ∀ j row, db.jobs.get j = some row → db.logOf j row.revision = some row.snapshot
  first : ∀ j s, db.logOf j 1 = some s → A s
  next : ∀ j r s s', db.logOf j r = some s → db.logOf j (r + 1) = some s' → W s s'

/-- No event of `db` is lost or changed in `db'`. -/
def Extends (db db' : Db) : Prop := ∀ j r s, db.logOf j r = some s → db'.logOf j r = some s

theorem Extends.refl (db : Db) : Extends db db := fun _ _ _ h => h

theorem Extends.trans {db db' db'' : Db} (h : Extends db db') (h' : Extends db' db'') :
    Extends db db'' := fun j r s hs => h' j r s (h j r s hs)

theorem Appended.extends {db db' : Db} {s : JobSnapshot} (h : Appended db db' s) :
    Extends db db' := by
  intro j r s' hs'
  rw [h.log]
  split
  · rename_i hjr
    rw [hjr.1, hjr.2, h.fresh] at hs'
    cases hs'
  · exact hs'

variable {A : JobSnapshot → Prop} {W : JobSnapshot → JobSnapshot → Prop} {db db' : Db}

theorem logged_empty : Logged A W empty where
  row := by simp [empty]
  event := by simp [empty, logOf]
  revisions := by simp [empty, logOf]
  last := by simp [empty]
  first := by simp [empty, logOf]
  next := by simp [empty, logOf]

/-- A change of other tables keeps the log. -/
theorem Logged.of_eq (h : Logged A W db) (hjobs : db'.jobs = db.jobs)
    (hevents : db'.events = db.events) : Logged A W db' := by
  have hlog : db'.logOf = db.logOf := by
    funext j r
    rw [logOf, hevents, logOf]
  exact ⟨hjobs ▸ h.row, hlog ▸ h.event, hjobs ▸ hlog ▸ h.revisions, hjobs ▸ hlog ▸ h.last,
    hlog ▸ h.first, hlog ▸ h.next⟩

namespace Logged

variable (h : Logged A W db)
include h

theorem mono {W' : JobSnapshot → JobSnapshot → Prop} (hW : ∀ s s', W s s' → W' s s') :
    Logged A W' db :=
  { h with next := fun j r s s' hs hs' => hW s s' (h.next j r s s' hs hs') }

/-- The row of a job is its newest event. -/
theorem row_of_log {j : JobId} {r : Nat} {s : JobSnapshot} (hs : db.logOf j r = some s) :
    ∃ row, db.jobs.get j = some row ∧ 1 ≤ r ∧ r ≤ row.revision :=
  (h.revisions j r).mp (by rw [hs]; rfl)

/-- Events of one job are related along the chain. -/
theorem chain {j : JobId} {r r' : Nat} {s s' : JobSnapshot} (hs : db.logOf j r = some s)
    (hs' : db.logOf j r' = some s') (hle : r ≤ r') : Relation.ReflTransGen W s s' := by
  obtain ⟨row, hrow, h1, -⟩ := h.row_of_log hs
  obtain ⟨row', hrow', -, hr'⟩ := h.row_of_log hs'
  obtain rfl := Option.some.inj (hrow.symm.trans hrow')
  induction r', hle using Nat.le_induction generalizing s' with
  | base =>
    obtain rfl := Option.some.inj (hs.symm.trans hs')
    exact .refl
  | succ r' hle ih =>
    have hsome : (db.logOf j r').isSome := (h.revisions j r').mpr ⟨row, hrow, by omega, by omega⟩
    obtain ⟨s₁, hs₁⟩ := Option.isSome_iff_exists.mp hsome
    exact (ih hs₁ (by omega)).tail (h.next j r' s₁ s' hs₁ hs')

/-- Every event leads to the row's snapshot. -/
theorem chain_row {j : JobId} {r : Nat} {s : JobSnapshot} {row : JobRow}
    (hs : db.logOf j r = some s) (hrow : db.jobs.get j = some row) :
    Relation.ReflTransGen W s row.snapshot := by
  obtain ⟨row', hrow', -, hr⟩ := h.row_of_log hs
  obtain rfl := Option.some.inj (hrow.symm.trans hrow')
  exact h.chain hs (h.last j row hrow) hr

/-- What the first event satisfies and a write keeps holds of every event. -/
theorem forall_events {P : JobSnapshot → Prop} (hA : ∀ s, A s → P s)
    (hW : ∀ s s', P s → W s s' → P s') {j : JobId} {r : Nat} {s : JobSnapshot}
    (hs : db.logOf j r = some s) : P s := by
  obtain ⟨row, hrow, h1, hr⟩ := h.row_of_log hs
  obtain ⟨s₁, hs₁⟩ := Option.isSome_iff_exists.mp ((h.revisions j 1).mpr ⟨row, hrow, le_rfl, by omega⟩)
  have hchain := h.chain hs₁ hs h1
  clear hs
  induction hchain with
  | refl => exact hA _ (h.first j _ hs₁)
  | tail _ hstep ih => exact hW _ _ ih hstep

/-- Writing the next revision of a job keeps the log. -/
theorem extend {s : JobSnapshot} (happ : Appended db db' s) (hpos : 1 ≤ s.revision)
    (hprev : ∀ r, (db.logOf s.jobId r).isSome ↔ 1 ≤ r ∧ r < s.revision)
    (hA : s.revision = 1 → A s)
    (hW : ∀ r x, db.logOf s.jobId r = some x → r + 1 = s.revision → W x s) :
    Logged A W db' := by
  obtain ⟨row', hrow', hsnap, hrev', hstate⟩ := happ.row
  refine ⟨fun j rj hj => ?_, fun j r x hx => ?_, fun j r => ?_, fun j rj hj => ?_,
    fun j x hx => ?_, fun j r x y hx hy => ?_⟩
  · by_cases heq : j = s.jobId
    · subst heq
      obtain rfl := Option.some.inj (hj.symm.trans hrow')
      exact ⟨by rw [hstate, hsnap], by rw [hrev', hsnap], by rw [hsnap], by omega⟩
    · rw [happ.rest j heq] at hj
      exact h.row j rj hj
  · rw [happ.log] at hx
    split at hx
    · rename_i hjr
      obtain rfl := Option.some.inj hx
      exact ⟨hjr.1.symm, hjr.2.symm⟩
    · exact h.event j r x hx
  · rw [happ.log]
    by_cases heq : j = s.jobId
    · subst heq
      have hrevs : (∃ row, db'.jobs.get s.jobId = some row ∧ 1 ≤ r ∧ r ≤ row.revision) ↔
          1 ≤ r ∧ r ≤ s.revision := by
        simp [hrow', hrev']
      rw [hrevs]
      by_cases hr : r = s.revision
      · rw [if_pos ⟨rfl, hr⟩]
        exact ⟨fun _ => by omega, fun _ => rfl⟩
      · rw [if_neg fun hc => hr hc.2, hprev]
        omega
    · rw [if_neg fun hc => heq hc.1, h.revisions, happ.rest j heq]
  · rw [happ.log]
    by_cases heq : j = s.jobId
    · subst heq
      obtain rfl := Option.some.inj (hj.symm.trans hrow')
      rw [if_pos ⟨rfl, hrev'⟩, hsnap]
    · rw [if_neg fun hc => heq hc.1]
      exact h.last j rj (happ.rest j heq ▸ hj)
  · rw [happ.log] at hx
    split at hx
    · rename_i hjr
      exact Option.some.inj hx ▸ hA hjr.2.symm
    · exact h.first j x hx
  · rw [happ.log] at hx hy
    split at hx
    · rename_i hjr
      -- the new event is the last one
      rw [if_neg fun hc => by omega, hjr.1] at hy
      have hlt := ((hprev (r + 1)).mp (by rw [hy]; rfl)).2
      omega
    · split at hy
      · rename_i hjr
        obtain rfl := Option.some.inj hy
        obtain ⟨rfl, hr⟩ := hjr
        exact hW r x hx hr
      · exact h.next j r x y hx hy

/-- Writing a successor of the row's snapshot keeps the log. -/
theorem append {s : JobSnapshot} {row : JobRow} (happ : Appended db db' s)
    (hrow : db.jobs.get s.jobId = some row) (hrev : s.revision = row.revision + 1)
    (hw : W row.snapshot s) : Logged A W db' := by
  have h1 := (h.row _ _ hrow).2.2.2
  refine h.extend happ (by omega) (fun r => ?_) (fun h0 => by omega) fun r x hx hr => ?_
  · rw [h.revisions]
    simp only [hrow, Option.some.injEq, exists_eq_left', hrev]
    omega
  · obtain rfl : r = row.revision := by omega
    rw [h.last _ row hrow] at hx
    exact Option.some.inj hx ▸ hw

/-- Creating a job whose first snapshot is accepted keeps the log. -/
theorem create {s : JobSnapshot} (happ : Appended db db' s) (hnew : db.jobs.get s.jobId = none)
    (hrev : s.revision = 1) (ha : A s) : Logged A W db' := by
  have hempty : ∀ r, (db.logOf s.jobId r).isSome = false := by
    intro r
    rw [Bool.eq_false_iff, ne_eq, h.revisions]
    rintro ⟨row, hrow, -⟩
    rw [hnew] at hrow
    cases hrow
  refine h.extend happ hrev.ge (fun r => ?_) (fun _ => ha) fun r x hx _ => ?_
  · rw [hempty r, hrev]
    simp
    omega
  · have hnone := hempty r
    rw [hx] at hnone
    cases hnone

end Logged

end Db

end TrexCli
