import Mathlib.Data.List.Nodup
import Mathlib.Data.List.Dedup
import Mathlib.Tactic.Common

/-!
# Tables with a primary key

A table is a list of rows, in insertion order, no two of which have the same key; the uniqueness
constraint is a field, so a table that breaks it cannot be built. Every statement on a table is
characterised by what it does to `get`, the lookup by key.
-/

variable {K R : Type} [DecidableEq K]

structure Table (K R : Type) [DecidableEq K] (key : R → K) where
  rows : List R
  nodup : (rows.map key).Nodup

namespace Table

variable {key : R → K} (t : Table K R key)

/-- The table without rows. -/
def empty : Table K R key := ⟨[], List.nodup_nil⟩

/-- `SELECT * … WHERE key = k` -/
def get (k : K) : Option R := t.rows.find? fun r => key r = k

/-- `UPDATE`: `f` changes the rows it concerns, and no key. -/
def update (f : R → R) (hf : ∀ r, key (f r) = key r) : Table K R key where
  rows := t.rows.map f
  nodup := by
    rw [List.map_map, show key ∘ f = key from funext hf]
    exact t.nodup

/-- `DELETE … WHERE p` -/
def delete (p : R → Bool) : Table K R key where
  rows := t.rows.filter fun r => !p r
  nodup := t.nodup.sublist (List.filter_sublist.map key)

theorem get_eq_some {k : K} {r : R} : t.get k = some r ↔ r ∈ t.rows ∧ key r = k := by
  constructor
  · intro h
    exact ⟨List.mem_of_find?_eq_some h, by simpa using List.find?_some h⟩
  · rintro ⟨hr, rfl⟩
    cases hf : t.get (key r) with
    | none =>
      have hne := List.find?_eq_none.mp hf r hr
      simp at hne
    | some r' =>
      have hk : key r' = key r := by simpa using List.find?_some hf
      rw [List.inj_on_of_nodup_map t.nodup (List.mem_of_find?_eq_some hf) hr hk]

theorem get_eq_none {k : K} : t.get k = none ↔ ∀ r ∈ t.rows, key r ≠ k := by
  rw [get, List.find?_eq_none]
  simp

theorem mem_rows {r : R} : r ∈ t.rows ↔ t.get (key r) = some r := by
  rw [get_eq_some]
  simp

theorem key_of_get {k : K} {r : R} (h : t.get k = some r) : key r = k := (t.get_eq_some.mp h).2

/-- `INSERT OR IGNORE` -/
def insertOrIgnore (r : R) : Table K R key :=
  if h : t.get (key r) = none then
    ⟨t.rows ++ [r], by
      have hk := t.get_eq_none.mp h
      simpa [List.nodup_append, t.nodup] using hk⟩
  else t

/-- `INSERT`: `none` when the key is taken. -/
def insert (r : R) : Option (Table K R key) :=
  if (t.get (key r)).isNone then some (t.insertOrIgnore r) else none

/-- `INSERT … ON CONFLICT(key) DO UPDATE`, all columns -/
def upsert (r : R) : Table K R key := (t.delete fun r' => key r' = key r).insertOrIgnore r

@[simp] theorem get_empty (k : K) : (empty : Table K R key).get k = none := rfl

@[simp] theorem get_update (f : R → R) (hf : ∀ r, key (f r) = key r) (k : K) :
    (t.update f hf).get k = (t.get k).map f := by
  simp only [get, update, List.find?_map]
  congr 2
  funext r
  simp [hf]

@[simp] theorem get_delete (p : R → Bool) (k : K) :
    (t.delete p).get k = (t.get k).filter fun r => !p r := by
  cases h : t.get k with
  | none =>
    rw [Option.filter_none, get_eq_none]
    intro r hr
    exact t.get_eq_none.mp h r (List.mem_of_mem_filter hr)
  | some r =>
    obtain ⟨hr, hk⟩ := t.get_eq_some.mp h
    cases hp : p r with
    | false =>
      rw [Option.filter_some_pos (by simp [hp]), get_eq_some]
      exact ⟨List.mem_filter.mpr ⟨hr, by simp [hp]⟩, hk⟩
    | true =>
      rw [Option.filter_some_neg (by simp [hp]), get_eq_none]
      intro r' hr' hk'
      obtain ⟨hm, hp'⟩ := List.mem_filter.mp hr'
      have : r' = r := List.inj_on_of_nodup_map t.nodup hm hr (hk'.trans hk.symm)
      subst this
      simp [hp] at hp'

theorem get_insertOrIgnore (r : R) (k : K) :
    (t.insertOrIgnore r).get k = if key r = k then some ((t.get k).getD r) else t.get k := by
  unfold insertOrIgnore
  by_cases h : t.get (key r) = none
  · rw [dif_pos h]
    by_cases hk : key r = k
    · subst hk
      rw [if_pos rfl, h, Option.getD_none, get_eq_some]
      exact ⟨by simp, rfl⟩
    · rw [if_neg hk, get, get, List.find?_append]
      simp [hk]
  · rw [dif_neg h]
    by_cases hk : key r = k
    · subst hk
      obtain ⟨r', hr'⟩ := Option.ne_none_iff_exists'.mp h
      rw [if_pos rfl, hr', Option.getD_some]
    · rw [if_neg hk]

theorem get_insert {r : R} {t' : Table K R key} (h : t.insert r = some t') (k : K) :
    t'.get k = if key r = k then some r else t.get k := by
  unfold insert at h
  split at h
  · rename_i hn
    obtain rfl := Option.some.inj h
    rw [get_insertOrIgnore]
    split
    · rename_i hk
      subst hk
      rw [Option.isNone_iff_eq_none.mp hn, Option.getD_none]
    · rfl
  · cases h

theorem insert_rows {r : R} {t' : Table K R key} (h : t.insert r = some t') :
    t'.rows = t.rows ++ [r] := by
  unfold insert insertOrIgnore at h
  split at h
  · rename_i hn
    rw [dif_pos (Option.isNone_iff_eq_none.mp hn)] at h
    rw [← Option.some.inj h]
  · cases h

theorem insert_eq_none {r : R} : t.insert r = none ↔ t.get (key r) ≠ none := by
  cases h : t.get (key r) <;> simp [insert, h]

@[simp] theorem get_upsert (r : R) (k : K) :
    (t.upsert r).get k = if key r = k then some r else t.get k := by
  unfold upsert
  rw [get_insertOrIgnore, get_delete]
  by_cases hk : key r = k
  · rw [if_pos hk, if_pos hk]
    cases h : t.get k with
    | none => rfl
    | some r' => simp [Option.filter, t.key_of_get h, hk]
  · rw [if_neg hk, if_neg hk]
    cases h : t.get k with
    | none => rfl
    | some r' => simp [Option.filter, t.key_of_get h, Ne.symm hk]

/-- A table is determined by its lookups, up to the order of its rows. -/
theorem mem_rows_iff {r : R} : r ∈ t.rows ↔ ∃ k, t.get k = some r :=
  ⟨fun h => ⟨key r, t.mem_rows.mp h⟩, fun ⟨_, h⟩ => (t.get_eq_some.mp h).1⟩

end Table
