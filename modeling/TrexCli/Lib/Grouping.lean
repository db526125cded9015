import Mathlib.Data.List.Induction
import Mathlib.Data.List.Nodup
import Mathlib.Tactic.Common

/-!
# Lists grouped by a key

A dictionary of lists, in the order of its keys' first appearance. A key has one group: the elements
with that key, in their order.
-/

namespace Grouping

variable {K α : Type} [DecidableEq K]

/-- `groups.setdefault(k, []).append(x)` -/
def append (k : K) (x : α) : List (K × List α) → List (K × List α)
  | [] => [(k, [x])]
  | (k', group) :: rest =>
    if k' = k then (k', group ++ [x]) :: rest else (k', group) :: append k x rest

/-- The groups of a list. -/
def groupBy (key : α → K) (xs : List α) : List (K × List α) :=
  xs.foldl (fun groups x => append (key x) x groups) []

variable {key : α → K} {groups : List (K × List α)} {xs : List α}

/-- Each key of the list has one group, with the elements of that key. -/
structure Groups (key : α → K) (xs : List α) (groups : List (K × List α)) : Prop where
  nodup : (groups.map Prod.fst).Nodup
  mem_keys : ∀ k, k ∈ groups.map Prod.fst ↔ k ∈ xs.map key
  eq_filter : ∀ g ∈ groups, g.2 = xs.filter fun x => key x = g.1

theorem mem_keys_append {k : K} {x : α} (k' : K) :
    k' ∈ (append k x groups).map Prod.fst ↔ k' ∈ groups.map Prod.fst ∨ k' = k := by
  induction groups with
  | nil => simp [append]
  | cons g groups ih =>
    obtain ⟨k'', group⟩ := g
    rw [append]
    by_cases hk : k'' = k
    · rw [if_pos hk]
      subst hk
      simp only [List.map_cons, List.mem_cons]
      tauto
    · rw [if_neg hk]
      simp only [List.map_cons, List.mem_cons, ih]
      tauto

theorem nodup_append {k : K} {x : α} (h : (groups.map Prod.fst).Nodup) :
    ((append k x groups).map Prod.fst).Nodup := by
  induction groups with
  | nil => simp [append]
  | cons g groups ih =>
    obtain ⟨k', group⟩ := g
    obtain ⟨hnot, hrest⟩ := List.nodup_cons.mp h
    rw [append]
    by_cases hk : k' = k
    · rwa [if_pos hk]
    · rw [if_neg hk]
      refine List.nodup_cons.mpr ⟨fun hmem => ?_, ih hrest⟩
      rcases (mem_keys_append k').mp hmem with hmem | rfl
      · exact hnot hmem
      · exact hk rfl

/-- A group grows by the element when it has its key, and is new when there was none. -/
theorem mem_append {k : K} {x : α} {g : K × List α} (hnodup : (groups.map Prod.fst).Nodup)
    (h : g ∈ append k x groups) :
    g ∈ groups ∧ g.1 ≠ k ∨ (∃ group, (k, group) ∈ groups ∧ g = (k, group ++ [x])) ∨
      k ∉ groups.map Prod.fst ∧ g = (k, [x]) := by
  induction groups with
  | nil =>
    right
    right
    simpa [append] using h
  | cons g' groups ih =>
    obtain ⟨k', group⟩ := g'
    obtain ⟨hnot, hrest⟩ := List.nodup_cons.mp hnodup
    rw [append] at h
    by_cases hk : k' = k
    · subst hk
      rw [if_pos rfl] at h
      rcases List.mem_cons.mp h with rfl | h
      · exact .inr (.inl ⟨group, List.mem_cons_self, rfl⟩)
      · refine .inl ⟨List.mem_cons_of_mem _ h, fun hg => hnot ?_⟩
        exact List.mem_map.mpr ⟨g, h, hg⟩
    · rw [if_neg hk] at h
      rcases List.mem_cons.mp h with rfl | h
      · exact .inl ⟨List.mem_cons_self, hk⟩
      · rcases ih hrest h with ⟨hmem, hne⟩ | ⟨group', hmem, hg⟩ | ⟨hnone, hg⟩
        · exact .inl ⟨List.mem_cons_of_mem _ hmem, hne⟩
        · exact .inr (.inl ⟨group', List.mem_cons_of_mem _ hmem, hg⟩)
        · refine .inr (.inr ⟨?_, hg⟩)
          rw [List.map_cons, List.mem_cons, not_or]
          exact ⟨fun heq => hk heq.symm, hnone⟩

theorem Groups.append (h : Groups key xs groups) (x : α) :
    Groups key (xs ++ [x]) (append (key x) x groups) where
  nodup := nodup_append h.nodup
  mem_keys k := by
    rw [mem_keys_append, h.mem_keys]
    simp [eq_comm]
  eq_filter g hg := by
    rw [List.filter_append]
    rcases mem_append h.nodup hg with ⟨hmem, hne⟩ | ⟨group, hmem, rfl⟩ | ⟨hnone, rfl⟩
    · rw [h.eq_filter g hmem, List.filter_singleton]
      simp [hne.symm]
    · have hgroup : group = xs.filter fun y => key y = key x := h.eq_filter _ hmem
      rw [hgroup]
      simp
    · rw [h.mem_keys] at hnone
      have hfilter : (xs.filter fun y => key y = key x) = [] := by
        rw [List.filter_eq_nil_iff]
        intro y hy hkey
        exact hnone (List.mem_map.mpr ⟨y, hy, by simpa using hkey⟩)
      simp [hfilter]

theorem groups_groupBy (key : α → K) (xs : List α) : Groups key xs (groupBy key xs) := by
  induction xs using List.reverseRecOn with
  | nil => exact ⟨List.nodup_nil, by simp [groupBy], by simp [groupBy]⟩
  | append_singleton xs x ih =>
    rw [groupBy, List.foldl_append]
    exact ih.append x

theorem Groups.mem_iff {x : α} {g : K × List α} (h : Groups key xs groups) (hg : g ∈ groups) :
    x ∈ g.2 ↔ x ∈ xs ∧ key x = g.1 := by
  rw [h.eq_filter g hg]
  simp

/-- An element is in the group of its key. -/
theorem Groups.exists_mem {x : α} (h : Groups key xs groups) (hx : x ∈ xs) :
    ∃ g ∈ groups, g.1 = key x ∧ x ∈ g.2 := by
  obtain ⟨g, hg, hkey⟩ := List.mem_map.mp ((h.mem_keys (key x)).mpr (List.mem_map_of_mem hx))
  exact ⟨g, hg, hkey, (h.mem_iff hg).mpr ⟨hx, hkey.symm⟩⟩

/-- A key that two groups have is of one group. -/
theorem Groups.eq_of_key {g g' : K × List α} (h : Groups key xs groups) (hg : g ∈ groups)
    (hg' : g' ∈ groups) (hkey : g.1 = g'.1) : g = g' :=
  List.inj_on_of_nodup_map h.nodup hg hg' hkey

end Grouping
