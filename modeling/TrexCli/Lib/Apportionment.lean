import Mathlib.Algebra.BigOperators.Ring.List
import Mathlib.Algebra.Ring.Nat
import Mathlib.Data.List.Nodup
import Mathlib.Tactic.Common

/-!
# Largest remainders

Shares of a whole are numerators over one denominator. Rounded down they leave over less than one unit
for each share that is not whole, so when the leftover units go to the shares in the order of their
remainders, none goes to a whole one, and a share with a larger remainder is not passed over.
-/

namespace Apportionment

variable {α ν : Type}

/-! ### The leftover -/

section Leftover

variable {items : List α} {numerator : α → Nat} {denominator whole : Nat}

theorem sum_div_add_sum_mod (items : List α) (numerator : α → Nat) (denominator : Nat) :
    denominator * (items.map fun a => numerator a / denominator).sum +
      (items.map fun a => numerator a % denominator).sum = (items.map numerator).sum := by
  rw [← List.sum_map_mul_left items (fun a => numerator a / denominator), ← List.sum_map_add]
  simp only [Nat.div_add_mod]

theorem sum_mod_le (items : List α) (numerator : α → Nat) (hpos : 0 < denominator) :
    (items.map fun a => numerator a % denominator).sum ≤
      denominator * items.countP fun a => 0 < numerator a % denominator := by
  induction items with
  | nil => simp
  | cons a items ih =>
    have hlt := Nat.mod_lt (numerator a) hpos
    rw [List.map_cons, List.sum_cons, List.countP_cons, Nat.mul_add]
    by_cases hwhole : 0 < numerator a % denominator
    · rw [if_pos (by simpa using hwhole), Nat.mul_one]
      omega
    · rw [if_neg (by simpa using hwhole), Nat.mul_zero]
      omega

/-- The shares rounded down are at most the whole. -/
theorem sum_div_le (hpos : 0 < denominator)
    (hsum : (items.map numerator).sum = whole * denominator) :
    (items.map fun a => numerator a / denominator).sum ≤ whole := by
  have hparts := sum_div_add_sum_mod items numerator denominator
  rw [hsum, Nat.mul_comm whole] at hparts
  exact Nat.le_of_mul_le_mul_left (by omega) hpos

/-- There are at least as many shares that are not whole as units left over. -/
theorem leftover_le (hpos : 0 < denominator)
    (hsum : (items.map numerator).sum = whole * denominator) :
    whole - (items.map fun a => numerator a / denominator).sum ≤
      items.countP fun a => 0 < numerator a % denominator := by
  have hparts := sum_div_add_sum_mod items numerator denominator
  have hmod := sum_mod_le items numerator hpos
  rw [hsum, Nat.mul_comm whole] at hparts
  refine Nat.le_of_mul_le_mul_left ?_ hpos
  rw [Nat.mul_sub]
  omega

end Leftover

/-! ### The order of the remainders -/

section Order

variable {items : List α} {remainder : α → Nat} {count : Nat}

/-- The first items of a list in falling order have a remainder when there are enough that have one. -/
theorem pos_of_mem_take (hsorted : items.Pairwise fun a b => remainder b ≤ remainder a)
    (hcount : count ≤ items.countP fun a => 0 < remainder a) {a : α} (ha : a ∈ items.take count) :
    0 < remainder a := by
  by_contra hzero
  rw [← List.take_append_drop count items, List.pairwise_append] at hsorted
  have hrest : (items.drop count).countP (fun a => 0 < remainder a) = 0 := by
    rw [List.countP_eq_zero]
    intro b hb
    have hle := hsorted.2.2 a ha b hb
    simp only [decide_eq_true_eq]
    omega
  have hfirst : (items.take count).countP (fun a => 0 < remainder a) < (items.take count).length := by
    refine lt_of_le_of_ne List.countP_le_length fun hall => ?_
    exact hzero (by simpa using List.countP_eq_length.mp hall a ha)
  rw [← List.take_append_drop count items, List.countP_append, hrest] at hcount
  have hlength := List.length_take_le count items
  omega

/-- An item with a larger remainder than one of the first is one of the first. -/
theorem mem_take_of_lt (hsorted : items.Pairwise fun a b => remainder b ≤ remainder a) {a b : α}
    (ha : a ∈ items) (hb : b ∈ items.take count) (hlt : remainder b < remainder a) :
    a ∈ items.take count := by
  rw [← List.take_append_drop count items, List.pairwise_append] at hsorted
  rw [← List.take_append_drop count items] at ha
  rcases List.mem_append.mp ha with ha | ha
  · exact ha
  · have hle := hsorted.2.2 b hb a ha
    omega

end Order

/-! ### Units added by name -/

section Bump

variable [DecidableEq ν]

/-- `allocation[name] += 1` -/
def bump (allocation : List (ν × Nat)) (name : ν) : List (ν × Nat) :=
  allocation.map fun p => if p.1 = name then (p.1, p.2 + 1) else p

/-- Each name gets a unit for each time that it is listed. -/
theorem foldl_bump (names : List ν) (allocation : List (ν × Nat)) :
    names.foldl bump allocation = allocation.map fun p => (p.1, p.2 + names.count p.1) := by
  induction names generalizing allocation with
  | nil => simp
  | cons name names ih =>
    rw [List.foldl_cons, ih, bump, List.map_map]
    apply List.map_congr_left
    intro p _
    by_cases hname : p.1 = name
    · simp [hname]
      omega
    · simp [hname, List.count_cons_of_ne (Ne.symm hname)]

theorem sum_indicator (names : List ν) (name : ν) :
    (names.map fun n => if name = n then 1 else 0).sum = names.count name := by
  induction names with
  | nil => rfl
  | cons n names ih =>
    rw [List.map_cons, List.sum_cons, ih, List.count_cons, Nat.add_comm]
    by_cases heq : n = name
    · simp [heq]
    · simp [heq, Ne.symm heq]

/-- Names listed among others are as many as the units they get. -/
theorem sum_count {names chosen : List ν} (hnodup : names.Nodup) (hsub : ∀ n ∈ chosen, n ∈ names) :
    (names.map fun n => chosen.count n).sum = chosen.length := by
  induction chosen with
  | nil => simp
  | cons name chosen ih =>
    have hcount : ∀ n, (name :: chosen).count n = chosen.count n + if name = n then 1 else 0 := by
      intro n
      rw [List.count_cons]
      simp
    simp only [hcount]
    rw [List.sum_map_add, ih fun n hn => hsub n (List.mem_cons_of_mem _ hn), sum_indicator,
      List.count_eq_one_of_mem hnodup (hsub name List.mem_cons_self), List.length_cons]

end Bump

end Apportionment
