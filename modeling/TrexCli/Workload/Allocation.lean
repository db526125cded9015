import Mathlib.Data.String.Basic
import Mathlib.Tactic.FieldSimp
import Mathlib.Tactic.Linarith
import Mathlib.Tactic.Positivity
import Mathlib.Tactic.Ring
import Mathlib.Algebra.Order.Field.Basic
import Mathlib.Algebra.Order.Ring.Rat
import Mathlib.Data.Rat.Cast.Order
import TrexCli.Lib.Apportionment

/-!
# Weighted allocation

`_weighted_integer_allocation` of `test_plan.py`: one unit for each name, and of the rest a share in
proportion to the weights, rounded by largest remainders.
-/

namespace TrexCli

/-- The order of `priority`: a larger remainder first, then the name. -/
def precedes (distributable denominator : Nat) (a b : String × Nat) : Bool :=
  let remainder := fun p : String × Nat => distributable * p.2 % denominator
  remainder b < remainder a || (remainder a == remainder b && decide (a.1 ≤ b.1))

/-- `_weighted_integer_allocation`, of the items of a dictionary. -/
def weightedIntegerAllocation (total : Nat) (weights : List (String × Nat)) :
    Except String (List (String × Nat)) :=
  if total < weights.length then .error "total allocation is smaller than the number of weights"
  else
    let denominator := (weights.map Prod.snd).sum
    let distributable := total - weights.length
    let allocation := weights.map fun p => (p.1, 1 + distributable * p.2 / denominator)
    let remaining := total - (allocation.map Prod.snd).sum
    let priority := (weights.mergeSort (precedes distributable denominator)).map Prod.fst
    .ok ((priority.take remaining).foldl Apportionment.bump allocation)

/-- A dictionary of positive weights that is not empty. -/
structure Weights where
  items : List (String × Nat)
  nodup : (items.map Prod.fst).Nodup
  nonempty : items ≠ []
  positive : ∀ p ∈ items, 0 < p.2

namespace Weights

/-- `len(weights)` -/
def count (w : Weights) : Nat := w.items.length

/-- `sum(weights.values())` -/
def sum (w : Weights) : Nat := (w.items.map Prod.snd).sum

/-- The whole is allocated to the names in proportion to their weights. -/
structure Apportions (w : Weights) (total : Nat) (allocation : List (String × Nat)) : Prop where
  names : allocation.map Prod.fst = w.items.map Prod.fst
  positive : ∀ p ∈ allocation, 1 ≤ p.2
  whole : (allocation.map Prod.snd).sum = total
  /-- Less than one from the exact share. -/
  near : ∀ name weight amount, (name, weight) ∈ w.items → (name, amount) ∈ allocation →
    |(amount : ℚ) - (1 + (total - w.count) * weight / w.sum)| < 1
  /-- A larger weight gets no less. -/
  ordered : ∀ name weight amount name' weight' amount', (name, weight) ∈ w.items →
    (name, amount) ∈ allocation → (name', weight') ∈ w.items → (name', amount') ∈ allocation →
      weight' < weight → amount' ≤ amount

variable (w : Weights) (total : Nat)

theorem sum_pos : 0 < w.sum := by
  obtain ⟨p, rest, heq⟩ := List.exists_cons_of_ne_nil w.nonempty
  have hpos := w.positive p (heq ▸ List.mem_cons_self)
  rw [sum, heq, List.map_cons, List.sum_cons]
  omega

/-- What is distributed in proportion. -/
def distributable : Nat := total - w.count

/-- `distributable * weights[name]`, over the sum of the weights. -/
def numerator (p : String × Nat) : Nat := w.distributable total * p.2

/-- The units that rounding down leaves over. -/
def leftover : Nat :=
  w.distributable total - (w.items.map fun p => w.numerator total p / w.sum).sum

/-- `priority` -/
def priority : List (String × Nat) := w.items.mergeSort (precedes (w.distributable total) w.sum)

/-- The names that get one more. -/
def chosen : List String := ((w.priority total).take (w.leftover total)).map Prod.fst

theorem sum_numerators :
    (w.items.map (w.numerator total)).sum = w.distributable total * w.sum :=
  List.sum_map_mul_left w.items Prod.snd (w.distributable total)

theorem sorted_priority : (w.priority total).Pairwise fun a b =>
    w.numerator total b % w.sum ≤ w.numerator total a % w.sum := by
  have hsorted := @List.pairwise_mergeSort (String × Nat)
    (precedes (w.distributable total) w.sum) ?_ ?_ w.items
  · refine hsorted.imp fun {a b} h => ?_
    simp only [precedes, Bool.or_eq_true, Bool.and_eq_true, decide_eq_true_eq, beq_iff_eq] at h
    unfold numerator
    omega
  · intro a b c hab hbc
    simp only [precedes, Bool.or_eq_true, Bool.and_eq_true, decide_eq_true_eq, beq_iff_eq]
      at hab hbc ⊢
    obtain hab | ⟨hab, hab'⟩ := hab
    · omega
    · obtain hbc | ⟨hbc, hbc'⟩ := hbc
      · omega
      · exact .inr ⟨hab.trans hbc, hab'.trans hbc'⟩
  · intro a b
    simp only [precedes, Bool.or_eq_true, Bool.and_eq_true, decide_eq_true_eq, beq_iff_eq]
    rcases lt_trichotomy (w.distributable total * a.2 % w.sum)
      (w.distributable total * b.2 % w.sum) with hlt | heq | hlt
    · exact .inr (.inl hlt)
    · exact (le_total a.1 b.1).imp (fun hname => .inr ⟨heq, hname⟩) fun hname => .inr ⟨heq.symm, hname⟩
    · exact .inl (.inl hlt)

theorem perm_priority : (w.priority total).Perm w.items := List.mergeSort_perm _ _

theorem sum_div_le : (w.items.map fun p => w.numerator total p / w.sum).sum ≤
    w.distributable total :=
  Apportionment.sum_div_le w.sum_pos (w.sum_numerators total)

theorem leftover_le : w.leftover total ≤
    (w.priority total).countP fun p => 0 < w.numerator total p % w.sum := by
  rw [(w.perm_priority total).countP_eq]
  exact Apportionment.leftover_le w.sum_pos (w.sum_numerators total)

/-- Who gets one more has a share that is not whole. -/
theorem remainder_pos_of_chosen {p : String × Nat} (hp : p ∈ w.items)
    (hchosen : p.1 ∈ w.chosen total) : 0 < w.numerator total p % w.sum := by
  obtain ⟨q, hq, hname⟩ := List.mem_map.mp hchosen
  have hmem := (w.perm_priority total).mem_iff.mp (List.mem_of_mem_take hq)
  obtain rfl := List.inj_on_of_nodup_map w.nodup hmem hp hname
  exact Apportionment.pos_of_mem_take (w.sorted_priority total) (w.leftover_le total) hq

/-- A larger remainder is not passed over. -/
theorem chosen_of_lt {p q : String × Nat} (hp : p ∈ w.items) (hq : q ∈ w.items)
    (hchosen : q.1 ∈ w.chosen total)
    (hlt : w.numerator total q % w.sum < w.numerator total p % w.sum) : p.1 ∈ w.chosen total := by
  obtain ⟨r, hr, hname⟩ := List.mem_map.mp hchosen
  have hmem := (w.perm_priority total).mem_iff.mp (List.mem_of_mem_take hr)
  obtain rfl := List.inj_on_of_nodup_map w.nodup hmem hq hname
  exact List.mem_map_of_mem (Apportionment.mem_take_of_lt (w.sorted_priority total)
    ((w.perm_priority total).mem_iff.mpr hp) hr hlt)

theorem nodup_chosen : (w.chosen total).Nodup := by
  have hnodup : ((w.priority total).map Prod.fst).Nodup :=
    ((w.perm_priority total).map Prod.fst).nodup_iff.mpr w.nodup
  exact hnodup.sublist ((List.take_sublist _ _).map _)

theorem length_chosen : (w.chosen total).length = w.leftover total := by
  have hcount := (w.leftover_le total).trans List.countP_le_length
  rw [chosen, List.length_map, List.length_take]
  omega

/-- What a name gets. -/
def amount (p : String × Nat) : Nat :=
  1 + w.numerator total p / w.sum + (w.chosen total).count p.1

variable {w total}

theorem weightedIntegerAllocation_eq (h : w.count ≤ total) :
    weightedIntegerAllocation total w.items =
      .ok (w.items.map fun p => (p.1, w.amount total p)) := by
  have hfloor := w.sum_div_le total
  have hones : ((w.items.map fun p => (p.1, 1 + w.numerator total p / w.sum)).map Prod.snd).sum =
      w.count + (w.items.map fun p => w.numerator total p / w.sum).sum := by
    rw [List.map_map, count]
    show (w.items.map fun p => 1 + w.numerator total p / w.sum).sum = _
    rw [List.sum_map_add]
    simp
  have hremaining : total - ((w.items.map fun p =>
      (p.1, 1 + w.numerator total p / w.sum)).map Prod.snd).sum = w.leftover total := by
    rw [hones, leftover, distributable]
    omega
  unfold weightedIntegerAllocation
  rw [if_neg (by rw [count] at h; omega)]
  show Except.ok ((((w.priority total).map Prod.fst).take (total - ((w.items.map fun p =>
      (p.1, 1 + w.numerator total p / w.sum)).map Prod.snd).sum)).foldl Apportionment.bump
    (w.items.map fun p => (p.1, 1 + w.numerator total p / w.sum))) = _
  rw [hremaining, ← List.map_take]
  show Except.ok ((w.chosen total).foldl _ _) = _
  rw [Apportionment.foldl_bump, List.map_map]
  rfl

theorem count_chosen_le (name : String) : (w.chosen total).count name ≤ 1 :=
  List.nodup_iff_count_le_one.mp (w.nodup_chosen total) name

theorem sum_amounts (h : w.count ≤ total) : (w.items.map (w.amount total)).sum = total := by
  have hfloor := w.sum_div_le total
  have hsub : ∀ name ∈ w.chosen total, name ∈ w.items.map Prod.fst := by
    intro name hname
    obtain ⟨p, hp, rfl⟩ := List.mem_map.mp hname
    exact List.mem_map_of_mem ((w.perm_priority total).mem_iff.mp (List.mem_of_mem_take hp))
  have hcount := Apportionment.sum_count w.nodup hsub
  rw [List.map_map, length_chosen] at hcount
  have hones : (w.items.map fun _ => 1).sum = w.count := by simp [count]
  have hparts : (w.items.map (w.amount total)).sum = (w.items.map fun _ => 1).sum +
      (w.items.map fun p => w.numerator total p / w.sum).sum +
        (w.items.map ((fun name => (w.chosen total).count name) ∘ Prod.fst)).sum := by
    rw [← List.sum_map_add, ← List.sum_map_add]
    rfl
  rw [hparts, hones, hcount, leftover]
  unfold distributable at hfloor ⊢
  omega

/-- The amount is less than one from the exact share: the part left off or added is a remainder. -/
theorem amount_near (h : w.count ≤ total) {p : String × Nat} (hp : p ∈ w.items) :
    |(w.amount total p : ℚ) - (1 + (total - w.count) * p.2 / w.sum)| < 1 := by
  have hpos : (0 : ℚ) < w.sum := by exact_mod_cast w.sum_pos
  have hle := @count_chosen_le w total p.1
  have hremainder : (w.chosen total).count p.1 = 1 → 0 < w.numerator total p % w.sum := by
    intro hone
    exact w.remainder_pos_of_chosen total hp (List.count_pos_iff.mp (by omega))
  have hlt := Nat.mod_lt (w.numerator total p) w.sum_pos
  have hdivision : ((total : ℚ) - w.count) * p.2 / w.sum =
      (w.numerator total p / w.sum : ℕ) + (w.numerator total p % w.sum : ℕ) / (w.sum : ℚ) := by
    have hcast : ((total : ℚ) - w.count) * p.2 = (w.numerator total p : ℕ) := by
      rw [numerator, distributable, Nat.cast_mul, Nat.cast_sub h]
    rw [hcast, eq_comm, ← mul_left_inj' hpos.ne']
    field_simp
    exact_mod_cast Nat.div_add_mod' (w.numerator total p) w.sum
  rw [hdivision, amount]
  generalize w.numerator total p / w.sum = quotient at *
  generalize w.numerator total p % w.sum = remainder at *
  generalize (w.chosen total).count p.1 = extra at *
  have hfraction : (remainder : ℚ) / w.sum < 1 := by
    rw [div_lt_one hpos]
    exact_mod_cast hlt
  have hnonneg : (0 : ℚ) ≤ remainder / w.sum := by positivity
  push_cast
  rw [abs_lt]
  obtain rfl | rfl : extra = 0 ∨ extra = 1 := by omega
  · constructor
    · push_cast
      linarith
    · push_cast
      linarith
  · have hremainderPos : (0 : ℚ) < remainder / w.sum := by
      have := hremainder rfl
      positivity
    constructor
    · push_cast
      linarith
    · push_cast
      linarith

/-- Of two names with the same quotient the one with the larger weight has the larger remainder. -/
theorem amount_mono {p q : String × Nat} (hp : p ∈ w.items) (hq : q ∈ w.items)
    (hlt : q.2 < p.2) : w.amount total q ≤ w.amount total p := by
  have hnumerators : w.numerator total q ≤ w.numerator total p :=
    Nat.mul_le_mul_left _ hlt.le
  have hquotients := Nat.div_le_div_right (c := w.sum) hnumerators
  have hleq := @count_chosen_le w total q.1
  unfold amount
  rcases Nat.lt_or_ge (w.numerator total q / w.sum) (w.numerator total p / w.sum) with hless | hsame
  · omega
  · by_cases hchosen : q.1 ∈ w.chosen total
    · have hremainder := w.remainder_pos_of_chosen total hq hchosen
      have hdistributable : 0 < w.distributable total := by
        rcases Nat.eq_zero_or_pos (w.distributable total) with hzero | hpos
        · rw [numerator, hzero, Nat.zero_mul, Nat.zero_mod] at hremainder
          exact absurd hremainder (lt_irrefl 0)
        · exact hpos
      have hless : w.numerator total q < w.numerator total p :=
        Nat.mul_lt_mul_of_pos_left hlt hdistributable
      have hdivp := Nat.div_add_mod (w.numerator total p) w.sum
      have hdivq := Nat.div_add_mod (w.numerator total q) w.sum
      have hequal : w.numerator total q / w.sum = w.numerator total p / w.sum := by omega
      rw [← hequal] at hdivp
      have hchosenp := w.chosen_of_lt total hp hq hchosen (by omega)
      have hpos := List.count_pos_iff.mpr hchosenp
      omega
    · rw [List.count_eq_zero.mpr hchosen]
      omega

/-- Largest remainders apportion every total that is large enough. -/
theorem exists_allocation (h : w.count ≤ total) : ∃ allocation,
    weightedIntegerAllocation total w.items = .ok allocation ∧ w.Apportions total allocation := by
  have hitem : ∀ {name weight amount}, (name, weight) ∈ w.items →
      (name, amount) ∈ w.items.map (fun p => (p.1, w.amount total p)) →
        amount = w.amount total (name, weight) := by
    intro name weight amount hweight hamount
    obtain ⟨p, hp, heq⟩ := List.mem_map.mp hamount
    obtain ⟨hname, rfl⟩ := Prod.mk.inj heq
    rw [List.inj_on_of_nodup_map w.nodup hp hweight hname]
  refine ⟨_, weightedIntegerAllocation_eq h, ?_, ?_, ?_, ?_, ?_⟩
  · rw [List.map_map]
    rfl
  · intro p hp
    obtain ⟨q, -, rfl⟩ := List.mem_map.mp hp
    show 1 ≤ w.amount total q
    rw [amount, Nat.add_assoc]
    exact Nat.le_add_right 1 _
  · rw [List.map_map]
    exact sum_amounts h
  · intro name weight amount hweight hamount
    rw [hitem hweight hamount]
    exact amount_near h hweight
  · intro name weight amount name' weight' amount' hweight hamount hweight' hamount' hlt
    rw [hitem hweight hamount, hitem hweight' hamount']
    exact amount_mono hweight hweight' hlt

end Weights

end TrexCli
