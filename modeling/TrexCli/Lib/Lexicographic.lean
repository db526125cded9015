import Mathlib.Data.Nat.Digits.Defs
import Mathlib.Tactic.Common

/-!
# Texts that compare as what they write

Fields of a fixed width compare as a whole: a text of fields is before another when the first field
that differs is. Numerals with leading zeros compare as the numbers.
-/

namespace Lexicographic

theorem append_lt_append_iff {α : Type} [LT α] [Std.Irrefl (α := α) (· < ·)] {a b x y : List α}
    (h : a.length = b.length) : a ++ x < b ++ y ↔ a < b ∨ a = b ∧ x < y := by
  induction a generalizing b with
  | nil =>
    obtain rfl : b = [] := List.length_eq_zero_iff.mp h.symm
    simp
  | cons c a ih =>
    rcases b with _ | ⟨d, b⟩
    · simp at h
    · rw [List.length_cons, List.length_cons, Nat.add_right_cancel_iff] at h
      simp only [List.cons_append, List.cons_lt_cons_iff, ih h, List.cons.injEq]
      grind

/-- The last `width` digits of `n` to base `b`. -/
def fixedDigits (b : Nat) : (width n : Nat) → List Char
  | 0, _ => []
  | width + 1, n => fixedDigits b width (n / b) ++ [Nat.digitChar (n % b)]

@[simp] theorem length_fixedDigits (b width n : Nat) : (fixedDigits b width n).length = width := by
  induction width generalizing n with
  | zero => rfl
  | succ width ih => simp [fixedDigits, ih]

/-- The first of the last `width + 1` digits. -/
theorem fixedDigits_succ (b width n : Nat) : fixedDigits b (width + 1) n =
    Nat.digitChar (n / b ^ width % b) :: fixedDigits b width n := by
  induction width generalizing n with
  | zero => simp [fixedDigits]
  | succ width ih =>
    rw [fixedDigits, ih, List.cons_append, Nat.div_div_eq_div_mul, ← Nat.pow_succ', fixedDigits]

theorem digitChar_lt_iff {m n : Nat} (hm : m < 16) (hn : n < 16) :
    Nat.digitChar m < Nat.digitChar n ↔ m < n := by
  have h : ∀ m : Fin 16, ∀ n : Fin 16, Nat.digitChar m < Nat.digitChar n ↔ m.val < n.val := by decide
  exact h ⟨m, hm⟩ ⟨n, hn⟩

theorem digitChar_inj {m n : Nat} (hm : m < 16) (hn : n < 16)
    (h : Nat.digitChar m = Nat.digitChar n) : m = n := by
  have hirrefl : ¬Nat.digitChar n < Nat.digitChar n := Nat.lt_irrefl _
  have hlt := (digitChar_lt_iff hm hn).not.mp (by rwa [h])
  have hgt := (digitChar_lt_iff hn hm).not.mp (by rwa [h])
  omega

variable {b width m n : Nat}

theorem fixedDigits_inj (hb : 0 < b) (hb' : b ≤ 16) (hm : m < b ^ width) (hn : n < b ^ width)
    (h : fixedDigits b width m = fixedDigits b width n) : m = n := by
  induction width generalizing m n with
  | zero =>
    rw [Nat.pow_zero] at hm hn
    omega
  | succ width ih =>
    obtain ⟨hrest, hlast⟩ := List.append_inj h (by simp)
    rw [Nat.pow_succ'] at hm hn
    have hdiv := ih (Nat.div_lt_of_lt_mul hm) (Nat.div_lt_of_lt_mul hn) hrest
    have hmod : m % b = n % b := digitChar_inj ((Nat.mod_lt m hb).trans_le hb')
      ((Nat.mod_lt n hb).trans_le hb') (List.singleton_inj.mp hlast)
    rw [← Nat.div_add_mod m b, ← Nat.div_add_mod n b, hdiv, hmod]

theorem fixedDigits_lt_iff (hb : 0 < b) (hb' : b ≤ 16) (hm : m < b ^ width) (hn : n < b ^ width) :
    fixedDigits b width m < fixedDigits b width n ↔ m < n := by
  induction width generalizing m n with
  | zero =>
    rw [Nat.pow_zero] at hm hn
    simp [fixedDigits]
    omega
  | succ width ih =>
    rw [Nat.pow_succ'] at hm hn
    have hm' := Nat.div_lt_of_lt_mul hm
    have hn' := Nat.div_lt_of_lt_mul hn
    have hlast : [Nat.digitChar (m % b)] < [Nat.digitChar (n % b)] ↔ m % b < n % b := by
      rw [List.cons_lt_cons_iff]
      simp only [List.lt_irrefl, and_false, or_false]
      exact digitChar_lt_iff ((Nat.mod_lt m hb).trans_le hb') ((Nat.mod_lt n hb).trans_le hb')
    have heq : fixedDigits b width (m / b) = fixedDigits b width (n / b) ↔ m / b = n / b :=
      ⟨fixedDigits_inj hb hb' hm' hn', fun h => by rw [h]⟩
    rw [fixedDigits, fixedDigits, append_lt_append_iff (by simp), ih hm' hn', heq, hlast]
    constructor
    · rintro (h | ⟨h, h'⟩)
      · exact Nat.lt_of_not_le fun hle => absurd (Nat.div_le_div_right hle) (Nat.not_le.mpr h)
      · calc m = b * (n / b) + m % b := by rw [← h, Nat.div_add_mod]
          _ < b * (n / b) + n % b := Nat.add_lt_add_left h' _
          _ = n := Nat.div_add_mod n b
    · intro h
      rcases Nat.lt_or_eq_of_le (Nat.div_le_div_right (c := b) h.le) with hlt | heq
      · exact .inl hlt
      · refine .inr ⟨heq, ?_⟩
        have h1 := Nat.div_add_mod m b
        have h2 := Nat.div_add_mod n b
        rw [heq] at h1
        omega

end Lexicographic
