import Mathlib.Algebra.Order.Ring.Nat
import Mathlib.Tactic.Ring
import Mathlib.Tactic.Positivity

/-!
# Octets at offsets

Big-endian fields of a memory of octets: a number is written to a field, and a field is read as a
number. A field that is written reads back, a field apart from it is unchanged, and a field is read
from its parts. The numbers of a range have the octets that its ends start with.
-/

/-- An octet at each offset. -/
abbrev Octets := Nat → UInt8

namespace Octets

/-- The number in a field. -/
def read (m : Octets) (offset : Nat) : Nat → Nat
  | 0 => 0
  | size + 1 => m.read offset size * 256 + (m (offset + size)).toNat

/-- A number put into a field. -/
def write (m : Octets) (offset size value : Nat) : Octets := fun i =>
  if offset ≤ i ∧ i < offset + size then .ofNat (value / 256 ^ (offset + size - 1 - i)) else m i

variable {m : Octets} {offset size value : Nat}

theorem read_congr {m' : Octets} (h : ∀ i, offset ≤ i → i < offset + size → m i = m' i) :
    m.read offset size = m'.read offset size := by
  induction size with
  | zero => rfl
  | succ size ih =>
    rw [read, read, ih fun i hlow hhigh => h i hlow (by omega), h _ (by omega) (by omega)]

/-- An octet outside the field that is written. -/
theorem write_apply_of_outside {i : Nat} (h : i < offset ∨ offset + size ≤ i) :
    m.write offset size value i = m i := by
  rw [write, if_neg (by omega)]

/-- A field apart from the one that is written. -/
theorem read_write_of_disjoint {offset' size' : Nat}
    (h : offset' + size' ≤ offset ∨ offset + size ≤ offset') :
    (m.write offset size value).read offset' size' = m.read offset' size' := by
  refine read_congr fun i hlow hhigh => ?_
  rw [write, if_neg (by omega)]

theorem read_write_self (m : Octets) (offset size value : Nat) :
    (m.write offset size value).read offset size = value % 256 ^ size := by
  have hparts : ∀ k ≤ size, (m.write offset size value).read offset k =
      value / 256 ^ (size - k) % 256 ^ k := by
    intro k hk
    induction k with
    | zero => rw [read, pow_zero, Nat.mod_one]
    | succ k ih =>
      have hoctet : ((m.write offset size value) (offset + k)).toNat =
          value / 256 ^ (size - (k + 1)) % 256 := by
        rw [write, if_pos (by omega), UInt8.toNat_ofNat',
          show offset + size - 1 - (offset + k) = size - (k + 1) by omega]
      rw [read, ih (by omega), hoctet, show size - k = size - (k + 1) + 1 by omega, pow_succ 256,
        ← Nat.div_div_eq_div_mul, pow_succ, mul_comm (256 ^ k), Nat.mod_mul]
      ring
  rw [hparts size le_rfl, Nat.sub_self, pow_zero, Nat.div_one]

theorem read_add (m : Octets) (offset a b : Nat) :
    m.read offset (a + b) = m.read offset a * 256 ^ b + m.read (offset + a) b := by
  induction b with
  | zero => simp [read]
  | succ b ih =>
    rw [← add_assoc, read, ih, read, pow_succ, add_assoc offset]
    ring

theorem read_lt (m : Octets) (offset size : Nat) : m.read offset size < 256 ^ size := by
  induction size with
  | zero => simp [read]
  | succ size ih =>
    have hoctet := (m (offset + size)).toNat_lt
    rw [read, pow_succ]
    omega

/-- A field of which the lower octets are written keeps the upper ones. -/
theorem read_write_suffix (m : Octets) (offset a b value : Nat) :
    (m.write (offset + a) b value).read offset (a + b) =
      m.read offset (a + b) / 256 ^ b * 256 ^ b + value % 256 ^ b := by
  have hupper : m.read offset (a + b) / 256 ^ b = m.read offset a := by
    rw [read_add, add_comm, Nat.add_mul_div_right _ _ (by positivity),
      Nat.div_eq_of_lt (m.read_lt _ b), zero_add]
  rw [read_add, read_write_of_disjoint (.inl le_rfl), read_write_self, hupper]

/-- Octets put into a place of another memory. -/
def load (m : Octets) (offset size : Nat) (payload : Octets) : Octets := fun i =>
  if offset ≤ i ∧ i < offset + size then payload (i - offset) else m i

theorem read_load (m : Octets) (payload : Octets) {place length a n : Nat} (h : a + n ≤ length) :
    (m.load place length payload).read (place + a) n = payload.read a n := by
  induction n with
  | zero => rfl
  | succ n ih =>
    rw [read, read, ih (by omega), load, if_pos (by omega), Nat.add_assoc, Nat.add_sub_cancel_left]

theorem read_load_of_disjoint (m : Octets) (payload : Octets) {place length a n : Nat}
    (h : a + n ≤ place ∨ place + length ≤ a) : (m.load place length payload).read a n = m.read a n := by
  refine read_congr fun i hlow hhigh => ?_
  rw [load, if_neg (by omega)]

/-! ### The octets of a number -/

/-- The octets of a number, the upper ones first. -/
def bigEndian : Nat → Nat → List Nat
  | 0, _ => []
  | size + 1, n => n / 256 ^ size % 256 :: bigEndian size n

theorem getElem?_bigEndian {size n i : Nat} (h : i < size) :
    (bigEndian size n)[i]? = some (n / 256 ^ (size - 1 - i) % 256) := by
  induction size generalizing i with
  | zero => omega
  | succ size ih =>
    cases i with
    | zero => simp [bigEndian]
    | succ i =>
      rw [bigEndian, List.getElem?_cons_succ, ih (by omega)]
      congr 4
      omega

/-- The octets of a number are those of its remainder. -/
theorem bigEndian_congr {size n m : Nat} (h : n % 256 ^ size = m % 256 ^ size) :
    bigEndian size n = bigEndian size m := by
  induction size with
  | zero => rfl
  | succ size ih =>
    rw [pow_succ] at h
    have hrest : n % 256 ^ size = m % 256 ^ size := by
      rw [← Nat.mod_mul_right_mod n (256 ^ size) 256, h, Nat.mod_mul_right_mod]
    have hoctet : n / 256 ^ size % 256 = m / 256 ^ size % 256 := by
      rw [← Nat.mod_mul_right_div_self n, h, Nat.mod_mul_right_div_self]
    rw [bigEndian, bigEndian, hoctet, ih hrest]

/-- A prefix that the ends of a range share is one of each number between them. -/
theorem prefix_bigEndian_between {octets : List Nat} {size first last n : Nat}
    (hupper : first / 256 ^ size = last / 256 ^ size) (hlow : first ≤ n) (hhigh : n ≤ last)
    (hfirst : octets <+: bigEndian size first) (hlast : octets <+: bigEndian size last) :
    octets <+: bigEndian size n := by
  induction size generalizing octets with
  | zero => exact hfirst
  | succ size ih =>
    cases octets with
    | nil => exact List.nil_prefix
    | cons octet octets =>
      obtain ⟨hoctetFirst, hrestFirst⟩ := List.cons_prefix_cons.mp hfirst
      obtain ⟨hoctetLast, hrestLast⟩ := List.cons_prefix_cons.mp hlast
      rw [pow_succ, ← Nat.div_div_eq_div_mul, ← Nat.div_div_eq_div_mul] at hupper
      have hsame : first / 256 ^ size = last / 256 ^ size := by omega
      have hn : n / 256 ^ size = first / 256 ^ size := by
        have hleft : first / 256 ^ size ≤ n / 256 ^ size := Nat.div_le_div_right hlow
        have hright : n / 256 ^ size ≤ last / 256 ^ size := Nat.div_le_div_right hhigh
        omega
      refine List.cons_prefix_cons.mpr ⟨?_, ih hsame hrestFirst hrestLast⟩
      rw [hn]
      exact hoctetFirst

end Octets
