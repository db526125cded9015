import Mathlib.Algebra.Order.BigOperators.Group.List
import TrexCli.Lib.Framing

/-!
# Sequences of labels

A sequence of labels as octets: each label after its length in one octet, and a zero at the end. A
length above 63 is no label. A decoder reads such a sequence off the front of any octets.
-/

namespace Labels

/-- A label and its octets. -/
abbrev Label := List UInt8

/-- A label that has a length octet, and is not the end. -/
def Valid (label : Label) : Prop := 1 ≤ label.length ∧ label.length ≤ 63

/-- `b"".join(bytes([len(label)]) + label) + b"\0"` -/
def encode : List Label → List UInt8
  | [] => [0]
  | label :: rest => .ofNat label.length :: label ++ encode rest

/-- The labels at the front, and what stands after them; `fuel` bounds the number of labels. -/
def decodeFrom : Nat → List UInt8 → Option (List Label × List UInt8)
  | 0, _ => none
  | _ + 1, [] => none
  | fuel + 1, size :: rest =>
    if size = 0 then some ([], rest)
    else if 63 < size.toNat ∨ rest.length < size.toNat then none
    else (decodeFrom fuel (rest.drop size.toNat)).map fun p => (rest.take size.toNat :: p.1, p.2)

/-- The labels at the front, and what stands after them. -/
def decode (octets : List UInt8) : Option (List Label × List UInt8) := decodeFrom octets.length octets

/-- The octets of an encoding. -/
theorem length_encode (labels : List Label) :
    (encode labels).length = (labels.map fun label => label.length + 1).sum + 1 := by
  induction labels with
  | nil => rfl
  | cons label rest ih =>
    simp only [encode, List.length_append, List.length_cons, ih, List.map_cons, List.sum_cons]
    omega

theorem length_lt_length_encode (labels : List Label) : labels.length < (encode labels).length := by
  rw [length_encode]
  have hsum := List.length_le_sum_of_one_le (labels.map fun label => label.length + 1) (by simp)
  rw [List.length_map] at hsum
  omega

theorem decodeFrom_encode {labels : List Label} (h : ∀ label ∈ labels, Valid label) {fuel : Nat}
    (hfuel : labels.length < fuel) (rest : List UInt8) :
    decodeFrom fuel (encode labels ++ rest) = some (labels, rest) := by
  induction labels generalizing fuel with
  | nil =>
    obtain ⟨fuel, rfl⟩ := Nat.exists_eq_succ_of_ne_zero (Nat.ne_of_gt hfuel)
    rfl
  | cons label labels ih =>
    obtain ⟨fuel, rfl⟩ := Nat.exists_eq_succ_of_ne_zero (Nat.ne_of_gt (Nat.zero_lt_of_lt hfuel))
    obtain ⟨hpos, hmax⟩ := h label List.mem_cons_self
    have hsize : (UInt8.ofNat label.length).toNat = label.length := by
      rw [UInt8.toNat_ofNat']
      omega
    have hne : UInt8.ofNat label.length ≠ 0 := by
      intro hzero
      rw [hzero] at hsize
      simp only [UInt8.toNat_zero] at hsize
      omega
    have hrest := ih (fun l hl => h l (List.mem_cons_of_mem _ hl)) (Nat.lt_of_succ_lt_succ hfuel)
    simp only [encode, List.cons_append, List.append_assoc, decodeFrom, if_neg hne, hsize]
    rw [if_neg (by simp; omega), List.drop_left, List.take_left, hrest]
    rfl

/-- The labels are read off the front of any octets. -/
theorem decode_encode {labels : List Label} (h : ∀ label ∈ labels, Valid label) (rest : List UInt8) :
    decode (encode labels ++ rest) = some (labels, rest) := by
  refine decodeFrom_encode h ?_ rest
  rw [List.length_append]
  exact Nat.lt_add_right _ (length_lt_length_encode labels)

end Labels
