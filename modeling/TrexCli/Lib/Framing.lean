import Mathlib.Algebra.Group.Nat.Defs
import Mathlib.Algebra.GroupWithZero.Nat
import Mathlib.Data.List.Basic
import Mathlib.Tactic.Common

/-!
# Self-delimiting encodings

An encoding is self-delimiting when it can be read off the front of any text: two encodings with
something after them that are the same text are encodings of the same value, with the same rest.
Such encodings are put one after another and repeated. Fields of a fixed length are self-delimiting,
and so are texts after their length.
-/

/-- On the values in `P`, the encoding can be read off the front of any text. -/
def SelfDelimiting {α β : Type} (P : α → Prop) (encode : α → List β) : Prop :=
  ∀ ⦃a b r s⦄, P a → P b → encode a ++ r = encode b ++ s → a = b ∧ r = s

namespace SelfDelimiting

variable {α β γ : Type} {P : α → Prop} {Q : γ → Prop} {encode : α → List β} {encode' : γ → List β}

theorem injOn (h : SelfDelimiting P encode) {a b : α} (ha : P a) (hb : P b)
    (heq : encode a = encode b) : a = b :=
  (h ha hb (r := []) (s := []) (by rw [heq])).1

/-- A field of a fixed length. -/
theorem of_length {n : Nat} (hlength : ∀ a, P a → (encode a).length = n)
    (hinj : ∀ a b, P a → P b → encode a = encode b → a = b) : SelfDelimiting P encode := by
  intro a b r s ha hb heq
  have hparts := List.append_inj heq ((hlength a ha).trans (hlength b hb).symm)
  exact ⟨hinj a b ha hb hparts.1, hparts.2⟩

/-- One encoding after another. -/
theorem append (h : SelfDelimiting P encode) (h' : SelfDelimiting Q encode') :
    SelfDelimiting (fun p : α × γ => P p.1 ∧ Q p.2) (fun p => encode p.1 ++ encode' p.2) := by
  intro p q r s hp hq heq
  simp only [List.append_assoc] at heq
  obtain ⟨hfirst, hrest⟩ := h hp.1 hq.1 heq
  obtain ⟨hsecond, hrest⟩ := h' hp.2 hq.2 hrest
  exact ⟨Prod.ext hfirst hsecond, hrest⟩

/-- The encoding of what a value is made of. -/
theorem comap {f : γ → α} (h : SelfDelimiting P encode) (hf : ∀ a b, f a = f b → a = b)
    (hQ : ∀ a, Q a → P (f a)) : SelfDelimiting Q (fun a => encode (f a)) := by
  intro a b r s ha hb heq
  obtain ⟨hvalue, hrest⟩ := h (hQ a ha) (hQ b hb) heq
  exact ⟨hf a b hvalue, hrest⟩

/-- A sequence of encodings that are not empty has one reading. -/
theorem flatMap_injOn (h : SelfDelimiting P encode) (hne : ∀ a, P a → encode a ≠ []) {xs ys : List α}
    (hxs : ∀ x ∈ xs, P x) (hys : ∀ y ∈ ys, P y) (heq : xs.flatMap encode = ys.flatMap encode) :
    xs = ys := by
  induction xs generalizing ys with
  | nil =>
    match ys, heq with
    | [], _ => rfl
    | y :: ys, heq =>
      have hempty := (List.append_eq_nil_iff.mp (List.flatMap_cons.symm.trans heq.symm)).1
      exact absurd hempty (hne y (hys y List.mem_cons_self))
  | cons x xs ih =>
    match ys, heq with
    | [], heq =>
      have hempty := (List.append_eq_nil_iff.mp (List.flatMap_cons.symm.trans heq)).1
      exact absurd hempty (hne x (hxs x List.mem_cons_self))
    | y :: ys, heq =>
      rw [List.flatMap_cons, List.flatMap_cons] at heq
      obtain ⟨rfl, hrest⟩ := h (hxs x List.mem_cons_self) (hys y List.mem_cons_self) heq
      rw [ih (fun x hx => hxs x (List.mem_cons_of_mem _ hx))
        (fun y hy => hys y (List.mem_cons_of_mem _ hy)) hrest]

/-- A field that may be missing, before a sequence whose encodings begin otherwise. -/
theorem optional_flatMap_injOn (hfield : SelfDelimiting Q encode') (h : SelfDelimiting P encode)
    (hhead : ∀ c a, Q c → P a → (encode' c).head? ≠ (encode a).head?)
    (hne : ∀ a, P a → encode a ≠ []) (hne' : ∀ c, Q c → encode' c ≠ []) {o o' : Option γ}
    {xs ys : List α} (ho : ∀ c ∈ o, Q c) (ho' : ∀ c ∈ o', Q c) (hxs : ∀ x ∈ xs, P x)
    (hys : ∀ y ∈ ys, P y)
    (heq : o.elim [] encode' ++ xs.flatMap encode = o'.elim [] encode' ++ ys.flatMap encode) :
    o = o' ∧ xs = ys := by
  -- a field is not read as the first element, nor as the end of the sequence
  have hmixed : ∀ {c : γ} {zs ws : List α}, Q c → (∀ z ∈ zs, P z) →
      encode' c ++ ws.flatMap encode ≠ zs.flatMap encode := by
    intro c zs ws hc hzs heq
    obtain ⟨first, rest, hfirst⟩ := List.exists_cons_of_ne_nil (hne' c hc)
    cases zs with
    | nil =>
      rw [hfirst] at heq
      cases heq
    | cons z zs =>
      obtain ⟨head, tail, hencode⟩ := List.exists_cons_of_ne_nil (hne z (hzs z List.mem_cons_self))
      rw [hfirst, List.flatMap_cons, hencode] at heq
      have hsame := (List.cons.inj heq).1
      refine hhead c z hc (hzs z List.mem_cons_self) ?_
      rw [hfirst, hencode, List.head?_cons, List.head?_cons, hsame]
  cases o with
  | none =>
    cases o' with
    | none => exact ⟨rfl, h.flatMap_injOn hne hxs hys heq⟩
    | some c' => exact absurd heq.symm (hmixed (ho' c' rfl) hxs)
  | some c =>
    cases o' with
    | none => exact absurd heq (hmixed (ho c rfl) hys)
    | some c' =>
      obtain ⟨rfl, hrest⟩ := hfield (ho c rfl) (ho' c' rfl) heq
      exact ⟨rfl, h.flatMap_injOn hne hxs hys hrest⟩

end SelfDelimiting

/-! ### Numbers -/

/-- A number in a field of octets, the most significant one first. -/
def bigEndian : Nat → Nat → List UInt8
  | 0, _ => []
  | size + 1, n => bigEndian size (n / 256) ++ [.ofNat n]

@[simp] theorem length_bigEndian (size n : Nat) : (bigEndian size n).length = size := by
  induction size generalizing n with
  | zero => rfl
  | succ size ih => rw [bigEndian, List.length_append, ih, List.length_singleton]

theorem bigEndian_inj {size n m : Nat} (hn : n < 256 ^ size) (hm : m < 256 ^ size)
    (h : bigEndian size n = bigEndian size m) : n = m := by
  induction size generalizing n m with
  | zero => omega
  | succ size ih =>
    rw [Nat.pow_succ] at hn hm
    obtain ⟨hhigh, hlow⟩ := List.append_inj h (by simp)
    have hquotient : n / 256 = m / 256 := ih (by omega) (by omega) hhigh
    have hoctet : (UInt8.ofNat n).toNat = (UInt8.ofNat m).toNat := by
      rw [List.singleton_inj.mp hlow]
    rw [UInt8.toNat_ofNat', UInt8.toNat_ofNat'] at hoctet
    omega

theorem selfDelimiting_bigEndian (size : Nat) :
    SelfDelimiting (fun n => n < 256 ^ size) (bigEndian size) :=
  .of_length (n := size) (fun _ _ => length_bigEndian _ _) fun _ _ => bigEndian_inj

/-! ### Texts after their length -/

/-- A text after its length, a field of `size` octets. -/
def lengthPrefixed (size : Nat) (text : List UInt8) : List UInt8 :=
  bigEndian size text.length ++ text

theorem selfDelimiting_lengthPrefixed (size : Nat) :
    SelfDelimiting (fun text => text.length < 256 ^ size) (lengthPrefixed size) := by
  intro a b r s ha hb heq
  simp only [lengthPrefixed, List.append_assoc] at heq
  obtain ⟨hlength, hrest⟩ := selfDelimiting_bigEndian size ha hb heq
  exact List.append_inj hrest hlength
