import Mathlib.Tactic.Common

/-!
# Computations with a state and exceptions

A computation turns a state into a result or an exception, and a state: what it did before it raised
is not undone. `Ensures I m Q` says that `m` keeps the invariant `I`, also when it raises, and that a
result satisfies `Q`; `Reaches I m Q` says in addition that it does not raise; `Logs m m' R` says that
`m'` does what `m` does and keeps a log of it. The rules reduce all three to the parts a program is
made of.
-/

/-- A computation on a state `σ` that raises `ε`. -/
def Effect (ε σ α : Type) : Type := σ → Except ε α × σ

namespace Effect

variable {ε σ α β : Type}

protected def pure (a : α) : Effect ε σ α := fun s => (.ok a, s)

protected def bind (m : Effect ε σ α) (f : α → Effect ε σ β) : Effect ε σ β := fun s =>
  match m s with
  | (.ok a, s') => f a s'
  | (.error e, s') => (.error e, s')

instance : Monad (Effect ε σ) where
  pure := Effect.pure
  bind := Effect.bind

def throw (e : ε) : Effect ε σ α := fun s => (.error e, s)

/-- `[f(x) for x in xs]` -/
def forList (f : α → Effect ε σ β) : List α → Effect ε σ (List β)
  | [] => pure []
  | x :: xs => do
    let y ← f x
    let ys ← forList f xs
    pure (y :: ys)

/-- `m` on the first of two states. -/
def onFirst {τ : Type} (m : Effect ε σ α) : Effect ε (σ × τ) α := fun s =>
  ((m s.1).1, (m s.1).2, s.2)

/-- `m` keeps `I`, and its result satisfies `Q`. -/
def Ensures (I : σ → Prop) (m : Effect ε σ α) (Q : α → Prop) : Prop :=
  ∀ s, I s → I (m s).2 ∧ ∀ a, (m s).1 = .ok a → Q a

/-- `m` keeps `I` and has a result, which satisfies `Q`. -/
def Reaches (I : σ → Prop) (m : Effect ε σ α) (Q : α → Prop) : Prop :=
  ∀ s, I s → I (m s).2 ∧ ∃ a, (m s).1 = .ok a ∧ Q a

/-- `m'` does what `m` does and adds to a log, so that a result and the addition satisfy `R`. -/
def Logs {ω : Type} (m : Effect ε σ α) (m' : Effect ε (σ × List ω) α) (R : α → List ω → Prop) :
    Prop :=
  ∀ s l, ∃ added, m' (s, l) = ((m s).1, (m s).2, l ++ added) ∧ ∀ a, (m s).1 = .ok a → R a added

variable {I : σ → Prop} {m : Effect ε σ α} {f : α → Effect ε σ β} {Q Q' : α → Prop} {R : β → Prop}

theorem bind_of_ok {s s' : σ} {a : α} (h : m s = (.ok a, s')) : (m >>= f) s = f a s' := by
  show Effect.bind m f s = _
  rw [Effect.bind, h]

theorem bind_of_error {s s' : σ} {e : ε} (h : m s = (.error e, s')) :
    (m >>= f) s = (.error e, s') := by
  show Effect.bind m f s = _
  rw [Effect.bind, h]

namespace Ensures

theorem pure {a : α} (h : Q a) : Ensures I (Pure.pure a : Effect ε σ α) Q := by
  intro s hs
  refine ⟨hs, fun b hb => ?_⟩
  obtain rfl := Except.ok.inj hb
  exact h

theorem throw (e : ε) : Ensures I (Effect.throw e : Effect ε σ α) Q :=
  fun _ hs => ⟨hs, fun _ hb => by cases hb⟩

theorem bind (hm : Ensures I m Q) (hf : ∀ a, Q a → Ensures I (f a) R) : Ensures I (m >>= f) R := by
  intro s hs
  obtain ⟨hI, hQ⟩ := hm s hs
  rcases h : m s with ⟨r, s'⟩
  rw [h] at hI hQ
  cases r with
  | ok a =>
    rw [bind_of_ok h]
    exact hf a (hQ a rfl) s' hI
  | error e =>
    rw [bind_of_error h]
    exact ⟨hI, fun b hb => by cases hb⟩

/-- What follows a computation without a result does not run. -/
theorem bind_absurd (hm : Ensures I m fun _ => False) : Ensures I (m >>= f) R :=
  hm.bind fun _ habsurd => habsurd.elim

theorem mono (hm : Ensures I m Q) (h : ∀ a, Q a → Q' a) : Ensures I m Q' := fun s hs =>
  ⟨(hm s hs).1, fun a ha => h a ((hm s hs).2 a ha)⟩

theorem forList {P : α → β → Prop} {xs : List α} (h : ∀ x ∈ xs, Ensures I (f x) (P x)) :
    Ensures I (Effect.forList f xs) fun ys => List.Forall₂ P xs ys := by
  induction xs with
  | nil => exact .pure .nil
  | cons x xs ih =>
    refine (h x (by simp)).bind fun y hy => ?_
    refine (ih fun x' hx' => h x' (by simp [hx'])).bind fun ys hys => ?_
    exact .pure (.cons hy hys)

theorem trivial (m : Effect ε σ α) : Ensures (fun _ => True) m fun _ => True :=
  fun _ _ => ⟨True.intro, fun _ _ => True.intro⟩

/-- A list has no result when one of its elements has none. -/
theorem forList_absurd {xs : List α} {x : α} (hx : x ∈ xs)
    (h : Ensures (fun _ => True) (f x) fun _ => False) :
    Ensures (fun _ => True) (Effect.forList f xs) fun _ => False := by
  have hall : Ensures (fun _ => True) (Effect.forList f xs) fun ys =>
      List.Forall₂ (fun x' _ => x' ≠ x) xs ys := by
    refine .forList fun x' _ s hs => ⟨hs, fun y hy heq => ?_⟩
    subst heq
    exact (h s hs).2 y hy
  refine hall.mono fun ys hys => ?_
  clear hall
  induction hys with
  | nil => simp at hx
  | cons hne _ ih =>
    rcases List.mem_cons.mp hx with heq | hx
    · exact hne heq.symm
    · exact ih hx

end Ensures

namespace Reaches

theorem pure {a : α} (h : Q a) : Reaches I (Pure.pure a : Effect ε σ α) Q :=
  fun _ hs => ⟨hs, a, rfl, h⟩

theorem bind (hm : Reaches I m Q) (hf : ∀ a, Q a → Reaches I (f a) R) : Reaches I (m >>= f) R := by
  intro s hs
  obtain ⟨hI, a, ha, hQ⟩ := hm s hs
  rcases h : m s with ⟨r, s'⟩
  rw [h] at hI ha
  obtain rfl : r = .ok a := ha
  rw [bind_of_ok h]
  exact hf a hQ s' hI

theorem mono (hm : Reaches I m Q) (h : ∀ a, Q a → Q' a) : Reaches I m Q' := fun s hs =>
  let ⟨hI, a, ha, hQ⟩ := hm s hs
  ⟨hI, a, ha, h a hQ⟩

theorem forList {P : α → β → Prop} {xs : List α} (h : ∀ x ∈ xs, Reaches I (f x) (P x)) :
    Reaches I (Effect.forList f xs) fun ys => List.Forall₂ P xs ys := by
  induction xs with
  | nil => exact .pure .nil
  | cons x xs ih =>
    refine (h x (by simp)).bind fun y hy => ?_
    refine (ih fun x' hx' => h x' (by simp [hx'])).bind fun ys hys => ?_
    exact .pure (.cons hy hys)

end Reaches

/-- A property that a sequence of computations has when its parts have it. -/
structure Sequential (K : ∀ {α : Type}, Effect ε σ α → Prop) : Prop where
  pure : ∀ {α : Type} (a : α), K (Pure.pure a : Effect ε σ α)
  bind : ∀ {α β : Type} {m : Effect ε σ α} {f : α → Effect ε σ β},
    K m → (∀ a, K (f a)) → K (m >>= f)

namespace Sequential

variable {K : ∀ {α : Type}, Effect ε σ α → Prop}

theorem forList (hK : Sequential K) {xs : List α} (h : ∀ x ∈ xs, K (f x)) :
    K (Effect.forList f xs) := by
  induction xs with
  | nil => exact hK.pure []
  | cons x xs ih =>
    refine hK.bind (h x (by simp)) fun y => ?_
    exact hK.bind (ih fun x' hx' => h x' (by simp [hx'])) fun ys => hK.pure (y :: ys)

theorem ensures (I : σ → Prop) :
    Sequential (ε := ε) fun {α} (m : Effect ε σ α) => Ensures I m fun _ => True :=
  ⟨fun _ => .pure True.intro, fun hm hf => hm.bind fun a _ => hf a⟩

theorem reaches (I : σ → Prop) :
    Sequential (ε := ε) fun {α} (m : Effect ε σ α) => Reaches I m fun _ => True :=
  ⟨fun _ => .pure True.intro, fun hm hf => hm.bind fun a _ => hf a⟩

end Sequential

namespace Logs

variable {ω : Type} {m' : Effect ε (σ × List ω) α} {f' : α → Effect ε (σ × List ω) β}
  {R : α → List ω → Prop} {R' : β → List ω → Prop}

theorem pure {a : α} (h : R a []) :
    Logs (Pure.pure a : Effect ε σ α) (Pure.pure a : Effect ε (σ × List ω) α) R := by
  intro s l
  refine ⟨[], ?_, fun b hb => ?_⟩
  · rw [List.append_nil]
    rfl
  · obtain rfl := Except.ok.inj hb
    exact h

theorem bind (hm : Logs m m' R)
    (hf : ∀ a l, R a l → Logs (f a) (f' a) fun b l' => R' b (l ++ l')) :
    Logs (m >>= f) (m' >>= f') R' := by
  intro s l
  obtain ⟨first, hfirst, hR⟩ := hm s l
  rcases h : m s with ⟨r, s₁⟩
  rw [h] at hfirst hR
  cases r with
  | error e =>
    rw [bind_of_error h, bind_of_error hfirst]
    exact ⟨first, rfl, fun b hb => by cases hb⟩
  | ok a =>
    obtain ⟨second, hsecond, hR'⟩ := hf a first (hR a rfl) s₁ (l ++ first)
    rw [bind_of_ok h, bind_of_ok hfirst, hsecond]
    exact ⟨first ++ second, by rw [List.append_assoc], hR'⟩

theorem forList {g : β → List ω} {xs : List α}
    (h : ∀ x ∈ xs, Logs (f x) (f' x) fun y l => l = g y) :
    Logs (Effect.forList f xs) (Effect.forList f' xs) fun ys l => l = ys.flatMap g := by
  induction xs with
  | nil => exact .pure rfl
  | cons x xs ih =>
    refine (h x (by simp)).bind fun y l hl => ?_
    refine (ih fun x' hx' => h x' (by simp [hx'])).bind fun ys l' hl' => .pure ?_
    rw [hl, hl', List.append_nil, List.flatMap_cons]

end Logs

end Effect
